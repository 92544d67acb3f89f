import BazelMcp.Lifecycle

/-! The end of an accepted invocation. A worker reports success only over a
terminal record; what it leaves behind otherwise is the supervisor's, which
requests `Failed`. The transition table refuses that request for a record that
is still queued, so such a record is dropped as it is. -/
namespace BazelMcp.Lifecycle.Completion
open Tasks Lifecycle List InvocationState
open Outline hiding bind assume

/-- A worker fails or panics only after the record left `Queued`, and the store
answers the supervisor. -/
def recoverable (task : Task) (act : Act) (state : State) (answer : Answer act) (after : State) : Bool :=
  match task, act, answer with
  | .worker, .endWorker (.error _), _ => state.durable ≠ .queued
  | .fault, _, _ => state.durable ≠ .queued
  | .supervisor, .getInvocationHeader, .error _ => false
  | .supervisor, .transition _, .error .io => after.durable ≠ state.durable
  | .supervisor, .transition _, .error .notFound => after.durable ≠ state.durable
  | _, _, _ => true

def Settled (state : State) : Prop := state.durable.isTerminal = true

structure Consistent (state : State) : Prop where
  past : ∀ shown ∈ state.past, shown.isTerminal = false
  succeeded : ∀ shown, state.outcome = some (.ok shown) → Settled state
  failed : ∀ outcome, state.outcome = some outcome → (∀ shown, outcome ≠ .ok shown) → state.durable ≠ .queued
  removed : state.removed = true → Settled state

/-- What any task may do to the others. -/
structure Move (state after : State) : Prop where
  settled : Settled state → Settled after
  left : state.durable ≠ .queued → after.durable ≠ .queued
  consistent : Consistent state → Consistent after

variable {state : State}

variable {act : Act} {after : State} {answer : Answer act}

theorem actEffect_removed (other : act ≠ .removeLive)
    (possible : (answer,after) ∈ actEffect act state) : after.removed = state.removed := by
  cases act with
  | transition next | finishInvocation next => exact (writeState_frame possible).2.2
  | removeLive => exact absurd rfl other
  | _ =>
    simp only [actEffect,selectCancelled,failures] at possible
    grind

section
variable (possible : (answer,after) ∈ actEffect act state)
include possible

theorem actEffect_left (left : state.durable ≠ .queued) : after.durable ≠ .queued := by
  rcases actEffect_record possible with ⟨same,_⟩ | ⟨next,_,written,valid⟩
  · rw [same]
    exact left
  · rw [written]
    exact (validateTransition_source valid).2

theorem actEffect_settled (settled : Settled state) : Settled after := by
  rw [Settled,actEffect_terminal settled possible]
  exact settled

theorem actEffect_past (past : ∀ shown ∈ state.past, shown.isTerminal = false) :
    ∀ shown ∈ after.past, shown.isTerminal = false := by
  rcases actEffect_record possible with ⟨_,same⟩ | ⟨next,_,written,valid⟩
  · rw [same]
    exact past
  rw [written]
  intro shown inside
  rcases mem_cons.mp inside with rfl | earlier
  · exact (validateTransition_source valid).1
  · exact past shown earlier

end

@[simp] def Plain (act : Act) : Prop := (∀ outcome, act ≠ .endWorker outcome) ∧ act ≠ .workerPanic ∧ act ≠ .removeLive

theorem plain_move (plain : Plain act) (possible : (answer,after) ∈ actEffect act state) : Move state after := by
  have removed := actEffect_removed plain.2.2 possible
  have outcome : after.outcome = state.outcome := by
    rcases actEffect_outcome possible with ⟨outcome,wrong⟩ | wrong | same
    · exact absurd wrong (plain.1 outcome)
    · exact absurd wrong plain.2.1
    · exact same
  refine ⟨actEffect_settled possible,actEffect_left possible,?_⟩
  intro consistent
  refine ⟨actEffect_past possible consistent.past,?_,?_,?_⟩
  · intro shown same
    rw [outcome] at same
    exact actEffect_settled possible (consistent.succeeded shown same)
  · intro ended same other
    rw [outcome] at same
    exact actEffect_left possible (consistent.failed ended same other)
  · intro gone
    rw [removed] at gone
    exact actEffect_settled possible (consistent.removed gone)

section Outlines
variable {task : Task}

abbrev Keeps (task : Task) {α : Type} (pre : State → Prop) (program : Proc α) (post : α → State → Prop) : Prop :=
  Outline (Own effect recoverable task) Move Move pre program post

def Ended (state : State) : Prop := Consistent state ∧ Settled state

def Left (state : State) : Prop := Consistent state ∧ state.durable ≠ .queued

theorem consistent_stable : Stable Move Consistent := fun _ _ moved => moved.consistent

theorem ended_stable : Stable Move Ended := by
  intro state after moved ended
  exact ⟨moved.consistent ended.1,moved.settled ended.2⟩

theorem left_stable : Stable Move Left := by
  intro state after moved left
  exact ⟨moved.consistent left.1,moved.left left.2⟩

/-- What a read or a write tells: an answer that is terminal speaks of a record
that has ended. -/
def Tells : Except StoreError InvocationState → State → Prop
  | .ok shown, state => Consistent state ∧ (shown.isTerminal = true → Settled state)
  | .error _, state => Consistent state

theorem tells_stable (answer : Except StoreError InvocationState) : Stable Move (Tells answer) := by
  cases answer with
  | error error => exact consistent_stable
  | ok shown =>
    intro state after moved tells
    exact ⟨moved.consistent tells.1,fun terminal => moved.settled (tells.2 terminal)⟩

variable (isRun deferred : Bool) {state : State} {context : InvocationState}

variable {after : State} {answer : Except StoreError InvocationState} {next : InvocationState}

theorem header_tells (consistent : Consistent state)
    (possible : (answer,after) ∈ actEffect .getInvocationHeader state) : Tells answer after := by
  rcases mem_append.mp possible with read | failed
  · obtain ⟨shown,inside,same⟩ := mem_map.mp read
    cases same
    refine ⟨consistent,?_⟩
    intro terminal
    rcases mem_cons.mp inside with rfl | earlier
    · exact terminal
    · have open_ := consistent.past shown earlier
      rw [terminal] at open_
      cases open_
  · obtain ⟨rfl,rfl | rfl⟩ := mem_failures failed
    · exact consistent
    · exact consistent

theorem invocation_tells (consistent : Consistent state)
    (possible : (answer,after) ∈ actEffect .getInvocation state) : Tells answer after := by
  rcases mem_cons.mp possible with read | failed
  · cases read
    exact ⟨consistent,fun terminal => terminal⟩
  · obtain ⟨rfl,rfl | rfl⟩ := mem_failures failed
    · exact consistent
    · exact consistent

def Wrote (next : InvocationState) : Except StoreError InvocationState → State → Prop
  | .ok _, state => Consistent state ∧ (next.isTerminal = true → Settled state)
  | .error _, state => Consistent state

theorem wrote_stable (next : InvocationState) (answer : Except StoreError InvocationState) : Stable Move (Wrote next answer) := by
  cases answer with
  | error error => exact consistent_stable
  | ok shown =>
    intro state after moved wrote
    exact ⟨moved.consistent wrote.1,fun terminal => moved.settled (wrote.2 terminal)⟩

theorem write_wrote
    (consistent : Consistent after) (possible : (answer,after) ∈ writeState next state) : Wrote next answer after := by
  cases answer with
  | error error => exact consistent
  | ok shown =>
    rcases mem_writeState possible with ⟨rfl,_⟩ | ⟨_,_,wrong⟩ | ⟨_,wrong | wrong⟩
    · exact ⟨consistent,fun terminal => terminal⟩
    · cases wrong
    · cases wrong
    · cases wrong

def Reports : Finished → State → Prop
  | .ok _ => Ended
  | .error _ => Consistent

theorem outline_call {act : Act} {post : Answer act → State → Prop} (plain : Plain act)
    (stable : ∀ answer, Stable Move (post answer))
    (told : ∀ {state answer after}, Consistent state → Consistent after → (answer,after) ∈ actEffect act state → post answer after) :
    Keeps task Consistent (perform act) post := by
  apply perform consistent_stable
  · intro state answer after consistent own
    have possible := (mem_effect own.1).1
    have moved := plain_move plain possible
    exact ⟨moved,told consistent (moved.consistent consistent) possible⟩
  · exact stable

theorem outline_plain {act : Act} (plain : Plain act) : Keeps task Consistent (perform act) (fun _ => Consistent) :=
  outline_call plain (fun _ => consistent_stable) fun _ kept _ => kept

theorem outline_header : Keeps task Consistent getInvocationHeader Tells :=
  outline_call (by simp) tells_stable fun consistent _ => header_tells consistent

theorem outline_invocation : Keeps task Consistent getInvocation Tells :=
  outline_call (by simp) tells_stable fun consistent _ => invocation_tells consistent

theorem outline_transition (next : InvocationState) : Keeps task Consistent (transition next) (Wrote next) :=
  outline_call (by simp) (wrote_stable next) fun _ => write_wrote

theorem outline_finish (next : InvocationState) : Keeps task Consistent (finishInvocation next) (Wrote next) :=
  outline_call (by simp) (wrote_stable next) fun _ => write_wrote

theorem outline_done {α : Type} {pre : State → Prop} {value : α} {post : α → State → Prop}
    (stable : Stable Move pre) (enough : ∀ state, pre state → post value state) : Keeps task pre (pure value) post :=
  done stable enough

theorem outline_failure {pre : State → Prop} {error : RunnerError} (stable : Stable Move pre)
    (consistent : ∀ state, pre state → Consistent state) : Keeps task pre (pure (.error error)) Reports :=
  outline_done stable consistent

theorem outline_failed {error : RunnerError} : Keeps task Consistent (pure (.error error)) Reports :=
  outline_failure consistent_stable fun _ consistent => consistent

theorem outline_ended {shown : InvocationState} : Keeps task Ended (pure (.ok shown)) Reports := outline_done ended_stable fun _ ended => ended

theorem tells_consistent (state : State) (tells : Tells answer state) : Consistent state := by
  cases answer with
  | error error => exact tells
  | ok shown => exact tells.1

theorem wrote_consistent (state : State) (wrote : Wrote next answer state) : Consistent state := by
  cases answer with
  | error error => exact wrote
  | ok shown => exact wrote.1

theorem tells_ended {shown : InvocationState} (terminal : shown.isTerminal = true) (state : State)
    (tells : Tells (.ok shown) state) : Ended state := ⟨tells.1,tells.2 terminal⟩

theorem wrote_reports (terminal : next.isTerminal = true) (state : State) (wrote : Wrote next answer state) :
    Reports (storeResult answer) state := by
  cases answer with
  | error error => exact wrote
  | ok shown => exact ⟨wrote.1,wrote.2 terminal⟩

def Shows : Option InvocationState → State → Prop
  | some _ => Ended
  | none => Consistent

theorem outline_terminalHeader : Keeps task Consistent terminalHeader Shows := by
  apply Outline.bind outline_header
  intro answer
  cases answer with
  | error error => exact outline_done consistent_stable (fun _ consistent => consistent)
  | ok shown =>
    apply outline_done (tells_stable _)
    intro state tells
    split
    · rename_i terminal
      exact tells_ended terminal state tells
    · exact tells.1

theorem outline_finishCancelled : Keeps task Consistent finishCancelled Reports := by
  apply Outline.bind outline_invocation
  intro current
  split
  · exact outline_failed
  split
  · rename_i terminal
    exact outline_done (tells_stable _) (tells_ended terminal)
  apply Outline.bind ((outline_transition .cancelled).strengthen (tells_stable _) tells_consistent)
  intro cancelled
  split
  · exact outline_done (wrote_stable _ _) (wrote_reports rfl)
  · apply Outline.bind (outline_invocation.strengthen (wrote_stable _ _) wrote_consistent)
    intro record
    split
    · exact outline_failed
    split
    · rename_i terminal
      exact outline_done (tells_stable _) (tells_ended terminal)
    · exact outline_failure (tells_stable _) tells_consistent
  · exact outline_failure (wrote_stable _ _) wrote_consistent

theorem outline_failStarted : Keeps task Consistent failStarted Reports := by
  apply Outline.bind outline_invocation
  intro current
  split
  · exact outline_failed
  split
  · rename_i terminal
    exact outline_done (tells_stable _) (tells_ended terminal)
  · apply Outline.bind ((outline_transition .failed).strengthen (tells_stable _) tells_consistent)
    intro failed
    exact outline_done (wrote_stable _ _) (wrote_reports rfl)

theorem outline_finishStartFailure : Keeps task Consistent finishStartFailure Reports := by
  apply Outline.bind outline_invocation
  intro current
  split
  · exact outline_failed
  split
  · rename_i terminal
    exact outline_done (tells_stable _) (tells_ended terminal)
  split
  · apply Outline.bind ((outline_transition .starting).strengthen (tells_stable _) tells_consistent)
    intro started
    split
    · exact outline_failStarted.strengthen (wrote_stable _ _) wrote_consistent
    · exact outline_failStarted.strengthen (wrote_stable _ _) wrote_consistent
    · exact outline_failure (wrote_stable _ _) wrote_consistent
  · exact outline_failStarted.strengthen (tells_stable _) tells_consistent

theorem outline_commitTerminal (terminal : next.isTerminal = true) (recover : Bool) :
    Keeps task Consistent (commitTerminal next recover) Reports := by
  apply Outline.bind (outline_finish next)
  intro finished
  split
  · exact outline_done (wrote_stable _ _) (wrote_reports terminal)
  apply Outline.bind (outline_terminalHeader.strengthen (wrote_stable _ _) wrote_consistent)
  intro shown
  cases shown with
  | some record => exact outline_ended
  | none =>
    change Keeps task Consistent (ite _ _ _) Reports
    split
    · apply Outline.bind (outline_transition next)
      intro written
      exact outline_done (wrote_stable _ _) (wrote_reports terminal)
    · exact outline_failed

theorem outline_recoverTerminalFailure (terminal : context.isTerminal = true)
    (error : RunnerError) : Keeps task Consistent (recoverTerminalFailure context error) Reports := by
  apply Outline.bind outline_terminalHeader
  intro shown
  cases shown with
  | some record => exact outline_ended
  | none =>
    have verdict : (if context = .succeeded then failed else context).isTerminal = true := by
      split
      · rfl
      · exact terminal
    apply Outline.bind (outline_commitTerminal verdict true)
    intro committed
    split
    · exact outline_ended
    · exact outline_failed

theorem outline_orRecover (terminal : context.isTerminal = true) {program : Proc Finished}
    (outline : Keeps task Consistent program Reports) : Keeps task Consistent (orRecover context program) Reports := by
  apply Outline.bind outline
  intro finished
  split
  · exact outline_ended
  · exact outline_recoverTerminalFailure terminal _

theorem outline_processEvidence {state : InvocationState} (terminal : state.isTerminal = true) :
    Keeps task Consistent (processEvidence state) Reports := by
  apply Outline.bind (outline_plain (by simp))
  intro captured
  split
  · apply Outline.bind (outline_plain (by simp))
    intro reduced
    split
    · exact outline_commitTerminal terminal false
    · exact outline_failed
  · exact outline_failed

/-- Whatever starting decides to commit is terminal. -/
def Decides (started : Except RunnerError StartExecution) (state : State) : Prop :=
  Consistent state ∧ ∀ next, started = .ok (.terminal next) → next.isTerminal = true

theorem outline_decides {started : Except RunnerError StartExecution}
    (terminal : ∀ next, started = .ok (.terminal next) → next.isTerminal = true) : Keeps task Consistent (pure started) Decides :=
  outline_done consistent_stable (fun _ consistent => ⟨consistent,terminal⟩)

theorem outline_launch : Keeps task Consistent launch Decides := by
  apply Outline.bind (outline_plain (by simp))
  intro prepared
  split
  · apply Outline.bind (outline_plain (by simp))
    intro spawned
    split
    · apply Outline.bind (outline_plain (by simp))
      intro recorded
      split
      · exact outline_decides (by simp)
      · apply Outline.bind (outline_plain (by simp))
        intro _
        exact outline_decides (by simp [isTerminal])
    · exact outline_decides (by simp [isTerminal])
  · exact outline_decides (by simp)

theorem outline_startExecution : Keeps task Consistent startExecution Decides := by
  apply Outline.bind (outline_plain (by simp))
  intro cancelled
  split
  · exact outline_decides (by simp [isTerminal])
  apply Outline.bind (outline_plain (by simp))
  intro opened
  split
  · apply Outline.bind (outline_plain (by simp))
    intro cancelled
    split
    · exact outline_decides (by simp [isTerminal])
    · exact outline_launch
  · exact outline_decides (by simp [isTerminal])

def Exits : Finished → State → Prop
  | .ok state, current => Consistent current ∧ state.isTerminal = true
  | .error _, current => Consistent current

theorem outline_exits {finished : Finished} (terminal : ∀ state, finished = .ok state → state.isTerminal = true) :
    Keeps task Consistent (pure finished) Exits := by
  apply outline_done consistent_stable
  intro state consistent
  cases finished with
  | error error => exact consistent
  | ok exited => exact ⟨consistent,terminal exited rfl⟩

theorem outline_waitForExit : Keeps task Consistent (waitForExit isRun) Exits := by
  apply Outline.bind (outline_plain (by simp))
  intro ended
  cases ended with
  | exited success =>
    cases isRun with
    | false =>
      apply outline_exits
      rintro state ⟨⟩
      cases success <;> rfl
    | true =>
      apply Outline.bind (outline_plain (by simp))
      intro settled
      apply outline_exits
      rintro state ⟨⟩
      cases settled <;> cases success <;> rfl
  | waitFailed => exact outline_exits (by simp)
  | cancelled | timedOut | outputLimit =>
    apply Outline.bind (outline_plain (by simp))
    intro _
    apply outline_exits
    rintro state ⟨⟩
    rfl

theorem outline_execute : Keeps task Consistent (execute isRun) Reports := by
  apply Outline.bind outline_startExecution
  intro started
  apply Outline.assume
  intro decided
  rcases started with error | (_ | next)
  · exact outline_recoverTerminalFailure rfl error
  · apply Outline.bind (outline_waitForExit isRun)
    intro exited
    cases exited with
    | error error => exact outline_recoverTerminalFailure rfl error
    | ok state =>
      apply Outline.assume
      intro terminal
      exact outline_orRecover terminal (outline_processEvidence terminal)
  · exact outline_orRecover rfl (outline_commitTerminal (decided next rfl) false)

theorem outline_failUnlessTerminal : Keeps task Consistent failUnlessTerminal (fun _ => Consistent) := by
  apply Outline.bind outline_header
  intro record
  split
  · split
    · exact outline_done (tells_stable _) tells_consistent
    · apply Outline.bind ((outline_transition .failed).strengthen (tells_stable _) tells_consistent)
      intro failed
      exact outline_done (wrote_stable _ _) wrote_consistent
  · exact outline_done consistent_stable (fun _ consistent => consistent)

theorem outline_startingFailed (error : StoreError) : Keeps task Consistent (startingFailed error) Reports := by
  apply Outline.bind outline_failUnlessTerminal
  intro _
  apply Outline.bind outline_terminalHeader
  intro shown
  cases shown with
  | some record => exact outline_ended
  | none => exact outline_failed

theorem outline_runWithPermit : Keeps task Consistent (runWithPermit isRun) Reports := by
  apply Outline.bind (outline_plain (by simp))
  intro cancelled
  split
  · exact outline_finishCancelled
  apply Outline.bind (outline_plain (by simp))
  intro recorded
  split
  · exact outline_execute isRun
  · exact outline_startingFailed _

theorem outline_runPrepared : Keeps task Consistent (runPrepared isRun) Reports := by
  apply Outline.bind (outline_plain (by simp))
  intro workspace
  split
  · exact outline_finishCancelled
  · exact outline_finishCancelled
  apply Outline.bind (outline_plain (by simp))
  intro base
  split
  · exact outline_finishCancelled
  · exact outline_finishStartFailure
  apply Outline.bind (outline_plain (by simp))
  intro permit
  split
  · exact outline_finishCancelled
  · exact outline_failed
  · exact outline_runWithPermit isRun

theorem end_move (outcome : WorkerEnd) (succeeded : ∀ shown, outcome = .ok shown → Settled state)
    (failed : (∀ shown, outcome ≠ .ok shown) → state.durable ≠ .queued) :
    Move state {state with outcome := some outcome} := by
  refine ⟨fun settled => settled,fun left => left,?_⟩
  intro consistent
  refine ⟨consistent.past,?_,?_,consistent.removed⟩
  · intro shown same
    exact succeeded shown (Option.some.inj same)
  · intro ended same other
    cases Option.some.inj same
    exact failed other

theorem outline_worker : Keeps .worker Consistent (worker isRun) (fun _ => Consistent) := by
  apply Outline.bind (outline_runPrepared isRun)
  intro finished
  cases finished with
  | ok shown =>
    apply perform ended_stable
    · intro state answer after ended own
      cases mem_singleton.mp (mem_effect own.1).1
      have moved := end_move (.ok shown) (fun _ _ => ended.2) (fun other => absurd rfl (other shown))
      exact ⟨moved,moved.consistent ended.1⟩
    · exact fun _ => consistent_stable
  | error error =>
    apply perform consistent_stable
    · intro state answer after consistent own
      have left : state.durable ≠ .queued := by simpa [recoverable] using own.2
      cases mem_singleton.mp (mem_effect own.1).1
      have moved := end_move (.error error) (fun _ wrong => WorkerEnd.noConfusion wrong) (fun _ => left)
      exact ⟨moved,moved.consistent consistent⟩
    · exact fun _ => consistent_stable

theorem outline_fault (faulty : Bool) :
    Keeps .fault Consistent (if faulty then perform Act.workerPanic else pure ()) (fun _ => Consistent) := by
  cases faulty with
  | false => exact outline_done consistent_stable (fun _ consistent => consistent)
  | true =>
    apply perform consistent_stable
    · intro state answer after consistent own
      have left : state.durable ≠ .queued := by simpa [recoverable] using own.2
      have possible := (mem_effect own.1).1
      simp only [actEffect] at possible
      split at possible
      · cases mem_singleton.mp possible
        have moved := end_move .panicked (fun _ wrong => WorkerEnd.noConfusion wrong) (fun _ => left)
        exact ⟨moved,moved.consistent consistent⟩
      · exact absurd possible not_mem_nil
    · exact fun _ => consistent_stable

theorem outline_uses {α : Type} {program : Proc α} (uses : program.Uses Plain) :
    Keeps task Consistent program (fun _ => Consistent) := by
  refine uniform consistent_stable ?_ uses
  intro act state answer after plain consistent own
  have moved := plain_move plain (mem_effect own.1).1
  exact ⟨moved,moved.consistent consistent⟩

/-- The outcome the supervisor joins: what it says about the record. -/
def Joined : WorkerEnd → State → Prop
  | .ok _ => Ended
  | .error _ | .panicked => Left

theorem joined_of {outcome : WorkerEnd} (consistent : Consistent state)
    (ended : state.outcome = some outcome) : Joined outcome state := by
  cases outcome with
  | ok shown => exact ⟨consistent,consistent.succeeded shown ended⟩
  | error error | panicked => exact ⟨consistent,consistent.failed _ ended (fun _ wrong => WorkerEnd.noConfusion wrong)⟩

theorem outline_join : Keeps .supervisor Consistent (perform Act.joinWorker) Joined := by
  apply perform consistent_stable
  · intro state answer after consistent own
    have possible := (mem_effect own.1).1
    refine ⟨plain_move (by simp) possible,?_⟩
    simp only [actEffect] at possible
    split at possible
    · rename_i outcome ended
      cases mem_singleton.mp possible
      exact joined_of consistent ended
    · exact absurd possible not_mem_nil
  · intro outcome
    cases outcome with
    | ok shown => exact ended_stable
    | error error | panicked => exact left_stable

theorem refused_failed {current : InvocationState} (refused : current.validateTransition .failed = false) :
    current = .queued ∨ current.isTerminal = true := by
  cases current with
  | queued => exact .inl rfl
  | starting | running => cases refused
  | succeeded | failed | cancelled | timedOut | interrupted => exact .inr rfl

/-- Once the record left `Queued`, a request for `Failed` that the store
answers leaves it terminal: it is granted or was not needed. -/
theorem failed_settles (left : Left state)
    (own : Own effect recoverable .supervisor (.transition .failed) state answer after) : Settled after := by
  rcases mem_writeState (mem_effect own.1).1 with ⟨rfl,_⟩ | ⟨rfl,refused,_⟩ | ⟨rfl,failed⟩
  · rfl
  · rcases refused_failed refused with queued | terminal
    · exact absurd queued left.2
    · exact terminal
  have answered := own.2
  rcases failed with rfl | rfl
  · simp [recoverable] at answered
  · simp [recoverable] at answered

/-- What the supervisor's header tells it: the store does not fail it. -/
def Consults : Except StoreError InvocationState → State → Prop
  | .ok shown, state => Left state ∧ (shown.isTerminal = true → Settled state)
  | .error _, _ => False

theorem consults_stable (shown : InvocationState) : Stable Move (Consults (.ok shown)) := by
  intro state after moved consults
  exact ⟨left_stable state after moved consults.1,fun terminal => moved.settled (consults.2 terminal)⟩

theorem outline_consult : Keeps .supervisor Left getInvocationHeader Consults := by
  apply perform left_stable
  · intro state answer after left own
    have possible := (mem_effect own.1).1
    have moved : Move state after := plain_move (show Plain .getInvocationHeader by simp [Plain]) possible
    refine ⟨moved,?_⟩
    have tells := header_tells left.1 possible
    cases answer with
    | error error => cases own.2
    | ok shown => exact ⟨⟨tells.1,moved.left left.2⟩,tells.2⟩
  · intro answer
    cases answer with
    | error error => exact fun _ _ _ wrong => wrong
    | ok shown => exact consults_stable shown

theorem outline_failRecord : Keeps .supervisor Left (transition .failed) (fun _ => Ended) := by
  apply perform left_stable
  · intro state answer after left own
    have moved : Move state after := plain_move (show Plain (.transition .failed) by simp [Plain]) (mem_effect own.1).1
    exact ⟨moved,moved.consistent left.1,failed_settles left own⟩
  · exact fun _ => ended_stable

theorem outline_settle : Keeps .supervisor Left failUnlessTerminal (fun _ => Ended) := by
  apply Outline.bind outline_consult
  intro record
  cases record with
  | error error => exact vacuous _ (fun _ wrong => wrong)
  | ok shown =>
    change Keeps _ _ (ite _ _ _) _
    split
    · rename_i terminal
      exact outline_done (consults_stable shown) (fun _ consults => ⟨consults.1.1,consults.2 terminal⟩)
    · apply Outline.bind (outline_failRecord.strengthen (consults_stable shown) (fun _ consults => consults.1))
      intro failed
      exact outline_done ended_stable (fun _ ended => ended)

theorem outline_materializeWorkerFailure : Keeps .supervisor Left (materializeWorkerFailure deferred) (fun _ => Ended) := by
  unfold materializeWorkerFailure
  split
  · have persisted : Keeps .supervisor Left (perform Act.persistDeferredFailure) (fun _ => Left) := by
      apply perform left_stable
      · intro state answer after left own
        have moved := plain_move (show Plain .persistDeferredFailure by simp [Plain]) (mem_effect own.1).1
        exact ⟨moved,moved.consistent left.1,moved.left left.2⟩
      · exact fun _ => left_stable
    apply Outline.bind persisted
    intro _
    exact outline_settle
  · exact outline_settle

theorem outline_remove : Keeps .supervisor Ended (perform Act.removeLive) (fun _ => Ended) := by
  apply perform ended_stable
  · intro state answer after ended own
    cases mem_singleton.mp (mem_effect own.1).1
    have moved : Move state {state with removed := true} :=
      ⟨fun settled => settled,fun left => left,
        fun consistent => ⟨consistent.past,consistent.succeeded,consistent.failed,fun _ => ended.2⟩⟩
    exact ⟨moved,moved.consistent ended.1,ended.2⟩
  · exact fun _ => ended_stable

theorem outline_supervisor : Keeps .supervisor Consistent (supervisor deferred) (fun _ => Ended) := by
  apply Outline.bind outline_join
  intro outcome
  have settled : Keeps .supervisor (Joined outcome) (settleWorker deferred outcome) (fun _ => Ended) := by
    cases outcome with
    | ok shown => exact outline_done ended_stable (fun _ ended => ended)
    | error error | panicked => exact outline_materializeWorkerFailure deferred
  apply Outline.bind settled
  intro _
  exact outline_remove

theorem cancelling_plain (act : Act) (cancelling : Cancelling act) : Plain act := by
  rcases cancelling with rfl | rfl | rfl | rfl <;> simp [Plain]

theorem start_annotated (faulty : Bool) (reason : Nat → Bool) :
    Annotated effect recoverable (fun _ => Move) (fun _ => Move) (start isRun deferred faulty reason) := by
  have fresh : Consistent {} := by
    refine ⟨by simp,by simp,by simp,by simp⟩
  intro task
  refine ⟨Consistent,fresh,?_⟩
  cases task with
  | worker => exact (outline_worker isRun).weaken (fun _ _ _ => trivial)
  | supervisor => exact (outline_supervisor deferred).weaken (fun _ _ _ => trivial)
  | shutdown =>
    have uses : (discard (perform Act.cancel) : Proc Unit).Uses Plain := by
      apply uses_bind <;> simp [Plain]
    exact (outline_uses uses).weaken (fun _ _ _ => trivial)
  | fault => exact (outline_fault faulty).weaken (fun _ _ _ => trivial)
  | canceller number =>
    have uses : (discard (cancelWithReason (reason number)) : Proc Unit).Uses Plain := by
      apply uses_bind
      · exact (uses_cancelWithReason _).mono cancelling_plain
      · intro _
        simp
    exact (outline_uses uses).weaken (fun _ _ _ => trivial)

end Outlines

/-- In every run in which the worker fails or panics only after the record left
`Queued`, and the store answers the supervisor, an invocation that the
supervisor has dropped is terminal. -/
theorem removed_terminal (isRun deferred faulty : Bool) (reason : Nat → Bool) {config : Config Act Answer State Task}
    (reached : Reach effect recoverable (start isRun deferred faulty reason) config)
    (removed : config.state.removed = true) : config.state.durable.isTerminal = true := by
  have fresh : Consistent (start isRun deferred faulty reason).state := by
    refine ⟨?_,?_,?_,?_⟩ <;> simp [start]
  have compatible : ∀ task other : Task, task ≠ other → ∀ state next, Move state next → Move state next :=
    fun _ _ _ _ _ moved => moved
  have kept : ∀ _ : Task, ∀ state next, Move state next → Consistent state → Consistent next :=
    fun _ _ _ moved => moved.consistent
  have consistent := ((start_annotated isRun deferred faulty reason).reach compatible kept fresh reached).2
  exact consistent.removed removed

def acceptedInvocation : Config Act Answer State Task := start false false false (fun _ => false)

/-- One failed write of `Starting`, and nothing else, leaves the record queued:
`Failed` is refused to the worker and to the supervisor. -/
theorem failed_start_stays_queued : ∃ config, Reach effect (fun _ _ _ _ _ => true) acceptedInvocation config ∧
      config.state.removed = true ∧ config.state.durable = .queued := by
  have replayed : replay effect (fun _ _ _ _ _ => true) acceptedInvocation
      (List.replicate 4 (.worker,0) ++ [(.worker,1)] ++ List.replicate 4 (.worker,0) ++
        List.replicate 4 (.supervisor,0)) = some _ := rfl
  exact ⟨_,replay_reach replayed,rfl,rfl⟩

theorem failed_evidence_ends_terminal :
    ∃ config, Reach effect recoverable acceptedInvocation config ∧ config.state.outcome = some (.ok .failed) ∧
      config.state.removed = true ∧ config.state.durable.isTerminal = true := by
  have replayed : replay effect recoverable acceptedInvocation
      (List.replicate 12 (.worker,0) ++ [(.worker,1)] ++ List.replicate 3 (.worker,0) ++
        List.replicate 2 (.supervisor,0)) = some _ := rfl
  have reached := replay_reach replayed
  exact ⟨_,reached,rfl,rfl,removed_terminal false false false (fun _ => false) reached rfl⟩

end BazelMcp.Lifecycle.Completion

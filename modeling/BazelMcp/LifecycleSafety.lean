import BazelMcp.Lifecycle

/-! No terminal record while Bazel is alive. The worker moves the record to
`Starting` before it spawns and reaps the child before it commits; a cancelling
call that commits on a record it no longer finds queued breaks this, and so
does a failed wait. Runs without these two steps keep the property. -/
namespace BazelMcp.Lifecycle
open Tasks List
open Outline hiding bind assume

/-- Cancelling calls commit only on a queued record, and waiting for the child
does not fail. -/
def orderly (task : Task) (act : Act) (state : State) (answer : Answer act) (after : State) : Bool :=
  match task, act, answer with
  | .canceller _, _, _ => after.durable = state.durable || state.durable = .queued
  | _, .waitChild _, .waitFailed => false
  | _, _, _ => true

def Guarded (state : State) : Prop :=
  (state.child = .alive → state.durable = .starting ∨ state.durable = .running) ∧
    (state.outcome.isSome = true → state.child ≠ .alive)

/-- What the other tasks do around the worker. -/
structure OthersMove (state after : State) : Prop where
  child : after.child = state.child
  outcome : after.outcome = state.outcome
  durable : state.outcome = none →
    after.durable = state.durable ∨ (state.durable = .queued ∧ after.durable = .cancelled)

def rely : Task → State → State → Prop
  | .worker, state, after => OthersMove state after
  | .supervisor, state, after => state.outcome.isSome = true → after.outcome.isSome = true
  | _, _, _ => True

def guarantee : Task → State → State → Prop
  | .worker, state, after => state.outcome = none ∧ (Guarded state → Guarded after)
  | _, state, after => OthersMove state after

theorem rely_of_guarantee (task other : Task) (apart : task ≠ other) (state after : State)
    (promised : guarantee other state after) : rely task state after := by
  cases task with
  | worker =>
    cases other with
    | worker => exact absurd rfl apart
    | _ => exact promised
  | supervisor =>
    intro ended
    cases other with
    | worker =>
      rw [promised.1] at ended
      cases ended
    | _ =>
      rw [promised.outcome]
      exact ended
  | _ => trivial

variable (isRun : Bool) {state : State} {α : Type}

variable {after : State} {program : Proc α} {act : Act} {answer : Answer act}

theorem OthersMove.guarded (moved : OthersMove state after) (guarded : Guarded state) : Guarded after := by
  obtain ⟨alive,ended⟩ := guarded
  constructor
  · intro runs
    rw [moved.child] at runs
    have live : state.outcome = none := by
      by_contra settled
      exact ended (Option.isSome_iff_ne_none.mpr settled) runs
    rcases moved.durable live with same | ⟨queued,_⟩
    · rw [same]
      exact alive runs
    · rw [queued] at alive
      rcases alive runs with wrong | wrong <;> cases wrong
  · rw [moved.child,moved.outcome]
    exact ended

theorem guarded_kept (task : Task) (state after : State) (promised : guarantee task state after)
    (guarded : Guarded state) : Guarded after := by
  cases task with
  | worker => exact promised.2 guarded
  | _ => exact OthersMove.guarded promised guarded

def Calm (state : State) : Prop := state.child ≠ .alive

theorem guarded_of_calm (calm : Calm state) : Guarded state :=
  ⟨fun alive => absurd alive calm,fun _ => calm⟩

abbrev Worker {α : Type} (pre : State → Prop) (program : Proc α) (post : α → State → Prop) : Prop :=
  Outline (Own effect orderly .worker) (rely .worker) (guarantee .worker) pre program post

theorem calm_stable : Stable (rely .worker) Calm := by
  intro state after moved calm
  rw [Calm,moved.child]
  exact calm

theorem calm_step (act : Act) (state : State) (answer : Answer act) (after : State) (other : act ≠ .spawn)
    (calm : Calm state) (own : Own effect orderly .worker act state answer after) :
    guarantee .worker state after ∧ Calm after := by
  obtain ⟨possible,live⟩ := mem_effect own.1
  have kept : Calm after := by
    rcases actEffect_child possible with spawned | same | ⟨reaped,_⟩
    · exact absurd spawned other
    · rw [Calm,same]
      exact calm
    · rw [Calm,reaped]
      exact ChildState.noConfusion
  exact ⟨⟨live rfl,fun _ => guarded_of_calm kept⟩,kept⟩

theorem calm_outline (uses : program.Uses (· ≠ .spawn)) :
    Worker Calm program (fun _ => Calm) := uniform calm_stable calm_step uses

theorem calm_recording (uses : program.Uses Recording) : Worker Calm program (fun _ => Calm) :=
  calm_outline (uses.mono fun _ recording spawn => by rw [spawn] at recording; cases recording)

def Ready (state : State) : Prop := state.child ≠ .alive ∧ state.outcome = none ∧ state.durable = .starting

def Live (state : State) : Prop :=
  state.child = .alive ∧ state.outcome = none ∧ (state.durable = .starting ∨ state.durable = .running)

theorem ready_stable : Stable (rely .worker) Ready := by
  intro state after moved ready
  obtain ⟨calm,live,starting⟩ := ready
  refine ⟨moved.child ▸ calm,moved.outcome ▸ live,?_⟩
  rcases moved.durable live with same | ⟨queued,_⟩
  · rw [same]
    exact starting
  · rw [starting] at queued
    cases queued

theorem live_stable : Stable (rely .worker) Live := by
  intro state after moved running
  obtain ⟨alive,live,durable⟩ := running
  refine ⟨moved.child ▸ alive,moved.outcome ▸ live,?_⟩
  rcases moved.durable live with same | ⟨queued,_⟩
  · rw [same]
    exact durable
  · rw [queued] at durable
    rcases durable with wrong | wrong <;> cases wrong

theorem guarded_of_live (running : Live state) : Guarded state := by
  obtain ⟨_,live,durable⟩ := running
  refine ⟨fun _ => durable,?_⟩
  rw [live]
  intro ended
  cases ended

theorem ready_ask (asking : act = .isCancelled ∨ act = .openStdio ∨ act = .prepareCapture) (ready : Ready state)
    (own : Own effect orderly .worker act state answer after) : guarantee .worker state after ∧ Ready after := by
  obtain ⟨possible,live⟩ := mem_effect own.1
  have same : after = state := by
    rcases asking with rfl | rfl | rfl
    · exact (Prod.mk.inj (mem_singleton.mp possible)).2
    · simp only [actEffect,mem_cons,Prod.mk.injEq,not_mem_nil,or_false] at possible
      exact possible.elim (·.2) (·.2)
    · simp only [actEffect,mem_cons,Prod.mk.injEq,not_mem_nil,or_false] at possible
      exact possible.elim (·.2) (·.2)
  subst after
  exact ⟨⟨live rfl,fun guarded => guarded⟩,ready⟩

theorem outline_ask (asking : act = .isCancelled ∨ act = .openStdio ∨ act = .prepareCapture) :
    Worker Ready (perform act) (fun _ => Ready) :=
  perform ready_stable (fun _ _ _ => ready_ask asking) (fun _ => ready_stable)

theorem calm_of_ready (state : State) (ready : Ready state) : Calm state := ready.1

theorem outline_return {pre : State → Prop} {value : α} {post : α → State → Prop}
    (stable : Stable (rely .worker) pre) (enough : ∀ state, pre state → post value state) :
    Worker pre (pure value) post := done stable enough

/-- What starting leaves behind: a live child, or none and a verdict. -/
def Launched (started : Except RunnerError StartExecution) : State → Prop :=
  match started with
  | .ok .running => Live
  | _ => Calm

theorem outline_spawn : Worker Ready (perform Act.spawn) (fun spawned => if spawned = true then Live else Calm) := by
  apply perform ready_stable
  · intro state answer after ready own
    obtain ⟨possible,live⟩ := mem_effect own.1
    simp only [actEffect,mem_cons,Prod.mk.injEq,not_mem_nil,or_false] at possible
    rcases possible with ⟨rfl,rfl⟩ | ⟨rfl,rfl⟩
    · have running : Live {state with child := .alive} := ⟨rfl,ready.2.1,.inl ready.2.2⟩
      exact ⟨⟨ready.2.1,fun _ => guarded_of_live running⟩,running⟩
    · exact ⟨⟨ready.2.1,fun guarded => guarded⟩,ready.1⟩
  · intro spawned
    split
    · exact live_stable
    · exact calm_stable

theorem outline_running : Worker Live (transition .running) (fun _ => Live) := by
  apply perform live_stable
  · intro state answer after running own
    obtain ⟨possible,_⟩ := mem_effect own.1
    have kept : Live after := by
      rcases mem_writeState possible with ⟨rfl,_⟩ | ⟨rfl,_⟩ | ⟨rfl,_⟩
      · exact ⟨running.1,running.2.1,.inr rfl⟩
      · exact running
      · exact running
    exact ⟨⟨running.2.1,fun _ => guarded_of_live kept⟩,kept⟩
  · intro _
    exact live_stable

theorem outline_terminate : Worker Live terminateChild (fun _ => Calm) := by
  apply perform live_stable
  · intro state answer after running own
    obtain ⟨possible,_⟩ := mem_effect own.1
    cases mem_singleton.mp possible
    have calm : Calm {state with child := .reaped} := ChildState.noConfusion
    exact ⟨⟨running.2.1,fun _ => guarded_of_calm calm⟩,calm⟩
  · intro _
    exact calm_stable

theorem outline_launch : Worker Ready launch Launched := by
  apply Outline.bind (outline_ask (.inr (.inr rfl)))
  intro prepared
  split
  · apply Outline.bind outline_spawn
    intro spawned
    cases spawned with
    | false => exact outline_return calm_stable (fun _ calm => calm)
    | true =>
      apply Outline.bind outline_running
      intro recorded
      split
      · exact outline_return live_stable (fun _ running => running)
      · apply Outline.bind outline_terminate
        intro _
        exact outline_return calm_stable (fun _ calm => calm)
  · exact outline_return ready_stable calm_of_ready

theorem outline_startExecution : Worker Ready startExecution Launched := by
  apply Outline.bind (outline_ask (.inl rfl))
  intro cancelled
  split
  · exact outline_return ready_stable calm_of_ready
  apply Outline.bind (outline_ask (.inr (.inl rfl)))
  intro opened
  split
  · apply Outline.bind (outline_ask (.inl rfl))
    intro cancelled
    split
    · exact outline_return ready_stable calm_of_ready
    · exact outline_launch
  · exact outline_return ready_stable calm_of_ready

/-- How a permitted wait ends: with a reaped child, or to be terminated. -/
def Waited : Exit → State → Prop
  | .exited _ => Calm
  | .waitFailed => fun _ => False
  | _ => Live

theorem waited_stable (ended : Exit) : Stable (rely .worker) (Waited ended) := by
  cases ended with
  | exited success => exact calm_stable
  | waitFailed => exact fun _ _ _ wrong => wrong
  | cancelled | timedOut | outputLimit => exact live_stable

theorem outline_waitChild : Worker Live (perform (Act.waitChild isRun)) Waited := by
  apply perform live_stable
  · intro state answer after running own
    obtain ⟨possible,_⟩ := mem_effect own.1
    have permitted := own.2
    have waited : Waited answer after := by
      rcases mem_selectCancelled possible with other | ⟨rfl,rfl⟩
      · simp only [cons_append,nil_append,mem_cons,Prod.mk.injEq] at other
        rcases other with ⟨rfl,rfl⟩ | ⟨rfl,rfl⟩ | ⟨rfl,rfl⟩ | ⟨rfl,rfl⟩ | limited
        · exact ChildState.noConfusion
        · exact ChildState.noConfusion
        · cases permitted
        · exact running
        split at limited
        · cases mem_singleton.mp limited
          exact running
        · exact absurd limited not_mem_nil
      · exact running
    refine ⟨⟨running.2.1,fun _ => ?_⟩,waited⟩
    cases answer with
    | exited success => exact guarded_of_calm waited
    | waitFailed => exact waited.elim
    | cancelled | timedOut | outputLimit => exact guarded_of_live waited
  · exact waited_stable

theorem outline_waitForExit : Worker Live (waitForExit isRun) (fun _ => Calm) := by
  apply Outline.bind (outline_waitChild isRun)
  intro ended
  cases ended with
  | exited success =>
    cases isRun with
    | false => exact outline_return calm_stable (fun _ calm => calm)
    | true =>
      apply calm_outline
      apply uses_bind <;> simp
  | waitFailed => exact outline_return (fun _ _ _ wrong => wrong) (fun _ wrong => wrong.elim)
  | cancelled | timedOut | outputLimit =>
    apply Outline.bind outline_terminate
    intro _
    exact outline_return calm_stable (fun _ calm => calm)

theorem outline_execute : Worker Ready (execute isRun) (fun _ => Calm) := by
  apply Outline.bind outline_startExecution
  intro started
  rcases started with error | (_ | next)
  · exact calm_recording (uses_recoverTerminalFailure _ _)
  · apply Outline.bind (outline_waitForExit isRun)
    intro exited
    split
    · exact calm_recording (uses_recoverTerminalFailure _ _)
    · exact calm_recording (uses_orRecover (uses_processEvidence _))
  · exact calm_recording (uses_orRecover (uses_commitTerminal _ _))

/-- Only a successful write of `Starting` leads on to the child. -/
def Recorded : Except StoreError InvocationState → State → Prop
  | .ok _ => Ready
  | .error _ => Calm

theorem outline_starting : Worker Calm (transition .starting) Recorded := by
  apply perform calm_stable
  · intro state answer after calm own
    obtain ⟨promised,kept⟩ := calm_step _ state answer after (fun wrong => Act.noConfusion wrong) calm own
    refine ⟨promised,?_⟩
    cases answer with
    | error error => exact kept
    | ok shown =>
      rcases mem_writeState (mem_effect own.1).1 with ⟨rfl,_⟩ | ⟨_,_,refused⟩ | ⟨_,failed | failed⟩
      · exact ⟨kept,promised.1,rfl⟩
      · cases refused
      · cases failed
      · cases failed
  · intro recorded
    cases recorded with
    | error error => exact calm_stable
    | ok shown => exact ready_stable

theorem outline_runWithPermit : Worker Calm (runWithPermit isRun) (fun _ => Calm) := by
  apply Outline.bind (calm_outline (by simp))
  intro cancelled
  split
  · exact calm_recording uses_finishCancelled
  apply Outline.bind outline_starting
  intro recorded
  cases recorded with
  | ok shown => exact outline_execute isRun
  | error error => exact calm_recording (uses_startingFailed error)

theorem outline_runPrepared : Worker Calm (runPrepared isRun) (fun _ => Calm) := by
  apply Outline.bind (calm_outline (by simp))
  intro workspace
  split
  · exact calm_recording uses_finishCancelled
  · exact calm_recording uses_finishCancelled
  apply Outline.bind (calm_outline (by simp))
  intro base
  split
  · exact calm_recording uses_finishCancelled
  · exact calm_recording uses_finishStartFailure
  apply Outline.bind (calm_outline (by simp))
  intro permit
  split
  · exact calm_recording uses_finishCancelled
  · exact outline_return calm_stable (fun _ calm => calm)
  · exact outline_runWithPermit isRun

theorem outline_worker : Worker Calm (worker isRun) (fun _ _ => True) := by
  apply Outline.bind (outline_runPrepared isRun)
  intro finished
  split
  · exact (calm_outline (by simp)).weaken (fun _ _ _ => trivial)
  · exact (calm_outline (by simp)).weaken (fun _ _ _ => trivial)

/-- Calls of a task that neither starts, reaps nor ends anything. -/
def Outside (act : Act) : Prop :=
  act ≠ .spawn ∧ act ≠ .terminateChild ∧ (∀ isRun, act ≠ .waitChild isRun) ∧ (∀ outcome, act ≠ .endWorker outcome) ∧
    act ≠ .workerPanic

theorem outside_frame (outside : Outside act)
    (possible : (answer,after) ∈ actEffect act state) : after.child = state.child ∧ after.outcome = state.outcome := by
  obtain ⟨spawn,terminate,wait,ended,panicked⟩ := outside
  constructor
  · rcases actEffect_child possible with wrong | same | ⟨_,wrong | ⟨isRun,wrong⟩⟩
    · exact absurd wrong spawn
    · exact same
    · exact absurd wrong terminate
    · exact absurd wrong (wait isRun)
  · rcases actEffect_outcome possible with ⟨outcome,wrong⟩ | wrong | same
    · exact absurd wrong (ended outcome)
    · exact absurd wrong panicked
    · exact same

theorem othersMove_quiet (outside : Outside act)
    (possible : (answer,after) ∈ actEffect act state) (same : after.durable = state.durable) : OthersMove state after := by
  obtain ⟨child,outcome⟩ := outside_frame outside possible
  exact ⟨child,outcome,fun _ => .inl same⟩

theorem cancelling_outside (cancelling : Cancelling act) : Outside act := by
  rcases cancelling with rfl | rfl | rfl | rfl <;> simp [Outside]

theorem canceller_step (number : Nat) (act : Act) (state : State) (answer : Answer act) (after : State)
    (cancelling : Cancelling act) (own : Own effect orderly (.canceller number) act state answer after) :
    OthersMove state after := by
  have possible := (mem_effect own.1).1
  have permitted : after.durable = state.durable ∨ state.durable = .queued := by
    have orderly := own.2
    simpa [Lifecycle.orderly] using orderly
  obtain ⟨child,outcome⟩ := outside_frame (cancelling_outside cancelling) possible
  refine ⟨child,outcome,fun _ => ?_⟩
  rcases permitted with same | queued
  · exact .inl same
  rcases actEffect_record possible with ⟨same,_⟩ | ⟨next,act,written,_⟩
  · exact .inl same
  refine .inr ⟨queued,?_⟩
  rcases cancelling with rfl | rfl | rfl | rfl
  · rcases act with wrong | wrong <;> cases wrong
  · rcases act with wrong | wrong <;> cases wrong
  · rcases act with wrong | wrong <;> cases wrong
  rcases act with wrong | wrong
  · cases wrong
    rw [written]
    rfl
  · cases wrong

theorem outline_canceller (number : Nat) (reason : Bool) :
    Outline (Own effect orderly (.canceller number)) (rely (.canceller number)) (guarantee (.canceller number))
      (fun _ => True) (discard (cancelWithReason reason)) (fun _ _ => True) := by
  have uses : (discard (cancelWithReason reason) : Proc Unit).Uses Cancelling := by
    apply uses_bind
    · exact uses_cancelWithReason reason
    · intro _
      simp
  refine uniform (fun _ _ _ _ => trivial) ?_ uses
  intro act state answer after cancelling _ own
  exact ⟨canceller_step number act state answer after cancelling own,trivial⟩

theorem outline_shutdown : Outline (Own effect orderly .shutdown) (rely .shutdown) (guarantee .shutdown)
      (fun _ => True) (discard (perform Act.cancel)) (fun _ _ => True) := by
  have uses : (discard (perform Act.cancel) : Proc Unit).Uses (· = .cancel) := by
    apply uses_bind <;> simp
  refine uniform (fun _ _ _ _ => trivial) ?_ uses
  rintro _ state answer after rfl _ own
  have possible := (mem_effect own.1).1
  refine ⟨othersMove_quiet (by simp [Outside]) possible ?_,trivial⟩
  rcases actEffect_record possible with ⟨same,_⟩ | ⟨next,wrong | wrong,_⟩
  · exact same
  · cases wrong
  · cases wrong

def Over (state : State) : Prop := state.outcome.isSome = true

abbrev Supervisor {α : Type} (pre : State → Prop) (program : Proc α) (post : α → State → Prop) : Prop :=
  Outline (Own effect orderly .supervisor) (rely .supervisor) (guarantee .supervisor) pre program post

theorem outline_over (uses : program.Uses Outside) : Supervisor Over program (fun _ => Over) := by
  refine uniform (fun _ _ moved settled => moved settled) ?_ uses
  intro act state answer after outside settled own
  obtain ⟨child,outcome⟩ := outside_frame outside (mem_effect own.1).1
  have later : Over after := by
    rw [Over,outcome]
    exact settled
  refine ⟨⟨child,outcome,?_⟩,later⟩
  intro live
  rw [Over,live] at settled
  cases settled

theorem recording_outside (recording : Recording act) : Outside act := by
  cases act with
  | spawn | terminateChild | waitChild | endWorker | workerPanic => cases recording
  | _ => simp [Outside]

theorem outline_supervisor (deferred : Bool) : Supervisor (fun _ => True) (supervisor deferred) (fun _ _ => True) := by
  have joined : Supervisor (fun _ => True) (perform Act.joinWorker) (fun _ => Over) := by
    apply perform (fun _ _ _ _ => trivial)
    · intro state answer after _ own
      have possible := (mem_effect own.1).1
      simp only [actEffect] at possible
      split at possible
      · rename_i outcome ended
        cases mem_singleton.mp possible
        exact ⟨⟨rfl,rfl,fun _ => .inl rfl⟩,by rw [Over,ended]; rfl⟩
      · exact absurd possible not_mem_nil
    · exact fun _ _ _ moved settled => moved settled
  apply Outline.bind joined
  intro outcome
  have settles : (settleWorker deferred outcome).Uses Outside := by
    unfold settleWorker
    split
    · simp
    · exact (uses_materializeWorkerFailure deferred).mono fun _ => recording_outside
    · exact (uses_materializeWorkerFailure deferred).mono fun _ => recording_outside
  have rest : (settleWorker deferred outcome >>= fun _ => perform Act.removeLive : Proc Unit).Uses Outside := by
    apply uses_bind settles
    intro _
    simp [Outside]
  exact (outline_over rest).weaken (fun _ _ _ => trivial)

theorem start_annotated (deferred : Bool) (reason : Nat → Bool) :
    Annotated effect orderly rely guarantee (start isRun deferred false reason) := by
  intro task
  cases task with
  | worker => exact ⟨Calm,ChildState.noConfusion,outline_worker isRun⟩
  | supervisor => exact ⟨fun _ => True,trivial,outline_supervisor deferred⟩
  | shutdown => exact ⟨fun _ => True,trivial,outline_shutdown⟩
  | fault => exact ⟨fun _ => True,trivial,done (fun _ _ _ _ => trivial) (fun _ _ => trivial)⟩
  | canceller number => exact ⟨fun _ => True,trivial,outline_canceller number (reason number)⟩

def acceptedBuild : Config Act Answer State Task := start false false false (fun _ => false)

def spawnTurns : List (Task × Nat) := List.replicate 10 (.worker,0)

end BazelMcp.Lifecycle

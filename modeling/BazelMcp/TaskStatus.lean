import BazelMcp.Expansion
import BazelMcp.Lifecycle
import BazelMcp.StoreIndex

/-! Tasks of the server: the status that a poll derives from a deferred result and the
state of its invocation, and the requests of both task protocols that read or change
what it is derived from, beside the life of the invocation itself. -/
namespace BazelMcp.TaskStatus
open Tasks Lifecycle StoreIndex List

inductive TaskState where
  | working
  | completed
  | failed
  | cancelled
  deriving DecidableEq

namespace TaskState

def asStr : TaskState → String
  | .working => "working"
  | .completed => "completed"
  | .failed => "failed"
  | .cancelled => "cancelled"

def isTerminal (state : TaskState) : Bool := state ≠ .working

end TaskState

inductive TaskResultState where
  | pending
  | invocation (toolError : Bool)
  | internalFailure (redactedMessage : String)
  | cancelled
  deriving DecidableEq

/-- A deferred result with the state of its invocation. -/
structure DeferredResultView where
  deferred : DeferredResultRecord
  state : InvocationState
  deriving DecidableEq

structure TaskSnapshot where
  id : Uuid
  state : TaskState
  result : TaskResultState
  createdAtMs : Int
  updatedAtMs : Int
  ttlMs : Nat
  pollIntervalMs : Nat
  statusMessage : String
  deriving DecidableEq

def advertisedTtlMs (record : DeferredResultRecord) : Nat :=
  let ttl := saturatingSubI64 record.expiresAtMs record.createdAtMs
  if ttl < 0 then 0xffffffffffffffff else ttl.toNat

namespace DeferredResultView

def outcome (view : DeferredResultView) : TaskState × TaskResultState :=
  if view.deferred.retrieval = .separateResult ∧ view.deferred.terminalOverride = some .cancelled then
    (.cancelled,.invocation view.deferred.failure.isSome)
  else
    match view.deferred.failure.filter (·.kind = .internal) with
    | some failure => (.failed,.internalFailure failure.redactedMessage)
    | none =>
      if view.deferred.retrieval = .inlineResult ∧ view.state = .cancelled then (.cancelled,.cancelled)
      else if view.deferred.retrieval = .separateResult ∧ view.deferred.failure.isSome then (.failed,.invocation true)
      else if view.state.isTerminal then (.completed,.invocation view.deferred.failure.isSome)
      else (.working,.pending)

end DeferredResultView

def TaskSnapshot.fromView (view : DeferredResultView) (pollIntervalMs : Nat) (nowMs : Int) : TaskSnapshot :=
  let (state,result) := view.outcome
  let elapsedMs := max (saturatingSubI64 nowMs view.deferred.createdAtMs) 0
  { id := view.deferred.invocationId
    state := state
    result := result
    createdAtMs := view.deferred.createdAtMs
    updatedAtMs := view.deferred.updatedAtMs
    ttlMs := advertisedTtlMs view.deferred
    pollIntervalMs := pollIntervalMs
    statusMessage := "state=" ++ state.asStr ++ " elapsed_ms=" ++ toString elapsedMs }

/-! ### One invocation and the requests for its task -/

/-- What the manifest, or the index, holds of the invocation. -/
structure Entry where
  deferred : Option DeferredResultRecord
  state : InvocationState
  deriving DecidableEq

def Entry.status (entry : Entry) : Option TaskState :=
  entry.deferred.map fun deferred => (TaskSnapshot.fromView ⟨deferred,entry.state⟩ 0 0).state

/-- A change of the manifest reaches the index later: `lagging` are the entries the index
may still show, the newest first. `polls` are the statuses that were derived, the newest
first, in the order in which their views were read. -/
structure State where
  life : Lifecycle.State := {}
  deferred : Option DeferredResultRecord
  lagging : List Entry := []
  spawned : Nat → Bool := fun _ => false
  moment : Nat := 0
  polls : List TaskState := []

namespace State

def current (state : State) : Entry := ⟨state.deferred,state.life.durable⟩
def recent (state : State) : List Entry := state.current::state.lagging

def write (state : State) (life : Lifecycle.State) (deferred : Option DeferredResultRecord) : State :=
  {state with life := life, deferred := deferred, lagging := state.recent, moment := state.moment+1}

end State

inductive Act where
  | life (act : Lifecycle.Act)
  | getDeferredResult (retrieval : DeferredRetrieval)
  | recordDeferredCancellation
  | setDeferredCancelled
  | wait
  | spawnFinalizer (number : Nat)
  | joinSpawned (number : Nat)
  deriving DecidableEq

@[reducible] def Answer : Act → Type
  | .life act => Lifecycle.Answer act
  | .getDeferredResult _ => Option DeferredResultView
  | .recordDeferredCancellation | .setDeferredCancelled => Except StoreError Unit
  | .wait => Bool
  | .spawnFinalizer _ | .joinSpawned _ => Unit

inductive Task where
  | life (task : Lifecycle.Task)
  | legacyGet (number : Nat)
  | extensionGet (number : Nat)
  | legacyCancel (number : Nat)
  | finalizer (number : Nat)
  | extensionCancel (number : Nat)
  deriving DecidableEq

/-- Requests call the runner as cancellation calls do. -/
def Task.role : Task → Lifecycle.Task
  | .life task => task
  | .legacyCancel number | .extensionCancel number | .legacyGet number | .extensionGet number | .finalizer number => .canceller number

section Effects
variable (clock : Nat → Int) (message : String)

/-- A change of the deferred result: done, failed before the manifest was replaced, or
done although publishing it failed. -/
def mutate (change : DeferredResultRecord → DeferredResultRecord) (state : State) : List (Except StoreError Unit × State) :=
  match state.deferred with
  | none => [(.error .notFound,state),(.error .io,state)]
  | some deferred =>
    let written := state.write state.life (some {change deferred with updatedAtMs := max deferred.updatedAtMs (clock state.moment)})
    [(.ok (),written),(.error .io,state),(.error .io,written)]

/-- A poll reads an entry that the index may show, and from then on the index shows
nothing older. An expired result is removed. -/
def readEntry (retrieval : DeferredRetrieval) (state : State) (older : Nat) : List (Option DeferredResultView × State) :=
  let seen := {state with lagging := state.lagging.take older, moment := state.moment+1}
  match state.recent[older]? with
  | none => []
  | some entry =>
    match entry.deferred with
    | none => [(none,seen)]
    | some deferred =>
      if deferred.isExpired (clock state.moment) entry.state.isTerminal then [(none,seen),(none,seen.write seen.life none)]
      else if deferred.retrieval ≠ retrieval then [(none,seen)]
      else
        let view : DeferredResultView := ⟨deferred,entry.state⟩
        [(some view,{seen with polls := (TaskSnapshot.fromView view 0 (clock state.moment)).state::state.polls})]

def effect (task : Task) : (act : Act) → State → List (Answer act × State)
  | .life .persistDeferredFailure, state => mutate clock ({· with failure := some ⟨.execution,message⟩}) state
  | .life act, state => (Lifecycle.effect task.role act state.life).map fun (answer,life) =>
    (answer,if life.durable = state.life.durable then {state with life := life}
      else state.write life (if life.durable.isTerminal then state.deferred.map (·.extendTerminalExpiry (clock state.moment)) else state.deferred))
  | .getDeferredResult retrieval, state =>
    (none,state)::(List.range state.recent.length).flatMap (readEntry clock retrieval state)
  | .recordDeferredCancellation, state => mutate clock (fun deferred =>
    {deferred with cancellationRequestedAtMs := some (deferred.cancellationRequestedAtMs.getD (clock state.moment))}) state
  | .setDeferredCancelled, state => mutate clock ({· with terminalOverride := some .cancelled}) state
  -- A terminal state is published, and shown by a header, only after it was committed.
  | .wait, state => if state.life.durable.isTerminal then [(true,state),(false,state)] else [(false,state)]
  | .spawnFinalizer number, state => [((),{state with spawned := Function.update state.spawned number true})]
  | .joinSpawned number, state => if state.spawned number then [((),state)] else []

end Effects

/-! ### Requests -/

abbrev Proc := Program Act Answer

abbrev getDeferredResult (retrieval : DeferredRetrieval) : Proc (Option DeferredResultView) := perform (Act.getDeferredResult retrieval)

def cancel : Proc (Except RunnerError CancelResult) := (cancelWithReason false).expand fun act => perform (Act.life act)

def legacyGetTask : Proc Unit := discard (getDeferredResult .separateResult)
def extensionGetTask : Proc Unit := discard (getDeferredResult .inlineResult)

/-- Waits for the invocation to end and marks its task as cancelled. -/
def overrideWhenDone : Proc Bool := do
  if (← perform Act.wait : Bool) then
    match (← perform Act.setDeferredCancelled : Except StoreError Unit) with
    | .ok _ => return true
    | .error _ => return false
  else return false

def requestCancel : Proc Bool := do
  match (← perform Act.recordDeferredCancellation : Except StoreError Unit) with
  | .error _ => return false
  | .ok _ =>
    match ← cancel with
    | .error _ => return false
    | .ok _ => return true

def legacyCancelTask (number : Nat) : Proc Unit := do
  match ← getDeferredResult .separateResult with
  | none => return ()
  | some view =>
    if view.state.isTerminal = true ∨ view.deferred.terminalOverride = some .cancelled then return ()
    else if ← requestCancel then
      perform (Act.spawnFinalizer number)
      if ← overrideWhenDone then legacyGetTask
      else return ()
    else return ()

/-- The override is also written when the request is gone before the invocation ends. -/
def finalizer (number : Nat) : Proc Unit := do
  perform (Act.joinSpawned number)
  discard overrideWhenDone

def extensionCancelTask : Proc Unit := do
  match ← getDeferredResult .inlineResult with
  | none => return ()
  | some _ => discard requestCancel

def start (deferred : DeferredResultRecord) (isRun faulty : Bool) (reason : Nat → Bool) : Config Act Answer State Task where
  tasks
    | .life task => ((Lifecycle.start isRun true faulty reason).tasks task).expand fun act => perform (Act.life act)
    | .legacyGet _ => legacyGetTask
    | .extensionGet _ => extensionGetTask
    | .legacyCancel number => legacyCancelTask number
    | .finalizer number => finalizer number
    | .extensionCancel _ => extensionCancelTask
  state := {deferred := some deferred}

/-! ### A status that was shown -/

/-- The override and a failure change the status only before a terminal one was shown, and
no poll shows a terminal status that was changed in the manifest already. -/
def undisputed (_ : Task) : (act : Act) → State → Answer act → State → Bool
  | .setDeferredCancelled, state, _, after | .life .persistDeferredFailure, state, _, after =>
    after.current.status = state.current.status || state.polls.all fun shown => !shown.isTerminal
  | .getDeferredResult _, _, some view, after =>
    !view.outcome.1.isTerminal || after.recent.all fun entry => entry.status.all (· = view.outcome.1)
  | _, _, _, _ => true

structure Steady (state : State) : Prop where
  shown : ∀ status ∈ state.polls, status.isTerminal = true → ∀ entry ∈ state.recent, ∀ found ∈ entry.status, found = status
  logged : state.polls.Pairwise fun later earlier => earlier.isTerminal = true → later = earlier

section Steps
variable {clock : Nat → Int} {message : String} {state after : State}

variable {deferred changed : DeferredResultRecord} {change : DeferredResultRecord → DeferredResultRecord}

/-- A terminal status with a running invocation comes from the deferred result alone. -/
theorem outcome_running {life next : InvocationState} (running : life.isTerminal = false)
    (terminal : (DeferredResultView.outcome ⟨deferred,life⟩).1.isTerminal = true) (retrieval : changed.retrieval = deferred.retrieval)
    (override : changed.terminalOverride = deferred.terminalOverride) (failure : changed.failure = deferred.failure) :
    (DeferredResultView.outcome ⟨changed,next⟩).1 = (DeferredResultView.outcome ⟨deferred,life⟩).1 := by
  have uncancelled : life ≠ .cancelled := by
    intro same
    rw [same] at running
    cases running
  unfold DeferredResultView.outcome at terminal ⊢
  simp only [retrieval,override,failure,running,uncancelled,and_false,if_false] at terminal ⊢
  split
  · rfl
  rename_i free
  rw [if_neg free] at terminal
  split
  · rfl
  rename_i external
  simp only [external] at terminal
  split
  · rename_i inline
    rw [if_neg (fun separate => by rw [inline.1] at separate; cases separate.1)] at terminal
    cases terminal
  split
  · rfl
  · rename_i unfailed
    rw [if_neg unfailed] at terminal
    cases terminal

theorem extendTerminalExpiry_same (record : DeferredResultRecord) (now : Int) :
    (record.extendTerminalExpiry now).retrieval = record.retrieval ∧
    (record.extendTerminalExpiry now).terminalOverride = record.terminalOverride ∧ (record.extendTerminalExpiry now).failure = record.failure := by
  unfold DeferredResultRecord.extendTerminalExpiry
  dsimp only
  split <;> exact ⟨rfl,rfl,rfl⟩

theorem Steady.write (steady : Steady state) {life : Lifecycle.State} {deferred : Option DeferredResultRecord}
    (kept : ∀ found, Entry.status ⟨deferred,life.durable⟩ = some found →
      state.current.status = some found ∨ ∀ shown ∈ state.polls, shown.isTerminal = false) :
    Steady (state.write life deferred) where
  shown status member terminal entry inside found isFound := by
    rcases mem_cons.mp inside with same | older
    · subst same
      rcases kept found isFound with before | unshown
      · exact steady.shown status member terminal state.current mem_cons_self found before
      · rw [unshown status member] at terminal
        cases terminal
    · exact steady.shown status member terminal entry older found isFound
  logged := steady.logged

theorem outcome_congr (life : InvocationState) (retrieval : changed.retrieval = deferred.retrieval)
    (override : changed.terminalOverride = deferred.terminalOverride) (failure : changed.failure = deferred.failure) :
    (DeferredResultView.outcome ⟨changed,life⟩).1 = (DeferredResultView.outcome ⟨deferred,life⟩).1 := by
  unfold DeferredResultView.outcome
  simp only [retrieval,override,failure]

theorem mem_mutate {answer : Except StoreError Unit} (possible : (answer,after) ∈ mutate clock change state) :
    after = state ∨ ∃ deferred, state.deferred = some deferred ∧
      after = state.write state.life (some {change deferred with updatedAtMs := max deferred.updatedAtMs (clock state.moment)}) := by
  unfold mutate at possible
  split at possible
  · simp only [mem_cons,Prod.mk.injEq,not_mem_nil,or_false] at possible
    rcases possible with ⟨_,same⟩ | ⟨_,same⟩
    · exact .inl same
    · exact .inl same
  · rename_i deferred present
    simp only [mem_cons,Prod.mk.injEq,not_mem_nil,or_false] at possible
    rcases possible with ⟨_,same⟩ | ⟨_,same⟩ | ⟨_,same⟩
    · exact .inr ⟨deferred,present,same⟩
    · exact .inl same
    · exact .inr ⟨deferred,present,same⟩

section
variable (steady : Steady state)
include steady

theorem Steady.narrow (polls : after.polls = state.polls) (recent : ∀ entry ∈ after.recent, entry ∈ state.recent) :
    Steady after where
  shown status member terminal entry inside found isFound :=
    steady.shown status (polls ▸ member) terminal entry (recent entry inside) found isFound
  logged := polls ▸ steady.logged

theorem Steady.unshown {found : TaskState} (status : state.current.status = some found)
    (running : found.isTerminal = false) : ∀ shown ∈ state.polls, shown.isTerminal = false := by
  intro shown member
  by_contra terminal
  have same := steady.shown shown member (Bool.not_eq_false _ ▸ terminal) state.current mem_cons_self found status
  rw [← same,running] at terminal
  exact terminal rfl

theorem steady_mutate {answer : Except StoreError Unit} (possible : (answer,after) ∈ mutate clock change state)
    (undisputed : after.current.status = state.current.status ∨ ∀ shown ∈ state.polls, shown.isTerminal = false) : Steady after := by
  rcases mem_mutate possible with same | ⟨deferred,present,same⟩
  · exact same ▸ steady
  subst same
  apply steady.write
  intro found isFound
  rcases undisputed with kept | unshown
  · exact .inl (kept.symm.trans isFound)
  · exact .inr unshown

theorem steady_life {act : Lifecycle.Act} {role : Lifecycle.Task} {answer : Lifecycle.Answer act} {life : Lifecycle.State}
    (possible : (answer,life) ∈ Lifecycle.effect role act state.life) :
    Steady (if life.durable = state.life.durable then {state with life := life}
      else state.write life (if life.durable.isTerminal then state.deferred.map (·.extendTerminalExpiry (clock state.moment)) else state.deferred)) := by
  split
  · rename_i same
    refine steady.narrow rfl ?_
    intro entry inside
    have kept : ({state with life := life} : State).recent = state.recent := by
      rw [State.recent,State.recent,State.current,State.current,same]
    exact kept ▸ inside
  rename_i changed
  apply steady.write
  intro found isFound
  rcases actEffect_record (mem_effect possible).1 with ⟨same,_⟩ | ⟨next,_,_,valid⟩
  · exact absurd same changed
  have running := (InvocationState.validateTransition_source valid).1
  cases present : state.deferred with
  | none =>
    rw [present] at isFound
    split at isFound <;> cases isFound
  | some deferred =>
    have status : state.current.status = some (DeferredResultView.outcome ⟨deferred,state.life.durable⟩).1 := by
      rw [State.current,present]
      rfl
    by_cases terminal : (DeferredResultView.outcome ⟨deferred,state.life.durable⟩).1.isTerminal = true
    · refine .inl (status.trans ?_)
      rw [← isFound,present]
      split
      · obtain ⟨retrieval,override,failure⟩ := extendTerminalExpiry_same deferred (clock state.moment)
        exact congrArg some (outcome_running running terminal retrieval override failure).symm
      · exact congrArg some (outcome_running running terminal rfl rfl rfl).symm
    · exact .inr (steady.unshown status (Bool.not_eq_true _ ▸ terminal))

theorem steady_readEntry {retrieval : DeferredRetrieval} {older : Nat} {answer : Option DeferredResultView}
    (possible : (answer,after) ∈ readEntry clock retrieval state older)
    (current : ∀ view, answer = some view → view.outcome.1.isTerminal = true →
      ∀ entry ∈ after.recent, ∀ found ∈ entry.status, found = view.outcome.1) : Steady after := by
  have narrowed : Steady {state with lagging := state.lagging.take older, moment := state.moment+1} := by
    refine steady.narrow rfl ?_
    intro entry inside
    rcases mem_cons.mp inside with same | later
    · exact mem_cons.mpr (.inl same)
    · exact mem_cons_of_mem _ (mem_of_mem_take later)
  unfold readEntry at possible
  split at possible
  · cases possible
  rename_i entry isEntry
  split at possible
  · cases mem_singleton.mp possible
    exact narrowed
  rename_i deferred present
  split at possible
  · rcases mem_pair.mp possible with same | same
    · cases same
      exact narrowed
    cases same
    apply narrowed.write
    intro found never
    cases never
  split at possible
  · cases mem_singleton.mp possible
    exact narrowed
  cases mem_singleton.mp possible
  have status : entry.status = some (DeferredResultView.outcome ⟨deferred,entry.state⟩).1 := by
    rw [Entry.status,present]
    rfl
  refine ⟨?_,pairwise_cons.mpr ⟨?_,steady.logged⟩⟩
  · intro shown member terminal other inside found isFound
    rcases mem_cons.mp member with same | before
    · subst same
      exact current _ rfl terminal other inside found isFound
    · exact narrowed.shown shown before terminal other inside found isFound
  · intro shown member terminal
    exact steady.shown shown member terminal entry (mem_of_getElem? isEntry) _ status

theorem steady_step {task : Task} {act : Act} {answer : Answer act}
    (own : Own (effect clock message) undisputed task act state answer after) : Steady after := by
  obtain ⟨possible,permitted⟩ := own
  have changes (permitted : (decide (after.current.status = state.current.status) || state.polls.all fun shown => !shown.isTerminal) = true) :
      after.current.status = state.current.status ∨ ∀ shown ∈ state.polls, shown.isTerminal = false := by
    simpa using permitted
  cases act with
  | life act =>
    by_cases failure : act = .persistDeferredFailure
    · subst failure
      exact steady_mutate steady possible (changes permitted)
    have plain : effect clock message task (.life act) state = (Lifecycle.effect task.role act state.life).map fun (answer,life) =>
        (answer,if life.durable = state.life.durable then {state with life := life}
          else state.write life (if life.durable.isTerminal then state.deferred.map (·.extendTerminalExpiry (clock state.moment))
            else state.deferred)) := by
      cases act with
      | persistDeferredFailure => exact absurd rfl failure
      | _ => rfl
    rw [plain] at possible
    obtain ⟨⟨told,life⟩,taken,same⟩ := mem_map.mp possible
    cases same
    exact steady_life steady taken
  | getDeferredResult retrieval =>
    rcases mem_cons.mp possible with same | read
    · cases same
      exact steady
    obtain ⟨older,_,read⟩ := mem_flatMap.mp read
    apply steady_readEntry steady read
    intro view isView terminal entry inside found isFound
    subst isView
    have kept : (!view.outcome.1.isTerminal || after.recent.all fun entry => entry.status.all (· = view.outcome.1)) = true := permitted
    rw [terminal,Bool.not_true,Bool.false_or] at kept
    have same := all_eq_true.mp kept entry inside
    rw [Option.mem_def.mp isFound] at same
    exact of_decide_eq_true same
  | recordDeferredCancellation =>
    apply steady_mutate steady possible
    rcases mem_mutate possible with same | ⟨deferred,present,same⟩
    · exact .inl (congrArg (Entry.status ∘ State.current) same)
    refine .inl ?_
    subst same
    rw [State.current,State.current,present]
    exact congrArg some (outcome_congr state.life.durable rfl rfl rfl)
  | setDeferredCancelled => exact steady_mutate steady possible (changes permitted)
  | wait =>
    dsimp only [effect] at possible
    split at possible
    · rcases mem_pair.mp possible with same | same
      · cases same
        exact steady
      · cases same
        exact steady
    · cases mem_singleton.mp possible
      exact steady
  | spawnFinalizer number =>
    cases mem_singleton.mp possible
    exact steady.narrow rfl fun _ inside => inside
  | joinSpawned number =>
    dsimp only [effect] at possible
    split at possible
    · cases mem_singleton.mp possible
      exact steady
    · cases possible

end

end Steps

def legacyTask : DeferredResultRecord where
  invocationId := 7
  retrieval := .separateResult
  createdAtMs := 0
  updatedAtMs := 0
  expiresAtMs := 100

end BazelMcp.TaskStatus

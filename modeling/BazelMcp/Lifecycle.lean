import BazelMcp.Tasks
import BazelMcp.Types

/-! The life of one accepted invocation: its worker, the supervisor that waits
for it and any number of cancellation calls, as tasks over the durable record,
the cancellation token and the Bazel child. Every await of the source is one
call; what a call can return and change is listed in `actEffect`. Terminating
the child succeeds and reaps it, and the record's directory stays in place. -/
namespace BazelMcp.Lifecycle
open Tasks

inductive StoreError where
  | state
  | notFound
  | io
  deriving DecidableEq

inductive RunnerError where
  | store (error : StoreError)
  | schedulerClosed
  | process
  | capture
  deriving DecidableEq

inductive ChildState where
  | unspawned
  | alive
  | reaped
  deriving DecidableEq

inductive WorkerEnd where
  | ok (state : InvocationState)
  | error (error : RunnerError)
  | panicked
  deriving DecidableEq

/-- `durable` is the state in the manifest and `past` the states it had before:
the index of the process is written after the manifest and may still show one
of them. `removed` says that the supervisor dropped the live registration. -/
structure State where
  durable : InvocationState := .queued
  past : List InvocationState := []
  token : Bool := false
  child : ChildState := .unspawned
  outcome : Option WorkerEnd := none
  removed : Bool := false
  deriving DecidableEq

inductive Grant where
  | granted
  | cancelled
  | refused
  deriving DecidableEq

/-- How the `select!` of `wait_for_exit` ends. -/
inductive Exit where
  | exited (success : Bool)
  | waitFailed
  | cancelled
  | timedOut
  | outputLimit
  deriving DecidableEq

inductive Act where
  | getInvocationHeader
  | getInvocation
  | transition (next : InvocationState)
  | finishInvocation (next : InvocationState)
  | updateCancellationReason
  | persistDeferredFailure
  | cancel
  | isCancelled
  | lockWorkspace
  | lockOutputBase
  | acquireExecution
  | openStdio
  | prepareCapture
  | spawn
  | terminateChild
  | waitChild (isRun : Bool)
  | outputOverLimit
  | captureEvidence
  | reduceEvidence
  | endWorker (outcome : WorkerEnd)
  | joinWorker
  | removeLive
  | workerPanic
  deriving DecidableEq

abbrev Answer : Act → Type
  | .getInvocationHeader | .getInvocation | .transition _ | .finishInvocation _ => Except StoreError InvocationState
  | .updateCancellationReason | .persistDeferredFailure => Except StoreError Unit
  | .cancel | .isCancelled | .openStdio | .prepareCapture | .spawn | .outputOverLimit | .captureEvidence
  | .reduceEvidence => Bool
  | .lockWorkspace | .lockOutputBase | .acquireExecution => Grant
  | .waitChild _ => Exit
  | .terminateChild | .endWorker _ | .removeLive | .workerPanic => Unit
  | .joinWorker => WorkerEnd

def failures {α : Type} (state : State) : List (Except StoreError α × State) :=
  [(.error .io,state),(.error .notFound,state)]

def State.record (state : State) (next : InvocationState) : State :=
  {state with durable := next, past := state.durable::state.past}

/-- A write of the manifest: refused by the transition table, failed before the
manifest was replaced, done, or done although publishing it failed. -/
def writeState (next : InvocationState) (state : State) : List (Except StoreError InvocationState × State) :=
  if state.durable.validateTransition next then
    (.ok next,state.record next) :: failures state ++ failures (state.record next)
  else (.error .state,state) :: failures state

/-- Waiting that the cancellation token can interrupt. -/
def selectCancelled {α : Type} (cancelled : α) (state : State) (others : List (α × State)) : List (α × State) :=
  others ++ if state.token then [(cancelled,state)] else []

def actEffect : (act : Act) → State → List (Answer act × State)
  | .getInvocationHeader, state => (state.durable::state.past).map (fun shown => (.ok shown,state)) ++ failures state
  | .getInvocation, state => (.ok state.durable,state) :: failures state
  | .transition next, state => writeState next state
  | .finishInvocation next, state => writeState next state
  | .updateCancellationReason, state => (.ok (),state) :: failures state
  | .persistDeferredFailure, state => (.ok (),state) :: failures state
  | .cancel, state => if state.removed then [(false,state)] else [(true,{state with token := true})]
  | .isCancelled, state => [(state.token,state)]
  | .lockWorkspace, state => selectCancelled .cancelled state [(.granted,state)]
  | .lockOutputBase, state => selectCancelled .cancelled state [(.granted,state),(.refused,state)]
  | .acquireExecution, state => selectCancelled .cancelled state [(.granted,state),(.refused,state)]
  | .openStdio, state => [(true,state),(false,state)]
  | .prepareCapture, state => [(true,state),(false,state)]
  | .spawn, state => [(true,{state with child := .alive}),(false,state)]
  | .terminateChild, state => [((),{state with child := .reaped})]
  | .waitChild isRun, state =>
    selectCancelled .cancelled state
      ([(.exited true,{state with child := .reaped}),(.exited false,{state with child := .reaped}),
        (.waitFailed,state),(.timedOut,state)] ++ if isRun then [(.outputLimit,state)] else [])
  | .outputOverLimit, state => [(false,state),(true,state)]
  | .captureEvidence, state => [(true,state),(false,state)]
  | .reduceEvidence, state => [(true,state),(false,state)]
  | .endWorker outcome, state => [((),{state with outcome := some outcome})]
  | .joinWorker, state =>
    match state.outcome with
    | some outcome => [(outcome,state)]
    | none => []
  | .removeLive, state => [((),{state with removed := true})]
  | .workerPanic, state => if state.outcome = none then [((),{state with outcome := some .panicked})] else []

/-- The tasks around one invocation. `shutdown` cancels the token without a
cancellation call, and `fault` is the worker's panic. -/
inductive Task where
  | worker
  | supervisor
  | shutdown
  | fault
  | canceller (number : Nat)
  deriving DecidableEq

/-- A worker that has ended, or panicked, makes no further call. -/
def effect (task : Task) (act : Act) (state : State) : List (Answer act × State) :=
  if task = .worker ∧ state.outcome.isSome = true then [] else actEffect act state

abbrev Proc := Program Act Answer

abbrev Finished := Except RunnerError InvocationState

abbrev getInvocationHeader : Proc (Except StoreError InvocationState) := perform Act.getInvocationHeader
abbrev getInvocation : Proc (Except StoreError InvocationState) := perform Act.getInvocation
abbrev transition (next : InvocationState) : Proc (Except StoreError InvocationState) := perform (Act.transition next)
abbrev finishInvocation (next : InvocationState) : Proc (Except StoreError InvocationState) :=
  perform (Act.finishInvocation next)
abbrev isCancelled : Proc Bool := perform Act.isCancelled
abbrev terminateChild : Proc Unit := perform Act.terminateChild
abbrev endWorker (outcome : WorkerEnd) : Proc Unit := perform (Act.endWorker outcome)

def storeResult (result : Except StoreError InvocationState) : Finished := result.mapError .store

def finishCancelled : Proc Finished := do
  match ← getInvocation with
  | .error error => return .error (.store error)
  | .ok current =>
    if current.isTerminal then return .ok current
    else
      match ← transition .cancelled with
      | .ok record => return .ok record
      | .error .state =>
        match ← getInvocation with
        | .error error => return .error (.store error)
        | .ok record => return if record.isTerminal then .ok record else .error (.store .state)
      | .error error => return .error (.store error)

/-- The second half of `finish_start_failure`, once the record left `Queued`. -/
def failStarted : Proc Finished := do
  match ← getInvocation with
  | .error error => return .error (.store error)
  | .ok current =>
    if current.isTerminal then return .ok current
    else return storeResult (← transition .failed)

def finishStartFailure : Proc Finished := do
  match ← getInvocation with
  | .error error => return .error (.store error)
  | .ok current =>
    if current.isTerminal then return .ok current
    else if current = .queued then
      match ← transition .starting with
      | .ok _ | .error .state => failStarted
      | .error error => return .error (.store error)
    else failStarted

/-- The state a header shows if it is terminal. Every terminal write of this
process carries a summary, so the header of a terminal record has one. -/
def terminalHeader : Proc (Option InvocationState) := do
  match ← getInvocationHeader with
  | .ok record => return if record.isTerminal then some record else none
  | .error _ => return none

def commitTerminal (next : InvocationState) (recoverWithoutEvidence : Bool) : Proc Finished := do
  match ← finishInvocation next with
  | .ok record => return .ok record
  | .error error =>
    match ← terminalHeader with
    | some record => return .ok record
    | none =>
      if error = .notFound ∧ recoverWithoutEvidence = true then return storeResult (← transition next)
      else return .error (.store error)

def recoverTerminalFailure (context : InvocationState) (error : RunnerError) : Proc Finished := do
  match ← terminalHeader with
  | some record => return .ok record
  | none =>
    match ← commitTerminal (if context = .succeeded then .failed else context) true with
    | .ok record => return .ok record
    | .error _ => return .error error

inductive StartExecution where
  | running
  | terminal (next : InvocationState)
  deriving DecidableEq

/-- After the second cancellation check: capture, spawn and the running state. -/
def launch : Proc (Except RunnerError StartExecution) := do
  if (← perform Act.prepareCapture : Bool) then
    if (← perform Act.spawn : Bool) then
      match ← transition .running with
      | .ok _ => return .ok .running
      | .error _ =>
        terminateChild
        return .ok (.terminal .failed)
    else return .ok (.terminal .failed)
  else return .error .capture

def startExecution : Proc (Except RunnerError StartExecution) := do
  if ← isCancelled then return .ok (.terminal .cancelled)
  else if (← perform Act.openStdio : Bool) then
    if ← isCancelled then return .ok (.terminal .cancelled)
    else launch
  else return .ok (.terminal .failed)

def waitForExit (isRun : Bool) : Proc Finished := do
  match (← perform (Act.waitChild isRun) : Exit) with
  | .exited success =>
    let state : InvocationState := if success then .succeeded else .failed
    if isRun then return .ok (if (← perform Act.outputOverLimit : Bool) then .failed else state)
    else return .ok state
  | .waitFailed => return .error .process
  | .cancelled =>
    terminateChild
    return .ok .cancelled
  | .timedOut =>
    terminateChild
    return .ok .timedOut
  | .outputLimit =>
    terminateChild
    return .ok .failed

/-- Capturing, reducing and committing the evidence of an exited child. -/
def processEvidence (state : InvocationState) : Proc Finished := do
  if (← perform Act.captureEvidence : Bool) then
    if (← perform Act.reduceEvidence : Bool) then commitTerminal state false
    else return .error .capture
  else return .error .capture

def orRecover (context : InvocationState) (program : Proc Finished) : Proc Finished := do
  match ← program with
  | .ok record => return .ok record
  | .error error => recoverTerminalFailure context error

def execute (isRun : Bool) : Proc Finished := do
  match ← startExecution with
  | .error error => recoverTerminalFailure .failed error
  | .ok (.terminal next) => orRecover .failed (commitTerminal next false)
  | .ok .running =>
    match ← waitForExit isRun with
    | .error error => recoverTerminalFailure .failed error
    | .ok state => orRecover state (processEvidence state)

/-- Requests `Failed` for a record whose header is not terminal, and ignores
what becomes of the request. -/
def failUnlessTerminal : Proc Unit := do
  match ← getInvocationHeader with
  | .ok record => if record.isTerminal then return () else discard (transition .failed)
  | .error _ => return ()

def startingFailed (error : StoreError) : Proc Finished := do
  failUnlessTerminal
  match ← terminalHeader with
  | some record => return .ok record
  | none => return .error (.store error)

def runWithPermit (isRun : Bool) : Proc Finished := do
  if ← isCancelled then finishCancelled
  else
    match ← transition .starting with
    | .ok _ => execute isRun
    | .error error => startingFailed error

def runPrepared (isRun : Bool) : Proc Finished := do
  match (← perform Act.lockWorkspace : Grant) with
  | .cancelled | .refused => finishCancelled
  | .granted =>
    match (← perform Act.lockOutputBase : Grant) with
    | .cancelled => finishCancelled
    | .refused => finishStartFailure
    | .granted =>
      match (← perform Act.acquireExecution : Grant) with
      | .cancelled => finishCancelled
      | .refused => return .error .schedulerClosed
      | .granted => runWithPermit isRun

def worker (isRun : Bool) : Proc Unit := do
  match ← runPrepared isRun with
  | .ok state => endWorker (.ok state)
  | .error error => endWorker (.error error)

def materializeWorkerFailure (deferred : Bool) : Proc Unit :=
  if deferred then do
    let _ ← perform Act.persistDeferredFailure
    failUnlessTerminal
  else failUnlessTerminal

def settleWorker (deferred : Bool) : WorkerEnd → Proc Unit
  | .ok _ => return ()
  | .error _ | .panicked => materializeWorkerFailure deferred

def supervisor (deferred : Bool) : Proc Unit := do
  let outcome ← perform Act.joinWorker
  settleWorker deferred outcome
  perform Act.removeLive

structure CancelResult where
  priorState : InvocationState
  currentState : InvocationState
  cancellationRequested : Bool
  deriving DecidableEq

def cancelOutcome (prior : InvocationState) (requested : Bool) : Proc (Except RunnerError CancelResult) := do
  match ← getInvocationHeader with
  | .ok current => return .ok ⟨prior,current,requested⟩
  | .error error => return .error (.store error)

def requestCancellation (prior : InvocationState) : Proc (Except RunnerError CancelResult) := do
  let requested ← perform Act.cancel
  if prior = .queued then
    match ← transition .cancelled with
    | .ok record => return .ok ⟨prior,record,true⟩
    | .error .state => cancelOutcome prior requested
    | .error error => return .error (.store error)
  else cancelOutcome prior requested

def cancelWithReason (reason : Bool) : Proc (Except RunnerError CancelResult) := do
  match ← getInvocationHeader with
  | .error error => return .error (.store error)
  | .ok record =>
    if record.isTerminal then return .ok ⟨record,record,false⟩
    else if reason then
      match (← perform Act.updateCancellationReason : Except StoreError Unit) with
      | .error error => return .error (.store error)
      | .ok _ => requestCancellation record
    else requestCancellation record

/-- An invocation right after its acceptance; whether the worker can panic is
left open. -/
def start (isRun deferred faulty : Bool) (reason : Nat → Bool) : Config Act Answer State Task where
  tasks
    | .worker => worker isRun
    | .supervisor => supervisor deferred
    | .shutdown => discard (perform Act.cancel)
    | .fault => if faulty then perform Act.workerPanic else pure ()
    | .canceller number => discard (cancelWithReason (reason number))
  state := {}

variable (prior : InvocationState) {state after : State} {act : Act} {answer : Answer act}

theorem mem_failures {α : Type} {answer : Except StoreError α}
    (possible : (answer,after) ∈ failures state) : after = state ∧ (answer = .error .io ∨ answer = .error .notFound) := by
  simp only [failures,List.mem_cons,Prod.mk.injEq,List.not_mem_nil,or_false] at possible
  rcases possible with ⟨same,rfl⟩ | ⟨same,rfl⟩
  · exact ⟨rfl,.inl same⟩
  · exact ⟨rfl,.inr same⟩

/-- What a write can do: succeed, write although its caller is told otherwise,
be refused by the transition table, or fail before writing. -/
theorem mem_writeState {next : InvocationState} {answer : Except StoreError InvocationState}
    (possible : (answer,after) ∈ writeState next state) :
    (after = state.record next ∧ state.durable.validateTransition next = true ∧
        (answer = .ok next ∨ ∃ error, answer = .error error)) ∨
      (after = state ∧ state.durable.validateTransition next = false ∧ answer = .error .state) ∨
      (after = state ∧ (answer = .error .io ∨ answer = .error .notFound)) := by
  unfold writeState at possible
  split at possible
  · rename_i valid
    rcases List.mem_cons.mp possible with written | failed
    · cases written
      exact .inl ⟨rfl,valid,.inl rfl⟩
    rcases List.mem_append.mp failed with unchanged | changed
    · exact .inr (.inr (mem_failures unchanged))
    · obtain ⟨same,kind⟩ := mem_failures changed
      exact .inl ⟨same,valid,.inr (kind.elim (fun e => ⟨_,e⟩) fun e => ⟨_,e⟩)⟩
  · rename_i invalid
    rcases List.mem_cons.mp possible with refused | failed
    · cases refused
      exact .inr (.inl ⟨rfl,Bool.not_eq_true _ ▸ invalid,rfl⟩)
    · exact .inr (.inr (mem_failures failed))

theorem mem_selectCancelled {α : Type} {cancelled answer : α} {others : List (α × State)}
    (possible : (answer,after) ∈ selectCancelled cancelled state others) :
    (answer,after) ∈ others ∨ (answer = cancelled ∧ after = state) := by
  unfold selectCancelled at possible
  rcases List.mem_append.mp possible with other | interrupted
  · exact .inl other
  · split at interrupted
    · exact .inr (Prod.mk.injEq _ _ _ _ ▸ List.mem_singleton.mp interrupted)
    · exact absurd interrupted List.not_mem_nil

theorem actEffect_record (possible : (answer,after) ∈ actEffect act state) :
    (after.durable = state.durable ∧ after.past = state.past) ∨
      ∃ next, (act = .transition next ∨ act = .finishInvocation next) ∧ after = state.record next ∧
        state.durable.validateTransition next = true := by
  cases act with
  | transition next =>
    rcases mem_writeState possible with ⟨same,valid,_⟩ | ⟨same,_⟩ | ⟨same,_⟩
    · exact .inr ⟨next,.inl rfl,same,valid⟩
    · exact .inl (by rw [same]; exact ⟨rfl,rfl⟩)
    · exact .inl (by rw [same]; exact ⟨rfl,rfl⟩)
  | finishInvocation next =>
    rcases mem_writeState possible with ⟨same,valid,_⟩ | ⟨same,_⟩ | ⟨same,_⟩
    · exact .inr ⟨next,.inr rfl,same,valid⟩
    · exact .inl (by rw [same]; exact ⟨rfl,rfl⟩)
    · exact .inl (by rw [same]; exact ⟨rfl,rfl⟩)
  | _ =>
    refine .inl ?_
    simp only [actEffect,selectCancelled,failures] at possible
    grind

theorem writeState_frame {next : InvocationState} {answer : Except StoreError InvocationState}
    (possible : (answer,after) ∈ writeState next state) :
    after.child = state.child ∧ after.outcome = state.outcome ∧ after.removed = state.removed := by
  rcases mem_writeState possible with ⟨rfl,_⟩ | ⟨rfl,_⟩ | ⟨rfl,_⟩
  · exact ⟨rfl,rfl,rfl⟩
  · exact ⟨rfl,rfl,rfl⟩
  · exact ⟨rfl,rfl,rfl⟩

theorem actEffect_child (possible : (answer,after) ∈ actEffect act state) : act = .spawn ∨ after.child = state.child ∨
      (after.child = .reaped ∧ (act = .terminateChild ∨ ∃ isRun, act = .waitChild isRun)) := by
  cases act with
  | transition next | finishInvocation next => exact .inr (.inl (writeState_frame possible).1)
  | _ =>
    simp only [actEffect,selectCancelled,failures] at possible
    grind

theorem actEffect_outcome (possible : (answer,after) ∈ actEffect act state) :
    (∃ outcome, act = .endWorker outcome) ∨ act = .workerPanic ∨ after.outcome = state.outcome := by
  cases act with
  | transition next | finishInvocation next => exact .inr (.inr (writeState_frame possible).2.1)
  | _ =>
    simp only [actEffect,selectCancelled,failures] at possible
    grind

theorem mem_effect {task : Task} (possible : (answer,after) ∈ effect task act state) :
    (answer,after) ∈ actEffect act state ∧ (task = .worker → state.outcome = none) := by
  unfold effect at possible
  split at possible
  · exact absurd possible List.not_mem_nil
  rename_i live
  refine ⟨possible,?_⟩
  intro same
  cases ended : state.outcome with
  | none => rfl
  | some outcome => exact absurd ⟨same,by rw [ended]; rfl⟩ live

theorem actEffect_terminal (terminal : state.durable.isTerminal = true) (possible : (answer,after) ∈ actEffect act state) :
    after.durable = state.durable := by
  rcases actEffect_record possible with ⟨same,_⟩ | ⟨next,_,_,valid⟩
  · exact same
  · have left := (InvocationState.validateTransition_source valid).1
    rw [terminal] at left
    cases left

theorem reach_terminal {permit : Task → (act : Act) → State → Answer act → State → Bool}
    {config later : Config Act Answer State Task} (reached : Reach effect permit config later)
    (terminal : config.state.durable.isTerminal = true) : later.state.durable = config.state.durable := by
  induction reached with
  | refl => rfl
  | tail _ step ih =>
    cases step with
    | mk _ possible _ =>
      rw [← ih] at terminal ⊢
      exact actEffect_terminal terminal (mem_effect possible).1

/-- The calls of `cancel_with_reason`. -/
def Cancelling (act : Act) : Prop :=
  act = .getInvocationHeader ∨ act = .updateCancellationReason ∨ act = .cancel ∨ act = .transition .cancelled

theorem uses_cancelOutcome (requested : Bool) : (cancelOutcome prior requested).Uses Cancelling := by
  apply uses_bind
  · simp [Cancelling]
  · intro current
    split <;> simp

theorem uses_requestCancellation : (requestCancellation prior).Uses Cancelling := by
  apply uses_bind
  · simp [Cancelling]
  intro requested
  split
  · apply uses_bind
    · simp [Cancelling]
    intro cancelled
    split
    · simp
    · exact uses_cancelOutcome _ _
    · simp
  · exact uses_cancelOutcome _ _

theorem uses_cancelWithReason (reason : Bool) : (cancelWithReason reason).Uses Cancelling := by
  apply uses_bind
  · simp [Cancelling]
  intro record
  split
  · simp
  split
  · simp
  split
  · apply uses_bind
    · simp [Cancelling]
    intro updated
    split
    · simp
    · exact uses_requestCancellation _
  · exact uses_requestCancellation _

/-- Calls that read or write the record, or work on the evidence of a child that has exited. -/
@[simp] def Recording : Act → Prop
  | .getInvocationHeader | .getInvocation | .transition _ | .finishInvocation _ | .persistDeferredFailure
  | .captureEvidence | .reduceEvidence => True
  | _ => False

theorem uses_terminalHeader : terminalHeader.Uses Recording := by
  apply uses_bind
  · simp
  · intro answer
    split <;> simp

theorem uses_finishCancelled : finishCancelled.Uses Recording := by
  apply uses_bind
  · simp
  intro current
  split
  · simp
  split
  · simp
  apply uses_bind
  · simp
  intro cancelled
  split
  · simp
  · apply uses_bind
    · simp
    · intro record
      split <;> simp
  · simp

theorem uses_failStarted : failStarted.Uses Recording := by
  apply uses_bind
  · simp
  intro current
  split
  · simp
  · split
    · simp
    · apply uses_bind <;> simp

theorem uses_finishStartFailure : finishStartFailure.Uses Recording := by
  apply uses_bind
  · simp
  intro current
  split
  · simp
  split
  · simp
  split
  · apply uses_bind
    · simp
    intro started
    split
    · exact uses_failStarted
    · exact uses_failStarted
    · simp
  · exact uses_failStarted

theorem uses_commitTerminal (next : InvocationState) (recover : Bool) : (commitTerminal next recover).Uses Recording := by
  apply uses_bind
  · simp
  intro finished
  split
  · simp
  apply uses_bind
  · exact uses_terminalHeader
  intro shown
  split
  · simp
  · split
    · apply uses_bind <;> simp
    · simp

theorem uses_recoverTerminalFailure (context : InvocationState) (error : RunnerError) :
    (recoverTerminalFailure context error).Uses Recording := by
  apply uses_bind
  · exact uses_terminalHeader
  intro shown
  split
  · simp
  apply uses_bind
  · exact uses_commitTerminal _ _
  · intro committed
    split <;> simp

theorem uses_orRecover {context : InvocationState} {program : Proc Finished} (uses : program.Uses Recording) :
    (orRecover context program).Uses Recording := by
  apply uses_bind
  · exact uses
  intro finished
  split
  · simp
  · exact uses_recoverTerminalFailure _ _

theorem uses_processEvidence (state : InvocationState) : (processEvidence state).Uses Recording := by
  apply uses_bind
  · simp
  intro captured
  split
  · apply uses_bind
    · simp
    intro reduced
    split
    · exact uses_commitTerminal _ _
    · simp
  · simp

theorem uses_failUnlessTerminal : failUnlessTerminal.Uses Recording := by
  apply uses_bind
  · simp
  intro record
  split
  · split
    · simp
    · apply uses_bind <;> simp
  · simp

theorem uses_startingFailed (error : StoreError) : (startingFailed error).Uses Recording := by
  apply uses_bind
  · exact uses_failUnlessTerminal
  intro _
  apply uses_bind
  · exact uses_terminalHeader
  · intro shown
    split <;> simp

theorem uses_materializeWorkerFailure (deferred : Bool) : (materializeWorkerFailure deferred).Uses Recording := by
  unfold materializeWorkerFailure
  split
  · apply uses_bind
    · simp
    · intro _
      exact uses_failUnlessTerminal
  · exact uses_failUnlessTerminal

end BazelMcp.Lifecycle

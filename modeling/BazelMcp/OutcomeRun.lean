import BazelMcp.Lifecycle
import BazelMcp.Outcome

/-! The tasks around one invocation with the data they commit: the worker's
pipeline from the queue to the terminal record, the supervisor and the
cancellation calls, each write with its termination and its summary. -/
namespace BazelMcp.Outcome
open Tasks
open Lifecycle (StoreError RunnerError Grant)

structure Record where
  state : InvocationState := .queued
  termination : Option Termination := none
  summary : Option InvocationSummary := none
  run : Option RunSummary := none
  deriving DecidableEq

inductive WorkerEnd where
  | ok (record : Record)
  | error (error : RunnerError)
  | panicked
  deriving DecidableEq

/-- `past` are the records the manifest held before; the index may still show one. -/
structure State where
  durable : Record := {}
  past : List Record := []
  token : Bool := false
  outcome : Option WorkerEnd := none
  removed : Bool := false
  deriving DecidableEq

inductive Exit where
  | exited
  | waitFailed
  | cancelled
  | timedOut
  | outputLimit
  deriving DecidableEq

inductive Act where
  | getInvocationHeader
  | getInvocation
  | transition (next : InvocationState) (termination : Option Termination) (summary : Option InvocationSummary)
  | finishInvocation (completion : InvocationCompletion)
  | updateCancellationReason
  | persistDeferredFailure
  | cancel
  | isCancelled
  | lockWorkspace
  | lockOutputBase
  | acquireExecution
  | openStdio
  | prepareCapture
  | spawn
  | terminateChild
  | waitChild (isRun : Bool)
  | outputOverLimit
  | captureEvidence
  | runReducers
  | endWorker (outcome : WorkerEnd)
  | joinWorker
  | removeLive
  | workerPanic
  deriving DecidableEq

abbrev Answer : Act → Type
  | .getInvocationHeader | .getInvocation | .transition _ _ _ | .finishInvocation _ => Except StoreError Record
  | .updateCancellationReason | .persistDeferredFailure => Except StoreError Unit
  | .cancel | .isCancelled | .openStdio | .prepareCapture | .spawn | .terminateChild | .outputOverLimit | .captureEvidence
  | .runReducers => Bool
  | .lockWorkspace | .lockOutputBase | .acquireExecution => Grant
  | .waitChild _ => Exit
  | .endWorker _ | .removeLive | .workerPanic => Unit
  | .joinWorker => WorkerEnd

def failures {α : Type} (state : State) : List (Except StoreError α × State) :=
  [(.error .io,state),(.error .notFound,state)]

def State.record (state : State) (next : Record) : State :=
  {state with durable := next, past := state.durable::state.past}

def writeRecord (next : Record) (state : State) : List (Except StoreError Record × State) :=
  if state.durable.state.validateTransition next.state then
    (.ok next,state.record next) :: failures state ++ failures (state.record next)
  else (.error .state,state) :: failures state

def InvocationCompletion.record (completion : InvocationCompletion) : Record where
  state := completion.state
  termination := some completion.termination
  summary := some completion.summary
  run := completion.run

def selectCancelled {α : Type} (cancelled : α) (state : State) (others : List (α × State)) : List (α × State) :=
  others ++ if state.token then [(cancelled,state)] else []

def actEffect : (act : Act) → State → List (Answer act × State)
  | .getInvocationHeader, state => (state.durable::state.past).map (fun shown => (.ok shown,state)) ++ failures state
  | .getInvocation, state => (.ok state.durable,state) :: failures state
  | .transition next termination summary, state => writeRecord {state.durable with state := next, termination, summary} state
  | .finishInvocation completion, state => writeRecord completion.record state
  | .updateCancellationReason, state => (.ok (),state) :: failures state
  | .persistDeferredFailure, state => (.ok (),state) :: failures state
  | .cancel, state => if state.removed then [(false,state)] else [(true,{state with token := true})]
  | .isCancelled, state => [(state.token,state)]
  | .lockWorkspace, state => selectCancelled .cancelled state [(.granted,state)]
  | .lockOutputBase, state => selectCancelled .cancelled state [(.granted,state),(.refused,state)]
  | .acquireExecution, state => selectCancelled .cancelled state [(.granted,state),(.refused,state)]
  | .openStdio, state => [(true,state),(false,state)]
  | .prepareCapture, state => [(true,state),(false,state)]
  | .spawn, state => [(true,state),(false,state)]
  | .terminateChild, state => [(true,state),(false,state)]
  | .waitChild isRun, state =>
    selectCancelled .cancelled state
      ([(.exited,state),(.waitFailed,state),(.timedOut,state)] ++ if isRun then [(.outputLimit,state)] else [])
  | .outputOverLimit, state => [(false,state),(true,state)]
  | .captureEvidence, state => [(true,state),(false,state)]
  | .runReducers, state => [(true,state),(false,state)]
  | .endWorker outcome, state => [((),{state with outcome := some outcome})]
  | .joinWorker, state =>
    match state.outcome with
    | some outcome => [(outcome,state)]
    | none => []
  | .removeLive, state => [((),{state with removed := true})]
  | .workerPanic, state => if state.outcome = none then [((),{state with outcome := some .panicked})] else []

def effect (task : Lifecycle.Task) (act : Act) (state : State) : List (Answer act × State) :=
  if task = .worker ∧ state.outcome.isSome = true then [] else actEffect act state

abbrev Proc := Program Act Answer

abbrev Finished := Except RunnerError Record

abbrev getInvocationHeader : Proc (Except StoreError Record) := perform Act.getInvocationHeader
abbrev getInvocation : Proc (Except StoreError Record) := perform Act.getInvocation
abbrev transition (next : InvocationState) (termination : Option Termination) (summary : Option InvocationSummary) :
    Proc (Except StoreError Record) := perform (Act.transition next termination summary)
abbrev finishInvocation (completion : InvocationCompletion) : Proc (Except StoreError Record) :=
  perform (Act.finishInvocation completion)
abbrev isCancelled : Proc Bool := perform Act.isCancelled
abbrev terminateChild : Proc Bool := perform Act.terminateChild
abbrev endWorker (outcome : WorkerEnd) : Proc Unit := perform (Act.endWorker outcome)

def storeResult (result : Except StoreError Record) : Finished := result.mapError .store

variable (setting : Setting)

def cancelledSummary : InvocationSummary where
  headline := "Bazel invocation was cancelled before starting"

def startFailureSummary (fault : Fault) : InvocationSummary :=
  let message := setting.faultMessage fault
  {headline := s!"Could not start Bazel: {message}", truncated := true}

def finishCancelled : Proc Finished := do
  match ← getInvocation with
  | .error error => return .error (.store error)
  | .ok current =>
    if current.state.isTerminal then return .ok current
    else
      match ← transition .cancelled (some .cancelled) (some cancelledSummary) with
      | .ok record => return .ok record
      | .error .state =>
        match ← getInvocation with
        | .error error => return .error (.store error)
        | .ok record => return if record.state.isTerminal then .ok record else .error (.store .state)
      | .error error => return .error (.store error)

def failStarted : Proc Finished := do
  match ← getInvocation with
  | .error error => return .error (.store error)
  | .ok current =>
    if current.state.isTerminal then return .ok current
    else
      let message := setting.faultMessage .outputBaseLock
      return storeResult (← transition .failed (some (.spawnFailure message)) (some (startFailureSummary setting .outputBaseLock)))

def finishStartFailure : Proc Finished := do
  match ← getInvocation with
  | .error error => return .error (.store error)
  | .ok current =>
    if current.state.isTerminal then return .ok current
    else if current.state = .queued then
      match ← transition .starting none none with
      | .ok _ | .error .state => failStarted setting
      | .error error => return .error (.store error)
    else failStarted setting

def terminalHeader : Proc (Option Record) := do
  match ← getInvocationHeader with
  | .ok record => return if record.state.isTerminal && record.summary.isSome then some record else none
  | .error _ => return none

structure TerminalCommit where
  completion : InvocationCompletion
  recoverWithoutEvidence : Bool

namespace TerminalCommit

def failure (termination : Termination) (summary : InvocationSummary) : TerminalCommit where
  completion := {state := .failed, termination, summary, metrics := {queueMs := setting.queueMs}}
  recoverWithoutEvidence := false

def cancelled : TerminalCommit where
  completion := {state := .cancelled, termination := .cancelled, summary := cancelledSummary, metrics := {queueMs := setting.queueMs}}
  recoverWithoutEvidence := false

end TerminalCommit

def commitTerminal (commit : TerminalCommit) : Proc Finished := do
  match ← finishInvocation commit.completion with
  | .ok record => return .ok record
  | .error error =>
    match ← terminalHeader with
    | some record => return .ok record
    | none =>
      if error = .notFound ∧ commit.recoverWithoutEvidence = true then
        return storeResult (← transition commit.completion.state (some commit.completion.termination) (some commit.completion.summary))
      else return .error (.store error)

structure TerminalContext where
  state : InvocationState
  termination : Termination
  elapsedMs : Nat

def failureContext (elapsedMs : Nat) : TerminalContext := ⟨.failed,.interrupted,elapsedMs⟩

def recoveredCompletion (context : TerminalContext) : InvocationCompletion :=
  let message := setting.faultMessage .postProcessing
  { state := if context.state = .succeeded then .failed else context.state
    termination := context.termination
    summary :=
      { success := false
        headline := s!"Could not finish processing Bazel results: {message}"
        elapsedMs := context.elapsedMs
        truncated := true
        inspectHint := some .log } }

def recoverTerminalFailure (context : TerminalContext) (error : RunnerError) : Proc Finished := do
  match ← terminalHeader with
  | some record => return .ok record
  | none =>
    match ← commitTerminal ⟨recoveredCompletion setting context,true⟩ with
    | .ok record => return .ok record
    | .error _ => return .error error

inductive StartExecution where
  | running
  | terminal (commit : TerminalCommit)

def evidenceFilesFailure : TerminalCommit :=
  let message := setting.faultMessage .evidenceFiles
  .failure setting (.spawnFailure message)
    {success := false, headline := s!"Could not prepare Bazel invocation: {message}", truncated := true}

def spawnFailure : TerminalCommit :=
  let message := setting.faultMessage .spawn
  let driver := if setting.aspect then "Aspect CLI" else "Bazel"
  .failure setting (.spawnFailure message) {success := false, headline := s!"Could not start {driver}: {message}"}

def runningStateFailure : TerminalCommit :=
  let message := setting.faultMessage .runningState
  .failure setting .interrupted
    { success := false
      headline := s!"Could not record Bazel execution state: {message}"
      truncated := true
      inspectHint := some .log }

def launch : Proc (Except RunnerError StartExecution) := do
  if (← perform Act.prepareCapture : Bool) then
    if (← perform Act.spawn : Bool) then
      match ← transition .running none none with
      | .ok _ => return .ok .running
      | .error _ =>
        let _ ← terminateChild
        return .ok (.terminal (runningStateFailure setting))
    else return .ok (.terminal (spawnFailure setting))
  else return .error .capture

def startExecution : Proc (Except RunnerError StartExecution) := do
  if ← isCancelled then return .ok (.terminal (.cancelled setting))
  else if (← perform Act.openStdio : Bool) then
    if ← isCancelled then return .ok (.terminal (.cancelled setting))
    else launch setting
  else return .ok (.terminal (evidenceFilesFailure setting))

/-- A client that was terminated: the status it left is kept. -/
def terminated (termination : Termination) (state : InvocationState) : Proc (Except RunnerError Exited) := do
  if ← terminateChild then return .ok ⟨some setting.terminatedStatus,termination,state⟩ else return .error .process

def outputLimited : Termination := .outputLimit setting.maximumRunOutputBytes

/-- The size of the output of `run` is checked again once the client has exited by itself. -/
def waitForExit : Proc (Except RunnerError Exited) := do
  let isRun := decide (setting.request.command = .run)
  match (← perform (Act.waitChild isRun) : Exit) with
  | .exited =>
    let exited := finishFromStatus setting.exitStatus
    if isRun then
      if (← perform Act.outputOverLimit : Bool) then return .ok ⟨none,outputLimited setting,.failed⟩ else return .ok exited
    else return .ok exited
  | .waitFailed => return .error .process
  | .cancelled => terminated setting .cancelled .cancelled
  | .timedOut => terminated setting .timeout .timedOut
  | .outputLimit => terminated setting (outputLimited setting) .failed

def processEvidence (exited : Exited) : Proc Finished := do
  if (← perform Act.captureEvidence : Bool) then
    if (← perform Act.runReducers : Bool) then commitTerminal ⟨reduceEvidence setting exited,false⟩
    else return .error .capture
  else return .error .capture

def orRecover (context : TerminalContext) (program : Proc Finished) : Proc Finished := do
  match ← program with
  | .ok record => return .ok record
  | .error error => recoverTerminalFailure setting context error

def execute : Proc Finished := do
  match ← startExecution setting with
  | .error error => recoverTerminalFailure setting (failureContext 0) error
  | .ok (.terminal commit) => orRecover setting (failureContext 0) (commitTerminal commit)
  | .ok .running =>
    match ← waitForExit setting with
    | .error error => recoverTerminalFailure setting (failureContext setting.bazelWallMs) error
    | .ok exited =>
      orRecover setting ⟨exited.state,exited.termination,setting.bazelWallMs⟩ (processEvidence setting exited)

def failUnlessTerminal (fault : Fault) (summary : InvocationSummary) : Proc Unit := do
  match ← getInvocationHeader with
  | .ok record =>
    if record.state.isTerminal then return ()
    else discard (transition .failed (some (.spawnFailure (setting.faultMessage fault))) (some summary))
  | .error _ => return ()

def startingFailed (error : StoreError) : Proc Finished := do
  failUnlessTerminal setting .startingState (startFailureSummary setting .startingState)
  match ← terminalHeader with
  | some record => return .ok record
  | none => return .error (.store error)

def runWithPermit : Proc Finished := do
  if ← isCancelled then finishCancelled
  else
    match ← transition .starting none none with
    | .ok _ => execute setting
    | .error error => startingFailed setting error

def runPrepared : Proc Finished := do
  match (← perform Act.lockWorkspace : Grant) with
  | .cancelled | .refused => finishCancelled
  | .granted =>
    match (← perform Act.lockOutputBase : Grant) with
    | .cancelled => finishCancelled
    | .refused => finishStartFailure setting
    | .granted =>
      match (← perform Act.acquireExecution : Grant) with
      | .cancelled => finishCancelled
      | .refused => return .error .schedulerClosed
      | .granted => runWithPermit setting

def worker : Proc Unit := do
  match ← runPrepared setting with
  | .ok record => endWorker (.ok record)
  | .error error => endWorker (.error error)

def workerFailureSummary : InvocationSummary where
  headline := "Accepted Bazel invocation could not be executed"
  truncated := true

def materializeWorkerFailure (deferred : Bool) : Proc Unit :=
  if deferred then do
    let _ ← perform Act.persistDeferredFailure
    failUnlessTerminal setting .worker workerFailureSummary
  else failUnlessTerminal setting .worker workerFailureSummary

def supervisor (deferred : Bool) : Proc Unit := do
  match (← perform Act.joinWorker : WorkerEnd) with
  | .ok _ => pure ()
  | .error _ | .panicked => materializeWorkerFailure setting deferred
  perform Act.removeLive

def requestCancellation (prior : InvocationState) : Proc Unit := do
  let _ ← perform Act.cancel
  if prior = .queued then
    match ← transition .cancelled (some .cancelled) (some cancelledSummary) with
    | .error .state => discard getInvocationHeader
    | _ => return ()
  else discard getInvocationHeader

def cancelWithReason (reason : Bool) : Proc Unit := do
  match ← getInvocationHeader with
  | .error _ => return ()
  | .ok record =>
    if record.state.isTerminal then return ()
    else if reason then
      match (← perform Act.updateCancellationReason : Except StoreError Unit) with
      | .error _ => return ()
      | .ok _ => requestCancellation record.state
    else requestCancellation record.state

def start (deferred faulty : Bool) (reason : Nat → Bool) : Config Act Answer State Lifecycle.Task where
  tasks
    | .worker => worker setting
    | .supervisor => supervisor setting deferred
    | .shutdown => discard (perform Act.cancel)
    | .fault => if faulty then perform Act.workerPanic else pure ()
    | .canceller number => cancelWithReason (reason number)
  state := {}

end BazelMcp.Outcome

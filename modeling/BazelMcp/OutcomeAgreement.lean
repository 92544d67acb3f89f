import BazelMcp.OutcomeRun
import BazelMcp.Typestate

/-! The success flag of a summary and the state of its record. The flag is the
exit code's and the state is chosen where the wait ended, so they agree in every
terminal record exactly if a terminated client does not exit with code zero. -/
namespace BazelMcp.Outcome
open Tasks Typestate Reduction InvocationState
open Lifecycle (StoreError RunnerError Grant)

variable (setting : Setting)

/-! ### No edit of a summary changes its success -/

variable (exitCode : Option Int) {after : State}

theorem reduced_success : (reduced setting exitCode).summary.success = decide (exitCode = some 0) := by
  unfold reduced
  split <;> rfl

@[simp] theorem describeSuccess_success (summary : InvocationSummary) :
    (describeSuccess setting exitCode summary).success = summary.success := by
  unfold describeSuccess
  dsimp only
  split
  · rfl
  split
  · generalize setting.normalizeTerminalText _ = excerpt
    split
    · rfl
    · split <;> rfl
  · rfl

@[simp] theorem describeRun_success (run : Option RunSummary) (summary : InvocationSummary) :
    (describeRun run summary).success = summary.success := by
  cases run <;> rfl

@[simp] theorem enrichTests_success (summary : InvocationSummary) : (enrichTests setting summary).success = summary.success := by
  unfold enrichTests
  split <;> rfl

@[simp] theorem loadCoverage_success (summary : InvocationSummary) : (loadCoverage setting summary).success = summary.success := by
  unfold loadCoverage
  split <;> rfl

theorem applyPatch_success (applying : Applying) (reducer : CustomReducer) (patch : ReducerPatch) :
    (applyPatch applying reducer patch).summary.success = applying.summary.success := by
  unfold applyPatch
  split <;> rfl

theorem applyReducer_success (applying : Applying) (reducer : CustomReducer) :
    (applyReducer setting applying reducer).summary.success = applying.summary.success := by
  unfold applyReducer
  split
  · rfl
  · split
    · exact applyPatch_success applying reducer _
    · rfl

theorem applyReducers_success (summary : InvocationSummary) : (applyReducers setting summary).1.success = summary.success := by
  have folded (reducers : List CustomReducer) (applying : Applying) :
      (reducers.foldl (applyReducer setting) applying).summary.success = applying.summary.success := by
    induction reducers generalizing applying with
    | nil => rfl
    | cons reducer reducers ih => exact (ih _).trans (applyReducer_success setting applying reducer)
  unfold applyReducers
  dsimp only
  split <;> exact folded _ _

@[simp] theorem finalizeWithCustomNotices_success (summary : InvocationSummary) (notices : List Diagnostic) :
    (finalizeWithCustomNotices summary notices).success = summary.success := by
  unfold finalizeWithCustomNotices
  dsimp only
  split
  · rfl
  · split <;> rfl

@[simp] theorem describeAspect_success (summary : InvocationSummary) :
    (describeAspect setting exitCode summary).success = summary.success := by
  unfold describeAspect
  split
  · rfl
  · split <;> rfl
  · split <;> rfl

@[simp] theorem describeTests_success (bep : RunBepOutcome) (summary : InvocationSummary) :
    (describeTests setting bep summary).success = summary.success := by
  unfold describeTests
  dsimp only
  split
  · rfl
  split
  · split
    · rfl
    · split <;> rfl
  · rfl

@[simp] theorem customize_success (bep : RunBepOutcome) (summary : InvocationSummary) :
    (customize setting exitCode bep summary).success = summary.success := by
  have patched : (if setting.reducers.isEmpty then (summary,{}) else applyReducers setting summary).1.success =
      summary.success := by
    split
    · rfl
    · exact applyReducers_success setting summary
  unfold customize
  dsimp only
  generalize (if setting.reducers.isEmpty then (summary,{}) else applyReducers setting summary) = applied at patched
  rw [← patched]
  split
  · exact finalizeWithCustomNotices_success _ _
  have described : (if setting.aspect then
      describeAspect setting exitCode (finalizeWithCustomNotices applied.1 (customNotices setting applied.2))
      else finalizeWithCustomNotices applied.1 (customNotices setting applied.2)).success = applied.1.success := by
    split <;> simp
  generalize (if setting.aspect then _ else _) = shown at described ⊢
  split
  · rw [describeTests_success]
    exact described
  · exact described

@[simp] theorem hintAtLog_success (summary : InvocationSummary) : (hintAtLog summary).success = summary.success := by
  unfold hintAtLog
  split <;> rfl

theorem reduceEvidence_success (exited : Exited) :
    (reduceEvidence setting exited).summary.success = decide (exited.exitCode = some 0) := by
  change (hintAtLog _).success = _
  simp only [hintAtLog_success,customize_success,loadCoverage_success,enrichTests_success,describeRun_success,
    describeSuccess_success,reduced_success]

/-! ### What the tasks write -/

def Agrees (state : InvocationState) (summary : InvocationSummary) : Prop := summary.success = true ↔ state = .succeeded

/-- A terminal record has a summary, which says success exactly in the state `Succeeded`. -/
def Record.Agreed (record : Record) : Prop :=
  record.state.isTerminal = true → ∃ summary, record.summary = some summary ∧ Agrees record.state summary

/-- Calls that write no terminal record, or one in which summary and state agree. -/
@[simp] def Agreeing : Act → Prop
  | .transition next _ summary => next.isTerminal = true → ∃ shown, summary = some shown ∧ Agrees next shown
  | .finishInvocation completion => Agrees completion.state completion.summary
  | _ => True

variable (context : TerminalContext) {state : State} {summary : InvocationSummary}

theorem agrees_failure {state : InvocationState} (failed : summary.success = false)
    (other : state ≠ .succeeded) : Agrees state summary := by
  constructor
  · intro succeeded
    rw [failed] at succeeded
    cases succeeded
  · intro same
    exact absurd same other

theorem agreeing_failure {state : InvocationState} (termination : Option Termination)
    (failed : summary.success = false) (other : state ≠ .succeeded) : Agreeing (.transition state termination (some summary)) :=
  fun _ => ⟨summary,rfl,agrees_failure failed other⟩

theorem uses_finishCancelled : finishCancelled.Uses Agreeing := by
  apply uses_bind
  · simp
  intro current
  split
  · simp
  split
  · simp
  apply uses_bind
  · rw [uses_perform]
    exact agreeing_failure _ rfl (by decide)
  intro cancelled
  split
  · simp
  · apply uses_bind
    · simp
    · intro record
      split <;> simp
  · simp

theorem uses_failStarted : (failStarted setting).Uses Agreeing := by
  apply uses_bind
  · simp
  intro current
  split
  · simp
  split
  · simp
  apply uses_bind
  · rw [uses_perform]
    exact agreeing_failure _ rfl (by decide)
  · simp

theorem uses_finishStartFailure : (finishStartFailure setting).Uses Agreeing := by
  apply uses_bind
  · simp
  intro current
  split
  · simp
  split
  · simp
  split
  · apply uses_bind
    · simp [isTerminal]
    intro started
    split
    · exact uses_failStarted setting
    · exact uses_failStarted setting
    · simp
  · exact uses_failStarted setting

theorem uses_terminalHeader : terminalHeader.Uses Agreeing := by
  apply uses_bind
  · simp
  · intro answer
    split <;> simp

theorem uses_commitTerminal {commit : TerminalCommit} (agrees : Agrees commit.completion.state commit.completion.summary) :
    (commitTerminal commit).Uses Agreeing := by
  apply uses_bind
  · rw [uses_perform]
    exact agrees
  intro finished
  split
  · simp
  apply uses_bind
  · exact uses_terminalHeader
  intro shown
  split
  · simp
  split
  · apply uses_bind
    · rw [uses_perform]
      exact fun _ => ⟨_,rfl,agrees⟩
    · simp
  · simp

theorem recoveredCompletion_agrees :
    Agrees (recoveredCompletion setting context).state (recoveredCompletion setting context).summary := by
  refine agrees_failure rfl ?_
  change (if context.state = .succeeded then failed else context.state) ≠ .succeeded
  split
  · decide
  · assumption

theorem uses_recoverTerminalFailure (error : RunnerError) : (recoverTerminalFailure setting context error).Uses Agreeing := by
  apply uses_bind
  · exact uses_terminalHeader
  intro shown
  split
  · simp
  apply uses_bind
  · exact uses_commitTerminal (recoveredCompletion_agrees setting context)
  · intro committed
    split <;> simp

theorem uses_orRecover {context : TerminalContext} {program : Proc Finished} (uses : program.Uses Agreeing) :
    (orRecover setting context program).Uses Agreeing := by
  apply uses_bind
  · exact uses
  intro finished
  split
  · simp
  · exact uses_recoverTerminalFailure setting _ _

theorem uses_processEvidence {exited : Exited} (agrees : exited.exitCode = some 0 ↔ exited.state = .succeeded) :
    (processEvidence setting exited).Uses Agreeing := by
  have committed : Agrees (reduceEvidence setting exited).state (reduceEvidence setting exited).summary := by
    unfold Agrees
    rw [reduceEvidence_success,decide_eq_true_eq]
    exact agrees
  apply uses_bind
  · simp
  intro captured
  split
  · apply uses_bind
    · simp
    intro reduced
    split
    · exact uses_commitTerminal committed
    · simp
  · simp

theorem uses_failUnlessTerminal {fault : Fault} (failed : summary.success = false) :
    (failUnlessTerminal setting fault summary).Uses Agreeing := by
  apply uses_bind
  · simp
  intro record
  split
  · split
    · simp
    apply uses_bind
    · rw [uses_perform]
      exact agreeing_failure _ failed (by decide)
    · simp
  · simp

theorem uses_startingFailed (error : StoreError) : (startingFailed setting error).Uses Agreeing := by
  apply uses_bind
  · exact uses_failUnlessTerminal setting rfl
  intro _
  apply uses_bind
  · exact uses_terminalHeader
  · intro shown
    split <;> simp

theorem uses_supervisor (deferred : Bool) : (supervisor setting deferred).Uses Agreeing := by
  have materialized : (materializeWorkerFailure setting deferred).Uses Agreeing := by
    unfold materializeWorkerFailure
    split
    · apply uses_bind
      · simp
      · intro _
        exact uses_failUnlessTerminal setting rfl
    · exact uses_failUnlessTerminal setting rfl
  apply uses_bind
  · simp
  intro outcome
  cases outcome with
  | ok record => simp
  | error error | panicked =>
    apply uses_bind
    · exact materialized
    · simp

theorem uses_requestCancellation (prior : InvocationState) : (requestCancellation prior).Uses Agreeing := by
  apply uses_bind
  · simp
  intro requested
  split
  · apply uses_bind
    · rw [uses_perform]
      exact agreeing_failure _ rfl (by decide)
    intro cancelled
    split
    · apply uses_bind <;> simp
    · simp
  · apply uses_bind <;> simp

theorem uses_cancelWithReason (reason : Bool) : (cancelWithReason reason).Uses Agreeing := by
  apply uses_bind
  · simp
  intro record
  split
  · simp
  split
  · simp
  split
  · apply uses_bind
    · simp
    intro updated
    split
    · simp
    · exact uses_requestCancellation _
  · exact uses_requestCancellation _

def agreement : Discipline Act Answer Unit where
  allowed _ act := Agreeing act
  advance _ _ _ := ()

theorem follows_agreeing {α : Type} {program : Proc α} (uses : program.Uses Agreeing) :
    Follows agreement program () fun _ _ => True :=
  follows_uses (fun _ _ kind => kind) uses ()

theorem follows_startExecution : Follows agreement (startExecution setting) () fun started _ =>
    ∀ commit, started = .ok (.terminal commit) → Agrees commit.completion.state commit.completion.summary := by
  have failure (termination : Termination) {summary : InvocationSummary} (failed : summary.success = false) :
      Agrees (TerminalCommit.failure setting termination summary).completion.state
        (TerminalCommit.failure setting termination summary).completion.summary :=
    agrees_failure failed noConfusion
  have cancelled : Agrees (TerminalCommit.cancelled setting).completion.state (TerminalCommit.cancelled setting).completion.summary :=
    agrees_failure rfl noConfusion
  have launched : Follows agreement (launch setting) () fun started _ =>
      ∀ commit, started = .ok (.terminal commit) → Agrees commit.completion.state commit.completion.summary := by
    refine follows_bind.mpr ⟨trivial,fun prepared => ?_⟩
    change Follows agreement (if prepared = true then _ else _) () _
    split
    · refine follows_bind.mpr ⟨trivial,fun spawned => ?_⟩
      change Follows agreement (if spawned = true then _ else _) () _
      split
      · refine follows_bind.mpr ⟨fun terminal => ?_,fun running => ?_⟩
        · cases terminal
        cases running with
        | ok record =>
          intro commit same
          cases same
        | error error =>
          refine follows_bind.mpr ⟨trivial,fun terminated commit same => ?_⟩
          cases same
          exact failure _ rfl
      · intro commit same
        cases same
        exact failure _ rfl
    · intro commit same
      cases same
  refine follows_bind.mpr ⟨trivial,fun first => ?_⟩
  change Follows agreement (if first = true then _ else _) () _
  split
  · intro commit same
    cases same
    exact cancelled
  refine follows_bind.mpr ⟨trivial,fun opened => ?_⟩
  change Follows agreement (if opened = true then _ else _) () _
  split
  · refine follows_bind.mpr ⟨trivial,fun second => ?_⟩
    change Follows agreement (if second = true then _ else _) () _
    split
    · intro commit same
      cases same
      exact cancelled
    · exact launched
  · intro commit same
    cases same
    exact failure _ rfl

theorem finishFromStatus_agrees (status : ExitStatus) :
    (finishFromStatus status).exitCode = some 0 ↔ (finishFromStatus status).state = .succeeded := by
  change status.code = some 0 ↔ (if status.success = true then succeeded else .failed) = .succeeded
  unfold ExitStatus.success
  by_cases zero : status.code = some 0 <;> simp [zero]

variable {setting} in
theorem follows_waitForExit (nonzero : setting.terminatedStatus.code ≠ some 0) :
    Follows agreement (waitForExit setting) () fun waited _ =>
      ∀ exited, waited = .ok exited → (exited.exitCode = some 0 ↔ exited.state = .succeeded) := by
  have stopped (termination : Termination) {state : InvocationState} (other : state ≠ .succeeded) :
      Follows agreement (terminated setting termination state) () fun waited _ =>
        ∀ exited, waited = .ok exited → (exited.exitCode = some 0 ↔ exited.state = .succeeded) := by
    refine follows_bind.mpr ⟨trivial,fun reaped => ?_⟩
    change Follows agreement (if reaped = true then _ else _) () _
    split
    · intro exited same
      cases same
      exact ⟨fun zero => absurd zero nonzero,fun same => absurd same other⟩
    · intro exited same
      cases same
  refine follows_bind.mpr ⟨trivial,fun ended => ?_⟩
  cases ended with
  | exited =>
    split
    · refine follows_bind.mpr ⟨trivial,fun overLimit => ?_⟩
      change Follows agreement (if overLimit = true then _ else _) () _
      split
      · intro exited same
        cases same
        constructor
        · intro zero
          cases zero
        · intro same
          cases same
      · intro exited same
        cases same
        exact finishFromStatus_agrees _
    · intro exited same
      cases same
      exact finishFromStatus_agrees _
  | waitFailed =>
    intro exited same
    cases same
  | cancelled | timedOut | outputLimit => exact stopped _ (by decide)

variable {setting} in
theorem follows_execute (nonzero : setting.terminatedStatus.code ≠ some 0) :
    Follows agreement (execute setting) () fun _ _ => True := by
  refine follows_bind.mpr ((follows_startExecution setting).weaken ?_)
  intro started _ commits
  cases started with
  | error error => exact follows_agreeing (uses_recoverTerminalFailure setting _ _)
  | ok started =>
    cases started with
    | terminal commit => exact follows_agreeing (uses_orRecover setting (uses_commitTerminal (commits commit rfl)))
    | running =>
      refine follows_bind.mpr ((follows_waitForExit nonzero).weaken ?_)
      intro waited _ agrees
      cases waited with
      | error error => exact follows_agreeing (uses_recoverTerminalFailure setting _ _)
      | ok exited => exact follows_agreeing (uses_orRecover setting (uses_processEvidence setting (agrees exited rfl)))

variable {setting} in
theorem follows_worker (nonzero : setting.terminatedStatus.code ≠ some 0) :
    Follows agreement (worker setting) () fun _ _ => True := by
  have permitted : Follows agreement (runWithPermit setting) () fun _ _ => True := by
    refine follows_bind.mpr ⟨trivial,fun cancelled => ?_⟩
    change Follows agreement (if cancelled = true then _ else _) () _
    split
    · exact follows_agreeing uses_finishCancelled
    refine follows_bind.mpr ⟨Bool.noConfusion,fun starting => ?_⟩
    cases starting with
    | ok record => exact follows_execute nonzero
    | error error => exact follows_agreeing (uses_startingFailed setting error)
  have prepared : Follows agreement (runPrepared setting) () fun _ _ => True := by
    refine follows_bind.mpr ⟨trivial,fun workspace => ?_⟩
    cases workspace with
    | cancelled | refused => exact follows_agreeing uses_finishCancelled
    | granted =>
      refine follows_bind.mpr ⟨trivial,fun outputBase => ?_⟩
      cases outputBase with
      | cancelled => exact follows_agreeing uses_finishCancelled
      | refused => exact follows_agreeing (uses_finishStartFailure setting)
      | granted =>
        refine follows_bind.mpr ⟨trivial,fun execution => ?_⟩
        cases execution with
        | cancelled => exact follows_agreeing uses_finishCancelled
        | refused => trivial
        | granted => exact permitted
  refine follows_bind.mpr (prepared.weaken ?_)
  intro finished _ _
  cases finished with
  | ok record | error error => exact ⟨trivial,fun _ => trivial⟩

/-! ### Every record -/

/-- The record a call writes if it is accepted. -/
def written : Act → Record → Option Record
  | .transition next termination summary, durable => some {durable with state := next, termination, summary}
  | .finishInvocation completion, _ => some completion.record
  | _, _ => none

theorem mem_writeRecord {next : Record} {answer : Except StoreError Record}
    (possible : (answer,after) ∈ writeRecord next state) : after.durable = state.durable ∨ after.durable = next := by
  unfold writeRecord failures at possible
  split at possible
  · simp only [List.cons_append,List.nil_append,List.mem_cons,Prod.mk.injEq,List.not_mem_nil,or_false] at possible
    rcases possible with ⟨_,rfl⟩ | ⟨_,rfl⟩ | ⟨_,rfl⟩ | ⟨_,rfl⟩ | ⟨_,rfl⟩
    · exact .inr rfl
    · exact .inl rfl
    · exact .inl rfl
    · exact .inr rfl
    · exact .inr rfl
  · simp only [List.mem_cons,Prod.mk.injEq,List.not_mem_nil,or_false] at possible
    rcases possible with ⟨_,rfl⟩ | ⟨_,rfl⟩ | ⟨_,rfl⟩ <;> exact .inl rfl

theorem actEffect_durable {act : Act} {answer : Answer act} (possible : (answer,after) ∈ actEffect act state) :
    after.durable = state.durable ∨ written act state.durable = some after.durable := by
  cases act with
  | transition next termination summary => exact (mem_writeRecord possible).imp_right fun same => congrArg some same.symm
  | finishInvocation completion => exact (mem_writeRecord possible).imp_right fun same => congrArg some same.symm
  | _ =>
    refine .inl ?_
    simp only [actEffect,selectCancelled,failures] at possible
    grind

theorem agreeing_written {act : Act} {durable next : Record} (agreeing : Agreeing act)
    (writes : written act durable = some next) : next.Agreed := by
  cases act <;> simp only [written,Option.some.injEq,reduceCtorEq] at writes
  case transition state termination summary =>
    subst writes
    exact agreeing
  case finishInvocation completion =>
    subst writes
    exact fun _ => ⟨completion.summary,rfl,agreeing⟩

def always (_ : Lifecycle.Task) (act : Act) (_ : State) (_ : Answer act) (_ : State) : Bool := true

theorem effect_possible {task : Lifecycle.Task} {act : Act} {answer : Answer act}
    (possible : (answer,after) ∈ effect task act state) : (answer,after) ∈ actEffect act state := by
  unfold effect at possible
  split at possible
  · cases possible
  · exact possible

variable {setting} in
theorem reach_agreed {deferred faulty : Bool} {reason : Nat → Bool} {config : Config Act Answer State Lifecycle.Task}
    (nonzero : setting.terminatedStatus.code ≠ some 0) (reached : Reach effect always (start setting deferred faulty reason) config) :
    config.state.durable.Agreed := by
  have follows (task : Lifecycle.Task) : Follows agreement ((start setting deferred faulty reason).tasks task) () fun _ _ => True := by
    cases task with
    | worker => exact follows_worker nonzero
    | supervisor => exact follows_agreeing (uses_supervisor setting deferred)
    | shutdown => exact ⟨trivial,fun _ => trivial⟩
    | fault =>
      change Follows agreement (if faulty then perform Act.workerPanic else pure ()) () _
      split
      · exact ⟨trivial,fun _ => trivial⟩
      · trivial
    | canceller number => exact follows_agreeing (uses_cancelWithReason (reason number))
  have kept (phases : Lifecycle.Task → Unit) (state : State) (task : Lifecycle.Task) (act : Act) (answer : Answer act) (after : State)
      (agreed : state.durable.Agreed) (agreeing : agreement.allowed (phases task) act)
      (own : Own effect always task act state answer after) : after.durable.Agreed := by
    rcases actEffect_durable (effect_possible own.1) with same | writes
    · rw [same]
      exact agreed
    · exact agreeing_written agreeing writes
  have initial : ({} : State).durable.Agreed := Bool.noConfusion
  obtain ⟨_,_,agreed⟩ := Typestate.reach (fun phases state task act answer after => kept phases state task act answer after)
    follows initial reached
  exact agreed

def timedOutSchedule : List (Lifecycle.Task × Nat) :=
  List.replicate 11 (.worker,0) ++ (.worker,2)::List.replicate 4 (.worker,0)

def timedOutExit : Exited := ⟨some setting.terminatedStatus,.timeout,.timedOut⟩

theorem timed_out_committed (deferred faulty : Bool) (reason : Nat → Bool) :
    ∃ config, Reach effect always (start setting deferred faulty reason) config ∧
      config.state.durable = (reduceEvidence setting (timedOutExit setting)).record := by
  cases replayed : replay effect always (start setting deferred faulty reason) timedOutSchedule with
  | none => cases replayed
  | some config => exact ⟨config,replay_reach replayed,by cases replayed; rfl⟩

/-- In every run of an execution each terminal record agrees with its summary,
exactly if the client does not exit with code zero when it is terminated. -/
theorem success_matches_state (deferred faulty : Bool) (reason : Nat → Bool) :
    (∀ config, Reach effect always (start setting deferred faulty reason) config → config.state.durable.Agreed) ↔
      setting.terminatedStatus.code ≠ some 0 := by
  constructor
  · intro agreed zero
    obtain ⟨config,reached,committed⟩ := timed_out_committed setting deferred faulty reason
    have record := agreed config reached
    rw [committed] at record
    obtain ⟨summary,same,agrees⟩ := record rfl
    cases same
    have success := (reduceEvidence_success setting (timedOutExit setting)).trans (decide_eq_true zero)
    cases agrees.mp success
  · intro nonzero config reached
    exact reach_agreed nonzero reached

def gracefulBuild : Setting where
  request := {id := "", workspace := "", command := .build}
  aspect := false
  commandClass := .buildLike
  maximumRunOutputBytes := 0
  queueMs := 0
  bazelWallMs := 0
  exitStatus := ⟨some 0,none⟩
  terminatedStatus := ⟨some 0,none⟩
  captured := {}
  reducerPanics := false
  testEvidence := ⟨id,fun _ => true,[]⟩
  coverage := none
  reducers := []
  contextTruncated := false
  metrics := {}
  textDiagnostics _ := []
  normalizeTerminalText _ := ""
  bazelPassedTestTargets _ := none
  sanitize text _ := text
  sanitizePath := id
  redactBounded text _ := text
  debugText := id
  faultMessage _ := ""

theorem cancelled_with_success : ∃ config, Reach effect always (start gracefulBuild false false fun _ => false) config ∧
    config.state.durable.state = .cancelled ∧ config.state.durable.summary.map (·.success) = some true := by
  have checked : (replay effect always (start gracefulBuild false false fun _ => false)
      (List.replicate 11 (.worker,0) ++ [(.shutdown,0),(.worker,3),(.worker,0),(.worker,0),(.worker,0),(.worker,0)])).any
      (fun config => decide (config.state.durable.state = .cancelled ∧
        config.state.durable.summary.map (·.success) = some true)) = true := by decide +kernel
  obtain ⟨config,reached,holds⟩ := replay_exists checked
  exact ⟨config,reached,of_decide_eq_true holds⟩

end BazelMcp.Outcome

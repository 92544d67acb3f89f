import BazelMcp.ReductionStream

/-! From the exit of the client to the completed record: how the wait ended, the
reduction of the captured evidence, and the edits made to its summary. The
`Setting` holds what an execution meets outside: the client's exit statuses, the
captured evidence, the test logs and coverage found, the custom reducers'
patches for it and the text functions of the redactor and the log library. -/
namespace BazelMcp.Outcome
open Reduction

structure ExitStatus where
  code : Option Int
  signal : Option Int := none
  deriving DecidableEq

def ExitStatus.success (status : ExitStatus) : Bool := decide (status.code = some 0)

structure Exited where
  status : Option ExitStatus
  termination : Termination
  state : InvocationState
  deriving DecidableEq

def Exited.exitCode (exited : Exited) : Option Int := exited.status.bind (·.code)

def finishFromStatus (status : ExitStatus) : Exited where
  status := some status
  termination := match status.code with
    | some code => .exit code
    | none => .signal (status.signal.getD 0)
  state := if status.success then .succeeded else .failed

structure Captured where
  bep : BepAccumulator := {}
  eventCount : Nat := 0
  terminalError : Option String := none
  stdout : List UInt8 := []
  stderr : List UInt8 := []
  queryRowCount : Nat := 0
  querySample : List QueryRow := []

structure ReducerPatch where
  headline : Option String := none
  diagnostics : List Diagnostic := []
  suppressBuiltinDiagnostics : Bool := false
  deriving DecidableEq

def ReducerPatch.isEmpty (patch : ReducerPatch) : Bool :=
  patch.headline.isNone && patch.diagnostics.isEmpty && !patch.suppressBuiltinDiagnostics

/-- A custom reducer as this execution meets it: whether its selector matches
the evidence, which diagnostics belong to that evidence, and its answer. -/
structure CustomReducer where
  name : String
  overrideMatching : Bool
  selected : Bool
  owns : Diagnostic → Bool
  reduce : Except String ReducerPatch

structure ReducerApplyReport where
  applied : List String := []
  failures : List (String × String) := []
  overrideCollisions : List String := []
  headlineApplied : Bool := false
  deriving DecidableEq

structure InvocationCompletion where
  state : InvocationState
  termination : Termination
  summary : InvocationSummary
  run : Option RunSummary := none
  metrics : InvocationMetrics := {}
  canonicalArguments : Option (List String) := none
  artifacts : List Artifact := []
  deriving DecidableEq

/-- What enriching the tests found in the test logs. -/
structure TestEvidence where
  tests : List TestResult → List TestResult
  retained : Diagnostic → Bool
  diagnostics : List Diagnostic

/-- The places that put the text of an error into a summary. -/
inductive Fault where
  | outputBaseLock
  | startingState
  | evidenceFiles
  | spawn
  | runningState
  | postProcessing
  | worker
  deriving DecidableEq

structure Setting where
  request : InvocationRequest
  aspect : Bool
  commandClass : CommandClass
  maximumRunOutputBytes : Nat
  queueMs : Nat
  bazelWallMs : Nat
  /-- The status of a client that exits by itself. -/
  exitStatus : ExitStatus
  /-- The status of a client after `terminate_child`. -/
  terminatedStatus : ExitStatus
  captured : Captured
  reducerPanics : Bool
  testEvidence : TestEvidence
  coverage : Option CoverageSummary
  reducers : List CustomReducer
  contextTruncated : Bool
  metrics : InvocationMetrics
  textDiagnostics : List UInt8 → List Diagnostic
  normalizeTerminalText : List UInt8 → String
  bazelPassedTestTargets : List UInt8 → Option Nat
  /-- Redaction after the workspace was replaced in the text. -/
  sanitize : String → Nat → String
  sanitizePath : String → String
  redactBounded : String → Nat → String
  debugText : String → String
  /-- The redacted text of an error where it is reported. -/
  faultMessage : Fault → String

variable (setting : Setting)

def fallbackSummary (exitCode : Option Int) (elapsedMs : Nat) (stderr stdout : List UInt8) : InvocationSummary :=
  let success := decide (exitCode = some 0)
  let text := if stderr.isEmpty then stdout else stderr
  let message := ((Text.lines (setting.normalizeTerminalText text).toList).reverse.find? fun line => !(Text.trim line).isEmpty).map
    fun line => boundedText (String.ofList line) 1000
  let diagnostics := if success then [] else message.toList.map fun message =>
    { severity := .error, category := .unknown, message, location := none, target := none, action := none, repetitionCount := 1 }
  { success := success
    headline := match success, message with
      | true, _ => completionHeadline exitCode elapsedMs
      | false, some message => s!"Bazel failed: {message}"
      | false, none => completionHeadline exitCode elapsedMs
    diagnostics := diagnostics
    elapsedMs := elapsedMs
    truncated := true
    inspectHint := some .log }

def fallbackOutput (exitCode : Option Int) : StreamReductionOutput where
  summary := fallbackSummary setting exitCode setting.bazelWallMs setting.captured.stderr setting.captured.stdout
  artifacts := []
  canonicalArguments := none
  reducerEvents := []
  reducerInputTruncated := false
  runBepOutcome := {}

/-- The streaming reduction, or the fallback if it panics. -/
def reduced (exitCode : Option Int) : StreamReductionOutput :=
  if setting.reducerPanics then fallbackOutput setting exitCode
  else setting.captured.bep.finish setting.textDiagnostics setting.captured.stdout setting.captured.stderr exitCode
    setting.bazelWallMs ⟨usizeMax,usizeMax⟩

def canonicalArguments (found : Option (List String)) : Option (List String) :=
  let request := setting.request
  let shown := if request.command = .run then
      let redacted := if request.programArguments.isEmpty then []
        else
          let count := request.programArguments.length
          [s!"[REDACTED_PROGRAM_ARGS:{count}]"]
      some (request.startupArguments ++ ["run"] ++ request.arguments ++ request.target.toList ++ redacted)
    else found
  shown.map fun arguments => arguments.map (setting.sanitize · (64*1024))

def sanitizeArtifact (artifact : Artifact) : Artifact :=
  { artifact with
    name := setting.redactBounded artifact.name 1000
    uri := setting.redactBounded artifact.uri 1000 }

/-- Query results and the text of informational commands. -/
def describeSuccess (exitCode : Option Int) (summary : InvocationSummary) : InvocationSummary :=
  let rows := setting.captured.queryRowCount
  if setting.commandClass = .query ∧ exitCode = some 0 then
    { summary with
      headline := s!"Bazel query returned {rows} rows"
      inspectHint := if 0 < rows then some .queryResults else none
      queryResultCount := some rows
      querySample := setting.captured.querySample }
  else if (setting.commandClass = .informational ∨ setting.commandClass = .unknown) ∧ exitCode = some 0 then
    let text := if setting.captured.stdout.isEmpty then setting.captured.stderr else setting.captured.stdout
    let excerpt := setting.normalizeTerminalText text
    if excerpt = "" then summary
    else if 1000 < len excerpt then
      {summary with headline := boundedText excerpt 1000, truncated := true, inspectHint := some .log}
    else {summary with headline := boundedText excerpt 1000}
  else summary

def runOutputExcerpt : List String :=
  let normalized := setting.normalizeTerminalText setting.captured.stdout
  let text := if (Text.trim normalized.toList).isEmpty then setting.normalizeTerminalText setting.captured.stderr else normalized
  let shown := (Text.lines text.toList).filter fun line => !(Text.trim line).isEmpty
  ((shown.reverse.take 8).map fun line => setting.sanitize (String.ofList line) 512).reverse

def runOutcome (exitCode : Option Int) (termination : Termination) (bep : RunBepOutcome) : RunOutcome :=
  let launched := decide (bep.execRequestShouldExecute = some true)
  match termination with
  | .outputLimit _ => if launched then .outputLimitDuringProgram else .outputLimitDuringBuild
  | .cancelled => if launched then .cancelledDuringProgram else .cancelledDuringBuild
  | .timeout => if launched then .timedOutDuringProgram else .timedOutDuringBuild
  | _ =>
    if bep.buildSuccess = some false then .buildFailed
    else if !launched then .notLaunched
    else if exitCode = some 0 then .succeeded
    else .programFailed

def buildRunSummary (exitCode : Option Int) (termination : Termination) (bep : RunBepOutcome) : Option RunSummary :=
  let launched := decide (bep.execRequestShouldExecute = some true)
  if setting.request.command = .run then
    some
      { target := setting.redactBounded (setting.request.target.getD "<missing target>") 1000
        outcome := runOutcome exitCode termination bep
        programExitCode := if launched then exitCode else none
        outputExcerpt := if launched then runOutputExcerpt setting else [] }
  else none

def runHeadline (run : RunSummary) (headline : String) : String :=
  let target := run.target
  match run.outcome with
  | .buildFailed => headline
  | .notLaunched => s!"{target} was built but not launched"
  | .succeeded => s!"{target} exited successfully"
  | .programFailed =>
    match run.programExitCode with
    | none => s!"{target} terminated without an exit code"
    | some code => s!"{target} exited with code {code}"
  | .cancelledDuringBuild => s!"{target} was cancelled while building"
  | .cancelledDuringProgram => s!"{target} was cancelled while running"
  | .timedOutDuringBuild => s!"{target} timed out while building"
  | .timedOutDuringProgram => s!"{target} timed out while running"
  | .outputLimitDuringBuild => s!"{target} exceeded the output limit while building"
  | .outputLimitDuringProgram => s!"{target} exceeded the output limit while running"

def describeRun (run : Option RunSummary) (summary : InvocationSummary) : InvocationSummary :=
  match run with
  | some run => {summary with headline := runHeadline run summary.headline}
  | none => summary

/-- Nothing is read when every test passed. -/
def enrichTests (summary : InvocationSummary) : InvocationSummary :=
  if summary.tests.all (fun test => decide (test.status = .passed)) then summary
  else
    { summary with
      tests := setting.testEvidence.tests summary.tests
      diagnostics := summary.diagnostics.filter setting.testEvidence.retained ++ setting.testEvidence.diagnostics }

def loadCoverage (summary : InvocationSummary) : InvocationSummary :=
  if setting.request.command = .coverage then {summary with coverage := setting.coverage} else summary

structure Applying where
  summary : InvocationSummary
  report : ReducerApplyReport := {}
  overrideOwner : Option String := none
  headlineSet : Bool := false

def applyPatch (applying : Applying) (reducer : CustomReducer) (patch : ReducerPatch) : Applying :=
  if patch.isEmpty then applying
  else
    let kept := if reducer.overrideMatching && patch.suppressBuiltinDiagnostics then
        applying.summary.diagnostics.filter (!reducer.owns ·)
      else applying.summary.diagnostics
    let named := !applying.headlineSet && patch.headline.isSome
    { summary := { applying.summary with
        headline := if named then patch.headline.getD applying.summary.headline else applying.summary.headline
        diagnostics := kept ++ patch.diagnostics }
      report := { applying.report with
        applied := applying.report.applied ++ [reducer.name]
        headlineApplied := applying.report.headlineApplied || named }
      overrideOwner := if reducer.overrideMatching then some reducer.name else applying.overrideOwner
      headlineSet := applying.headlineSet || named }

def applyReducer (applying : Applying) (reducer : CustomReducer) : Applying :=
  match reducer.overrideMatching, applying.overrideOwner with
  | true, some owner =>
    let name := setting.debugText reducer.name
    let holder := setting.debugText owner
    let collision := s!"custom reducer {name} also matched evidence owned by {holder}; higher priority reducer retained ownership"
    {applying with report := {applying.report with overrideCollisions := applying.report.overrideCollisions ++ [collision]}}
  | _, _ =>
    match reducer.reduce with
    | .ok patch => applyPatch applying reducer patch
    | .error error =>
      {applying with report := {applying.report with failures := applying.report.failures ++ [(reducer.name,error)]}}

/-- The pipeline's reducers stand in the order of their priority. -/
def applyReducers (summary : InvocationSummary) : InvocationSummary × ReducerApplyReport :=
  let applied := (setting.reducers.filter (·.selected)).foldl (applyReducer setting) {summary}
  if !applied.report.applied.isEmpty && setting.contextTruncated then
    ({applied.summary with truncated := true, inspectHint := some .log},applied.report)
  else (applied.summary,applied.report)

def customReducerNotice (message : String) : Diagnostic where
  severity := .note
  category := .bazel
  message := message
  location := none
  target := none
  action := none
  repetitionCount := 1

def customNotices (report : ReducerApplyReport) : List Diagnostic :=
  report.failures.map (fun failure =>
    let name := setting.debugText (setting.redactBounded failure.1 128)
    customReducerNotice s!"Custom reducer {name} failed; native reducer output was retained") ++
  report.overrideCollisions.map fun collision => customReducerNotice (setting.redactBounded collision 512)

def resultDefault : Budget := ⟨4*1024,20⟩

def finalizeWithCustomNotices (summary : InvocationSummary) (notices : List Diagnostic) : InvocationSummary :=
  if notices.isEmpty then finalizeDiagnostics summary resultDefault
  else
    let noticeSummary := finalizeDiagnostics {success := true, diagnostics := notices} ⟨1024,4⟩
    let noticeBytes := (noticeSummary.diagnostics.map fun notice => len notice.message).foldr (· + ·) 0
    let finalized := finalizeDiagnostics summary
      ⟨resultDefault.maxBytes - noticeBytes,resultDefault.maxItems - noticeSummary.diagnostics.length⟩
    let extended := {finalized with diagnostics := finalized.diagnostics ++ noticeSummary.diagnostics}
    if noticeSummary.truncated then {extended with truncated := true, inspectHint := some .diagnostics} else extended

def describeAspect (exitCode : Option Int) (summary : InvocationSummary) : InvocationSummary :=
  let command := setting.request.command.asStr
  let elapsedMs := setting.bazelWallMs
  let shown := shownExitCode exitCode
  match summary.success, summary.diagnostics with
  | false, first::_ =>
    let message := first.message
    {summary with headline := s!"Aspect {command} failed: {message}"}
  | true, _ =>
    if setting.commandClass = .buildLike then
      {summary with headline := s!"Aspect {command} completed successfully in {elapsedMs} ms"}
    else summary
  | false, [] =>
    if summary.headline = "" ∨ Text.startsWith summary.headline "Bazel " then
      {summary with headline := s!"Aspect {command} failed with exit code {shown}"}
    else summary

def describeTests (bep : RunBepOutcome) (summary : InvocationSummary) : InvocationSummary :=
  let command := setting.request.command.asStr
  let recovered := bep.recoveredTestTargets
  let count := summary.tests.length
  let plural := if count = 1 then "" else "s"
  if 0 < recovered then
    { summary with
      headline := s!"Bazel {command} succeeded: {count} test target{plural} reported ({recovered} recovered from BEP test attempts)" }
  else if summary.tests.isEmpty then
    match (setting.bazelPassedTestTargets setting.captured.stdout).or (setting.bazelPassedTestTargets setting.captured.stderr) with
    | some passed =>
      { summary with
        testCounts := {summary.testCounts with passed := passed}
        headline :=
          s!"Bazel {command} succeeded: {passed} test targets passed (from Bazel console summary; BEP test results unavailable)" }
    | none =>
      if bep.buildSuccess = some true ∧ setting.captured.terminalError = none ∧ bep.testResultSeen = false ∧
          summary.truncated = false then
        {summary with headline := s!"Bazel {command} succeeded: no test targets were found"}
      else
        { summary with
          headline := s!"Bazel {command} succeeded, but test counts are unavailable because BEP results are incomplete" }
  else summary

def hintAtLog (summary : InvocationSummary) : InvocationSummary :=
  if !summary.success && summary.inspectHint.isNone then
    let logged := summary.tests.any fun test => decide (test.status ≠ .passed) && test.testLogAvailable
    {summary with inspectHint := some (if logged then .testLog else .log)}
  else summary

def sanitizeDiagnostic (diagnostic : Diagnostic) : Diagnostic :=
  { diagnostic with
    message := setting.sanitize diagnostic.message 1000
    location := diagnostic.location.map fun location => {location with path := setting.sanitizePath location.path}
    target := diagnostic.target.map (setting.sanitize · 1000)
    action := diagnostic.action.map (setting.sanitize · 1000) }

def sanitizeTest (test : TestResult) : TestResult :=
  { test with
    label := setting.sanitize test.label 1000
    cases := test.cases.map fun case =>
      {case with name := setting.sanitize case.name 512, message := case.message.map (setting.sanitize · 1000)} }

def sanitizeSummary (summary : InvocationSummary) : InvocationSummary :=
  { summary with
    headline := setting.sanitize summary.headline 1000
    targets := summary.targets.map fun target => {target with label := setting.sanitize target.label 1000}
    diagnostics := summary.diagnostics.map (sanitizeDiagnostic setting)
    tests := summary.tests.map (sanitizeTest setting)
    coverage := summary.coverage.map fun coverage =>
      {coverage with files := coverage.files.map fun file => {file with path := setting.sanitize file.path 1000}} }

/-- The custom reducers, the public result budget and the headline that follows. -/
def customize (exitCode : Option Int) (bep : RunBepOutcome) (summary : InvocationSummary) : InvocationSummary :=
  let (patched,report) := if setting.reducers.isEmpty then (summary,{}) else applyReducers setting summary
  let finalized := finalizeWithCustomNotices patched (customNotices setting report)
  if report.headlineApplied then {finalized with headline := patched.headline}
  else
    let described := if setting.aspect then describeAspect setting exitCode finalized else finalized
    if described.success && decide (setting.request.command = .test ∨ setting.request.command = .coverage) then
      describeTests setting bep described
    else described

def reduceEvidence (exited : Exited) : InvocationCompletion :=
  let exitCode := exited.exitCode
  let output := reduced setting exitCode
  let artifacts := output.artifacts.map (sanitizeArtifact setting)
  let run := buildRunSummary setting exitCode exited.termination output.runBepOutcome
  let described := describeRun run (describeSuccess setting exitCode output.summary)
  let enriched := loadCoverage setting (enrichTests setting described)
  let summary := sanitizeSummary setting (hintAtLog (customize setting exitCode output.runBepOutcome enriched))
  { state := exited.state
    termination := exited.termination
    summary := summary
    run := run
    metrics := setting.metrics
    canonicalArguments := canonicalArguments setting output.canonicalArguments
    artifacts := artifacts }

end BazelMcp.Outcome

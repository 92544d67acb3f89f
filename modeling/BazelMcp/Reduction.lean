import BazelMcp.Evidence
import BazelMcp.Traversal
import Mathlib.Data.List.Sort
import Mathlib.Data.String.Basic

/-! Reduction of a decoded event list to an invocation summary and an artifact
list. An event is what the reducer reads of it: its decoded id and its payload.
The diagnostics found in terminal text come from the external log library, here
a function of the bytes. -/
namespace BazelMcp.Reduction
open Utf8 Traversal

/-! ### Events -/

inductive FileSource where
  | uri (uri : String)
  | symlinkTargetPath (target : String)
  | contents
  deriving DecidableEq

structure File where
  pathPrefix : List String := []
  name : String
  file : Option FileSource
  length : Int := 0
  deriving DecidableEq

inductive EventId where
  | targetCompleted (label : String)
  | actionCompleted (label : String)
  | testSummary (label : String)
  | testResult (label : String)
  | unconfiguredLabel (label : String)
  | configuredLabel (label : String)
  | namedSet (id : String)
  | other
  deriving DecidableEq

structure ActionExecuted where
  success : Bool
  exitCode : Int
  type : String
  label : String
  primaryOutput : Option File
  deriving DecidableEq

structure OutputGroup where
  fileSets : List String
  inlineFiles : List File
  deriving DecidableEq

structure TargetComplete where
  success : Bool
  targetKind : String
  outputGroup : List OutputGroup
  importantOutput : List File
  directoryOutput : List File
  deriving DecidableEq

structure TestSummary where
  overallStatus : Int
  totalRunDurationMillis : Int
  attemptCount : Int
  shardCount : Int
  deriving DecidableEq

inductive Payload where
  | aborted (reason : Int) (description : String)
  | action (action : ActionExecuted)
  | completed (completed : TargetComplete)
  | testSummary (summary : TestSummary)
  | testResult (status : Int) (testActionOutput : List File)
  | namedSetOfFiles (files : List File) (fileSets : List String)
  | optionsParsed (startupOptions cmdLine : List String)
  | finished (overallSuccess : Bool)
  | execRequest (shouldExec : Bool)
  | other
  deriving DecidableEq

/-- The id is absent when it does not decode or names no kind. -/
structure BuildEvent where
  id : Option EventId := none
  payload : Option Payload := none
  deriving DecidableEq

/-! ### Fields of the results -/

def len (text : String) : Nat := byteLen text.toList

def boundedText (value : String) (maximumBytes : Nat) : String :=
  String.ofList (Evidence.boundedText value.toList maximumBytes)

def nonempty (value : String) : Option String := if value = "" then none else some value

def labelFromId : Option EventId → Option String
  | some (.targetCompleted label) | some (.actionCompleted label) | some (.testSummary label) | some (.testResult label)
  | some (.unconfiguredLabel label) | some (.configuredLabel label) => nonempty label
  | some (.namedSet _) | some .other | none => none

def abortCategory (reason : Int) : DiagnosticCategory :=
  if reason = 5 then .loading else if reason = 6 then .analysis else .bazel

def testStatus (value : Int) : TestStatus :=
  if value = 1 then .passed
  else if value = 2 then .flaky
  else if value = 3 then .timedOut
  else if value = 4 ∨ value = 7 ∨ value = 8 then .failed
  else if value = 5 then .incomplete
  else if value = 6 then .remote
  else .incomplete

/-- `try_from` of a signed number into an unsigned one at least as wide. -/
def unsigned (value : Int) : Option Nat := if 0 ≤ value then some value.toNat else none

def fileArtifact (file : File) : Option Artifact :=
  let name := boundedText ("/".intercalate ((file.pathPrefix ++ [file.name]).filter (· ≠ ""))) 1000
  let sizeBytes := unsigned file.length
  match file.file with
  | some (.uri uri) =>
    let isLocal := Text.startsWith uri "file:"
    let kind :=
      if file.name = "test.log" ∨ file.name = "test.xml" then ArtifactKind.testLog
      else if Text.contains file.name.toList "coverage".toList || ".dat".toList.isSuffixOf file.name.toList then .coverage
      else if isLocal then .file
      else .remote
    some { name, kind, uri := boundedText uri 1000, sizeBytes, locallyAvailable := isLocal }
  | some (.symlinkTargetPath target) =>
    some { name, kind := .file, uri := boundedText target 1000, sizeBytes, locallyAvailable := true }
  | some .contents => some { name, kind := .file, uri := "inline://redacted", sizeBytes, locallyAvailable := true }
  | none => none

def abortedDiagnostic (id : Option EventId) (reason : Int) (message : String) : Diagnostic where
  severity := .error
  category := abortCategory reason
  message := message
  location := none
  target := labelFromId id
  action := none
  repetitionCount := 1

def actionDiagnostic (id : Option EventId) (action : ActionExecuted) : Diagnostic :=
  let mnemonic := if action.type = "" then "Bazel" else action.type
  let exitCode := action.exitCode
  { severity := .error
    category := .action
    message := s!"{mnemonic} action failed with exit code {exitCode}"
    location := none
    target := (labelFromId id).or (nonempty action.label)
    action := nonempty action.type
    repetitionCount := 1 }

def targetResult (id : Option EventId) (completed : TargetComplete) : TargetResult where
  label := (labelFromId id).getD "<unknown target>"
  success := completed.success

def testOutcomeDiagnostic (label : String) (status : TestStatus) : Option Diagnostic :=
  let diagnostic (severity : Severity) (message : String) : Option Diagnostic :=
    some { severity, category := .test, message, location := none, target := some label, action := none, repetitionCount := 1 }
  match status with
  | .passed | .skipped => none
  | .flaky => diagnostic .warning s!"Test was flaky: {label}"
  | .failed => diagnostic .error s!"Test failed: {label}"
  | .timedOut => diagnostic .error s!"Test timed out: {label}"
  | .incomplete => diagnostic .error s!"Test was incomplete: {label}"
  | .remote => diagnostic .error s!"Test result was unavailable: {label}"

def testLabel (id : Option EventId) : String := (labelFromId id).getD "<unknown test>"

def testResult (label : String) (summary : TestSummary) : TestResult where
  label := label
  status := testStatus summary.overallStatus
  durationMs := unsigned summary.totalRunDurationMillis
  attempts := (max summary.attemptCount 1).toNat
  shard := (unsigned summary.shardCount).filter (0 < ·)
  cases := []
  testLogAvailable := false
  testLogUnavailableReason := if testStatus summary.overallStatus ≠ .passed then some "test_log_not_snapshotted" else none

/-! ### Ranking and bounding diagnostics -/

structure Budget where
  maxBytes : Nat
  maxItems : Nat
  deriving DecidableEq

structure DiagnosticKey where
  severity : Severity
  category : DiagnosticCategory
  message : String
  location : Option DiagnosticLocation
  target : Option String
  action : Option String
  deriving DecidableEq

def diagnosticKey (diagnostic : Diagnostic) : DiagnosticKey where
  severity := diagnostic.severity
  category := diagnostic.category
  message := diagnostic.message
  location := diagnostic.location
  target := if diagnostic.category = .action then none else diagnostic.target
  action := diagnostic.action

/-- A retained diagnostic with what later repetitions of its key add to it. -/
structure Retained where
  diagnostic : Diagnostic
  repetitionCount : Nat
  clearTarget : Bool
  deriving DecidableEq

def u32Max : Nat := 0xFFFFFFFF

def countRepetition (diagnostic : Diagnostic) : List Retained → List Retained
  | [] => [⟨diagnostic,diagnostic.repetitionCount,false⟩]
  | first::rest =>
    if diagnosticKey first.diagnostic = diagnosticKey diagnostic then
      { first with
        repetitionCount := min (first.repetitionCount + diagnostic.repetitionCount) u32Max
        clearTarget := first.clearTarget ||
          (decide (diagnostic.category = .action) && decide (first.diagnostic.target ≠ diagnostic.target)) }::rest
    else first::countRepetition diagnostic rest

def deduplicateDiagnostics (diagnostics : List Diagnostic) : List Diagnostic :=
  (diagnostics.foldl (fun retained diagnostic => countRepetition diagnostic retained) []).map fun retained =>
    { retained.diagnostic with
      repetitionCount := retained.repetitionCount
      target := if retained.clearTarget then none else retained.diagnostic.target }

def containsIgnoreAsciiCase (value needle : String) : Bool :=
  Text.contains (Text.toAsciiLowercase value.toList) (Text.toAsciiLowercase needle.toList)

def startsWithIgnoreAsciiCase (value start : String) : Bool :=
  (Text.toAsciiLowercase start.toList).isPrefixOf (Text.toAsciiLowercase value.toList)

def severityRank : Severity → Nat
  | .error => 0
  | .warning => 1
  | .note => 2

def categoryRank : DiagnosticCategory → Nat
  | .loading | .visibility | .analysis | .compilation => 0
  | .test => 1
  | .workspace => 2
  | .bazel => 3
  | .unknown => 4
  | .action => 5

def evidenceQuality (diagnostic : Diagnostic) : Nat :=
  let message := diagnostic.message
  let rustFailure := containsIgnoreAsciiCase message "panicked at" ||
    (containsIgnoreAsciiCase message "assertion" && containsIgnoreAsciiCase message " failed")
  if diagnostic.location.isSome ||
      (containsIgnoreAsciiCase message "root_cause" && !containsIgnoreAsciiCase message "error executing") then 0
  else if decide (diagnostic.category = .test) && rustFailure then 1
  else if startsWithIgnoreAsciiCase message "test failed:" || startsWithIgnoreAsciiCase message "test timed out:" ||
      startsWithIgnoreAsciiCase message "test was incomplete:" ||
      startsWithIgnoreAsciiCase message "test result was unavailable:" then 3
  else if containsIgnoreAsciiCase message "error executing" then 2
  else 1

def diagnosticPriority (diagnostic : Diagnostic) : List Nat :=
  [severityRank diagnostic.severity,categoryRank diagnostic.category,evidenceQuality diagnostic]

/-- The diagnostics kept within the bytes not yet used, and whether one is dropped. -/
def retainWithin (maxBytes : Nat) : Nat → List Diagnostic → List Diagnostic × Bool
  | _, [] => ([],false)
  | used, diagnostic::rest =>
    let next := min (used + len diagnostic.message) usizeMax
    if maxBytes < next then ((retainWithin maxBytes used rest).1,true)
    else (diagnostic::(retainWithin maxBytes next rest).1,(retainWithin maxBytes next rest).2)

def rankedDiagnostics (diagnostics : List Diagnostic) : List Diagnostic :=
  (deduplicateDiagnostics diagnostics).insertionSort fun left right => diagnosticPriority left ≤ diagnosticPriority right

def finalizeDiagnostics (summary : InvocationSummary) (budget : Budget) : InvocationSummary :=
  let ranked := rankedDiagnostics summary.diagnostics
  let kept := retainWithin budget.maxBytes 0 (ranked.take budget.maxItems)
  let truncated := summary.truncated || decide (budget.maxItems < ranked.length) || kept.2
  { summary with
    diagnostics := kept.1
    truncated := truncated
    inspectHint := if truncated then some .diagnostics else summary.inspectHint
    headline := match summary.success, kept.1 with
      | false, first::_ => "Bazel failed: " ++ first.message
      | _, _ => summary.headline }

/-! ### The summary of what was collected -/

/-- `dedup_by` on equal labels, behind the element retained last. -/
def dedupFrom {α : Type} (label : α → String) (last : α) : List α → List α
  | [] => []
  | next::rest => if label next = label last then dedupFrom label last rest else next::dedupFrom label next rest

def dedupBy {α : Type} (label : α → String) : List α → List α
  | [] => []
  | first::rest => first::dedupFrom label first rest

def sortBy {α : Type} (label : α → String) (items : List α) : List α :=
  items.insertionSort fun left right => label left ≤ label right

def countTargets (targets : List TargetResult) : TargetCounts where
  requested := targets.length
  succeeded := (targets.filter (·.success)).length
  failed := (targets.filter (!·.success)).length

def countTest (counts : TestCounts) (test : TestResult) : TestCounts :=
  match test.status with
  | .passed => {counts with passed := counts.passed+1}
  | .failed => {counts with failed := counts.failed+1}
  | .flaky => {counts with flaky := counts.flaky+1}
  | .skipped => {counts with skipped := counts.skipped+1}
  | .timedOut | .incomplete | .remote => {counts with incomplete := counts.incomplete+1}

def countTests (tests : List TestResult) : TestCounts := tests.foldl countTest {}

/-- The debug form of an optional exit code. -/
def shownExitCode : Option Int → String
  | some code => s!"Some({code})"
  | none => "None"

def completionHeadline (exitCode : Option Int) (elapsedMs : Nat) : String :=
  let shown := shownExitCode exitCode
  if exitCode = some 0 then s!"Bazel completed successfully in {elapsedMs} ms" else s!"Bazel failed with exit code {shown}"

section Batch

variable (textDiagnostics : List UInt8 → List Diagnostic)

/-- Both streams are searched, unless the command succeeded. -/
def addTextDiagnostics (exitCode : Option Int) (stdout stderr : List UInt8) (diagnostics : List Diagnostic) :
    List Diagnostic :=
  if exitCode = some 0 then diagnostics else diagnostics ++ textDiagnostics stderr ++ textDiagnostics stdout

structure ReductionInput where
  events : List BuildEvent
  stdout : List UInt8
  stderr : List UInt8
  exitCode : Option Int
  elapsedMs : Nat
  budget : Budget

structure Gathered where
  diagnostics : List Diagnostic := []
  targets : List TargetResult := []
  tests : List TestResult := []
  deriving DecidableEq

def gather (gathered : Gathered) (event : BuildEvent) : Gathered :=
  match event.payload with
  | some (.aborted reason description) =>
    {gathered with diagnostics := gathered.diagnostics ++ [abortedDiagnostic event.id reason description]}
  | some (.action action) =>
    if action.success then gathered
    else {gathered with diagnostics := gathered.diagnostics ++ [actionDiagnostic event.id action]}
  | some (.completed completed) => {gathered with targets := gathered.targets ++ [targetResult event.id completed]}
  | some (.testSummary summary) =>
    let label := testLabel event.id
    { gathered with
      diagnostics := gathered.diagnostics ++ (testOutcomeDiagnostic label (testStatus summary.overallStatus)).toList
      tests := gathered.tests ++ [testResult label summary] }
  | _ => gathered

def reduceInvocation (input : ReductionInput) : InvocationSummary :=
  let gathered := input.events.foldl gather {}
  let targets := dedupBy (·.label) (sortBy (·.label) gathered.targets)
  let tests := dedupBy (·.label) (sortBy (·.label) gathered.tests)
  finalizeDiagnostics
    { success := decide (input.exitCode = some 0)
      headline := completionHeadline input.exitCode input.elapsedMs
      targets := targets
      targetCounts := countTargets targets
      diagnostics := addTextDiagnostics textDiagnostics input.exitCode input.stdout input.stderr gathered.diagnostics
      tests := tests
      testCounts := countTests tests
      elapsedMs := input.elapsedMs } input.budget

end Batch

/-- Keeps the first artifact of each name and location. -/
def distinctArtifacts (seen : List (String × String)) : List Artifact → List Artifact
  | [] => []
  | artifact::rest =>
    if (artifact.name,artifact.uri) ∈ seen then distinctArtifacts seen rest
    else artifact::distinctArtifacts ((artifact.name,artifact.uri)::seen) rest

/-- Named sets stand in the order of their insertion, the last one first. -/
structure GatheredFiles where
  sets : List (String × Node String File) := []
  roots : List String := []
  direct : List File := []
  deriving DecidableEq

def gatherGroup (gathered : GatheredFiles) (group : OutputGroup) : GatheredFiles :=
  { gathered with
    roots := gathered.roots ++ group.fileSets
    direct := gathered.direct ++ group.inlineFiles }

def gatherFiles (gathered : GatheredFiles) (event : BuildEvent) : GatheredFiles :=
  match event.payload with
  | some (.namedSetOfFiles files fileSets) =>
    match event.id with
    | some (.namedSet id) => {gathered with sets := (id,⟨files,fileSets⟩)::gathered.sets}
    | _ => gathered
  | some (.completed completed) =>
    let grouped := completed.outputGroup.foldl gatherGroup gathered
    {grouped with direct := grouped.direct ++ completed.importantOutput ++ completed.directoryOutput}
  | some (.action action) =>
    if action.success then gathered else {gathered with direct := gathered.direct ++ action.primaryOutput.toList}
  | some (.testResult _ testActionOutput) => {gathered with direct := gathered.direct ++ testActionOutput}
  | _ => gathered

def reduceArtifacts (events : List BuildEvent) : List Artifact :=
  let gathered := events.foldl gatherFiles {}
  distinctArtifacts [] ((gathered.direct ++ walk gathered.sets [] gathered.roots.reverse).filterMap fileArtifact)

end BazelMcp.Reduction

import BazelMcp.Reduction

/-! The streaming reducer: a bounded accumulator that is shown one event at a
time and keeps only what the summary and the artifact list need. -/
namespace BazelMcp.Reduction
open Traversal

def streamMaxItems : Nat := 250000
def streamMaxRetainedBytes : Nat := 64*1024*1024

structure RunBepOutcome where
  buildSuccess : Option Bool := none
  execRequestShouldExecute : Option Bool := none
  testResultSeen : Bool := false
  recoveredTestTargets : Nat := 0
  deriving DecidableEq

structure TestAttemptOutcome where
  passed : Bool := false
  notPassed : Bool := false
  flaky : Bool := false
  attempts : Nat := 0
  deriving DecidableEq

namespace TestAttemptOutcome

def observe (outcome : TestAttemptOutcome) (status : TestStatus) : TestAttemptOutcome :=
  let outcome := {outcome with attempts := min (outcome.attempts+1) u32Max}
  match status with
  | .passed => {outcome with passed := true}
  | .flaky => {outcome with flaky := true}
  | _ => {outcome with notPassed := true}

def successfulStatus (outcome : TestAttemptOutcome) : Option TestStatus :=
  if outcome.flaky || (outcome.passed && outcome.notPassed) then some .flaky
  else if outcome.passed then some .passed
  else none

end TestAttemptOutcome

/-- Counts an attempt in a map ordered by label, entering the label if it is new. -/
def observeAttempt (label : String) (status : TestStatus) :
    List (String × TestAttemptOutcome) → List (String × TestAttemptOutcome)
  | [] => [(label,TestAttemptOutcome.observe {} status)]
  | (known,outcome)::rest =>
    if label < known then (label,TestAttemptOutcome.observe {} status)::(known,outcome)::rest
    else if label = known then (known,outcome.observe status)::rest
    else (known,outcome)::observeAttempt label status rest

inductive ReducerEventKind where
  | aborted
  | action
  | target
  | testSummary
  deriving DecidableEq

structure ReducerEvent where
  ordinal : Nat
  kind : ReducerEventKind
  label : Option String
  targetKind : Option String := none
  actionType : Option String := none
  success : Option Bool
  exitCode : Option Int := none
  message : Option String := none
  deriving DecidableEq

structure ExtensionEventCollector where
  events : List ReducerEvent := []
  retainedBytes : Nat := 0
  maxEvents : Nat
  maxBytes : Nat
  truncated : Bool := false
  deriving DecidableEq

def optionalBytes (text : Option String) : Nat := (text.map len).getD 0

def ExtensionEventCollector.push (collector : ExtensionEventCollector) (event : ReducerEvent) : ExtensionEventCollector :=
  let bytes := optionalBytes event.label + optionalBytes event.targetKind + optionalBytes event.actionType +
    optionalBytes event.message
  let next := min (collector.retainedBytes+bytes) usizeMax
  if collector.maxEvents ≤ collector.events.length ∨ collector.maxBytes < next then {collector with truncated := true}
  else {collector with retainedBytes := next, events := collector.events ++ [event]}

structure BepAccumulator where
  diagnostics : List Diagnostic := []
  targets : List TargetResult := []
  tests : List TestResult := []
  testAttempts : List (String × TestAttemptOutcome) := []
  namedSets : List (String × Node String Artifact) := []
  artifactRoots : List String := []
  directArtifacts : List Artifact := []
  canonicalArguments : Option (List String) := none
  runBepOutcome : RunBepOutcome := {}
  retainedItems : Nat := 0
  retainedBytes : Nat := 0
  truncated : Bool := false
  extension : Option ExtensionEventCollector := none
  nextEventOrdinal : Nat := 0
  deriving DecidableEq

structure StreamReductionOutput where
  summary : InvocationSummary
  artifacts : List Artifact
  canonicalArguments : Option (List String)
  reducerEvents : List ReducerEvent
  reducerInputTruncated : Bool
  runBepOutcome : RunBepOutcome
  deriving DecidableEq

namespace BepAccumulator

def withExtensionEvents (maxEvents maxBytes : Nat) : BepAccumulator where
  extension := some { maxEvents, maxBytes }

def charge (accumulator : BepAccumulator) (items bytes : Nat) : BepAccumulator :=
  {accumulator with retainedItems := items, retainedBytes := bytes}

def reserve (accumulator : BepAccumulator) (items bytes : Nat) : Bool × BepAccumulator :=
  let nextItems := min (accumulator.retainedItems+items) usizeMax
  let nextBytes := min (accumulator.retainedBytes+bytes) usizeMax
  if streamMaxItems < nextItems ∨ streamMaxRetainedBytes < nextBytes then (false,{accumulator with truncated := true})
  else (true,accumulator.charge nextItems nextBytes)

/-- Every use of `reserve`: the item is kept only if there is room for it. -/
def retain (accumulator : BepAccumulator) (items bytes : Nat) (keep : BepAccumulator → BepAccumulator) : BepAccumulator :=
  match accumulator.reserve items bytes with
  | (true,reserved) => keep reserved
  | (false,full) => full

def pushDiagnostic (accumulator : BepAccumulator) (bytes : Nat) (diagnostic : Diagnostic) : BepAccumulator :=
  accumulator.retain 1 bytes fun reserved => {reserved with diagnostics := reserved.diagnostics ++ [diagnostic]}

def pushRoot (accumulator : BepAccumulator) (id : String) : BepAccumulator :=
  let id := boundedText id (4*1024)
  accumulator.retain 1 (len id) fun reserved => {reserved with artifactRoots := reserved.artifactRoots ++ [id]}

def pushDirectArtifact (accumulator : BepAccumulator) (artifact : Artifact) : BepAccumulator :=
  accumulator.retain 1 (len artifact.name + len artifact.uri) fun reserved =>
    {reserved with directArtifacts := reserved.directArtifacts ++ [artifact]}

def pushFile (accumulator : BepAccumulator) (file : File) : BepAccumulator :=
  match fileArtifact file with
  | some artifact => accumulator.pushDirectArtifact artifact
  | none => accumulator

def observeExtensionEvent (accumulator : BepAccumulator) (event : BuildEvent) (ordinal : Nat) : BepAccumulator :=
  match accumulator.extension with
  | none => accumulator
  | some collector =>
    let label := labelFromId event.id
    let seen : Option ReducerEvent := match event.payload with
      | some (.aborted _ description) =>
        some { ordinal, kind := .aborted, label, success := some false, message := some (boundedText description (64*1024)) }
      | some (.action action) =>
        some { ordinal, kind := .action, label := label.or (nonempty action.label), actionType := nonempty action.type,
               success := some action.success, exitCode := some action.exitCode }
      | some (.completed completed) =>
        some { ordinal, kind := .target, label, targetKind := nonempty completed.targetKind, success := some completed.success }
      | some (.testSummary summary) =>
        some { ordinal, kind := .testSummary, label,
               success := some (decide (testStatus summary.overallStatus = .passed)) }
      | _ => none
    match seen with
    | some event => {accumulator with extension := some (collector.push event)}
    | none => accumulator

def pushGroup (accumulator : BepAccumulator) (group : OutputGroup) : BepAccumulator :=
  group.inlineFiles.foldl pushFile (group.fileSets.foldl pushRoot accumulator)

def ownedNamedSet (files : List File) (fileSets : List String) : Node String Artifact where
  items := files.filterMap fileArtifact
  children := fileSets.map (boundedText · (4*1024))

def totalBytes (texts : List String) : Nat := (texts.map len).foldr (· + ·) 0

def pushNamedSet (accumulator : BepAccumulator) (id : String) (files : List File) (fileSets : List String) : BepAccumulator :=
  let set := ownedNamedSet files fileSets
  let key := boundedText id (4*1024)
  let bytes := len key + totalBytes (set.items.flatMap fun artifact => [artifact.name,artifact.uri]) +
    totalBytes set.children
  let items := min (min (1+set.items.length) usizeMax + set.children.length) usizeMax
  accumulator.retain items bytes fun reserved => {reserved with namedSets := (key,set)::reserved.namedSets}

def pushAttempt (accumulator : BepAccumulator) (label : String) (status : TestStatus) : BepAccumulator :=
  let observed (kept : BepAccumulator) : BepAccumulator :=
    {kept with testAttempts := observeAttempt label status kept.testAttempts}
  if (accumulator.testAttempts.lookup label).isSome then observed accumulator
  else accumulator.retain 1 (len label) observed

def pushTestSummary (accumulator : BepAccumulator) (label : String) (summary : TestSummary) : BepAccumulator :=
  let accumulator := match testOutcomeDiagnostic label (testStatus summary.overallStatus) with
    | some diagnostic =>
      accumulator.pushDiagnostic (len diagnostic.message + optionalBytes diagnostic.target) diagnostic
    | none => accumulator
  let test := testResult label summary
  accumulator.retain 1 (len test.label + optionalBytes test.testLogUnavailableReason) fun reserved =>
    {reserved with tests := reserved.tests ++ [test]}

def observePayload (accumulator : BepAccumulator) (id : Option EventId) : Payload → BepAccumulator
  | .aborted reason description =>
    let diagnostic := abortedDiagnostic id reason (boundedText description (64*1024))
    accumulator.pushDiagnostic (len diagnostic.message + optionalBytes diagnostic.target) diagnostic
  | .action action =>
    if action.success then accumulator
    else
      let diagnostic := actionDiagnostic id action
      let accumulator := accumulator.pushDiagnostic
        (len diagnostic.message + optionalBytes diagnostic.target + optionalBytes diagnostic.action) diagnostic
      action.primaryOutput.toList.foldl pushFile accumulator
  | .completed completed =>
    let target := targetResult id completed
    let accumulator := accumulator.retain 1 (len target.label) fun reserved =>
      {reserved with targets := reserved.targets ++ [target]}
    (completed.importantOutput ++ completed.directoryOutput).foldl pushFile
      (completed.outputGroup.foldl pushGroup accumulator)
  | .testSummary summary => accumulator.pushTestSummary (testLabel id) summary
  | .testResult status testActionOutput =>
    let accumulator := {accumulator with runBepOutcome := {accumulator.runBepOutcome with testResultSeen := true}}
    let accumulator := match labelFromId id with
      | some label => accumulator.pushAttempt label (testStatus status)
      | none => accumulator
    testActionOutput.foldl pushFile accumulator
  | .namedSetOfFiles files fileSets =>
    match id with
    | some (.namedSet name) => accumulator.pushNamedSet name files fileSets
    | _ => accumulator
  | .optionsParsed startupOptions cmdLine =>
    if accumulator.canonicalArguments.isSome then accumulator
    else
      let arguments := (startupOptions ++ cmdLine).map (boundedText · (64*1024))
      accumulator.retain arguments.length (totalBytes arguments) fun reserved =>
        {reserved with canonicalArguments := some arguments}
  | .finished overallSuccess =>
    {accumulator with runBepOutcome := {accumulator.runBepOutcome with buildSuccess := some overallSuccess}}
  | .execRequest shouldExec =>
    {accumulator with runBepOutcome := {accumulator.runBepOutcome with execRequestShouldExecute := some shouldExec}}
  | .other => accumulator

def observe (accumulator : BepAccumulator) (event : BuildEvent) : BepAccumulator :=
  let ordinal := accumulator.nextEventOrdinal
  let counted := {accumulator with nextEventOrdinal := min (ordinal+1) 0xFFFFFFFFFFFFFFFF}
  let collected := counted.observeExtensionEvent event ordinal
  match event.payload with
  | some payload => collected.observePayload event.id payload
  | none => collected

def resolveArtifacts (accumulator : BepAccumulator) : List Artifact :=
  distinctArtifacts [] (accumulator.directArtifacts ++ walk accumulator.namedSets [] accumulator.artifactRoots.reverse)

/-- The attempts without a summarized result that ended well, in label order. -/
def recoverAttempts (attempts : List (String × TestAttemptOutcome)) (tests : List TestResult) : List TestResult :=
  attempts.filterMap fun (label,outcome) =>
    if label ∈ tests.map (·.label) then none
    else outcome.successfulStatus.map fun status =>
      { label, status, durationMs := none, attempts := outcome.attempts, shard := none, cases := [],
        testLogAvailable := false, testLogUnavailableReason := none }

def finish (textDiagnostics : List UInt8 → List Diagnostic) (accumulator : BepAccumulator) (stdout stderr : List UInt8)
    (exitCode : Option Int) (elapsedMs : Nat) (budget : Budget) : StreamReductionOutput :=
  let success := decide (exitCode = some 0)
  let diagnostics := addTextDiagnostics textDiagnostics exitCode stdout stderr accumulator.diagnostics
  let targets := dedupBy (·.label) (sortBy (·.label) accumulator.targets)
  let summarized := dedupBy (·.label) (sortBy (·.label) accumulator.tests)
  let complete := success && decide (accumulator.runBepOutcome.buildSuccess = some true)
  let recovered := if complete then recoverAttempts accumulator.testAttempts summarized else []
  let tests := if complete then sortBy (·.label) (summarized ++ recovered) else summarized
  let summary := finalizeDiagnostics
    { success := success
      headline := completionHeadline exitCode elapsedMs
      targets := targets
      targetCounts := countTargets targets
      diagnostics := diagnostics
      tests := tests
      testCounts := countTests tests
      elapsedMs := elapsedMs
      truncated := accumulator.truncated
      inspectHint := if accumulator.truncated then some .diagnostics else none } budget
  { summary := summary
    artifacts := accumulator.resolveArtifacts
    canonicalArguments := accumulator.canonicalArguments
    reducerEvents := (accumulator.extension.map (·.events)).getD []
    reducerInputTruncated := (accumulator.extension.map (·.truncated)).getD false
    runBepOutcome := { accumulator.runBepOutcome with
      recoveredTestTargets := accumulator.runBepOutcome.recoveredTestTargets + recovered.length } }

end BepAccumulator
end BazelMcp.Reduction

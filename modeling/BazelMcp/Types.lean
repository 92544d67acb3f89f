import Mathlib.Data.List.Basic

/-! Invocation records and inspection values. The shapes follow the types crate;
a machine float is kept as its bit pattern, since it is only carried around. -/
namespace BazelMcp

/-- The platform's `usize`, taken to be 64 bits wide. -/
def usizeMax : Nat := 0xFFFFFFFFFFFFFFFF

inductive CommandClass where
  | buildLike
  | run
  | query
  | informational
  | unsafeCommand
  | unknown
  deriving DecidableEq

inductive BazelCommand where
  | build
  | test
  | coverage
  | query
  | cquery
  | aquery
  | info
  | version
  | help
  | mod
  | mobileInstall
  | clean
  | shutdown
  | run
  | custom (value : String)
  deriving DecidableEq

namespace BazelCommand

def commandClass : BazelCommand → CommandClass
  | .build | .test | .coverage | .mobileInstall => .buildLike
  | .run => .run
  | .query | .cquery | .aquery => .query
  | .info | .version | .help | .mod => .informational
  | .clean | .shutdown => .unsafeCommand
  | .custom _ => .unknown

def asStr : BazelCommand → String
  | .build => "build"
  | .test => "test"
  | .coverage => "coverage"
  | .query => "query"
  | .cquery => "cquery"
  | .aquery => "aquery"
  | .info => "info"
  | .version => "version"
  | .help => "help"
  | .mod => "mod"
  | .mobileInstall => "mobile-install"
  | .clean => "clean"
  | .shutdown => "shutdown"
  | .run => "run"
  | .custom value => value

end BazelCommand

abbrev InvocationId := String

inductive InvocationState where
  | queued
  | starting
  | running
  | succeeded
  | failed
  | cancelled
  | timedOut
  | interrupted
  deriving DecidableEq

namespace InvocationState

def isTerminal : InvocationState → Bool
  | .succeeded | .failed | .cancelled | .timedOut | .interrupted => true
  | .queued | .starting | .running => false

/-- The transition table of `validate_transition`: accepted or rejected. -/
def validateTransition : InvocationState → InvocationState → Bool
  | .queued, .starting | .queued, .cancelled | .queued, .interrupted => true
  | .starting, .running | .starting, .failed | .starting, .cancelled
  | .starting, .timedOut | .starting, .interrupted => true
  | .running, .succeeded | .running, .failed | .running, .cancelled
  | .running, .timedOut | .running, .interrupted => true
  | _, _ => false

theorem validateTransition_source {current next : InvocationState} (valid : validateTransition current next = true) :
    current.isTerminal = false ∧ next ≠ .queued := by
  cases current <;> cases next <;> simp_all [validateTransition,isTerminal]

end InvocationState

inductive Termination where
  | exit (code : Int)
  | signal (signal : Int)
  | timeout
  | outputLimit (maximumBytes : Nat)
  | cancelled
  | spawnFailure (message : String)
  | interrupted
  deriving DecidableEq

inductive Severity where
  | error
  | warning
  | note
  deriving DecidableEq

inductive DiagnosticCategory where
  | workspace
  | loading
  | analysis
  | visibility
  | action
  | compilation
  | test
  | bazel
  | unknown
  deriving DecidableEq

structure DiagnosticLocation where
  path : String
  line : Option Nat
  column : Option Nat
  deriving DecidableEq

structure Diagnostic where
  severity : Severity
  category : DiagnosticCategory
  message : String
  location : Option DiagnosticLocation
  target : Option String
  action : Option String
  repetitionCount : Nat
  deriving DecidableEq

structure QueryRow where
  ordinal : Nat
  value : String
  deriving DecidableEq

inductive TestStatus where
  | passed
  | failed
  | flaky
  | skipped
  | timedOut
  | incomplete
  | remote
  deriving DecidableEq

structure TestCase where
  name : String
  status : TestStatus
  durationMs : Option Nat
  message : Option String
  deriving DecidableEq

structure TestResult where
  label : String
  status : TestStatus
  durationMs : Option Nat
  attempts : Nat
  shard : Option Nat
  cases : List TestCase
  testLogAvailable : Bool
  testLogUnavailableReason : Option String
  deriving DecidableEq

inductive ArtifactKind where
  | file
  | directory
  | testLog
  | coverage
  | remote
  deriving DecidableEq

structure Artifact where
  name : String
  kind : ArtifactKind
  uri : String
  sizeBytes : Option Nat
  locallyAvailable : Bool
  deriving DecidableEq

structure CoverageFile where
  path : String
  linesFound : Nat
  linesHit : Nat
  coveragePercent : UInt64
  deriving DecidableEq

structure CoverageSummary where
  linesFound : Nat
  linesHit : Nat
  coveragePercent : UInt64
  files : List CoverageFile
  deriving DecidableEq

inductive RunOutcome where
  | buildFailed
  | notLaunched
  | succeeded
  | programFailed
  | cancelledDuringBuild
  | cancelledDuringProgram
  | timedOutDuringBuild
  | timedOutDuringProgram
  | outputLimitDuringBuild
  | outputLimitDuringProgram
  deriving DecidableEq

structure RunSummary where
  target : String
  outcome : RunOutcome
  programExitCode : Option Int
  outputExcerpt : List String
  deriving DecidableEq

inductive InspectHint where
  | diagnostics
  | tests
  | testLog
  | coverage
  | artifacts
  | queryResults
  | log
  deriving DecidableEq

structure TargetCounts where
  requested : Nat := 0
  succeeded : Nat := 0
  failed : Nat := 0
  deriving DecidableEq

structure TestCounts where
  passed : Nat := 0
  failed : Nat := 0
  flaky : Nat := 0
  skipped : Nat := 0
  incomplete : Nat := 0
  deriving DecidableEq

structure TargetResult where
  label : String
  success : Bool
  deriving DecidableEq

structure InvocationSummary where
  success : Bool := false
  headline : String := ""
  targets : List TargetResult := []
  targetCounts : TargetCounts := {}
  diagnostics : List Diagnostic := []
  tests : List TestResult := []
  testCounts : TestCounts := {}
  coverage : Option CoverageSummary := none
  querySample : List QueryRow := []
  queryResultCount : Option Nat := none
  elapsedMs : Nat := 0
  truncated : Bool := false
  inspectHint : Option InspectHint := none
  deriving DecidableEq

structure InvocationMetrics where
  rawOutputBytes : Nat := 0
  bepBytes : Nat := 0
  bepEvents : Nat := 0
  modelVisibleBytes : Nat := 0
  progressNotifications : Nat := 0
  inspectCalls : Nat := 0
  queueMs : Nat := 0
  outputBaseLockWaitMs : Nat := 0
  bazelWallMs : Nat := 0
  reductionMs : Nat := 0
  deriving DecidableEq

structure InvocationRequest where
  id : InvocationId
  workspace : String
  startupArguments : List String := []
  command : BazelCommand
  arguments : List String := []
  target : Option String := none
  programArguments : List String := []
  timeoutMs : Option Nat := none
  environment : List (String × String) := []
  requestedAtMs : Int := 0
  deriving DecidableEq

structure InvocationRecord where
  request : InvocationRequest
  state : InvocationState := .queued
  startedAtMs : Option Int := none
  finishedAtMs : Option Int := none
  termination : Option Termination := none
  summary : Option InvocationSummary := none
  run : Option RunSummary := none
  metrics : InvocationMetrics := {}
  canonicalArguments : Option (List String) := none
  cancellationReason : Option String := none
  deriving DecidableEq

inductive InspectView where
  | summary
  | metrics
  | diagnostics
  | tests
  | testLog
  | coverage
  | artifacts
  | queryResults
  | log
  | invocations
  deriving DecidableEq

namespace InspectView

/-- The views a stored invocation can be followed up with. -/
def followUp : List InspectView :=
  [.summary,.metrics,.diagnostics,.tests,.testLog,.coverage,.artifacts,.queryResults,.log]

end InspectView

structure InspectCoverageSummary where
  linesFound : Nat
  linesHit : Nat
  coveragePercent : UInt64
  deriving DecidableEq

structure InspectSummary where
  success : Bool
  headline : String
  targets : TargetCounts
  tests : TestCounts
  diagnostics : List Diagnostic
  coverage : Option InspectCoverageSummary
  queryResultCount : Option Nat
  querySample : List QueryRow
  run : Option RunSummary
  elapsedMs : Nat
  truncated : Bool
  inspectHint : Option InspectHint
  deriving DecidableEq

structure InspectMetrics where
  state : InvocationState
  requestedAtMs : Int
  startedAtMs : Option Int
  finishedAtMs : Option Int
  termination : Option Termination
  metrics : InvocationMetrics
  deriving DecidableEq

structure InspectCoverageUnavailable where
  availabilityReason : String
  artifact : Option Artifact
  deriving DecidableEq

inductive InspectCoverageItem where
  | file (file : CoverageFile)
  | unavailable (reason : InspectCoverageUnavailable)
  deriving DecidableEq

structure InvocationLedgerEntry where
  invocationId : InvocationId
  workspace : String
  state : InvocationState
  command : BazelCommand
  arguments : List String
  argumentsTruncated : Bool
  requestedAtMs : Int
  finishedAtMs : Option Int
  exitCode : Option Int
  durationMs : Nat
  headline : Option String
  targets : Option TargetCounts
  tests : Option TestCounts
  rawOutputBytes : Nat
  modelVisibleBytes : Nat
  inspectCalls : Nat
  deriving DecidableEq

inductive InspectPayload where
  | summary (items : List InspectSummary)
  | metrics (items : List InspectMetrics)
  | diagnostics (items : List Diagnostic)
  | tests (items : List TestResult)
  | testLog (items : List String)
  | coverage (items : List InspectCoverageItem)
  | artifacts (items : List Artifact)
  | queryResults (items : List QueryRow)
  | log (items : List String)
  | invocations (items : List InvocationLedgerEntry)
  deriving DecidableEq

namespace InspectPayload

def view : InspectPayload → InspectView
  | .summary _ => .summary
  | .metrics _ => .metrics
  | .diagnostics _ => .diagnostics
  | .tests _ => .tests
  | .testLog _ => .testLog
  | .coverage _ => .coverage
  | .artifacts _ => .artifacts
  | .queryResults _ => .queryResults
  | .log _ => .log
  | .invocations _ => .invocations

def len : InspectPayload → Nat
  | .summary items => items.length
  | .metrics items => items.length
  | .diagnostics items => items.length
  | .tests items => items.length
  | .testLog items => items.length
  | .coverage items => items.length
  | .artifacts items => items.length
  | .queryResults items => items.length
  | .log items => items.length
  | .invocations items => items.length

def truncate (count : Nat) : InspectPayload → InspectPayload
  | .summary items => .summary (items.take count)
  | .metrics items => .metrics (items.take count)
  | .diagnostics items => .diagnostics (items.take count)
  | .tests items => .tests (items.take count)
  | .testLog items => .testLog (items.take count)
  | .coverage items => .coverage (items.take count)
  | .artifacts items => .artifacts (items.take count)
  | .queryResults items => .queryResults (items.take count)
  | .log items => .log (items.take count)
  | .invocations items => .invocations (items.take count)

end InspectPayload

structure InspectResult where
  invocationId : Option InvocationId
  view : InspectView
  items : InspectPayload
  totalCount : Option Nat
  filteredCount : Option Nat
  nextCursor : Option String
  truncated : Bool
  startCursor : Option String
  itemCursors : List String
  deriving DecidableEq

namespace InspectResult

def new (invocationId : Option InvocationId) (items : InspectPayload) (totalCount filteredCount : Option Nat)
    (nextCursor : Option String) (truncated : Bool) (itemCursors : List String) : InspectResult :=
  { invocationId, view := items.view, items, totalCount, filteredCount, nextCursor, truncated,
    startCursor := none, itemCursors }

def withStartCursor (result : InspectResult) (startCursor : Option String) : InspectResult :=
  {result with startCursor}

def truncateItems (result : InspectResult) (len : Nat) : InspectResult :=
  if len ≥ result.items.len then result
  else
    { result with
      items := result.items.truncate len
      truncated := true
      nextCursor := match len with
        | 0 => result.startCursor
        | index+1 => result.itemCursors[index]?
      itemCursors := result.itemCursors.take len }

end InspectResult
end BazelMcp

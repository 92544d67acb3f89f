import Mathlib
import BazelMcp.Iteration
import BazelMcp.Types
import BazelMcp.Utf8

/-! Byte-budgeted result encoding. The serializers are parameters: fixed total
functions from values to text or an error. What is proved is how the shrinking
loops of `bazel.run` and `bazel.inspect` behave around them. -/
namespace BazelMcp.ResultEncoding
open Utf8 Iteration List

inductive Encoding where
  | text
  | toon
  | structured
  | both
  deriving DecidableEq

structure RunResult where
  invocationId : String
  state : InvocationState
  command : String
  exitCode : Option Int
  durationMs : Nat
  headline : String
  targets : TargetCounts
  tests : TestCounts
  diagnostics : List Diagnostic
  queryResultCount : Option Nat
  querySample : List QueryRow
  run : Option RunSummary
  truncated : Bool
  inspectHint : Option InspectHint
  availableViews : List InspectView
  moreAvailable : Bool
  rerunHint : Option String

/-- `serde_json` and the TOON encoder over an abstract JSON value. -/
structure Serializers (Value : Type) where
  runValue : RunResult → Except String Value
  inspectValue : InspectResult → Except String Value
  jsonString : Value → Except String String
  jsonVec : Value → Except String (List UInt8)
  toonString : Value → Except String String

structure CallToolResult (Value : Type) where
  content : List String := []
  structuredContent : Option Value := none
  isError : Option Bool := none

structure EncodedResult (Value : Type) where
  result : CallToolResult Value
  visibleBytes : Nat

section Encoder
variable {Value : Type} (serializers : Serializers Value)

def textResult (text : String) : EncodedResult Value :=
  ⟨{content := [text], isError := some false},byteLen text.toList⟩

def encodeValue (encoding : Encoding) (value : Value) : Except String (EncodedResult Value) :=
  match encoding with
  | .text => (serializers.jsonString value).map textResult
  | .toon =>
    match serializers.toonString value with
    | .error error => .error ("encode TOON result: " ++ error)
    | .ok text => .ok (textResult text)
  | .structured =>
    (serializers.jsonVec value).map fun bytes =>
      ⟨{structuredContent := some value, isError := some false},bytes.length⟩
  | .both => do
    let text ← serializers.jsonString value
    let structured ← serializers.jsonVec value
    return ⟨{content := [text], structuredContent := some value, isError := some false},
      min (byteLen text.toList + structured.length) usizeMax⟩

def encode {α : Type} (toValue : α → Except String Value) (encoding : Encoding) (value : α) :
    Except String (EncodedResult Value) := do
  encodeValue serializers encoding (← toValue value)

/-- One round's exit test: a serializer error, or an encoding within the limit. -/
def fitting {α : Type} (toValue : α → Except String Value) (encoding : Encoding) (limit : Nat) (value : α) :
    Option (Except String (EncodedResult Value)) :=
  match encode serializers toValue encoding value with
  | .error error => some (.error error)
  | .ok encoded => if encoded.visibleBytes ≤ limit then some (.ok encoded) else none

end Encoder

def shrinkUtf8 (value : String) (minimum : Nat) : Option String :=
  let text := value.toList
  if byteLen text ≤ minimum then none
  else
    let target := max (byteLen text * 3 / 4) minimum
    let boundary := floorBoundary text (min target (byteLen text))
    some (String.ofList (takeBytes boundary text ++ ['…']))

def shrinkSummary (summary : InspectSummary) : Option InspectSummary :=
  if summary.querySample ≠ [] then some {summary with querySample := summary.querySample.dropLast}
  else if summary.diagnostics ≠ [] then some {summary with diagnostics := summary.diagnostics.dropLast}
  else (shrinkUtf8 summary.headline 64).map fun headline => {summary with headline}

/-- Pops a case of the last test that still has one. -/
def popLastCase : List TestResult → Option (List TestResult)
  | [] => none
  | test::rest =>
    match popLastCase rest with
    | some rest => some (test::rest)
    | none => if test.cases = [] then none else some ({test with cases := test.cases.dropLast}::rest)

def dropItem (result : InspectResult) : Option InspectResult :=
  if result.items.len = 0 then none else some (result.truncateItems (result.items.len-1))

def shrinkInspect (result : InspectResult) : Option InspectResult :=
  match result.items with
  | .summary items =>
    match items.getLast? with
    | some last =>
      let summary := {last with truncated := true}
      let marked (summary : InspectSummary) : InspectResult :=
        {result with items := .summary (items.dropLast ++ [summary]), truncated := true}
      match shrinkSummary summary with
      | some summary => some (marked summary)
      | none => dropItem (marked summary)
    | none => dropItem result
  | .tests items =>
    match popLastCase items with
    | some items => some {result with items := .tests items, truncated := true}
    | none => dropItem result
  | _ => dropItem result

def rerunText : String := "rerun with --no-agent-mode for unfiltered Bazel output"

def mark (retained : Bool) (result : RunResult) : RunResult :=
  { result with
    truncated := true
    moreAvailable := retained
    rerunHint := if retained then result.rerunHint else some rerunText }

def popExcerpt (result : RunResult) : Option RunResult :=
  match result.run with
  | some run =>
    if run.outputExcerpt = [] then none
    else some {result with run := some {run with outputExcerpt := run.outputExcerpt.dropLast}}
  | none => none

def shrinkRun (retained : Bool) (result : RunResult) : Option RunResult :=
  let result := mark retained result
  match popExcerpt result with
  | some popped => some popped
  | none =>
    if result.querySample ≠ [] then some {result with querySample := result.querySample.dropLast}
    else if result.diagnostics ≠ [] then some {result with diagnostics := result.diagnostics.dropLast}
    else
      match shrinkUtf8 result.headline 96 with
      | some headline => some {result with headline}
      | none => (shrinkUtf8 result.command 32).map fun command => {result with command}

structure ExecutionResult where
  record : InvocationRecord
  toolError : Bool
  retained : Bool

def followUpAvailable (summary : InvocationSummary) : Bool :=
  summary.truncated || !summary.targets.isEmpty || !summary.tests.isEmpty || summary.inspectHint.isSome

def runResult (execution : ExecutionResult) (summary : InvocationSummary) : RunResult :=
  let record := execution.record
  { invocationId := record.request.id
    state := record.state
    command := record.request.command.asStr
    exitCode := match record.termination with
      | some (.exit code) => some code
      | _ => none
    durationMs := record.metrics.bazelWallMs
    headline := summary.headline
    targets := summary.targetCounts
    tests := summary.testCounts
    diagnostics := summary.diagnostics
    queryResultCount := summary.queryResultCount
    querySample := summary.querySample
    run := record.run
    truncated := summary.truncated
    inspectHint := if execution.retained then summary.inspectHint else none
    availableViews := if execution.retained then InspectView.followUp else []
    moreAvailable := execution.retained && followUpAvailable summary
    rerunHint := if !execution.retained && followUpAvailable summary then some rerunText else none }

def runLimit (summary : InvocationSummary) : Nat := if summary.success then 2*1024 else 8*1024

section Loops
variable {Value : Type} (serializers : Serializers Value) (encoding : Encoding)

def markToolError (toolError : Bool) (encoded : EncodedResult Value) : EncodedResult Value :=
  if toolError then {encoded with result := {encoded.result with isError := some true}} else encoded

/-- One round's exit of `build`, with the tool error flag set on the encoding. -/
def finished (execution : ExecutionResult) (limit : Nat) (result : RunResult) :
    Option (Except String (EncodedResult Value)) :=
  (fitting serializers serializers.runValue encoding limit result).map
    (Except.map (markToolError execution.toolError))

/-- The loop of `RunResultBuilder::build`, `none` when the fuel runs out. -/
def build (execution : ExecutionResult) (fuel : Nat) : Option (Except String (EncodedResult Value)) :=
  match execution.record.summary with
  | none => some (.error "completed invocation has no summary")
  | some summary =>
    Iteration.run
      (attempt (finished serializers encoding execution (runLimit summary)) (shrinkRun execution.retained)
        (.error "bounded bazel.run response could not fit its hard byte limit"))
      fuel (runResult execution summary)

/-- The loop of `ResultEncoder::encode_inspect`, `none` when the fuel runs out. -/
def encodeInspect (value : InspectResult) (limit fuel : Nat) : Option (Except String (EncodedResult Value)) :=
  Iteration.run
    (attempt (fitting serializers serializers.inspectValue encoding limit) shrinkInspect
      (.error "bounded bazel.inspect response could not fit its hard byte limit"))
    fuel value

end Loops

/-- A text settles when repeated shrinking gets it to its minimum: it is short
enough already, or the last boundary before the minimum leaves the three bytes
of the ellipsis free. -/
def Settles (value : String) (minimum : Nat) : Prop :=
  byteLen value.toList ≤ minimum ∨ floorBoundary value.toList minimum + 3 ≤ minimum

instance (value : String) (minimum : Nat) : Decidable (Settles value minimum) :=
  inferInstanceAs (Decidable (_ ∨ _))

theorem shrinkUtf8_eq_none (value : String) (minimum : Nat) :
    shrinkUtf8 value minimum = none ↔ byteLen value.toList ≤ minimum := by
  simp only [shrinkUtf8]
  split <;> simp [*]

variable {value : String} {minimum : Nat} {result : InspectResult} {retained : Bool} {summary : InspectSummary}

/-- What one shrink keeps: a prefix that ends no earlier than the minimum's own
boundary, followed by the ellipsis. -/
theorem shrinkUtf8_some {next : String} (shrunk : shrinkUtf8 value minimum = some next) :
    minimum < byteLen value.toList ∧ ∃ target, minimum ≤ target ∧ target ≤ max (byteLen value.toList * 3 / 4) minimum ∧
        next.toList = takeBytes target value.toList ++ ['…'] := by
  simp only [shrinkUtf8] at shrunk
  split at shrunk
  · simp at shrunk
  rename_i long
  have same := Option.some.inj shrunk
  refine ⟨by omega,min (max (byteLen value.toList * 3 / 4) minimum) (byteLen value.toList),by omega,by omega,?_⟩
  rw [← same,String.toList_ofList,takeBytes_floorBoundary]

theorem ellipsis_size : byteLen ['…'] = 3 := by decide

/-- The boundary at the minimum survives a shrink that cuts at or beyond it, and
becomes the length of the kept prefix when the cut falls before it. -/
theorem floorBoundary_shrunk (text : List Char) {target : Nat} (beyond : minimum ≤ target) :
    (byteLen (takeBytes target text) ≤ minimum ∧ byteLen (takeBytes target text) = floorBoundary text minimum) ∨
      (minimum < byteLen (takeBytes target text) ∧
        floorBoundary (takeBytes target text ++ ['…']) minimum = floorBoundary text minimum) := by
  by_cases short : byteLen (takeBytes target text) ≤ minimum
  · have lower := boundary_le_takeBytes (isCharBoundary_takeBytes minimum text)
      (Nat.le_trans (byteLen_takeBytes_le minimum text) beyond)
    have upper := boundary_le_takeBytes (isCharBoundary_takeBytes target text) short
    exact .inl ⟨short,by rw [floorBoundary_eq]; omega⟩
  · refine .inr ⟨by omega,?_⟩
    have inside : minimum ≤ byteLen (takeBytes target text) := by omega
    have kept := takeBytes_append_of_le _ (dropBytes target text) inside
    rw [takeBytes_append_dropBytes] at kept
    rw [floorBoundary_eq,floorBoundary_eq,takeBytes_append_of_le _ _ inside,kept]

theorem settles_back {next : String} (shrunk : shrinkUtf8 value minimum = some next) (settled : Settles next minimum) :
    Settles value minimum := by
  obtain ⟨_,target,beyond,_,kept⟩ := shrinkUtf8_some shrunk
  simp only [Settles,kept,byteLen_append,ellipsis_size] at settled
  right
  rcases floorBoundary_shrunk value.toList beyond with ⟨short,same⟩ | ⟨far,same⟩
  · have more := takeBytes_append_of_ge _ ['…'] short
    rw [floorBoundary_eq,more,byteLen_append] at settled
    omega
  · omega

theorem shrinkUtf8_settled {next : String} (wide : 12 ≤ minimum)
    (settled : Settles value minimum) (shrunk : shrinkUtf8 value minimum = some next) :
    Settles next minimum ∧ byteLen next.toList < byteLen value.toList := by
  obtain ⟨long,target,beyond,below,kept⟩ := shrinkUtf8_some shrunk
  have room : floorBoundary value.toList minimum + 3 ≤ minimum := by
    rcases settled with short | room
    · omega
    · exact room
  have cut := byteLen_takeBytes_le target value.toList
  simp only [Settles,kept,byteLen_append,ellipsis_size]
  rcases floorBoundary_shrunk value.toList beyond with ⟨short,same⟩ | ⟨far,same⟩
  · exact ⟨.inl (by omega),by omega⟩
  · exact ⟨.inr (by omega),by omega⟩

def removable (result : RunResult) : Nat :=
  (match result.run with | some run => run.outputExcerpt.length | none => 0) +
    result.querySample.length + result.diagnostics.length

theorem length_dropLast_lt {α : Type} {items : List α} (some : items ≠ []) : items.dropLast.length < items.length := by
  have positive := length_pos_iff.mpr some
  simp only [length_dropLast]
  omega

theorem popExcerpt_some {result next : RunResult} (popped : popExcerpt result = some next) :
    next.headline = result.headline ∧ next.command = result.command ∧ removable next < removable result := by
  unfold popExcerpt at popped
  cases summary : result.run with
  | none => simp [summary] at popped
  | some run =>
    by_cases empty : run.outputExcerpt = []
    · simp [summary,empty] at popped
    simp only [summary,empty,if_false,Option.some.injEq] at popped
    subst next
    refine ⟨rfl,rfl,?_⟩
    have shorter := length_dropLast_lt empty
    simp only [removable,summary]
    omega

theorem shrinkRun_some {result next : RunResult} (shrunk : shrinkRun retained result = some next) :
    (next.headline = result.headline ∧ next.command = result.command ∧ removable next < removable result) ∨
    (removable next = removable result ∧ next.command = result.command ∧ shrinkUtf8 result.headline 96 = some next.headline) ∨
    (removable next = removable result ∧ next.headline = result.headline ∧ shrinkUtf8 result.command 32 = some next.command) := by
  unfold shrinkRun at shrunk
  cases popped : popExcerpt (mark retained result) with
  | some value =>
    simp only [popped,Option.some.injEq] at shrunk
    subst value
    have lost := popExcerpt_some popped
    exact .inl lost
  | none =>
    simp only [popped] at shrunk
    split at shrunk
    · rename_i sample
      cases Option.some.inj shrunk
      have shorter := length_dropLast_lt sample
      simp only [mark] at shorter
      exact .inl ⟨rfl,rfl,by simp only [removable,mark]; omega⟩
    split at shrunk
    · rename_i diagnostics
      cases Option.some.inj shrunk
      have shorter := length_dropLast_lt diagnostics
      simp only [mark] at shorter
      exact .inl ⟨rfl,rfl,by simp only [removable,mark]; omega⟩
    · split at shrunk
      · rename_i headline shortened
        cases Option.some.inj shrunk
        exact .inr (.inl ⟨rfl,rfl,shortened⟩)
      · obtain ⟨command,shortened,same⟩ := Option.map_eq_some_iff.mp shrunk
        subst next
        exact .inr (.inr ⟨rfl,rfl,shortened⟩)

def RunSettles (result : RunResult) : Prop := Settles result.headline 96 ∧ Settles result.command 32

theorem settles_of_short (short : shrinkUtf8 value minimum = none) :
    Settles value minimum := .inl ((shrinkUtf8_eq_none value minimum).mp short)

theorem shrinkRun_none {result : RunResult} (last : shrinkRun retained result = none) : RunSettles result := by
  unfold shrinkRun at last
  cases popped : popExcerpt (mark retained result) with
  | some value => simp [popped] at last
  | none =>
    simp only [popped] at last
    split at last
    · simp at last
    split at last
    · simp at last
    split at last
    · simp at last
    · rename_i short
      exact ⟨settles_of_short short,settles_of_short (Option.map_eq_none_iff.mp last)⟩

theorem shrinkRun_settled {result next : RunResult} (settled : RunSettles result)
    (shrunk : shrinkRun retained result = some next) :
    RunSettles next ∧ removable next + byteLen next.headline.toList + byteLen next.command.toList <
      removable result + byteLen result.headline.toList + byteLen result.command.toList := by
  obtain ⟨headline,command⟩ := settled
  rcases shrinkRun_some shrunk with ⟨sameHeadline,sameCommand,fewer⟩ | ⟨same,sameCommand,shortened⟩ |
    ⟨same,sameHeadline,shortened⟩
  · rw [RunSettles,sameHeadline,sameCommand]
    exact ⟨⟨headline,command⟩,by omega⟩
  · obtain ⟨kept,shorter⟩ := shrinkUtf8_settled (by decide) headline shortened
    rw [RunSettles,same,sameCommand]
    exact ⟨⟨kept,command⟩,by omega⟩
  · obtain ⟨kept,shorter⟩ := shrinkUtf8_settled (by decide) command shortened
    rw [RunSettles,same,sameHeadline]
    exact ⟨⟨headline,kept⟩,by omega⟩

theorem shrinkRun_back {result next : RunResult} (shrunk : shrinkRun retained result = some next) (settled : RunSettles next) :
    RunSettles result := by
  rcases shrinkRun_some shrunk with ⟨sameHeadline,sameCommand,_⟩ | ⟨_,sameCommand,shortened⟩ |
    ⟨_,sameHeadline,shortened⟩
  · rwa [RunSettles,sameHeadline,sameCommand] at settled
  · exact ⟨settles_back shortened settled.1,sameCommand ▸ settled.2⟩
  · exact ⟨sameHeadline ▸ settled.1,settles_back shortened settled.2⟩

/-- The candidates of a run come to an end exactly when both texts settle. -/
theorem shrinkRun_last_iff (retained : Bool) (result : RunResult) :
    (∃ last, Smaller (shrinkRun retained) result last ∧ shrinkRun retained last = none) ↔ RunSettles result :=
  last_iff (shrinkRun retained) (fun _ _ => shrinkRun_settled) (fun _ _ => shrinkRun_back) (fun _ => shrinkRun_none) result

def InspectSettles (result : InspectResult) : Prop :=
  match result.items with
  | .summary items => ∀ summary ∈ items, Settles summary.headline 64
  | _ => True

def summarySize (summary : InspectSummary) : Nat :=
  1 + summary.querySample.length + summary.diagnostics.length + byteLen summary.headline.toList

/-- What the shrinking of an inspection page uses up. -/
def inspectSize (result : InspectResult) : Nat :=
  match result.items with
  | .summary items => (items.map summarySize).sum
  | .tests items => (items.map fun test => 1 + test.cases.length).sum
  | items => items.len

theorem shrinkSummary_some {next : InspectSummary} (shrunk : shrinkSummary summary = some next) :
    (next.headline = summary.headline ∧ summarySize next < summarySize summary) ∨
    (next.querySample = summary.querySample ∧ next.diagnostics = summary.diagnostics ∧
      shrinkUtf8 summary.headline 64 = some next.headline) := by
  unfold shrinkSummary at shrunk
  split at shrunk
  · rename_i sample
    have shorter := length_dropLast_lt sample
    cases Option.some.inj shrunk
    exact .inl ⟨rfl,by simp only [summarySize]; omega⟩
  split at shrunk
  · rename_i diagnostics
    have shorter := length_dropLast_lt diagnostics
    cases Option.some.inj shrunk
    exact .inl ⟨rfl,by simp only [summarySize]; omega⟩
  · obtain ⟨headline,shortened,same⟩ := Option.map_eq_some_iff.mp shrunk
    subst next
    exact .inr ⟨rfl,rfl,shortened⟩

theorem shrinkSummary_none (last : shrinkSummary summary = none) : Settles summary.headline 64 := by
  unfold shrinkSummary at last
  split at last
  · simp at last
  · split at last
    · simp at last
    · exact settles_of_short (Option.map_eq_none_iff.mp last)

theorem shrinkSummary_settled {next : InspectSummary} (settled : Settles summary.headline 64)
    (shrunk : shrinkSummary summary = some next) : Settles next.headline 64 ∧ summarySize next < summarySize summary := by
  rcases shrinkSummary_some shrunk with ⟨same,less⟩ | ⟨sample,diagnostics,shortened⟩
  · exact ⟨same ▸ settled,less⟩
  obtain ⟨kept,shorter⟩ := shrinkUtf8_settled (by decide) settled shortened
  refine ⟨kept,?_⟩
  simp only [summarySize,sample,diagnostics]
  omega

theorem shrinkSummary_back {next : InspectSummary} (shrunk : shrinkSummary summary = some next)
    (settled : Settles next.headline 64) : Settles summary.headline 64 := by
  rcases shrinkSummary_some shrunk with ⟨same,_⟩ | ⟨_,_,shortened⟩
  · exact same ▸ settled
  · exact settles_back shortened settled

theorem popLastCase_size {items next : List TestResult} (popped : popLastCase items = some next) :
    (next.map fun test => 1 + test.cases.length).sum < (items.map fun test => 1 + test.cases.length).sum := by
  induction items generalizing next with
  | nil => simp [popLastCase] at popped
  | cons test rest ih =>
    simp only [popLastCase] at popped
    cases later : popLastCase rest with
    | some shorter =>
      simp only [later,Option.some.injEq] at popped
      subst next
      have less := ih later
      simp only [map_cons,sum_cons]
      omega
    | none =>
      simp only [later] at popped
      split at popped
      · simp at popped
      rename_i cases
      have shorter := length_dropLast_lt cases
      cases Option.some.inj popped
      simp only [map_cons,sum_cons]
      omega

theorem dropItem_items {next : InspectResult} (dropped : dropItem result = some next) :
    0 < result.items.len ∧ next.items = result.items.truncate (result.items.len-1) := by
  unfold dropItem at dropped
  split at dropped
  · simp at dropped
  rename_i some
  have positive : 0 < result.items.len := by omega
  have fewer : ¬ result.items.len-1 ≥ result.items.len := by omega
  cases Option.some.inj dropped
  exact ⟨positive,by simp only [InspectResult.truncateItems,fewer,if_false]⟩

theorem sum_take_lt {α : Type} (size : α → Nat) (positive : ∀ item, 0 < size item) {items : List α}
    (some : 0 < items.length) : ((items.take (items.length-1)).map size).sum < (items.map size).sum := by
  rcases eq_nil_or_concat' items with rfl | ⟨front,last,rfl⟩
  · simp at some
  · have weight := positive last
    simp [weight]

theorem dropItem_decreases {next : InspectResult} (settled : InspectSettles result)
    (dropped : dropItem result = some next) : InspectSettles next ∧ inspectSize next < inspectSize result := by
  obtain ⟨some,rest⟩ := dropItem_items dropped
  cases payload : result.items with
  | summary items =>
    rw [payload] at rest some
    simp only [InspectSettles,inspectSize,rest,payload,InspectPayload.truncate,InspectPayload.len] at settled ⊢
    refine ⟨fun summary inside => settled summary (mem_of_mem_take inside),?_⟩
    exact sum_take_lt summarySize (fun summary => by simp only [summarySize]; omega) some
  | tests items =>
    rw [payload] at rest some
    simp only [InspectSettles,inspectSize,rest,payload,InspectPayload.truncate,InspectPayload.len]
    exact ⟨trivial,sum_take_lt _ (fun test => by omega) some⟩
  | metrics items | diagnostics items | testLog items | coverage items | artifacts items | queryResults items
  | log items | invocations items =>
    rw [payload] at rest some
    simp only [InspectPayload.len] at some
    simp only [InspectSettles,inspectSize,rest,payload,InspectPayload.truncate,InspectPayload.len,length_take]
    exact ⟨trivial,by omega⟩

theorem shrinkInspect_other (other : ∀ items, result.items ≠ .summary items) :
    shrinkInspect result = dropItem result ∨
      ∃ items rest, result.items = .tests items ∧ popLastCase items = some rest ∧
        shrinkInspect result = some {result with items := .tests rest, truncated := true} := by
  unfold shrinkInspect
  split
  · rename_i items payload
    exact absurd payload (other items)
  · rename_i items payload
    cases popped : popLastCase items with
    | some rest => exact .inr ⟨items,rest,payload,popped,rfl⟩
    | none => exact .inl rfl
  · exact .inl rfl

theorem shrinkInspect_summary {front : List InspectSummary} {last : InspectSummary}
    (payload : result.items = .summary (front ++ [last])) :
    ∃ marked, marked.headline = last.headline ∧ summarySize marked = summarySize last ∧
      ((∃ next, shrinkSummary marked = some next ∧
          shrinkInspect result = some {result with items := .summary (front ++ [next]), truncated := true}) ∨
        (shrinkSummary marked = none ∧ ∃ next, shrinkInspect result = some next ∧ next.items = .summary front)) := by
  refine ⟨{last with truncated := true},rfl,rfl,?_⟩
  simp only [shrinkInspect,payload,List.getLast?_concat,dropLast_concat]
  cases shrunk : shrinkSummary {last with truncated := true} with
  | some next => exact .inl ⟨next,rfl,rfl⟩
  | none =>
    have fewer : ¬ front.length+1 ≤ front.length := by omega
    refine .inr ⟨rfl,?_⟩
    simp [dropItem,InspectResult.truncateItems,InspectPayload.len,InspectPayload.truncate,fewer]

theorem shrinkInspect_settled {next : InspectResult} (settled : InspectSettles result)
    (shrunk : shrinkInspect result = some next) : InspectSettles next ∧ inspectSize next < inspectSize result := by
  by_cases summary : ∃ items, result.items = .summary items
  · obtain ⟨items,payload⟩ := summary
    rcases eq_nil_or_concat' items with rfl | ⟨front,last,rfl⟩
    · simp [shrinkInspect,payload,dropItem,InspectPayload.len] at shrunk
    simp only [InspectSettles,payload,forall_mem_append,forall_mem_singleton] at settled
    obtain ⟨before,final⟩ := settled
    obtain ⟨marked,headline,size,cases⟩ := shrinkInspect_summary payload
    rcases cases with ⟨smaller,step,same⟩ | ⟨_,rest,same,items⟩
    · cases Option.some.inj (shrunk.symm.trans same)
      obtain ⟨kept,less⟩ := shrinkSummary_settled (headline ▸ final) step
      simp only [InspectSettles,inspectSize,payload,forall_mem_append,forall_mem_singleton,
        map_append,sum_append,map_cons,map_nil,sum_cons,sum_nil]
      exact ⟨⟨before,kept⟩,by omega⟩
    · cases Option.some.inj (shrunk.symm.trans same)
      simp only [InspectSettles,inspectSize,payload,items,map_append,sum_append,map_cons,
        map_nil,sum_cons,sum_nil]
      exact ⟨before,by simp only [summarySize]; omega⟩
  · rcases shrinkInspect_other (not_exists.mp summary) with drop | ⟨items,rest,payload,popped,same⟩
    · exact dropItem_decreases settled (drop ▸ shrunk)
    · cases Option.some.inj (shrunk.symm.trans same)
      simp only [InspectSettles,inspectSize,payload]
      exact ⟨trivial,popLastCase_size popped⟩

theorem settles_other (other : ∀ items, result.items ≠ .summary items) : InspectSettles result := by
  unfold InspectSettles
  split
  · rename_i items payload
    exact absurd payload (other items)
  · trivial

theorem shrinkInspect_back {next : InspectResult} (shrunk : shrinkInspect result = some next) (settled : InspectSettles next) :
    InspectSettles result := by
  by_cases summary : ∃ items, result.items = .summary items
  · obtain ⟨items,payload⟩ := summary
    rcases eq_nil_or_concat' items with rfl | ⟨front,last,rfl⟩
    · simp [InspectSettles,payload]
    obtain ⟨marked,headline,_,cases⟩ := shrinkInspect_summary payload
    simp only [InspectSettles,payload,forall_mem_append,forall_mem_singleton]
    rcases cases with ⟨smaller,step,same⟩ | ⟨spent,rest,same,items⟩
    · cases Option.some.inj (shrunk.symm.trans same)
      simp only [InspectSettles,forall_mem_append,forall_mem_singleton] at settled
      exact ⟨settled.1,headline ▸ shrinkSummary_back step settled.2⟩
    · cases Option.some.inj (shrunk.symm.trans same)
      simp only [InspectSettles,items] at settled
      exact ⟨settled,headline ▸ shrinkSummary_none spent⟩
  · exact settles_other (not_exists.mp summary)

theorem shrinkInspect_none (last : shrinkInspect result = none) : InspectSettles result := by
  by_cases summary : ∃ items, result.items = .summary items
  · obtain ⟨items,payload⟩ := summary
    rcases eq_nil_or_concat' items with rfl | ⟨front,final,rfl⟩
    · simp [InspectSettles,payload]
    obtain ⟨marked,_,_,⟨_,_,same⟩ | ⟨_,_,same,_⟩⟩ := shrinkInspect_summary payload
    · cases last.symm.trans same
    · cases last.symm.trans same
  · exact settles_other (not_exists.mp summary)

/-- The candidates of an inspection page come to an end exactly when every
headline of a summary payload settles. -/
theorem shrinkInspect_last_iff (result : InspectResult) :
    (∃ last, Smaller shrinkInspect result last ∧ shrinkInspect last = none) ↔ InspectSettles result :=
  last_iff shrinkInspect (fun _ _ => shrinkInspect_settled) (fun _ _ => shrinkInspect_back) (fun _ => shrinkInspect_none) result

section Results
variable {Value : Type}

/-- A fuelled loop comes back, and only with encodings within the limit. -/
def ReturnsWithin (loop : Nat → Option (Except String (EncodedResult Value))) (limit : Nat) : Prop :=
  (∃ fuel result, loop fuel = some result) ∧
    ∀ fuel encoded, loop fuel = some (.ok encoded) → encoded.visibleBytes ≤ limit

variable (serializers : Serializers Value) (encoding : Encoding)

variable {encoded : EncodedResult Value} {execution : ExecutionResult}

theorem fitting_within {α : Type} {toValue : α → Except String Value} {limit : Nat} {value : α}
    (fits : fitting serializers toValue encoding limit value = some (.ok encoded)) : encoded.visibleBytes ≤ limit := by
  unfold fitting at fits
  split at fits
  · simp at fits
  split at fits
  · rename_i within
    cases Option.some.inj fits
    exact within
  · simp at fits

theorem markToolError_visibleBytes (toolError : Bool) (encoded : EncodedResult Value) :
    (markToolError toolError encoded).visibleBytes = encoded.visibleBytes := by
  unfold markToolError
  split <;> rfl

theorem finished_within {limit : Nat} {result : RunResult}
    (done : finished serializers encoding execution limit result = some (.ok encoded)) : encoded.visibleBytes ≤ limit := by
  obtain ⟨outcome,fits,same⟩ := Option.map_eq_some_iff.mp done
  cases outcome with
  | error error => simp [Except.map] at same
  | ok plain =>
    simp only [Except.map,Except.ok.injEq] at same
    rw [← same,markToolError_visibleBytes]
    exact fitting_within serializers encoding fits

theorem build_eq {summary : InvocationSummary} (present : execution.record.summary = some summary) :
    build serializers encoding execution = fun fuel =>
      run (attempt (finished serializers encoding execution (runLimit summary)) (shrinkRun execution.retained)
        (.error "bounded bazel.run response could not fit its hard byte limit")) fuel (runResult execution summary) := by
  funext fuel
  simp only [build,present]

theorem attempt_returnsWithin_iff {σ : Type} (trial : σ → Option (Except String (EncodedResult Value)))
    (smaller : σ → Option σ) (message : String) (limit : Nat)
    (within : ∀ state encoded, trial state = some (.ok encoded) → encoded.visibleBytes ≤ limit) (start : σ) :
    ReturnsWithin (fun fuel => run (attempt trial smaller (.error message)) fuel start) limit ↔
      (∃ state, Smaller smaller start state ∧ smaller state = none) ∨
        ∃ state, Smaller smaller start state ∧ (trial state).isSome = true := by
  have bounded : ∀ fuel encoded, run (attempt trial smaller (.error message)) fuel start = some (.ok encoded) →
      encoded.visibleBytes ≤ limit := by
    intro fuel encoded ran
    obtain ⟨state,_,tried | ⟨_,impossible⟩⟩ := attempt_returns _ _ _ ran
    · exact within state encoded tried
    · cases impossible
  have returns : (∃ fuel result, run (attempt trial smaller (.error message)) fuel start = some result) ↔
      Terminates (attempt trial smaller (.error message)) start := exists_comm
  rw [ReturnsWithin,and_iff_left bounded,returns,attempt_terminates_iff]
  constructor
  · rintro ⟨state,reached,tried | last⟩
    · exact .inr ⟨state,reached,tried⟩
    · exact .inl ⟨state,reached,last⟩
  · rintro (⟨state,reached,last⟩ | ⟨state,reached,tried⟩)
    · exact ⟨state,reached,.inr last⟩
    · exact ⟨state,reached,.inl tried⟩

def Ends {α : Type} (toValue : α → Except String Value) (limit : Nat) (value : α) : Prop :=
  (fitting serializers toValue encoding limit value).isSome = true

/-- Both shrinking loops return within their byte limit exactly when the texts
they shorten settle, or some candidate on the way ends the loop. -/
theorem shrinking_returns_iff : (∀ execution summary, execution.record.summary = some summary →
      (ReturnsWithin (build serializers encoding execution) (runLimit summary) ↔ RunSettles (runResult execution summary) ∨
          ∃ candidate, Smaller (shrinkRun execution.retained) (runResult execution summary) candidate ∧
            Ends serializers encoding serializers.runValue (runLimit summary) candidate)) ∧
    (∀ value limit, ReturnsWithin (encodeInspect serializers encoding value limit) limit ↔ InspectSettles value ∨
        ∃ candidate, Smaller shrinkInspect value candidate ∧
          Ends serializers encoding serializers.inspectValue limit candidate) := by
  constructor
  · intro execution summary present
    have ends : ∀ candidate, Ends serializers encoding serializers.runValue (runLimit summary) candidate ↔
        (finished serializers encoding execution (runLimit summary) candidate).isSome = true := by
      intro candidate
      rw [Ends,finished,Option.isSome_map]
    simp only [ends,← shrinkRun_last_iff execution.retained]
    rw [build_eq serializers encoding present]
    exact attempt_returnsWithin_iff _ _ _ _ (fun _ _ => finished_within serializers encoding) _
  · intro value limit
    rw [← shrinkInspect_last_iff]
    exact attempt_returnsWithin_iff _ _ _ limit (fun _ _ => fitting_within serializers encoding) value

end Results

section LongHeadline

def quoted (text : String) : String := "\"" ++ text ++ "\""

def runJson : Option RunSummary → String
  | none => "null"
  | some run => "\x7b\"target\":" ++ quoted run.target ++ "\x7d"

def smallJson : Serializers String where
  runValue result := .ok ("\x7b\"command\":" ++ quoted result.command ++ ",\"headline\":" ++ quoted result.headline ++
    ",\"run\":" ++ runJson result.run ++ "\x7d")
  inspectValue result := .ok (match result.items with
    | .summary items => "\x7b\"items\":[" ++ ",".intercalate (items.map fun summary =>
        "\x7b\"headline\":" ++ quoted summary.headline ++ ",\"run\":" ++ runJson summary.run ++ "\x7d") ++ "]\x7d"
    | _ => "\x7b\x7d")
  jsonString := .ok
  jsonVec text := .ok (text.toList.flatMap String.utf8EncodeChar)
  toonString := .ok

def longTarget : String := String.ofList (List.replicate 1100 't')

def longRun : RunSummary := ⟨longTarget,.succeeded,some 0,[]⟩

def longSummary : InvocationSummary :=
  {success := true, headline := String.ofList (List.replicate 97 'h')}

def longExecution : ExecutionResult where
  record :=
    { request := {id := "00000000-0000-7000-8000-000000000000", workspace := "/workspace", command := .run}
      state := .succeeded
      summary := some longSummary
      run := some longRun }
  toolError := false
  retained := true

theorem longRun_bytes : 1100 ≤ byteLen (runJson (some longRun)).toList := by
  have target : byteLen longTarget.toList = 1100 :=
    (congrArg byteLen String.toList_ofList).trans (byteLen_replicate (by decide) 1100)
  simp only [runJson,longRun,quoted,String.toList_append,byteLen_append,target]
  omega

theorem shrinkRun_target {retained : Bool} {result next : RunResult} (plain : result.run = some longRun)
    (shrunk : shrinkRun retained result = some next) : next.run = some longRun := by
  have empty : longRun.outputExcerpt = [] := rfl
  have spent : popExcerpt (mark retained result) = none := by simp [popExcerpt,mark,plain,empty]
  unfold shrinkRun at shrunk
  simp only [spent] at shrunk
  split at shrunk
  · cases Option.some.inj shrunk
    exact plain
  split at shrunk
  · cases Option.some.inj shrunk
    exact plain
  split at shrunk
  · cases Option.some.inj shrunk
    exact plain
  · obtain ⟨command,_,same⟩ := Option.map_eq_some_iff.mp shrunk
    subst next
    exact plain

theorem flatMap_utf8_length (text : List Char) : (text.flatMap String.utf8EncodeChar).length = byteLen text := by
  induction text with
  | nil => rfl
  | cons char rest ih => simp [byteLen,ih]

theorem run_over {result : RunResult} (plain : result.run = some longRun) :
    ¬ Ends smallJson .both smallJson.runValue 2048 result := by
  obtain ⟨text,value,long⟩ : ∃ text, smallJson.runValue result = .ok text ∧ 1100 ≤ byteLen text.toList := by
    refine ⟨_,rfl,?_⟩
    have bytes := longRun_bytes
    simp only [plain,String.toList_append,byteLen_append]
    omega
  have exceeds : ¬ min (byteLen text.toList + byteLen text.toList) usizeMax ≤ 2048 := by
    simp only [usizeMax]
    omega
  have encoded : encode smallJson smallJson.runValue .both result = .ok ⟨⟨[text],some text,some false⟩,
      min (byteLen text.toList + (text.toList.flatMap String.utf8EncodeChar).length) usizeMax⟩ := by
    simp only [encode,value]
    rfl
  simp only [Ends,fitting,encoded,flatMap_utf8_length,exceeds,if_false,Option.isSome_none,Bool.false_eq_true,not_false_eq_true]

theorem runs_over {candidate : RunResult} (reached : Smaller (shrinkRun true) (runResult longExecution longSummary) candidate) :
    candidate.run = some longRun := by
  induction reached with
  | refl => rfl
  | tail _ step ih => exact shrinkRun_target ih step

/-- With a headline of 97 bytes and a target that never fits, the loop of
`build` shrinks the headline forever. -/
theorem longHeadline_never_returns : ¬ ReturnsWithin (build smallJson .both longExecution) 2048 := by
  rintro ⟨⟨fuel,result,ran⟩,_⟩
  rw [build_eq smallJson .both (show longExecution.record.summary = some longSummary from rfl)] at ran
  obtain ⟨candidate,reached,stops⟩ := (attempt_terminates_iff _ _ _ _).mp ⟨result,fuel,ran⟩
  rcases stops with tried | last
  · rw [finished,Option.isSome_map] at tried
    exact run_over (runs_over reached) tried
  · have settled := (shrinkRun_last_iff true _).mp ⟨candidate,reached,last⟩
    exact absurd settled.1 (by decide)

def shortSummary : InvocationSummary := {longSummary with headline := "built"}

def shortExecution : ExecutionResult :=
  {longExecution with record := {longExecution.record with summary := some shortSummary}}

theorem shortHeadline_returns : ReturnsWithin (build smallJson .both shortExecution) 2048 := by
  refine ((shrinking_returns_iff smallJson .both).1 shortExecution shortSummary rfl).mpr (.inl ?_)
  exact ⟨by decide,by decide⟩

end LongHeadline
end BazelMcp.ResultEncoding

import BazelMcp.Text
import BazelMcp.Types
import BazelMcp.Utf8

/-! Failure evidence: the lines of both output streams, deduplicated with their
counts and sequenced by importance, and the pages in which they are inspected. -/
namespace BazelMcp.Evidence
open Text Utf8

def testLogFilterContextLines : Nat := 1

structure EvidenceRecord where
  label : Option (List Char) := none
  text : List Char
  deriving DecidableEq

def boundedText (value : List Char) (maximumBytes : Nat) : List Char :=
  if byteLen value ≤ maximumBytes then value else takeBytes (floorBoundary value maximumBytes) value ++ ['…']

def shouldPersistFailureEvidence (command : BazelCommand) (failed : Bool) : Bool :=
  failed || command.commandClass ≠ .query

def failureEvidencePriority (line : List Char) : Option Nat :=
  let line := trim line
  let lower := toAsciiLowercase line
  let base := match splitOnce " [repeated ".toList lower with
    | some (base,_) => base
    | none => lower
  if base = "failure:".toList || base = "failures:".toList ||
      ("test ".toList.isPrefixOf line && " ... ok".toList.isSuffixOf base) then none
  else if contains lower "root_cause".toList || contains lower "panicked at".toList ||
      (contains lower "assertion".toList && contains lower " failed".toList) then some 0
  else if contains lower "error:".toList || "error ".toList.isPrefixOf lower || contains lower "fatal:".toList ||
      contains lower "no such target".toList || contains lower "no such package".toList ||
      contains lower "undefined reference".toList || contains lower "missing strict dependencies".toList ||
      (contains lower ".go: import of \"".toList && ['"'].isSuffixOf lower) then some 1
  else if contains lower "failed:".toList || contains lower "failure".toList ||
      "test result: failed".toList.isPrefixOf lower ||
      ("test ".toList.isPrefixOf line && " ... FAILED".toList.isSuffixOf line) then some 2
  else none

def isActionableEvidence (line : List Char) : Bool := (failureEvidencePriority line).isSome

/-- Counts one more occurrence of a line. The map of positions beside the lines
of the source finds the line's own entry, since no line is entered twice. -/
def countLine (line : List Char) : List (List Char × Nat) → List (List Char × Nat)
  | [] => [(line,1)]
  | (known,count)::rest =>
    if known = line then (known,min (count+1) 0xFFFFFFFF)::rest else (known,count)::countLine line rest

def evidenceLines (text : List Char) : List (List Char) :=
  ((lines text).map trim).filterMap fun line => if line.isEmpty then none else some (boundedText line (4*1024))

def countedRecord (counted : List Char × Nat) : EvidenceRecord where
  text := if 1 < counted.2 then counted.1 ++ " [repeated ".toList ++ Nat.toDigits 10 counted.2 ++ " times]".toList else counted.1

def failureEvidenceRecords (normalizeTerminalText : List UInt8 → List Char) (command : BazelCommand) (failed : Bool)
    (stdout stderr : List UInt8) : List EvidenceRecord :=
  let testLike := command = .test || command = .coverage
  let streams := if (failed && testLike) || (!failed && !stdout.isEmpty) then [stdout,stderr] else [stderr,stdout]
  let counted := (streams.flatMap fun stream => evidenceLines (normalizeTerminalText stream)).foldl
    (fun counted line => countLine line counted) []
  let records := counted.map countedRecord
  let actionable := records.filter fun record => isActionableEvidence record.text
  let fallback := records.filter fun record => !isActionableEvidence record.text
  (actionable.take 1000 ++ fallback.drop (fallback.length-2000)).take 3000

/-! ### Pages of records -/

structure InspectRequest where
  invocationId : Option InvocationId
  view : InspectView
  cursor : Option (List Char) := none
  filter : Option (List Char) := none
  itemLimit : Nat
  scanLimit : Nat
  deriving DecidableEq

structure LogCursor where
  invocationId : InvocationId
  view : InspectView
  nextRecord : Nat
  filter : Option (List Char)
  deriving DecidableEq

inductive InspectError where
  | invalidCursor
  | invocationNotFound
  | invalidOffset
  | io
  | json
  | panicked
  deriving DecidableEq

/-- Cursors as base64 over JSON; writing one may fail, reading one may reject. -/
structure CursorCodec where
  encode : LogCursor → Option (List Char)
  decode : List Char → Option LogCursor

structure EvidencePage where
  items : List (List Char) := []
  itemCursors : List (List Char) := []
  truncated : Bool := false
  nextCursor : Option (List Char) := none
  deriving DecidableEq

namespace LogCursor

def decodeFor (codec : CursorCodec) (value : List Char) (invocationId : InvocationId) (view : InspectView)
    (filter : Option (List Char)) : Except InspectError LogCursor :=
  match codec.decode value with
  | none => .error .invalidOffset
  | some cursor =>
    if cursor.invocationId ≠ invocationId || cursor.view ≠ view || cursor.filter ≠ filter then .error .invalidOffset
    else .ok cursor

end LogCursor

def evidenceRecordMatches (record : EvidenceRecord) (filter : List Char) : Bool :=
  contains (toAsciiLowercase record.text) filter ||
    record.label.any fun label => contains (toAsciiLowercase label) filter

def testLogRecordMatchesContext (records : List EvidenceRecord) (index : Nat) (filter : List Char) : Bool :=
  let start := index-testLogFilterContextLines
  let stop := min (index+testLogFilterContextLines+1) records.length
  ((records.take stop).drop start).any fun candidate =>
    candidate.label = (records[index]?.bind EvidenceRecord.label) && evidenceRecordMatches candidate filter

def selects (request : InspectRequest) (records : List EvidenceRecord) (index : Nat) (record : EvidenceRecord) : Bool :=
  match request.filter.map toAsciiLowercase with
  | none => true
  | some filter =>
    if request.view = .testLog then testLogRecordMatchesContext records index filter
    else evidenceRecordMatches record filter

structure PageState where
  items : List (List Char) := []
  itemCursors : List (List Char) := []
  nextRecord : Nat
  scanned : Nat := 0
  truncated : Bool := false

section
variable (codec : CursorCodec) (records : List EvidenceRecord) (start : Nat) (request : InspectRequest)
  (invocationId : InvocationId)

def cursorAt (nextRecord : Nat) : Except InspectError (List Char) :=
  match codec.encode ⟨invocationId,request.view,nextRecord,request.filter⟩ with
  | none => .error .json
  | some cursor => .ok cursor

def pageLoop (maximumItems maximumScanned : Nat) : List EvidenceRecord → Nat → PageState → Except InspectError PageState
  | [], _, page => .ok page
  | record::rest, index, page =>
    if index < start then pageLoop maximumItems maximumScanned rest (index+1) page
    else if page.scanned = maximumScanned then .ok { page with truncated := true }
    else if selects request records index record && page.items.length = maximumItems then
      .ok { page with nextRecord := index, truncated := true }
    else
      let next := { page with scanned := page.scanned+1, nextRecord := index+1 }
      if selects request records index record then
        match cursorAt codec request invocationId (index+1) with
        | .error error => .error error
        | .ok cursor => pageLoop maximumItems maximumScanned rest (index+1)
            { next with items := next.items ++ [record.text], itemCursors := next.itemCursors ++ [cursor] }
      else pageLoop maximumItems maximumScanned rest (index+1) next

-- The source clamps the scan limit from below by the item limit, and a clamp to an empty range panics.
def pageEvidenceRecords : Except InspectError EvidencePage :=
  let maximumItems := max 1 (min request.itemLimit 100)
  let leastScanned := max request.itemLimit 1
  if 10000 < leastScanned then .error .panicked
  else
    match pageLoop codec records start request invocationId maximumItems (max leastScanned (min request.scanLimit 10000))
        records 0 { nextRecord := start } with
    | .error error => .error error
    | .ok page =>
      if page.truncated then
        match cursorAt codec request invocationId page.nextRecord with
        | .error error => .error error
        | .ok cursor => .ok ⟨page.items,page.itemCursors,true,some cursor⟩
      else .ok ⟨page.items,page.itemCursors,false,none⟩

variable {codec records start request invocationId}

theorem pageLoop_items {maximumItems maximumScanned index : Nat} {rest : List EvidenceRecord} {page result : PageState}
    (ok : pageLoop codec records start request invocationId maximumItems maximumScanned rest index page = .ok result)
    {item : List Char} (shown : item ∈ result.items) : item ∈ page.items ∨ ∃ record ∈ rest, record.text = item := by
  induction rest generalizing index page with
  | nil =>
    cases ok
    exact .inl shown
  | cons record rest ih =>
    have later {next : PageState} {index : Nat} (same : next.items = page.items)
        (continues : pageLoop codec records start request invocationId maximumItems maximumScanned rest index next = .ok result) :
        item ∈ page.items ∨ ∃ record' ∈ record::rest, record'.text = item := by
      rcases ih continues with old | ⟨found,inside,text⟩
      · exact .inl (same ▸ old)
      · exact .inr ⟨found,List.mem_cons_of_mem _ inside,text⟩
    simp only [pageLoop] at ok
    split at ok
    · exact later (by rfl) ok
    split at ok
    · cases ok
      exact .inl shown
    split at ok
    · cases ok
      exact .inl shown
    split at ok
    · split at ok
      · cases ok
      rcases ih ok with old | ⟨found,inside,text⟩
      · rcases List.mem_append.mp old with old | new
        · exact .inl old
        · exact .inr ⟨record,List.mem_cons_self,(List.mem_singleton.mp new).symm⟩
      · exact .inr ⟨found,List.mem_cons_of_mem _ inside,text⟩
    · exact later (by rfl) ok

theorem pageEvidenceRecords_items {page : EvidencePage}
    (ok : pageEvidenceRecords codec records start request invocationId = .ok page) {item : List Char}
    (shown : item ∈ page.items) : ∃ record ∈ records, record.text = item := by
  unfold pageEvidenceRecords at ok
  dsimp only at ok
  have source {filled : PageState} {maximumItems maximumScanned : Nat} (shown : item ∈ filled.items)
      (filling : pageLoop codec records start request invocationId maximumItems maximumScanned records 0
        { nextRecord := start } = .ok filled) : ∃ record ∈ records, record.text = item := by
    rcases pageLoop_items filling shown with none | found
    · cases none
    · exact found
  split at ok
  · cases ok
  split at ok
  · cases ok
  rename_i filled filling
  split at ok
  · split at ok
    · cases ok
    · cases ok
      exact source shown filling
  · cases ok
    exact source shown filling

end

end BazelMcp.Evidence

import BazelMcp.EvidencePaging
import BazelMcp.LedgerPaging
import BazelMcp.QueryRows
import BazelMcp.ResultEncoding

/-! Inspection of what the store keeps: the page of every view, with the cursor
of each item and of the page that follows. -/
namespace BazelMcp.Inspection
open StoreIndex Cursors Ledger LedgerPaging Evidence EvidencePaging LogInspection Paging QueryRows RecordPaging Text

structure InspectRequest where
  invocationId : Option Uuid := none
  ledger : LedgerFilter := {}
  view : InspectView
  cursor : Option (List Char) := none
  filter : Option (List Char) := none
  itemLimit : Nat := 50
  scanLimit : Nat := 1000
  deriving DecidableEq

def named (id : Uuid) : InvocationId := String.ofList id.text

/-- The part of a request that pages of evidence read. -/
def InspectRequest.evidence (request : InspectRequest) : Evidence.InspectRequest where
  invocationId := request.invocationId.map named
  view := request.view
  cursor := request.cursor
  filter := request.filter
  itemLimit := request.itemLimit
  scanLimit := request.scanLimit

-- A log cursor is base64 over JSON, taken to be read back as it was written.
structure InspectionService (Context : Type) extends InvocationService where
  form : CursorForm Context
  fromUtf8Lossy : List UInt8 → List Char
  log_cursor_read : ∀ cursor value, codecs.cursor.encode cursor = some value → codecs.cursor.decode value = some cursor

structure InvocationDetails where
  tests : List TestResult := []
  coverageFiles : List CoverageFile := []
  deriving DecidableEq

structure Directory where
  manifest : FileEntry InvocationHeader := .missing
  details : FileEntry InvocationDetails := .missing
  artifacts : FileEntry (List Artifact) := .missing
  outputs : InvocationFiles := {}
  testLogEvidence : FileEntry (List Char) := .missing

/-- What the store holds. A finished query has counted the rows of its output,
which grows no more. -/
structure Source where
  index : Index
  directory : Uuid → Directory
  counted : ∀ id entry summary count, index.lookup id = some entry → entry.record.summary = some summary →
    summary.queryResultCount = some count → (rows (captured (directory id).outputs.stdout)).length ≤ count

def readJsonOrDefault {α : Type} (default : α) : FileEntry α → Except StoreError α
  | .missing => .ok default
  | .unreadable => .error .io
  | .present value => .ok value

namespace Source
variable (source : Source) (id : Uuid)

def getInvocationHeader : Except StoreError InvocationHeader :=
  match source.index.lookup id with
  | none => .error .notFound
  | some entry => .ok entry.record

def readDetails : Except StoreError InvocationDetails :=
  match source.index.lookup id with
  | none => .error .notFound
  | some _ => readJsonOrDefault {} (source.directory id).details

-- The collections of the details do not show in what is inspected of the record, but they have to be readable.
def getInvocation : Except StoreError InvocationHeader :=
  match source.index.lookup id, (source.directory id).manifest with
  | none, _ => .error .notFound
  | some _, .present header => (source.readDetails id).map fun _ => header
  | some _, _ => .error .io

def knownTotal (filter : Option (List Char)) : Option Nat :=
  (source.index.lookup id).bind fun entry =>
    if filter.isNone && entry.record.state.isTerminal then entry.record.summary.bind InvocationSummaryHeader.queryResultCount
    else none

end Source

def diagnosticText (diagnostic : Diagnostic) : List Char :=
  diagnostic.message.toList ++ " ".toList ++ (diagnostic.target.getD "").toList

def artifactText (artifact : Artifact) : List Char := artifact.name.toList ++ " ".toList ++ artifact.uri.toList

def coverageText (file : CoverageFile) : List Char := file.path.toList

section
variable {Context : Type} [DecidableEq Context] (form : CursorForm Context) (source : Source) (id : Uuid)
  (filter : Option (List Char)) (page : PageRequest)

def pageDiagnostics : Except StoreError (Page Diagnostic) :=
  match source.getInvocationHeader id with
  | .error error => .error error
  | .ok header =>
    pageRecords form filter diagnosticText "diagnostics".toList (named id).toList page
      ((header.summary.map InvocationSummaryHeader.diagnostics).getD [])

def pageTestResults : Except StoreError (Page TestResult) :=
  match source.readDetails id with
  | .error error => .error error
  | .ok details => pageTests form (named id) filter page details.tests

def pageArtifacts : Except StoreError (Page Artifact) :=
  match source.index.lookup id with
  | none => .error .notFound
  | some _ =>
    match readJsonOrDefault [] (source.directory id).artifacts with
    | .error error => .error error
    | .ok artifacts => pageRecords form filter artifactText "artifacts".toList (named id).toList page artifacts

def pageCoverage : Except StoreError (Page CoverageFile) :=
  match source.readDetails id with
  | .error error => .error error
  | .ok details => pageRecords form filter coverageText "coverage_files".toList (named id).toList page details.coverageFiles

def pageQueryRows (readText : List UInt8 → List Char) : Except StoreError (Page QueryRow) :=
  match source.index.lookup id with
  | none => .error .notFound
  | some _ =>
    pageQueryRowsMappedInto form readText filter (source.knownTotal id filter) (named id).toList page
      (source.directory id).outputs.stdout

end

def boundedString (value : String) (maximumBytes : Nat) : String := String.ofList (boundedText value.toList maximumBytes)

def invocationLedgerRow (header : InvocationHeader) : InvocationLedgerEntry where
  invocationId := header.request.id
  workspace := boundedString header.request.workspace 256
  state := header.state
  command := header.request.command
  arguments := (header.request.arguments.take 3).map (boundedString · 128)
  argumentsTruncated := 3 < header.request.arguments.length
  requestedAtMs := header.request.requestedAtMs
  finishedAtMs := header.finishedAtMs
  exitCode := match header.termination with
    | some (.exit code) => some code
    | _ => none
  durationMs := header.metrics.bazelWallMs
  headline := header.summary.map fun summary => boundedString summary.headline 256
  targets := header.summary.map InvocationSummaryHeader.targetCounts
  tests := header.summary.map InvocationSummaryHeader.testCounts
  rawOutputBytes := header.metrics.rawOutputBytes
  modelVisibleBytes := header.metrics.modelVisibleBytes
  inspectCalls := header.metrics.inspectCalls

def inspectSummary (header : InvocationHeader) (summary : InvocationSummaryHeader) : InspectSummary where
  success := summary.success
  headline := summary.headline
  targets := summary.targetCounts
  tests := summary.testCounts
  diagnostics := summary.diagnostics
  coverage := summary.coverage.map fun coverage => ⟨coverage.linesFound,coverage.linesHit,coverage.coveragePercent⟩
  queryResultCount := summary.queryResultCount
  querySample := summary.querySample
  run := header.run
  elapsedMs := summary.elapsedMs
  truncated := summary.truncated
  inspectHint := summary.inspectHint

def inspectMetrics (header : InvocationHeader) : InspectMetrics :=
  ⟨header.state,header.request.requestedAtMs,header.startedAtMs,header.finishedAtMs,header.termination,header.metrics⟩

def ofPage {α : Type} (id : Option InvocationId) (payload : List α → InspectPayload) (page : Page α) : InspectResult :=
  .new id (payload page.items) page.totalCount page.filteredCount (page.nextCursor.map String.ofList) page.truncated
    (page.itemCursors.map String.ofList)

def ofEvidence (id : Option InvocationId) (payload : List String → InspectPayload) (page : EvidencePage) : InspectResult :=
  .new id (payload (page.items.map String.ofList)) none none (page.nextCursor.map String.ofList) page.truncated
    (page.itemCursors.map String.ofList)

/-- The artifacts of a page that are coverage kept elsewhere, with their cursors. -/
def remoteCoverage (page : Page Artifact) : List (InspectCoverageItem × List Char) :=
  (page.items.zip page.itemCursors).filterMap fun (artifact,cursor) =>
    if artifact.kind = .coverage && !artifact.locallyAvailable then
      some (.unavailable ⟨"remote_artifact_unavailable",some artifact⟩,cursor)
    else none

def coverageFallback (id : Uuid) (page : Page Artifact) : InspectResult :=
  let remote := remoteCoverage page
  let items := if remote.isEmpty then [.unavailable ⟨"coverage_artifact_not_found",none⟩] else remote.map Prod.fst
  .new (some (named id)) (.coverage items) (some items.length) (some items.length) (page.nextCursor.map String.ofList)
    page.truncated (remote.map fun (_,cursor) => String.ofList cursor)

namespace InspectionService
variable {Context : Type} [DecidableEq Context] (service : InspectionService Context) (source : Source) (request : InspectRequest)

def readText (bytes : List UInt8) : List Char := service.redactor.redactBounded (service.fromUtf8Lossy bytes) (4*1024)

def pageRequest : PageRequest := ⟨request.cursor,max 1 (min request.itemLimit 100),request.scanLimit⟩

def inspectCoverage (id : Uuid) : Except StoreError InspectResult :=
  match pageCoverage service.form source id request.filter (pageRequest request) with
  | .error error => .error error
  | .ok page =>
    if page.items.isEmpty then
      (pageArtifacts service.form source id request.filter ⟨none,request.itemLimit,request.scanLimit⟩).map (coverageFallback id)
    else .ok (ofPage (some (named id)) (fun items => .coverage (items.map .file)) page)

def inspectTestLog (id : Uuid) : Except InspectError EvidencePage :=
  match (source.directory id).testLogEvidence with
  | .missing =>
    match source.readDetails id with
    | .error error => .error (ofStore error)
    | .ok details =>
      readTestLogUnavailablePage service.form service.toInvocationService request.evidence (named id) details.tests
  | file => service.readEvidencePage file (source.directory id).outputs request.evidence

def inspectView (id : Uuid) (header : InvocationHeader) : Except InspectError InspectResult :=
  let ofStorePage {α : Type} (payload : List α → InspectPayload) (page : Except StoreError (Page α)) :=
    (page.mapError ofStore).map (ofPage (some (named id)) payload)
  match request.view with
  | .summary =>
    let count := if header.summary.isSome then 1 else 0
    .ok (.new (some (named id)) (.summary (header.summary.map (inspectSummary header)).toList) (some count) (some count) none
      (header.summary.any InvocationSummaryHeader.truncated) [])
  | .metrics => .ok (.new (some (named id)) (.metrics [inspectMetrics header]) (some 1) (some 1) none false [])
  | .diagnostics => ofStorePage .diagnostics (pageDiagnostics service.form source id request.filter (pageRequest request))
  | .tests => ofStorePage .tests (pageTestResults service.form source id request.filter (pageRequest request))
  | .artifacts => ofStorePage .artifacts (pageArtifacts service.form source id request.filter (pageRequest request))
  | .queryResults =>
    ofStorePage .queryResults (pageQueryRows service.form source id request.filter (pageRequest request) service.readText)
  | .coverage => (service.inspectCoverage source request id).mapError ofStore
  | .log =>
    (service.readEvidencePage (source.directory id).outputs.evidence (source.directory id).outputs request.evidence).map
      (ofEvidence (some (named id)) .log)
  | .testLog => (service.inspectTestLog source request id).map (ofEvidence (some (named id)) .testLog)
  | .invocations => .error .panicked

def inspect : Except InspectError InspectResult :=
  if request.view = .invocations then
    ((listInvocations service.form source.index request.ledger (pageRequest request)).mapError ofStore).map fun page =>
      (ofPage none (fun headers => .invocations (headers.map invocationLedgerRow)) page).withStartCursor
        (request.cursor.map String.ofList)
  else
    match request.invocationId with
    | none => .error .invalidCursor
    | some id =>
      match source.getInvocation id with
      | .error error => .error (ofStore error)
      | .ok header =>
        (service.inspectView source request id header).map (InspectResult.withStartCursor · (request.cursor.map String.ofList))

end InspectionService

/-! ### What a view offers -/

/-- An item as a client counts it: tests by their label and a summary as such,
since both may be shortened. -/
inductive Shown where
  | summary
  | metrics (item : InspectMetrics)
  | diagnostic (item : Diagnostic)
  | test (label : String)
  | testLog (text : String)
  | coverage (item : InspectCoverageItem)
  | artifact (item : Artifact)
  | row (item : QueryRow)
  | log (text : String)
  | invocation (item : InvocationLedgerEntry)
  deriving DecidableEq

def shown : InspectPayload → List Shown
  | .summary items => items.map fun _ => .summary
  | .metrics items => items.map .metrics
  | .diagnostics items => items.map .diagnostic
  | .tests items => items.map fun test => .test test.label
  | .testLog items => items.map .testLog
  | .coverage items => items.map .coverage
  | .artifacts items => items.map .artifact
  | .queryResults items => items.map .row
  | .log items => items.map .log
  | .invocations items => items.map .invocation

theorem shown_length (payload : InspectPayload) : (shown payload).length = payload.len := by
  cases payload <;> simp [shown,InspectPayload.len]

section
variable {Context : Type} (service : InspectionService Context) (source : Source) (request : InspectRequest)

def evidenceOffered (display : String → Shown) (file : FileEntry (List Char)) (id : Uuid) : List (Option Shown) :=
  match service.recordsFor file (source.directory id).outputs request.view with
  | .error _ => []
  | .ok records => slots (fun text => display (String.ofList text)) (evidencePick request.evidence records) records

def detailsOf (id : Uuid) : InvocationDetails :=
  match source.readDetails id with
  | .error _ => {}
  | .ok details => details

/-- The records of the view's source in their order, each with the item it shows if it matches. -/
def offeredBy (id : Uuid) : List (Option Shown) :=
  match request.view with
  | .summary =>
    match source.getInvocation id with
    | .error _ => []
    | .ok header => (header.summary.map fun _ => some Shown.summary).toList
  | .metrics =>
    match source.getInvocation id with
    | .error _ => []
    | .ok header => [some (.metrics (inspectMetrics header))]
  | .diagnostics =>
    match source.getInvocationHeader id with
    | .error _ => []
    | .ok header => slots .diagnostic (recordPick request.filter diagnosticText)
        ((header.summary.map InvocationSummaryHeader.diagnostics).getD [])
  | .tests => slots (fun test => .test test.label) (recordPick request.filter fun test => test.label.toList)
      (detailsOf source id).tests
  | .artifacts =>
    match readJsonOrDefault [] (source.directory id).artifacts with
    | .error _ => []
    | .ok artifacts => slots .artifact (recordPick request.filter artifactText) artifacts
  | .coverage => slots (fun file => .coverage (.file file)) (recordPick request.filter coverageText)
      (detailsOf source id).coverageFiles
  | .queryResults => slots .row (rowPick service.readText request.filter) (rows (captured (source.directory id).outputs.stdout))
  | .log => evidenceOffered service source request .log (source.directory id).outputs.evidence id
  | .testLog =>
    match (source.directory id).testLogEvidence with
    | .missing => slots (fun text => .testLog (String.ofList text)) (reasonPick request.evidence)
        (reasons service.toInvocationService (detailsOf source id).tests)
    | file => evidenceOffered service source request .testLog file id
  | .invocations => []

def offered : List (Option Shown) :=
  if request.view = .invocations then
    slots (fun header => .invocation (invocationLedgerRow header)) (ledgerPick source.index request.ledger)
      (ordered source.index request.ledger).keys
  else
    match request.invocationId with
    | none => []
    | some id => offeredBy service source request id

/-- The cursor of a view at a position between its records. -/
def cursorBy (id : Uuid) (position : Nat) : Option (List Char) :=
  let record (scope : String) :=
    some (recordCursor service.form (ordinalContext service.form scope.toList (named id).toList request.filter) position)
  match request.view with
  | .diagnostics => record "diagnostics"
  | .tests => record "test_results"
  | .artifacts => record "artifacts"
  | .coverage => record "coverage_files"
  | .queryResults =>
    some (rowCursor service.form (ordinalContext service.form "query_rows".toList (named id).toList request.filter)
      service.readText request.filter (captured (source.directory id).outputs.stdout) position)
  | .log | .testLog => evidenceCursor service.codecs.cursor request.evidence (named id) position
  | .summary | .metrics | .invocations => none

def cursorAtPosition (position : Nat) : Option (List Char) :=
  if request.view = .invocations then positionCursor source.index request.ledger service.form position
  else request.invocationId.bind fun id => cursorBy service source request id position

/-- The request starts at a position of the source: at its beginning, or where a cursor of the view stands. -/
inductive StartsAt : Nat → Prop
  | beginning (fresh : request.cursor = none) : StartsAt 0
  | behind {start : Nat} {value : List Char} (given : request.cursor = some value) (positive : 0 < start)
      (inside : start ≤ (offered service source request).length)
      (stands : cursorAtPosition service source request start = some value) : StartsAt start

/-- The page shows what the view offers from a position on. -/
def ServesView (start : Nat) (result : InspectResult) : Prop :=
  Serves shownSlot (offered service source request) (cursorAtPosition service source request) start (shown result.items)
    (result.itemCursors.map fun cursor => some cursor.toList) (result.nextCursor.map fun cursor => some cursor.toList)
    result.truncated

/-- The view of coverage found no file on its page and turns to the artifacts. -/
def FallsBack [DecidableEq Context] : Prop :=
  request.view = .coverage ∧ ∃ id page, request.invocationId = some id ∧
    pageCoverage service.form source id request.filter (InspectionService.pageRequest request) = .ok page ∧ page.items = []

end

/-! ### Every page serves its view -/

section
variable {Context : Type} {service : InspectionService Context} {source : Source} {request : InspectRequest} {start : Nat}

variable {α : Type} {startCursor : Option String} {result : InspectResult}

theorem mapError_ok {ε δ : Type} {outcome : Except ε α} {value : α} {change : ε → δ}
    (ok : outcome.mapError change = .ok value) : outcome = .ok value := by
  cases outcome with
  | error error => cases ok
  | ok found =>
    cases ok
    rfl

theorem StartsAt.position {text : Nat → List Char} (starts : StartsAt service source request start)
    (written : ∀ position, cursorAtPosition service source request position = some (text position)) :
    ∃ position : Option Nat, position.getD 0 = start ∧ request.cursor = position.map text ∧
      ∀ inner, position = some inner → 0 < inner ∧ inner ≤ (offered service source request).length := by
  cases starts with
  | beginning fresh => exact ⟨none,rfl,fresh,fun _ impossible => nomatch impossible⟩
  | @behind start value given positive inside stands =>
    refine ⟨some start,rfl,?_,?_⟩
    · rw [given,Option.map_some]
      exact (stands.symm.trans (written start))
    · intro inner same
      cases same
      exact ⟨positive,inside⟩

def Shows (service : InspectionService Context) (source : Source) (request : InspectRequest) (start : Nat) (items : List Shown)
    (cursors : List (List Char)) (next : Option (List Char)) (truncated : Bool) : Prop :=
  Serves shownSlot (offered service source request) (cursorAtPosition service source request) start items (cursors.map some)
    (next.map some) truncated

theorem Shows.view {items : List Shown} {cursors : List (List Char)} {next : Option (List Char)}
    (shows : Shows service source request start items cursors next result.truncated) (isItems : shown result.items = items)
    (isCursors : result.itemCursors = cursors.map String.ofList) (isNext : result.nextCursor = next.map String.ofList) :
    ServesView service source request start result := by
  simpa [ServesView,isItems,isCursors,isNext,Function.comp_def] using (show Serves _ _ _ _ _ _ _ _ from shows)

variable {id : Uuid} {page : EvidencePage}

theorem offered_eq (other : request.view ≠ .invocations) (isId : request.invocationId = some id) :
    offered service source request = offeredBy service source request id := by
  simp only [offered,if_neg other,isId]

theorem cursorAtPosition_eq (other : request.view ≠ .invocations) (isId : request.invocationId = some id)
    (position : Nat) : cursorAtPosition service source request position = cursorBy service source request id position := by
  simp only [cursorAtPosition,if_neg other,isId,Option.bind_some]

section
variable (written : ∀ position, cursorAtPosition service source request position =
    evidenceCursor service.codecs.cursor request.evidence (named id) position) (starts : StartsAt service source request start)
include written starts

theorem startRecord_eq : service.startRecord request.evidence (named id) = .ok start := by
  cases starts with
  | beginning fresh =>
    have none : request.evidence.cursor = none := fresh
    simp only [InvocationService.startRecord,none]
  | @behind start value given _ _ stands =>
    have isValue : request.evidence.cursor = some value := given
    rw [written start,evidenceCursor] at stands
    have read := service.log_cursor_read _ _ stands
    simp [InvocationService.startRecord,isValue,LogCursor.decodeFor,read]

theorem evidence_serve {display : String → Shown} {file : FileEntry (List Char)} (isId : request.invocationId = some id)
    (offers : offered service source request = evidenceOffered service source request display file id)
    (ok : service.readEvidencePage file (source.directory id).outputs request.evidence = .ok page) :
    Shows service source request start ((page.items.map String.ofList).map display) page.itemCursors page.nextCursor page.truncated := by
  have isNamed : request.evidence.invocationId = some (named id) := by simp [InspectRequest.evidence,isId]
  have text : cursorAtPosition service source request = evidenceCursor service.codecs.cursor request.evidence (named id) :=
    funext written
  simp only [InvocationService.readEvidencePage,isNamed,startRecord_eq written starts] at ok
  split at ok
  · cases ok
  rename_i records isRecords
  have isRecords : service.recordsFor file (source.directory id).outputs request.view = .ok records := isRecords
  rw [Shows,offers,evidenceOffered,isRecords,text,List.map_map]
  exact Serves.slots _ (pageEvidenceRecords_serves ok)

theorem reasons_serve [DecidableEq Context] {tests : List TestResult}
    (offers : offered service source request = slots (fun text => .testLog (String.ofList text)) (reasonPick request.evidence)
      (reasons service.toInvocationService tests))
    (ok : readTestLogUnavailablePage service.form service.toInvocationService request.evidence (named id) tests = .ok page) :
    Shows service source request start ((page.items.map String.ofList).map .testLog) page.itemCursors page.nextCursor page.truncated := by
  have text : cursorAtPosition service source request = evidenceCursor service.codecs.cursor request.evidence (named id) :=
    funext written
  rw [Shows,offers,text,List.map_map]
  exact Serves.slots _ (readTestLogUnavailablePage_serves (startRecord_eq written starts) ok)

end

variable [DecidableEq Context]

theorem inspect_ok (other : request.view ≠ .invocations) (ok : service.inspect source request = .ok result) :
    ∃ id header inner, request.invocationId = some id ∧ source.getInvocation id = .ok header ∧
      service.inspectView source request id header = .ok inner ∧
      result = inner.withStartCursor (request.cursor.map String.ofList) := by
  simp only [InspectionService.inspect,other,if_false] at ok
  cases isId : request.invocationId with
  | none =>
    rw [isId] at ok
    cases ok
  | some id =>
    rw [isId] at ok
    dsimp only at ok
    split at ok
    · cases ok
    · rename_i header isHeader
      obtain ⟨inner,isInner,same⟩ := map_ok ok
      exact ⟨id,header,inner,rfl,isHeader,isInner,same.symm⟩

theorem records_serve {searchable : α → List Char} {scope : String} {display : α → Shown} {records : List α} {page : Page α}
    (offers : offered service source request = slots display (recordPick request.filter searchable) records)
    (written : ∀ position, cursorAtPosition service source request position =
      some (recordCursor service.form (ordinalContext service.form scope.toList (named id).toList request.filter) position))
    (starts : StartsAt service source request start)
    (ok : pageRecords service.form request.filter searchable scope.toList (named id).toList
      (InspectionService.pageRequest request) records = .ok page) :
    Shows service source request start (page.items.map display) page.itemCursors page.nextCursor page.truncated := by
  obtain ⟨position,rfl,cursor,_⟩ := starts.position written
  have text : cursorAtPosition service source request = fun position =>
      some (recordCursor service.form (ordinalContext service.form scope.toList (named id).toList request.filter) position) :=
    funext written
  rw [Shows,text,offers]
  have cursor : (InspectionService.pageRequest request).cursor = position.map
      (recordCursor service.form (ordinalContext service.form scope.toList (named id).toList request.filter)) := cursor
  exact ((pageRecords_serves cursor ok).recode some).slots display

theorem rows_serve {page : Page QueryRow}
    (offers : offered service source request = slots .row (rowPick service.readText request.filter)
      (rows (captured (source.directory id).outputs.stdout)))
    (written : ∀ position, cursorAtPosition service source request position =
      some (rowCursor service.form (ordinalContext service.form "query_rows".toList (named id).toList request.filter)
        service.readText request.filter (captured (source.directory id).outputs.stdout) position))
    (starts : StartsAt service source request start)
    (ok : pageQueryRows service.form source id request.filter (InspectionService.pageRequest request) service.readText = .ok page) :
    Shows service source request start (page.items.map .row) page.itemCursors page.nextCursor page.truncated := by
  obtain ⟨position,rfl,cursor,placed⟩ := starts.position written
  have placed : Placed (captured (source.directory id).outputs.stdout) position := by
    intro inner same
    obtain ⟨positive,inside⟩ := placed inner same
    rw [offers,slots_length] at inside
    exact ⟨positive,inside⟩
  simp only [pageQueryRows] at ok
  split at ok
  · cases ok
  rename_i entry present
  have counted : ∀ known, source.knownTotal id request.filter = some known →
      (rows (captured (source.directory id).outputs.stdout)).length ≤ known := by
    intro known isKnown
    simp only [Source.knownTotal,present,Option.bind_some] at isKnown
    split at isKnown
    · obtain ⟨summary,isSummary,isCount⟩ := Option.bind_eq_some_iff.mp isKnown
      exact source.counted id entry summary known present isSummary isCount
    · cases isKnown
  rw [Shows,funext written,offers]
  exact ((pageQueryRowsMappedInto_serves counted placed cursor ok).recode some).slots _

theorem ledger_serves (isLedger : request.view = .invocations)
    (starts : StartsAt service source request start) (ok : service.inspect source request = .ok result) :
    ServesView service source request start result := by
  simp only [InspectionService.inspect,isLedger,if_true] at ok
  obtain ⟨page,isPage,rfl⟩ := map_ok ok
  have text : cursorAtPosition service source request = positionCursor source.index request.ledger service.form := by
    funext position
    simp only [cursorAtPosition,isLedger,if_true]
  have offers : offered service source request = slots (fun header => Shown.invocation (invocationLedgerRow header))
      (ledgerPick source.index request.ledger) (ordered source.index request.ledger).keys := by
    simp only [offered,isLedger,if_true]
  have placed : start ≤ (ordered source.index request.ledger).keys.length ∧
      request.cursor = positionCursor source.index request.ledger service.form start := by
    cases starts with
    | beginning fresh => exact ⟨Nat.zero_le _,fresh⟩
    | behind given _ inside stands =>
      rw [offers,slots_length] at inside
      rw [text] at stands
      exact ⟨inside,given.trans stands.symm⟩
  have serves := Serves.slots (fun header => Shown.invocation (invocationLedgerRow header))
    (listInvocations_serves placed.1 placed.2 (mapError_ok isPage))
  rw [← offers,← text] at serves
  exact Shows.view serves List.map_map rfl rfl

/-- Every page of the paged views shows what the view offers from its start on,
unless the view of coverage falls back to the artifacts. -/
theorem inspect_serves (paged : request.view ≠ .summary ∧ request.view ≠ .metrics)
    (files : ¬ FallsBack service source request) (starts : StartsAt service source request start)
    (ok : service.inspect source request = .ok result) : ServesView service source request start result := by
  by_cases isLedger : request.view = .invocations
  · exact ledger_serves isLedger starts ok
  obtain ⟨id,header,inner,isId,_,isInner,same⟩ := inspect_ok isLedger ok
  subst same
  have offers : offered service source request = offeredBy service source request id := offered_eq isLedger isId
  have written : ∀ position, cursorAtPosition service source request position = cursorBy service source request id position :=
    cursorAtPosition_eq isLedger isId
  unfold InspectionService.inspectView at isInner
  unfold offeredBy at offers
  unfold cursorBy at written
  generalize isView : request.view = view at isInner offers written
  cases view with
  | summary => exact absurd isView paged.1
  | metrics => exact absurd isView paged.2
  | invocations => exact absurd isView isLedger
  | diagnostics | tests =>
    obtain ⟨page,isPage,rfl⟩ := map_ok isInner
    have isPage := mapError_ok isPage
    simp only [pageDiagnostics,pageTestResults] at isPage
    split at isPage
    · cases isPage
    rename_i read isRead
    simp only [detailsOf,isRead] at offers
    exact Shows.view (records_serve offers written starts isPage) rfl rfl rfl
  | artifacts =>
    obtain ⟨page,isPage,rfl⟩ := map_ok isInner
    have isPage := mapError_ok isPage
    simp only [pageArtifacts] at isPage
    split at isPage
    · cases isPage
    split at isPage
    · cases isPage
    rename_i artifacts isArtifacts
    rw [isArtifacts] at offers
    exact Shows.view (records_serve offers written starts isPage) rfl rfl rfl
  | queryResults =>
    obtain ⟨page,isPage,rfl⟩ := map_ok isInner
    exact Shows.view (rows_serve offers written starts (mapError_ok isPage)) rfl rfl rfl
  | coverage =>
    have isInner := mapError_ok isInner
    simp only [InspectionService.inspectCoverage] at isInner
    split at isInner
    · cases isInner
    rename_i page isPage
    split at isInner
    · rename_i empty
      exact absurd ⟨isView,id,page,isId,isPage,List.isEmpty_iff.mp empty⟩ files
    cases isInner
    simp only [pageCoverage] at isPage
    split at isPage
    · cases isPage
    rename_i details isDetails
    rw [detailsOf,isDetails] at offers
    exact (records_serve offers written starts isPage).view List.map_map rfl rfl
  | log =>
    obtain ⟨page,isPage,rfl⟩ := map_ok isInner
    exact Shows.view (evidence_serve written starts isId offers isPage) rfl rfl rfl
  | testLog =>
    obtain ⟨page,isPage,rfl⟩ := map_ok isInner
    dsimp only at offers
    simp only [InspectionService.inspectTestLog] at isPage
    split at isPage
    · rename_i unkept
      rw [unkept] at offers
      split at isPage
      · cases isPage
      rename_i details isDetails
      rw [detailsOf,isDetails] at offers
      exact Shows.view (reasons_serve written starts offers isPage) rfl rfl rfl
    · rename_i kept
      refine Shows.view (evidence_serve written starts isId (offers.trans ?_) isPage) rfl rfl rfl
      split
      · rename_i unkept
        exact absurd unkept kept
      · rfl

end
end BazelMcp.Inspection

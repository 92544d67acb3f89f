import BazelMcp.Inspection

/-! Inspection as a client sees it: the page of a view, packed into a byte limit
by dropping items from its end, and the chain of requests that always go on from
the cursor of the response before. -/
namespace BazelMcp.InspectionPaging
open Cursors Inspection Iteration Paging RecordPaging ResultEncoding StoreIndex InspectionService List InspectResult
open Evidence (EvidencePage InspectError LogCursor)
open EvidencePaging (WellWritten evidenceCursor ofStore)
open Ledger (ledgerContext ledgerCursor listInvocations)
open LedgerPaging (listInvocations_cursors positionCursor_injective)
open LogInspection (FileEntry InvocationFiles InvocationService)
open QueryRows (fileCursor pageQueryRowsMappedInto_cursors)

/-! ### Packing -/

section
variable {Value : Type} (serializers : Serializers Value) (encoding : Encoding)

/-- The candidate whose encoding `encodeInspect` returns, `none` when the fuel runs out. -/
def packInspect (value : InspectResult) (limit fuel : Nat) : Option (Except String InspectResult) :=
  Iteration.run
    (attempt (fun candidate => (fitting serializers serializers.inspectValue encoding limit candidate).map
      fun outcome => outcome.map fun _ => candidate) shrinkInspect
      (.error "bounded bazel.inspect response could not fit its hard byte limit"))
    fuel value

theorem packInspect_encodes (value : InspectResult) (limit fuel : Nat) (encoded : EncodedResult Value) :
    encodeInspect serializers encoding value limit fuel = some (.ok encoded) ↔
      ∃ response, packInspect serializers encoding value limit fuel = some (.ok response) ∧
        fitting serializers serializers.inspectValue encoding limit response = some (.ok encoded) := by
  induction fuel generalizing value with
  | zero => simp [encodeInspect,packInspect,Iteration.run]
  | succ fuel ih =>
    cases tried : fitting serializers serializers.inspectValue encoding limit value with
    | none =>
      cases shrunk : shrinkInspect value with
      | none => simp [encodeInspect,packInspect,Iteration.run,attempt,tried,shrunk]
      | some next =>
        have again := ih next
        simpa [encodeInspect,packInspect,Iteration.run,attempt,tried,shrunk] using again
    | some outcome =>
      cases outcome with
      | error message | ok found => simp [encodeInspect,packInspect,Iteration.run,attempt,tried,Except.map]

theorem packInspect_smaller {value response : InspectResult} {limit fuel : Nat}
    (packed : packInspect serializers encoding value limit fuel = some (.ok response)) : Smaller shrinkInspect value response := by
  obtain ⟨state,reached,tried | ⟨_,impossible⟩⟩ := attempt_returns _ _ _ packed
  · obtain ⟨outcome,_,same⟩ := Option.map_eq_some_iff.mp tried
    cases outcome with
    | error message => cases same
    | ok found =>
      cases same
      exact reached
  · cases impossible

end

variable (payload : InspectPayload)

theorem shown_truncate (count : Nat) : shown (payload.truncate count) = (shown payload).take count := by
  cases payload <;> simp [shown,InspectPayload.truncate,map_take]

theorem len_truncate (count : Nat) : (payload.truncate count).len = min count payload.len := by
  rw [← shown_length,shown_truncate,length_take,shown_length]

theorem popLastCase_labels {items next : List TestResult} (popped : popLastCase items = some next) :
    next.map (fun test => Shown.test test.label) = items.map fun test => Shown.test test.label := by
  induction items generalizing next with
  | nil => cases popped
  | cons test rest ih =>
    simp only [popLastCase] at popped
    cases later : popLastCase rest with
    | some shorter =>
      simp only [later,Option.some.injEq] at popped
      subst popped
      simp [ih later]
    | none =>
      simp only [later] at popped
      split at popped
      · cases popped
      · cases popped
        rfl

/-- The same page with the items shortened. -/
def Shortened (result next : InspectResult) : Prop :=
  shown next.items = shown result.items ∧ next = {result with items := next.items, truncated := next.truncated} ∧
    (result.truncated = true → next.truncated = true)

theorem shrinkInspect_cases {result next : InspectResult} (shrunk : shrinkInspect result = some next) :
    (Shortened result next ∧ next.truncated = true) ∨
      ∃ marked, Shortened result marked ∧ 0 < marked.items.len ∧ next = marked.truncateItems (marked.items.len-1) := by
  have dropped {marked : InspectResult} (same : Shortened result marked) (dropped : dropItem marked = some next) :
      ∃ marked, Shortened result marked ∧ 0 < marked.items.len ∧ next = marked.truncateItems (marked.items.len-1) := by
    unfold dropItem at dropped
    split at dropped
    · cases dropped
    · cases dropped
      exact ⟨marked,same,by omega,rfl⟩
  have itself : Shortened result result := ⟨rfl,rfl,fun truncated => truncated⟩
  unfold shrinkInspect at shrunk
  split at shrunk
  · rename_i items payload
    split at shrunk
    · rename_i last isLast
      have long : items ≠ [] := by
        intro empty
        rw [empty] at isLast
        cases isLast
      have kept (summary : InspectSummary) : shown (.summary (items.dropLast ++ [summary])) = shown result.items := by
        have length : items.length-1+1 = items.length := Nat.sub_add_cancel (length_pos_iff.mpr long)
        rw [payload]
        simp only [shown,map_append,map_const',length_dropLast,length_singleton,replicate_append_replicate,
          length]
      dsimp only at shrunk
      split at shrunk
      · rename_i summary isSummary
        cases shrunk
        exact .inl ⟨⟨kept summary,rfl,fun _ => rfl⟩,rfl⟩
      · exact .inr (dropped ⟨kept _,rfl,fun _ => rfl⟩ shrunk)
    · exact .inr (dropped itself shrunk)
  · rename_i items payload
    split at shrunk
    · rename_i rest popped
      cases shrunk
      refine .inl ⟨⟨?_,rfl,fun _ => rfl⟩,rfl⟩
      rw [payload]
      exact popLastCase_labels popped
    · exact .inr (dropped itself shrunk)
  · exact .inr (dropped itself shrunk)

/-- A page of which the first items are kept: all of them, with the page's own
next cursor, or fewer, with the cursor of the last one kept. -/
structure Packed (page response : InspectResult) : Prop where
  items : shown response.items = (shown page.items).take response.items.len
  fewer : response.items.len ≤ page.items.len
  start : response.startCursor = page.startCursor
  cursors : response.itemCursors =
    if response.items.len < page.items.len then page.itemCursors.take response.items.len else page.itemCursors
  next : response.nextCursor = if response.items.len < page.items.len then
      match response.items.len with
      | 0 => page.startCursor
      | last+1 => page.itemCursors[last]?
    else page.nextCursor
  truncated : page.truncated = true ∨ response.items.len < page.items.len → response.truncated = true

namespace Packed

theorem refl (page : InspectResult) : Packed page page where
  items := by rw [← shown_length,take_length]
  fewer := Nat.le_refl _
  start := rfl
  cursors := by rw [if_neg (Nat.lt_irrefl _)]
  next := by rw [if_neg (Nat.lt_irrefl _)]
  truncated given := given.resolve_right (Nat.lt_irrefl _)

variable {response : InspectResult}

theorem shortened {page next : InspectResult} (packed : Packed page response) (short : Shortened response next) :
    Packed page next := by
  obtain ⟨items,same,kept⟩ := short
  have len : next.items.len = response.items.len := by rw [← shown_length,items,shown_length]
  have start : next.startCursor = response.startCursor := by rw [same]
  have cursors : next.itemCursors = response.itemCursors := by rw [same]
  have nextCursor : next.nextCursor = response.nextCursor := by rw [same]
  constructor
  · rw [items,len,packed.items]
  · rw [len]
    exact packed.fewer
  · rw [start,packed.start]
  · rw [cursors,len,packed.cursors]
  · rw [nextCursor,len,packed.next]
  · rw [len]
    exact fun given => kept (packed.truncated given)

theorem dropped {page : InspectResult} (packed : Packed page response) (some_ : 0 < response.items.len) :
    Packed page (response.truncateItems (response.items.len-1)) := by
  have less : response.items.len-1 < page.items.len := by
    have := packed.fewer
    omega
  have cut : response.truncateItems (response.items.len-1) = {response with
      items := response.items.truncate (response.items.len-1)
      itemCursors := response.itemCursors.take (response.items.len-1)
      nextCursor := match response.items.len-1 with
        | 0 => response.startCursor
        | last+1 => response.itemCursors[last]?
      truncated := true} := if_neg (by omega)
  have len : (response.items.truncate (response.items.len-1)).len = response.items.len-1 := by
    rw [len_truncate]
    omega
  rw [cut]
  constructor
  · simp only [len,shown_truncate]
    rw [packed.items,take_take]
    congr 1
    omega
  · simp only [len]
    omega
  · exact packed.start
  · simp only [len,if_pos less]
    rw [packed.cursors]
    split
    · rw [take_take]
      congr 1
      omega
    · rfl
  · simp only [len,if_pos less]
    cases isLast : response.items.len-1 with
    | zero => exact packed.start
    | succ last =>
      change response.itemCursors[last]? = page.itemCursors[last]?
      rw [packed.cursors]
      split
      · rw [List.getElem?_take_of_lt (by omega)]
      · rfl
  · exact fun _ => rfl

end Packed

/-- By induction on the candidates: every one of them keeps the first items of the page. -/
theorem packed_of_smaller {page response : InspectResult} (reached : Smaller shrinkInspect page response) : Packed page response := by
  induction reached with
  | refl => exact Packed.refl page
  | tail _ step ih =>
    rcases shrinkInspect_cases step with ⟨short,_⟩ | ⟨marked,short,some_,same⟩
    · exact ih.shortened short
    · rw [same]
      exact (ih.shortened short).dropped some_

/-! ### Sessions -/

def resumed (request : InspectRequest) (cursor : Option (List Char)) (itemLimit scanLimit : Nat) : InspectRequest :=
  {request with cursor, itemLimit, scanLimit}

section
variable {Context : Type} {service : InspectionService Context} {source : Source} {request : InspectRequest} {start : Nat}

def matching (service : InspectionService Context) (source : Source) (request : InspectRequest) : List Shown :=
  (offered service source request).filterMap id

theorem matching_eq : matching service source request = pickedFrom shownSlot (offered service source request) 0 := by
  rw [matching,pickedFrom,picked_shownSlot,take_length,drop_zero]

theorem offered_files {item : Shown} (isView : request.view = .coverage) (member : item ∈ matching service source request) :
    ∃ file, item = .coverage (.file file) := by
  unfold matching offered at member
  rw [if_neg (by rw [isView]; decide)] at member
  cases isId : request.invocationId with
  | none =>
    rw [isId] at member
    cases member
  | some id =>
    rw [isId] at member
    simp only [offeredBy,isView,slots,filterMap_map] at member
    obtain ⟨entry,_,isItem⟩ := mem_filterMap.mp member
    obtain ⟨file,_,same⟩ := Option.map_eq_some_iff.mp isItem
    exact ⟨file,same.symm⟩

/-- The response shows what the view offers up to where its next cursor stands. -/
def ServesClient (service : InspectionService Context) (source : Source) (request : InspectRequest) (start : Nat)
    (response : InspectResult) : Prop :=
  Serves shownSlot (offered service source request) (cursorAtPosition service source request) start (shown response.items)
    (response.itemCursors.map fun cursor => some cursor.toList) (response.nextCursor.map fun cursor => some cursor.toList)
    response.nextCursor.isSome

variable {response : InspectResult}

theorem packed_serves {page : InspectResult} (serves : ServesView service source request start page)
    (packed : Packed page response) (keeps : page.items.len ≠ 0 → response.items.len ≠ 0) :
    ServesClient service source request start response := by
  unfold ServesClient
  rw [packed.items,packed.cursors,packed.next]
  by_cases less : response.items.len < page.items.len
  · obtain ⟨count,same⟩ : ∃ count, response.items.len = count+1 := ⟨response.items.len-1,by have := keeps; omega⟩
    have fewer : count < (shown page.items).length := by
      rw [shown_length]
      omega
    have shorter := serves.shorten fewer
    rw [if_pos less,if_pos less,same]
    have aligned := serves.aligned
    have inside : count < page.itemCursors.length := by
      simp only [length_map] at aligned
      omega
    rw [List.getElem?_map,List.getElem?_eq_getElem inside,← map_take] at shorter
    simp only [List.getElem?_eq_getElem inside]
    exact shorter
  · have all : response.items.len = page.items.len := by
      have := packed.fewer
      omega
    rw [if_neg less,if_neg less,all,← shown_length,take_length]
    have truncated := serves.truncated_eq
    rw [Option.isSome_map] at truncated
    rw [← truncated]
    exact serves

theorem startsAt_stands {asked : InspectRequest} {cursor : Option (List Char)} {itemLimit scanLimit : Nat}
    (isRequest : asked = resumed request cursor itemLimit scanLimit) {position : Option Nat}
    (stands : Stands (offered service source request) position)
    (asks : asked.cursor.map some = position.map (cursorAtPosition service source request)) :
    StartsAt service source asked (position.getD 0) := by
  subst isRequest
  cases position with
  | none => exact .beginning (by simpa using asks)
  | some position =>
    obtain ⟨value,given,stood⟩ := Option.map_eq_some_iff.mp asks
    obtain ⟨positive,inside⟩ := stands position rfl
    exact .behind given positive inside stood.symm

theorem startsAt_limits {cursor : Option (List Char)} {itemLimit scanLimit : Nat}
    (starts : StartsAt service source (resumed request cursor itemLimit scanLimit) start) (items scans : Nat) :
    StartsAt service source (resumed request cursor items scans) start := by
  cases starts with
  | beginning fresh => exact .beginning fresh
  | behind given positive inside stands => exact .behind given positive inside stands

theorem ServesClient.next {next : String} (serves : ServesClient service source request start response)
    (isNext : response.nextCursor = some next) (itemLimit scanLimit : Nat) :
    ∃ stop, start < stop ∧ StartsAt service source (resumed request (some next.toList) itemLimit scanLimit) stop ∧
      ∃ stops, IsPage shownSlot (offered service source request) start (shown response.items) stops (some stop) := by
  obtain ⟨stops,stop,page,_,written,_⟩ := serves
  rw [isNext,Option.map_some] at written
  obtain ⟨stop,rfl,stands⟩ := Option.map_eq_some_iff.mp written.symm
  obtain ⟨after,inside,_⟩ := page.resumes stop rfl
  exact ⟨stop,after,.behind rfl (by omega) inside stands,stops,page⟩

theorem cursorAtPosition_injective {first second : Nat} {value : List Char} (before : first < second)
    (one : cursorAtPosition service source request first = some value)
    (two : cursorAtPosition service source request second = some value) : False := by
  by_cases isLedger : request.view = .invocations
  · simp only [cursorAtPosition,isLedger,if_true] at one two
    exact positionCursor_injective before one two
  cases isId : request.invocationId with
  | none =>
    simp only [cursorAtPosition,if_neg isLedger,isId] at one
    cases one
  | some id =>
    simp only [cursorAtPosition,if_neg isLedger,isId,Option.bind_some,cursorBy] at one two
    have same := one.trans two.symm
    cases isView : request.view with
    | invocations => exact absurd isView isLedger
    | summary | metrics =>
      rw [isView] at one
      cases one
    | diagnostics | tests | artifacts | coverage =>
      rw [isView] at same
      have equal := encode_injective (Option.some.inj same)
      injection equal with _ ordinal
      omega
    | queryResults =>
      rw [isView] at same
      have equal := encode_injective (Option.some.inj same)
      injection equal with _ _ _ total
      exact absurd total (Nat.ne_of_lt before)
    | log | testLog =>
      rw [isView] at one two
      have equal := (service.log_cursor_read _ _ one).symm.trans (service.log_cursor_read _ _ two)
      injection equal with equal
      injection equal with _ _ next
      exact absurd next (Nat.ne_of_lt before)

/-- The views of one record take no cursor and always start at their beginning. -/
def Begins (service : InspectionService Context) (source : Source) (request : InspectRequest) (start : Nat) : Prop :=
  StartsAt service source request start ∨ (request.view = .summary ∨ request.view = .metrics) ∧ start = 0

/-- Matching items from the start on are not all in the response. -/
def Unread (service : InspectionService Context) (source : Source) (request : InspectRequest) (start : Nat)
    (response : InspectResult) : Prop :=
  ¬ ((offered service source request).drop start).filterMap id <+: shown response.items

/-- The next cursor is present and stands behind the start. -/
def Progresses (service : InspectionService Context) (source : Source) (request : InspectRequest) (start : Nat)
    (response : InspectResult) : Prop :=
  ∃ next stop, response.nextCursor = some next ∧ start < stop ∧ stop ≤ (offered service source request).length ∧
    cursorAtPosition service source request stop = some next.toList

theorem scopes_differ (form : CursorForm Context) (id : List Char) (filter : Option (List Char)) :
    ordinalContext form "artifacts".toList id filter ≠ ordinalContext form "coverage_files".toList id filter := by
  intro same
  have parts := form.context_injective same
  injection parts with scope
  exact absurd scope (by decide)

theorem single_cursors (single : request.view = .summary ∨ request.view = .metrics) (position : Nat) :
    cursorAtPosition service source request position = none := by
  have other : request.view ≠ .invocations := by
    rcases single with isView | isView <;> rw [isView] <;> decide
  cases isId : request.invocationId with
  | none => simp only [cursorAtPosition,if_neg other,isId,Option.bind_none]
  | some id =>
    rw [cursorAtPosition_eq other isId]
    rcases single with isView | isView <;> simp only [cursorBy,isView]

theorem Begins.start_of_single (begins : Begins service source request start)
    (single : request.view = .summary ∨ request.view = .metrics) : start = 0 := by
  rcases begins with starts | ⟨_,zero⟩
  · cases starts with
    | beginning _ => rfl
    | behind _ _ _ stands =>
      rw [single_cursors single] at stands
      cases stands
  · exact zero

theorem ServesClient.read (serves : ServesClient service source request start response)
    (last : response.nextCursor = none) : ¬ Unread service source request start response := by
  unfold ServesClient at serves
  rw [last] at serves
  have all := serves.ended
  rw [pickedFrom,picked_shownSlot,take_length] at all
  intro unread
  exact unread (all ▸ prefix_refl _)

end

/-- A request with the page made for it and the response the client gets. -/
structure Exchange where
  request : InspectRequest
  byteLimit : Nat
  page : InspectResult
  response : InspectResult

section
variable {Context Value : Type} [DecidableEq Context] (service : InspectionService Context) (serializers : Serializers Value)
  (encoding : Encoding) (source : Source)

structure Answers (exchange : Exchange) : Prop where
  inspected : service.inspect source exchange.request = .ok exchange.page
  packed : ∃ fuel, packInspect serializers encoding exchange.page exchange.byteLimit fuel = some (.ok exchange.response)

/-- Requests for one view and filter that go on from each response's next cursor,
with limits of their own. -/
inductive Session (request : InspectRequest) : Option (List Char) → List Exchange → Prop
  | last {cursor : Option (List Char)} {itemLimit scanLimit : Nat} {exchange : Exchange}
      (asks : exchange.request = resumed request cursor itemLimit scanLimit)
      (answers : Answers service serializers encoding source exchange) : Session request cursor [exchange]
  | more {cursor : Option (List Char)} {itemLimit scanLimit : Nat} {exchange : Exchange} {next : String} {rest : List Exchange}
      (asks : exchange.request = resumed request cursor itemLimit scanLimit)
      (answers : Answers service serializers encoding source exchange)
      (isNext : exchange.response.nextCursor = some next) (later : Session request (some next.toList) rest) :
      Session request cursor (exchange::rest)

def Keeps (exchange : Exchange) : Prop := exchange.page.items.len ≠ 0 → exchange.response.items.len ≠ 0

def Ended (exchanges : List Exchange) : Prop :=
  ∃ last, exchanges.getLast? = some last ∧ last.response.nextCursor = none

def received (exchanges : List Exchange) : List Shown := exchanges.flatMap fun exchange => shown exchange.response.items

variable {service serializers encoding source} {request : InspectRequest} {start : Nat}

variable {exchange : Exchange} {cursor : Option (List Char)} {exchanges : List Exchange}

theorem Answers.isPacked (answers : Answers service serializers encoding source exchange) :
    Packed exchange.page exchange.response := by
  obtain ⟨fuel,packed⟩ := answers.packed
  exact packed_of_smaller (packInspect_smaller serializers encoding packed)

theorem exchange_serves (paged : exchange.request.view ≠ .summary ∧ exchange.request.view ≠ .metrics)
    (answers : Answers service serializers encoding source exchange) (starts : StartsAt service source exchange.request start)
    (files : ¬ FallsBack service source exchange.request) (keeps : Keeps exchange) :
    ServesClient service source exchange.request start exchange.response :=
  packed_serves (inspect_serves paged files starts answers.inspected) answers.isPacked keeps

/-- The service as a client sees it that asks for one view and filter. -/
def clientServer (service : InspectionService Context) (serializers : Serializers Value) (encoding : Encoding) (source : Source)
    (request : InspectRequest) : Server Exchange (Option (List Char)) Shown where
  asks exchange := exchange.request.cursor.map some
  items exchange := shown exchange.response.items
  cursors exchange := exchange.response.itemCursors.map fun cursor => some cursor.toList
  names exchange := exchange.response.nextCursor.map fun cursor => some cursor.toList
  answers exchange := Answers service serializers encoding source exchange ∧
    ∃ cursor itemLimit scanLimit, exchange.request = resumed request cursor itemLimit scanLimit

theorem Session.follows (session : Session service serializers encoding source request cursor exchanges) :
    (clientServer service serializers encoding source request).Follows (cursor.map some) exchanges := by
  induction session with
  | @last cursor items scans exchange asks answers =>
    exact .last (congrArg (fun asked => asked.cursor.map some) asks) ⟨answers,cursor,items,scans,asks⟩
  | @more cursor items scans exchange next rest asks answers isNext _ ih =>
    exact .more (congrArg (fun asked => asked.cursor.map some) asks) ⟨answers,cursor,items,scans,asks⟩
      (congrArg (Option.map _) isNext) ih

theorem clientServer_faithful (paged : request.view ≠ .summary ∧ request.view ≠ .metrics) :
    ((clientServer service serializers encoding source request).only fun exchange =>
      ¬ FallsBack service source exchange.request ∧ Keeps exchange).Faithful shownSlot (offered service source request)
      (cursorAtPosition service source request) := by
  intro exchange start stands asks answers
  obtain ⟨⟨answers,cursor,itemLimit,scanLimit,isRequest⟩,files,keeps⟩ := answers
  have serves := exchange_serves (isRequest ▸ paged) answers (startsAt_stands isRequest stands asks) files keeps
  rw [isRequest] at serves
  exact ⟨_,serves⟩

theorem coverageFallback_items (id : Uuid) (page : Page Artifact) :
    ∃ first rest, (coverageFallback id page).items = .coverage (.unavailable first::rest) := by
  unfold coverageFallback
  cases remote : remoteCoverage page with
  | nil => exact ⟨_,_,rfl⟩
  | cons first rest =>
    have member : first ∈ remoteCoverage page := by simp [remote]
    obtain ⟨entry,_,isFirst⟩ := mem_filterMap.mp member
    dsimp only at isFirst
    split at isFirst
    · cases isFirst
      exact ⟨_,_,rfl⟩
    · cases isFirst

variable {page : InspectResult}

theorem fallback_page (falls : FallsBack service source request) (ok : service.inspect source request = .ok page) :
    ∃ id artifacts first rest, request.invocationId = some id ∧
      pageArtifacts service.form source id request.filter ⟨none,request.itemLimit,request.scanLimit⟩ = .ok artifacts ∧
      page = (coverageFallback id artifacts).withStartCursor (request.cursor.map String.ofList) ∧
      page.items = .coverage (.unavailable first::rest) := by
  obtain ⟨isView,id,files,isId,isFiles,empty⟩ := falls
  obtain ⟨other,header,inner,isOther,_,isInner,same⟩ := inspect_ok (by rw [isView]; decide) ok
  cases isId.symm.trans isOther
  simp only [inspectView,isView] at isInner
  have isInner := mapError_ok isInner
  simp only [inspectCoverage,isFiles,empty,isEmpty_nil,if_true] at isInner
  obtain ⟨artifacts,isArtifacts,fallen⟩ := map_ok isInner
  obtain ⟨first,rest,items⟩ := coverageFallback_items id artifacts
  subst fallen
  exact ⟨id,artifacts,first,rest,isId,isArtifacts,same,by rw [same]; exact items⟩

/-- What a session shows is the matching items in their order, as far as it went
and all of them if it ended, exactly when no page of coverage fell back. -/
theorem sessions_exact_iff {exchanges : List Exchange} (paged : request.view ≠ .summary ∧ request.view ≠ .metrics)
    (session : Session service serializers encoding source request none exchanges)
    (keeps : ∀ exchange ∈ exchanges, Keeps exchange) : (received exchanges <+: matching service source request ∧
      (Ended exchanges → received exchanges = matching service source request)) ↔
    ∀ exchange ∈ exchanges, ¬ FallsBack service source exchange.request := by
  constructor
  · intro exact_ exchange member falls
    obtain ⟨answers,cursor,itemLimit,scanLimit,asks⟩ := session.follows.answers member
    obtain ⟨_,_,first,rest,_,_,_,items⟩ := fallback_page falls answers.inspected
    have isView : request.view = .coverage := by
      have := falls.1
      rwa [asks] at this
    have long : exchange.response.items.len ≠ 0 := keeps exchange member (by rw [items]; simp [InspectPayload.len])
    have kept : Shown.coverage (.unavailable first) ∈ shown exchange.response.items := by
      obtain ⟨count,same⟩ : ∃ count, exchange.response.items.len = count+1 := ⟨exchange.response.items.len-1,by omega⟩
      rw [answers.isPacked.items,items,same]
      exact mem_cons_self
    have isReceived : Shown.coverage (.unavailable first) ∈ received exchanges := mem_flatMap.mpr ⟨exchange,member,kept⟩
    obtain ⟨file,impossible⟩ := offered_files isView (exact_.1.subset isReceived)
    cases impossible
  · intro files
    have follows := session.follows.only fun exchange member => And.intro (files exchange member) (keeps exchange member)
    rw [matching_eq,received,flatMap_def]
    refine ⟨(clientServer_faithful paged).complete.shown exchanges follows,?_⟩
    intro ended
    obtain ⟨last,isLast,ends⟩ := ended
    exact (clientServer_faithful paged).complete.whole exchanges follows ⟨last,isLast,congrArg (Option.map _) ends⟩

theorem inspect_startCursor (ok : service.inspect source request = .ok page) :
    page.startCursor = request.cursor.map String.ofList := by
  by_cases isLedger : request.view = .invocations
  · simp only [inspect,isLedger,if_true] at ok
    obtain ⟨_,_,same⟩ := map_ok ok
    rw [← same]
    rfl
  · obtain ⟨_,_,_,_,_,_,same⟩ := inspect_ok isLedger ok
    rw [same]
    rfl

theorem single_page (single : request.view = .summary ∨ request.view = .metrics)
    (ok : service.inspect source request = .ok page) :
    shown page.items = (offered service source request).filterMap id ∧ page.items.len ≤ 1 ∧ page.nextCursor = none := by
  have other : request.view ≠ .invocations := by
    rcases single with isView | isView <;> rw [isView] <;> decide
  obtain ⟨id,header,inner,isId,isHeader,isInner,same⟩ := inspect_ok other ok
  rw [same,offered_eq other isId]
  rcases single with isView | isView
  · simp only [inspectView,isView] at isInner
    cases isInner
    simp only [offeredBy,isView,isHeader]
    cases header.summary with
    | none => exact ⟨rfl,Nat.zero_le _,rfl⟩
    | some summary => exact ⟨rfl,Nat.le_refl _,rfl⟩
  · simp only [inspectView,isView] at isInner
    cases isInner
    simp only [offeredBy,isView,isHeader]
    exact ⟨rfl,Nat.le_refl _,rfl⟩

theorem fallback_cursors (falls : FallsBack service source request)
    (ok : service.inspect source request = .ok page) {cursor : String}
    (member : page.nextCursor = some cursor ∨ cursor ∈ page.itemCursors) :
    ∃ id ordinal, request.invocationId = some id ∧ cursor.toList =
      service.form.encode (.ordinal (ordinalContext service.form "artifacts".toList (named id).toList request.filter) ordinal) := by
  obtain ⟨id,artifacts,_,_,isId,isArtifacts,same,_⟩ := fallback_page falls ok
  have given : artifacts.nextCursor = some cursor.toList ∨ cursor.toList ∈ artifacts.itemCursors := by
    rw [same] at member
    rcases member with isNext | isItem
    · obtain ⟨value,isValue,written⟩ := Option.map_eq_some_iff.mp isNext
      left
      rw [isValue,← written,String.toList_ofList]
    obtain ⟨pair,isPair,written⟩ := mem_map.mp isItem
    obtain ⟨entry,isEntry,kept⟩ := mem_filterMap.mp isPair
    right
    dsimp only at kept
    split at kept
    · cases kept
      rw [← written,String.toList_ofList]
      exact (of_mem_zip isEntry).2
    · cases kept
  simp only [pageArtifacts] at isArtifacts
  split at isArtifacts
  · cases isArtifacts
  split at isArtifacts
  · cases isArtifacts
  obtain ⟨ordinal,written⟩ := pageRecords_cursors isArtifacts given
  exact ⟨id,ordinal,isId,written⟩

section
variable (answers : Answers service serializers encoding source exchange)
include answers

theorem single_read (single : exchange.request.view = .summary ∨ exchange.request.view = .metrics) (keeps : Keeps exchange) :
    ¬ Unread service source exchange.request 0 exchange.response := by
  obtain ⟨items,few,_⟩ := single_page single answers.inspected
  have packed := answers.isPacked
  intro unread
  apply unread
  rw [drop_zero,← items,packed.items]
  have all : exchange.page.items.len ≤ exchange.response.items.len := by
    by_cases empty : exchange.page.items.len = 0
    · omega
    · have := keeps empty
      omega
  rw [take_of_length_le (by rw [shown_length]; exact all)]

theorem dropped_next (drops : ¬ Keeps exchange) : exchange.response.nextCursor = exchange.request.cursor.map String.ofList := by
  obtain ⟨some_,empty⟩ := Classical.not_imp.mp drops
  have empty : exchange.response.items.len = 0 := not_not.mp empty
  have packed := answers.isPacked
  rw [packed.next,if_pos (by omega),empty,← inspect_startCursor answers.inspected]

theorem fallback_next (falls : FallsBack service source exchange.request) (keeps : Keeps exchange) {next : String}
    (isNext : exchange.response.nextCursor = some next) :
    ∃ id ordinal, exchange.request.invocationId = some id ∧ next.toList = service.form.encode
      (.ordinal (ordinalContext service.form "artifacts".toList (named id).toList exchange.request.filter) ordinal) := by
  obtain ⟨_,_,first,rest,_,_,_,items⟩ := fallback_page falls answers.inspected
  have long : exchange.response.items.len ≠ 0 := keeps (by rw [items]; simp [InspectPayload.len])
  apply fallback_cursors falls answers.inspected
  rw [answers.isPacked.next] at isNext
  split at isNext
  · obtain ⟨count,same⟩ : ∃ count, exchange.response.items.len = count+1 := ⟨exchange.response.items.len-1,by omega⟩
    rw [same] at isNext
    exact .inr (mem_of_getElem? isNext)
  · exact .inl isNext

/-- A truncated response with items left goes on behind its start exactly when it
keeps an item and did not fall back to the artifacts. -/
theorem progress_iff (begins : Begins service source exchange.request start) :
    (exchange.response.truncated = true → Unread service source exchange.request start exchange.response →
      Progresses service source exchange.request start exchange.response) ↔
    (exchange.response.truncated = true → Unread service source exchange.request start exchange.response →
      Keeps exchange ∧ ¬ FallsBack service source exchange.request) := by
  by_cases single : exchange.request.view = .summary ∨ exchange.request.view = .metrics
  · have zero := begins.start_of_single single
    subst zero
    constructor
    · intro progress truncated unread
      obtain ⟨_,stop,_,_,_,stands⟩ := progress truncated unread
      rw [single_cursors single] at stands
      cases stands
    · intro condition truncated unread
      exact absurd unread (single_read answers single (condition truncated unread).1)
  · have paged := not_or.mp single
    have starts : StartsAt service source exchange.request start := begins.resolve_right (fun both => single both.1)
    constructor
    · intro progress truncated unread
      obtain ⟨next,stop,isNext,after,inside,stands⟩ := progress truncated unread
      have keeps : Keeps exchange := by
        by_contra drops
        rw [dropped_next answers drops] at isNext
        obtain ⟨value,given,written⟩ := Option.map_eq_some_iff.mp isNext
        cases starts with
        | beginning fresh =>
          rw [fresh] at given
          cases given
        | behind isValue _ _ here =>
          rw [given] at isValue
          cases isValue
          rw [← written,String.toList_ofList] at stands
          exact cursorAtPosition_injective after here stands
      refine ⟨keeps,?_⟩
      intro falls
      obtain ⟨id,ordinal,isId,written⟩ := fallback_next answers falls keeps isNext
      rw [cursorAtPosition_eq (by rw [falls.1]; decide) isId] at stands
      simp only [cursorBy,falls.1,written] at stands
      have equal := encode_injective (Option.some.inj stands)
      injection equal with same
      exact scopes_differ service.form _ _ same.symm
    · intro condition truncated unread
      obtain ⟨keeps,files⟩ := condition truncated unread
      have serves := exchange_serves paged answers starts files keeps
      cases isNext : exchange.response.nextCursor with
      | none => exact absurd unread (serves.read isNext)
      | some next =>
        unfold ServesClient at serves
        rw [isNext] at serves
        obtain ⟨stop,stands,after,inside,_⟩ := serves.goes_on
        exact ⟨next,stop,isNext,after,inside,stands.symm⟩

end

theorem artifact_cursor_refused {id : Uuid} {ordinal : Int} {itemLimit scanLimit : Nat} {value : List Char} {header : InvocationHeader}
    (isView : request.view = .coverage) (isId : request.invocationId = some id) (present : source.getInvocation id = .ok header)
    (written : value = service.form.encode
      (.ordinal (ordinalContext service.form "artifacts".toList (named id).toList request.filter) ordinal)) :
    service.inspect source (resumed request (some value) itemLimit scanLimit) = .error .invalidCursor := by
  have refused : decodeFor service.form ordinalPart
      (ordinalContext service.form "coverage_files".toList (named id).toList request.filter) value = .error .invalidCursor := by
    rw [written]
    exact decodeFor_other rfl (scopes_differ service.form _ _)
  have readable : ∃ details, source.readDetails id = .ok details := by
    simp only [Source.getInvocation] at present
    split at present
    · cases present
    · obtain ⟨details,isDetails,_⟩ := map_ok present
      exact ⟨details,isDetails⟩
    · cases present
  obtain ⟨details,isDetails⟩ := readable
  have page : pageCoverage service.form source id (resumed request (some value) itemLimit scanLimit).filter
      (pageRequest (resumed request (some value) itemLimit scanLimit)) = .error .invalidCursor := by
    simp only [pageCoverage,isDetails]
    refine pageRecords_refused rfl refused ?_
    simp only [pageRequest]
    omega
  have view : (resumed request (some value) itemLimit scanLimit).view = .coverage := isView
  have isNamed : (resumed request (some value) itemLimit scanLimit).invocationId = some id := isId
  have inner : service.inspectView source (resumed request (some value) itemLimit scanLimit) id header = .error .invalidCursor := by
    have refusedPage : service.inspectCoverage source (resumed request (some value) itemLimit scanLimit) id = .error .invalidCursor := by
      unfold inspectCoverage
      rw [page]
    simp only [inspectView,view,refusedPage]
    rfl
  simp only [inspect,view,isNamed,present,inner]
  rfl

theorem Session.first (session : Session service serializers encoding source request cursor exchanges) :
    ∃ itemLimit scanLimit page, service.inspect source (resumed request cursor itemLimit scanLimit) = .ok page := by
  cases session with
  | @last _ itemLimit scanLimit exchange asks answers => exact ⟨itemLimit,scanLimit,_,asks ▸ answers.inspected⟩
  | @more _ itemLimit scanLimit exchange _ _ asks answers _ _ => exact ⟨itemLimit,scanLimit,_,asks ▸ answers.inspected⟩

/-- A session whose responses keep items has no more of them than the source has
positions left, and one more. -/
theorem session_length (itemLimit scanLimit : Nat)
    (session : Session service serializers encoding source request cursor exchanges)
    (begins : Begins service source (resumed request cursor itemLimit scanLimit) start)
    (keeps : ∀ exchange ∈ exchanges, Keeps exchange) :
    exchanges.length ≤ (offered service source request).length - start + 1 := by
  induction session generalizing start itemLimit scanLimit with
  | last _ _ => simp
  | @more cursor items scans exchange next rest asks answers isNext later ih =>
    have kept := keeps exchange mem_cons_self
    by_cases single : exchange.request.view = .summary ∨ exchange.request.view = .metrics
    · obtain ⟨_,few,ends⟩ := single_page single answers.inspected
      have packed := answers.isPacked
      have all : ¬ exchange.response.items.len < exchange.page.items.len := by
        intro less
        have := kept (by omega)
        omega
      rw [packed.next,if_neg all,ends] at isNext
      cases isNext
    have paged := not_or.mp single
    by_cases falls : FallsBack service source exchange.request
    · obtain ⟨id,ordinal,isId,written⟩ := fallback_next answers falls kept isNext
      obtain ⟨_,header,_,isOther,present,_,_⟩ := inspect_ok (by rw [falls.1]; decide) answers.inspected
      cases isId.symm.trans isOther
      obtain ⟨otherItems,otherScans,page,ok⟩ := later.first
      rw [asks] at falls isId written
      have refused : service.inspect source (resumed request (some next.toList) otherItems otherScans) = .error .invalidCursor :=
        artifact_cursor_refused falls.1 isId present written
      rw [refused] at ok
      cases ok
    · have starts : StartsAt service source exchange.request start := by
        rw [asks]
        rcases begins with starts | ⟨isSingle,_⟩
        · exact startsAt_limits starts items scans
        · rw [asks] at single
          exact absurd isSingle single
      have serves := exchange_serves paged answers starts falls kept
      rw [asks] at serves
      obtain ⟨stop,after,starts,stops,page⟩ := ServesClient.next serves isNext 0 0
      have inside := (page.resumes stop rfl).2.1
      have bound := ih 0 0 (.inl starts) (fun _ member => keeps _ (mem_cons_of_mem _ member))
      have inside : stop ≤ (offered service source request).length := inside
      simp only [length_cons]
      omega

end

/-! ### One invocation with two files and two diagnostics -/

def plainService : InspectionService (List (List Char)) where
  codecs := {LogInspection.plainCodecs with cursor := ⟨fun _ => none,fun _ => none⟩}
  redactor := ⟨[]⟩
  form := Plain.form
  fromUtf8Lossy bytes := bytes.map fun byte => Char.ofNat byte.toNat
  log_cursor_read _ _ impossible := by cases impossible

def shownText : Shown → String
  | .diagnostic diagnostic => diagnostic.message
  | .coverage (.file file) => file.path
  | .coverage (.unavailable reason) => reason.availabilityReason
  | _ => ""

def plainJson : Serializers (List Shown) where
  runValue _ := .ok []
  inspectValue result := .ok (shown result.items)
  jsonString items := .ok (",".intercalate (items.map shownText))
  jsonVec items := .ok (items.flatMap fun item => (shownText item).toByteArray.data.toList)
  toonString items := .ok (",".intercalate (items.map shownText))

def sampleDiagnostic (message : String) : Diagnostic := ⟨.error,.compilation,message,none,none,none,1⟩

def sampleHeader : InvocationHeader :=
  {(Ledger.sampleEntry 1).record with
    summary := some {diagnostics := [sampleDiagnostic (String.ofList (List.replicate 600 'x')),sampleDiagnostic "short"]}}

def sampleIndex : Index := ({} : Index).put 1 {Ledger.sampleEntry 1 with record := sampleHeader}

def sampleArtifact (name : String) : Artifact := ⟨name,.coverage,"remote",none,false⟩

def sampleSource (files : List CoverageFile) (artifacts : List Artifact) : Source where
  index := sampleIndex
  directory _ := {manifest := .present sampleHeader, details := .present {coverageFiles := files}, artifacts := .present artifacts}
  counted := by
    intro id entry summary count present isSummary isCount
    by_cases same : id = 1
    · subst same
      rw [sampleIndex,Index.lookup_put_self] at present
      cases present
      cases isSummary
      cases isCount
    · rw [sampleIndex,Index.lookup_put_other _ _ _ _ same] at present
      cases present

def twoFiles : Source := sampleSource [⟨"a",1,1,0⟩,⟨"b",1,1,0⟩] []

def exchangeFor (source : Source) (request : InspectRequest) (byteLimit : Nat) : Exchange :=
  let page := match plainService.inspect source request with
    | .ok page => page
    | .error _ => .new none (.log []) none none none false []
  let response := match packInspect plainJson .structured page byteLimit 10 with
    | some (.ok response) => response
    | _ => page
  ⟨request,byteLimit,page,response⟩

def succeeds (source : Source) (request : InspectRequest) (byteLimit : Nat) : Bool :=
  match plainService.inspect source request with
  | .error _ => false
  | .ok page =>
    match packInspect plainJson .structured page byteLimit 10 with
    | some (.ok _) => true
    | _ => false

variable {request : InspectRequest}

theorem exchangeFor_answers {source : Source} {byteLimit : Nat} (ok : succeeds source request byteLimit = true) :
    Answers plainService plainJson .structured source (exchangeFor source request byteLimit) := by
  unfold succeeds at ok
  split at ok
  · cases ok
  rename_i page inspected
  split at ok
  · rename_i response packed
    have same : exchangeFor source request byteLimit = ⟨request,byteLimit,page,response⟩ := by
      simp only [exchangeFor,inspected,packed]
    rw [same]
    exact ⟨inspected,10,packed⟩
  · cases ok

def coverageOf (filter : Option (List Char)) : InspectRequest := {invocationId := some 1, view := .coverage, filter}

def skippedExchange : Exchange := exchangeFor twoFiles (resumed (coverageOf (some ['b'])) none 1 1) 8192

/-- The second of two files matches, the scan ends before it, and the only page
says that there is no coverage. -/
theorem matching_file_never_shown :
    Session plainService plainJson .structured twoFiles (coverageOf (some ['b'])) none [skippedExchange] ∧ Keeps skippedExchange ∧
    Ended [skippedExchange] ∧ matching plainService twoFiles (coverageOf (some ['b'])) = [.coverage (.file ⟨"b",1,1,0⟩)] ∧
    received [skippedExchange] = [.coverage (.unavailable ⟨"coverage_artifact_not_found",none⟩)] := by
  refine ⟨.last rfl (exchangeFor_answers (by decide +kernel)),?_,⟨skippedExchange,rfl,by decide +kernel⟩,by decide +kernel,
    by decide +kernel⟩
  intro _
  decide +kernel

def firstExchange : Exchange := exchangeFor twoFiles (resumed (coverageOf none) none 1 1) 8192

def firstCursor : List Char :=
  recordCursor Plain.form (ordinalContext Plain.form "coverage_files".toList (named 1).toList none) 1

def secondExchange : Exchange := exchangeFor twoFiles (resumed (coverageOf none) (some firstCursor) 5 5) 8192

theorem shows_files (isId : request.invocationId = some 1)
    (some_ : (pageCoverage Plain.form twoFiles 1 request.filter (pageRequest request)).map
      (fun page => page.items.isEmpty) = .ok false) : ¬ FallsBack plainService twoFiles request := by
  intro falls
  obtain ⟨_,id,page,isOther,isPage,empty⟩ := falls
  cases isId.symm.trans isOther
  have isPage : pageCoverage Plain.form twoFiles 1 request.filter (pageRequest request) = .ok page := isPage
  rw [isPage,Except.map,empty] at some_
  cases some_

theorem two_pages_show_both_files :
    received [firstExchange,secondExchange] = [.coverage (.file ⟨"a",1,1,0⟩),.coverage (.file ⟨"b",1,1,0⟩)] := by
  have isNext : firstExchange.response.nextCursor = some (String.ofList firstCursor) := by decide +kernel
  have asks : secondExchange.request = resumed (coverageOf none) (some (String.ofList firstCursor).toList) 5 5 := by
    rw [String.toList_ofList]
    rfl
  have session : Session plainService plainJson .structured twoFiles (coverageOf none) none [firstExchange,secondExchange] :=
    .more rfl (exchangeFor_answers (by decide +kernel)) isNext (.last asks (exchangeFor_answers (by decide +kernel)))
  have keeps : ∀ exchange ∈ [firstExchange,secondExchange], Keeps exchange := by
    simp only [forall_mem_cons,not_mem_nil,false_implies,implies_true,and_true]
    refine ⟨fun _ => ?_,fun _ => ?_⟩
    · decide +kernel
    · decide +kernel
  have files : ∀ exchange ∈ [firstExchange,secondExchange], ¬ FallsBack plainService twoFiles exchange.request := by
    simp only [forall_mem_cons,not_mem_nil,false_implies,implies_true,and_true]
    exact ⟨shows_files rfl (by decide +kernel),shows_files rfl (by decide +kernel)⟩
  have all := ((sessions_exact_iff ⟨by decide,by decide⟩ session keeps).mpr files).2 ⟨secondExchange,rfl,by decide +kernel⟩
  rw [all]
  decide +kernel

def diagnosticsRequest : InspectRequest := {invocationId := some 1, view := .diagnostics}

def longExchange (byteLimit : Nat) : Exchange := exchangeFor twoFiles (resumed diagnosticsRequest none 1 1) byteLimit

end BazelMcp.InspectionPaging

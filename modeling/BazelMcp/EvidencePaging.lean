import BazelMcp.LogInspection
import BazelMcp.RecordPaging

/-! Pages of log evidence. A page of stored records shows what is selected from
its start on. Where a test log was not kept, its page shows the reasons given for
the tests instead, read through pages of the tests. -/
namespace BazelMcp.EvidencePaging
open Cursors Evidence LogInspection Paging RecordPaging Text

section
variable (codec : CursorCodec) (request : Evidence.InspectRequest) (invocationId : InvocationId)

def evidencePick (records : List EvidenceRecord) (index : Nat) (record : EvidenceRecord) : Option (List Char) :=
  if selects request records index record then some record.text else none

def evidenceCursor (position : Nat) : Option (List Char) := codec.encode ⟨invocationId,request.view,position,request.filter⟩

variable {codec request invocationId} in
theorem cursorAt_ok {position : Nat} {cursor : List Char} (ok : cursorAt codec request invocationId position = .ok cursor) :
    evidenceCursor codec request invocationId position = some cursor := by
  unfold cursorAt at ok
  unfold evidenceCursor
  split at ok
  · cases ok
  · rename_i written
    cases ok
    exact written

structure Fills {α : Type} (pick : Nat → α → Option (List Char)) (records : List α) (start index : Nat) (page : PageState) : Prop where
  reading : ∃ stops, Reading pick records start index page.items stops ∧
    page.itemCursors.map some = stops.map (evidenceCursor codec request invocationId)
  going : page.truncated = false
  next : page.nextRecord = max start index
  begun : page.scanned ≠ 0 → start < index

variable {codec request invocationId} {α : Type} {pick : Nat → α → Option (List Char)} {records : List α} {start index : Nat}
  {page : PageState} {record : α}

def ServesEvidence (codec : CursorCodec) (request : Evidence.InspectRequest) (invocationId : InvocationId)
    (pick : Nat → α → Option (List Char)) (records : List α) (start : Nat) (page : EvidencePage) : Prop :=
  Serves pick records (evidenceCursor codec request invocationId) start page.items (page.itemCursors.map some)
    (page.nextCursor.map some) page.truncated

namespace Fills

theorem fresh : Fills codec request invocationId pick records start 0 {nextRecord := start} := by
  refine ⟨⟨[],reading_start,rfl⟩,rfl,?_,fun scanned => absurd rfl scanned⟩
  simp

theorem cut (fills : Fills codec request invocationId pick records start index page) (begun : start < index) {cursor : List Char}
    (written : evidenceCursor codec request invocationId index = some cursor) :
    ServesEvidence codec request invocationId pick records start ⟨page.items,page.itemCursors,true,some cursor⟩ := by
  obtain ⟨stops,reading,cursors⟩ := fills.reading
  refine ⟨stops,some index,reading.cut begun,cursors,?_,rfl⟩
  simp [written]

theorem finish (fills : Fills codec request invocationId pick records start records.length page) :
    ServesEvidence codec request invocationId pick records start ⟨page.items,page.itemCursors,false,none⟩ := by
  obtain ⟨stops,reading,cursors⟩ := fills.reading
  exact ⟨stops,none,reading.finish,cursors,rfl,rfl⟩

section
variable (fills : Fills codec request invocationId pick records start index page)
include fills

theorem begun_full {maximumItems : Nat}
    (someItems : maximumItems ≠ 0) (full : page.items.length = maximumItems) : start < index := by
  obtain ⟨stops,reading,_⟩ := fills.reading
  apply reading.begun
  intro empty
  rw [empty] at full
  exact someItems full.symm

theorem skip (here : records[index]? = some record)
    (before : index < start) : Fills codec request invocationId pick records start (index+1) page := by
  obtain ⟨stops,reading,cursors⟩ := fills.reading
  refine ⟨⟨stops,reading.skip here before,cursors⟩,fills.going,?_,?_⟩
  · rw [fills.next]
    omega
  · intro scanned
    have := fills.begun scanned
    omega

theorem pass (here : records[index]? = some record) (reached : start ≤ index) (unpicked : pick index record = none) :
    Fills codec request invocationId pick records start (index+1)
      {page with scanned := page.scanned+1, nextRecord := index+1} := by
  obtain ⟨stops,reading,cursors⟩ := fills.reading
  refine ⟨⟨stops,reading.pass here reached unpicked,cursors⟩,fills.going,?_,fun _ => by omega⟩
  change index+1 = max start (index+1)
  omega

theorem take (here : records[index]? = some record)
    (reached : start ≤ index) {item cursor : List Char} (isPicked : pick index record = some item)
    (written : evidenceCursor codec request invocationId (index+1) = some cursor) :
    Fills codec request invocationId pick records start (index+1)
      { page with
        scanned := page.scanned+1
        nextRecord := index+1
        items := page.items ++ [item]
        itemCursors := page.itemCursors ++ [cursor] } := by
  obtain ⟨stops,reading,cursors⟩ := fills.reading
  refine ⟨⟨stops ++ [index+1],reading.take here reached isPicked,?_⟩,fills.going,?_,fun _ => by omega⟩
  · simp [cursors,written]
  · change index+1 = max start (index+1)
    omega

end

end Fills

theorem pageLoop_serves {records : List EvidenceRecord} {maximumItems maximumScanned : Nat} (someItems : maximumItems ≠ 0)
    (someScans : maximumScanned ≠ 0) {final : PageState} (rest : List EvidenceRecord) (left : records.drop index = rest)
    (fills : Fills codec request invocationId (evidencePick request records) records start index page)
    (ok : pageLoop codec records start request invocationId maximumItems maximumScanned rest index page = .ok final)
    {cursor : List Char} (written : final.truncated = true → evidenceCursor codec request invocationId final.nextRecord = some cursor) :
    ServesEvidence codec request invocationId (evidencePick request records) records start
      ⟨final.items,final.itemCursors,final.truncated,if final.truncated then some cursor else none⟩ := by
  induction rest generalizing index page with
  | nil =>
    cases ok
    have bound : index ≤ records.length := by
      obtain ⟨stops,reading,_⟩ := fills.reading
      exact reading.bounded
    have ended : index = records.length := Nat.le_antisymm bound (List.drop_eq_nil_iff.mp left)
    subst ended
    rw [fills.going]
    exact fills.finish
  | cons record rest ih =>
    obtain ⟨here,later⟩ := drop_cons left
    simp only [pageLoop] at ok
    split at ok
    · rename_i before
      exact ih later (fills.skip here before) ok
    rename_i reached
    have reached : start ≤ index := Nat.le_of_not_lt reached
    split at ok
    · rename_i spent
      have begun := fills.begun (spent ▸ someScans)
      cases ok
      have same : page.nextRecord = index := by
        rw [fills.next]
        omega
      exact fills.cut begun (same ▸ written rfl)
    split at ok
    · rename_i full
      simp only [Bool.and_eq_true,decide_eq_true_eq] at full
      cases ok
      exact fills.cut (fills.begun_full someItems full.2) (written rfl)
    split at ok
    · rename_i selected
      split at ok
      · cases ok
      · rename_i text isText
        have isPicked : evidencePick request records index record = some record.text := by simp [evidencePick,selected]
        exact ih later (fills.take here reached isPicked (cursorAt_ok isText)) ok
    · rename_i unselected
      have unpicked : evidencePick request records index record = none := by simp [evidencePick,unselected]
      exact ih later (fills.pass here reached unpicked) ok

theorem pageEvidenceRecords_serves {records : List EvidenceRecord} {result : EvidencePage}
    (ok : pageEvidenceRecords codec records start request invocationId = .ok result) :
    ServesEvidence codec request invocationId (evidencePick request records) records start result := by
  simp only [pageEvidenceRecords] at ok
  split at ok
  · cases ok
  split at ok
  · cases ok
  rename_i final filled
  have serves (cursor : List Char)
      (written : final.truncated = true → evidenceCursor codec request invocationId final.nextRecord = some cursor) :=
    pageLoop_serves (by omega) (by omega) records rfl Fills.fresh filled written
  split at ok
  · rename_i truncated
    split at ok
    · cases ok
    rename_i cursor isText
    cases ok
    have shown := serves cursor (fun _ => cursorAt_ok isText)
    rwa [truncated] at shown
  · rename_i whole
    have whole : final.truncated = false := by simpa using whole
    cases ok
    have shown := serves [] (fun truncated => absurd (whole.symm.trans truncated) Bool.false_ne_true)
    rwa [whole] at shown

end

section
variable {codec : CursorCodec} {request : Evidence.InspectRequest} {invocationId : InvocationId}

/-- Every cursor is one of the request, and so is the next one. -/
def WellWritten (codec : CursorCodec) (request : Evidence.InspectRequest) (invocationId : InvocationId) (page : EvidencePage) : Prop :=
  ∀ cursor, page.nextCursor = some cursor ∨ cursor ∈ page.itemCursors →
    ∃ position, evidenceCursor codec request invocationId position = some cursor

theorem ServesEvidence.written {α : Type} {pick : Nat → α → Option (List Char)} {records : List α} {start : Nat} {page : EvidencePage}
    (serves : ServesEvidence codec request invocationId pick records start page) : WellWritten codec request invocationId page := by
  intro cursor member
  rcases member with isNext | isItem
  · unfold ServesEvidence at serves
    rw [isNext] at serves
    obtain ⟨stop,isStop,_⟩ := serves.goes_on
    exact ⟨stop,isStop.symm⟩
  · obtain ⟨stop,isStop,_⟩ := serves.cursor_at (List.mem_map_of_mem isItem)
    exact ⟨stop,isStop.symm⟩

variable {error : InspectError}

theorem cursorAt_error {position : Nat} (failed : cursorAt codec request invocationId position = .error error) :
    error = .json := by
  unfold cursorAt at failed
  split at failed
  · cases failed
    rfl
  · cases failed

theorem pageLoop_error {records : List EvidenceRecord} {start maximumItems maximumScanned : Nat} (rest : List EvidenceRecord) (index : Nat)
    {page : PageState}
    (failed : pageLoop codec records start request invocationId maximumItems maximumScanned rest index page = .error error) :
    ∃ position, cursorAt codec request invocationId position = .error error := by
  induction rest generalizing index page with
  | nil => cases failed
  | cons record rest ih =>
    simp only [pageLoop] at failed
    split at failed
    · exact ih _ failed
    split at failed
    · cases failed
    split at failed
    · cases failed
    split at failed
    · split at failed
      · rename_i unwritten
        cases failed
        exact ⟨_,unwritten⟩
      · exact ih _ failed
    · exact ih _ failed

theorem pageEvidenceRecords_error {records : List EvidenceRecord} {start : Nat}
    (failed : pageEvidenceRecords codec records start request invocationId = .error error) :
    (∃ position, cursorAt codec request invocationId position = .error error) ∨ error = .panicked ∧ 10000 < request.itemLimit := by
  simp only [pageEvidenceRecords] at failed
  split at failed
  · cases failed
    exact .inr ⟨rfl,by omega⟩
  split at failed
  · rename_i looped
    cases failed
    exact .inl (pageLoop_error _ _ looped)
  split at failed
  · split at failed
    · rename_i unwritten
      cases failed
      exact .inl ⟨_,unwritten⟩
    · cases failed
  · cases failed

end

/-! ### Reasons in place of a test log -/

section
variable {Context : Type} [DecidableEq Context] (form : CursorForm Context) (service : InvocationService)
  (request : Evidence.InspectRequest) (invocationId : InvocationId)

def pageTests (filter : Option (List Char)) (page : PageRequest) (tests : List TestResult) : Except StoreError (Page TestResult) :=
  pageRecords form filter (fun test => test.label.toList) "test_results".toList invocationId.toList page tests

def reasonText (test : TestResult) (reason : String) : List Char :=
  service.redactor.redactBounded (test.label.toList ++ ": ".toList ++ reason.toList) (4*1024)

def reasonMatches (text : List Char) : Bool := (request.filter.map toAsciiLowercase).all (contains (toAsciiLowercase text))

/-- One page of tests: the page is full, or it goes on with the next reason. -/
def reasonLoop (start maximumItems maximumScanned : Nat) :
    List TestResult → Nat → PageState → Except InspectError (EvidencePage ⊕ (Nat × PageState))
  | [], index, page => .ok (.inr (index,page))
  | test::rest, index, page =>
    match test.testLogUnavailableReason with
    | none => reasonLoop start maximumItems maximumScanned rest index page
    | some reason =>
      if index < start then reasonLoop start maximumItems maximumScanned rest (index+1) page
      else if page.scanned = maximumScanned then
        (cursorAt service.codecs.cursor request invocationId page.nextRecord).map fun cursor =>
          .inl ⟨page.items,page.itemCursors,true,some cursor⟩
      else
        let text := reasonText service test reason
        if reasonMatches request text && page.items.length = maximumItems then
          (cursorAt service.codecs.cursor request invocationId index).map fun cursor =>
            .inl ⟨page.items,page.itemCursors,true,some cursor⟩
        else
          let next := {page with scanned := page.scanned+1, nextRecord := index+1}
          if reasonMatches request text then
            match cursorAt service.codecs.cursor request invocationId (index+1) with
            | .error error => .error error
            | .ok cursor => reasonLoop start maximumItems maximumScanned rest (index+1)
                { next with items := next.items ++ [text], itemCursors := next.itemCursors ++ [cursor] }
          else reasonLoop start maximumItems maximumScanned rest (index+1) next

def ofStore : StoreError → InspectError
  | .invalidCursor => .invalidCursor
  | .notFound => .invocationNotFound
  | .io => .io
  | .panicked => .panicked

/-- The loop over the pages of tests, `none` when the fuel runs out. -/
def unavailableLoop (tests : List TestResult) (start maximumItems maximumScanned : Nat) :
    Nat → Option (List Char) → Nat → PageState → Option (Except InspectError EvidencePage)
  | 0, _, _, _ => none
  | fuel+1, storageCursor, index, page =>
    match pageTests form invocationId none {cursor := storageCursor, itemLimit := 100} tests with
    | .error error => some (.error (ofStore error))
    | .ok stored =>
      match reasonLoop service request invocationId start maximumItems maximumScanned stored.items index page with
      | .error error => some (.error error)
      | .ok (.inl filled) => some (.ok filled)
      | .ok (.inr (index,page)) =>
        if stored.truncated then unavailableLoop tests start maximumItems maximumScanned fuel stored.nextCursor index page
        else some (.ok ⟨page.items,page.itemCursors,false,none⟩)

-- A page of tests goes on behind the last one, so there are no more pages than tests.
def readTestLogUnavailablePage (tests : List TestResult) : Except InspectError EvidencePage :=
  match service.startRecord request invocationId with
  | .error error => .error error
  | .ok start =>
    let leastScanned := max request.itemLimit 1
    if 10000 < leastScanned then .error .panicked
    else
      (unavailableLoop form service request invocationId tests start (max 1 (min request.itemLimit 100))
        (max leastScanned (min request.scanLimit 10000)) (tests.length+1) none 0 {nextRecord := start}).getD (.error .panicked)

def reasons (tests : List TestResult) : List (List Char) :=
  tests.filterMap fun test => test.testLogUnavailableReason.map (reasonText service test)

def reasonPick (_ : Nat) (text : List Char) : Option (List Char) := if reasonMatches request text then some text else none

variable {form service request invocationId} {start index maximumItems maximumScanned : Nat} {page : PageState}

abbrev FillsReasons (service : InvocationService) (request : Evidence.InspectRequest) (invocationId : InvocationId)
    (all : List (List Char)) (start index : Nat) (page : PageState) : Prop :=
  Fills service.codecs.cursor request invocationId (reasonPick request) all start index page

abbrev ServesReasons (service : InvocationService) (request : Evidence.InspectRequest) (invocationId : InvocationId)
    (all : List (List Char)) (start : Nat) (page : EvidencePage) : Prop :=
  ServesEvidence service.codecs.cursor request invocationId (reasonPick request) all start page

/-- What one page of tests leaves: a full page, or the reasons of the tests behind it. -/
def ReadOn (service : InvocationService) (request : Evidence.InspectRequest) (invocationId : InvocationId) (all : List (List Char))
    (start : Nat) (behind : List TestResult) : EvidencePage ⊕ (Nat × PageState) → Prop
  | .inl page => ServesReasons service request invocationId all start page
  | .inr (index,page) => all.drop index = reasons service behind ∧ FillsReasons service request invocationId all start index page

theorem reasonLoop_reads {all : List (List Char)} (someItems : maximumItems ≠ 0) (someScans : maximumScanned ≠ 0)
    (tests behind : List TestResult) (left : all.drop index = reasons service (tests ++ behind))
    (fills : FillsReasons service request invocationId all start index page) {result : EvidencePage ⊕ (Nat × PageState)}
    (ok : reasonLoop service request invocationId start maximumItems maximumScanned tests index page = .ok result) :
    ReadOn service request invocationId all start behind result := by
  induction tests generalizing index page with
  | nil =>
    cases ok
    exact ⟨left,fills⟩
  | cons test rest ih =>
    cases given : test.testLogUnavailableReason with
    | none =>
      simp only [reasonLoop,given] at ok
      apply ih _ fills ok
      rw [left]
      simp [reasons,given]
    | some reason =>
      have next : reasons service (test::rest ++ behind) = reasonText service test reason::reasons service (rest ++ behind) := by
        simp [reasons,given]
      obtain ⟨here,later⟩ := drop_cons (left.trans next)
      simp only [reasonLoop,given] at ok
      split at ok
      · rename_i before
        exact ih later (fills.skip here before) ok
      rename_i reached
      have reached : start ≤ index := Nat.le_of_not_lt reached
      split at ok
      · rename_i spent
        have begun := fills.begun (spent ▸ someScans)
        have same : page.nextRecord = index := by
          rw [fills.next]
          omega
        obtain ⟨cursor,written,rfl⟩ := map_ok ok
        exact fills.cut begun (same ▸ cursorAt_ok written)
      split at ok
      · rename_i full
        simp only [Bool.and_eq_true,decide_eq_true_eq] at full
        obtain ⟨cursor,written,rfl⟩ := map_ok ok
        exact fills.cut (fills.begun_full someItems full.2) (cursorAt_ok written)
      split at ok
      · rename_i selected
        split at ok
        · cases ok
        rename_i cursor written
        have isPicked : reasonPick request index (reasonText service test reason) = some (reasonText service test reason) := by
          simp [reasonPick,selected]
        exact ih later (fills.take here reached isPicked (cursorAt_ok written)) ok
      · rename_i unselected
        have unpicked : reasonPick request index (reasonText service test reason) = none := by
          simp [reasonPick,unselected]
        exact ih later (fills.pass here reached unpicked) ok

variable {error : InspectError} {tests : List TestResult} {result : EvidencePage}

theorem reasonLoop_error (tests : List TestResult) (index : Nat) {page : PageState}
    (failed : reasonLoop service request invocationId start maximumItems maximumScanned tests index page = .error error) :
    ∃ position, cursorAt service.codecs.cursor request invocationId position = .error error := by
  induction tests generalizing index page with
  | nil => cases failed
  | cons test rest ih =>
    simp only [reasonLoop] at failed
    split at failed
    · exact ih _ failed
    split at failed
    · exact ih _ failed
    split at failed
    · exact ⟨_,error_of_map failed⟩
    split at failed
    · exact ⟨_,error_of_map failed⟩
    split at failed
    · split at failed
      · rename_i isError
        cases failed
        exact ⟨_,isError⟩
      · exact ih _ failed
    · exact ih _ failed

def testCursor (form : CursorForm Context) (invocationId : InvocationId) (position : Nat) : List Char :=
  recordCursor form (ordinalContext form "test_results".toList invocationId.toList none) position

theorem pageTests_chunk {position : Option Nat} {stored : Page TestResult}
    (ok : pageTests form invocationId none {cursor := position.map (testCursor form invocationId), itemLimit := 100} tests = .ok stored) :
    ∃ behind, tests.drop (position.getD 0) = stored.items ++ behind ∧ (stored.truncated = false ∧ behind = [] ∨
      ∃ stop, stored.truncated = true ∧ stored.nextCursor = some (testCursor form invocationId stop) ∧
        position.getD 0 < stop ∧ stop ≤ tests.length ∧ behind = tests.drop stop) := by
  have everything : recordPick none (fun test : TestResult => test.label.toList) = fun _ test => some test := by
    funext index test
    simp [recordPick,recordMatches]
  have serves := pageRecords_serves rfl ok
  rw [everything] at serves
  have isTruncated := serves.truncated_eq
  cases isNext : stored.nextCursor with
  | none =>
    rw [isNext] at serves isTruncated
    refine ⟨[],?_,.inl ⟨isTruncated,rfl⟩⟩
    have whole := serves.ended
    rw [pickedFrom,picked_all,List.take_length] at whole
    rw [whole,List.append_nil]
  | some cursor =>
    rw [isNext] at serves isTruncated
    obtain ⟨stop,isStop,after,inside,items⟩ := serves.goes_on
    refine ⟨_,?_,.inr ⟨stop,isTruncated,congrArg some isStop,after,inside,rfl⟩⟩
    rw [items,picked_all]
    have split := List.take_append_drop stop tests
    conv_lhs => rw [← split]
    rw [List.drop_append_of_le_length]
    simp only [List.length_take]
    omega

theorem pageTests_answers (form : CursorForm Context) (invocationId : InvocationId) (position : Option Nat) (tests : List TestResult) :
    ∃ stored, pageTests form invocationId none {cursor := position.map (testCursor form invocationId), itemLimit := 100} tests =
      .ok stored := by
  have resumed : resume form ordinalPart (ordinalContext form "test_results".toList invocationId.toList none)
      (position.map (testCursor form invocationId)) = _ := resume_map (fun _ => resume_encode rfl) position
  simp only [pageTests,pageRecords,resumed]
  exact ⟨_,rfl⟩

theorem unavailableLoop_error (fuel : Nat) (position : Option Nat) (index : Nat) {page : PageState}
    (failed : unavailableLoop form service request invocationId tests start maximumItems maximumScanned fuel
      (position.map (testCursor form invocationId)) index page = some (.error error)) :
    ∃ place, cursorAt service.codecs.cursor request invocationId place = .error error := by
  induction fuel generalizing position index page with
  | zero => cases failed
  | succ fuel ih =>
    obtain ⟨stored,isStored⟩ := pageTests_answers form invocationId position tests
    simp only [unavailableLoop,isStored] at failed
    split at failed
    · rename_i isError
      cases failed
      exact reasonLoop_error _ _ isError
    · cases failed
    obtain ⟨_,_,⟨whole,_⟩ | ⟨stop,more,next,_⟩⟩ := pageTests_chunk isStored
    · rw [whole] at failed
      cases failed
    · rw [more,if_pos rfl,next] at failed
      exact ih (some stop) _ failed

theorem unavailableLoop_serves (someItems : maximumItems ≠ 0) (someScans : maximumScanned ≠ 0) (fuel : Nat)
    (position : Option Nat) (left : (reasons service tests).drop index = reasons service (tests.drop (position.getD 0)))
    (fills : FillsReasons service request invocationId (reasons service tests) start index page)
    (ok : unavailableLoop form service request invocationId tests start maximumItems maximumScanned fuel
      (position.map (testCursor form invocationId)) index page = some (.ok result)) :
    ServesReasons service request invocationId (reasons service tests) start result := by
  induction fuel generalizing position index page with
  | zero => cases ok
  | succ fuel ih =>
    simp only [unavailableLoop] at ok
    split at ok
    · cases ok
    rename_i stored isStored
    obtain ⟨behind,chunk,more⟩ := pageTests_chunk isStored
    rw [chunk] at left
    split at ok
    · cases ok
    · rename_i filled isFilled
      cases ok
      exact reasonLoop_reads someItems someScans stored.items behind left fills isFilled
    rename_i index' page' isRead
    obtain ⟨rest,fills⟩ := reasonLoop_reads someItems someScans stored.items behind left fills isRead
    rcases more with ⟨whole,rfl⟩ | ⟨stop,more,next,_,_,rfl⟩
    · rw [whole] at ok
      cases ok
      obtain ⟨stops,reading,_⟩ := id fills.reading
      have ended : index' = (reasons service tests).length :=
        Nat.le_antisymm reading.bounded (List.drop_eq_nil_iff.mp rest)
      subst ended
      exact fills.finish
    · rw [more,if_pos rfl,next] at ok
      exact ih (some stop) rest fills ok

/-- The loop always comes back: each page of tests starts behind the one before. -/
theorem unavailableLoop_returns (fuel : Nat) (position : Option Nat) (enough : tests.length - position.getD 0 < fuel) :
    (unavailableLoop form service request invocationId tests start maximumItems maximumScanned fuel
      (position.map (testCursor form invocationId)) index page).isSome = true := by
  induction fuel generalizing position index page with
  | zero => omega
  | succ fuel ih =>
    simp only [unavailableLoop]
    split
    · rfl
    rename_i stored isStored
    split
    · rfl
    · rfl
    obtain ⟨_,_,⟨whole,_⟩ | ⟨stop,more,next,after,inside,_⟩⟩ := pageTests_chunk isStored
    · rw [whole]
      rfl
    rw [more,if_pos rfl,next]
    apply ih (some stop)
    simp only [Option.getD_some]
    omega

theorem readTestLogUnavailablePage_loops (form : CursorForm Context) (tests : List TestResult)
    (starts : service.startRecord request invocationId = .ok start) (limited : ¬10000 < max request.itemLimit 1) :
    unavailableLoop form service request invocationId tests start (max 1 (min request.itemLimit 100))
        (max (max request.itemLimit 1) (min request.scanLimit 10000)) (tests.length+1) none 0 {nextRecord := start} =
      some (readTestLogUnavailablePage form service request invocationId tests) := by
  have back : (unavailableLoop form service request invocationId tests start (max 1 (min request.itemLimit 100))
      (max (max request.itemLimit 1) (min request.scanLimit 10000)) (tests.length+1) none 0 {nextRecord := start}).isSome = true :=
    unavailableLoop_returns (tests.length+1) none (by simp)
  obtain ⟨answer,isAnswer⟩ := Option.isSome_iff_exists.mp back
  simp only [readTestLogUnavailablePage,starts,if_neg limited,isAnswer,Option.getD_some]

theorem readTestLogUnavailablePage_starts (ok : readTestLogUnavailablePage form service request invocationId tests = .ok result) :
    ∃ start, service.startRecord request invocationId = .ok start := by
  cases isStart : service.startRecord request invocationId with
  | error error =>
    simp only [readTestLogUnavailablePage,isStart] at ok
    cases ok
  | ok start => exact ⟨start,rfl⟩

theorem readTestLogUnavailablePage_serves (starts : service.startRecord request invocationId = .ok start)
    (ok : readTestLogUnavailablePage form service request invocationId tests = .ok result) :
    ServesReasons service request invocationId (reasons service tests) start result := by
  by_cases limited : 10000 < max request.itemLimit 1
  · simp only [readTestLogUnavailablePage,starts,if_pos limited] at ok
    cases ok
  · have looped := readTestLogUnavailablePage_loops form tests starts limited
    rw [ok] at looped
    exact unavailableLoop_serves (by omega) (by omega) (tests.length+1) none rfl Fills.fresh looped

theorem readTestLogUnavailablePage_error (starts : service.startRecord request invocationId = .ok start)
    (failed : readTestLogUnavailablePage form service request invocationId tests = .error error) :
    (∃ position, cursorAt service.codecs.cursor request invocationId position = .error error) ∨
      error = .panicked ∧ 10000 < request.itemLimit := by
  by_cases limited : 10000 < max request.itemLimit 1
  · simp only [readTestLogUnavailablePage,starts,if_pos limited] at failed
    cases failed
    exact .inr ⟨rfl,by omega⟩
  · have looped := readTestLogUnavailablePage_loops form tests starts limited
    rw [failed] at looped
    exact .inl (unavailableLoop_error _ none _ looped)

end
end BazelMcp.EvidencePaging

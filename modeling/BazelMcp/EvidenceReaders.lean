import BazelMcp.Inspection

/-! Log evidence read page by page. A reader that follows the cursors is shown the
records that match the filter, each once and in their order, whatever the limits
of each request. In a test log a record also matches by a neighbour with its label.
The reasons shown where no test log was kept match by their own texts alone. -/
namespace BazelMcp.EvidencePaging
open Cursors Evidence Inspection LogInspection Paging RecordPaging Text List

/-! ### Which records match -/

def around (records : List EvidenceRecord) (index : Nat) : List EvidenceRecord :=
  (if index = 0 then [] else records[index-1]?.toList) ++ records[index]?.toList ++ records[index+1]?.toList

/-- A filter is found in a record, or in a test log in a record around it with the same label. -/
def found (view : InspectView) (filter : Option (List Char)) (records : List EvidenceRecord) (index : Nat)
    (record : EvidenceRecord) : Bool :=
  filter.all fun needle =>
    if view = .testLog then
      (around records index).any fun other => other.label = record.label && evidenceRecordMatches other (toAsciiLowercase needle)
    else evidenceRecordMatches record (toAsciiLowercase needle)

def matchingRecords (view : InspectView) (filter : Option (List Char)) (records : List EvidenceRecord) : List (List Char) :=
  records.zipIdx.filterMap fun entry => if found view filter records entry.2 entry.1 then some entry.1.text else none

theorem mem_window {α : Type} {list : List α} {start stop : Nat} {item : α} :
    item ∈ (list.take stop).drop start ↔ ∃ place, start ≤ place ∧ place < stop ∧ list[place]? = some item := by
  rw [mem_iff_getElem?]
  constructor
  · intro present
    obtain ⟨index,here⟩ := present
    rw [List.getElem?_drop,List.getElem?_take] at here
    split at here
    · exact ⟨start+index,Nat.le_add_right _ _,by assumption,here⟩
    · cases here
  · intro present
    obtain ⟨place,after,before,here⟩ := present
    refine ⟨place-start,?_⟩
    rw [List.getElem?_drop,Nat.add_sub_cancel' after,List.getElem?_take,if_pos before]
    exact here

theorem mem_around {records : List EvidenceRecord} {index : Nat} {other : EvidenceRecord} :
    other ∈ around records index ↔ ∃ place, index-1 ≤ place ∧ place < index+2 ∧ records[place]? = some other := by
  unfold around
  simp only [mem_append,Option.mem_toList]
  constructor
  · intro present
    rcases present with (before | here) | behind
    · split at before
      · cases before
      · exact ⟨index-1,Nat.le_refl _,by omega,Option.mem_toList.mp before⟩
    · exact ⟨index,by omega,by omega,here⟩
    · exact ⟨index+1,by omega,by omega,behind⟩
  intro present
  obtain ⟨place,after,before,here⟩ := present
  rcases Nat.lt_trichotomy place index with lower | same | higher
  · have isPlace : place = index-1 := by omega
    rw [if_neg (by omega : ¬ index = 0),← isPlace]
    exact .inl (.inl (Option.mem_toList.mpr here))
  · subst same
    exact .inl (.inr here)
  · have isPlace : place = index+1 := by omega
    rw [← isPlace]
    exact .inr here

theorem selects_found {request : Evidence.InspectRequest} {records : List EvidenceRecord} {index : Nat} {record : EvidenceRecord}
    (here : records[index]? = some record) : selects request records index record = found request.view request.filter records index record := by
  unfold selects found
  cases request.filter with
  | none => rfl
  | some needle =>
    simp only [Option.map_some,Option.all_some]
    split
    · rw [Bool.eq_iff_iff,any_eq_true,testLogRecordMatchesContext,any_eq_true,here]
      apply exists_congr
      intro other
      rw [mem_window,mem_around,testLogFilterContextLines]
      refine and_congr (exists_congr ?_) Iff.rfl
      intro place
      constructor
      · intro within
        obtain ⟨after,before,isOther⟩ := within
        exact ⟨after,by omega,isOther⟩
      intro within
      obtain ⟨after,before,isOther⟩ := within
      have bound := (List.getElem?_eq_some_iff.mp isOther).1
      exact ⟨after,by omega,isOther⟩
    · rfl

theorem picked_evidence (request : Evidence.InspectRequest) (records : List EvidenceRecord) :
    pickedFrom (evidencePick request records) records 0 = matchingRecords request.view request.filter records := by
  rw [pickedFrom,picked,drop_zero,take_of_length_le (by simp),matchingRecords]
  apply filterMap_congr
  intro entry member
  rw [evidencePick,selects_found (mem_zipIdx_iff_getElem?.mp member)]

theorem picked_reasons (service : InvocationService) (request : Evidence.InspectRequest) (tests : List TestResult) :
    pickedFrom (reasonPick request) (reasons service tests) 0 = (reasons service tests).filter (reasonMatches request) := by
  rw [pickedFrom,picked,drop_zero,take_of_length_le (by simp)]
  conv_rhs => rw [← zipIdx_map_fst 0 (reasons service tests),← filterMap_eq_filter,filterMap_map]
  apply filterMap_congr
  intro entry _
  simp [reasonPick,Option.guard]

/-! ### Readers of evidence -/

structure EvidenceExchange where
  request : Evidence.InspectRequest
  page : EvidencePage

/-- What is seen of a function that answers requests for one view and filter.
A position whose cursor cannot be written has none, so cursors are optional here. -/
def serverOf (request : Evidence.InspectRequest) (answer : Evidence.InspectRequest → Except InspectError EvidencePage) :
    Server EvidenceExchange (Option (List Char)) (List Char) where
  asks exchange := exchange.request.cursor.map some
  items exchange := exchange.page.items
  cursors exchange := exchange.page.itemCursors.map some
  names exchange := exchange.page.nextCursor.map some
  answers exchange := exchange.request.view = request.view ∧ exchange.request.filter = request.filter ∧
    answer exchange.request = .ok exchange.page

section
variable {Context : Type} (service : InspectionService Context) (request : Evidence.InspectRequest) (invocationId : InvocationId)

-- The cursor is read before the records, as in `read_evidence_page`.
def evidenceAnswer (records : List EvidenceRecord) (asked : Evidence.InspectRequest) : Except InspectError EvidencePage :=
  match service.startRecord asked invocationId with
  | .error error => .error error
  | .ok start => pageEvidenceRecords service.codecs.cursor records start asked invocationId

/-- Where cursors can be written, a request up to the largest scan whose cursor
stands for a position gets a page. -/
def Answering (answer : Evidence.InspectRequest → Except InspectError EvidencePage) : Prop :=
  (∀ cursor, (service.codecs.cursor.encode cursor).isSome = true) →
    ∀ (asked : Evidence.InspectRequest) (start : Option Nat), asked.view = request.view → asked.filter = request.filter →
      asked.itemLimit ≤ 10000 → asked.cursor.map some = start.map (evidenceCursor service.codecs.cursor request invocationId) →
      ∃ page, answer asked = .ok page

variable {service request invocationId}

variable (tests : List TestResult) {asked : Evidence.InspectRequest}

theorem startRecord_position {start : Option Nat} (view : asked.view = request.view) (filter : asked.filter = request.filter)
    (asks : asked.cursor.map some = start.map (evidenceCursor service.codecs.cursor request invocationId)) :
    service.startRecord asked invocationId = .ok (start.getD 0) := by
  cases start with
  | none =>
    have fresh : asked.cursor = none := by simpa using asks
    simp only [InvocationService.startRecord,fresh,Option.getD_none]
  | some position =>
    obtain ⟨value,given,written⟩ := Option.map_eq_some_iff.mp asks
    rw [evidenceCursor] at written
    have read := service.log_cursor_read _ _ written.symm
    simp [InvocationService.startRecord,given,LogCursor.decodeFor,read,view,filter]

theorem evidenceCursor_same {codec : CursorCodec} (view : asked.view = request.view)
    (filter : asked.filter = request.filter) : evidenceCursor codec asked invocationId = evidenceCursor codec request invocationId := by
  funext position
  rw [evidenceCursor,evidenceCursor,view,filter]

theorem evidence_faithful (records : List EvidenceRecord) :
    (serverOf request (evidenceAnswer service invocationId records)).Faithful (evidencePick request records) records
      (evidenceCursor service.codecs.cursor request invocationId) := by
  intro exchange start _ asks answers
  obtain ⟨view,filter,ok⟩ := answers
  rw [evidenceAnswer,startRecord_position view filter asks] at ok
  have serves := pageEvidenceRecords_serves ok
  have samePick : evidencePick exchange.request records = evidencePick request records := by
    funext index record
    rw [evidencePick,evidencePick,selects,selects,view,filter]
  rw [ServesEvidence,evidenceCursor_same view filter,samePick] at serves
  exact ⟨_,serves⟩

theorem answered_of_writes {codec : CursorCodec} (writes : ∀ cursor, (codec.encode cursor).isSome = true)
    (limited : asked.itemLimit ≤ 10000) {answer : Except InspectError EvidencePage} (fails : ∀ error, answer = .error error →
      (∃ position, cursorAt codec asked invocationId position = .error error) ∨ error = .panicked ∧ 10000 < asked.itemLimit) :
    ∃ page, answer = .ok page := by
  cases isAnswer : answer with
  | ok page => exact ⟨page,rfl⟩
  | error error =>
    rcases fails error isAnswer with ⟨position,unwritten⟩ | ⟨_,large⟩
    · obtain ⟨cursor,written⟩ := Option.isSome_iff_exists.mp (writes ⟨invocationId,asked.view,position,asked.filter⟩)
      rw [cursorAt,written] at unwritten
      cases unwritten
    · exact absurd large (Nat.not_lt.mpr limited)

theorem evidence_answering (records : List EvidenceRecord) :
    Answering service request invocationId (evidenceAnswer service invocationId records) := by
  intro writes asked start view filter limited asks
  rw [evidenceAnswer,startRecord_position view filter asks]
  exact answered_of_writes writes limited fun _ failed => pageEvidenceRecords_error failed

variable [DecidableEq Context]

/-- The answer with the reasons of the tests, where no test log was kept. -/
def reasonAnswer (service : InspectionService Context) (invocationId : InvocationId) (tests : List TestResult)
    (asked : Evidence.InspectRequest) : Except InspectError EvidencePage :=
  readTestLogUnavailablePage service.form service.toInvocationService asked invocationId tests

theorem reason_faithful : (serverOf request (reasonAnswer service invocationId tests)).Faithful (reasonPick request)
      (reasons service.toInvocationService tests) (evidenceCursor service.codecs.cursor request invocationId) := by
  intro exchange start _ asks answers
  obtain ⟨view,filter,ok⟩ := answers
  have serves := readTestLogUnavailablePage_serves (startRecord_position view filter asks) ok
  have samePick : reasonPick exchange.request = reasonPick request := by
    funext _ text
    rw [reasonPick,reasonPick,reasonMatches,reasonMatches,filter]
  rw [ServesReasons,ServesEvidence,evidenceCursor_same view filter,samePick] at serves
  exact ⟨_,serves⟩

theorem reason_answering : Answering service request invocationId (reasonAnswer service invocationId tests) := by
  intro writes asked start view filter limited asks
  have starts := startRecord_position view filter asks
  exact answered_of_writes writes limited fun _ failed => readTestLogUnavailablePage_error starts failed

/-- Readers of evidence are shown the matching records, and readers of the reasons
those whose own text matches; requests on the way are answered. -/
theorem evidence_pages_complete (service : InspectionService Context) (request : Evidence.InspectRequest) (invocationId : InvocationId) :
    (∀ records, (serverOf request (evidenceAnswer service invocationId records)).Complete
        (matchingRecords request.view request.filter records) ∧
      Answering service request invocationId (evidenceAnswer service invocationId records)) ∧
    ∀ tests, (serverOf request (reasonAnswer service invocationId tests)).Complete
        ((reasons service.toInvocationService tests).filter (reasonMatches request)) ∧
      Answering service request invocationId (reasonAnswer service invocationId tests) := by
  constructor
  · intro records
    refine ⟨?_,evidence_answering records⟩
    rw [← picked_evidence]
    exact (evidence_faithful records).complete
  · intro tests
    refine ⟨?_,reason_answering tests⟩
    rw [← picked_reasons]
    exact (reason_faithful tests).complete

end

/-! ### Two results of one test -/

/-- Cursors of one test log and one filter, with the position written as marks. -/
def markedService : InspectionService (List (List Char)) where
  codecs := { LogInspection.plainCodecs with
    cursor :=
      ⟨fun cursor => if cursor = ⟨"1",.testLog,cursor.nextRecord,some ['x']⟩ then some (List.replicate cursor.nextRecord '1') else none,
        fun value => some ⟨"1",.testLog,value.length,some ['x']⟩⟩ }
  redactor := ⟨[]⟩
  form := Plain.form
  fromUtf8Lossy bytes := bytes.map fun byte => Char.ofNat byte.toNat
  log_cursor_read cursor value written := by
    dsimp only at written ⊢
    split at written
    · rename_i same
      cases written
      rw [List.length_replicate]
      exact congrArg some same.symm
    · cases written

def askedFor (cursor : Option (List Char)) (itemLimit : Nat) : Evidence.InspectRequest :=
  ⟨some "1",.testLog,cursor,some ['x'],itemLimit,itemLimit⟩

def failedTest (reason : String) : TestResult := ⟨"t",.failed,none,1,none,[],false,some reason⟩

/-- The second result has the label of the first, whose reason holds the filter,
and is not shown: reasons match by their own texts alone. -/
theorem neighbour_reason_not_shown :
    reasonAnswer markedService "1" [failedTest "x",failedTest "y"] (askedFor none 20) = .ok ⟨[['t',':',' ','x']],[['1']],false,none⟩ ∧
    matchingRecords .testLog (some ['x']) [⟨some ['t'],['t',':',' ','x']⟩,⟨some ['t'],['t',':',' ','y']⟩] =
      [['t',':',' ','x'],['t',':',' ','y']] :=
  ⟨by decide +kernel,by decide +kernel⟩

def labelled : List EvidenceRecord := [⟨some ['t'],['x']⟩,⟨some ['t'],['y']⟩,⟨none,['y']⟩]

def askEvidence (cursor : Option (List Char)) : EvidenceExchange :=
  ⟨askedFor cursor 1,(evidenceAnswer markedService "1" labelled (askedFor cursor 1)).toOption.getD {}⟩

/-- Page by page, the record and the neighbour with its label are shown, and the one with another label is not. -/
theorem evidence_pages_labelled : (serverOf (askedFor none 1) (evidenceAnswer markedService "1" labelled)).received
      [askEvidence none,askEvidence (some ['1']),askEvidence (some ['1','1'])] = [['x'],['y']] := by
  have follows : (serverOf (askedFor none 1) (evidenceAnswer markedService "1" labelled)).Follows none
      [askEvidence none,askEvidence (some ['1']),askEvidence (some ['1','1'])] := by
    refine .more rfl ⟨rfl,rfl,by decide +kernel⟩ (by decide +kernel : _ = some (some ['1'])) ?_
    refine .more rfl ⟨rfl,rfl,by decide +kernel⟩ (by decide +kernel : _ = some (some ['1','1'])) ?_
    exact .last rfl ⟨rfl,rfl,by decide +kernel⟩
  obtain ⟨complete,_⟩ := (evidence_pages_complete markedService (askedFor none 1) "1").1 labelled
  exact (complete.whole _ follows ⟨_,rfl,by decide +kernel⟩).trans (by decide +kernel)

end BazelMcp.EvidencePaging

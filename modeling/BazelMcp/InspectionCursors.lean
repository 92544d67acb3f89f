import BazelMcp.InspectionPaging

/-! The cursors that inspection hands out and takes back. Each belongs to one
view of one invocation under one filter, and is taken back there at any later
time, whatever the source has become. -/
namespace BazelMcp.InspectionCursors
open Cursors Inspection InspectionPaging Paging RecordPaging StoreIndex InspectionService
open Evidence (EvidencePage InspectError LogCursor)
open EvidencePaging
open Ledger (ledgerCursor listInvocations)
open LedgerPaging (listInvocations_accepts listInvocations_cursors)
open LogInspection (FileEntry InvocationService)
open QueryRows (fileCursor pageQueryRowsMappedInto_accepts pageQueryRowsMappedInto_cursors)

def Returned (result : InspectResult) (cursor : String) : Prop := result.nextCursor = some cursor ∨ cursor ∈ result.itemCursors

def Rejected (outcome : Except InspectError InspectResult) : Prop :=
  outcome = .error .invalidCursor ∨ outcome = .error .invalidOffset

section
variable {Context : Type} (service : InspectionService Context) (request : InspectRequest)

def OrdinalCursor (scope : String) (id : Uuid) (value : List Char) : Prop :=
  ∃ ordinal, value = service.form.encode
    (.ordinal (ordinalContext service.form scope.toList (named id).toList request.filter) ordinal)

/-- The text is a cursor of the view of an invocation. -/
def CursorBy (id : Uuid) (value : List Char) : Prop :=
  match request.view with
  | .diagnostics => OrdinalCursor service request "diagnostics" id value
  | .tests => OrdinalCursor service request "test_results" id value
  | .artifacts => OrdinalCursor service request "artifacts" id value
  | .coverage => OrdinalCursor service request "coverage_files" id value
  | .queryResults =>
    ∃ position, value = fileCursor service.form
      (ordinalContext service.form "query_rows".toList (named id).toList request.filter) position
  | .log | .testLog => ∃ position, evidenceCursor service.codecs.cursor request.evidence (named id) position = some value
  | .summary | .metrics | .invocations => False

def CursorOf (value : List Char) : Prop :=
  if request.view = .invocations then ∃ found, value = ledgerCursor service.form request.ledger found
  else ∃ id, request.invocationId = some id ∧ CursorBy service request id value

variable {service request} {source : Source}

theorem Returned.read {result : InspectResult} {cursors : List (List Char)} {next : Option (List Char)} {cursor : String}
    (returned : Returned result cursor) (isCursors : result.itemCursors = cursors.map String.ofList)
    (isNext : result.nextCursor = next.map String.ofList) : next = some cursor.toList ∨ cursor.toList ∈ cursors := by
  rcases returned with returned | returned
  · obtain ⟨value,isValue,same⟩ := Option.map_eq_some_iff.mp (isNext.symm.trans returned)
    left
    rw [isValue,← same,String.toList_ofList]
  · rw [isCursors] at returned
    obtain ⟨value,isValue,same⟩ := List.mem_map.mp returned
    right
    rwa [← same,String.toList_ofList]

theorem readEvidencePage_written {file : FileEntry (List Char)} {id : Uuid} {page : EvidencePage}
    (isId : request.invocationId = some id)
    (ok : service.readEvidencePage file (source.directory id).outputs request.evidence = .ok page) :
    WellWritten service.codecs.cursor request.evidence (named id) page := by
  have isNamed : request.evidence.invocationId = some (named id) := by simp [InspectRequest.evidence,isId]
  simp only [InvocationService.readEvidencePage,isNamed] at ok
  split at ok
  · cases ok
  split at ok
  · cases ok
  exact (pageEvidenceRecords_serves ok).written

def Mild (error : InspectError) : Prop := error ≠ .invalidCursor ∧ error ≠ .invalidOffset

theorem mild_page {codec : Evidence.CursorCodec} {asked : Evidence.InspectRequest} {id : InvocationId} {error : InspectError}
    (failed : (∃ position, Evidence.cursorAt codec asked id position = .error error) ∨ error = .panicked ∧ 10000 < asked.itemLimit) :
    Mild error := by
  rcases failed with ⟨position,unwritten⟩ | ⟨same,_⟩
  · rw [cursorAt_error unwritten]
    exact ⟨by decide,by decide⟩
  · rw [same]
    exact ⟨by decide,by decide⟩

theorem mild_ofStore {error : StoreError} (known : error ≠ .invalidCursor) : Mild (ofStore error) := by
  cases error with
  | invalidCursor => exact absurd rfl known
  | notFound | io | panicked => exact ⟨by simp [ofStore],by simp [ofStore]⟩

theorem startRecord_accepts {id : Uuid} {value : List Char} (given : request.cursor = some value)
    (written : ∃ position, evidenceCursor service.codecs.cursor request.evidence (named id) position = some value) :
    ∃ start, service.startRecord request.evidence (named id) = .ok start := by
  obtain ⟨position,isText⟩ := written
  have isValue : request.evidence.cursor = some value := given
  have read := service.log_cursor_read _ _ isText
  simp [InvocationService.startRecord,isValue,LogCursor.decodeFor,read]

theorem readEvidencePage_error {file : FileEntry (List Char)} {id : Uuid} {error : InspectError} {start : Nat}
    (isId : request.invocationId = some id) (starts : service.startRecord request.evidence (named id) = .ok start)
    (failed : service.readEvidencePage file (source.directory id).outputs request.evidence = .error error) : Mild error := by
  have isNamed : request.evidence.invocationId = some (named id) := by simp [InspectRequest.evidence,isId]
  simp only [InvocationService.readEvidencePage,isNamed,starts] at failed
  have tails {files : LogInspection.InvocationFiles} {maxBytes : Nat} {error : InspectError}
      (unread : LogInspection.readTails files maxBytes = .error error) : error = .io := by
    have tail {file : FileEntry (List UInt8)} {error : InspectError}
        (unread : LogInspection.readBoundedTail file maxBytes = .error error) : error = .io := by
      cases file <;> cases unread
      rfl
    unfold LogInspection.readTails at unread
    split at unread
    · rename_i first
      cases unread
      exact tail first
    split at unread
    · rename_i second
      cases unread
      exact tail second
    · cases unread
  split at failed
  · rename_i problem unread
    cases failed
    unfold InvocationService.recordsFor at unread
    split at unread
    · split at unread
      · split at unread
        · rename_i isProblem
          cases unread
          rw [tails isProblem]
          exact ⟨by decide,by decide⟩
        · cases unread
      · cases unread
        exact ⟨by decide,by decide⟩
    · cases unread
      exact ⟨by decide,by decide⟩
    · split at unread
      · cases unread
        exact ⟨by decide,by decide⟩
      · cases unread
  · exact mild_page (pageEvidenceRecords_error failed)

variable [DecidableEq Context]

/-- Every cursor returned is one of the view, unless coverage fell back. -/
theorem inspect_cursors {result : InspectResult} (files : ¬ FallsBack service source request)
    (ok : service.inspect source request = .ok result) {cursor : String} (returned : Returned result cursor) :
    CursorOf service request cursor.toList := by
  unfold CursorOf
  by_cases isLedger : request.view = .invocations
  · rw [if_pos isLedger]
    simp only [inspect,isLedger,if_true] at ok
    obtain ⟨page,isPage,rfl⟩ := map_ok ok
    exact listInvocations_cursors (mapError_ok isPage) (returned.read rfl rfl)
  rw [if_neg isLedger]
  obtain ⟨id,header,inner,isId,_,isInner,same⟩ := inspect_ok isLedger ok
  subst same
  refine ⟨id,isId,?_⟩
  unfold CursorBy
  unfold inspectView at isInner
  generalize isView : request.view = view at isInner ⊢
  cases view with
  | invocations => exact absurd isView isLedger
  | summary | metrics =>
    cases isInner
    rcases returned with impossible | impossible <;> cases impossible
  | diagnostics | tests =>
    obtain ⟨page,isPage,rfl⟩ := map_ok isInner
    have isPage := mapError_ok isPage
    simp only [pageDiagnostics,pageTestResults] at isPage
    split at isPage
    · cases isPage
    exact pageRecords_cursors isPage (returned.read rfl rfl)
  | artifacts =>
    obtain ⟨page,isPage,rfl⟩ := map_ok isInner
    have isPage := mapError_ok isPage
    simp only [pageArtifacts] at isPage
    split at isPage
    · cases isPage
    split at isPage
    · cases isPage
    exact pageRecords_cursors isPage (returned.read rfl rfl)
  | queryResults =>
    obtain ⟨page,isPage,rfl⟩ := map_ok isInner
    have isPage := mapError_ok isPage
    simp only [pageQueryRows] at isPage
    split at isPage
    · cases isPage
    exact pageQueryRowsMappedInto_cursors isPage (returned.read rfl rfl)
  | coverage =>
    have isInner := mapError_ok isInner
    simp only [inspectCoverage] at isInner
    split at isInner
    · cases isInner
    rename_i page isPage
    split at isInner
    · rename_i empty
      exact absurd ⟨isView,id,page,isId,isPage,List.isEmpty_iff.mp empty⟩ files
    cases isInner
    simp only [pageCoverage] at isPage
    split at isPage
    · cases isPage
    exact pageRecords_cursors isPage (returned.read rfl rfl)
  | log =>
    obtain ⟨page,isPage,rfl⟩ := map_ok isInner
    exact readEvidencePage_written isId isPage _ (returned.read rfl rfl)
  | testLog =>
    obtain ⟨page,isPage,rfl⟩ := map_ok isInner
    simp only [inspectTestLog] at isPage
    split at isPage
    · split at isPage
      · cases isPage
      obtain ⟨start,starts⟩ := readTestLogUnavailablePage_starts isPage
      exact (readTestLogUnavailablePage_serves starts isPage).written _ (returned.read rfl rfl)
    · exact readEvidencePage_written isId isPage _ (returned.read rfl rfl)

theorem error_of_mapError {α ε δ : Type} {outcome : Except ε α} {change : ε → δ} {error : δ}
    (failed : outcome.mapError change = .error error) : ∃ found, outcome = .error found ∧ error = change found := by
  cases outcome with
  | error found =>
    cases failed
    exact ⟨found,rfl,rfl⟩
  | ok found => cases failed

theorem mild_mapped {α : Type} {outcome : Except StoreError α} {error : InspectError} (failed : outcome.mapError ofStore = .error error)
    (accepts : outcome ≠ .error .invalidCursor) : Mild error := by
  obtain ⟨found,isFound,rfl⟩ := error_of_mapError failed
  exact mild_ofStore fun invalid => accepts (invalid ▸ isFound)

theorem readJsonOrDefault_known {α : Type} (default : α) (file : FileEntry α) :
    readJsonOrDefault default file ≠ .error .invalidCursor := by
  intro failed
  cases file <;> cases failed

theorem readDetails_known (source : Source) (id : Uuid) : source.readDetails id ≠ .error .invalidCursor := by
  intro failed
  simp only [Source.readDetails] at failed
  split at failed
  · cases failed
  · exact readJsonOrDefault_known _ _ failed

theorem getInvocation_known (source : Source) (id : Uuid) : source.getInvocation id ≠ .error .invalidCursor := by
  intro failed
  simp only [Source.getInvocation] at failed
  split at failed
  · cases failed
  · exact readDetails_known source id (error_of_map failed)
  · cases failed

theorem pageArtifacts_accepts {id : Uuid} {page : PageRequest}
    (accepted : ∀ value, page.cursor = some value → OrdinalCursor service request "artifacts" id value) :
    pageArtifacts service.form source id request.filter page ≠ .error .invalidCursor := by
  intro refused
  simp only [pageArtifacts] at refused
  split at refused
  · cases refused
  split at refused
  · rename_i unread
    cases refused
    exact readJsonOrDefault_known _ _ unread
  · exact pageRecords_accepts accepted refused

theorem inspectView_accepts {id : Uuid} {header : InvocationHeader} {value : List Char} {error : InspectError}
    (isId : request.invocationId = some id) (given : request.cursor = some value) (fits : CursorBy service request id value)
    (failed : service.inspectView source request id header = .error error) : Mild error := by
  have accepted {scope : String} (fits : OrdinalCursor service request scope id value) :
      ∀ other, (pageRequest request).cursor = some other →
        ∃ ordinal, other = service.form.encode
          (.ordinal (ordinalContext service.form scope.toList (named id).toList request.filter) ordinal) := by
    intro other isOther
    cases given.symm.trans isOther
    exact fits
  unfold CursorBy at fits
  unfold inspectView at failed
  generalize request.view = view at fits failed
  cases view with
  | summary | metrics | invocations =>
    cases fits
  | diagnostics =>
    refine mild_mapped (error_of_map failed) fun refused => ?_
    simp only [pageDiagnostics,Source.getInvocationHeader] at refused
    split at refused
    · rename_i isHeader
      split at isHeader
      · cases isHeader
        cases refused
      · cases isHeader
    · exact pageRecords_accepts (accepted fits) refused
  | tests =>
    refine mild_mapped (error_of_map failed) fun refused => ?_
    simp only [pageTestResults] at refused
    split at refused
    · rename_i isDetails
      cases refused
      exact readDetails_known source id isDetails
    · exact pageRecords_accepts (accepted fits) refused
  | artifacts =>
    exact mild_mapped (error_of_map failed) (pageArtifacts_accepts (accepted fits))
  | coverage =>
    refine mild_mapped failed fun invalid => ?_
    simp only [inspectCoverage] at invalid
    split at invalid
    · rename_i refused
      cases invalid
      simp only [pageCoverage] at refused
      split at refused
      · rename_i isDetails
        cases refused
        exact readDetails_known source id isDetails
      · exact pageRecords_accepts (accepted fits) refused
    · split at invalid
      · refine pageArtifacts_accepts ?_ (error_of_map invalid)
        intro other impossible
        cases impossible
      · cases invalid
  | queryResults =>
    refine mild_mapped (error_of_map failed) fun refused => ?_
    simp only [pageQueryRows] at refused
    split at refused
    · cases refused
    refine pageQueryRowsMappedInto_accepts ?_ refused
    intro other isOther
    cases given.symm.trans isOther
    exact fits
  | log =>
    obtain ⟨start,starts⟩ := startRecord_accepts given fits
    exact readEvidencePage_error isId starts (error_of_map failed)
  | testLog =>
    obtain ⟨start,starts⟩ := startRecord_accepts given fits
    have failed := error_of_map failed
    simp only [inspectTestLog] at failed
    split at failed
    · split at failed
      · rename_i isDetails
        cases failed
        apply mild_ofStore
        intro invalid
        exact readDetails_known source id (invalid ▸ isDetails)
      · exact mild_page (readTestLogUnavailablePage_error starts failed)
    · exact readEvidencePage_error isId starts failed

theorem inspect_accepts {value : List Char} (given : request.cursor = some value) (fits : CursorOf service request value) :
    ¬ Rejected (service.inspect source request) := by
  have mild (error : InspectError) (failed : service.inspect source request = .error error) : Mild error := by
    unfold CursorOf at fits
    by_cases isLedger : request.view = .invocations
    · rw [if_pos isLedger] at fits
      simp only [inspect,isLedger,if_true] at failed
      refine mild_mapped (error_of_map failed) (listInvocations_accepts ?_)
      intro other isOther
      cases given.symm.trans isOther
      exact fits
    · rw [if_neg isLedger] at fits
      obtain ⟨id,isId,fits⟩ := fits
      simp only [inspect,isLedger,if_false,isId] at failed
      split at failed
      · rename_i problem isProblem
        cases failed
        apply mild_ofStore
        intro invalid
        exact getInvocation_known source id (invalid ▸ isProblem)
      · exact inspectView_accepts isId given fits (error_of_map failed)
  intro rejected
  rcases rejected with invalid | invalid
  · exact (mild _ invalid).1 rfl
  · exact (mild _ invalid).2 rfl

end

def remoteOnly : Source := sampleSource [] [sampleArtifact "one",sampleArtifact "two"]

def remotePage : InspectResult := (exchangeFor remoteOnly (coverageOf none) 8192).page

def artifactCursor : List Char :=
  recordCursor Plain.form (ordinalContext Plain.form "artifacts".toList (named 1).toList none) 1

end BazelMcp.InspectionCursors

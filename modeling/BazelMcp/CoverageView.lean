import BazelMcp.InspectionPaging

/-! The view of coverage. Where a page of coverage files comes out empty, the view
answers with what is unavailable instead. It then speaks of the files it read for
the page, and not of those of the invocation. -/
namespace BazelMcp.CoverageView
open Cursors Inspection InspectionPaging Paging RecordPaging ResultEncoding InspectionService List
open Evidence (InspectError)

def filesOf (source : Source) (id : Uuid) : List CoverageFile := (detailsOf source id).coverageFiles

def matchingFiles (source : Source) (id : Uuid) (filter : Option (List Char)) : List CoverageFile :=
  (filesOf source id).filter (recordMatches filter coverageText)

/-- The item of a result says that coverage is unavailable. -/
def Denies (result : InspectResult) : Prop := ∃ reason, Shown.coverage (.unavailable reason) ∈ shown result.items

def fileOf : Shown → Option CoverageFile
  | .coverage (.file file) => some file
  | _ => none

def shownFiles (result : InspectResult) : List CoverageFile := (shown result.items).filterMap fileOf

def scanSize (request : InspectRequest) : Nat := max (max 1 (min request.itemLimit 100)) (min request.scanLimit 10000)

section
variable {Context : Type} [DecidableEq Context] (service : InspectionService Context) (source : Source) (request : InspectRequest)
  (id : Uuid)

def readBehind : Int :=
  match resume service.form ordinalPart (ordinalContext service.form "coverage_files".toList (named id).toList request.filter)
      request.cursor with
  | .ok cursor => cursor.getD (-1)
  | .error _ => -1

def scannedFiles : List CoverageFile :=
  ((filesOf source id).drop (readBehind service request id+1).toNat).take (scanSize request)

/-- One of the files that are read matches, or no file of the invocation does. -/
def FindsAny : Prop :=
  matchingFiles source id request.filter = [] ∨
    ∃ file ∈ scannedFiles service source request id, recordMatches request.filter coverageText file = true

variable {service source request id}

theorem scannedFiles_sublist : (scannedFiles service source request id).Sublist (filesOf source id) :=
  (take_sublist _ _).trans (drop_sublist _ _)

theorem coverageFallback_denies (id : Uuid) (page : Page Artifact) :
    Denies (coverageFallback id page) ∧ shownFiles (coverageFallback id page) = [] := by
  constructor
  · obtain ⟨first,rest,items⟩ := coverageFallback_items id page
    refine ⟨first,?_⟩
    rw [items]
    simp [shown]
  have remote : ∀ entry ∈ remoteCoverage page, fileOf (.coverage entry.1) = none := by
    intro entry member
    obtain ⟨⟨artifact,cursor⟩,_,isEntry⟩ := mem_filterMap.mp member
    dsimp only at isEntry
    split at isEntry
    · cases isEntry
      rfl
    · cases isEntry
  rw [shownFiles,filterMap_eq_nil_iff]
  intro item member
  unfold coverageFallback at member
  dsimp only [InspectResult.new,shown] at member
  split at member
  · simp only [map_cons,map_nil,mem_singleton] at member
    rw [member]
    rfl
  simp only [mem_map] at member
  obtain ⟨_,⟨entry,isEntry,same⟩,isItem⟩ := member
  rw [← isItem,← same]
  exact remote entry isEntry

/-- What the view answers: the files of a page, or what is unavailable where the
page has none, and that is where none of the files read matches. -/
theorem coverage_answer {result : InspectResult} (isView : request.view = .coverage) (isId : request.invocationId = some id)
    (ok : service.inspect source request = .ok result) :
    ∃ page, pageCoverage service.form source id request.filter (pageRequest request) = .ok page ∧
      shownFiles result = page.items ∧ (Denies result ↔ page.items = []) ∧
      (page.items = [] ↔ ∀ file ∈ scannedFiles service source request id, recordMatches request.filter coverageText file = false) := by
  have other : request.view ≠ .invocations := by
    rw [isView]
    decide
  obtain ⟨found,header,inner,isFound,_,isInner,same⟩ := inspect_ok other ok
  cases isId.symm.trans isFound
  subst same
  simp only [inspectView,isView] at isInner
  have isInner := mapError_ok isInner
  simp only [inspectCoverage] at isInner
  split at isInner
  · cases isInner
  rename_i page isPage
  refine ⟨page,isPage,?_⟩
  have emptiness : page.items = [] ↔
      ∀ file ∈ scannedFiles service source request id, recordMatches request.filter coverageText file = false := by
    simp only [pageCoverage] at isPage
    split at isPage
    · cases isPage
    rename_i details isDetails
    have files : filesOf source id = details.coverageFiles := by rw [filesOf,detailsOf,isDetails]
    cases isCursor : resume service.form ordinalPart
        (ordinalContext service.form "coverage_files".toList (named id).toList request.filter) request.cursor with
    | error error =>
      simp only [pageRecords,pageRequest,isCursor] at isPage
      split at isPage <;> cases isPage
    | ok cursor =>
      refine (pageRecords_empty_iff isCursor isPage).trans ?_
      have size : max (max (pageRequest request).itemLimit 1)
          (min (pageRequest request).scanLimit 10000) = scanSize request := by
        simp only [pageRequest,scanSize]
        omega
      rw [size,scannedFiles,files,readBehind,isCursor]
  split at isInner
  · rename_i empty
    have empty := isEmpty_iff.mp empty
    obtain ⟨artifacts,_,fallen⟩ := map_ok isInner
    subst fallen
    obtain ⟨denies,noFiles⟩ := coverageFallback_denies id artifacts
    exact ⟨noFiles.trans empty.symm,⟨fun _ => empty,fun _ => denies⟩,emptiness⟩
  rename_i long
  have long : page.items ≠ [] := by simpa using long
  cases isInner
  have items : shown ((ofPage (some (named id)) (fun items => .coverage (items.map .file)) page).withStartCursor
      (request.cursor.map String.ofList)).items = page.items.map fun file => .coverage (.file file) := by
    simp [ofPage,InspectResult.new,InspectResult.withStartCursor,shown]
  refine ⟨?_,⟨?_,fun empty => absurd empty long⟩,emptiness⟩
  · rw [shownFiles,items,filterMap_map]
    exact filterMap_some
  intro denies
  obtain ⟨reason,member⟩ := denies
  rw [items] at member
  obtain ⟨file,_,impossible⟩ := mem_map.mp member
  cases impossible

/-- An answer denies coverage that exists exactly where none of the files read
matches but one of the invocation does. -/
theorem denies_iff {result : InspectResult} (isView : request.view = .coverage) (isId : request.invocationId = some id)
    (ok : service.inspect source request = .ok result) :
    (Denies result → matchingFiles source id request.filter = []) ↔ FindsAny service source request id := by
  obtain ⟨page,_,_,denies,empty⟩ := coverage_answer isView isId ok
  constructor
  · intro honest
    by_cases none : page.items = []
    · exact .inl (honest (denies.mpr none))
    right
    rw [empty,Classical.not_forall] at none
    obtain ⟨file,isMatch⟩ := none
    rw [Classical.not_imp,Bool.not_eq_false] at isMatch
    exact ⟨file,isMatch⟩
  · intro finds denied
    rcases finds with nothing | ⟨file,member,isMatch⟩
    · exact nothing
    · have unmatched := empty.mp (denies.mp denied) file member
      rw [isMatch] at unmatched
      cases unmatched

/-! ### Readers of the view -/

end

structure CoverageExchange where
  request : InspectRequest
  page : InspectResult

section
variable {Context : Type} [DecidableEq Context] (service : InspectionService Context) (source : Source) (request : InspectRequest)

/-- The service as it answers for one view, invocation and filter. -/
def viewServer : Server CoverageExchange (Option (List Char)) Shown where
  asks exchange := exchange.request.cursor.map some
  items exchange := shown exchange.page.items
  cursors exchange := exchange.page.itemCursors.map fun cursor => some cursor.toList
  names exchange := exchange.page.nextCursor.map fun cursor => some cursor.toList
  answers exchange := (∃ cursor itemLimit scanLimit, exchange.request = resumed request cursor itemLimit scanLimit) ∧
    service.inspect source exchange.request = .ok exchange.page

variable {service source request} {id : Uuid}

theorem viewServer_faithful (paged : request.view ≠ .summary ∧ request.view ≠ .metrics) :
    ((viewServer service source request).only fun exchange => ¬ FallsBack service source exchange.request).Faithful shownSlot
      (offered service source request) (cursorAtPosition service source request) := by
  intro exchange start stands asks answers
  obtain ⟨⟨⟨cursor,itemLimit,scanLimit,isRequest⟩,ok⟩,files⟩ := answers
  have serves := inspect_serves (isRequest ▸ paged) files (startsAt_stands isRequest stands asks) ok
  rw [isRequest] at serves
  exact ⟨_,serves⟩

omit [DecidableEq Context] in
theorem matching_files (isView : request.view = .coverage) (isId : request.invocationId = some id) :
    matching service source request = (matchingFiles source id request.filter).map fun file => .coverage (.file file) := by
  have other : request.view ≠ .invocations := by
    rw [isView]
    decide
  rw [matching_eq,offered_eq other isId]
  simp only [offeredBy,isView]
  exact pickedFrom_filter _ _ _

/-- By cases on whether any file matches: if none does, every page is without files;
if one does, no page falls back and the pages are those of the files. -/
theorem finds_complete (isView : request.view = .coverage) (isId : request.invocationId = some id) {exchanges : List CoverageExchange}
    (follows : (viewServer service source request).Follows none exchanges)
    (finds : ∀ exchange ∈ exchanges, FindsAny service source exchange.request id)
    (ended : (viewServer service source request).Ended exchanges) :
    exchanges.flatMap (fun exchange => shownFiles exchange.page) = matchingFiles source id request.filter := by
  have answer {exchange : CoverageExchange} (member : exchange ∈ exchanges) :
      exchange.request.filter = request.filter ∧ ∃ page,
        pageCoverage service.form source id exchange.request.filter (pageRequest exchange.request) = .ok page ∧
        shownFiles exchange.page = page.items ∧ (page.items = [] ↔
          ∀ file ∈ scannedFiles service source exchange.request id, recordMatches exchange.request.filter coverageText file = false) := by
    obtain ⟨⟨cursor,itemLimit,scanLimit,isRequest⟩,ok⟩ := follows.answers member
    have isView : exchange.request.view = .coverage := isRequest ▸ isView
    have isId : exchange.request.invocationId = some id := isRequest ▸ isId
    obtain ⟨page,isPage,files,_,empty⟩ := coverage_answer isView isId ok
    exact ⟨isRequest ▸ rfl,page,isPage,files,empty⟩
  by_cases nothing : matchingFiles source id request.filter = []
  · rw [nothing,flatMap_eq_nil_iff]
    intro exchange member
    obtain ⟨isFilter,page,_,files,empty⟩ := answer member
    rw [files,empty,isFilter]
    intro file scanned
    simpa using filter_eq_nil_iff.mp nothing file (scannedFiles_sublist.subset scanned)
  have files : ∀ exchange ∈ exchanges, ¬ FallsBack service source exchange.request := by
    intro exchange member falls
    obtain ⟨_,other,page,isOther,isPage,none⟩ := falls
    obtain ⟨isFilter,found,isFound,_,empty⟩ := answer member
    obtain ⟨⟨cursor,itemLimit,scanLimit,isRequest⟩,_⟩ := follows.answers member
    have isId : exchange.request.invocationId = some id := isRequest ▸ isId
    cases isId.symm.trans isOther
    cases isPage.symm.trans isFound
    rcases finds exchange member with impossible | ⟨file,scanned,isMatch⟩
    · exact nothing (isFilter ▸ impossible)
    · have unmatched := empty.mp none file scanned
      rw [isMatch] at unmatched
      cases unmatched
  have paged : request.view ≠ .summary ∧ request.view ≠ .metrics := by
    rw [isView]
    exact ⟨by decide,by decide⟩
  have all := (viewServer_faithful paged).complete.whole exchanges (follows.only files) ended
  rw [← matching_eq,matching_files isView isId] at all
  have read := congrArg (List.filterMap fileOf) all
  rw [filterMap_map] at read
  refine Eq.trans ?_ (read.trans filterMap_some)
  rw [Server.received,filterMap_flatten,map_map,flatMap_def]
  rfl

/-- A request for coverage denies no coverage that exists, and a reader is shown
every matching file, exactly when for each request one of the files read matches,
or no file of the invocation does. -/
theorem coverage_honest_iff (service : InspectionService Context) (source : Source) (request : InspectRequest) (id : Uuid)
    (isView : request.view = .coverage) (isId : request.invocationId = some id) :
    (∀ result, service.inspect source request = .ok result →
      ((Denies result → matchingFiles source id request.filter = []) ↔ FindsAny service source request id)) ∧
    ∀ exchanges, (viewServer service source request).Follows none exchanges →
      (((∀ exchange ∈ exchanges, Denies exchange.page → matchingFiles source id request.filter = []) ∧
        ((viewServer service source request).Ended exchanges →
          exchanges.flatMap (fun exchange => shownFiles exchange.page) = matchingFiles source id request.filter)) ↔
      ∀ exchange ∈ exchanges, FindsAny service source exchange.request id) := by
  refine ⟨fun result ok => denies_iff isView isId ok,?_⟩
  intro exchanges follows
  have each (exchange : CoverageExchange) (member : exchange ∈ exchanges) :
      (Denies exchange.page → matchingFiles source id request.filter = []) ↔ FindsAny service source exchange.request id := by
    obtain ⟨⟨cursor,itemLimit,scanLimit,isRequest⟩,ok⟩ := follows.answers member
    rw [← denies_iff (isRequest ▸ isView) (isRequest ▸ isId) ok,isRequest]
    rfl
  constructor
  · intro honest exchange member
    exact (each exchange member).mp (honest.1 exchange member)
  · intro finds
    exact ⟨fun exchange member => (each exchange member).mpr (finds exchange member),finds_complete isView isId follows finds⟩

end

def askCoverage (filter : Option (List Char)) (cursor : Option (List Char)) (scanLimit : Nat) : CoverageExchange :=
  let request := resumed (coverageOf filter) cursor 1 scanLimit
  ⟨request,(plainService.inspect twoFiles request).toOption.getD (.new none (.log []) none none none false [])⟩

/-- One file matches and is the second one; a request that reads one file is told
that there is no coverage, and no further page is named. -/
theorem coverage_denied :
    (viewServer plainService twoFiles (coverageOf (some ['b']))).Follows none [askCoverage (some ['b']) none 1] ∧
    (viewServer plainService twoFiles (coverageOf (some ['b']))).Ended [askCoverage (some ['b']) none 1] ∧
    shown (askCoverage (some ['b']) none 1).page.items = [.coverage (.unavailable ⟨"coverage_artifact_not_found",none⟩)] ∧
    matchingFiles twoFiles 1 (some ['b']) = [⟨"b",1,1,0⟩] := by
  refine ⟨.last rfl ⟨⟨none,1,1,rfl⟩,by decide +kernel⟩,⟨_,rfl,by decide +kernel⟩,by decide +kernel,by decide +kernel⟩

def behindFirst : List Char :=
  recordCursor Plain.form (ordinalContext Plain.form "coverage_files".toList (named 1).toList none) 1

/-- Two requests of one file each read the two files. -/
theorem coverage_shown :
    [askCoverage none none 1,askCoverage none (some behindFirst) 1].flatMap (fun exchange => shownFiles exchange.page) =
      [⟨"a",1,1,0⟩,⟨"b",1,1,0⟩] := by
  have follows : (viewServer plainService twoFiles (coverageOf none)).Follows none
      [askCoverage none none 1,askCoverage none (some behindFirst) 1] :=
    .more rfl ⟨⟨none,1,1,rfl⟩,by decide +kernel⟩ (by decide +kernel : _ = some (some behindFirst))
      (.last rfl ⟨⟨some behindFirst,1,1,rfl⟩,by decide +kernel⟩)
  have finds : ∀ exchange ∈ [askCoverage none none 1,askCoverage none (some behindFirst) 1],
      FindsAny plainService twoFiles exchange.request 1 := by
    simp only [forall_mem_cons,not_mem_nil,false_implies,implies_true,and_true]
    exact ⟨.inr ⟨⟨"a",1,1,0⟩,by decide +kernel,rfl⟩,.inr ⟨⟨"b",1,1,0⟩,by decide +kernel,rfl⟩⟩
  have honest := ((coverage_honest_iff plainService twoFiles (coverageOf none) 1 rfl rfl).2 _ follows).mpr finds
  exact (honest.2 ⟨_,rfl,by decide +kernel⟩).trans (by decide +kernel)

end BazelMcp.CoverageView

import BazelMcp.Cursors
import BazelMcp.Listing
import BazelMcp.StoreIndex

/-! Listings of the index: the invocation ledger and the deferred results, both
newest first, page by page, over an index that changes between the pages. -/
namespace BazelMcp
open StoreIndex Cursors Listing Function List Index OrderedSet

def InvocationState.asStr : InvocationState → String
  | .queued => "queued"
  | .starting => "starting"
  | .running => "running"
  | .succeeded => "succeeded"
  | .failed => "failed"
  | .cancelled => "cancelled"
  | .timedOut => "timed_out"
  | .interrupted => "interrupted"

namespace Ledger

structure LedgerFilter where
  workspace : Option String := none
  state : Option InvocationState := none
  command : Option BazelCommand := none
  deriving DecidableEq

def LedgerFilter.selects (filter : LedgerFilter) (entry : IndexEntry) : Bool :=
  filter.state.all (entry.record.state = ·) && filter.command.all (entry.record.request.command = ·)

/-- Whether a key comes after the cursor's in a descending listing; identifiers are compared as texts. -/
def follows (cursor : Option (Int × Uuid)) (time : Int) (id : Uuid) : Bool :=
  cursor.all fun (after,last) => time < after || (time = after && id.text < last.text)

structure ListState (α : Type) where
  items : List α := []
  itemCursors : List (List Char) := []
  continuation : Option (List Char) := none
  scanned : Nat := 0
  truncated : Bool := false

def ListState.page {α : Type} (state : ListState α) : Page α where
  items := state.items
  nextCursor := if state.truncated then state.continuation else none
  truncated := state.truncated
  itemCursors := state.itemCursors

/-- One more key was scanned, and its item shown if it matches. -/
def ListState.scan {α : Type} (state : ListState α) (cursor : List Char) (item : Option α) : ListState α :=
  { state with
    items := state.items ++ item.toList
    itemCursors := state.itemCursors ++ (item.map fun _ => cursor).toList
    continuation := some cursor
    scanned := state.scanned+1 }

section Lists
variable {Context : Type} [DecidableEq Context] (form : CursorForm Context) (index : Index)

def ledgerContext (filter : LedgerFilter) : Context :=
  invocationContext form (filter.workspace.map String.toList) (filter.state.map fun state => state.asStr.toList)
    (filter.command.map fun command => command.asStr.toList)

def listLoop (filter : LedgerFilter) (cursor : Option (Int × Uuid)) (itemLimit scanLimit : Nat) :
    List Key → ListState InvocationHeader → ListState InvocationHeader
  | [], state => state
  | key::rest, state =>
    let (time,id) := ofLex key
    if !follows cursor time id then listLoop filter cursor itemLimit scanLimit rest state
    else if state.scanned = scanLimit then {state with truncated := true}
    else
      match index.lookup id with
      | none => listLoop filter cursor itemLimit scanLimit rest state
      | some entry =>
        let selected := filter.selects entry
        if selected && state.items.length = itemLimit then {state with truncated := true}
        else
          listLoop filter cursor itemLimit scanLimit rest
            (state.scan (form.encode (.invocation (ledgerContext form filter) time id))
              (if selected then some entry.record else none))

def ordered (filter : LedgerFilter) : OrderedSet Key :=
  match filter.workspace with
  | some workspace => (index.byWorkspace workspace).getD ∅
  | none => index.byRequested

-- The scan limit is clamped to a range that a large item limit makes empty; the clamp then panics.
def listInvocations (filter : LedgerFilter) (page : PageRequest) : Except StoreError (Page InvocationHeader) :=
  let leastScanned := max page.itemLimit 1
  if 20000 < leastScanned then .error .panicked
  else
    match resume form invocationPart (ledgerContext form filter) page.cursor with
    | .error error => .error error
    | .ok cursor =>
      .ok (listLoop form index filter cursor (max 1 (min page.itemLimit 200)) (max leastScanned (min page.scanLimit 20000))
        (ordered index filter).keys {}).page

structure DeferredResultView where
  deferred : DeferredResultRecord
  invocation : InvocationHeader
  deriving DecidableEq

def deferredSelects (retrieval : DeferredRetrieval) (nowMs : Int) (entry : IndexEntry) (deferred : DeferredResultRecord) : Bool :=
  deferred.retrieval = retrieval && !deferred.isExpired nowMs entry.record.state.isTerminal

def deferredLoop (retrieval : DeferredRetrieval) (nowMs : Int) (cursor : Option (Int × Uuid)) (itemLimit scanLimit : Nat) :
    List Key → ListState DeferredResultView → ListState DeferredResultView
  | [], state => state
  | key::rest, state =>
    match index.lookup (ofLex key).2 with
    | none => deferredLoop retrieval nowMs cursor itemLimit scanLimit rest state
    | some entry =>
      match entry.deferred with
      | none => deferredLoop retrieval nowMs cursor itemLimit scanLimit rest state
      | some deferred =>
        if !follows cursor deferred.createdAtMs deferred.invocationId then
          deferredLoop retrieval nowMs cursor itemLimit scanLimit rest state
        else if state.scanned = scanLimit then {state with truncated := true}
        else
          let selected := deferredSelects retrieval nowMs entry deferred
          if selected && state.items.length = itemLimit then {state with truncated := true}
          else
            deferredLoop retrieval nowMs cursor itemLimit scanLimit rest
              (state.scan (form.encode (.deferred (deferredContext form retrieval.asStr.toList) deferred.createdAtMs
                deferred.invocationId)) (if selected then some ⟨deferred,entry.record⟩ else none))

def listDeferredResults (retrieval : DeferredRetrieval) (nowMs : Int) (page : PageRequest) :
    Except StoreError (Page DeferredResultView) :=
  let leastScanned := max page.itemLimit 1
  if 20000 < leastScanned then .error .panicked
  else
    match resume form deferredPart (deferredContext form retrieval.asStr.toList) page.cursor with
    | .error error => .error error
    | .ok cursor =>
      .ok (deferredLoop form index retrieval nowMs cursor (max 1 (min page.itemLimit 200))
        (max leastScanned (min page.scanLimit 20000)) index.deferredByCreated.keys {}).page

end Lists

/-! ### Changes of the index between pages -/

inductive Change where
  | insert (entry : IndexEntry)
  | replace (entry : IndexEntry)
  | remove (id : Uuid)
  | refresh (loaded : List IndexEntry)

namespace Change

def apply (index : Index) : Change → Index
  | .insert entry => index.insert entry.record.id entry
  | .replace entry => index.replace entry.record.id entry
  | .remove id => index.remove id
  | .refresh loaded =>
    Index.mergePendingTelemetry index (loaded.foldl (fun fresh entry => fresh.insert entry.record.id entry) {})

def entries : Change → List IndexEntry
  | .insert entry | .replace entry => [entry]
  | .remove _ => []
  | .refresh loaded => loaded

end Change

structure Round where
  changes : List Change := []
  itemLimit : Nat
  scanLimit : Nat
  nowMs : Int := 0

structure Visit (α : Type) where
  round : Round
  index : Index
  page : Page α

/-- The pages a client gets that always resumes from the last page's cursor. -/
def follow {α : Type} (list : Round → Index → PageRequest → Except StoreError (Page α)) :
    Index → Option (List Char) → List Round → List (Visit α)
  | _, _, [] => []
  | index, cursor, round::rest =>
    let index := round.changes.foldl Change.apply index
    match list round index ⟨cursor,round.itemLimit,round.scanLimit⟩ with
    | .error _ => []
    | .ok page =>
      ⟨round,index,page⟩::match page.nextCursor with
        | none => []
        | some next => follow list index (some next) rest

def items {α : Type} (visits : List (Visit α)) : List α := visits.flatMap fun visit => visit.page.items

def Ended {α : Type} (visits : List (Visit α)) : Prop :=
  ∃ last, visits.getLast? = some last ∧ last.page.nextCursor = none

/-! ### Times that do not change -/

structure Times where
  requested : Uuid → Int
  created : Uuid → Int

def Times.Hold (times : Times) (entry : IndexEntry) : Prop :=
  entry.requested = times.requested entry.record.id ∧
    ∀ deferred, entry.deferred = some deferred →
      deferred.invocationId = entry.record.id ∧ deferred.createdAtMs = times.created entry.record.id

def Stamped (time : Uuid → Int) (keys : OrderedSet Key) : Prop := ∀ found ∈ keys, found = key (time (ofLex found).2) (ofLex found).2

theorem stamped_empty (time : Uuid → Int) : Stamped time ∅ := by
  intro found absent
  cases absent

theorem stamped_insert {time : Uuid → Int} {keys : OrderedSet Key} (stamped : Stamped time keys) (id : Uuid) :
    Stamped time (keys.insert (key (time id) id)) := by
  intro found member
  rcases mem_insert.mp member with rfl | member
  · rfl
  · exact stamped found member

theorem stamped_erase {time : Uuid → Int} {keys : OrderedSet Key} (stamped : Stamped time keys) (gone : Key) :
    Stamped time (keys.erase gone) := fun found member => stamped found (mem_erase.mp member).2

theorem key_ne {time later : Int} {id other : Uuid} (different : other ≠ id) : key time other ≠ key later id := by
  intro same
  exact different (congrArg (fun found => (ofLex found).2) same)

-- Sets may keep keys of entries that are gone; what matters is that no entry is missing and no time is wrong.
structure Listed (times : Times) (index : Index) : Prop where
  held : ∀ id entry, index.lookup id = some entry → entry.record.id = id ∧ times.Hold entry
  requestedTimes : Stamped times.requested index.byRequested
  requestedAll : ∀ id entry, index.lookup id = some entry → key (times.requested id) id ∈ index.byRequested
  workspaceTimes : ∀ workspace, Stamped times.requested ((index.byWorkspace workspace).getD ∅)
  workspaceAll : ∀ id entry, index.lookup id = some entry →
    key (times.requested id) id ∈ (index.byWorkspace entry.workspace).getD ∅
  deferredTimes : Stamped times.created index.deferredByCreated
  deferredAll : ∀ id entry, index.lookup id = some entry → entry.deferred.isSome →
    key (times.created id) id ∈ index.deferredByCreated

namespace Listed
variable {times : Times} {index : Index}

theorem empty : Listed times {} where
  held _ _ impossible := by cases impossible
  requestedTimes := stamped_empty _
  requestedAll _ _ impossible := by cases impossible
  workspaceTimes _ := stamped_empty _
  workspaceAll _ _ impossible := by cases impossible
  deferredTimes := stamped_empty _
  deferredAll _ _ impossible := by cases impossible

variable (previous : Option IndexEntry) {entry : IndexEntry}

theorem hold_inherit (holds : times.Hold entry) : times.Hold (inherit previous entry) := by
  cases previous with
  | none | some previous => exact holds

theorem id_inherit (entry : IndexEntry) : (inherit previous entry).record.id = entry.record.id := by
  cases previous with
  | none | some previous => rfl

section
variable (listed : Listed times index)
include listed

theorem put (holds : times.Hold entry) : Listed times (index.put entry.record.id entry) := by
  have created (deferred : DeferredResultRecord) (same : entry.deferred = some deferred) :
      entry.created = some (times.created entry.record.id) := by
    simp [IndexEntry.created,same,(holds.2 deferred same).2]
  constructor
  · intro id found isFound
    by_cases same : id = entry.record.id
    · subst same
      rw [lookup_put_self] at isFound
      cases isFound
      exact ⟨rfl,holds⟩
    · rw [lookup_put_other _ _ _ _ same] at isFound
      exact listed.held id found isFound
  · change Stamped _ (index.byRequested.insert (key entry.requested entry.record.id))
    rw [holds.1]
    exact stamped_insert listed.requestedTimes _
  · intro id found isFound
    change _ ∈ index.byRequested.insert (key entry.requested entry.record.id)
    by_cases same : id = entry.record.id
    · subst same
      rw [holds.1]
      exact mem_insert.mpr (.inl rfl)
    · rw [lookup_put_other _ _ _ _ same] at isFound
      exact mem_insert.mpr (.inr (listed.requestedAll id found isFound))
  · intro workspace
    change Stamped _ ((update index.byWorkspace entry.workspace _ workspace).getD ∅)
    by_cases same : workspace = entry.workspace
    · subst same
      rw [update_self,Option.getD_some,holds.1]
      exact stamped_insert (listed.workspaceTimes _) _
    · rw [update_of_ne same]
      exact listed.workspaceTimes workspace
  · intro id found isFound
    change _ ∈ (update index.byWorkspace entry.workspace _ found.workspace).getD ∅
    have old (other : id ≠ entry.record.id) :
        key (times.requested id) id ∈ (index.byWorkspace found.workspace).getD ∅ := by
      rw [lookup_put_other _ _ _ _ other] at isFound
      exact listed.workspaceAll id found isFound
    by_cases sameSpace : found.workspace = entry.workspace
    · rw [sameSpace,update_self,Option.getD_some,holds.1]
      by_cases same : id = entry.record.id
      · rw [same]
        exact mem_insert.mpr (.inl rfl)
      · exact mem_insert.mpr (.inr (sameSpace ▸ old same))
    · rw [update_of_ne sameSpace]
      apply old
      intro same
      rw [same,lookup_put_self] at isFound
      cases isFound
      exact sameSpace rfl
  · change Stamped _ (addKey index.deferredByCreated entry.created entry.record.id)
    cases present : entry.deferred with
    | none => simpa [addKey,IndexEntry.created,present] using listed.deferredTimes
    | some deferred =>
      rw [created deferred present]
      exact stamped_insert listed.deferredTimes _
  · intro id found isFound isDeferred
    change _ ∈ addKey index.deferredByCreated entry.created entry.record.id
    by_cases same : id = entry.record.id
    · subst same
      rw [lookup_put_self] at isFound
      cases isFound
      obtain ⟨deferred,present⟩ := Option.isSome_iff_exists.mp isDeferred
      rw [created deferred present]
      exact mem_insert.mpr (.inl rfl)
    · rw [lookup_put_other _ _ _ _ same] at isFound
      have member := listed.deferredAll id found isFound isDeferred
      unfold addKey
      split
      · exact mem_insert.mpr (.inr member)
      · exact member

theorem take (id : Uuid) (entry : IndexEntry) : Listed times (index.take id entry) := by
  have kept {other : Uuid} {found : IndexEntry} (isFound : (index.take id entry).lookup other = some found) :
      other ≠ id ∧ index.lookup other = some found := by
    by_cases same : other = id
    · rw [same,lookup_take_self] at isFound
      cases isFound
    · rw [lookup_take_other _ _ _ _ same] at isFound
      exact ⟨same,isFound⟩
  have spaces (workspace : String) : ((index.take id entry).byWorkspace workspace).getD ∅ =
      if workspace = entry.workspace then ((index.byWorkspace workspace).getD ∅).erase (key entry.requested id)
      else (index.byWorkspace workspace).getD ∅ := by
    change (update index.byWorkspace entry.workspace _ workspace).getD ∅ = _
    by_cases same : workspace = entry.workspace
    · subst same
      rw [update_self,if_pos rfl]
      cases index.byWorkspace entry.workspace with
      | none => rfl
      | some keys =>
        simp only [Option.bind_some,Option.getD_some]
        split
        · rename_i gone
          rw [gone]
          rfl
        · rfl
    · rw [update_of_ne same,if_neg same]
  constructor
  · intro other found isFound
    exact listed.held other found (kept isFound).2
  · exact stamped_erase listed.requestedTimes _
  · intro other found isFound
    exact mem_erase.mpr ⟨key_ne (kept isFound).1,listed.requestedAll other found (kept isFound).2⟩
  · intro workspace
    rw [spaces]
    split
    · exact stamped_erase (listed.workspaceTimes workspace) _
    · exact listed.workspaceTimes workspace
  · intro other found isFound
    have member := listed.workspaceAll other found (kept isFound).2
    rw [spaces]
    split
    · exact mem_erase.mpr ⟨key_ne (kept isFound).1,member⟩
    · exact member
  · change Stamped _ (removeKey index.deferredByCreated entry.created id)
    unfold removeKey
    split
    · exact stamped_erase listed.deferredTimes _
    · exact listed.deferredTimes
  · intro other found isFound isDeferred
    have member := listed.deferredAll other found (kept isFound).2 isDeferred
    change _ ∈ removeKey index.deferredByCreated entry.created id
    unfold removeKey
    split
    · exact mem_erase.mpr ⟨key_ne (kept isFound).1,member⟩
    · exact member

theorem replace (holds : times.Hold entry) : Listed times (index.replace entry.record.id entry) := by
  unfold Index.replace
  split
  · rename_i previous _
    have succeeded : times.Hold (succeed previous entry) := holds
    exact (listed.take entry.record.id previous).put succeeded
  · exact listed.put holds

theorem remove (id : Uuid) : Listed times (index.remove id) := by
  unfold Index.remove
  split
  · exact listed.take id _
  · exact listed

theorem merge (previous : Index) : Listed times (mergePendingTelemetry previous index) := by
  have source {id : Uuid} {found : IndexEntry} (isFound : (mergePendingTelemetry previous index).lookup id = some found) :
      ∃ entry, index.lookup id = some entry ∧ found = inherit (previous.lookup id) entry := by
    rw [lookup_mergePendingTelemetry] at isFound
    obtain ⟨entry,present,same⟩ := Option.map_eq_some_iff.mp isFound
    exact ⟨entry,present,same.symm⟩
  have workspace_inherit (previous : Option IndexEntry) (entry : IndexEntry) :
      (inherit previous entry).workspace = entry.workspace := by cases previous <;> rfl
  have deferred_inherit (previous : Option IndexEntry) (entry : IndexEntry) :
      (inherit previous entry).deferred = entry.deferred := by cases previous <;> rfl
  constructor
  · intro id found isFound
    obtain ⟨entry,present,rfl⟩ := source isFound
    obtain ⟨named,holds⟩ := listed.held id entry present
    exact ⟨(id_inherit _ _).trans named,hold_inherit _ holds⟩
  · exact listed.requestedTimes
  · intro id found isFound
    obtain ⟨entry,present,-⟩ := source isFound
    exact listed.requestedAll id entry present
  · exact listed.workspaceTimes
  · intro id found isFound
    obtain ⟨entry,present,rfl⟩ := source isFound
    rw [workspace_inherit]
    exact listed.workspaceAll id entry present
  · exact listed.deferredTimes
  · intro id found isFound isDeferred
    obtain ⟨entry,present,rfl⟩ := source isFound
    rw [deferred_inherit] at isDeferred
    exact listed.deferredAll id entry present isDeferred

end

theorem loaded (entries : List IndexEntry) (hold : ∀ entry ∈ entries, times.Hold entry) :
    Listed times (entries.foldl (fun fresh entry => fresh.insert entry.record.id entry) {}) :=
  foldlRecOn entries _ empty fun _ listed entry member => listed.put (hold entry member)

theorem apply (listed : Listed times index) (change : Change) (hold : ∀ entry ∈ change.entries, times.Hold entry) :
    Listed times (change.apply index) := by
  cases change with
  | insert entry => exact listed.put (hold entry mem_cons_self)
  | replace entry => exact listed.replace (hold entry mem_cons_self)
  | remove id => exact listed.remove id
  | refresh entries => exact (loaded entries hold).merge index

theorem changes (listed : Listed times index) (changes : List Change)
    (hold : ∀ change ∈ changes, ∀ entry ∈ change.entries, times.Hold entry) : Listed times (changes.foldl Change.apply index) :=
  foldlRecOn changes _ listed fun _ kept change member => kept.apply change (hold change member)

end Listed

/-! ### One page -/

def cursorKey (cursor : Option (Int × Uuid)) : Option Key := cursor.map fun position => key position.1 position.2

theorem follows_iff (cursor : Option (Int × Uuid)) (time : Int) (id : Uuid) :
    follows cursor time id = true ↔ Below (cursorKey cursor) (key time id) := by
  cases cursor with
  | none => exact ⟨fun _ => below_none _,fun _ => rfl⟩
  | some position =>
    obtain ⟨after,last⟩ := position
    have less : key time id < key after last ↔ time < after ∨ time = after ∧ id < last := Prod.Lex.toLex_lt_toLex
    simp only [follows,Option.all_some,Bool.or_eq_true,decide_eq_true_eq,Bool.and_eq_true,Uuid.text_lt,cursorKey,
      Option.map_some]
    constructor
    · intro holds bound same
      cases same
      exact less.mpr holds
    · intro below
      exact less.mp (below _ rfl)

section Loop
variable {α : Type} (visible : Key → Prop) (after : Option Key) (keyOf : α → Key) (text : Key → List Char)

/-- A page made from visible keys, which names where it stops. -/
def Lists (page : Page α) : Prop :=
  ∃ next, IsPage visible after (page.items.map keyOf) next ∧ page.nextCursor = next.map text

structure Loop (left : List Key) (state : ListState α) : Prop where
  reading : Reading visible after left (state.items.map keyOf)
  going : state.truncated = false
  fresh : state.continuation = none → state.scanned = 0 ∧ state.items = []
  stops : ∀ cursor, state.continuation = some cursor → ∃ stop, cursor = text stop ∧ Below after stop ∧
    (∀ found ∈ state.items.map keyOf, stop ≤ found) ∧ ∀ found ∈ left, found < stop

variable {visible after keyOf text} {left : List Key} {state : ListState α} {found : Key}

theorem Loop.skip (loop : Loop visible after keyOf text (found::left) state) (hidden : ¬ (visible found ∧ Below after found)) :
    Loop visible after keyOf text left state where
  reading := loop.reading.skip hidden
  going := loop.going
  fresh := loop.fresh
  stops cursor same := by
    obtain ⟨stop,isText,below,lower,upper⟩ := loop.stops cursor same
    exact ⟨stop,isText,below,lower,fun other member => upper other (mem_cons_of_mem _ member)⟩

theorem Loop.scan (loop : Loop visible after keyOf text (found::left) state) (below : Below after found) {item : Option α}
    (shown : ∀ value, item = some value → visible found ∧ keyOf value = found) (hidden : item = none → ¬ visible found) :
    Loop visible after keyOf text left (state.scan (text found) item) := by
  have later : ∀ other ∈ left, other < found := fun other member => rel_of_pairwise_cons loop.reading.sorted member
  have earlier : ∀ other ∈ state.items.map keyOf, found ≤ other :=
    fun other member => le_of_lt (loop.reading.above other member found mem_cons_self)
  cases item with
  | none =>
    have same : (state.scan (text found) none).items = state.items := append_nil _
    refine ⟨?_,loop.going,(by simp [ListState.scan]),?_⟩
    · rw [same]
      exact loop.reading.skip (fun both => hidden rfl both.1)
    · intro cursor isText
      cases isText
      exact ⟨found,rfl,below,by rw [same]; exact earlier,later⟩
  | some value =>
    obtain ⟨isVisible,isKey⟩ := shown value rfl
    have same : (state.scan (text found) (some value)).items.map keyOf = state.items.map keyOf ++ [found] := by
      simp [ListState.scan,isKey]
    refine ⟨?_,loop.going,(by simp [ListState.scan]),?_⟩
    · rw [same]
      exact loop.reading.take isVisible below
    intro cursor isText
    cases isText
    refine ⟨found,rfl,below,?_,later⟩
    rw [same]
    intro other member
    rcases mem_append.mp member with member | isFound
    · exact earlier other member
    · rw [mem_singleton.mp isFound]

theorem Loop.finish (loop : Loop visible after keyOf text [] state) : Lists visible after keyOf text state.page :=
  ⟨none,loop.reading.finish,by simp [ListState.page,loop.going]⟩

theorem Loop.cut (loop : Loop visible after keyOf text left state) (begun : state.scanned ≠ 0 ∨ state.items ≠ []) :
    Lists visible after keyOf text ({state with truncated := true} : ListState α).page := by
  cases continued : state.continuation with
  | none =>
    obtain ⟨unscanned,unshown⟩ := loop.fresh continued
    rcases begun with scanned | shown
    · exact absurd unscanned scanned
    · exact absurd unshown shown
  | some cursor =>
    obtain ⟨stop,isText,below,lower,upper⟩ := loop.stops cursor continued
    refine ⟨some stop,loop.reading.cut below lower upper,?_⟩
    simp [ListState.page,isText]

theorem Loop.start (keys : OrderedSet Key) (listed : ∀ found, visible found → found ∈ keys) :
    Loop visible after keyOf text keys.keys ({} : ListState α) where
  reading := Reading.start _ keys.sorted listed
  going := rfl
  fresh _ := ⟨rfl,rfl⟩
  stops _ impossible := nomatch impossible

end Loop

section Pages
variable {Context : Type} (form : CursorForm Context) {times : Times} {index : Index}

def ledgerVisible (filter : LedgerFilter) (index : Index) (found : Key) : Prop :=
  found ∈ ordered index filter ∧ ∃ entry, index.lookup (ofLex found).2 = some entry ∧ filter.selects entry = true

def headerKey (header : InvocationHeader) : Key := key header.request.requestedAtMs header.id

def ledgerCursor (filter : LedgerFilter) (found : Key) : List Char :=
  form.encode (.invocation (ledgerContext form filter) (ofLex found).1 (ofLex found).2)

def deferredVisible (retrieval : DeferredRetrieval) (nowMs : Int) (index : Index) (found : Key) : Prop :=
  found ∈ index.deferredByCreated ∧ ∃ entry deferred, index.lookup (ofLex found).2 = some entry ∧
    entry.deferred = some deferred ∧ deferredSelects retrieval nowMs entry deferred = true

def viewKey (view : DeferredResultView) : Key := key view.deferred.createdAtMs view.deferred.invocationId

def deferredCursor (retrieval : DeferredRetrieval) (found : Key) : List Char :=
  form.encode (.deferred (deferredContext form retrieval.asStr.toList) (ofLex found).1 (ofLex found).2)

variable (listed : Listed times index)
include listed

theorem ordered_stamped (filter : LedgerFilter) : Stamped times.requested (ordered index filter) := by
  unfold ordered
  split
  · exact listed.workspaceTimes _
  · exact listed.requestedTimes

theorem headerKey_entry {filter : LedgerFilter} {found : Key} {entry : IndexEntry}
    (member : found ∈ ordered index filter) (present : index.lookup (ofLex found).2 = some entry) :
    headerKey entry.record = found := by
  obtain ⟨named,holds,-⟩ := listed.held _ entry present
  have time : entry.record.request.requestedAtMs = times.requested entry.record.id := holds
  rw [headerKey,time,named]
  exact (ordered_stamped listed filter found member).symm

theorem listLoop_lists (filter : LedgerFilter) (cursor : Option (Int × Uuid))
    (itemLimit scanLimit : Nat) (someItems : itemLimit ≠ 0) (someScans : scanLimit ≠ 0) (left : List Key)
    (members : ∀ found ∈ left, found ∈ ordered index filter) (state : ListState InvocationHeader)
    (loop : Loop (ledgerVisible filter index) (cursorKey cursor) headerKey (ledgerCursor form filter) left state) :
    Lists (ledgerVisible filter index) (cursorKey cursor) headerKey (ledgerCursor form filter)
      (listLoop form index filter cursor itemLimit scanLimit left state).page := by
  induction left generalizing state with
  | nil => exact loop.finish
  | cons found left ih =>
    have ih := ih (fun other member => members other (mem_cons_of_mem _ member))
    have isFollowing := follows_iff cursor (ofLex found).1 (ofLex found).2
    simp only [listLoop]
    split
    · rename_i before
      apply ih
      apply loop.skip
      intro given
      obtain ⟨-,below⟩ := given
      rw [isFollowing.mpr below] at before
      cases before
    rename_i reached
    have below : Below (cursorKey cursor) found := isFollowing.mp (by simpa using reached)
    split
    · rename_i spent
      exact loop.cut (.inl (spent ▸ someScans))
    cases present : index.lookup (ofLex found).2 with
    | none =>
      apply ih
      apply loop.skip
      intro given
      obtain ⟨⟨-,entry,isEntry,-⟩,-⟩ := given
      rw [present] at isEntry
      cases isEntry
    | some entry =>
      dsimp only
      split
      · rename_i full
        simp only [Bool.and_eq_true,decide_eq_true_eq] at full
        apply loop.cut
        right
        intro empty
        rw [empty] at full
        exact someItems full.2.symm
      apply ih
      apply loop.scan below
      · intro header shown
        split at shown
        · rename_i selected
          cases shown
          have member := members found mem_cons_self
          exact ⟨⟨member,entry,present,selected⟩,headerKey_entry listed member present⟩
        · cases shown
      intro hidden
      split at hidden
      · cases hidden
      rename_i unselected
      intro given
      obtain ⟨-,other,isOther,selected⟩ := given
      rw [present] at isOther
      cases isOther
      exact unselected selected

theorem deferred_key {found : Key} {entry : IndexEntry} {deferred : DeferredResultRecord}
    (member : found ∈ index.deferredByCreated) (present : index.lookup (ofLex found).2 = some entry)
    (isDeferred : entry.deferred = some deferred) : key deferred.createdAtMs deferred.invocationId = found := by
  obtain ⟨named,-,holds⟩ := listed.held _ entry present
  obtain ⟨same,time⟩ := holds deferred isDeferred
  rw [time,same,named]
  exact (listed.deferredTimes found member).symm

theorem deferredLoop_lists (retrieval : DeferredRetrieval) (nowMs : Int)
    (cursor : Option (Int × Uuid)) (itemLimit scanLimit : Nat) (someItems : itemLimit ≠ 0) (someScans : scanLimit ≠ 0)
    (left : List Key) (members : ∀ found ∈ left, found ∈ index.deferredByCreated) (state : ListState DeferredResultView)
    (loop : Loop (deferredVisible retrieval nowMs index) (cursorKey cursor) viewKey (deferredCursor form retrieval) left state) :
    Lists (deferredVisible retrieval nowMs index) (cursorKey cursor) viewKey (deferredCursor form retrieval)
      (deferredLoop form index retrieval nowMs cursor itemLimit scanLimit left state).page := by
  induction left generalizing state with
  | nil => exact loop.finish
  | cons found left ih =>
    have ih := ih (fun other member => members other (mem_cons_of_mem _ member))
    have member := members found mem_cons_self
    simp only [deferredLoop]
    cases present : index.lookup (ofLex found).2 with
    | none =>
      apply ih
      apply loop.skip
      intro given
      obtain ⟨⟨-,entry,-,isEntry,-⟩,-⟩ := given
      rw [present] at isEntry
      cases isEntry
    | some entry =>
      dsimp only
      cases isDeferred : entry.deferred with
      | none =>
        apply ih
        apply loop.skip
        intro given
        obtain ⟨⟨-,other,deferred,isEntry,shown,-⟩,-⟩ := given
        rw [present] at isEntry
        cases isEntry
        rw [isDeferred] at shown
        cases shown
      | some deferred =>
        dsimp only
        have same := deferred_key listed member present isDeferred
        have isFollowing := follows_iff cursor deferred.createdAtMs deferred.invocationId
        rw [same] at isFollowing
        have isCursor : form.encode (.deferred (deferredContext form retrieval.asStr.toList) deferred.createdAtMs
            deferred.invocationId) = deferredCursor form retrieval found := by rw [deferredCursor,← same]; rfl
        rw [isCursor]
        split
        · rename_i before
          apply ih
          apply loop.skip
          intro given
          obtain ⟨-,below⟩ := given
          rw [isFollowing.mpr below] at before
          cases before
        rename_i reached
        have below : Below (cursorKey cursor) found := isFollowing.mp (by simpa using reached)
        split
        · rename_i spent
          exact loop.cut (.inl (spent ▸ someScans))
        split
        · rename_i full
          simp only [Bool.and_eq_true,decide_eq_true_eq] at full
          apply loop.cut
          right
          intro empty
          rw [empty] at full
          exact someItems full.2.symm
        apply ih
        apply loop.scan below
        · intro view shown
          split at shown
          · rename_i selected
            cases shown
            exact ⟨⟨member,entry,deferred,present,isDeferred,selected⟩,same⟩
          · cases shown
        intro hidden
        split at hidden
        · cases hidden
        rename_i unselected
        intro given
        obtain ⟨-,other,found,isOther,isFound,selected⟩ := given
        rw [present] at isOther
        cases isOther
        rw [isDeferred] at isFound
        cases isFound
        exact unselected selected

variable [DecidableEq Context]

theorem listInvocations_lists (filter : LedgerFilter) (after : Option Key)
    {itemLimit scanLimit : Nat} {page : Page InvocationHeader}
    (ok : listInvocations form index filter ⟨after.map (ledgerCursor form filter),itemLimit,scanLimit⟩ = .ok page) :
    Lists (ledgerVisible filter index) after headerKey (ledgerCursor form filter) page := by
  have resumed : resume form invocationPart (ledgerContext form filter) (after.map (ledgerCursor form filter)) =
      .ok (after.map ofLex) := resume_map (fun _ => resume_encode rfl) after
  have same : cursorKey (after.map ofLex) = after := by
    cases after with
    | none | some found => rfl
  simp only [listInvocations,resumed] at ok
  split at ok
  · cases ok
  cases ok
  have looped := listLoop_lists form listed filter (after.map ofLex) (max 1 (min itemLimit 200))
    (max (max itemLimit 1) (min scanLimit 20000)) (by omega) (by omega) (ordered index filter).keys
    (fun _ member => member) {} (Loop.start (ordered index filter) (fun _ isVisible => isVisible.1))
  rw [same] at looped
  exact looped

theorem listDeferredResults_lists (retrieval : DeferredRetrieval) (nowMs : Int)
    (after : Option Key) {itemLimit scanLimit : Nat} {page : Page DeferredResultView}
    (ok : listDeferredResults form index retrieval nowMs ⟨after.map (deferredCursor form retrieval),itemLimit,scanLimit⟩ = .ok page) :
    Lists (deferredVisible retrieval nowMs index) after viewKey (deferredCursor form retrieval) page := by
  have resumed : resume form deferredPart (deferredContext form retrieval.asStr.toList)
      (after.map (deferredCursor form retrieval)) = .ok (after.map ofLex) := resume_map (fun _ => resume_encode rfl) after
  have same : cursorKey (after.map ofLex) = after := by
    cases after with
    | none | some found => rfl
  simp only [listDeferredResults,resumed] at ok
  split at ok
  · cases ok
  cases ok
  have looped := deferredLoop_lists form listed retrieval nowMs (after.map ofLex) (max 1 (min itemLimit 200))
    (max (max itemLimit 1) (min scanLimit 20000)) (by omega) (by omega) index.deferredByCreated.keys
    (fun _ member => member) {} (Loop.start index.deferredByCreated (fun _ isVisible => isVisible.1))
  rw [same] at looped
  exact looped

end Pages

/-! ### Chains of pages -/

section Follow
variable {α : Type} {times : Times} {list : Round → Index → PageRequest → Except StoreError (Page α)}
  {visible : Round → Index → Key → Prop} {keyOf : α → Key} {text : Key → List Char}

def shownPages (visible : Round → Index → Key → Prop) (keyOf : α → Key) (visits : List (Visit α)) :
    List ((Key → Prop) × List Key) :=
  visits.map fun visit => (visible visit.round visit.index,visit.page.items.map keyOf)

theorem allShown_pages (visible : Round → Index → Key → Prop) (keyOf : α → Key) (visits : List (Visit α)) :
    allShown (shownPages visible keyOf visits) = (items visits).map keyOf := by
  simp [allShown,shownPages,items,flatMap_map,map_flatMap]

variable (rounds : List Round) (hold : ∀ round ∈ rounds, ∀ change ∈ round.changes, ∀ entry ∈ change.entries, times.Hold entry)
include hold

theorem follow_listed (index : Index) (listed : Listed times index) (cursor : Option (List Char)) :
    ∀ visit ∈ follow list index cursor rounds, Listed times visit.index := by
  induction rounds generalizing index cursor with
  | nil =>
    intro visit impossible
    cases impossible
  | cons round rest ih =>
    have changed := listed.changes round.changes (hold round mem_cons_self)
    intro visit member
    simp only [follow] at member
    split at member
    · cases member
    rcases mem_cons.mp member with same | later
    · rw [same]
      exact changed
    · split at later
      · cases later
      · exact ih (fun other isOther => hold other (mem_cons_of_mem _ isOther)) _ changed _ visit later

variable (pages : ∀ round index after page, Listed times index →
  list round index ⟨after.map text,round.itemLimit,round.scanLimit⟩ = .ok page → Lists (visible round index) after keyOf text page)
include pages

theorem follow_chain (index : Index) (listed : Listed times index) (after : Option Key) :
    follow list index (after.map text) rounds = [] ∨
      ∃ last, Chain after (shownPages visible keyOf (follow list index (after.map text) rounds)) last ∧
        (Ended (follow list index (after.map text) rounds) → last = none) := by
  induction rounds generalizing index after with
  | nil => exact .inl rfl
  | cons round rest ih =>
    have changed := listed.changes round.changes (hold round mem_cons_self)
    simp only [follow]
    cases made : list round (round.changes.foldl Change.apply index) ⟨after.map text,round.itemLimit,round.scanLimit⟩ with
    | error error => exact .inl rfl
    | ok page =>
      right
      obtain ⟨next,isPage,cursor⟩ := pages round _ after page changed made
      dsimp only
      rw [cursor]
      cases next with
      | none => exact ⟨none,Chain.single isPage,fun _ => rfl⟩
      | some stop =>
        have ended := ih (fun other member => hold other (mem_cons_of_mem _ member)) _ changed (some stop)
        simp only [Option.map_some] at ended ⊢
        rcases ended with nothing | ⟨last,chain,finished⟩
        · rw [nothing]
          refine ⟨some stop,Chain.single isPage,?_⟩
          intro given
          obtain ⟨visit,isLast,ended⟩ := given
          cases Option.some.inj isLast
          exact absurd (cursor.symm.trans ended) (by simp)
        refine ⟨last,Chain.cons isPage chain,?_⟩
        intro given
        obtain ⟨visit,isLast,ended⟩ := given
        apply finished
        refine ⟨visit,?_,ended⟩
        cases visits : follow list (round.changes.foldl Change.apply index) (some (text stop)) rest with
        | nil =>
          rw [visits] at chain
          cases chain
        | cons first others =>
          rw [visits] at isLast
          rwa [List.getLast?_cons_cons] at isLast

/-- Along the pages keys descend strictly, and a chain that ran to its end has
shown each key that stayed visible exactly once. -/
theorem follow_complete : ((items (follow list {} none rounds)).map keyOf).Pairwise (· > ·) ∧
      ∀ found, Ended (follow list {} none rounds) →
        (∀ visit ∈ follow list {} none rounds, visible visit.round visit.index found) →
        ((items (follow list {} none rounds)).map keyOf).count found = 1 := by
  have chained := follow_chain rounds hold pages {} Listed.empty none
  simp only [Option.map_none] at chained
  rcases chained with nothing | ⟨last,chain,finished⟩
  · rw [nothing]
    refine ⟨List.Pairwise.nil,?_⟩
    intro found ended _
    obtain ⟨visit,isLast,-⟩ := ended
    cases isLast
  have shown := allShown_pages visible keyOf (follow list {} none rounds)
  rw [← shown]
  refine ⟨chain.descending,?_⟩
  intro found ended stays
  rw [finished ended] at chain
  apply chain.complete (below_none found)
  intro page member
  obtain ⟨visit,isVisit,rfl⟩ := mem_map.mp member
  exact stays visit isVisit

end Follow

section Complete
variable {Context : Type} [DecidableEq Context] (form : CursorForm Context)

def ledgerPages (filter : LedgerFilter) (rounds : List Round) : List (Visit InvocationHeader) :=
  follow (fun _ index page => listInvocations form index filter page) {} none rounds

def deferredPages (retrieval : DeferredRetrieval) (rounds : List Round) : List (Visit DeferredResultView) :=
  follow (fun round index page => listDeferredResults form index retrieval round.nowMs page) {} none rounds

def Present (filter : LedgerFilter) (index : Index) (id : Uuid) : Prop :=
  ∃ entry, index.lookup id = some entry ∧ filter.selects entry = true ∧
    ∀ workspace, filter.workspace = some workspace → entry.workspace = workspace

def DeferredPresent (retrieval : DeferredRetrieval) (nowMs : Int) (index : Index) (id : Uuid) : Prop :=
  ∃ entry deferred, index.lookup id = some entry ∧ entry.deferred = some deferred ∧
    deferredSelects retrieval nowMs entry deferred = true

theorem Present.visible {times : Times} {index : Index} (listed : Listed times index) {filter : LedgerFilter} {id : Uuid}
    (present : Present filter index id) : ledgerVisible filter index (key (times.requested id) id) := by
  obtain ⟨entry,isEntry,selected,inside⟩ := present
  refine ⟨?_,entry,isEntry,selected⟩
  unfold ordered
  split
  · rename_i workspace isWorkspace
    rw [← inside workspace isWorkspace]
    exact listed.workspaceAll id entry isEntry
  · exact listed.requestedAll id entry isEntry

theorem DeferredPresent.visible {times : Times} {index : Index} (listed : Listed times index) {retrieval : DeferredRetrieval}
    {nowMs : Int} {id : Uuid} (present : DeferredPresent retrieval nowMs index id) :
    deferredVisible retrieval nowMs index (key (times.created id) id) := by
  obtain ⟨entry,deferred,isEntry,isDeferred,selected⟩ := present
  exact ⟨listed.deferredAll id entry isEntry (by simp [isDeferred]),entry,deferred,isEntry,isDeferred,selected⟩

/-- The pairs of time and identifier that the pages of a listing return descend
strictly, and an invocation that is present and selected all along is returned
once by a chain that runs to its end, however the index changes in between. -/
theorem listings_complete (times : Times) (rounds : List Round)
    (hold : ∀ round ∈ rounds, ∀ change ∈ round.changes, ∀ entry ∈ change.entries, times.Hold entry) :
    (∀ filter, ((items (ledgerPages form filter rounds)).map headerKey).Pairwise (· > ·) ∧
      ∀ id, Ended (ledgerPages form filter rounds) → (∀ visit ∈ ledgerPages form filter rounds, Present filter visit.index id) →
        ((items (ledgerPages form filter rounds)).map headerKey).count (key (times.requested id) id) = 1) ∧
    ∀ retrieval, ((items (deferredPages form retrieval rounds)).map viewKey).Pairwise (· > ·) ∧
      ∀ id, Ended (deferredPages form retrieval rounds) →
        (∀ visit ∈ deferredPages form retrieval rounds, DeferredPresent retrieval visit.round.nowMs visit.index id) →
        ((items (deferredPages form retrieval rounds)).map viewKey).count (key (times.created id) id) = 1 := by
  constructor
  · intro filter
    have listing := follow_complete rounds hold fun _ _ after _ listed ok => listInvocations_lists form listed filter after ok
    refine ⟨listing.1,?_⟩
    intro id ended stays
    apply listing.2 _ ended
    intro visit member
    exact (stays visit member).visible (follow_listed rounds hold {} Listed.empty none visit member)
  · intro retrieval
    have listing := follow_complete rounds hold fun round _ after _ listed ok =>
      listDeferredResults_lists form listed retrieval round.nowMs after ok
    refine ⟨listing.1,?_⟩
    intro id ended stays
    apply listing.2 _ ended
    intro visit member
    exact (stays visit member).visible (follow_listed rounds hold {} Listed.empty none visit member)

end Complete

def sampleEntry (id : Uuid) : IndexEntry where
  record :=
    { id
      request := {id := String.ofList id.text, workspace := "/w", command := .build, requestedAtMs := 10*id.val}
      named := rfl }
  deferred := some
    { invocationId := id
      retrieval := .inlineResult
      createdAtMs := 10*id.val
      updatedAtMs := 10*id.val
      expiresAtMs := 10*id.val+1 }
  retainedBytes := 1

/-- The newest of two invocations is listed and removed before the second page, when a third has arrived. -/
def sampleRounds : List Round :=
  [⟨[.insert (sampleEntry 1),.insert (sampleEntry 2)],1,1,0⟩,⟨[.insert (sampleEntry 3),.remove 2],5,5,0⟩]

theorem older_sample_listed_once : (items (ledgerPages Plain.form {} sampleRounds)).map InvocationHeader.id = [2,1] ∧
      ((items (ledgerPages Plain.form {} sampleRounds)).map headerKey).count (key 10 1) = 1 := by
  refine ⟨by decide +kernel,?_⟩
  have times : ∀ round ∈ sampleRounds, ∀ change ∈ round.changes, ∀ entry ∈ change.entries,
      Times.Hold ⟨fun id => 10*id.val,fun id => 10*id.val⟩ entry := by
    simp [sampleRounds,Change.entries,Times.Hold,sampleEntry,IndexEntry.requested]
  have ended : Ended (ledgerPages Plain.form {} sampleRounds) := by
    refine ⟨_,rfl,?_⟩
    decide +kernel
  apply ((listings_complete Plain.form _ sampleRounds times).1 {}).2 1 ended
  intro visit member
  have all : (ledgerPages Plain.form {} sampleRounds).all (fun visit => (visit.index.lookup 1).isSome) = true := by
    decide +kernel
  obtain ⟨entry,present⟩ := Option.isSome_iff_exists.mp (all_eq_true.mp all visit member)
  exact ⟨entry,present,rfl,fun _ impossible => nomatch impossible⟩

end Ledger
end BazelMcp

import BazelMcp.StoreWorld

/-! What an index has to be: its ordered sets are derived from its entries, and its
byte count is their sum. Every update keeps this, except an insertion of an entry
that is there already and a sum beyond the machine's integers. -/
namespace BazelMcp.Store
open StoreIndex Function List Index StoreIndex.Index

/-- The set holds the keys of exactly those entries that have the time. -/
def Derived (index : Index) (time : IndexEntry → Option Int) (keys : OrderedSet Key) : Prop :=
  ∀ found, found ∈ keys ↔ ∃ id entry moment, index.lookup id = some entry ∧ time entry = some moment ∧ found = key moment id

theorem key_injective {first second : Int} {id other : Uuid} (same : key first id = key second other) :
    first = second ∧ id = other := ⟨congrArg (fun found => (ofLex found).1) same,congrArg (fun found => (ofLex found).2) same⟩

namespace Derived
variable {index : Index} {time : IndexEntry → Option Int} {keys : OrderedSet Key}

theorem congr {other : Index} (derived : Derived index time keys)
    (same : ∀ id, (other.lookup id).map time = (index.lookup id).map time) : Derived other time keys := by
  have transfer {first second : Index} (same : ∀ id, (second.lookup id).map time = (first.lookup id).map time)
      {id : Uuid} {entry : IndexEntry} (isFound : first.lookup id = some entry) :
      ∃ found, second.lookup id = some found ∧ time found = time entry := by
    have mapped := same id
    rw [isFound,Option.map_some] at mapped
    exact Option.map_eq_some_iff.mp mapped
  intro found
  rw [derived found]
  constructor
  · intro ⟨id,entry,moment,isFound,timed,named⟩
    obtain ⟨entry,isFound,sameTime⟩ := transfer same isFound
    exact ⟨id,entry,moment,isFound,sameTime.trans timed,named⟩
  · intro ⟨id,entry,moment,isFound,timed,named⟩
    obtain ⟨entry,isFound,sameTime⟩ := transfer (fun id => (same id).symm) isFound
    exact ⟨id,entry,moment,isFound,sameTime.trans timed,named⟩

theorem put (derived : Derived index time keys) {id : Uuid} (absent : index.lookup id = none) (entry : IndexEntry) :
    Derived (index.put id entry) time (addKey keys (time entry) id) := by
  have member (found : Key) : found ∈ addKey keys (time entry) id ↔
      (∃ moment, time entry = some moment ∧ found = key moment id) ∨ found ∈ keys := by
    cases time entry with
    | none | some moment => simp [addKey]
  intro found
  rw [member,derived found]
  constructor
  · intro either
    rcases either with ⟨moment,timed,named⟩ | ⟨other,held,moment,isFound,timed,named⟩
    · exact ⟨id,entry,moment,lookup_put_self _ _ _,timed,named⟩
    refine ⟨other,held,moment,?_,timed,named⟩
    rw [lookup_put_other]
    · exact isFound
    · intro same
      rw [same,absent] at isFound
      cases isFound
  · intro ⟨other,held,moment,isFound,timed,named⟩
    by_cases same : other = id
    · subst same
      rw [lookup_put_self] at isFound
      cases isFound
      exact .inl ⟨moment,timed,named⟩
    · rw [lookup_put_other _ _ _ _ same] at isFound
      exact .inr ⟨other,held,moment,isFound,timed,named⟩

theorem take (derived : Derived index time keys) {id : Uuid} {entry : IndexEntry} (present : index.lookup id = some entry) :
    Derived (index.take id entry) time (removeKey keys (time entry) id) := by
  have member (found : Key) : found ∈ removeKey keys (time entry) id ↔
      (∀ moment, time entry = some moment → found ≠ key moment id) ∧ found ∈ keys := by
    cases time entry with
    | none | some moment => simp [removeKey]
  intro found
  rw [member,derived found]
  constructor
  · intro ⟨kept,other,held,moment,isFound,timed,named⟩
    refine ⟨other,held,moment,?_,timed,named⟩
    rw [lookup_take_other]
    · exact isFound
    intro same
    subst same
    rw [present] at isFound
    cases isFound
    exact kept moment timed named
  · intro ⟨other,held,moment,isFound,timed,named⟩
    have different : other ≠ id := by
      intro same
      rw [same,lookup_take_self] at isFound
      cases isFound
    rw [lookup_take_other _ _ _ _ different] at isFound
    refine ⟨?_,other,held,moment,isFound,timed,named⟩
    intro earlier _ same
    exact different (key_injective (named.symm.trans same)).2

end Derived

def requestedIn (workspace : String) (entry : IndexEntry) : Option Int :=
  if entry.workspace = workspace then some entry.requested else none

def Index.total (index : Index) : Nat := index.entries.entries.foldr (fun entry sum => entry.2.retainedBytes+sum) 0

/-- The ordered sets hold the keys of the entries. -/
structure Keyed (index : Index) : Prop where
  requested : Derived index (fun entry => some entry.requested) index.byRequested
  workspaces : ∀ workspace, Derived index (requestedIn workspace) ((index.byWorkspace workspace).getD ∅)
  occupied : ∀ workspace, index.byWorkspace workspace ≠ some ∅
  deferred : Derived index IndexEntry.created index.deferredByCreated
  terminal : Derived index IndexEntry.finished index.terminalByFinished

structure Exact (index : Index) : Prop where
  requested : Derived index (fun entry => some entry.requested) index.byRequested
  workspaces : ∀ workspace, Derived index (requestedIn workspace) ((index.byWorkspace workspace).getD ∅)
  occupied : ∀ workspace, index.byWorkspace workspace ≠ some ∅
  deferred : Derived index IndexEntry.created index.deferredByCreated
  terminal : Derived index IndexEntry.finished index.terminalByFinished
  bytes : Index.total index ≤ u64Max → index.retainedBytes = Index.total index

/-! ### Sums -/

theorem total_take {index : Index} {id : Uuid} {entry : IndexEntry} (present : index.lookup id = some entry) :
    total index = entry.retainedBytes + total (index.take id entry) := by
  obtain ⟨⟨list,nodup⟩,_,_,_,_,_⟩ := index
  change List.dlookup id list = some entry at present
  change list.foldr _ 0 = _ + (list.kerase id).foldr _ 0
  clear nodup
  induction list with
  | nil => cases present
  | cons head rest ih =>
    obtain ⟨first,value⟩ := head
    by_cases same : id = first
    · subst same
      rw [dlookup_cons_eq] at present
      cases present
      have erased : (⟨id,entry⟩::rest : List (Sigma fun _ : Uuid => IndexEntry)).kerase id = rest := kerase_cons_eq rfl
      rw [erased]
      rfl
    · rw [dlookup_cons_ne _ _ same] at present
      rw [kerase_cons_ne same,foldr_cons,foldr_cons,ih present]
      omega

theorem total_put {index : Index} {id : Uuid} (absent : index.lookup id = none) (entry : IndexEntry) :
    total (index.put id entry) = entry.retainedBytes + total index := by
  have fresh : id ∉ index.entries := AList.lookup_eq_none.mp absent
  change (index.entries.insert id entry).entries.foldr _ 0 = _
  rw [AList.entries_insert_of_notMem fresh]
  rfl

theorem total_mapEntries {index : Index} {change : Uuid → IndexEntry → IndexEntry}
    (kept : ∀ id entry, (change id entry).retainedBytes = entry.retainedBytes) :
    total {index with entries := mapEntries change index.entries} = total index := by
  change (index.entries.entries.map _).foldr _ 0 = index.entries.entries.foldr _ 0
  induction index.entries.entries with
  | nil => rfl
  | cons head rest ih => rw [map_cons,foldr_cons,foldr_cons,ih,kept]

/-! ### Updates -/

namespace Keyed
variable {index : Index}

theorem put (keyed : Keyed index) {id : Uuid} (absent : index.lookup id = none) (entry : IndexEntry) :
    Keyed (index.put id entry) where
  requested := keyed.requested.put absent entry
  workspaces workspace := by
    have derived := (keyed.workspaces workspace).put absent entry
    change Derived _ _ ((update index.byWorkspace entry.workspace _ workspace).getD ∅)
    by_cases same : workspace = entry.workspace
    · subst same
      rw [update_self,Option.getD_some]
      rw [requestedIn,if_pos rfl] at derived
      exact derived
    · rw [update_of_ne same]
      rw [requestedIn,if_neg (Ne.symm same)] at derived
      exact derived
  occupied workspace := by
    change update index.byWorkspace entry.workspace _ workspace ≠ some ∅
    by_cases same : workspace = entry.workspace
    · subst same
      rw [update_self]
      intro gone
      have emptied := Option.some.inj gone
      exact OrderedSet.not_mem_empty (key entry.requested id) (emptied ▸ OrderedSet.mem_insert.mpr (.inl rfl))
    · rw [update_of_ne same]
      exact keyed.occupied workspace
  deferred := keyed.deferred.put absent entry
  terminal := keyed.terminal.put absent entry

theorem take (keyed : Keyed index) {id : Uuid} {entry : IndexEntry} (present : index.lookup id = some entry) :
    Keyed (index.take id entry) where
  requested := keyed.requested.take present
  workspaces workspace := by
    have derived := (keyed.workspaces workspace).take present
    change Derived _ _ ((update index.byWorkspace entry.workspace _ workspace).getD ∅)
    by_cases same : workspace = entry.workspace
    · subst same
      rw [requestedIn,if_pos rfl] at derived
      rw [update_self]
      cases held : index.byWorkspace entry.workspace with
      | none =>
        rw [held] at derived
        exact derived
      | some keys =>
        rw [held] at derived
        simp only [Option.bind_some]
        split
        · rename_i gone
          rw [Option.getD_none,← gone]
          exact derived
        · exact derived
    · rw [update_of_ne same]
      rw [requestedIn,if_neg (Ne.symm same)] at derived
      exact derived
  occupied workspace := by
    change update index.byWorkspace entry.workspace _ workspace ≠ some ∅
    by_cases same : workspace = entry.workspace
    · subst same
      rw [update_self]
      intro found
      obtain ⟨keys,_,shrunk⟩ := Option.bind_eq_some_iff.mp found
      dsimp only at shrunk
      split at shrunk
      · cases shrunk
      · rename_i occupied
        exact occupied (Option.some.inj shrunk)
    · rw [update_of_ne same]
      exact keyed.occupied workspace
  deferred := keyed.deferred.take present
  terminal := keyed.terminal.take present

theorem mapEntries (keyed : Keyed index) (bytes : Nat) {change : Uuid → IndexEntry → IndexEntry} (record : ∀ id entry,
      (change id entry).record.request = entry.record.request ∧ (change id entry).record.state = entry.record.state ∧
      (change id entry).record.finishedAtMs = entry.record.finishedAtMs ∧ (change id entry).deferred = entry.deferred) :
    Keyed {index with entries := mapEntries change index.entries, retainedBytes := bytes} := by
  have same {time : IndexEntry → Option Int} (timed : ∀ id entry, time (change id entry) = time entry) (id : Uuid) :
      (lookup {index with entries := StoreIndex.Index.mapEntries change index.entries, retainedBytes := bytes} id).map time =
        (index.lookup id).map time := by
    rw [Index.lookup,StoreIndex.Index.lookup_mapEntries,Option.map_map]
    exact congrArg (Option.map · _) (funext fun entry => timed id entry)
  constructor
  · exact keyed.requested.congr (same fun id entry => by simp [IndexEntry.requested,(record id entry).1])
  · intro workspace
    apply (keyed.workspaces workspace).congr (same _)
    intro id entry
    unfold requestedIn IndexEntry.requested IndexEntry.workspace
    rw [(record id entry).1]
  · exact keyed.occupied
  · exact keyed.deferred.congr (same fun id entry => by simp [IndexEntry.created,(record id entry).2.2.2])
  · exact keyed.terminal.congr
      (same fun id entry => by simp [IndexEntry.finished,(record id entry).2.1,(record id entry).2.2.1])

theorem exact (keyed : Keyed index) (bytes : total index ≤ u64Max → index.retainedBytes = total index) : Exact index :=
  ⟨keyed.requested,keyed.workspaces,keyed.occupied,keyed.deferred,keyed.terminal,bytes⟩

end Keyed

namespace Exact
variable {index : Index}

theorem keyed (exact : Exact index) : Keyed index :=
  ⟨exact.requested,exact.workspaces,exact.occupied,exact.deferred,exact.terminal⟩

theorem empty : Exact {} where
  requested found := by simp
  workspaces _ found := by simp
  occupied _ := by simp
  deferred found := by simp
  terminal found := by simp
  bytes _ := rfl

theorem put (exact : Exact index) {id : Uuid} (absent : index.lookup id = none) (entry : IndexEntry) :
    Exact (index.put id entry) := by
  apply (exact.keyed.put absent entry).exact
  intro fits
  rw [total_put absent] at fits ⊢
  have before := exact.bytes (by omega)
  change saturatingAdd index.retainedBytes entry.retainedBytes = _
  unfold saturatingAdd
  omega

theorem take (exact : Exact index) (fits : total index ≤ u64Max) {id : Uuid} {entry : IndexEntry}
    (present : index.lookup id = some entry) : Exact (index.take id entry) := by
  apply (exact.keyed.take present).exact
  intro _
  have before := exact.bytes fits
  have split := total_take present
  change index.retainedBytes - entry.retainedBytes = _
  omega

theorem mapEntries (exact : Exact index) {change : Uuid → IndexEntry → IndexEntry} (record : ∀ id entry,
      (change id entry).record.request = entry.record.request ∧ (change id entry).record.state = entry.record.state ∧
      (change id entry).record.finishedAtMs = entry.record.finishedAtMs ∧ (change id entry).deferred = entry.deferred)
    (bytes : ∀ id entry, (change id entry).retainedBytes = entry.retainedBytes) :
    Exact {index with entries := mapEntries change index.entries} := by
  apply (exact.keyed.mapEntries index.retainedBytes record).exact
  intro fits
  rw [total_mapEntries bytes] at fits ⊢
  exact exact.bytes fits

end Exact
end BazelMcp.Store

import BazelMcp.Ledger
import BazelMcp.Paging

/-! Pages of the invocation ledger over an index that stays as it is. The cursor
names the last key scanned, and a page goes on behind it; keys without an entry
are passed over without being scanned. -/
namespace BazelMcp.LedgerPaging
open StoreIndex Cursors Ledger Paging List

section
variable (index : Index) (filter : LedgerFilter)

def ledgerPick (_ : Nat) (found : Key) : Option InvocationHeader :=
  (index.lookup (ofLex found).2).bind fun entry => if filter.selects entry then some entry.record else none

variable {Context : Type} (form : CursorForm Context)

def positionCursor (position : Nat) : Option (List Char) :=
  match position with
  | 0 => none
  | last+1 => ((ordered index filter).keys[last]?).map (ledgerCursor form filter)

def positionKey (position : Nat) : Option (Int × Uuid) :=
  match position with
  | 0 => none
  | last+1 => ((ordered index filter).keys[last]?).map ofLex

structure Fills (start place : Nat) (state : ListState InvocationHeader) : Prop where
  reading : ∃ stops, Reading (ledgerPick index filter) (ordered index filter).keys start place state.items stops ∧
    state.itemCursors.map some = stops.map (positionCursor index filter form)
  going : state.truncated = false
  mark : ∃ stop, start ≤ stop ∧ stop ≤ max start place ∧
    picked (ledgerPick index filter) (ordered index filter).keys stop place = [] ∧
    state.continuation = (if start < stop then positionCursor index filter form stop else none) ∧
    (state.scanned ≠ 0 → start < stop)

variable {index filter form} {start place : Nat} {state : ListState InvocationHeader} {found : Key}

def ServesLedger (index : Index) (filter : LedgerFilter) (form : CursorForm Context) (start : Nat)
    (page : Page InvocationHeader) : Prop :=
  Serves (ledgerPick index filter) (ordered index filter).keys (positionCursor index filter form) start page.items
    (page.itemCursors.map some) (page.nextCursor.map some) page.truncated

theorem positionCursor_at (here : (ordered index filter).keys[place]? = some found) :
    positionCursor index filter form (place+1) = some (ledgerCursor form filter found) := by
  simp [positionCursor,here]

theorem positionCursor_injective {first second : Nat} {value : List Char} (before : first < second)
    (one : positionCursor index filter form first = some value) (two : positionCursor index filter form second = some value) :
    False := by
  cases first with
  | zero => cases one
  | succ first =>
    obtain ⟨second,rfl⟩ : ∃ last, second = last+1 := ⟨second-1,by omega⟩
    obtain ⟨early,isEarly,first_⟩ := Option.map_eq_some_iff.mp one
    obtain ⟨late,isLate,second_⟩ := Option.map_eq_some_iff.mp two
    have same := encode_injective (first_.trans second_.symm)
    injection same with _ time id
    have equal : early = late := Prod.ext time id
    obtain ⟨insideEarly,rfl⟩ := List.getElem?_eq_some_iff.mp isEarly
    obtain ⟨insideLate,rfl⟩ := List.getElem?_eq_some_iff.mp isLate
    have less := pairwise_iff_getElem.mp (ordered index filter).sorted first second insideEarly insideLate (by omega)
    rw [equal] at less
    exact lt_irrefl _ less

theorem follows_position (inside : start ≤ (ordered index filter).keys.length)
    (here : (ordered index filter).keys[place]? = some found) :
    follows (positionKey index filter start) (ofLex found).1 (ofLex found).2 = true ↔ start ≤ place := by
  rw [follows_iff]
  cases start with
  | zero => simp [positionKey,cursorKey,Listing.Below]
  | succ last =>
    obtain ⟨bound,same⟩ := List.getElem?_eq_some_iff.mp here
    have sorted := pairwise_iff_getElem.mp (ordered index filter).sorted
    have isLast := List.getElem?_eq_getElem inside
    have below : Listing.Below (cursorKey (positionKey index filter (last+1))) found ↔
        found < (ordered index filter).keys[last] := by
      simp [positionKey,cursorKey,Listing.Below,isLast,key]
    change Listing.Below _ found ↔ _
    rw [below,← same]
    constructor
    · intro less
      apply Nat.lt_of_not_le
      intro early
      rcases Nat.lt_or_eq_of_le early with before | equal
      · exact absurd (sorted place last bound inside before) (not_lt.mpr (le_of_lt less))
      · subst equal
        exact lt_irrefl _ less
    · intro later
      exact sorted last place inside bound later

namespace Fills

theorem finish (fills : Fills index filter form start (ordered index filter).keys.length state) :
    ServesLedger index filter form start state.page := by
  obtain ⟨stops,reading,cursors⟩ := fills.reading
  refine ⟨stops,none,reading.finish,cursors,?_,fills.going⟩
  simp [ListState.page,fills.going]

section
variable (fills : Fills index filter form start place state)
include fills

theorem cut (reached : start ≤ place) (begun : state.scanned ≠ 0 ∨ state.items ≠ []) :
    ServesLedger index filter form start ({state with truncated := true} : ListState InvocationHeader).page := by
  obtain ⟨stops,reading,cursors⟩ := fills.reading
  obtain ⟨stop,after,behind,rest,continues,scanned⟩ := fills.mark
  rw [Nat.max_eq_right reached] at behind
  have back := reading.back after behind rest
  have moved : start < stop := by
    rcases begun with isScanned | isShown
    · exact scanned isScanned
    · exact back.begun isShown
  have inside : stop-1 < (ordered index filter).keys.length := by
    have := back.bounded
    omega
  obtain ⟨last,same⟩ : ∃ last, stop = last+1 := ⟨stop-1,by omega⟩
  subst same
  refine ⟨stops,some (last+1),back.cut moved,cursors,?_,rfl⟩
  rw [if_pos moved] at continues
  have written : positionCursor index filter form (last+1) = some (ledgerCursor form filter _) :=
    positionCursor_at (List.getElem?_eq_getElem inside)
  simp [ListState.page,continues,written]

theorem skip (here : (ordered index filter).keys[place]? = some found)
    (before : place < start) : Fills index filter form start (place+1) state := by
  obtain ⟨stops,reading,cursors⟩ := fills.reading
  obtain ⟨stop,after,behind,rest,continues,scanned⟩ := fills.mark
  refine ⟨⟨stops,reading.skip here before,cursors⟩,fills.going,stop,after,by omega,?_,continues,scanned⟩
  exact picked_before _ _ (by omega)

theorem absent (here : (ordered index filter).keys[place]? = some found)
    (reached : start ≤ place) (gone : index.lookup (ofLex found).2 = none) : Fills index filter form start (place+1) state := by
  obtain ⟨stops,reading,cursors⟩ := fills.reading
  obtain ⟨stop,after,behind,rest,continues,scanned⟩ := fills.mark
  have unpicked : ledgerPick index filter place found = none := by simp [ledgerPick,gone]
  refine ⟨⟨stops,reading.pass here reached unpicked,cursors⟩,fills.going,stop,after,by omega,?_,continues,scanned⟩
  rw [picked_step _ _ (by omega) here,rest,unpicked]
  rfl

theorem scan (here : (ordered index filter).keys[place]? = some found)
    (reached : start ≤ place) {item : Option InvocationHeader} (same : ledgerPick index filter place found = item) :
    Fills index filter form start (place+1) (state.scan (ledgerCursor form filter found) item) := by
  obtain ⟨stops,reading,cursors⟩ := fills.reading
  have mark : ∃ stop, start ≤ stop ∧ stop ≤ max start (place+1) ∧
      picked (ledgerPick index filter) (ordered index filter).keys stop (place+1) = [] ∧
      (state.scan (ledgerCursor form filter found) item).continuation =
        (if start < stop then positionCursor index filter form stop else none) ∧
      ((state.scan (ledgerCursor form filter found) item).scanned ≠ 0 → start < stop) := by
    refine ⟨place+1,by omega,by omega,picked_before _ _ (Nat.le_refl _),?_,fun _ => by omega⟩
    rw [if_pos (by omega),positionCursor_at here]
    rfl
  cases item with
  | none =>
    have unchanged : (state.scan (ledgerCursor form filter found) none).items = state.items := append_nil _
    refine ⟨⟨stops,?_,?_⟩,fills.going,mark⟩
    · rw [unchanged]
      exact reading.pass here reached same
    · simpa [ListState.scan] using cursors
  | some header =>
    refine ⟨⟨stops ++ [place+1],reading.take here reached same,?_⟩,fills.going,mark⟩
    simp [ListState.scan,cursors,positionCursor_at here]

end

end Fills

theorem listLoop_serves {itemLimit scanLimit : Nat} (someItems : itemLimit ≠ 0) (someScans : scanLimit ≠ 0)
    (inside : start ≤ (ordered index filter).keys.length) (rest : List Key)
    (left : (ordered index filter).keys.drop place = rest) (fills : Fills index filter form start place state) :
    ServesLedger index filter form start
      (listLoop form index filter (positionKey index filter start) itemLimit scanLimit rest state).page := by
  induction rest generalizing place state with
  | nil =>
    obtain ⟨stops,reading,_⟩ := fills.reading
    have ended : place = (ordered index filter).keys.length :=
      Nat.le_antisymm reading.bounded (drop_eq_nil_iff.mp left)
    subst ended
    exact fills.finish
  | cons found rest ih =>
    obtain ⟨here,later⟩ := drop_cons left
    have position := follows_position inside here
    simp only [listLoop]
    split
    · rename_i above
      have before : place < start := by
        apply Nat.lt_of_not_le
        intro reached
        rw [position.mpr reached] at above
        cases above
      exact ih later (fills.skip here before)
    rename_i below
    have reached : start ≤ place := by
      apply position.mp
      simpa using below
    split
    · rename_i spent
      exact fills.cut reached (.inl (spent ▸ someScans))
    split
    · rename_i gone
      exact ih later (fills.absent here reached gone)
    rename_i entry present
    split
    · rename_i full
      simp only [Bool.and_eq_true,decide_eq_true_eq] at full
      apply fills.cut reached
      right
      intro empty
      rw [empty] at full
      exact someItems full.2.symm
    · apply ih later (fills.scan here reached _)
      simp [ledgerPick,present]

theorem fills_start : Fills index filter form start 0 {} := by
  refine ⟨⟨[],reading_start,rfl⟩,rfl,start,Nat.le_refl _,by omega,picked_before _ _ (Nat.zero_le _),?_,?_⟩
  · rw [if_neg (Nat.lt_irrefl _)]
  · intro scanned
    exact absurd rfl scanned

theorem listLoop_cursors (index : Index) (good : List Char → Prop) (written : ∀ found, good (ledgerCursor form filter found))
    (cursor : Option (Int × Uuid)) (itemLimit scanLimit : Nat) (keys : List Key) (state : ListState InvocationHeader)
    (kept : ∀ value, state.continuation = some value ∨ value ∈ state.itemCursors → good value) :
    ∀ value, (listLoop form index filter cursor itemLimit scanLimit keys state).continuation = some value ∨
      value ∈ (listLoop form index filter cursor itemLimit scanLimit keys state).itemCursors → good value := by
  induction keys generalizing state with
  | nil => exact kept
  | cons found rest ih =>
    simp only [listLoop]
    split
    · exact ih state kept
    split
    · exact kept
    split
    · exact ih state kept
    split
    · exact kept
    apply ih
    intro value member
    rcases member with isNext | isItem
    · cases isNext
      exact written found
    rcases mem_append.mp isItem with old | new
    · exact kept value (.inr old)
    · obtain ⟨_,_,same⟩ := Option.map_eq_some_iff.mp (Option.mem_toList.mp new)
      rw [← same]
      exact written found

variable [DecidableEq Context]

variable {page : PageRequest} {result : Page InvocationHeader}

theorem listInvocations_cursors (ok : listInvocations form index filter page = .ok result) {cursor : List Char}
    (member : result.nextCursor = some cursor ∨ cursor ∈ result.itemCursors) :
    ∃ found, cursor = ledgerCursor form filter found := by
  simp only [listInvocations] at ok
  split at ok
  · cases ok
  split at ok
  · cases ok
  cases ok
  rename_i after _
  have good := listLoop_cursors index (fun cursor => ∃ found, cursor = ledgerCursor form filter found) (fun found => ⟨found,rfl⟩)
    after (max 1 (min page.itemLimit 200)) (max (max page.itemLimit 1) (min page.scanLimit 20000)) (ordered index filter).keys {}
    (by simp) cursor
  rcases member with isNext | isItem
  · simp only [ListState.page] at isNext
    split at isNext
    · exact good (.inl isNext)
    · cases isNext
  · exact good (.inr isItem)

theorem listInvocations_accepts (accepted : ∀ value, page.cursor = some value → ∃ found, value = ledgerCursor form filter found) :
    listInvocations form index filter page ≠ .error .invalidCursor := by
  obtain ⟨position,isPosition⟩ := resume_accepts invocationPart (fun _ => resume_encode rfl) accepted
  intro refused
  simp only [listInvocations,isPosition] at refused
  split at refused <;> cases refused

/-- A page resumed from a position shows the selected entries from there on. -/
theorem listInvocations_serves
    (inside : start ≤ (ordered index filter).keys.length) (cursor : page.cursor = positionCursor index filter form start)
    (ok : listInvocations form index filter page = .ok result) : ServesLedger index filter form start result := by
  have resumed : resume form invocationPart (ledgerContext form filter) page.cursor = .ok (positionKey index filter start) := by
    rw [cursor]
    cases start with
    | zero => rfl
    | succ last =>
      simp only [positionCursor,positionKey,List.getElem?_eq_getElem inside,Option.map_some]
      exact resume_encode rfl
  simp only [listInvocations,resumed] at ok
  split at ok
  · cases ok
  · cases ok
    exact listLoop_serves (by omega) (by omega) inside _ rfl fills_start

end
end BazelMcp.LedgerPaging

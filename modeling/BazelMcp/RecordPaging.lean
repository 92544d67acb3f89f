import BazelMcp.Cursors
import BazelMcp.Paging
import BazelMcp.Text

/-! Pages of the records kept in memory: diagnostics, tests, artifacts and
coverage files, filtered by a text and bounded by an item and a scan limit. -/
namespace BazelMcp.RecordPaging
open Cursors Paging Text

variable {α Context : Type}

theorem map_ok {β ε : Type} {outcome : Except ε α} {value : β} {change : α → β} (ok : outcome.map change = .ok value) :
    ∃ found, outcome = .ok found ∧ change found = value := by
  cases outcome with
  | error error => cases ok
  | ok found => exact ⟨found,rfl,Except.ok.inj ok⟩

theorem error_of_map {β ε : Type} {outcome : Except ε α} {change : α → β} {error : ε} (failed : outcome.map change = .error error) :
    outcome = .error error := by
  cases outcome with
  | error found =>
    cases failed
    rfl
  | ok found => cases failed

def recordMatches (filter : Option (List Char)) (searchable : α → List Char) (record : α) : Bool :=
  (filter.map toAsciiLowercase).all fun filter => contains (toAsciiLowercase (searchable record)) filter

structure RecordsState (α : Type) where
  items : List α := []
  itemCursors : List (List Char) := []
  lastScanned : Option Int := none
  scanned : Nat := 0
  filtered : Nat := 0
  truncated : Bool := false

section
variable (form : CursorForm Context) (context : Context) (filter : Option (List Char)) (searchable : α → List Char)

def recordsLoop (after : Int) (itemLimit scanLimit : Nat) : List α → Nat → RecordsState α → RecordsState α
  | [], _, state => state
  | record::rest, ordinal, state =>
    if (ordinal : Int) ≤ after then recordsLoop after itemLimit scanLimit rest (ordinal+1) state
    else if state.scanned = scanLimit then {state with truncated := true}
    else
      let selected := recordMatches filter searchable record
      let state := {state with filtered := state.filtered + selected.toNat}
      if selected && state.items.length = itemLimit then {state with truncated := true}
      else
        let state := {state with scanned := state.scanned+1, lastScanned := some ordinal}
        recordsLoop after itemLimit scanLimit rest (ordinal+1)
          (if selected then
            { state with
              items := state.items ++ [record]
              itemCursors := state.itemCursors ++ [form.encode (.ordinal context ordinal)] }
          else state)

variable [DecidableEq Context] (scope invocationId : List Char)

-- A clamp to an empty range panics.
def pageRecords (page : PageRequest) (records : List α) : Except StoreError (Page α) :=
  let leastScanned := max page.itemLimit 1
  let context := ordinalContext form scope invocationId filter
  if 10000 < leastScanned then .error .panicked
  else
    match resume form ordinalPart context page.cursor with
    | .error error => .error error
    | .ok cursor =>
      let after := cursor.getD (-1)
      let state := recordsLoop form context filter searchable after (max 1 (min page.itemLimit 100))
        (max leastScanned (min page.scanLimit 10000)) records 0 {}
      .ok
        { items := state.items
          totalCount := some records.length
          filteredCount := if filter.isNone then some records.length
            else if after < 0 && !state.truncated then some state.filtered
            else none
          nextCursor := if state.truncated then state.lastScanned.map fun ordinal => form.encode (.ordinal context ordinal)
            else none
          truncated := state.truncated
          itemCursors := state.itemCursors }

end

/-! ### What a page shows -/

section
variable {form : CursorForm Context} {context : Context} {filter : Option (List Char)} {searchable : α → List Char}

def recordPick (filter : Option (List Char)) (searchable : α → List Char) (_ : Nat) (record : α) : Option α :=
  if recordMatches filter searchable record then some record else none

def recordCursor (form : CursorForm Context) (context : Context) (position : Nat) : List Char :=
  form.encode (.ordinal context ((position : Int)-1))

structure Fills (form : CursorForm Context) (context : Context) (filter : Option (List Char)) (searchable : α → List Char)
    (records : List α) (start index : Nat) (state : RecordsState α) : Prop where
  reading : ∃ stops, Reading (recordPick filter searchable) records start index state.items stops ∧
    state.itemCursors = stops.map (recordCursor form context)
  going : state.truncated = false
  scans : state.lastScanned = if start < index then some ((index : Int)-1) else none
  begun : state.scanned ≠ 0 → start < index

def served (form : CursorForm Context) (context : Context) (state : RecordsState α) : Option (List Char) :=
  if state.truncated then state.lastScanned.map fun ordinal => form.encode (.ordinal context ordinal) else none

variable {records : List α} {page : PageRequest}

theorem Fills.cut {start index : Nat} {state : RecordsState α} (count : Nat)
    (fills : Fills form context filter searchable records start index state) (begun : start < index) :
    let final := {state with filtered := count, truncated := true}
    Serves (recordPick filter searchable) records (recordCursor form context) start final.items final.itemCursors
      (served form context final) final.truncated := by
  obtain ⟨stops,reading,cursors⟩ := fills.reading
  refine ⟨stops,some index,reading.cut begun,cursors,?_,rfl⟩
  simp [served,fills.scans,begun,recordCursor]

theorem recordsLoop_serves {start itemLimit scanLimit : Nat} (someItems : itemLimit ≠ 0) (someScans : scanLimit ≠ 0)
    (rest : List α) (index : Nat) (state : RecordsState α) (left : records.drop index = rest)
    (fills : Fills form context filter searchable records start index state) :
    let final := recordsLoop form context filter searchable ((start : Int)-1) itemLimit scanLimit rest index state
    Serves (recordPick filter searchable) records (recordCursor form context) start final.items final.itemCursors
      (served form context final) final.truncated := by
  induction rest generalizing index state with
  | nil =>
    obtain ⟨stops,reading,cursors⟩ := fills.reading
    have ended : index = records.length := Nat.le_antisymm reading.bounded (List.drop_eq_nil_iff.mp left)
    subst ended
    refine ⟨stops,none,reading.finish,cursors,?_,fills.going⟩
    simp [recordsLoop,served,fills.going]
  | cons record rest ih =>
    obtain ⟨here,later⟩ := drop_cons left
    obtain ⟨stops,reading,cursors⟩ := fills.reading
    simp only [recordsLoop]
    split
    · rename_i before
      have before : index < start := by omega
      apply ih _ _ later
      refine ⟨⟨stops,reading.skip here before,cursors⟩,fills.going,?_,?_⟩
      · rw [fills.scans,if_neg (by omega),if_neg (by omega)]
      · intro scanned
        have := fills.begun scanned
        omega
    rename_i reached
    have reached : start ≤ index := by omega
    split
    · rename_i spent
      exact fills.cut state.filtered (fills.begun (spent ▸ someScans))
    split
    · rename_i full
      simp only [Bool.and_eq_true,decide_eq_true_eq] at full
      apply fills.cut
      apply reading.begun
      intro empty
      rw [empty] at full
      exact someItems full.2.symm
    have scans : (some (index : Int)) = if start < index+1 then some (((index+1 : Nat) : Int)-1) else none := by
      rw [if_pos (by omega)]
      congr 1
      omega
    apply ih _ _ later
    split
    · rename_i selected
      have isPicked : recordPick filter searchable index record = some record := by simp [recordPick,selected]
      refine ⟨⟨stops ++ [index+1],reading.take here reached isPicked,?_⟩,fills.going,scans,fun _ => by omega⟩
      simp [cursors,recordCursor]
    · rename_i unselected
      have unpicked : recordPick filter searchable index record = none := by simp [recordPick,unselected]
      exact ⟨⟨stops,reading.pass here reached unpicked,cursors⟩,fills.going,scans,fun _ => by omega⟩

theorem recordsLoop_cursors (good : List Char → Prop) (written : ∀ ordinal, good (form.encode (.ordinal context ordinal))) (after : Int)
    (itemLimit scanLimit : Nat) (records : List α) (ordinal : Nat) (state : RecordsState α)
    (kept : ∀ cursor ∈ state.itemCursors, good cursor) :
    ∀ cursor ∈ (recordsLoop form context filter searchable after itemLimit scanLimit records ordinal state).itemCursors,
      good cursor := by
  induction records generalizing ordinal state with
  | nil => exact kept
  | cons record rest ih =>
    simp only [recordsLoop]
    split
    · exact ih _ _ kept
    split
    · exact kept
    split
    · exact kept
    apply ih
    split
    · intro cursor member
      rcases List.mem_append.mp member with old | new
      · exact kept cursor old
      · rw [List.mem_singleton.mp new]
        exact written _
    · exact kept

variable [DecidableEq Context] {scope invocationId : List Char}

theorem pageRecords_cursors {result : Page α}
    (ok : pageRecords form filter searchable scope invocationId page records = .ok result) {cursor : List Char}
    (member : result.nextCursor = some cursor ∨ cursor ∈ result.itemCursors) :
    ∃ ordinal, cursor = form.encode (.ordinal (ordinalContext form scope invocationId filter) ordinal) := by
  simp only [pageRecords] at ok
  split at ok
  · cases ok
  split at ok
  · cases ok
  cases ok
  rcases member with isNext | isItem
  · dsimp only at isNext
    split at isNext
    · obtain ⟨ordinal,_,same⟩ := Option.map_eq_some_iff.mp isNext
      exact ⟨ordinal,same.symm⟩
    · cases isNext
  · refine recordsLoop_cursors (fun cursor => ∃ ordinal, cursor = form.encode (.ordinal _ ordinal))
      (fun ordinal => ⟨ordinal,rfl⟩) _ _ _ _ _ _ ?_ cursor isItem
    intro other impossible
    cases impossible

theorem pageRecords_serves {start : Option Nat} {result : Page α}
    (cursor : page.cursor = start.map (recordCursor form (ordinalContext form scope invocationId filter)))
    (ok : pageRecords form filter searchable scope invocationId page records = .ok result) :
    Serves (recordPick filter searchable) records (recordCursor form (ordinalContext form scope invocationId filter))
      (start.getD 0) result.items result.itemCursors result.nextCursor result.truncated := by
  have resumed : resume form ordinalPart (ordinalContext form scope invocationId filter) page.cursor =
      .ok (start.map fun position : Nat => (position : Int)-1) := by
    rw [cursor]
    exact resume_map (fun _ => resume_encode rfl) start
  simp only [pageRecords,resumed] at ok
  split at ok
  · cases ok
  cases ok
  have after : (start.map fun position : Nat => (position : Int)-1).getD (-1) = ((start.getD 0 : Nat) : Int)-1 := by
    cases start <;> rfl
  rw [after]
  apply recordsLoop_serves (by omega) (by omega) records 0 {} rfl
  exact ⟨⟨[],reading_start,rfl⟩,rfl,rfl,fun scanned => absurd rfl scanned⟩

theorem pageRecords_accepts (accepted : ∀ value, page.cursor = some value →
      ∃ ordinal, value = form.encode (.ordinal (ordinalContext form scope invocationId filter) ordinal)) :
    pageRecords form filter searchable scope invocationId page records ≠ .error .invalidCursor := by
  obtain ⟨position,isPosition⟩ := resume_accepts ordinalPart (fun _ => resume_encode rfl) accepted
  intro refused
  simp only [pageRecords,isPosition] at refused
  split at refused <;> cases refused

theorem pageRecords_refused {value : List Char} (given : page.cursor = some value)
    (refused : decodeFor form ordinalPart (ordinalContext form scope invocationId filter) value = .error .invalidCursor)
    (small : page.itemLimit ≤ 10000) :
    pageRecords form filter searchable scope invocationId page records = .error .invalidCursor := by
  have few : ¬ 10000 < max page.itemLimit 1 := by omega
  simp [pageRecords,given,resume,refused,few,Except.map]

end

/-! ### Empty pages -/

section
variable {form : CursorForm Context} {context : Context} {filter : Option (List Char)} {searchable : α → List Char}

variable {state : RecordsState α}

theorem recordsLoop_shows {after : Int} {itemLimit scanLimit : Nat} (records : List α) (ordinal : Nat)
    (shown : state.items ≠ []) :
    (recordsLoop form context filter searchable after itemLimit scanLimit records ordinal state).items ≠ [] := by
  induction records generalizing ordinal state with
  | nil => exact shown
  | cons record rest ih =>
    simp only [recordsLoop]
    split
    · exact ih _ shown
    split
    · exact shown
    split
    · exact shown
    apply ih
    split
    · simp
    · exact shown

theorem recordsLoop_empty_iff {after : Int} {itemLimit scanLimit : Nat} (someItems : itemLimit ≠ 0) (records : List α) (ordinal : Nat)
    (fresh : state.items = []) (left : state.scanned ≤ scanLimit) :
    (recordsLoop form context filter searchable after itemLimit scanLimit records ordinal state).items = [] ↔
      ∀ record ∈ (records.drop (after+1-ordinal).toNat).take (scanLimit-state.scanned), recordMatches filter searchable record = false := by
  induction records generalizing ordinal state with
  | nil => simp [recordsLoop,fresh]
  | cons record rest ih =>
    simp only [recordsLoop]
    split
    · have skipped : (after+1-(ordinal : Int)).toNat = (after+1-((ordinal+1 : Nat) : Int)).toNat+1 := by omega
      rw [skipped,List.drop_succ_cons]
      exact ih _ fresh left
    have reached : (after+1-(ordinal : Int)).toNat = 0 := by omega
    rw [reached,List.drop_zero]
    split
    · rename_i spent
      simp [spent,fresh]
    obtain ⟨more,isMore⟩ : ∃ more, scanLimit-state.scanned = more+1 := ⟨scanLimit-state.scanned-1,by omega⟩
    rw [isMore,List.take_succ_cons,List.forall_mem_cons]
    cases selected : recordMatches filter searchable record with
    | true =>
      rw [if_neg (by simp [fresh,someItems.symm])]
      simp only [if_true,Bool.true_eq_false,false_and,iff_false]
      exact recordsLoop_shows rest _ (by simp)
    | false =>
      rw [if_neg (by simp)]
      simp only [Bool.false_eq_true,if_false,true_and]
      have next : (after+1-((ordinal+1 : Nat) : Int)).toNat = 0 := by omega
      have isLeft : scanLimit-(state.scanned+1) = more := by omega
      refine (ih (ordinal+1) ?_ ?_).trans ?_
      · exact fresh
      · dsimp only
        omega
      · rw [next,List.drop_zero,isLeft]

variable [DecidableEq Context] {scope invocationId : List Char}

theorem pageRecords_empty_iff {page : PageRequest} {records : List α} {result : Page α} {cursor : Option Int}
    (isCursor : resume form ordinalPart (ordinalContext form scope invocationId filter) page.cursor = .ok cursor)
    (ok : pageRecords form filter searchable scope invocationId page records = .ok result) :
    result.items = [] ↔ ∀ record ∈ (records.drop (cursor.getD (-1)+1).toNat).take (max (max page.itemLimit 1) (min page.scanLimit 10000)),
      recordMatches filter searchable record = false := by
  simp only [pageRecords,isCursor] at ok
  split at ok
  · cases ok
  cases ok
  refine (recordsLoop_empty_iff (by omega) records 0 rfl (Nat.zero_le _)).trans ?_
  rw [Int.natCast_zero,Int.sub_zero,Nat.sub_zero]

end
end BazelMcp.RecordPaging

import BazelMcp.Cursors
import BazelMcp.LogInspection
import BazelMcp.Paging
import BazelMcp.Text

/-! Query results: the rows of the captured standard output, read line by line
from a byte offset, transformed before they are filtered, and counted. -/
namespace BazelMcp.QueryRows
open Cursors LogInspection Paging Text List

def queryLineLimit : Nat := 64*1024

structure BoundedLine where
  endOffset : Nat
  ordinal : Nat
  value : List UInt8
  deriving DecidableEq

-- The reader keeps no more than the limit of a line and drops a carriage return at the end of what it kept.
def bounded (line : List UInt8) : List UInt8 :=
  let value := line.take queryLineLimit
  if value.getLast? = some 13 then value.dropLast else value

/-- The lines from an offset on, with the bytes of the line begun so far. -/
def linesFrom : Nat → Nat → List UInt8 → List UInt8 → List BoundedLine
  | offset, ordinal, line, [] => if line = [] then [] else [⟨offset+line.length,ordinal,bounded line⟩]
  | offset, ordinal, line, byte::rest =>
    if byte = 10 then
      ⟨offset+line.length+1,ordinal,bounded line⟩::linesFrom (offset+line.length+1) (ordinal+1) [] rest
    else linesFrom offset ordinal (line ++ [byte]) rest

def countQueryRows (bytes : List UInt8) : Nat :=
  bytes.count 10 + if bytes ≠ [] ∧ bytes.getLast? ≠ some 10 then 1 else 0

def containsIgnoreAsciiCase (value needle : List Char) : Bool := contains (toAsciiLowercase value) (toAsciiLowercase needle)

structure QueryState where
  total : Nat
  filtered : Nat
  items : List QueryRow := []
  itemCursors : List (List Char) := []
  truncated : Bool := false
  scanExhausted : Bool := false
  continuation : Option FilePosition := none
  scanned : Nat := 0

section
variable {Context : Type} (form : CursorForm Context) (context : Context) (readText : List UInt8 → List Char)
  (filter : Option (List Char)) (knownTotal : Option Nat)

def fileCursor (position : FilePosition) : List Char :=
  form.encode (.file context position.offset position.ordinal position.totalScanned position.filteredScanned)

def rowMatches (text : List Char) : Bool := filter.all (containsIgnoreAsciiCase text)

def queryLoop (itemLimit scanLimit : Nat) : List BoundedLine → QueryState → QueryState
  | [], state => state
  | line::rest, state =>
    if state.scanned = scanLimit then {state with truncated := true, scanExhausted := true}
    else if filter.isNone && state.items.length = itemLimit then
      match knownTotal with
      | some known => {state with truncated := decide (state.total < known)}
      | none =>
        queryLoop itemLimit scanLimit rest
          { state with
            scanned := state.scanned+1
            total := state.total+1
            filtered := state.filtered+1
            truncated := true }
    else
      let text := readText line.value
      let state := {state with scanned := state.scanned+1, total := state.total+1}
      if rowMatches filter text then
        let state := {state with filtered := state.filtered+1}
        if state.items.length = itemLimit then queryLoop itemLimit scanLimit rest {state with truncated := true}
        else
          let position : FilePosition := ⟨line.endOffset,line.ordinal,state.total,state.filtered⟩
          queryLoop itemLimit scanLimit rest
            { state with
              items := state.items ++ [⟨line.ordinal,String.ofList text⟩]
              itemCursors := state.itemCursors ++ [fileCursor form context position]
              continuation := some position }
      else if state.items.length < itemLimit then
        queryLoop itemLimit scanLimit rest
          {state with continuation := some ⟨line.endOffset,line.ordinal,state.total,state.filtered⟩}
      else queryLoop itemLimit scanLimit rest state

def queryPage (state : QueryState) : Page QueryRow :=
  let totalCount :=
    match knownTotal with
    | some known => some (max known state.total)
    | none => if state.scanExhausted then none else some state.total
  { items := state.items
    totalCount
    filteredCount := if filter.isNone then totalCount else if state.scanExhausted then none else some state.filtered
    nextCursor := if state.truncated then state.continuation.map (fileCursor form context) else none
    truncated := state.truncated
    itemCursors := state.itemCursors }

def pageQueryFileFromCursor (start : Option FilePosition) (itemLimit scanLimit : Nat) (bytes : List UInt8) : Page QueryRow :=
  let offset := (start.map FilePosition.offset).getD 0
  let ordinal := (start.map fun position => position.ordinal+1).getD 0
  queryPage form context filter knownTotal
    (queryLoop form context readText filter knownTotal itemLimit scanLimit (linesFrom offset ordinal [] (bytes.drop offset))
      { total := (start.map FilePosition.totalScanned).getD 0
        filtered := (start.map FilePosition.filteredScanned).getD 0 })

def pageQueryFile (start : Option FilePosition) (itemLimit scanLimit : Nat) :
    FileEntry (List UInt8) → Except StoreError (Page QueryRow)
  | .missing => .ok {totalCount := some 0, filteredCount := some 0}
  | .unreadable => .error .io
  | .present bytes => .ok (pageQueryFileFromCursor form context readText filter knownTotal start itemLimit scanLimit bytes)

variable [DecidableEq Context]

def pageQueryRowsMappedInto (invocationId : List Char) (page : PageRequest) (stdout : FileEntry (List UInt8)) :
    Except StoreError (Page QueryRow) :=
  let context := ordinalContext form "query_rows".toList invocationId filter
  let leastScanned := max page.itemLimit 1
  match resume form filePart context page.cursor with
  | .error error => .error error
  | .ok start =>
    if 10000 < leastScanned then .error .panicked
    else
      pageQueryFile form context readText filter knownTotal start (max 1 (min page.itemLimit 100))
        (max leastScanned (min page.scanLimit 10000)) stdout

end

section
variable {Context : Type} {form : CursorForm Context} {context : Context} {readText : List UInt8 → List Char}
  {filter : Option (List Char)} {knownTotal : Option Nat}

theorem queryLoop_cursors (good : List Char → Prop) (written : ∀ position, good (fileCursor form context position))
    (itemLimit scanLimit : Nat) (lines : List BoundedLine) (state : QueryState) (kept : ∀ cursor ∈ state.itemCursors, good cursor) :
    ∀ cursor ∈ (queryLoop form context readText filter knownTotal itemLimit scanLimit lines state).itemCursors, good cursor := by
  induction lines generalizing state with
  | nil => exact kept
  | cons line rest ih =>
    simp only [queryLoop]
    split
    · exact kept
    split
    · split
      · exact kept
      · exact ih _ kept
    split
    · split
      · exact ih _ kept
      apply ih
      intro cursor member
      rcases mem_append.mp member with old | new
      · exact kept cursor old
      · rw [mem_singleton.mp new]
        exact written _
    · split
      · exact ih _ kept
      · exact ih _ kept

variable [DecidableEq Context]

variable {invocationId : List Char} {stdout : FileEntry (List UInt8)}

theorem pageQueryRowsMappedInto_cursors {page : PageRequest}
    {result : Page QueryRow} (ok : pageQueryRowsMappedInto form readText filter knownTotal invocationId page stdout = .ok result)
    {cursor : List Char} (member : result.nextCursor = some cursor ∨ cursor ∈ result.itemCursors) :
    ∃ position, cursor = fileCursor form (ordinalContext form "query_rows".toList invocationId filter) position := by
  simp only [pageQueryRowsMappedInto] at ok
  split at ok
  · cases ok
  split at ok
  · cases ok
  cases stdout with
  | missing =>
    cases ok
    rcases member with impossible | impossible <;> cases impossible
  | unreadable => cases ok
  | present bytes =>
    cases ok
    rcases member with isNext | isItem
    · simp only [pageQueryFileFromCursor,queryPage] at isNext
      split at isNext
      · obtain ⟨position,_,same⟩ := Option.map_eq_some_iff.mp isNext
        exact ⟨position,same.symm⟩
      · cases isNext
    · refine queryLoop_cursors (fun cursor => ∃ position, cursor = fileCursor form _ position) (fun position => ⟨position,rfl⟩)
        _ _ _ _ ?_ cursor isItem
      intro other impossible
      cases impossible

theorem pageQueryRowsMappedInto_accepts {page : PageRequest} (accepted : ∀ value, page.cursor = some value →
      ∃ position, value = fileCursor form (ordinalContext form "query_rows".toList invocationId filter) position) :
    pageQueryRowsMappedInto form readText filter knownTotal invocationId page stdout ≠ .error .invalidCursor := by
  obtain ⟨position,isPosition⟩ := resume_accepts filePart (fun _ => resume_encode rfl) accepted
  intro refused
  simp only [pageQueryRowsMappedInto,isPosition] at refused
  split at refused
  · cases refused
  · cases stdout <;> cases refused

end

/-! ### Rows and offsets -/

def rows (bytes : List UInt8) : List BoundedLine := linesFrom 0 0 [] bytes

variable (bytes : List UInt8)

theorem linesFrom_length (offset ordinal : Nat) (line : List UInt8) : (linesFrom offset ordinal line bytes).length =
      bytes.count 10 + if line ++ bytes = [] ∨ bytes.getLast? = some 10 then 0 else 1 := by
  induction bytes generalizing offset ordinal line with
  | nil =>
    simp only [linesFrom]
    split <;> simp_all
  | cons byte rest ih =>
    simp only [linesFrom]
    split
    · rename_i newline
      subst newline
      rw [length_cons,ih,count_cons_self]
      cases rest with
      | nil => simp
      | cons next rest =>
        simp only [nil_append,List.getLast?_cons_cons,append_eq_nil_iff]
        split <;> split <;> simp_all
    · rename_i other
      rw [ih,count_cons_of_ne (by simpa using other)]
      cases rest with
      | nil => simp [other]
      | cons next rest => simp [List.getLast?_cons_cons]

theorem countQueryRows_eq : countQueryRows bytes = (rows bytes).length := by
  rw [rows,linesFrom_length,countQueryRows]
  congr 1
  simp only [nil_append]
  split <;> split <;> simp_all

theorem linesFrom_resume (offset ordinal : Nat) (line : List UInt8) (index : Nat) (found : BoundedLine)
    (isFound : (linesFrom offset ordinal line bytes)[index]? = some found) :
    found.ordinal = ordinal+index ∧ offset+line.length ≤ found.endOffset ∧
      linesFrom found.endOffset (ordinal+index+1) [] (bytes.drop (found.endOffset-offset-line.length)) =
        (linesFrom offset ordinal line bytes).drop (index+1) := by
  induction bytes generalizing offset ordinal line index with
  | nil =>
    simp only [linesFrom] at isFound ⊢
    split at isFound
    · simp at isFound
    rename_i some_line
    cases index with
    | zero =>
      simp only [List.getElem?_cons_zero,Option.some.injEq] at isFound
      subst isFound
      simp [linesFrom,some_line]
    | succ index => simp at isFound
  | cons byte rest ih =>
    simp only [linesFrom] at isFound ⊢
    split at isFound
    · rename_i newline
      rw [if_pos newline]
      cases index with
      | zero =>
        simp only [List.getElem?_cons_zero,Option.some.injEq] at isFound
        subst isFound
        have one : offset+line.length+1-offset-line.length = 1 := by omega
        simp [one]
      | succ index =>
        rw [List.getElem?_cons_succ] at isFound
        obtain ⟨number,beyond,resumed⟩ := ih _ _ _ _ isFound
        simp only [length_nil,Nat.add_zero,Nat.sub_zero] at beyond resumed
        refine ⟨by omega,by omega,?_⟩
        have shift : found.endOffset-offset-line.length = (found.endOffset-(offset+line.length+1))+1 := by omega
        rw [shift,drop_succ_cons,drop_succ_cons,← resumed]
        congr 1
        omega
    · rename_i other
      rw [if_neg other]
      obtain ⟨number,beyond,resumed⟩ := ih _ _ _ _ isFound
      simp only [length_append,length_singleton] at beyond resumed
      refine ⟨number,by omega,?_⟩
      have shift : found.endOffset-offset-line.length = (found.endOffset-offset-(line.length+1))+1 := by omega
      rw [shift,drop_succ_cons,resumed]

def offsetAt (bytes : List UInt8) : Nat → Nat
  | 0 => 0
  | position+1 => ((rows bytes)[position]?.map BoundedLine.endOffset).getD 0

theorem rows_resume {position : Nat} (inside : position ≤ (rows bytes).length) :
    linesFrom (offsetAt bytes position) position [] (bytes.drop (offsetAt bytes position)) = (rows bytes).drop position := by
  cases position with
  | zero => rfl
  | succ position =>
    have here := List.getElem?_eq_getElem inside
    have resumed := (linesFrom_resume bytes 0 0 [] position _ here).2.2
    simp only [length_nil,Nat.sub_zero,Nat.zero_add] at resumed
    simp only [offsetAt,here,Option.map_some,Option.getD_some]
    exact resumed

theorem rows_ordinal {index : Nat} {line : BoundedLine} (here : (rows bytes)[index]? = some line) :
    line.ordinal = index ∧ line.endOffset = offsetAt bytes (index+1) := by
  have number := (linesFrom_resume bytes 0 0 [] index line here).1
  exact ⟨by omega,by simp [offsetAt,here]⟩

/-! ### What a page shows -/

section
variable {Context : Type} (form : CursorForm Context) (context : Context) (readText : List UInt8 → List Char)
  (filter : Option (List Char))

def rowPick (_ : Nat) (line : BoundedLine) : Option QueryRow :=
  if rowMatches filter (readText line.value) then some ⟨line.ordinal,String.ofList (readText line.value)⟩ else none

/-- Where reading stands after some rows, with the rows matched so far counted. -/
def rowPosition (bytes : List UInt8) (position : Nat) : FilePosition :=
  ⟨offsetAt bytes position,position-1,position,(picked (rowPick readText filter) (rows bytes) 0 position).length⟩

def rowCursor (bytes : List UInt8) (position : Nat) : List Char :=
  fileCursor form context (rowPosition readText filter bytes position)

/-- A page of rows being read. It is filled up to a stop; the rows behind the
stop are only counted, once the page is full. -/
structure Scans (bytes : List UInt8) (itemLimit start stop index : Nat) (stops : List Nat) (state : QueryState) : Prop where
  reading : Reading (rowPick readText filter) (rows bytes) start stop state.items stops
  cursors : state.itemCursors = stops.map (rowCursor form context readText filter bytes)
  begun : start ≤ stop
  behind : stop ≤ index
  few : state.items.length ≤ itemLimit
  full : stop = index ∨ state.items.length = itemLimit
  matched : stop = index → state.filtered = (picked (rowPick readText filter) (rows bytes) 0 index).length
  unseen : state.truncated = false → picked (rowPick readText filter) (rows bytes) stop index = []
  moved : state.truncated = true → start < stop
  resumes : state.continuation = if start < stop then some (rowPosition readText filter bytes stop) else none
  total : state.total = index
  scanned : state.scanned = index-start

variable {form context readText filter} {bytes : List UInt8} {itemLimit start stop index : Nat} {stops : List Nat}
  {state : QueryState}

def ServesRows (form : CursorForm Context) (context : Context) (readText : List UInt8 → List Char) (filter : Option (List Char))
    (bytes : List UInt8) (start : Nat) (final : QueryState) : Prop :=
  Serves (rowPick readText filter) (rows bytes) (rowCursor form context readText filter bytes) start final.items
    final.itemCursors (if final.truncated then final.continuation.map (fileCursor form context) else none) final.truncated

namespace Scans

section
variable (scans : Scans form context readText filter bytes itemLimit start stop index stops state)
include scans

theorem cut (begun : start < stop)
    {final : QueryState} (items : final.items = state.items) (itemCursors : final.itemCursors = state.itemCursors)
    (continuation : final.continuation = state.continuation) (truncated : final.truncated = true) :
    ServesRows form context readText filter bytes start final := by
  refine ⟨stops,some stop,items ▸ scans.reading.cut begun,itemCursors.trans scans.cursors,?_,truncated⟩
  rw [truncated,continuation,scans.resumes,if_pos begun]
  rfl

theorem begun_full (someItems : itemLimit ≠ 0) (full : state.items.length = itemLimit) : start < stop := by
  apply scans.reading.begun
  intro empty
  rw [empty] at full
  exact someItems full.symm

theorem begun_later (someItems : itemLimit ≠ 0) (later : start < index) : start < stop := by
  rcases scans.full with same | full
  · exact same ▸ later
  · exact scans.begun_full someItems full

end

theorem finish (scans : Scans form context readText filter bytes itemLimit start stop (rows bytes).length stops state) :
    ServesRows form context readText filter bytes start state := by
  cases truncated : state.truncated with
  | true => exact scans.cut (scans.moved truncated) rfl rfl rfl truncated
  | false =>
    refine ⟨stops,none,scans.reading.finish_early scans.begun (scans.unseen truncated),scans.cursors,?_,truncated⟩
    simp [truncated]

theorem count (scans : Scans form context readText filter bytes itemLimit start stop index stops state)
    (someItems : itemLimit ≠ 0) (isFull : state.items.length = itemLimit) {line : BoundedLine}
    (here : (rows bytes)[index]? = some line) (matchedNow : Nat) (truncatedNow : Bool)
    (seen : truncatedNow = true ∨ truncatedNow = state.truncated ∧ rowPick readText filter index line = none) :
    Scans form context readText filter bytes itemLimit start stop (index+1) stops
      { state with
        scanned := state.scanned+1
        total := state.total+1
        filtered := matchedNow
        truncated := truncatedNow } where
  reading := scans.reading
  cursors := scans.cursors
  begun := scans.begun
  behind := Nat.le_succ_of_le scans.behind
  few := scans.few
  full := .inr isFull
  matched same := by
    have := scans.behind
    omega
  unseen kept := by
    rcases seen with isTrue | ⟨same,unpicked⟩
    · rw [isTrue] at kept
      cases kept
    · rw [picked_step _ _ scans.behind here,unpicked,scans.unseen (same ▸ kept)]
      rfl
  moved _ := scans.begun_full someItems isFull
  resumes := scans.resumes
  total := by rw [scans.total]
  scanned := by
    have := scans.begun
    have := scans.behind
    simp only [scans.scanned]
    omega

section
variable (scans : Scans form context readText filter bytes itemLimit start index index stops state)
include scans

theorem take {line : BoundedLine} (notFull : state.items.length ≠ itemLimit) (here : (rows bytes)[index]? = some line)
    (selected : rowMatches filter (readText line.value) = true) :
    let position : FilePosition := ⟨line.endOffset,line.ordinal,state.total+1,state.filtered+1⟩
    Scans form context readText filter bytes itemLimit start (index+1) (index+1) (stops ++ [index+1])
      { state with
        scanned := state.scanned+1
        total := state.total+1
        filtered := state.filtered+1
        items := state.items ++ [⟨line.ordinal,String.ofList (readText line.value)⟩]
        itemCursors := state.itemCursors ++ [fileCursor form context position]
        continuation := some position } := by
  obtain ⟨ordinal,endOffset⟩ := rows_ordinal bytes here
  have isPicked : rowPick readText filter index line = some ⟨line.ordinal,String.ofList (readText line.value)⟩ := by
    simp [rowPick,selected]
  have matched : state.filtered+1 = (picked (rowPick readText filter) (rows bytes) 0 (index+1)).length := by
    rw [picked_step _ _ (Nat.zero_le index) here,isPicked,scans.matched rfl]
    simp
  have position : (⟨line.endOffset,line.ordinal,state.total+1,state.filtered+1⟩ : FilePosition) =
      rowPosition readText filter bytes (index+1) := by
    rw [rowPosition,ordinal,endOffset,scans.total,matched]
    rfl
  intro unused
  refine ⟨scans.reading.take here scans.begun isPicked,?_,Nat.le_succ_of_le scans.begun,Nat.le_refl _,?_,.inl rfl,
    fun _ => matched,fun _ => picked_before _ _ (Nat.le_refl _),fun _ => Nat.lt_succ_of_le scans.begun,?_,?_,?_⟩
  · simp [scans.cursors,rowCursor,unused,position]
  · have := scans.few
    simp only [length_append,length_singleton]
    omega
  · rw [if_pos (Nat.lt_succ_of_le scans.begun)]
    simp [unused,position]
  · simp [scans.total]
  · have := scans.begun
    simp only [scans.scanned]
    omega

theorem pass {line : BoundedLine}
    (here : (rows bytes)[index]? = some line) (unselected : rowMatches filter (readText line.value) = false) :
    Scans form context readText filter bytes itemLimit start (index+1) (index+1) stops
      { state with
        scanned := state.scanned+1
        total := state.total+1
        continuation := some ⟨line.endOffset,line.ordinal,state.total+1,state.filtered⟩ } := by
  obtain ⟨ordinal,endOffset⟩ := rows_ordinal bytes here
  have unpicked : rowPick readText filter index line = none := by simp [rowPick,unselected]
  have matched : state.filtered = (picked (rowPick readText filter) (rows bytes) 0 (index+1)).length := by
    rw [picked_step _ _ (Nat.zero_le index) here,unpicked,scans.matched rfl]
    simp
  refine ⟨scans.reading.pass here scans.begun unpicked,scans.cursors,Nat.le_succ_of_le scans.begun,Nat.le_refl _,scans.few,
    .inl rfl,fun _ => matched,fun _ => picked_before _ _ (Nat.le_refl _),fun _ => Nat.lt_succ_of_le scans.begun,?_,?_,?_⟩
  · rw [if_pos (Nat.lt_succ_of_le scans.begun),rowPosition,ordinal,endOffset,scans.total,← matched]
    rfl
  · simp [scans.total]
  · have := scans.begun
    simp only [scans.scanned]
    omega

end

end Scans

variable {knownTotal : Option Nat}

theorem queryLoop_serves {scanLimit : Nat} (someItems : itemLimit ≠ 0) (someScans : scanLimit ≠ 0)
    (counted : ∀ known, knownTotal = some known → (rows bytes).length ≤ known) (rest : List BoundedLine)
    (scans : Scans form context readText filter bytes itemLimit start stop index stops state)
    (bound : index ≤ (rows bytes).length) (left : (rows bytes).drop index = rest) :
    ServesRows form context readText filter bytes start
      (queryLoop form context readText filter knownTotal itemLimit scanLimit rest state) := by
  induction rest generalizing stop index stops state with
  | nil =>
    have ended : index = (rows bytes).length := Nat.le_antisymm bound (drop_eq_nil_iff.mp left)
    subst ended
    exact scans.finish
  | cons line rest ih =>
    obtain ⟨here,later⟩ := drop_cons left
    have inside : index < (rows bytes).length := (List.getElem?_eq_some_iff.mp here).1
    simp only [queryLoop]
    split
    · rename_i spent
      have begun : start < index := by
        have := scans.scanned
        omega
      exact scans.cut (scans.begun_later someItems begun) rfl rfl rfl rfl
    split
    · rename_i unfiltered
      simp only [Bool.and_eq_true,decide_eq_true_eq] at unfiltered
      cases isKnown : knownTotal with
      | some known =>
        have more := counted known isKnown
        refine scans.cut (scans.begun_full someItems unfiltered.2) rfl rfl rfl ?_
        simp only [decide_eq_true_eq,scans.total]
        omega
      | none =>
        subst isKnown
        exact ih (scans.count someItems unfiltered.2 here (state.filtered+1) true (.inl rfl)) inside later
    rename_i proceeds
    split
    · rename_i selected
      split
      · rename_i isFull
        exact ih (scans.count someItems isFull here (state.filtered+1) true (.inl rfl)) inside later
      rename_i notFull
      have here' : stop = index := scans.full.resolve_right notFull
      subst here'
      exact ih (scans.take notFull here selected) inside later
    rename_i unselected
    have unselected : rowMatches filter (readText line.value) = false := by simpa using unselected
    split
    · rename_i notFull
      have here' : stop = index := scans.full.resolve_right (Nat.ne_of_lt notFull)
      subst here'
      exact ih (scans.pass here unselected) inside later
    · rename_i isFull
      have isFull : state.items.length = itemLimit := Nat.le_antisymm scans.few (Nat.le_of_not_lt isFull)
      exact ih (scans.count someItems isFull here state.filtered state.truncated
        (.inr ⟨rfl,by simp [rowPick,unselected]⟩)) inside later

def Placed (bytes : List UInt8) (start : Option Nat) : Prop :=
  ∀ position, start = some position → 0 < position ∧ position ≤ (rows bytes).length

theorem placed_bound {start : Option Nat} (placed : Placed bytes start) : start.getD 0 ≤ (rows bytes).length := by
  cases start with
  | none => exact Nat.zero_le _
  | some position => exact (placed position rfl).2

theorem placed_start (readText : List UInt8 → List Char) (filter : Option (List Char)) {start : Option Nat}
    (placed : Placed bytes start) :
    ((start.map (rowPosition readText filter bytes)).map FilePosition.offset).getD 0 = offsetAt bytes (start.getD 0) ∧
    ((start.map (rowPosition readText filter bytes)).map fun position => position.ordinal+1).getD 0 = start.getD 0 ∧
    ((start.map (rowPosition readText filter bytes)).map FilePosition.totalScanned).getD 0 = start.getD 0 ∧
    ((start.map (rowPosition readText filter bytes)).map FilePosition.filteredScanned).getD 0 =
      (picked (rowPick readText filter) (rows bytes) 0 (start.getD 0)).length := by
  cases start with
  | none => exact ⟨rfl,rfl,rfl,rfl⟩
  | some position => exact ⟨rfl,Nat.sub_add_cancel (placed position rfl).1,rfl,rfl⟩

theorem pageQueryFileFromCursor_serves {scanLimit : Nat} {start : Option Nat}
    (someItems : itemLimit ≠ 0) (someScans : scanLimit ≠ 0)
    (counted : ∀ known, knownTotal = some known → (rows bytes).length ≤ known) (placed : Placed bytes start) :
    let page := pageQueryFileFromCursor form context readText filter knownTotal (start.map (rowPosition readText filter bytes))
      itemLimit scanLimit bytes
    Serves (rowPick readText filter) (rows bytes) (rowCursor form context readText filter bytes) (start.getD 0) page.items
      page.itemCursors page.nextCursor page.truncated := by
  obtain ⟨offset,ordinal,total,filtered⟩ := placed_start readText filter placed
  have bound := placed_bound placed
  simp only [pageQueryFileFromCursor,offset,ordinal,total,filtered,queryPage,rows_resume bytes bound]
  have scans : Scans form context readText filter bytes itemLimit (start.getD 0) (start.getD 0) (start.getD 0) []
      { total := start.getD 0
        filtered := (picked (rowPick readText filter) (rows bytes) 0 (start.getD 0)).length } := by
    refine ⟨reading_at bound,rfl,Nat.le_refl _,Nat.le_refl _,Nat.zero_le _,.inl rfl,fun _ => rfl,
      fun _ => picked_before _ _ (Nat.le_refl _),?_,?_,rfl,?_⟩
    · intro impossible
      cases impossible
    · rw [if_neg (Nat.lt_irrefl _)]
    · rw [Nat.sub_self]
  exact queryLoop_serves someItems someScans counted _ scans bound rfl

def captured : FileEntry (List UInt8) → List UInt8
  | .missing | .unreadable => []
  | .present bytes => bytes

variable [DecidableEq Context] {invocationId : List Char}

theorem resume_placed (start : Option Nat) :
    resume form filePart context (start.map (rowCursor form context readText filter bytes)) =
      .ok (start.map (rowPosition readText filter bytes)) := resume_map (fun _ => resume_encode rfl) start

theorem pageQueryRowsMappedInto_serves {start : Option Nat} {page : PageRequest}
    {stdout : FileEntry (List UInt8)} {result : Page QueryRow}
    (counted : ∀ known, knownTotal = some known → (rows (captured stdout)).length ≤ known)
    (placed : Placed (captured stdout) start) (cursor : page.cursor = start.map
      (rowCursor form (ordinalContext form "query_rows".toList invocationId filter) readText filter (captured stdout)))
    (ok : pageQueryRowsMappedInto form readText filter knownTotal invocationId page stdout = .ok result) :
    Serves (rowPick readText filter) (rows (captured stdout))
      (rowCursor form (ordinalContext form "query_rows".toList invocationId filter) readText filter (captured stdout))
      (start.getD 0) result.items result.itemCursors result.nextCursor result.truncated := by
  simp only [pageQueryRowsMappedInto,cursor,resume_placed] at ok
  split at ok
  · cases ok
  cases stdout with
  | missing =>
    cases ok
    refine ⟨[],none,⟨rfl,?_,?_,?_⟩,rfl,rfl,rfl⟩
    · intro index stop impossible
      simp at impossible
    · intro _
      simp [captured,rows,linesFrom,pickedFrom,picked]
    · intro stop impossible
      cases impossible
  | unreadable => cases ok
  | present bytes =>
    cases ok
    exact pageQueryFileFromCursor_serves (by omega) (by omega) counted placed

end
end BazelMcp.QueryRows

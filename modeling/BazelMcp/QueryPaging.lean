import BazelMcp.QueryRows

/-! Query results read page by page. The rows of a file are its lines between line
feeds. The pages of a reader that follows the cursors show the matching rows in
their order, each once and under its number in the file, whatever the limits of
each request and whether or not the number of rows is known; the counts of every
page that gives them are those of the whole file. -/
namespace BazelMcp.QueryRows
open Cursors LogInspection Paging Text List

/-! ### The lines of a file -/

/-- What stands between line feeds; nothing begins behind the last one. -/
def fileLines (bytes : List UInt8) : List (List UInt8) :=
  let pieces := bytes.splitOn 10
  if pieces.getLast? = some [] then pieces.dropLast else pieces

variable (bytes : List UInt8) {line : List UInt8}

theorem fileLines_open (whole : 10 ∉ line) : fileLines line = if line = [] then [] else [line] := by
  have single : line.splitOn 10 = [line] := by
    apply splitOnP_eq_singleton
    intro byte member
    simpa using fun same : byte = 10 => whole (same ▸ member)
  simp only [fileLines,single,List.getLast?_singleton,Option.some.injEq,dropLast_singleton]

theorem fileLines_cons (whole : 10 ∉ line) (rest : List UInt8) : fileLines (line ++ 10::rest) = line::fileLines rest := by
  have pieces : (line ++ 10::rest).splitOn 10 = line::rest.splitOn 10 := by
    apply splitOnP_append_cons_of_forall_mem
    · intro byte member
      simpa using fun same : byte = 10 => whole (same ▸ member)
    · rfl
  obtain ⟨first,others,isSplit⟩ := exists_cons_of_ne_nil (splitOnP_ne_nil (· == 10) rest)
  have isSplit : rest.splitOn 10 = first::others := isSplit
  simp only [fileLines,pieces,isSplit,List.getLast?_cons_cons,dropLast_cons_cons]
  split <;> rfl

theorem linesFrom_values (offset ordinal : Nat) (whole : 10 ∉ line) :
    (linesFrom offset ordinal line bytes).map BoundedLine.value = (fileLines (line ++ bytes)).map bounded := by
  induction bytes generalizing offset ordinal line with
  | nil =>
    rw [append_nil,fileLines_open whole,linesFrom]
    split <;> rfl
  | cons byte rest ih =>
    rw [linesFrom]
    split
    · rename_i newline
      subst newline
      rw [map_cons,ih _ _ (by simp),fileLines_cons whole]
      rfl
    · rename_i other
      have whole : 10 ∉ line ++ [byte] := by
        simp only [mem_append,mem_singleton,not_or]
        exact ⟨whole,fun same => other same.symm⟩
      rw [ih _ _ whole,append_assoc]
      rfl

theorem rows_values : (rows bytes).map BoundedLine.value = (fileLines bytes).map bounded :=
  linesFrom_values bytes 0 0 (by simp)

theorem fileLines_length : (fileLines bytes).length = (rows bytes).length := by
  have same := congrArg List.length (rows_values bytes)
  rw [length_map,length_map] at same
  exact same.symm

section
variable (readText : List UInt8 → List Char) (filter : Option (List Char))

/-- A line as the row of its number, if its text matches. -/
def rowOf (line : List UInt8) (ordinal : Nat) : Option QueryRow :=
  let text := readText (bounded line)
  if rowMatches filter text then some ⟨ordinal,String.ofList text⟩ else none

def matchingRows (bytes : List UInt8) : List QueryRow :=
  (fileLines bytes).zipIdx.filterMap fun entry => rowOf readText filter entry.1 entry.2

theorem picked_rows (bytes : List UInt8) : pickedFrom (rowPick readText filter) (rows bytes) 0 = matchingRows readText filter bytes := by
  have places : (rows bytes).zipIdx.map (fun entry => (entry.1.value,entry.2)) =
      (fileLines bytes).zipIdx.map (fun entry => (bounded entry.1,entry.2)) := by
    have same := congrArg List.zipIdx (rows_values bytes)
    rw [zipIdx_map,zipIdx_map] at same
    exact same
  have numbered : (rows bytes).zipIdx.filterMap (fun entry => rowPick readText filter entry.2 entry.1) =
      ((rows bytes).zipIdx.map fun entry => (entry.1.value,entry.2)).filterMap fun entry =>
        if rowMatches filter (readText entry.1) then some ⟨entry.2,String.ofList (readText entry.1)⟩ else none := by
    rw [filterMap_map]
    apply filterMap_congr
    intro entry member
    have here := mem_zipIdx_iff_getElem?.mp member
    simp only [rowPick,Function.comp_apply,(rows_ordinal bytes here).1]
  rw [pickedFrom,picked,drop_zero,take_of_length_le (by simp),numbered,places,filterMap_map]
  rfl

theorem matchingRows_ordered (bytes : List UInt8) :
    (matchingRows readText filter bytes).Pairwise fun first second => first.ordinal < second.ordinal := by
  have places : (fileLines bytes).zipIdx.Pairwise fun first second => first.2 < second.2 := by
    rw [← pairwise_map (f := Prod.snd) (R := fun first second : Nat => first < second),zipIdx_map_snd]
    exact pairwise_lt_range'
  apply places.filterMap
  intro first second before row isRow other isOther
  simp only [rowOf] at isRow isOther
  split at isRow
  · split at isOther
    · cases isRow
      cases isOther
      exact before
    · cases isOther
  · cases isRow

theorem matchingRows_after {bytes : List UInt8} {before after : List QueryRow} {row : QueryRow}
    (split : matchingRows readText filter bytes = before ++ row::after) :
    (matchingRows readText filter bytes).filter (row.ordinal < ·.ordinal) = after := by
  have ordered := matchingRows_ordered readText filter bytes
  rw [split,pairwise_append] at ordered
  obtain ⟨_,behind,across⟩ := ordered
  have none_before : before.filter (row.ordinal < ·.ordinal) = [] := by
    rw [filter_eq_nil_iff]
    intro other member
    have := across other member row mem_cons_self
    simp only [decide_eq_true_eq]
    omega
  have all_after : after.filter (row.ordinal < ·.ordinal) = after := by
    rw [filter_eq_self]
    intro other member
    exact decide_eq_true ((pairwise_cons.mp behind).1 other member)
  rw [split,filter_append,none_before,filter_cons,all_after]
  simp

end

/-! ### Counts -/

section
variable {Context : Type} {form : CursorForm Context} {context : Context} {readText : List UInt8 → List Char}
  {filter : Option (List Char)} {knownTotal : Option Nat} {bytes : List UInt8} {itemLimit scanLimit : Nat}

/-- The rows before an index are counted, and those of them that match. -/
structure Counts (readText : List UInt8 → List Char) (filter : Option (List Char)) (bytes : List UInt8) (index : Nat)
    (state : QueryState) : Prop where
  bounded : index ≤ (rows bytes).length
  total : state.total = index
  filtered : state.filtered = (picked (rowPick readText filter) (rows bytes) 0 index).length

variable {state : QueryState} {stdout : FileEntry (List UInt8)}

theorem Counts.next {index : Nat} {next : QueryState} {line : BoundedLine} (counts : Counts readText filter bytes index state)
    (here : (rows bytes)[index]? = some line) (total : next.total = state.total+1)
    (filtered : next.filtered = state.filtered + if rowMatches filter (readText line.value) then 1 else 0) :
    Counts readText filter bytes (index+1) next where
  bounded := (List.getElem?_eq_some_iff.mp here).1
  total := by rw [total,counts.total]
  filtered := by
    rw [filtered,counts.filtered,picked_step _ _ (Nat.zero_le index) here,length_append,rowPick]
    split <;> rfl

/-- Where the loop ends: behind the last row, unless a limit or the known total stopped it. -/
def Counted (readText : List UInt8 → List Char) (filter : Option (List Char)) (knownTotal : Option Nat) (bytes : List UInt8)
    (final : QueryState) : Prop :=
  ∃ last, Counts readText filter bytes last final ∧
    (last = (rows bytes).length ∨ final.scanExhausted = true ∨ filter = none ∧ knownTotal.isSome = true)

theorem queryLoop_counts (rest : List BoundedLine) {index : Nat} (left : (rows bytes).drop index = rest)
    (counts : Counts readText filter bytes index state) :
    Counted readText filter knownTotal bytes (queryLoop form context readText filter knownTotal itemLimit scanLimit rest state) := by
  induction rest generalizing index state with
  | nil => exact ⟨index,counts,.inl (Nat.le_antisymm counts.bounded (drop_eq_nil_iff.mp left))⟩
  | cons line rest ih =>
    obtain ⟨here,later⟩ := drop_cons left
    simp only [queryLoop]
    split
    · exact ⟨index,⟨counts.bounded,counts.total,counts.filtered⟩,.inr (.inl rfl)⟩
    split
    · rename_i unfiltered
      simp only [Bool.and_eq_true,Option.isNone_iff_eq_none] at unfiltered
      cases isKnown : knownTotal with
      | some known => exact ⟨index,⟨counts.bounded,counts.total,counts.filtered⟩,.inr (.inr ⟨unfiltered.1,rfl⟩)⟩
      | none =>
        subst isKnown
        exact ih later (counts.next here rfl (by simp [unfiltered.1,rowMatches]))
    split
    · rename_i selected
      split
      · exact ih later (counts.next here rfl (by simp [selected]))
      · exact ih later (counts.next here rfl (by simp [selected]))
    · rename_i unselected
      split
      · exact ih later (counts.next here rfl (by simp [unselected]))
      · exact ih later (counts.next here rfl (by simp [unselected]))

theorem picked_unfiltered (readText : List UInt8 → List Char) (bytes : List UInt8) (index : Nat) (inside : index ≤ (rows bytes).length) :
    (picked (rowPick readText none) (rows bytes) 0 index).length = index := by
  have everything : (rowPick readText none) = fun _ line => some ⟨line.ordinal,String.ofList (readText line.value)⟩ := by
    funext _ line
    simp [rowPick,rowMatches]
  rw [everything,picked,drop_zero,filterMap_eq_map',length_map,length_take,length_zipIdx]
  omega

theorem Counted.page (counted : Counted readText filter knownTotal bytes state)
    (known : ∀ total, knownTotal = some total → total = countQueryRows bytes) :
    (∀ count, (queryPage form context filter knownTotal state).totalCount = some count → count = (fileLines bytes).length) ∧
      ∀ count, (queryPage form context filter knownTotal state).filteredCount = some count →
        count = (matchingRows readText filter bytes).length := by
  obtain ⟨last,counts,ends⟩ := counted
  have total (count : Nat) (given : (queryPage form context filter knownTotal state).totalCount = some count) :
      count = (rows bytes).length := by
    simp only [queryPage] at given
    cases isKnown : knownTotal with
    | some total =>
      rw [isKnown] at given
      cases given
      rw [known total isKnown,countQueryRows_eq,counts.total]
      exact Nat.max_eq_left counts.bounded
    | none =>
      rw [isKnown] at given ends
      dsimp only at given
      split at given
      · cases given
      rename_i going
      cases given
      rcases ends with whole | spent | ⟨_,impossible⟩
      · rw [counts.total,whole]
      · exact absurd spent going
      · cases impossible
  refine ⟨fun count given => fileLines_length bytes ▸ total count given,?_⟩
  intro count given
  rw [← picked_rows,pickedFrom]
  cases isFilter : filter with
  | none =>
    subst isFilter
    rw [picked_unfiltered readText bytes _ (Nat.le_refl _)]
    exact total count given
  | some needle =>
    rw [isFilter] at given counts ends
    simp only [queryPage,Option.isNone_some,Bool.false_eq_true,if_false] at given
    split at given
    · cases given
    rename_i going
    cases given
    rcases ends with whole | spent | ⟨impossible,_⟩
    · rw [counts.filtered,whole]
    · exact absurd spent going
    · cases impossible

variable [DecidableEq Context] {invocationId : List Char}

theorem pageQueryRowsMappedInto_counts {start : Option Nat} {page : PageRequest} {result : Page QueryRow}
    (known : ∀ total, knownTotal = some total → total = countQueryRows (captured stdout)) (stands : Placed (captured stdout) start)
    (cursor : page.cursor = start.map
      (rowCursor form (ordinalContext form "query_rows".toList invocationId filter) readText filter (captured stdout)))
    (ok : pageQueryRowsMappedInto form readText filter knownTotal invocationId page stdout = .ok result) :
    (∀ count, result.totalCount = some count → count = (fileLines (captured stdout)).length) ∧
      ∀ count, result.filteredCount = some count → count = (matchingRows readText filter (captured stdout)).length := by
  simp only [pageQueryRowsMappedInto,cursor,resume_placed] at ok
  split at ok
  · cases ok
  cases stdout with
  | missing =>
    cases ok
    exact ⟨fun count given => (Option.some.inj given).symm,fun count given => (Option.some.inj given).symm⟩
  | unreadable => cases ok
  | present bytes =>
    cases ok
    obtain ⟨offset,ordinal,total,filtered⟩ := placed_start readText filter stands
    have bound := placed_bound stands
    simp only [captured] at offset ordinal total filtered ⊢
    simp only [pageQueryFileFromCursor,offset,ordinal,total,filtered,rows_resume bytes bound]
    exact (queryLoop_counts _ rfl ⟨bound,rfl,rfl⟩).page known

theorem pageQueryRowsMappedInto_answers {start : Option Nat} {page : PageRequest}
    (readable : stdout ≠ .unreadable) (limited : page.itemLimit ≤ 10000) (cursor : page.cursor = start.map
      (rowCursor form (ordinalContext form "query_rows".toList invocationId filter) readText filter (captured stdout))) :
    ∃ result, pageQueryRowsMappedInto form readText filter knownTotal invocationId page stdout = .ok result := by
  simp only [pageQueryRowsMappedInto,cursor,resume_placed]
  rw [if_neg (by omega)]
  cases stdout with
  | missing | present bytes => exact ⟨_,rfl⟩
  | unreadable => exact absurd rfl readable

end

/-! ### Readers of query results -/

structure RowExchange where
  request : PageRequest
  knownTotal : Option Nat
  page : Page QueryRow

section
variable {Context : Type} [DecidableEq Context] (form : CursorForm Context) (readText : List UInt8 → List Char)
  (filter : Option (List Char)) (invocationId : List Char) (stdout : FileEntry (List UInt8))

/-- The store as it answers for one invocation and filter. The number of rows is
known to it, or not, at each request. -/
def rowServer : Server RowExchange (List Char) QueryRow where
  asks exchange := exchange.request.cursor
  items exchange := exchange.page.items
  cursors exchange := exchange.page.itemCursors
  names exchange := exchange.page.nextCursor
  answers exchange := (∀ total, exchange.knownTotal = some total → total = countQueryRows (captured stdout)) ∧
    pageQueryRowsMappedInto form readText filter exchange.knownTotal invocationId exchange.request stdout = .ok exchange.page

/-- What is right about one page: its counts, a cursor for each of its rows that
goes on right behind the row, and that its cursors are taken. -/
structure RightPage (exchange : RowExchange) : Prop where
  total : ∀ count, exchange.page.totalCount = some count → count = (fileLines (captured stdout)).length
  filtered : ∀ count, exchange.page.filteredCount = some count → count = (matchingRows readText filter (captured stdout)).length
  aligned : exchange.page.itemCursors.length = exchange.page.items.length
  behind : ∀ (index : Nat) (row : QueryRow) (cursor : List Char), exchange.page.items[index]? = some row →
    exchange.page.itemCursors[index]? = some cursor → ∀ later, (rowServer form readText filter invocationId stdout).Follows (some cursor) later →
      let rest := (matchingRows readText filter (captured stdout)).filter (row.ordinal < ·.ordinal)
      (rowServer form readText filter invocationId stdout).received later <+: rest ∧
        ((rowServer form readText filter invocationId stdout).Ended later →
          (rowServer form readText filter invocationId stdout).received later = rest)
  taken : ∀ cursor, exchange.page.nextCursor = some cursor ∨ cursor ∈ exchange.page.itemCursors →
    ∀ request : PageRequest, request.cursor = some cursor → request.itemLimit ≤ 10000 →
      ∀ knownTotal, ∃ page, pageQueryRowsMappedInto form readText filter knownTotal invocationId request stdout = .ok page

variable {form readText filter invocationId stdout}

theorem rowServer_faithful :
    (rowServer form readText filter invocationId stdout).Faithful (rowPick readText filter) (rows (captured stdout))
      (rowCursor form (ordinalContext form "query_rows".toList invocationId filter) readText filter (captured stdout)) := by
  intro exchange start stands asks answers
  obtain ⟨known,ok⟩ := answers
  refine ⟨_,pageQueryRowsMappedInto_serves ?_ stands asks ok⟩
  intro total isTotal
  rw [known total isTotal,countQueryRows_eq]

theorem rowServer_right {exchange : RowExchange} {start : Option Nat} (stands : Stands (rows (captured stdout)) start)
    (asks : exchange.request.cursor = start.map
      (rowCursor form (ordinalContext form "query_rows".toList invocationId filter) readText filter (captured stdout)))
    (answers : (rowServer form readText filter invocationId stdout).answers exchange) :
    RightPage form readText filter invocationId stdout exchange := by
  obtain ⟨total,filtered⟩ := pageQueryRowsMappedInto_counts answers.1 stands asks answers.2
  obtain ⟨_,serves⟩ := rowServer_faithful exchange start stands asks answers
  refine ⟨total,filtered,serves.aligned,?_,?_⟩
  · intro index row cursor isRow isCursor later follows
    obtain ⟨stop,isStop,stands,split⟩ := rowServer_faithful.item stands asks answers isRow isCursor
    rw [picked_rows] at split
    have follows : (rowServer form readText filter invocationId stdout).Follows ((some stop).map _) later := isStop ▸ follows
    obtain ⟨shown,whole,_⟩ := rowServer_faithful.reads stands follows
    rw [matchingRows_after readText filter split]
    exact ⟨shown,whole⟩
  intro cursor given request isCursor limited knownTotal
  have placed : ∃ stop, cursor =
      rowCursor form (ordinalContext form "query_rows".toList invocationId filter) readText filter (captured stdout) stop := by
    rcases given with isNext | isItem
    · have isNext : (rowServer form readText filter invocationId stdout).names exchange = some cursor := isNext
      rw [isNext] at serves
      obtain ⟨stop,isStop,_⟩ := serves.goes_on
      exact ⟨stop,isStop⟩
    · obtain ⟨stop,isStop,_⟩ := serves.cursor_at isItem
      exact ⟨stop,isStop⟩
  obtain ⟨stop,isStop⟩ := placed
  have asked : request.cursor = (some stop).map
      (rowCursor form (ordinalContext form "query_rows".toList invocationId filter) readText filter (captured stdout)) :=
    isCursor.trans (congrArg some isStop)
  refine pageQueryRowsMappedInto_answers ?_ limited asked
  intro unreadable
  have failed := answers.2
  simp only [pageQueryRowsMappedInto,asks,resume_placed,unreadable,pageQueryFile] at failed
  split at failed <;> cases failed

/-- Reading on from the first page shows the matching rows in their order and under
their numbers, all of them once a page names no further one; every page on the way
is right. -/
theorem query_pages_exact {exchanges : List RowExchange}
    (follows : (rowServer form readText filter invocationId stdout).Follows none exchanges) :
    (rowServer form readText filter invocationId stdout).received exchanges <+: matchingRows readText filter (captured stdout) ∧
      ((rowServer form readText filter invocationId stdout).Ended exchanges →
        (rowServer form readText filter invocationId stdout).received exchanges = matchingRows readText filter (captured stdout)) ∧
      exchanges.length ≤ (fileLines (captured stdout)).length+1 ∧
      ∀ exchange ∈ exchanges, RightPage form readText filter invocationId stdout exchange := by
  have begins : Stands (rows (captured stdout)) none := fun _ impossible => nomatch impossible
  have reads := rowServer_faithful.reads begins follows
  rw [Option.getD_none,picked_rows,← fileLines_length] at reads
  obtain ⟨shown,whole,few⟩ := reads
  refine ⟨shown,whole,few,?_⟩
  intro exchange member
  obtain ⟨earlier,later,split⟩ := append_of_mem member
  obtain ⟨answers,start,stands,asks,_⟩ := rowServer_faithful.reached begins (split ▸ follows)
  exact rowServer_right stands asks answers

def threeRows : FileEntry (List UInt8) := .present [97,10,98,10,97]

def asText (bytes : List UInt8) : List Char := bytes.map fun byte => Char.ofNat byte.toNat

def askRows (cursor : Option (List Char)) (scanLimit : Nat) : RowExchange :=
  let request : PageRequest := ⟨cursor,1,scanLimit⟩
  ⟨request,none,(pageQueryRowsMappedInto Plain.form asText (some ['A']) none [] request threeRows).toOption.getD {}⟩

def firstRow : RowExchange := askRows none 1
def secondRow : RowExchange := askRows firstRow.page.nextCursor 1
def thirdRow : RowExchange := askRows secondRow.page.nextCursor 5

theorem query_pages_three :
    (rowServer Plain.form asText (some ['A']) [] threeRows).received [firstRow,secondRow,thirdRow] = [⟨0,"a"⟩,⟨2,"a"⟩] ∧
      thirdRow.page.totalCount = some 3 := by
  have follows : (rowServer Plain.form asText (some ['A']) [] threeRows).Follows none [firstRow,secondRow,thirdRow] := by
    refine .more rfl ⟨nofun,by decide +kernel⟩ (Option.eq_some_of_isSome (by decide +kernel : firstRow.page.nextCursor.isSome = true)) ?_
    refine .more ?_ ⟨nofun,by decide +kernel⟩ (Option.eq_some_of_isSome (by decide +kernel : secondRow.page.nextCursor.isSome = true)) ?_
    · exact Option.eq_some_of_isSome (by decide +kernel : firstRow.page.nextCursor.isSome = true)
    refine .last ?_ ⟨nofun,by decide +kernel⟩
    exact Option.eq_some_of_isSome (by decide +kernel : secondRow.page.nextCursor.isSome = true)
  obtain ⟨_,whole,_⟩ := query_pages_exact follows
  refine ⟨(whole ⟨thirdRow,rfl,by decide +kernel⟩).trans (by decide +kernel),by decide +kernel⟩

end
end BazelMcp.QueryRows

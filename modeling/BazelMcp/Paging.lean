import Mathlib.Data.List.Basic

/-! Reading a list page by page. Positions stand between records; a page shows
what is picked from its start on, names the position after each of its items and
where the next page goes on. Keeping only the first items of a page gives a page
again, and the pages of a chain concatenate to what is picked in one reading. -/
namespace BazelMcp.Paging
open List

variable {α β : Type} (pick : Nat → α → Option β) (records : List α)

def picked (start stop : Nat) : List β :=
  ((records.zipIdx.take stop).drop start).filterMap fun entry => pick entry.2 entry.1

def pickedFrom (start : Nat) : List β := picked pick records start records.length

variable {stop : Nat} {pages : List (List β)} {last : Option Nat}

theorem picked_before {start : Nat} (before : stop ≤ start) : picked pick records start stop = [] := by
  have empty : (records.zipIdx.take stop).drop start = [] := by
    apply drop_eq_nil_of_le
    simp only [length_take]
    omega
  simp [picked,empty]

theorem picked_step {start index : Nat} {record : α} (reached : start ≤ index) (here : records[index]? = some record) :
    picked pick records start (index+1) = picked pick records start index ++ (pick index record).toList := by
  obtain ⟨inside,same⟩ := List.getElem?_eq_some_iff.mp here
  have bound : index < records.zipIdx.length := by simpa using inside
  have entry : records.zipIdx[index] = (record,index) := by simp [same]
  have taken : records.zipIdx.take (index+1) = records.zipIdx.take index ++ [(record,index)] := by
    rw [take_add_one,List.getElem?_eq_getElem bound,entry]
    rfl
  have long : start ≤ (records.zipIdx.take index).length := by
    simp only [length_take]
    omega
  rw [picked,taken,drop_append_of_le_length long,filterMap_append]
  congr 1

theorem picked_append {start middle : Nat} (first : start ≤ middle) (second : middle ≤ stop) :
    picked pick records start middle ++ picked pick records middle stop = picked pick records start stop := by
  rw [picked,picked,picked,← filterMap_append]
  congr 1
  have split : records.zipIdx.take stop = records.zipIdx.take middle ++ (records.zipIdx.take stop).drop middle := by
    have := take_append_drop middle (records.zipIdx.take stop)
    rw [take_take,Nat.min_eq_left second] at this
    exact this.symm
  by_cases inside : start ≤ (records.zipIdx.take middle).length
  · conv_rhs => rw [split,drop_append_of_le_length inside]
  simp only [length_take,length_zipIdx] at inside
  rw [drop_eq_nil_of_le (by simp only [length_take,length_zipIdx]; omega),
    drop_eq_nil_of_le (by simp only [length_take,length_zipIdx]; omega),
    drop_eq_nil_of_le (by simp only [length_take,length_zipIdx]; omega)]
  rfl

theorem picked_all (records : List α) (start stop : Nat) :
    picked (fun _ record => some record) records start stop = (records.take stop).drop start := by
  have first : ((records.zipIdx.take stop).drop start).map Prod.fst = (records.take stop).drop start := by
    rw [map_drop,map_take,zipIdx_map_fst]
  rw [picked,← first,← filterMap_eq_map]
  rfl

theorem drop_cons {list rest : List α} {index : Nat} {head : α} (left : list.drop index = head::rest) :
    list[index]? = some head ∧ list.drop (index+1) = rest := by
  constructor
  · have first := congrArg (fun tail => tail[0]?) left
    simpa using first
  · rw [← drop_drop,left]
    rfl

/-- A page from a position: its items, the position after each of them, and
where the next page starts, if there is one. -/
structure IsPage (start : Nat) (items : List β) (stops : List Nat) (next : Option Nat) : Prop where
  aligned : stops.length = items.length
  kept : ∀ index stop, stops[index]? = some stop →
    start < stop ∧ stop ≤ records.length ∧ picked pick records start stop = items.take (index+1)
  ended : next = none → items = pickedFrom pick records start
  resumes : ∀ stop, next = some stop → start < stop ∧ stop ≤ records.length ∧ items = picked pick records start stop

/-- A page being filled, with all positions before an index read. -/
structure Reading (start index : Nat) (items : List β) (stops : List Nat) : Prop where
  bounded : index ≤ records.length
  aligned : stops.length = items.length
  kept : ∀ place stop, stops[place]? = some stop →
    start < stop ∧ stop ≤ records.length ∧ picked pick records start stop = items.take (place+1)
  shown : items = picked pick records start index

variable {pick records} {start index : Nat} {items : List β} {stops : List Nat} {record : α}

theorem reading_start : Reading pick records start 0 [] [] where
  bounded := Nat.zero_le _
  aligned := rfl
  kept _ _ impossible := by simp at impossible
  shown := (picked_before pick records (Nat.zero_le start)).symm

theorem reading_at (inside : start ≤ records.length) : Reading pick records start start [] [] where
  bounded := inside
  aligned := rfl
  kept _ _ impossible := by simp at impossible
  shown := (picked_before pick records (Nat.le_refl start)).symm

namespace Reading

section
variable (reading : Reading pick records start index items stops)
include reading

theorem begun (shown : items ≠ []) : start < index := by
  apply Nat.lt_of_not_le
  intro early
  exact shown (reading.shown.trans (picked_before pick records early))

theorem skip (here : records[index]? = some record)
    (before : index < start) : Reading pick records start (index+1) items stops where
  bounded := (List.getElem?_eq_some_iff.mp here).1
  aligned := reading.aligned
  kept := reading.kept
  shown := by
    rw [picked_before pick records before,reading.shown,picked_before pick records (Nat.le_of_lt before)]

theorem pass (here : records[index]? = some record)
    (reached : start ≤ index) (unpicked : pick index record = none) : Reading pick records start (index+1) items stops where
  bounded := (List.getElem?_eq_some_iff.mp here).1
  aligned := reading.aligned
  kept := reading.kept
  shown := by
    rw [picked_step pick records reached here,unpicked,reading.shown]
    simp

theorem take (here : records[index]? = some record)
    (reached : start ≤ index) {item : β} (isPicked : pick index record = some item) :
    Reading pick records start (index+1) (items ++ [item]) (stops ++ [index+1]) := by
  have bound : index+1 ≤ records.length := (List.getElem?_eq_some_iff.mp here).1
  have shown : items ++ [item] = picked pick records start (index+1) := by
    rw [picked_step pick records reached here,isPicked,reading.shown]
    rfl
  refine ⟨bound,by simp [reading.aligned],?_,shown⟩
  intro place stop isStop
  rcases Nat.lt_or_ge place stops.length with old | new
  · rw [List.getElem?_append_left old] at isStop
    obtain ⟨after,inside,same⟩ := reading.kept place stop isStop
    refine ⟨after,inside,?_⟩
    rw [same,take_append_of_le_length (by have := reading.aligned; omega)]
  rw [List.getElem?_append_right new] at isStop
  have last : place = stops.length := by
    have := (List.getElem?_eq_some_iff.mp isStop).1
    simp at this
    omega
  subst last
  simp only [Nat.sub_self,List.getElem?_cons_zero,Option.some.injEq] at isStop
  subst isStop
  refine ⟨by omega,bound,?_⟩
  rw [← shown,take_of_length_le (by simp [reading.aligned])]

end

theorem finish (reading : Reading pick records start records.length items stops) :
    IsPage pick records start items stops none where
  aligned := reading.aligned
  kept := reading.kept
  ended _ := reading.shown
  resumes _ impossible := by cases impossible

section
variable (reading : Reading pick records start index items stops)
include reading

theorem finish_early (reached : start ≤ index)
    (rest : pickedFrom pick records index = []) : IsPage pick records start items stops none where
  aligned := reading.aligned
  kept := reading.kept
  ended _ := by
    have whole := picked_append pick records reached reading.bounded
    rw [← reading.shown] at whole
    change items ++ pickedFrom pick records index = _ at whole
    rw [rest,append_nil] at whole
    exact whole
  resumes _ impossible := by cases impossible

theorem back {stop : Nat} (reached : start ≤ stop) (behind : stop ≤ index)
    (rest : picked pick records stop index = []) : Reading pick records start stop items stops where
  bounded := Nat.le_trans behind reading.bounded
  aligned := reading.aligned
  kept := reading.kept
  shown := by
    rw [reading.shown,← picked_append pick records reached behind,rest,append_nil]

theorem cut (begun : start < index) : IsPage pick records start items stops (some index) where
  aligned := reading.aligned
  kept := reading.kept
  ended impossible := by cases impossible
  resumes stop same := by
    cases same
    exact ⟨begun,reading.bounded,reading.shown⟩

end

end Reading

/-- A page shortened to some of its items goes on after the last one kept. -/
theorem IsPage.shorten {next : Option Nat} (page : IsPage pick records start items stops next) {count : Nat}
    (isStop : stops[count]? = some stop) :
    IsPage pick records start (items.take (count+1)) (stops.take (count+1)) (some stop) where
  aligned := by simp [page.aligned]
  kept place other isOther := by
    have short : place < count+1 := by
      have := (List.getElem?_eq_some_iff.mp isOther).1
      simp only [length_take] at this
      omega
    rw [List.getElem?_take_of_lt short] at isOther
    obtain ⟨after,inside,same⟩ := page.kept place other isOther
    refine ⟨after,inside,?_⟩
    rw [same,take_take,Nat.min_eq_left short]
  ended impossible := by cases impossible
  resumes other same := by
    cases same
    obtain ⟨after,inside,same⟩ := page.kept count stop isStop
    exact ⟨after,inside,same.symm⟩

/-- A page as it is handed out, its positions written as cursors. -/
def Serves {γ : Type} (pick : Nat → α → Option β) (records : List α) (text : Nat → γ) (start : Nat) (items : List β)
    (cursors : List γ) (next : Option γ) (truncated : Bool) : Prop :=
  ∃ stops stop, IsPage pick records start items stops stop ∧ cursors = stops.map text ∧ next = stop.map text ∧
    truncated = stop.isSome

namespace Serves
variable {γ : Type} {text : Nat → γ} {cursors : List γ} {next : Option γ} {truncated : Bool}

theorem aligned (serves : Serves pick records text start items cursors next truncated) : cursors.length = items.length := by
  obtain ⟨stops,_,page,same,_⟩ := serves
  rw [same,length_map,page.aligned]

theorem truncated_eq (serves : Serves pick records text start items cursors next truncated) : truncated = next.isSome := by
  obtain ⟨_,stop,_,_,isNext,isTruncated⟩ := serves
  rw [isTruncated,isNext,Option.isSome_map]

theorem ended (serves : Serves pick records text start items cursors none truncated) : items = pickedFrom pick records start := by
  obtain ⟨_,stop,page,_,isNext,_⟩ := serves
  exact page.ended (Option.map_eq_none_iff.mp isNext.symm)

theorem goes_on {cursor : γ} (serves : Serves pick records text start items cursors (some cursor) truncated) :
    ∃ stop, cursor = text stop ∧ start < stop ∧ stop ≤ records.length ∧ items = picked pick records start stop := by
  obtain ⟨_,stop,page,_,isNext,_⟩ := serves
  obtain ⟨stop,rfl,same⟩ := Option.map_eq_some_iff.mp isNext.symm
  exact ⟨stop,same.symm,page.resumes stop rfl⟩

theorem cursor_at {cursor : γ} (serves : Serves pick records text start items cursors next truncated) (member : cursor ∈ cursors) :
    ∃ stop, cursor = text stop ∧ start < stop ∧ stop ≤ records.length := by
  obtain ⟨stops,_,page,same,_⟩ := serves
  rw [same] at member
  obtain ⟨stop,isStop,isText⟩ := mem_map.mp member
  obtain ⟨index,here⟩ := mem_iff_getElem?.mp isStop
  obtain ⟨after,inside,_⟩ := page.kept index stop here
  exact ⟨stop,isText.symm,after,inside⟩

theorem recode {ε : Type} (write : γ → ε) (serves : Serves pick records text start items cursors next truncated) :
    Serves pick records (fun position => write (text position)) start items (cursors.map write) (next.map write) truncated := by
  obtain ⟨stops,stop,page,same,isNext,isTruncated⟩ := serves
  refine ⟨stops,stop,page,?_,?_,isTruncated⟩
  · rw [same,map_map]
    rfl
  · rw [isNext,Option.map_map]
    rfl

theorem shorten {count : Nat} (serves : Serves pick records text start items cursors next truncated)
    (fewer : count < items.length) :
    Serves pick records text start (items.take (count+1)) (cursors.take (count+1)) cursors[count]? true := by
  obtain ⟨stops,_,page,same,_⟩ := serves
  have inside : count < stops.length := page.aligned ▸ fewer
  have isStop := List.getElem?_eq_getElem inside
  refine ⟨stops.take (count+1),some stops[count],page.shorten isStop,?_,?_,rfl⟩
  · rw [same,map_take]
  · rw [same,List.getElem?_map,isStop,Option.map_some]

end Serves

/-- What each record shows, if anything: every paged list is one of these. -/
def slots {δ : Type} (display : β → δ) (pick : Nat → α → Option β) (records : List α) : List (Option δ) :=
  records.zipIdx.map fun entry => (pick entry.2 entry.1).map display

def shownSlot {δ : Type} (_ : Nat) (slot : Option δ) : Option δ := slot

section
variable {δ : Type} (display : β → δ)

theorem slots_length (pick : Nat → α → Option β) (records : List α) : (slots display pick records).length = records.length := by
  simp [slots]

theorem picked_shownSlot (list : List (Option δ)) (start stop : Nat) :
    picked shownSlot list start stop = ((list.take stop).drop start).filterMap id := by
  have first : ((list.zipIdx.take stop).drop start).map Prod.fst = (list.take stop).drop start := by
    rw [map_drop,map_take,zipIdx_map_fst]
  rw [picked,← first,filterMap_map]
  rfl

theorem picked_slots (pick : Nat → α → Option β) (records : List α) (start stop : Nat) :
    picked shownSlot (slots display pick records) start stop = (picked pick records start stop).map display := by
  rw [picked_shownSlot,slots,← map_take,← map_drop,filterMap_map,picked,map_filterMap]
  rfl

theorem pickedFrom_slots (pick : Nat → α → Option β) (records : List α) (start : Nat) :
    pickedFrom shownSlot (slots display pick records) start = (pickedFrom pick records start).map display := by
  rw [pickedFrom,slots_length,picked_slots]
  rfl

theorem IsPage.slots {next : Option Nat} (page : IsPage pick records start items stops next) :
    IsPage shownSlot (Paging.slots display pick records) start (items.map display) stops next where
  aligned := by rw [page.aligned,length_map]
  kept index stop isStop := by
    obtain ⟨after,inside,same⟩ := page.kept index stop isStop
    refine ⟨after,by rwa [slots_length],?_⟩
    rw [picked_slots,same,map_take]
  ended isEnd := by rw [pickedFrom_slots,← page.ended isEnd]
  resumes stop isNext := by
    obtain ⟨after,inside,same⟩ := page.resumes stop isNext
    refine ⟨after,by rwa [slots_length],?_⟩
    rw [picked_slots,← same]

theorem Serves.slots {γ : Type} {text : Nat → γ} {cursors : List γ} {next : Option γ} {truncated : Bool}
    (serves : Serves pick records text start items cursors next truncated) :
    Serves shownSlot (Paging.slots display pick records) text start (items.map display) cursors next truncated := by
  obtain ⟨stops,stop,page,same,isNext,isTruncated⟩ := serves
  exact ⟨stops,stop,page.slots display,same,isNext,isTruncated⟩

theorem pickedFrom_filter (keep : α → Bool) (display : α → δ) (records : List α) :
    pickedFrom shownSlot (Paging.slots display (fun _ record => if keep record then some record else none) records) 0 =
      (records.filter keep).map display := by
  rw [pickedFrom_slots,pickedFrom,picked]
  congr 1
  rw [take_of_length_le (by simp),drop_zero]
  have first : records.zipIdx.map Prod.fst = records := zipIdx_map_fst 0 records
  conv_rhs => rw [← first,← filterMap_eq_filter,filterMap_map]
  apply filterMap_congr
  intro entry _
  simp [Option.guard]

end

variable (pick records)

/-- Pages that each start where the one before said. -/
inductive Chain : Nat → List (List β) → Option Nat → Prop
  | single {start : Nat} {items : List β} {stops : List Nat} {next : Option Nat}
      (page : IsPage pick records start items stops next) : Chain start [items] next
  | cons {start stop : Nat} {items : List β} {stops : List Nat} {rest : List (List β)} {last : Option Nat}
      (page : IsPage pick records start items stops (some stop)) (chain : Chain stop rest last) : Chain start (items::rest) last

variable {pick records}

section
variable (chain : Chain pick records start pages last)
include chain

theorem Chain.last_bound : ∀ stop, last = some stop → start < stop ∧ stop ≤ records.length := by
  induction chain with
  | single page =>
    intro stop same
    obtain ⟨after,inside,-⟩ := page.resumes stop same
    exact ⟨after,inside⟩
  | cons page _ ih =>
    intro stop same
    obtain ⟨after,inside⟩ := ih stop same
    obtain ⟨before,-,-⟩ := page.resumes _ rfl
    exact ⟨by omega,inside⟩

/-- The pages show exactly what is picked up to where the chain stands. -/
theorem Chain.exact : pages.flatten = picked pick records start (last.getD records.length) := by
  induction chain with
  | single page =>
    rename_i next
    cases next with
    | none => simpa [pickedFrom] using page.ended rfl
    | some stop => simpa using (page.resumes stop rfl).2.2
  | @cons start stop items stops rest last page chain ih =>
    obtain ⟨after,inside,shown⟩ := page.resumes _ rfl
    rw [flatten_cons,ih,shown]
    apply picked_append pick records (Nat.le_of_lt after)
    cases last with
    | none => exact inside
    | some last => exact Nat.le_of_lt (chain.last_bound last rfl).1

theorem Chain.length_le : pages.length ≤ records.length - start + 1 := by
  induction chain with
  | single _ => simp
  | cons page _ ih =>
    obtain ⟨after,inside,-⟩ := page.resumes _ rfl
    simp only [length_cons]
    omega

/-! ### Readers that follow the cursors -/

end

/-- What is seen of a server of pages in the exchanges with it: the cursor asked
with, and what the page answered holds. -/
structure Server (ε γ β : Type) where
  asks : ε → Option γ
  items : ε → List β
  cursors : ε → List γ
  names : ε → Option γ
  answers : ε → Prop

/-- A position that a cursor may stand for, or the beginning. -/
def Stands (records : List α) (start : Option Nat) : Prop :=
  ∀ position, start = some position → 0 < position ∧ position ≤ records.length

theorem stands_some {stop : Nat} (after : start < stop) (inside : stop ≤ records.length) : Stands records (some stop) := by
  intro position same
  cases same
  exact ⟨by omega,inside⟩

namespace Server
variable {ε γ : Type} (server : Server ε γ β)

/-- Exchanges each of which asks for the page that the one before named. -/
inductive Follows : Option γ → List ε → Prop
  | last {cursor : Option γ} {exchange : ε} (asks : server.asks exchange = cursor) (answers : server.answers exchange) :
      Follows cursor [exchange]
  | more {cursor : Option γ} {exchange : ε} {next : γ} {rest : List ε} (asks : server.asks exchange = cursor)
      (answers : server.answers exchange) (isNext : server.names exchange = some next) (later : Follows (some next) rest) :
      Follows cursor (exchange::rest)

def received (exchanges : List ε) : List β := (exchanges.map server.items).flatten

def Ended (exchanges : List ε) : Prop := ∃ last, exchanges.getLast? = some last ∧ server.names last = none

/-- Every page shows the list from the position asked for. -/
def Faithful (pick : Nat → α → Option β) (records : List α) (text : Nat → γ) : Prop :=
  ∀ exchange start, Stands records start → server.asks exchange = start.map text → server.answers exchange →
    ∃ truncated, Serves pick records text (start.getD 0) (server.items exchange) (server.cursors exchange)
      (server.names exchange) truncated

variable {server} {text : Nat → γ} {exchanges : List ε} {exchange : ε} {start : Option Nat}

/-- The same server, seen only where it is asked for something allowed. -/
def only (server : Server ε γ β) (allowed : ε → Prop) : Server ε γ β :=
  {server with answers := fun exchange => server.answers exchange ∧ allowed exchange}

theorem Follows.only {cursor : Option γ} {allowed : ε → Prop} (follows : server.Follows cursor exchanges)
    (all : ∀ exchange ∈ exchanges, allowed exchange) : (server.only allowed).Follows cursor exchanges := by
  induction follows with
  | last asks answers => exact .last asks ⟨answers,all _ mem_cons_self⟩
  | more asks answers isNext _ ih =>
    exact .more asks ⟨answers,all _ mem_cons_self⟩ isNext (ih fun _ member => all _ (mem_cons_of_mem _ member))

theorem Follows.answers {cursor : Option γ} (follows : server.Follows cursor exchanges) (member : exchange ∈ exchanges) :
    server.answers exchange := by
  induction follows with
  | last _ answers => rwa [mem_singleton.mp member]
  | more _ answers _ _ ih =>
    rcases mem_cons.mp member with same | later
    · rwa [same]
    · exact ih later

theorem Faithful.chain (faithful : server.Faithful pick records text) (stands : Stands records start)
    (follows : server.Follows (start.map text) exchanges) :
    ∃ last, Chain pick records (start.getD 0) (exchanges.map server.items) last ∧ (server.Ended exchanges → last = none) := by
  generalize isCursor : start.map text = cursor at follows
  induction follows generalizing start with
  | last asks answers =>
    obtain ⟨_,stops,stop,page,_,isNext,_⟩ := faithful _ start stands (asks.trans isCursor.symm) answers
    refine ⟨stop,.single page,?_⟩
    intro ended
    obtain ⟨final,isFinal,ends⟩ := ended
    cases isFinal
    exact Option.map_eq_none_iff.mp (isNext.symm.trans ends)
  | @more cursor exchange next rest asks answers isNext later ih =>
    obtain ⟨_,stops,stop,page,_,sameNext,_⟩ := faithful _ start stands (asks.trans isCursor.symm) answers
    obtain ⟨stop,isStop,isText⟩ := Option.map_eq_some_iff.mp (sameNext.symm.trans isNext)
    subst isStop
    obtain ⟨after,inside,_⟩ := page.resumes stop rfl
    obtain ⟨last,chain,ended⟩ := ih (stands_some after inside) (congrArg some isText)
    refine ⟨last,.cons page chain,?_⟩
    intro isEnded
    apply ended
    obtain ⟨final,isFinal,ends⟩ := isEnded
    refine ⟨final,?_,ends⟩
    cases rest with
    | nil => cases later
    | cons second rest => rwa [List.getLast?_cons_cons] at isFinal

/-- What is received is what is picked from the start on, as far as the pages went
and all of it if they ended; and there are only so many pages. -/
theorem Faithful.reads (faithful : server.Faithful pick records text) (stands : Stands records start)
    (follows : server.Follows (start.map text) exchanges) : server.received exchanges <+: pickedFrom pick records (start.getD 0) ∧
      (server.Ended exchanges → server.received exchanges = pickedFrom pick records (start.getD 0)) ∧
      exchanges.length ≤ records.length+1 := by
  obtain ⟨last,chain,ended⟩ := faithful.chain stands follows
  have shown := chain.exact
  have few := chain.length_le
  rw [length_map] at few
  refine ⟨?_,?_,by omega⟩
  · cases last with
    | none => exact ⟨[],by rw [received,shown,append_nil]; rfl⟩
    | some stop =>
      obtain ⟨after,inside⟩ := chain.last_bound stop rfl
      exact ⟨_,by rw [received,shown]; exact picked_append pick records (Nat.le_of_lt after) inside⟩
  · intro isEnded
    rw [received,shown,ended isEnded]
    rfl

/-- Every exchange asks for a position that a cursor may stand for, up to which
everything was received. -/
theorem Faithful.reached (faithful : server.Faithful pick records text) (stands : Stands records start) {earlier later : List ε}
    (follows : server.Follows (start.map text) (earlier ++ exchange::later)) :
    server.answers exchange ∧ ∃ position, Stands records position ∧ server.asks exchange = position.map text ∧
      start.getD 0 ≤ position.getD 0 ∧ server.received earlier = picked pick records (start.getD 0) (position.getD 0) := by
  induction earlier generalizing start with
  | nil =>
    have here := (picked_before pick records (Nat.le_refl (start.getD 0))).symm
    cases follows with
    | last asks answers | more asks answers _ _ => exact ⟨answers,start,stands,asks,Nat.le_refl _,here⟩
  | cons first earlier ih =>
    rw [cons_append] at follows
    generalize isRest : earlier ++ exchange::later = rest at follows ih
    cases follows with
    | last _ _ => simp at isRest
    | more asks answers isNext follows =>
      obtain ⟨_,serves⟩ := faithful first start stands asks answers
      rw [isNext] at serves
      obtain ⟨stop,isStop,after,inside,shown⟩ := serves.goes_on
      rw [isStop] at follows
      obtain ⟨answers,position,placed,asks,behind,before⟩ := ih (stands_some after inside) follows
      refine ⟨answers,position,placed,asks,Nat.le_trans (Nat.le_of_lt after) behind,?_⟩
      have joined := picked_append pick records (Nat.le_of_lt after) behind
      rw [← joined]
      exact congrArg₂ (· ++ ·) shown before

theorem Faithful.item (faithful : server.Faithful pick records text) (stands : Stands records start)
    (asks : server.asks exchange = start.map text) (answers : server.answers exchange) {index : Nat} {item : β} {cursor : γ}
    (isItem : (server.items exchange)[index]? = some item) (isCursor : (server.cursors exchange)[index]? = some cursor) :
    ∃ stop, cursor = text stop ∧ Stands records (some stop) ∧ pickedFrom pick records 0 =
      (picked pick records 0 (start.getD 0) ++ (server.items exchange).take index) ++ item::pickedFrom pick records stop := by
  obtain ⟨_,stops,_,page,same,_⟩ := faithful exchange start stands asks answers
  rw [same,List.getElem?_map] at isCursor
  obtain ⟨stop,isStop,isText⟩ := Option.map_eq_some_iff.mp isCursor
  obtain ⟨after,inside,shown⟩ := page.kept index stop isStop
  rw [take_add_one,isItem] at shown
  refine ⟨stop,isText.symm,stands_some after inside,?_⟩
  have whole := picked_append pick records (Nat.zero_le stop) inside
  rw [← picked_append pick records (Nat.zero_le (start.getD 0)) (Nat.le_of_lt after),shown] at whole
  rw [pickedFrom,← whole,pickedFrom]
  simp

/-- Readers are shown a list: as far as they went, all of it when the pages ended,
which they do; and from the cursor of an item on, what stands behind the item. -/
structure Complete (server : Server ε γ β) (list : List β) : Prop where
  shown : ∀ exchanges, server.Follows none exchanges → server.received exchanges <+: list
  whole : ∀ exchanges, server.Follows none exchanges → server.Ended exchanges → server.received exchanges = list
  ends : ∃ bound, ∀ exchanges, server.Follows none exchanges → exchanges.length ≤ bound
  behind : ∀ (earlier : List ε) (exchange : ε) (later : List ε), server.Follows none (earlier ++ exchange::later) →
    ∀ (index : Nat) (item : β) (cursor : γ), (server.items exchange)[index]? = some item →
      (server.cursors exchange)[index]? = some cursor →
      ∃ rest, list = server.received earlier ++ (server.items exchange).take index ++ item::rest ∧
        ∀ resumed, server.Follows (some cursor) resumed →
          server.received resumed <+: rest ∧ (server.Ended resumed → server.received resumed = rest)

theorem Faithful.complete (faithful : server.Faithful pick records text) : server.Complete (pickedFrom pick records 0) := by
  have begins : Stands records none := fun _ impossible => nomatch impossible
  refine ⟨?_,?_,⟨records.length+1,?_⟩,?_⟩
  · intro exchanges follows
    exact (faithful.reads begins follows).1
  · intro exchanges follows
    exact (faithful.reads begins follows).2.1
  · intro exchanges follows
    exact (faithful.reads begins follows).2.2
  intro earlier exchange later follows index item cursor isItem isCursor
  obtain ⟨answers,position,stands,asks,_,before⟩ := faithful.reached begins follows
  obtain ⟨stop,isStop,stands,split⟩ := faithful.item stands asks answers isItem isCursor
  have before : server.received earlier = picked pick records 0 (position.getD 0) := before
  refine ⟨pickedFrom pick records stop,before ▸ split,?_⟩
  intro resumed follows
  rw [isStop] at follows
  obtain ⟨shown,whole,_⟩ := faithful.reads stands follows
  exact ⟨shown,whole⟩

end Server

end BazelMcp.Paging

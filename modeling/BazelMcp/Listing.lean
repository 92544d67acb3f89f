import Mathlib.Data.List.Count
import Mathlib.Data.List.Sort
import Mathlib.Order.Basic

/-! Listings in descending order that are handed out page by page, while the
listed set may change between two pages. A page resumes strictly below a key, so
what holds of each page alone holds of a whole chain of them. -/
namespace BazelMcp.Listing
open List

variable {κ : Type} [LinearOrder κ]

/-- The keys a page that resumes there may show. -/
def Below (after : Option κ) (key : κ) : Prop := ∀ bound, after = some bound → key < bound

theorem below_none (key : κ) : Below none key := fun _ impossible => nomatch impossible

theorem Below.trans {after : Option κ} {stop key : κ} (less : key < stop) (below : Below after stop) : Below after key :=
  fun bound same => less.trans (below bound same)

/-- A page of the keys visible while it is made: in order, and complete down to
where it stops. -/
structure IsPage (visible : κ → Prop) (after : Option κ) (shown : List κ) (next : Option κ) : Prop where
  descending : shown.Pairwise (· > ·)
  inside : ∀ key ∈ shown, visible key ∧ Below after key
  complete : ∀ key, visible key → Below after key → (∀ stop, next = some stop → stop ≤ key) → key ∈ shown
  resumes : ∀ stop, next = some stop → Below after stop ∧ ∀ key ∈ shown, stop ≤ key

/-- Reading the keys in order: what is left lies below what was shown. -/
structure Reading (visible : κ → Prop) (after : Option κ) (left shown : List κ) : Prop where
  sorted : left.Pairwise (· > ·)
  descending : shown.Pairwise (· > ·)
  inside : ∀ key ∈ shown, visible key ∧ Below after key
  above : ∀ key ∈ shown, ∀ later ∈ left, later < key
  complete : ∀ key, visible key → Below after key → key ∈ shown ∨ key ∈ left

namespace Reading

variable {visible : κ → Prop} {after : Option κ} {left shown : List κ} {key : κ}

theorem start (keys : List κ) (sorted : keys.Pairwise (· > ·)) (listed : ∀ key, visible key → key ∈ keys) :
    Reading visible after keys [] where
  sorted := sorted
  descending := List.Pairwise.nil
  inside := by simp
  above := by simp
  complete key isVisible _ := .inr (listed key isVisible)

theorem skip (reading : Reading visible after (key::left) shown) (hidden : ¬ (visible key ∧ Below after key)) :
    Reading visible after left shown where
  sorted := reading.sorted.of_cons
  descending := reading.descending
  inside := reading.inside
  above earlier isShown later isLeft := reading.above earlier isShown later (mem_cons_of_mem _ isLeft)
  complete other isVisible below := by
    rcases reading.complete other isVisible below with isShown | isLeft
    · exact .inl isShown
    · rcases mem_cons.mp isLeft with rfl | isLeft
      · exact absurd ⟨isVisible,below⟩ hidden
      · exact .inr isLeft

theorem take (reading : Reading visible after (key::left) shown) (isVisible : visible key) (below : Below after key) :
    Reading visible after left (shown ++ [key]) where
  sorted := reading.sorted.of_cons
  descending := by
    rw [pairwise_append]
    refine ⟨reading.descending,pairwise_singleton _ _,?_⟩
    intro earlier isShown later isKey
    rw [mem_singleton.mp isKey]
    exact reading.above earlier isShown key mem_cons_self
  inside := by
    intro other isShown
    rcases mem_append.mp isShown with isShown | isKey
    · exact reading.inside other isShown
    · rw [mem_singleton.mp isKey]
      exact ⟨isVisible,below⟩
  above := by
    intro earlier isShown later isLeft
    rcases mem_append.mp isShown with isShown | isKey
    · exact reading.above earlier isShown later (mem_cons_of_mem _ isLeft)
    · rw [mem_singleton.mp isKey]
      exact rel_of_pairwise_cons reading.sorted isLeft
  complete other isOther otherBelow := by
    rcases reading.complete other isOther otherBelow with isShown | isLeft
    · exact .inl (mem_append_left _ isShown)
    · rcases mem_cons.mp isLeft with rfl | isLeft
      · exact .inl (mem_append_right _ mem_cons_self)
      · exact .inr isLeft

theorem finish (reading : Reading visible after [] shown) : IsPage visible after shown none where
  descending := reading.descending
  inside := reading.inside
  complete key isVisible below _ := (reading.complete key isVisible below).resolve_right not_mem_nil
  resumes _ impossible := nomatch impossible

theorem cut {stop : κ} (reading : Reading visible after left shown) (below : Below after stop)
    (lower : ∀ key ∈ shown, stop ≤ key) (upper : ∀ key ∈ left, key < stop) : IsPage visible after shown (some stop) where
  descending := reading.descending
  inside := reading.inside
  complete key isVisible keyBelow reached := by
    rcases reading.complete key isVisible keyBelow with isShown | isLeft
    · exact isShown
    · exact absurd (upper key isLeft) (not_lt.mpr (reached stop rfl))
  resumes other same := by
    cases same
    exact ⟨below,lower⟩

end Reading

/-- Pages chained by where each one stops; the last of them may have ended the listing. -/
inductive Chain : Option κ → List ((κ → Prop) × List κ) → Option κ → Prop
  | single {visible : κ → Prop} {after next : Option κ} {shown : List κ} (page : IsPage visible after shown next) :
      Chain after [(visible,shown)] next
  | cons {visible : κ → Prop} {after last : Option κ} {shown : List κ} {stop : κ}
      {rest : List ((κ → Prop) × List κ)} (page : IsPage visible after shown (some stop)) (chain : Chain (some stop) rest last) :
      Chain after ((visible,shown)::rest) last

def allShown (pages : List ((κ → Prop) × List κ)) : List κ := pages.flatMap Prod.snd

variable {pages : List ((κ → Prop) × List κ)}

theorem Chain.within {after last : Option κ} (chain : Chain after pages last) : ∀ key ∈ allShown pages, Below after key := by
  induction chain with
  | single page =>
    intro key isShown
    simp only [allShown,flatMap_singleton] at isShown
    exact (page.inside key isShown).2
  | cons page _ ih =>
    intro key isShown
    simp only [allShown,flatMap_cons,mem_append] at isShown
    rcases isShown with isShown | later
    · exact (page.inside key isShown).2
    · exact (page.resumes _ rfl).1.trans (ih key later _ rfl)

theorem Chain.descending {after last : Option κ} (chain : Chain after pages last) : (allShown pages).Pairwise (· > ·) := by
  induction chain with
  | single page => simpa [allShown] using page.descending
  | cons page chain ih =>
    simp only [allShown,flatMap_cons,pairwise_append]
    refine ⟨page.descending,ih,?_⟩
    intro earlier isShown later isLater
    exact lt_of_lt_of_le (chain.within later isLater _ rfl) ((page.resumes _ rfl).2 earlier isShown)

/-- A chain that ended has shown what was visible all along. -/
theorem Chain.complete [BEq κ] [LawfulBEq κ] {after : Option κ} (chain : Chain after pages none) {key : κ}
    (below : Below after key) (visible : ∀ page ∈ pages, page.1 key) : (allShown pages).count key = 1 := by
  have shown : key ∈ allShown pages := by
    generalize same : (none : Option κ) = last at chain
    induction chain with
    | single page =>
      subst same
      simp only [allShown,flatMap_singleton]
      exact page.complete key (visible _ mem_cons_self) below (fun _ impossible => nomatch impossible)
    | @cons _ _ _ _ stop _ page chain ih =>
      simp only [allShown,flatMap_cons,mem_append]
      by_cases reached : stop ≤ key
      · left
        apply page.complete key (visible _ mem_cons_self) below
        intro other equal
        cases equal
        exact reached
      right
      apply ih
      · intro bound equal
        cases equal
        exact not_le.mp reached
      · intro later isLater
        exact visible later (mem_cons_of_mem _ isLater)
      · exact same
  have distinct : (allShown pages).Nodup := chain.descending.imp fun greater => ne_of_gt greater
  exact count_eq_one_of_mem distinct shown

end BazelMcp.Listing

import Mathlib.Data.List.Induction
import Mathlib.Data.List.Sort

/-! Sequences grouped by keys, and stable sorting by a rank. An element is merged
into the entry of its key, and a new key gets an entry behind the others. -/
namespace BazelMcp
open List

structure Grouping (α β κ : Type) where
  key : α → κ
  keyOf : β → κ
  opened : α → β
  merge : β → α → β
  keyOf_opened (element : α) : keyOf (opened element) = key element
  keyOf_merge (entry : β) (element : α) (same : keyOf entry = key element) : keyOf (merge entry element) = keyOf entry

namespace Grouping
variable {α β κ : Type} [DecidableEq κ] (plan : Grouping α β κ)

def enter (element : α) : List β → List β
  | [] => [plan.opened element]
  | entry::rest => if plan.keyOf entry = plan.key element then plan.merge entry element::rest else entry::enter element rest

def collect (entries : List β) (elements : List α) : List β :=
  elements.foldl (fun entries element => plan.enter element entries) entries

/-- What an element makes of the entry of its key. -/
def joined (entry : Option β) (element : α) : Option β := some (entry.elim (plan.opened element) (plan.merge · element))

variable (key : κ) (entries : List β) (elements : List α)

def keys : List κ := entries.map plan.keyOf

def entryOf : Option β := entries.find? fun entry => decide (plan.keyOf entry = key)

theorem keys_enter (element : α) : plan.keys (plan.enter element entries) =
    if plan.key element ∈ plan.keys entries then plan.keys entries else plan.keys entries ++ [plan.key element] := by
  unfold keys
  induction entries with
  | nil => simp [enter,plan.keyOf_opened]
  | cons entry rest ih =>
    unfold enter
    split
    · rename_i same
      simp [plan.keyOf_merge entry element same,same]
    · rename_i other
      simp only [map_cons,ih,mem_cons,Ne.symm other,false_or]
      split <;> simp

theorem entryOf_enter (element : α) : plan.entryOf key (plan.enter element entries) =
    if plan.key element = key then plan.joined (plan.entryOf key entries) element else plan.entryOf key entries := by
  unfold entryOf
  induction entries with
  | nil => by_cases same : plan.key element = key <;> simp [enter,joined,plan.keyOf_opened,same]
  | cons entry rest ih =>
    unfold enter
    split
    · rename_i same
      by_cases here : plan.keyOf entry = key <;> simp [joined,plan.keyOf_merge entry element same,here,← same]
    rename_i other
    by_cases here : plan.keyOf entry = key
    · have elsewhere : plan.key element ≠ key := fun same => other (here.trans same.symm)
      simp [here,elsewhere]
    · simpa [here] using ih

/-- The entry of a key comes from the elements with that key alone. -/
theorem entryOf_collect : plan.entryOf key (plan.collect entries elements) =
    (elements.filter fun element => decide (plan.key element = key)).foldl plan.joined (plan.entryOf key entries) := by
  induction elements generalizing entries with
  | nil => rfl
  | cons element rest ih =>
    refine (ih _).trans ?_
    rw [entryOf_enter]
    by_cases same : plan.key element = key <;> simp [same]

theorem enter_fresh {element : α} (fresh : plan.key element ∉ plan.keys entries) :
    plan.enter element entries = entries ++ [plan.opened element] := by
  induction entries with
  | nil => rfl
  | cons entry rest ih =>
    obtain ⟨other,fresh⟩ := not_or.mp (mt mem_cons.mpr fresh)
    rw [enter,if_neg (Ne.symm other),ih fresh]
    rfl

theorem collect_append (more : List α) : plan.collect entries (elements ++ more) = plan.collect (plan.collect entries elements) more :=
  foldl_append

theorem collect_concat (element : α) : plan.collect [] (elements ++ [element]) = plan.enter element (plan.collect [] elements) :=
  plan.collect_append _ _ _

theorem mem_keys : key ∈ plan.keys (plan.collect [] elements) ↔ key ∈ elements.map plan.key := by
  induction elements using List.reverseRecOn with
  | nil => rfl
  | append_singleton elements element ih =>
    rw [collect_concat,keys_enter,map_append,mem_append,← ih,map_singleton,mem_singleton]
    split
    · rename_i known
      exact ⟨.inl,fun either => either.elim (fun before => before) (fun last => last ▸ known)⟩
    · rw [mem_append,mem_singleton]

theorem keys_ordered : (plan.keys (plan.collect [] elements)).Pairwise fun first second =>
    (elements.map plan.key).idxOf first < (elements.map plan.key).idxOf second := by
  induction elements using List.reverseRecOn with
  | nil => exact List.Pairwise.nil
  | append_singleton elements element ih =>
    rw [collect_concat,keys_enter,map_append]
    have occurred {key : κ} (member : key ∈ plan.keys (plan.collect [] elements)) :
        (elements.map plan.key ++ [element].map plan.key).idxOf key = (elements.map plan.key).idxOf key :=
      idxOf_append_of_mem ((plan.mem_keys key elements).mp member)
    have before := ih.imp_of_mem fun first second earlier => (occurred first).trans_lt (earlier.trans_eq (occurred second).symm)
    split
    · exact before
    rename_i fresh
    refine pairwise_append.mpr ⟨before,pairwise_singleton _ _,?_⟩
    intro key member last isLast
    rw [mem_singleton.mp isLast,occurred member,
      idxOf_append_of_notMem fun found => fresh ((plan.mem_keys _ _).mpr found)]
    exact Nat.lt_add_right _ (idxOf_lt_length_iff.mpr ((plan.mem_keys key elements).mp member))

theorem entryOf_of_mem {entry : β} (distinct : (plan.keys entries).Nodup) (member : entry ∈ entries) :
    plan.entryOf (plan.keyOf entry) entries = some entry := by
  induction entries with
  | nil => cases member
  | cons other rest ih =>
    obtain ⟨fresh,distinct⟩ := nodup_cons.mp distinct
    rcases mem_cons.mp member with here | behind
    · simp [entryOf,here]
    · have different : plan.keyOf other ≠ plan.keyOf entry := fun same => fresh (same ▸ mem_map_of_mem behind)
      simpa [entryOf,different] using ih distinct behind

theorem group_of_mem {entry : β} (member : entry ∈ plan.collect [] elements) : ∃ first rest,
    (elements.filter fun element => decide (plan.key element = plan.keyOf entry)) = first::rest ∧
      entry = rest.foldl plan.merge (plan.opened first) := by
  have found := plan.entryOf_of_mem _ ((plan.keys_ordered elements).imp fun earlier same => (same ▸ earlier).false) member
  rw [entryOf_collect] at found
  have merged (entry : β) (rest : List α) : rest.foldl plan.joined (some entry) = some (rest.foldl plan.merge entry) := by
    induction rest generalizing entry with
    | nil => rfl
    | cons element rest ih => exact ih _
  cases group : elements.filter fun element => decide (plan.key element = plan.keyOf entry) with
  | nil =>
    rw [group] at found
    cases found
  | cons first rest =>
    rw [group] at found
    exact ⟨first,rest,rfl,(Option.some.inj ((merged _ _).symm.trans found)).symm⟩

theorem collect_distinct (distinct : (elements.map plan.key).Nodup) : plan.collect [] elements = elements.map plan.opened := by
  induction elements using List.reverseRecOn with
  | nil => rfl
  | append_singleton elements element ih =>
    rw [map_append,nodup_append] at distinct
    have fresh : plan.key element ∉ plan.keys (plan.collect [] elements) := fun known =>
      distinct.2.2 _ ((plan.mem_keys _ _).mp known) _ (mem_singleton_self _) rfl
    rw [collect_concat,enter_fresh _ _ fresh,ih distinct.1,map_append]
    rfl

/-- Elements of some keys are grouped as if there were no others. -/
theorem filter_collect {elementKept : α → Bool} {entryKept : β → Bool}
    (opens : ∀ element, entryKept (plan.opened element) = elementKept element)
    (merges : ∀ entry element, plan.keyOf entry = plan.key element →
      entryKept entry = elementKept element ∧ entryKept (plan.merge entry element) = elementKept element) :
    (plan.collect entries elements).filter entryKept = plan.collect (entries.filter entryKept) (elements.filter elementKept) := by
  have entered (element : α) (entries : List β) : (plan.enter element entries).filter entryKept =
      if elementKept element then plan.enter element (entries.filter entryKept) else entries.filter entryKept := by
    induction entries with
    | nil => cases kept : elementKept element <;> simp [enter,opens,kept]
    | cons entry rest ih =>
      rw [enter]
      split
      · rename_i same
        obtain ⟨before,after⟩ := merges entry element same
        cases kept : elementKept element <;> simp [before,after,kept,same,enter]
      · rename_i other
        rw [filter_cons,ih,filter_cons]
        cases elementKept element <;> cases entryKept entry <;> simp [enter,other]
  induction elements generalizing entries with
  | nil => rfl
  | cons element rest ih =>
    refine (ih _).trans ?_
    rw [entered,filter_cons]
    split <;> rfl

end Grouping

/-! ### Stable sorting -/

namespace Ranking
variable {β ρ : Type} [LinearOrder ρ] (rank : β → ρ) (entries : List β)

abbrev ranked : List β := entries.insertionSort fun left right => rank left ≤ rank right

abbrev Sorted : Prop := entries.Pairwise fun left right => rank left ≤ rank right

abbrev level (value : ρ) : List β := entries.filter fun entry => decide (rank entry = value)

theorem ranked_sorted : Sorted rank (ranked rank entries) := by
  exact pairwise_insertionSort _ entries

theorem level_ranked (value : ρ) : level rank (ranked rank entries) value = level rank entries value := by
  have even : Sorted rank (level rank entries value) := by
    apply pairwise_of_forall_mem_list
    intro left leftKept right rightKept
    simp only [mem_filter,decide_eq_true_eq] at leftKept rightKept
    rw [leftKept.2,rightKept.2]
  have inside := (sublist_insertionSort even filter_sublist).filter fun entry => decide (rank entry = value)
  simp only [filter_filter,Bool.and_self] at inside
  exact (inside.eq_of_length ((perm_insertionSort _ entries).filter _).length_eq.symm).symm

variable {entries} {others : List β}

/-- A sorted list is told by its levels. -/
theorem eq_of_levels (sorted : Sorted rank entries) (othersSorted : Sorted rank others)
    (same : ∀ value, level rank entries value = level rank others value) : entries = others := by
  induction entries generalizing others with
  | nil =>
    cases others with
    | nil => rfl
    | cons other rest => simpa using same (rank other)
  | cons entry rest ih =>
    have found : entry ∈ level rank others (rank entry) := by
      rw [← same]
      simp
    cases others with
    | nil => cases found
    | cons other behind =>
      have back : other ∈ level rank (entry::rest) (rank other) := by
        rw [same]
        simp
      obtain ⟨least,restSorted⟩ := pairwise_cons.mp sorted
      obtain ⟨otherLeast,behindSorted⟩ := pairwise_cons.mp othersSorted
      have even : rank entry = rank other := by
        apply le_antisymm
        · exact (mem_cons.mp (mem_filter.mp back).1).elim (fun here => here ▸ le_rfl) (least other)
        · exact (mem_cons.mp (mem_filter.mp found).1).elim (fun here => here ▸ le_rfl) (otherLeast entry)
      have heads := same (rank other)
      rw [level,level,filter_cons_of_pos (by simpa using even),filter_cons_of_pos (by simp)] at heads
      obtain ⟨here,_⟩ := List.cons.inj heads
      subst here
      refine congrArg _ (ih restSorted behindSorted ?_)
      intro value
      have whole := same value
      simp only [level,filter_cons] at whole
      split at whole
      · exact (List.cons.inj whole).2
      · exact whole

theorem ranked_stable {before : β → β → Prop} (ordered : entries.Pairwise before) :
    (ranked rank entries).Pairwise fun left right => rank left < rank right ∨ rank left = rank right ∧ before left right := by
  have even (value : ρ) : (level rank (ranked rank entries) value).Pairwise before := by
    rw [level_ranked]
    exact ordered.sublist filter_sublist
  have sorted := ranked_sorted rank entries
  generalize ranked rank entries = result at even sorted
  induction result with
  | nil => exact List.Pairwise.nil
  | cons entry rest ih =>
    obtain ⟨least,sorted⟩ := pairwise_cons.mp sorted
    refine pairwise_cons.mpr ⟨?_,ih (fun value => (even value).sublist ((sublist_cons_self _ _).filter _)) sorted⟩
    intro other member
    rcases lt_or_eq_of_le (least other member) with below | same
    · exact .inl below
    · have heads := even (rank entry)
      rw [level,filter_cons_of_pos (by simp)] at heads
      exact .inr ⟨same,(pairwise_cons.mp heads).1 other (mem_filter.mpr ⟨member,by simpa using same.symm⟩)⟩

end Ranking

end BazelMcp

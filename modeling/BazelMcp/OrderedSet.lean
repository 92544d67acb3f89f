import Mathlib.Data.List.Pairwise
import Mathlib.Order.Lattice

/-! Finite sets kept in descending order, as a search tree hands them out from its
greatest element on. The order is part of the value. -/
namespace BazelMcp

structure OrderedSet (κ : Type) [LinearOrder κ] where
  keys : List κ
  sorted : keys.Pairwise (· > ·)

namespace OrderedSet
variable {κ : Type} [LinearOrder κ]

instance : DecidableEq (OrderedSet κ) := fun left right =>
  decidable_of_iff (left.keys = right.keys) ⟨fun same => by cases left; cases right; cases same; rfl,fun same => by rw [same]⟩

instance : Membership κ (OrderedSet κ) := ⟨fun set key => key ∈ set.keys⟩

instance : EmptyCollection (OrderedSet κ) := ⟨⟨[],List.Pairwise.nil⟩⟩

instance (key : κ) (set : OrderedSet κ) : Decidable (key ∈ set) := inferInstanceAs (Decidable (key ∈ set.keys))

def insertKey (key : κ) : List κ → List κ
  | [] => [key]
  | head::rest => if head < key then key::head::rest else if head = key then head::rest else head::insertKey key rest

theorem mem_insertKey {key found : κ} {keys : List κ} : found ∈ insertKey key keys ↔ found = key ∨ found ∈ keys := by
  induction keys with
  | nil => simp [insertKey]
  | cons head rest ih =>
    simp only [insertKey]
    split
    · exact List.mem_cons
    split
    · rename_i same
      subst same
      simp
    · rw [List.mem_cons,ih,List.mem_cons]
      exact or_left_comm

theorem insertKey_sorted (key : κ) {keys : List κ} (sorted : keys.Pairwise (· > ·)) : (insertKey key keys).Pairwise (· > ·) := by
  induction keys with
  | nil => exact List.pairwise_singleton _ _
  | cons head rest ih =>
    simp only [insertKey]
    split
    · rename_i below
      refine List.Pairwise.cons ?_ sorted
      intro found member
      rcases List.mem_cons.mp member with same | member
      · exact same ▸ below
      · exact (List.rel_of_pairwise_cons sorted member).trans below
    split
    · exact sorted
    rename_i notBelow different
    refine List.Pairwise.cons ?_ (ih sorted.of_cons)
    intro found member
    rcases mem_insertKey.mp member with same | member
    · exact same ▸ lt_of_le_of_ne (not_lt.mp notBelow) (Ne.symm different)
    · exact List.rel_of_pairwise_cons sorted member

def insert (key : κ) (set : OrderedSet κ) : OrderedSet κ := ⟨insertKey key set.keys,insertKey_sorted key set.sorted⟩

def erase (set : OrderedSet κ) (key : κ) : OrderedSet κ := ⟨set.keys.filter (· ≠ key),set.sorted.filter _⟩

@[simp] theorem not_mem_empty (key : κ) : key ∉ (∅ : OrderedSet κ) := List.not_mem_nil

@[simp] theorem mem_insert {key found : κ} {set : OrderedSet κ} : found ∈ set.insert key ↔ found = key ∨ found ∈ set :=
  mem_insertKey

@[simp] theorem mem_erase {key found : κ} {set : OrderedSet κ} : found ∈ set.erase key ↔ found ≠ key ∧ found ∈ set := by
  change found ∈ set.keys.filter _ ↔ _
  rw [List.mem_filter,decide_eq_true_eq,and_comm]
  rfl

end OrderedSet
end BazelMcp

import Mathlib.Algebra.Order.Ring.Nat
import Mathlib.Order.Fin.Basic
import Mathlib.Tactic.Positivity

/-! Universally unique identifiers: 128 bits, compared byte by byte from the most
significant one, and their hyphenated lower-case text. The text sorts as the
identifier does, so a position in a listing may be handed out as text. -/
namespace BazelMcp

/-- The sixteen bytes, read as one big-endian number. -/
abbrev Uuid := Fin 0x100000000000000000000000000000000

namespace Uuid

instance : NeZero 0x100000000000000000000000000000000 := ⟨by decide⟩

instance : LawfulBEq Uuid := inferInstance

def hexDigit (value : Nat) : Char := if value < 10 then Char.ofNat (48+value) else Char.ofNat (87+value)

/-- What stands before the digit when so many digits are left: groups of 8, 4, 4, 4 and 12. -/
def separator (left : Nat) : List Char := if left = 24 ∨ left = 20 ∨ left = 16 ∨ left = 12 then ['-'] else []

def digits : Nat → Nat → List Char
  | 0, _ => []
  | left+1, value => separator (left+1) ++ hexDigit (value / 16^left % 16)::digits left value

def text (uuid : Uuid) : List Char := digits 32 uuid.val

theorem hexDigit_lt : ∀ first < 16, ∀ second < 16, (hexDigit first < hexDigit second ↔ first < second) := by decide

theorem hexDigit_inj : ∀ first < 16, ∀ second < 16, (hexDigit first = hexDigit second ↔ first = second) := by decide

theorem separator_append_lt (left : Nat) (first second : List Char) :
    separator left ++ first < separator left ++ second ↔ first < second := by
  unfold separator
  split
  · simp
  · exact Iff.rfl

theorem digits_lt (count first second : Nat) :
    digits count first < digits count second ↔ first % 16^count < second % 16^count := by
  induction count with
  | zero => simp [digits,Nat.mod_one]
  | succ left ih =>
    simp only [digits,separator_append_lt,List.cons_lt_cons_iff]
    have bound (value : Nat) : value / 16^left % 16 < 16 := Nat.mod_lt _ (by decide)
    rw [hexDigit_lt _ (bound first) _ (bound second),hexDigit_inj _ (bound first) _ (bound second),ih]
    have split (value : Nat) : value % 16^(left+1) = value % 16^left + 16^left * (value / 16^left % 16) := by
      rw [pow_succ,Nat.mod_mul]
    have low (value : Nat) : value % 16^left < 16^left := Nat.mod_lt _ (by positivity)
    rw [split first,split second]
    generalize first / 16^left % 16 = a
    generalize second / 16^left % 16 = b
    have lowFirst := low first
    have lowSecond := low second
    generalize first % 16^left = x at *
    generalize second % 16^left = y at *
    generalize 16^left = unit at *
    constructor
    · intro either
      rcases either with less | ⟨rfl,less⟩
      · calc x + unit * a < unit * (a+1) := by rw [Nat.mul_succ]; omega
          _ ≤ unit * b := Nat.mul_le_mul_left _ less
          _ ≤ y + unit * b := Nat.le_add_left _ _
      · omega
    · intro less
      rcases Nat.lt_trichotomy a b with smaller | rfl | larger
      · exact .inl smaller
      · exact .inr ⟨rfl,by omega⟩
      · have := Nat.mul_le_mul_left unit larger
        rw [Nat.mul_succ] at this
        omega

theorem text_lt (first second : Uuid) : text first < text second ↔ first < second := by
  have small (uuid : Uuid) : uuid.val % 16^32 = uuid.val := Nat.mod_eq_of_lt uuid.isLt
  rw [text,text,digits_lt,small,small]
  exact Iff.rfl

end Uuid
end BazelMcp

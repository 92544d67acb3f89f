import Mathlib.Data.List.Basic
import Mathlib.Data.List.Infix

/-! Byte positions of character sequences. A text is its list of scalar values;
its length and its cut positions are those of the UTF-8 encoding, so a cut is
only legal between characters. Nothing here depends on what the texts say. -/
namespace BazelMcp.Utf8

def byteLen : List Char → Nat
  | [] => 0
  | char::rest => char.utf8Size + byteLen rest

/-- A position is a boundary exactly when some prefix of the text ends there. -/
def isCharBoundary : List Char → Nat → Bool
  | _, 0 => true
  | [], _+1 => false
  | char::rest, position+1 =>
    decide (char.utf8Size ≤ position+1) && isCharBoundary rest (position+1-char.utf8Size)

/-- The loop that walks a position down until it is a boundary. -/
def floorBoundary (text : List Char) : Nat → Nat
  | 0 => 0
  | position+1 => if isCharBoundary text (position+1) then position+1 else floorBoundary text position

def takeBytes : Nat → List Char → List Char
  | _, [] => []
  | count, char::rest =>
    if char.utf8Size ≤ count then char::takeBytes (count-char.utf8Size) rest else []

def dropBytes : Nat → List Char → List Char
  | _, [] => []
  | count, char::rest =>
    if char.utf8Size ≤ count then dropBytes (count-char.utf8Size) rest else char::rest

@[simp] theorem byteLen_nil : byteLen [] = 0 := rfl

@[simp] theorem byteLen_cons (char : Char) (rest : List Char) :
    byteLen (char::rest) = char.utf8Size + byteLen rest := rfl

variable (first second : List Char) {count : Nat} {text : List Char}

@[simp] theorem byteLen_append : byteLen (first++second) = byteLen first + byteLen second := by
  induction first with
  | nil => simp
  | cons char rest ih => simp [ih,Nat.add_assoc]

theorem byteLen_replicate {char : Char} (single : char.utf8Size = 1) (count : Nat) : byteLen (List.replicate count char) = count := by
  induction count with
  | zero => rfl
  | succ count ih => rw [List.replicate_succ,byteLen_cons,ih,single,Nat.add_comm]

@[simp] theorem takeBytes_zero (text : List Char) : takeBytes 0 text = [] := by
  cases text with
  | nil => rfl
  | cons char rest =>
    have width := char.utf8Size_pos
    rw [takeBytes,if_neg (by omega)]

theorem takeBytes_isPrefix (count : Nat) (text : List Char) : takeBytes count text <+: text := by
  induction text generalizing count with
  | nil => exact List.nil_prefix
  | cons char rest ih =>
    simp only [takeBytes]
    split
    · exact List.cons_prefix_cons.mpr ⟨rfl,ih _⟩
    · exact List.nil_prefix

theorem takeBytes_append_dropBytes (count : Nat) (text : List Char) : takeBytes count text ++ dropBytes count text = text := by
  induction text generalizing count with
  | nil => rfl
  | cons char rest ih =>
    simp only [takeBytes,dropBytes]
    split
    · simp [ih]
    · rfl

theorem byteLen_takeBytes_le (count : Nat) (text : List Char) : byteLen (takeBytes count text) ≤ count := by
  induction text generalizing count with
  | nil => simp [takeBytes]
  | cons char rest ih =>
    simp only [takeBytes]
    split
    · rename_i fits
      have tail := ih (count-char.utf8Size)
      simp only [byteLen_cons]
      omega
    · simp

theorem takeBytes_append_of_le (inside : count ≤ byteLen first) : takeBytes count (first++second) = takeBytes count first := by
  induction first generalizing count with
  | nil =>
    have zero : count = 0 := by simpa using inside
    rw [zero,takeBytes_zero,takeBytes_zero]
  | cons char rest ih =>
    simp only [byteLen_cons] at inside
    simp only [List.cons_append,takeBytes]
    split
    · rw [ih (by omega)]
    · rfl

theorem takeBytes_append_of_ge (beyond : byteLen first ≤ count) :
    takeBytes count (first++second) = first ++ takeBytes (count-byteLen first) second := by
  induction first generalizing count with
  | nil => simp
  | cons char rest ih =>
    simp only [byteLen_cons] at beyond
    have head : char.utf8Size ≤ count := by omega
    simp only [List.cons_append,takeBytes,head,if_true]
    rw [ih (by omega),byteLen_cons,Nat.sub_sub]

theorem takeBytes_of_le (fits : byteLen text ≤ count) : takeBytes count text = text := by
  simpa [takeBytes] using takeBytes_append_of_ge text [] fits

theorem takeBytes_byteLen {first second : List Char} (cut : first <+: second) : takeBytes (byteLen first) second = first := by
  obtain ⟨rest,rfl⟩ := cut
  simpa using takeBytes_append_of_ge first rest (Nat.le_refl _)

theorem isCharBoundary_takeBytes (count : Nat) (text : List Char) :
    isCharBoundary text (byteLen (takeBytes count text)) = true := by
  induction text generalizing count with
  | nil => rfl
  | cons char rest ih =>
    simp only [takeBytes]
    split
    · have width := char.utf8Size_pos
      simp only [byteLen_cons]
      obtain ⟨n,size⟩ : ∃ n, char.utf8Size + byteLen (takeBytes (count-char.utf8Size) rest) = n+1 :=
        ⟨char.utf8Size + byteLen (takeBytes (count-char.utf8Size) rest) - 1,by omega⟩
      rw [size]
      simp only [isCharBoundary,Bool.and_eq_true,decide_eq_true_eq]
      refine ⟨by omega,?_⟩
      rw [← size,Nat.add_sub_cancel_left]
      exact ih _
    · rfl

theorem boundary_le_takeBytes {position : Nat} (boundary : isCharBoundary text position = true) (below : position ≤ count) :
    position ≤ byteLen (takeBytes count text) := by
  induction text generalizing position count with
  | nil =>
    cases position with
    | zero => simp
    | succ position => simp [isCharBoundary] at boundary
  | cons char rest ih =>
    cases position with
    | zero => simp
    | succ position =>
      simp only [isCharBoundary,Bool.and_eq_true,decide_eq_true_eq] at boundary
      have head : char.utf8Size ≤ count := by omega
      have tail := ih boundary.2 (by omega : position+1-char.utf8Size ≤ count-char.utf8Size)
      simp only [takeBytes,head,if_true,byteLen_cons]
      omega

/-- The downward walk stops at the last boundary that is not beyond its start,
which is where the longest fitting prefix ends. -/
theorem floorBoundary_eq (text : List Char) (position : Nat) :
    floorBoundary text position = byteLen (takeBytes position text) := by
  induction position with
  | zero =>
    have bound := byteLen_takeBytes_le 0 text
    simp only [floorBoundary]
    omega
  | succ position ih =>
    simp only [floorBoundary]
    split
    · rename_i boundary
      exact Nat.le_antisymm (boundary_le_takeBytes boundary (Nat.le_refl _)) (byteLen_takeBytes_le _ _)
    rename_i inside
    have bound := byteLen_takeBytes_le (position+1) text
    have reached := isCharBoundary_takeBytes (position+1) text
    have strict : byteLen (takeBytes (position+1) text) ≠ position+1 := by
      intro same
      rw [same] at reached
      exact inside reached
    have lower := boundary_le_takeBytes reached (by omega : _ ≤ position)
    have below := byteLen_takeBytes_le position text
    have upper := boundary_le_takeBytes (isCharBoundary_takeBytes position text)
      (by omega : _ ≤ position+1)
    omega

theorem takeBytes_floorBoundary (text : List Char) (position : Nat) :
    takeBytes (floorBoundary text position) text = takeBytes position text := by
  rw [floorBoundary_eq]
  exact takeBytes_byteLen (takeBytes_isPrefix position text)

end BazelMcp.Utf8

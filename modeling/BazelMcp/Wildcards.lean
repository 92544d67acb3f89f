import BazelMcp.Iteration
import Mathlib.Data.List.Infix
import Mathlib.Data.Prod.Lex

/-! Matching a label against a pattern with wildcards. The matcher goes back to
the last star only, and it compares bytes before it looks for a star. -/
namespace BazelMcp.Wildcards
open Iteration List

def star : UInt8 := 42

/-- Positions are the suffixes that start there; the last star has the pattern behind it and
the value from which it was tried last. -/
structure Matching where
  pattern : List UInt8
  value : List UInt8
  lastStar : Option (List UInt8 × List UInt8) := none

def wildcardRound (state : Matching) : Round Matching Bool :=
  match state.value with
  | [] => .done (state.pattern.dropWhile (· == star)).isEmpty
  | byte::rest =>
    if state.pattern.head? = some byte then .again {state with pattern := state.pattern.tail, value := rest}
    else if state.pattern.head? = some star then
      .again {state with pattern := state.pattern.tail, lastStar := some (state.pattern.tail,state.value)}
    else
      match state.lastStar with
      | some (after,seen) => .again ⟨after,seen.tail,some (after,seen.tail)⟩
      | none => .done false

/-- The value is the pattern with each star replaced by some bytes. -/
def Fills : List UInt8 → List UInt8 → Prop
  | [], value => value = []
  | byte::pattern, value =>
    if byte = star then ∃ rest, rest <:+ value ∧ Fills pattern rest else ∃ rest, value = byte::rest ∧ Fills pattern rest

variable {pattern value text : List UInt8} {byte : UInt8} {state : Matching}

theorem fills_star : Fills (star::pattern) value ↔ ∃ rest, rest <:+ value ∧ Fills pattern rest := by
  simp [Fills]

theorem fills_literal (literal : byte ≠ star) : Fills (byte::pattern) value ↔ ∃ rest, value = byte::rest ∧ Fills pattern rest := by
  simp [Fills,literal]

theorem fills_within (fills : Fills (star::pattern) value) (ends : value <:+ text) : Fills (star::pattern) text := by
  obtain ⟨found,short,fills⟩ := fills_star.mp fills
  exact fills_star.mpr ⟨found,short.trans ends,fills⟩

theorem fills_append (text : List UInt8) (fills : Fills pattern value) : Fills (text ++ pattern) (text ++ value) := by
  induction text with
  | nil => exact fills
  | cons byte text ih =>
    by_cases wild : byte = star
    · subst wild
      exact fills_star.mpr ⟨_,suffix_cons _ _,ih⟩
    · exact (fills_literal wild).mpr ⟨_,rfl,ih⟩

def Plain (text : List UInt8) : Prop := ∀ byte ∈ text, byte ≠ star

theorem fills_literals (plain : Plain text) : Fills (text ++ pattern) value ↔ ∃ rest, value = text ++ rest ∧ Fills pattern rest := by
  induction text generalizing value with
  | nil => simp
  | cons byte text ih =>
    obtain ⟨literal,plain⟩ := forall_mem_cons.mp plain
    simp [fills_literal literal,ih plain]

/-- What an earlier star lets the rest of the pattern fill, the rest fills from here on. -/
theorem fills_later (plain : Plain (text ++ value)) (fills : Fills (star::(text ++ pattern)) (text ++ value)) :
    ∃ rest, rest <:+ value ∧ Fills pattern rest := by
  obtain ⟨found,ends,filled⟩ := fills_star.mp fills
  obtain ⟨rest,rfl,fills⟩ := (fills_literals (forall_mem_append.mp plain).1).mp filled
  have least := ends.length_le
  simp only [length_append] at least
  exact ⟨rest,suffix_of_suffix_length_le ((suffix_append _ _).trans ends) (suffix_append _ _) (by omega),fills⟩

theorem fills_nil : Fills pattern [] ↔ (pattern.dropWhile (· == star)).isEmpty = true := by
  induction pattern with
  | nil => simp [Fills]
  | cons byte pattern ih =>
    by_cases wild : byte = star
    · simp [wild,fills_star,ih]
    · simp [fills_literal wild,wild]

theorem not_fills {rest : List UInt8} (other : pattern.head? ≠ some byte) (tame : pattern.head? ≠ some star) :
    ¬ Fills pattern (byte::rest) := by
  rcases pattern with _ | ⟨first,pattern⟩
  · simp [Fills]
  have literal : first ≠ star := by simpa using tame
  simp_all [fills_literal literal,eq_comm]

namespace Matching

/-- What is left to decide: whether the last star can be filled, once there is one. -/
def Open (state : Matching) : Prop :=
  match state.lastStar with
  | none => Fills state.pattern state.value
  | some (after,seen) => Fills (star::after) seen

/-- What the matcher can still look at. -/
def seen (state : Matching) : List UInt8 := state.lastStar.elim state.value (·.2)

/-- Since the last star pattern and value were read alike. -/
inductive Read : Matching → Prop
  | first {pattern value : List UInt8} : Read {pattern,value}
  | later {pattern value text : List UInt8} : Read ⟨pattern,value,some (text ++ pattern,text ++ value)⟩

/-- Stars are tried from left to right, each from earlier to later bytes. -/
def left (state : Matching) : Nat ×ₗ Nat ×ₗ Nat :=
  toLex (state.lastStar.elim (state.pattern.length+1) (·.1.length),toLex (state.lastStar.elim 0 (·.2.length),state.value.length))

theorem round_open {state : Matching} (read : state.Read) :
    (∃ result, wildcardRound state = .done result ∧ (result = true → state.Open) ∧ (Plain state.seen → state.Open → result = true)) ∨
    ∃ next, wildcardRound state = .again next ∧ next.Read ∧ next.left < state.left ∧ (next.Open → state.Open) ∧
      (Plain state.seen → Plain next.seen ∧ (state.Open → next.Open)) := by
  cases read with
  | @first pattern value =>
    cases value with
    | nil => exact .inl ⟨_,rfl,fills_nil.mpr,fun _ => fills_nil.mp⟩
    | cons byte rest =>
      by_cases same : pattern.head? = some byte
      · obtain ⟨pattern,rfl⟩ := head?_eq_some_iff.mp same
        refine .inr ⟨_,by simp [wildcardRound],@Read.first pattern rest,by simp [left,Prod.Lex.toLex_lt_toLex],fills_append [byte],?_⟩
        intro plain
        obtain ⟨literal,plain⟩ := forall_mem_cons.mp plain
        exact ⟨plain,by simp [Open,fills_literal literal]⟩
      by_cases wild : pattern.head? = some star
      · obtain ⟨pattern,rfl⟩ := head?_eq_some_iff.mp wild
        exact .inr ⟨_,by simp_all [wildcardRound],@Read.later pattern (byte::rest) [],by simp [left,Prod.Lex.toLex_lt_toLex] <;> omega,
          id,fun plain => ⟨plain,id⟩⟩
      exact .inl ⟨false,by simp [wildcardRound,same,wild],by simp,fun _ fills => absurd fills (not_fills same wild)⟩
  | @later pattern value text =>
    have filled (fills : Fills pattern value) : Fills (star::(text ++ pattern)) (text ++ value) :=
      fills_star.mpr ⟨_,suffix_refl _,fills_append text fills⟩
    cases value with
    | nil =>
      refine .inl ⟨_,rfl,fun ends => filled (fills_nil.mpr ends),fun plain isOpen => fills_nil.mp ?_⟩
      obtain ⟨rest,ends,fills⟩ := fills_later plain isOpen
      exact eq_nil_of_suffix_nil ends ▸ fills
    | cons byte rest =>
      by_cases same : pattern.head? = some byte
      · obtain ⟨pattern,rfl⟩ := head?_eq_some_iff.mp same
        have next := @Read.later pattern rest (text ++ [byte])
        simp only [append_assoc,singleton_append] at next
        exact .inr ⟨_,by simp [wildcardRound],next,by simp [left,Prod.Lex.toLex_lt_toLex],id,fun plain => ⟨plain,id⟩⟩
      by_cases wild : pattern.head? = some star
      · obtain ⟨pattern,rfl⟩ := head?_eq_some_iff.mp wild
        refine .inr ⟨_,by simp_all [wildcardRound],@Read.later pattern (byte::rest) [],
          by simp [left,Prod.Lex.toLex_lt_toLex] <;> omega,filled,fun plain => ⟨(forall_mem_append.mp plain).2,fun isOpen => ?_⟩⟩
        obtain ⟨behind,ends,fills⟩ := fills_later plain isOpen
        exact fills_within fills ends
      refine .inr ⟨_,by simp [wildcardRound,same,wild],@Read.later (text ++ pattern) (text ++ byte::rest).tail [],
        by simp [left,Prod.Lex.toLex_lt_toLex],(fills_within · (tail_suffix _)),?_⟩
      intro plain
      refine ⟨fun other member => plain other ((tail_suffix _).subset member),fun isOpen => ?_⟩
      obtain ⟨found,⟨skipped,whole⟩,fills⟩ := fills_star.mp isOpen
      rcases skipped with _ | ⟨first,skipped⟩
      · rw [← show _ = found from whole.symm,fills_literals (forall_mem_append.mp plain).1] at fills
        simp [not_fills same wild] at fills
      · exact fills_star.mpr ⟨found,whole ▸ suffix_append skipped found,fills⟩

end Matching

end BazelMcp.Wildcards

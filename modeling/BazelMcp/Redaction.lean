import Mathlib.Data.List.Induction
import BazelMcp.Utf8

/-! Redaction of texts under a byte bound. Every pattern is run on the output of
the one before it, which has already been cut to the bound; the unbounded
redaction beside it says what the texts are redacted to. -/
namespace BazelMcp.Redaction
open Utf8 List

structure Span where
  start : Nat
  stop : Nat
  deriving DecidableEq

/-- Ordered spans that do not overlap, from a position on, with both ends between characters. -/
def Ordered (value : List Char) : Nat → List Span → Prop
  | _, [] => True
  | position, span::rest =>
    position ≤ span.start ∧ span.start ≤ span.stop ∧ isCharBoundary value span.start = true ∧
      isCharBoundary value span.stop = true ∧ Ordered value span.stop rest

structure Regex where
  findIter : List Char → List Span
  ordered (value : List Char) : Ordered value 0 (findIter value)

structure Redactor where
  patterns : List Regex

def replacement : List Char := "[REDACTED]".toList

def slice (value : List Char) (start stop : Nat) : List Char := dropBytes start (takeBytes stop value)

def pushBounded (output value : List Char) (maximumBytes : Nat) : List Char × Bool :=
  let remaining := maximumBytes-byteLen output
  if byteLen value ≤ remaining then (output ++ value,true)
  else (output ++ takeBytes (floorBoundary value remaining) value,false)

/-- The loop of `replace_all_bounded` over the matches. A string has at most
`isize::MAX` bytes, so the length of the output with a replacement never saturates. -/
def replaceLoop (value : List Char) (maximumBytes : Nat) : List Span → Nat → List Char → List Char
  | [], previousEnd, output => (pushBounded output (slice value previousEnd (byteLen value)) maximumBytes).1
  | span::rest, previousEnd, output =>
    match pushBounded output (slice value previousEnd span.start) maximumBytes with
    | (output,false) => output
    | (output,true) =>
      if maximumBytes < byteLen output+byteLen replacement then output
      else replaceLoop value maximumBytes rest span.stop (output ++ replacement)

def replaceAllBounded (pattern : Regex) (value : List Char) (maximumBytes : Nat) : List Char :=
  replaceLoop value maximumBytes (pattern.findIter value) 0 []

def Redactor.redactBounded (redactor : Redactor) (value : List Char) (maximumBytes : Nat) : List Char :=
  match redactor.patterns with
  | [] => (pushBounded [] value maximumBytes).1
  | first::rest =>
    rest.foldl (fun output pattern => replaceAllBounded pattern output maximumBytes) (replaceAllBounded first value maximumBytes)

/-! ### Redaction without a bound -/

def replaceFrom (value : List Char) : List Span → Nat → List Char
  | [], previousEnd => slice value previousEnd (byteLen value)
  | span::rest, previousEnd => slice value previousEnd span.start ++ replacement ++ replaceFrom value rest span.stop

def replaceAll (pattern : Regex) (value : List Char) : List Char := replaceFrom value (pattern.findIter value) 0

def redactAll (patterns : List Regex) (value : List Char) : List Char :=
  patterns.foldl (fun value pattern => replaceAll pattern value) value

/-! ### One pattern -/

variable {maximumBytes : Nat}

variable (patterns : List Regex) (pattern last : Regex) {value : List Char}

theorem pushBounded_fits {output : List Char} (fits : byteLen (output ++ value) ≤ maximumBytes) :
    pushBounded output value maximumBytes = (output ++ value,true) := by
  rw [byteLen_append] at fits
  unfold pushBounded
  rw [if_pos (by omega)]

theorem pushBounded_cut {output : List Char} (bounded : byteLen output ≤ maximumBytes)
    (large : maximumBytes < byteLen (output ++ value)) :
    ∃ cut, pushBounded output value maximumBytes = (output ++ cut,false) ∧ cut <+: value ∧
      byteLen (output ++ cut) ≤ maximumBytes := by
  rw [byteLen_append] at large
  unfold pushBounded
  rw [if_neg (by omega),takeBytes_floorBoundary]
  refine ⟨_,rfl,takeBytes_isPrefix _ _,?_⟩
  have cut := byteLen_takeBytes_le (maximumBytes-byteLen output) value
  rw [byteLen_append]
  omega

theorem replaceLoop_bounded (value : List Char) (spans : List Span) (previousEnd : Nat)
    (output : List Char) (bounded : byteLen output ≤ maximumBytes) :
    byteLen (replaceLoop value maximumBytes spans previousEnd output) ≤ maximumBytes ∧
      replaceLoop value maximumBytes spans previousEnd output <+: output ++ replaceFrom value spans previousEnd ∧
      (byteLen (output ++ replaceFrom value spans previousEnd) ≤ maximumBytes →
        replaceLoop value maximumBytes spans previousEnd output = output ++ replaceFrom value spans previousEnd) := by
  induction spans generalizing previousEnd output with
  | nil =>
    simp only [replaceLoop,replaceFrom]
    rcases Nat.lt_or_ge maximumBytes (byteLen (output ++ slice value previousEnd (byteLen value))) with large | fits
    · obtain ⟨cut,pushed,isPrefix,short⟩ := pushBounded_cut bounded large
      rw [pushed]
      exact ⟨short,(prefix_append_right_inj output).mpr isPrefix,fun fits => by omega⟩
    · rw [pushBounded_fits fits]
      exact ⟨fits,prefix_rfl,fun _ => rfl⟩
  | cons span rest ih =>
    simp only [replaceLoop,replaceFrom]
    rcases Nat.lt_or_ge maximumBytes (byteLen (output ++ slice value previousEnd span.start)) with large | fits
    · obtain ⟨cut,pushed,isPrefix,short⟩ := pushBounded_cut bounded large
      rw [pushed]
      refine ⟨short,?_,fun fits => ?_⟩
      · rw [append_assoc,prefix_append_right_inj]
        exact isPrefix.trans (prefix_append _ _)
      · simp only [byteLen_append] at fits large
        omega
    rw [pushBounded_fits fits]
    dsimp only
    split
    · rename_i full
      refine ⟨fits,?_,fun fits => ?_⟩
      · rw [append_assoc _ replacement,← append_assoc output]
        exact prefix_append _ _
      · simp only [byteLen_append] at fits full
        omega
    · rename_i room
      have next := ih span.stop (output ++ slice value previousEnd span.start ++ replacement)
        (by rw [byteLen_append]; omega)
      simp only [append_assoc] at next ⊢
      exact next

theorem replaceAllBounded_le (value : List Char) (maximumBytes : Nat) :
    byteLen (replaceAllBounded pattern value maximumBytes) ≤ maximumBytes :=
  (replaceLoop_bounded value (pattern.findIter value) 0 [] (Nat.zero_le _)).1

theorem replaceAllBounded_prefix (value : List Char) (maximumBytes : Nat) :
    replaceAllBounded pattern value maximumBytes <+: replaceAll pattern value :=
  (replaceLoop_bounded value (pattern.findIter value) 0 [] (Nat.zero_le _)).2.1

theorem replaceAllBounded_fits {pattern : Regex} (fits : byteLen (replaceAll pattern value) ≤ maximumBytes) :
    replaceAllBounded pattern value maximumBytes = replaceAll pattern value :=
  (replaceLoop_bounded value (pattern.findIter value) 0 [] (Nat.zero_le _)).2.2 fits

/-! ### Several patterns -/

/-- The text that the pattern after these is run on. -/
def seen (patterns : List Regex) (value : List Char) (maximumBytes : Nat) : List Char :=
  if patterns.isEmpty then value else (Redactor.mk patterns).redactBounded value maximumBytes

theorem redactBounded_push (value : List Char) (maximumBytes : Nat) :
    (Redactor.mk (patterns ++ [last])).redactBounded value maximumBytes =
      replaceAllBounded last (seen patterns value maximumBytes) maximumBytes := by
  cases patterns with
  | nil => rfl
  | cons first rest =>
    simp only [Redactor.redactBounded,seen,cons_append,foldl_append,foldl_cons,foldl_nil]
    rfl

theorem redactAll_push (value : List Char) :
    redactAll (patterns ++ [last]) value = replaceAll last (redactAll patterns value) := by
  unfold redactAll
  rw [foldl_append]
  rfl

def Safe (patterns : List Regex) (value : List Char) (maximumBytes : Nat) : Prop :=
  byteLen ((Redactor.mk patterns).redactBounded value maximumBytes) ≤ maximumBytes ∧
    (Redactor.mk patterns).redactBounded value maximumBytes <+: redactAll patterns value

theorem safe_nil (value : List Char) (maximumBytes : Nat) : Safe [] value maximumBytes := by
  unfold Safe Redactor.redactBounded
  rcases Nat.lt_or_ge maximumBytes (byteLen ([] ++ value)) with large | fits
  · obtain ⟨cut,pushed,isPrefix,short⟩ := pushBounded_cut (Nat.zero_le _) large
    rw [pushed]
    exact ⟨short,isPrefix⟩
  · rw [pushBounded_fits fits]
    exact ⟨fits,prefix_rfl⟩

theorem redactBounded_le (value : List Char) (maximumBytes : Nat) :
    byteLen ((Redactor.mk patterns).redactBounded value maximumBytes) ≤ maximumBytes := by
  rcases eq_nil_or_concat' patterns with rfl | ⟨front,last,rfl⟩
  · exact (safe_nil value maximumBytes).1
  · rw [redactBounded_push]
    exact replaceAllBounded_le _ _ _

theorem safe_push (value : List Char) (maximumBytes : Nat) : Safe (patterns ++ [last]) value maximumBytes ↔
      replaceAllBounded last (seen patterns value maximumBytes) maximumBytes <+: replaceAll last (redactAll patterns value) := by
  unfold Safe
  rw [redactBounded_push,redactAll_push]
  exact ⟨And.right,fun isPrefix => ⟨replaceAllBounded_le _ _ _,isPrefix⟩⟩

/-! ### Patterns for the converse -/

theorem dropBytes_zero (text : List Char) : dropBytes 0 text = text := by
  simpa using takeBytes_append_dropBytes 0 text

theorem slice_start (first rest : List Char) : slice (first ++ rest) 0 (byteLen first) = first := by
  unfold slice
  rw [takeBytes_byteLen (prefix_append _ _),dropBytes_zero]

theorem slice_rest (first rest : List Char) : slice (first ++ rest) (byteLen first) (byteLen (first ++ rest)) = rest := by
  unfold slice
  rw [takeBytes_of_le (Nat.le_refl _)]
  have split := takeBytes_append_dropBytes (byteLen first) (first ++ rest)
  rw [takeBytes_byteLen (prefix_append _ _)] at split
  exact append_cancel_left split

theorem isCharBoundary_prefix {first text : List Char} (isPrefix : first <+: text) : isCharBoundary text (byteLen first) = true := by
  have reached := isCharBoundary_takeBytes (byteLen first) text
  rw [takeBytes_byteLen isPrefix] at reached
  exact reached

def between (first middle : List Char) : List Span := [⟨byteLen first,byteLen (first ++ middle)⟩]

theorem ordered_between (first middle rest : List Char) : Ordered (first ++ middle ++ rest) 0 (between first middle) := by
  refine ⟨Nat.zero_le _,?_,?_,?_,trivial⟩
  · rw [byteLen_append]
    exact Nat.le_add_right _ _
  · apply isCharBoundary_prefix
    rw [append_assoc]
    exact prefix_append _ _
  · exact isCharBoundary_prefix (prefix_append _ _)

theorem replaceFrom_between (first middle rest : List Char) :
    replaceFrom (first ++ middle ++ rest) (between first middle) 0 = first ++ replacement ++ rest := by
  simp only [replaceFrom,between]
  rw [slice_rest (first ++ middle) rest,append_assoc first middle rest,slice_start]

theorem replaceFrom_nil (value : List Char) : replaceFrom value [] 0 = value := slice_rest [] value

theorem matched_all (value : List Char) :
    Ordered value 0 (between [] value) ∧ replaceFrom value (between [] value) 0 = replacement := by
  have ordered := ordered_between [] value []
  have replaced := replaceFrom_between [] value []
  rw [append_nil,nil_append] at ordered replaced
  exact ⟨ordered,replaced.trans (append_nil _)⟩

theorem matched_behind (first : Char) (others : List Char) :
    Ordered (first::others) 0 (between [first] others) ∧
      replaceFrom (first::others) (between [first] others) 0 = first::replacement := by
  have ordered := ordered_between [first] others []
  have replaced := replaceFrom_between [first] others []
  rw [append_nil] at ordered replaced
  exact ⟨ordered,replaced.trans (append_nil _)⟩

def choosing {first second : List Char} {firstSpans secondSpans : List Span} (firstOrdered : Ordered first 0 firstSpans)
    (secondOrdered : Ordered second 0 secondSpans) : Regex where
  findIter value := if value = first then firstSpans else if value = second then secondSpans else []
  ordered value := by
    split
    · rename_i same
      rw [same]
      exact firstOrdered
    split
    · rename_i same
      rw [same]
      exact secondOrdered
    · trivial

theorem replaceAll_choosing {first second : List Char} {firstSpans secondSpans : List Span}
    (firstOrdered : Ordered first 0 firstSpans) (secondOrdered : Ordered second 0 secondSpans) (differ : second ≠ first) :
    replaceAll (choosing firstOrdered secondOrdered) first = replaceFrom first firstSpans 0 ∧
      replaceAll (choosing firstOrdered secondOrdered) second = replaceFrom second secondSpans 0 := by
  constructor
  · simp only [replaceAll,choosing,if_true]
  · simp only [replaceAll,choosing,if_neg differ,if_true]

/-- If the last pattern may be any, what it makes of the text it sees must be a
start of what it makes of the text it should see. -/
theorem forced {patterns : List Regex} (safe : ∀ last, Safe (patterns ++ [last]) value maximumBytes)
    (differ : redactAll patterns value ≠ seen patterns value maximumBytes) {spans wholeSpans : List Span}
    (ordered : Ordered (seen patterns value maximumBytes) 0 spans) (wholeOrdered : Ordered (redactAll patterns value) 0 wholeSpans)
    (fits : byteLen (replaceFrom (seen patterns value maximumBytes) spans 0) ≤ maximumBytes) :
    replaceFrom (seen patterns value maximumBytes) spans 0 <+: replaceFrom (redactAll patterns value) wholeSpans 0 := by
  obtain ⟨first,second⟩ := replaceAll_choosing ordered wholeOrdered differ
  have isPrefix := (safe_push patterns (choosing ordered wholeOrdered) value maximumBytes).mp (safe _)
  rw [← first] at fits
  rw [replaceAllBounded_fits fits,first,second] at isPrefix
  exact isPrefix

theorem replaceAllBounded_cut (value : List Char) (small : maximumBytes < byteLen replacement) :
    replaceAllBounded pattern value maximumBytes <+: value := by
  have first (stop : Nat) : slice value 0 stop <+: value := by
    unfold slice
    rw [dropBytes_zero]
    exact takeBytes_isPrefix _ _
  have pushed (text : List Char) : (pushBounded [] text maximumBytes).1 <+: text := by
    unfold pushBounded
    dsimp only
    split
    · exact prefix_rfl
    · exact takeBytes_isPrefix _ _
  unfold replaceAllBounded
  cases pattern.findIter value with
  | nil => exact (pushed _).trans (first _)
  | cons span rest =>
    simp only [replaceLoop]
    cases result : pushBounded [] (slice value 0 span.start) maximumBytes with
    | mk output whole =>
      have cut : output <+: value := by
        have start := pushed (slice value 0 span.start)
        rw [result] at start
        exact start.trans (first _)
      cases whole with
      | false => exact cut
      | true =>
        dsimp only
        rw [if_pos (by omega)]
        exact cut

theorem replaceAll_bracket (rest : List Char) : ['['] <+: replaceAll pattern ('[' :: rest) := by
  unfold replaceAll
  cases pattern.findIter ('[' :: rest) with
  | nil =>
    rw [replaceFrom_nil]
    exact ⟨rest,rfl⟩
  | cons span spans =>
    simp only [replaceFrom,slice,dropBytes_zero,takeBytes]
    split
    · exact ⟨_,rfl⟩
    · exact ⟨_,rfl⟩

theorem safe_of_seen {patterns : List Regex} {value : List Char} (last : Regex)
    (same : seen patterns value maximumBytes = redactAll patterns value ∨
      (maximumBytes < byteLen replacement ∧ (seen patterns value maximumBytes = [] ∨
        (seen patterns value maximumBytes = ['['] ∧ ['['] <+: redactAll patterns value)))) :
    Safe (patterns ++ [last]) value maximumBytes := by
  rw [safe_push]
  rcases same with same | ⟨small,none | ⟨single,starts⟩⟩
  · rw [same]
    exact replaceAllBounded_prefix _ _ _
  · have cut := replaceAllBounded_cut last (seen patterns value maximumBytes) small
    rw [none] at cut ⊢
    rw [List.prefix_nil.mp cut]
    exact List.nil_prefix
  · have cut := replaceAllBounded_cut last (seen patterns value maximumBytes) small
    obtain ⟨rest,split⟩ := starts
    rw [single] at cut ⊢
    rw [← split]
    exact cut.trans (replaceAll_bracket last rest)

/-- Two texts that no pair of matches tells apart are equal, up to what a bound below a replacement hides. -/
theorem told_apart {text whole : List Char} (differ : whole ≠ text) (bounded : byteLen text ≤ maximumBytes)
    (forced : ∀ spans wholeSpans, Ordered text 0 spans → Ordered whole 0 wholeSpans →
      byteLen (replaceFrom text spans 0) ≤ maximumBytes → replaceFrom text spans 0 <+: replaceFrom whole wholeSpans 0) :
    maximumBytes < byteLen replacement ∧ (text = [] ∨ (text = ['['] ∧ ['['] <+: whole)) := by
  -- without a match in the text, it is a start of the whole whatever is replaced there
  have unmatched (wholeSpans : List Span) (ordered : Ordered whole 0 wholeSpans) : text <+: replaceFrom whole wholeSpans 0 := by
    have isPrefix := forced [] wholeSpans trivial ordered (by rw [replaceFrom_nil]; exact bounded)
    rw [replaceFrom_nil] at isPrefix
    exact isPrefix
  have start : text <+: whole := by
    have isPrefix := unmatched [] trivial
    rw [replaceFrom_nil] at isPrefix
    exact isPrefix
  have all : text <+: replacement := by
    have isPrefix := unmatched _ (matched_all whole).1
    rw [(matched_all whole).2] at isPrefix
    exact isPrefix
  cases whole with
  | nil => exact absurd (List.prefix_nil.mp start).symm differ
  | cons first others =>
    obtain ⟨behindOrdered,behind⟩ := matched_behind first others
    refine ⟨?_,?_⟩
    · by_contra large
      have isPrefix := forced _ _ (matched_all text).1 behindOrdered (by rw [(matched_all text).2]; omega)
      rw [(matched_all text).2,behind] at isPrefix
      exact absurd (List.cons_prefix_cons.mp (List.cons_prefix_cons.mp isPrefix).2).1 (by decide)
    have second := unmatched _ behindOrdered
    rw [behind] at second
    match text with
    | [] => exact .inl rfl
    | [char] =>
      have bracket : char = '[' := (List.cons_prefix_cons.mp all).1
      subst bracket
      exact .inr ⟨rfl,start⟩
    | _ :: char :: _ =>
      have letter : char = 'R' := (List.cons_prefix_cons.mp (List.cons_prefix_cons.mp all).2).1
      have bracket : char = '[' := (List.cons_prefix_cons.mp (List.cons_prefix_cons.mp second).2).1
      rw [letter] at bracket
      exact absurd bracket (by decide)

theorem seen_bounded {patterns : List Regex} (differ : redactAll patterns value ≠ seen patterns value maximumBytes) :
    byteLen (seen patterns value maximumBytes) ≤ maximumBytes := by
  cases patterns with
  | nil => exact absurd rfl differ
  | cons first rest => exact redactBounded_le (first :: rest) value maximumBytes

/-- The pattern that matches a text as a whole, as one between the two anchors does. -/
def anchored (text : List Char) : Regex := choosing (ordered_between [] text []) (ordered_between [] text [])

end BazelMcp.Redaction

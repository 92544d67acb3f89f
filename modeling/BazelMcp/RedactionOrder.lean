import BazelMcp.LogInspection
import BazelMcp.OutcomeAgreement

/-! Redaction behind a cut. Lines of evidence and the output of an informational
command are cut to a bound, and repeated lines are marked, before the redactor is
run on them. What it makes of such a text is a start of what it makes of the
complete one, whatever its pattern, exactly where it is given the complete one. -/
namespace BazelMcp.RedactionOrder
open Evidence LogInspection Redaction Text Utf8
open List hiding replace

/-- An output shows a start of the whole, apart from a tail. -/
def Apart (tail output whole : List Char) : Prop := ∃ core rest, output = core ++ rest ∧ rest <+: tail ∧ core <+: whole

/-- A pattern may replace the text it is given and leave the first character of
the complete one, so only equal texts are safe from every pattern. -/
theorem apart_iff {tail text whole : List Char} {maximumBytes : Nat} (room : byteLen replacement ≤ maximumBytes) (written : whole ≠ [])
    (outside : ∀ char, tail.head? = some char → char ∉ replacement) :
    (∀ pattern, Apart tail (replaceAllBounded pattern text maximumBytes) (replaceAll pattern whole)) ↔ text = whole := by
  constructor
  · intro apart
    by_contra differ
    obtain ⟨first,others,isWhole⟩ := exists_cons_of_ne_nil written
    subst isWhole
    obtain ⟨ordered,replaced⟩ := matched_all text
    obtain ⟨behindOrdered,behind⟩ := matched_behind first others
    obtain ⟨ofText,ofWhole⟩ := replaceAll_choosing ordered behindOrdered (Ne.symm differ)
    obtain ⟨core,rest,split,isTail,isCore⟩ := apart (choosing ordered behindOrdered)
    rw [replaceAllBounded_fits (by rw [ofText,replaced]; exact room),ofText,replaced] at split
    rw [ofWhole,behind] at isCore
    cases rest with
    | nil =>
      rw [append_nil] at split
      rw [← split] at isCore
      exact absurd (cons_prefix_cons.mp (cons_prefix_cons.mp isCore).2).1 (by decide)
    | cons char rest =>
      obtain ⟨beyond,isBeyond⟩ := isTail
      refine outside char ?_ ?_
      · rw [← isBeyond]
        rfl
      · rw [split]
        simp
  · intro same pattern
    refine ⟨_,[],(append_nil _).symm, nil_prefix,?_⟩
    rw [same]
    exact replaceAllBounded_prefix pattern whole maximumBytes

theorem replace_written {pattern new text : List Char} (some_new : new ≠ []) (some_text : text ≠ []) : replace pattern new text ≠ [] := by
  unfold replace
  split
  · simp [some_new]
  obtain ⟨char,rest,same⟩ := exists_cons_of_ne_nil some_text
  rw [same,replaceGo]
  split
  · simp [some_new]
  · simp

/-! ### Lines of evidence -/

section
variable (normalizeTerminalText : List UInt8 → List Char) (command : BazelCommand) (failed : Bool) (stdout stderr : List UInt8)

/-- The complete lines of both streams, trimmed. -/
def capturedLines : List (List Char) :=
  [stdout,stderr].flatMap fun stream => ((lines (normalizeTerminalText stream)).map trim).filter fun line => !line.isEmpty

/-- The cut lines with their counts of which records are stored. -/
def keptLines : List (List Char × Nat) :=
  let testLike := command = .test || command = .coverage
  let streams := if (failed && testLike) || (!failed && !stdout.isEmpty) then [stdout,stderr] else [stderr,stdout]
  let counted := (streams.flatMap fun stream => evidenceLines (normalizeTerminalText stream)).foldl
    (fun counted line => countLine line counted) []
  let actionable := counted.filter fun entry => isActionableEvidence (countedRecord entry).text
  let fallback := counted.filter fun entry => !isActionableEvidence (countedRecord entry).text
  (actionable.take 1000 ++ fallback.drop (fallback.length-2000)).take 3000

theorem failureEvidenceRecords_kept : failureEvidenceRecords normalizeTerminalText command failed stdout stderr =
      (keptLines normalizeTerminalText command failed stdout stderr).map countedRecord := by
  simp only [failureEvidenceRecords,keptLines,map_take,map_append,map_drop,filter_map,length_map]
  rfl

end

/-- What `persist_failure_evidence` stores for a cut line and its count. -/
def storedText (service : InvocationService) (workspace : List Char) (entry : List Char × Nat) : List Char :=
  (service.redactRecord workspace (countedRecord entry)).text

theorem persistFailureEvidence_kept (service : InvocationService) (workspace : List Char) (command : BazelCommand) (failed : Bool)
    (stdout stderr : List UInt8) : service.persistFailureEvidence workspace command failed stdout stderr =
      (keptLines service.codecs.normalizeTerminalText command failed stdout stderr).flatMap fun entry =>
        service.codecs.toJson ⟨none,storedText service workspace entry⟩ ++ ['\n'] := by
  rw [InvocationService.persistFailureEvidence,failureEvidenceRecords_kept,flatMap_map]
  rfl

/-- The ellipsis of a cut line and the mark of a repeated one. -/
def lineTail (line : List Char) (count : Nat) : List Char :=
  (if byteLen line ≤ 4*1024 then [] else ['…']) ++
    if 1 < count then " [repeated ".toList ++ Nat.toDigits 10 count ++ " times]".toList else []

/-- The redactor is given the complete line: a short one that is not repeated, or
one that the replacement of the workspace makes equal. -/
def GivenWhole (workspace line : List Char) (entry : List Char × Nat) : Prop :=
  byteLen line ≤ 4*1024 ∧ entry.2 ≤ 1 ∨
    replace workspace "<workspace>".toList (countedRecord entry).text = replace workspace "<workspace>".toList line

theorem givenWhole_iff {workspace line : List Char} {entry : List Char × Nat} (cut : boundedText line (4*1024) = entry.1) :
    GivenWhole workspace line entry ↔
      replace workspace "<workspace>".toList (countedRecord entry).text = replace workspace "<workspace>".toList line := by
  constructor
  · intro given
    rcases given with ⟨short,single⟩ | same
    · rw [boundedText,if_pos short] at cut
      rw [countedRecord,if_neg (by omega),cut]
    · exact same
  · exact .inr

theorem lineTail_outside (line : List Char) (count : Nat) : ∀ char, (lineTail line count).head? = some char → char ∉ replacement := by
  intro char isHead
  unfold lineTail at isHead
  split at isHead
  · split at isHead
    · cases isHead
      decide
    · cases isHead
  · cases isHead
    decide

/-- Every stored line shows a start of the redaction of each line it stands for. -/
def LinesApart (codecs : Codecs) (workspace : List Char) (command : BazelCommand) (failed : Bool) (stdout stderr : List UInt8)
    (pattern : Regex) : Prop :=
  ∀ entry ∈ keptLines codecs.normalizeTerminalText command failed stdout stderr,
    ∀ line ∈ capturedLines codecs.normalizeTerminalText stdout stderr, boundedText line (4*1024) = entry.1 →
      Apart (lineTail line entry.2) (storedText ⟨codecs,⟨[pattern]⟩⟩ workspace entry)
        (replaceAll pattern (replace workspace "<workspace>".toList line))

theorem lines_apart_iff (codecs : Codecs) (workspace : List Char) (command : BazelCommand) (failed : Bool) (stdout stderr : List UInt8) :
    (∀ pattern, LinesApart codecs workspace command failed stdout stderr pattern) ↔
      ∀ entry ∈ keptLines codecs.normalizeTerminalText command failed stdout stderr,
        ∀ line ∈ capturedLines codecs.normalizeTerminalText stdout stderr, boundedText line (4*1024) = entry.1 →
          GivenWhole workspace line entry := by
  have each (entry : List Char × Nat) (line : List Char) (member : line ∈ capturedLines codecs.normalizeTerminalText stdout stderr)
      (cut : boundedText line (4*1024) = entry.1) :
      (∀ pattern, Apart (lineTail line entry.2) (storedText ⟨codecs,⟨[pattern]⟩⟩ workspace entry)
        (replaceAll pattern (replace workspace "<workspace>".toList line))) ↔ GivenWhole workspace line entry := by
    have written : line ≠ [] := by
      obtain ⟨stream,_,isLine⟩ := mem_flatMap.mp member
      simpa using (mem_filter.mp isLine).2
    rw [givenWhole_iff cut]
    exact apart_iff (by decide) (replace_written (by decide) written) (lineTail_outside line entry.2)
  constructor
  · intro apart entry isKept line member cut
    exact (each entry line member cut).mp fun pattern => apart pattern entry isKept line member cut
  · intro given pattern entry isKept line member cut
    exact (each entry line member cut).mpr (given entry isKept line member cut) pattern

/-! ### The headline of an informational command -/

def sanitizeWith (redactor : Redactor) (workspace : List Char) (value : String) (maximumBytes : Nat) : String :=
  String.ofList (redactor.redactBounded (replace workspace "<workspace>".toList value.toList) maximumBytes)

def excerptOf (setting : Outcome.Setting) : List Char :=
  (setting.normalizeTerminalText
    (if setting.captured.stdout.isEmpty then setting.captured.stderr else setting.captured.stdout)).toList

/-- The sanitized headline after the output was taken for it. -/
def headlineOf (setting : Outcome.Setting) (redactor : Redactor) (workspace : List Char) (summary : InvocationSummary) : List Char :=
  let setting := {setting with sanitize := sanitizeWith redactor workspace}
  (Outcome.sanitizeSummary setting (Outcome.describeSuccess setting (some 0) summary)).headline.toList

theorem headlineOf_informational {setting : Outcome.Setting} (redactor : Redactor) (workspace : List Char) (summary : InvocationSummary)
    (informational : setting.commandClass = .informational ∨ setting.commandClass = .unknown) (printed : excerptOf setting ≠ []) :
    headlineOf setting redactor workspace summary =
      redactor.redactBounded (replace workspace "<workspace>".toList (boundedText (excerptOf setting) 1000)) 1000 := by
  have notQuery : setting.commandClass ≠ .query := by
    rcases informational with same | same <;> rw [same] <;> decide
  have printed : setting.normalizeTerminalText
      (if setting.captured.stdout.isEmpty then setting.captured.stderr else setting.captured.stdout) ≠ "" := by
    intro empty
    exact printed (by rw [excerptOf,empty]; rfl)
  have taken : (Outcome.describeSuccess {setting with sanitize := sanitizeWith redactor workspace} (some 0) summary).headline.toList =
      boundedText (excerptOf setting) 1000 := by
    unfold Outcome.describeSuccess
    rw [if_neg (by simp [notQuery]),if_pos ⟨informational,rfl⟩,if_neg printed,excerptOf]
    generalize setting.normalizeTerminalText _ = excerpt
    split
    · exact String.toList_ofList
    · exact String.toList_ofList
  change (sanitizeWith redactor workspace _ 1000).toList = _
  rw [sanitizeWith,String.toList_ofList,taken]

def excerptTail (excerpt : List Char) : List Char := if byteLen excerpt ≤ 1000 then [] else ['…']

/-- The redactor is given the complete output. -/
def GivenOutput (workspace excerpt : List Char) : Prop :=
  byteLen excerpt ≤ 1000 ∨
    replace workspace "<workspace>".toList (boundedText excerpt 1000) = replace workspace "<workspace>".toList excerpt

theorem headline_apart_iff {setting : Outcome.Setting} (workspace : List Char) (summary : InvocationSummary)
    (informational : setting.commandClass = .informational ∨ setting.commandClass = .unknown) (printed : excerptOf setting ≠ []) :
    (∀ pattern, Apart (excerptTail (excerptOf setting)) (headlineOf setting ⟨[pattern]⟩ workspace summary)
      (replaceAll pattern (replace workspace "<workspace>".toList (excerptOf setting)))) ↔ GivenOutput workspace (excerptOf setting) := by
  have outside : ∀ char, (excerptTail (excerptOf setting)).head? = some char → char ∉ replacement := by
    intro char isHead
    unfold excerptTail at isHead
    split at isHead
    · cases isHead
    · cases isHead
      decide
  have given : GivenOutput workspace (excerptOf setting) ↔
      replace workspace "<workspace>".toList (boundedText (excerptOf setting) 1000) =
        replace workspace "<workspace>".toList (excerptOf setting) := by
    constructor
    · intro given
      rcases given with short | same
      · rw [boundedText,if_pos short]
      · exact same
    · exact .inr
  simp only [headlineOf_informational _ workspace summary informational printed]
  rw [given]
  exact apart_iff (by decide) (replace_written (by decide) printed) outside

/-- Whatever the pattern, stored lines and the headline of an informational command
show a start of the redaction of the complete text, apart from their marks, exactly
where the redactor is given that text. -/
theorem redacted_whole_iff (codecs : Codecs) (workspace : List Char) (command : BazelCommand) (failed : Bool)
    (stdout stderr : List UInt8) (setting : Outcome.Setting) (summary : InvocationSummary)
    (informational : setting.commandClass = .informational ∨ setting.commandClass = .unknown) (printed : excerptOf setting ≠ []) :
    ((∀ pattern, LinesApart codecs workspace command failed stdout stderr pattern) ↔
      ∀ entry ∈ keptLines codecs.normalizeTerminalText command failed stdout stderr,
        ∀ line ∈ capturedLines codecs.normalizeTerminalText stdout stderr, boundedText line (4*1024) = entry.1 →
          GivenWhole workspace line entry) ∧
    ((∀ pattern, Apart (excerptTail (excerptOf setting)) (headlineOf setting ⟨[pattern]⟩ workspace summary)
        (replaceAll pattern (replace workspace "<workspace>".toList (excerptOf setting)))) ↔
      GivenOutput workspace (excerptOf setting)) :=
  ⟨lines_apart_iff codecs workspace command failed stdout stderr,headline_apart_iff workspace summary informational printed⟩

/-! ### A text of one word -/

theorem splitOnce_joins {separator text first second : List Char} (found : splitOnce separator text = some (first,second)) :
    text = first ++ separator ++ second := by
  induction text generalizing first with
  | nil =>
    simp only [splitOnce] at found
    split at found
    · rename_i empty
      cases found
      rw [isEmpty_iff.mp empty]
      rfl
    · cases found
  | cons char rest ih =>
    simp only [splitOnce] at found
    split at found
    · rename_i starts
      cases found
      obtain ⟨behind,same⟩ := isPrefixOf_iff_prefix.mp starts
      rw [← same,drop_left,nil_append]
    · obtain ⟨⟨before,after⟩,isFound,same⟩ := Option.map_eq_some_iff.mp found
      cases same
      rw [ih isFound]
      rfl

def literal (word : List Char) : Regex where
  findIter value :=
    match splitOnce word value with
    | some (before,_) => between before word
    | none => []
  ordered value := by
    split
    · rename_i before after found
      rw [splitOnce_joins found]
      exact ordered_between before word after
    · trivial

def printing (text : List Char) : Outcome.Setting :=
  {Outcome.gracefulBuild with commandClass := .informational, normalizeTerminalText := fun _ => String.ofList text}

theorem excerptOf_printing (text : List Char) : excerptOf (printing text) = text := String.toList_ofList

def longOutput : List Char := List.replicate 995 'x' ++ ['s','e','c','r','e','t']

/-- The cut leaves five letters of the word, which the pattern no longer finds. -/
theorem cut_word_shown : headlineOf (printing longOutput) ⟨[literal ['s','e','c','r','e','t']]⟩ ['/','w'] {} =
      List.replicate 995 'x' ++ ['s','e','c','r','e'] ∧
    ¬ Apart (excerptTail longOutput) (List.replicate 995 'x' ++ ['s','e','c','r','e'])
      (replaceAll (literal ['s','e','c','r','e','t']) (replace ['/','w'] "<workspace>".toList (excerptOf (printing longOutput)))) := by
  rw [excerptOf_printing]
  constructor
  · rw [headlineOf_informational _ _ _ (.inl rfl) (by rw [excerptOf_printing]; decide),excerptOf_printing]
    decide +kernel
  intro apart
  obtain ⟨core,rest,split,isTail,isCore⟩ := apart
  have marked : excerptTail longOutput = ['…'] := by decide +kernel
  rw [marked] at isTail
  cases rest with
  | nil =>
    rw [append_nil] at split
    rw [← split] at isCore
    exact absurd isCore (by decide +kernel)
  | cons char others =>
    obtain ⟨isMark,ends⟩ := cons_prefix_cons.mp isTail
    have last := congrArg getLast? split
    rw [isMark,prefix_nil.mp ends,getLast?_concat] at last
    exact absurd last (by decide +kernel)

/-- A short line that is printed once and a short output are redacted as a whole. -/
theorem short_texts_redacted : LinesApart plainCodecs ['/','w'] .test true [111,107] [] (literal ['k']) ∧
      Apart [] (headlineOf (printing ['o','k']) ⟨[literal ['k']]⟩ ['/','w'] {})
        (replaceAll (literal ['k']) (replace ['/','w'] "<workspace>".toList (excerptOf (printing ['o','k'])))) := by
  obtain ⟨lines,headline⟩ := redacted_whole_iff plainCodecs ['/','w'] .test true [111,107] [] (printing ['o','k']) {} (.inl rfl)
    (by rw [excerptOf_printing]; decide)
  have single : keptLines plainCodecs.normalizeTerminalText .test true [111,107] [] = [(['o','k'],1)] := by decide +kernel
  have captured : capturedLines plainCodecs.normalizeTerminalText [111,107] [] = [['o','k']] := by decide +kernel
  constructor
  · refine lines.mpr ?_ (literal ['k'])
    intro entry isKept line member _
    rw [single,mem_singleton] at isKept
    rw [captured,mem_singleton] at member
    subst isKept member
    exact .inl ⟨by decide,by decide⟩
  · rw [excerptOf_printing] at headline ⊢
    exact headline.mpr (.inl (by decide)) (literal ['k'])

end BazelMcp.RedactionOrder

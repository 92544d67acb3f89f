import BazelMcp.Evidence
import BazelMcp.Grouping

/-! The lines of failure evidence are grouped: whatever was read so far, each line stands once,
where it first came, with the number of times it came. -/
namespace BazelMcp.Evidence
open List Grouping

/-- The loop over the lines of the streams, with its saturating count. -/
def counting : Grouping (List Char) (List Char × Nat) (List Char) where
  key := id
  keyOf := Prod.fst
  opened line := (line,1)
  merge entry _ := (entry.1,min (entry.2+1) 0xFFFFFFFF)
  keyOf_opened _ := rfl
  keyOf_merge _ _ _ := rfl

theorem countLine_enter (line : List Char) (entries : List (List Char × Nat)) : countLine line entries = counting.enter line entries := by
  induction entries with
  | nil => rfl
  | cons entry rest ih =>
    rw [countLine,enter,ih]
    rfl

variable (read : List (List Char))

theorem keys_counting : counting.keys (counting.collect [] read) = read.eraseDups := by
  induction read using reverseRecOn with
  | nil => rfl
  | append_singleton read line ih =>
    have named : counting.key line = line := rfl
    rw [collect_concat,keys_enter,eraseDups_append,ih,named]
    by_cases member : line ∈ read <;> simp [mem_eraseDups,member,removeAll,eraseDups_cons]

theorem count_of_mem {entry : List Char × Nat} (member : entry ∈ counting.collect [] read) :
    entry.2 = min (read.count entry.1) 0xFFFFFFFF := by
  obtain ⟨first,rest,group,made⟩ := group_of_mem counting read member
  have merged (rest : List (List Char)) (entry : List Char × Nat) (few : entry.2 ≤ 0xFFFFFFFF) :
      (rest.foldl counting.merge entry).2 = min (entry.2+rest.length) 0xFFFFFFFF := by
    induction rest generalizing entry with
    | nil => simpa using few
    | cons _ rest ih =>
      rw [foldl_cons,ih _ (Nat.min_le_right _ _)]
      simp only [counting,length_cons]
      omega
  have counted : read.count entry.1 = rest.length+1 := by
    rw [count_eq_length_filter,← length_cons,← group]
    congr 1
    exact filter_congr fun line _ => Bool.eq_iff_iff.mpr (beq_iff_eq.trans decide_eq_true_iff.symm)
  rw [counted,made,merged rest _ (show 1 ≤ 0xFFFFFFFF by decide),Nat.add_comm]
  rfl

theorem collect_counting : counting.collect [] read = read.eraseDups.map fun line => (line,min (read.count line) 0xFFFFFFFF) := by
  rw [← keys_counting,Grouping.keys,map_map]
  refine (map_id _).symm.trans (map_congr_left fun entry member => ?_)
  exact Prod.ext rfl (count_of_mem read member)

/-- Failure evidence: of the distinct lines in the order in which they first came, each with its count,
the first thousand that tell something and behind them the last two thousand others. -/
theorem evidence_counts_lines (normalizeTerminalText : List UInt8 → List Char) (command : BazelCommand) (failed : Bool)
    (stdout stderr : List UInt8) :
    let testLike := command = .test || command = .coverage
    let streams := if (failed && testLike) || (!failed && !stdout.isEmpty) then [stdout,stderr] else [stderr,stdout]
    let read := streams.flatMap fun stream => evidenceLines (normalizeTerminalText stream)
    let records := read.eraseDups.map fun line => countedRecord (line,min (read.count line) 0xFFFFFFFF)
    let fallback := records.filter fun record => !isActionableEvidence record.text
    failureEvidenceRecords normalizeTerminalText command failed stdout stderr =
      (records.filter fun record => isActionableEvidence record.text).take 1000 ++ fallback.drop (fallback.length-2000) := by
  intro testLike streams read records fallback
  have same : (read.foldl (fun counted line => countLine line counted) []).map countedRecord = records := by
    simp only [countLine_enter]
    refine (congrArg (map countedRecord) (collect_counting read)).trans ?_
    rw [map_map]
    rfl
  change ((((_ : List _).map countedRecord).filter _).take 1000 ++ _).take 3000 = _
  rw [same]
  refine take_of_length_le ?_
  simp only [length_append,length_take,length_drop]
  omega

end BazelMcp.Evidence

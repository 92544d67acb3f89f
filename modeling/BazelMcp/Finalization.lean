import BazelMcp.Grouping
import BazelMcp.Outcome

/-! Diagnostics are aggregated by key, ranked, and cut to a budget of items and of
message bytes, more than once on their way to a result. -/
namespace BazelMcp.Reduction
open Ranking List

/-! ### Aggregation -/

/-- Counts are added up, and actions of several targets lose their target. -/
def aggregation : Grouping Diagnostic Diagnostic DiagnosticKey where
  key := diagnosticKey
  keyOf := diagnosticKey
  opened diagnostic := diagnostic
  merge kept next := { kept with
    repetitionCount := min (kept.repetitionCount+next.repetitionCount) u32Max
    target := if next.category = .action ∧ kept.target ≠ next.target then none else kept.target }
  keyOf_opened _ := rfl
  keyOf_merge kept next same := by
    have category : kept.category = next.category := congrArg DiagnosticKey.category same
    by_cases action : next.category = .action <;> simp [diagnosticKey,category,action]

def Retained.shown (retained : Retained) : Diagnostic :=
  { retained.diagnostic with
    repetitionCount := retained.repetitionCount
    target := if retained.clearTarget then none else retained.diagnostic.target }

theorem countRepetition_shown {retained : List Retained}
    (actions : ∀ entry ∈ retained, entry.clearTarget = true → entry.diagnostic.category = .action) (diagnostic : Diagnostic) :
    (countRepetition diagnostic retained).map Retained.shown = aggregation.enter diagnostic (retained.map Retained.shown) ∧
      ∀ entry ∈ countRepetition diagnostic retained, entry.clearTarget = true → entry.diagnostic.category = .action := by
  induction retained with
  | nil => simp [countRepetition,Grouping.enter,aggregation,Retained.shown]
  | cons first rest ih =>
    obtain ⟨isAction,actions⟩ := forall_mem_cons.mp actions
    have key : aggregation.keyOf first.shown = diagnosticKey first.diagnostic := by
      cases cleared : first.clearTarget with
      | false => simp [aggregation,Retained.shown,diagnosticKey,cleared]
      | true => simp [aggregation,Retained.shown,diagnosticKey,cleared,isAction cleared]
    rw [map_cons,Grouping.enter,key,countRepetition]
    split
    · rename_i same
      have category : first.diagnostic.category = diagnostic.category := congrArg DiagnosticKey.category same
      rw [if_pos (show _ = aggregation.key diagnostic from same)]
      constructor
      · refine cons_eq_cons.mpr ⟨?_,rfl⟩
        cases cleared : first.clearTarget <;> simp [aggregation,Retained.shown,cleared]
      · refine forall_mem_cons.mpr ⟨?_,actions⟩
        simp only [Bool.or_eq_true,Bool.and_eq_true,decide_eq_true_eq]
        exact fun clears => clears.elim isAction fun now => category.trans now.1
    · rename_i other
      rw [if_neg (show ¬ _ = aggregation.key diagnostic from other)]
      exact ⟨congrArg _ (ih actions).1,forall_mem_cons.mpr ⟨isAction,(ih actions).2⟩⟩

variable (diagnostics : List Diagnostic) (summary : InvocationSummary) (budget : Budget) (notices : List Diagnostic)

theorem deduplicateDiagnostics_collects : deduplicateDiagnostics diagnostics = aggregation.collect [] diagnostics := by
  have both : ((diagnostics.foldl (fun retained diagnostic => countRepetition diagnostic retained) []).map Retained.shown =
      aggregation.collect [] diagnostics) ∧
      ∀ entry ∈ diagnostics.foldl (fun retained diagnostic => countRepetition diagnostic retained) [],
        entry.clearTarget = true → entry.diagnostic.category = .action := by
    induction diagnostics using List.reverseRecOn with
    | nil => exact ⟨rfl,fun _ never => nomatch never⟩
    | append_singleton diagnostics diagnostic ih =>
      rw [foldl_append,Grouping.collect_concat,← ih.1]
      exact countRepetition_shown ih.2 diagnostic
  exact both.1

theorem rankedDiagnostics_eq :
    rankedDiagnostics diagnostics = ranked diagnosticPriority (aggregation.collect [] diagnostics) := by
  rw [rankedDiagnostics,deduplicateDiagnostics_collects]

theorem priority_of_key {first second : Diagnostic} (same : diagnosticKey first = diagnosticKey second) :
    diagnosticPriority first = diagnosticPriority second := by
  simp only [diagnosticKey,DiagnosticKey.mk.injEq] at same
  obtain ⟨severity,category,message,location,_,_⟩ := same
  simp only [diagnosticPriority,evidenceQuality,severity,category,message,location]

theorem ranked_distinct : ((rankedDiagnostics diagnostics).map diagnosticKey).Nodup := by
  rw [rankedDiagnostics_eq]
  refine ((perm_insertionSort _ _).map diagnosticKey).nodup_iff.mpr ?_
  exact (aggregation.keys_ordered diagnostics).imp fun earlier same => (same ▸ earlier).false

theorem mem_rankedKeys (key : DiagnosticKey) :
    key ∈ (rankedDiagnostics diagnostics).map diagnosticKey ↔ key ∈ diagnostics.map diagnosticKey := by
  rw [rankedDiagnostics_eq,((perm_insertionSort _ _).map diagnosticKey).mem_iff]
  exact aggregation.mem_keys key diagnostics

/-! ### The budget -/

def messageBytes (diagnostics : List Diagnostic) : Nat := (diagnostics.map fun diagnostic => len diagnostic.message).foldr (· + ·) 0

section Budgets
variable {maxBytes used : Nat} {diagnostics : List Diagnostic}

theorem retainWithin_sublist : (retainWithin maxBytes used diagnostics).1.Sublist diagnostics := by
  induction diagnostics generalizing used with
  | nil => exact List.Sublist.slnil
  | cons diagnostic rest ih =>
    unfold retainWithin
    dsimp only
    split
    · exact ih.cons diagnostic
    · exact ih.cons_cons diagnostic

theorem retainWithin_bytes (within : min used usizeMax ≤ maxBytes) :
    min (used + messageBytes (retainWithin maxBytes used diagnostics).1) usizeMax ≤ maxBytes := by
  induction diagnostics generalizing used with
  | nil => exact within
  | cons diagnostic rest ih =>
    unfold retainWithin
    dsimp only
    split
    · exact ih within
    rename_i fits
    have behind := @ih (min (used+len diagnostic.message) usizeMax) (by omega)
    change min (used + (len diagnostic.message + messageBytes _)) usizeMax ≤ maxBytes
    omega

theorem retainWithin_all (kept : (retainWithin maxBytes used diagnostics).2 = false) :
    (retainWithin maxBytes used diagnostics).1 = diagnostics := by
  induction diagnostics generalizing used with
  | nil => rfl
  | cons diagnostic rest ih =>
    unfold retainWithin at kept ⊢
    dsimp only at kept ⊢
    split at kept
    · cases kept
    · rename_i fits
      rw [if_neg fits]
      exact congrArg _ (ih kept)

theorem retainWithin_unlimited (unlimited : usizeMax ≤ maxBytes) : (retainWithin maxBytes used diagnostics).2 = false := by
  induction diagnostics generalizing used with
  | nil => rfl
  | cons diagnostic rest ih =>
    unfold retainWithin
    rw [if_neg (by omega)]
    exact ih

end Budgets

/-! ### What finalizing leaves -/

def saturatingSum : List Nat → Nat
  | [] => 0
  | first::rest => rest.foldl (fun total count => min (total+count) u32Max) first

/-- What is kept of some diagnostics within a budget. -/
structure Finalized (input : List Diagnostic) (budget : Budget) (kept : List Diagnostic) : Prop where
  known : ∀ diagnostic ∈ kept, diagnosticKey diagnostic ∈ input.map diagnosticKey
  distinct : (kept.map diagnosticKey).Nodup
  sorted : kept.Pairwise fun first second => diagnosticPriority first < diagnosticPriority second ∨
    diagnosticPriority first = diagnosticPriority second ∧
      (input.map diagnosticKey).idxOf (diagnosticKey first) < (input.map diagnosticKey).idxOf (diagnosticKey second)
  items : kept.length ≤ budget.maxItems
  -- No machine holds more message bytes than a `usize` counts.
  bytes : min (messageBytes kept) usizeMax ≤ budget.maxBytes
  counted : ∀ diagnostic ∈ kept, diagnostic.repetitionCount =
    saturatingSum ((input.filter fun other => decide (diagnosticKey other = diagnosticKey diagnostic)).map (·.repetitionCount))
  targeted : ∀ diagnostic ∈ kept, diagnostic.category = .action → ∀ target, diagnostic.target = some target →
    ∀ other ∈ input, diagnosticKey other = diagnosticKey diagnostic → other.target = some target

theorem aggregated_count (first : Diagnostic) (rest : List Diagnostic) :
    (rest.foldl aggregation.merge first).repetitionCount = saturatingSum ((first::rest).map (·.repetitionCount)) := by
  induction rest generalizing first with
  | nil => rfl
  | cons next rest ih => exact ih _

theorem aggregated_target {first : Diagnostic} {rest : List Diagnostic} {target : String}
    (actions : ∀ other ∈ first::rest, other.category = .action)
    (kept : (rest.foldl aggregation.merge first).target = some target) : ∀ other ∈ first::rest, other.target = some target := by
  induction rest generalizing first with
  | nil => simpa using kept
  | cons next rest ih =>
    obtain ⟨firstAction,nextAction,restActions⟩ : _ ∧ _ ∧ _ := by simpa using actions
    have mergedActions : ∀ other ∈ aggregation.merge first next::rest, other.category = .action :=
      forall_mem_cons.mpr ⟨firstAction,restActions⟩
    obtain ⟨merged,behind⟩ := forall_mem_cons.mp (ih mergedActions kept)
    have both : first.target = next.target ∧ first.target = some target := by
      change (if next.category = .action ∧ first.target ≠ next.target then none else first.target) = some target at merged
      split at merged
      · cases merged
      · rename_i agree
        exact ⟨not_not.mp fun differ => agree ⟨nextAction,differ⟩,merged⟩
    exact forall_mem_cons.mpr ⟨both.2,forall_mem_cons.mpr ⟨both.1 ▸ both.2,behind⟩⟩

theorem finalized : Finalized summary.diagnostics budget (finalizeDiagnostics summary budget).diagnostics := by
  have taken := take_sublist budget.maxItems (rankedDiagnostics summary.diagnostics)
  have inside : (finalizeDiagnostics summary budget).diagnostics.Sublist (rankedDiagnostics summary.diagnostics) :=
    retainWithin_sublist.trans taken
  have collected {diagnostic : Diagnostic} (member : diagnostic ∈ (finalizeDiagnostics summary budget).diagnostics) :
      diagnostic ∈ aggregation.collect [] summary.diagnostics := by
    have ranked := inside.subset member
    rw [rankedDiagnostics_eq] at ranked
    exact (mem_insertionSort _).mp ranked
  have ordered := ranked_stable diagnosticPriority (pairwise_map.mp (aggregation.keys_ordered summary.diagnostics))
  rw [← rankedDiagnostics_eq] at ordered
  refine ⟨?_,(ranked_distinct _).sublist (inside.map _),ordered.sublist inside,?_,?_,?_,?_⟩
  · intro diagnostic member
    exact (mem_rankedKeys _ _).mp (mem_map_of_mem (inside.subset member))
  · exact retainWithin_sublist.length_le.trans (length_take_le _ _)
  · have bytes := @retainWithin_bytes budget.maxBytes 0 ((rankedDiagnostics summary.diagnostics).take budget.maxItems) (by omega)
    rwa [Nat.zero_add] at bytes
  · intro diagnostic member
    obtain ⟨first,rest,group,merged⟩ := aggregation.group_of_mem _ (collected member)
    exact (congrArg _ merged).trans ((aggregated_count first rest).trans (group ▸ rfl))
  intro diagnostic member isAction target isTarget other present same
  obtain ⟨first,rest,group,merged⟩ := aggregation.group_of_mem _ (collected member)
  have grouped (other : Diagnostic) : other ∈ first::rest ↔ other ∈ summary.diagnostics ∧ diagnosticKey other = diagnosticKey diagnostic := by
    rw [← group,mem_filter,decide_eq_true_eq]
    rfl
  refine aggregated_target (fun other member => ?_) (merged ▸ isTarget) other ((grouped other).mpr ⟨present,same⟩)
  exact (congrArg DiagnosticKey.category ((grouped other).mp member).2).trans isAction

theorem messageBytes_append (first second : List Diagnostic) :
    messageBytes (first ++ second) = messageBytes first + messageBytes second := by
  induction first with
  | nil => exact (Nat.zero_add _).symm
  | cons diagnostic first ih =>
    change len diagnostic.message + messageBytes (first ++ second) = len diagnostic.message + messageBytes first + _
    omega

theorem finalized_bytes {input kept : List Diagnostic} {budget : Budget} (finalized : Finalized input budget kept)
    (small : budget.maxBytes < usizeMax) : messageBytes kept ≤ budget.maxBytes := by
  have bytes := finalized.bytes
  omega

theorem notices_within : (Outcome.finalizeWithCustomNotices summary notices).diagnostics.length ≤ 20 ∧
      messageBytes (Outcome.finalizeWithCustomNotices summary notices).diagnostics ≤ 4*1024 := by
  unfold Outcome.finalizeWithCustomNotices
  split
  · have kept := finalized summary Outcome.resultDefault
    exact ⟨kept.items,finalized_bytes kept (by decide)⟩
  extract_lets noticeSummary noticeBytes kept extended
  have shown := finalized {success := true, diagnostics := notices} ⟨1024,4⟩
  have rest := finalized summary ⟨4*1024 - noticeBytes,20 - noticeSummary.diagnostics.length⟩
  have noticeItems : noticeSummary.diagnostics.length ≤ 4 := shown.items
  have noticed : noticeBytes ≤ 1024 := finalized_bytes shown (by decide)
  have restItems : kept.diagnostics.length ≤ 20 - noticeSummary.diagnostics.length := rest.items
  have restBytes : messageBytes kept.diagnostics ≤ 4*1024 - noticeBytes :=
    finalized_bytes rest (show 4*1024 - noticeBytes < 2^64-1 by omega)
  have within : extended.diagnostics.length ≤ 20 ∧ messageBytes extended.diagnostics ≤ 4*1024 := by
    rw [show extended.diagnostics = kept.diagnostics ++ noticeSummary.diagnostics from rfl,messageBytes_append,length_append]
    change _ ∧ messageBytes kept.diagnostics + noticeBytes ≤ _
    omega
  split <;> exact within

theorem diagnostics_finalized :
    Finalized summary.diagnostics budget (finalizeDiagnostics summary budget).diagnostics ∧
    ((finalizeDiagnostics {summary with truncated := false} budget).truncated = false →
      ∀ diagnostic ∈ summary.diagnostics, diagnosticKey diagnostic ∈ (finalizeDiagnostics summary budget).diagnostics.map diagnosticKey) ∧
    (Outcome.finalizeWithCustomNotices summary notices).diagnostics.length ≤ 20 ∧
    messageBytes (Outcome.finalizeWithCustomNotices summary notices).diagnostics ≤ 4*1024 := by
  refine ⟨finalized summary budget,?_,notices_within summary notices⟩
  intro untruncated diagnostic member
  simp only [finalizeDiagnostics,Bool.false_or,Bool.or_eq_false_iff,decide_eq_false_iff_not,not_lt] at untruncated ⊢
  rw [retainWithin_all untruncated.2,take_of_length_le untruncated.1]
  exact (mem_rankedKeys _ _).mpr (mem_map_of_mem member)

/-! ### Finalizing in stages -/

/-- One level of priority is aggregated by itself. -/
theorem level_collect (value : List Nat) :
    level diagnosticPriority (aggregation.collect [] diagnostics) value = aggregation.collect [] (level diagnosticPriority diagnostics value) := by
  refine aggregation.filter_collect [] diagnostics (fun _ => rfl) fun kept next same => ?_
  have merged := priority_of_key (aggregation.keyOf_merge kept next same)
  exact ⟨by rw [priority_of_key same],by rw [merged,priority_of_key same]⟩

theorem ranked_staged (added : List Diagnostic) :
    rankedDiagnostics (rankedDiagnostics diagnostics ++ added) = rankedDiagnostics (diagnostics ++ added) := by
  have again : aggregation.collect [] (aggregation.collect [] diagnostics) = aggregation.collect [] diagnostics := by
    have distinct : ((aggregation.collect [] diagnostics).map aggregation.key).Nodup :=
      (aggregation.keys_ordered diagnostics).imp fun earlier same => (same ▸ earlier).false
    exact (aggregation.collect_distinct _ distinct).trans (map_id _)
  rw [rankedDiagnostics_eq,rankedDiagnostics_eq (diagnostics ++ added)]
  refine eq_of_levels diagnosticPriority (ranked_sorted _ _) (ranked_sorted _ _) fun value => ?_
  have levels : level diagnosticPriority (rankedDiagnostics diagnostics ++ added) value =
      level diagnosticPriority (aggregation.collect [] diagnostics ++ added) value := by
    rw [level,level,filter_append,filter_append,rankedDiagnostics_eq]
    exact congrArg (· ++ _) (level_ranked diagnosticPriority _ value)
  rw [level_ranked,level_ranked,level_collect,levels,← level_collect]
  refine congrArg (level diagnosticPriority · value) ?_
  rw [Grouping.collect_append,Grouping.collect_append,again]

theorem staged_finalization (added : List Diagnostic) (budget : Budget)
    (countable : summary.diagnostics.length ≤ usizeMax) :
    let reduced := finalizeDiagnostics summary ⟨usizeMax,usizeMax⟩
    (finalizeDiagnostics {reduced with diagnostics := reduced.diagnostics ++ added} budget).diagnostics =
      (finalizeDiagnostics {summary with diagnostics := summary.diagnostics ++ added} budget).diagnostics := by
  have fewer : (rankedDiagnostics summary.diagnostics).length ≤ summary.diagnostics.length := by
    have listed := subperm_of_subset (ranked_distinct _) fun key => (mem_rankedKeys summary.diagnostics key).mp
    simpa using listed.length_le
  have unlimited : (finalizeDiagnostics summary ⟨usizeMax,usizeMax⟩).diagnostics = rankedDiagnostics summary.diagnostics := by
    rw [finalizeDiagnostics]
    rw [retainWithin_all (retainWithin_unlimited le_rfl),take_of_length_le (fewer.trans countable)]
  dsimp only
  rw [unlimited]
  simp only [finalizeDiagnostics,ranked_staged]

def sampleDiagnostic (message : String) (location : Option DiagnosticLocation) : Diagnostic :=
  ⟨.error,.compilation,message,location,none,none,1⟩

theorem staged_finalization_repeated :
    let first := sampleDiagnostic "undefined" none
    let later := sampleDiagnostic "undefined" none
    let reduced := finalizeDiagnostics {success := false, diagnostics := [first]} ⟨usizeMax,usizeMax⟩
    (finalizeDiagnostics {reduced with diagnostics := reduced.diagnostics ++ [later]} ⟨100,1⟩).diagnostics =
      (finalizeDiagnostics {success := false, diagnostics := [first] ++ [later]} ⟨100,1⟩).diagnostics :=
  staged_finalization {success := false, diagnostics := [sampleDiagnostic "undefined" none]} [sampleDiagnostic "undefined" none]
    ⟨100,1⟩ (by decide)

/-! ### The first cause -/

theorem root_cause_kept_iff (failed : summary.success = false)
    (reported : summary.diagnostics ≠ []) (room : 1 ≤ budget.maxItems) :
    ∃ top rest, rankedDiagnostics summary.diagnostics = top::rest ∧ (∀ other ∈ rest, diagnosticPriority top ≤ diagnosticPriority other) ∧
      ((finalizeDiagnostics summary budget).diagnostics.head? = some top ∧
        (finalizeDiagnostics summary budget).headline = "Bazel failed: " ++ top.message ↔
          min (len top.message) usizeMax ≤ budget.maxBytes) := by
  obtain ⟨first,others,isInput⟩ := exists_cons_of_ne_nil reported
  have known := (mem_rankedKeys summary.diagnostics (diagnosticKey first)).mpr (by rw [isInput]; exact mem_cons_self)
  obtain ⟨top,rest,isRanked⟩ : ∃ top rest, rankedDiagnostics summary.diagnostics = top::rest :=
    exists_cons_of_ne_nil fun empty => not_mem_nil (empty ▸ known)
  have sorted := ranked_sorted diagnosticPriority (aggregation.collect [] summary.diagnostics)
  have distinct := ranked_distinct summary.diagnostics
  rw [← rankedDiagnostics_eq,isRanked] at sorted
  rw [isRanked] at distinct
  refine ⟨top,rest,isRanked,fun other => rel_of_pairwise_cons sorted,?_⟩
  obtain ⟨items,isItems⟩ := Nat.exists_eq_add_of_le' room
  simp only [finalizeDiagnostics,isRanked,isItems,take_succ_cons,retainWithin,Nat.zero_add,failed]
  by_cases fits : budget.maxBytes < min (len top.message) usizeMax
  · rw [if_pos fits]
    refine iff_of_false (fun kept => ?_) (Nat.not_le.mpr fits)
    -- A diagnostic that was skipped does not come again.
    have again := (retainWithin_sublist.trans (take_sublist items rest)).subset (mem_of_head? kept.1)
    exact (nodup_cons.mp distinct).1 (mem_map_of_mem again)
  · rw [if_neg fits]
    exact iff_of_true ⟨rfl,rfl⟩ (Nat.not_lt.mp fits)

theorem root_cause_kept_alone :
    let cause := sampleDiagnostic "undefined" (some ⟨"a.c",some 1,none⟩)
    let summary : InvocationSummary := {success := false, diagnostics := [sampleDiagnostic "stopped" none,cause]}
    summary.success = false ∧ summary.diagnostics ≠ [] ∧ (1 : Nat) ≤ 1 ∧
    ∃ top rest, rankedDiagnostics summary.diagnostics = top::rest ∧ (∀ other ∈ rest, diagnosticPriority top ≤ diagnosticPriority other) ∧
      ((finalizeDiagnostics summary ⟨1000,1⟩).diagnostics.head? = some top ∧
        (finalizeDiagnostics summary ⟨1000,1⟩).headline = "Bazel failed: " ++ top.message ↔ min (len top.message) usizeMax ≤ 1000) :=
  ⟨rfl,by decide,le_rfl,root_cause_kept_iff _ ⟨1000,1⟩ rfl (by decide) le_rfl⟩

theorem ranked_stopped {cause : Diagnostic} (located : cause.location ≠ none) (priority : diagnosticPriority cause = [0,0,0]) :
    rankedDiagnostics [sampleDiagnostic "stopped" none,cause] = [cause,sampleDiagnostic "stopped" none] := by
  have priorities : diagnosticPriority (sampleDiagnostic "stopped" none) = [0,0,1] := by decide +kernel
  have different : diagnosticKey (sampleDiagnostic "stopped" none) ≠ diagnosticKey cause := fun same =>
    located (congrArg DiagnosticKey.location same).symm
  rw [rankedDiagnostics,deduplicateDiagnostics_collects,Grouping.collect_distinct]
  · simp [aggregation,priority,priorities,show ¬ ([0,0,1] : List Nat) ≤ [0,0,0] by decide]
  · simpa [aggregation] using different

def longCause : Diagnostic := sampleDiagnostic (String.ofList (List.replicate 1001 'x')) (some ⟨"a.c",some 1,none⟩)

theorem root_cause_dropped :
    rankedDiagnostics [sampleDiagnostic "stopped" none,longCause] = [longCause,sampleDiagnostic "stopped" none] ∧
    (finalizeDiagnostics {success := false, diagnostics := [sampleDiagnostic "stopped" none,longCause]} ⟨1000,2⟩).diagnostics =
      [sampleDiagnostic "stopped" none] ∧
    (finalizeDiagnostics {success := false, diagnostics := [sampleDiagnostic "stopped" none,longCause]} ⟨1000,2⟩).headline =
      "Bazel failed: stopped" := by
  have ranked := @ranked_stopped longCause nofun rfl
  have long : len longCause.message = 1001 := by
    unfold longCause sampleDiagnostic len
    rw [String.toList_ofList]
    decide +kernel
  have kept : (retainWithin 1000 0 [longCause,sampleDiagnostic "stopped" none]).1 = [sampleDiagnostic "stopped" none] := by
    rw [retainWithin,long]
    decide +kernel
  simp only [finalizeDiagnostics,ranked,take_succ_cons,take_zero,kept]
  exact ⟨trivial,trivial,rfl⟩

end BazelMcp.Reduction

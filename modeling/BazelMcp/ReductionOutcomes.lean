import BazelMcp.Grouping
import BazelMcp.ReductionBounds

/-! Which outcome a summary reports for a label of several events. Results are
sorted by label, stably, and of neighbours with one label the first is kept: so
the first event decides, and a later failure shows only if the first failed. -/
namespace BazelMcp.Reduction
open List

/-! ### Sorting and keeping the first of each label -/

section Merge
variable {α : Type} (label : α → String)

theorem sortBy_find (items : List α) (name : String) :
    (sortBy label items).find? (label · = name) = items.find? (label · = name) := by
  rw [← List.head?_filter,← List.head?_filter]
  exact congrArg List.head? (Ranking.level_ranked label items name)

theorem dedupFrom_find {name : String} (items : List α) {last : α} (differs : label last ≠ name) :
    (dedupFrom label last items).find? (label · = name) = items.find? (label · = name) := by
  induction items generalizing last with
  | nil => rfl
  | cons next rest ih =>
    unfold dedupFrom
    split
    · rename_i same
      rw [ih differs,List.find?_cons_of_neg (by simpa [same] using differs)]
    · by_cases found : label next = name
      · rw [List.find?_cons_of_pos (by simpa using found),List.find?_cons_of_pos (by simpa using found)]
      · rw [List.find?_cons_of_neg (by simpa using found),List.find?_cons_of_neg (by simpa using found),ih found]

theorem dedupBy_find (items : List α) (name : String) :
    (dedupBy label items).find? (label · = name) = items.find? (label · = name) := by
  cases items with
  | nil => rfl
  | cons first rest =>
    unfold dedupBy
    by_cases found : label first = name
    · rw [List.find?_cons_of_pos (by simpa using found),List.find?_cons_of_pos (by simpa using found)]
    · rw [List.find?_cons_of_neg (by simpa using found),List.find?_cons_of_neg (by simpa using found),dedupFrom_find label rest found]

theorem merged_nodup (items : List α) : ((merged label items).map label).Nodup :=
  (merged_sorted label items).imp fun less => less.ne

theorem merged_find (items : List α) (name : String) :
    (merged label items).find? (label · = name) = items.find? (label · = name) :=
  (dedupBy_find label _ name).trans (sortBy_find label items name)

theorem mem_iff_find {items : List α} (distinct : (items.map label).Nodup) (item : α) :
    item ∈ items ↔ items.find? (label · = label item) = some item := by
  constructor
  · intro inside
    cases found : items.find? (label · = label item) with
    | none => simpa using List.find?_eq_none.mp found item inside
    | some other =>
      have same : label other = label item := by simpa using List.find?_some found
      rw [inj_on_of_nodup_map distinct (mem_of_find?_eq_some found) inside same]
  · exact mem_of_find?_eq_some

theorem mem_merged (items : List α) (item : α) : item ∈ merged label items ↔ items.find? (label · = label item) = some item := by
  rw [mem_iff_find label (merged_nodup label items),merged_find]

theorem merged_first {items : List α} {item : α} (inside : item ∈ items) :
    ∃ first ∈ merged label items, label first = label item ∧ items.find? (label · = label item) = some first := by
  cases found : items.find? (label · = label item) with
  | none => simpa using List.find?_eq_none.mp found item inside
  | some first =>
    have same : label first = label item := by simpa using List.find?_some found
    refine ⟨first,?_,same,rfl⟩
    rw [mem_merged,same,found]

theorem merged_count {items : List α} {item : α} (inside : item ∈ items) : ((merged label items).map label).count (label item) = 1 := by
  refine count_eq_one_of_mem (merged_nodup label items) ?_
  obtain ⟨first,kept,same,_⟩ := merged_first label inside
  exact mem_map.mpr ⟨first,kept,same⟩

end Merge

/-! ### The outcomes of the events -/

def completion (event : BuildEvent) : Option TargetResult :=
  match event.payload with
  | some (.completed completed) => some (targetResult event.id completed)
  | _ => none

def testSummaryResult (event : BuildEvent) : Option TestResult :=
  match event.payload with
  | some (.testSummary summary) => some (testResult (testLabel event.id) summary)
  | _ => none

theorem gather_event (gathered : Gathered) (event : BuildEvent) :
    (gather gathered event).targets = gathered.targets ++ (completion event).toList ∧
      (gather gathered event).tests = gathered.tests ++ (testSummaryResult event).toList := by
  obtain ⟨id,payload⟩ := event
  cases payload with
  | none => simp [gather,completion,testSummaryResult]
  | some payload =>
    cases payload with
    | action action =>
      unfold gather
      dsimp only
      split <;> simp [completion,testSummaryResult]
    | _ => simp [gather,completion,testSummaryResult]

variable (events : List BuildEvent) {tests summarized : List TestResult}

theorem gather_results (gathered : Gathered) :
    (events.foldl gather gathered).targets = gathered.targets ++ events.filterMap completion ∧
      (events.foldl gather gathered).tests = gathered.tests ++ events.filterMap testSummaryResult := by
  induction events generalizing gathered with
  | nil => exact ⟨(append_nil _).symm,(append_nil _).symm⟩
  | cons event rest ih =>
    obtain ⟨targets,tests⟩ := ih (gather gathered event)
    rw [foldl_cons,targets,tests,(gather_event gathered event).1,(gather_event gathered event).2,append_assoc,append_assoc]
    cases target : completion event <;> cases test : testSummaryResult event <;> simp [target,test]

theorem completion_cut (event : BuildEvent) : completion event.cut = completion event := by
  obtain ⟨id,payload⟩ := event
  cases payload with
  | none => rfl
  | some payload =>
    cases payload with
    | completed completed => simp [BuildEvent.cut,Payload.cut,completion,targetResult]
    | _ => rfl

theorem testSummaryResult_cut (event : BuildEvent) : testSummaryResult event.cut = testSummaryResult event := by
  obtain ⟨id,payload⟩ := event
  cases payload with
  | none => rfl
  | some payload =>
    cases payload with
    | testSummary summary => simp [BuildEvent.cut,Payload.cut,testSummaryResult,testLabel]
    | _ => rfl

theorem filterMap_cut {β : Type} {read : BuildEvent → Option β} (same : ∀ event, read event.cut = read event) (events : List BuildEvent) :
    (events.map BuildEvent.cut).filterMap read = events.filterMap read := by
  rw [filterMap_map]
  exact filterMap_congr fun event _ => same event

/-- The targets of a summary are the first completions of their labels; the tests are the first
summaries, and after a successful build the recovered attempts of other labels. -/
theorem streamed_results (textDiagnostics : List UInt8 → List Diagnostic) {extension : Option ExtensionEventCollector}
    {input : ReductionInput} (room : (observed extension input.events).truncated = false) :
    let summary := (streamed textDiagnostics extension input).summary
    let summarized := merged (·.label) (input.events.filterMap testSummaryResult)
    summary.targets = merged (·.label) (input.events.filterMap completion) ∧
      summary.tests = sortBy (·.label) (summarized ++ recoveredTests input.events input.exitCode summarized) ∧
      summary.targetCounts = countTargets summary.targets ∧ summary.testCounts = countTests summary.tests := by
  have results := gather_results (input.events.map BuildEvent.cut) {}
  rw [filterMap_cut completion_cut,filterMap_cut testSummaryResult_cut] at results
  have targets : (reduceInvocation textDiagnostics input.cut).targets = merged (·.label) (input.events.filterMap completion) := by
    change dedupBy _ (sortBy _ ((input.events.map BuildEvent.cut).foldl gather {}).targets) = _
    rw [results.1]
    rfl
  have tests : (reduceInvocation textDiagnostics input.cut).tests = merged (·.label) (input.events.filterMap testSummaryResult) := by
    change dedupBy _ (sortBy _ ((input.events.map BuildEvent.cut).foldl gather {}).tests) = _
    rw [results.2]
    rfl
  rw [streamed_summary textDiagnostics room,← targets,← tests]
  exact ⟨rfl,rfl,rfl,rfl⟩

/-! ### Counts -/

structure CountsTargets (counts : TargetCounts) (targets : List TargetResult) : Prop where
  requested : counts.requested = targets.length
  succeeded : counts.succeeded = targets.countP (·.success)
  failed : counts.failed = targets.countP (!·.success)

structure CountsTests (counts : TestCounts) (tests : List TestResult) : Prop where
  passed : counts.passed = tests.countP (·.status = .passed)
  failed : counts.failed = tests.countP (·.status = .failed)
  flaky : counts.flaky = tests.countP (·.status = .flaky)
  skipped : counts.skipped = tests.countP (·.status = .skipped)
  incomplete : counts.incomplete = tests.countP fun test => test.status ∈ [.timedOut,.incomplete,.remote]

theorem countTargets_counts (targets : List TargetResult) : CountsTargets (countTargets targets) targets :=
  ⟨rfl,countP_eq_length_filter.symm,countP_eq_length_filter.symm⟩

theorem CountsTests.next {counts : TestCounts} (counted : CountsTests counts tests) (test : TestResult) :
    CountsTests (countTest counts test) (tests ++ [test]) := by
  obtain ⟨passed,failed,flaky,skipped,incomplete⟩ := counted
  unfold countTest
  cases status : test.status <;>
    constructor <;> simp [countP_append,status,passed,failed,flaky,skipped,incomplete]

theorem countTests_counts (tests : List TestResult) : CountsTests (countTests tests) tests := by
  have run (counts : TestCounts) (seen rest : List TestResult) (counted : CountsTests counts seen) :
      CountsTests (rest.foldl countTest counts) (seen ++ rest) := by
    induction rest generalizing counts seen with
    | nil =>
      rw [append_nil]
      exact counted
    | cons test rest ih =>
      have further := ih _ _ (counted.next test)
      rwa [append_assoc] at further
  exact run {} [] tests ⟨rfl,rfl,rfl,rfl,rfl⟩

/-! ### Recovered tests -/

theorem recoverAttempts_labels (attempts : List (String × TestAttemptOutcome)) (tests : List TestResult) :
    ((BepAccumulator.recoverAttempts attempts tests).map (·.label)).Sublist (attempts.map (·.1)) := by
  induction attempts with
  | nil => exact .slnil
  | cons entry rest ih =>
    unfold BepAccumulator.recoverAttempts at ih ⊢
    rw [filterMap_cons]
    split
    · exact ih.cons _
    rename_i test recovered
    obtain ⟨label,outcome⟩ := entry
    dsimp only at recovered
    split at recovered
    · cases recovered
    · obtain ⟨status,_,rfl⟩ := Option.map_eq_some_iff.mp recovered
      exact ih.cons_cons _

theorem recoverAttempts_new {attempts : List (String × TestAttemptOutcome)} {test : TestResult}
    (inside : test ∈ BepAccumulator.recoverAttempts attempts tests) : test.label ∉ tests.map (·.label) := by
  obtain ⟨entry,_,recovered⟩ := mem_filterMap.mp inside
  dsimp only at recovered
  split at recovered
  · cases recovered
  · rename_i new
    obtain ⟨status,_,rfl⟩ := Option.map_eq_some_iff.mp recovered
    exact new

theorem attempts_sorted : ((events.foldl attemptsWith []).map (·.1)).Pairwise (· < ·) := by
  have start : (([] : List (String × TestAttemptOutcome)).map (·.1)).Pairwise (· < ·) := .nil
  refine List.foldlRecOn (motive := fun attempts : List (String × TestAttemptOutcome) => (attempts.map (·.1)).Pairwise (· < ·))
    events attemptsWith start ?_
  intro attempts sorted event _
  unfold attemptsWith
  split
  · exact observeAttempt_sorted _ _ sorted
  · exact sorted

theorem recoveredTests_distinct (exitCode : Option Int) (distinct : (summarized.map (·.label)).Nodup) :
    ((summarized ++ recoveredTests events exitCode summarized).map (·.label)).Nodup := by
  unfold recoveredTests
  split
  · rw [map_append]
    have sorted := (attempts_sorted events).sublist (recoverAttempts_labels (events.foldl attemptsWith []) summarized)
    refine List.Nodup.append distinct (sorted.imp fun less => less.ne) ?_
    intro name known recovered
    obtain ⟨test,inside,rfl⟩ := mem_map.mp recovered
    exact recoverAttempts_new inside known
  · rwa [append_nil]

theorem recoveredTests_new {events : List BuildEvent} {exitCode : Option Int} {test : TestResult}
    (inside : test ∈ recoveredTests events exitCode summarized) : test.label ∉ summarized.map (·.label) := by
  unfold recoveredTests at inside
  split at inside
  · exact recoverAttempts_new inside
  · cases inside

/-! ### What is reported -/

structure Reports (events : List BuildEvent) (summary : InvocationSummary) : Prop where
  targets : ∀ target ∈ events.filterMap completion, (summary.targets.map (·.label)).count target.label = 1
  failures : ∀ target ∈ summary.targets, target.success = false ↔
    ∃ completed ∈ events.filterMap completion, completed.label = target.label ∧ completed.success = false
  tests : ∀ test ∈ events.filterMap testSummaryResult, (summary.tests.map (·.label)).count test.label = 1
  passes : ∀ test ∈ summary.tests, test.status = .passed →
    ∀ summarized ∈ events.filterMap testSummaryResult, summarized.label = test.label → summarized.status = .passed
  targetCounts : CountsTargets summary.targetCounts summary.targets
  testCounts : CountsTests summary.testCounts summary.tests

/-- Where a completed target failed, the first completed target of its label failed; where a test
did not pass, its first summary did not. -/
def FailsFirst (events : List BuildEvent) : Prop :=
  (∀ target ∈ events.filterMap completion, target.success = false →
    ((events.filterMap completion).find? (·.label = target.label)).any (!·.success) = true) ∧
  ∀ test ∈ events.filterMap testSummaryResult, test.status ≠ .passed →
    ((events.filterMap testSummaryResult).find? (·.label = test.label)).any (·.status ≠ .passed) = true

/-- Within the limits of the accumulator, a summary reports every failure if and only if no failure
comes after a success of the same label that is the label's first outcome. -/
theorem failures_reported_iff (textDiagnostics : List UInt8 → List Diagnostic) (extension : Option ExtensionEventCollector)
    (input : ReductionInput) (room : (observed extension input.events).truncated = false) :
    Reports input.events (streamed textDiagnostics extension input).summary ↔ FailsFirst input.events := by
  obtain ⟨targets,tests,targetCounts,testCounts⟩ := streamed_results textDiagnostics room
  generalize (streamed textDiagnostics extension input).summary = summary at *
  have distinct : ((summary.tests).map (·.label)).Nodup := by
    rw [tests]
    refine (((perm_insertionSort _ _).map _).nodup_iff).mpr ?_
    exact recoveredTests_distinct _ _ (merged_nodup _ _)
  have listed : ∀ test, test ∈ summary.tests ↔ test ∈ merged (·.label) (input.events.filterMap testSummaryResult) ∨
      test ∈ recoveredTests input.events input.exitCode (merged (·.label) (input.events.filterMap testSummaryResult)) := by
    intro test
    rw [tests]
    unfold sortBy
    rw [mem_insertionSort,mem_append]
  constructor
  · intro reports
    refine ⟨?_,?_⟩
    · intro target inside failed
      obtain ⟨first,kept,same,found⟩ := merged_first TargetResult.label inside
      rw [← targets] at kept
      have fails := (reports.failures first kept).mpr ⟨target,inside,same.symm,failed⟩
      rw [found]
      simpa using fails
    · intro test inside failed
      obtain ⟨first,kept,same,found⟩ := merged_first TestResult.label inside
      rw [found]
      have fails : first.status ≠ .passed := fun passed =>
        failed (reports.passes first ((listed first).mpr (.inl kept)) passed test inside same.symm)
      simpa using fails
  · intro ⟨targetsFirst,testsFirst⟩
    refine ⟨?_,?_,?_,?_,?_,?_⟩
    · intro target inside
      rw [targets]
      exact merged_count TargetResult.label inside
    · intro target kept
      rw [targets,mem_merged] at kept
      constructor
      · intro failed
        exact ⟨target,mem_of_find?_eq_some kept,rfl,failed⟩
      intro ⟨completed,inside,same,failed⟩
      have first := targetsFirst completed inside failed
      rw [same,kept] at first
      simpa using first
    · intro test inside
      refine count_eq_one_of_mem distinct ?_
      obtain ⟨first,kept,same,_⟩ := merged_first TestResult.label inside
      exact mem_map.mpr ⟨first,(listed first).mpr (.inl kept),same⟩
    · intro test kept passed summarized inside same
      by_contra failed
      have first := testsFirst summarized inside failed
      rcases (listed test).mp kept with merged | recovered
      · rw [mem_merged] at merged
        rw [same,merged] at first
        simp [passed] at first
      · obtain ⟨other,there,name,_⟩ := merged_first TestResult.label inside
        exact recoveredTests_new recovered (mem_map.mpr ⟨other,there,name.trans same⟩)
    · rw [targetCounts]
      exact countTargets_counts _
    · rw [testCounts]
      exact countTests_counts _

def twoConfigurations : ReductionInput where
  events := [⟨some (.targetCompleted "//a:a"),some (.completed ⟨true,"",[],[],[]⟩)⟩,
    ⟨some (.targetCompleted "//a:a"),some (.completed ⟨false,"",[],[],[]⟩)⟩]
  stdout := []
  stderr := []
  exitCode := some 1
  elapsedMs := 5
  budget := ⟨4096,20⟩

theorem failure_hidden : (observed none twoConfigurations.events).truncated = false ∧
    (streamed (fun _ => []) none twoConfigurations).summary.targets = [⟨"//a:a",true⟩] ∧
    (streamed (fun _ => []) none twoConfigurations).summary.targetCounts.failed = 0 ∧
    ⟨"//a:a",false⟩ ∈ twoConfigurations.events.filterMap completion ∧
    ¬ Reports twoConfigurations.events (streamed (fun _ => []) none twoConfigurations).summary := by
  have listed : (streamed (fun _ => []) none twoConfigurations).summary.targets = [⟨"//a:a",true⟩] := by decide +kernel
  have inside : ⟨"//a:a",false⟩ ∈ twoConfigurations.events.filterMap completion := by decide +kernel
  refine ⟨by decide +kernel,listed,by decide +kernel,inside,?_⟩
  intro reports
  have failed := (reports.failures ⟨"//a:a",true⟩ (by rw [listed]; exact mem_singleton.mpr rfl)).mpr ⟨_,inside,rfl,rfl⟩
  cases failed

/-- The same two outcomes the other way round. -/
theorem failures_reported_first :
    let input := {twoConfigurations with events := twoConfigurations.events.reverse};
    (observed none input.events).truncated = false ∧ FailsFirst input.events ∧
      Reports input.events (streamed (fun _ => []) none input).summary := by
  have room : (observed none twoConfigurations.events.reverse).truncated = false := by decide +kernel
  have first : FailsFirst twoConfigurations.events.reverse := by
    refine ⟨?_,?_⟩ <;> decide +kernel
  exact ⟨room,first,(failures_reported_iff (fun _ => []) none
    {twoConfigurations with events := twoConfigurations.events.reverse} room).mpr first⟩

end BazelMcp.Reduction

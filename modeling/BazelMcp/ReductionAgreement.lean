import BazelMcp.ReductionStream

/-! Agreement of the streaming reducer with the batch reducer. As long as the
accumulator has room for everything, the two differ in three ways only: the
accumulator cuts the descriptions of aborted events and the ids of named sets,
and after a successful build it adds the tests whose attempts were never
summarized. -/
namespace BazelMcp.Reduction
open Traversal List BepAccumulator

def EventId.cut : EventId → EventId
  | .namedSet id => .namedSet (boundedText id (4*1024))
  | id => id

def OutputGroup.cut (group : OutputGroup) : OutputGroup :=
  {group with fileSets := group.fileSets.map (boundedText · (4*1024))}

def Payload.cut : Payload → Payload
  | .aborted reason description => .aborted reason (boundedText description (64*1024))
  | .completed target => .completed {target with outputGroup := target.outputGroup.map OutputGroup.cut}
  | .namedSetOfFiles files fileSets => .namedSetOfFiles files (fileSets.map (boundedText · (4*1024)))
  | payload => payload

def BuildEvent.cut (event : BuildEvent) : BuildEvent where
  id := event.id.map EventId.cut
  payload := event.payload.map Payload.cut

/-- The test attempts reported so far, by label. -/
def attemptsWith (attempts : List (String × TestAttemptOutcome)) (event : BuildEvent) : List (String × TestAttemptOutcome) :=
  match event.payload, labelFromId event.id with
  | some (.testResult status _), some label => observeAttempt label (testStatus status) attempts
  | _, _ => attempts

/-- What the last finished event said of the build. -/
def buildSuccessWith (known : Option Bool) (event : BuildEvent) : Option Bool :=
  match event.payload with
  | some (.finished overallSuccess) => some overallSuccess
  | _ => known

/-- The results of test attempts without a summary. There are none unless the
command exited with code zero and the build was reported successful. -/
def recoveredTests (events : List BuildEvent) (exitCode : Option Int) (summarized : List TestResult) : List TestResult :=
  if exitCode = some 0 ∧ events.foldl buildSuccessWith none = some true then
    BepAccumulator.recoverAttempts (events.foldl attemptsWith []) summarized
  else []

def withTests (recovered : List TestResult) (summary : InvocationSummary) : InvocationSummary :=
  let tests := sortBy (·.label) (summary.tests ++ recovered)
  {summary with tests := tests, testCounts := countTests tests}

/-! ### What the accumulator holds -/

structure Collected where
  gathered : Gathered := {}
  files : GatheredFiles := {}
  attempts : List (String × TestAttemptOutcome) := []
  built : Option Bool := none

def Collected.step (collected : Collected) (event : BuildEvent) : Collected where
  gathered := gather collected.gathered event.cut
  files := gatherFiles collected.files event.cut
  attempts := attemptsWith collected.attempts event
  built := buildSuccessWith collected.built event

structure Represents (accumulator : BepAccumulator) (collected : Collected) : Prop where
  diagnostics : accumulator.diagnostics = collected.gathered.diagnostics
  targets : accumulator.targets = collected.gathered.targets
  tests : accumulator.tests = collected.gathered.tests
  attempts : accumulator.testAttempts = collected.attempts
  built : accumulator.runBepOutcome.buildSuccess = collected.built
  sets : accumulator.namedSets = collected.files.sets.map fun entry => (entry.1,entry.2.filterMap fileArtifact)
  roots : accumulator.artifactRoots = collected.files.roots
  direct : accumulator.directArtifacts = collected.files.direct.filterMap fileArtifact

/-- What the accumulator holds as long as nothing was refused. -/
def Holds (accumulator : BepAccumulator) (collected : Collected) : Prop :=
  accumulator.truncated = false → Represents accumulator collected

variable {accumulator : BepAccumulator} {collected next : Collected}

section
variable (holds : Holds accumulator collected)
include holds

theorem Holds.retain {keep : BepAccumulator → BepAccumulator} (items bytes : Nat)
    (quiet : ∀ reserved, (keep reserved).truncated = reserved.truncated)
    (kept : ∀ reserved, Represents reserved collected → Represents (keep reserved) next) :
    Holds (accumulator.retain items bytes keep) next := by
  intro room
  unfold BepAccumulator.retain BepAccumulator.reserve at room ⊢
  dsimp only at room ⊢
  split at room
  · rename_i reserved passed
    split at passed
    · cases passed
    cases passed
    rw [quiet] at room
    have before := holds room
    exact kept _ ⟨before.diagnostics,before.targets,before.tests,before.attempts,before.built,before.sets,before.roots,
      before.direct⟩
  · rename_i full refused
    split at refused
    · cases refused
      cases room
    · cases refused

theorem Holds.pushDiagnostic (bytes : Nat) (diagnostic : Diagnostic) :
    Holds (accumulator.pushDiagnostic bytes diagnostic)
      {collected with gathered := {collected.gathered with diagnostics := collected.gathered.diagnostics ++ [diagnostic]}} := by
  refine holds.retain 1 bytes (fun _ => rfl) ?_
  intro reserved before
  exact {before with diagnostics := congrArg (· ++ [diagnostic]) before.diagnostics}

theorem Holds.pushRoots (ids : List String) :
    Holds (ids.foldl pushRoot accumulator)
      {collected with files := {collected.files with roots := collected.files.roots ++ ids.map (boundedText · (4*1024))}} := by
  induction ids generalizing accumulator collected with
  | nil => simpa only [foldl_nil,map_nil,append_nil] using holds
  | cons id ids ih =>
    have pushed : Holds (accumulator.pushRoot id)
        {collected with files := {collected.files with roots := collected.files.roots ++ [boundedText id (4*1024)]}} := by
      refine holds.retain 1 _ (fun _ => rfl) ?_
      intro reserved before
      exact {before with roots := congrArg (· ++ [boundedText id (4*1024)]) before.roots}
    simpa only [foldl_cons,map_cons,append_assoc,cons_append,nil_append] using ih pushed

theorem Holds.pushFile (file : File) :
    Holds (accumulator.pushFile file)
      {collected with files := {collected.files with direct := collected.files.direct ++ [file]}} := by
  unfold BepAccumulator.pushFile
  cases shown : fileArtifact file with
  | some artifact =>
    refine holds.retain 1 _ (fun _ => rfl) ?_
    intro reserved before
    refine {before with direct := ?_}
    rw [before.direct,filterMap_append,filterMap_cons_some shown,filterMap_nil]
  | none =>
    intro room
    have before := holds room
    refine {before with direct := ?_}
    rw [before.direct,filterMap_append,filterMap_cons_none shown,filterMap_nil,append_nil]

theorem Holds.pushFiles (files : List File) :
    Holds (files.foldl BepAccumulator.pushFile accumulator)
      {collected with files := {collected.files with direct := collected.files.direct ++ files}} := by
  induction files generalizing accumulator collected with
  | nil => simpa only [append_nil,foldl_nil] using holds
  | cons file files ih => simpa only [foldl_cons,append_assoc,cons_append,nil_append] using ih (holds.pushFile file)

theorem Holds.pushGroups (groups : List OutputGroup) :
    Holds (groups.foldl pushGroup accumulator)
      {collected with files := (groups.map OutputGroup.cut).foldl gatherGroup collected.files} := by
  induction groups generalizing accumulator collected with
  | nil => exact holds
  | cons group groups ih => exact ih ((holds.pushRoots group.fileSets).pushFiles group.inlineFiles)

theorem Holds.pushAttempt (label : String) (status : TestStatus) :
    Holds (accumulator.pushAttempt label status) {collected with attempts := observeAttempt label status collected.attempts} := by
  have observed : ∀ reserved, Represents reserved collected →
      Represents {reserved with testAttempts := observeAttempt label status reserved.testAttempts}
        {collected with attempts := observeAttempt label status collected.attempts} := by
    intro reserved before
    exact {before with attempts := congrArg (observeAttempt label status) before.attempts}
  unfold BepAccumulator.pushAttempt
  split
  · exact fun room => observed _ (holds room)
  · exact holds.retain 1 _ (fun _ => rfl) observed

theorem Holds.pushTestSummary (label : String) (summary : TestSummary) :
    Holds (accumulator.pushTestSummary label summary)
      { collected with
        gathered := { collected.gathered with
          diagnostics := collected.gathered.diagnostics ++
            (testOutcomeDiagnostic label (testStatus summary.overallStatus)).toList
          tests := collected.gathered.tests ++ [testResult label summary] } } := by
  unfold BepAccumulator.pushTestSummary
  cases testOutcomeDiagnostic label (testStatus summary.overallStatus) with
  | some diagnostic =>
    refine (holds.pushDiagnostic _ diagnostic).retain 1 _ (fun _ => rfl) ?_
    intro reserved before
    exact {before with tests := congrArg (· ++ [testResult label summary]) before.tests}
  | none =>
    refine holds.retain 1 _ (fun _ => rfl) ?_
    intro reserved before
    refine {before with diagnostics := ?_,tests := congrArg (· ++ [testResult label summary]) before.tests}
    exact before.diagnostics.trans (append_nil _).symm

theorem Holds.pushNamedSet (id : String) (files : List File) (fileSets : List String) :
    Holds (accumulator.pushNamedSet id files fileSets)
      { collected with
        files := { collected.files with
          sets := (boundedText id (4*1024),⟨files,fileSets.map (boundedText · (4*1024))⟩)::collected.files.sets } } := by
  refine holds.retain _ _ (fun _ => rfl) ?_
  intro reserved before
  exact {before with sets := congrArg ((boundedText id (4*1024),ownedNamedSet files fileSets)::·) before.sets}

/-! ### One event, and all of them -/

end

variable (id : Option EventId) {first : String}

@[simp] theorem labelFromId_cut : labelFromId (id.map EventId.cut) = labelFromId id := by
  cases id with
  | none => rfl
  | some id => cases id <;> rfl

section
variable (holds : Holds accumulator collected)
include holds

theorem Holds.observePayload (id : Option EventId) (payload : Payload) :
    Holds (accumulator.observePayload id payload) (collected.step ⟨id,some payload⟩) := by
  unfold BepAccumulator.observePayload
  cases payload <;>
    dsimp only [Collected.step,BuildEvent.cut,Option.map_some,Payload.cut,gather,gatherFiles,attemptsWith,buildSuccessWith]
  case aborted reason description =>
    simp only [abortedDiagnostic,labelFromId_cut]
    exact holds.pushDiagnostic _ _
  case action action =>
    split
    · exact holds
    · simp only [actionDiagnostic,labelFromId_cut]
      exact (holds.pushDiagnostic _ _).pushFiles action.primaryOutput.toList
  case completed completed =>
    have entered : Holds (accumulator.retain 1 (len (targetResult id completed).label) fun reserved =>
        {reserved with targets := reserved.targets ++ [targetResult id completed]})
        { collected with
          gathered := {collected.gathered with targets := collected.gathered.targets ++ [targetResult id completed]} } := by
      refine holds.retain 1 _ (fun _ => rfl) ?_
      intro reserved before
      exact {before with targets := congrArg (· ++ [targetResult id completed]) before.targets}
    have pushed := (entered.pushGroups completed.outputGroup).pushFiles (completed.importantOutput ++ completed.directoryOutput)
    simp only [targetResult,labelFromId_cut,append_assoc]
    exact pushed
  case testSummary summary =>
    simp only [testLabel,labelFromId_cut]
    exact holds.pushTestSummary _ summary
  case testResult status testActionOutput =>
    have seen : Holds {accumulator with runBepOutcome := {accumulator.runBepOutcome with testResultSeen := true}} collected :=
      fun room => {holds room with}
    cases labelFromId id with
    | some label => exact (seen.pushAttempt label (testStatus status)).pushFiles testActionOutput
    | none => exact seen.pushFiles testActionOutput
  case namedSetOfFiles files fileSets =>
    cases id with
    | none => exact holds
    | some id =>
      cases id with
      | namedSet name => exact holds.pushNamedSet name files fileSets
      | _ => exact holds
  case optionsParsed startupOptions cmdLine =>
    split
    · exact holds
    · refine holds.retain _ _ (fun _ => rfl) ?_
      intro reserved before
      exact {before with}
  case finished overallSuccess =>
    exact fun room => {holds room with built := rfl}
  case execRequest shouldExec =>
    exact fun room => {holds room with}
  case other => exact holds

theorem Holds.observeExtensionEvent (event : BuildEvent) (ordinal : Nat) :
    Holds (accumulator.observeExtensionEvent event ordinal) collected := by
  unfold BepAccumulator.observeExtensionEvent
  split
  · exact holds
  dsimp only
  split
  · exact fun room => {holds room with}
  · exact holds

theorem Holds.observe (event : BuildEvent) : Holds (accumulator.observe event) (collected.step event) := by
  have counted (next : Nat) : Holds {accumulator with nextEventOrdinal := next} collected :=
    fun room => {holds room with}
  have extended := (counted (min (accumulator.nextEventOrdinal+1) 0xFFFFFFFFFFFFFFFF)).observeExtensionEvent event
    accumulator.nextEventOrdinal
  unfold BepAccumulator.observe
  obtain ⟨id,payload⟩ := event
  cases payload with
  | some payload => exact extended.observePayload id payload
  | none => exact extended

theorem Holds.run (events : List BuildEvent) :
    Holds (events.foldl BepAccumulator.observe accumulator) (events.foldl Collected.step collected) := by
  induction events generalizing accumulator collected with
  | nil => exact holds
  | cons event events ih => exact ih (holds.observe event)

end

theorem collected_run (events : List BuildEvent) (collected : Collected) :
    events.foldl Collected.step collected =
      { gathered := (events.map BuildEvent.cut).foldl gather collected.gathered
        files := (events.map BuildEvent.cut).foldl gatherFiles collected.files
        attempts := events.foldl attemptsWith collected.attempts
        built := events.foldl buildSuccessWith collected.built } := by
  induction events generalizing collected with
  | nil => rfl
  | cons event events ih => exact ih (collected.step event)

/-! ### The finished output -/

section Merge
variable {α : Type} (label : α → String)

theorem dedupFrom_sorted (items : List α) {last : α} (sorted : (last::items).Pairwise fun left right => label left ≤ label right) :
    ((last::dedupFrom label last items).map label).Pairwise (· < ·) := by
  induction items generalizing last with
  | nil => exact pairwise_singleton _ _
  | cons next rest ih =>
    obtain ⟨above,tail⟩ := pairwise_cons.mp sorted
    unfold dedupFrom
    split
    · exact ih (pairwise_cons.mpr ⟨fun other inside => above other (mem_cons_of_mem _ inside),(pairwise_cons.mp tail).2⟩)
    rename_i differs
    have step : label last < label next := lt_of_le_of_ne (above next mem_cons_self) (Ne.symm differs)
    have further := ih tail
    refine pairwise_cons.mpr ⟨?_,further⟩
    intro name inside
    rcases mem_cons.mp inside with rfl | later
    · exact step
    · exact step.trans ((pairwise_cons.mp further).1 name later)

/-- One result for each label, the first one, in the order of the labels. -/
def merged (items : List α) : List α := dedupBy label (sortBy label items)

theorem merged_sorted (items : List α) : ((merged label items).map label).Pairwise (· < ·) := by
  have sorted := pairwise_insertionSort (fun left right => label left ≤ label right) items
  unfold merged
  change (sortBy label items).Pairwise _ at sorted
  cases shape : sortBy label items with
  | nil => exact .nil
  | cons first rest =>
    rw [shape] at sorted
    exact dedupFrom_sorted label rest sorted

theorem sortBy_merged (items : List α) : sortBy label (merged label items) = merged label items := by
  have sorted := pairwise_map.mp (merged_sorted label items)
  exact List.Pairwise.insertionSort_eq (sorted.imp fun less => less.le)

end Merge

def ReductionInput.cut (input : ReductionInput) : ReductionInput :=
  {input with events := input.events.map BuildEvent.cut}

/-- An accumulator that is new but for its extension events, fed and then finished. -/
def observed (extension : Option ExtensionEventCollector) (events : List BuildEvent) : BepAccumulator :=
  events.foldl BepAccumulator.observe {extension}

def streamed (textDiagnostics : List UInt8 → List Diagnostic) (extension : Option ExtensionEventCollector)
    (input : ReductionInput) : StreamReductionOutput :=
  (observed extension input.events).finish textDiagnostics input.stdout input.stderr input.exitCode input.elapsedMs input.budget

variable (textDiagnostics : List UInt8 → List Diagnostic) (bound : Nat) {extension : Option ExtensionEventCollector}
  {input : ReductionInput} {second : String}

theorem withTests_nil (input : ReductionInput) :
    withTests [] (reduceInvocation textDiagnostics input) = reduceInvocation textDiagnostics input := by
  have sorted : sortBy TestResult.label ((reduceInvocation textDiagnostics input).tests ++ []) =
      (reduceInvocation textDiagnostics input).tests := by
    rw [append_nil]
    exact sortBy_merged TestResult.label _
  unfold withTests
  rw [sorted]
  rfl

theorem observed_represents {events : List BuildEvent} (room : (observed extension events).truncated = false) :
    Represents (observed extension events)
      { gathered := (events.map BuildEvent.cut).foldl gather {}
        files := (events.map BuildEvent.cut).foldl gatherFiles {}
        attempts := events.foldl attemptsWith []
        built := events.foldl buildSuccessWith none } := by
  have start : Holds {extension} {} := fun _ => ⟨rfl,rfl,rfl,rfl,rfl,rfl,rfl,rfl⟩
  have held := start.run events room
  rwa [collected_run] at held

theorem resolveArtifacts_represents {accumulator : BepAccumulator} {collected : Collected}
    (held : Represents accumulator collected) : accumulator.resolveArtifacts = distinctArtifacts []
      ((collected.files.direct ++ walk collected.files.sets [] collected.files.roots.reverse).filterMap fileArtifact) := by
  unfold resolveArtifacts
  rw [held.direct,held.sets,held.roots,walk_filterMap,filterMap_append]

theorem streamed_summary (room : (observed extension input.events).truncated = false) :
    (streamed textDiagnostics extension input).summary =
      withTests (recoveredTests input.events input.exitCode (reduceInvocation textDiagnostics input.cut).tests)
        (reduceInvocation textDiagnostics input.cut) := by
  have held := observed_represents room
  unfold streamed finish
  dsimp only
  rw [room,held.diagnostics,held.targets,held.tests,held.attempts,held.built]
  by_cases complete : input.exitCode = some 0 ∧ input.events.foldl buildSuccessWith none = some true
  · have recovered : recoveredTests input.events input.exitCode (reduceInvocation textDiagnostics input.cut).tests =
        recoverAttempts (input.events.foldl attemptsWith []) (reduceInvocation textDiagnostics input.cut).tests :=
      if_pos complete
    have finished : (decide (input.exitCode = some 0) &&
        decide (input.events.foldl buildSuccessWith none = some true)) = true := by
      rw [decide_eq_true complete.1,decide_eq_true complete.2]
      rfl
    rw [recovered,finished]
    rfl
  · have nothing : recoveredTests input.events input.exitCode (reduceInvocation textDiagnostics input.cut).tests = [] :=
      if_neg complete
    have unfinished : (decide (input.exitCode = some 0) &&
        decide (input.events.foldl buildSuccessWith none = some true)) = false := by
      rw [Bool.and_eq_false_iff,decide_eq_false_iff_not,decide_eq_false_iff_not]
      exact Decidable.not_and_iff_or_not.mp complete
    rw [nothing,withTests_nil,unfinished]
    rfl

theorem streamed_artifacts (room : (observed extension input.events).truncated = false) :
    (streamed textDiagnostics extension input).artifacts = reduceArtifacts (input.events.map BuildEvent.cut) :=
  resolveArtifacts_represents (observed_represents room)

/-- Within its limits the streaming reducer gives the batch reduction of the
events as it keeps them, with the recovered tests; so it gives the very batch
reduction when it has nothing to cut and nothing to recover. -/
theorem streamed_agrees (textDiagnostics : List UInt8 → List Diagnostic) (extension : Option ExtensionEventCollector)
    (input : ReductionInput) (room : (observed extension input.events).truncated = false) :
    (streamed textDiagnostics extension input).summary =
        withTests (recoveredTests input.events input.exitCode (reduceInvocation textDiagnostics input.cut).tests)
          (reduceInvocation textDiagnostics input.cut) ∧
      (streamed textDiagnostics extension input).artifacts = reduceArtifacts (input.events.map BuildEvent.cut) ∧
      ((∀ event ∈ input.events, event.cut = event) →
        recoveredTests input.events input.exitCode (reduceInvocation textDiagnostics input).tests = [] →
        (streamed textDiagnostics extension input).summary = reduceInvocation textDiagnostics input ∧
          (streamed textDiagnostics extension input).artifacts = reduceArtifacts input.events) := by
  have summary := streamed_summary textDiagnostics room
  have artifacts := streamed_artifacts textDiagnostics room
  refine ⟨summary,artifacts,?_⟩
  intro whole complete
  have same : input.events.map BuildEvent.cut = input.events := map_congr_left whole |>.trans (map_id _)
  have uncut : input.cut = input := by
    unfold ReductionInput.cut
    rw [same]
  rw [uncut,complete,withTests_nil] at summary
  rw [same] at artifacts
  exact ⟨summary,artifacts⟩

def failedBuild : ReductionInput where
  events :=
    [⟨some (.namedSet "0"),some (.namedSetOfFiles [{name := "out.txt",file := some (.uri "file:/out.txt")}] [])⟩,
      ⟨some (.targetCompleted "//pkg:lib"),some (.completed ⟨true,"",[⟨["0"],[]⟩],[],[]⟩)⟩,
      ⟨some (.testSummary "//pkg:test"),some (.testSummary ⟨4,10,1,0⟩)⟩,
      ⟨none,some (.finished false)⟩]
  stdout := []
  stderr := []
  exitCode := some 3
  elapsedMs := 20
  budget := ⟨4096,20⟩

theorem failed_build_agrees : (observed none failedBuild.events).truncated = false ∧
    (streamed (fun _ => []) none failedBuild).summary = reduceInvocation (fun _ => []) failedBuild ∧
    (streamed (fun _ => []) none failedBuild).artifacts = reduceArtifacts failedBuild.events := by
  have room : (observed none failedBuild.events).truncated = false := by decide +kernel
  have whole : ∀ event ∈ failedBuild.events, event.cut = event := by decide +kernel
  exact ⟨room,(streamed_agrees (fun _ => []) none failedBuild room).2.2 whole rfl⟩

/-! ### Where the two reducers part -/

def longText (bound : Nat) (last : Char) : String := String.ofList (List.replicate bound 'a' ++ [last])

theorem boundedText_longText (last : Char) : boundedText (longText bound last) bound = longText bound '…' := by
  have filled := Utf8.byteLen_replicate (show 'a'.utf8Size = 1 from rfl) bound
  have longer : ¬Utf8.byteLen (List.replicate bound 'a' ++ [last]) ≤ bound := by
    have size := last.utf8Size_pos
    rw [Utf8.byteLen_append,filled,Utf8.byteLen_cons,Utf8.byteLen_nil]
    omega
  have kept : Utf8.takeBytes bound (List.replicate bound 'a' ++ [last]) = List.replicate bound 'a' := by
    rw [Utf8.takeBytes_append_of_le _ _ (Nat.le_of_eq filled.symm),Utf8.takeBytes_of_le (Nat.le_of_eq filled)]
  unfold boundedText longText Evidence.boundedText
  rw [String.toList_ofList,if_neg longer,Utf8.takeBytes_floorBoundary,kept]

theorem longText_ne {first second : Char} (differ : first ≠ second) : longText bound first ≠ longText bound second := by
  intro same
  have lists := String.ofList_injective same
  have last := append_cancel_left lists
  exact differ (head_eq_of_cons_eq last)

theorem boundedText_longText_ne {last : Char} (differ : '…' ≠ last) :
    boundedText (longText bound last) bound ≠ longText bound last := by
  rw [boundedText_longText]
  exact longText_ne bound differ

def abortedBuild (description : String) : ReductionInput :=
  ⟨[⟨none,some (.aborted 0 description)⟩],[],[],some 1,0,⟨usizeMax,1⟩⟩

theorem abortedBuild_message (description : String) :
    (reduceInvocation (fun _ => []) (abortedBuild description)).diagnostics.map (·.message) = [description] := by
  simp [reduceInvocation,abortedBuild,gather,addTextDiagnostics,finalizeDiagnostics,rankedDiagnostics,deduplicateDiagnostics,
    countRepetition,abortedDiagnostic,retainWithin]

theorem len_boundedText_longText (last : Char) : len (boundedText (longText bound last) bound) = bound+3 := by
  rw [boundedText_longText,len,longText,String.toList_ofList,Utf8.byteLen_append,Utf8.byteLen_replicate rfl]
  rfl

theorem abortedBuild_room {description : String} (size : len (boundedText description (64*1024)) = 64*1024+3) :
    (observed none (abortedBuild description).events).truncated = false := by
  simp only [observed,abortedBuild,foldl_cons,foldl_nil,observe,observeExtensionEvent,
    observePayload,pushDiagnostic,abortedDiagnostic,labelFromId,optionalBytes,size]
  rfl

theorem withTests_diagnostics (recovered : List TestResult) (summary : InvocationSummary) :
    (withTests recovered summary).diagnostics = summary.diagnostics := rfl

theorem abortedBuild_departs {description : String} (room : (observed none (abortedBuild description).events).truncated = false)
    (cut : boundedText description (64*1024) ≠ description) :
    (streamed (fun _ => []) none (abortedBuild description)).summary.diagnostics ≠
      (reduceInvocation (fun _ => []) (abortedBuild description)).diagnostics := by
  intro same
  have messages := congrArg (List.map Diagnostic.message) same
  have kept : (abortedBuild description).cut = abortedBuild (boundedText description (64*1024)) := rfl
  rw [streamed_summary _ room,withTests_diagnostics,kept,abortedBuild_message,abortedBuild_message] at messages
  exact cut (head_eq_of_cons_eq messages)

def namedFile (name : String) : File where
  name := name
  file := some (.uri "file:/out")

def twoSets (first second : String) : List BuildEvent :=
  [⟨some (.namedSet first),some (.namedSetOfFiles [namedFile "x"] [])⟩,
    ⟨some (.namedSet second),some (.namedSetOfFiles [namedFile "y"] [])⟩,
    ⟨none,some (.completed ⟨true,"",[⟨[first],[]⟩],[],[]⟩)⟩]

def enteredSets (first second : String) : List (String × Node String File) :=
  [(second,⟨[namedFile "y"],[]⟩),(first,⟨[namedFile "x"],[]⟩)]

theorem reduceArtifacts_twoSets {name : String} (found : (enteredSets first second).lookup first = some ⟨[namedFile name],[]⟩) :
    reduceArtifacts (twoSets first second) = distinctArtifacts [] ([namedFile name].filterMap fileArtifact) := by
  have reached : walk (enteredSets first second) [] [first] = [namedFile name] := by
    rw [walk,dif_neg not_mem_nil]
    split
    · rename_i missing
      rw [found] at missing
      cases missing
    rename_i node entered
    rw [found,Option.some.injEq] at entered
    subst entered
    rw [reverse_nil,nil_append,walk,append_nil]
  exact congrArg (fun files => distinctArtifacts [] (files.filterMap fileArtifact)) reached

theorem twoSets_room (firstSize : len (boundedText first (4*1024)) = 4*1024+3)
    (secondSize : len (boundedText second (4*1024)) = 4*1024+3) : (observed none (twoSets first second)).truncated = false := by
  have shown (name : String) (short : name ∈ ["x","y"]) : ownedNamedSet [namedFile name] [] =
      ⟨[{name := name, kind := .file, uri := "file:/out", sizeBytes := some 0, locallyAvailable := true}],[]⟩ := by
    revert name
    decide +kernel
  have used (name : String) (short : name ∈ ["x","y"]) : totalBytes [name,"file:/out"] = 10 := by
    revert name
    decide +kernel
  have labelled : len "<unknown target>" = 16 := by decide +kernel
  simp only [observed,twoSets,foldl_cons,foldl_nil,observe,observeExtensionEvent,
    observePayload,pushNamedSet,pushGroup,pushRoot,
    shown "x" (by decide),shown "y" (by decide),flatMap_cons,flatMap_nil,append_nil,
    used "x" (by decide),used "y" (by decide),firstSize,secondSize]
  simp [retain,reserve,charge,totalBytes,streamMaxItems,
    streamMaxRetainedBytes,usizeMax,targetResult,labelFromId,labelled]

theorem twoSets_departs (events : input.events = twoSets first second)
    (room : (observed none input.events).truncated = false) (differ : first ≠ second)
    (same : boundedText first (4*1024) = boundedText second (4*1024)) :
    (streamed (fun _ => []) none input).artifacts ≠ reduceArtifacts input.events := by
  have collided : (twoSets first second).map BuildEvent.cut = twoSets (boundedText first (4*1024)) (boundedText first (4*1024)) :=
    congrArg (twoSets (boundedText first (4*1024))) same.symm
  have replaced : (enteredSets (boundedText first (4*1024)) (boundedText first (4*1024))).lookup (boundedText first (4*1024)) =
      some ⟨[namedFile "y"],[]⟩ := by
    rw [enteredSets,lookup_cons,beq_self_eq_true]
  have found : (enteredSets first second).lookup first = some ⟨[namedFile "x"],[]⟩ := by
    rw [enteredSets,lookup_cons,beq_false_of_ne differ,lookup_cons,beq_self_eq_true]
  rw [streamed_artifacts _ room,events,collided,reduceArtifacts_twoSets replaced,reduceArtifacts_twoSets found]
  decide +kernel

/-- Three departures within the limits: an attempt without a summary, a
description longer than its bound, and two set ids equal up to theirs. -/
theorem streaming_departs : (∃ input : ReductionInput, (observed none input.events).truncated = false ∧
      (streamed (fun _ => []) none input).summary.tests ≠ (reduceInvocation (fun _ => []) input).tests) ∧
    (∃ input : ReductionInput, (observed none input.events).truncated = false ∧
      (streamed (fun _ => []) none input).summary.diagnostics ≠ (reduceInvocation (fun _ => []) input).diagnostics) ∧
    ∃ input : ReductionInput, (observed none input.events).truncated = false ∧
      (streamed (fun _ => []) none input).artifacts ≠ reduceArtifacts input.events := by
  have aborted := abortedBuild_room (len_boundedText_longText (64*1024) 'b')
  have collided := twoSets_room (len_boundedText_longText (4*1024) 'b') (len_boundedText_longText (4*1024) 'c')
  refine ⟨⟨⟨[⟨some (.testResult "//pkg:test"),some (.testResult 1 [])⟩,⟨none,some (.finished true)⟩],[],[],some 0,0,⟨0,0⟩⟩,?_,?_⟩,
    ⟨abortedBuild (longText (64*1024) 'b'),aborted,?_⟩,
    ⟨⟨twoSets (longText (4*1024) 'b') (longText (4*1024) 'c'),[],[],some 0,0,⟨0,0⟩⟩,?_,?_⟩⟩
  · decide +kernel
  · decide +kernel
  · exact abortedBuild_departs aborted (boundedText_longText_ne (64*1024) (by decide))
  · exact collided
  · refine twoSets_departs rfl collided (longText_ne (4*1024) (by decide)) ?_
    rw [boundedText_longText,boundedText_longText]

end BazelMcp.Reduction

import BazelMcp.ReductionAgreement
import Mathlib.Algebra.Order.BigOperators.Group.List
import Mathlib.Data.List.Flatten

/-! How much the accumulator holds, and when it has left nothing out. An event
contributes pieces of state that do not depend on the accumulator; the one that
is in use asks for room for each of them, and an accumulator without limits
would take them all. -/
namespace BazelMcp.Reduction
open Traversal BepAccumulator
open List hiding set

/-! ### What an event contributes -/

inductive Contribution where
  | diagnostic (diagnostic : Diagnostic)
  | target (target : TargetResult)
  | test (test : TestResult)
  | attempt (label : String) (status : TestStatus)
  | namedSet (key : String) (set : Node String Artifact)
  | root (id : String)
  | artifact (artifact : Artifact)
  | arguments (arguments : List String)
  | testResultSeen
  | finished (overallSuccess : Bool)
  | execRequest (shouldExec : Bool)
  deriving DecidableEq

def Diagnostic.texts (diagnostic : Diagnostic) : List String :=
  diagnostic.message::((diagnostic.location.map (·.path)).toList ++ diagnostic.target.toList ++ diagnostic.action.toList)

def TestCase.texts (case : TestCase) : List String := case.name::case.message.toList

def TestResult.texts (test : TestResult) : List String :=
  test.label::(test.testLogUnavailableReason.toList ++ test.cases.flatMap TestCase.texts)

def Artifact.texts (artifact : Artifact) : List String := [artifact.name,artifact.uri]

def setTexts (entry : String × Node String Artifact) : List String :=
  entry.1::(entry.2.items.flatMap Artifact.texts ++ entry.2.children)

def setItems (entry : String × Node String Artifact) : Nat := 1+entry.2.items.length+entry.2.children.length

namespace Contribution

def texts : Contribution → List String
  | .diagnostic found => Diagnostic.texts found
  | .target result => [result.label]
  | .test result => TestResult.texts result
  | .attempt label _ => [label]
  | .namedSet key set => setTexts (key,set)
  | .root id => [id]
  | .artifact output => Artifact.texts output
  | .arguments values => values
  | .testResultSeen | .finished _ | .execRequest _ => []

def items : Contribution → Nat
  | .diagnostic _ | .target _ | .test _ | .attempt _ _ | .root _ | .artifact _ => 1
  | .namedSet key set => setItems (key,set)
  | .arguments values => values.length
  | .testResultSeen | .finished _ | .execRequest _ => 0

/-- Whether a contribution needs room; a further attempt of a known test and the flags do not. -/
def enters (accumulator : BepAccumulator) : Contribution → Bool
  | .attempt label _ => (accumulator.testAttempts.lookup label).isNone
  | .arguments _ => accumulator.canonicalArguments.isNone
  | .testResultSeen | .finished _ | .execRequest _ => false
  | _ => true

def keep (accumulator : BepAccumulator) : Contribution → BepAccumulator
  | .diagnostic found => {accumulator with diagnostics := accumulator.diagnostics ++ [found]}
  | .target result => {accumulator with targets := accumulator.targets ++ [result]}
  | .test result => {accumulator with tests := accumulator.tests ++ [result]}
  | .attempt label status => {accumulator with testAttempts := observeAttempt label status accumulator.testAttempts}
  | .namedSet key set => {accumulator with namedSets := (key,set)::accumulator.namedSets}
  | .root id => {accumulator with artifactRoots := accumulator.artifactRoots ++ [id]}
  | .artifact output => {accumulator with directArtifacts := accumulator.directArtifacts ++ [output]}
  | .arguments values => {accumulator with canonicalArguments := accumulator.canonicalArguments.or (some values)}
  | .testResultSeen => {accumulator with runBepOutcome := {accumulator.runBepOutcome with testResultSeen := true}}
  | .finished overallSuccess =>
    {accumulator with runBepOutcome := {accumulator.runBepOutcome with buildSuccess := some overallSuccess}}
  | .execRequest shouldExec =>
    {accumulator with runBepOutcome := {accumulator.runBepOutcome with execRequestShouldExecute := some shouldExec}}

end Contribution

/-- How an accumulator answers a request for room for items and bytes. -/
abbrev Reserve := BepAccumulator → Nat → Nat → Bool × BepAccumulator

def accept (reserve : Reserve) (accumulator : BepAccumulator) (piece : Contribution) : BepAccumulator :=
  if piece.enters accumulator then
    match reserve accumulator piece.items (totalBytes piece.texts) with
    | (true,reserved) => piece.keep reserved
    | (false,full) => full
  else piece.keep accumulator

def fileContributions (file : File) : List Contribution := (fileArtifact file).toList.map .artifact

def groupContributions (group : OutputGroup) : List Contribution :=
  group.fileSets.map (fun id => .root (boundedText id (4*1024))) ++ group.inlineFiles.flatMap fileContributions

def contributions (id : Option EventId) : Payload → List Contribution
  | .aborted reason description => [.diagnostic (abortedDiagnostic id reason (boundedText description (64*1024)))]
  | .action executed =>
    if executed.success then []
    else .diagnostic (actionDiagnostic id executed)::executed.primaryOutput.toList.flatMap fileContributions
  | .completed target =>
    .target (targetResult id target)::(target.outputGroup.flatMap groupContributions ++
      (target.importantOutput ++ target.directoryOutput).flatMap fileContributions)
  | .testSummary summary =>
    (testOutcomeDiagnostic (testLabel id) (testStatus summary.overallStatus)).toList.map .diagnostic ++
      [.test (testResult (testLabel id) summary)]
  | .testResult status testActionOutput =>
    .testResultSeen::((labelFromId id).toList.map (.attempt · (testStatus status)) ++
      testActionOutput.flatMap fileContributions)
  | .namedSetOfFiles files fileSets =>
    match id with
    | some (.namedSet name) => [.namedSet (boundedText name (4*1024)) (ownedNamedSet files fileSets)]
    | _ => []
  | .optionsParsed startupOptions cmdLine => [.arguments ((startupOptions ++ cmdLine).map (boundedText · (64*1024)))]
  | .finished overallSuccess => [.finished overallSuccess]
  | .execRequest shouldExec => [.execRequest shouldExec]
  | .other => []

/-! ### The accumulator piece by piece -/

theorem totalBytes_append (first second : List String) : totalBytes (first ++ second) = totalBytes first+totalBytes second := by
  induction first with
  | nil => simp [totalBytes]
  | cons text rest ih =>
    change len text+totalBytes (rest ++ second) = len text+totalBytes rest+_
    omega

theorem totalBytes_toList (text : Option String) : totalBytes text.toList = optionalBytes text := by
  cases text <;> rfl

theorem totalBytes_cons (text : String) (rest : List String) :
    totalBytes (text::rest) = len text+totalBytes rest := rfl

theorem totalBytes_diagnostic {diagnostic : Diagnostic} (nowhere : diagnostic.location = none) :
    totalBytes (Diagnostic.texts diagnostic) =
      len diagnostic.message+optionalBytes diagnostic.target+optionalBytes diagnostic.action := by
  unfold Diagnostic.texts
  rw [totalBytes_cons,totalBytes_append,totalBytes_append,totalBytes_toList,totalBytes_toList,totalBytes_toList,nowhere]
  change len diagnostic.message+(0+_+_) = _
  omega

theorem testOutcomeDiagnostic_plain {label : String} {status : TestStatus} {diagnostic : Diagnostic}
    (found : testOutcomeDiagnostic label status = some diagnostic) : diagnostic.location = none ∧ diagnostic.action = none := by
  cases status <;> cases found <;> exact ⟨rfl,rfl⟩

variable (label : String) (events : List BuildEvent) {accumulator : BepAccumulator} {piece : Contribution}
  {attempts : List (String × TestAttemptOutcome)} {collector : ExtensionEventCollector}

theorem totalBytes_test (summary : TestSummary) : totalBytes (TestResult.texts (testResult label summary)) =
      len (testResult label summary).label+optionalBytes (testResult label summary).testLogUnavailableReason := by
  unfold TestResult.texts
  rw [totalBytes_cons,totalBytes_append,totalBytes_toList]
  rfl

theorem accept_free (reserve : Reserve)
    (free : piece.enters accumulator = false) : accept reserve accumulator piece = piece.keep accumulator := by
  unfold accept
  rw [free]
  rfl

theorem accept_refused {reserve : Reserve} {full : BepAccumulator} (enters : piece.enters accumulator = true)
    (refused : reserve accumulator piece.items (totalBytes piece.texts) = (false,full)) :
    accept reserve accumulator piece = full := by
  unfold accept
  rw [enters,refused]
  rfl

theorem accept_granted {reserve : Reserve} {reserved : BepAccumulator} (enters : piece.enters accumulator = true)
    (granted : reserve accumulator piece.items (totalBytes piece.texts) = (true,reserved)) :
    accept reserve accumulator piece = piece.keep reserved := by
  unfold accept
  rw [enters,granted]
  rfl

namespace BepAccumulator

variable (accumulator : BepAccumulator)

theorem reserve_cases (items bytes : Nat) :
    accumulator.reserve items bytes = (false,{accumulator with truncated := true}) ∨
    accumulator.reserve items bytes = (true,accumulator.charge (accumulator.retainedItems+items) (accumulator.retainedBytes+bytes)) ∧
      accumulator.retainedItems+items ≤ streamMaxItems ∧ accumulator.retainedBytes+bytes ≤ streamMaxRetainedBytes := by
  have small : streamMaxItems < usizeMax ∧ streamMaxRetainedBytes < usizeMax := by decide
  unfold reserve
  dsimp only
  split
  · exact .inl rfl
  rename_i room
  have fits : accumulator.retainedItems+items ≤ streamMaxItems ∧ accumulator.retainedBytes+bytes ≤ streamMaxRetainedBytes := by
    omega
  rw [Nat.min_eq_left (by omega),Nat.min_eq_left (by omega)]
  exact .inr ⟨rfl,fits⟩

theorem retain_accepts {accumulator : BepAccumulator} (piece : Contribution) (enters : piece.enters accumulator = true)
    {items bytes : Nat} (number : items = piece.items) (size : bytes = totalBytes piece.texts) :
    (accumulator.retain items bytes fun reserved => piece.keep reserved) = accept reserve accumulator piece := by
  unfold accept retain
  rw [enters,number,size]
  rfl

theorem pushDiagnostic_accepts {bytes : Nat} {diagnostic : Diagnostic} (size : bytes = totalBytes (Diagnostic.texts diagnostic)) :
    accumulator.pushDiagnostic bytes diagnostic = accept reserve accumulator (.diagnostic diagnostic) := by
  rw [size]
  rfl

theorem pushFile_accepts (file : File) :
    accumulator.pushFile file = (fileContributions file).foldl (accept reserve) accumulator := by
  unfold pushFile fileContributions
  cases fileArtifact file with
  | none | some artifact => rfl

theorem pushFiles_accept (files : List File) :
    files.foldl pushFile accumulator = (files.flatMap fileContributions).foldl (accept reserve) accumulator := by
  induction files generalizing accumulator with
  | nil => rfl
  | cons file rest ih => rw [flatMap_cons,foldl_append,foldl_cons,pushFile_accepts,ih]

theorem pushRoots_accept (ids : List String) : ids.foldl pushRoot accumulator =
      (ids.map fun id => Contribution.root (boundedText id (4*1024))).foldl (accept reserve) accumulator := by
  have single : pushRoot = fun before id => accept reserve before (.root (boundedText id (4*1024))) := by
    funext before id
    unfold pushRoot
    generalize boundedText id (4*1024) = root
    exact retain_accepts (.root root) rfl rfl rfl
  rw [foldl_map,single]

theorem pushGroups_accept (groups : List OutputGroup) :
    groups.foldl pushGroup accumulator = (groups.flatMap groupContributions).foldl (accept reserve) accumulator := by
  induction groups generalizing accumulator with
  | nil => rfl
  | cons group rest ih =>
    rw [flatMap_cons,foldl_append,foldl_cons,ih]
    unfold groupContributions pushGroup
    rw [foldl_append,pushRoots_accept,pushFiles_accept]

theorem pushTestSummary_accepts (id : Option EventId) (summary : TestSummary) :
    accumulator.pushTestSummary (testLabel id) summary =
      (contributions id (.testSummary summary)).foldl (accept reserve) accumulator := by
  unfold contributions pushTestSummary
  rw [foldl_append]
  have last (before : BepAccumulator) := @retain_accepts before (.test (testResult (testLabel id) summary)) rfl _ _ rfl
    (totalBytes_test (testLabel id) summary).symm
  cases found : testOutcomeDiagnostic (testLabel id) (testStatus summary.overallStatus) with
  | none => exact last accumulator
  | some diagnostic =>
    have size : len diagnostic.message+optionalBytes diagnostic.target = totalBytes (Diagnostic.texts diagnostic) := by
      rw [totalBytes_diagnostic (testOutcomeDiagnostic_plain found).1,(testOutcomeDiagnostic_plain found).2]
      rfl
    dsimp only
    rw [pushDiagnostic_accepts accumulator size]
    exact last _

theorem pushAttempt_accepts (label : String) (status : TestStatus) :
    accumulator.pushAttempt label status = accept reserve accumulator (.attempt label status) := by
  have enters : (Contribution.attempt label status).enters accumulator = (accumulator.testAttempts.lookup label).isNone := rfl
  unfold pushAttempt
  cases known : accumulator.testAttempts.lookup label with
  | none =>
    rw [known] at enters
    exact retain_accepts _ enters rfl rfl
  | some outcome =>
    rw [known] at enters
    exact (accept_free reserve enters).symm

/-- The number of items of a named set saturates twice; the sum it is added to saturates anyway. -/
theorem reserve_saturated (items bytes : Nat) :
    accumulator.reserve (min items usizeMax) bytes = accumulator.reserve items bytes := by
  have sum : min (accumulator.retainedItems+min items usizeMax) usizeMax = min (accumulator.retainedItems+items) usizeMax := by
    omega
  unfold reserve
  rw [sum]

theorem retain_set_accepts (key : String) (set : Node String Artifact) :
    (accumulator.retain (min (min (1+set.items.length) usizeMax+set.children.length) usizeMax)
      (len key+totalBytes (set.items.flatMap fun artifact => [artifact.name,artifact.uri])+totalBytes set.children)
      fun reserved => {reserved with namedSets := (key,set)::reserved.namedSets}) = accept reserve accumulator (.namedSet key set) := by
  have number : min (min (1+set.items.length) usizeMax+set.children.length) usizeMax = min (setItems (key,set)) usizeMax := by
    unfold setItems
    dsimp only
    omega
  have size : len key+totalBytes (set.items.flatMap fun artifact => [artifact.name,artifact.uri])+totalBytes set.children =
      totalBytes (setTexts (key,set)) := by
    unfold setTexts
    rw [totalBytes_cons,totalBytes_append,Nat.add_assoc]
    rfl
  rw [number,size]
  unfold retain
  rw [reserve_saturated]
  exact retain_accepts (.namedSet key set) rfl rfl rfl

theorem pushNamedSet_accepts (id : String) (files : List File) (fileSets : List String) :
    accumulator.pushNamedSet id files fileSets =
      accept reserve accumulator (.namedSet (boundedText id (4*1024)) (ownedNamedSet files fileSets)) := by
  unfold pushNamedSet
  exact retain_set_accepts accumulator _ _

theorem pushArguments_accepts (arguments : List String) :
    (if accumulator.canonicalArguments.isSome then accumulator
      else accumulator.retain arguments.length (totalBytes arguments) fun reserved =>
        {reserved with canonicalArguments := some arguments}) = accept reserve accumulator (.arguments arguments) := by
  have enters : (Contribution.arguments arguments).enters accumulator = accumulator.canonicalArguments.isNone := rfl
  cases known : accumulator.canonicalArguments with
  | none =>
    rw [known] at enters
    unfold retain
    rcases reserve_cases accumulator arguments.length (totalBytes arguments) with refused | ⟨granted,-⟩
    · rw [accept_refused enters refused,refused]
      rfl
    · rw [accept_granted enters granted,granted]
      simp [Contribution.keep,charge,known]
  | some first =>
    rw [known] at enters
    rw [accept_free reserve enters]
    cases accumulator
    cases known
    rfl

theorem observePayload_accepts (id : Option EventId) (payload : Payload) :
    accumulator.observePayload id payload = (contributions id payload).foldl (accept reserve) accumulator := by
  cases payload with
  | aborted reason description =>
    rw [observePayload,contributions]
    generalize boundedText description (64*1024) = message
    have size : len (abortedDiagnostic id reason message).message+optionalBytes (abortedDiagnostic id reason message).target =
        totalBytes (Diagnostic.texts (abortedDiagnostic id reason message)) :=
      (@totalBytes_diagnostic (abortedDiagnostic id reason message) rfl).symm
    exact pushDiagnostic_accepts accumulator size
  | action action =>
    rw [observePayload,contributions]
    split
    · rfl
    · have size := @totalBytes_diagnostic (actionDiagnostic id action) rfl
      rw [foldl_cons,← pushFiles_accept,← pushDiagnostic_accepts accumulator size.symm]
  | completed completed =>
    rw [observePayload,contributions]
    rw [foldl_cons,pushFiles_accept,pushGroups_accept,← foldl_append]
    rfl
  | testSummary summary => exact pushTestSummary_accepts accumulator id summary
  | testResult status testActionOutput =>
    rw [observePayload,contributions]
    rw [foldl_cons,foldl_append,← pushFiles_accept]
    cases labelFromId id with
    | none => rfl
    | some label =>
      dsimp only
      rw [pushAttempt_accepts]
      rfl
  | namedSetOfFiles files fileSets =>
    rcases id with _ | id
    · rfl
    cases id with
    | namedSet name => exact pushNamedSet_accepts accumulator name files fileSets
    | targetCompleted | actionCompleted | testSummary | testResult | unconfiguredLabel | configuredLabel | other => rfl
  | optionsParsed startupOptions cmdLine =>
    exact pushArguments_accepts accumulator _
  | finished | execRequest | other => rfl

end BepAccumulator

/-! ### An accumulator without limits -/

def reducerEvent (event : BuildEvent) (ordinal : Nat) : Option ReducerEvent :=
  let label := labelFromId event.id
  match event.payload with
  | some (.aborted _ description) =>
    some { ordinal, kind := .aborted, label, success := some false, message := some (boundedText description (64*1024)) }
  | some (.action action) =>
    some { ordinal, kind := .action, label := label.or (nonempty action.label), actionType := nonempty action.type,
           success := some action.success, exitCode := some action.exitCode }
  | some (.completed completed) =>
    some { ordinal, kind := .target, label, targetKind := nonempty completed.targetKind, success := some completed.success }
  | some (.testSummary summary) =>
    some { ordinal, kind := .testSummary, label, success := some (decide (testStatus summary.overallStatus = .passed)) }
  | _ => none

def ReducerEvent.texts (event : ReducerEvent) : List String :=
  event.label.toList ++ event.targetKind.toList ++ event.actionType.toList ++ event.message.toList

/-- A collector that never refuses. -/
def ExtensionEventCollector.append (collector : ExtensionEventCollector) (event : ReducerEvent) : ExtensionEventCollector :=
  { collector with
    retainedBytes := min (collector.retainedBytes+totalBytes event.texts) usizeMax
    events := collector.events ++ [event] }

def collect (push : ExtensionEventCollector → ReducerEvent → ExtensionEventCollector) (event : BuildEvent) (ordinal : Nat)
    (collector : ExtensionEventCollector) : ExtensionEventCollector :=
  (reducerEvent event ordinal).toList.foldl push collector

def eventContributions (event : BuildEvent) : List Contribution := (event.payload.map (contributions event.id)).getD []

/-- An accumulator that asks `reserve` for room and shows its collector's events to `push`. -/
def observeWith (reserve : Reserve) (push : ExtensionEventCollector → ReducerEvent → ExtensionEventCollector)
    (accumulator : BepAccumulator) (event : BuildEvent) : BepAccumulator :=
  (eventContributions event).foldl (accept reserve)
    { accumulator with
      nextEventOrdinal := min (accumulator.nextEventOrdinal+1) 0xFFFFFFFFFFFFFFFF
      extension := accumulator.extension.map (collect push event accumulator.nextEventOrdinal) }

def grant : Reserve := fun accumulator items bytes =>
  (true,accumulator.charge (accumulator.retainedItems+items) (accumulator.retainedBytes+bytes))

def observeUnlimited : BepAccumulator → BuildEvent → BepAccumulator := observeWith grant .append

namespace BepAccumulator

variable (accumulator : BepAccumulator)

theorem observeExtensionEvent_collects (event : BuildEvent) (ordinal : Nat) :
    accumulator.observeExtensionEvent event ordinal =
      {accumulator with extension := accumulator.extension.map (collect .push event ordinal)} := by
  unfold observeExtensionEvent collect reducerEvent
  have unchanged {extension : Option ExtensionEventCollector} (known : accumulator.extension = extension) :
      accumulator = {accumulator with extension} := by
    subst known
    rfl
  cases known : accumulator.extension with
  | none => exact unchanged known
  | some collector =>
    rcases event.payload with _ | payload
    · exact unchanged known
    cases payload with
    | aborted | action | completed | testSummary => rfl
    | testResult | namedSetOfFiles | optionsParsed | finished | execRequest | other => exact unchanged known

theorem observe_accepts (event : BuildEvent) : accumulator.observe event = observeWith reserve .push accumulator event := by
  unfold observe observeWith eventContributions
  dsimp only
  rw [observeExtensionEvent_collects]
  cases event.payload with
  | none => rfl
  | some payload => exact observePayload_accepts _ event.id payload

end BepAccumulator

/-! ### Nothing is left out unless it is said -/

theorem reserve_grants (accumulator : BepAccumulator) (items bytes : Nat) :
    accumulator.reserve items bytes = (false,{accumulator with truncated := true}) ∨
      accumulator.reserve items bytes = grant accumulator items bytes := by
  rcases reserve_cases accumulator items bytes with refused | ⟨granted,-⟩
  · exact .inl refused
  · exact .inr granted

theorem keep_truncated (accumulator : BepAccumulator) (piece : Contribution) :
    (piece.keep accumulator).truncated = accumulator.truncated := by
  cases piece <;> rfl

theorem accept_agrees (accumulator : BepAccumulator) (piece : Contribution) :
    (accept reserve accumulator piece).truncated = true ∨ accept reserve accumulator piece = accept grant accumulator piece := by
  cases enters : piece.enters accumulator with
  | false => exact .inr (by rw [accept_free _ enters,accept_free _ enters])
  | true =>
    rcases reserve_grants accumulator piece.items (totalBytes piece.texts) with refused | granted
    · exact .inl (by rw [accept_refused enters refused])
    · exact .inr (by rw [accept_granted enters granted,accept_granted enters rfl])

theorem accept_marked (piece : Contribution) (marked : accumulator.truncated = true) :
    (accept grant accumulator piece).truncated = true := by
  cases enters : piece.enters accumulator with
  | false => rw [accept_free _ enters,keep_truncated,marked]
  | true =>
    rw [accept_granted enters rfl,keep_truncated]
    exact marked

/-- Two folds agree up to the first mark, if a mark stays. -/
theorem foldl_agrees {σ π : Type} {take full : σ → π → σ} {marked : σ → Prop} (stays : ∀ state piece, marked state → marked (full state piece))
    (agrees : ∀ state piece, marked (take state piece) ∨ take state piece = full state piece) (pieces : List π) (state : σ) :
    marked (pieces.foldl take state) ∨ pieces.foldl take state = pieces.foldl full state := by
  induction pieces generalizing state with
  | nil => exact .inr rfl
  | cons piece rest ih =>
    rcases agrees state piece with mark | same
    · exact .inl (foldlRecOn rest take mark fun state marked piece _ =>
        (agrees state piece).elim id fun same => same ▸ stays state piece marked)
    · rw [foldl_cons,foldl_cons,← same]
      exact ih _

/-- Room is given without a look at the extension collector and the ordinal, and neither is changed. -/
structure Blind (reserve : Reserve) : Prop where
  extension : ∀ accumulator items bytes, (reserve accumulator items bytes).2.extension = accumulator.extension
  ordinal : ∀ accumulator items bytes, (reserve accumulator items bytes).2.nextEventOrdinal = accumulator.nextEventOrdinal
  outside : ∀ accumulator items bytes, reserve {accumulator with extension := none} items bytes =
    ((reserve accumulator items bytes).1,{(reserve accumulator items bytes).2 with extension := none})

theorem blind_grant : Blind grant := ⟨fun _ _ _ => rfl,fun _ _ _ => rfl,fun _ _ _ => rfl⟩

theorem blind_reserve : Blind reserve := by
  refine ⟨?_,?_,?_⟩ <;> intro accumulator items bytes
  · rcases reserve_grants accumulator items bytes with refused | granted
    · rw [refused]
    · rw [granted]
      rfl
  · rcases reserve_grants accumulator items bytes with refused | granted
    · rw [refused]
    · rw [granted]
      rfl
  · unfold reserve
    dsimp only
    split <;> rfl

def outside (accumulator : BepAccumulator) : BepAccumulator := {accumulator with extension := none}

section Outside
variable (push other : ExtensionEventCollector → ReducerEvent → ExtensionEventCollector)

/-- The ordinal and the collector, apart from the rest of the accumulator. -/
def collectNext (state : Nat × Option ExtensionEventCollector) (event : BuildEvent) : Nat × Option ExtensionEventCollector :=
  (min (state.1+1) 0xFFFFFFFFFFFFFFFF,state.2.map (collect push event state.1))

def collecting (accumulator : BepAccumulator) : Nat × Option ExtensionEventCollector :=
  (accumulator.nextEventOrdinal,accumulator.extension)

variable (accumulator : BepAccumulator) (piece : Contribution)

theorem outside_keep : outside (piece.keep accumulator) = piece.keep (outside accumulator) := by
  cases piece <;> rfl

section
variable {reserve : Reserve} (blind : Blind reserve)
include blind

theorem outside_accept : outside (accept reserve accumulator piece) = accept reserve (outside accumulator) piece := by
  have same : piece.enters (outside accumulator) = piece.enters accumulator := by cases piece <;> rfl
  have answer := blind.outside accumulator piece.items (totalBytes piece.texts)
  unfold accept
  rw [same]
  split
  · change _ = match reserve {accumulator with extension := none} piece.items (totalBytes piece.texts) with
      | (true,reserved) => piece.keep reserved
      | (false,full) => full
    rw [answer]
    cases reserve accumulator piece.items (totalBytes piece.texts) with
    | mk granted reserved =>
      cases granted with
      | true => exact outside_keep reserved piece
      | false => rfl
  · exact outside_keep accumulator piece

theorem accept_extension : (accept reserve accumulator piece).extension = accumulator.extension ∧
      (accept reserve accumulator piece).nextEventOrdinal = accumulator.nextEventOrdinal := by
  have kept (before : BepAccumulator) : (piece.keep before).extension = before.extension ∧
      (piece.keep before).nextEventOrdinal = before.nextEventOrdinal := by cases piece <;> exact ⟨rfl,rfl⟩
  have extension := blind.extension accumulator piece.items (totalBytes piece.texts)
  have ordinal := blind.ordinal accumulator piece.items (totalBytes piece.texts)
  cases enters : piece.enters accumulator with
  | false =>
    rw [accept_free _ enters]
    exact kept accumulator
  | true =>
    cases answer : reserve accumulator piece.items (totalBytes piece.texts) with
    | mk granted reserved =>
      rw [answer] at extension ordinal
      cases granted with
      | true =>
        rw [accept_granted enters answer,(kept reserved).1,(kept reserved).2]
        exact ⟨extension,ordinal⟩
      | false =>
        rw [accept_refused enters answer]
        exact ⟨extension,ordinal⟩

theorem outside_observeWith (event : BuildEvent) :
    outside (observeWith reserve push accumulator event) = observeWith reserve other (outside accumulator) event := by
  unfold observeWith
  exact (foldl_hom outside fun accumulator piece => (outside_accept accumulator piece blind).symm).symm

theorem outside_run (events : List BuildEvent) :
    outside (events.foldl (observeWith reserve push) accumulator) = events.foldl (observeWith reserve other) (outside accumulator) :=
  (foldl_hom outside fun accumulator event => (outside_observeWith push other accumulator blind event).symm).symm

theorem collecting_run (events : List BuildEvent) :
    collecting (events.foldl (observeWith reserve push) accumulator) = events.foldl (collectNext push) (collecting accumulator) := by
  refine (foldl_hom collecting fun accumulator event => ?_).symm
  unfold observeWith
  refine (foldlRecOn (motive := fun reached => collecting reached = collectNext push (collecting accumulator) event)
    (eventContributions event) (accept reserve) rfl ?_).symm
  intro reached same piece _
  rw [← same]
  exact Prod.ext (accept_extension reached piece blind).2 (accept_extension reached piece blind).1

end

theorem run_agrees (events : List BuildEvent) : (events.foldl (observeWith reserve push) accumulator).truncated = true ∨
      events.foldl (observeWith reserve push) accumulator = events.foldl (observeWith grant push) accumulator := by
  refine @foldl_agrees _ _ _ _ (fun reached => reached.truncated = true) ?_ ?_ events accumulator
  · intro reached event marked
    exact foldlRecOn (motive := fun after : BepAccumulator => after.truncated = true) _ _ marked
      fun after marked piece _ => accept_marked piece marked
  · intro reached event
    exact @foldl_agrees _ _ _ _ (fun after : BepAccumulator => after.truncated = true) (fun _ piece marked => accept_marked piece marked)
      accept_agrees _ _

end Outside

namespace ExtensionEventCollector

theorem totalBytes_event (event : ReducerEvent) : totalBytes event.texts =
    optionalBytes event.label+optionalBytes event.targetKind+optionalBytes event.actionType+optionalBytes event.message := by
  unfold ReducerEvent.texts
  rw [totalBytes_append,totalBytes_append,totalBytes_append,totalBytes_toList,totalBytes_toList,totalBytes_toList,totalBytes_toList]

variable (collector : ExtensionEventCollector)

theorem push_cases (event : ReducerEvent) :
    collector.push event = {collector with truncated := true} ∨
    collector.push event = collector.append event ∧ collector.events.length < collector.maxEvents ∧
      (collector.append event).retainedBytes ≤ collector.maxBytes := by
  unfold push append
  rw [totalBytes_event]
  dsimp only
  split
  · exact .inl rfl
  · rename_i room
    exact .inr ⟨rfl,by omega,by omega⟩

structure Within (collector : ExtensionEventCollector) : Prop where
  events : collector.events.length ≤ collector.maxEvents
  counted : collector.retainedBytes = min (totalBytes (collector.events.flatMap ReducerEvent.texts)) usizeMax
  bytes : collector.retainedBytes ≤ collector.maxBytes

theorem Within.push {collector : ExtensionEventCollector} (within : collector.Within) (event : ReducerEvent) :
    (collector.push event).Within := by
  rcases push_cases collector event with refused | ⟨appended,few,room⟩
  · rw [refused]
    exact ⟨within.events,within.counted,within.bytes⟩
  rw [appended]
  refine ⟨?_,?_,room⟩
  · unfold append
    rw [length_append]
    exact few
  unfold append
  rw [flatMap_append,totalBytes_append,within.counted]
  have one : totalBytes ([event].flatMap ReducerEvent.texts) = totalBytes event.texts := by
    simp
  rw [one]
  dsimp only
  omega

theorem push_limits (event : ReducerEvent) :
    (collector.push event).maxEvents = collector.maxEvents ∧ (collector.push event).maxBytes = collector.maxBytes := by
  rcases push_cases collector event with refused | ⟨appended,-⟩
  · rw [refused]
    exact ⟨rfl,rfl⟩
  · rw [appended]
    exact ⟨rfl,rfl⟩

end ExtensionEventCollector

/-! ### What the accumulator holds -/

/-- The named sets that a later one of the same key has not replaced. -/
def liveSets (seen : List String) : List (String × Node String Artifact) → List (String × Node String Artifact)
  | [] => []
  | entry::rest => if entry.1 ∈ seen then liveSets seen rest else entry::liveSets (entry.1::seen) rest

def sumItems (entries : List (String × Node String Artifact)) : Nat := (entries.map setItems).foldr (· + ·) 0

namespace BepAccumulator

def heldItems (accumulator : BepAccumulator) : Nat :=
  accumulator.diagnostics.length+accumulator.targets.length+accumulator.tests.length+accumulator.testAttempts.length+
    sumItems (liveSets [] accumulator.namedSets)+accumulator.artifactRoots.length+accumulator.directArtifacts.length+
    (accumulator.canonicalArguments.getD []).length

def heldTexts (accumulator : BepAccumulator) : List String :=
  accumulator.diagnostics.flatMap Diagnostic.texts ++ accumulator.targets.map (·.label) ++
    accumulator.tests.flatMap TestResult.texts ++ accumulator.testAttempts.map (·.1) ++
    (liveSets [] accumulator.namedSets).flatMap setTexts ++ accumulator.artifactRoots ++
    accumulator.directArtifacts.flatMap Artifact.texts ++ accumulator.canonicalArguments.getD []

end BepAccumulator

theorem liveSets_sublist {seen more : List String} (sub : seen ⊆ more) (entries : List (String × Node String Artifact)) :
    (liveSets more entries).Sublist (liveSets seen entries) := by
  induction entries generalizing seen more with
  | nil => exact .slnil
  | cons entry rest ih =>
    unfold liveSets
    by_cases old : entry.1 ∈ seen
    · rw [if_pos old,if_pos (sub old)]
      exact ih sub
    rw [if_neg old]
    by_cases known : entry.1 ∈ more
    · rw [if_pos known]
      exact (ih (cons_subset.mpr ⟨known,sub⟩)).cons _
    · rw [if_neg known]
      exact (ih (cons_subset_cons _ sub)).cons_cons _

theorem sumItems_enter (key : String) (set : Node String Artifact) (entries : List (String × Node String Artifact)) :
    sumItems (liveSets [] ((key,set)::entries)) ≤ sumItems (liveSets [] entries)+setItems (key,set) := by
  have fewer := ((liveSets_sublist (nil_subset [key]) entries).map setItems).sum_le_sum fun _ _ => Nat.zero_le _
  rw [Nat.add_comm]
  exact Nat.add_le_add_left fewer _

theorem totalBytes_enter (key : String) (set : Node String Artifact) (entries : List (String × Node String Artifact)) :
    totalBytes ((liveSets [] ((key,set)::entries)).flatMap setTexts) ≤
      totalBytes ((liveSets [] entries).flatMap setTexts)+totalBytes (setTexts (key,set)) := by
  have fewer : totalBytes ((liveSets [key] entries).flatMap setTexts) ≤
      totalBytes ((liveSets [] entries).flatMap setTexts) :=
    (((liveSets_sublist (nil_subset [key]) entries).flatMap setTexts).map len).sum_le_sum fun _ _ => Nat.zero_le _
  change totalBytes (((key,set)::liveSets [key] entries).flatMap setTexts) ≤ _
  rw [flatMap_cons,totalBytes_append,Nat.add_comm]
  exact Nat.add_le_add_right fewer _

theorem observeAttempt_keys (status : TestStatus) (attempts : List (String × TestAttemptOutcome)) :
    (∃ before after, attempts.map (·.1) = before ++ after ∧ (observeAttempt label status attempts).map (·.1) = before ++ label::after) ∨
      (observeAttempt label status attempts).map (·.1) = attempts.map (·.1) := by
  induction attempts with
  | nil => exact .inl ⟨[],[],rfl,rfl⟩
  | cons entry rest ih =>
    unfold observeAttempt
    split
    · exact .inl ⟨[],_,rfl,rfl⟩
    split
    · exact .inr rfl
    · rcases ih with ⟨before,after,old,new⟩ | same
      · exact .inl ⟨entry.1::before,after,congrArg _ old,congrArg _ new⟩
      · exact .inr (congrArg (cons entry.1) same)

theorem observeAttempt_known {label : String} (status : TestStatus)
    (sorted : (attempts.map (·.1)).Pairwise (· < ·)) (known : (attempts.lookup label).isSome) :
    (observeAttempt label status attempts).map (·.1) = attempts.map (·.1) := by
  induction attempts with
  | nil => cases known
  | cons entry rest ih =>
    obtain ⟨above,sorted⟩ := pairwise_cons.mp sorted
    unfold observeAttempt
    split
    · rename_i less
      rw [lookup_cons,beq_false_of_ne less.ne] at known
      have member : label ∈ rest.map (·.1) := by
        obtain ⟨pair,inside,same⟩ := lookup_isSome_iff.mp known
        exact mem_map.mpr ⟨pair,inside,(eq_of_beq same).symm⟩
      exact absurd (above label member) less.asymm
    · split
      · rfl
      · rename_i differs
        rw [lookup_cons,beq_false_of_ne differs] at known
        exact congrArg (cons entry.1) (ih sorted known)

theorem observeAttempt_sorted (status : TestStatus)
    (sorted : (attempts.map (·.1)).Pairwise (· < ·)) : ((observeAttempt label status attempts).map (·.1)).Pairwise (· < ·) := by
  induction attempts with
  | nil => exact pairwise_singleton _ _
  | cons entry rest ih =>
    obtain ⟨above,tail⟩ := pairwise_cons.mp sorted
    unfold observeAttempt
    split
    · rename_i less
      refine pairwise_cons.mpr ⟨?_,sorted⟩
      intro other member
      rcases mem_cons.mp member with rfl | inside
      · exact less
      · exact less.trans (above other inside)
    split
    · exact sorted
    rename_i notLess differs
    refine pairwise_cons.mpr ⟨?_,ih tail⟩
    intro other member
    have either : other = label ∨ other ∈ rest.map (·.1) := by
      rcases observeAttempt_keys label status rest with ⟨before,after,old,new⟩ | same
      · rw [new] at member
        rw [old]
        simp only [mem_append,mem_cons] at member ⊢
        tauto
      · rw [same] at member
        exact .inr member
    rcases either with rfl | inside
    · exact lt_of_le_of_ne (not_lt.mp notLess) (Ne.symm differs)
    · exact above other inside

theorem totalBytes_held (accumulator : BepAccumulator) : totalBytes accumulator.heldTexts =
    totalBytes (accumulator.diagnostics.flatMap Diagnostic.texts)+ totalBytes (accumulator.targets.map (·.label))+
      totalBytes (accumulator.tests.flatMap TestResult.texts)+ totalBytes (accumulator.testAttempts.map (·.1))+
      totalBytes ((liveSets [] accumulator.namedSets).flatMap setTexts)+ totalBytes accumulator.artifactRoots+
      totalBytes (accumulator.directArtifacts.flatMap Artifact.texts)+ totalBytes (accumulator.canonicalArguments.getD []) := by
  unfold heldTexts
  simp only [totalBytes_append]

theorem observeAttempt_held (status : TestStatus) (attempts : List (String × TestAttemptOutcome)) :
    (observeAttempt label status attempts).length ≤ attempts.length+1 ∧
      totalBytes ((observeAttempt label status attempts).map (·.1)) ≤ totalBytes (attempts.map (·.1))+len label := by
  have lengths := observeAttempt_keys label status attempts
  rw [← @List.length_map _ _ attempts (·.1),← @List.length_map _ _ (observeAttempt label status attempts) (·.1)]
  rcases lengths with ⟨before,after,old,new⟩ | same
  · rw [old,new,totalBytes_append,totalBytes_append,totalBytes_cons,length_append,length_append,length_cons]
    omega
  · rw [same]
    omega

theorem keep_items (accumulator : BepAccumulator) (piece : Contribution) :
    (piece.keep accumulator).heldItems ≤ accumulator.heldItems+piece.items := by
  cases piece with
  | attempt label status =>
    have more := (observeAttempt_held label status accumulator.testAttempts).1
    simp only [heldItems,Contribution.keep,Contribution.items]
    omega
  | namedSet key set =>
    have more := sumItems_enter key set accumulator.namedSets
    simp only [heldItems,Contribution.keep,Contribution.items]
    omega
  | arguments values =>
    cases known : accumulator.canonicalArguments with
    | none | some first => simp [heldItems,Contribution.keep,Contribution.items,known]
  | _ =>
    simp only [heldItems,Contribution.keep,Contribution.items,length_append,length_singleton]
    omega

theorem keep_bytes (accumulator : BepAccumulator) (piece : Contribution) :
    totalBytes (piece.keep accumulator).heldTexts ≤ totalBytes accumulator.heldTexts+totalBytes piece.texts := by
  rw [totalBytes_held,totalBytes_held]
  cases piece with
  | attempt label status =>
    have more := (observeAttempt_held label status accumulator.testAttempts).2
    have one : totalBytes [label] = len label := rfl
    simp only [Contribution.keep,Contribution.texts]
    omega
  | namedSet key set =>
    have more := totalBytes_enter key set accumulator.namedSets
    simp only [Contribution.keep,Contribution.texts]
    omega
  | arguments values =>
    cases known : accumulator.canonicalArguments with
    | none => simp [Contribution.keep,Contribution.texts,known,totalBytes]
    | some first => simp [Contribution.keep,Contribution.texts,known]
  | _ =>
    simp only [Contribution.keep,Contribution.texts,flatMap_append,map_append,totalBytes_append,flatMap_singleton,
      map_cons,map_nil]
    omega

theorem keep_free (sorted : (accumulator.testAttempts.map (·.1)).Pairwise (· < ·)) (free : piece.enters accumulator = false) :
    (piece.keep accumulator).heldItems = accumulator.heldItems ∧ (piece.keep accumulator).heldTexts = accumulator.heldTexts := by
  cases piece with
  | attempt label status =>
    have known : (accumulator.testAttempts.lookup label).isSome := by
      change (accumulator.testAttempts.lookup label).isNone = false at free
      cases found : accumulator.testAttempts.lookup label with
      | none =>
        rw [found] at free
        cases free
      | some outcome => rfl
    have same := observeAttempt_known status sorted known
    have size := congrArg length same
    rw [length_map,length_map] at size
    simp only [heldItems,heldTexts,Contribution.keep,same,size,and_self]
  | arguments values =>
    change accumulator.canonicalArguments.isNone = false at free
    cases known : accumulator.canonicalArguments with
    | none =>
      rw [known] at free
      cases free
    | some first => simp [heldItems,heldTexts,Contribution.keep,known]
  | testResultSeen | finished | execRequest => exact ⟨rfl,rfl⟩
  | _ => cases free

structure Bounded (accumulator : BepAccumulator) : Prop where
  sorted : (accumulator.testAttempts.map (·.1)).Pairwise (· < ·)
  items : accumulator.heldItems ≤ accumulator.retainedItems
  bytes : totalBytes accumulator.heldTexts ≤ accumulator.retainedBytes
  itemsWithin : accumulator.retainedItems ≤ streamMaxItems
  bytesWithin : accumulator.retainedBytes ≤ streamMaxRetainedBytes

theorem keep_sorted (piece : Contribution) (sorted : (accumulator.testAttempts.map (·.1)).Pairwise (· < ·)) :
    ((piece.keep accumulator).testAttempts.map (·.1)).Pairwise (· < ·) := by
  cases piece with
  | attempt label status => exact observeAttempt_sorted label status sorted
  | _ => exact sorted

theorem keep_counts (accumulator : BepAccumulator) (piece : Contribution) :
    (piece.keep accumulator).retainedItems = accumulator.retainedItems ∧
      (piece.keep accumulator).retainedBytes = accumulator.retainedBytes := by
  cases piece <;> exact ⟨rfl,rfl⟩

theorem Bounded.accept (bounded : Bounded accumulator) (piece : Contribution) : Bounded (accept reserve accumulator piece) := by
  cases enters : piece.enters accumulator with
  | false =>
    obtain ⟨items,texts⟩ := keep_free bounded.sorted enters
    obtain ⟨itemCount,byteCount⟩ := keep_counts accumulator piece
    rw [accept_free _ enters]
    refine ⟨keep_sorted piece bounded.sorted,?_,?_,?_,?_⟩
    · rw [items,itemCount]
      exact bounded.items
    · rw [texts,byteCount]
      exact bounded.bytes
    · rw [itemCount]
      exact bounded.itemsWithin
    · rw [byteCount]
      exact bounded.bytesWithin
  | true =>
    rcases reserve_cases accumulator piece.items (totalBytes piece.texts) with refused | ⟨granted,few,small⟩
    · rw [accept_refused enters refused]
      exact ⟨bounded.sorted,bounded.items,bounded.bytes,bounded.itemsWithin,bounded.bytesWithin⟩
    rw [accept_granted enters granted]
    generalize charged : accumulator.charge (accumulator.retainedItems+piece.items)
      (accumulator.retainedBytes+totalBytes piece.texts) = reserved
    have items := keep_items reserved piece
    have texts := keep_bytes reserved piece
    obtain ⟨itemCount,byteCount⟩ := keep_counts reserved piece
    subst charged
    refine ⟨keep_sorted piece bounded.sorted,?_,?_,?_,?_⟩
    · rw [itemCount]
      exact items.trans (Nat.add_le_add_right bounded.items _)
    · rw [byteCount]
      exact texts.trans (Nat.add_le_add_right bounded.bytes _)
    · rw [itemCount]
      exact few
    · rw [byteCount]
      exact small

theorem Bounded.observe (bounded : Bounded accumulator) (event : BuildEvent) : Bounded (accumulator.observe event) := by
  rw [observe_accepts]
  refine foldlRecOn (eventContributions event) (Reduction.accept reserve) ?_
    fun reached bounded piece _ => bounded.accept piece
  exact ⟨bounded.sorted,bounded.items,bounded.bytes,bounded.itemsWithin,bounded.bytesWithin⟩

theorem Bounded.run (bounded : Bounded accumulator) (events : List BuildEvent) :
    Bounded (events.foldl BepAccumulator.observe accumulator) :=
  foldlRecOn events BepAccumulator.observe bounded fun _ bounded event _ => bounded.observe event

/-! ### Whole streams -/

def startCollecting (limits : Option (Nat × Nat)) : Option ExtensionEventCollector :=
  limits.map fun (maxEvents,maxBytes) => { maxEvents, maxBytes }

def observedUnlimited (extension : Option ExtensionEventCollector) (events : List BuildEvent) : BepAccumulator :=
  events.foldl observeUnlimited {extension}

theorem observed_accepts (extension : Option ExtensionEventCollector) (events : List BuildEvent) :
    observed extension events = events.foldl (observeWith reserve .push) {extension} := by
  have same : BepAccumulator.observe = observeWith BepAccumulator.reserve .push := by
    funext accumulator event
    exact observe_accepts accumulator event
  unfold observed
  rw [same]

/-- A collector with the limits that it was started with, within them. -/
def Holding (maxEvents maxBytes : Nat) (collector : ExtensionEventCollector) : Prop :=
  collector.Within ∧ collector.maxEvents = maxEvents ∧ collector.maxBytes = maxBytes

theorem Holding.collect {maxEvents maxBytes : Nat} (holding : Holding maxEvents maxBytes collector)
    (event : BuildEvent) (ordinal : Nat) : Holding maxEvents maxBytes (collect .push event ordinal collector) := by
  refine foldlRecOn _ _ holding ?_
  intro reached holding seen _
  obtain ⟨within,most,room⟩ := holding
  obtain ⟨events,bytes⟩ := reached.push_limits seen
  exact ⟨within.push seen,events.trans most,bytes.trans room⟩

theorem collector_run {maxEvents maxBytes : Nat} {state : Nat × Option ExtensionEventCollector}
    (holding : ∀ collector, state.2 = some collector → Holding maxEvents maxBytes collector) :
    ∀ collector, (events.foldl (collectNext .push) state).2 = some collector → Holding maxEvents maxBytes collector := by
  refine foldlRecOn (motive := fun reached : Nat × Option ExtensionEventCollector =>
    ∀ collector, reached.2 = some collector → Holding maxEvents maxBytes collector) events _ holding ?_
  intro reached holding event _ collector there
  obtain ⟨before,was,rfl⟩ := Option.map_eq_some_iff.mp there
  exact (holding before was).collect event reached.1

def marked (state : Nat × Option ExtensionEventCollector) : Prop := (state.2.map (·.truncated)).getD false = true

theorem collect_agrees (event : BuildEvent) (ordinal : Nat) (collector : ExtensionEventCollector) :
    (collect .push event ordinal collector).truncated = true ∨
      collect .push event ordinal collector = collect .append event ordinal collector := by
  unfold collect
  cases reducerEvent event ordinal with
  | none => exact .inr rfl
  | some seen =>
    rcases collector.push_cases seen with refused | ⟨appended,-⟩
    · exact .inl (congrArg (·.truncated) refused)
    · exact .inr appended

theorem collect_marked (event : BuildEvent) (ordinal : Nat) (marked : collector.truncated = true) :
    (collect .append event ordinal collector).truncated = true := by
  unfold collect
  cases reducerEvent event ordinal with
  | none | some seen => exact marked

theorem collecting_agrees (state : Nat × Option ExtensionEventCollector) : marked (events.foldl (collectNext .push) state) ∨
      events.foldl (collectNext .push) state = events.foldl (collectNext .append) state := by
  refine foldl_agrees ?_ ?_ events state
  · intro reached event mark
    cases there : reached.2 with
    | none => rw [marked,there] at mark; cases mark
    | some collector =>
      rw [marked,there] at mark
      rw [marked,collectNext,there]
      exact collect_marked event reached.1 mark
  intro reached event
  cases there : reached.2 with
  | none =>
    rw [collectNext,collectNext,there]
    exact .inr rfl
  | some collector =>
    rw [marked,collectNext,collectNext,there]
    rcases collect_agrees event reached.1 collector with mark | same
    · exact .inl mark
    · exact .inr (by rw [Option.map_some,Option.map_some,same])

/-- For every stream and all limits of the extension events, the accumulator holds at most 250000 items
and 64 MiB of text beside the collector, the collector stays within its limits, and what is not marked as
truncated is what an accumulator without limits would hold. -/
theorem accumulation_bounded (limits : Option (Nat × Nat)) (events : List BuildEvent) :
    let ended := observed (startCollecting limits) events;
    let unlimited := observedUnlimited (startCollecting limits) events;
    ended.heldItems ≤ 250000 ∧ totalBytes ended.heldTexts ≤ 64*1024*1024 ∧
      (∀ maxEvents maxBytes collector, limits = some (maxEvents,maxBytes) → ended.extension = some collector →
        collector.events.length ≤ maxEvents ∧
          (maxBytes < usizeMax → totalBytes (collector.events.flatMap ReducerEvent.texts) ≤ maxBytes)) ∧
      (ended.truncated = false → outside ended = outside unlimited) ∧
      ((ended.extension.map (·.truncated)).getD false = false → ended.extension = unlimited.extension) := by
  have start : Bounded {extension := startCollecting limits} :=
    ⟨.nil,Nat.le_refl _,Nat.le_refl _,Nat.zero_le _,Nat.zero_le _⟩
  have bounded := start.run events
  have collected := collecting_run .push {extension := startCollecting limits} blind_reserve events
  rw [← observed_accepts] at collected
  refine ⟨bounded.items.trans bounded.itemsWithin,bounded.bytes.trans bounded.bytesWithin,?_,?_,?_⟩
  · intro maxEvents maxBytes collector given there
    have fresh : ∀ collector, (collecting {extension := startCollecting limits}).2 = some collector →
        Holding maxEvents maxBytes collector := by
      intro collector started
      rw [given] at started
      cases started
      exact ⟨⟨Nat.zero_le _,rfl,Nat.zero_le _⟩,rfl,rfl⟩
    obtain ⟨within,most,room⟩ := collector_run events fresh collector ((congrArg (·.2) collected.symm).trans there)
    refine ⟨most ▸ within.events,fun small => ?_⟩
    have counted := within.counted
    have bytes := within.bytes
    omega
  · intro whole
    have limited := outside_run .push .append {extension := startCollecting limits} blind_reserve events
    have free := outside_run .append .append {extension := startCollecting limits} blind_grant events
    rw [← observed_accepts] at limited
    rcases run_agrees .append (outside {extension := startCollecting limits}) events with mark | same
    · rw [← limited] at mark
      cases whole.symm.trans mark
    · exact limited.trans (same.trans free.symm)
  · intro whole
    have free := collecting_run .append {extension := startCollecting limits} blind_grant events
    rcases collecting_agrees events (collecting {extension := startCollecting limits}) with mark | same
    · rw [← collected] at mark
      cases whole.symm.trans mark
    · exact congrArg (·.2) (collected.trans (same.trans free.symm))

/-- A target, a test that failed and its first attempt, with room for two extension events. -/
theorem accumulation_bounded_small :
    let events : List BuildEvent := [⟨some (.targetCompleted "//a:a"),some (.completed ⟨true,"",[],[],[]⟩)⟩,
      ⟨some (.testResult "//a:t"),some (.testResult 4 [])⟩,⟨some (.testSummary "//a:t"),some (.testSummary ⟨4,7,1,0⟩)⟩];
    let ended := observed (startCollecting (some (2,64))) events;
    (ended.truncated = false ∧ outside ended = outside (observedUnlimited (startCollecting (some (2,64))) events)) ∧
      ((ended.extension.map (·.truncated)).getD false = false ∧
        ended.extension = (observedUnlimited (startCollecting (some (2,64))) events).extension) := by
  obtain ⟨-,-,-,kept,collected⟩ := accumulation_bounded (some (2,64)) [⟨some (.targetCompleted "//a:a"),some (.completed ⟨true,"",[],[],[]⟩)⟩,
    ⟨some (.testResult "//a:t"),some (.testResult 4 [])⟩,⟨some (.testSummary "//a:t"),some (.testSummary ⟨4,7,1,0⟩)⟩]
  exact ⟨⟨by decide +kernel,kept (by decide +kernel)⟩,by decide +kernel,collected (by decide +kernel)⟩

end BazelMcp.Reduction

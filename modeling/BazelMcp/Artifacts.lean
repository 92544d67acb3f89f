import BazelMcp.ReductionAgreement

/-! The artifacts of a stream are those of its files and of the named sets that
completed targets lead to, whatever the order in which the sets arrive. -/
namespace BazelMcp.Reduction
open Traversal List

/-- The named set that an event defines. -/
def definedSet (event : BuildEvent) : Option (String × Node String File) :=
  match event.payload, event.id with
  | some (.namedSetOfFiles files fileSets), some (.namedSet id) => some (id,⟨files,fileSets⟩)
  | _, _ => none

def targetSets (event : BuildEvent) : List String :=
  match event.payload with
  | some (.completed completed) => completed.outputGroup.flatMap (·.fileSets)
  | _ => []

def directFiles (event : BuildEvent) : List File :=
  match event.payload with
  | some (.completed completed) =>
    completed.outputGroup.flatMap (·.inlineFiles) ++ completed.importantOutput ++ completed.directoryOutput
  | some (.action action) => if action.success then [] else action.primaryOutput.toList
  | some (.testResult _ testActionOutput) => testActionOutput
  | _ => []

/-- The ids of named sets that an event carries. -/
def setIds (event : BuildEvent) : List String :=
  targetSets event ++ (definedSet event).toList.flatMap fun set => set.1::set.2.children

variable (events : List BuildEvent)

/-- The sets by their last definitions. -/
def lastSets : List (String × Node String File) := (events.filterMap definedSet).reverse

/-- The artifact of a direct file, or of a set that a completed target leads to. -/
def Offered (artifact : Artifact) : Prop := ∃ file, fileArtifact file = some artifact ∧
  (file ∈ events.flatMap directFiles ∨ ∃ root ∈ events.flatMap targetSets, ∃ name set,
    Relation.ReflTransGen (Refers (lastSets events)) root name ∧ (lastSets events).lookup name = some set ∧ file ∈ set.items)

theorem gatherGroups (groups : List OutputGroup) (gathered : GatheredFiles) : groups.foldl gatherGroup gathered =
    ⟨gathered.sets,gathered.roots ++ groups.flatMap (·.fileSets),gathered.direct ++ groups.flatMap (·.inlineFiles)⟩ := by
  induction groups generalizing gathered with
  | nil => simp
  | cons group rest ih => simp [ih,gatherGroup]

theorem gatherFiles_eq (gathered : GatheredFiles) (event : BuildEvent) : gatherFiles gathered event =
    ⟨(definedSet event).toList ++ gathered.sets,gathered.roots ++ targetSets event,gathered.direct ++ directFiles event⟩ := by
  obtain ⟨id,payload⟩ := event
  cases payload with
  | none => simp [gatherFiles,definedSet,targetSets,directFiles]
  | some payload =>
    cases payload with
    | namedSetOfFiles files fileSets =>
      cases id with
      | none => simp [gatherFiles,definedSet,targetSets,directFiles]
      | some id => cases id <;> simp [gatherFiles,definedSet,targetSets,directFiles]
    | completed completed => simp [gatherFiles,gatherGroups,definedSet,targetSets,directFiles]
    | action action => cases success : action.success <;> simp [gatherFiles,definedSet,targetSets,directFiles,success]
    | _ => simp [gatherFiles,definedSet,targetSets,directFiles]

theorem gathered_eq : events.foldl gatherFiles {} = ⟨lastSets events,events.flatMap targetSets,events.flatMap directFiles⟩ := by
  induction events using List.reverseRecOn with
  | nil => rfl
  | append_singleton events event ih =>
    rw [foldl_append,ih,foldl_cons,foldl_nil,gatherFiles_eq]
    have sets : lastSets (events ++ [event]) = (definedSet event).toList ++ lastSets events := by
      unfold lastSets
      cases found : definedSet event <;> simp [found]
    simp [sets]

/-! ### Ids that are not cut -/

theorem boundedText_short {text : String} {bound : Nat} (short : len text ≤ bound) : boundedText text bound = text := by
  have whole : Evidence.boundedText text.toList bound = text.toList := if_pos short
  rw [boundedText,whole,String.ofList_toList]

theorem boundedTexts_short {texts : List String} {bound : Nat} (short : ∀ text ∈ texts, len text ≤ bound) :
    texts.map (boundedText · bound) = texts :=
  (map_congr_left fun text member => boundedText_short (short text member)).trans (map_id _)

theorem directFiles_cut (event : BuildEvent) : directFiles event.cut = directFiles event := by
  obtain ⟨id,payload⟩ := event
  cases payload with
  | none => rfl
  | some payload =>
    cases payload with
    | completed completed => simp [directFiles,BuildEvent.cut,Payload.cut,OutputGroup.cut,flatMap_map]
    | _ => rfl

theorem sets_cut {event : BuildEvent} (short : ∀ id ∈ setIds event, len id ≤ 4*1024) :
    targetSets event.cut = targetSets event ∧ definedSet event.cut = definedSet event := by
  obtain ⟨id,payload⟩ := event
  cases payload with
  | none => exact ⟨rfl,rfl⟩
  | some payload =>
    cases payload with
    | completed completed =>
      have cut : targetSets (BuildEvent.cut ⟨id,some (.completed completed)⟩) =
          (targetSets ⟨id,some (.completed completed)⟩).map (boundedText · (4*1024)) := by
        simp [targetSets,BuildEvent.cut,Payload.cut,OutputGroup.cut,flatMap_map,map_flatMap]
      exact ⟨cut.trans (boundedTexts_short fun id member => short id (mem_append_left _ member)),rfl⟩
    | namedSetOfFiles files fileSets =>
      refine ⟨rfl,?_⟩
      cases id with
      | none => rfl
      | some id =>
        cases id with
        | namedSet id =>
          have ids : ∀ name ∈ id::fileSets, len name ≤ 4*1024 := fun name member => short name (by simpa [setIds,targetSets,definedSet] using member)
          obtain ⟨idShort,childrenShort⟩ := forall_mem_cons.mp ids
          simp only [definedSet,BuildEvent.cut,Payload.cut,EventId.cut,Option.map_some,boundedText_short idShort,boundedTexts_short childrenShort]
        | _ => rfl
    | _ => exact ⟨rfl,rfl⟩

theorem gathered_cut (short : ∀ event ∈ events, ∀ id ∈ setIds event, len id ≤ 4*1024) :
    (events.map BuildEvent.cut).foldl gatherFiles {} = ⟨lastSets events,events.flatMap targetSets,events.flatMap directFiles⟩ := by
  have defined : ∀ event ∈ events, definedSet event.cut = definedSet event := fun event member => (sets_cut (short event member)).2
  have targets : ∀ event ∈ events, targetSets event.cut = targetSets event := fun event member => (sets_cut (short event member)).1
  rw [gathered_eq,lastSets,lastSets,filterMap_map,flatMap_map,flatMap_map]
  refine GatheredFiles.mk.injEq .. |>.mpr ⟨?_,?_,?_⟩
  · exact congrArg List.reverse (filterMap_congr defined)
  · exact flatMap_congr targets
  · exact flatMap_congr fun event _ => directFiles_cut event

/-! ### Each artifact once -/

def artifactKey (artifact : Artifact) : String × String := (artifact.name,artifact.uri)

variable (seen : List (String × String)) (artifacts : List Artifact)

theorem distinctArtifacts_sublist : (distinctArtifacts seen artifacts).Sublist artifacts := by
  induction artifacts generalizing seen with
  | nil => exact .slnil
  | cons artifact rest ih =>
    rw [distinctArtifacts]
    split
    · exact (ih _).cons _
    · exact (ih _).cons_cons _

theorem mem_distinctPairs (pair : String × String) :
    pair ∈ (distinctArtifacts seen artifacts).map artifactKey ↔ pair ∉ seen ∧ pair ∈ artifacts.map artifactKey := by
  induction artifacts generalizing seen with
  | nil => simp [distinctArtifacts]
  | cons artifact rest ih =>
    rw [distinctArtifacts]
    change _ ∈ List.map _ (if artifactKey artifact ∈ seen then _ else artifact::distinctArtifacts (artifactKey artifact::seen) rest) ↔ _
    split <;> simp [ih] <;> grind

theorem distinctPairs_nodup : ((distinctArtifacts seen artifacts).map artifactKey).Nodup := by
  induction artifacts generalizing seen with
  | nil => exact nodup_nil
  | cons artifact rest ih =>
    rw [distinctArtifacts]
    split
    · exact ih seen
    · refine nodup_cons.mpr ⟨fun again => ?_,ih _⟩
      exact ((mem_distinctPairs _ _ _).mp again).1 mem_cons_self

theorem artifacts_reachable (extension : Option ExtensionEventCollector) (room : (observed extension events).truncated = false)
    (short : ∀ event ∈ events, ∀ id ∈ setIds event, len id ≤ 4*1024) :
    (∀ artifact ∈ (observed extension events).resolveArtifacts, Offered events artifact) ∧
    ((observed extension events).resolveArtifacts.map artifactKey).Nodup ∧
    ∀ artifact, Offered events artifact → artifactKey artifact ∈ (observed extension events).resolveArtifacts.map artifactKey := by
  have resolved := resolveArtifacts_represents (observed_represents room)
  rw [gathered_cut events short] at resolved
  have offered (artifact : Artifact) : Offered events artifact ↔ artifact ∈ ((events.flatMap directFiles ++
      walk (lastSets events) [] (events.flatMap targetSets).reverse).filterMap fileArtifact) := by
    simp only [Offered,mem_filterMap,mem_append,mem_walk,mem_reverse,leads_iff]
    exact exists_congr fun file => and_comm
  rw [resolved]
  refine ⟨?_,distinctPairs_nodup _ _,?_⟩
  · intro artifact member
    exact (offered artifact).mpr ((distinctArtifacts_sublist _ _).subset member)
  · intro artifact isOffered
    exact (mem_distinctPairs _ _ _).mpr ⟨not_mem_nil,mem_map_of_mem ((offered artifact).mp isOffered)⟩

/-- A target refers to a set that arrives later and refers back to itself and to one that never arrives. -/
def lateSet : List BuildEvent :=
  [⟨some (.targetCompleted "//pkg:lib"),some (.completed ⟨true,"",[⟨["0"],[]⟩],[],[]⟩)⟩,
    ⟨some (.namedSet "0"),some (.namedSetOfFiles [{name := "out.txt",file := some (.uri "file:/out.txt")}] ["0","1"])⟩]

theorem late_artifacts_reachable : (observed none lateSet).truncated = false ∧
    (∀ event ∈ lateSet, ∀ id ∈ setIds event, len id ≤ 4*1024) ∧
    ∀ artifact, Offered lateSet artifact → artifactKey artifact ∈ (observed none lateSet).resolveArtifacts.map artifactKey := by
  have room : (observed none lateSet).truncated = false := by decide +kernel
  have short : ∀ event ∈ lateSet, ∀ id ∈ setIds event, len id ≤ 4*1024 := by decide +kernel
  exact ⟨room,short,(artifacts_reachable lateSet none room short).2.2⟩

end BazelMcp.Reduction

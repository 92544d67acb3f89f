import BazelMcp.IndexSets

/-! What each update of an index does to its entries. -/
namespace BazelMcp.Store
open StoreIndex Index StoreIndex.Index

namespace Index
variable (index : Index) (id other : Uuid)

theorem lookup_modify (change : IndexEntry → IndexEntry) :
    (modify index id change).lookup other = (index.lookup other).map fun entry => if other = id then change entry else entry :=
  lookup_mapEntries other _ index.entries

theorem lookup_recount (bytes : Nat) : (recount index id bytes).lookup other =
    (index.lookup other).map fun entry => if other = id then {entry with retainedBytes := bytes} else entry := by
  unfold recount
  cases found : index.lookup id with
  | some entry => exact lookup_modify index id other _
  | none =>
    by_cases same : other = id
    · rw [same,found]
      rfl
    · simp only [if_neg same,Option.map_id']

theorem lookup_markTelemetryFlushed (generation : Nat) : (markTelemetryFlushed index id generation).lookup other =
    (index.lookup other).map fun entry =>
      if other = id ∧ entry.telemetryGeneration = generation then {entry with telemetryFlushScheduled := false} else entry := by
  rw [markTelemetryFlushed,lookup_modify]
  congr 1
  funext entry
  by_cases same : other = id
  · simp [same]
  · simp [same]

theorem lookup_transitionLostEvidence {next : InvocationState} {termination : Option Termination} {summary : Option InvocationSummary}
    {now : Int} {after : Index} (done : transitionLostEvidence index id next termination summary now = .ok after) :
    index.lookup id ≠ none ∧ ∃ entry, after = index.replace id entry := by
  unfold transitionLostEvidence at done
  cases found : index.lookup id with
  | none =>
    rw [found] at done
    cases done
  | some entry =>
    rw [found] at done
    dsimp only at done
    split at done
    · cases done
    · cases done
      exact ⟨nofun,_,rfl⟩

theorem lookup_replaceAll (recovered : List (Uuid × IndexEntry)) (absent : other ∉ recovered.map Prod.fst) :
    (recovered.foldl (fun index entry => index.replace entry.1 entry.2) index).lookup other = index.lookup other := by
  induction recovered generalizing index with
  | nil => rfl
  | cons head rest ih =>
    rw [List.map_cons,List.mem_cons,not_or] at absent
    rw [List.foldl_cons,ih _ absent.2,lookup_replace_other _ _ _ _ absent.1]

end Index

namespace IndexUpdate

/-- The invocations that an update may bring into an index. -/
def Introduces : IndexUpdate → Uuid → Prop
  | .insert id _,other | .replace id _ _,other => other = id
  | .replaceAll recovered,other => other ∈ recovered.map Prod.fst
  | .install refreshed,other => refreshed.lookup other ≠ none
  | _,_ => False

theorem introduced {index : Index} {change : IndexUpdate} {id : Uuid} (present : (change.apply index).lookup id ≠ none) :
    index.lookup id ≠ none ∨ change.Introduces id := by
  by_contra neither
  rw [not_or,not_not] at neither
  obtain ⟨absent,fresh⟩ := neither
  apply present
  cases change with
  | insert key entry => exact (lookup_put_other _ _ _ _ fresh).trans absent
  | replace key entry generation =>
    have replaced := (lookup_replace_other index key id entry fresh).trans absent
    cases generation with
    | none => exact replaced
    | some generation =>
      change (markTelemetryFlushed (index.replace key entry) key generation).lookup id = none
      rw [lookup_markTelemetryFlushed,replaced]
      rfl
  | replaceAll recovered => exact (lookup_replaceAll index id recovered fresh).trans absent
  | remove key =>
    by_cases same : id = key
    · subst same
      exact lookup_remove_self _ _
    · exact (lookup_remove_other _ _ _ same).trans absent
  | lose key next termination summary now =>
    dsimp only [apply]
    cases done : transitionLostEvidence index key next termination summary now with
    | error error => exact absent
    | ok after =>
      obtain ⟨found,entry,same⟩ := lookup_transitionLostEvidence index key done
      have different : id ≠ key := by
        intro equal
        rw [equal] at absent
        exact found absent
      rw [same,lookup_replace_other _ _ _ _ different]
      exact absent
  | remeasure key bytes =>
    change lookup (if _ then recount index key bytes else index) id = none
    split
    · rw [lookup_recount,absent]
      rfl
    · exact absent
  | record key recording | unschedule key =>
    change (modify index key _).lookup id = none
    rw [lookup_modify,absent]
    rfl
  | flushed key bytes generation =>
    change (markTelemetryFlushed (recount index key bytes) key generation).lookup id = none
    rw [lookup_markTelemetryFlushed,lookup_recount,absent]
    rfl
  | install refreshed => exact not_not.mp fresh

end IndexUpdate
end BazelMcp.Store

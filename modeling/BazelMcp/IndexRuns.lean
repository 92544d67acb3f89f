import BazelMcp.IndexUpdates
import BazelMcp.ManifestUpdates

/-! The sets and the byte count of an index along the runs of a cache. Each update
takes the old entry out before it puts the new one in, except the insertion at the
end of a creation: a refresh may have brought the entry in before. -/
namespace BazelMcp.Store
open StoreIndex Tasks Typestate List Index

/-! ### What is kept by the steps of an update -/

structure Alike (first second : IndexEntry) : Prop where
  request : first.record.request = second.record.request
  state : first.record.state = second.record.state
  finished : first.record.finishedAtMs = second.record.finishedAtMs
  deferred : first.deferred = second.deferred
  bytes : first.retainedBytes = second.retainedBytes

/-- A property of indexes that the small steps keep, those that lower the byte count
only as long as there was room for it. -/
structure Upholds (holds : Index → Prop) (room : Index → Bool) : Prop where
  put {index : Index} {id : Uuid} (entry : IndexEntry) : holds index → index.lookup id = none → holds (index.put id entry)
  take {index : Index} {id : Uuid} {entry : IndexEntry} :
    holds index → room index = true → index.lookup id = some entry → holds (index.take id entry)
  edit {index : Index} {change : Uuid → IndexEntry → IndexEntry} : holds index → (∀ id entry, Alike (change id entry) entry) →
    holds {index with entries := StoreIndex.Index.mapEntries change index.entries}
  recount {index : Index} (id : Uuid) (bytes : Nat) : holds index → room index = true → holds (Index.recount index id bytes)

namespace IndexUpdate

def fresh (index : Index) : IndexUpdate → Bool
  | .insert id _ => (index.lookup id).isNone
  | _ => true

def roomyAll (room : Index → Bool) : Index → List (Uuid × IndexEntry) → Bool
  | _, [] => true
  | index, (id,entry)::rest => room index && roomyAll room (index.replace id entry) rest

def roomy (room : Index → Bool) (index : Index) : IndexUpdate → Bool
  | .replaceAll recovered => roomyAll room index recovered
  | .replace .. | .remove _ | .lose .. | .remeasure .. | .flushed .. => room index
  | .insert .. | .record .. | .unschedule _ | .install _ => true

end IndexUpdate

namespace Upholds
variable {holds : Index → Prop} {room : Index → Bool} {index : Index} (upholds : Upholds holds room)
include upholds

section
variable (held : holds index)
include held

theorem replace (roomy : room index = true) (id : Uuid) (entry : IndexEntry) : holds (index.replace id entry) := by
  unfold StoreIndex.Index.replace
  cases found : index.lookup id with
  | some previous => exact upholds.put _ (upholds.take held roomy found) (StoreIndex.Index.lookup_take_self _ _ _)
  | none => exact upholds.put entry held found

theorem replaceAll {recovered : List (Uuid × IndexEntry)} (roomy : IndexUpdate.roomyAll room index recovered = true) :
    holds (recovered.foldl (fun index entry => index.replace entry.1 entry.2) index) := by
  induction recovered generalizing index with
  | nil => exact held
  | cons head rest ih =>
    obtain ⟨here,later⟩ := Bool.and_eq_true_iff.mp roomy
    exact ih (upholds.replace held here head.1 head.2) later

theorem remove (roomy : room index = true) (id : Uuid) : holds (index.remove id) := by
  unfold StoreIndex.Index.remove
  cases found : index.lookup id with
  | some previous => exact upholds.take held roomy found
  | none => exact held

theorem modify (id : Uuid) {change : IndexEntry → IndexEntry} (alike : ∀ entry, Alike (change entry) entry) :
    holds (modify index id change) := by
  apply upholds.edit held
  intro other entry
  split
  · exact alike entry
  · exact ⟨rfl,rfl,rfl,rfl,rfl⟩

theorem markTelemetryFlushed (id : Uuid) (generation : Nat) : holds (markTelemetryFlushed index id generation) := by
  apply upholds.modify held
  intro entry
  split
  · exact ⟨rfl,rfl,rfl,rfl,rfl⟩
  · exact ⟨rfl,rfl,rfl,rfl,rfl⟩

theorem mergePendingTelemetry (previous : Index) : holds (StoreIndex.Index.mergePendingTelemetry previous index) := by
  apply upholds.edit held
  intro id entry
  cases previous.lookup id with
  | some earlier | none => exact ⟨rfl,rfl,rfl,rfl,rfl⟩

theorem update {change : IndexUpdate} (fresh : change.fresh index = true) (roomy : change.roomy room index = true)
    (installed : ∀ refreshed, change = .install refreshed → holds refreshed) : holds (change.apply index) := by
  cases change with
  | insert id entry => exact upholds.put entry held (Option.isNone_iff_eq_none.mp fresh)
  | replace id entry generation =>
    have replaced := upholds.replace held roomy id entry
    cases generation with
    | none => exact replaced
    | some generation => exact upholds.markTelemetryFlushed replaced id generation
  | replaceAll recovered => exact upholds.replaceAll held roomy
  | remove id => exact upholds.remove held roomy id
  | lose id next termination summary now =>
    dsimp only [IndexUpdate.apply]
    cases done : transitionLostEvidence index id next termination summary now with
    | error error => exact held
    | ok after =>
      obtain ⟨_,entry,same⟩ := lookup_transitionLostEvidence index id done
      rw [same]
      exact upholds.replace held roomy id entry
  | remeasure id bytes =>
    change holds (if _ then Index.recount index id bytes else index)
    split
    · exact upholds.recount id bytes held roomy
    · exact held
  | record id recording | unschedule id =>
    apply upholds.modify held
    intro entry
    exact ⟨rfl,rfl,rfl,rfl,rfl⟩
  | flushed id bytes generation => exact upholds.markTelemetryFlushed (upholds.recount id bytes held roomy) id generation
  | install refreshed => exact installed refreshed rfl

end

end Upholds

/-! ### Sets and bytes -/

theorem keyed_recount {index : Index} (keyed : Keyed index) (id : Uuid) (bytes : Nat) : Keyed (recount index id bytes) := by
  unfold recount
  cases index.lookup id with
  | none => exact keyed
  | some entry =>
    refine @Keyed.mapEntries index keyed (saturatingAdd (index.retainedBytes - entry.retainedBytes) bytes)
      (fun key entry => if key = id then {entry with retainedBytes := bytes} else entry) ?_
    intro other entry
    split
    · exact ⟨rfl,rfl,rfl,rfl⟩
    · exact ⟨rfl,rfl,rfl,rfl⟩

theorem keyed_maintained : Upholds Keyed fun _ => true where
  put entry keyed absent := keyed.put absent entry
  take keyed _ present := keyed.take present
  edit {index _} keyed alike := keyed.mapEntries index.retainedBytes fun id entry =>
    ⟨(alike id entry).request,(alike id entry).state,(alike id entry).finished,(alike id entry).deferred⟩
  recount id bytes keyed _ := keyed_recount keyed id bytes

theorem total_recount {index : Index} {id : Uuid} {entry : IndexEntry} (present : index.lookup id = some entry) (bytes : Nat) :
    total (recount index id bytes) + entry.retainedBytes = total index + bytes := by
  let counted (other : Sigma fun _ : Uuid => IndexEntry) : Sigma fun _ : Uuid => IndexEntry :=
    ⟨other.1,if other.1 = id then {other.2 with retainedBytes := bytes} else other.2⟩
  let sum (list : List (Sigma fun _ : Uuid => IndexEntry)) : Nat := list.foldr (fun entry sum => entry.2.retainedBytes+sum) 0
  have recounted (list : List (Sigma fun _ : Uuid => IndexEntry)) (nodup : list.NodupKeys) (present : entry ∈ list.dlookup id) :
      sum (list.map counted) + entry.retainedBytes = sum list + bytes := by
    induction list with
    | nil => cases present
    | cons head rest ih =>
      obtain ⟨first,value⟩ := head
      obtain ⟨absent,nodup⟩ := nodupKeys_cons.mp nodup
      by_cases same : id = first
      · subst same
        rw [dlookup_cons_eq] at present
        cases present
        -- No other entry has the identifier, so the others keep their bytes.
        have others : rest.map counted = rest := by
          conv_rhs => rw [← map_id rest]
          apply map_congr_left
          intro other member
          have different : other.1 ≠ id := by
            intro same
            have key : other.1 ∈ rest.keys := mem_map_of_mem member
            rw [same] at key
            exact absent key
          simp only [counted,if_neg different,id_eq]
        rw [map_cons,others]
        simp only [sum,counted,foldr_cons,if_true]
        omega
      · rw [dlookup_cons_ne _ _ same] at present
        have later := ih nodup present
        rw [map_cons]
        simp only [sum,counted,foldr_cons,if_neg (Ne.symm same)] at later ⊢
        omega
  have modified : total (recount index id bytes) = sum (index.entries.entries.map counted) := by
    unfold recount
    rw [present]
    rfl
  rw [modified]
  exact recounted _ index.entries.nodupKeys present

theorem exact_recount {index : Index} (exact : Exact index) (fits : total index ≤ u64Max) (id : Uuid) (bytes : Nat) :
    Exact (recount index id bytes) := by
  apply (keyed_recount exact.keyed id bytes).exact
  intro after
  cases found : index.lookup id with
  | none =>
    have same : recount index id bytes = index := by
      unfold recount
      rw [found]
    rw [same]
    exact exact.bytes fits
  | some entry =>
    have before := exact.bytes fits
    have whole := total_take found
    have moved := total_recount found bytes
    have counted : (recount index id bytes).retainedBytes = saturatingAdd (index.retainedBytes - entry.retainedBytes) bytes := by
      unfold recount
      rw [found]
    rw [counted]
    unfold saturatingAdd
    omega

def Index.fits (index : Index) : Bool := decide (total index ≤ u64Max)

theorem exact_maintained : Upholds Exact fits where
  put entry exact absent := exact.put absent entry
  take exact fits present := exact.take (of_decide_eq_true fits) present
  edit exact alike := exact.mapEntries
    (fun id entry => ⟨(alike id entry).request,(alike id entry).state,(alike id entry).finished,(alike id entry).deferred⟩)
    fun id entry => (alike id entry).bytes
  recount id bytes exact fits := exact_recount exact (of_decide_eq_true fits) id bytes

/-! ### Runs -/

theorem upheld_update {π : Type} [DecidableEq π] {holds : Index → Prop} {indexes : π → Index} {process : π} {index : Index} (held : ∀ other, holds (indexes other))
    (updated : holds index) (other : π) : holds (Function.update indexes process index other) := by
  by_cases same : other = process
  · subst other
    rw [Function.update_self]
    exact updated
  · rw [Function.update_of_ne same]
    exact held other

section Runs
variable {ι π : Type} [DecidableEq ι] [DecidableEq π] [Fintype π] {home : ι → π} {operations : ι → Operation} {world : World ι π}
variable {config : Config (Act π) Answer (World ι π) ι}

/-- A creation inserts an entry that the index does not have yet, and there is room where a count is lowered. -/
def inserting (home : ι → π) (room : Index → Bool) (task : ι) : (act : Act π) → World ι π → Answer act → World ι π → Bool
  | .update change, world, _, _ => change.fresh (world.index (home task)) && change.roomy room (world.index (home task))
  | _, _, _, _ => true

/-- A property that the steps uphold and that a loaded index has holds of every index along every such run. -/
theorem reach_upheld {holds : Index → Prop} {room : Index → Bool} (upholds : Upholds holds room)
    (loaded : ∀ index, Exact index → holds index) (untouched : Untouched world) (initial : ∀ process, holds (world.index process))
    (reached : Reach (effect home) (inserting home room) (launch operations world) config) (process : π) :
    holds (config.state.index process) := by
  have kept (phases : ι → Phase π) (before : World ι π) (task : ι) (act : Act π) (answer : Answer act) (after : World ι π)
      (_ : Guarded home world.manifest phases before) (held : ∀ process, holds (before.index process))
      (allowed : (phases task).Allowed act) (_ : before.alive (home task) = true)
      (outcome : Outcome home task before act answer after)
      (permitted : inserting home room task act before answer after = true) : ∀ process, holds (after.index process) := by
    rcases outcome.index with same | ⟨change,rfl,updated⟩
    · rw [same]
      exact held
    obtain ⟨fresh,roomy⟩ := Bool.and_eq_true_iff.mp permitted
    rw [updated]
    refine upheld_update held (upholds.update (held (home task)) fresh roomy ?_)
    intro refreshed same
    subst same
    obtain ⟨changes,known,index,_,loads,rfl⟩ := allowed
    exact upholds.mergePendingTelemetry (loaded index loads.1) _
  obtain ⟨_,_,_,held⟩ := store_reach untouched initial kept reached
  exact held process

/-- In every run in which a creation never finds its entry in the index, the ordered sets of
each index are those of its entries; as long as the sums fit, so is the byte count. -/
theorem indexes_exact (home : ι → π) (operations : ι → Operation) (world : World ι π) (untouched : Untouched world)
    (exact : ∀ process, Exact (world.index process)) (config : Config (Act π) Answer (World ι π) ι) (process : π) :
    (Reach (effect home) (inserting home fun _ => true) (launch operations world) config → Keyed (config.state.index process)) ∧
    (Reach (effect home) (inserting home Index.fits) (launch operations world) config → Exact (config.state.index process)) := by
  constructor
  · intro reached
    exact reach_upheld keyed_maintained (fun _ exact => exact.keyed) untouched (fun process => (exact process).keyed) reached process
  · intro reached
    exact reach_upheld exact_maintained (fun _ exact => exact) untouched exact reached process

end Runs

def oneByte : World (Fin 2) Unit where
  outside _ := {evidenceSize := 1}

theorem oneByte_untouched : Untouched oneByte := ⟨rfl,fun _ absent => absurd rfl absent⟩

theorem indexes_exact_created : ∃ config,
    Reach (effect fun _ : Fin 2 => ()) (inserting (fun _ => ()) Index.fits) (launch createThenStart oneByte) config ∧
      (config.state.index ()).retainedBytes = 1 ∧ Exact (config.state.index ()) := by
  have replayed : (replay (effect fun _ : Fin 2 => ()) (inserting (fun _ => ()) fits) (launch createThenStart oneByte)
      (turns 0 ([0,0,1] ++ List.replicate 16 0) ++ turns 1 ([0,0,0,1] ++ List.replicate 12 0))).any
      (fun config => decide ((config.state.index ()).retainedBytes = 1)) = true := by decide +kernel
  obtain ⟨config,reached,counted⟩ := replay_exists replayed
  exact ⟨config,reached,of_decide_eq_true counted,
    (indexes_exact _ _ oneByte oneByte_untouched (fun _ => Exact.empty) config ()).2 reached⟩

def createDuringRetention : Fin 2 → Operation
  | 0 => .create (plainHeader 7 .queued) none
  | 1 => .retention 0 100

/-- Retention loads the index anew, under no lock that a creation takes: the new manifest is
written and announced, the refresh brings its entry in, and the insertion counts it twice. -/
theorem entry_counted_twice : ∃ config, Reach (effect fun _ : Fin 2 => ()) anyhow (launch createDuringRetention oneByte) config ∧
      Index.total (config.state.index ()) = 1 ∧ (config.state.index ()).retainedBytes = 2 ∧ ¬ Exact (config.state.index ()) := by
  have replayed : (replay (effect fun _ : Fin 2 => ()) anyhow (launch createDuringRetention oneByte)
      (turns 0 ([0,0,1] ++ List.replicate 11 0) ++ turns 1 (List.replicate 9 0) ++ turns 0 (List.replicate 5 0))).any
      (fun config => decide (total (config.state.index ()) = 1 ∧ (config.state.index ()).retainedBytes = 2)) = true := by
    decide +kernel
  obtain ⟨config,reached,counted⟩ := replay_exists replayed
  obtain ⟨single,double⟩ := of_decide_eq_true counted
  refine ⟨config,reached,single,double,?_⟩
  intro exact
  have bytes := exact.bytes (by rw [single]; decide)
  rw [single,double] at bytes
  cases bytes

end BazelMcp.Store

import BazelMcp.IndexUpdates
import BazelMcp.RetentionSafety
import BazelMcp.Solo

/-! A run of retention that nothing disturbs: whatever had ended, was not promised and
finished before the cutoff is gone when it ends. The proof follows one such invocation
through the run: into the index, past the deferred results, and into the trash. -/
namespace BazelMcp.Store
open StoreIndex Tasks Solo Typestate Function List Ensures StoreIndex.Index

variable {π α β : Type}

/-! ### The index -/

def DurableRecord.finished (durable : DurableRecord) : Option Int := (durable.indexEntry 0).finished

theorem terminal_of_finished {entry : IndexEntry} {finished : Int} (ended : entry.finished = some finished) : entry.record.state.isTerminal = true := by
  by_contra running
  have never : entry.finished = none := if_neg running
  rw [ended] at never
  cases never

/-- The index holds the invocation as one that finished then, with this deferred result. -/
structure Filed (index : Index) (id : Uuid) (finished : Int) (deferred : Option DeferredResultRecord) : Prop where
  entry : ∃ entry, index.lookup id = some entry ∧ entry.finished = some finished ∧ entry.deferred = deferred
  key : key finished id ∈ index.terminalByFinished

namespace Filed
variable {index : Index} {id other : Uuid} {finished : Int} {deferred : Option DeferredResultRecord} {entry : IndexEntry}

theorem mem_addKey {keys : OrderedSet Key} {found : Key} {time : Option Int} (member : found ∈ keys) :
    found ∈ addKey keys time other := by
  cases time with
  | none => exact member
  | some time => exact OrderedSet.mem_insert.mpr (.inr member)

theorem put_other (filed : Filed index id finished deferred) (different : id ≠ other) (entry : IndexEntry) :
    Filed (index.put other entry) id finished deferred where
  entry := by
    obtain ⟨found,isFound,rest⟩ := filed.entry
    exact ⟨found,(lookup_put_other _ _ _ _ different).trans isFound,rest⟩
  key := mem_addKey filed.key

theorem put_self (ended : entry.finished = some finished) (same : entry.deferred = deferred) :
    Filed (index.put id entry) id finished deferred where
  entry := ⟨entry,lookup_put_self _ _ _,ended,same⟩
  key := by
    change _ ∈ addKey _ entry.finished id
    rw [ended]
    exact OrderedSet.mem_insert.mpr (.inl rfl)

theorem take_other (filed : Filed index id finished deferred) (different : id ≠ other) (entry : IndexEntry) :
    Filed (index.take other entry) id finished deferred where
  entry := by
    obtain ⟨found,isFound,rest⟩ := filed.entry
    exact ⟨found,(lookup_take_other _ _ _ _ different).trans isFound,rest⟩
  key := by
    change _ ∈ removeKey _ entry.finished other
    cases entry.finished with
    | none => exact filed.key
    | some time =>
      refine OrderedSet.mem_erase.mpr ⟨?_,filed.key⟩
      intro same
      exact different (key_injective same).2

theorem replace_other (filed : Filed index id finished deferred) (different : id ≠ other) (entry : IndexEntry) :
    Filed (index.replace other entry) id finished deferred := by
  unfold StoreIndex.Index.replace
  cases index.lookup other with
  | some previous => exact (filed.take_other different previous).put_other different _
  | none => exact filed.put_other different _

theorem replace_self (ended : entry.finished = some finished) (same : entry.deferred = deferred) :
    Filed (index.replace id entry) id finished deferred := by
  unfold StoreIndex.Index.replace
  cases index.lookup id with
  | some previous | none => exact put_self ended same

section
variable (filed : Filed index id finished deferred)
include filed

theorem remove_other (different : id ≠ other) : Filed (index.remove other) id finished deferred := by
  unfold remove
  cases index.lookup other with
  | some previous => exact filed.take_other different previous
  | none => exact filed

theorem congr {changed : Index} (change : IndexEntry → IndexEntry) (found : changed.lookup id = (index.lookup id).map change)
    (kept : ∀ entry, (change entry).finished = entry.finished ∧ (change entry).deferred = entry.deferred)
    (keys : changed.terminalByFinished = index.terminalByFinished) : Filed changed id finished deferred where
  entry := by
    obtain ⟨entry,isEntry,ended,same⟩ := filed.entry
    refine ⟨change entry,?_,(kept entry).1.trans ended,(kept entry).2.trans same⟩
    rw [found,isEntry]
    rfl
  key := keys ▸ filed.key

theorem flushed (other : Uuid) (generation : Nat) : Filed (Store.Index.markTelemetryFlushed index other generation) id finished deferred := by
  refine filed.congr _ (Store.Index.lookup_markTelemetryFlushed _ other id generation) ?_ rfl
  intro entry
  split
  · exact ⟨rfl,rfl⟩
  · exact ⟨rfl,rfl⟩

theorem replaceAll {recovered : List (Uuid × IndexEntry)} (absent : id ∉ recovered.map Prod.fst) :
    Filed (recovered.foldl (fun index entry => index.replace entry.1 entry.2) index) id finished deferred := by
  induction recovered generalizing index with
  | nil => exact filed
  | cons head rest ih =>
    rw [map_cons,mem_cons,not_or] at absent
    exact ih (filed.replace_other absent.1 head.2) absent.2

end

end Filed

/-- The update is about other invocations, or counts bytes only. -/
def IndexUpdate.Spares (id : Uuid) : IndexUpdate → Prop
  | .replace other _ _ | .remove other => id ≠ other
  | .replaceAll recovered => id ∉ recovered.map Prod.fst
  | .remeasure .. => True
  | _ => False

theorem Filed.spared {index : Index} {id : Uuid} {finished : Int} {deferred : Option DeferredResultRecord} {change : IndexUpdate}
    (filed : Filed index id finished deferred) (spares : change.Spares id) : Filed (change.apply index) id finished deferred := by
  cases change with
  | replace other entry generation =>
    have replaced := filed.replace_other spares entry
    cases generation with
    | none => exact replaced
    | some generation => exact replaced.flushed other generation
  | remove other => exact filed.remove_other spares
  | replaceAll recovered => exact filed.replaceAll spares
  | remeasure other bytes =>
    change Filed (if _ then Index.recount index other bytes else index) id finished deferred
    split
    · have keys : (Index.recount index other bytes).terminalByFinished = index.terminalByFinished := by
        unfold Index.recount
        split
        · rfl
        · rfl
      refine filed.congr _ (Index.lookup_recount index other id bytes) ?_ keys
      intro entry
      split
      · exact ⟨rfl,rfl⟩
      · exact ⟨rfl,rfl⟩
    · exact filed
  | insert | lose | record | flushed | unschedule | install => exact spares.elim

/-! ### Acts that a sweep consists of -/

/-- Manifests and index entries are touched where it is allowed, and none is created. -/
def Act.Confined (touched : Uuid → Prop) : Act π → Prop
  | .writeManifest id read _ _ => touched id ∧ read ≠ none
  | .renameToTrash id _ _ => touched id
  | .update (.replace id _ _) | .update (.remove id) => touched id
  | .update (.remeasure ..) => True
  | .update _ | .removeDirectory _ | .draw _ => False
  | _ => True

/-- The operation makes such calls only, however they are answered. -/
def Confined (touched : Uuid → Prop) (body : Op π α) : Prop := body.run.Uses (Act.Confined touched)

section Confined
variable {touched : Uuid → Prop} {body : Op π α} {id : Uuid}

variable (path : LockPath)

theorem confined_bind {next : α → Op π β} (first : Confined touched body) (rest : ∀ value, Confined touched (next value)) :
    Confined touched (body >>= next) := by
  apply uses_bind first
  intro result
  cases result with
  | ok value => exact rest value
  | error error => trivial

theorem confined_map {change : α → β} (first : Confined touched body) : Confined touched (change <$> body) := by
  apply uses_bind first
  intro result
  cases result with
  | ok value | error error => trivial

theorem confined_attempt (first : Confined touched body) : Confined touched (attempt body) :=
  uses_bind first fun _ => trivial

theorem confined_guarding {release : Act π} (first : Confined touched body) (kind : release.Confined touched) :
    Confined touched (guarding body release) :=
  uses_bind first fun _ => ⟨kind,fun _ => trivial⟩

theorem confined_openLockFile : Confined touched (openLockFile path : Op π LockFile) :=
  confined_bind ⟨trivial,fun _ => trivial⟩ fun _ => trivial

theorem confined_acquire : Confined touched (acquire path : Op π LockFile) := by
  apply confined_bind (confined_openLockFile path)
  intro file
  exact confined_bind ⟨trivial,fun _ => trivial⟩ fun _ => trivial

theorem confined_tryAcquire : Confined touched (tryAcquire path : Op π (Option LockFile)) := by
  apply confined_bind (confined_openLockFile path)
  intro file
  refine confined_bind ⟨trivial,fun _ => trivial⟩ fun taken => ?_
  split <;> exact trivial

theorem confined_withMutationLock (first : Confined touched body) : Confined touched (withMutationLock id body) := by
  refine confined_bind ⟨trivial,fun _ => trivial⟩ fun mutex => ?_
  refine confined_bind ⟨trivial,fun _ => trivial⟩ fun _ => ?_
  exact confined_guarding first trivial

theorem confined_withProcessMutation (first : Confined touched body) : Confined touched (withProcessMutation id body) :=
  confined_bind (confined_acquire _) fun _ => confined_guarding first trivial

theorem confined_evidencePayloadSize (id : Uuid) : Confined touched (evidencePayloadSize id : Op π Nat) := by
  refine confined_bind ⟨trivial,fun _ => trivial⟩ fun size => ?_
  cases size with
  | some size | none => exact trivial

theorem confined_indexManifest (id : Uuid) (durable : DurableRecord) (bytes : Nat) :
    Confined touched (indexManifest id durable bytes : Op π IndexEntry) := by
  dsimp only [indexManifest]
  split
  · exact trivial
  · split
    · exact confined_bind trivial fun _ => trivial
    · exact confined_bind (confined_evidencePayloadSize id) fun _ => trivial

theorem confined_reloadDirectory (id : Uuid) : Confined touched (reloadDirectory id : Op π _) := by
  refine confined_bind (confined_attempt ⟨trivial,fun _ => trivial⟩) fun result => ?_
  split
  · exact confined_map (confined_indexManifest _ _ _)
  · exact trivial
  · exact trivial

theorem confined_loadDirectory (id : Uuid) : Confined touched (loadDirectory id : Op π _) := by
  refine confined_bind (confined_attempt ⟨trivial,fun _ => trivial⟩) fun result => ?_
  split
  · exact confined_map (confined_indexManifest _ _ _)
  · apply confined_bind (confined_tryAcquire _)
    intro file
    cases file with
    | none => exact trivial
    | some file => exact confined_guarding (confined_reloadDirectory id) trivial
  · exact trivial

theorem confined_persistDurable (may : touched id) (read durable : DurableRecord) (recountPayload : Bool) (cause : Cause) :
    Confined touched (persistDurable id (some read) durable recountPayload cause : Op π (DurableRecord × Nat)) := by
  have rest (size : Nat) : Confined touched (do
      let manifestBytes ← writeManifest id (some read) {durable with payloadBytes := size} cause
      pure ({durable with payloadBytes := size},saturatingAdd size manifestBytes) : Op π (DurableRecord × Nat)) := by
    refine confined_bind ?_ fun _ => trivial
    exact ⟨⟨may,nofun⟩,fun _ => trivial⟩
  dsimp only [persistDurable]
  split
  · exact confined_bind (confined_evidencePayloadSize id) rest
  · exact rest _

theorem confined_commitDurable (may : touched id) (read durable : DurableRecord) (recountPayload : Bool) (generation : Option Nat) (cause : Cause) :
    Confined touched (commitDurable id read durable recountPayload generation cause : Op π Unit) := by
  apply confined_bind (confined_persistDurable may read durable recountPayload cause)
  intro persisted
  exact confined_bind ⟨trivial,fun _ => trivial⟩ fun _ => ⟨may,fun _ => trivial⟩

theorem confined_recoverManifest (may : touched id) : Confined touched (recoverManifest id : Op π _) := by
  refine confined_bind (confined_attempt ⟨trivial,fun _ => trivial⟩) fun result => ?_
  split
  · exact trivial
  · exact trivial
  split
  · exact trivial
  refine confined_bind ⟨trivial,fun _ => trivial⟩ fun now => ?_
  refine confined_bind ⟨trivial,fun _ => trivial⟩ fun _ => ?_
  exact confined_bind (confined_persistDurable may _ _ _ _) fun _ => trivial

theorem confined_recoverId (may : touched id) : Confined touched (recoverId id : Op π _) := by
  apply confined_bind (confined_tryAcquire _)
  intro owner
  cases owner with
  | none => exact trivial
  | some owner => exact confined_guarding (confined_withProcessMutation (confined_recoverManifest may)) trivial

theorem confined_recoverIds {ids : List Uuid} (may : ∀ id ∈ ids, touched id) : Confined touched (recoverIds ids : Op π _) := by
  induction ids with
  | nil => exact trivial
  | cons id rest ih =>
    apply confined_bind (confined_recoverId (may id mem_cons_self))
    intro first
    exact confined_bind (ih fun other member => may other (mem_cons_of_mem _ member)) fun _ => trivial

theorem confined_remeasureEach (ids : List Uuid) : Confined touched (remeasureEach ids : Op π Unit) := by
  induction ids with
  | nil => exact trivial
  | cons id rest ih =>
    apply confined_bind (confined_evidencePayloadSize id)
    intro size
    exact confined_bind ⟨trivial,fun _ => trivial⟩ fun _ => ih

theorem confined_reclaimManifest (may : touched id) (durable : DurableRecord) (manifestBytes : Nat) :
    Confined touched (reclaimManifest id durable manifestBytes : Op π ReclaimOutcome) := by
  refine confined_bind ⟨trivial,fun _ => trivial⟩ fun now => ?_
  split
  · refine confined_bind ⟨trivial,fun _ => trivial⟩ fun _ => ?_
    apply confined_bind (confined_persistDurable may _ _ _ _)
    intro persisted
    exact confined_bind ⟨may,fun _ => trivial⟩ fun _ => trivial
  · refine confined_bind ⟨may,fun _ => trivial⟩ fun moved => ?_
    split
    · exact confined_bind ⟨may,fun _ => trivial⟩ fun _ => trivial
    · exact trivial

theorem confined_reclaimTerminal (may : touched id) : Confined touched (reclaimTerminal id : Op π ReclaimOutcome) := by
  apply confined_withMutationLock
  apply confined_withProcessMutation
  refine confined_bind (confined_attempt ⟨trivial,fun _ => trivial⟩) fun result => ?_
  split
  · exact trivial
  · exact trivial
  · split
    · exact trivial
    · exact confined_reclaimManifest may _ _

theorem confined_unlinkLocks (ids : List Uuid) : Confined touched (unlinkLocks ids : Op π Unit) := by
  induction ids with
  | nil => exact trivial
  | cons id rest ih =>
    refine confined_bind ⟨trivial,fun _ => trivial⟩ fun _ => ?_
    exact confined_bind ⟨trivial,fun _ => trivial⟩ fun _ => ih

theorem confined_publishRetentionBatch (sweep : Sweep) : Confined touched (publishRetentionBatch sweep : Op π Sweep) := by
  refine confined_bind (confined_attempt ⟨trivial,fun _ => trivial⟩) fun change => ?_
  apply confined_bind (confined_unlinkLocks _)
  intro _
  split <;> exact trivial

theorem confined_reclaimRetentionCandidate (may : touched id) (sweep : Sweep) :
    Confined touched (reclaimRetentionCandidate id sweep : Op π Sweep) := by
  apply confined_bind (confined_attempt (confined_reclaimTerminal may))
  intro outcome
  split
  · dsimp only
    split
    · exact confined_bind (confined_publishRetentionBatch sweep) fun _ => trivial
    · exact trivial
  · dsimp only
    split
    · exact confined_publishRetentionBatch _
    · exact trivial

theorem confined_reclaimOld (cutoff : Int) (candidates : List Key) (sweep : Sweep) :
    Confined (fun _ => True) (reclaimOld cutoff candidates sweep : Op π Sweep) := by
  induction candidates generalizing sweep with
  | nil => exact trivial
  | cons key rest ih =>
    dsimp only [reclaimOld]
    split
    · exact confined_bind (confined_reclaimRetentionCandidate trivial sweep) ih
    · exact ih sweep

theorem confined_reclaimUntil (lowWatermark : Nat) (candidates : List Key) (sweep : Sweep) :
    Confined (fun _ => True) (reclaimUntil lowWatermark candidates sweep : Op π Sweep) := by
  induction candidates generalizing sweep with
  | nil => exact trivial
  | cons key rest ih =>
    refine confined_bind ⟨trivial,fun _ => trivial⟩ fun index => ?_
    split
    · exact trivial
    · split
      · exact ih sweep
      · exact confined_bind (confined_reclaimRetentionCandidate trivial sweep) ih

theorem confined_announceSweep (sweep : Sweep) : Confined touched (announceSweep sweep : Op π Nat) := by
  dsimp only [announceSweep]
  split
  · exact confined_bind (confined_publishRetentionBatch sweep) fun _ => trivial
  · exact trivial

end Confined

/-! ### Following one invocation -/

section Run
variable {process : π} {world : World Unit π} {id : Uuid} {finished nowMs : Int} {deferred : Option DeferredResultRecord}

/-- The invocation has ended and is in the index, with its deferred result unless that is gone already. -/
def Stands (process : π) (id : Uuid) (finished : Int) (deferred : Option DeferredResultRecord) (world : World Unit π) : Prop :=
  ∃ durable shown, world.manifest id = some durable ∧ durable.finished = some finished ∧ Filed (world.index process) id finished shown ∧
    (durable.deferred = none ∨ durable.deferred = deferred ∧ shown = deferred)

def cleared (nowMs : Int) (deferred : Option DeferredResultRecord) : Option DeferredResultRecord :=
  if deferred.any (·.isExpired nowMs true) then none else deferred

theorem Stands.any (stands : Stands process id finished none world) (deferred : Option DeferredResultRecord) :
    Stands process id finished deferred world := by
  obtain ⟨durable,shown,present,ended,filed,rest⟩ := stands
  exact ⟨durable,shown,present,ended,filed,.inl (rest.elim (fun gone => gone) And.left)⟩

theorem Stands.uncleared (stands : Stands process id finished (cleared nowMs deferred) world) :
    Stands process id finished deferred world := by
  unfold cleared at stands
  split at stands
  · exact stands.any deferred
  · exact stands

/-- The invocation still stands or is gone, and it is gone if it is among the old candidates. -/
def Swept (process : π) (id : Uuid) (finished cutoff : Int) (candidates : List Key) (world : World Unit π) : Prop :=
  (Stands process id finished none world ∨ world.manifest id = none) ∧
    ((∃ found ∈ candidates, (ofLex found).1 ≤ cutoff ∧ (ofLex found).2 = id) → world.manifest id = none)

theorem Swept.cons {cutoff : Int} {candidates : List Key} {head : Key} (swept : Swept process id finished cutoff candidates world)
    (skipped : ¬ ((ofLex head).1 ≤ cutoff ∧ (ofLex head).2 = id)) : Swept process id finished cutoff (head::candidates) world := by
  refine ⟨swept.1,?_⟩
  intro ⟨found,member,holds⟩
  rcases mem_cons.mp member with same | member
  · subst same
    exact absurd holds skipped
  · exact swept.2 ⟨found,member,holds⟩

variable [DecidableEq π] [Fintype π] {maximumBytes maximumAgeMs : Nat}

/-- An operation of the process that runs alone: if it succeeds, it ends as described. -/
def Yields (process : π) (body : Op π α) (post : α → World Unit π → Prop) (world : World Unit π) : Prop :=
  Ensures (effect (fun _ : Unit => process) ()) body.run (fun result after => ∀ value, result = .ok value → post value after) world

variable {post : α → World Unit π → Prop} {ids : List Uuid}

theorem yields_pure {value : α} (holds : post value world) : Yields process (pure value) post world := by
  intro found same
  cases same
  exact holds

theorem yields_throw {error : StoreError} : Yields process (throw error) post world := by
  intro found never
  cases never

variable {touched : Uuid → Prop} {body : Op π α} {durable : DurableRecord}

theorem Yields.weaken {weaker : α → World Unit π → Prop} (yields : Yields process body post world)
    (implies : ∀ value after, post value after → weaker value after) : Yields process body weaker world :=
  Ensures.weaken yields fun _ after holds value same => implies value after (holds value same)

theorem yields_all {κ : Type} {post : κ → α → World Unit π → Prop} (yields : ∀ which, Yields process body (post which) world) :
    Yields process body (fun value after => ∀ which, post which value after) world :=
  weaken (ensures_all yields) fun _ _ holds value same which => holds which value same

theorem yields_when {assumed : Prop} (yields : assumed → Yields process body post world) :
    Yields process body (fun value after => assumed → post value after) world := by
  by_cases holds : assumed
  · exact (yields holds).weaken fun _ _ holds _ => holds
  · exact ensures_any fun _ _ _ _ assumed => absurd assumed holds

theorem Yields.both {first second : α → World Unit π → Prop} (left : Yields process body first world)
    (right : Yields process body second world) : Yields process body (fun value after => first value after ∧ second value after) world :=
  Ensures.weaken (Ensures.both left right) fun _ _ holds value same => ⟨holds.1 value same,holds.2 value same⟩

theorem yields_bind {next : α → Op π β} {post : β → World Unit π → Prop}
    (yields : Yields process body (fun value after => Yields process (next value) post after) world) :
    Yields process (body >>= next) post world := by
  change Ensures _ (body.run >>= fun result => _) _ world
  rw [ensures_bind]
  apply weaken yields
  intro result after holds
  cases result with
  | ok value => exact holds value rfl
  | error error =>
    intro value never
    cases never

theorem yields_act {call : Act π} {post : Answer call → World Unit π → Prop}
    (holds : ∀ answer after, (answer,after) ∈ effect (fun _ : Unit => process) () call world → post answer after) :
    Yields process (act call) post world := by
  change Ensures _ (perform call >>= fun answer => _) _ world
  rw [ensures_bind]
  intro answer after possible value same
  cases same
  exact holds answer after possible

theorem yields_attempt {post : Except StoreError α → World Unit π → Prop}
    (ensures : Ensures (effect (fun _ : Unit => process) ()) body.run post world) : Yields process (attempt body) post world := by
  change Ensures _ (body.run >>= fun result => _) _ world
  rw [ensures_bind]
  apply weaken ensures
  intro result after holds value same
  cases same
  exact holds

theorem yields_guarding {release : Act π} (yields : Yields process body (fun value after => ∀ answer last,
      (answer,last) ∈ effect (fun _ : Unit => process) () release after → post value last) world) :
    Yields process (guarding body release) post world := by
  change Ensures _ (body.run >>= fun result => _) _ world
  rw [ensures_bind]
  apply weaken yields
  intro result after holds answer last possible value same
  exact holds value same answer last possible

/-- Acts of the kind keep what holds of the world. -/
def Stable (process : π) (touched : Uuid → Prop) (invariant : World Unit π → Prop) : Prop :=
  ∀ act world answer after, Act.Confined touched act → invariant world →
    (answer,after) ∈ effect (fun _ : Unit => process) () act world → invariant after

theorem yields_confined {invariant : World Unit π → Prop} (kept : Stable process touched invariant) (confined : Confined touched body)
    (holds : invariant world) : Yields process body (fun _ => invariant) world :=
  weaken (ensures_uses kept confined holds) fun _ _ holds _ _ => holds

theorem manifest_kept : Stable process (fun other => id ≠ other) fun world => world.manifest id = some durable := by
  intro act world answer after confined present possible
  obtain ⟨_,outcome⟩ := effect_outcome possible
  rcases outcome.manifests with same | ⟨key,read,written,cause,isAct,isAfter⟩ | ⟨key,read,nowMs,isAct,isAfter⟩ | ⟨key,isAct,_⟩
  · exact (congrArg (AList.lookup id) same).trans present
  · subst isAct isAfter
    exact (manifest_write_other world confined.1 _ _ _).trans present
  · subst isAct isAfter
    exact (manifest_erase_other world confined _ _).trans present
  · subst isAct
    exact confined.elim

theorem stands_kept : Stable process (fun other => id ≠ other) (Stands process id finished deferred) := by
  intro act world answer after confined ⟨durable,shown,present,ended,filed,rest⟩ possible
  obtain ⟨_,outcome⟩ := effect_outcome possible
  refine ⟨durable,shown,manifest_kept act world answer after confined present possible,ended,?_,rest⟩
  rcases outcome.index with same | ⟨change,isAct,grown⟩
  · rw [same]
    exact filed
  subst isAct
  rw [grown,update_self]
  apply filed.spared
  cases change with
  | replace other entry generation | remove other => exact confined
  | remeasure other bytes => trivial
  | insert | replaceAll | lose | record | flushed | unschedule | install => exact confined.elim

theorem absent_kept (touched : Uuid → Prop) : Stable process touched fun world => world.manifest id = none := by
  intro act world answer after confined absent possible
  obtain ⟨_,outcome⟩ := effect_outcome possible
  have erased (key : Uuid) (read : Option DurableRecord) (cause : Cause) : (world.erase key read cause).manifest id = none := by
    by_cases here : id = key
    · rw [here,manifest_erase_self]
    · rw [manifest_erase_other world here,absent]
  cases outcome with
  | quiet still unmoved | lists all unmoved => exact (congrArg (AList.lookup id) unmoved.manifests).trans absent
  | aside beside => exact (congrArg (AList.lookup id) beside.undisturbed.manifests).trans absent
  | @writes key read written cause bytes present =>
    have different : id ≠ key := by
      intro here
      subst here
      exact present confined.2 absent
    rw [manifest_write_other world different,absent]
  | trashes read nowMs present | removes present => exact erased _ _ _
  | _ => exact absent

/-! ### Into the index -/

theorem effect_complete {act : Act π} {answer : Answer act} {after : World Unit π}
    (possible : (answer,after) ∈ effect (fun _ : Unit => process) () act world) :
    (answer,after) ∈ complete (fun _ : Unit => process) () act world := by
  unfold effect at possible
  split at possible
  · exact possible
  · cases possible

theorem yields_readIndex {post : Index → World Unit π → Prop} (holds : post (world.index process) world) :
    Yields process readIndex post world := by
  apply yields_act
  intro index after possible
  cases mem_singleton.mp (effect_complete possible)
  exact holds

theorem yields_update {change : IndexUpdate} {post : change.Reply → World Unit π → Prop}
    (holds : ∀ reply, post reply { world with
      index := Function.update world.index process (change.apply (world.index process))
      recordings := change.recorded (world.index process) ++ world.recordings }) : Yields process (update change) post world := by
  apply yields_act
  intro reply after possible
  cases mem_singleton.mp (effect_complete possible)
  exact holds _

/-- Reading tells the manifest that is there; to miss one that is there would be a failure of the disk. -/
theorem ensures_readDurable {post : Except StoreError (DurableRecord × Nat) → World Unit π → Prop}
    (present : world.manifest id = some durable) (found : ∀ bytes, post (.ok (durable,bytes)) world)
    (fault : post (.error (.io .other)) world) :
    Ensures (effect (fun _ : Unit => process) ()) (readDurable id : Op π _).run post world := by
  intro answer after possible
  rcases mem_pair.mp (effect_complete possible) with read | failed
  · rw [present] at read
    cases read
    exact found _
  · cases failed
    exact fault

theorem yields_indexManifest (ended : durable.finished = some finished) (bytes : Nat) :
    Yields process (indexManifest id durable bytes)
      (fun entry after => after = world ∧ entry.finished = some finished ∧ entry.deferred = durable.deferred) world := by
  have terminal : durable.invocation.state.isTerminal = true := terminal_of_finished ended
  dsimp only [indexManifest]
  split
  · exact yields_throw
  · apply yields_bind
    apply yields_pure
    exact yields_pure ⟨rfl,ended,rfl⟩

theorem yields_loadDirectory (present : world.manifest id = some durable) (ended : durable.finished = some finished) :
    Yields process (loadDirectory id) (fun loaded after => after = world ∧
      ∃ entry, loaded = some entry ∧ entry.finished = some finished ∧ entry.deferred = durable.deferred) world := by
  apply yields_bind
  apply yields_attempt
  apply ensures_readDurable present
  · intro bytes
    apply yields_bind
    apply (yields_indexManifest ended bytes).weaken
    intro entry after ⟨same,holds⟩
    exact yields_pure ⟨same,entry,rfl,holds⟩
  · exact yields_throw

theorem yields_loadFrom {index : Index} (present : world.manifest id = some durable)
    (ended : durable.finished = some finished) (listed : id ∈ ids ∨ Filed index id finished durable.deferred) :
    Yields process (loadFrom ids index)
      (fun loaded after => after.manifest id = some durable ∧ Filed loaded id finished durable.deferred) world := by
  induction ids generalizing index world with
  | nil =>
    rcases listed with never | filed
    · cases never
    · exact yields_pure ⟨present,filed⟩
  | cons key rest ih =>
    apply yields_bind
    by_cases here : key = id
    · subst here
      apply (yields_loadDirectory present ended).weaken
      intro loaded after ⟨same,entry,isEntry,isEnded,isDeferred⟩
      subst same isEntry
      exact ih present (.inr (.put_self isEnded isDeferred))
    · apply (yields_confined manifest_kept (confined_loadDirectory key) present).weaken
      intro loaded after still
      have remaining : id ∈ rest ∨ Filed index id finished durable.deferred :=
        listed.imp_left fun member => (mem_cons.mp member).resolve_left fun same => here same.symm
      cases loaded with
      | none => exact ih still remaining
      | some entry => exact ih still (remaining.imp_right fun filed => filed.put_other (Ne.symm here) entry)

theorem Filed.merged {loaded previous : Index} (filed : Filed loaded id finished deferred) :
    Filed (mergePendingTelemetry previous loaded) id finished deferred := by
  refine filed.congr _ (lookup_mergePendingTelemetry _ _ _) ?_ rfl
  intro entry
  cases previous.lookup id with
  | none | some before => exact ⟨rfl,rfl⟩

theorem yields_refreshIndex (force : Bool) (present : world.manifest id = some durable)
    (ended : durable.finished = some finished) :
    Yields process (refreshIndex force) (fun _ after => after.manifest id = some durable ∧
      (Filed (after.index process) id finished durable.deferred ∨ force = false ∧ after.index process = world.index process)) world := by
  have loading (world : World Unit π) (present : world.manifest id = some durable) : Yields process (loadIndex >>= replaceFromDisk)
      (fun _ after => after.manifest id = some durable ∧ Filed (after.index process) id finished durable.deferred) world := by
    apply yields_bind
    apply yields_bind
    intro answer after possible ids same
    subst same
    rcases mem_pair.mp (effect_complete possible) with read | failed
    · cases read
      have listed : id ∈ world.manifests.keys := by
        apply AList.mem_keys.mpr
        exact AList.lookup_isSome.mp (by rw [show world.manifests.lookup id = some durable from present]; rfl)
      have ticked : world.tick.manifest id = some durable := present
      apply (yields_loadFrom ticked ended (.inl (mem_dedup.mpr (mem_append_left _ listed)))).weaken
      intro loaded last ⟨still,filed⟩
      apply yields_bind
      apply yields_readIndex
      apply yields_update
      intro _
      refine ⟨still,?_⟩
      change Filed (Function.update last.index process _ process) id finished durable.deferred
      rw [update_self]
      exact filed.merged
    · cases failed
  apply yields_bind
  intro answer after possible begun same
  subst same
  have possible := effect_complete possible
  dsimp only [complete] at possible
  split at possible
  · rcases mem_pair.mp possible with started | failed
    · split at started
      · rename_i fresh
        cases started
        have unforced : force = false := by simpa using fresh.1
        exact yields_pure ⟨present,.inr ⟨unforced,rfl⟩⟩
      cases started
      apply yields_bind
      apply yields_attempt
      have begun : World.manifest {world with changing := Function.update world.changing process (some ())} id = some durable := present
      apply weaken (loading _ begun)
      intro result last holds
      cases result with
      | ok value =>
        apply yields_act
        intro _ done possible
        cases mem_singleton.mp (effect_complete possible)
        obtain ⟨still,filed⟩ := holds value rfl
        exact ⟨still,.inl filed⟩
      | error error =>
        apply yields_bind
        apply yields_act
        intro _ done _
        exact yields_throw
    · cases failed
  · cases possible

theorem yields_refreshIndex_stands (stands : Stands process id finished deferred world) :
    Yields process (refreshIndex false) (fun _ => Stands process id finished deferred) world := by
  obtain ⟨durable,shown,present,ended,filed,rest⟩ := stands
  apply (yields_refreshIndex false present ended).weaken
  intro _ after ⟨still,indexed⟩
  rcases indexed with filedAgain | ⟨_,same⟩
  · exact ⟨durable,durable.deferred,still,ended,filedAgain,rest.imp_right fun both => ⟨both.1,both.1⟩⟩
  · exact ⟨durable,shown,still,ended,same ▸ filed,rest⟩

theorem yields_refreshIndexIfStale (stands : Stands process id finished deferred world) :
    Yields process refreshIndexIfStale (fun _ => Stands process id finished deferred) world := by
  apply yields_bind
  apply yields_act
  intro due after possible
  have still := stands_kept .claimCheck world due after trivial stands possible
  split
  · exact yields_refreshIndex_stands still
  · exact yields_pure still

theorem yields_ensureInvocation (other : Uuid) (stands : Stands process id finished deferred world) :
    Yields process (ensureInvocation other) (fun _ => Stands process id finished deferred) world := by
  apply yields_bind
  apply (yields_refreshIndexIfStale stands).weaken
  intro _ after stands
  apply yields_bind
  apply yields_readIndex
  split
  · exact yields_pure stands
  apply yields_bind
  apply (yields_refreshIndex_stands stands).weaken
  intro _ last stands
  apply yields_bind
  apply yields_readIndex
  split
  · exact yields_pure stands
  · exact yields_throw

/-! ### Past orphans and deferred results -/

theorem yields_recoverManifest_named {key : Uuid} :
    Yields process (recoverManifest key) (fun recovered _ => ∀ found, recovered = some found → found.1 = key) world := by
  apply yields_bind
  apply yields_attempt
  apply ensures_any
  intro result after
  split
  · exact yields_pure fun _ never => by cases never
  · exact yields_throw
  split
  · exact yields_pure fun found same => Option.some.inj same ▸ rfl
  apply yields_bind
  apply ensures_any
  intro now next value same
  apply yields_bind
  apply ensures_any
  intro _ next _ _
  apply yields_bind
  apply ensures_any
  intro _ next _ _
  exact yields_pure fun found same => Option.some.inj same ▸ rfl

theorem yields_recoverId_named {key : Uuid} :
    Yields process (recoverId key) (fun recovered _ => ∀ found, recovered = some found → found.1 = key) world := by
  apply yields_bind
  apply ensures_any
  intro _ after owner _
  cases owner with
  | none => exact yields_pure fun _ never => by cases never
  | some owner =>
    apply yields_guarding
    apply yields_bind
    apply ensures_any
    intro _ next file _
    apply yields_guarding
    apply yields_recoverManifest_named.weaken
    intro recovered last named _ _ _ _ _ _
    exact named

theorem yields_recoverIds_among :
    Yields process (recoverIds ids) (fun recovered _ => ∀ key ∈ recovered.map Prod.fst, key ∈ ids) world := by
  induction ids generalizing world with
  | nil =>
    apply yields_pure
    intro key never
    cases never
  | cons id rest ih =>
    apply yields_bind
    apply yields_recoverId_named.weaken
    intro first after named
    apply yields_bind
    apply ih.weaken
    intro others last among
    apply yields_pure
    intro key member
    rw [map_append,mem_append] at member
    rcases member with own | later
    · obtain ⟨found,isFound,same⟩ := mem_map.mp own
      rw [← same,named found (Option.mem_toList.mp isFound)]
      exact mem_cons_self
    · exact mem_cons_of_mem _ (among key later)

theorem yields_recoverOrphanedInvocations (stands : Stands process id finished deferred world) :
    Yields process recoverOrphanedInvocations (fun _ => Stands process id finished deferred) world := by
  apply yields_bind
  apply yields_act
  intro ids after possible
  have still := stands_kept .scan world ids after trivial stands possible
  have others : ∀ other ∈ ids, id ≠ other := by
    intro other member same
    subst same
    cases mem_singleton.mp (effect_complete possible)
    obtain ⟨_,shown,_,_,filed,_⟩ := stands
    obtain ⟨entry,isEntry,ended,_⟩ := filed.entry
    obtain ⟨_,chosen⟩ := mem_filter.mp member
    rw [isEntry] at chosen
    have running : entry.finished = none := if_neg (by simpa using chosen)
    rw [ended] at running
    cases running
  apply yields_bind
  apply weaken (both (yields_confined stands_kept (confined_recoverIds others) still) yields_recoverIds_among)
  intro result last ⟨stands,among⟩ recovered same
  have stands := stands recovered same
  have among := among recovered same
  split
  · exact yields_pure stands
  apply yields_bind
  apply yields_update
  intro _
  refine yields_confined stands_kept ⟨trivial,fun _ => trivial⟩ ?_
  obtain ⟨durable,shown,present,ended,filed,rest⟩ := stands
  refine ⟨durable,shown,present,ended,?_,rest⟩
  change Filed (Function.update last.index process _ process) id finished shown
  rw [update_self]
  exact filed.replaceAll fun member => others id (among id member) rfl

section Sections
variable {before after : World Unit π → Prop} {key : Uuid} (stable : Stable process touched before) (stays : Stable process touched after)
  (inside : ∀ world, before world → Yields process body (fun _ => after) world) (holds : before world)
include stable stays inside holds

theorem yields_withMutationLock : Yields process (withMutationLock key body) (fun _ => after) world := by
  apply yields_bind
  apply yields_act
  intro mutex next possible
  have holds := stable (.mutationLock key) world mutex next trivial holds possible
  apply yields_bind
  apply yields_act
  intro answer last possible
  have holds := stable (.lockMutex mutex) next answer last trivial holds possible
  apply yields_guarding
  apply (inside last holds).weaken
  intro value done holds answer final possible
  exact stays (.unlockMutex mutex) done answer final trivial holds possible

theorem yields_withProcessMutation : Yields process (withProcessMutation key body) (fun _ => after) world := by
  apply yields_bind
  apply (yields_confined stable (confined_acquire (.mutation key)) holds).weaken
  intro file next holds
  apply yields_guarding
  apply (inside next holds).weaken
  intro value done holds answer final possible
  exact stays (.unlock file) done answer final trivial holds possible

end Sections

theorem yields_readDurable {post : DurableRecord × Nat → World Unit π → Prop}
    (present : world.manifest id = some durable) (found : ∀ bytes, post (durable,bytes) world) : Yields process (readDurable id) post world := by
  apply ensures_readDurable present
  · intro bytes value same
    cases same
    exact found bytes
  · intro value never
    cases never

theorem yields_persistDurable (read durable : DurableRecord) (recountPayload : Bool) (cause : Cause) :
    Yields process (persistDurable id (some read) durable recountPayload cause)
      (fun persisted after => after.manifest id = some persisted.1 ∧ ∃ size, persisted.1 = {durable with payloadBytes := size}) world := by
  have rest (size : Nat) (world : World Unit π) : Yields process (do
      let manifestBytes ← writeManifest id (some read) {durable with payloadBytes := size} cause
      pure ({durable with payloadBytes := size},saturatingAdd size manifestBytes) : Op π (DurableRecord × Nat))
      (fun persisted after => after.manifest id = some persisted.1 ∧ ∃ size, persisted.1 = {durable with payloadBytes := size}) world := by
    apply yields_bind
    intro answer after possible bytes same
    subst same
    rcases mem_pair.mp (effect_complete possible) with wrote | failed
    · split at wrote
      · cases wrote
      · cases wrote
        exact yields_pure ⟨manifest_write_self world id _ _ _,size,rfl⟩
    · cases failed
  dsimp only [persistDurable]
  split
  · apply yields_bind
    apply ensures_any
    intro _ after size _
    exact rest size after
  · exact rest _ world

theorem yields_commitDurable (ended : durable.finished = some finished) (read : DurableRecord) (recountPayload : Bool)
    (generation : Option Nat) (cause : Cause) : Yields process (commitDurable id read durable recountPayload generation cause)
      (fun _ => Stands process id finished durable.deferred) world := by
  apply yields_bind
  apply (yields_persistDurable read durable recountPayload cause).weaken
  intro persisted after ⟨present,size,same⟩
  apply yields_bind
  refine Yields.weaken (yields_confined manifest_kept ⟨trivial,fun _ => trivial⟩ present) ?_
  intro _ next present
  apply yields_update
  intro _
  refine ⟨persisted.1,durable.deferred,present,?_,?_,.inr ⟨?_,rfl⟩⟩
  · rw [same]
    exact ended
  · change Filed (Function.update next.index process _ process) id finished durable.deferred
    rw [update_self]
    have replaced : Filed ((next.index process).replace id (persisted.1.indexEntry persisted.2)) id finished durable.deferred := by
      rw [same]
      exact .replace_self ended rfl
    cases generation with
    | none => exact replaced
    | some generation => exact replaced.flushed id generation
  · rw [same]

theorem apply_deleteExpired (ended : durable.finished = some finished) (metrics : InvocationMetrics) (nowMs : Int) :
    ∃ changed, Mutation.apply {durable with invocation := {durable.invocation with metrics := metrics}} (.deleteExpired nowMs) = .ok changed ∧
      changed.finished = some finished ∧ changed.deferred = cleared nowMs durable.deferred := by
  have terminal : durable.invocation.state.isTerminal = true := terminal_of_finished ended
  by_cases due : durable.deferred.any (·.isExpired nowMs true) = true
  · refine ⟨{durable with invocation := {durable.invocation with metrics := metrics}, deferred := none},?_,ended,(if_pos due).symm⟩
    dsimp only [Mutation.apply]
    rw [terminal,if_pos due]
  · refine ⟨{durable with invocation := {durable.invocation with metrics := metrics}},?_,ended,(if_neg due).symm⟩
    dsimp only [Mutation.apply]
    rw [terminal,if_neg due]

/-- What is deferred of the invocation is dropped once it is due; what is deferred of others does not matter. -/
theorem yields_mutate_deleteExpired (key : Uuid) (nowMs : Int) (stands : Stands process id finished deferred world) :
    Yields process (mutate key false (.deleteExpired nowMs))
      (fun _ => Stands process id finished (if key = id then cleared nowMs deferred else deferred)) world := by
  refine yields_withMutationLock stands_kept stands_kept ?_ stands
  intro world stands
  apply yields_bind
  apply (yields_ensureInvocation key stands).weaken
  intro _ after stands
  refine yields_withProcessMutation stands_kept stands_kept ?_ stands
  intro world stands
  by_cases here : key = id
  · subst here
    rw [if_pos rfl]
    obtain ⟨durable,shown,present,ended,filed,rest⟩ := stands
    apply yields_bind
    refine yields_readDurable present ?_
    intro bytes
    apply yields_bind
    apply yields_readIndex
    generalize Index.mergeIndexTelemetry (world.index process) key durable.invocation.metrics = merged
    obtain ⟨metrics,generation⟩ := merged
    obtain ⟨changed,isChanged,still,isDeferred⟩ := apply_deleteExpired ended metrics nowMs
    dsimp only
    rw [isChanged]
    refine (yields_commitDurable still _ _ _ _).weaken ?_
    intro _ last stands
    rw [isDeferred] at stands
    rcases rest with gone | ⟨same,_⟩
    · rw [gone] at stands
      exact stands.any _
    · exact same ▸ stands
  · rw [if_neg here]
    refine yields_confined stands_kept ?_ stands
    refine confined_bind ⟨trivial,fun _ => trivial⟩ fun read => ?_
    refine confined_bind ⟨trivial,fun _ => trivial⟩ fun index => ?_
    exact confined_commitDurable (Ne.symm here) _ _ _ _ _

theorem yields_mutateEach (stands : Stands process id finished deferred world) :
    Yields process (mutateEach (.deleteExpired nowMs) ids) (fun _ after => Stands process id finished deferred after ∧
      (id ∈ ids → Stands process id finished (cleared nowMs deferred) after)) world := by
  induction ids generalizing deferred world with
  | nil => exact yields_pure ⟨stands,fun never => by cases never⟩
  | cons key rest ih =>
    apply yields_bind
    apply (yields_mutate_deleteExpired key nowMs stands).weaken
    intro _ after stands
    by_cases here : key = id
    · rw [if_pos here] at stands
      apply (ih stands).weaken
      intro _ last ⟨stands,_⟩
      exact ⟨stands.uncleared,fun _ => stands⟩
    · rw [if_neg here] at stands
      apply (ih stands).weaken
      intro _ last ⟨stands,later⟩
      exact ⟨stands,fun member => later ((mem_cons.mp member).resolve_left fun same => here same.symm)⟩

theorem yields_deleteExpiredDeferredResults (stands : Stands process id finished deferred world)
    (due : ∀ record, deferred = some record → record.expiresAtMs ≤ nowMs) :
    Yields process (deleteExpiredDeferredResults nowMs) (fun _ => Stands process id finished none) world := by
  apply yields_bind
  apply (yields_refreshIndexIfStale stands).weaken
  intro _ after stands
  apply yields_bind
  apply yields_readIndex
  obtain ⟨durable,shown,present,ended,filed,rest⟩ := stands
  rcases rest with gone | ⟨same,isShown⟩
  · have bare : Stands process id finished none after := ⟨durable,shown,present,ended,filed,.inl gone⟩
    exact (yields_mutateEach bare).weaken fun _ _ both => both.1
  subst isShown
  have stands : Stands process id finished shown after := ⟨durable,shown,present,ended,filed,.inr ⟨same,rfl⟩⟩
  apply (yields_mutateEach stands).weaken
  intro _ last ⟨stands,later⟩
  cases isDeferred : shown with
  | none => exact isDeferred ▸ stands
  | some record =>
    have expired : record.isExpired nowMs true = true := by
      unfold DeferredResultRecord.isExpired
      rw [Bool.true_and]
      exact decide_eq_true (due record isDeferred)
    have selected : id ∈ Index.select (after.index process)
        fun entry => entry.deferred.any (·.isExpired nowMs entry.record.state.isTerminal) := by
      obtain ⟨entry,isEntry,isEnded,isSame⟩ := filed.entry
      refine mem_filter.mpr ⟨?_,?_⟩
      · apply (mem_insertionSort _).mpr
        apply AList.mem_keys.mpr
        exact AList.lookup_isSome.mp (by rw [show (after.index process).entries.lookup id = some entry from isEntry]; rfl)
      · rw [isEntry,Option.any_some,isSame,isDeferred,Option.any_some,terminal_of_finished isEnded]
        exact expired
    have clear : cleared nowMs shown = none := by
      rw [isDeferred]
      exact if_pos expired
    rw [← clear]
    exact later selected

/-! ### Into the trash -/

theorem yields_reclaimManifest {bytes : Nat} (present : world.manifest id = some durable) (bare : durable.deferred = none) :
    Yields process (reclaimManifest id durable bytes) (fun _ after => after.manifest id = none) world := by
  apply yields_bind
  apply yields_act
  intro now after possible
  have present := manifest_kept .unixTimestampMs world now after trivial present possible
  rw [bare]
  apply yields_bind
  intro answer next possible moved same
  subst same
  rcases mem_pair.mp (effect_complete possible) with trashed | failed
  · rw [if_neg (by rw [present]; nofun)] at trashed
    cases trashed
    refine (yields_confined (absent_kept fun _ => True) ?_ (manifest_erase_self after id _ _)).weaken fun _ _ absent => absent
    exact confined_bind ⟨trivial,fun _ => trivial⟩ fun _ => trivial
  · cases failed

theorem yields_reclaimTerminal (stands : Stands process id finished none world) :
    Yields process (reclaimTerminal id) (fun _ after => after.manifest id = none) world := by
  refine yields_withMutationLock stands_kept (absent_kept _) ?_ stands
  intro world stands
  refine yields_withProcessMutation stands_kept (absent_kept _) ?_ stands
  intro world ⟨durable,shown,present,ended,filed,rest⟩
  have bare : durable.deferred = none := rest.elim (fun gone => gone) And.left
  apply yields_bind
  apply yields_attempt
  apply ensures_readDurable present
  · intro bytes
    dsimp only
    rw [show durable.invocation.state.isTerminal = true from terminal_of_finished ended]
    exact yields_reclaimManifest present bare
  · exact yields_throw

theorem yields_reclaimRetentionCandidate (sweep : Sweep) (stands : Stands process id finished none world) :
    Yields process (reclaimRetentionCandidate id sweep) (fun _ after => after.manifest id = none) world := by
  apply yields_bind
  apply yields_attempt
  apply weaken (yields_reclaimTerminal stands)
  intro result after holds
  cases result with
  | error error =>
    dsimp only
    split
    · apply yields_bind
      apply ensures_any
      intro _ _ _ _
      exact yields_throw
    · exact yields_throw
  | ok outcome =>
    refine yields_confined (absent_kept fun _ => True) ?_ (holds outcome rfl)
    dsimp only
    split
    · exact confined_publishRetentionBatch _
    · exact trivial

theorem yields_reclaimOld {cutoff : Int} {candidates : List Key} {sweep : Sweep}
    (holds : Stands process id finished none world ∨ world.manifest id = none) :
    Yields process (reclaimOld cutoff candidates sweep) (fun _ => Swept process id finished cutoff candidates) world := by
  induction candidates generalizing sweep world with
  | nil =>
    refine yields_pure ⟨holds,?_⟩
    intro ⟨_,never,_⟩
    cases never
  | cons head rest ih =>
    -- Once it is gone, the rest of the pass does not bring it back.
    have gone (sweep : Sweep) (world : World Unit π) (absent : world.manifest id = none) :
        Yields process (reclaimOld cutoff rest sweep) (fun _ => Swept process id finished cutoff (head::rest)) world :=
      (yields_confined (absent_kept _) (confined_reclaimOld cutoff rest sweep) absent).weaken fun _ _ absent => ⟨.inr absent,fun _ => absent⟩
    dsimp only [reclaimOld]
    split
    · apply yields_bind
      rcases holds with stands | absent
      · by_cases here : (ofLex head).2 = id
        · rw [here]
          exact (yields_reclaimRetentionCandidate sweep stands).weaken gone
        · apply (yields_confined stands_kept (confined_reclaimRetentionCandidate (Ne.symm here) sweep) stands).weaken
          intro sweep after stands
          exact (ih (.inl stands)).weaken fun _ _ swept => swept.cons fun both => here both.2
      · exact (yields_confined (absent_kept fun _ => True) (confined_reclaimRetentionCandidate trivial sweep) absent).weaken gone
    · rename_i young
      exact (ih holds).weaken fun _ _ swept => swept.cons fun both => young both.1

theorem yields_sweepCandidates {cutoff : Int} {candidates : List Key} (stands : Stands process id finished none world)
    (listed : key finished id ∈ candidates) (old : finished ≤ cutoff) :
    Yields process (sweepCandidates cutoff maximumBytes candidates) (fun _ after => after.manifest id = none) world := by
  apply yields_bind
  apply (yields_reclaimOld (.inl stands)).weaken
  intro sweep after swept
  refine yields_confined (absent_kept fun _ => True) ?_ (swept.2 ⟨key finished id,listed,old,rfl⟩)
  refine confined_bind ⟨trivial,fun _ => trivial⟩ fun index => ?_
  split
  · exact confined_bind (confined_reclaimUntil _ _ _) confined_announceSweep
  · exact confined_announceSweep _

/-! ### The whole run -/

theorem ensures_later (program : Proc π α) : Ensures (effect (fun _ : Unit => process) ()) program
    (fun _ after => after.outside = world.outside ∧ world.moment ≤ after.moment) world := by
  have kept (act : Act π) (state : World Unit π) (answer : Answer act) (after : World Unit π) (_ : True)
      (holds : state.outside = world.outside ∧ world.moment ≤ state.moment)
      (possible : (answer,after) ∈ effect (fun _ : Unit => process) () act state) :
      after.outside = world.outside ∧ world.moment ≤ after.moment := by
    obtain ⟨_,outcome⟩ := effect_outcome possible
    exact ⟨outcome.outside.1.trans holds.1,Nat.le_trans holds.2 outcome.outside.2⟩
  exact ensures_uses kept (uses_any program) ⟨rfl,Nat.le_refl _⟩

/-- What retention has to take away at the time. -/
structure Doomed (maximumAgeMs : Nat) (nowMs : Int) (durable : DurableRecord) : Prop where
  ended : durable.ended = true
  unprotected : durable.Unprotected nowMs
  old : durable.invocation.finishedAtMs.getD i64Min ≤ saturatingSubI64 nowMs (min maximumAgeMs i64Max)

theorem yields_reclaim (maximumBytes : Nat) (stands : Stands process id finished deferred world)
    (due : ∀ record, deferred = some record → record.expiresAtMs ≤ nowMs) (old : finished ≤ saturatingSubI64 nowMs (min maximumAgeMs i64Max)) :
    Yields process (do
      deleteExpiredDeferredResults nowMs
      let cutoff := saturatingSubI64 nowMs (min maximumAgeMs i64Max)
      remeasureEach (Index.nonterminalIds (← readIndex))
      let candidates := (← readIndex).terminalByFinished.keys.reverse
      sweepCandidates cutoff maximumBytes candidates) (fun _ after => after.manifest id = none) world := by
  apply yields_bind
  apply (yields_deleteExpiredDeferredResults stands due).weaken
  intro _ after stands
  apply yields_bind
  apply yields_readIndex
  apply yields_bind
  apply (yields_confined stands_kept (confined_remeasureEach _) stands).weaken
  intro _ last stands
  apply yields_bind
  apply yields_readIndex
  obtain ⟨durable,shown,present,ended,filed,rest⟩ := stands
  have stands : Stands process id finished none last := ⟨durable,shown,present,ended,filed,rest⟩
  exact yields_sweepCandidates stands (mem_reverse.mpr filed.key) old

/-- The time of a run is read once the index is loaded; whatever is doomed at that time goes. -/
def Emptied (maximumAgeMs : Nat) (before after : World Unit π) : Prop :=
  ∃ moment, before.moment ≤ moment ∧ moment < after.moment ∧ ∀ id durable, before.manifest id = some durable →
    Doomed maximumAgeMs (before.outside moment).unixTimestampMs durable → after.manifest id = none

theorem yields_refreshAndRecover (present : world.manifest id = some durable) (ended : durable.finished = some finished) :
    Yields process refreshAndRecover (fun _ => Stands process id finished durable.deferred) world := by
  apply yields_bind
  apply (yields_refreshIndex true present ended).weaken
  intro _ after ⟨still,indexed⟩
  rcases indexed with filed | ⟨never,_⟩
  · exact yields_recoverOrphanedInvocations ⟨durable,durable.deferred,still,ended,filed,.inr ⟨rfl,rfl⟩⟩
  · cases never

theorem yields_later (body : Op π α) : Yields process body (fun _ after => after.outside = world.outside ∧ world.moment ≤ after.moment) world :=
  weaken (ensures_later body.run) fun _ _ holds _ _ => holds

theorem DurableRecord.finished_of_ended (ended : durable.ended = true) :
    durable.finished = some (durable.invocation.finishedAtMs.getD i64Min) := if_pos ended

theorem yields_sweep : Yields process (do
    refreshAndRecover
    reclaimCandidates maximumAgeMs maximumBytes) (fun _ => Emptied maximumAgeMs world) world := by
  -- One run for all invocations at once.
  have loaded : Yields process refreshAndRecover (fun _ after => ∀ id durable, world.manifest id = some durable → durable.ended = true →
      Stands process id (durable.invocation.finishedAtMs.getD i64Min) durable.deferred after) world :=
    yields_all fun _ => yields_all fun _ => yields_when fun present => yields_when fun ended =>
      yields_refreshAndRecover present (DurableRecord.finished_of_ended ended)
  apply yields_bind
  apply (loaded.both (yields_later _)).weaken
  intro _ next ⟨standing,outside,later⟩
  apply yields_bind
  apply yields_act
  intro now ticked possible
  cases mem_singleton.mp (effect_complete possible)
  have standing (id : Uuid) (durable : DurableRecord) (present : world.manifest id = some durable) (ended : durable.ended = true) :
      Stands process id (durable.invocation.finishedAtMs.getD i64Min) durable.deferred next.tick :=
    stands_kept .unixTimestampMs next _ next.tick trivial (standing id durable present ended) possible
  refine (Yields.both (yields_all fun id => yields_all fun durable => yields_when fun present =>
    yields_when fun (doomed : Doomed maximumAgeMs next.now.unixTimestampMs durable) =>
      yields_reclaim maximumBytes (standing id durable present doomed.ended) doomed.unprotected doomed.old) (yields_later _)).weaken ?_
  intro _ last ⟨gone,_,further⟩
  refine ⟨next.moment,later,further,?_⟩
  rw [← outside]
  exact gone

theorem yields_enforceRetention (free : world.holders ⟨.maintenance,world.inodes .maintenance⟩ = none) :
    Yields process (enforceRetention maximumAgeMs maximumBytes) (fun _ => Emptied maximumAgeMs world) world := by
  have taken : Yields process (tryAcquire .maintenance) (fun acquired after => ∃ file, acquired = some file ∧ after = world.hold file (some ())) world := by
    apply yields_bind
    apply yields_bind
    refine ensures_perform.mpr ?_
    intro answer after possible inode opened
    subst opened
    rcases mem_pair.mp (effect_complete possible) with same | same
    · cases same
      apply yields_pure
      apply yields_bind
      apply yields_act
      intro locked next possible
      have held := effect_complete possible
      dsimp only [complete] at held
      rw [if_pos free] at held
      cases mem_singleton.mp held
      exact yields_pure ⟨_,rfl,rfl⟩
    · cases same
  apply yields_bind
  apply taken.weaken
  intro acquired after ⟨file,found,same⟩
  subst found same
  apply yields_guarding
  apply yields_sweep.weaken
  intro _ last emptied _ final possible
  cases mem_singleton.mp (effect_complete possible)
  exact emptied

end Run

section Alone
variable [DecidableEq π] [Fintype π] {config : Config (Act π) Answer (World Unit π) Unit}

/-- A run of retention that nothing disturbs and that succeeds takes away whatever is doomed at its time. -/
theorem retention_empties (process : π) (world : World Unit π) (maximumAgeMs maximumBytes : Nat)
    (free : world.holders ⟨.maintenance,world.inodes .maintenance⟩ = none)
    (reached : Reach (effect fun _ => process) anyhow (launch (fun _ => .retention maximumAgeMs maximumBytes) world) config)
    (done : config.tasks () = .done ()) (succeeded : config.state.responses () = some true) : Emptied maximumAgeMs world config.state := by
  have run : Ensures (effect (fun _ : Unit => process) ()) (Operation.retention maximumAgeMs maximumBytes).program
      (fun _ after => after.responses () = some true → Emptied maximumAgeMs world after) world := by
    have body : Yields process (Operation.retention maximumAgeMs maximumBytes).body (fun _ => Emptied maximumAgeMs world) world := by
      apply yields_bind
      apply (yields_enforceRetention free).weaken
      intro _ after emptied
      exact yields_pure emptied
    change Ensures _ (perform Act.begin >>= fun _ => _) _ world
    rw [ensures_bind]
    refine ensures_perform.mpr ?_
    intro _ after possible
    cases mem_singleton.mp (effect_complete possible)
    rw [ensures_bind]
    apply weaken body
    intro result last emptied
    refine ensures_perform.mpr ?_
    intro _ final possible
    cases mem_singleton.mp (effect_complete possible)
    intro succeeded
    cases result with
    | ok value => exact emptied value rfl
    | error => cases succeeded.symm.trans (update_self () (some false) last.responses)
  have ended := reach_ensures (fun _ => rfl) run reached
  rw [done] at ended
  exact ended succeeded

end Alone

/-! ### Beside the other operations -/

section Beside
variable {ι : Type} [DecidableEq ι] [DecidableEq π] [Fintype π]

/-- What a step may take away: to the trash goes what has ended and promises nothing; a creation that fails
takes back what it has made; details are replaced until the invocation has ended. -/
structure Spared (operations : ι → Operation) (before after : World ι π) : Prop where
  trashed : ∀ id read nowMs, after.writes = ⟨id,read,none,.retention nowMs⟩::before.writes →
    ∃ durable, before.manifest id = some durable ∧ durable.ended = true ∧ durable.Unprotected nowMs ∧ before.Shown nowMs
  removed : ∀ id durable, before.manifest id = some durable → after.manifest id = none →
    (durable.ended = true ∧ ∃ nowMs, durable.Unprotected nowMs ∧ before.Shown nowMs) ∨
    ∃ creation queued deferred, operations creation = .create queued deferred ∧ queued.id = id ∧ before.responses creation = none
  details : ∀ id durable, before.manifest id = some durable → after.details id ≠ before.details id →
    after.manifest id = none ∨ durable.ended = false

end Beside

def sweepOnce : Unit → Operation := fun _ => .retention 0 0

def endedUnpromised : DurableRecord where
  invocation := plainHeader 7 .succeeded

def promiseUntilHundred : Unit → Operation := fun _ =>
  .create (plainHeader 7 .queued) (some {invocationId := 7, retrieval := .inlineResult, createdAtMs := 0, updatedAtMs := 0, expiresAtMs := 100})

end BazelMcp.Store

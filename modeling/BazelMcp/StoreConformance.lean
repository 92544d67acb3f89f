import BazelMcp.StoreDiscipline

/-! Every operation of the store keeps the discipline, whatever its acts are answered. -/
namespace BazelMcp.Store
open StoreIndex Tasks Typestate Function List Phase Index Mutation

variable {π α β : Type}

/-- From the phase the operation keeps the discipline and ends as stated. -/
def Keeps (op : Op π α) (phase : Phase π) (ok : α → Phase π → Prop) (err : StoreError → Phase π → Prop) : Prop :=
  Follows (discipline π) op.run phase fun result after =>
    match result with
    | .ok value => ok value after
    | .error error => err error after

section Rules
variable {phase : Phase π} {err : StoreError → Phase π → Prop}

variable {ok : α → Phase π → Prop} {id : Uuid}

@[simp] theorem keeps_pure {value : α} : Keeps (pure value) phase ok err ↔ ok value phase := Iff.rfl

@[simp] theorem keeps_throw {error : StoreError} :
    Keeps (throw error) phase ok err ↔ err error phase := Iff.rfl

theorem keeps_run {op : Op π α} {post : Except StoreError α → Phase π → Prop} : Follows (discipline π) op.run phase post ↔
    Keeps op phase (fun value => post (.ok value)) fun error => post (.error error) := by
  unfold Keeps
  apply iff_of_eq
  congr 1
  funext result after
  cases result with
  | ok value | error error => rfl

theorem keeps_bind {first : Op π α} {next : α → Op π β} {ok : β → Phase π → Prop} :
    Keeps (first >>= next) phase ok err ↔ Keeps first phase (fun value after => Keeps (next value) after ok err) err :=
  follows_bind.trans keeps_run

theorem Keeps.weaken {op : Op π α} {weaker : α → Phase π → Prop} {err worse : StoreError → Phase π → Prop}
    (keeps : Keeps op phase ok err) (implies : ∀ value after, ok value after → weaker value after)
    (fails : ∀ error after, err error after → worse error after) : Keeps op phase weaker worse := by
  apply Follows.weaken keeps
  intro result after holds
  cases result with
  | ok value => exact implies value after holds
  | error error => exact fails error after holds

theorem Keeps.mono {op : Op π α} {weaker : α → Phase π → Prop} {err : StoreError → Phase π → Prop}
    (keeps : Keeps op phase ok err) (implies : ∀ value after, ok value after → weaker value after) : Keeps op phase weaker err :=
  keeps.weaken implies fun _ _ fails => fails

theorem keeps_map {first : Op π α} {change : α → β} {ok : β → Phase π → Prop} :
    Keeps (change <$> first) phase ok err ↔ Keeps first phase (fun value => ok (change value)) err :=
  follows_bind.trans keeps_run

theorem keeps_lift {program : Proc π α} :
    Keeps (ExceptT.lift program) phase ok err ↔ Follows (discipline π) program phase ok := by
  change Follows _ (program >>= _) phase _ ↔ _
  rw [follows_bind]
  rfl

@[simp] theorem keeps_act {call : Act π} {ok : Answer call → Phase π → Prop} :
    Keeps (act call) phase ok err ↔ phase.Allowed call ∧ ∀ answer, ok answer (phase.advance call answer) := keeps_lift

theorem keeps_attempt {body : Op π α} {ok : Except StoreError α → Phase π → Prop} :
    Keeps (attempt body) phase ok err ↔ Keeps body phase (fun value => ok (.ok value)) fun error => ok (.error error) := by
  rw [attempt,keeps_lift]
  exact keeps_run

theorem keeps_guarding {body : Op π α} {release : Act π} : Keeps (guarding body release) phase ok err ↔
      Keeps body phase (fun value after => after.Allowed release ∧ ∀ answer, ok value (after.advance release answer))
        fun error after => after.Allowed release ∧ ∀ answer, err error (after.advance release answer) :=
  follows_bind.trans keeps_run

theorem forall_except {holds : Except StoreError α → Prop} :
    (∀ result, holds result) ↔ (∀ value, holds (.ok value)) ∧ ∀ error, holds (.error error) := by
  constructor
  · intro all
    exact ⟨fun value => all (.ok value),fun error => all (.error error)⟩
  intro ⟨value,error⟩ result
  cases result with
  | ok found => exact value found
  | error found => exact error found

theorem keeps_readDurable {ok : DurableRecord × Nat → Phase π → Prop} : Keeps (readDurable id) phase ok err ↔
    (∀ value, ok value (phase.read id (.ok value))) ∧ ∀ error, err error (phase.read id (.error error)) :=
  (iff_of_eq (true_and _)).trans forall_except

theorem keeps_writeManifest {read : Option DurableRecord} {written : DurableRecord} {cause : Cause} {ok : Nat → Phase π → Prop} :
    Keeps (writeManifest id read written cause) phase ok err ↔ phase.Allowed (.writeManifest id read written cause) ∧
      (∀ bytes, ok bytes (phase.wrote id read written (.ok bytes))) ∧
      ∀ error, err error (phase.wrote id read written (.error error)) :=
  and_congr_right fun _ => forall_except

theorem keeps_renameToTrash {read : DurableRecord} {nowMs : Int} {ok : Bool → Phase π → Prop} :
    Keeps (renameToTrash id read nowMs) phase ok err ↔ phase.Allowed (.renameToTrash id read nowMs) ∧
      (∀ moved, ok moved (phase.trashed id (.ok moved))) ∧ ∀ error, err error (phase.trashed id (.error error)) :=
  and_congr_right fun _ => forall_except

theorem keeps_listInvocations {ok : {ids : List Uuid // ids.Nodup} → Phase π → Prop} :
    Keeps listInvocations phase ok err ↔ (∃ changes, phase.refresh = .begun changes) ∧
      (∀ ids, ok ids (phase.listed (.ok ids))) ∧ ∀ error, err error phase.fail :=
  and_congr_right fun _ => forall_except

theorem keeps_evidencePayloadSize {ok : Nat → Phase π → Prop} :
    Keeps (evidencePayloadSize id) phase ok err ↔ (∀ size, ok size phase) ∧ err (.io .other) phase.fail := by
  rw [evidencePayloadSize,keeps_bind,keeps_act]
  constructor
  · intro ⟨_,answered⟩
    exact ⟨fun size => answered (some size),answered none⟩
  intro ⟨measured,failed⟩
  refine ⟨trivial,?_⟩
  intro answer
  cases answer with
  | some size => exact measured size
  | none => exact failed

theorem keeps_writeFiles {files : Files} {ok : Unit → Phase π → Prop} : Keeps (writeFiles id files) phase ok err ↔
      phase.Allowed (.writeFiles id files) ∧ (∀ done, ok done phase) ∧ ∀ error, err error phase.fail :=
  and_congr_right fun _ => forall_except

theorem keeps_readDetails {ok : InvocationDetails → Phase π → Prop} :
    Keeps (readDetails id) phase ok err ↔ (∀ details, ok details phase) ∧ ∀ error, err error phase.fail :=
  (iff_of_eq (true_and _)).trans forall_except

theorem keeps_beginRefresh {force : Bool} {ok : Option (Changes π) → Phase π → Prop} :
    Keeps (beginRefresh force) phase ok err ↔ phase.refresh = .idle ∧
      (∀ changes, ok changes (phase.begun (.ok changes))) ∧ ∀ error, err error phase.fail :=
  and_congr_right fun _ => forall_except

theorem keeps_publishChange {ok : Unit → Phase π → Prop} : Keeps publishChange phase ok err ↔ phase.refresh = .idle ∧
    (∀ done, ok done {phase with owesPublish := []}) ∧ ∀ error, err error phase.fail :=
  and_congr_right fun _ => forall_except

theorem keeps_openLock {path : LockPath} {ok : Nat → Phase π → Prop} : Keeps (openLock path) phase ok err ↔
    phase.Allowed (.openLock path) ∧ (∀ inode, ok inode (phase.opened path (.ok inode))) ∧ ∀ error, err error phase.fail :=
  and_congr_right fun _ => forall_except

theorem keeps_readIndex {ok : Index → Phase π → Prop} : Keeps readIndex phase ok err ↔ ∀ index, ok index (phase.snapped index) :=
  keeps_act.trans (iff_of_eq (true_and _))

theorem keeps_unixTimestampMs {ok : Int → Phase π → Prop} :
    Keeps unixTimestampMs phase ok err ↔ ∀ now, ok now {phase with clock := some now} :=
  keeps_act.trans (iff_of_eq (true_and _))

theorem keeps_update {change : IndexUpdate} {ok : change.Reply → Phase π → Prop} : Keeps (update change) phase ok err ↔
    phase.MayUpdate change ∧ ∀ reply, ok reply (phase.updated change reply) := keeps_act

end Rules

/-! ### Locks -/

section Locks
variable {phase : Phase π} {err : StoreError → Phase π → Prop}

section
variable (path : LockPath) (allowed : phase.Allowed (.openLock path))
  (may : ∀ inode, (phase.opened path (.ok inode)).MayLock ⟨path,inode⟩)
include allowed may

theorem keeps_acquire {ok : LockFile → Phase π → Prop}
    (locked : ∀ inode, ok ⟨path,inode⟩ ((phase.opened path (.ok inode)).acquired ⟨path,inode⟩))
    (fault : ∀ error, err error phase.fail) : Keeps (acquire path) phase ok err := by
  rw [acquire,keeps_bind,openLockFile,keeps_bind,keeps_openLock]
  refine ⟨allowed,?_,fault⟩
  intro inode
  rw [keeps_pure,keeps_bind,keeps_act]
  exact ⟨may inode,fun _ => locked inode⟩

theorem keeps_tryAcquire {ok : Option LockFile → Phase π → Prop}
    (locked : ∀ inode, ok (some ⟨path,inode⟩) ((phase.opened path (.ok inode)).acquired ⟨path,inode⟩))
    (busy : ∀ inode, ok none ((phase.opened path (.ok inode)).denied ⟨path,inode⟩))
    (fault : ∀ error, err error phase.fail) : Keeps (tryAcquire path) phase ok err := by
  rw [tryAcquire,keeps_bind,openLockFile,keeps_bind,keeps_openLock]
  refine ⟨allowed,?_,fault⟩
  intro inode
  rw [keeps_pure,keeps_bind,tryLock,keeps_act]
  refine ⟨may inode,?_⟩
  intro taken
  cases taken with
  | true => exact locked inode
  | false => exact busy inode
end

variable {id : Uuid}

def Phase.owned (phase : Phase π) (file : LockFile) : Phase π := {phase with pending := none, owning := some file}

def Phase.maintained (phase : Phase π) (inode : Nat) : Phase π := {phase with pending := none, maintaining := some inode}

theorem keeps_withMutationLock {body : Op π α} {ok : α → Phase π → Prop} (keeps : Keeps body phase ok err) :
    Keeps (withMutationLock id body) phase ok err := by
  rw [withMutationLock,keeps_bind,keeps_act]
  refine ⟨trivial,?_⟩
  intro mutex
  rw [keeps_bind,keeps_act]
  refine ⟨trivial,?_⟩
  intro _
  rw [keeps_guarding]
  exact keeps.weaken (fun _ _ holds => ⟨trivial,fun _ => holds⟩) fun _ _ holds => ⟨trivial,fun _ => holds⟩

def Phase.freed (phase : Phase π) : Phase π := {phase with grip := .empty, taken := false, raised := false}

/-- The lock file is still held, and nothing was raised that the index does not know. -/
def Phase.MayRelease (phase : Phase π) (file : LockFile) : Prop :=
  phase.grip.Holds file ∧ (phase.raised = true → phase.failed = true)

theorem keeps_withProcessMutation {body : Op π α} {ok : α → Phase π → Prop} (free : phase.grip = .empty)
    (fault : ∀ error, err error phase.fail) (keeps : ∀ inode, Keeps body (phase.acquired ⟨.mutation id,inode⟩)
      (fun value after => after.MayRelease ⟨.mutation id,inode⟩ ∧ ok value after.freed)
      fun error after => after.MayRelease ⟨.mutation id,inode⟩ ∧ err error after.freed) :
    Keeps (withProcessMutation id body) phase ok err := by
  rw [withProcessMutation,keeps_bind]
  refine keeps_acquire (.mutation id) free (fun _ => rfl) ?_ fault
  intro inode
  rw [keeps_guarding]
  exact (keeps inode).weaken (fun _ _ holds => ⟨holds.1,fun _ => holds.2⟩) fun _ _ holds => ⟨holds.1,fun _ => holds.2⟩

end Locks

/-! ### Refreshing the index -/

/-- The locks beside those of manifests stay as they are, and what was seen of other invocations is not forgotten. -/
structure Carried (before after : Phase π) : Prop where
  born : after.born = before.born
  owning : after.owning = before.owning
  maintaining : after.maintaining = before.maintaining
  scanned : after.scanned = before.scanned
  responded : after.responded = before.responded
  settled : ∀ id ∈ before.settled, id ∈ after.settled
  skipped : ∀ id ∈ before.skipped, id ∈ after.skipped

namespace Carried
variable {before between after : Phase π}

theorem refl (phase : Phase π) : Carried phase phase := ⟨rfl,rfl,rfl,rfl,rfl,fun _ member => member,fun _ member => member⟩

theorem trans (first : Carried before between) (second : Carried between after) : Carried before after where
  born := second.born.trans first.born
  owning := second.owning.trans first.owning
  maintaining := second.maintaining.trans first.maintaining
  scanned := second.scanned.trans first.scanned
  responded := second.responded.trans first.responded
  settled id member := second.settled id (first.settled id member)
  skipped id member := second.skipped id (first.skipped id member)

end Carried

theorem mem_settling {phase : Phase π} {id other : Uuid} {ended : Bool} (member : other ∈ phase.settled) :
    other ∈ phase.settling id ended := by
  unfold settling
  split
  · exact mem_cons_of_mem id member
  · exact member

/-- All but what a task holds and has read stays as it was; a scheduled flush may turn out to be done. -/
structure Kept (before after : Phase π) : Prop extends Carried before after where
  drawn : after.drawn = before.drawn
  offered : after.offered = before.offered
  raised : after.raised = before.raised
  owesPublish : after.owesPublish = before.owesPublish
  owesIndex : after.owesIndex = before.owesIndex
  deleted : after.deleted = before.deleted
  looping : after.looping = before.looping ∨ after.looping = none
  failed : before.failed = true → after.failed = true
  corrupt : before.corrupt = true → after.corrupt = true

theorem filter_kept {looping before : Option Uuid} (kept : looping = before ∨ looping = none) (due : Uuid → Bool) :
    looping.filter due = before ∨ looping.filter due = none := by
  cases looping with
  | none => exact .inr rfl
  | some id =>
    rw [Option.filter_some]
    split
    · exact kept
    · exact .inr rfl

namespace Kept
variable {before between after : Phase π}

variable (phase : Phase π)

theorem refl : Kept phase phase := ⟨Carried.refl phase,rfl,rfl,rfl,rfl,rfl,rfl,.inl rfl,id,id⟩

theorem trans (first : Kept before between) (second : Kept between after) : Kept before after where
  toCarried := first.toCarried.trans second.toCarried
  drawn := second.drawn.trans first.drawn
  offered := second.offered.trans first.offered
  raised := second.raised.trans first.raised
  owesPublish := second.owesPublish.trans first.owesPublish
  owesIndex := second.owesIndex.trans first.owesIndex
  deleted := second.deleted.trans first.deleted
  looping := by
    rcases second.looping with same | none
    · rw [same]
      exact first.looping
    · exact .inr none
  failed was := second.failed (first.failed was)
  corrupt was := second.corrupt (first.corrupt was)

theorem fail : Kept phase phase.fail := {refl phase with failed := fun _ => rfl}

theorem snapped (index : Index) : Kept phase (phase.snapped index) :=
  {refl phase with looping := filter_kept (.inl rfl) _}

theorem acquired (id : Uuid) (inode : Nat) : Kept phase (phase.acquired ⟨.mutation id,inode⟩) := {refl phase with}

theorem clocked (now : Int) : Kept phase {phase with clock := some now} := {refl phase with}

theorem read (id : Uuid) (answer : Except StoreError (DurableRecord × Nat)) : Kept phase (phase.read id answer) := by
  unfold Phase.read
  split
  · exact {refl phase with corrupt := fun was => by simp [was], settled := fun _ => mem_settling}
  · exact {refl phase with settled := fun _ => mem_settling}
  · exact fail phase

end Kept

/-- The same with what the task holds. -/
structure Stays (before after : Phase π) : Prop extends Kept before after where
  grip : after.grip = before.grip

namespace Stays
variable {before between after : Phase π}

theorem refl (phase : Phase π) : Stays phase phase := ⟨Kept.refl phase,rfl⟩

theorem trans (first : Stays before between) (second : Stays between after) : Stays before after :=
  ⟨first.toKept.trans second.toKept,second.grip.trans first.grip⟩

theorem fail (stays : Stays before after) : Stays before after.fail := ⟨stays.toKept.trans (Kept.fail after),stays.grip⟩

theorem snapped (stays : Stays before after) (index : Index) : Stays before (after.snapped index) :=
  ⟨stays.toKept.trans (Kept.snapped after index),stays.grip⟩

end Stays

variable {before after : Phase π}

theorem Kept.freed (kept : Kept before after) (free : before.grip = .empty)
    (calm : before.raised = false) : Stays before after.freed :=
  {kept with grip := free.symm, raised := calm.symm}

section Refresh
variable {phase : Phase π} {changes : Changes π} {known : Uuid → Option DurableRecord}

/-- A refresh that fails met a failure of the disk or a manifest of another invocation. -/
def Phase.Spoiled (phase : Phase π) : Prop := phase.failed = true ∨ phase.corrupt = true

variable {err : StoreError → Phase π → Prop} {ok : Unit → Phase π → Prop}

theorem keeps_indexManifest {id : Uuid} {durable : DurableRecord} {manifestBytes : Nat} {ok : IndexEntry → Phase π → Prop}
    (indexed : ∀ bytes, ok (durable.indexEntry bytes) phase)
    (fault : ∀ error, err error phase.fail) (foreign : durable.invocation.id ≠ id → ∀ error, err error phase) :
    Keeps (indexManifest id durable manifestBytes) phase ok err := by
  have measured (size : Nat) : ok ({durable with payloadBytes := size}.indexEntry (saturatingAdd size manifestBytes)) phase :=
    indexed (saturatingAdd size manifestBytes)
  dsimp only [indexManifest]
  split
  · rename_i different
    exact foreign different _
  split
  · exact measured _
  · rw [keeps_bind,keeps_evidencePayloadSize]
    exact ⟨measured,fault _⟩

theorem read_other {id : Uuid} {error : StoreError} (other : error ≠ .io .notFound) : phase.read id (.error error) = phase.fail := by
  unfold Phase.read
  split <;> simp_all

section Directory
variable {id : Uuid} {rest : List Uuid} {ok : Option IndexEntry → Phase π → Prop} {err : StoreError → Phase π → Prop}

theorem saw_holds {inode : Nat} {manifest : Option DurableRecord} (held : phase.grip.Holds ⟨.mutation id,inode⟩) :
    (phase.saw id manifest).grip.Holds ⟨.mutation id,inode⟩ := by
  cases grip : phase.grip with
  | empty | opened file => simp [grip,Grip.Holds] at held
  | locked file | knows file manifest => simp_all [saw,Grip.saw,Grip.Holds]

theorem acquired_holds (id : Uuid) (inode : Nat) : (phase.acquired ⟨.mutation id,inode⟩).grip.Holds ⟨.mutation id,inode⟩ := by
  change Grip.Holds _ (if _ then _ else _)
  split
  · rfl
  · rfl

variable {base : Phase π} (free : base.grip = .empty) (calm : base.raised = false) (fresh : id ∉ rest)
  (loaded : ∀ manifest bytes after, Stays base after → after.refresh = .loading changes rest (Function.update known id manifest) →
    ok (manifest.map (·.indexEntry bytes)) after)
  (fault : ∀ error after remaining found, Stays base after → after.refresh = .loading changes remaining found →
    after.Spoiled → err error after)
include free calm fresh loaded fault

theorem keeps_reloadDirectory {inode : Nat} (kept : Kept base phase) (held : phase.grip.Holds ⟨.mutation id,inode⟩)
    (loading : phase.refresh = .loading changes rest (Function.update known id none)) : Keeps (guarding (reloadDirectory id) (.unlock ⟨.mutation id,inode⟩)) phase ok err := by
  have again (manifest : Option DurableRecord) :
      (phase.saw id manifest).refresh = .loading changes rest (Function.update known id manifest) := by
    simp [saw,loading,Refresh.saw,fresh]
  have release (after : Phase π) (holds : after.grip.Holds ⟨.mutation id,inode⟩) (kept : Kept base after) :
      after.Allowed (.unlock ⟨.mutation id,inode⟩) :=
    ⟨holds,fun raised => absurd (raised.symm.trans (kept.raised.trans calm)) (by decide)⟩
  rw [keeps_guarding,reloadDirectory,keeps_bind,keeps_attempt,keeps_readDurable]
  refine ⟨?_,?_⟩
  · intro ⟨durable,manifestBytes⟩
    have seen := kept.trans (Kept.read phase id (.ok (durable,manifestBytes)))
    rw [keeps_map]
    apply keeps_indexManifest
    · intro bytes
      exact ⟨release _ (saw_holds held) seen,fun _ => loaded (some durable) bytes _ (seen.freed free calm) (again _)⟩
    · intro error
      have failed := seen.trans (Kept.fail _)
      exact ⟨release _ (saw_holds held) failed,fun _ => fault error _ _ _ (failed.freed free calm) (again _) (.inl rfl)⟩
    · intro different error
      have corrupt : (phase.read id (.ok (durable,manifestBytes))).corrupt = true := by simp [Phase.read,different]
      exact ⟨release _ (saw_holds held) seen,fun _ => fault error _ _ _ (seen.freed free calm) (again _) (.inr corrupt)⟩
  · intro error
    have seen := kept.trans (Kept.read phase id (.error error))
    by_cases missing : error = .io .notFound
    · subst missing
      exact ⟨release _ (saw_holds held) seen,fun _ => loaded none 0 _ (seen.freed free calm) (again _)⟩
    rw [read_other missing] at seen ⊢
    split
    · simp_all
    · simp_all
    · exact ⟨release _ held seen,fun _ => fault _ _ _ _ (seen.freed free calm) loading (.inl rfl)⟩

theorem keeps_loadDirectory (loading : base.refresh = .loading changes (id::rest) known) : Keeps (loadDirectory id) base ok err := by
  have first (manifest : Option DurableRecord) :
      (base.saw id manifest).refresh = .loading changes rest (Function.update known id manifest) := by
    simp [saw,loading,Refresh.saw]
  have unheld (manifest : Option DurableRecord) : (base.saw id manifest).grip = base.grip := by
    simp [saw,free,Grip.saw]
  rw [loadDirectory,keeps_bind,keeps_attempt,keeps_readDurable]
  refine ⟨?_,?_⟩
  · intro ⟨durable,manifestBytes⟩
    have stays : Stays base (base.read id (.ok (durable,manifestBytes))) := ⟨Kept.read base id _,unheld _⟩
    rw [keeps_map]
    apply keeps_indexManifest
    · intro bytes
      exact loaded (some durable) bytes _ stays (first _)
    · intro error
      exact fault error _ _ _ stays.fail (first _) (.inl rfl)
    · intro different error
      exact fault error _ _ _ stays (first _) (.inr (by simp [Phase.read,different]))
  · intro error
    by_cases missing : error = .io .notFound
    · subst missing
      have absent : Stays base (base.read id (.error (.io .notFound))) := ⟨Kept.read base id _,unheld _⟩
      rw [keeps_bind]
      refine keeps_tryAcquire (.mutation id) (absent.grip.trans free) (fun _ => rfl) ?_ ?_ ?_
      · intro inode
        exact keeps_reloadDirectory free calm fresh loaded fault (absent.toKept.trans (Kept.acquired _ id inode))
          (acquired_holds id inode) (first none)
      · intro inode
        exact loaded none 0 _ {absent with raised := calm.symm, grip := free.symm} (first none)
      · intro error
        exact fault error _ _ _ absent.fail (first none) (.inl rfl)
    · rw [read_other missing]
      split
      · simp_all
      · simp_all
      · exact fault _ _ _ _ (Stays.refl base).fail loading (.inl rfl)

end Directory

theorem keeps_loadFrom {rest : List Uuid} {index : Index} {ok : Index → Phase π → Prop}
    (nodup : rest.Nodup) (free : phase.grip = .empty) (calm : phase.raised = false)
    (loading : phase.refresh = .loading changes rest known) (loads : Loads known index) (unread : ∀ id ∈ rest, known id = none)
    (loaded : ∀ known index after, Stays phase after → after.refresh = .loading changes [] known → Loads known index → ok index after)
    (fault : ∀ error after remaining found, Stays phase after → after.refresh = .loading changes remaining found →
      after.Spoiled → err error after) : Keeps (loadFrom rest index) phase ok err := by
  induction rest generalizing phase known index with
  | nil => exact loaded known index phase (Stays.refl phase) loading loads
  | cons id rest ih =>
    have fresh : id ∉ rest := (nodup_cons.mp nodup).1
    have absent : index.lookup id = none := by
      obtain ⟨bytes,isFound⟩ := loads.2 id
      rw [isFound,unread id mem_cons_self]
      rfl
    rw [loadFrom,keeps_bind]
    refine keeps_loadDirectory free calm fresh ?_ ?_ loading
    · intro manifest bytes after stays loading
      have next (index : Index) (loads : Loads (Function.update known id manifest) index) :
          Keeps (loadFrom rest index) after ok err := by
        apply ih (nodup_cons.mp nodup).2 (stays.grip.trans free) (stays.raised.trans calm) loading loads
        · intro other member
          have different : other ≠ id := by
            intro same
            exact fresh (same ▸ member)
          rw [update_of_ne different]
          exact unread other (mem_cons_of_mem _ member)
        · intro known index last further
          exact loaded known index last (stays.trans further)
        · intro error last remaining found further
          exact fault error last remaining found (stays.trans further)
      cases manifest with
      | none =>
        apply next
        refine ⟨loads.1,?_⟩
        intro other
        by_cases same : other = id
        · subst same
          exact ⟨0,by rw [absent,update_self]; rfl⟩
        · rw [update_of_ne same]
          exact loads.2 other
      | some durable =>
        apply next
        refine ⟨loads.1.put absent _,?_⟩
        intro other
        by_cases same : other = id
        · subst same
          refine ⟨bytes,?_⟩
          rw [update_self]
          exact StoreIndex.Index.lookup_put_self _ _ _
        · rw [update_of_ne same]
          obtain ⟨bytes,isFound⟩ := loads.2 other
          exact ⟨bytes,(StoreIndex.Index.lookup_put_other _ _ _ _ same).trans isFound⟩
    · intro error after remaining found stays loading spoiled
      exact fault error after remaining found stays loading spoiled

theorem loads_empty : Loads (fun _ => none) {} := ⟨Exact.empty,fun _ => ⟨0,rfl⟩⟩

theorem keeps_replaceFromDisk {index : Index} (loading : phase.refresh = .loading changes [] known) (loads : Loads known index)
    (installed : ∀ after, Stays phase after → after.refresh = .installed changes → ok () after) :
    Keeps (replaceFromDisk index) phase ok err := by
  rw [replaceFromDisk,keeps_bind,keeps_readIndex]
  intro previous
  rw [keeps_update]
  refine ⟨⟨changes,known,index,loading,loads,rfl⟩,?_⟩
  intro _
  have updated : (phase.snapped previous).updated (.install (StoreIndex.Index.mergePendingTelemetry previous index)) () =
      {phase.snapped previous with refresh := .installed changes} := by
    simp only [updated,show (phase.snapped previous).refresh = .loading changes [] known from loading]
  apply installed
  · rw [updated]
    exact {(Stays.refl phase).snapped previous with}
  · rw [updated]

variable (free : phase.grip = .empty) (calm : phase.raised = false) (idle : phase.refresh = .idle)
  (refreshed : ∀ after, Stays phase after → after.refresh = .idle → ok () after)
include free calm idle refreshed

section
variable (fault : ∀ error after, Stays phase after → after.refresh = .idle → after.Spoiled → err error after)
include fault

theorem keeps_refreshIndex {force : Bool} : Keeps (refreshIndex force) phase ok err := by
  have abandoned (error : StoreError) (after : Phase π) (stays : Stays phase after) (spoiled : after.Spoiled)
      (busy : after.refresh ≠ .idle ∧ ∀ changes, after.refresh ≠ .installed changes) :
      Keeps (do act .abandonRefresh; throw error) after ok err := by
    rw [keeps_bind,keeps_act]
    exact ⟨busy,fun _ => fault error _ {stays with} rfl spoiled⟩
  rw [refreshIndex,keeps_bind,keeps_beginRefresh]
  refine ⟨idle,?_,fun error => fault error _ (Stays.refl phase).fail idle (.inl rfl)⟩
  intro changes
  cases changes with
  | none => exact refreshed phase (Stays.refl phase) idle
  | some changes =>
    have begun : Stays phase (phase.begun (.ok (some changes))) := {Stays.refl phase with}
    rw [keeps_bind,keeps_attempt,keeps_bind,loadIndex,keeps_bind,keeps_listInvocations]
    refine ⟨⟨changes,rfl⟩,?_,?_⟩
    · intro ids
      have listed : Stays phase ((phase.begun (.ok (some changes))).listed (.ok ids)) := {begun with}
      apply keeps_loadFrom ids.property (listed.grip.trans free) (listed.raised.trans calm) rfl loads_empty (fun _ _ => rfl)
      · intro known index after stays loading loads
        apply keeps_replaceFromDisk loading loads
        intro last further installed
        rw [keeps_act]
        exact ⟨installed,fun _ => refreshed _ {(listed.trans stays).trans further with} rfl⟩
      · intro error after remaining found stays loading spoiled
        apply abandoned error after (listed.trans stays) spoiled
        rw [loading]
        exact ⟨nofun,nofun⟩
    · intro error
      exact abandoned error _ begun.fail (.inl rfl) ⟨nofun,nofun⟩

theorem keeps_refreshIndexIfStale : Keeps refreshIndexIfStale phase ok err := by
  rw [refreshIndexIfStale,keeps_bind,claimCheck,keeps_act]
  refine ⟨trivial,?_⟩
  intro due
  cases due with
  | true => exact keeps_refreshIndex free calm idle refreshed fault
  | false => exact refreshed phase (Stays.refl phase) idle

end

theorem keeps_ensureInvocation {id : Uuid}
    (missing : ∀ error after, Stays phase after → after.refresh = .idle → err error after) :
    Keeps (ensureInvocation id) phase ok err := by
  rw [ensureInvocation,keeps_bind]
  apply keeps_refreshIndexIfStale free calm idle
  · intro after stays idle
    rw [keeps_bind,keeps_readIndex]
    intro index
    have first := stays.snapped index
    split
    · exact refreshed _ first idle
    rw [keeps_bind]
    apply keeps_refreshIndex (first.grip.trans free) (first.raised.trans calm) idle
    · intro later further idle
      rw [keeps_bind,keeps_readIndex]
      intro index
      have second := (first.trans further).snapped index
      split
      · exact refreshed _ second idle
      · exact missing _ _ second idle
    · intro error later further idle _
      exact missing error later (first.trans further) idle
  · intro error after stays idle _
    exact missing error after stays idle

end Refresh

/-! ### Writing a manifest -/

/-- Between two sections: nothing is held, and nothing is owed unless the disk failed. -/
structure Rested (phase : Phase π) : Prop where
  grip : phase.grip = .empty
  refresh : phase.refresh = .idle
  raised : phase.raised = false
  drawn : phase.drawn = none
  debts : phase.failed = true ∨ phase.owesPublish = [] ∧ phase.owesIndex = []

structure Rests (before after : Phase π) : Prop extends Rested after, Carried before after where
  looping : after.looping = before.looping ∨ after.looping = none

theorem Rested.debts_kept (rested : Rested before) (kept : Kept before after) :
    after.failed = true ∨ after.owesPublish = [] ∧ after.owesIndex = [] := by
  rcases rested.debts with failed | ⟨published,indexed⟩
  · exact .inl (kept.failed failed)
  · exact .inr ⟨kept.owesPublish.trans published,kept.owesIndex.trans indexed⟩

theorem Rested.stays (rested : Rested before) (stays : Stays before after)
    (idle : after.refresh = .idle) : Rests before after where
  toCarried := stays.toCarried
  grip := stays.grip.trans rested.grip
  refresh := idle
  raised := stays.raised.trans rested.raised
  drawn := stays.drawn.trans rested.drawn
  debts := rested.debts_kept stays.toKept
  looping := stays.looping

theorem Rests.trans {between : Phase π} (first : Rests before between) (second : Rests between after) : Rests before after where
  toRested := second.toRested
  toCarried := first.toCarried.trans second.toCarried
  looping := by
    rcases second.looping with same | none
    · rw [same]
      exact first.looping
    · exact .inr none

theorem Rests.continued {op : Op π α} {between : Phase π} (rests : Rests before between)
    (keeps : Keeps op between (fun _ => Rests between) fun _ => Rests between) :
    Keeps op between (fun _ => Rests before) fun _ => Rests before :=
  keeps.weaken (fun _ _ => rests.trans) fun _ _ => rests.trans

theorem Rests.ended (rests : Rests before after) (ended : before.looping = none) : after.looping = none := by
  rcases rests.looping with same | done
  · exact same.trans ended
  · exact done

structure Closing (file : LockFile) (before after : Phase π) : Prop extends Carried before after where
  held : after.grip.Holds file
  refresh : after.refresh = .idle
  raised : after.raised = true → after.failed = true
  drawn : after.drawn = none
  debts : after.failed = true ∨ after.owesPublish = [] ∧ after.owesIndex = []
  looping : after.looping = before.looping ∨ after.looping = none

namespace Closing
variable {file : LockFile} {before after : Phase π}

theorem rests (closing : Closing file before after) : after.MayRelease file ∧ Rests before after.freed where
  left := ⟨closing.held,closing.raised⟩
  right :=
    { closing.toCarried with
      grip := rfl
      refresh := closing.refresh
      raised := rfl
      drawn := closing.drawn
      debts := closing.debts
      looping := closing.looping }

theorem fail (carried : Carried before after) (held : after.grip.Holds file) (idle : after.refresh = .idle)
    (undrawn : after.drawn = none) (looping : after.looping = before.looping ∨ after.looping = none) :
    Closing file before after.fail :=
  ⟨{carried with},held,idle,fun _ => rfl,undrawn,.inl rfl,looping⟩

theorem clocked (closing : Closing file before after) (now : Int) : Closing file before {after with clock := some now} :=
  {closing with}

end Closing

theorem Rested.closing {file : LockFile} (rested : Rested before) (kept : Kept before after)
    (held : after.grip.Holds file) (idle : after.refresh = .idle) : Closing file before after where
  toCarried := kept.toCarried
  held := held
  refresh := idle
  raised raised := absurd (raised.symm.trans (kept.raised.trans rested.raised)) (by decide)
  drawn := kept.drawn.trans rested.drawn
  debts := rested.debts_kept kept
  looping := kept.looping

section Write
variable {phase base : Phase π} {id : Uuid} {inode : Nat} {read : Option DurableRecord} {written : DurableRecord} {cause : Cause}
variable {err : StoreError → Phase π → Prop}

structure Written (id : Uuid) (read : Option DurableRecord) (written : DurableRecord) (before after : Phase π) : Prop
    extends Carried before after where
  grip : after.grip = before.grip.wrote (some written)
  refresh : after.refresh = before.refresh
  drawn : after.drawn = none
  snapshot : after.snapshot = before.snapshot
  looping : after.looping = before.looping
  failed : after.failed = before.failed
  deleted : after.deleted = before.deleted
  owesPublish : ∀ other ∈ after.owesPublish, other = id ∨ other ∈ before.owesPublish
  owesIndex : ∀ other ∈ after.owesIndex, other = id ∨ other ∈ before.owesIndex
  unowed : read.map DurableRecord.surface = some written.surface →
    after.owesPublish = before.owesPublish ∧ after.owesIndex = before.owesIndex
  unraised : (∀ durable, read = some durable → written.telemetry ≤ durable.telemetry ⊔ Index.telemetryAt before.snapshot id) →
    after.raised = false
  settles : written.ended = true → id ∈ after.settled

theorem knows_holds {manifest : Option DurableRecord} (known : phase.grip = .knows ⟨.mutation id,inode⟩ manifest) :
    phase.grip.Holds ⟨.mutation id,inode⟩ := by
  rw [known]
  rfl

theorem locked_holds (locked : phase.grip = .locked ⟨.mutation id,inode⟩) : phase.grip.Holds ⟨.mutation id,inode⟩ := by
  rw [locked]
  rfl

theorem wrote_written (bytes : Nat) : Written id read written phase (phase.wrote id read written (.ok bytes)) := by
  have unraised (within : ∀ durable, read = some durable →
      written.telemetry ≤ durable.telemetry ⊔ telemetryAt phase.snapshot id) : (read.any fun read =>
        decide (¬ written.telemetry ≤ read.telemetry ⊔ telemetryAt phase.snapshot id)) = false := by
    cases read with
    | none => rfl
    | some durable => simpa using within durable rfl
  have carried (after : Phase π) (born : after.born = phase.born) (owning : after.owning = phase.owning)
      (maintaining : after.maintaining = phase.maintaining) (scanned : after.scanned = phase.scanned)
      (responded : after.responded = phase.responded) (settled : after.settled = phase.settling id written.ended)
      (skipped : after.skipped = phase.skipped) : Carried phase after :=
    ⟨born,owning,maintaining,scanned,responded,fun _ member => settled ▸ mem_settling member,fun _ member => skipped ▸ member⟩
  have settles (ended : written.ended = true) : id ∈ phase.settling id written.ended := by
    rw [settling,if_pos ended]
    exact mem_cons_self
  unfold wrote
  dsimp only
  split
  · exact ⟨carried _ rfl rfl rfl rfl rfl rfl rfl,rfl,rfl,rfl,rfl,rfl,rfl,rfl,fun _ member => .inr member,
      fun _ member => .inr member,fun _ => ⟨rfl,rfl⟩,unraised,settles⟩
  · rename_i changed
    exact ⟨carried _ rfl rfl rfl rfl rfl rfl rfl,rfl,rfl,rfl,rfl,rfl,rfl,rfl,fun _ member => mem_cons.mp member,
      fun _ member => mem_cons.mp member,fun same => absurd same changed,unraised,settles⟩

theorem wrote_other {error : StoreError} (other : error ≠ .io .notFound) :
    phase.wrote id read written (.error error) = phase.fail := by
  unfold wrote
  split <;> simp_all

/-- The task knows that the manifest it wanted to replace is gone. -/
def Phase.bereft (phase : Phase π) : Phase π := {phase.fail with grip := phase.grip.wrote none}

theorem Succeeds.sized {read : DurableRecord} (succeeds : Succeeds cause read written) (size : Nat) :
    Succeeds cause read {written with payloadBytes := size} := {succeeds with}

theorem keeps_persistDurable {recountPayload : Bool} {ok : DurableRecord × Nat → Phase π → Prop}
    (knows : phase.Knows id read) (may : phase.MayWrite id written cause read) (calm : phase.raised = false)
    (idle : phase.refresh = .idle)
    (persisted : ∀ size retained after, Written id read {written with payloadBytes := size} phase after →
      ok ({written with payloadBytes := size},retained) after)
    (fault : ∀ error, error ≠ .io .notFound → err error phase.fail) (gone : err (.io .notFound) phase.bereft) :
    Keeps (persistDurable id read written recountPayload cause) phase ok err := by
  have sized (size : Nat) : phase.MayWrite id {written with payloadBytes := size} cause read := by
    cases read with
    | none => exact may
    | some read =>
      obtain ⟨undrawn,succeeds,accounts,recovering⟩ := may
      exact ⟨undrawn,succeeds.sized size,accounts,recovering⟩
  have rest (size : Nat) : Keeps (do
      let manifestBytes ← writeManifest id read {written with payloadBytes := size} cause
      pure ({written with payloadBytes := size},saturatingAdd size manifestBytes)) phase ok err := by
    rw [keeps_bind,keeps_writeManifest]
    refine ⟨⟨knows,sized size,calm,idle⟩,?_,?_⟩
    · intro bytes
      exact persisted size _ _ (wrote_written bytes)
    intro error
    by_cases missing : error = .io .notFound
    · subst missing
      exact gone
    · rw [wrote_other missing]
      exact fault error missing
  dsimp only [persistDurable]
  split
  · rw [keeps_bind,keeps_evidencePayloadSize]
    exact ⟨rest,fault _ nofun⟩
  · exact rest _

/-- A section under the lock file, entered from rest and left to rest. -/
theorem keeps_section {body : Op π α} {ok : α → Phase π → Prop} (rested : Rested base) (stays : Stays base phase)
    (idle : phase.refresh = .idle) (fault : ∀ error, err error phase.fail)
    (keeps : ∀ inode after, Kept base after → after.grip = .locked ⟨.mutation id,inode⟩ → after.refresh = .idle →
      after.snapshot = phase.snapshot → Keeps body after
        (fun value last => Closing ⟨.mutation id,inode⟩ base last ∧ (Rests base last.freed → ok value last.freed))
        fun error last => Closing ⟨.mutation id,inode⟩ base last ∧ (Rests base last.freed → err error last.freed)) :
    Keeps (withProcessMutation id body) phase ok err := by
  apply keeps_withProcessMutation (stays.grip.trans rested.grip) fault
  intro inode
  have undrawn : phase.drawn ≠ some id := by
    rw [stays.drawn,rested.drawn]
    nofun
  apply (keeps inode _ (stays.toKept.trans (Kept.acquired phase id inode)) (if_neg undrawn) idle rfl).weaken
  · intro value last ⟨closing,holds⟩
    exact ⟨closing.rests.1,holds closing.rests.2⟩
  · intro error last ⟨closing,holds⟩
    exact ⟨closing.rests.1,holds closing.rests.2⟩

theorem read_known {durable : DurableRecord} {bytes : Nat} (locked : phase.grip = .locked ⟨.mutation id,inode⟩) :
    (phase.read id (.ok (durable,bytes))).grip = .knows ⟨.mutation id,inode⟩ (some durable) := by
  simp [Phase.read,Phase.saw,locked,Grip.saw]

theorem read_missing (locked : phase.grip = .locked ⟨.mutation id,inode⟩) :
    (phase.read id (.error (.io .notFound))).grip = .knows ⟨.mutation id,inode⟩ none := by
  simp [Phase.read,Phase.saw,locked,Grip.saw]

theorem read_idle {answer : Except StoreError (DurableRecord × Nat)} (idle : phase.refresh = .idle) :
    (phase.read id answer).refresh = .idle := by
  unfold Phase.read
  split
  · simp [saw,idle,Refresh.saw]
  · simp [saw,idle,Refresh.saw]
  · exact idle

namespace Written
variable {before after : Phase π} {manifest : Option DurableRecord}

section
variable (wrote : Written id read written before after) (known : before.grip = .knows ⟨.mutation id,inode⟩ manifest)
include wrote known

theorem knows : after.grip = .knows ⟨.mutation id,inode⟩ (some written) := by
  rw [wrote.grip,known]
  rfl

theorem mayReplace {generation : Option Nat} (flushes : ∀ flushed, generation = some flushed → before.Flushes id written flushed) (bytes : Nat) :
    Phase.MayUpdate {after with owesPublish := []} (.replace id (written.indexEntry bytes) generation) := by
  refine ⟨written,⟨⟨inode,wrote.knows known⟩,⟨bytes,rfl⟩,nofun⟩,?_⟩
  intro flushed same
  have flushes := flushes flushed same
  unfold Phase.Flushes at flushes ⊢
  rw [show ({after with owesPublish := []} : Phase π).snapshot = before.snapshot from wrote.snapshot]
  exact flushes

variable (kept : Kept base before) (idle : before.refresh = .idle)
include kept idle

theorem closing (rested : Rested base) :
    Closing ⟨.mutation id,inode⟩ base (committed {after with owesPublish := []} id) where
  toCarried := {kept.toCarried.trans wrote.toCarried with}
  held := knows_holds (wrote.knows known)
  refresh := wrote.refresh.trans idle
  raised := nofun
  drawn := wrote.drawn
  debts := by
    rcases rested.debts with failed | ⟨_,indexed⟩
    · exact .inl (wrote.failed.trans (kept.failed failed))
    refine .inr ⟨rfl,?_⟩
    apply filter_eq_nil_iff.mpr
    intro other member
    rcases wrote.owesIndex other member with same | old
    · simp [same]
    · rw [kept.owesIndex,indexed] at old
      cases old
  looping := by
    rw [wrote.looping]
    exact kept.looping

theorem fault : Closing ⟨.mutation id,inode⟩ base after.fail := by
  apply Closing.fail (kept.toCarried.trans wrote.toCarried)
  · exact knows_holds (wrote.knows known)
  · exact wrote.refresh.trans idle
  · exact wrote.drawn
  · rw [wrote.looping]
    exact kept.looping

end

end Written

variable {manifest : Option DurableRecord}

theorem Rested.bereft (rested : Rested base) (kept : Kept base phase)
    (known : phase.grip = .knows ⟨.mutation id,inode⟩ manifest) (idle : phase.refresh = .idle) :
    Closing ⟨.mutation id,inode⟩ base phase.bereft := by
  have lost : phase.bereft.grip = .knows ⟨.mutation id,inode⟩ none := by
    change phase.grip.wrote none = _
    rw [known]
    rfl
  have failing : Closing ⟨.mutation id,inode⟩ base phase.fail :=
    Closing.fail kept.toCarried (knows_holds known) idle (kept.drawn.trans rested.drawn) kept.looping
  exact {failing with held := knows_holds lost}

theorem bereft_knows (known : phase.grip = .knows ⟨.mutation id,inode⟩ manifest) : phase.bereft.Knows id none := by
  refine ⟨inode,?_⟩
  change phase.grip.wrote none = _
  rw [known]
  rfl

/-- The operation failed because of the disk or because the manifest is gone. -/
def Phase.Missed (phase : Phase π) (id : Uuid) : Prop := phase.failed = true ∨ id ∈ phase.lost

theorem keeps_commitDurable {read : DurableRecord} {recountPayload : Bool} {generation : Option Nat} {ok : Unit → Phase π → Prop}
    (rested : Rested base) (kept : Kept base phase) (known : phase.grip = .knows ⟨.mutation id,inode⟩ (some read))
    (idle : phase.refresh = .idle) (may : phase.MayWrite id written cause (some read))
    (flushes : ∀ flushed, generation = some flushed → phase.Flushes id written flushed)
    (committed : ∀ size after, Closing ⟨.mutation id,inode⟩ base after →
      after.Knows id (some {written with payloadBytes := size}) → ok () after)
    (fault : ∀ error after, Closing ⟨.mutation id,inode⟩ base after → after.Missed id → err error after) :
    Keeps (commitDurable id read written recountPayload generation cause) phase ok err := by
  rw [commitDurable,keeps_bind]
  apply keeps_persistDurable ⟨inode,known⟩ may (kept.raised.trans rested.raised) idle
  · intro size retained after wrote
    rw [keeps_bind,keeps_publishChange]
    refine ⟨wrote.refresh.trans idle,?_,?_⟩
    · intro _
      rw [keeps_update]
      refine ⟨wrote.mayReplace known flushes retained,?_⟩
      intro _
      exact committed size _ (wrote.closing known kept idle rested) ⟨inode,wrote.knows known⟩
    · intro error
      exact fault error _ (wrote.fault known kept idle) (.inl rfl)
  · intro error _
    exact fault error _ (Closing.fail kept.toCarried (knows_holds known) idle (kept.drawn.trans rested.drawn) kept.looping) (.inl rfl)
  · exact fault _ _ (rested.bereft kept known idle) (.inl rfl)

end Write

/-! ### The operations -/

section Operations
variable {phase base : Phase π} {id : Uuid} {inode : Nat}

theorem merged_telemetry (index : Index) (id : Uuid) (metrics : InvocationMetrics) :
    telemetry (mergeIndexTelemetry index id metrics).1 = telemetry metrics ⊔ telemetryAt index id := by
  unfold mergeIndexTelemetry telemetryAt
  cases index.lookup id with
  | none => exact (sup_bot_eq _).symm
  | some entry => rfl

theorem merged_generation (index : Index) (id : Uuid) (metrics : InvocationMetrics) :
    (mergeIndexTelemetry index id metrics).2 = generationAt index id := by
  unfold mergeIndexTelemetry generationAt
  cases index.lookup id with
  | none | some entry => rfl

/-- A deferred record is dropped only if it was seen to be expired. -/
def Mutation.Timely : Mutation → Prop
  | .dropDeferred nowMs seen => seen.expiresAtMs ≤ nowMs
  | _ => True

variable {operation : Mutation} {durable : DurableRecord} {termination : Option Termination} {summary : Option InvocationSummary}
  {rounds : Nat}

theorem Mutation.timely_requested (requested : operation.requested = true) : operation.Timely := by
  cases operation with
  | dropDeferred nowMs seen => cases requested
  | _ => trivial

theorem Mutation.unrecovered (operation : Mutation) (durable : DurableRecord) : operation.cause durable ≠ .recovery := by
  cases operation with
  | deleteExpired nowMs =>
    unfold cause
    dsimp only
    split
    · split
      · exact nofun
      · exact nofun
    · exact nofun
  | _ => exact nofun

theorem Mutation.expired {nowMs : Int}
    (expired : durable.deferred.any (·.isExpired nowMs durable.invocation.state.isTerminal) = true) :
    ∃ deferred, durable.deferred = some deferred ∧ deferred.expiresAtMs ≤ nowMs ∧
      (deleteExpired nowMs).cause durable = .expiry nowMs deferred := by
  cases isDeferred : durable.deferred with
  | none => simp [isDeferred] at expired
  | some deferred =>
    have isExpired : deferred.isExpired nowMs durable.invocation.state.isTerminal = true := by simpa [isDeferred] using expired
    have due : deferred.expiresAtMs ≤ nowMs := by
      have both := isExpired
      simp only [DeferredResultRecord.isExpired,Bool.and_eq_true,decide_eq_true_eq] at both
      exact both.2
    refine ⟨deferred,rfl,due,?_⟩
    unfold cause
    rw [isDeferred]
    exact if_pos isExpired

theorem Mutation.apply_keeps {changed : DurableRecord} {metrics : InvocationMetrics} (timely : operation.Timely)
    (applied : operation.apply {durable with invocation := {durable.invocation with metrics}} = .ok changed) :
    Succeeds (operation.cause durable) durable changed ∧ changed.telemetry = telemetry metrics := by
  have unrecovered (same : operation.cause durable = .recovery) : durable.ended = false ∧ changed.invocation.state = .interrupted :=
    absurd same (operation.unrecovered durable)
  have onDeferred {updatedAtMs : Int} {change : DeferredResultRecord → DeferredResultRecord}
      (applied : onDeferred {durable with invocation := {durable.invocation with metrics}} updatedAtMs change = .ok changed) :
      Succeeds (operation.cause durable) durable changed ∧ changed.telemetry = telemetry metrics := by
    unfold onDeferred at applied
    split at applied
    · cases applied
    · cases applied
      exact ⟨⟨rfl,fun _ => rfl,nofun,unrecovered⟩,rfl⟩
  cases operation with
  | updateCancellationReason reason =>
    cases applied
    exact ⟨⟨rfl,fun _ => rfl,.inl,unrecovered⟩,rfl⟩
  | dropDeferred nowMs seen =>
    cases applied
    exact ⟨⟨rfl,fun _ => rfl,fun _ => .inr ⟨nowMs,seen,rfl,timely⟩,unrecovered⟩,rfl⟩
  | recordDeferredCancellation | setDeferredTerminalOverride | persistDeferredFailure | extendDeferredExpiry => exact onDeferred applied
  | deleteExpired nowMs =>
    simp only [apply] at applied
    split at applied
    · rename_i isExpired
      obtain ⟨deferred,_,due,isCause⟩ := expired isExpired
      cases applied
      exact ⟨⟨rfl,fun _ => rfl,fun _ => .inr ⟨nowMs,deferred,isCause,due⟩,unrecovered⟩,rfl⟩
    · cases applied
      exact ⟨⟨rfl,fun _ => rfl,.inl,unrecovered⟩,rfl⟩

variable {read written : DurableRecord}

theorem mayWrite_merged {cause : Cause} (undrawn : phase.drawn = none)
    (succeeds : Succeeds cause read written) (unrecovered : cause ≠ .recovery)
    (merged : written.telemetry = read.telemetry ⊔ telemetryAt phase.snapshot id) :
    phase.MayWrite id written cause (some read) := by
  refine ⟨undrawn,succeeds,⟨?_,.inl ?_⟩,fun same => absurd same unrecovered⟩
  · rw [merged]
    exact le_sup_left
  · rw [merged]
    exact le_sup_left

theorem mayWrite_same (undrawn : phase.drawn = none) : phase.MayWrite id durable .change (some durable) :=
  ⟨undrawn,⟨rfl,fun _ => rfl,.inl,nofun⟩,⟨le_sup_of_le_left le_sup_left,.inl le_rfl⟩,nofun⟩

section
variable (locked : phase.grip = .locked ⟨.mutation id,inode⟩)
include locked

theorem read_settled {bytes : Nat} (ended : durable.ended = true) : id ∈ (phase.read id (.ok (durable,bytes))).settled := by
  change id ∈ phase.settling id (durable.ended && phase.grip.guards id)
  simp [settling,ended,locked,Grip.guards]

theorem read_gone : id ∈ (phase.read id (.error (.io .notFound))).settled := by
  change id ∈ phase.settling id (phase.grip.guards id)
  simp [settling,locked,Grip.guards]

theorem keeps_readManifest {ok : DurableRecord × Nat → Phase π → Prop} {err : StoreError → Phase π → Prop}
    (idle : phase.refresh = .idle)
    (found : ∀ durable bytes after, Kept phase after → after.grip = .knows ⟨.mutation id,inode⟩ (some durable) →
      after.refresh = .idle → after.snapshot = phase.snapshot → (durable.ended = true → id ∈ after.settled) → ok (durable,bytes) after)
    (gone : ∀ after, Kept phase after → after.grip = .knows ⟨.mutation id,inode⟩ none → after.refresh = .idle →
      id ∈ after.lost → id ∈ after.settled → err (.io .notFound) after)
    (fault : ∀ error, error ≠ .io .notFound → err error phase.fail) : Keeps (readDurable id) phase ok err := by
  rw [keeps_readDurable]
  refine ⟨?_,?_⟩
  · intro ⟨durable,bytes⟩
    exact found durable bytes _ (Kept.read phase id _) (read_known locked) (read_idle idle) rfl (read_settled locked)
  intro error
  by_cases missing : error = .io .notFound
  · subst missing
    exact gone _ (Kept.read phase id _) (read_missing locked) (read_idle idle) mem_cons_self (read_gone locked)
  · rw [read_other missing]
    exact fault error missing

end

theorem keeps_readKnown {ok : DurableRecord × Nat → Phase π → Prop} {err : StoreError → Phase π → Prop} (rested : Rested base)
    (kept : Kept base phase) (locked : phase.grip = .locked ⟨.mutation id,inode⟩) (idle : phase.refresh = .idle)
    (found : ∀ durable bytes after, Kept base after → after.grip = .knows ⟨.mutation id,inode⟩ (some durable) →
      after.refresh = .idle → after.snapshot = phase.snapshot → ok (durable,bytes) after)
    (missing : ∀ error after, Closing ⟨.mutation id,inode⟩ base after → after.Missed id → err error after) :
    Keeps (readDurable id) phase ok err := by
  apply keeps_readManifest locked idle
  · intro durable bytes after read known idle snapshot _
    exact found durable bytes after (kept.trans read) known idle snapshot
  · intro after read known idle lost _
    exact missing _ after (rested.closing (kept.trans read) (knows_holds known) idle) (.inr lost)
  · intro error _
    exact missing error _ (rested.closing (kept.trans (Kept.fail phase)) (locked_holds locked) idle) (.inl rfl)

theorem keeps_ensured {body : Op π Unit} (rested : Rested base)
    (keeps : ∀ inode after, Kept base after → after.grip = .locked ⟨.mutation id,inode⟩ → after.refresh = .idle →
      Keeps body after (fun _ => Closing ⟨.mutation id,inode⟩ base) fun _ => Closing ⟨.mutation id,inode⟩ base) :
    Keeps (withMutationLock id do ensureInvocation id; withProcessMutation id body) base
      (fun _ => Rests base) fun _ => Rests base := by
  apply keeps_withMutationLock
  rw [keeps_bind]
  apply keeps_ensureInvocation rested.grip rested.raised rested.refresh
  · intro entered stays idle
    apply keeps_section rested stays idle
    · intro error
      exact rested.stays stays.fail idle
    intro inode locked kept grip idle _
    exact (keeps inode locked kept grip idle).weaken (fun _ _ closing => ⟨closing,fun rests => rests⟩)
      fun _ _ closing => ⟨closing,fun rests => rests⟩
  · intro error after stays idle
    exact rested.stays stays idle

theorem keeps_mutate {recountPayload : Bool} (rested : Rested base) (timely : operation.Timely) :
    Keeps (mutate id recountPayload operation) base (fun _ => Rests base) fun _ => Rests base := by
  apply keeps_ensured rested
  intro inode locked kept grip idle
  rw [keeps_bind]
  apply keeps_readKnown rested kept grip idle
  · intro durable bytes after kept known idle _
    rw [keeps_bind,keeps_readIndex]
    intro index
    have kept := kept.trans (Kept.snapped after index)
    have merged := merged_telemetry index id durable.invocation.metrics
    dsimp only
    split
    · exact rested.closing kept (knows_holds known) idle
    rename_i changed applied
    obtain ⟨succeeds,same⟩ := apply_keeps timely applied
    have telemetry : changed.telemetry = durable.telemetry ⊔ telemetryAt index id := same.trans merged
    apply keeps_commitDurable rested kept known idle
    · exact mayWrite_merged (kept.drawn.trans rested.drawn) succeeds (operation.unrecovered durable) telemetry
    · intro flushed generation
      cases generation
      exact ⟨telemetry ▸ le_sup_right,merged_generation index id _⟩
    · intro size last closing _
      exact closing
    · intro error last closing _
      exact closing
  · intro error after closing _
    exact closing

theorem keeps_replaceArtifacts (rested : Rested base) :
    Keeps (replaceArtifacts id) base (fun _ => Rests base) fun _ => Rests base := by
  apply keeps_ensured rested
  intro inode locked kept grip idle
  rw [keeps_bind,keeps_writeFiles]
  refine ⟨trivial,?_,fun error => rested.closing (kept.trans (Kept.fail locked)) (locked_holds grip) idle⟩
  intro _
  rw [keeps_bind]
  apply keeps_readKnown rested kept grip idle
  · intro durable bytes after kept known idle _
    apply keeps_commitDurable rested kept known idle
    · exact mayWrite_same (kept.drawn.trans rested.drawn)
    · intro flushed generation
      cases generation
    · intro size last closing _
      exact closing
    · intro error last closing _
      exact closing
  · intro error after closing _
    exact closing

variable {next : InvocationState} {completion : InvocationCompletion}

theorem keeps_loseEvidence (closing : Closing ⟨.mutation id,inode⟩ base phase) (lost : phase.Knows id none) :
    Keeps (loseEvidence id next termination summary) phase
      (fun _ => Closing ⟨.mutation id,inode⟩ base) fun _ => Closing ⟨.mutation id,inode⟩ base := by
  have gone : ∃ manifest, phase.Knows id manifest ∧ ∀ durable, manifest = some durable → durable.ended = true := by
    refine ⟨none,lost,?_⟩
    intro durable never
    cases never
  rw [loseEvidence,keeps_bind,keeps_unixTimestampMs]
  intro now
  have closing := closing.clocked now
  rw [keeps_bind,keeps_update]
  refine ⟨.inl lost,?_⟩
  intro result
  have ended : Keeps (MonadExcept.ofExcept result : Op π Unit) {phase with clock := some now}
      (fun _ => Closing ⟨.mutation id,inode⟩ base) fun _ => Closing ⟨.mutation id,inode⟩ base := by
    cases result with
    | ok done | error error => exact closing
  split
  · rw [keeps_bind,keeps_act]
    exact ⟨gone,fun _ => ended⟩
  · exact ended

theorem transition_keeps {header record : InvocationHeader} {now : Int} (moved : header.transition next now = some record) :
    header.state.isTerminal = false ∧ record.id = header.id ∧ record.state = next ∧ record.metrics = header.metrics := by
  unfold InvocationHeader.transition at moved
  split at moved
  · rename_i valid
    cases moved
    exact ⟨(InvocationState.validateTransition_source valid).1,rfl,rfl,rfl⟩
  · cases moved

theorem succeeds_unended {cause : Cause} (running : read.ended = false)
    (named : written.invocation.id = read.invocation.id) (kept : written.deferred = none → read.deferred = none)
    (recovers : cause = .recovery → written.invocation.state = .interrupted) : Succeeds cause read written :=
  ⟨named,fun ended => absurd (ended.symm.trans running) (by decide),fun none => .inl (kept none),fun same => ⟨running,recovers same⟩⟩

section
variable (rested : Rested base)
include rested

theorem keeps_commitTransition {read written : DurableRecord} {generation : Nat} (kept : Kept base phase)
    (known : phase.grip = .knows ⟨.mutation id,inode⟩ (some read)) (idle : phase.refresh = .idle)
    (may : phase.MayWrite id written .change (some read)) (flushes : phase.Flushes id written generation)
    (entered : written.invocation.state = next) :
    Keeps (commitTransition id read written generation next termination summary) phase
      (fun _ => Closing ⟨.mutation id,inode⟩ base) fun _ => Closing ⟨.mutation id,inode⟩ base := by
  have held := knows_holds known
  rw [commitTransition,keeps_bind,keeps_attempt]
  apply keeps_persistDurable ⟨inode,known⟩ may (kept.raised.trans rested.raised) idle
  · intro size retained after wrote
    rw [keeps_bind,keeps_publishChange]
    refine ⟨wrote.refresh.trans idle,?_,fun error => wrote.fault known kept idle⟩
    intro _
    rw [keeps_bind,keeps_update]
    have closing := wrote.closing known kept idle rested
    refine ⟨wrote.mayReplace known (fun flushed same => Option.some.inj same ▸ flushes) retained,?_⟩
    intro _
    split
    · rename_i terminal
      rw [keeps_act]
      refine ⟨⟨_,⟨inode,wrote.knows known⟩,?_⟩,fun _ => closing⟩
      intro durable same
      cases same
      rw [← entered] at terminal
      exact terminal
    · exact closing
  · intro error other
    have closing : Closing ⟨.mutation id,inode⟩ base phase.fail := rested.closing (kept.trans (Kept.fail phase)) held idle
    split <;> first | exact closing | simp_all
  · exact keeps_loseEvidence (rested.bereft kept known idle) (bereft_knows known)

theorem keeps_transition : Keeps (transition id next termination summary) base (fun _ => Rests base) fun _ => Rests base := by
  apply keeps_ensured rested
  intro inode locked kept grip idle
  rw [keeps_bind,keeps_attempt]
  apply keeps_readManifest grip idle
  · intro durable bytes after read known idle _ _
    rw [keeps_bind,keeps_readIndex]
    intro index
    have kept := (kept.trans read).trans (Kept.snapped after index)
    have closing := rested.closing kept (knows_holds known) idle
    have merged := merged_telemetry index id durable.invocation.metrics
    rw [keeps_bind,keeps_unixTimestampMs]
    intro now
    have kept := kept.trans (Kept.clocked _ now)
    split
    · exact closing.clocked now
    rename_i record moved
    obtain ⟨running,named,entered,metrics⟩ := transition_keeps moved
    have telemetry : (transitioned durable record next termination summary now).telemetry =
        durable.telemetry ⊔ telemetryAt index id := (congrArg Store.telemetry metrics).trans merged
    have deferred : (transitioned durable record next termination summary now).deferred = none → durable.deferred = none := by
      unfold transitioned
      split
      · exact Option.map_eq_none_iff.mp
      · intro none
        exact none
    have may : Phase.MayWrite {after.snapped index with clock := some now} id
        (transitioned durable record next termination summary now) .change (some durable) :=
      mayWrite_merged (kept.drawn.trans rested.drawn) (succeeds_unended running named deferred nofun) nofun telemetry
    have flushes : Phase.Flushes {after.snapped index with clock := some now} id (transitioned durable record next termination summary now)
        (mergeIndexTelemetry index id durable.invocation.metrics).2 :=
      ⟨telemetry ▸ le_sup_right,merged_generation index id _⟩
    split
    · rw [keeps_bind,keeps_writeFiles]
      refine ⟨⟨durable,⟨inode,known⟩,running⟩,?_,fun error => rested.closing (kept.trans (Kept.fail _)) (knows_holds known) idle⟩
      intro _
      exact keeps_commitTransition rested kept known idle may flushes entered
    · exact keeps_commitTransition rested kept known idle may flushes entered
  · intro after read known idle _ _
    exact keeps_loseEvidence (rested.closing (kept.trans read) (knows_holds known) idle) ⟨inode,known⟩
  · intro error other
    have closing := rested.closing (kept.trans (Kept.fail locked)) (locked_holds grip) idle
    split <;> first | exact closing | simp_all

theorem keeps_getInvocationHeader : Keeps (getInvocationHeader id) base (fun _ => Rests base) fun _ => Rests base := by
  rw [getInvocationHeader,keeps_bind]
  apply keeps_ensureInvocation rested.grip rested.raised rested.refresh
  · intro after stays idle
    rw [keeps_bind,keeps_readIndex]
    intro index
    split
    · exact rested.stays (stays.snapped index) idle
    · exact rested.stays (stays.snapped index) idle
  · intro error after stays idle
    exact rested.stays stays idle

theorem keeps_completeInvocation
    (terminal : completion.state.isTerminal = true) (offered : telemetry completion.metrics ≤ base.offered) :
    Keeps (completeInvocation id completion) base (fun _ => Rests base) fun _ => Rests base := by
  apply keeps_ensured rested
  intro inode locked kept grip idle
  rw [keeps_bind]
  apply keeps_readKnown rested kept grip idle
  · intro durable bytes after kept known idle _
    rw [keeps_bind,keeps_unixTimestampMs]
    intro now
    have kept := kept.trans (Kept.clocked after now)
    split
    · exact rested.closing kept (knows_holds known) idle
    rename_i record moved
    obtain ⟨running,named,entered,_⟩ := transition_keeps moved
    rw [keeps_bind,keeps_readIndex]
    intro index
    have taken : (snapped {after with clock := some now} index).taken = true := by
      rw [known]
      rfl
    have kept := kept.trans (Kept.snapped _ index)
    have merged : (completed durable record completion (mergeIndexTelemetry index id completion.metrics).1 now).telemetry =
        telemetry completion.metrics ⊔ telemetryAt index id := merged_telemetry index id completion.metrics
    have failing := rested.closing (kept.trans (Kept.fail _)) (knows_holds known) idle
    rw [keeps_bind,keeps_writeFiles]
    refine ⟨trivial,?_,fun error => failing⟩
    intro _
    rw [keeps_bind,keeps_writeFiles]
    refine ⟨⟨durable,⟨inode,known⟩,running⟩,?_,fun error => failing⟩
    intro _
    rw [keeps_bind]
    apply keeps_commitDurable rested kept known idle
    · refine ⟨kept.drawn.trans rested.drawn,succeeds_unended running named Option.map_eq_none_iff.mp nofun,
        ⟨?_,.inr ⟨taken,merged ▸ le_sup_right⟩⟩,nofun⟩
      rw [merged,kept.offered]
      exact sup_le (le_sup_of_le_right offered) (le_sup_of_le_left le_sup_right)
    · intro flushed generation
      cases generation
      exact ⟨merged ▸ le_sup_right,merged_generation index id _⟩
    · intro size last closing knows
      rw [keeps_act]
      refine ⟨⟨_,knows,?_⟩,fun _ => closing⟩
      intro written same
      cases same
      rw [← entered] at terminal
      exact terminal
    · intro error last closing _
      exact closing
  · intro error after closing _
    exact closing

theorem keeps_finishInvocation (offered : telemetry completion.metrics ≤ base.offered) :
    Keeps (finishInvocation id completion) base (fun _ => Rests base) fun _ => Rests base := by
  unfold finishInvocation
  split
  · rename_i terminal
    exact keeps_completeInvocation rested terminal offered
  · rw [keeps_bind]
    exact keeps_getInvocationHeader rested

end

theorem Rested.reads {entered : Phase π} (rested : Rested base) (stays : Stays base entered) (idle : entered.refresh = .idle)
    (answer : Except StoreError (DurableRecord × Nat)) :
    Stays base (entered.read id answer) ∧ (entered.read id answer).refresh = .idle := by
  have free : entered.grip = .empty := stays.grip.trans rested.grip
  have unheld : (entered.read id answer).grip = .empty := by
    unfold Phase.read
    split
    · simp [saw,free,Grip.saw]
    · simp [saw,free,Grip.saw]
    · exact free
  exact ⟨⟨stays.toKept.trans (Kept.read entered id answer),unheld.trans rested.grip.symm⟩,read_idle idle⟩

theorem keeps_readHydratedInvocation (rested : Rested base) :
    Keeps (readHydratedInvocation id) base (fun _ => Rests base) fun _ => Rests base := by
  apply keeps_withMutationLock
  rw [keeps_bind]
  apply keeps_ensureInvocation rested.grip rested.raised rested.refresh
  · intro entered stays idle
    rw [keeps_bind,keeps_readDurable]
    refine ⟨?_,?_⟩
    · intro ⟨durable,bytes⟩
      obtain ⟨stays,idle⟩ := rested.reads stays idle (.ok (durable,bytes))
      rw [keeps_bind,keeps_readDetails]
      exact ⟨fun details => rested.stays stays idle,fun error => rested.stays stays.fail idle⟩
    · intro error
      obtain ⟨stays,idle⟩ := rested.reads stays idle (.error error)
      exact rested.stays stays idle
  · intro error after stays idle
    exact rested.stays stays idle

theorem keeps_getDeferredResult {retrieval : DeferredRetrieval} {nowMs : Int} (rested : Rested base) :
    Keeps (getDeferredResult id retrieval nowMs) base (fun _ => Rests base) fun _ => Rests base := by
  rw [getDeferredResult,keeps_bind]
  apply keeps_ensureInvocation rested.grip rested.raised rested.refresh
  · intro entered stays idle
    rw [keeps_bind,keeps_readIndex]
    intro index
    have rests := rested.stays (stays.snapped index) idle
    split
    · exact rests
    rename_i entry _
    split
    · exact rests
    rename_i deferred _
    split
    · rename_i isExpired
      have timely : (dropDeferred nowMs deferred).Timely := by
        simp only [DeferredResultRecord.isExpired,Bool.and_eq_true,decide_eq_true_eq] at isExpired
        exact isExpired.2
      rw [keeps_bind]
      exact rests.continued (keeps_mutate rests.toRested timely)
    · split
      · exact rests
      split
      · rw [keeps_bind]
        exact rests.continued (keeps_readHydratedInvocation rests.toRested)
      · exact rests
  · intro error after stays idle
    exact rested.stays stays idle

/-! ### Telemetry -/

theorem Written.quiet {before after : Phase π} (wrote : Written id (some read) written before after)
    (rested : Rested base) (kept : Kept base before) (known : before.grip = .knows ⟨.mutation id,inode⟩ (some read))
    (idle : before.refresh = .idle) (same : read.surface = written.surface)
    (merged : written.telemetry ≤ read.telemetry ⊔ telemetryAt before.snapshot id) : Closing ⟨.mutation id,inode⟩ base after where
  toCarried := kept.toCarried.trans wrote.toCarried
  held := knows_holds (wrote.knows known)
  refresh := wrote.refresh.trans idle
  raised raised := by
    have calm := wrote.unraised fun durable isRead => Option.some.inj isRead ▸ merged
    rw [calm] at raised
    cases raised
  drawn := wrote.drawn
  debts := by
    obtain ⟨published,indexed⟩ := wrote.unowed (congrArg some same)
    rw [published,indexed,wrote.failed,kept.owesPublish,kept.owesIndex]
    exact rested.debts.imp_left kept.failed
  looping := by
    rw [wrote.looping]
    exact kept.looping

section
variable (rested : Rested base)
include rested

theorem keeps_flushEntry {entry : IndexEntry} (kept : Kept base phase)
    (locked : phase.grip = .locked ⟨.mutation id,inode⟩) (idle : phase.refresh = .idle)
    (present : phase.snapshot.lookup id = some entry) : Keeps (flushEntry id entry) phase
      (fun clean after => Closing ⟨.mutation id,inode⟩ base after ∧ (clean = true → after.looping ≠ some id))
      fun _ after => Closing ⟨.mutation id,inode⟩ base after ∧ after.Missed id := by
  rw [flushEntry,keeps_bind]
  apply keeps_readKnown rested kept locked idle
  · intro durable bytes after kept known idle snapshot
    have seen : after.snapshot.lookup id = some entry := snapshot ▸ present
    have merged : ({durable with invocation := mergeInto entry.record.metrics durable.invocation} : DurableRecord).telemetry =
        durable.telemetry ⊔ telemetryAt after.snapshot id := by
      rw [telemetryAt,seen]
      rfl
    have may : after.MayWrite id {durable with invocation := mergeInto entry.record.metrics durable.invocation} .change
        (some durable) :=
      mayWrite_merged (kept.drawn.trans rested.drawn) ⟨rfl,fun _ => rfl,.inl,nofun⟩ nofun merged
    rw [keeps_bind]
    apply keeps_persistDurable ⟨inode,known⟩ may (kept.raised.trans rested.raised) idle
    · intro size retained last wrote
      have closing := wrote.quiet rested kept known idle rfl merged.le
      rw [keeps_bind,keeps_publishChange]
      refine ⟨wrote.refresh.trans idle,?_,fun error => ⟨wrote.fault known kept idle,.inl rfl⟩⟩
      intro _
      have closing : Closing ⟨.mutation id,inode⟩ base {last with owesPublish := []} :=
        {closing with debts := closing.debts.imp_right fun paid => ⟨rfl,paid.2⟩}
      rw [keeps_bind,keeps_update]
      refine ⟨⟨_,⟨inode,wrote.knows known⟩,?_,?_⟩,?_⟩
      · change telemetryAt last.snapshot id ≤ _
        rw [wrote.snapshot]
        exact merged ▸ le_sup_right
      · change _ = generationAt last.snapshot id
        rw [wrote.snapshot,generationAt,seen]
        rfl
      intro reply
      have clean : Closing ⟨.mutation id,inode⟩ base {last with owesPublish := [], looping := last.looping.filter (· ≠ id)} ∧
          (true = true → last.looping.filter (· ≠ id) ≠ some id) := by
        refine ⟨{closing with looping := filter_kept closing.looping _},?_⟩
        intro _ still
        simpa using (Option.filter_eq_some_iff.mp still).2
      cases reply with
      | none => exact clean
      | some settled =>
        cases settled with
        | true => exact clean
        | false => exact ⟨closing,nofun⟩
    · intro error _
      exact ⟨rested.closing (kept.trans (Kept.fail _)) (knows_holds known) idle,.inl rfl⟩
    · exact ⟨rested.bereft kept known idle,.inl rfl⟩
  · intro error after closing missed
    exact ⟨closing,missed⟩

/-- After a flush that left nothing behind the task has no flush to make for the invocation;
a flush that failed met the disk, a foreign manifest or no manifest. -/
theorem keeps_flushTelemetryOnce : Keeps (flushTelemetryOnce id) base
    (fun clean after => Rests base after ∧ (clean = true → after.looping ≠ some id))
    fun _ after => Rests base after ∧ (after.Spoiled ∨ id ∈ after.lost) := by
  rw [flushTelemetryOnce,keeps_bind]
  apply keeps_refreshIndexIfStale rested.grip rested.raised rested.refresh
  · intro entered stays idle
    apply keeps_withMutationLock
    rw [keeps_bind,keeps_readIndex]
    intro index
    have done (settled : (index.lookup id).any (·.telemetryFlushScheduled) = false) :
        (entered.snapped index).looping ≠ some id := by
      intro still
      have due := (Option.filter_eq_some_iff.mp still).2
      rw [settled] at due
      cases due
    have stays := stays.snapped index
    split
    · rename_i absent
      exact ⟨rested.stays stays idle,fun _ => done (by simp [absent])⟩
    rename_i entry present
    split
    · rename_i unscheduled
      refine ⟨rested.stays stays idle,fun _ => done ?_⟩
      rw [present]
      simpa using unscheduled
    apply keeps_section rested stays idle
    · intro error
      exact ⟨rested.stays stays.fail idle,.inl (.inl rfl)⟩
    intro inode locked kept grip idle snapshot
    apply (keeps_flushEntry rested kept grip idle (snapshot ▸ present)).weaken
    · intro clean last ⟨closing,settled⟩
      exact ⟨closing,fun rests => ⟨rests,settled⟩⟩
    · intro error last ⟨closing,missed⟩
      exact ⟨closing,fun rests => ⟨rests,missed.imp_left .inl⟩⟩
  · intro error after stays idle spoiled
    exact ⟨rested.stays stays idle,.inl spoiled⟩

/-- The scheduled task ends once a flush leaves nothing behind, or gives its flag back. -/
theorem follows_scheduleTelemetryFlush (due : base.looping = some id ∨ base.looping = none) :
    Follows (discipline π) (scheduleTelemetryFlush id rounds) base fun _ after => Rests base after ∧ after.looping = none := by
  induction rounds generalizing base with
  | zero =>
    rw [scheduleTelemetryFlush,follows_bind,follows_perform]
    exact ⟨trivial,nofun⟩
  | succ rounds ih =>
    rw [scheduleTelemetryFlush,follows_bind]
    have flushes : Keeps (flushTelemetryOnce id) base (fun clean after => Rests base after ∧ (clean = true → after.looping ≠ some id))
        fun _ after => Rests base after ∧ (after.Spoiled ∨ id ∈ after.lost) := keeps_flushTelemetryOnce rested
    apply Follows.weaken flushes
    intro result after holds
    have still (rests : Rests base after) : after.looping = some id ∨ after.looping = none := by
      rcases rests.looping with same | none
      · rw [same]
        exact due
      · exact .inr none
    cases result with
    | ok clean =>
      obtain ⟨rests,settled⟩ := holds
      cases clean with
      | true => exact ⟨rests,(still rests).resolve_left (settled rfl)⟩
      | false =>
        apply (ih rests.toRested (still rests)).weaken
        intro _ last ⟨further,ended⟩
        exact ⟨rests.trans further,ended⟩
    | error error =>
      obtain ⟨rests,spoiled⟩ := holds
      rw [follows_perform]
      refine ⟨?_,fun _ => ⟨{rests with looping := .inr rfl},rfl⟩⟩
      rcases spoiled with (failed | corrupt) | lost
      · exact .inl failed
      · exact .inr (.inl corrupt)
      · exact .inr (.inr lost)

theorem keeps_recordTelemetry {recording : Recording} (idle : base.looping = none) :
    Keeps (recordTelemetry id recording rounds) base (fun _ => Rests base) fun _ => Rests base := by
  rw [recordTelemetry,keeps_bind]
  apply keeps_refreshIndexIfStale rested.grip rested.raised rested.refresh
  · intro entered stays unbusy
    have rests := rested.stays stays unbusy
    rw [keeps_bind,keeps_update]
    refine ⟨rests.ended idle,?_⟩
    intro reply
    cases reply with
    | none => exact rests
    | some schedule =>
      cases schedule with
      | false => exact rests
      | true =>
        change Keeps (ExceptT.lift (scheduleTelemetryFlush id rounds)) {entered with looping := some id} _ _
        rw [keeps_lift]
        have scheduled : Rested {entered with looping := some id} := {rests.toRested with}
        apply (follows_scheduleTelemetryFlush scheduled (.inl rfl)).weaken
        intro _ after ⟨flushed,ended⟩
        exact {flushed with toCarried := rests.toCarried.trans {flushed.toCarried with}, looping := .inr ended}
  · intro error after stays idle _
    exact rested.stays stays idle

theorem keeps_flushUntilClean : Keeps (flushUntilClean id rounds) base (fun _ => Rests base) fun _ => Rests base := by
  induction rounds generalizing base with
  | zero =>
    rw [flushUntilClean,keeps_bind,keeps_act]
    exact ⟨trivial,nofun⟩
  | succ rounds ih =>
    rw [flushUntilClean,keeps_bind]
    apply (keeps_flushTelemetryOnce rested).weaken
    · intro clean after ⟨rests,_⟩
      split
      · exact rests
      · exact rests.continued (ih rests.toRested)
    · intro error after ⟨rests,_⟩
      exact rests

theorem keeps_flushAll {ids : List Uuid} : Keeps (flushAll rounds ids) base (fun _ => Rests base) fun _ => Rests base := by
  induction ids generalizing base with
  | nil => exact ⟨rested,Carried.refl base,.inl rfl⟩
  | cons id rest ih =>
    rw [flushAll,keeps_bind]
    apply (keeps_flushUntilClean rested).mono
    intro _ after rests
    exact rests.continued (ih rests.toRested)

theorem keeps_flushPendingTelemetry : Keeps (flushPendingTelemetry rounds) base (fun _ => Rests base) fun _ => Rests base := by
  rw [flushPendingTelemetry,keeps_bind,keeps_readIndex]
  intro index
  have rests := rested.stays ((Stays.refl base).snapped index) rested.refresh
  exact rests.continued (keeps_flushAll rests.toRested)

end

end Operations
end BazelMcp.Store

import BazelMcp.IndexSets
import BazelMcp.StoreOperations
import BazelMcp.Typestate

/-! The discipline that every store operation keeps: what it has to know before it
writes a manifest, changes the index or ends. A manifest is written by a task that
holds the mutation lock file and knows the manifest; the index takes over what the
task wrote; a refresh installs what it read; what was written is announced. -/
namespace BazelMcp.Store
open StoreIndex Tasks Typestate

/-! ### What a task has got to -/

abbrev Counters := Nat × Nat × Nat

def telemetry (metrics : InvocationMetrics) : Counters :=
  (metrics.modelVisibleBytes,metrics.progressNotifications,metrics.inspectCalls)

def DurableRecord.telemetry (durable : DurableRecord) : Counters := Store.telemetry durable.invocation.metrics

namespace Index

def telemetryAt (index : Index) (id : Uuid) : Counters := (index.lookup id).elim ⊥ fun entry => telemetry entry.record.metrics

def generationAt (index : Index) (id : Uuid) : Nat := (index.lookup id).elim 0 IndexEntry.telemetryGeneration

end Index

/-- A record and its deferred result apart from the telemetry. -/
abbrev Surface := InvocationHeader × Option DeferredResultRecord

def surface (record : InvocationHeader) (deferred : Option DeferredResultRecord) : Surface :=
  ({ record with metrics := { record.metrics with
      modelVisibleBytes := 0
      progressNotifications := 0
      inspectCalls := 0 } },deferred)

def DurableRecord.surface (durable : DurableRecord) : Surface := Store.surface durable.invocation durable.deferred

def entrySurface (entry : IndexEntry) : Surface := surface entry.record entry.deferred

def DurableRecord.ended (durable : DurableRecord) : Bool := durable.invocation.state.isTerminal

abbrev Ending := InvocationState × Option Int × Option Termination × Option InvocationSummaryHeader × Option RunSummary

def DurableRecord.ending (durable : DurableRecord) : Ending :=
  (durable.invocation.state,durable.invocation.finishedAtMs,durable.invocation.termination,durable.invocation.summary,
    durable.invocation.run)

/-- How a task stands to a mutation lock file: it may know the manifest that the file protects. -/
inductive Grip where
  | empty
  | opened (file : LockFile)
  | locked (file : LockFile)
  | knows (file : LockFile) (manifest : Option DurableRecord)

namespace Grip

def saw (id : Uuid) (manifest : Option DurableRecord) : Grip → Grip
  | .locked file => if file.path = .mutation id then .knows file manifest else .locked file
  | .knows file known => if file.path = .mutation id then .knows file manifest else .knows file known
  | grip => grip

def wrote (manifest : Option DurableRecord) : Grip → Grip
  | .knows file _ => .knows file manifest
  | grip => grip

def forgot : Grip → Grip
  | .knows file _ => .locked file
  | grip => grip

def knowing : Grip → Bool
  | .knows .. => true
  | _ => false

def guards (id : Uuid) : Grip → Bool
  | .locked file | .knows file _ => file.path = .mutation id
  | _ => false

def Holds (file : LockFile) : Grip → Prop
  | .locked held => held = file
  | .knows held _ => held = file
  | _ => False

end Grip

/-- How far a refresh has got: the markers it saw, what is left to load and what was loaded. -/
inductive Refresh (π : Type) where
  | idle
  | begun (changes : Changes π)
  | loading (changes : Changes π) (remaining : List Uuid) (known : Uuid → Option DurableRecord)
  | installed (changes : Changes π)

def Refresh.saw {π : Type} (id : Uuid) (manifest : Option DurableRecord) : Refresh π → Refresh π
  | .loading changes remaining known => .loading changes (remaining.erase id) (Function.update known id manifest)
  | refresh => refresh

structure Phase (π : Type) where
  grip : Grip := .empty
  -- The identifier that the task is to draw, the one that is drawn and not yet written, and the one it drew at all.
  due : Option Uuid := none
  drawn : Option Uuid := none
  born : Option Uuid := none
  -- Locks beside those of manifests: a file that is opened, the owner lock and the maintenance lock.
  pending : Option LockFile := none
  owning : Option LockFile := none
  maintaining : Option Nat := none
  -- The time as read since the lock file is held.
  clock : Option Int := none
  -- Invocations looked at for recovery, those seen to have ended or gone, and those with an owner.
  scanned : List Uuid := []
  settled : List Uuid := []
  skipped : List Uuid := []
  responded : Bool := false
  -- The index as last read, and whether it was read since the manifest is known.
  snapshot : Index := {}
  taken : Bool := false
  -- The counters a completion brings along, and whether a write went beyond manifest and index.
  offered : Counters := ⊥
  raised : Bool := false
  owesPublish : List Uuid := []
  owesIndex : List Uuid := []
  deleted : List Uuid := []
  lost : List Uuid := []
  refresh : Refresh π := .idle
  looping : Option Uuid := none
  failed : Bool := false
  corrupt : Bool := false

variable {π : Type}

namespace Phase

def fail (phase : Phase π) : Phase π := {phase with failed := true}

def saw (phase : Phase π) (id : Uuid) (manifest : Option DurableRecord) : Phase π :=
  {phase with grip := phase.grip.saw id manifest, refresh := phase.refresh.saw id manifest}

def opened (phase : Phase π) (path : LockPath) : Except StoreError Nat → Phase π
  | .error _ => phase.fail
  | .ok inode =>
    match path with
    | .mutation id => {phase with grip := .opened ⟨.mutation id,inode⟩}
    | path => {phase with pending := some ⟨path,inode⟩}

-- Nobody but the task that drew an identifier can have written its manifest.
def acquired (phase : Phase π) (file : LockFile) : Phase π :=
  match file.path with
  | .mutation id => {phase with grip := if phase.drawn = some id then .knows file none else .locked file, clock := none}
  | .owner _ => {phase with owning := some file, pending := none}
  | .maintenance => {phase with maintaining := some file.inode, pending := none}

def released (phase : Phase π) (file : LockFile) : Phase π :=
  match file.path with
  | .mutation _ => {phase with grip := .empty, taken := false, raised := false}
  | .owner _ => {phase with owning := none}
  | .maintenance => {phase with maintaining := none}

def denied (phase : Phase π) (file : LockFile) : Phase π :=
  match file.path with
  | .mutation _ => {phase with grip := .empty, taken := false, raised := false}
  | .owner id => {phase with skipped := id::phase.skipped, pending := none}
  | .maintenance => {phase with pending := none}

def settling (phase : Phase π) (id : Uuid) (ended : Bool) : List Uuid := if ended then id::phase.settled else phase.settled

def read (phase : Phase π) (id : Uuid) : Except StoreError (DurableRecord × Nat) → Phase π
  | .ok (durable,_) =>
    { phase.saw id (some durable) with
      corrupt := phase.corrupt || decide (durable.invocation.id ≠ id)
      settled := phase.settling id (durable.ended && phase.grip.guards id) }
  | .error (.io .notFound) =>
    { phase.saw id none with
      lost := id::phase.lost
      settled := phase.settling id (phase.grip.guards id) }
  | .error _ => phase.fail

def owing (phase : Phase π) (id : Uuid) : Phase π :=
  {phase with owesPublish := id::phase.owesPublish, owesIndex := id::phase.owesIndex}

def wrote (phase : Phase π) (id : Uuid) (read : Option DurableRecord) (written : DurableRecord) :
    Except StoreError Nat → Phase π
  | .ok _ =>
    let owing := if read.map DurableRecord.surface = some written.surface then phase else phase.owing id
    { owing with
      grip := phase.grip.wrote (some written)
      drawn := none
      settled := phase.settling id written.ended
      raised := read.any fun read => ¬ written.telemetry ≤ read.telemetry ⊔ Index.telemetryAt phase.snapshot id }
  | .error (.io .notFound) => {phase.fail with grip := phase.grip.wrote none}
  | .error _ => phase.fail

def trashed (phase : Phase π) (id : Uuid) : Except StoreError Bool → Phase π
  | .ok true => {phase.owing id with grip := phase.grip.wrote none, deleted := id::phase.deleted}
  | .ok false => phase
  | .error _ => phase.fail

def listed (phase : Phase π) : Except StoreError {ids : List Uuid // ids.Nodup} → Phase π
  | .error _ => phase.fail
  | .ok ids =>
    match phase.refresh with
    | .begun changes => {phase with refresh := .loading changes ids.val fun _ => none}
    | _ => phase

def begun (phase : Phase π) : Except StoreError (Option (Changes π)) → Phase π
  | .error _ => phase.fail
  | .ok none => phase
  | .ok (some changes) => {phase with refresh := .begun changes}

def used {α : Type} (phase : Phase π) : Except StoreError α → Phase π
  | .error _ => phase.fail
  | .ok _ => phase

def published (phase : Phase π) : Except StoreError Unit → Phase π
  | .error _ => phase.fail
  | .ok _ => {phase with owesPublish := []}

def snapped (phase : Phase π) (index : Index) : Phase π :=
  { phase with
    snapshot := index
    taken := phase.grip.knowing
    looping := phase.looping.filter fun id => (index.lookup id).any (·.telemetryFlushScheduled) }

def committed (phase : Phase π) (id : Uuid) : Phase π :=
  {phase with owesIndex := phase.owesIndex.filter (· ≠ id), raised := false}

def updated (phase : Phase π) : (change : IndexUpdate) → change.Reply → Phase π
  | .insert id _, _ | .replace id _ _, _ | .remove id, _ => phase.committed id
  | .replaceAll _, _ => {phase with owesIndex := []}
  | .record id _, some true => {phase with looping := some id}
  | .record .., _ => phase
  | .flushed .., some false => phase
  | .flushed id .., _ => {phase with looping := phase.looping.filter (· ≠ id)}
  | .unschedule _, _ => {phase with looping := none}
  | .install _, _ =>
    match phase.refresh with
    | .loading changes _ _ => {phase with refresh := .installed changes}
    | _ => phase
  | .lose .., _ | .remeasure .., _ => phase

def advance (phase : Phase π) : (act : Act π) → Answer act → Phase π
  | .draw id, _ => {phase with drawn := some id, born := some id}
  | .openLock path, answer => phase.opened path answer
  | .lock file, _ | .tryLock file, true => phase.acquired file
  | .tryLock file, false => phase.denied file
  | .unlock file, _ => phase.released file
  | .retainOwner .., _ | .abandonOwner .., _ => {phase with owning := none}
  | .scan, ids => {phase with scanned := ids, settled := [], skipped := []}
  | .respond _, _ => {phase with responded := true}
  | .readManifest id, answer => phase.read id answer
  | .writeManifest id read written _, answer => phase.wrote id read written answer
  | .renameToTrash id _ _, answer => phase.trashed id answer
  | .removeDirectory _, _ => {phase with grip := phase.grip.forgot}
  | .listInvocations, answer => phase.listed answer
  | .writeFiles .., answer => phase.used answer
  | .readDetails _, answer => phase.used answer
  | .evidenceSize _, some _ => phase
  | .evidenceSize _, none => phase.fail
  | .unixTimestampMs, now => {phase with clock := some now}
  | .beginRefresh _, answer => phase.begun answer
  | .commitRefresh _, _ | .abandonRefresh, _ => {phase with refresh := .idle}
  | .publish, answer => phase.published answer
  | .readIndex, index => phase.snapped index
  | .update change, reply => phase.updated change reply
  | .begin, _ | .unlink _, _ | .mutationLock _, _ | .lockMutex _, _ | .unlockMutex _, _ | .releaseOwner _, _
  | .claimCheck, _ | .stall, _ | .crash, _ => phase

/-! ### What it may do -/

def Knows (phase : Phase π) (id : Uuid) (manifest : Option DurableRecord) : Prop :=
  ∃ inode, phase.grip = .knows ⟨.mutation id,inode⟩ manifest

/-- The counters a write may bring: none beyond manifest, index and completion, and none lost. -/
def Accounts (phase : Phase π) (id : Uuid) (read written : DurableRecord) : Prop :=
  written.telemetry ≤ read.telemetry ⊔ Index.telemetryAt phase.snapshot id ⊔ phase.offered ∧
    (read.telemetry ≤ written.telemetry ∨ phase.taken = true ∧ Index.telemetryAt phase.snapshot id ≤ written.telemetry)

/-- Each invocation that was looked at has ended, is gone or has an owner. -/
def Accounted (phase : Phase π) : Prop := ∀ id ∈ phase.scanned, id ∈ phase.settled ∨ id ∈ phase.skipped

def Owns (phase : Phase π) (id : Uuid) : Prop := ∃ inode, phase.owning = some ⟨.owner id,inode⟩

end Phase

/-- How a manifest may follow another: an ending stays, and a deferred record goes only
when it was seen to be expired. -/
structure Succeeds (cause : Cause) (read written : DurableRecord) : Prop where
  named : written.invocation.id = read.invocation.id
  ending : read.ended = true → written.ending = read.ending
  deferred : written.deferred = none → read.deferred = none ∨
    ∃ nowMs seen, cause = .expiry nowMs seen ∧ seen.expiresAtMs ≤ nowMs
  recovered : cause = .recovery → read.ended = false ∧ written.invocation.state = .interrupted

namespace Phase

def MayWrite (phase : Phase π) (id : Uuid) (written : DurableRecord) (cause : Cause) : Option DurableRecord → Prop
  | none => phase.drawn = some id ∧ written.invocation.id = id ∧ cause = .change ∧ (written.ended = false → phase.Owns id)
  | some read => phase.drawn = none ∧ Succeeds cause read written ∧ phase.Accounts id read written ∧
    (cause = .recovery → phase.Owns id ∧ phase.maintaining ≠ none ∧ phase.born = none)

/-- The invocation has ended and no deferred result is promised any more. -/
def MayTrash (phase : Phase π) (durable : DurableRecord) (nowMs : Int) : Prop :=
  phase.clock = some nowMs ∧ durable.ended = true ∧ ∀ deferred, durable.deferred = some deferred → deferred.expiresAtMs ≤ nowMs

def MayLock (phase : Phase π) (file : LockFile) : Prop :=
  match file.path with
  | .mutation _ => phase.grip = .opened file
  | .owner id => phase.pending = some file ∧ phase.owning = none ∧ (phase.drawn = some id ∨ phase.maintaining ≠ none)
  | .maintenance => phase.pending = some file ∧ phase.maintaining = none ∧ phase.born = none

def MayUnlock (phase : Phase π) (file : LockFile) : Prop :=
  match file.path with
  | .mutation _ => phase.grip.Holds file ∧ (phase.raised = true → phase.failed = true)
  | .owner _ => phase.owning = some file ∧ phase.born = none
  | .maintenance => phase.maintaining = some file.inode ∧ phase.owning = none

/-- The entry shows the manifest that the task knows, and was announced; only a deletion may still be to announce. -/
def Shows (phase : Phase π) (id : Uuid) (entry : IndexEntry) (durable : DurableRecord) : Prop :=
  phase.Knows id (some durable) ∧ (∃ bytes, entry = durable.indexEntry bytes) ∧
    (id ∈ phase.owesPublish → id ∈ phase.deleted ∨ phase.failed = true)

/-- The manifest holds the telemetry of the snapshot, which was of this generation. -/
def Flushes (phase : Phase π) (id : Uuid) (durable : DurableRecord) (generation : Nat) : Prop :=
  Index.telemetryAt phase.snapshot id ≤ durable.telemetry ∧ generation = Index.generationAt phase.snapshot id

end Phase

/-- The index holds an entry for each manifest that is known, and is as it has to be. -/
def Loads (known : Uuid → Option DurableRecord) (index : Index) : Prop :=
  Exact index ∧ ∀ id, ∃ bytes, index.lookup id = (known id).map (·.indexEntry bytes)

namespace Phase

def MayUpdate (phase : Phase π) : IndexUpdate → Prop
  | .insert id entry => ∃ durable, phase.Shows id entry durable
  | .replace id entry generation => ∃ durable, phase.Shows id entry durable ∧
    ∀ flushed, generation = some flushed → phase.Flushes id durable flushed
  | .replaceAll recovered => (∀ id ∈ phase.owesIndex, id ∈ recovered.map Prod.fst ∨ phase.failed = true) ∧
    ∀ id ∈ recovered.map Prod.fst, id ∈ phase.scanned
  | .remove id => phase.Knows id none
  | .lose id .. => phase.Knows id none ∨ phase.failed = true
  | .record .. => phase.looping = none
  | .flushed id _ generation => ∃ durable, phase.Knows id (some durable) ∧ phase.Flushes id durable generation
  | .unschedule id => phase.failed = true ∨ phase.corrupt = true ∨ id ∈ phase.lost
  | .install refreshed => ∃ changes known loaded, phase.refresh = .loading changes [] known ∧ Loads known loaded ∧
    refreshed = StoreIndex.Index.mergePendingTelemetry phase.snapshot loaded
  | .remeasure .. => True

def Allowed (phase : Phase π) : Act π → Prop
  | .begin => phase.owesPublish = [] ∧ phase.owesIndex = [] ∧ phase.looping = none
  | .draw id => phase.grip = .empty ∧ phase.refresh = .idle ∧ phase.drawn = none ∧ phase.born = none ∧
    phase.maintaining = none ∧ phase.owning = none ∧ phase.due = some id
  | .openLock (.mutation _) => phase.grip = .empty
  | .lock file | .tryLock file => phase.MayLock file
  | .unlock file => phase.MayUnlock file
  | .unlink (.mutation id) | .unlink (.owner id) => id ∈ phase.deleted
  | .unlink .maintenance => False
  | .retainOwner id inode | .abandonOwner id inode => phase.owning = some ⟨.owner id,inode⟩ ∧ phase.born = some id
  | .releaseOwner id => ∃ manifest, phase.Knows id manifest ∧ ∀ durable, manifest = some durable → durable.ended = true
  | .scan => phase.maintaining ≠ none ∧ phase.responded = false ∧ phase.scanned = []
  | .respond succeeded => succeeded = true → phase.Accounted
  | .writeManifest id read written cause =>
    phase.Knows id read ∧ phase.MayWrite id written cause read ∧ phase.raised = false ∧ phase.refresh = .idle
  | .renameToTrash id read nowMs => phase.Knows id (some read) ∧ phase.refresh = .idle ∧ phase.MayTrash read nowMs
  | .writeFiles id (.details _) => ∃ read, phase.Knows id (some read) ∧ read.ended = false
  | .removeDirectory id => phase.failed = true ∧ phase.responded = false ∧ phase.born = some id ∧ ∃ manifest, phase.Knows id manifest
  | .listInvocations => ∃ changes, phase.refresh = .begun changes
  | .beginRefresh _ | .publish => phase.refresh = .idle
  | .commitRefresh changes => phase.refresh = .installed changes
  | .abandonRefresh => phase.refresh ≠ .idle ∧ ∀ changes, phase.refresh ≠ .installed changes
  | .update change => phase.MayUpdate change
  | _ => True

/-- A task that ends owes nothing, unless an access to the disk failed. -/
def Finished (phase : Phase π) : Prop :=
  (phase.failed = true ∨ phase.owesPublish = [] ∧ phase.owesIndex = []) ∧ phase.looping = none

end Phase

def discipline (π : Type) : Discipline (Act π) Answer (Phase π) where
  allowed := Phase.Allowed
  advance := Phase.advance

end BazelMcp.Store

import BazelMcp.StoreIndex
import BazelMcp.Tasks
import Mathlib.Data.Fintype.Pi
import Mathlib.Data.List.Sort

/-! A cache that several store processes share: manifests, lock files and change
markers on disk, and in each process an index, the markers it has observed and its
locks. What a task does between two await points is one act. -/
namespace BazelMcp.Store
open StoreIndex Tasks Function

inductive ErrorKind where
  | notFound
  | alreadyExists
  | other
  deriving DecidableEq

inductive StoreError where
  | notFound
  | deferredNotFound
  | state
  | corruptRecord
  | io (kind : ErrorKind)
  deriving DecidableEq

structure DurableRecord where
  invocation : InvocationHeader
  deferred : Option DeferredResultRecord := none
  payloadBytes : Nat := 0
  deriving DecidableEq

def DurableRecord.indexEntry (durable : DurableRecord) (retainedBytes : Nat) : IndexEntry where
  record := durable.invocation
  deferred := durable.deferred
  retainedBytes := retainedBytes

/-! ### Updates of an index -/

/-- What a caller adds to the telemetry of an invocation. -/
inductive Recording where
  | modelVisible (bytes : Nat) (inspection : Bool)
  | progress (count : Nat)
  deriving DecidableEq

def Recording.accumulate : Recording → InvocationMetrics → InvocationMetrics
  | .modelVisible bytes inspection, metrics =>
    { metrics with
      modelVisibleBytes := saturatingAdd metrics.modelVisibleBytes bytes
      inspectCalls := if inspection then saturatingAdd metrics.inspectCalls 1 else metrics.inspectCalls }
  | .progress count, metrics => {metrics with progressNotifications := saturatingAdd metrics.progressNotifications count}

def markDirty (entry : IndexEntry) : IndexEntry :=
  { entry with
    telemetryGeneration := saturatingAdd entry.telemetryGeneration 1
    telemetryFlushScheduled := true }

def recordInto (recording : Recording) (entry : IndexEntry) : IndexEntry :=
  markDirty {entry with record := {entry.record with metrics := recording.accumulate entry.record.metrics}}

namespace Index

def modify (index : Index) (id : Uuid) (change : IndexEntry → IndexEntry) : Index :=
  {index with entries := StoreIndex.Index.mapEntries (fun key entry => if key = id then change entry else entry) index.entries}

def recount (index : Index) (id : Uuid) (bytes : Nat) : Index :=
  match index.lookup id with
  | some entry =>
    { modify index id ({· with retainedBytes := bytes}) with
      retainedBytes := saturatingAdd (index.retainedBytes - entry.retainedBytes) bytes }
  | none => index

def markTelemetryFlushed (index : Index) (id : Uuid) (generation : Nat) : Index :=
  modify index id fun entry =>
    if entry.telemetryGeneration = generation then {entry with telemetryFlushScheduled := false} else entry

def mergeIndexTelemetry (index : Index) (id : Uuid) (metrics : InvocationMetrics) : InvocationMetrics × Nat :=
  match index.lookup id with
  | some entry => (mergeTelemetry entry.record.metrics metrics,entry.telemetryGeneration)
  | none => (metrics,0)

/-- The identifiers in the order of the map that holds the entries. -/
def ids (index : Index) : List Uuid := index.entries.keys.insertionSort (· ≤ ·)

def select (index : Index) (chosen : IndexEntry → Bool) : List Uuid :=
  (ids index).filter fun id => (index.lookup id).any chosen

def nonterminalIds (index : Index) : List Uuid := select index fun entry => !entry.record.state.isTerminal

/-- The invocation goes on without its manifest: only the index knows its new state. -/
def transitionLostEvidence (index : Index) (id : Uuid) (next : InvocationState) (termination : Option Termination)
    (summary : Option InvocationSummary) (now : Int) : Except StoreError Index :=
  match index.lookup id with
  | none => .error .notFound
  | some entry =>
    match entry.record.transition next now with
    | none => .error .state
    | some record =>
      .ok (index.replace id
        { record := { record with
            termination := termination
            summary := summary.map InvocationSummaryHeader.fromSummary }
          deferred := none
          retainedBytes := 0 })

end Index

/-- What is done to an index under its write lock. -/
inductive IndexUpdate where
  | insert (id : Uuid) (entry : IndexEntry)
  | replace (id : Uuid) (entry : IndexEntry) (generation : Option Nat)
  | replaceAll (recovered : List (Uuid × IndexEntry))
  | remove (id : Uuid)
  | lose (id : Uuid) (next : InvocationState) (termination : Option Termination) (summary : Option InvocationSummary) (now : Int)
  | remeasure (id : Uuid) (bytes : Nat)
  | record (id : Uuid) (recording : Recording)
  | flushed (id : Uuid) (bytes generation : Nat)
  | unschedule (id : Uuid)
  | install (refreshed : Index)

namespace IndexUpdate

@[reducible] def Reply : IndexUpdate → Type
  | .lose .. => Except StoreError Unit
  | .record .. | .flushed .. => Option Bool
  | _ => Unit

def apply (index : Index) : IndexUpdate → Index
  | .insert id entry => index.insert id entry
  | .replace id entry none => index.replace id entry
  | .replace id entry (some generation) => Index.markTelemetryFlushed (index.replace id entry) id generation
  | .replaceAll recovered => recovered.foldl (fun index entry => index.replace entry.1 entry.2) index
  | .remove id => index.remove id
  | .lose id next termination summary now =>
    match Index.transitionLostEvidence index id next termination summary now with
    | .ok index => index
    | .error _ => index
  -- Running evidence is measured again; an invocation that ended meanwhile keeps its count.
  | .remeasure id bytes =>
    if (index.lookup id).any fun entry => !entry.record.state.isTerminal then Index.recount index id bytes else index
  | .record id recording => Index.modify index id (recordInto recording)
  | .flushed id bytes generation => Index.markTelemetryFlushed (Index.recount index id bytes) id generation
  | .unschedule id => Index.modify index id ({· with telemetryFlushScheduled := false})
  | .install refreshed => refreshed

/-- A recording is told whether it has to schedule a flush, a flush whether nothing was recorded meanwhile. -/
def reply (index : Index) : (change : IndexUpdate) → change.Reply
  | .lose id next termination summary now =>
    (Index.transitionLostEvidence index id next termination summary now).map fun _ => ()
  | .record id _ => (index.lookup id).map fun entry => !entry.telemetryFlushScheduled
  | .flushed id _ generation => (index.lookup id).map fun entry => decide (entry.telemetryGeneration = generation)
  | .insert .. | .replace .. | .replaceAll .. | .remove .. | .remeasure .. | .unschedule .. | .install .. => ()

/-- What is recorded by the update, if the invocation is known. -/
def recorded (index : Index) : IndexUpdate → List (Uuid × Recording)
  | .record id recording => ((index.lookup id).map fun _ => (id,recording)).toList
  | _ => []

end IndexUpdate

/-! ### The shared state -/

inductive LockPath where
  | owner (id : Uuid)
  | mutation (id : Uuid)
  | maintenance
  deriving DecidableEq

/-- A lock file that was opened: a path may be unlinked and created again. -/
structure LockFile where
  path : LockPath
  inode : Nat
  deriving DecidableEq

/-- Why a manifest is written or removed, where that matters: a deferred record that was
seen to be expired, an invocation without an owner, or its age. -/
inductive Cause where
  | change
  | expiry (nowMs : Int) (seen : DeferredResultRecord)
  | recovery
  | retention (nowMs : Int)
  deriving DecidableEq

/-- A manifest that was written, beside the one its writer had read; no manifest once the directory is gone. -/
structure Write where
  id : Uuid
  read : Option DurableRecord
  written : Option DurableRecord
  cause : Cause
  deriving DecidableEq

structure InvocationDetails where
  targets : List TargetResult := []
  tests : List TestResult := []
  coverageFiles : List CoverageFile := []
  deriving DecidableEq

namespace InvocationDetails

def fromSummary : Option InvocationSummary → InvocationDetails
  | none => {}
  | some summary =>
    { targets := summary.targets
      tests := summary.tests
      coverageFiles := (summary.coverage.map CoverageSummary.files).getD [] }

def isEmpty (details : InvocationDetails) : Bool :=
  details.targets.isEmpty && details.tests.isEmpty && details.coverageFiles.isEmpty

end InvocationDetails

/-- What is done to the files beside a manifest. -/
inductive Files where
  | directory
  | artifacts
  | rawEvidence
  | details (details : InvocationDetails)
  deriving DecidableEq

/-- A look for orphans: the invocations that had not ended, and which processes lived then. -/
structure Scan (ι π : Type) where
  task : ι
  ids : List Uuid
  alive : π → Bool

/-- What the clock and the evidence files show at some moment, and which directories
a traversal meets although they appear only while it runs. -/
structure Outside where
  unixTimestampMs : Int := 0
  evidenceSize : Nat := 0
  appearing : List Uuid := []

/-- The markers that a listing of the change directory found. -/
abbrev Changes (π : Type) := π → Option Nat

structure World (ι π : Type) where
  manifests : AList (fun _ : Uuid => DurableRecord) := ∅
  drawn : List Uuid := []
  inodes : LockPath → Nat := fun _ => 0
  holders : LockFile → Option ι := fun _ => none
  -- Every publication gives a process's marker a new name; names are counted.
  markers : π → Nat := fun _ => 0
  alive : π → Bool := fun _ => true
  index : π → Index := fun _ => {}
  observed : π → Changes π := fun _ _ => none
  changing : π → Option ι := fun _ => none
  leases : π → Uuid → Option Nat := fun _ _ => none
  -- The registry of weak mutexes: the mutex of an invocation lives while a task refers to it.
  registry : π → Uuid → Option Nat := fun _ _ => none
  strong : Nat → Nat := fun _ => 0
  guarded : Nat → Bool := fun _ => false
  mutexes : Nat := 0
  encodedLength : DurableRecord → Nat := fun _ => 0
  outside : Nat → Outside := fun _ => {}
  moment : Nat := 0
  details : Uuid → Option InvocationDetails := fun _ => none
  -- Who drew an identifier, which creations were given up, what was looked for and how tasks ended.
  creators : Uuid → Option π := fun _ => none
  abandoned : List Uuid := []
  scans : List (Scan ι π) := []
  responses : ι → Option Bool := fun _ => none
  writes : List Write := []
  recordings : List (Uuid × Recording) := []

inductive Act (π : Type) where
  | begin
  | draw (id : Uuid)
  | openLock (path : LockPath)
  | lock (file : LockFile)
  | tryLock (file : LockFile)
  | unlock (file : LockFile)
  | unlink (path : LockPath)
  | mutationLock (id : Uuid)
  | lockMutex (mutex : Nat)
  | unlockMutex (mutex : Nat)
  | retainOwner (id : Uuid) (inode : Nat)
  | releaseOwner (id : Uuid)
  | abandonOwner (id : Uuid) (inode : Nat)
  | scan
  | respond (succeeded : Bool)
  | listInvocations
  | readManifest (id : Uuid)
  | writeManifest (id : Uuid) (read : Option DurableRecord) (written : DurableRecord) (cause : Cause)
  | renameToTrash (id : Uuid) (read : DurableRecord) (nowMs : Int)
  | removeDirectory (id : Uuid)
  | writeFiles (id : Uuid) (files : Files)
  | readDetails (id : Uuid)
  | evidenceSize (id : Uuid)
  | unixTimestampMs
  | claimCheck
  | beginRefresh (force : Bool)
  | commitRefresh (changes : Changes π)
  | abandonRefresh
  | publish
  | readIndex
  | update (change : IndexUpdate)
  | stall
  | crash

variable {ι π : Type}

@[reducible] def Answer : Act π → Type
  | .openLock _ => Except StoreError Nat
  | .tryLock _ | .claimCheck => Bool
  | .mutationLock _ => Nat
  | .scan => List Uuid
  | .listInvocations => Except StoreError {ids : List Uuid // ids.Nodup}
  | .readManifest _ => Except StoreError (DurableRecord × Nat)
  | .writeManifest .. => Except StoreError Nat
  | .evidenceSize _ => Option Nat
  | .renameToTrash .. => Except StoreError Bool
  | .writeFiles .. | .publish => Except StoreError Unit
  | .readDetails _ => Except StoreError InvocationDetails
  | .unixTimestampMs => Int
  | .beginRefresh _ => Except StoreError (Option (Changes π))
  | .readIndex => Index
  | .update change => change.Reply
  | .stall => Empty
  | _ => Unit

namespace World

def manifest (world : World ι π) (id : Uuid) : Option DurableRecord := world.manifests.lookup id

def now (world : World ι π) : Outside := world.outside world.moment

def tick (world : World ι π) : World ι π := {world with moment := world.moment+1}

/-- What one listing of the change directory shows. -/
def changes (world : World ι π) : Changes π := fun publisher => some (world.markers publisher)

def hold [DecidableEq ι] (world : World ι π) (file : LockFile) (holder : Option ι) : World ι π :=
  {world with holders := update world.holders file holder}

def write (world : World ι π) (id : Uuid) (read : Option DurableRecord) (written : DurableRecord) (cause : Cause) : World ι π :=
  { world with
    manifests := world.manifests.insert id written
    writes := ⟨id,read,some written,cause⟩::world.writes }

/-- The directory goes with the manifest and what is beside it. -/
def erase (world : World ι π) (id : Uuid) (read : Option DurableRecord) (cause : Cause) : World ι π :=
  { world with
    manifests := world.manifests.erase id
    details := update world.details id none
    writes := ⟨id,read,none,cause⟩::world.writes }

/-- Empty details are not kept. -/
def placeFiles (world : World ι π) (id : Uuid) : Files → World ι π
  | .details details => {world with details := update world.details id (if details.isEmpty then none else some details)}
  | .directory | .artifacts | .rawEvidence => world

def mutationLock [DecidableEq π] (world : World ι π) (process : π) (id : Uuid) : Nat × World ι π :=
  let known := fun id => (world.registry process id).filter fun mutex => 0 < world.strong mutex
  match known id with
  | some mutex =>
    (mutex,{ world with
      registry := update world.registry process known
      strong := update world.strong mutex (world.strong mutex+1) })
  | none =>
    (world.mutexes,{ world with
      registry := update world.registry process (update known id (some world.mutexes))
      strong := update world.strong world.mutexes 1
      mutexes := world.mutexes+1 })

end World

section Effect
variable [DecidableEq ι] [DecidableEq π] [Fintype π] (home : ι → π)

/-- An access to the disk may fail and then changes nothing. -/
def orFault {α : Type} (world : World ι π) (outcome : Except StoreError α × World ι π) : List (Except StoreError α × World ι π) :=
  [outcome,(.error (.io .other),world)]

/-- The ways in which a task of a live process may complete an act; none while it has to wait. -/
def complete (task : ι) : (act : Act π) → World ι π → List (Answer act × World ι π)
  | .begin, world => [((),world)]
  -- Identifiers are drawn afresh for each request.
  | .draw id, world =>
    if id ∈ world.drawn then [] else
      [((),{ world with
        drawn := id::world.drawn
        creators := update world.creators id (some (home task)) })]
  | .openLock path, world => orFault world (.ok (world.inodes path),world)
  | .lock file, world => if world.holders file = none then [((),world.hold file (some task))] else []
  | .tryLock file, world => if world.holders file = none then [(true,world.hold file (some task))] else [(false,world)]
  | .unlock file, world => [((),world.hold file none)]
  -- A failure to unlink a lock file is ignored.
  | .unlink path, world => [((),{world with inodes := update world.inodes path (world.inodes path+1)}),((),world)]
  | .mutationLock id, world => [world.mutationLock (home task) id]
  | .lockMutex mutex, world =>
    if world.guarded mutex then [] else [((),{world with guarded := update world.guarded mutex true})]
  | .unlockMutex mutex, world =>
    [((),{ world with
      guarded := update world.guarded mutex false
      strong := update world.strong mutex (world.strong mutex-1) })]
  | .retainOwner id inode, world =>
    [((),{ world with
      leases := update world.leases (home task) (update (world.leases (home task)) id (some inode)) })]
  | .releaseOwner id, world =>
    match world.leases (home task) id with
    | none => [((),world)]
    | some inode =>
      [((),{ world.hold ⟨.owner id,inode⟩ none with
        leases := update world.leases (home task) (update (world.leases (home task)) id none) })]
  | .abandonOwner id inode, world => [((),{world.hold ⟨.owner id,inode⟩ none with abandoned := id::world.abandoned})]
  | .scan, world =>
    let ids := Index.nonterminalIds (world.index (home task))
    [(ids,{world with scans := ⟨task,ids,world.alive⟩::world.scans})]
  | .respond succeeded, world => [((),{world with responses := update world.responses task (some succeeded)})]
  | .listInvocations, world =>
    orFault world (.ok ⟨(world.manifests.keys ++ world.now.appearing).dedup,List.nodup_dedup _⟩,world.tick)
  | .readManifest id, world =>
    orFault world (match world.manifest id with
      | some durable => (.ok (durable,world.encodedLength durable),world)
      | none => (.error (.io .notFound),world))
  | .writeManifest id read written cause, world =>
    orFault world (if read.isSome ∧ world.manifest id = none then (.error (.io .notFound),world)
      else (.ok (world.encodedLength written),world.write id read written cause))
  | .renameToTrash id read nowMs, world =>
    orFault world (if world.manifest id = none then (.ok false,world) else (.ok true,world.erase id (some read) (.retention nowMs)))
  | .removeDirectory id, world =>
    [((),if world.manifest id = none then world else world.erase id (world.manifest id) .change),((),world)]
  | .writeFiles id files, world => orFault world (.ok (),world.placeFiles id files)
  | .readDetails id, world => orFault world (.ok ((world.details id).getD {}),world)
  -- Files that are missing count as empty, so that measuring never fails for their sake.
  | .evidenceSize _, world => [(some (min world.now.evidenceSize u64Max),world.tick),(none,world)]
  | .unixTimestampMs, world => [(world.now.unixTimestampMs,world.tick)]
  -- Whether the last check is long enough ago.
  | .claimCheck, world => [(true,world),(false,world)]
  | .beginRefresh force, world =>
    if world.changing (home task) = none then
      orFault world (if !force ∧ world.changes = world.observed (home task) then (.ok none,world)
        else (.ok (some world.changes),{world with changing := update world.changing (home task) (some task)}))
    else []
  | .commitRefresh changes, world =>
    [((),{ world with
      observed := update world.observed (home task) changes
      changing := update world.changing (home task) none })]
  | .abandonRefresh, world => [((),{world with changing := update world.changing (home task) none})]
  | .publish, world =>
    if world.changing (home task) = none then
      let name := world.markers (home task)+1
      orFault world (.ok (),{ world with
        markers := update world.markers (home task) name
        observed := update world.observed (home task)
          (update (world.observed (home task)) (home task) (some name)) })
    else []
  | .readIndex, world => [(world.index (home task),world)]
  | .update change, world =>
    let index := world.index (home task)
    [(change.reply index,{ world with
      index := update world.index (home task) (change.apply index)
      recordings := change.recorded index ++ world.recordings })]
  | .stall, _ => []
  -- The locks of a process that died are free again.
  | .crash, world =>
    [((),{ world with
      alive := update world.alive (home task) false
      holders := fun file => (world.holders file).filter fun holder => home holder ≠ home task })]

def effect (task : ι) (act : Act π) (world : World ι π) : List (Answer act × World ι π) :=
  if world.alive (home task) then complete home task act world else []

end Effect
end BazelMcp.Store

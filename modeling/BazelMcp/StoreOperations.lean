import BazelMcp.StoreWorld

/-! The operations of a store as programs of acts: refreshing the index, creating,
changing and completing an invocation, recording and flushing telemetry, and
retention with its recovery of orphaned invocations. -/
namespace BazelMcp.Store
open StoreIndex Tasks

abbrev Proc (π : Type) := Program (Act π) Answer

abbrev Op (π α : Type) := ExceptT StoreError (Proc π) α

variable {π α : Type}

def act (act : Act π) : Op π (Answer act) := ExceptT.lift (perform act)

/-- The outcome of an operation as a value. -/
def attempt (body : Op π α) : Op π (Except StoreError α) := ExceptT.lift body.run

/-- Runs the body and then, however it ended, the release of what it was guarded by. -/
def guarding (body : Op π α) (release : Act π) : Op π α :=
  ExceptT.mk (do
    let result ← body.run
    let _ ← perform release
    pure result)

def publishChange : Op π Unit := ExceptT.mk (perform Act.publish)
def readDurable (id : Uuid) : Op π (DurableRecord × Nat) := ExceptT.mk (perform (Act.readManifest id))
def writeManifest (id : Uuid) (read : Option DurableRecord) (written : DurableRecord) (cause : Cause) : Op π Nat :=
  ExceptT.mk (perform (Act.writeManifest id read written cause))
def renameToTrash (id : Uuid) (read : DurableRecord) (nowMs : Int) : Op π Bool :=
  ExceptT.mk (perform (Act.renameToTrash id read nowMs))
def listInvocations : Op π {ids : List Uuid // ids.Nodup} := ExceptT.mk (perform Act.listInvocations)
def evidencePayloadSize (id : Uuid) : Op π Nat := do
  match ← act (.evidenceSize id) with
  | some size => pure size
  | none => throw (.io .other)
def writeFiles (id : Uuid) (files : Files) : Op π Unit := ExceptT.mk (perform (Act.writeFiles id files))
def readDetails (id : Uuid) : Op π InvocationDetails := ExceptT.mk (perform (Act.readDetails id))
def beginRefresh (force : Bool) : Op π (Option (Changes π)) := ExceptT.mk (perform (Act.beginRefresh force))
def openLock (path : LockPath) : Op π Nat := ExceptT.mk (perform (Act.openLock path))
def tryLock (file : LockFile) : Op π Bool := act (.tryLock file)
def claimCheck : Op π Bool := act .claimCheck
def readIndex : Op π Index := act .readIndex
def unixTimestampMs : Op π Int := act .unixTimestampMs
def update (change : IndexUpdate) : Op π change.Reply := act (.update change)

/-! ### Locks -/

def openLockFile (path : LockPath) : Op π LockFile := do
  let inode ← openLock path
  pure ⟨path,inode⟩

def acquire (path : LockPath) : Op π LockFile := do
  let file ← openLockFile path
  act (.lock file)
  pure file

def tryAcquire (path : LockPath) : Op π (Option LockFile) := do
  let file ← openLockFile path
  if ← tryLock file then pure (some file) else pure none

/-- The body runs under the mutation mutex of the process. -/
def withMutationLock (id : Uuid) (body : Op π α) : Op π α := do
  let mutex ← act (.mutationLock id)
  act (.lockMutex mutex)
  guarding body (.unlockMutex mutex)

/-- The body runs under the mutation lock file, which is shared between processes. -/
def withProcessMutation (id : Uuid) (body : Op π α) : Op π α := do
  let file ← acquire (.mutation id)
  guarding body (.unlock file)

/-! ### Refreshing the index -/

def indexManifest (id : Uuid) (durable : DurableRecord) (manifestBytes : Nat) : Op π IndexEntry := do
  if durable.invocation.id ≠ id then throw .corruptRecord
  let payloadBytes ← if durable.invocation.state.isTerminal then pure durable.payloadBytes else evidencePayloadSize id
  pure ({durable with payloadBytes}.indexEntry (saturatingAdd payloadBytes manifestBytes))

def reloadDirectory (id : Uuid) : Op π (Option IndexEntry) := do
  match ← attempt (readDurable id) with
  | .ok (durable,manifestBytes) => some <$> indexManifest id durable manifestBytes
  | .error (.io .notFound) => pure none
  | .error error => throw error

/-- A directory without a manifest is left alone while its creator holds the mutation lock. -/
def loadDirectory (id : Uuid) : Op π (Option IndexEntry) := do
  match ← attempt (readDurable id) with
  | .ok (durable,manifestBytes) => some <$> indexManifest id durable manifestBytes
  | .error (.io .notFound) =>
    match ← tryAcquire (.mutation id) with
    | none => pure none
    | some file => guarding (reloadDirectory id) (.unlock file)
  | .error error => throw error

def loadFrom : List Uuid → Index → Op π Index
  | [], index => pure index
  | id::rest, index => do
    match ← loadDirectory id with
    | some entry => loadFrom rest (index.insert id entry)
    | none => loadFrom rest index

def loadIndex : Op π Index := do
  let ids ← listInvocations
  loadFrom ids.val {}

/-- The two sections of the index lock are separate: other tasks may run in between. -/
def replaceFromDisk (refreshed : Index) : Op π Unit := do
  let previous ← readIndex
  update (.install (StoreIndex.Index.mergePendingTelemetry previous refreshed))

def refreshIndex (force : Bool) : Op π Unit := do
  match ← beginRefresh force with
  | none => pure ()
  | some changes =>
    match ← attempt (loadIndex >>= replaceFromDisk) with
    | .ok _ => act (.commitRefresh changes)
    | .error error =>
      act .abandonRefresh
      throw error

def refreshIndexIfStale : Op π Unit := do
  if ← claimCheck then refreshIndex false

def ensureInvocation (id : Uuid) : Op π Unit := do
  refreshIndexIfStale
  if ((← readIndex).lookup id).isSome then pure ()
  else
    refreshIndex false
    if ((← readIndex).lookup id).isSome then pure () else throw .notFound

def getInvocationHeader (id : Uuid) : Op π InvocationHeader := do
  ensureInvocation id
  match (← readIndex).lookup id with
  | some entry => pure entry.record
  | none => throw .notFound

/-! ### Writing a manifest -/

/-- Writes the manifest, which replaces the one that was read, and counts the bytes kept. -/
def persistDurable (id : Uuid) (read : Option DurableRecord) (durable : DurableRecord) (recountPayload : Bool)
    (cause : Cause := .change) : Op π (DurableRecord × Nat) := do
  let payloadBytes ← if recountPayload then evidencePayloadSize id else pure durable.payloadBytes
  let durable := {durable with payloadBytes}
  let manifestBytes ← writeManifest id read durable cause
  pure (durable,saturatingAdd payloadBytes manifestBytes)

/-- A manifest is written, announced and shown in the index, in that order. -/
def commitDurable (id : Uuid) (read durable : DurableRecord) (recountPayload : Bool) (generation : Option Nat)
    (cause : Cause := .change) : Op π Unit := do
  let (durable,retainedBytes) ← persistDurable id (some read) durable recountPayload cause
  publishChange
  update (.replace id (durable.indexEntry retainedBytes) generation)

def announceManifest (record : InvocationHeader) (deferred : Option DeferredResultRecord) : Op π (DurableRecord × Nat) := do
  let persisted ← persistDurable record.id none {invocation := record, deferred := deferred} true
  publishChange
  pure persisted

/-- The directory of an invocation that cannot be announced is removed again. -/
def createManifest (record : InvocationHeader) (deferred : Option DeferredResultRecord) (owner : Option LockFile) : Op π Unit := do
  writeFiles record.id .directory
  match ← attempt (announceManifest record deferred) with
  | .error error =>
    act (.removeDirectory record.id)
    throw error
  | .ok (durable,retainedBytes) =>
    update (.insert record.id (durable.indexEntry retainedBytes))
    match owner with
    | some owner => act (.retainOwner record.id owner.inode)
    | none => pure ()

/-- A creation that failed gives the owner lock back. -/
def abandonCreation (id : Uuid) (error : StoreError) : Option LockFile → Op π Unit
  | some owner => do
    act (.abandonOwner id owner.inode)
    throw error
  | none => throw error

def createOwned (record : InvocationHeader) (deferred : Option DeferredResultRecord) (owner : Option LockFile) : Op π Unit := do
  match ← attempt (withProcessMutation record.id (createManifest record deferred owner)) with
  | .ok _ => pure ()
  | .error error => abandonCreation record.id error owner

/-- An invocation that has not ended is owned from its creation on. -/
def createInvocationWithDeferred (record : InvocationHeader) (deferred : Option DeferredResultRecord) : Op π Unit := do
  act (.draw record.id)
  refreshIndexIfStale
  withMutationLock record.id do
    if ((← readIndex).lookup record.id).isSome then throw (.io .alreadyExists)
    else if record.state.isTerminal then createOwned record deferred none
    else
      match ← tryAcquire (.owner record.id) with
      | some owner => createOwned record deferred (some owner)
      | none => throw (.io .alreadyExists)

/-- What a transition leaves of a manifest; the deferred result of an invocation that ends lives on for a while. -/
def transitioned (durable : DurableRecord) (record : InvocationHeader) (next : InvocationState)
    (termination : Option Termination) (summary : Option InvocationSummary) (now : Int) : DurableRecord :=
  { durable with
    invocation := { record with
      termination := termination
      summary := summary.map InvocationSummaryHeader.fromSummary }
    deferred := if next.isTerminal then durable.deferred.map (·.extendTerminalExpiry (record.finishedAtMs.getD now))
      else durable.deferred }

def loseEvidence (id : Uuid) (next : InvocationState) (termination : Option Termination)
    (summary : Option InvocationSummary) : Op π Unit := do
  let now ← unixTimestampMs
  let result ← update (.lose id next termination summary now)
  if next.isTerminal then act (.releaseOwner id)
  (MonadExcept.ofExcept result : Op π Unit)

/-- The write of a transition; a manifest that is gone by then is lost evidence. -/
def commitTransition (id : Uuid) (read durable : DurableRecord) (generation : Nat) (next : InvocationState)
    (termination : Option Termination) (summary : Option InvocationSummary) : Op π Unit := do
  match ← attempt (persistDurable id (some read) durable next.isTerminal) with
  | .ok (durable,retainedBytes) =>
    publishChange
    update (.replace id (durable.indexEntry retainedBytes) (some generation))
    if next.isTerminal then act (.releaseOwner id)
  | .error (.io .notFound) => loseEvidence id next termination summary
  | .error error => throw error

def transition (id : Uuid) (next : InvocationState) (termination : Option Termination)
    (summary : Option InvocationSummary) : Op π Unit :=
  withMutationLock id do
    ensureInvocation id
    withProcessMutation id do
      match ← attempt (readDurable id) with
      | .error (.io .notFound) => loseEvidence id next termination summary
      | .error error => throw error
      | .ok (durable,_) =>
        let (metrics,generation) := Index.mergeIndexTelemetry (← readIndex) id durable.invocation.metrics
        let now ← unixTimestampMs
        match {durable.invocation with metrics}.transition next now with
        | none => throw .state
        | some record =>
          if next.isTerminal then writeFiles id (.details (.fromSummary summary))
          commitTransition id durable (transitioned durable record next termination summary now) generation next termination summary

structure InvocationCompletion where
  state : InvocationState
  termination : Termination
  summary : InvocationSummary
  run : Option RunSummary := none
  metrics : InvocationMetrics := {}
  canonicalArguments : Option (List String) := none

/-- What a completion leaves of a manifest; its metrics replace those the manifest had. -/
def completed (durable : DurableRecord) (record : InvocationHeader) (completion : InvocationCompletion)
    (metrics : InvocationMetrics) (now : Int) : DurableRecord :=
  { durable with
    invocation := { record with
      termination := some completion.termination
      summary := some (InvocationSummaryHeader.fromSummary completion.summary)
      run := completion.run
      metrics := metrics
      canonicalArguments := completion.canonicalArguments }
    deferred := durable.deferred.map (·.extendTerminalExpiry (record.finishedAtMs.getD now)) }

def completeInvocation (id : Uuid) (completion : InvocationCompletion) : Op π Unit :=
  withMutationLock id do
    ensureInvocation id
    withProcessMutation id do
      let (durable,_) ← readDurable id
      let now ← unixTimestampMs
      match durable.invocation.transition completion.state now with
      | none => throw .state
      | some record =>
        let (metrics,generation) := Index.mergeIndexTelemetry (← readIndex) id completion.metrics
        writeFiles id .artifacts
        writeFiles id (.details (.fromSummary (some completion.summary)))
        commitDurable id durable (completed durable record completion metrics now) true (some generation)
        act (.releaseOwner id)

def finishInvocation (id : Uuid) (completion : InvocationCompletion) : Op π Unit := do
  if completion.state.isTerminal then completeInvocation id completion
  else
    let _ ← getInvocationHeader id
    throw .state

/-- The changes of a manifest that go through the common path. -/
inductive Mutation where
  | updateCancellationReason (reason : String)
  | dropDeferred (nowMs : Int) (seen : DeferredResultRecord)
  | recordDeferredCancellation (requestedAtMs : Int)
  | setDeferredTerminalOverride (state : DeferredTerminalState) (updatedAtMs : Int)
  | persistDeferredFailure (failure : DeferredFailure) (updatedAtMs : Int)
  | extendDeferredExpiry (minimumExpiresAtMs updatedAtMs : Int)
  | deleteExpired (nowMs : Int)
  deriving DecidableEq

namespace Mutation

def onDeferred (durable : DurableRecord) (updatedAtMs : Int) (change : DeferredResultRecord → DeferredResultRecord) :
    Except StoreError DurableRecord :=
  match durable.deferred with
  | none => .error .deferredNotFound
  | some deferred =>
    .ok {durable with deferred := some {change deferred with updatedAtMs := max deferred.updatedAtMs updatedAtMs}}

def apply (durable : DurableRecord) : Mutation → Except StoreError DurableRecord
  | .updateCancellationReason reason =>
    .ok {durable with invocation := {durable.invocation with cancellationReason := some reason}}
  | .dropDeferred .. => .ok {durable with deferred := none}
  | .recordDeferredCancellation requestedAtMs => onDeferred durable requestedAtMs fun deferred =>
    {deferred with cancellationRequestedAtMs := some (deferred.cancellationRequestedAtMs.getD requestedAtMs)}
  | .setDeferredTerminalOverride state updatedAtMs => onDeferred durable updatedAtMs
    ({· with terminalOverride := some state})
  | .persistDeferredFailure failure updatedAtMs => onDeferred durable updatedAtMs ({· with failure := some failure})
  | .extendDeferredExpiry minimumExpiresAtMs updatedAtMs => onDeferred durable updatedAtMs fun deferred =>
    {deferred with expiresAtMs := max deferred.expiresAtMs minimumExpiresAtMs}
  | .deleteExpired nowMs =>
    .ok (if durable.deferred.any (·.isExpired nowMs durable.invocation.state.isTerminal)
      then {durable with deferred := none} else durable)

/-- Two changes remove a deferred record that they take to be expired: one has seen it in
the index, the other sees it in the manifest. -/
def cause (durable : DurableRecord) : Mutation → Cause
  | .dropDeferred nowMs seen => .expiry nowMs seen
  | .deleteExpired nowMs =>
    match durable.deferred with
    | some deferred => if deferred.isExpired nowMs durable.invocation.state.isTerminal then .expiry nowMs deferred else .change
    | none => .change
  | _ => .change

def requested : Mutation → Bool
  | .dropDeferred .. | .deleteExpired _ => false
  | _ => true

end Mutation

def mutate (id : Uuid) (recountPayload : Bool) (operation : Mutation) : Op π Unit :=
  withMutationLock id do
    ensureInvocation id
    withProcessMutation id do
      let (durable,_) ← readDurable id
      let (metrics,generation) := Index.mergeIndexTelemetry (← readIndex) id durable.invocation.metrics
      match operation.apply {durable with invocation := {durable.invocation with metrics}} with
      | .error error => throw error
      | .ok changed => commitDurable id durable changed recountPayload (some generation) (operation.cause durable)

/-- The header from the manifest and the details beside it. -/
def readHydratedInvocation (id : Uuid) : Op π (InvocationHeader × InvocationDetails) :=
  withMutationLock id do
    ensureInvocation id
    let (durable,_) ← readDurable id
    let details ← readDetails id
    pure (durable.invocation,details)

/-- A deferred record that is expired in the index is removed from the manifest. -/
def getDeferredResult (id : Uuid) (retrieval : DeferredRetrieval) (nowMs : Int) :
    Op π (DeferredResultRecord × InvocationHeader × InvocationDetails) := do
  ensureInvocation id
  match (← readIndex).lookup id with
  | none => throw .notFound
  | some entry =>
    match entry.deferred with
    | none => throw .deferredNotFound
    | some deferred =>
      if deferred.isExpired nowMs entry.record.state.isTerminal then
        mutate id false (.dropDeferred nowMs deferred)
        throw .deferredNotFound
      else if deferred.retrieval ≠ retrieval then throw .deferredNotFound
      else if entry.record.state.isTerminal then
        let hydrated ← readHydratedInvocation id
        pure (deferred,hydrated)
      else pure (deferred,entry.record,{})

def replaceArtifacts (id : Uuid) : Op π Unit :=
  withMutationLock id do
    ensureInvocation id
    withProcessMutation id do
      writeFiles id .artifacts
      let (durable,_) ← readDurable id
      commitDurable id durable durable true none

/-! ### Telemetry -/

/-- Brings the telemetry of the entry to the manifest; it tells whether nothing was recorded meanwhile. -/
def flushEntry (id : Uuid) (entry : IndexEntry) : Op π Bool := do
  let (durable,_) ← readDurable id
  let (_,retainedBytes) ← persistDurable id (some durable)
    {durable with invocation := mergeInto entry.record.metrics durable.invocation} false
  publishChange
  match ← update (.flushed id retainedBytes entry.telemetryGeneration) with
  | none => pure true
  | some clean => pure clean

def flushTelemetryOnce (id : Uuid) : Op π Bool := do
  refreshIndexIfStale
  withMutationLock id do
    match (← readIndex).lookup id with
    | none => pure true
    | some entry => if !entry.telemetryFlushScheduled then pure true else withProcessMutation id (flushEntry id entry)

/-- The task that a recording schedules. It ends when a flush leaves nothing behind;
the number bounds its rounds, and a task that exceeds it is never done. -/
def scheduleTelemetryFlush (id : Uuid) : Nat → Proc π Unit
  | 0 => do
    let never ← perform Act.stall
    nomatch never
  | rounds+1 => do
    match ← (flushTelemetryOnce id).run with
    | .ok true => pure ()
    | .ok false => scheduleTelemetryFlush id rounds
    | .error _ => perform (Act.update (.unschedule id))

def recordTelemetry (id : Uuid) (recording : Recording) (rounds : Nat) : Op π Unit := do
  refreshIndexIfStale
  match ← update (.record id recording) with
  | none => throw .notFound
  | some schedule => if schedule then ExceptT.lift (scheduleTelemetryFlush id rounds) else pure ()

def flushUntilClean (id : Uuid) : Nat → Op π Unit
  | 0 => do
    let never ← act .stall
    nomatch never
  | rounds+1 => do
    if ← flushTelemetryOnce id then pure () else flushUntilClean id rounds

def flushAll (rounds : Nat) : List Uuid → Op π Unit
  | [] => pure ()
  | id::rest => do
    flushUntilClean id rounds
    flushAll rounds rest

def flushPendingTelemetry (rounds : Nat) : Op π Unit := do
  flushAll rounds (Index.select (← readIndex) (·.telemetryFlushScheduled))

/-! ### Recovery and retention -/

def interrupted (durable : DurableRecord) (now : Int) : DurableRecord :=
  { durable with
    invocation := { durable.invocation with
      state := .interrupted
      finishedAtMs := some now
      termination := some .interrupted
      summary := some
        { headline := "Invocation was interrupted when the previous server stopped"
          truncated := true
          inspectHint := some .log } }
    deferred := durable.deferred.map (·.extendTerminalExpiry now) }

def recoverManifest (id : Uuid) : Op π (Option (Uuid × IndexEntry)) := do
  match ← attempt (readDurable id) with
  | .error (.io .notFound) => pure none
  | .error error => throw error
  | .ok (durable,manifestBytes) =>
    if durable.invocation.state.isTerminal then
      pure (some (id,durable.indexEntry (saturatingAdd durable.payloadBytes manifestBytes)))
    else
      let now ← unixTimestampMs
      writeFiles id (.details {})
      let (durable,retainedBytes) ← persistDurable id (some durable) (interrupted durable now) true .recovery
      pure (some (id,durable.indexEntry retainedBytes))

/-- An invocation is an orphan if nobody holds its owner lock. -/
def recoverId (id : Uuid) : Op π (Option (Uuid × IndexEntry)) := do
  match ← tryAcquire (.owner id) with
  | none => pure none
  | some owner => guarding (withProcessMutation id (recoverManifest id)) (.unlock owner)

def recoverIds : List Uuid → Op π (List (Uuid × IndexEntry))
  | [] => pure []
  | id::rest => do
    let first ← recoverId id
    let others ← recoverIds rest
    pure (first.toList ++ others)

/-- The locks of the recovered invocations are free again before the index takes their entries over. -/
def recoverOrphanedInvocations : Op π Unit := do
  let recovered ← recoverIds (← act .scan)
  if recovered.isEmpty then pure ()
  else
    update (.replaceAll recovered)
    publishChange

def mutateEach (operation : Mutation) : List Uuid → Op π Unit
  | [] => pure ()
  | id::rest => do
    mutate id false operation
    mutateEach operation rest

def deleteExpiredDeferredResults (nowMs : Int) : Op π Unit := do
  refreshIndexIfStale
  mutateEach (.deleteExpired nowMs)
    (Index.select (← readIndex) fun entry => entry.deferred.any (·.isExpired nowMs entry.record.state.isTerminal))

structure ReclaimOutcome where
  changed : Bool := false
  deleted : Bool := false
  reclaimed : Bool := false
  deriving DecidableEq

/-- An invocation with a live deferred result loses its evidence only. -/
def reclaimManifest (id : Uuid) (durable : DurableRecord) (manifestBytes : Nat) : Op π ReclaimOutcome := do
  let before := saturatingAdd durable.payloadBytes manifestBytes
  let now ← unixTimestampMs
  if durable.deferred.any fun deferred => !deferred.isExpired now durable.invocation.state.isTerminal then
    writeFiles id .rawEvidence
    let (durable,retainedBytes) ← persistDurable id (some durable) durable true
    update (.replace id (durable.indexEntry retainedBytes) none)
    pure {changed := true, reclaimed := decide (retainedBytes < before)}
  else if ← renameToTrash id durable now then
    update (.remove id)
    pure {changed := true, deleted := true, reclaimed := true}
  else pure {}

def reclaimTerminal (id : Uuid) : Op π ReclaimOutcome :=
  withMutationLock id do
    withProcessMutation id do
      match ← attempt (readDurable id) with
      | .error (.io .notFound) => pure {}
      | .error error => throw error
      | .ok (durable,manifestBytes) =>
        if !durable.invocation.state.isTerminal then pure {} else reclaimManifest id durable manifestBytes

/-- How far a sweep has got: what it reclaimed and what it has not announced yet. -/
structure Sweep where
  reclaimed : Nat := 0
  pendingNotifications : Nat := 0
  pendingLockCleanup : List Uuid := []
  processed : List Uuid := []

def gcNotificationBatchSize : Nat := 64

def unlinkLocks : List Uuid → Op π Unit
  | [] => pure ()
  | id::rest => do
    act (.unlink (.owner id))
    act (.unlink (.mutation id))
    unlinkLocks rest

def publishRetentionBatch (sweep : Sweep) : Op π Sweep := do
  let change ← attempt publishChange
  unlinkLocks sweep.pendingLockCleanup
  match change with
  | .error error => throw error
  | .ok _ => pure {sweep with pendingNotifications := 0, pendingLockCleanup := []}

def reclaimRetentionCandidate (id : Uuid) (sweep : Sweep) : Op π Sweep := do
  match ← attempt (reclaimTerminal id) with
  | .error error =>
    if 0 < sweep.pendingNotifications then
      let _ ← publishRetentionBatch sweep
    throw error
  | .ok outcome =>
    let sweep := { sweep with
      reclaimed := sweep.reclaimed + outcome.reclaimed.toNat
      pendingLockCleanup := if outcome.deleted then sweep.pendingLockCleanup ++ [id] else sweep.pendingLockCleanup
      pendingNotifications := sweep.pendingNotifications + outcome.changed.toNat
      processed := id::sweep.processed }
    if outcome.changed ∧ gcNotificationBatchSize ≤ sweep.pendingNotifications then publishRetentionBatch sweep
    else pure sweep

def reclaimOld (cutoff : Int) : List Key → Sweep → Op π Sweep
  | [], sweep => pure sweep
  | key::rest, sweep => do
    if (ofLex key).1 ≤ cutoff then
      let sweep ← reclaimRetentionCandidate (ofLex key).2 sweep
      reclaimOld cutoff rest sweep
    else reclaimOld cutoff rest sweep

def reclaimUntil (lowWatermark : Nat) : List Key → Sweep → Op π Sweep
  | [], sweep => pure sweep
  | key::rest, sweep => do
    if (← readIndex).retainedBytes ≤ lowWatermark then pure sweep
    else if (ofLex key).2 ∈ sweep.processed then reclaimUntil lowWatermark rest sweep
    else
      let sweep ← reclaimRetentionCandidate (ofLex key).2 sweep
      reclaimUntil lowWatermark rest sweep

def remeasureEach : List Uuid → Op π Unit
  | [] => pure ()
  | id::rest => do
    let current ← evidencePayloadSize id
    update (.remeasure id current)
    remeasureEach rest

def gcLowWatermarkPercent : Nat := 80

def announceSweep (sweep : Sweep) : Op π Nat := do
  if 0 < sweep.pendingNotifications then
    let _ ← publishRetentionBatch sweep
  pure sweep.reclaimed

def sweepCandidates (cutoff : Int) (maximumBytes : Nat) (candidates : List Key) : Op π Nat := do
  let lowWatermark := min (maximumBytes*gcLowWatermarkPercent) u64Max / 100
  let sweep ← reclaimOld cutoff candidates {}
  if maximumBytes < (← readIndex).retainedBytes then
    let sweep ← reclaimUntil lowWatermark candidates sweep
    announceSweep sweep
  else announceSweep sweep

/-- Under the maintenance lock the index is loaded anew and orphans are looked for. -/
def refreshAndRecover : Op π Unit := do
  refreshIndex true
  recoverOrphanedInvocations

def reclaimCandidates (maximumAgeMs maximumBytes : Nat) : Op π Nat := do
  let now ← unixTimestampMs
  deleteExpiredDeferredResults now
  let cutoff := saturatingSubI64 now (min maximumAgeMs i64Max)
  remeasureEach (Index.nonterminalIds (← readIndex))
  -- Oldest first: the set hands its keys out from the greatest on.
  let candidates := (← readIndex).terminalByFinished.keys.reverse
  sweepCandidates cutoff maximumBytes candidates

def enforceRetention (maximumAgeMs maximumBytes : Nat) : Op π Nat := do
  match ← tryAcquire .maintenance with
  | none => pure 0
  | some maintenance =>
    guarding (do
      refreshAndRecover
      reclaimCandidates maximumAgeMs maximumBytes) (.unlock maintenance)

/-- A store that opens: its first index is loaded and orphans are looked for. -/
def openStore : Op π Unit := do
  let maintenance ← acquire .maintenance
  guarding refreshAndRecover (.unlock maintenance)

/-! ### Tasks -/

inductive Operation where
  | create (record : InvocationHeader) (deferred : Option DeferredResultRecord)
  | transition (id : Uuid) (next : InvocationState) (termination : Option Termination) (summary : Option InvocationSummary)
  | finish (id : Uuid) (completion : InvocationCompletion)
  | mutate (id : Uuid) (recountPayload : Bool) (operation : Mutation) (requested : operation.requested = true)
  | deferred (id : Uuid) (retrieval : DeferredRetrieval) (nowMs : Int)
  | replaceArtifacts (id : Uuid)
  | record (id : Uuid) (recording : Recording) (rounds : Nat)
  | flush (rounds : Nat)
  | refresh
  | header (id : Uuid)
  | retention (maximumAgeMs maximumBytes : Nat)
  | opening
  | crash

def Operation.body : Operation → Op π Unit
  | .create queued result => createInvocationWithDeferred queued result
  | .transition id next termination summary => Store.transition id next termination summary
  | .finish id completion => finishInvocation id completion
  | .mutate id recountPayload operation _ => Store.mutate id recountPayload operation
  | .deferred id retrieval nowMs => do
    let _ ← getDeferredResult id retrieval nowMs
  | .replaceArtifacts id => Store.replaceArtifacts id
  | .record id recording rounds => recordTelemetry id recording rounds
  | .flush rounds => flushPendingTelemetry rounds
  | .refresh => refreshIndexIfStale
  | .header id => do
    let _ ← getInvocationHeader id
  | .retention maximumAgeMs maximumBytes => do
    let _ ← enforceRetention maximumAgeMs maximumBytes
  | .opening => openStore
  | .crash => act .crash

/-- The task of an operation: it begins when it is first scheduled and tells how it ended. -/
def Operation.program (operation : Operation) : Proc π Unit := do
  perform Act.begin
  let result ← operation.body.run
  perform (Act.respond result.isOk)

def launch {ι : Type} (operations : ι → Operation) (world : World ι π) : Config (Act π) Answer (World ι π) ι where
  tasks task := (operations task).program
  state := world

def anyhow {ι : Type} (_ : ι) (act : Act π) (_ : World ι π) (_ : Answer act) (_ : World ι π) : Bool := true

end BazelMcp.Store

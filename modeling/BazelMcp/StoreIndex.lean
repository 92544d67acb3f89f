import BazelMcp.OrderedSet
import BazelMcp.Types
import BazelMcp.Uuid
import Mathlib.Data.List.AList
import Mathlib.Data.Prod.Lex

/-! The in-memory index of a store: the invocations' headers with their deferred
results, the ordered sets that listings and retention read, and the bytes kept.
Every operation maintains the sets beside the entries they are derived from. -/
namespace BazelMcp.StoreIndex

def u64Max : Nat := 0xFFFFFFFFFFFFFFFF
def i64Min : Int := -0x8000000000000000
def i64Max : Int := 0x7FFFFFFFFFFFFFFF

def saturatingAdd (left right : Nat) : Nat := min (left+right) u64Max

def saturatingAddI64 (left right : Int) : Int := max i64Min (min (left+right) i64Max)
def saturatingSubI64 (left right : Int) : Int := max i64Min (min (left-right) i64Max)

inductive DeferredRetrieval where
  | separateResult
  | inlineResult
  deriving DecidableEq

namespace DeferredRetrieval

def asStr : DeferredRetrieval → String
  | .separateResult => "separate_result"
  | .inlineResult => "inline_result"

end DeferredRetrieval

inductive DeferredTerminalState where
  | cancelled
  deriving DecidableEq

inductive DeferredFailureKind where
  | queue
  | execution
  | internal
  deriving DecidableEq

structure DeferredFailure where
  kind : DeferredFailureKind
  redactedMessage : String
  deriving DecidableEq

structure DeferredResultRecord where
  invocationId : Uuid
  retrieval : DeferredRetrieval
  createdAtMs : Int
  updatedAtMs : Int
  expiresAtMs : Int
  cancellationRequestedAtMs : Option Int := none
  terminalOverride : Option DeferredTerminalState := none
  failure : Option DeferredFailure := none
  deriving DecidableEq

namespace DeferredResultRecord

def new (invocationId : Uuid) (retrieval : DeferredRetrieval) (createdAtMs expiresAtMs : Int) : DeferredResultRecord where
  invocationId := invocationId
  retrieval := retrieval
  createdAtMs := createdAtMs
  updatedAtMs := createdAtMs
  expiresAtMs := max expiresAtMs (saturatingAddI64 createdAtMs 1)

def configuredTtlMs (record : DeferredResultRecord) : Int :=
  max (saturatingSubI64 record.expiresAtMs record.updatedAtMs) 1

def extendTerminalExpiry (record : DeferredResultRecord) (terminalAtMs : Int) : DeferredResultRecord :=
  let required := saturatingAddI64 terminalAtMs record.configuredTtlMs
  if required > record.expiresAtMs then
    {record with expiresAtMs := required, updatedAtMs := max terminalAtMs record.updatedAtMs}
  else record

def isExpired (record : DeferredResultRecord) (nowMs : Int) (invocationTerminal : Bool) : Bool :=
  invocationTerminal && record.expiresAtMs ≤ nowMs

end DeferredResultRecord

structure CoverageHeader where
  linesFound : Nat
  linesHit : Nat
  coveragePercent : UInt64
  deriving DecidableEq

/-- A summary without the collections that are kept in the detail file. -/
structure InvocationSummaryHeader where
  success : Bool := false
  headline : String := ""
  targetCounts : TargetCounts := {}
  diagnostics : List Diagnostic := []
  testCounts : TestCounts := {}
  coverage : Option CoverageHeader := none
  querySample : List QueryRow := []
  queryResultCount : Option Nat := none
  elapsedMs : Nat := 0
  truncated : Bool := false
  inspectHint : Option InspectHint := none
  deriving DecidableEq

def InvocationSummaryHeader.fromSummary (summary : InvocationSummary) : InvocationSummaryHeader where
  success := summary.success
  headline := summary.headline
  targetCounts := summary.targetCounts
  diagnostics := summary.diagnostics
  testCounts := summary.testCounts
  coverage := summary.coverage.map fun coverage => ⟨coverage.linesFound,coverage.linesHit,coverage.coveragePercent⟩
  querySample := summary.querySample
  queryResultCount := summary.queryResultCount
  elapsedMs := summary.elapsedMs
  truncated := summary.truncated
  inspectHint := summary.inspectHint

/-- The header of an invocation; the request carries its identifier as text. -/
structure InvocationHeader where
  id : Uuid
  request : InvocationRequest
  named : request.id = String.ofList id.text
  state : InvocationState := .queued
  startedAtMs : Option Int := none
  finishedAtMs : Option Int := none
  termination : Option Termination := none
  summary : Option InvocationSummaryHeader := none
  run : Option RunSummary := none
  metrics : InvocationMetrics := {}
  canonicalArguments : Option (List String) := none
  cancellationReason : Option String := none
  deriving DecidableEq

def InvocationHeader.transition (header : InvocationHeader) (next : InvocationState) (now : Int) :
    Option InvocationHeader :=
  if header.state.validateTransition next then
    some { header with
      startedAtMs := if next = .running then some now else header.startedAtMs
      finishedAtMs := if next.isTerminal then some now else header.finishedAtMs
      state := next }
  else none

structure IndexEntry where
  record : InvocationHeader
  deferred : Option DeferredResultRecord
  retainedBytes : Nat
  telemetryGeneration : Nat := 0
  telemetryFlushScheduled : Bool := false
  deriving DecidableEq

namespace IndexEntry

def requested (entry : IndexEntry) : Int := entry.record.request.requestedAtMs
def workspace (entry : IndexEntry) : String := entry.record.request.workspace
def created (entry : IndexEntry) : Option Int := entry.deferred.map DeferredResultRecord.createdAtMs

/-- When a terminal invocation finished; one without the time sorts first. -/
def finished (entry : IndexEntry) : Option Int :=
  if entry.record.state.isTerminal then some (entry.record.finishedAtMs.getD i64Min) else none

end IndexEntry

/-- The larger of each of the three telemetry counters. -/
def mergeTelemetry (source destination : InvocationMetrics) : InvocationMetrics :=
  { destination with
    modelVisibleBytes := max destination.modelVisibleBytes source.modelVisibleBytes
    progressNotifications := max destination.progressNotifications source.progressNotifications
    inspectCalls := max destination.inspectCalls source.inspectCalls }

def mergeInto (source : InvocationMetrics) (header : InvocationHeader) : InvocationHeader :=
  {header with metrics := mergeTelemetry source header.metrics}

/-- Times with identifiers, compared by time and then by identifier. -/
abbrev Key := Int ×ₗ Uuid

def key (time : Int) (id : Uuid) : Key := toLex (time,id)

structure Index where
  entries : AList (fun _ : Uuid => IndexEntry) := ∅
  byRequested : OrderedSet Key := ∅
  byWorkspace : String → Option (OrderedSet Key) := fun _ => none
  deferredByCreated : OrderedSet Key := ∅
  terminalByFinished : OrderedSet Key := ∅
  retainedBytes : Nat := 0

namespace Index

def lookup (index : Index) (id : Uuid) : Option IndexEntry := index.entries.lookup id

def addKey (keys : OrderedSet Key) (time : Option Int) (id : Uuid) : OrderedSet Key :=
  match time with
  | some time => keys.insert (key time id)
  | none => keys

def removeKey (keys : OrderedSet Key) (time : Option Int) (id : Uuid) : OrderedSet Key :=
  match time with
  | some time => keys.erase (key time id)
  | none => keys

def addSecondaryIndexes (index : Index) (id : Uuid) (entry : IndexEntry) : Index :=
  { index with
    byRequested := index.byRequested.insert (key entry.requested id)
    byWorkspace := Function.update index.byWorkspace entry.workspace
      (some (((index.byWorkspace entry.workspace).getD ∅).insert (key entry.requested id)))
    deferredByCreated := addKey index.deferredByCreated entry.created id
    terminalByFinished := addKey index.terminalByFinished entry.finished id }

def removeSecondaryIndexes (index : Index) (id : Uuid) (entry : IndexEntry) : Index :=
  { index with
    byRequested := index.byRequested.erase (key entry.requested id)
    byWorkspace := Function.update index.byWorkspace entry.workspace
      ((index.byWorkspace entry.workspace).bind fun keys =>
        let keys := keys.erase (key entry.requested id)
        if keys = ∅ then none else some keys)
    deferredByCreated := removeKey index.deferredByCreated entry.created id
    terminalByFinished := removeKey index.terminalByFinished entry.finished id }

/-- Puts the entry beside its keys and its bytes, whatever was there before. -/
def put (index : Index) (id : Uuid) (entry : IndexEntry) : Index :=
  { index.addSecondaryIndexes id entry with
    retainedBytes := saturatingAdd index.retainedBytes entry.retainedBytes
    entries := index.entries.insert id entry }

def insert (index : Index) (id : Uuid) (entry : IndexEntry) : Index := index.put id entry

/-- Takes an entry out with its keys and its bytes. -/
def take (index : Index) (id : Uuid) (entry : IndexEntry) : Index :=
  { index.removeSecondaryIndexes id entry with
    retainedBytes := index.retainedBytes - entry.retainedBytes
    entries := index.entries.erase id }

/-- The entry that replaces a previous one keeps its telemetry and its schedule. -/
def succeed (previous entry : IndexEntry) : IndexEntry :=
  { entry with
    record := mergeInto previous.record.metrics entry.record
    telemetryGeneration := previous.telemetryGeneration
    telemetryFlushScheduled := previous.telemetryFlushScheduled }

def replace (index : Index) (id : Uuid) (entry : IndexEntry) : Index :=
  match index.lookup id with
  | some previous => (index.take id previous).put id (succeed previous entry)
  | none => index.put id entry

def remove (index : Index) (id : Uuid) : Index :=
  match index.lookup id with
  | some entry => index.take id entry
  | none => index

/-- A loaded entry takes over the telemetry of the entry it stands for. -/
def inherit (previous : Option IndexEntry) (entry : IndexEntry) : IndexEntry :=
  match previous with
  | some previous => succeed previous entry
  | none => entry

def mapEntries (change : Uuid → IndexEntry → IndexEntry) (entries : AList (fun _ : Uuid => IndexEntry)) :
    AList (fun _ : Uuid => IndexEntry) where
  entries := entries.entries.map fun entry => ⟨entry.1,change entry.1 entry.2⟩
  nodupKeys := by
    have keys : (entries.entries.map fun entry => (⟨entry.1,change entry.1 entry.2⟩ : Sigma fun _ : Uuid => IndexEntry)).keys
        = entries.entries.keys := by simp [List.keys,Function.comp_def]
    rw [List.NodupKeys,keys]
    exact entries.nodupKeys

def mergePendingTelemetry (previous refreshed : Index) : Index :=
  {refreshed with entries := mapEntries (fun id => inherit (previous.lookup id)) refreshed.entries}

section Lookup
variable (index : Index) (id other : Uuid) (entry : IndexEntry)

@[simp] theorem lookup_empty : lookup {} id = none := rfl

@[simp] theorem lookup_put_self : (index.put id entry).lookup id = some entry := AList.lookup_insert _

theorem lookup_put_other (different : other ≠ id) : (index.put id entry).lookup other = index.lookup other :=
  AList.lookup_insert_ne different

@[simp] theorem lookup_take_self : (index.take id entry).lookup id = none := AList.lookup_erase _ _

theorem lookup_take_other (different : other ≠ id) : (index.take id entry).lookup other = index.lookup other :=
  AList.lookup_erase_ne different

theorem lookup_replace_other (different : other ≠ id) : (index.replace id entry).lookup other = index.lookup other := by
  unfold replace
  cases index.lookup id with
  | some previous =>
    rw [lookup_put_other _ _ _ _ different,lookup_take_other _ _ _ _ different]
  | none => exact lookup_put_other _ _ _ _ different

@[simp] theorem lookup_remove_self : (index.remove id).lookup id = none := by
  unfold remove
  cases found : index.lookup id with
  | some previous => exact lookup_take_self _ _ _
  | none => exact found

theorem lookup_remove_other (different : other ≠ id) : (index.remove id).lookup other = index.lookup other := by
  unfold remove
  cases index.lookup id with
  | some previous => exact lookup_take_other _ _ _ _ different
  | none => rfl

theorem lookup_mapEntries (change : Uuid → IndexEntry → IndexEntry) (entries : AList (fun _ : Uuid => IndexEntry)) :
    (mapEntries change entries).lookup id = (entries.lookup id).map (change id) := by
  obtain ⟨list,nodup⟩ := entries
  change List.dlookup id (list.map _) = (List.dlookup id list).map _
  clear nodup
  induction list with
  | nil => rfl
  | cons head rest ih =>
    obtain ⟨first,value⟩ := head
    by_cases same : id = first
    · subst same
      simp
    · rw [List.map_cons,List.dlookup_cons_ne _ _ same,List.dlookup_cons_ne _ _ same]
      exact ih

theorem lookup_mergePendingTelemetry (previous : Index) :
    (mergePendingTelemetry previous index).lookup id = (index.lookup id).map (inherit (previous.lookup id)) :=
  lookup_mapEntries id _ index.entries

end Lookup

end Index
end BazelMcp.StoreIndex

import BazelMcp.Framing

/-! The capture pipeline between a build event stream, its evidence file and its
reduction. The bottom layer is the pipeline as the code runs it, over a file
whose calls may fail; a trace beside it says in which order bytes were accepted
and events observed. -/
namespace BazelMcp.Capture
open Segments Framing

inductive Payload where
  | started
  | finished (exitCode : Option Int)
  | other
  deriving DecidableEq

/-- What the pipeline takes from elsewhere: the protobuf decoder with the
payload of a view, the accumulator, and the digest of the bytes hashed. -/
structure Bep (δ V A D : Type) where
  decodeView : Bytes → Except δ V
  payload : V → Option Payload
  newAccumulator : Option (Nat × Nat) → A
  observeBorrowed : A → BorrowedBepEvent V → A
  digest : Bytes → D

inductive IoError where
  | invalidData (message : String)
  | os (code : Nat)
  deriving DecidableEq

/-! ### The evidence file -/

/-- What happened to the evidence file and to the reduction, oldest first. -/
inductive Step where
  | wrote (raw : Bytes)
  | flushed
  | truncated
  | sought
  | failed
  | observed (framed : Bytes)
  deriving DecidableEq

structure Disk where
  calls : Nat
  trace : List Step
  deriving DecidableEq

/-- A failing write may have written a part of its bytes. -/
structure Fault where
  written : Nat
  error : IoError

abbrev Faults := Nat → Option Fault

def Disk.call (faults : Faults) (disk : Disk) (step : Step) : Option Fault × Disk :=
  match faults disk.calls with
  | none => (none,{ calls := disk.calls+1, trace := disk.trace ++ [step] })
  | some fault => (some fault,{ calls := disk.calls+1, trace := disk.trace ++ [.failed] })

def Disk.observe (disk : Disk) (framed : Bytes) : Disk := { disk with trace := disk.trace ++ [.observed framed] }

structure File where
  content : Bytes
  position : Nat
  deriving DecidableEq

def File.put (file : File) (raw : Bytes) : File :=
  { content := file.content.take file.position ++ raw ++ file.content.drop (file.position+raw.length)
    position := file.position+raw.length }

def File.writeAll (faults : Faults) (file : File) (raw : Bytes) (disk : Disk) : Option IoError × File × Disk :=
  match disk.call faults (.wrote raw) with
  | (none,disk) => (none,file.put raw,disk)
  | (some fault,disk) => (some fault.error,file.put (raw.take fault.written),disk)

def File.flush (faults : Faults) (file : File) (disk : Disk) : Option IoError × File × Disk :=
  match disk.call faults .flushed with
  | (none,disk) => (none,file,disk)
  | (some fault,disk) => (some fault.error,file,disk)

def File.setLen (faults : Faults) (file : File) (length : Nat) (disk : Disk) : Option IoError × File × Disk :=
  match disk.call faults .truncated with
  | (none,disk) => (none,{ file with content := file.content.take length },disk)
  | (some fault,disk) => (some fault.error,file,disk)

def File.seek (faults : Faults) (file : File) (position : Nat) (disk : Disk) : Option IoError × File × Disk :=
  match disk.call faults .sought with
  | (none,disk) => (none,{ file with position },disk)
  | (some fault,disk) => (some fault.error,file,disk)

/-- A hasher is the bytes it was updated with. -/
inductive DurableBepWriter where
  | alreadyPersisted (hasher : Bytes) (bytes : Nat)
  | append (file : File) (hasher : Bytes) (bytes : Nat)
  deriving DecidableEq

namespace DurableBepWriter

def commit (faults : Faults) (raw : Bytes) : DurableBepWriter → Disk → Option IoError × DurableBepWriter × Disk
  | .alreadyPersisted hasher bytes, disk => (none,.alreadyPersisted (hasher ++ raw) (saturatingAdd bytes raw.length),disk)
  | .append file hasher bytes, disk =>
    match file.writeAll faults raw disk with
    | (some error,file,disk) => (some error,.append file hasher bytes,disk)
    | (none,file,disk) => (none,.append file (hasher ++ raw) (saturatingAdd bytes raw.length),disk)

def beginRetry (faults : Faults) : DurableBepWriter → Disk → Option IoError × DurableBepWriter × Disk
  | .alreadyPersisted hasher bytes, disk => (none,.alreadyPersisted hasher bytes,disk)
  | .append file hasher bytes, disk =>
    match file.flush faults disk with
    | (some error,file,disk) => (some error,.append file hasher bytes,disk)
    | (none,file,disk) =>
      match file.setLen faults 0 disk with
      | (some error,file,disk) => (some error,.append file hasher bytes,disk)
      | (none,file,disk) =>
        match file.seek faults 0 disk with
        | (some error,file,disk) => (some error,.append file hasher bytes,disk)
        | (none,file,disk) => (none,.append file [] 0,disk)

def flush (faults : Faults) : DurableBepWriter → Disk → Option IoError × DurableBepWriter × Disk
  | .alreadyPersisted hasher bytes, disk => (none,.alreadyPersisted hasher bytes,disk)
  | .append file hasher bytes, disk =>
    match file.flush faults disk with
    | (error,file,disk) => (error,.append file hasher bytes,disk)

def bytes : DurableBepWriter → Nat
  | .alreadyPersisted _ bytes | .append _ _ bytes => bytes

def hasher : DurableBepWriter → Bytes
  | .alreadyPersisted hasher _ | .append _ hasher _ => hasher

end DurableBepWriter

/-! ### The pipeline -/

variable {δ V A D : Type}

structure ReductionSubscriber (A : Type) where
  accumulator : A
  decodedBytes : Nat
  eventCount : Nat
  deriving DecidableEq

namespace ReductionSubscriber

def new (bep : Bep δ V A D) (extensionLimits : Option (Nat × Nat)) : ReductionSubscriber A :=
  { accumulator := bep.newAccumulator extensionLimits, decodedBytes := 0, eventCount := 0 }

def observe (bep : Bep δ V A D) (reduction : ReductionSubscriber A) (event : BorrowedBepEvent V) : ReductionSubscriber A :=
  { accumulator := bep.observeBorrowed reduction.accumulator event
    decodedBytes := saturatingAdd reduction.decodedBytes event.frameBytes.length
    eventCount := saturatingAdd reduction.eventCount 1 }

def outcome (reduction : ReductionSubscriber A) : StreamOutcome δ :=
  { eventCount := reduction.eventCount, decodedBytes := reduction.decodedBytes, terminalError := none }

end ReductionSubscriber

/-- The fields of the pipeline that its visitor borrows, and the disk. -/
structure CaptureState (A : Type) where
  durable : DurableBepWriter
  reduction : ReductionSubscriber A
  savedAttempt : Option (ReductionSubscriber A)
  expectingRetry : Bool
  pendingRaw : Bytes
  extensionLimits : Option (Nat × Nat)
  disk : Disk

abbrev CapturePipeline (δ A : Type) := Session δ (CaptureState A)

inductive BepReductionSource where
  | incremental
  | fifo
  | bes
  | postHocFallback
  deriving DecidableEq

structure BepReduction (δ A : Type) where
  accumulator : A
  outcome : StreamOutcome δ
  source : BepReductionSource
  finalizeMs : Nat

structure CapturePipelineOutput (δ A D : Type) where
  reduction : BepReduction δ A
  durableBytes : Nat
  durableDigest : D

namespace CapturePipeline

def new (bep : Bep δ V A D) (durable : DurableBepWriter) (extensionLimits : Option (Nat × Nat)) : CapturePipeline δ A :=
  (.new defaultMaxFrameBytes defaultMaxStreamBytes defaultMaxStreamEvents,
    { durable, reduction := .new bep extensionLimits, savedAttempt := none, expectingRetry := false, pendingRaw := []
      extensionLimits, disk := { calls := 0, trace := [] } })

def isStarted (bep : Bep δ V A D) (view : V) : Bool := bep.payload view == some .started

def isRemoteCacheEvicted (bep : Bep δ V A D) (view : V) : Bool :=
  match bep.payload view with
  | some (.finished (some code)) => code == 39
  | _ => false

/-- The truncation in front of the first event of a retry. -/
def beginRetry (bep : Bep δ V A D) (faults : Faults) (state : CaptureState A) (view : V) :
    Option IoError × CaptureState A :=
  if state.expectingRetry && isStarted bep view then
    match state.durable.beginRetry faults state.disk with
    | (some error,durable,disk) => (some error,{ state with durable, disk })
    | (none,durable,disk) => (none,{ state with durable, disk, savedAttempt := none, expectingRetry := false })
  else (none,state)

/-- The end of the visitor: the raw bytes are committed before the event is
observed, and an event that ends an evicted attempt sets the attempt aside. -/
def acceptFrame (bep : Bep δ V A D) (faults : Faults) (state : CaptureState A) (event : BorrowedBepEvent V)
    (framed : Bytes) : IncrementalStreamControl × (CaptureState A × Option IoError) :=
  match state.durable.commit faults (state.pendingRaw.take framed.length) state.disk with
  | (some error,durable,disk) => (.continue,({ state with durable, disk },some error))
  | (none,durable,disk) =>
    let reduction := state.reduction.observe bep event
    let state := { state with durable, disk := disk.observe framed, pendingRaw := state.pendingRaw.drop framed.length }
    if isRemoteCacheEvicted bep event.view then
      (.resetAfterFrame,({ state with savedAttempt := some reduction, expectingRetry := true
                                      reduction := .new bep state.extensionLimits },none))
    else (.continue,({ state with reduction },none))

/-- The visitor of `ingest`; the second part of its state is `pipeline_error`. -/
def ingestFrame (bep : Bep δ V A D) (faults : Faults) : Visitor (CaptureState A × Option IoError) (BorrowedBepEvent V)
  | (state,some error), _, _ => (.continue,(state,some error))
  | (state,none), event, framed =>
    if state.pendingRaw.length < framed.length then
      (.continue,(state,some (.invalidData "BEP frame exceeded retained source bytes")))
    else if state.pendingRaw.take framed.length ≠ framed then
      (.continue,(state,some (.invalidData "decoded BEP frame did not match retained source bytes")))
    else
      match beginRetry bep faults state event.view with
      | (some error,state) => (.continue,(state,some error))
      | (none,state) => acceptFrame bep faults state event framed

/-- Commit the raw bytes that no frame accounts for. -/
def commitPendingRaw (faults : Faults) (state : CaptureState A) : Option IoError × CaptureState A :=
  match state.durable.commit faults state.pendingRaw state.disk with
  | (some error,durable,disk) => (some error,{ state with durable, disk })
  | (none,durable,disk) => (none,{ state with durable, disk, pendingRaw := [] })

def settlePush (faults : Faults) : Session δ (CaptureState A × Option IoError) → Option IoError × CapturePipeline δ A
  | (decoder,(state,some error)) => (some error,(decoder,state))
  | (decoder,(state,none)) =>
    if decoder.isTerminal && !state.pendingRaw.isEmpty then
      match commitPendingRaw faults state with
      | (error,state) => (error,(decoder,state))
    else (none,(decoder,state))

def ingest (bep : Bep δ V A D) (faults : Faults) (input : Bytes) (pipeline : CapturePipeline δ A) :
    Option IoError × CapturePipeline δ A :=
  let (decoder,state) := pipeline
  if input.isEmpty then (none,pipeline)
  else if decoder.isTerminal then
    match state.durable.commit faults input state.disk with
    | (error,durable,disk) => (error,(decoder,{ state with durable, disk }))
  else
    let state := { state with pendingRaw := state.pendingRaw ++ input }
    settlePush faults (pushFramedBorrowed bep.decodeView (ingestFrame bep faults) input (decoder,(state,none)))

/-- The state is what the pipeline leaves on disk. -/
def finish (bep : Bep δ V A D) (faults : Faults) (source : BepReductionSource) (pipeline : CapturePipeline δ A) :
    Except IoError (CapturePipelineOutput δ A D) × CaptureState A :=
  let (decoder,state) := pipeline
  match (if state.pendingRaw.isEmpty then (none,state) else commitPendingRaw faults state) with
  | (some error,state) => (.error error,state)
  | (none,state) =>
    match state.durable.flush faults state.disk with
    | (some error,durable,disk) => (.error error,{ state with durable, disk })
    | (none,durable,disk) =>
      let (reduction,outcome) :=
        if state.expectingRetry && state.reduction.eventCount == 0 then
          let saved := state.savedAttempt.getD state.reduction
          (saved,saved.outcome)
        else (state.reduction,decoder.finish)
      (.ok
        { reduction := { accumulator := reduction.accumulator, outcome, source, finalizeMs := 0 }
          durableBytes := durable.bytes
          durableDigest := bep.digest durable.hasher },
        { state with durable, disk })

/-- The callers stop reading at the first error. -/
def ingestAll (bep : Bep δ V A D) (faults : Faults) : List Bytes → CapturePipeline δ A → Option IoError × CapturePipeline δ A
  | [], pipeline => (none,pipeline)
  | chunk :: chunks, pipeline =>
    match ingest bep faults chunk pipeline with
    | (some error,pipeline) => (some error,pipeline)
    | (none,pipeline) => ingestAll bep faults chunks pipeline

/-- A whole capture: the chunks as the source delivers them, and the end of the stream. -/
def capture (bep : Bep δ V A D) (faults : Faults) (source : BepReductionSource) (chunks : List Bytes)
    (pipeline : CapturePipeline δ A) : Except IoError (CapturePipelineOutput δ A D) × CaptureState A :=
  match ingestAll bep faults chunks pipeline with
  | (some error,pipeline) => (.error error,pipeline.2)
  | (none,pipeline) => finish bep faults source pipeline

end CapturePipeline

/-! ### Durability before reduction -/

/-- Every observed event directly follows the write of its framed bytes, and no
call has failed before it. -/
def Honest (trace : List Step) : Prop :=
  ∀ before framed later, trace = before ++ .observed framed :: later →
    (∃ earlier, before = earlier ++ [.wrote framed]) ∧ .failed ∉ before

theorem honest_append {trace steps : List Step} (honest : Honest trace) (quiet : ∀ framed, .observed framed ∉ steps) :
    Honest (trace ++ steps) := by
  intro before framed later split
  rcases List.append_eq_append_iff.mp split with ⟨extra,rfl,rest⟩ | ⟨extra,rfl,rest⟩
  · have member : Step.observed framed ∈ steps := by
      rw [rest]
      simp
    exact absurd member (quiet framed)
  cases extra with
  | nil =>
    have member : Step.observed framed ∈ steps := by
      rw [List.nil_append] at rest
      rw [← rest]
      simp
    exact absurd member (quiet framed)
  | cons step extra =>
    obtain ⟨rfl,rfl⟩ := List.cons.inj rest
    exact honest before framed extra rfl

theorem honest_observe {trace : List Step} {framed : Bytes} (honest : Honest (trace ++ [.wrote framed]))
    (fine : .failed ∉ trace) : Honest (trace ++ [.wrote framed] ++ [.observed framed]) := by
  intro before other later split
  rcases List.eq_nil_or_concat' later with rfl | ⟨later,last,rfl⟩
  · obtain ⟨same,equal⟩ := List.append_inj' split rfl
    cases equal
    subst same
    exact ⟨⟨trace,rfl⟩,by simpa using fine⟩
  · rw [← List.cons_append,← List.append_assoc] at split
    obtain ⟨same,_⟩ := List.append_inj' split rfl
    exact honest before other later same

/-- A call of an appending writer: it only adds file steps to the trace, and a failed one if it fails. -/
structure Called (disk : Disk) (result : Option IoError × DurableBepWriter × Disk) : Prop where
  appends : ∃ file hasher bytes, result.2.1 = .append file hasher bytes
  traced : ∃ steps, result.2.2.trace = disk.trace ++ steps ∧ (∀ framed, .observed framed ∉ steps) ∧
    (result.1 = none → .failed ∉ steps)

variable (faults : Faults)

theorem commit_called (raw : Bytes) (file : File) (hasher : Bytes) (bytes : Nat) (disk : Disk) :
    Called disk (DurableBepWriter.commit faults raw (.append file hasher bytes) disk) ∧
      ((DurableBepWriter.commit faults raw (.append file hasher bytes) disk).1 = none →
        (DurableBepWriter.commit faults raw (.append file hasher bytes) disk).2.2.trace = disk.trace ++ [.wrote raw]) := by
  cases fault : faults disk.calls with
  | none =>
    simp only [DurableBepWriter.commit,File.writeAll,Disk.call,fault]
    exact ⟨⟨⟨_,_,_,rfl⟩,[.wrote raw],rfl,by simp,by simp⟩,by simp⟩
  | some fault' =>
    simp only [DurableBepWriter.commit,File.writeAll,Disk.call,fault]
    exact ⟨⟨⟨_,_,_,rfl⟩,[.failed],rfl,by simp,by simp⟩,by simp⟩

theorem flush_called (file : File) (hasher : Bytes) (bytes : Nat) (disk : Disk) :
    Called disk (DurableBepWriter.flush faults (.append file hasher bytes) disk) := by
  cases fault : faults disk.calls with
  | none =>
    simp only [DurableBepWriter.flush,File.flush,Disk.call,fault]
    exact ⟨⟨_,_,_,rfl⟩,[.flushed],rfl,by simp,by simp⟩
  | some fault' =>
    simp only [DurableBepWriter.flush,File.flush,Disk.call,fault]
    exact ⟨⟨_,_,_,rfl⟩,[.failed],rfl,by simp,by simp⟩

theorem beginRetry_called (file : File) (hasher : Bytes) (bytes : Nat) (disk : Disk) :
    Called disk (DurableBepWriter.beginRetry faults (.append file hasher bytes) disk) := by
  cases first : faults disk.calls with
  | some fault =>
    simp only [DurableBepWriter.beginRetry,File.flush,Disk.call,first]
    exact ⟨⟨_,_,_,rfl⟩,[.failed],rfl,by simp,by simp⟩
  | none =>
    cases second : faults (disk.calls+1) with
    | some fault =>
      simp only [DurableBepWriter.beginRetry,File.flush,File.setLen,Disk.call,first,second]
      exact ⟨⟨_,_,_,rfl⟩,[.flushed,.failed],by simp,by simp,by simp⟩
    | none =>
      cases third : faults (disk.calls+1+1) with
      | some fault =>
        simp only [DurableBepWriter.beginRetry,File.flush,File.setLen,File.seek,Disk.call,first,second,third]
        exact ⟨⟨_,_,_,rfl⟩,[.flushed,.truncated,.failed],by simp,by simp,by simp⟩
      | none =>
        simp only [DurableBepWriter.beginRetry,File.flush,File.setLen,File.seek,Disk.call,first,second,third]
        exact ⟨⟨_,_,_,rfl⟩,[.flushed,.truncated,.sought],by simp,by simp,by simp⟩

/-- The state of an appending pipeline, with the error it has met so far. -/
structure Sound (state : CaptureState A) (error : Option IoError) : Prop where
  appends : ∃ file hasher bytes, state.durable = .append file hasher bytes
  honest : Honest state.disk.trace
  fine : error = none → .failed ∉ state.disk.trace

theorem Sound.failed {state : CaptureState A} {error : Option IoError} (sound : Sound state error) (failure : IoError) :
    Sound state (some failure) := ⟨sound.appends,sound.honest,by simp⟩

theorem Sound.called {state next : CaptureState A} (sound : Sound state none)
    {result : Option IoError × DurableBepWriter × Disk} (called : Called state.disk result)
    (durable : next.durable = result.2.1) (disk : next.disk = result.2.2) : Sound next result.1 := by
  obtain ⟨steps,traced,quiet,fine⟩ := called.traced
  refine ⟨durable ▸ called.appends,?_,?_⟩
  · rw [disk,traced]
    exact honest_append sound.honest quiet
  · intro none
    rw [disk,traced,List.mem_append,not_or]
    exact ⟨sound.fine rfl,fine none⟩

namespace CapturePipeline

variable (bep : Bep δ V A D) (faults : Faults) {state : CaptureState A} {pipeline : CapturePipeline δ A}

theorem beginRetry_sound (view : V) (sound : Sound state none) :
    Sound (beginRetry bep faults state view).2 (beginRetry bep faults state view).1 := by
  obtain ⟨file,hasher,bytes,durable⟩ := sound.appends
  unfold beginRetry
  split
  · have called := beginRetry_called faults file hasher bytes state.disk
    rw [← durable] at called
    cases result : state.durable.beginRetry faults state.disk with
    | mk error rest =>
      rw [result] at called
      cases error with
      | none | some error => exact sound.called called rfl rfl
  · exact sound

theorem commitPendingRaw_sound (sound : Sound state none) :
    Sound (commitPendingRaw faults state).2 (commitPendingRaw faults state).1 := by
  obtain ⟨file,hasher,bytes,durable⟩ := sound.appends
  have called := (commit_called faults state.pendingRaw file hasher bytes state.disk).1
  rw [← durable] at called
  unfold commitPendingRaw
  cases result : state.durable.commit faults state.pendingRaw state.disk with
  | mk error rest =>
    rw [result] at called
    cases error with
    | none | some error => exact sound.called called rfl rfl

theorem beginRetry_pendingRaw (state : CaptureState A) (view : V) :
    (beginRetry bep faults state view).2.pendingRaw = state.pendingRaw := by
  unfold beginRetry
  split
  · split <;> rfl
  · rfl

theorem acceptFrame_sound (event : BorrowedBepEvent V)
    {framed : Bytes} (exact : state.pendingRaw.take framed.length = framed) (sound : Sound state none) :
    Sound (acceptFrame bep faults state event framed).2.1 (acceptFrame bep faults state event framed).2.2 := by
  obtain ⟨file,hasher,bytes,durable⟩ := sound.appends
  obtain ⟨called,wrote⟩ := commit_called faults framed file hasher bytes state.disk
  rw [← durable] at called wrote
  unfold acceptFrame
  rw [exact]
  cases result : state.durable.commit faults framed state.disk with
  | mk error rest =>
    rw [result] at called wrote
    obtain ⟨durable',disk⟩ := rest
    cases error with
    | some error => exact sound.called called rfl rfl
    | none =>
      have wrote : disk.trace = state.disk.trace ++ [.wrote framed] := wrote rfl
      have honest : Honest (state.disk.trace ++ [.wrote framed]) := honest_append sound.honest (by simp)
      have observed : Sound { state with durable := durable', disk := disk.observe framed } none := by
        refine ⟨called.appends,?_,fun _ => ?_⟩
        · change Honest (disk.trace ++ [.observed framed])
          rw [wrote]
          exact honest_observe honest (sound.fine rfl)
        · change Step.failed ∉ disk.trace ++ [.observed framed]
          rw [wrote]
          simpa using sound.fine rfl
      dsimp only
      split <;> exact ⟨observed.appends,observed.honest,observed.fine⟩

theorem ingestFrame_sound (state : CaptureState A × Option IoError)
    (event : BorrowedBepEvent V) (framed : Bytes) (sound : Sound state.1 state.2) :
    Sound (ingestFrame bep faults state event framed).2.1 (ingestFrame bep faults state event framed).2.2 := by
  obtain ⟨state,error⟩ := state
  cases error with
  | some error => exact sound
  | none =>
    simp only [ingestFrame]
    split
    · exact sound.failed _
    split
    · exact sound.failed _
    rename_i exact
    have retried := beginRetry_sound bep faults event.view sound
    have raw := beginRetry_pendingRaw bep faults state event.view
    cases retry : beginRetry bep faults state event.view with
    | mk error state' =>
      rw [retry] at retried raw
      cases error with
      | some error => exact retried
      | none => exact acceptFrame_sound bep faults event (raw ▸ by simpa using exact) retried

theorem settlePush_sound {session : Session δ (CaptureState A × Option IoError)} (waiting : Waiting session)
    (sound : Sound session.2.1 session.2.2) :
    Waiting (settlePush faults session).2 ∧ Sound (settlePush faults session).2.2 (settlePush faults session).1 := by
  obtain ⟨decoder,state,error⟩ := session
  cases error with
  | some error => exact ⟨waiting,sound⟩
  | none =>
    simp only [settlePush]
    split
    · exact ⟨waiting,commitPendingRaw_sound faults sound⟩
    · exact ⟨waiting,sound⟩

theorem ingest_sound (input : Bytes) (waiting : Waiting pipeline) (sound : Sound pipeline.2 none) :
    Waiting (ingest bep faults input pipeline).2 ∧
      Sound (ingest bep faults input pipeline).2.2 (ingest bep faults input pipeline).1 := by
  obtain ⟨decoder,state⟩ := pipeline
  unfold ingest
  dsimp only
  split
  · exact ⟨waiting,sound⟩
  split
  · obtain ⟨file,hasher,bytes,durable⟩ := sound.appends
    have called := (commit_called faults input file hasher bytes state.disk).1
    rw [← durable] at called
    exact ⟨waiting,sound.called called rfl rfl⟩
  have start : Sound { state with pendingRaw := state.pendingRaw ++ input } none :=
    ⟨sound.appends,sound.honest,sound.fine⟩
  apply settlePush_sound
  · exact pushFrames_waiting _ input (decoder,({ state with pendingRaw := state.pendingRaw ++ input },none)) waiting
  refine pushFrames_invariant _ (fun state : CaptureState A × Option IoError => Sound state.1 state.2) ?_ input
    (decoder,({ state with pendingRaw := state.pendingRaw ++ input },none)) waiting start
  intro state frame framed control next sound visited
  obtain ⟨event,_,result⟩ := visiting_ok visited
  have kept := ingestFrame_sound bep faults state event framed sound
  rw [result] at kept
  exact kept

theorem ingestAll_sound (chunks : List Bytes) (waiting : Waiting pipeline) (sound : Sound pipeline.2 none) :
    Sound (ingestAll bep faults chunks pipeline).2.2 (ingestAll bep faults chunks pipeline).1 := by
  induction chunks generalizing pipeline with
  | nil => exact sound
  | cons chunk chunks ih =>
    obtain ⟨waits,sounds⟩ := ingest_sound bep faults chunk waiting sound
    unfold ingestAll
    cases result : ingest bep faults chunk pipeline with
    | mk error pipeline' =>
      rw [result] at waits sounds
      cases error with
      | some error => exact sounds
      | none => exact ih waits sounds

def errorOf {R : Type} : Except IoError R → Option IoError
  | .ok _ => none
  | .error error => some error

theorem finish_sound (source : BepReductionSource) (sound : Sound pipeline.2 none) :
    Sound (finish bep faults source pipeline).2 (errorOf (finish bep faults source pipeline).1) := by
  obtain ⟨decoder,state⟩ := pipeline
  have committed : Sound (if state.pendingRaw.isEmpty then (none,state) else commitPendingRaw faults state).2
      (if state.pendingRaw.isEmpty then (none,state) else commitPendingRaw faults state).1 := by
    split
    · exact sound
    · exact commitPendingRaw_sound faults sound
  unfold finish
  dsimp only
  cases result : (if state.pendingRaw.isEmpty then (none,state) else commitPendingRaw faults state) with
  | mk error state' =>
    rw [result] at committed
    cases error with
    | some error => exact committed
    | none =>
      obtain ⟨file,hasher,bytes,durable⟩ := committed.appends
      have called := flush_called faults file hasher bytes state'.disk
      rw [← durable] at called
      dsimp only
      cases flushed : state'.durable.flush faults state'.disk with
      | mk error rest =>
        rw [flushed] at called
        have after : Sound { state' with durable := rest.1, disk := rest.2 } error := committed.called called rfl rfl
        cases error with
        | none | some error => exact after

/-- In every run of an appending pipeline, whatever calls fail, events are
observed after their bytes were accepted and never after a failure. -/
theorem capture_sound (bep : Bep δ V A D) (faults : Faults) (source : BepReductionSource) (chunks : List Bytes)
    (limits : Option (Nat × Nat)) :
    let run := capture bep faults source chunks (new bep (.append ⟨[],0⟩ [] 0) limits)
    Sound run.2 (errorOf run.1) := by
  have start : Sound (new bep (.append ⟨[],0⟩ [] 0) limits).2 none :=
    ⟨⟨_,_,_,rfl⟩,by intro before framed later split; simp [new] at split,by simp [new]⟩
  have waiting : Waiting (new bep (.append ⟨[],0⟩ [] 0) limits) := waiting_new _ _ _ _
  have ingested := ingestAll_sound bep faults chunks waiting start
  unfold capture
  cases result : ingestAll bep faults chunks (new bep (.append ⟨[],0⟩ [] 0) limits) with
  | mk error pipeline =>
    rw [result] at ingested
    cases error with
    | some error => exact ingested
    | none => exact finish_sound bep faults source ingested

end CapturePipeline

end BazelMcp.Capture

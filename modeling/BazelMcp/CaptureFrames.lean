import Mathlib.Data.List.Induction
import BazelMcp.Capture

/-! What a capture without failures comes to, in terms of the frames its decoder
visits: the pipeline buffers raw bytes of its own beside the decoder's pending
ones, and the two stay aligned over every chunk, so that the evidence file and
the reduction are functions of the visits alone. -/
namespace BazelMcp.Capture.CapturePipeline
open Segments Framing List BorrowedBepEvent

variable {δ V A D : Type} (bep : Bep δ V A D) (limits : Option (Nat × Nat))

/-! ### The frames behind a capture -/

/-- Only the end of an evicted attempt resets the decoder. -/
def attemptControl (bep : Bep δ V A D) : Visitor Unit (BorrowedBepEvent V) :=
  fun _ event _ => (if isRemoteCacheEvicted bep event.view then .resetAfterFrame else .continue,())

/-- The decoder alone over a byte string: its outcome, and the frames it visits with their framed bytes. -/
def decoded (bep : Bep δ V A D) (input : Bytes) : StreamOutcome δ × (Unit × List (Bytes × Bytes)) :=
  decodeChunks (pushFramedBorrowed bep.decodeView (recording (·.frameBytes) (attemptControl bep)))
    (.new defaultMaxFrameBytes defaultMaxStreamBytes defaultMaxStreamEvents,((),[])) [input]

def visits (bep : Bep δ V A D) (input : Bytes) : List (Bytes × Bytes) := (decoded bep input).2.2

/-- What a capture has come to after some visits: its reductions, and the
visits whose bytes the evidence file holds. -/
structure Attempt (A : Type) where
  reduction : ReductionSubscriber A
  savedAttempt : Option (ReductionSubscriber A)
  expectingRetry : Bool
  kept : List (Bytes × Bytes)

def startedFrame (bep : Bep δ V A D) (frame : Bytes) : Bool :=
  match bep.decodeView frame with
  | .ok view => isStarted bep view
  | .error _ => false

def evictedFrame (bep : Bep δ V A D) (frame : Bytes) : Bool :=
  match bep.decodeView frame with
  | .ok view => isRemoteCacheEvicted bep view
  | .error _ => false

def observeFrame (bep : Bep δ V A D) (reduction : ReductionSubscriber A) (frame : Bytes) : ReductionSubscriber A :=
  match bep.decodeView frame with
  | .ok view => reduction.observe bep { view, frameBytes := frame }
  | .error _ => reduction

def Attempt.visit (bep : Bep δ V A D) (limits : Option (Nat × Nat)) (attempt : Attempt A) (visit : Bytes × Bytes) : Attempt A :=
  let retry := attempt.expectingRetry && startedFrame bep visit.1
  let kept := if retry then [visit] else attempt.kept ++ [visit]
  let reduction := observeFrame bep attempt.reduction visit.1
  if evictedFrame bep visit.1 then
    { reduction := .new bep limits, savedAttempt := some reduction, expectingRetry := true, kept }
  else
    { reduction, savedAttempt := if retry then none else attempt.savedAttempt
      expectingRetry := attempt.expectingRetry && !retry, kept }

def attempt (bep : Bep δ V A D) (limits : Option (Nat × Nat)) (visits : List (Bytes × Bytes)) : Attempt A :=
  visits.foldl (Attempt.visit bep limits)
    { reduction := .new bep limits, savedAttempt := none, expectingRetry := false, kept := [] }

theorem attempt_push (visits : List (Bytes × Bytes)) (visit : Bytes × Bytes) :
    attempt bep limits (visits ++ [visit]) = (attempt bep limits visits).visit bep limits visit := by
  unfold attempt
  rw [foldl_append]
  rfl

def noFaults : Faults := fun _ => none

def Holds (content : Bytes) : DurableBepWriter → Prop
  | .alreadyPersisted _ _ => True
  | .append file _ _ => file.content = content ∧ file.position = content.length

variable {content : Bytes} {durable : DurableBepWriter} {state : CaptureState A} {sofar : Bytes} {pipeline : CapturePipeline δ A}

theorem commit_holds (holds : Holds content durable) (raw : Bytes) (disk : Disk) :
    ∃ next disk', durable.commit noFaults raw disk = (none,next,disk') ∧ Holds (content ++ raw) next := by
  cases durable with
  | alreadyPersisted hasher bytes => exact ⟨_,_,rfl,trivial⟩
  | append file hasher bytes =>
    obtain ⟨rfl,position⟩ := holds
    refine ⟨_,_,rfl,?_,?_⟩
    · simp [File.put,position]
    · simp [File.put,position]

theorem beginRetry_holds (durable : DurableBepWriter) (disk : Disk) :
    ∃ next disk', durable.beginRetry noFaults disk = (none,next,disk') ∧ Holds [] next := by
  cases durable with
  | alreadyPersisted hasher bytes => exact ⟨_,_,rfl,trivial⟩
  | append file hasher bytes => exact ⟨_,_,rfl,by simp,rfl⟩

theorem flush_holds (holds : Holds content durable) (disk : Disk) :
    ∃ next disk', durable.flush noFaults disk = (none,next,disk') ∧ Holds content next := by
  cases durable with
  | alreadyPersisted hasher bytes => exact ⟨_,_,rfl,trivial⟩
  | append file hasher bytes => exact ⟨_,_,rfl,holds⟩

/-- The state after some visits; `tail` is what was committed behind the last of them. -/
structure Follows (bep : Bep δ V A D) (limits : Option (Nat × Nat)) (visits : List (Bytes × Bytes)) (tail : Bytes)
    (state : CaptureState A) : Prop where
  reduction : state.reduction = (attempt bep limits visits).reduction
  savedAttempt : state.savedAttempt = (attempt bep limits visits).savedAttempt
  expectingRetry : state.expectingRetry = (attempt bep limits visits).expectingRetry
  extensionLimits : state.extensionLimits = limits
  holds : Holds (bytes (attempt bep limits visits).kept ++ tail) state.durable

theorem beginRetry_none (holds : Holds content state.durable) (view : V) :
    ∃ durable disk, beginRetry bep noFaults state view = (none,{ state with
        durable, disk
        savedAttempt := if state.expectingRetry && isStarted bep view then none else state.savedAttempt
        expectingRetry := state.expectingRetry && !(state.expectingRetry && isStarted bep view) }) ∧
      Holds (if state.expectingRetry && isStarted bep view then [] else content) durable := by
  unfold beginRetry
  cases retry : state.expectingRetry && isStarted bep view with
  | false =>
    refine ⟨state.durable,state.disk,?_,holds⟩
    simp
  | true =>
    obtain ⟨durable,disk,retried,empty⟩ := beginRetry_holds state.durable state.disk
    refine ⟨durable,disk,?_,empty⟩
    simp [retried]

theorem acceptFrame_none (state : CaptureState A) (holds : Holds content state.durable)
    (event : BorrowedBepEvent V) {framed rest : Bytes} (raw : state.pendingRaw = framed ++ rest) :
    ∃ durable disk, acceptFrame bep noFaults state event framed =
        (if isRemoteCacheEvicted bep event.view then .resetAfterFrame else .continue,
          ({ state with
              durable, disk
              pendingRaw := rest
              reduction := if isRemoteCacheEvicted bep event.view then .new bep state.extensionLimits
                else state.reduction.observe bep event
              savedAttempt := if isRemoteCacheEvicted bep event.view then some (state.reduction.observe bep event)
                else state.savedAttempt
              expectingRetry := isRemoteCacheEvicted bep event.view || state.expectingRetry },none)) ∧
      Holds (content ++ framed) durable := by
  obtain ⟨durable,disk,committed,wrote⟩ := commit_holds holds framed state.disk
  refine ⟨durable,disk.observe framed,?_,wrote⟩
  unfold acceptFrame
  rw [raw,take_left,drop_left,committed]
  cases isRemoteCacheEvicted bep event.view <;> simp

variable {bep} {limits}

theorem ingestFrame_follows {visits : List (Bytes × Bytes)} (follows : Follows bep limits visits [] state)
    {frame framed rest : Bytes} (raw : state.pendingRaw = framed ++ rest) {view : V} (decodes : bep.decodeView frame = .ok view) :
    ∃ next : CaptureState A, ingestFrame bep noFaults (state,none) { view, frameBytes := frame } framed =
        (if isRemoteCacheEvicted bep view then .resetAfterFrame else .continue,(next,none)) ∧
      next.pendingRaw = rest ∧ Follows bep limits (visits ++ [(frame,framed)]) [] next := by
  have long : ¬ state.pendingRaw.length < framed.length := by
    rw [raw,length_append]
    omega
  have exact : ¬ state.pendingRaw.take framed.length ≠ framed := by
    rw [raw,take_left]
    simp
  have written := follows.holds
  rw [append_nil] at written
  obtain ⟨durable,disk,retried,empty⟩ := beginRetry_none bep written view
  obtain ⟨durable',disk',taken,held⟩ := acceptFrame_none bep { state with
    durable, disk
    savedAttempt := if state.expectingRetry && isStarted bep view then none else state.savedAttempt
    expectingRetry := state.expectingRetry && !(state.expectingRetry && isStarted bep view) }
    empty { view, frameBytes := frame } raw
  simp only [ingestFrame,if_neg long,if_neg exact,retried,taken]
  refine ⟨_,rfl,rfl,?_⟩
  have step := attempt_push bep limits visits (frame,framed)
  simp only [Attempt.visit,startedFrame,evictedFrame,observeFrame,decodes] at step
  rw [← follows.expectingRetry,← follows.reduction,← follows.savedAttempt] at step
  have kept : bytes (attempt bep limits (visits ++ [(frame,framed)])).kept =
      (if state.expectingRetry && isStarted bep view then [] else bytes (attempt bep limits visits).kept) ++ framed := by
    rw [step]
    cases isRemoteCacheEvicted bep view <;> cases state.expectingRetry && isStarted bep view <;> simp [bytes]
  have holds : Holds (bytes (attempt bep limits (visits ++ [(frame,framed)])).kept ++ []) durable' := by
    rw [append_nil,kept]
    exact held
  cases evicted : isRemoteCacheEvicted bep view with
  | true =>
    rw [evicted,if_pos rfl] at step
    exact ⟨by rw [step,← follows.extensionLimits]; rfl,by rw [step]; rfl,by rw [step]; rfl,follows.extensionLimits,holds⟩
  | false =>
    rw [evicted,if_neg (by simp)] at step
    exact ⟨by rw [step]; rfl,by rw [step]; rfl,by rw [step]; rfl,follows.extensionLimits,holds⟩

/-! ### A capture without failures -/

def recorder (bep : Bep δ V A D) : Consumer UInt8 (FrameError δ) (Session δ (Unit × List (Bytes × Bytes))) :=
  listener (visiting (BorrowedBepEvent.decode bep.decodeView) (recording (·.frameBytes) (attemptControl bep)))

def fresh {σ : Type} (state : σ) : Session δ σ := (.new defaultMaxFrameBytes defaultMaxStreamBytes defaultMaxStreamEvents,state)

/-- The decoder and its visits after some bytes, and the bytes from the first frame it has not visited on. -/
def reached (bep : Bep δ V A D) (input : Bytes) : Session δ (Unit × List (Bytes × Bytes)) × Bytes :=
  consume (frames defaultMaxFrameBytes) (recorder bep) (fresh ((),[])) input

theorem decoded_reached (bep : Bep δ V A D) (input : Bytes) :
    decoded bep input = ({ (reached bep input).1.1 with pending := (reached bep input).2 }.finish,(reached bep input).1.2) := by
  have agrees := (pushChunks_agrees
    (visiting (decode bep.decodeView) (recording (·.frameBytes) (attemptControl bep)))
    [input] (fresh ((),[])) (waiting_new _ _ _ _)).outcome
  rw [flatten_singleton] at agrees
  exact agrees

/-- The pipeline's visitor in front of some bytes, beside the decoder that only records its visits. -/
structure Mirrors (bep : Bep δ V A D) (limits : Option (Nat × Nat)) (real : Session δ (CaptureState A × Option IoError))
    (spec : Session δ (Unit × List (Bytes × Bytes))) (buffer : Bytes) : Prop where
  decoder : real.1 = spec.1
  error : real.2.2 = none
  raw : real.2.1.pendingRaw = buffer
  follows : Follows bep limits spec.2.2 [] real.2.1

theorem decode_ok {decodeView : Bytes → Except δ V} {frame : Bytes} {event : BorrowedBepEvent V}
    (decodes : decode decodeView frame = .ok event) :
    ∃ view, decodeView frame = .ok view ∧ event = { view, frameBytes := frame } := by
  unfold decode at decodes
  cases viewed : decodeView frame with
  | error error =>
    rw [viewed] at decodes
    cases decodes
  | ok view =>
    rw [viewed] at decodes
    exact ⟨view,rfl,(Except.ok.inj decodes).symm⟩

theorem consume_mirrors (real : Session δ (CaptureState A × Option IoError)) (spec : Session δ (Unit × List (Bytes × Bytes)))
    (buffer : Bytes) (mirrors : Mirrors bep limits real spec buffer) :
    let actual := consume (frames defaultMaxFrameBytes)
      (listener (visiting (decode bep.decodeView) (ingestFrame bep noFaults))) real buffer
    Mirrors bep limits actual.1 (consume (frames defaultMaxFrameBytes) (recorder bep) spec buffer).1 actual.2 ∧
      actual.2 = (consume (frames defaultMaxFrameBytes) (recorder bep) spec buffer).2 := by
  refine consume_simulates (frames defaultMaxFrameBytes) _ (recorder bep) (Mirrors bep limits) ?_ ?_ ?_ real spec buffer mirrors
  · intro s t buffer mirrors
    change s.1.isTerminal = t.1.isTerminal
    rw [mirrors.decoder]
  · intro s t buffer error mirrors _
    exact ⟨congrArg (fun decoder => { decoder with terminalError := some error }) mirrors.decoder,mirrors.error,
      mirrors.raw,mirrors.follows⟩
  rintro ⟨decoder,state,error⟩ ⟨decoder',nothing,visited⟩ buffer skip size ⟨same,rfl,raw,follows⟩ active found
  subst same
  have step := decodeFrame_related (decode bep.decodeView) (ingestFrame bep noFaults)
    (recording (·.frameBytes) (attemptControl bep)) decoder (state,none) (nothing,visited)
    ((buffer.take size).drop skip) (buffer.take size)
    (fun left right => left.2 = none ∧ left.1.pendingRaw = buffer.drop size ∧ Follows bep limits right.2 [] left.1) active
    (by
      intro event decodes
      obtain ⟨view,viewed,rfl⟩ := decode_ok decodes
      have split : state.pendingRaw = buffer.take size ++ buffer.drop size := raw.trans (take_append_drop _ _).symm
      obtain ⟨next,visits,rest,after⟩ := ingestFrame_follows follows split viewed
      rw [visits]
      exact ⟨rfl,rfl,rest,after⟩)
  obtain ⟨decoders,states⟩ := step
  change Mirrors bep limits (decodeFrame _ (decoder,(state,none)) _ _) (decodeFrame _ (decoder,(nothing,visited)) _ _)
    (if (decodeFrame _ (decoder,(state,none)) _ _).1.isTerminal then buffer else buffer.drop size)
  split at states
  · rename_i stopped
    rw [if_pos stopped]
    exact ⟨decoders,by rw [states.1],by rw [states.1]; exact raw,by rw [states.1,states.2]; exact follows⟩
  · rename_i going
    rw [if_neg going]
    exact ⟨decoders,states.1,states.2.1,states.2.2⟩

theorem reached_append (bep : Bep δ V A D) (sofar chunk : Bytes) : reached bep (sofar ++ chunk) =
      consume (frames defaultMaxFrameBytes) (recorder bep) (reached bep sofar).1 ((reached bep sofar).2 ++ chunk) :=
  consume_append _ _ _ _ _

/-- A pipeline that has ingested some bytes: what it has not committed yet is
what its decoder waits on, and behind an error everything is committed. -/
structure Tracks (bep : Bep δ V A D) (limits : Option (Nat × Nat)) (sofar : Bytes) (pipeline : CapturePipeline δ A) : Prop where
  decoder : { pipeline.1 with pending := [] } = (reached bep sofar).1.1
  waiting : pipeline.1.isTerminal = false →
    pipeline.1.pending = (reached bep sofar).2 ∧ pipeline.2.pendingRaw = (reached bep sofar).2 ∧
      Follows bep limits (reached bep sofar).1.2.2 [] pipeline.2
  stopped : pipeline.1.isTerminal = true →
    pipeline.2.pendingRaw = [] ∧ Follows bep limits (reached bep sofar).1.2.2 (reached bep sofar).2 pipeline.2

section
variable (tracks : Tracks bep limits sofar pipeline)
include tracks

theorem Tracks.limit : pipeline.1.maxFrameBytes = defaultMaxFrameBytes :=
  (congrArg (·.maxFrameBytes) tracks.decoder).trans (consume_keeps (fresh ((),[])) sofar defaultMaxFrameBytes)

theorem Tracks.active : (reached bep sofar).1.1.isTerminal = pipeline.1.isTerminal := by
  rw [← tracks.decoder]
  rfl

theorem ingest_stopped (stopped : pipeline.1.isTerminal = true) (chunk : Bytes) :
    ∃ durable disk, pipeline.2.durable.commit noFaults chunk pipeline.2.disk = (none,durable,disk) ∧
      Tracks bep limits (sofar ++ chunk) (pipeline.1,{ pipeline.2 with durable, disk }) := by
  obtain ⟨raw,follows⟩ := tracks.stopped stopped
  obtain ⟨durable,disk,committed,wrote⟩ := commit_holds follows.holds chunk pipeline.2.disk
  have same : reached bep (sofar ++ chunk) = ((reached bep sofar).1,(reached bep sofar).2 ++ chunk) := by
    rw [reached_append]
    exact consume_stopped _ _ (tracks.active.trans stopped) _
  rw [append_assoc] at wrote
  refine ⟨durable,disk,committed,by rw [same]; exact tracks.decoder,fun active => absurd stopped (by simp [active]),
    fun _ => ⟨raw,?_⟩⟩
  rw [same]
  exact { follows with holds := wrote }

end

theorem commitPendingRaw_follows {visits : List (Bytes × Bytes)} (follows : Follows bep limits visits [] state) :
    ∃ next : CaptureState A, commitPendingRaw noFaults state = (none,next) ∧ next.pendingRaw = [] ∧
      Follows bep limits visits state.pendingRaw next := by
  obtain ⟨durable,disk,committed,wrote⟩ := commit_holds follows.holds state.pendingRaw state.disk
  rw [append_nil] at wrote
  unfold commitPendingRaw
  rw [committed]
  exact ⟨_,rfl,rfl,{ follows with holds := wrote }⟩

theorem settlePush_tracks {session : Session δ (CaptureState A × Option IoError)}
    (decoder : { session.1 with pending := [] } = (reached bep sofar).1.1) (error : session.2.2 = none)
    (pending : session.1.isTerminal = false → session.1.pending = (reached bep sofar).2)
    (raw : session.2.1.pendingRaw = (reached bep sofar).2)
    (follows : Follows bep limits (reached bep sofar).1.2.2 [] session.2.1) :
    ∃ pipeline, settlePush noFaults session = (none,pipeline) ∧ Tracks bep limits sofar pipeline := by
  obtain ⟨decoder',state,error'⟩ := session
  subst error
  simp only [settlePush]
  split
  · rename_i stopped
    simp only [Bool.and_eq_true] at stopped
    obtain ⟨next,committed,empty,after⟩ := commitPendingRaw_follows follows
    rw [committed]
    rw [raw] at after
    exact ⟨_,rfl,decoder,fun active => absurd stopped.1 (by simp [active]),fun _ => ⟨empty,after⟩⟩
  · rename_i uncommitted
    refine ⟨_,rfl,decoder,fun active => ⟨pending active,raw,follows⟩,fun stopped => ?_⟩
    have empty : state.pendingRaw = [] := by simpa [stopped] using uncommitted
    have none : (reached bep sofar).2 = [] := raw.symm.trans empty
    rw [none]
    exact ⟨empty,follows⟩

theorem ingest_tracks (tracks : Tracks bep limits sofar pipeline) (chunk : Bytes) :
    ∃ next, ingest bep noFaults chunk pipeline = (none,next) ∧ Tracks bep limits (sofar ++ chunk) next := by
  unfold ingest
  split
  rename_i decoder state
  split
  · rename_i empty
    have empty : chunk = [] := by simpa using empty
    rw [empty,append_nil]
    exact ⟨_,rfl,tracks⟩
  split
  · rename_i stopped
    obtain ⟨durable,disk,committed,after⟩ := ingest_stopped tracks stopped chunk
    rw [committed]
    exact ⟨_,rfl,after⟩
  rename_i active
  have active : decoder.isTerminal = false := by simpa using active
  obtain ⟨pending,raw,follows⟩ := tracks.waiting active
  have limit := tracks.limit
  have waits : Waiting (decoder,(({ state with pendingRaw := state.pendingRaw ++ chunk } : CaptureState A),(none : Option IoError))) := by
    right
    rw [limit,pending]
    exact consume_waits _ (recorder bep) _ _ (tracks.active.trans active)
  have pushed := pushFrames_agrees (visiting (decode bep.decodeView) (ingestFrame bep noFaults)) chunk
    (decoder,({ state with pendingRaw := state.pendingRaw ++ chunk },none)) active waits
  rw [limit,pending] at pushed
  obtain ⟨mirrors,rests⟩ := consume_mirrors
    (clear (decoder,({ state with pendingRaw := state.pendingRaw ++ chunk },none))) (reached bep sofar).1
    ((reached bep sofar).2 ++ chunk)
    ⟨tracks.decoder,rfl,congrArg (· ++ chunk) raw,{ follows with }⟩
  rw [← reached_append] at mirrors rests
  rw [← pushed.cleared] at mirrors
  exact settlePush_tracks mirrors.decoder mirrors.error (fun going => (pushed.waiting going).trans rests)
    (mirrors.raw.trans rests) mirrors.follows

theorem ingestAll_tracks (chunks : List Bytes) (tracks : Tracks bep limits sofar pipeline) :
    ∃ next, ingestAll bep noFaults chunks pipeline = (none,next) ∧ Tracks bep limits (sofar ++ chunks.flatten) next := by
  induction chunks generalizing sofar pipeline with
  | nil =>
    rw [flatten_nil,append_nil]
    exact ⟨pipeline,rfl,tracks⟩
  | cons chunk chunks ih =>
    obtain ⟨next,ingested,after⟩ := ingest_tracks tracks chunk
    obtain ⟨last,all,ends⟩ := ih after
    rw [flatten_cons,← append_assoc]
    refine ⟨last,?_,ends⟩
    unfold ingestAll
    rw [ingested]
    exact all

def report (bep : Bep δ V A D) (limits : Option (Nat × Nat)) (visits : List (Bytes × Bytes)) (outcome : StreamOutcome δ) :
    A × StreamOutcome δ :=
  let attempt := attempt bep limits visits
  if attempt.expectingRetry && attempt.reduction.eventCount == 0 then
    ((attempt.savedAttempt.getD attempt.reduction).accumulator,(attempt.savedAttempt.getD attempt.reduction).outcome)
  else (attempt.reduction.accumulator,outcome)

theorem visits_reached (bep : Bep δ V A D) (input : Bytes) : visits bep input = (reached bep input).1.2.2 := by
  unfold visits
  rw [decoded_reached]

section
variable (tracks : Tracks bep limits sofar pipeline)
include tracks

theorem Tracks.outcome : pipeline.1.finish = (decoded bep sofar).1 := by
  have agrees : Agrees (pipeline.1,(reached bep sofar).1.2) (reached bep sofar) :=
    ⟨Prod.ext tracks.decoder rfl,fun active => (tracks.waiting active).1⟩
  rw [decoded_reached]
  exact congrArg (·.1) agrees.outcome

theorem Tracks.committed :
    ∃ next, (if pipeline.2.pendingRaw.isEmpty then (none,pipeline.2) else commitPendingRaw noFaults pipeline.2) = (none,next) ∧
      Follows bep limits (visits bep sofar) (reached bep sofar).2 next := by
  rw [visits_reached]
  cases active : pipeline.1.isTerminal with
  | true =>
    obtain ⟨empty,follows⟩ := tracks.stopped active
    exact ⟨pipeline.2,by simp [empty],follows⟩
  | false =>
    obtain ⟨_,raw,follows⟩ := tracks.waiting active
    by_cases empty : pipeline.2.pendingRaw = []
    · rw [← raw,empty]
      exact ⟨pipeline.2,by simp,follows⟩
    · obtain ⟨next,committed,_,after⟩ := commitPendingRaw_follows follows
      rw [raw] at after
      exact ⟨next,by simpa [empty] using committed,after⟩

theorem finish_tracks (source : BepReductionSource) : ∃ output state, finish bep noFaults source pipeline = (.ok output,state) ∧
      (output.reduction.accumulator,output.reduction.outcome) = report bep limits (visits bep sofar) (decoded bep sofar).1 ∧
      Holds (bytes (attempt bep limits (visits bep sofar)).kept ++ (reached bep sofar).2) state.durable := by
  obtain ⟨next,committed,follows⟩ := tracks.committed
  obtain ⟨durable,disk,flushed,held⟩ := flush_holds follows.holds next.disk
  unfold finish report
  dsimp only
  rw [← tracks.outcome,← follows.expectingRetry,← follows.reduction,← follows.savedAttempt,committed]
  dsimp only
  rw [flushed]
  refine ⟨_,_,rfl,?_,held⟩
  cases next.expectingRetry && next.reduction.eventCount == 0 <;> rfl

end

variable (bep) (limits)

theorem tracks_new (holds : Holds [] durable) : Tracks bep limits [] (new bep durable limits) := by
  have start : reached bep [] = (fresh ((),[]),[]) := consume_more _ _ _ rfl
  refine ⟨by rw [start]; rfl,fun _ => ?_,fun stopped => by simp [new,IncrementalStreamDecoder.isTerminal,IncrementalStreamDecoder.new] at stopped⟩
  rw [start]
  exact ⟨rfl,rfl,rfl,rfl,rfl,rfl,holds⟩

/-- A capture without failures, with either writer: what it reports is a
function of the decoder's visits and outcome, and an appending writer ends with
the bytes of the visits kept and of what was not visited. -/
theorem capture_report (source : BepReductionSource) (chunks : List Bytes) (limits : Option (Nat × Nat))
    (durable : DurableBepWriter) (holds : Holds [] durable) :
    ∃ output state, capture bep noFaults source chunks (new bep durable limits) = (.ok output,state) ∧
      (output.reduction.accumulator,output.reduction.outcome) =
        report bep limits (visits bep chunks.flatten) (decoded bep chunks.flatten).1 ∧
      Holds (bytes (attempt bep limits (visits bep chunks.flatten)).kept ++ (reached bep chunks.flatten).2) state.durable := by
  obtain ⟨next,ingested,tracks⟩ := ingestAll_tracks chunks (tracks_new bep limits holds)
  rw [nil_append] at tracks
  unfold capture
  rw [ingested]
  exact finish_tracks tracks source

/-! ### Retries among the visits -/

/-- A visited Started frame begins a retry when an evicted attempt has ended
before it and no other Started frame stands in between. -/
def BeganRetry (bep : Bep δ V A D) (visits : List (Bytes × Bytes)) (i : Nat) : Prop :=
  (∃ visit, visits[i]? = some visit ∧ startedFrame bep visit.1) ∧
    ∃ j < i, (∃ visit, visits[j]? = some visit ∧ evictedFrame bep visit.1) ∧
      ∀ k visit, j < k → k < i → visits[k]? = some visit → ¬ startedFrame bep visit.1

theorem getElem_push {α : Type} (list : List α) (last : α) {i : Nat} {item : α} (at_i : (list ++ [last])[i]? = some item) :
    list[i]? = some item ∨ (i = list.length ∧ item = last) := by
  grind

theorem getElem_grow {α : Type} {list : List α} {i : Nat} {item : α} (at_i : list[i]? = some item) (last : α) :
    (list ++ [last])[i]? = some item := by
  have inside := (List.getElem?_eq_some_iff.mp at_i).1
  rw [List.getElem?_append_left inside]
  exact at_i

theorem attempt_expecting (visits : List (Bytes × Bytes)) : (attempt bep limits visits).expectingRetry = true ↔
      ∃ j : Nat, (∃ visit, visits[j]? = some visit ∧ evictedFrame bep visit.1) ∧
        ∀ (k : Nat) visit, j < k → visits[k]? = some visit → ¬ startedFrame bep visit.1 := by
  induction visits using List.reverseRecOn with
  | nil => simp [attempt]
  | append_singleton visits last ih =>
    have step : (attempt bep limits (visits ++ [last])).expectingRetry =
        (evictedFrame bep last.1 || ((attempt bep limits visits).expectingRetry && !startedFrame bep last.1)) := by
      rw [attempt_push]
      unfold Attempt.visit
      cases evictedFrame bep last.1 <;> cases (attempt bep limits visits).expectingRetry <;>
        cases startedFrame bep last.1 <;> rfl
    rw [step,Bool.or_eq_true,Bool.and_eq_true,ih]
    constructor
    · rintro (evicted | ⟨⟨j,⟨visit,at_j,evicted⟩,quiet⟩,calm⟩)
      · refine ⟨visits.length,⟨last,List.getElem?_concat_length,evicted⟩,?_⟩
        intro k visit above at_k
        rw [List.getElem?_eq_none (by simp; omega)] at at_k
        cases at_k
      · refine ⟨j,⟨visit,getElem_grow at_j last,evicted⟩,?_⟩
        intro k visit above at_k
        rcases getElem_push visits last at_k with at_k | ⟨_,rfl⟩
        · exact quiet k visit above at_k
        · simpa using calm
    · rintro ⟨j,⟨visit,at_j,evicted⟩,quiet⟩
      rcases getElem_push visits last at_j with at_j | ⟨_,rfl⟩
      · have inside := (List.getElem?_eq_some_iff.mp at_j).1
        refine .inr ⟨⟨j,⟨visit,at_j,evicted⟩,?_⟩,?_⟩
        · intro k visit above at_k
          exact quiet k visit above (getElem_grow at_k last)
        · simpa using quiet visits.length last inside List.getElem?_concat_length
      · exact .inl evicted

theorem beganRetry_push (visits : List (Bytes × Bytes)) (last : Bytes × Bytes)
    (i : Nat) : BeganRetry bep (visits ++ [last]) i ↔ BeganRetry bep visits i ∨
      (i = visits.length ∧ (attempt bep limits visits).expectingRetry = true ∧ startedFrame bep last.1 = true) := by
  rw [attempt_expecting]
  constructor
  · rintro ⟨⟨visit,at_i,started⟩,j,below,⟨other,at_j,evicted⟩,quiet⟩
    have atLast : i ≤ visits.length := by
      have inside := (List.getElem?_eq_some_iff.mp at_i).1
      simp only [length_append,length_singleton] at inside
      omega
    have before : visits[j]? = some other := (getElem_push visits last at_j).resolve_right (by omega)
    have calm (k : Nat) (visit : Bytes × Bytes) (above : j < k) (inside : k < i) (at_k : visits[k]? = some visit) :=
      quiet k visit above inside (getElem_grow at_k last)
    rcases getElem_push visits last at_i with at_i | ⟨rfl,rfl⟩
    · exact .inl ⟨⟨visit,at_i,started⟩,j,below,⟨other,before,evicted⟩,calm⟩
    · refine .inr ⟨rfl,⟨j,⟨other,before,evicted⟩,?_⟩,started⟩
      intro k visit above at_k
      exact calm k visit above (List.getElem?_eq_some_iff.mp at_k).1 at_k
  · rintro (⟨⟨visit,at_i,started⟩,j,below,⟨other,at_j,evicted⟩,quiet⟩ | ⟨rfl,⟨j,⟨other,at_j,evicted⟩,quiet⟩,started⟩)
    · have inside := (List.getElem?_eq_some_iff.mp at_i).1
      refine ⟨⟨visit,getElem_grow at_i last,started⟩,j,below,⟨other,getElem_grow at_j last,evicted⟩,?_⟩
      intro k visit above under at_k
      exact quiet k visit above under ((getElem_push visits last at_k).resolve_right (by omega))
    · have inside := (List.getElem?_eq_some_iff.mp at_j).1
      refine ⟨⟨last,List.getElem?_concat_length,started⟩,j,inside,⟨other,getElem_grow at_j last,evicted⟩,?_⟩
      intro k visit above under at_k
      exact quiet k visit above ((getElem_push visits last at_k).resolve_right (by omega))

/-- What the evidence file keeps of the visits: everything from the last retry on. -/
theorem attempt_kept (visits : List (Bytes × Bytes)) : ∃ dropped, visits = dropped ++ (attempt bep limits visits).kept ∧
      (∀ i, BeganRetry bep visits i → i ≤ dropped.length) ∧ (dropped = [] ∨ BeganRetry bep visits dropped.length) := by
  induction visits using List.reverseRecOn with
  | nil => exact ⟨[],rfl,fun i began => by simp [BeganRetry] at began,.inl rfl⟩
  | append_singleton visits last ih =>
    have step : (attempt bep limits (visits ++ [last])).kept =
        if (attempt bep limits visits).expectingRetry && startedFrame bep last.1 then [last]
        else (attempt bep limits visits).kept ++ [last] := by
      rw [attempt_push]
      unfold Attempt.visit
      split <;> rfl
    rw [step]
    obtain ⟨dropped,split,above,began⟩ := ih
    cases retry : (attempt bep limits visits).expectingRetry && startedFrame bep last.1 with
    | true =>
      simp only [Bool.and_eq_true] at retry
      refine ⟨visits,rfl,?_,.inr ((beganRetry_push bep limits visits last _).mpr (.inr ⟨rfl,retry⟩))⟩
      intro i starts
      rcases (beganRetry_push bep limits visits last i).mp starts with ⟨⟨visit,at_i,_⟩,_⟩ | ⟨rfl,_⟩
      · exact Nat.le_of_lt (List.getElem?_eq_some_iff.mp at_i).1
      · exact Nat.le_refl _
    | false =>
      refine ⟨dropped,?_,?_,?_⟩
      · rw [if_neg (by simp),← append_assoc,← split]
      · intro i starts
        rcases (beganRetry_push bep limits visits last i).mp starts with starts | ⟨_,both⟩
        · exact above i starts
        · simp [both] at retry
      · exact began.imp_right fun began => (beganRetry_push bep limits visits last _).mpr (.inl began)

/-! ### The evidence file -/

theorem recorder_segment (session : Session δ (Unit × List (Bytes × Bytes)))
    (active : (recorder bep).stopped session = false) (frame framed : Bytes) :
    if (recorder bep).stopped ((recorder bep).segment session frame framed) then
      ((recorder bep).segment session frame framed).2 = session.2 else (∃ view, bep.decodeView frame = .ok view) ∧
      ((recorder bep).segment session frame framed).2.2 = session.2.2 ++ [(frame,framed)] := by
  have visits : if (recorder bep).stopped ((recorder bep).segment session frame framed) then
      ((recorder bep).segment session frame framed).2 = session.2
    else ∃ event, decode bep.decodeView frame = .ok event ∧
      ((recorder bep).segment session frame framed).2 = _ :=
    decodeFrame_visits (decode bep.decodeView) (recording (·.frameBytes) (attemptControl bep))
      session.1 session.2 frame framed active
  split at visits
  · rename_i stopped
    rw [if_pos stopped]
    exact visits
  rename_i going
  rw [if_neg going]
  obtain ⟨event,decodes,after⟩ := visits
  obtain ⟨view,viewed,rfl⟩ := decode_ok decodes
  exact ⟨⟨view,viewed⟩,by rw [after]; rfl⟩

theorem reached_bytes (input : Bytes) : bytes (visits bep input) ++ (reached bep input).2 = input := by
  rw [visits_reached]
  refine consume_invariant (frames defaultMaxFrameBytes) (recorder bep)
    (fun session buffer => bytes session.2.2 ++ buffer = input) ?_ ?_ ?_ (fresh ((),[])) input rfl
  · intro session buffer error whole _
    exact whole
  · intro session buffer skip size whole active found stopped
    have segment := recorder_segment bep session active ((buffer.take size).drop skip) (buffer.take size)
    rw [if_pos stopped] at segment
    rw [segment]
    exact whole
  · intro session buffer skip size whole active found going
    have segment := recorder_segment bep session active ((buffer.take size).drop skip) (buffer.take size)
    rw [if_neg (by simp [going])] at segment
    rw [segment.2]
    simp only [bytes,map_append,flatten_append,map_cons,map_nil,flatten_singleton]
    rw [append_assoc,take_append_drop]
    exact whole

theorem dropped_bytes {bep : Bep δ V A D} {input : Bytes} {dropped kept : List (Bytes × Bytes)}
    (split : visits bep input = dropped ++ kept) : bytes dropped ++ (bytes kept ++ (reached bep input).2) = input := by
  have whole := reached_bytes bep input
  rw [split] at whole
  simp only [bytes,map_append,flatten_append,append_assoc] at whole ⊢
  exact whole

/-- In every run of an appending pipeline, whatever calls fail, events are
observed after the writer has accepted their framed bytes and never after a
failure. If nothing fails, the evidence file ends with the input from the frame
on that began the last retry, or with the whole input if none did. -/
theorem durable_before_observed (bep : Bep δ V A D) (source : BepReductionSource) (chunks : List Bytes)
    (limits : Option (Nat × Nat)) :
    (∀ faults, Honest (capture bep faults source chunks (new bep (.append ⟨[],0⟩ [] 0) limits)).2.disk.trace) ∧
    ∃ output state file hasher count,
      capture bep noFaults source chunks (new bep (.append ⟨[],0⟩ [] 0) limits) = (.ok output,state) ∧
      state.durable = .append file hasher count ∧
      (∀ i, BeganRetry bep (visits bep chunks.flatten) i → (∀ k, BeganRetry bep (visits bep chunks.flatten) k → k ≤ i) →
        file.content = chunks.flatten.drop (bytes ((visits bep chunks.flatten).take i)).length) ∧
      ((∀ i, ¬ BeganRetry bep (visits bep chunks.flatten) i) → file.content = chunks.flatten) := by
  refine ⟨fun faults => (capture_sound bep faults source chunks limits).honest,?_⟩
  obtain ⟨output,state,captured,_,holds⟩ := capture_report bep source chunks limits (.append ⟨[],0⟩ [] 0) ⟨rfl,rfl⟩
  obtain ⟨file,hasher,count,appends⟩ := (capture_sound bep noFaults source chunks limits).appends
  rw [captured] at appends
  rw [appends] at holds
  obtain ⟨dropped,split,above,began⟩ := attempt_kept bep limits (visits bep chunks.flatten)
  have content : bytes dropped ++ file.content = chunks.flatten := by
    rw [holds.1]
    exact dropped_bytes split
  refine ⟨output,state,file,hasher,count,captured,appends,?_,?_⟩
  · intro i starts last
    have below := above i starts
    have atLast : i = dropped.length := by
      rcases began with rfl | began
      · simpa using below
      · exact Nat.le_antisymm below (last _ began)
    have before : (visits bep chunks.flatten).take i = dropped := by
      rw [split,atLast,take_left]
    rw [before,← content,drop_left]
  · intro none
    have empty := began.resolve_right (none _)
    rw [← content,empty]
    rfl

end BazelMcp.Capture.CapturePipeline

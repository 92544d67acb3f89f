import BazelMcp.BesFraming
import BazelMcp.CaptureHonesty

/-! From the build tool to the reduction. What a run of the service has handed on, it has framed within the
limits of the decoder, so the pipeline behind it keeps every byte and observes every event. -/
namespace BazelMcp.BuildEventService
open Framing List

/-! ### What is handed on -/

def payloadOf (request : Request) : Option Bytes :=
  match (request.orderedBuildEvent.bind OrderedBuildEvent.event).bind BuildEvent.event with
  | some (.bazelEvent _ value) => some value
  | _ => none

def payloadsOf (requests : List Request) : List Bytes := requests.filterMap payloadOf

def framesFor (payloads : List Bytes) : List Bytes := payloads.map fun payload => (framed payload).2

/-- Each payload was framed with the counts of those before it. -/
def Admitted (payloads : List Bytes) : Prop :=
  ∀ front value, front ++ [value] <+: payloads → ∃ frame, frameBepPayload value (front.foldl .counting {}) = .ok frame

def Admits (requests : List Request) (stats : CaptureStats) : Prop :=
  Admitted (payloadsOf requests) ∧ stats = (payloadsOf requests).foldl .counting {}

/-- The frames are those of the first payloads, which were admitted. -/
def Fed (requests : List Request) (frames : List Bytes) : Prop :=
  ∃ payloads, payloads <+: payloadsOf requests ∧ Admitted payloads ∧ frames = framesFor payloads

variable {stats : CaptureStats} {payloads frames : List Bytes} {requests : List Request} {log : List Action} {identity : StreamId}

theorem framesOf_payloads (requests : List Request) : framesOf requests = framesFor (payloadsOf requests) := by
  rw [framesFor,payloadsOf,map_filterMap]
  refine filterMap_congr fun request _ => ?_
  unfold framedOf payloadOf
  cases request.orderedBuildEvent.bind OrderedBuildEvent.event with
  | none => rfl
  | some event =>
    rcases event with ⟨_ | ⟨_,value⟩ | type⟩
    · rfl
    · simp [eventFrame,framed,encodeVarint_eq]
    · rfl

theorem payloadsOf_append (more : List Request) : payloadsOf (requests ++ more) = payloadsOf requests ++ payloadsOf more := filterMap_append

theorem Admitted.push {value frame : Bytes} (admitted : Admitted payloads)
    (accepted : frameBepPayload value (payloads.foldl .counting {}) = .ok frame) : Admitted (payloads ++ [value]) := by
  intro front last isFirst
  obtain whole | shorter := prefix_concat_iff.mp isFirst
  · obtain ⟨rfl,same⟩ := append_inj' whole rfl
    cases same
    exact ⟨_,accepted⟩
  · exact admitted front last shorter

theorem Admitted.framed (front : List Bytes) (admitted : Admitted (front ++ payloads)) :
    framePayloads (front.foldl .counting {}) payloads = .ok (framesFor payloads) := by
  -- the front grows with each payload
  induction payloads generalizing front with
  | nil => rfl
  | cons payload rest ih =>
    obtain ⟨frame,accepted⟩ := admitted front payload ⟨rest,by simp⟩
    have later := ih (front ++ [payload]) (by simpa using admitted)
    simp only [foldl_append,foldl_cons,foldl_nil] at later
    simp only [framePayloads,accepted,(frameBepPayload_limits accepted).1,later]
    rfl

theorem Fed.start (fed : Fed requests frames) {taken : List Bytes} (isFirst : taken <+: frames) : Fed requests taken := by
  obtain ⟨payloads,inside,admitted,rfl⟩ := fed
  obtain ⟨fewer,less,rfl⟩ := prefix_map_iff.mp isFirst
  exact ⟨fewer,less.trans inside,fun _ _ early => admitted _ _ (early.trans less),rfl⟩

theorem Fed.extend (fed : Fed requests frames) (more : List Request) : Fed (requests ++ more) frames := by
  obtain ⟨payloads,inside,rest⟩ := fed
  exact ⟨payloads,inside.trans ((prefix_append requests more).filterMap _),rest⟩

theorem fed_of_sound (sound : Sound identity requests log) (admitted : Admitted (payloadsOf requests)) : Fed requests (received log) := by
  obtain ⟨count,_,same⟩ := sound.received
  rw [same]
  have fed : Fed requests (framesOf requests) := ⟨_,prefix_rfl,admitted,framesOf_payloads _⟩
  exact fed.start (( take_prefix count requests).filterMap _)

/-! ### One request -/

theorem proceed_ok {α β : Type} {outcome : Outcome α} {next : α → List Action → Outcome β} {value : β}
    (ok : proceed outcome next = (.ok value,log)) : ∃ first before, outcome = (.ok first,before) ∧ next first before = (.ok value,log) := by
  unfold proceed at ok
  split at ok
  · cases ok
  · exact ⟨_,_,rfl,ok⟩

variable {environment : Environment} {state after : StreamState} {rest : List Action} {request : Request} {response : Response}

theorem flushInLoop_stats (ok : flushInLoop environment state log = (.ok after,rest)) : after.stats = state.stats := by
  obtain ⟨_,_,flushed,same⟩ := proceed_ok ok
  cases same
  unfold flushCaptureBatch at flushed
  split at flushed
  · cases flushed
    rfl
  · obtain ⟨_,_,_,responding⟩ := proceed_ok flushed
    obtain ⟨_,_,_,same⟩ := proceed_ok responding
    cases same
    rfl

/-- A request that is turned down for itself leaves no trace; otherwise its payload was admitted. -/
def Admitting (requests : List Request) (request : Request) (log : List Action) : Outcome StreamState → Prop
  | (.ok after,_) => Admits (requests ++ [request]) after.stats
  | (.error _,rest) => rest = log ∨ Admitted (payloadsOf (requests ++ [request]))

theorem admitting_of_stats (admits : Admits (requests ++ [request]) stats) {outcome : Outcome StreamState}
    (keeps : ∀ after rest, outcome = (.ok after,rest) → after.stats = stats) : Admitting requests request log outcome := by
  obtain ⟨result,rest⟩ := outcome
  cases result with
  | error error => exact .inr admits.1
  | ok after =>
    obtain rfl := keeps after rest rfl
    exact admits

theorem handleEvent_admits {event : BuildEvent} (admits : Admits requests state.stats)
    (carried : request.orderedBuildEvent.bind OrderedBuildEvent.event = some event) :
    Admitting requests request log (handleEvent environment state response event.event log) := by
  have silent (bare : payloadsOf [request] = []) : Admits (requests ++ [request]) state.stats := by
    unfold Admits
    rw [payloadsOf_append,bare,append_nil]
    exact admits
  unfold handleEvent
  split
  · rename_i typeUrl value isEvent
    unfold handleBazelEvent
    split
    · exact .inl rfl
    split
    · exact .inl rfl
    rename_i frame accepted
    have pushed : Admits (requests ++ [request]) (pushFrame state response value frame).stats := by
      have payload : payloadsOf [request] = [value] := by simp [payloadsOf,payloadOf,carried,isEvent]
      unfold Admits
      rw [payloadsOf_append,payload,foldl_append,← admits.2]
      rw [admits.2] at accepted
      exact ⟨admits.1.push accepted,rfl⟩
    dsimp only
    split
    · exact admitting_of_stats pushed fun _ _ => flushInLoop_stats
    · exact pushed
  · rename_i isEvent
    unfold handleFinished
    split
    · exact .inl rfl
    refine admitting_of_stats (silent (by simp [payloadsOf,payloadOf,carried,isEvent])) fun after rest ok => ?_
    obtain ⟨_,_,flushed,ok⟩ := proceed_ok ok
    obtain ⟨_,_,_,ok⟩ := proceed_ok ok
    obtain ⟨_,_,_,responded⟩ := proceed_ok ok
    cases responded
    have same := flushInLoop_stats flushed
    exact same
  · rename_i isEvent
    refine admitting_of_stats (silent (by simp [payloadsOf,payloadOf,carried,isEvent])) fun after rest ok => ?_
    obtain ⟨_,_,flushed,ok⟩ := proceed_ok ok
    obtain ⟨_,_,_,responded⟩ := proceed_ok ok
    cases responded
    exact flushInLoop_stats flushed

theorem acceptRequest_admits (admits : Admits requests state.stats) (request : Request) :
    Admitting requests request log (acceptRequest environment identity state request log) := by
  unfold acceptRequest
  split
  · exact .inl rfl
  rename_i ordered event checked ok
  obtain ⟨isOrdered,isEvent,_,rfl⟩ := checkRequest_ok ok
  have handled := @handleEvent_admits requests log environment { state with requestCount := saturatingAdd state.requestCount 1 }
    request ⟨identity,ordered.sequenceNumber⟩ event admits (by rw [isOrdered]; exact isEvent)
  generalize handleEvent environment _ _ _ log = outcome at handled ⊢
  rcases outcome with ⟨error | after,rest⟩
  · exact handled
  · simp only [proceed]
    split
    · exact .inr handled.1
    · exact handled

/-! ### The whole stream -/

def Feeds (requests : List Request) : Outcome StreamState → Prop
  | (.ok _,_) => Admitted (payloadsOf requests)
  | (.error _,log) => Fed requests (received log)

variable (environment)

-- Beside what the stream tracks, its counts are those of payloads that were admitted.
theorem streamLoop_feeds (arrivals : List Arrival) (tracks : Tracks identity requests ((requests.length : Int)+1) state log)
    (admits : Admits requests state.stats) :
    Feeds (requests ++ messages arrivals) (streamLoop environment identity arrivals state log) := by
  induction arrivals generalizing requests state log with
  | nil =>
    simp only [messages,filterMap_nil,append_nil]
    exact admits.1
  | cons arrival rest ih =>
    cases arrival with
    | failed status => exact (fed_of_sound tracks.sound admits.1).extend _
    | yielded =>
      simp only [streamLoop]
      split
      · exact ih tracks admits
      have flushed := flushInLoop_tracks environment tracks
      unfold proceed
      split
      · rename_i failed
        rw [failed] at flushed
        exact (fed_of_sound flushed admits.1).extend _
      · rename_i fine
        rw [fine] at flushed
        refine ih flushed.tracks ?_
        rw [flushInLoop_stats fine]
        exact admits
    | message request =>
      have split : requests ++ messages (.message request::rest) = (requests ++ [request]) ++ messages rest := by
        simp [messages]
      rw [split]
      have tracked := acceptRequest_tracks environment request tracks
      have admitting := @acceptRequest_admits requests log identity environment state admits request
      simp only [streamLoop]
      generalize acceptRequest environment identity state request log = outcome at tracked admitting ⊢
      rcases outcome with ⟨error | after,seen⟩
      · obtain rfl | admitted := admitting
        · exact ((fed_of_sound tracks.sound admits.1).extend _).extend _
        · exact (fed_of_sound tracked admitted).extend _
      · exact ih tracked admitting

theorem captureStream_feeds (first : Request) (arrivals : List Arrival) :
    Fed (first::messages arrivals) (received (captureStream environment first arrivals).2) := by
  obtain ⟨_,sound⟩ := captureStream_sound environment first arrivals
  rw [captureStream_log] at sound ⊢
  unfold drainStream at sound ⊢
  split
  · exact ⟨[], nil_prefix,by simp [Admitted],rfl⟩
  rename_i identity known
  rw [known] at sound
  have feeds := streamLoop_feeds environment (.message first::arrivals) (tracks_new identity) ⟨by simp [Admitted,payloadsOf],rfl⟩
  dsimp only at sound
  cases looped : streamLoop environment identity (.message first::arrivals) {} [] with
  | mk result log =>
    rw [looped] at feeds sound
    cases result with
    | error error => exact feeds
    | ok state => exact fed_of_sound sound feeds

/-! ### The pipeline behind it -/

open Capture Capture.CapturePipeline
variable {δ V A D : Type} (bep : Bep δ V A D) (limits : Option (Nat × Nat))

theorem attempt_steady (visits : List (Bytes × Bytes)) (steady : ∀ visit ∈ visits, evictedFrame bep visit.1 = false) :
    (attempt bep limits visits).kept = visits ∧ (attempt bep limits visits).expectingRetry = false ∧
      (attempt bep limits visits).reduction = reduce bep limits visits := by
  induction visits using reverseRecOn with
  | nil => exact ⟨rfl,rfl,rfl⟩
  | append_singleton visits last ih =>
    obtain ⟨kept,calm,reduction⟩ := ih fun visit member => steady visit (by simp [member])
    rw [attempt_push,reduce_push]
    simp [Attempt.visit,steady last (by simp),kept,calm,reduction]

/-- However the run ends, and wherever its reader stops: the frames taken in are those of the first
payloads, decoded up to the first that is no event. Without an eviction all bytes are kept, and every
event up to there is observed. -/
theorem stream_reduced (first : Request) (arrivals : List Arrival) (taken : List Bytes)
    (reads : taken <+: received (captureStream environment first arrivals).2) :
    ∃ payloads, payloads <+: payloadsOf (first::messages arrivals) ∧ taken = framesFor payloads ∧
      visits bep taken.flatten = (untilFailure bep.decodeView payloads).1.map framed ∧
      ((∀ visit ∈ visits bep taken.flatten, evictedFrame bep visit.1 = false) →
        evidence bep limits .bes taken = taken.flatten ∧ ∃ outcome,
          liveReport bep limits .bes taken =
            .ok ((completeEvents bep taken.flatten).foldl bep.observeBorrowed (bep.newAccumulator limits),outcome) ∧
          outcome.terminalError = (untilFailure bep.decodeView payloads).2.map .decode) := by
  obtain ⟨payloads,inside,admitted,rfl⟩ := (captureStream_feeds environment first arrivals).start reads
  have borrows : ∀ payload, BorrowedBepEvent.decode bep.decodeView payload =
      (bep.decodeView payload).map fun view => ⟨view,payload⟩ := by
    intro payload
    unfold BorrowedBepEvent.decode
    cases bep.decodeView payload <;> rfl
  obtain ⟨visited,ended⟩ := decodeChunks_framed _ (·.frameBytes) (attemptControl bep) borrows (fun _ _ => rfl) ()
    (admitted.framed []) flatten_singleton
  refine ⟨payloads,inside,rfl,visited,fun steady => ?_⟩
  obtain ⟨kept,calm,reduction⟩ := attempt_steady bep limits _ steady
  constructor
  · rw [evidence_eq,kept]
    exact reached_bytes bep _
  · rw [liveReport_eq,report,calm,reduction]
    have observed := reduce_events bep limits bep.newAccumulator bep.observeBorrowed (visits_decode bep (framesFor payloads).flatten)
    exact ⟨_,congrArg (fun found => Except.ok (found,(decoded bep (framesFor payloads).flatten).1)) observed,ended⟩

theorem stream_reduced_yielded : received (captureStream willing (event 1) [.yielded]).2 = [[0]] ∧
    evidence byteEvents none .bes [[0]] = [0] := by
  have reads : received (captureStream willing (event 1) [.yielded]).2 = [[0]] := by decide +kernel
  obtain ⟨_,_,_,_,kept⟩ := stream_reduced willing byteEvents none (event 1) [.yielded] [[0]] (reads ▸ prefix_rfl)
  exact ⟨reads,(kept (by decide)).1⟩

end BazelMcp.BuildEventService

import BazelMcp.BuildEventService
import BazelMcp.FrameReading

/-! What the build event service frames, the incremental decoder reads. The
service counts bytes and events over the whole stream; the decoder starts its
counts anew when its visitor asks for it and so never counts more. -/
namespace BazelMcp.BuildEventService
open Framing Segments IncrementalStreamDecoder

variable {δ σ V : Type}

/-- The counts that `capture_stream` keeps beside the frames. -/
def CaptureStats.counting (stats : CaptureStats) (value : Bytes) : CaptureStats where
  eventCount := saturatingAdd stats.eventCount 1
  bepBytes := saturatingAdd stats.bepBytes value.length

def framePayloads : CaptureStats → List Bytes → Except String (List Bytes)
  | _, [] => .ok []
  | stats, payload::rest =>
    match frameBepPayload payload stats with
    | .error error => .error error
    | .ok framed =>
      match framePayloads (stats.counting payload) rest with
      | .error error => .error error
      | .ok others => .ok (framed::others)

/-- The payloads in front of the first that does not decode, and its error. -/
def untilFailure (decode : Bytes → Except δ V) : List Bytes → List Bytes × Option δ
  | [] => ([],none)
  | payload::rest =>
    match decode payload with
    | .error error => ([],some error)
    | .ok _ => (payload::(untilFailure decode rest).1,(untilFailure decode rest).2)

theorem encodeVarint_eq (value : Nat) : encodeVarint value = writeVarint value := by
  induction value using Nat.strongRecOn with
  | ind value ih =>
    rw [encodeVarint,writeVarint]
    split
    · rw [ih (value/128) (by omega)]
    · rfl

variable {payload : Bytes} {stats : CaptureStats} {session : Session δ σ}

theorem frameBepPayload_limits {framed : Bytes} (accepted : frameBepPayload payload stats = .ok framed) :
    framed = writeVarint payload.length ++ payload ∧ payload.length ≤ defaultMaxFrameBytes ∧
      saturatingAdd stats.bepBytes payload.length ≤ defaultMaxStreamBytes ∧ stats.eventCount < defaultMaxStreamEvents := by
  unfold frameBepPayload at accepted
  dsimp only at accepted
  split at accepted
  · cases accepted
  rename_i small
  split at accepted
  · cases accepted
  rename_i room
  split at accepted
  · cases accepted
  rename_i few
  cases accepted
  rw [encodeVarint_eq]
  exact ⟨rfl,Nat.le_of_not_lt small,Nat.le_of_not_lt room,Nat.lt_of_not_le few⟩

theorem framed_complete (small : payload.length ≤ defaultMaxFrameBytes) : Framed payload (writeVarint payload.length ++ payload) := by
  have limit : defaultMaxFrameBytes = 0x4000000 := rfl
  exact ⟨_,rfl,writeVarint_length payload.length 9 (by omega),lengthOf_writeVarint _⟩

/-- The decoder has failed nowhere and has counted no more than the service. -/
structure Trails (stats : CaptureStats) (session : Session δ σ) : Prop where
  active : session.1.terminalError = none
  frame : session.1.maxFrameBytes = defaultMaxFrameBytes
  stream : session.1.maxStreamBytes = defaultMaxStreamBytes
  events : session.1.maxEvents = defaultMaxStreamEvents
  bytes : session.1.decodedBytes ≤ stats.bepBytes
  count : session.1.eventCount ≤ stats.eventCount

theorem Trails.going (trails : Trails stats session) : session.1.isTerminal = false := by
  unfold isTerminal
  rw [trails.active]
  rfl

theorem Trails.advance (trails : Trails stats session) (payload : Bytes) (control : IncrementalStreamControl) (state : σ) :
    Trails (stats.counting payload) (Framing.advance session.1 payload.length control,state) := by
  match control with
  | .continue =>
    exact ⟨trails.active,trails.frame,trails.stream,trails.events,saturatingAdd_mono trails.bytes _,saturatingAdd_mono trails.count _⟩
  | .resetAfterFrame => exact ⟨trails.active,trails.frame,trails.stream,trails.events,Nat.zero_le _,Nat.zero_le _⟩

section Decoding
variable {E : Type} (decode : Bytes → Except δ E) (frameOf : E → Bytes) (visitor : Visitor σ E)

def framed (payload : Bytes) : Bytes × Bytes := (payload,writeVarint payload.length ++ payload)

theorem consume_framed (named : ∀ payload event, decode payload = .ok event → frameOf event = payload) (payloads : List Bytes)
    (stats : CaptureStats) (framedPayloads : List Bytes) (accepted : framePayloads stats payloads = .ok framedPayloads)
    (session : Session δ (σ × List (Bytes × Bytes))) (trails : Trails stats session) :
    let ended := consume (frames defaultMaxFrameBytes) (listener (visiting decode (recording frameOf visitor))) session
      framedPayloads.flatten
    ended.1.2.2 = session.2.2 ++ (untilFailure decode payloads).1.map framed ∧
      ({ended.1.1 with pending := ended.2}).finish.terminalError = (untilFailure decode payloads).2.map .decode := by
  induction payloads generalizing stats framedPayloads session with
  | nil =>
    cases accepted
    rw [List.flatten_nil,consume_more _ _ _ rfl]
    simp [untilFailure,finish,trails.active]
  | cons payload rest ih =>
    unfold framePayloads at accepted
    split at accepted
    · cases accepted
    rename_i first framing
    split at accepted
    · cases accepted
    rename_i others later
    cases accepted
    obtain ⟨rfl,small,room,few⟩ := frameBepPayload_limits framing
    have fits : saturatingAdd session.1.decodedBytes payload.length ≤ session.1.maxStreamBytes := by
      rw [trails.stream]
      exact (saturatingAdd_mono trails.bytes _).trans room
    have counted : session.1.eventCount < session.1.maxEvents := by
      rw [trails.events]
      exact Nat.lt_of_le_of_lt trails.count few
    rw [List.flatten_cons,consume_frame _ session trails.going (framed_complete small) small]
    cases decoded : decode payload with
    | error error =>
      have failed : decodeFrame (visiting decode (recording frameOf visitor)) session payload (writeVarint payload.length ++ payload) =
          ({ session.1 with
            decodedBytes := saturatingAdd session.1.decodedBytes payload.length
            terminalError := some (.decode error) },session.2) := by
        unfold decodeFrame visitDecodedFrame
        simp only [if_neg (Nat.not_lt.mpr fits),if_neg (Nat.not_le.mpr counted),visiting,decoded]
        rfl
      have stopped : (decodeFrame (visiting decode (recording frameOf visitor)) session payload
          (writeVarint payload.length ++ payload)).1.isTerminal = true := by
        rw [failed]
        rfl
      rw [if_pos stopped,failed]
      simp [untilFailure,decoded,finish]
    | ok event =>
      have visited : visiting decode (recording frameOf visitor) session.2 payload (writeVarint payload.length ++ payload) =
          .ok (recording frameOf visitor session.2 event (writeVarint payload.length ++ payload)) := by
        unfold visiting
        rw [decoded]
        rfl
      have frame := decodeFrame_ok (visiting decode (recording frameOf visitor)) session fits counted visited
      have further := trails.advance payload (recording frameOf visitor session.2 event (writeVarint payload.length ++ payload)).1
        (recording frameOf visitor session.2 event (writeVarint payload.length ++ payload)).2
      have going : ¬ (decodeFrame (visiting decode (recording frameOf visitor)) session payload
          (writeVarint payload.length ++ payload)).1.isTerminal = true := by
        rw [frame]
        exact ne_true_of_eq_false further.going
      rw [if_neg going,frame]
      obtain ⟨visits,ending⟩ := ih _ _ later _ further
      refine ⟨visits.trans ?_,ending.trans ?_⟩
      · simp [untilFailure,decoded,recording,framed,named payload event decoded]
      · simp [untilFailure,decoded]

variable {inner : Bytes → Except δ V} {wrap : Bytes → V → E}

theorem untilFailure_wrapped (wrapped : ∀ payload, decode payload = (inner payload).map (wrap payload)) (payloads : List Bytes) :
    untilFailure decode payloads = untilFailure inner payloads := by
  induction payloads with
  | nil => rfl
  | cons payload rest ih =>
    unfold untilFailure
    rw [wrapped payload,ih]
    cases inner payload with
    | error error | ok view => rfl

theorem decodeChunks_framed
    (wrapped : ∀ payload, decode payload = (inner payload).map (wrap payload)) (named : ∀ payload view, frameOf (wrap payload view) = payload)
    (state : σ) {payloads framedPayloads chunks : List Bytes} (accepted : framePayloads {} payloads = .ok framedPayloads)
    (cut : chunks.flatten = framedPayloads.flatten) :
    let outcome := decodeChunks (pushFrames (decodeFrame (visiting decode (recording frameOf visitor))))
      (.new defaultMaxFrameBytes defaultMaxStreamBytes defaultMaxStreamEvents,(state,[])) chunks
    outcome.2.2 = (untilFailure inner payloads).1.map framed ∧
      outcome.1.terminalError = (untilFailure inner payloads).2.map .decode := by
  have unwrapped : ∀ payload event, decode payload = .ok event → frameOf event = payload := by
    intro payload event decoded
    rw [wrapped] at decoded
    cases read : inner payload with
    | error error =>
      rw [read] at decoded
      cases decoded
    | ok view =>
      rw [read] at decoded
      cases decoded
      exact named payload view
  have agrees := (pushChunks_agrees (visiting decode (recording frameOf visitor)) chunks
    ((.new defaultMaxFrameBytes defaultMaxStreamBytes defaultMaxStreamEvents,(state,[])) : Session δ (σ × List (Bytes × Bytes)))
    (waiting_new _ _ _ _)).outcome
  obtain ⟨visits,ending⟩ := consume_framed decode frameOf visitor unwrapped payloads {} framedPayloads accepted
    (.new defaultMaxFrameBytes defaultMaxStreamBytes defaultMaxStreamEvents,(state,[]))
    ⟨rfl,rfl,rfl,rfl,Nat.le_refl _,Nat.le_refl _⟩
  rw [← cut,untilFailure_wrapped decode wrapped] at visits ending
  exact ⟨(congrArg (·.2.2) agrees).trans visits,(congrArg (·.1.terminalError) agrees).trans ending⟩

end Decoding

/-- The concatenation of accepted frames, in any chunks, is decoded to the payloads in order up to the
first that is no event, whatever the visitors do; no limit and no length is ever in the way. -/
theorem framed_payloads_decode (decode decodeView : Bytes → Except δ V) (owned : Visitor σ (BepEvent V))
    (borrowed : Visitor σ (BorrowedBepEvent V)) (state : σ) (payloads framedPayloads chunks : List Bytes)
    (accepted : framePayloads {} payloads = .ok framedPayloads) (cut : chunks.flatten = framedPayloads.flatten) :
    (let outcome := decodeChunks (pushFramed decode (recording (·.frame) owned))
        (.new defaultMaxFrameBytes defaultMaxStreamBytes defaultMaxStreamEvents,(state,[])) chunks;
      outcome.2.2 = (untilFailure decode payloads).1.map framed ∧
        outcome.1.terminalError = (untilFailure decode payloads).2.map .decode) ∧
    (let outcome := decodeChunks (pushFramedBorrowed decodeView (recording (·.frameBytes) borrowed))
        (.new defaultMaxFrameBytes defaultMaxStreamBytes defaultMaxStreamEvents,(state,[])) chunks;
      outcome.2.2 = (untilFailure decodeView payloads).1.map framed ∧
        outcome.1.terminalError = (untilFailure decodeView payloads).2.map .decode) := by
  have owns : ∀ payload, BepEvent.decodeSlice decode payload = (decode payload).map fun view => ⟨view,payload⟩ := by
    intro payload
    unfold BepEvent.decodeSlice
    cases decode payload <;> rfl
  have borrows : ∀ payload, BorrowedBepEvent.decode decodeView payload = (decodeView payload).map fun view => ⟨view,payload⟩ := by
    intro payload
    unfold BorrowedBepEvent.decode
    cases decodeView payload <;> rfl
  exact ⟨decodeChunks_framed _ _ owned owns (fun _ _ => rfl) state accepted cut,
    decodeChunks_framed _ _ borrowed borrows (fun _ _ => rfl) state accepted cut⟩

/-- Three payloads of one byte, the second of which is no event, in chunks that cut the frames. -/
theorem framed_payloads_decode_second_invalid :
    let decode : Bytes → Except Unit Unit := fun payload => if payload = [255] then .error () else .ok ();
    let outcome := decodeChunks (pushFramed decode (recording (·.frame) fun (_ : Unit) _ _ => (.resetAfterFrame,())))
      (.new defaultMaxFrameBytes defaultMaxStreamBytes defaultMaxStreamEvents,((),[])) [[1],[7,1],[255,1,9]];
    framePayloads {} [[7],[255],[9]] = .ok [[1,7],[1,255],[1,9]] ∧ outcome.2.2 = [([7],[1,7])] ∧
      outcome.1.terminalError = some (.decode ()) := by
  have accepted : framePayloads {} [[7],[255],[9]] = .ok [[1,7],[1,255],[1,9]] := by
    simp [framePayloads,frameBepPayload,CaptureStats.counting,encodeVarint_eq,writeVarint,saturatingAdd,usizeMax,
      defaultMaxFrameBytes,defaultMaxStreamBytes,defaultMaxStreamEvents]
  have decoded := (framed_payloads_decode (fun payload => if payload = [255] then .error () else .ok ())
    (fun _ => (.ok () : Except Unit Unit)) (fun (_ : Unit) _ _ => (.resetAfterFrame,())) (fun _ _ _ => (.continue,())) ()
    [[7],[255],[9]] [[1,7],[1,255],[1,9]] [[1],[7,1],[255,1,9]] accepted rfl).1
  refine ⟨accepted,decoded.1.trans ?_,decoded.2.trans (by rfl)⟩
  simp [untilFailure,framed,writeVarint]

end BazelMcp.BuildEventService

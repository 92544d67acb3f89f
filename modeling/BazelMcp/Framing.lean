import BazelMcp.Segments
import BazelMcp.Types

/-! The incremental decoder of varint-delimited build event streams. The bottom
layer is the decoder as the code runs it, with its zero-copy path, its one
pending frame and the check behind the loop; above it the decoder is a consumer
of the stream's segments, so that the places where the input is cut into chunks
drop out of everything it reports. -/
namespace BazelMcp.Framing
open Segments List

abbrev Bytes := List UInt8

def defaultMaxFrameBytes : Nat := 64*1024*1024
def defaultMaxStreamBytes : Nat := 128*1024*1024
def defaultMaxStreamEvents : Nat := 1000000

def saturatingAdd (left right : Nat) : Nat := min (left+right) usizeMax

/-- `δ` is the error of the protobuf decoder. -/
inductive FrameError (δ : Type) where
  | truncated
  | invalidVarint
  | tooLarge (actual limit : Nat)
  | streamTooLarge (actual limit : Nat)
  | tooManyEvents (actual limit : Nat)
  | decode (error : δ)
  deriving DecidableEq

structure StreamOutcome (δ : Type) where
  eventCount : Nat
  decodedBytes : Nat
  terminalError : Option (FrameError δ)
  deriving DecidableEq

inductive IncrementalStreamControl where
  | continue
  | resetAfterFrame
  deriving DecidableEq

/-- A decoded event that owns the protobuf frame its view borrows from. -/
structure BepEvent (V : Type) where
  view : V
  frame : Bytes

def BepEvent.decodeSlice {δ V : Type} (decode : Bytes → Except δ V) (frame : Bytes) : Except δ (BepEvent V) := do
  let view ← decode frame
  pure { view, frame }

/-- A decoded event that borrows its frame from the chunk or from the pending bytes. -/
structure BorrowedBepEvent (V : Type) where
  view : V
  frameBytes : Bytes

def BorrowedBepEvent.decode {δ V : Type} (decodeView : Bytes → Except δ V) (frame : Bytes) :
    Except δ (BorrowedBepEvent V) := do
  let view ← decodeView frame
  pure { view, frameBytes := frame }

inductive FrameState where
  | needPrefix
  | needPayload (totalBytes : Nat)
  | complete (prefixBytes frameBytes : Nat)
  deriving DecidableEq

/-- The loop of `inspect_frame` over the first ten bytes. The shifted payload
never loses a bit of its `u64`: at the only shift where it could, 63, payloads
above one are rejected first. -/
def inspectLoop {δ : Type} (inputLen maxBytes : Nat) : Nat → Nat → Bytes → Except (FrameError δ) FrameState
  | _, _, [] => if 10 ≤ inputLen then .error .invalidVarint else .ok .needPrefix
  | index, value, byte :: rest =>
    let shift := index*7
    let payload := (byte &&& 0x7f).toNat
    if shift = 63 ∧ 1 < payload then .error .invalidVarint else
      let value := value ||| (payload <<< shift)
      if byte &&& 0x80 = 0 then
        if maxBytes < value then .error (.tooLarge value maxBytes) else
          let prefixBytes := index+1
          let totalBytes := saturatingAdd prefixBytes value
          if totalBytes ≤ inputLen then .ok (.complete prefixBytes value) else .ok (.needPayload totalBytes)
      else inspectLoop inputLen maxBytes (index+1) value rest

def inspectFrame {δ : Type} (input : Bytes) (maxBytes : Nat) : Except (FrameError δ) FrameState :=
  inspectLoop input.length maxBytes 0 0 (input.take 10)

structure IncrementalStreamDecoder (δ : Type) where
  pending : Bytes
  decodedBytes : Nat
  eventCount : Nat
  maxFrameBytes : Nat
  maxStreamBytes : Nat
  maxEvents : Nat
  terminalError : Option (FrameError δ)
  deriving DecidableEq

def IncrementalStreamDecoder.new {δ : Type} (maxFrameBytes maxStreamBytes maxEvents : Nat) :
    IncrementalStreamDecoder δ :=
  { pending := [], decodedBytes := 0, eventCount := 0, maxFrameBytes, maxStreamBytes, maxEvents, terminalError := none }

def IncrementalStreamDecoder.isTerminal {δ : Type} (decoder : IncrementalStreamDecoder δ) : Bool :=
  decoder.terminalError.isSome

def IncrementalStreamDecoder.finish {δ : Type} (decoder : IncrementalStreamDecoder δ) : StreamOutcome δ :=
  { eventCount := decoder.eventCount
    decodedBytes := decoder.decodedBytes
    terminalError :=
      if decoder.terminalError.isNone && !decoder.pending.isEmpty then some .truncated else decoder.terminalError }

abbrev Session (δ σ : Type) := IncrementalStreamDecoder δ × σ

abbrev Visitor (σ E : Type) := σ → E → Bytes → IncrementalStreamControl × σ

variable {δ σ V : Type}

/-- `decode` runs the closure: it decodes the frame and calls the visitor. -/
def visitDecodedFrame (session : Session δ σ) (frameBytes : Nat)
    (decode : σ → Except δ (IncrementalStreamControl × σ)) : Session δ σ :=
  let (decoder,state) := session
  let nextBytes := saturatingAdd decoder.decodedBytes frameBytes
  if decoder.maxStreamBytes < nextBytes then
    ({ decoder with terminalError := some (.streamTooLarge nextBytes decoder.maxStreamBytes) },state)
  else if decoder.maxEvents ≤ decoder.eventCount then
    ({ decoder with terminalError := some (.tooManyEvents (saturatingAdd decoder.eventCount 1) decoder.maxEvents) },state)
  else
    match decode state with
    | .ok (.continue,state) =>
      ({ decoder with decodedBytes := nextBytes, eventCount := saturatingAdd decoder.eventCount 1 },state)
    | .ok (.resetAfterFrame,state) => ({ decoder with decodedBytes := 0, eventCount := 0 },state)
    | .error error => ({ decoder with decodedBytes := nextBytes, terminalError := some (.decode error) },state)

def decodeFrame (body : σ → Bytes → Bytes → Except δ (IncrementalStreamControl × σ)) (session : Session δ σ)
    (frame framed : Bytes) : Session δ σ :=
  visitDecodedFrame session frame.length fun state => body state frame framed

def visiting {E : Type} (decode : Bytes → Except δ E) (visitor : Visitor σ E) (state : σ) (frame framed : Bytes) :
    Except δ (IncrementalStreamControl × σ) := do
  let event ← decode frame
  pure (visitor state event framed)

def decodeOwnedFrame (decode : Bytes → Except δ V) (visitor : Visitor σ (BepEvent V)) :
    Session δ σ → Bytes → Bytes → Session δ σ :=
  decodeFrame (visiting (BepEvent.decodeSlice decode) visitor)

def decodeBorrowedFrame (decodeView : Bytes → Except δ V) (visitor : Visitor σ (BorrowedBepEvent V)) :
    Session δ σ → Bytes → Bytes → Session δ σ :=
  decodeFrame (visiting (BorrowedBepEvent.decode decodeView) visitor)

/-- The loop of `push_frames` and the check behind it. Every round consumes
input or empties the pending frame, so twice the input's length bounds the
rounds. `recycle_pending` only decides whether the taken frame's allocation is
kept: the pending bytes are empty after it in either case. -/
def pushLoop (decode : Session δ σ → Bytes → Bytes → Session δ σ) : Nat → Bytes → Session δ σ → Session δ σ
  | 0, _, session => session
  | _+1, [], (decoder,state) =>
    if decoder.pending.isEmpty then (decoder,state) else
      match inspectFrame decoder.pending decoder.maxFrameBytes with
      | .ok (.complete prefixBytes frameBytes) =>
        let consumed := saturatingAdd prefixBytes frameBytes
        let framed := decoder.pending
        decode ({ decoder with pending := [] },state) ((framed.take consumed).drop prefixBytes) (framed.take consumed)
      | .ok .needPrefix | .ok (.needPayload _) => (decoder,state)
      | .error error => ({ decoder with terminalError := some error },state)
  | fuel+1, byte :: rest, (decoder,state) =>
    let input := byte :: rest
    if decoder.pending.isEmpty then
      match inspectFrame input decoder.maxFrameBytes with
      | .ok (.complete prefixBytes frameBytes) =>
        let consumed := saturatingAdd prefixBytes frameBytes
        let session := decode (decoder,state) ((input.take consumed).drop prefixBytes) (input.take consumed)
        if session.1.isTerminal then session else pushLoop decode fuel (input.drop consumed) session
      | .ok .needPrefix | .ok (.needPayload _) => ({ decoder with pending := decoder.pending ++ input },state)
      | .error error => ({ decoder with terminalError := some error },state)
    else
      match inspectFrame decoder.pending decoder.maxFrameBytes with
      | .ok .needPrefix => pushLoop decode fuel rest ({ decoder with pending := decoder.pending ++ [byte] },state)
      | .ok (.needPayload totalBytes) =>
        let take := min input.length (totalBytes-decoder.pending.length)
        pushLoop decode fuel (input.drop take) ({ decoder with pending := decoder.pending ++ input.take take },state)
      | .ok (.complete prefixBytes frameBytes) =>
        let consumed := saturatingAdd prefixBytes frameBytes
        let framed := decoder.pending
        let session := decode ({ decoder with pending := [] },state)
          ((framed.take consumed).drop prefixBytes) (framed.take consumed)
        if session.1.isTerminal then session else pushLoop decode fuel input session
      | .error error => ({ decoder with terminalError := some error },state)

def pushFrames (decode : Session δ σ → Bytes → Bytes → Session δ σ) (input : Bytes) (session : Session δ σ) : Session δ σ :=
  if session.1.isTerminal then session else pushLoop decode (2*input.length+2) input session

def pushFramed (decode : Bytes → Except δ V) (visitor : Visitor σ (BepEvent V)) : Bytes → Session δ σ → Session δ σ :=
  pushFrames (decodeOwnedFrame decode visitor)

def pushFramedBorrowed (decodeView : Bytes → Except δ V) (visitor : Visitor σ (BorrowedBepEvent V)) :
    Bytes → Session δ σ → Session δ σ :=
  pushFrames (decodeBorrowedFrame decodeView visitor)

/-! ### What the first bytes of a buffer announce -/

inductive Header where
  | short
  | invalid
  | ends (prefixBytes value : Nat)

def header : Nat → Nat → Bytes → Header
  | _, _, [] => .short
  | index, value, byte :: rest =>
    let payload := (byte &&& 0x7f).toNat
    if index*7 = 63 ∧ 1 < payload then .invalid else
      let value := value ||| (payload <<< (index*7))
      if byte &&& 0x80 = 0 then .ends (index+1) value else header (index+1) value rest

@[grind =] def judge (inputLen maxBytes : Nat) : Header → Except (FrameError δ) FrameState
  | .short => if 10 ≤ inputLen then .error .invalidVarint else .ok .needPrefix
  | .invalid => .error .invalidVarint
  | .ends prefixBytes value =>
    if maxBytes < value then .error (.tooLarge value maxBytes)
    else if saturatingAdd prefixBytes value ≤ inputLen then .ok (.complete prefixBytes value)
    else .ok (.needPayload (saturatingAdd prefixBytes value))

theorem inspectLoop_header (inputLen maxBytes index value : Nat) (bytes : Bytes) :
    @inspectLoop δ inputLen maxBytes index value bytes = judge inputLen maxBytes (header index value bytes) := by
  induction bytes generalizing index value with
  | nil => rfl
  | cons byte rest ih =>
    simp only [inspectLoop,header]
    split
    · rfl
    · split
      · rfl
      · exact ih _ _

variable (rest : Bytes) {value prefixBytes : Nat} {error : FrameError δ} {verdict : Except (FrameError δ) FrameState}
  {session : Session δ σ} {buffer frame : Bytes}

variable {index : Nat} {bytes framed : Bytes}

theorem header_ends_bounds {length : Nat} (read : header index value bytes = .ends prefixBytes length) :
    index < prefixBytes ∧ prefixBytes ≤ index+bytes.length := by
  induction bytes generalizing index value with
  | nil => simp [header] at read
  | cons byte rest ih =>
    simp only [header] at read
    split at read
    · cases read
    split at read
    · cases read
      simp only [length_cons]
      omega
    · have bounds := ih read
      simp only [length_cons]
      omega

theorem header_append (settled : header index value bytes ≠ .short) :
    header index value (bytes ++ rest) = header index value bytes := by
  induction bytes generalizing index value with
  | nil => exact absurd rfl settled
  | cons byte bytes ih =>
    simp only [cons_append,header] at settled ⊢
    split
    · rfl
    split
    · rfl
    · rename_i valid continued
      rw [if_neg valid,if_neg continued] at settled
      exact ih settled

theorem header_push_ends {length : Nat} {byte : UInt8}
    (before : header index value bytes = .short) (read : header index value (bytes ++ [byte]) = .ends prefixBytes length) :
    prefixBytes = index+bytes.length+1 := by
  induction bytes generalizing index value with
  | nil =>
    simp only [nil_append,header] at read
    split at read
    · cases read
    · split at read <;> cases read
      rfl
  | cons first bytes ih =>
    simp only [cons_append,header] at before read
    split at before
    · cases before
    rename_i valid
    rw [if_neg valid] at read
    split at before
    · cases before
    rename_i continued
    rw [if_neg continued] at read
    have := ih before read
    simp only [length_cons]
    omega

def head (input : Bytes) : Header := header 0 0 (input.take 10)

theorem head_append (input rest : Bytes) (settled : head input ≠ .short ∨ 10 ≤ input.length) :
    head (input ++ rest) = head input := by
  unfold head at settled ⊢
  by_cases long : 10 ≤ input.length
  · rw [take_append_of_le_length long]
  have settled := settled.resolve_right long
  have whole : input.take 10 = input := take_of_length_le (by omega)
  rw [whole] at settled
  rw [take_append,whole]
  exact header_append _ settled

variable {maxBytes : Nat} {input : Bytes}

theorem inspectFrame_head (input : Bytes) (maxBytes : Nat) :
    @inspectFrame δ input maxBytes = judge input.length maxBytes (head input) :=
  inspectLoop_header input.length maxBytes 0 0 (input.take 10)

theorem inspectFrame_needPrefix : @inspectFrame δ input maxBytes = .ok .needPrefix ↔ head input = .short ∧ input.length < 10 := by
  rw [inspectFrame_head]
  cases head input <;> grind

theorem inspectFrame_needPayload {totalBytes : Nat} : @inspectFrame δ input maxBytes = .ok (.needPayload totalBytes) ↔
      ∃ prefixBytes value, head input = .ends prefixBytes value ∧ value ≤ maxBytes ∧
        totalBytes = saturatingAdd prefixBytes value ∧ input.length < totalBytes := by
  rw [inspectFrame_head]
  cases head input <;> grind

theorem inspectFrame_complete : @inspectFrame δ input maxBytes = .ok (.complete prefixBytes value) ↔
      head input = .ends prefixBytes value ∧ value ≤ maxBytes ∧ saturatingAdd prefixBytes value ≤ input.length := by
  rw [inspectFrame_head]
  cases head input <;> grind

theorem inspectFrame_complete_append (found : @inspectFrame δ input maxBytes = .ok (.complete prefixBytes value)) :
    @inspectFrame δ (input ++ rest) maxBytes = .ok (.complete prefixBytes value) := by
  obtain ⟨read,small,fits⟩ := inspectFrame_complete.mp found
  have same := head_append input rest (.inl (by simp [read]))
  refine inspectFrame_complete.mpr ⟨same.trans read,small,?_⟩
  simp only [length_append]
  omega

theorem inspectFrame_error_append (found : inspectFrame input maxBytes = .error error) :
    inspectFrame (input ++ rest) maxBytes = .error error := by
  rw [inspectFrame_head] at found ⊢
  cases read : head input with
  | short =>
    have long : 10 ≤ input.length := by grind
    rw [head_append input rest (.inr long),read]
    rw [read] at found
    have longer : 10 ≤ (input ++ rest).length := by
      simp only [length_append]
      omega
    simp only [judge,long,longer,if_true] at found ⊢
    exact found
  | invalid =>
    rw [head_append input rest (.inl (by simp [read])),read]
    rw [read] at found
    exact found
  | ends prefixBytes value =>
    rw [head_append input rest (.inl (by simp [read])),read]
    rw [read] at found
    have large : maxBytes < value := by grind
    simp only [judge,large,if_true] at found ⊢
    exact found

theorem complete_pos (found : @inspectFrame δ input maxBytes = .ok (.complete prefixBytes value)) :
    0 < saturatingAdd prefixBytes value := by
  have bounds := header_ends_bounds (inspectFrame_complete.mp found).1
  simp only [saturatingAdd,usizeMax]
  omega

/-- The verdict of `inspect_frame` as a cut of the stream. -/
def cutOf : Except (FrameError δ) FrameState → Cut (FrameError δ)
  | .ok (.complete prefixBytes frameBytes) => .take prefixBytes (saturatingAdd prefixBytes frameBytes)
  | .ok .needPrefix | .ok (.needPayload _) => .more
  | .error error => .fail error

theorem cutOf_take {skip size : Nat} (found : cutOf verdict = .take skip size) :
    ∃ frameBytes, verdict = .ok (.complete skip frameBytes) ∧ size = saturatingAdd skip frameBytes := by
  unfold cutOf at found
  split at found <;> cases found
  exact ⟨_,rfl,rfl⟩

theorem cutOf_fail (found : cutOf verdict = .fail error) : verdict = .error error := by
  unfold cutOf at found
  split at found <;> cases found
  rfl

def frames (maxBytes : Nat) : Cutter UInt8 (FrameError δ) where
  cut input := cutOf (inspectFrame input maxBytes)
  take_pos found := by
    obtain ⟨frameBytes,complete,rfl⟩ := cutOf_take found
    exact complete_pos complete
  take_le found := by
    obtain ⟨frameBytes,complete,rfl⟩ := cutOf_take found
    exact (inspectFrame_complete.mp complete).2.2
  take_append rest found := by
    obtain ⟨frameBytes,complete,rfl⟩ := cutOf_take found
    rw [inspectFrame_complete_append rest complete]
    rfl
  fail_append rest found := by
    rw [inspectFrame_error_append rest (cutOf_fail found)]
    rfl

/-! ### The decoder as a consumer of frames -/

def listener (body : σ → Bytes → Bytes → Except δ (IncrementalStreamControl × σ)) :
    Consumer UInt8 (FrameError δ) (Session δ σ) where
  segment := decodeFrame body
  failed session error := ({ session.1 with terminalError := some error },session.2)
  stopped session := session.1.isTerminal
  failed_stopped _ _ := rfl

def clear (session : Session δ σ) : Session δ σ := ({ session.1 with pending := [] },session.2)

variable (body : σ → Bytes → Bytes → Except δ (IncrementalStreamControl × σ))

theorem decodeFrame_keeps (session : Session δ σ) (frame framed : Bytes) :
    (decodeFrame body session frame framed).1.pending = session.1.pending ∧
      (decodeFrame body session frame framed).1.maxFrameBytes = session.1.maxFrameBytes := by
  unfold decodeFrame visitDecodedFrame
  dsimp only
  split
  · exact ⟨rfl,rfl⟩
  · split
    · exact ⟨rfl,rfl⟩
    · split <;> exact ⟨rfl,rfl⟩

/-- The pending bytes never reach beyond the end of the frame they start. -/
def Tight (δ : Type) (maxBytes : Nat) (pending : Bytes) : Prop :=
  ∀ prefixBytes frameBytes, @inspectFrame δ pending maxBytes =
    .ok (.complete prefixBytes frameBytes) → saturatingAdd prefixBytes frameBytes = pending.length

theorem tight_nil : Tight δ maxBytes [] := by
  intro prefixBytes frameBytes found
  have bounds := header_ends_bounds (inspectFrame_complete.mp found).1
  simp at bounds
  omega

theorem tight_push (byte : UInt8) (found : @inspectFrame δ input maxBytes = .ok .needPrefix) :
    Tight δ maxBytes (input ++ [byte]) := by
  intro prefixBytes frameBytes complete
  obtain ⟨before,few⟩ := inspectFrame_needPrefix.mp found
  obtain ⟨read,_,fits⟩ := inspectFrame_complete.mp complete
  have fewer : (input ++ [byte]).length ≤ 10 := by
    simp only [length_append,length_singleton]
    omega
  unfold head at before read
  rw [take_of_length_le (show input.length ≤ 10 by omega)] at before
  rw [take_of_length_le fewer] at read
  have whole := header_push_ends before read
  simp only [saturatingAdd,usizeMax,length_append,length_singleton] at fits ⊢
  omega

theorem tight_extend {totalBytes : Nat} (found : @inspectFrame δ input maxBytes = .ok (.needPayload totalBytes))
    (few : rest.length ≤ totalBytes-input.length) : Tight δ maxBytes (input ++ rest) := by
  intro prefixBytes frameBytes complete
  obtain ⟨skip,value,before,_,rfl,short⟩ := inspectFrame_needPayload.mp found
  obtain ⟨read,_,fits⟩ := inspectFrame_complete.mp complete
  rw [head_append input rest (.inl (by simp [before])),before] at read
  cases read
  simp only [length_append] at fits ⊢
  omega

/-- What a push leaves behind, against the frames consumed from the bytes that
were pending and the new ones: after an error the pending bytes are not looked
at any more. -/
structure Agrees (actual : Session δ σ) (ideal : Session δ σ × Bytes) : Prop where
  cleared : clear actual = ideal.1
  waiting : actual.1.isTerminal = false → actual.1.pending = ideal.2

theorem clear_eq (empty : session.1.pending = []) : clear session = session := by
  unfold clear
  rw [← empty]

theorem agrees_stopped (empty : session.1.pending = []) (stopped : session.1.isTerminal = true)
    (buffer : Bytes) : Agrees session (session,buffer) :=
  ⟨clear_eq empty,fun active => absurd stopped (by simp [active])⟩

theorem decodeFrame_pending (empty : session.1.pending = []) (frame framed : Bytes) :
    (decodeFrame body session frame framed).1.pending = [] :=
  (decodeFrame_keeps body session frame framed).1.trans empty

/-- A complete frame in front of the stream: the loop decodes it and goes on
with what follows, unless the frame ended the session. -/
theorem agrees_take (session : Session δ σ) (active : session.1.isTerminal = false) (empty : session.1.pending = [])
    {rest : Bytes} {frameBytes : Nat} (found : @inspectFrame δ buffer session.1.maxFrameBytes =
      .ok (.complete prefixBytes frameBytes))
    (framedEq : buffer.take (saturatingAdd prefixBytes frameBytes) = framed) (frameEq : framed.drop prefixBytes = frame)
    (restEq : buffer.drop (saturatingAdd prefixBytes frameBytes) = rest) (after : Session δ σ)
    (goesOn : (decodeFrame body session frame framed).1.isTerminal = false →
      Agrees after (consume (frames session.1.maxFrameBytes) (listener body) (decodeFrame body session frame framed) rest)) :
    Agrees (if (decodeFrame body session frame framed).1.isTerminal then decodeFrame body session frame framed else after)
      (consume (frames session.1.maxFrameBytes) (listener body) session buffer) := by
  have cut : (@frames δ session.1.maxFrameBytes).cut buffer =
      .take prefixBytes (saturatingAdd prefixBytes frameBytes) := by
    change cutOf (inspectFrame buffer session.1.maxFrameBytes) = _
    rw [found]
    rfl
  rw [consume_take _ (listener body) active cut,Consumer.taken,framedEq,frameEq,restEq]
  change Agrees _ (if (decodeFrame body session frame framed).1.isTerminal then (decodeFrame body session frame framed,buffer)
    else consume _ _ (decodeFrame body session frame framed) rest)
  cases stopped : (decodeFrame body session frame framed).1.isTerminal with
  | true => exact agrees_stopped (decodeFrame_pending body empty frame framed) stopped buffer
  | false => exact goesOn stopped

theorem agrees_more (session : Session δ σ) {verdict : FrameState} (pending : session.1.pending = buffer)
    (found : @inspectFrame δ buffer session.1.maxFrameBytes = .ok verdict)
    (waits : verdict = .needPrefix ∨ ∃ totalBytes, verdict = .needPayload totalBytes) :
    Agrees session (consume (frames session.1.maxFrameBytes) (listener body) (clear session) buffer) := by
  have cut : (@frames δ session.1.maxFrameBytes).cut buffer = .more := by
    change cutOf (inspectFrame buffer session.1.maxFrameBytes) = _
    rw [found]
    rcases waits with rfl | ⟨totalBytes,rfl⟩ <;> rfl
  rw [consume_more _ _ _ cut]
  exact ⟨rfl,fun _ => pending⟩

theorem agrees_error (session : Session δ σ) (active : session.1.isTerminal = false)
    (found : inspectFrame buffer session.1.maxFrameBytes = .error error) :
    Agrees ({ session.1 with terminalError := some error },session.2)
      (consume (frames session.1.maxFrameBytes) (listener body) (clear session) buffer) := by
  have cut : (frames session.1.maxFrameBytes).cut buffer = .fail error := by
    change cutOf (inspectFrame buffer session.1.maxFrameBytes) = _
    rw [found]
    rfl
  have stays : (listener body).stopped (clear session) = false := active
  rw [consume_fail _ (listener body) stays cut]
  exact ⟨rfl,fun going => by simp [IncrementalStreamDecoder.isTerminal] at going⟩

theorem agrees_end (session : Session δ σ) (empty : session.1.pending = []) (maxBytes : Nat) :
    Agrees session (consume (frames maxBytes) (listener body) session []) := by
  have cut : (@frames δ maxBytes).cut [] = .more := rfl
  rw [consume_more _ _ _ cut]
  exact ⟨clear_eq empty,fun _ => empty⟩

theorem pushLoop_end (fuel : Nat) (session : Session δ σ) (active : session.1.isTerminal = false)
    (tight : Tight δ session.1.maxFrameBytes session.1.pending) : Agrees (pushLoop (decodeFrame body) (fuel+1) [] session)
      (consume (frames session.1.maxFrameBytes) (listener body) (clear session) session.1.pending) := by
  obtain ⟨decoder,state⟩ := session
  simp only [pushLoop]
  split
  · rename_i empty
    have empty : decoder.pending = [] := by simpa using empty
    rw [empty,clear_eq empty]
    exact agrees_end body (decoder,state) empty decoder.maxFrameBytes
  split
  · rename_i prefixBytes frameBytes found
    have all : decoder.pending.drop (saturatingAdd prefixBytes frameBytes) = [] := by
      rw [tight _ _ found,drop_length]
    have last := agrees_take body (clear (decoder,state)) active rfl found rfl rfl all _
      (fun _ => agrees_end body _ (decodeFrame_pending body rfl _ _) _)
    rw [ite_self] at last
    exact last
  · rename_i found
    exact agrees_more body (decoder,state) rfl found (.inl rfl)
  · rename_i found
    exact agrees_more body (decoder,state) rfl found (.inr ⟨_,rfl⟩)
  · rename_i error found
    exact agrees_error body (decoder,state) active found

/-- With this much fuel the loop ends as if the pending bytes and the input were one buffer. -/
def Settles (fuel : Nat) : Prop :=
  ∀ (input : Bytes) (session : Session δ σ), session.1.isTerminal = false →
    Tight δ session.1.maxFrameBytes session.1.pending → 2*input.length + min 1 session.1.pending.length < fuel →
    Agrees (pushLoop (decodeFrame body) fuel input session)
      (consume (frames session.1.maxFrameBytes) (listener body) (clear session) (session.1.pending ++ input))

variable {body} {fuel : Nat}

theorem Settles.decoded (settles : Settles body fuel) (session : Session δ σ) (frame framed rest : Bytes)
    (fewer : 2*rest.length < fuel) (going : (decodeFrame body (clear session) frame framed).1.isTerminal = false) :
    Agrees (pushLoop (decodeFrame body) fuel rest (decodeFrame body (clear session) frame framed))
      (consume (frames session.1.maxFrameBytes) (listener body) (decodeFrame body (clear session) frame framed) rest) := by
  obtain ⟨empty,limit⟩ := decodeFrame_keeps body (clear session) frame framed
  change _ = [] at empty
  have tight (maxBytes : Nat) : Tight δ maxBytes (decodeFrame body (clear session) frame framed).1.pending := by
    rw [empty]
    exact tight_nil
  have result := settles rest _ going (tight _) (by simpa [empty] using fewer)
  rw [empty,nil_append,clear_eq empty,limit] at result
  exact result

theorem Settles.fresh (settles : Settles body fuel) (input : Bytes) (inputNe : input ≠ []) (session : Session δ σ)
    (active : session.1.isTerminal = false) (empty : session.1.pending = []) (enough : 2*input.length < fuel+1) :
    Agrees (pushLoop (decodeFrame body) (fuel+1) input session)
      (consume (frames session.1.maxFrameBytes) (listener body) (clear session) input) := by
  obtain ⟨byte,rest,rfl⟩ := exists_cons_of_ne_nil inputNe
  rw [← clear_eq empty]
  obtain ⟨decoder,state⟩ := session
  simp only [clear,pushLoop,isEmpty_nil,if_true]
  split
  · rename_i prefixBytes frameBytes found
    have pos := complete_pos found
    have le := (inspectFrame_complete.mp found).2.2
    refine agrees_take body (clear (decoder,state)) active rfl found rfl rfl rfl _ (settles.decoded (decoder,state) _ _ _ ?_)
    simp only [length_drop]
    omega
  · rename_i found
    exact agrees_more body ({ decoder with pending := byte :: rest },state) rfl found (.inl rfl)
  · rename_i found
    exact agrees_more body ({ decoder with pending := byte :: rest },state) rfl found (.inr ⟨_,rfl⟩)
  · rename_i error found
    exact agrees_error body (clear (decoder,state)) active found

theorem Settles.pending (settles : Settles body fuel) (input : Bytes) (inputNe : input ≠ []) (session : Session δ σ)
    (active : session.1.isTerminal = false) (held : session.1.pending ≠ [])
    (tight : Tight δ session.1.maxFrameBytes session.1.pending) (enough : 2*input.length < fuel) :
    Agrees (pushLoop (decodeFrame body) (fuel+1) input session)
      (consume (frames session.1.maxFrameBytes) (listener body) (clear session) (session.1.pending ++ input)) := by
  obtain ⟨byte,rest,rfl⟩ := exists_cons_of_ne_nil inputNe
  obtain ⟨decoder,state⟩ := session
  have held : ¬ decoder.pending.isEmpty = true := by simpa using held
  simp only [pushLoop,if_neg held]
  simp only [length_cons] at enough
  split
  · rename_i found
    have moved := settles rest ({ decoder with pending := decoder.pending ++ [byte] },state) active
      (tight_push byte found) (by dsimp only; omega)
    rw [append_assoc] at moved
    exact moved
  · rename_i totalBytes found
    obtain ⟨_,_,_,_,_,short⟩ := inspectFrame_needPayload.mp found
    have few : ((byte :: rest).take (min (byte :: rest).length (totalBytes-decoder.pending.length))).length ≤
        totalBytes-decoder.pending.length := by
      simp only [length_take]
      omega
    have moved := settles ((byte :: rest).drop (min (byte :: rest).length (totalBytes-decoder.pending.length)))
      ({ decoder with pending := decoder.pending ++ _ },state) active (tight_extend _ found few)
      (by simp only [length_drop,length_cons]; omega)
    rw [append_assoc,take_append_drop] at moved
    exact moved
  · rename_i prefixBytes frameBytes found
    have whole : saturatingAdd prefixBytes frameBytes = decoder.pending.length := tight _ _ found
    have taken : (decoder.pending ++ byte :: rest).take (saturatingAdd prefixBytes frameBytes) =
        decoder.pending.take (saturatingAdd prefixBytes frameBytes) := take_append_of_le_length (by omega)
    have left : (decoder.pending ++ byte :: rest).drop (saturatingAdd prefixBytes frameBytes) = byte :: rest := by
      rw [whole,drop_left]
    exact agrees_take body (clear (decoder,state)) active rfl (inspectFrame_complete_append _ found) taken rfl left _
      (settles.decoded (decoder,state) _ _ _ (by simpa using enough))
  · rename_i error found
    exact agrees_error body (decoder,state) active (inspectFrame_error_append _ found)

theorem settles (body : σ → Bytes → Bytes → Except δ (IncrementalStreamControl × σ)) (fuel : Nat) : Settles body fuel := by
  induction fuel with
  | zero =>
    intro input session active tight enough
    omega
  | succ fuel ih =>
    intro input session active tight enough
    by_cases inputEmpty : input = []
    · subst input
      rw [append_nil]
      exact pushLoop_end body fuel session active tight
    by_cases empty : session.1.pending = []
    · rw [empty,nil_append]
      exact ih.fresh input inputEmpty session active empty (by omega)
    · have some : 0 < session.1.pending.length := length_pos_iff.mpr empty
      exact ih.pending input inputEmpty session active empty tight (by omega)

/-! ### Chunks -/

/-- Between two pushes a session has failed, or its pending bytes start a frame that is not complete. -/
def Waiting (session : Session δ σ) : Prop :=
  session.1.isTerminal = true ∨
    (@frames δ session.1.maxFrameBytes).cut session.1.pending = .more

theorem Waiting.tight (waiting : Waiting session) (active : session.1.isTerminal = false) :
    Tight δ session.1.maxFrameBytes session.1.pending := by
  intro prefixBytes frameBytes found
  have more := waiting.resolve_left (by simp [active])
  change cutOf (inspectFrame session.1.pending session.1.maxFrameBytes) = _ at more
  rw [found] at more
  cases more

theorem consume_keeps (session : Session δ σ) (buffer : Bytes) (maxBytes : Nat) :
    (consume (frames maxBytes) (listener body) session buffer).1.1.maxFrameBytes = session.1.maxFrameBytes := by
  refine consume_invariant (frames maxBytes) (listener body)
    (fun reached _ => reached.1.maxFrameBytes = session.1.maxFrameBytes) ?_ ?_ ?_ session buffer rfl
  · intro state buffer error same _
    exact same
  · intro state buffer skip size same _ _ _
    exact (decodeFrame_keeps body state _ _).2.trans same
  · intro state buffer skip size same _ _ _
    exact (decodeFrame_keeps body state _ _).2.trans same

theorem Agrees.waiting_after {actual : Session δ σ}
    (agrees : Agrees actual (consume (frames session.1.maxFrameBytes) (listener body) (clear session) buffer)) :
    Waiting actual := by
  unfold Waiting
  cases active : actual.1.isTerminal with
  | true => exact .inl rfl
  | false =>
    have limit : actual.1.maxFrameBytes = session.1.maxFrameBytes :=
      (congrArg (·.1.maxFrameBytes) agrees.cleared).trans (consume_keeps (clear session) buffer _)
    have going : (listener body).stopped (consume (frames session.1.maxFrameBytes) (listener body) (clear session) buffer).1
        = false := by
      rw [← agrees.cleared]
      exact active
    rw [agrees.waiting active,limit]
    exact .inr (consume_waits _ _ _ _ going)

theorem agrees_terminal (stopped : session.1.isTerminal = true) (maxBytes : Nat) (buffer : Bytes) :
    Agrees session (consume (frames maxBytes) (listener body) (clear session) buffer) := by
  have stays : (listener body).stopped (clear session) = true := stopped
  rw [consume_stopped _ _ stays]
  exact ⟨rfl,fun active => absurd stopped (by simp [active])⟩

def pushChunks (push : Bytes → Session δ σ → Session δ σ) (session : Session δ σ) (chunks : List Bytes) : Session δ σ :=
  chunks.foldl (fun session chunk => push chunk session) session

theorem pushFrames_terminal (stopped : session.1.isTerminal = true) (input : Bytes) :
    pushFrames (decodeFrame body) input session = session := by
  unfold pushFrames
  rw [if_pos stopped]

theorem pushChunks_terminal (stopped : session.1.isTerminal = true) (chunks : List Bytes) :
    pushChunks (pushFrames (decodeFrame body)) session chunks = session := by
  induction chunks with
  | nil => rfl
  | cons chunk chunks ih =>
    change pushChunks _ (pushFrames (decodeFrame body) chunk session) chunks = session
    rw [pushFrames_terminal stopped]
    exact ih

variable (body)

theorem pushFrames_agrees (input : Bytes) (session : Session δ σ) (active : session.1.isTerminal = false)
    (waiting : Waiting session) : Agrees (pushFrames (decodeFrame body) input session)
      (consume (frames session.1.maxFrameBytes) (listener body) (clear session) (session.1.pending ++ input)) := by
  unfold pushFrames
  rw [if_neg (by simp [active])]
  exact settles body _ input session active (waiting.tight active) (by omega)

theorem pushFrames_waiting (input : Bytes) (session : Session δ σ) (waiting : Waiting session) : Waiting (pushFrames (decodeFrame body) input session) := by
  cases active : session.1.isTerminal with
  | true =>
    unfold pushFrames
    rw [if_pos active]
    exact waiting
  | false => exact (pushFrames_agrees body input session active waiting).waiting_after

theorem decodeFrame_state (session : Session δ σ) (frame framed : Bytes) : (decodeFrame body session frame framed).2 = session.2 ∨
      ∃ control, body session.2 frame framed = .ok (control,(decodeFrame body session frame framed).2) := by
  unfold decodeFrame visitDecodedFrame
  dsimp only
  split
  · exact .inl rfl
  split
  · exact .inl rfl
  split
  · rename_i state visited
    exact .inr ⟨_,visited⟩
  · rename_i state visited
    exact .inr ⟨_,visited⟩
  · exact .inl rfl

theorem decodeFrame_limits (session : Session δ σ)
    (frame framed : Bytes) (going : (decodeFrame body session frame framed).1.isTerminal = false) :
    saturatingAdd session.1.decodedBytes frame.length ≤ session.1.maxStreamBytes ∧ session.1.eventCount < session.1.maxEvents := by
  unfold decodeFrame visitDecodedFrame at going
  dsimp only at going
  split at going
  · cases going
  rename_i small
  split at going
  · cases going
  · rename_i few
    exact ⟨Nat.le_of_not_lt small,Nat.lt_of_not_le few⟩

def advance (decoder : IncrementalStreamDecoder δ) (frameBytes : Nat) : IncrementalStreamControl → IncrementalStreamDecoder δ
  | .continue =>
    { decoder with
      decodedBytes := saturatingAdd decoder.decodedBytes frameBytes, eventCount := saturatingAdd decoder.eventCount 1 }
  | .resetAfterFrame => { decoder with decodedBytes := 0, eventCount := 0 }

theorem decodeFrame_ok (session : Session δ σ) {control : IncrementalStreamControl} {next : σ}
    (small : saturatingAdd session.1.decodedBytes frame.length ≤ session.1.maxStreamBytes)
    (few : session.1.eventCount < session.1.maxEvents) (visited : body session.2 frame framed = .ok (control,next)) :
    decodeFrame body session frame framed = (advance session.1 frame.length control,next) := by
  unfold decodeFrame visitDecodedFrame
  dsimp only
  rw [if_neg (Nat.not_lt.mpr small),if_neg (Nat.not_le.mpr few),visited]
  cases control <;> rfl

theorem visiting_ok {E : Type} {decode : Bytes → Except δ E} {visitor : Visitor σ E} {state : σ}
    {result : IncrementalStreamControl × σ} (visited : visiting decode visitor state frame framed = .ok result) :
    ∃ event, decode frame = .ok event ∧ visitor state event framed = result := by
  unfold visiting at visited
  cases decoded : decode frame with
  | error error =>
    rw [decoded] at visited
    cases visited
  | ok event =>
    rw [decoded] at visited
    exact ⟨event,rfl,Except.ok.inj visited⟩

/-- Two visitors on one frame: if they answer alike, the decoder cannot tell
them apart, and it stops without calling either or calls both. -/
theorem decodeFrame_related {τ E : Type} (decode : Bytes → Except δ E) (left : Visitor σ E) (right : Visitor τ E)
    (decoder : IncrementalStreamDecoder δ) (s : σ) (t : τ) (frame framed : Bytes) (rel : σ → τ → Prop)
    (active : decoder.isTerminal = false)
    (alike : ∀ event, decode frame = .ok event → (left s event framed).1 = (right t event framed).1 ∧
      rel (left s event framed).2 (right t event framed).2) : (decodeFrame (visiting decode left) (decoder,s) frame framed).1 =
        (decodeFrame (visiting decode right) (decoder,t) frame framed).1 ∧
      if (decodeFrame (visiting decode left) (decoder,s) frame framed).1.isTerminal then
        (decodeFrame (visiting decode left) (decoder,s) frame framed).2 = s ∧
          (decodeFrame (visiting decode right) (decoder,t) frame framed).2 = t
      else rel (decodeFrame (visiting decode left) (decoder,s) frame framed).2
        (decodeFrame (visiting decode right) (decoder,t) frame framed).2 := by
  unfold decodeFrame visitDecodedFrame
  dsimp only
  split
  · exact ⟨rfl,rfl,rfl⟩
  split
  · exact ⟨rfl,rfl,rfl⟩
  cases decoded : decode frame with
  | error error =>
    simp only [visiting,decoded]
    exact ⟨rfl,rfl,rfl⟩
  | ok event =>
    obtain ⟨same,related⟩ := alike event decoded
    cases leftCase : left s event framed with
    | mk control s' =>
      cases rightCase : right t event framed with
      | mk control' t' =>
        rw [leftCase,rightCase] at same related
        subst same
        have going : ¬ decoder.terminalError.isSome = true := by simpa [IncrementalStreamDecoder.isTerminal] using active
        simp only [visiting,decoded,bind,Except.bind,pure,Except.pure,leftCase,rightCase]
        have kept : if decoder.terminalError.isSome then s' = s ∧ t' = t else rel s' t' := by
          rw [if_neg going]
          exact related
        cases control <;> exact ⟨rfl,kept⟩

theorem decodeFrame_visits {E : Type} (decode : Bytes → Except δ E) (visitor : Visitor σ E)
    (decoder : IncrementalStreamDecoder δ) (state : σ) (frame framed : Bytes) (active : decoder.isTerminal = false) :
    if (decodeFrame (visiting decode visitor) (decoder,state) frame framed).1.isTerminal then
      (decodeFrame (visiting decode visitor) (decoder,state) frame framed).2 = state else ∃ event, decode frame = .ok event ∧
      (decodeFrame (visiting decode visitor) (decoder,state) frame framed).2 = (visitor state event framed).2 := by
  have both := (decodeFrame_related decode visitor visitor decoder state state frame framed
    (fun next _ => ∃ event, decode frame = .ok event ∧ next = (visitor state event framed).2) active
    (fun event decodes => ⟨rfl,event,decodes,rfl⟩)).2
  split at both
  · rename_i stopped
    rw [if_pos stopped]
    exact both.1
  · rename_i going
    rw [if_neg going]
    exact both

theorem pushFrames_invariant (inv : σ → Prop)
    (kept : ∀ state frame framed control next, inv state → body state frame framed = .ok (control,next) → inv next)
    (input : Bytes) (session : Session δ σ) (waiting : Waiting session) (holds : inv session.2) :
    inv (pushFrames (decodeFrame body) input session).2 := by
  have decoded (session : Session δ σ) (frame framed : Bytes) (holds : inv session.2) :
      inv (decodeFrame body session frame framed).2 := by
    rcases decodeFrame_state body session frame framed with same | ⟨control,visited⟩
    · rw [same]
      exact holds
    · exact kept _ _ _ _ _ holds visited
  cases active : session.1.isTerminal with
  | true =>
    unfold pushFrames
    rw [if_pos active]
    exact holds
  | false =>
    have same := congrArg (·.2) (pushFrames_agrees body input session active waiting).cleared
    change (pushFrames (decodeFrame body) input session).2 = _ at same
    rw [same]
    refine consume_invariant _ (listener body) (fun session _ => inv session.2) ?_ ?_ ?_ (clear session) _ holds
    · intro state buffer error holds _
      exact holds
    · intro state buffer skip size holds _ _ _
      exact decoded state _ _ holds
    · intro state buffer skip size holds _ _ _
      exact decoded state _ _ holds

/-- Any number of pushes is one consumption of what was pending and all the
chunks: after each of them the pending bytes are what the consumer left. -/
theorem pushChunks_agrees (chunks : List Bytes) (session : Session δ σ) (waiting : Waiting session) :
    Agrees (pushChunks (pushFrames (decodeFrame body)) session chunks)
      (consume (frames session.1.maxFrameBytes) (listener body) (clear session) (session.1.pending ++ chunks.flatten)) := by
  induction chunks generalizing session with
  | nil =>
    rw [flatten_nil,append_nil]
    cases active : session.1.isTerminal with
    | true => exact agrees_terminal active _ _
    | false =>
      rw [consume_more _ _ _ (waiting.resolve_left (by simp [active]))]
      exact ⟨rfl,fun _ => rfl⟩
  | cons chunk chunks ih =>
    cases active : session.1.isTerminal with
    | true =>
      rw [pushChunks_terminal active]
      exact agrees_terminal active _ _
    | false =>
      have first := pushFrames_agrees body chunk session active waiting
      have rest := ih _ first.waiting_after
      have limit := (congrArg (·.1.maxFrameBytes) first.cleared).trans (consume_keeps (clear session) _ _)
      change (pushFrames (decodeFrame body) chunk session).1.maxFrameBytes = session.1.maxFrameBytes at limit
      rw [flatten_cons,← append_assoc,consume_append,← first.cleared]
      rw [limit] at rest
      cases after : (pushFrames (decodeFrame body) chunk session).1.isTerminal with
      | true =>
        change Agrees (pushChunks _ (pushFrames (decodeFrame body) chunk session) chunks) _
        rw [pushChunks_terminal after]
        exact agrees_terminal after _ _
      | false =>
        rw [← first.waiting after]
        exact rest

theorem Agrees.outcome {actual : Session δ σ} {ideal : Session δ σ × Bytes} (agrees : Agrees actual ideal) :
    (actual.1.finish,actual.2) = ({ ideal.1.1 with pending := ideal.2 }.finish,ideal.1.2) := by
  rw [← agrees.cleared]
  cases error : actual.1.terminalError with
  | none =>
    rw [← agrees.waiting (by simp [IncrementalStreamDecoder.isTerminal,error])]
    rfl
  | some error => simp [IncrementalStreamDecoder.finish,clear,error]

theorem waiting_new (maxFrameBytes maxStreamBytes maxEvents : Nat) (state : σ) :
    Waiting ((.new maxFrameBytes maxStreamBytes maxEvents,state) : Session δ σ) := .inr rfl

/-- A whole stream: the chunks are pushed one after another and the decoder is finished. -/
def decodeChunks (push : Bytes → Session δ σ → Session δ σ) (session : Session δ σ) (chunks : List Bytes) :
    StreamOutcome δ × σ :=
  ((pushChunks push session chunks).1.finish,(pushChunks push session chunks).2)

theorem decodeChunks_eq (chunks : List Bytes) (session : Session δ σ) (waiting : Waiting session) :
    decodeChunks (pushFrames (decodeFrame body)) session chunks =
      decodeChunks (pushFrames (decodeFrame body)) session [chunks.flatten] := by
  have pieces := (pushChunks_agrees body chunks session waiting).outcome
  have whole := (pushChunks_agrees body [chunks.flatten] session waiting).outcome
  rw [flatten_singleton] at whole
  exact pieces.trans whole.symm

def recording {E : Type} (frameOf : E → Bytes) (visitor : Visitor σ E) : Visitor (σ × List (Bytes × Bytes)) E :=
  fun (state,visited) event framed =>
    let (control,state) := visitor state event framed
    (control,(state,visited ++ [(frameOf event,framed)]))

/-- However a byte string is cut into chunks, both ways of pushing them visit
the same frames, leave the visitor in the same state and finish with the same
outcome as one push of the whole string. The limits are arbitrary, and so are
the visitor and the protobuf decoder. -/
theorem chunks_decode_as_whole (decode decodeView : Bytes → Except δ V) (owned : Visitor σ (BepEvent V))
    (borrowed : Visitor σ (BorrowedBepEvent V)) (maxFrameBytes maxStreamBytes maxEvents : Nat) (state : σ)
    (chunks : List Bytes) : decodeChunks (pushFramed decode (recording (·.frame) owned))
        (.new maxFrameBytes maxStreamBytes maxEvents,(state,[])) chunks =
      decodeChunks (pushFramed decode (recording (·.frame) owned))
        (.new maxFrameBytes maxStreamBytes maxEvents,(state,[])) [chunks.flatten] ∧
    decodeChunks (pushFramedBorrowed decodeView (recording (·.frameBytes) borrowed))
        (.new maxFrameBytes maxStreamBytes maxEvents,(state,[])) chunks =
      decodeChunks (pushFramedBorrowed decodeView (recording (·.frameBytes) borrowed))
        (.new maxFrameBytes maxStreamBytes maxEvents,(state,[])) [chunks.flatten] := by
  constructor
  · exact decodeChunks_eq _ chunks _ (waiting_new _ _ _ _)
  · exact decodeChunks_eq _ chunks _ (waiting_new _ _ _ _)

-- A frame of two bytes and an empty one, cut inside the first payload and in front of a truncated third frame.
example : decodeChunks (pushFramedBorrowed (fun _ => (.ok () : Except Unit Unit))
      (recording (·.frameBytes) fun state _ _ => (.continue,state))) (.new 8 8 8,((),[])) [[2,7],[],[8,0],[3]] =
    (⟨2,2,some .truncated⟩,((),[([7,8],[2,7,8]),([],[0])])) := rfl

end BazelMcp.Framing

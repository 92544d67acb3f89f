import BazelMcp.Framing

/-! The build event service: one build-tool stream is checked, framed, handed
to the consumer in batches and acknowledged to the client. Where the batch is
flushed because nothing has arrived, what the consumer answers and when the
client stops listening are choices of the environment; a run is the log of what
consumer and client have seen. -/
namespace BazelMcp.BuildEventService
open Framing List

def bazelEventTypeSuffix : String := "/build_event_stream.BuildEvent"
def maxStreamIdFieldBytes : Nat := 128
def maxTypeUrlBytes : Nat := 256
def captureBatchMaxEvents : Nat := 64
def captureBatchMaxBytes : Nat := 1024*1024

structure StreamId where
  buildId : String
  invocationId : String
  component : Int
  deriving DecidableEq

inductive Event where
  | bazelEvent (typeUrl : String) (value : Bytes)
  | componentStreamFinished (type : Int)
  deriving DecidableEq

structure BuildEvent where
  event : Option Event
  deriving DecidableEq

structure OrderedBuildEvent where
  streamId : Option StreamId
  sequenceNumber : Int
  event : Option BuildEvent
  deriving DecidableEq

structure Request where
  orderedBuildEvent : Option OrderedBuildEvent
  deriving DecidableEq

structure Response where
  streamId : StreamId
  sequenceNumber : Int
  deriving DecidableEq

structure CaptureStats where
  eventCount : Nat := 0
  bepBytes : Nat := 0
  deriving DecidableEq

inductive BesStreamEventKind where
  | frames (frames : List Bytes)
  | finished
  deriving DecidableEq

inductive Action where
  | received (kind : BesStreamEventKind)
  | acknowledged (kind : BesStreamEventKind)
  | responded (response : Response)
  deriving DecidableEq

/-- The consumer has closed its channel, has gone with or without taking the
event, or has taken it and answers. -/
inductive Answer where
  | closed
  | gone (received : Bool)
  | rejected (error : String)
  | accepted
  deriving DecidableEq

structure Environment where
  consumer : List Action → BesStreamEventKind → Answer
  clientListens : List Action → Bool

inductive Arrival where
  | message (request : Request)
  | failed (status : String)
  | yielded
  deriving DecidableEq

structure StreamState where
  expectedSequence : Int := 1
  requestCount : Nat := 0
  stats : CaptureStats := {}
  sawFinished : Bool := false
  pendingFrames : List Bytes := []
  pendingResponses : List Response := []
  pendingBatchBytes : Nat := 0
  deriving DecidableEq

namespace StreamId

def fromView (streamId : StreamId) : Except String StreamId :=
  if maxStreamIdFieldBytes < streamId.buildId.utf8ByteSize || maxStreamIdFieldBytes < streamId.invocationId.utf8ByteSize then
    .error "BES stream_id field exceeds length limit"
  else .ok streamId

def validate (identity streamId : StreamId) : Except String Unit :=
  if identity = streamId then .ok () else .error "BES stream_id changed within one RPC"

end StreamId

def orderedEvent (request : Request) : Except String OrderedBuildEvent :=
  match request.orderedBuildEvent with
  | some ordered => .ok ordered
  | none => .error "BES request omitted ordered_build_event"

def orderedStreamId (ordered : OrderedBuildEvent) : Except String StreamId :=
  match ordered.streamId with
  | some streamId => .ok streamId
  | none => .error "BES request omitted stream_id"

def encodeVarint (value : Nat) : Bytes :=
  if 0x80 ≤ value then (UInt8.ofNat (value % 128) ||| 0x80) :: encodeVarint (value/128) else [UInt8.ofNat value]
  termination_by value

def frameBepPayload (frame : Bytes) (stats : CaptureStats) : Except String Bytes :=
  let length := frame.length
  let nextBytes := saturatingAdd stats.bepBytes frame.length
  if defaultMaxFrameBytes < length then .error s!"BES frame length {length} exceeds limit {defaultMaxFrameBytes}"
  else if defaultMaxStreamBytes < nextBytes then .error s!"BES stream bytes {nextBytes} exceed limit {defaultMaxStreamBytes}"
  else if defaultMaxStreamEvents ≤ stats.eventCount then .error s!"BES event count exceeds limit {defaultMaxStreamEvents}"
  else .ok (encodeVarint frame.length ++ frame)

abbrev Outcome (α : Type) := Except String α × List Action

/-- The operator `?`: go on after a success. -/
def proceed {α β : Type} (outcome : Outcome α) (next : α → List Action → Outcome β) : Outcome β :=
  match outcome with
  | (.error error,log) => (.error error,log)
  | (.ok value,log) => next value log

section
variable (environment : Environment)

def forwardCaptureEvent (kind : BesStreamEventKind) (log : List Action) : Outcome Unit :=
  match environment.consumer log kind with
  | .closed => (.error "BES capture event receiver closed",log)
  | .gone false => (.error "BES capture event acknowledgement closed",log)
  | .gone true => (.error "BES capture event acknowledgement closed",log ++ [.received kind])
  | .rejected error => (.error error,log ++ [.received kind])
  | .accepted => (.ok (),log ++ [.received kind,.acknowledged kind])

def sendResponse (response : Response) (log : List Action) : Outcome Unit :=
  if environment.clientListens log then (.ok (),log ++ [.responded response])
  else (.error "BES client stopped accepting acknowledgements",log)

def sendResponses : List Response → List Action → Outcome Unit
  | [], log => (.ok (),log)
  | response::rest, log =>
    proceed (sendResponse environment response log) fun _ log => sendResponses rest log

def flushCaptureBatch (state : StreamState) (log : List Action) : Outcome StreamState :=
  if state.pendingFrames.isEmpty then (.ok state,log)
  else
    proceed (forwardCaptureEvent environment (.frames state.pendingFrames) log) fun _ log =>
      proceed (sendResponses environment state.pendingResponses log) fun _ log =>
        (.ok { state with pendingFrames := [], pendingResponses := [] },log)

/-- A flush as the loop makes it, which also starts the count of batched bytes anew. -/
def flushInLoop (state : StreamState) (log : List Action) : Outcome StreamState :=
  proceed (flushCaptureBatch environment state log) fun state log => (.ok { state with pendingBatchBytes := 0 },log)

def checkRequest (identity : StreamId) (state : StreamState) (request : Request) :
    Except String (OrderedBuildEvent × BuildEvent × StreamState) := do
  let ordered ← orderedEvent request
  let state := { state with requestCount := saturatingAdd state.requestCount 1 }
  let limit := defaultMaxStreamEvents+1
  if limit < state.requestCount then throw s!"BES request count exceeds limit {limit}"
  let streamId ← orderedStreamId ordered
  identity.validate streamId
  let sequenceNumber := ordered.sequenceNumber
  let expected := state.expectedSequence
  if sequenceNumber ≠ expected then
    throw s!"BES sequence number {sequenceNumber} did not match expected {expected}"
  let event ← match ordered.event with
    | some event => pure event
    | none => throw "BES request omitted build event"
  if state.sawFinished then throw "BES request followed BuildComponentStreamFinished"
  pure (ordered,event,state)

def pushFrame (state : StreamState) (response : Response) (value framed : Bytes) : StreamState :=
  { state with
    pendingBatchBytes := saturatingAdd state.pendingBatchBytes framed.length
    pendingFrames := state.pendingFrames ++ [framed]
    pendingResponses := state.pendingResponses ++ [response]
    stats := { eventCount := saturatingAdd state.stats.eventCount 1
               bepBytes := saturatingAdd state.stats.bepBytes value.length } }

def handleBazelEvent (state : StreamState) (response : Response) (typeUrl : String) (value : Bytes) (log : List Action) :
    Outcome StreamState :=
  if maxTypeUrlBytes < typeUrl.utf8ByteSize ||
      (!typeUrl.isEmpty && !bazelEventTypeSuffix.toList.isSuffixOf typeUrl.toList) then
    (.error "unexpected BES Any type URL",log)
  else
    match frameBepPayload value state.stats with
    | .error error => (.error error,log)
    | .ok framed =>
      let state := pushFrame state response value framed
      if captureBatchMaxEvents ≤ state.pendingFrames.length || captureBatchMaxBytes ≤ state.pendingBatchBytes then
        flushInLoop environment state log
      else (.ok state,log)

def respondInLoop (state : StreamState) (response : Response) (log : List Action) : Outcome StreamState :=
  proceed (sendResponse environment response log) fun _ log => (.ok state,log)

def handleFinished (state : StreamState) (response : Response) (type : Int) (log : List Action) : Outcome StreamState :=
  if type ≠ 1 then (.error s!"BES component stream finished with unsupported type {type}",log)
  else
    proceed (flushInLoop environment state log) fun state log =>
      proceed (forwardCaptureEvent environment .finished log) fun _ log =>
        respondInLoop environment { state with sawFinished := true } response log

def handleEmptyEvent (state : StreamState) (response : Response) (log : List Action) : Outcome StreamState :=
  proceed (flushInLoop environment state log) fun state log => respondInLoop environment state response log

def handleEvent (state : StreamState) (response : Response) (event : Option Event) (log : List Action) : Outcome StreamState :=
  match event with
  | some (.bazelEvent typeUrl value) => handleBazelEvent environment state response typeUrl value log
  | some (.componentStreamFinished type) => handleFinished environment state response type log
  | none => handleEmptyEvent environment state response log

def acceptRequest (identity : StreamId) (state : StreamState) (request : Request) (log : List Action) : Outcome StreamState :=
  match checkRequest identity state request with
  | .error error => (.error error,log)
  | .ok (ordered,event,state) =>
    proceed (handleEvent environment state ⟨identity,ordered.sequenceNumber⟩ event.event log) fun state log =>
      if 0x7FFFFFFFFFFFFFFF < state.expectedSequence+1 then (.error "BES sequence number overflow",log)
      else (.ok { state with expectedSequence := state.expectedSequence+1 },log)

-- Yielding is only an alternative to waiting while frames are pending.
def streamLoop (identity : StreamId) : List Arrival → StreamState → List Action → Outcome StreamState
  | [], state, log => (.ok state,log)
  | .failed status::_, _, log => (.error s!"receive BES request: {status}",log)
  | .yielded::rest, state, log =>
    if state.pendingFrames.isEmpty then streamLoop identity rest state log
    else proceed (flushInLoop environment state log) fun state log => streamLoop identity rest state log
  | .message request::rest, state, log =>
    proceed (acceptRequest environment identity state request log) fun state log => streamLoop identity rest state log

def streamIdentity (first : Request) : Except String StreamId := do
  let ordered ← orderedEvent first
  let streamId ← orderedStreamId ordered
  streamId.fromView

/-- All of `capture_stream` but the check that the stream has finished. -/
def drainStream (first : Request) (arrivals : List Arrival) : Outcome StreamState :=
  match streamIdentity first with
  | .error error => (.error error,[])
  | .ok identity =>
    proceed (streamLoop environment identity (.message first::arrivals) {} []) fun state log =>
      flushCaptureBatch environment state log

def captureStream (first : Request) (arrivals : List Arrival) : Outcome CaptureStats :=
  proceed (drainStream environment first arrivals) fun state log =>
    if !state.sawFinished then (.error "BES stream ended without BuildComponentStreamFinished",log)
    else (.ok state.stats,log)

end

/-! ### What consumer and client have seen -/

def eventFrame : Option Event → Option Bytes
  | some (.bazelEvent _ value) => some (encodeVarint value.length ++ value)
  | _ => none

def framedOf (request : Request) : Option Bytes :=
  (request.orderedBuildEvent.bind OrderedBuildEvent.event).bind fun event => eventFrame event.event

def framesOf (requests : List Request) : List Bytes := requests.filterMap framedOf

def received (log : List Action) : List Bytes :=
  log.flatMap fun action => match action with
    | .received (.frames frames) => frames
    | _ => []

def acknowledged (log : List Action) : List Bytes :=
  log.flatMap fun action => match action with
    | .acknowledged (.frames frames) => frames
    | _ => []

def BesStreamEventKind.payload : BesStreamEventKind → List Bytes
  | .frames sent => sent
  | .finished => []

def responses (log : List Action) : List Response :=
  log.filterMap fun action => match action with
    | .responded response => some response
    | _ => none

def answer (identity : StreamId) (number : Nat) : Response := ⟨identity,number⟩

/-- The frames of all requests up to the answered one have been acknowledged, in order. -/
def Covered (requests : List Request) (log : List Action) (response : Response) : Prop :=
  ∃ number count : Nat, response.sequenceNumber = (number : Int) ∧ number ≤ count ∧ count ≤ requests.length ∧
    acknowledged log = framesOf (requests.take count)

def Honest (requests : List Request) (log : List Action) : Prop :=
  ∀ before response after, log = before ++ .responded response :: after → Covered requests before response

/-- The frames of the settled requests have been acknowledged, and the first of them have been answered. -/
structure Sent (identity : StreamId) (settled : List Request) (log : List Action) (count : Nat) : Prop where
  within : count ≤ settled.length
  acknowledged : acknowledged log = framesOf settled
  received : received log = framesOf settled
  responses : responses log = (List.range' 1 count).map (answer identity)
  honest : Honest settled log

/-- What holds of a run however it ends. -/
structure Sound (identity : StreamId) (requests : List Request) (log : List Action) : Prop where
  responses : ∃ count, responses log = (List.range' 1 count).map (answer identity)
  honest : Honest requests log
  received : ∃ count, count ≤ requests.length ∧ received log = framesOf (requests.take count)

theorem framesOf_append (first second : List Request) : framesOf (first ++ second) = framesOf first ++ framesOf second :=
  filterMap_append

theorem framesOf_waiting {waiting : List Request} {frames : List Bytes} (same : waiting.map framedOf = frames.map some) :
    framesOf waiting = frames := by
  have mapped : framesOf waiting = (waiting.map framedOf).filterMap id := by
    rw [filterMap_map]
    rfl
  rw [mapped,same,filterMap_map]
  exact filterMap_some

variable (first second : List Action)

theorem received_append : received (first ++ second) = received first ++ received second :=
  flatMap_append

theorem acknowledged_append : acknowledged (first ++ second) = acknowledged first ++ acknowledged second :=
  flatMap_append

theorem responses_append : responses (first ++ second) = responses first ++ responses second :=
  filterMap_append

variable {requests : List Request} {log : List Action}

theorem Honest.extend (honest : Honest requests log) (more : List Request) : Honest (requests ++ more) log := by
  intro before response after split
  obtain ⟨number,count,same,le,within,frames⟩ := honest before response after split
  refine ⟨number,count,same,le,?_,?_⟩
  · rw [length_append]
    omega
  · rw [take_append_of_le_length within]
    exact frames

theorem Honest.push (honest : Honest requests log) (action : Action)
    (last : ∀ response, action = .responded response → Covered requests log response) : Honest requests (log ++ [action]) := by
  intro before response after split
  rcases eq_nil_or_concat' after with rfl | ⟨front,final,rfl⟩
  · obtain ⟨rfl,same⟩ := append_inj' split rfl
    exact last response (singleton_inj.mp same)
  have moved : log ++ [action] = (before ++ .responded response :: front) ++ [final] := by
    rw [split]
    simp
  exact honest before response front (append_inj' moved rfl).1

theorem Honest.quiet (honest : Honest requests log) (action : Action)
    (silent : ∀ response, action ≠ .responded response) : Honest requests (log ++ [action]) :=
  honest.push action fun response same => absurd same (silent response)

section
variable {identity : StreamId} {settled : List Request} {log : List Action} {count : Nat}

section
variable (sent : Sent identity settled log count)
include sent

theorem Sent.sound (rest : List Request) : Sound identity (settled ++ rest) log := by
  refine ⟨⟨count,sent.responses⟩,sent.honest.extend rest,settled.length,?_,?_⟩
  · rw [length_append]
    omega
  · rw [sent.received,take_left]

theorem Sent.sound_settled : Sound identity settled log := by
  have sound := sent.sound []
  rw [append_nil] at sound
  exact sound

theorem Sent.respond (left : count < settled.length) :
    Sent identity settled (log ++ [.responded (answer identity (count+1))]) (count+1) := by
  refine ⟨left,?_,?_,?_,sent.honest.push _ ?_⟩
  · rw [acknowledged_append,sent.acknowledged]
    exact append_nil _
  · rw [received_append,sent.received]
    exact append_nil _
  · rw [responses_append,sent.responses,range'_1_concat,map_append,Nat.add_comm 1 count]
    rfl
  rintro response same
  cases same
  refine ⟨count+1,settled.length,rfl,left,Nat.le_refl _,?_⟩
  rw [sent.acknowledged,take_length]

end

end

/-! ### Runs -/

theorem Sound.extend {identity : StreamId} (sound : Sound identity requests log)
    (more : List Request) : Sound identity (requests ++ more) log := by
  obtain ⟨count,within,frames⟩ := sound.received
  refine ⟨sound.responses,sound.honest.extend more,count,?_,?_⟩
  · rw [length_append]
    omega
  · rw [take_append_of_le_length within]
    exact frames

def Settles {α : Type} (identity : StreamId) (requests : List Request) (good : α → List Action → Prop) (outcome : Outcome α) : Prop :=
  match outcome with
  | (.ok value,log) => good value log
  | (.error _,log) => Sound identity requests log

section
variable {identity : StreamId} {requests settled waiting : List Request} {log : List Action} {count : Nat} {kind : BesStreamEventKind}

theorem Settles.proceed {α β : Type} {good : α → List Action → Prop} {better : β → List Action → Prop} {outcome : Outcome α}
    {next : α → List Action → Outcome β} (first : Settles identity requests good outcome)
    (second : ∀ value log, good value log → Settles identity requests better (next value log)) :
    Settles identity requests better (BuildEventService.proceed outcome next) := by
  obtain ⟨result,log⟩ := outcome
  cases result with
  | error error => exact first
  | ok value => exact second value log first

theorem Settles.weaken {α : Type} {good better : α → List Action → Prop} {outcome : Outcome α}
    (settles : Settles identity requests good outcome) (imp : ∀ value log, good value log → better value log) :
    Settles identity requests better outcome := by
  obtain ⟨result,log⟩ := outcome
  cases result with
  | error error => exact settles
  | ok value => exact imp value log settles

theorem Settles.extend {α : Type} {good : α → List Action → Prop} {outcome : Outcome α}
    (settles : Settles identity requests good outcome) (more : List Request) : Settles identity (requests ++ more) good outcome := by
  obtain ⟨result,log⟩ := outcome
  cases result with
  | error error => exact Sound.extend settles more
  | ok value => exact settles

variable (environment : Environment)

theorem sendResponse_sent (sent : Sent identity settled log count) (left : count < settled.length) :
    Settles identity settled (fun _ log => Sent identity settled log (count+1))
      (sendResponse environment (answer identity (count+1)) log) := by
  unfold sendResponse
  split
  · exact sent.respond left
  · exact sent.sound_settled

theorem sendResponses_sent (more : Nat) (sent : Sent identity settled log count) (enough : count+more ≤ settled.length) :
    Settles identity settled (fun _ log => Sent identity settled log (count+more))
      (sendResponses environment ((List.range' (count+1) more).map (answer identity)) log) := by
  induction more generalizing count log with
  | zero => exact sent
  | succ more ih =>
    refine (sendResponse_sent environment sent (by omega)).proceed fun _ log next => ?_
    have rest := ih next (by omega)
    rw [Nat.add_right_comm,Nat.add_assoc] at rest
    exact rest

section
variable (sent : Sent identity settled log count)
include sent

theorem Sent.taken (carries : kind.payload = framesOf waiting) :
    Sound identity (settled ++ waiting) (log ++ [.received kind]) := by
  refine ⟨?_,(sent.honest.extend waiting).quiet _ nofun,(settled ++ waiting).length,Nat.le_refl _,?_⟩
  · rw [responses_append,sent.responses]
    exact ⟨count,append_nil _⟩
  · rw [received_append,sent.received,take_length,framesOf_append,← carries]
    cases kind <;> exact congrArg _ (append_nil _)

theorem Sent.accepted (carries : kind.payload = framesOf waiting) :
    Sent identity (settled ++ waiting) (log ++ [.received kind,.acknowledged kind]) count := by
  refine ⟨?_,?_,?_,?_,?_⟩
  · have within := sent.within
    rw [length_append]
    omega
  · rw [acknowledged_append,sent.acknowledged,framesOf_append,← carries]
    cases kind <;> exact congrArg _ (append_nil _)
  · rw [received_append,sent.received,framesOf_append,← carries]
    cases kind <;> exact congrArg _ (append_nil _)
  · rw [responses_append,sent.responses]
    exact append_nil _
  have second := ((sent.honest.extend waiting).quiet (.received kind) nofun).quiet (.acknowledged kind) nofun
  rw [append_assoc] at second
  exact second

theorem forward_sent (carries : kind.payload = framesOf waiting) :
    Settles identity (settled ++ waiting) (fun _ log => Sent identity (settled ++ waiting) log count)
      (forwardCaptureEvent environment kind log) := by
  unfold forwardCaptureEvent
  split
  · exact sent.sound waiting
  · exact sent.sound waiting
  · exact sent.taken carries
  · exact sent.taken carries
  · exact sent.accepted carries

end

/-- The requests so far are settled but for the ones that wait with their frames and answers. -/
structure Tracks (identity : StreamId) (requests : List Request) (next : Int) (state : StreamState) (log : List Action) : Prop where
  expected : state.expectedSequence = next
  waiting : ∃ settled waiting, requests = settled ++ waiting ∧ Sent identity settled log settled.length ∧
    waiting.map framedOf = state.pendingFrames.map some ∧
    state.pendingResponses = (List.range' (settled.length+1) waiting.length).map (answer identity)

variable {state : StreamState} {request : Request} {value : Bytes}

variable {next : Int} {ordered : OrderedBuildEvent}

theorem Tracks.sound (tracks : Tracks identity requests next state log) : Sound identity requests log := by
  obtain ⟨settled,waiting,rfl,sent,_,_⟩ := tracks.waiting
  exact sent.sound waiting

def Flushed (identity : StreamId) (requests : List Request) (next : Int) (state : StreamState) (log : List Action) : Prop :=
  Sent identity requests log requests.length ∧ state.pendingFrames = [] ∧ state.pendingResponses = [] ∧
    state.expectedSequence = next

theorem Flushed.tracks (flushed : Flushed identity requests next state log) : Tracks identity requests next state log := by
  obtain ⟨sent,frames,waiting,expected⟩ := flushed
  refine ⟨expected,requests,[],(append_nil _).symm,sent,?_,?_⟩
  · rw [frames]
    rfl
  · rw [waiting]
    rfl

theorem flush_tracks (tracks : Tracks identity requests next state log) :
    Settles identity requests (Flushed identity requests next) (flushCaptureBatch environment state log) := by
  obtain ⟨settled,waiting,rfl,sent,frames,answers⟩ := tracks.waiting
  unfold flushCaptureBatch
  split
  · rename_i none
    have empty : state.pendingFrames = [] := isEmpty_iff.mp none
    rw [empty] at frames
    have nobody : waiting = [] := map_eq_nil_iff.mp frames
    subst nobody
    rw [append_nil]
    exact ⟨sent,empty,answers,tracks.expected⟩
  have pending : (BesStreamEventKind.frames state.pendingFrames).payload = framesOf waiting := (framesOf_waiting frames).symm
  refine (forward_sent environment sent pending).proceed fun _ log accepted => ?_
  have sending := sendResponses_sent environment waiting.length accepted (Nat.le_of_eq length_append.symm)
  rw [answers]
  refine sending.proceed fun _ log answered => ?_
  refine ⟨?_,rfl,rfl,tracks.expected⟩
  rw [length_append]
  exact answered

theorem flushInLoop_tracks (tracks : Tracks identity requests next state log) :
    Settles identity requests (Flushed identity requests next) (flushInLoop environment state log) :=
  (flush_tracks environment tracks).proceed fun _ _ flushed => flushed

/-! ### One request -/

theorem checkRequest_ok {after : StreamState} {event : BuildEvent}
    (ok : checkRequest identity state request = .ok (ordered,event,after)) :
    request.orderedBuildEvent = some ordered ∧ ordered.event = some event ∧
      ordered.sequenceNumber = state.expectedSequence ∧
      after = { state with requestCount := saturatingAdd state.requestCount 1 } := by
  simp only [checkRequest,orderedEvent,bind,Except.bind,pure,Except.pure,throw,throwThe,MonadExceptOf.throw] at ok
  split at ok
  · cases ok
  rename_i found present
  split at present
  · rename_i given same
    cases present
    split at ok
    · cases ok
    split at ok
    · cases ok
    split at ok
    · cases ok
    split at ok
    · cases ok
    rename_i inSequence
    split at ok
    · rename_i carried eventSame
      split at ok
      · cases ok
      · cases ok
        exact ⟨same,eventSame,not_not.mp inSequence,rfl⟩
    · cases ok
  · cases present

theorem frameBepPayload_ok {framed : Bytes} {stats : CaptureStats} (ok : frameBepPayload value stats = .ok framed) :
    framed = encodeVarint value.length ++ value := by
  unfold frameBepPayload at ok
  dsimp only at ok
  split at ok
  · cases ok
  split at ok
  · cases ok
  · split at ok
    · cases ok
    · exact (Except.ok.inj ok).symm

theorem pushFrame_tracks {framed : Bytes}
    (tracks : Tracks identity requests next state log) (carries : framedOf request = some framed) :
    Tracks identity (requests ++ [request]) next (pushFrame state (answer identity (requests.length+1)) value framed) log := by
  obtain ⟨settled,waiting,rfl,sent,frames,answers⟩ := tracks.waiting
  refine ⟨tracks.expected,settled,waiting ++ [request],append_assoc _ _ _,sent,?_,?_⟩
  · simp only [pushFrame,map_append,frames,map_cons,map_nil,carries]
  simp only [pushFrame]
  rw [answers,length_append,length_append,length_singleton,range'_1_concat,map_append,
    Nat.add_right_comm]
  rfl

theorem Flushed.followed (flushed : Flushed identity requests next state log)
    (bare : framedOf request = none) : Sent identity (requests ++ [request]) log requests.length := by
  obtain ⟨sent,_⟩ := flushed
  have none : framesOf (requests ++ [request]) = framesOf requests := by
    rw [framesOf_append]
    simp [framesOf,bare]
  refine ⟨?_,?_,?_,sent.responses,sent.honest.extend [request]⟩
  · rw [length_append]
    omega
  · rw [none]
    exact sent.acknowledged
  · rw [none]
    exact sent.received

abbrev Handled (identity : StreamId) (requests : List Request) (request : Request) : StreamState → List Action → Prop :=
  Tracks identity (requests ++ [request]) ((requests.length : Int)+1)

theorem handleBazelEvent_tracks {typeUrl : String} (tracks : Tracks identity requests ((requests.length : Int)+1) state log)
    (carries : framedOf request = some (encodeVarint value.length ++ value)) :
    Settles identity (requests ++ [request]) (Handled identity requests request)
      (handleBazelEvent environment state (answer identity (requests.length+1)) typeUrl value log) := by
  unfold handleBazelEvent
  split
  · exact tracks.sound.extend [request]
  split
  · exact tracks.sound.extend [request]
  rename_i framed framing
  rw [← frameBepPayload_ok framing] at carries
  have pushed : Handled identity requests request (pushFrame state (answer identity (requests.length+1)) value framed) log := pushFrame_tracks tracks carries
  dsimp only
  split
  · exact (flushInLoop_tracks environment pushed).weaken fun _ _ flushed => flushed.tracks
  · exact pushed

theorem respondInLoop_tracks
    (sent : Sent identity (requests ++ [request]) log requests.length) (frames : state.pendingFrames = [])
    (answers : state.pendingResponses = []) (expected : state.expectedSequence = (requests.length : Int)+1) :
    Settles identity (requests ++ [request]) (Handled identity requests request)
      (respondInLoop environment state (answer identity (requests.length+1)) log) := by
  refine (sendResponse_sent environment sent (by simp)).proceed fun _ log answered => ?_
  have all : Sent identity (requests ++ [request]) log (requests ++ [request]).length := by
    rw [length_append]
    exact answered
  exact Flushed.tracks ⟨all,frames,answers,expected⟩

theorem handleEvent_tracks {event : BuildEvent} (tracks : Tracks identity requests ((requests.length : Int)+1) state log)
    (holds : request.orderedBuildEvent = some ordered) (carried : ordered.event = some event) :
    Settles identity (requests ++ [request]) (Handled identity requests request)
      (handleEvent environment state (answer identity (requests.length+1)) event.event log) := by
  obtain ⟨event⟩ := event
  have framed : framedOf request = eventFrame event := by
    unfold framedOf
    rw [holds,Option.bind_some,carried,Option.bind_some]
  have flushing := (flushInLoop_tracks environment tracks).extend [request]
  rcases event with _ | ⟨typeUrl,value⟩ | type
  · exact flushing.proceed fun _ _ flushed =>
      respondInLoop_tracks environment (flushed.followed framed) flushed.2.1 flushed.2.2.1 flushed.2.2.2
  · exact handleBazelEvent_tracks environment tracks framed
  simp only [handleEvent,handleFinished]
  split
  · exact tracks.sound.extend [request]
  · refine flushing.proceed fun _ log flushed => ?_
    have bare : BesStreamEventKind.finished.payload = framesOf [request] := by simp [BesStreamEventKind.payload,framesOf,framed,eventFrame]
    refine (forward_sent environment flushed.1 bare).proceed fun _ log sent => ?_
    exact respondInLoop_tracks environment sent flushed.2.1 flushed.2.2.1 flushed.2.2.2

theorem acceptRequest_tracks (request : Request)
    (tracks : Tracks identity requests ((requests.length : Int)+1) state log) : Settles identity (requests ++ [request])
      (Tracks identity (requests ++ [request]) (((requests ++ [request]).length : Int)+1))
      (acceptRequest environment identity state request log) := by
  unfold acceptRequest
  split
  · exact tracks.sound.extend [request]
  rename_i ordered event after checked
  obtain ⟨holds,carried,inSequence,rfl⟩ := checkRequest_ok checked
  have number : (⟨identity,ordered.sequenceNumber⟩ : Response) = answer identity (requests.length+1) := by
    rw [inSequence,tracks.expected]
    rfl
  rw [number]
  have counted : Tracks identity requests ((requests.length : Int)+1)
      { state with requestCount := saturatingAdd state.requestCount 1 } log := ⟨tracks.expected,tracks.waiting⟩
  refine (handleEvent_tracks environment counted holds carried).proceed fun state log handled => ?_
  split
  · exact handled.sound
  · refine ⟨?_,handled.waiting⟩
    rw [handled.expected,length_append]
    rfl

/-! ### The whole stream -/

def messages (arrivals : List Arrival) : List Request :=
  arrivals.filterMap fun arrival => match arrival with
    | .message request => some request
    | _ => none

theorem streamLoop_tracks (arrivals : List Arrival) (tracks : Tracks identity requests ((requests.length : Int)+1) state log) :
    Settles identity (requests ++ messages arrivals)
      (Tracks identity (requests ++ messages arrivals) (((requests ++ messages arrivals).length : Int)+1))
      (streamLoop environment identity arrivals state log) := by
  induction arrivals generalizing requests state log with
  | nil =>
    simp only [messages,filterMap_nil,append_nil]
    exact tracks
  | cons arrival rest ih =>
    cases arrival with
    | failed status => exact tracks.sound.extend _
    | yielded =>
      simp only [streamLoop]
      split
      · exact ih tracks
      · exact ((flushInLoop_tracks environment tracks).extend (messages rest)).proceed fun _ _ flushed => ih flushed.tracks
    | message request =>
      have split : requests ++ messages (.message request::rest) = (requests ++ [request]) ++ messages rest := by
        simp [messages]
      rw [split]
      exact ((acceptRequest_tracks environment request tracks).extend (messages rest)).proceed fun _ _ accepted => ih accepted

theorem tracks_new (identity : StreamId) : Tracks identity [] 1 {} [] := by
  refine ⟨rfl,[],[],rfl,⟨Nat.le_refl _,rfl,rfl,rfl,?_⟩,rfl,rfl⟩
  intro before response after split
  cases before with
  | nil | cons action before => cases split

theorem drainStream_sent {first : Request} (known : streamIdentity first = .ok identity) (arrivals : List Arrival) :
    Settles identity (first::messages arrivals)
      (fun _ log => Sent identity (first::messages arrivals) log (first::messages arrivals).length)
      (drainStream environment first arrivals) := by
  unfold drainStream
  rw [known]
  have looped := streamLoop_tracks environment (.message first::arrivals) (tracks_new identity)
  refine Settles.proceed looped fun _ _ tracks => ?_
  exact (flush_tracks environment tracks).weaken fun _ _ flushed => flushed.1

theorem captureStream_log (first : Request) (arrivals : List Arrival) :
    (captureStream environment first arrivals).2 = (drainStream environment first arrivals).2 := by
  unfold captureStream proceed
  split
  · rename_i drained
    rw [drained]
  rename_i drained
  rw [drained]
  dsimp only
  split
  · rfl
  · rfl

/-- The end of the input was reached and the last batch acknowledged: no
request was rejected, and neither the transport nor the consumer nor the client failed. -/
def Uncut (first : Request) (arrivals : List Arrival) : Prop :=
  ∃ state, (drainStream environment first arrivals).1 = .ok state

theorem captureStream_sound (first : Request) (arrivals : List Arrival) :
    ∃ identity, Sound identity (first::messages arrivals) (captureStream environment first arrivals).2 := by
  rw [captureStream_log]
  cases known : streamIdentity first with
  | error error =>
    have nothing : (drainStream environment first arrivals).2 = [] := by
      unfold drainStream
      rw [known]
    rw [nothing]
    exact ⟨⟨"","",0⟩,(tracks_new _).sound.extend (first::messages arrivals)⟩
  | ok identity =>
    have settles := drainStream_sent environment known arrivals
    refine ⟨identity,?_⟩
    cases drained : drainStream environment first arrivals with
    | mk result log =>
      rw [drained] at settles
      cases result with
      | error error => exact settles
      | ok state => exact Sent.sound_settled settles

theorem uncut_received {first : Request} {arrivals : List Arrival} (uncut : Uncut environment first arrivals) :
    received (captureStream environment first arrivals).2 = framesOf (first::messages arrivals) := by
  rw [captureStream_log]
  obtain ⟨state,ok⟩ := uncut
  cases known : streamIdentity first with
  | error error =>
    unfold drainStream at ok
    rw [known] at ok
    cases ok
  | ok identity =>
    have settles := drainStream_sent environment known arrivals
    cases drained : drainStream environment first arrivals with
    | mk result log =>
      rw [drained] at ok settles
      cases ok
      exact Sent.received settles

theorem Covered.batches {response : Response} (covered : Covered requests log response) :
    ∃ number : Nat, response.sequenceNumber = (number : Int) ∧ ∀ request ∈ requests.take number, ∀ frame,
      framedOf request = some frame → ∃ batch, Action.acknowledged (.frames batch) ∈ log ∧ frame ∈ batch := by
  obtain ⟨number,count,same,le,_,frames⟩ := covered
  refine ⟨number,same,fun request inside frame framed => ?_⟩
  have settled : request ∈ requests.take count := mem_of_mem_take (i := number) (by
    rw [take_take,Nat.min_eq_left le]
    exact inside)
  have shown : frame ∈ acknowledged log := by
    rw [frames]
    exact mem_filterMap.mpr ⟨request,settled,framed⟩
  obtain ⟨action,logged,inAction⟩ := mem_flatMap.mp shown
  split at inAction
  · exact ⟨_,logged,inAction⟩
  · cases inAction

theorem numbered_start {first rest : List Response} (numbered : first ++ rest = (List.range' 1 count).map (answer identity)) :
    first = (List.range' 1 first.length).map (answer identity) := by
  have size := congrArg List.length numbered
  rw [length_append,length_map,length_range'] at size
  rw [← size,← range'_append_1,map_append] at numbered
  exact (append_inj numbered (by simp)).1

theorem framesOf_start (requests : List Request) {frames : List Bytes} (isPrefix : frames <+: framesOf requests) :
    ∃ count, frames = framesOf (requests.take count) := by
  obtain ⟨front,isFront,same⟩ := prefix_filterMap_iff.mp isPrefix
  rw [prefix_iff_eq_take.mp isFront] at same
  exact ⟨_,same⟩

end

/-! ### A rejected request drops the frames that wait -/

def willing : Environment := ⟨fun _ _ => .accepted,fun _ => true⟩

def event (sequenceNumber : Int) : Request :=
  ⟨some ⟨some ⟨"","",0⟩,sequenceNumber,some ⟨some (.bazelEvent "" [])⟩⟩⟩

end BazelMcp.BuildEventService

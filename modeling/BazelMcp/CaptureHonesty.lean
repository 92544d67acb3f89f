import BazelMcp.CaptureReplay

/-! What a capture leaves out and what it does not tell. A stream is sound when
it splits into complete frames that decode within the limits, which start anew
behind each Finished event with exit code 39. An attempt that ended so is set
aside, and what stands behind it decides both what is reduced and what is said. -/
namespace BazelMcp.Capture.CapturePipeline
open Segments Framing BorrowedBepEvent
open List hiding head

variable {δ V A D : Type} {bep : Bep δ V A D} {split : List (Bytes × Bytes)}

/-! ### Sound streams -/

theorem reached_rest (bep : Bep δ V A D) (input : Bytes) :
    (decoded bep input).1.terminalError = none ↔ (reached bep input).2 = [] := by
  have stuck := consume_invariant (frames defaultMaxFrameBytes) (recorder bep)
    (fun session buffer => session.1.isTerminal = true → buffer ≠ []) ?_ ?_ ?_ (fresh ((),[])) input
    (fun stopped => by cases stopped)
  · rw [decoded_reached]
    change (if _ then _ else _) = _ ↔ _
    change (reached bep input).1.1.isTerminal = true → (reached bep input).2 ≠ [] at stuck
    unfold IncrementalStreamDecoder.isTerminal at stuck
    cases error : (reached bep input).1.1.terminalError with
    | some error =>
      rw [error] at stuck
      simpa using stuck rfl
    | none => simp
  · intro session buffer error _ found _ empty
    rw [empty] at found
    cases found
  · intro session buffer skip size _ _ found _ _ empty
    have inside := (frames defaultMaxFrameBytes).take_le found
    have positive := (frames defaultMaxFrameBytes).take_pos found
    rw [empty] at inside
    simp only [length_nil] at inside
    omega
  · intro session buffer skip size _ _ _ going stopped
    cases going.symm.trans stopped

/-- All bytes split into complete frames that decode within the limits. -/
def WellFormed (bep : Bep δ V A D) (input : Bytes) : Prop := ∃ split, input = bytes split ∧ Sound bep (0,0) split

theorem wellFormed_iff (bep : Bep δ V A D) (input : Bytes) : WellFormed bep input ↔ (reached bep input).2 = [] := by
  constructor
  · intro ⟨split,whole,sound⟩
    have after := reached_sound sound []
    rw [append_nil,← whole,consume_more _ _ _ rfl] at after
    rw [after]
  · intro empty
    have whole := reached_bytes bep input
    rw [empty,append_nil] at whole
    exact ⟨visits bep input,whole.symm,visits_sound bep input⟩

/-! ### Behind an attempt that was set aside -/

def NextEvent (bep : Bep δ V A D) (rest : Bytes) : Prop :=
  ∃ payload framed more, rest = framed ++ more ∧ Sound bep (0,0) [(payload,framed)]

theorem visits_behind (sound : Sound bep (0,0) split) (ends : EndsEvicted bep split)
    (rest : Bytes) : visits bep (bytes split ++ rest) = split ++ visits bep rest := by
  rw [visits_reached,reached_behind sound (.inr ends)]

theorem nextEvent_iff (bep : Bep δ V A D) (rest : Bytes) : NextEvent bep rest ↔ visits bep rest ≠ [] := by
  constructor
  · intro ⟨payload,framed,more,whole,sound⟩
    have here : rest = bytes [(payload,framed)] ++ more := by simpa [bytes] using whole
    rw [here,visits_reached,reached_sound sound more,recorder_shift]
    simp
  · intro some
    obtain ⟨visit,later,shape⟩ := List.exists_cons_of_ne_nil some
    have sound := visits_sound bep rest
    have whole := reached_bytes bep rest
    rw [shape] at sound whole
    refine ⟨visit.1,visit.2,bytes later ++ (reached bep rest).2,?_,sound.1,sound.2.1,sound.2.2.1,trivial⟩
    exact whole.symm.trans (by simp [bytes])

theorem evicted_front {input : Bytes} {k : Nat} (evicted : EvictedAt bep (visits bep input) k) :
    ∃ split rest, input = bytes split ++ rest ∧ Sound bep (0,0) split ∧ EndsEvicted bep split ∧
      visits bep input = split ++ visits bep rest ∧ split.length = k+1 := by
  have inside := (List.getElem?_eq_some_iff.mp evicted.choose_spec.1).1
  have parts : visits bep input = (visits bep input).take (k+1) ++ (visits bep input).drop (k+1) := (take_append_drop _ _).symm
  have sound := visits_sound bep input
  rw [parts] at sound
  have front := ((sound_append bep _ _ _).mp sound).1
  have ends := endsEvicted_take evicted
  have whole := dropped_bytes parts
  have behind := visits_behind front ends (bytes ((visits bep input).drop (k+1)) ++ (reached bep input).2)
  rw [whole] at behind
  exact ⟨_,_,whole.symm,front,ends,behind,by rw [length_take]; omega⟩

/-- No complete event follows the end of an evicted attempt. -/
def NothingBehind (bep : Bep δ V A D) (input : Bytes) : Prop :=
  ∀ split rest, input = bytes split ++ rest → Sound bep (0,0) split → EndsEvicted bep split → ¬ NextEvent bep rest

theorem block_whole_iff {input : Bytes} {p : Nat} (block : BlockStart bep (visits bep input) p) :
    p = 0 ↔ NothingBehind bep input := by
  constructor
  · intro zero split rest whole sound ends next
    have behind := visits_behind sound ends rest
    rw [← whole] at behind
    have more := length_pos_of_ne_nil ((nextEvent_iff bep rest).mp next)
    have evicted : EvictedAt bep (split ++ visits bep rest) _ := evictedAt_front ends
    rw [← behind] at evicted
    have length := congrArg length behind
    rw [length_append] at length
    have positive : 0 < split.length := by
      obtain ⟨front,last,rfl,_⟩ := ends
      simp
    have early := block.last _ evicted (by omega)
    omega
  · intro quiet
    rcases block.start with zero | evicted
    · exact zero
    obtain ⟨split,rest,whole,sound,ends,behind,size⟩ := evicted_front evicted
    by_contra positive
    have inside := block.inside
    have length := congrArg length behind
    rw [length_append] at length
    exact quiet split rest whole sound ends ((nextEvent_iff bep rest).mpr (ne_nil_of_length_pos (by omega)))

/-! ### What is reduced -/

def completeEvents (bep : Bep δ V A D) (input : Bytes) : List (BorrowedBepEvent V) :=
  (visits bep input).filterMap fun visit => (BorrowedBepEvent.decode bep.decodeView visit.1).toOption

def withAccumulator {B : Type} (bep : Bep δ V A D) (start : Option (Nat × Nat) → B) (observe : B → BorrowedBepEvent V → B) : Bep δ V B D :=
  { bep with newAccumulator := start, observeBorrowed := observe }

theorem reduce_events {B : Type} (bep : Bep δ V A D) (limits : Option (Nat × Nat)) (start : Option (Nat × Nat) → B)
    (observe : B → BorrowedBepEvent V → B) {visits : List (Bytes × Bytes)}
    (decodes : ∀ visit ∈ visits, ∃ view, bep.decodeView visit.1 = .ok view) :
    (reduce (withAccumulator bep start observe) limits visits).accumulator =
      (visits.filterMap fun visit => (decode bep.decodeView visit.1).toOption).foldl observe (start limits) := by
  induction visits using reverseRecOn with
  | nil => rfl
  | append_singleton visits last ih =>
    obtain ⟨view,viewed⟩ := decodes last (by simp)
    have before := ih fun visit member => decodes visit (by simp [member])
    have decoded : decode bep.decodeView last.1 = .ok { view, frameBytes := last.1 } := by
      unfold decode
      rw [viewed]
      rfl
    have viewed : (withAccumulator bep start observe).decodeView last.1 = .ok view := viewed
    rw [reduce_push,filterMap_append,foldl_append,← before]
    simp only [observeFrame,viewed,filterMap_cons,decoded]
    rfl

theorem events_length {visits : List (Bytes × Bytes)} (decodes : ∀ visit ∈ visits, ∃ view, bep.decodeView visit.1 = .ok view) :
    (visits.filterMap fun visit => (decode bep.decodeView visit.1).toOption).length = visits.length := by
  rw [length_filterMap_eq_countP,countP_eq_length]
  intro visit member
  obtain ⟨view,viewed⟩ := decodes visit member
  unfold decode
  rw [viewed]
  rfl

/-- Whatever the accumulator, it observes every complete event of the stream if and only if no
complete event follows the end of an attempt with exit code 39. -/
theorem attempt_reduced_iff (bep : Bep δ V A D) (limits : Option (Nat × Nat)) (source : BepReductionSource) (chunks : List Bytes)
    (durable : DurableBepWriter) (empty : Holds [] durable) :
    (∀ (B : Type) (start : Option (Nat × Nat) → B) (observe : B → BorrowedBepEvent V → B),
      (capture (withAccumulator bep start observe) noFaults source chunks
        (new (withAccumulator bep start observe) durable limits)).1.map (·.reduction.accumulator) =
          .ok ((completeEvents bep chunks.flatten).foldl observe (start limits))) ↔ NothingBehind bep chunks.flatten := by
  have decodes := visits_decode bep chunks.flatten
  have captured {B : Type} (start : Option (Nat × Nat) → B) (observe : B → BorrowedBepEvent V → B) :
      (capture (withAccumulator bep start observe) noFaults source chunks
        (new (withAccumulator bep start observe) durable limits)).1.map (·.reduction.accumulator) =
          .ok (report (withAccumulator bep start observe) limits (visits bep chunks.flatten) (decoded bep chunks.flatten).1).1 := by
    obtain ⟨output,state,captured,reported,_⟩ := capture_report (withAccumulator bep start observe) source chunks limits durable empty
    rw [captured]
    exact congrArg Except.ok (congrArg Prod.fst reported)
  rcases eq_nil_or_concat' (visits bep chunks.flatten) with nothing | ⟨front,last,shape⟩
  · -- no event is complete, and the accumulator is the new one
    constructor
    · intro _ split rest whole sound ends _
      have behind := visits_behind sound ends rest
      rw [← whole,nothing] at behind
      obtain ⟨front,last,rfl,_⟩ := ends
      simp at behind
    · intro _ B start observe
      rw [captured]
      unfold completeEvents
      rw [nothing]
      rfl
  · have block {B : Type} (start : Option (Nat × Nat) → B) (observe : B → BorrowedBepEvent V → B) :
        ∃ p, BlockStart bep (visits bep chunks.flatten) p ∧
          (report (withAccumulator bep start observe) limits (visits bep chunks.flatten) (decoded bep chunks.flatten).1).1 =
            (((visits bep chunks.flatten).drop p).filterMap
              fun visit => (decode bep.decodeView visit.1).toOption).foldl observe (start limits) := by
      have lastDecodes := decodes last (by rw [shape]; simp)
      obtain ⟨p,block,reported⟩ := report_block (withAccumulator bep start observe) limits front last lastDecodes (decoded bep chunks.flatten).1
      rw [← shape] at block reported
      refine ⟨p,⟨block.inside,block.start,block.last⟩,?_⟩
      rw [reported]
      exact reduce_events bep limits start observe fun visit member => decodes visit (mem_of_mem_drop member)
    constructor
    · intro whole
      -- an accumulator that counts tells how many events are observed
      have counted := whole Nat (fun _ => 0) (fun count _ => count+1)
      obtain ⟨p,block,reported⟩ := block (fun _ => 0) (fun count _ => count+1)
      rw [captured,reported] at counted
      refine (block_whole_iff block).mp ?_
      have inside := block.inside
      have lengths := Except.ok.inj counted
      unfold completeEvents at lengths
      rw [foldl_add_const,foldl_add_const,events_length decodes,
        events_length fun visit member => decodes visit (mem_of_mem_drop member),length_drop] at lengths
      omega
    · intro quiet B start observe
      obtain ⟨p,block,reported⟩ := block start observe
      have zero := (block_whole_iff block).mpr quiet
      rw [captured,reported,zero]
      rfl

/-- Frames of one byte: the build ends with exit code 39, and one more event that is no Started event follows. -/
theorem attempt_dropped : (capture byteEvents noFaults .fifo [[1,1,1,39,1,7]] (new byteEvents (.append ⟨[],0⟩ [] 0) none)).1.map
      (·.reduction.accumulator) = .ok [[7]] ∧ (completeEvents byteEvents [1,1,1,39,1,7]).map (·.frameBytes) = [[1],[39],[7]] ∧
    ((completeEvents byteEvents [1,1,1,39,1,7]).drop 1).any (isStarted byteEvents ·.view) = false ∧
    ¬ NothingBehind byteEvents [1,1,1,39,1,7] := by
  refine ⟨rfl,rfl,rfl,?_⟩
  intro quiet
  exact quiet [([1],[1,1]),([39],[1,39])] [1,7] rfl (visits_sound byteEvents [1,1,1,39]) ⟨[([1],[1,1])],([39],[1,39]),rfl,rfl⟩
    ((nextEvent_iff byteEvents [1,7]).mpr (by decide))

/-- The same stream without its last event. -/
theorem attempt_reduced_last : NothingBehind byteEvents [1,1,1,39] ∧
    (capture (withAccumulator byteEvents (fun _ => 0) (fun count _ => count+1)) noFaults .fifo [[1,1,1],[39]]
      (new (withAccumulator byteEvents (fun _ => 0) (fun count _ => count+1)) (.append ⟨[],0⟩ [] 0) none)).1.map
        (·.reduction.accumulator) = .ok 2 := by
  have block : BlockStart byteEvents (visits byteEvents [1,1,1,39]) 0 := by
    refine ⟨by decide,.inl rfl,?_⟩
    intro k ⟨visit,at_k,evicted⟩ short
    match k, at_k with
    | 0, at_k =>
      cases at_k
      cases evicted
    | k+1, _ => exact absurd short (by simp [show (visits byteEvents [1,1,1,39]).length = 2 from rfl])
  have quiet := (block_whole_iff block).mp rfl
  exact ⟨quiet,(attempt_reduced_iff byteEvents none .fifo [[1,1,1],[39]] (.append ⟨[],0⟩ [] 0) ⟨rfl,rfl⟩).mpr quiet Nat
    (fun _ => 0) (fun count _ => count+1)⟩

/-! ### What is told -/

/-- Directly behind the end of an evicted attempt stands a complete event or nothing. -/
def NothingBroken (bep : Bep δ V A D) (input : Bytes) : Prop :=
  ∀ split rest, input = bytes split ++ rest → Sound bep (0,0) split → EndsEvicted bep split → rest = [] ∨ NextEvent bep rest

theorem broken_iff (bep : Bep δ V A D) (input : Bytes) :
    NothingBroken bep input ↔ (EvictedAt bep (visits bep input) ((visits bep input).length-1) → (reached bep input).2 = []) := by
  constructor
  · intro whole evicted
    obtain ⟨split,rest,rfl,sound,ends,behind,size⟩ := evicted_front evicted
    rcases whole split rest rfl sound ends with rfl | next
    · rw [reached_behind sound (.inr ends)]
      exact congrArg Prod.snd (consume_more _ _ _ rfl)
    have more := length_pos_of_ne_nil ((nextEvent_iff bep rest).mp next)
    have length := congrArg length behind
    rw [length_append] at length
    omega
  · intro clean split rest whole sound ends
    by_cases next : NextEvent bep rest
    · exact .inr next
    left
    have behind := visits_behind sound ends rest
    have nothing : visits bep rest = [] := by
      by_contra some
      exact next ((nextEvent_iff bep rest).mpr some)
    have evicted : EvictedAt bep (split ++ []) _ := evictedAt_front ends
    rw [nothing] at behind
    rw [append_nil] at behind evicted
    rw [whole,behind,reached_behind sound (.inr ends)] at clean
    have whole := reached_bytes bep rest
    rw [nothing,clean evicted] at whole
    exact whole.symm

/-- The outcome of a capture has no error exactly for well-formed streams, if and only if nothing but
a complete event stands directly behind the end of an attempt with exit code 39. -/
theorem outcome_honest_iff (bep : Bep δ V A D) (limits : Option (Nat × Nat)) (source : BepReductionSource) (chunks : List Bytes)
    (durable : DurableBepWriter) (empty : Holds [] durable) :
    (∃ output state, capture bep noFaults source chunks (new bep durable limits) = (.ok output,state) ∧
      (output.reduction.outcome.terminalError = none ↔ WellFormed bep chunks.flatten)) ↔ NothingBroken bep chunks.flatten := by
  obtain ⟨output,state,captured,reported,_⟩ := capture_report bep source chunks limits durable empty
  have outcome : output.reduction.outcome = (report bep limits (visits bep chunks.flatten) (decoded bep chunks.flatten).1).2 :=
    congrArg Prod.snd reported
  have told : (∃ output state, capture bep noFaults source chunks (new bep durable limits) = (.ok output,state) ∧
      (output.reduction.outcome.terminalError = none ↔ WellFormed bep chunks.flatten)) ↔
      ((report bep limits (visits bep chunks.flatten) (decoded bep chunks.flatten).1).2.terminalError = none ↔
        (reached bep chunks.flatten).2 = []) := by
    rw [← outcome,← wellFormed_iff,captured]
    constructor
    · intro ⟨_,_,same,honest⟩
      cases same
      exact honest
    · intro honest
      exact ⟨output,state,rfl,honest⟩
  rw [told,broken_iff]
  have decoder := reached_rest bep chunks.flatten
  rcases eq_nil_or_concat' (visits bep chunks.flatten) with nothing | ⟨front,last,shape⟩
  · rw [nothing]
    constructor
    · intro _ ⟨visit,at_last,_⟩
      cases at_last
    · intro _
      exact decoder
  have lastDecodes := visits_decode bep chunks.flatten last (by rw [shape]; simp)
  obtain ⟨p,_,reports⟩ := report_block bep limits front last lastDecodes (decoded bep chunks.flatten).1
  rw [shape,reports]
  have evicts : EvictedAt bep (front ++ [last]) ((front ++ [last]).length-1) ↔ evictedFrame bep last.1 = true := by
    unfold EvictedAt
    simp
  rw [evicts]
  cases evicted : evictedFrame bep last.1 with
  | true => simp [ReductionSubscriber.outcome]
  | false => simpa using decoder

/-- Half a frame behind the end of an attempt with exit code 39 is not reported. -/
theorem broken_tail_untold :
    (capture byteEvents noFaults .fifo [[1,1,1,39],[5]] (new byteEvents (.append ⟨[],0⟩ [] 0) none)).1.map
      (·.reduction.outcome) = .ok ⟨2,2,none⟩ ∧ ¬ WellFormed byteEvents [1,1,1,39,5] := by
  refine ⟨rfl,?_⟩
  rw [wellFormed_iff,← reached_rest]
  exact fun none => by cases none

/-- Half a frame elsewhere is reported, with the same frames before it. -/
theorem outcome_honest_truncated : NothingBroken byteEvents [1,1,1,0,5] ∧
    ∃ output state, capture byteEvents noFaults .fifo [[1,1,1],[0,5]] (new byteEvents (.append ⟨[],0⟩ [] 0) none) = (.ok output,state) ∧
      (output.reduction.outcome.terminalError = none ↔ WellFormed byteEvents [1,1,1,0,5]) := by
  have whole : NothingBroken byteEvents [1,1,1,0,5] := by
    rw [broken_iff]
    intro ⟨visit,at_last,evicted⟩
    cases at_last
    cases evicted
  exact ⟨whole,(outcome_honest_iff byteEvents none .fifo [[1,1,1],[0,5]] (.append ⟨[],0⟩ [] 0) ⟨rfl,rfl⟩).mpr whole⟩

end BazelMcp.Capture.CapturePipeline

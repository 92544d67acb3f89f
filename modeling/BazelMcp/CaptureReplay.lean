import BazelMcp.CaptureFrames
import BazelMcp.FrameReading

/-! The live reduction against a reduction of the retained evidence. A retry
truncates the evidence file but not the reduction that has already taken in what
the abandoned attempt sent behind its Finished event, so the two agree exactly
when no such event is in the block of visits that is reported. -/
namespace BazelMcp.Capture.CapturePipeline
open Segments Framing BorrowedBepEvent List

variable {δ V A D : Type} (bep : Bep δ V A D) (limits : Option (Nat × Nat)) (source : BepReductionSource) (chunks : List Bytes)

/-- `reads` are the pieces in which the file is read, none if there is no file. -/
def reduceBepFile (bep : Bep δ V A D) (limits : Option (Nat × Nat)) (reads : Option (List Bytes)) :
    Except IoError (A × StreamOutcome δ) :=
  match reads with
  | none => .ok (bep.newAccumulator none,{ eventCount := 0, decodedBytes := 0, terminalError := none })
  | some reads =>
    match (capture bep noFaults .postHocFallback reads (new bep (.alreadyPersisted [] 0) limits)).1 with
    | .ok output => .ok (output.reduction.accumulator,output.reduction.outcome)
    | .error error => .error error

/-- What a capture of the chunks into a new evidence file reports, if no call fails. -/
def liveReport (bep : Bep δ V A D) (limits : Option (Nat × Nat)) (source : BepReductionSource) (chunks : List Bytes) :
    Except IoError (A × StreamOutcome δ) :=
  match (capture bep noFaults source chunks (new bep (.append ⟨[],0⟩ [] 0) limits)).1 with
  | .ok output => .ok (output.reduction.accumulator,output.reduction.outcome)
  | .error error => .error error

def evidence (bep : Bep δ V A D) (limits : Option (Nat × Nat)) (source : BepReductionSource) (chunks : List Bytes) : Bytes :=
  match (capture bep noFaults source chunks (new bep (.append ⟨[],0⟩ [] 0) limits)).2.durable with
  | .append file _ _ => file.content
  | .alreadyPersisted _ _ => []

theorem liveReport_eq : liveReport bep limits source chunks =
      .ok (report bep limits (visits bep chunks.flatten) (decoded bep chunks.flatten).1) := by
  obtain ⟨output,state,captured,reported,_⟩ := capture_report bep source chunks limits (.append ⟨[],0⟩ [] 0) ⟨rfl,rfl⟩
  unfold liveReport
  rw [captured,← reported]

theorem reduceBepFile_eq (reads : List Bytes) : reduceBepFile bep limits (some reads) =
      .ok (report bep limits (visits bep reads.flatten) (decoded bep reads.flatten).1) := by
  obtain ⟨output,state,captured,reported,_⟩ :=
    capture_report bep .postHocFallback reads limits (.alreadyPersisted [] 0) trivial
  unfold reduceBepFile
  dsimp only
  rw [captured,← reported]

theorem evidence_eq : evidence bep limits source chunks =
      bytes (attempt bep limits (visits bep chunks.flatten)).kept ++ (reached bep chunks.flatten).2 := by
  obtain ⟨output,state,captured,_,holds⟩ := capture_report bep source chunks limits (.append ⟨[],0⟩ [] 0) ⟨rfl,rfl⟩
  obtain ⟨file,hasher,count,appends⟩ := (capture_sound bep noFaults source chunks limits).appends
  unfold evidence
  rw [captured] at appends ⊢
  rw [appends] at holds ⊢
  exact holds.1

/-! ### The block of visits that is reported -/

def EvictedAt (bep : Bep δ V A D) (visits : List (Bytes × Bytes)) (k : Nat) : Prop :=
  ∃ visit, visits[k]? = some visit ∧ evictedFrame bep visit.1 = true

def reduce (bep : Bep δ V A D) (limits : Option (Nat × Nat)) (visits : List (Bytes × Bytes)) : ReductionSubscriber A :=
  visits.foldl (fun reduction visit => observeFrame bep reduction visit.1) (.new bep limits)

/-- The current block starts behind the last end of an evicted attempt. -/
structure CurrentStart (bep : Bep δ V A D) (visits : List (Bytes × Bytes)) (p : Nat) : Prop where
  inside : p ≤ visits.length
  start : p = 0 ∨ EvictedAt bep visits (p-1)
  last : ∀ k, EvictedAt bep visits k → k < p

theorem evictedAt_push (visits : List (Bytes × Bytes)) (last : Bytes × Bytes) (k : Nat) :
    EvictedAt bep (visits ++ [last]) k ↔ EvictedAt bep visits k ∨ (k = visits.length ∧ evictedFrame bep last.1 = true) := by
  constructor
  · rintro ⟨visit,at_k,evicted⟩
    rcases getElem_push visits last at_k with at_k | ⟨rfl,rfl⟩
    · exact .inl ⟨visit,at_k,evicted⟩
    · exact .inr ⟨rfl,evicted⟩
  · rintro (⟨visit,at_k,evicted⟩ | ⟨rfl,evicted⟩)
    · exact ⟨visit,getElem_grow at_k last,evicted⟩
    · exact ⟨last,getElem?_concat_length,evicted⟩

variable {frame : Bytes} {before after : List (Bytes × Bytes)}

theorem evictedAt_right (before after : List (Bytes × Bytes)) (k : Nat) :
    EvictedAt bep (before ++ after) (before.length+k) ↔ EvictedAt bep after k := by
  unfold EvictedAt
  rw [getElem?_append_right (Nat.le_add_right before.length k),Nat.add_sub_cancel_left]

def EndsEvicted (bep : Bep δ V A D) (split : List (Bytes × Bytes)) : Prop :=
  ∃ front last, split = front ++ [last] ∧ evictedFrame bep last.1 = true

variable {bep}

theorem evictedAt_front (ends : EndsEvicted bep before) : EvictedAt bep (before ++ after) (before.length-1) := by
  obtain ⟨front,last,rfl,evicted⟩ := ends
  refine ⟨last,?_,evicted⟩
  simp

theorem endsEvicted_take {visits : List (Bytes × Bytes)} {k : Nat} (evicted : EvictedAt bep visits k) :
    EndsEvicted bep (visits.take (k+1)) := by
  obtain ⟨visit,at_k,isEvicted⟩ := evicted
  refine ⟨visits.take k,visit,?_,isEvicted⟩
  rw [take_add_one,at_k]
  rfl

theorem EndsEvicted.right (ends : EndsEvicted bep (before ++ after)) : after = [] ∨ EndsEvicted bep after := by
  obtain ⟨front,last,same,evicted⟩ := ends
  refine (eq_nil_or_concat' after).imp_right ?_
  rintro ⟨tail,item,rfl⟩
  rw [← append_assoc] at same
  cases append_inj_right' same rfl
  exact ⟨tail,last,rfl,evicted⟩

variable (bep)

theorem attempt_reduction (visits : List (Bytes × Bytes)) :
    ∃ p, CurrentStart bep visits p ∧ (attempt bep limits visits).reduction = reduce bep limits (visits.drop p) := by
  induction visits using reverseRecOn with
  | nil => exact ⟨0,⟨Nat.le_refl 0,.inl rfl,fun k ⟨visit,at_k,_⟩ => by simp at at_k⟩,rfl⟩
  | append_singleton visits last ih =>
    obtain ⟨p,start,reduction⟩ := ih
    rw [attempt_push]
    unfold Attempt.visit
    cases evicted : evictedFrame bep last.1 with
    | true =>
      refine ⟨visits.length+1,⟨by simp,.inr ?_,?_⟩,?_⟩
      · exact (evictedAt_push bep visits last _).mpr (.inr ⟨by simp,evicted⟩)
      · rintro k ⟨visit,at_k,_⟩
        have inside := (List.getElem?_eq_some_iff.mp at_k).1
        simpa using inside
      · rw [drop_of_length_le (by simp)]
        rfl
    | false =>
      have inside := start.inside
      refine ⟨p,⟨by simp; omega,?_,?_⟩,?_⟩
      · exact start.start.imp_right fun before => (evictedAt_push bep visits last _).mpr (.inl before)
      · intro k at_k
        rcases (evictedAt_push bep visits last k).mp at_k with at_k | ⟨_,other⟩
        · exact start.last k at_k
        · simp [evicted] at other
      · rw [drop_append_of_le_length inside]
        unfold reduce at reduction ⊢
        rw [foldl_append,← reduction]
        rfl

/-- The reported block: as the current one, but an attempt that has just been
set aside is still reported. -/
structure BlockStart (bep : Bep δ V A D) (visits : List (Bytes × Bytes)) (p : Nat) : Prop where
  inside : p < visits.length
  start : p = 0 ∨ EvictedAt bep visits (p-1)
  last : ∀ k, EvictedAt bep visits k → k+1 < visits.length → k < p

variable {bep}

theorem blockStart_unique {visits : List (Bytes × Bytes)} {p q : Nat} (first : BlockStart bep visits p)
    (second : BlockStart bep visits q) : p = q := by
  have ordered {p q : Nat} (first : BlockStart bep visits p) (second : BlockStart bep visits q) : q ≤ p := by
    rcases second.start with rfl | before
    · omega
    · have := first.last _ before
      have := second.inside
      omega
  exact Nat.le_antisymm (ordered second first) (ordered first second)

/-- A block starts behind the end of an evicted attempt, so what stands before that has no influence on it. -/
theorem BlockStart.behind {p : Nat} (ends : EndsEvicted bep before) (block : BlockStart bep after p) :
    BlockStart bep (before ++ after) (before.length+p) := by
  refine ⟨by rw [length_append]; exact Nat.add_lt_add_left block.inside _,?_,?_⟩
  · right
    cases p with
    | zero => exact evictedAt_front ends
    | succ p => exact (evictedAt_right bep before after p).mpr (block.start.resolve_left (by omega))
  · intro k at_k short
    rcases Nat.lt_or_ge k before.length with below | above
    · omega
    · obtain ⟨m,rfl⟩ := Nat.exists_eq_add_of_le above
      have := block.last m ((evictedAt_right bep before after m).mp at_k) (by rw [length_append] at short; omega)
      omega

theorem reduce_push (bep : Bep δ V A D) (visits : List (Bytes × Bytes)) (last : Bytes × Bytes) :
    reduce bep limits (visits ++ [last]) = observeFrame bep (reduce bep limits visits) last.1 := by
  unfold reduce
  rw [foldl_append]
  rfl

theorem observeFrame_counts (decodes : ∃ view, bep.decodeView frame = .ok view)
    (reduction : ReductionSubscriber A) : (observeFrame bep reduction frame).eventCount ≠ 0 := by
  obtain ⟨view,viewed⟩ := decodes
  simp only [observeFrame,viewed,ReductionSubscriber.observe,saturatingAdd,usizeMax]
  omega

variable (bep)

theorem report_block (front : List (Bytes × Bytes)) (last : Bytes × Bytes)
    (decodes : ∃ view, bep.decodeView last.1 = .ok view) (outcome : StreamOutcome δ) :
    ∃ p, BlockStart bep (front ++ [last]) p ∧ report bep limits (front ++ [last]) outcome =
      ((reduce bep limits ((front ++ [last]).drop p)).accumulator,
        if evictedFrame bep last.1 then (reduce bep limits ((front ++ [last]).drop p)).outcome else outcome) := by
  obtain ⟨p,start,reduction⟩ := attempt_reduction bep limits front
  have inside := start.inside
  have block : BlockStart bep (front ++ [last]) p := by
    refine ⟨by simp; omega,start.start.imp_right fun before => (evictedAt_push bep front last _).mpr (.inl before),?_⟩
    intro k at_k short
    rcases (evictedAt_push bep front last k).mp at_k with at_k | ⟨rfl,_⟩
    · exact start.last k at_k
    · simp at short
  refine ⟨p,block,?_⟩
  have counted := observeFrame_counts decodes (reduce bep limits (front.drop p))
  rw [drop_append_of_le_length inside,reduce_push]
  unfold report
  rw [attempt_push]
  unfold Attempt.visit
  rw [reduction]
  cases evicted : evictedFrame bep last.1 with
  | true => rfl
  | false => simp [counted]

theorem report_behind (ends : before = [] ∨ EndsEvicted bep before) (some : after ≠ [])
    (decodes : ∀ visit ∈ after, ∃ view, bep.decodeView visit.1 = .ok view) (outcome : StreamOutcome δ) :
    report bep limits (before ++ after) outcome = report bep limits after outcome := by
  rcases ends with rfl | ends
  · rfl
  obtain ⟨front,last,rfl⟩ := (eq_nil_or_concat' after).resolve_left some
  have lastDecodes := decodes last (by simp)
  obtain ⟨p,short,report_short⟩ := report_block bep limits front last lastDecodes outcome
  obtain ⟨q,long,report_long⟩ := report_block bep limits (before ++ front) last lastDecodes outcome
  rw [append_assoc] at long report_long
  have same := blockStart_unique long (short.behind ends)
  rw [report_short,report_long,same,drop_length_add_append]

/-! ### Sound streams -/

def counted (decodedBytes eventCount : Nat) : IncrementalStreamDecoder δ :=
  { (.new defaultMaxFrameBytes defaultMaxStreamBytes defaultMaxStreamEvents : IncrementalStreamDecoder δ) with
    decodedBytes, eventCount }

structure Visited (bep : Bep δ V A D) (decodedBytes eventCount : Nat) (frame : Bytes) : Prop where
  decodes : ∃ view, bep.decodeView frame = .ok view
  bytes : saturatingAdd decodedBytes frame.length ≤ defaultMaxStreamBytes
  events : eventCount < defaultMaxStreamEvents

def tally (bep : Bep δ V A D) (counts : Nat × Nat) (frame : Bytes) : Nat × Nat :=
  if evictedFrame bep frame then (0,0) else (saturatingAdd counts.1 frame.length,saturatingAdd counts.2 1)

/-- Complete frames that decode and respect every limit, from the counts on. -/
def Sound (bep : Bep δ V A D) : Nat × Nat → List (Bytes × Bytes) → Prop
  | _, [] => True
  | counts, visit::rest => Framed visit.1 visit.2 ∧ visit.1.length ≤ defaultMaxFrameBytes ∧
      Visited bep counts.1 counts.2 visit.1 ∧ Sound bep (tally bep counts visit.1) rest

def tallyAll (bep : Bep δ V A D) (counts : Nat × Nat) (split : List (Bytes × Bytes)) : Nat × Nat :=
  split.foldl (fun counts visit => tally bep counts visit.1) counts

theorem sound_append (bep : Bep δ V A D) (counts : Nat × Nat) (first second : List (Bytes × Bytes)) :
    Sound bep counts (first ++ second) ↔ Sound bep counts first ∧ Sound bep (tallyAll bep counts first) second := by
  induction first generalizing counts with
  | nil => simp [Sound,tallyAll]
  | cons visit rest ih =>
    have rest := ih (tally bep counts visit.1)
    simp only [cons_append,Sound]
    rw [rest]
    simp only [tallyAll,foldl_cons,and_assoc]

variable {bep} {split : List (Bytes × Bytes)} {counts : Nat × Nat}

theorem sound_mono {fewer : Nat × Nat} (le : fewer ≤ counts) (sound : Sound bep counts split) : Sound bep fewer split := by
  induction split generalizing counts fewer with
  | nil => trivial
  | cons visit rest ih =>
    obtain ⟨complete,small,visited,later⟩ := sound
    have tallied : tally bep fewer visit.1 ≤ tally bep counts visit.1 := by
      unfold tally
      split
      · exact le_rfl
      · exact ⟨saturatingAdd_mono le.1 _,saturatingAdd_mono le.2 _⟩
    exact ⟨complete,small,⟨visited.decodes,(saturatingAdd_mono le.1 _).trans visited.bytes,le.2.trans_lt visited.events⟩,
      ih tallied later⟩

theorem sound_decodes (sound : Sound bep counts split) : ∀ visit ∈ split, ∃ view, bep.decodeView visit.1 = .ok view := by
  induction split generalizing counts with
  | nil => simp
  | cons visit rest ih => exact forall_mem_cons.mpr ⟨sound.2.2.1.decodes,ih sound.2.2.2⟩

theorem segment_sound (visited : Visited bep counts.1 counts.2 frame) (log : Unit × List (Bytes × Bytes)) (framed : Bytes) :
    (recorder bep).segment (counted counts.1 counts.2,log) frame framed =
      (counted (tally bep counts frame).1 (tally bep counts frame).2,((),log.2 ++ [(frame,framed)])) := by
  obtain ⟨⟨view,viewed⟩,bytes,events⟩ := visited
  have calls : visiting (decode bep.decodeView) (recording (·.frameBytes) (attemptControl bep)) log frame framed =
      .ok (if isRemoteCacheEvicted bep view then .resetAfterFrame else .continue,((),log.2 ++ [(frame,framed)])) := by
    simp only [visiting,decode,viewed]
    rfl
  refine (decodeFrame_ok _ (counted counts.1 counts.2,log) bytes events calls).trans ?_
  simp only [tally,evictedFrame,viewed]
  cases isRemoteCacheEvicted bep view <;> rfl

theorem visited_of_going {log : Unit × List (Bytes × Bytes)} {framed : Bytes}
    (going : (recorder bep).stopped ((recorder bep).segment (counted counts.1 counts.2,log) frame framed) = false) :
    Visited bep counts.1 counts.2 frame := by
  have segment := recorder_segment bep (counted counts.1 counts.2,log) rfl frame framed
  rw [if_neg (by simp [going])] at segment
  have limits := decodeFrame_limits _ (counted counts.1 counts.2,log) frame framed going
  exact ⟨segment.1,limits.1,limits.2⟩

theorem consume_sound (sound : Sound bep counts split) (log : Unit × List (Bytes × Bytes)) (rest : Bytes) :
    consume (frames defaultMaxFrameBytes) (recorder bep) (counted counts.1 counts.2,log) (bytes split ++ rest) =
      consume (frames defaultMaxFrameBytes) (recorder bep)
        (counted (tallyAll bep counts split).1 (tallyAll bep counts split).2,((),log.2 ++ split)) rest := by
  induction split generalizing counts log with
  | nil =>
    rw [append_nil]
    rfl
  | cons visit split ih =>
    obtain ⟨payload,framed⟩ := visit
    obtain ⟨complete,small,visited,later⟩ := sound
    obtain ⟨skip,cut,payloadHere⟩ := @cut_complete δ _ _ complete small (bytes split ++ rest)
    have here : bytes ((payload,framed)::split) ++ rest = framed ++ (bytes split ++ rest) := by
      simp [bytes]
    have segment := segment_sound visited log framed
    rw [here,consume_take _ _ rfl cut,Consumer.taken,take_left,drop_left,payloadHere,segment,if_neg Bool.noConfusion,ih later]
    simp only [tallyAll,foldl_cons,append_assoc,singleton_append]

theorem reached_sound (sound : Sound bep (0,0) split) (rest : Bytes) :
    reached bep (bytes split ++ rest) = consume (frames defaultMaxFrameBytes) (recorder bep)
      (counted (tallyAll bep (0,0) split).1 (tallyAll bep (0,0) split).2,((),split)) rest :=
  consume_sound sound ((),[]) rest

theorem visits_sound (bep : Bep δ V A D) (input : Bytes) : Sound bep (0,0) (visits bep input) := by
  rw [visits_reached]
  have whole := consume_invariant (frames defaultMaxFrameBytes) (recorder bep)
    (fun session _ => Sound bep (0,0) session.2.2 ∧ (session.1.isTerminal = false →
      session.1 = counted (tallyAll bep (0,0) session.2.2).1 (tallyAll bep (0,0) session.2.2).2)) ?_ ?_ ?_ (fresh ((),[])) input
    ⟨trivial,fun _ => rfl⟩
  · exact whole.1
  · intro session buffer error holds _
    exact ⟨holds.1,fun going => by cases going⟩
  · intro session buffer skip size holds active found stopped
    have segment := recorder_segment bep session active ((buffer.take size).drop skip) (buffer.take size)
    rw [if_pos stopped] at segment
    rw [segment]
    exact ⟨holds.1,fun going => by cases stopped.symm.trans going⟩
  intro session buffer skip size holds active found going
  obtain ⟨sound,between⟩ := holds
  obtain ⟨decoder,log⟩ := session
  have between := between active
  dsimp only at between sound
  subst between
  have visited := visited_of_going going
  obtain ⟨complete,small⟩ := complete_cut found
  rw [Consumer.taken,segment_sound visited]
  refine ⟨(sound_append bep _ _ _).mpr ⟨sound,complete,small,visited,trivial⟩,fun _ => ?_⟩
  simp only [tallyAll,foldl_append,foldl_cons,foldl_nil]

/-- The visits of a decoder do not depend on what it has recorded before. -/
theorem recorder_shift (bep : Bep δ V A D) (decoder : IncrementalStreamDecoder δ) (log : List (Bytes × Bytes)) (buffer : Bytes) :
    consume (frames defaultMaxFrameBytes) (recorder bep) (decoder,((),log)) buffer =
      let alone := consume (frames defaultMaxFrameBytes) (recorder bep) (decoder,((),[])) buffer
      ((alone.1.1,((),log ++ alone.1.2.2)),alone.2) := by
  obtain ⟨⟨decoders,logs⟩,rests⟩ := consume_simulates (frames defaultMaxFrameBytes) (recorder bep) (recorder bep)
    (fun s t _ => s.1 = t.1 ∧ s.2.2 = log ++ t.2.2) (fun s t _ related => congrArg (·.isTerminal) related.1)
    (fun s t _ error related _ =>
      ⟨congrArg (fun decoder => { decoder with terminalError := some error }) related.1,related.2⟩)
    (by
      rintro ⟨decoder,nothing,visited⟩ ⟨decoder',nothing',visited'⟩ buffer skip size ⟨same,logs⟩ active found
      change visited = log ++ visited' at logs
      subst same
      have both := decodeFrame_related (decode bep.decodeView) (recording (·.frameBytes) (attemptControl bep))
        (recording (·.frameBytes) (attemptControl bep)) decoder (nothing,visited) (nothing',visited')
        ((buffer.take size).drop skip) (buffer.take size) (fun left right => left.2 = log ++ right.2) active
        (fun event _ => ⟨rfl,by simp only [recording]; rw [logs,append_assoc]⟩)
      obtain ⟨decoders,states⟩ := both
      refine ⟨decoders,?_⟩
      split at states
      · exact (congrArg (·.2) states.1).trans (logs.trans (congrArg (log ++ ·.2) states.2.symm))
      · exact states)
    (decoder,((),log)) (decoder,((),[])) buffer ⟨rfl,(append_nil _).symm⟩
  exact Prod.ext (Prod.ext decoders (Prod.ext rfl logs)) rests

/-- From the end of an evicted attempt on, a stream is decoded as if it started there. -/
theorem reached_behind (sound : Sound bep (0,0) split) (ends : split = [] ∨ EndsEvicted bep split) (rest : Bytes) :
    reached bep (bytes split ++ rest) = (((reached bep rest).1.1,((),split ++ visits bep rest)),(reached bep rest).2) := by
  have fromZero : tallyAll bep (0,0) split = (0,0) := by
    rcases ends with rfl | ⟨front,last,rfl,evicted⟩
    · rfl
    · simp only [tallyAll,foldl_append,foldl_cons,foldl_nil,tally,evicted,if_true]
  rw [reached_sound sound rest,fromZero,recorder_shift,visits_reached]
  rfl

variable (bep)

/-! ### Agreement -/

/-- The same capture with an accumulator that only lists the frames it observes. -/
def listing (bep : Bep δ V A D) : Bep δ V (List Bytes) D :=
  { bep with newAccumulator := fun _ => [], observeBorrowed := fun observed event => observed ++ [event.frameBytes] }

/-- Nothing from before a retry is in the reported reduction: it has observed
some run of the visits from the retry on. -/
def OnlyRetained (bep : Bep δ V A D) (limits : Option (Nat × Nat)) (source : BepReductionSource) (chunks : List Bytes) : Prop :=
  ∀ observed outcome, liveReport (listing bep) limits source chunks = .ok (observed,outcome) →
    ∀ i, BeganRetry bep (visits bep chunks.flatten) i →
      ∃ p q, i ≤ p ∧ observed = (((visits bep chunks.flatten).drop p).take q).map (·.1)

/-- The last retry directly follows the end of the evicted attempt, or the
retried attempt was evicted as well and more was visited behind its end. -/
def Separated (bep : Bep δ V A D) (visits : List (Bytes × Bytes)) : Prop :=
  ∀ i, BeganRetry bep visits i → (∀ k, BeganRetry bep visits k → k ≤ i) →
    EvictedAt bep visits (i-1) ∨ ∃ k, i < k ∧ k+1 < visits.length ∧ EvictedAt bep visits k

theorem visits_decode (input : Bytes) : ∀ visit ∈ visits bep input, ∃ view, bep.decodeView visit.1 = .ok view :=
  sound_decodes (visits_sound bep input)

theorem Separated.cut {visits : List (Bytes × Bytes)} {i : Nat} (separated : Separated bep visits)
    (began : BeganRetry bep visits i) (last : ∀ k, BeganRetry bep visits k → k ≤ i) :
    ∃ k, i ≤ k+1 ∧ k+1 < visits.length ∧ EvictedAt bep visits k := by
  obtain ⟨⟨visit,at_i,_⟩,j,below,_⟩ := id began
  have inside := (List.getElem?_eq_some_iff.mp at_i).1
  rcases separated i began last with evicted | ⟨k,after,more,evicted⟩
  · exact ⟨i-1,by omega,by omega,evicted⟩
  · exact ⟨k,by omega,more,evicted⟩

/-- A stream may be cut behind the end of an evicted attempt, and also before an
attempt that ends evicted: its decoder has counted less there. -/
theorem decoded_from {input : Bytes} {dropped attempt : List (Bytes × Bytes)}
    (split : visits bep input = dropped ++ (attempt ++ after)) (ends : EndsEvicted bep (dropped ++ attempt)) :
    visits bep (input.drop (bytes dropped).length) = attempt ++ after ∧
      (decoded bep (input.drop (bytes dropped).length)).1 = (decoded bep input).1 := by
  have parts := split.trans (append_assoc _ _ _).symm
  have sound := visits_sound bep input
  rw [parts,sound_append] at sound
  have alone := ((sound_append bep _ _ _).mp sound.1).2
  obtain ⟨rest,whole⟩ : ∃ rest, bytes (dropped ++ attempt) ++ rest = input := ⟨_,dropped_bytes parts⟩
  have joined : bytes dropped ++ (bytes attempt ++ rest) = input := by simpa [bytes] using whole
  have live := reached_behind sound.1 (.inr ends) rest
  have cut := reached_behind (sound_mono ⟨Nat.zero_le _,Nat.zero_le _⟩ alone) ends.right rest
  rw [whole] at live
  have same := (visits_reached bep input).symm.trans parts
  rw [live] at same
  rw [decoded_reached,decoded_reached,live,← joined,drop_left,visits_reached,cut,← append_cancel_left same]
  exact ⟨rfl,rfl⟩

/-- When the attempts are separated, the evidence file is reduced to what was reported live. -/
theorem separated_report (input file : Bytes) (dropped kept : List (Bytes × Bytes))
    (split : visits bep input = dropped ++ kept) (cut : file = input.drop (bytes dropped).length)
    (above : ∀ i, BeganRetry bep (visits bep input) i → i ≤ dropped.length)
    (began : dropped = [] ∨ BeganRetry bep (visits bep input) dropped.length) (separated : Separated bep (visits bep input)) :
    report bep limits (visits bep file) (decoded bep file).1 = report bep limits (visits bep input) (decoded bep input).1 := by
  rcases began with rfl | began
  · rw [cut]
    rfl
  obtain ⟨k,above,more,evicted⟩ := separated.cut bep began above
  have ends := endsEvicted_take evicted
  have size := congrArg length split
  rw [length_append] at size
  rw [split,take_append,take_of_length_le above] at ends
  have whole := take_append_drop (k+1-dropped.length) kept
  have later : kept.drop (k+1-dropped.length) ≠ [] := by
    rw [Ne,drop_eq_nil_iff]
    omega
  have decodes (visit : Bytes × Bytes) (member : visit ∈ kept.drop (k+1-dropped.length)) : ∃ view, bep.decodeView visit.1 = .ok view :=
    visits_decode bep input visit (split ▸ mem_append_right _ (mem_of_mem_drop member))
  obtain ⟨same,outcomes⟩ := decoded_from bep (split.trans (congrArg (dropped ++ ·) whole.symm)) ends
  rw [cut,same,outcomes,report_behind bep limits ends.right later decodes,split]
  conv_rhs => rw [← whole,← append_assoc]
  rw [report_behind bep limits (.inr ends) later decodes]

theorem reduce_listing (visits : List (Bytes × Bytes)) (decodes : ∀ visit ∈ visits, ∃ view, bep.decodeView visit.1 = .ok view) :
    (reduce (listing bep) limits visits).accumulator = visits.map (·.1) := by
  induction visits using reverseRecOn with
  | nil => rfl
  | append_singleton visits last ih =>
    obtain ⟨view,viewed⟩ := decodes last (by simp)
    have viewed : (listing bep).decodeView last.1 = .ok view := viewed
    have before := ih fun visit member => decodes visit (by simp [member])
    rw [reduce_push,map_append,← before]
    simp only [observeFrame,viewed]
    rfl

variable {bep}

theorem started_not_evicted (started : startedFrame bep frame = true) : evictedFrame bep frame = false := by
  unfold startedFrame at started
  unfold evictedFrame
  cases viewed : bep.decodeView frame with
  | error error => rfl
  | ok view =>
    rw [viewed] at started
    have payload : bep.payload view = some .started := by simpa [isStarted] using started
    simp [isRemoteCacheEvicted,payload]

variable (bep)

theorem listed (some : visits bep chunks.flatten ≠ []) : ∃ p outcome, BlockStart bep (visits bep chunks.flatten) p ∧
      liveReport (listing bep) limits source chunks = .ok (((visits bep chunks.flatten).drop p).map (·.1),outcome) := by
  have decodes := visits_decode bep chunks.flatten
  have live := liveReport_eq (listing bep) limits source chunks
  change _ = Except.ok (report (listing bep) limits (visits bep chunks.flatten) (decoded bep chunks.flatten).1) at live
  obtain ⟨front,last,split⟩ := (eq_nil_or_concat' (visits bep chunks.flatten)).resolve_left some
  rw [split] at live decodes ⊢
  obtain ⟨p,block,reported⟩ := report_block (listing bep) limits front last (decodes last (by simp)) (decoded bep chunks.flatten).1
  have observed := reduce_listing bep limits ((front ++ [last]).drop p)
    fun visit member => decodes visit (List.mem_of_mem_drop member)
  rw [reported,observed] at live
  exact ⟨p,_,⟨block.inside,block.start,block.last⟩,live⟩

theorem separated_of_onlyRetained (only : OnlyRetained bep limits source chunks) : Separated bep (visits bep chunks.flatten) := by
  intro i began _
  obtain ⟨⟨visit,at_i,started⟩,j,below,_⟩ := id began
  have inside := (List.getElem?_eq_some_iff.mp at_i).1
  obtain ⟨p,outcome,block,live⟩ := listed bep limits source chunks (ne_nil_of_length_pos (by omega))
  obtain ⟨start,size,above,same⟩ := only _ _ live i began
  have lengths := congrArg length same
  simp only [length_map,length_drop,length_take] at lengths
  have blockInside := block.inside
  have evicted := block.start.resolve_left (by omega)
  rcases Nat.lt_trichotomy (p-1) i with before | same | later
  · left
    have exactly : p-1 = i-1 := by omega
    rw [← exactly]
    exact evicted
  · obtain ⟨other,at_p,isEvicted⟩ := evicted
    rw [same,at_i] at at_p
    cases at_p
    rw [started_not_evicted started] at isEvicted
    cases isEvicted
  · exact .inr ⟨p-1,later,by omega,evicted⟩

theorem onlyRetained_of_separated (separated : Separated bep (visits bep chunks.flatten)) : OnlyRetained bep limits source chunks := by
  intro observed outcome live i began
  obtain ⟨dropped,_,above,last⟩ := attempt_kept bep limits (visits bep chunks.flatten)
  have below := above i began
  obtain ⟨⟨visit,at_i,_⟩,j,positive,_⟩ := began
  have someDropped : dropped ≠ [] := ne_nil_of_length_pos (by omega)
  have last := last.resolve_left someDropped
  obtain ⟨⟨visit,at_last,_⟩,_⟩ := id last
  have inside := (List.getElem?_eq_some_iff.mp at_last).1
  obtain ⟨p,outcome',block,listedLive⟩ := listed bep limits source chunks (ne_nil_of_length_pos (by omega))
  rw [listedLive] at live
  cases live
  refine ⟨p,(visits bep chunks.flatten).length,?_,?_⟩
  · obtain ⟨k,after,more,evicted⟩ := separated.cut bep last above
    have := block.last k evicted more
    omega
  · rw [take_of_length_le (by rw [length_drop]; omega)]

/-- The reduction of the retained evidence is the live one, and the live one
holds nothing from before the last retry, exactly when the attempts are
separated. Any way of cutting the stream and of reading the file will do. -/
theorem replay_agrees_iff (bep : Bep δ V A D) (limits : Option (Nat × Nat)) (source : BepReductionSource)
    (chunks reads : List Bytes) (read : reads.flatten = evidence bep limits source chunks) :
    (reduceBepFile bep limits (some reads) = liveReport bep limits source chunks ∧ OnlyRetained bep limits source chunks) ↔
      Separated bep (visits bep chunks.flatten) := by
  constructor
  · rintro ⟨_,only⟩
    exact separated_of_onlyRetained bep limits source chunks only
  intro separated
  refine ⟨?_,onlyRetained_of_separated bep limits source chunks separated⟩
  obtain ⟨dropped,split,above,began⟩ := attempt_kept bep limits (visits bep chunks.flatten)
  have cut : reads.flatten = chunks.flatten.drop (bytes dropped).length := by
    have whole := dropped_bytes split
    rw [← evidence_eq bep limits source chunks,← read] at whole
    rw [← whole,drop_left]
  rw [reduceBepFile_eq,liveReport_eq,
    separated_report bep limits chunks.flatten reads.flatten dropped _ split cut above began separated]

/-- Frames of one byte: 1 is a Started event, 39 and 0 are Finished events with that exit code. -/
def byteEvents : Bep Unit Bytes (List Bytes) Unit where
  decodeView := .ok
  payload
    | [1] => some .started
    | [39] => some (.finished (some 39))
    | [0] => some (.finished (some 0))
    | _ => some .other
  newAccumulator _ := []
  observeBorrowed observed event := observed ++ [event.frameBytes]
  digest _ := ()

/-- A progress event stands between the end of the evicted attempt and the
retry: it is reported live as a part of the retry, and the file does not have it. -/
theorem tail_of_evicted_attempt_reported :
    liveReport byteEvents none .fifo [[1,1,1,39,1,7,1,1,1,0]] = .ok ([[7],[1],[0]],⟨3,3,none⟩) ∧
      evidence byteEvents none .fifo [[1,1,1,39,1,7,1,1,1,0]] = [1,1,1,0] ∧
      reduceBepFile byteEvents none (some [[1,1,1,0]]) = .ok ([[1],[0]],⟨2,2,none⟩) :=
  ⟨rfl,rfl,rfl⟩

theorem separated_attempts_agree :
    reduceBepFile byteEvents none (some [[1,1],[1,0]]) = liveReport byteEvents none .fifo [[1,1,1],[39,1,1,1,0]] ∧
      OnlyRetained byteEvents none .fifo [[1,1,1],[39,1,1,1,0]] := by
  refine (replay_agrees_iff byteEvents none .fifo [[1,1,1],[39,1,1,1,0]] [[1,1],[1,0]] rfl).mpr ?_
  intro i began _
  obtain ⟨⟨visit,at_i,started⟩,j,below,_⟩ := began
  have visited : visits byteEvents [[1,1,1],[39,1,1,1,0]].flatten = [([1],[1,1]),([39],[1,39]),([1],[1,1]),([0],[1,0])] := rfl
  rw [visited] at at_i ⊢
  match i, at_i with
  | 0, _ => exact absurd below (Nat.not_lt_zero j)
  | 1, at_i =>
    cases at_i
    cases started
  | 2, _ => exact .inl ⟨_,rfl,rfl⟩
  | 3, at_i =>
    cases at_i
    cases started

end BazelMcp.Capture.CapturePipeline

import Mathlib.Data.List.Basic

/-! Streams that are cut into segments. A cutter looks at the bytes from the
start of a segment on and asks for more of them, gives up, or says where the
segment ends; a verdict other than asking for more never changes when more
bytes arrive. A consumer takes the segments one by one and may stop at any of
them. What the consumer has seen then depends on the whole stream only, and not
on the pieces in which the stream arrives. -/
namespace BazelMcp.Segments
open List

inductive Cut (ε : Type) where
  | more
  | fail (error : ε)
  | take (skip size : Nat)

structure Cutter (α ε : Type) where
  cut : List α → Cut ε
  take_pos {input : List α} {skip size : Nat} : cut input = .take skip size → 0 < size
  take_le {input : List α} {skip size : Nat} : cut input = .take skip size → size ≤ input.length
  take_append {input : List α} {skip size : Nat} (rest : List α) :
    cut input = .take skip size → cut (input ++ rest) = .take skip size
  fail_append {input : List α} {error : ε} (rest : List α) :
    cut input = .fail error → cut (input ++ rest) = .fail error

/-- `segment` is given the segment without and with the bytes that announce it. -/
structure Consumer (α ε σ : Type) where
  segment : σ → List α → List α → σ
  failed : σ → ε → σ
  stopped : σ → Bool
  failed_stopped (state : σ) (error : ε) : stopped (failed state error) = true

variable {α ε σ : Type}

/-- The consumer's state after a buffer, and the bytes from the first segment
it did not accept on. -/
def consume (cutter : Cutter α ε) (consumer : Consumer α ε σ) (state : σ) (buffer : List α) : σ × List α :=
  if consumer.stopped state then (state,buffer) else
    match _found : cutter.cut buffer with
    | .more => (state,buffer)
    | .fail error => (consumer.failed state error,buffer)
    | .take skip size =>
      let next := consumer.segment state ((buffer.take size).drop skip) (buffer.take size)
      if consumer.stopped next then (next,buffer) else consume cutter consumer next (buffer.drop size)
termination_by buffer.length
decreasing_by
  have pos := cutter.take_pos _found
  have le := cutter.take_le _found
  simp only [List.length_drop]
  omega

/-- The state after the segment a cutter has found. -/
abbrev Consumer.taken (consumer : Consumer α ε σ) (state : σ) (buffer : List α) (skip size : Nat) : σ :=
  consumer.segment state ((buffer.take size).drop skip) (buffer.take size)

section Consume

variable (cutter : Cutter α ε) (consumer : Consumer α ε σ)

variable {state : σ} {buffer : List α}

theorem consume_stopped (stopped : consumer.stopped state = true) (buffer : List α) :
    consume cutter consumer state buffer = (state,buffer) := by
  rw [consume,if_pos stopped]

theorem consume_more (state : σ) (found : cutter.cut buffer = .more) : consume cutter consumer state buffer = (state,buffer) := by
  rw [consume]
  split
  · rfl
  · split <;> simp_all

theorem consume_fail (active : consumer.stopped state = false) {error : ε} (found : cutter.cut buffer = .fail error) :
    consume cutter consumer state buffer = (consumer.failed state error,buffer) := by
  rw [consume,if_neg (by simp [active])]
  split <;> simp_all

theorem consume_take (active : consumer.stopped state = false) {skip size : Nat}
    (found : cutter.cut buffer = .take skip size) : consume cutter consumer state buffer =
      if consumer.stopped (consumer.taken state buffer skip size) then (consumer.taken state buffer skip size,buffer)
      else consume cutter consumer (consumer.taken state buffer skip size) (buffer.drop size) := by
  rw [consume,if_neg (by simp [active])]
  split <;> simp_all

theorem consume_waits (state : σ) (buffer : List α) (active : consumer.stopped (consume cutter consumer state buffer).1 = false) :
    cutter.cut (consume cutter consumer state buffer).2 = .more := by
  induction state, buffer using consume.induct cutter consumer with
  | case1 state buffer stopped =>
    rw [consume_stopped cutter consumer stopped] at active
    simp [stopped] at active
  | case2 state buffer going found =>
    rw [consume_more cutter consumer state found]
    exact found
  | case3 state buffer going error found =>
    rw [consume_fail cutter consumer (by simpa using going) found] at active
    simp [consumer.failed_stopped] at active
  | case4 state buffer going skip size found next stopped =>
    rw [consume_take cutter consumer (by simpa using going) found,if_pos stopped] at active
    exact absurd stopped (by simpa using active)
  | case5 state buffer going skip size found next unstopped ih =>
    rw [consume_take cutter consumer (by simpa using going) found,if_neg unstopped] at active ⊢
    exact ih active

theorem taken_append {skip size : Nat} (state : σ) (rest : List α) (inside : size ≤ buffer.length) :
    consumer.taken state (buffer ++ rest) skip size = consumer.taken state buffer skip size := by
  rw [Consumer.taken,take_append_of_le_length inside]

/-- A stream may be handed over in two parts: the bytes left over from the first
one are put in front of the second. -/
theorem consume_append (state : σ) (buffer rest : List α) : consume cutter consumer state (buffer ++ rest) =
      consume cutter consumer (consume cutter consumer state buffer).1 ((consume cutter consumer state buffer).2 ++ rest) := by
  induction state, buffer using consume.induct cutter consumer with
  | case1 state buffer stopped => rw [consume_stopped cutter consumer stopped buffer]
  | case2 state buffer active found => rw [consume_more cutter consumer state found]
  | case3 state buffer active error found =>
    have active : consumer.stopped state = false := by simpa using active
    rw [consume_fail cutter consumer active found,consume_fail cutter consumer active (cutter.fail_append rest found),
      consume_stopped cutter consumer (consumer.failed_stopped state error)]
  | case4 state buffer active skip size found next stopped =>
    have active : consumer.stopped state = false := by simpa using active
    rw [consume_take cutter consumer active found,consume_take cutter consumer active (cutter.take_append rest found),
      taken_append consumer state rest (cutter.take_le found),if_pos stopped,if_pos stopped,consume_stopped cutter consumer stopped]
  | case5 state buffer active skip size found next going ih =>
    have active : consumer.stopped state = false := by simpa using active
    rw [consume_take cutter consumer active found,consume_take cutter consumer active (cutter.take_append rest found),
      taken_append consumer state rest (cutter.take_le found),drop_append_of_le_length (cutter.take_le found),
      if_neg going,if_neg going]
    exact ih

end Consume

/-! ### Two consumers of one stream -/

/-- A relation between the states of two consumers and the bytes still to be
consumed carries over to the end of a stream if every segment keeps it. -/
theorem consume_simulates {τ : Type} (cutter : Cutter α ε) (left : Consumer α ε σ) (right : Consumer α ε τ)
    (rel : σ → τ → List α → Prop) (agree : ∀ s t buffer, rel s t buffer → left.stopped s = right.stopped t)
    (fail : ∀ s t buffer error, rel s t buffer → cutter.cut buffer = .fail error →
      rel (left.failed s error) (right.failed t error) buffer)
    (step : ∀ s t buffer skip size, rel s t buffer → left.stopped s = false → cutter.cut buffer = .take skip size →
      rel (left.taken s buffer skip size) (right.taken t buffer skip size)
        (if left.stopped (left.taken s buffer skip size) then buffer else buffer.drop size))
    (s : σ) (t : τ) (buffer : List α) (related : rel s t buffer) :
    rel (consume cutter left s buffer).1 (consume cutter right t buffer).1 (consume cutter left s buffer).2 ∧
      (consume cutter left s buffer).2 = (consume cutter right t buffer).2 := by
  induction s, buffer using consume.induct cutter left generalizing t with
  | case1 s buffer stopped =>
    rw [consume_stopped cutter left stopped,consume_stopped cutter right ((agree s t buffer related).symm.trans stopped)]
    exact ⟨related,rfl⟩
  | case2 s buffer active found =>
    rw [consume_more cutter left s found,consume_more cutter right t found]
    exact ⟨related,rfl⟩
  | case3 s buffer active error found =>
    have active : left.stopped s = false := by simpa using active
    rw [consume_fail cutter left active found,consume_fail cutter right ((agree s t buffer related).symm.trans active) found]
    exact ⟨fail s t buffer error related found,rfl⟩
  | case4 s buffer active skip size found next stopped =>
    have active : left.stopped s = false := by simpa using active
    have after := step s t buffer skip size related active found
    rw [if_pos stopped] at after
    rw [consume_take cutter left active found,if_pos stopped,
      consume_take cutter right ((agree s t buffer related).symm.trans active) found,
      if_pos ((agree _ _ _ after).symm.trans stopped)]
    exact ⟨after,rfl⟩
  | case5 s buffer active skip size found next going ih =>
    have active : left.stopped s = false := by simpa using active
    have after := step s t buffer skip size related active found
    rw [if_neg going] at after
    have goes : ¬ right.stopped (right.taken t buffer skip size) = true := by
      rw [← agree _ _ _ after]
      exact going
    rw [consume_take cutter left active found,if_neg going,
      consume_take cutter right ((agree s t buffer related).symm.trans active) found,if_neg goes]
    exact ih _ after

/-- An invariant of the state and the bytes still to be consumed: it is kept
when a segment is taken off, and when the consumer stops in front of one. -/
theorem consume_invariant (cutter : Cutter α ε) (consumer : Consumer α ε σ) (inv : σ → List α → Prop)
    (fail : ∀ state buffer error, inv state buffer → cutter.cut buffer = .fail error → inv (consumer.failed state error) buffer)
    (stop : ∀ state buffer skip size, inv state buffer → consumer.stopped state = false →
      cutter.cut buffer = .take skip size → consumer.stopped (consumer.taken state buffer skip size) = true →
      inv (consumer.taken state buffer skip size) buffer)
    (step : ∀ state buffer skip size, inv state buffer → consumer.stopped state = false →
      cutter.cut buffer = .take skip size → consumer.stopped (consumer.taken state buffer skip size) = false →
      inv (consumer.taken state buffer skip size) (buffer.drop size)) (state : σ) (buffer : List α) (holds : inv state buffer) :
    inv (consume cutter consumer state buffer).1 (consume cutter consumer state buffer).2 := by
  refine (consume_simulates cutter consumer consumer (fun s t buffer => s = t ∧ inv s buffer) ?_ ?_ ?_ state state buffer
    ⟨rfl,holds⟩).1.2
  · rintro s t buffer ⟨rfl,_⟩
    rfl
  · rintro s t buffer error ⟨rfl,holds⟩ found
    exact ⟨rfl,fail s buffer error holds found⟩
  · rintro s t buffer skip size ⟨rfl,holds⟩ active found
    refine ⟨rfl,?_⟩
    split
    · rename_i stopped
      exact stop s buffer skip size holds active found stopped
    · rename_i going
      exact step s buffer skip size holds active found (by simpa using going)

/-- The bytes of some segments, with what announces them. -/
def bytes (segments : List (List α × List α)) : List α := (segments.map (·.2)).flatten

end BazelMcp.Segments

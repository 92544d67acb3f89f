import BazelMcp.Tasks

/-! A task that runs alone: whatever its calls are answered, the states it ends in are as
described. The rules follow the program. -/
namespace BazelMcp.Solo
open Tasks

variable {Act : Type} {Answer : Act → Type} {σ ι α β : Type}

/-- If the program ends, it does so with a value and a state as described. -/
def Ensures (answers : (act : Act) → σ → List (Answer act × σ)) : Program Act Answer α → (α → σ → Prop) → σ → Prop
  | .done value,post,state => post value state
  | .call act next,post,state => ∀ answer after, (answer,after) ∈ answers act state → Ensures answers (next answer) post after

section Rules
variable {answers : (act : Act) → σ → List (Answer act × σ)} {state : σ}

variable {post : α → σ → Prop} {program : Program Act Answer α}

@[simp] theorem ensures_pure {value : α} : Ensures answers (pure value) post state ↔ post value state := Iff.rfl

@[simp] theorem ensures_perform {act : Act} {post : Answer act → σ → Prop} :
    Ensures answers (perform act) post state ↔ ∀ answer after, (answer,after) ∈ answers act state → post answer after := Iff.rfl

theorem Ensures.weaken {weaker : α → σ → Prop} (ensures : Ensures answers program post state)
    (implies : ∀ value after, post value after → weaker value after) : Ensures answers program weaker state := by
  induction program generalizing state with
  | done value => exact implies value state ensures
  | call act next ih =>
    intro answer after possible
    exact ih answer (ensures answer after possible)

theorem ensures_any (holds : ∀ value after, post value after) : Ensures answers program post state := by
  induction program generalizing state with
  | done value => exact holds value state
  | call act next ih =>
    intro answer after _
    exact ih answer

theorem ensures_bind {first : Program Act Answer α} {next : α → Program Act Answer β} {post : β → σ → Prop} :
    Ensures answers (first >>= next) post state ↔
      Ensures answers first (fun value after => Ensures answers (next value) post after) state := by
  induction first generalizing state with
  | done value => rfl
  | call act rest ih =>
    constructor
    · intro ensures answer after possible
      exact (ih answer).mp (ensures answer after possible)
    · intro ensures answer after possible
      exact (ih answer).mpr (ensures answer after possible)

theorem ensures_all {κ : Type} {post : κ → α → σ → Prop} (ensures : ∀ which, Ensures answers program (post which) state) :
    Ensures answers program (fun value after => ∀ which, post which value after) state := by
  induction program generalizing state with
  | done value => exact ensures
  | call act next ih =>
    intro answer after possible
    exact ih answer fun which => ensures which answer after possible

theorem Ensures.both {first second : α → σ → Prop} (left : Ensures answers program first state)
    (right : Ensures answers program second state) :
    Ensures answers program (fun value after => first value after ∧ second value after) state := by
  induction program generalizing state with
  | done value => exact ⟨left,right⟩
  | call act next ih =>
    intro answer after possible
    exact ih answer (left answer after possible) (right answer after possible)

theorem ensures_uses {kind : Act → Prop} {invariant : σ → Prop}
    (kept : ∀ act state answer after, kind act → invariant state → (answer,after) ∈ answers act state → invariant after)
    (uses : program.Uses kind) (holds : invariant state) : Ensures answers program (fun _ => invariant) state := by
  induction program generalizing state with
  | done value => exact holds
  | call act next ih =>
    intro answer after possible
    exact ih answer (uses.2 answer) (kept act state answer after uses.1 holds possible)

end Rules

section System
variable [DecidableEq ι] {effect : ι → (act : Act) → σ → List (Answer act × σ)}
variable {permit : ι → (act : Act) → σ → Answer act → σ → Bool} {config later : Config Act Answer σ ι} {task : ι}

/-- In a system of one task the task runs alone. -/
theorem reach_ensures {post : Unit → σ → Prop} (alone : ∀ other, other = task)
    (ensures : Ensures (effect task) (config.tasks task) post config.state) (reached : Reach effect permit config later) :
    Ensures (effect task) (later.tasks task) post later.state := by
  induction reached with
  | refl => exact ensures
  | @tail before _ _ step ih =>
    cases step with
    | @mk other act next answer after pending possible permitted =>
      have same := alone other
      subst same
      rw [pending] at ih
      change Ensures (effect other) (Function.update before.tasks other (next answer) other) post after
      rw [Function.update_self]
      exact ih answer after possible

end System
end BazelMcp.Solo

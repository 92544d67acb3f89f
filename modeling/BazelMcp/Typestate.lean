import BazelMcp.Tasks

/-! Programs that keep a discipline. A phase says how far a task has got; each call
must be allowed in the phase it is made in, and its answer moves the phase on. What
the tasks of a system keep is then proved over phases and the shared state alone. -/
namespace BazelMcp.Typestate
open Tasks Function

structure Discipline (Act : Type) (Answer : Act → Type) (Φ : Type) where
  allowed : Φ → Act → Prop
  advance : Φ → (act : Act) → Answer act → Φ

variable {Act : Type} {Answer : Act → Type} {Φ σ ι α β : Type} (rules : Discipline Act Answer Φ)

/-- Whatever it is answered, the program makes allowed calls only and ends as stated. -/
def Follows : Program Act Answer α → Φ → (α → Φ → Prop) → Prop
  | .done value, phase, post => post value phase
  | .call act next, phase, post =>
    rules.allowed phase act ∧ ∀ answer, Follows (next answer) (rules.advance phase act answer) post

variable {rules}

theorem Follows.weaken {program : Program Act Answer α} {phase : Φ} {post weaker : α → Φ → Prop}
    (follows : Follows rules program phase post) (implies : ∀ value phase, post value phase → weaker value phase) :
    Follows rules program phase weaker := by
  induction program generalizing phase with
  | done value => exact implies value phase follows
  | call act next ih => exact ⟨follows.1,fun answer => ih answer (follows.2 answer)⟩

theorem follows_bind {first : Program Act Answer α} {next : α → Program Act Answer β} {phase : Φ} {post : β → Φ → Prop} :
    Follows rules (first >>= next) phase post ↔
      Follows rules first phase fun value after => Follows rules (next value) after post := by
  induction first generalizing phase with
  | done value => exact Iff.rfl
  | call act rest ih =>
    apply and_congr_right
    intro _
    apply forall_congr'
    intro answer
    exact ih answer

@[simp] theorem follows_pure {value : α} {phase : Φ} {post : α → Φ → Prop} :
    Follows rules (pure value) phase post ↔ post value phase := Iff.rfl

@[simp] theorem follows_perform {act : Act} {phase : Φ} {post : Answer act → Φ → Prop} :
    Follows rules (perform act) phase post ↔
      rules.allowed phase act ∧ ∀ answer, post answer (rules.advance phase act answer) := Iff.rfl

theorem follows_uses {kind : Act → Prop} {program : Program Act Answer α} (allowed : ∀ phase act, kind act → rules.allowed phase act)
    (uses : program.Uses kind) (phase : Φ) : Follows rules program phase fun _ _ => True := by
  induction program generalizing phase with
  | done value => trivial
  | call act next ih => exact ⟨allowed phase act uses.1,fun answer => ih answer (uses.2 answer) _⟩

section System
variable [DecidableEq ι] {effect : ι → (act : Act) → σ → List (Answer act × σ)}
variable {permit : ι → (act : Act) → σ → Answer act → σ → Bool}

/-- What one allowed call keeps, every run keeps, and in every configuration each
task still follows the discipline from its phase. -/
theorem reach {start config : Config Act Answer σ ι} {phases : ι → Φ} {finished : Φ → Prop} {invariant : (ι → Φ) → σ → Prop}
    (kept : ∀ phases state task act answer after, invariant phases state → rules.allowed (phases task) act →
      Own effect permit task act state answer after →
      invariant (update phases task (rules.advance (phases task) act answer)) after)
    (follows : ∀ task, Follows rules (start.tasks task) (phases task) fun _ => finished)
    (initial : invariant phases start.state) (reached : Reach effect permit start config) :
    ∃ phases, (∀ task, Follows rules (config.tasks task) (phases task) fun _ => finished) ∧ invariant phases config.state := by
  induction reached with
  | refl => exact ⟨phases,follows,initial⟩
  | @tail before _ _ step ih =>
    obtain ⟨phases,follows,holds⟩ := ih
    cases step with
    | @mk task act next answer after pending possible permitted =>
      have own := follows task
      rw [pending] at own
      refine ⟨_,?_,kept phases before.state task act answer after holds own.1 ⟨possible,permitted⟩⟩
      intro other
      change Follows rules (update before.tasks task (next answer) other) _ _
      by_cases same : other = task
      · subst other
        rw [update_self,update_self]
        exact own.2 answer
      · rw [update_of_ne same,update_of_ne same]
        exact follows other

theorem step_allowed {config next : Config Act Answer σ ι} {phases : ι → Φ} {finished : Φ → Prop}
    (follows : ∀ task, Follows rules (config.tasks task) (phases task) fun _ => finished) (step : Step effect permit config next) :
    ∃ task act answer, rules.allowed (phases task) act ∧ Own effect permit task act config.state answer next.state := by
  cases step with
  | @mk task act rest answer after pending possible permitted =>
    have own := follows task
    rw [pending] at own
    exact ⟨task,act,answer,own.1,possible,permitted⟩

end System
end BazelMcp.Typestate

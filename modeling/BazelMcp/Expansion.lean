import BazelMcp.Typestate

/-! Programs over coarse calls, read as programs over finer ones: every call is
spelled out as a small program of its own. A discipline that each spelling keeps
is kept by the whole program. -/
namespace BazelMcp.Tasks
open Typestate

variable {Act Fine : Type} {Answer : Act → Type} {Reply : Fine → Type} {Φ α β : Type}

def Program.expand (spell : (act : Act) → Program Fine Reply (Answer act)) : Program Act Answer α → Program Fine Reply α
  | .done value => .done value
  | .call act next => (spell act).bind fun answer => (next answer).expand spell

section Laws
variable {spell : (act : Act) → Program Fine Reply (Answer act)}

theorem bind_assoc {γ : Type} (first : Program Act Answer α) (next : α → Program Act Answer β) (last : β → Program Act Answer γ) :
    (first.bind next).bind last = first.bind fun value => (next value).bind last := by
  induction first with
  | done value => rfl
  | call act rest ih => exact congrArg (Program.call act) (funext ih)

theorem expand_bind (first : Program Act Answer α) (next : α → Program Act Answer β) :
    (first >>= next).expand spell = first.expand spell >>= fun value => (next value).expand spell := by
  change (first.bind next).expand spell = (first.expand spell).bind fun value => (next value).expand spell
  induction first with
  | done value => rfl
  | call act rest ih =>
    change (spell act).bind (fun answer => ((rest answer).bind next).expand spell) = ((spell act).bind _).bind _
    rw [bind_assoc,funext ih]

theorem follows_expand {rules : Discipline Fine Reply Φ} {resting : Φ → Prop} {kind : Act → Prop}
    (spelled : ∀ act phase, kind act → resting phase → Follows rules (spell act) phase fun _ => resting)
    {program : Program Act Answer α} (uses : program.Uses kind) {phase : Φ} (rests : resting phase) :
    Follows rules (program.expand spell) phase fun _ => resting := by
  induction program generalizing phase with
  | done value => exact rests
  | call act next ih =>
    apply follows_bind.mpr
    apply (spelled act phase uses.1 rests).weaken
    intro answer after rests
    exact ih answer (uses.2 answer) rests

end Laws
end BazelMcp.Tasks

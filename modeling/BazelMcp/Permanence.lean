import BazelMcp.RetentionSafety

/-! What stays of an invocation over whole runs. Until it is deleted, an ended invocation reads the
same to everybody; once it is deleted, nobody can write it again, whatever waits for its lock. -/
namespace BazelMcp.Store
open StoreIndex Tasks Typestate

variable {ι π : Type} [DecidableEq ι] [DecidableEq π] {home : ι → π}

section Steps
variable {phases : ι → Phase π} {task : ι} {world after : World ι π} {act : Act π} {answer : Answer act} {id : Uuid}
  {initial : Uuid → Option DurableRecord} (guarded : Guarded home initial phases world) (alive : world.alive (home task) = true)
  (allowed : (phases task).Allowed act) (outcome : Outcome home task world act answer after)
include guarded alive allowed outcome

/-- A writer has read what it replaces, or has drawn the identifier and not used it yet. -/
theorem unwritten_step (gone : Gone home phases world id) :
    after.writes.filter (·.id = id) = world.writes.filter (·.id = id) := by
  have absent : world.manifest id = none := gone.2.1
  cases outcome with
  | @writes key read written cause _ _ =>
    refine List.filter_cons_of_neg ?_
    rw [decide_eq_true_iff]
    rintro rfl
    have known := (guarded.known alive allowed.1).symm.trans absent
    subst known
    exact gone.2.2 task allowed.2.1.1
  | trashes _ _ present | removes present =>
    refine List.filter_cons_of_neg ?_
    rw [decide_eq_true_iff]
    rintro rfl
    exact present absent
  | quiet _ unmoved | lists _ unmoved => rw [unmoved.writes]
  | aside beside => rw [beside.undisturbed.writes]
  | _ => rfl

/-- While the manifest is there, the details of an ended invocation are left alone. -/
theorem settled_step {ending : Ending} {details : Option InvocationDetails}
    (lasting : Lockfiles.Lasting (fun durable => durable.ended = true ∧ durable.ending = ending)
      (fun task => seat (phases task)) (shelf home world) id)
    (kept : world.manifest id = none ∨ world.details id = details) : after.manifest id = none ∨ after.details id = details := by
  rcases lasting with ⟨durable,present,ended,_⟩ | gone
  · have present : world.manifest id = some durable := present
    have same := kept.resolve_left (by simp [present])
    by_cases changed : after.details id = world.details id
    · exact .inr (changed.trans same)
    · refine .inl ((details_step outcome allowed guarded alive present changed).resolve_right ?_)
      simp [ended]
  · exact .inl (gone_step guarded alive allowed outcome gone).2.1

end Steps

variable [Fintype π]

end BazelMcp.Store

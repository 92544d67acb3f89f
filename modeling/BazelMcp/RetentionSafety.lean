import BazelMcp.OrphanRecovery

/-! What may take a manifest away: retention, once the invocation has ended and nothing is
promised any more, and the creation itself, if it fails. -/
namespace BazelMcp.Store
open StoreIndex Tasks Typestate Function

variable {ι π : Type}

/-- The time was shown by the clock of the world before. -/
def World.Shown (world : World ι π) (nowMs : Int) : Prop :=
  ∃ moment, moment < world.moment ∧ (world.outside moment).unixTimestampMs = nowMs

/-- Tasks draw what they were asked to create, tell what they did last, and know the time from the clock. -/
structure Attributed (operations : ι → Operation) (phases : ι → Phase π) (world : World ι π) : Prop where
  due : ∀ task, (phases task).due = ((operations task).start : Phase π).due
  born : ∀ task id, (phases task).born = some id → (phases task).due = some id
  clock : ∀ task nowMs, (phases task).clock = some nowMs → world.Shown nowMs
  responded : ∀ task, world.responses task ≠ none → (phases task).responded = true

theorem due_create {operation : Operation} {id : Uuid} (due : (operation.start : Phase π).due = some id) :
    ∃ queued deferred, operation = .create queued deferred ∧ queued.id = id := by
  cases operation with
  | create queued deferred => exact ⟨queued,deferred,rfl,Option.some.inj due⟩
  | _ => cases due

section Steps
variable [DecidableEq ι] [DecidableEq π] {home : ι → π} {operations : ι → Operation} {phases : ι → Phase π} {task : ι}
variable {world after : World ι π} {act : Act π} {answer : Answer act} {initial : Uuid → Option DurableRecord}

variable (outcome : Outcome home task world act answer after)
include outcome

theorem shown_step {nowMs : Int} (shown : world.Shown nowMs) : after.Shown nowMs := by
  obtain ⟨moment,past,same⟩ := shown
  obtain ⟨outside,later⟩ := outcome.outside
  exact ⟨moment,Nat.lt_of_lt_of_le past later,outside ▸ same⟩

variable (allowed : (phases task).Allowed act)
include allowed

theorem attributed_step (attributed : Attributed operations phases world) :
    Attributed operations (Function.update phases task ((phases task).advance act answer)) after := by
  have due (other : ι) : (Function.update phases task ((phases task).advance act answer) other).due = (phases other).due := by
    by_cases same : other = task
    · subst same
      rw [update_self]
      exact outcome.due _
    · rw [update_of_ne same]
  refine ⟨fun other => (due other).trans (attributed.due other),?_,?_,?_⟩
  · intro other id isBorn
    rw [due]
    by_cases same : other = task
    · subst same
      rw [update_self] at isBorn
      rcases outcome.drawn (phases other) with ⟨_,_,born,_⟩ | ⟨fresh,isAct,_,_,_,_,born⟩
      · exact attributed.born other id (born ▸ isBorn)
      subst isAct
      rw [born] at isBorn
      cases isBorn
      exact allowed.2.2.2.2.2.2
    · rw [update_of_ne same] at isBorn
      exact attributed.born other id isBorn
  · intro other nowMs told
    by_cases same : other = task
    · subst same
      rw [update_self] at told
      rcases outcome.clock told with old | ⟨isNow,isAfter⟩
      · exact shown_step outcome (attributed.clock other nowMs old)
      · subst isAfter isNow
        exact ⟨world.moment,Nat.lt_succ_self _,rfl⟩
    · rw [update_of_ne same] at told
      exact shown_step outcome (attributed.clock other nowMs told)
  · intro other told
    have surveyed := surveying allowed outcome
    generalize (phases task).advance act answer = phase at surveyed
    generalize isSurvey : survey phase = found at surveyed
    -- Only an answer sets what is recorded, and then it is told.
    have kept (before : world.responses other ≠ none) (responded : found.responded = (phases task).responded) :
        (Function.update phases task phase other).responded = true := by
      by_cases same : other = task
      · subst same
        rw [update_self,show phase.responded = found.responded from congrArg Survey.responded isSurvey,responded]
        exact attributed.responded other before
      · rw [update_of_ne same]
        exact attributed.responded other before
    cases surveyed with
    | still scans responses | settles scans responses ended => exact kept (responses ▸ told) rfl
    | skips may held | looks unanswered unlooked known => exact kept told rfl
    | @answers succeeded accounted =>
      change Function.update world.responses task (some succeeded) other ≠ none at told
      by_cases same : other = task
      · subst same
        rw [update_self]
        exact congrArg Survey.responded isSurvey
      · rw [update_of_ne same] at told ⊢
        exact attributed.responded other told

variable (guarded : Guarded home initial phases world) (alive : world.alive (home task) = true) {id : Uuid} {durable : DurableRecord}
include guarded alive

/-- What retention trashes has ended and promises nothing at a time that the clock has shown. -/
theorem trashed_step (attributed : Attributed operations phases world) {read : Option DurableRecord} {nowMs : Int} (grown : after.writes = ⟨id,read,none,.retention nowMs⟩::world.writes) :
    ∃ durable, world.manifest id = some durable ∧ durable.ended = true ∧ durable.Unprotected nowMs ∧ world.Shown nowMs := by
  have longer (same : after.writes = world.writes) : False := by
    rw [same] at grown
    exact absurd (congrArg List.length grown) (by simp)
  cases outcome with
  | trashes read moment present =>
    obtain ⟨isWrite,_⟩ := List.cons.inj grown
    cases isWrite
    obtain ⟨knows,_,isNow,ended,unprotected⟩ := allowed
    exact ⟨read,guarded.known alive knows,ended,unprotected,attributed.clock task nowMs isNow⟩
  | writes written cause bytes present | removes present =>
    obtain ⟨isWrite,_⟩ := List.cons.inj grown
    cases isWrite
  | quiet still unmoved | lists all unmoved => exact (longer unmoved.writes).elim
  | aside beside => exact (longer beside.undisturbed.writes).elim
  | _ => exact (longer rfl).elim

variable (present : world.manifest id = some durable)
include present

theorem removed_step (attributed : Attributed operations phases world) (absent : after.manifest id = none) :
    (∃ nowMs, after.writes = ⟨id,some durable,none,.retention nowMs⟩::world.writes) ∨
    ∃ creation queued deferred, operations creation = .create queued deferred ∧ queued.id = id ∧ world.responses creation = none := by
  have changed (same : after.manifest id = world.manifest id) : False := by
    rw [absent,present] at same
    cases same
  rcases outcome.manifests with same | ⟨key,read,written,cause,_,isAfter⟩ | ⟨key,read,nowMs,isAct,isAfter⟩ | ⟨key,isAct,isAfter⟩
  · exact (changed (congrArg (AList.lookup id) same)).elim
  · subst isAfter
    by_cases here : id = key
    · rw [here,manifest_write_self] at absent
      cases absent
    · exact (changed (manifest_write_other world here _ _ _)).elim
  · subst isAct isAfter
    by_cases here : id = key
    · subst here
      have same := (guarded.known alive allowed.1).symm.trans present
      cases same
      exact .inl ⟨nowMs,rfl⟩
    · exact (changed (manifest_erase_other world here _ _)).elim
  subst isAct isAfter
  by_cases here : id = key
  · subst here
    obtain ⟨_,unanswered,born,_⟩ := allowed
    obtain ⟨queued,deferred,isCreate,isId⟩ := due_create ((attributed.due task).symm.trans (attributed.born task id born))
    refine .inr ⟨task,queued,deferred,isCreate,isId,?_⟩
    by_contra answered
    rw [attributed.responded task answered] at unanswered
    cases unanswered
  · exact (changed (manifest_erase_other world here _ _)).elim

theorem details_step (changed : after.details id ≠ world.details id) : after.manifest id = none ∨ durable.ended = false := by
  rcases outcome.details changed with ⟨details,isAct⟩ | ⟨read,nowMs,_,isAfter⟩ | ⟨_,_,isAfter⟩
  · subst isAct
    obtain ⟨read,knows,running⟩ := allowed
    have same := (guarded.known alive knows).symm.trans present
    cases same
    exact .inr running
  · subst isAfter
    exact .inl (manifest_erase_self world id _ _)
  · subst isAfter
    exact .inl (manifest_erase_self world id _ _)

end Steps
section Runs
variable [DecidableEq ι] [DecidableEq π] [Fintype π] {home : ι → π} {operations : ι → Operation} {world : World ι π}
variable {config : Config (Act π) Answer (World ι π) ι} {permit : ι → (act : Act π) → World ι π → Answer act → World ι π → Bool}

theorem attributed_reach (untouched : Untouched world) (unanswered : ∀ task, world.responses task = none)
    (reached : Reach (effect home) permit (launch operations world) config) :
    ∃ phases, (∀ task, Follows (discipline π) (config.tasks task) (phases task) fun _ => Phase.Finished) ∧
      Guarded home world.manifest phases config.state ∧ Attributed operations phases config.state := by
  have start : Attributed operations (fun task => ((operations task).start : Phase π)) world := by
    refine ⟨fun _ => rfl,?_,?_,fun task told => absurd (unanswered task) told⟩
    · intro task id born
      rw [(start_fresh (operations task)).born] at born
      cases born
    intro task nowMs told
    have unread : ((operations task).start : Phase π).clock = none := by
      cases operations task with
      | _ => rfl
    rw [unread] at told
    cases told
  exact @store_reach ι π _ _ _ home operations world permit config (fun phases world => Attributed operations phases world) untouched
    start (fun phases before task act answer after _ attributed allowed _ outcome _ => attributed_step outcome allowed attributed) reached

end Runs
end BazelMcp.Store

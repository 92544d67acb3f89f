import Mathlib.Logic.Function.Basic
import Mathlib.Logic.Relation

/-! Cooperating tasks over one shared state. A task is a program whose calls are
its await points: between two calls of a task every other task may run. One
task is annotated against what the others may do (`rely`) and what it promises
them in turn (`guarantee`); compatible annotations hold along every run. -/
namespace BazelMcp.Tasks
open Function

inductive Program (Act : Type) (Answer : Act → Type) (α : Type) where
  | done (value : α)
  | call (act : Act) (next : Answer act → Program Act Answer α)

variable {Act : Type} {Answer : Act → Type} {σ ι α β : Type}

def Program.bind : Program Act Answer α → (α → Program Act Answer β) → Program Act Answer β
  | .done value, next => next value
  | .call act rest, next => .call act fun answer => (rest answer).bind next

instance : Monad (Program Act Answer) where
  pure := .done
  bind := .bind

def perform (act : Act) : Program Act Answer (Answer act) := .call act .done

/-- Every call the program can make, whatever it is answered, is of this kind. -/
def Program.Uses (kind : Act → Prop) : Program Act Answer α → Prop
  | .done _ => True
  | .call act next => kind act ∧ ∀ answer, (next answer).Uses kind

section Uses
variable {kind : Act → Prop}

@[simp] theorem uses_done (value : α) : (Program.done value : Program Act Answer α).Uses kind := trivial

@[simp] theorem uses_pure (value : α) : Program.Uses kind (pure value : Program Act Answer α) := trivial

@[simp] theorem uses_perform (act : Act) : (perform act : Program Act Answer (Answer act)).Uses kind ↔ kind act := by
  constructor
  · intro uses
    exact uses.1
  · intro holds
    exact ⟨holds,fun _ => trivial⟩

theorem uses_bind {first : Program Act Answer α} {next : α → Program Act Answer β} (before : first.Uses kind)
    (after : ∀ value, (next value).Uses kind) : (first >>= next).Uses kind := by
  induction first with
  | done value => exact after value
  | call act rest ih => exact ⟨before.1,fun answer => ih answer (before.2 answer)⟩

theorem Program.Uses.mono {wider : Act → Prop} {program : Program Act Answer α} (uses : program.Uses kind)
    (implies : ∀ act, kind act → wider act) : program.Uses wider := by
  induction program with
  | done value => trivial
  | call act next ih => exact ⟨implies act uses.1,fun answer => ih answer (uses.2 answer)⟩

theorem uses_any (program : Program Act Answer α) : program.Uses fun _ => True := by
  induction program with
  | done value => trivial
  | call act next ih => exact ⟨trivial,ih⟩

end Uses

section Annotation
variable (own : (act : Act) → σ → Answer act → σ → Prop) (rely guarantee : σ → σ → Prop)

def Stable (pre : σ → Prop) : Prop := ∀ state next, rely state next → pre state → pre next

/-- A program annotated with assertions: each one survives the other tasks, and
each call leads from its assertion to the next one by a promised step. -/
inductive Outline {α : Type} : (σ → Prop) → Program Act Answer α → (α → σ → Prop) → Prop
  | done {pre : σ → Prop} {value : α} {post : α → σ → Prop} (stable : Stable rely pre)
      (enough : ∀ state, pre state → post value state) : Outline pre (.done value) post
  | call {pre : σ → Prop} {act : Act} {next : Answer act → Program Act Answer α} {post : α → σ → Prop}
      (mid : Answer act → σ → Prop) (stable : Stable rely pre)
      (step : ∀ state answer after, pre state → own act state answer after → guarantee state after ∧ mid answer after)
      (rest : ∀ answer, Outline (mid answer) (next answer) post) : Outline pre (.call act next) post

variable {own rely guarantee}

variable {pre : σ → Prop}

variable {program : Program Act Answer α} {post : α → σ → Prop}

section
variable (outline : Outline own rely guarantee pre program post)
include outline

theorem Outline.stable : Stable rely pre := by
  cases outline with
  | done stable | call _ stable => exact stable

theorem Outline.strengthen {stronger : σ → Prop} (stable : Stable rely stronger)
    (implies : ∀ state, stronger state → pre state) : Outline own rely guarantee stronger program post := by
  cases outline with
  | done _ enough =>
    apply Outline.done stable
    intro state holds
    exact enough state (implies state holds)
  | call mid _ step rest =>
    apply Outline.call mid stable
    · intro state answer after holds taken
      exact step state answer after (implies state holds) taken
    · exact rest

theorem Outline.weaken {weaker : α → σ → Prop} (implies : ∀ value state, post value state → weaker value state) :
    Outline own rely guarantee pre program weaker := by
  induction outline with
  | done stable enough =>
    apply Outline.done stable
    intro state holds
    exact implies _ state (enough state holds)
  | call mid stable step _ ih =>
    apply Outline.call mid stable step
    intro answer
    exact ih answer implies

end

theorem Outline.bind {first : Program Act Answer α} {mid : α → σ → Prop}
    {next : α → Program Act Answer β} {post : β → σ → Prop} (before : Outline own rely guarantee pre first mid)
    (after : ∀ value, Outline own rely guarantee (mid value) (next value) post) :
    Outline own rely guarantee pre (first >>= next) post := by
  induction before with
  | done stable enough => exact (after _).strengthen stable enough
  | call inner stable step _ ih =>
    apply Outline.call inner stable step
    intro answer
    exact ih answer after

theorem Outline.perform {act : Act} {post : Answer act → σ → Prop} (stable : Stable rely pre)
    (step : ∀ state answer after, pre state → own act state answer after → guarantee state after ∧ post answer after)
    (kept : ∀ answer, Stable rely (post answer)) : Outline own rely guarantee pre (perform act) post := by
  apply Outline.call post stable step
  intro answer
  exact Outline.done (kept answer) (fun _ holds => holds)

theorem Outline.vacuous (program : Program Act Answer α)
    (never : ∀ state, ¬ pre state) : Outline own rely guarantee pre program post := by
  have stable : ∀ {impossible : σ → Prop}, (∀ state, ¬ impossible state) → Stable rely impossible :=
    fun never state _ _ holds => absurd holds (never state)
  induction program generalizing pre with
  | done value => exact Outline.done (stable never) (fun state holds => absurd holds (never state))
  | call act next ih =>
    apply Outline.call (fun _ _ => False) (stable never)
    · intro state answer after holds _
      exact absurd holds (never state)
    · intro answer
      exact ih answer (fun _ impossible => impossible)

theorem Outline.assume {fact : Prop} (outline : fact → Outline own rely guarantee pre program post) :
    Outline own rely guarantee (fun state => pre state ∧ fact) program post := by
  by_cases holds : fact
  · apply (outline holds).strengthen
    · intro state next moved both
      exact ⟨(outline holds).stable state next moved both.1,holds⟩
    · intro state both
      exact both.1
  · exact Outline.vacuous program (fun state both => holds both.2)

/-- One assertion carries a program all of whose calls keep it. -/
theorem Outline.uniform {kind : Act → Prop} {assertion : σ → Prop} (stable : Stable rely assertion)
    (step : ∀ act state answer after, kind act → assertion state → own act state answer after →
      guarantee state after ∧ assertion after)
    (uses : program.Uses kind) : Outline own rely guarantee assertion program (fun _ => assertion) := by
  induction program with
  | done value => exact Outline.done stable (fun _ holds => holds)
  | call act next ih =>
    apply Outline.call (fun _ => assertion) stable
    · intro state answer after holds taken
      exact step act state answer after uses.1 holds taken
    · intro answer
      exact ih answer (uses.2 answer)

end Annotation

structure Config (Act : Type) (Answer : Act → Type) (σ ι : Type) where
  tasks : ι → Program Act Answer Unit
  state : σ

section System
variable [DecidableEq ι] (effect : ι → (act : Act) → σ → List (Answer act × σ))
variable (permit : ι → (act : Act) → σ → Answer act → σ → Bool)

/-- One task completes one call in one of its possible, permitted ways. -/
inductive Step : Config Act Answer σ ι → Config Act Answer σ ι → Prop
  | mk {before : Config Act Answer σ ι} {task : ι} {act : Act} {next : Answer act → Program Act Answer Unit}
      {answer : Answer act} {after : σ} (pending : before.tasks task = .call act next)
      (possible : (answer,after) ∈ effect task act before.state)
      (permitted : permit task act before.state answer after = true) :
      Step before ⟨update before.tasks task (next answer),after⟩

def Reach : Config Act Answer σ ι → Config Act Answer σ ι → Prop := Relation.ReflTransGen (Step effect permit)

def Own (task : ι) (act : Act) (state : σ) (answer : Answer act) (after : σ) : Prop :=
  (answer,after) ∈ effect task act state ∧ permit task act state answer after = true

variable {config : Config Act Answer σ ι} {invariant : σ → Prop} {schedule : List (ι × Nat)}
  {check : Config Act Answer σ ι → Config Act Answer σ ι → Bool}

variable {start : Config Act Answer σ ι}

theorem reach_keeps {effect : ι → (act : Act) → σ → List (Answer act × σ)} {permit : ι → (act : Act) → σ → Answer act → σ → Bool}
    (kept : ∀ task act state answer after, invariant state → Own effect permit task act state answer after → invariant after)
    (initial : invariant start.state) (reached : Reach effect permit start config) : invariant config.state := by
  induction reached with
  | refl => exact initial
  | tail _ step ih =>
    cases step with
    | mk _ possible permitted => exact kept _ _ _ _ _ ih ⟨possible,permitted⟩

/-- Every task of the configuration is at an assertion of its outline. -/
def Annotated (rely guarantee : ι → σ → σ → Prop) (config : Config Act Answer σ ι) : Prop :=
  ∀ task, ∃ pre, pre config.state ∧
    Outline (Own effect permit task) (rely task) (guarantee task) pre (config.tasks task) (fun _ _ => True)

variable {effect permit} {rely guarantee : ι → σ → σ → Prop}

section
variable (compatible : ∀ task other, task ≠ other → ∀ state next, guarantee other state next → rely task state next)
include compatible

theorem Annotated.step {before after : Config Act Answer σ ι}
    (annotated : Annotated effect permit rely guarantee before) (step : Step effect permit before after) :
    Annotated effect permit rely guarantee after ∧ ∃ task, guarantee task before.state after.state := by
  cases step with
  | @mk task act next answer state pending possible permitted =>
    obtain ⟨pre,holds,outline⟩ := annotated task
    rw [pending] at outline
    cases outline with
    | call mid _ own rest =>
      obtain ⟨promised,reached⟩ := own before.state answer state holds ⟨possible,permitted⟩
      refine ⟨?_,task,promised⟩
      intro other
      by_cases same : other = task
      · subst other
        refine ⟨mid answer,reached,?_⟩
        change Outline _ _ _ _ (update before.tasks task (next answer) task) _
        rw [update_self]
        exact rest answer
      · obtain ⟨pre,holds,outline⟩ := annotated other
        refine ⟨pre,outline.stable before.state state (compatible other task same _ _ promised) holds,?_⟩
        change Outline _ _ _ _ (update before.tasks task (next answer) other) _
        rw [update_of_ne same]
        exact outline

/-- Compatible outlines hold along every run, and with them every invariant
that the promised steps keep. -/
theorem Annotated.reach (annotated : Annotated effect permit rely guarantee start)
    (kept : ∀ task state next, guarantee task state next → invariant state → invariant next)
    (initial : invariant start.state) (reached : Reach effect permit start config) :
    Annotated effect permit rely guarantee config ∧ invariant config.state := by
  induction reached with
  | refl => exact ⟨annotated,initial⟩
  | tail _ step ih =>
    obtain ⟨annotated,holds⟩ := ih
    obtain ⟨annotated,task,promised⟩ := annotated.step compatible step
    exact ⟨annotated,kept task _ _ promised holds⟩

end

variable (effect permit)

def turn (config : Config Act Answer σ ι) (task : ι) (choice : Nat) : Option (Config Act Answer σ ι) :=
  match config.tasks task with
  | .done _ => none
  | .call act next =>
    match (effect task act config.state)[choice]? with
    | none => none
    | some (answer,after) =>
      if permit task act config.state answer after then
        some ⟨update config.tasks task (next answer),after⟩
      else none

def replay : Config Act Answer σ ι → List (ι × Nat) → Option (Config Act Answer σ ι)
  | config, [] => some config
  | config, (task,choice)::rest => (turn effect permit config task choice).bind (replay · rest)

variable {effect permit}

theorem turn_step {next : Config Act Answer σ ι} {task : ι} {choice : Nat}
    (taken : turn effect permit config task choice = some next) : Step effect permit config next := by
  unfold turn at taken
  split at taken
  · cases taken
  rename_i act continue_ pending
  split at taken
  · cases taken
  rename_i answer after chosen
  split at taken
  · rename_i permitted
    cases taken
    exact Step.mk pending (List.mem_of_getElem? chosen) permitted
  · cases taken

theorem replay_reach {last : Config Act Answer σ ι}
    (replayed : replay effect permit config schedule = some last) : Reach effect permit config last := by
  induction schedule generalizing config with
  | nil =>
    cases replayed
    exact Relation.ReflTransGen.refl
  | cons entry rest ih =>
    obtain ⟨task,choice⟩ := entry
    obtain ⟨next,taken,replayed⟩ := Option.bind_eq_some_iff.mp replayed
    exact Relation.ReflTransGen.head (turn_step taken) (ih replayed)

theorem replay_exists {check : Config Act Answer σ ι → Bool} (checked : (replay effect permit config schedule).any check = true) :
    ∃ last, Reach effect permit config last ∧ check last = true := by
  cases replayed : replay effect permit config schedule with
  | none => simp [replayed] at checked
  | some last => exact ⟨last,replay_reach replayed,by simpa [replayed] using checked⟩

theorem replay_exists_between {first second : List (ι × Nat)} (checked : (replay effect permit config first).any
      (fun middle => (replay effect permit middle second).any (check middle)) = true) :
    ∃ middle last, Reach effect permit config middle ∧ Reach effect permit middle last ∧ check middle last = true := by
  obtain ⟨middle,reached,checked⟩ := replay_exists checked
  obtain ⟨last,continued,holds⟩ := replay_exists checked
  exact ⟨middle,last,reached,continued,holds⟩

theorem replay_exists_step {task : ι} {choice : Nat} (checked : (replay effect permit config schedule).any
      (fun middle => (turn effect permit middle task choice).any (check middle)) = true) :
    ∃ middle last, Reach effect permit config middle ∧ Step effect permit middle last ∧ check middle last = true := by
  obtain ⟨middle,reached,checked⟩ := replay_exists checked
  cases taken : turn effect permit middle task choice with
  | none => simp [taken] at checked
  | some last => exact ⟨middle,last,reached,turn_step taken,by simpa [taken] using checked⟩

end System
end BazelMcp.Tasks

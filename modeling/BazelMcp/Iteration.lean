import Mathlib.Logic.Relation
import Mathlib.Order.WellFounded

/-! Loops that stop by themselves or not at all. A loop body either hands over
the next state or leaves with a result; running it costs one unit of fuel for
each round, and a loop terminates when some amount of fuel is enough. -/
namespace BazelMcp.Iteration

inductive Round (σ ρ : Type) where
  | again (state : σ)
  | done (result : ρ)

variable {σ ρ : Type}

def run (body : σ → Round σ ρ) : Nat → σ → Option ρ
  | 0, _ => none
  | fuel+1, state =>
    match body state with
    | .again next => run body fuel next
    | .done result => some result

def Returns (body : σ → Round σ ρ) (state : σ) (result : ρ) : Prop := ∃ fuel, run body fuel state = some result

def Terminates (body : σ → Round σ ρ) (state : σ) : Prop := ∃ result, Returns body state result

variable {body : σ → Round σ ρ} {state : σ}

theorem returns_done {result : ρ} (left : body state = .done result) :
    Returns body state result := ⟨1,by simp [run,left]⟩

theorem returns_again {next : σ} (step : body state = .again next) (result : ρ) :
    Returns body state result ↔ Returns body next result := by
  constructor
  · rintro ⟨fuel,ran⟩
    cases fuel with
    | zero => simp [run] at ran
    | succ fuel => exact ⟨fuel,by simpa [run,step] using ran⟩
  · rintro ⟨fuel,ran⟩
    exact ⟨fuel+1,by simpa [run,step] using ran⟩

/-- A loop with a measure returns, and what each round hands back holds at its start. -/
theorem returns_total {μ : Type} [Preorder μ] [WellFoundedLT μ] {keeps : σ → Prop} (left : σ → μ) (good : ρ → σ → Prop)
    (round : ∀ state, keeps state → (∃ result, body state = .done result ∧ good result state) ∨
      ∃ next, body state = .again next ∧ keeps next ∧ left next < left state ∧ ∀ result, good result next → good result state)
    (kept : keeps state) : ∃ result, Returns body state result ∧ good result state := by
  induction state using (InvImage.wf left wellFounded_lt).induction with
  | h state ih =>
    rcases round state kept with ⟨result,ends,holds⟩ | ⟨next,again,kept,less,back⟩
    · exact ⟨result,returns_done ends,holds⟩
    · obtain ⟨result,returns,holds⟩ := ih next less kept
      exact ⟨result,(returns_again again result).mpr returns,back result holds⟩

/-- A loop whose body tries the current candidate and otherwise replaces it by
a smaller one, until nothing smaller is left. -/
def attempt (trial : σ → Option ρ) (smaller : σ → Option σ) (exhausted : ρ) (state : σ) : Round σ ρ :=
  match trial state with
  | some result => .done result
  | none =>
    match smaller state with
    | some next => .again next
    | none => .done exhausted

def Smaller (smaller : σ → Option σ) : σ → σ → Prop :=
  Relation.ReflTransGen (fun state next => smaller state = some next)

section Attempt
variable (trial : σ → Option ρ) (smaller : σ → Option σ) (exhausted : ρ)

variable {state : σ}

theorem attempt_success {result : ρ} (tried : trial state = some result) :
    attempt trial smaller exhausted state = .done result := by simp [attempt,tried]

theorem attempt_stuck (failed : trial state = none) (last : smaller state = none) :
    attempt trial smaller exhausted state = .done exhausted := by simp [attempt,failed,last]

theorem attempt_again {next : σ} (failed : trial state = none) (step : smaller state = some next) :
    attempt trial smaller exhausted state = .again next := by simp [attempt,failed,step]

/-- A result is that of an accepted candidate, or the candidates have run out. -/
theorem attempt_returns {start : σ} {fuel : Nat} {result : ρ} (ran : run (attempt trial smaller exhausted) fuel start = some result) :
    ∃ state, Smaller smaller start state ∧ (trial state = some result ∨ smaller state = none ∧ exhausted = result) := by
  induction fuel generalizing start with
  | zero => cases ran
  | succ fuel ih =>
    cases tried : trial start with
    | some value => exact ⟨start,.refl,.inl (by simpa [run,attempt,tried] using ran)⟩
    | none =>
      cases step : smaller start with
      | none => exact ⟨start,.refl,.inr ⟨step,by simpa [run,attempt,tried,step] using ran⟩⟩
      | some next =>
        simp only [run,attempt_again trial smaller exhausted tried step] at ran
        obtain ⟨state,reached,stops⟩ := ih ran
        exact ⟨state,.head step reached,stops⟩

/-- An attempt loop terminates exactly when, among the candidates it would visit
without a success, one is accepted by the trial or has no smaller one. -/
theorem attempt_terminates_iff (start : σ) : Terminates (attempt trial smaller exhausted) start ↔
      ∃ state, Smaller smaller start state ∧ ((trial state).isSome = true ∨ smaller state = none) := by
  constructor
  · rintro ⟨result,fuel,ran⟩
    obtain ⟨state,reached,tried | ⟨last,_⟩⟩ := attempt_returns trial smaller exhausted ran
    · exact ⟨state,reached,.inl (by simp [tried])⟩
    · exact ⟨state,reached,.inr last⟩
  · rintro ⟨state,reached,stops⟩
    -- From the accepted candidate back to the start: each earlier candidate
    -- either succeeds itself or hands over to the next one.
    induction reached using Relation.ReflTransGen.head_induction_on with
    | refl =>
      cases tried : trial state with
      | some value => exact ⟨value,returns_done (attempt_success trial smaller exhausted tried)⟩
      | none =>
        have last : smaller state = none := by simpa [tried] using stops
        exact ⟨exhausted,returns_done (attempt_stuck trial smaller exhausted tried last)⟩
    | @head before next step _ ih =>
      cases tried : trial before with
      | some value => exact ⟨value,returns_done (attempt_success trial smaller exhausted tried)⟩
      | none =>
        obtain ⟨result,returned⟩ := ih
        have again := attempt_again trial smaller exhausted tried step
        exact ⟨result,(returns_again again result).mpr returned⟩

/-- Where every replacement of a good candidate is good and strictly smaller, no
other one is replaced by a good one and the last one is good, the candidates run
out exactly from the good ones. -/
theorem last_iff {good : σ → Prop} {size : σ → Nat}
    (decreasing : ∀ state next, good state → smaller state = some next → good next ∧ size next < size state)
    (back : ∀ state next, smaller state = some next → good next → good state) (final : ∀ state, smaller state = none → good state)
    (start : σ) : (∃ state, Smaller smaller start state ∧ smaller state = none) ↔ good start := by
  constructor
  · rintro ⟨state,reached,last⟩
    induction reached using Relation.ReflTransGen.head_induction_on with
    | refl => exact final state last
    | head step _ ih => exact back _ _ step ih
  · intro initial
    induction bound : size start using Nat.strongRecOn generalizing start with
    | ind n ih =>
      cases step : smaller start with
      | none => exact ⟨start,.refl,step⟩
      | some next =>
        obtain ⟨kept,less⟩ := decreasing start next initial step
        obtain ⟨state,reached,last⟩ := ih (size next) (bound ▸ less) next kept rfl
        exact ⟨state,.head step reached,last⟩

end Attempt
end BazelMcp.Iteration

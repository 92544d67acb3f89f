import BazelMcp.CleanupSafety

/-! Runs of a live invocation among opening processes. The file that the runner is
still writing can be unlinked by an opening process, and the invocation is then
committed as failed; if that is ruled out, it ends, and it ends as `Succeeded`
with its snapshots in place. -/
namespace BazelMcp.Cleanup
open Tasks Typestate Function List

section Run
variable {plan : Plan} {orders : Nat → List Temporary} {leftover : Temporary → Bool}
variable {config : Config Act Answer State Task}

structure Settled (plan : Plan) (config : Config Act Answer State Task) (standings : Task → Standing) : Prop where
  follows (task : Task) : Follows rules (config.tasks task) (.live (standings task))
    (Ends fun _ after => after.locked = false ∧ (after.opening = false → after.Complete plan))
  locks : Locks standings config.state
  files : Files (standings .invocation) config.state

def begun : Task → Standing
  | .invocation => {opening := false, owning := true}
  | .opener _ => .waiting

theorem reach_settled (reached : Reach effect sparing (start plan orders leftover) config) : ∃ standings, Settled plan config standings := by
  let sound (phases : Task → Phase) (state : State) : Prop :=
    ∃ standings, (∀ task, phases task = .live (standings task)) ∧ Locks standings state ∧ Files (standings .invocation) state
  have kept (phases : Task → Phase) (state : State) (task : Task) (act : Act) (answer : Answer act) (after : State)
      (holds : sound phases state) (allowed : rules.allowed (phases task) act) (own : Own effect sparing task act state answer after) :
      sound (update phases task (rules.advance (phases task) act answer)) after := by
    obtain ⟨standings,live,locks,files⟩ := holds
    rw [live task] at allowed ⊢
    obtain ⟨next,advanced,locks,files⟩ := advance_sound locks files allowed own
    refine ⟨update standings task next,?_,locks,files⟩
    intro other
    change update phases task ((standings task).advance act answer) other = _
    rw [advanced]
    by_cases same : other = task
    · subst other
      simp
    · simp [same,live]
  have follows (task : Task) : Follows rules ((start plan orders leftover).tasks task) (.live (begun task))
      fun _ phase => Ends (fun (_ : Unit) after => after.locked = false ∧ (after.opening = false → after.Complete plan)) () phase := by
    cases task with
    | invocation => exact follows_invocation plan
    | opener number =>
      refine follows_last (follows_openStore (orders number)) ?_
      intro _ after same
      subst same
      exact ⟨rfl,Bool.noConfusion⟩
  have locks : Locks begun (start plan orders leftover).state := by
    refine ⟨?_,?_,?_⟩
    all_goals
      intro task
      cases task <;> simp [begun,start,Standing.waiting]
  have files : Files (begun .invocation) (start plan orders leftover).state := by
    refine ⟨?_,?_,rfl,fun _ => rfl,?_,Bool.noConfusion⟩
    · intro name member
      cases member
    · intro name creator found
      simp only [start] at found
      split at found
      · cases found
        exact .inl rfl
      · cases found
    · intro name member
      cases member
  obtain ⟨phases,follows,standings,live,locks,files⟩ := Typestate.reach kept follows ⟨begun,fun _ => rfl,locks,files⟩ reached
  refine ⟨standings,?_,locks,files⟩
  intro task
  have own := follows task
  rw [live task] at own
  exact own

/-! ### The invocation ends -/

def Ready (state : State) : Act → Prop
  | .create name => state.temporary name = none
  | .unlink name => state.temporary name ≠ some (.live .invocation)
  | .lock => state.mutation = none
  | _ => True

theorem Ready.own {state : State} {act : Act} (task : Task) (ready : Ready state act) :
    ∃ answer after, Own effect sparing task act state answer after := by
  unfold Own
  cases act with
  | create name =>
    have free : state.temporary name = none := ready
    simp only [effect,free,Option.isSome_none]
    exact ⟨true,_,mem_singleton_self _,rfl⟩
  | unlink name => exact ⟨(),_,mem_singleton_self _,Bool.or_eq_true_iff.mpr (.inr (decide_eq_true ready))⟩
  | lock =>
    have free : state.mutation = none := ready
    simp only [effect,free,if_true]
    exact ⟨(),_,mem_singleton_self _,rfl⟩
  | rename name record | tryLock | tryOwner =>
    simp only [effect]
    split <;> exact ⟨_,_,mem_singleton_self _,rfl⟩
  | remove name | present name | snapshotExists name | readManifest | unlock | releaseOwner =>
    exact ⟨_,_,mem_singleton_self _,rfl⟩

variable {task : Task} {standings : Task → Standing} {wait : Answer .lock → Proc Unit}

theorem Ready.step {act : Act} {next : Answer act → Proc Unit} (ready : Ready config.state act)
    (pending : config.tasks task = .call act next) : ∃ answer after, Own effect sparing task act config.state answer after ∧
      Step effect sparing config ⟨update config.tasks task (next answer),after⟩ := by
  obtain ⟨answer,after,own⟩ := ready.own task
  exact ⟨answer,after,own,Step.mk pending own.1 own.2⟩

theorem Settled.holder (settled : Settled plan config standings) (waiting : config.tasks .invocation = .call .lock wait)
    (held : config.state.mutation = some task) :
    task ≠ .invocation ∧ ∃ act next, config.tasks task = .call act next ∧ Ready config.state act := by
  have locked : (standings task).locked = true := (settled.locks.mutation task).mpr held
  have idle := settled.follows .invocation
  rw [waiting] at idle
  have other : task ≠ .invocation := by
    intro same
    subst task
    exact Bool.noConfusion (locked.symm.trans idle.1.1)
  refine ⟨other,?_⟩
  have opening : (standings task).opening = true := by
    rw [settled.locks.kind]
    exact decide_eq_true other
  have own := settled.follows task
  cases program : config.tasks task with
  | done value =>
    rw [program] at own
    rcases own with impossible | ⟨after,same,free,_⟩
    · cases impossible
    · cases same
      exact Bool.noConfusion (locked.symm.trans free)
  | call act next =>
    rw [program] at own
    refine ⟨act,next,rfl,?_⟩
    have allowed : (standings task).allowed act := own.1
    cases act with
    | create name => exact Bool.noConfusion (opening.symm.trans allowed.1)
    | lock => exact Bool.noConfusion (locked.symm.trans allowed.1)
    | unlink name =>
      intro live
      rcases settled.files.made live with dead | member
      · cases dead
      · rw [idle.1.2] at member
        cases member
    | _ => trivial

theorem own_mutation {state after : State} {holder : Task} {act : Act} {answer : Answer act}
    (own : Own effect sparing task act state answer after) (held : state.mutation = some holder) :
    after.mutation = some holder ∨ after.mutation = none := by
  obtain ⟨possible,_⟩ := own
  cases act with
  | create name | rename name record | tryOwner =>
    simp only [effect] at possible
    split at possible <;> cases mem_singleton.mp possible <;> exact .inl held
  | tryLock =>
    simp only [effect,held] at possible
    cases mem_singleton.mp possible
    exact .inl held
  | lock =>
    simp only [effect,held] at possible
    cases possible
  | unlock =>
    cases mem_singleton.mp possible
    exact .inr rfl
  | remove name | unlink name | present name | snapshotExists name | readManifest | releaseOwner =>
    cases mem_singleton.mp possible
    exact .inl held

/-- By induction on what its holder still has to do, the lock becomes free. -/
theorem lock_freed (program : Proc Unit)
    (reached : Reach effect sparing (start plan orders leftover) config) (waiting : config.tasks .invocation = .call .lock wait)
    (own : config.tasks task = program) (held : config.state.mutation = some task) :
    ∃ later, Reach effect sparing config later ∧ later.tasks .invocation = .call .lock wait ∧ later.state.mutation = none := by
  induction program generalizing config with
  | done value =>
    obtain ⟨standings,settled⟩ := reach_settled reached
    obtain ⟨_,act,next,pending,_⟩ := settled.holder waiting held
    rw [own] at pending
    cases pending
  | call act next ih =>
    obtain ⟨standings,settled⟩ := reach_settled reached
    obtain ⟨other,_,_,pending,ready⟩ := settled.holder waiting held
    rw [own] at pending
    cases pending
    obtain ⟨answer,after,taken,step⟩ := ready.step own
    have kept : update config.tasks task (next answer) .invocation = .call .lock wait := by
      rw [update_of_ne (Ne.symm other)]
      exact waiting
    rcases own_mutation taken held with still | free
    · have resumed : update config.tasks task (next answer) task = next answer := update_self ..
      obtain ⟨later,continued,waits,free⟩ := ih answer (reached.tail step) kept resumed still
      exact ⟨later,.head step continued,waits,free⟩
    · exact ⟨_,.single step,kept,free⟩

theorem reach_clean (clean : ∀ name, leftover name = false) (reached : Reach effect sparing (start plan orders leftover) config)
    (name : Temporary) : config.state.temporary name ≠ some .dead := by
  have kept (task : Task) (act : Act) (state : State) (answer : Answer act) (after : State)
      (holds : ∀ name, state.temporary name ≠ some .dead) (own : Own effect sparing task act state answer after) :
      ∀ name, after.temporary name ≠ some .dead := by
    have updated (name : Temporary) (writer : Option Writer) (alive : writer ≠ some .dead) (other : Temporary) :
        update state.temporary name writer other ≠ some .dead := by
      by_cases same : other = name
      · subst other
        rwa [update_self]
      · rw [update_of_ne same]
        exact holds other
    obtain ⟨possible,_⟩ := own
    cases act with
    | create name =>
      simp only [effect] at possible
      split at possible <;> cases mem_singleton.mp possible
      · exact holds
      · exact updated name _ (by simp)
    | rename name record =>
      simp only [effect] at possible
      split at possible <;> cases mem_singleton.mp possible
      · exact updated name _ (by simp)
      · exact holds
    | remove name | unlink name =>
      cases mem_singleton.mp possible
      exact updated name _ (by simp)
    | tryLock | tryOwner =>
      simp only [effect] at possible
      split at possible <;> cases mem_singleton.mp possible <;> exact holds
    | lock =>
      simp only [effect] at possible
      split at possible
      · cases mem_singleton.mp possible
        exact holds
      · cases possible
    | present name | snapshotExists name | readManifest | unlock | releaseOwner =>
      cases mem_singleton.mp possible
      exact holds
  refine reach_keeps kept ?_ reached name
  intro name
  simp [start,clean name]

/-- By induction on what the invocation still has to do, it can be brought to its end. -/
theorem invocation_ends (clean : ∀ name, leftover name = false) (program : Proc Unit)
    (reached : Reach effect sparing (start plan orders leftover) config) (own : config.tasks .invocation = program) :
    ∃ ended, Reach effect sparing config ended ∧ ended.tasks .invocation = .done () := by
  induction program generalizing config with
  | done value => exact ⟨config,.refl,own⟩
  | call act next ih =>
    have readied : ∃ later, Reach effect sparing config later ∧ later.tasks .invocation = .call act next ∧ Ready later.state act := by
      obtain ⟨standings,settled⟩ := reach_settled reached
      have follows := settled.follows .invocation
      rw [own] at follows
      have writing : (standings .invocation).opening = false := settled.locks.kind .invocation
      have allowed : (standings .invocation).allowed act := follows.1
      cases act with
      | create name =>
        refine ⟨config,.refl,own,?_⟩
        cases found : config.state.temporary name with
        | none => exact found
        | some creator =>
          rcases settled.files.made found with dead | member
          · exact absurd (found.trans (congrArg some dead)) (reach_clean clean reached name)
          · exact absurd member allowed.2.2
      | unlink name => exact Bool.noConfusion (writing.symm.trans allowed.1)
      | lock =>
        cases held : config.state.mutation with
        | none => exact ⟨config,.refl,own,held⟩
        | some task => exact lock_freed _ reached own rfl held
      | _ => exact ⟨config,.refl,own,trivial⟩
    obtain ⟨later,continued,pending,ready⟩ := readied
    obtain ⟨answer,after,_,step⟩ := ready.step pending
    have resumed : update later.tasks .invocation (next answer) .invocation = next answer := update_self ..
    obtain ⟨ended,rest,done⟩ := ih answer ((reached.trans continued).tail step) resumed
    exact ⟨ended,continued.trans (.head step rest),done⟩

/-- The record is terminal and every snapshot of the evidence is in place. -/
structure Preserved (plan : Plan) (state : State) : Prop where
  record : state.record = .succeeded
  captured : plan.persists = true → state.published .failureEvidence = true
  raw : plan.testLogs = some true → state.published .failedTestLogs = true
  evidence : plan.testLogs = some true → state.published .failedTestEvidence = true

theorem Settled.preserved (settled : Settled plan config standings)
    (ended : config.tasks .invocation = .done ()) : Preserved plan config.state := by
  have own := settled.follows .invocation
  rw [ended] at own
  rcases own with impossible | ⟨after,same,_,complete⟩
  · cases impossible
  cases same
  have complete := complete (settled.locks.kind .invocation)
  have published {name : Temporary} (member : name ∈ (standings .invocation).published) : config.state.published name = true := by
    rw [settled.files.published]
    exact decide_eq_true member
  refine ⟨?_,?_,?_,?_⟩
  · rw [settled.files.record,complete.recorded]
    rfl
  · intro persists
    exact published (complete.captured persists)
  · intro copied
    exact published (complete.raw copied)
  · intro copied
    exact published (complete.evidence copied)

theorem Settled.abandoned (settled : Settled plan config standings) {number : Nat} {name : Temporary}
    {next : Answer (.unlink name) → Proc Unit} {after : State} (pending : config.tasks (.opener number) = .call (.unlink name) next)
    (own : Own effect sparing (.opener number) (.unlink name) config.state () after) :
    config.state.temporary name = none ∨ config.state.temporary name = some .dead := by
  have follows := settled.follows (.opener number)
  rw [pending] at follows
  have allowed : (standings (.opener number)).allowed (.unlink name) := follows.1
  have spared := Files.spared settled.locks settled.files Task.noConfusion allowed.2 own.2
  cases found : config.state.temporary name with
  | none => exact .inl rfl
  | some creator =>
    rcases settled.files.made found with dead | member
    · exact .inr (congrArg some dead)
    · exact absurd member spared

theorem opening_spares (plan : Plan) (orders : Nat → List Temporary) (leftover : Temporary → Bool)
    {config : Config Act Answer State Task} (reached : Reach effect sparing (start plan orders leftover) config) :
    (config.state.record = .running ∨ config.state.record = .succeeded) ∧
    (config.tasks .invocation = .done () → Preserved plan config.state) ∧
    (∀ number name next after, config.tasks (.opener number) = .call (.unlink name) next →
      Own effect sparing (.opener number) (.unlink name) config.state () after →
      config.state.temporary name = none ∨ config.state.temporary name = some .dead) ∧ ((∀ name, leftover name = false) →
      ∃ ended, Reach effect sparing config ended ∧ ended.tasks .invocation = .done () ∧ Preserved plan ended.state) := by
  obtain ⟨standings,settled⟩ := reach_settled reached
  refine ⟨?_,settled.preserved,?_,?_⟩
  · rw [settled.files.record]
    split
    · exact .inr rfl
    · exact .inl rfl
  · intro number name next after pending own
    exact settled.abandoned pending own
  · intro clean
    obtain ⟨ended,continued,done⟩ := invocation_ends clean _ reached rfl
    obtain ⟨_,settled⟩ := reach_settled (reached.trans continued)
    exact ⟨ended,continued,done,settled.preserved done⟩

end Run

def failedTests : Plan where
  persists := true
  testLogs := some true
  evidenceFirst := false
  hasArtifacts := true
  hasDetails := true

def everyName : List Temporary :=
  [.manifest,.details,.artifacts,.failureEvidence,.failedTestLogs,.failedTestEvidence]

def ended (config : Config Act Answer State Task) : Bool :=
  match config.tasks .invocation with
  | .done _ => true
  | .call _ _ => false

theorem ended_done {config : Config Act Answer State Task} (holds : ended config = true) : config.tasks .invocation = .done () := by
  unfold ended at holds
  split at holds
  · assumption
  · cases holds

/-- A dead writer has left its details; an opening process removes them while
the invocation writes its evidence. -/
theorem opening_spares_failedTests :
    ∃ config, Reach effect sparing (start failedTests (fun _ => everyName) (· = .details)) config ∧
      config.tasks .invocation = .done () ∧ Preserved failedTests config.state := by
  let schedule : List (Task × Nat) :=
    List.replicate 2 (.invocation,0) ++ List.replicate 11 (.opener 0,0) ++ List.replicate 16 (.invocation,0)
  have checked : (replay effect sparing (start failedTests (fun _ => everyName) (· = .details)) schedule).any ended = true := by
    decide +kernel
  obtain ⟨config,reached,holds⟩ := replay_exists checked
  have done := ended_done holds
  exact ⟨config,reached,done,(opening_spares failedTests _ _ reached).2.1 done⟩

/-- An opening process lists the evidence file that the runner has just created,
takes the free mutation lock and unlinks the file; the rename fails and the
invocation, whose client succeeded, is committed as failed. -/
theorem opening_unlinks_live :
    ∃ middle config next, Reach effect faultless (start failedTests (fun _ => everyName) (fun _ => false)) middle ∧
      middle.tasks (.opener 0) = .call (.unlink .failureEvidence) next ∧
      middle.state.temporary .failureEvidence = some (.live .invocation) ∧
      Reach effect faultless middle config ∧ config.tasks .invocation = .done () ∧
      config.state.record = .failed ∧ config.state.published .failureEvidence = false := by
  let unlinking (config : Config Act Answer State Task) : Bool :=
    match config.tasks (.opener 0) with
    | .call (.unlink .failureEvidence) _ => true
    | _ => false
  have checked : (replay effect faultless (start failedTests (fun _ => everyName) (fun _ => false))
      (List.replicate 1 (.invocation,0) ++ List.replicate 8 (.opener 0,0))).any
      (fun middle => (replay effect faultless middle (List.replicate 3 (.opener 0,0) ++ List.replicate 13 (.invocation,0))).any
        fun config => unlinking middle && decide (middle.state.temporary .failureEvidence = some (.live .invocation)) && ended config &&
          decide (config.state.record = .failed) && !config.state.published .failureEvidence) = true := by
    decide +kernel
  obtain ⟨middle,config,reached,continued,holds⟩ := replay_exists_between checked
  simp only [Bool.and_eq_true,decide_eq_true_eq,Bool.not_eq_true'] at holds
  obtain ⟨⟨⟨⟨unlinks,live⟩,done⟩,failed⟩,absent⟩ := holds
  have pending : ∃ next, middle.tasks (.opener 0) = .call (.unlink .failureEvidence) next := by
    dsimp only [unlinking] at unlinks
    split at unlinks
    · exact ⟨_,by assumption⟩
    · cases unlinks
  obtain ⟨next,pending⟩ := pending
  exact ⟨middle,config,next,reached,pending,live,continued,ended_done done,failed,absent⟩

end BazelMcp.Cleanup

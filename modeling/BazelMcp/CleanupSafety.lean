import BazelMcp.Cleanup
import BazelMcp.Typestate

/-! A live invocation among opening processes. If no cleanup unlinks a file that
the runner is still writing, every rename finds its file: the invocation commits
`Succeeded` with its snapshots in place, and what the cleanups remove was left
by dead writers. The files the store writes are safe by the mutation lock. -/
namespace BazelMcp.Cleanup
open Tasks Typestate Function List

/-- How far a task has got: the locks it holds, the temporary files it created
and has not renamed, what it renamed, and whether its record is in place. -/
structure Standing where
  opening : Bool
  owning : Bool
  locked : Bool := false
  mine : List Temporary := []
  published : List Temporary := []
  recorded : Bool := false

/-- `impossible` stands behind answers that no call can give. -/
inductive Phase where
  | live (standing : Standing)
  | impossible

def Standing.allowed (standing : Standing) : Act → Prop
  | .create name => standing.opening = false ∧ (name.stored = true → standing.locked = true) ∧ name ∉ standing.mine
  | .rename name record => standing.opening = false ∧ name ∈ standing.mine ∧ (record = none ∨ record = some .succeeded)
  | .remove name => standing.opening = false ∧ (name.stored = true → standing.locked = true)
  | .unlink _ => standing.opening = true ∧ standing.locked = true
  | .snapshotExists _ => standing.opening = false
  | .present _ | .readManifest => True
  | .tryLock | .lock => standing.locked = false ∧ standing.mine = []
  | .unlock => standing.locked = true ∧ standing.mine = []
  | .tryOwner => standing.opening = true ∧ standing.owning = false
  | .releaseOwner => standing.owning = true ∧ (standing.opening = false → standing.recorded = true)

def Standing.expects (standing : Standing) (record : InvocationState) : Bool :=
  if standing.opening then !standing.owning || record.isTerminal
  else decide (record = if standing.recorded then .succeeded else .running)

def Standing.advance (standing : Standing) : (act : Act) → Answer act → Phase
  | .create name, created => if created then .live {standing with mine := name::standing.mine} else .impossible
  | .rename name record, renamed =>
    if renamed then
      .live { standing with
        mine := standing.mine.filter (· ≠ name)
        published := name::standing.published
        recorded := standing.recorded || record.isSome }
    else .impossible
  | .remove name, _ => .live {standing with mine := standing.mine.filter (· ≠ name)}
  | .readManifest, record => if standing.expects record then .live standing else .impossible
  | .tryLock, acquired => .live {standing with locked := acquired}
  | .lock, _ => .live {standing with locked := true}
  | .unlock, _ => .live {standing with locked := false}
  | .tryOwner, acquired => .live {standing with owning := acquired}
  | .releaseOwner, _ => .live {standing with owning := false}
  | .unlink _, _ | .present _, _ => .live standing
  | .snapshotExists name, found => if found = decide (name ∈ standing.published) then .live standing else .impossible

def rules : Discipline Act Answer Phase where
  allowed
    | .live standing, act => standing.allowed act
    | .impossible, _ => True
  advance
    | .live standing, act, answer => standing.advance act answer
    | .impossible, _, _ => .impossible

/-! ### The invocation -/

def Ends {α : Type} (result : α → Standing → Prop) (value : α) (phase : Phase) : Prop :=
  phase = .impossible ∨ ∃ standing, phase = .live standing ∧ result value standing

theorem follows_impossible {α : Type} (program : Proc α) {result : α → Standing → Prop} :
    Follows rules program .impossible (Ends result) := by
  induction program with
  | done value => exact .inl rfl
  | call act next ih => exact ⟨trivial,fun answer => ih answer⟩

theorem follows_then {α β : Type} {first : Proc α} {next : α → Proc β} {phase : Phase} {result : α → Standing → Prop}
    {last : β → Standing → Prop} (before : Follows rules first phase (Ends result))
    (after : ∀ value standing, result value standing → Follows rules (next value) (.live standing) (Ends last)) :
    Follows rules (first >>= next) phase (Ends last) := by
  refine follows_bind.mpr (before.weaken ?_)
  intro value phase ended
  rcases ended with rfl | ⟨standing,rfl,holds⟩
  · exact follows_impossible _
  · exact after value standing holds

theorem follows_last {α : Type} {program : Proc α} {phase : Phase} {result last : α → Standing → Prop}
    (ends : Follows rules program phase (Ends result)) (after : ∀ value standing, result value standing → last value standing) :
    Follows rules program phase (Ends last) := by
  refine ends.weaken ?_
  intro value phase ended
  rcases ended with impossible | ⟨standing,same,holds⟩
  · exact .inl impossible
  · exact .inr ⟨standing,same,after value standing holds⟩

theorem follows_call {β : Type} {act : Act} {next : Answer act → Proc β} {standing : Standing} {last : β → Standing → Prop}
    (allowed : standing.allowed act) (rest : ∀ answer, Follows rules (next answer) (standing.advance act answer) (Ends last)) :
    Follows rules (call act >>= next) (.live standing) (Ends last) := ⟨allowed,rest⟩

def Standing.wrote (standing : Standing) (name : Temporary) (record : Option InvocationState) : Standing :=
  {standing with published := name::standing.published, recorded := standing.recorded || record.isSome}

variable (plan : Plan) (order : List Temporary) {name : Temporary} {holds : Task → Bool} {lock : Option Task} {task : Task}
  {standings : Task → Standing} {state : State} {writer : Standing}

variable {standing : Standing} {record : Option InvocationState} {after : State}

theorem follows_writeAtomic
    (writing : standing.opening = false) (guarded : name.stored = true → standing.locked = true) (clear : standing.mine = [])
    (good : record = none ∨ record = some .succeeded) : Follows rules (writeAtomic name record) (.live standing)
      (Ends fun written after => written = true ∧ after = standing.wrote name record) := by
  refine follows_call ⟨writing,guarded,by simp [clear]⟩ ?_
  intro created
  cases created with
  | false => exact follows_impossible _
  | true =>
    refine follows_call ⟨writing,mem_cons_self,good⟩ ?_
    intro renamed
    cases renamed with
    | false => exact follows_impossible _
    | true =>
      refine .inr ⟨_,rfl,rfl,?_⟩
      simp [Standing.wrote,clear]

def Standing.snapshot (standing : Standing) (testLogs : Option Bool) : Standing :=
  if testLogs = some true then {standing with published := .failedTestEvidence::.failedTestLogs::standing.published} else standing

theorem follows_createTestLogs (writing : standing.opening = false) (clear : standing.mine = [])
    (evidenceFirst : Bool) : Follows rules (createTestLogs evidenceFirst) (.live standing)
      (Ends fun created after => created = true ∧ after = {standing with mine :=
        if evidenceFirst then [.failedTestLogs,.failedTestEvidence] else [.failedTestEvidence,.failedTestLogs]}) := by
  have both (first second : Temporary) (result : Bool → Bool → Bool) (unstored : first.stored = false ∧ second.stored = false)
      (different : second ≠ first) (good : result true true = true) :
      Follows rules ((call (.create first) : Proc Bool) >>= fun x => (call (.create second) : Proc Bool) >>= fun y => pure (result x y))
        (.live standing) (Ends fun created after => created = true ∧ after = {standing with mine := [second,first]}) := by
    refine follows_call ⟨writing,by simp [unstored],by simp [clear]⟩ ?_
    intro created
    cases created with
    | false => exact follows_impossible _
    | true =>
      refine follows_call ⟨writing,by simp [unstored],by simp [clear,different]⟩ ?_
      intro created
      cases created with
      | false => exact follows_impossible _
      | true => exact .inr ⟨_,rfl,good,by simp [clear]⟩
  unfold createTestLogs
  split
  · exact both _ _ (fun evidence raw => raw && evidence) ⟨rfl,rfl⟩ (by decide) rfl
  · exact both _ _ (fun raw evidence => raw && evidence) ⟨rfl,rfl⟩ (by decide) rfl

theorem follows_commitTestLogs {mine : List Temporary} (writing : standing.opening = false)
    (clear : standing.mine = []) (raw : .failedTestLogs ∈ mine) (evidence : .failedTestEvidence ∈ mine)
    (only : ∀ name ∈ mine, name = .failedTestLogs ∨ name = .failedTestEvidence) (copied : Bool) :
    Follows rules (commitTestLogs copied) (.live {standing with mine})
      (Ends fun _ after => after = standing.snapshot (some copied)) := by
  have emptied : (mine.filter (· ≠ .failedTestLogs)).filter (· ≠ .failedTestEvidence) = [] := by
    rw [filter_filter,filter_eq_nil_iff]
    intro name member
    rcases only name member with rfl | rfl <;> simp
  unfold commitTestLogs
  cases copied with
  | true =>
    refine follows_call ⟨writing,raw,.inl rfl⟩ ?_
    intro renamed
    cases renamed with
    | false => exact follows_impossible _
    | true =>
      have left : Temporary.failedTestEvidence ∈ mine.filter (· ≠ .failedTestLogs) := by simp [evidence]
      refine follows_call ⟨writing,left,.inl rfl⟩ ?_
      intro renamed
      cases renamed with
      | false => exact follows_impossible _
      | true =>
        refine .inr ⟨_,rfl,?_⟩
        rw [emptied,← clear]
        simp [Standing.snapshot]
  | false =>
    refine ⟨⟨writing,Bool.noConfusion⟩,fun _ => ⟨⟨writing,Bool.noConfusion⟩,fun _ => .inr ⟨_,rfl,?_⟩⟩⟩
    rw [emptied,← clear]
    rfl

theorem follows_enrichTests (writing : standing.opening = false) (clear : standing.mine = [])
    (raw : .failedTestLogs ∉ standing.published) (evidence : .failedTestEvidence ∉ standing.published) :
    Follows rules (enrichTests plan) (.live standing) (Ends fun _ after => after = standing.snapshot plan.testLogs) := by
  unfold enrichTests
  cases wanted : plan.testLogs with
  | none => exact .inr ⟨_,rfl,rfl⟩
  | some copied =>
    have missing {name : Temporary} {next : Bool → Proc Unit} {result : Unit → Standing → Prop} (absent : name ∉ standing.published)
        (rest : Follows rules (next false) (.live standing) (Ends result)) :
        Follows rules ((call (.snapshotExists name) : Proc Bool) >>= next) (.live standing) (Ends result) := by
      refine follows_call writing ?_
      intro found
      cases found with
      | true => simpa [Standing.advance,absent] using follows_impossible _
      | false => simpa [Standing.advance,absent] using rest
    refine missing raw (missing evidence ?_)
    refine follows_then (follows_createTestLogs writing clear plan.evidenceFirst) ?_
    intro created after ended
    obtain ⟨rfl,rfl⟩ := ended
    refine follows_commitTestLogs writing clear ?_ ?_ ?_ copied
    all_goals cases plan.evidenceFirst <;> decide

/-- The sidecars and the manifest that a commit adds to what is published. -/
def Standing.Grew (before after : Standing) : Prop :=
  ∃ more, after = {before with published := more ++ before.published}

theorem follows_sidecar {standing : Standing} {name : Temporary} (writing : standing.opening = false) (locked : standing.locked = true)
    (clear : standing.mine = []) (wanted : Bool) :
    Follows rules (if wanted then writeAtomic name none else pure true) (.live standing)
      (Ends fun written after => written = true ∧ standing.Grew after) := by
  cases wanted with
  | false => exact .inr ⟨_,rfl,rfl,[],rfl⟩
  | true =>
    refine follows_last (follows_writeAtomic writing (fun _ => locked) clear (.inl rfl)) ?_
    intro written after ended
    obtain ⟨rfl,rfl⟩ := ended
    exact ⟨rfl,[name],by simp [Standing.wrote]⟩

theorem follows_writeSidecars (writing : standing.opening = false)
    (locked : standing.locked = true) (clear : standing.mine = []) :
    Follows rules (writeSidecars plan) (.live standing) (Ends fun written after => written = true ∧ standing.Grew after) := by
  have parts : writeSidecars plan = (if plan.hasArtifacts then writeAtomic .artifacts none else pure true) >>= fun artifacts =>
      if artifacts then (if plan.hasDetails then writeAtomic .details none else pure true) else pure false := by
    unfold writeSidecars
    cases plan.hasArtifacts <;> rfl
  rw [parts]
  refine follows_then (follows_sidecar writing locked clear plan.hasArtifacts) ?_
  intro written after ended
  obtain ⟨rfl,more,rfl⟩ := ended
  rw [if_pos rfl]
  refine follows_last (@follows_sidecar {standing with published := more ++ standing.published} .details writing locked clear _) ?_
  intro written after ended
  obtain ⟨rfl,further,rfl⟩ := ended
  exact ⟨rfl,further ++ more,by simp⟩

def Standing.Committed (before after : Standing) : Prop :=
  ∃ more, after = {before with owning := false, published := more ++ before.published, recorded := true}

theorem follows_commitLocked (writing : standing.opening = false)
    (owning : standing.owning = true) (locked : standing.locked = true) (clear : standing.mine = [])
    (running : standing.recorded = false) : Follows rules (commitLocked plan .succeeded) (.live standing)
      (Ends fun committed after => committed = true ∧ standing.Committed after) := by
  refine follows_call trivial ?_
  intro current
  have expects : standing.expects current = decide (current = .running) := by simp [Standing.expects,writing,running]
  by_cases same : current = .running
  swap
  · simpa [Standing.advance,expects,same] using follows_impossible _
  subst same
  simp only [Standing.advance,expects,decide_true,if_true]
  refine follows_then (follows_writeSidecars plan writing locked clear) ?_
  intro written after ended
  obtain ⟨rfl,more,rfl⟩ := ended
  refine follows_then (follows_writeAtomic writing (fun _ => locked) clear (.inr rfl)) ?_
  intro written after ended
  obtain ⟨rfl,rfl⟩ := ended
  refine follows_call ⟨owning,fun _ => by simp [Standing.wrote]⟩ fun _ => ?_
  exact .inr ⟨_,rfl,rfl,.manifest::more,by simp [Standing.wrote]⟩

theorem follows_finishInvocation (writing : standing.opening = false)
    (owning : standing.owning = true) (free : standing.locked = false) (clear : standing.mine = [])
    (running : standing.recorded = false) : Follows rules (finishInvocation plan .succeeded) (.live standing)
      (Ends fun committed after => committed = true ∧ standing.Committed after) := by
  refine follows_call ⟨free,clear⟩ fun _ => ?_
  refine follows_then (follows_commitLocked plan writing owning rfl clear running) ?_
  intro committed after ended
  obtain ⟨rfl,more,rfl⟩ := ended
  refine follows_call ⟨rfl,clear⟩ fun _ => ?_
  exact .inr ⟨_,rfl,rfl,more,by simp [← free]⟩

/-- What the end of a live invocation leaves: its record and its snapshots. -/
structure Standing.Complete (plan : Plan) (standing : Standing) : Prop where
  recorded : standing.recorded = true
  captured : plan.persists = true → .failureEvidence ∈ standing.published
  raw : plan.testLogs = some true → .failedTestLogs ∈ standing.published
  evidence : plan.testLogs = some true → .failedTestEvidence ∈ standing.published

theorem follows_invocation : Follows rules (invocation plan) (.live {opening := false, owning := true})
    (Ends fun _ after => after.locked = false ∧ (after.opening = false → after.Complete plan)) := by
  let begun : Standing := {opening := false, owning := true, published := if plan.persists then [.failureEvidence] else []}
  have captures : Follows rules (if plan.persists then writeAtomic .failureEvidence none else pure true)
      (.live {opening := false, owning := true}) (Ends fun captured after => captured = true ∧ after = begun) := by
    cases persisted : plan.persists with
    | false => exact .inr ⟨_,rfl,rfl,by simp [begun,persisted]⟩
    | true =>
      refine follows_last (follows_writeAtomic rfl Bool.noConfusion rfl (.inl rfl)) ?_
      intro captured after ended
      obtain ⟨rfl,rfl⟩ := ended
      exact ⟨rfl,by simp [begun,persisted,Standing.wrote]⟩
  have parts : invocation plan = (if plan.persists then writeAtomic .failureEvidence none else pure true) >>= fun captured =>
      if captured then enrichTests plan >>= fun _ => finishInvocation plan .succeeded >>= fun committed =>
        if committed then pure () else recoverTerminalFailure plan
      else recoverTerminalFailure plan := by
    unfold invocation
    cases plan.persists <;> rfl
  rw [parts]
  refine follows_then captures ?_
  intro captured after ended
  obtain ⟨rfl,rfl⟩ := ended
  have raw : Temporary.failedTestLogs ∉ begun.published := by
    dsimp only [begun]
    split <;> decide
  have evidence : Temporary.failedTestEvidence ∉ begun.published := by
    dsimp only [begun]
    split <;> decide
  refine follows_then (follows_enrichTests plan rfl rfl raw evidence) ?_
  intro _ after same
  subst same
  have kept : (begun.snapshot plan.testLogs).opening = false ∧ (begun.snapshot plan.testLogs).owning = true
      ∧ (begun.snapshot plan.testLogs).locked = false ∧ (begun.snapshot plan.testLogs).mine = []
      ∧ (begun.snapshot plan.testLogs).recorded = false := by
    unfold Standing.snapshot
    split <;> exact ⟨rfl,rfl,rfl,rfl,rfl⟩
  obtain ⟨writing,owning,free,clear,running⟩ := kept
  refine follows_then (follows_finishInvocation plan writing owning free clear running) ?_
  intro committed after ended
  obtain ⟨rfl,more,rfl⟩ := ended
  refine .inr ⟨_,rfl,free,fun _ => ⟨rfl,?_,?_,?_⟩⟩
  · intro persisted
    refine mem_append_right _ ?_
    unfold Standing.snapshot
    split <;> simp [begun,persisted]
  · intro copied
    exact mem_append_right _ (by simp [Standing.snapshot,copied])
  · intro copied
    exact mem_append_right _ (by simp [Standing.snapshot,copied])

/-! ### An opening process -/

theorem follows_temporaryFiles (standing : Standing) :
    Follows rules (temporaryFiles order) (.live standing) (Ends fun _ after => after = standing) := by
  induction order with
  | nil => exact .inr ⟨_,rfl,rfl⟩
  | cons name rest ih =>
    refine follows_call trivial fun found => ?_
    refine follows_then ih ?_
    intro others after same
    exact .inr ⟨_,rfl,same⟩

theorem follows_unlinkAll (opening : standing.opening = true) (locked : standing.locked = true)
    (names : List Temporary) : Follows rules (unlinkAll names) (.live standing) (Ends fun _ after => after = standing) := by
  induction names with
  | nil => exact .inr ⟨_,rfl,rfl⟩
  | cons name rest ih =>
    exact follows_call ⟨opening,locked⟩ fun _ => ih

def Standing.waiting : Standing := {opening := true, owning := false}

theorem follows_cleanupTemporaryFiles :
    Follows rules (cleanupTemporaryFiles order) (.live .waiting) (Ends fun _ after => after = .waiting) := by
  refine follows_then (follows_temporaryFiles order .waiting) ?_
  intro temporary after same
  subst same
  split
  · exact .inr ⟨_,rfl,rfl⟩
  refine follows_call ⟨rfl,rfl⟩ ?_
  intro acquired
  cases acquired with
  | false => exact .inr ⟨_,rfl,rfl⟩
  | true =>
    refine follows_then (follows_unlinkAll rfl rfl temporary) ?_
    intro _ after same
    subst same
    exact ⟨⟨rfl,rfl⟩,fun _ => .inr ⟨_,rfl,rfl⟩⟩

/-- The lease is free only once the record is terminal, so nothing is recovered. -/
theorem follows_interruptLocked (opening : standing.opening = true) (owning : standing.owning = true) :
    Follows rules interruptLocked (.live standing) (Ends fun _ after => after = standing) := by
  refine follows_call trivial ?_
  intro current
  cases terminal : current.isTerminal with
  | false => simpa [Standing.advance,Standing.expects,opening,owning,terminal] using follows_impossible _
  | true =>
    simp only [Standing.advance,Standing.expects,opening,terminal,if_true,Bool.or_true]
    exact .inr ⟨_,rfl,rfl⟩

theorem follows_recoverInterrupted :
    Follows rules recoverInterrupted (.live .waiting) (Ends fun _ after => after = .waiting) := by
  refine follows_call ⟨rfl,rfl⟩ ?_
  intro acquired
  cases acquired with
  | false => exact .inr ⟨_,rfl,rfl⟩
  | true =>
    refine follows_call ⟨rfl,rfl⟩ fun _ => ?_
    refine follows_then (follows_interruptLocked rfl rfl) ?_
    intro _ after same
    subst same
    exact ⟨⟨rfl,rfl⟩,fun _ => ⟨⟨rfl,Bool.noConfusion⟩,fun _ => .inr ⟨_,rfl,rfl⟩⟩⟩

theorem follows_openStore : Follows rules (openStore order) (.live .waiting) (Ends fun _ after => after = .waiting) := by
  refine follows_call trivial fun indexed => ?_
  refine follows_then (follows_cleanupTemporaryFiles order) ?_
  intro _ after same
  subst same
  split
  · exact .inr ⟨_,rfl,rfl⟩
  · exact follows_recoverInterrupted

/-! ### What every step keeps -/

def Held (holds : Task → Bool) (lock : Option Task) : Prop := ∀ task, holds task = true ↔ lock = some task

theorem Held.taken (held : Held holds lock) (free : lock = none) : Held (Function.update holds task true) (some task) := by
  intro other
  by_cases same : other = task
  · subst other
    simp
  · rw [update_of_ne same,held other,free]
    simp [Ne.symm same]

theorem Held.released (held : Held holds lock) (own : holds task = true) : Held (Function.update holds task false) none := by
  intro other
  by_cases same : other = task
  · subst other
    simp
  · rw [update_of_ne same,held other,(held task).mp own]
    simp [Ne.symm same]

theorem Held.unchanged {same : Bool} (held : Held holds lock)
    (kept : same = holds task) : Held (Function.update holds task same) lock := by
  rw [kept,update_eq_self]
  exact held

structure Locks (standings : Task → Standing) (state : State) : Prop where
  kind (task : Task) : (standings task).opening = decide (task ≠ .invocation)
  mutation : Held (fun task => (standings task).locked) state.mutation
  owner : Held (fun task => (standings task).owning) state.owner

section
variable (locks : Locks standings state)
include locks

theorem Locks.writing (opening : (standings task).opening = false) : task = .invocation := by
  rw [locks.kind] at opening
  simpa using opening

theorem Locks.opening (opening : (standings task).opening = true) : task ≠ .invocation := by
  rw [locks.kind] at opening
  simpa using opening

variable {next : Standing} (kind : next.opening = (standings task).opening)
include kind

theorem Locks.update (mutation : Held (Function.update (fun task => (standings task).locked) task next.locked) after.mutation)
    (owner : Held (Function.update (fun task => (standings task).owning) task next.owning) after.owner) :
    Locks (Function.update standings task next) after := by
  have field (get : Standing → Bool) (other : Task) :
      get (Function.update standings task next other) = Function.update (fun task => get (standings task)) task (get next) other := by
    by_cases same : other = task
    · subst other
      simp
    · simp [same]
  refine ⟨?_,?_,?_⟩
  · intro other
    rw [field Standing.opening,kind,update_eq_self]
    exact locks.kind other
  · intro other
    change (Function.update standings task next other).locked = true ↔ _
    rw [field Standing.locked]
    exact mutation other
  · intro other
    change (Function.update standings task next other).owning = true ↔ _
    rw [field Standing.owning]
    exact owner other

theorem Locks.same (locked : next.locked = (standings task).locked)
    (owning : next.owning = (standings task).owning) (mutation : after.mutation = state.mutation) (owner : after.owner = state.owner) :
    Locks (Function.update standings task next) after := by
  refine locks.update kind ?_ ?_
  · rw [mutation]
    exact locks.mutation.unchanged locked
  · rw [owner]
    exact locks.owner.unchanged owning

end

/-- The files are the invocation's own or were left by a dead writer. -/
structure Files (writer : Standing) (state : State) : Prop where
  written {name : Temporary} : name ∈ writer.mine → state.temporary name = some (.live .invocation)
  made {name : Temporary} {creator : Writer} : state.temporary name = some creator → creator = .dead ∨ name ∈ writer.mine
  record : state.record = if writer.recorded then .succeeded else .running
  published (name : Temporary) : state.published name = decide (name ∈ writer.published)
  guarded {name : Temporary} : name ∈ writer.mine → name.stored = true → writer.locked = true
  released : writer.owning = false → writer.recorded = true

section
variable (files : Files writer state)
include files

theorem Files.unlinked (spared : name ∉ writer.mine) :
    Files writer {state with temporary := Function.update state.temporary name none} where
  written {other} member := by
    have different : other ≠ name := fun same => spared (same ▸ member)
    exact (update_of_ne different _ _).trans (files.written member)
  made {other _} found := by
    by_cases same : other = name
    · subst other
      simp at found
    · simp only [update_of_ne same] at found
      exact files.made found
  record := files.record
  published := files.published
  guarded := files.guarded
  released := files.released

theorem Files.created (guarded : name.stored = true → writer.locked = true) :
    Files {writer with mine := name::writer.mine}
      {state with temporary := Function.update state.temporary name (some (.live .invocation))} where
  written {other} member := by
    by_cases same : other = name
    · subst other
      simp
    · have earlier : other ∈ writer.mine := (mem_cons.mp member).resolve_left same
      exact (update_of_ne same _ _).trans (files.written earlier)
  made {other _} found := by
    by_cases same : other = name
    · subst other
      exact .inr mem_cons_self
    · simp only [update_of_ne same] at found
      exact (files.made found).imp_right (mem_cons_of_mem _)
  record := files.record
  published := files.published
  guarded {other} member stored := by
    rcases mem_cons.mp member with rfl | earlier
    · exact guarded stored
    · exact files.guarded earlier stored
  released := files.released

theorem Files.removed :
    Files {writer with mine := writer.mine.filter (· ≠ name)}
      {state with temporary := Function.update state.temporary name none} where
  written {other} member := by
    obtain ⟨earlier,different⟩ := mem_filter.mp member
    exact (update_of_ne (of_decide_eq_true different) _ _).trans (files.written earlier)
  made {other _} found := by
    by_cases same : other = name
    · subst other
      simp at found
    · simp only [update_of_ne same] at found
      exact (files.made found).imp_right fun earlier => mem_filter.mpr ⟨earlier,decide_eq_true same⟩
  record := files.record
  published := files.published
  guarded member stored := files.guarded (mem_of_mem_filter member) stored
  released := files.released

theorem Files.renamed (good : record = none ∨ record = some .succeeded) :
    Files { writer with
        mine := writer.mine.filter (· ≠ name)
        published := name::writer.published
        recorded := writer.recorded || record.isSome }
      { state with
        temporary := Function.update state.temporary name none
        published := Function.update state.published name true
        record := record.getD state.record } where
  written := files.removed.written
  made := files.removed.made
  record := by
    rcases good with rfl | rfl
    · simp [files.record]
    · simp
  published other := by
    by_cases same : other = name
    · subst other
      simp
    · simp [same,files.published]
  guarded := files.removed.guarded
  released free := by
    rw [files.released free]
    rfl

end

theorem Files.locks {standings : Task → Standing} {state : State} (files : Files (standings .invocation) state) (task : Task)
    {locked owning : Bool} (mutation owner : Option Task) (guarded : locked = (standings task).locked ∨ (standings task).mine = [])
    (released : owning = (standings task).owning ∨ (task = .invocation → owning = false → (standings task).recorded = true)) :
    Files (Function.update standings task {standings task with locked, owning} .invocation) {state with mutation, owner} := by
  by_cases same : task = .invocation
  · subst task
    rw [update_self]
    refine ⟨files.written,files.made,files.record,files.published,?_,?_⟩
    · intro name member stored
      rcases guarded with kept | clear
      · exact kept.trans (files.guarded member stored)
      · change name ∈ (standings .invocation).mine at member
        rw [clear] at member
        cases member
    · intro free
      rcases released with kept | recorded
      · exact files.released (kept.symm.trans free)
      · exact recorded rfl free
  · rw [update_of_ne (Ne.symm same)]
    exact ⟨files.written,files.made,files.record,files.published,files.guarded,files.released⟩

section
variable (locks : Locks standings state) (files : Files (standings .invocation) state)
include locks files

/-- A cleanup holds the mutation lock, so no file of the store is being written;
the files of the runner are spared. -/
theorem Files.spared (other : task ≠ .invocation)
    (locked : (standings task).locked = true) (permitted : sparing task (.unlink name) state () after = true) :
    name ∉ (standings .invocation).mine := by
  intro member
  rcases Bool.or_eq_true_iff.mp permitted with stored | spared
  · have mine : state.mutation = some .invocation := (locks.mutation .invocation).mp (files.guarded member stored)
    have own : state.mutation = some task := (locks.mutation task).mp locked
    rw [mine] at own
    exact other (Option.some.inj own).symm
  · exact of_decide_eq_true spared (files.written member)

theorem Locks.expects (task : Task) : (standings task).expects state.record = true := by
  unfold Standing.expects
  cases opening : (standings task).opening with
  | false =>
    obtain rfl := locks.writing opening
    exact decide_eq_true files.record
  | true =>
    cases owning : (standings task).owning with
    | false => rfl
    | true =>
      have free : (standings .invocation).owning = false := by
        by_contra owned
        have mine : state.owner = some .invocation := (locks.owner .invocation).mp (by simpa using owned)
        have own : state.owner = some task := (locks.owner task).mp owning
        rw [mine] at own
        exact locks.opening opening (Option.some.inj own).symm
      rw [files.record,files.released free]
      rfl

theorem advance_sound {act : Act} {answer : Answer act} (allowed : (standings task).allowed act)
    (own : Own effect sparing task act state answer after) :
    ∃ next, (standings task).advance act answer = .live next ∧ Locks (Function.update standings task next) after ∧
      Files (Function.update standings task next .invocation) after := by
  obtain ⟨possible,permitted⟩ := own
  cases act with
  | create name =>
    obtain ⟨writing,guarded,_⟩ := allowed
    obtain rfl := locks.writing writing
    cases (permitted : answer = true)
    simp only [effect] at possible
    split at possible
    · simp at possible
    cases mem_singleton.mp possible
    refine ⟨_,rfl,locks.same rfl rfl rfl rfl rfl,?_⟩
    rw [update_self]
    exact files.created guarded
  | rename name record =>
    obtain ⟨writing,mine,good⟩ := allowed
    obtain rfl := locks.writing writing
    simp only [effect,files.written mine,Option.isSome_some,if_true] at possible
    cases mem_singleton.mp possible
    refine ⟨_,rfl,locks.same rfl rfl rfl rfl rfl,?_⟩
    rw [update_self]
    exact files.renamed good
  | remove name =>
    obtain ⟨writing,_⟩ := allowed
    obtain rfl := locks.writing writing
    cases mem_singleton.mp possible
    refine ⟨_,rfl,locks.same rfl rfl rfl rfl rfl,?_⟩
    rw [update_self]
    exact files.removed
  | unlink name =>
    obtain ⟨opening,locked⟩ := allowed
    have other := locks.opening opening
    have spared := Files.spared locks files other locked permitted
    cases mem_singleton.mp possible
    refine ⟨_,rfl,locks.same rfl rfl rfl rfl rfl,?_⟩
    rw [update_eq_self]
    exact files.unlinked spared
  | present name =>
    cases mem_singleton.mp possible
    refine ⟨_,rfl,?_⟩
    rw [update_eq_self]
    exact ⟨locks,files⟩
  | snapshotExists name =>
    obtain rfl := locks.writing allowed
    cases mem_singleton.mp possible
    refine ⟨_,if_pos (files.published name),?_⟩
    rw [update_eq_self]
    exact ⟨locks,files⟩
  | readManifest =>
    cases mem_singleton.mp possible
    refine ⟨_,if_pos (locks.expects files task),?_⟩
    rw [update_eq_self]
    exact ⟨locks,files⟩
  | tryLock =>
    simp only [effect] at possible
    split at possible
    · rename_i free
      cases mem_singleton.mp possible
      refine ⟨_,rfl,locks.update rfl (locks.mutation.taken free) (locks.owner.unchanged rfl),?_⟩
      exact files.locks task _ _ (.inr allowed.2) (.inl rfl)
    · cases mem_singleton.mp possible
      refine ⟨_,rfl,locks.same rfl allowed.1.symm rfl rfl rfl,?_⟩
      exact files.locks task _ _ (.inr allowed.2) (.inl rfl)
  | lock =>
    simp only [effect] at possible
    split at possible
    · rename_i free
      cases mem_singleton.mp possible
      refine ⟨_,rfl,locks.update rfl (locks.mutation.taken free) (locks.owner.unchanged rfl),?_⟩
      exact files.locks task _ _ (.inr allowed.2) (.inl rfl)
    · cases possible
  | unlock =>
    cases mem_singleton.mp possible
    refine ⟨_,rfl,locks.update rfl (locks.mutation.released allowed.1) (locks.owner.unchanged rfl),?_⟩
    exact files.locks task _ _ (.inr allowed.2) (.inl rfl)
  | tryOwner =>
    have other := locks.opening allowed.1
    simp only [effect] at possible
    split at possible
    · rename_i free
      cases mem_singleton.mp possible
      refine ⟨_,rfl,locks.update rfl (locks.mutation.unchanged rfl) (locks.owner.taken free),?_⟩
      exact files.locks task _ _ (.inl rfl) (.inr fun same => absurd same other)
    · cases mem_singleton.mp possible
      refine ⟨_,rfl,locks.same rfl rfl allowed.2.symm rfl rfl,?_⟩
      exact files.locks task _ _ (.inl rfl) (.inl allowed.2.symm)
  | releaseOwner =>
    cases mem_singleton.mp possible
    refine ⟨_,rfl,locks.update rfl (locks.mutation.unchanged rfl) (locks.owner.released allowed.1),?_⟩
    refine files.locks task _ _ (.inl rfl) (.inr fun same _ => allowed.2 ?_)
    rw [locks.kind,same]
    rfl

end

end BazelMcp.Cleanup

import BazelMcp.IndexUpdates
import BazelMcp.Ownership

/-! Orphans are recovered exactly: recovery interrupts only invocations whose creator died
or gave up, and a store that was opened, or has enforced retention, has missed none of
those that it looked for. -/
namespace BazelMcp.Store
open StoreIndex Tasks Typestate Function List

variable {ι π : Type}

/-- How far a task has got with the invocations it looks at. -/
structure Survey where
  scanned : List Uuid
  settled : List Uuid
  skipped : List Uuid
  responded : Bool

def survey (phase : Phase π) : Survey := ⟨phase.scanned,phase.settled,phase.skipped,phase.responded⟩

section Surveys
variable [DecidableEq ι] {home : ι → π} {task : ι} {phase : Phase π} {world after : World ι π}

/-- What an act does to a survey and to the records of surveys. -/
inductive Surveying (home : ι → π) (task : ι) (phase : Phase π) (world : World ι π) : Survey → World ι π → Prop
  | still {after : World ι π} (scans : after.scans = world.scans) (responses : after.responses = world.responses) :
      Surveying home task phase world (survey phase) after
  | settles {after : World ι π} {id : Uuid} (scans : after.scans = world.scans) (responses : after.responses = world.responses)
      (ended : ∀ durable, after.manifest id = some durable → durable.ended = true) :
      Surveying home task phase world {survey phase with settled := id::phase.settled} after
  | skips {id : Uuid} {inode : Nat} (may : phase.MayLock ⟨.owner id,inode⟩) (held : world.holders ⟨.owner id,inode⟩ ≠ none) :
      Surveying home task phase world {survey phase with skipped := id::phase.skipped} world
  | looks {ids : List Uuid} (unanswered : phase.responded = false) (unlooked : phase.scanned = [])
      (known : ∀ id ∈ ids, (world.index (home task)).lookup id ≠ none) :
      Surveying home task phase world {survey phase with scanned := ids, settled := [], skipped := []}
        {world with scans := ⟨task,ids,world.alive⟩::world.scans}
  | answers {succeeded : Bool} (accounted : succeeded = true → phase.Accounted) :
      Surveying home task phase world {survey phase with responded := true}
        {world with responses := Function.update world.responses task (some succeeded)}

theorem nonterminal_known {index : Index} {id : Uuid} (member : id ∈ Index.nonterminalIds index) : index.lookup id ≠ none := by
  obtain ⟨_,chosen⟩ := mem_filter.mp member
  intro absent
  rw [absent] at chosen
  cases chosen

theorem survey_settling {id : Uuid} {ended : Bool} {other : Phase π} (settled : other.settled = phase.settling id ended)
    (scanned : other.scanned = phase.scanned) (skipped : other.skipped = phase.skipped) (responded : other.responded = phase.responded)
    (scans : after.scans = world.scans) (responses : after.responses = world.responses)
    (isEnded : ended = true → ∀ durable, after.manifest id = some durable → durable.ended = true) :
    Surveying home task phase world (survey other) after := by
  have same : survey other = ⟨phase.scanned,phase.settling id ended,phase.skipped,phase.responded⟩ := by
    unfold survey
    rw [settled,scanned,skipped,responded]
  rw [same]
  cases ended with
  | false => exact .still scans responses
  | true => exact .settles scans responses (isEnded rfl)

variable [DecidableEq π]

theorem surveying {act : Act π} {answer : Answer act} (allowed : phase.Allowed act) (outcome : Outcome home task world act answer after) :
    Surveying home task phase world (survey (phase.advance act answer)) after := by
  cases outcome with
  | quiet still unmoved =>
    rw [still]
    exact .still unmoved.scans unmoved.responses
  | fault failed =>
    rw [failed]
    exact .still rfl rfl
  | aside beside =>
    cases beside with
    | opens | locks | takes | unlocks =>
      rcases path_aside ‹_› with ⟨id,rfl⟩ | rfl
      · exact .still rfl rfl
      · exact .still rfl rfl
    | @misses path inode other held =>
      cases path with
      | mutation id => exact absurd rfl (other id)
      | owner id => exact .skips allowed held
      | maintenance => exact .still rfl rfl
    | scans => exact .looks allowed.2.1 allowed.2.2 fun _ member => nonterminal_known member
    | responds succeeded => exact .answers allowed
    | places id files =>
      cases files with
      | _ => exact .still rfl rfl
    | unlinks | retains | releases | abandons | clocks => exact .still rfl rfl
  | lists all unmoved =>
    change Surveying home task phase world (survey (phase.listed _)) _
    rw [listed_same survey phase fun _ _ _ => rfl]
    exact .still unmoved.scans unmoved.responses
  | @reads id durable bytes found =>
    refine @survey_settling ι π _ home task phase world world id (durable.ended && phase.grip.guards id) _ rfl rfl rfl rfl rfl rfl ?_
    intro seen other present
    rw [found] at present
    cases present
    exact (Bool.and_eq_true_iff.mp seen).1
  | @lacks id absent =>
    refine @survey_settling ι π _ home task phase world world id (phase.grip.guards id) _ rfl rfl rfl rfl rfl rfl ?_
    intro _ other present
    rw [absent] at present
    cases present
  | @writes id read written cause bytes present =>
    have fields : (phase.wrote id read written (.ok bytes)).settled = phase.settling id written.ended ∧
        (phase.wrote id read written (.ok bytes)).scanned = phase.scanned ∧
        (phase.wrote id read written (.ok bytes)).skipped = phase.skipped ∧
        (phase.wrote id read written (.ok bytes)).responded = phase.responded := by
      unfold Phase.wrote
      dsimp only
      split
      · exact ⟨rfl,rfl,rfl,rfl⟩
      · exact ⟨rfl,rfl,rfl,rfl⟩
    obtain ⟨settled,scanned,skipped,responded⟩ := fields
    refine survey_settling settled scanned skipped responded rfl rfl ?_
    intro ended other found
    rw [manifest_write_self] at found
    cases found
    exact ended
  | updates change =>
    change Surveying home task phase world (survey (phase.updated change _)) _
    rw [updated_same survey phase fun _ _ _ _ _ => rfl]
    exact .still rfl rfl
  | _ => exact .still rfl rfl

end Surveys
/-- The identifier was drawn and its manifest, if there is none, will never be created. -/
def Issued (phases : ι → Phase π) (world : World ι π) (id : Uuid) : Prop :=
  id ∈ world.drawn ∧ ∀ task, (phases task).drawn ≠ some id

def Over (home : ι → π) (phases : ι → Phase π) (world : World ι π) : Uuid → Prop :=
  Lockfiles.Lasting (fun durable => durable.ended = true) (fun task => seat (phases task)) (shelf home world)

/-- Indexes, refreshes and surveys know of issued identifiers only. -/
structure Indexed (phases : ι → Phase π) (world : World ι π) : Prop where
  indexed : ∀ process id, (world.index process).lookup id ≠ none → Issued phases world id
  loading : ∀ task changes remaining known id, (phases task).refresh = .loading changes remaining known → known id ≠ none →
    Issued phases world id
  scanned : ∀ task, ∀ id ∈ (phases task).scanned, Issued phases world id

/-- What holds along every run of those that look for orphans. -/
structure Looked (home : ι → π) (phases : ι → Phase π) (world : World ι π) : Prop where
  settled : ∀ task, ∀ id ∈ (phases task).scanned, id ∈ (phases task).settled → Over home phases world id
  living : ∀ scan ∈ world.scans, ∀ process, world.alive process = true → scan.alive process = true
  ids : ∀ scan ∈ world.scans, ∀ id ∈ scan.ids, id ∈ (phases scan.task).scanned
  skipped : ∀ scan ∈ world.scans, ∀ id ∈ (phases scan.task).skipped, ∃ process, world.creators id = some process ∧ scan.alive process = true
  responded : ∀ task, world.responses task ≠ none → (phases task).responded = true
  accounted : ∀ task, world.responses task = some true → (phases task).Accounted

section Looking
variable {home : ι → π} {phases : ι → Phase π} {task : ι} {world after : World ι π} {initial : Uuid → Option DurableRecord} {id : Uuid}

theorem issued_of_manifest (guarded : Guarded home initial phases world) (present : world.manifest id ≠ none) :
    Issued phases world id :=
  ⟨Lockfiles.Sound.used guarded id present,fun task => Lockfiles.Sound.unborn guarded present task⟩

theorem introduced_issued (guarded : Guarded home initial phases world) (alive : world.alive (home task) = true) (indexed : Indexed phases world)
    {change : IndexUpdate} (may : (phases task).MayUpdate change) (new : change.Introduces id) : Issued phases world id := by
  have shown {durable : DurableRecord} (knows : (phases task).Knows id (some durable)) : Issued phases world id := by
    apply issued_of_manifest guarded
    rw [guarded.known alive knows]
    nofun
  cases change with
  | insert key entry =>
    obtain ⟨durable,knows,_⟩ := may
    have same : id = key := new
    subst same
    exact shown knows
  | replace key entry generation =>
    obtain ⟨durable,⟨knows,_⟩,_⟩ := may
    have same : id = key := new
    subst same
    exact shown knows
  | replaceAll recovered => exact indexed.scanned task id (may.2 id new)
  | install refreshed =>
    obtain ⟨changes,known,loaded,isLoading,loads,merged⟩ := may
    apply indexed.loading task changes [] known id isLoading
    intro absent
    obtain ⟨bytes,found⟩ := loads.2 id
    apply new
    rw [merged,StoreIndex.Index.lookup_mergePendingTelemetry,found,absent]
    rfl
  | remove | lose | remeasure | record | flushed | unschedule => exact new.elim

theorem refused (owned : Owned home phases world) (alive : world.alive (home task) = true) {inode : Nat}
    (may : (phases task).MayLock ⟨.owner id,inode⟩) (held : world.holders ⟨.owner id,inode⟩ ≠ none) :
    ∃ process, world.creators id = some process ∧ world.alive process = true := by
  obtain ⟨_,unowned,drawn | maintaining⟩ := may
  · exact ⟨home task,owned.sound.born task id (owned.drawn task id drawn),alive⟩
  have free : (desk (phases task)).owning = none := by
    unfold desk
    rw [unowned]
    rfl
  exact owned.sound.tenant alive maintaining free held

variable [DecidableEq ι] [DecidableEq π] {act : Act π} {answer : Answer act}

theorem issued_step (outcome : Outcome home task world act answer after) (issued : Issued phases world id) :
    Issued (Function.update phases task ((phases task).advance act answer)) after id := by
  obtain ⟨used,unborn⟩ := issued
  rcases outcome.drawn (phases task) with ⟨same,_,_,older⟩ | ⟨fresh,_,unused,grown,_,isFresh,_⟩
  · refine ⟨same ▸ used,?_⟩
    intro other
    by_cases own : other = task
    · subst own
      rw [update_self]
      exact fun drawn => unborn other (older id drawn)
    · rw [update_of_ne own]
      exact unborn other
  refine ⟨grown ▸ mem_cons_of_mem _ used,?_⟩
  intro other
  by_cases own : other = task
  · subst own
    rw [update_self,isFresh]
    intro same
    cases same
    exact unused used
  · rw [update_of_ne own]
    exact unborn other

theorem over_step (guarded : Guarded home initial phases world) (alive : world.alive (home task) = true)
    (allowed : (phases task).Allowed act) (outcome : Outcome home task world act answer after)
    (isOver : Over home phases world id) : Over home (Function.update phases task ((phases task).advance act answer)) after id :=
  lasting_step guarded alive allowed outcome (fun _ _ _ succeeds ended => succeeds.ended ended) isOver

theorem indexed_step (guarded : Guarded home initial phases world) (indexed : Indexed phases world) (alive : world.alive (home task) = true)
    (allowed : (phases task).Allowed act) (outcome : Outcome home task world act answer after) :
    Indexed (Function.update phases task ((phases task).advance act answer)) after := by
  have issued {id : Uuid} (before : Issued phases world id) := issued_step outcome before
  refine ⟨?_,?_,?_⟩
  · intro process id present
    rcases outcome.index with same | ⟨change,isAct,grown⟩
    · exact issued (indexed.indexed process id (same ▸ present))
    subst isAct
    rw [grown] at present
    by_cases own : process = home task
    · subst own
      rw [update_self] at present
      rcases IndexUpdate.introduced present with before | new
      · exact issued (indexed.indexed (home task) id before)
      · exact issued (introduced_issued guarded alive indexed allowed new)
    · rw [update_of_ne own] at present
      exact issued (indexed.indexed process id present)
  · intro other changes remaining known id loading present
    by_cases own : other = task
    · subst own
      rw [update_self] at loading
      rcases outcome.loading loading present with there | ⟨remaining,known,before,known⟩
      · exact issued (issued_of_manifest guarded there)
      · exact issued (indexed.loading other _ _ _ id before known)
    · rw [update_of_ne own] at loading
      exact issued (indexed.loading other changes remaining known id loading present)
  · intro other id member
    by_cases own : other = task
    · subst own
      rw [update_self] at member
      have surveyed := surveying allowed outcome
      generalize isSurvey : survey ((phases other).advance act answer) = found at surveyed
      have within : id ∈ found.scanned := isSurvey ▸ member
      cases surveyed with
      | looks unanswered unlooked known => exact issued (indexed.indexed _ id (known id within))
      | still | settles | skips | answers => exact issued (indexed.scanned other id within)
    · rw [update_of_ne own] at member
      exact issued (indexed.scanned other id member)

end Looking

/-- A survey that goes on: it settles and skips more, and may answer. -/
structure Surveys (before after : Survey) (settles : Uuid → Prop) (skips : Uuid → Prop) : Prop where
  scanned : after.scanned = before.scanned := by rfl
  settled : ∀ id ∈ after.settled, id ∈ before.settled ∨ settles id
  stillSettled : ∀ id ∈ before.settled, id ∈ after.settled
  skipped : ∀ id ∈ after.skipped, id ∈ before.skipped ∨ skips id
  stillSkipped : ∀ id ∈ before.skipped, id ∈ after.skipped
  responded : before.responded = true → after.responded = true

variable (found : Survey) {settles : Uuid → Prop}

theorem Surveys.refl (settles skips : Uuid → Prop) : Surveys found found settles skips where
  settled _ member := .inl member
  stillSettled _ member := member
  skipped _ member := .inl member
  stillSkipped _ member := member
  responded holds := holds

theorem Surveys.settle {skips : Uuid → Prop} {id : Uuid} (holds : settles id) :
    Surveys found {found with settled := id::found.settled} settles skips :=
  { Surveys.refl found settles skips with
    settled := by
      intro other member
      rcases mem_cons.mp member with new | old
      · exact .inr (new ▸ holds)
      · exact .inl old
    stillSettled := fun _ member => mem_cons_of_mem _ member }

theorem Surveys.skip {skips : Uuid → Prop} {id : Uuid} (holds : skips id) :
    Surveys found {found with skipped := id::found.skipped} settles skips :=
  { Surveys.refl found settles skips with
    skipped := by
      intro other member
      rcases mem_cons.mp member with new | old
      · exact .inr (new ▸ holds)
      · exact .inl old
    stillSkipped := fun _ member => mem_cons_of_mem _ member }

theorem Surveys.answer (settles skips : Uuid → Prop) : Surveys found {found with responded := true} settles skips :=
  {Surveys.refl found settles skips with responded := fun _ => rfl}

section Looking
variable {home : ι → π} {phases next : ι → Phase π} {world after : World ι π}

theorem Looked.continue (looked : Looked home phases world)
    (surveys : ∀ task, Surveys (survey (phases task)) (survey (next task)) (fun id => Issued phases world id → Over home next after id)
      fun id => ∃ process, world.creators id = some process ∧ world.alive process = true)
    (issued : ∀ task, ∀ id ∈ (phases task).scanned, Issued phases world id)
    (isOver : ∀ id, Over home phases world id → Over home next after id)
    (living : ∀ process, after.alive process = true → world.alive process = true)
    (creators : ∀ id process, world.creators id = some process → after.creators id = some process) (scans : after.scans = world.scans)
    (answered : ∀ task, after.responses task ≠ none → world.responses task ≠ none ∨ (next task).responded = true)
    (accounted : ∀ task, after.responses task = some true → world.responses task = some true ∨ (phases task).Accounted) :
    Looked home next after where
  settled task id scanned settled := by
    have same : (next task).scanned = (phases task).scanned := (surveys task).scanned
    have before : id ∈ (phases task).scanned := same ▸ scanned
    rcases (surveys task).settled id settled with old | new
    · exact isOver id (looked.settled task id before old)
    · exact new (issued task id before)
  living scan member process alive := looked.living scan (scans ▸ member) process (living process alive)
  ids scan member id scanned := by
    rw [show (next scan.task).scanned = (phases scan.task).scanned from (surveys scan.task).scanned]
    exact looked.ids scan (scans ▸ member) id scanned
  skipped scan member id skipped := by
    rcases (surveys scan.task).skipped id skipped with old | ⟨process,created,alive⟩
    · obtain ⟨process,created,alive⟩ := looked.skipped scan (scans ▸ member) id old
      exact ⟨process,creators id process created,alive⟩
    · exact ⟨process,creators id process created,looked.living scan (scans ▸ member) process alive⟩
  responded task told := (answered task told).elim (fun before => (surveys task).responded (looked.responded task before)) id
  accounted task told id member := by
    have before : (phases task).Accounted := (accounted task told).elim (looked.accounted task) fun holds => holds
    have same : (next task).scanned = (phases task).scanned := (surveys task).scanned
    have scanned : id ∈ (phases task).scanned := same ▸ member
    exact (before id scanned).imp ((surveys task).stillSettled id) ((surveys task).stillSkipped id)

variable [DecidableEq ι] [DecidableEq π] {task : ι} {act : Act π} {answer : Answer act} {initial : Uuid → Option DurableRecord}

theorem looked_step (guarded : Guarded home initial phases world) (owned : Owned home phases world) (indexed : Indexed phases world)
    (looked : Looked home phases world) (alive : world.alive (home task) = true) (allowed : (phases task).Allowed act)
    (outcome : Outcome home task world act answer after) :
    Looked home (Function.update phases task ((phases task).advance act answer)) after := by
  have surveyed := surveying allowed outcome
  have creators (id : Uuid) (process : π) (created : world.creators id = some process) : after.creators id = some process := by
    rcases outcome.drawn (phases task) with ⟨_,same,_⟩ | ⟨fresh,_,unused,_,grown,_⟩
    · exact same ▸ created
    have different : id ≠ fresh := by
      intro same
      subst same
      apply unused
      apply owned.created
      rw [created]
      nofun
    rw [grown,update_of_ne different]
    exact created
  have isOver (id : Uuid) (before : Over home phases world id) := over_step guarded alive allowed outcome before
  have issued {id : Uuid} (before : Issued phases world id) := issued_step outcome before
  have living (process : π) (lives : after.alive process = true) : world.alive process = true := outcome.alive lives
  generalize (phases task).advance act answer = phase at *
  -- The surveys of the other tasks are as they were.
  have others {settles skips : Uuid → Prop} (own : Surveys (survey (phases task)) (survey phase) settles skips) (other : ι) :
      Surveys (survey (phases other)) (survey (Function.update phases task phase other)) settles skips := by
    by_cases same : other = task
    · subst same
      rw [update_self]
      exact own
    · rw [update_of_ne same]
      exact .refl _ _ _
  generalize isSurvey : survey phase = found at surveyed others
  cases surveyed with
  | still scans responses =>
    exact looked.continue (others (.refl _ _ _)) indexed.scanned isOver living creators scans (fun _ told => .inl (responses ▸ told))
      fun _ told => .inl (responses ▸ told)
  | settles scans responses ended =>
    refine looked.continue (others ?_) indexed.scanned isOver living creators scans (fun _ told => .inl (responses ▸ told))
      fun _ told => .inl (responses ▸ told)
    apply Surveys.settle
    intro before
    rename_i id
    cases isManifest : after.manifest id with
    | none => exact .inr ⟨(issued before).1,isManifest,(issued before).2⟩
    | some durable => exact .inl ⟨durable,isManifest,ended durable isManifest⟩
  | skips may held =>
    exact looked.continue (others (.skip _ (refused owned alive may held))) indexed.scanned isOver living creators rfl
      (fun _ told => .inl told) fun _ told => .inl told
  | @answers succeeded accounted =>
    refine looked.continue (others (.answer _ _ _)) indexed.scanned isOver living
      creators rfl ?_ ?_
    · intro other told
      change Function.update world.responses task (some succeeded) other ≠ none at told
      by_cases same : other = task
      · subst same
        right
        rw [update_self]
        exact congrArg Survey.responded isSurvey
      · rw [update_of_ne same] at told
        exact .inl told
    · intro other told
      change Function.update world.responses task (some succeeded) other = some true at told
      by_cases same : other = task
      · subst same
        rw [update_self] at told
        exact .inr (accounted (Option.some.inj told))
      · rw [update_of_ne same] at told
        exact .inl told
  | @looks ids unanswered unlooked known =>
    have scanned : phase.scanned = ids := congrArg Survey.scanned isSurvey
    have settled : phase.settled = [] := congrArg Survey.settled isSurvey
    have skipped : phase.skipped = [] := congrArg Survey.skipped isSurvey
    have responded : phase.responded = (phases task).responded := congrArg Survey.responded isSurvey
    refine ⟨?_,?_,?_,?_,?_,?_⟩
    · intro other id isScanned isSettled
      by_cases same : other = task
      · subst same
        rw [update_self,settled] at isSettled
        cases isSettled
      · rw [update_of_ne same] at isScanned isSettled
        exact isOver id (looked.settled other id isScanned isSettled)
    · intro scan member process lives
      rcases mem_cons.mp member with new | old
      · rw [new]
        exact lives
      · exact looked.living scan old process lives
    · intro scan member id isScanned
      rcases mem_cons.mp member with new | old
      · subst new
        rw [update_self,scanned]
        exact isScanned
      have before := looked.ids scan old id isScanned
      by_cases same : scan.task = task
      · rw [same,unlooked] at before
        cases before
      · rw [update_of_ne same]
        exact before
    · intro scan member id isSkipped
      by_cases same : scan.task = task
      · rw [same,update_self,skipped] at isSkipped
        cases isSkipped
      rw [update_of_ne same] at isSkipped
      rcases mem_cons.mp member with new | old
      · rw [new] at same
        exact absurd rfl same
      · exact looked.skipped scan old id isSkipped
    · intro other told
      by_cases same : other = task
      · subst same
        rw [update_self,responded]
        exact looked.responded other told
      · rw [update_of_ne same]
        exact looked.responded other told
    · intro other told
      by_cases same : other = task
      · subst same
        have answered := looked.responded other (by rw [show world.responses other = some true from told]; nofun)
        rw [unanswered] at answered
        cases answered
      · rw [update_of_ne same]
        exact looked.accounted other told

end Looking
/-! ### Runs -/

/-- A cache before any task has begun: live processes hold the owner locks of the
invocations that they created and that still run, and of no others. -/
structure Orderly (home : ι → π) (world : World ι π) : Prop extends Untouched world where
  leased : ∀ process id inode, world.alive process = true → world.leases process id = some inode →
    world.creators id = some process ∧ ∃ task, home task = process ∧ world.holders ⟨.owner id,inode⟩ = some task
  held : ∀ id inode task, world.holders ⟨.owner id,inode⟩ = some task →
    world.alive (home task) = true ∧ world.creators id = some (home task)
  current : ∀ process id inode, world.leases process id = some inode → inode = world.inodes (.owner id)
  owned : ∀ id process, Running world id → world.creators id = some process → world.alive process = true → id ∉ world.abandoned →
    ∃ inode, world.leases process id = some inode
  created : ∀ id, world.creators id ≠ none → id ∈ world.drawn
  indexed : ∀ process id, (world.index process).lookup id ≠ none → id ∈ world.drawn
  scans : world.scans = []
  responses : ∀ task, world.responses task = none

section Runs
variable {home : ι → π} {operations : ι → Operation} {world : World ι π}

theorem start_desk (operation : Operation) : desk (operation.start : Phase π) = {} := by
  cases operation with
  | _ => rfl

theorem start_undrawn (operation : Operation) : (operation.start : Phase π).drawn = none ∧ (operation.start : Phase π).refresh = .idle ∧
    (operation.start : Phase π).scanned = [] := by
  cases operation with
  | _ => exact ⟨rfl,rfl,rfl⟩

theorem owned_start (orderly : Orderly home world) : Owned home (fun task => (operations task).start) world := by
  have undrawn (task : ι) {id : Uuid} (drawn : ((operations task).start : Phase π).drawn = some id) : False := by
    rw [(start_undrawn (operations task)).1] at drawn
    cases drawn
  refine ⟨?_,fun task id drawn => (undrawn task drawn).elim,orderly.created⟩
  simp only [start_desk]
  exact
    { held := nofun
      unleased := nofun
      leased := orderly.leased
      justified := fun id inode task holds => (orderly.held id inode task holds).imp_right .inr
      current := fun _ _ _ stands => by rcases stands with never | never <;> cases never
      leaseCurrent := fun process id inode leased => .inl (orderly.current process id inode leased)
      owned := fun id process running created alive kept => .inl (orderly.owned id process running created alive kept)
      born := nofun
      purpose := nofun
      barren := fun _ never => absurd rfl never
      office := nofun
      officeCurrent := fun _ _ stands => by rcases stands with never | never <;> cases never
      present := by
        intro id ⟨durable,present,_⟩ gone
        have absent : world.manifest id = none := gone.2.1
        rw [present] at absent
        cases absent }

theorem indexed_start (orderly : Orderly home world) : Indexed (fun task => (operations task).start) world := by
  refine ⟨?_,?_,?_⟩
  · intro process id present
    refine ⟨orderly.indexed process id present,fun task => ?_⟩
    rw [(start_undrawn (operations task)).1]
    nofun
  · intro task changes remaining known id loading
    rw [(start_undrawn (operations task)).2.1] at loading
    cases loading
  · intro task id member
    rw [(start_undrawn (operations task)).2.2] at member
    cases member

theorem looked_start (orderly : Orderly home world) : Looked home (fun task => (operations task).start) world := by
  have unanswered (task : ι) : world.responses task = none := orderly.responses task
  have unscanned (scan : Scan ι π) (member : scan ∈ world.scans) : False := by
    rw [orderly.scans] at member
    cases member
  refine ⟨?_,fun scan member => (unscanned scan member).elim,fun scan member => (unscanned scan member).elim,
    fun scan member => (unscanned scan member).elim,fun task told => absurd (unanswered task) told,?_⟩
  · intro task id member
    rw [(start_undrawn (operations task)).2.2] at member
    cases member
  · intro task told
    rw [unanswered] at told
    cases told

variable [DecidableEq ι] [DecidableEq π] [Fintype π] {config : Config (Act π) Answer (World ι π) ι}
variable {permit : ι → (act : Act π) → World ι π → Answer act → World ι π → Bool}

theorem recovering_reach (orderly : Orderly home world) (reached : Reach (effect home) permit (launch operations world) config) :
    ∃ phases, (∀ task, Follows (discipline π) (config.tasks task) (phases task) fun _ => Phase.Finished) ∧
      Guarded home world.manifest phases config.state ∧ Owned home phases config.state ∧ Indexed phases config.state ∧
      Looked home phases config.state :=
  @store_reach ι π _ _ _ home operations world permit config
    (fun phases world => Owned home phases world ∧ Indexed phases world ∧ Looked home phases world) orderly.toUntouched
    ⟨owned_start orderly,indexed_start orderly,looked_start orderly⟩
    (fun _ _ _ _ _ _ guarded ⟨owned,indexed,looked⟩ allowed alive outcome _ =>
      ⟨owned_step guarded owned alive allowed outcome,indexed_step guarded indexed alive allowed outcome,
        looked_step guarded owned indexed looked alive allowed outcome⟩) reached

omit [Fintype π] in
/-- A manifest written by recovery had not ended, and nobody alive owned it. -/
theorem recovers_orphan {phases : ι → Phase π} {initial : Uuid → Option DurableRecord} {task : ι} {act : Act π} {answer : Answer act}
    {before after : World ι π} (guarded : Guarded home initial phases before) (owned : Owned home phases before)
    (alive : before.alive (home task) = true) (allowed : (phases task).Allowed act) (outcome : Outcome home task before act answer after)
    {write : Write} (grown : after.writes = write::before.writes) (recovery : write.cause = .recovery) :
    ∃ read written, write = ⟨write.id,some read,some written,.recovery⟩ ∧ before.manifest write.id = some read ∧ read.ended = false ∧
      written.invocation.state = .interrupted ∧
      ∀ process, before.creators write.id = some process → before.alive process = false ∨ write.id ∈ before.abandoned := by
  rcases logged allowed outcome with same | ⟨fresh,isFresh,lawful,isAct⟩
  · rw [same] at grown
    exact absurd (congrArg List.length grown) (by simp)
  rw [isFresh] at grown
  obtain ⟨isWrite,_⟩ := List.cons.inj grown
  subst isWrite
  obtain ⟨id,read,written,cause⟩ := fresh
  subst recovery
  cases written with
  | none =>
    cases read with
    | none => exact lawful.elim
    | some read => rcases lawful with never | ⟨_,never,_⟩ <;> cases never
  | some written =>
    cases read with
    | none => cases lawful.2
    | some read =>
      have isWrite := isAct written rfl
      subst isWrite
      obtain ⟨knows,⟨_,succeeds,_,mayRecover⟩,_⟩ := allowed
      obtain ⟨⟨inode,owns⟩,_,unborn⟩ := mayRecover rfl
      obtain ⟨runs,interrupted⟩ := succeeds.recovered rfl
      have present := guarded.known alive knows
      refine ⟨read,written,rfl,present,runs,interrupted,?_⟩
      intro process created
      have isOwner : (desk (phases task)).owning = some (id,inode) := by
        unfold desk
        rw [owns]
        rfl
      refine (owned.sound.orphaned alive isOwner unborn ⟨read,present,runs⟩ created).imp_left ?_
      intro dead
      exact Bool.eq_false_iff.mpr dead

/-- Recovery interrupts an invocation only if its creator died or gave the creation up, never one that runs or has ended;
and once a store was opened or has enforced retention, whatever it looked for and had lost its owner has ended. -/
theorem recovery_exact (home : ι → π) (operations : ι → Operation) (world : World ι π) (orderly : Orderly home world)
    (reached : Reach (effect home) anyhow (launch operations world) config) :
    (∀ next write, Step (effect home) anyhow config next → next.state.writes = write::config.state.writes → write.cause = .recovery →
      ∃ read written, write = ⟨write.id,some read,some written,.recovery⟩ ∧ config.state.manifest write.id = some read ∧
        read.ended = false ∧ written.invocation.state = .interrupted ∧ ∀ process, config.state.creators write.id = some process →
          config.state.alive process = false ∨ write.id ∈ config.state.abandoned) ∧
    ∀ scan ∈ config.state.scans, config.state.responses scan.task = some true → ∀ id ∈ scan.ids,
      (∀ process, config.state.creators id = some process → scan.alive process = false) →
      ∀ durable, config.state.manifest id = some durable → durable.ended = true := by
  obtain ⟨phases,follows,guarded,owned,_,looked⟩ := recovering_reach orderly reached
  constructor
  · intro next write step grown recovery
    obtain ⟨task,act,answer,allowed,own⟩ := step_allowed follows step
    obtain ⟨alive,outcome⟩ := effect_outcome own.1
    exact recovers_orphan guarded owned alive allowed outcome grown recovery
  intro scan member succeeded id scanned dead durable present
  have within := looked.ids scan member id scanned
  rcases looked.accounted scan.task succeeded id within with settled | skipped
  · rcases looked.settled scan.task id within settled with ⟨found,isFound,ended⟩ | gone
    · rw [show (shelf home config.state).value id = some durable from present] at isFound
      cases isFound
      exact ended
    · have absent : config.state.manifest id = none := gone.2.1
      rw [present] at absent
      cases absent
  · obtain ⟨process,created,lived⟩ := looked.skipped scan member id skipped
    rw [dead process created] at lived
    cases lived

end Runs
def createDieOpen : Fin 3 → Operation
  | 0 => .create (plainHeader 7 .queued) none
  | 1 => .crash
  | 2 => .opening

theorem empty_orderly {ι π : Type} (home : ι → π) : Orderly home {} where
  writes := rfl
  drawn _ present := absurd rfl present
  leased _ _ _ _ never := by cases never
  held _ _ _ never := by cases never
  current _ _ _ never := by cases never
  owned _ _ running := by
    obtain ⟨_,never,_⟩ := running
    cases never
  created _ present := absurd rfl present
  indexed _ _ present := absurd rfl present
  scans := rfl
  responses _ := rfl

theorem dead_creator_recovered : ∃ config,
    Reach (effect fun task : Fin 3 => decide (task = 2)) anyhow (launch createDieOpen {}) config ∧ config.state.writes.length = 2 ∧
    ∃ durable, config.state.manifest 7 = some durable ∧ durable.ended = true := by
  have replayed : (replay (effect fun task : Fin 3 => decide (task = 2)) anyhow (launch createDieOpen {})
      (turns 0 ([0,0,1] ++ List.replicate 16 0) ++ turns 1 [0,0] ++ turns 2 (List.replicate 26 0))).any
      (fun config => (config.state.scans.any fun scan => decide (scan.task = 2) && decide (7 ∈ scan.ids) && !scan.alive false) &&
        config.state.responses 2 == some true && config.state.creators 7 == some false &&
        decide (config.state.writes.length = 2) && (config.state.manifest 7).isSome) = true := by decide +kernel
  obtain ⟨config,reached,checked⟩ := replay_exists replayed
  simp only [Bool.and_eq_true,decide_eq_true_eq,beq_iff_eq,any_eq_true] at checked
  obtain ⟨⟨⟨⟨⟨scan,member,⟨isTask,scanned⟩,died⟩,succeeded⟩,created⟩,two⟩,present⟩ := checked
  obtain ⟨durable,found⟩ := Option.isSome_iff_exists.mp present
  refine ⟨config,reached,two,durable,found,?_⟩
  apply (recovery_exact _ _ _ (empty_orderly _) reached).2 scan member (isTask ▸ succeeded) 7 scanned _ durable found
  intro process isCreator
  rw [created] at isCreator
  cases isCreator
  simpa using died

end BazelMcp.Store

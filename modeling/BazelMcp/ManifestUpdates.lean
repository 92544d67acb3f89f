import BazelMcp.Lockfiles
import BazelMcp.RetentionConformance
import BazelMcp.StoreEffects

/-! The manifests of a cache are values behind lock files: every step of a store is a
step of that protocol, so that the writes of a manifest form a chain, whoever makes
them and whatever retention deletes and unlinks meanwhile. -/
namespace BazelMcp.Store
open StoreIndex Tasks Typestate Function

variable {ι π : Type}

/-! ### Stores as tasks behind lock files -/

def Grip.standing : Grip → Lockfiles.Grip Uuid DurableRecord
  | .opened ⟨.mutation id,inode⟩ => .opened id inode
  | .locked ⟨.mutation id,inode⟩ => .locked id inode
  | .knows ⟨.mutation id,inode⟩ manifest => .knows id inode manifest
  | _ => .empty

def seat (phase : Phase π) : Lockfiles.Seat Uuid DurableRecord where
  grip := phase.grip.standing
  fresh := phase.drawn
  retired := phase.deleted

def Write.entry (write : Write) : Lockfiles.Entry Uuid DurableRecord := ⟨write.id,write.read,write.written⟩

def shelf (home : ι → π) (world : World ι π) : Lockfiles.Shelf ι Uuid DurableRecord where
  value := world.manifest
  used id := id ∈ world.drawn
  version id := world.inodes (.mutation id)
  holder id inode := world.holders ⟨.mutation id,inode⟩
  live task := world.alive (home task) = true
  log := world.writes.map Write.entry

section Simulation
variable {home : ι → π} {task : ι} {phase : Phase π} {world : World ι π}

theorem standing_holds {grip : Grip} {id : Uuid} {inode : Nat} (holds : grip.Holds ⟨.mutation id,inode⟩) :
    grip.standing.Holds id inode := by
  cases grip with
  | empty | opened file => exact holds.elim
  | locked file | knows file manifest =>
    cases holds
    exact ⟨rfl,rfl⟩

theorem seat_saw (phase : Phase π) (id : Uuid) (manifest : Option DurableRecord) : seat (phase.saw id manifest) = seat phase ∨
    ∃ inode, (seat phase).grip.Holds id inode ∧ seat (phase.saw id manifest) = {seat phase with grip := .knows id inode manifest} := by
  obtain ⟨grip⟩ := phase
  cases grip with
  | empty | opened file => exact .inl rfl
  | locked file | knows file known =>
    obtain ⟨path,inode⟩ := file
    by_cases same : path = .mutation id
    · subst same
      exact .inr ⟨inode,⟨rfl,rfl⟩,by simp [seat,Phase.saw,Grip.saw,Grip.standing]⟩
    · exact .inl (by simp [seat,Phase.saw,Grip.saw,same])

theorem shelf_undisturbed {after : World ι π} (undisturbed : Undisturbed world after) : shelf home after = shelf home world := by
  have value : after.manifest = world.manifest := by
    unfold World.manifest
    rw [undisturbed.manifests]
  have version : (fun id => after.inodes (.mutation id)) = fun id => world.inodes (.mutation id) := funext undisturbed.inodes
  have holder : (fun id inode => after.holders ⟨.mutation id,inode⟩) = fun id inode => world.holders ⟨.mutation id,inode⟩ :=
    funext fun id => funext (undisturbed.holders id)
  unfold shelf
  rw [value,undisturbed.drawn,version,holder,undisturbed.alive,undisturbed.writes]

variable [DecidableEq ι]

variable (id : Uuid) (read : Option DurableRecord) {manifest : Option DurableRecord}

theorem shelf_hold (inode : Nat) (holder : Option ι) :
    shelf home (world.hold ⟨.mutation id,inode⟩ holder) = (shelf home world).hold id inode holder := by
  have same : (fun key version => Function.update world.holders ⟨.mutation id,inode⟩ holder ⟨.mutation key,version⟩) =
      ((shelf home world).hold id inode holder).holder := by
    funext key version
    by_cases here : key = id ∧ version = inode
    · obtain ⟨rfl,rfl⟩ := here
      exact (update_self _ _ _).trans (Lockfiles.cell_self _ _).symm
    refine (update_of_ne ?_ _ _).trans (Lockfiles.cell_other (shelf home world).holder holder here).symm
    intro file
    cases file
    exact here ⟨rfl,rfl⟩
  exact congrArg (fun holder => {shelf home world with holder := holder}) same

omit [DecidableEq ι] in
theorem shelf_write (written : DurableRecord) (cause : Cause) :
    shelf home (world.write id read written cause) = (shelf home world).store id read (some written) := by
  have same : (world.write id read written cause).manifest = Function.update world.manifest id (some written) :=
    eq_update_iff.mpr ⟨AList.lookup_insert _,fun _ => AList.lookup_insert_ne⟩
  exact congrArg (fun value => {(shelf home world).store id read (some written) with value := value}) same

omit [DecidableEq ι] in
theorem shelf_erase (cause : Cause) : shelf home (world.erase id read cause) = (shelf home world).store id read none := by
  have same : (world.erase id read cause).manifest = Function.update world.manifest id none :=
    eq_update_iff.mpr ⟨AList.lookup_erase _ _,fun _ => AList.lookup_erase_ne⟩
  exact congrArg (fun value => {(shelf home world).store id read none with value := value}) same

theorem seat_beside {after : Phase π} (beside : Beside phase after) : seat after = seat phase := by
  unfold seat
  rw [beside.grip,beside.drawn,beside.deleted]

theorem seat_acquired (inode : Nat) : seat (phase.acquired ⟨.mutation id,inode⟩) =
    {seat phase with grip := if (seat phase).fresh = some id then .knows id inode none else .locked id inode} := by
  unfold seat
  congr 1
  change Grip.standing (if phase.drawn = some id then _ else _) = if phase.drawn = some id then _ else _
  split
  · rfl
  · rfl

theorem standing_knows {id : Uuid} (knows : phase.Knows id manifest) : ∃ inode, (seat phase).grip = .knows id inode manifest ∧
    phase.grip.forgot.standing = .locked id inode ∧ ∀ written, (phase.grip.wrote written).standing = .knows id inode written := by
  obtain ⟨inode,known⟩ := knows
  unfold seat
  rw [known]
  exact ⟨inode,rfl,rfl,fun _ => rfl⟩

variable [DecidableEq π]

/-- Every act of a store is a step of the protocol. -/
theorem simulates {act : Act π} {answer : Answer act} {after : World ι π} (allowed : phase.Allowed act)
    (outcome : Outcome home task world act answer after) :
    Lockfiles.Step task (seat phase) (shelf home world) (seat (phase.advance act answer)) (shelf home after) := by
  cases outcome with
  | quiet still unmoved =>
    rw [still,shelf_undisturbed unmoved.toUndisturbed]
    exact .idle
  | fault failed =>
    rw [failed]
    exact .idle
  | aside beside =>
    rw [seat_beside (beside.beside phase),shelf_undisturbed beside.undisturbed]
    exact .idle
  | @draws id unused =>
    have undrawn : (seat phase).fresh = none := allowed.2.2.1
    have drawn : shelf home {world with drawn := id::world.drawn, creators := Function.update world.creators id (some (home task))} =
        {shelf home world with used := fun other => other = id ∨ (shelf home world).used other} := by
      unfold shelf
      congr 1
      funext other
      exact propext List.mem_cons
    rw [drawn]
    exact .draws unused undrawn
  | opens id => exact .opens id
  | @locks id inode free | @takes id inode free =>
    have opened : (seat phase).grip = .opened id inode := congrArg Grip.standing allowed
    rw [shelf_hold]
    change Lockfiles.Step task _ _ (seat (phase.acquired ⟨.mutation id,inode⟩)) _
    rw [seat_acquired]
    exact .acquires opened free
  | misses id inode =>
    have opened : (seat phase).grip = .opened id inode := congrArg Grip.standing allowed
    exact .closes opened
  | unlocks id inode =>
    rw [shelf_hold]
    exact .releases (standing_holds allowed.1)
  | unlinks id =>
    have versions : shelf home {world with inodes := Function.update world.inodes (.mutation id) (world.inodes (.mutation id)+1)} =
        {shelf home world with version := Function.update (shelf home world).version id ((shelf home world).version id+1)} := by
      unfold shelf
      congr 1
      funext other
      by_cases same : other = id
      · subst same
        rw [update_self]
        exact update_self _ _ _
      rw [update_of_ne same]
      apply update_of_ne
      intro path
      exact same (LockPath.mutation.inj path)
    rw [versions]
    exact .unlinks allowed
  | lists all unmoved =>
    rw [shelf_undisturbed unmoved.toUndisturbed]
    rw [show phase.advance .listInvocations _ = phase.listed _ from rfl,listed_same seat phase fun _ _ _ => rfl]
    exact .idle
  | @reads id durable bytes found =>
    change Lockfiles.Step task _ _ (seat (phase.saw id (some durable))) _
    rcases seat_saw phase id (some durable) with same | ⟨inode,holds,same⟩
    · rw [same]
      exact .idle
    · rw [same,← show (shelf home world).value id = some durable from found]
      exact .reads holds
  | @lacks id absent =>
    change Lockfiles.Step task _ _ (seat (phase.saw id none)) _
    rcases seat_saw phase id none with same | ⟨inode,holds,same⟩
    · rw [same]
      exact .idle
    · rw [same,← show (shelf home world).value id = none from absent]
      exact .reads holds
  | @writes id read written cause bytes present =>
    obtain ⟨knows,may,_⟩ := allowed
    obtain ⟨inode,standing,_,held⟩ := standing_knows knows
    have unborn (absent : read = none) : (seat phase).fresh = some id := by
      subst absent
      exact may.1
    have wrote : seat (phase.wrote id read written (.ok bytes)) =
        {seat phase with grip := .knows id inode (some written), fresh := none} := by
      unfold Phase.wrote
      dsimp only
      split
      · exact congrArg (fun grip => {seat phase with grip := grip, fresh := none}) (held _)
      · exact congrArg (fun grip => {seat phase with grip := grip, fresh := none}) (held _)
    change Lockfiles.Step task _ _ (seat (phase.wrote id read written (.ok bytes))) _
    rw [shelf_write,wrote]
    exact .writes written standing unborn
  | @vanished id read written cause absent =>
    obtain ⟨inode,standing,_,held⟩ := standing_knows allowed.1
    have holds : (seat phase).grip.Holds id inode := by
      rw [standing]
      exact ⟨rfl,rfl⟩
    have lost : seat (phase.wrote id (some read) written (.error (.io .notFound))) =
        {seat phase with grip := .knows id inode ((shelf home world).value id)} := by
      rw [show (shelf home world).value id = none from absent]
      exact congrArg (fun grip => {seat phase with grip := grip}) (held none)
    change Lockfiles.Step task _ _ (seat (phase.wrote id (some read) written (.error (.io .notFound)))) _
    rw [lost]
    exact .reads holds
  | @trashes id read nowMs present =>
    obtain ⟨inode,standing,_,held⟩ := standing_knows allowed.1
    have gone : seat (phase.trashed id (.ok true)) =
        {seat phase with grip := .knows id inode none, retired := id::(seat phase).retired} := by
      exact congrArg (fun grip => {seat phase with grip := grip, retired := id::(seat phase).retired}) (held none)
    change Lockfiles.Step task _ _ (seat (phase.trashed id (.ok true))) _
    rw [shelf_erase,gone]
    exact .deletes standing
  | @removes id present =>
    obtain ⟨_,_,_,manifest,knows⟩ := allowed
    obtain ⟨inode,standing,forgot,_⟩ := standing_knows knows
    rw [shelf_erase,show seat (phase.advance (.removeDirectory id) ()) = {seat phase with grip := .locked id inode} from
      congrArg (fun grip => {seat phase with grip := grip}) forgot]
    exact .discards standing present
  | leaves id =>
    obtain ⟨_,_,_,manifest,knows⟩ := allowed
    obtain ⟨inode,standing,forgot,_⟩ := standing_knows knows
    rw [show seat (phase.advance (.removeDirectory id) ()) = {seat phase with grip := .locked id inode} from
      congrArg (fun grip => {seat phase with grip := grip}) forgot]
    exact .forgets standing
  | untrashed | begins | commits | abandons | publishes | snaps => exact .idle
  | updates change =>
    rw [show phase.advance (.update change) _ = phase.updated change _ from rfl,updated_same seat phase fun _ _ _ _ _ => rfl]
    exact .idle
  | crashes =>
    have died : shelf home { world with
        alive := Function.update world.alive (home task) false
        holders := fun file => (world.holders file).filter fun holder => home holder ≠ home task } =
        { shelf home world with
          live := fun other => (shelf home world).live other ∧ decide (home other = home task) = false
          holder := fun id inode => ((shelf home world).holder id inode).filter fun other => !decide (home other = home task) } := by
      unfold shelf
      congr 1
      · funext id inode
        change Option.filter _ _ = Option.filter _ _
        congr 1
        funext other
        exact (decide_not (p := home other = home task))
      · funext other
        by_cases same : home other = home task
        · simp [same]
        · simp [same]
    rw [died]
    exact .dies _

end Simulation

/-! ### Runs -/

section Runs
variable [DecidableEq ι] [DecidableEq π] [Fintype π] {home : ι → π} {operations : ι → Operation} {world : World ι π}
variable {permit : ι → (act : Act π) → World ι π → Answer act → World ι π → Bool} {config : Config (Act π) Answer (World ι π) ι}

/-- The invariant of the protocol, for the phases of the tasks. -/
def Guarded (home : ι → π) (initial : Uuid → Option DurableRecord) (phases : ι → Phase π) (world : World ι π) : Prop :=
  Lockfiles.Sound initial (fun task => seat (phases task)) (shelf home world)

/-- The cache before any task has begun: every manifest has an identifier that was drawn. -/
structure Untouched (world : World ι π) : Prop where
  writes : world.writes = []
  drawn : ∀ id, world.manifest id ≠ none → id ∈ world.drawn

omit [DecidableEq ι] [DecidableEq π] [Fintype π] in
theorem guarded_start (untouched : Untouched world) :
    Guarded home world.manifest (fun task => (operations task).start) world := by
  have idle (task : ι) : seat ((operations task).start : Phase π) = {} := by
    cases operations task with
    | _ => rfl
  unfold Guarded
  simp only [idle]
  refine ⟨?_,?_,?_,?_,?_,untouched.drawn,?_,?_⟩
  · intro task key version _ holds
    exact holds.elim
  · intro task key version stands
    exact stands.elim
  · intro task key version value _ knows
    cases knows
  · intro task key fresh
    cases fresh
  · intro task other key fresh
    cases fresh
  · intro task key member
    cases member
  intro key
  change Lockfiles.Chain _ ((world.writes.map Write.entry).filter _) _
  rw [untouched.writes]
  rfl

variable {initial : Uuid → Option DurableRecord} {phases : ι → Phase π}

omit [Fintype π] in
theorem guarded_step {task : ι} {act : Act π} {answer : Answer act}
    {after : World ι π} (guarded : Guarded home initial phases world) (alive : world.alive (home task) = true)
    (allowed : (phases task).Allowed act) (outcome : Outcome home task world act answer after) :
    Guarded home initial (Function.update phases task ((phases task).advance act answer)) after := by
  change Lockfiles.Sound initial (seat ∘ Function.update phases task _) _
  rw [Function.comp_update]
  exact Lockfiles.Sound.step guarded alive (simulates allowed outcome)

/-- One act of a task keeps the invariant, beside that of the protocol. -/
def KeptByActs (home : ι → π) (permit : ι → (act : Act π) → World ι π → Answer act → World ι π → Bool)
    (initial : Uuid → Option DurableRecord) (invariant : (ι → Phase π) → World ι π → Prop) : Prop :=
  ∀ phases before task act answer after, Guarded home initial phases before → invariant phases before →
    (phases task).Allowed act → before.alive (home task) = true → Outcome home task before act answer after →
    permit task act before answer after = true → invariant (Function.update phases task ((phases task).advance act answer)) after

theorem store_continue {invariant : (ι → Phase π) → World ι π → Prop} {later : Config (Act π) Answer (World ι π) ι}
    (kept : KeptByActs home permit initial invariant)
    (follows : ∀ task, Follows (discipline π) (config.tasks task) (phases task) fun _ => Phase.Finished)
    (guarded : Guarded home initial phases config.state) (holds : invariant phases config.state)
    (reached : Reach (effect home) permit config later) :
    ∃ phases, (∀ task, Follows (discipline π) (later.tasks task) (phases task) fun _ => Phase.Finished) ∧
      Guarded home initial phases later.state ∧ invariant phases later.state := by
  have steps (phases : ι → Phase π) (before : World ι π) (task : ι) (act : Act π) (answer : Answer act) (after : World ι π)
      (holds : Guarded home initial phases before ∧ invariant phases before) (allowed : (discipline π).allowed (phases task) act)
      (own : Own (effect home) permit task act before answer after) :
      Guarded home initial (Function.update phases task ((discipline π).advance (phases task) act answer)) after ∧
        invariant (Function.update phases task ((discipline π).advance (phases task) act answer)) after := by
    obtain ⟨alive,outcome⟩ := effect_outcome own.1
    exact ⟨guarded_step holds.1 alive allowed outcome,
      kept phases before task act answer after holds.1 holds.2 allowed alive outcome own.2⟩
  exact Typestate.reach steps follows ⟨guarded,holds⟩ reached

theorem store_reach {invariant : (ι → Phase π) → World ι π → Prop} (untouched : Untouched world)
    (initial : invariant (fun task => (operations task).start) world) (kept : KeptByActs home permit world.manifest invariant)
    (reached : Reach (effect home) permit (launch operations world) config) :
    ∃ phases, (∀ task, Follows (discipline π) (config.tasks task) (phases task) fun _ => Phase.Finished) ∧
      Guarded home world.manifest phases config.state ∧ invariant phases config.state :=
  store_continue kept (fun task => follows_program (operations task)) (guarded_start untouched) initial reached

theorem guarded_reach (untouched : Untouched world) (reached : Reach (effect home) permit (launch operations world) config) :
    ∃ phases, (∀ task, Follows (discipline π) (config.tasks task) (phases task) fun _ => Phase.Finished) ∧
      Guarded home world.manifest phases config.state := by
  obtain ⟨phases,follows,guarded,_⟩ := @store_reach ι π _ _ _ home operations world permit config (fun _ _ => True) untouched
    trivial (fun _ _ _ _ _ _ _ _ _ _ _ _ => trivial) reached
  exact ⟨phases,follows,guarded⟩

end Runs

def plainHeader (id : Uuid) (state : InvocationState) : InvocationHeader where
  id := id
  request := {id := String.ofList id.text, workspace := "", command := .build}
  named := rfl
  state := state

def cacheOf {ι π : Type} (durable : DurableRecord) : World ι π where
  manifests := AList.insert durable.invocation.id durable ∅
  drawn := [durable.invocation.id]
  index _ := ({} : Index).insert durable.invocation.id (durable.indexEntry 0)

theorem cacheOf_untouched {ι π : Type} (durable : DurableRecord) : Untouched (cacheOf durable : World ι π) where
  writes := rfl
  drawn id present := by
    by_contra different
    apply present
    exact AList.lookup_insert_ne fun same => different (List.mem_singleton.mpr same)

/-- One task's turns: the numbers choose among the ways in which a call may complete. -/
def turns {ι : Type} (task : ι) (choices : List Nat) : List (ι × Nat) := choices.map (task,·)

def createThenStart : Fin 2 → Operation
  | 0 => .create (plainHeader 7 .queued) none
  | 1 => .transition 7 .starting none none

end BazelMcp.Store

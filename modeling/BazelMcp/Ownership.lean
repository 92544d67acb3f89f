import BazelMcp.ManifestHistory
import BazelMcp.Tenancy

/-! Who owns an invocation. The owner lock is taken before the manifest exists and left
to the process that created it; recovery holds the maintenance lock and takes owner locks
that nobody holds. Every step of a store is a step of that protocol. -/
namespace BazelMcp.Store
open StoreIndex Tasks Typestate Function

variable {ι π : Type}

/-! ### Stores as owners -/

def LockFile.opened : LockFile → Option (Tenancy.Opened Uuid)
  | ⟨.owner id,inode⟩ => some (.room id inode)
  | ⟨.maintenance,inode⟩ => some (.office inode)
  | ⟨.mutation _,_⟩ => none

def LockFile.room : LockFile → Option (Uuid × Nat)
  | ⟨.owner id,inode⟩ => some (id,inode)
  | _ => none

def desk (phase : Phase π) : Tenancy.Desk Uuid where
  pending := phase.pending.bind LockFile.opened
  owning := phase.owning.bind LockFile.room
  born := phase.born
  office := phase.maintaining

def estate (world : World ι π) (running gone : Uuid → Prop) : Tenancy.House ι Uuid π where
  alive process := world.alive process = true
  version id := world.inodes (.owner id)
  holder id inode := world.holders ⟨.owner id,inode⟩
  lease := world.leases
  creator := world.creators
  abandoned id := id ∈ world.abandoned
  running := running
  gone := gone
  officeVersion := world.inodes .maintenance
  officeHolder inode := world.holders ⟨.maintenance,inode⟩

def Running (world : World ι π) (id : Uuid) : Prop := ∃ durable, world.manifest id = some durable ∧ durable.ended = false

def Gone (home : ι → π) (phases : ι → Phase π) (world : World ι π) : Uuid → Prop :=
  Lockfiles.Gone (fun task => seat (phases task)) (shelf home world)

section Simulation
variable {home : ι → π} {task : ι} {phase : Phase π} {world after : World ι π} {running gone : Uuid → Prop}

theorem estate_same (alive : after.alive = world.alive) (inodes : ∀ path, (∀ id, path ≠ .mutation id) → after.inodes path = world.inodes path)
    (holders : ∀ path inode, (∀ id, path ≠ .mutation id) → after.holders ⟨path,inode⟩ = world.holders ⟨path,inode⟩)
    (leases : after.leases = world.leases) (creators : after.creators = world.creators) (abandoned : after.abandoned = world.abandoned) :
    estate after running gone = estate world running gone := by
  have version : (fun id => after.inodes (.owner id)) = fun id => world.inodes (.owner id) := funext fun id => inodes _ fun _ => nofun
  have holder : (fun id inode => after.holders ⟨.owner id,inode⟩) = fun id inode => world.holders ⟨.owner id,inode⟩ :=
    funext fun id => funext fun inode => holders _ inode fun _ => nofun
  have chief : (fun inode => after.holders ⟨.maintenance,inode⟩) = fun inode => world.holders ⟨.maintenance,inode⟩ :=
    funext fun inode => holders _ inode fun _ => nofun
  unfold estate
  rw [alive,version,holder,leases,creators,abandoned,inodes .maintenance fun _ => nofun,chief]

theorem estate_unmoved (unmoved : Unmoved world after) : estate after running gone = estate world running gone :=
  estate_same unmoved.alive (fun _ _ => by rw [unmoved.allInodes]) (fun _ _ _ => by rw [unmoved.allHolders]) unmoved.leases
    unmoved.creators unmoved.abandoned

variable [DecidableEq ι]

theorem estate_hold_mutation (id : Uuid) (inode : Nat) (holder : Option ι) :
    estate (world.hold ⟨.mutation id,inode⟩ holder) running gone = estate world running gone := by
  refine estate_same rfl (fun _ _ => rfl) ?_ rfl rfl rfl
  intro path version other
  apply update_of_ne
  intro same
  exact other id (congrArg LockFile.path same)

theorem estate_hold_owner (id : Uuid) (inode : Nat) (holder : Option ι) :
    estate (world.hold ⟨.owner id,inode⟩ holder) running gone = (estate world running gone).hold id inode holder := by
  have rooms : (fun key version => Function.update world.holders ⟨.owner id,inode⟩ holder ⟨.owner key,version⟩) =
      ((estate world running gone).hold id inode holder).holder := by
    funext key version
    by_cases here : key = id ∧ version = inode
    · obtain ⟨rfl,rfl⟩ := here
      exact (update_self _ _ _).trans (Lockfiles.cell_self _ _).symm
    refine (update_of_ne ?_ _ _).trans (Lockfiles.cell_other (estate world running gone).holder holder here).symm
    intro file
    cases file
    exact here ⟨rfl,rfl⟩
  have office : (fun version => Function.update world.holders ⟨.owner id,inode⟩ holder ⟨.maintenance,version⟩) =
      (estate world running gone).officeHolder := update_comp_eq_of_forall_ne' _ _ fun _ => nofun
  have both := congrArg₂ (fun holder officeHolder => {estate world running gone with holder := holder, officeHolder := officeHolder}) rooms office
  exact both

theorem estate_hold_maintenance (inode : Nat) (holder : Option ι) : estate (world.hold ⟨.maintenance,inode⟩ holder) running gone =
    {estate world running gone with officeHolder := Function.update (estate world running gone).officeHolder inode holder} := by
  have rooms : (fun key version => Function.update world.holders ⟨.maintenance,inode⟩ holder ⟨.owner key,version⟩) =
      (estate world running gone).holder := funext fun _ => update_comp_eq_of_forall_ne' _ _ fun _ => nofun
  have office : (fun version => Function.update world.holders ⟨.maintenance,inode⟩ holder ⟨.maintenance,version⟩) =
      Function.update (estate world running gone).officeHolder inode holder :=
    update_comp_eq_of_injective' world.holders (f := LockFile.mk .maintenance) (fun _ _ same => congrArg LockFile.inode same) inode holder
  exact congrArg₂ (fun holder officeHolder => {estate world running gone with holder := holder, officeHolder := officeHolder}) rooms office

theorem desk_owns {id : Uuid} {inode : Nat} (owning : phase.owning = some ⟨.owner id,inode⟩) : (desk phase).owning = some (id,inode) :=
  congrArg (Option.bind · LockFile.room) owning

theorem desk_free (unowned : phase.owning = none) : (desk phase).owning = none := congrArg (Option.bind · LockFile.room) unowned

variable [DecidableEq π]

theorem takes_owner {id : Uuid} {inode : Nat} (may : phase.MayLock ⟨.owner id,inode⟩)
    (drawn : ∀ id, phase.drawn = some id → phase.born = some id) (free : world.holders ⟨.owner id,inode⟩ = none) :
    Tenancy.Step home task (desk phase) (estate world running gone) (desk (phase.acquired ⟨.owner id,inode⟩))
      (estate (world.hold ⟨.owner id,inode⟩ (some task)) running gone) := by
  obtain ⟨isPending,unowned,purpose⟩ := may
  have opened : (desk phase).pending = some (.room id inode) := by
    unfold desk
    rw [isPending]
    rfl
  rw [estate_hold_owner]
  exact .takes opened (desk_free unowned) (purpose.imp_left (drawn id)) free

theorem takes_maintenance {inode : Nat} (may : phase.MayLock ⟨.maintenance,inode⟩) (free : world.holders ⟨.maintenance,inode⟩ = none) :
    Tenancy.Step home task (desk phase) (estate world running gone) (desk (phase.acquired ⟨.maintenance,inode⟩))
      (estate (world.hold ⟨.maintenance,inode⟩ (some task)) running gone) := by
  obtain ⟨isPending,unmaintained,unborn⟩ := may
  have opened : (desk phase).pending = some (.office inode) := by
    unfold desk
    rw [isPending]
    rfl
  rw [estate_hold_maintenance]
  exact .takesOffice opened unmaintained unborn free

theorem aside_simulates {act : Act π} {answer : Answer act} (allowed : phase.Allowed act)
    (aside : Aside home task world act answer after) (deleted : ∀ id ∈ phase.deleted, gone id)
    (known : ∀ id manifest, phase.Knows id manifest → world.manifest id = manifest)
    (drawn : ∀ id, phase.drawn = some id → phase.born = some id) :
    Tenancy.Step home task (desk phase) (estate world (Running world) gone) (desk (phase.advance act answer))
      (estate after (Running world) gone) := by
  cases aside with
  | @opens path other =>
    cases path with
    | mutation id => exact absurd rfl (other id)
    | owner id => exact .opens id
    | maintenance => exact .opensOffice
  | @locks path inode other free | @takes path inode other free =>
    cases path with
    | mutation id => exact absurd rfl (other id)
    | owner id => exact takes_owner allowed drawn free
    | maintenance => exact takes_maintenance allowed free
  | @misses path inode other held =>
    cases path with
    | mutation id => exact absurd rfl (other id)
    | owner id | maintenance => exact .closes
  | @unlocks path inode other =>
    cases path with
    | mutation id => exact absurd rfl (other id)
    | owner id =>
      rw [estate_hold_owner]
      exact .yields (desk_owns allowed.1) allowed.2
    | maintenance =>
      rw [estate_hold_maintenance]
      exact .leavesOffice allowed.1 (desk_free allowed.2)
  | @unlinks path other =>
    cases path with
    | mutation id => exact absurd rfl (other id)
    | owner id =>
      have versions : estate {world with inodes := Function.update world.inodes (.owner id) (world.inodes (.owner id)+1)} (Running world) gone =
          { estate world (Running world) gone with
            version := Function.update (estate world (Running world) gone).version id ((estate world (Running world) gone).version id+1) } := by
        have rooms : (fun key => Function.update world.inodes (.owner id) (world.inodes (.owner id)+1) (.owner key)) =
            Function.update (estate world (Running world) gone).version id ((estate world (Running world) gone).version id+1) :=
          update_comp_eq_of_injective' world.inodes (fun _ _ => LockPath.owner.inj) id _
        exact congrArg (fun version => {estate world (Running world) gone with version := version}) rooms
      rw [versions]
      exact .unlinks (deleted id allowed)
    | maintenance => exact allowed.elim
  | retains id inode =>
    exact .retains (desk_owns allowed.1) allowed.2
  | @releases id inode leased =>
    obtain ⟨manifest,knows,ended⟩ := allowed
    have stopped : ¬ Running world id := by
      intro ⟨durable,present,running⟩
      rw [known id manifest knows] at present
      rw [ended durable present] at running
      cases running
    have given : estate { world.hold ⟨.owner id,inode⟩ none with
        leases := Function.update world.leases (home task) (Function.update (world.leases (home task)) id none) } (Running world) gone =
        ((estate world (Running world) gone).hold id inode none).grant (home task) id none := by
      rw [← estate_hold_owner]
      rfl
    rw [given]
    exact .releases leased stopped
  | abandons id inode =>
    have given : estate {world.hold ⟨.owner id,inode⟩ none with abandoned := id::world.abandoned} (Running world) gone =
        { (estate world (Running world) gone).hold id inode none with
          abandoned := fun other => other = id ∨ (estate world (Running world) gone).abandoned other } := by
      rw [← estate_hold_owner]
      have ids : (fun other => other ∈ id::world.abandoned) = fun other => other = id ∨ other ∈ world.abandoned :=
        funext fun other => propext List.mem_cons
      exact congrArg (fun abandoned => {estate (world.hold ⟨.owner id,inode⟩ none) (Running world) gone with abandoned := abandoned}) ids
    rw [given]
    exact .abandons (desk_owns allowed.1) allowed.2
  | places id files =>
    cases files with
    | _ => exact .idle
  | scans | responds | clocks => exact .idle

/-- Every act of a store is a step of the protocol of owners. -/
theorem owners_simulate {act : Act π} {answer : Answer act} (allowed : phase.Allowed act)
    (outcome : Outcome home task world act answer after) (deleted : ∀ id ∈ phase.deleted, gone id)
    (known : ∀ id manifest, phase.Knows id manifest → world.manifest id = manifest)
    (drawn : ∀ id, phase.drawn = some id → phase.born = some id) (created : ∀ id, world.creators id ≠ none → id ∈ world.drawn)
    (used : ∀ id, world.manifest id ≠ none → id ∈ world.drawn) :
    Tenancy.Step home task (desk phase) (estate world (Running world) gone) (desk (phase.advance act answer))
      (estate after (Running world) gone) := by
  cases outcome with
  | quiet still unmoved =>
    rw [still,estate_unmoved unmoved]
    exact .idle
  | fault failed =>
    rw [failed]
    exact .idle
  | aside beside => exact aside_simulates allowed beside deleted known drawn
  | @draws id unused =>
    obtain ⟨_,_,_,unborn,unmaintained,unowned,_⟩ := allowed
    have unknown : world.creators id = none := by
      by_contra someone
      exact unused (created id someone)
    have silent : ¬ Running world id := by
      intro ⟨durable,present,_⟩
      apply unused
      apply used id
      rw [present]
      nofun
    exact .draws id unknown silent unborn (desk_free unowned) unmaintained
  | opens id => exact .idle
  | @locks id inode free | @takes id inode free | unlocks id inode =>
    rw [estate_hold_mutation]
    exact .idle
  | misses id inode => exact .idle
  | unlinks id =>
    have same : estate {world with inodes := Function.update world.inodes (.mutation id) (world.inodes (.mutation id)+1)} (Running world) gone =
        estate world (Running world) gone :=
      estate_same rfl (fun path other => update_of_ne (other id) _ _) (fun _ _ _ => rfl) rfl rfl rfl
    rw [same]
    exact .idle
  | lists all unmoved =>
    rw [estate_unmoved unmoved]
    change Tenancy.Step home task _ _ (desk (phase.listed _)) _
    rw [listed_same desk phase fun _ _ _ => rfl]
    exact .idle
  | @writes id read written cause bytes present =>
    change Tenancy.Step home task _ _ (desk (phase.wrote id read written (.ok bytes))) _
    rw [wrote_same desk phase fun _ _ _ _ _ _ _ _ => rfl]
    exact .idle
  | reads | lacks | vanished | trashes | untrashed | removes | leaves => exact .idle
  | begins | commits | abandons | publishes | snaps => exact .idle
  | updates change =>
    change Tenancy.Step home task _ _ (desk (phase.updated change _)) _
    rw [updated_same desk phase fun _ _ _ _ _ => rfl]
    exact .idle
  | crashes =>
    have died : estate { world with
        alive := Function.update world.alive (home task) false
        holders := fun file => (world.holders file).filter fun holder => home holder ≠ home task } (Running world) gone =
        { estate world (Running world) gone with
          alive := fun process => (estate world (Running world) gone).alive process ∧ process ≠ home task
          holder := fun id inode => ((estate world (Running world) gone).holder id inode).filter fun other => home other ≠ home task
          officeHolder := fun inode => ((estate world (Running world) gone).officeHolder inode).filter fun other =>
            home other ≠ home task } := by
      unfold estate
      congr 1
      funext process
      by_cases same : process = home task
      · simp [same]
      · simp [same]
    rw [died]
    exact .dies

end Simulation

/-! ### Owners along a run -/

section Owners
variable {home : ι → π} {phases : ι → Phase π} {task : ι} {world after : World ι π} {initial : Uuid → Option DurableRecord}

/-- What holds of owners along every run. -/
structure Owned (home : ι → π) (phases : ι → Phase π) (world : World ι π) : Prop where
  sound : Tenancy.Sound home (fun task => desk (phases task)) (estate world (Running world) (Gone home phases world))
  drawn : ∀ task id, (phases task).drawn = some id → (phases task).born = some id
  created : ∀ id, world.creators id ≠ none → id ∈ world.drawn

theorem manifest_write_self (world : World ι π) (id : Uuid) (read : Option DurableRecord) (written : DurableRecord) (cause : Cause) :
    (world.write id read written cause).manifest id = some written := AList.lookup_insert _

theorem manifest_write_other (world : World ι π) {id other : Uuid} (different : other ≠ id) (read : Option DurableRecord)
    (written : DurableRecord) (cause : Cause) : (world.write id read written cause).manifest other = world.manifest other :=
  AList.lookup_insert_ne different

theorem manifest_erase_self (world : World ι π) (id : Uuid) (read : Option DurableRecord) (cause : Cause) :
    (world.erase id read cause).manifest id = none := AList.lookup_erase _ _

theorem manifest_erase_other (world : World ι π) {id other : Uuid} (different : other ≠ id) (read : Option DurableRecord) (cause : Cause) :
    (world.erase id read cause).manifest other = world.manifest other := AList.lookup_erase_ne different

variable [DecidableEq ι] [DecidableEq π] {act : Act π} {answer : Answer act}

omit [DecidableEq ι] in
omit [DecidableEq π] in
theorem Guarded.known (guarded : Guarded home initial phases world) (alive : world.alive (home task) = true) {id : Uuid}
    {manifest : Option DurableRecord} (knows : (phases task).Knows id manifest) : world.manifest id = manifest := by
  obtain ⟨inode,standing,_⟩ := standing_knows knows
  exact Lockfiles.Sound.known guarded task id inode manifest alive standing

section
variable (guarded : Guarded home initial phases world)
include guarded

/-- An invocation comes to run when its creator, who owns it, writes its manifest. -/
theorem running_step (alive : world.alive (home task) = true)
    (allowed : (phases task).Allowed act) (outcome : Outcome home task world act answer after)
    (drawn : ∀ id, (phases task).drawn = some id → (phases task).born = some id) {id : Uuid} (running : Running after id) :
    Running world id ∨ (desk ((phases task).advance act answer)).born = some id ∧
      ∃ inode, (desk ((phases task).advance act answer)).owning = some (id,inode) := by
  obtain ⟨durable,present,runs⟩ := running
  have before (same : after.manifest id = world.manifest id) : Running world id := ⟨durable,same ▸ present,runs⟩
  rcases outcome.manifests with same | ⟨key,read,written,cause,isAct,isAfter⟩ | ⟨key,read,nowMs,_,isAfter⟩ | ⟨key,_,isAfter⟩
  · exact .inl (before (congrArg (AList.lookup id) same))
  · subst isAct isAfter
    by_cases here : id = key
    · subst here
      rw [manifest_write_self] at present
      cases present
      obtain ⟨knows,may,_⟩ := allowed
      cases read with
      | none =>
        obtain ⟨inode,owns⟩ := may.2.2.2 runs
        rw [show desk ((phases task).advance (.writeManifest id none durable cause) answer) = desk (phases task) from
          wrote_same desk (phases task) (fun _ _ _ _ _ _ _ _ => rfl) _ _ _ _]
        refine .inr ⟨drawn id may.1,inode,?_⟩
        unfold desk
        rw [owns]
        rfl
      | some read =>
        refine .inl ⟨read,guarded.known alive knows,?_⟩
        by_contra ended
        rw [may.2.1.ended (Bool.not_eq_false _ ▸ ended)] at runs
        cases runs
    · exact .inl (before (manifest_write_other world here _ _ _))
  · subst isAfter
    by_cases here : id = key
    · rw [here,manifest_erase_self] at present
      cases present
    · exact .inl (before (manifest_erase_other world here _ _))
  · subst isAfter
    by_cases here : id = key
    · rw [here,manifest_erase_self] at present
      cases present
    · exact .inl (before (manifest_erase_other world here _ _))

theorem gone_step (alive : world.alive (home task) = true)
    (allowed : (phases task).Allowed act) (outcome : Outcome home task world act answer after) {id : Uuid}
    (gone : Gone home phases world id) : Gone home (Function.update phases task ((phases task).advance act answer)) after id := by
  have none (cause : Cause) (read written : DurableRecord) (_ : Succeeds cause read written) (never : False) : False := never
  have lasting := lasting_step guarded alive allowed outcome none (.inr gone)
  rcases lasting with ⟨_,_,never⟩ | still
  · exact never.elim
  · exact still

theorem owned_step (owned : Owned home phases world) (alive : world.alive (home task) = true)
    (allowed : (phases task).Allowed act) (outcome : Outcome home task world act answer after) :
    Owned home (Function.update phases task ((phases task).advance act answer)) after := by
  have moved := owned.sound.step alive (owners_simulate allowed outcome (Lockfiles.Sound.retired guarded task)
    (fun id manifest knows => guarded.known alive knows) (owned.drawn task) owned.created (Lockfiles.Sound.used guarded))
  refine ⟨?_,?_,?_⟩
  · change Tenancy.Sound home (desk ∘ Function.update phases task _) _
    rw [Function.comp_update]
    refine moved.renew ?_ ?_ ?_
    · intro id running
      refine (running_step guarded alive allowed outcome (owned.drawn task) running).imp_right ?_
      intro ⟨born,inode,owns⟩
      refine ⟨task,inode,?_,?_⟩
      · rw [update_self]
        exact born
      · rw [update_self]
        exact owns
    · intro id gone
      exact gone_step guarded alive allowed outcome gone
    · intro id ⟨durable,present,_⟩ gone
      have absent : after.manifest id = none := gone.2.1
      rw [present] at absent
      cases absent
  · intro other id isDrawn
    by_cases same : other = task
    · subst same
      rw [update_self] at isDrawn ⊢
      rcases outcome.drawn (phases other) with ⟨_,_,born,older⟩ | ⟨fresh,_,_,_,_,isFresh,born⟩
      · exact born.trans (owned.drawn other id (older id isDrawn))
      · rw [isFresh] at isDrawn
        cases isDrawn
        exact born
    · rw [update_of_ne same] at isDrawn ⊢
      exact owned.drawn other id isDrawn
  · intro id someone
    rcases outcome.drawn (phases task) with ⟨same,creators,_⟩ | ⟨fresh,_,_,grown,creators,_⟩
    · rw [same]
      exact owned.created id (creators ▸ someone)
    rw [grown]
    by_cases here : id = fresh
    · rw [here]
      exact List.mem_cons_self
    · rw [creators,update_of_ne here] at someone
      exact List.mem_cons_of_mem _ (owned.created id someone)

end

end Owners

end BazelMcp.Store

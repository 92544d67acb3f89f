import BazelMcp.StoreDiscipline

/-! What an act of a task can do to the world and to the phase of the task, said once
for every invariant: most acts leave manifests, indexes and markers alone. -/
namespace BazelMcp.Store
open StoreIndex Tasks Function List

variable {ι π : Type}

/-- Manifests, indexes, markers and the lock files of manifests are as they were. -/
structure Undisturbed (before after : World ι π) : Prop where
  manifests : after.manifests = before.manifests := by rfl
  drawn : after.drawn = before.drawn := by rfl
  markers : after.markers = before.markers := by rfl
  alive : after.alive = before.alive := by rfl
  index : after.index = before.index := by rfl
  observed : after.observed = before.observed := by rfl
  changing : after.changing = before.changing := by rfl
  writes : after.writes = before.writes := by rfl
  recordings : after.recordings = before.recordings := by rfl
  outside : after.outside = before.outside := by rfl
  moment : before.moment ≤ after.moment := by first | exact Nat.le_refl _ | exact Nat.le_succ _
  inodes : ∀ id, after.inodes (.mutation id) = before.inodes (.mutation id) := by intros; rfl
  holders : ∀ id inode, after.holders ⟨.mutation id,inode⟩ = before.holders ⟨.mutation id,inode⟩ := by intros; rfl

/-- Only the mutexes within a process and the clock may differ. -/
structure Unmoved (before after : World ι π) : Prop extends Undisturbed before after where
  allInodes : after.inodes = before.inodes := by rfl
  allHolders : after.holders = before.holders := by rfl
  leases : after.leases = before.leases := by rfl
  details : after.details = before.details := by rfl
  creators : after.creators = before.creators := by rfl
  abandoned : after.abandoned = before.abandoned := by rfl
  scans : after.scans = before.scans := by rfl
  responses : after.responses = before.responses := by rfl

/-- What a task knows of manifests, indexes and markers is as it was. -/
structure Beside (before after : Phase π) : Prop where
  grip : after.grip = before.grip := by rfl
  due : after.due = before.due := by rfl
  drawn : after.drawn = before.drawn := by rfl
  born : after.born = before.born := by rfl
  snapshot : after.snapshot = before.snapshot := by rfl
  taken : after.taken = before.taken := by rfl
  offered : after.offered = before.offered := by rfl
  raised : after.raised = before.raised := by rfl
  owesPublish : after.owesPublish = before.owesPublish := by rfl
  owesIndex : after.owesIndex = before.owesIndex := by rfl
  deleted : after.deleted = before.deleted := by rfl
  lost : after.lost = before.lost := by rfl
  refresh : after.refresh = before.refresh := by rfl
  looping : after.looping = before.looping := by rfl
  failed : after.failed = before.failed := by rfl
  corrupt : after.corrupt = before.corrupt := by rfl

def faulty : (act : Act π) → Answer act → Bool
  | .openLock _, .error (.io .other) | .listInvocations, .error (.io .other) | .readManifest _, .error (.io .other)
  | .writeManifest .., .error (.io .other) | .renameToTrash .., .error (.io .other) | .writeFiles .., .error (.io .other)
  | .readDetails _, .error (.io .other) | .beginRefresh _, .error (.io .other) | .publish, .error (.io .other) => true
  | .evidenceSize _, none => true
  | _, _ => false

section Outcome
variable [DecidableEq ι] [DecidableEq π] (home : ι → π) (task : ι) (world : World ι π)

/-- What happens beside the manifests: to other locks, leases and details, and to the records of what was done. -/
inductive Aside : (act : Act π) → Answer act → World ι π → Prop
  | opens {path : LockPath} (other : ∀ id, path ≠ .mutation id) : Aside (.openLock path) (.ok (world.inodes path)) world
  | locks {path : LockPath} {inode : Nat} (other : ∀ id, path ≠ .mutation id) (free : world.holders ⟨path,inode⟩ = none) :
      Aside (.lock ⟨path,inode⟩) () (world.hold ⟨path,inode⟩ (some task))
  | takes {path : LockPath} {inode : Nat} (other : ∀ id, path ≠ .mutation id) (free : world.holders ⟨path,inode⟩ = none) :
      Aside (.tryLock ⟨path,inode⟩) true (world.hold ⟨path,inode⟩ (some task))
  | misses {path : LockPath} {inode : Nat} (other : ∀ id, path ≠ .mutation id) (held : world.holders ⟨path,inode⟩ ≠ none) :
      Aside (.tryLock ⟨path,inode⟩) false world
  | unlocks {path : LockPath} {inode : Nat} (other : ∀ id, path ≠ .mutation id) :
      Aside (.unlock ⟨path,inode⟩) () (world.hold ⟨path,inode⟩ none)
  | unlinks {path : LockPath} (other : ∀ id, path ≠ .mutation id) : Aside (.unlink path) ()
      {world with inodes := Function.update world.inodes path (world.inodes path+1)}
  | retains (id : Uuid) (inode : Nat) : Aside (.retainOwner id inode) ()
      {world with leases := Function.update world.leases (home task) (Function.update (world.leases (home task)) id (some inode))}
  | releases {id : Uuid} {inode : Nat} (leased : world.leases (home task) id = some inode) : Aside (.releaseOwner id) ()
      { world.hold ⟨.owner id,inode⟩ none with
        leases := Function.update world.leases (home task) (Function.update (world.leases (home task)) id none) }
  | abandons (id : Uuid) (inode : Nat) : Aside (.abandonOwner id inode) ()
      {world.hold ⟨.owner id,inode⟩ none with abandoned := id::world.abandoned}
  | scans : Aside .scan (Index.nonterminalIds (world.index (home task)))
      {world with scans := ⟨task,Index.nonterminalIds (world.index (home task)),world.alive⟩::world.scans}
  | responds (succeeded : Bool) : Aside (.respond succeeded) ()
      {world with responses := Function.update world.responses task (some succeeded)}
  | places (id : Uuid) (files : Files) : Aside (.writeFiles id files) (.ok ()) (world.placeFiles id files)
  | clocks : Aside .unixTimestampMs world.now.unixTimestampMs world.tick

inductive Outcome : (act : Act π) → Answer act → World ι π → Prop
  | quiet {act : Act π} {answer : Answer act} {after : World ι π} (still : ∀ phase : Phase π, phase.advance act answer = phase)
      (unmoved : Unmoved world after) : Outcome act answer after
  | fault {act : Act π} {answer : Answer act} (failed : ∀ phase : Phase π, phase.advance act answer = phase.fail)
      (faulted : faulty act answer = true) : Outcome act answer world
  | aside {act : Act π} {answer : Answer act} {after : World ι π} (beside : Aside home task world act answer after) :
      Outcome act answer after
  | draws {id : Uuid} (unused : id ∉ world.drawn) : Outcome (.draw id) ()
      { world with
        drawn := id::world.drawn
        creators := Function.update world.creators id (some (home task)) }
  | opens (id : Uuid) : Outcome (.openLock (.mutation id)) (.ok (world.inodes (.mutation id))) world
  | locks {id : Uuid} {inode : Nat} (free : world.holders ⟨.mutation id,inode⟩ = none) :
      Outcome (.lock ⟨.mutation id,inode⟩) () (world.hold ⟨.mutation id,inode⟩ (some task))
  | takes {id : Uuid} {inode : Nat} (free : world.holders ⟨.mutation id,inode⟩ = none) :
      Outcome (.tryLock ⟨.mutation id,inode⟩) true (world.hold ⟨.mutation id,inode⟩ (some task))
  | misses (id : Uuid) (inode : Nat) : Outcome (.tryLock ⟨.mutation id,inode⟩) false world
  | unlocks (id : Uuid) (inode : Nat) : Outcome (.unlock ⟨.mutation id,inode⟩) () (world.hold ⟨.mutation id,inode⟩ none)
  | unlinks (id : Uuid) : Outcome (.unlink (.mutation id)) ()
      {world with inodes := Function.update world.inodes (.mutation id) (world.inodes (.mutation id)+1)}
  | lists {ids : {ids : List Uuid // ids.Nodup}} {after : World ι π} (all : ∀ id, world.manifest id ≠ none → id ∈ ids.val)
      (unmoved : Unmoved world after) : Outcome .listInvocations (.ok ids) after
  | reads {id : Uuid} {durable : DurableRecord} (bytes : Nat) (found : world.manifest id = some durable) :
      Outcome (.readManifest id) (.ok (durable,bytes)) world
  | lacks {id : Uuid} (absent : world.manifest id = none) : Outcome (.readManifest id) (.error (.io .notFound)) world
  | writes {id : Uuid} {read : Option DurableRecord} (written : DurableRecord) (cause : Cause) (bytes : Nat)
      (present : read ≠ none → world.manifest id ≠ none) :
      Outcome (.writeManifest id read written cause) (.ok bytes) (world.write id read written cause)
  | vanished {id : Uuid} (read written : DurableRecord) (cause : Cause) (absent : world.manifest id = none) :
      Outcome (.writeManifest id (some read) written cause) (.error (.io .notFound)) world
  | trashes {id : Uuid} (read : DurableRecord) (nowMs : Int) (present : world.manifest id ≠ none) :
      Outcome (.renameToTrash id read nowMs) (.ok true) (world.erase id (some read) (.retention nowMs))
  | untrashed {id : Uuid} (read : DurableRecord) (nowMs : Int) (absent : world.manifest id = none) :
      Outcome (.renameToTrash id read nowMs) (.ok false) world
  | removes {id : Uuid} (present : world.manifest id ≠ none) :
      Outcome (.removeDirectory id) () (world.erase id (world.manifest id) .change)
  | leaves (id : Uuid) : Outcome (.removeDirectory id) () world
  | begins {force : Bool} (free : world.changing (home task) = none)
      (due : force = true ∨ world.changes ≠ world.observed (home task)) : Outcome (.beginRefresh force) (.ok (some world.changes))
        {world with changing := Function.update world.changing (home task) (some task)}
  | commits (changes : Changes π) : Outcome (.commitRefresh changes) ()
      { world with
        observed := Function.update world.observed (home task) changes
        changing := Function.update world.changing (home task) none }
  | abandons : Outcome .abandonRefresh () {world with changing := Function.update world.changing (home task) none}
  | publishes (free : world.changing (home task) = none) : Outcome .publish (.ok ())
      { world with
        markers := Function.update world.markers (home task) (world.markers (home task)+1)
        observed := Function.update world.observed (home task)
          (Function.update (world.observed (home task)) (home task) (some (world.markers (home task)+1))) }
  | snaps : Outcome .readIndex (world.index (home task)) world
  | updates (change : IndexUpdate) : Outcome (.update change) (change.reply (world.index (home task)))
      { world with
        index := Function.update world.index (home task) (change.apply (world.index (home task)))
        recordings := change.recorded (world.index (home task)) ++ world.recordings }
  | crashes : Outcome .crash ()
      { world with
        alive := Function.update world.alive (home task) false
        holders := fun file => (world.holders file).filter fun holder => home holder ≠ home task }

end Outcome

section Same
variable {α : Type} (view : Phase π → α) (phase : Phase π)

theorem updated_same (ignores : ∀ (phase : Phase π) owesIndex raised looping refresh,
    view {phase with owesIndex, raised, looping, refresh} = view phase) (change : IndexUpdate) (reply : change.Reply) :
    view (phase.updated change reply) = view phase := by
  unfold Phase.updated
  split
  all_goals first | exact ignores phase .. | skip
  split
  · exact ignores phase ..
  · rfl

theorem listed_same (ignores : ∀ (phase : Phase π) refresh failed, view {phase with refresh, failed} = view phase)
    (answer : Except StoreError {ids : List Uuid // ids.Nodup}) : view (phase.listed answer) = view phase := by
  unfold Phase.listed
  split
  · exact ignores phase ..
  · split
    · exact ignores phase ..
    · rfl

theorem wrote_same (ignores : ∀ (phase : Phase π) grip drawn owesPublish owesIndex settled raised failed,
    view {phase with grip, drawn, owesPublish, owesIndex, settled, raised, failed} = view phase) (id : Uuid)
    (read : Option DurableRecord) (written : DurableRecord) (answer : Except StoreError Nat) :
    view (phase.wrote id read written answer) = view phase := by
  unfold Phase.wrote
  split
  · dsimp only
    split
    · exact ignores phase ..
    · exact ignores phase ..
  · exact ignores phase ..
  · exact ignores phase ..

end Same

theorem unmoved_refl (world : World ι π) : Unmoved world world := {}

theorem undisturbed_hold [DecidableEq ι] {world : World ι π} {path : LockPath} {inode : Nat} (other : ∀ id, path ≠ .mutation id)
    (holder : Option ι) : Undisturbed world (world.hold ⟨path,inode⟩ holder) :=
  { holders := by
      intro id version
      apply update_of_ne
      intro same
      exact other id (congrArg LockFile.path same).symm }

theorem undisturbed_unlink {world : World ι π} {path : LockPath} (other : ∀ id, path ≠ .mutation id) :
    Undisturbed world {world with inodes := Function.update world.inodes path (world.inodes path+1)} :=
  { inodes := by
      intro id
      apply update_of_ne
      intro same
      exact other id same.symm }

theorem unmoved_mutationLock [DecidableEq π] (world : World ι π) (process : π) (id : Uuid) :
    Unmoved world (world.mutationLock process id).2 := by
  unfold World.mutationLock
  dsimp only
  split
  · exact {}
  · exact {}

section Aside
variable [DecidableEq ι] [DecidableEq π] {home : ι → π} {task : ι} {world after : World ι π} {act : Act π} {answer : Answer act}

theorem Aside.undisturbed (aside : Aside home task world act answer after) : Undisturbed world after := by
  have owner (id : Uuid) : ∀ other, LockPath.owner id ≠ .mutation other := fun _ => nofun
  cases aside with
  | locks other free | takes other free | unlocks other => exact undisturbed_hold other _
  | unlinks other => exact undisturbed_unlink other
  | @releases id inode leased | abandons id inode =>
    have freed : Undisturbed world (world.hold ⟨.owner id,inode⟩ none) := undisturbed_hold (owner id) none
    exact {freed with}
  | places id files =>
    cases files with
    | _ => exact {}
  | opens | misses | retains | scans | responds | clocks => exact {}

theorem path_aside {path : LockPath} (other : ∀ id, path ≠ .mutation id) : (∃ id, path = .owner id) ∨ path = .maintenance := by
  cases path with
  | mutation id => exact absurd rfl (other id)
  | owner id => exact .inl ⟨id,rfl⟩
  | maintenance => exact .inr rfl

theorem Aside.beside (aside : Aside home task world act answer after) (phase : Phase π) :
    Beside phase (phase.advance act answer) := by
  cases aside with
  | opens | locks | takes | misses | unlocks =>
    rcases path_aside ‹_› with ⟨id,rfl⟩ | rfl
    · exact {}
    · exact {}
  | unlinks | retains | releases | abandons | scans | responds | places | clocks => exact {}

end Aside

section Inversion
variable [DecidableEq ι] [DecidableEq π] [Fintype π] {home : ι → π} {task : ι} {world after : World ι π}

theorem complete_outcome {act : Act π} {answer : Answer act} (possible : (answer,after) ∈ complete home task act world) :
    Outcome home task world act answer after := by
  have same := unmoved_refl world
  have paths (path : LockPath) : (∃ id, path = .mutation id) ∨ ∀ id, path ≠ .mutation id := by
    cases path with
    | mutation id => exact .inl ⟨id,rfl⟩
    | _ => exact .inr fun _ => LockPath.noConfusion
  cases act with
  | begin =>
    cases mem_singleton.mp possible
    exact .quiet (fun _ => rfl) same
  | draw id =>
    dsimp only [complete] at possible
    split at possible
    · cases possible
    · rename_i unused
      cases mem_singleton.mp possible
      exact .draws unused
  | openLock path =>
    rcases mem_pair.mp possible with found | failed
    · cases found
      rcases paths path with ⟨id,rfl⟩ | other
      · exact .opens id
      · exact .aside (.opens other)
    · cases failed
      exact .fault (fun _ => rfl) rfl
  | lock file =>
    dsimp only [complete] at possible
    split at possible
    · rename_i free
      cases mem_singleton.mp possible
      obtain ⟨path,inode⟩ := file
      rcases paths path with ⟨id,rfl⟩ | other
      · exact .locks free
      · exact .aside (.locks other free)
    · cases possible
  | tryLock file =>
    dsimp only [complete] at possible
    obtain ⟨path,inode⟩ := file
    split at possible
    · rename_i free
      cases mem_singleton.mp possible
      rcases paths path with ⟨id,rfl⟩ | other
      · exact .takes free
      · exact .aside (.takes other free)
    · rename_i held
      cases mem_singleton.mp possible
      rcases paths path with ⟨id,rfl⟩ | other
      · exact .misses id inode
      · exact .aside (.misses other held)
  | unlock file =>
    cases mem_singleton.mp possible
    obtain ⟨path,inode⟩ := file
    rcases paths path with ⟨id,rfl⟩ | other
    · exact .unlocks id inode
    · exact .aside (.unlocks other)
  | unlink path =>
    rcases mem_pair.mp possible with gone | kept
    · cases gone
      rcases paths path with ⟨id,rfl⟩ | other
      · exact .unlinks id
      · exact .aside (.unlinks other)
    · cases kept
      exact .quiet (fun _ => rfl) same
  | mutationLock id =>
    have outcome := mem_singleton.mp possible
    rw [show after = (world.mutationLock (home task) id).2 from congrArg Prod.snd outcome]
    exact .quiet (fun _ => rfl) (unmoved_mutationLock world (home task) id)
  | lockMutex mutex =>
    dsimp only [complete] at possible
    split at possible
    · cases possible
    · cases mem_singleton.mp possible
      exact .quiet (fun _ => rfl) {}
  | unlockMutex mutex =>
    cases mem_singleton.mp possible
    exact .quiet (fun _ => rfl) {}
  | retainOwner id inode =>
    cases mem_singleton.mp possible
    exact .aside (.retains id inode)
  | releaseOwner id =>
    dsimp only [complete] at possible
    split at possible
    · cases mem_singleton.mp possible
      exact .quiet (fun _ => rfl) same
    · rename_i inode leased
      cases mem_singleton.mp possible
      exact .aside (.releases leased)
  | abandonOwner id inode =>
    cases mem_singleton.mp possible
    exact .aside (.abandons id inode)
  | scan =>
    cases mem_singleton.mp possible
    exact .aside .scans
  | respond succeeded =>
    cases mem_singleton.mp possible
    exact .aside (.responds succeeded)
  | listInvocations =>
    rcases mem_pair.mp possible with listed | failed
    · cases listed
      refine .lists ?_ {}
      intro id present
      apply mem_dedup.mpr (mem_append_left _ _)
      exact AList.lookup_isSome.mp (Option.isSome_iff_ne_none.mpr present)
    · cases failed
      exact .fault (fun _ => rfl) rfl
  | readManifest id =>
    rcases mem_pair.mp possible with read | failed
    · split at read
      · rename_i durable found
        cases read
        exact .reads _ found
      · rename_i absent
        cases read
        exact .lacks absent
    · cases failed
      exact .fault (fun _ => rfl) rfl
  | writeManifest id read written cause =>
    rcases mem_pair.mp possible with wrote | failed
    · split at wrote
      · rename_i missing
        cases wrote
        obtain ⟨known,absent⟩ := missing
        obtain ⟨durable,rfl⟩ := Option.isSome_iff_exists.mp known
        exact .vanished durable written cause absent
      · rename_i there
        cases wrote
        refine .writes written cause _ ?_
        intro known absent
        exact there ⟨Option.isSome_iff_ne_none.mpr known,absent⟩
    · cases failed
      exact .fault (fun _ => rfl) rfl
  | renameToTrash id read nowMs =>
    rcases mem_pair.mp possible with moved | failed
    · split at moved
      · rename_i absent
        cases moved
        exact .untrashed read nowMs absent
      · rename_i present
        cases moved
        exact .trashes read nowMs present
    · cases failed
      exact .fault (fun _ => rfl) rfl
  | removeDirectory id =>
    rcases mem_pair.mp possible with removed | kept
    · split at removed
      · cases removed
        exact .leaves id
      · rename_i present
        cases removed
        exact .removes present
    · cases kept
      exact .leaves id
  | writeFiles id files =>
    rcases mem_pair.mp possible with written | failed
    · cases written
      exact .aside (.places id files)
    · cases failed
      exact .fault (fun _ => rfl) rfl
  | readDetails id =>
    rcases mem_pair.mp possible with found | failed
    · cases found
      exact .quiet (fun _ => rfl) same
    · cases failed
      exact .fault (fun _ => rfl) rfl
  | evidenceSize id =>
    rcases mem_pair.mp possible with measured | failed
    · cases measured
      exact .quiet (fun _ => rfl) {}
    · cases failed
      exact .fault (fun _ => rfl) rfl
  | unixTimestampMs =>
    cases mem_singleton.mp possible
    exact .aside .clocks
  | claimCheck =>
    rcases mem_pair.mp possible with due | early
    · cases due
      exact .quiet (fun _ => rfl) same
    · cases early
      exact .quiet (fun _ => rfl) same
  | beginRefresh force =>
    dsimp only [complete] at possible
    split at possible
    · rename_i free
      rcases mem_pair.mp possible with begun | failed
      · split at begun
        · cases begun
          exact .quiet (fun _ => rfl) same
        rename_i due
        cases begun
        refine .begins free ?_
        by_contra neither
        apply due
        rw [not_or,not_not] at neither
        exact ⟨by simpa using neither.1,neither.2⟩
      · cases failed
        exact .fault (fun _ => rfl) rfl
    · cases possible
  | commitRefresh changes =>
    cases mem_singleton.mp possible
    exact .commits changes
  | abandonRefresh =>
    cases mem_singleton.mp possible
    exact .abandons
  | publish =>
    dsimp only [complete] at possible
    split at possible
    · rename_i free
      rcases mem_pair.mp possible with published | failed
      · cases published
        exact .publishes free
      · cases failed
        exact .fault (fun _ => rfl) rfl
    · cases possible
  | readIndex =>
    cases mem_singleton.mp possible
    exact .snaps
  | update change =>
    cases mem_singleton.mp possible
    exact .updates change
  | stall => exact answer.elim
  | crash =>
    cases mem_singleton.mp possible
    exact .crashes

/-- A task of a live process acts, and in one of these ways. -/
theorem effect_outcome {act : Act π} {answer : Answer act} (possible : (answer,after) ∈ effect home task act world) :
    world.alive (home task) = true ∧ Outcome home task world act answer after := by
  unfold effect at possible
  split at possible
  · rename_i alive
    exact ⟨alive,complete_outcome possible⟩
  · cases possible

end Inversion

/-! ### One thing at a time -/

section Views
variable [DecidableEq ι] [DecidableEq π] {home : ι → π} {task : ι} {world after : World ι π} {act : Act π} {answer : Answer act}

theorem Outcome.manifests (outcome : Outcome home task world act answer after) : after.manifests = world.manifests ∨
    (∃ id read written cause, act = .writeManifest id read written cause ∧ after = world.write id read written cause) ∨
    (∃ id read nowMs, act = .renameToTrash id read nowMs ∧ after = world.erase id (some read) (.retention nowMs)) ∨
    ∃ id, act = .removeDirectory id ∧ after = world.erase id (world.manifest id) .change := by
  cases outcome with
  | quiet still unmoved | lists all unmoved => exact .inl unmoved.manifests
  | aside beside => exact .inl beside.undisturbed.manifests
  | writes written cause bytes present => exact .inr (.inl ⟨_,_,written,cause,rfl,rfl⟩)
  | trashes read nowMs present => exact .inr (.inr (.inl ⟨_,read,nowMs,rfl,rfl⟩))
  | removes present => exact .inr (.inr (.inr ⟨_,rfl,rfl⟩))
  | _ => exact .inl rfl

section
variable (outcome : Outcome home task world act answer after)
include outcome

theorem Outcome.drawn (phase : Phase π) :
    (after.drawn = world.drawn ∧ after.creators = world.creators ∧ (phase.advance act answer).born = phase.born ∧
      ∀ id, (phase.advance act answer).drawn = some id → phase.drawn = some id) ∨
    ∃ id, act = .draw id ∧ id ∉ world.drawn ∧ after.drawn = id::world.drawn ∧
      after.creators = Function.update world.creators id (some (home task)) ∧
      (phase.advance act answer).drawn = some id ∧ (phase.advance act answer).born = some id := by
  have same (id : Uuid) (drawn : phase.drawn = some id) : phase.drawn = some id := drawn
  cases outcome with
  | quiet still unmoved =>
    rw [still]
    exact .inl ⟨unmoved.drawn,unmoved.creators,rfl,same⟩
  | fault failed =>
    rw [failed]
    exact .inl ⟨rfl,rfl,rfl,same⟩
  | aside beside =>
    have quiet := beside.beside phase
    refine .inl ⟨beside.undisturbed.drawn,?_,quiet.born,fun id drawn => quiet.drawn ▸ drawn⟩
    cases beside with
    | places id files =>
      cases files with
      | _ => rfl
    | _ => rfl
  | draws unused => exact .inr ⟨_,rfl,unused,rfl,rfl,rfl,rfl⟩
  | @lists ids _ all unmoved =>
    have kept : (phase.listed _).drawn = _ := listed_same Phase.drawn phase (fun _ _ _ => rfl) (.ok ids)
    exact .inl ⟨unmoved.drawn,unmoved.creators,listed_same Phase.born phase (fun _ _ _ => rfl) _,fun id drawn => kept ▸ drawn⟩
  | @writes id read written cause bytes present =>
    refine .inl ⟨rfl,rfl,wrote_same Phase.born phase (fun _ _ _ _ _ _ _ _ => rfl) id read written _,?_⟩
    intro other drawn
    cases drawn
  | updates change =>
    exact .inl ⟨rfl,rfl,updated_same Phase.born phase (fun _ _ _ _ _ => rfl) change _,
      fun id drawn => (updated_same Phase.drawn phase (fun _ _ _ _ _ => rfl) change _).symm.trans drawn⟩
  | _ => exact .inl ⟨rfl,rfl,rfl,same⟩

theorem Outcome.index : after.index = world.index ∨ ∃ change, act = .update change ∧
      after.index = Function.update world.index (home task) (change.apply (world.index (home task))) := by
  cases outcome with
  | quiet still unmoved | lists all unmoved => exact .inl unmoved.index
  | aside beside => exact .inl beside.undisturbed.index
  | updates change => exact .inr ⟨change,rfl,rfl⟩
  | _ => exact .inl rfl

theorem Outcome.alive {process : π} (living : after.alive process = true) : world.alive process = true := by
  cases outcome with
  | quiet still unmoved | lists all unmoved => exact unmoved.alive ▸ living
  | aside beside => exact beside.undisturbed.alive ▸ living
  | crashes =>
    have here : Function.update world.alive (home task) false process = true := living
    by_cases same : process = home task
    · rw [same,update_self] at here
      cases here
    · rw [update_of_ne same] at here
      exact here
  | _ => exact living

theorem Outcome.loading {phase : Phase π} {changes : Changes π} {remaining : List Uuid}
    {known : Uuid → Option DurableRecord} (loading : (phase.advance act answer).refresh = .loading changes remaining known) {id : Uuid}
    (present : known id ≠ none) :
    world.manifest id ≠ none ∨ ∃ remaining known, phase.refresh = .loading changes remaining known ∧ known id ≠ none := by
  have older (same : phase.refresh = .loading changes remaining known) :
      world.manifest id ≠ none ∨ ∃ remaining known, phase.refresh = .loading changes remaining known ∧ known id ≠ none :=
    .inr ⟨remaining,known,same,present⟩
  have saw (key : Uuid) (manifest : Option DurableRecord) (found : world.manifest key = manifest)
      (seen : phase.refresh.saw key manifest = .loading changes remaining known) :
      world.manifest id ≠ none ∨ ∃ remaining known, phase.refresh = .loading changes remaining known ∧ known id ≠ none := by
    cases isRefresh : phase.refresh with
    | loading listed left before =>
      rw [isRefresh] at seen
      cases seen
      by_cases here : id = key
      · subst here
        rw [update_self] at present
        exact .inl (found ▸ present)
      · rw [update_of_ne here] at present
        exact .inr ⟨left,before,rfl,present⟩
    | idle | begun listed | installed listed =>
      rw [isRefresh] at seen
      cases seen
  cases outcome with
  | quiet still unmoved =>
    rw [still] at loading
    exact older loading
  | fault failed =>
    rw [failed] at loading
    exact older loading
  | aside beside => exact older ((beside.beside phase).refresh ▸ loading)
  | @lists ids _ all unmoved =>
    change (phase.listed (.ok ids)).refresh = _ at loading
    unfold Phase.listed at loading
    dsimp only at loading
    split at loading
    · cases loading
      exact absurd rfl present
    · exact older loading
  | reads bytes found => exact saw _ _ found loading
  | lacks absent => exact saw _ _ absent loading
  | @writes key read written cause bytes there =>
    exact older ((wrote_same Phase.refresh phase (fun _ _ _ _ _ _ _ _ => rfl) key read written _).symm.trans loading)
  | begins | commits | abandons => cases loading
  | updates change =>
    change (phase.updated change _).refresh = _ at loading
    unfold Phase.updated at loading
    split at loading
    all_goals first | exact older loading | skip
    split at loading
    · cases loading
    · exact older loading
  | _ => exact older loading

theorem Outcome.due (phase : Phase π) : (phase.advance act answer).due = phase.due := by
  cases outcome with
  | quiet still unmoved => rw [still]
  | fault failed =>
    rw [failed]
    rfl
  | aside beside => exact (beside.beside phase).due
  | lists all unmoved => exact listed_same Phase.due phase (fun _ _ _ => rfl) _
  | @writes id read written cause bytes present => exact wrote_same Phase.due phase (fun _ _ _ _ _ _ _ _ => rfl) id read written _
  | updates change => exact updated_same Phase.due phase (fun _ _ _ _ _ => rfl) change _
  | _ => rfl

theorem Outcome.outside : after.outside = world.outside ∧ world.moment ≤ after.moment := by
  cases outcome with
  | quiet still unmoved | lists all unmoved => exact ⟨unmoved.outside,unmoved.moment⟩
  | aside beside => exact ⟨beside.undisturbed.outside,beside.undisturbed.moment⟩
  | _ => exact ⟨rfl,Nat.le_refl _⟩

theorem Outcome.clock {phase : Phase π} {now : Int} (told : (phase.advance act answer).clock = some now) :
    phase.clock = some now ∨ now = world.now.unixTimestampMs ∧ after = world.tick := by
  cases outcome with
  | quiet still unmoved =>
    rw [still] at told
    exact .inl told
  | fault failed =>
    rw [failed] at told
    exact .inl told
  | aside beside =>
    cases beside with
    | opens | locks | takes | misses | unlocks =>
      rcases path_aside ‹_› with ⟨id,rfl⟩ | rfl
      · exact .inl told
      · exact .inl told
    | clocks => exact .inr ⟨(Option.some.inj told).symm,rfl⟩
    | _ => exact .inl told
  | locks free | takes free => cases told
  | lists all unmoved => exact .inl ((listed_same Phase.clock phase (fun _ _ _ => rfl) _).symm.trans told)
  | @writes id read written cause bytes present =>
    exact .inl ((wrote_same Phase.clock phase (fun _ _ _ _ _ _ _ _ => rfl) id read written _).symm.trans told)
  | updates change => exact .inl ((updated_same Phase.clock phase (fun _ _ _ _ _ => rfl) change _).symm.trans told)
  | _ => exact .inl told

theorem Outcome.details {id : Uuid} (changed : after.details id ≠ world.details id) :
    (∃ details, act = .writeFiles id (.details details)) ∨
    (∃ read nowMs, act = .renameToTrash id read nowMs ∧ after = world.erase id (some read) (.retention nowMs)) ∨
    act = .removeDirectory id ∧ world.manifest id ≠ none ∧ after = world.erase id (world.manifest id) .change := by
  -- An update at another invocation leaves the details alone.
  have elsewhere {key : Uuid} {details : Option InvocationDetails}
      (differs : Function.update world.details key details id ≠ world.details id) : key = id := by
    by_contra different
    exact differs (update_of_ne (Ne.symm different) _ _)
  cases outcome with
  | quiet still unmoved | lists all unmoved => exact absurd (congrFun unmoved.details id) changed
  | aside beside =>
    cases beside with
    | places key files =>
      cases files with
      | details details =>
        have same := elsewhere changed
        subst same
        exact .inl ⟨details,rfl⟩
      | directory | artifacts | rawEvidence => exact absurd rfl changed
    | _ => exact absurd rfl changed
  | trashes read nowMs present =>
    have same := elsewhere changed
    subst same
    exact .inr (.inl ⟨read,nowMs,rfl,rfl⟩)
  | removes present =>
    have same := elsewhere changed
    subst same
    exact .inr (.inr ⟨rfl,present,rfl⟩)
  | _ => exact absurd rfl changed

end

end Views
end BazelMcp.Store

import BazelMcp.ManifestUpdates

/-! What the writes of a run have in common: how a manifest may follow another, when a
deferred record may go and when a directory may. From that, endings are permanent and a
deferred record is dropped only after it was seen to be expired. -/
namespace BazelMcp.Store
open StoreIndex Tasks Typestate

variable {ι π : Type}

def DurableRecord.Unprotected (durable : DurableRecord) (nowMs : Int) : Prop :=
  ∀ deferred, durable.deferred = some deferred → deferred.expiresAtMs ≤ nowMs

/-- What a task has to know of a manifest before it writes or removes it. -/
def Lawful (write : Write) : Prop :=
  match write.read,write.written with
  | none,some written => written.invocation.id = write.id ∧ write.cause = .change
  | some read,some written => Succeeds write.cause read written
  | some read,none => write.cause = .change ∨ ∃ nowMs, write.cause = .retention nowMs ∧ read.ended = true ∧ read.Unprotected nowMs
  | none,none => False

section Lawful
variable [DecidableEq ι] [DecidableEq π] {home : ι → π} {task : ι} {phase : Phase π} {world after : World ι π} {act : Act π}
variable {answer : Answer act}

theorem logged (allowed : phase.Allowed act) (outcome : Outcome home task world act answer after) :
    after.writes = world.writes ∨ ∃ write, after.writes = write::world.writes ∧ Lawful write ∧
      ∀ written, write.written = some written → act = .writeManifest write.id write.read written write.cause := by
  cases outcome with
  | quiet still unmoved | lists all unmoved => exact .inl unmoved.writes
  | aside beside => exact .inl beside.undisturbed.writes
  | @writes id read written cause bytes present =>
    obtain ⟨_,may,_⟩ := allowed
    refine .inr ⟨⟨id,read,some written,cause⟩,rfl,?_,fun _ same => Option.some.inj same ▸ rfl⟩
    cases read with
    | none => exact ⟨may.2.1,may.2.2.1⟩
    | some read => exact may.2.1
  | @trashes id read nowMs present =>
    obtain ⟨_,_,_,ended,unprotected⟩ := allowed
    exact .inr ⟨⟨id,some read,none,.retention nowMs⟩,rfl,.inr ⟨nowMs,rfl,ended,unprotected⟩,fun _ never => by cases never⟩
  | @removes id present =>
    refine .inr ⟨⟨id,world.manifest id,none,.change⟩,rfl,?_,fun _ never => by cases never⟩
    cases isManifest : world.manifest id with
    | none => exact absurd isManifest present
    | some durable => exact .inl rfl
  | _ => exact .inl rfl

end Lawful

section Runs
variable [DecidableEq ι] [DecidableEq π] {home : ι → π} {operations : ι → Operation} {world : World ι π}
variable {permit : ι → (act : Act π) → World ι π → Answer act → World ι π → Bool} {config later : Config (Act π) Answer (World ι π) ι}

/-- What holds of every write that one act makes holds of all writes. -/
theorem writes_reach [Fintype π] {good : Write → Prop} (untouched : Untouched world)
    (made : ∀ {task act before answer after} (write : Write), Lawful write →
      (∀ written, write.written = some written → act = .writeManifest write.id write.read written write.cause) →
      permit task act before answer after = true → good write)
    (reached : Reach (effect home) permit (launch operations world) config) : ∀ write ∈ config.state.writes, good write := by
  have none : ∀ write ∈ world.writes, good write := by
    intro write member
    rw [untouched.writes] at member
    cases member
  obtain ⟨_,_,_,holds⟩ := @store_reach ι π _ _ _ home operations world permit config
    (fun _ world => ∀ write ∈ world.writes, good write) untouched none (by
      intro phases before task act answer after _ holds allowed _ outcome permitted write member
      rcases logged allowed outcome with same | ⟨fresh,grown,lawful,isAct⟩
      · exact holds write (same ▸ member)
      rw [grown] at member
      rcases List.mem_cons.mp member with new | old
      · exact new ▸ made fresh lawful isAct permitted
      · exact holds write old) reached
  exact holds

/-! ### Endings -/

theorem lasting_step {initial : Uuid → Option DurableRecord} {phases : ι → Phase π} {task : ι} {act : Act π} {answer : Answer act}
    {before after : World ι π} {id : Uuid} {good : DurableRecord → Prop} (guarded : Guarded home initial phases before)
    (alive : before.alive (home task) = true) (allowed : (phases task).Allowed act) (outcome : Outcome home task before act answer after)
    (inherited : ∀ cause read written, Succeeds cause read written → good read → good written)
    (lasting : Lockfiles.Lasting good (fun task => seat (phases task)) (shelf home before) id) :
    Lockfiles.Lasting good (fun other => seat (Function.update phases task ((phases task).advance act answer) other)) (shelf home after) id := by
  change Lockfiles.Lasting good (seat ∘ Function.update phases task _) _ id
  rw [Function.comp_update]
  apply Lockfiles.Sound.lasting guarded alive (simulates allowed outcome) lasting
  intro read written grown holds
  have entries : after.writes.map Write.entry = ⟨id,some read,some written⟩::before.writes.map Write.entry := grown
  rcases logged allowed outcome with unchanged | ⟨write,isWrite,lawful,_⟩
  · rw [unchanged] at entries
    exact absurd (congrArg List.length entries) (by simp)
  rw [isWrite,List.map_cons] at entries
  obtain ⟨entry,_⟩ := List.cons.inj entries
  obtain ⟨key,found,left,cause⟩ := write
  cases entry
  exact inherited cause read written lawful holds

theorem Succeeds.ended {cause : Cause} {read written : DurableRecord} (succeeds : Succeeds cause read written)
    (ended : read.ended = true) : written.ended = true := by
  have state : written.invocation.state = read.invocation.state := congrArg Prod.fst (succeeds.ending ended)
  unfold DurableRecord.ended at ended ⊢
  rw [state]
  exact ended

end Runs

def failThenExplain : Fin 2 → Operation
  | 0 => .transition 7 .failed none none
  | 1 => .mutate 7 false (.updateCancellationReason "") rfl

/-- A write that leaves no deferred record where there was one found it expired at the time it was told. -/
def Expires (write : Write) : Prop := ∀ read written deferred, write.read = some read → write.written = some written →
  read.deferred = some deferred → written.deferred = none →
    ∃ nowMs seen, write.cause = .expiry nowMs seen ∧ deferred.isExpired nowMs read.ended = true

/-- A deferred record that was seen to be expired is still the one of the terminal manifest when it is dropped. -/
def undisputed {ι π : Type} (_ : ι) : (act : Act π) → World ι π → Answer act → World ι π → Bool
  | .writeManifest _ (some read) _ (.expiry _ seen),_,_,_ => read.deferred.all fun deferred => decide (deferred = seen) && read.ended
  | _,_,_,_ => true

theorem expires_of_undisputed {write : Write} (lawful : Lawful write)
    (same : ∀ read written nowMs seen deferred, write.read = some read → write.written = some written →
      write.cause = .expiry nowMs seen → read.deferred = some deferred → deferred = seen ∧ read.ended = true) : Expires write := by
  intro read written deferred isRead isWritten isDeferred dropped
  have succeeds : Succeeds write.cause read written := by
    unfold Lawful at lawful
    rw [isRead,isWritten] at lawful
    exact lawful
  rcases succeeds.deferred dropped with absent | ⟨nowMs,seen,isCause,due⟩
  · rw [isDeferred] at absent
    cases absent
  obtain ⟨isSeen,ended⟩ := same read written nowMs seen deferred isRead isWritten isCause isDeferred
  subst isSeen
  refine ⟨nowMs,deferred,isCause,?_⟩
  unfold DeferredResultRecord.isExpired
  rw [ended,Bool.true_and]
  exact decide_eq_true due

section Expiry
variable [DecidableEq ι] [DecidableEq π] [Fintype π] {config : Config (Act π) Answer (World ι π) ι}

/-- In every run in which no expiry is overtaken, a deferred record is dropped only when it is expired. -/
theorem deferred_dropped_expired (home : ι → π) (operations : ι → Operation) (world : World ι π) (untouched : Untouched world)
    (reached : Reach (effect home) undisputed (launch operations world) config) :
    ∀ write ∈ config.state.writes, Expires write := by
  refine writes_reach untouched ?_ reached
  intro task act before answer after write lawful isAct permitted
  apply expires_of_undisputed lawful
  intro read written nowMs seen deferred isRead isWritten isCause isDeferred
  have written := isAct written isWritten
  rw [isRead,isCause] at written
  subst written
  change (read.deferred.all fun deferred => decide (deferred = seen) && read.ended) = true at permitted
  rw [isDeferred,Option.all_some,Bool.and_eq_true,decide_eq_true_eq] at permitted
  exact permitted

end Expiry

/-- A deferred record was dropped although it is not expired. -/
def premature (write : Write) : Bool :=
  match write.read,write.written,write.cause with
  | some read,some written,.expiry nowMs _ => written.deferred.isNone && read.deferred.any fun deferred => !deferred.isExpired nowMs read.ended
  | _,_,_ => false

theorem not_expires_of_premature {write : Write} (early : premature write = true) : ¬ Expires write := by
  unfold premature at early
  split at early
  · rename_i read written nowMs seen isRead isWritten isCause
    rw [Bool.and_eq_true] at early
    obtain ⟨dropped,live⟩ := early
    intro expires
    cases isDeferred : read.deferred with
    | none => simp [isDeferred] at live
    | some deferred =>
      obtain ⟨_,_,same,expired⟩ := expires read written deferred isRead isWritten isDeferred (Option.isNone_iff_eq_none.mp dropped)
      rw [isCause] at same
      cases same
      simp [isDeferred,expired] at live
  · cases early

def deferredUntilFive : DurableRecord where
  invocation := plainHeader 7 .succeeded
  deferred := some {invocationId := 7, retrieval := .inlineResult, createdAtMs := 0, updatedAtMs := 0, expiresAtMs := 5}

def pollAndExtend : Fin 2 → Operation
  | 0 => .deferred 7 .inlineResult 10
  | 1 => .mutate 7 false (.extendDeferredExpiry 100 1) rfl

/-- The poll decides on the index; the extension comes before it takes the lock. -/
theorem extended_record_dropped : ∃ config,
    Reach (effect fun _ : Fin 2 => ()) anyhow (launch pollAndExtend (cacheOf deferredUntilFive)) config ∧
    ¬ ∀ write ∈ config.state.writes, Expires write := by
  have replayed : (replay (effect fun _ : Fin 2 => ()) anyhow (launch pollAndExtend (cacheOf deferredUntilFive))
      (turns 0 [0,1,0,0] ++ turns 1 ([0,0,0,1] ++ List.replicate 11 0) ++ turns 0 ([0,0,1] ++ List.replicate 6 0))).any
      (fun config => config.state.writes.any premature) = true := by decide +kernel
  obtain ⟨config,reached,checked⟩ := replay_exists replayed
  obtain ⟨write,member,early⟩ := List.any_eq_true.mp checked
  exact ⟨config,reached,fun expires => not_expires_of_premature early (expires write member)⟩

theorem expired_record_dropped : ∃ config,
    Reach (effect fun _ : Fin 2 => ()) undisputed (launch pollAndExtend (cacheOf deferredUntilFive)) config ∧
    config.state.writes.length = 1 ∧ ∀ write ∈ config.state.writes, Expires write := by
  have replayed : (replay (effect fun _ : Fin 2 => ()) undisputed (launch pollAndExtend (cacheOf deferredUntilFive))
      (turns 0 ([0,1,0,0,0,0,1] ++ List.replicate 6 0))).any
      (fun config => decide (config.state.writes.length = 1)) = true := by decide +kernel
  obtain ⟨config,reached,one⟩ := replay_exists replayed
  exact ⟨config,reached,of_decide_eq_true one,deferred_dropped_expired _ _ _ (cacheOf_untouched _) reached⟩

end BazelMcp.Store

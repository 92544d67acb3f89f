import BazelMcp.StoreConformance

/-! Recovery, retention and creation keep the discipline although they leave what they
did unannounced for a while, and so does every task of a store. -/
namespace BazelMcp.Store
open StoreIndex Tasks Typestate List Prod

variable {π α : Type}

/-- What is left to announce and to show is among the given identifiers, unless the disk failed. -/
structure Owing (base : Phase π) (publish index : List Uuid) (phase : Phase π) : Prop extends Carried base phase where
  refresh : phase.refresh = .idle
  raised : phase.raised = false
  drawn : phase.drawn = none
  looping : phase.looping = none
  publish : ∀ id ∈ phase.owesPublish, id ∈ publish ∨ phase.failed = true
  index : ∀ id ∈ phase.owesIndex, id ∈ index ∨ phase.failed = true

/-- The task stopped at a failure of the disk, after at least these deletions. -/
structure Failed (base : Phase π) (deleted : List Uuid) (phase : Phase π) : Prop extends Carried base phase where
  failed : phase.failed = true
  refresh : phase.refresh = .idle
  looping : phase.looping = none
  deleted : ∀ id ∈ deleted, id ∈ phase.deleted

section Owing
variable {phase base before after : Phase π} {id : Uuid} {inode : Nat} {publish index : List Uuid}

theorem Owing.kept (owing : Owing base publish index before) (kept : Kept before after) (idle : after.refresh = .idle) :
    Owing base publish index after where
  toCarried := owing.toCarried.trans kept.toCarried
  refresh := idle
  raised := kept.raised.trans owing.raised
  drawn := kept.drawn.trans owing.drawn
  looping := kept.looping.elim (fun same => same.trans owing.looping) fun ended => ended
  publish := by
    rw [kept.owesPublish]
    intro id member
    exact (owing.publish id member).imp_right kept.failed
  index := by
    rw [kept.owesIndex]
    intro id member
    exact (owing.index id member).imp_right kept.failed

theorem Owing.within {publish' index' : List Uuid} (owing : Owing base publish index phase)
    (publishes : ∀ id ∈ publish, id ∈ publish') (indexes : ∀ id ∈ index, id ∈ index') : Owing base publish' index' phase :=
  { owing with
    publish id member := (owing.publish id member).imp_left (publishes id)
    index id member := (owing.index id member).imp_left (indexes id) }

theorem Owing.rested (owing : Owing base [] [] phase) (free : phase.grip = .empty) : Rested phase where
  grip := free
  refresh := owing.refresh
  raised := owing.raised
  drawn := owing.drawn
  debts := by
    by_cases failed : phase.failed = true
    · exact .inl failed
    refine .inr ⟨eq_nil_iff_forall_not_mem.mpr ?_,eq_nil_iff_forall_not_mem.mpr ?_⟩
    · intro id member
      exact (owing.publish id member).elim nofun failed
    · intro id member
      exact (owing.index id member).elim nofun failed

theorem Rests.owing (rests : Rests base phase) (ended : base.looping = none) : Owing base [] [] phase where
  toCarried := rests.toCarried
  refresh := rests.refresh
  raised := rests.raised
  drawn := rests.drawn
  looping := rests.ended ended
  publish id member := by
    rcases rests.debts with failed | ⟨published,_⟩
    · exact .inr failed
    · exact .inl (published ▸ member)
  index id member := by
    rcases rests.debts with failed | ⟨_,indexed⟩
    · exact .inr failed
    · exact .inl (indexed ▸ member)

theorem Owing.mayRelease {file : LockFile} (owing : Owing base publish index phase) (held : phase.grip.Holds file) :
    phase.MayRelease file :=
  ⟨held,fun raised => absurd (raised.symm.trans owing.raised) (by decide)⟩

theorem Owing.freed (owing : Owing base publish index phase) : Owing base publish index phase.freed := {owing with raised := rfl}

variable {deleted : List Uuid}

theorem Owing.failed (owing : Owing base publish index phase) (since : ∀ id ∈ deleted, id ∈ phase.deleted) :
    Failed base deleted phase.fail := ⟨{owing.toCarried with},rfl,owing.refresh,owing.looping,since⟩

theorem Owing.locked (owing : Owing base publish index phase) :
    (phase.acquired ⟨.mutation id,inode⟩).grip = .locked ⟨.mutation id,inode⟩ := by
  apply if_neg
  rw [owing.drawn]
  nofun

theorem Owing.written {read written : DurableRecord} (owing : Owing base publish index before)
    (wrote : Written id (some read) written before after) (same : written.telemetry = read.telemetry) :
    Owing base (id::publish) (id::index) after where
  toCarried := owing.toCarried.trans wrote.toCarried
  refresh := wrote.refresh.trans owing.refresh
  raised := by
    apply wrote.unraised
    intro durable isRead
    cases isRead
    exact same ▸ le_sup_left
  drawn := wrote.drawn
  looping := wrote.looping.trans owing.looping
  publish other member := by
    rw [wrote.failed]
    rcases wrote.owesPublish other member with same | old
    · exact .inl (mem_cons.mpr (.inl same))
    · exact (owing.publish other old).imp_left (mem_cons_of_mem id)
  index other member := by
    rw [wrote.failed]
    rcases wrote.owesIndex other member with same | old
    · exact .inl (mem_cons.mpr (.inl same))
    · exact (owing.index other old).imp_left (mem_cons_of_mem id)

theorem Owing.bereft {manifest : Option DurableRecord} (owing : Owing base publish index phase)
    (known : phase.grip = .knows ⟨.mutation id,inode⟩ manifest) (since : ∀ id ∈ deleted, id ∈ phase.deleted) :
    phase.bereft.MayRelease ⟨.mutation id,inode⟩ ∧ Failed base deleted phase.bereft := by
  refine ⟨⟨?_,fun _ => rfl⟩,{owing.failed since with}⟩
  change (phase.grip.wrote none).Holds _
  rw [known]
  rfl

theorem keeps_owingSection {body : Op π α} {ok : α → Phase π → Prop} (owing : Owing base publish index phase)
    (free : phase.grip = .empty) (since : ∀ id ∈ deleted, id ∈ phase.deleted)
    (keeps : ∀ inode after, Kept phase after → Owing base publish index after → after.grip = .locked ⟨.mutation id,inode⟩ →
      Keeps body after (fun value last => last.MayRelease ⟨.mutation id,inode⟩ ∧ ok value last.freed)
        fun _ last => last.MayRelease ⟨.mutation id,inode⟩ ∧ Failed base deleted last) :
    Keeps (withProcessMutation id body) phase ok fun _ => Failed base deleted := by
  apply keeps_withProcessMutation free
  · intro error
    exact owing.failed since
  intro inode
  have kept := Kept.acquired phase id inode
  apply (keeps inode _ kept (owing.kept kept owing.refresh) owing.locked).weaken
  · intro value last holds
    exact holds
  · intro error last ⟨release,failed⟩
    exact ⟨release,{failed with}⟩

end Owing

/-- How an operation that looked at other invocations leaves its locks. -/
structure Ends (base after : Phase π) : Prop where
  owning : after.owning = base.owning
  maintaining : after.maintaining = base.maintaining
  finished : after.Finished

section Ends
variable {phase base : Phase π}

theorem Rests.ends (rests : Rests base phase) (ended : base.looping = none) : Ends base phase :=
  ⟨rests.owning,rests.maintaining,rests.debts,rests.ended ended⟩

theorem Failed.ends {deleted : List Uuid} (failed : Failed base deleted phase) : Ends base phase :=
  ⟨failed.owning,failed.maintaining,.inl failed.failed,failed.looping⟩

theorem Carried.accounted (carried : Carried base phase) (accounted : base.Accounted) : phase.Accounted := by
  intro id member
  rw [carried.scanned] at member
  exact (accounted id member).imp (carried.settled id) (carried.skipped id)

end Ends

/-! ### Recovery -/

section Recovery
variable {phase base : Phase π} {id : Uuid} {inode : Nat} {ids : List Uuid}

/-- The task may recover invocations: it holds the maintenance lock and creates none itself. -/
structure Maintains (phase : Phase π) : Prop where
  maintaining : phase.maintaining ≠ none
  born : phase.born = none

theorem keeps_recoverManifest (maintains : Maintains base) (owns : base.Owns id) (owing : Owing base ids ids phase)
    (locked : phase.grip = .locked ⟨.mutation id,inode⟩) : Keeps (recoverManifest id) phase
      (fun entry after => after.MayRelease ⟨.mutation id,inode⟩ ∧ (∀ other ∈ entry.toList.map fst, other = id) ∧
        id ∈ after.freed.settled ∧ Owing base (entry.toList.map fst ++ ids) (entry.toList.map fst ++ ids) after.freed)
      fun _ after => after.MayRelease ⟨.mutation id,inode⟩ ∧ Failed base [] after := by
  have failing (after : Phase π) (owing : Owing base ids ids after) (held : after.grip.Holds ⟨.mutation id,inode⟩) :
      after.fail.MayRelease ⟨.mutation id,inode⟩ ∧ Failed base [] after.fail := ⟨⟨held,fun _ => rfl⟩,owing.failed nofun⟩
  rw [recoverManifest,keeps_bind,keeps_attempt]
  apply keeps_readManifest locked owing.refresh
  · intro durable bytes after kept known idle _ settled
    have owing := owing.kept kept idle
    have held := knows_holds known
    dsimp only
    split
    · rename_i ended
      exact ⟨owing.mayRelease held,fun _ => mem_singleton.mp,settled ended,
        owing.freed.within (fun _ => mem_cons_of_mem id) fun _ => mem_cons_of_mem id⟩
    rename_i running
    have running : durable.ended = false := Bool.eq_false_iff.mpr running
    rw [keeps_bind,keeps_unixTimestampMs]
    intro now
    have owing := owing.kept (Kept.clocked after now) idle
    rw [keeps_bind,keeps_writeFiles]
    refine ⟨⟨durable,⟨inode,known⟩,running⟩,?_,fun error => failing _ owing held⟩
    intro _
    rw [keeps_bind]
    have recovering : Phase.Owns {after with clock := some now} id ∧ after.maintaining ≠ none ∧ after.born = none := by
      obtain ⟨file,isOwned⟩ := owns
      refine ⟨⟨file,owing.owning.trans isOwned⟩,?_,owing.born.trans maintains.born⟩
      rw [show after.maintaining = base.maintaining from owing.maintaining]
      exact maintains.maintaining
    have may : Phase.MayWrite {after with clock := some now} id (interrupted durable now) .recovery (some durable) :=
      ⟨owing.drawn,succeeds_unended running rfl Option.map_eq_none_iff.mp fun _ => rfl,⟨le_sup_of_le_left le_sup_left,.inl le_rfl⟩,
        fun _ => recovering⟩
    have knows : Phase.Knows {after with clock := some now} id (some durable) := ⟨inode,known⟩
    apply keeps_persistDurable knows may owing.raised idle
    · intro size retained last wrote
      have owing := owing.written wrote rfl
      exact ⟨owing.mayRelease (knows_holds (wrote.knows known)),fun _ => mem_singleton.mp,wrote.settles rfl,owing.freed⟩
    · intro error _
      exact failing _ owing held
    · exact owing.bereft known nofun
  · intro after kept known idle _ settled
    have owing := owing.kept kept idle
    exact ⟨owing.mayRelease (knows_holds known),nofun,settled,owing.freed⟩
  · intro error other
    have failed := failing phase owing (locked_holds locked)
    split <;> first | exact failed | simp_all

theorem Carried.unowned {file : LockFile} (carried : Carried (base.owned file) phase)
    (free : base.owning = none) : Carried base {phase with owning := none} :=
  {carried with owning := free.symm}

theorem keeps_recoverId (maintains : Maintains base) (unowned : base.owning = none) (owing : Owing base ids ids phase)
    (free : phase.grip = .empty) : Keeps (recoverId id) phase
      (fun entry after => after.grip = .empty ∧ (∀ other ∈ entry.toList.map fst, other = id) ∧
        (id ∈ after.settled ∨ id ∈ after.skipped) ∧ Owing base (entry.toList.map fst ++ ids) (entry.toList.map fst ++ ids) after)
      fun _ => Failed base [] := by
  have may : phase.maintaining ≠ none := by
    rw [owing.maintaining]
    exact maintains.maintaining
  rw [recoverId,keeps_bind]
  refine keeps_tryAcquire (.owner id) trivial (fun _ => ⟨rfl,owing.owning.trans unowned,.inr may⟩) ?_ ?_ ?_
  · intro inode
    -- The owner lock is given back at the end; until then it is the task's.
    have owned : Owing (base.owned ⟨.owner id,inode⟩) ids ids
        (phase.owned ⟨.owner id,inode⟩) := {owing with owning := rfl}
    have release (after : Phase π) (carried : Carried (base.owned ⟨.owner id,inode⟩) after) :
        after.Allowed (.unlock ⟨.owner id,inode⟩) := ⟨carried.owning,carried.born.trans maintains.born⟩
    have recovers : Keeps (withProcessMutation id (recoverManifest id)) (phase.owned ⟨.owner id,inode⟩)
        (fun entry after => (∀ other ∈ entry.toList.map fst, other = id) ∧ id ∈ after.settled ∧ after.grip = .empty ∧
          Owing (base.owned ⟨.owner id,inode⟩)
            (entry.toList.map fst ++ ids) (entry.toList.map fst ++ ids) after)
        fun _ => Failed (base.owned ⟨.owner id,inode⟩) [] := by
      refine keeps_owingSection owned free ?_ ?_
      · nofun
      intro mutation after _ owing locked
      have owns : Phase.Owns (base.owned ⟨.owner id,inode⟩) id := ⟨inode,rfl⟩
      have maintains : Maintains (base.owned ⟨.owner id,inode⟩) := {maintains with}
      apply (keeps_recoverManifest maintains owns owing locked).mono
      intro entry last ⟨release,only,settled,owing⟩
      exact ⟨release,only,settled,rfl,owing⟩
    rw [keeps_guarding]
    apply recovers.weaken
    · intro entry after ⟨only,settled,free,owing⟩
      exact ⟨release after owing.toCarried,fun _ => ⟨free,only,.inl settled,{owing with toCarried := owing.toCarried.unowned unowned}⟩⟩
    · intro error after failed
      exact ⟨release after failed.toCarried,fun _ => {failed with toCarried := failed.toCarried.unowned unowned}⟩
  · intro inode
    refine ⟨free,nofun,.inr mem_cons_self,?_⟩
    exact {owing with skipped := fun other member => mem_cons_of_mem id (owing.skipped other member)}
  · intro error
    exact owing.failed nofun

theorem keeps_recoverIds {orphans : List Uuid} (maintains : Maintains base) (unowned : base.owning = none)
    (owing : Owing base ids ids phase) (free : phase.grip = .empty) : Keeps (recoverIds orphans) phase
      (fun recovered after => after.grip = .empty ∧ (∀ id ∈ recovered.map fst, id ∈ orphans) ∧
        (∀ id ∈ orphans, id ∈ after.settled ∨ id ∈ after.skipped) ∧ Owing base (recovered.map fst ++ ids) (recovered.map fst ++ ids) after)
      fun _ => Failed base [] := by
  induction orphans generalizing base phase ids with
  | nil => exact ⟨free,nofun,nofun,owing⟩
  | cons id rest ih =>
    rw [recoverIds,keeps_bind]
    apply (keeps_recoverId maintains unowned owing free).mono
    intro first after ⟨free,only,seen,owing⟩
    rw [keeps_bind]
    -- What was seen of the first invocation is carried along with the others.
    have again : Owing after (first.toList.map fst ++ ids) (first.toList.map fst ++ ids) after :=
      {owing with toCarried := Carried.refl after}
    have still : Maintains after := ⟨owing.maintaining ▸ maintains.maintaining,owing.born.trans maintains.born⟩
    apply (ih still (owing.owning.trans unowned) again free).weaken
    · intro others last ⟨free,among,rested,further⟩
      have both : ∀ id ∈ others.map fst ++ (first.toList.map fst ++ ids),
          id ∈ (first.toList ++ others).map fst ++ ids := by
        intro id member
        simp only [map_append,mem_append] at member ⊢
        tauto
      refine ⟨free,?_,?_,{further.within both both with toCarried := owing.toCarried.trans further.toCarried}⟩
      · intro other member
        rw [map_append] at member
        rcases mem_append.mp member with new | later
        · exact mem_cons.mpr (.inl (only other new))
        · exact mem_cons_of_mem id (among other later)
      intro other member
      rcases mem_cons.mp member with same | later
      · subst same
        exact seen.imp (further.settled _) (further.skipped _)
      · exact rested other later
    · intro error last failed
      exact {failed with toCarried := owing.toCarried.trans failed.toCarried}

def Phase.looked (phase : Phase π) (orphans : List Uuid) : Phase π := {phase with scanned := orphans, settled := [], skipped := []}

theorem keeps_recoverOrphanedInvocations (maintains : Maintains base) (unowned : base.owning = none)
    (unanswered : base.responded = false) (unlooked : base.scanned = []) (owing : Owing base [] [] phase) (free : phase.grip = .empty) :
    Keeps recoverOrphanedInvocations phase
      (fun _ after => after.grip = .empty ∧ after.Accounted ∧ ∃ orphans, Owing (base.looked orphans) [] [] after)
      fun _ after => ∃ orphans, Failed (base.looked orphans) [] after := by
  have may : phase.maintaining ≠ none := by
    rw [owing.maintaining]
    exact maintains.maintaining
  rw [recoverOrphanedInvocations,keeps_bind,keeps_act]
  refine ⟨⟨may,owing.responded.trans unanswered,owing.scanned.trans unlooked⟩,?_⟩
  intro orphans
  have looked : Owing (base.looked orphans) [] [] (phase.looked orphans) := {owing with scanned := rfl, settled := nofun, skipped := nofun}
  rw [keeps_bind]
  have still : Maintains (base.looked orphans) := {maintains with}
  apply (keeps_recoverIds still unowned looked free).weaken
  · intro recovered after ⟨free,among,seen,owing⟩
    have everyone : after.Accounted := by
      intro id member
      rw [owing.scanned] at member
      exact seen id member
    rw [append_nil] at owing
    split
    · rename_i empty
      rw [isEmpty_iff.mp empty] at owing
      exact ⟨free,everyone,orphans,owing⟩
    rw [keeps_bind,keeps_update]
    refine ⟨⟨owing.index,fun id member => owing.scanned ▸ among id member⟩,?_⟩
    intro _
    rw [keeps_publishChange]
    exact ⟨owing.refresh,fun _ => ⟨free,everyone,orphans,{owing with publish := nofun, index := nofun}⟩,
      fun error => ⟨orphans,{owing.toCarried with},rfl,owing.refresh,owing.looping,nofun⟩⟩
  · intro error after failed
    exact ⟨orphans,failed⟩

end Recovery

/-! ### Retention -/

section Retention
variable {phase base : Phase π} {id : Uuid} {inode : Nat} {sweep : Sweep}

theorem keeps_mutateEach {operation : Mutation} {ids : List Uuid} (rested : Rested base) (timely : operation.Timely) :
    Keeps (mutateEach operation ids) base (fun _ => Rests base) fun _ => Rests base := by
  induction ids generalizing base with
  | nil => exact ⟨rested,Carried.refl base,.inl rfl⟩
  | cons id rest ih =>
    rw [mutateEach,keeps_bind]
    apply (keeps_mutate rested timely).mono
    intro _ after rests
    exact rests.continued (ih rests.toRested)

theorem keeps_deleteExpiredDeferredResults {nowMs : Int} (rested : Rested base) :
    Keeps (deleteExpiredDeferredResults nowMs) base (fun _ => Rests base) fun _ => Rests base := by
  rw [deleteExpiredDeferredResults,keeps_bind]
  apply keeps_refreshIndexIfStale rested.grip rested.raised rested.refresh
  · intro after stays idle
    rw [keeps_bind,keeps_readIndex]
    intro index
    have rests := rested.stays (stays.snapped index) idle
    have timely : (Mutation.deleteExpired nowMs).Timely := trivial
    exact rests.continued (keeps_mutateEach rests.toRested timely)
  · intro error after stays idle _
    exact rested.stays stays idle

theorem keeps_remeasureEach {ids : List Uuid} :
    Keeps (remeasureEach ids) base (fun _ after => after = base) fun _ after => after = base.fail := by
  induction ids with
  | nil => exact rfl
  | cons id rest ih =>
    rw [remeasureEach,keeps_bind,keeps_evidencePayloadSize]
    refine ⟨?_,rfl⟩
    intro size
    rw [keeps_bind,keeps_update]
    exact ⟨trivial,fun _ => ih⟩

/-- Within a sweep only deletions are left to announce. -/
structure Reclaims (base : Phase π) (outcome : ReclaimOutcome) (id : Uuid) (before after : Phase π) : Prop where
  owing : Owing base after.deleted [] after
  deleted : ∀ other ∈ before.deleted, other ∈ after.deleted
  removed : outcome.deleted = true → id ∈ after.deleted
  unchanged : outcome.changed = false → after.owesPublish = before.owesPublish
  failed : before.failed = true → after.failed = true

theorem keeps_reclaimManifest {durable : DurableRecord} {manifestBytes : Nat} (ended : durable.ended = true)
    (owing : Owing base phase.deleted [] phase) (known : phase.grip = .knows ⟨.mutation id,inode⟩ (some durable)) :
    Keeps (reclaimManifest id durable manifestBytes) phase
      (fun outcome after => after.MayRelease ⟨.mutation id,inode⟩ ∧ Reclaims base outcome id phase after)
      fun _ after => after.MayRelease ⟨.mutation id,inode⟩ ∧ Failed base phase.deleted after := by
  have held := knows_holds known
  rw [reclaimManifest,keeps_bind,keeps_unixTimestampMs]
  intro now
  have owing := owing.kept (Kept.clocked phase now) owing.refresh
  have knows : Phase.Knows {phase with clock := some now} id (some durable) := ⟨inode,known⟩
  have failing : (Phase.fail {phase with clock := some now}).MayRelease ⟨.mutation id,inode⟩ ∧
      Failed base phase.deleted (Phase.fail {phase with clock := some now}) :=
    ⟨⟨held,fun _ => rfl⟩,owing.failed fun _ member => member⟩
  split
  · rw [keeps_bind,keeps_writeFiles]
    refine ⟨trivial,?_,fun _ => failing⟩
    intro _
    rw [keeps_bind]
    apply keeps_persistDurable knows (mayWrite_same owing.drawn) owing.raised owing.refresh
    · intro size retained after wrote
      obtain ⟨published,indexed⟩ := wrote.unowed rfl
      have wroteOwing : Owing base after.deleted [] after :=
        { owing.written wrote rfl with
          publish := by
            rw [published,wrote.deleted,wrote.failed]
            exact owing.publish
          index := by
            rw [indexed,wrote.failed]
            exact owing.index }
      have written := wrote.knows known
      rw [keeps_bind,keeps_update]
      refine ⟨⟨_,⟨⟨inode,written⟩,⟨retained,rfl⟩,wroteOwing.publish id⟩,by intro _ never; cases never⟩,?_⟩
      intro _
      have last : Owing base after.deleted [] (after.committed id) :=
        { wroteOwing with
          raised := rfl
          index := fun other member => wroteOwing.index other (mem_filter.mp member).1 }
      refine ⟨last.mayRelease (knows_holds written),last,?_,Bool.noConfusion,Bool.noConfusion,wrote.failed.trans⟩
      intro other member
      exact wrote.deleted ▸ member
    · intro _ _
      exact failing
    · exact owing.bereft known fun _ member => member
  · rename_i unprotected
    have due (deferred : DeferredResultRecord) (isDeferred : durable.deferred = some deferred) : deferred.expiresAtMs ≤ now := by
      have expired : deferred.isExpired now durable.invocation.state.isTerminal = true := by simpa [isDeferred] using unprotected
      simp only [DeferredResultRecord.isExpired,Bool.and_eq_true,decide_eq_true_eq] at expired
      exact expired.2
    rw [keeps_bind,keeps_renameToTrash]
    refine ⟨⟨knows,owing.refresh,rfl,ended,due⟩,?_,fun _ => failing⟩
    intro moved
    cases moved with
    | false => exact ⟨owing.mayRelease held,owing,fun _ member => member,Bool.noConfusion,fun _ => rfl,fun failed => failed⟩
    | true =>
      have gone : (Phase.trashed {phase with clock := some now} id (.ok true)).grip = .knows ⟨.mutation id,inode⟩ none := by
        rw [known]
        rfl
      change Keeps (update (.remove id) >>= _) _ _ _
      rw [keeps_bind,keeps_update]
      refine ⟨⟨inode,gone⟩,?_⟩
      intro _
      have last : Owing base (id::phase.deleted) [] ((Phase.trashed {phase with clock := some now} id (.ok true)).committed id) :=
        { toCarried := {owing.toCarried with}
          refresh := owing.refresh
          raised := rfl
          drawn := owing.drawn
          looping := owing.looping
          publish := by
            intro other member
            rcases mem_cons.mp member with same | old
            · exact .inl (mem_cons.mpr (.inl same))
            · exact (owing.publish other old).imp_left (mem_cons_of_mem id)
          index := by
            intro other member
            obtain ⟨owed,different⟩ := mem_filter.mp member
            rcases mem_cons.mp owed with same | old
            · simp [same] at different
            · exact owing.index other old }
      exact ⟨last.mayRelease (knows_holds gone),last,fun _ => mem_cons_of_mem id,fun _ => mem_cons_self,Bool.noConfusion,
        fun failed => failed⟩

theorem keeps_reclaimTerminal (owing : Owing base phase.deleted [] phase) (free : phase.grip = .empty) :
    Keeps (reclaimTerminal id) phase (fun outcome after => after.grip = .empty ∧ Reclaims base outcome id phase after)
      fun _ => Failed base phase.deleted := by
  apply keeps_withMutationLock
  apply keeps_owingSection owing free fun _ member => member
  intro inode entered kept owing locked
  -- Nothing was reclaimed: the phase is as it was entered.
  have idle (after : Phase π) (kept : Kept phase after) (held : after.grip.Holds ⟨.mutation id,inode⟩)
      (owing : Owing base phase.deleted [] after) : after.MayRelease ⟨.mutation id,inode⟩ ∧ after.freed.grip = .empty ∧
        Reclaims base {} id phase after.freed :=
    ⟨owing.mayRelease held,rfl,{owing.freed with publish := kept.deleted ▸ owing.publish},
      fun _ member => kept.deleted ▸ member,nofun,fun _ => kept.owesPublish,kept.failed⟩
  rw [keeps_bind,keeps_attempt]
  apply keeps_readManifest locked owing.refresh
  · intro durable bytes after read known unbusy _ _
    have kept := kept.trans read
    have owing := owing.kept read unbusy
    dsimp only
    split
    · exact idle after kept (knows_holds known) owing
    rename_i terminal
    have ended : durable.ended = true := by
      rw [Bool.not_eq_true,Bool.not_eq_false'] at terminal
      exact terminal
    apply (keeps_reclaimManifest ended (kept.deleted ▸ owing) known).weaken
    · intro outcome last ⟨release,reclaims⟩
      refine ⟨release,rfl,{reclaims.owing.freed with},?_,reclaims.removed,?_,fun failed => reclaims.failed (kept.failed failed)⟩
      · intro other member
        exact reclaims.deleted other (kept.deleted ▸ member)
      · intro same
        exact (reclaims.unchanged same).trans kept.owesPublish
    · intro error last ⟨release,failed⟩
      exact ⟨release,kept.deleted ▸ failed⟩
  · intro after read known unbusy _ _
    exact idle after (kept.trans read) (knows_holds known) (owing.kept read unbusy)
  · intro error other
    have failed : entered.fail.MayRelease ⟨.mutation id,inode⟩ ∧ Failed base phase.deleted entered.fail :=
      ⟨⟨locked_holds locked,fun _ => rfl⟩,owing.failed fun _ member => kept.deleted ▸ member⟩
    split <;> first | exact failed | simp_all

/-- What a sweep has not announced is pending, and lock files are only cleaned up after a deletion. -/
structure Sweeping (base : Phase π) (sweep : Sweep) (phase : Phase π) : Prop where
  grip : phase.grip = .empty
  owing : Owing base phase.deleted [] phase
  cleanup : ∀ id ∈ sweep.pendingLockCleanup, id ∈ phase.deleted
  pending : sweep.pendingNotifications = 0 → phase.owesPublish = [] ∨ phase.failed = true

theorem keeps_unlinkLocks {ids : List Uuid} (deleted : ∀ id ∈ ids, id ∈ phase.deleted) :
    Keeps (unlinkLocks ids) phase (fun _ after => after = phase) fun _ _ => False := by
  induction ids with
  | nil => exact rfl
  | cons id rest ih =>
    rw [unlinkLocks,keeps_bind,keeps_act]
    refine ⟨deleted id mem_cons_self,?_⟩
    intro _
    rw [keeps_bind,keeps_act]
    exact ⟨deleted id mem_cons_self,fun _ => ih fun other member => deleted other (mem_cons_of_mem id member)⟩

theorem keeps_publishRetentionBatch (carried : Carried base phase) (idle : phase.refresh = .idle) (ended : phase.looping = none)
    (cleanup : ∀ id ∈ sweep.pendingLockCleanup, id ∈ phase.deleted) : Keeps (publishRetentionBatch sweep) phase
      (fun sweep after => after = {phase with owesPublish := []} ∧ sweep.pendingLockCleanup = [])
      fun _ => Failed base [] := by
  have cleans (after : Phase π) (same : after.deleted = phase.deleted) :
      Keeps (unlinkLocks sweep.pendingLockCleanup) after (fun _ last => last = after) fun _ _ => False := by
    apply keeps_unlinkLocks
    rw [same]
    exact cleanup
  rw [publishRetentionBatch,keeps_bind,keeps_attempt,keeps_publishChange]
  refine ⟨idle,?_,?_⟩
  · intro _
    rw [keeps_bind]
    apply (cleans {phase with owesPublish := []} rfl).weaken
    · intro _ after same
      exact ⟨same,rfl⟩
    · intro _ _ never
      exact never.elim
  intro error
  rw [keeps_bind]
  apply (cleans phase.fail rfl).weaken
  · intro _ after same
    subst same
    exact ⟨{carried with},rfl,idle,ended,nofun⟩
  · intro _ _ never
    exact never.elim

section
variable (sweeping : Sweeping base sweep phase)
include sweeping

theorem Sweeping.announced {next : Sweep} (cleaned : next.pendingLockCleanup = []) :
    Sweeping base next {phase with owesPublish := []} where
  grip := sweeping.grip
  owing := {sweeping.owing with publish := nofun}
  cleanup := by
    rw [cleaned]
    nofun
  pending _ := .inl rfl

theorem keeps_reclaimRetentionCandidate :
    Keeps (reclaimRetentionCandidate id sweep) phase (Sweeping base) fun _ => Failed base [] := by
  rw [reclaimRetentionCandidate,keeps_bind,keeps_attempt]
  apply (keeps_reclaimTerminal sweeping.owing sweeping.grip).weaken
  · intro outcome after ⟨free,reclaims⟩
    have swept : Sweeping base { sweep with
        reclaimed := sweep.reclaimed + outcome.reclaimed.toNat
        pendingLockCleanup := if outcome.deleted then sweep.pendingLockCleanup ++ [id] else sweep.pendingLockCleanup
        pendingNotifications := sweep.pendingNotifications + outcome.changed.toNat
        processed := id::sweep.processed } after :=
      { grip := free
        owing := reclaims.owing
        cleanup := by
          intro other member
          split at member
          · rename_i removed
            rcases mem_append.mp member with old | new
            · exact reclaims.deleted other (sweeping.cleanup other old)
            · exact mem_singleton.mp new ▸ reclaims.removed removed
          · exact reclaims.deleted other (sweeping.cleanup other member)
        pending := by
          intro zero
          have unchanged : outcome.changed = false := by
            cases changed : outcome.changed with
            | false => rfl
            | true => simp [changed] at zero
          rw [reclaims.unchanged unchanged]
          exact (sweeping.pending (Nat.eq_zero_of_add_eq_zero_right zero)).imp_right reclaims.failed }
    dsimp only
    split
    · apply (keeps_publishRetentionBatch reclaims.owing.toCarried reclaims.owing.refresh reclaims.owing.looping swept.cleanup).mono
      intro next last ⟨same,cleaned⟩
      subst same
      exact swept.announced cleaned
    · exact swept
  · intro error after failed
    have cleanup (other : Uuid) (member : other ∈ sweep.pendingLockCleanup) : other ∈ after.deleted :=
      failed.deleted other (sweeping.cleanup other member)
    dsimp only
    split
    · rw [keeps_bind]
      apply (keeps_publishRetentionBatch failed.toCarried failed.refresh failed.looping cleanup).mono
      intro _ last ⟨same,_⟩
      subst same
      exact {failed with deleted := nofun}
    · exact {failed with deleted := nofun}

theorem Sweeping.snapped (index : Index) : Sweeping base sweep (phase.snapped index) where
  grip := sweeping.grip
  owing := sweeping.owing.kept (Kept.snapped phase index) sweeping.owing.refresh
  cleanup := sweeping.cleanup
  pending := sweeping.pending

theorem keeps_reclaimOld {cutoff : Int} {keys : List Key} :
    Keeps (reclaimOld cutoff keys sweep) phase (Sweeping base) fun _ => Failed base [] := by
  induction keys generalizing phase sweep with
  | nil => exact sweeping
  | cons key rest ih =>
    rw [reclaimOld]
    split
    · rw [keeps_bind]
      apply (keeps_reclaimRetentionCandidate sweeping).mono
      intro next after sweeping
      exact ih sweeping
    · exact ih sweeping

theorem keeps_reclaimUntil {lowWatermark : Nat} {keys : List Key} :
    Keeps (reclaimUntil lowWatermark keys sweep) phase (Sweeping base) fun _ => Failed base [] := by
  induction keys generalizing phase sweep with
  | nil => exact sweeping
  | cons key rest ih =>
    rw [reclaimUntil,keeps_bind,keeps_readIndex]
    intro index
    have sweeping := sweeping.snapped index
    split
    · exact sweeping
    split
    · exact ih sweeping
    rw [keeps_bind]
    apply (keeps_reclaimRetentionCandidate sweeping).mono
    intro next after sweeping
    exact ih sweeping

theorem Sweeping.ends (announced : phase.owesPublish = [] ∨ phase.failed = true) : Ends base phase := by
  have owing : Owing base [] [] phase :=
    { sweeping.owing with
      publish := by
        intro id member
        rcases announced with paid | failed
        · rw [paid] at member
          cases member
        · exact .inr failed }
  exact ⟨owing.owning,owing.maintaining,(owing.rested sweeping.grip).debts,owing.looping⟩

theorem keeps_announceSweep (accounted : base.Accounted) :
    Keeps (announceSweep sweep) phase (fun _ after => Ends base after ∧ after.Accounted) fun _ => Ends base := by
  have known := sweeping.owing.toCarried.accounted accounted
  dsimp only [announceSweep]
  split
  · rw [keeps_bind]
    apply (keeps_publishRetentionBatch sweeping.owing.toCarried sweeping.owing.refresh sweeping.owing.looping sweeping.cleanup).weaken
    · intro next after ⟨same,cleaned⟩
      subst same
      exact ⟨(sweeping.announced cleaned).ends (.inl rfl),known⟩
    · intro error after failed
      exact failed.ends
  · rename_i announced
    exact ⟨sweeping.ends (sweeping.pending (Nat.eq_zero_of_not_pos announced)),known⟩

end

variable {maximumBytes : Nat}

theorem keeps_sweepCandidates {cutoff : Int} {candidates : List Key} (sweeping : Sweeping base {} phase)
    (accounted : base.Accounted) : Keeps (sweepCandidates cutoff maximumBytes candidates) phase
      (fun _ after => Ends base after ∧ after.Accounted) fun _ => Ends base := by
  rw [sweepCandidates,keeps_bind]
  apply (keeps_reclaimOld sweeping).weaken
  · intro sweep after sweeping
    rw [keeps_bind,keeps_readIndex]
    intro index
    have sweeping := sweeping.snapped index
    split
    · rw [keeps_bind]
      apply (keeps_reclaimUntil sweeping).weaken
      · intro next last sweeping
        exact keeps_announceSweep sweeping accounted
      · intro error last failed
        exact failed.ends
    · exact keeps_announceSweep sweeping accounted
  · intro error after failed
    exact failed.ends

theorem Rests.sweeping (rests : Rests base phase) (ended : base.looping = none) : Sweeping base {} phase where
  grip := rests.grip
  owing := (rests.owing ended).within nofun nofun
  cleanup := nofun
  pending _ := rests.debts.symm.imp_left And.left

theorem Rests.fail (rests : Rests base phase) : Rests base phase.fail := {rests with debts := .inl rfl}

theorem keeps_reclaimCandidates {maximumAgeMs : Nat} (rested : Rested base) (ended : base.looping = none)
    (accounted : base.Accounted) : Keeps (reclaimCandidates maximumAgeMs maximumBytes) base
      (fun _ after => Ends base after ∧ after.Accounted) fun _ => Ends base := by
  have resting : Rests base base := ⟨rested,Carried.refl base,.inl rfl⟩
  rw [reclaimCandidates,keeps_bind,keeps_unixTimestampMs]
  intro now
  have clocked : Rests base {base with clock := some now} := {resting with}
  rw [keeps_bind]
  apply (keeps_deleteExpiredDeferredResults clocked.toRested).weaken
  · intro _ after rests
    rw [keeps_bind,keeps_readIndex]
    intro index
    have rests := clocked.trans (rests.trans (rests.toRested.stays ((Stays.refl after).snapped index) rests.refresh))
    rw [keeps_bind]
    apply keeps_remeasureEach.weaken
    · intro _ measured same
      subst same
      rw [keeps_bind,keeps_readIndex]
      intro index
      have rests := rests.trans (rests.toRested.stays ((Stays.refl _).snapped index) rests.refresh)
      exact keeps_sweepCandidates (rests.sweeping ended) accounted
    · intro error measured same
      subst same
      exact rests.fail.ends ended
  · intro error after rests
    exact (clocked.trans rests).ends ended

theorem keeps_maintaining {body : Op π α} (free : base.maintaining = none) (keeps : Keeps body (base.maintained inode)
      (fun _ after => Ends (base.maintained inode) after ∧ after.Accounted)
      fun _ => Ends (base.maintained inode)) (unowned : base.owning = none) :
    Keeps (guarding body (.unlock ⟨.maintenance,inode⟩)) (base.maintained inode)
      (fun _ after => Ends base after ∧ after.Accounted) fun _ => Ends base := by
  have ends (after : Phase π) (ends : Ends (base.maintained inode) after) :
      after.Allowed (.unlock ⟨.maintenance,inode⟩) ∧ Ends base {after with maintaining := none} :=
    ⟨⟨ends.maintaining,ends.owning.trans unowned⟩,ends.owning,free.symm,ends.finished⟩
  rw [keeps_guarding]
  apply keeps.weaken
  · intro _ after ⟨holds,accounted⟩
    exact ⟨(ends after holds).1,fun _ => ⟨(ends after holds).2,accounted⟩⟩
  · intro _ after holds
    exact ⟨(ends after holds).1,fun _ => (ends after holds).2⟩

structure Fresh (phase : Phase π) : Prop extends Rested phase where
  looping : phase.looping = none
  born : phase.born = none
  owning : phase.owning = none
  maintaining : phase.maintaining = none
  scanned : phase.scanned = []
  responded : phase.responded = false

theorem Fresh.accounted (fresh : Fresh base) : base.Accounted := by
  intro id member
  rw [fresh.scanned] at member
  cases member

theorem keeps_refreshAndRecover {ok : Unit → Phase π → Prop} {err : StoreError → Phase π → Prop} (fresh : Fresh base)
    (recovered : ∀ orphans after, Owing ((base.maintained inode).looked orphans) [] [] after → after.grip = .empty →
      after.Accounted → ok () after) (fault : ∀ error after, Ends (base.maintained inode) after → err error after) :
    Keeps refreshAndRecover (base.maintained inode) ok err := by
  have rested : Rested (base.maintained inode) := {fresh.toRested with}
  have maintains : Maintains (base.maintained inode) := ⟨nofun,fresh.born⟩
  rw [refreshAndRecover,keeps_bind]
  apply keeps_refreshIndex rested.grip rested.raised rested.refresh
  · intro refreshed stays idle
    have rests := rested.stays stays idle
    apply (keeps_recoverOrphanedInvocations maintains fresh.owning fresh.responded fresh.scanned
      (rests.owing fresh.looping) rests.grip).weaken
    · intro _ after ⟨free,accounted,orphans,owing⟩
      exact recovered orphans after owing free accounted
    · intro error after ⟨orphans,failed⟩
      exact fault error after {failed.ends with}
  · intro error after stays idle _
    exact fault error after ((rested.stays stays idle).ends fresh.looping)

theorem keeps_enforceRetention {maximumAgeMs : Nat} (fresh : Fresh base) :
    Keeps (enforceRetention maximumAgeMs maximumBytes) base (fun _ after => Ends base after ∧ after.Accounted) fun _ => Ends base := by
  have resting : Rests base base := ⟨fresh.toRested,Carried.refl base,.inl rfl⟩
  rw [enforceRetention,keeps_bind]
  refine keeps_tryAcquire .maintenance trivial (fun _ => ⟨rfl,fresh.maintaining,fresh.born⟩) ?_ ?_ ?_
  · intro inode
    apply keeps_maintaining fresh.maintaining _ fresh.owning
    rw [keeps_bind]
    apply keeps_refreshAndRecover fresh
    · intro orphans after owing free accounted
      apply (keeps_reclaimCandidates (owing.rested free) owing.looping accounted).weaken
      · intro _ last ⟨ends,accounted⟩
        exact ⟨⟨ends.owning.trans owing.owning,ends.maintaining.trans owing.maintaining,ends.finished⟩,accounted⟩
      · intro _ last ends
        exact ⟨ends.owning.trans owing.owning,ends.maintaining.trans owing.maintaining,ends.finished⟩
    · intro error after ends
      exact ends
  · exact fun _ => ⟨{resting.ends fresh.looping with},fresh.accounted⟩
  · intro error
    exact resting.fail.ends fresh.looping

theorem keeps_openStore (fresh : Fresh base) :
    Keeps openStore base (fun _ after => Ends base after ∧ after.Accounted) fun _ => Ends base := by
  have resting : Rests base base := ⟨fresh.toRested,Carried.refl base,.inl rfl⟩
  rw [openStore,keeps_bind]
  refine keeps_acquire .maintenance trivial (fun _ => ⟨rfl,fresh.maintaining,fresh.born⟩) ?_ ?_
  · intro inode
    apply keeps_maintaining fresh.maintaining _ fresh.owning
    apply keeps_refreshAndRecover fresh
    · intro orphans after owing free accounted
      exact ⟨⟨owing.owning,owing.maintaining,(owing.rested free).debts,owing.looping⟩,accounted⟩
    · intro error after ends
      exact ends
  · intro error
    exact resting.fail.ends fresh.looping

end Retention

/-! ### Creation -/

section Creation
variable {phase base : Phase π} {record : InvocationHeader} {deferred : Option DeferredResultRecord} {owner : Option LockFile}
variable {inode : Nat}

/-- The identifier is drawn and its manifest is not yet written. -/
structure Creating (id : Uuid) (phase : Phase π) : Prop where
  refresh : phase.refresh = .idle
  raised : phase.raised = false
  drawn : phase.drawn = some id
  born : phase.born = some id
  responded : phase.responded = false
  scanned : phase.scanned = []
  looping : phase.looping = none
  owesPublish : phase.owesPublish = []
  owesIndex : phase.owesIndex = []

/-- A creation ends without having looked at other invocations. -/
structure Created (phase : Phase π) : Prop where
  finished : phase.Finished
  scanned : phase.scanned = []

theorem Creating.stays {id : Uuid} {before after : Phase π} (creating : Creating id before) (kept : Kept before after)
    (idle : after.refresh = .idle) : Creating id after where
  refresh := idle
  raised := kept.raised.trans creating.raised
  drawn := kept.drawn.trans creating.drawn
  born := kept.born.trans creating.born
  responded := kept.responded.trans creating.responded
  scanned := kept.scanned.trans creating.scanned
  looping := kept.looping.elim (fun same => same.trans creating.looping) fun ended => ended
  owesPublish := kept.owesPublish.trans creating.owesPublish
  owesIndex := kept.owesIndex.trans creating.owesIndex

theorem Creating.created {id : Uuid} (creating : Creating id phase) : Created phase :=
  ⟨⟨.inr ⟨creating.owesPublish,creating.owesIndex⟩,creating.looping⟩,creating.scanned⟩

theorem Creating.failed {id : Uuid} (creating : Creating id phase) : Created phase.fail := ⟨⟨.inl rfl,creating.looping⟩,creating.scanned⟩

/-- The owner lock that a creation was handed is the one the task holds. -/
def Handed (record : InvocationHeader) (owner : Option LockFile) (phase : Phase π) : Prop :=
  (∀ file, owner = some file → phase.owning = some ⟨.owner record.id,file.inode⟩) ∧ (record.state.isTerminal = false → owner ≠ none)

theorem Handed.owns (handed : Handed record owner phase) (running : record.state.isTerminal = false) : phase.Owns record.id := by
  cases isOwner : owner with
  | none => exact absurd isOwner (handed.2 running)
  | some file => exact ⟨file.inode,handed.1 file isOwner⟩

theorem keeps_createManifest (creating : Creating record.id phase) (handed : Handed record owner phase)
    (known : phase.grip = .knows ⟨.mutation record.id,inode⟩ none) : Keeps (createManifest record deferred owner) phase
      (fun _ after => after.MayRelease ⟨.mutation record.id,inode⟩ ∧ Created after.freed)
      fun _ after => after.MayRelease ⟨.mutation record.id,inode⟩ ∧ Created after.freed ∧ Carried phase after.freed := by
  -- Once the disk failed the directory goes, whatever the manifest was.
  have removed (error : StoreError) (after : Phase π) (manifest : Option DurableRecord)
      (known : after.grip = .knows ⟨.mutation record.id,inode⟩ manifest) (ended : after.looping = none)
      (carried : Carried phase after) :
      Keeps (do act (.removeDirectory record.id); throw error : Op π Unit) after.fail
        (fun _ after => after.MayRelease ⟨.mutation record.id,inode⟩ ∧ Created after.freed)
        fun _ after => after.MayRelease ⟨.mutation record.id,inode⟩ ∧ Created after.freed ∧ Carried phase after.freed := by
    rw [keeps_bind,keeps_act]
    refine ⟨⟨rfl,carried.responded.trans creating.responded,carried.born.trans creating.born,manifest,inode,known⟩,?_⟩
    intro _
    refine ⟨⟨?_,fun _ => rfl⟩,⟨⟨.inl rfl,ended⟩,carried.scanned.trans creating.scanned⟩,{carried with}⟩
    change after.grip.forgot.Holds _
    rw [known]
    rfl
  unfold createManifest
  rw [keeps_bind,keeps_writeFiles]
  refine ⟨trivial,?_,fun error => ⟨⟨knows_holds known,fun _ => rfl⟩,{creating.failed with},{Carried.refl phase with}⟩⟩
  intro _
  rw [keeps_bind,keeps_attempt,announceManifest,keeps_bind]
  have may : phase.MayWrite record.id {invocation := record, deferred := deferred} .change none :=
    ⟨creating.drawn,rfl,rfl,handed.owns⟩
  apply keeps_persistDurable ⟨inode,known⟩ may creating.raised creating.refresh
  · intro size retained after wrote
    have written := wrote.knows known
    have ended : after.looping = none := wrote.looping.trans creating.looping
    rw [keeps_bind,keeps_publishChange]
    refine ⟨wrote.refresh.trans creating.refresh,?_,fun error => removed error after _ written ended wrote.toCarried⟩
    intro _
    change Keeps (update (.insert record.id _) >>= _) _ _ _
    rw [keeps_bind,keeps_update]
    refine ⟨⟨_,⟨inode,written⟩,⟨retained,rfl⟩,nofun⟩,?_⟩
    intro _
    have indexed : after.owesIndex.filter (· ≠ record.id) = [] := by
      apply filter_eq_nil_iff.mpr
      intro other member
      rcases wrote.owesIndex other member with same | old
      · simp [same]
      · rw [creating.owesIndex] at old
        cases old
    have last : (Phase.committed {after with owesPublish := []} record.id).MayRelease ⟨.mutation record.id,inode⟩ ∧
        Created (Phase.committed {after with owesPublish := []} record.id).freed :=
      ⟨⟨knows_holds written,nofun⟩,⟨.inr ⟨rfl,indexed⟩,ended⟩,wrote.scanned.trans creating.scanned⟩
    cases isOwner : owner with
    | none => exact last
    | some file =>
      rw [keeps_act]
      exact ⟨⟨wrote.owning.trans (handed.1 file isOwner),wrote.born.trans creating.born⟩,fun _ => ⟨last.1,{last.2 with}⟩⟩
  · intro error _
    exact removed error phase _ known creating.looping (Carried.refl phase)
  · have lost : ({phase with grip := phase.grip.wrote none} : Phase π).grip = .knows ⟨.mutation record.id,inode⟩ none := by
      rw [known]
      rfl
    exact removed _ _ _ lost creating.looping {Carried.refl phase with}

theorem keeps_createOwned (creating : Creating record.id phase) (handed : Handed record owner phase) (free : phase.grip = .empty) :
    Keeps (createOwned record deferred owner) phase (fun _ => Created) fun _ => Created := by
  rw [createOwned,keeps_bind,keeps_attempt]
  have failed (error : StoreError) (after : Phase π) (created : Created after) (carried : Carried phase after) :
      Keeps (abandonCreation record.id error owner) after (fun _ => Created) fun _ => Created := by
    cases isOwner : owner with
    | none => exact created
    | some file =>
      rw [abandonCreation,keeps_bind,keeps_act]
      exact ⟨⟨carried.owning.trans (handed.1 file isOwner),carried.born.trans creating.born⟩,fun _ => {created with}⟩
  apply keeps_withProcessMutation free
  · intro error
    exact failed error _ creating.failed {Carried.refl phase with}
  intro inode
  have kept := Kept.acquired phase record.id inode
  have known : (phase.acquired ⟨.mutation record.id,inode⟩).grip = .knows ⟨.mutation record.id,inode⟩ none := if_pos creating.drawn
  apply (keeps_createManifest (creating.stays kept creating.refresh) handed known).weaken
  · intro _ after holds
    exact holds
  · intro error after ⟨release,created,carried⟩
    exact ⟨release,failed error _ created (kept.toCarried.trans carried)⟩

theorem keeps_createInvocationWithDeferred (fresh : Fresh base) (due : base.due = some record.id) (paid : base.owesPublish = [] ∧ base.owesIndex = []) :
    Keeps (createInvocationWithDeferred record deferred) base (fun _ => Created) fun _ => Created := by
  rw [createInvocationWithDeferred,keeps_bind,keeps_act]
  refine ⟨⟨fresh.grip,fresh.refresh,fresh.drawn,fresh.born,fresh.maintaining,fresh.owning,due⟩,?_⟩
  intro _
  have creating : Creating record.id {base with drawn := some record.id, born := some record.id} :=
    ⟨fresh.refresh,fresh.raised,rfl,rfl,fresh.responded,fresh.scanned,fresh.looping,paid.1,paid.2⟩
  have free : ({base with drawn := some record.id, born := some record.id} : Phase π).grip = .empty := fresh.grip
  rw [keeps_bind]
  apply keeps_refreshIndexIfStale free creating.raised creating.refresh
  · intro after stays idle
    apply keeps_withMutationLock
    rw [keeps_bind,keeps_readIndex]
    intro index
    have stays := stays.snapped index
    have creating := creating.stays stays.toKept idle
    have free := stays.grip.trans fresh.grip
    split
    · exact creating.created
    split
    · rename_i terminal
      exact keeps_createOwned creating ⟨nofun,fun running => absurd (running.symm.trans terminal) (by decide)⟩ free
    rw [keeps_bind]
    refine keeps_tryAcquire (.owner _) trivial ?_ ?_ ?_ ?_
    · exact fun _ => ⟨rfl,stays.owning.trans fresh.owning,.inl creating.drawn⟩
    · intro inode
      refine keeps_createOwned {creating with} ⟨?_,fun _ => nofun⟩ free
      intro file same
      cases same
      rfl
    · exact fun _ => {creating.created with}
    · intro error
      exact creating.failed
  · intro error after stays idle _
    exact (creating.stays stays.toKept idle).created

end Creation

/-! ### Tasks -/

/-- A task starts with nothing but the identifier it is to draw or the counters that a completion brings along. -/
def Operation.start : Operation → Phase π
  | .create queued _ => {due := some queued.id}
  | .finish _ completion => {offered := telemetry completion.metrics}
  | _ => {}

variable (operation : Operation)

theorem start_fresh : Fresh (operation.start : Phase π) := by
  cases operation with
  | _ => exact ⟨⟨rfl,rfl,rfl,rfl,.inr ⟨rfl,rfl⟩⟩,rfl,rfl,rfl,rfl,rfl,rfl⟩

theorem start_paid : (operation.start : Phase π).owesPublish = [] ∧ (operation.start : Phase π).owesIndex = [] := by
  cases operation with
  | _ => exact ⟨rfl,rfl⟩

theorem keeps_body : Keeps operation.body (operation.start : Phase π)
    (fun _ after => after.Finished ∧ after.Accounted) fun _ => Phase.Finished := by
  have fresh := start_fresh (π := π) operation
  have rested := fresh.toRested
  have ends (after : Phase π) (rests : Rests operation.start after) : after.Finished := (rests.ends fresh.looping).finished
  have both (after : Phase π) (rests : Rests operation.start after) : after.Finished ∧ after.Accounted :=
    ⟨ends after rests,rests.toCarried.accounted fresh.accounted⟩
  cases operation with
  | create queued deferred =>
    apply (keeps_createInvocationWithDeferred fresh rfl (start_paid _)).weaken
    · intro _ after created
      refine ⟨created.finished,?_⟩
      intro id member
      rw [created.scanned] at member
      cases member
    · intro _ after created
      exact created.finished
  | transition id next termination summary => exact (keeps_transition rested).weaken (fun _ => both) fun _ => ends
  | finish id completion => exact (keeps_finishInvocation rested le_rfl).weaken (fun _ => both) fun _ => ends
  | mutate id recountPayload operation requested =>
    exact (keeps_mutate rested (Mutation.timely_requested requested)).weaken (fun _ => both) fun _ => ends
  | deferred id retrieval nowMs =>
    rw [Operation.body,keeps_bind]
    exact (keeps_getDeferredResult rested).weaken (fun _ => both) fun _ => ends
  | replaceArtifacts id => exact (keeps_replaceArtifacts rested).weaken (fun _ => both) fun _ => ends
  | record id recording rounds => exact (keeps_recordTelemetry rested fresh.looping).weaken (fun _ => both) fun _ => ends
  | flush rounds => exact (keeps_flushPendingTelemetry rested).weaken (fun _ => both) fun _ => ends
  | refresh =>
    apply keeps_refreshIndexIfStale rested.grip rested.raised rested.refresh
    · intro after stays idle
      exact both after (rested.stays stays idle)
    · intro error after stays idle _
      exact ends after (rested.stays stays idle)
  | header id =>
    rw [Operation.body,keeps_bind]
    exact (keeps_getInvocationHeader rested).weaken (fun _ => both) fun _ => ends
  | retention maximumAgeMs maximumBytes =>
    rw [Operation.body,keeps_bind]
    exact (keeps_enforceRetention fresh).weaken (fun _ _ holds => ⟨holds.1.finished,holds.2⟩) fun _ _ ends => ends.finished
  | opening =>
    exact (keeps_openStore fresh).weaken (fun _ _ holds => ⟨holds.1.finished,holds.2⟩) fun _ _ ends => ends.finished
  | crash =>
    rw [Operation.body,keeps_act]
    exact ⟨trivial,fun _ => ⟨⟨rested.debts,fresh.looping⟩,fresh.accounted⟩⟩

/-- Every task of a store keeps the discipline. -/
theorem follows_program : Follows (discipline π) operation.program operation.start fun _ => Phase.Finished := by
  rw [Operation.program,follows_bind,follows_perform]
  refine ⟨⟨(start_paid operation).1,(start_paid operation).2,(start_fresh operation).looping⟩,?_⟩
  intro _
  rw [follows_bind]
  apply Follows.weaken (keeps_body operation)
  intro result after ends
  rw [follows_perform]
  cases result with
  | ok value => exact ⟨fun _ => ends.2,fun _ => ends.1⟩
  | error error => exact ⟨nofun,fun _ => ends⟩

end BazelMcp.Store

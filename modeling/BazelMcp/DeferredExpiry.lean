import BazelMcp.ManifestUpdates

/-! The lifetime of a deferred result. It is not stored but computed anew from the time
of the last update, and an update alone does not move the expiry. -/
namespace BazelMcp.Store
open StoreIndex

/-- The time of an operation on a deferred result that leaves it in place. -/
def Mutation.updatedAt : Mutation → Option Int
  | .recordDeferredCancellation time | .setDeferredTerminalOverride _ time | .persistDeferredFailure _ time
  | .extendDeferredExpiry _ time => some time
  | _ => none

def Mutation.expiry : Mutation → Option Int
  | .extendDeferredExpiry time _ => some time
  | _ => none

def latest (first : Int) (times : List Int) : Int := times.foldl max first

variable {durable : DurableRecord} {record : DeferredResultRecord}

theorem apply_expiry {operation : Mutation} {time : Int} (isUpdate : operation.updatedAt = some time)
    (present : durable.deferred = some record) : ∃ after next, operation.apply durable = .ok after ∧ after.deferred = some next ∧
      next.expiresAtMs = latest record.expiresAtMs operation.expiry.toList ∧ next.updatedAtMs = max record.updatedAtMs time := by
  cases operation <;> cases isUpdate <;> simp [Mutation.apply,Mutation.onDeferred,Mutation.expiry,latest,present]

theorem applied_expiry (operations : List Mutation) (updates : ∀ operation ∈ operations, operation.updatedAt.isSome)
    (present : durable.deferred = some record) : ∃ after last, operations.foldlM Mutation.apply durable = .ok after ∧
      after.deferred = some last ∧ last.expiresAtMs = latest record.expiresAtMs (operations.filterMap (·.expiry)) ∧
      last.updatedAtMs = latest record.updatedAtMs (operations.filterMap (·.updatedAt)) := by
  induction operations generalizing durable record with
  | nil => exact ⟨durable,record,rfl,present,rfl,rfl⟩
  | cons operation rest ih =>
    obtain ⟨isUpdate,updates⟩ := List.forall_mem_cons.mp updates
    obtain ⟨time,isUpdate⟩ := Option.isSome_iff_exists.mp isUpdate
    obtain ⟨after,next,applied,isNext,expires,updated⟩ := apply_expiry isUpdate present
    obtain ⟨reached,last,run,isLast,lastExpires,lastUpdated⟩ := ih updates isNext
    refine ⟨reached,last,?_,isLast,?_,?_⟩
    · rw [List.foldlM_cons,applied]
      exact run
    · rw [lastExpires,expires]
      cases expiry : operation.expiry <;> simp [latest,expiry]
    · rw [lastUpdated,updated]
      simp [latest,isUpdate]

theorem extendTerminalExpiry_expires (terminalAtMs : Int) : (record.extendTerminalExpiry terminalAtMs).expiresAtMs =
    max record.expiresAtMs (saturatingAddI64 terminalAtMs record.configuredTtlMs) := by
  unfold DeferredResultRecord.extendTerminalExpiry
  dsimp only
  split
  · rename_i later
    exact (max_eq_right (le_of_lt later)).symm
  · rename_i earlier
    exact (max_eq_left (not_lt.mp earlier)).symm

/-- No expiry moves back, and the lifetime a result gets when its invocation ends. -/
theorem terminal_ttl_iff (invocationId : Uuid) (retrieval : DeferredRetrieval) (createdAtMs expiresAtMs : Int)
    (present : durable.deferred = some (.new invocationId retrieval createdAtMs expiresAtMs))
    (operations : List Mutation) (updates : ∀ operation ∈ operations, operation.updatedAt.isSome) :
    (∀ (operation : Mutation) time (before : DurableRecord) record, operation.updatedAt = some time → before.deferred = some record →
      ∃ after next, operation.apply before = .ok after ∧ after.deferred = some next ∧ record.expiresAtMs ≤ next.expiresAtMs) ∧
    (∀ (record : DeferredResultRecord) terminalAtMs, record.expiresAtMs ≤ (record.extendTerminalExpiry terminalAtMs).expiresAtMs) ∧
    let created := DeferredResultRecord.new invocationId retrieval createdAtMs expiresAtMs
    let ttl := created.expiresAtMs-createdAtMs
    ∃ after last, operations.foldlM Mutation.apply durable = .ok after ∧ after.deferred = some last ∧
      last.expiresAtMs = latest created.expiresAtMs (operations.filterMap (·.expiry)) ∧
      last.updatedAtMs = latest createdAtMs (operations.filterMap (·.updatedAt)) ∧
      ∀ terminalAtMs, saturatingSubI64 last.expiresAtMs last.updatedAtMs = last.expiresAtMs-last.updatedAtMs →
        saturatingAddI64 terminalAtMs last.configuredTtlMs = terminalAtMs+last.configuredTtlMs →
        (terminalAtMs+ttl ≤ (last.extendTerminalExpiry terminalAtMs).expiresAtMs ↔
          last.updatedAtMs+ttl ≤ last.expiresAtMs ∨ terminalAtMs+ttl ≤ last.expiresAtMs ∨ ttl ≤ 1) := by
  refine ⟨?_,?_,?_⟩
  · intro operation time before record isUpdate present
    obtain ⟨after,next,applied,isNext,expires,_⟩ := apply_expiry isUpdate present
    refine ⟨after,next,applied,isNext,expires ▸ ?_⟩
    cases operation.expiry with
    | none => exact le_rfl
    | some time => exact le_max_left _ _
  · intro record terminalAtMs
    exact extendTerminalExpiry_expires terminalAtMs ▸ le_max_left _ _
  · obtain ⟨after,last,run,isLast,expires,updated⟩ := applied_expiry operations updates present
    refine ⟨after,last,run,isLast,expires,updated,fun terminalAtMs subtracted added => ?_⟩
    rw [extendTerminalExpiry_expires,added,DeferredResultRecord.configuredTtlMs,subtracted]
    omega

def promised : DurableRecord where
  invocation := plainHeader 7 .running
  deferred := some (.new 7 .inlineResult 0 100)

theorem terminal_ttl_kept : (promised.deferred = some (.new 7 .inlineResult 0 100) ∧
      ∀ operation ∈ [Mutation.recordDeferredCancellation 50,.extendDeferredExpiry 155 55], operation.updatedAt.isSome) ∧
    ∃ after last, [Mutation.recordDeferredCancellation 50,.extendDeferredExpiry 155 55].foldlM Mutation.apply promised = .ok after ∧
      after.deferred = some last ∧ 60+100 ≤ (last.extendTerminalExpiry 60).expiresAtMs := by
  refine ⟨⟨rfl,by decide⟩,?_⟩
  obtain ⟨-,-,after,last,run,isLast,expires,updated,lives⟩ := terminal_ttl_iff 7 .inlineResult 0 100 (rfl : promised.deferred = _)
    [.recordDeferredCancellation 50,.extendDeferredExpiry 155 55] (by decide)
  have expires : last.expiresAtMs = 155 := expires
  have updated : last.updatedAtMs = 55 := updated
  refine ⟨after,last,run,isLast,(lives 60 ?_ ?_).mpr (.inl ?_)⟩
  · rw [expires,updated]
    decide
  · rw [DeferredResultRecord.configuredTtlMs,expires,updated]
    decide
  · rw [expires,updated]
    decide

/-- A cancellation at time 50 halves what is left behind the end at time 60. -/
theorem cancelled_ttl_halved : ∃ after last, Mutation.apply promised (.recordDeferredCancellation 50) = .ok after ∧
    after.deferred = some last ∧ (last.extendTerminalExpiry 60).expiresAtMs = 110 :=
  ⟨_,_,rfl,rfl,by decide⟩

end BazelMcp.Store

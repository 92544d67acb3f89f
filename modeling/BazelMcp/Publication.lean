import BazelMcp.Expansion
import BazelMcp.Lifecycle

/-! The lifecycle channel of a live invocation. A commit writes the record under the
mutation lock of the store; its caller publishes the state afterwards, when the lock
is free again, so that another commit can be published first. -/
namespace BazelMcp.Publication
open Tasks Typestate Lifecycle Function List

inductive Act where
  | life (act : Lifecycle.Act)
  | publishState (state : InvocationState)
  deriving DecidableEq

@[reducible] def Answer : Act → Type
  | .life act => Lifecycle.Answer act
  | .publishState _ => Unit

/-- The states sent so far, the newest first; the channel is created with `Queued`. -/
structure State where
  life : Lifecycle.State := {}
  published : List InvocationState := [.queued]
  deriving DecidableEq

def State.history (state : State) : List InvocationState := state.life.durable::state.life.past

def effect (task : Task) : (act : Act) → State → List (Answer act × State)
  | .life act, state => (Lifecycle.effect task act state.life).map fun (answer,life) => (answer,{state with life := life})
  -- Nothing is sent once the registration is gone, and a worker that has panicked sends nothing.
  | .publishState next, state =>
    if task = .worker ∧ state.life.outcome.isSome = true then []
    else [((),if state.life.removed then state else {state with published := next::state.published})]

abbrev Proc := Program Act Answer

def publishing (committed : Except StoreError InvocationState) : Proc (Except StoreError InvocationState) := do
  match committed with
  | .ok record =>
    perform (Act.publishState record)
    return .ok record
  | .error error => return .error error

def transitionInvocation (next : InvocationState) : Proc (Except StoreError InvocationState) := do
  publishing (← perform (Act.life (.transition next)))

def finishInvocation (next : InvocationState) : Proc (Except StoreError InvocationState) := do
  publishing (← perform (Act.life (.finishInvocation next)))

/-- The service commits through `transition_invocation` and `finish_invocation` only. -/
def spell : (act : Lifecycle.Act) → Proc (Lifecycle.Answer act)
  | .transition next => transitionInvocation next
  | .finishInvocation next => finishInvocation next
  | act => perform (Act.life act)

def start (isRun deferred faulty : Bool) (reason : Nat → Bool) : Config Act Answer State Task where
  tasks task := ((Lifecycle.start isRun deferred faulty reason).tasks task).expand spell
  state := {}

/-! ### What a task has to publish -/

def advance (_ : Option InvocationState) : (act : Act) → Answer act → Option InvocationState
  | .life (.transition _), .ok record => some record
  | .life (.finishInvocation _), .ok record => some record
  | _, _ => none

/-- A successful commit is published before the next call. -/
def discipline : Discipline Act Answer (Option InvocationState) where
  allowed phase act :=
    match act with
    | .life _ => phase = none
    | .publishState state => phase = some state
  advance := advance

theorem spell_follows (act : Lifecycle.Act) (phase : Option InvocationState) (_ : True) (rests : phase = none) :
    Follows discipline (spell act) phase fun _ after => after = none := by
  cases act with
  | transition next | finishInvocation next =>
    refine ⟨rests,?_⟩
    intro answer
    cases answer with
    | ok record => exact ⟨rfl,fun _ => rfl⟩
    | error error => exact rfl
  | _ => exact ⟨rests,fun _ => rfl⟩

/-! ### Order -/

def rank : InvocationState → Nat
  | .queued => 0
  | .starting => 1
  | .running => 2
  | _ => 3

theorem rank_lt {current next : InvocationState} (valid : current.validateTransition next = true) : rank current < rank next := by
  cases current <;> cases next <;> simp_all [InvocationState.validateTransition,rank]

theorem rank_terminal {state : InvocationState} (terminal : state.isTerminal = true) : rank state = 3 := by
  cases state <;> simp_all [InvocationState.isTerminal,rank]

theorem rank_le (state : InvocationState) : rank state ≤ 3 := by
  cases state <;> decide

/-- What was published was committed in that order, and what is still to be published was committed by its task alone. -/
structure Ordered (phases : Task → Option InvocationState) (state : State) : Prop where
  committed : state.history.Pairwise fun later earlier => rank earlier < rank later
  published : state.published.Sublist state.history
  pending : ∀ task record, phases task = some record → record ∈ state.history ∧ record ∉ state.published
  apart : ∀ task other record, phases task = some record → phases other = some record → task = other

/-- Another commit, made later, has been published already. -/
def State.overtaken (state : State) (record : InvocationState) : Bool :=
  state.published.any fun sent => sent ∈ state.history.takeWhile (· ≠ record)

def unovertaken (_ : Task) : (act : Act) → State → Answer act → State → Bool
  | .publishState record, state, _, _ => !state.overtaken record
  | _, _, _, _ => true

/-- A call leaves the record alone, or commits a later state and owes its publication at most. -/
theorem commit_cases {act : Lifecycle.Act} {life after : Lifecycle.State} {answer : Lifecycle.Answer act} {phase : Option InvocationState}
    (possible : (answer,after) ∈ actEffect act life) :
    (after.durable = life.durable ∧ after.past = life.past ∧ advance phase (.life act) answer = none) ∨
      ∃ next, after = life.record next ∧ life.durable.validateTransition next = true ∧
        (advance phase (.life act) answer = none ∨ advance phase (.life act) answer = some next) := by
  have written {next : InvocationState} {answer : Except StoreError InvocationState} (possible : (answer,after) ∈ writeState next life) :
      (after.durable = life.durable ∧ after.past = life.past ∧ ∃ error, answer = .error error) ∨
        (after = life.record next ∧ life.durable.validateTransition next = true ∧ (answer = .ok next ∨ ∃ error, answer = .error error)) := by
    rcases mem_writeState possible with ⟨same,valid,kind⟩ | ⟨same,_,refused⟩ | ⟨same,failed⟩
    · exact .inr ⟨same,valid,kind⟩
    · exact .inl ⟨by rw [same],by rw [same],_,refused⟩
    · exact .inl ⟨by rw [same],by rw [same],failed.elim (fun e => ⟨_,e⟩) fun e => ⟨_,e⟩⟩
  cases act with
  | transition next | finishInvocation next =>
    rcases written possible with ⟨durable,past,error,refused⟩ | ⟨same,valid,done | ⟨error,failed⟩⟩
    · subst refused
      exact .inl ⟨durable,past,rfl⟩
    · subst done
      exact .inr ⟨next,same,valid,.inr rfl⟩
    · subst failed
      exact .inr ⟨next,same,valid,.inl rfl⟩
  | _ =>
    rcases actEffect_record possible with ⟨durable,past⟩ | ⟨next,never | never,_⟩
    · exact .inl ⟨durable,past,rfl⟩
    · cases never
    · cases never

section Steps
variable {phases : Task → Option InvocationState} {state : State} {task : Task}

variable {next record : InvocationState}

theorem due_update {phase : Option InvocationState} {other : Task} (due : update phases task phase other = some record) :
    (other = task ∧ phase = some record) ∨ (other ≠ task ∧ phases other = some record) := by
  by_cases same : other = task
  · subst same
    rw [update_self] at due
    exact .inl ⟨rfl,due⟩
  · rw [update_of_ne same] at due
    exact .inr ⟨same,due⟩

theorem still_due {other : Task} (due : update phases task none other = some record) : other ≠ task ∧ phases other = some record :=
  (due_update due).resolve_left fun own => nomatch own.2

theorem Ordered.settle (ordered : Ordered phases state) : Ordered (update phases task none) state where
  committed := ordered.committed
  published := ordered.published
  pending other record due := ordered.pending other record (still_due due).2
  apart first second record due also := ordered.apart first second record (still_due due).2 (still_due also).2

section
variable (ordered : Ordered phases state)
include ordered

theorem Ordered.fresh (valid : state.life.durable.validateTransition next = true)
    (member : record ∈ state.history) : rank record < rank next := by
  rcases mem_cons.mp member with same | past
  · exact same ▸ rank_lt valid
  · exact Nat.lt_trans ((pairwise_cons.mp ordered.committed).1 record past) (rank_lt valid)

theorem Ordered.commit (valid : state.life.durable.validateTransition next = true) :
    Ordered phases {state with life := state.life.record next} where
  committed := pairwise_cons.mpr ⟨fun _ member => ordered.fresh valid member,ordered.committed⟩
  published := ordered.published.cons next
  pending other record due := ⟨mem_cons_of_mem next (ordered.pending other record due).1,(ordered.pending other record due).2⟩
  apart := ordered.apart

theorem Ordered.owe (valid : state.life.durable.validateTransition next = true) :
    Ordered (update phases task (some next)) {state with life := state.life.record next} := by
  have unknown : next ∉ state.history := fun member => absurd (ordered.fresh valid member) (Nat.lt_irrefl _)
  refine {ordered.commit valid with pending := ?_, apart := ?_}
  · intro other record due
    rcases due_update due with ⟨_,own⟩ | ⟨_,due⟩
    · cases own
      exact ⟨mem_cons_self,fun sent => unknown (ordered.published.subset sent)⟩
    · exact (ordered.commit valid).pending other record due
  intro first second record due also
  rcases due_update due with ⟨isFirst,own⟩ | ⟨_,due⟩
  · rcases due_update also with ⟨isSecond,_⟩ | ⟨_,also⟩
    · exact isFirst.trans isSecond.symm
    · cases own
      exact absurd (ordered.pending second next also).1 unknown
  · rcases due_update also with ⟨_,own⟩ | ⟨_,also⟩
    · cases own
      exact absurd (ordered.pending first next due).1 unknown
    · exact ordered.apart first second record due also

theorem Ordered.extends (due : phases task = some record)
    (first : state.overtaken record = false) : (record::state.published).Sublist state.history := by
  obtain ⟨member,unsent⟩ := ordered.pending task record due
  obtain ⟨later,earlier,split,absent⟩ := eq_append_cons_of_mem member
  have isLater : state.history.takeWhile (· ≠ record) = later := by
    rw [split,takeWhile_append_of_pos,takeWhile_cons_of_neg,append_nil]
    · simp
    · intro other inside
      exact decide_eq_true fun same => absent (same ▸ inside)
  have published := ordered.published
  rw [split] at published ⊢
  obtain ⟨front,back,isPublished,within,sublist⟩ := sublist_append_iff.mp published
  cases front with
  | cons sent front =>
    have overtakes : state.overtaken record = true := by
      rw [State.overtaken,isLater]
      exact any_eq_true.mpr ⟨sent,isPublished ▸ mem_cons_self,decide_eq_true (within.subset mem_cons_self)⟩
    rw [first] at overtakes
    cases overtakes
  | nil =>
    rw [nil_append] at isPublished
    subst isPublished
    refine List.Sublist.trans ?_ (sublist_append_right later (record::earlier))
    rcases sublist_cons_iff.mp sublist with before | ⟨rest,same,_⟩
    · exact before.cons_cons record
    · exact absurd (same ▸ mem_cons_self) unsent

theorem Ordered.send (due : phases task = some record) (first : state.overtaken record = false) :
    Ordered (update phases task none) {state with published := record::state.published} := by
  refine {ordered.settle with published := ordered.extends due first, pending := ?_}
  intro other owed isOwed
  obtain ⟨member,unsent⟩ := ordered.settle.pending other owed isOwed
  refine ⟨member,?_⟩
  intro sent
  rcases mem_cons.mp sent with same | earlier
  · subst same
    obtain ⟨apart,isOwed⟩ := still_due isOwed
    exact apart (ordered.apart other task owed isOwed due)
  · exact unsent earlier

theorem ordered_step {act : Act} {answer : Answer act} {after : State}
    (allowed : discipline.allowed (phases task) act) (own : Own effect unovertaken task act state answer after) :
    Ordered (update phases task (advance (phases task) act answer)) after := by
  obtain ⟨possible,permitted⟩ := own
  cases act with
  | life act =>
    obtain ⟨⟨told,life⟩,taken,same⟩ := mem_map.mp possible
    cases same
    rcases commit_cases (mem_effect taken).1 with ⟨durable,past,settled⟩ | ⟨next,isLife,valid,settled | owes⟩
    · rw [settled]
      have unchanged : ({state with life := life} : State).history = state.history := by
        rw [State.history,State.history,durable,past]
      have settled : Ordered (update phases task none) state := ordered.settle
      exact ⟨unchanged ▸ settled.committed,unchanged ▸ settled.published,unchanged ▸ settled.pending,settled.apart⟩
    · subst isLife
      rw [settled]
      exact (ordered.commit valid).settle
    · subst isLife
      rw [owes]
      exact ordered.owe valid
  | publishState record =>
    have first : state.overtaken record = false := by simpa [unovertaken] using permitted
    dsimp only [effect] at possible
    split at possible
    · cases possible
    cases mem_singleton.mp possible
    split
    · exact ordered.settle
    · exact ordered.send allowed first

end

end Steps

end BazelMcp.Publication

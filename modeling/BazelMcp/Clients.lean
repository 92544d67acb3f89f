import BazelMcp.Expansion
import BazelMcp.Lifecycle
import Mathlib.Data.List.Nodup
import Mathlib.Data.List.Perm.Subperm

/-! The Bazel clients of any invocations in any server processes. A worker takes the
mutex of its key in the process, the lock file of its key, and an execution permit, in
this order; under all three it may probe the Bazel server with a client of its own and
then spawns the client that runs the command. -/
namespace BazelMcp.Clients
open Tasks Typestate Lifecycle Function List

/-- What a worker gives up again: its permit, the lock file, the guard of the mutex, and
the reference that keeps the mutex in the registry. -/
inductive Guard where
  | permit
  | file
  | workspace (mutex : Nat)
  | reference (mutex : Nat)
  deriving DecidableEq

inductive Attempt where
  | acquired
  | busy
  | failed
  deriving DecidableEq

/-- The probe has exited, or its future was dropped: the client is killed then, but
nobody waits for it. -/
inductive Probe where
  | finished
  | dropped
  deriving DecidableEq

inductive Client where
  | probe
  | command
  deriving DecidableEq

inductive Act where
  | life (act : Lifecycle.Act)
  | workspaceLock
  | lockMutex (mutex : Nat)
  | tryLock
  | sleep
  | acquireExecution
  | spawnProbe
  | awaitProbe
  | drop (guard : Guard)
  | exit (client : Client)
  | stall
  deriving DecidableEq

@[reducible] def Answer : Act → Type
  | .life act => Lifecycle.Answer act
  | .workspaceLock => Nat
  | .lockMutex _ | .sleep | .spawnProbe => Bool
  | .tryLock => Attempt
  | .acquireExecution => Grant
  | .awaitProbe => Probe
  | .drop _ | .exit _ => Unit
  | .stall => Empty

/-- The lock files are named by the digests of the keys; `executing` are the invocations
that hold a permit of their server. -/
structure World (ν π κ δ : Type) where
  lives : ν → Lifecycle.State := fun _ => {}
  probes : ν → Bool := fun _ => false
  registry : π → κ → Option Nat := fun _ _ => none
  strong : Nat → Nat := fun _ => 0
  guarded : Nat → Bool := fun _ => false
  mutexes : Nat := 0
  files : δ → Option ν := fun _ => none
  executing : π → List ν := fun _ => []

variable {ν π κ δ : Type}

inductive Task (ν : Type) where
  | life (id : ν) (task : Lifecycle.Task)
  | client (id : ν) (client : Client)
  deriving DecidableEq

def Task.id : Task ν → ν
  | .life id _ | .client id _ => id

def World.Alive (world : World ν π κ δ) : ν × Client → Prop
  | (id,.probe) => world.probes id = true
  | (id,.command) => (world.lives id).child = .alive

structure Setting (ν π κ δ : Type) where
  home : ν → π
  lockKey : ν → κ
  digest : κ → δ
  globalConcurrency : π → Nat

section Effects
variable [DecidableEq ν] [DecidableEq π] [DecidableEq κ] [DecidableEq δ] (setting : Setting ν π κ δ)

/-- Mutexes that nobody refers to are pruned before the key is looked up. -/
def World.workspaceLock (world : World ν π κ δ) (process : π) (key : κ) : Nat × World ν π κ δ :=
  let retained := fun key => (world.registry process key).filter fun mutex => 0 < world.strong mutex
  match retained key with
  | some mutex =>
    (mutex,{ world with
      registry := update world.registry process retained
      strong := update world.strong mutex (world.strong mutex+1) })
  | none =>
    (world.mutexes,{ world with
      registry := update world.registry process (update retained key (some world.mutexes))
      strong := update world.strong world.mutexes 1
      guarded := update world.guarded world.mutexes false
      mutexes := world.mutexes+1 })

def World.drop (world : World ν π κ δ) (id : ν) : Guard → World ν π κ δ
  | .permit => {world with executing := update world.executing (setting.home id) ((world.executing (setting.home id)).erase id)}
  | .file => {world with files := update world.files (setting.digest (setting.lockKey id)) none}
  | .workspace mutex => {world with guarded := update world.guarded mutex false}
  | .reference mutex => {world with strong := update world.strong mutex (world.strong mutex-1)}

def selectCancelled {α : Type} (cancelled : α) (id : ν) (world : World ν π κ δ) (others : List (α × World ν π κ δ)) :
    List (α × World ν π κ δ) :=
  others ++ if (world.lives id).token then [(cancelled,world)] else []

def actEffect (id : ν) (task : Lifecycle.Task) : (act : Act) → World ν π κ δ → List (Answer act × World ν π κ δ)
  | .life act, world => (Lifecycle.effect task act (world.lives id)).map fun (answer,life) =>
    (answer,{world with lives := update world.lives id life})
  | .workspaceLock, world => [world.workspaceLock (setting.home id) (setting.lockKey id)]
  | .lockMutex mutex, world => selectCancelled false id world
    (if world.guarded mutex then [] else [(true,{world with guarded := update world.guarded mutex true})])
  -- The lock is exclusive between open files, in one process as well as between processes.
  | .tryLock, world =>
    (.failed,world)::match world.files (setting.digest (setting.lockKey id)) with
      | none => [(.acquired,{world with files := update world.files (setting.digest (setting.lockKey id)) (some id)})]
      | some _ => [(.busy,world)]
  | .sleep, world => selectCancelled false id world [(true,world)]
  | .acquireExecution, world => selectCancelled .cancelled id world ((.refused,world)::
    if (world.executing (setting.home id)).length < setting.globalConcurrency (setting.home id) then
      [(.granted,{world with executing := update world.executing (setting.home id) (id::world.executing (setting.home id))})]
    else [])
  | .spawnProbe, world => [(true,{world with probes := update world.probes id true}),(false,world)]
  | .awaitProbe, world => [(.finished,{world with probes := update world.probes id false}),(.dropped,world)]
  | .drop guard, world => [((),world.drop setting id guard)]
  | .exit .probe, world => [((),{world with probes := update world.probes id false})]
  | .exit .command, world =>
    if (world.lives id).child = .alive then
      [((),{world with lives := update world.lives id {world.lives id with child := .reaped}})]
    else []
  | .stall, _ => []

def effect (task : Task ν) (act : Act) (world : World ν π κ δ) : List (Answer act × World ν π κ δ) :=
  match task with
  | .life id task => actEffect setting id task act world
  | .client id _ => actEffect setting id .fault act world

end Effects

/-! ### Workers -/

abbrev Proc := Program Act Answer

/-- `bazel info server_pid`, before a command whose events come through a pipe. -/
def probeBazelServerPid : Proc Unit := do
  if (← perform Act.spawnProbe : Bool) then discard (perform Act.awaitProbe)
  else return ()

def prepareStdio (fifo : Bool) : Proc Bool := do
  if (← perform (Act.life .openStdio) : Bool) then
    if fifo then
      probeBazelServerPid
      return true
    else return true
  else return false

def spell (fifo : Bool) : (act : Lifecycle.Act) → Proc (Lifecycle.Answer act)
  | .openStdio => prepareStdio fifo
  | act => perform (Act.life act)

/-- The lock file is tried again and again; the rounds bound how often this run tries. -/
def acquireOutputBaseLock : Nat → Proc Grant
  | 0 => do nomatch ← perform Act.stall
  | rounds+1 => do
    if (← perform (Act.life .isCancelled) : Bool) then return .cancelled
    else
      match (← perform Act.tryLock : Attempt) with
      | .acquired => return .granted
      | .failed => return .refused
      | .busy => if (← perform Act.sleep : Bool) then acquireOutputBaseLock rounds else return .cancelled

def dropAll : List Guard → Proc Unit
  | [] => return ()
  | guard::rest => do
    perform (Act.drop guard)
    dropAll rest

/-- Guards are dropped when the body has returned, in the order given. -/
def leaving (guards : List Guard) (body : Proc Finished) : Proc Finished := do
  let result ← body
  dropAll guards
  return result

/-- Under all guards; only the way through `execute` drops them explicitly. -/
def runWithPermit (fifo isRun : Bool) (mutex : Nat) : Proc Finished := do
  let early : List Guard := [.permit,.file,.workspace mutex,.reference mutex]
  if (← perform (Act.life .isCancelled) : Bool) then leaving early (finishCancelled.expand (spell fifo))
  else
    match (← perform (Act.life (.transition .starting)) : Except StoreError InvocationState) with
    | .ok _ => leaving [.workspace mutex,.file,.permit,.reference mutex] ((execute isRun).expand (spell fifo))
    | .error error => leaving early ((startingFailed error).expand (spell fifo))

def runUnderLocks (fifo isRun : Bool) (mutex : Nat) : Proc Finished := do
  let guards : List Guard := [.file,.workspace mutex,.reference mutex]
  match (← perform Act.acquireExecution : Grant) with
  | .cancelled => leaving guards (finishCancelled.expand (spell fifo))
  | .refused => leaving guards (return .error .schedulerClosed)
  | .granted => runWithPermit fifo isRun mutex

def runPrepared (fifo isRun : Bool) (rounds : Nat) : Proc Finished := do
  let mutex ← perform Act.workspaceLock
  if (← perform (Act.lockMutex mutex) : Bool) then
    match ← acquireOutputBaseLock rounds with
    | .cancelled => leaving [.workspace mutex,.reference mutex] (finishCancelled.expand (spell fifo))
    | .refused => leaving [.workspace mutex,.reference mutex] (finishStartFailure.expand (spell fifo))
    | .granted => runUnderLocks fifo isRun mutex
  else leaving [.reference mutex] (finishCancelled.expand (spell fifo))

def worker (fifo isRun : Bool) (rounds : Nat) : Proc Unit := do
  match ← runPrepared fifo isRun rounds with
  | .ok state => perform (Act.life (.endWorker (.ok state)))
  | .error error => perform (Act.life (.endWorker (.error error)))

/-- An accepted invocation: how its events are read, how it is kept, and how its cancellation calls are made. -/
structure Accepted where
  fifo : Bool := false
  isRun : Bool := false
  deferred : Bool := false
  reason : Nat → Bool := fun _ => false
  rounds : Nat := 1

/-- Any number of accepted invocations. Clients exit when they want to. -/
def start (accepted : ν → Accepted) : Config Act Answer (World ν π κ δ) (Task ν) where
  tasks
    | .life id .worker => worker (accepted id).fifo (accepted id).isRun (accepted id).rounds
    | .life id task => ((Lifecycle.start (accepted id).isRun (accepted id).deferred false (accepted id).reason).tasks task).expand
        fun act => perform (Act.life act)
    | .client _ client => perform (Act.exit client)
  state := {}

/-! ### What a worker holds -/

structure Phase where
  worker : Bool := false
  file : Bool := false
  permit : Bool := false
  probing : Bool := false
  running : Bool := false
  deriving DecidableEq

structure Phase.Armed (phase : Phase) : Prop where
  worker : phase.worker = true
  file : phase.file = true
  permit : phase.permit = true
  probing : phase.probing = false
  running : phase.running = false

def Phase.Allowed (phase : Phase) : Act → Prop
  | .life .spawn | .spawnProbe => phase.Armed
  | .tryLock => phase.worker = true ∧ phase.file = false
  | .acquireExecution => phase.worker = true ∧ phase.permit = false
  | .drop .file => phase.worker = true ∧ phase.file = true ∧ phase.probing = false ∧ phase.running = false
  | .drop .permit => phase.worker = true ∧ phase.permit = true ∧ phase.probing = false ∧ phase.running = false
  | .awaitProbe | .life (.waitChild _) | .life .terminateChild => phase.worker = true
  | _ => True

def Phase.advance (phase : Phase) : (act : Act) → Answer act → Phase
  | .tryLock, .acquired => {phase with file := true}
  | .acquireExecution, .granted => {phase with permit := true}
  | .spawnProbe, true => {phase with probing := true}
  | .awaitProbe, _ => {phase with probing := false}
  | .life .spawn, true => {phase with running := true}
  | .life (.waitChild _), .exited _ | .life (.waitChild _), .waitFailed => {phase with running := false}
  | .life .terminateChild, _ => {phase with running := false}
  | .drop .file, _ => {phase with file := false}
  | .drop .permit, _ => {phase with permit := false}
  | _, _ => phase

def discipline : Discipline Act Answer Phase where
  allowed := Phase.Allowed
  advance := Phase.advance

section Programs
variable {phase : Phase} {fifo isRun : Bool}

theorem follows_recording {α : Type} {program : Lifecycle.Proc α} (uses : program.Uses Recording) :
    Follows discipline (program.expand (spell fifo)) phase fun _ after => after = phase := by
  refine follows_expand ?_ uses rfl
  intro act after recording rests
  cases act with
  | getInvocationHeader | getInvocation | transition | finishInvocation | persistDeferredFailure | captureEvidence | reduceEvidence =>
    exact ⟨trivial,fun _ => rests⟩
  | _ => cases recording

def Bystanding (act : Lifecycle.Act) : Prop := act ≠ .spawn ∧ act ≠ .terminateChild ∧ ∀ isRun, act ≠ .waitChild isRun

theorem follows_plain {α : Type} {program : Lifecycle.Proc α} (uses : program.Uses Bystanding) :
    Follows discipline (program.expand fun act => perform (Act.life act)) phase fun _ after => after = phase := by
  refine follows_expand ?_ uses rfl
  intro act after ⟨spawn,terminate,wait⟩ rests
  cases act with
  | spawn => exact absurd rfl spawn
  | terminateChild => exact absurd rfl terminate
  | waitChild isRun => exact absurd rfl (wait isRun)
  | _ => exact ⟨trivial,fun _ => rests⟩

theorem follows_prepareStdio (armed : phase.Armed) : Follows discipline (prepareStdio fifo) phase fun _ => Phase.Armed := by
  refine follows_bind.mpr ⟨trivial,?_⟩
  intro opened
  cases opened with
  | false => exact armed
  | true =>
    cases fifo with
    | false => exact armed
    | true =>
      refine ⟨armed,?_⟩
      intro spawned
      cases spawned with
      | false => exact armed
      | true => exact ⟨armed.worker,fun _ => {armed with probing := rfl}⟩

structure Phase.Busy (phase : Phase) : Prop where
  worker : phase.worker = true
  file : phase.file = true
  permit : phase.permit = true
  probing : phase.probing = false

theorem Phase.Armed.busy (armed : phase.Armed) : phase.Busy := {armed with}

theorem Phase.Busy.rests (busy : phase.Busy) : Phase.Armed {phase with running := false} := {busy with running := rfl}

theorem follows_launch (armed : phase.Armed) : Follows discipline (launch.expand (spell fifo)) phase fun started after =>
    after.Busy ∧ (started ≠ .ok .running → after.Armed) := by
  refine ⟨trivial,?_⟩
  intro prepared
  cases prepared with
  | false => exact ⟨armed.busy,fun _ => armed⟩
  | true =>
    refine ⟨armed,?_⟩
    intro spawned
    cases spawned with
    | false => exact ⟨armed.busy,fun _ => armed⟩
    | true =>
      have busy : Phase.Busy {phase with running := true} := {armed with}
      refine ⟨trivial,?_⟩
      intro recorded
      cases recorded with
      | ok state => exact ⟨busy,fun other => absurd rfl other⟩
      | error error => exact ⟨armed.worker,fun _ => ⟨busy.rests.busy,fun _ => busy.rests⟩⟩

theorem follows_startExecution (armed : phase.Armed) : Follows discipline (startExecution.expand (spell fifo)) phase fun started after =>
    after.Busy ∧ (started ≠ .ok .running → after.Armed) := by
  refine ⟨trivial,?_⟩
  intro cancelled
  cases cancelled with
  | true => exact ⟨armed.busy,fun _ => armed⟩
  | false =>
    change Follows discipline (prepareStdio fifo >>= fun _ => _) phase _
    apply follows_bind.mpr
    apply (follows_prepareStdio armed).weaken
    intro opened after armed
    cases opened with
    | false => exact ⟨armed.busy,fun _ => armed⟩
    | true =>
      refine ⟨trivial,?_⟩
      intro cancelled
      cases cancelled with
      | true => exact ⟨armed.busy,fun _ => armed⟩
      | false => exact follows_launch armed

theorem follows_waitForExit (busy : phase.Busy) :
    Follows discipline ((waitForExit isRun).expand (spell fifo)) phase fun _ => Phase.Armed := by
  refine ⟨busy.worker,?_⟩
  intro ended
  cases ended with
  | exited success =>
    cases isRun with
    | false => exact busy.rests
    | true => exact ⟨trivial,fun _ => busy.rests⟩
  | waitFailed => exact busy.rests
  | cancelled | timedOut | outputLimit => exact ⟨busy.worker,fun _ => busy.rests⟩

theorem follows_execute (armed : phase.Armed) : Follows discipline ((execute isRun).expand (spell fifo)) phase fun _ => Phase.Armed := by
  have recorded {α : Type} {program : Lifecycle.Proc α} {phase : Phase} (uses : program.Uses Recording) (armed : phase.Armed) :
      Follows discipline (program.expand (spell fifo)) phase fun _ => Phase.Armed :=
    (follows_recording uses).weaken fun _ _ same => same ▸ armed
  rw [execute,expand_bind]
  apply follows_bind.mpr
  apply (follows_startExecution armed).weaken
  intro started after ⟨busy,rests⟩
  split
  · exact recorded (uses_recoverTerminalFailure _ _) (rests (by simp))
  · exact recorded (uses_orRecover (uses_commitTerminal _ _)) (rests (by simp))
  rw [expand_bind]
  apply follows_bind.mpr
  apply (follows_waitForExit busy).weaken
  intro ended last armed
  split
  · exact recorded (uses_recoverTerminalFailure _ _) armed
  · exact recorded (uses_orRecover (uses_processEvidence _)) armed

structure Phase.Holds (phase : Phase) (file permit : Bool) : Prop where
  worker : phase.worker = true
  file : phase.file = file
  permit : phase.permit = permit
  probing : phase.probing = false
  running : phase.running = false

theorem follows_recorded {α : Type} {program : Lifecycle.Proc α} {file permit : Bool} (uses : program.Uses Recording)
    (holds : phase.Holds file permit) : Follows discipline (program.expand (spell fifo)) phase fun _ after => after.Holds file permit :=
  (follows_recording uses).weaken fun _ _ same => same ▸ holds

variable {rounds : Nat}

theorem follows_acquireOutputBaseLock (holds : phase.Holds false false) :
    Follows discipline (acquireOutputBaseLock rounds) phase fun grant after => after.Holds (decide (grant = .granted)) false := by
  induction rounds with
  | zero => exact ⟨trivial,fun never => never.elim⟩
  | succ rounds ih =>
    refine ⟨trivial,?_⟩
    intro cancelled
    cases cancelled with
    | true => exact holds
    | false =>
      refine ⟨⟨holds.worker,holds.file⟩,?_⟩
      intro attempt
      cases attempt with
      | acquired => exact {holds with file := rfl}
      | failed => exact holds
      | busy =>
        refine ⟨trivial,?_⟩
        intro slept
        cases slept with
        | true => exact ih
        | false => exact holds

theorem follows_leaving {guards : List Guard} {body : Proc Finished} {rests : Phase → Prop}
    (follows : Follows discipline body phase fun _ => rests)
    (drops : ∀ after, rests after → Follows discipline (dropAll guards) after fun _ last => last.Holds false false) :
    Follows discipline (leaving guards body) phase fun _ after => after.Holds false false := by
  apply follows_bind.mpr
  apply follows.weaken
  intro _ after holds
  apply follows_bind.mpr
  exact drops after holds

theorem follows_runWithPermit {mutex : Nat} (holds : phase.Holds true true) :
    Follows discipline (runWithPermit fifo isRun mutex) phase fun _ after => after.Holds false false := by
  have early (after : Phase) (holds : after.Holds true true) :
      Follows discipline (dropAll [.permit,.file,.workspace mutex,.reference mutex]) after fun _ last => last.Holds false false := by
    refine ⟨⟨holds.worker,holds.permit,holds.probing,holds.running⟩,fun _ => ?_⟩
    refine ⟨⟨holds.worker,holds.file,holds.probing,holds.running⟩,fun _ => ?_⟩
    exact ⟨trivial,fun _ => ⟨trivial,fun _ => {holds with file := rfl, permit := rfl}⟩⟩
  refine ⟨trivial,?_⟩
  intro cancelled
  cases cancelled with
  | true => exact follows_leaving (follows_recorded uses_finishCancelled holds) early
  | false =>
    refine ⟨trivial,?_⟩
    intro started
    cases started with
    | error error => exact follows_leaving (follows_recorded (uses_startingFailed error) holds) early
    | ok state =>
      have armed : phase.Armed := {holds with}
      refine follows_leaving (follows_execute armed) ?_
      intro after armed
      refine ⟨trivial,fun _ => ?_⟩
      refine ⟨⟨armed.worker,armed.file,armed.probing,armed.running⟩,fun _ => ?_⟩
      refine ⟨⟨armed.worker,armed.permit,armed.probing,armed.running⟩,fun _ => ?_⟩
      exact ⟨trivial,fun _ => {armed with file := rfl, permit := rfl}⟩

theorem follows_runUnderLocks {mutex : Nat} (holds : phase.Holds true false) :
    Follows discipline (runUnderLocks fifo isRun mutex) phase fun _ after => after.Holds false false := by
  have early (after : Phase) (holds : after.Holds true false) :
      Follows discipline (dropAll [.file,.workspace mutex,.reference mutex]) after fun _ last => last.Holds false false := by
    refine ⟨⟨holds.worker,holds.file,holds.probing,holds.running⟩,fun _ => ?_⟩
    exact ⟨trivial,fun _ => ⟨trivial,fun _ => {holds with file := rfl}⟩⟩
  refine ⟨⟨holds.worker,holds.permit⟩,?_⟩
  intro grant
  cases grant with
  | cancelled => exact follows_leaving (follows_recorded uses_finishCancelled holds) early
  | refused => exact follows_leaving (follows_pure.mpr holds) early
  | granted => exact follows_runWithPermit {holds with permit := rfl}

theorem follows_runPrepared (holds : phase.Holds false false) :
    Follows discipline (runPrepared fifo isRun rounds) phase fun _ after => after.Holds false false := by
  refine ⟨trivial,?_⟩
  intro mutex
  refine ⟨trivial,?_⟩
  intro locked
  cases locked with
  | false => exact follows_leaving (follows_recorded uses_finishCancelled holds) fun _ holds => ⟨trivial,fun _ => holds⟩
  | true =>
    have early (after : Phase) (holds : after.Holds false false) :
        Follows discipline (dropAll [.workspace mutex,.reference mutex]) after fun _ last => last.Holds false false :=
      ⟨trivial,fun _ => ⟨trivial,fun _ => holds⟩⟩
    change Follows discipline (acquireOutputBaseLock rounds >>= fun _ => _) phase _
    apply follows_bind.mpr
    apply (follows_acquireOutputBaseLock holds).weaken
    intro grant after holds
    cases grant with
    | cancelled => exact follows_leaving (follows_recorded uses_finishCancelled holds) early
    | refused => exact follows_leaving (follows_recorded uses_finishStartFailure holds) early
    | granted => exact follows_runUnderLocks holds

theorem follows_worker (holds : phase.Holds false false) :
    Follows discipline (worker fifo isRun rounds) phase fun _ _ => True := by
  apply follows_bind.mpr
  apply (follows_runPrepared holds).weaken
  intro result after _
  cases result with
  | ok state | error error => exact ⟨trivial,fun _ => trivial⟩

end Programs

/-! ### Exclusion -/

/-- The future of a probe is not dropped, and waiting for the client of the command does not fail. -/
def awaited (_ : Task ν) : (act : Act) → World ν π κ δ → Answer act → World ν π κ δ → Bool
  | .awaitProbe, _, .dropped, _ => false
  | .life (.waitChild _), _, .waitFailed, _ => false
  | _, _, _, _ => true

/-- The world agrees with what the worker of the invocation takes itself to hold. -/
structure Agrees (setting : Setting ν π κ δ) (world : World ν π κ δ) (id : ν) (phase : Phase) : Prop where
  file : phase.file = true → world.files (setting.digest (setting.lockKey id)) = some id
  permit : phase.permit = true → id ∈ world.executing (setting.home id)
  command : (world.lives id).child = .alive → phase.running = true
  probe : world.probes id = true → phase.probing = true
  held : phase.running = true ∨ phase.probing = true → phase.file = true ∧ phase.permit = true
  single : phase.running = true → phase.probing = false

structure Exclusive (setting : Setting ν π κ δ) (hands : ν → Phase) (world : World ν π κ δ) : Prop where
  agrees : ∀ id, Agrees setting world id (hands id)
  room : ∀ process, (world.executing process).length ≤ setting.globalConcurrency process

section Steps
variable {setting : Setting ν π κ δ} {world after : World ν π κ δ}
variable {hands : ν → Phase} {phase : Phase} {id other : ν} {role : Lifecycle.Task}

/-- The result of a step: nobody's hands have changed, or those of the worker have. -/
def Steps [DecidableEq ν] (setting : Setting ν π κ δ) (hands : ν → Phase) (id : ν) (phase next : Phase) (after : World ν π κ δ) : Prop :=
  (next = phase ∧ Exclusive setting hands after) ∨ (phase.worker = true ∧ Exclusive setting (update hands id next) after)

theorem Agrees.beside (agrees : Agrees setting world other phase)
    (file : phase.file = true → after.files (setting.digest (setting.lockKey other)) = world.files (setting.digest (setting.lockKey other)))
    (permit : other ∈ world.executing (setting.home other) → other ∈ after.executing (setting.home other))
    (command : (after.lives other).child = .alive → (world.lives other).child = .alive) (probe : after.probes other = true → world.probes other = true) :
    Agrees setting after other phase where
  file holds := (file holds).trans (agrees.file holds)
  permit holds := permit (agrees.permit holds)
  command alive := agrees.command (command alive)
  probe alive := agrees.probe (probe alive)
  held := agrees.held
  single := agrees.single

theorem advance_worker (act : Act) (answer : Answer act) : (phase.advance act answer).worker = phase.worker := by
  unfold Phase.advance
  split <;> rfl

section
variable (exclusive : Exclusive setting hands world)
include exclusive

theorem Exclusive.quiet (files : after.files = world.files) (executing : after.executing = world.executing)
    (command : ∀ id, (after.lives id).child = .alive → (world.lives id).child = .alive)
    (probe : ∀ id, after.probes id = true → world.probes id = true) : Exclusive setting hands after where
  agrees id := (exclusive.agrees id).beside (fun _ => by rw [files]) (fun member => executing ▸ member) (command id) (probe id)
  room process := executing ▸ exclusive.room process

variable [DecidableEq ν]

theorem Exclusive.move {next : Phase} (agrees : Agrees setting after id next)
    (file : ∀ other, other ≠ id → (hands other).file = true →
      after.files (setting.digest (setting.lockKey other)) = world.files (setting.digest (setting.lockKey other)))
    (permit : ∀ other, other ≠ id → other ∈ world.executing (setting.home other) → other ∈ after.executing (setting.home other))
    (command : ∀ other, other ≠ id → (after.lives other).child = .alive → (world.lives other).child = .alive)
    (probe : ∀ other, other ≠ id → after.probes other = true → world.probes other = true)
    (room : ∀ process, (after.executing process).length ≤ setting.globalConcurrency process) :
    Exclusive setting (update hands id next) after where
  agrees other := by
    by_cases same : other = id
    · subst same
      rw [update_self]
      exact agrees
    · rw [update_of_ne same]
      exact (exclusive.agrees other).beside (file other same) (permit other same) (command other same) (probe other same)
  room := room

variable {life : Lifecycle.State}

theorem Exclusive.live (command : life.child = .alive → (world.lives id).child = .alive) :
    Exclusive setting hands {world with lives := update world.lives id life} := by
  refine exclusive.quiet rfl rfl ?_ (fun _ alive => alive)
  intro other alive
  by_cases same : other = id
  · subst same
    exact command (by simpa using alive)
  · simpa [update_of_ne same] using alive

theorem Exclusive.reap (mine : hands id = phase) (reaped : life.child ≠ .alive) :
    Exclusive setting (update hands id {phase with running := false}) {world with lives := update world.lives id life} := by
  have agrees : Agrees setting world id phase := mine ▸ exclusive.agrees id
  refine exclusive.move ?_ (fun _ _ _ => rfl) (fun _ _ member => member) ?_ (fun _ _ alive => alive) exclusive.room
  · refine {agrees with command := ?_, held := ?_, single := ?_}
    · intro alive
      exact absurd (by simpa using alive) reaped
    · intro client
      rcases client with never | probing
      · cases never
      · exact agrees.held (.inr probing)
    · intro never
      cases never
  · intro other apart alive
    simpa [update_of_ne apart] using alive

theorem steps_life {act : Lifecycle.Act} {answer : Lifecycle.Answer act}
    (possible : (answer,life) ∈ Lifecycle.effect role act (world.lives id)) (allowed : phase.Allowed (.life act))
    (mine : phase.worker = true → hands id = phase) (permitted : awaited task (.life act) world answer after = true) :
    Steps setting hands id phase (phase.advance (.life act) answer) {world with lives := update world.lives id life} := by
  have taken := (mem_effect possible).1
  have others (other : act ≠ .spawn) : life.child = .alive → (world.lives id).child = .alive := by
    intro alive
    rcases actEffect_child taken with spawned | same | ⟨reaped,_⟩
    · exact absurd spawned other
    · exact same ▸ alive
    · rw [reaped] at alive
      cases alive
  cases act with
  | spawn =>
    rcases mem_pair.mp taken with same | same
    · cases same
      have armed : phase.Armed := allowed
      have agrees : Agrees setting world id phase := mine armed.worker ▸ exclusive.agrees id
      refine .inr ⟨armed.worker,exclusive.move ?_ (fun _ _ _ => rfl) (fun _ _ member => member) ?_ (fun _ _ alive => alive) exclusive.room⟩
      · exact {agrees with command := fun _ => rfl, held := fun _ => ⟨armed.file,armed.permit⟩, single := fun _ => armed.probing}
      · intro other apart alive
        simpa [update_of_ne apart] using alive
    · cases same
      exact .inl ⟨rfl,exclusive.live fun alive => alive⟩
  | terminateChild =>
    cases mem_singleton.mp taken
    exact .inr ⟨allowed,exclusive.reap (mine allowed) ChildState.noConfusion⟩
  | waitChild isRun =>
    cases answer with
    | exited success =>
      have reaped : life.child ≠ .alive := by
        simp only [Lifecycle.actEffect,Lifecycle.selectCancelled] at taken
        grind
      exact .inr ⟨allowed,exclusive.reap (mine allowed) reaped⟩
    | waitFailed => cases permitted
    | _ => exact .inl ⟨rfl,exclusive.live (others Lifecycle.Act.noConfusion)⟩
  | _ => exact .inl ⟨rfl,exclusive.live (others (by simp))⟩

variable [DecidableEq π]

/-- The permits of the server change for the worker alone. -/
theorem Exclusive.permits {next : Phase} {members : List ν}
    (agrees : Agrees setting {world with executing := update world.executing (setting.home id) members} id next)
    (kept : ∀ other, other ≠ id → other ∈ world.executing (setting.home id) → other ∈ members)
    (room : members.length ≤ setting.globalConcurrency (setting.home id)) :
    Exclusive setting (update hands id next) {world with executing := update world.executing (setting.home id) members} := by
  refine exclusive.move agrees (fun _ _ _ => rfl) ?_ (fun _ _ alive => alive) (fun _ _ alive => alive) ?_
  · intro other apart member
    change other ∈ update world.executing (setting.home id) _ (setting.home other)
    by_cases here : setting.home other = setting.home id
    · rw [here,update_self]
      exact kept other apart (here ▸ member)
    · rw [update_of_ne here]
      exact member
  · intro process
    change (update world.executing (setting.home id) _ process).length ≤ _
    by_cases here : process = setting.home id
    · rw [here,update_self]
      exact room
    · rw [update_of_ne here]
      exact exclusive.room process

variable [DecidableEq δ]

theorem steps_drop {guard : Guard} (mine : phase.worker = true → hands id = phase) (allowed : phase.Allowed (.drop guard)) :
    Steps setting hands id phase (phase.advance (.drop guard) ()) (world.drop setting id guard) := by
  cases guard with
  | workspace mutex | reference mutex => exact .inl ⟨rfl,exclusive.quiet rfl rfl (fun _ alive => alive) (fun _ alive => alive)⟩
  | file =>
    obtain ⟨worker,holds,unprobed,idle⟩ := allowed
    have agrees : Agrees setting world id phase := mine worker ▸ exclusive.agrees id
    refine .inr ⟨worker,exclusive.move ?_ ?_ (fun _ _ member => member) (fun _ _ alive => alive) (fun _ _ alive => alive) exclusive.room⟩
    · refine {agrees with file := ?_, held := ?_}
      · intro never
        cases never
      intro client
      rcases client with running | probing
      · cases idle.symm.trans running
      · cases unprobed.symm.trans probing
    · intro other apart theirs
      apply update_of_ne
      intro same
      have taken := (exclusive.agrees other).file theirs
      rw [same,agrees.file holds] at taken
      exact apart (Option.some.inj taken).symm
  | permit =>
    obtain ⟨worker,holds,unprobed,idle⟩ := allowed
    have agrees : Agrees setting world id phase := mine worker ▸ exclusive.agrees id
    refine .inr ⟨worker,exclusive.permits {agrees with permit := ?_, held := ?_} (fun _ apart => (mem_erase_of_ne apart).mpr)
      (Nat.le_trans length_erase_le (exclusive.room _))⟩
    · intro never
      cases never
    intro client
    rcases client with running | probing
    · cases idle.symm.trans running
    · cases unprobed.symm.trans probing

variable [DecidableEq κ]

theorem steps_tryLock {answer : Attempt} (mine : hands id = phase) (allowed : phase.Allowed .tryLock)
    (possible : (answer,after) ∈ actEffect setting id role .tryLock world) : Steps setting hands id phase (phase.advance .tryLock answer) after := by
  rcases mem_cons.mp possible with same | tried
  · cases same
    exact .inl ⟨rfl,exclusive⟩
  split at tried
  · rename_i free
    cases mem_singleton.mp tried
    have agrees : Agrees setting world id phase := mine ▸ exclusive.agrees id
    refine .inr ⟨allowed.1,exclusive.move ?_ ?_ (fun _ _ member => member) (fun _ _ alive => alive) (fun _ _ alive => alive) exclusive.room⟩
    · refine {agrees with file := fun _ => update_self .., held := ?_}
      intro client
      exact ⟨rfl,(agrees.held client).2⟩
    intro other apart holds
    apply update_of_ne
    intro same
    have taken := (exclusive.agrees other).file holds
    rw [same,free] at taken
    cases taken
  · cases mem_singleton.mp tried
    exact .inl ⟨rfl,exclusive⟩

theorem steps_acquireExecution {answer : Grant} (mine : hands id = phase)
    (allowed : phase.Allowed .acquireExecution) (possible : (answer,after) ∈ actEffect setting id role .acquireExecution world) :
    Steps setting hands id phase (phase.advance .acquireExecution answer) after := by
  rcases mem_append.mp possible with acquired | cancelled
  · rcases mem_cons.mp acquired with same | granted
    · cases same
      exact .inl ⟨rfl,exclusive⟩
    split at granted
    · rename_i room
      cases mem_singleton.mp granted
      have agrees : Agrees setting world id phase := mine ▸ exclusive.agrees id
      refine .inr ⟨allowed.1,exclusive.permits {agrees with permit := ?_, held := ?_} (fun _ _ => mem_cons_of_mem _) room⟩
      · intro _
        change id ∈ update world.executing (setting.home id) _ (setting.home id)
        rw [update_self]
        exact mem_cons_self
      · intro client
        exact ⟨(agrees.held client).1,rfl⟩
    · cases granted
  · split at cancelled
    · cases mem_singleton.mp cancelled
      exact .inl ⟨rfl,exclusive⟩
    · cases cancelled

theorem steps_probe {act : Act} {answer : Answer act} (isProbe : act = .spawnProbe ∨ act = .awaitProbe)
    (mine : phase.worker = true → hands id = phase) (allowed : phase.Allowed act)
    (possible : (answer,after) ∈ actEffect setting id role act world) (permitted : awaited task act world answer after = true) :
    Steps setting hands id phase (phase.advance act answer) after := by
  have others {alive : Bool} (other : ν) (apart : other ≠ id) (probing : update world.probes id alive other = true) :
      world.probes other = true := by
    rw [update_of_ne apart] at probing
    exact probing
  rcases isProbe with isAct | isAct
  · subst isAct
    rcases mem_pair.mp possible with same | same
    · cases same
      have armed : phase.Armed := allowed
      have agrees : Agrees setting world id phase := mine armed.worker ▸ exclusive.agrees id
      refine .inr ⟨armed.worker,exclusive.move ?_ (fun _ _ _ => rfl) (fun _ _ member => member) (fun _ _ alive => alive) others exclusive.room⟩
      refine {agrees with probe := fun _ => rfl, held := fun _ => ⟨armed.file,armed.permit⟩, single := ?_}
      intro running
      cases armed.running.symm.trans running
    · cases same
      exact .inl ⟨rfl,exclusive⟩
  · subst isAct
    rcases mem_pair.mp possible with same | same
    · cases same
      have worker : phase.worker = true := allowed
      have agrees : Agrees setting world id phase := mine worker ▸ exclusive.agrees id
      refine .inr ⟨worker,exclusive.move ?_ (fun _ _ _ => rfl) (fun _ _ member => member) (fun _ _ alive => alive) others exclusive.room⟩
      refine {agrees with probe := ?_, held := ?_, single := fun _ => rfl}
      · intro alive
        change update world.probes id false id = true at alive
        rw [update_self] at alive
        cases alive
      · intro client
        rcases client with running | never
        · exact agrees.held (.inl running)
        · cases never
    · cases same
      cases permitted

theorem steps_exit {client : Client} (possible : ((),after) ∈ actEffect setting id role (.exit client) world) : Exclusive setting hands after := by
  cases client with
  | probe =>
    cases mem_singleton.mp possible
    refine exclusive.quiet rfl rfl (fun _ alive => alive) ?_
    intro other alive
    change update world.probes id false other = true at alive
    by_cases same : other = id
    · subst same
      rw [update_self] at alive
      cases alive
    · rw [update_of_ne same] at alive
      exact alive
  | command =>
    dsimp only [actEffect] at possible
    split at possible
    · rename_i alive
      cases mem_singleton.mp possible
      exact exclusive.live fun _ => alive
    · cases possible

theorem steps_act {act : Act} {answer : Answer act} (mine : phase.worker = true → hands id = phase)
    (allowed : phase.Allowed act) (possible : (answer,after) ∈ actEffect setting id role act world)
    (permitted : awaited task act world answer after = true) : Steps setting hands id phase (phase.advance act answer) after := by
  have waits {α : Type} {cancelled told : α} {others : List (α × World ν π κ δ)} (possible : (told,after) ∈ selectCancelled cancelled id world others)
      (quiet : (told,after) ∈ others → Exclusive setting hands after) : Exclusive setting hands after := by
    rcases mem_append.mp possible with other | interrupted
    · exact quiet other
    split at interrupted
    · cases mem_singleton.mp interrupted
      exact exclusive
    · cases interrupted
  cases act with
  | life act =>
    obtain ⟨⟨told,life⟩,taken,same⟩ := mem_map.mp possible
    cases same
    exact steps_life exclusive taken allowed mine permitted
  | workspaceLock =>
    refine .inl ⟨rfl,?_⟩
    have same := congrArg Prod.snd (mem_singleton.mp possible)
    rw [show after = (world.workspaceLock (setting.home id) (setting.lockKey id)).2 from same]
    unfold World.workspaceLock
    dsimp only
    split
    · exact exclusive.quiet rfl rfl (fun _ alive => alive) (fun _ alive => alive)
    · exact exclusive.quiet rfl rfl (fun _ alive => alive) (fun _ alive => alive)
  | lockMutex mutex =>
    refine .inl ⟨rfl,waits possible ?_⟩
    intro locked
    split at locked
    · cases locked
    · cases mem_singleton.mp locked
      exact exclusive.quiet rfl rfl (fun _ alive => alive) (fun _ alive => alive)
  | tryLock => exact steps_tryLock exclusive (mine allowed.1) allowed possible
  | sleep =>
    refine .inl ⟨rfl,waits possible ?_⟩
    intro slept
    cases mem_singleton.mp slept
    exact exclusive
  | acquireExecution => exact steps_acquireExecution exclusive (mine allowed.1) allowed possible
  | spawnProbe => exact steps_probe exclusive (.inl rfl) mine allowed possible permitted
  | awaitProbe => exact steps_probe exclusive (.inr rfl) mine allowed possible permitted
  | drop guard =>
    cases mem_singleton.mp possible
    exact steps_drop exclusive mine allowed
  | exit client => exact .inl ⟨rfl,steps_exit exclusive possible⟩
  | stall => cases possible

end

structure Excludes (setting : Setting ν π κ δ) (phases : Task ν → Phase) (world : World ν π κ δ) : Prop where
  worker : ∀ task, (phases task).worker = true → ∃ id, task = .life id .worker
  exclusive : Exclusive setting (fun id => phases (.life id .worker)) world

variable [DecidableEq ν] [DecidableEq π] [DecidableEq κ] [DecidableEq δ] {task : Task ν}

theorem excludes_step {phases : Task ν → Phase} {act : Act} {answer : Answer act} (excludes : Excludes setting phases world)
    (allowed : (phases task).Allowed act) (own : Own (effect setting) awaited task act world answer after) :
    Excludes setting (update phases task ((phases task).advance act answer)) after := by
  obtain ⟨possible,permitted⟩ := own
  obtain ⟨role,possible⟩ : ∃ role, (answer,after) ∈ actEffect setting task.id role act world := by
    cases task with
    | life id role => exact ⟨role,possible⟩
    | client id client => exact ⟨.fault,possible⟩
  have mine (worker : (phases task).worker = true) : phases (.life task.id .worker) = phases task := by
    obtain ⟨id,same⟩ := excludes.worker task worker
    rw [same]
    rfl
  constructor
  · intro other worker
    by_cases same : other = task
    · subst same
      rw [update_self,advance_worker] at worker
      exact excludes.worker other worker
    · rw [update_of_ne same] at worker
      exact excludes.worker other worker
  rcases steps_act excludes.exclusive mine allowed possible permitted with ⟨same,exclusive⟩ | ⟨worker,exclusive⟩
  · rw [same,update_eq_self]
    exact exclusive
  obtain ⟨id,isTask⟩ := excludes.worker task worker
  subst isTask
  have hands : (fun other => update phases (.life id .worker) ((phases (.life id .worker)).advance act answer) (.life other .worker)) =
      update (fun other => phases (.life other .worker)) id ((phases (.life id .worker)).advance act answer) := by
    funext other
    by_cases here : other = id
    · subst here
      rw [update_self,update_self]
    · rw [update_of_ne here,update_of_ne (fun same => here (Task.life.inj same).1)]
  rw [hands]
  exact exclusive

end Steps

/-! ### Runs -/

theorem recording_bystanding (act : Lifecycle.Act) (recording : Recording act) : Bystanding act := by
  cases act with
  | spawn | terminateChild | waitChild => cases recording
  | _ => simp [Bystanding]

theorem cancelling_bystanding (act : Lifecycle.Act) (cancelling : Cancelling act) : Bystanding act := by
  rcases cancelling with same | same | same | same
  all_goals
    subst same
    simp [Bystanding]

theorem uses_supervisor (deferred : Bool) : (supervisor deferred).Uses Bystanding := by
  apply uses_bind
  · simp [Bystanding]
  intro outcome
  apply uses_bind
  · cases outcome with
    | ok state => trivial
    | error error | panicked => exact (uses_materializeWorkerFailure deferred).mono recording_bystanding
  · intro _
    simp [Bystanding]

def startPhase : Task ν → Phase
  | .life _ .worker => {worker := true}
  | _ => {}

theorem follows_start (accepted : ν → Accepted) (task : Task ν) :
    Follows discipline ((start accepted : Config Act Answer (World ν π κ δ) (Task ν)).tasks task) (startPhase task) fun _ _ => True := by
  have plain {program : Lifecycle.Proc Unit} {phase : Phase} (uses : program.Uses Bystanding) :
      Follows discipline (program.expand fun act => perform (Act.life act)) phase fun _ _ => True :=
    (follows_plain uses).weaken fun _ _ _ => trivial
  cases task with
  | client id client => exact ⟨trivial,fun _ => trivial⟩
  | life id role =>
    cases role with
    | worker => exact follows_worker ⟨rfl,rfl,rfl,rfl,rfl⟩
    | supervisor => exact plain (uses_supervisor _)
    | shutdown =>
      apply plain
      apply uses_bind
      · simp [Bystanding]
      · intro _
        trivial
    | fault => exact plain trivial
    | canceller number =>
      apply plain
      apply uses_bind
      · exact (uses_cancelWithReason _).mono cancelling_bystanding
      · intro _
        trivial

section Runs
variable [DecidableEq ν] [DecidableEq π] [DecidableEq κ] [DecidableEq δ] (setting : Setting ν π κ δ) (accepted : ν → Accepted)

/-- Clients of one key are one client, and a server has no more of them than it has permits. -/
theorem one_client_per_key {config : Config Act Answer (World ν π κ δ) (Task ν)} (reached : Reach (effect setting) awaited (start accepted) config) :
    (∀ first second, config.state.Alive first → config.state.Alive second → setting.lockKey first.1 = setting.lockKey second.1 → first = second) ∧
    ∀ process (clients : List (ν × Client)), clients.Nodup → (∀ client ∈ clients, setting.home client.1 = process ∧ config.state.Alive client) →
      clients.length ≤ setting.globalConcurrency process := by
  have initial : Excludes setting startPhase (start accepted : Config Act Answer (World ν π κ δ) (Task ν)).state := by
    refine ⟨?_,?_,fun _ => Nat.zero_le _⟩
    · intro task worker
      unfold startPhase at worker
      split at worker
      · exact ⟨_,rfl⟩
      · cases worker
    intro id
    refine ⟨?_,?_,?_,?_,?_,fun _ => rfl⟩
    · intro never
      cases never
    · intro never
      cases never
    · intro never
      cases never
    · intro never
      cases never
    intro never
    rcases never with never | never
    · cases never
    · cases never
  have stepped (phases : Task ν → Phase) (world : World ν π κ δ) (task : Task ν) (act : Act) (answer : Answer act) (after : World ν π κ δ)
      (excludes : Excludes setting phases world) (allowed : discipline.allowed (phases task) act)
      (own : Own (effect setting) awaited task act world answer after) :
      Excludes setting (update phases task (discipline.advance (phases task) act answer)) after := excludes_step excludes allowed own
  obtain ⟨phases,_,excludes⟩ := reach stepped (follows_start accepted) initial reached
  have agrees := excludes.exclusive.agrees
  have held {client : ν × Client} (alive : config.state.Alive client) :
      config.state.files (setting.digest (setting.lockKey client.1)) = some client.1 ∧ client.1 ∈ config.state.executing (setting.home client.1) := by
    obtain ⟨id,kind⟩ := client
    have holds : (phases (.life id .worker)).file = true ∧ (phases (.life id .worker)).permit = true := by
      cases kind with
      | probe => exact (agrees id).held (.inr ((agrees id).probe alive))
      | command => exact (agrees id).held (.inl ((agrees id).command alive))
    exact ⟨(agrees id).file holds.1,(agrees id).permit holds.2⟩
  have apart {id : ν} (command : config.state.Alive (id,.command)) (probe : config.state.Alive (id,.probe)) : False := by
    have probing := (agrees id).probe probe
    rw [(agrees id).single ((agrees id).command command)] at probing
    cases probing
  have one (first second : ν × Client) (alive : config.state.Alive first) (also : config.state.Alive second)
      (key : setting.lockKey first.1 = setting.lockKey second.1) : first = second := by
    have holder := (held alive).1
    rw [key,(held also).1] at holder
    obtain ⟨id,kind⟩ := first
    obtain ⟨other,otherKind⟩ := second
    cases Option.some.inj holder
    cases kind with
    | probe =>
      cases otherKind with
      | probe => rfl
      | command => exact (apart also alive).elim
    | command =>
      cases otherKind with
      | probe => exact (apart alive also).elim
      | command => rfl
  refine ⟨one,?_⟩
  intro process clients distinct alive
  have ids : (clients.map Prod.fst).Nodup := by
    refine List.Nodup.map_on ?_ distinct
    intro first member second also same
    exact one first second (alive first member).2 (alive second also).2 (congrArg setting.lockKey same)
  have inside : clients.map Prod.fst ⊆ config.state.executing process := by
    intro id member
    obtain ⟨client,listed,same⟩ := mem_map.mp member
    subst same
    exact (alive client listed).1 ▸ (held (alive client listed).2).2
  calc clients.length = (clients.map Prod.fst).length := (length_map ..).symm
    _ ≤ (config.state.executing process).length := (subperm_of_subset ids inside).length_le
    _ ≤ setting.globalConcurrency process := excludes.exclusive.room process

end Runs

def oneKey : Setting (Fin 2) (Fin 2) Unit Unit where
  home := id
  lockKey _ := ()
  digest _ := ()
  globalConcurrency _ := 1

def firstProbes (id : Fin 2) : Accepted := {fifo := decide (id = 0)}

def working (id : Fin 2) (choices : List Nat) : List (Task (Fin 2) × Nat) := choices.map (.life id .worker,·)

theorem command_alive_alone : ∃ config : Config Act Answer (World (Fin 2) (Fin 2) Unit Unit) (Task (Fin 2)),
    Reach (effect oneKey) awaited (start firstProbes) config ∧ config.state.Alive (1,.command) ∧
    ∀ client, config.state.Alive client → client = (1,.command) := by
  have replayed : (replay (effect oneKey) awaited (start firstProbes) (working 1 [0,0,0,1,1,0,0,0,0,0,0,0])).any
      (fun config => decide ((config.state.lives 1).child = .alive)) = true := by decide
  obtain ⟨config,reached,checked⟩ := replay_exists replayed
  have isAlive : (config.state.lives 1).child = .alive := of_decide_eq_true checked
  have alive : config.state.Alive (1,.command) := isAlive
  exact ⟨config,reached,alive,fun client also => (one_client_per_key oneKey firstProbes reached).1 client (1,.command) also alive rfl⟩

/-- The first invocation is cancelled while it probes the server: its probe is killed but not waited for,
and the locks are free before it is gone. -/
theorem dropped_probe_beside_command : ∃ config : Config Act Answer (World (Fin 2) (Fin 2) Unit Unit) (Task (Fin 2)),
    Reach (effect oneKey) (fun _ _ _ _ _ => true) (start firstProbes) config ∧
    config.state.Alive (0,.probe) ∧ config.state.Alive (1,.command) ∧ oneKey.lockKey 0 = oneKey.lockKey 1 := by
  have replayed : (replay (effect oneKey) (fun _ _ _ _ _ => true) (start firstProbes)
      (working 0 [0,0,0,1,1,0,0,0,0,0] ++ [(.life 0 .shutdown,0)] ++ working 0 [1,0,0,0,0,0,0] ++ working 1 [0,0,0,1,1,0,0,0,0,0,0,0])).any
      (fun config => config.state.probes 0 && decide ((config.state.lives 1).child = .alive)) = true := by decide
  obtain ⟨config,reached,checked⟩ := replay_exists replayed
  simp only [Bool.and_eq_true,decide_eq_true_eq] at checked
  exact ⟨config,reached,checked.1,checked.2,rfl⟩

end BazelMcp.Clients

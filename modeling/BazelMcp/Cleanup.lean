import BazelMcp.Tasks
import BazelMcp.Types

/-! The temporary files of one live invocation while other processes open the
store. After a successful exit the invocation's process writes its evidence and
commits its record; an opening process lists the temporary files it finds,
removes them under the mutation lock and recovers the record if it can take the
owner lease. Every file-system call is one call of a task. -/
namespace BazelMcp.Cleanup
open Tasks

/-- The names that `temporary_files` looks for. -/
inductive Temporary where
  | manifest
  | details
  | artifacts
  | failureEvidence
  | failedTestLogs
  | failedTestEvidence
  deriving DecidableEq

/-- Files that the store writes under the mutation lock; the runner writes the
others without it. -/
def Temporary.stored : Temporary → Bool
  | .manifest | .details | .artifacts => true
  | .failureEvidence | .failedTestLogs | .failedTestEvidence => false

inductive Task where
  | invocation
  | opener (number : Nat)
  deriving DecidableEq

inductive Writer where
  | dead
  | live (task : Task)
  deriving DecidableEq

/-- `temporary` says which writer created a temporary file that is present, and
`published` which files a rename has put in place. -/
structure State where
  temporary : Temporary → Option Writer
  published : Temporary → Bool := fun _ => false
  record : InvocationState := .running
  mutation : Option Task := none
  owner : Option Task := some .invocation

inductive Act where
  | create (name : Temporary)
  /-- A rename of the manifest carries the state of the record it holds. -/
  | rename (name : Temporary) (record : Option InvocationState)
  | remove (name : Temporary)
  | unlink (name : Temporary)
  | present (name : Temporary)
  | snapshotExists (name : Temporary)
  | readManifest
  | tryLock
  | lock
  | unlock
  | tryOwner
  | releaseOwner
  deriving DecidableEq

@[reducible] def Answer : Act → Type
  | .create _ | .rename _ _ | .present _ | .snapshotExists _ | .tryLock | .tryOwner => Bool
  | .readManifest => InvocationState
  | .remove _ | .unlink _ | .lock | .unlock | .releaseOwner => Unit

/-- The file-system calls as they behave without faults: a creation fails on an
existing file and a rename on a missing one. Locks are advisory and exclusive. -/
def effect (task : Task) : (act : Act) → State → List (Answer act × State)
  | .create name, state =>
    if (state.temporary name).isSome then [(false,state)]
    else [(true,{state with temporary := Function.update state.temporary name (some (.live task))})]
  | .rename name record, state =>
    if (state.temporary name).isSome then
      [(true,{ state with
        temporary := Function.update state.temporary name none
        published := Function.update state.published name true
        record := record.getD state.record })]
    else [(false,state)]
  | .remove name, state => [((),{state with temporary := Function.update state.temporary name none})]
  | .unlink name, state => [((),{state with temporary := Function.update state.temporary name none})]
  | .present name, state => [((state.temporary name).isSome,state)]
  | .snapshotExists name, state => [(state.published name,state)]
  | .readManifest, state => [(state.record,state)]
  | .tryLock, state => if state.mutation = none then [(true,{state with mutation := some task})] else [(false,state)]
  | .lock, state => if state.mutation = none then [((),{state with mutation := some task})] else []
  | .unlock, state => [((),{state with mutation := none})]
  | .tryOwner, state => if state.owner = none then [(true,{state with owner := some task})] else [(false,state)]
  | .releaseOwner, state => [((),{state with owner := none})]

abbrev Proc := Program Act Answer

abbrev call (act : Act) : Proc (Answer act) := perform act

/-- `write_private_atomic` and `write_bytes_atomic`. -/
def writeAtomic (name : Temporary) (record : Option InvocationState) : Proc Bool := do
  if (← call (.create name) : Bool) then
    if (← call (.rename name record) : Bool) then return true
    else
      call (.remove name)
      return false
  else
    call (.remove name)
    return false

/-- What the evidence of the invocation consists of. `testLogs` is present if a
test did not pass, and says whether some log of it could be copied. The two test
files are created by joined futures, in either order. -/
structure Plan where
  persists : Bool
  testLogs : Option Bool
  evidenceFirst : Bool
  hasArtifacts : Bool
  hasDetails : Bool
  deriving DecidableEq

def dropTestLogs : Proc Unit := do
  call (.remove .failedTestLogs)
  call (.remove .failedTestEvidence)

def createTestLogs (evidenceFirst : Bool) : Proc Bool :=
  if evidenceFirst then do
    let evidence ← (call (.create .failedTestEvidence) : Proc Bool)
    let raw ← (call (.create .failedTestLogs) : Proc Bool)
    return raw && evidence
  else do
    let raw ← (call (.create .failedTestLogs) : Proc Bool)
    let evidence ← (call (.create .failedTestEvidence) : Proc Bool)
    return raw && evidence

def commitTestLogs (copied : Bool) : Proc Unit := do
  if copied then
    if (← call (.rename .failedTestLogs none) : Bool) then
      if (← call (.rename .failedTestEvidence none) : Bool) then return () else dropTestLogs
    else dropTestLogs
  else dropTestLogs

def enrichTests (plan : Plan) : Proc Unit :=
  match plan.testLogs with
  | none => return ()
  | some copied => do
    if (← call (.snapshotExists .failedTestLogs) : Bool) then return ()
    else if (← call (.snapshotExists .failedTestEvidence) : Bool) then return ()
    else if ← createTestLogs plan.evidenceFirst then commitTestLogs copied
    else dropTestLogs

def writeSidecars (plan : Plan) : Proc Bool := do
  let artifacts ← if plan.hasArtifacts then writeAtomic .artifacts none else pure true
  if artifacts then
    if plan.hasDetails then writeAtomic .details none else return true
  else return false

def commitLocked (plan : Plan) (next : InvocationState) : Proc Bool := do
  let current ← (call .readManifest : Proc InvocationState)
  if current.validateTransition next then
    if ← writeSidecars plan then
      if ← writeAtomic .manifest (some next) then
        call .releaseOwner
        return true
      else return false
    else return false
  else return false

def finishInvocation (plan : Plan) (next : InvocationState) : Proc Bool := do
  call .lock
  let committed ← commitLocked plan next
  call .unlock
  return committed

def recoverTerminalFailure (plan : Plan) : Proc Unit := do
  let current ← (call .readManifest : Proc InvocationState)
  if current.isTerminal then return () else discard (finishInvocation plan .failed)

/-- The live invocation after Bazel has exited with code zero. -/
def invocation (plan : Plan) : Proc Unit := do
  let captured ← if plan.persists then writeAtomic .failureEvidence none else pure true
  if captured then
    enrichTests plan
    if ← finishInvocation plan .succeeded then return () else recoverTerminalFailure plan
  else recoverTerminalFailure plan

def temporaryFiles : List Temporary → Proc (List Temporary)
  | [] => return []
  | name::rest => do
    let found ← (call (.present name) : Proc Bool)
    let others ← temporaryFiles rest
    return if found then name::others else others

def unlinkAll : List Temporary → Proc Unit
  | [] => return ()
  | name::rest => do
    call (.unlink name)
    unlinkAll rest

def cleanupTemporaryFiles (order : List Temporary) : Proc Unit := do
  let temporary ← temporaryFiles order
  if temporary.isEmpty then return ()
  else if (← call .tryLock : Bool) then
    unlinkAll temporary
    call .unlock
  else return ()

def interruptLocked : Proc Unit := do
  let current ← (call .readManifest : Proc InvocationState)
  if current.isTerminal then return ()
  else if ← writeAtomic .details none then discard (writeAtomic .manifest (some .interrupted))
  else return ()

def recoverInterrupted : Proc Unit := do
  if (← call .tryOwner : Bool) then
    call .lock
    interruptLocked
    call .unlock
    call .releaseOwner
  else return ()

/-- `Store::open` as it concerns this invocation; `order` is the order in which
its directory is read. -/
def openStore (order : List Temporary) : Proc Unit := do
  let indexed ← (call .readManifest : Proc InvocationState)
  cleanupTemporaryFiles order
  if indexed.isTerminal then return () else recoverInterrupted

/-- The invocation's client has just exited. Files of writers that are dead may
be left in its directory. -/
def start (plan : Plan) (orders : Nat → List Temporary) (leftover : Temporary → Bool) : Config Act Answer State Task where
  tasks
    | .invocation => invocation plan
    | .opener number => openStore (orders number)
  state := {temporary := fun name => if leftover name then some .dead else none}

/-- No call fails for another reason than a file that was removed. -/
def faultless (_ : Task) : (act : Act) → State → Answer act → State → Bool
  | .create _, _, created, _ => created
  | _, _, _, _ => true

/-- Nor does a cleanup unlink a file that the runner has created and not yet renamed. -/
def sparing (_ : Task) : (act : Act) → State → Answer act → State → Bool
  | .create _, _, created, _ => created
  | .unlink name, state, _, _ => name.stored || decide (state.temporary name ≠ some (.live .invocation))
  | _, _, _, _ => true

end BazelMcp.Cleanup

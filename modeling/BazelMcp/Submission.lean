import BazelMcp.CommandPolicy

/-! Accepting a request and assembling the command line of the direct Bazel
driver. The machine around one submission (cancellation, permits, executables,
version probe, store) is a parameter; every check the service makes itself is
spelled out in its order. -/
namespace BazelMcp.Submission
open Text CommandPolicy

inductive BepTransport where
  | tail
  | fifo
  | bes
  deriving DecidableEq

structure AspectConfig where
  executable : Option String := none
  commands : List String := []
  allowWorkspaceMutation : Bool := false
  deriving DecidableEq

def AspectConfig.routes (config : AspectConfig) (command : BazelCommand) : Bool := command.asStr ∈ config.commands

inductive ExecutionDriver where
  | bazel (executable : String)
  | aspect (executable bazelExecutable : String)
  deriving DecidableEq

def ExecutionDriver.isAspect : ExecutionDriver → Bool
  | .bazel _ => false
  | .aspect _ _ => true

def ExecutionDriver.commandClass (driver : ExecutionDriver) (command : BazelCommand) : CommandClass :=
  if driver.isAspect && command.asStr ∈ ["build","test","lint"] then .buildLike else command.commandClass

structure RunnerConfig where
  policy : PolicyConfig := {}
  aspect : AspectConfig := {}
  bepTransport : BepTransport := .tail
  maximumPendingInvocations : Nat := 256
  outputUserRoot : Option String := none
  isolatedBazelServerIdleSecs : Nat := 60
  deriving DecidableEq

inductive RunnerError where
  | policy (error : PolicyError)
  | store (message : String)
  | queueFull (maximum : Nat)
  | invalidConfiguration (message : String)
  | unsupportedBazelVersion (detected : Nat) (supported : List Nat)
  | versionCheck (message : String)
  | cancelledBeforeAcceptance
  | besBackendConflict
  | besUploadModeConflict
  deriving DecidableEq

/-- A rejected step, or a violated expectation that panics. -/
inductive LaunchError where
  | failed (error : RunnerError)
  | panicked (message : String)
  deriving DecidableEq

structure InvocationPaths where
  bep : String
  stdout : String
  stderr : String
  deriving DecidableEq

/-- What the surroundings answer while one submission is prepared. -/
structure Host where
  cancelledBefore : Bool
  cancelledAfter : Bool
  pendingPermit : Bool
  files : FileSystem
  resolveBazelExecutable : Path → Except PolicyError String
  resolveAspectExecutable : Option String → Except PolicyError String
  validateBazelVersion : String → Path → Except RunnerError Unit
  createInvocation : InvocationRecord → Bool → Except RunnerError InvocationPaths

structure PreparedSubmission where
  queued : InvocationRecord
  paths : InvocationPaths
  lockKey : Path
  explicitOutputBase : Option Path
  driver : ExecutionDriver
  deferred : Bool

def checked {α : Type} (result : Except PolicyError α) : Except RunnerError α := result.mapError .policy

def renderPath (path : Path) : String := "/" ++ "/".intercalate path

/-- The checks of `prepare_submission` that read nothing but the request. -/
def validateRequest (config : RunnerConfig) (request : InvocationRequest) : Except RunnerError Unit := do
  checked (validateCommand config.policy request.command)
  checked (validateArguments request.startupArguments)
  checked (validateArguments request.arguments)
  checked (validateRunArguments request.command request.arguments request.target request.programArguments)
  let usesAspect := config.aspect.routes request.command
  checked (if usesAspect then
      validateAspectArguments request.command request.arguments config.aspect.allowWorkspaceMutation
    else validateQueryArguments request.command request.arguments)
  reject (!usesAspect && config.bepTransport = .bes && request.arguments.any (isFlag · "--bes_backend"))
    .besBackendConflict
  reject (!usesAspect && config.bepTransport = .bes && request.arguments.any (isFlag · "--bes_upload_mode"))
    .besUploadModeConflict

def selectDriver (config : RunnerConfig) (host : Host) (request : InvocationRequest) (bazelExecutable : String) :
    Except RunnerError ExecutionDriver :=
  if config.aspect.routes request.command then
    (checked (host.resolveAspectExecutable config.aspect.executable)).map (.aspect · bazelExecutable)
  else .ok (.bazel bazelExecutable)

def prepareSubmission (config : RunnerConfig) (host : Host) (request : InvocationRequest) (deferred : Bool) :
    Except RunnerError PreparedSubmission := do
  reject host.cancelledBefore .cancelledBeforeAcceptance
  validateRequest config request
  reject (!host.pendingPermit) (.queueFull config.maximumPendingInvocations)
  let workspace ← checked (validateWorkspace host.files request.workspace config.policy.allowedRoots)
  let explicitOutputBase ← checked (effectiveOutputBase host.files workspace request.startupArguments)
  let lockKey := explicitOutputBase.getD workspace
  let bazelExecutable ← checked (host.resolveBazelExecutable workspace)
  host.validateBazelVersion bazelExecutable workspace
  let driver ← selectDriver config host request bazelExecutable
  reject host.cancelledAfter .cancelledBeforeAcceptance
  let queued : InvocationRecord := {request := {request with workspace := renderPath workspace}}
  let paths ← host.createInvocation queued deferred
  return ⟨queued,paths,lockKey,explicitOutputBase,driver,deferred⟩

def capturesBep (commandClass : CommandClass) : Bool :=
  match commandClass with
  | .buildLike | .run => true
  | _ => false

/-- Startup options the service itself puts first. -/
def ownStartupArguments (config : RunnerConfig) : List String :=
  match config.outputUserRoot with
  | some root => ["--output_user_root=" ++ root,"--max_idle_secs=" ++ toString config.isolatedBazelServerIdleSecs]
  | none => []

/-- Where the build events go; `output` is the event file or the FIFO before it. -/
def transportArguments (config : RunnerConfig) (endpoint : Option String) (output : String) :
    Except LaunchError (List String) :=
  match config.bepTransport with
  | .tail | .fifo =>
    .ok ["--build_event_binary_file=" ++ output,"--build_event_binary_file_path_conversion=false"]
  | .bes =>
    match endpoint with
    | none => .error (.failed (.invalidConfiguration "BES transport was not initialized"))
    | some endpoint => .ok ["--bes_backend=" ++ endpoint,"--bes_upload_mode=wait_for_upload_complete"]

def captureArguments (config : RunnerConfig) (endpoint : Option String) (output : String) (request : InvocationRequest) :
    Except LaunchError (List String) :=
  if !capturesBep request.command.commandClass then .ok []
  else do
    let transport ← transportArguments config endpoint output
    return ["--invocation_id=" ++ request.id] ++ transport ++
      ["--tool_tag=bazel-mcp","--color=no","--curses=no","--show_progress=false","--show_result=0"] ++
      (if request.command = .test ∨ request.command = .coverage then ["--test_output=errors","--test_summary=short"]
        else []) ++
      (if request.command = .run then
        ["--run=true","--omit_run_args=true","--noexperimental_run_bep_event_include_residue","--subcommands=false"]
        else [])

def programArguments (request : InvocationRequest) : Except LaunchError (List String) :=
  if request.command = .run then
    match request.target with
    | none => .error (.panicked "validated run target")
    | some target => .ok ([target,"--"] ++ request.programArguments)
  else .ok []

/-- Everything `start_execution` puts after the command of a direct Bazel run. -/
def commandArguments (config : RunnerConfig) (endpoint : Option String) (output : String) (request : InvocationRequest) :
    Except LaunchError (List String) := do
  let capture ← captureArguments config endpoint output request
  let program ← programArguments request
  return capture ++ request.arguments ++ program

/-- The arguments of the direct Bazel driver, in the order of `start_execution`. -/
def bazelArguments (config : RunnerConfig) (endpoint : Option String) (output : String) (request : InvocationRequest) :
    Except LaunchError (List String) := do
  let after ← commandArguments config endpoint output request
  return ownStartupArguments config ++ request.startupArguments ++ request.command.asStr :: after

def aspectCaptureArguments (endpoint : Option String) (request : InvocationRequest) : Except LaunchError (List String) :=
  match endpoint with
  | none => .error (.failed (.invalidConfiguration "Aspect capture BES was not initialized"))
  | some endpoint =>
    .ok ((["--invocation_id=" ++ request.id,"--tool_tag=bazel-mcp","--color=no","--curses=no","--show_progress=false",
        "--show_result=0"] ++
        (if request.command = .test ∨ request.command = .coverage then ["--test_output=errors","--test_summary=short"]
          else [])).map ("--bazel-flag=" ++ ·) ++
      ["--bes-backend=" ++ endpoint,"--bes-header=x-bazel-mcp-invocation-id=" ++ request.id])

def aspectArguments (config : RunnerConfig) (driver : ExecutionDriver) (endpoint : Option String)
    (request : InvocationRequest) : Except LaunchError (List String) := do
  let capture ← if driver.commandClass request.command = .buildLike then aspectCaptureArguments endpoint request
    else .ok []
  return ["--task:id=" ++ request.id,"--task:timing-summary=none",request.command.asStr] ++
    (ownStartupArguments config ++ request.startupArguments).map ("--bazel-startup-flag=" ++ ·) ++
    capture ++ request.arguments

def processArguments (config : RunnerConfig) (driver : ExecutionDriver) (endpoint : Option String) (output : String)
    (request : InvocationRequest) : Except LaunchError (List String) :=
  match driver with
  | .bazel _ => bazelArguments config endpoint output request
  | .aspect _ _ => aspectArguments config driver endpoint request

/-- How Bazel reads its command line: some startup options take the next token
as their value, and the command is the first token that is neither an option
nor such a value. An option written with `=` is a single token. -/
structure BazelGrammar where
  valued : String → Bool
  dashed : ∀ option, valued option = true → startsWith option "-" = true
  separate : ∀ option, valued option = true → '=' ∉ option.toList

/-- Where reading a list of startup tokens ends. -/
inductive Reading where
  | options
  | awaitingValue
  | command (name : String)
  deriving DecidableEq

namespace BazelGrammar
variable (grammar : BazelGrammar)

def read : List String → Reading
  | [] => .options
  | token::rest =>
    if !startsWith token "-" then .command token
    else if grammar.valued token then
      match rest with
      | [] => .awaitingValue
      | _::rest => read rest
    else read rest

def commandOf (line : List String) : Option String :=
  match grammar.read line with
  | .command name => some name
  | .options | .awaitingValue => none

variable {token : String}

theorem read_plain (plain : startsWith token "-" = false) (rest : List String) : grammar.read (token::rest) = .command token := by
  unfold read
  simp [plain]

theorem read_single (option : startsWith token "-" = true) (single : grammar.valued token = false)
    (rest : List String) : grammar.read (token::rest) = grammar.read rest := by
  rw [read.eq_def]
  simp [option,single]

theorem read_valued (option : startsWith token "-" = true) (valued : grammar.valued token = true)
    (value : String) (rest : List String) : grammar.read (token::value::rest) = grammar.read rest := by
  rw [read.eq_def]
  simp [option,valued]

theorem read_last (option : startsWith token "-" = true) (valued : grammar.valued token = true) :
    grammar.read [token] = .awaitingValue := by
  rw [read.eq_def]
  simp [option,valued]

theorem read_append (first second : List String) :
    grammar.read (first ++ second) =
      match grammar.read first with
      | .options => grammar.read second
      | .awaitingValue =>
        match second with
        | [] => .awaitingValue
        | _::rest => grammar.read rest
      | .command name => .command name := by
  induction first using read.induct grammar with
  | case1 => rfl
  | case2 token rest plain =>
    have command : startsWith token "-" = false := by simpa using plain
    rw [List.cons_append,grammar.read_plain command,grammar.read_plain command]
  | case3 token dashed valued =>
    have option : startsWith token "-" = true := by simpa using dashed
    rw [grammar.read_last option valued]
    cases second with
    | nil => rw [List.append_nil,grammar.read_last option valued]
    | cons value rest => rw [List.singleton_append,grammar.read_valued option valued]
  | case4 token dashed valued value rest ih =>
    have option : startsWith token "-" = true := by simpa using dashed
    rw [List.cons_append,List.cons_append,grammar.read_valued option valued,grammar.read_valued option valued,ih]
  | case5 token rest dashed single ih =>
    have option : startsWith token "-" = true := by simpa using dashed
    have alone : grammar.valued token = false := by simpa using single
    rw [List.cons_append,grammar.read_single option alone,grammar.read_single option alone,ih]

theorem read_command {line : List String} {name : String} (found : grammar.read line = .command name) :
    startsWith name "-" = false := by
  induction line using read.induct grammar with
  | case1 => simp [read] at found
  | case2 token rest plain =>
    have command : startsWith token "-" = false := by simpa using plain
    rw [grammar.read_plain command] at found
    cases found
    exact command
  | case3 token dashed valued =>
    rw [grammar.read_last (by simpa using dashed) valued] at found
    simp at found
  | case4 token dashed valued value rest ih =>
    rw [grammar.read_valued (by simpa using dashed) valued] at found
    exact ih found
  | case5 token rest dashed single ih =>
    rw [grammar.read_single (by simpa using dashed) (by simpa using single)] at found
    exact ih found

end BazelGrammar
/-- What a request has passed once its submission is prepared. -/
structure Accepted (config : RunnerConfig) (request : InvocationRequest) (prepared : PreparedSubmission) : Prop where
  command : validateCommand config.policy request.command = .ok ()
  startup : validateArguments request.startupArguments = .ok ()
  arguments : validateArguments request.arguments = .ok ()
  run : validateRunArguments request.command request.arguments request.target request.programArguments = .ok ()
  kept : ∃ workspace, prepared.queued.request = {request with workspace}
  driver : prepared.driver.isAspect = config.aspect.routes request.command

theorem checked_ok {α : Type} {result : Except PolicyError α} {value : α} (passed : checked result = .ok value) :
    result = .ok value := by
  cases result with
  | error error => cases passed
  | ok other =>
    cases passed
    rfl

variable {config : RunnerConfig} {request : InvocationRequest} {driver : ExecutionDriver}

theorem validateRequest_ok (valid : validateRequest config request = .ok ()) :
    validateCommand config.policy request.command = .ok () ∧
      validateArguments request.startupArguments = .ok () ∧ validateArguments request.arguments = .ok () ∧
      validateRunArguments request.command request.arguments request.target request.programArguments = .ok () := by
  unfold validateRequest at valid
  obtain ⟨_,command,valid⟩ := bind_ok valid
  obtain ⟨_,startup,valid⟩ := bind_ok valid
  obtain ⟨_,arguments,valid⟩ := bind_ok valid
  obtain ⟨_,run,_⟩ := bind_ok valid
  exact ⟨checked_ok command,checked_ok startup,checked_ok arguments,checked_ok run⟩

theorem selectDriver_ok {host : Host} {executable : String}
    (selected : selectDriver config host request executable = .ok driver) :
    driver.isAspect = config.aspect.routes request.command := by
  unfold selectDriver at selected
  split at selected
  · rename_i routed
    cases resolved : checked (host.resolveAspectExecutable config.aspect.executable) with
    | error error => simp [resolved,Except.map] at selected
    | ok aspect =>
      simp only [resolved,Except.map,Except.ok.injEq] at selected
      rw [← selected,routed]
      rfl
  · rename_i direct
    cases selected
    simp [ExecutionDriver.isAspect,direct]

theorem prepareSubmission_accepted {host : Host} {deferred : Bool} {prepared : PreparedSubmission}
    (accepted : prepareSubmission config host request deferred = .ok prepared) : Accepted config request prepared := by
  unfold prepareSubmission at accepted
  obtain ⟨_,_,accepted⟩ := bind_ok accepted
  obtain ⟨_,valid,accepted⟩ := bind_ok accepted
  obtain ⟨_,_,accepted⟩ := bind_ok accepted
  obtain ⟨workspace,_,accepted⟩ := bind_ok accepted
  obtain ⟨base,_,accepted⟩ := bind_ok accepted
  obtain ⟨executable,_,accepted⟩ := bind_ok accepted
  obtain ⟨_,_,accepted⟩ := bind_ok accepted
  obtain ⟨driver,selected,accepted⟩ := bind_ok accepted
  obtain ⟨_,_,accepted⟩ := bind_ok accepted
  obtain ⟨paths,_,accepted⟩ := bind_ok accepted
  obtain ⟨command,startup,arguments,run⟩ := validateRequest_ok valid
  cases accepted
  exact ⟨command,startup,arguments,run,⟨renderPath workspace,rfl⟩,selectDriver_ok selected⟩

theorem bazelArguments_of_direct {endpoint : Option String}
    {output : String} {line : List String} (direct : driver.isAspect = false)
    (assembled : processArguments config driver endpoint output request = .ok line) :
    ∃ after, commandArguments config endpoint output request = .ok after ∧
      line = ownStartupArguments config ++ request.startupArguments ++ request.command.asStr::after := by
  cases driver with
  | aspect executable bazelExecutable => cases direct
  | bazel executable =>
    unfold processArguments bazelArguments at assembled
    obtain ⟨after,options,rest⟩ := bind_ok assembled
    cases rest
    exact ⟨after,options,rfl⟩

section CommandLine
variable (grammar : BazelGrammar)

theorem valued_without_equals {option value : String} (dash : startsWith (option ++ "=" ++ value) "-" = true)
    (rest : List String) : grammar.read ((option ++ "=" ++ value)::rest) = grammar.read rest := by
  apply grammar.read_single dash
  cases valued : grammar.valued (option ++ "=" ++ value) with
  | false => rfl
  | true =>
    have absent := grammar.separate _ valued
    simp [String.toList_append] at absent

theorem read_ownStartupArguments (config : RunnerConfig) (line : List String) :
    grammar.read (ownStartupArguments config ++ line) = grammar.read line := by
  unfold ownStartupArguments
  split
  · rename_i root _
    have user : "--output_user_root=" ++ root = "--output_user_root" ++ "=" ++ root := rfl
    have idle (seconds : String) : "--max_idle_secs=" ++ seconds = "--max_idle_secs" ++ "=" ++ seconds := rfl
    rw [user,idle]
    simp only [List.cons_append,List.nil_append]
    rw [valued_without_equals grammar (by simp [startsWith,String.toList_append])]
    rw [valued_without_equals grammar (by simp [startsWith,String.toList_append])]
  · rfl

/-- The startup arguments leave the command in its place: they end between two
options and the command is no option, or they name the very same command, or
they swallow it and what follows the command names it once more. -/
def KeepsCommand (request : InvocationRequest) (after : List String) : Prop :=
  match grammar.read request.startupArguments with
  | .options => startsWith request.command.asStr "-" = false
  | .awaitingValue => grammar.commandOf after = some request.command.asStr
  | .command name => name = request.command.asStr

theorem commandOf_line_iff (config : RunnerConfig) (request : InvocationRequest) (after : List String) :
    grammar.commandOf (ownStartupArguments config ++ request.startupArguments ++ request.command.asStr::after) =
        some request.command.asStr ↔ KeepsCommand grammar request after := by
  rw [BazelGrammar.commandOf,List.append_assoc,read_ownStartupArguments,grammar.read_append,KeepsCommand]
  cases grammar.read request.startupArguments with
  | options =>
    cases dash : startsWith request.command.asStr "-" with
    | false => simp [grammar.read_plain dash]
    | true =>
      simp only [Bool.true_eq_false,iff_false]
      intro found
      split at found
      · rename_i name read
        cases Option.some.inj found
        rw [grammar.read_command read] at dash
        exact Bool.false_ne_true dash
      · cases found
      · cases found
  | awaitingValue => exact Iff.rfl
  | command name => simp

/-- Bazel runs the validated command and none the policy forbids. -/
def RunsValidated (policy : PolicyConfig) (command : BazelCommand) (line : List String) : Prop :=
  grammar.commandOf line = some command.asStr ∧
    ∀ name, grammar.commandOf line = some name → name ∈ policy.allowedCommands ∧ name ∉ policy.deniedCommands

theorem validateCommand_ok {policy : PolicyConfig} {command : BazelCommand} (valid : validateCommand policy command = .ok ()) :
    command.asStr ∈ policy.allowedCommands ∧ command.asStr ∉ policy.deniedCommands := by
  unfold validateCommand at valid
  split at valid
  · cases valid
  rename_i granted
  split at valid
  · cases valid
  · rename_i listed
    exact ⟨by simpa using listed,granted⟩

/-- For every accepted request of the direct driver, the assembled line makes
Bazel run the validated command exactly when the startup arguments keep it. -/
theorem accepted_runs_validated_iff {config : RunnerConfig} {host : Host} {request : InvocationRequest}
    {deferred : Bool} {prepared : PreparedSubmission} {endpoint : Option String} {output : String} {line : List String}
    (accepted : prepareSubmission config host request deferred = .ok prepared) (direct : prepared.driver.isAspect = false)
    (assembled : processArguments config prepared.driver endpoint output prepared.queued.request = .ok line) :
    ∃ after, commandArguments config endpoint output prepared.queued.request = .ok after ∧
      (RunsValidated grammar config.policy request.command line ↔ KeepsCommand grammar request after) := by
  have passed := prepareSubmission_accepted accepted
  obtain ⟨workspace,same⟩ := passed.kept
  obtain ⟨after,options,rest⟩ := bazelArguments_of_direct direct assembled
  refine ⟨after,options,?_⟩
  have located := commandOf_line_iff grammar config prepared.queued.request after
  rw [← rest,same] at located
  constructor
  · intro runs
    exact located.mp runs.1
  intro keeps
  refine ⟨located.mpr keeps,?_⟩
  intro name found
  cases Option.some.inj (found.symm.trans (located.mpr keeps))
  exact validateCommand_ok passed.command

end CommandLine

section StartupCommand

def plainGrammar : BazelGrammar where
  valued option := option = "--output_base"
  dashed option valued := by
    rw [decide_eq_true_iff] at valued
    rw [valued]
    decide
  separate option valued := by
    rw [decide_eq_true_iff] at valued
    rw [valued]
    decide

def plainHost : Host where
  cancelledBefore := false
  cancelledAfter := false
  pendingPermit := true
  files := ⟨fun _ => .present,.ok,fun path => path = ["repo","MODULE.bazel"]⟩
  resolveBazelExecutable _ := .ok "/usr/bin/bazel"
  resolveAspectExecutable _ := .ok "/usr/bin/aspect"
  validateBazelVersion _ _ := .ok ()
  createInvocation _ _ := .ok ⟨"/cache/events.bep","/cache/stdout","/cache/stderr"⟩

def buildRequest (startupArguments : List String) : InvocationRequest :=
  {id := "00000000-0000-7000-8000-000000000000", workspace := "/repo", startupArguments, command := .build,
    arguments := ["//..."]}

def prepareBuild (startupArguments : List String) : PreparedSubmission where
  queued := {request := buildRequest startupArguments}
  paths := ⟨"/cache/events.bep","/cache/stdout","/cache/stderr"⟩
  lockKey := ["repo"]
  explicitOutputBase := none
  driver := .bazel "/usr/bin/bazel"
  deferred := false

/-- A build request with the startup argument `shutdown` is accepted, and Bazel
runs the denied command `shutdown`. -/
theorem startup_shutdown_runs :
    prepareSubmission {} plainHost (buildRequest ["shutdown"]) false = .ok (prepareBuild ["shutdown"]) ∧
      ∃ line, processArguments {} (.bazel "/usr/bin/bazel") none "/cache/events.bep" (buildRequest ["shutdown"]) = .ok line ∧
        plainGrammar.commandOf line = some "shutdown" ∧ "shutdown" ∈ ({} : PolicyConfig).deniedCommands ∧
        ¬ RunsValidated plainGrammar {} .build line := by
  refine ⟨rfl,_,rfl,rfl,by decide,?_⟩
  intro validated
  have listed := validated.2 "shutdown" rfl
  exact absurd listed.1 (by decide)

theorem startup_option_runs_build :
    ∃ line, processArguments {} (.bazel "/usr/bin/bazel") none "/cache/events.bep" (buildRequest ["--nohome_rc"]) = .ok line ∧
      RunsValidated plainGrammar {} .build line := by
  refine ⟨_,rfl,?_⟩
  have accepted : prepareSubmission {} plainHost (buildRequest ["--nohome_rc"]) false = .ok (prepareBuild ["--nohome_rc"]) := rfl
  obtain ⟨after,_,same⟩ := accepted_runs_validated_iff plainGrammar accepted rfl
    (show processArguments {} _ none "/cache/events.bep" _ = .ok _ from rfl)
  exact same.mpr rfl

end StartupCommand
end BazelMcp.Submission

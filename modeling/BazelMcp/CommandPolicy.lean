import BazelMcp.Text
import BazelMcp.Types
import BazelMcp.Utf8

/-! The policy crate: which commands are allowed, what an argument list may
hold, which workspace a request may name and which output base it selects. The
file system is a parameter: resolving a path is one of its answers. -/
namespace BazelMcp.CommandPolicy
open Text Utf8

/-- The components of a path below the root; `..` may still be among them. -/
abbrev Path := List String

inductive PolicyError where
  | workspaceNotAbsolute (path : String)
  | workspaceNotAllowed (path : Path)
  | notBazelWorkspace (path : Path)
  | commandDenied (command : String)
  | commandUnsupported (command : String)
  | reservedFlag (flag : String)
  | invalidArgument
  | runTargetRequired
  | invalidRunTarget
  | runArgumentsMustBeFlags
  | runFieldsOnNonRunCommand
  | argumentTooLong (maximumBytes : Nat)
  | tooManyArguments (maximumCount : Nat)
  | argumentsTooLarge (maximumBytes : Nat)
  | incompatibleQueryOutput (format : String)
  | missingOutputBaseValue
  | repeatedOutputBase
  | executableNotFound (path : Path)
  | aspectExecutableNotFound (path : String)
  | aspectReservedArgument (argument : String)
  | aspectWorkspaceMutationDenied
  | io (message : String)
  deriving DecidableEq

structure PolicyConfig where
  allowedRoots : List String := []
  allowedCommands : List String :=
    ["aquery","build","coverage","cquery","help","info","mod","query","test","version"]
  deniedCommands : List String := ["clean","fetch","mobile-install","run","shutdown","sync"]
  deriving DecidableEq

def reject {ε : Type} (condition : Bool) (error : ε) : Except ε Unit := if condition then .error error else .ok ()

theorem bind_ok {ε α β : Type} {first : Except ε α} {next : α → Except ε β} {result : β}
    (ran : first >>= next = .ok result) : ∃ value, first = .ok value ∧ next value = .ok result := by
  cases first with
  | error error => cases ran
  | ok value => exact ⟨value,rfl,ran⟩

def validateCommand (config : PolicyConfig) (command : BazelCommand) : Except PolicyError Unit :=
  if command.asStr ∈ config.deniedCommands then .error (.commandDenied command.asStr)
  else if command.asStr ∉ config.allowedCommands then .error (.commandUnsupported command.asStr)
  else .ok ()

def maxArgumentBytes : Nat := 64*1024
def maxArgumentCount : Nat := 10000
def maxArgumentsBytes : Nat := 2*1024*1024

def reservedFlags : List String :=
  ["--build_event_binary_file",
    "--build_event_binary_file_path_conversion",
    "--build_event_publish_all_actions",
    "--build_event_json_file",
    "--build_event_text_file",
    "--color",
    "--curses",
    "--invocation_id",
    "--show_progress",
    "--show_result",
    "--subcommands",
    "--nosubcommands",
    "-s",
    "--run",
    "--norun",
    "--script_path",
    "--omit_run_args",
    "--noomit_run_args",
    "--experimental_run_bep_event_include_residue",
    "--noexperimental_run_bep_event_include_residue",
    "--run_under",
    "--run_env",
    "--test_output",
    "--test_summary",
    "--tool_tag"]

def isFlag (argument flag : String) : Bool := argument = flag || startsWith argument (flag ++ "=")

/-- The checks of one argument, with the bytes of the arguments before it. -/
def shapeLoop : Nat → List String → Except PolicyError Unit
  | _, [] => .ok ()
  | total, argument::rest =>
    if '\x00' ∈ argument.toList then .error .invalidArgument
    else if byteLen argument.toList > maxArgumentBytes then .error (.argumentTooLong maxArgumentBytes)
    else
      let total := min (total + byteLen argument.toList) usizeMax
      if total > maxArgumentsBytes then .error (.argumentsTooLarge maxArgumentsBytes)
      else shapeLoop total rest

def validateArgumentShape (arguments : List String) : Except PolicyError Unit :=
  if arguments.length > maxArgumentCount then .error (.tooManyArguments maxArgumentCount)
  else shapeLoop 0 arguments

/-- The first reserved flag an argument spells, alone or with a value. -/
def reservedFlag (argument : String) : Option String := reservedFlags.find? (isFlag argument)

def reservedLoop : List String → Except PolicyError Unit
  | [] => .ok ()
  | argument::rest =>
    match reservedFlag argument with
    | some flag => .error (.reservedFlag flag)
    | none => reservedLoop rest

def validateArguments (arguments : List String) : Except PolicyError Unit := do
  validateArgumentShape arguments
  reservedLoop arguments

/-- The checks the Aspect driver makes of one argument, in the source's order. -/
def validateAspectArgument (command : BazelCommand) (allowWorkspaceMutation : Bool) (argument : String) :
    Except PolicyError Unit := do
  reject (["--task:id","--task:timing-summary"].any (isFlag argument)) (.aspectReservedArgument argument)
  reject (isFlag argument "--bazel-startup-flag")
    (.aspectReservedArgument "--bazel-startup-flag (use startup_arguments instead)")
  reject (argument = "--bazel-flag") (.aspectReservedArgument "--bazel-flag requires the --bazel-flag=... form")
  match stripStart argument "--bazel-flag=" with
  | some nested =>
    match reservedFlag nested with
    | some flag => .error (.reservedFlag flag)
    | none => reject (["--bes_backend","--bes_upload_mode"].any (isFlag nested)) (.aspectReservedArgument nested)
  | none => .ok ()
  reject (argument = "--bes-header") (.aspectReservedArgument "--bes-header requires the --bes-header=... form")
  match stripStart argument "--bes-header=" with
  | some header =>
    reject (eqIgnoreAsciiCase (before '=' header) "x-bazel-mcp-invocation-id")
      (.aspectReservedArgument "--bes-header=x-bazel-mcp-invocation-id=...")
  | none => .ok ()
  reject (command.asStr = "lint" && !allowWorkspaceMutation && isFlag argument "--fix") .aspectWorkspaceMutationDenied

def validateAspectArguments (command : BazelCommand) (arguments : List String) (allowWorkspaceMutation : Bool) :
    Except PolicyError Unit :=
  arguments.forM (validateAspectArgument command allowWorkspaceMutation)

/-- The Unix branch of the checks of the fields only `bazel run` has. -/
def validateRunArguments (command : BazelCommand) (arguments : List String) (target : Option String)
    (programArguments : List String) : Except PolicyError Unit :=
  if command ≠ .run then
    if target.isSome || programArguments ≠ [] then .error .runFieldsOnNonRunCommand else .ok ()
  else
    match target.filter (fun target => !isBlank target) with
    | none => .error .runTargetRequired
    | some target => do
      validateArgumentShape [target]
      reject (startsWith target "-" || target = "--") .invalidRunTarget
      reject (arguments.any fun argument => argument = "--" || !startsWith argument "-") .runArgumentsMustBeFlags
      validateArgumentShape programArguments

def isProtoOutput (output : String) : Bool :=
  output ∈ ["proto","streamed_proto","jsonproto","streamed_jsonproto"]

def queryOutputLoop : List String → Except PolicyError Unit
  | [] => .ok ()
  | argument::rest =>
    if argument = "--output" then
      match rest with
      | [] => .ok ()
      | output::rest =>
        if isProtoOutput output then .error (.incompatibleQueryOutput output) else queryOutputLoop rest
    else
      match stripStart argument "--output=" with
      | some output =>
        if isProtoOutput output then .error (.incompatibleQueryOutput output) else queryOutputLoop rest
      | none => queryOutputLoop rest

def validateQueryArguments (command : BazelCommand) (arguments : List String) : Except PolicyError Unit :=
  if command.commandClass ≠ .query then .ok () else queryOutputLoop arguments

inductive Metadata where
  | present
  | notFound
  | failed (message : String)

/-- The file system's answers to the calls the policy makes. -/
structure FileSystem where
  symlinkMetadata : Path → Metadata
  canonicalize : Path → Except String Path
  isFile : Path → Bool

section FileSystem
variable (files : FileSystem)

def isAbsolute (path : String) : Bool := startsWith path "/"

/-- `Path::components` without the root: empty and `.` components disappear. -/
def components (path : String) : Path :=
  ((path.toList.splitOn '/').map String.ofList).filter (fun component => component ≠ "" && component ≠ ".")

def workspaceMarkers : List String := ["MODULE.bazel","WORKSPACE.bazel","WORKSPACE"]

def canonicalizeIo (path : Path) : Except PolicyError Path := (files.canonicalize path).mapError .io

def insideRoot (canonical : Path) (root : String) : Bool :=
  match files.canonicalize (components root) with
  | .ok root => root.isPrefixOf canonical
  | .error _ => false

def validateWorkspace (workspace : String) (allowedRoots : List String) : Except PolicyError Path := do
  reject (!isAbsolute workspace) (.workspaceNotAbsolute workspace)
  let canonical ← canonicalizeIo files (components workspace)
  reject (allowedRoots ≠ [] && !allowedRoots.any (insideRoot files canonical)) (.workspaceNotAllowed canonical)
  reject (!workspaceMarkers.any fun marker => files.isFile (canonical ++ [marker])) (.notBazelWorkspace canonical)
  return canonical

def normalizeAbsolute (path : Path) : Path :=
  path.foldl (fun normalized component => if component = ".." then normalized.dropLast else normalized ++ [component]) []

/-- Climbs from the innermost component, given first, to an existing ancestor. -/
def existingAncestor : Path → Path → Except PolicyError Path
  | [], missing =>
    match files.symlinkMetadata [] with
    | .present => (canonicalizeIo files []).map (· ++ missing)
    | .notFound => .error (.io "output base has no existing ancestor")
    | .failed message => .error (.io message)
  | name::parents, missing =>
    match files.symlinkMetadata (name::parents).reverse with
    | .present => (canonicalizeIo files (name::parents).reverse).map (· ++ missing)
    | .notFound => existingAncestor parents (name::missing)
    | .failed message => .error (.io message)

def canonicalizeWithMissingTail (path : Path) : Except PolicyError Path :=
  existingAncestor files (normalizeAbsolute path).reverse []

def selectOutputBase (workspace : Path) (selected : Option Path) (value : String) : Except PolicyError Path :=
  if selected.isSome then .error .repeatedOutputBase
  else canonicalizeWithMissingTail files
    (if isAbsolute value then components value else workspace ++ components value)

def outputBaseLoop (workspace : Path) : Option Path → List String → Except PolicyError (Option Path)
  | selected, [] => .ok selected
  | selected, argument::rest =>
    if argument = "--output_base" then
      match rest with
      | [] => .error .missingOutputBaseValue
      | value::rest => do
        let path ← selectOutputBase files workspace selected value
        outputBaseLoop workspace (some path) rest
    else
      match stripStart argument "--output_base=" with
      | some value => do
        let path ← selectOutputBase files workspace selected value
        outputBaseLoop workspace (some path) rest
      | none => outputBaseLoop workspace selected rest

def effectiveOutputBase (workspace : Path) (startupArguments : List String) : Except PolicyError (Option Path) :=
  outputBaseLoop files workspace none startupArguments

end FileSystem
end BazelMcp.CommandPolicy

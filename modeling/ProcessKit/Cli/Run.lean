import ProcessKit.Cli.Configure

/-!
# The subcommand `run`

`_run` checks the options against each other, builds the command, and starts it in a group
that it leaves whatever happens. What the child did becomes the code that it returns.
-/

namespace ProcessKit.Cli

open Effects
open Python (PyStr)
open ProcessKit.Runtime (PyErr PyResult)
open ProcessKit.Command (F64 PathBuf PkCall PkSetting PyCommand Raised Stream StdioMode Tells applyAll
  last)
open ProcessKit.Pickle (PkOutcome)

-- ---------------------------------------------------------------------------
-- The options
-- ---------------------------------------------------------------------------

/-- `PROFILE_STDERR_MARKER`, or the path. -/
inductive ProfileTarget
  | stderr
  | file (path : PathBuf)
  deriving DecidableEq

/-- The parsed options. An env file comes with what reading it gives. -/
structure RunArgs where
  timeout : Option F64
  timeoutGrace : Option F64
  idleTimeout : Option F64
  limits : Limits
  envClear : Bool
  inheritEnv : List PyStr
  env : List PyStr
  envFile : List (PyStr × PyResult (List UInt8))
  cwd : Option PyStr
  profile : Option ProfileTarget
  createNoWindow : Bool
  outputLimit : Option ℕ+
  sanitizeVt : Bool
  stdoutFile : Option PathBuf
  stderrFile : Option PathBuf
  killOnParentDeath : Bool
  priority : Option String
  ioPriority : Option (String × Option Runtime.PyObject)
  cpuAffinity : Option (List Nat)
  pty : Bool
  ptyCols : Option ℕ+
  ptyRows : Option ℕ+

namespace RunArgs

/-- The checks of `_run`, in their order, with what is wrong. -/
def checks (args : RunArgs) : List (Bool × String) :=
  [(args.timeoutGrace.isSome && args.timeout.isNone, "--timeout-grace requires --timeout"),
    (args.idleTimeout.isSome && args.profile.isSome,
      "--idle-timeout cannot be combined with --profile"),
    (args.outputLimit.isSome && args.profile.isSome,
      "--output-limit cannot be combined with --profile"),
    (args.sanitizeVt && args.profile.isSome, "--sanitize-vt cannot be combined with --profile"),
    (args.outputLimit.isSome && args.stdoutFile.isSome,
      "--output-limit cannot be combined with --stdout-file"),
    (args.sanitizeVt && args.stdoutFile.isSome,
      "--sanitize-vt cannot be combined with --stdout-file"),
    (args.idleTimeout.isSome && args.stdoutFile.isSome,
      "--idle-timeout cannot be combined with --stdout-file"),
    ((args.ptyCols.isSome || args.ptyRows.isSome) && !args.pty,
      "--pty-cols/--pty-rows requires --pty"),
    (args.ptyCols.isNone != args.ptyRows.isNone,
      "--pty-cols and --pty-rows must be provided together"),
    (args.pty && args.profile.isSome, "--pty cannot be combined with --profile"),
    (args.pty && (args.stdoutFile.isSome || args.stderrFile.isSome),
      "--pty cannot be combined with --stdout-file/--stderr-file")]

def firstError (args : RunArgs) : Option String := (args.checks.find? (·.1)).map (·.2)

def streaming (args : RunArgs) : Bool :=
  args.idleTimeout.isSome || args.outputLimit.isSome || args.sanitizeVt || args.pty

end RunArgs

-- ---------------------------------------------------------------------------
-- The command
-- ---------------------------------------------------------------------------

def converting (args : PyResult α) (call : α → Command.Call) : Command.Call :=
  match args with
  | .ok args => call args
  | .error err => .rewrapped (.error err)

def ptyCall (cols rows : Option ℕ+) : Command.Call :=
  converting (do
    let cols ← cols.mapM fun n => u16 n
    let rows ← rows.mapM fun n => u16 n
    return (cols, rows)) fun size => .pty size.1 size.2

variable (host : Host) (args : RunArgs)

/-- The builder calls on the terminal and the three streams, which come first. -/
def RunArgs.streamCalls : List Command.Call :=
  [if args.pty then ptyCall args.ptyCols args.ptyRows else .inheritStdin] ++
    (if args.streaming then args.idleTimeout.toList.map .idleTimeout
      else [.stdout "inherit"]) ++
    args.stdoutFile.toList.map (.stdoutFile · false) ++
    match args.stderrFile with
    | some path => [.stderrFile path false]
    | none => if args.streaming then [] else [.stderr "inherit"]

def RunArgs.settingCalls : List Command.Call :=
  args.outputLimit.toList.map (fun n => converting (host.usize n) fun bytes =>
      .outputLimit host.convert (some bytes) none "error") ++
    (if args.sanitizeVt then [.sanitizeVt] else []) ++
    (if args.createNoWindow then [.createNoWindow] else []) ++
    (if args.killOnParentDeath then [.killOnParentDeath] else []) ++
    args.priority.toList.map (.priority host.convert) ++
    args.ioPriority.toList.map (fun io => .ioPriority host.convert io.1 io.2) ++
    args.cpuAffinity.toList.map fun cpus =>
      converting (cpus.mapM host.usize) Command.Call.cpuAffinity

def RunArgs.timeoutCalls : List Command.Call :=
  match args.timeout with
  | none => []
  | some seconds => .timeout host.convert seconds ::
      args.timeoutGrace.toList.map (.timeoutGrace host.convert)

def buildCommand (pairs : List Pair) (program : PathBuf) (rest : List PathBuf) :
    Except Raised PyCommand := do
  let command ← applyAll host.convert (args.streamCalls ++ args.settingCalls host)
    (.new program (some rest))
  let command ← (applyEnvironment (commandBuilder host) command args.envClear args.inheritEnv pairs
    args.cwd).mapError .argument
  applyAll host.convert (args.timeoutCalls host) command

-- ---------------------------------------------------------------------------
-- The run
-- ---------------------------------------------------------------------------

inductive Flow (α : Type)
  | returned (code : Int)
  | next (value : α)

def giveUp (message : String) (code : Int) : Wrapper (Option Int) :=
  .bind (Wrapper.fail message) fun _ => .ret (some code)

def fallbackGroup : Wrapper (Option Int) :=
  .tryCatch (.bind (Wrapper.group .none) fun _ => .ret none) fun exc2 =>
    if exc2.isRefusal then
      some (giveUp s!"containment is unavailable in this environment: {exc2.text}"
        exitInternalError)
    else if exc2.isOsError then
      some (giveUp s!"could not initialize containment in this environment: {exc2.text}"
        exitInternalError)
    else none

def uncapped (exc : Exc) : Wrapper (Option Int) := do
  match ← fallbackGroup with
  | some code => return some code
  | none =>
    Wrapper.fail (s!"requested resource limits are not supported in this environment " ++
      s!"({exc.text}); running contained, but uncapped.")
    return none

/-- The group: `some` is the code of a run that ends here. -/
def makeGroup : Wrapper (Option Int) :=
  .tryCatch (.bind (Wrapper.group args.limits) fun _ => .ret none) fun exc =>
    if exc.isRefusal then
      some (if args.limits.requested then uncapped exc
        else giveUp s!"containment is unavailable in this environment: {exc.text}"
          exitInternalError)
    else if exc.isOsError then
      some (giveUp s!"could not initialize containment in this environment: {exc.text}"
        exitInternalError)
    else none

def emitLines : List OutputEvent → Wrapper Unit
  | [] => .ret ()
  | event :: lines => do
    Wrapper.emit (if event.isStderr then .stderr else .stdout) event.text
    emitLines lines

/-- `asyncio.run(_drive_streaming(proc))`. -/
def driveStreaming : Wrapper PkOutcome :=
  .tryFinally (do
    let events ← Wrapper.outputEvents
    emitLines events.lines
    match events.raises with
    | some exc => .raise exc
    | none => Wrapper.finish) Wrapper.closeLoop

def profileSampleInterval : F64 := 0x3FB999999999999A

/-- `group.start`: `some` is the code of a run that ends here. -/
def startChild (program : PathBuf) (command : PyCommand) : Wrapper (Option Int) :=
  .tryCatch (.bind (Wrapper.start command) fun _ => .ret none) fun
    | .process .processNotFound _ =>
      some (giveUp s!"{host.repr program}: command not found" exitNotFound)
    | .process .permissionDenied _ =>
      some (giveUp s!"{host.repr program}: permission denied" exitNotExecutable)
    | .process .resourceLimit text | .process .unsupported text =>
      some (giveUp s!"could not start {host.repr program}: {text}" exitInternalError)
    | _ => none

def watchChild (program : PathBuf) : Wrapper (Flow (PkOutcome × Option RunProfile)) :=
  if args.streaming then
    .tryCatch (.bind driveStreaming fun outcome => .ret (.next (outcome, none))) fun
      | .process .idleTimeout _ => some do
        Wrapper.fail (s!"{host.repr program} was idle for " ++
          s!"{host.strSeconds args.idleTimeout}s (no output line)")
        return .returned exitIdleTimeout
      | _ => none
  else if args.profile.isSome then do
    let profile ← Wrapper.profile profileSampleInterval
    return .next (profile.outcome, some profile)
  else do
    let outcome ← Wrapper.outcome
    return .next (outcome, none)

def driveChild (program : PathBuf) (command : PyCommand) :
    Wrapper (Flow (PkOutcome × Option RunProfile)) := do
  match ← startChild host program command with
  | some code => return .returned code
  | none => watchChild host args program

def contain (program : PathBuf) (command : PyCommand) :
    Wrapper (Flow (PkOutcome × Option RunProfile)) :=
  .tryCatch (.tryFinally (driveChild host args program command) Wrapper.shutdown) fun
    | .keyboardInterrupt => some do
      Wrapper.fail "interrupted"
      return .returned (exitSignalBase + sigint)
    | .process _ text => some do
      Wrapper.fail s!"{host.repr program} failed: {text}"
      return .returned exitInternalError
    | _ => none

def emitProfile (profile : RunProfile) : Wrapper (Option Int) :=
  match args.profile with
  | none | some .stderr => do
    Wrapper.emit .stderr (host.dumps profile)
    return none
  | some (.file path) =>
    .tryCatch (.bind (Wrapper.writeFile path (host.dumps profile ++ "\n")) fun _ => .ret none)
      fun exc =>
        if exc.isOsError then
          some (giveUp s!"could not write --profile output to {host.repr path}: {exc.text}"
            exitInternalError)
        else none

/-- What `_run` makes of the outcome, from its last three checks on. -/
def report (program : PathBuf) (outcome : PkOutcome) : Wrapper Int :=
  if outcome.hasTimedOut then do
    Wrapper.fail s!"{host.repr program} timed out after {host.strSeconds args.timeout}s"
    return exitTimeout
  else match outcome.signal with
    | some signal => do
      Wrapper.fail s!"{host.repr program} was killed by signal {signal}"
      return exitSignalBase + signal.toInt
    | none =>
      match outcome.code with
      | none => do
        Wrapper.fail s!"{host.repr program} produced no exit code"
        return exitInternalError
      | some code => return code.toInt

def launch (program : PathBuf) (command : PyCommand) : Wrapper Int := do
  match ← makeGroup args with
  | some code => return code
  | none =>
    match ← contain host args program command with
    | .returned code => return code
    | .next (outcome, profile) =>
      let failed ← match profile with
        | some profile => emitProfile host args profile
        | none => .ret none
      match failed with
      | some code => return code
      | none => report host args program outcome

def run (program : PathBuf) (rest : List PathBuf) : Wrapper Int :=
  match args.firstError with
  | some message => Wrapper.usage .run message
  | none =>
    match parseEnvironment args.envFile args.env with
    | .error err => Wrapper.usage .run (err.text host.reprStr host.describe)
    | .ok pairs =>
      match buildCommand host args pairs program rest with
      | .error raised => .raise (.ofErr raised.toErr)
      | .ok command => launch host args program command

end ProcessKit.Cli

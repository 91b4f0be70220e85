import ProcessKit.Cli.RunLaws
import ProcessKit.Python.IpAddress

/-!
# The subcommand `supervise`

`_supervise` checks the options, builds one command, and hands it to a supervisor with the
settings that were given. When limits are refused, a second supervisor gets the same command
and the same settings without them. What ended the supervision becomes the code.
-/

namespace ProcessKit.Cli

open Effects
open Python (PyStr colon ofChar partition partition_append)
open ProcessKit.Runtime (PyErr PyResult)
open ProcessKit.Command (F64 PathBuf PkCall PyCommand Raised applyAll last)
open ProcessKit.Pickle (PkOutcome)

-- ---------------------------------------------------------------------------
-- The health probe
-- ---------------------------------------------------------------------------

def openBracket : Python.PyChar := ofChar '['
def closeBracket : Python.PyChar := ofChar ']'

/-- `str.rpartition`, which cuts at the last separator; `none` is that there is none. -/
def rpartition (sep : Python.PyChar) (text : PyStr) : Option (PyStr × PyStr) :=
  if sep ∈ text then
    let (after, before) := partition sep text.reverse
    some (before.reverse, after.reverse)
  else none

def healthPortShape : String := "--health-port must be HOST:PORT (bracket IPv6 literals)"
def healthPortRange : String := "--health-port port must be an integer from 1 to 65535"

def splitEndpoint (endpoint : PyStr) : Option (PyStr × PyStr) :=
  if endpoint.head? = some openBracket then
    match endpoint.idxOf? closeBracket with
    | none => none
    | some closing =>
      if endpoint[closing + 1]? = some colon then
        some ((endpoint.take closing).drop 1, endpoint.drop (closing + 2))
      else none
  else
    match rpartition colon endpoint with
    | none => none
    | some (host, rawPort) => if colon ∈ host then none else some (host, rawPort)

/-- `_parse_health_port`, with what is wrong. `int` is Python's, `none` its `ValueError`. -/
def parseHealthPort (int : PyStr → Option Int) (endpoint : PyStr) :
    Except String (PyStr × Nat) :=
  match splitEndpoint endpoint with
  | none => .error healthPortShape
  | some (host, rawPort) =>
    if host = [] then .error "--health-port host must not be empty"
    else
      match int rawPort with
      | none => .error healthPortRange
      | some port =>
        if 1 ≤ port ∧ port ≤ 65535 then .ok (host, port.toNat) else .error healthPortRange

structure SuperviseArgs where
  backoffFactor : Option F64
  idleTimeout : Option F64
  healthPort : Option PyStr
  healthHttp : Option PyStr
  healthInterval : Option F64
  healthTimeout : Option F64
  envClear : Bool
  inheritEnv : List PyStr
  env : List PyStr
  envFile : List (PyStr × PyResult (List UInt8))
  cwd : Option PyStr
  timeout : Option F64
  createNoWindow : Bool
  cpuAffinity : Option (List Nat)
  restart : Option String
  maxRestarts : Option UInt32
  backoffInitial : Option F64
  maxBackoff : Option F64
  noJitter : Bool
  limits : Limits

/-- What `_health_probe` uses of Python: `int`, and the scheme and the host name of
`urlsplit`, `none` where one of the properties it reads is a `ValueError`. -/
structure UrlHost where
  int : PyStr → Option Int
  urlsplit : PyStr → Option (PyStr × Option PyStr)

def oneSecond : F64 := 0x3FF0000000000000
def fiveSeconds : F64 := 0x4014000000000000

def healthProbe (python : UrlHost) (args : SuperviseArgs) : Except String (Option HealthProbe) :=
  let timeout := args.healthTimeout.getD oneSecond
  match args.healthPort, args.healthHttp with
  | none, none =>
    if args.healthInterval.isSome || args.healthTimeout.isSome then
      .error "--health-interval/--health-timeout requires a health probe"
    else .ok none
  | some endpoint, _ => do
    let (host, port) ← parseHealthPort python.int endpoint
    return some (.port host port timeout)
  | none, some url =>
    match python.urlsplit url with
    | none => .error "--health-http must be a valid absolute HTTP(S) URL"
    | some (scheme, hostname) =>
      if scheme ≠ Python.lit "http" ∧ scheme ≠ Python.lit "https" ∨ hostname.getD [] = [] then
        .error "--health-http must be an absolute http:// or https:// URL"
      else .ok (some (.http url timeout))

-- ---------------------------------------------------------------------------
-- The command
-- ---------------------------------------------------------------------------

variable (host : Host) (args : SuperviseArgs)

/-- Calls of the builder, whose errors are raised. -/
def build (calls : List Command.Call) (command : PyCommand) : Wrapper PyCommand :=
  .liftExcept ((applyAll host.convert calls command).mapError (.ofErr ·.toErr))

def teeCall : StdStream → Command.Call
  | .stdout => .stdoutTee host.convert (host.stream .stdout) false
  | .stderr => .stderrTee host.convert (host.stream .stderr) false

def lineBufferForTee (stream : StdStream) : Wrapper Unit :=
  .tryCatch (Wrapper.lineBuffer stream) fun exc => if exc.isException then some (.ret ()) else none

def teed (stream : StdStream) (command : PyCommand) : Wrapper PyCommand := do
  if ← Prog.perform (.hasStream stream) then
    lineBufferForTee stream
    build host [teeCall host stream] command
  else return command

def SuperviseArgs.settingCalls : List Command.Call :=
  args.timeout.toList.map (.timeout host.convert) ++
    (if args.createNoWindow then [.createNoWindow] else []) ++
    args.cpuAffinity.toList.map fun cpus =>
      converting (cpus.mapM host.usize) Command.Call.cpuAffinity

def configure (pairs : List Pair) (program : PathBuf) (rest : List PathBuf) :
    Wrapper PyCommand := do
  let command ← build host [.inheritStdin] (.new program (some rest))
  let command ← teed host .stdout command
  let command ← teed host .stderr command
  let command ← build host (args.settingCalls host) command
  .liftExcept ((applyEnvironment (commandBuilder host) command args.envClear args.inheritEnv pairs
    args.cwd).mapError .ofErr)

-- ---------------------------------------------------------------------------
-- The supervision
-- ---------------------------------------------------------------------------

/-- `supervisor_kwargs`: what was given, and no more. -/
def SuperviseArgs.kwargs (probe : Option HealthProbe) : SupervisorKwargs where
  restart := args.restart
  maxRestarts := args.maxRestarts
  backoffInitial := args.backoffInitial
  backoffFactor := args.backoffFactor
  maxBackoff := args.maxBackoff
  jitter := if args.noJitter then some false else none
  healthCheck := probe
  healthCheckInterval := probe.map fun _ => args.healthInterval.getD fiveSeconds
  limits := args.limits

def SupervisorKwargs.uncapped (kwargs : SupervisorKwargs) : SupervisorKwargs :=
  { kwargs with limits := .none }

/-- `Supervisor(...).run()`, a second time without the limits. -/
def superviseOrUncapped (kwargs : SupervisorKwargs) (command : PyCommand) :
    Wrapper SupervisionOutcome :=
  .tryCatch (Wrapper.supervise command kwargs) fun exc =>
    if exc.isRefusal then
      some (if args.limits.requested then do
        Wrapper.fail (s!"requested resource limits are not supported in this environment " ++
          s!"({exc.text}); supervising contained, but uncapped.")
        Wrapper.supervise command kwargs.uncapped
      else .raise exc)
    else none

def guarded (program : PathBuf) (body : Wrapper SupervisionOutcome) :
    Wrapper (Flow SupervisionOutcome) :=
  .tryCatch (.bind body fun outcome => .ret (.next outcome)) fun
    | .process cls text => some do
      Wrapper.fail (match cls with
        | .processNotFound | .permissionDenied | .resourceLimit | .unsupported =>
          s!"could not supervise {host.repr program}: {text}"
        | _ => s!"{host.repr program} failed: {text}")
      return .returned exitSuperviseInternalError
    | .keyboardInterrupt => some do
      Wrapper.fail "interrupted"
      return .returned (exitSignalBase + sigint)
    | _ => none

def superviseReport (program : PathBuf) (outcome : SupervisionOutcome) : Wrapper Int :=
  if outcome.stopped ∈ ["policy_satisfied", "predicate", "unhealthy"] then
    if outcome.finalResult.hasTimedOut then do
      Wrapper.fail
        s!"{host.repr program} timed out after {host.strSeconds args.timeout}s"
      return exitTimeout
    else match outcome.finalResult.signal with
      | some signal => do
        Wrapper.fail s!"{host.repr program} was killed by signal {signal}"
        return exitSignalBase + signal.toInt
      | none =>
        match outcome.finalResult.code with
        | none => do
          Wrapper.fail (if outcome.stopped = "unhealthy" then
            s!"{host.repr program} failed its health check"
          else s!"{host.repr program} produced no exit code")
          return exitSuperviseInternalError
        | some code => return code.toInt
  else if outcome.stopped = "restarts_exhausted" then return exitSuperviseRestartsExhausted
  else if outcome.stopped = "gave_up" then return exitSuperviseGaveUp
  else do
    Wrapper.fail s!"{host.repr program} produced an unknown supervision outcome"
    return exitSuperviseInternalError

def idleUnsupported : String :=
  "--idle-timeout is not yet supported under supervise: each incarnation " ++
    "runs through Supervisor's one-shot verbs, for which processkit 2.3.x " ++
    "exposes no idle-timeout hook (idle monitoring rides the streaming " ++
    "output channel Supervisor does not drive). Use `run --idle-timeout` " ++
    "for a single command."

/-- What `_supervise` checks before it starts: the health probe and the environment. -/
def SuperviseArgs.parsed (python : UrlHost) : Except String (Option HealthProbe × List Pair) :=
  -- The bits of a positive number order like the number.
  if args.backoffFactor.any (· < oneSecond) then .error "--backoff-factor must be at least 1"
  else if args.idleTimeout.isSome then .error idleUnsupported
  else do
    let probe ← healthProbe python args
    let pairs ← (parseEnvironment args.envFile args.env).mapError
      (·.text host.reprStr host.describe)
    return (probe, pairs)

def supervise (python : UrlHost) (program : PathBuf) (rest : List PathBuf) : Wrapper Int :=
  match args.parsed host python with
  | .error message => Wrapper.usage .supervise message
  | .ok (probe, pairs) => do
    match ← guarded host program (.bind (configure host args pairs program rest)
      (superviseOrUncapped args (args.kwargs probe))) with
    | .returned code => return code
    | .next outcome => superviseReport host args program outcome

end ProcessKit.Cli

import Mathlib.Data.PNat.Notation
import ProcessKit.Cli.Environment
import ProcessKit.Cli.Exit
import ProcessKit.Command
import ProcessKit.Effects
import ProcessKit.Pickle

/-!
# What the subcommands ask of the world

`run`, `supervise` and `doctor` are programs over these operations: the wrapper's own lines,
the groups, the child and the supervisor are asked for, and what they answer or raise is up to
them, each time anew. Ctrl+C is the answer `keyboardInterrupt`.
-/

namespace ProcessKit.Cli

open Effects
open Python (PyStr)
open ProcessKit.Runtime (PyErr PyObject PyResult)
open ProcessKit.Command (Convert F64 PathBuf PyCommand Raised)
open ProcessKit.Pickle (PkOutcome)

-- ---------------------------------------------------------------------------
-- Exceptions
-- ---------------------------------------------------------------------------

inductive ProcessErrorClass
  | processNotFound
  | permissionDenied
  | timeout
  | idleTimeout
  | resourceLimit
  | unsupported
  | other
  deriving DecidableEq

/-- An exception, by what the `except` clauses of the wrapper ask of it; `text` is its `str`. -/
inductive Exc
  | process (cls : ProcessErrorClass) (text : String)
  | osError (text : String)
  | keyboardInterrupt
  | outputWrite (message : String)
  | systemExit (code : ExitCode)
  | other (text : String)
  deriving DecidableEq

namespace Exc

def text : Exc → String
  | .process _ text | .osError text | .outputWrite text | .other text => text
  | .keyboardInterrupt | .systemExit _ => ""

def isProcessError : Exc → Bool
  | .process .. => true
  | _ => false

/-- Three classes of `errors.rs` have a builtin base, which is an `OSError` each time. -/
def isOsError : Exc → Bool
  | .process .processNotFound _ | .process .permissionDenied _ | .process .timeout _
  | .osError _ => true
  | _ => false

/-- `except (ResourceLimit, Unsupported)`. -/
def isRefusal : Exc → Bool
  | .process .resourceLimit _ | .process .unsupported _ => true
  | _ => false

/-- `except Exception`. -/
def isException : Exc → Bool
  | .keyboardInterrupt | .systemExit _ => false
  | _ => true

/-- What a builder method raises: a `ValueError`, a `TypeError` and the like. -/
def ofErr (err : PyErr) : Exc := .other s!"{err.type}: {err.message}"

def outcome : Exc → Outcome
  | .outputWrite message => .outputWriteError message
  | .keyboardInterrupt => .keyboardInterrupt
  | .systemExit code => .systemExit code
  | .process _ text | .osError text | .other text => .raised text

end Exc

-- ---------------------------------------------------------------------------
-- Operations
-- ---------------------------------------------------------------------------

inductive Subcommand
  | run
  | supervise
  | doctor
  deriving DecidableEq

structure Limits where
  maxMemory : Option UInt64
  maxProcesses : Option UInt32
  cpuQuota : Option F64
  deriving DecidableEq

def Limits.none : Limits := ⟨.none, .none, .none⟩

def Limits.requested (limits : Limits) : Bool :=
  limits.maxMemory.isSome || limits.maxProcesses.isSome || limits.cpuQuota.isSome

structure OutputEvent where
  isStderr : Bool
  text : String

/-- What an event stream is going to give: its lines, and what it raises after them, if it
does not just end. -/
structure OutputEvents where
  lines : List OutputEvent
  raises : Option Exc

structure RunProfile where
  outcome : PkOutcome
  durationSeconds : F64
  cpuTimeSeconds : Option F64
  peakMemoryBytes : Option UInt64
  avgCpuCores : Option F64
  samples : Nat

/-- The probe of a health check; what it answers is no matter of the wrapper's. -/
inductive HealthProbe
  | port (host : PyStr) (port : Nat) (timeout : F64)
  | http (url : PyStr) (timeout : F64)

/-- `_SupervisorKwargs`: what is `none` is not passed. -/
structure SupervisorKwargs where
  restart : Option String
  maxRestarts : Option UInt32
  backoffInitial : Option F64
  backoffFactor : Option F64
  maxBackoff : Option F64
  jitter : Option Bool
  healthCheck : Option HealthProbe
  healthCheckInterval : Option F64
  limits : Limits

structure SupervisionOutcome where
  stopped : String
  finalResult : PkOutcome

structure HostContainment where
  mechanism : String
  softStopScope : String
  parentDeathCleanup : String
  crateVersion : String

/-- `usage` is `ArgumentParser.error` up to its exit; `shutdown` is the group's `__exit__`,
`closeLoop` the end of `asyncio.run`. -/
inductive Op
  | usage (subcommand : Subcommand) (message : String)
  | emit (stream : StdStream) (text : String)
  | group (limits : Limits)
  | mechanism
  | hostContainment
  | start (command : PyCommand)
  | outputEvents
  | finish
  | closeLoop
  | outcome
  | profile (everySeconds : F64)
  | shutdown
  | writeFile (path : PathBuf) (text : String)
  | hasStream (stream : StdStream)
  | lineBuffer (stream : StdStream)
  | supervise (command : PyCommand) (kwargs : SupervisorKwargs)

abbrev Op.Answer : Op → Type
  | .usage .. => Unit
  | .emit .. => Emitted
  | .group _ => Except Exc Unit
  | .mechanism => Except Exc String
  | .hostContainment => Except Exc HostContainment
  | .start _ => Except Exc Unit
  | .outputEvents => Except Exc OutputEvents
  | .finish => Except Exc PkOutcome
  | .closeLoop => Except Exc Unit
  | .outcome => Except Exc PkOutcome
  | .profile _ => Except Exc RunProfile
  | .shutdown => Except Exc Unit
  | .writeFile .. => Except Exc Unit
  | .hasStream _ => Bool
  | .lineBuffer _ => Except Exc Unit
  | .supervise .. => Except Exc SupervisionOutcome

/-- What a line of the wrapper's own raises. What is no `Exception` is Ctrl+C. -/
def Emitted.ended : Emitted → Except Exc Unit
  | .delivered | .gone => .ok ()
  | .lost message => .error (.outputWrite message)
  | .escaped (.failed .base) => .error .keyboardInterrupt
  | .escaped (.failed failure) => .error (.other failure.text)
  | .escaped _ => .error (.other "AttributeError")

abbrev Wrapper (α : Type) := Prog Op.Answer Exc α

namespace Wrapper

def group (limits : Limits) : Wrapper Unit := .call (.group limits) id

def mechanism : Wrapper String := .call .mechanism id

def hostContainment : Wrapper HostContainment := .call .hostContainment id

def start (command : PyCommand) : Wrapper Unit := .call (.start command) id

def outputEvents : Wrapper OutputEvents := .call .outputEvents id

def finish : Wrapper PkOutcome := .call .finish id

def closeLoop : Wrapper Unit := .call .closeLoop id

def outcome : Wrapper PkOutcome := .call .outcome id

def profile (everySeconds : F64) : Wrapper RunProfile :=
  .call (.profile everySeconds) id

def shutdown : Wrapper Unit := .call .shutdown id

def writeFile (path : PathBuf) (text : String) : Wrapper Unit :=
  .call (.writeFile path text) id

def lineBuffer (stream : StdStream) : Wrapper Unit :=
  .call (.lineBuffer stream) id

def supervise (command : PyCommand) (kwargs : SupervisorKwargs) : Wrapper SupervisionOutcome :=
  .call (.supervise command kwargs) id

def usage (subcommand : Subcommand) (message : String) : Wrapper α :=
  .call (.usage subcommand message) fun _ => .error (.systemExit (.int 2))

/-- `emit_stdout` and `emit_stderr`, whose result no subcommand looks at. -/
def emit (stream : StdStream) (text : String) : Wrapper Unit :=
  .call (.emit stream text) Emitted.ended

def fail (message : String) : Wrapper Unit := emit .stderr s!"processkit: {message}"

end Wrapper

-- ---------------------------------------------------------------------------
-- The interpreter around the wrapper
-- ---------------------------------------------------------------------------

/-- What the subcommands use of Python and of the binding without asking the world: `repr`
and `str` of what their messages show, the conversions of arguments to the binding's types,
and the objects `sys.stdout` and `sys.stderr`. -/
structure Host where
  convert : Convert
  repr : PathBuf → String
  reprStr : PyStr → String
  describe : Unreadable → String
  strFloat : F64 → String
  surrogates : PyStr → String
  osPath : PyStr → PathBuf
  usize : Nat → PyResult USize
  sameKey : PyStr → PyStr → Bool
  stream : StdStream → PyObject
  dumps : RunProfile → String

def Host.strSeconds (host : Host) (seconds : Option F64) : String :=
  (seconds.map host.strFloat).getD "None"

/-- Of an argument of the builder that is a `u16`. -/
def u16 (n : Nat) : PyResult UInt16 :=
  if n < 2 ^ 16 then .ok n.toUInt16
  else .error ⟨"OverflowError", "out of range integral type conversion attempted"⟩

def exitTimeout : Int := 124
def exitInternalError : Int := 125
def exitNotExecutable : Int := 126
def exitNotFound : Int := 127
def exitIdleTimeout : Int := 123
def exitSuperviseInternalError : Int := 120
def exitSuperviseRestartsExhausted : Int := 121
def exitSuperviseGaveUp : Int := 122

end ProcessKit.Cli

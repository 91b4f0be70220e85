import Mathlib.Logic.Function.Basic
import ProcessKit.Runtime.Hub
import ProcessKit.Transition

/-!
# The command builder

A `Command` wraps the crate's builder. Whether a terminal was asked for, which streams would
conflict with one, and the idle timeout are kept beside it, since the crate has no accessor
for the first two and no notion of the third. Every builder method hands a new wrapper back
and leaves its receiver alone.

The crate's command is the list of the builder calls behind it. The argument checks of
`convert.rs` are parameters, except for the stdio modes.
-/

namespace ProcessKit.Command

open ProcessKit.Runtime (PyErr PyResult PyObject ValueError.newErr)
open Transition (Machine)

abbrev PathBuf := String

/-- A value of the crate's, by its identity. -/
abbrev PkValue := Nat

/-- An `f64`, by its bits. -/
abbrev F64 := UInt64

inductive StdioMode
  | piped
  | inherit
  | null
  deriving DecidableEq

inductive PkStdin
  | bytes (data : List UInt8)
  | string (text : String)
  | file (path : PathBuf)

/-- The crate's builder methods that touch neither the terminal nor the three streams'
destinations. -/
inductive PkSetting
  | arg (arg : PathBuf)
  | args (args : List PathBuf)
  | arg0 (arg0 : String)
  | currentDir (path : PathBuf)
  | preferLocal (dir : PathBuf)
  | env (key value : String)
  | envs (vars : List (String × String))
  | envRemove (key : String)
  | envClear
  | inheritEnv (names : List String)
  | stdin (source : PkStdin)
  | keepStdinOpen
  | timeout (duration : PkValue)
  | timeoutGrace (grace : PkValue)
  | timeoutSignal (signal : PkValue)
  | noTimeout
  | timeoutOpt (timeout : Option PkValue)
  | cancelOn (token : PkValue)
  | okCodes (codes : List Int32)
  | retryWith (policy classifier : PkValue)
  | retryNever
  | encoding (label : PkValue)
  | stdoutEncoding (label : PkValue)
  | stderrEncoding (label : PkValue)
  | lineTerminator (mode : PkValue)
  | stdoutLineTerminator (mode : PkValue)
  | stderrLineTerminator (mode : PkValue)
  | sanitizeVt
  | stdoutSanitizeVt
  | stderrSanitizeVt
  | stdoutTee (sink : PkValue)
  | stderrTee (sink : PkValue)
  | stdoutRawTee (sink : PkValue)
  | stderrRawTee (sink : PkValue)
  | onStdoutLine (callback : PyObject)
  | onStderrLine (callback : PyObject)
  | killOnParentDeath
  | createNoWindow
  | windowsGracefulCtrlBreak
  | uid (uid : UInt32)
  | gid (gid : UInt32)
  | groups (gids : List UInt32)
  | setsid
  | umask (mask : UInt32)
  | rlimit (resource : PkValue) (soft hard : UInt64)
  | priority (level : PkValue)
  | cpuAffinity (cpus : List USize)
  | ioPriority (priority : PkValue)
  | outputBuffer (policy : PkValue)
  | uncheckedInPipe
  | mergeStderrInPipe

inductive Stream
  | stdout
  | stderr
  deriving DecidableEq

/-- `stdout`, `stderr` and their file forms are one call each, by the stream. -/
inductive PkCall
  | setting (setting : PkSetting)
  | inheritStdin
  | stdio (stream : Stream) (mode : StdioMode)
  | file (stream : Stream) (path : PathBuf)
  | fileAppend (stream : Stream) (path : PathBuf)
  | usePty
  | ptySize (cols rows : UInt16)

def PkCall.inherits : PkCall → Bool
  | .inheritStdin => true
  | _ => false

structure PkCommand where
  program : PathBuf
  calls : List PkCall

def PkCommand.call (self : PkCommand) (call : PkCall) : PkCommand :=
  { self with calls := self.calls ++ [call] }

structure PyCommand where
  inner : PkCommand
  idleTimeout : Option PkValue
  ptyRequested : Bool
  ptyConflicts : UInt8

def ptyConflictStdin : UInt8 := 1
def ptyConflictStdout : UInt8 := 2
def ptyConflictStderr : UInt8 := 4

def Stream.ptyConflict : Stream → UInt8
  | .stdout => ptyConflictStdout
  | .stderr => ptyConflictStderr

/-- What a builder method raises: an error of its own, or that of an argument check. -/
inductive Raised
  | ptyConflict
  | ptyNotPositive
  | ptyIncomplete
  | argument (err : PyErr)
  deriving DecidableEq

def Raised.toErr : Raised → PyErr
  | .ptyConflict => ValueError.newErr ("pty() cannot be combined with inherit_stdin(), " ++
      "a non-piped stdout/stderr, or stdout_file()/stderr_file()")
  | .ptyNotPositive => ValueError.newErr "pty cols and rows must both be positive"
  | .ptyIncomplete => ValueError.newErr "pty cols and rows must be provided together"
  | .argument err => err

/-- The argument checks and conversions of `convert.rs`, and `{:?}` of a string. -/
structure Convert where
  debug : String → String
  positiveDuration : F64 → String → PyResult PkValue
  nonnegativeDuration : F64 → String → PyResult PkValue
  parseSignal : PyObject → PyResult PkValue
  buildRetryPolicy : Option UInt32 → Option F64 → Option F64 → Option F64 → Option Bool →
    PyResult PkValue
  parseRetryIf : String → PyResult PkValue
  parseEncoding : String → PyResult PkValue
  parseLineTerminator : String → PyResult PkValue
  isPythonWriter : PyObject → PyResult Bool
  writerSink : PyObject → PkValue
  rawWriterSink : PyObject → PkValue
  extractPath : PyObject → PyResult PathBuf
  openTeeSink : PathBuf → Bool → PyResult PkValue
  parseRlimitResource : String → PyResult PkValue
  parsePriority : String → PyResult PkValue
  parseIoPriority : String → Option PyObject → PyResult PkValue
  buildOutputBufferPolicy : Option USize → Option USize → String → String → PyResult PkValue

-- ---------------------------------------------------------------------------
-- The builder methods
-- ---------------------------------------------------------------------------

/-- `parse_stdio_mode`'s vocabulary, over `normalize_named_preset`. -/
def stdioMode (mode : String) : Option StdioMode :=
  match mode.map Char.toLower with
  | "pipe" | "piped" => some .piped
  | "inherit" => some .inherit
  | "null" | "discard" => some .null
  | _ => none

namespace PyCommand

def new (program : PathBuf) (args : Option (List PathBuf)) : PyCommand :=
  let inner : PkCommand := ⟨program, []⟩
  let inner := match args with
    | some args => inner.call (.setting (.args args))
    | none => inner
  ⟨inner, none, false, 0⟩

def rewrap (self : PyCommand) (inner : PkCommand) : PyCommand :=
  { inner
    idleTimeout := self.idleTimeout
    ptyRequested := self.ptyRequested
    ptyConflicts := self.ptyConflicts }

section Rewrap

variable (self : PyCommand) (inner : PkCommand)

@[simp] theorem rewrap_inner : (self.rewrap inner).inner = inner := rfl

@[simp] theorem rewrap_idleTimeout : (self.rewrap inner).idleTimeout = self.idleTimeout := rfl

@[simp] theorem rewrap_ptyRequested : (self.rewrap inner).ptyRequested = self.ptyRequested := rfl

@[simp] theorem rewrap_ptyConflicts : (self.rewrap inner).ptyConflicts = self.ptyConflicts := rfl

end Rewrap

def rejectPtyConflict (self : PyCommand) : Except Raised Unit :=
  if self.ptyRequested then .error .ptyConflict else .ok ()

def inheritStdin (self : PyCommand) : Except Raised PyCommand := do
  self.rejectPtyConflict
  let wrapped := self.rewrap (self.inner.call .inheritStdin)
  return { wrapped with ptyConflicts := wrapped.ptyConflicts ||| ptyConflictStdin }

variable (convert : Convert)

def parseStdioMode (mode : String) : PyResult StdioMode :=
  match stdioMode mode with
  | some parsed => .ok parsed
  | none => .error (ValueError.newErr s!"unknown stdio mode {
      convert.debug (mode.map Char.toLower)}; use one of: pipe, inherit, null")

def stdio (stream : Stream) (mode : String) (self : PyCommand) : Except Raised PyCommand := do
  let parsed ← (parseStdioMode convert mode).mapError .argument
  let isPiped := parsed == .piped
  if self.ptyRequested && !isPiped then
    self.rejectPtyConflict
  let wrapped := self.rewrap (self.inner.call (.stdio stream parsed))
  if isPiped then
    return { wrapped with ptyConflicts := wrapped.ptyConflicts &&& ~~~stream.ptyConflict }
  else
    return { wrapped with ptyConflicts := wrapped.ptyConflicts ||| stream.ptyConflict }

def file (stream : Stream) (path : PathBuf) (append : Bool) (self : PyCommand) :
    Except Raised PyCommand := do
  self.rejectPtyConflict
  let inner := self.inner
  let wrapped := self.rewrap
    (if append then inner.call (.fileAppend stream path) else inner.call (.file stream path))
  return { wrapped with ptyConflicts := wrapped.ptyConflicts ||| stream.ptyConflict }

def idleTimeoutAfter (seconds : F64) (self : PyCommand) : Except Raised PyCommand := do
  let duration ← (convert.positiveDuration seconds "idle_timeout").mapError .argument
  return { self with idleTimeout := some duration }

def pty (cols rows : Option UInt16) (self : PyCommand) : Except Raised PyCommand := do
  if self.ptyConflicts ≠ 0 then
    throw .ptyConflict
  let inner := self.inner.call .usePty
  let wrapped ← match cols, rows with
    | none, none => .ok (self.rewrap inner)
    | some cols, some rows =>
      if cols > 0 ∧ rows > 0 then .ok (self.rewrap (inner.call (.ptySize cols rows)))
      else .error .ptyNotPositive
    | _, _ => .error .ptyIncomplete
  return { wrapped with ptyRequested := true }

/-- The methods that are a checked argument and `rewrap`. -/
def rewrapped (checked : PyResult PkSetting) (self : PyCommand) : Except Raised PyCommand := do
  let setting ← checked.mapError .argument
  return self.rewrap (self.inner.call (.setting setting))

end PyCommand

inductive Call
  | rewrapped (checked : PyResult PkSetting)
  | inheritStdin
  | stdio (stream : Stream) (mode : String)
  | file (stream : Stream) (path : PathBuf) (append : Bool)
  | idleTimeout (seconds : F64)
  | pty (cols rows : Option UInt16)

namespace Call

def stdout : String → Call := .stdio .stdout
def stderr : String → Call := .stdio .stderr
def stdoutFile : PathBuf → Bool → Call := .file .stdout
def stderrFile : PathBuf → Bool → Call := .file .stderr

def plain (setting : PkSetting) : Call := .rewrapped (.ok setting)

def arg (arg : PathBuf) : Call := plain (.arg arg)
def args (args : List PathBuf) : Call := plain (.args args)
def arg0 (arg0 : String) : Call := plain (.arg0 arg0)
def cwd (path : PathBuf) : Call := plain (.currentDir path)
def preferLocal (dir : PathBuf) : Call := plain (.preferLocal dir)
def env (key value : String) : Call := plain (.env key value)
def envs (vars : List (String × String)) : Call := plain (.envs vars)
def envRemove (key : String) : Call := plain (.envRemove key)
def envClear : Call := plain .envClear
def inheritEnv (names : List String) : Call := plain (.inheritEnv names)
def stdinBytes (data : List UInt8) : Call := plain (.stdin (.bytes data))
def stdinText (text : String) : Call := plain (.stdin (.string text))
def stdinFile (path : PathBuf) : Call := plain (.stdin (.file path))
def keepStdinOpen : Call := plain .keepStdinOpen
def noTimeout : Call := plain .noTimeout
def cancelOn (token : PkValue) : Call := plain (.cancelOn token)
def retryNever : Call := plain .retryNever
def sanitizeVt : Call := plain .sanitizeVt
def stdoutSanitizeVt : Call := plain .stdoutSanitizeVt
def stderrSanitizeVt : Call := plain .stderrSanitizeVt
def onStdoutLine (callback : PyObject) : Call := plain (.onStdoutLine callback)
def onStderrLine (callback : PyObject) : Call := plain (.onStderrLine callback)
def killOnParentDeath : Call := plain .killOnParentDeath
def createNoWindow : Call := plain .createNoWindow
def windowsGracefulCtrlBreak : Call := plain .windowsGracefulCtrlBreak
def uid (uid : UInt32) : Call := plain (.uid uid)
def gid (gid : UInt32) : Call := plain (.gid gid)
def groups (gids : List UInt32) : Call := plain (.groups gids)
def setsid : Call := plain .setsid
def umask (mask : UInt32) : Call := plain (.umask mask)
def cpuAffinity (cpus : List USize) : Call := plain (.cpuAffinity cpus)
def uncheckedInPipe : Call := plain .uncheckedInPipe
def mergeStderrInPipe : Call := plain .mergeStderrInPipe

def successCodes (codes : List Int32) : Call :=
  .rewrapped <| if codes.isEmpty then
    .error (ValueError.newErr ("success_codes requires at least one code; pass the exit codes " ++
      "you accept (e.g. [0, 1])"))
  else .ok (.okCodes codes)

variable (convert : Convert)

def timeout (seconds : F64) : Call :=
  .rewrapped ((convert.positiveDuration seconds "timeout").map .timeout)

def timeoutGrace (seconds : F64) : Call :=
  .rewrapped ((convert.nonnegativeDuration seconds "timeout_grace").map .timeoutGrace)

def timeoutSignal (name : PyObject) : Call :=
  .rewrapped ((convert.parseSignal name).map .timeoutSignal)

def timeoutOpt (seconds : Option F64) : Call :=
  .rewrapped <| match seconds with
    | some seconds =>
      (convert.positiveDuration seconds "timeout_opt").map fun timeout => .timeoutOpt (some timeout)
    | none => .ok (.timeoutOpt none)

def retry (retryIf : String) (maxRetries : Option UInt32)
    (initialBackoff multiplier maxBackoff : Option F64) (jitter : Option Bool) : Call :=
  .rewrapped do
    let policy ← convert.buildRetryPolicy maxRetries initialBackoff multiplier maxBackoff jitter
    let classifier ← convert.parseRetryIf retryIf
    return .retryWith policy classifier

def encoding (label : String) : Call := .rewrapped ((convert.parseEncoding label).map .encoding)

def stdoutEncoding (label : String) : Call :=
  .rewrapped ((convert.parseEncoding label).map .stdoutEncoding)

def stderrEncoding (label : String) : Call :=
  .rewrapped ((convert.parseEncoding label).map .stderrEncoding)

def lineTerminator (mode : String) : Call :=
  .rewrapped ((convert.parseLineTerminator mode).map .lineTerminator)

def stdoutLineTerminator (mode : String) : Call :=
  .rewrapped ((convert.parseLineTerminator mode).map .stdoutLineTerminator)

def stderrLineTerminator (mode : String) : Call :=
  .rewrapped ((convert.parseLineTerminator mode).map .stderrLineTerminator)

def rejectAppendForWriter (append : Bool) : PyResult Unit :=
  if append then
    .error (ValueError.newErr ("append=True is only meaningful for a file-path tee sink, " ++
      "not a Python writer object"))
  else .ok ()

/-- The four tees, by how a writer is wrapped and the crate's method. -/
def tee (wrap : PyObject → PkValue) (setting : PkValue → PkSetting) (sink : PyObject)
    (append : Bool) : Call :=
  .rewrapped do
    if ← convert.isPythonWriter sink then
      rejectAppendForWriter append
      return setting (wrap sink)
    else
      let path ← convert.extractPath sink
      return setting (← convert.openTeeSink path append)

def stdoutTee : PyObject → Bool → Call := tee convert convert.writerSink .stdoutTee
def stderrTee : PyObject → Bool → Call := tee convert convert.writerSink .stderrTee
def stdoutRawTee : PyObject → Bool → Call := tee convert convert.rawWriterSink .stdoutRawTee
def stderrRawTee : PyObject → Bool → Call := tee convert convert.rawWriterSink .stderrRawTee

def rlimit (resource : String) (soft hard : UInt64) : Call :=
  .rewrapped ((convert.parseRlimitResource resource).map (.rlimit · soft hard))

def priority (level : String) : Call := .rewrapped ((convert.parsePriority level).map .priority)

def ioPriority (className : String) (level : Option PyObject) : Call :=
  .rewrapped ((convert.parseIoPriority className level).map .ioPriority)

def outputLimit (maxBytes maxLines : Option USize) (onOverflow : String) : Call :=
  .rewrapped
    ((convert.buildOutputBufferPolicy maxBytes maxLines onOverflow "output_limit").map
      .outputBuffer)

end Call

def Call.apply (convert : Convert) (self : PyCommand) : Call → Except Raised PyCommand
  | .rewrapped checked => self.rewrapped checked
  | .inheritStdin => self.inheritStdin
  | .stdio stream mode => self.stdio convert stream mode
  | .file stream path append => self.file stream path append
  | .idleTimeout seconds => self.idleTimeoutAfter convert seconds
  | .pty cols rows => self.pty cols rows

inductive Event
  | built (call : Call)
  | raised (call : Call) (err : Raised)

/-- A chain of builder calls, each on the value of the last one that succeeded. -/
def builder (convert : Convert) (program : PathBuf) (args : Option (List PathBuf)) :
    Machine PyCommand Call Event where
  init := .new program args
  step self call :=
    match call.apply convert self with
    | .ok next => some (next, [.built call])
    | .error err => some (self, [.raised call err])

-- ---------------------------------------------------------------------------
-- What a chain asks for
-- ---------------------------------------------------------------------------

def built (log : List Event) : List Call :=
  log.filterMap fun
    | .built call => some call
    | .raised .. => none

@[simp] theorem built_nil : built [] = [] := rfl

@[simp] theorem built_built : built (log ++ [.built call]) = built log ++ [call] := by
  simp [built]

@[simp] theorem built_raised : built (log ++ [.raised call err]) = built log := by
  simp [built]

namespace Call

def asksPty : Call → Bool
  | .pty .. => true
  | _ => false

def inherits : Call → Bool
  | .inheritStdin => true
  | _ => false

/-- Whether the call leaves the stream non-piped; `none` when it does not configure it. -/
def leavesNonPiped (stream : Stream) : Call → Option Bool
  | .stdio other mode => if other = stream then (stdioMode mode).map (· != .piped) else none
  | .file other _ _ => if other = stream then some true else none
  | _ => none

def setsIdle (convert : Convert) : Call → Option PkValue
  | .idleTimeout seconds => (convert.positiveDuration seconds "idle_timeout").toOption
  | _ => none

end Call

def last (f : α → Option β) (calls : List α) : Option β := (calls.filterMap f).getLast?

@[simp] theorem last_nil (f : α → Option β) : last f [] = none := rfl

@[simp] theorem last_snoc (f : α → Option β) :
    last f (calls ++ [call]) = (f call).or (last f calls) := by
  cases h : f call <;> simp [last, h]

def nonPiped (leaves : Stream → α → Option Bool) (calls : List α) (stream : Stream) : Bool :=
  last (leaves stream) calls == some true

/-- A terminal beside an inherited stdin or a non-piped stream. -/
def Combines (calls : List Call) : Prop :=
  calls.any Call.asksPty ∧
    (calls.any Call.inherits ∨ ∃ stream, nonPiped Call.leavesNonPiped calls stream)

section NonPiped

variable {leaves : Stream → α → Option Bool} {calls : List α}

theorem nonPiped_snoc (calls : List α) (call : α) :
    nonPiped leaves (calls ++ [call]) = fun stream =>
      (leaves stream call).getD (nonPiped leaves calls stream) := by
  funext stream
  cases h : leaves stream call <;> simp [nonPiped, h]

theorem nonPiped_append (h : ∀ call ∈ more, ∀ stream, leaves stream call = none) :
    nonPiped leaves (calls ++ more) = nonPiped leaves calls := by
  funext stream
  have hnone : more.filterMap (leaves stream) = [] := by
    simpa [List.filterMap_eq_nil_iff] using fun call hcall => h call hcall stream
  simp [nonPiped, last, hnone]

theorem nonPiped_same (h : ∀ stream, leaves stream call = none) :
    nonPiped leaves (calls ++ [call]) = nonPiped leaves calls :=
  nonPiped_append (by simpa using h)

theorem nonPiped_update (hself : leaves stream call = some answer)
    (hother : ∀ other, other ≠ stream → leaves other call = none) :
    nonPiped leaves (calls ++ [call]) = Function.update (nonPiped leaves calls) stream answer := by
  rw [nonPiped_snoc]
  funext other
  by_cases h : other = stream
  · subst h
    simp [hself]
  · simp [h, hother other h]

end NonPiped

-- ---------------------------------------------------------------------------
-- The conflict mask
-- ---------------------------------------------------------------------------

/-- The mask of an inherited stdin and of each stream's being non-piped. -/
def mask (stdin : Bool) (streams : Stream → Bool) : UInt8 :=
  (if stdin then ptyConflictStdin else 0) ||| (if streams .stdout then ptyConflictStdout else 0) |||
    (if streams .stderr then ptyConflictStderr else 0)

theorem mask_eq_zero :
    mask stdin streams = 0 ↔ stdin = false ∧ ∀ stream, streams stream = false := by
  have hstreams : (∀ stream, streams stream = false) ↔
      streams .stdout = false ∧ streams .stderr = false :=
    ⟨fun h => ⟨h _, h _⟩, fun h stream => by cases stream; exacts [h.1, h.2]⟩
  rw [hstreams]
  cases stdin <;> cases hout : streams .stdout <;> cases herr : streams .stderr <;>
    simp [mask, hout, herr] <;> decide

theorem mask_stdin : mask stdin streams ||| ptyConflictStdin = mask true streams := by
  cases stdin <;> cases hout : streams .stdout <;> cases herr : streams .stderr <;>
    simp [mask, hout, herr] <;> decide

theorem mask_set (stream : Stream) :
    mask stdin streams ||| stream.ptyConflict =
      mask stdin (Function.update streams stream true) := by
  cases stream <;> cases stdin <;> cases hout : streams .stdout <;>
    cases herr : streams .stderr <;> simp [mask, hout, herr, Stream.ptyConflict] <;> decide

theorem mask_clear (stream : Stream) :
    mask stdin streams &&& ~~~stream.ptyConflict =
      mask stdin (Function.update streams stream false) := by
  cases stream <;> cases stdin <;> cases hout : streams .stdout <;>
    cases herr : streams .stderr <;> simp [mask, hout, herr, Stream.ptyConflict] <;> decide

theorem mask_bit (stream : Stream) :
    mask stdin streams &&& stream.ptyConflict ≠ 0 ↔ streams stream := by
  cases stream <;> cases stdin <;> cases hout : streams .stdout <;>
    cases herr : streams .stderr <;> simp [mask, hout, herr, Stream.ptyConflict] <;> decide

-- ---------------------------------------------------------------------------
-- The wrapper shadows the chain
-- ---------------------------------------------------------------------------

/-- What the wrapper keeps beside the crate's command, read off the calls that made it. -/
structure Shadows (convert : Convert) (cmd : PyCommand) (calls : List Call) : Prop where
  pty : cmd.ptyRequested = calls.any Call.asksPty
  conflicts : cmd.ptyConflicts = mask (calls.any Call.inherits) (nonPiped Call.leavesNonPiped calls)
  idle : cmd.idleTimeout = last (Call.setsIdle convert) calls

theorem shadows_new (program : PathBuf) (args : Option (List PathBuf)) :
    Shadows convert (.new program args) [] := ⟨rfl, rfl, rfl⟩

theorem nonPiped_stdio (hmode : stdioMode mode = some parsed) :
    nonPiped Call.leavesNonPiped (calls ++ [.stdio stream mode]) =
      Function.update (nonPiped Call.leavesNonPiped calls) stream (parsed != .piped) :=
  nonPiped_update (by simp [Call.leavesNonPiped, hmode]) fun other hne => by
    simp [Call.leavesNonPiped, Ne.symm hne]

theorem nonPiped_file :
    nonPiped Call.leavesNonPiped (calls ++ [.file stream path append]) =
      Function.update (nonPiped Call.leavesNonPiped calls) stream true :=
  nonPiped_update (by simp [Call.leavesNonPiped]) fun other hne => by
    simp [Call.leavesNonPiped, Ne.symm hne]

theorem PyCommand.rewrapped_ok {self : PyCommand} (h : self.rewrapped checked = .ok next) :
    ∃ setting, next = self.rewrap (self.inner.call (.setting setting)) := by
  cases checked with
  | error err => exact nomatch h
  | ok setting => exact ⟨setting, (Except.ok.inj h).symm⟩

theorem PyCommand.inheritStdin_ok {self : PyCommand} (h : self.inheritStdin = .ok next) :
    next = { self with
      inner := self.inner.call .inheritStdin
      ptyConflicts := self.ptyConflicts ||| ptyConflictStdin } := by
  rw [PyCommand.inheritStdin, PyCommand.rejectPtyConflict] at h
  split at h
  · exact nomatch h
  · exact (Except.ok.inj h).symm

theorem PyCommand.stdio_ok {self : PyCommand} (h : self.stdio convert stream mode = .ok next) :
    ∃ parsed, stdioMode mode = some parsed ∧ next = { self with
      inner := self.inner.call (.stdio stream parsed)
      ptyConflicts := if parsed = .piped then self.ptyConflicts &&& ~~~stream.ptyConflict
        else self.ptyConflicts ||| stream.ptyConflict } := by
  cases hmode : stdioMode mode with
  | none =>
    simp only [PyCommand.stdio, PyCommand.parseStdioMode, hmode] at h
    exact nomatch h
  | some parsed =>
    refine ⟨parsed, rfl, ?_⟩
    cases hreq : self.ptyRequested <;> cases parsed <;>
      simp [PyCommand.stdio, PyCommand.parseStdioMode, hmode, hreq, PyCommand.rejectPtyConflict,
        Except.mapError, PyCommand.rewrap, bind, Except.bind, pure, Except.pure] at h ⊢ <;>
      exact h.symm

theorem PyCommand.file_ok {self : PyCommand} (h : self.file stream path append = .ok next) :
    next = { self with
      inner := self.inner.call (if append then .fileAppend stream path else .file stream path)
      ptyConflicts := self.ptyConflicts ||| stream.ptyConflict } := by
  rw [PyCommand.file, PyCommand.rejectPtyConflict] at h
  split at h
  · exact nomatch h
  · cases append <;> exact (Except.ok.inj h).symm

theorem PyCommand.idleTimeoutAfter_ok {self : PyCommand}
    (h : self.idleTimeoutAfter convert seconds = .ok next) :
    ∃ duration, convert.positiveDuration seconds "idle_timeout" = .ok duration ∧
      next = { self with idleTimeout := some duration } := by
  rw [PyCommand.idleTimeoutAfter] at h
  cases hcheck : convert.positiveDuration seconds "idle_timeout" with
  | error err =>
    rw [hcheck] at h
    exact nomatch h
  | ok duration =>
    rw [hcheck] at h
    exact ⟨duration, rfl, (Except.ok.inj h).symm⟩

theorem PyCommand.pty_ok {self : PyCommand} (h : self.pty cols rows = .ok next) :
    ∃ size, (∀ call ∈ size, ∃ cols rows, call = .ptySize cols rows) ∧ next = { self with
      inner := ⟨self.inner.program, self.inner.calls ++ .usePty :: size⟩
      ptyRequested := true } := by
  rw [PyCommand.pty] at h
  split at h
  · exact nomatch h
  · rcases cols with _ | cols <;> rcases rows with _ | rows
    · exact ⟨[], by simp, (Except.ok.inj h).symm⟩
    · exact nomatch h
    · exact nomatch h
    · by_cases hsize : cols > 0 ∧ rows > 0
      · simp only [if_pos hsize] at h
        refine ⟨[.ptySize cols rows], by simp, ?_⟩
        simpa [PkCommand.call, PyCommand.rewrap] using (Except.ok.inj h).symm
      · simp only [if_neg hsize] at h
        exact nomatch h

theorem Shadows.step (h : Shadows convert self calls)
    (hok : Call.apply convert self call = .ok next) : Shadows convert next (calls ++ [call]) := by
  cases call with
  | rewrapped checked =>
    obtain ⟨setting, rfl⟩ := PyCommand.rewrapped_ok hok
    refine ⟨?_, ?_, ?_⟩
    · simpa [Call.asksPty] using h.pty
    · rw [nonPiped_same fun _ => rfl]
      simpa [Call.inherits] using h.conflicts
    · simpa [Call.setsIdle] using h.idle
  | inheritStdin =>
    obtain rfl := PyCommand.inheritStdin_ok hok
    refine ⟨?_, ?_, ?_⟩
    · simpa [Call.asksPty] using h.pty
    · rw [nonPiped_same fun _ => rfl]
      simpa [Call.inherits, h.conflicts] using mask_stdin
    · simpa [Call.setsIdle] using h.idle
  | stdio stream mode =>
    obtain ⟨parsed, hmode, rfl⟩ := PyCommand.stdio_ok hok
    refine ⟨?_, ?_, ?_⟩
    · simpa [Call.asksPty] using h.pty
    · rw [nonPiped_stdio hmode]
      by_cases hpiped : parsed = .piped
      · simpa [Call.inherits, h.conflicts, hpiped] using mask_clear stream
      · have hnot : (parsed != .piped) = true := by simpa using hpiped
        simpa [Call.inherits, h.conflicts, hpiped, hnot] using mask_set stream
    · simpa [Call.setsIdle] using h.idle
  | file stream path append =>
    obtain rfl := PyCommand.file_ok hok
    refine ⟨?_, ?_, ?_⟩
    · simpa [Call.asksPty] using h.pty
    · rw [nonPiped_file]
      simpa [Call.inherits, h.conflicts] using mask_set stream
    · simpa [Call.setsIdle] using h.idle
  | idleTimeout seconds =>
    obtain ⟨duration, hcheck, rfl⟩ := PyCommand.idleTimeoutAfter_ok hok
    refine ⟨?_, ?_, ?_⟩
    · simpa [Call.asksPty] using h.pty
    · rw [nonPiped_same fun _ => rfl]
      simpa [Call.inherits] using h.conflicts
    · simp [Call.setsIdle, hcheck, Except.toOption]
  | pty cols rows =>
    obtain ⟨size, -, rfl⟩ := PyCommand.pty_ok hok
    refine ⟨?_, ?_, ?_⟩
    · simp [Call.asksPty]
    · rw [nonPiped_same fun _ => rfl]
      simpa [Call.inherits] using h.conflicts
    · simpa [Call.setsIdle] using h.idle

theorem Shadows.conflicts_eq_zero (h : Shadows convert self calls) :
    self.ptyConflicts = 0 ↔
      calls.any Call.inherits = false ∧
        ∀ stream, nonPiped Call.leavesNonPiped calls stream = false := by
  rw [h.conflicts, mask_eq_zero]

theorem Shadows.apart (h : Shadows convert self calls) (hapart : ¬ Combines calls)
    (hpty : self.ptyRequested) : self.ptyConflicts = 0 := by
  rw [h.pty] at hpty
  rw [h.conflicts_eq_zero]
  constructor
  · by_contra hinherits
    exact hapart ⟨hpty, .inl (by simpa using hinherits)⟩
  · intro stream
    by_contra hstream
    exact hapart ⟨hpty, .inr ⟨stream, by simpa using hstream⟩⟩

theorem combines_snoc (hapart : ¬ Combines calls) (hpty : call.asksPty = false)
    (hinherits : call.inherits = false)
    (hleaves : ∀ stream, call.leavesNonPiped stream ≠ some true) :
    ¬ Combines (calls ++ [call]) := by
  rintro ⟨hasks, hconflict⟩
  have hasks : calls.any Call.asksPty := by simpa [hpty] using hasks
  rcases hconflict with hstdin | ⟨stream, hstream⟩
  · exact hapart ⟨hasks, .inl (by simpa [hinherits] using hstdin)⟩
  · refine hapart ⟨hasks, .inr ⟨stream, ?_⟩⟩
    rw [nonPiped_snoc] at hstream
    cases hanswer : call.leavesNonPiped stream with
    | none => simpa [hanswer] using hstream
    | some answer =>
      cases answer with
      | true => exact absurd hanswer (hleaves stream)
      | false => simp [hanswer] at hstream

theorem combines_of_conflicting (hpty : call.asksPty = false)
    (hcall : call.inherits ∨ ∃ stream, call.leavesNonPiped stream = some true) :
    Combines (calls ++ [call]) ↔ calls.any Call.asksPty := by
  constructor
  · rintro ⟨hasks, -⟩
    simpa [hpty] using hasks
  · intro hasks
    refine ⟨by simp [hasks], ?_⟩
    rcases hcall with hinherits | ⟨stream, hleaves⟩
    · exact .inl (by simp [hinherits])
    · exact .inr ⟨stream, by simp [nonPiped_snoc, hleaves]⟩

theorem combines_pty :
    Combines (calls ++ [.pty cols rows]) ↔
      calls.any Call.inherits ∨ ∃ stream, nonPiped Call.leavesNonPiped calls stream := by
  rw [Combines, nonPiped_same fun _ => rfl]
  simp [Call.asksPty, Call.inherits]

theorem PyCommand.rewrapped_conflict {self : PyCommand} :
    self.rewrapped checked ≠ .error .ptyConflict := by
  intro h
  cases checked with
  | error err => cases h
  | ok setting => cases h

theorem PyCommand.inheritStdin_conflict {self : PyCommand} :
    self.inheritStdin = .error .ptyConflict ↔ self.ptyRequested := by
  cases hreq : self.ptyRequested <;>
    simp [PyCommand.inheritStdin, PyCommand.rejectPtyConflict, hreq, bind, Except.bind, pure,
      Except.pure]

theorem PyCommand.stdio_conflict {self : PyCommand} :
    self.stdio convert stream mode = .error .ptyConflict ↔
      self.ptyRequested ∧ ∃ parsed, stdioMode mode = some parsed ∧ parsed ≠ .piped := by
  cases hmode : stdioMode mode with
  | none =>
    simp [PyCommand.stdio, PyCommand.parseStdioMode, hmode, Except.mapError, bind, Except.bind]
  | some parsed =>
    cases hreq : self.ptyRequested <;> cases parsed <;>
      simp [PyCommand.stdio, PyCommand.parseStdioMode, hmode, hreq, PyCommand.rejectPtyConflict,
        Except.mapError, bind, Except.bind, pure, Except.pure]

theorem PyCommand.file_conflict {self : PyCommand} :
    self.file stream path append = .error .ptyConflict ↔ self.ptyRequested := by
  cases hreq : self.ptyRequested <;> cases append <;>
    simp [PyCommand.file, PyCommand.rejectPtyConflict, hreq, bind, Except.bind, pure, Except.pure]

theorem PyCommand.idleTimeoutAfter_conflict {self : PyCommand} :
    self.idleTimeoutAfter convert seconds ≠ .error .ptyConflict := by
  intro h
  rw [PyCommand.idleTimeoutAfter] at h
  cases hcheck : convert.positiveDuration seconds "idle_timeout" with
  | error err =>
    rw [hcheck] at h
    cases h
  | ok duration =>
    rw [hcheck] at h
    cases h

theorem PyCommand.pty_conflict {self : PyCommand} :
    self.pty cols rows = .error .ptyConflict ↔ self.ptyConflicts ≠ 0 := by
  by_cases hmask : self.ptyConflicts = 0
  · rcases cols with _ | cols <;> rcases rows with _ | rows
    · simp [PyCommand.pty, hmask, bind, Except.bind, pure, Except.pure]
    · simp [PyCommand.pty, hmask, bind, Except.bind]
    · simp [PyCommand.pty, hmask, bind, Except.bind]
    · by_cases hsize : cols > 0 ∧ rows > 0 <;>
        simp [PyCommand.pty, hmask, hsize, bind, Except.bind, pure, Except.pure]
  · simp [PyCommand.pty, hmask, throw, throwThe, MonadExceptOf.throw, bind, Except.bind]

/-- The conflict error stands for a configuration that combines the two, and for that only. -/
theorem Shadows.raises (h : Shadows convert self calls) (hapart : ¬ Combines calls) :
    Call.apply convert self call = .error .ptyConflict ↔ Combines (calls ++ [call]) := by
  cases call with
  | rewrapped checked =>
    exact iff_of_false PyCommand.rewrapped_conflict (combines_snoc hapart rfl rfl nofun)
  | inheritStdin =>
    rw [Call.apply, PyCommand.inheritStdin_conflict, h.pty, combines_of_conflicting rfl (.inl rfl)]
  | stdio stream mode =>
    rw [Call.apply, PyCommand.stdio_conflict, h.pty]
    by_cases hmode : ∃ parsed, stdioMode mode = some parsed ∧ parsed ≠ .piped
    · obtain ⟨parsed, hparsed, hpiped⟩ := hmode
      rw [combines_of_conflicting rfl
        (.inr ⟨stream, by simp [Call.leavesNonPiped, hparsed, hpiped]⟩)]
      exact and_iff_left ⟨parsed, hparsed, hpiped⟩
    · refine iff_of_false (fun hboth => hmode hboth.2) (combines_snoc hapart rfl rfl ?_)
      intro other hleaves
      have hmoved : (stdioMode mode).map (· != .piped) = some true := by
        simp only [Call.leavesNonPiped] at hleaves
        split at hleaves
        · exact hleaves
        · cases hleaves
      obtain ⟨parsed, hparsed, hpiped⟩ := Option.map_eq_some_iff.mp hmoved
      exact hmode ⟨parsed, hparsed, by simpa using hpiped⟩
  | file stream path append =>
    rw [Call.apply, PyCommand.file_conflict, h.pty,
      combines_of_conflicting rfl (.inr ⟨stream, by simp [Call.leavesNonPiped]⟩)]
  | idleTimeout seconds =>
    exact iff_of_false PyCommand.idleTimeoutAfter_conflict (combines_snoc hapart rfl rfl nofun)
  | pty cols rows =>
    rw [Call.apply, PyCommand.pty_conflict, Ne, h.conflicts_eq_zero, combines_pty]
    constructor
    · intro hnot
      by_contra hnone
      rw [not_or, not_exists] at hnone
      exact hnot ⟨by simpa using hnone.1, fun stream => by simpa using hnone.2 stream⟩
    · rintro (hstdin | ⟨stream, hstream⟩) ⟨hnostdin, hnostream⟩
      · exact absurd hstdin (by simp [hnostdin])
      · exact absurd hstream (by simp [hnostream stream])

/-- A call that raises leaves the command it was made on in force. -/
theorem builder_step (h : (builder convert program args).step self call = some (next, evs)) :
    (∃ err, call.apply convert self = .error err ∧ next = self ∧ evs = [.raised call err]) ∨
      call.apply convert self = .ok next ∧ evs = [.built call] := by
  cases happly : call.apply convert self with
  | error err =>
    simp only [builder, happly, Option.some.injEq, Prod.mk.injEq] at h
    exact .inl ⟨err, rfl, h.1.symm, h.2.symm⟩
  | ok made =>
    simp only [builder, happly, Option.some.injEq, Prod.mk.injEq] at h
    exact .inr ⟨congrArg Except.ok h.1, h.2.symm⟩

theorem builder_shadows (h : (builder convert program args).Reachable self log) :
    Shadows convert self (built log) ∧ ¬ Combines (built log) := by
  refine h.invariant
    (P := fun self log => Shadows convert self (built log) ∧ ¬ Combines (built log))
    ⟨shadows_new program args, by simp [Combines]⟩ ?_
  intro self log call next evs ⟨hshadows, hapart⟩ _ hstep
  rcases builder_step hstep with ⟨err, -, rfl, rfl⟩ | ⟨happly, rfl⟩
  · simpa using ⟨hshadows, hapart⟩
  · have hquiet : ¬ Combines (built log ++ [call]) := by
      intro hcombines
      rw [← hshadows.raises hapart, happly] at hcombines
      cases hcombines
    simpa using ⟨hshadows.step happly, hquiet⟩

/-- Along any chain of builder calls the flag and the mask exclude one another, each
stream's bit is what the last call that configured it left, the conflict error is raised for
exactly the configurations that combine the two, a call that raises changes nothing, and the
idle timeout is the last one set. -/
theorem pty_apart_from_stdio (h : (builder convert program args).Reachable self log) :
    (self.ptyRequested → self.ptyConflicts = 0) ∧
      (∀ stream : Stream, self.ptyConflicts &&& stream.ptyConflict ≠ 0 ↔
        last (Call.leavesNonPiped stream) (built log) = some true) ∧
      (∀ call, Call.apply convert self call = .error .ptyConflict ↔
        Combines (built log ++ [call])) ∧
      (∀ call err, Call.apply convert self call = .error err →
        (builder convert program args).step self call = some (self, [.raised call err])) ∧
      self.idleTimeout = last (Call.setsIdle convert) (built log) := by
  obtain ⟨hshadows, hapart⟩ := builder_shadows h
  refine ⟨hshadows.apart hapart, fun stream => ?_, fun call => hshadows.raises hapart, ?_,
    hshadows.idle⟩
  · rw [hshadows.conflicts, mask_bit, nonPiped, beq_iff_eq]
  · intro call err happly
    simp [builder, happly]

def thirtySeconds : Convert :=
  let refuse {α : Type} : PyResult α := .error (ValueError.newErr "unknown")
  { debug := id
    positiveDuration := fun seconds _ =>
      if seconds = 0x403E000000000000 then .ok 30000000000 else refuse
    nonnegativeDuration := fun _ _ => refuse
    parseSignal := fun _ => refuse
    buildRetryPolicy := fun _ _ _ _ _ => refuse
    parseRetryIf := fun _ => refuse
    parseEncoding := fun _ => refuse
    parseLineTerminator := fun _ => refuse
    isPythonWriter := fun _ => .ok false
    writerSink := fun _ => 0
    rawWriterSink := fun _ => 0
    extractPath := fun _ => refuse
    openTeeSink := fun _ _ => refuse
    parseRlimitResource := fun _ => refuse
    parsePriority := fun _ => refuse
    parseIoPriority := fun _ _ => refuse
    buildOutputBufferPolicy := fun _ _ _ _ => refuse }

/-- A terminal refused for a file, granted once stdout is piped again, and then kept from an
inherited stdin. -/
def ptyOnSecondTry : List Call :=
  [.idleTimeout 0x403E000000000000, .stdoutFile "log" false, .pty none none, .stdout "pipe",
    .pty (some 80) (some 24), .inheritStdin]

theorem pty_apart_on_second_try :
    ∃ self log, (builder thirtySeconds "tool" none).Reachable self log ∧ self.ptyRequested ∧
      (built log).length = 4 ∧ self.ptyConflicts = 0 ∧
      self.idleTimeout = last (Call.setsIdle thirtySeconds) (built log) := by
  obtain ⟨self, log, h, heq⟩ := Machine.reach_replay (m := builder thirtySeconds "tool" none)
    ptyOnSecondTry (fun self log => (self.ptyRequested, (built log).length))
    (fun _ _ _ => trivial) (b := (true, 4)) (by decide +kernel)
  obtain ⟨hpty, hbuilt⟩ := Prod.mk.inj heq
  obtain ⟨hapart, -, -, -, hidle⟩ := pty_apart_from_stdio h
  exact ⟨self, log, h, hpty, hbuilt, hapart hpty, hidle⟩

end ProcessKit.Command

import ProcessKit.Python.Attributes
import ProcessKit.Running.JsonLines

/-!
# The exceptions and what they carry

The stub declares attributes for each exception class. An exception is made from an error of the
crate or by the bindings themselves, and gets its attributes one `setattr` at a time, each behind
its own condition; where a condition may leave one out, the class has a default. So a declared
attribute is there on every exception of its class, and is of its declared type. The one exception
that is made without its attribute is the `Unsupported` of a raw signal number on Windows.

An error of the crate is seen through its accessors, and what is relied on of them is `Documented`.
A finalizing interpreter lets nothing be attached; no Python code sees the exception then.
-/

namespace ProcessKit.Errors

open Python (Classes Instance)
open ProcessKit.Running (InvalidJson LoadsError ParseError invalidJsonLineErr invalidJsonStreamErr
  invalidJsonStdoutChars truncateChars truncateChars_eq)

/-- The exception classes and the builtin ones above them. -/
inductive Class
  | exception | osError | timeoutError | fileNotFoundError | permissionError
  | processError | nonZeroExit | signalled | resourceLimit | unsupported | outputTooLarge
  | cancelled | idleTimeout | invalidJson
  | timeout | processNotFound | permissionDenied | waitTimeout
  deriving DecidableEq

/-- `κ` is the type of the floats. -/
inductive PyValue (κ : Type)
  | none
  | str (text : String)
  | int (n : Int)
  | float (x : κ)
  | bytes (bytes : List UInt8)
  | object (id : Runtime.PyObject)
  deriving DecidableEq

namespace PyValue

def nat (n : Nat) : PyValue κ := .int n

/-- An `Option` as Python sees it. -/
def ofOption (conv : α → PyValue κ) (value : Option α) : PyValue κ := value.elim .none conv

end PyValue

def builtinMro : Class → List Class
  | .osError => [.osError, .exception]
  | .timeoutError => [.timeoutError, .osError, .exception]
  | .fileNotFoundError => [.fileNotFoundError, .osError, .exception]
  | .permissionError => [.permissionError, .osError, .exception]
  | _ => [.exception]

/-- `make_dual_exception`, and `class WaitTimeout(ProcessError, TimeoutError)`. -/
def dualMro (cls native : Class) : List Class := cls :: .processError :: builtinMro native

/-- `create_exception!(_processkit, cls, ProcessError)`. -/
def singleMro (cls : Class) : List Class := [cls, .processError, .exception]

def classes (κ : Type) : Classes Class (PyValue κ) where
  mro
    | .timeout => dualMro .timeout .timeoutError
    | .waitTimeout => dualMro .waitTimeout .timeoutError
    | .processNotFound => dualMro .processNotFound .fileNotFoundError
    | .permissionDenied => dualMro .permissionDenied .permissionError
    | .processError => [.processError, .exception]
    | .exception => builtinMro .exception
    | .osError => builtinMro .osError
    | .timeoutError => builtinMro .timeoutError
    | .fileNotFoundError => builtinMro .fileNotFoundError
    | .permissionError => builtinMro .permissionError
    | cls => singleMro cls
  dict
    | .timeout => [("timeout_seconds", .none)]
    | .processNotFound => [("searched", .none)]
    | .permissionDenied => [("program", .none)]
    | _ => []

structure PyException (κ : Type) extends Instance Class (PyValue κ) where
  message : String

namespace PyException

variable {κ : Type}

def newErr (cls : Class) (message : String) : PyException κ := ⟨⟨cls, []⟩, message⟩

def setattr (err : PyException κ) (name : String) (value : PyValue κ) : PyException κ :=
  { err with toInstance := err.toInstance.setattr name value }

def setattrIf (err : PyException κ) (name : String) (value : Option (PyValue κ)) :
    PyException κ :=
  { err with toInstance := err.toInstance.setattrIf name value }

def getattr (err : PyException κ) (name : String) : Option (PyValue κ) :=
  (classes κ).getattr err.toInstance name

def isinstance (err : PyException κ) (cls : Class) : Bool :=
  (classes κ).isinstance err.toInstance cls

end PyException

-- ---------------------------------------------------------------------------
-- The crate's errors
-- ---------------------------------------------------------------------------

/-- The variants that the mapping looks at; `timeout` is in nanoseconds. -/
inductive ErrorReason
  | exit
  | signalled (signal : Option Int)
  | timeout (timeout : Nat)
  | notFound (searched : Option String)
  | resourceLimit
  | unsupported (operation : String)
  | outputTooLarge (maxLines maxBytes : Option Nat) (totalLines totalBytes : Nat)
  | cancelled
  | other
  deriving DecidableEq

def ErrorReason.bearsStreams : ErrorReason → Bool
  | .exit | .signalled _ | .timeout _ => true
  | _ => false

def ErrorReason.namesProgram : ErrorReason → Bool
  | .exit | .signalled _ | .timeout _ | .notFound _ | .outputTooLarge .. | .cancelled => true
  | .resourceLimit | .unsupported _ | .other => false

/-- `Error`: its reason and what its accessors answer. -/
structure PkError where
  reason : ErrorReason
  text : String
  isTimeout : Bool
  isNotFound : Bool
  isPermissionDenied : Bool
  program : Option String
  code : Option Int
  stdout : Option String
  stderr : Option String
  stdoutBytes : Option (List UInt8)
  diagnostic : Option String

/-- What the crate documents of the accessors and the mapping relies on. -/
structure PkError.Documented (error : PkError) : Prop where
  timeout : error.isTimeout = true → ∃ t, error.reason = .timeout t
  notFound : error.isNotFound = true → ∃ s, error.reason = .notFound s
  program : error.reason.namesProgram = true → error.program.isSome
  code : error.reason = .exit → error.code.isSome
  streams : error.reason.bearsStreams = true → error.stdout.isSome ∧ error.stderr.isSome

-- ---------------------------------------------------------------------------
-- The mapping
-- ---------------------------------------------------------------------------

variable {κ : Type} (asSecs : Nat → κ)

def classOf (error : PkError) : Class :=
  if error.isTimeout then .timeout
  else if error.isNotFound then .processNotFound
  else if error.isPermissionDenied then .permissionDenied
  else
    match error.reason with
    | .exit => .nonZeroExit
    | .signalled _ => .signalled
    | .resourceLimit => .resourceLimit
    | .unsupported _ => .unsupported
    | .outputTooLarge .. => .outputTooLarge
    | .cancelled => .cancelled
    | .timeout _ | .notFound _ | .other => .processError

def attachAccessors (error : PkError) (value : PyException κ) : PyException κ :=
  let value := value.setattrIf "program" (error.program.map .str)
  let value := value.setattrIf "code" (error.code.map .int)
  let value := value.setattrIf "stdout" (error.stdout.map .str)
  let value := value.setattrIf "stderr" (error.stderr.map .str)
  if error.stdout.isSome then
    value.setattr "stdout_bytes" (.ofOption .bytes error.stdoutBytes)
  else value

def attachReason (error : PkError) (value : PyException κ) : PyException κ :=
  match error.reason with
  | .signalled signal =>
    (value.setattr "signal" (.ofOption .int signal)).setattr "diagnostic"
      (.ofOption .str error.diagnostic)
  | .timeout timeout =>
    (value.setattrIf "timeout_seconds"
      (if timeout = 0 then none else some (.float (asSecs timeout)))).setattr "diagnostic"
        (.ofOption .str error.diagnostic)
  | .exit => value.setattr "diagnostic" (.ofOption .str error.diagnostic)
  | .notFound searched => value.setattr "searched" (.ofOption .str searched)
  | .outputTooLarge maxLines maxBytes totalLines totalBytes =>
    (((value.setattr "max_lines" (.ofOption .nat maxLines)).setattr "max_bytes"
      (.ofOption .nat maxBytes)).setattr "total_lines" (.nat totalLines)).setattr
        "total_bytes" (.nat totalBytes)
  | .unsupported operation => value.setattr "operation" (.str operation)
  | .resourceLimit | .cancelled | .other => value

/-- `attached` is whether the interpreter still takes attachments. -/
def mapErrRef (attached : Bool) (error : PkError) : PyException κ :=
  if attached then
    attachReason asSecs error (attachAccessors error (.newErr (classOf error) error.text))
  else .newErr .processError error.text

def unsupportedErr (operation : String) : PyException κ :=
  (PyException.newErr .unsupported s!"{operation} is not supported").setattr "operation"
    (.str operation)

/-- `validate_raw_signal` on Windows: no `operation` is set. -/
def rawSignalErr (raw : Int) : PyException κ :=
  .newErr .unsupported (s!"raw signal number {raw} is not supported on this platform: a Job Object " ++
    "has no POSIX signals, so only the named signal \"kill\" (which maps to a " ++
    "Job Object terminate) is deliverable on Windows.")

def noEndpoint (endpoints waiter : String) : PyException κ :=
  (PyException.newErr .unsupported s!"{endpoints} are not supported on this platform").setattr
    "operation" (.str waiter)

def noNamedPipes : PyException κ := noEndpoint "Windows named pipes" "wait_for_named_pipe"

def noUnixSockets : PyException κ := noEndpoint "Unix-domain sockets" "wait_for_unix_socket"

def idleTimeoutErr (display : κ → String) (seconds : κ) : PyException κ :=
  let shown := display seconds
  (PyException.newErr .idleTimeout (s!"no watched output line for {shown}s (idle timeout); " ++
    "the child produced no activity on this iterator's watched channel within its " ++
    s!"Command.idle_timeout({shown}) window and was killed")).setattr
      "idle_timeout_seconds" (.float seconds)

/-- `.program` and `.stdout`, which all three of the JSON errors get. -/
def ofInvalidJson (error : InvalidJson) : PyException κ :=
  ((PyException.newErr .invalidJson error.message).setattr "program" (.str error.program)).setattr
    "stdout" (.ofOption .str error.stdout)

/-- `none` is the panic of a slice inside a character. -/
def invalidJsonErr (program : String) (stdout : List Char) (parseError : LoadsError) :
    Option InvalidJson := do
  let parserMessage := parseError.str.getD parseError.display
  let fragment ← truncateChars stdout invalidJsonStdoutChars
  return ⟨s!"{program}: command output is not valid JSON: " ++ parserMessage, program,
    some (String.ofList fragment)⟩

def waitTimeout (message : String) (timeoutSeconds : κ) (host : Option String) (port : Option Int)
    (path : Option (PyValue κ)) : PyException κ :=
  ((((PyException.newErr .waitTimeout message).setattr "timeout_seconds"
    (.float timeoutSeconds)).setattr "host" (.ofOption .str host)).setattr "port"
      (.ofOption .int port)).setattr "path" (path.getD .none)

/-- `built` is whether the class was found and could be called. -/
def waitTimeoutErr (built : Bool) (message : String) (timeoutSeconds : κ) : PyException κ :=
  if built then waitTimeout message timeoutSeconds none none none
  else .newErr .processError message

-- ---------------------------------------------------------------------------
-- What the stub declares
-- ---------------------------------------------------------------------------

inductive PyType
  | str | int | float | bytes | strPath
  | optional (type : PyType)

def PyValue.hasType : PyValue κ → PyType → Bool
  | .str _, .str | .int _, .int | .float _, .float | .bytes _, .bytes => true
  | .str _, .strPath | .object _, .strPath | .none, .optional _ => true
  | value, .optional type => value.hasType type
  | _, _ => false

def declared : Class → List (String × PyType)
  | .nonZeroExit => [("program", .str), ("code", .int), ("stdout", .str), ("stderr", .str),
      ("stdout_bytes", .optional .bytes), ("diagnostic", .optional .str)]
  | .timeout => [("program", .str), ("timeout_seconds", .optional .float), ("stdout", .str),
      ("stderr", .str), ("stdout_bytes", .optional .bytes), ("diagnostic", .optional .str)]
  | .signalled => [("program", .str), ("signal", .optional .int), ("stdout", .str),
      ("stderr", .str), ("stdout_bytes", .optional .bytes), ("diagnostic", .optional .str)]
  | .processNotFound => [("program", .str), ("searched", .optional .str)]
  | .permissionDenied => [("program", .optional .str)]
  | .unsupported => [("operation", .str)]
  | .outputTooLarge => [("program", .str), ("max_lines", .optional .int),
      ("max_bytes", .optional .int), ("total_lines", .int), ("total_bytes", .int)]
  | .cancelled => [("program", .str)]
  | .idleTimeout => [("idle_timeout_seconds", .float)]
  | .invalidJson => [("program", .str), ("stdout", .optional .str)]
  | .waitTimeout => [("timeout_seconds", .float), ("host", .optional .str),
      ("port", .optional .int), ("path", .optional .strPath)]
  | _ => []

namespace PyException

theorem isinstance_iff (err : PyException κ) :
    err.isinstance cls = true ↔ cls ∈ (classes κ).mro err.cls := decide_eq_true_iff

def has (err : PyException κ) (decl : String × PyType) : Bool :=
  (err.getattr decl.1).any (·.hasType decl.2)

@[simp] theorem newErr_cls (cls : Class) (text : String) :
    (newErr cls text : PyException κ).cls = cls := rfl

@[simp] theorem setattr_cls (err : PyException κ) : (err.setattr name value).cls = err.cls := rfl

@[simp] theorem setattrIf_cls (err : PyException κ) : (err.setattrIf name value).cls = err.cls :=
  Instance.setattrIf_cls

@[simp] theorem getattr_setattr (err : PyException κ) (name other : String) (value : PyValue κ) :
    (err.setattr name value).getattr other =
      if other = name then some value else err.getattr other :=
  Classes.getattr_setattr ..

@[simp] theorem getattr_setattrIf (err : PyException κ) (name other : String)
    (value : Option (PyValue κ)) : (err.setattrIf name value).getattr other =
      if other = name then value.or (err.getattr other) else err.getattr other :=
  Classes.getattr_setattrIf ..

end PyException

@[simp] theorem hasType_str (text : String) : (PyValue.str text : PyValue κ).hasType .str := rfl
@[simp] theorem hasType_int (n : Int) : (PyValue.int n : PyValue κ).hasType .int := rfl
@[simp] theorem hasType_nat (n : Nat) : (PyValue.nat n : PyValue κ).hasType .int := rfl
@[simp] theorem hasType_bytes (bytes : List UInt8) :
    (PyValue.bytes bytes : PyValue κ).hasType .bytes := rfl
@[simp] theorem hasType_float (x : κ) : (PyValue.float x).hasType .float := rfl

@[simp] theorem hasType_none (type : PyType) :
    (PyValue.none : PyValue κ).hasType (.optional type) := rfl

theorem hasType_optional {value : PyValue κ} (h : value.hasType type) :
    value.hasType (.optional type) := by
  cases value with
  | none => rfl
  | _ => exact h

theorem hasType_ofOption {conv : α → PyValue κ} (value : Option α)
    (h : ∀ a, (conv a).hasType type) : (PyValue.ofOption conv value).hasType (.optional type) := by
  cases value with
  | none => rfl
  | some a => exact hasType_optional (h a)

-- ---------------------------------------------------------------------------
-- What the mapping attaches
-- ---------------------------------------------------------------------------

/-- What an error of the crate says of its attributes, in the order in which they are attached. -/
def PkError.fields (asSecs : Nat → κ) (error : PkError) : List (String × Option (PyValue κ)) :=
  [("program", error.program.map .str), ("code", error.code.map .int),
    ("stdout", error.stdout.map .str), ("stderr", error.stderr.map .str),
    ("stdout_bytes", error.stdout.map fun _ => .ofOption .bytes error.stdoutBytes)] ++
  match error.reason with
  | .signalled signal => [("signal", some (.ofOption .int signal)),
      ("diagnostic", some (.ofOption .str error.diagnostic))]
  | .timeout timeout =>
    [("timeout_seconds", if timeout = 0 then none else some (.float (asSecs timeout))),
      ("diagnostic", some (.ofOption .str error.diagnostic))]
  | .exit => [("diagnostic", some (.ofOption .str error.diagnostic))]
  | .notFound searched => [("searched", some (.ofOption .str searched))]
  | .outputTooLarge maxLines maxBytes totalLines totalBytes =>
    [("max_lines", some (.ofOption .nat maxLines)),
      ("max_bytes", some (.ofOption .nat maxBytes)),
      ("total_lines", some (.nat totalLines)), ("total_bytes", some (.nat totalBytes))]
  | .unsupported operation => [("operation", some (.str operation))]
  | .resourceLimit | .cancelled | .other => []

theorem PkError.fields_nodup (error : PkError) : ((error.fields asSecs).map Prod.fst).Nodup := by
  obtain ⟨reason⟩ := error
  cases reason <;> simp [fields]

theorem mapErrRef_attach (error : PkError) : (mapErrRef asSecs true error).toInstance =
    (⟨classOf error, []⟩ : Instance Class (PyValue κ)).attach (error.fields asSecs) := by
  obtain ⟨reason, text, isTimeout, isNotFound, isPermissionDenied, program, code, stdout⟩ := error
  cases reason <;> cases stdout <;> rfl

theorem mapErrRef_cls (error : PkError) : (mapErrRef asSecs true error).cls = classOf error := by
  rw [mapErrRef_attach, Instance.attach_cls]

/-- An attribute of the exception is what the error says of it, or the default of its class. -/
theorem mapErrRef_getattr (error : PkError) (name : String) :
    (mapErrRef asSecs true error).getattr name =
      (((error.fields asSecs).lookup name).join).or
        ((classes κ).classattr (classOf error) name) := by
  rw [PyException.getattr, mapErrRef_attach, Classes.getattr_attach _ _ (error.fields_nodup asSecs),
    Classes.getattr_new]

-- ---------------------------------------------------------------------------
-- What is declared is there
-- ---------------------------------------------------------------------------

theorem mapErrRef_has {value : PyValue κ}
    (hsaid : ((error.fields asSecs).lookup name).join = some value) (htype : value.hasType type) :
    (mapErrRef asSecs true error).has (name, type) := by
  simp [PyException.has, mapErrRef_getattr, hsaid, htype]

theorem mapErrRef_program (h : error.Documented) (hreason : error.reason.namesProgram = true) :
    (mapErrRef asSecs true error).has ("program", .str) := by
  obtain ⟨program, hprogram⟩ := Option.isSome_iff_exists.mp (h.program hreason)
  have hsaid : ((error.fields asSecs).lookup "program").join = error.program.map .str := rfl
  exact mapErrRef_has asSecs (hsaid.trans (by rw [hprogram]; rfl)) (hasType_str program)

theorem mapErrRef_streams (h : error.Documented) (hreason : error.reason.bearsStreams = true) :
    ∀ decl ∈ [("program", .str), ("stdout", .str), ("stderr", .str),
      ("stdout_bytes", .optional .bytes), ("diagnostic", .optional .str)],
      (mapErrRef asSecs true error).has decl := by
  obtain ⟨hout, herr⟩ := h.streams hreason
  obtain ⟨stdout, hstdout⟩ := Option.isSome_iff_exists.mp hout
  obtain ⟨stderr, hstderr⟩ := Option.isSome_iff_exists.mp herr
  have hprogram : error.reason.namesProgram = true := by
    cases hr : error.reason with
    | exit | signalled | timeout => rfl
    | _ => simp [hr, ErrorReason.bearsStreams] at hreason
  have hdiagnostic : ((error.fields asSecs).lookup "diagnostic").join =
      some (.ofOption .str error.diagnostic) := by
    cases hr : error.reason with
    | exit | signalled | timeout => simp [PkError.fields, hr, List.lookup_cons]
    | _ => simp [hr, ErrorReason.bearsStreams] at hreason
  have hsaid : ∀ {name : String} {value : Option (PyValue κ)},
      (error.fields asSecs).lookup name = some value →
        ((error.fields asSecs).lookup name).join = value := fun h => by rw [h]; rfl
  simp only [List.forall_mem_cons, List.not_mem_nil, false_implies, implies_true, and_true]
  refine ⟨mapErrRef_program asSecs h hprogram, ?_, ?_, ?_, ?_⟩
  · exact mapErrRef_has asSecs ((hsaid rfl).trans (by rw [hstdout]; rfl)) (hasType_str stdout)
  · exact mapErrRef_has asSecs ((hsaid rfl).trans (by rw [hstderr]; rfl)) (hasType_str stderr)
  · exact mapErrRef_has asSecs ((hsaid rfl).trans (by rw [hstdout]; rfl))
      (hasType_ofOption error.stdoutBytes hasType_bytes)
  · exact mapErrRef_has asSecs hdiagnostic (hasType_ofOption error.diagnostic hasType_str)

theorem classOf_reason (h : error.Documented) : match classOf error with
    | .timeout => ∃ t, error.reason = .timeout t
    | .processNotFound => ∃ s, error.reason = .notFound s
    | .nonZeroExit => error.reason = .exit
    | .signalled => ∃ s, error.reason = .signalled s
    | .unsupported => ∃ op, error.reason = .unsupported op
    | .outputTooLarge => ∃ ml mb tl tb, error.reason = .outputTooLarge ml mb tl tb
    | .cancelled => error.reason = .cancelled
    | .processError | .permissionDenied | .resourceLimit => True
    | _ => False := by
  by_cases htimeout : error.isTimeout = true
  · simpa [classOf, htimeout] using h.timeout htimeout
  by_cases hnotFound : error.isNotFound = true
  · simpa [classOf, htimeout, hnotFound] using h.notFound hnotFound
  by_cases hdenied : error.isPermissionDenied = true
  · simp [classOf, htimeout, hnotFound, hdenied]
  · cases hr : error.reason <;> simp [classOf, htimeout, hnotFound, hdenied, hr]

theorem mapErrRef_default
    (hclass : (classes κ).classattr (classOf error) name = some .none)
    (hsaid : ((error.fields asSecs).lookup name).join = none ∨
      ∃ value, ((error.fields asSecs).lookup name).join = some value ∧ value.hasType type) :
    (mapErrRef asSecs true error).has (name, .optional type) := by
  rcases hsaid with hnone | ⟨value, hvalue, htype⟩
  · simp [PyException.has, mapErrRef_getattr, hnone, hclass]
  · exact mapErrRef_has asSecs hvalue (hasType_optional htype)

theorem mapErrRef_declared (h : error.Documented) :
    ∀ decl ∈ declared (classOf error), (mapErrRef asSecs true error).has decl := by
  have hreason := classOf_reason h
  cases hclass : classOf error with
  | timeout =>
    obtain ⟨t, hr⟩ : ∃ t, error.reason = .timeout t := by simpa [hclass] using hreason
    have hown : (mapErrRef asSecs true error).has ("timeout_seconds", .optional .float) := by
      refine mapErrRef_default asSecs (by rw [hclass]; rfl) ?_
      by_cases ht : t = 0
      · exact .inl (by simp [PkError.fields, hr, ht, List.lookup_cons])
      · exact .inr ⟨.float (asSecs t), by simp [PkError.fields, hr, ht, List.lookup_cons], rfl⟩
    have hstreams := mapErrRef_streams asSecs h (by rw [hr]; rfl)
    simp only [declared, List.forall_mem_cons] at hstreams ⊢
    obtain ⟨hprogram, hrest⟩ := hstreams
    exact ⟨hprogram, hown, hrest⟩
  | nonZeroExit =>
    have hr : error.reason = .exit := by simpa [hclass] using hreason
    obtain ⟨code, hcode⟩ := Option.isSome_iff_exists.mp (h.code hr)
    have hown : (mapErrRef asSecs true error).has ("code", .int) :=
      mapErrRef_has asSecs (by simp [PkError.fields, List.lookup_cons, hcode]) (hasType_int code)
    have hstreams := mapErrRef_streams asSecs h (by rw [hr]; rfl)
    simp only [declared, List.forall_mem_cons] at hstreams ⊢
    obtain ⟨hprogram, hrest⟩ := hstreams
    exact ⟨hprogram, hown, hrest⟩
  | signalled =>
    obtain ⟨signal, hr⟩ : ∃ s, error.reason = .signalled s := by simpa [hclass] using hreason
    have hown : (mapErrRef asSecs true error).has ("signal", .optional .int) :=
      mapErrRef_has asSecs (by simp [PkError.fields, hr, List.lookup_cons])
        (hasType_ofOption signal hasType_int)
    have hstreams := mapErrRef_streams asSecs h (by rw [hr]; rfl)
    simp only [declared, List.forall_mem_cons] at hstreams ⊢
    obtain ⟨hprogram, hrest⟩ := hstreams
    exact ⟨hprogram, hown, hrest⟩
  | processNotFound =>
    obtain ⟨searched, hr⟩ : ∃ s, error.reason = .notFound s := by simpa [hclass] using hreason
    have hprogram := mapErrRef_program asSecs h (by rw [hr]; rfl)
    have hown : (mapErrRef asSecs true error).has ("searched", .optional .str) :=
      mapErrRef_has asSecs (by simp [PkError.fields, hr, List.lookup_cons])
        (hasType_ofOption searched hasType_str)
    simpa [declared] using ⟨hprogram, hown⟩
  | unsupported =>
    obtain ⟨operation, hr⟩ : ∃ op, error.reason = .unsupported op := by
      simpa [hclass] using hreason
    have hown : (mapErrRef asSecs true error).has ("operation", .str) :=
      mapErrRef_has asSecs (by simp [PkError.fields, hr, List.lookup_cons]) (hasType_str operation)
    simpa [declared] using hown
  | outputTooLarge =>
    obtain ⟨ml, mb, tl, tb, hr⟩ : ∃ ml mb tl tb, error.reason = .outputTooLarge ml mb tl tb := by
      simpa [hclass] using hreason
    have hprogram := mapErrRef_program asSecs h (by rw [hr]; rfl)
    simp only [declared, List.forall_mem_cons, List.not_mem_nil, false_implies, implies_true,
      and_true]
    refine ⟨hprogram, ?_, ?_, ?_, ?_⟩
    · exact mapErrRef_has asSecs (by simp [PkError.fields, hr, List.lookup_cons])
        (hasType_ofOption ml hasType_nat)
    · exact mapErrRef_has asSecs (by simp [PkError.fields, hr, List.lookup_cons])
        (hasType_ofOption mb hasType_nat)
    · exact mapErrRef_has asSecs (by simp [PkError.fields, hr, List.lookup_cons]; rfl) (hasType_int tl)
    · exact mapErrRef_has asSecs (by simp [PkError.fields, hr, List.lookup_cons]; rfl) (hasType_int tb)
  | cancelled =>
    have hr : error.reason = .cancelled := by simpa [hclass] using hreason
    simpa [declared] using mapErrRef_program asSecs h (by rw [hr]; rfl)
  | permissionDenied =>
    have hown : (mapErrRef asSecs true error).has ("program", .optional .str) := by
      refine mapErrRef_default asSecs (by rw [hclass]; rfl) ?_
      have hsaid : ((error.fields asSecs).lookup "program").join = error.program.map .str := rfl
      rw [hsaid]
      cases error.program with
      | none => exact .inl rfl
      | some program => exact .inr ⟨.str program, rfl, rfl⟩
    simpa [declared] using hown
  | processError | resourceLimit => simp [declared]
  | _ => simp [hclass] at hreason

theorem classOf_mro (error : PkError) : .processError ∈ (classes κ).mro (classOf error) := by
  unfold classOf
  split_ifs
  · simp [classes, dualMro, builtinMro]
  · simp [classes, dualMro, builtinMro]
  · simp [classes, dualMro, builtinMro]
  · cases error.reason <;> simp [classes, singleMro]

-- ---------------------------------------------------------------------------
-- Every exception
-- ---------------------------------------------------------------------------

variable (display : κ → String)

/-- The exceptions that the bindings make while the interpreter takes attachments; an error of the
crate is mapped at any time. -/
inductive Raised : PyException κ → Prop
  | mapErrRef (attached : Bool) : error.Documented → Raised (mapErrRef asSecs attached error)
  | processError (message : String) : Raised (.newErr .processError message)
  | unsupportedErr (operation : String) : Raised (unsupportedErr operation)
  | rawSignalErr (raw : Int) : Raised (rawSignalErr raw)
  | noNamedPipes : Raised noNamedPipes
  | noUnixSockets : Raised noUnixSockets
  | idleTimeoutErr (seconds : κ) : Raised (idleTimeoutErr display seconds)
  | waitTimeoutErr (built : Bool) (message : String) (seconds : κ) :
      Raised (waitTimeoutErr built message seconds)
  | waitTimeout (message : String) (seconds : κ) (host : Option String) (port : Option Int)
      (path : Option (PyValue κ)) : (∀ value ∈ path, value.hasType .strPath) →
      Raised (waitTimeout message seconds host port path)
  | invalidJsonErr : invalidJsonErr program stdout parseError = some error →
      Raised (ofInvalidJson error)
  | invalidJsonLineErr (error : ParseError) : Raised (ofInvalidJson (invalidJsonLineErr error))
  | invalidJsonStreamErr : invalidJsonStreamErr program line raw parseError = some error →
      Raised (ofInvalidJson error)

/-- `except ProcessError` catches it, and it has every attribute that its class declares, unless it
refuses a raw signal number. -/
structure Keeps (err : PyException κ) : Prop where
  processError : err.isinstance .processError = true
  declares : (∀ decl ∈ declared err.cls, err.has decl = true) ↔ ∀ raw, err ≠ rawSignalErr raw

theorem rawSignalErr_lacks (raw : Int) :
    ¬ (rawSignalErr raw : PyException κ).has ("operation", .str) := by
  simp [rawSignalErr, PyException.has, PyException.getattr, PyException.newErr,
    Classes.getattr_new]
  rfl

theorem Keeps.of_declares {err : PyException κ} (herr : err.isinstance .processError = true)
    (hdeclares : ∀ decl ∈ declared err.cls, err.has decl = true) : Keeps err where
  processError := herr
  declares := by
    refine ⟨fun _ raw heq => ?_, fun _ => hdeclares⟩
    subst heq
    exact rawSignalErr_lacks raw (hdeclares ("operation", .str) (.head _))

theorem rawSignalErr_keeps (raw : Int) : Keeps (rawSignalErr raw : PyException κ) where
  processError := rfl
  declares := by
    refine ⟨fun hdeclares => ?_, fun hne => (hne raw rfl).elim⟩
    exact (rawSignalErr_lacks raw (hdeclares ("operation", .str) (.head _))).elim

theorem noEndpoint_keeps (endpoints waiter : String) :
    Keeps (noEndpoint endpoints waiter : PyException κ) :=
  .of_declares rfl (by simp [declared, noEndpoint, PyException.has])

theorem ofInvalidJson_keeps (error : InvalidJson) : Keeps (ofInvalidJson error : PyException κ) :=
  .of_declares rfl (by
    simp [declared, ofInvalidJson, PyException.has, hasType_ofOption error.stdout hasType_str])

theorem waitTimeout_keeps (message : String) (seconds : κ) (host : Option String)
    (port : Option Int) (path : Option (PyValue κ)) (hpath : ∀ value ∈ path, value.hasType .strPath) :
    Keeps (waitTimeout message seconds host port path) := by
  have hpath' : (path.getD .none).hasType (.optional .strPath) := by
    cases path with
    | none => rfl
    | some value => exact hasType_optional (hpath value rfl)
  refine .of_declares rfl ?_
  simp [declared, waitTimeout, PyException.has, hpath', hasType_ofOption host hasType_str,
    hasType_ofOption port hasType_int]

/-- Every exception of the bindings is a `ProcessError`, with all that its class declares except
where a raw signal number is refused. -/
theorem exceptions_keep (h : Raised asSecs display err) : Keeps err := by
  cases h with
  | @mapErrRef error attached hdocumented =>
    cases attached with
    | false => exact .of_declares rfl (by simp [declared, Errors.mapErrRef])
    | true =>
      refine .of_declares ((PyException.isinstance_iff _).mpr ?_) ?_
      · rw [mapErrRef_cls]
        exact classOf_mro error
      · rw [mapErrRef_cls]
        exact mapErrRef_declared asSecs hdocumented
  | processError message => exact .of_declares rfl (by simp [declared])
  | unsupportedErr operation =>
    exact .of_declares rfl (by simp [declared, Errors.unsupportedErr, PyException.has])
  | rawSignalErr raw => exact rawSignalErr_keeps raw
  | noNamedPipes => exact noEndpoint_keeps ..
  | noUnixSockets => exact noEndpoint_keeps ..
  | idleTimeoutErr seconds =>
    exact .of_declares rfl (by simp [declared, Errors.idleTimeoutErr, PyException.has])
  | waitTimeoutErr built message seconds =>
    cases built with
    | false => exact .of_declares rfl (by simp [declared, Errors.waitTimeoutErr])
    | true => exact waitTimeout_keeps message seconds none none none nofun
  | waitTimeout message seconds host port path hpath =>
    exact waitTimeout_keeps message seconds host port path hpath
  | invalidJsonErr | invalidJsonLineErr | invalidJsonStreamErr => exact ofInvalidJson_keeps _

def hungRun : PkError where
  reason := .timeout 0
  text := "tool timed out"
  isTimeout := true
  isNotFound := false
  isPermissionDenied := false
  program := some "tool"
  code := none
  stdout := some ""
  stderr := some ""
  stdoutBytes := none
  diagnostic := none

theorem hungRun_documented : hungRun.Documented := by
  constructor <;> simp [hungRun]

theorem exceptions_keep_hung :
    (mapErrRef id true hungRun).getattr "timeout_seconds" = some .none ∧
      Keeps (mapErrRef id true hungRun) :=
  ⟨by decide, exceptions_keep id toString (.mapErrRef true hungRun_documented)⟩

end ProcessKit.Errors

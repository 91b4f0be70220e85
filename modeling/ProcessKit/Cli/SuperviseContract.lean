import ProcessKit.Cli.RunContract
import ProcessKit.Cli.Supervise

/-!
# The contract of `supervise`

What is supervised is one command, which is what the options ask for, under the settings that
were given; a second supervisor comes only after limits were refused, with the same command
and without the limits. The code says how the supervision ended.
-/

namespace ProcessKit.Cli

open Effects
open Python (PyStr colon ofChar partition partition_append)
open ProcessKit.Runtime (PyErr PyResult)
open ProcessKit.Command (F64 PathBuf PkCall PyCommand Raised Stream applyAll last)
open ProcessKit.Pickle (PkOutcome)

-- ---------------------------------------------------------------------------
-- The endpoint of a health probe
-- ---------------------------------------------------------------------------

theorem rpartition_append {sep : Python.PyChar} {after : PyStr} (h : sep ∉ after)
    (before : PyStr) : rpartition sep (before ++ sep :: after) = some (before, after) := by
  have hrev : (before ++ sep :: after).reverse = after.reverse ++ sep :: before.reverse := by simp
  rw [rpartition, if_pos (by simp), hrev, partition_append (by simpa using h)]
  simp

theorem exists_last {sep : Python.PyChar} {text : PyStr} (h : sep ∈ text) :
    ∃ before after, text = before ++ sep :: after ∧ sep ∉ after := by
  induction text with
  | nil => cases h
  | cons c text ih =>
    by_cases hmem : sep ∈ text
    · obtain ⟨before, after, rfl, hafter⟩ := ih hmem
      exact ⟨c :: before, after, rfl, hafter⟩
    · rcases List.mem_cons.mp h with rfl | h
      · exact ⟨[], text, rfl, hmem⟩
      · exact absurd h hmem

theorem rpartition_eq_some {sep : Python.PyChar} {text before after : PyStr} :
    rpartition sep text = some (before, after) ↔ text = before ++ sep :: after ∧ sep ∉ after := by
  constructor
  · intro h
    by_cases hmem : sep ∈ text
    · obtain ⟨before', after', rfl, hafter⟩ := exists_last hmem
      rw [rpartition_append hafter] at h
      cases h
      exact ⟨rfl, hafter⟩
    · rw [rpartition, if_neg hmem] at h
      cases h
  · rintro ⟨rfl, hafter⟩
    exact rpartition_append hafter before

def Writes (endpoint host rawPort : PyStr) : Prop :=
  (endpoint = openBracket :: (host ++ closeBracket :: colon :: rawPort) ∧ closeBracket ∉ host) ∨
    endpoint = host ++ colon :: rawPort ∧ endpoint.head? ≠ some openBracket ∧
      colon ∉ host ∧ colon ∉ rawPort

theorem idxOf?_append_cons {c : Python.PyChar} {before : PyStr} (h : c ∉ before) (after : PyStr) :
    (before ++ c :: after).idxOf? c = some before.length := by
  rw [List.idxOf?_eq_some_iff]
  refine ⟨by simp, by simp, fun j hj heq => h ?_⟩
  rw [List.getElem_append_left hj] at heq
  exact heq ▸ List.getElem_mem hj

theorem splitEndpoint_bracketed {inner host rawPort : PyStr} :
    splitEndpoint (openBracket :: inner) = some (host, rawPort) ↔
      inner = host ++ closeBracket :: colon :: rawPort ∧ closeBracket ∉ host := by
  rw [splitEndpoint, if_pos (by simp)]
  by_cases hmem : closeBracket ∈ inner
  · obtain ⟨before, after, rfl, hbefore⟩ := List.eq_append_cons_of_mem hmem
    have hfront : closeBracket ∉ openBracket :: before := by
      simpa [hbefore] using (by decide : closeBracket ≠ openBracket)
    rw [← List.cons_append, idxOf?_append_cons hfront]
    have hnext : (openBracket :: before ++ closeBracket :: after)[(openBracket :: before).length + 1]?
        = after.head? := by
      rw [List.getElem?_append_right (by omega)]
      cases after <;> simp
    simp only [hnext]
    constructor
    · intro h
      split at h
      next hcolon =>
        obtain ⟨rest, rfl⟩ := List.head?_eq_some_iff.mp hcolon
        simp only [List.take_left', List.drop_one, List.tail_cons, Option.some.injEq,
          Prod.mk.injEq] at h
        obtain ⟨rfl, rfl⟩ := h
        simp [hbefore]
      next => cases h
    · rintro ⟨heq, hhost⟩
      have hparts := partition_append hbefore after
      rw [heq, partition_append hhost] at hparts
      cases hparts
      simp
  · have hnone : (openBracket :: inner).idxOf? closeBracket = none := by
      rw [List.idxOf?_eq_none_iff]
      simpa [hmem] using (by decide : closeBracket ≠ openBracket)
    rw [hnone]
    constructor
    · nofun
    · rintro ⟨rfl, -⟩
      exact absurd (by simp) hmem

theorem splitEndpoint_iff {endpoint host rawPort : PyStr} :
    splitEndpoint endpoint = some (host, rawPort) ↔ Writes endpoint host rawPort := by
  by_cases hbracket : endpoint.head? = some openBracket
  · obtain ⟨inner, rfl⟩ := List.head?_eq_some_iff.mp hbracket
    rw [splitEndpoint_bracketed]
    simp [Writes]
  · have hfirst : ∀ inner, endpoint ≠ openBracket :: inner := by
      rintro inner rfl
      exact hbracket rfl
    rw [splitEndpoint, if_neg hbracket]
    simp only [Writes, hfirst, false_and, false_or, ne_eq, hbracket, not_false_eq_true, true_and]
    cases hparts : rpartition colon endpoint with
    | none =>
      refine ⟨nofun, ?_⟩
      rintro ⟨rfl, -, hraw⟩
      rw [rpartition_append hraw] at hparts
      cases hparts
    | some parts =>
      obtain ⟨before, after⟩ := parts
      obtain ⟨rfl, hafter⟩ := rpartition_eq_some.mp hparts
      constructor
      · intro h
        by_cases hbefore : colon ∈ before
        · simp [hbefore] at h
        · simp only [hbefore, ite_false, Option.some.injEq, Prod.mk.injEq] at h
          obtain ⟨rfl, rfl⟩ := h
          exact ⟨rfl, hbefore, hafter⟩
      · rintro ⟨heq, hhost, hraw⟩
        have hsame := rpartition_append hraw host
        rw [← heq, hparts] at hsame
        cases hsame
        simp [hhost]

theorem parseHealthPort_reads {int : PyStr → Option Int} {endpoint host : PyStr} {port : Nat}
    (h : parseHealthPort int endpoint = .ok (host, port)) :
    ∃ rawPort, Writes endpoint host rawPort ∧ host ≠ [] ∧ int rawPort = some (port : Int) ∧
      1 ≤ port ∧ port ≤ 65535 := by
  rw [parseHealthPort] at h
  split at h
  next => cases h
  next host' rawPort hsplit =>
    split at h
    next => cases h
    next hhost =>
      split at h
      next => cases h
      next value hint =>
        split at h
        next hrange =>
          cases h
          refine ⟨rawPort, splitEndpoint_iff.mp hsplit, hhost, ?_, by omega, by omega⟩
          rw [hint, Int.toNat_of_nonneg (by omega)]
        next => cases h

/-- What is accepted is a host and a port, as they are written, and nothing else is. -/
theorem parseHealthPort_iff (int : PyStr → Option Int) (endpoint host : PyStr) (port : Nat) :
    parseHealthPort int endpoint = .ok (host, port) ↔
      ∃ rawPort, Writes endpoint host rawPort ∧ host ≠ [] ∧ int rawPort = some (port : Int) ∧
        1 ≤ port ∧ port ≤ 65535 := by
  refine ⟨parseHealthPort_reads, ?_⟩
  rintro ⟨rawPort, hwrites, hhost, hint, hlow, hhigh⟩
  have hrange : (1 : Int) ≤ port ∧ (port : Int) ≤ 65535 := by omega
  simp [parseHealthPort, splitEndpoint_iff.mpr hwrites, hhost, hint, hrange]

-- ---------------------------------------------------------------------------
-- The machine
-- ---------------------------------------------------------------------------

/-- How far a supervision is. `asked` is which streams were looked for, with the answers. -/
inductive Supervision
  | setup (asked : List (StdStream × Bool))
  | refused (exc : Exc) (command : PyCommand)
  | uncapped (command : PyCommand)
  | ended (outcome : SupervisionOutcome)
  | raised (exc : Exc)
  | failed (exc : Exc)

def attached (asked : List (StdStream × Bool)) : List StdStream := (asked.filter (·.2)).map (·.1)

theorem attached_append (asked more : List (StdStream × Bool)) :
    attached (asked ++ more) = attached asked ++ attached more := by
  simp [attached]

def superviseCode (outcome : SupervisionOutcome) : Int :=
  if outcome.stopped ∈ ["policy_satisfied", "predicate", "unhealthy"] then
    match outcome.finalResult with
    | .exited code => code.toInt
    | .signalled (some signal) => exitSignalBase + signal.toInt
    | .signalled none => exitSuperviseInternalError
    | .timedOut => exitTimeout
  else if outcome.stopped = "restarts_exhausted" then exitSuperviseRestartsExhausted
  else if outcome.stopped = "gave_up" then exitSuperviseGaveUp
  else exitSuperviseInternalError

def Exc.guarded : Exc → Except Exc Int
  | .process .. => .ok exitSuperviseInternalError
  | .keyboardInterrupt => .ok (exitSignalBase + sigint)
  | exc => .error exc

/-- How a sink shows a stream's lines: as the writer that the stream is, or a file. -/
def Shows (host : Host) (stream : StdStream) (sink : Command.PkValue) : Prop :=
  let object := host.stream stream
  host.convert.isPythonWriter object = .ok true ∧ sink = host.convert.writerSink object ∨
    host.convert.isPythonWriter object = .ok false ∧ ∃ path,
      host.convert.extractPath object = .ok path ∧ host.convert.openTeeSink path false = .ok sink

/-- Option by option, what the crate is told of it; of nothing else is it told. -/
structure SuperviseTold (host : Host) (args : SuperviseArgs) (pairs : List Pair)
    (rest : List PathBuf) (streams : List StdStream) (calls : List PkCall) : Prop where
  child : ∀ given, .setting (.args given) ∈ calls ↔ given = rest
  stdin : .inheritStdin ∈ calls
  stdoutTee : ∀ sink, .setting (.stdoutTee sink) ∈ calls ↔
    .stdout ∈ streams ∧ Shows host .stdout sink
  stderrTee : ∀ sink, .setting (.stderrTee sink) ∈ calls ↔
    .stderr ∈ streams ∧ Shows host .stderr sink
  timeout : Command.Sets calls .timeout
    (args.timeout.mapM (host.convert.positiveDuration · "timeout"))
  createNoWindow : .setting .createNoWindow ∈ calls ↔ args.createNoWindow = true
  cpuAffinity : Command.Sets calls .cpuAffinity (args.cpuAffinity.mapM (·.mapM host.usize))
  environment : calls.filterMap envChange = (if args.envClear then [.clear] else []) ++
    inheritChanges args.inheritEnv ++ pairs.map fun pair => .set pair.1 pair.2
  cwd : calls.filterMap currentDir = args.cwd.toList.map host.osPath
  nothingElse : ∀ setting, .setting setting ∈ calls →
    IsOption setting ∨ ∃ sink, setting = .stdoutTee sink ∨ setting = .stderrTee sink

/-- The command is what the options ask for, its output piped and shown on the streams that
the wrapper has. -/
structure Supervised (host : Host) (args : SuperviseArgs) (pairs : List Pair) (program : PathBuf)
    (rest : List PathBuf) (streams : List StdStream) (command : PyCommand) : Prop where
  program : command.inner.program = program
  told : SuperviseTold host args pairs rest streams command.inner.calls
  noPty : command.ptyRequested = false
  noIdle : command.idleTimeout = none
  piped : ∀ stream, last (PkCall.destination stream) command.inner.calls = none
  inForce : ∀ key value, (commandBuilder host).lastValue key pairs = some value →
    (commandBuilder host).inForce command key = some value

/-- Setting by setting, what the supervisor is given. -/
structure Given (args : SuperviseArgs) (probe : Option HealthProbe) (limits : Limits)
    (given : SupervisorKwargs) : Prop where
  restart : given.restart = args.restart
  maxRestarts : given.maxRestarts = args.maxRestarts
  backoffInitial : given.backoffInitial = args.backoffInitial
  backoffFactor : given.backoffFactor = args.backoffFactor
  maxBackoff : given.maxBackoff = args.maxBackoff
  noJitter : args.noJitter = true → given.jitter = some false
  jitter : args.noJitter = false → given.jitter = none
  healthCheck : given.healthCheck = probe
  interval : probe.isSome → ∀ seconds, given.healthCheckInterval = some seconds ↔
    args.healthInterval = some seconds ∨ args.healthInterval = none ∧ seconds = fiveSeconds
  noInterval : probe = none → given.healthCheckInterval = none
  limits : given.limits = limits

/-- The probe that the options ask for. -/
inductive Probes (python : UrlHost) (args : SuperviseArgs) : Option HealthProbe → Prop
  | none (hport : args.healthPort = .none) (hhttp : args.healthHttp = .none)
    (hinterval : args.healthInterval = .none) (htimeout : args.healthTimeout = .none) :
    Probes python args .none
  | port {port : Nat} (h : args.healthPort = some endpoint) (hwrites : Writes endpoint host rawPort)
    (hhost : host ≠ []) (hint : python.int rawPort = some (port : Int)) (hlow : 1 ≤ port)
    (hhigh : port ≤ 65535) :
    Probes python args (some (.port host port (args.healthTimeout.getD oneSecond)))
  | http (hport : args.healthPort = .none) (h : args.healthHttp = some url)
    (hsplit : python.urlsplit url = some (scheme, some hostname)) (hhost : hostname ≠ [])
    (hscheme : scheme = Python.lit "http" ∨ scheme = Python.lit "https") :
    Probes python args (some (.http url (args.healthTimeout.getD oneSecond)))

section Machine

variable (valid : List StdStream → PyCommand → Prop) (limits : Limits)
  (settings : Limits → SupervisorKwargs → Prop)

/-- How a supervisor ends that may be followed by another one. -/
def Supervision.first (command : PyCommand) : Except Exc SupervisionOutcome → Supervision
  | .ok outcome => .ended outcome
  | .error exc => if exc.isRefusal && limits.requested then .refused exc command else .raised exc

def Supervision.second : Except Exc SupervisionOutcome → Supervision
  | .ok outcome => .ended outcome
  | .error exc => .raised exc

def Supervision.emit (ended : Except Exc Unit) : Supervision → Option Supervision
  | .refused _ command =>
    match ended with
    | .ok () => some (.uncapped command)
    | .error exc => some (.raised exc)
  | .ended outcome =>
    match ended with
    | .ok () => some (.ended outcome)
    | .error exc => some (.failed exc)
  | .raised exc =>
    match ended with
    | .ok () => some (.raised exc)
    | .error exc => some (.failed exc)
  | .setup _ | .uncapped _ | .failed _ => none

open scoped Classical in
noncomputable def Supervision.step (supervision : Supervision) :
    Event Op.Answer → Option Supervision
  | ⟨.emit stream _, emitted⟩ =>
    if stream = .stderr then supervision.emit (Emitted.ended emitted) else none
  | ⟨.hasStream stream, present⟩ =>
    match supervision with
    | .setup asked =>
      if (asked.map (·.1)) ++ [stream] <+: [.stdout, .stderr] then
        some (.setup (asked ++ [(stream, (present : Bool))]))
      else none
    | _ => none
  | ⟨.lineBuffer stream, reply⟩ =>
    match supervision, (reply : Except Exc Unit) with
    | .setup asked, .ok () => if stream ∈ attached asked then some (.setup asked) else none
    | .setup asked, .error exc =>
      if stream ∈ attached asked then
        some (if exc.isException then .setup asked else .raised exc)
      else none
    | _, _ => none
  | ⟨.supervise command given, reply⟩ =>
    match supervision with
    | .setup asked =>
      if asked.map (·.1) = [.stdout, .stderr] ∧ settings limits given ∧
          valid (attached asked) command then
        some (.first limits command reply)
      else none
    | .uncapped before =>
      if settings .none given ∧ command = before then some (.second reply) else none
    | _ => none
  | _ => none

def Supervision.Ends : Supervision → Except Exc Int → Prop
  | .setup _, result => ∃ err, result = .error (.ofErr err)
  | .ended outcome, result => result = .ok (superviseCode outcome)
  | .raised exc, result => result = exc.guarded
  | .failed exc, result => result = .error exc
  | .refused .., _ | .uncapped _, _ => False

end Machine

-- ---------------------------------------------------------------------------
-- The parts of a supervision
-- ---------------------------------------------------------------------------

variable {host : Host} {args : SuperviseArgs} {pairs : List Pair} {program : PathBuf}
  {rest : List PathBuf} {valid : List StdStream → PyCommand → Prop} {limits : Limits}
  {settings : Limits → SupervisorKwargs → Prop} {asked : List (StdStream × Bool)} {command next : PyCommand}
  {calls : List Command.Call}

/-- What gets out of the setup: what the builder refuses, or Ctrl+C. -/
def Escaped (stage : Supervision) (exc : Exc) : Prop :=
  stage = .raised exc ∨ ∃ asked err, stage = .setup asked ∧ exc = .ofErr err

attribute [local simp] Supervision.step

theorem build_follows (calls : List Command.Call) (command : PyCommand) :
    Triple (Supervision.step valid limits settings) (.setup asked) (build host calls command)
      (fun stage next => stage = .setup asked ∧
        applyAll host.convert calls command = .ok next) Escaped := by
  rw [build]
  cases happly : applyAll host.convert calls command with
  | ok next => exact .ret ⟨rfl, rfl⟩
  | error raised => exact .raise (.inr ⟨asked, _, rfl, rfl⟩)

theorem lineBufferForTee_follows {stream : StdStream} (h : stream ∈ attached asked) :
    Triple (Supervision.step valid limits settings) (.setup asked) (lineBufferForTee stream)
      (fun stage _ => stage = .setup asked) Escaped := by
  refine Triple.tryCatch (R := fun stage exc =>
    stage = if exc.isException then .setup asked else .raised exc) (.call fun reply => ?_) ?_ ?_
  · cases reply with
    | ok value => exact ⟨.setup asked, by simp [h], rfl⟩
    | error exc => exact ⟨_, by simp only [Supervision.step, h, ite_true], rfl⟩
  · rintro _ exc rfl hnone
    cases hexc : exc.isException <;> simp [hexc] at hnone
    exact .inl rfl
  · rintro _ exc clause rfl hsome
    cases hexc : exc.isException <;> simp [hexc] at hsome
    subst hsome
    exact .ret (by simp)

theorem teed_follows {stream : StdStream} (self : PyCommand)
    (hasked : asked.map (·.1) ++ [stream] <+: [.stdout, .stderr])
    (hcalls : applyAll host.convert calls self = .ok command) :
    Triple (Supervision.step valid limits settings) (.setup asked) (teed host stream command)
      (fun stage next => ∃ present : Bool, stage = .setup (asked ++ [(stream, present)]) ∧
        applyAll host.convert
          (calls ++ (attached [(stream, present)]).map (teeCall host)) self = .ok next)
      Escaped := by
  refine .bind (R := fun stage present => stage = .setup (asked ++ [(stream, present)]))
    (.perform fun present => ⟨_, by simp only [Supervision.step, hasked, ite_true], rfl⟩) ?_
  rintro _ present rfl
  cases present with
  | false => exact .ret ⟨false, rfl, by simpa [attached] using hcalls⟩
  | true =>
    refine .bind (lineBufferForTee_follows (by simp [attached])) ?_
    rintro _ _ rfl
    refine (build_follows _ _).mono ?_ fun _ _ h => h
    rintro _ next ⟨rfl, happly⟩
    exact ⟨true, rfl, Command.applyAll_append hcalls happly⟩

theorem teeCall_setting (stream : StdStream) : IsSetting (teeCall host stream) := by
  cases stream <;> exact ⟨_, rfl⟩

theorem superviseCalls_setting : ∀ call ∈ args.settingCalls host, IsSetting call := by
  intro call hmem
  simp only [SuperviseArgs.settingCalls, List.mem_append, List.mem_map, List.mem_ite_nil_right,
    List.mem_singleton] at hmem
  rcases hmem with (⟨seconds, -, rfl⟩ | ⟨-, rfl⟩) | ⟨cpus, -, rfl⟩
  · exact ⟨_, rfl⟩
  · exact ⟨_, rfl⟩
  · exact isSetting_converting fun cpus => ⟨_, rfl⟩

theorem tee_eq {wrap : Runtime.PyObject → Command.PkValue}
    {set : Command.PkValue → Command.PkSetting} {object : Runtime.PyObject}
    {setting : Command.PkSetting} :
    Command.Call.tee host.convert wrap set object false = .rewrapped (.ok setting) ↔
      ∃ sink, (host.convert.isPythonWriter object = .ok true ∧ sink = wrap object ∨
        host.convert.isPythonWriter object = .ok false ∧ ∃ path,
          host.convert.extractPath object = .ok path ∧
            host.convert.openTeeSink path false = .ok sink) ∧ set sink = setting := by
  rw [Command.Call.tee, Command.Call.rewrapped.injEq, bind_eq_ok]
  constructor
  · rintro ⟨isWriter, hwriter, h⟩
    cases isWriter with
    | true =>
      cases h
      exact ⟨_, .inl ⟨hwriter, rfl⟩, rfl⟩
    | false =>
      obtain ⟨path, hpath, h⟩ := bind_eq_ok.mp h
      obtain ⟨sink, hsink, h⟩ := bind_eq_ok.mp h
      cases h
      exact ⟨sink, .inr ⟨hwriter, path, hpath, hsink⟩, rfl⟩
  · rintro ⟨sink, ⟨hwriter, rfl⟩ | ⟨hwriter, path, hpath, hsink⟩, rfl⟩
    · exact ⟨true, hwriter, rfl⟩
    · exact ⟨false, hwriter, bind_eq_ok.mpr ⟨path, hpath, bind_eq_ok.mpr ⟨sink, hsink, rfl⟩⟩⟩

theorem mem_teeCalls {streams : List StdStream} {setting : Command.PkSetting} :
    .rewrapped (.ok setting) ∈ streams.map (teeCall host) ↔
      (∃ sink, .stdout ∈ streams ∧ Shows host .stdout sink ∧ .stdoutTee sink = setting) ∨
        ∃ sink, .stderr ∈ streams ∧ Shows host .stderr sink ∧ .stderrTee sink = setting := by
  rw [List.mem_map]
  constructor
  · rintro ⟨stream, hmem, hcall⟩
    cases stream with
    | stdout =>
      obtain ⟨sink, hshows, hset⟩ := tee_eq.mp hcall
      exact .inl ⟨sink, hmem, hshows, hset⟩
    | stderr =>
      obtain ⟨sink, hshows, hset⟩ := tee_eq.mp hcall
      exact .inr ⟨sink, hmem, hshows, hset⟩
  · rintro (⟨sink, hmem, hshows, hset⟩ | ⟨sink, hmem, hshows, hset⟩)
    · exact ⟨.stdout, hmem, tee_eq.mpr ⟨sink, hshows, hset⟩⟩
    · exact ⟨.stderr, hmem, tee_eq.mpr ⟨sink, hshows, hset⟩⟩

theorem mem_superviseCalls {setting : Command.PkSetting} :
    .rewrapped (.ok setting) ∈ args.settingCalls host ↔
      (∃ seconds duration, args.timeout = some seconds ∧
        host.convert.positiveDuration seconds "timeout" = .ok duration ∧
          .timeout duration = setting) ∨
      (args.createNoWindow = true ∧ setting = .createNoWindow) ∨
      ∃ cpus converted, args.cpuAffinity = some cpus ∧ cpus.mapM host.usize = .ok converted ∧
        .cpuAffinity converted = setting := by
  simp only [SuperviseArgs.settingCalls, List.mem_append, List.mem_map, List.mem_ite_nil_right,
    List.mem_singleton, Option.mem_toList, converting_eq, or_assoc, Command.Call.timeout,
    Command.Call.createNoWindow, Command.Call.cpuAffinity, rewrapped_map, rewrapped_plain, plain_eq,
    exists_and_left]

theorem superviseParts_silent (host : Host) (args : SuperviseArgs) (streams : List StdStream) :
    ((.inheritStdin :: streams.map (teeCall host) ++ args.settingCalls host).flatMap
        Command.Call.crate).filterMap envChange = [] ∧
      ((.inheritStdin :: streams.map (teeCall host) ++ args.settingCalls host).flatMap
        Command.Call.crate).filterMap currentDir = [] := by
  refine environment_silent fun setting hmem => ?_
  simp only [List.cons_append, List.mem_cons, List.mem_append, reduceCtorEq, false_or] at hmem
  rcases hmem with hmem | hmem
  · rcases mem_teeCalls.mp hmem with ⟨sink, -, -, rfl⟩ | ⟨sink, -, -, rfl⟩ <;> exact id
  · rcases mem_superviseCalls.mp hmem with ⟨_, _, _, _, rfl⟩ | ⟨-, rfl⟩ | ⟨_, _, _, _, rfl⟩ <;>
      exact id

structure SuperviseChain (host : Host) (args : SuperviseArgs) (pairs : List Pair)
    (rest : List PathBuf) (streams : List StdStream) (environment : List Command.Call)
    (calls : List PkCall) : Prop where
  eq : calls = .setting (.args rest) :: (.inheritStdin :: streams.map (teeCall host) ++
    args.settingCalls host ++ environment).flatMap Command.Call.crate
  checked : ∀ checked, .rewrapped checked ∈ .inheritStdin :: streams.map (teeCall host) ++
    args.settingCalls host ++ environment → ∃ setting, checked = .ok setting
  sets : ∀ call ∈ environment, SetsEnvironment call
  changes : (environment.flatMap Command.Call.crate).filterMap envChange =
    (if args.envClear then [.clear] else []) ++ inheritChanges args.inheritEnv ++
      pairs.map fun pair => .set pair.1 pair.2
  dirs : (environment.flatMap Command.Call.crate).filterMap currentDir =
    args.cwd.toList.map host.osPath

namespace SuperviseChain

variable {streams : List StdStream} {environment : List Command.Call} {calls : List PkCall}
  {setting : Command.PkSetting}

theorem mem (hchain : SuperviseChain host args pairs rest streams environment calls) :
    .setting setting ∈ calls ↔ setting = .args rest ∨
      .rewrapped (.ok setting) ∈ streams.map (teeCall host) ∨
        .rewrapped (.ok setting) ∈ args.settingCalls host ∨
          .rewrapped (.ok setting) ∈ environment := by
  rw [hchain.eq, List.mem_cons, Command.mem_flatMap_crate]
  simp

theorem mem_option (hchain : SuperviseChain host args pairs rest streams environment calls)
    (setting : Command.PkSetting) (hset : ¬ IsEnvironment setting) :
    .setting setting ∈ calls ↔ setting = .args rest ∨
      .rewrapped (.ok setting) ∈ streams.map (teeCall host) ∨
        .rewrapped (.ok setting) ∈ args.settingCalls host := by
  have hnot : .rewrapped (.ok setting) ∉ environment := fun hmem =>
    hset (hchain.sets _ hmem).isEnvironment
  simp only [hchain.mem, hnot, or_false]

theorem told (hchain : SuperviseChain host args pairs rest streams environment calls) :
    SuperviseTold host args pairs rest streams calls where
  child given := by
    simp [hchain.mem_option (.args given) id, mem_superviseCalls, mem_teeCalls]
  stdin := by
    rw [hchain.eq]
    simp [Command.Call.crate]
  stdoutTee sink := by
    simp [hchain.mem_option (.stdoutTee sink) id, mem_superviseCalls, mem_teeCalls]
  stderrTee sink := by
    simp [hchain.mem_option (.stderrTee sink) id, mem_superviseCalls, mem_teeCalls]
  timeout := by
    refine .of_option (fun seconds hseconds => ?_) fun value => ?_
    · obtain ⟨setting, hsetting⟩ := hchain.checked
        ((host.convert.positiveDuration seconds "timeout").map .timeout) (by
          simp [SuperviseArgs.settingCalls, hseconds, Command.Call.timeout])
      cases hcheck : host.convert.positiveDuration seconds "timeout" with
      | ok duration => exact ⟨duration, rfl⟩
      | error err =>
        rw [hcheck] at hsetting
        cases hsetting
    · simp [hchain.mem_option (.timeout value) id, mem_superviseCalls, mem_teeCalls]
  createNoWindow := by
    simp [hchain.mem_option .createNoWindow id, mem_superviseCalls, mem_teeCalls]
  cpuAffinity := by
    refine .of_option (fun cpus hcpus => ?_) fun value => ?_
    · cases hconv : cpus.mapM host.usize with
      | ok converted => exact ⟨converted, rfl⟩
      | error err =>
        obtain ⟨setting, hsetting⟩ := hchain.checked (.error err) (by
          simp [SuperviseArgs.settingCalls, hcpus, hconv, converting])
        cases hsetting
    · simp [hchain.mem_option (.cpuAffinity value) id, mem_superviseCalls, mem_teeCalls]
  environment := by
    rw [hchain.eq, List.filterMap_cons_none rfl]
    rw [List.flatMap_append, List.filterMap_append, hchain.changes,
      (superviseParts_silent host args streams).1, List.nil_append]
  cwd := by
    rw [hchain.eq, List.filterMap_cons_none rfl]
    rw [List.flatMap_append, List.filterMap_append, hchain.dirs,
      (superviseParts_silent host args streams).2, List.nil_append]
  nothingElse setting hmem := by
    rcases hchain.mem.mp hmem with rfl | hmem | hmem | hmem
    · exact .inl trivial
    · rcases mem_teeCalls.mp hmem with ⟨sink, -, -, rfl⟩ | ⟨sink, -, -, rfl⟩
      · exact .inr ⟨sink, .inl rfl⟩
      · exact .inr ⟨sink, .inr rfl⟩
    · rcases mem_superviseCalls.mp hmem with ⟨_, _, _, _, rfl⟩ | ⟨-, rfl⟩ | ⟨_, _, _, _, rfl⟩ <;>
        exact .inl trivial
    · have hset := (hchain.sets _ hmem).isEnvironment
      cases setting <;> first | exact .inl trivial | exact hset.elim

end SuperviseChain

/-- A command that a chain of such calls makes is what was asked for. -/
theorem supervised_of_applied {streams : List StdStream}
    (hcalls : applyAll host.convert (.inheritStdin :: streams.map (teeCall host) ++
      args.settingCalls host) (.new program (some rest)) = .ok command)
    (happlied : applyEnvironment (commandBuilder host) command args.envClear args.inheritEnv pairs
      args.cwd = .ok next) :
    Supervised host args pairs program rest streams next := by
  obtain ⟨environment, henvironment, henv, hchanges, hdirs⟩ := environed_apply happlied
  have hall := Command.applyAll_append hcalls henv
  have heq : next.inner = ⟨program, .setting (.args rest) ::
      (.inheritStdin :: streams.map (teeCall host) ++ args.settingCalls host ++
        environment).flatMap Command.Call.crate⟩ := Command.applyAll_tells hall
  have hshadows := (Command.shadows_new program (some rest)).all hall
  have hcases : ∀ call ∈ .inheritStdin :: streams.map (teeCall host) ++ args.settingCalls host ++
      environment, call = .inheritStdin ∨ IsSetting call := by
    intro call hmem
    simp only [List.cons_append, List.mem_cons, List.mem_append, List.mem_map] at hmem
    rcases hmem with rfl | (⟨stream, -, rfl⟩ | hmem) | hmem
    · exact .inl rfl
    · exact .inr (teeCall_setting stream)
    · exact .inr (superviseCalls_setting call hmem)
    · exact .inr (henvironment call hmem).setting
  have hchain : SuperviseChain host args pairs rest streams environment next.inner.calls :=
    ⟨congrArg Command.PkCommand.calls heq, fun checked => Command.applyAll_checked hall,
      henvironment, hchanges, hdirs⟩
  refine ⟨congrArg Command.PkCommand.program heq, hchain.told, ?_, ?_, fun stream => ?_,
    fun key value hvalue => applied_inForce (commandBuilder_lawful host) happlied hvalue⟩
  · rw [hshadows.pty, List.any_eq_false]
    intro call hmem
    rcases hcases call hmem with rfl | ⟨checked, rfl⟩ <;> exact Bool.false_ne_true
  · rw [hshadows.idle, last, List.filterMap_eq_nil_iff.mpr, List.getLast?_nil]
    intro call hmem
    rcases hcases call hmem with rfl | ⟨checked, rfl⟩ <;> rfl
  · rw [heq, last, List.filterMap_cons_none rfl, Command.flatMap_destination,
      List.filterMap_eq_nil_iff.mpr, List.getLast?_nil]
    intro call hmem
    rcases hcases call hmem with rfl | ⟨checked, rfl⟩ <;> rfl

theorem configure_follows (host : Host) (args : SuperviseArgs) (pairs : List Pair)
    (program : PathBuf) (rest : List PathBuf) :
    Triple (Supervision.step valid limits settings) (.setup [])
      (configure host args pairs program rest)
      (fun stage command => ∃ asked, stage = .setup asked ∧
        asked.map (·.1) = [.stdout, .stderr] ∧
        Supervised host args pairs program rest (attached asked) command) Escaped := by
  refine .bind (build_follows _ _) ?_
  rintro _ command ⟨rfl, hstdin⟩
  refine .bind (teed_follows _ (by simp [List.prefix_iff_eq_append]) hstdin) ?_
  rintro _ command ⟨out, rfl, hout⟩
  refine .bind (teed_follows _ (by simp) hout) ?_
  rintro _ command ⟨err, rfl, herr⟩
  refine .bind (build_follows _ _) ?_
  rintro _ command ⟨rfl, hsettings⟩
  have hcalls := Command.applyAll_append herr hsettings
  cases happlied : applyEnvironment (commandBuilder host) command args.envClear args.inheritEnv pairs
      args.cwd with
  | error raised =>
    exact .raise (.inr ⟨_, _, rfl, rfl⟩)
  | ok next =>
    refine .ret ⟨_, rfl, rfl, supervised_of_applied ?_ happlied⟩
    have hboth : attached ([] ++ [(StdStream.stdout, out)] ++ [(StdStream.stderr, err)]) =
        attached [(.stdout, out)] ++ attached [(.stderr, err)] := attached_append _ _
    rw [hboth, List.map_append]
    simpa using hcalls

theorem superviseOrUncapped_follows (args : SuperviseArgs) {kwargs : SupervisorKwargs}
    (hasked : asked.map (·.1) = [.stdout, .stderr]) (hvalid : valid (attached asked) command)
    (hgiven : settings args.limits kwargs) (huncapped : settings .none kwargs.uncapped) :
    Triple (Supervision.step valid args.limits settings) (.setup asked)
      (superviseOrUncapped args kwargs command) (fun stage outcome => stage = .ended outcome)
      Escaped := by
  refine Triple.tryCatch (R := fun stage exc => stage = .first args.limits command (.error exc))
    (.call fun reply => ⟨.first args.limits command reply, by simp [hasked, hvalid, hgiven], ?_⟩)
    ?_ ?_
  · cases reply with
    | ok outcome => exact rfl
    | error exc => exact rfl
  · rintro _ exc rfl hnone
    cases hexc : exc.isRefusal <;> simp [hexc] at hnone
    exact .inl (by simp [Supervision.first, hexc])
  · rintro _ exc clause rfl hsome
    cases hexc : exc.isRefusal <;> simp only [hexc, ite_true, Bool.false_eq_true, ite_false,
      Option.some.injEq, reduceCtorEq] at hsome
    subst hsome
    cases hlimits : args.limits.requested with
    | false => exact .raise (.inl (by simp [Supervision.first, hexc, hlimits]))
    | true =>
      have hfirst : Supervision.first args.limits command (.error exc) = .refused exc command := by
        simp [Supervision.first, hexc, hlimits]
      rw [hfirst]
      refine .bind (R := fun stage _ => stage = .uncapped command) (.call fun emitted => ?_) ?_
      · simp only [Supervision.step, Supervision.emit, ite_true]
        cases Emitted.ended emitted with
        | ok value => exact ⟨_, rfl, rfl⟩
        | error exc => exact ⟨_, rfl, .inl rfl⟩
      · rintro _ _ rfl
        refine .call fun reply => ⟨.second reply, by simp [huncapped], ?_⟩
        cases reply with
        | ok outcome => exact rfl
        | error exc => exact .inl rfl

-- ---------------------------------------------------------------------------
-- All supervisions
-- ---------------------------------------------------------------------------

theorem fail_ended {stage : Supervision} (message : String)
    (hstage : (∃ outcome, stage = .ended outcome) ∨ ∃ exc, stage = .raised exc) :
    Triple (Supervision.step valid limits settings) stage (Wrapper.fail message)
      (fun stage' _ => stage' = stage) (fun stage exc => stage.Ends (.error exc)) := by
  refine .call fun emitted => ?_
  rcases hstage with ⟨outcome, rfl⟩ | ⟨exc, rfl⟩ <;>
    simp only [Supervision.step, Supervision.emit, ite_true] <;>
    cases Emitted.ended emitted with
    | ok value => exact ⟨_, rfl, rfl⟩
    | error exc => exact ⟨_, rfl, rfl⟩

def Guarded (stage : Supervision) : Flow SupervisionOutcome → Prop
  | .returned code => stage.Ends (.ok code)
  | .next outcome => stage = .ended outcome

theorem guarded_follows {stage : Supervision} {body : Wrapper SupervisionOutcome}
    (h : Triple (Supervision.step valid limits settings) stage body
      (fun stage outcome => stage = .ended outcome) Escaped) :
    Triple (Supervision.step valid limits settings) stage (guarded host program body)
      Guarded (fun stage exc => stage.Ends (.error exc)) := by
  refine .tryCatch (.bind h fun stage outcome hstage =>
    .ret (show Guarded stage (.next outcome) from hstage)) ?_ ?_
  · rintro _ exc (rfl | ⟨asked, err, rfl, rfl⟩) hnone
    · cases exc <;> first | rfl | cases hnone
    · exact ⟨err, rfl⟩
  · rintro _ exc clause (rfl | ⟨asked, err, rfl, rfl⟩) hsome
    · cases exc with
      | process cls text =>
        cases hsome
        refine .bind (fail_ended _ (.inr ⟨_, rfl⟩)) ?_
        rintro _ _ rfl
        exact .ret rfl
      | keyboardInterrupt =>
        cases hsome
        refine .bind (fail_ended _ (.inr ⟨_, rfl⟩)) ?_
        rintro _ _ rfl
        exact .ret rfl
      | _ => cases hsome
    · cases hsome

theorem superviseReport_follows (host : Host) (args : SuperviseArgs) (program : PathBuf)
    (outcome : SupervisionOutcome) :
    Triple (Supervision.step valid limits settings) (.ended outcome)
      (superviseReport host args program outcome) (fun stage code => stage.Ends (.ok code))
      (fun stage exc => stage.Ends (.error exc)) := by
  have hdiagnosed (message : String) (code : Int) (hcode : superviseCode outcome = code) :
      Triple (Supervision.step valid limits settings) (.ended outcome)
        ((Wrapper.fail message).bind fun _ => .ret code)
        (fun stage code => stage.Ends (.ok code)) (fun stage exc => stage.Ends (.error exc)) := by
    refine .bind (fail_ended message (.inl ⟨_, rfl⟩)) ?_
    rintro _ _ rfl
    exact .ret (congrArg Except.ok hcode.symm)
  rw [superviseReport]
  split
  next hstopped =>
    cases hfinal : outcome.finalResult with
    | exited code => exact .ret (by simp [Supervision.Ends, superviseCode, hstopped, hfinal])
    | signalled signal =>
      cases signal with
      | none => exact hdiagnosed _ _ (by simp [superviseCode, hstopped, hfinal])
      | some signal => exact hdiagnosed _ _ (by simp [superviseCode, hstopped, hfinal])
    | timedOut => exact hdiagnosed _ _ (by simp [superviseCode, hstopped, hfinal])
  next hstopped =>
    split
    next hexhausted => exact .ret (by simp [Supervision.Ends, superviseCode, hexhausted])
    next hexhausted =>
      split
      next hgave => exact .ret (by simp [Supervision.Ends, superviseCode, hgave])
      next hgave => exact hdiagnosed _ _ (by simp [superviseCode, hstopped, hexhausted, hgave])

inductive Misused (host : Host) (python : UrlHost) (args : SuperviseArgs) : String → Prop
  | factor (factor : F64) (h : args.backoffFactor = some factor) (hlow : factor < oneSecond) :
    Misused host python args "--backoff-factor must be at least 1"
  | idle (h : args.idleTimeout.isSome) : Misused host python args idleUnsupported
  | probe (h : healthProbe python args = .error message) : Misused host python args message
  | environment (h : parseEnvironment args.envFile args.env = .error err) :
    Misused host python args (err.text host.reprStr host.describe)

inductive Supervisions (host : Host) (python : UrlHost) (args : SuperviseArgs) (program : PathBuf)
    (rest : List PathBuf) : List (Event Op.Answer) → Except Exc Int → Prop
  | usage (message : String) (h : Misused host python args message) :
    Supervisions host python args program rest [⟨.usage .supervise message, ()⟩]
      (.error (.systemExit (.int 2)))
  /-- The contract is kept by a command that is what was asked for. -/
  | kept (probe : Option HealthProbe) (pairs : List Pair) (stage : Supervision)
    (hfactor : ∀ factor, args.backoffFactor = some factor → ¬ factor < oneSecond)
    (hidle : args.idleTimeout = none) (hprobe : Probes python args probe)
    (hpairs : parseEnvironment args.envFile args.env = .ok pairs)
    (hfold : trace.foldlM (Supervision.step (Supervised host args pairs program rest)
      args.limits (Given args probe)) (.setup []) = some stage)
    (hends : stage.Ends result) :
    Supervisions host python args program rest trace result

theorem healthProbe_probes {python : UrlHost} {probe : Option HealthProbe}
    (h : healthProbe python args = .ok probe) : Probes python args probe := by
  unfold healthProbe at h
  split at h
  next hport hhttp =>
    split at h
    next => cases h
    next hnone =>
      cases h
      simp only [Bool.or_eq_true, not_or, Option.not_isSome_iff_eq_none] at hnone
      exact .none hport hhttp hnone.1 hnone.2
  next endpoint hport =>
    obtain ⟨⟨host, port⟩, hparse, h⟩ := bind_eq_ok.mp h
    cases h
    obtain ⟨rawPort, hwrites, hhost, hint, hlow, hhigh⟩ := parseHealthPort_reads hparse
    exact .port hport hwrites hhost hint hlow hhigh
  next url hport hhttp =>
    split at h
    next => cases h
    next scheme hostname hsplit =>
      split at h
      next => cases h
      next hgood =>
        cases h
        rw [not_or] at hgood
        obtain ⟨hscheme, hhost⟩ := hgood
        cases hostname with
        | none => exact absurd rfl hhost
        | some hostname =>
          refine .http hport hhttp hsplit hhost ?_
          by_contra hneither
          exact hscheme (not_or.mp hneither)

theorem kwargs_given (args : SuperviseArgs) (probe : Option HealthProbe) :
    Given args probe args.limits (args.kwargs probe) where
  restart := rfl
  maxRestarts := rfl
  backoffInitial := rfl
  backoffFactor := rfl
  maxBackoff := rfl
  noJitter h := by simp [SuperviseArgs.kwargs, h]
  jitter h := by simp [SuperviseArgs.kwargs, h]
  healthCheck := rfl
  interval h seconds := by
    obtain ⟨probe, rfl⟩ := Option.isSome_iff_exists.mp h
    cases hinterval : args.healthInterval with
    | none => simp [SuperviseArgs.kwargs, hinterval, @eq_comm _ fiveSeconds]
    | some asked => simp [SuperviseArgs.kwargs, hinterval]
  noInterval h := by simp [SuperviseArgs.kwargs, h]
  limits := rfl

theorem Given.uncapped {probe : Option HealthProbe} {kwargs : SupervisorKwargs}
    (h : Given args probe limits kwargs) : Given args probe .none kwargs.uncapped :=
  { h with limits := rfl }

theorem parsed_error {python : UrlHost} {message : String}
    (h : args.parsed host python = .error message) : Misused host python args message := by
  unfold SuperviseArgs.parsed at h
  split at h
  next hfactor =>
    cases h
    cases hgiven : args.backoffFactor with
    | none => simp [hgiven] at hfactor
    | some factor => exact .factor factor hgiven (by simpa [hgiven] using hfactor)
  next =>
    split at h
    next hidle =>
      cases h
      exact .idle hidle
    next =>
      cases hprobe : healthProbe python args with
      | error wrong =>
        rw [hprobe] at h
        cases h
        exact .probe hprobe
      | ok probe =>
        rw [hprobe] at h
        cases hparse : parseEnvironment args.envFile args.env with
        | error err =>
          rw [hparse] at h
          cases h
          exact .environment hparse
        | ok pairs =>
          rw [hparse] at h
          cases h

theorem parsed_ok {python : UrlHost} {probe : Option HealthProbe} {pairs : List Pair}
    (h : args.parsed host python = .ok (probe, pairs)) :
    (∀ factor, args.backoffFactor = some factor → ¬ factor < oneSecond) ∧
      args.idleTimeout = none ∧ Probes python args probe ∧
        parseEnvironment args.envFile args.env = .ok pairs := by
  unfold SuperviseArgs.parsed at h
  split at h
  next => cases h
  next hfactor =>
    split at h
    next => cases h
    next hidle =>
      obtain ⟨probe', hprobe, h⟩ := bind_eq_ok.mp h
      obtain ⟨pairs', hpairs, h⟩ := bind_eq_ok.mp h
      cases h
      refine ⟨fun factor heq hlow => hfactor (by simp [heq, hlow]),
        Option.not_isSome_iff_eq_none.mp hidle, healthProbe_probes hprobe, ?_⟩
      cases hparse : parseEnvironment args.envFile args.env with
      | error err =>
        rw [hparse] at hpairs
        cases hpairs
      | ok parsed =>
        rw [hparse] at hpairs
        rw [Except.ok.inj hpairs]

theorem superviseBody_follows (host : Host) (args : SuperviseArgs) (probe : Option HealthProbe)
    (pairs : List Pair) (program : PathBuf) (rest : List PathBuf) :
    Triple (Supervision.step (Supervised host args pairs program rest) args.limits
      (Given args probe)) (.setup [])
      (.bind (guarded host program (.bind (configure host args pairs program rest)
        (superviseOrUncapped args (args.kwargs probe)))) fun flow => match flow with
          | .returned code => .ret code
          | .next outcome => superviseReport host args program outcome)
      (fun stage code => stage.Ends (.ok code)) fun stage exc => stage.Ends (.error exc) := by
  have hgiven := kwargs_given args probe
  refine .bind (guarded_follows (.bind (configure_follows host args pairs program rest) ?_)) ?_
  · rintro _ command ⟨asked, rfl, hasked, hvalid⟩
    exact superviseOrUncapped_follows args hasked hvalid hgiven hgiven.uncapped
  · rintro stage (code | outcome) hflow
    · exact .ret hflow
    · obtain rfl : stage = .ended outcome := hflow
      exact superviseReport_follows host args program outcome

def threeProcesses : SuperviseArgs where
  backoffFactor := none
  idleTimeout := none
  healthPort := none
  healthHttp := none
  healthInterval := none
  healthTimeout := none
  envClear := false
  inheritEnv := []
  env := []
  envFile := []
  cwd := none
  timeout := none
  createNoWindow := false
  cpuAffinity := none
  restart := none
  maxRestarts := none
  backoffInitial := none
  maxBackoff := none
  noJitter := true
  limits := ⟨none, some 3, none⟩

def noUrls : UrlHost := ⟨fun _ => none, fun _ => none⟩

def jobCommand : PyCommand := ⟨⟨"job", [.setting (.args []), .inheritStdin]⟩, none, false, 1⟩

def uncappedTrace : List (Event Op.Answer) :=
  [⟨.hasStream .stdout, false⟩,
    ⟨.hasStream .stderr, false⟩,
    ⟨.supervise jobCommand (threeProcesses.kwargs none), .error (.process .resourceLimit "pids")⟩,
    ⟨.emit .stderr ("processkit: requested resource limits are not supported in this environment " ++
      "(pids); supervising contained, but uncapped."), .gone⟩,
    ⟨.supervise jobCommand (threeProcesses.kwargs none).uncapped,
      .ok ⟨"policy_satisfied", .exited 0⟩⟩]

theorem uncapped_runs :
    Runs (supervise plainHost threeProcesses noUrls "job" []) uncappedTrace (.ok 0) :=
  .ask (.ask (.ask (.ask (.ask .ret))))

end ProcessKit.Cli

import ProcessKit.Cli.Run

/-!
# What `run` builds, starts and returns

The command that is started is the one the options ask for, and no options that pass the
checks of `_run` make the builder refuse one for the sake of another. A child is started in a
group and only there, and the group is left before anything else is done. The code that is
returned says what became of the child.
-/

namespace ProcessKit.Cli

open Effects
open Python (PyStr)
open ProcessKit.Command (F64 PathBuf PkCall PkSetting PyCommand Raised Stream StdioMode Shadows Tells
  applyAll last)
open ProcessKit.Pickle (PkOutcome)

variable {host : Host} {args : RunArgs} {program : PathBuf} {rest : List PathBuf}
  {pairs : List Pair} {command : PyCommand}

-- ---------------------------------------------------------------------------
-- The checks
-- ---------------------------------------------------------------------------

def RunArgs.Accepted (args : RunArgs) : Prop := args.firstError = none

theorem RunArgs.Accepted.check (h : args.Accepted) (message : String)
    (hmem : (wrong, message) ∈ args.checks) : wrong = false := by
  rw [Accepted, firstError, Option.map_eq_none_iff, List.find?_eq_none] at h
  simpa using h _ hmem

theorem RunArgs.Accepted.ptyFiles (h : args.Accepted) (hpty : args.pty = true) :
    args.stdoutFile = none ∧ args.stderrFile = none := by
  have hcheck : (args.pty && (args.stdoutFile.isSome || args.stderrFile.isSome)) = false :=
    h.check "--pty cannot be combined with --stdout-file/--stderr-file" (by simp [checks])
  simpa [hpty, Option.isSome_eq_false_iff] using hcheck

theorem RunArgs.Accepted.ptySize (h : args.Accepted) :
    args.ptyCols.isSome = args.ptyRows.isSome := by
  have hcheck : (args.ptyCols.isNone != args.ptyRows.isNone) = false :=
    h.check "--pty-cols and --pty-rows must be provided together" (by simp [checks])
  cases hcols : args.ptyCols <;> cases hrows : args.ptyRows <;> simp_all

theorem RunArgs.streaming_of_pty (hpty : args.pty = true) : args.streaming = true := by
  simp [streaming, hpty]

-- ---------------------------------------------------------------------------
-- The calls
-- ---------------------------------------------------------------------------

/-- A call that is about none of the terminal, the streams and the idle timeout. -/
def IsSetting (call : Command.Call) : Prop := ∃ checked, call = .rewrapped checked

theorem isSetting_converting {args : Runtime.PyResult α} {call : α → Command.Call}
    (h : ∀ value, IsSetting (call value)) : IsSetting (converting args call) := by
  cases args with
  | ok value => exact h value
  | error err => exact ⟨_, rfl⟩

theorem settingCalls_setting : ∀ call ∈ args.settingCalls host, IsSetting call := by
  intro call hmem
  simp only [RunArgs.settingCalls, List.mem_append, List.mem_map, List.mem_ite_nil_right,
    List.mem_singleton] at hmem
  rcases hmem with (((((⟨n, -, rfl⟩ | ⟨-, rfl⟩) | ⟨-, rfl⟩) | ⟨-, rfl⟩) | ⟨level, -, rfl⟩) |
    ⟨io, -, rfl⟩) | ⟨cpus, -, rfl⟩
  · exact isSetting_converting fun bytes => ⟨_, rfl⟩
  · exact ⟨_, rfl⟩
  · exact ⟨_, rfl⟩
  · exact ⟨_, rfl⟩
  · exact ⟨_, rfl⟩
  · exact ⟨_, rfl⟩
  · exact isSetting_converting fun cpus => ⟨_, rfl⟩

theorem timeoutCalls_setting : ∀ call ∈ args.timeoutCalls host, IsSetting call := by
  intro call hmem
  rw [RunArgs.timeoutCalls] at hmem
  split at hmem
  next => cases hmem
  next seconds _ =>
    rcases List.mem_cons.mp hmem with rfl | hmem
    · exact ⟨_, rfl⟩
    · obtain ⟨grace, -, rfl⟩ := List.mem_map.mp hmem
      exact ⟨_, rfl⟩

theorem SetsEnvironment.setting (h : SetsEnvironment call) : IsSetting call := by
  cases h <;> exact ⟨_, rfl⟩

theorem u16_eq_ok (n : ℕ+) (h : u16 n = .ok converted) : converted ≠ 0 := by
  rw [u16] at h
  split at h
  next hlt =>
    obtain rfl := Except.ok.inj h
    intro hzero
    have hval : (n : Nat) % 2 ^ 16 = 0 := by simpa using congrArg UInt16.toNat hzero
    rw [Nat.mod_eq_of_lt hlt] at hval
    exact n.2.ne' hval
  next => cases h

theorem mapM_u16 {size : Option ℕ+} (h : size.mapM (fun n => u16 n) = .ok converted) :
    converted.isSome = size.isSome ∧ converted ≠ some 0 := by
  cases size with
  | none =>
    cases h
    exact ⟨rfl, nofun⟩
  | some n =>
    obtain ⟨held, hheld, h⟩ := bind_eq_ok.mp h
    cases h
    exact ⟨rfl, by simpa using u16_eq_ok n hheld⟩

theorem mapM_eq_some {size : Option ℕ+} (h : size.mapM (fun n => u16 n) = .ok converted) :
    (∃ n, size = some n ∧ u16 n = .ok held) ↔ some held = converted := by
  cases size with
  | none =>
    cases h
    simp
  | some n =>
    obtain ⟨held', hheld, h⟩ := bind_eq_ok.mp h
    cases h
    have hsame : u16 n = .ok held' := hheld
    simp [hsame, eq_comm]

theorem ptyCall_cases (cols rows : Option ℕ+) :
    (∃ err, ptyCall cols rows = .rewrapped (.error err)) ∨
      ∃ cols' rows', ptyCall cols rows = .pty cols' rows' ∧
        (cols'.isSome = cols.isSome ∧ cols' ≠ some 0) ∧
        rows'.isSome = rows.isSome ∧ rows' ≠ some 0 := by
  rw [ptyCall]
  cases hcols : cols.mapM fun n => u16 n with
  | error err => exact .inl ⟨err, rfl⟩
  | ok cols' =>
    cases hrows : rows.mapM fun n => u16 n with
    | error err => exact .inl ⟨err, rfl⟩
    | ok rows' => exact .inr ⟨cols', rows', rfl, mapM_u16 hcols, mapM_u16 hrows⟩

theorem streamCalls_pty (h : args.Accepted) (hpty : args.pty = true) :
    args.streamCalls =
      ptyCall args.ptyCols args.ptyRows :: args.idleTimeout.toList.map .idleTimeout := by
  obtain ⟨hout, herr⟩ := h.ptyFiles hpty
  simp [RunArgs.streamCalls, hpty, RunArgs.streaming_of_pty hpty, hout, herr]

theorem streamCalls_noPty (hpty : args.pty = false) :
    ∀ call ∈ args.streamCalls, call.asksPty = false := by
  intro call hmem
  simp only [RunArgs.streamCalls, hpty, List.mem_append] at hmem
  rcases hmem with ((hmem | hmem) | hmem) | hmem
  · obtain rfl := List.mem_singleton.mp hmem
    rfl
  · split at hmem
    · obtain ⟨seconds, -, rfl⟩ := List.mem_map.mp hmem
      rfl
    · obtain rfl := List.mem_singleton.mp hmem
      rfl
  · obtain ⟨path, -, rfl⟩ := List.mem_map.mp hmem
    rfl
  · split at hmem
    · obtain rfl := List.mem_singleton.mp hmem
      rfl
    · split at hmem
      · cases hmem
      · obtain rfl := List.mem_singleton.mp hmem
        rfl

theorem streamCalls_apart (h : args.Accepted) (hmore : ∀ call ∈ more, IsSetting call) :
    Command.Apart [] (args.streamCalls ++ more) := by
  cases hpty : args.pty with
  | false =>
    refine Command.apart_of_noPty fun call hmem => ?_
    rcases List.mem_append.mp hmem with hmem | hmem
    · exact streamCalls_noPty hpty call hmem
    · obtain ⟨checked, rfl⟩ := hmore call hmem
      rfl
  | true =>
    rw [streamCalls_pty h hpty]
    refine Command.apart_of_piped fun call hmem => ?_
    rcases List.mem_append.mp hmem with hmem | hmem
    · rcases List.mem_cons.mp hmem with rfl | hmem
      · rcases ptyCall_cases args.ptyCols args.ptyRows with ⟨err, heq⟩ | ⟨cols, rows, heq, -⟩
        · rw [heq]
          exact ⟨rfl, fun _ => rfl⟩
        · rw [heq]
          exact ⟨rfl, fun _ => rfl⟩
      · obtain ⟨seconds, -, rfl⟩ := List.mem_map.mp hmem
        exact ⟨rfl, fun _ => rfl⟩
    · obtain ⟨checked, rfl⟩ := hmore call hmem
      exact ⟨rfl, fun _ => rfl⟩

theorem streamCalls_ptySize (h : args.Accepted) (hmem : .pty cols rows ∈ args.streamCalls) :
    cols.isSome = rows.isSome ∧ cols ≠ some 0 ∧ rows ≠ some 0 := by
  cases hpty : args.pty with
  | false => exact nomatch streamCalls_noPty hpty _ hmem
  | true =>
    rw [streamCalls_pty h hpty] at hmem
    rcases List.mem_cons.mp hmem with heq | hmem
    · rcases ptyCall_cases args.ptyCols args.ptyRows with
        ⟨err, hcall⟩ | ⟨cols', rows', hcall, ⟨hcols, hcols0⟩, hrows, hrows0⟩
      · rw [hcall] at heq
        cases heq
      · rw [hcall] at heq
        obtain ⟨rfl, rfl⟩ := Command.Call.pty.inj heq
        exact ⟨hcols.trans (h.ptySize.trans hrows.symm), hcols0, hrows0⟩
    · obtain ⟨seconds, -, heq⟩ := List.mem_map.mp hmem
      cases heq

-- ---------------------------------------------------------------------------
-- The command
-- ---------------------------------------------------------------------------

theorem buildCommand_ok (h : buildCommand host args pairs program rest = .ok command) :
    ∃ spawned environed,
      applyAll host.convert (args.streamCalls ++ args.settingCalls host)
        (.new program (some rest)) = .ok spawned ∧
      applyEnvironment (commandBuilder host) spawned args.envClear args.inheritEnv pairs args.cwd =
        .ok environed ∧
      applyAll host.convert (args.timeoutCalls host) environed = .ok command := by
  obtain ⟨spawned, hspawned, h⟩ := bind_eq_ok.mp h
  obtain ⟨environed, henvironed, h⟩ := bind_eq_ok.mp h
  refine ⟨spawned, environed, hspawned, ?_, h⟩
  cases henv : applyEnvironment (commandBuilder host) spawned args.envClear args.inheritEnv pairs
      args.cwd with
  | error err =>
    rw [henv] at henvironed
    cases henvironed
  | ok made =>
    rw [henv] at henvironed
    rw [Except.ok.inj henvironed]

theorem applyAll_setting_error {self : PyCommand} (h : ∀ call ∈ calls, IsSetting call)
    (herror : applyAll host.convert calls self = .error raised) : ∃ err, raised = .argument err := by
  obtain ⟨call, hmem, mid, hraise⟩ := Command.applyAll_error herror
  obtain ⟨checked, rfl⟩ := h call hmem
  cases checked with
  | error err =>
    cases hraise
    exact ⟨err, rfl⟩
  | ok setting => cases hraise

/-- A command that options without a contradiction ask for is refused for an argument only. -/
theorem buildCommand_error (h : args.Accepted)
    (hbuild : buildCommand host args pairs program rest = .error raised) :
    ∃ err, raised = .argument err := by
  rw [buildCommand] at hbuild
  cases hspawned : applyAll host.convert (args.streamCalls ++ args.settingCalls host)
      (.new program (some rest)) with
  | error raised' =>
    rw [hspawned] at hbuild
    obtain rfl : raised' = raised := Except.error.inj hbuild
    obtain ⟨call, hmem, mid, hraise⟩ := Command.applyAll_error hspawned
    rcases Command.apply_error hraise with hargument | rfl | ⟨cols, rows, rfl, hsize⟩
    · exact hargument
    · exact absurd hspawned ((Command.shadows_new program (some rest)).unconflicted
        (streamCalls_apart h settingCalls_setting))
    · rcases List.mem_append.mp hmem with hmem | hmem
      · obtain ⟨hboth, hcols, hrows⟩ := streamCalls_ptySize h hmem
        rcases hsize with hsize | hsize | hsize
        · exact absurd hboth hsize
        · exact absurd hsize hcols
        · exact absurd hsize hrows
      · obtain ⟨checked, heq⟩ := settingCalls_setting _ hmem
        cases heq
  | ok spawned =>
    rw [hspawned] at hbuild
    cases henv : applyEnvironment (commandBuilder host) spawned args.envClear args.inheritEnv pairs
        args.cwd with
    | error err =>
      simp only [henv, bind, Except.bind, Except.mapError] at hbuild
      exact ⟨err, (Except.error.inj hbuild).symm⟩
    | ok environed =>
      simp only [henv, bind, Except.bind, Except.mapError] at hbuild
      exact applyAll_setting_error timeoutCalls_setting hbuild

/-- Where the options send a stream; a stream that the wrapper relays stays piped. -/
def RunArgs.destination (args : RunArgs) : Stream → Option Command.Destination
  | .stdout => (args.stdoutFile.map fun path => .file path false).or
      (if args.streaming then none else some (.stdio .inherit))
  | .stderr => (args.stderrFile.map fun path => .file path false).or
      (if args.streaming then none else some (.stdio .inherit))

/-- The settings that the options of a subcommand can come to. -/
def IsOption : PkSetting → Prop
  | .args _ | .outputBuffer _ | .sanitizeVt | .createNoWindow | .killOnParentDeath | .priority _
  | .ioPriority _ | .cpuAffinity _ | .envClear | .inheritEnv _ | .env .. | .currentDir _
  | .timeout _ | .timeoutGrace _ => True
  | _ => False

/-- Option by option, what the crate is told of it; of nothing else is it told. -/
structure RunTold (host : Host) (args : RunArgs) (pairs : List Pair) (rest : List PathBuf)
    (calls : List PkCall) : Prop where
  child : ∀ given, .setting (.args given) ∈ calls ↔ given = rest
  terminal : .usePty ∈ calls ↔ args.pty = true
  size : ∀ cols rows, .ptySize cols rows ∈ calls ↔ ∃ askedCols askedRows,
    args.ptyCols = some askedCols ∧ args.ptyRows = some askedRows ∧
      u16 askedCols = .ok cols ∧ u16 askedRows = .ok rows
  outputLimit : Command.Sets calls .outputBuffer (args.outputLimit.mapM fun n : ℕ+ => do
    host.convert.buildOutputBufferPolicy (some (← host.usize n)) none "error" "output_limit")
  sanitizeVt : .setting .sanitizeVt ∈ calls ↔ args.sanitizeVt = true
  createNoWindow : .setting .createNoWindow ∈ calls ↔ args.createNoWindow = true
  killOnParentDeath : .setting .killOnParentDeath ∈ calls ↔ args.killOnParentDeath = true
  priority : Command.Sets calls .priority (args.priority.mapM host.convert.parsePriority)
  ioPriority : Command.Sets calls .ioPriority
    (args.ioPriority.mapM fun io => host.convert.parseIoPriority io.1 io.2)
  cpuAffinity : Command.Sets calls .cpuAffinity (args.cpuAffinity.mapM (·.mapM host.usize))
  timeout : Command.Sets calls .timeout
    (args.timeout.mapM (host.convert.positiveDuration · "timeout"))
  timeoutGrace : Command.Sets calls .timeoutGrace
    (args.timeoutGrace.mapM (host.convert.nonnegativeDuration · "timeout_grace"))
  environment : calls.filterMap envChange = (if args.envClear then [.clear] else []) ++
    inheritChanges args.inheritEnv ++ pairs.map fun pair => .set pair.1 pair.2
  cwd : calls.filterMap currentDir = args.cwd.toList.map host.osPath
  nothingElse : ∀ setting, .setting setting ∈ calls → IsOption setting

/-- The command is what the options ask for: what the crate was told, option by option, and
what is in force of the terminal, the streams, the idle timeout and the environment. -/
structure Asked (host : Host) (args : RunArgs) (pairs : List Pair) (program : PathBuf)
    (rest : List PathBuf) (command : PyCommand) : Prop where
  program : command.inner.program = program
  told : RunTold host args pairs rest command.inner.calls
  pty : command.ptyRequested = args.pty
  stdin : command.inner.calls.any PkCall.inherits = !args.pty
  streams : ∀ stream, last (PkCall.destination stream) command.inner.calls = args.destination stream
  idle : ∀ seconds, args.idleTimeout = some seconds →
    host.convert.positiveDuration seconds "idle_timeout" = .ok duration →
      command.idleTimeout = some duration
  noIdle : args.idleTimeout = none → command.idleTimeout = none
  inForce : ∀ key value, (commandBuilder host).lastValue key pairs = some value →
    (commandBuilder host).inForce command key = some value

-- ---------------------------------------------------------------------------
-- Option by option
-- ---------------------------------------------------------------------------

theorem rewrapped_map {set : β → PkSetting} {checked : Runtime.PyResult β} {setting : PkSetting} :
    Command.Call.rewrapped (checked.map set) = .rewrapped (.ok setting) ↔
      ∃ b, checked = .ok b ∧ set b = setting := by
  cases checked <;> simp [Except.map]

theorem map_rewrapped {set : β → PkSetting} {checked : Runtime.PyResult β} {setting : PkSetting} :
    .rewrapped (.ok setting) = Command.Call.rewrapped (checked.map set) ↔
      ∃ b, checked = .ok b ∧ set b = setting := by
  rw [eq_comm, rewrapped_map]

theorem rewrapped_plain {given setting : PkSetting} :
    .rewrapped (.ok setting) = Command.Call.plain given ↔ setting = given := by
  simp [Command.Call.plain]

theorem plain_eq {given setting : PkSetting} :
    Command.Call.plain given = .rewrapped (.ok setting) ↔ given = setting := by
  simp [Command.Call.plain]

theorem converting_eq {args : Runtime.PyResult α} {call : α → Command.Call} {setting : PkSetting} :
    converting args call = .rewrapped (.ok setting) ↔
      ∃ a, args = .ok a ∧ call a = .rewrapped (.ok setting) := by
  cases args <;> simp [converting]

theorem mem_settingCalls {setting : PkSetting} :
    .rewrapped (.ok setting) ∈ args.settingCalls host ↔
      (∃ n bytes policy, args.outputLimit = some n ∧ host.usize n = .ok bytes ∧
        host.convert.buildOutputBufferPolicy (some bytes) none "error" "output_limit" = .ok policy ∧
          .outputBuffer policy = setting) ∨
      (args.sanitizeVt = true ∧ setting = .sanitizeVt) ∨
      (args.createNoWindow = true ∧ setting = .createNoWindow) ∨
      (args.killOnParentDeath = true ∧ setting = .killOnParentDeath) ∨
      (∃ level value, args.priority = some level ∧ host.convert.parsePriority level = .ok value ∧
        .priority value = setting) ∨
      (∃ io value, args.ioPriority = some io ∧
        host.convert.parseIoPriority io.1 io.2 = .ok value ∧ .ioPriority value = setting) ∨
      ∃ cpus converted, args.cpuAffinity = some cpus ∧ cpus.mapM host.usize = .ok converted ∧
        .cpuAffinity converted = setting := by
  simp only [RunArgs.settingCalls, List.mem_append, List.mem_map, List.mem_ite_nil_right,
    List.mem_singleton, Option.mem_toList, converting_eq, or_assoc, Command.Call.outputLimit,
    Command.Call.priority, Command.Call.ioPriority, Command.Call.sanitizeVt,
    Command.Call.createNoWindow, Command.Call.killOnParentDeath, Command.Call.cpuAffinity,
    rewrapped_map, rewrapped_plain, plain_eq, exists_and_left]
  simp

theorem mem_timeoutCalls (h : args.Accepted) {setting : PkSetting} :
    .rewrapped (.ok setting) ∈ args.timeoutCalls host ↔
      (∃ seconds duration, args.timeout = some seconds ∧
        host.convert.positiveDuration seconds "timeout" = .ok duration ∧
          .timeout duration = setting) ∨
      ∃ seconds duration, args.timeoutGrace = some seconds ∧
        host.convert.nonnegativeDuration seconds "timeout_grace" = .ok duration ∧
          .timeoutGrace duration = setting := by
  have hgrace : (args.timeoutGrace.isSome && args.timeout.isNone) = false :=
    h.check "--timeout-grace requires --timeout" (by simp [RunArgs.checks])
  cases htimeout : args.timeout with
  | none =>
    have hnone : args.timeoutGrace = none := by simpa [htimeout] using hgrace
    simp [RunArgs.timeoutCalls, htimeout, hnone]
  | some seconds =>
    simp only [RunArgs.timeoutCalls, htimeout, List.mem_cons, List.mem_map, Option.mem_toList,
      Command.Call.timeout, Command.Call.timeoutGrace, rewrapped_map, map_rewrapped]
    simp

structure RunChain (host : Host) (args : RunArgs) (pairs : List Pair) (rest : List PathBuf)
    (environment : List Command.Call) (calls : List PkCall) : Prop where
  eq : calls = .setting (.args rest) :: (args.streamCalls ++ args.settingCalls host ++ environment ++
    args.timeoutCalls host).flatMap Command.Call.crate
  checked : ∀ checked, .rewrapped checked ∈ args.streamCalls ++ args.settingCalls host ++
    environment ++ args.timeoutCalls host → ∃ setting, checked = .ok setting
  sets : ∀ call ∈ environment, SetsEnvironment call
  changes : (environment.flatMap Command.Call.crate).filterMap envChange =
    (if args.envClear then [.clear] else []) ++ inheritChanges args.inheritEnv ++
      pairs.map fun pair => .set pair.1 pair.2
  dirs : (environment.flatMap Command.Call.crate).filterMap currentDir =
    args.cwd.toList.map host.osPath

section Chain

variable {environment : List Command.Call} {calls : List PkCall} {setting : PkSetting}

theorem streamCalls_unsettled (h : args.Accepted) :
    .rewrapped (.ok setting) ∉ args.streamCalls := by
  intro hmem
  cases hpty : args.pty with
  | true =>
    rw [streamCalls_pty h hpty] at hmem
    rcases List.mem_cons.mp hmem with heq | hmem
    · rcases ptyCall_cases args.ptyCols args.ptyRows with ⟨err, hcall⟩ | ⟨cols, rows, hcall, -⟩
      · rw [hcall] at heq
        cases heq
      · rw [hcall] at heq
        cases heq
    · simp at hmem
  | false =>
    simp only [RunArgs.streamCalls, hpty, List.mem_append, Command.Call.stdout,
      Command.Call.stderr, Command.Call.stdoutFile, Command.Call.stderrFile] at hmem
    rcases hmem with ((hmem | hmem) | hmem) | hmem
    · simp at hmem
    · split at hmem <;> simp at hmem
    · simp at hmem
    · split at hmem
      · simp at hmem
      · split at hmem <;> simp at hmem

theorem parts_silent (host : Host) (h : args.Accepted) :
    ∀ part ∈ [args.streamCalls, args.settingCalls host, args.timeoutCalls host],
      (part.flatMap Command.Call.crate).filterMap envChange = [] ∧
        (part.flatMap Command.Call.crate).filterMap currentDir = [] := by
  simp only [List.mem_cons, List.not_mem_nil, or_false]
  rintro part (rfl | rfl | rfl) <;> refine environment_silent fun setting hmem => ?_
  · exact absurd hmem (streamCalls_unsettled h)
  · rcases mem_settingCalls.mp hmem with ⟨_, _, _, _, _, _, rfl⟩ | ⟨-, rfl⟩ | ⟨-, rfl⟩ | ⟨-, rfl⟩ |
      ⟨_, _, _, _, rfl⟩ | ⟨_, _, _, _, rfl⟩ | ⟨_, _, _, _, rfl⟩ <;> exact id
  · rcases (mem_timeoutCalls h).mp hmem with ⟨_, _, _, _, rfl⟩ | ⟨_, _, _, _, rfl⟩ <;> exact id

namespace RunChain

theorem mem (h : args.Accepted) (hchain : RunChain host args pairs rest environment calls) :
    .setting setting ∈ calls ↔ setting = .args rest ∨ .rewrapped (.ok setting) ∈ args.settingCalls host
      ∨ .rewrapped (.ok setting) ∈ environment ∨
        .rewrapped (.ok setting) ∈ args.timeoutCalls host := by
  rw [hchain.eq, List.mem_cons, Command.mem_flatMap_crate]
  simp [streamCalls_unsettled h]

theorem mem_option (h : args.Accepted) (hchain : RunChain host args pairs rest environment calls)
    (setting : PkSetting) (hset : ¬ IsEnvironment setting) :
    .setting setting ∈ calls ↔ setting = .args rest ∨ .rewrapped (.ok setting) ∈ args.settingCalls host
      ∨ .rewrapped (.ok setting) ∈ args.timeoutCalls host := by
  have hnot : .rewrapped (.ok setting) ∉ environment := fun hmem =>
    hset (hchain.sets _ hmem).isEnvironment
  simp [hchain.mem h, hnot]

theorem converted (hchain : RunChain host args pairs rest environment calls) (set : β → PkSetting)
    {value : Runtime.PyResult β}
    (hmem : .rewrapped (value.map set) ∈ args.settingCalls host ∨
      .rewrapped (value.map set) ∈ args.timeoutCalls host) : ∃ b, value = .ok b := by
  obtain ⟨setting, hsetting⟩ := hchain.checked (value.map set) (by rcases hmem with h | h <;> simp [h])
  cases value with
  | ok b => exact ⟨b, rfl⟩
  | error err => cases hsetting

theorem convertedFirst (hchain : RunChain host args pairs rest environment calls)
    {first : Runtime.PyResult α} (call : α → Command.Call)
    (hmem : converting first call ∈ args.settingCalls host) : ∃ a, first = .ok a := by
  cases first with
  | ok a => exact ⟨a, rfl⟩
  | error err =>
    have hchecked := hchain.checked (.error err)
    simp only [List.mem_append] at hchecked
    obtain ⟨setting, hsetting⟩ := hchecked (.inl (.inl (.inr hmem)))
    cases hsetting

theorem mem_streamCalls (hchain : RunChain host args pairs rest environment calls)
    (hasks : call.asksPty = true)
    (hmem : call ∈ args.streamCalls ++ args.settingCalls host ++ environment ++
      args.timeoutCalls host) : call ∈ args.streamCalls := by
  have hnot : ¬ IsSetting call := by
    rintro ⟨checked, rfl⟩
    cases hasks
  simp only [List.mem_append] at hmem
  rcases hmem with ((hmem | hmem) | hmem) | hmem
  · exact hmem
  · exact absurd (settingCalls_setting call hmem) hnot
  · exact absurd (hchain.sets call hmem).setting hnot
  · exact absurd (timeoutCalls_setting call hmem) hnot

theorem streamCalls_eq (h : args.Accepted)
    (hchain : RunChain host args pairs rest environment calls) (hpty : args.pty = true) :
    ∃ cols rows, args.ptyCols.mapM (fun n => u16 n) = .ok cols ∧
      args.ptyRows.mapM (fun n => u16 n) = .ok rows ∧
      args.streamCalls = .pty cols rows :: args.idleTimeout.toList.map .idleTimeout := by
  have hcall := streamCalls_pty h hpty
  have hchecked (err : Runtime.PyErr)
      (heq : ptyCall args.ptyCols args.ptyRows = .rewrapped (.error err)) : False := by
    obtain ⟨setting, hsetting⟩ := hchain.checked (.error err) (by simp [hcall, heq])
    cases hsetting
  cases hcols : args.ptyCols.mapM fun n => u16 n with
  | error err => exact (hchecked err (by rw [ptyCall, hcols]; rfl)).elim
  | ok cols =>
    cases hrows : args.ptyRows.mapM fun n => u16 n with
    | error err => exact (hchecked err (by rw [ptyCall, hcols, hrows]; rfl)).elim
    | ok rows =>
      refine ⟨cols, rows, rfl, rfl, hcall.trans ?_⟩
      rw [ptyCall, hcols, hrows]
      rfl

theorem terminal (h : args.Accepted) (hchain : RunChain host args pairs rest environment calls) :
    .usePty ∈ calls ↔ args.pty = true := by
  rw [hchain.eq, List.mem_cons, List.mem_flatMap]
  constructor
  · rintro (hargs | ⟨call, hmem, htold⟩)
    · cases hargs
    · have hasks := Command.mem_crate_usePty.mp htold
      by_contra hpty
      have hnone := streamCalls_noPty (by simpa using hpty) call (hchain.mem_streamCalls hasks hmem)
      rw [hasks] at hnone
      cases hnone
  · intro hpty
    obtain ⟨cols, rows, -, -, heq⟩ := hchain.streamCalls_eq h hpty
    exact .inr ⟨.pty cols rows, by simp [heq], Command.mem_crate_usePty.mpr rfl⟩

theorem size (h : args.Accepted) (hchain : RunChain host args pairs rest environment calls)
    (cols rows : UInt16) :
    .ptySize cols rows ∈ calls ↔ ∃ askedCols askedRows,
      args.ptyCols = some askedCols ∧ args.ptyRows = some askedRows ∧
        u16 askedCols = .ok cols ∧ u16 askedRows = .ok rows := by
  have hmem : .ptySize cols rows ∈ calls ↔ .pty (some cols) (some rows) ∈ args.streamCalls := by
    rw [hchain.eq, List.mem_cons, List.mem_flatMap]
    constructor
    · rintro (hargs | ⟨call, hmem, htold⟩)
      · cases hargs
      · obtain rfl := Command.mem_crate_ptySize.mp htold
        exact hchain.mem_streamCalls rfl hmem
    · intro hmem
      exact .inr ⟨_, by simp [hmem], Command.mem_crate_ptySize.mpr rfl⟩
  rw [hmem]
  cases hpty : args.pty with
  | false =>
    have hsize : ((args.ptyCols.isSome || args.ptyRows.isSome) && !args.pty) = false :=
      h.check "--pty-cols/--pty-rows requires --pty" (by simp [RunArgs.checks])
    have hnone : args.ptyCols = none := by simp_all
    have hnot : .pty (some cols) (some rows) ∉ args.streamCalls := fun hin =>
      nomatch streamCalls_noPty hpty _ hin
    simp [hnot, hnone]
  | true =>
    obtain ⟨cols', rows', hcols, hrows, heq⟩ := hchain.streamCalls_eq h hpty
    rw [heq, List.mem_cons, or_iff_left (by simp), Command.Call.pty.injEq, ← mapM_eq_some hcols,
      ← mapM_eq_some hrows]
    constructor
    · rintro ⟨⟨askedCols, hc, hcols⟩, askedRows, hr, hrows⟩
      exact ⟨askedCols, askedRows, hc, hr, hcols, hrows⟩
    · rintro ⟨askedCols, askedRows, hc, hr, hcols, hrows⟩
      exact ⟨⟨askedCols, hc, hcols⟩, askedRows, hr, hrows⟩

theorem told (h : args.Accepted) (hchain : RunChain host args pairs rest environment calls) :
    RunTold host args pairs rest calls where
  child given := by
    simp [hchain.mem_option h (.args given) id, mem_settingCalls, mem_timeoutCalls h]
  terminal := hchain.terminal h
  size := hchain.size h
  outputLimit := by
    have hcall (n : ℕ+) (hn : args.outputLimit = some n) :
        converting (host.usize n) (fun bytes =>
          .outputLimit host.convert (some bytes) none "error") ∈ args.settingCalls host := by
      simp [RunArgs.settingCalls, hn]
    refine .of_option (fun n hn => ?_) fun policy => ?_
    · obtain ⟨bytes, hbytes⟩ := hchain.convertedFirst _ (hcall n hn)
      have hmem := hcall n hn
      rw [hbytes] at hmem ⊢
      exact hchain.converted .outputBuffer (.inl hmem)
    · rw [hchain.mem_option h (.outputBuffer policy) id]
      simp [mem_settingCalls, mem_timeoutCalls h, bind_eq_ok]
  sanitizeVt := by
    simp [hchain.mem_option h .sanitizeVt id, mem_settingCalls, mem_timeoutCalls h]
  createNoWindow := by
    simp [hchain.mem_option h .createNoWindow id, mem_settingCalls, mem_timeoutCalls h]
  killOnParentDeath := by
    simp [hchain.mem_option h .killOnParentDeath id, mem_settingCalls, mem_timeoutCalls h]
  priority := by
    refine .of_option (fun level hlevel => hchain.converted .priority (.inl ?_)) fun value => ?_
    · simp [RunArgs.settingCalls, hlevel, Command.Call.priority]
    · simp [hchain.mem_option h (.priority value) id, mem_settingCalls, mem_timeoutCalls h]
  ioPriority := by
    refine .of_option (fun io hio => hchain.converted .ioPriority (.inl ?_)) fun value => ?_
    · simp [RunArgs.settingCalls, hio, Command.Call.ioPriority]
    · simp [hchain.mem_option h (.ioPriority value) id, mem_settingCalls, mem_timeoutCalls h]
  cpuAffinity := by
    refine .of_option (fun cpus hcpus => hchain.convertedFirst .cpuAffinity ?_) fun value => ?_
    · simp [RunArgs.settingCalls, hcpus]
    · simp [hchain.mem_option h (.cpuAffinity value) id, mem_settingCalls, mem_timeoutCalls h]
  timeout := by
    refine .of_option (fun seconds hseconds => hchain.converted .timeout (.inr ?_)) fun value => ?_
    · simp [RunArgs.timeoutCalls, hseconds, Command.Call.timeout]
    · simp [hchain.mem_option h (.timeout value) id, mem_settingCalls, mem_timeoutCalls h]
  timeoutGrace := by
    refine .of_option (fun seconds hseconds => hchain.converted .timeoutGrace (.inr ?_))
      fun value => ?_
    · have hgrace : (args.timeoutGrace.isSome && args.timeout.isNone) = false :=
        h.check "--timeout-grace requires --timeout" (by simp [RunArgs.checks])
      cases htimeout : args.timeout <;> simp_all [RunArgs.timeoutCalls, Command.Call.timeoutGrace]
    · simp [hchain.mem_option h (.timeoutGrace value) id, mem_settingCalls, mem_timeoutCalls h]
  environment := by
    have hsilent := parts_silent host h
    simp only [List.forall_mem_cons] at hsilent
    obtain ⟨⟨hstream, -⟩, ⟨hsetting, -⟩, ⟨htimeout, -⟩, -⟩ := hsilent
    rw [hchain.eq, List.filterMap_cons_none rfl]
    simp only [List.flatMap_append, List.filterMap_append, hstream, hsetting, htimeout,
      hchain.changes, List.nil_append, List.append_nil]
  cwd := by
    have hsilent := parts_silent host h
    simp only [List.forall_mem_cons] at hsilent
    obtain ⟨⟨-, hstream⟩, ⟨-, hsetting⟩, ⟨-, htimeout⟩, -⟩ := hsilent
    rw [hchain.eq, List.filterMap_cons_none rfl]
    simp only [List.flatMap_append, List.filterMap_append, hstream, hsetting, htimeout,
      hchain.dirs, List.nil_append, List.append_nil]
  nothingElse setting hmem := by
    rcases (hchain.mem h).mp hmem with rfl | hmem | hmem | hmem
    · trivial
    · rcases mem_settingCalls.mp hmem with ⟨_, _, _, _, _, _, rfl⟩ | ⟨-, rfl⟩ | ⟨-, rfl⟩ | ⟨-, rfl⟩ |
        ⟨_, _, _, _, rfl⟩ | ⟨_, _, _, _, rfl⟩ | ⟨_, _, _, _, rfl⟩ <;> trivial
    · have hset := (hchain.sets _ hmem).isEnvironment
      cases setting <;> trivial
    · rcases (mem_timeoutCalls h).mp hmem with ⟨_, _, _, _, rfl⟩ | ⟨_, _, _, _, rfl⟩ <;> trivial

end RunChain

end Chain

section Quiet

variable {calls more : List Command.Call}

theorem any_append_setting {p : Command.Call → Bool} (h : ∀ call ∈ more, IsSetting call)
    (hp : ∀ checked, p (.rewrapped checked) = false) : (calls ++ more).any p = calls.any p := by
  have hmore : more.any p = false := by
    rw [List.any_eq_false]
    intro call hmem
    obtain ⟨checked, rfl⟩ := h call hmem
    simp [hp]
  rw [List.any_append, hmore, Bool.or_false]

theorem last_append_setting {f : Command.Call → Option β} (h : ∀ call ∈ more, IsSetting call)
    (hf : ∀ checked, f (.rewrapped checked) = none) : last f (calls ++ more) = last f calls := by
  refine last_append_none fun call hmem => ?_
  obtain ⟨checked, rfl⟩ := h call hmem
  exact hf checked

end Quiet

theorem streamCalls_inherits (h : args.Accepted) :
    args.streamCalls.any Command.Call.inherits = !args.pty := by
  cases hpty : args.pty with
  | false => simp [RunArgs.streamCalls, hpty, Command.Call.inherits]
  | true =>
    rw [streamCalls_pty h hpty]
    rcases ptyCall_cases args.ptyCols args.ptyRows with ⟨err, heq⟩ | ⟨cols, rows, heq, -⟩
    · simp [heq, Command.Call.inherits]
    · simp [heq, Command.Call.inherits]

theorem ptyCall_destination (stream : Stream) (cols rows : Option ℕ+) :
    (ptyCall cols rows).destination stream = none := by
  rcases ptyCall_cases cols rows with ⟨err, heq⟩ | ⟨cols', rows', heq, -⟩
  · rw [heq]
    rfl
  · rw [heq]
    rfl

theorem streamCalls_destination (args : RunArgs) (stream : Stream) :
    last (Command.Call.destination stream) args.streamCalls = args.destination stream := by
  have hinherit : Command.stdioMode "inherit" = some .inherit := by decide +kernel
  cases hstreaming : args.streaming <;> cases stream <;> cases hout : args.stdoutFile <;>
    cases herr : args.stderrFile <;> cases hpty : args.pty <;>
    simp [last, RunArgs.streamCalls, hstreaming, hout, herr, hpty, RunArgs.destination, hinherit,
      Command.Call.stdout, Command.Call.stderr, Command.Call.stdoutFile, Command.Call.stderrFile,
      ptyCall_destination]

theorem ptyCall_setsIdle (convert : Command.Convert) (cols rows : Option ℕ+) :
    (ptyCall cols rows).setsIdle convert = none := by
  rcases ptyCall_cases cols rows with ⟨err, heq⟩ | ⟨cols', rows', heq, -⟩
  · rw [heq]
    rfl
  · rw [heq]
    rfl

theorem streamCalls_idle (args : RunArgs) (convert : Command.Convert) :
    last (Command.Call.setsIdle convert) args.streamCalls = args.idleTimeout.bind fun seconds =>
      (convert.positiveDuration seconds "idle_timeout").toOption := by
  have hfirst : (if args.pty then ptyCall args.ptyCols args.ptyRows else .inheritStdin).setsIdle
      convert = none := by
    cases args.pty
    · rfl
    · exact ptyCall_setsIdle convert _ _
  cases hidle : args.idleTimeout with
  | none =>
    cases hstreaming : args.streaming <;> cases hout : args.stdoutFile <;>
      cases herr : args.stderrFile <;>
      simp [last, RunArgs.streamCalls, hstreaming, hout, herr, hidle, hfirst,
        Command.Call.stdout, Command.Call.stderr, Command.Call.stdoutFile, Command.Call.stderrFile]
  | some seconds =>
    have hstreaming : args.streaming = true := by simp [RunArgs.streaming, hidle]
    cases hcheck : convert.positiveDuration seconds "idle_timeout" <;>
      cases hout : args.stdoutFile <;> cases herr : args.stderrFile <;>
      simp [last, RunArgs.streamCalls, hstreaming, hout, herr, hidle, hfirst, hcheck,
        Except.toOption, Command.Call.stdoutFile, Command.Call.stderrFile, List.filterMap_cons]

theorem timeoutCalls_assigns (host : Host) (args : RunArgs) (key : PyStr) :
    ∀ told ∈ (args.timeoutCalls host).flatMap Command.Call.crate, assigns host key told = none := by
  intro told hmem
  obtain ⟨call, hcall, htold⟩ := List.mem_flatMap.mp hmem
  rw [RunArgs.timeoutCalls] at hcall
  split at hcall
  next => cases hcall
  next seconds _ =>
    rcases List.mem_cons.mp hcall with rfl | hcall
    · rw [Command.Call.timeout] at htold
      cases hcheck : host.convert.positiveDuration seconds "timeout" with
      | error err =>
        rw [hcheck] at htold
        cases htold
      | ok duration =>
        rw [hcheck] at htold
        obtain rfl := List.mem_singleton.mp htold
        rfl
    · obtain ⟨grace, -, rfl⟩ := List.mem_map.mp hcall
      rw [Command.Call.timeoutGrace] at htold
      cases hcheck : host.convert.nonnegativeDuration grace "timeout_grace" with
      | error err =>
        rw [hcheck] at htold
        cases htold
      | ok duration =>
        rw [hcheck] at htold
        obtain rfl := List.mem_singleton.mp htold
        rfl

theorem streamCalls_asksPty (h : args.Accepted) {self next : PyCommand}
    (hok : applyAll host.convert (args.streamCalls ++ more) self = .ok next) :
    args.streamCalls.any Command.Call.asksPty = args.pty := by
  cases hpty : args.pty with
  | false =>
    rw [List.any_eq_false]
    intro call hmem
    simp [streamCalls_noPty hpty call hmem]
  | true =>
    rw [streamCalls_pty h hpty] at hok ⊢
    obtain ⟨mid, hmid, -⟩ := Command.applyAll_cons hok
    rcases ptyCall_cases args.ptyCols args.ptyRows with ⟨err, heq⟩ | ⟨cols, rows, heq, -⟩
    · rw [heq] at hmid
      cases hmid
    · simp [heq, Command.Call.asksPty]

/-- What `run` starts is what was asked for. -/
theorem buildCommand_asked (h : args.Accepted)
    (hbuild : buildCommand host args pairs program rest = .ok command) :
    Asked host args pairs program rest command := by
  obtain ⟨spawned, environed, hspawned, happlied, hcommand⟩ := buildCommand_ok hbuild
  obtain ⟨environment, henvironment, henv, hchanges, hdirs⟩ := environed_apply happlied
  have hall := Command.applyAll_append (Command.applyAll_append hspawned henv) hcommand
  have hshadows := (Command.shadows_new program (some rest)).all hall
  have htold := Command.applyAll_tells hall
  rw [List.nil_append] at hshadows
  have hchain : RunChain host args pairs rest environment command.inner.calls :=
    ⟨congrArg Command.PkCommand.calls htold, fun checked => Command.applyAll_checked hall,
      henvironment, hchanges, hdirs⟩
  have hmore : ∀ call ∈ args.settingCalls host ++ environment ++ args.timeoutCalls host,
      IsSetting call := by
    intro call hmem
    rcases List.mem_append.mp hmem with hmem | hmem
    · rcases List.mem_append.mp hmem with hmem | hmem
      · exact settingCalls_setting call hmem
      · exact (henvironment call hmem).setting
    · exact timeoutCalls_setting call hmem
  have hcalls : args.streamCalls ++ args.settingCalls host ++ environment ++
      args.timeoutCalls host = args.streamCalls ++ (args.settingCalls host ++ environment ++
        args.timeoutCalls host) := by simp only [List.append_assoc]
  refine ⟨congrArg Command.PkCommand.program htold, hchain.told h, ?_, ?_, ?_, ?_, ?_, ?_⟩
  · rw [hshadows.pty, hcalls, any_append_setting hmore fun _ => rfl]
    exact streamCalls_asksPty h hspawned
  · rw [hchain.eq, List.any_cons, Command.flatMap_inherits, hcalls,
      any_append_setting hmore fun _ => rfl]
    exact streamCalls_inherits h
  · intro stream
    rw [hchain.eq, last, List.filterMap_cons_none rfl, Command.flatMap_destination, hcalls]
    exact (last_append_setting hmore fun _ => rfl).trans (streamCalls_destination args stream)
  · intro duration seconds hidle hcheck
    rw [hshadows.idle, hcalls, last_append_setting hmore fun _ => rfl, streamCalls_idle, hidle]
    simp [hcheck, Except.toOption]
  · intro hidle
    rw [hshadows.idle, hcalls, last_append_setting hmore fun _ => rfl, streamCalls_idle, hidle]
    rfl
  · intro key value hvalue
    rw [← applied_inForce (commandBuilder_lawful host) happlied hvalue]
    simp only [commandBuilder]
    rw [Command.applyAll_tells hcommand, last_append_none (timeoutCalls_assigns host args key)]

end ProcessKit.Cli

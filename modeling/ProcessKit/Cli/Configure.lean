import ProcessKit.Cli.Wrapper

/-!
# The command that the command line builds

The subcommands build their command by a chain of the builder's own methods, and set the
environment through `_apply_environment`. What a chain does is said once, for every chain:
what the crate is told, and when a chain runs into the terminal conflict.
-/

namespace ProcessKit.Command

open ProcessKit.Runtime (PyResult)

-- ---------------------------------------------------------------------------
-- Chains of builder calls
-- ---------------------------------------------------------------------------

/-- Each call on the value of the one before; the first error ends the chain. -/
def applyAll (convert : Convert) : List Call → PyCommand → Except Raised PyCommand
  | [], self => .ok self
  | call :: calls, self =>
    match call.apply convert self with
    | .ok next => applyAll convert calls next
    | .error raised => .error raised

def Call.crate : Call → List PkCall
  | .rewrapped (.ok setting) => [.setting setting]
  | .rewrapped (.error _) => []
  | .inheritStdin => [.inheritStdin]
  | .stdio stream mode => ((stdioMode mode).map (PkCall.stdio stream)).toList
  | .file stream path append => [if append then .fileAppend stream path else .file stream path]
  | .idleTimeout _ => []
  | .pty (some cols) (some rows) => [.usePty, .ptySize cols rows]
  | .pty _ _ => [.usePty]

variable {convert : Convert} {self next : PyCommand} {call : Call} {calls past : List Call}

theorem applyAll_cons (h : applyAll convert (call :: calls) self = .ok next) :
    ∃ mid, call.apply convert self = .ok mid ∧ applyAll convert calls mid = .ok next := by
  rw [applyAll] at h
  split at h
  next mid hmid => exact ⟨mid, hmid, h⟩
  next => cases h

theorem applyAll_append {mid : PyCommand} {rest : List Call}
    (h : applyAll convert calls self = .ok mid) (hrest : applyAll convert rest mid = .ok next) :
    applyAll convert (calls ++ rest) self = .ok next := by
  induction calls generalizing self with
  | nil =>
    cases h
    exact hrest
  | cons call calls ih =>
    obtain ⟨first, hfirst, h⟩ := applyAll_cons h
    rw [List.cons_append, applyAll, hfirst]
    exact ih h

def Tells (self next : PyCommand) (calls : List PkCall) : Prop :=
  next.inner = ⟨self.inner.program, self.inner.calls ++ calls⟩

theorem Tells.refl (self : PyCommand) : Tells self self [] := by simp [Tells]

theorem Tells.trans {mid : PyCommand} {first rest : List PkCall} (h : Tells self mid first)
    (hrest : Tells mid next rest) : Tells self next (first ++ rest) := by
  rw [Tells, hrest, h, List.append_assoc]

theorem apply_tells (h : call.apply convert self = .ok next) : Tells self next call.crate := by
  cases call with
  | rewrapped checked =>
    cases checked with
    | error err => cases h
    | ok setting =>
      cases h
      rfl
  | inheritStdin => rw [PyCommand.inheritStdin_ok h]; rfl
  | stdio stream mode =>
    obtain ⟨parsed, hmode, rfl⟩ := PyCommand.stdio_ok h
    simp [Tells, Call.crate, hmode, PkCommand.call]
  | file stream path append => rw [PyCommand.file_ok h]; rfl
  | idleTimeout seconds =>
    obtain ⟨duration, -, rfl⟩ := PyCommand.idleTimeoutAfter_ok h
    simp [Tells, Call.crate]
  | pty cols rows =>
    rw [Call.apply, PyCommand.pty] at h
    split at h
    · cases h
    · rcases cols with _ | cols <;> rcases rows with _ | rows
      · cases h
        rfl
      · cases h
      · cases h
      · by_cases hsize : cols > 0 ∧ rows > 0
        · simp only [hsize, and_self, ite_true] at h
          cases h
          simp [Tells, Call.crate, PkCommand.call]
        · simp only [hsize, ite_false] at h
          cases h

theorem applyAll_tells (h : applyAll convert calls self = .ok next) :
    Tells self next (calls.flatMap Call.crate) := by
  induction calls generalizing self with
  | nil =>
    cases h
    exact .refl _
  | cons call calls ih =>
    obtain ⟨mid, hmid, hrest⟩ := applyAll_cons h
    exact (apply_tells hmid).trans (ih hrest)

theorem Shadows.all (h : Shadows convert self past) (hok : applyAll convert calls self = .ok next) :
    Shadows convert next (past ++ calls) := by
  induction calls generalizing self past with
  | nil =>
    cases hok
    simpa using h
  | cons call calls ih =>
    obtain ⟨mid, hmid, hrest⟩ := applyAll_cons hok
    simpa using ih (h.step hmid) hrest

/-- A chain that at no point asks for a terminal beside what conflicts with one. -/
def Apart (past calls : List Call) : Prop := ∀ first, first <+: calls → ¬ Combines (past ++ first)

theorem Apart.tail (h : Apart past (call :: calls)) : Apart (past ++ [call]) calls := by
  intro first hfirst
  simpa using h (call :: first) (List.prefix_cons_inj call |>.mpr hfirst)

theorem Shadows.unconflicted (h : Shadows convert self past) (hapart : Apart past calls) :
    applyAll convert calls self ≠ .error .ptyConflict := by
  induction calls generalizing self past with
  | nil => nofun
  | cons call calls ih =>
    intro hraised
    have hpast : ¬ Combines past := by simpa using hapart [] (List.nil_prefix)
    rw [applyAll] at hraised
    split at hraised
    next mid hmid => exact ih (h.step hmid) hapart.tail hraised
    next raised hraise =>
      obtain rfl := Except.error.inj hraised
      refine hapart [call] ?_ ((h.raises hpast).mp hraise)
      exact (List.prefix_cons_inj call).mpr (List.nil_prefix)

theorem applyAll_error (h : applyAll convert calls self = .error raised) :
    ∃ call ∈ calls, ∃ mid, Call.apply convert mid call = .error raised := by
  induction calls generalizing self with
  | nil => cases h
  | cons call calls ih =>
    rw [applyAll] at h
    split at h
    next =>
      obtain ⟨other, hmem, mid, hraise⟩ := ih h
      exact ⟨other, by simp [hmem], mid, hraise⟩
    next raised' hraise =>
      obtain rfl := Except.error.inj h
      exact ⟨call, by simp, self, hraise⟩

theorem apply_error (h : Call.apply convert self call = .error raised) :
    (∃ err, raised = .argument err) ∨ raised = .ptyConflict ∨
      ∃ cols rows, call = .pty cols rows ∧
        (cols.isSome ≠ rows.isSome ∨ cols = some 0 ∨ rows = some 0) := by
  cases call with
  | rewrapped checked =>
    cases checked with
    | error err =>
      cases h
      exact .inl ⟨err, rfl⟩
    | ok setting => cases h
  | inheritStdin =>
    rw [Call.apply, PyCommand.inheritStdin, PyCommand.rejectPtyConflict] at h
    split at h
    · cases h
      exact .inr (.inl rfl)
    · cases h
  | stdio stream mode =>
    cases hmode : stdioMode mode with
    | none =>
      simp only [Call.apply, PyCommand.stdio, PyCommand.parseStdioMode, hmode] at h
      cases h
      exact .inl ⟨_, rfl⟩
    | some parsed =>
      simp only [Call.apply, PyCommand.stdio, PyCommand.parseStdioMode, hmode, Except.mapError, bind,
        Except.bind, PyCommand.rejectPtyConflict] at h
      cases hreq : self.ptyRequested <;> cases parsed <;> simp [hreq, pure, Except.pure] at h
      all_goals exact .inr (.inl h.symm)
  | file stream path append =>
    rw [Call.apply, PyCommand.file, PyCommand.rejectPtyConflict] at h
    split at h
    · cases h
      exact .inr (.inl rfl)
    · cases h
  | idleTimeout seconds =>
    rw [Call.apply, PyCommand.idleTimeoutAfter] at h
    cases hcheck : convert.positiveDuration seconds "idle_timeout" with
    | error err =>
      rw [hcheck] at h
      cases h
      exact .inl ⟨err, rfl⟩
    | ok duration =>
      rw [hcheck] at h
      cases h
  | pty cols rows =>
    rw [Call.apply, PyCommand.pty] at h
    split at h
    · cases h
      exact .inr (.inl rfl)
    · refine .inr (.inr ⟨cols, rows, rfl, ?_⟩)
      rcases cols with _ | cols <;> rcases rows with _ | rows
      · cases h
      · cases h
        simp
      · cases h
        simp
      · by_cases hsize : cols > 0 ∧ rows > 0
        · simp only [hsize, and_self, ite_true] at h
          cases h
        · simp only [hsize, ite_false] at h
          cases h
          simp only [gt_iff_lt, not_and] at hsize
          by_cases hcols : 0 < cols
          · exact .inr (.inr (congrArg some (UInt16.le_zero_iff.mp (UInt16.not_lt.mp (hsize hcols)))))
          · exact .inr (.inl (congrArg some (UInt16.le_zero_iff.mp (UInt16.not_lt.mp hcols))))

theorem mem_crate {setting : PkSetting} :
    .setting setting ∈ call.crate ↔ call = .rewrapped (.ok setting) := by
  cases call with
  | rewrapped checked => cases checked <;> simp [Call.crate, eq_comm]
  | inheritStdin => simp [Call.crate]
  | stdio stream mode => cases hmode : stdioMode mode <;> simp [Call.crate, hmode]
  | file stream path append => cases append <;> simp [Call.crate]
  | idleTimeout seconds => simp [Call.crate]
  | pty cols rows => cases cols <;> cases rows <;> simp [Call.crate]

theorem mem_crate_ptySize : .ptySize cols rows ∈ call.crate ↔ call = .pty (some cols) (some rows) := by
  cases call with
  | rewrapped checked => cases checked <;> simp [Call.crate]
  | inheritStdin => simp [Call.crate]
  | stdio stream mode => cases hmode : stdioMode mode <;> simp [Call.crate, hmode]
  | file stream path append => cases append <;> simp [Call.crate]
  | idleTimeout seconds => simp [Call.crate]
  | pty cols' rows' => cases cols' <;> cases rows' <;> simp [Call.crate, eq_comm]

theorem mem_crate_usePty : .usePty ∈ call.crate ↔ call.asksPty = true := by
  cases call with
  | rewrapped checked => cases checked <;> simp [Call.crate, Call.asksPty]
  | inheritStdin => simp [Call.crate, Call.asksPty]
  | stdio stream mode => cases hmode : stdioMode mode <;> simp [Call.crate, hmode, Call.asksPty]
  | file stream path append => cases append <;> simp [Call.crate, Call.asksPty]
  | idleTimeout seconds => simp [Call.crate, Call.asksPty]
  | pty cols rows => cases cols <;> cases rows <;> simp [Call.crate, Call.asksPty]

theorem mem_flatMap_crate {setting : PkSetting} :
    .setting setting ∈ calls.flatMap Call.crate ↔ .rewrapped (.ok setting) ∈ calls := by
  simp [List.mem_flatMap, mem_crate]

theorem applyAll_checked {checked : PyResult PkSetting}
    (h : applyAll convert calls self = .ok next) (hmem : .rewrapped checked ∈ calls) :
    ∃ setting, checked = .ok setting := by
  induction calls generalizing self with
  | nil => cases hmem
  | cons call calls ih =>
    obtain ⟨mid, hmid, hrest⟩ := applyAll_cons h
    rcases List.mem_cons.mp hmem with rfl | hmem
    · cases checked with
      | ok setting => exact ⟨setting, rfl⟩
      | error err => cases hmid
    · exact ih hrest hmem

/-- Of one setting the crate is told this value, if it is one, and no other. -/
def Sets (calls : List PkCall) (set : β → PkSetting) (value : PyResult (Option β)) : Prop :=
  ∃ told, value = .ok told ∧ ∀ b, .setting (set b) ∈ calls ↔ told = some b

theorem Sets.of_option {told : List PkCall} {set : β → PkSetting} {option : Option α}
    {conv : α → PyResult β} (hok : ∀ a, option = some a → ∃ b, conv a = .ok b)
    (hmem : ∀ b, .setting (set b) ∈ told ↔ ∃ a, option = some a ∧ conv a = .ok b) :
    Sets told set (option.mapM conv) := by
  cases option with
  | none => exact ⟨none, rfl, fun b => (hmem b).trans (by simp)⟩
  | some a =>
    obtain ⟨b, hconv⟩ := hok a rfl
    refine ⟨some b, by simp [hconv, Functor.map, Except.map], fun b' => (hmem b').trans ?_⟩
    simp [hconv]

theorem crate_inherits (call : Call) : call.crate.any PkCall.inherits = call.inherits := by
  cases call with
  | rewrapped checked => cases checked <;> rfl
  | inheritStdin => rfl
  | stdio stream mode =>
    cases hmode : stdioMode mode <;> simp [Call.crate, hmode, PkCall.inherits, Call.inherits]
  | file stream path append => cases append <;> rfl
  | idleTimeout seconds => rfl
  | pty cols rows => cases cols <;> cases rows <;> rfl

theorem flatMap_inherits (calls : List Call) :
    (calls.flatMap Call.crate).any PkCall.inherits = calls.any Call.inherits := by
  simp only [List.any_flatMap, crate_inherits]

inductive Destination
  | stdio (mode : StdioMode)
  | file (path : PathBuf) (append : Bool)

def PkCall.destination (stream : Stream) : PkCall → Option Destination
  | .stdio other mode => if other = stream then some (.stdio mode) else none
  | .file other path => if other = stream then some (.file path false) else none
  | .fileAppend other path => if other = stream then some (.file path true) else none
  | _ => none

def Call.destination (stream : Stream) : Call → Option Destination
  | .stdio other mode => if other = stream then (stdioMode mode).map .stdio else none
  | .file other path append => if other = stream then some (.file path append) else none
  | _ => none

section Destination

variable {stream other : Stream}

@[simp] theorem destination_inheritStdin : Call.inheritStdin.destination stream = none := rfl

@[simp] theorem destination_idleTimeout : (Call.idleTimeout seconds).destination stream = none := rfl

@[simp] theorem destination_stdio : (Call.stdio other mode).destination stream =
    if other = stream then (stdioMode mode).map .stdio else none := rfl

@[simp] theorem destination_file : (Call.file other path append).destination stream =
    if other = stream then some (.file path append) else none := rfl

@[simp] theorem setsIdle_stdio : (Call.stdio other mode).setsIdle convert = none := rfl

@[simp] theorem setsIdle_file : (Call.file other path append).setsIdle convert = none := rfl

@[simp] theorem setsIdle_idleTimeout : (Call.idleTimeout seconds).setsIdle convert =
    (convert.positiveDuration seconds "idle_timeout").toOption := rfl

end Destination

theorem crate_destination (stream : Stream) (call : Call) :
    call.crate.filterMap (PkCall.destination stream) = (call.destination stream).toList := by
  cases call with
  | rewrapped checked => cases checked <;> rfl
  | inheritStdin => rfl
  | stdio other mode =>
    by_cases hsame : other = stream <;> cases hmode : stdioMode mode <;>
      simp [Call.crate, hmode, PkCall.destination, Call.destination, hsame]
  | file other path append =>
    by_cases hsame : other = stream <;> cases append <;>
      simp [Call.crate, PkCall.destination, Call.destination, hsame]
  | idleTimeout seconds => rfl
  | pty cols rows => cases cols <;> cases rows <;> rfl

theorem flatMap_destination (stream : Stream) (calls : List Call) :
    (calls.flatMap Call.crate).filterMap (PkCall.destination stream) =
      calls.filterMap (Call.destination stream) := by
  induction calls with
  | nil => rfl
  | cons call calls ih =>
    rw [List.flatMap_cons, List.filterMap_append, crate_destination, ih, List.filterMap_cons]
    cases call.destination stream <;> rfl

theorem apart_of_noPty (h : ∀ call ∈ calls, call.asksPty = false) : Apart [] calls := by
  rintro first hfirst ⟨hasks, -⟩
  obtain ⟨call, hmem, hcall⟩ := List.any_eq_true.mp hasks
  rw [h call (hfirst.subset (by simpa using hmem))] at hcall
  cases hcall

theorem apart_of_piped (h : ∀ call ∈ calls, call.inherits = false ∧
    ∀ stream, call.leavesNonPiped stream = none) : Apart [] calls := by
  rintro first hfirst ⟨-, hinherits | ⟨stream, hstream⟩⟩
  · obtain ⟨call, hmem, hcall⟩ := List.any_eq_true.mp hinherits
    rw [(h call (hfirst.subset (by simpa using hmem))).1] at hcall
    cases hcall
  · have hnone : (first.filterMap (Call.leavesNonPiped stream)) = [] := by
      simpa [List.filterMap_eq_nil_iff] using fun call hmem => (h call (hfirst.subset hmem)).2 stream
    simp [nonPiped, last, hnone] at hstream

end ProcessKit.Command

namespace ProcessKit.Cli

open Python (PyChar PyStr ofChar lit)
open ProcessKit.Runtime (PyErr PyResult)
open ProcessKit.Command (PkCall PkSetting PyCommand Raised Tells applyAll last)

-- ---------------------------------------------------------------------------
-- The environment of a command
-- ---------------------------------------------------------------------------

def scalar (c : PyChar) : Option Char :=
  if c.val.isValidChar then some (Char.ofNat c.val) else none

def Host.string (host : Host) (text : PyStr) : PyResult String :=
  match text.mapM scalar with
  | some chars => .ok (String.ofList chars)
  | none => .error ⟨"UnicodeEncodeError", host.surrogates text⟩

theorem scalar_eq_some {c : PyChar} {char : Char} (h : scalar c = some char) : ofChar char = c := by
  rw [scalar] at h
  split at h
  next hvalid =>
    obtain rfl := Option.some.inj h
    have hnat : (Char.ofNat c.val).toNat = c.val := by
      rw [Char.ofNat, dif_pos hvalid]
      rfl
    exact Fin.ext hnat
  next => cases h

theorem Host.string_eq_ok {host : Host} {text : PyStr} {converted : String}
    (h : host.string text = .ok converted) : lit converted = text := by
  rw [Host.string] at h
  split at h
  next chars hchars =>
    obtain rfl := Except.ok.inj h
    rw [lit, String.toList_ofList]
    clear h
    induction text generalizing chars with
    | nil =>
      obtain rfl : [] = chars := by simpa using hchars
      rfl
    | cons c text ih =>
      rw [List.mapM_cons] at hchars
      simp only [Option.bind_eq_bind, Option.bind_eq_some_iff] at hchars
      obtain ⟨char, hchar, chars, hrest, hcons⟩ := hchars
      obtain rfl := Option.some.inj hcons
      rw [List.map_cons, scalar_eq_some hchar, ih chars hrest]
  next => cases h

/-- What the calls before the crate's spawn leave of a variable: `some none` is that it is
taken away. -/
def assigns (host : Host) (key : PyStr) : PkCall → Option (Option PyStr)
  | .setting (.env name value) =>
    if host.sameKey (lit name) key then some (some (lit value)) else none
  | .setting (.envRemove name) => if host.sameKey (lit name) key then some none else none
  | .setting (.envs vars) =>
    ((vars.filter fun var => host.sameKey (lit var.1) key).getLast?).map fun var =>
      some (lit var.2)
  | _ => none

def builderCall (host : Host) (call : Command.Call) (command : PyCommand) : PyResult PyCommand :=
  (call.apply host.convert command).mapError Raised.toErr

/-- `Command`, as `_apply_environment` uses it. -/
def commandBuilder (host : Host) : Builder PyCommand where
  envClear command := command.rewrap (command.inner.call (.setting .envClear))
  inheritEnv command names := do
    let names ← names.mapM host.string
    builderCall host (.inheritEnv names) command
  env command key value := do
    let key ← host.string key
    let value ← host.string value
    builderCall host (.env key value) command
  cwd command dir := builderCall host (.cwd (host.osPath dir)) command
  inForce command key := (last (assigns host key) command.inner.calls).join
  sameKey := host.sameKey

variable {host : Host} {command next : PyCommand} {call : Command.Call}

theorem builderCall_eq_ok :
    builderCall host call command = .ok next ↔ call.apply host.convert command = .ok next := by
  rw [builderCall]
  cases call.apply host.convert command <;> simp [Except.mapError]

theorem last_append_none {f : α → Option β} (h : ∀ call ∈ more, f call = none) :
    last f (calls ++ more) = last f calls := by
  have hnone : more.filterMap f = [] := by simpa [List.filterMap_eq_nil_iff] using h
  simp [last, hnone]

theorem env_eq_ok {key value : PyStr} (h : (commandBuilder host).env command key value = .ok next) :
    ∃ name text, lit name = key ∧ lit text = value ∧
      (Command.Call.env name text).apply host.convert command = .ok next := by
  obtain ⟨name, hname, hrest⟩ := bind_eq_ok.mp h
  obtain ⟨text, htext, hcall⟩ := bind_eq_ok.mp hrest
  exact ⟨name, text, Host.string_eq_ok hname, Host.string_eq_ok htext, builderCall_eq_ok.mp hcall⟩

theorem commandBuilder_lawful (host : Host) : (commandBuilder host).Lawful where
  env {command key value next other} h := by
    obtain ⟨name, text, rfl, rfl, hcall⟩ := env_eq_ok h
    simp only [commandBuilder]
    rw [Command.apply_tells hcall]
    simp only [Command.Call.env, Command.Call.plain, Command.Call.crate, Command.last_snoc, assigns]
    by_cases hsame : host.sameKey (lit name) other
    · simp [hsame]
    · simp [hsame]
  cwd {command dir next other} h := by
    have hcall : (Command.Call.cwd (host.osPath dir)).apply host.convert command = .ok next :=
      builderCall_eq_ok.mp h
    simp only [commandBuilder]
    rw [Command.apply_tells hcall]
    simp only [Command.Call.cwd, Command.Call.plain, Command.Call.crate, Command.last_snoc, assigns]
    rfl

inductive EnvChange
  | clear
  | inherit (names : List PyStr)
  | set (key value : PyStr)

def envChange : PkCall → Option EnvChange
  | .setting .envClear => some .clear
  | .setting (.inheritEnv names) => some (.inherit (names.map lit))
  | .setting (.env key value) => some (.set (lit key) (lit value))
  | _ => none

def currentDir : PkCall → Option Command.PathBuf
  | .setting (.currentDir dir) => some dir
  | _ => none

def IsEnvironment : Command.PkSetting → Prop
  | .envClear | .inheritEnv _ | .env .. | .currentDir _ => True
  | _ => False

theorem environment_silent {calls : List Command.Call}
    (h : ∀ setting, .rewrapped (.ok setting) ∈ calls → ¬ IsEnvironment setting) :
    (calls.flatMap Command.Call.crate).filterMap envChange = [] ∧
      (calls.flatMap Command.Call.crate).filterMap currentDir = [] := by
  have hnone : ∀ told ∈ calls.flatMap Command.Call.crate,
      envChange told = none ∧ currentDir told = none := by
    intro told hmem
    cases told with
    | setting setting =>
      have hsetting := h setting (Command.mem_flatMap_crate.mp hmem)
      cases setting <;> first | exact ⟨rfl, rfl⟩ | exact absurd trivial hsetting
    | _ => exact ⟨rfl, rfl⟩
  simp only [List.filterMap_eq_nil_iff]
  exact ⟨fun told hmem => (hnone told hmem).1, fun told hmem => (hnone told hmem).2⟩

inductive SetsEnvironment : Command.Call → Prop
  | envClear : SetsEnvironment .envClear
  | inheritEnv (names : List String) : SetsEnvironment (.inheritEnv names)
  | env (key value : String) : SetsEnvironment (.env key value)
  | cwd (dir : Command.PathBuf) : SetsEnvironment (.cwd dir)

theorem SetsEnvironment.isEnvironment {setting : Command.PkSetting}
    (h : SetsEnvironment (.rewrapped (.ok setting))) : IsEnvironment setting := by
  generalize hcall : Command.Call.rewrapped (.ok setting) = call at h
  cases h <;> cases hcall <;> trivial

/-- The command is made of the other by a chain of such calls, which come to these changes
and directories. -/
def Environed (host : Host) (command next : PyCommand) (changes : List EnvChange)
    (dirs : List Command.PathBuf) : Prop :=
  ∃ calls, (∀ call ∈ calls, SetsEnvironment call) ∧
    applyAll host.convert calls command = .ok next ∧
    (calls.flatMap Command.Call.crate).filterMap envChange = changes ∧
    (calls.flatMap Command.Call.crate).filterMap currentDir = dirs

namespace Environed

theorem refl (host : Host) (command : PyCommand) : Environed host command command [] [] :=
  ⟨[], by simp, rfl, rfl, rfl⟩

theorem one (hcall : SetsEnvironment call) (h : call.apply host.convert command = .ok next) :
    Environed host command next (call.crate.filterMap envChange) (call.crate.filterMap currentDir) :=
  ⟨[call], by simpa using hcall, by simp [applyAll, h], by simp, by simp⟩

theorem trans {mid : PyCommand} (h : Environed host command mid changes dirs)
    (hrest : Environed host mid next changes' dirs') :
    Environed host command next (changes ++ changes') (dirs ++ dirs') := by
  obtain ⟨first, hfirst, happly, rfl, rfl⟩ := h
  obtain ⟨rest, hrest, happly', rfl, rfl⟩ := hrest
  refine ⟨first ++ rest, ?_, Command.applyAll_append happly happly', by simp, by simp⟩
  intro call hmem
  rcases List.mem_append.mp hmem with hmem | hmem
  · exact hfirst call hmem
  · exact hrest call hmem

end Environed

theorem environed_envAll {pairs : List Pair}
    (h : (commandBuilder host).envAll command pairs = .ok next) :
    Environed host command next (pairs.map fun pair => .set pair.1 pair.2) [] := by
  induction pairs generalizing command with
  | nil =>
    cases h
    exact .refl host _
  | cons pair pairs ih =>
    obtain ⟨mid, hmid, hrest⟩ := bind_eq_ok.mp h
    obtain ⟨name, text, hname, htext, hcall⟩ := env_eq_ok hmid
    have hboth := (Environed.one (.env name text) hcall).trans (ih hrest)
    rw [List.map_cons, ← hname, ← htext]
    exact hboth

theorem mapM_string {names : List PyStr} {converted : List String}
    (h : names.mapM host.string = .ok converted) : converted.map lit = names := by
  induction names generalizing converted with
  | nil =>
    cases h
    rfl
  | cons name names ih =>
    rw [List.mapM_cons] at h
    obtain ⟨first, hfirst, h⟩ := bind_eq_ok.mp h
    obtain ⟨rest, hrest, h⟩ := bind_eq_ok.mp h
    cases h
    rw [List.map_cons, Host.string_eq_ok hfirst, ih hrest]

/-- The base of the environment: no name at all leaves the whole of it. -/
def inheritChanges (inherited : List PyStr) : List EnvChange :=
  if inherited = [] then [] else [.inherit inherited]

theorem environed_inherit {inherited : List PyStr}
    (h : (commandBuilder host).inherit command inherited = .ok next) :
    Environed host command next (inheritChanges inherited) [] := by
  rw [Builder.inherit] at h
  rw [inheritChanges]
  split at h
  next hnil =>
    cases h
    rw [if_pos hnil]
    exact .refl host _
  next hnil =>
    obtain ⟨names, hnames, h⟩ := bind_eq_ok.mp h
    rw [if_neg hnil, ← mapM_string hnames]
    exact .one (.inheritEnv names) (builderCall_eq_ok.mp h)

theorem environed_apply {pairs : List Pair} {inherited : List PyStr} {cwd : Option PyStr}
    (h : applyEnvironment (commandBuilder host) command clear inherited pairs cwd = .ok next) :
    Environed host command next
      ((if clear then [.clear] else []) ++ inheritChanges inherited ++
        pairs.map fun pair => .set pair.1 pair.2) (cwd.toList.map host.osPath) := by
  obtain ⟨based, hbased, h⟩ := bind_eq_ok.mp h
  obtain ⟨named, hnamed, h⟩ := bind_eq_ok.mp h
  have hcleared : Environed host command
      (if clear then (commandBuilder host).envClear command else command)
      (if clear then [.clear] else []) [] := by
    cases clear
    · exact .refl host command
    · exact .one .envClear rfl
  have hset := (hcleared.trans (environed_inherit hbased)).trans (environed_envAll hnamed)
  cases cwd with
  | none =>
    cases h
    exact hset
  | some dir =>
    have hdir : Environed host named next [] [host.osPath dir] :=
      .one (.cwd (host.osPath dir)) (builderCall_eq_ok.mp h)
    simpa using hset.trans hdir

end ProcessKit.Cli

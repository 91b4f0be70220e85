import ProcessKit.Running.Handle

/-!
# Which guard a verb meets first

Three guards refuse a call that cannot drive the shared runtime:
`reject_reentrant_runtime` a sync verb inside the runtime, `require_event_loop`
an a-prefixed verb without a running loop, and `guard_against_fork` a process
forked after the runtime was initialized. A verb that spends its handle checks
the first two before it takes anything. The third stands inside `block_on` and
`runtime()`, so a sync verb meets it with the handle already empty.

A call is a computation over the state of its handle. An error leaves the state
as it is where the error is raised; what the call took by then is dropped.
-/

namespace ProcessKit.Guards

open ProcessKit.Runtime (PyErr PyResult ProcessError.newErr)
open ProcessKit.Running (JointFinish Claimed Verb consumedError uncapturedError)

/-- Where a call is made. `owner` is `RUNTIME_OWNER_PID`: the process that first
touched the runtime, or zero. -/
structure Context where
  insideRuntime : Bool
  loopRunning : Bool
  pid : Nat
  owner : Nat

def Context.forked (ctx : Context) : Bool := !(ctx.owner == 0 || ctx.owner == ctx.pid)

/-- The first touch of the runtime claims `RUNTIME_OWNER_PID` for this process
(`0`: not yet claimed); a call that it lets through never reads that here. -/
def guardAgainstFork (ctx : Context) : PyResult Unit :=
  if ctx.forked then .error <| ProcessError.newErr <|
    "processkit's async runtime was initialized in a parent process and cannot be used here: this " ++
    "process was created by POSIX fork() (for example os.fork(), or multiprocessing / " ++
    "ProcessPoolExecutor with the default 'fork' start method on Linux) after processkit had " ++
    "already run. A forked child does not inherit the runtime's worker threads, so driving it now " ++
    "would hang or panic. Use the 'spawn' or 'forkserver' start method " ++
    "(multiprocessing.get_context(\"spawn\")), or perform the fork before the first processkit call."
  else .ok ()

def rejectReentrantRuntime (ctx : Context) : PyResult Unit :=
  if ctx.insideRuntime then .error <| ProcessError.newErr <|
    "cannot call a synchronous processkit verb from inside an async context or a callback that runs " ++
    "on the runtime (e.g. a Supervisor stop_when predicate); use the async (a-prefixed) API, or " ++
    "compute the value before the callback"
  else .ok ()

def requireEventLoop (ctx : Context) : PyResult Unit :=
  if ctx.loopRunning then .ok () else .error <| ProcessError.newErr <|
    "no running asyncio event loop; call this async (a-prefixed) verb with `await` from inside a " ++
    "coroutine, not from sync code"

/-- What `block_on_interruptible` checks before it polls the future. -/
def blockOn (ctx : Context) : PyResult Unit := do
  guardAgainstFork ctx
  rejectReentrantRuntime ctx

-- ---------------------------------------------------------------------------
-- The shapes of a verb
-- ---------------------------------------------------------------------------

abbrev Call (σ α : Type) := EStateM PyErr σ α

/-- Rust's `?` on a result that does not touch the handle. -/
def check (result : PyResult α) : Call σ α :=
  match result with
  | .ok a => pure a
  | .error e => throw e

/-- What a call that is not refused goes on to: the runtime drives its future,
or a lazy awaitable holds it, or there was nothing to do. -/
inductive Effect (α : Type)
  | drives (taken : α)
  | awaitable (taken : Option α)
  | nothing
  deriving DecidableEq

/-- A sync verb; `argument` is the result of converting its number, if it has one. -/
def blocking (ctx : Context) (argument : PyResult Unit) (take : Call σ α) : Call σ (Effect α) := do
  check argument
  check (rejectReentrantRuntime ctx)
  let taken ← take
  check (blockOn ctx)
  return .drives taken

def blockingIfOpen (ctx : Context) (take : Call σ (Option α)) : Call σ (Effect α) := do
  check (rejectReentrantRuntime ctx)
  match ← take with
  | some taken => do
    check (blockOn ctx)
    return .drives taken
  | none => return .nothing

def awaiting (ctx : Context) (argument : PyResult Unit) (take : Call σ α) : Call σ (Effect α) := do
  check argument
  check (requireEventLoop ctx)
  let taken ← take
  return .awaitable (some taken)

def awaitingIfOpen (ctx : Context) (take : Call σ (Option α)) : Call σ (Effect α) := do
  check (requireEventLoop ctx)
  let taken ← take
  return .awaitable taken

-- ---------------------------------------------------------------------------
-- RunningProcess
-- ---------------------------------------------------------------------------

structure RunningProcess where
  finish : JointFinish
  slot : Bool
  deriving DecidableEq

namespace RunningProcess

def take : Call RunningProcess Bool := do
  let h ← get
  set { h with slot := false }
  return h.slot

def takeClaim : Call RunningProcess (Option Claimed) := do
  let h ← get
  if h.finish = .running then do
    set { h with finish := .taken }
    return some .joint
  else if ← take then return some .process
  else do
    -- only another thread can have published a finisher in between
    let h ← get
    if h.finish = .running then do
      set { h with finish := .taken }
      return some .joint
    else return none

def claim : Call RunningProcess Claimed := do
  match ← takeClaim with
  | some claimed => return claimed
  | none => throw consumedError

def takeRunningUncaptured (verb : String) : Call RunningProcess Claimed := do
  let h ← get
  if h.finish ≠ .notStarted then throw (uncapturedError verb)
  else if ← take then return .process
  else throw consumedError

def call (ctx : Context) (argument : PyResult Unit) : Verb → Call RunningProcess (Effect Claimed)
  | .outcome => blocking ctx (.ok ()) claim
  | .aoutcome => awaiting ctx (.ok ()) claim
  | .finish => blocking ctx (.ok ()) claim
  | .afinish => awaiting ctx (.ok ()) claim
  | .output => blocking ctx (.ok ()) (takeRunningUncaptured "output")
  | .aoutput => awaiting ctx (.ok ()) (takeRunningUncaptured "aoutput")
  | .outputBytes => blocking ctx (.ok ()) (takeRunningUncaptured "output_bytes")
  | .aoutputBytes => awaiting ctx (.ok ()) (takeRunningUncaptured "aoutput_bytes")
  | .profile => blocking ctx argument (takeRunningUncaptured "profile")
  | .aprofile => awaiting ctx argument (takeRunningUncaptured "aprofile")
  | .shutdown => blocking ctx argument claim
  | .ashutdown => awaiting ctx argument claim
  | .exit => blockingIfOpen ctx takeClaim
  | .aexit => awaitingIfOpen ctx takeClaim

end RunningProcess

-- ---------------------------------------------------------------------------
-- ProcessGroup
-- ---------------------------------------------------------------------------

structure ProcessGroup where
  inner : Bool
  deriving DecidableEq

inductive GroupVerb
  | stop
  | astop
  | shutdown
  | ashutdown
  | exit
  | aexit
  deriving DecidableEq

namespace ProcessGroup

def group : Call ProcessGroup Unit := do
  if (← get).inner then return () else throw (ProcessError.newErr "ProcessGroup is already closed")

def take : Call ProcessGroup (Option Unit) := do
  let h ← get
  set { h with inner := false }
  return if h.inner then some () else none

def call (ctx : Context) (argument : PyResult Unit) : GroupVerb → Call ProcessGroup (Effect Unit)
  | .stop => blocking ctx argument group
  | .astop => awaiting ctx argument group
  | .shutdown => blockingIfOpen ctx take
  | .ashutdown => awaitingIfOpen ctx take
  | .exit => blockingIfOpen ctx take
  | .aexit => awaitingIfOpen ctx take

end ProcessGroup

-- ---------------------------------------------------------------------------
-- Supervisor and SupervisionSession
-- ---------------------------------------------------------------------------

/-- Both have these fields; `completed` is the error cell of the `when` runner. -/
structure Supervised where
  inner : Bool
  errorSlot : Option PyErr
  completed : Option PyErr
  deriving DecidableEq

inductive SupervisorVerb
  | run
  | arun
  | start
  | astart
  deriving DecidableEq

inductive SessionVerb
  | wait
  | awaitWait
  | stop
  | astop
  | exit
  | aexit
  deriving DecidableEq

namespace Supervised

def takeOr (consumed : String) : Call Supervised Unit := do
  let h ← get
  if h.inner then set { h with inner := false } else throw (ProcessError.newErr consumed)

def takeIfOpen : Call Supervised (Option Unit) := do
  let h ← get
  set { h with inner := false }
  return if h.inner then some () else none

def takeSupervisor : Call Supervised Unit := takeOr "this Supervisor has already been run"

def take : Call Supervised Unit := takeOr "this SupervisionSession has already completed"

/-- The error that a refused `block_on` comes out as: a callback's error that
is still in its cell goes first. -/
def convertError (error : PyErr) : Call Supervised α := do
  let h ← get
  match h.completed with
  | some err => do
    set { h with completed := none }
    throw err
  | none =>
    match h.errorSlot with
    | some err => do
      set { h with errorSlot := none }
      throw err
    | none => throw error

def driven (ctx : Context) : Call Supervised (Effect Unit) :=
  match blockOn ctx with
  | .ok () => return .drives ()
  | .error e => convertError e

def blocking (ctx : Context) (argument : PyResult Unit) (take : Call Supervised Unit) :
    Call Supervised (Effect Unit) := do
  check argument
  check (rejectReentrantRuntime ctx)
  take
  driven ctx

def supervisor (ctx : Context) : SupervisorVerb → Call Supervised (Effect Unit)
  | .run => blocking ctx (.ok ()) takeSupervisor
  | .arun => awaiting ctx (.ok ()) takeSupervisor
  | .start => do
    check (rejectReentrantRuntime ctx)
    takeSupervisor
    -- `runtime()?` for the spawn of the session's task
    check (guardAgainstFork ctx)
    return .drives ()
  | .astart => awaiting ctx (.ok ()) takeSupervisor

def session (ctx : Context) (argument : PyResult Unit) :
    SessionVerb → Call Supervised (Effect Unit)
  | .wait => blocking ctx (.ok ()) take
  | .awaitWait => awaiting ctx (.ok ()) take
  | .stop => blocking ctx argument take
  | .astop => awaiting ctx argument take
  | .exit => do
    check (rejectReentrantRuntime ctx)
    match ← takeIfOpen with
    | some _ => driven ctx
    | none => return .nothing
  | .aexit => awaitingIfOpen ctx takeIfOpen

end Supervised

-- ---------------------------------------------------------------------------
-- What a refused call leaves behind
-- ---------------------------------------------------------------------------

/-- The call raises and the handle is as it was. -/
def Unspent (call : Call σ α) (s : σ) : Prop := ∃ e, call.run s = .error e s

def Keeps (call : Call σ α) (s : σ) : Prop :=
  match call.run s with
  | .ok _ s' | .error _ s' => s' = s

def Invalid (argument : PyResult Unit) : Prop := ∃ e, argument = .error e

@[simp] theorem check_ok_bind (a : α) (rest : α → Call σ β) : check (.ok a) >>= rest = rest a := rfl

@[simp] theorem run_throw (e : PyErr) (s : σ) : (throw e : Call σ α).run s = .error e s := rfl

theorem unspent_check_error {rest : α → Call σ β} (h : ∃ e, result = .error e) :
    Unspent (check result >>= rest) s := by
  obtain ⟨e, rfl⟩ := h
  exact ⟨e, rfl⟩

theorem rejectReentrantRuntime_inside (h : ctx.insideRuntime = true) :
    ∃ e, rejectReentrantRuntime ctx = .error e := ⟨_, by rw [rejectReentrantRuntime, if_pos h]⟩

theorem rejectReentrantRuntime_outside (h : ctx.insideRuntime = false) :
    rejectReentrantRuntime ctx = .ok () := by simp [rejectReentrantRuntime, h]

theorem guardAgainstFork_forked (h : ctx.forked = true) : ∃ e, guardAgainstFork ctx = .error e :=
  ⟨_, by rw [guardAgainstFork, if_pos h]⟩

theorem blockOn_forked (h : ctx.forked = true) : ∃ e, blockOn ctx = .error e := by
  obtain ⟨e, he⟩ := guardAgainstFork_forked h
  exact ⟨e, by simp [blockOn, he, Bind.bind, Except.bind]⟩

theorem requireEventLoop_stopped (h : ctx.loopRunning = false) :
    ∃ e, requireEventLoop ctx = .error e := ⟨_, by rw [requireEventLoop, if_neg (by simp [h])]⟩

theorem unspent_take_error {take : Call σ α} {rest : α → Call σ β}
    (hrest : ∀ a s, (rest a).run s = .error e s) : Unspent (take >>= rest) s ↔ Keeps take s := by
  unfold Unspent Keeps
  rw [EStateM.run_bind]
  cases take.run s with
  | ok a s' => simp [hrest]
  | error e' s' => simp

theorem blocking_unspent {take : Call σ α}
    (hrefused : ctx.insideRuntime = true ∨ ctx.forked = true) :
    Unspent (blocking ctx argument take) s ↔
      Invalid argument ∨ ctx.insideRuntime = true ∨ Keeps take s := by
  cases argument with
  | error e => exact iff_of_true (unspent_check_error ⟨e, rfl⟩) (.inl ⟨e, rfl⟩)
  | ok u =>
    rw [blocking, check_ok_bind]
    cases hinside : ctx.insideRuntime with
    | true =>
      exact iff_of_true (unspent_check_error (rejectReentrantRuntime_inside hinside))
        (.inr (.inl rfl))
    | false =>
      obtain ⟨e, he⟩ := blockOn_forked (hrefused.resolve_left (by simp [hinside]))
      rw [rejectReentrantRuntime_outside hinside, check_ok_bind, he]
      refine Iff.trans (unspent_take_error fun _ _ => rfl) ?_
      simp [Invalid]

theorem blockingIfOpen_unspent {take : Call σ (Option α)}
    (hrefused : ctx.insideRuntime = true ∨ ctx.forked = true)
    (htake : ∀ taken s', take.run s = .ok (some taken) s' → s' ≠ s)
    (hok : ∃ taken s', take.run s = .ok taken s') :
    Unspent (blockingIfOpen ctx take) s ↔ ctx.insideRuntime = true := by
  rw [blockingIfOpen]
  cases hinside : ctx.insideRuntime with
  | true => exact iff_of_true (unspent_check_error (rejectReentrantRuntime_inside hinside)) rfl
  | false =>
    obtain ⟨e, he⟩ := blockOn_forked (hrefused.resolve_left (by simp [hinside]))
    obtain ⟨taken, s', hrun⟩ := hok
    rw [rejectReentrantRuntime_outside hinside, check_ok_bind, he]
    refine iff_of_false ?_ nofun
    rintro ⟨e', hraised⟩
    rw [EStateM.run_bind, hrun] at hraised
    cases taken with
    | none => cases hraised
    | some taken =>
      cases hraised
      exact htake taken s hrun rfl

theorem awaiting_unspent {take : Call σ α} (hloop : ctx.loopRunning = false) :
    Unspent (awaiting ctx argument take) s := by
  cases argument with
  | error e => exact unspent_check_error ⟨e, rfl⟩
  | ok u =>
    rw [awaiting, check_ok_bind]
    exact unspent_check_error (requireEventLoop_stopped hloop)

theorem awaitingIfOpen_unspent {take : Call σ (Option α)} (hloop : ctx.loopRunning = false) :
    Unspent (awaitingIfOpen ctx take) s := unspent_check_error (requireEventLoop_stopped hloop)

-- ---------------------------------------------------------------------------
-- What each verb takes
-- ---------------------------------------------------------------------------

namespace RunningProcess

def takes (verb : Verb) (h : RunningProcess) : Bool :=
  match verb.uncaptured with
  | some _ => h.finish == .notStarted && h.slot
  | none => h.finish == .running || h.slot

theorem takeClaim_run (h : RunningProcess) : takeClaim.run h =
    if h.finish = .running then .ok (some .joint) { h with finish := .taken }
    else if h.slot then .ok (some .process) { h with slot := false }
    else .ok none h := by
  obtain ⟨finish, slot⟩ := h
  cases finish <;> cases slot <;> rfl

theorem takeRunningUncaptured_run (verb : String) (h : RunningProcess) :
    (takeRunningUncaptured verb).run h =
      if h.finish ≠ .notStarted then .error (uncapturedError verb) h
      else if h.slot then .ok .process { h with slot := false }
      else .error consumedError h := by
  obtain ⟨finish, slot⟩ := h
  cases finish <;> cases slot <;> rfl

theorem keeps_claim (h : RunningProcess) :
    Keeps claim h ↔ (h.finish == .running || h.slot) = false := by
  obtain ⟨finish, slot⟩ := h
  cases finish <;> cases slot <;> simp [Keeps, claim, takeClaim_run]

theorem keeps_takeRunningUncaptured (verb : String) (h : RunningProcess) :
    Keeps (takeRunningUncaptured verb) h ↔ (h.finish == .notStarted && h.slot) = false := by
  obtain ⟨finish, slot⟩ := h
  cases finish <;> cases slot <;> simp [Keeps, takeRunningUncaptured_run]

theorem exit_unspent (hrefused : ctx.insideRuntime = true ∨ ctx.forked = true)
    (h : RunningProcess) :
    Unspent (blockingIfOpen ctx takeClaim) h ↔ ctx.insideRuntime = true := by
  obtain ⟨finish, slot⟩ := h
  refine blockingIfOpen_unspent hrefused (fun taken h' hrun => ?_) ?_
  · cases finish <;> cases slot <;> cases hrun <;> nofun
  · cases finish <;> cases slot <;> exact ⟨_, _, rfl⟩

end RunningProcess

namespace ProcessGroup

def takes : GroupVerb → ProcessGroup → Bool
  | .stop, _ | .astop, _ => false
  | _, h => h.inner

theorem keeps_group (h : ProcessGroup) : Keeps group h := by
  obtain ⟨inner⟩ := h
  cases inner <;> rfl

theorem shutdown_unspent (hrefused : ctx.insideRuntime = true ∨ ctx.forked = true)
    (h : ProcessGroup) : Unspent (blockingIfOpen ctx take) h ↔ ctx.insideRuntime = true := by
  obtain ⟨inner⟩ := h
  refine blockingIfOpen_unspent hrefused (fun taken h' hrun => ?_) ?_
  · cases inner with
    | false => cases hrun
    | true =>
      cases hrun
      nofun
  · exact ⟨_, _, rfl⟩

end ProcessGroup

namespace Supervised

theorem convertError_run (e : PyErr) (h : Supervised) :
    ∃ e' h', (convertError e : Call Supervised α).run h = .error e' h' ∧ h'.inner = h.inner := by
  obtain ⟨inner, errorSlot, completed⟩ := h
  cases completed with
  | some err => exact ⟨_, _, rfl, rfl⟩
  | none =>
    cases errorSlot with
    | some err => exact ⟨_, _, rfl, rfl⟩
    | none => exact ⟨_, _, rfl, rfl⟩

theorem driven_run (hforked : ctx.forked = true) (h : Supervised) :
    ∃ e' h', (driven ctx).run h = .error e' h' ∧ h'.inner = h.inner := by
  obtain ⟨e, he⟩ := blockOn_forked hforked
  rw [driven, he]
  exact convertError_run e h

theorem not_unspent_of_taken {rest : Call Supervised α} {h h' : Supervised}
    (hrest : ∃ e h'', rest.run h' = .error e h'' ∧ h''.inner = h'.inner)
    (hinner : h.inner ≠ h'.inner) : ¬ ∃ e, rest.run h' = .error e h := by
  obtain ⟨e, h'', hrun, hsame⟩ := hrest
  rintro ⟨e', hraised⟩
  rw [hrun] at hraised
  cases hraised
  exact hinner hsame

theorem blocking_unspent (hrefused : ctx.insideRuntime = true ∨ ctx.forked = true)
    (consumed : String) (h : Supervised) :
    Unspent (blocking ctx argument (takeOr consumed)) h ↔
      Invalid argument ∨ ctx.insideRuntime = true ∨ h.inner = false := by
  cases argument with
  | error e => exact iff_of_true (unspent_check_error ⟨e, rfl⟩) (.inl ⟨e, rfl⟩)
  | ok u =>
    rw [blocking, check_ok_bind]
    cases hinside : ctx.insideRuntime with
    | true =>
      exact iff_of_true (unspent_check_error (rejectReentrantRuntime_inside hinside))
        (.inr (.inl rfl))
    | false =>
      rw [rejectReentrantRuntime_outside hinside, check_ok_bind]
      obtain ⟨inner, errorSlot, completed⟩ := h
      cases inner with
      | false => exact iff_of_true ⟨_, rfl⟩ (.inr (.inr rfl))
      | true =>
        have hforked := hrefused.resolve_left (by simp [hinside])
        refine iff_of_false ?_ (by simp [Invalid])
        show ¬ ∃ e, (driven ctx).run ⟨false, errorSlot, completed⟩ = .error e _
        exact not_unspent_of_taken (driven_run hforked _) nofun

theorem start_unspent (hrefused : ctx.insideRuntime = true ∨ ctx.forked = true) (h : Supervised) :
    Unspent (supervisor ctx .start) h ↔ ctx.insideRuntime = true ∨ h.inner = false := by
  rw [supervisor]
  cases hinside : ctx.insideRuntime with
  | true =>
    exact iff_of_true (unspent_check_error (rejectReentrantRuntime_inside hinside)) (.inl rfl)
  | false =>
    rw [rejectReentrantRuntime_outside hinside, check_ok_bind]
    obtain ⟨inner, errorSlot, completed⟩ := h
    cases inner with
    | false => exact iff_of_true ⟨_, rfl⟩ (.inr rfl)
    | true =>
      obtain ⟨e, he⟩ := guardAgainstFork_forked (hrefused.resolve_left (by simp [hinside]))
      rw [he]
      refine iff_of_false ?_ (by simp)
      rintro ⟨e', hraised⟩
      cases hraised

theorem exit_unspent (hrefused : ctx.insideRuntime = true ∨ ctx.forked = true) (h : Supervised) :
    Unspent (session ctx argument .exit) h ↔ ctx.insideRuntime = true := by
  rw [session]
  cases hinside : ctx.insideRuntime with
  | true => exact iff_of_true (unspent_check_error (rejectReentrantRuntime_inside hinside)) rfl
  | false =>
    rw [rejectReentrantRuntime_outside hinside, check_ok_bind]
    refine iff_of_false ?_ nofun
    obtain ⟨inner, errorSlot, completed⟩ := h
    cases inner with
    | false => nofun
    | true =>
      have hforked := hrefused.resolve_left (by simp [hinside])
      show ¬ ∃ e, (driven ctx).run ⟨false, errorSlot, completed⟩ = .error e _
      exact not_unspent_of_taken (driven_run hforked _) nofun

end Supervised

-- ---------------------------------------------------------------------------
-- Every verb of every handle
-- ---------------------------------------------------------------------------

/-- One class of handles: its states, what a call takes out of one, its
consuming verbs and teardowns, and what the verbs are like. -/
structure Surface where
  State : Type
  Owned : Type
  Verb : Type
  call : Context → PyResult Unit → Verb → Call State (Effect Owned)
  /-- The verb has no `a` in front of its name. -/
  sync : Verb → Bool
  /-- It converts a number first. -/
  converts : Verb → Bool
  /-- It obtains something from a handle in this state. -/
  takes : Verb → State → Bool
  /-- On a spent handle it returns and does not raise. -/
  idempotent : Verb → Bool

def runningProcess : Surface where
  State := RunningProcess
  Owned := Claimed
  Verb := Verb
  call := RunningProcess.call
  sync
    | .outcome | .finish | .output | .outputBytes | .profile | .shutdown | .exit => true
    | _ => false
  converts
    | .profile | .aprofile | .shutdown | .ashutdown => true
    | _ => false
  takes := RunningProcess.takes
  idempotent := Verb.tearsDown

def processGroup : Surface where
  State := ProcessGroup
  Owned := Unit
  Verb := GroupVerb
  call := ProcessGroup.call
  sync
    | .stop | .shutdown | .exit => true
    | _ => false
  converts
    | .stop | .astop => true
    | _ => false
  takes := ProcessGroup.takes
  idempotent
    | .stop | .astop => false
    | _ => true

def supervisor : Surface where
  State := Supervised
  Owned := Unit
  Verb := SupervisorVerb
  call ctx _ := Supervised.supervisor ctx
  sync
    | .run | .start => true
    | _ => false
  converts _ := false
  takes _ h := h.inner
  idempotent _ := false

def supervisionSession : Surface where
  State := Supervised
  Owned := Unit
  Verb := SessionVerb
  call := Supervised.session
  sync
    | .wait | .stop | .exit => true
    | _ => false
  converts
    | .stop | .astop => true
    | _ => false
  takes _ h := h.inner
  idempotent
    | .exit | .aexit => true
    | _ => false

/-- The runtime cannot be driven by such a call from here. -/
def Context.Refuses (ctx : Context) (sync : Bool) : Prop :=
  if sync then ctx.insideRuntime = true ∨ ctx.forked = true else ctx.loopRunning = false

/-- A guard before the take refuses the call, or there is nothing to take. -/
def Surface.GuardedFirst (S : Surface) (ctx : Context) (argument : PyResult Unit) (verb : S.Verb)
    (h : S.State) : Prop :=
  S.sync verb = false ∨ (S.converts verb = true ∧ Invalid argument) ∨ ctx.insideRuntime = true ∨
    (S.takes verb h = false ∧ S.idempotent verb = false)

theorem runningProcess_unspent (hrefused : ctx.Refuses (runningProcess.sync verb))
    (h : RunningProcess) : Unspent (RunningProcess.call ctx argument verb) h ↔
      runningProcess.GuardedFirst ctx argument verb h := by
  cases verb with
  | outcome | finish | shutdown =>
    rw [RunningProcess.call, blocking_unspent hrefused, RunningProcess.keeps_claim]
    simp [Surface.GuardedFirst, runningProcess, RunningProcess.takes, Invalid, Verb.uncaptured,
      Verb.tearsDown]
  | output | outputBytes | profile =>
    rw [RunningProcess.call, blocking_unspent hrefused, RunningProcess.keeps_takeRunningUncaptured]
    simp [Surface.GuardedFirst, runningProcess, RunningProcess.takes, Invalid, Verb.uncaptured,
      Verb.tearsDown]
  | exit =>
    rw [RunningProcess.call, RunningProcess.exit_unspent hrefused]
    simp [Surface.GuardedFirst, runningProcess, Verb.tearsDown]
  | aoutcome | afinish | aoutput | aoutputBytes | aprofile | ashutdown =>
    exact iff_of_true (awaiting_unspent hrefused) (.inl rfl)
  | aexit => exact iff_of_true (awaitingIfOpen_unspent hrefused) (.inl rfl)

theorem processGroup_unspent (hrefused : ctx.Refuses (processGroup.sync verb)) (h : ProcessGroup) :
    Unspent (ProcessGroup.call ctx argument verb) h ↔
      processGroup.GuardedFirst ctx argument verb h := by
  cases verb with
  | stop =>
    rw [ProcessGroup.call, blocking_unspent hrefused]
    simp [Surface.GuardedFirst, processGroup, ProcessGroup.takes, ProcessGroup.keeps_group]
  | shutdown | exit =>
    rw [ProcessGroup.call, ProcessGroup.shutdown_unspent hrefused]
    simp [Surface.GuardedFirst, processGroup]
  | astop => exact iff_of_true (awaiting_unspent hrefused) (.inl rfl)
  | ashutdown | aexit => exact iff_of_true (awaitingIfOpen_unspent hrefused) (.inl rfl)

theorem supervisor_unspent (hrefused : ctx.Refuses (supervisor.sync verb)) (h : Supervised) :
    Unspent (Supervised.supervisor ctx verb) h ↔ supervisor.GuardedFirst ctx argument verb h := by
  cases verb with
  | run =>
    rw [Supervised.supervisor, Supervised.takeSupervisor, Supervised.blocking_unspent hrefused]
    simp [Surface.GuardedFirst, supervisor, Invalid]
  | start =>
    rw [Supervised.start_unspent hrefused]
    simp [Surface.GuardedFirst, supervisor]
  | arun | astart => exact iff_of_true (awaiting_unspent hrefused) (.inl rfl)

theorem supervisionSession_unspent (hrefused : ctx.Refuses (supervisionSession.sync verb))
    (h : Supervised) : Unspent (Supervised.session ctx argument verb) h ↔
      supervisionSession.GuardedFirst ctx argument verb h := by
  cases verb with
  | wait | stop =>
    rw [Supervised.session, Supervised.take, Supervised.blocking_unspent hrefused]
    simp [Surface.GuardedFirst, supervisionSession, Invalid]
  | exit =>
    rw [Supervised.exit_unspent hrefused]
    simp [Surface.GuardedFirst, supervisionSession]
  | awaitWait | astop => exact iff_of_true (awaiting_unspent hrefused) (.inl rfl)
  | aexit => exact iff_of_true (awaitingIfOpen_unspent hrefused) (.inl rfl)

inductive Kind
  | runningProcess
  | processGroup
  | supervisor
  | supervisionSession
  deriving DecidableEq

def Kind.surface : Kind → Surface
  | .runningProcess => Guards.runningProcess
  | .processGroup => Guards.processGroup
  | .supervisor => Guards.supervisor
  | .supervisionSession => Guards.supervisionSession

/-- A refused call raises and leaves its handle as it was exactly when a guard
stands before the take, or there is nothing to take. -/
theorem refused_unspent (k : Kind) (ctx : Context) (argument : PyResult Unit)
    (verb : k.surface.Verb) (h : k.surface.State) (hrefused : ctx.Refuses (k.surface.sync verb)) :
    Unspent (k.surface.call ctx argument verb) h ↔
      k.surface.GuardedFirst ctx argument verb h := by
  cases k with
  | runningProcess => exact runningProcess_unspent hrefused h
  | processGroup => exact processGroup_unspent hrefused h
  | supervisor => exact supervisor_unspent hrefused h
  | supervisionSession => exact supervisionSession_unspent hrefused h

/-- A sync verb called from a callback that runs on the runtime. -/
theorem refused_unspent_inside : Unspent (Kind.runningProcess.surface.call
    ⟨true, false, 7, 7⟩ (.ok ()) Verb.outcome) (⟨.notStarted, true⟩ : RunningProcess) :=
  (refused_unspent .runningProcess ⟨true, false, 7, 7⟩ (.ok ()) Verb.outcome
    (⟨.notStarted, true⟩ : RunningProcess) (.inl rfl)).mpr (.inr (.inr (.inl rfl)))

/-- Process 8 was forked from process 7, which had touched the runtime. -/
theorem refused_spent : ¬ ∀ (k : Kind) (ctx : Context) argument (verb : k.surface.Verb) h,
    ctx.Refuses (k.surface.sync verb) → Unspent (k.surface.call ctx argument verb) h := by
  intro hall
  have hunspent := hall .runningProcess ⟨false, false, 8, 7⟩ (.ok ()) .outcome ⟨.notStarted, true⟩
    (.inr rfl)
  obtain ⟨e, hraised⟩ := hunspent
  cases hraised

end ProcessKit.Guards

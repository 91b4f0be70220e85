import ProcessKit.Aio.Retry
import ProcessKit.Python.Str
import Mathlib.Data.List.Infix

/-!
# Waiting for a predicate or for a line

`wait_until` and `wait_for_line` drive a task under `asyncio.wait`, up to a deadline.
When the deadline is over or the caller is cancelled, `_quiesce` cancels the task, if
the helper has made it, and waits until it has ended, whatever it does with the
cancellation.

The first step of a task that was made comes before its maker goes on. The clock moves
while a helper awaits; a sleep may end late, and never early.
-/

namespace ProcessKit.Aio

open ProcessKit.Runtime (PyErr PyResult ProcessError.newErr)
open Python (PyStr)

-- ---------------------------------------------------------------------------
-- A task that is waited for
-- ---------------------------------------------------------------------------

def Task.done : Task ε ρ → Bool
  | .running => false
  | .cancelled | .exception _ | .result _ => true

def Task.isCancelled : Task ε ρ → Bool
  | .cancelled => true
  | .running | .exception _ | .result _ => false

/-- A task or future, and what has been called on it. `owned` is `task is not outcome`;
`retrieved` is that asyncio will not report its exception as never retrieved. -/
structure Watched (ρ : Type) where
  owned : Bool
  begun : Bool
  state : Task PyErr ρ
  cancelCalled : Bool
  retrieved : Bool
  deriving DecidableEq

namespace Watched

/-- `ensure_future`, of a coroutine. -/
def created : Watched ρ := ⟨true, false, .running, false, false⟩

/-- `ensure_future`, of a future. -/
def supplied (state : Task PyErr ρ) : Watched ρ := ⟨false, true, state, false, false⟩

/-- `task.cancel()`, which also takes back the report of a task that is done. -/
def cancel (task : Watched ρ) : Watched ρ :=
  { task with cancelCalled := true, retrieved := task.retrieved || task.state.done }

/-- `task.exception()` or `task.result()`, of a task that is done. -/
def retrieve (task : Watched ρ) : Watched ρ := { task with retrieved := true }

end Watched

inductive Clause
  | exceptCancelled
  | deadlineFired
  deriving DecidableEq

/-- The await of `asyncio.wait({task})`: the helper's own, or that of `_quiesce`. -/
inductive Wait
  | waiting (timeout : Seconds)
  | quiescing (clause : Clause) (pendingCancel : Bool)
  deriving DecidableEq

/-- How a wait is over. `drained` is the result of a task that the deadline has ended. -/
inductive WaitEnd (ρ : Type)
  | result (value : ρ)
  | drained (value : ρ)
  | raised (error : PyErr)
  | deadline
  | cancelled

namespace Watched

def woken (task : Watched ρ) : Watched ρ × (Wait ⊕ WaitEnd ρ) :=
  match task.state with
  | .running =>
    if task.owned then (task.cancel, .inl (.quiescing .deadlineFired false))
    else (task, .inr .deadline)
  | .cancelled => (task, .inr .cancelled)
  | .exception error => (task.retrieve, .inr (.raised error))
  | .result value => (task.retrieve, .inr (.result value))

/-- A `CancelledError` is raised in the await. -/
def interrupted (task : Watched ρ) : Wait → Watched ρ × (Wait ⊕ WaitEnd ρ)
  | .waiting _ =>
    if task.owned then (task.cancel, .inl (.quiescing .exceptCancelled false))
    else (task, .inr .cancelled)
  | .quiescing clause _ => (task.cancel, .inl (.quiescing clause true))

/-- `asyncio.wait` returns to `_quiesce`, and `_quiesce` to the clause. -/
def drained (task : Watched ρ) (clause : Clause) (pendingCancel : Bool) :
    Watched ρ × WaitEnd ρ :=
  if pendingCancel then
    (if task.state.isCancelled then task else task.retrieve, .cancelled)
  else
    match clause, task.state with
    -- the bare `raise`: nothing asks for the exception
    | .exceptCancelled, _ => (task, .cancelled)
    | .deadlineFired, .exception error => (task.retrieve, .raised error)
    | .deadlineFired, .result value => (task.retrieve, .drained value)
    | .deadlineFired, .cancelled | .deadlineFired, .running => (task, .deadline)

end Watched

/-- What the waits of a helper are woken by. `cancel` is the caller's cancellation. -/
inductive WaitMove
  | wake (elapsed : ℚ)
  | drained (elapsed : ℚ)
  | cancel (elapsed : ℚ)
  deriving DecidableEq

def WaitMove.elapsed : WaitMove → ℚ
  | .wake elapsed | .drained elapsed | .cancel elapsed => elapsed

def WaitMove.events (cancelled : ε) : WaitMove → List ε
  | .cancel _ => [cancelled]
  | .wake _ | .drained _ => []

def Watched.wait (task : Watched ρ) (wait : Wait) (move : WaitMove) :
    Option (Watched ρ × (Wait ⊕ WaitEnd ρ)) :=
  if 0 ≤ move.elapsed ∧ task.begun then
    match move, wait with
    | .wake elapsed, .waiting timeout =>
      if task.state.done ∨ timeout ≤ elapsed then some task.woken else none
    | .drained _, .quiescing clause pendingCancel =>
      if task.state.done then
        let (task, how) := task.drained clause pendingCancel
        some (task, .inr how)
      else none
    | .cancel _, wait => some (task.interrupted wait)
    | _, _ => none
  else none

/-- The task's own steps. It may be cancelled by others, and may end as it likes when it
is cancelled. -/
inductive TaskMove (ρ : Type)
  | begin
  | finish (how : Task PyErr ρ)

def Watched.move (task : Watched ρ) : TaskMove ρ → Option (Watched ρ)
  | .begin => if task.begun then none else some { task with begun := true }
  | .finish how =>
    if task.begun ∧ task.state.done = false then some { task with state := how } else none

/-- A `WaitTimeout`, by what its message says before `within {timeout}s`. -/
structure WaitTimeout where
  subject : String
  timeoutSeconds : Seconds
  deriving DecidableEq

inductive Ending (ρ : Type)
  | returned (value : ρ)
  | timedOut (error : WaitTimeout)
  | raised (error : PyErr)
  | cancelled
  deriving DecidableEq

-- ---------------------------------------------------------------------------
-- wait_until
-- ---------------------------------------------------------------------------

/-- The checks of `wait_until`, in its order. -/
def waitUntilBounds (timeout interval : PyFloat) : PyResult Bounds :=
  validateProbeRetry timeout interval

/-- A call is let through with its own two bounds and no others, so a run under any bounds is one
that a call can make. -/
theorem waitUntilBounds_ok : waitUntilBounds timeout interval = .ok bounds ↔
    timeout = .of bounds.timeout ∧ interval = .of bounds.interval := by
  constructor
  · intro h
    simp only [waitUntilBounds, validateProbeRetry, checkTimeout] at h
    split at h
    · cases h
    · cases h
    · split at h
      · split at h
        · next hcheck =>
          cases h
          split at hcheck
          · cases hcheck
          · cases hcheck
          · split at hcheck
            · cases hcheck
            · cases hcheck
              exact ⟨rfl, rfl⟩
        · cases h
      · cases h
  · rintro ⟨rfl, rfl⟩
    simp [waitUntilBounds, validateProbeRetry, checkTimeout, bounds.interval_pos,
      not_lt.mpr bounds.timeout_nonneg]

/-- What a call of `predicate` makes. A value counts by its truth, which may raise;
`coroutine` is any awaitable that is no future. -/
inductive Evaluated
  | raised (error : PyErr)
  | value (truth : PyResult Bool)
  | coroutine
  | future (state : Task PyErr (PyResult Bool))
  deriving DecidableEq

inductive PollPhase
  | top
  | awaiting (wait : Wait)
  | sleeping (delay : Seconds)
  | ended (how : Ending Unit)
  deriving DecidableEq

/-- `wait_until`; the last of the tasks comes first. -/
structure Poll where
  now : ℚ
  deadline : Seconds
  tasks : List (Watched (PyResult Bool))
  phase : PollPhase

/-- `found` is the state of an awaitable when the helper is done with it. -/
inductive PollEvent
  | evaluated (now : ℚ) (outcome : Evaluated)
  | found (now : ℚ) (task : Task PyErr (PyResult Bool))
  | slept (now : ℚ)
  | cancelled
  deriving DecidableEq

inductive PollAction
  | evaluate (outcome : Evaluated)
  | wait (move : WaitMove)
  | slept (elapsed : ℚ)
  | interrupt (elapsed : ℚ)
  | task (index : Nat) (move : TaskMove (PyResult Bool))

namespace Poll

def new (bounds : Bounds) (start : ℚ) : Poll where
  now := start
  deadline := (start : Seconds) + bounds.timeout
  tasks := []
  phase := .top

def timeout (bounds : Bounds) : WaitTimeout := ⟨"condition not met", bounds.timeout⟩

def ending (s : Poll) (how : Ending Unit) : Poll := { s with phase := .ended how }

def judge (bounds : Bounds) (s : Poll) : PyResult Bool → Poll
  | .error error => s.ending (.raised error)
  | .ok true => s.ending (.returned ())
  | .ok false =>
    let remaining := s.deadline.since s.now
    if remaining ≤ 0 then s.ending (.timedOut (timeout bounds))
    else { s with phase := .sleeping (min bounds.interval remaining) }

def await (s : Poll) (task : Watched (PyResult Bool)) : Poll :=
  { s with
    tasks := task :: s.tasks
    phase := .awaiting (.waiting (max (s.deadline.since s.now) 0)) }

def evaluated (bounds : Bounds) (s : Poll) : Evaluated → Poll
  | .raised error => s.ending (.raised error)
  | .value truth => s.judge bounds truth
  | .coroutine => s.await .created
  | .future state => s.await (.supplied state)

def waited (bounds : Bounds) (s : Poll) : WaitEnd (PyResult Bool) → Poll
  | .result truth => s.judge bounds truth
  | .drained (.error error) => s.ending (.raised error)
  | .drained (.ok true) => s.ending (.returned ())
  | .drained (.ok false) | .deadline => s.ending (.timedOut (timeout bounds))
  | .raised error => s.ending (.raised error)
  | .cancelled => s.ending .cancelled

def pass (s : Poll) (elapsed : ℚ) : Poll := { s with now := s.now + elapsed }

def foundEvents (now : ℚ) (task : Task PyErr (PyResult Bool)) : WaitMove → List PollEvent
  | .cancel _ => []
  | .wake _ | .drained _ => [.found now task]

def step (bounds : Bounds) (s : Poll) : PollAction → Option (Poll × List PollEvent)
  | .evaluate outcome =>
    match s.phase with
    | .top => some (s.evaluated bounds outcome, [.evaluated s.now outcome])
    | _ => none
  | .wait move =>
    match s.phase, s.tasks with
    | .awaiting wait, task :: tasks =>
      match task.wait wait move with
      | some (task', next) =>
        let s := { s.pass move.elapsed with tasks := task' :: tasks }
        match next with
        | .inl wait => some ({ s with phase := .awaiting wait }, move.events .cancelled)
        | .inr how =>
          some (s.waited bounds how, move.events .cancelled ++ foundEvents s.now task.state move)
      | none => none
    | _, _ => none
  | .slept elapsed =>
    match s.phase with
    | .sleeping delay =>
      if 0 ≤ elapsed ∧ delay ≤ elapsed then
        some ({ s.pass elapsed with phase := .top }, [.slept (s.now + elapsed)])
      else none
    | _ => none
  | .interrupt elapsed =>
    match s.phase with
    | .sleeping _ =>
      if 0 ≤ elapsed then some ((s.pass elapsed).ending .cancelled, [.cancelled]) else none
    | _ => none
  | .task index move =>
    match s.phase, s.tasks[index]? with
    -- nothing else runs between the helper's awaits
    | .top, _ => none
    | _, some task =>
      (task.move move).map fun task => ({ s with tasks := s.tasks.set index task }, [])
    | _, none => none

def machine (bounds : Bounds) (start : ℚ) : Transition.Machine Poll PollAction PollEvent where
  init := .new bounds start
  step := step bounds

end Poll

-- ---------------------------------------------------------------------------
-- wait_for_line
-- ---------------------------------------------------------------------------

def contains (needle item : PyStr) : PyResult Bool := .ok (decide (needle <:+: item))

inductive Advance (ι : Type)
  | item (item : ι)
  | exhausted
  | raised (error : PyErr)
  | cancelled

def scan (predicate : ι → PyResult Bool) : Advance ι → Task PyErr ι
  | .item item =>
    match predicate item with
    | .error error => .exception error
    | .ok true => .result item
    | .ok false => .running
  | .exhausted => .exception (ProcessError.newErr "the output stream ended before a matching line")
  | .raised error => .exception error
  | .cancelled => .cancelled

inductive ScanPhase (ι : Type)
  | awaiting (wait : Wait)
  | ended (how : Ending ι)
  deriving DecidableEq

structure Scan (ι : Type) where
  task : Watched ι
  phase : ScanPhase ι

inductive ScanEvent
  | cancelled
  deriving DecidableEq

inductive ScanAction (ι : Type)
  | wait (move : WaitMove)
  | begin
  | advance (next : Advance ι)

namespace Scan

def new (timeout : Seconds) : Scan ι := ⟨.created, .awaiting (.waiting (max timeout 0))⟩

def waited (timeout : Seconds) : WaitEnd ι → Ending ι
  | .result item | .drained item => .returned item
  | .raised error => .raised error
  | .deadline => .timedOut ⟨"no matching line", timeout⟩
  | .cancelled => .cancelled

def step (predicate : ι → PyResult Bool) (timeout : Seconds) (s : Scan ι) :
    ScanAction ι → Option (Scan ι × List ScanEvent)
  | .wait move =>
    match s.phase with
    | .awaiting wait =>
      (s.task.wait wait move).map fun (task, next) =>
        match next with
        | .inl wait => (⟨task, .awaiting wait⟩, move.events .cancelled)
        | .inr how => (⟨task, .ended (waited timeout how)⟩, move.events .cancelled)
    | .ended _ => none
  | .begin => (s.task.move .begin).map fun task => ({ s with task }, [])
  | .advance next =>
    (s.task.move (.finish (scan predicate next))).map fun task => ({ s with task }, [])

/-- `wait_for_line(lines, predicate, timeout=timeout)`, once the timeout is checked. -/
def machine (predicate : ι → PyResult Bool)
    (timeout : { timeout : Seconds // 0 ≤ timeout }) :
    Transition.Machine (Scan ι) (ScanAction ι) ScanEvent where
  init := .new timeout
  step := step predicate timeout

end Scan

end ProcessKit.Aio

import ProcessKit.Transition
import ProcessKit.Runtime.Hub
import Mathlib.Algebra.Order.Field.Rat
import Mathlib.Algebra.Order.Monoid.Unbundled.WithTop

/-!
# The readiness driver

`_retry_probe` makes attempts until one is accepted or the deadline is over. Each is
a task under `asyncio.wait_for`, which raises its `TimeoutError` when the window of
the attempt closes. In the tick of the event loop in which it closes the task may
end as well; then `wait_for` raises all the same, and the task has ended.

The clock moves while the driver awaits, and a wake-up may come late. What runs
between two awaits takes no time. `inf` is a timeout like any other.
-/

namespace ProcessKit.Aio

open ProcessKit.Runtime (PyErr PyResult)

/-- A Python `float` that is no NaN and not `-inf`, as a time or a duration. -/
abbrev Seconds := WithTop ℚ

def Seconds.since (s : Seconds) (now : ℚ) : Seconds := s.map (· - now)

def zeroTimeoutConnectTick : Seconds := ((1 / 20 : ℚ) : WithTop ℚ)

theorem Seconds.since_le (s : Seconds) (now elapsed : ℚ) :
    s.since now ≤ (elapsed : Seconds) ↔ s ≤ ((now + elapsed : ℚ) : Seconds) := by
  induction s using WithTop.recTopCoe with
  | top => simp [Seconds.since]
  | coe s =>
    have hmap : Seconds.since (s : Seconds) now = ((s - now : ℚ) : Seconds) := rfl
    rw [hmap]
    norm_cast
    exact sub_le_iff_le_add'

theorem Seconds.since_le_zero (s : Seconds) (now : ℚ) : s.since now ≤ 0 ↔ s ≤ now := by
  simpa using s.since_le now 0

theorem Seconds.since_ne_top {s : Seconds} (h : s ≠ ⊤) (now : ℚ) : s.since now ≠ ⊤ := by
  lift s to ℚ using h
  exact WithTop.coe_ne_top

theorem Seconds.add_since (s : Seconds) (now : ℚ) : (now : Seconds) + s.since now = s := by
  induction s using WithTop.recTopCoe with
  | top => rfl
  | coe s =>
    have hmap : Seconds.since (s : Seconds) now = ((s - now : ℚ) : Seconds) := rfl
    rw [hmap]
    norm_cast
    exact add_sub_cancel now s

theorem Seconds.since_add (s : Seconds) (now : ℚ) :
    Seconds.since ((now : Seconds) + s) now = s := by
  induction s using WithTop.recTopCoe with
  | top => rfl
  | coe s =>
    have hmap : Seconds.since ((now : Seconds) + (s : Seconds)) now =
        ((now + s - now : ℚ) : Seconds) := rfl
    rw [hmap]
    norm_cast
    exact add_sub_cancel_left now s

-- ---------------------------------------------------------------------------
-- The arguments
-- ---------------------------------------------------------------------------

inductive PyFloat
  | nan
  | negInf
  | of (value : Seconds)

structure Bounds where
  timeout : Seconds
  interval : Seconds
  timeout_nonneg : 0 ≤ timeout
  interval_pos : 0 < interval

theorem Bounds.exists_interval (bounds : Bounds) :
    ∃ i : ℚ, 0 < i ∧ (i : Seconds) ≤ bounds.interval := by
  by_cases htop : bounds.interval = ⊤
  · exact ⟨1, one_pos, htop ▸ le_top⟩
  · obtain ⟨i, hi⟩ := WithTop.ne_top_iff_exists.mp htop
    have hpos := bounds.interval_pos
    rw [← hi] at hpos
    exact ⟨i, by exact_mod_cast hpos, hi.le⟩

def oneSecond : Bounds where
  timeout := 1
  interval := zeroTimeoutConnectTick
  timeout_nonneg := by decide +kernel
  interval_pos := by decide +kernel

def ValueError.newErr (message : String) : PyErr := ⟨"ValueError", message⟩

def checkTimeout : PyFloat → PyResult { timeout : Seconds // 0 ≤ timeout }
  | .nan => .error (ValueError.newErr "timeout must not be NaN")
  | .negInf => .error (ValueError.newErr "timeout must not be negative")
  | .of timeout =>
    if h : timeout < 0 then .error (ValueError.newErr "timeout must not be negative")
    else .ok ⟨timeout, not_lt.mp h⟩

def validateProbeRetry (timeout : PyFloat) : PyFloat → PyResult Bounds
  | .nan | .negInf =>
    .error (ValueError.newErr "interval must be a positive number of seconds")
  | .of interval =>
    if h : 0 < interval then
      match checkTimeout timeout with
      | .ok ⟨timeout, hnonneg⟩ => .ok ⟨timeout, interval, hnonneg, h⟩
      | .error err => .error err
    else .error (ValueError.newErr "interval must be a positive number of seconds")

-- ---------------------------------------------------------------------------
-- One attempt
-- ---------------------------------------------------------------------------

inductive Task (ε ρ : Type)
  | running
  | cancelled
  | exception (error : ε)
  | result (result : ρ)
  deriving DecidableEq

/-- What `_settle_probe` does with an abandoned task. A cancelled one it looks at
again when it is done. -/
inductive Settled (ρ : Type)
  | cancel
  | nothing
  | cleanup (result : ρ)
  deriving DecidableEq

def settleProbe : Task ε ρ → Settled ρ
  | .running => .cancel
  | .cancelled | .exception _ => .nothing
  | .result result => .cleanup result

/-- The arguments of `_retry_probe`, as its callers pass them. `timeoutError` is what
`wait_for` raises, and a caller retries it. `isNone` is which of an attempt's results
is `None`. -/
structure Retry (ε ρ : Type) extends Bounds where
  timeoutError : ε
  isTimeout : ε → Bool
  retries : ε → Bool
  isNone : ρ → Bool
  isTimeout_timeoutError : isTimeout timeoutError = true
  retries_timeoutError : retries timeoutError = true

/-- What is an `OSError`, and what an `asyncio.TimeoutError`. -/
structure Subclasses where
  osError : PyErr → Bool
  timeoutError : PyErr → Bool
  timeoutError_refl : timeoutError ⟨"TimeoutError", ""⟩ = true

/-- `retry_exceptions=(OSError, asyncio.TimeoutError)`. -/
def connectionRetry (sub : Subclasses) (bounds : Bounds) : Retry PyErr Nat where
  toBounds := bounds
  timeoutError := ⟨"TimeoutError", ""⟩
  isTimeout := sub.timeoutError
  retries error := sub.osError error || sub.timeoutError error
  isNone _ := false
  isTimeout_timeoutError := sub.timeoutError_refl
  retries_timeoutError := by simp [sub.timeoutError_refl]

def byType : Subclasses where
  osError error := error.type = "OSError"
  timeoutError error := error.type = "TimeoutError"
  timeoutError_refl := by decide

def Retry.window (cfg : Retry ε ρ) (remaining : Seconds) (firstAttempt : Bool) : Seconds :=
  if firstAttempt then max remaining (min cfg.interval zeroTimeoutConnectTick) else remaining

inductive Waited (ε ρ : Type)
  | returned (result : ρ)
  | raised (error : ε)
  | cancelled

inductive Next (ε ρ : Type)
  | evaluate (result : ρ)
  | nothing
  | again (lastExc : ε) (settled : Settled ρ)
  | raised (error : ε)
  | cancelled (settled : Settled ρ)

/-- `if result is not None`. -/
def Retry.resolved (cfg : Retry ε ρ) (result : ρ) : Next ε ρ :=
  if cfg.isNone result then .nothing else .evaluate result

/-- The clauses around `wait_for`. -/
def Retry.afterWait (cfg : Retry ε ρ) (task : Task ε ρ) : Waited ε ρ → Next ε ρ
  | .returned result => cfg.resolved result
  | .raised exc =>
    if cfg.retries exc then
      match cfg.isTimeout exc, task with
      | true, .result result => cfg.resolved result
      | _, task => .again exc (settleProbe task)
    else .raised exc
  | .cancelled => .cancelled (settleProbe task)

/-- An attempt as its window sees it: it ends before the window closes, in the tick
in which it closes, or not at all. -/
inductive Fate (ε ρ : Type)
  | finished (outcome : Except ε ρ)
  | raced (outcome : Except ε ρ)
  | expired
  deriving DecidableEq

def Task.ended : Except ε ρ → Task ε ρ
  | .ok value => .result value
  | .error error => .exception error

def Fate.task : Fate ε ρ → Task ε ρ
  | .finished outcome | .raced outcome => .ended outcome
  | .expired => .cancelled

def Waited.own : Except ε ρ → Waited ε ρ
  | .ok value => .returned value
  | .error error => .raised error

def Fate.waited (cfg : Retry ε ρ) : Fate ε ρ → Waited ε ρ
  | .finished outcome => .own outcome
  | .raced _ | .expired => .raised cfg.timeoutError

def Fate.dueBy (window : Seconds) (elapsed : ℚ) : Fate ε ρ → Prop
  | .finished _ => True
  | .raced _ | .expired => window ≤ elapsed

instance (window : Seconds) (elapsed : ℚ) : (fate : Fate ε ρ) →
    Decidable (fate.dueBy window elapsed)
  | .finished _ => inferInstanceAs (Decidable True)
  | .raced _ | .expired => inferInstanceAs (Decidable (window ≤ (elapsed : Seconds)))

inductive Verdict (ε : Type)
  | accepts
  | rejects (error : ε)
  | raises (error : ε)
  deriving DecidableEq

-- ---------------------------------------------------------------------------
-- The driver
-- ---------------------------------------------------------------------------

inductive Outcome (ε : Type)
  | returned
  | waitTimeout (cause : Option ε)
  | raised (error : ε)
  | cancelled
  deriving DecidableEq

/-- Where the driver is: at the head of its loop, or in one of its awaits. -/
inductive Phase (ε ρ : Type)
  | top (firstAttempt : Bool)
  | waiting (window : Seconds)
  | evaluating (result : ρ)
  | sleeping (delay : Seconds)
  | ended (outcome : Outcome ε)
  deriving DecidableEq

structure Driver (ε ρ : Type) where
  now : ℚ
  deadline : Seconds
  lastExc : Option ε
  phase : Phase ε ρ

inductive Event (ε ρ : Type)
  | started (time : ℚ) (window : Seconds)
  | seen (fate : Fate ε ρ)
  | judged (verdict : Verdict ε)
  | cancelled
  deriving DecidableEq

/-- `cancel` is the caller's, and finds the attempt's task in any state. -/
inductive Action (ε ρ : Type)
  | turn
  | wake (elapsed : ℚ) (fate : Fate ε ρ)
  | judge (elapsed : ℚ) (verdict : Verdict ε)
  | slept (elapsed : ℚ)
  | cancel (elapsed : ℚ) (task : Task ε ρ)

namespace Driver

def new (cfg : Retry ε ρ) (start : ℚ) : Driver ε ρ where
  now := start
  deadline := (start : Seconds) + cfg.timeout
  lastExc := none
  phase := .top true

def afterAttempt (cfg : Retry ε ρ) (d : Driver ε ρ) : Driver ε ρ :=
  let remaining := d.deadline.since d.now
  if remaining ≤ 0 then { d with phase := .ended (.waitTimeout d.lastExc) }
  else { d with phase := .sleeping (min cfg.interval remaining) }

def attempt (cfg : Retry ε ρ) (d : Driver ε ρ) (firstAttempt : Bool) :
    Driver ε ρ × List (Event ε ρ) :=
  let remaining := d.deadline.since d.now
  if firstAttempt = false ∧ remaining ≤ 0 then
    ({ d with phase := .ended (.waitTimeout d.lastExc) }, [])
  else
    let window := cfg.window remaining firstAttempt
    ({ d with phase := .waiting window }, [.started d.now window])

def waited (cfg : Retry ε ρ) (d : Driver ε ρ) (task : Task ε ρ) (w : Waited ε ρ) : Driver ε ρ :=
  match cfg.afterWait task w with
  | .evaluate result => { d with phase := .evaluating result }
  | .nothing => d.afterAttempt cfg
  | .again exc _ => { d with lastExc := some exc }.afterAttempt cfg
  | .raised error => { d with phase := .ended (.raised error) }
  | .cancelled _ => { d with phase := .ended .cancelled }

def judged (cfg : Retry ε ρ) (d : Driver ε ρ) : Verdict ε → Driver ε ρ
  | .accepts => { d with phase := .ended .returned }
  | .rejects error => { d with lastExc := some error }.afterAttempt cfg
  | .raises error => { d with phase := .ended (.raised error) }

def pass (d : Driver ε ρ) (elapsed : ℚ) : Driver ε ρ := { d with now := d.now + elapsed }

def step (cfg : Retry ε ρ) (d : Driver ε ρ) :
    Action ε ρ → Option (Driver ε ρ × List (Event ε ρ))
  | .turn =>
    match d.phase with
    | .top firstAttempt => some (d.attempt cfg firstAttempt)
    | _ => none
  | .wake elapsed fate =>
    match d.phase with
    | .waiting window =>
      if 0 ≤ elapsed ∧ fate.dueBy window elapsed then
        some ((d.pass elapsed).waited cfg fate.task (fate.waited cfg), [.seen fate])
      else none
    | _ => none
  | .judge elapsed verdict =>
    match d.phase with
    | .evaluating _ =>
      if 0 ≤ elapsed then some ((d.pass elapsed).judged cfg verdict, [.judged verdict]) else none
    | _ => none
  | .slept elapsed =>
    match d.phase with
    | .sleeping delay =>
      if 0 ≤ elapsed ∧ delay ≤ elapsed then some ({ d.pass elapsed with phase := .top false }, [])
      else none
    | _ => none
  | .cancel elapsed task =>
    match d.phase with
    | .waiting _ =>
      if 0 ≤ elapsed then some ((d.pass elapsed).waited cfg task .cancelled, [.cancelled]) else none
    | .evaluating _ | .sleeping _ =>
      if 0 ≤ elapsed then
        some ({ d.pass elapsed with phase := .ended .cancelled }, [.cancelled])
      else none
    | _ => none

def machine (ε ρ : Type) (cfg : Retry ε ρ) (start : ℚ) :
    Transition.Machine (Driver ε ρ) (Action ε ρ) (Event ε ρ) where
  init := .new cfg start
  step := step cfg

end Driver

end ProcessKit.Aio

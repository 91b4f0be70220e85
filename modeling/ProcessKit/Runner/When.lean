import ProcessKit.Runtime.Hub

/-!
# Errors out of an infallible hook

The crate's hooks return a plain `bool`, so a Python callback behind one of them
that raises cannot say so through its return value. A runner callback puts its
error into the sink that the enclosing verb has scoped around its future, and
answers so that the crate stops where it is. The verb reads the sink when its
future resolves.
-/

namespace ProcessKit.Runner

open ProcessKit.Runtime (PyErr PyResult)

-- ---------------------------------------------------------------------------
-- Calling a Python predicate
-- ---------------------------------------------------------------------------

/-- What a Python callable returned; `other` carries the `TypeError` that its
extraction as a `bool` raises. -/
inductive PyValue
  | bool (value : Bool)
  | other (error : PyErr)
  deriving DecidableEq

def PyValue.extractBool : PyValue → PyResult Bool
  | .bool value => .ok value
  | .other error => .error error

/-- One call of a Python callable from Rust. `finalizing` is a `try_attach` that
finds the interpreter going away. -/
inductive Called
  | finalizing
  | returned (value : PyValue)
  | raised (error : PyErr)
  deriving DecidableEq

/-- `callback.call1(..).and_then(extract::<bool>)` under `try_attach`. -/
def Called.verdict : Called → Option (PyResult Bool)
  | .finalizing => none
  | .returned value => some value.extractBool
  | .raised error => some (.error error)

def Called.error : Called → Option PyErr
  | .raised error | .returned (.other error) => some error
  | .finalizing | .returned (.bool _) => none

def Called.accepts (called : Called) : Bool := called.verdict = some (.ok true)

def Called.claims (called : Called) : Bool := called.error.isSome || called.accepts

theorem Called.verdict_of_error {c : Called} (h : c.error = some e) :
    c.verdict = some (.error e) := by
  unfold Called.error at h
  split at h <;> cases h <;> rfl

theorem Called.verdict_of_no_error {c : Called} (h : c.error = none) :
    c.verdict = none ∨ c.verdict = some (.ok c.accepts) := by
  unfold Called.error at h
  split at h
  · cases h
  · cases h
  · exact .inl rfl
  · rename_i b
    refine .inr ?_
    cases b <;> rfl

theorem Called.claims_of_error {c : Called} (h : c.error = some e) : c.claims = true := by
  simp [Called.claims, h]

theorem Called.claims_of_no_error {c : Called} (h : c.error = none) : c.claims = c.accepts := by
  simp [Called.claims, h]

-- ---------------------------------------------------------------------------
-- The sink
-- ---------------------------------------------------------------------------

abbrev WhenSink := Option PyErr

def newWhenSink : WhenSink := none

/-- `WHEN_PREDICATE_ERROR` where the code of a future reads it: the sink of the
innermost scope, if there is one. -/
abbrev WhenLocal := Option WhenSink

/-- The first error stays. Outside every scope the error comes back. -/
def stashWhenError (error : PyErr) : WhenLocal → WhenLocal × Option PyErr
  | some sink => (some (sink.or (some error)), none)
  | none => (none, some error)

def takeWhenError (sink : WhenSink) : Option PyErr × WhenSink := (sink, none)

/-- The match verdict for a predicate that failed. Out of scope the error goes
to the unraisable hook. -/
def propagateWhenError (error : PyErr) (slot : WhenLocal) : Bool × WhenLocal :=
  match stashWhenError error slot with
  | (slot, none) => (true, slot)
  | (slot, some _) => (false, slot)

def makeCommandPredicate (called : Called) (slot : WhenLocal) : Bool × WhenLocal :=
  match called.verdict with
  | none => (false, slot)
  | some (.ok accepts) => (accepts, slot)
  | some (.error error) => propagateWhenError error slot

/-- Code that runs with `sink` scoped around it, and what it leaves there. -/
def scopeWhen (sink : WhenSink) (code : WhenLocal → α × WhenLocal) : α × WhenSink :=
  let ran := code (some sink)
  (ran.1, ran.2.getD none)

def stashAll (errors : List PyErr) (slot : WhenLocal) : WhenLocal :=
  errors.foldl (fun slot error => (stashWhenError error slot).1) slot

-- ---------------------------------------------------------------------------
-- WhenCaptureRunner
-- ---------------------------------------------------------------------------

/-- `WhenCaptureRunner.completed`: the error of the verb that resolved last. -/
abbrev CompletedCell := Option PyErr

/-- A later error replaces an earlier one. -/
def CompletedCell.record (_ : CompletedCell) (error : PyErr) : CompletedCell := some error

def CompletedCell.takeCompletedError (cell : CompletedCell) : Option PyErr × CompletedCell :=
  (cell, none)

def CompletedCell.hasCompletedError (cell : CompletedCell) : Bool := cell.isSome

/-- The tail of a `WhenCaptureRunner` verb, once the inner future resolved. -/
def CompletedCell.handOff (cell : CompletedCell) (sink : WhenSink) : CompletedCell :=
  match (takeWhenError sink).1 with
  | some error => cell.record error
  | none => cell

-- ---------------------------------------------------------------------------
-- What a predicate leaves in the sink
-- ---------------------------------------------------------------------------

theorem propagateWhenError_scoped (error : PyErr) (sink : WhenSink) :
    propagateWhenError error (some sink) = (true, some (sink.or (some error))) := rfl

theorem makeCommandPredicate_error {called : Called} (h : called.error = some e)
    (sink : WhenSink) :
    makeCommandPredicate called (some sink) = (true, some (sink.or (some e))) := by
  rw [makeCommandPredicate, Called.verdict_of_error h]
  exact propagateWhenError_scoped e sink

theorem makeCommandPredicate_ok {called : Called} (h : called.error = none) (slot : WhenLocal) :
    makeCommandPredicate called slot = (called.accepts, slot) := by
  rcases Called.verdict_of_no_error h with hv | hv
  · simp [makeCommandPredicate, hv, Called.accepts]
  · simp only [makeCommandPredicate, hv]

theorem stashAll_scoped (errors : List PyErr) (sink : WhenSink) :
    stashAll errors (some sink) = some (sink.or errors.head?) := by
  induction errors generalizing sink with
  | nil => simp [stashAll]
  | cons e errors ih =>
    have := ih (sink.or (some e))
    cases sink <;> simp_all [stashAll, stashWhenError]

theorem scopeWhen_stashAll (errors : List PyErr) (sink : WhenSink) :
    (scopeWhen sink fun slot => ((), stashAll errors slot)).2 = sink.or errors.head? := by
  simp [scopeWhen, stashAll_scoped]

theorem CompletedCell.handOff_empty (sink : WhenSink) :
    CompletedCell.handOff none sink = sink := by
  cases sink <;> rfl

end ProcessKit.Runner

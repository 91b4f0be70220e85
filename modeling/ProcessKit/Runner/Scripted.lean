import ProcessKit.Runner.When

/-!
# A scripted runner under its four captures

A `ScriptedRunner` resolves a command against its rules in order, and awaits
the reply of the first rule that matches. A `when` predicate that fails claims a
match, so that no later rule can answer, and the enclosing verb raises its
error in preference to the reply. The verb reads the error when its future
resolves: behind a reply that never resolves it is not read.

A verb may ask its rules several times (`Command.retry`), so a verb is a tree:
every attempt has the rules with what their predicates do this time, and goes
on with what it was answered.
-/

namespace ProcessKit.Runner

open ProcessKit.Runtime (PyErr PyResult)

/-- What a reply's future gives to a verb: the crate's result, or nothing, ever. -/
inductive Reply (ρ : Type)
  | resolves (result : ρ)
  | pending
  deriving DecidableEq

/-- A rule and, for a predicate, the call of it in this attempt. -/
inductive Rule (ρ : Type)
  | on (argPrefix : List String) (reply : Reply ρ)
  | when (predicate : Called) (reply : Reply ρ)

/-- A run verb over a runner: `none` is an attempt that no rule and no fallback
answered. -/
inductive Verb (ρ β : Type)
  | done (result : β)
  | attempt (rules : List (Rule ρ)) (next : Option ρ → Verb ρ β)

structure Asked (ρ : Type) where
  argv : List String
  fallback : Option (Reply ρ)

-- ---------------------------------------------------------------------------
-- The crate's rule resolution
-- ---------------------------------------------------------------------------

/-- Rules are tried in order; the predicates run code that sees `slot`. -/
def Asked.resolve (q : Asked ρ) : List (Rule ρ) → WhenLocal → Option (Reply ρ) × WhenLocal
  | [], slot => (q.fallback, slot)
  | .on argPrefix reply :: rules, slot =>
    if argPrefix <+: q.argv then (some reply, slot) else q.resolve rules slot
  | .when predicate reply :: rules, slot =>
    let (accepts, slot) := makeCommandPredicate predicate slot
    if accepts then (some reply, slot) else q.resolve rules slot

/-- The verb's future, polled until it resolves: `none` when it never does. -/
def Asked.run (q : Asked ρ) : Verb ρ β → WhenLocal → Option β × WhenLocal
  | .done result, slot => (some result, slot)
  | .attempt rules next, slot =>
    match q.resolve rules slot with
    | (none, slot) => q.run (next none) slot
    | (some (.resolves result), slot) => q.run (next (some result)) slot
    | (some .pending, slot) => (none, slot)

-- ---------------------------------------------------------------------------
-- The captures
-- ---------------------------------------------------------------------------

section
variable (mapErr : κ → PyErr) (q : Asked ρ)

def withWhenCaptureSync (verb : Verb ρ (Except κ α)) : Option (PyResult α) :=
  match scopeWhen newWhenSink (q.run verb) with
  | (none, _) => none
  | (some result, sink) =>
    match (takeWhenError sink).1 with
    | some err => some (.error err)
    | none => some (result.mapError mapErr)

def withWhenCaptureAsync (verb : Verb ρ (Except κ α)) : Option (PyResult α) :=
  let (result, sink) := scopeWhen newWhenSink (q.run verb)
  result.map fun result =>
    match (takeWhenError sink).1 with
    | some err => .error err
    | none => result.mapError mapErr

def scopeWhenCapture (future : WhenLocal → Option (PyResult α) × WhenLocal) : Option (PyResult α) :=
  let (result, sink) := scopeWhen newWhenSink future
  result.map fun result =>
    match (takeWhenError sink).1 with
    | some err => .error err
    | none => result

/-- The future a `CliClient` verb hands to `scopeWhenCapture`. -/
def clientFuture (verb : Verb ρ (Except κ α)) (slot : WhenLocal) :
    Option (PyResult α) × WhenLocal :=
  let (result, slot) := q.run verb slot
  (result.map (·.mapError mapErr), slot)

/-- A verb of `WhenCaptureRunner`: the result goes on, the error into the cell. -/
def whenCaptureVerb (verb : Verb ρ β) (cell : CompletedCell) : Option β × CompletedCell :=
  match scopeWhen newWhenSink (q.run verb) with
  | (none, _) => (none, cell)
  | (some result, sink) => (some result, cell.handOff sink)

/-- A batch of one command: `collect_in_input_order` takes the cell with the
item, and a predicate's error goes before the result. -/
def whenCaptureSlot (verb : Verb ρ (Except κ α)) : Option (PyResult α) :=
  let (result, cell) := whenCaptureVerb q verb none
  result.map fun result =>
    match cell.takeCompletedError.1 with
    | some err => .error err
    | none => result.mapError mapErr

end

inductive Capture
  | sync
  | async
  | client
  | captureRunner
  deriving DecidableEq

def Capture.outcome (mapErr : κ → PyErr) (q : Asked ρ) (verb : Verb ρ (Except κ α)) :
    Capture → Option (PyResult α)
  | .sync => withWhenCaptureSync mapErr q verb
  | .async => withWhenCaptureAsync mapErr q verb
  | .client => scopeWhenCapture (clientFuture mapErr q verb)
  | .captureRunner => whenCaptureSlot mapErr q verb

-- ---------------------------------------------------------------------------
-- The runner alone
-- ---------------------------------------------------------------------------

namespace Asked

/-- The reply of the first rule that matches, for a reading of the predicates. -/
def select (q : Asked ρ) (matched : Called → Bool) : List (Rule ρ) → Option (Reply ρ)
  | [] => q.fallback
  | .on argPrefix reply :: rules =>
    if argPrefix <+: q.argv then some reply else q.select matched rules
  | .when predicate reply :: rules =>
    if matched predicate then some reply else q.select matched rules

def alone (q : Asked ρ) (matched : Called → Bool) : Verb ρ β → Option β
  | .done result => some result
  | .attempt rules next =>
    match q.select matched rules with
    | none => q.alone matched (next none)
    | some (.resolves result) => q.alone matched (next (some result))
    | some .pending => none

def failing (q : Asked ρ) : List (Rule ρ) → Option PyErr
  | [] => none
  | .on argPrefix _ :: rules => if argPrefix <+: q.argv then none else q.failing rules
  | .when predicate _ :: rules =>
    match predicate.error with
    | some error => some error
    | none => if predicate.accepts then none else q.failing rules

def raised (q : Asked ρ) : Verb ρ β → Option PyErr
  | .done _ => none
  | .attempt rules next =>
    match q.failing rules, q.select Called.accepts rules with
    | some error, _ => some error
    | none, none => q.raised (next none)
    | none, some (.resolves result) => q.raised (next (some result))
    | none, some .pending => none

/-- The attempt in which a predicate fails, or a later one, is answered with a
reply that never resolves. -/
def waitsAfterRaise (q : Asked ρ) : Verb ρ β → Prop
  | .done _ => False
  | .attempt rules next =>
    if (q.failing rules).isSome then q.alone Called.claims (.attempt rules next) = none
    else
      match q.select Called.accepts rules with
      | none => q.waitsAfterRaise (next none)
      | some (.resolves result) => q.waitsAfterRaise (next (some result))
      | some .pending => False

-- ---------------------------------------------------------------------------
-- The runner in a scope
-- ---------------------------------------------------------------------------

theorem resolve_scoped (q : Asked ρ) (rules : List (Rule ρ)) (sink : WhenSink) :
    q.resolve rules (some sink) =
      (q.select Called.claims rules, some (sink.or (q.failing rules))) := by
  induction rules with
  | nil => simp [resolve, select, failing]
  | cons rule rules ih =>
    cases rule with
    | on argPrefix reply =>
      simp only [resolve, select, failing]
      split
      · simp
      · exact ih
    | when predicate reply =>
      simp only [resolve, select, failing]
      cases he : predicate.error with
      | some e => simp [makeCommandPredicate_error he, Called.claims_of_error he]
      | none =>
        rw [makeCommandPredicate_ok he, Called.claims_of_no_error he]
        cases predicate.accepts with
        | true => simp
        | false => simpa using ih

/-- Until one fails, the predicates are read as the runner alone reads them. -/
theorem select_of_not_failing {q : Asked ρ} (rules : List (Rule ρ)) (h : q.failing rules = none) :
    q.select Called.claims rules = q.select Called.accepts rules := by
  induction rules with
  | nil => rfl
  | cons rule rules ih =>
    cases rule with
    | on argPrefix reply =>
      simp only [failing, select] at h ⊢
      split at h
      · simp [*]
      · simp [*]
    | when predicate reply =>
      simp only [failing, select] at h ⊢
      cases he : predicate.error with
      | some e => simp [he] at h
      | none =>
        rw [he] at h
        rw [Called.claims_of_no_error he]
        cases ha : predicate.accepts with
        | true => rfl
        | false => simpa using ih (by simpa [ha] using h)

theorem run_result (q : Asked ρ) (verb : Verb ρ β) (sink : WhenSink) :
    (q.run verb (some sink)).1 = q.alone Called.claims verb := by
  induction verb generalizing sink with
  | done result => rfl
  | attempt rules next ih =>
    simp only [run, alone, resolve_scoped]
    cases q.select Called.claims rules with
    | none => exact ih none _
    | some reply =>
      cases reply with
      | resolves result => exact ih (some result) _
      | pending => rfl

theorem run_keeps (q : Asked ρ) (verb : Verb ρ β) (e : PyErr) :
    (q.run verb (some (some e))).2 = some (some e) := by
  induction verb with
  | done result => rfl
  | attempt rules next ih =>
    simp only [run, resolve_scoped, Option.some_or]
    cases q.select Called.claims rules with
    | none => exact ih none
    | some reply =>
      cases reply with
      | resolves result => exact ih (some result)
      | pending => rfl

theorem run_sink (q : Asked ρ) (verb : Verb ρ β) :
    (q.run verb (some none)).2 = some (q.raised verb) := by
  induction verb with
  | done result => rfl
  | attempt rules next ih =>
    simp only [run, raised, resolve_scoped, Option.none_or]
    cases hf : q.failing rules with
    | some e =>
      cases q.select Called.claims rules with
      | none => exact q.run_keeps _ e
      | some reply =>
        cases reply with
        | resolves result => exact q.run_keeps _ e
        | pending => rfl
    | none =>
      rw [select_of_not_failing rules hf]
      cases q.select Called.accepts rules with
      | none => exact ih none
      | some reply =>
        cases reply with
        | resolves result => exact ih (some result)
        | pending => rfl

theorem alone_of_not_raised {q : Asked ρ} (verb : Verb ρ β) (h : q.raised verb = none) :
    q.alone Called.claims verb = q.alone Called.accepts verb := by
  induction verb with
  | done result => rfl
  | attempt rules next ih =>
    simp only [raised, alone] at h ⊢
    cases hf : q.failing rules with
    | some e => simp [hf] at h
    | none =>
      rw [select_of_not_failing rules hf]
      rw [hf] at h
      cases hr : q.select Called.accepts rules with
      | none => exact ih none (by simpa [hr] using h)
      | some reply =>
        cases reply with
        | resolves result => exact ih (some result) (by simpa [hr] using h)
        | pending => rfl

theorem waitsAfterRaise_iff (q : Asked ρ) (verb : Verb ρ β) :
    q.waitsAfterRaise verb ↔ q.raised verb ≠ none ∧ q.alone Called.claims verb = none := by
  induction verb with
  | done result => simp [waitsAfterRaise, raised]
  | attempt rules next ih =>
    simp only [waitsAfterRaise, raised]
    cases hf : q.failing rules with
    | some e => simp
    | none =>
      simp only [Option.isSome_none, Bool.false_eq_true, if_false]
      have hselect := select_of_not_failing rules hf
      cases hr : q.select Called.accepts rules with
      | none => simp only [alone, hselect, hr, ih]
      | some reply =>
        cases reply with
        | resolves result => simp only [alone, hselect, hr, ih]
        | pending => simp

end Asked

-- ---------------------------------------------------------------------------
-- What a capture reports
-- ---------------------------------------------------------------------------

section
variable {mapErr : κ → PyErr} {q : Asked ρ}

theorem Capture.outcome_eq (w : Capture) (verb : Verb ρ (Except κ α)) :
    w.outcome mapErr q verb = (q.alone Called.claims verb).map fun result =>
      match q.raised verb with
      | some err => .error err
      | none => result.mapError mapErr := by
  have hresult := q.run_result verb none
  have hsink := q.run_sink verb
  cases w with
  | sync =>
    simp only [Capture.outcome, withWhenCaptureSync, scopeWhen, newWhenSink, hresult, hsink,
      takeWhenError, Option.getD_some]
    cases q.alone Called.claims verb <;> cases q.raised verb <;> rfl
  | async =>
    simp only [Capture.outcome, withWhenCaptureAsync, scopeWhen, newWhenSink, hresult, hsink,
      takeWhenError, Option.getD_some]
  | client =>
    simp only [Capture.outcome, scopeWhenCapture, clientFuture, scopeWhen, newWhenSink, hresult,
      hsink, takeWhenError, Option.getD_some]
    cases q.alone Called.claims verb <;> cases q.raised verb <;> rfl
  | captureRunner =>
    simp only [Capture.outcome, whenCaptureSlot, whenCaptureVerb, scopeWhen, newWhenSink, hresult,
      hsink, CompletedCell.handOff, takeWhenError, Option.getD_some]
    cases q.alone Called.claims verb <;> cases q.raised verb <;> rfl

/-- The first error of a predicate is what the verb ends with, and without one
the verb ends as the runner alone would. -/
structure Capture.Surfaces (mapErr : κ → PyErr) (q : Asked ρ) (verb : Verb ρ (Except κ α))
    (w : Capture) : Prop where
  raised : ∀ e, q.raised verb = some e → w.outcome mapErr q verb = some (.error e)
  transparent : q.raised verb = none →
    w.outcome mapErr q verb = (q.alone Called.accepts verb).map (·.mapError mapErr)

theorem Capture.surfaces_iff (w : Capture) (verb : Verb ρ (Except κ α)) :
    w.Surfaces mapErr q verb ↔ ¬ q.waitsAfterRaise verb := by
  rw [q.waitsAfterRaise_iff]
  refine ⟨fun hs ⟨hraised, hnone⟩ => ?_, fun hw => ⟨fun e he => ?_, fun hnone => ?_⟩⟩
  · obtain ⟨e, he⟩ := Option.ne_none_iff_exists'.mp hraised
    have hout := hs.raised e he
    rw [w.outcome_eq, hnone] at hout
    cases hout
  · rw [w.outcome_eq, he]
    cases halone : q.alone Called.claims verb with
    | none => exact absurd ⟨by simp [he], halone⟩ hw
    | some result => rfl
  · rw [w.outcome_eq, hnone, Asked.alone_of_not_raised verb hnone]

end

/-- One attempt whose first rule has a predicate that raises, over a reply that
never resolves. -/
def parkedVerb : Verb Nat (Except Nat Nat) :=
  .attempt [.when (.raised ⟨"RuntimeError", "boom"⟩) .pending] fun
    | some result => .done (.ok result)
    | none => .done (.error 0)

theorem Capture.parks : ¬ ∀ (w : Capture) (mapErr : Nat → PyErr) (q : Asked Nat)
    (verb : Verb Nat (Except Nat Nat)), w.Surfaces mapErr q verb := by
  intro hall
  have hs := (hall .sync (fun _ => ⟨"ProcessError", ""⟩) ⟨["tool"], none⟩ parkedVerb).raised
    ⟨"RuntimeError", "boom"⟩ rfl
  cases hs

end ProcessKit.Runner

import Mathlib.Logic.Function.Basic
import ProcessKit.Guards
import ProcessKit.Transition

/-!
# The sync bridge

A sync verb drives its future on the calling thread with the GIL released, and comes up for the
pending signals whenever a tick goes by. Only the main thread runs signal handlers. A handler that
raises ends the call, and the future is dropped with it; any other handler lets the next tick begin.

A handler is Python code of its own and may make further calls, so the calls of one process
overlap, and those of the main thread are nested. What `check_signals` does is CPython's: where
`is_tripped` is set it is cleared and a pass over the numbers of the signals begins, which takes a
tripped signal's mark away before it runs the handler and stops at the first that raises. So a call
that a handler makes passes over the signals that the pass beneath it has yet to come to.
-/

namespace ProcessKit.Runtime.SyncBridge

open ProcessKit.Guards (Context)
open Transition (Justified)

/-- What may come to check for signals: a call on another thread than the main one, a call on the
main thread, or other Python code of the main thread between two of its instructions. -/
inductive Runner
  | thread
  | main
  | code
  deriving DecidableEq

def Runner.onMain : Runner → Bool
  | .thread => false
  | .main | .code => true

/-- Where a call of `block_on_interruptible` is: in a tick, before `check_signals`, in a pass with
the signals below `next` behind it, or in the handler of a signal. -/
inductive Place
  | idle
  | ticking
  | surfacing
  | checking (next : Nat)
  | handling (signal : Nat)
  | finished
  deriving DecidableEq

def Place.live : Place → Bool
  | .idle | .finished => false
  | .ticking | .surfacing | .checking _ | .handling _ => true

/-- The handler runs, or the future calls back. -/
def Place.runsPython : Place → Bool
  | .ticking | .handling _ => true
  | .idle | .surfacing | .checking _ | .finished => false

/-- The signals whose handlers are still to run, CPython's `is_tripped`, what is nested on the main
thread, and the calls. -/
structure Process (ι : Type) where
  tripped : List Nat
  isTripped : Bool
  stack : List ι
  place : ι → Place

/-- `poll` is one poll of the tick's timeout, which asks the future first and its own clock only
after that. A pass finds a signal with its handler or, in a race, without one. -/
inductive Action (ι κ α : Type)
  | enter (i : ι) (ctx : Context)
  | interrupt (i : ι)
  | poll (i : ι) (ready : Option (Except κ α)) (elapsed : Bool)
  | trip (signal : Nat)
  | look (i : ι)
  | next (i : ι) (handler : Bool)
  | handlerEnded (i : ι) (raised : Option PyErr)

inductive Event (ι κ α : Type)
  | entered (i : ι) (ctx : Context)
  | polled (i : ι) (ready : Option (Except κ α))
  | elapsed (i : ι)
  | tripped (signal : Nat)
  | handling (signal : Nat) (i : ι)
  | discarded (signal : Nat)
  | handled (signal : Nat) (i : ι) (raised : Option PyErr)
  | dropped (i : ι)
  | returned (i : ι) (result : Except PyErr α)

def nextTripped (tripped : List Nat) (next : Nat) : Option Nat := (tripped.filter (next ≤ ·)).min?

theorem nextTripped_some (h : nextTripped tripped next = some k) :
    k ∈ tripped ∧ next ≤ k ∧ ∀ j ∈ tripped, next ≤ j → k ≤ j := by
  obtain ⟨hmem, hleast⟩ := List.min?_eq_some_iff.mp h
  obtain ⟨htripped, hle⟩ := List.mem_filter.mp hmem
  exact ⟨htripped, by simpa using hle, fun j hj hnext => hleast j (by simp [hj, hnext])⟩

theorem nextTripped_none (h : nextTripped tripped next = none) : ∀ j ∈ tripped, j < next := by
  have hnil : tripped.filter (next ≤ ·) = [] := List.min?_eq_none_iff.mp h
  intro j hj
  simpa using List.filter_eq_nil_iff.mp hnil j hj

namespace Process

variable {ι κ α : Type}

def new : Process ι := ⟨[], false, [], fun _ => .idle⟩

/-- No call, or one that leaves the main thread to Python. -/
def runsPython (s : Process ι) : Bool := s.stack.head?.all fun i => (s.place i).runsPython

def untrip (s : Process ι) (signal : Nat) : Process ι :=
  { s with tripped := s.tripped.filter (· ≠ signal) }

@[simp] theorem untrip_place (s : Process ι) : (s.untrip k).place = s.place := rfl
@[simp] theorem untrip_stack (s : Process ι) : (s.untrip k).stack = s.stack := rfl
@[simp] theorem untrip_isTripped (s : Process ι) : (s.untrip k).isTripped = s.isTripped := rfl

@[simp] theorem mem_untrip (s : Process ι) :
    j ∈ (s.untrip k).tripped ↔ j ∈ s.tripped ∧ j ≠ k := by
  simp [untrip]

variable [DecidableEq ι]

def goto (s : Process ι) (i : ι) (place : Place) : Process ι :=
  { s with place := Function.update s.place i place }

@[simp] theorem goto_place (s : Process ι) (i : ι) (place : Place) (j : ι) :
    (s.goto i place).place j = if j = i then place else s.place j := Function.update_apply ..

@[simp] theorem goto_tripped (s : Process ι) : (s.goto i p).tripped = s.tripped := rfl
@[simp] theorem goto_stack (s : Process ι) : (s.goto i p).stack = s.stack := rfl
@[simp] theorem goto_isTripped (s : Process ι) : (s.goto i p).isTripped = s.isTripped := rfl

/-- It is what its thread runs. -/
def HasTurn (runner : ι → Runner) (s : Process ι) (i : ι) : Prop :=
  (runner i).onMain = true → s.stack.head? = some i

instance (runner : ι → Runner) (s : Process ι) (i : ι) : Decidable (s.HasTurn runner i) :=
  inferInstanceAs (Decidable ((runner i).onMain = true → s.stack.head? = some i))

def start (runner : ι → Runner) (s : Process ι) (i : ι) (place : Place) : Process ι :=
  { s.goto i place with stack := if (runner i).onMain then i :: s.stack else s.stack }

def finish (runner : ι → Runner) (s : Process ι) (i : ι) : Process ι :=
  { s.goto i .finished with stack := if (runner i).onMain then s.stack.tail else s.stack }

section
variable (runner : ι → Runner)

@[simp] theorem start_place (s : Process ι) (i : ι) (p : Place) (j : ι) :
    (s.start runner i p).place j = if j = i then p else s.place j := goto_place ..

@[simp] theorem start_tripped (s : Process ι) : (s.start runner i p).tripped = s.tripped := rfl
@[simp] theorem start_isTripped (s : Process ι) :
    (s.start runner i p).isTripped = s.isTripped := rfl

@[simp] theorem finish_place (s : Process ι) (i j : ι) :
    (s.finish runner i).place j = if j = i then .finished else s.place j := goto_place ..

@[simp] theorem finish_tripped (s : Process ι) : (s.finish runner i).tripped = s.tripped := rfl
@[simp] theorem finish_isTripped (s : Process ι) :
    (s.finish runner i).isTripped = s.isTripped := rfl

end

def step (runner : ι → Runner) (mapErr : κ → PyErr) (s : Process ι) :
    Action ι κ α → Option (Process ι × List (Event ι κ α))
  | .enter i ctx =>
    if s.place i = .idle ∧ runner i ≠ .code ∧ ((runner i).onMain = true → s.runsPython = true) then
      match Guards.blockOn ctx with
      | .ok () => some (s.start runner i .ticking, [.entered i ctx])
      | .error e =>
        some (s.goto i .finished, [.entered i ctx, .dropped i, .returned i (.error e)])
    else none
  | .interrupt i =>
    if s.place i = .idle ∧ runner i = .code ∧ s.runsPython = true ∧ s.isTripped = true then
      some ({ s.start runner i (.checking 0) with isTripped := false }, [])
    else none
  | .poll i ready elapsed =>
    if s.place i = .ticking ∧ s.HasTurn runner i then
      match ready with
      | some result =>
        some (s.finish runner i, [.polled i ready, .returned i (result.mapError mapErr)])
      | none =>
        if elapsed then some (s.goto i .surfacing, [.polled i ready, .elapsed i])
        else some (s, [.polled i ready])
    else none
  | .trip signal =>
    some ({ s with tripped := s.tripped.insert signal, isTripped := true }, [.tripped signal])
  | .look i =>
    if s.place i = .surfacing ∧ s.HasTurn runner i then
      if (runner i).onMain = true ∧ s.isTripped = true then
        some ({ s.goto i (.checking 0) with isTripped := false }, [])
      else some (s.goto i .ticking, [])
    else none
  | .next i handler =>
    match s.place i with
    | .checking next =>
      if s.HasTurn runner i then
        match nextTripped s.tripped next with
        | some signal =>
          if handler then some ((s.untrip signal).goto i (.handling signal), [.handling signal i])
          else some ((s.untrip signal).goto i (.checking (signal + 1)), [.discarded signal])
        | none =>
          if runner i = .code then some (s.finish runner i, []) else some (s.goto i .ticking, [])
      else none
    | _ => none
  | .handlerEnded i raised =>
    match s.place i with
    | .handling signal =>
      if s.HasTurn runner i then
        match raised with
        | none => some (s.goto i (.checking (signal + 1)), [.handled signal i none])
        | some e =>
          some ({ s.finish runner i with isTripped := true }, .handled signal i (some e) ::
            if runner i = .code then [] else [.dropped i, .returned i (.error e)])
      else none
    | _ => none

def machine (runner : ι → Runner) (mapErr : κ → PyErr) :
    Transition.Machine (Process ι) (Action ι κ α) (Event ι κ α) where
  init := .new
  step := step runner mapErr

-- ---------------------------------------------------------------------------
-- What a step can do
-- ---------------------------------------------------------------------------

inductive Move (runner : ι → Runner) (mapErr : κ → PyErr) (s : Process ι) :
    Process ι → List (Event ι κ α) → Prop
  | enter : s.place i = .idle → runner i ≠ .code →
      ((runner i).onMain = true → s.runsPython = true) →
      Move runner mapErr s (s.start runner i .ticking) [.entered i ctx]
  | refuse : s.place i = .idle → Guards.blockOn ctx = .error e →
      Move runner mapErr s (s.goto i .finished) [.entered i ctx, .dropped i, .returned i (.error e)]
  | interrupt : s.place i = .idle → runner i = .code → s.runsPython = true →
      Move runner mapErr s { s.start runner i (.checking 0) with isTripped := false } []
  | ready : s.place i = .ticking → s.HasTurn runner i →
      Move runner mapErr s (s.finish runner i)
        [.polled i (some result), .returned i (result.mapError mapErr)]
  | pending : s.place i = .ticking → s.HasTurn runner i →
      Move runner mapErr s s [.polled i none]
  | elapse : s.place i = .ticking → s.HasTurn runner i →
      Move runner mapErr s (s.goto i .surfacing) [.polled i none, .elapsed i]
  | trip (k : Nat) :
      Move runner mapErr s { s with tripped := s.tripped.insert k, isTripped := true } [.tripped k]
  | check : s.place i = .surfacing → s.HasTurn runner i → (runner i).onMain = true →
      Move runner mapErr s { s.goto i (.checking 0) with isTripped := false } []
  | pass : s.place i = .surfacing → s.HasTurn runner i →
      ((runner i).onMain = true → s.isTripped = false) →
      Move runner mapErr s (s.goto i .ticking) []
  | handle : s.place i = .checking next → s.HasTurn runner i → k ∈ s.tripped →
      (∀ j ∈ s.tripped, next ≤ j → k ≤ j) →
      Move runner mapErr s ((s.untrip k).goto i (.handling k)) [.handling k i]
  | discard : s.place i = .checking next → s.HasTurn runner i → k ∈ s.tripped →
      (∀ j ∈ s.tripped, next ≤ j → k ≤ j) →
      Move runner mapErr s ((s.untrip k).goto i (.checking (k + 1))) [.discarded k]
  | resume : s.place i = .checking next → s.HasTurn runner i → (∀ j ∈ s.tripped, j < next) →
      runner i ≠ .code → Move runner mapErr s (s.goto i .ticking) []
  | leave : s.place i = .checking next → s.HasTurn runner i → (∀ j ∈ s.tripped, j < next) →
      runner i = .code → Move runner mapErr s (s.finish runner i) []
  | handled : s.place i = .handling k → s.HasTurn runner i →
      Move runner mapErr s (s.goto i (.checking (k + 1))) [.handled k i none]
  | raised : s.place i = .handling k → s.HasTurn runner i → runner i ≠ .code →
      Move runner mapErr s { s.finish runner i with isTripped := true }
        [.handled k i (some e), .dropped i, .returned i (.error e)]
  | thrown : s.place i = .handling k → s.HasTurn runner i → runner i = .code →
      Move runner mapErr s { s.finish runner i with isTripped := true } [.handled k i (some e)]

variable {runner : ι → Runner} {mapErr : κ → PyErr} {s s' : Process ι}
  {log evs : List (Event ι κ α)} {i : ι}

theorem Move.of_next (h : step runner mapErr s (.next i handler : Action ι κ α) = some (s', evs)) :
    Move runner mapErr s s' evs := by
  simp only [step] at h
  split at h
  · rename_i next hplace
    obtain ⟨hturn, h⟩ := Option.ite_none_right_eq_some.mp h
    split at h
    · rename_i k hnext
      obtain ⟨hmem, -, hleast⟩ := nextTripped_some hnext
      split at h <;> cases h
      · exact .handle hplace hturn hmem hleast
      · exact .discard hplace hturn hmem hleast
    · rename_i hnext
      split at h <;> cases h
      · exact .leave hplace hturn (nextTripped_none hnext) ‹_›
      · exact .resume hplace hturn (nextTripped_none hnext) ‹_›
  · cases h

theorem Move.of_step (h : step runner mapErr s a = some (s', evs)) :
    Move runner mapErr s s' evs := by
  cases a with
  | enter i ctx =>
    simp only [step, Option.ite_none_right_eq_some] at h
    obtain ⟨⟨hplace, hcode, hpython⟩, h⟩ := h
    split at h
    · cases h
      exact .enter hplace hcode hpython
    · rename_i e hrefused
      cases h
      exact .refuse hplace hrefused
  | interrupt i =>
    simp only [step, Option.ite_none_right_eq_some] at h
    obtain ⟨⟨hplace, hcode, hpython, -⟩, h⟩ := h
    cases h
    exact .interrupt hplace hcode hpython
  | poll i ready elapsed =>
    simp only [step, Option.ite_none_right_eq_some] at h
    obtain ⟨⟨hplace, hturn⟩, h⟩ := h
    split at h
    · cases h
      exact .ready hplace hturn
    · split at h <;> cases h
      · exact .elapse hplace hturn
      · exact .pending hplace hturn
  | trip signal =>
    cases h
    exact .trip signal
  | look i =>
    simp only [step, Option.ite_none_right_eq_some] at h
    obtain ⟨⟨hplace, hturn⟩, h⟩ := h
    split at h
    · rename_i hcheck
      cases h
      exact .check hplace hturn hcheck.1
    · rename_i hpass
      cases h
      exact .pass hplace hturn (by simpa using hpass)
  | next i handler => exact .of_next h
  | handlerEnded i raised =>
    simp only [step] at h
    split at h
    · rename_i signal hplace
      obtain ⟨hturn, h⟩ := Option.ite_none_right_eq_some.mp h
      split at h
      · cases h
        exact .handled hplace hturn
      · split at h <;> cases h
        · exact .thrown hplace hturn ‹_›
        · exact .raised hplace hturn ‹_›
    · cases h

-- ---------------------------------------------------------------------------
-- One call
-- ---------------------------------------------------------------------------

end Process

namespace Event

variable {ι κ α : Type}

def call? : Event ι κ α → Option ι
  | .entered i _ | .polled i _ | .elapsed i | .handling _ i | .handled _ i _ | .dropped i
  | .returned i _ => some i
  | .tripped _ | .discarded _ => none

def own [DecidableEq ι] (i : ι) (log : List (Event ι κ α)) : List (Event ι κ α) :=
  log.filter (·.call? = some i)

/-- The future is not ready and the call goes on. -/
def Waits : Event ι κ α → Prop
  | .entered .. | .polled _ none | .elapsed _ | .handling .. | .handled _ _ none => True
  | _ => False

/-- The three ways a call ends: with what the future came to, refused before it polls the future,
or with what a handler raised. -/
inductive Ending (runner : ι → Runner) (mapErr : κ → PyErr) (i : ι) :
    List (Event ι κ α) → Except PyErr α → Prop
  | ready (result : Except κ α) : Ending runner mapErr i
      [.polled i (some result), .returned i (result.mapError mapErr)] (result.mapError mapErr)
  | refused (h : Guards.blockOn ctx = .error e) : Ending runner mapErr i
      [.entered i ctx, .dropped i, .returned i (.error e)] (.error e)
  | raised (k : Nat) (e : PyErr) (h : runner i = .main) : Ending runner mapErr i
      [.handled k i (some e), .dropped i, .returned i (.error e)] (.error e)

variable [DecidableEq ι] {log evs : List (Event ι κ α)} {i : ι}

@[simp] theorem own_append : own i (log ++ evs) = own i log ++ own i evs := List.filter_append ..

theorem mem_own {ev : Event ι κ α} : ev ∈ own i log ↔ ev ∈ log ∧ ev.call? = some i := by
  simp [own]

end Event

namespace Process

variable {ι κ α : Type} {runner : ι → Runner} {mapErr : κ → PyErr}
  {s s' : Process ι} {log evs : List (Event ι κ α)} {i : ι}

/-- Where a call has come to with these events. -/
def Standing (runner : ι → Runner) (mapErr : κ → PyErr) (i : ι) (events : List (Event ι κ α)) :
    Place → Prop
  | .idle => events = []
  | .ticking | .surfacing => ∀ ev ∈ events, ev.Waits
  | .checking _ | .handling _ => (∀ ev ∈ events, ev.Waits) ∧ (runner i).onMain = true
  | .finished => (runner i = .code ∧ ∀ result, .returned i result ∉ events) ∨
      ∃ before ending result, events = before ++ ending ∧ (∀ ev ∈ before, ev.Waits) ∧
        Event.Ending runner mapErr i ending result

theorem Standing.waits {place : Place} {events : List (Event ι κ α)}
    (h : Standing runner mapErr i events place) (hlive : place ≠ .finished) :
    ∀ ev ∈ events, ev.Waits := by
  cases place with
  | idle => simp [show events = [] from h]
  | ticking | surfacing => exact h
  | checking _ | handling _ => exact h.1
  | finished => exact absurd rfl hlive

theorem waits_append {events rest : List (Event ι κ α)} (h : ∀ ev ∈ events, ev.Waits)
    (hrest : ∀ ev ∈ rest, ev.Waits) : ∀ ev ∈ events ++ rest, ev.Waits := fun ev hev =>
  (List.mem_append.mp hev).elim (h ev) (hrest ev)

section
variable [DecidableEq ι]

theorem Standing.goto {place : Place}
    (hi : ∀ j, Standing runner mapErr j (Event.own j log) (s.place j))
    (hplace : ∀ j, s'.place j = if j = i then place else s.place j)
    (hown : ∀ ev ∈ evs, ev.call? = some i)
    (hnew : Standing runner mapErr i (Event.own i log ++ evs) place) :
    ∀ j, Standing runner mapErr j (Event.own j (log ++ evs)) (s'.place j) := by
  intro j
  rw [hplace j, Event.own_append]
  split
  · rename_i hj
    subst hj
    rwa [show Event.own j evs = evs from List.filter_eq_self.mpr (by simpa using hown)]
  · rename_i hj
    have hnone : Event.own j evs = [] :=
      List.filter_eq_nil_iff.mpr fun ev hev => by simpa [hown ev hev] using Ne.symm hj
    simpa [hnone] using hi j

theorem Standing.step (hi : ∀ j, Standing runner mapErr j (Event.own j log) (s.place j))
    (h : Move runner mapErr s s' evs) :
    ∀ j, Standing runner mapErr j (Event.own j (log ++ evs)) (s'.place j) := by
  -- what the call that moves has behind it, in each place that it can be in
  have hstart : ∀ {i}, s.place i = .idle → Event.own i log = [] := fun {i} hplace => by
    have hstanding := hi i
    rwa [hplace] at hstanding
  have hwaits : ∀ {i}, s.place i ≠ .finished → ∀ ev ∈ Event.own i log, ev.Waits :=
    fun hlive => (hi _).waits hlive
  have hchecks : ∀ {i next}, s.place i = .checking next → (runner i).onMain = true :=
    fun {i _} hplace => by
      have hstanding := hi i
      rw [hplace] at hstanding
      exact hstanding.2
  have hhandles : ∀ {i k}, s.place i = .handling k → (runner i).onMain = true :=
    fun {i _} hplace => by
      have hstanding := hi i
      rw [hplace] at hstanding
      exact hstanding.2
  cases h with
  | @enter i ctx hplace =>
    refine goto (i := i) hi (start_place runner s i _) (by simp [Event.call?]) ?_
    simp [Standing, hstart hplace, Event.Waits]
  | @refuse i ctx e hplace hrefused =>
    refine goto (i := i) hi (goto_place _ _ _) (by simp [Event.call?]) ?_
    exact .inr ⟨[], _, _, by simp [hstart hplace], by simp, .refused hrefused⟩
  | @interrupt i hplace hcode =>
    refine goto (i := i) hi (start_place runner s i _) (by simp) ?_
    simp [Standing, hstart hplace, hcode, Runner.onMain]
  | @ready i result hplace =>
    refine goto (i := i) hi (finish_place runner s i) (by simp [Event.call?]) ?_
    exact .inr ⟨_, _, _, rfl, hwaits (by simp [hplace]), .ready result⟩
  | @pending i hplace =>
    refine goto hi (fun j => (?_ : s.place j = if j = i then .ticking else s.place j))
      (by simp [Event.call?]) ?_
    · split
      · rename_i hj
        rw [hj, hplace]
      · rfl
    · exact waits_append (hwaits (by simp [hplace])) (by simp [Event.Waits])
  | @elapse i hplace =>
    refine goto (i := i) hi (goto_place _ _ _) (by simp [Event.call?]) ?_
    exact waits_append (hwaits (by simp [hplace])) (by simp [Event.Waits])
  | trip k => simpa [Event.own, Event.call?] using hi
  | @check i hplace hturn hmain =>
    refine goto (i := i) hi (goto_place _ _ _) (by simp) ?_
    exact ⟨waits_append (hwaits (by simp [hplace])) (by simp), hmain⟩
  | @pass i hplace =>
    refine goto (i := i) hi (goto_place _ _ _) (by simp) ?_
    exact waits_append (hwaits (by simp [hplace])) (by simp)
  | @handle i next k hplace =>
    refine goto (i := i) hi (goto_place _ _ _) (by simp [Event.call?]) ?_
    exact ⟨waits_append (hwaits (by simp [hplace])) (by simp [Event.Waits]), hchecks hplace⟩
  | @discard i next k hplace =>
    have hown : ∀ j, Event.own j [(.discarded k : Event ι κ α)] = [] := fun j => by
      simp [Event.own, Event.call?]
    have hmoved : ∀ j, Standing runner mapErr j (Event.own j (log ++ []))
        (((s.untrip k).goto i (.checking (k + 1))).place j) :=
      goto hi (goto_place (s.untrip k) i _) (by simp)
        (by simpa using ⟨hwaits (by simp [hplace]), hchecks hplace⟩)
    simpa [hown] using hmoved
  | @resume i next hplace =>
    refine goto (i := i) hi (goto_place _ _ _) (by simp) ?_
    exact waits_append (hwaits (by simp [hplace])) (by simp)
  | @leave i next hplace _ _ hcode =>
    refine goto (i := i) hi (finish_place runner s i) (by simp) ?_
    exact .inl ⟨hcode, fun result hmem => by
      simpa [Event.Waits] using hwaits (by simp [hplace]) _ (List.append_nil _ ▸ hmem)⟩
  | @handled i k hplace =>
    refine goto (i := i) hi (goto_place _ _ _) (by simp [Event.call?]) ?_
    exact ⟨waits_append (hwaits (by simp [hplace])) (by simp [Event.Waits]), hhandles hplace⟩
  | @raised i k e hplace _ hcode =>
    have hmain : runner i = .main := by
      have honMain := hhandles hplace
      cases hrunner : runner i <;> simp_all [Runner.onMain]
    refine goto (i := i) hi (finish_place runner s i) (by simp [Event.call?]) ?_
    exact .inr ⟨_, _, _, rfl, hwaits (by simp [hplace]), .raised k e hmain⟩
  | @thrown i k e hplace _ hcode =>
    refine goto (i := i) hi (finish_place runner s i) (by simp [Event.call?]) ?_
    refine .inl ⟨hcode, fun result hmem => ?_⟩
    rcases List.mem_append.mp hmem with hin | hin
    · exact hwaits (by simp [hplace]) _ hin
    · simp at hin

end

/-- Whatever a call answers is one of its endings, and nothing comes after it. -/
theorem Standing.ending {place : Place} {events : List (Event ι κ α)} {result : Except PyErr α}
    (h : Standing runner mapErr i events place) (hmem : .returned i result ∈ events) :
    ∃ before ending, events = before ++ ending ∧ (∀ ev ∈ before, ev.Waits) ∧
      Event.Ending runner mapErr i ending result := by
  by_cases hlive : place = .finished
  · subst hlive
    obtain ⟨-, hnone⟩ | ⟨before, ending, result', rfl, hwaits, hending⟩ := h
    · exact absurd hmem (hnone result)
    · have hlast : .returned i result ∈ ending :=
        (List.mem_append.mp hmem).resolve_left fun hin => hwaits _ hin
      obtain rfl : result = result' := by cases hending <;> simpa using hlast
      exact ⟨before, ending, rfl, hwaits, hending⟩
  · exact absurd (h.waits hlive _ hmem) (by simp [Event.Waits])

/-- A handler that raises in a call ends it, with the future dropped. -/
theorem Standing.surfaces {place : Place} {events : List (Event ι κ α)} {e : PyErr}
    (h : Standing runner mapErr i events place) (hmain : runner i = .main)
    (hmem : .handled k i (some e) ∈ events) :
    .dropped i ∈ events ∧ .returned i (.error e) ∈ events := by
  by_cases hlive : place = .finished
  · subst hlive
    obtain ⟨hcode, -⟩ | ⟨before, ending, result, rfl, hwaits, hending⟩ := h
    · simp [hmain] at hcode
    · have hlast : .handled k i (some e) ∈ ending :=
        (List.mem_append.mp hmem).resolve_left fun hin => hwaits _ hin
      cases hending with
      | ready => simp at hlast
      | refused => simp at hlast
      | raised k' e' =>
        obtain ⟨-, rfl⟩ : k = k' ∧ e = e' := by simpa using hlast
        simp
  · exact absurd (h.waits hlive _ hmem) (by simp [Event.Waits])

end Process

-- ---------------------------------------------------------------------------
-- What is nested on the main thread
-- ---------------------------------------------------------------------------

namespace Process

variable {ι κ α : Type} [DecidableEq ι] {runner : ι → Runner} {mapErr : κ → PyErr}
  {s s' : Process ι} {evs : List (Event ι κ α)}

inductive Shift (runner : ι → Runner) (s s' : Process ι) : Prop
  | still : s'.stack = s.stack → s'.place = s.place → Shift runner s s'
  | apart : (∀ j, s'.place j = if j = i then p else s.place j) → s'.stack = s.stack →
      ((runner i).onMain = true → s.place i = .idle ∧ p = .finished) → Shift runner s s'
  | moves : (∀ j, s'.place j = if j = i then p else s.place j) → s'.stack = s.stack →
      s.HasTurn runner i → (s.place i).live = true → p.live = true → Shift runner s s'
  | push : (∀ j, s'.place j = if j = i then p else s.place j) → s'.stack = i :: s.stack →
      (runner i).onMain = true → s.place i = .idle → s.runsPython = true → p.live = true →
      Shift runner s s'
  | pop : (∀ j, s'.place j = if j = i then .finished else s.place j) → s.stack = i :: s'.stack →
      Shift runner s s'

omit [DecidableEq ι] in
theorem HasTurn.stack (h : s.HasTurn runner i) (hmain : (runner i).onMain = true) :
    s.stack = i :: s.stack.tail := by
  obtain ⟨below, hstack⟩ := List.head?_eq_some_iff.mp (h hmain)
  simp [hstack]

theorem Shift.start {p : Place} (hplace : s.place i = .idle)
    (hpython : (runner i).onMain = true → s.runsPython = true) (hlive : p.live = true) :
    Shift runner s (s.start runner i p) := by
  by_cases hmain : (runner i).onMain = true
  · exact .push (start_place runner s i p) (by simp [Process.start, hmain]) hmain hplace
      (hpython hmain) hlive
  · exact .apart (start_place runner s i p) (by simp [Process.start, hmain]) fun h => absurd h hmain

theorem Shift.finish (hturn : s.HasTurn runner i) : Shift runner s (s.finish runner i) := by
  by_cases hmain : (runner i).onMain = true
  · refine .pop (finish_place runner s i) ?_
    simpa [Process.finish, hmain] using hturn.stack hmain
  · exact .apart (finish_place runner s i) (by simp [Process.finish, hmain]) fun h => absurd h hmain

theorem Shift.goto {p : Place} (hturn : s.HasTurn runner i) (hplace : (s.place i).live = true)
    (hlive : p.live = true) : Shift runner s (s.goto i p) :=
  .moves (goto_place s i p) rfl hturn hplace hlive

theorem Shift.congr {t t' : Process ι} (h : Shift runner s s')
    (hs : t.stack = s.stack ∧ t.place = s.place)
    (hs' : t'.stack = s'.stack ∧ t'.place = s'.place) : Shift runner t t' := by
  obtain ⟨_, _, stack, place⟩ := t
  obtain ⟨_, _, stack', place'⟩ := t'
  obtain ⟨rfl, rfl⟩ := hs
  obtain ⟨rfl, rfl⟩ := hs'
  cases h with
  | still hstack hplace => exact .still hstack hplace
  | apart hplace hstack hmain => exact .apart hplace hstack hmain
  | moves hplace hstack hturn hfrom hlive => exact .moves hplace hstack hturn hfrom hlive
  | push hplace hstack hmain hidle hpython hlive =>
    exact .push hplace hstack hmain hidle hpython hlive
  | pop hplace hstack => exact .pop hplace hstack

theorem Move.shift (h : Move runner mapErr s s' evs) : Shift runner s s' := by
  cases h with
  | enter hplace _ hpython => exact .start hplace hpython rfl
  | refuse hplace => exact .apart (goto_place s _ _) rfl fun _ => ⟨hplace, rfl⟩
  | interrupt hplace _ hpython =>
    exact (Shift.start hplace (fun _ => hpython) rfl).congr ⟨rfl, rfl⟩ ⟨rfl, rfl⟩
  | ready hplace hturn | leave hplace hturn => exact .finish hturn
  | raised hplace hturn | thrown hplace hturn =>
    exact (Shift.finish hturn).congr ⟨rfl, rfl⟩ ⟨rfl, rfl⟩
  | pending | trip => exact .still rfl rfl
  | check hplace hturn =>
    exact (Shift.goto hturn (by simp [hplace, Place.live]) rfl).congr ⟨rfl, rfl⟩ ⟨rfl, rfl⟩
  | elapse hplace hturn | pass hplace hturn | resume hplace hturn | handled hplace hturn =>
    exact .goto hturn (by simp [hplace, Place.live]) rfl
  | handle hplace hturn | discard hplace hturn =>
    exact (Shift.goto (s := s.untrip _) hturn (by simp [hplace, Place.live]) rfl).congr
      ⟨rfl, rfl⟩ ⟨rfl, rfl⟩

/-- The stack is what is under way on the main thread, and beneath its top all is Python code. -/
structure Stacked (runner : ι → Runner) (s : Process ι) : Prop where
  nodup : s.stack.Nodup
  live : ∀ i, i ∈ s.stack ↔ (runner i).onMain = true ∧ (s.place i).live = true
  beneath : ∀ i ∈ s.stack.tail, (s.place i).runsPython = true

theorem Stacked.step (hi : Stacked runner s) (h : Shift runner s s') : Stacked runner s' := by
  cases h with
  | still hstack hplace =>
    exact ⟨hstack ▸ hi.nodup, by simpa [hstack, hplace] using hi.live,
      by simpa [hstack, hplace] using hi.beneath⟩
  | @apart i p hplace hstack hidle =>
    have hout : i ∉ s.stack := fun hmem => by
      obtain ⟨hmain, hlive⟩ := (hi.live i).mp hmem
      simp [(hidle hmain).1, Place.live] at hlive
    refine ⟨hstack ▸ hi.nodup, fun j => ?_, fun j hj => ?_⟩
    · rw [hstack, hi.live j, hplace j]
      by_cases hj : j = i
      · subst hj
        refine and_congr_right fun hmain => ?_
        simp [(hidle hmain).1, (hidle hmain).2, Place.live]
      · simp [hj]
    · rw [hstack] at hj
      rw [hplace j, if_neg (by rintro rfl; exact hout (List.mem_of_mem_tail hj))]
      exact hi.beneath j hj
  | @moves i p hplace hstack hturn hfrom hlive =>
    refine ⟨hstack ▸ hi.nodup, fun j => ?_, fun j hj => ?_⟩
    · rw [hstack, hi.live j, hplace j]
      by_cases hj : j = i
      · simp [hj, hfrom, hlive]
      · simp [hj]
    · rw [hstack] at hj
      have hne : j ≠ i := by
        rintro rfl
        have hmain := ((hi.live j).mp (List.mem_of_mem_tail hj)).1
        exact (List.nodup_cons.mp (hturn.stack hmain ▸ hi.nodup)).1 hj
      rw [hplace j, if_neg hne]
      exact hi.beneath j hj
  | @push i p hplace hstack hmain hidle hpython hlive =>
    have hout : i ∉ s.stack := fun hmem => by
      simpa [hidle, Place.live] using ((hi.live i).mp hmem).2
    have hothers (j : ι) (hj : j ∈ s.stack) : s'.place j = s.place j := by
      rw [hplace j, if_neg (by rintro rfl; exact hout hj)]
    refine ⟨hstack ▸ List.nodup_cons.mpr ⟨hout, hi.nodup⟩, fun j => ?_, fun j hj => ?_⟩
    · rw [hstack, List.mem_cons, hi.live j, hplace j]
      by_cases hj : j = i
      · simp [hj, hmain, hlive]
      · simp [hj]
    · rw [hstack] at hj
      rw [hothers j hj]
      cases hbelow : s.stack with
      | nil => simp [hbelow] at hj
      | cons top below =>
        rcases List.mem_cons.mp (hbelow ▸ hj : j ∈ top :: below) with rfl | hmem
        · simpa [runsPython, hbelow] using hpython
        · exact hi.beneath j (by simpa [hbelow] using hmem)
  | @pop i hplace hstack =>
    obtain ⟨hout, hnodup⟩ := List.nodup_cons.mp (hstack ▸ hi.nodup)
    refine ⟨hnodup, fun j => ?_, fun j hj => ?_⟩
    · have hlive := hi.live j
      rw [hstack, List.mem_cons] at hlive
      rw [hplace j]
      by_cases hj : j = i
      · subst hj
        simp [hout, Place.live]
      · simpa [hj] using hlive
    · have hmem := List.mem_of_mem_tail hj
      rw [hplace j, if_neg (by rintro rfl; exact hout hmem)]
      exact hi.beneath j (by simpa [hstack] using hmem)

theorem Shift.suffix (h : Shift runner s s') (hstack : i :: below <:+ s'.stack) :
    i :: below <:+ s.stack ∨ s.place i = .idle := by
  cases h with
  | still heq | apart _ heq | moves _ heq => exact .inl (heq ▸ hstack)
  | push _ heq _ hidle =>
    rcases List.suffix_cons_iff.mp (heq ▸ hstack) with htop | hbelow
    · obtain ⟨rfl, -⟩ := List.cons.inj htop
      exact .inr hidle
    · exact .inl hbelow
  | pop _ heq => exact .inl (heq ▸ hstack.trans (List.suffix_cons ..))

end Process

-- ---------------------------------------------------------------------------
-- Signals
-- ---------------------------------------------------------------------------

namespace Event

variable {ι κ α : Type} {log evs : List (Event ι κ α)}

def mark? (k : Nat) : Event ι κ α → Option Bool
  | .tripped j => if j = k then some true else none
  | .handling j _ | .discarded j => if j = k then some false else none
  | _ => none

/-- The signal has come since its handler was last run. -/
def Pending (k : Nat) (log : List (Event ι κ α)) : Prop :=
  (log.filterMap (mark? k)).getLast? = some true

/-- The handler of the signal is run, or found to be gone. -/
def Handles (k : Nat) (log : List (Event ι κ α)) : Prop := ∃ ev ∈ log, ev.mark? k = some false

theorem Handles.append_right (h : Handles k log) : Handles k (log ++ evs) := by
  obtain ⟨ev, hmem, hmark⟩ := h
  exact ⟨ev, by simp [hmem], hmark⟩

theorem Handles.append_left (h : Handles k evs) : Handles k (log ++ evs) := by
  obtain ⟨ev, hmem, hmark⟩ := h
  exact ⟨ev, by simp [hmem], hmark⟩

theorem pending_append_of_unmarked (h : ∀ ev ∈ evs, ev.mark? k = none) :
    Pending k (log ++ evs) ↔ Pending k log := by
  rw [Pending, List.filterMap_append, List.filterMap_eq_nil_iff.mpr h, List.append_nil, Pending]

end Event

namespace Process

open Event (Pending Handles)

variable {ι κ α : Type} {runner : ι → Runner} {mapErr : κ → PyErr} {s s' : Process ι}
  {log evs : List (Event ι κ α)}

/-- The pass over the signals is still to come to this one. -/
def Due (k : Nat) : Place → Prop
  | .checking next => next ≤ k
  | .handling signal => signal < k
  | .idle | .ticking | .surfacing | .finished => False

theorem Due.live {place : Place} (h : Due k place) : place.live = true := by
  cases place <;> trivial

/-- No signal is forgotten: the next check sees its mark, or a pass is still to come to it. -/
def Owed (s : Process ι) : Prop :=
  ∀ k ∈ s.tripped, s.isTripped = true ∨ ∃ j ∈ s.stack, Due k (s.place j)

/-- What was pending when a tick of the call went by has been handled, or is due there or in what
the call is nested in. -/
def Checked (s : Process ι) (i : ι) (below : List ι) (log : List (Event ι κ α)) : Prop :=
  ∀ k past since, log = past ++ .elapsed i :: since → Pending k past →
    Handles k since ∨ k ∈ s.tripped ∧ (s.place i = .surfacing ∨ ∃ j ∈ i :: below, Due k (s.place j))

/-- Before a call of the main thread polls its future, every signal that was pending when one of
its ticks went by has been handled, unless the call is made in the handler of a signal whose pass
comes to that one afterwards. -/
def Prompt (s : Process ι) (log : List (Event ι κ α)) : Prop :=
  ∀ i below, s.stack = i :: below → s.place i = .ticking →
    ∀ k past since, log = past ++ .elapsed i :: since → Pending k past →
      Handles k since ∨ ∃ j ∈ below, ∃ signal < k, s.place j = .handling signal

section
variable [DecidableEq ι]

theorem Move.marks (h : Move runner mapErr s s' evs) (hi : ∀ k, k ∈ s.tripped ↔ Pending k log)
    (k : Nat) : k ∈ s'.tripped ↔ Pending k (log ++ evs) := by
  cases h with
  | trip j | @handle i next j | @discard i next j =>
    by_cases hj : j = k
    · simp [hj, Pending, Event.mark?]
    · rw [Event.pending_append_of_unmarked (by simp [Event.mark?, hj])]
      simpa [Ne.symm hj] using hi k
  | _ => rw [Event.pending_append_of_unmarked (by simp [Event.mark?])]; simpa using hi k

theorem Move.keeps (h : Move runner mapErr s s' evs) (hmem : k ∈ s.tripped) :
    k ∈ s'.tripped ∨ Handles k evs := by
  cases h with
  | trip j => exact .inl (by simp [hmem])
  | @handle i next j | @discard i next j =>
    by_cases hj : j = k
    · exact .inr (by simp [Handles, Event.mark?, hj])
    · exact .inl (by simp [hmem, Ne.symm hj])
  | _ => exact .inl (by simpa using hmem)

theorem due_goto {place : Place} (hdue : Due k (s.place j)) (hnew : j = i → Due k place) :
    Due k ((s.goto i place).place j) := by
  rw [goto_place]
  split
  · exact hnew ‹_›
  · exact hdue

/-- A signal that is due stays so while it is pending, unless a handler ends the pass. -/
theorem Move.due (h : Move runner mapErr s s' evs) (hdue : Due k (s.place j))
    (hmem : k ∈ s'.tripped) :
    Due k (s'.place j) ∨ s'.place j = .finished ∧ s'.isTripped = true := by
  have hfinish {i : ι} {s' : Process ι} (hplace : ∀ j, s'.place j =
      if j = i then .finished else s.place j) (hflag : j = i → s'.isTripped = true) :
      Due k (s'.place j) ∨ s'.place j = .finished ∧ s'.isTripped = true := by
    rw [hplace j]
    split
    · exact .inr ⟨rfl, hflag ‹_›⟩
    · exact .inl hdue
  cases h with
  | @enter i _ hplace | @refuse i _ _ hplace | @interrupt i hplace | @elapse i hplace
  | @check i hplace | @pass i hplace =>
    refine .inl (due_goto hdue ?_)
    rintro rfl
    simp [hplace, Due] at hdue
  | @ready i result hplace =>
    refine hfinish (finish_place runner s i) ?_
    rintro rfl
    simp [hplace, Due] at hdue
  | pending | trip => exact .inl hdue
  | @handle i next l hplace _ _ hleast | @discard i next l hplace _ _ hleast =>
    refine .inl (due_goto (s := s.untrip l) hdue ?_)
    rintro rfl
    rw [hplace] at hdue
    obtain ⟨hmem, hne⟩ := s.mem_untrip.mp hmem
    -- the pass takes the least signal that is due, and this is another
    exact lt_of_le_of_ne (hleast k hmem hdue) (Ne.symm hne)
  | @resume i next hplace _ hnone =>
    refine .inl (due_goto hdue ?_)
    rintro rfl
    rw [hplace] at hdue
    exact absurd (hnone k hmem) (Nat.not_lt.mpr hdue)
  | @leave i next hplace _ hnone =>
    refine hfinish (finish_place runner s i) ?_
    rintro rfl
    rw [hplace] at hdue
    exact absurd (hnone k hmem) (Nat.not_lt.mpr hdue)
  | @handled i l hplace =>
    refine .inl (due_goto hdue ?_)
    rintro rfl
    rw [hplace] at hdue
    exact hdue
  | @raised i | @thrown i => exact hfinish (finish_place runner s i) fun _ => rfl

theorem Move.flag (h : Move runner mapErr s s' evs) (hflag : s'.isTripped = false) :
    (∃ i, s'.place i = .checking 0 ∧ (runner i).onMain = true) ∨
      s.isTripped = false ∧ ∀ k ∈ s'.tripped, k ∈ s.tripped := by
  cases h with
  | @interrupt i _ hcode => exact .inl ⟨i, by simp [Process.start], by simp [hcode, Runner.onMain]⟩
  | @check i _ _ hmain => exact .inl ⟨i, by simp, hmain⟩
  | trip | raised | thrown => cases hflag
  | handle | discard => exact .inr ⟨hflag, fun k hmem => by simpa using (s.mem_untrip.mp hmem).1⟩
  | _ => exact .inr ⟨hflag, fun k hmem => hmem⟩

theorem Owed.step (hi : Owed s) (hs : Stacked runner s) (hs' : Stacked runner s')
    (h : Move runner mapErr s s' evs) : Owed s' := by
  intro k hmem
  by_cases hflag : s'.isTripped = true
  · exact .inl hflag
  rcases h.flag (by simpa using hflag) with ⟨i, hplace, hmain⟩ | ⟨hclear, hsub⟩
  · refine .inr ⟨i, (hs'.live i).mpr ⟨hmain, by simp [hplace, Place.live]⟩, ?_⟩
    simp [hplace, Due]
  · obtain ⟨j, hj, hdue⟩ := (hi k (hsub k hmem)).resolve_left (by simp [hclear])
    have hdue' := (h.due hdue hmem).resolve_right fun hended => hflag hended.2
    exact .inr ⟨j, (hs'.live j).mpr ⟨((hs.live j).mp hj).1, hdue'.live⟩, hdue'⟩

theorem Move.surfaces (h : Move runner mapErr s s' evs) (hplace : s.place i = .surfacing) :
    s'.place i = .surfacing ∨ s'.place i = .checking 0 ∨
      s' = s.goto i .ticking ∧ s.HasTurn runner i ∧
        ((runner i).onMain = true → s.isTripped = false) := by
  have hother {j : ι} {place : Place} (hne : s.place j ≠ .surfacing) (s' : Process ι)
      (hplaces : ∀ l, s'.place l = if l = j then place else s.place l) :
      s'.place i = .surfacing := by
    rw [hplaces i, if_neg (by rintro rfl; exact hne hplace), hplace]
  cases h with
  | @enter j _ hj | @interrupt j hj =>
    exact .inl (hother (by simp [hj]) _ (start_place runner s j _))
  | @refuse j _ _ hj | @elapse j hj | @resume j _ hj | @handled j _ hj =>
    exact .inl (hother (by simp [hj]) _ (goto_place s j _))
  | @handle j _ _ hj | @discard j _ _ hj =>
    exact .inl (hother (by simp [hj]) _ (goto_place (s.untrip _) j _))
  | @ready j _ hj | @leave j _ hj | @raised j _ _ hj | @thrown j _ _ hj =>
    exact .inl (hother (by simp [hj]) _ (finish_place runner s j))
  | pending | trip => exact .inl hplace
  | @check j hj =>
    by_cases heq : i = j
    · exact .inr (.inl (by simp [heq]))
    · exact .inl (by simpa [heq] using hplace)
  | @pass j hj hturn hflag =>
    by_cases heq : i = j
    · subst heq
      exact .inr (.inr ⟨rfl, hturn, hflag⟩)
    · exact .inl (by simpa [heq] using hplace)

omit [DecidableEq ι] in
theorem elapsed_split {mid since : List (Event ι κ α)}
    (h : [.polled j none, .elapsed j] = mid ++ .elapsed i :: since) :
    mid = [.polled j none] ∧ i = j ∧ since = [] := by
  match mid with
  | [] => simp at h
  | [ev] =>
    obtain ⟨rfl, rfl, rfl⟩ : .polled j none = ev ∧ j = i ∧ since = [] := by simpa using h
    exact ⟨rfl, rfl, rfl⟩
  | _ :: _ :: _ => simp at h

theorem Checked.step (hi : Checked s i below log) (ho : Owed s) (hs : Stacked runner s)
    (hs' : Stacked runner s') (hmarks : ∀ k, k ∈ s.tripped ↔ Pending k log)
    (h : Move runner mapErr s s' evs) (hstack : i :: below <:+ s.stack)
    (hstack' : i :: below <:+ s'.stack) : Checked s' i below (log ++ evs) := by
  intro k past since heq hpending
  rcases Transition.append_eq_split heq with ⟨rest, hlog, rfl⟩ | ⟨mid, rfl, hevs⟩
  · rcases hi k past rest hlog hpending with hhandles | ⟨hmem, hdue⟩
    · exact .inl hhandles.append_right
    rcases h.keeps hmem with hmem' | hhandles
    · refine .inr ⟨hmem', ?_⟩
      rcases hdue with hsurfacing | ⟨j, hj, hdue⟩
      · rcases h.surfaces hsurfacing with hplace | hplace | ⟨rfl, hturn, hflag⟩
        · exact .inl hplace
        · exact .inr ⟨i, .head _, by simp [hplace, Due]⟩
        · -- a pass beneath has taken the flag, and is still to come to the signal
          have hmain := ((hs.live i).mp (hstack.subset (.head _))).1
          have htop : s.stack = i :: below := by
            have htop := hturn.stack hmain
            rcases List.suffix_cons_iff.mp (htop ▸ hstack) with heq | hbelow
            · rw [htop, heq]
            · exact absurd (hbelow.subset (.head _)) (List.nodup_cons.mp (htop ▸ hs.nodup)).1
          obtain ⟨j, hj, hdue⟩ := (ho k hmem).resolve_left (by simp [hflag hmain])
          refine .inr ⟨j, htop ▸ hj, due_goto hdue ?_⟩
          rintro rfl
          simp [hsurfacing, Due] at hdue
      · rcases h.due hdue hmem' with hdue' | ⟨hplace, -⟩
        · exact .inr ⟨j, hj, hdue'⟩
        · have hlive := ((hs'.live j).mp (hstack'.subset hj)).2
          simp [hplace, Place.live] at hlive
    · exact .inl hhandles.append_left
  · have hmem : .elapsed i ∈ evs := by simp [hevs]
    cases h with
    | @elapse j hplace =>
      obtain ⟨rfl, rfl, rfl⟩ := elapsed_split hevs
      rw [Event.pending_append_of_unmarked (by simp [Event.mark?])] at hpending
      exact .inr ⟨(hmarks k).mpr hpending, .inl (by simp)⟩
    | _ => simp at hmem

end

/-- Beneath the call that is about to poll, every pass is in a handler. -/
theorem Stacked.prompt (hs : Stacked runner s)
    (hi : ∀ i below, i :: below <:+ s.stack → Checked s i below log) : Prompt s log := by
  intro i below hstack hticking k past since heq hpending
  rcases hi i below (hstack ▸ List.suffix_refl _) k past since heq hpending with
    hhandles | ⟨-, hsurfacing | ⟨j, hj, hdue⟩⟩
  · exact .inl hhandles
  · simp [hticking] at hsurfacing
  · rcases List.mem_cons.mp hj with rfl | hbelow
    · simp [hticking, Due] at hdue
    · refine .inr ⟨j, hbelow, ?_⟩
      have hpython := hs.beneath j (by simpa [hstack] using hbelow)
      cases hplace : s.place j with
      | handling signal => exact ⟨signal, by simpa [hplace, Due] using hdue, rfl⟩
      | _ => simp_all [Due, Place.runsPython]

-- ---------------------------------------------------------------------------
-- Every run
-- ---------------------------------------------------------------------------

structure Driving (runner : ι → Runner) (mapErr : κ → PyErr) [DecidableEq ι] (s : Process ι)
    (log : List (Event ι κ α)) : Prop where
  standing : ∀ i, Standing runner mapErr i (Event.own i log) (s.place i)
  stacked : Stacked runner s
  marks : ∀ k, k ∈ s.tripped ↔ Pending k log
  owed : Owed s
  checked : ∀ i below, i :: below <:+ s.stack → Checked s i below log

variable [DecidableEq ι]

theorem Driving.step (hi : Driving runner mapErr s log) (h : Move runner mapErr s s' evs) :
    Driving runner mapErr s' (log ++ evs) := by
  have hstacked := hi.stacked.step h.shift
  refine ⟨Standing.step hi.standing h, hstacked, h.marks hi.marks,
    hi.owed.step hi.stacked hstacked h, fun i below hstack => ?_⟩
  rcases h.shift.suffix hstack with hold | hidle
  · exact (hi.checked i below hold).step hi.owed hi.stacked hstacked hi.marks h hold hstack
  · have hbefore : Event.own i log = [] := by simpa [Standing, hidle] using hi.standing i
    intro k past since heq hpending
    rcases Transition.append_eq_split heq with ⟨rest, hlog, rfl⟩ | ⟨mid, rfl, hevs⟩
    · have hmem : .elapsed i ∈ Event.own i log := Event.mem_own.mpr ⟨by simp [hlog], rfl⟩
      simp [hbefore] at hmem
    · have hmem : .elapsed i ∈ evs := by simp [hevs]
      cases h with
      | @elapse j hplace =>
        obtain ⟨-, rfl, -⟩ := elapsed_split hevs
        simp [hidle] at hplace
      | _ => simp at hmem

theorem Driving.of_reachable (hr : (machine runner mapErr).Reachable s log) :
    Driving runner mapErr s log := by
  refine hr.invariant ⟨fun _ => rfl, ⟨.nil, ?_, nofun⟩, ?_, ?_, ?_⟩
    fun _ _ _ _ _ hi _ hs => hi.step (.of_step hs)
  · simp [machine, new, Place.live]
  · simp [machine, new, Pending]
  · simp [machine, new, Owed]
  · intro i below hstack
    simp [machine, new] at hstack

/-- Over any run of sync calls and signals: a call answers with what its future came to, or drops
the future and raises, and no third thing; whatever a handler raises in a call is what the call
raises; the marks are the signals that came since, and each is seen by the next check or due in a
pass; and no call of the main thread goes on past a tick without the handlers of the signals that
were pending then, unless it is made in a handler whose pass comes to them. -/
theorem blocks (hr : (machine runner mapErr).Reachable s log) :
    (∀ i result, .returned i result ∈ log → ∃ before ending, Event.own i log = before ++ ending ∧
      (∀ ev ∈ before, ev.Waits) ∧ Event.Ending runner mapErr i ending result) ∧
    (∀ k i e, runner i = .main → .handled k i (some e) ∈ log →
      .dropped i ∈ log ∧ .returned i (.error e) ∈ log) ∧
    (∀ k, k ∈ s.tripped ↔ Pending k log) ∧ Owed s ∧ Prompt s log := by
  have hi := Driving.of_reachable hr
  refine ⟨fun i result hmem => ?_, fun k i e hmain hmem => ?_, hi.marks, hi.owed,
    hi.stacked.prompt hi.checked⟩
  · exact (hi.standing i).ending (Event.mem_own.mpr ⟨hmem, rfl⟩)
  · obtain ⟨hdropped, hreturned⟩ :=
      (hi.standing i).surfaces hmain (Event.mem_own.mpr ⟨hmem, rfl⟩)
    exact ⟨(Event.mem_own.mp hdropped).1, (Event.mem_own.mp hreturned).1⟩

/-- A call on another thread and two on the main one. Two signals come in the first tick; the
handler of the first makes the second call, which passes over the other signal, and its handler
raises. -/
def interrupted : List (Action Nat String Nat) :=
  [.enter 0 ⟨false, false, 1, 0⟩, .enter 1 ⟨false, false, 1, 0⟩, .trip 15, .trip 2,
    .poll 0 none false, .poll 0 none true, .poll 1 none true, .look 1, .look 0, .next 0 true,
    .enter 2 ⟨false, false, 1, 0⟩, .poll 2 none true, .look 2, .poll 2 (some (.ok 7)) false,
    .handlerEnded 0 none, .next 0 true, .handlerEnded 0 (some ⟨"KeyboardInterrupt", ""⟩),
    .poll 1 (some (.error "gone")) true]

def answers (log : List (Event ι κ α)) : List (ι × Except PyErr α) :=
  log.filterMap fun
    | .returned i result => some (i, result)
    | _ => none

def secondOnThread (i : Nat) : Runner := if i = 1 then .thread else .main

theorem blocks_interrupted : ∃ s log,
    (machine (ι := Nat) (α := Nat) secondOnThread ProcessError.newErr).Reachable s log ∧
      answers log = [(2, .ok 7), (0, .error ⟨"KeyboardInterrupt", ""⟩),
        (1, .error ⟨"ProcessError", "gone"⟩)] ∧
      (∀ k i e, secondOnThread i = .main → .handled k i (some e) ∈ log →
        .dropped i ∈ log ∧ .returned i (.error e) ∈ log) ∧
      Owed s ∧ Prompt s log := by
  obtain ⟨s, log, hr, hanswers⟩ := Transition.Machine.reach_replay
    (m := machine (ι := Nat) (α := Nat) secondOnThread ProcessError.newErr) interrupted
    (fun _ log => answers log) (fun _ _ _ => trivial)
    (b := [(2, .ok 7), (0, .error ⟨"KeyboardInterrupt", ""⟩),
      (1, .error ⟨"ProcessError", "gone"⟩)]) (by decide +kernel)
  obtain ⟨-, hsurfaces, -, howed, hprompt⟩ := blocks hr
  exact ⟨s, log, hr, hanswers, hsurfaces, howed, hprompt⟩

end Process

end ProcessKit.Runtime.SyncBridge

import Mathlib.Logic.Function.Basic
import ProcessKit.Runtime.Lazy
import ProcessKit.Transition

/-!
# The awaitable's mutex and the interpreter lock

`__await__` and `__repr__` of a `PyLazyFuture` take its state mutex with the interpreter lock
held, and keep the interpreter lock while they wait for it. `__repr__` looks at the state and
lets go. `__await__` keeps the mutex over all of its calls into Python, in any of which the
interpreter lock may pass to another thread.

A thread has one call on the awaitable at a time. One that comes back to it out of its own
guarded section waits for itself and for no second thread, and is no step here.
-/

namespace ProcessKit.Runtime.AwaitLock

open ProcessKit.Guards (Context guardAgainstFork)
open Transition (Machine)

/-- The calls into Python under the guard: those of `start_bridge` with `completion_hub`, then
the backing future's `__await__`. `delegate` is that of an awaitable already started. -/
inductive PyCall
  | getCurrentLocals
  | createFuture
  | weakKeyDictionary
  | hubGet
  | socketpair
  | setblocking
  | detach
  | sockRecv
  | createTask
  | addWakeCallback
  | setItem
  | addDoneCallback
  | innerAwait
  | delegate
  deriving DecidableEq

/-- What may come after a call that returns: the map is made once, and a hub once a loop. -/
def PyCall.next : PyCall → List PyCall
  | .getCurrentLocals => [.createFuture]
  | .createFuture => [.weakKeyDictionary, .hubGet]
  | .weakKeyDictionary => [.hubGet]
  | .hubGet => [.addDoneCallback, .socketpair]
  | .socketpair => [.setblocking]
  | .setblocking => [.detach]
  | .detach => [.sockRecv]
  | .sockRecv => [.createTask]
  | .createTask => [.addWakeCallback]
  | .addWakeCallback => [.setItem]
  | .setItem => [.addDoneCallback]
  | .addDoneCallback => [.innerAwait]
  | .innerAwait | .delegate => []

/-- `LazyState` without what it holds. -/
inductive Stage
  | pending
  | started
  | spent
  deriving DecidableEq

def Stage.text : Stage → String
  | .pending => "<processkit awaitable (pending)>"
  | .started => "<processkit awaitable (started)>"
  | .spent => "<processkit awaitable (spent)>"

inductive Entry
  | await (ctx : Context)
  | repr

/-- What comes before the mutex. -/
def Entry.guard : Entry → PyResult Unit
  | .await ctx => guardAgainstFork ctx
  | .repr => .ok ()

/-- Where a thread is in its call. In a call into Python it has the interpreter lock or has lost
it and waits to get it back. -/
inductive Phase
  | out
  | waits (entry : Entry)
  | reading
  | python (call : PyCall) (attached : Bool)

def Phase.guarded : Phase → Bool
  | .reading | .python .. => true
  | .out | .waits _ => false

/-- The thread cannot be here without the interpreter lock. -/
def Phase.attached : Phase → Bool
  | .waits _ | .reading => true
  | .python _ attached => attached
  | .out => false

/-- The thread is in a call into Python and waits for the interpreter lock. -/
def Phase.away : Phase → Bool
  | .python _ attached => !attached
  | .out | .waits _ | .reading => false

def Phase.waiting : Phase → Bool
  | .waits _ => true
  | .out | .reading | .python .. => false

structure State (τ : Type) where
  gil : Option τ
  mutex : Option τ
  stage : Stage
  phase : τ → Phase

/-- `raises` is also the error of a hub that is closed when the operation is to be
registered. -/
inductive Action (τ : Type)
  | attach (t : τ)
  | detach (t : τ)
  | enter (t : τ) (entry : Entry)
  | lock (t : τ)
  | switch (t : τ)
  | resume (t : τ)
  | returns (t : τ) (next : Option PyCall)
  | raises (t : τ) (err : PyErr)
  | answer (t : τ)

inductive Event (τ : Type)
  | shown (t : τ) (text : String)
  | awaited (t : τ)
  | raised (t : τ) (err : PyErr)

section
variable {τ : Type} [DecidableEq τ]

def State.goto (s : State τ) (t : τ) (phase : Phase) : State τ :=
  { s with phase := Function.update s.phase t phase }

def State.unlock (s : State τ) (t : τ) : State τ := { s with mutex := none }.goto t .out

/-- What is done first under the mutex. A spent awaitable answers at once. -/
def State.open (s : State τ) (t : τ) : Entry → State τ × List (Event τ)
  | .repr => ({ s with mutex := some t }.goto t .reading, [])
  | .await _ =>
    match s.stage with
    | .started => ({ s with mutex := some t }.goto t (.python .delegate true), [])
    | .pending =>
      ({ s with mutex := some t, stage := .spent }.goto t (.python .getCurrentLocals true), [])
    | .spent => (s.goto t .out, [.raised t alreadyConsumed])

def State.step (s : State τ) : Action τ → Option (State τ × List (Event τ))
  | .attach t =>
    match s.phase t with
    | .out => if s.gil = none then some ({ s with gil := some t }, []) else none
    | _ => none
  | .detach t =>
    match s.phase t with
    | .out => if s.gil = some t then some ({ s with gil := none }, []) else none
    | _ => none
  | .enter t entry =>
    match s.phase t with
    | .out =>
      if s.gil = some t then
        match entry.guard with
        | .error err => some (s, [.raised t err])
        | .ok () => some (s.goto t (.waits entry), [])
      else none
    | _ => none
  | .lock t =>
    match s.phase t with
    | .waits entry => if s.mutex = none then some (s.open t entry) else none
    | _ => none
  | .switch t =>
    match s.phase t with
    | .python call true => some ({ s with gil := none }.goto t (.python call false), [])
    | _ => none
  | .resume t =>
    match s.phase t with
    | .python call false =>
      if s.gil = none then some ({ s with gil := some t }.goto t (.python call true), []) else none
    | _ => none
  | .returns t next =>
    match s.phase t, next with
    | .python call true, some next =>
      if next ∈ call.next then some (s.goto t (.python next true), []) else none
    | .python .innerAwait true, none =>
      some ({ s with stage := .started }.unlock t, [.awaited t])
    | .python .delegate true, none => some (s.unlock t, [.awaited t])
    | _, _ => none
  | .raises t err =>
    match s.phase t with
    | .python _ true => some (s.unlock t, [.raised t err])
    | _ => none
  | .answer t =>
    match s.phase t with
    | .reading => some (s.unlock t, [.shown t s.stage.text])
    | _ => none

/-- Threads on one awaitable, none of them in a call yet. -/
def machine : Machine (State τ) (Action τ) (Event τ) where
  init := ⟨none, none, .pending, fun _ => .out⟩
  step := State.step

/-- One thread holds the mutex and waits for the interpreter lock, another holds the
interpreter lock and waits for the mutex. -/
def State.Crossed (s : State τ) : Prop :=
  ∃ t u, s.mutex = some t ∧ (s.phase t).away = true ∧ s.gil = some u ∧
    (s.phase u).waiting = true

/-- A call that comes to the mutex finds it free. -/
def ComesToFree (s : State τ) : Action τ → Prop
  | .enter _ entry => entry.guard = .ok () → s.mutex = none
  | _ => True

variable {s s' : State τ} {t u : τ} {evs : List (Event τ)}

/-- All that a step can do to the locks and the threads. -/
inductive Moves (s : State τ) : Action τ → State τ → Prop
  | attach (t : τ) (hphase : s.phase t = .out) (hfree : s.gil = none) :
      Moves s (.attach t) { s with gil := some t }
  | detach (t : τ) (hphase : s.phase t = .out) (hgil : s.gil = some t) :
      Moves s (.detach t) { s with gil := none }
  | refused (t : τ) (entry : Entry) (hphase : s.phase t = .out) (hgil : s.gil = some t) :
      Moves s (.enter t entry) s
  | enter (t : τ) (entry : Entry) (hphase : s.phase t = .out) (hgil : s.gil = some t)
      (hguard : entry.guard = .ok ()) : Moves s (.enter t entry) (s.goto t (.waits entry))
  | lock (t : τ) (entry : Entry) (hphase : s.phase t = .waits entry) (hfree : s.mutex = none) :
      Moves s (.lock t) (s.open t entry).1
  | switch (t : τ) (call : PyCall) (hphase : s.phase t = .python call true) :
      Moves s (.switch t) ({ s with gil := none }.goto t (.python call false))
  | resume (t : τ) (call : PyCall) (hphase : s.phase t = .python call false)
      (hfree : s.gil = none) :
      Moves s (.resume t) ({ s with gil := some t }.goto t (.python call true))
  | goesOn (t : τ) (call next : PyCall) (hphase : s.phase t = .python call true) :
      Moves s (.returns t (some next)) (s.goto t (.python next true))
  | unlock (t : τ) (a : Action τ) (stage : Stage) (hguarded : (s.phase t).guarded = true)
      (hattached : (s.phase t).attached = true) : Moves s a ({ s with stage }.unlock t)

theorem step_moves (h : s.step a = some (s', evs)) : Moves s a s' := by
  cases a with
  | attach t =>
    simp only [State.step] at h
    split at h
    · next hphase =>
      split at h
      · next hfree =>
        obtain ⟨rfl, -⟩ := Prod.mk.inj (Option.some.inj h)
        exact .attach t hphase hfree
      · cases h
    · cases h
  | detach t =>
    simp only [State.step] at h
    split at h
    · next hphase =>
      split at h
      · next hgil =>
        obtain ⟨rfl, -⟩ := Prod.mk.inj (Option.some.inj h)
        exact .detach t hphase hgil
      · cases h
    · cases h
  | enter t entry =>
    simp only [State.step] at h
    split at h
    · next hphase =>
      split at h
      · next hgil =>
        split at h
        · obtain ⟨rfl, -⟩ := Prod.mk.inj (Option.some.inj h)
          exact .refused t entry hphase hgil
        · next hguard =>
          obtain ⟨rfl, -⟩ := Prod.mk.inj (Option.some.inj h)
          exact .enter t entry hphase hgil hguard
      · cases h
    · cases h
  | lock t =>
    simp only [State.step] at h
    split at h
    · next entry hphase =>
      split at h
      · next hfree =>
        have hmove := Moves.lock t entry hphase hfree
        rwa [Option.some.inj h] at hmove
      · cases h
    · cases h
  | switch t =>
    simp only [State.step] at h
    split at h
    · next call hphase =>
      obtain ⟨rfl, -⟩ := Prod.mk.inj (Option.some.inj h)
      exact .switch t call hphase
    · cases h
  | resume t =>
    simp only [State.step] at h
    split at h
    · next call hphase =>
      split at h
      · next hfree =>
        obtain ⟨rfl, -⟩ := Prod.mk.inj (Option.some.inj h)
        exact .resume t call hphase hfree
      · cases h
    · cases h
  | returns t next =>
    simp only [State.step] at h
    split at h
    · next call next hphase =>
      split at h
      · obtain ⟨rfl, -⟩ := Prod.mk.inj (Option.some.inj h)
        exact .goesOn t call next hphase
      · cases h
    · next hphase =>
      obtain ⟨rfl, -⟩ := Prod.mk.inj (Option.some.inj h)
      exact .unlock t _ .started (hphase ▸ rfl) (hphase ▸ rfl)
    · next hphase =>
      obtain ⟨rfl, -⟩ := Prod.mk.inj (Option.some.inj h)
      exact .unlock t _ s.stage (hphase ▸ rfl) (hphase ▸ rfl)
    · cases h
  | raises t err =>
    simp only [State.step] at h
    split at h
    · next hphase =>
      obtain ⟨rfl, -⟩ := Prod.mk.inj (Option.some.inj h)
      exact .unlock t _ s.stage (hphase ▸ rfl) (hphase ▸ rfl)
    · cases h
  | answer t =>
    simp only [State.step] at h
    split at h
    · next hphase =>
      obtain ⟨rfl, -⟩ := Prod.mk.inj (Option.some.inj h)
      exact .unlock t _ s.stage (hphase ▸ rfl) (hphase ▸ rfl)
    · cases h

-- ---------------------------------------------------------------------------
-- Who has which lock
-- ---------------------------------------------------------------------------

theorem Phase.of_waiting {phase : Phase} (h : phase.waiting = true) :
    phase.attached = true ∧ phase.guarded = false := by
  cases phase with
  | waits entry => exact ⟨rfl, rfl⟩
  | out | reading | python => cases h

theorem Phase.away_of_guarded {phase : Phase} (hguarded : phase.guarded = true)
    (hattached : phase.attached ≠ true) : phase.away = true := by
  cases phase with
  | python call attached => simpa [Phase.attached, Phase.away] using hattached
  | reading => exact absurd rfl hattached
  | out | waits => cases hguarded

structure Ordered (s : State τ) : Prop where
  guarded : ∀ t, (s.phase t).guarded = true ↔ s.mutex = some t
  attached : ∀ t, (s.phase t).attached = true → s.gil = some t

theorem Ordered.moved {gil mutex : Option τ} (h : Ordered s)
    (hmutex : ∀ u, u ≠ t → (mutex = some u ↔ s.mutex = some u))
    (hgil : ∀ u, u ≠ t → s.gil = some u → gil = some u)
    (hguarded : phase.guarded = true ↔ mutex = some t)
    (hattached : phase.attached = true → gil = some t) :
    Ordered ⟨gil, mutex, stage, Function.update s.phase t phase⟩ := by
  constructor
  · intro u
    by_cases hu : u = t
    · subst hu
      simpa using hguarded
    · simpa [hu, hmutex u hu] using h.guarded u
  · intro u hphase
    by_cases hu : u = t
    · subst hu
      exact hattached (by simpa using hphase)
    · exact hgil u hu (h.attached u (by simpa [hu] using hphase))

theorem Ordered.goto (h : Ordered s) (hguarded : new.guarded = (s.phase t).guarded)
    (hattached : new.attached = true → s.gil = some t) : Ordered (s.goto t new) := by
  refine h.moved (fun _ _ => Iff.rfl) (fun _ _ hgil => hgil) ?_ hattached
  rw [hguarded]
  exact h.guarded t

theorem Ordered.locked (h : Ordered s) (hfree : s.mutex = none) (hgil : s.gil = some t)
    (hguarded : phase.guarded = true) :
    Ordered ⟨s.gil, some t, stage, Function.update s.phase t phase⟩ := by
  refine h.moved ?_ (fun _ _ hgil => hgil) (by simp [hguarded]) fun _ => hgil
  intro u hu
  simp [hfree, Ne.symm hu]

theorem Ordered.open (h : Ordered s) (hphase : s.phase t = .waits entry) (hfree : s.mutex = none) :
    Ordered (s.open t entry).1 := by
  have hgil : s.gil = some t := h.attached t (hphase ▸ rfl)
  cases entry with
  | repr => exact h.locked hfree hgil rfl
  | await ctx =>
    rw [State.open]
    cases s.stage with
    | started => exact h.locked hfree hgil rfl
    | pending => exact h.locked hfree hgil rfl
    | spent => exact h.goto (hphase ▸ rfl) nofun

theorem Ordered.move (h : Ordered s) (hmove : Moves s a s') : Ordered s' := by
  cases hmove with
  | attach t hphase hfree =>
    refine ⟨h.guarded, fun u hu => ?_⟩
    rw [h.attached u hu] at hfree
    cases hfree
  | detach t hphase hgil =>
    refine ⟨h.guarded, fun u hu => ?_⟩
    obtain rfl := Option.some.inj (hgil.symm.trans (h.attached u hu))
    rw [hphase] at hu
    cases hu
  | refused => exact h
  | enter t entry hphase hgil => exact h.goto (hphase ▸ rfl) fun _ => hgil
  | lock t entry hphase hfree => exact h.open hphase hfree
  | switch t call hphase =>
    have hgil : s.gil = some t := h.attached t (hphase ▸ rfl)
    have hmutex : s.mutex = some t := (h.guarded t).mp (hphase ▸ rfl)
    refine h.moved (fun _ _ => Iff.rfl) ?_ (by simp [Phase.guarded, hmutex]) nofun
    intro u hu hother
    exact absurd (Option.some.inj (hother.symm.trans hgil)) hu
  | resume t call hphase hfree =>
    have hmutex : s.mutex = some t := (h.guarded t).mp (hphase ▸ rfl)
    refine h.moved (fun _ _ => Iff.rfl) ?_ (by simp [Phase.guarded, hmutex]) fun _ => rfl
    intro u _ hother
    rw [hfree] at hother
    cases hother
  | goesOn t call next hphase =>
    exact h.goto (hphase ▸ rfl) fun _ => h.attached t (hphase ▸ rfl)
  | unlock t _ stage hguarded =>
    have hmutex : s.mutex = some t := (h.guarded t).mp hguarded
    refine h.moved ?_ (fun _ _ hgil => hgil) (by simp [Phase.guarded]) nofun
    intro u hu
    simp [hmutex, Ne.symm hu]

theorem reachable_ordered (h : machine.Reachable s log) : Ordered s := by
  refine h.inv ⟨?_, nofun⟩ fun _ _ _ _ hordered _ hstep => hordered.move (step_moves hstep)
  intro t
  simp [machine, Phase.guarded]

-- ---------------------------------------------------------------------------
-- When the locks cross
-- ---------------------------------------------------------------------------

/-- Nobody waits for a mutex that is taken. -/
def Clear (s : State τ) : Prop := ∀ t, (s.phase t).waiting = true → s.mutex = none

theorem Clear.goto (h : Clear s) (hnew : new.waiting = true → s.mutex = none) :
    Clear (s.goto t new) := by
  intro u hwaiting
  by_cases hu : u = t
  · subst hu
    exact hnew (by simpa [State.goto] using hwaiting)
  · exact h u (by simpa [State.goto, hu] using hwaiting)

theorem open_phase (s : State τ) (t : τ) (entry : Entry) :
    ∃ new : Phase, new.waiting = false ∧
      (s.open t entry).1.phase = Function.update s.phase t new := by
  cases entry with
  | repr => exact ⟨.reading, rfl, rfl⟩
  | await ctx =>
    cases hstage : s.stage with
    | started => exact ⟨.python .delegate true, rfl, by simp [State.open, State.goto, hstage]⟩
    | pending =>
      exact ⟨.python .getCurrentLocals true, rfl, by simp [State.open, State.goto, hstage]⟩
    | spent => exact ⟨.out, rfl, by simp [State.open, State.goto, hstage]⟩

theorem Ordered.open_clear (h : Ordered s) (hphase : s.phase t = .waits entry) :
    Clear (s.open t entry).1 := by
  obtain ⟨new, hnew, hopen⟩ := open_phase s t entry
  intro u hwaiting
  rw [hopen] at hwaiting
  by_cases hu : u = t
  · subst hu
    simp [hnew] at hwaiting
  · have hgil : s.gil = some t := h.attached t (hphase ▸ rfl)
    have hwaiting : (s.phase u).waiting = true := by simpa [hu] using hwaiting
    have hother : s.gil = some u := h.attached u (Phase.of_waiting hwaiting).1
    exact absurd (Option.some.inj (hother.symm.trans hgil)) hu

theorem Clear.move (h : Clear s) (hordered : Ordered s) (hfree : ComesToFree s a)
    (hmove : Moves s a s') : Clear s' := by
  cases hmove with
  | attach | detach | refused => exact h
  | enter t entry hphase hgil hguard => exact h.goto fun _ => hfree hguard
  | lock t entry hphase => exact hordered.open_clear hphase
  | switch | resume | goesOn => exact Clear.goto h nofun
  | unlock => exact fun _ _ => rfl

omit [DecidableEq τ] in
theorem Clear.not_crossed (h : Clear s) : ¬ s.Crossed := by
  rintro ⟨t, u, hmutex, -, -, hwaiting⟩
  rw [h u hwaiting] at hmutex
  cases hmutex

/-- A call that comes to the mutex when it is taken crosses the two locks: the thread that has
the mutex can only have lost the interpreter lock, which the caller has. -/
theorem Ordered.crosses (h : Ordered s) (hstep : s.step a = some (s', evs))
    (hbusy : ¬ ComesToFree s a) : s'.Crossed := by
  cases a with
  | enter u entry =>
    obtain ⟨hguard, hmutex⟩ : entry.guard = .ok () ∧ s.mutex ≠ none := by
      simpa [ComesToFree] using hbusy
    obtain ⟨t, ht⟩ := Option.ne_none_iff_exists'.mp hmutex
    simp only [State.step] at hstep
    split at hstep
    · next hout =>
      split at hstep
      · next hgil =>
        rw [hguard] at hstep
        obtain ⟨rfl, -⟩ := Prod.mk.inj (Option.some.inj hstep)
        have hguarded : (s.phase t).guarded = true := (h.guarded t).mpr ht
        have hne : t ≠ u := by
          rintro rfl
          rw [hout] at hguarded
          cases hguarded
        have haway : (s.phase t).attached ≠ true := fun hattached =>
          hne (Option.some.inj ((h.attached t hattached).symm.trans hgil))
        refine ⟨t, u, ht, ?_, hgil, by simp [State.goto, Phase.waiting]⟩
        simpa [State.goto, hne] using Phase.away_of_guarded hguarded haway
      · cases hstep
    · cases hstep
  | _ => exact absurd trivial hbusy

theorem reach_clear (h : machine.Reach ComesToFree s log) : Clear s ∧ Ordered s := by
  refine h.inv (P := fun s => Clear s ∧ Ordered s) ⟨nofun, reachable_ordered .init⟩ ?_
  intro s a s' evs ⟨hclear, hordered⟩ hfree hstep
  exact ⟨hclear.move hordered hfree (step_moves hstep), hordered.move (step_moves hstep)⟩

/-- The locks do not cross in a run in which every call finds the mutex free when it comes to
it, and they cross at the first call that does not. -/
theorem lock_crosses_iff_busy (τ : Type) [DecidableEq τ] :
    (∀ (s : State τ) log, machine.Reach ComesToFree s log → ¬ s.Crossed) ∧
      ∀ (s : State τ) log a s' evs, machine.Reachable s log →
        machine.step s a = some (s', evs) → ¬ ComesToFree s a → s'.Crossed := by
  constructor
  · intro s log h
    exact (reach_clear h).1.not_crossed
  · intro s log a s' evs h hstep hbusy
    exact (reachable_ordered h).crosses hstep hbusy

end

/-- The first `await` makes its future, and the loop's Python code loses the interpreter lock to
a thread that prints the awaitable. -/
def printedDuringAwait : List (Action Bool) :=
  [.attach true, .enter true (.await ⟨false, true, 7, 7⟩), .lock true,
    .returns true (some .createFuture), .switch true, .attach false, .enter false .repr]

theorem lock_crosses :
    ¬ ∀ (s : State Bool) log, machine.Reachable s log → ¬ s.Crossed := by
  intro hnever
  obtain ⟨s, log, h, heq⟩ := Machine.reach_replay (m := machine) printedDuringAwait
    (fun s _ => (s.mutex, (s.phase true).away, s.gil, (s.phase false).waiting))
    (fun _ _ _ => trivial) (b := (some true, true, some false, true)) (by decide +kernel)
  simp only [Prod.mk.injEq] at heq
  obtain ⟨hmutex, haway, hgil, hwaiting⟩ := heq
  exact hnever s log h ⟨true, false, hmutex, haway, hgil, hwaiting⟩

end ProcessKit.Runtime.AwaitLock

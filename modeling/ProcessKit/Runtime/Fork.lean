import Mathlib.Logic.Function.Basic
import ProcessKit.Guards
import ProcessKit.Transition

/-!
# The runtime and `fork()`

A fork copies the memory of a process, and with it `RUNTIME_OWNER_PID` and the cell that holds the
runtime, but of the threads only the one that forks. So a runtime that the child finds in its cell
has no workers there. The guard takes the owner's mark for a process of its own as it is first
passed, and refuses a process whose mark is another's.

The guard is met once, before the runtime is driven and not at every turn. A thread that forks while
it drives the runtime, which the handler of a signal may do, goes on in the child behind the guard.
-/

namespace ProcessKit.Runtime.Fork

open ProcessKit.Guards (guardAgainstFork guardAgainstFork_forked)
open Transition (Justified)

/-- `getpid()` is never zero. -/
abbrev Pid := { pid : Nat // pid ≠ 0 }

/-- What a process has in memory. `ι` names the processes and `τ` their threads: `runtime` is the
process that built the runtime in the cell, whose workers it has, and `driving` are the threads
that are past the guard. -/
structure Memory (ι τ : Type) where
  pid : Pid
  owner : Nat
  runtime : Option ι
  driving : τ → Bool

/-- The processes there have been; nothing is asked of those that are over. -/
abbrev System (ι τ : Type) := ι → Option (Memory ι τ)

inductive Action (ι τ : Type)
  | guard (p : ι) (t : τ)
  | drive (p : ι) (t : τ)
  | leave (p : ι) (t : τ)
  | fork (p : ι) (t : τ) (child : ι) (pid : Pid)
  deriving DecidableEq

inductive Event (ι : Type)
  | passed (p : ι)
  | refused (p : ι) (error : PyErr)
  | drove (p runtime : ι)
  | forked (p child : ι)
  deriving DecidableEq

namespace Memory

variable {ι τ : Type} [DecidableEq τ]

def new (pid : Pid) : Memory ι τ := ⟨pid, 0, none, fun _ => false⟩

def copy (m : Memory ι τ) (t : τ) (pid : Pid) : Memory ι τ :=
  { m with pid, driving := fun u => u = t && m.driving u }

def setDriving (m : Memory ι τ) (t : τ) (b : Bool) : Memory ι τ :=
  { m with driving := Function.update m.driving t b }

/-- `guard_against_fork`, which sees the mark and makes it this process's if there was none. -/
def guard (m : Memory ι τ) (t : τ) : Except PyErr (Memory ι τ) :=
  (guardAgainstFork ⟨false, false, m.pid, m.owner⟩).map fun _ =>
    { m with owner := m.pid }.setDriving t true

end Memory

namespace System

variable {ι τ : Type} [DecidableEq ι] [DecidableEq τ]

def new (pids : ι → Option Pid) : System ι τ := fun p => (pids p).map Memory.new

def set (s : System ι τ) (p : ι) (m : Memory ι τ) : System ι τ := Function.update s p (some m)

omit [DecidableEq τ] in
@[simp] theorem set_apply (s : System ι τ) (p : ι) (m : Memory ι τ) (q : ι) :
    s.set p m q = if q = p then some m else s q := Function.update_apply ..

def step (s : System ι τ) : Action ι τ → Option (System ι τ × List (Event ι))
  | .guard p t => do
    let m ← s p
    if m.driving t then none
    else
      match m.guard t with
      | .ok m' => some (s.set p m', [.passed p])
      | .error e => some (s, [.refused p e])
  | .drive p t => do
    let m ← s p
    if m.driving t then
      -- `rt()`, which builds the runtime if the cell is empty
      let runtime := m.runtime.getD p
      some (s.set p { m with runtime := some runtime }, [.drove p runtime])
    else none
  | .leave p t => do
    let m ← s p
    some (s.set p (m.setDriving t false), [])
  | .fork p t child pid => do
    let m ← s p
    if (s child).isNone then some (s.set child (m.copy t pid), [.forked p child])
    else none

def machine (pids : ι → Option Pid) : Transition.Machine (System ι τ) (Action ι τ) (Event ι) where
  init := .new pids
  step := step

/-- The thread that forks is not past the guard itself, and the child's pid is not the one that the
copied mark names, whose process may be over. -/
def Outside (s : System ι τ) : Action ι τ → Prop
  | .fork p t _ pid => ∀ m ∈ s p, m.driving t = false ∧ m.owner ≠ pid.val
  | _ => True

instance (s : System ι τ) (a : Action ι τ) : Decidable (Outside s a) :=
  match a with
  | .fork p t _ pid =>
    inferInstanceAs (Decidable (∀ m ∈ s p, m.driving t = false ∧ m.owner ≠ pid.val))
  | .guard .. | .drive .. | .leave .. => isTrue trivial

-- ---------------------------------------------------------------------------
-- What a step can do
-- ---------------------------------------------------------------------------

inductive Move (s : System ι τ) : Action ι τ → System ι τ → List (Event ι) → Prop
  | pass : s p = some m → m.owner = 0 ∨ m.owner = m.pid → Move s (.guard p t)
      (s.set p ({ m with owner := m.pid }.setDriving t true)) [.passed p]
  | refuse : s p = some m → m.owner ≠ 0 → m.owner ≠ m.pid → Move s (.guard p t) s [.refused p e]
  | drive : s p = some m → m.driving t = true → Move s (.drive p t)
      (s.set p { m with runtime := some (m.runtime.getD p) }) [.drove p (m.runtime.getD p)]
  | leave : s p = some m → Move s (.leave p t) (s.set p (m.setDriving t false)) []
  | fork : s p = some m → s child = none →
      Move s (.fork p t child pid) (s.set child (m.copy t pid)) [.forked p child]

omit [DecidableEq ι] [DecidableEq τ] in
theorem forked_iff (m : Memory ι τ) : (⟨false, false, m.pid, m.owner⟩ : Guards.Context).forked =
    true ↔ m.owner ≠ 0 ∧ m.owner ≠ m.pid := by
  simp [Guards.Context.forked]

theorem Move.of_step {s : System ι τ} (h : step s a = some (s', evs)) : Move s a s' evs := by
  cases a with
  | guard p t =>
    obtain ⟨m, hm, h⟩ := Option.bind_eq_some_iff.mp h
    split at h
    · cases h
    · cases hforked : (⟨false, false, m.pid, m.owner⟩ : Guards.Context).forked with
      | true =>
        obtain ⟨e, he⟩ := guardAgainstFork_forked hforked
        obtain ⟨hzero, hown⟩ := (forked_iff m).mp hforked
        simp only [Memory.guard, he, Except.map] at h
        cases h
        exact .refuse hm hzero hown
      | false =>
        have hmine : m.owner = 0 ∨ m.owner = m.pid := by
          by_contra hnot
          rw [not_or] at hnot
          exact absurd ((forked_iff m).mpr hnot) (by simp [hforked])
        simp only [Memory.guard, guardAgainstFork, hforked, Except.map] at h
        cases h
        exact .pass hm hmine
  | drive p t =>
    obtain ⟨m, hm, h⟩ := Option.bind_eq_some_iff.mp h
    split at h
    · cases h
      exact .drive hm ‹_›
    · cases h
  | leave p t =>
    obtain ⟨m, hm, h⟩ := Option.bind_eq_some_iff.mp h
    cases h
    exact .leave hm
  | fork p t child pid =>
    obtain ⟨m, hm, h⟩ := Option.bind_eq_some_iff.mp h
    split at h
    · cases h
      exact .fork hm (by simpa using ‹(s child).isNone = true›)
    · cases h

end System

-- ---------------------------------------------------------------------------
-- What has happened
-- ---------------------------------------------------------------------------

namespace Event

variable {ι : Type} [DecidableEq ι]

def touchedBy (touched : ι → Bool) : Event ι → ι → Bool
  | .passed p => Function.update touched p true
  | .forked p child => Function.update touched child (touched p)
  | .refused .. | .drove .. => touched

/-- Whether a process, or one that it comes from before it was forked, has passed the guard. -/
def touched (log : List (Event ι)) : ι → Bool := log.foldl touchedBy fun _ => false

@[simp] theorem touched_nil (p : ι) : touched [] p = false := rfl

@[simp] theorem touched_concat (log : List (Event ι)) (ev : Event ι) :
    touched (log ++ [ev]) = touchedBy (touched log) ev := by
  simp [touched, List.foldl_append]

/-- A process is refused when it has its runtime from another, and only then; the runtime that a
process drives is one that it built. -/
def Lawful (before : List (Event ι)) : Event ι → Prop
  | .passed p => touched before p = true → .passed p ∈ before
  | .refused p _ => touched before p = true ∧ .passed p ∉ before
  | .drove p runtime => .passed p ∈ before ∧ runtime = p
  | .forked .. => True

end Event

namespace System

open Event (touched touched_concat touchedBy Lawful)

variable {ι τ : Type} [DecidableEq ι] [DecidableEq τ] {s s' : System ι τ} {a : Action ι τ}
  {log evs : List (Event ι)} {m : Memory ι τ}

/-- How the memory of a process goes with what has happened to it. -/
structure Kept (log : List (Event ι)) (p : ι) (m : Memory ι τ) : Prop where
  claimed : m.owner ≠ 0 ↔ touched log p = true
  mine : m.owner = m.pid ↔ .passed p ∈ log
  unbuilt : m.owner = 0 → m.runtime = none
  built : m.owner = m.pid → ∀ r ∈ m.runtime, r = p
  behind : ∀ t, m.driving t = true → m.owner = m.pid

structure Guarded (s : System ι τ) (log : List (Event ι)) : Prop where
  unheard : ∀ p, s p = none → .passed p ∉ log
  kept : ∀ p m, s p = some m → Kept log p m
  lawful : Justified Lawful log

omit [DecidableEq τ] in
theorem Kept.aside (h : Kept log p m) (htouched : touched (log ++ evs) p = touched log p)
    (hpassed : .passed p ∉ evs) : Kept (log ++ evs) p m where
  claimed := by rw [htouched]; exact h.claimed
  mine := by simp [hpassed, h.mine]
  unbuilt := h.unbuilt
  built := h.built
  behind := h.behind

theorem Kept.pass (h : Kept log p m) (hmine : m.owner = 0 ∨ m.owner = m.pid) (t : τ) :
    Kept (log ++ [.passed p]) p ({ m with owner := m.pid }.setDriving t true) where
  claimed := by simpa [touchedBy, Memory.setDriving] using m.pid.property
  mine := by simp [Memory.setDriving]
  unbuilt hzero := absurd hzero m.pid.property
  built _ r hr := by
    rcases hmine with hzero | hmine
    · rw [Memory.setDriving, h.unbuilt hzero] at hr
      cases hr
    · exact h.built hmine r hr
  behind _ _ := rfl

omit [DecidableEq τ] in
theorem Kept.drive (h : Kept log p m) (hdriving : m.driving t = true) :
    Kept (log ++ [.drove p (m.runtime.getD p)]) p
      { m with runtime := some (m.runtime.getD p) } := by
  have hmine := h.behind t hdriving
  refine ⟨by simpa [touchedBy] using h.claimed, by simpa using h.mine, fun hzero => ?_,
    fun _ r hr => ?_, h.behind⟩
  · exact absurd (hmine ▸ hzero) m.pid.property
  · obtain rfl : m.runtime.getD p = r := Option.some.inj hr
    cases hruntime : m.runtime with
    | none => rfl
    | some r => exact h.built hmine r hruntime

theorem Kept.leave (h : Kept log p m) (t : τ) : Kept log p (m.setDriving t false) where
  claimed := h.claimed
  mine := h.mine
  unbuilt := h.unbuilt
  built := h.built
  behind u hu := by
    refine h.behind u ?_
    by_cases heq : u = t
    · simp [Memory.setDriving, heq] at hu
    · simpa [Memory.setDriving, heq] using hu

theorem Kept.fork (h : Kept log p m) (hout : m.driving t = false ∧ m.owner ≠ pid.val)
    (hunheard : .passed child ∉ log) : Kept (log ++ [.forked p child]) child (m.copy t pid) where
  claimed := by simpa [touchedBy, Memory.copy] using h.claimed
  mine := by simpa [Memory.copy, hunheard] using hout.2
  unbuilt := h.unbuilt
  built hmine := absurd hmine hout.2
  behind u hu := by
    obtain ⟨heq, hdriving⟩ : u = t ∧ m.driving u = true := by simpa [Memory.copy] using hu
    rw [heq, hout.1] at hdriving
    cases hdriving

omit [DecidableEq τ] in
theorem Guarded.set (hi : Guarded s log) (hnew : Kept (log ++ evs) p m)
    (haside : ∀ q ≠ p, touched (log ++ evs) q = touched log q ∧ .passed q ∉ evs)
    (hlawful : Justified Lawful (log ++ evs)) : Guarded (s.set p m) (log ++ evs) where
  unheard q hq := by
    obtain ⟨hne, hq⟩ : q ≠ p ∧ s q = none := by
      by_cases heq : q = p
      · simp [heq] at hq
      · exact ⟨heq, by simpa [heq] using hq⟩
    simp [hi.unheard q hq, (haside q hne).2]
  kept q m' hq := by
    by_cases heq : q = p
    · subst heq
      obtain rfl : m = m' := by simpa using hq
      exact hnew
    · obtain ⟨htouched, hpassed⟩ := haside q heq
      exact (hi.kept q m' (by simpa [heq] using hq)).aside htouched hpassed
  lawful := hlawful

theorem Guarded.step (hi : Guarded s log) (hout : Outside s a) (h : Move s a s' evs) :
    Guarded s' (log ++ evs) := by
  cases h with
  | @pass p m t hm hmine =>
    have hkept := hi.kept p m hm
    refine hi.set (hkept.pass hmine t) (fun q hne => ?_) (hi.lawful.snoc fun htouched => ?_)
    · simp [touchedBy, hne]
    · exact hkept.mine.mp (hmine.resolve_left (hkept.claimed.mpr htouched))
  | @refuse p m t e hm hzero hown =>
    have hkept := hi.kept p m hm
    exact ⟨fun q hq => by simpa using hi.unheard q hq,
      fun q m' hq => (hi.kept q m' hq).aside (by simp [touchedBy]) (by simp),
      hi.lawful.snoc ⟨hkept.claimed.mp hzero, fun hpassed => hown (hkept.mine.mpr hpassed)⟩⟩
  | @drive p m t hm hdriving =>
    have hkept := hi.kept p m hm
    have hmine := hkept.behind t hdriving
    refine hi.set (hkept.drive hdriving) (fun q hne => by simp [touchedBy])
      (hi.lawful.snoc ⟨hkept.mine.mp hmine, ?_⟩)
    cases hruntime : m.runtime with
    | none => rfl
    | some r => exact hkept.built hmine r hruntime
  | @leave p m t hm =>
    have hkept := hi.kept p m hm
    have hleave : Kept (log ++ []) p (m.setDriving t false) := by simpa using hkept.leave t
    exact hi.set hleave (by simp) (by simpa using hi.lawful)
  | @fork p m child t pid hm hfree =>
    have hkept := hi.kept p m hm
    refine hi.set (hkept.fork (hout m hm) (hi.unheard child hfree)) (fun q hne => ?_)
      (hi.lawful.snoc trivial)
    simp [touchedBy, hne]

theorem Guarded.of_reach {pids : ι → Option Pid}
    (hr : (machine (τ := τ) pids).Reach Outside s log) : Guarded s log := by
  refine hr.invariant ⟨by simp, fun p m hm => ?_, .nil⟩
    fun _ _ _ _ _ hi hout hs => hi.step hout (.of_step hs)
  obtain ⟨pid, -, rfl⟩ := Option.map_eq_some_iff.mp hm
  exact ⟨by simp [Memory.new], by simpa [Memory.new] using pid.property.symm, fun _ => rfl, by simp [Memory.new],
    by simp [Memory.new]⟩

omit [DecidableEq ι] in
theorem guard_refuses (m : Memory ι τ) (t : τ) :
    (∃ e, m.guard t = .error e) ↔ m.owner ≠ 0 ∧ m.owner ≠ m.pid := by
  rw [← forked_iff]
  cases hforked : (⟨false, false, m.pid, m.owner⟩ : Guards.Context).forked with
  | true =>
    obtain ⟨e, he⟩ := guardAgainstFork_forked hforked
    simp [Memory.guard, he, Except.map]
  | false => simp [Memory.guard, guardAgainstFork, hforked, Except.map]

/-- However the processes and their threads run and fork: a runtime is driven by the process that
built it, and a process is refused exactly when one that it comes from had passed the guard before
it was forked. -/
theorem guards {pids : ι → Option Pid} (hr : (machine (τ := τ) pids).Reach Outside s log) :
    Justified Lawful log ∧
      ∀ p m, s p = some m → ∀ t,
        ((∃ e, m.guard t = .error e) ↔ touched log p = true ∧ .passed p ∉ log) := by
  have hi := Guarded.of_reach hr
  refine ⟨hi.lawful, fun p m hm t => ?_⟩
  have hkept := hi.kept p m hm
  rw [guard_refuses, ne_eq, ne_eq, hkept.mine, ← ne_eq, hkept.claimed]

def pids : Nat → Option Pid
  | 0 => some ⟨10, by decide⟩
  | _ => none

def family : List (Action Nat Nat) :=
  [.fork 0 0 1 ⟨11, by decide⟩, .guard 0 0, .drive 0 0, .leave 0 0, .fork 0 0 2 ⟨12, by decide⟩,
    .guard 2 0, .guard 1 0, .drive 1 0]

theorem guards_family : ∃ s log, (machine (τ := Nat) pids).Reach Outside s log ∧
    .drove 1 1 ∈ log ∧ .forked 0 2 ∈ log ∧ .passed 2 ∉ log ∧ Justified Lawful log := by
  obtain ⟨s, log, hr, heq⟩ := Transition.Machine.reach_replay
    (m := (machine (τ := Nat) pids).guarded fun s a => decide (Outside s a)) family
    (fun _ log => decide (.drove 1 1 ∈ log ∧ .forked 0 2 ∈ log ∧ .passed 2 ∉ log))
    (fun _ _ _ => trivial) (b := true) (by decide +kernel)
  obtain ⟨hdrove, hforked, hpassed⟩ := of_decide_eq_true heq
  have hreach := hr.of_guarded fun _ _ h => of_decide_eq_true h
  exact ⟨s, log, hreach, hdrove, hforked, hpassed, (guards hreach).1⟩

/-- The handler of a signal forks, and the call goes on in the child. -/
example : ((machine (τ := Nat) pids).run (.new pids)
    [.guard 0 0, .drive 0 0, .fork 0 0 1 ⟨11, by decide⟩, .drive 1 0]).map (·.2) =
      some [.passed 0, .drove 0 0, .forked 0 1, .drove 1 0] := by
  decide

end System

end ProcessKit.Runtime.Fork

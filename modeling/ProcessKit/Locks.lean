import Mathlib.Logic.Function.Basic
import ProcessKit.Transition

/-!
# Threads that take locks

A thread runs a list of actions, each of which takes a lock or gives one back,
and blocks at a lock that is held. Two threads are crossed when each holds the
lock the other is about to take.

Whether a crossing is reached is a question about the scripts alone: it needs
two threads that nest the two locks in opposite orders, and where one of them
takes its two locks one right after the other it needs no more than that.
-/

namespace Locks

inductive Act (R : Type)
  | acquire (r : R)
  | release (r : R)
  deriving DecidableEq

structure State (τ R : Type) where
  todo : τ → List (Act R)
  holder : R → Option τ

def State.Waits (s : State τ R) (t : τ) (r : R) : Prop := ∃ rest, s.todo t = .acquire r :: rest

/-- One thread holds `r` and waits for `r'`, another holds `r'` and waits for `r`. -/
def State.Crossed (s : State τ R) (r r' : R) : Prop :=
  ∃ t u, t ≠ u ∧ s.holder r = some t ∧ s.Waits t r' ∧ s.holder r' = some u ∧ s.Waits u r

section
variable [DecidableEq τ] [DecidableEq R]

def State.step (s : State τ R) (t : τ) : Option (State τ R × List Empty) :=
  match s.todo t with
  | [] => none
  | .acquire r :: rest =>
    if s.holder r = none then
      some (⟨Function.update s.todo t rest, Function.update s.holder r (some t)⟩, [])
    else none
  | .release r :: rest =>
    if s.holder r = some t then
      some (⟨Function.update s.todo t rest, Function.update s.holder r none⟩, [])
    else none

def machine (script : τ → List (Act R)) : Transition.Machine (State τ R) τ Empty where
  init := ⟨script, fun _ => none⟩
  step := State.step

def Reaches (script : τ → List (Act R)) (s : State τ R) : Prop :=
  ∃ log, (machine script).Reachable s log

end

-- ---------------------------------------------------------------------------
-- One script by itself
-- ---------------------------------------------------------------------------

section
variable [DecidableEq R]

def after (held : R → Bool) : List (Act R) → (R → Bool)
  | [] => held
  | .acquire r :: acts => after (Function.update held r true) acts
  | .release r :: acts => after (Function.update held r false) acts

/-- Only free locks are taken, and only held ones given back. -/
def Clean (held : R → Bool) : List (Act R) → Prop
  | [] => True
  | .acquire r :: acts => held r = false ∧ Clean (Function.update held r true) acts
  | .release r :: acts => held r = true ∧ Clean (Function.update held r false) acts

/-- Somewhere `inner` is taken while `outer` is held. -/
def Nests (outer inner : R) (held : R → Bool) : List (Act R) → Prop
  | [] => False
  | .acquire r :: acts =>
    (r = inner ∧ held outer = true) ∨ Nests outer inner (Function.update held r true) acts
  | .release r :: acts => Nests outer inner (Function.update held r false) acts

abbrev free : R → Bool := fun _ => false

@[simp] theorem after_append (held : R → Bool) (xs ys : List (Act R)) :
    after held (xs ++ ys) = after (after held xs) ys := by
  induction xs generalizing held with
  | nil => rfl
  | cons act xs ih => cases act <;> exact ih _

@[simp] theorem clean_append (held : R → Bool) (xs ys : List (Act R)) :
    Clean held (xs ++ ys) ↔ Clean held xs ∧ Clean (after held xs) ys := by
  induction xs generalizing held with
  | nil => simp [Clean, after]
  | cons act xs ih => cases act <;> simp [Clean, after, ih, and_assoc]

@[simp] theorem nests_append {outer inner : R} (held : R → Bool) (xs ys : List (Act R)) :
    Nests outer inner held (xs ++ ys) ↔
      Nests outer inner held xs ∨ Nests outer inner (after held xs) ys := by
  induction xs generalizing held with
  | nil => simp [Nests, after]
  | cons act xs ih => cases act <;> simp [Nests, after, ih, or_assoc]

theorem nests_iff {outer inner : R} {held : R → Bool} {acts : List (Act R)} :
    Nests outer inner held acts ↔
      ∃ before rest, acts = before ++ .acquire inner :: rest ∧ after held before outer = true := by
  constructor
  · intro h
    induction acts generalizing held with
    | nil => exact h.elim
    | cons act acts ih =>
      cases act with
      | acquire r =>
        rcases h with ⟨rfl, hheld⟩ | h
        · exact ⟨[], acts, rfl, hheld⟩
        · obtain ⟨before, rest, rfl, hb⟩ := ih h
          exact ⟨.acquire r :: before, rest, rfl, hb⟩
      | release r =>
        obtain ⟨before, rest, rfl, hb⟩ := ih h
        exact ⟨.release r :: before, rest, rfl, hb⟩
  · rintro ⟨before, rest, rfl, hb⟩
    rw [nests_append]
    exact .inr (.inl ⟨rfl, hb⟩)

theorem after_flatMap {held : R → Bool} {xs : List α} {f : α → List (Act R)}
    (hf : ∀ x ∈ xs, after held (f x) = held) : after held (xs.flatMap f) = held := by
  induction xs with
  | nil => rfl
  | cons x xs ih =>
    rw [List.flatMap_cons, after_append, hf x (by simp), ih fun y hy => hf y (by simp [hy])]

theorem clean_flatMap {held : R → Bool} {xs : List α} {f : α → List (Act R)}
    (hf : ∀ x ∈ xs, after held (f x) = held) (hc : ∀ x ∈ xs, Clean held (f x)) :
    Clean held (xs.flatMap f) := by
  induction xs with
  | nil => trivial
  | cons x xs ih =>
    rw [List.flatMap_cons, clean_append, hf x (by simp)]
    exact ⟨hc x (by simp), ih (fun y hy => hf y (by simp [hy])) fun y hy => hc y (by simp [hy])⟩

theorem nests_flatMap {held : R → Bool} {xs : List α} {f : α → List (Act R)} {outer inner : R}
    (hf : ∀ x ∈ xs, after held (f x) = held) :
    Nests outer inner held (xs.flatMap f) ↔ ∃ x ∈ xs, Nests outer inner held (f x) := by
  induction xs with
  | nil => simp [Nests]
  | cons x xs ih =>
    rw [List.flatMap_cons, nests_append, hf x (by simp), ih fun y hy => hf y (by simp [hy])]
    simp

end

-- ---------------------------------------------------------------------------
-- A crossing needs two threads that nest the locks in opposite orders
-- ---------------------------------------------------------------------------

section
variable [DecidableEq R]

/-- Each thread has done a part of its script and holds what that part holds. -/
def Follows (script : τ → List (Act R)) (s : State τ R) : Prop :=
  ∀ t, ∃ done, script t = done ++ s.todo t ∧ ∀ r, s.holder r = some t ↔ after free done r = true

theorem Follows.nests {script : τ → List (Act R)} {s : State τ R} {outer inner : R}
    (hf : Follows script s) (hheld : s.holder outer = some t) (hwait : s.Waits t inner) :
    Nests outer inner free (script t) := by
  obtain ⟨done, hscript, hdone⟩ := hf t
  obtain ⟨rest, htodo⟩ := hwait
  exact nests_iff.mpr ⟨done, rest, by rw [hscript, htodo], (hdone outer).mp hheld⟩

def solo (t : τ) (held : R → Bool) (r : R) : Option τ := if held r then some t else none

theorem solo_update (t : τ) (held : R → Bool) (r : R) (b : Bool) :
    Function.update (solo t held) r (if b then some t else none) =
      solo t (Function.update held r b) := by
  funext q
  by_cases hq : q = r <;> simp [solo, hq]

variable [DecidableEq τ]

theorem Follows.move {script : τ → List (Act R)} {s : State τ R} {holder : R → Option τ}
    (hf : Follows script s) (htodo : s.todo t = act :: rest)
    (hmine : ∀ held : R → Bool, (∀ r, s.holder r = some t ↔ held r = true) →
      ∀ r, holder r = some t ↔ after held [act] r = true)
    (hother : ∀ u, u ≠ t → ∀ r, holder r = some u ↔ s.holder r = some u) :
    Follows script ⟨Function.update s.todo t rest, holder⟩ := by
  intro u
  obtain ⟨done, hscript, hheld⟩ := hf u
  by_cases hu : u = t
  · subst hu
    refine ⟨done ++ [act], by simp [hscript, htodo], fun r => ?_⟩
    rw [after_append]
    exact hmine _ hheld r
  · exact ⟨done, by simpa [hu] using hscript, fun r => (hother u hu r).trans (hheld r)⟩

theorem Follows.step {script : τ → List (Act R)} {s s' : State τ R} (hf : Follows script s)
    (hs : s.step t = some (s', evs)) : Follows script s' := by
  unfold State.step at hs
  split at hs
  · cases hs
  · rename_i r rest htodo
    split at hs <;> cases hs
    rename_i hfree
    refine hf.move htodo (fun held hheld q => ?_) fun u hu q => ?_ <;>
      by_cases hq : q = r <;> simp_all [after, Ne.symm]
  · rename_i r rest htodo
    split at hs <;> cases hs
    rename_i hmine
    refine hf.move htodo (fun held hheld q => ?_) fun u hu q => ?_ <;>
      by_cases hq : q = r <;> simp_all [after, Ne.symm]

theorem Reaches.follows {script : τ → List (Act R)} {s : State τ R} (hr : Reaches script s) :
    Follows script s := by
  obtain ⟨log, hr⟩ := hr
  exact hr.inv (fun _ => ⟨[], rfl, fun r => by simp [machine, after]⟩)
    fun _ _ _ _ hf _ hs => hf.step hs

theorem Reaches.nests_of_crossed {script : τ → List (Act R)} {s : State τ R}
    (hr : Reaches script s) (hc : s.Crossed r r') :
    ∃ t u, t ≠ u ∧ Nests r r' free (script t) ∧ Nests r' r free (script u) := by
  obtain ⟨t, u, hne, hheld, hwait, hheld', hwait'⟩ := hc
  exact ⟨t, u, hne, hr.follows.nests hheld hwait, hr.follows.nests hheld' hwait'⟩

-- ---------------------------------------------------------------------------
-- And a crossing is reached
-- ---------------------------------------------------------------------------

theorem State.step_acquire {s : State τ R} (htodo : s.todo t = .acquire r :: rest)
    (hfree : s.holder r = none) : s.step t =
      some (⟨Function.update s.todo t rest, Function.update s.holder r (some t)⟩, []) := by
  simp [State.step, htodo, hfree]

theorem State.step_release {s : State τ R} (htodo : s.todo t = .release r :: rest)
    (hmine : s.holder r = some t) : s.step t =
      some (⟨Function.update s.todo t rest, Function.update s.holder r none⟩, []) := by
  simp [State.step, htodo, hmine]

theorem Reaches.step {script : τ → List (Act R)} {s s' : State τ R} (hr : Reaches script s)
    (hs : s.step t = some (s', evs)) : Reaches script s' := by
  obtain ⟨log, hr⟩ := hr
  exact ⟨_, hr.step trivial hs⟩

theorem Reaches.alone {script todo : τ → List (Act R)} {held : R → Bool}
    (hr : Reaches script ⟨todo, solo t held⟩) (htodo : todo t = acts ++ rest)
    (hc : Clean held acts) :
    Reaches script ⟨Function.update todo t rest, solo t (after held acts)⟩ := by
  induction acts generalizing todo held with
  | nil =>
    rw [show Function.update todo t rest = todo by simpa using htodo.symm]
    exact hr
  | cons act acts ih =>
    cases act with
    | acquire r =>
      have hr := hr.step (State.step_acquire htodo (by simp [solo, hc.1]))
      rw [show some t = if true then some t else none from rfl, solo_update] at hr
      simpa [after] using ih hr (by simp) hc.2
    | release r =>
      have hr := hr.step (State.step_release htodo (by simp [solo, hc.1]))
      rw [show none = if false = true then some t else none from rfl, solo_update] at hr
      simpa [after] using ih hr (by simp) hc.2

/-- Where one thread nests the two locks and another takes them one right after
the other in the opposite order, some run crosses them. -/
theorem crossed_of_nests {script : τ → List (Act R)} (htu : t ≠ u)
    (hclean : Clean free (script t)) (hnests : Nests r r' free (script t))
    (hscript : script u = first ++ .acquire r' :: .acquire r :: rest)
    (hclean' : Clean free (script u)) (hfirst : after free first = free) :
    ∃ s, Reaches script s ∧ s.Crossed r r' := by
  obtain ⟨before, rest', hbefore, hheld⟩ := nests_iff.mp hnests
  rw [hbefore, clean_append] at hclean
  rw [hscript, clean_append] at hclean'
  obtain ⟨hbc, hfree, -⟩ := hclean
  have hinit : Reaches script ⟨script, solo u free⟩ := ⟨[], .init⟩
  -- `u` runs up to its two locks, then `t` up to its inner one, then `u` takes its outer one
  have hu := hinit.alone hscript hclean'.1
  rw [hfirst] at hu
  have ht : Reaches script _ := Reaches.alone (t := t) hu
    (by rw [Function.update_of_ne htu, hbefore]) hbc
  have hwait : Function.update (Function.update script u (.acquire r' :: .acquire r :: rest)) t
      (.acquire r' :: rest') u = .acquire r' :: .acquire r :: rest := by simp [htu.symm]
  have hcrossed := ht.step (State.step_acquire hwait (by simp [solo, hfree]))
  have hne : r ≠ r' := by
    rintro rfl
    rw [hfree] at hheld
    cases hheld
  refine ⟨_, hcrossed, t, u, htu, ?_, ⟨rest', ?_⟩, ?_, ⟨rest, ?_⟩⟩
  · simp [solo, hne, hheld]
  · simp [htu]
  · simp
  · simp

end

end Locks

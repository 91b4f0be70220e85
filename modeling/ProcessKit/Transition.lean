import Mathlib.Data.List.Basic
import Mathlib.Data.List.Nodup

/-!
# Transition systems with an event log

A machine is a guarded step function: `step s a` is `none` when the action
`a` is not enabled in `s`, and otherwise the next state with the events the
step emits. One definition serves replay (`run`, on concrete actions) and
proof (`Reach`, over every order of actions). `Reach` keeps the log of
everything the run emitted, so that "at most once" and "only after" are
facts about a list.

`Reach` takes the condition its steps have to meet; `Reachable` is the run
without one.
-/

namespace Transition

structure Machine (σ : Type u) (α : Type v) (ε : Type w) where
  init : σ
  step : σ → α → Option (σ × List ε)

namespace Machine

variable {m : Machine σ α ε} {ok ok' : σ → α → Prop}

/-- The states reached by steps that each meet `ok`, with their logs. -/
inductive Reach (m : Machine σ α ε) (ok : σ → α → Prop) : σ → List ε → Prop
  | init : Reach m ok m.init []
  | step : Reach m ok s log → ok s a → m.step s a = some (s', evs) → Reach m ok s' (log ++ evs)

abbrev Reachable (m : Machine σ α ε) : σ → List ε → Prop := m.Reach fun _ _ => True

/-- The induction rule: what holds at the start and is kept by every step
that meets the condition holds of every state and log reached. -/
theorem Reach.invariant {P : σ → List ε → Prop} (h : m.Reach ok s log) (init : P m.init [])
    (step : ∀ s log a s' evs, P s log → ok s a → m.step s a = some (s', evs) → P s' (log ++ evs)) :
    P s log := by
  induction h with
  | init => exact init
  | step _ ha hs ih => exact step _ _ _ _ _ ih ha hs

/-- The rule for a property of the state alone. -/
theorem Reach.inv {P : σ → Prop} (h : m.Reach ok s log) (init : P m.init)
    (step : ∀ s a s' evs, P s → ok s a → m.step s a = some (s', evs) → P s') : P s :=
  h.invariant (P := fun s _ => P s) init fun s _ a s' evs hp ha hs => step s a s' evs hp ha hs

-- ---------------------------------------------------------------------------
-- Replay
-- ---------------------------------------------------------------------------

/-- Replay actions from a state; `none` when one of them is not enabled. -/
def run (m : Machine σ α ε) (s : σ) : List α → Option (σ × List ε)
  | [] => some (s, [])
  | a :: as => do
    let (s', evs) ← m.step s a
    let (final, rest) ← m.run s' as
    return (final, evs ++ rest)

def RunMeets (m : Machine σ α ε) (ok : σ → α → Prop) (s : σ) : List α → Prop
  | [] => True
  | a :: as => ok s a ∧ ∀ s' evs, m.step s a = some (s', evs) → m.RunMeets ok s' as

theorem Reach.run (h : m.Reach ok s log) (as : List α) (hm : m.RunMeets ok s as)
    (hr : m.run s as = some (s', evs)) : m.Reach ok s' (log ++ evs) := by
  induction as generalizing s log evs with
  | nil =>
    obtain ⟨rfl, rfl⟩ : s = s' ∧ [] = evs := by simpa [Machine.run] using hr
    simpa using h
  | cons a as ih =>
    simp only [Machine.run, Option.bind_eq_bind, Option.bind_eq_some_iff, Prod.exists] at hr
    obtain ⟨t, first, hstep, final, rest, hrest, hpure⟩ := hr
    obtain ⟨rfl, rfl⟩ : final = s' ∧ first ++ rest = evs := by simpa using hpure
    rw [← List.append_assoc]
    exact ih (h.step hm.1 hstep) (hm.2 _ _ hstep) hrest

theorem runMeets_of_forall (m : Machine σ α ε) (hok : ∀ a ∈ as, ∀ s, ok s a) (s : σ) :
    m.RunMeets ok s as := by
  induction as generalizing s with
  | nil => trivial
  | cons a as ih => exact ⟨hok a (by simp) s, fun _ _ _ => ih (fun b hb => hok b (by simp [hb])) _⟩

theorem reach_run (as : List α) (hok : ∀ a ∈ as, ∀ s, ok s a)
    (hr : m.run m.init as = some (s, log)) : m.Reach ok s log := by
  simpa using Reach.init.run as (m.runMeets_of_forall hok _) hr

/-- What a replay ends with is reached. -/
theorem reach_replay (as : List α) (f : σ → List ε → β) (hok : ∀ a ∈ as, ∀ s, ok s a)
    (hr : (m.run m.init as).map (fun r => f r.1 r.2) = some b) :
    ∃ s log, m.Reach ok s log ∧ f s log = b := by
  obtain ⟨⟨s, log⟩, hrun, hf⟩ := Option.map_eq_some_iff.mp hr
  exact ⟨s, log, reach_run as hok hrun, hf⟩

def guarded (m : Machine σ α ε) (check : σ → α → Bool) : Machine σ α ε where
  init := m.init
  step s a := if check s a then m.step s a else none

theorem Reach.of_guarded (h : (m.guarded check).Reach ok' s log)
    (hok : ∀ s a, check s a = true → ok s a) : m.Reach ok s log := by
  induction h with
  | init => exact .init
  | step _ _ hs ih =>
    simp only [guarded, Option.ite_none_right_eq_some] at hs
    exact ih.step (hok _ _ hs.1) hs.2

-- ---------------------------------------------------------------------------
-- Projections
-- ---------------------------------------------------------------------------

/-- A view of the states of one machine as states of another, under which
every step is a step of the other or changes nothing. -/
structure Projection (m : Machine σ α ε) (n : Machine τ β δ) where
  view : σ → τ
  init : view m.init = n.init
  step : m.step s a = some (s', evs) →
    view s' = view s ∨ ∃ b evs', n.step (view s) b = some (view s', evs')

/-- Whatever is reached is seen as a state the other machine reaches. -/
theorem Projection.reach {n : Machine τ β δ} (p : Projection m n) (h : m.Reach ok s log) :
    ∃ log', n.Reachable (p.view s) log' := by
  induction h with
  | init => exact ⟨[], p.init ▸ .init⟩
  | step _ _ hs ih =>
    obtain ⟨log', ih⟩ := ih
    rcases p.step hs with same | ⟨b, evs', hb⟩
    · exact ⟨log', same ▸ ih⟩
    · exact ⟨log' ++ evs', ih.step trivial hb⟩

-- ---------------------------------------------------------------------------
-- Runs that know their past
-- ---------------------------------------------------------------------------

/-- The machine with its log beside the state, for conditions on what has been. -/
def logged (m : Machine σ α ε) : Machine (σ × List ε) α ε where
  init := (m.init, [])
  step s a := (m.step s.1 a).map fun next => ((next.1, s.2 ++ next.2), next.2)

theorem logged_step {m : Machine σ α ε} {s s' : σ × List ε}
    (h : m.logged.step s a = some (s', evs)) :
    m.step s.1 a = some (s'.1, evs) ∧ s'.2 = s.2 ++ evs := by
  obtain ⟨⟨next, evs'⟩, hstep, heq⟩ := Option.map_eq_some_iff.mp h
  obtain ⟨rfl, rfl⟩ := Prod.mk.inj heq
  exact ⟨hstep, rfl⟩

theorem Reach.of_logged {m : Machine σ α ε} {ok : σ × List ε → α → Prop} {s : σ × List ε}
    (h : m.logged.Reach ok s log) : s.2 = log ∧ m.Reachable s.1 log := by
  induction h with
  | init => exact ⟨rfl, .init⟩
  | step _ _ hs ih =>
    obtain ⟨hstep, hlog⟩ := logged_step hs
    obtain ⟨rfl, hreach⟩ := ih
    exact ⟨hlog, hreach.step trivial hstep⟩

/-- The machine with the number of its steps beside the state. -/
def counted (m : Machine σ α ε) : Machine (σ × Nat) α ε where
  init := (m.init, 0)
  step s a := (m.step s.1 a).map fun next => ((next.1, s.2 + 1), next.2)

theorem counted_step {m : Machine σ α ε} {s s' : σ × Nat}
    (h : m.counted.step s a = some (s', evs)) :
    m.step s.1 a = some (s'.1, evs) ∧ s'.2 = s.2 + 1 := by
  obtain ⟨⟨next, evs'⟩, hstep, heq⟩ := Option.map_eq_some_iff.mp h
  obtain ⟨rfl, rfl⟩ := Prod.mk.inj heq
  exact ⟨hstep, rfl⟩

end Machine

-- ---------------------------------------------------------------------------
-- Order in a log
-- ---------------------------------------------------------------------------

/-- Every event of the log is justified by the events before it. -/
def Justified (Q : List ε → ε → Prop) (log : List ε) : Prop :=
  ∀ before e after, log = before ++ e :: after → Q before e

theorem Justified.nil {Q : List ε → ε → Prop} : Justified Q [] := by
  intro before e after h
  simp at h

theorem Justified.append {Q : List ε → ε → Prop} (h : Justified Q log)
    (hevs : ∀ before e after, evs = before ++ e :: after → Q (log ++ before) e) :
    Justified Q (log ++ evs) := by
  intro before e after heq
  rcases List.append_eq_append_iff.mp heq with ⟨mid, rfl, hmid⟩ | ⟨mid, rfl, hmid⟩
  · exact hevs _ _ _ hmid
  · cases mid with
    | nil => simpa using hevs [] e after (by simpa using hmid.symm)
    | cons x mid =>
      obtain ⟨rfl, -⟩ : e = x ∧ after = mid ++ evs := by simpa using hmid
      exact h _ _ _ rfl

theorem Justified.snoc {Q : List ε → ε → Prop} (h : Justified Q log) (he : Q log e) :
    Justified Q (log ++ [e]) := by
  refine h.append fun before e' after heq => ?_
  cases before with
  | nil =>
    obtain ⟨rfl, -⟩ : e = e' ∧ after = [] := by simpa [eq_comm] using heq
    simpa using he
  | cons x before => simp at heq

theorem Justified.pair {Q : List ε → ε → Prop} (h : Justified Q log) (he : Q log e)
    (he' : Q (log ++ [e]) e') : Justified Q (log ++ [e, e']) := by
  simpa using (h.snoc he).snoc he'

theorem Justified.append_of_log {Q : List ε → ε → Prop} (h : Justified Q log)
    (mono : ∀ {l l' : List ε} {e}, Q l e → Q (l ++ l') e) (hevs : ∀ e ∈ evs, Q log e) :
    Justified Q (log ++ evs) :=
  h.append fun _ e _ heq => mono (hevs e (by simp [heq]))

theorem append_eq_split {log evs before after : List ε}
    (h : log ++ evs = before ++ e :: after) :
    (∃ rest, log = before ++ e :: rest ∧ after = rest ++ evs) ∨
      ∃ mid, before = log ++ mid ∧ evs = mid ++ e :: after := by
  rcases List.append_eq_append_iff.mp h with ⟨mid, rfl, hmid⟩ | ⟨mid, rfl, hmid⟩
  · exact .inr ⟨mid, rfl, hmid⟩
  · rcases List.cons_eq_append_iff.mp hmid with ⟨rfl, rfl⟩ | ⟨rest, rfl, rfl⟩
    · exact .inr ⟨[], by simp, rfl⟩
    · exact .inl ⟨rest, rfl, rfl⟩

/-- Whatever comes in `order` before something else does so in `l`, if `l` has both. -/
def Follows (order l : List β) : Prop :=
  ∀ a b, [a, b].Sublist order → a ∈ l → b ∈ l → [a, b].Sublist l

theorem pair_sublist_append {a b : β} (h : [a, b].Sublist (l ++ l')) :
    [a, b].Sublist l ∨ a ∈ l ∧ b ∈ l' ∨ [a, b].Sublist l' := by
  obtain ⟨first, second, heq, hfirst, hsecond⟩ := List.sublist_append_iff.mp h
  rcases List.cons_eq_append_iff.mp heq with ⟨rfl, rfl⟩ | ⟨rest, rfl, hrest⟩
  · exact .inr (.inr hsecond)
  · rcases List.cons_eq_append_iff.mp hrest with ⟨rfl, rfl⟩ | ⟨rest', rfl, hnil⟩
    · exact .inr (.inl ⟨List.singleton_sublist.mp hfirst, List.singleton_sublist.mp hsecond⟩)
    · obtain ⟨rfl, rfl⟩ := List.append_eq_nil_iff.mp hnil.symm
      exact .inl hfirst

theorem Follows.snoc {order l : List β} (h : Follows order l) (hc : c ∉ l) :
    Follows (order ++ [c]) l := by
  intro a b hpair ha hb
  rcases pair_sublist_append hpair with hpair | ⟨-, hlast⟩ | hpair
  · exact h a b hpair ha hb
  · obtain rfl := List.mem_singleton.mp hlast
    exact absurd hb hc
  · have hlength := hpair.length_le
    simp at hlength

theorem Follows.append {order l l' : List β} (h : Follows order l) (h' : Follows order l')
    (hlate : ∀ a ∈ l, ∀ b ∈ l', ¬ [b, a].Sublist order) : Follows order (l ++ l') := by
  intro a b hpair ha hb
  rcases List.mem_append.mp ha with ha | ha
  · rcases List.mem_append.mp hb with hb | hb
    · exact (h a b hpair ha hb).trans (List.sublist_append_left l l')
    · exact (List.singleton_sublist.mpr ha).append (List.singleton_sublist.mpr hb)
  · rcases List.mem_append.mp hb with hb | hb
    · exact absurd hpair (hlate b hb a ha)
    · exact (h' a b hpair ha hb).trans (List.sublist_append_right l l')

theorem Follows.left {order l l' : List β} (h : Follows order (l ++ l'))
    (hnodup : (l ++ l').Nodup) : Follows order l := by
  intro a b hpair ha hb
  have hdisjoint := List.disjoint_of_nodup_append hnodup
  rcases pair_sublist_append (h a b hpair (by simp [ha]) (by simp [hb])) with hleft | ⟨-, hb'⟩ | hr
  · exact hleft
  · exact absurd hb' (hdisjoint hb)
  · exact absurd (hr.subset (by simp)) (hdisjoint ha)

end Transition

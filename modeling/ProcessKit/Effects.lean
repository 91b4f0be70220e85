import Mathlib.Data.List.Basic

/-!
# Programs that ask and raise

A program asks for operations, one after the other, and goes on with the answers. It ends
with a value or raises. Who answers is left open: `Runs` is what a program can do, whatever
the answers are, as the list of what it asked with what it was answered.

`tryCatch` and `tryFinally` are the statements of the same name: a clause of the first may
not match, and what the last part of the second raises replaces whatever was on the way.
-/

namespace Effects

abbrev Event {ι : Type} (ο : ι → Type) := (op : ι) × ο op

inductive Prog {ι : Type} (ο : ι → Type) (ε α : Type)
  | ret (value : α)
  | raise (exc : ε)
  | ask (op : ι) (next : ο op → Prog ο ε α)

variable {ι : Type} {ο : ι → Type} {ε ε' α β : Type}

namespace Prog

def bind : Prog ο ε α → (α → Prog ο ε β) → Prog ο ε β
  | .ret value, f => f value
  | .raise exc, _ => .raise exc
  | .ask op next, f => .ask op fun answer => (next answer).bind f

instance : Monad (Prog ο ε) where
  pure := .ret
  bind := .bind

def perform (op : ι) : Prog ο ε (ο op) := .ask op .ret

def liftExcept : Except ε α → Prog ο ε α
  | .ok value => .ret value
  | .error exc => .raise exc

def call (op : ι) (ended : ο op → Except ε α) : Prog ο ε α :=
  .ask op fun answer => .liftExcept (ended answer)

/-- `handler` is the clauses of an `except`: `none` when no clause matches. -/
def tryCatch : Prog ο ε α → (ε → Option (Prog ο ε α)) → Prog ο ε α
  | .ret value, _ => .ret value
  | .raise exc, handler => (handler exc).getD (.raise exc)
  | .ask op next, handler => .ask op fun answer => (next answer).tryCatch handler

def tryFinally : Prog ο ε α → Prog ο ε Unit → Prog ο ε α
  | .ret value, last => last.bind fun _ => .ret value
  | .raise exc, last => last.bind fun _ => .raise exc
  | .ask op next, last => .ask op fun answer => (next answer).tryFinally last

end Prog

inductive Runs : Prog ο ε α → List (Event ο) → Except ε α → Prop
  | ret {value : α} : Runs (.ret value) [] (.ok value)
  | raise {exc : ε} : Runs (.raise exc) [] (.error exc)
  | ask {op : ι} {next : ο op → Prog ο ε α} {answer : ο op} {trace : List (Event ο)}
      {result : Except ε α} : Runs (next answer) trace result →
      Runs (.ask op next) (⟨op, answer⟩ :: trace) result

variable {value : α} {trace : List (Event ο)} {result : Except ε α}

@[simp] theorem runs_ret :
    Runs (.ret value : Prog ο ε α) trace result ↔ trace = [] ∧ result = .ok value := by
  constructor
  · rintro ⟨⟩
    exact ⟨rfl, rfl⟩
  · rintro ⟨rfl, rfl⟩
    exact .ret

@[simp] theorem runs_raise {exc : ε} :
    Runs (.raise exc : Prog ο ε α) trace result ↔ trace = [] ∧ result = .error exc := by
  constructor
  · rintro ⟨⟩
    exact ⟨rfl, rfl⟩
  · rintro ⟨rfl, rfl⟩
    exact .raise

theorem runs_ask {op : ι} {next : ο op → Prog ο ε α} :
    Runs (.ask op next) trace result ↔
      ∃ answer rest, trace = ⟨op, answer⟩ :: rest ∧ Runs (next answer) rest result := by
  constructor
  · rintro ⟨⟩
    exact ⟨_, _, rfl, ‹_›⟩
  · rintro ⟨answer, rest, rfl, hrest⟩
    exact .ask hrest

theorem runs_perform {op : ι} {result : Except ε (ο op)} :
    Runs (Prog.perform op : Prog ο ε (ο op)) trace result ↔
      ∃ answer, trace = [⟨op, answer⟩] ∧ result = .ok answer := by
  rw [Prog.perform, runs_ask]
  constructor
  · rintro ⟨answer, rest, rfl, hrest⟩
    obtain ⟨rfl, rfl⟩ := runs_ret.mp hrest
    exact ⟨answer, rfl, rfl⟩
  · rintro ⟨answer, rfl, rfl⟩
    exact ⟨answer, [], rfl, .ret⟩

@[simp] theorem runs_liftExcept {ended : Except ε α} :
    Runs (Prog.liftExcept ended : Prog ο ε α) trace result ↔ trace = [] ∧ result = ended := by
  cases ended with
  | ok value => exact runs_ret
  | error exc => exact runs_raise

theorem runs_call {op : ι} {ended : ο op → Except ε α} :
    Runs (Prog.call op ended) trace result ↔
      ∃ answer, trace = [⟨op, answer⟩] ∧ result = ended answer := by
  rw [Prog.call, runs_ask]
  constructor
  · rintro ⟨answer, rest, rfl, hrest⟩
    obtain ⟨rfl, rfl⟩ := runs_liftExcept.mp hrest
    exact ⟨answer, rfl, rfl⟩
  · rintro ⟨answer, rfl, rfl⟩
    exact ⟨answer, [], rfl, runs_liftExcept.mpr ⟨rfl, rfl⟩⟩

-- ---------------------------------------------------------------------------
-- The statements
-- ---------------------------------------------------------------------------

/-- The first part raises, or the second goes on with what the first ended with. -/
theorem runs_bind {p : Prog ο ε α} {f : α → Prog ο ε β} {result : Except ε β} :
    Runs (p.bind f) trace result ↔
      (∃ exc, Runs p trace (.error exc) ∧ result = .error exc) ∨
        ∃ value first rest, Runs p first (.ok value) ∧ Runs (f value) rest result ∧
          trace = first ++ rest := by
  induction p generalizing trace with
  | ret value => simp [Prog.bind]
  | raise exc =>
    simp only [Prog.bind, runs_raise, Except.error.injEq, reduceCtorEq, and_false, false_and,
      exists_const]
    grind
  | ask op next ih =>
    simp only [Prog.bind, runs_ask, ih]
    constructor
    · rintro ⟨answer, rest, rfl, ⟨exc, hraise, rfl⟩ | ⟨value, first, more, hfirst, hmore, rfl⟩⟩
      · exact .inl ⟨exc, ⟨answer, rest, rfl, hraise⟩, rfl⟩
      · exact .inr ⟨value, _, more, ⟨answer, first, rfl, hfirst⟩, hmore, rfl⟩
    · rintro (⟨exc, ⟨answer, rest, rfl, hraise⟩, rfl⟩ |
        ⟨value, _, more, ⟨answer, first, rfl, hfirst⟩, hmore, rfl⟩)
      · exact ⟨answer, rest, rfl, .inl ⟨exc, hraise, rfl⟩⟩
      · exact ⟨answer, _, rfl, .inr ⟨value, first, more, hfirst, hmore, rfl⟩⟩

/-- The body ends as it does and no clause matches, or a clause takes over. -/
theorem runs_tryCatch {p : Prog ο ε α} {handler : ε → Option (Prog ο ε α)} :
    Runs (p.tryCatch handler) trace result ↔
      (Runs p trace result ∧ ∀ exc, result = .error exc → handler exc = none) ∨
        ∃ exc clause first rest, Runs p first (.error exc) ∧ handler exc = some clause ∧
          Runs clause rest result ∧ trace = first ++ rest := by
  induction p generalizing trace with
  | ret value =>
    simp only [Prog.tryCatch, runs_ret, reduceCtorEq, and_false, false_and, exists_const]
    grind
  | raise exc =>
    simp only [Prog.tryCatch, runs_raise, Except.error.injEq]
    cases hclause : handler exc with
    | none =>
      simp only [Option.getD_none, runs_raise]
      grind
    | some clause =>
      simp only [Option.getD_some]
      grind
  | ask op next ih =>
    simp only [Prog.tryCatch, runs_ask, ih]
    constructor
    · rintro ⟨answer, rest, rfl,
        ⟨hrest, hnone⟩ | ⟨exc, clause, first, more, h, hclause, hmore, rfl⟩⟩
      · exact .inl ⟨⟨answer, rest, rfl, hrest⟩, hnone⟩
      · exact .inr ⟨exc, clause, _, more, ⟨answer, first, rfl, h⟩, hclause, hmore, rfl⟩
    · rintro (⟨⟨answer, rest, rfl, hrest⟩, hnone⟩ |
        ⟨exc, clause, _, more, ⟨answer, first, rfl, h⟩, hclause, hmore, rfl⟩)
      · exact ⟨answer, rest, rfl, .inl ⟨hrest, hnone⟩⟩
      · exact ⟨answer, _, rfl, .inr ⟨exc, clause, first, more, h, hclause, hmore, rfl⟩⟩

/-- However the body ends, the last part comes after it; what that raises is what is raised. -/
theorem runs_tryFinally {p : Prog ο ε α} {last : Prog ο ε Unit} :
    Runs (p.tryFinally last) trace result ↔
      ∃ ended first rest, Runs p first ended ∧ trace = first ++ rest ∧
        ((∃ exc, Runs last rest (.error exc) ∧ result = .error exc) ∨
          Runs last rest (.ok ()) ∧ result = ended) := by
  induction p generalizing trace with
  | ret value =>
    simp only [Prog.tryFinally, runs_bind, runs_ret]
    constructor
    · rintro (⟨exc, hraise, rfl⟩ | ⟨⟨⟩, first, rest, hlast, ⟨rfl, rfl⟩, rfl⟩)
      · exact ⟨.ok value, [], trace, ⟨rfl, rfl⟩, rfl, .inl ⟨exc, hraise, rfl⟩⟩
      · exact ⟨.ok value, [], first, ⟨rfl, rfl⟩, by simp, .inr ⟨hlast, rfl⟩⟩
    · rintro ⟨_, _, rest, ⟨rfl, rfl⟩, rfl, ⟨exc, hraise, rfl⟩ | ⟨hlast, rfl⟩⟩
      · exact .inl ⟨exc, hraise, rfl⟩
      · exact .inr ⟨(), _, [], hlast, ⟨rfl, rfl⟩, (List.append_nil _).symm⟩
  | raise exc =>
    simp only [Prog.tryFinally, runs_bind, runs_raise]
    constructor
    · rintro (⟨exc', hraise, rfl⟩ | ⟨⟨⟩, first, rest, hlast, ⟨rfl, rfl⟩, rfl⟩)
      · exact ⟨.error exc, [], trace, ⟨rfl, rfl⟩, rfl, .inl ⟨exc', hraise, rfl⟩⟩
      · exact ⟨.error exc, [], first, ⟨rfl, rfl⟩, by simp, .inr ⟨hlast, rfl⟩⟩
    · rintro ⟨_, _, rest, ⟨rfl, rfl⟩, rfl, ⟨exc', hraise, rfl⟩ | ⟨hlast, rfl⟩⟩
      · exact .inl ⟨exc', hraise, rfl⟩
      · exact .inr ⟨(), _, [], hlast, ⟨rfl, rfl⟩, (List.append_nil _).symm⟩
  | ask op next ih =>
    simp only [Prog.tryFinally, runs_ask, ih]
    constructor
    · rintro ⟨answer, rest, rfl, ended, first, more, hfirst, rfl, hlast⟩
      exact ⟨ended, _, more, ⟨answer, first, rfl, hfirst⟩, rfl, hlast⟩
    · rintro ⟨ended, _, more, ⟨answer, first, rfl, hfirst⟩, rfl, hlast⟩
      exact ⟨answer, _, rfl, ended, first, more, hfirst, rfl, hlast⟩

-- ---------------------------------------------------------------------------
-- Programs under a watch
-- ---------------------------------------------------------------------------

/-- What is to hold at the end: one condition on a value, another on what was raised. -/
def Post {σ : Type} (Q : σ → α → Prop) (E : σ → ε → Prop) (s : σ) : Except ε α → Prop
  | .ok value => Q s value
  | .error exc => E s exc

/-- A watch reads the events one by one and has a state; `none` is that it objects. From `s`
on it objects to no run of the program, and at the end `Q` or `E` holds. -/
def Triple {σ : Type} (watch : σ → Event ο → Option σ) (s : σ) (p : Prog ο ε α)
    (Q : σ → α → Prop) (E : σ → ε → Prop) : Prop :=
  ∀ trace result, Runs p trace result →
    ∃ s', trace.foldlM watch s = some s' ∧ Post Q E s' result

namespace Triple

variable {σ : Type} {watch : σ → Event ο → Option σ} {s : σ} {p : Prog ο ε α}
  {Q Q' : σ → α → Prop} {E E' : σ → ε → Prop}

theorem ret (h : Q s value) : Triple watch s (.ret value) Q E := by
  intro trace result hruns
  obtain ⟨rfl, rfl⟩ := runs_ret.mp hruns
  exact ⟨s, rfl, h⟩

theorem raise {exc : ε} (h : E s exc) : Triple watch s (.raise exc) Q E := by
  intro trace result hruns
  obtain ⟨rfl, rfl⟩ := runs_raise.mp hruns
  exact ⟨s, rfl, h⟩

theorem perform {op : ι} {Q : σ → ο op → Prop}
    (h : ∀ answer, ∃ s', watch s ⟨op, answer⟩ = some s' ∧ Q s' answer) :
    Triple watch s (Prog.perform op) Q E := by
  intro trace result hruns
  obtain ⟨answer, rfl, rfl⟩ := runs_perform.mp hruns
  obtain ⟨s', hwatch, hpost⟩ := h answer
  exact ⟨s', by simp [hwatch], hpost⟩

theorem call {op : ι} {ended : ο op → Except ε α}
    (h : ∀ answer, ∃ s', watch s ⟨op, answer⟩ = some s' ∧ Post Q E s' (ended answer)) :
    Triple watch s (.call op ended) Q E := by
  intro trace result hruns
  obtain ⟨answer, rfl, rfl⟩ := runs_call.mp hruns
  obtain ⟨s', hwatch, hpost⟩ := h answer
  exact ⟨s', by simp [hwatch], hpost⟩

theorem mono (h : Triple watch s p Q E) (hQ : ∀ s value, Q s value → Q' s value)
    (hE : ∀ s exc, E s exc → E' s exc) : Triple watch s p Q' E' := by
  intro trace result hruns
  obtain ⟨s', hfold, hpost⟩ := h trace result hruns
  refine ⟨s', hfold, ?_⟩
  cases result with
  | ok value => exact hQ s' value hpost
  | error exc => exact hE s' exc hpost

theorem bind {f : α → Prog ο ε β} {R : σ → α → Prop} {Q : σ → β → Prop}
    (h : Triple watch s p R E) (hf : ∀ s value, R s value → Triple watch s (f value) Q E) :
    Triple watch s (p.bind f) Q E := by
  intro trace result hruns
  rcases runs_bind.mp hruns with ⟨exc, hraise, rfl⟩ | ⟨value, first, rest, hfirst, hrest, rfl⟩
  · exact h trace _ hraise
  · obtain ⟨mid, hmid, hR⟩ := h first _ hfirst
    obtain ⟨s', hfold, hpost⟩ := hf mid value hR rest result hrest
    exact ⟨s', by simp [hmid, hfold], hpost⟩

theorem tryCatch {handler : ε → Option (Prog ο ε α)} {R : σ → ε → Prop}
    (h : Triple watch s p Q R) (hnone : ∀ s exc, R s exc → handler exc = none → E s exc)
    (hsome : ∀ s exc clause, R s exc → handler exc = some clause → Triple watch s clause Q E) :
    Triple watch s (p.tryCatch handler) Q E := by
  intro trace result hruns
  rcases runs_tryCatch.mp hruns with
    ⟨hbody, hclauses⟩ | ⟨exc, clause, first, rest, hfirst, hclause, hrest, rfl⟩
  · obtain ⟨s', hfold, hpost⟩ := h trace result hbody
    refine ⟨s', hfold, ?_⟩
    cases result with
    | ok value => exact hpost
    | error exc => exact hnone s' exc hpost (hclauses exc rfl)
  · obtain ⟨mid, hmid, hR⟩ := h first _ hfirst
    obtain ⟨s', hfold, hpost⟩ := hsome mid exc clause hR hclause rest result hrest
    exact ⟨s', by simp [hmid, hfold], hpost⟩

theorem tryFinally {last : Prog ο ε Unit} {R : σ → α → Prop} {F : σ → ε → Prop}
    (h : Triple watch s p R F)
    (hok : ∀ s value, R s value → Triple watch s last (fun s _ => Q s value) E)
    (herror : ∀ s exc, F s exc → Triple watch s last (fun s _ => E s exc) E) :
    Triple watch s (p.tryFinally last) Q E := by
  intro trace result hruns
  obtain ⟨ended, first, rest, hfirst, rfl, hlast⟩ := runs_tryFinally.mp hruns
  obtain ⟨mid, hmid, hR⟩ := h first ended hfirst
  have hbody : Triple watch mid last (fun s _ => Post Q E s ended) E := by
    cases ended with
    | ok value => exact hok mid value hR
    | error exc => exact herror mid exc hR
  rcases hlast with ⟨exc, hrest, rfl⟩ | ⟨hrest, rfl⟩
  · obtain ⟨s', hfold, hpost⟩ := hbody rest _ hrest
    exact ⟨s', by simp [hmid, hfold], hpost⟩
  · obtain ⟨s', hfold, hpost⟩ := hbody rest _ hrest
    exact ⟨s', by simp [hmid, hfold], hpost⟩

end Triple

end Effects

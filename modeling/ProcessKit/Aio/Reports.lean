import ProcessKit.Aio.Retry
import Mathlib.Algebra.Order.Archimedean.Basic
import Mathlib.Data.List.Induction
import Mathlib.Data.Rat.Floor
import Mathlib.Tactic.Linarith
import Mathlib.Tactic.NormNum

/-!
# What the readiness driver reports

A run is judged by its log: what every attempt came to by its window, and what
`evaluate` said of its result. The driver reports what the log says, but for an
attempt that ends in an exception of its own in the tick in which its window closes:
`wait_for` raises its `TimeoutError`, and the driver takes that for the attempt's.
-/

namespace ProcessKit.Aio

open Transition (Justified)

variable {ε ρ : Type} {cfg : Retry ε ρ} {start : ℚ}

-- ---------------------------------------------------------------------------
-- Reading a log
-- ---------------------------------------------------------------------------

def Fate.result : Fate ε ρ → Option ρ
  | .finished (.ok value) | .raced (.ok value) => some value
  | .finished (.error _) | .raced (.error _) | .expired => none

def Fate.failure (cfg : Retry ε ρ) : Fate ε ρ → Option ε
  | .finished (.error error) | .raced (.error error) => some error
  | .finished (.ok _) | .raced (.ok _) => none
  | .expired => some cfg.timeoutError

/-- The outcome that an event is to lead to at once. -/
def Event.decides (cfg : Retry ε ρ) : Event ε ρ → Option (Outcome ε)
  | .seen fate => (fate.failure cfg).bind fun e => if cfg.retries e then none else some (.raised e)
  | .judged .accepts => some .returned
  | .judged (.raises error) => some (.raised error)
  | .cancelled => some .cancelled
  | .judged (.rejects _) | .started .. => none

def Event.retried (cfg : Retry ε ρ) : Event ε ρ → Option ε
  | .seen fate => (fate.failure cfg).bind fun e => if cfg.retries e then some e else none
  | .judged (.rejects error) => some error
  | .judged .accepts | .judged (.raises _) | .cancelled | .started .. => none

/-- The log ends with the failure or rejection of an attempt. -/
def Failing (cfg : Retry ε ρ) (log : List (Event ε ρ)) (error : ε) : Prop :=
  ∃ before ev, log = before ++ [ev] ∧ ev.retried cfg = some error

/-- The log ends with an attempt's result, within its window. -/
def Answered (log : List (Event ε ρ)) (value : ρ) : Prop :=
  ∃ before fate, log = before ++ [.seen fate] ∧ fate.result = some value

def Event.isStarted : Event ε ρ → Bool
  | .started .. => true
  | .seen _ | .judged _ | .cancelled => false

def starts (log : List (Event ε ρ)) : Nat := log.countP Event.isStarted

-- ---------------------------------------------------------------------------
-- The steps
-- ---------------------------------------------------------------------------

/-- An attempt ends in an exception of its own in the tick in which its window
closes, or has `None` for its result. -/
def Masked (cfg : Retry ε ρ) (a : Action ε ρ) : Prop :=
  ∃ elapsed fate, a = .wake elapsed fate ∧
    ((∃ error, fate = .raced (.error error) ∧ error ≠ cfg.timeoutError) ∨
      ∃ value, fate.result = some value ∧ cfg.isNone value = true)

def Phase.Emits : Phase ε ρ → Event ε ρ → Prop
  | .waiting _, .seen _ | .evaluating _, .judged _ => True
  | .waiting _, .cancelled | .evaluating _, .cancelled | .sleeping _, .cancelled => True
  | _, _ => False

inductive Driver.Step (cfg : Retry ε ρ) (d : Driver ε ρ) : Driver ε ρ → List (Event ε ρ) → Prop
  | expire : d.phase = .top false → d.deadline ≤ d.now →
      Step cfg d { d with phase := .ended (.waitTimeout d.lastExc) } []
  | start : d.phase = .top first → (first = false → (d.now : Seconds) < d.deadline) →
      Step cfg d { d with phase := .waiting (cfg.window (d.deadline.since d.now) first) }
        [.started d.now (cfg.window (d.deadline.since d.now) first)]
  | answered : d.phase = .waiting window → 0 ≤ elapsed → fate.result = some value →
      Step cfg d { d.pass elapsed with phase := .evaluating value } [.seen fate]
  | decided : d.phase.Emits ev → 0 ≤ elapsed → ev.decides cfg = some outcome →
      Step cfg d { d.pass elapsed with phase := .ended outcome } [ev]
  | retried : d.phase.Emits ev → 0 ≤ elapsed → ev.retried cfg = some error →
      Step cfg d ({ d.pass elapsed with lastExc := some error }.afterAttempt cfg) [ev]
  | slept {elapsed : ℚ} : d.phase = .sleeping delay → 0 ≤ elapsed → delay ≤ (elapsed : Seconds) →
      Step cfg d { d.pass elapsed with phase := .top false } []

namespace Driver

theorem Step.of_attempt (cfg : Retry ε ρ) {d : Driver ε ρ} (hphase : d.phase = .top first) :
    Step cfg d (d.attempt cfg first).1 (d.attempt cfg first).2 := by
  by_cases hover : first = false ∧ d.deadline.since d.now ≤ 0
  · simp only [attempt, if_pos hover]
    obtain ⟨rfl, hover⟩ := hover
    exact .expire hphase ((Seconds.since_le_zero _ _).mp hover)
  · simp only [attempt, if_neg hover]
    refine .start hphase fun hfirst => ?_
    rw [← not_le, ← Seconds.since_le_zero]
    exact fun hpast => hover ⟨hfirst, hpast⟩

theorem afterWait_raised (cfg : Retry ε ρ) (error : ε) {task : Task ε ρ}
    (htask : ∀ value, task ≠ .result value) :
    cfg.afterWait task (.raised error) =
      if cfg.retries error then .again error (settleProbe task) else .raised error := by
  cases task with
  | result value => exact absurd rfl (htask value)
  | running | cancelled | exception => simp [Retry.afterWait]

theorem Step.of_failure {d : Driver ε ρ} {fate : Fate ε ρ} (hphase : d.phase = .waiting window)
    (helapsed : 0 ≤ elapsed) (hfailure : fate.failure cfg = some error)
    (htask : ∀ value, fate.task ≠ .result value) :
    Step cfg d ((d.pass elapsed).waited cfg fate.task (.raised error)) [.seen fate] := by
  have hemits : d.phase.Emits (.seen fate) := by rw [hphase]; trivial
  rw [waited, afterWait_raised cfg error htask]
  by_cases hretry : cfg.retries error = true
  · rw [if_pos hretry]
    exact .retried hemits helapsed (by simp [Event.retried, hfailure, hretry])
  · rw [if_neg hretry]
    exact .decided hemits helapsed (by simp [Event.decides, hfailure, hretry])

theorem Step.of_wake {d : Driver ε ρ} (hphase : d.phase = .waiting window) (helapsed : 0 ≤ elapsed)
    (hmask : ¬ Masked cfg (.wake elapsed fate : Action ε ρ)) :
    Step cfg d ((d.pass elapsed).waited cfg fate.task (fate.waited cfg)) [.seen fate] := by
  have hsome : ∀ value, fate.result = some value → cfg.resolved value = .evaluate value := by
    intro value hresult
    refine if_neg fun hnone => hmask ⟨elapsed, fate, rfl, .inr ⟨value, hresult, hnone⟩⟩
  cases fate with
  | finished outcome =>
    cases outcome with
    | ok value =>
      have hresult : cfg.afterWait (.result value) (.returned value) = .evaluate value :=
        hsome value rfl
      simp only [Fate.task, Fate.waited, Task.ended, Waited.own, waited, hresult]
      exact .answered hphase helapsed rfl
    | error error => exact .of_failure hphase helapsed rfl nofun
  | raced outcome =>
    cases outcome with
    | ok value =>
      have hresult :
          cfg.afterWait (.result value) (.raised cfg.timeoutError) = .evaluate value := by
        simp [Retry.afterWait, cfg.retries_timeoutError, cfg.isTimeout_timeoutError,
          hsome value rfl]
      simp only [Fate.task, Fate.waited, Task.ended, waited, hresult]
      exact .answered hphase helapsed rfl
    | error error =>
      obtain rfl : error = cfg.timeoutError := by
        by_contra hne
        exact hmask ⟨elapsed, _, rfl, .inl ⟨error, rfl, hne⟩⟩
      exact .of_failure hphase helapsed rfl nofun
  | expired => exact .of_failure hphase helapsed rfl nofun

theorem Step.of_judge {d : Driver ε ρ} (hphase : d.phase = .evaluating value)
    (helapsed : 0 ≤ elapsed) (verdict : Verdict ε) :
    Step cfg d ((d.pass elapsed).judged cfg verdict) [.judged verdict] := by
  have hemits : d.phase.Emits (.judged verdict) := by rw [hphase]; trivial
  cases verdict with
  | accepts => exact .decided hemits helapsed rfl
  | rejects error => exact .retried hemits helapsed rfl
  | raises error => exact .decided hemits helapsed rfl

theorem Step.of_step {d : Driver ε ρ} (hmask : ¬ Masked cfg a)
    (h : d.step cfg a = some (d', evs)) : Step cfg d d' evs := by
  cases a with
  | turn =>
    simp only [Driver.step] at h
    split at h
    · rename_i first hphase
      simpa only [Option.some.inj h] using Step.of_attempt cfg hphase
    · cases h
  | wake elapsed fate =>
    simp only [Driver.step] at h
    split at h
    · rename_i window hphase
      obtain ⟨⟨helapsed, -⟩, hnext⟩ := Option.ite_none_right_eq_some.mp h
      cases hnext
      exact .of_wake hphase helapsed hmask
    · cases h
  | judge elapsed verdict =>
    simp only [Driver.step] at h
    split at h
    · rename_i value hphase
      obtain ⟨helapsed, hnext⟩ := Option.ite_none_right_eq_some.mp h
      cases hnext
      exact .of_judge hphase helapsed verdict
    · cases h
  | slept elapsed =>
    simp only [Driver.step] at h
    split at h
    · rename_i delay hphase
      obtain ⟨⟨helapsed, hdue⟩, hnext⟩ := Option.ite_none_right_eq_some.mp h
      cases hnext
      exact .slept hphase helapsed hdue
    · cases h
  | cancel elapsed task =>
    simp only [Driver.step] at h
    split at h
    · rename_i window hphase
      obtain ⟨helapsed, hnext⟩ := Option.ite_none_right_eq_some.mp h
      cases hnext
      exact .decided (by rw [hphase]; trivial) helapsed rfl
    · rename_i value hphase
      obtain ⟨helapsed, hnext⟩ := Option.ite_none_right_eq_some.mp h
      cases hnext
      exact .decided (by rw [hphase]; trivial) helapsed rfl
    · rename_i delay hphase
      obtain ⟨helapsed, hnext⟩ := Option.ite_none_right_eq_some.mp h
      cases hnext
      exact .decided (by rw [hphase]; trivial) helapsed rfl
    · cases h

end Driver

-- ---------------------------------------------------------------------------
-- A whole run
-- ---------------------------------------------------------------------------

structure Sound (cfg : Retry ε ρ) (start : ℚ) (before : List (Event ε ρ)) (ev : Event ε ρ) :
    Prop where
  /-- The run begins with an attempt, of at least the short window. -/
  first : before = [] →
    ev = .started start (max cfg.timeout (min cfg.interval zeroTimeoutConnectTick))
  /-- A later attempt starts before the deadline, its window ends there, and the
  attempts are an interval apart. -/
  later : before ≠ [] → ∀ time window, ev = .started time window →
    (time : Seconds) < start + cfg.timeout ∧ (time : Seconds) + window = start + cfg.timeout ∧
      ∀ i : ℚ, 0 ≤ i → (i : Seconds) ≤ cfg.interval → starts before * i ≤ time - start
  /-- An attempt that was started is what comes to its end. -/
  seen : ∀ fate, ev = .seen fate → ∃ earlier time window, before = earlier ++ [.started time window]
  /-- Only a result that came within its window is evaluated. -/
  judged : ∀ verdict, ev = .judged verdict → ∃ value, Answered before value
  /-- And every such result is, unless the caller cancels. -/
  asked : ∀ value, Answered before value → (∃ verdict, ev = .judged verdict) ∨ ev = .cancelled
  /-- Nothing follows what decides the run. -/
  last : ∀ e ∈ before, e.decides cfg = none

structure Tracked (cfg : Retry ε ρ) (start : ℚ) (d : Driver ε ρ) (log : List (Event ε ρ)) :
    Prop where
  deadline : d.deadline = start + cfg.timeout
  decided : ∀ ev ∈ log, ∀ outcome, ev.decides cfg = some outcome → d.phase = .ended outcome
  ended : ∀ outcome, d.phase = .ended outcome → (∃ ev ∈ log, ev.decides cfg = some outcome) ∨
    d.deadline ≤ d.now ∧ ∃ error, Failing cfg log error ∧ outcome = .waitTimeout (some error)
  fresh : d.phase = .top true ∧ log = [] ∧ d.now = start ∨ d.phase ≠ .top true ∧ log ≠ []
  answered : ∀ value, Answered log value ↔ d.phase = .evaluating value
  waiting : ∀ window, d.phase = .waiting window →
    ∃ before time, log = before ++ [.started time window]
  failing : (d.phase = .top false ∨ ∃ delay, d.phase = .sleeping delay) →
    ∃ error, Failing cfg log error ∧ d.lastExc = some error
  sound : Justified (Sound cfg start) log
  spaced : ∀ i : ℚ, 0 ≤ i → (i : Seconds) ≤ cfg.interval → starts log * i ≤ d.now - start + i
  rested : d.phase = .top false → d.deadline ≤ d.now ∨
    ∀ i : ℚ, 0 ≤ i → (i : Seconds) ≤ cfg.interval → starts log * i ≤ d.now - start
  slept : ∀ delay, d.phase = .sleeping delay → delay = min cfg.interval (d.deadline.since d.now)

theorem starts_append (log : List (Event ε ρ)) (h : ev.isStarted = false) :
    starts (log ++ [ev]) = starts log := by
  simp [starts, h]

theorem answered_append (log : List (Event ε ρ)) (ev : Event ε ρ) (value : ρ) :
    Answered (log ++ [ev]) value ↔ ∃ fate, ev = .seen fate ∧ fate.result = some value := by
  constructor
  · rintro ⟨before, fate, heq, hresult⟩
    obtain ⟨-, rfl⟩ := List.append_inj' heq rfl |>.imp_right List.singleton_inj.mp
    exact ⟨fate, rfl, hresult⟩
  · rintro ⟨fate, rfl, hresult⟩
    exact ⟨log, fate, rfl, hresult⟩

theorem Tracked.new (cfg : Retry ε ρ) (start : ℚ) :
    Tracked cfg start (Driver.new cfg start : Driver ε ρ) [] := by
  refine ⟨rfl, nofun, nofun, .inl ⟨rfl, rfl, rfl⟩, fun value => ⟨?_, nofun⟩, nofun, ?_, .nil, ?_,
    nofun, nofun⟩
  · rintro ⟨before, fate, heq, -⟩
    simp at heq
  · rintro (heq | ⟨delay, heq⟩) <;> cases heq
  · intro i hi _
    simpa [starts, Driver.new] using hi

theorem Tracked.undecided {d : Driver ε ρ} (h : Tracked cfg start d log)
    (hlive : ∀ outcome, d.phase ≠ .ended outcome) : ∀ ev ∈ log, ev.decides cfg = none := by
  intro ev hmem
  by_contra hne
  obtain ⟨outcome, hdecides⟩ := Option.ne_none_iff_exists'.mp hne
  exact hlive outcome (h.decided ev hmem outcome hdecides)

theorem Tracked.decides_append {d : Driver ε ρ} (h : Tracked cfg start d log)
    (hlive : ∀ outcome, d.phase ≠ .ended outcome) {P : Outcome ε → Prop}
    (hev : ∀ outcome, ev.decides cfg = some outcome → P outcome) :
    ∀ other ∈ log ++ [ev], ∀ outcome, other.decides cfg = some outcome → P outcome := by
  intro other hmem outcome hdecides
  rcases List.mem_append.mp hmem with hmem | hmem
  · rw [h.undecided hlive other hmem] at hdecides
    cases hdecides
  · obtain rfl := List.mem_singleton.mp hmem
    exact hev outcome hdecides

theorem Tracked.begun {d : Driver ε ρ} (h : Tracked cfg start d log)
    (hphase : d.phase ≠ .top true) :
    log ≠ [] := by
  rcases h.fresh with ⟨htop, -⟩ | ⟨-, hmore⟩
  · exact absurd htop hphase
  · exact hmore

theorem Phase.Emits.live {phase : Phase ε ρ} (h : phase.Emits ev) :
    (∀ outcome, phase ≠ .ended outcome) ∧ phase ≠ .top true ∧ phase ≠ .top false ∧
      ev.isStarted = false := by
  refine ⟨fun outcome heq => ?_, fun heq => ?_, fun heq => ?_, ?_⟩
  · subst heq
    cases h
  · subst heq
    cases h
  · subst heq
    cases h
  · cases ev with
    | started => cases phase <;> cases h
    | seen | judged | cancelled => rfl

theorem Phase.Emits.judged {phase : Phase ε ρ} (h : phase.Emits (.judged verdict)) :
    ∃ value, phase = .evaluating value := by
  cases phase with
  | evaluating value => exact ⟨value, rfl⟩
  | top | waiting | sleeping | ended => cases h

theorem Phase.Emits.waiting {phase : Phase ε ρ} (h : phase.Emits (.seen fate)) :
    ∃ window, phase = .waiting window := by
  cases phase with
  | waiting window => exact ⟨window, rfl⟩
  | top | evaluating | sleeping | ended => cases h

theorem Phase.Emits.evaluating {ev : Event ε ρ} (h : (Phase.evaluating value).Emits ev) :
    (∃ verdict, ev = .judged verdict) ∨ ev = .cancelled := by
  cases ev with
  | judged verdict => exact .inl ⟨verdict, rfl⟩
  | cancelled => exact .inr rfl
  | started | seen => cases h

theorem Tracked.emits {d : Driver ε ρ} (h : Tracked cfg start d log)
    (hemits : d.phase.Emits ev) : Justified (Sound cfg start) (log ++ [ev]) := by
  obtain ⟨hlive, htop, -, hstarted⟩ := hemits.live
  have hmore : log ≠ [] := h.begun htop
  refine h.sound.snoc ⟨fun hnil => absurd hnil hmore, fun _ => ?_, ?_, ?_, ?_, h.undecided hlive⟩
  · rintro time window rfl
    cases hstarted
  · rintro fate rfl
    obtain ⟨window, hwindow⟩ := hemits.waiting
    obtain ⟨earlier, time, heq⟩ := h.waiting window hwindow
    exact ⟨earlier, time, window, heq⟩
  · rintro verdict rfl
    obtain ⟨value, hvalue⟩ := hemits.judged
    exact ⟨value, (h.answered value).mpr hvalue⟩
  · intro value hanswered
    have hphase := (h.answered value).mp hanswered
    rw [hphase] at hemits
    exact hemits.evaluating

theorem Tracked.spaced_pass {d : Driver ε ρ} (h : Tracked cfg start d log)
    (hemits : d.phase.Emits ev) {elapsed : ℚ} (helapsed : 0 ≤ elapsed) :
    ∀ i : ℚ, 0 ≤ i → (i : Seconds) ≤ cfg.interval →
      starts (log ++ [ev]) * i ≤ (d.now + elapsed) - start + i := by
  intro i hi hle
  rw [starts_append log hemits.live.2.2.2]
  have := h.spaced i hi hle
  linarith

theorem Tracked.answer {d : Driver ε ρ} (h : Tracked cfg start d log)
    (hphase : d.phase = .waiting window) {elapsed : ℚ} (helapsed : 0 ≤ elapsed)
    (hresult : fate.result = some value) :
    Tracked cfg start { d.pass elapsed with phase := .evaluating value } (log ++ [.seen fate]) := by
  have hemits : d.phase.Emits (.seen fate) := by rw [hphase]; trivial
  have hfailure : fate.failure cfg = none := by
    unfold Fate.result at hresult
    split at hresult
    · rfl
    · rfl
    all_goals cases hresult
  refine ⟨h.deadline, h.decides_append hemits.live.1 ?_, nofun, .inr ⟨nofun, by simp⟩,
    fun other => ?_, nofun, ?_, h.emits hemits, h.spaced_pass hemits helapsed, nofun, nofun⟩
  · intro outcome hdecides
    simp [Event.decides, hfailure] at hdecides
  · rw [answered_append]
    constructor
    · rintro ⟨other', heq, hother⟩
      cases heq
      rw [hresult] at hother
      cases hother
      rfl
    · intro heq
      cases heq
      exact ⟨fate, rfl, hresult⟩
  · rintro (heq | ⟨delay, heq⟩) <;> cases heq

theorem Event.decides_only {ev : Event ε ρ} (h : ev.decides cfg = some outcome) :
    ev.retried cfg = none ∧ ∀ log value, ¬ Answered (log ++ [ev]) value := by
  refine ⟨?_, fun log value hanswered => ?_⟩
  · cases ev with
    | seen fate =>
      obtain ⟨e, hfailure, hretry⟩ := Option.bind_eq_some_iff.mp h
      split at hretry
      · cases hretry
      · rename_i hnot
        simp [Event.retried, hfailure, hnot]
    | judged verdict => cases verdict <;> first | rfl | cases h
    | started | cancelled => rfl
  · obtain ⟨fate, rfl, hresult⟩ := (answered_append log ev value).mp hanswered
    obtain ⟨e, hfailure, -⟩ := Option.bind_eq_some_iff.mp h
    unfold Fate.result at hresult
    split at hresult <;> cases hresult <;> cases hfailure

theorem Tracked.decide {d : Driver ε ρ} (h : Tracked cfg start d log)
    (hemits : d.phase.Emits ev) {elapsed : ℚ} (helapsed : 0 ≤ elapsed)
    (hdecides : ev.decides cfg = some outcome) :
    Tracked cfg start { d.pass elapsed with phase := .ended outcome } (log ++ [ev]) := by
  obtain ⟨-, hanswered⟩ := Event.decides_only hdecides
  refine ⟨h.deadline, h.decides_append hemits.live.1 ?_, ?_, .inr ⟨nofun, by simp⟩,
    fun value => ?_, nofun, ?_, h.emits hemits, h.spaced_pass hemits helapsed, nofun, nofun⟩
  · intro o ho
    rw [hdecides] at ho
    cases ho
    rfl
  · rintro o heq
    cases heq
    exact .inl ⟨ev, by simp, hdecides⟩
  · exact ⟨fun hvalue => absurd hvalue (hanswered log value), nofun⟩
  · rintro (heq | ⟨delay, heq⟩) <;> cases heq

theorem Event.retried_only {ev : Event ε ρ} (h : ev.retried cfg = some error) :
    ev.decides cfg = none ∧ ∀ log value, ¬ Answered (log ++ [ev]) value := by
  refine ⟨?_, fun log value hanswered => ?_⟩
  · cases hdecides : ev.decides cfg with
    | none => rfl
    | some outcome => simp [(Event.decides_only hdecides).1] at h
  · obtain ⟨fate, rfl, hresult⟩ := (answered_append log ev value).mp hanswered
    obtain ⟨e, hfailure, -⟩ := Option.bind_eq_some_iff.mp h
    unfold Fate.result at hresult
    split at hresult <;> cases hresult <;> cases hfailure

theorem Tracked.retry {d : Driver ε ρ} (h : Tracked cfg start d log)
    (hemits : d.phase.Emits ev) {elapsed : ℚ} (helapsed : 0 ≤ elapsed)
    (hretried : ev.retried cfg = some error) :
    Tracked cfg start ({ d.pass elapsed with lastExc := some error }.afterAttempt cfg)
      (log ++ [ev]) := by
  obtain ⟨hdecides, hanswered⟩ := Event.retried_only hretried
  have hfailing : Failing cfg (log ++ [ev]) error := ⟨log, ev, rfl, hretried⟩
  have hdecided : ∀ {phase : Phase ε ρ}, ∀ other ∈ log ++ [ev], ∀ outcome,
      other.decides cfg = some outcome → phase = .ended outcome := by
    refine h.decides_append hemits.live.1 fun outcome ho => ?_
    rw [hdecides] at ho
    cases ho
  by_cases hover : (d.pass elapsed).deadline.since (d.pass elapsed).now ≤ 0
  · simp only [Driver.afterAttempt, if_pos hover]
    refine ⟨h.deadline, hdecided, ?_, .inr ⟨nofun, by simp⟩, fun value => ?_, nofun, ?_,
      h.emits hemits, h.spaced_pass hemits helapsed, nofun, nofun⟩
    · rintro outcome heq
      cases heq
      exact .inr ⟨(Seconds.since_le_zero _ _).mp hover, error, hfailing, rfl⟩
    · exact ⟨fun hvalue => absurd hvalue (hanswered log value), nofun⟩
    · rintro (heq | ⟨delay, heq⟩) <;> cases heq
  · simp only [Driver.afterAttempt, if_neg hover]
    refine ⟨h.deadline, hdecided, nofun, .inr ⟨nofun, by simp⟩, fun value => ?_, nofun,
      fun _ => ⟨error, hfailing, rfl⟩, h.emits hemits, h.spaced_pass hemits helapsed, nofun, ?_⟩
    · exact ⟨fun hvalue => absurd hvalue (hanswered log value), nofun⟩
    · rintro delay heq
      cases heq
      rfl

theorem Tracked.sleep {d : Driver ε ρ} (h : Tracked cfg start d log)
    (hphase : d.phase = .sleeping delay) {elapsed : ℚ} (helapsed : 0 ≤ elapsed)
    (hdue : delay ≤ (elapsed : Seconds)) :
    Tracked cfg start { d.pass elapsed with phase := .top false } log := by
  have hlive : ∀ outcome, d.phase ≠ .ended outcome := by simp [hphase]
  have hmore : log ≠ [] := h.begun (by simp [hphase])
  refine ⟨h.deadline, ?_, nofun, .inr ⟨nofun, hmore⟩, fun value => ?_, nofun,
    fun _ => h.failing (.inr ⟨delay, hphase⟩), h.sound, ?_, ?_, nofun⟩
  · intro ev hmem outcome ho
    rw [h.undecided hlive ev hmem] at ho
    cases ho
  · rw [h.answered value, hphase]
    exact ⟨nofun, nofun⟩
  · intro i hi hle
    have := h.spaced i hi hle
    simp only [Driver.pass]
    linarith
  · intro _
    rw [h.slept delay hphase] at hdue
    rcases min_le_iff.mp hdue with hinterval | hremaining
    · refine .inr fun i hi hle => ?_
      have hshort : i ≤ elapsed := by exact_mod_cast hle.trans hinterval
      have := h.spaced i hi hle
      simp only [Driver.pass]
      linarith
    · exact .inl ((Seconds.since_le _ _ _).mp hremaining)

theorem Tracked.expire {d : Driver ε ρ} (h : Tracked cfg start d log)
    (hphase : d.phase = .top false) (hover : d.deadline ≤ d.now) :
    Tracked cfg start { d with phase := .ended (.waitTimeout d.lastExc) } log := by
  have hlive : ∀ outcome, d.phase ≠ .ended outcome := by simp [hphase]
  have hmore : log ≠ [] := h.begun (by simp [hphase])
  obtain ⟨error, hfailing, hlast⟩ := h.failing (.inl hphase)
  refine ⟨h.deadline, ?_, ?_, .inr ⟨nofun, hmore⟩, fun value => ?_, nofun, ?_, h.sound, h.spaced,
    nofun, nofun⟩
  · intro ev hmem outcome ho
    rw [h.undecided hlive ev hmem] at ho
    cases ho
  · rintro outcome heq
    cases heq
    exact .inr ⟨hover, error, hfailing, by rw [hlast]⟩
  · rw [h.answered value, hphase]
    exact ⟨nofun, nofun⟩
  · rintro (heq | ⟨delay, heq⟩) <;> cases heq

theorem Tracked.begin {d : Driver ε ρ} (h : Tracked cfg start d log)
    (hphase : d.phase = .top first) (hleft : first = false → (d.now : Seconds) < d.deadline) :
    Tracked cfg start { d with phase := .waiting (cfg.window (d.deadline.since d.now) first) }
      (log ++ [.started d.now (cfg.window (d.deadline.since d.now) first)]) := by
  have hlive : ∀ outcome, d.phase ≠ .ended outcome := by simp [hphase]
  have hrested :
      ∀ i : ℚ, 0 ≤ i → (i : Seconds) ≤ cfg.interval → starts log * i ≤ d.now - start := by
    intro i hi hle
    rcases h.fresh with ⟨-, rfl, hnow⟩ | ⟨htop, -⟩
    · simp [starts, hnow]
    · cases first with
      | true => exact absurd hphase htop
      | false =>
        rcases h.rested hphase with hover | hspaced
        · exact absurd hover (not_le.mpr (hleft rfl))
        · exact hspaced i hi hle
  have hnone : ∀ value, ¬ Answered log value := by
    intro value hanswered
    rw [h.answered value, hphase] at hanswered
    cases hanswered
  refine ⟨h.deadline, h.decides_append hlive nofun, nofun, .inr ⟨nofun, by simp⟩,
    fun value => ?_, ?_, ?_, h.sound.snoc ?_, ?_, nofun, nofun⟩
  · rw [answered_append]
    exact ⟨nofun, nofun⟩
  · rintro window heq
    cases heq
    exact ⟨log, d.now, rfl⟩
  · rintro (heq | ⟨delay, heq⟩) <;> cases heq
  · refine ⟨fun hnil => ?_, fun hmore time window heq => ?_, nofun, nofun,
      fun value hanswered => absurd hanswered (hnone value), h.undecided hlive⟩
    · rcases h.fresh with ⟨htop, -, hnow⟩ | ⟨-, hmore⟩
      · obtain rfl : first = true := by
          rw [hphase] at htop
          exact Phase.top.inj htop
        rw [h.deadline, hnow, Seconds.since_add]
        rfl
      · exact absurd hnil hmore
    · cases heq
      rcases h.fresh with ⟨-, hnil, -⟩ | ⟨htop, -⟩
      · exact absurd hnil hmore
      · cases first with
        | true => exact absurd hphase htop
        | false =>
          rw [← h.deadline]
          exact ⟨hleft rfl, Seconds.add_since _ _, hrested⟩
  · intro i hi hle
    have hcount : starts (log ++ [(.started d.now (cfg.window (d.deadline.since d.now) first) :
        Event ε ρ)]) = starts log + 1 := by
      simp [starts, Event.isStarted]
    have := hrested i hi hle
    rw [hcount]
    push_cast
    linarith

theorem Tracked.step {d : Driver ε ρ} (h : Tracked cfg start d log)
    (hstep : Driver.Step cfg d d' evs) : Tracked cfg start d' (log ++ evs) := by
  cases hstep with
  | expire hphase hover =>
    rw [List.append_nil]
    exact h.expire hphase hover
  | start hphase hleft => exact h.begin hphase hleft
  | answered hphase helapsed hresult => exact h.answer hphase helapsed hresult
  | decided hemits helapsed hdecides => exact h.decide hemits helapsed hdecides
  | retried hemits helapsed hretried => exact h.retry hemits helapsed hretried
  | slept hphase helapsed hdue =>
    rw [List.append_nil]
    exact h.sleep hphase helapsed hdue

-- ---------------------------------------------------------------------------
-- The report
-- ---------------------------------------------------------------------------

/-- Nothing comes any more but the caller's cancellation. -/
def Driver.Rests (cfg : Retry ε ρ) (d : Driver ε ρ) : Prop :=
  ∀ a d' evs, d.step cfg a = some (d', evs) → .cancelled ∈ evs

/-- A run of the driver, by its log. -/
structure Reports (cfg : Retry ε ρ) (start : ℚ) (d : Driver ε ρ) (log : List (Event ε ρ)) :
    Prop where
  /-- No run ends without an attempt. -/
  attempts : ∀ outcome, d.phase = .ended outcome → ∃ time window, .started time window ∈ log
  /-- Each event is as the events before it ask. -/
  sound : Justified (Sound cfg start) log
  /-- An accepted result, an exception that is not retried and a cancellation end the
  run, and as what they are. -/
  decided : ∀ ev ∈ log, ∀ outcome, ev.decides cfg = some outcome → d.phase = .ended outcome
  /-- Only these end it, and else the deadline, after a last attempt that failed. -/
  ended : ∀ outcome, d.phase = .ended outcome → (∃ ev ∈ log, ev.decides cfg = some outcome) ∨
    (start : Seconds) + cfg.timeout ≤ d.now ∧
      ∃ error, Failing cfg log error ∧ outcome = .waitTimeout (some error)
  /-- And the deadline does: the attempts are finitely many. -/
  bounded : ∀ i timeout : ℚ, 0 < i → (i : Seconds) ≤ cfg.interval → cfg.timeout = timeout →
    starts log ≤ 1 ∨ (starts log - 1 : ℚ) * i < timeout
  /-- A driver that has nothing left to do has ended. -/
  ends : cfg.timeout ≠ ⊤ → d.Rests cfg → ∃ outcome, d.phase = .ended outcome

theorem starts_last (log : List (Event ε ρ)) (h : 0 < starts log) :
    ∃ before time window after, log = before ++ .started time window :: after ∧
      starts log = starts before + 1 := by
  induction log using List.reverseRecOn with
  | nil => simp [starts] at h
  | append_singleton log ev ih =>
    cases hev : ev.isStarted with
    | true =>
      cases ev with
      | started time window => exact ⟨log, time, window, [], rfl, by simp [starts, Event.isStarted]⟩
      | seen | judged | cancelled => cases hev
    | false =>
      rw [starts_append log hev] at h ⊢
      obtain ⟨before, time, window, after, rfl, hcount⟩ := ih h
      exact ⟨before, time, window, after ++ [ev], by simp, hcount⟩

theorem starts_bounded (hsound : Justified (Sound cfg start) log) {i timeout : ℚ} (hi : 0 < i)
    (hle : (i : Seconds) ≤ cfg.interval) (htimeout : cfg.timeout = timeout) :
    starts log ≤ 1 ∨ (starts log - 1 : ℚ) * i < timeout := by
  by_cases hone : starts log ≤ 1
  · exact .inl hone
  · obtain ⟨before, time, window, after, heq, hcount⟩ := starts_last log (by omega)
    have hmore : before ≠ [] := by
      rintro rfl
      rw [hcount] at hone
      exact hone (Nat.le_refl 1)
    obtain ⟨hbefore, -, hspaced⟩ := (hsound _ _ _ heq).later hmore time window rfl
    have hspaced := hspaced i hi.le hle
    have hlt : time < start + timeout := by
      rw [htimeout] at hbefore
      exact_mod_cast hbefore
    refine .inr ?_
    rw [hcount]
    push_cast
    linarith

/-- What a driver that has not ended waits for, other than its caller. -/
inductive Goes (d : Driver ε ρ) : Prop
  | turn : d.phase = .top first → Goes d
  | wake {elapsed : ℚ} : d.phase = .waiting window → 0 ≤ elapsed → window ≤ (elapsed : Seconds) →
      Goes d
  | judge : d.phase = .evaluating value → Goes d
  | slept {elapsed : ℚ} : d.phase = .sleeping delay → 0 ≤ elapsed → delay ≤ (elapsed : Seconds) →
      Goes d

theorem exists_elapsed {s : Seconds} (h : s ≠ ⊤) :
    ∃ elapsed : ℚ, 0 ≤ elapsed ∧ s ≤ (elapsed : Seconds) := by
  lift s to ℚ using h
  exact ⟨max s 0, le_max_right _ _, by exact_mod_cast le_max_left _ _⟩

theorem add_timeout_ne_top (start : ℚ) {timeout : Seconds} (h : timeout ≠ ⊤) :
    (start : Seconds) + timeout ≠ ⊤ := WithTop.add_ne_top.mpr ⟨WithTop.coe_ne_top, h⟩

theorem Tracked.window_ne_top {d : Driver ε ρ} (h : Tracked cfg start d log)
    (hfinite : cfg.timeout ≠ ⊤) (hphase : d.phase = .waiting window) : window ≠ ⊤ := by
  obtain ⟨before, time, rfl⟩ := h.waiting window hphase
  have hsound := h.sound before (.started time window) [] rfl
  rintro rfl
  cases before with
  | nil =>
    obtain ⟨-, hwindow⟩ := Event.started.inj (hsound.first rfl)
    rcases max_eq_top.mp hwindow.symm with htop | htop
    · exact hfinite htop
    · obtain ⟨-, htick⟩ := min_eq_top.mp htop
      exact absurd htick WithTop.coe_ne_top
  | cons ev before =>
    obtain ⟨-, hdue, -⟩ := hsound.later nofun time ⊤ rfl
    rw [WithTop.add_top] at hdue
    exact add_timeout_ne_top start hfinite hdue.symm

theorem Tracked.goes {d : Driver ε ρ} (h : Tracked cfg start d log)
    (hfinite : cfg.timeout ≠ ⊤) (hlive : ∀ outcome, d.phase ≠ .ended outcome) : Goes d := by
  cases hphase : d.phase with
  | top first => exact .turn hphase
  | waiting window =>
    obtain ⟨elapsed, hpos, hdue⟩ := exists_elapsed (h.window_ne_top hfinite hphase)
    exact .wake hphase hpos hdue
  | evaluating value => exact .judge hphase
  | sleeping delay =>
    have hdelay : delay ≠ ⊤ := by
      rw [h.slept delay hphase, h.deadline]
      exact fun htop =>
        Seconds.since_ne_top (add_timeout_ne_top start hfinite) d.now (min_eq_top.mp htop).2
    obtain ⟨elapsed, hpos, hdue⟩ := exists_elapsed hdelay
    exact .slept hphase hpos hdue
  | ended outcome => exact absurd hphase (hlive outcome)

theorem Driver.attempt_quiet (cfg : Retry ε ρ) (d : Driver ε ρ) (first : Bool) :
    .cancelled ∉ (d.attempt cfg first).2 := by
  unfold attempt
  by_cases hover : first = false ∧ d.deadline.since d.now ≤ 0
  · simp [hover]
  · simp [hover]

theorem Driver.step_turn {d : Driver ε ρ} (hphase : d.phase = .top first) :
    d.step cfg .turn = some (d.attempt cfg first) := by
  simp only [Driver.step, hphase]

theorem Driver.step_expired {d : Driver ε ρ} {elapsed : ℚ} (hphase : d.phase = .waiting window)
    (hpos : 0 ≤ elapsed) (hdue : window ≤ (elapsed : Seconds)) :
    d.step cfg (.wake elapsed .expired) = some ((d.pass elapsed).waited cfg .cancelled
      (.raised cfg.timeoutError), [.seen .expired]) := by
  simp only [Driver.step, hphase]
  exact if_pos ⟨hpos, hdue⟩

theorem Driver.step_judge {d : Driver ε ρ} (hphase : d.phase = .evaluating value)
    (verdict : Verdict ε) : d.step cfg (.judge 0 verdict) =
      some ((d.pass 0).judged cfg verdict, [.judged verdict]) := by
  simp only [Driver.step, hphase]
  exact if_pos le_rfl

theorem Driver.step_slept {d : Driver ε ρ} {elapsed : ℚ} (hphase : d.phase = .sleeping delay)
    (hpos : 0 ≤ elapsed) (hdue : delay ≤ (elapsed : Seconds)) :
    d.step cfg (.slept elapsed) = some ({ d.pass elapsed with phase := .top false }, []) := by
  simp only [Driver.step, hphase]
  exact if_pos ⟨hpos, hdue⟩

theorem Goes.not_rests {d : Driver ε ρ} (h : Goes d) : ¬ d.Rests cfg := by
  intro hrests
  cases h with
  | @turn first hphase =>
    exact Driver.attempt_quiet cfg d first (hrests _ _ _ (Driver.step_turn hphase))
  | wake hphase hpos hdue =>
    have hcancel := hrests _ _ _ (Driver.step_expired hphase hpos hdue)
    simp at hcancel
  | judge hphase =>
    have hcancel := hrests _ _ _ (Driver.step_judge hphase .accepts)
    simp at hcancel
  | slept hphase hpos hdue =>
    have hcancel := hrests _ _ _ (Driver.step_slept hphase hpos hdue)
    simp at hcancel

theorem Tracked.reports {d : Driver ε ρ} (h : Tracked cfg start d log) :
    Reports cfg start d log := by
  refine ⟨fun outcome hphase => ?_, h.sound, h.decided, fun outcome hphase => ?_,
    fun i timeout hi hle htimeout => starts_bounded h.sound hi hle htimeout,
    fun hfinite hrests => ?_⟩
  · rcases h.fresh with ⟨htop, -⟩ | ⟨-, hmore⟩
    · rw [hphase] at htop
      cases htop
    · cases log with
      | nil => exact absurd rfl hmore
      | cons ev log =>
        have hfirst := (h.sound [] ev log rfl).first rfl
        exact ⟨_, _, by rw [hfirst]; exact List.mem_cons_self⟩
  · rcases h.ended outcome hphase with hdecided | ⟨hover, hcause⟩
    · exact .inl hdecided
    · rw [h.deadline] at hover
      exact .inr ⟨hover, hcause⟩
  · by_contra hlive
    exact (h.goes hfinite (not_exists.mp hlive)).not_rests hrests

theorem Driver.tracked {d : Driver ε ρ}
    (h : (machine ε ρ cfg start).Reach (fun _ a => ¬ Masked cfg a) d log) :
    Tracked cfg start d log :=
  h.invariant (P := Tracked cfg start) (.new cfg start) fun _ _ _ _ _ ht hmask hstep =>
    ht.step (.of_step hmask hstep)

-- ---------------------------------------------------------------------------
-- The length of a run
-- ---------------------------------------------------------------------------

def Phase.silent : Phase ε ρ → Nat
  | .top false => 1
  | .ended _ => 2
  | .top true | .waiting _ | .evaluating _ | .sleeping _ => 0

def Phase.owed : Phase ε ρ → Nat
  | .waiting _ => 3
  | .evaluating _ => 2
  | .top _ | .sleeping _ => 1
  | .ended _ => 0

structure Paced (d : Driver ε ρ) (log : List (Event ε ρ)) (k : Nat) : Prop where
  steps : k ≤ 2 * log.length + d.phase.silent
  events : log.length + d.phase.owed ≤ 3 * starts log + 1

theorem Paced.new (cfg : Retry ε ρ) (start : ℚ) :
    Paced (Driver.new cfg start : Driver ε ρ) [] 0 :=
  ⟨Nat.zero_le _, by simp [Driver.new, Phase.owed]⟩

theorem Driver.afterAttempt_paced (cfg : Retry ε ρ) (d : Driver ε ρ) :
    (d.afterAttempt cfg).phase.owed ≤ 1 := by
  unfold afterAttempt
  by_cases hover : d.deadline.since d.now ≤ 0
  · simp [hover, Phase.owed]
  · simp [hover, Phase.owed]

theorem Phase.Emits.owed (cfg : Retry ε ρ) {phase : Phase ε ρ} (h : phase.Emits ev) :
    1 ≤ phase.owed ∧ phase.silent = 0 ∧ (ev.retried cfg ≠ none → 2 ≤ phase.owed) := by
  cases phase with
  | waiting | evaluating => simp [Phase.owed, Phase.silent]
  | sleeping =>
    refine ⟨le_rfl, rfl, fun hretried => ?_⟩
    cases ev with
    | cancelled => exact absurd rfl hretried
    | started | seen | judged => cases h
  | top | ended => cases h

theorem Paced.step {d : Driver ε ρ} (h : Paced d log k) (hstep : Driver.Step cfg d d' evs) :
    Paced d' (log ++ evs) (k + 1) := by
  obtain ⟨hsteps, hevents⟩ := h
  cases hstep with
  | expire hphase =>
    rw [hphase] at hsteps hevents
    simp only [Phase.silent, Phase.owed] at hsteps hevents
    refine ⟨?_, ?_⟩ <;> simp only [List.append_nil, Phase.silent, Phase.owed] <;> omega
  | @start first hphase =>
    rw [hphase] at hsteps hevents
    have hcount : starts (log ++ [(.started d.now (cfg.window (d.deadline.since d.now) first) :
        Event ε ρ)]) = starts log + 1 := by
      simp [starts, Event.isStarted]
    have hsilent : (Phase.top first : Phase ε ρ).silent ≤ 1 := by
      cases first <;> simp [Phase.silent]
    simp only [Phase.owed] at hevents
    refine ⟨?_, ?_⟩
    · simp only [List.length_append, List.length_singleton, Phase.silent]
      omega
    · rw [hcount]
      simp only [List.length_append, List.length_singleton, Phase.owed]
      omega
  | answered hphase =>
    rw [hphase] at hsteps hevents
    simp only [Phase.silent, Phase.owed] at hsteps hevents
    refine ⟨?_, ?_⟩
    · simp only [List.length_append, List.length_singleton, Phase.silent]
      omega
    · rw [starts_append log rfl]
      simp only [List.length_append, List.length_singleton, Phase.owed]
      omega
  | decided hemits =>
    obtain ⟨howed, hsilent, -⟩ := hemits.owed cfg
    refine ⟨?_, ?_⟩
    · simp only [List.length_append, List.length_singleton, Phase.silent]
      omega
    · rw [starts_append log hemits.live.2.2.2]
      simp only [List.length_append, List.length_singleton, Phase.owed]
      omega
  | @retried _ elapsed error hemits _ hretried =>
    obtain ⟨-, hsilent, howed⟩ := hemits.owed cfg
    have howed := howed (by simp [hretried])
    generalize ({ d.pass elapsed with lastExc := some error } : Driver ε ρ) = next
    have hafter := Driver.afterAttempt_paced cfg next
    refine ⟨?_, ?_⟩
    · simp only [List.length_append, List.length_singleton]
      omega
    · rw [starts_append log hemits.live.2.2.2]
      simp only [List.length_append, List.length_singleton]
      omega
  | slept hphase =>
    rw [hphase] at hsteps hevents
    simp only [Phase.silent, Phase.owed] at hsteps hevents
    refine ⟨?_, ?_⟩ <;> simp only [List.append_nil, Phase.silent, Phase.owed] <;> omega

theorem Paced.le {d : Driver ε ρ} (h : Paced d log k) : k ≤ 6 * starts log + 4 := by
  have hsilent : d.phase.silent ≤ 2 := by
    unfold Phase.silent
    split <;> omega
  have := h.steps
  have := h.events
  omega

theorem exists_bound (cfg : Retry ε ρ) (start : ℚ) (hfinite : cfg.timeout ≠ ⊤) :
    ∃ n, ∀ (d : Driver ε ρ) log k, Tracked cfg start d log → Paced d log k → k ≤ n := by
  obtain ⟨i, hi, hle⟩ := cfg.exists_interval
  obtain ⟨timeout, htimeout⟩ := WithTop.ne_top_iff_exists.mp hfinite
  obtain ⟨n, hn⟩ := exists_nat_ge (timeout / i)
  refine ⟨6 * (n + 1) + 4, fun d log k ht hp => hp.le.trans ?_⟩
  have hstarts : starts log ≤ n + 1 := by
    rcases starts_bounded ht.sound hi hle htimeout.symm with hone | hmore
    · omega
    · have hlt : ((starts log - 1 : ℚ)) < n :=
        lt_of_lt_of_le ((lt_div_iff₀ hi).mpr hmore) hn
      have hcast : (starts log : ℚ) < ((n + 1 : Nat) : ℚ) := by
        push_cast
        linarith
      exact le_of_lt (by exact_mod_cast hcast)
  omega

theorem Driver.paced {s : Driver ε ρ × Nat}
    (h : (machine ε ρ cfg start).counted.Reach (fun _ a => ¬ Masked cfg a) s log) :
    Tracked cfg start s.1 log ∧ Paced s.1 log s.2 := by
  refine h.invariant (P := fun s log => Tracked cfg start s.1 log ∧ Paced s.1 log s.2)
    ⟨.new cfg start, .new cfg start⟩ ?_
  rintro s log a s' evs ⟨ht, hp⟩ hmask hstep
  obtain ⟨hstep, hcount⟩ := Transition.Machine.counted_step hstep
  have hstep := Step.of_step hmask hstep
  rw [hcount]
  exact ⟨ht.step hstep, hp.step hstep⟩

open ProcessKit.Runtime (PyErr)

def portRetry : Retry PyErr Nat := connectionRetry byType oneSecond

/-- Refused at first; then the connection comes in the tick of the deadline. -/
def lateConnection : List (Action PyErr Nat) :=
  [.turn, .wake (1 / 100) (.finished (.error ⟨"OSError", "refused"⟩)), .slept (1 / 20), .turn,
    .wake (94 / 100) (.raced (.ok 7)), .judge 0 .accepts]

def badPort : PyErr := ⟨"OverflowError", "port must be 0-65535"⟩

/-- The attempt raises what nobody retries, in the tick of its deadline. -/
def lateException : List (Action PyErr Nat) := [.turn, .wake 1 (.raced (.error badPort))]

end ProcessKit.Aio

import ProcessKit.Aio.Quiesced
import Mathlib.Algebra.Order.Archimedean.Basic
import Mathlib.Data.Rat.Floor
import Mathlib.Tactic.Linarith

/-!
# A met condition is not missed

What `wait_until` finds of its evaluations decides how it ends. All but the last are
falsy; the deadline is looked at after an evaluation, never before one.
-/

namespace ProcessKit.Aio

open ProcessKit.Runtime (PyErr PyResult)

-- ---------------------------------------------------------------------------
-- What is found
-- ---------------------------------------------------------------------------

inductive Finding
  | unfinished
  | falsy
  | truthy
  | raised (error : PyErr)
  deriving DecidableEq

def Finding.of : PyResult Bool → Finding
  | .error error => .raised error
  | .ok true => .truthy
  | .ok false => .falsy

def Finding.ofTask : Task PyErr (PyResult Bool) → Finding
  | .running | .cancelled => .unfinished
  | .exception error => .raised error
  | .result truth => .of truth

def Finding.ending : Finding → Option (Ending Unit)
  | .unfinished | .falsy => none
  | .truthy => some (.returned ())
  | .raised error => some (.raised error)

def PollEvent.finding : PollEvent → Option (ℚ × Finding)
  | .evaluated now (.raised error) => some (now, .raised error)
  | .evaluated now (.value truth) => some (now, .of truth)
  | .found now task => some (now, .ofTask task)
  | .evaluated _ .coroutine | .evaluated _ (.future _) | .slept _ | .cancelled => none

def findings (log : List PollEvent) : List (ℚ × Finding) := log.filterMap PollEvent.finding

theorem findings_append (log evs : List PollEvent) :
    findings (log ++ evs) = findings log ++ findings evs :=
  List.filterMap_append

theorem Watched.wake_enabled (task : Watched ρ) (wait : Wait) (hbegun : task.begun = true)
    (hdone : task.state.done = true) :
    ∃ m task' next, task.wait wait m = some (task', next) ∧ ¬ m.IsCancel := by
  cases wait with
  | waiting limit =>
    refine ⟨.wake 0, task.woken.1, task.woken.2, ?_, id⟩
    simp [Watched.wait, WaitMove.elapsed, hbegun, hdone]
  | quiescing clause pendingCancel =>
    refine ⟨.drained 0, (task.drained clause pendingCancel).1,
      .inr (task.drained clause pendingCancel).2, ?_, id⟩
    simp [Watched.wait, WaitMove.elapsed, hbegun, hdone]

namespace Poll

def TimedOut (bounds : Bounds) (start : ℚ) (log : List PollEvent) (error : WaitTimeout) : Prop :=
  error = timeout bounds ∧ ∃ now finding, (findings log).getLast? = some (now, finding) ∧
    (start : Seconds) + bounds.timeout ≤ now ∧ finding.ending = none

/-- What `wait_until` makes of what it finds. -/
structure Polls (bounds : Bounds) (start : ℚ) (s : Poll) (log : List PollEvent) : Prop where
  evaluated : ∀ how, s.phase = .ended how → ∃ now outcome, .evaluated now outcome ∈ log
  begun : ∀ how, s.phase = .ended how → ∀ task ∈ s.tasks, task.begun = true
  found : ∀ how, s.phase = .ended how → ∀ task ∈ s.tasks, task.owned = true →
    ∃ now, .found now task.state ∈ log
  decided : ∀ now finding how, (now, finding) ∈ findings log → finding.ending = some how →
    s.phase = .ended how ∨ .cancelled ∈ log ∧ s.phase = .ended .cancelled
  timedOut : ∀ error, s.phase = .ended (.timedOut error) → TimedOut bounds start log error
  cancelled : s.phase = .ended .cancelled → .cancelled ∈ log ∨ ∃ now, .found now .cancelled ∈ log
  prompt : ∀ wait task older, s.phase = .awaiting wait → s.tasks = task :: older →
    task.begun = true → task.state = .result (.ok true) → .cancelled ∉ log →
    (∃ m s' evs, step bounds s (.wait m) = some (s', evs) ∧ s'.phase = .ended (.returned ())) ∧
      ∀ m s' evs, step bounds s (.wait m) = some (s', evs) →
        m.IsCancel ∨ s'.phase = .ended (.returned ())

-- ---------------------------------------------------------------------------
-- The ends of a wait
-- ---------------------------------------------------------------------------

variable {bounds : Bounds} {start : ℚ} {s s' : Poll} {a : PollAction} {evs log : List PollEvent}

theorem judge_ending (h : (Finding.of truth).ending = some how) :
    (s.judge bounds truth).phase = .ended how := by
  cases truth with
  | error error => simpa [Finding.of, Finding.ending, judge, Poll.ending] using h
  | ok ready =>
    cases ready with
    | true => simpa [Finding.of, Finding.ending, judge, Poll.ending] using h
    | false => simp [Finding.of, Finding.ending] at h

theorem judge_timedOut (h : (s.judge bounds truth).phase = .ended (.timedOut error)) :
    error = timeout bounds ∧ (Finding.of truth).ending = none ∧ s.deadline ≤ s.now := by
  cases truth with
  | error error => cases h
  | ok ready =>
    cases ready with
    | true => cases h
    | false =>
      simp only [judge] at h
      split at h
      next hover =>
        obtain rfl : timeout bounds = error := by simpa [Poll.ending] using h
        exact ⟨rfl, rfl, (s.deadline.since_le_zero s.now).mp hover⟩
      next => cases h

theorem judge_not_cancelled (bounds : Bounds) (s : Poll) (truth : PyResult Bool) :
    (s.judge bounds truth).phase ≠ .ended .cancelled := by
  unfold judge
  split
  · simp [Poll.ending]
  · simp [Poll.ending]
  · simp only
    split
    · simp [Poll.ending]
    · simp

theorem judge_deadline (bounds : Bounds) (s : Poll) (truth : PyResult Bool) :
    (s.judge bounds truth).deadline = s.deadline := by
  unfold judge
  split
  · rfl
  · rfl
  · simp only
    split
    · rfl
    · rfl

theorem waited_deadline (bounds : Bounds) (s : Poll) (how : WaitEnd (PyResult Bool)) :
    (s.waited bounds how).deadline = s.deadline := by
  unfold waited
  split
  · exact judge_deadline bounds s _
  all_goals rfl

theorem waited_ending (hw : WaitStep task wait m task' (.inr how)) (hm : ¬ m.IsCancel)
    (h : (Finding.ofTask task.state).ending = some e) :
    (s.waited bounds how).phase = .ended e ∨
      wait.Cancelled ∧ (s.waited bounds how).phase = .ended .cancelled := by
  cases hw with
  | abandoned hstate | tookCancelled hstate | drainedCancelled hstate =>
    rw [hstate] at h
    cases h
  | tookException hstate | drainedException hstate =>
    rw [hstate] at h
    exact .inl (congrArg PollPhase.ended (Option.some.inj h))
  | tookResult hstate =>
    rw [hstate] at h
    exact .inl (judge_ending h)
  | drainedResult hstate =>
    rw [hstate] at h
    rename_i truth _
    cases truth with
    | error error => exact .inl (congrArg PollPhase.ended (Option.some.inj h))
    | ok ready =>
      cases ready with
      | true => exact .inl (congrArg PollPhase.ended (Option.some.inj h))
      | false => cases h
  | deserted => exact absurd trivial hm
  | pendingRaised => exact .inr ⟨.inr rfl, rfl⟩
  | reraised => exact .inr ⟨.inl rfl, rfl⟩

theorem waited_cancelled (hw : WaitStep task wait m task' (.inr how))
    (h : (s.waited bounds how).phase = .ended .cancelled) :
    m.IsCancel ∨ wait.Cancelled ∨ ¬ m.IsCancel ∧ task.state = .cancelled := by
  cases hw with
  | tookCancelled hstate => exact .inr (.inr ⟨id, hstate⟩)
  | deserted => exact .inl trivial
  | pendingRaised => exact .inr (.inl (.inr rfl))
  | reraised => exact .inr (.inl (.inl rfl))
  | abandoned | tookException | drainedCancelled | drainedException => cases h
  | tookResult => exact absurd h (judge_not_cancelled bounds s _)
  | drainedResult hstate =>
    rename_i truth _
    cases truth with
    | error error => cases h
    | ok ready =>
      cases ready with
      | true => cases h
      | false => cases h

structure Due (s : Poll) (wait : Wait) : Prop where
  waiting : ∀ limit, wait = .waiting limit → limit = max (s.deadline.since s.now) 0
  quiescing : ∀ pendingCancel, wait = .quiescing .deadlineFired pendingCancel → s.deadline ≤ s.now

theorem Due.pass (h : s.deadline ≤ s.now) (helapsed : 0 ≤ elapsed) :
    s.deadline ≤ ((s.now + elapsed : ℚ) : Seconds) := by
  apply h.trans
  exact_mod_cast le_add_of_nonneg_right helapsed

theorem Due.fired {elapsed : ℚ} (h : Due s (.waiting limit))
    (hfired : limit ≤ (elapsed : Seconds)) :
    s.deadline ≤ ((s.now + elapsed : ℚ) : Seconds) := by
  rw [h.waiting limit rfl] at hfired
  exact (s.deadline.since_le s.now elapsed).mp ((le_max_left _ _).trans hfired)

theorem waited_timedOut {older : List (Watched (PyResult Bool))}
    (hw : WaitStep task wait m task' (.inr how)) (hdue : Due s wait) (helapsed : 0 ≤ m.elapsed)
    (h : (waited bounds { s.pass m.elapsed with tasks := task' :: older } how).phase =
      .ended (.timedOut error)) :
    error = timeout bounds ∧ ¬ m.IsCancel ∧ (Finding.ofTask task.state).ending = none ∧
      s.deadline ≤ ((s.now + m.elapsed : ℚ) : Seconds) := by
  cases hw with
  | abandoned hstate _ hfired =>
    obtain rfl : timeout bounds = error := by simpa [waited, Poll.ending] using h
    refine ⟨rfl, id, ?_, hdue.fired hfired⟩
    rw [hstate]
    rfl
  | tookCancelled | tookException | deserted | pendingRaised | reraised | drainedException =>
    cases h
  | tookResult hstate =>
    obtain ⟨rfl, hfinding, hover⟩ := judge_timedOut h
    refine ⟨rfl, id, ?_, hover⟩
    rw [hstate]
    exact hfinding
  | drainedCancelled hstate =>
    obtain rfl : timeout bounds = error := by simpa [waited, Poll.ending] using h
    refine ⟨rfl, id, ?_, Due.pass (hdue.quiescing _ rfl) helapsed⟩
    rw [hstate]
    rfl
  | drainedResult hstate =>
    rename_i truth _
    cases truth with
    | error error => cases h
    | ok ready =>
      cases ready with
      | true => cases h
      | false =>
        obtain rfl : timeout bounds = error := by simpa [waited, Poll.ending] using h
        refine ⟨rfl, id, ?_, Due.pass (hdue.quiescing _ rfl) helapsed⟩
        rw [hstate]
        rfl

theorem waitStep_keeps (hw : WaitStep task wait m task' next) :
    task'.owned = task.owned ∧ task'.begun = task.begun ∧ task'.state = task.state := by
  cases hw with
  | pendingRaised =>
    split
    · exact ⟨rfl, rfl, rfl⟩
    · exact ⟨rfl, rfl, rfl⟩
  | fired | abandoned | tookCancelled | tookException | tookResult | interrupted | deserted
  | interruptedAgain | reraised | drainedCancelled | drainedException | drainedResult =>
    exact ⟨rfl, rfl, rfl⟩

theorem waitStep_owned (hw : WaitStep task wait m task' (.inr how)) (howned : task.owned = true) :
    task.state.done = true ∧ ¬ m.IsCancel := by
  cases hw with
  | abandoned _ hother | deserted hother =>
    rw [hother] at howned
    cases howned
  | tookCancelled hstate | tookException hstate | tookResult hstate | drainedCancelled hstate
  | drainedException hstate | drainedResult hstate =>
    refine ⟨?_, id⟩
    rw [hstate]
    rfl
  | pendingRaised hdone | reraised hdone => exact ⟨hdone, id⟩

theorem mem_foundEvents (now : ℚ) (state : Task PyErr (PyResult Bool)) {m : WaitMove}
    (hm : ¬ m.IsCancel) : PollEvent.found now state ∈ foundEvents now state m := by
  cases m with
  | wake elapsed | drained elapsed => exact List.mem_singleton_self _
  | cancel elapsed => exact absurd trivial hm

-- ---------------------------------------------------------------------------
-- What every run keeps
-- ---------------------------------------------------------------------------

def Past (log : List PollEvent) (task : Watched (PyResult Bool)) : Prop :=
  task.begun = true ∧
    (task.owned = true → task.state.done = true ∧ ∃ now, .found now task.state ∈ log)

def Decided (s : Poll) (log : List PollEvent) : Prop :=
  ∀ now finding how, (now, finding) ∈ findings log → finding.ending = some how →
    s.phase = .ended how ∨ .cancelled ∈ log ∧ s.phase = .ended .cancelled

structure Polling (bounds : Bounds) (start : ℚ) (s : Poll) (log : List PollEvent) : Prop where
  deadline : s.deadline = (start : Seconds) + bounds.timeout
  evaluated : s.phase ≠ .top → ∃ now outcome, .evaluated now outcome ∈ log
  past : ∀ task ∈ s.behind, Past log task
  decided : Decided s log
  timedOut : ∀ error, s.phase = .ended (.timedOut error) → TimedOut bounds start log error
  cancelled : s.phase = .ended .cancelled → .cancelled ∈ log ∨ ∃ now, .found now .cancelled ∈ log
  awaiting : ∀ wait, s.phase = .awaiting wait → ∃ task older, s.tasks = task :: older ∧
    Due s wait ∧ (wait.Cancelled → .cancelled ∈ log)

theorem Past.append (h : Past log task) (evs : List PollEvent) : Past (log ++ evs) task := by
  refine ⟨h.1, fun howned => ?_⟩
  obtain ⟨hdone, now, hfound⟩ := h.2 howned
  exact ⟨hdone, now, List.mem_append_left _ hfound⟩

theorem Past.move (h : Past log task) (hm : task.move mv = some task') : Past log task' := by
  obtain ⟨howned, -, -, hbegun, hstate⟩ := task.move_spec hm
  refine ⟨hbegun h.1, fun hown => ?_⟩
  obtain ⟨hdone, hfound⟩ := h.2 (howned ▸ hown)
  rw [hstate hdone]
  exact ⟨hdone, hfound⟩

theorem Decided.none {now : ℚ} (h : Decided s log) (hlive : ∀ how, s.phase ≠ .ended how)
    (hmem : (now, finding) ∈ findings log) : finding.ending = none := by
  cases hending : finding.ending with
  | none => rfl
  | some how =>
    rcases h now finding how hmem hending with hphase | ⟨-, hphase⟩
    · exact absurd hphase (hlive how)
    · exact absurd hphase (hlive .cancelled)

theorem Decided.quiet (h : Decided s log) (hlive : ∀ how, s.phase ≠ .ended how)
    (hevs : findings evs = []) : Decided s' (log ++ evs) := by
  intro now finding how hmem hending
  rw [findings_append, hevs, List.append_nil] at hmem
  rw [h.none hlive hmem] at hending
  cases hending

theorem Decided.snoc {now : ℚ} (h : Decided s log) (hlive : ∀ how, s.phase ≠ .ended how)
    (hevs : findings evs = [(now, finding)])
    (hnew : ∀ how, finding.ending = some how →
      s'.phase = .ended how ∨ .cancelled ∈ log ++ evs ∧ s'.phase = .ended .cancelled) :
    Decided s' (log ++ evs) := by
  intro now' finding' how hmem hending
  rw [findings_append, hevs] at hmem
  rcases List.mem_append.mp hmem with hmem | hmem
  · rw [h.none hlive hmem] at hending
    cases hending
  · obtain ⟨rfl, rfl⟩ := Prod.mk.inj (List.mem_singleton.mp hmem)
    exact hnew how hending

theorem getLast?_findings {now : ℚ} (hevs : findings evs = [(now, finding)]) :
    (findings (log ++ evs)).getLast? = some (now, finding) := by
  rw [findings_append, hevs, List.getLast?_append]
  rfl

theorem Polling.polls (h : Polling bounds start s log) : Polls bounds start s log where
  evaluated how hphase := h.evaluated (by simp [hphase])
  begun how hphase task hmem := by
    have hpast := h.past
    rw [behind_eq (by simp [hphase])] at hpast
    exact (hpast task hmem).1
  found how hphase task hmem howned := by
    have hpast := h.past
    rw [behind_eq (by simp [hphase])] at hpast
    exact ((hpast task hmem).2 howned).2
  decided := h.decided
  timedOut := h.timedOut
  cancelled := h.cancelled
  prompt wait task older hphase htasks hbegun hstate hnot := by
    obtain ⟨_, _, -, -, hcause⟩ := h.awaiting wait hphase
    have hready : ∀ m task' next, task.wait wait m = some (task', next) →
        m.IsCancel ∨ next = .inr (.result (.ok true)) ∨ next = .inr (.drained (.ok true)) := by
      intro m task' next hwait
      cases (Watched.wait_step hwait).2.2 with
      | fired hrunning | abandoned hrunning | tookCancelled hrunning | tookException hrunning
      | drainedCancelled hrunning | drainedException hrunning =>
        rw [hstate] at hrunning
        cases hrunning
      | tookResult hresult =>
        rw [hstate] at hresult
        cases hresult
        exact .inr (.inl rfl)
      | drainedResult hresult =>
        rw [hstate] at hresult
        cases hresult
        exact .inr (.inr rfl)
      | interrupted | deserted | interruptedAgain => exact .inl trivial
      | pendingRaised => exact absurd (hcause (.inr rfl)) hnot
      | reraised => exact absurd (hcause (.inl rfl)) hnot
    have hnext : ∀ m s' evs, step bounds s (.wait m) = some (s', evs) →
        m.IsCancel ∨ s'.phase = .ended (.returned ()) := by
      intro m s' evs hstep
      simp only [step, hphase, htasks] at hstep
      split at hstep
      next task' next hwait =>
        rcases hready m task' next hwait with hm | rfl | rfl
        · exact .inl hm
        · obtain ⟨rfl, rfl⟩ := Prod.ext_iff.mp (Option.some.inj hstep)
          exact .inr rfl
        · obtain ⟨rfl, rfl⟩ := Prod.ext_iff.mp (Option.some.inj hstep)
          exact .inr rfl
      next => cases hstep
    obtain ⟨m, task', next, hwait, hm⟩ := task.wake_enabled wait hbegun (by rw [hstate]; rfl)
    refine ⟨?_, hnext⟩
    obtain ⟨s', evs, hstep⟩ : ∃ s' evs, step bounds s (.wait m) = some (s', evs) := by
      simp only [step, hphase, htasks, hwait]
      cases next with
      | inl wait' => exact ⟨_, _, rfl⟩
      | inr how => exact ⟨_, _, rfl⟩
    rcases hnext m s' evs hstep with hcancel | hreturned
    · exact absurd hcancel hm
    · exact ⟨m, s', evs, hstep, hreturned⟩

theorem Polling.past_all (h : Polling bounds start s log)
    (hawait : ∀ wait, s.phase ≠ .awaiting wait) :
    ∀ task ∈ s.tasks, Past log task := by
  have hpast := h.past
  rwa [behind_eq hawait] at hpast

theorem Polling.judge {now : ℚ} (hdeadline : s.deadline = (start : Seconds) + bounds.timeout)
    (hdecided : Decided s₀ log) (hlive : ∀ how, s₀.phase ≠ .ended how)
    (hpast : ∀ task ∈ s.tasks, Past (log ++ evs) task)
    (hevaluated : ∃ now outcome, .evaluated now outcome ∈ log ++ evs)
    (hevs : findings evs = [(now, .of truth)]) (hnow : s.now = now) :
    Polling bounds start (s.judge bounds truth) (log ++ evs) := by
  obtain ⟨htasks, hawait⟩ := judge_behind bounds s truth
  refine ⟨(judge_deadline bounds s truth).trans hdeadline, fun _ => hevaluated, ?_, ?_,
    fun error hphase => ?_, fun hphase => absurd hphase (judge_not_cancelled bounds s truth),
    fun wait hphase => absurd hphase (hawait wait)⟩
  · rw [behind_eq hawait, htasks]
    exact hpast
  · exact hdecided.snoc hlive hevs fun how hending => .inl (judge_ending hending)
  · obtain ⟨herror, hfinding, hover⟩ := judge_timedOut hphase
    exact ⟨herror, now, _, getLast?_findings hevs, by rwa [← hdeadline, ← hnow], hfinding⟩

theorem Polling.await (h : Polling bounds start s log) (htop : s.phase = .top)
    (task : Watched (PyResult Bool)) (hevs : findings [.evaluated s.now outcome] = []) :
    Polling bounds start (s.await task) (log ++ [.evaluated s.now outcome]) := by
  have hpast := h.past_all (by simp [htop])
  refine ⟨h.deadline, fun _ => ⟨s.now, outcome, by simp⟩, fun other hmem => ?_,
    h.decided.quiet (by simp [htop]) hevs, fun error hphase => ?_, fun hphase => ?_,
    fun wait hphase => ?_⟩
  · rw [behind_awaiting rfl] at hmem
    exact (hpast other hmem).append _
  · cases hphase
  · cases hphase
  · obtain rfl := PollPhase.awaiting.inj hphase
    refine ⟨task, s.tasks, rfl, ⟨fun limit hwait => ?_, fun _ hwait => ?_⟩, fun hc => hc.elim⟩
    · exact (Wait.waiting.inj hwait).symm
    · cases hwait

theorem Polling.evaluate (h : Polling bounds start s log) (htop : s.phase = .top)
    (outcome : Evaluated) :
    Polling bounds start (s.evaluated bounds outcome) (log ++ [.evaluated s.now outcome]) := by
  have hlive : ∀ how, s.phase ≠ .ended how := by simp [htop]
  have hpast : ∀ task ∈ s.tasks, Past (log ++ [.evaluated s.now outcome]) task :=
    fun task hmem => (h.past_all (by simp [htop]) task hmem).append _
  have hevaluated : ∃ now outcome', .evaluated now outcome' ∈ log ++ [.evaluated s.now outcome] :=
    ⟨s.now, outcome, by simp⟩
  cases outcome with
  | raised error =>
    refine ⟨h.deadline, fun _ => hevaluated, hpast, ?_, fun _ hphase => ?_, fun hphase => ?_,
      fun _ hphase => ?_⟩
    · apply h.decided.snoc hlive rfl
      intro how hending
      exact .inl (congrArg PollPhase.ended (Option.some.inj hending))
    · cases hphase
    · cases hphase
    · cases hphase
  | value truth => exact Polling.judge h.deadline h.decided hlive hpast hevaluated rfl rfl
  | coroutine => exact h.await htop _ rfl
  | future state => exact h.await htop _ rfl

theorem findings_events (m : WaitMove) : findings (m.events .cancelled) = [] := by
  cases m <;> rfl

theorem findings_found (now : ℚ) (state : Task PyErr (PyResult Bool)) {m : WaitMove}
    (hm : ¬ m.IsCancel) : findings (foundEvents now state m) = [(now, .ofTask state)] := by
  cases m with
  | wake elapsed | drained elapsed => rfl
  | cancel elapsed => exact absurd trivial hm

theorem Polling.goesOn (h : Polling bounds start s log) (hphase : s.phase = .awaiting wait)
    (htasks : s.tasks = task :: older) (helapsed : 0 ≤ m.elapsed)
    (hw : WaitStep task wait m task' (.inl wait')) :
    Polling bounds start
      { s.pass m.elapsed with tasks := task' :: older, phase := .awaiting wait' }
      (log ++ m.events .cancelled) := by
  have hpast := h.past
  rw [behind_awaiting hphase, htasks] at hpast
  obtain ⟨now, outcome, hevaluated⟩ := h.evaluated (by simp [hphase])
  obtain ⟨_, _, -, hdue, hcause⟩ := h.awaiting wait hphase
  refine ⟨h.deadline, fun _ => ⟨now, outcome, List.mem_append_left _ hevaluated⟩,
    fun other hmem => ?_, h.decided.quiet (by simp [hphase]) (findings_events m),
    fun error hended => ?_, fun hended => ?_, fun wait hphase' => ?_⟩
  · rw [behind_awaiting rfl] at hmem
    exact (hpast other hmem).append _
  · cases hended
  · cases hended
  · obtain rfl := PollPhase.awaiting.inj hphase'
    refine ⟨task', older, rfl, ⟨fun limit hwait => ?_, fun _ hwait => ?_⟩, fun hc => ?_⟩
    · cases hw <;> cases hwait
    · cases hw with
      | fired _ _ hfired => exact hdue.fired hfired
      | interrupted => cases hwait
      | interruptedAgain =>
        obtain ⟨rfl, -⟩ := Wait.quiescing.inj hwait
        exact Due.pass (hdue.quiescing _ rfl) helapsed
    · cases hw with
      | fired =>
        rcases hc with hc | hc
        · cases hc
        · cases hc
      | interrupted | interruptedAgain => exact List.mem_append_right _ (List.mem_singleton_self _)

theorem Polling.leaves (h : Polling bounds start s log) (hphase : s.phase = .awaiting wait)
    (htasks : s.tasks = task :: older) (helapsed : 0 ≤ m.elapsed) (hbegun : task.begun = true)
    (hw : WaitStep task wait m task' (.inr how)) :
    Polling bounds start (waited bounds { s.pass m.elapsed with tasks := task' :: older } how)
      (log ++ (m.events .cancelled ++ foundEvents (s.now + m.elapsed) task.state m)) := by
  have hlive : ∀ how, s.phase ≠ .ended how := by simp [hphase]
  have hpast := h.past
  rw [behind_awaiting hphase, htasks] at hpast
  obtain ⟨now, outcome, hevaluated⟩ := h.evaluated (by simp [hphase])
  obtain ⟨_, _, -, hdue, hcause⟩ := h.awaiting wait hphase
  obtain ⟨htasks', hawait⟩ :=
    waited_behind bounds { s.pass m.elapsed with tasks := task' :: older } how
  obtain ⟨howned, hbegun', hstate⟩ := waitStep_keeps hw
  refine ⟨(waited_deadline bounds _ how).trans h.deadline,
    fun _ => ⟨now, outcome, List.mem_append_left _ hevaluated⟩, ?_, ?_, fun error hended => ?_,
    fun hended => ?_, fun wait hphase' => absurd hphase' (hawait wait)⟩
  · rw [behind_eq hawait, htasks']
    intro other hmem
    rcases List.mem_cons.mp hmem with rfl | hmem
    · refine ⟨hbegun'.trans hbegun, fun hown => ?_⟩
      obtain ⟨hdone, hm⟩ := waitStep_owned hw (howned ▸ hown)
      rw [hstate]
      refine ⟨hdone, s.now + m.elapsed, ?_⟩
      exact List.mem_append_right _ (List.mem_append_right _ (mem_foundEvents _ _ hm))
    · exact (hpast other hmem).append _
  · by_cases hm : m.IsCancel
    · apply h.decided.quiet hlive
      cases m with
      | wake elapsed | drained elapsed => exact hm.elim
      | cancel elapsed => rfl
    · apply h.decided.snoc hlive
      · rw [findings_append, findings_events, findings_found _ _ hm, List.nil_append]
      · intro e hending
        rcases waited_ending hw hm hending with hended | ⟨hcancelled, hended⟩
        · exact .inl hended
        · exact .inr ⟨List.mem_append_left _ (hcause hcancelled), hended⟩
  · obtain ⟨herror, hm, hfinding, hover⟩ := waited_timedOut hw hdue helapsed hended
    refine ⟨herror, s.now + m.elapsed, _, getLast?_findings ?_, ?_, hfinding⟩
    · rw [findings_append, findings_events, findings_found _ _ hm, List.nil_append]
    · rwa [← h.deadline]
  · rcases waited_cancelled hw hended with hm | hcancelled | ⟨hm, hcancelled⟩
    · exact .inl (List.mem_append_right _ (List.mem_append_left _ ((m.mem_events _).mpr hm)))
    · exact .inl (List.mem_append_left _ (hcause hcancelled))
    · right
      rw [← hcancelled]
      exact ⟨_, List.mem_append_right _ (List.mem_append_right _ (mem_foundEvents _ _ hm))⟩

theorem Polling.moved (h : Polling bounds start s log) (htask : s.tasks[index]? = some task)
    (hm : task.move mv = some task') :
    Polling bounds start { s with tasks := s.tasks.set index task' } (log ++ []) := by
  rw [List.append_nil]
  refine ⟨h.deadline, h.evaluated, behind_set h.past htask fun hpast => hpast.move hm, h.decided,
    h.timedOut, h.cancelled, fun wait hphase => ?_⟩
  obtain ⟨first, older, htasks, hdue, hcause⟩ := h.awaiting wait hphase
  obtain ⟨first', older', hset, -⟩ := head_set htasks htask task'
  exact ⟨first', older', hset, ⟨hdue.waiting, hdue.quiescing⟩, hcause⟩

theorem Polling.step (h : Polling bounds start s log)
    (hs : Poll.step bounds s a = some (s', evs)) : Polling bounds start s' (log ++ evs) := by
  cases step_cases hs with
  | evaluate htop => exact h.evaluate htop _
  | goesOn hphase htasks helapsed _ hw => exact h.goesOn hphase htasks helapsed hw
  | leaves hphase htasks helapsed hbegun hw => exact h.leaves hphase htasks helapsed hbegun hw
  | slept hphase =>
    have hpast := h.past_all (by simp [hphase])
    refine ⟨h.deadline, fun htop => absurd rfl htop, fun task hmem => (hpast task hmem).append _,
      h.decided.quiet (by simp [hphase]) rfl, fun _ hended => ?_, fun hended => ?_,
      fun _ hnext => ?_⟩
    · cases hended
    · cases hended
    · cases hnext
  | interrupted hphase =>
    have hpast := h.past_all (by simp [hphase])
    obtain ⟨now, outcome, hevaluated⟩ := h.evaluated (by simp [hphase])
    refine ⟨h.deadline, fun _ => ⟨now, outcome, List.mem_append_left _ hevaluated⟩,
      fun task hmem => (hpast task hmem).append _, h.decided.quiet (by simp [hphase]) rfl,
      fun _ hended => ?_, fun _ => .inl (by simp), fun _ hnext => ?_⟩
    · cases hended
    · cases hnext
  | moved _ htask hm => exact h.moved htask hm

theorem polling (h : (machine bounds start).Reachable s log) : Polling bounds start s log := by
  apply h.invariant
  · refine ⟨rfl, fun htop => absurd rfl htop, ?_, ?_, fun _ hended => ?_, fun hended => ?_,
      fun _ hnext => ?_⟩
    · simp [machine, new, behind]
    · simp [Decided, findings]
    · cases hended
    · cases hended
    · cases hnext
  · intro s log a s' evs hs _ hstep
    exact hs.step hstep

-- ---------------------------------------------------------------------------
-- A predicate of the time
-- ---------------------------------------------------------------------------

/-- The predicate is synchronous, false before `t` and true from `t` on. -/
def trueFrom (t : ℚ) (s : Poll) : PollAction → Bool
  | .evaluate outcome => outcome = .value (.ok (decide (t ≤ s.now)))
  | .wait _ | .slept _ | .interrupt _ | .task .. => true

/-- Nothing comes any more but the caller's cancellation. -/
def Rests (bounds : Bounds) (t : ℚ) (s : Poll) : Prop :=
  ∀ a s' evs, s.trueFrom t a = true → step bounds s a = some (s', evs) → .cancelled ∈ evs

/-- A run, each step of which logs an event, is no longer than `n`, and returns. -/
structure Meets (bounds : Bounds) (t : ℚ) (n : ℕ) (s : Poll) (log : List PollEvent) : Prop where
  bounded : log.length ≤ n
  notTimedOut : ∀ error, s.phase ≠ .ended (.timedOut error)
  returns : Rests bounds t s →
    s.phase = .ended (.returned ()) ∨ .cancelled ∈ log ∧ s.phase = .ended .cancelled

/-- After `k` passes the condition is met, or `k` intervals are over. -/
def Passed (start t i : ℚ) (k : ℕ) (now : ℚ) : Prop := t ≤ now ∨ start + k * i ≤ now

def InPass (start t i : ℚ) (n : ℕ) (now : ℚ) (log : List PollEvent) : PollPhase → Prop
  | .top => ∃ k, log.length = 2 * k ∧ k ≤ n ∧ Passed start t i k now
  | .awaiting _ => False
  | .sleeping delay => ∃ k, log.length + 1 = 2 * k ∧ k ≤ n ∧ 0 < delay ∧ delay ≠ ⊤ ∧
      ∀ elapsed : ℚ, delay ≤ (elapsed : Seconds) → Passed start t i k (now + elapsed)
  | .ended how => log.length ≤ 2 * n + 1 ∧
      (how = .returned () ∨ .cancelled ∈ log ∧ how = .cancelled)

structure Passing (bounds : Bounds) (start t i : ℚ) (n : ℕ) (s : Poll) (log : List PollEvent) :
    Prop where
  noTasks : s.tasks = []
  deadline : s.deadline = (start : Seconds) + bounds.timeout
  phase : InPass start t i n s.now log s.phase

/-- A wait that sooner or later ends, up to a deadline that leaves the time for `t`. -/
structure Leaves (bounds : Bounds) (start t i : ℚ) (n : ℕ) : Prop where
  due : (t : Seconds) ≤ (start : Seconds) + bounds.timeout
  finite : bounds.timeout ≠ ⊤ ∨ bounds.interval ≠ ⊤
  pos : 0 < i
  interval : (i : Seconds) ≤ bounds.interval
  enough : t ≤ start + n * i

theorem judge_sleeps (hl : Leaves bounds start t i n)
    (hdeadline : s.deadline = (start : Seconds) + bounds.timeout) (hearly : s.now < t) :
    ∃ delay, (s.judge bounds (.ok false)).phase = .sleeping delay ∧ 0 < delay ∧ delay ≠ ⊤ ∧
      ∀ elapsed : ℚ, delay ≤ (elapsed : Seconds) →
        i ≤ elapsed ∨ t ≤ s.now + elapsed := by
  have hnot : ¬ s.deadline.since s.now ≤ 0 := by
    intro hover
    have hdue : (t : Seconds) ≤ s.now := by
      apply hl.due.trans
      rw [← hdeadline]
      exact (s.deadline.since_le_zero s.now).mp hover
    exact absurd (by exact_mod_cast hdue) (not_le.mpr hearly)
  refine ⟨min bounds.interval (s.deadline.since s.now), ?_, ?_, ?_, fun elapsed hslept => ?_⟩
  · simp only [Poll.judge, if_neg hnot]
  · exact lt_min bounds.interval_pos (not_le.mp hnot)
  · intro htop
    obtain ⟨hinterval, hsince⟩ := min_eq_top.mp htop
    rcases hl.finite with htimeout | hfinite
    · apply Seconds.since_ne_top _ s.now hsince
      rw [hdeadline]
      exact WithTop.add_ne_top.mpr ⟨WithTop.coe_ne_top, htimeout⟩
    · exact hfinite hinterval
  · rcases min_le_iff.mp hslept with hslept | hslept
    · left
      exact_mod_cast hl.interval.trans hslept
    · right
      have hover := (s.deadline.since_le s.now elapsed).mp hslept
      rw [hdeadline] at hover
      exact_mod_cast hl.due.trans hover

theorem Passing.evaluate (h : Passing bounds start t i n s log) (hl : Leaves bounds start t i n)
    (htop : s.phase = .top) (heq : s.trueFrom t (.evaluate outcome) = true) :
    Passing bounds start t i n (s.evaluated bounds outcome)
      (log ++ [.evaluated s.now outcome]) := by
  obtain rfl : outcome = .value (.ok (decide (t ≤ s.now))) := by simpa [trueFrom] using heq
  have hphase := h.phase
  rw [htop] at hphase
  obtain ⟨k, hlength, hbound, hpassed⟩ := hphase
  refine ⟨(judge_behind bounds s _).1.trans h.noTasks,
    (judge_deadline bounds s _).trans h.deadline, ?_⟩
  by_cases hmet : t ≤ s.now
  · simp only [evaluated, hmet, decide_true]
    refine ⟨?_, .inl rfl⟩
    simp only [List.length_append, List.length_singleton, hlength]
    omega
  · have hearly := not_le.mp hmet
    obtain ⟨delay, hsleeps, hpos, hfinite, hlong⟩ := judge_sleeps hl h.deadline hearly
    have hstarted : start + k * i ≤ s.now := hpassed.resolve_left hmet
    have hless : k < n := by
      have hless : (k : ℚ) * i < n * i := by linarith [hl.enough]
      exact_mod_cast lt_of_mul_lt_mul_right hless hl.pos.le
    simp only [evaluated, hmet, decide_false, hsleeps]
    refine ⟨k + 1, ?_, hless, hpos, hfinite, fun elapsed hslept => ?_⟩
    · simp only [List.length_append, List.length_singleton, hlength]
      omega
    · have hnow : (s.judge bounds (.ok false)).now = s.now := by
        simp only [Poll.judge]
        split
        · rfl
        · rfl
      rw [hnow]
      rcases hlong elapsed hslept with hpass | hdue
      · right
        push_cast
        linarith
      · exact .inl hdue

theorem Passing.step (h : Passing bounds start t i n s log) (hl : Leaves bounds start t i n)
    (ht : s.trueFrom t a = true) (hs : Poll.step bounds s a = some (s', evs)) :
    Passing bounds start t i n s' (log ++ evs) := by
  have hphase := h.phase
  cases step_cases hs with
  | evaluate htop => exact h.evaluate hl htop ht
  | goesOn hawait | leaves hawait =>
    rw [hawait] at hphase
    exact hphase.elim
  | slept hsleep _ hdelay =>
    rw [hsleep] at hphase
    obtain ⟨k, hlength, hbound, -, -, hpassed⟩ := hphase
    refine ⟨h.noTasks, h.deadline, k, ?_, hbound, hpassed _ hdelay⟩
    simpa using hlength
  | interrupted hsleep =>
    rw [hsleep] at hphase
    obtain ⟨k, hlength, hbound, -⟩ := hphase
    refine ⟨h.noTasks, h.deadline, ?_, .inr ⟨by simp, rfl⟩⟩
    simp only [List.length_append, List.length_singleton]
    omega
  | moved _ htask => simp [h.noTasks] at htask

theorem Passing.meets (h : Passing bounds start t i n s log) :
    Meets bounds t (2 * n + 1) s log := by
  have hphase := h.phase
  cases hnow : s.phase with
  | top =>
    rw [hnow] at hphase
    obtain ⟨k, hlength, hbound, -⟩ := hphase
    refine ⟨by omega, fun error hended => ?_, fun hrests => ?_⟩
    · rw [hnow] at hended
      cases hended
    · have hstep : Poll.step bounds s (.evaluate (.value (.ok (decide (t ≤ s.now))))) =
          some (s.evaluated bounds (.value (.ok (decide (t ≤ s.now)))),
            [.evaluated s.now (.value (.ok (decide (t ≤ s.now))))]) := by
        simp only [Poll.step, hnow]
      have hcancel := hrests _ _ _ (by simp [trueFrom]) hstep
      simp at hcancel
  | awaiting wait =>
    rw [hnow] at hphase
    exact hphase.elim
  | sleeping delay =>
    rw [hnow] at hphase
    obtain ⟨k, hlength, hbound, hpos, hfinite, -⟩ := hphase
    refine ⟨by omega, fun error hended => ?_, fun hrests => ?_⟩
    · rw [hnow] at hended
      cases hended
    · lift delay to ℚ using hfinite
      have helapsed : 0 ≤ delay := by exact_mod_cast hpos.le
      have hstep := hrests (.slept delay) { s.pass delay with phase := .top }
        [.slept (s.now + delay)] rfl (by simp [Poll.step, hnow, helapsed])
      simp at hstep
  | ended how =>
    rw [hnow] at hphase
    obtain ⟨hlength, hhow⟩ := hphase
    refine ⟨hlength, fun error hended => ?_, fun _ => ?_⟩
    · obtain rfl := PollPhase.ended.inj (hnow.symm.trans hended)
      rcases hhow with hhow | ⟨-, hhow⟩
      · cases hhow
      · cases hhow
    · rcases hhow with rfl | ⟨hc, rfl⟩
      · exact .inl hnow
      · exact .inr ⟨hc, hnow⟩

theorem passing (hl : Leaves bounds start t i n)
    (h : (machine bounds start).Reach (fun s a => s.trueFrom t a = true) s log) :
    Passing bounds start t i n s log := by
  apply h.invariant
  · refine ⟨rfl, rfl, 0, rfl, Nat.zero_le n, .inr ?_⟩
    simp [machine, new]
  · intro s log a s' evs hs ht hstep
    exact hs.step hl ht hstep

theorem exists_leaves {t : ℚ} (hdue : (t : Seconds) ≤ (start : Seconds) + bounds.timeout)
    (hfinite : bounds.timeout ≠ ⊤ ∨ bounds.interval ≠ ⊤) : ∃ i n, Leaves bounds start t i n := by
  obtain ⟨i, hpos, hinterval⟩ := bounds.exists_interval
  obtain ⟨n, hn⟩ := exists_nat_ge ((t - start) / i)
  refine ⟨i, n, hdue, hfinite, hpos, hinterval, ?_⟩
  have henough := (div_le_iff₀ hpos).mp hn
  linarith

end Poll

/-- `wait_until` keeps to what it finds; and where the timeout or the interval is finite,
a predicate that comes true by the deadline makes it return. -/
theorem wait_until_polls (bounds : Bounds) (start : ℚ) :
    (∀ s log, (Poll.machine bounds start).Reachable s log → Poll.Polls bounds start s log) ∧
    (bounds.timeout ≠ ⊤ ∨ bounds.interval ≠ ⊤ →
      ∀ t : ℚ, (t : Seconds) ≤ (start : Seconds) + bounds.timeout → ∃ n, ∀ s log,
        (Poll.machine bounds start).Reach (fun s a => s.trueFrom t a = true) s log →
          Poll.Meets bounds t n s log) := by
  constructor
  · intro s log hr
    exact (Poll.polling hr).polls
  · intro hfinite t hdue
    obtain ⟨i, n, hl⟩ := Poll.exists_leaves hdue hfinite
    exact ⟨2 * n + 1, fun s log hr => (Poll.passing hl hr).meets⟩

theorem wait_until_polls_one_second :
    (∃ s log, Poll.Polls oneSecond 0 s log ∧ s.phase = .ended (.returned ())) ∧
    ∃ n, ∀ s log,
      (Poll.machine oneSecond 0).Reach (fun s a => s.trueFrom 1 a = true) s log →
        Poll.Meets oneSecond 1 n s log := by
  constructor
  · obtain ⟨s, log, hr, hs⟩ := Transition.Machine.reach_replay (m := Poll.machine oneSecond 0)
      [.evaluate .coroutine, .task 0 .begin, .wait (.wake 1),
        .task 0 (.finish (.result (.ok true))), .wait (.drained 0)]
      (fun s _ => s.phase) (b := .ended (.returned ())) (fun _ _ _ => trivial) (by decide +kernel)
    exact ⟨s, log, (wait_until_polls oneSecond 0).1 s log hr, hs⟩
  · exact (wait_until_polls oneSecond 0).2 (.inl (by decide +kernel)) 1 (by decide +kernel)

def forever : Bounds where
  timeout := ⊤
  interval := ⊤
  timeout_nonneg := le_top
  interval_pos := by decide +kernel

/-- The predicate is true from the first second on. It was called once, at the start, and
is never called again. -/
theorem sleeps_forever :
    (1 : Seconds) ≤ ((0 : ℚ) : Seconds) + forever.timeout ∧
    ¬ ∃ n, ∀ s log,
      (Poll.machine forever 0).Reach (fun s a => s.trueFrom 1 a = true) s log →
        Poll.Meets forever 1 n s log := by
  refine ⟨by decide +kernel, ?_⟩
  rintro ⟨n, hmeets⟩
  obtain ⟨s, log, hr, hs⟩ := Transition.Machine.reach_replay
    (m := (Poll.machine forever 0).guarded (Poll.trueFrom 1)) [.evaluate (.value (.ok false))]
    (fun s _ => (s.phase, s.tasks)) (b := (.sleeping ⊤, [])) (fun _ _ _ => trivial)
    (by decide +kernel)
  obtain ⟨hphase, htasks⟩ := Prod.mk.inj hs
  have hrests : s.Rests forever 1 := by
    intro a s' evs _ hstep
    cases Poll.step_cases hstep with
    | evaluate htop => simp [hphase] at htop
    | goesOn hawait | leaves hawait => simp [hphase] at hawait
    | slept hsleep _ hdelay =>
      obtain rfl := PollPhase.sleeping.inj (hphase.symm.trans hsleep)
      exact absurd (top_le_iff.mp hdelay) WithTop.coe_ne_top
    | interrupted => exact List.mem_singleton_self _
    | moved _ htask => simp [htasks] at htask
  have hreturned := (hmeets s log (hr.of_guarded fun _ _ h => h)).returns hrests
  simp [hphase] at hreturned

end ProcessKit.Aio

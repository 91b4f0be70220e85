import ProcessKit.Aio.Waiting

/-!
# What a wait leaves behind

A helper ends in a wait or between two waits. A wait that ends leaves the task done,
where it is the helper's own, and has asked for its exception; but the clause that
answers the caller's cancellation raises it again when `_quiesce` has returned, and then
nobody has asked. The `cancel()` of `_quiesce` makes up for that where the task was done
before it.
-/

namespace ProcessKit.Aio

open ProcessKit.Runtime (PyErr PyResult ProcessError.newErr)
open Python (PyStr)

-- ---------------------------------------------------------------------------
-- One wait
-- ---------------------------------------------------------------------------

inductive WaitStep (task : Watched ρ) :
    Wait → WaitMove → Watched ρ → Wait ⊕ WaitEnd ρ → Prop
  | fired {elapsed : ℚ} : task.state = .running → task.owned = true →
      timeout ≤ (elapsed : Seconds) →
      WaitStep task (.waiting timeout) (.wake elapsed) task.cancel
        (.inl (.quiescing .deadlineFired false))
  | abandoned {elapsed : ℚ} : task.state = .running → task.owned = false →
      timeout ≤ (elapsed : Seconds) →
      WaitStep task (.waiting timeout) (.wake elapsed) task (.inr .deadline)
  | tookCancelled : task.state = .cancelled →
      WaitStep task (.waiting timeout) (.wake elapsed) task (.inr .cancelled)
  | tookException : task.state = .exception error →
      WaitStep task (.waiting timeout) (.wake elapsed) task.retrieve (.inr (.raised error))
  | tookResult : task.state = .result value →
      WaitStep task (.waiting timeout) (.wake elapsed) task.retrieve (.inr (.result value))
  | interrupted : task.owned = true →
      WaitStep task (.waiting timeout) (.cancel elapsed) task.cancel
        (.inl (.quiescing .exceptCancelled false))
  | deserted : task.owned = false →
      WaitStep task (.waiting timeout) (.cancel elapsed) task (.inr .cancelled)
  | interruptedAgain :
      WaitStep task (.quiescing clause pendingCancel) (.cancel elapsed) task.cancel
        (.inl (.quiescing clause true))
  | pendingRaised : task.state.done = true →
      WaitStep task (.quiescing clause true) (.drained elapsed)
        (if task.state.isCancelled then task else task.retrieve) (.inr .cancelled)
  | reraised : task.state.done = true →
      WaitStep task (.quiescing .exceptCancelled false) (.drained elapsed) task (.inr .cancelled)
  | drainedCancelled : task.state = .cancelled →
      WaitStep task (.quiescing .deadlineFired false) (.drained elapsed) task (.inr .deadline)
  | drainedException : task.state = .exception error →
      WaitStep task (.quiescing .deadlineFired false) (.drained elapsed) task.retrieve
        (.inr (.raised error))
  | drainedResult : task.state = .result value →
      WaitStep task (.quiescing .deadlineFired false) (.drained elapsed) task.retrieve
        (.inr (.drained value))

section

variable {task task' : Watched ρ} {wait : Wait} {m : WaitMove} {next : Wait ⊕ WaitEnd ρ}

theorem Watched.woken_step (task : Watched ρ) {elapsed : ℚ}
    (h : task.state.done = true ∨ timeout ≤ (elapsed : Seconds)) :
    WaitStep task (.waiting timeout) (.wake elapsed) task.woken.1 task.woken.2 := by
  unfold Watched.woken
  cases hstate : task.state with
  | running =>
    have hdue : timeout ≤ (elapsed : Seconds) := by simpa [hstate, Task.done] using h
    cases howned : task.owned with
    | true => exact .fired hstate howned hdue
    | false => exact .abandoned hstate howned hdue
  | cancelled => exact .tookCancelled hstate
  | exception error => exact .tookException hstate
  | result value => exact .tookResult hstate

theorem Watched.interrupted_step (task : Watched ρ) (wait : Wait) (elapsed : ℚ) :
    WaitStep task wait (.cancel elapsed) (task.interrupted wait).1 (task.interrupted wait).2 := by
  cases wait with
  | waiting timeout =>
    simp only [Watched.interrupted]
    split
    next howned => exact .interrupted howned
    next howned => exact .deserted (by simpa using howned)
  | quiescing clause pendingCancel => exact .interruptedAgain

theorem Watched.drained_step (task : Watched ρ) (clause : Clause) (pendingCancel : Bool)
    (elapsed : ℚ) (hdone : task.state.done = true) :
    WaitStep task (.quiescing clause pendingCancel) (.drained elapsed)
      (task.drained clause pendingCancel).1 (.inr (task.drained clause pendingCancel).2) := by
  cases pendingCancel with
  | true => exact .pendingRaised hdone
  | false =>
    cases clause with
    | exceptCancelled => exact .reraised hdone
    | deadlineFired =>
      simp only [Watched.drained, Bool.false_eq_true, if_false]
      cases hstate : task.state with
      | running => simp [hstate, Task.done] at hdone
      | cancelled => exact .drainedCancelled hstate
      | exception error => exact .drainedException hstate
      | result value => exact .drainedResult hstate

theorem Watched.wait_step (h : task.wait wait m = some (task', next)) :
    0 ≤ m.elapsed ∧ task.begun = true ∧ WaitStep task wait m task' next := by
  unfold Watched.wait at h
  obtain ⟨⟨helapsed, hbegun⟩, h⟩ := Option.ite_none_right_eq_some.mp h
  refine ⟨helapsed, hbegun, ?_⟩
  split at h
  · obtain ⟨hready, h⟩ := Option.ite_none_right_eq_some.mp h
    obtain ⟨rfl, rfl⟩ := Prod.ext_iff.mp (Option.some.inj h)
    exact task.woken_step hready
  · obtain ⟨hdone, h⟩ := Option.ite_none_right_eq_some.mp h
    obtain ⟨rfl, rfl⟩ := Prod.ext_iff.mp (Option.some.inj h)
    exact task.drained_step _ _ _ hdone
  · obtain ⟨rfl, rfl⟩ := Prod.ext_iff.mp (Option.some.inj h)
    exact task.interrupted_step _ _
  · cases h

theorem Watched.move_spec (h : task.move mv = some task') :
    task'.owned = task.owned ∧ task'.cancelCalled = task.cancelCalled ∧
      task'.retrieved = task.retrieved ∧ (task.begun = true → task'.begun = true) ∧
      (task.state.done = true → task'.state = task.state) := by
  cases mv with
  | begin =>
    obtain ⟨-, h⟩ := Option.ite_none_left_eq_some.mp h
    obtain rfl := Option.some.inj h
    exact ⟨rfl, rfl, rfl, fun _ => rfl, fun _ => rfl⟩
  | finish how =>
    obtain ⟨⟨-, hlive⟩, h⟩ := Option.ite_none_right_eq_some.mp h
    obtain rfl := Option.some.inj h
    exact ⟨rfl, rfl, rfl, id, fun hdone => by simp [hlive] at hdone⟩

end

-- ---------------------------------------------------------------------------
-- Nothing is left
-- ---------------------------------------------------------------------------

/-- Done, where the helper has made it, and its exception retrieved. -/
def Watched.Settled (task : Watched ρ) : Prop :=
  task.owned = true → task.state.done = true ∧
    ∀ error, task.state = .exception error → task.retrieved = true

/-- No future or task of the caller's is cancelled. -/
def Watched.Untouched (task : Watched ρ) : Prop :=
  task.owned = false → task.cancelCalled = false

/-- `cancelled` says that the caller was. -/
structure LeavesNothing (tasks : List (Watched τ)) (ended : Option (Ending ρ))
    (cancelled : Prop) : Prop where
  settled : ended.isSome = true → ∀ task ∈ tasks, task.Settled
  untouched : ∀ task ∈ tasks, task.Untouched
  reraised : cancelled → ∀ how, ended = some how → how = .cancelled

def Task.isException : Task ε ρ → Bool
  | .exception _ => true
  | .running | .cancelled | .result _ => false

/-- No clause raises the caller's cancellation again over a task that ended with an
exception while it was drained, unless another cancellation has come as well. -/
def Watched.quiet (task : Watched ρ) : Wait → WaitMove → Bool
  | .quiescing .exceptCancelled false, .drained _ => !task.state.isException || task.retrieved
  | _, _ => true

def WaitMove.IsCancel : WaitMove → Prop
  | .cancel _ => True
  | .wake _ | .drained _ => False

theorem WaitMove.mem_events (cancelled : ε) (m : WaitMove) :
    cancelled ∈ m.events cancelled ↔ m.IsCancel := by
  cases m with
  | wake elapsed | drained elapsed => simp [WaitMove.events, WaitMove.IsCancel]
  | cancel elapsed => simp [WaitMove.events, WaitMove.IsCancel]

def Wait.Cancelled : Wait → Prop
  | .waiting _ => False
  | .quiescing clause pendingCancel => clause = .exceptCancelled ∨ pendingCancel = true

structure Watched.Awaited (task : Watched ρ) (wait : Wait) (cancelled : Prop) : Prop where
  own : ∀ clause pendingCancel, wait = .quiescing clause pendingCancel → task.owned = true
  cancelled : cancelled → wait.Cancelled

section

variable {task task' : Watched ρ} {wait wait' : Wait} {m : WaitMove} {how : WaitEnd ρ}
variable {cancelled : Prop}

theorem Watched.Settled.move (h : task.Settled) (hm : task.move mv = some task') :
    task'.Settled := by
  obtain ⟨howned, -, hretrieved, -, hstate⟩ := task.move_spec hm
  intro hown
  obtain ⟨hdone, hread⟩ := h (howned ▸ hown)
  rw [hstate hdone, hretrieved]
  exact ⟨hdone, hread⟩

theorem Watched.Untouched.move (h : task.Untouched) (hm : task.move mv = some task') :
    task'.Untouched := by
  obtain ⟨howned, hcancel, -⟩ := task.move_spec hm
  rw [Watched.Untouched, howned, hcancel]
  exact h

theorem Watched.Awaited.move (h : task.Awaited wait cancelled) (hm : task.move mv = some task') :
    task'.Awaited wait cancelled := by
  obtain ⟨howned, -⟩ := task.move_spec hm
  exact ⟨fun clause pendingCancel hwait => howned ▸ h.own clause pendingCancel hwait, h.cancelled⟩

theorem WaitStep.untouched (h : WaitStep task wait m task' next) (hu : task.Untouched)
    (hw : task.Awaited wait cancelled) : task'.Untouched := by
  cases h with
  | fired _ howned | interrupted howned =>
    intro hother
    simp [Watched.cancel, howned] at hother
  | interruptedAgain =>
    intro hother
    simp [Watched.cancel, hw.own _ _ rfl] at hother
  | pendingRaised =>
    split
    · exact hu
    · exact hu
  | abandoned | tookCancelled | tookException | tookResult | deserted | reraised
  | drainedCancelled | drainedException | drainedResult => exact hu

theorem WaitStep.awaited (h : WaitStep task wait m task' (.inl wait'))
    (hw : task.Awaited wait cancelled) : task'.Awaited wait' (cancelled ∨ m.IsCancel) := by
  cases h with
  | fired _ howned =>
    refine ⟨fun _ _ _ => howned, fun hc => ?_⟩
    rcases hc with hc | hc
    · exact (hw.cancelled hc).elim
    · exact hc.elim
  | interrupted howned => exact ⟨fun _ _ _ => howned, fun _ => .inl rfl⟩
  | interruptedAgain => exact ⟨fun _ _ _ => hw.own _ _ rfl, fun _ => .inr rfl⟩

theorem Watched.retrieve_settled (hdone : task.state.done = true) : task.retrieve.Settled := by
  intro _
  exact ⟨hdone, fun _ _ => rfl⟩

theorem Watched.settled_of_not_exception (hdone : task.state.done = true)
    (h : ∀ error, task.state ≠ .exception error) : task.Settled := by
  intro _
  exact ⟨hdone, fun error herror => absurd herror (h error)⟩

theorem WaitStep.settled (h : WaitStep task wait m task' (.inr how))
    (hq : task.quiet wait m = true) : task'.Settled := by
  cases h with
  | abandoned _ hother | deserted hother =>
    intro howned
    rw [hother] at howned
    cases howned
  | tookCancelled hstate | drainedCancelled hstate =>
    apply Watched.settled_of_not_exception
    · rw [hstate]; rfl
    · intro error herror
      rw [hstate] at herror
      cases herror
  | tookException hstate | tookResult hstate | drainedException hstate | drainedResult hstate =>
    apply Watched.retrieve_settled
    rw [hstate]; rfl
  | pendingRaised hdone =>
    split
    next hcancelled =>
      apply Watched.settled_of_not_exception hdone
      intro error herror
      simp [herror, Task.isCancelled] at hcancelled
    next => exact Watched.retrieve_settled hdone
  | reraised hdone =>
    refine fun _ => ⟨hdone, fun error herror => ?_⟩
    simpa [Watched.quiet, herror, Task.isException] using hq

theorem WaitStep.reraises (h : WaitStep task wait m task' (.inr how))
    (hw : task.Awaited wait cancelled) (hc : cancelled ∨ m.IsCancel) : how = .cancelled := by
  cases h with
  | deserted | pendingRaised | reraised | tookCancelled => rfl
  | abandoned | tookException | tookResult =>
    rcases hc with hc | hc
    · exact (hw.cancelled hc).elim
    · exact hc.elim
  | drainedCancelled | drainedException | drainedResult =>
    rcases hc with hc | hc
    · rcases hw.cancelled hc with hclause | hpending
      · cases hclause
      · cases hpending
    · exact hc.elim

end

-- ---------------------------------------------------------------------------
-- wait_until
-- ---------------------------------------------------------------------------

namespace Poll

def ended? (s : Poll) : Option (Ending Unit) :=
  match s.phase with
  | .ended how => some how
  | .top | .awaiting _ | .sleeping _ => none

def behind (s : Poll) : List (Watched (PyResult Bool)) :=
  match s.phase with
  | .awaiting _ => s.tasks.tail
  | .top | .sleeping _ | .ended _ => s.tasks

def quiet (s : Poll) : PollAction → Bool
  | .wait m =>
    match s.phase, s.tasks with
    | .awaiting wait, task :: _ => task.quiet wait m
    | _, _ => true
  | .evaluate _ | .slept _ | .interrupt _ | .task .. => true

inductive Step (bounds : Bounds) (s : Poll) : PollAction → Poll → List PollEvent → Prop
  | evaluate : s.phase = .top →
      Step bounds s (.evaluate outcome) (s.evaluated bounds outcome) [.evaluated s.now outcome]
  | goesOn : s.phase = .awaiting wait → s.tasks = task :: older → 0 ≤ m.elapsed →
      task.begun = true → WaitStep task wait m task' (.inl wait') →
      Step bounds s (.wait m)
        { s.pass m.elapsed with tasks := task' :: older, phase := .awaiting wait' }
        (m.events .cancelled)
  | leaves : s.phase = .awaiting wait → s.tasks = task :: older → 0 ≤ m.elapsed →
      task.begun = true → WaitStep task wait m task' (.inr how) →
      Step bounds s (.wait m) (waited bounds { s.pass m.elapsed with tasks := task' :: older } how)
        (m.events .cancelled ++ foundEvents (s.now + m.elapsed) task.state m)
  | slept {elapsed : ℚ} : s.phase = .sleeping delay → 0 ≤ elapsed → delay ≤ (elapsed : Seconds) →
      Step bounds s (.slept elapsed) { s.pass elapsed with phase := .top }
        [.slept (s.now + elapsed)]
  | interrupted : s.phase = .sleeping delay → 0 ≤ elapsed →
      Step bounds s (.interrupt elapsed) ((s.pass elapsed).ending .cancelled) [.cancelled]
  | moved : s.phase ≠ .top → s.tasks[index]? = some task → task.move mv = some task' →
      Step bounds s (.task index mv) { s with tasks := s.tasks.set index task' } []

variable {bounds : Bounds} {s s' : Poll} {a : PollAction} {evs log : List PollEvent}

theorem step_cases (h : step bounds s a = some (s', evs)) : Step bounds s a s' evs := by
  cases a with
  | evaluate outcome =>
    simp only [step] at h
    split at h
    next htop =>
      obtain ⟨rfl, rfl⟩ := Prod.ext_iff.mp (Option.some.inj h)
      exact .evaluate htop
    next => cases h
  | wait m =>
    simp only [step] at h
    split at h
    next wait task older hphase htasks =>
      split at h
      next task' next hwait =>
        obtain ⟨helapsed, hbegun, hstep⟩ := Watched.wait_step hwait
        split at h
        · obtain ⟨rfl, rfl⟩ := Prod.ext_iff.mp (Option.some.inj h)
          exact .goesOn hphase htasks helapsed hbegun hstep
        · obtain ⟨rfl, rfl⟩ := Prod.ext_iff.mp (Option.some.inj h)
          exact .leaves hphase htasks helapsed hbegun hstep
      next => cases h
    next => cases h
  | slept elapsed =>
    simp only [step] at h
    split at h
    next delay hphase =>
      obtain ⟨⟨helapsed, hdelay⟩, h⟩ := Option.ite_none_right_eq_some.mp h
      obtain ⟨rfl, rfl⟩ := Prod.ext_iff.mp (Option.some.inj h)
      exact .slept hphase helapsed hdelay
    next => cases h
  | interrupt elapsed =>
    simp only [step] at h
    split at h
    next delay hphase =>
      obtain ⟨helapsed, h⟩ := Option.ite_none_right_eq_some.mp h
      obtain ⟨rfl, rfl⟩ := Prod.ext_iff.mp (Option.some.inj h)
      exact .interrupted hphase helapsed
    next => cases h
  | task index mv =>
    simp only [step] at h
    split at h
    next => cases h
    next task htask htop =>
      obtain ⟨task', hmove, h⟩ := Option.map_eq_some_iff.mp h
      obtain ⟨rfl, rfl⟩ := Prod.ext_iff.mp h
      exact .moved (fun hphase => htop hphase) htask hmove
    next => cases h

theorem judge_behind (bounds : Bounds) (s : Poll) (truth : PyResult Bool) :
    (s.judge bounds truth).tasks = s.tasks ∧
      ∀ wait, (s.judge bounds truth).phase ≠ .awaiting wait := by
  unfold judge
  split
  · exact ⟨rfl, fun _ h => by cases h⟩
  · exact ⟨rfl, fun _ h => by cases h⟩
  · simp only
    split
    · exact ⟨rfl, fun _ h => by cases h⟩
    · exact ⟨rfl, fun _ h => by cases h⟩

theorem waited_behind (bounds : Bounds) (s : Poll) (how : WaitEnd (PyResult Bool)) :
    (s.waited bounds how).tasks = s.tasks ∧
      ∀ wait, (s.waited bounds how).phase ≠ .awaiting wait := by
  unfold waited
  split
  · exact judge_behind bounds s _
  all_goals exact ⟨rfl, fun _ h => by cases h⟩

theorem evaluated_cases (bounds : Bounds) (s : Poll) (outcome : Evaluated) :
    ((s.evaluated bounds outcome).tasks = s.tasks ∧
      ∀ wait, (s.evaluated bounds outcome).phase ≠ .awaiting wait) ∨
    ∃ task : Watched (PyResult Bool), s.evaluated bounds outcome = s.await task ∧
      task.cancelCalled = false := by
  cases outcome with
  | raised error => exact .inl ⟨rfl, fun _ h => by cases h⟩
  | value truth => exact .inl (judge_behind bounds s truth)
  | coroutine => exact .inr ⟨_, rfl, rfl⟩
  | future state => exact .inr ⟨_, rfl, rfl⟩

theorem behind_eq (h : ∀ wait, s.phase ≠ .awaiting wait) : s.behind = s.tasks := by
  unfold behind
  split
  next wait hphase => exact absurd hphase (h wait)
  next => rfl
  next => rfl
  next => rfl

theorem behind_sub (s : Poll) : ∀ task ∈ s.behind, task ∈ s.tasks := by
  intro task hmem
  unfold behind at hmem
  split at hmem
  · exact List.mem_of_mem_tail hmem
  · exact hmem
  · exact hmem
  · exact hmem

theorem behind_awaiting (hphase : s.phase = .awaiting wait) : s.behind = s.tasks.tail := by
  simp [behind, hphase]

structure Quiesced (s : Poll) (log : List PollEvent) : Prop where
  untouched : ∀ task ∈ s.tasks, task.Untouched
  behind : ∀ task ∈ s.behind, task.Settled
  awaited : ∀ wait, s.phase = .awaiting wait → ∃ task older, s.tasks = task :: older ∧
    task.Awaited wait (.cancelled ∈ log)
  cancelled : .cancelled ∈ log → (∃ wait, s.phase = .awaiting wait) ∨ s.phase = .ended .cancelled

theorem Quiesced.leavesNothing (h : Quiesced s log) :
    LeavesNothing s.tasks s.ended? (.cancelled ∈ log) where
  settled hended task hmem := by
    apply h.behind task
    rwa [behind_eq]
    intro wait hphase
    simp [ended?, hphase] at hended
  untouched := h.untouched
  reraised hc how hended := by
    rcases h.cancelled hc with ⟨wait, hphase⟩ | hphase
    · simp [ended?, hphase] at hended
    · rw [ended?, hphase] at hended
      exact (Option.some.inj hended).symm

theorem Quiesced.not_cancelled (h : Quiesced s log) (hawait : ∀ wait, s.phase ≠ .awaiting wait)
    (hended : ∀ how, s.phase ≠ .ended how) : .cancelled ∉ log := by
  intro hc
  rcases h.cancelled hc with ⟨wait, hphase⟩ | hphase
  · exact hawait wait hphase
  · exact hended _ hphase

theorem Quiesced.of_behind (hu : ∀ task ∈ s.tasks, task.Untouched)
    (hb : ∀ task ∈ s.tasks, task.Settled) (hawait : ∀ wait, s.phase ≠ .awaiting wait)
    (hc : .cancelled ∈ log → s.phase = .ended .cancelled) : Quiesced s log where
  untouched := hu
  behind task hmem := hb task (behind_sub s task hmem)
  awaited wait hphase := absurd hphase (hawait wait)
  cancelled h := .inr (hc h)

theorem Quiesced.evaluate (h : Quiesced s log) (htop : s.phase = .top) (outcome : Evaluated) :
    Quiesced (s.evaluated bounds outcome) (log ++ [.evaluated s.now outcome]) := by
  have hawait : ∀ wait, s.phase ≠ .awaiting wait := by simp [htop]
  have hbehind : ∀ task ∈ s.tasks, task.Settled := behind_eq hawait ▸ h.behind
  have hnot : .cancelled ∉ log ++ [PollEvent.evaluated s.now outcome] := by
    simpa using h.not_cancelled hawait (by simp [htop])
  rcases evaluated_cases bounds s outcome with ⟨htasks, hover⟩ | ⟨task, heq, huncancelled⟩
  · apply Quiesced.of_behind
    · rw [htasks]
      exact h.untouched
    · rw [htasks]
      exact hbehind
    · exact hover
    · exact fun hc => absurd hc hnot
  · rw [heq]
    refine ⟨fun other hmem => ?_, ?_, fun wait hphase => ?_, fun hc => absurd hc hnot⟩
    · rcases List.mem_cons.mp hmem with rfl | hmem
      · exact fun _ => huncancelled
      · exact h.untouched other hmem
    · rw [behind_awaiting rfl]
      exact hbehind
    · refine ⟨task, s.tasks, rfl, ?_, fun hc => absurd hc hnot⟩
      rintro clause pendingCancel rfl
      cases hphase

theorem not_mem_foundEvents (now : ℚ) (task : Task PyErr (PyResult Bool)) (m : WaitMove) :
    PollEvent.cancelled ∉ foundEvents now task m := by
  cases m <;> simp [foundEvents]

theorem Quiesced.goesOn (h : Quiesced s log) (hphase : s.phase = .awaiting wait)
    (htasks : s.tasks = task :: older) (hw : WaitStep task wait m task' (.inl wait')) :
    Quiesced { s.pass m.elapsed with tasks := task' :: older, phase := .awaiting wait' }
      (log ++ m.events .cancelled) := by
  obtain ⟨_, _, heq, hawaited⟩ := h.awaited wait hphase
  obtain ⟨rfl, rfl⟩ := List.cons.inj (htasks.symm.trans heq)
  refine ⟨fun other hmem => ?_, ?_, fun wait hphase' => ?_, fun _ => .inl ⟨wait', rfl⟩⟩
  · rcases List.mem_cons.mp hmem with rfl | hmem
    · exact hw.untouched (h.untouched _ (by simp [htasks])) hawaited
    · exact h.untouched other (by simp [htasks, hmem])
  · have hbehind := h.behind
    rw [behind_awaiting hphase, htasks] at hbehind
    rw [behind_awaiting rfl]
    exact hbehind
  · obtain rfl := PollPhase.awaiting.inj hphase'
    refine ⟨task', older, rfl, ?_⟩
    simpa [WaitMove.mem_events] using hw.awaited hawaited

theorem Quiesced.leaves (h : Quiesced s log) (hphase : s.phase = .awaiting wait)
    (htasks : s.tasks = task :: older) (hw : WaitStep task wait m task' (.inr how))
    (hq : task.quiet wait m = true) :
    Quiesced (waited bounds { s.pass m.elapsed with tasks := task' :: older } how)
      (log ++ (m.events .cancelled ++ foundEvents (s.now + m.elapsed) task.state m)) := by
  obtain ⟨_, _, heq, hawaited⟩ := h.awaited wait hphase
  obtain ⟨rfl, rfl⟩ := List.cons.inj (htasks.symm.trans heq)
  obtain ⟨htasks', hover⟩ :=
    waited_behind bounds { s.pass m.elapsed with tasks := task' :: older } how
  have hbehind := h.behind
  rw [behind_awaiting hphase, htasks] at hbehind
  apply Quiesced.of_behind
  · rw [htasks']
    intro other hmem
    rcases List.mem_cons.mp hmem with rfl | hmem
    · exact hw.untouched (h.untouched _ (by simp [htasks])) hawaited
    · exact h.untouched other (by simp [htasks, hmem])
  · rw [htasks']
    intro other hmem
    rcases List.mem_cons.mp hmem with rfl | hmem
    · exact hw.settled hq
    · exact hbehind other hmem
  · exact hover
  · intro hc
    have hcause : .cancelled ∈ log ∨ m.IsCancel := by
      simpa [WaitMove.mem_events, not_mem_foundEvents] using hc
    obtain rfl := hw.reraises hawaited hcause
    rfl

theorem behind_set {P : Watched (PyResult Bool) → Prop} (hb : ∀ task ∈ s.behind, P task)
    (htask : s.tasks[index]? = some task) (hp : P task → P task') :
    ∀ other ∈ behind { s with tasks := s.tasks.set index task' }, P other := by
  intro other hmem
  by_cases hawait : ∃ wait, s.phase = .awaiting wait
  · obtain ⟨wait, hphase⟩ := hawait
    rw [behind_awaiting hphase] at hb
    rw [behind_awaiting (s := { s with tasks := s.tasks.set index task' }) hphase] at hmem
    cases htasks : s.tasks with
    | nil => simp [htasks] at htask
    | cons first older =>
      rw [htasks] at hb hmem htask
      cases index with
      | zero => exact hb other hmem
      | succ index =>
        rcases List.mem_or_eq_of_mem_set hmem with hmem | rfl
        · exact hb other hmem
        · exact hp (hb task (List.mem_of_getElem? htask))
  · have hnone : ∀ wait, s.phase ≠ .awaiting wait := fun wait hphase => hawait ⟨wait, hphase⟩
    rw [behind_eq hnone] at hb
    rw [behind_eq (s := { s with tasks := s.tasks.set index task' }) hnone] at hmem
    rcases List.mem_or_eq_of_mem_set hmem with hmem | rfl
    · exact hb other hmem
    · exact hp (hb task (List.mem_of_getElem? htask))

theorem head_set {tasks : List (Watched (PyResult Bool))} (htasks : tasks = first :: older)
    (htask : tasks[index]? = some task) (task' : Watched (PyResult Bool)) :
    ∃ first' older', tasks.set index task' = first' :: older' ∧
      (first' = first ∨ first = task ∧ first' = task') := by
  subst htasks
  cases index with
  | zero =>
    obtain rfl : first = task := by simpa using htask
    exact ⟨task', older, rfl, .inr ⟨rfl, rfl⟩⟩
  | succ index => exact ⟨first, older.set index task', rfl, .inl rfl⟩

theorem Quiesced.moved (h : Quiesced s log) (htask : s.tasks[index]? = some task)
    (hm : task.move mv = some task') :
    Quiesced { s with tasks := s.tasks.set index task' } (log ++ []) := by
  rw [List.append_nil]
  refine ⟨fun other hmem => ?_, ?_, fun wait hphase => ?_, h.cancelled⟩
  · rcases List.mem_or_eq_of_mem_set hmem with hmem | rfl
    · exact h.untouched other hmem
    · exact (h.untouched _ (List.mem_of_getElem? htask)).move hm
  · exact behind_set h.behind htask fun hsettled => hsettled.move hm
  · obtain ⟨first, older, htasks, hawaited⟩ := h.awaited wait hphase
    obtain ⟨first', older', hset, rfl | ⟨rfl, rfl⟩⟩ := head_set htasks htask task'
    · exact ⟨_, _, hset, hawaited⟩
    · exact ⟨_, _, hset, hawaited.move hm⟩

theorem Quiesced.step (h : Quiesced s log) (hq : s.quiet a = true)
    (hs : Poll.step bounds s a = some (s', evs)) : Quiesced s' (log ++ evs) := by
  cases step_cases hs with
  | evaluate htop => exact h.evaluate htop _
  | goesOn hphase htasks _ _ hw => exact h.goesOn hphase htasks hw
  | leaves hphase htasks _ _ hw =>
    simp only [quiet, hphase, htasks] at hq
    exact h.leaves hphase htasks hw hq
  | slept hphase =>
    have hnot := h.not_cancelled (by simp [hphase]) (by simp [hphase])
    have hbehind := h.behind
    rw [behind_eq (by simp [hphase])] at hbehind
    apply Quiesced.of_behind
    · exact h.untouched
    · exact hbehind
    · intro wait hnext
      cases hnext
    · intro hc
      exact absurd (by simpa using hc) hnot
  | interrupted hphase =>
    have hbehind := h.behind
    rw [behind_eq (by simp [hphase])] at hbehind
    apply Quiesced.of_behind
    · exact h.untouched
    · exact hbehind
    · intro wait hnext
      cases hnext
    · exact fun _ => rfl
  | moved _ htask hm => exact h.moved htask hm

theorem quiesced (h : (machine bounds start).Reach (fun s a => s.quiet a = true) s log) :
    Quiesced s log := by
  apply h.invariant
  · apply Quiesced.of_behind
    · simp [machine, new]
    · simp [machine, new]
    · simp [machine, new]
    · simp
  · intro s log a s' evs hs hq hstep
    exact hs.step hq hstep

end Poll

-- ---------------------------------------------------------------------------
-- wait_for_line
-- ---------------------------------------------------------------------------

namespace Scan

variable {ι : Type} {predicate : ι → PyResult Bool} {s s' : Scan ι} {a : ScanAction ι}
variable {log evs : List ScanEvent}

def ended? (s : Scan ι) : Option (Ending ι) :=
  match s.phase with
  | .ended how => some how
  | .awaiting _ => none

def quiet (s : Scan ι) : ScanAction ι → Bool
  | .wait m =>
    match s.phase with
    | .awaiting wait => s.task.quiet wait m
    | .ended _ => true
  | .begin | .advance _ => true

structure Quiesced (s : Scan ι) (log : List ScanEvent) : Prop where
  untouched : s.task.Untouched
  settled : s.ended?.isSome = true → s.task.Settled
  awaited : ∀ wait, s.phase = .awaiting wait → s.task.Awaited wait (.cancelled ∈ log)
  cancelled : ∀ how, s.phase = .ended how → .cancelled ∈ log → how = .cancelled

theorem Quiesced.leavesNothing (h : Quiesced s log) :
    LeavesNothing [s.task] s.ended? (.cancelled ∈ log) where
  settled hended task hmem := by
    obtain rfl := List.mem_singleton.mp hmem
    exact h.settled hended
  untouched task hmem := by
    obtain rfl := List.mem_singleton.mp hmem
    exact h.untouched
  reraised hc how hended := by
    cases hphase : s.phase with
    | awaiting wait => simp [ended?, hphase] at hended
    | ended how' =>
      obtain rfl : how' = how := by simpa [ended?, hphase] using hended
      exact h.cancelled how' hphase hc

theorem Quiesced.woken {wait : Wait} (h : Quiesced s log) (timeout : Seconds)
    (hphase : s.phase = .awaiting wait)
    (hw : WaitStep s.task wait m task' next) (hq : s.task.quiet wait m = true) :
    Quiesced (match next with
      | .inl wait => ⟨task', .awaiting wait⟩
      | .inr how => ⟨task', .ended (waited timeout how)⟩) (log ++ m.events .cancelled) := by
  have hawaited := h.awaited wait hphase
  have huntouched := hw.untouched h.untouched hawaited
  cases next with
  | inl wait' =>
    refine ⟨huntouched, fun hended => ?_, fun wait hphase' => ?_, fun how hended => ?_⟩
    · simp [ended?] at hended
    · obtain rfl := ScanPhase.awaiting.inj hphase'
      simpa [WaitMove.mem_events] using hw.awaited hawaited
    · cases hended
  | inr how =>
    refine ⟨huntouched, fun _ => hw.settled hq, fun wait hphase' => ?_, fun _ hended hc => ?_⟩
    · cases hphase'
    · have hcause : .cancelled ∈ log ∨ m.IsCancel := by simpa [WaitMove.mem_events] using hc
      obtain rfl := hw.reraises hawaited hcause
      exact (ScanPhase.ended.inj hended).symm

theorem Quiesced.moved (h : Quiesced s log) (hm : s.task.move mv = some task') :
    Quiesced { s with task := task' } (log ++ []) := by
  rw [List.append_nil]
  exact ⟨h.untouched.move hm, fun hended => (h.settled hended).move hm,
    fun wait hphase => (h.awaited wait hphase).move hm, h.cancelled⟩

theorem Quiesced.step (h : Quiesced s log) (hq : s.quiet a = true)
    (hs : Scan.step predicate timeout s a = some (s', evs)) : Quiesced s' (log ++ evs) := by
  cases a with
  | wait m =>
    simp only [Scan.step] at hs
    split at hs
    next wait hphase =>
      obtain ⟨⟨task', next⟩, hwait, hs⟩ := Option.map_eq_some_iff.mp hs
      simp only [quiet, hphase] at hq
      have hleft := h.woken timeout hphase (Watched.wait_step hwait).2.2 hq
      cases next with
      | inl wait' =>
        obtain ⟨rfl, rfl⟩ := Prod.ext_iff.mp hs
        exact hleft
      | inr how =>
        obtain ⟨rfl, rfl⟩ := Prod.ext_iff.mp hs
        exact hleft
    next => cases hs
  | begin =>
    obtain ⟨task', hm, hs⟩ := Option.map_eq_some_iff.mp hs
    obtain ⟨rfl, rfl⟩ := Prod.ext_iff.mp hs
    exact h.moved hm
  | advance next =>
    obtain ⟨task', hm, hs⟩ := Option.map_eq_some_iff.mp hs
    obtain ⟨rfl, rfl⟩ := Prod.ext_iff.mp hs
    exact h.moved hm

theorem quiesced (h : (machine predicate timeout).Reach (fun s a => s.quiet a = true) s log) :
    Quiesced s log := by
  apply h.invariant
  · refine ⟨fun hown => ?_, fun hended => ?_, fun wait hphase => ?_, fun how hended => ?_⟩
    · cases hown
    · cases hended
    · obtain rfl := ScanPhase.awaiting.inj hphase
      refine ⟨fun _ _ hwait => ?_, fun hc => ?_⟩
      · cases hwait
      · cases hc
    · cases hended
  · intro s log a s' evs hs hq hstep
    exact hs.step hq hstep

end Scan

/-- `wait_until` and `wait_for_line` leave every task they made done and its exception
retrieved, as long as no clause raises the caller's cancellation again over one. -/
theorem waits_leave_nothing {ι : Type} (bounds : Bounds) (start : ℚ)
    (predicate : ι → PyResult Bool) (timeout : { timeout : Seconds // 0 ≤ timeout }) :
    (∀ s log, (Poll.machine bounds start).Reach (fun s a => s.quiet a = true) s log →
      LeavesNothing s.tasks s.ended? (.cancelled ∈ log)) ∧
    ∀ s log, (Scan.machine predicate timeout).Reach (fun s a => s.quiet a = true) s log →
      LeavesNothing [s.task] s.ended? (.cancelled ∈ log) := by
  constructor
  · intro s log hr
    exact (Poll.quiesced hr).leavesNothing
  · intro s log hr
    exact (Scan.quiesced hr).leavesNothing

/-- The deadline is over, the caller is cancelled in the drain, and the task ends with an
exception of its own. -/
def cancelledInDrain : List PollAction :=
  [.evaluate .coroutine, .task 0 .begin, .wait (.wake 1), .wait (.cancel 1),
    .task 0 (.finish (.exception ⟨"ValueError", "cleanup failed"⟩)), .wait (.drained 0)]

theorem waits_leave_nothing_in_drain :
    (∃ (s : Poll) (log : List PollEvent), LeavesNothing s.tasks s.ended? (.cancelled ∈ log) ∧
      s.ended? = some .cancelled ∧ s.tasks.map (·.retrieved) = [true]) ∧
    ∃ (s : Scan PyStr) (log : List ScanEvent),
      LeavesNothing [s.task] s.ended? (.cancelled ∈ log) ∧
        s.ended? = some (.returned (Python.lit "READY now")) := by
  constructor
  · obtain ⟨s, log, hr, hs⟩ := Transition.Machine.reach_replay
      (m := (Poll.machine oneSecond 0).guarded Poll.quiet) cancelledInDrain
      (fun s _ => (s.ended?, s.tasks.map (·.retrieved))) (b := (some .cancelled, [true]))
      (fun _ _ _ => trivial) (by decide +kernel)
    have hquiet :=
      (waits_leave_nothing oneSecond 0 (contains (Python.lit "READY")) ⟨0, le_refl 0⟩).1 s log
      (hr.of_guarded fun _ _ h => h)
    obtain ⟨hended, hretrieved⟩ := Prod.mk.inj hs
    exact ⟨s, log, hquiet, hended, hretrieved⟩
  · obtain ⟨s, log, hr, hended⟩ := Transition.Machine.reach_replay
      (m := (Scan.machine (contains (Python.lit "READY")) ⟨0, le_refl 0⟩).guarded Scan.quiet)
      [.begin, .advance (.item (Python.lit "READY now")), .wait (.wake 0)]
      (fun s _ => s.ended?) (b := some (.returned (Python.lit "READY now")))
      (fun _ _ _ => trivial) (by decide +kernel)
    have hquiet :=
      (waits_leave_nothing oneSecond 0 (contains (Python.lit "READY")) ⟨0, le_refl 0⟩).2 s log
      (hr.of_guarded fun _ _ h => h)
    exact ⟨s, log, hquiet, hended⟩

/-- The caller is cancelled, and the task ends in the drain with an exception of its own.
Nobody asks for the exception, in `wait_until` and in `wait_for_line`. -/
theorem exception_never_retrieved :
    (∃ s log, (Poll.machine oneSecond 0).Reachable s log ∧
      ¬ LeavesNothing s.tasks s.ended? (.cancelled ∈ log)) ∧
    ∃ s log, (Scan.machine (contains (Python.lit "READY")) ⟨0, le_refl 0⟩).Reachable s log ∧
      ¬ LeavesNothing [s.task] s.ended? (.cancelled ∈ log) := by
  constructor
  · obtain ⟨s, log, hr, hs⟩ := Transition.Machine.reach_replay (m := Poll.machine oneSecond 0)
      [.evaluate .coroutine, .task 0 .begin, .wait (.cancel 0),
        .task 0 (.finish (.exception ⟨"ValueError", "cleanup failed"⟩)), .wait (.drained 0)]
      (fun s _ => (s.ended?, s.tasks)) (b := (some .cancelled,
        [⟨true, true, .exception ⟨"ValueError", "cleanup failed"⟩, true, false⟩]))
      (fun _ _ _ => trivial) (by decide +kernel)
    obtain ⟨hended, htasks⟩ := Prod.mk.inj hs
    refine ⟨s, log, hr, fun h => ?_⟩
    have hsettled := h.settled (by rw [hended]; rfl) _
      (by rw [htasks]; exact List.mem_singleton_self _)
    cases (hsettled rfl).2 _ rfl
  · obtain ⟨s, log, hr, hs⟩ := Transition.Machine.reach_replay
      (m := Scan.machine (contains (Python.lit "READY")) ⟨0, le_refl 0⟩)
      [.begin, .wait (.cancel 0), .advance .exhausted, .wait (.drained 0)]
      (fun s _ => (s.ended?, s.task)) (b := (some .cancelled, ⟨true, true, .exception
        (ProcessError.newErr "the output stream ended before a matching line"), true, false⟩))
      (fun _ _ _ => trivial) (by decide +kernel)
    obtain ⟨hended, htask⟩ := Prod.mk.inj hs
    refine ⟨s, log, hr, fun h => ?_⟩
    have hsettled := h.settled (by rw [hended]; rfl) _ (List.mem_singleton_self _)
    rw [htask] at hsettled
    cases (hsettled rfl).2 _ rfl

end ProcessKit.Aio

import ProcessKit.Aio.Retry

/-!
# Closing the connections of a probe

An attempt of `wait_for_port` or `wait_for_unix_socket` is a task, and the connection
it obtains is its result. While `wait_for` awaits the task, the driver is to close
that connection; after that `_accept_connection` closes it, or `_settle_probe`, now or
in a callback of a task that is not done yet.

What `wait_for` raises when it is cut short, and in which state it leaves the task,
differs between the versions of Python. Here it may raise a `TimeoutError` or be
cancelled in every state of the task.
-/

namespace ProcessKit.Aio

open ProcessKit.Runtime (PyErr PyResult)

-- ---------------------------------------------------------------------------
-- How the awaits end
-- ---------------------------------------------------------------------------

def acceptConnection (sub : Subclasses) : Except PyErr Unit → Verdict PyErr
  | .ok () => .accepts
  | .error error => if sub.osError error then .accepts else .raises error

/-- `_retry_probe`'s `wait_for` may end so. -/
def Waited.Fits (cfg : Retry ε ρ) (task : Task ε ρ) : Waited ε ρ → Prop
  | .returned result => task = .result result
  | .raised error => task = .exception error ∨ cfg.isTimeout error = true
  | .cancelled => True

instance [DecidableEq ε] [DecidableEq ρ] (cfg : Retry ε ρ) (task : Task ε ρ) :
    (w : Waited ε ρ) → Decidable (w.Fits cfg task)
  | .returned result => inferInstanceAs (Decidable (task = .result result))
  | .raised error =>
    inferInstanceAs (Decidable (task = .exception error ∨ cfg.isTimeout error = true))
  | .cancelled => inferInstanceAs (Decidable True)

-- ---------------------------------------------------------------------------
-- The helper and its tasks
-- ---------------------------------------------------------------------------

/-- The task of an attempt. `callback` is the one `_settle_probe` adds. -/
structure ProbeTask where
  task : Task PyErr Nat
  cancelRequested : Bool
  callback : Bool
  deriving DecidableEq

def ProbeTask.new : ProbeTask := ⟨.running, false, false⟩

inductive Completion
  | connected
  | failed (error : PyErr)
  | cancelled

/-- The connection that attempt `k` obtains is number `k`. -/
def Completion.task (k : Nat) : Completion → Task PyErr Nat
  | .connected => .result k
  | .failed error => .exception error
  | .cancelled => .cancelled

inductive ConnectionEvent
  | closed (connection : Nat)
  deriving DecidableEq

/-- `_settle_probe` with `_close_connection_now`. -/
def ProbeTask.settle (probe : ProbeTask) : Settled Nat → ProbeTask × List ConnectionEvent
  | .cancel => ({ probe with cancelRequested := true, callback := true }, [])
  | .nothing => (probe, [])
  | .cleanup connection => (probe, [.closed connection])

structure Helper where
  driver : Driver PyErr Nat
  probes : List ProbeTask

/-- `wake` ends `wait_for`, `accepted` ends `wait_closed`. `cancel` is the caller's, in
an evaluation or a sleep; in an attempt it is a `wake`. -/
inductive HelperAction
  | turn
  | complete (k : Nat) (completion : Completion)
  | wake (elapsed : ℚ) (w : Waited PyErr Nat)
  | accepted (elapsed : ℚ) (outcome : Except PyErr Unit)
  | slept (elapsed : ℚ)
  | cancel (elapsed : ℚ)
  | callback (k : Nat)

namespace Helper

variable (sub : Subclasses) (bounds : Bounds)

def new (start : ℚ) : Helper := ⟨.new (connectionRetry sub bounds) start, []⟩

/-- The attempt under `wait_for`, which is the last one made. -/
def awaited (s : Helper) : Option Nat :=
  match s.driver.phase with
  | .waiting _ => some (s.probes.length - 1)
  | _ => none

def turn (s : Helper) (firstAttempt : Bool) : Helper :=
  let driver := (s.driver.attempt (connectionRetry sub bounds) firstAttempt).1
  match driver.phase with
  | .waiting _ => ⟨driver, s.probes ++ [.new]⟩
  | _ => { s with driver }

/-- The clauses around `wait_for`. `_accept_connection` closes before it awaits. -/
def waited (s : Helper) (k : Nat) (probe : ProbeTask) (elapsed : ℚ) (w : Waited PyErr Nat) :
    Helper × List ConnectionEvent :=
  let cfg := connectionRetry sub bounds
  let driver := (s.driver.pass elapsed).waited cfg probe.task w
  match cfg.afterWait probe.task w with
  | .evaluate connection => ({ s with driver }, [.closed connection])
  | .nothing | .raised _ => ({ s with driver }, [])
  | .again _ settled | .cancelled settled =>
    let (probe, evs) := probe.settle settled
    (⟨driver, s.probes.set k probe⟩, evs)

def drive (s : Helper) (a : Action PyErr Nat) : Option (Helper × List ConnectionEvent) :=
  match s.driver.phase with
  | .evaluating _ | .sleeping _ =>
    (s.driver.step (connectionRetry sub bounds) a).map fun r => ({ s with driver := r.1 }, [])
  | _ => none

def step (s : Helper) : HelperAction → Option (Helper × List ConnectionEvent)
  | .turn =>
    match s.driver.phase with
    | .top firstAttempt => some (s.turn sub bounds firstAttempt, [])
    | _ => none
  | .complete k completion =>
    match s.probes[k]? with
    | some probe =>
      if probe.task = .running then
        some ({ s with probes := s.probes.set k { probe with task := completion.task k } }, [])
      else none
    | none => none
  | .wake elapsed w =>
    match s.awaited with
    | some k =>
      match s.probes[k]? with
      | some probe =>
        if 0 ≤ elapsed ∧ w.Fits (connectionRetry sub bounds) probe.task then
          some (s.waited sub bounds k probe elapsed w)
        else none
      | none => none
    | none => none
  | .accepted elapsed outcome => s.drive sub bounds (.judge elapsed (acceptConnection sub outcome))
  | .slept elapsed => s.drive sub bounds (.slept elapsed)
  | .cancel elapsed => s.drive sub bounds (.cancel elapsed .cancelled)
  | .callback k =>
    match s.probes[k]? with
    | some probe =>
      if probe.callback = true ∧ probe.task ≠ .running then
        let (probe, evs) := { probe with callback := false }.settle (settleProbe probe.task)
        some ({ s with probes := s.probes.set k probe }, evs)
      else none
    | none => none

def machine (start : ℚ) : Transition.Machine Helper HelperAction ConnectionEvent where
  init := .new sub bounds start
  step := step sub bounds

end Helper

/-- A run of the coroutine, where the arguments are accepted. -/
def waitForPort (sub : Subclasses) (timeout interval : PyFloat) (start : ℚ) :
    PyResult (Transition.Machine Helper HelperAction ConnectionEvent) := do
  let bounds ← validateProbeRetry timeout interval
  return Helper.machine sub bounds start

def unsupportedUnix : PyErr :=
  ⟨"Unsupported", "Unix-domain sockets are not supported on this platform"⟩

/-- `supported` is `socket.AF_UNIX` and `asyncio.open_unix_connection` together. -/
def waitForUnixSocket (sub : Subclasses) (supported : Bool) (timeout interval : PyFloat)
    (start : ℚ) : PyResult (Transition.Machine Helper HelperAction ConnectionEvent) := do
  if supported then
    let bounds ← validateProbeRetry timeout interval
    return Helper.machine sub bounds start
  else .error unsupportedUnix

-- ---------------------------------------------------------------------------
-- Who is to close a connection
-- ---------------------------------------------------------------------------

/-- Who has attempt `k`, and how often its connection was closed. `held` is that the
attempt is under `wait_for`. -/
inductive Owner (k : Nat) (held : Prop) : Option ProbeTask → Nat → Prop
  | unmade : ¬ held → Owner k held none 0
  | driver : held → (∀ c, task = .result c → c = k) → Owner k held (some ⟨task, requested, false⟩) 0
  | callback : ¬ held → (∀ c, task = .result c → c = k) → Owner k held (some ⟨task, true, true⟩) 0
  | nobody : ¬ held → task ≠ .running → (∀ c, task ≠ .result c) →
      Owner k held (some ⟨task, requested, false⟩) 0
  | closed : ¬ held → Owner k held (some ⟨.result k, requested, false⟩) 1

def Owned (s : Helper) (log : List ConnectionEvent) : Prop :=
  ∀ k, Owner k (s.awaited = some k) s.probes[k]? (log.count (.closed k))

structure Helper.Finished (s : Helper) : Prop where
  driver : ∃ outcome, s.driver.phase = .ended outcome
  probes : ∀ probe ∈ s.probes, probe.task ≠ .running ∧ probe.callback = false

structure ClosesOnce (s : Helper) (log : List ConnectionEvent) : Prop where
  once : ∀ c, log.count (.closed c) ≤ 1
  obtained : ∀ c, .closed c ∈ log → ∃ probe, s.probes[c]? = some probe ∧ probe.task = .result c
  finished : s.Finished → ∀ probe ∈ s.probes, ∀ c, probe.task = .result c →
    log.count (.closed c) = 1
  requested : ∀ outcome, s.driver.phase = .ended outcome → ∀ probe ∈ s.probes,
    probe.task = .running → probe.cancelRequested = true

theorem Helper.awaited_none {s : Helper} (h : ∀ window, s.driver.phase ≠ .waiting window) :
    s.awaited = none := by
  unfold awaited
  split
  · rename_i window hphase
    exact absurd hphase (h window)
  · rfl

theorem Helper.awaited_ended {s : Helper} (h : s.driver.phase = .ended outcome) (k : Nat) :
    ¬ s.awaited = some k := by
  simp [awaited, h]

theorem Owned.mem (h : Owned s log) (hmem : probe ∈ s.probes) :
    ∃ k, s.probes[k]? = some probe ∧
      Owner k (s.awaited = some k) (some probe) (log.count (.closed k)) := by
  obtain ⟨k, hk⟩ := List.mem_iff_getElem?.mp hmem
  exact ⟨k, hk, hk ▸ h k⟩

theorem Owner.once (h : Owner k held probe? n) : n ≤ 1 := by
  cases h <;> simp

theorem Owned.closesOnce (h : Owned s log) : ClosesOnce s log := by
  refine ⟨fun c => (h c).once, fun c hmem => ?_, fun hfin probe hmem c htask => ?_,
    fun outcome hphase probe hmem htask => ?_⟩
  · have hpos : 0 < log.count (.closed c) := List.count_pos_iff.mpr hmem
    have hc := h c
    generalize s.probes[c]? = probe? at hc ⊢
    generalize log.count (.closed c) = n at hc hpos
    cases hc with
    | closed => exact ⟨_, rfl, rfl⟩
    | unmade | driver | callback | nobody => cases hpos
  · obtain ⟨k, -, hk⟩ := h.mem hmem
    obtain ⟨outcome, hphase⟩ := hfin.driver
    obtain ⟨-, hcallback⟩ := hfin.probes probe hmem
    generalize hn : log.count (.closed k) = n at hk
    cases hk with
    | driver hheld => exact absurd hheld (Helper.awaited_ended hphase k)
    | callback => cases hcallback
    | nobody _ _ hnone => exact absurd htask (hnone c)
    | closed =>
      cases htask
      exact hn
  · obtain ⟨k, -, hk⟩ := h.mem hmem
    generalize log.count (.closed k) = n at hk
    cases hk with
    | driver hheld => exact absurd hheld (Helper.awaited_ended hphase k)
    | callback => rfl
    | nobody _ hdone => exact absurd htask hdone
    | closed => cases htask

-- ---------------------------------------------------------------------------
-- The steps
-- ---------------------------------------------------------------------------

theorem Owned.change (h : Owned s log)
    (hat : Owner k (s'.awaited = some k) s'.probes[k]? ((log ++ evs).count (.closed k)))
    (helse : ∀ j, j ≠ k → (s'.awaited = some j ↔ s.awaited = some j) ∧
      s'.probes[j]? = s.probes[j]? ∧ evs.count (.closed j) = 0) : Owned s' (log ++ evs) := by
  intro j
  by_cases hj : j = k
  · rw [hj]
    exact hat
  · obtain ⟨hawaited, hprobe, hcount⟩ := helse j hj
    rw [List.count_append, hcount, Nat.add_zero, hprobe, propext hawaited]
    exact h j

theorem Owned.driven (h : Owned s log) (hs : s.awaited = none)
    (hs' : ({ s with driver } : Helper).awaited = none) : Owned { s with driver } log := by
  intro k
  have hk := h k
  rw [hs] at hk
  rw [hs']
  exact hk

theorem ProbeTask.settle_count (probe : ProbeTask) (htask : ∀ c, probe.task = .result c → c = k)
    (hj : j ≠ k) : (probe.settle (settleProbe probe.task)).2.count (.closed j) = 0 := by
  obtain ⟨task, requested, callback⟩ := probe
  cases task with
  | running | cancelled | exception => rfl
  | result c =>
    obtain rfl := htask c rfl
    simp [settle, settleProbe, Ne.symm hj]

theorem ProbeTask.settle_owner {probe : ProbeTask} (hcallback : probe.callback = false)
    (htask : ∀ c, probe.task = .result c → c = k) (hheld : ¬ held) :
    Owner k held (some (probe.settle (settleProbe probe.task)).1)
      ((probe.settle (settleProbe probe.task)).2.count (.closed k)) := by
  obtain ⟨task, requested, callback⟩ := probe
  cases hcallback
  cases task with
  | running => exact .callback hheld nofun
  | cancelled => exact .nobody hheld nofun nofun
  | exception error => exact .nobody hheld nofun nofun
  | result c =>
    obtain rfl := htask c rfl
    simpa [settle, settleProbe] using Owner.closed hheld

theorem Driver.afterAttempt_phase (cfg : Retry ε ρ) (d : Driver ε ρ) (window : Seconds) :
    (d.afterAttempt cfg).phase ≠ .waiting window := by
  unfold afterAttempt
  by_cases hover : d.deadline.since d.now ≤ 0
  · simp [hover]
  · simp [hover]

theorem Driver.waited_phase (cfg : Retry ε ρ) (d : Driver ε ρ) (task : Task ε ρ) (w : Waited ε ρ)
    (window : Seconds) : (d.waited cfg task w).phase ≠ .waiting window := by
  unfold waited
  split
  · simp
  · exact afterAttempt_phase cfg _ window
  · exact afterAttempt_phase cfg _ window
  · simp
  · simp

theorem Driver.judged_phase (cfg : Retry ε ρ) (d : Driver ε ρ) (verdict : Verdict ε)
    (window : Seconds) : (d.judged cfg verdict).phase ≠ .waiting window := by
  cases verdict with
  | accepts => simp [judged]
  | rejects error => exact afterAttempt_phase cfg _ window
  | raises error => simp [judged]

theorem Driver.step_phase {cfg : Retry ε ρ} {d d' : Driver ε ρ}
    (hturn : ∀ first, d.phase ≠ .top first) (hwaiting : ∀ window, d.phase ≠ .waiting window)
    (hstep : d.step cfg a = some (d', evs))
    (window : Seconds) : d'.phase ≠ .waiting window := by
  cases a with
  | turn =>
    simp only [step] at hstep
    cases hstep
  | wake elapsed fate =>
    simp only [step] at hstep
    cases hstep
  | judge elapsed verdict =>
    simp only [step] at hstep
    split at hstep
    · obtain ⟨-, heq⟩ := Option.ite_none_right_eq_some.mp hstep
      cases heq
      exact judged_phase cfg _ verdict window
    · cases hstep
  | slept elapsed =>
    simp only [step] at hstep
    split at hstep
    · obtain ⟨-, heq⟩ := Option.ite_none_right_eq_some.mp hstep
      cases heq
      simp
    · cases hstep
  | cancel elapsed task =>
    simp only [step] at hstep
    split at hstep
    · rename_i window hphase
      exact absurd hphase (hwaiting window)
    · obtain ⟨-, heq⟩ := Option.ite_none_right_eq_some.mp hstep
      cases heq
      simp
    · obtain ⟨-, heq⟩ := Option.ite_none_right_eq_some.mp hstep
      cases heq
      simp
    · cases hstep

section

variable {sub : Subclasses} {bounds : Bounds} {s s' : Helper} {log evs : List ConnectionEvent}

theorem Owned.turn (h : Owned s log) (hphase : s.driver.phase = .top firstAttempt) :
    Owned (s.turn sub bounds firstAttempt) log := by
  have hs : s.awaited = none := Helper.awaited_none (by simp [hphase])
  simp only [Helper.turn]
  split
  · rename_i window hwaiting
    rw [← log.append_nil]
    refine h.change (k := s.probes.length) ?_ fun j hj => ?_
    · have hlast := h s.probes.length
      rw [List.getElem?_eq_none (Nat.le_refl _)] at hlast
      generalize hn : log.count (.closed s.probes.length) = n at hlast
      cases hlast with
      | unmade =>
        rw [List.append_nil, hn, List.getElem?_concat_length]
        exact .driver (by simp [Helper.awaited, hwaiting]) nofun
    · refine ⟨?_, ?_, rfl⟩
      · simp [Helper.awaited, hphase, hwaiting, Ne.symm hj]
      · rw [List.getElem?_append]
        split
        · rfl
        · rw [List.getElem?_eq_none (l := s.probes) (by omega)]
          exact List.getElem?_eq_none (by simp only [List.length_singleton]; omega)
  · rename_i hnone
    exact h.driven hs (Helper.awaited_none hnone)

theorem Owned.complete (h : Owned s log) (hk : s.probes[k]? = some probe)
    (hrunning : probe.task = .running) (completion : Completion) :
    Owned { s with probes := s.probes.set k { probe with task := completion.task k } } log := by
  have hlen : k < s.probes.length := (List.getElem?_eq_some_iff.mp hk).1
  have hown : ∀ c, completion.task k = .result c → c = k := by
    intro c hc
    cases completion <;> cases hc
    rfl
  have hawaited : ({ s with probes := s.probes.set k { probe with task := completion.task k } } :
      Helper).awaited = s.awaited := by
    simp [Helper.awaited]
  rw [← log.append_nil]
  refine h.change (k := k) ?_ fun j hj => ⟨by rw [hawaited], List.getElem?_set_ne (Ne.symm hj), rfl⟩
  have hat := h k
  rw [hk] at hat
  rw [hawaited, List.append_nil, List.getElem?_set_self hlen]
  generalize log.count (.closed k) = n at hat
  cases hat with
  | driver hheld => exact .driver hheld hown
  | callback hheld => exact .callback hheld hown
  | nobody _ hdone => exact absurd hrunning hdone
  | closed => cases hrunning

theorem afterWait_cases {task : Task PyErr Nat} (hfits : w.Fits (connectionRetry sub bounds) task) :
    (∃ c, task = .result c ∧ (connectionRetry sub bounds).afterWait task w = .evaluate c) ∨
      (∃ error, task = .exception error ∧
        (connectionRetry sub bounds).afterWait task w = .raised error) ∨
      (∃ error, (connectionRetry sub bounds).afterWait task w = .again error (settleProbe task)) ∨
      (connectionRetry sub bounds).afterWait task w = .cancelled (settleProbe task) := by
  cases w with
  | returned c => exact .inl ⟨c, hfits, rfl⟩
  | raised error =>
    by_cases hretry : (connectionRetry sub bounds).retries error = true
    · simp only [Retry.afterWait, if_pos hretry]
      split
      · exact .inl ⟨_, rfl, rfl⟩
      · exact .inr (.inr (.inl ⟨error, rfl⟩))
    · have htimeout : (connectionRetry sub bounds).isTimeout error ≠ true := by
        intro htimeout
        apply hretry
        simp [connectionRetry, show sub.timeoutError error = true from htimeout]
      simp only [Retry.afterWait, if_neg hretry]
      exact .inr (.inl ⟨error, hfits.resolve_right htimeout, rfl⟩)
  | cancelled => exact .inr (.inr (.inr rfl))

theorem Owned.leave (h : Owned s log) (hs : s.awaited = some k) (hs' : s'.awaited = none)
    (hat : Owner k False s'.probes[k]? (evs.count (.closed k)))
    (helse : ∀ j, j ≠ k → s'.probes[j]? = s.probes[j]? ∧ evs.count (.closed j) = 0) :
    Owned s' (log ++ evs) := by
  refine h.change (k := k) ?_ fun j hj => ⟨by simp [hs, hs', Ne.symm hj], helse j hj⟩
  have hheld := h k
  generalize s.probes[k]? = probe? at hheld
  generalize hn : log.count (.closed k) = n at hheld
  cases hheld with
  | driver =>
    have hnone : (s'.awaited = some k) = False := by simp [hs']
    rw [hnone, List.count_append, hn, Nat.zero_add]
    exact hat
  | unmade hheld | callback hheld | nobody hheld | closed hheld => exact absurd hs hheld

theorem Owned.driver (h : Owned s log) (hs : s.awaited = some k)
    (hk : s.probes[k]? = some probe) :
    probe.callback = false ∧ ∀ c, probe.task = .result c → c = k := by
  have hheld := h k
  rw [hk] at hheld
  generalize log.count (.closed k) = n at hheld
  cases hheld with
  | driver _ hown => exact ⟨rfl, hown⟩
  | callback hheld | nobody hheld | closed hheld => exact absurd hs hheld

theorem Owned.waited (h : Owned s log) (hs : s.awaited = some k) (hk : s.probes[k]? = some probe)
    (hfits : w.Fits (connectionRetry sub bounds) probe.task) :
    Owned (s.waited sub bounds k probe elapsed w).1
      (log ++ (s.waited sub bounds k probe elapsed w).2) := by
  have hlen : k < s.probes.length := (List.getElem?_eq_some_iff.mp hk).1
  have hnone : ∀ probes, (Helper.mk ((s.driver.pass elapsed).waited (connectionRetry sub bounds)
      probe.task w) probes).awaited = none := by
    intro probes
    exact Helper.awaited_none (Driver.waited_phase _ _ _ _)
  obtain ⟨hcallback, hown⟩ := h.driver hs hk
  have hsettle : Owned ⟨(s.driver.pass elapsed).waited (connectionRetry sub bounds) probe.task w,
      s.probes.set k (probe.settle (settleProbe probe.task)).1⟩
      (log ++ (probe.settle (settleProbe probe.task)).2) := by
    refine h.leave hs (hnone _) ?_ fun j hj =>
      ⟨List.getElem?_set_ne (Ne.symm hj), probe.settle_count hown hj⟩
    rw [List.getElem?_set_self hlen]
    exact ProbeTask.settle_owner hcallback hown not_false
  rcases afterWait_cases hfits with ⟨c, htask, hnext⟩ | ⟨error, htask, hnext⟩ |
    ⟨error, hnext⟩ | hnext
  · obtain rfl := hown c htask
    simp only [Helper.waited, hnext]
    refine h.leave hs (hnone _) ?_ fun j hj => ⟨rfl, by simp [Ne.symm hj]⟩
    obtain ⟨task, requested, callback⟩ := probe
    cases hcallback
    cases htask
    rw [hk]
    simpa using Owner.closed not_false
  · simp only [Helper.waited, hnext]
    refine h.leave hs (hnone _) ?_ fun j hj => ⟨rfl, rfl⟩
    obtain ⟨task, requested, callback⟩ := probe
    cases hcallback
    cases htask
    rw [hk]
    exact .nobody not_false nofun nofun
  · simp only [Helper.waited, hnext]
    exact hsettle
  · simp only [Helper.waited, hnext]
    exact hsettle

theorem Owned.drive (h : Owned s log) (hstep : s.drive sub bounds a = some (s', evs)) :
    Owned s' (log ++ evs) := by
  unfold Helper.drive at hstep
  split at hstep
  case h_3 => cases hstep
  all_goals
    rename_i hphase
    obtain ⟨⟨driver, driven⟩, hdriver, heq⟩ := Option.map_eq_some_iff.mp hstep
    cases heq
    rw [List.append_nil]
    refine h.driven (Helper.awaited_none (by simp [hphase])) (Helper.awaited_none ?_)
    exact Driver.step_phase (d := s.driver) (by simp [hphase]) (by simp [hphase]) hdriver

theorem Owned.callback (h : Owned s log) (hk : s.probes[k]? = some probe)
    (hcallback : probe.callback = true) :
    let r := { probe with callback := false }.settle (settleProbe probe.task)
    Owned { s with probes := s.probes.set k r.1 } (log ++ r.2) := by
  intro r
  have hlen : k < s.probes.length := (List.getElem?_eq_some_iff.mp hk).1
  have hawaited : ({ s with probes := s.probes.set k r.1 } : Helper).awaited = s.awaited := by
    simp [Helper.awaited]
  have hat := h k
  rw [hk] at hat
  generalize hn : log.count (.closed k) = n at hat
  cases hat with
  | callback hheld hown =>
    refine h.change (k := k) ?_ fun j hj => ⟨by rw [hawaited], List.getElem?_set_ne (Ne.symm hj),
      ProbeTask.settle_count _ hown hj⟩
    rw [hawaited, List.getElem?_set_self hlen, List.count_append, hn, Nat.zero_add]
    exact ProbeTask.settle_owner rfl hown hheld
  | driver | nobody | closed => cases hcallback

theorem Owned.step (h : Owned s log) (hstep : s.step sub bounds a = some (s', evs)) :
    Owned s' (log ++ evs) := by
  cases a with
  | turn =>
    simp only [Helper.step] at hstep
    split at hstep
    · rename_i firstAttempt hphase
      cases hstep
      rw [List.append_nil]
      exact h.turn hphase
    · cases hstep
  | complete k completion =>
    simp only [Helper.step] at hstep
    split at hstep
    · rename_i probe hk
      obtain ⟨hrunning, heq⟩ := Option.ite_none_right_eq_some.mp hstep
      cases heq
      rw [List.append_nil]
      exact h.complete hk hrunning completion
    · cases hstep
  | wake elapsed w =>
    simp only [Helper.step] at hstep
    split at hstep
    · rename_i k hs
      split at hstep
      · rename_i probe hk
        obtain ⟨⟨-, hfits⟩, heq⟩ := Option.ite_none_right_eq_some.mp hstep
        have hwaited : Owned (s.waited sub bounds k probe elapsed w).1
            (log ++ (s.waited sub bounds k probe elapsed w).2) := h.waited hs hk hfits
        rw [Option.some.inj heq] at hwaited
        exact hwaited
      · cases hstep
    · cases hstep
  | accepted | slept | cancel => exact h.drive hstep
  | callback k =>
    simp only [Helper.step] at hstep
    split at hstep
    · rename_i probe hk
      obtain ⟨⟨hcallback, -⟩, heq⟩ := Option.ite_none_right_eq_some.mp hstep
      cases heq
      exact h.callback hk hcallback
    · cases hstep

theorem waitForPort_machine (hcall : waitForPort sub timeout interval start = .ok m) :
    ∃ bounds, m = Helper.machine sub bounds start := by
  unfold waitForPort at hcall
  cases hbounds : validateProbeRetry timeout interval with
  | error err =>
    rw [hbounds] at hcall
    cases hcall
  | ok bounds =>
    rw [hbounds] at hcall
    cases hcall
    exact ⟨bounds, rfl⟩

theorem waitForUnixSocket_machine
    (hcall : waitForUnixSocket sub supported timeout interval start = .ok m) :
    ∃ bounds, m = Helper.machine sub bounds start := by
  cases supported with
  | true => exact waitForPort_machine hcall
  | false => cases hcall

/-- Every connection that an attempt obtains is closed, and closed once. -/
theorem connections_close_once (supported : Bool)
    {m : Transition.Machine Helper HelperAction ConnectionEvent}
    (hcall : waitForPort sub timeout interval start = .ok m ∨
      waitForUnixSocket sub supported timeout interval start = .ok m)
    (h : m.Reachable s log) : ClosesOnce s log := by
  obtain ⟨bounds, rfl⟩ : ∃ bounds, m = Helper.machine sub bounds start := by
    rcases hcall with hcall | hcall
    · exact waitForPort_machine hcall
    · exact waitForUnixSocket_machine hcall
  have howned : Owned s log := by
    refine h.invariant (P := Owned) ?_ fun s log a s' evs howned _ hstep => howned.step hstep
    intro k
    exact .unmade (by simp [Helper.machine, Helper.new, Helper.awaited, Driver.new])
  exact howned.closesOnce

end

-- ---------------------------------------------------------------------------
-- A late connection
-- ---------------------------------------------------------------------------

/-- The caller cancels the second attempt, which connects all the same. -/
def abandoned : List HelperAction :=
  [.turn, .complete 0 (.failed ⟨"OSError", "refused"⟩),
    .wake (1 / 100) (.raised ⟨"OSError", "refused"⟩), .slept (1 / 20), .turn,
    .wake (1 / 100) .cancelled, .complete 1 .connected, .callback 1]

theorem connections_close_once_abandoned : ∃ m s log,
    waitForPort byType (.of 1) (.of zeroTimeoutConnectTick) 0 = .ok m ∧ m.Reachable s log ∧
      log = [.closed 1] ∧ s.driver.phase = .ended .cancelled ∧ ClosesOnce s log := by
  have hcall : waitForPort byType (.of 1) (.of zeroTimeoutConnectTick) 0 =
      .ok (Helper.machine byType oneSecond 0) := by
    have hinterval : 0 < zeroTimeoutConnectTick := by decide +kernel
    have htimeout : ¬ (1 : Seconds) < 0 := by decide +kernel
    simp [waitForPort, validateProbeRetry, checkTimeout, hinterval, htimeout, oneSecond]
  obtain ⟨s, log, hr, heq⟩ := Transition.Machine.reach_replay
    (m := Helper.machine byType oneSecond 0) abandoned (fun s log => (s.driver.phase, log))
    (fun _ _ _ => trivial) (b := (.ended .cancelled, [.closed 1])) (by decide +kernel)
  obtain ⟨hphase, rfl⟩ := Prod.mk.inj heq
  exact ⟨_, s, _, hcall, hr, rfl, hphase, connections_close_once true (.inl hcall) hr⟩

end ProcessKit.Aio

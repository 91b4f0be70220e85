import ProcessKit.Running.Ownership

/-!
# The events drive and the reap it waits for

`EventsDrive::next_event` reads the crate's event stream, whose terminal event
arrives only when the run is reaped. The drive therefore waits beside a timer
and asks for the child's exit when the timer fires, until the reap is someone's
job. It shares both locks with the handle: the calls of other threads are the
steps of `Handle.machine`, and `start_joint_finish` is the drive's own call `e`
among them.

The steps of one poll are separate, so that other threads come in between any
two of them. A poll is dropped only where it awaits.
-/

namespace ProcessKit.Running

inductive ProbeVerdict
  | exited
  | running
  | noProcess
  deriving DecidableEq

/-- `EXIT_POLL_INTERVAL`, in milliseconds. -/
def exitPollInterval : Nat := 50

/-- `probe_exit_now`: `exited` is what one poll of the crate's `wait_for` says
of a process in the slot. -/
def Handle.probeExitNow (h : Handle ι) (exited : Bool) : ProbeVerdict :=
  if h.slot then if exited then .exited else .running else .noProcess

/-- Where a poll of `next_event` is; `waiting` carries the sleep that runs
beside `stream.next()`. -/
inductive DrivePc
  | parked
  | deciding
  | waiting (sleep : Option Nat)
  | probing
  | joining
  deriving DecidableEq

structure EventsDrive (ι : Type) where
  handle : Handle ι
  reapStarted : Bool
  probeAfter : Nat
  pc : DrivePc

def EventsDrive.new : EventsDrive ι where
  handle := .started
  reapStarted := false
  probeAfter := 0
  pc := .parked

inductive DriveAction (ι : Type)
  | poll
  | decide
  | event
  | timer
  | probe (exited : Bool)
  | join
  | drop
  | other (a : Action ι)
  deriving DecidableEq

def Pc.inJoint : Pc → Bool
  | .jointLock | .jointTake | .jointSpawn => true
  | _ => false

/-- What holds between any two steps of the drive whose own call is `e`. -/
structure Driving (e : ι) (d : EventsDrive ι) : Prop where
  idle : d.reapStarted = false → d.pc ≠ .joining → d.handle.pc e = .idle
  joining : d.pc = .joining → d.reapStarted = false ∧ (d.handle.pc e).inJoint = true
  waiting : ∀ sleep, d.pc = .waiting sleep →
    sleep = if d.reapStarted then none else some d.probeAfter
  probing : d.pc = .probing → d.reapStarted = false
  cadence : d.probeAfter ≤ exitPollInterval
  reaped : d.reapStarted = true → d.handle.slot = false

theorem Driving.init (e : ι) : Driving e (EventsDrive.new : EventsDrive ι) where
  idle _ _ := rfl
  joining := nofun
  waiting := nofun
  probing := nofun
  cadence := Nat.zero_le _
  reaped := nofun

theorem Driving.goto {d : EventsDrive ι} (hi : Driving e d) (hpc : d.pc ≠ .joining)
    (hq : q ≠ .joining)
    (hwait : ∀ sleep, q = .waiting sleep →
      sleep = if d.reapStarted then none else some d.probeAfter)
    (hprobe : q = .probing → d.reapStarted = false) : Driving e { d with pc := q } where
  idle hreap _ := hi.idle hreap hpc
  joining hq' := absurd hq' hq
  waiting := hwait
  probing := hprobe
  cadence := hi.cadence
  reaped := hi.reaped

section
variable [DecidableEq ι]

def EventsDrive.step (e : ι) (d : EventsDrive ι) :
    DriveAction ι → Option (EventsDrive ι × List (Event ι))
  | .poll => if d.pc = .parked then some ({ d with pc := .deciding }, []) else none
  | .decide =>
    if d.pc = .deciding then
      some ({ d with pc := .waiting (if d.reapStarted then none else some d.probeAfter) }, [])
    else none
  | .event =>
    match d.pc with
    | .waiting none => some ({ d with pc := .parked }, [])
    | .waiting (some _) => some ({ d with probeAfter := 0, pc := .parked }, [])
    | _ => none
  | .timer =>
    match d.pc with
    | .waiting (some _) => some ({ d with pc := .probing }, [])
    | _ => none
  | .probe exited =>
    if d.pc = .probing then
      match d.handle.probeExitNow exited with
      | .exited => do
        let (handle, evs) ← d.handle.step (.begin e .joint)
        return ({ d with handle, pc := .joining }, evs)
      | .noProcess => some ({ d with reapStarted := true, pc := .deciding }, [])
      | .running => some ({ d with probeAfter := exitPollInterval, pc := .deciding }, [])
    else none
  | .join =>
    if d.pc = .joining then do
      let (handle, evs) ← d.handle.step (.step e)
      -- `start_joint_finish` answers `true` on each of its three returns.
      if handle.pc e = .jointReturned then
        return ({ d with handle, reapStarted := true, pc := .deciding }, evs)
      else return ({ d with handle }, evs)
    else none
  | .drop =>
    match d.pc with
    | .waiting _ => some ({ d with pc := .parked }, [])
    | _ => none
  | .other a =>
    if a.caller = some e then none
    else do
      let (handle, evs) ← d.handle.step a
      return ({ d with handle }, evs)

def EventsDrive.machine (e : ι) :
    Transition.Machine (EventsDrive ι) (DriveAction ι) (Event ι) where
  init := .new
  step := EventsDrive.step e

-- ---------------------------------------------------------------------------
-- What a step can do
-- ---------------------------------------------------------------------------

inductive EventsDrive.Step (e : ι) (d : EventsDrive ι) :
    DriveAction ι → EventsDrive ι → List (Event ι) → Prop
  | poll : d.pc = .parked → Step e d .poll { d with pc := .deciding } []
  | drain : d.pc = .deciding → d.reapStarted = true →
      Step e d .decide { d with pc := .waiting none } []
  | wait : d.pc = .deciding → d.reapStarted = false →
      Step e d .decide { d with pc := .waiting (some d.probeAfter) } []
  | event : d.pc = .waiting none → Step e d .event { d with pc := .parked } []
  | output : d.pc = .waiting (some sleep) →
      Step e d .event { d with probeAfter := 0, pc := .parked } []
  | timer : d.pc = .waiting (some sleep) → Step e d .timer { d with pc := .probing } []
  | probeExited : d.pc = .probing → d.handle.slot = true → d.handle.pc e = .idle →
      Step e d (.probe true) { d with handle := d.handle.goto e .jointLock, pc := .joining } []
  | probeRunning : d.pc = .probing → d.handle.slot = true →
      Step e d (.probe false) { d with probeAfter := exitPollInterval, pc := .deciding } []
  | probeNone : d.pc = .probing → d.handle.slot = false →
      Step e d (.probe exited) { d with reapStarted := true, pc := .deciding } []
  | joined : d.pc = .joining → d.handle.step (.step e) = some (h, evs) → h.pc e = .jointReturned →
      Step e d .join { d with handle := h, reapStarted := true, pc := .deciding } evs
  | joining : d.pc = .joining → d.handle.step (.step e) = some (h, evs) → h.pc e ≠ .jointReturned →
      Step e d .join { d with handle := h } evs
  | drop : d.pc = .waiting sleep → Step e d .drop { d with pc := .parked } []
  | other : a.caller ≠ some e → d.handle.step a = some (h, evs) →
      Step e d (.other a) { d with handle := h } evs

theorem Handle.step_begin {h h' : Handle ι} (hs : h.step (.begin i .joint) = some (h', evs)) :
    h.pc i = .idle ∧ h.goto i .jointLock = h' ∧ [] = evs := by
  simpa [Handle.step, Call.entry] using hs

theorem EventsDrive.Step.of_probe {d d' : EventsDrive ι} {e : ι} {evs : List (Event ι)}
    (hs : d.step e (.probe exited) = some (d', evs)) : d.Step e (.probe exited) d' evs := by
  simp only [EventsDrive.step] at hs
  split at hs
  · rename_i hpc
    cases hslot : d.handle.slot with
    | false =>
      simp only [Handle.probeExitNow, hslot] at hs
      cases hs
      exact .probeNone hpc hslot
    | true =>
      cases exited with
      | false =>
        simp only [Handle.probeExitNow, hslot] at hs
        cases hs
        exact .probeRunning hpc hslot
      | true =>
        simp only [Handle.probeExitNow, hslot, if_true, Option.bind_eq_bind,
          Option.bind_eq_some_iff, Prod.exists] at hs
        obtain ⟨handle, evs', hbegin, hret⟩ := hs
        obtain ⟨hidle, rfl, rfl⟩ := Handle.step_begin hbegin
        cases hret
        exact .probeExited hpc hslot hidle
  · cases hs

theorem EventsDrive.Step.of_step {d d' : EventsDrive ι} {e : ι} {evs : List (Event ι)}
    (hs : d.step e a = some (d', evs)) : d.Step e a d' evs := by
  cases a with
  | poll =>
    simp only [EventsDrive.step] at hs
    split at hs <;> cases hs
    exact .poll ‹_›
  | decide =>
    simp only [EventsDrive.step] at hs
    split at hs
    · by_cases hreap : d.reapStarted = true
      · rw [if_pos hreap] at hs
        cases hs
        exact .drain ‹_› hreap
      · rw [if_neg hreap] at hs
        cases hs
        exact .wait ‹_› (by simpa using hreap)
    · cases hs
  | event =>
    simp only [EventsDrive.step] at hs
    split at hs <;> cases hs
    · exact .event ‹_›
    · exact .output ‹_›
  | timer =>
    simp only [EventsDrive.step] at hs
    split at hs <;> cases hs
    exact .timer ‹_›
  | probe exited => exact .of_probe hs
  | join =>
    simp only [EventsDrive.step] at hs
    split at hs
    · simp only [Option.bind_eq_bind, Option.bind_eq_some_iff, Prod.exists] at hs
      obtain ⟨handle, evs', hjoin, hret⟩ := hs
      split at hret <;> cases hret
      · exact .joined ‹_› hjoin ‹_›
      · exact .joining ‹_› hjoin ‹_›
    · cases hs
  | drop =>
    simp only [EventsDrive.step] at hs
    split at hs <;> cases hs
    exact .drop ‹_›
  | other a =>
    simp only [EventsDrive.step] at hs
    split at hs
    · cases hs
    · simp only [Option.bind_eq_bind, Option.bind_eq_some_iff, Prod.exists] at hs
      obtain ⟨handle, evs', hother, hret⟩ := hs
      cases hret
      exact .other ‹_› hother

/-- The handle under the drive makes the steps of a handle. -/
def EventsDrive.projection (e : ι) :
    Transition.Machine.Projection (EventsDrive.machine e) (Handle.machine ι) where
  view := EventsDrive.handle
  init := rfl
  step hs := by
    cases EventsDrive.Step.of_step hs with
    | probeExited _ _ hidle =>
      exact .inr ⟨.begin e .joint, [], by simp [Handle.machine, Handle.step, hidle, Call.entry]⟩
    | joined _ hjoin | joining _ hjoin => exact .inr ⟨.step e, _, hjoin⟩
    | other _ hother => exact .inr ⟨_, _, hother⟩
    | _ => exact .inl rfl

-- ---------------------------------------------------------------------------
-- The handle under the drive
-- ---------------------------------------------------------------------------

theorem Handle.emptied_of_started {h : Handle ι} (hr : (Handle.machine ι).Reachable h log) :
    h.finish ≠ .notStarted → h.slot = false := by
  induction hr with
  | init => exact fun hstarted => absurd rfl hstarted
  | step hr _ hs ih =>
    intro hstarted
    have hs := Step.of_step hs
    obtain ⟨o, ho⟩ := (Owned.of_reachable hr).owner
    refine hs.slot_mono ?_
    rcases hs.finish with ⟨hsame, -⟩ | ⟨hold, -⟩ | ⟨⟨i, hpc⟩, -⟩
    · exact ih (hsame ▸ hstarted)
    · exact ih (by simp [hold])
    · exact ho.emptied (p := .finisherCall i) hpc nofun

theorem Step.joint {h h' : Handle ι} (hr : (Handle.machine ι).Reachable h log)
    (hs : Step h a h' evs) (hj : (h.pc i).inJoint = true) :
    (h'.pc i).inJoint = true ∨ h'.pc i = .jointReturned ∧ h'.slot = false := by
  obtain hsame | ⟨-, _, hpc, hg⟩ := hs.arrives (q := h'.pc i) rfl
  · exact .inl (hsame ▸ hj)
  · obtain ⟨o, ho⟩ := (Owned.of_reachable hr).owner
    rw [hpc] at hj
    generalize h'.pc i = q at hg ⊢
    cases hg with
    | jointLock | jointTake => exact .inl rfl
    | jointStarted hstarted =>
      exact .inr ⟨rfl, hs.slot_mono (Handle.emptied_of_started hr hstarted)⟩
    | jointEmpty hslot => exact .inr ⟨rfl, hs.slot_mono hslot⟩
    | jointSpawn =>
      exact .inr ⟨rfl, hs.slot_mono (ho.emptied (p := .finisherCall i) hpc nofun)⟩
    | _ => cases hj

-- ---------------------------------------------------------------------------
-- The invariant of the drive
-- ---------------------------------------------------------------------------

theorem Driving.step {d d' : EventsDrive ι} (hi : Driving e d)
    (hr : (Handle.machine ι).Reachable d.handle log) (hs : d.Step e a d' evs) : Driving e d' := by
  cases hs with
  | poll hpc | event hpc | drop hpc => exact hi.goto (by simp [hpc]) nofun nofun nofun
  | drain hpc hreap | wait hpc hreap => exact hi.goto (by simp [hpc]) nofun (by simp [hreap]) nofun
  | timer hpc =>
    refine hi.goto (by simp [hpc]) nofun nofun fun _ => ?_
    by_contra hreap
    simpa [hreap] using hi.waiting _ hpc
  | output hpc =>
    exact ⟨fun hreap _ => hi.idle hreap (by simp [hpc]), nofun, nofun, nofun, Nat.zero_le _,
      hi.reaped⟩
  | probeExited hpc hslot hidle =>
    have hreap := hi.probing hpc
    exact ⟨fun _ hne => absurd rfl hne, fun _ => ⟨hreap, by simp [Pc.inJoint]⟩, nofun, nofun,
      hi.cadence,
      fun hreap' => absurd (hreap.symm.trans hreap') nofun⟩
  | probeRunning hpc hslot =>
    exact ⟨fun hreap _ => hi.idle hreap (by simp [hpc]), nofun, nofun, nofun, le_rfl, hi.reaped⟩
  | probeNone hpc hslot => exact ⟨nofun, nofun, nofun, nofun, hi.cadence, fun _ => hslot⟩
  | joined hpc hjoin hret =>
    -- the reap is someone's job on each return of `start_joint_finish`
    obtain hin | ⟨-, hslot⟩ := (Step.of_step hjoin).joint hr (hi.joining hpc).2
    · rw [hret] at hin
      cases hin
    · exact ⟨nofun, nofun, nofun, nofun, hi.cadence, fun _ => hslot⟩
  | joining hpc hjoin hret =>
    obtain ⟨hreap, hin⟩ := hi.joining hpc
    have hin' := ((Step.of_step hjoin).joint hr hin).resolve_right fun h => hret h.1
    exact ⟨fun _ hne => absurd hpc hne, fun _ => ⟨hreap, hin'⟩,
      fun _ h => absurd (hpc.symm.trans h) nofun,
      fun h => absurd (hpc.symm.trans h) nofun, hi.cadence,
      fun hreap' => absurd (hreap.symm.trans hreap') nofun⟩
  | other hother hstep =>
    have hstep := Step.of_step hstep
    have hsame := (hstep.goes e).resolve_right fun h => hother h.1
    exact ⟨fun hreap hne => hsame.trans (hi.idle hreap hne),
      fun hpc => hsame ▸ hi.joining hpc, hi.waiting,
      hi.probing, hi.cadence, fun hreap => hstep.slot_mono (hi.reaped hreap)⟩

theorem Driving.of_reachable {d : EventsDrive ι} {e : ι} {log : List (Event ι)}
    (hr : (EventsDrive.machine e).Reachable d log) : Driving e d := by
  induction hr with
  | init => exact .init e
  | step hr _ hs ih =>
    obtain ⟨log', hh⟩ := (EventsDrive.projection e).reach hr
    exact ih.step hh (.of_step hs)

theorem EventsDrive.Step.reapStarted {d d' : EventsDrive ι} {e : ι} {evs : List (Event ι)}
    (hs : d.Step e a d' evs) (hreap : d.reapStarted = true) : d'.reapStarted = true := by
  cases hs with
  | probeNone | joined => rfl
  | _ => exact hreap

theorem EventsDrive.Step.probe_slot {d d' : EventsDrive ι} {e : ι} {evs : List (Event ι)}
    (hs : d.Step e (.probe exited) d' evs) : d'.handle.slot = d.handle.slot := by
  cases hs with
  | probeExited | probeRunning | probeNone => rfl

-- ---------------------------------------------------------------------------
-- Every run of the drive
-- ---------------------------------------------------------------------------

/-- What the drive promises in a state it is in: it waits without a timer only
once the reap is someone's job, and until then every wait ends in a probe. -/
structure EventsDrive.Watched (e : ι) (d : EventsDrive ι) : Prop where
  blind : d.pc = .waiting none → d.reapStarted = true
  reaped : d.reapStarted = true →
    d.handle.slot = false ∧ ∃ o, o ≠ .slot ∧ d.handle.OwnedBy o
  stays : ∀ a d' evs, d.step e a = some (d', evs) → d.reapStarted = true → d'.reapStarted = true
  probe : ∀ exited d' evs, d.step e (.probe exited) = some (d', evs) →
    d'.handle.slot = d.handle.slot
  bounded : d.reapStarted = false → ∀ sleep, d.pc = .waiting sleep →
    sleep = some d.probeAfter ∧ d.probeAfter ≤ exitPollInterval ∧
      ∃ d', d.step e .timer = some (d', []) ∧ d'.pc = .probing ∧
        ∀ exited, (d'.step e (.probe exited)).isSome

theorem EventsDrive.watched {d : EventsDrive ι} {e : ι} {log : List (Event ι)}
    (hr : (EventsDrive.machine e).Reachable d log) : d.Watched e := by
  have hi := Driving.of_reachable hr
  refine ⟨fun hpc => ?_, fun hreap => ?_, fun _ _ _ hs => (EventsDrive.Step.of_step hs).reapStarted,
    fun _ _ _ hs => (EventsDrive.Step.of_step hs).probe_slot, fun hreap sleep hpc => ?_⟩
  · have hsleep := hi.waiting _ hpc
    by_contra hreap
    simp [hreap] at hsleep
  · obtain ⟨log', hh⟩ := (EventsDrive.projection e).reach hr
    obtain ⟨o, ho⟩ := (Owned.of_reachable hh).owner
    have hslot := hi.reaped hreap
    refine ⟨hslot, o, ?_, ho⟩
    rintro rfl
    have hown : d.handle.slot = true := (ho .slot).mpr rfl
    rw [hslot] at hown
    cases hown
  · have hidle := hi.idle hreap (by simp [hpc])
    obtain rfl : sleep = some d.probeAfter := by simpa [hreap] using hi.waiting sleep hpc
    refine ⟨rfl, hi.cadence, { d with pc := .probing }, by simp [EventsDrive.step, hpc], rfl, ?_⟩
    intro exited
    simp only [EventsDrive.step, if_true]
    cases d.handle.probeExitNow exited with
    | exited => simp [Handle.step, hidle]
    | running | noProcess => rfl

/-- The child exits while the drive reads: the probe finds it, the finisher is
started, and only then does the drive wait without a timer. -/
def drainedRun : List (DriveAction Nat) :=
  [.poll, .decide, .event, .poll, .decide, .timer, .probe true, .join, .join, .join, .decide]

theorem EventsDrive.watched_drained : ∃ d log, (EventsDrive.machine 0).Reachable d log ∧
    d.pc = .waiting none ∧ d.handle.finish = .running ∧ d.Watched 0 := by
  obtain ⟨d, log, hr, heq⟩ :=
    Transition.Machine.reach_replay (m := EventsDrive.machine 0) drainedRun
    (fun d _ => (d.pc, d.handle.finish)) (fun _ _ _ => trivial)
    (b := (.waiting none, .running)) (by decide +kernel)
  obtain ⟨hpc, hrunning⟩ := Prod.mk.inj heq
  exact ⟨d, log, hr, hpc, hrunning, EventsDrive.watched hr⟩

end

end ProcessKit.Running

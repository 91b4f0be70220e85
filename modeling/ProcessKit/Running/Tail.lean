import ProcessKit.Aio.Retry
import Mathlib.Data.List.Infix

/-!
# The partial-tail probes

`probe_partial_tail` looks, tests, and sleeps, until the tail matches, the stream
ends or the deadline passes. A look is one poll of the crate's own wait under the
slot's lock; the process stays in the slot, where other threads use it or take it.
Time passes anywhere: while the probe sleeps, while the predicate runs, and between
a look and the reading of the clock.

Durations and instants are in nanoseconds, and the probe starts at instant 0.
-/

namespace ProcessKit.Running

open ProcessKit.Runtime (PyErr PyResult ProcessError.newErr)
open ProcessKit.Aio (PyFloat ValueError.newErr)

inductive TailStream
  | stdout
  | stderr
  deriving DecidableEq

def TailStream.name : TailStream → String
  | .stdout => "stdout"
  | .stderr => "stderr"

-- ---------------------------------------------------------------------------
-- The arguments
-- ---------------------------------------------------------------------------

inductive TailMatcher
  | substring (needle : String)
  | callable
  deriving DecidableEq

inductive PredicateArg
  | str (needle : String)
  | callable
  | other

def TypeError.newErr (message : String) : PyErr := ⟨"TypeError", message⟩

def TailMatcher.extract : PredicateArg → PyResult TailMatcher
  | .str needle => .ok (.substring needle)
  | .callable => .ok .callable
  | .other => .error <| TypeError.newErr <|
    "predicate must be a str (a substring of the tail) or a callable taking the tail and " ++
    "returning a bool"

/-- The truth of what the callable returned for the tail, or what it raised. `none` is
an attachment that the interpreter refused. -/
def TailMatcher.matches (tail : String) (called : Option (PyResult Bool)) :
    TailMatcher → PyResult Bool
  | .substring needle => .ok (decide (needle.toList <:+: tail.toList))
  | .callable => called.getD (.ok false)

abbrev Duration := Nat

def millisecond : Duration := 10 ^ 6
def second : Duration := 10 ^ 9

def tailPollInterval : Duration := 50 * millisecond

def maxTailTimeout : Duration := 10 * 365 * 24 * 60 * 60 * second

/-- The nearest natural number, the even one of two. -/
def roundTiesEven (q : ℚ) : Nat :=
  let below := q.floor.toNat
  if q - below < 1 / 2 then below
  else if 1 / 2 < q - below then below + 1
  else if below % 2 = 0 then below else below + 1

/-- `Duration::try_from_secs_f64`, for a number that is finite and not negative. -/
def Duration.tryFromSecs (seconds : ℚ) : Option Duration :=
  let nanos := roundTiesEven (seconds * 10 ^ 9)
  if nanos < 2 ^ 64 * second then some nanos else none

def nonnegativeDuration (what : String) : PyFloat → PyResult Duration
  | .nan | .negInf | .of ⊤ =>
    .error (ValueError.newErr s!"{what} must be a non-negative, finite number of seconds")
  | .of (some seconds) =>
    if seconds < 0 then
      .error (ValueError.newErr s!"{what} must be a non-negative, finite number of seconds")
    else
      match Duration.tryFromSecs seconds with
      | some duration => .ok duration
      | none => .error (ValueError.newErr
          s!"invalid {what}: cannot convert float seconds to Duration: value is either too big or NaN")

def tailProbeArgs (predicate : PredicateArg) (timeout : PyFloat) :
    PyResult (TailMatcher × Duration) := do
  let matcher ← TailMatcher.extract predicate
  let within ← nonnegativeDuration "timeout" timeout
  return (matcher, min within maxTailTimeout)

-- ---------------------------------------------------------------------------
-- One look
-- ---------------------------------------------------------------------------

structure TailLook where
  tail : Option String
  closed : Bool
  deriving DecidableEq

/-- How the one poll of the crate's wait ends. An error is as `map_err` maps it. -/
inductive Verdict
  | pending
  | notReady
  | failed (error : PyErr)
  | matched (tail : String)
  deriving DecidableEq

/-- `snapshot_tail`, where the poll changes the process as it likes and shows the
recording predicate at most one tail. `as_mut` leaves the process in the slot. -/
def snapshotTail (slot : Option π) (poll : π → π × Option String × Verdict) :
    Option π × PyResult TailLook :=
  match slot with
  | none => (none, .error (ProcessError.newErr "the process handle has been consumed"))
  | some running =>
    let (running, tail, verdict) := poll running
    (some running,
      match verdict with
      | .pending => .ok ⟨tail, false⟩
      | .notReady => .ok ⟨tail, true⟩
      | .failed error => .error error
      | .matched matched => .ok ⟨some matched, false⟩)

theorem snapshotTail_slot (slot : Option π) (poll : π → π × Option String × Verdict) :
    (snapshotTail slot poll).1 = slot.map fun running => (poll running).1 := by
  cases slot <;> rfl

-- ---------------------------------------------------------------------------
-- The loop
-- ---------------------------------------------------------------------------

/-- The arguments of `probe_partial_tail`; `timeoutSeconds` is the caller's timeout as
it is printed. -/
structure TailArgs where
  program : String
  stream : TailStream
  matcher : TailMatcher
  within : Duration
  timeoutSeconds : String

/-- How a probe ends, by the line that ends it. -/
inductive ProbeEnd
  | matched (tail : String)
  | lookFailed (error : PyErr)
  | predicateRaised (error : PyErr)
  | streamEnded
  | timedOut (classFound : Bool)
  deriving DecidableEq

/-- `wait_timeout_err`: a plain `ProcessError` where the class cannot be reached. -/
def waitTimeoutErr (message : String) (classFound : Bool) : PyErr :=
  if classFound then ⟨"WaitTimeout", message⟩ else ProcessError.newErr message

def ProbeEnd.result (args : TailArgs) : ProbeEnd → PyResult String
  | .matched tail => .ok tail
  | .lookFailed error | .predicateRaised error => .error error
  | .streamEnded => .error (ProcessError.newErr
      s!"`{args.program}`: {args.stream.name} ended before a matching tail")
  | .timedOut classFound => .error (waitTimeoutErr
      s!"`{args.program}`: no matching {args.stream.name} tail within {args.timeoutSeconds}s"
      classFound)

inductive ProbePhase
  | looking
  | testing (since : Nat) (tail : String) (closed : Bool)
  | checking
  | sleeping (wakeAt : Nat)
  | ended (how : ProbeEnd)
  deriving DecidableEq

structure Probe (π : Type) where
  slot : Option π
  now : Nat
  phase : ProbePhase

inductive ProbeAction (π : Type)
  | look (poll : π → π × Option String × Verdict)
  | test (called : Option (PyResult Bool))
  | check (classFound : Bool)
  | wake
  | pass (elapsed : Duration)
  | use (change : π → π)
  | take

/-- A look that is over: when it was taken, what it found, and what the predicate said
of its tail. -/
structure Looked where
  time : Nat
  found : PyResult TailLook
  verdict : Option (PyResult Bool)

inductive ProbeEvent
  | looked (look : Looked)
  | checked (time : Nat)
  | slept (time : Nat) (asked : Duration)
  | taken

def ProbePhase.unmatched (closed : Bool) : ProbePhase :=
  if closed then .ended .streamEnded else .checking

def Probe.step (args : TailArgs) (p : Probe π) :
    ProbeAction π → Option (Probe π × List ProbeEvent)
  | .look poll =>
    if p.phase = .looking then
      let (slot, found) := snapshotTail p.slot poll
      match found with
      | .error error =>
        some ({ p with slot, phase := .ended (.lookFailed error) },
          [.looked ⟨p.now, .error error, none⟩])
      | .ok ⟨some tail, closed⟩ => some ({ p with slot, phase := .testing p.now tail closed }, [])
      | .ok ⟨none, closed⟩ =>
        some ({ p with slot, phase := .unmatched closed },
          [.looked ⟨p.now, .ok ⟨none, closed⟩, none⟩])
    else none
  | .test called =>
    match p.phase with
    | .testing since tail closed =>
      let verdict := args.matcher.matches tail called
      let phase := match verdict with
        | .error error => .ended (.predicateRaised error)
        | .ok true => .ended (.matched tail)
        | .ok false => .unmatched closed
      some ({ p with phase }, [.looked ⟨since, .ok ⟨some tail, closed⟩, some verdict⟩])
    | _ => none
  | .check classFound =>
    if p.phase = .checking then
      let remaining := args.within - p.now
      if remaining = 0 then
        some ({ p with phase := .ended (.timedOut classFound) }, [.checked p.now])
      else
        let asked := min tailPollInterval remaining
        some ({ p with phase := .sleeping (p.now + asked) }, [.checked p.now, .slept p.now asked])
    else none
  | .wake =>
    match p.phase with
    | .sleeping wakeAt => if wakeAt ≤ p.now then some ({ p with phase := .looking }, []) else none
    | _ => none
  | .pass elapsed => some ({ p with now := p.now + elapsed }, [])
  | .use change => some ({ p with slot := p.slot.map change }, [])
  | .take => if p.slot.isSome then some ({ p with slot := none }, [.taken]) else none

/-- The probe of a process that is in its slot. -/
def probePartialTail (args : TailArgs) (running : π) :
    Transition.Machine (Probe π) (ProbeAction π) ProbeEvent where
  init := ⟨some running, 0, .looking⟩
  step := Probe.step args

-- ---------------------------------------------------------------------------
-- The steps
-- ---------------------------------------------------------------------------

/-- The look found no tail, or one that the predicate declined. -/
def Looked.Unmatched (look : Looked) (closed : Bool) : Prop :=
  (look.found = .ok ⟨none, closed⟩ ∧ look.verdict = none) ∨
    ∃ tail, look.found = .ok ⟨some tail, closed⟩ ∧ look.verdict = some (.ok false)

def Looked.Accepted (look : Looked) (tail : String) : Prop :=
  (∃ closed, look.found = .ok ⟨some tail, closed⟩) ∧ look.verdict = some (.ok true)

inductive Judged : Looked → ProbePhase → Prop
  | failed : look.found = .error error → look.verdict = none →
      Judged look (.ended (.lookFailed error))
  | raised : look.verdict = some (.error error) → Judged look (.ended (.predicateRaised error))
  | accepted : look.Accepted tail → Judged look (.ended (.matched tail))
  | unmatched : look.Unmatched closed → Judged look (.unmatched closed)

inductive Probe.Step (args : TailArgs) (p : Probe π) : Probe π → List ProbeEvent → Prop
  | found (kept : Option π) : p.phase = .looking → kept.isSome = p.slot.isSome →
      Step args p ⟨kept, p.now, .testing p.now tail closed⟩ []
  | judged (kept : Option π) (next : ProbePhase) :
      (p.phase = .looking ∨ ∃ since tail closed, p.phase = .testing since tail closed) →
      kept.isSome = p.slot.isSome → Judged look next →
        Step args p ⟨kept, p.now, next⟩ [.looked look]
  | timedOut : p.phase = .checking → args.within ≤ p.now →
      Step args p { p with phase := .ended (.timedOut classFound) } [.checked p.now]
  | sleep {asked : Nat} : p.phase = .checking → p.now < args.within →
      asked = min tailPollInterval (args.within - p.now) →
      Step args p { p with phase := .sleeping (p.now + asked) } [.checked p.now, .slept p.now asked]
  | wake : p.phase = .sleeping wakeAt → wakeAt ≤ p.now → Step args p { p with phase := .looking } []
  | pass : Step args p { p with now := p.now + elapsed } []
  | use (kept : Option π) : kept.isSome = p.slot.isSome → Step args p { p with slot := kept } []
  | take : Step args p { p with slot := none } [.taken]

theorem snapshotTail_isSome (slot : Option π) (poll : π → π × Option String × Verdict) :
    (snapshotTail slot poll).1.isSome = slot.isSome := by
  rw [snapshotTail_slot, Option.isSome_map]

theorem Probe.Step.of_look {args : TailArgs} {p : Probe π}
    {poll : π → π × Option String × Verdict} (hphase : p.phase = .looking)
    (hs : p.step args (.look poll) = some (p', evs)) : Step args p p' evs := by
  have hslot := snapshotTail_isSome p.slot poll
  simp only [Probe.step, if_pos hphase] at hs
  split at hs
  · next error herror =>
    cases hs
    exact .judged _ _ (.inl hphase) hslot (.failed rfl rfl)
  · cases hs
    exact .found _ hphase hslot
  · cases hs
    exact .judged _ _ (.inl hphase) hslot (.unmatched (.inl ⟨rfl, rfl⟩))

theorem Probe.Step.of_test {args : TailArgs} {p : Probe π}
    (hphase : p.phase = .testing since tail closed)
    (hs : p.step args (.test called) = some (p', evs)) : Step args p p' evs := by
  simp only [Probe.step, hphase] at hs
  obtain ⟨rfl, rfl⟩ := Prod.mk.inj (Option.some.inj hs)
  refine .judged _ _ (.inr ⟨_, _, _, hphase⟩) rfl ?_
  cases hverdict : args.matcher.matches tail called with
  | error error => exact .raised rfl
  | ok matched =>
    cases matched with
    | true => exact .accepted ⟨⟨_, rfl⟩, rfl⟩
    | false => exact .unmatched (.inr ⟨_, rfl, rfl⟩)

theorem Probe.Step.of_step {args : TailArgs} {p : Probe π} (a : ProbeAction π)
    (hs : p.step args a = some (p', evs)) : Step args p p' evs := by
  cases a with
  | look poll =>
    by_cases hphase : p.phase = .looking
    · exact .of_look hphase hs
    · simp [Probe.step, hphase] at hs
  | test called =>
    cases hphase : p.phase with
    | testing => exact .of_test hphase hs
    | _ => simp [Probe.step, hphase] at hs
  | check classFound =>
    by_cases hphase : p.phase = .checking
    · simp only [Probe.step, if_pos hphase] at hs
      split at hs
      · next hover =>
        cases hs
        exact .timedOut hphase (Nat.sub_eq_zero_iff_le.mp hover)
      · next hleft =>
        cases hs
        exact .sleep hphase (Nat.lt_of_sub_pos (Nat.pos_of_ne_zero hleft)) rfl
    · simp [Probe.step, hphase] at hs
  | wake =>
    simp only [Probe.step] at hs
    split at hs
    · next wakeAt hphase =>
      split at hs
      · next hover =>
        cases hs
        exact .wake hphase hover
      · cases hs
    · cases hs
  | pass elapsed =>
    cases hs
    exact .pass
  | use change =>
    cases hs
    exact .use _ Option.isSome_map
  | take =>
    simp only [Probe.step] at hs
    split at hs
    · cases hs
      exact .take
    · cases hs

-- ---------------------------------------------------------------------------
-- What the looks came to
-- ---------------------------------------------------------------------------

def ProbeEvent.look : ProbeEvent → Option Looked
  | .looked look => some look
  | .checked _ | .slept .. | .taken => none

def looks (log : List ProbeEvent) : List Looked := log.filterMap ProbeEvent.look

@[simp] theorem looks_nil : looks [] = [] := rfl

@[simp] theorem looks_append (log evs : List ProbeEvent) :
    looks (log ++ evs) = looks log ++ looks evs :=
  List.filterMap_append

@[simp] theorem looks_cons (ev : ProbeEvent) (evs : List ProbeEvent) :
    looks (ev :: evs) = ev.look.toList ++ looks evs := by
  cases ev <;> rfl

/-- Why a probe ends, read off its last look and what came after it. -/
def ProbeEnd.Follows (args : TailArgs) (last : Looked) (after : List ProbeEvent) : ProbeEnd → Prop
  | .matched tail => last.Accepted tail
  | .lookFailed error => last.found = .error error ∧ last.verdict = none
  | .predicateRaised error => last.verdict = some (.error error)
  | .streamEnded => last.Unmatched true
  | .timedOut _ => last.Unmatched false ∧ ∃ time, .checked time ∈ after ∧ args.within ≤ time

/-- The log has a last look, `after` what came since, and the looks before it were all
in vain. -/
def LastLook (log : List ProbeEvent) (last : Looked) (after : List ProbeEvent) : Prop :=
  ∃ before, log = before ++ .looked last :: after ∧ looks after = [] ∧
    ∀ look ∈ looks before, look.Unmatched false

theorem LastLook.append (h : LastLook log last after) (hquiet : looks evs = []) :
    LastLook (log ++ evs) last (after ++ evs) := by
  obtain ⟨before, rfl, hafter, hbefore⟩ := h
  exact ⟨before, by simp, by simp [hafter, hquiet], hbefore⟩

theorem LastLook.looks (h : LastLook log last after) :
    ∃ before, looks log = before ++ [last] ∧ ∀ look ∈ before, look.Unmatched false := by
  obtain ⟨before, rfl, hafter, hbefore⟩ := h
  exact ⟨_, by simp [ProbeEvent.look, hafter], hbefore⟩

theorem ProbeEnd.Follows.append {how : ProbeEnd} (h : how.Follows args last after)
    (evs : List ProbeEvent) : how.Follows args last (after ++ evs) := by
  cases how with
  | timedOut =>
    obtain ⟨hlast, time, hmem, htime⟩ := h
    exact ⟨hlast, time, List.mem_append_left _ hmem, htime⟩
  | _ => exact h

/-- The looks so far found nothing, up to the one that ended the probe. -/
def ProbePhase.Answers (args : TailArgs) (log : List ProbeEvent) : ProbePhase → Prop
  | .looking | .testing .. | .sleeping _ => ∀ look ∈ looks log, look.Unmatched false
  | .checking => ∃ last after, LastLook log last after ∧ last.Unmatched false
  | .ended how => ∃ last after, LastLook log last after ∧ how.Follows args last after

theorem ProbePhase.Answers.append {phase : ProbePhase} (h : phase.Answers args log)
    (hquiet : looks evs = []) : phase.Answers args (log ++ evs) := by
  cases phase with
  | looking | testing | sleeping =>
    intro look hlook
    exact h look (by simpa [hquiet] using hlook)
  | checking =>
    obtain ⟨last, after, hlast, hnone⟩ := h
    exact ⟨last, _, hlast.append hquiet, hnone⟩
  | ended how =>
    obtain ⟨last, after, hlast, hhow⟩ := h
    exact ⟨last, _, hlast.append hquiet, hhow.append evs⟩

theorem Judged.answers (hj : Judged look next) (h : ∀ look ∈ looks log, look.Unmatched false) :
    next.Answers args (log ++ [.looked look]) := by
  have hlast : LastLook (log ++ [.looked look]) look [] := ⟨log, rfl, rfl, h⟩
  cases hj with
  | failed herror hverdict => exact ⟨look, [], hlast, herror, hverdict⟩
  | raised herror => exact ⟨look, [], hlast, herror⟩
  | accepted haccepted => exact ⟨look, [], hlast, haccepted⟩
  | @unmatched closed hnone =>
    cases closed with
    | true => exact ⟨look, [], hlast, hnone⟩
    | false => exact ⟨look, [], hlast, hnone⟩

theorem Probe.Step.answers {p p' : Probe π} (hs : Step args p p' evs)
    (h : p.phase.Answers args log) : p'.phase.Answers args (log ++ evs) := by
  cases hs with
  | found kept hphase =>
    rw [hphase] at h
    simpa [ProbePhase.Answers] using h
  | judged kept next hphase _ hj =>
    refine hj.answers ?_
    obtain hphase | ⟨since, tail, closed, hphase⟩ := hphase
    all_goals
      rw [hphase] at h
      exact h
  | timedOut hphase hover =>
    rw [hphase] at h
    obtain ⟨last, after, hlast, hnone⟩ := h
    exact ⟨last, _, hlast.append rfl, hnone, p.now, by simp, hover⟩
  | sleep hphase =>
    rw [hphase] at h
    obtain ⟨last, after, hlast, hnone⟩ := h
    obtain ⟨before, hlooks, hbefore⟩ := hlast.looks
    intro look hlook
    have hlook : look ∈ before ++ [last] := by simpa [ProbeEvent.look, hlooks] using hlook
    rcases List.mem_append.mp hlook with hlook | hlook
    · exact hbefore look hlook
    · exact List.mem_singleton.mp hlook ▸ hnone
  | wake hphase =>
    rw [hphase] at h
    simpa [ProbePhase.Answers] using h
  | pass => exact h.append rfl
  | use => exact h.append rfl
  | take => exact h.append rfl

-- ---------------------------------------------------------------------------
-- How many looks, how long between them
-- ---------------------------------------------------------------------------

/-- The `count` looks so far were spaced by the polling interval, up to the deadline. -/
def ProbePhase.Paced (args : TailArgs) (now count : Nat) : ProbePhase → Prop
  | .looking | .testing .. =>
    min (count * tailPollInterval) args.within ≤ now ∧ (count - 1) * tailPollInterval ≤ args.within
  | .checking =>
    min ((count - 1) * tailPollInterval) args.within ≤ now ∧
      (count - 2) * tailPollInterval ≤ args.within
  | .sleeping wakeAt =>
    min (count * tailPollInterval) args.within ≤ wakeAt ∧
      (count - 1) * tailPollInterval ≤ args.within
  | .ended _ => (count - 2) * tailPollInterval ≤ args.within

theorem Probe.Step.paced {p p' : Probe π} (hs : Step args p p' evs)
    (h : p.phase.Paced args p.now (looks log).length) :
    p'.phase.Paced args p'.now (looks (log ++ evs)).length := by
  cases hs with
  | found kept hphase =>
    rw [hphase] at h
    simpa [ProbePhase.Paced] using h
  | judged kept next hphase _ hj =>
    have hbefore : min ((looks log).length * tailPollInterval) args.within ≤ p.now ∧
        ((looks log).length - 1) * tailPollInterval ≤ args.within := by
      obtain hphase | ⟨since, tail, closed, hphase⟩ := hphase
      all_goals
        rw [hphase] at h
        exact h
    simp only [looks_append, looks_cons, ProbeEvent.look, looks_nil, List.length_append]
    cases hj with
    | @unmatched closed =>
      cases closed with
      | true => simpa [ProbePhase.unmatched, ProbePhase.Paced] using hbefore.2
      | false => simpa [ProbePhase.unmatched, ProbePhase.Paced] using hbefore
    | _ => simpa [ProbePhase.Paced] using hbefore.2
  | timedOut hphase =>
    rw [hphase] at h
    simpa [ProbePhase.Paced, ProbeEvent.look] using h.2
  | sleep hphase hleft hasked =>
    rw [hphase] at h
    simp only [ProbePhase.Paced, looks_append, looks_cons, ProbeEvent.look, looks_nil,
      Option.toList_none, List.append_nil] at h ⊢
    have hnext : (looks log).length * tailPollInterval ≤
        ((looks log).length - 1) * tailPollInterval + tailPollInterval := by
      rw [← Nat.succ_mul]
      exact Nat.mul_le_mul_right _ (by omega)
    omega
  | wake hphase hover =>
    rw [hphase] at h
    simp only [ProbePhase.Paced, List.append_nil] at h ⊢
    exact ⟨h.1.trans hover, h.2⟩
  | @pass elapsed =>
    cases hphase : p.phase with
    | looking | testing | checking =>
      rw [hphase] at h
      simp only [ProbePhase.Paced, List.append_nil] at h ⊢
      exact ⟨h.1.trans (Nat.le_add_right _ _), h.2⟩
    | sleeping | ended =>
      rw [hphase] at h
      simpa [ProbePhase.Paced] using h
  | use => simpa using h
  | take => simpa [ProbeEvent.look] using h

theorem ProbePhase.Paced.count_le {phase : ProbePhase} (h : phase.Paced args now count) :
    count ≤ args.within / tailPollInterval + 2 := by
  have hpoll : 0 < tailPollInterval := by decide
  have hcount : (count - 2) * tailPollInterval ≤ args.within := by
    have hmono : (count - 2) * tailPollInterval ≤ (count - 1) * tailPollInterval :=
      Nat.mul_le_mul_right _ (by omega)
    cases phase with
    | ended => exact h
    | checking => exact h.2
    | _ => exact hmono.trans h.2
  have hdiv : count - 2 ≤ args.within / tailPollInterval := (Nat.le_div_iff_mul_le hpoll).mpr hcount
  omega

/-- A sleep is no longer than the polling interval or than what is left. -/
def Bounded (args : TailArgs) : ProbeEvent → Prop
  | .slept time asked => asked ≤ tailPollInterval ∧ time + asked ≤ args.within
  | .looked _ | .checked _ | .taken => True

theorem Probe.Step.bounded {p p' : Probe π} (hs : Step args p p' evs) :
    ∀ ev ∈ evs, Bounded args ev := by
  cases hs with
  | sleep hphase hleft hasked =>
    intro ev hev
    rcases List.mem_cons.mp hev with rfl | hev
    · trivial
    · obtain rfl := List.mem_singleton.mp hev
      have hpoll := hasked ▸ Nat.min_le_left tailPollInterval (args.within - p.now)
      have hrest := hasked ▸ Nat.min_le_right tailPollInterval (args.within - p.now)
      exact ⟨hpoll, (Nat.le_sub_iff_add_le' hleft.le).mp hrest⟩
  | _ => simp [Bounded]

theorem Probe.Step.slot {p p' : Probe π} (hs : Step args p p' evs) (hnone : p'.slot = none) :
    p.slot = none ∨ .taken ∈ evs := by
  cases hs with
  | found kept _ hkept | judged kept _ _ hkept | use kept hkept =>
    refine .inl ?_
    rwa [← Option.isNone_iff_eq_none, ← Option.not_isSome, ← hkept, Option.not_isSome,
      Option.isNone_iff_eq_none]
  | take => exact .inr (by simp)
  | _ => exact .inl hnone

-- ---------------------------------------------------------------------------
-- Whole runs
-- ---------------------------------------------------------------------------

def Probe.answer (args : TailArgs) (p : Probe π) : Option (PyResult String) :=
  match p.phase with
  | .ended how => some (how.result args)
  | _ => none

section Runs

variable {args : TailArgs} {running : π} {s : Probe π} {log : List ProbeEvent}

theorem reachable_answers (h : (probePartialTail args running).Reachable s log) :
    s.phase.Answers args log :=
  h.invariant (P := fun s log => s.phase.Answers args log) nofun
    fun _ _ a _ _ hp _ hs => (Probe.Step.of_step a hs).answers hp

theorem reachable_paced (h : (probePartialTail args running).Reachable s log) :
    s.phase.Paced args s.now (looks log).length :=
  h.invariant (P := fun s log => s.phase.Paced args s.now (looks log).length)
    (by simp [probePartialTail, ProbePhase.Paced])
    fun _ _ a _ _ hp _ hs => (Probe.Step.of_step a hs).paced hp

theorem tailProbeArgs_within (h : tailProbeArgs predicate timeout = .ok (matcher, within)) :
    within ≤ maxTailTimeout := by
  simp only [tailProbeArgs, bind, Except.bind, pure, Except.pure] at h
  split at h
  · cases h
  · split at h <;> cases h
    exact min_le_right ..

/-- Whatever timeout a call is let through with, its probe looks only so often. -/
theorem tailProbeArgs_looks
    (hargs : tailProbeArgs predicate timeout = .ok (args.matcher, args.within))
    (h : (probePartialTail args running).Reachable s log) :
    (looks log).length ≤ maxTailTimeout / tailPollInterval + 2 :=
  (reachable_paced h).count_le.trans
    (Nat.add_le_add_right (Nat.div_le_div_right (tailProbeArgs_within hargs)) 2)

theorem reachable_bounded (h : (probePartialTail args running).Reachable s log) :
    ∀ ev ∈ log, Bounded args ev := by
  refine h.invariant (P := fun _ log => ∀ ev ∈ log, Bounded args ev) nofun ?_
  intro _ log a _ evs hp _ hs ev hev
  rcases List.mem_append.mp hev with hev | hev
  · exact hp ev hev
  · exact (Probe.Step.of_step a hs).bounded ev hev

theorem reachable_slot (h : (probePartialTail args running).Reachable s log)
    (hnone : s.slot = none) : .taken ∈ log := by
  refine h.invariant (P := fun s log => s.slot = none → .taken ∈ log) nofun ?_ hnone
  intro _ log a _ evs hp _ hs hnone
  rcases (Probe.Step.of_step a hs).slot hnone with hold | htaken
  · exact List.mem_append_left _ (hp hold)
  · exact List.mem_append_right _ htaken

theorem ProbePhase.Answers.ended {phase : ProbePhase} (h : phase.Answers args log)
    (hlook : look ∈ looks log) (hfound : ¬ look.Unmatched false) :
    ∃ how after, phase = .ended how ∧ how.Follows args look after := by
  have hearlier {last : Looked} {after : List ProbeEvent} (hlast : LastLook log last after) :
      look = last := by
    obtain ⟨before, hlooks, hbefore⟩ := hlast.looks
    rw [hlooks] at hlook
    rcases List.mem_append.mp hlook with hlook | hlook
    · exact absurd (hbefore look hlook) hfound
    · exact List.mem_singleton.mp hlook
  cases phase with
  | looking | testing | sleeping => exact absurd (h look hlook) hfound
  | checking =>
    obtain ⟨last, after, hlast, hnone⟩ := h
    exact absurd (hearlier hlast ▸ hnone) hfound
  | ended how =>
    obtain ⟨last, after, hlast, hhow⟩ := h
    exact ⟨how, after, rfl, hearlier hlast ▸ hhow⟩

theorem Looked.Unmatched.verdict {look : Looked} (h : look.Unmatched closed) :
    look.verdict = none ∨ look.verdict = some (.ok false) := by
  rcases h with ⟨_, hverdict⟩ | ⟨_, _, hverdict⟩
  · exact .inl hverdict
  · exact .inr hverdict

theorem ProbePhase.Answers.accepted {phase : ProbePhase} (h : phase.Answers args log)
    (hlook : look ∈ looks log) (haccepted : look.Accepted tail) :
    phase = .ended (.matched tail) := by
  obtain ⟨⟨closed, hfound⟩, hverdict⟩ := haccepted
  have hvain {closed : Bool} (hnone : look.Unmatched closed) : False := by
    rcases hnone.verdict with hv | hv <;> simp [hverdict] at hv
  obtain ⟨how, after, rfl, hhow⟩ := h.ended hlook fun hnone => hvain hnone
  cases how with
  | matched other =>
    obtain ⟨⟨_, hother⟩, _⟩ := hhow
    rw [hfound] at hother
    cases hother
    rfl
  | lookFailed => simp [ProbeEnd.Follows, hfound] at hhow
  | predicateRaised => simp [ProbeEnd.Follows, hverdict] at hhow
  | streamEnded => exact (hvain hhow).elim
  | timedOut => exact (hvain hhow.1).elim

theorem ProbePhase.Answers.raised {phase : ProbePhase} (h : phase.Answers args log)
    (hlook : look ∈ looks log) (hverdict : look.verdict = some (.error error)) :
    phase = .ended (.predicateRaised error) := by
  have hvain {closed : Bool} (hnone : look.Unmatched closed) : False := by
    rcases hnone.verdict with hv | hv <;> simp [hverdict] at hv
  obtain ⟨how, after, rfl, hhow⟩ := h.ended hlook fun hnone => hvain hnone
  cases how with
  | matched other => simp [ProbeEnd.Follows, Looked.Accepted, hverdict] at hhow
  | lookFailed => simp [ProbeEnd.Follows, hverdict] at hhow
  | predicateRaised =>
    simp only [ProbeEnd.Follows, hverdict, Option.some.injEq, Except.error.injEq] at hhow
    rw [hhow]
  | streamEnded => exact (hvain hhow).elim
  | timedOut => exact (hvain hhow.1).elim

/-- Every look before the last was in vain and the last one decides: a match is
returned, the predicate's own exception leaves as it is, a closed stream is reported
only where the closing look was in vain too, and a timeout only where the stream was
open and the clock, read after the look, had reached the deadline. -/
theorem probePartialTail_answers (h : (probePartialTail args running).Reachable s log) :
    (∀ how, s.phase = .ended how →
      ∃ last after, LastLook log last after ∧ how.Follows args last after) ∧
    (∀ look ∈ looks log, ∀ tail, look.Accepted tail → s.answer args = some (.ok tail)) ∧
    (∀ look ∈ looks log, ∀ error, look.verdict = some (.error error) →
      s.answer args = some (.error error)) ∧
    (∀ ev ∈ log, Bounded args ev) ∧
    (looks log).length ≤ args.within / tailPollInterval + 2 ∧
    (s.slot = none → .taken ∈ log) := by
  have hanswers := reachable_answers h
  refine ⟨?_, ?_, ?_, reachable_bounded h, (reachable_paced h).count_le, reachable_slot h⟩
  · intro how hhow
    rw [hhow] at hanswers
    exact hanswers
  · intro look hlook tail haccepted
    simp [Probe.answer, hanswers.accepted hlook haccepted, ProbeEnd.result]
  · intro look hlook error hraised
    simp [Probe.answer, hanswers.raised hlook hraised, ProbeEnd.result]

end Runs

def promptArgs : TailArgs := ⟨"sh", .stdout, .substring "$ ", second, "1"⟩

/-- The prompt arrives with the closing look, after the deadline. -/
theorem probePartialTail_answers_prompt :
    ∃ s log, (probePartialTail promptArgs ()).Reachable s log ∧
      s.answer promptArgs = some (.ok "$ ") := by
  obtain ⟨s, log, hr, hs⟩ := Transition.Machine.reach_replay (m := probePartialTail promptArgs ())
    [.look fun _ => ((), none, .pending), .check true, .pass second, .wake,
      .look fun _ => ((), some "$ ", .notReady), .test none]
    (fun _ log => (looks log).getLast?) (fun _ _ _ => trivial) rfl
  have hlook := List.mem_of_getLast? hs
  exact ⟨s, log, hr, (probePartialTail_answers hr).2.1 _ hlook _ ⟨⟨_, rfl⟩, rfl⟩⟩

/-- The look finds nothing, the thread is held up, and the clock is read a second
later: the only look was before the deadline. -/
theorem waitTimeout_after_early_look :
    ∃ s log, (probePartialTail promptArgs ()).Reachable s log ∧
      s.phase = .ended (.timedOut true) ∧ ∀ look ∈ looks log, look.time < promptArgs.within := by
  obtain ⟨s, log, hr, hs⟩ := Transition.Machine.reach_replay (m := probePartialTail promptArgs ())
    [.look fun _ => ((), none, .pending), .pass second, .check true]
    (fun s log => (s.phase, looks log)) (fun _ _ _ => trivial) rfl
  obtain ⟨hphase, hlooks⟩ := Prod.mk.inj hs
  refine ⟨s, log, hr, hphase, fun look hlook => ?_⟩
  rw [hlooks] at hlook
  obtain rfl := List.mem_singleton.mp hlook
  decide

end ProcessKit.Running

import ProcessKit.Runner.When
import ProcessKit.Transition

/-!
# Supervision and the errors of its callbacks

The crate's supervision loop asks infallible hooks. A control predicate
(`stop_when`, `give_up_when`) that fails puts its error into a slot and answers
"stop"; a runner's `when` predicate that fails leaves its error in the
`WhenCaptureRunner` cell, and the `stop_when` hook, which is always installed,
answers "stop" while the cell is full. The drivers read the cell, then the slot,
then the loop's own result.

The loop asks `stop_when` only about a completed run. An incarnation that ends
in a launch error, or that the liveness check kills, goes past that hook. The
probe of that check shares the control predicates' slot, and stops nothing.
-/

namespace ProcessKit.Supervisor

open ProcessKit.Runtime (PyErr PyResult)
open ProcessKit.Runner

abbrev ErrorSlot := Option PyErr

def recordSlotError (slot : ErrorSlot) (err : PyErr) : ErrorSlot :=
  if slot.isNone then some err else slot

def takeSlotError (slot : ErrorSlot) : Option PyErr × ErrorSlot := (slot, none)

/-- A control predicate: its verdict, and the slot it leaves. -/
def controlPredicate (called : Called) (slot : ErrorSlot) : Bool × ErrorSlot :=
  match called.verdict with
  | none => (false, slot)
  | some (.ok verdict) => (verdict, slot)
  | some (.error err) => (true, recordSlotError slot err)

def makeStopPredicate (called : Called) (slot : ErrorSlot) : Bool × ErrorSlot :=
  controlPredicate called slot

def makeGiveUpClassifier (called : Called) (slot : ErrorSlot) : Bool × ErrorSlot :=
  controlPredicate called slot

/-- The liveness probe's answer; one that fails is unhealthy. -/
def makeHealthProbe (called : Called) (slot : ErrorSlot) : Bool × ErrorSlot :=
  match called.verdict with
  | none => (true, slot)
  | some (.ok healthy) => (healthy, slot)
  | some (.error err) => (false, recordSlotError slot err)

inductive RestartPolicy
  | always
  | never
  | onCrash
  deriving DecidableEq

inductive StopReason
  | policySatisfied
  | predicate
  | restartsExhausted
  | gaveUp
  | unhealthy
  | stopped
  deriving DecidableEq

structure SupervisionOutcome (α : Type) where
  finalResult : α
  restarts : Nat
  stopped : StopReason
  livenessKills : Nat
  deriving DecidableEq

/-- `stopWhen` and `giveUpWhen` are whether the caller passed one; `healthCheck`
is `health_check_failures`, where there is a `health_check`. -/
structure Config where
  policy : RestartPolicy
  maxRestarts : Option Nat
  stopWhen : Bool
  giveUpWhen : Bool
  healthCheck : Option Nat
  deriving DecidableEq

/-- How an incarnation ended: with a result, which may be a crash; with the
error of a launch that gave none; or killed by the liveness check, which lets
the runner's verb end or drops it. -/
inductive Ran (κ α : Type)
  | ok (result : α) (crashed : Bool)
  | err (error : κ)
  | killed (result : α) (verbEnded : Bool)
  deriving DecidableEq

def Ran.verbEnded : Ran κ α → Bool
  | .ok .. | .err _ => true
  | .killed _ verbEnded => verbEnded

def Ran.isKilled : Ran κ α → Bool
  | .ok .. | .err _ => false
  | .killed .. => true

/-- What happens while an incarnation runs: the errors that the runner's
callbacks raise, the calls of the liveness probe, and whether the runner's verb
came to its end. -/
structure Life where
  whenErrors : List PyErr
  probes : List Called
  verbEnded : Bool
  deriving DecidableEq

structure Incarnation (κ α : Type) where
  whenErrors : List PyErr
  probes : List Called
  ran : Ran κ α
  stopWhen : Called
  giveUpWhen : Called
  deriving DecidableEq

def Incarnation.life (inc : Incarnation κ α) : Life :=
  ⟨inc.whenErrors, inc.probes, inc.ran.verbEnded⟩

/-- A supervision; `ended` is what the crate's loop returned. -/
structure Supervision (κ α : Type) where
  completed : CompletedCell
  errorSlot : ErrorSlot
  restarts : Nat
  livenessKills : Nat
  ended : Option (Except κ (SupervisionOutcome α))

def Supervision.new : Supervision κ α where
  completed := none
  errorSlot := none
  restarts := 0
  livenessKills := 0
  ended := none

inductive Event
  | started
  | whenRaised (error : PyErr)
  | probeRaised (error : PyErr)
  | controlRaised (error : PyErr)
  deriving DecidableEq

/-- `stop` is a session's stop, which ends the loop wherever it is: in an
incarnation, of which it leaves `life`, or between two. -/
inductive Action (κ α : Type)
  | incarnate (incarnation : Incarnation κ α)
  | stop (life : Option Life) (result : Except κ (SupervisionOutcome α))

-- ---------------------------------------------------------------------------
-- The crate's loop
-- ---------------------------------------------------------------------------

def RestartPolicy.restarts : RestartPolicy → Bool → Bool
  | .always, _ => true
  | .never, _ => false
  | .onCrash, crashed => crashed

def Config.exhausted (cfg : Config) (restarts : Nat) : Bool :=
  cfg.maxRestarts.any (· ≤ restarts)

def failedStreak (probes : List Called) : Nat :=
  (probes.reverse.takeWhile fun called => !(makeHealthProbe called none).1).length

/-- Only a health check probes, and it kills only after its failures in a row. -/
def Config.admits (cfg : Config) (inc : Incarnation κ α) : Bool :=
  match cfg.healthCheck with
  | none => inc.probes.isEmpty && !inc.ran.isKilled
  | some failures => !inc.ran.isKilled || failures ≤ failedStreak inc.probes

/-- What asking a hook gives: its verdict, the slot, and the error it raised. -/
structure Asked where
  verdict : Bool
  slot : ErrorSlot
  raised : List Event

def notAsked (slot : ErrorSlot) : Asked := ⟨false, slot, []⟩

def askControl (predicate : Called → ErrorSlot → Bool × ErrorSlot) (called : Called)
    (slot : ErrorSlot) : Asked :=
  let answer := predicate called slot
  ⟨answer.1, answer.2, called.error.toList.map .controlRaised⟩

def askStop (cfg : Config) (completed : CompletedCell) (called : Called) (slot : ErrorSlot) :
    Asked :=
  if completed.hasCompletedError then ⟨true, slot, []⟩
  else if cfg.stopWhen then askControl makeStopPredicate called slot
  else notAsked slot

def askGiveUp (cfg : Config) (called : Called) (slot : ErrorSlot) : Asked :=
  if cfg.giveUpWhen then askControl makeGiveUpClassifier called slot else notAsked slot

def probeAll (probes : List Called) (slot : ErrorSlot) : ErrorSlot :=
  probes.foldl (fun slot called => (makeHealthProbe called slot).2) slot

def Life.heard (life : Life) : List Event :=
  life.whenErrors.map .whenRaised ++ (life.probes.filterMap Called.error).map .probeRaised

namespace Supervision

def handOff (s : Supervision κ α) (whenErrors : List PyErr) : Supervision κ α :=
  let sink := (scopeWhen newWhenSink fun slot => ((), stashAll whenErrors slot)).2
  { s with completed := s.completed.handOff sink }

/-- An incarnation has been. A verb that is dropped takes its sink with it. -/
def live (s : Supervision κ α) (life : Life) : Supervision κ α :=
  let s := if life.verbEnded then s.handOff life.whenErrors else s
  { s with errorSlot := probeAll life.probes s.errorSlot }

def outcome (s : Supervision κ α) (result : α) (reason : StopReason) : SupervisionOutcome α :=
  ⟨result, s.restarts, reason, s.livenessKills⟩

/-- The policy restarts what was not given up, while restarts are left. -/
def restartOr (cfg : Config) (s : Supervision κ α)
    (exhausted : Except κ (SupervisionOutcome α)) : Supervision κ α :=
  if cfg.exhausted s.restarts then { s with ended := some exhausted }
  else { s with restarts := s.restarts + 1 }

def giveUpOr (cfg : Config) (s : Supervision κ α) (called : Called)
    (gaveUp exhausted : Except κ (SupervisionOutcome α)) : Supervision κ α × List Event :=
  let asked := askGiveUp cfg called s.errorSlot
  let s := { s with errorSlot := asked.slot }
  (if asked.verdict then { s with ended := some gaveUp } else s.restartOr cfg exhausted,
    asked.raised)

variable (terminal : κ → Bool)

/-- What the loop does with an incarnation. `terminal` is the crate's errors
that no policy restarts, a cancelled run's. -/
def decide (cfg : Config) (s : Supervision κ α) (inc : Incarnation κ α) :
    Supervision κ α × List Event :=
  match inc.ran with
  | .ok result crashed =>
    let asked := askStop cfg s.completed inc.stopWhen s.errorSlot
    let s := { s with errorSlot := asked.slot }
    if asked.verdict then
      ({ s with ended := some (.ok (s.outcome result .predicate)) }, asked.raised)
    else if !cfg.policy.restarts crashed then
      ({ s with ended := some (.ok (s.outcome result .policySatisfied)) }, asked.raised)
    else if crashed then
      let after := s.giveUpOr cfg inc.giveUpWhen (.ok (s.outcome result .gaveUp))
        (.ok (s.outcome result .restartsExhausted))
      (after.1, asked.raised ++ after.2)
    else (s.restartOr cfg (.ok (s.outcome result .restartsExhausted)), asked.raised)
  | .err error =>
    if !terminal error && cfg.policy.restarts true then
      s.giveUpOr cfg inc.giveUpWhen (.error error) (.error error)
    else ({ s with ended := some (.error error) }, [])
  | .killed result _ =>
    let s := { s with livenessKills := s.livenessKills + 1 }
    if cfg.policy.restarts true then
      s.giveUpOr cfg inc.giveUpWhen (.ok (s.outcome result .gaveUp))
        (.ok (s.outcome result .restartsExhausted))
    else ({ s with ended := some (.ok (s.outcome result .unhealthy)) }, [])

def step (cfg : Config) (s : Supervision κ α) : Action κ α → Option (Supervision κ α × List Event)
  | .incarnate inc =>
    if s.ended.isNone && cfg.admits inc then
      let decided := (s.live inc.life).decide terminal cfg inc
      some (decided.1, .started :: inc.life.heard ++ decided.2)
    else none
  | .stop life result =>
    if s.ended.isNone then
      match life with
      | some life => some ({ s.live life with ended := some result }, .started :: life.heard)
      | none => some ({ s with ended := some result }, [])
    else none

def machine (cfg : Config) : Transition.Machine (Supervision κ α) (Action κ α) Event where
  init := .new
  step := step terminal cfg

end Supervision

-- ---------------------------------------------------------------------------
-- The drivers
-- ---------------------------------------------------------------------------

inductive Driver
  | run
  | arun
  | wait
  | awaitWait
  | stop
  | astop
  deriving DecidableEq

/-- `convert_py_result`, and what `run` does with the result of `block_on`. -/
def convertPyResult (completed : CompletedCell) (slot : ErrorSlot) (result : PyResult α) :
    PyResult α :=
  match completed.takeCompletedError.1 with
  | some err => .error err
  | none =>
    match (takeSlotError slot).1 with
    | some err => .error err
    | none => result

/-- `convert_result`, and what `arun` does with the loop's result. -/
def convertResult (mapErr : κ → PyErr) (completed : CompletedCell) (slot : ErrorSlot)
    (result : Except κ α) : PyResult α :=
  match completed.takeCompletedError.1 with
  | some err => .error err
  | none =>
    match (takeSlotError slot).1 with
    | some err => .error err
    | none => result.mapError mapErr

def Supervision.answer (mapErr : κ → PyErr) (s : Supervision κ α) :
    Driver → Option (PyResult (SupervisionOutcome α))
  | .run | .wait | .stop =>
    s.ended.map fun result => convertPyResult s.completed s.errorSlot (result.mapError mapErr)
  | .arun | .awaitWait | .astop => s.ended.map (convertResult mapErr s.completed s.errorSlot)

-- ---------------------------------------------------------------------------
-- The errors of a run
-- ---------------------------------------------------------------------------

def Event.whenError : Event → Option PyErr
  | .whenRaised error => some error
  | .started | .probeRaised _ | .controlRaised _ => none

def Event.controlError : Event → Option PyErr
  | .controlRaised error => some error
  | .started | .whenRaised _ | .probeRaised _ => none

/-- The control predicates and the liveness probe have one slot. -/
def Event.slotError : Event → Option PyErr
  | .probeRaised error | .controlRaised error => some error
  | .started | .whenRaised _ => none

def firstWhen (log : List Event) : Option PyErr := log.findSome? Event.whenError
def firstControl (log : List Event) : Option PyErr := log.findSome? Event.controlError
def firstSlot (log : List Event) : Option PyErr := log.findSome? Event.slotError

/-- The defect that is to stop a run: a `when` error goes before a control
predicate's. -/
def defect (log : List Event) : Option PyErr := (firstWhen log).or (firstControl log)

def reported (log : List Event) : Option PyErr := (firstWhen log).or (firstSlot log)

@[simp] theorem firstWhen_append (log evs : List Event) :
    firstWhen (log ++ evs) = (firstWhen log).or (firstWhen evs) := List.findSome?_append

@[simp] theorem firstControl_append (log evs : List Event) :
    firstControl (log ++ evs) = (firstControl log).or (firstControl evs) := List.findSome?_append

@[simp] theorem firstSlot_append (log evs : List Event) :
    firstSlot (log ++ evs) = (firstSlot log).or (firstSlot evs) := List.findSome?_append

@[simp] theorem firstWhen_started (log : List Event) :
    firstWhen (.started :: log) = firstWhen log := rfl

@[simp] theorem firstControl_started (log : List Event) :
    firstControl (.started :: log) = firstControl log := rfl

@[simp] theorem firstSlot_started (log : List Event) :
    firstSlot (.started :: log) = firstSlot log := rfl

@[simp] theorem firstWhen_heard (life : Life) : firstWhen life.heard = life.whenErrors.head? := by
  have hprobes : firstWhen ((life.probes.filterMap Called.error).map .probeRaised) = none := by
    rw [firstWhen, List.findSome?_map]
    exact List.findSome?_eq_none_iff.mpr fun _ _ => rfl
  rw [Life.heard, firstWhen_append, hprobes, Option.or_none]
  cases life.whenErrors <;> rfl

@[simp] theorem firstControl_heard (life : Life) : firstControl life.heard = none := by
  have hwhen : firstControl (life.whenErrors.map .whenRaised) = none := by
    simp [firstControl, Event.controlError]
  rw [Life.heard, firstControl_append, hwhen, Option.none_or, firstControl, List.findSome?_map]
  exact List.findSome?_eq_none_iff.mpr fun _ _ => rfl

theorem firstSlot_heard (life : Life) :
    firstSlot life.heard = (life.probes.filterMap Called.error).head? := by
  have hwhen : firstSlot (life.whenErrors.map .whenRaised) = none := by
    simp [firstSlot, Event.slotError]
  rw [Life.heard, firstSlot_append, hwhen, Option.none_or]
  cases life.probes.filterMap Called.error <;> rfl

theorem Life.started_notMem_heard (life : Life) : .started ∉ life.heard := by
  simp [Life.heard]

theorem probe_slot (called : Called) (slot : ErrorSlot) :
    (makeHealthProbe called slot).2 = slot.or called.error := by
  cases he : called.error with
  | some e =>
    rw [makeHealthProbe, Called.verdict_of_error he]
    cases slot <;> rfl
  | none =>
    rcases Called.verdict_of_no_error he with hv | hv <;> simp [makeHealthProbe, hv]

theorem probeAll_eq (probes : List Called) (slot : ErrorSlot) :
    probeAll probes slot = slot.or (probes.filterMap Called.error).head? := by
  induction probes generalizing slot with
  | nil => simp [probeAll]
  | cons called probes ih =>
    have hstep : probeAll (called :: probes) slot = probeAll probes (slot.or called.error) := by
      rw [← probe_slot]
      rfl
    rw [hstep, ih]
    cases he : called.error <;> cases slot <;> simp [he]

def ControlOnly (evs : List Event) : Prop := ∀ e ∈ evs, ∃ error, e = .controlRaised error

theorem ControlOnly.nil : ControlOnly [] := nofun

theorem ControlOnly.append (h : ControlOnly evs) (h' : ControlOnly evs') :
    ControlOnly (evs ++ evs') := fun e he => (List.mem_append.mp he).elim (h e) (h' e)

theorem ControlOnly.firstWhen_eq (h : ControlOnly evs) : firstWhen evs = none := by
  refine List.findSome?_eq_none_iff.mpr fun e he => ?_
  obtain ⟨error, rfl⟩ := h e he
  rfl

theorem ControlOnly.firstSlot_eq (h : ControlOnly evs) : firstSlot evs = firstControl evs := by
  cases evs with
  | nil => rfl
  | cons e evs =>
    obtain ⟨error, rfl⟩ := h e (by simp)
    rfl

theorem ControlOnly.not_started (h : ControlOnly evs) : .started ∉ evs := by
  intro hmem
  obtain ⟨error, hevent⟩ := h _ hmem
  cases hevent

/-- What a control hook raised is offered to the slot, and its verdict was
"stop". -/
structure Asked.Sound (before : ErrorSlot) (a : Asked) : Prop where
  slot : a.slot = before.or (firstControl a.raised)
  quiet : ControlOnly a.raised
  stops : firstControl a.raised ≠ none → a.verdict = true

theorem notAsked_sound (slot : ErrorSlot) : (notAsked slot).Sound slot :=
  ⟨(Option.or_none).symm, .nil, fun h => absurd rfl h⟩

theorem askControl_sound (called : Called) (slot : ErrorSlot) :
    (askControl controlPredicate called slot).Sound slot := by
  have hquiet : ControlOnly (askControl controlPredicate called slot).raised := by
    intro e he
    obtain ⟨error, -, rfl⟩ := List.mem_map.mp he
    exact ⟨error, rfl⟩
  cases he : called.error with
  | some e =>
    have hv := Called.verdict_of_error he
    refine ⟨?_, hquiet, fun _ => ?_⟩
    · cases slot <;>
        simp [askControl, controlPredicate, hv, he, recordSlotError, firstControl,
          Event.controlError]
    · simp [askControl, controlPredicate, hv]
  | none =>
    rcases Called.verdict_of_no_error he with hv | hv <;> refine ⟨?_, hquiet, ?_⟩ <;>
      simp [askControl, controlPredicate, hv, he, firstControl]

theorem askStop_sound (cfg : Config) (completed : CompletedCell) (called : Called)
    (slot : ErrorSlot) : (askStop cfg completed called slot).Sound slot := by
  unfold askStop
  split
  · exact ⟨(Option.or_none).symm, .nil, fun _ => rfl⟩
  · split
    · exact askControl_sound called slot
    · exact notAsked_sound slot

theorem askGiveUp_sound (cfg : Config) (called : Called) (slot : ErrorSlot) :
    (askGiveUp cfg called slot).Sound slot := by
  unfold askGiveUp
  split
  · exact askControl_sound called slot
  · exact notAsked_sound slot

theorem askStop_completed (cfg : Config) (called : Called) (slot : ErrorSlot)
    {completed : CompletedCell} (h : completed ≠ none) :
    (askStop cfg completed called slot).verdict = true := by
  have hfull : completed.hasCompletedError = true := Option.isSome_iff_ne_none.mpr h
  unfold askStop
  rw [if_pos hfull]

theorem askGiveUp_verdict (cfg : Config) (called : Called) (slot slot' : ErrorSlot) :
    (askGiveUp cfg called slot).verdict = (askGiveUp cfg called slot').verdict := by
  unfold askGiveUp
  split
  · simp only [askControl, makeGiveUpClassifier, controlPredicate]
    split <;> rfl
  · rfl

-- ---------------------------------------------------------------------------
-- One incarnation
-- ---------------------------------------------------------------------------

/-- The policy may restart such an end, and `stop_when` is not asked. -/
def Ran.unasked (terminal : κ → Bool) : Ran κ α → Bool
  | .ok .. => false
  | .err error => !terminal error
  | .killed .. => true

section
variable (terminal : κ → Bool)

/-- The loop goes on after an end that it does not ask `stop_when` about: no
other hook says stop. -/
def RestartsUnasked (cfg : Config) (s : Supervision κ α) (inc : Incarnation κ α) : Prop :=
  inc.ran.unasked terminal = true ∧ cfg.policy.restarts true = true ∧
    (askGiveUp cfg inc.giveUpWhen none).verdict = false ∧ cfg.exhausted s.restarts = false

/-- A runner's callback fails in an incarnation whose verb is dropped, or which
the loop goes on after without asking. -/
def Masked (cfg : Config) (s : Supervision κ α) : Action κ α → Prop
  | .incarnate inc =>
    inc.whenErrors ≠ [] ∧ (inc.ran.verbEnded = false ∨ RestartsUnasked terminal cfg s inc)
  | .stop life _ => ∃ l, life = some l ∧ l.whenErrors ≠ [] ∧ l.verbEnded = false

end

namespace Supervision

variable {terminal : κ → Bool}

@[simp] theorem restartOr_completed (cfg : Config) (s : Supervision κ α)
    (r : Except κ (SupervisionOutcome α)) : (s.restartOr cfg r).completed = s.completed := by
  unfold restartOr
  split <;> rfl

@[simp] theorem restartOr_errorSlot (cfg : Config) (s : Supervision κ α)
    (r : Except κ (SupervisionOutcome α)) : (s.restartOr cfg r).errorSlot = s.errorSlot := by
  unfold restartOr
  split <;> rfl

theorem restartOr_goes {cfg : Config} {s : Supervision κ α} {r : Except κ (SupervisionOutcome α)}
    (h : (s.restartOr cfg r).ended = none) : cfg.exhausted s.restarts = false := by
  unfold restartOr at h
  split at h
  · cases h
  · rename_i hleft
    simpa using hleft

structure Decided (s : Supervision κ α) (d : Supervision κ α × List Event) : Prop where
  completed : d.1.completed = s.completed
  errorSlot : d.1.errorSlot = s.errorSlot.or (firstControl d.2)
  quiet : ControlOnly d.2
  stops : d.1.ended = none → firstControl d.2 = none

theorem giveUpOr_decided (cfg : Config) (s : Supervision κ α) (called : Called)
    (gaveUp exhausted : Except κ (SupervisionOutcome α)) :
    s.Decided (s.giveUpOr cfg called gaveUp exhausted) := by
  have hask := askGiveUp_sound cfg called s.errorSlot
  refine ⟨?_, ?_, hask.quiet, fun hend => ?_⟩
  · simp only [giveUpOr]
    split <;> simp
  · simp only [giveUpOr]
    split <;> simp [hask.slot]
  · simp only [giveUpOr] at hend ⊢
    split at hend
    · cases hend
    · rename_i hv
      by_contra hraised
      exact hv (hask.stops hraised)

theorem giveUpOr_goes {cfg : Config} {s : Supervision κ α} {called : Called}
    {gaveUp exhausted : Except κ (SupervisionOutcome α)}
    (h : (s.giveUpOr cfg called gaveUp exhausted).1.ended = none) :
    (askGiveUp cfg called none).verdict = false ∧ cfg.exhausted s.restarts = false := by
  simp only [giveUpOr] at h
  split at h
  · cases h
  · rename_i hv
    have hleft := restartOr_goes h
    refine ⟨?_, hleft⟩
    rw [askGiveUp_verdict cfg called none s.errorSlot]
    simpa using hv

theorem decide_decided (cfg : Config) (s : Supervision κ α) (inc : Incarnation κ α) :
    s.Decided (s.decide terminal cfg inc) := by
  unfold decide
  split
  · rename_i result crashed _
    have hask := askStop_sound cfg s.completed inc.stopWhen s.errorSlot
    generalize askStop cfg s.completed inc.stopWhen s.errorSlot = asked at hask
    have hquiet : asked.verdict ≠ true → firstControl asked.raised = none := fun hv =>
      by_contra fun hne => hv (hask.stops hne)
    dsimp only
    split
    · exact ⟨rfl, hask.slot, hask.quiet, nofun⟩
    · rename_i hv
      split
      · exact ⟨rfl, hask.slot, hask.quiet, nofun⟩
      · split
        · have hgive := giveUpOr_decided cfg { s with errorSlot := asked.slot } inc.giveUpWhen
            (.ok (outcome { s with errorSlot := asked.slot } result .gaveUp))
            (.ok (outcome { s with errorSlot := asked.slot } result .restartsExhausted))
          refine ⟨hgive.completed, ?_, hask.quiet.append hgive.quiet, fun hend => ?_⟩
          · rw [hgive.errorSlot, hask.slot, firstControl_append, Option.or_assoc]
          · rw [firstControl_append, hquiet hv, Option.none_or]
            exact hgive.stops hend
        · refine ⟨?_, ?_, hask.quiet, fun _ => hquiet hv⟩
          · simp
          · simpa using hask.slot
  · split
    · exact giveUpOr_decided cfg s inc.giveUpWhen _ _
    · exact ⟨rfl, Option.or_none.symm, .nil, nofun⟩
  · dsimp only
    split
    · have hgive := giveUpOr_decided cfg { s with livenessKills := s.livenessKills + 1 }
        inc.giveUpWhen
      exact ⟨(hgive _ _).completed, (hgive _ _).errorSlot, (hgive _ _).quiet, (hgive _ _).stops⟩
    · exact ⟨rfl, Option.or_none.symm, .nil, nofun⟩

theorem decide_full {cfg : Config} {s : Supervision κ α} {inc : Incarnation κ α}
    (hfull : s.completed ≠ none) (hend : (s.decide terminal cfg inc).1.ended = none) :
    RestartsUnasked terminal cfg s inc := by
  unfold decide at hend
  split at hend
  · simp [askStop_completed cfg inc.stopWhen s.errorSlot hfull] at hend
  · rename_i error hran
    split at hend
    · rename_i hgoes
      obtain ⟨hterminal, hpolicy⟩ := (Bool.and_eq_true _ _).mp hgoes
      refine ⟨?_, hpolicy, giveUpOr_goes hend⟩
      rw [hran]
      exact hterminal
    · cases hend
  · rename_i result verbEnded hran
    dsimp only at hend
    split at hend
    · rename_i hpolicy
      have hgoes := giveUpOr_goes hend
      refine ⟨?_, hpolicy, hgoes⟩
      rw [hran]
      rfl
    · cases hend

theorem handOff_completed {s : Supervision κ α} (h : s.completed = none)
    (whenErrors : List PyErr) : (s.handOff whenErrors).completed = whenErrors.head? := by
  simp only [handOff, h, scopeWhen_stashAll, CompletedCell.handOff_empty]
  rfl

theorem live_completed {s : Supervision κ α} (h : s.completed = none) {life : Life}
    (hkept : life.whenErrors = [] ∨ life.verbEnded = true) :
    (s.live life).completed = life.whenErrors.head? := by
  unfold live
  dsimp only
  split
  · exact handOff_completed h life.whenErrors
  · rename_i hdropped
    rw [h, hkept.resolve_right hdropped]
    rfl

@[simp] theorem live_restarts (s : Supervision κ α) (life : Life) :
    (s.live life).restarts = s.restarts := by
  unfold live
  dsimp only
  split <;> rfl

theorem live_errorSlot (s : Supervision κ α) (life : Life) :
    (s.live life).errorSlot = s.errorSlot.or (firstSlot life.heard) := by
  rw [firstSlot_heard, ← probeAll_eq]
  unfold live
  dsimp only
  split <;> rfl

-- ---------------------------------------------------------------------------
-- A whole run
-- ---------------------------------------------------------------------------

structure Tracked (s : Supervision κ α) (log : List Event) : Prop where
  completed : s.completed = firstWhen log
  errorSlot : s.errorSlot = firstSlot log
  clean : s.ended = none → defect log = none
  halts : Transition.Justified (fun before e => e = .started → defect before = none) log

theorem Tracked.new : (Supervision.new : Supervision κ α).Tracked [] :=
  ⟨rfl, rfl, fun _ => rfl, .nil⟩

theorem Tracked.started {s : Supervision κ α} (h : s.Tracked log) (hend : s.ended = none)
    (hevs : .started ∉ evs) :
    Transition.Justified (fun before e => e = .started → defect before = none)
      (log ++ .started :: evs) := by
  refine h.halts.append fun before e after heq hstart => ?_
  subst hstart
  cases before with
  | nil => simpa using h.clean hend
  | cons e before =>
    obtain ⟨-, hrest⟩ := List.cons.inj heq
    simp [hrest] at hevs

theorem Tracked.incarnate {s : Supervision κ α} (h : s.Tracked log) (hend : s.ended = none)
    (inc : Incarnation κ α) (hmask : ¬ Masked terminal cfg s (.incarnate inc)) :
    let decided := (s.live inc.life).decide terminal cfg inc
    decided.1.Tracked (log ++ .started :: inc.life.heard ++ decided.2) := by
  intro decided
  obtain ⟨hwhen, hcontrol⟩ := Option.or_eq_none_iff.mp (h.clean hend)
  have hkept : inc.life.whenErrors = [] ∨ inc.life.verbEnded = true := by
    by_contra hlost
    obtain ⟨hne, hdropped⟩ := not_or.mp hlost
    exact hmask ⟨hne, .inl (Bool.eq_false_iff.mpr hdropped)⟩
  have hcell := live_completed (h.completed.trans hwhen) hkept
  have hdecided : (s.live inc.life).Decided decided := decide_decided cfg _ inc
  refine ⟨?_, ?_, fun hgoes => ?_, ?_⟩
  · rw [hdecided.completed, hcell]
    simp [hwhen, hdecided.quiet.firstWhen_eq]
  · rw [hdecided.errorSlot, live_errorSlot, h.errorSlot, ← hdecided.quiet.firstSlot_eq]
    simp [Option.or_assoc]
  · -- the incarnation raised nothing, or the loop went past the hook
    have hnone : inc.whenErrors = [] := by
      by_contra hne
      have hfull : (s.live inc.life).completed ≠ none := by
        rwa [hcell, Ne, List.head?_eq_none_iff]
      obtain ⟨hunasked, hpolicy, hverdict, hleft⟩ := decide_full hfull hgoes
      rw [live_restarts] at hleft
      exact hmask ⟨hne, .inr ⟨hunasked, hpolicy, hverdict, hleft⟩⟩
    simp [defect, hwhen, hcontrol, hdecided.quiet.firstWhen_eq, hdecided.stops hgoes,
      Incarnation.life, hnone]
  · rw [List.append_assoc, List.cons_append]
    refine h.started hend fun hmem => ?_
    rcases List.mem_append.mp hmem with hmem | hmem
    · exact Life.started_notMem_heard _ hmem
    · exact hdecided.quiet.not_started hmem

theorem Tracked.stop {s : Supervision κ α} (h : s.Tracked log) (hend : s.ended = none)
    (life : Life) (result : Except κ (SupervisionOutcome α))
    (hmask : ¬ Masked terminal cfg s (.stop (some life) result)) :
    ({ s.live life with ended := some result } : Supervision κ α).Tracked
      (log ++ .started :: life.heard) := by
  obtain ⟨hwhen, -⟩ := Option.or_eq_none_iff.mp (h.clean hend)
  have hkept : life.whenErrors = [] ∨ life.verbEnded = true := by
    by_contra hlost
    obtain ⟨hne, hdropped⟩ := not_or.mp hlost
    exact hmask ⟨life, rfl, hne, Bool.eq_false_iff.mpr hdropped⟩
  refine ⟨?_, ?_, nofun, h.started hend (Life.started_notMem_heard life)⟩
  · simpa [hwhen] using live_completed (h.completed.trans hwhen) hkept
  · rw [live_errorSlot, h.errorSlot]
    simp

theorem Tracked.step {s : Supervision κ α} (h : s.Tracked log) (hmask : ¬ Masked terminal cfg s a)
    (hstep : s.step terminal cfg a = some (s', evs)) : s'.Tracked (log ++ evs) := by
  unfold Supervision.step at hstep
  split at hstep
  case h_1 inc =>
    obtain ⟨hopen, hgoes⟩ := Option.ite_none_right_eq_some.mp hstep
    obtain ⟨hend, -⟩ := (Bool.and_eq_true _ _).mp hopen
    obtain ⟨rfl, rfl⟩ := Prod.mk.inj (Option.some.inj hgoes)
    simpa using h.incarnate (Option.isNone_iff_eq_none.mp hend) inc hmask
  case h_2 life result =>
    obtain ⟨hend, hgoes⟩ := Option.ite_none_right_eq_some.mp hstep
    split at hgoes
    · obtain ⟨rfl, rfl⟩ := Prod.mk.inj (Option.some.inj hgoes)
      exact h.stop (Option.isNone_iff_eq_none.mp hend) _ result hmask
    · obtain ⟨rfl, rfl⟩ := Prod.mk.inj (Option.some.inj hgoes)
      rw [List.append_nil]
      exact ⟨h.completed, h.errorSlot, nofun, h.halts⟩

theorem answer_eq (mapErr : κ → PyErr) {s : Supervision κ α} (h : s.Tracked log)
    (driver : Driver) : s.answer mapErr driver =
      s.ended.map fun result => ((reported log).map Except.error).getD (result.mapError mapErr) := by
  have hread : ∀ result : PyResult (SupervisionOutcome α),
      convertPyResult s.completed s.errorSlot result =
        ((reported log).map Except.error).getD result := by
    intro result
    simp only [convertPyResult, CompletedCell.takeCompletedError, takeSlotError, h.completed,
      h.errorSlot, reported]
    cases firstWhen log <;> cases firstSlot log <;> rfl
  have hsame : ∀ result : Except κ (SupervisionOutcome α),
      convertResult mapErr s.completed s.errorSlot result =
        convertPyResult s.completed s.errorSlot (result.mapError mapErr) := fun _ => rfl
  cases driver <;> simp only [answer, hread] <;> congr 1 <;> funext result <;>
    rw [hsame, hread]

end Supervision

theorem firstSlot_of_firstControl (h : firstControl log ≠ none) : firstSlot log ≠ none := by
  contrapose! h
  refine List.findSome?_eq_none_iff.mpr fun e he => ?_
  have hslot := List.findSome?_eq_none_iff.mp h e he
  cases e <;> first | rfl | cases hslot

theorem firstSlot_eq_firstControl (h : ∀ error, .probeRaised error ∉ log) :
    firstSlot log = firstControl log := by
  induction log with
  | nil => rfl
  | cons e log ih =>
    have hrest := ih fun error hmem => h error (List.mem_cons_of_mem _ hmem)
    cases e with
    | probeRaised error => exact absurd List.mem_cons_self (h error)
    | controlRaised error => rfl
    | started | whenRaised error => exact hrest

/-- The supervision stops at the first failing callback, and every driver
reports it: the first `when` error, or else what the slot got first, which is
the control predicate's error unless the liveness probe had failed before.
Without such an error the drivers report the loop's own result. -/
structure StopsAtDefect (mapErr : κ → PyErr) (s : Supervision κ α) (log : List Event) : Prop where
  halts : Transition.Justified (fun before e => e = .started → defect before = none) log
  reports : defect log ≠ none → ∃ e, reported log = some e ∧
    ∀ driver, s.answer mapErr driver = some (.error e)
  names : firstWhen log ≠ none ∨ (∀ error, .probeRaised error ∉ log) → reported log = defect log
  agrees : ∀ driver, s.answer mapErr driver =
    s.ended.map fun result => ((reported log).map Except.error).getD (result.mapError mapErr)

def badPredicate : PyErr := ⟨"RuntimeError", "bad predicate"⟩
def badClassifier : PyErr := ⟨"RuntimeError", "bad classifier"⟩

def cancelled (error : Nat) : Bool := error = 0

def unbounded (giveUpWhen : Bool) (healthCheck : Option Nat) : Config :=
  ⟨.always, none, false, giveUpWhen, healthCheck⟩

/-- A liveness kill that `give_up_when` lets restart, then a launch error where
the runner's predicate and the classifier both fail. -/
def doublyBad : List (Action Nat Nat) :=
  [.incarnate ⟨[], [.returned (.bool false)], .killed 7 false, .finalizing, .returned (.bool false)⟩,
    .incarnate ⟨[badPredicate], [], .err 8, .finalizing, .raised badClassifier⟩]

/-- The first incarnation raises and its launch fails. -/
def launchFails : List (Action Nat Nat) :=
  [.incarnate ⟨[badPredicate], [], .err 7, .finalizing, .finalizing⟩,
    .incarnate ⟨[], [], .ok 0 false, .finalizing, .finalizing⟩]

end ProcessKit.Supervisor

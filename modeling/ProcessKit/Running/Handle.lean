import Mathlib.Logic.Function.Basic
import ProcessKit.Runtime.Hub
import ProcessKit.Transition

/-!
# One process handle and everyone who reaches for its run

A `RunningProcess` owns its run in one of two places, the process slot and the
finisher that an events stream may have started, each behind a mutex of its
own. `Handle.step` is one locked section of one call: `take_claim` is three of
them, `take_running_uncaptured` and the handle's `Drop` are two, and
`start_joint_finish` keeps the finish lock over three. A lock that is held
over several sections is a field of the state; the others are not seen.

After a claim the call drives a future that owns what it claimed. The future
is dropped at any point (`abandon`), before its first poll too.
-/

namespace ProcessKit.Running

open ProcessKit.Runtime (PyErr ProcessError.newErr)

/-- `JointFinish`; what its task is doing is a field of the handle. -/
inductive JointFinish
  | notStarted
  | running
  | taken
  deriving DecidableEq

inductive Claimed
  | process
  | joint
  deriving DecidableEq

/-- The task `start_joint_finish` spawned. While it is live it owns the run. -/
inductive Finisher
  | unspawned
  | live (aborted : Bool)
  | ended
  deriving DecidableEq

def Finisher.abort : Finisher → Finisher
  | .live _ => .live true
  | task => task

@[simp] theorem Finisher.abort_ne (task : Finisher) : task.abort ≠ .live false := by
  cases task <;> simp [Finisher.abort]

inductive Verb
  | outcome
  | aoutcome
  | finish
  | afinish
  | output
  | aoutput
  | outputBytes
  | aoutputBytes
  | profile
  | aprofile
  | shutdown
  | ashutdown
  | exit
  | aexit
  deriving DecidableEq

/-- The verbs that cannot be answered from a joint finisher, by the name they
give in their error; the others go through `take_claim`. -/
def Verb.uncaptured : Verb → Option String
  | .output => some "output"
  | .aoutput => some "aoutput"
  | .outputBytes => some "output_bytes"
  | .aoutputBytes => some "aoutput_bytes"
  | .profile => some "profile"
  | .aprofile => some "aprofile"
  | _ => none

def Verb.tearsDown : Verb → Bool
  | .exit | .aexit => true
  | _ => false

def consumedError : PyErr := ProcessError.newErr "the process handle has been consumed"

def uncapturedError (verb : String) : PyErr := ProcessError.newErr <|
  verb ++ "() cannot report a run whose output was streamed with output_events(): that stream " ++
    "consumed stdout, delivered stderr as events, and took over finishing the run. Use " ++
    "finish()/afinish() (outcome + stderr) or outcome()/aoutcome() instead."

/-- What a verb does when `take_claim` finds nothing: `claim` raises, the
exits return. -/
def Verb.onConsumed (verb : Verb) : Option PyErr :=
  if verb.tearsDown then none else some consumedError

inductive Pc
  | idle
  -- take_claim
  | claimFinish (verb : Verb)
  | claimTake (verb : Verb)
  | claimRecheck (verb : Verb)
  | refused (verb : Verb) (error : Option PyErr)
  -- take_running_uncaptured
  | uncapturedLook (verb : Verb) (name : String)
  | uncapturedTake (verb : Verb)
  | raised (verb : Verb) (error : PyErr)
  -- the verb's future
  | driving (verb : Verb) (claimed : Claimed) (polled : Bool)
  | completed (verb : Verb) (claimed : Claimed)
  | abandoned (verb : Verb) (claimed : Claimed)
  -- start_joint_finish
  | jointLock
  | jointTake
  | jointSpawn
  | jointReturned
  -- Drop
  | dropLook
  | dropTake
  | dropped (tookRun : Bool)
  deriving DecidableEq

inductive Call
  | verb (v : Verb)
  | joint
  | drop
  deriving DecidableEq

def Call.entry : Call → Pc
  | .verb v =>
    match v.uncaptured with
    | some name => .uncapturedLook v name
    | none => .claimFinish v
  | .joint => .jointLock
  | .drop => .dropLook

theorem Call.entry_cases (what : Call) : what.entry = .jointLock ∨ what.entry = .dropLook ∨
    (∃ v name, what.entry = .uncapturedLook v name) ∨ ∃ v, what.entry = .claimFinish v := by
  cases what with
  | joint => exact .inl rfl
  | drop => exact .inr (.inl rfl)
  | verb v =>
    simp only [Call.entry]
    split
    · exact .inr (.inr (.inl ⟨_, _, rfl⟩))
    · exact .inr (.inr (.inr ⟨_, rfl⟩))

/-- `slot` is whether the process slot holds the run; `finishLock` is the call
that holds the finish lock between two sections. -/
structure Handle (ι : Type) where
  finish : JointFinish
  finishLock : Option ι
  slot : Bool
  task : Finisher
  pc : ι → Pc

def Handle.started : Handle ι where
  finish := .notStarted
  finishLock := none
  slot := true
  task := .unspawned
  pc := fun _ => .idle

inductive Event (ι : Type)
  | obtained (call : ι) (claimed : Claimed)
  | spawned (call : ι)
  deriving DecidableEq

inductive Action (ι : Type)
  | begin (call : ι) (what : Call)
  | step (call : ι)
  | poll (call : ι)
  | complete (call : ι)
  | abandon (call : ι)
  | finisherEnds
  deriving DecidableEq

def Action.caller : Action ι → Option ι
  | .begin i _ | .step i | .poll i | .complete i | .abandon i => some i
  | .finisherEnds => none

section
variable [DecidableEq ι]

def Handle.goto (h : Handle ι) (i : ι) (pc : Pc) : Handle ι :=
  { h with pc := Function.update h.pc i pc }

@[simp] theorem Handle.goto_pc (h : Handle ι) (i : ι) (q : Pc) (j : ι) :
    (h.goto i q).pc j = if j = i then q else h.pc j := Function.update_apply ..

@[simp] theorem Handle.goto_slot (h : Handle ι) : (h.goto i q).slot = h.slot := rfl
@[simp] theorem Handle.goto_finish (h : Handle ι) : (h.goto i q).finish = h.finish := rfl
@[simp] theorem Handle.goto_finishLock (h : Handle ι) : (h.goto i q).finishLock = h.finishLock :=
  rfl
@[simp] theorem Handle.goto_task (h : Handle ι) : (h.goto i q).task = h.task := rfl

/-- The next locked section of a call, or the work between two of them. -/
def Handle.section (h : Handle ι) (i : ι) : Option (Handle ι × List (Event ι)) :=
  match h.pc i with
  | .claimFinish verb =>
    if h.finishLock.isSome then none
    else if h.finish = .running then
      some ({ h with finish := .taken }.goto i (.driving verb .joint false), [.obtained i .joint])
    else some (h.goto i (.claimTake verb), [])
  | .claimTake verb =>
    if h.slot then
      some ({ h with slot := false }.goto i (.driving verb .process false), [.obtained i .process])
    else some (h.goto i (.claimRecheck verb), [])
  | .claimRecheck verb =>
    if h.finishLock.isSome then none
    else if h.finish = .running then
      some ({ h with finish := .taken }.goto i (.driving verb .joint false), [.obtained i .joint])
    else some (h.goto i (.refused verb verb.onConsumed), [])
  | .uncapturedLook verb name =>
    if h.finishLock.isSome then none
    else if h.finish = .notStarted then some (h.goto i (.uncapturedTake verb), [])
    else some (h.goto i (.raised verb (uncapturedError name)), [])
  | .uncapturedTake verb =>
    if h.slot then
      some ({ h with slot := false }.goto i (.driving verb .process false), [.obtained i .process])
    else some (h.goto i (.raised verb consumedError), [])
  | .jointLock =>
    if h.finishLock.isSome then none
    else if h.finish = .notStarted then
      some ({ h with finishLock := some i }.goto i .jointTake, [])
    else some (h.goto i .jointReturned, [])
  | .jointTake =>
    if h.slot then some ({ h with slot := false }.goto i .jointSpawn, [])
    else some ({ h with finishLock := none }.goto i .jointReturned, [])
  | .jointSpawn =>
    some (
      { h with finish := .running, task := .live false, finishLock := none }.goto i .jointReturned,
      [.spawned i])
  | .dropLook =>
    if h.finishLock.isSome then none
    else if h.finish = .running then some ({ h with task := h.task.abort }.goto i .dropTake, [])
    else some (h.goto i .dropTake, [])
  | .dropTake =>
    if h.slot then
      some ({ h with slot := false }.goto i (.dropped true), [.obtained i .process])
    else some (h.goto i (.dropped false), [])
  | .idle | .refused .. | .raised .. | .driving .. | .completed .. | .abandoned .. | .jointReturned
  | .dropped _ => none

def Handle.step (h : Handle ι) : Action ι → Option (Handle ι × List (Event ι))
  | .begin i what => if h.pc i = .idle then some (h.goto i what.entry, []) else none
  | .step i => h.section i
  | .poll i =>
    match h.pc i with
    | .driving verb claimed _ =>
      -- `teardown` aborts the finisher it claimed before it awaits it.
      let task := if verb.tearsDown ∧ claimed = .joint then h.task.abort else h.task
      some ({ h with task }.goto i (.driving verb claimed true), [])
    | _ => none
  | .complete i =>
    match h.pc i with
    | .driving verb claimed true =>
      if claimed = .joint → h.task = .ended then
        some (h.goto i (.completed verb claimed), [])
      else none
    | _ => none
  | .abandon i =>
    match h.pc i with
    | .driving verb claimed _ => some (h.goto i (.abandoned verb claimed), [])
    | _ => none
  | .finisherEnds =>
    match h.task with
    | .live _ => some ({ h with task := .ended }, [])
    | _ => none

def Handle.machine (ι : Type) [DecidableEq ι] :
    Transition.Machine (Handle ι) (Action ι) (Event ι) where
  init := .started
  step := Handle.step

-- ---------------------------------------------------------------------------
-- What a step can do
-- ---------------------------------------------------------------------------

/-- `Handle.step` read as a relation, one rule for each section and outcome. -/
inductive Step (h : Handle ι) : Action ι → Handle ι → List (Event ι) → Prop
  | begin : h.pc i = .idle → Step h (.begin i what) (h.goto i what.entry) []
  /-- Both looks of `take_claim` at a published finisher. -/
  | claimJoint : h.pc i = .claimFinish verb ∨ h.pc i = .claimRecheck verb → h.finishLock = none →
      h.finish = .running →
      Step h (.step i) ({ h with finish := .taken }.goto i (.driving verb .joint false))
        [.obtained i .joint]
  | claimFinish : h.pc i = .claimFinish verb → h.finishLock = none → h.finish ≠ .running →
      Step h (.step i) (h.goto i (.claimTake verb)) []
  /-- Every taking of the slot for a verb. -/
  | claimProcess : h.pc i = .claimTake verb ∨ h.pc i = .uncapturedTake verb → h.slot = true →
      Step h (.step i) ({ h with slot := false }.goto i (.driving verb .process false))
        [.obtained i .process]
  | claimEmpty : h.pc i = .claimTake verb → h.slot = false →
      Step h (.step i) (h.goto i (.claimRecheck verb)) []
  | claimNone : h.pc i = .claimRecheck verb → h.finishLock = none → h.finish ≠ .running →
      Step h (.step i) (h.goto i (.refused verb verb.onConsumed)) []
  | uncapturedLook : h.pc i = .uncapturedLook verb name → h.finishLock = none →
      h.finish = .notStarted → Step h (.step i) (h.goto i (.uncapturedTake verb)) []
  | uncapturedStreamed : h.pc i = .uncapturedLook verb name → h.finishLock = none →
      h.finish ≠ .notStarted → Step h (.step i) (h.goto i (.raised verb (uncapturedError name))) []
  | uncapturedEmpty : h.pc i = .uncapturedTake verb → h.slot = false →
      Step h (.step i) (h.goto i (.raised verb consumedError)) []
  | jointLock : h.pc i = .jointLock → h.finishLock = none → h.finish = .notStarted →
      Step h (.step i) ({ h with finishLock := some i }.goto i .jointTake) []
  | jointStarted : h.pc i = .jointLock → h.finishLock = none → h.finish ≠ .notStarted →
      Step h (.step i) (h.goto i .jointReturned) []
  | jointTake : h.pc i = .jointTake → h.slot = true →
      Step h (.step i) ({ h with slot := false }.goto i .jointSpawn) []
  | jointEmpty : h.pc i = .jointTake → h.slot = false →
      Step h (.step i) ({ h with finishLock := none }.goto i .jointReturned) []
  | jointSpawn : h.pc i = .jointSpawn →
      Step h (.step i)
        ({ h with finish := .running, task := .live false, finishLock := none }.goto i
          .jointReturned)
        [.spawned i]
  | dropAbort : h.pc i = .dropLook → h.finishLock = none → h.finish = .running →
      Step h (.step i) ({ h with task := h.task.abort }.goto i .dropTake) []
  | dropLook : h.pc i = .dropLook → h.finishLock = none → h.finish ≠ .running →
      Step h (.step i) (h.goto i .dropTake) []
  | dropTake : h.pc i = .dropTake → h.slot = true →
      Step h (.step i) ({ h with slot := false }.goto i (.dropped true)) [.obtained i .process]
  | dropEmpty : h.pc i = .dropTake → h.slot = false →
      Step h (.step i) (h.goto i (.dropped false)) []
  | poll : h.pc i = .driving verb claimed polled → ¬ (verb.tearsDown = true ∧ claimed = .joint) →
      Step h (.poll i) (h.goto i (.driving verb claimed true)) []
  | pollTeardown : h.pc i = .driving verb .joint polled → verb.tearsDown = true →
      Step h (.poll i) ({ h with task := h.task.abort }.goto i (.driving verb .joint true)) []
  | complete : h.pc i = .driving verb claimed true → (claimed = .joint → h.task = .ended) →
      Step h (.complete i) (h.goto i (.completed verb claimed)) []
  | abandon : h.pc i = .driving verb claimed polled →
      Step h (.abandon i) (h.goto i (.abandoned verb claimed)) []
  | finisherEnds : h.task = .live aborted → Step h .finisherEnds { h with task := .ended } []

theorem Step.of_section {h h' : Handle ι} (hs : h.section i = some (h', evs)) :
    Step h (.step i) h' evs := by
  have hfree : ∀ {p : Option ι}, ¬ p.isSome = true → p = none := by simp
  cases hpc : h.pc i with
  | claimFinish verb =>
    simp only [Handle.section, hpc] at hs
    split at hs
    · cases hs
    · split at hs <;> cases hs
      · exact .claimJoint (.inl hpc) (hfree ‹_›) ‹_›
      · exact .claimFinish hpc (hfree ‹_›) ‹_›
  | claimTake verb =>
    simp only [Handle.section, hpc] at hs
    split at hs <;> cases hs
    · exact .claimProcess (.inl hpc) ‹_›
    · exact .claimEmpty hpc ((Bool.not_eq_true _).mp ‹_›)
  | claimRecheck verb =>
    simp only [Handle.section, hpc] at hs
    split at hs
    · cases hs
    · split at hs <;> cases hs
      · exact .claimJoint (.inr hpc) (hfree ‹_›) ‹_›
      · exact .claimNone hpc (hfree ‹_›) ‹_›
  | uncapturedLook verb name =>
    simp only [Handle.section, hpc] at hs
    split at hs
    · cases hs
    · split at hs <;> cases hs
      · exact .uncapturedLook hpc (hfree ‹_›) ‹_›
      · exact .uncapturedStreamed hpc (hfree ‹_›) ‹_›
  | uncapturedTake verb =>
    simp only [Handle.section, hpc] at hs
    split at hs <;> cases hs
    · exact .claimProcess (.inr hpc) ‹_›
    · exact .uncapturedEmpty hpc ((Bool.not_eq_true _).mp ‹_›)
  | jointLock =>
    simp only [Handle.section, hpc] at hs
    split at hs
    · cases hs
    · split at hs <;> cases hs
      · exact .jointLock hpc (hfree ‹_›) ‹_›
      · exact .jointStarted hpc (hfree ‹_›) ‹_›
  | jointTake =>
    simp only [Handle.section, hpc] at hs
    split at hs <;> cases hs
    · exact .jointTake hpc ‹_›
    · exact .jointEmpty hpc ((Bool.not_eq_true _).mp ‹_›)
  | jointSpawn =>
    simp only [Handle.section, hpc] at hs
    cases hs
    exact .jointSpawn hpc
  | dropLook =>
    simp only [Handle.section, hpc] at hs
    split at hs
    · cases hs
    · split at hs <;> cases hs
      · exact .dropAbort hpc (hfree ‹_›) ‹_›
      · exact .dropLook hpc (hfree ‹_›) ‹_›
  | dropTake =>
    simp only [Handle.section, hpc] at hs
    split at hs <;> cases hs
    · exact .dropTake hpc ‹_›
    · exact .dropEmpty hpc ((Bool.not_eq_true _).mp ‹_›)
  | _ => simp [Handle.section, hpc] at hs

/-- Every move of the machine is one of the rules. -/
theorem Step.of_step {h h' : Handle ι} (hs : h.step a = some (h', evs)) : Step h a h' evs := by
  cases a with
  | begin i what =>
    simp only [Handle.step] at hs
    split at hs <;> cases hs
    exact .begin ‹_›
  | step i => exact .of_section hs
  | poll i =>
    simp only [Handle.step] at hs
    split at hs <;> cases hs
    rename_i verb claimed polled hpc
    split
    · rename_i hc
      obtain ⟨hdown, rfl⟩ := hc
      exact .pollTeardown hpc hdown
    · exact .poll hpc ‹_›
  | complete i =>
    simp only [Handle.step] at hs
    split at hs
    · split at hs <;> cases hs
      exact .complete ‹_› ‹_›
    · cases hs
  | abandon i =>
    simp only [Handle.step] at hs
    split at hs <;> cases hs
    exact .abandon ‹_›
  | finisherEnds =>
    simp only [Handle.step] at hs
    split at hs <;> cases hs
    exact .finisherEnds ‹_›

-- ---------------------------------------------------------------------------
-- Where a step takes a call
-- ---------------------------------------------------------------------------

/-- One call goes from one place to the next, with what it found in `h` and
what it left in `h'`. -/
inductive Goes (h h' : Handle ι) : Pc → Pc → Prop
  | enterClaim : Goes h h' .idle (.claimFinish verb)
  | enterUncaptured : Goes h h' .idle (.uncapturedLook verb name)
  | enterJoint : Goes h h' .idle .jointLock
  | enterDrop : Goes h h' .idle .dropLook
  | claimJoint : h.finish = .running → Goes h h' (.claimFinish verb) (.driving verb .joint false)
  | claimLater : h.finish = .running → Goes h h' (.claimRecheck verb) (.driving verb .joint false)
  | claimFinish : Goes h h' (.claimFinish verb) (.claimTake verb)
  | claimProcess : h.slot = true → Goes h h' (.claimTake verb) (.driving verb .process false)
  | claimEmpty : h.slot = false → Goes h h' (.claimTake verb) (.claimRecheck verb)
  | claimNone : h.finishLock = none → h.finish ≠ .running →
      Goes h h' (.claimRecheck verb) (.refused verb verb.onConsumed)
  | uncapturedLook : h.finish = .notStarted →
      Goes h h' (.uncapturedLook verb name) (.uncapturedTake verb)
  | uncapturedStreamed : h.finish ≠ .notStarted →
      Goes h h' (.uncapturedLook verb name) (.raised verb (uncapturedError name))
  | uncapturedProcess : h.slot = true →
      Goes h h' (.uncapturedTake verb) (.driving verb .process false)
  | uncapturedEmpty : h.slot = false → Goes h h' (.uncapturedTake verb) (.raised verb consumedError)
  | jointLock : Goes h h' .jointLock .jointTake
  | jointStarted : h.finish ≠ .notStarted → Goes h h' .jointLock .jointReturned
  | jointTake : h.slot = true → Goes h h' .jointTake .jointSpawn
  | jointEmpty : h.slot = false → Goes h h' .jointTake .jointReturned
  | jointSpawn : Goes h h' .jointSpawn .jointReturned
  | dropLook : h.finishLock = none → (h'.finish = .running → h'.task ≠ .live false) →
      Goes h h' .dropLook .dropTake
  | dropTake : h.slot = true → h'.slot = false → Goes h h' .dropTake (.dropped true)
  | dropEmpty : h'.slot = false → Goes h h' .dropTake (.dropped false)
  | poll : Goes h h' (.driving verb claimed polled) (.driving verb claimed true)
  | complete : Goes h h' (.driving verb claimed true) (.completed verb claimed)
  | abandon : Goes h h' (.driving verb claimed polled) (.abandoned verb claimed)

theorem Goes.goto {h g : Handle ι} (hg : Goes h (g.goto i q) p q) (hp : h.pc i = p)
    (hpc : g.pc = h.pc) (j : ι) : (g.goto i q).pc j = h.pc j ∨
      some i = some j ∧ Goes h (g.goto i q) (h.pc j) ((g.goto i q).pc j) := by
  by_cases hji : j = i
  · subst hji
    exact .inr ⟨rfl, by simpa [hp] using hg⟩
  · exact .inl (by simp [hji, hpc])

theorem Step.goes {h h' : Handle ι} (hs : Step h a h' evs) (j : ι) :
    h'.pc j = h.pc j ∨ a.caller = some j ∧ Goes h h' (h.pc j) (h'.pc j) := by
  cases hs with
  | begin hpc =>
    rename_i what
    rcases what.entry_cases with he | he | ⟨_, _, he⟩ | ⟨_, he⟩ <;> rw [he]
    · exact Goes.goto .enterJoint hpc (by rfl) j
    · exact Goes.goto .enterDrop hpc (by rfl) j
    · exact Goes.goto .enterUncaptured hpc (by rfl) j
    · exact Goes.goto .enterClaim hpc (by rfl) j
  | claimJoint hpc _ hrunning =>
    rcases hpc with hpc | hpc
    · exact Goes.goto (.claimJoint hrunning) hpc (by rfl) j
    · exact Goes.goto (.claimLater hrunning) hpc (by rfl) j
  | claimFinish hpc => exact Goes.goto .claimFinish hpc (by rfl) j
  | claimProcess hpc hslot =>
    rcases hpc with hpc | hpc
    · exact Goes.goto (.claimProcess hslot) hpc (by rfl) j
    · exact Goes.goto (.uncapturedProcess hslot) hpc (by rfl) j
  | claimEmpty hpc hslot => exact Goes.goto (.claimEmpty hslot) hpc (by rfl) j
  | claimNone hpc hfree hrunning => exact Goes.goto (.claimNone hfree hrunning) hpc (by rfl) j
  | uncapturedLook hpc _ hnot => exact Goes.goto (.uncapturedLook hnot) hpc (by rfl) j
  | uncapturedStreamed hpc _ hstarted =>
      exact Goes.goto (.uncapturedStreamed hstarted) hpc (by rfl) j
  | uncapturedEmpty hpc hslot => exact Goes.goto (.uncapturedEmpty hslot) hpc (by rfl) j
  | jointLock hpc => exact Goes.goto .jointLock hpc (by rfl) j
  | jointStarted hpc _ hstarted => exact Goes.goto (.jointStarted hstarted) hpc (by rfl) j
  | jointTake hpc hslot => exact Goes.goto (.jointTake hslot) hpc (by rfl) j
  | jointEmpty hpc hslot => exact Goes.goto (.jointEmpty hslot) hpc (by rfl) j
  | jointSpawn hpc => exact Goes.goto .jointSpawn hpc (by rfl) j
  | dropAbort hpc hfree =>
    exact Goes.goto (.dropLook hfree (by simp)) hpc (by rfl) j
  | dropLook hpc hfree hrunning =>
    exact Goes.goto (.dropLook hfree fun hr => absurd hr hrunning) hpc (by rfl) j
  | dropTake hpc hslot => exact Goes.goto (.dropTake hslot (by rfl)) hpc (by rfl) j
  | dropEmpty hpc hslot => exact Goes.goto (.dropEmpty hslot) hpc (by rfl) j
  | poll hpc | pollTeardown hpc => exact Goes.goto .poll hpc (by rfl) j
  | complete hpc => exact Goes.goto .complete hpc (by rfl) j
  | abandon hpc => exact Goes.goto .abandon hpc (by rfl) j
  | finisherEnds => exact .inl rfl

theorem Step.arrives {h h' : Handle ι} (hs : Step h a h' evs) (hj : h'.pc j = q) :
    h.pc j = q ∨ a.caller = some j ∧ ∃ p, h.pc j = p ∧ Goes h h' p q := by
  rcases hs.goes j with hsame | ⟨hcaller, hg⟩
  · exact .inl (hsame ▸ hj)
  · exact .inr ⟨hcaller, _, rfl, hj ▸ hg⟩

end

end ProcessKit.Running

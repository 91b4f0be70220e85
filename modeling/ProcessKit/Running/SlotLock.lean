import ProcessKit.Locks

/-!
# The process-slot mutex and the interpreter lock

A method that Python calls blocks on the slot mutex with the interpreter lock
held; a runtime worker takes the mutex without it. The two locks cannot cross
as long as nobody waits for the interpreter lock inside the locked section.
What can wait for it there: `map_err`, which attaches, in the tail probe, and
with logging on every tracing event that the crate emits, since the log record
is written by Python code, which gives the lock up and takes it back.

A thread is a list of calls on the handle, each with what it finds in the slot
and what the crate answers.
-/

namespace ProcessKit.Running.SlotLock

open Locks

inductive Lock
  | gil
  | slot
  deriving DecidableEq

/-- `notReady` is the crate's error for a stream that ended, `failed` any other. -/
inductive Answer
  | ok
  | pending
  | notReady
  | failed
  deriving DecidableEq

/-- What a locked section finds in the slot. `events` are the tracing events
that the crate emits in the section, by what their log records' code yields. -/
inductive Found
  | consumed
  | process (answer : Answer) (events : List Nat)
  deriving DecidableEq

/-- What a locked section does between `lock` and the drop of its guard: its
`Python::try_attach` calls, each by how often the Python code it runs gives the
interpreter lock up and takes it back. -/
abbrev Attaches := List Nat

/-- `PyLoggingLayer::on_event`, once `enable_logging` has installed it. -/
def onEvent (logging : Bool) (yields : Nat) : Attaches := if logging then [yields] else []

/-- `map_err` runs no Python code of its own. -/
def mapErr : Attaches := [0]

def lockedSection (logging : Bool) (onAnswer : Answer → Attaches) : Found → Attaches
  -- `ProcessError::new_err` is lazy and does not attach.
  | .consumed => []
  | .process answer events => events.flatMap (onEvent logging) ++ onAnswer answer

/-- Nothing that the crate answers enters the interpreter. -/
def readSection (logging : Bool) : Found → Attaches := lockedSection logging fun _ => []

/-- `.map_err(map_err)` with the guard still alive. -/
def mapErrSection (logging : Bool) : Found → Attaches :=
  lockedSection logging fun
    | .failed | .notReady => mapErr
    | .ok | .pending => []

/-- The process is moved out of the slot. -/
def takeSection : Attaches := []

def snapshotTail (logging : Bool) : Found → Attaches :=
  lockedSection logging fun
    | .failed => mapErr
    | .ok | .pending | .notReady => []

/-- The functions that lock the slot. `take` is the claim of every consuming
verb, both exits and `Drop`. -/
inductive Entry
  | pid
  | elapsedSeconds
  | cpuTimeSeconds
  | peakMemoryBytes
  | stdoutLineCount
  | stderrLineCount
  | stdoutBytesSeen
  | stderrBytesSeen
  | ownsGroup
  | repr
  | takeStdin
  | stdoutLines
  | stdoutJsonLines
  | stderrLines
  | outputEvents
  | lifecycleEvents
  | resizePty
  | kill
  | take
  | probeExitNow
  | snapshotTail
  | idleGuardKill
  | startJointFinish
  deriving DecidableEq

def Entry.attaches (logging : Bool) (found : Found) : Entry → Attaches
  | .pid | .elapsedSeconds | .cpuTimeSeconds | .peakMemoryBytes | .stdoutLineCount
  | .stderrLineCount | .stdoutBytesSeen | .stderrBytesSeen | .ownsGroup | .repr | .takeStdin
  | .probeExitNow | .idleGuardKill => readSection logging found
  | .stdoutLines | .stdoutJsonLines | .stderrLines | .outputEvents | .lifecycleEvents | .resizePty
  | .kill => mapErrSection logging found
  | .take | .startJointFinish => takeSection
  | .snapshotTail => SlotLock.snapshotTail logging found

def Entry.attached : Entry → Bool
  | .probeExitNow | .snapshotTail | .idleGuardKill | .startJointFinish => false
  | _ => true

structure SlotCall where
  entry : Entry
  found : Found
  deriving DecidableEq

def giveUp : Nat → List (Act Lock)
  | 0 => []
  | yields + 1 => .release .gil :: .acquire .gil :: giveUp yields

/-- An attach by a thread that is attached already takes nothing. -/
def attach (attached : Bool) (yields : Nat) : List (Act Lock) :=
  if attached then giveUp yields else .acquire .gil :: giveUp yields ++ [.release .gil]

def lockedActs (attached : Bool) (all : Attaches) : List (Act Lock) :=
  .acquire .slot :: all.flatMap (attach attached) ++ [.release .slot]

def SlotCall.acts (logging : Bool) (c : SlotCall) : List (Act Lock) :=
  let body := lockedActs c.entry.attached (c.entry.attaches logging c.found)
  if c.entry.attached then .acquire .gil :: body ++ [.release .gil] else body

def script (logging : Bool) (calls : List SlotCall) : List (Act Lock) :=
  calls.flatMap (SlotCall.acts logging)

/-- The call waits for the interpreter lock inside its locked section: a tail
look that ends in an error other than the stream's end, or with logging on an
event, unless the caller is attached and the log record's code yields nothing. -/
def SlotCall.WaitsForGil (logging : Bool) (c : SlotCall) : Prop :=
  match c.found with
  | .consumed => False
  | .process answer events =>
    c.entry = .snapshotTail ∧ answer = .failed ∨
      logging = true ∧ c.entry ≠ .take ∧ c.entry ≠ .startJointFinish ∧
        ∃ yields ∈ events, c.entry.attached = true → 0 < yields

-- ---------------------------------------------------------------------------
-- One call
-- ---------------------------------------------------------------------------

theorem SlotCall.waitsForGil_iff (logging : Bool) (c : SlotCall) : c.WaitsForGil logging ↔
    ∃ yields ∈ c.entry.attaches logging c.found, c.entry.attached = true → 0 < yields := by
  obtain ⟨entry, found⟩ := c
  cases found with
  | consumed => cases entry <;> simp [SlotCall.WaitsForGil, Entry.attaches, readSection,
      mapErrSection, takeSection, snapshotTail, lockedSection]
  | process answer events =>
    have hevents : events.flatMap (onEvent logging) = if logging then events else [] := by
      cases logging with
      | false => simp [onEvent]
      | true => exact List.flatMap_singleton' events
    cases entry <;> cases answer <;> cases logging <;>
      simp [SlotCall.WaitsForGil, Entry.attaches, Entry.attached, readSection, mapErrSection,
        takeSection, snapshotTail, lockedSection, mapErr, hevents]

/-- The locks a thread holds outside and inside a locked section. -/
def outside (attached : Bool) : Lock → Bool
  | .gil => attached
  | .slot => false

def inSection (attached : Bool) : Lock → Bool
  | .gil => attached
  | .slot => true

section
variable {held : Lock → Bool}

theorem update_back (hgil : held .gil = true) :
    Function.update (Function.update held .gil false) .gil true = held := by
  rw [Function.update_idem, ← hgil, Function.update_eq_self]

theorem after_giveUp (hgil : held .gil = true) (yields : Nat) :
    after held (giveUp yields) = held := by
  induction yields with
  | zero => rfl
  | succ yields ih => rwa [giveUp, after, after, update_back hgil]

theorem clean_giveUp (hgil : held .gil = true) (yields : Nat) : Clean held (giveUp yields) := by
  induction yields with
  | zero => trivial
  | succ yields ih => exact ⟨hgil, by simp, by rwa [update_back hgil]⟩

theorem nests_giveUp (hslot : held .slot = true) (yields : Nat) :
    Nests .slot .gil held (giveUp yields) ↔ 0 < yields := by
  cases yields with
  | zero => simp [giveUp, Nests]
  | succ yields => simp [giveUp, Nests, hslot]

theorem not_nests_giveUp (held : Lock → Bool) (yields : Nat) :
    ¬ Nests .gil .slot held (giveUp yields) := by
  induction yields generalizing held with
  | zero => exact id
  | succ yields ih => simpa [giveUp, Nests] using ih _

end

theorem attach_held (attached : Bool) (yields : Nat) :
    after (inSection attached) (attach attached yields) = inSection attached ∧
      Clean (inSection attached) (attach attached yields) := by
  cases attached with
  | true => exact ⟨after_giveUp rfl yields, clean_giveUp rfl yields⟩
  | false =>
    have hgil : Function.update (inSection false) .gil true .gil = true := by simp
    have hback : Function.update (Function.update (inSection false) .gil true) .gil false =
        inSection false := by
      funext lock
      cases lock <;> rfl
    refine ⟨?_, rfl, ?_⟩
    · rw [attach, if_neg nofun, List.cons_append, after, after_append, after_giveUp hgil]
      exact hback
    · show Clean _ (giveUp yields ++ [.release .gil])
      rw [clean_append, after_giveUp hgil]
      exact ⟨clean_giveUp hgil yields, hgil, trivial⟩

theorem attach_nests (attached : Bool) (yields : Nat) :
    Nests .slot .gil (inSection attached) (attach attached yields) ↔
      (attached = true → 0 < yields) := by
  cases attached with
  | true => simpa [attach] using nests_giveUp rfl yields
  | false => simp [attach, Nests, inSection]

theorem attach_not_nests (attached : Bool) (yields : Nat) :
    ¬ Nests .gil .slot (inSection attached) (attach attached yields) := by
  cases attached with
  | true => exact not_nests_giveUp _ yields
  | false => simpa [attach, Nests] using not_nests_giveUp _ yields

theorem update_outside (attached inside : Bool) :
    Function.update (outside attached) .slot inside =
      if inside then inSection attached else outside attached := by
  funext lock
  cases inside <;> cases lock <;> rfl

theorem update_inSection (attached : Bool) :
    Function.update (inSection attached) .slot false = outside attached := by
  funext lock
  cases lock <;> rfl

theorem lockedActs_held (attached : Bool) (all : Attaches) :
    after (outside attached) (lockedActs attached all) = outside attached ∧
      Clean (outside attached) (lockedActs attached all) := by
  have hafter := after_flatMap fun yields (_ : yields ∈ all) => (attach_held attached yields).1
  have hclean := clean_flatMap (fun yields (_ : yields ∈ all) => (attach_held attached yields).1)
    fun yields _ => (attach_held attached yields).2
  have hout : outside attached .slot = false := rfl
  have hin : inSection attached .slot = true := rfl
  simp [lockedActs, after, Clean, update_outside, update_inSection, hafter, hclean, hout, hin]

theorem lockedActs_nests (attached : Bool) (all : Attaches) :
    Nests .slot .gil (outside attached) (lockedActs attached all) ↔
      ∃ yields ∈ all, attached = true → 0 < yields := by
  have hnests : Nests .slot .gil (inSection attached) (all.flatMap (attach attached)) ↔ _ :=
    nests_flatMap fun yields _ => (attach_held attached yields).1
  simp [lockedActs, Nests, update_outside, hnests, attach_nests]

theorem lockedActs_nests_slot (attached : Bool) (all : Attaches) :
    Nests .gil .slot (outside attached) (lockedActs attached all) ↔ attached = true := by
  have hnests : Nests .gil .slot (inSection attached) (all.flatMap (attach attached)) ↔ _ :=
    nests_flatMap fun yields _ => (attach_held attached yields).1
  have hout : outside attached .gil = attached := rfl
  simp [lockedActs, Nests, update_outside, hnests, attach_not_nests, hout]

theorem outside_false : outside false = free := by
  funext lock
  cases lock <;> rfl

theorem update_free : Function.update free .gil true = outside true := by
  funext lock
  cases lock <;> rfl

theorem update_outside_gil : Function.update (outside true) .gil false = free := by
  funext lock
  cases lock <;> rfl

theorem SlotCall.acts_held (logging : Bool) (c : SlotCall) :
    after free (c.acts logging) = free ∧ Clean free (c.acts logging) := by
  obtain ⟨hafter, hclean⟩ :=
    lockedActs_held c.entry.attached (c.entry.attaches logging c.found)
  cases hat : c.entry.attached with
  | false =>
    rw [hat, outside_false] at hafter hclean
    simp [SlotCall.acts, hat, hafter, hclean]
  | true =>
    rw [hat] at hafter hclean
    have hout : outside true .gil = true := rfl
    simp [SlotCall.acts, hat, after, Clean, update_free, update_outside_gil, hafter, hclean, hout]

theorem SlotCall.acts_nests (logging : Bool) (c : SlotCall) :
    Nests .slot .gil free (c.acts logging) ↔ c.WaitsForGil logging := by
  rw [c.waitsForGil_iff, ← lockedActs_nests]
  cases hat : c.entry.attached with
  | false => simp [SlotCall.acts, hat, outside_false]
  | true => simp [SlotCall.acts, hat, Nests, update_free]

theorem SlotCall.acts_nests_slot (logging : Bool) (c : SlotCall) :
    Nests .gil .slot free (c.acts logging) ↔ c.entry.attached = true := by
  rw [← lockedActs_nests_slot c.entry.attached (c.entry.attaches logging c.found)]
  cases hat : c.entry.attached with
  | false => simp [SlotCall.acts, hat, outside_false]
  | true => simp [SlotCall.acts, hat, Nests, update_free]

theorem SlotCall.acts_of_attached (logging : Bool) (c : SlotCall) (hat : c.entry.attached = true) :
    ∃ rest, c.acts logging = .acquire .gil :: .acquire .slot :: rest := by
  simp only [SlotCall.acts, lockedActs, hat]
  exact ⟨_, rfl⟩

-- ---------------------------------------------------------------------------
-- Any number of threads
-- ---------------------------------------------------------------------------

/-- The two locks cross in some run exactly when one thread waits for the
interpreter lock inside a locked section and another is called from Python. -/
theorem crosses_iff [DecidableEq τ] (logging : Bool) (calls : τ → List SlotCall) :
    (∀ s, Reaches (fun t => script logging (calls t)) s → ¬ s.Crossed .slot .gil) ↔
      ∀ t u, t ≠ u → (∃ c ∈ calls t, c.WaitsForGil logging) →
        ∀ d ∈ calls u, d.entry.attached = false := by
  have hafter : ∀ cs : List SlotCall, ∀ c ∈ cs, after free (c.acts logging) = free :=
    fun _ c _ => (c.acts_held logging).1
  have hclean : ∀ t, Clean free (script logging (calls t)) :=
    fun t => clean_flatMap (hafter _) fun c _ => (c.acts_held logging).2
  have hnests : ∀ t, Nests .slot .gil free (script logging (calls t)) ↔
      ∃ c ∈ calls t, c.WaitsForGil logging := fun t => by
    simp [script, nests_flatMap (hafter _), SlotCall.acts_nests]
  constructor
  · intro hnever t u htu hwaits d hd
    by_contra hat
    obtain ⟨before, later, hcalls⟩ := List.append_of_mem hd
    obtain ⟨rest, hacts⟩ := d.acts_of_attached logging (by simpa using hat)
    have hscript : script logging (calls u) = script logging before ++
        .acquire .gil :: .acquire .slot :: (rest ++ script logging later) := by
      simp [script, hcalls, hacts]
    obtain ⟨s, hr, hcrossed⟩ : ∃ s, Reaches (fun t => script logging (calls t)) s ∧
        s.Crossed .slot .gil :=
      crossed_of_nests htu (hclean t) ((hnests t).mpr hwaits) hscript (hclean u)
        (after_flatMap (hafter before))
    exact hnever s hr hcrossed
  · intro hcond s hr hcrossed
    obtain ⟨t, u, htu, ht, hu⟩ := hr.nests_of_crossed hcrossed
    obtain ⟨d, hd, hat⟩ := (nests_flatMap (hafter (calls u))).mp hu
    have hdetached := hcond t u htu ((hnests t).mp ht) d hd
    rw [SlotCall.acts_nests_slot, hdetached] at hat
    cases hat

/-- And the tail probe's locked section enters the interpreter exactly on a
permanent error, or on an event with logging on. -/
theorem slot_never_crosses [DecidableEq τ] (logging : Bool) (calls : τ → List SlotCall) :
    ((∀ s, Reaches (fun t => script logging (calls t)) s → ¬ s.Crossed .slot .gil) ↔
      ∀ t u, t ≠ u → (∃ c ∈ calls t, c.WaitsForGil logging) →
        ∀ d ∈ calls u, d.entry.attached = false) ∧
    ∀ found, Entry.snapshotTail.attaches logging found = [] ↔
      ∀ answer events, found = .process answer events →
        answer ≠ .failed ∧ (logging = true → events = []) := by
  refine ⟨crosses_iff logging calls, fun found => ?_⟩
  cases found with
  | consumed => simp [Entry.attaches, snapshotTail, lockedSection]
  | process answer events =>
    have hevents : events.flatMap (onEvent logging) = [] ↔ (logging = true → events = []) := by
      cases logging <;> simp [onEvent, List.eq_nil_iff_forall_not_mem]
    cases answer <;> simp [Entry.attaches, snapshotTail, lockedSection, mapErr, hevents]

/-- A tail look at a stream that was never piped, beside a read of `pid`. -/
def tailLookBesidePid : Fin 2 → List SlotCall
  | 0 => [⟨.snapshotTail, .process .failed []⟩]
  | 1 => [⟨.pid, .process .ok []⟩]

theorem slot_crosses : ¬ ∀ (logging : Bool) (calls : Fin 2 → List SlotCall) s,
    Reaches (fun t => script logging (calls t)) s → ¬ s.Crossed .slot .gil := by
  intro hall
  obtain ⟨s, log, hr, heq⟩ := Transition.Machine.reach_replay
    (m := machine fun t => script false (tailLookBesidePid t)) [0, 1]
    (fun s _ => (s.holder .slot, s.holder .gil, s.todo 0, s.todo 1)) (fun _ _ _ => trivial)
    (b := (some 0, some 1, [.acquire .gil, .release .gil, .release .slot],
      [.acquire .slot, .release .slot, .release .gil])) (by decide +kernel)
  simp only [Prod.mk.injEq] at heq
  obtain ⟨hslot, hgil, htail, hpid⟩ := heq
  exact hall false tailLookBesidePid s ⟨log, hr⟩
    ⟨0, 1, by decide, hslot, ⟨_, htail⟩, hgil, ⟨_, hpid⟩⟩

end ProcessKit.Running.SlotLock

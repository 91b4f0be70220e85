import ProcessKit.Runtime.Hub

/-!
# Pickled values

`Outcome`, `Finished` and `LifecycleEvent` pickle as tuples of what Python sees of them. The
crate has no constructor for an `Outcome`, so unpickling runs a scripted reply that yields
one. `LifecycleEvent._unpickle` first checks that the seven fields fit together; what it
accepts is what some event is pickled as.
-/

namespace ProcessKit.Pickle

open ProcessKit.Runtime (PyErr PyResult ProcessError.newErr ValueError.newErr)

-- ---------------------------------------------------------------------------
-- Exact codecs
-- ---------------------------------------------------------------------------

/-- On the valid values `decode` undoes `encode`, and it gives nothing but what encodes to
its input. -/
structure Exact (Valid : α → Prop) (encode : α → β) (decode : β → Except ε α) : Prop where
  complete : Valid a → decode (encode a) = .ok a
  sound : decode b = .ok a → Valid a ∧ encode a = b

theorem Exact.accepts_iff {Valid : α → Prop} {encode : α → β} {decode : β → Except ε α}
    (h : Exact Valid encode decode) (b : β) :
    (∃ a, decode b = .ok a) ↔ ∃ a, Valid a ∧ encode a = b := by
  constructor
  · rintro ⟨a, ha⟩
    exact ⟨a, h.sound ha⟩
  · rintro ⟨a, hvalid, rfl⟩
    exact ⟨a, h.complete hvalid⟩

-- ---------------------------------------------------------------------------
-- The crate
-- ---------------------------------------------------------------------------

inductive PkOutcome
  | exited (code : Int32)
  | signalled (signal : Option Int32)
  | timedOut
  deriving DecidableEq

def PkOutcome.code : PkOutcome → Option Int32
  | .exited code => some code
  | .signalled _ | .timedOut => none

def PkOutcome.signal : PkOutcome → Option Int32
  | .signalled signal => signal
  | .exited _ | .timedOut => none

def PkOutcome.hasTimedOut : PkOutcome → Bool
  | .timedOut => true
  | .exited _ | .signalled _ => false

inductive PkReply
  | fail (code : Int32) (stderr : String)
  | signalled (signal : Option Int32)
  | timeout
  deriving DecidableEq

inductive Poll (α : Type)
  | ready (value : α)
  | pending

/-- A `ScriptedRunner` whose fallback is the reply: the first poll of `output_string`, the
`outcome` of its result, and `map_err`. -/
structure Scripted (κ ρ : Type) where
  outputString : PkReply → Poll (Except κ ρ)
  outcome : ρ → PkOutcome
  mapErr : κ → PyErr

/-- The reply comes to this outcome, at the first poll. -/
def Scripted.Yields (crate : Scripted κ ρ) (reply : PkReply) (outcome : PkOutcome) : Prop :=
  ∃ result, crate.outputString reply = .ready (.ok result) ∧ crate.outcome result = outcome

/-- What is documented of the three replies. -/
structure Scripted.Faithful (crate : Scripted κ ρ) : Prop where
  fail (code : Int32) (stderr : String) : crate.Yields (.fail code stderr) (.exited code)
  signalled (signal : Option Int32) : crate.Yields (.signalled signal) (.signalled signal)
  timeout : crate.Yields .timeout .timedOut

inductive PkProcessEvent
  | started (pid : Option UInt32)
  | stdout (line : String)
  | stderr (line : String)
  | exited (outcome : PkOutcome)
  | other

-- ---------------------------------------------------------------------------
-- The pickled classes
-- ---------------------------------------------------------------------------

/-- What a `__hash__` writes into its hasher. -/
inductive Hashed
  | text (value : String)
  | textOption (value : Option String)
  | pid (value : Option UInt32)
  | number (value : Option Int32)
  | flag (value : Bool)
  deriving DecidableEq

/-- `DefaultHasher`, from the writes to `finish`. -/
abbrev DefaultHasher := List Hashed → UInt64

structure PyOutcome where
  inner : PkOutcome
  deriving DecidableEq

structure PyFinished where
  outcome : PkOutcome
  stderr : String
  deriving DecidableEq

structure PyLifecycleEvent where
  kind : String
  pid : Option UInt32
  text : Option String
  outcome : Option PkOutcome
  deriving DecidableEq

def hashOutcome (outcome : PkOutcome) : List Hashed :=
  [.number outcome.code, .number outcome.signal, .flag outcome.hasTimedOut]

section
variable (crate : Scripted κ ρ)

def scriptedOutcome (code signal : Option Int32) (timedOut : Bool) : PyResult PkOutcome :=
  let reply :=
    if timedOut then .timeout
    else match code with
      | some code => .fail code ""
      | none => .signalled signal
  match crate.outputString reply with
  | .ready (.ok result) => .ok (crate.outcome result)
  | .ready (.error err) => .error (crate.mapErr err)
  | .pending => .error (ProcessError.newErr
      "internal scripted outcome reconstruction unexpectedly required asynchronous I/O")

namespace PyOutcome

def eq (self other : PyOutcome) : Bool := self.inner == other.inner

def hash (hasher : DefaultHasher) (self : PyOutcome) : UInt64 := hasher (hashOutcome self.inner)

abbrev Pickled := Option Int32 × Option Int32 × Bool

def reduce (self : PyOutcome) : Pickled :=
  (self.inner.code, self.inner.signal, self.inner.hasTimedOut)

def unpickle : Pickled → PyResult PyOutcome
  | (code, signal, timedOut) => (scriptedOutcome crate code signal timedOut).map PyOutcome.mk

end PyOutcome

namespace PyFinished

def eq (self other : PyFinished) : Bool :=
  self.outcome == other.outcome && self.stderr == other.stderr

def hash (hasher : DefaultHasher) (self : PyFinished) : UInt64 :=
  hasher (hashOutcome self.outcome ++ [.text self.stderr])

abbrev Pickled := String × Option Int32 × Option Int32 × Bool

def reduce (self : PyFinished) : Pickled :=
  (self.stderr, self.outcome.code, self.outcome.signal, self.outcome.hasTimedOut)

def unpickle : Pickled → PyResult PyFinished
  | (stderr, code, signal, timedOut) =>
    (scriptedOutcome crate code signal timedOut).map (PyFinished.mk · stderr)

end PyFinished

namespace PyLifecycleEvent

def «from» : PkProcessEvent → PyLifecycleEvent
  | .started pid => ⟨"started", pid, none, none⟩
  | .stdout line => ⟨"stdout", none, some line, none⟩
  | .stderr line => ⟨"stderr", none, some line, none⟩
  | .exited outcome => ⟨"exited", none, none, some outcome⟩
  | .other => ⟨"unknown", none, none, none⟩

def eq (self other : PyLifecycleEvent) : Bool :=
  self.kind == other.kind && self.pid == other.pid && self.text == other.text &&
    self.outcome == other.outcome

def hash (hasher : DefaultHasher) (self : PyLifecycleEvent) : UInt64 :=
  hasher ([.text self.kind, .pid self.pid, .textOption self.text, .flag self.outcome.isSome] ++
    self.outcome.toList.flatMap hashOutcome)

/-- `kind`, `pid`, `text`, `has_outcome`, `code`, `signal` and `timed_out`. -/
abbrev Pickled :=
  String × Option UInt32 × Option String × Bool × Option Int32 × Option Int32 × Bool

def reduce (self : PyLifecycleEvent) : Pickled :=
  let (hasOutcome, code, signal, timedOut) :=
    match self.outcome with
    | some outcome => (true, outcome.code, outcome.signal, outcome.hasTimedOut)
    | none => (false, none, none, false)
  (self.kind, self.pid, self.text, hasOutcome, code, signal, timedOut)

def checkedKind (kind : String) (pid : Option UInt32) (text : Option String)
    (hasOutcome : Bool) : PyResult String :=
  if kind = "started" ∧ text.isNone ∧ !hasOutcome then .ok "started"
  else if kind = "stdout" ∧ pid.isNone ∧ text.isSome ∧ !hasOutcome then .ok "stdout"
  else if kind = "stderr" ∧ pid.isNone ∧ text.isSome ∧ !hasOutcome then .ok "stderr"
  else if kind = "exited" ∧ pid.isNone ∧ text.isNone ∧ hasOutcome then .ok "exited"
  else if kind = "unknown" ∧ pid.isNone ∧ text.isNone ∧ !hasOutcome then .ok "unknown"
  else if kind ∈ ["started", "stdout", "stderr", "exited", "unknown"] then
    .error (ValueError.newErr "LifecycleEvent pickle fields do not match its kind")
  else .error (ValueError.newErr "LifecycleEvent pickle has an unknown kind")

def unpickle : Pickled → PyResult PyLifecycleEvent
  | (kind, pid, text, hasOutcome, code, signal, timedOut) =>
    if !hasOutcome && (code.isSome || signal.isSome || timedOut) then
      .error (ValueError.newErr "LifecycleEvent pickle has outcome fields without an outcome")
    else if hasOutcome && (timedOut && (code.isSome || signal.isSome) ||
        code.isSome && signal.isSome) then
      .error (ValueError.newErr "LifecycleEvent pickle has an invalid outcome")
    else do
      let kind ← checkedKind kind pid text hasOutcome
      let outcome ←
        if hasOutcome then (scriptedOutcome crate code signal timedOut).map some else .ok none
      return ⟨kind, pid, text, outcome⟩

end PyLifecycleEvent

end

-- ---------------------------------------------------------------------------
-- Outcomes
-- ---------------------------------------------------------------------------

section
variable {crate : Scripted κ ρ} (h : crate.Faithful)
include h

theorem Scripted.Faithful.scriptedOutcome (outcome : PkOutcome) :
    scriptedOutcome crate outcome.code outcome.signal outcome.hasTimedOut = .ok outcome := by
  cases outcome with
  | exited code =>
    obtain ⟨result, hpoll, houtcome⟩ := h.fail code ""
    simp [Pickle.scriptedOutcome, PkOutcome.code, PkOutcome.hasTimedOut, hpoll, houtcome]
  | signalled signal =>
    obtain ⟨result, hpoll, houtcome⟩ := h.signalled signal
    simp [Pickle.scriptedOutcome, PkOutcome.code, PkOutcome.signal, PkOutcome.hasTimedOut, hpoll,
      houtcome]
  | timedOut =>
    obtain ⟨result, hpoll, houtcome⟩ := h.timeout
    simp [Pickle.scriptedOutcome, PkOutcome.hasTimedOut, hpoll, houtcome]

def OneEnd (code signal : Option Int32) (timedOut : Bool) : Prop :=
  (timedOut && (code.isSome || signal.isSome) || code.isSome && signal.isSome) = false

omit h in
theorem OneEnd.exists_outcome (hone : OneEnd code signal timedOut) :
    ∃ outcome : PkOutcome, outcome.code = code ∧ outcome.signal = signal ∧
      outcome.hasTimedOut = timedOut := by
  cases timedOut with
  | true =>
    obtain ⟨rfl, rfl⟩ : code = none ∧ signal = none := by
      simpa [OneEnd] using (Bool.or_eq_false_iff.mp hone).1
    exact ⟨.timedOut, rfl, rfl, rfl⟩
  | false =>
    cases code with
    | some code =>
      obtain rfl : signal = none := by simpa [OneEnd] using hone
      exact ⟨.exited code, rfl, rfl, rfl⟩
    | none => exact ⟨.signalled signal, rfl, rfl, rfl⟩

omit h in
theorem PkOutcome.oneEnd (outcome : PkOutcome) :
    OneEnd outcome.code outcome.signal outcome.hasTimedOut := by
  cases outcome <;> simp [OneEnd, PkOutcome.code, PkOutcome.signal, PkOutcome.hasTimedOut]

theorem PyOutcome.unpickle_reduce (outcome : PyOutcome) :
    PyOutcome.unpickle crate outcome.reduce = .ok outcome := by
  rw [PyOutcome.reduce, PyOutcome.unpickle, h.scriptedOutcome]
  rfl

theorem PyFinished.unpickle_reduce (finished : PyFinished) :
    PyFinished.unpickle crate finished.reduce = .ok finished := by
  rw [PyFinished.reduce, PyFinished.unpickle, h.scriptedOutcome]
  rfl

end

-- ---------------------------------------------------------------------------
-- Lifecycle events
-- ---------------------------------------------------------------------------

inductive Fits : String → Option UInt32 → Option String → Bool → Prop
  | started : Fits "started" pid none false
  | stdout : Fits "stdout" none (some line) false
  | stderr : Fits "stderr" none (some line) false
  | exited : Fits "exited" none none true
  | unknown : Fits "unknown" none none false

theorem Fits.checkedKind (h : Fits kind pid text hasOutcome) :
    PyLifecycleEvent.checkedKind kind pid text hasOutcome = .ok kind := by
  cases h <;> simp [PyLifecycleEvent.checkedKind]

theorem fits_of_checkedKind
    (h : PyLifecycleEvent.checkedKind kind pid text hasOutcome = .ok checked) :
    checked = kind ∧ Fits kind pid text hasOutcome := by
  simp only [PyLifecycleEvent.checkedKind, Option.isNone_iff_eq_none, Bool.not_eq_true'] at h
  split at h
  · next hstarted =>
    obtain ⟨rfl, rfl, rfl⟩ := hstarted
    cases h
    exact ⟨rfl, .started⟩
  · split at h
    · next hstdout =>
      obtain ⟨rfl, rfl, hline, rfl⟩ := hstdout
      obtain ⟨line, rfl⟩ := Option.isSome_iff_exists.mp hline
      cases h
      exact ⟨rfl, .stdout⟩
    · split at h
      · next hstderr =>
        obtain ⟨rfl, rfl, hline, rfl⟩ := hstderr
        obtain ⟨line, rfl⟩ := Option.isSome_iff_exists.mp hline
        cases h
        exact ⟨rfl, .stderr⟩
      · split at h
        · next hexited =>
          obtain ⟨rfl, rfl, rfl, rfl⟩ := hexited
          cases h
          exact ⟨rfl, .exited⟩
        · split at h
          · next hunknown =>
            obtain ⟨rfl, rfl, rfl, rfl⟩ := hunknown
            cases h
            exact ⟨rfl, .unknown⟩
          · split at h <;> cases h

/-- An event as the crate's stream gives it. -/
def PyLifecycleEvent.Carried (event : PyLifecycleEvent) : Prop :=
  ∃ source, PyLifecycleEvent.from source = event

theorem Fits.carried (h : Fits kind pid text outcome.isSome) :
    PyLifecycleEvent.Carried ⟨kind, pid, text, outcome⟩ := by
  generalize hhas : Option.isSome outcome = hasOutcome at h
  cases h with
  | started => exact ⟨.started pid, by simp_all [PyLifecycleEvent.from]⟩
  | @stdout line => exact ⟨.stdout line, by simp_all [PyLifecycleEvent.from]⟩
  | @stderr line => exact ⟨.stderr line, by simp_all [PyLifecycleEvent.from]⟩
  | exited =>
    obtain ⟨ended, rfl⟩ := Option.isSome_iff_exists.mp hhas
    exact ⟨.exited ended, rfl⟩
  | unknown => exact ⟨.other, by simp_all [PyLifecycleEvent.from]⟩

theorem PyLifecycleEvent.Carried.fits {event : PyLifecycleEvent} (h : event.Carried) :
    Fits event.kind event.pid event.text event.outcome.isSome := by
  obtain ⟨source, rfl⟩ := h
  cases source with
  | started => exact .started
  | stdout => exact .stdout
  | stderr => exact .stderr
  | exited => exact .exited
  | other => exact .unknown

section
variable {crate : Scripted κ ρ} (h : crate.Faithful)
include h

theorem PyLifecycleEvent.unpickle_reduce {event : PyLifecycleEvent} (hevent : event.Carried) :
    unpickle crate event.reduce = .ok event := by
  have hkind := hevent.fits.checkedKind
  obtain ⟨kind, pid, text, outcome⟩ := event
  cases outcome with
  | none =>
    rw [Option.isSome_none] at hkind
    simp only [reduce, unpickle, hkind]
    rfl
  | some outcome =>
    rw [Option.isSome_some] at hkind
    have hone := outcome.oneEnd
    rw [OneEnd] at hone
    simp only [reduce, unpickle, hkind, hone, h.scriptedOutcome]
    rfl

theorem PyLifecycleEvent.unpickle_sound {pickled : Pickled} {event : PyLifecycleEvent}
    (hok : unpickle crate pickled = .ok event) : event.Carried ∧ event.reduce = pickled := by
  obtain ⟨kind, pid, text, hasOutcome, code, signal, timedOut⟩ := pickled
  rw [unpickle] at hok
  split at hok
  · cases hok
  · next hbare =>
    split at hok
    · cases hok
    · next hends =>
      cases hchecked : checkedKind kind pid text hasOutcome with
      | error err =>
        rw [hchecked] at hok
        cases hok
      | ok checked =>
        rw [hchecked] at hok
        obtain ⟨rfl, hfits⟩ := fits_of_checkedKind hchecked
        cases hasOutcome with
        | false =>
          obtain ⟨⟨rfl, rfl⟩, rfl⟩ : (code = none ∧ signal = none) ∧ timedOut = false := by
            simpa using hbare
          cases hok
          exact ⟨Fits.carried hfits, rfl⟩
        | true =>
          have hone : OneEnd code signal timedOut := by
            rw [OneEnd]
            simpa using hends
          obtain ⟨outcome, rfl, rfl, rfl⟩ := hone.exists_outcome
          rw [h.scriptedOutcome] at hok
          cases hok
          exact ⟨Fits.carried hfits, rfl⟩

theorem PyLifecycleEvent.pickle_exact :
    Exact PyLifecycleEvent.Carried reduce (unpickle crate) where
  complete := unpickle_reduce h
  sound := unpickle_sound h

end

/-- What pickles is unpickled as an equal value with an equal hash; a tuple that no event is
pickled as is rejected. -/
theorem values_pickle (crate : Scripted κ ρ) (h : crate.Faithful) (hasher : DefaultHasher) :
    (∀ outcome : PyOutcome, ∃ copy, PyOutcome.unpickle crate outcome.reduce = .ok copy ∧
      copy.eq outcome = true ∧ copy.hash hasher = outcome.hash hasher) ∧
    (∀ finished : PyFinished, ∃ copy, PyFinished.unpickle crate finished.reduce = .ok copy ∧
      copy.eq finished = true ∧ copy.hash hasher = finished.hash hasher) ∧
    (∀ source : PkProcessEvent, ∃ copy,
      PyLifecycleEvent.unpickle crate (PyLifecycleEvent.from source).reduce = .ok copy ∧
      copy.eq (.from source) = true ∧
      copy.hash hasher = (PyLifecycleEvent.from source).hash hasher) ∧
    ∀ pickled : PyLifecycleEvent.Pickled,
      ((∃ event, PyLifecycleEvent.unpickle crate pickled = .ok event) ↔
        ∃ source, (PyLifecycleEvent.from source).reduce = pickled) ∧
      ∀ event, PyLifecycleEvent.unpickle crate pickled = .ok event →
        event.reduce = pickled ∧ ∃ source, PyLifecycleEvent.from source = event := by
  have hexact := PyLifecycleEvent.pickle_exact h
  refine ⟨?_, ?_, ?_, ?_⟩
  · intro outcome
    exact ⟨outcome, PyOutcome.unpickle_reduce h outcome, by simp [PyOutcome.eq], rfl⟩
  · intro finished
    exact ⟨finished, PyFinished.unpickle_reduce h finished, by simp [PyFinished.eq], rfl⟩
  · intro source
    exact ⟨_, hexact.complete ⟨source, rfl⟩, by simp [PyLifecycleEvent.eq], rfl⟩
  · intro pickled
    constructor
    · rw [hexact.accepts_iff]
      constructor
      · rintro ⟨event, ⟨source, rfl⟩, hpickled⟩
        exact ⟨source, hpickled⟩
      · rintro ⟨source, hpickled⟩
        exact ⟨_, ⟨source, rfl⟩, hpickled⟩
    · intro event hok
      exact (hexact.sound hok).symm

def prompt : Scripted Empty PkReply where
  outputString reply := .ready (.ok reply)
  outcome
    | .fail code _ => .exited code
    | .signalled signal => .signalled signal
    | .timeout => .timedOut
  mapErr err := err.elim

theorem values_pickle_signalled :
    ∃ copy, PyLifecycleEvent.unpickle prompt
        ("exited", none, none, true, none, none, false) = .ok copy ∧
      copy.eq ⟨"exited", none, none, some (.signalled none)⟩ = true := by
  have hfaithful : prompt.Faithful :=
    ⟨fun _ _ => ⟨_, rfl, rfl⟩, fun _ => ⟨_, rfl, rfl⟩, ⟨_, rfl, rfl⟩⟩
  obtain ⟨copy, hcopy, heq, -⟩ :=
    (values_pickle prompt hfaithful fun _ => 0).2.2.1 (.exited (.signalled none))
  exact ⟨copy, hcopy, heq⟩

end ProcessKit.Pickle

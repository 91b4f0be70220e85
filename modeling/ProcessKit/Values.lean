import ProcessKit.PrefixCode
import ProcessKit.Pickle
import ProcessKit.Running.Iterators
import ProcessKit.Tee.Text

/-!
# Values as keys

Every captured value has an `__eq__` and a `__hash__` of its own. A `__hash__` writes the value's
fields into a hasher one after another, each in the bytes that Rust's `Hash` has for its type. In
those bytes a field can be told from what follows it, so a value writes what another writes only
if the two agree in all that is written: in everything that `__eq__` compares, but for the two
settings of a `ProcessResult` that have no accessor.

Four of the classes compare values of the crate. The crate's `PartialEq` is a parameter, and what
is relied on of it is which fields it compares, as the bindings document them.
-/

namespace ProcessKit.Values

open ProcessKit.Pickle (PkOutcome Hashed DefaultHasher)

-- ---------------------------------------------------------------------------
-- What Rust's `Hash` writes
-- ---------------------------------------------------------------------------

/-- A type's `Hash`, as the bytes it writes. -/
class RustHash (α : Type) where
  code : PrefixCode α UInt8

def feed [RustHash α] (value : α) : List UInt8 := RustHash.code.write value

@[simp] theorem feed_append_inj [RustHash α] {a b : α} :
    feed a ++ s = feed b ++ t ↔ a = b ∧ s = t :=
  RustHash.code.write_append_inj

theorem feed_append_eq_feed [RustHash α] {a b : α} : feed a ++ s = feed b ↔ a = b ∧ s = [] := by
  simpa using feed_append_inj (a := a) (b := b) (s := s) (t := [])

@[simp] theorem feed_inj [RustHash α] {a b : α} : feed a = feed b ↔ a = b :=
  RustHash.code.write_inj

theorem toNat_injective : Function.Injective Bool.toNat := by
  intro a b h
  cases a <;> cases b <;> first | rfl | cases h

instance : RustHash Bool where
  code := .number 1 Bool.toNat (by decide) toNat_injective

instance : RustHash UInt32 where
  code := .number 4 UInt32.toNat UInt32.toNat_lt fun _ _ => UInt32.toNat_inj.mp

instance : RustHash UInt64 where
  code := .number 8 UInt64.toNat UInt64.toNat_lt fun _ _ => UInt64.toNat_inj.mp

instance : RustHash Int32 where
  code := RustHash.code.map Int32.toUInt32 fun _ _ h => Int32.toBitVec_inj.mp
    (by simpa using congrArg UInt32.toBitVec h)

/-- An option's discriminant is an `isize`. -/
def discriminant : PrefixCode Bool UInt8 :=
  .number 8 Bool.toNat (by decide) toNat_injective

instance [RustHash α] : RustHash (Option α) where
  code := .option discriminant RustHash.code

theorem encode_injective : Function.Injective Tee.encode := by
  intro a b h
  rw [← Tee.fromUtf8Lossy_encode a, h, Tee.fromUtf8Lossy_encode]

theorem no_stop_in_char (c : Char) : 0xFF ∉ String.utf8EncodeChar c := by
  intro hmem
  have hlt : c.val.toNat < 0x110000 := by
    have hvalid := c.valid
    simp only [UInt32.isValidChar, Nat.isValidChar] at hvalid
    omega
  rw [String.utf8EncodeChar] at hmem
  split_ifs at hmem <;>
    simp only [List.mem_cons, List.not_mem_nil, or_false, ← UInt8.toNat_inj, UInt8.toNat_ofNat,
      UInt8.toNat_ofNat'] at hmem <;>
    omega

theorem no_stop_in_text (text : List Char) : 0xFF ∉ Tee.encode text := by
  intro hmem
  obtain ⟨c, -, hc⟩ := List.mem_flatMap.mp hmem
  exact no_stop_in_char c hc

/-- A `str` ends with a byte that UTF-8 does not have. -/
instance : RustHash String where
  code := .stopped 0xFF (fun text => Tee.encode text.toList)
    (fun text => no_stop_in_text text.toList)
    fun _ _ h => String.toList_inj.mp (encode_injective h)

/-- A `Vec<u8>`; no vector is longer than the address space. -/
structure ByteVec where
  bytes : List UInt8
  fits : bytes.length < 2 ^ 64
  deriving DecidableEq

def ByteVec.len (vec : ByteVec) : UInt64 := UInt64.ofNat vec.bytes.length

theorem ByteVec.len_inj {a b : ByteVec} (h : a.len = b.len) : a.bytes.length = b.bytes.length := by
  have htoNat := congrArg UInt64.toNat h
  rwa [len, len, UInt64.toNat_ofNat_of_lt' a.fits, UInt64.toNat_ofNat_of_lt' b.fits] at htoNat

/-- A slice is written behind its length. -/
instance : RustHash ByteVec where
  code := .counted RustHash.code ByteVec.len ByteVec.bytes ByteVec.len_inj
    fun a b h => by cases a; cases b; cases h; rfl

structure Duration where
  secs : UInt64
  nanos : UInt32
  fits : nanos < 1000000000
  deriving DecidableEq

instance : RustHash Duration where
  code := (RustHash.code.pair RustHash.code).map (fun duration => (duration.secs, duration.nanos))
    fun a b h => by cases a; cases b; cases h; rfl

-- ---------------------------------------------------------------------------
-- The classes
-- ---------------------------------------------------------------------------

def bytesOf : Hashed → List UInt8
  | .text value => feed value
  | .textOption value => feed value
  | .pid value => feed value
  | .number value => feed value
  | .flag value => feed value

/-- A hasher that reads bytes. -/
abbrev Sip := List UInt8 → UInt64

def bytewise (sip : Sip) : DefaultHasher := fun writes => sip (writes.flatMap bytesOf)

structure PkRunProfile where
  outcome : PkOutcome
  duration : Duration
  cpuTime : Option Duration
  peakMemoryBytes : Option UInt64
  samples : UInt64
  deriving DecidableEq

attribute [ext] PkRunProfile

structure PkProcessResult (ρ : Type) where
  program : String
  stdout : ρ
  stderr : String
  outcome : PkOutcome
  timeout : Option Duration
  okCodes : List Int32
  duration : Duration
  truncated : Bool

/-- The same but for what the crate takes for telemetry. -/
def PkProcessResult.Same (a b : PkProcessResult ρ) : Prop :=
  a.program = b.program ∧ a.stdout = b.stdout ∧ a.stderr = b.stderr ∧ a.outcome = b.outcome ∧
    a.timeout = b.timeout ∧ a.okCodes = b.okCodes

instance [DecidableEq ρ] (a b : PkProcessResult ρ) : Decidable (a.Same b) :=
  inferInstanceAs (Decidable (_ ∧ _))

/-- The crate's `PartialEq`. -/
structure PartialEq where
  profile : PkRunProfile → PkRunProfile → Bool
  result : PkProcessResult String → PkProcessResult String → Bool
  bytes : PkProcessResult ByteVec → PkProcessResult ByteVec → Bool

/-- What the bindings document of it. -/
structure PartialEq.Documented (crate : PartialEq) : Prop where
  profile : ∀ a b, crate.profile a b = true ↔ a = b
  result : ∀ a b, crate.result a b = true ↔ a.Same b
  bytes : ∀ a b, crate.bytes a b = true ↔ a.Same b

structure PyRunProfile where
  inner : PkRunProfile

structure PyProcessResult where
  inner : PkProcessResult String

structure PyBytesResult where
  inner : PkProcessResult ByteVec

structure PySupervisionOutcome where
  finalResult : PkProcessResult String
  restarts : UInt32
  stopped : String
  stormPauses : UInt32
  livenessKills : UInt32

def resultFeed [RustHash ρ] (inner : PkProcessResult ρ) : List UInt8 :=
  feed inner.program ++ feed inner.stdout ++ feed inner.stderr ++ feed inner.outcome.code ++
    feed inner.outcome.signal ++ feed inner.outcome.hasTimedOut

namespace PyRunProfile

def eq (crate : PartialEq) (self other : PyRunProfile) : Bool :=
  crate.profile self.inner other.inner

def hash (sip : Sip) (self : PyRunProfile) : UInt64 :=
  sip (feed self.inner.outcome.code ++ feed self.inner.outcome.signal ++
    feed self.inner.outcome.hasTimedOut ++ feed self.inner.duration ++ feed self.inner.cpuTime ++
    feed self.inner.peakMemoryBytes ++ feed self.inner.samples)

end PyRunProfile

namespace PyProcessResult

def eq (crate : PartialEq) (self other : PyProcessResult) : Bool :=
  crate.result self.inner other.inner

def hash (sip : Sip) (self : PyProcessResult) : UInt64 := sip (resultFeed self.inner)

end PyProcessResult

namespace PyBytesResult

def eq (crate : PartialEq) (self other : PyBytesResult) : Bool :=
  crate.bytes self.inner other.inner

def hash (sip : Sip) (self : PyBytesResult) : UInt64 := sip (resultFeed self.inner)

end PyBytesResult

namespace PySupervisionOutcome

def eq (crate : PartialEq) (self other : PySupervisionOutcome) : Bool :=
  crate.result self.finalResult other.finalResult && self.restarts == other.restarts &&
    self.stopped == other.stopped && self.stormPauses == other.stormPauses &&
    self.livenessKills == other.livenessKills

def hash (sip : Sip) (self : PySupervisionOutcome) : UInt64 :=
  sip (resultFeed self.finalResult ++ feed self.restarts ++ feed self.stopped ++
    feed self.stormPauses ++ feed self.livenessKills)

end PySupervisionOutcome

end ProcessKit.Values

namespace ProcessKit.Running.PyOutputEvent

open ProcessKit.Values (Sip feed)

def eq (self other : PyOutputEvent) : Bool :=
  self.isStderr == other.isStderr && self.text == other.text

def hash (sip : Sip) (self : PyOutputEvent) : UInt64 := sip (feed self.isStderr ++ feed self.text)

end ProcessKit.Running.PyOutputEvent

namespace ProcessKit.Values

open ProcessKit.Pickle (PkOutcome PyOutcome PyFinished PyLifecycleEvent Hashed hashOutcome)
open ProcessKit.Running (PyOutputEvent)

-- ---------------------------------------------------------------------------
-- What is written tells values apart
-- ---------------------------------------------------------------------------

/-- Two values that no hasher of bytes tells apart. -/
def Alike (hash : Sip → α → UInt64) (a b : α) : Prop := ∀ sip, hash sip a = hash sip b

theorem alike_iff (write : α → List UInt8) :
    Alike (fun sip a => sip (write a)) a b ↔ write a = write b := by
  constructor
  · intro h
    have hsip := h fun bytes => if bytes = write a then 1 else 0
    by_contra hne
    simp [Ne.symm hne] at hsip
  · intro h sip
    exact congrArg sip h

/-- An outcome is its code, its signal and whether it timed out. -/
theorem outcome_ext {a b : PkOutcome} : a.code = b.code ∧ a.signal = b.signal ∧
    a.hasTimedOut = b.hasTimedOut ↔ a = b := by
  constructor
  · rintro ⟨hcode, hsignal, htimedOut⟩
    cases a <;> cases b <;>
      simp_all [PkOutcome.code, PkOutcome.signal, PkOutcome.hasTimedOut]
  · rintro rfl
    exact ⟨rfl, rfl, rfl⟩

@[simp] theorem bytesOf_hashOutcome (outcome : PkOutcome) :
    (hashOutcome outcome).flatMap bytesOf =
      feed outcome.code ++ (feed outcome.signal ++ feed outcome.hasTimedOut) := by
  simp [hashOutcome, bytesOf]

theorem outcome_alike (a b : PyOutcome) :
    Alike (PyOutcome.hash ∘ bytewise) a b ↔ a.eq b = true := by
  refine (alike_iff fun a : PyOutcome => (hashOutcome a.inner).flatMap bytesOf).trans ?_
  obtain ⟨a⟩ := a
  obtain ⟨b⟩ := b
  simp [PyOutcome.eq, ← outcome_ext]

theorem finished_alike (a b : PyFinished) :
    Alike (PyFinished.hash ∘ bytewise) a b ↔ a.eq b = true := by
  refine (alike_iff fun a : PyFinished =>
    (hashOutcome a.outcome ++ [Hashed.text a.stderr]).flatMap bytesOf).trans ?_
  simp [bytesOf, PyFinished.eq, ← outcome_ext, and_assoc]

theorem outputEvent_alike (a b : PyOutputEvent) :
    Alike PyOutputEvent.hash a b ↔ a.eq b = true := by
  refine (alike_iff fun a : PyOutputEvent => feed a.isStderr ++ feed a.text).trans ?_
  simp [PyOutputEvent.eq]

variable {crate : PartialEq}

theorem runProfile_alike (h : crate.Documented) (a b : PyRunProfile) :
    Alike PyRunProfile.hash a b ↔ a.eq crate b = true := by
  refine (alike_iff fun a : PyRunProfile => _).trans ?_
  obtain ⟨a⟩ := a
  obtain ⟨b⟩ := b
  simp [PyRunProfile.eq, h.profile, PkRunProfile.ext_iff, ← outcome_ext, and_assoc]

theorem lifecycleEvent_alike (a b : PyLifecycleEvent) :
    Alike (PyLifecycleEvent.hash ∘ bytewise) a b ↔ a.eq b = true := by
  refine (alike_iff fun a : PyLifecycleEvent => ([Hashed.text a.kind, .pid a.pid,
    .textOption a.text, .flag a.outcome.isSome] ++
      a.outcome.toList.flatMap hashOutcome).flatMap bytesOf).trans ?_
  obtain ⟨kind, pid, text, outcome⟩ := a
  obtain ⟨kind', pid', text', outcome'⟩ := b
  cases outcome with
  | none =>
    cases outcome' with
    | none => simp [bytesOf, PyLifecycleEvent.eq, and_assoc]
    | some outcome' =>
      simp [bytesOf, PyLifecycleEvent.eq, eq_comm (a := feed false), feed_append_eq_feed]
  | some outcome =>
    cases outcome' with
    | none => simp [bytesOf, PyLifecycleEvent.eq, feed_append_eq_feed]
    | some outcome' => simp [bytesOf, PyLifecycleEvent.eq, ← outcome_ext, and_assoc]

-- ---------------------------------------------------------------------------
-- Results, whose settings are compared and not written
-- ---------------------------------------------------------------------------

/-- The result with the settings of another run. -/
def PkProcessResult.configuredAs (result other : PkProcessResult ρ) : PkProcessResult ρ :=
  { result with timeout := other.timeout, okCodes := other.okCodes }

theorem PkProcessResult.Same.configuredAs {a b : PkProcessResult ρ} (h : a.Same b) :
    a.configuredAs b = a := by
  obtain ⟨-, -, -, -, htimeout, hcodes⟩ := h
  rw [PkProcessResult.configuredAs, ← htimeout, ← hcodes]

theorem resultFeed_append_inj [RustHash ρ] {a b : PkProcessResult ρ} :
    resultFeed a ++ s = resultFeed b ++ t ↔ (a.configuredAs b).Same b ∧ s = t := by
  simp [resultFeed, PkProcessResult.configuredAs, PkProcessResult.Same, ← outcome_ext, and_assoc]

theorem resultFeed_inj [RustHash ρ] {a b : PkProcessResult ρ} :
    resultFeed a = resultFeed b ↔ (a.configuredAs b).Same b := by
  simpa using resultFeed_append_inj (a := a) (b := b) (s := []) (t := [])

theorem processResult_alike (h : crate.Documented) (a b : PyProcessResult) :
    Alike PyProcessResult.hash a b ↔
      crate.result (a.inner.configuredAs b.inner) b.inner = true := by
  rw [h.result]
  exact (alike_iff fun a : PyProcessResult => resultFeed a.inner).trans resultFeed_inj

theorem bytesResult_alike (h : crate.Documented) (a b : PyBytesResult) :
    Alike PyBytesResult.hash a b ↔
      crate.bytes (a.inner.configuredAs b.inner) b.inner = true := by
  rw [h.bytes]
  exact (alike_iff fun a : PyBytesResult => resultFeed a.inner).trans resultFeed_inj

/-- The supervision with its final result from a command of other settings. -/
def PySupervisionOutcome.configuredAs (outcome other : PySupervisionOutcome) :
    PySupervisionOutcome :=
  { outcome with finalResult := outcome.finalResult.configuredAs other.finalResult }

theorem supervisionOutcome_alike (h : crate.Documented) (a b : PySupervisionOutcome) :
    Alike PySupervisionOutcome.hash a b ↔ (a.configuredAs b).eq crate b = true := by
  refine (alike_iff fun a : PySupervisionOutcome => _).trans ?_
  simp [resultFeed_append_inj, PySupervisionOutcome.configuredAs, PySupervisionOutcome.eq,
    h.result, and_assoc]

theorem PySupervisionOutcome.configuredAs_of_eq (h : crate.Documented)
    {a b : PySupervisionOutcome} (heq : a.eq crate b = true) : a.configuredAs b = a := by
  obtain ⟨⟨⟨⟨hresult, -⟩, -⟩, -⟩, -⟩ : ((((crate.result a.finalResult b.finalResult = true ∧ _) ∧
      _) ∧ _) ∧ a.livenessKills = b.livenessKills) := by
    simpa only [PySupervisionOutcome.eq, Bool.and_eq_true, beq_iff_eq] using heq
  rw [configuredAs, ((h.result _ _).mp hresult).configuredAs]

/-- Values of the first five classes hash alike under every hasher just when they are equal. A
result, and a supervision with one, hashes like another just when it would be equal to it under
the other's settings, which equal ones have. -/
theorem values_hash (h : crate.Documented) :
    (∀ a b : PyOutcome, Alike (PyOutcome.hash ∘ bytewise) a b ↔ a.eq b = true) ∧
    (∀ a b : PyFinished, Alike (PyFinished.hash ∘ bytewise) a b ↔ a.eq b = true) ∧
    (∀ a b : PyLifecycleEvent,
      Alike (PyLifecycleEvent.hash ∘ bytewise) a b ↔ a.eq b = true) ∧
    (∀ a b : PyOutputEvent, Alike PyOutputEvent.hash a b ↔ a.eq b = true) ∧
    (∀ a b : PyRunProfile, Alike PyRunProfile.hash a b ↔ a.eq crate b = true) ∧
    (∀ a b : PyProcessResult,
      (Alike PyProcessResult.hash a b ↔
        crate.result (a.inner.configuredAs b.inner) b.inner = true) ∧
      (a.eq crate b = true → Alike PyProcessResult.hash a b)) ∧
    (∀ a b : PyBytesResult,
      (Alike PyBytesResult.hash a b ↔
        crate.bytes (a.inner.configuredAs b.inner) b.inner = true) ∧
      (a.eq crate b = true → Alike PyBytesResult.hash a b)) ∧
    ∀ a b : PySupervisionOutcome,
      (Alike PySupervisionOutcome.hash a b ↔ (a.configuredAs b).eq crate b = true) ∧
      (a.eq crate b = true → Alike PySupervisionOutcome.hash a b) := by
  refine ⟨outcome_alike, finished_alike, lifecycleEvent_alike, outputEvent_alike,
    runProfile_alike h, ?_, ?_, ?_⟩
  · intro a b
    refine ⟨processResult_alike h a b, fun heq => (processResult_alike h a b).mpr ?_⟩
    rwa [((h.result _ _).mp heq).configuredAs]
  · intro a b
    refine ⟨bytesResult_alike h a b, fun heq => (bytesResult_alike h a b).mpr ?_⟩
    rwa [((h.bytes _ _).mp heq).configuredAs]
  · intro a b
    refine ⟨supervisionOutcome_alike h a b, fun heq => (supervisionOutcome_alike h a b).mpr ?_⟩
    rwa [PySupervisionOutcome.configuredAs_of_eq h heq]

def derivedEq : PartialEq where
  profile a b := decide (a = b)
  result a b := decide (a.Same b)
  bytes a b := decide (a.Same b)

theorem derivedEq_documented : derivedEq.Documented := by
  constructor <;> intro a b <;> exact decide_eq_true_iff

def timedRun (timeout : Option Duration) (duration : Duration) : PyProcessResult where
  inner :=
    { program := "tool", stdout := "out", stderr := "", outcome := .exited 0, timeout,
      okCodes := [0], duration, truncated := false }

/-- Equal runs of two lengths hash alike, and so does one that had no timeout and is not equal. -/
theorem values_hash_timed :
    Alike PyProcessResult.hash (timedRun (some ⟨5, 0, by decide⟩) ⟨1, 0, by decide⟩)
        (timedRun (some ⟨5, 0, by decide⟩) ⟨2, 0, by decide⟩) ∧
      Alike PyProcessResult.hash (timedRun none ⟨1, 0, by decide⟩)
        (timedRun (some ⟨5, 0, by decide⟩) ⟨1, 0, by decide⟩) ∧
      (timedRun none ⟨1, 0, by decide⟩).eq derivedEq
        (timedRun (some ⟨5, 0, by decide⟩) ⟨1, 0, by decide⟩) = false := by
  obtain ⟨-, -, -, -, -, hresult, -⟩ := values_hash derivedEq_documented
  exact ⟨(hresult _ _).2 (by decide), (hresult _ _).1.mpr (by decide), by decide⟩

end ProcessKit.Values

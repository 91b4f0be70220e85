import ProcessKit.Cli.RunContract

/-!
# The subcommand `doctor`

`_doctor` makes a group and three more, one for each limit, and says which of them it got. The
report is a text or one line of JSON.
-/

namespace ProcessKit.Cli

open Effects
open ProcessKit.Command (F64)

-- ---------------------------------------------------------------------------
-- The report
-- ---------------------------------------------------------------------------

def exitDoctorOk : Int := 0
def exitDoctorLimitsUnavailable : Int := 1
def exitDoctorNoContainment : Int := 3
def exitDoctorProbeError : Int := 4

def doctorProbeMaxMemory : UInt64 := 1024 * 1024
def doctorProbeMaxProcesses : UInt32 := 1
def doctorProbeCpuQuota : F64 := 0x3FB999999999999A

def doctorCaveat : String :=
  "--max-memory/--max-processes/--cpu-quota need a Windows Job Object or a Linux " ++
    "cgroup-v2 root; the kernel typically refuses them inside containers, systemd user " ++
    "sessions, and non-root cgroups, and always on macOS " ++
    "(docs/cli.md#resource-limits-hard-cap-or-best-effort)."

def doctorLimitProbes : List (String × Limits) :=
  [("--max-memory", ⟨some doctorProbeMaxMemory, none, none⟩),
    ("--max-processes", ⟨none, some doctorProbeMaxProcesses, none⟩),
    ("--cpu-quota", ⟨none, none, some doctorProbeCpuQuota⟩)]

inductive Verdict
  | ok
  | degraded
  | unavailable
  | error
  deriving DecidableEq

def Verdict.name : Verdict → String
  | .ok => "OK"
  | .degraded => "DEGRADED"
  | .unavailable => "UNAVAILABLE"
  | .error => "ERROR"

def Verdict.exitCode : Verdict → Int
  | .ok => exitDoctorOk
  | .degraded => exitDoctorLimitsUnavailable
  | .unavailable => exitDoctorNoContainment
  | .error => exitDoctorProbeError

/-- What a probe of a limit came to, with the exception's text. -/
inductive Probed
  | available
  | unavailable (text : String)
  | error (text : String)

def Probed.isAvailable : Probed → Bool
  | .available => true
  | .unavailable _ | .error _ => false

/-- The payload of `doctor --json`; the limits are those of the probes, in their order. -/
structure DoctorPayload where
  mechanism : String
  hostContainment : HostContainment
  verdict : String
  exitCode : Int
  resourceLimits : List Bool
  caveat : String
  errorProbeFailures : Option (List String)

-- ---------------------------------------------------------------------------
-- The probes
-- ---------------------------------------------------------------------------

variable (dumps : DoctorPayload → String) (jsonOutput : Bool)

def emitStdout (text : String) : Wrapper Unit := Wrapper.emit .stdout text

def emitAll : List String → Wrapper Unit
  | [] => .ret ()
  | text :: texts => do
    emitStdout text
    emitAll texts

def printHostContainment : Wrapper Unit := do
  let report ← Wrapper.hostContainment
  emitAll [s!"  graceful-stop scope     : {report.softStopScope}",
    s!"  parent-death cleanup    : {report.parentDeathCleanup}",
    s!"  processkit-rs version   : {report.crateVersion}"]

/-- `_emit_doctor_json` of `_doctor_json_payload`. -/
def emitDoctorJson (mechanism : String) (verdict : Verdict) (resourceLimits : List Bool)
    (errorProbeFailures : Option (List String)) : Wrapper Unit := do
  let hostContainment ← Wrapper.hostContainment
  emitStdout (dumps ⟨mechanism, hostContainment, verdict.name, verdict.exitCode, resourceLimits,
    doctorCaveat, errorProbeFailures⟩)

def probe (limits : Limits) : Wrapper Probed :=
  .tryCatch (.bind (Wrapper.group limits) fun _ => .ret .available) fun exc =>
    if exc.isRefusal then some (.ret (.unavailable exc.text))
    else if exc.isOsError then some (.ret (.error exc.text))
    else none

def probeAll : List (String × Limits) → Wrapper (List (String × Probed))
  | [] => .ret []
  | (flag, limits) :: probes => do
    let probed ← probe limits
    return (flag, probed) :: (← probeAll probes)

def unavailableOf (probed : List (String × Probed)) : List String :=
  probed.filterMap fun
    | (flag, .unavailable text) => some s!"{flag} ({text})"
    | _ => none

def probeErrorsOf (probed : List (String × Probed)) : List String :=
  probed.filterMap fun
    | (flag, .error text) => some s!"{flag} ({text})"
    | _ => none

-- ---------------------------------------------------------------------------
-- The verdict
-- ---------------------------------------------------------------------------

def doctorReport (mechanism : String) (verdict : Verdict) (resourceLimits : List Bool)
    (errorProbeFailures : Option (List String)) (lines : List String) : Wrapper Int := do
  if jsonOutput then emitDoctorJson dumps mechanism verdict resourceLimits errorProbeFailures
  else emitAll lines
  return verdict.exitCode

/-- `_doctor` after the three probes. -/
def doctorVerdict (mechanism : String) (probed : List (String × Probed)) : Wrapper Int :=
  let resourceLimits := probed.map (·.2.isAvailable)
  let unavailable := unavailableOf probed
  let probeErrors := probeErrorsOf probed
  let unavailableText := "; ".intercalate unavailable
  let note := s!"  note: {doctorCaveat}"
  if probeErrors ≠ [] then
    doctorReport dumps jsonOutput mechanism .error resourceLimits (some probeErrors)
      (["  resource limits        : error probing " ++ "; ".intercalate probeErrors] ++
        (if unavailable ≠ [] then
          [s!"  resource limits        : also unavailable {unavailableText}"]
        else []) ++
        [note, "  verdict: ERROR - could not determine resource-limit availability (exit 4)"])
  else if unavailable ≠ [] then
    doctorReport dumps jsonOutput mechanism .degraded resourceLimits none
      [s!"  resource limits        : unavailable {unavailableText}", note,
        "  verdict: DEGRADED - containment is enforced, but resource limits are not (exit 1)"]
  else
    doctorReport dumps jsonOutput mechanism .ok resourceLimits none
      ["  resource limits        : available",
        "  verdict: OK - containment and resource limits are both available (exit 0)"]

/-- `_doctor` from the answer of the mechanism's probe on. -/
def doctorProbed : Probed → Wrapper Int
  | .unavailable text =>
    doctorReport dumps jsonOutput "unavailable" .unavailable [false, false, false] none
      [s!"  containment mechanism : unavailable ({text})",
        "  resource limits        : unavailable (no containment mechanism to test)",
        s!"  note: {doctorCaveat}",
        "  verdict: UNAVAILABLE - no containment mechanism in this environment (exit 3)"]
  | .error text =>
    doctorReport dumps jsonOutput "unknown" .error [false, false, false]
      (some [s!"containment mechanism ({text})"])
      [s!"  containment mechanism : error probing ({text})",
        "  resource limits        : unknown (mechanism probe failed)",
        "  verdict: ERROR - could not determine containment availability (exit 4)"]
  | .available => do
    let mechanism ← Wrapper.mechanism
    if !jsonOutput then emitStdout s!"  containment mechanism : {mechanism}"
    let probed ← probeAll doctorLimitProbes
    doctorVerdict dumps jsonOutput mechanism probed

def doctor : Wrapper Int := do
  if !jsonOutput then
    emitStdout "processkit doctor"
    printHostContainment
  let probed ← probe .none
  doctorProbed dumps jsonOutput probed

-- ---------------------------------------------------------------------------
-- What the verdict says
-- ---------------------------------------------------------------------------

/-- The probes of a diagnosis with their answers, and the lines on stdout. -/
structure Diagnosis where
  probes : List (Limits × Except Exc Unit)
  lines : List String

/-- A diagnosis makes groups and writes to stdout; it asks for nothing else but reports. -/
def Diagnosis.step (diagnosis : Diagnosis) : Event Op.Answer → Option Diagnosis
  | ⟨.group limits, answer⟩ =>
    some { diagnosis with probes := diagnosis.probes ++ [(limits, answer)] }
  | ⟨.emit .stdout text, _⟩ => some { diagnosis with lines := diagnosis.lines ++ [text] }
  | ⟨.mechanism, _⟩ | ⟨.hostContainment, _⟩ => some diagnosis
  | _ => none

/-- What a probe says; `none` is that it says nothing. -/
def classify : Except Exc Unit → Option Probed
  | .ok () => some .available
  | .error exc =>
    if exc.isRefusal then some (.unavailable exc.text)
    else if exc.isOsError then some (.error exc.text)
    else none

def Probed.isError : Probed → Bool
  | .error _ => true
  | .available | .unavailable _ => false

def judge (probed : List Probed) : Verdict :=
  if probed.any Probed.isError then .error
  else if probed.all Probed.isAvailable then .ok
  else .degraded

/-- What the probes of a diagnosis that comes to a verdict have answered, with that verdict
and with what is said of the three limits. -/
inductive Diagnosed : List (Limits × Except Exc Unit) → Verdict → List Bool → Prop
  | noMechanism (text : String) (h : classify answer = some (.unavailable text)) :
    Diagnosed [(.none, answer)] .unavailable [false, false, false]
  | unknown (text : String) (h : classify answer = some (.error text)) :
    Diagnosed [(.none, answer)] .error [false, false, false]
  | judged (h : classify answer = some .available) (answers : List (Except Exc Unit))
    (probed : List Probed) (hprobed : answers.map classify = probed.map some)
    (hlength : answers.length = doctorLimitProbes.length) :
    Diagnosed ((.none, answer) :: (doctorLimitProbes.map (·.2)).zip answers) (judge probed)
      (probed.map Probed.isAvailable)

/-- What is written of a verdict: one line of JSON, or a text that ends with it. -/
def Reported (diagnosis : Diagnosis) (verdict : Verdict) (limits : List Bool) : Prop :=
  if jsonOutput then
    ∃ mechanism hostContainment failures,
      diagnosis.lines = [dumps ⟨mechanism, hostContainment, verdict.name, verdict.exitCode, limits,
        doctorCaveat, failures⟩] ∧ (failures.isSome ↔ verdict = .error)
  else ∃ said, diagnosis.lines.getLast? = some (s!"  verdict: {verdict.name} - " ++ said)

/-- The code, the probes and the report are of one verdict. -/
def Concluded (diagnosis : Diagnosis) (code : Int) : Prop :=
  ∃ verdict limits, code = verdict.exitCode ∧ Diagnosed diagnosis.probes verdict limits ∧
    Reported dumps jsonOutput diagnosis verdict limits

theorem emitAll_follows (diagnosis : Diagnosis) (texts : List String) :
    Triple Diagnosis.step diagnosis (emitAll texts)
      (fun next _ => next = { diagnosis with lines := diagnosis.lines ++ texts })
      fun _ _ => True := by
  induction texts generalizing diagnosis with
  | nil => exact .ret (by simp)
  | cons text texts ih =>
    refine .bind (R := fun next _ => next = { diagnosis with lines := diagnosis.lines ++ [text] })
      (.call fun emitted => ⟨_, rfl, ?_⟩) ?_
    · cases Emitted.ended emitted with
      | ok value => exact rfl
      | error exc => trivial
    · rintro _ _ rfl
      refine (ih _).mono ?_ fun _ _ h => h
      rintro _ _ rfl
      simp

theorem probe_follows (diagnosis : Diagnosis) (limits : Limits) :
    Triple Diagnosis.step diagnosis (probe limits)
      (fun next probed => ∃ answer, classify answer = some probed ∧
        next = { diagnosis with probes := diagnosis.probes ++ [(limits, answer)] })
      fun _ _ => True := by
  refine .tryCatch (R := fun next exc =>
      next = { diagnosis with probes := diagnosis.probes ++ [(limits, .error exc)] })
    (.bind (R := fun next _ =>
      next = { diagnosis with probes := diagnosis.probes ++ [(limits, .ok ())] })
      (.call fun answer => ⟨_, rfl, ?_⟩) ?_) (fun _ _ _ _ => trivial) ?_
  · cases answer with
    | ok value => exact rfl
    | error exc => exact rfl
  · rintro _ _ rfl
    exact .ret ⟨_, rfl, rfl⟩
  · rintro _ exc clause rfl hsome
    split at hsome
    next hrefusal =>
      cases hsome
      exact .ret ⟨.error exc, by simp [classify, hrefusal], rfl⟩
    next hrefusal =>
      split at hsome
      next hos =>
        cases hsome
        exact .ret ⟨.error exc, by simp [classify, hrefusal, hos], rfl⟩
      next => cases hsome

theorem probeAll_follows (diagnosis : Diagnosis) (probes : List (String × Limits)) :
    Triple Diagnosis.step diagnosis (probeAll probes)
      (fun next probed => ∃ answers : List (Except Exc Unit), answers.length = probes.length ∧
        answers.map classify = probed.map (some ·.2) ∧
        next = { diagnosis with
          probes := diagnosis.probes ++ (probes.map (·.2)).zip answers })
      fun _ _ => True := by
  induction probes generalizing diagnosis with
  | nil => exact .ret ⟨[], rfl, rfl, by simp⟩
  | cons first probes ih =>
    obtain ⟨flag, limits⟩ := first
    refine .bind (probe_follows diagnosis limits) ?_
    rintro _ probed ⟨answer, hanswer, rfl⟩
    refine .bind (ih _) ?_
    rintro _ others ⟨answers, hlength, hanswers, rfl⟩
    exact .ret ⟨answer :: answers, by simp [hlength], by simp [hanswer, hanswers], by simp⟩

variable {dumps : DoctorPayload → String} {jsonOutput : Bool}

theorem doctorReport_follows {diagnosis : Diagnosis} {verdict : Verdict} {limits : List Bool}
    {failures : Option (List String)} {lines : List String} (mechanism said : String)
    (hquiet : jsonOutput = true → diagnosis.lines = [])
    (hdiagnosed : Diagnosed diagnosis.probes verdict limits)
    (hfailures : failures.isSome ↔ verdict = .error)
    (hlines : lines.getLast? = some (s!"  verdict: {verdict.name} - " ++ said)) :
    Triple Diagnosis.step diagnosis
      (doctorReport dumps jsonOutput mechanism verdict limits failures lines)
      (Concluded dumps jsonOutput) fun _ _ => True := by
  rw [doctorReport]
  cases jsonOutput with
  | false =>
    refine .bind (emitAll_follows diagnosis lines) ?_
    rintro _ _ rfl
    refine .ret ⟨verdict, limits, rfl, hdiagnosed, said, ?_⟩
    simp [List.getLast?_append, hlines]
  | true =>
    refine .bind (R := fun next _ => next.probes = diagnosis.probes ∧
      Reported dumps true next verdict limits) ?_ fun next _ h =>
        .ret ⟨verdict, limits, rfl, h.1 ▸ hdiagnosed, h.2⟩
    refine .bind (R := fun next _ => next = diagnosis) (.call fun answer => ⟨_, rfl, ?_⟩) ?_
    · cases answer with
      | ok report => exact rfl
      | error exc => trivial
    · rintro _ hostContainment rfl
      refine .call fun emitted => ⟨_, rfl, ?_⟩
      cases Emitted.ended emitted with
      | ok value =>
        exact ⟨rfl, mechanism, hostContainment, failures, by simp [hquiet rfl], hfailures⟩
      | error exc => trivial

theorem probeErrorsOf_eq_nil {probed : List (String × Probed)} :
    probeErrorsOf probed = [] ↔ (probed.map (·.2)).any Probed.isError = false := by
  rw [probeErrorsOf, List.filterMap_eq_nil_iff, List.any_map, List.any_eq_false]
  refine forall₂_congr fun flagged _ => ?_
  obtain ⟨flag, probed⟩ := flagged
  cases probed <;> simp [Probed.isError]

theorem unavailableOf_eq_nil {probed : List (String × Probed)} (h : probeErrorsOf probed = []) :
    unavailableOf probed = [] ↔ (probed.map (·.2)).all Probed.isAvailable = true := by
  rw [probeErrorsOf, List.filterMap_eq_nil_iff] at h
  rw [unavailableOf, List.filterMap_eq_nil_iff, List.all_map, List.all_eq_true]
  refine forall₂_congr fun flagged hmem => ?_
  have hflagged := h flagged hmem
  obtain ⟨flag, probed⟩ := flagged
  cases probed <;> simp [Probed.isAvailable] at hflagged ⊢

theorem doctorVerdict_follows {diagnosis : Diagnosis} (mechanism : String)
    (probed : List (String × Probed)) (hquiet : jsonOutput = true → diagnosis.lines = [])
    (hdiagnosed : Diagnosed diagnosis.probes (judge (probed.map (·.2)))
      (probed.map (·.2.isAvailable))) :
    Triple Diagnosis.step diagnosis (doctorVerdict dumps jsonOutput mechanism probed)
      (Concluded dumps jsonOutput) fun _ _ => True := by
  rw [doctorVerdict]
  by_cases herrors : probeErrorsOf probed = []
  · simp only [herrors, ne_eq, not_true_eq_false, ite_false]
    have hany := probeErrorsOf_eq_nil.mp herrors
    by_cases hrefused : unavailableOf probed = []
    · have hjudge : judge (probed.map (·.2)) = .ok := by
        simp only [judge, hany, (unavailableOf_eq_nil herrors).mp hrefused, ite_true,
          Bool.false_eq_true, ite_false]
      simp only [hrefused, not_true_eq_false, ite_false]
      exact doctorReport_follows mechanism "containment and resource limits are both available (exit 0)"
        hquiet (hjudge ▸ hdiagnosed) (by simp) rfl
    · have hjudge : judge (probed.map (·.2)) = .degraded := by
        have hall : ¬ (probed.map (·.2)).all Probed.isAvailable = true :=
          fun hall => hrefused ((unavailableOf_eq_nil herrors).mpr hall)
        simp only [judge, hany, hall, Bool.false_eq_true, ite_false]
      simp only [hrefused, not_false_eq_true, ite_true]
      exact doctorReport_follows
        mechanism "containment is enforced, but resource limits are not (exit 1)"
        hquiet (hjudge ▸ hdiagnosed) (by simp) rfl
  · have hjudge : judge (probed.map (·.2)) = .error := by
      have hany : (probed.map (·.2)).any Probed.isError = true :=
        Bool.not_eq_false _ ▸ fun hany => herrors (probeErrorsOf_eq_nil.mpr hany)
      simp only [judge, hany, ite_true]
    simp only [herrors, ne_eq, not_false_eq_true, ite_true]
    exact doctorReport_follows
      mechanism "could not determine resource-limit availability (exit 4)"
        hquiet (hjudge ▸ hdiagnosed) (by simp) ((List.getLast?_append_cons _ _ _).trans rfl)

theorem doctorProbed_follows {diagnosis : Diagnosis} {answer : Except Exc Unit} (probed : Probed)
    (hprobes : diagnosis.probes = [(.none, answer)]) (hanswer : classify answer = some probed)
    (hquiet : jsonOutput = true → diagnosis.lines = []) :
    Triple Diagnosis.step diagnosis (doctorProbed dumps jsonOutput probed)
      (Concluded dumps jsonOutput) fun _ _ => True := by
  cases probed with
  | unavailable text =>
    exact doctorReport_follows _ "no containment mechanism in this environment (exit 3)"
        hquiet (hprobes ▸ .noMechanism text hanswer) (by simp) rfl
  | error text =>
    exact doctorReport_follows _ "could not determine containment availability (exit 4)"
        hquiet (hprobes ▸ .unknown text hanswer) (by simp) rfl
  | available =>
    refine .bind (R := fun next _ => next = diagnosis) (.call fun named => ⟨_, rfl, ?_⟩) ?_
    · cases named with
      | ok name => exact rfl
      | error exc => trivial
    · rintro start mechanism rfl
      have hlast (next : Diagnosis) (hsame : next.probes = start.probes)
          (hstill : jsonOutput = true → next.lines = []) :
          Triple Diagnosis.step next (.bind (probeAll doctorLimitProbes)
            (doctorVerdict dumps jsonOutput mechanism)) (Concluded dumps jsonOutput)
            fun _ _ => True := by
        refine .bind (probeAll_follows next doctorLimitProbes) ?_
        rintro _ probed ⟨answers, hlength, hanswers, rfl⟩
        refine doctorVerdict_follows mechanism probed hstill ?_
        have hjudged := Diagnosed.judged hanswer answers (probed.map (·.2))
          (by rw [hanswers, List.map_map]; rfl) hlength
        simpa [hsame, hprobes, Function.comp_def] using hjudged
      cases jsonOutput with
      | true => exact hlast start rfl hquiet
      | false =>
        refine .bind (R := fun next _ => next.probes = start.probes)
          (.call fun emitted => ⟨_, rfl, ?_⟩) fun next _ hsame => hlast next hsame nofun
        cases Emitted.ended emitted with
        | ok value => exact rfl
        | error exc => trivial

theorem doctor_follows (dumps : DoctorPayload → String) (jsonOutput : Bool) :
    Triple Diagnosis.step ⟨[], []⟩ (doctor dumps jsonOutput) (Concluded dumps jsonOutput)
      fun _ _ => True := by
  have hlast (diagnosis : Diagnosis) (hnone : diagnosis.probes = [])
      (hquiet : jsonOutput = true → diagnosis.lines = []) :
      Triple Diagnosis.step diagnosis (.bind (probe .none) (doctorProbed dumps jsonOutput))
        (Concluded dumps jsonOutput) fun _ _ => True := by
    refine .bind (probe_follows diagnosis .none) ?_
    rintro _ probed ⟨answer, hanswer, rfl⟩
    exact doctorProbed_follows probed (by simp [hnone]) hanswer hquiet
  cases jsonOutput with
  | true => exact hlast ⟨[], []⟩ rfl fun _ => rfl
  | false =>
    refine .bind (R := fun next _ => next.probes = []) (.call fun emitted => ⟨_, rfl, ?_⟩) ?_
    · cases Emitted.ended emitted with
      | ok value => exact rfl
      | error exc => trivial
    · intro next _ hnone
      refine .bind (R := fun next _ => next.probes = []) ?_ fun next _ hnone =>
        hlast next hnone nofun
      refine .bind (R := fun next _ => next.probes = []) (.call fun answer => ⟨_, rfl, ?_⟩) ?_
      · cases answer with
        | ok report => exact hnone
        | error exc => trivial
      · intro next report hnone
        refine (emitAll_follows next _).mono ?_ fun _ _ h => h
        rintro _ _ rfl
        exact hnone

/-- Nothing is asked for but groups and reports; a code that is returned is that of a verdict
which is what the probes say and what is written. -/
theorem doctor_diagnoses {dumps : DoctorPayload → String} {jsonOutput : Bool}
    {trace : List (Event Op.Answer)} {result : Except Exc Int}
    (hruns : Runs (doctor dumps jsonOutput) trace result) :
    ∃ diagnosis, trace.foldlM Diagnosis.step ⟨[], []⟩ = some diagnosis ∧
      ∀ code, result = .ok code → Concluded dumps jsonOutput diagnosis code := by
  obtain ⟨diagnosis, hfold, hpost⟩ := doctor_follows dumps jsonOutput trace result hruns
  refine ⟨diagnosis, hfold, ?_⟩
  rintro code rfl
  exact hpost

def uncountedTrace : List (Event Op.Answer) :=
  [⟨.group .none, .ok ()⟩, ⟨.mechanism, .ok "cgroup"⟩,
    ⟨.group ⟨some doctorProbeMaxMemory, none, none⟩, .ok ()⟩,
    ⟨.group ⟨none, some doctorProbeMaxProcesses, none⟩, .error (.process .resourceLimit "pids")⟩,
    ⟨.group ⟨none, none, some doctorProbeCpuQuota⟩, .ok ()⟩,
    ⟨.hostContainment, .ok ⟨"cgroup", "tree", "none", "2.3.1"⟩⟩,
    ⟨.emit .stdout "DEGRADED", .delivered⟩]

theorem uncounted_runs : Runs (doctor (·.verdict) true) uncountedTrace (.ok 1) :=
  .ask (.ask (.ask (.ask (.ask (.ask (.ask .ret))))))

theorem doctor_diagnoses_uncounted :
    ∃ diagnosis, uncountedTrace.foldlM Diagnosis.step ⟨[], []⟩ = some diagnosis ∧
      ∀ code, Except.ok (ε := Exc) (1 : Int) = .ok code →
        Concluded (·.verdict) true diagnosis code :=
  doctor_diagnoses uncounted_runs

end ProcessKit.Cli

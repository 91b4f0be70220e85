import ProcessKit.Cli.RunLaws

/-!
# The contract of `run`

The contract is a machine over what `run` asks for: a group is made, the child is started in
it and watched to its end, the group is left, and only then is anything else written. Every
run of the code is a run of the machine, and what is returned or raised is what the machine's
last stage says.
-/

namespace ProcessKit.Cli

open Effects
open ProcessKit.Command (PathBuf PyCommand)
open ProcessKit.Pickle (PkOutcome)

-- ---------------------------------------------------------------------------
-- The machine
-- ---------------------------------------------------------------------------

inductive Fate
  | refused (exc : Exc)
  | running
  | relaying (lines : List OutputEvent) (raises : Option Exc)
  | over (outcome : PkOutcome)
  | lost (exc : Exc)
  | unleft (exc : Exc)
  | unwritten (exc : Exc)

/-- Before there is a group, what the attempts to make one have raised. -/
inductive Stage
  | outside (denied : List Exc)
  | inside
  | entered (fate : Fate)
  | left (fate : Fate)
  | failed (exc : Exc)

def OutputEvent.stream (event : OutputEvent) : StdStream :=
  if event.isStderr then .stderr else .stdout

def exitCode : PkOutcome → Int
  | .exited code => code.toInt
  | .signalled (some signal) => exitSignalBase + signal.toInt
  | .signalled none => exitInternalError
  | .timedOut => exitTimeout

/-- What the clauses around the group make of an exception. -/
def Exc.caught : Exc → Except Exc Int
  | .keyboardInterrupt => .ok (exitSignalBase + sigint)
  | .process .. => .ok exitInternalError
  | exc => .error exc

section Machine

variable (args : RunArgs)

/-- How a run ends in which this became of the child; `none` is that it cannot end yet. -/
def Fate.result : Fate → Option (Except Exc Int)
  | .refused (.process .processNotFound _) => some (.ok exitNotFound)
  | .refused (.process .permissionDenied _) => some (.ok exitNotExecutable)
  | .refused exc => some exc.caught
  | .running => none
  | .relaying .. => none
  | .over outcome => some (.ok (exitCode outcome))
  | .lost (.process .idleTimeout text) =>
    some (if args.streaming then .ok exitIdleTimeout
      else (Exc.process .idleTimeout text).caught)
  | .lost exc => some exc.caught
  | .unleft exc => some exc.caught
  | .unwritten exc => some (if exc.isOsError then .ok exitInternalError else .error exc)

/-- A line of the wrapper's own: one that it relays, or a diagnostic, which goes to stderr. -/
def Stage.emit (stream : StdStream) (text : String) (ended : Except Exc Unit) :
    Stage → Option Stage
  | .entered (.relaying (event :: lines) raises) =>
    if stream = event.stream ∧ text = event.text then
      match ended with
      | .ok () => some (.entered (.relaying lines raises))
      | .error exc => some (.entered (.lost exc))
    else none
  | .entered fate =>
    if stream = .stderr ∧ (fate.result args).isSome then
      match ended with
      | .ok () => some (.entered fate)
      | .error exc => some (.entered (.lost exc))
    else none
  | .outside [] | .failed _ => none
  | stage =>
    if stream = .stderr then
      match ended with
      | .ok () => some stage
      | .error exc => some (.failed exc)
    else none

/-- The limits of the next group: those asked for, and once more none after these were
refused. -/
def RunArgs.limitsAfter (args : RunArgs) : List Exc → Option Limits
  | [] => some args.limits
  | [exc] => if exc.isRefusal && args.limits.requested then some .none else none
  | _ => none

def Stage.group (limits : Limits) (ended : Except Exc Unit) : Stage → Option Stage
  | .outside denied =>
    if args.limitsAfter denied = some limits then
      match ended with
      | .ok () => some .inside
      | .error exc => some (.outside (denied ++ [exc]))
    else none
  | _ => none

def Fate.watched (ended : Except Exc PkOutcome) : Fate :=
  match ended with
  | .ok outcome => .over outcome
  | .error exc => .lost exc

open scoped Classical in
/-- One event, in a run that is to start this command and no other. -/
noncomputable def Stage.step (command : PyCommand) (stage : Stage) : Event Op.Answer → Option Stage
  | ⟨.emit stream text, emitted⟩ => stage.emit args stream text (Emitted.ended emitted)
  | ⟨.group limits, ended⟩ => stage.group args limits ended
  | ⟨.start started, ended⟩ =>
    match stage, (ended : Except Exc Unit) with
    | .inside, .ok () => if started = command then some (.entered .running) else none
    | .inside, .error exc => if started = command then some (.entered (.refused exc)) else none
    | _, _ => none
  | ⟨.outputEvents, events⟩ =>
    match stage, (events : Except Exc OutputEvents) with
    | .entered .running, .ok events => some (.entered (.relaying events.lines events.raises))
    | .entered .running, .error exc => some (.entered (.lost exc))
    | _, _ => none
  | ⟨.finish, ended⟩ =>
    match stage with
    | .entered (.relaying [] none) => some (.entered (.watched ended))
    | _ => none
  | ⟨.closeLoop, ended⟩ =>
    match stage, (ended : Except Exc Unit) with
    | .entered (.relaying [] (some exc)), .ok () => some (.entered (.lost exc))
    | .entered (.lost exc), .ok () => some (.entered (.lost exc))
    | .entered (.over outcome), .ok () => some (.entered (.over outcome))
    | .entered (.relaying [] (some _)), .error exc
    | .entered (.lost _), .error exc
    | .entered (.over _), .error exc => some (.entered (.lost exc))
    | _, _ => none
  | ⟨.outcome, ended⟩ =>
    match stage with
    | .entered .running => some (.entered (.watched ended))
    | _ => none
  | ⟨.profile _, ended⟩ =>
    match stage with
    | .entered .running =>
      some (.entered (.watched ((ended : Except Exc RunProfile).map RunProfile.outcome)))
    | _ => none
  | ⟨.shutdown, ended⟩ =>
    match stage, (ended : Except Exc Unit) with
    | .entered fate, .ok () => if (fate.result args).isSome then some (.left fate) else none
    | .entered fate, .error exc =>
      if (fate.result args).isSome then some (.left (.unleft exc)) else none
    | _, _ => none
  | ⟨.writeFile path _, ended⟩ =>
    match stage, (ended : Except Exc Unit) with
    | .left (.over outcome), .ok () =>
      if args.profile = some (.file path) then some (.left (.over outcome)) else none
    | .left (.over _), .error exc =>
      if args.profile = some (.file path) then some (.left (.unwritten exc)) else none
    | _, _ => none
  | _ => none

/-- The ends of a run; it never ends in a group, nor where another one is still to be made. -/
def Stage.Ends : Stage → Except Exc Int → Prop
  | .outside denied, result => args.limitsAfter denied = none ∧
    ∃ exc, denied.getLast? = some exc ∧
      result = if exc.isRefusal || exc.isOsError then .ok exitInternalError else .error exc
  | .left fate, result => fate.result args = some result
  | .failed exc, result => result = .error exc
  | .inside, _ | .entered _, _ => False

end Machine

-- ---------------------------------------------------------------------------
-- The parts of a run
-- ---------------------------------------------------------------------------

variable {host : Host} {args : RunArgs} {program : PathBuf} {command : PyCommand}

/-- A value goes on from a settled child, as the exception does that ends the block. -/
def Caught (args : RunArgs) (stage : Stage) (exc : Exc) : Prop :=
  ∃ fate, stage = .entered fate ∧ fate.result args = some exc.caught

def Settled (args : RunArgs) (stage : Stage) : Flow (PkOutcome × Option RunProfile) → Prop
  | .returned code => ∃ fate, stage = .entered fate ∧ fate.result args = some (.ok code)
  | .next (outcome, profile) =>
    stage = .entered (.over outcome) ∧ (profile.isSome → args.profile.isSome)

def Started (args : RunArgs) (stage : Stage) : Option Int → Prop
  | some code => Settled args stage (.returned code)
  | none => stage = .entered .running

attribute [local simp] Stage.step

theorem emitLines_follows (args : RunArgs) (command : PyCommand) (lines : List OutputEvent)
    (raises : Option Exc) :
    Triple (Stage.step args command) (.entered (.relaying lines raises)) (emitLines lines)
      (fun stage _ => stage = .entered (.relaying [] raises))
      (fun stage exc => stage = .entered (.lost exc)) := by
  induction lines with
  | nil => exact .ret rfl
  | cons event lines ih =>
    refine Triple.bind (R := fun stage _ => stage = .entered (.relaying lines raises))
      (.call fun emitted => ?_) fun stage _ h => h ▸ ih
    simp only [Stage.step, Stage.emit, OutputEvent.stream]
    cases Emitted.ended emitted with
    | ok value => exact ⟨_, rfl, rfl⟩
    | error exc => exact ⟨_, rfl, rfl⟩

theorem driveStreaming_follows (args : RunArgs) (command : PyCommand) :
    Triple (Stage.step args command) (.entered .running) driveStreaming
      (fun stage outcome => stage = .entered (.over outcome))
      (fun stage exc => stage = .entered (.lost exc)) := by
  refine Triple.tryFinally (R := fun stage outcome => stage = .entered (.over outcome))
    (F := fun stage exc => stage = .entered (.lost exc) ∨
      stage = .entered (.relaying [] (some exc))) ?_ ?_ ?_
  · refine Triple.bind (R := fun stage (events : OutputEvents) =>
      stage = .entered (.relaying events.lines events.raises)) (.call fun events => ?_) ?_
    · cases events with
      | ok events => exact ⟨_, rfl, rfl⟩
      | error exc => exact ⟨_, rfl, .inl rfl⟩
    · rintro _ events rfl
      refine Triple.bind
        ((emitLines_follows args command _ _).mono (fun _ _ h => h) fun _ _ h => .inl h) ?_
      rintro _ _ rfl
      cases hraises : events.raises with
      | some exc => exact .raise (.inr rfl)
      | none =>
        refine .call fun ended => ?_
        cases ended with
        | ok outcome => exact ⟨_, rfl, rfl⟩
        | error exc => exact ⟨_, rfl, .inl rfl⟩
  · rintro _ outcome rfl
    refine .call fun ended => ?_
    cases ended with
    | ok value => exact ⟨_, rfl, rfl⟩
    | error exc => exact ⟨_, rfl, rfl⟩
  · rintro _ exc (rfl | rfl) <;> refine .call fun ended => ?_
    · cases ended with
      | ok value => exact ⟨_, rfl, rfl⟩
      | error exc' => exact ⟨_, rfl, rfl⟩
    · cases ended with
      | ok value => exact ⟨_, rfl, rfl⟩
      | error exc' => exact ⟨_, rfl, rfl⟩

theorem emitted_caught {emitted : Emitted} (h : Emitted.ended emitted = .error exc) :
    (Fate.lost exc).result args = some exc.caught := by
  unfold Emitted.ended at h
  split at h <;> cases h <;> rfl

theorem fail_settled {fate : Fate} {result : Except Exc Int} (message : String)
    (h : fate.result args = some result) :
    Triple (Stage.step args command) (.entered fate) (Wrapper.fail message)
      (fun stage _ => stage = .entered fate) (Caught args) := by
  refine .call fun emitted => ?_
  have hemit : (Stage.entered fate).emit args .stderr s!"processkit: {message}"
      (Emitted.ended emitted) = match Emitted.ended emitted with
        | .ok () => some (.entered fate)
        | .error exc => some (.entered (.lost exc)) := by
    cases fate with
    | relaying lines raises => cases h
    | running => cases h
    | _ => simp [Stage.emit, h]
  simp only [Stage.step, hemit]
  cases hended : Emitted.ended emitted with
  | ok value => exact ⟨_, rfl, rfl⟩
  | error exc => exact ⟨_, rfl, _, rfl, emitted_caught hended⟩

theorem giveUp_settled {fate : Fate} {code : Int} (message : String)
    (h : fate.result args = some (.ok code)) :
    Triple (Stage.step args command) (.entered fate) (giveUp message code)
      (fun stage answer => stage = .entered fate ∧ answer = some code) (Caught args) :=
  .bind (fail_settled message h) fun _ _ hstage => .ret ⟨hstage, rfl⟩

theorem startChild_follows (host : Host) (args : RunArgs) (program : PathBuf)
    (command : PyCommand) :
    Triple (Stage.step args command) .inside (startChild host program command)
      (Started args) (Caught args) := by
  refine Triple.tryCatch (R := fun stage exc => stage = .entered (.refused exc))
    (.bind (R := fun stage _ => Started args stage none) (.call fun ended => ?_)
      fun _ _ h => .ret h) ?_ ?_
  · cases ended with
    | ok value => exact ⟨.entered .running, by simp, rfl⟩
    | error exc => exact ⟨.entered (.refused exc), by simp, rfl⟩
  · rintro _ exc rfl hnone
    refine ⟨_, rfl, ?_⟩
    cases exc with
    | process cls text => cases cls <;> first | rfl | cases hnone
    | _ => rfl
  · rintro _ exc clause rfl hsome
    have hclause : ∃ message code, clause = giveUp message code ∧
        (Fate.refused exc).result args = some (.ok code) := by
      cases exc with
      | process cls text => cases cls <;> cases hsome <;> exact ⟨_, _, rfl, rfl⟩
      | _ => cases hsome
    obtain ⟨message, code, rfl, hresult⟩ := hclause
    refine (giveUp_settled message hresult).mono ?_ fun _ _ h => h
    rintro _ _ ⟨rfl, rfl⟩
    exact ⟨_, rfl, hresult⟩

theorem watchChild_follows (host : Host) (args : RunArgs) (program : PathBuf)
    (command : PyCommand) :
    Triple (Stage.step args command) (.entered .running) (watchChild host args program)
      (Settled args) (Caught args) := by
  rw [watchChild]
  split
  next hstreaming =>
    refine Triple.tryCatch (R := fun stage exc => stage = .entered (.lost exc))
      (.bind (driveStreaming_follows args command) ?_) ?_ ?_
    · rintro _ outcome rfl
      exact .ret ⟨rfl, nofun⟩
    · rintro _ exc rfl hnone
      refine ⟨_, rfl, ?_⟩
      cases exc with
      | process cls text => cases cls <;> first | rfl | cases hnone
      | _ => rfl
    · rintro _ exc clause rfl hsome
      cases exc with
      | process cls text =>
        cases cls <;> cases hsome
        have hresult : (Fate.lost (.process .idleTimeout text)).result args =
            some (.ok exitIdleTimeout) := by simp [Fate.result, hstreaming]
        refine .bind (fail_settled _ hresult) ?_
        rintro _ _ rfl
        exact .ret ⟨_, rfl, hresult⟩
      | _ => cases hsome
  next hstreaming =>
    have hlost (exc : Exc) : Caught args (.entered (.lost exc)) exc := by
      refine ⟨_, rfl, ?_⟩
      cases exc with
      | process cls text => cases cls <;> simp [Fate.result, hstreaming]
      | _ => rfl
    split
    next hprofile =>
      refine Triple.bind (R := fun stage (profile : RunProfile) =>
        stage = .entered (.over profile.outcome)) (.call fun ended => ?_) ?_
      · cases ended with
        | ok profile => exact ⟨_, rfl, rfl⟩
        | error exc => exact ⟨_, rfl, hlost exc⟩
      · rintro _ profile rfl
        exact .ret ⟨rfl, fun _ => hprofile⟩
    next =>
      refine Triple.bind (R := fun stage outcome => stage = .entered (.over outcome))
        (.call fun ended => ?_) ?_
      · cases ended with
        | ok outcome => exact ⟨_, rfl, rfl⟩
        | error exc => exact ⟨_, rfl, hlost exc⟩
      · rintro _ outcome rfl
        exact .ret ⟨rfl, nofun⟩

theorem driveChild_follows (host : Host) (args : RunArgs) (program : PathBuf)
    (command : PyCommand) :
    Triple (Stage.step args command) .inside (driveChild host args program command)
      (Settled args) (Caught args) := by
  refine Triple.bind (startChild_follows host args program command) fun stage answer h => ?_
  cases answer with
  | some code => exact .ret h
  | none =>
    obtain rfl : stage = .entered .running := h
    exact watchChild_follows host args program command

def Contained (args : RunArgs) (stage : Stage) : Flow (PkOutcome × Option RunProfile) → Prop
  | .returned code => ∃ fate, stage = .left fate ∧ fate.result args = some (.ok code)
  | .next (outcome, profile) =>
    stage = .left (.over outcome) ∧ (profile.isSome → args.profile.isSome)

def Raises (args : RunArgs) (stage : Stage) (exc : Exc) : Prop := stage.Ends args (.error exc)

theorem fail_after {stage : Stage} (message : String)
    (hstage : (∃ fate, stage = .left fate) ∨ stage = .inside ∨
      ∃ exc denied, stage = .outside (exc :: denied)) :
    Triple (Stage.step args command) stage (Wrapper.fail message) (fun stage' _ => stage' = stage)
      (Raises args) := by
  refine .call fun emitted => ?_
  rcases hstage with ⟨fate, rfl⟩ | rfl | ⟨exc, denied, rfl⟩ <;>
    simp only [Stage.step, Stage.emit] <;> cases Emitted.ended emitted with
    | ok value => exact ⟨_, rfl, rfl⟩
    | error exc => exact ⟨_, rfl, rfl⟩

theorem contain_follows (host : Host) (args : RunArgs) (program : PathBuf)
    (command : PyCommand) :
    Triple (Stage.step args command) .inside (contain host args program command)
      (Contained args) (Raises args) := by
  refine Triple.tryCatch
    (R := fun stage exc => ∃ fate, stage = .left fate ∧ fate.result args = some exc.caught)
    (.tryFinally (driveChild_follows host args program command) ?_ ?_) ?_ ?_
  · intro stage flow hsettled
    refine .call fun ended => ?_
    rcases flow with code | ⟨outcome, profile⟩
    · obtain ⟨fate, rfl, hresult⟩ := hsettled
      cases ended with
      | ok value => exact ⟨.left fate, by simp [hresult], fate, rfl, hresult⟩
      | error exc => exact ⟨.left (.unleft exc), by simp [hresult], _, rfl, rfl⟩
    · obtain ⟨rfl, hprofile⟩ := hsettled
      cases ended with
      | ok value => exact ⟨_, rfl, rfl, hprofile⟩
      | error exc => exact ⟨_, rfl, _, rfl, rfl⟩
  · rintro _ exc ⟨fate, rfl, hresult⟩
    refine .call fun ended => ?_
    cases ended with
    | ok value => exact ⟨.left fate, by simp [hresult], fate, rfl, hresult⟩
    | error exc => exact ⟨.left (.unleft exc), by simp [hresult], _, rfl, rfl⟩
  · rintro _ exc ⟨fate, rfl, hresult⟩ hnone
    cases exc <;> first | exact hresult | cases hnone
  · rintro _ exc clause ⟨fate, rfl, hresult⟩ hsome
    cases exc with
    | keyboardInterrupt =>
      cases hsome
      refine .bind (fail_after _ (.inl ⟨fate, rfl⟩)) ?_
      rintro _ _ rfl
      exact .ret ⟨fate, rfl, hresult⟩
    | process cls text =>
      cases hsome
      refine .bind (fail_after _ (.inl ⟨fate, rfl⟩)) ?_
      rintro _ _ rfl
      exact .ret ⟨fate, rfl, hresult⟩
    | _ => cases hsome

def Grouped (args : RunArgs) (stage : Stage) : Option Int → Prop
  | some code => stage.Ends args (.ok code)
  | none => stage = .inside

theorem giveUp_outside {denied : List Exc} {exc : Exc} (message : String)
    (hlast : args.limitsAfter (denied ++ [exc]) = none)
    (h : (exc.isRefusal || exc.isOsError) = true) :
    Triple (Stage.step args command) (.outside (denied ++ [exc])) (giveUp message exitInternalError)
      (Grouped args) (Raises args) := by
  have hsome : ∃ first more, Stage.outside (denied ++ [exc]) = .outside (first :: more) := by
    cases denied with
    | nil => exact ⟨exc, [], rfl⟩
    | cons first denied => exact ⟨first, denied ++ [exc], rfl⟩
  refine .bind (fail_after message (.inr (.inr hsome))) ?_
  rintro _ _ rfl
  exact .ret ⟨hlast, exc, by simp, by simp [h]⟩

theorem group_follows {denied : List Exc} {limits : Limits}
    (h : args.limitsAfter denied = some limits) :
    Triple (Stage.step args command) (.outside denied)
      (.bind (Wrapper.group limits) fun _ => .ret none) (Grouped args)
      (fun stage exc => stage = .outside (denied ++ [exc])) := by
  refine .bind (R := fun stage _ => Grouped args stage none) (.call fun ended => ?_)
    fun _ _ hstage => .ret hstage
  simp only [Stage.step, Stage.group, if_pos h]
  cases ended with
  | ok value => exact ⟨_, rfl, rfl⟩
  | error exc => exact ⟨_, rfl, rfl⟩

theorem raises_outside {denied : List Exc} {exc : Exc}
    (h : (exc.isRefusal || exc.isOsError) = false) :
    Raises args (.outside (denied ++ [exc])) exc := by
  refine ⟨?_, exc, by simp, by simp [h]⟩
  obtain ⟨hrefusal, -⟩ := Bool.or_eq_false_iff.mp h
  rcases denied with _ | ⟨first, _ | ⟨second, more⟩⟩ <;> simp [RunArgs.limitsAfter, hrefusal]

theorem fallbackGroup_follows {exc : Exc} (hexc : exc.isRefusal = true)
    (hlimits : args.limits.requested = true) :
    Triple (Stage.step args command) (.outside [exc]) fallbackGroup
      (Grouped args) (Raises args) := by
  refine .tryCatch (group_follows (by simp [RunArgs.limitsAfter, hexc, hlimits])) ?_ ?_
  · rintro _ exc2 rfl hnone
    refine raises_outside ?_
    cases hrefusal : exc2.isRefusal <;> cases hos : exc2.isOsError <;>
      simp [hrefusal, hos] at hnone ⊢
  · rintro _ exc2 clause rfl hsome
    split at hsome
    next hrefusal =>
      cases hsome
      exact giveUp_outside _ rfl (by simp [hrefusal])
    next =>
      split at hsome
      next hos =>
        cases hsome
        exact giveUp_outside _ rfl (by simp [hos])
      next => cases hsome

theorem uncapped_follows {exc : Exc} (hexc : exc.isRefusal = true)
    (hlimits : args.limits.requested = true) :
    Triple (Stage.step args command) (.outside [exc]) (uncapped exc)
      (Grouped args) (Raises args) := by
  refine .bind (fallbackGroup_follows hexc hlimits) fun stage answer h => ?_
  cases answer with
  | some code => exact .ret h
  | none =>
    obtain rfl : stage = .inside := h
    refine .bind (fail_after _ (.inr (.inl rfl))) ?_
    rintro _ _ rfl
    exact .ret rfl

theorem makeGroup_follows (args : RunArgs) (command : PyCommand) :
    Triple (Stage.step args command) (.outside []) (makeGroup args) (Grouped args)
      (Raises args) := by
  refine .tryCatch (group_follows rfl) ?_ ?_
  · rintro _ exc rfl hnone
    refine raises_outside ?_
    cases hrefusal : exc.isRefusal <;> cases hos : exc.isOsError <;> simp [hrefusal, hos] at hnone ⊢
  · rintro _ exc clause rfl hsome
    split at hsome
    next hrefusal =>
      cases hsome
      split
      next hlimits => exact uncapped_follows hrefusal hlimits
      next hlimits =>
        exact giveUp_outside _ (by simp [RunArgs.limitsAfter, hlimits]) (by simp [hrefusal])
    next hrefusal =>
      split at hsome
      next hos =>
        cases hsome
        exact giveUp_outside _ (by simp [RunArgs.limitsAfter, hrefusal]) (by simp [hos])
      next => cases hsome

-- ---------------------------------------------------------------------------
-- The whole run
-- ---------------------------------------------------------------------------

def Profiled (args : RunArgs) (outcome : PkOutcome) (stage : Stage) : Option Int → Prop
  | some code => stage.Ends args (.ok code)
  | none => stage = .left (.over outcome)

theorem emitProfile_follows (host : Host) {outcome : PkOutcome} (profile : RunProfile)
    (hprofile : args.profile.isSome) :
    Triple (Stage.step args command) (.left (.over outcome)) (emitProfile host args profile)
      (Profiled args outcome) (Raises args) := by
  obtain ⟨target, htarget⟩ := Option.isSome_iff_exists.mp hprofile
  rw [emitProfile, htarget]
  cases target with
  | stderr =>
    refine .bind (R := fun stage _ => Profiled args outcome stage none) (.call fun emitted => ?_)
      fun _ _ h => .ret h
    simp only [Stage.step, Stage.emit]
    cases Emitted.ended emitted with
    | ok value => exact ⟨_, rfl, rfl⟩
    | error exc => exact ⟨_, rfl, rfl⟩
  | file path =>
    refine .tryCatch (R := fun stage exc => stage = .left (.unwritten exc))
      (.bind (R := fun stage _ => Profiled args outcome stage none) (.call fun ended => ?_)
        fun _ _ h => .ret h) ?_ ?_
    · cases ended with
      | ok value => exact ⟨.left (.over outcome), by simp [htarget], rfl⟩
      | error exc => exact ⟨.left (.unwritten exc), by simp [htarget], rfl⟩
    · rintro _ exc rfl hnone
      cases hos : exc.isOsError <;> simp [hos] at hnone
      simp [Raises, Stage.Ends, Fate.result, hos]
    · rintro _ exc clause rfl hsome
      cases hos : exc.isOsError <;> simp [hos] at hsome
      subst hsome
      refine .bind (fail_after _ (.inl ⟨_, rfl⟩)) ?_
      rintro _ _ rfl
      exact .ret (by simp [Profiled, Stage.Ends, Fate.result, hos])

theorem report_follows (host : Host) (args : RunArgs) (program : PathBuf) (command : PyCommand)
    (outcome : PkOutcome) :
    Triple (Stage.step args command) (.left (.over outcome)) (report host args program outcome)
      (fun stage code => stage.Ends args (.ok code)) (Raises args) := by
  have hdiagnosed (message : String) (code : Int) (hcode : exitCode outcome = code) :
      Triple (Stage.step args command) (.left (.over outcome))
        ((Wrapper.fail message).bind fun _ => .ret code)
        (fun stage code => stage.Ends args (.ok code)) (Raises args) := by
    refine .bind (fail_after message (.inl ⟨_, rfl⟩)) ?_
    rintro _ _ rfl
    exact .ret (by simp [Stage.Ends, Fate.result, hcode])
  cases outcome with
  | exited code => exact .ret rfl
  | signalled signal =>
    cases signal with
    | none => exact hdiagnosed _ _ rfl
    | some signal => exact hdiagnosed _ _ rfl
  | timedOut => exact hdiagnosed _ _ rfl

/-- Every run of a command that is built is a run of the contract. -/
theorem launch_follows (host : Host) (args : RunArgs) (program : PathBuf) (command : PyCommand) :
    Triple (Stage.step args command) (.outside []) (launch host args program command)
      (fun stage code => stage.Ends args (.ok code)) (Raises args) := by
  refine .bind (makeGroup_follows args command) fun stage answer hgroup => ?_
  cases answer with
  | some code => exact .ret hgroup
  | none =>
    obtain rfl : stage = .inside := hgroup
    refine .bind (contain_follows host args program command) fun stage flow hcontained => ?_
    rcases flow with code | ⟨outcome, profile⟩
    · obtain ⟨fate, rfl, hresult⟩ := hcontained
      exact .ret hresult
    · obtain ⟨rfl, hprofile⟩ := hcontained
      cases profile with
      | none => exact report_follows host args program command outcome
      | some profile =>
        refine .bind (emitProfile_follows host profile (hprofile rfl))
          fun stage failed hfailed => ?_
        cases failed with
        | some code => exact .ret hfailed
        | none =>
          obtain rfl : stage = .left (.over outcome) := hfailed
          exact report_follows host args program command outcome

-- ---------------------------------------------------------------------------
-- The shape of a run
-- ---------------------------------------------------------------------------

def Op.prepares : Op → Prop
  | .group _ | .emit .stderr _ => True
  | _ => False

def Op.watches : Op → Prop
  | .emit .. | .outputEvents | .finish | .closeLoop | .outcome | .profile _ => True
  | _ => False

def Op.reports : Op → Prop
  | .emit .stderr _ | .writeFile .. => True
  | _ => False

def Stage.childless : Stage → Prop
  | .outside _ | .inside | .failed _ => True
  | .entered _ | .left _ => False

section Shape

variable {stage next : Stage} {fate : Fate} {event : Event Op.Answer}
  {trace : List (Event Op.Answer)}

theorem foldlM_cons_eq_some {σ τ : Type} {f : σ → τ → Option σ} {s s' : σ} {x : τ} {xs : List τ} :
    (x :: xs).foldlM f s = some s' ↔ ∃ mid, f s x = some mid ∧ xs.foldlM f mid = some s' := by
  simp [Option.bind_eq_some_iff]

theorem emit_entered {ended : Except Exc Unit}
    (h : (Stage.entered fate).emit args stream text ended = some next) :
    ∃ fate', next = .entered fate' := by
  unfold Stage.emit at h
  split at h
  next =>
    split at h
    · cases ended <;> exact ⟨_, (Option.some.inj h).symm⟩
    · cases h
  next =>
    split at h
    · cases ended <;> exact ⟨_, (Option.some.inj h).symm⟩
    · cases h
  all_goals simp_all

theorem step_entered (h : (Stage.entered fate).step args command event = some next) :
    (event.1.watches ∧ ∃ fate', next = .entered fate') ∨
      ∃ down fate', event = ⟨.shutdown, down⟩ ∧ next = .left fate' := by
  obtain ⟨op, answer⟩ := event
  cases op with
  | shutdown =>
    refine .inr ⟨answer, ?_⟩
    simp only [Stage.step] at h
    cases answer <;> simp only [Option.ite_none_right_eq_some, Option.some.injEq] at h
    · exact ⟨_, rfl, h.2.symm⟩
    · exact ⟨_, rfl, h.2.symm⟩
  | emit stream text => exact .inl ⟨trivial, emit_entered h⟩
  | outputEvents | finish | closeLoop | outcome | profile =>
    refine .inl ⟨trivial, ?_⟩
    simp only [Stage.step] at h
    split at h <;> cases h <;> exact ⟨_, rfl⟩
  | _ => simp [Stage.group] at h

theorem step_left (h : (Stage.left fate).step args command event = some next) :
    event.1.reports ∧ ((∃ fate', next = .left fate') ∨ ∃ exc, next = .failed exc) := by
  obtain ⟨op, answer⟩ := event
  cases op with
  | emit stream text =>
    simp only [Stage.step, Stage.emit] at h
    split at h
    next hstream =>
      subst hstream
      refine ⟨trivial, ?_⟩
      split at h <;> cases h
      · exact .inl ⟨_, rfl⟩
      · exact .inr ⟨_, rfl⟩
    next => cases h
  | writeFile path text =>
    refine ⟨trivial, .inl ?_⟩
    simp only [Stage.step] at h
    split at h
    · simp only [Option.ite_none_right_eq_some, Option.some.injEq] at h
      exact ⟨_, h.2.symm⟩
    · simp only [Option.ite_none_right_eq_some, Option.some.injEq] at h
      exact ⟨_, h.2.symm⟩
    · cases h
  | _ => simp [Stage.group] at h

theorem step_childless (hstage : stage.childless)
    (h : stage.step args command event = some next) :
    (event.1.prepares ∧ next.childless ∧
        (next = .inside → stage = .inside ∨ ∃ limits, event = ⟨.group limits, .ok ()⟩)) ∨
      stage = .inside ∧ (∃ ended, event = ⟨.start command, ended⟩) ∧
        ∃ fate, next = .entered fate := by
  obtain ⟨op, answer⟩ := event
  cases op with
  | start started =>
    simp only [Stage.step] at h
    split at h
    · simp only [Option.ite_none_right_eq_some, Option.some.injEq] at h
      obtain ⟨rfl, rfl⟩ := h
      exact .inr ⟨rfl, ⟨_, rfl⟩, _, rfl⟩
    · simp only [Option.ite_none_right_eq_some, Option.some.injEq] at h
      obtain ⟨rfl, rfl⟩ := h
      exact .inr ⟨rfl, ⟨_, rfl⟩, _, rfl⟩
    · cases h
  | group limits =>
    refine .inl ⟨trivial, ?_⟩
    simp only [Stage.step, Stage.group] at h
    split at h
    · split at h
      · split at h <;> cases h
        · exact ⟨trivial, fun _ => .inr ⟨limits, rfl⟩⟩
        · exact ⟨trivial, nofun⟩
      · cases h
    · cases h
  | emit stream text =>
    simp only [Stage.step, Stage.emit] at h
    split at h <;> try cases hstage
    · cases h
    · cases h
    · split at h
      next hstream =>
        subst hstream
        refine .inl ⟨trivial, ?_⟩
        split at h <;> cases h
        · exact ⟨hstage, .inl⟩
        · exact ⟨trivial, nofun⟩
      next => cases h
  | _ =>
    cases stage with
    | entered fate => cases hstage
    | left fate => cases hstage
    | _ => simp at h

theorem step_failed {exc : Exc} : (Stage.failed exc).step args command event = none := by
  obtain ⟨op, answer⟩ := event
  cases op <;> rfl

theorem step_start {other : PyCommand} {ended : Except Exc Unit}
    (h : stage.step args command ⟨.start other, ended⟩ = some next) :
    stage = .inside ∧ other = command ∧ ∃ fate, next = .entered fate := by
  simp only [Stage.step] at h
  split at h
  · simp only [Option.ite_none_right_eq_some, Option.some.injEq] at h
    exact ⟨rfl, h.1, _, h.2.symm⟩
  · simp only [Option.ite_none_right_eq_some, Option.some.injEq] at h
    exact ⟨rfl, h.1, _, h.2.symm⟩
  · cases h

/-- After the child, there is no way back into a group. -/
theorem fold_past (hstage : ¬ stage.childless ∨ ∃ exc, stage = .failed exc)
    (h : trace.foldlM (Stage.step args command) stage = some next) : next ≠ .inside := by
  induction trace generalizing stage with
  | nil =>
    cases h
    rintro rfl
    rcases hstage with hstage | ⟨exc, hstage⟩
    · exact hstage trivial
    · cases hstage
  | cons event trace ih =>
    obtain ⟨mid, hmid, hrest⟩ := foldlM_cons_eq_some.mp h
    refine ih ?_ hrest
    cases stage with
    | outside denied => simp [Stage.childless] at hstage
    | inside => simp [Stage.childless] at hstage
    | entered fate =>
      rcases step_entered hmid with ⟨-, fate', rfl⟩ | ⟨down, fate', -, rfl⟩
      · exact .inl id
      · exact .inl id
    | left fate =>
      rcases (step_left hmid).2 with ⟨fate', rfl⟩ | ⟨exc, rfl⟩
      · exact .inl id
      · exact .inr ⟨exc, rfl⟩
    | failed exc =>
      rw [step_failed] at hmid
      cases hmid

/-- Up to the start there is no child, and the group is made. -/
theorem fold_inside (hstage : stage.childless)
    (h : trace.foldlM (Stage.step args command) stage = some .inside) :
    (∀ event ∈ trace, event.1.prepares) ∧
      (stage = .inside ∨ ∃ limits, ⟨.group limits, .ok ()⟩ ∈ trace) := by
  induction trace generalizing stage with
  | nil =>
    cases h
    exact ⟨List.forall_mem_nil _, .inl rfl⟩
  | cons event trace ih =>
    obtain ⟨mid, hmid, hrest⟩ := foldlM_cons_eq_some.mp h
    rcases step_childless hstage hmid with ⟨hprepares, hmidless, hinside⟩ | ⟨-, -, fate, rfl⟩
    · obtain ⟨hall, hgroup⟩ := ih hmidless hrest
      refine ⟨by simpa using ⟨hprepares, hall⟩, ?_⟩
      rcases hgroup with heq | ⟨limits, hmem⟩
      · rcases hinside heq with hstage | ⟨limits, rfl⟩
        · exact .inl hstage
        · exact .inr ⟨limits, by simp⟩
      · exact .inr ⟨limits, by simp [hmem]⟩
    · exact absurd rfl (fold_past (.inl id) hrest)

/-- Once the group is left, there is nothing but reports. -/
theorem fold_left (h : trace.foldlM (Stage.step args command) (.left fate) = some next) :
    ∀ event ∈ trace, event.1.reports := by
  induction trace generalizing fate with
  | nil => exact List.forall_mem_nil _
  | cons event trace ih =>
    obtain ⟨mid, hmid, hrest⟩ := foldlM_cons_eq_some.mp h
    obtain ⟨hreports, ⟨fate', rfl⟩ | ⟨exc, rfl⟩⟩ := step_left hmid
    · simpa using ⟨hreports, ih hrest⟩
    · cases trace with
      | nil => simpa using hreports
      | cons other trace =>
        obtain ⟨mid, hmid, -⟩ := foldlM_cons_eq_some.mp hrest
        rw [step_failed] at hmid
        cases hmid

/-- The child is watched until the group is left. -/
theorem fold_entered (h : trace.foldlM (Stage.step args command) (.entered fate) = some next)
    (hends : next.Ends args result) :
    ∃ watched down reported, trace = watched ++ ⟨.shutdown, down⟩ :: reported ∧
      (∀ event ∈ watched, event.1.watches) ∧ ∀ event ∈ reported, event.1.reports := by
  induction trace generalizing fate with
  | nil =>
    cases h
    cases hends
  | cons event trace ih =>
    obtain ⟨mid, hmid, hrest⟩ := foldlM_cons_eq_some.mp h
    rcases step_entered hmid with ⟨hwatches, fate', rfl⟩ | ⟨down, fate', rfl, rfl⟩
    · obtain ⟨watched, down, reported, rfl, hwatched, hreported⟩ := ih hrest
      exact ⟨event :: watched, down, reported, rfl, by simpa using ⟨hwatches, hwatched⟩, hreported⟩
    · exact ⟨[], down, trace, rfl, List.forall_mem_nil _, fold_left hrest⟩

end Shape

-- ---------------------------------------------------------------------------
-- All runs
-- ---------------------------------------------------------------------------

inductive Outcomes (host : Host) (args : RunArgs) (program : PathBuf) (rest : List PathBuf) :
    List (Event Op.Answer) → Except Exc Int → Prop
  /-- The options contradict each other, or the environment is not one. -/
  | usage (message : String)
    (h : args.firstError = some message ∨ args.Accepted ∧ ∃ err,
      parseEnvironment args.envFile args.env = .error err ∧
        message = err.text host.reprStr host.describe) :
    Outcomes host args program rest [⟨.usage .run message, ()⟩] (.error (.systemExit (.int 2)))
  /-- An argument of the builder is none. -/
  | unbuilt (pairs : List Pair) (err : Runtime.PyErr) (h : args.Accepted)
    (hpairs : parseEnvironment args.envFile args.env = .ok pairs)
    (hbuild : buildCommand host args pairs program rest = .error (.argument err)) :
    Outcomes host args program rest [] (.error (.ofErr err))
  /-- The command is what was asked for, and the contract is kept. -/
  | kept (pairs : List Pair) (command : PyCommand) (stage : Stage) (h : args.Accepted)
    (hpairs : parseEnvironment args.envFile args.env = .ok pairs)
    (hasked : Asked host args pairs program rest command)
    (hfold : trace.foldlM (Stage.step args command) (.outside []) = some stage)
    (hends : stage.Ends args result) :
    Outcomes host args program rest trace result

theorem launch_ends (hruns : Runs (launch host args program command) trace result) :
    ∃ stage, trace.foldlM (Stage.step args command) (.outside []) = some stage ∧
      stage.Ends args result := by
  obtain ⟨stage, hfold, hpost⟩ := launch_follows host args program command trace result hruns
  refine ⟨stage, hfold, ?_⟩
  cases result with
  | ok code => exact hpost
  | error exc => exact hpost

theorem run_cases (hruns : Runs (run host args program rest) trace result) :
    (∃ message, trace = [⟨.usage .run message, ()⟩] ∧ result = .error (.systemExit (.int 2)) ∧
      (args.firstError = some message ∨ args.Accepted ∧ ∃ err,
        parseEnvironment args.envFile args.env = .error err ∧
          message = err.text host.reprStr host.describe)) ∨
    args.Accepted ∧ ∃ pairs, parseEnvironment args.envFile args.env = .ok pairs ∧
      ((∃ raised, buildCommand host args pairs program rest = .error raised ∧ trace = [] ∧
        result = .error (.ofErr raised.toErr)) ∨
      ∃ command, buildCommand host args pairs program rest = .ok command ∧
        Runs (launch host args program command) trace result) := by
  rw [run] at hruns
  split at hruns
  next message herror =>
    obtain ⟨⟨⟩, rfl, rfl⟩ := runs_call.mp hruns
    exact .inl ⟨message, rfl, rfl, .inl herror⟩
  next haccepted =>
    split at hruns
    next err hparse =>
      obtain ⟨⟨⟩, rfl, rfl⟩ := runs_call.mp hruns
      exact .inl ⟨_, rfl, rfl, .inr ⟨haccepted, err, hparse, rfl⟩⟩
    next pairs hparse =>
      refine .inr ⟨haccepted, pairs, hparse, ?_⟩
      split at hruns
      next raised hbuild =>
        obtain ⟨rfl, rfl⟩ := runs_raise.mp hruns
        exact .inl ⟨raised, hbuild, rfl, rfl⟩
      next command hbuild => exact .inr ⟨command, hbuild, hruns⟩

/-- A run that starts something keeps the contract. -/
theorem run_kept {started : Except Exc Unit} {before after : List (Event Op.Answer)}
    (hruns : Runs (run host args program rest) trace result)
    (hstart : trace = before ++ ⟨.start command, started⟩ :: after) :
    ∃ command stage, trace.foldlM (Stage.step args command) (.outside []) = some stage ∧
      stage.Ends args result := by
  rcases run_cases hruns with ⟨message, rfl, -⟩ | ⟨-, pairs, -, ⟨raised, -, rfl, -⟩ |
    ⟨command, -, hlaunch⟩⟩
  · cases before <;> simp at hstart
  · cases before <;> cases hstart
  · exact ⟨command, launch_ends hlaunch⟩

/-- Conversions that know of thirty seconds only, and of the objects of CPython's own. -/
def plainHost : Host where
  convert := Command.thirtySeconds
  repr path := "'" ++ path ++ "'"
  reprStr _ := ""
  describe _ := ""
  strFloat _ := "30.0"
  surrogates _ := "surrogates not allowed"
  osPath _ := default
  usize _ := .error ⟨"OverflowError", "int too big to convert"⟩
  sameKey key other := key == other
  stream _ := default
  dumps _ := "\x7b\x7d"

def idlePty : RunArgs where
  timeout := none
  timeoutGrace := none
  idleTimeout := some 0x403E000000000000
  limits := .none
  envClear := false
  inheritEnv := []
  env := []
  envFile := []
  cwd := none
  profile := none
  createNoWindow := false
  outputLimit := none
  sanitizeVt := false
  stdoutFile := none
  stderrFile := none
  killOnParentDeath := false
  priority := none
  ioPriority := none
  cpuAffinity := none
  pty := true
  ptyCols := none
  ptyRows := none

def idleCommand : PyCommand :=
  ⟨⟨"job", [.setting (.args []), .usePty]⟩, some 30000000000, true, 0⟩

def idleTrace : List (Event Op.Answer) :=
  [⟨.group .none, .ok ()⟩,
   ⟨.start idleCommand, .ok ()⟩,
   ⟨.outputEvents, .ok ⟨[⟨false, "hello"⟩], some (.process .idleTimeout "")⟩⟩,
   ⟨.emit .stdout "hello", .delivered⟩,
   ⟨.closeLoop, .ok ()⟩,
   ⟨.emit .stderr "processkit: 'job' was idle for 30.0s (no output line)", .gone⟩,
   ⟨.shutdown, .ok ()⟩]

theorem idle_runs : Runs (run plainHost idlePty "job" []) idleTrace (.ok 123) :=
  .ask (.ask (.ask (.ask (.ask (.ask (.ask .ret))))))

end ProcessKit.Cli

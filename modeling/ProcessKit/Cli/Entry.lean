import ProcessKit.Cli.Doctor
import ProcessKit.Cli.SuperviseContract

/-!
# The command line as a whole

`main` cuts the arguments at the first `--`, has its own half parsed, and runs a subcommand on
the other. Under any answers of the world its run ends in a `SystemExit`, which carries the code
of the subcommand, or 119 where a line was lost on the way. The interpreter then flushes the
streams that it still finds in `sys`, and exits with 120 instead when one of them fails again.
-/

namespace ProcessKit.Cli

open Effects
open Python (PyStr lit)
open ProcessKit.Command (PathBuf PyCommand)
open ProcessKit.Pickle (PkOutcome)

-- ---------------------------------------------------------------------------
-- main
-- ---------------------------------------------------------------------------

def separator : PyStr := lit "--"

def splitChildArgv (argv : List PyStr) : List PyStr × List PyStr :=
  match argv.idxOf? separator with
  | none => (argv, [])
  | some index => (argv.take index, argv.drop (index + 1))

/-- What `argparse` makes of the wrapper's own arguments. -/
inductive Parsed
  | doctor (json : Bool)
  | supervise (args : SuperviseArgs)
  | run (args : RunArgs)

/-- The world behind `main`: the `SystemExit` of `argparse`, or what it has parsed. -/
structure Entry where
  host : Host
  python : UrlHost
  dumps : DoctorPayload → String
  parse : List PyStr → Except Int Parsed

def main (entry : Entry) (argv : List PyStr) : Wrapper Int :=
  let (ownArgv, childArgv) := splitChildArgv argv
  match entry.parse ownArgv, childArgv.map entry.host.osPath with
  | .error code, _ => .raise (.systemExit (.int code))
  | .ok (.doctor json), [] => doctor entry.dumps json
  | .ok (.doctor _), _ :: _ =>
    Wrapper.usage .doctor "doctor: does not take a trailing command (no '--' needed)"
  | .ok (.supervise args), program :: rest => supervise entry.host args entry.python program rest
  | .ok (.supervise _), [] =>
    Wrapper.usage .supervise "supervise: missing command to execute after '--'"
  | .ok (.run args), program :: rest => run entry.host args program rest
  | .ok (.run _), [] => Wrapper.usage .run "run: missing command to execute after '--'"

-- ---------------------------------------------------------------------------
-- Lost lines get out
-- ---------------------------------------------------------------------------

/-- The message of a line that was lost; what the group or the loop raises on the way out takes
its place. -/
def lostWatch : Option String → Event Op.Answer → Option (Option String)
  | _, ⟨.emit .., .lost message⟩ => some (some message)
  | _, ⟨.shutdown, .error _⟩ | _, ⟨.closeLoop, .error _⟩ => some none
  | lost, _ => some lost

def Op.isEmit : Op → Bool
  | .emit .. => true
  | _ => false

def Loud (p : Wrapper α) : Prop :=
  Triple lostWatch none p (fun lost _ => lost = none)
    fun lost exc => ∀ message, lost = some message → exc = .outputWrite message

namespace Loud

variable {p : Wrapper α}

theorem ret {value : α} : Loud (.ret value) := Triple.ret rfl

theorem raise {exc : Exc} : Loud (.raise exc : Wrapper α) := Triple.raise nofun

theorem liftExcept {ended : Except Exc α} : Loud (.liftExcept ended) := by
  cases ended with
  | ok value => exact ret
  | error exc => exact raise

theorem emit (stream : StdStream) (text : String) : Loud (Wrapper.emit stream text) := by
  refine Triple.call fun emitted => ?_
  cases emitted with
  | lost message => exact ⟨_, rfl, fun _ h => congrArg Exc.outputWrite (Option.some.inj h)⟩
  | delivered => exact ⟨none, rfl, rfl⟩
  | gone => exact ⟨none, rfl, rfl⟩
  | escaped reply =>
    refine ⟨none, rfl, ?_⟩
    cases hended : Emitted.ended (.escaped reply) with
    | ok value => exact rfl
    | error exc => exact nofun

theorem call {op : Op} {ended : Op.Answer op → Except Exc α} (h : op.isEmit = false) :
    Loud (.call op ended) := by
  refine Triple.call fun answer => ⟨none, ?_, ?_⟩
  · cases op with
    | emit stream text => cases h
    | shutdown => cases answer <;> rfl
    | closeLoop => cases answer <;> rfl
    | _ => rfl
  · cases ended answer with
    | ok value => exact rfl
    | error exc => exact nofun

theorem hasStream (stream : StdStream) :
    Loud (Prog.perform (Op.hasStream stream) : Wrapper Bool) :=
  Triple.perform fun _ => ⟨none, rfl, rfl⟩

theorem bind {f : α → Wrapper β} (h : Loud p) (hf : ∀ value, Loud (f value)) : Loud (p.bind f) := by
  refine Triple.bind h ?_
  rintro _ value rfl
  exact hf value

theorem tryCatch {handler : Exc → Option (Wrapper α)} (h : Loud p)
    (hnone : ∀ message, handler (.outputWrite message) = none)
    (hclause : ∀ exc clause, handler exc = some clause → Loud clause) :
    Loud (p.tryCatch handler) := by
  refine Triple.tryCatch h (fun _ _ hlost _ => hlost) fun lost exc clause hlost hsome => ?_
  cases lost with
  | none => exact hclause exc clause hsome
  | some message =>
    rw [hlost message rfl, hnone] at hsome
    cases hsome

/-- A last part that replaces what was on the way when it raises. -/
theorem tryFinally {op : Op} {ended : Op.Answer op → Except Exc Unit} (h : Loud p)
    (hlast : ∀ lost answer, ∃ next, lostWatch lost ⟨op, answer⟩ = some next ∧
      (next = lost ∧ ended answer = .ok () ∨ next = none ∧ ∃ exc, ended answer = .error exc)) :
    Loud (p.tryFinally (.call op ended)) := by
  refine Triple.tryFinally h ?_ ?_
  · rintro _ value rfl
    refine Triple.call fun answer => ?_
    obtain ⟨next, hnext, ⟨rfl, hok⟩ | ⟨rfl, exc, herror⟩⟩ := hlast none answer
    · exact ⟨none, hnext, by simp [hok, Post]⟩
    · exact ⟨none, hnext, by simp [herror, Post]⟩
  · intro lost exc hlost
    refine Triple.call fun answer => ?_
    obtain ⟨next, hnext, ⟨rfl, hok⟩ | ⟨rfl, exc', herror⟩⟩ := hlast lost answer
    · exact ⟨next, hnext, by simpa [hok, Post] using hlost⟩
    · exact ⟨none, hnext, by simp [herror, Post]⟩

end Loud

section Subcommands

variable {host : Host}

theorem loud_giveUp (message : String) (code : Int) : Loud (giveUp message code) :=
  (Loud.emit _ _).bind fun _ => .ret

theorem loud_group (limits : Limits) :
    Loud (.bind (Wrapper.group limits) fun _ => .ret none : Wrapper (Option Int)) :=
  .bind (.call rfl) fun _ => .ret

theorem loud_makeGroup (args : RunArgs) : Loud (makeGroup args) := by
  have hfallback : Loud fallbackGroup := by
    refine .tryCatch (loud_group _) (fun _ => rfl) fun exc clause hclause => ?_
    split at hclause
    · cases hclause
      exact loud_giveUp _ _
    · split at hclause <;> cases hclause
      exact loud_giveUp _ _
  refine .tryCatch (loud_group _) (fun _ => rfl) fun exc clause hclause => ?_
  split at hclause
  · cases hclause
    split
    · refine .bind hfallback fun answer => ?_
      cases answer with
      | some code => exact .ret
      | none => exact .bind (.emit _ _) fun _ => .ret
    · exact loud_giveUp _ _
  · split at hclause <;> cases hclause
    exact loud_giveUp _ _

theorem loud_emitLines (lines : List OutputEvent) : Loud (emitLines lines) := by
  induction lines with
  | nil => exact .ret
  | cons event lines ih => exact .bind (.emit _ _) fun _ => ih

theorem loud_watchChild (args : RunArgs) (program : PathBuf) :
    Loud (watchChild host args program) := by
  rw [watchChild]
  split
  · refine .tryCatch (.bind (.tryFinally (.bind (.call rfl) fun events => ?_) ?_) fun _ => .ret)
      (fun _ => rfl) fun exc clause hclause => ?_
    · refine .bind (loud_emitLines _) fun _ => ?_
      cases events.raises with
      | some exc => exact .raise
      | none => exact .call rfl
    · rintro lost (exc | value)
      · exact ⟨none, rfl, .inr ⟨rfl, exc, rfl⟩⟩
      · exact ⟨lost, rfl, .inl ⟨rfl, rfl⟩⟩
    · split at hclause <;> cases hclause
      exact .bind (.emit _ _) fun _ => .ret
  · split
    · exact .bind (.call rfl) fun _ => .ret
    · exact .bind (.call rfl) fun _ => .ret

theorem loud_contain (args : RunArgs) (program : PathBuf) (command : PyCommand) :
    Loud (contain host args program command) := by
  have hstart : Loud (startChild host program command) := by
    refine .tryCatch (.bind (.call rfl) fun _ => .ret) (fun _ => rfl) fun exc clause hclause => ?_
    split at hclause <;> cases hclause <;> exact loud_giveUp _ _
  refine .tryCatch (.tryFinally (.bind hstart fun answer => ?_) ?_) (fun _ => rfl)
    fun exc clause hclause => ?_
  · cases answer with
    | some code => exact .ret
    | none => exact loud_watchChild args program
  · rintro lost (exc | value)
    · exact ⟨none, rfl, .inr ⟨rfl, exc, rfl⟩⟩
    · exact ⟨lost, rfl, .inl ⟨rfl, rfl⟩⟩
  · split at hclause <;> cases hclause <;> exact .bind (.emit _ _) fun _ => .ret

theorem loud_report (args : RunArgs) (program : PathBuf) (outcome : PkOutcome) :
    Loud (report host args program outcome) := by
  rw [report]
  split
  · exact .bind (.emit _ _) fun _ => .ret
  · split
    · exact .bind (.emit _ _) fun _ => .ret
    · split
      · exact .bind (.emit _ _) fun _ => .ret
      · exact .ret

theorem loud_emitProfile (args : RunArgs) (profile : RunProfile) :
    Loud (emitProfile host args profile) := by
  rw [emitProfile]
  split
  · exact .bind (.emit _ _) fun _ => .ret
  · exact .bind (.emit _ _) fun _ => .ret
  · refine .tryCatch (.bind (.call rfl) fun _ => .ret) (fun _ => rfl) fun exc clause hclause => ?_
    split at hclause <;> cases hclause
    exact loud_giveUp _ _

theorem loud_run (args : RunArgs) (program : PathBuf) (rest : List PathBuf) :
    Loud (run host args program rest) := by
  rw [run]
  split
  · exact .call rfl
  · split
    · exact .call rfl
    · split
      · exact .raise
      · refine .bind (loud_makeGroup args) fun answer => ?_
        cases answer with
        | some code => exact .ret
        | none =>
          refine .bind (loud_contain args program _) fun flow => ?_
          rcases flow with code | ⟨outcome, profile⟩
          · exact .ret
          · cases profile with
            | none => exact loud_report args program outcome
            | some profile =>
              refine .bind (loud_emitProfile args profile) fun failed => ?_
              cases failed with
              | some code => exact .ret
              | none => exact loud_report args program outcome

theorem loud_configure (args : SuperviseArgs) (pairs : List Pair) (program : PathBuf)
    (rest : List PathBuf) : Loud (configure host args pairs program rest) := by
  have hteed (stream : StdStream) (command : PyCommand) : Loud (teed host stream command) := by
    refine .bind (.hasStream stream) fun present => ?_
    cases present with
    | false => exact .ret
    | true =>
      -- Everything is suppressed here, and nothing is emitted.
      refine .bind (Triple.tryCatch (R := fun lost _ => lost = none)
        (.call fun answer => ⟨none, by cases answer <;> rfl, ?_⟩) ?_ ?_) fun _ => .liftExcept
      · cases answer <;> exact rfl
      · rintro _ exc rfl -
        exact nofun
      · rintro _ exc clause rfl hclause
        split at hclause <;> cases hclause
        exact .ret rfl
  exact .bind .liftExcept fun _ => .bind (hteed _ _) fun _ => .bind (hteed _ _) fun _ =>
    .bind .liftExcept fun _ => .liftExcept

theorem loud_supervise (args : SuperviseArgs) (python : UrlHost) (program : PathBuf)
    (rest : List PathBuf) : Loud (supervise host args python program rest) := by
  rw [supervise]
  split
  · exact .call rfl
  · refine .bind (.tryCatch (.bind (.bind (loud_configure args _ program rest) fun command => ?_)
      fun _ => .ret) (fun _ => rfl) fun exc clause hclause => ?_) fun flow => ?_
    · refine .tryCatch (.call rfl) (fun _ => rfl) fun exc clause hclause => ?_
      split at hclause <;> cases hclause
      split
      · exact .bind (.emit _ _) fun _ => .call rfl
      · exact .raise
    · split at hclause <;> cases hclause <;> exact .bind (.emit _ _) fun _ => .ret
    · cases flow with
      | returned code => exact .ret
      | next outcome =>
        simp only [superviseReport]
        split
        · split
          · exact .bind (.emit _ _) fun _ => .ret
          · split
            · exact .bind (.emit _ _) fun _ => .ret
            · split
              · exact .bind (.emit _ _) fun _ => .ret
              · exact .ret
        · split
          · exact .ret
          · split
            · exact .ret
            · exact .bind (.emit _ _) fun _ => .ret

theorem loud_emitAll (texts : List String) : Loud (emitAll texts) := by
  induction texts with
  | nil => exact .ret
  | cons text texts ih => exact .bind (.emit _ _) fun _ => ih

theorem loud_probe (limits : Limits) : Loud (probe limits) := by
  refine .tryCatch (.bind (.call rfl) fun _ => .ret) (fun _ => rfl) fun exc clause hclause => ?_
  split at hclause
  · cases hclause
    exact .ret
  · split at hclause <;> cases hclause
    exact .ret

theorem loud_doctorReport (dumps : DoctorPayload → String) (jsonOutput : Bool) (mechanism : String)
    (verdict : Verdict) (limits : List Bool) (failures : Option (List String))
    (lines : List String) :
    Loud (doctorReport dumps jsonOutput mechanism verdict limits failures lines) := by
  rw [doctorReport]
  cases jsonOutput with
  | true => exact .bind (.bind (.call rfl) fun _ => .emit _ _) fun _ => .ret
  | false => exact .bind (loud_emitAll _) fun _ => .ret

theorem loud_doctor (dumps : DoctorPayload → String) (jsonOutput : Bool) :
    Loud (doctor dumps jsonOutput) := by
  have hprobes (probes : List (String × Limits)) : Loud (probeAll probes) := by
    induction probes with
    | nil => exact .ret
    | cons first probes ih => exact .bind (loud_probe _) fun _ => .bind ih fun _ => .ret
  have hverdict (mechanism : String) (probed : List (String × Probed)) :
      Loud (doctorVerdict dumps jsonOutput mechanism probed) := by
    simp only [doctorVerdict]
    split
    · exact loud_doctorReport _ _ _ _ _ _ _
    · split <;> exact loud_doctorReport _ _ _ _ _ _ _
  have hprobed (probed : Probed) : Loud (doctorProbed dumps jsonOutput probed) := by
    cases probed with
    | unavailable text => exact loud_doctorReport _ _ _ _ _ _ _
    | error text => exact loud_doctorReport _ _ _ _ _ _ _
    | available =>
      refine .bind (.call rfl) fun mechanism => ?_
      cases jsonOutput with
      | true => exact .bind (hprobes _) fun _ => hverdict _ _
      | false => exact .bind (.emit _ _) fun _ => .bind (hprobes _) fun _ => hverdict _ _
  cases jsonOutput with
  | true => exact .bind (loud_probe _) hprobed
  | false =>
    exact .bind (.emit _ _) fun _ => .bind (.bind (.call rfl) fun _ => loud_emitAll _) fun _ =>
      .bind (loud_probe _) hprobed

theorem loud_main (entry : Entry) (argv : List PyStr) : Loud (main entry argv) := by
  rw [main]
  split
  split
  · exact .raise
  · exact loud_doctor _ _
  · exact .call rfl
  · exact loud_supervise _ _ _ _
  · exact .call rfl
  · exact loud_run _ _ _
  · exact .call rfl

end Subcommands

-- ---------------------------------------------------------------------------
-- The process
-- ---------------------------------------------------------------------------

def endedAs : Except Exc Int → Outcome
  | .ok code => .returned (.int code)
  | .error exc => exc.outcome

/-- A program as the exit sees it, when the world answers so. Its own lines are up to the
streams. -/
def toMain (oracle : List (Event Op.Answer) → (op : Op) → Op.Answer op)
    (past : List (Event Op.Answer)) : Wrapper Int → Main
  | .ret code => .ended (endedAs (.ok code))
  | .raise exc => .ended (endedAs (.error exc))
  | .ask (.emit stream text) next => .emit stream text fun emitted =>
    toMain oracle (past ++ [⟨.emit stream text, emitted⟩]) (next emitted)
  | .ask op next => toMain oracle (past ++ [⟨op, oracle past op⟩]) (next (oracle past op))

def LostLine (event : Event Op.Answer) : Prop :=
  ∃ stream text message, event = ⟨.emit stream text, .lost message⟩

/-- What takes the place of whatever was on the way out. -/
def Masks (event : Event Op.Answer) : Prop :=
  (∃ exc, event = ⟨.shutdown, .error exc⟩) ∨ ∃ exc, event = ⟨.closeLoop, .error exc⟩

/-- What the streams see of a run of the program. -/
theorem run_toMain (b : Behaviour) (oracle : List (Event Op.Answer) → (op : Op) → Op.Answer op)
    (p : Wrapper Int) (past : List (Event Op.Answer)) (c : Console) :
    ∃ trace result calls, Runs p trace result ∧
      ((toMain oracle past p).run b c).1 = endedAs result ∧
      Goes c ((toMain oracle past p).run b c).2 calls ∧ (∀ call ∈ calls, call.caller = .emit) ∧
      ((∃ call ∈ calls, call.LosesLine) → ∃ event ∈ trace, LostLine event) := by
  induction p generalizing past c with
  | ret code => exact ⟨[], .ok code, [], .ret, rfl, .refl c, by simp, by simp⟩
  | raise exc => exact ⟨[], .error exc, [], .raise, rfl, .refl c, by simp, by simp⟩
  | ask op next ih =>
    cases op with
    | emit stream text =>
      obtain ⟨calls, hemit, hcallers, hlost⟩ := emit_goes b stream text c
      obtain ⟨trace, result, calls', hruns, hend, hgoes, hcallers', hlost'⟩ :=
        ih (Cli.emit b stream text c).1 _ (Cli.emit b stream text c).2
      refine ⟨_, result, calls ++ calls', .ask hruns, hend, hemit.trans hgoes, ?_, ?_⟩
      · intro call hmem
        rcases List.mem_append.mp hmem with hmem | hmem
        · exact hcallers call hmem
        · exact hcallers' call hmem
      · rintro ⟨call, hmem, hloses⟩
        rcases List.mem_append.mp hmem with hmem | hmem
        · obtain ⟨message, hmessage⟩ := hlost ⟨call, hmem, hloses⟩
          exact ⟨_, List.mem_cons_self .., stream, text, message, by rw [hmessage]⟩
        · obtain ⟨event, hevent, hline⟩ := hlost' ⟨call, hmem, hloses⟩
          exact ⟨event, List.mem_cons_of_mem _ hevent, hline⟩
    | _ =>
      obtain ⟨trace, result, calls, hruns, hend, hgoes, hcallers, hlost⟩ :=
        ih (oracle past _) (past ++ [⟨_, oracle past _⟩]) c
      refine ⟨_, result, calls, .ask hruns, hend, hgoes, hcallers, fun hloses => ?_⟩
      obtain ⟨event, hevent, hline⟩ := hlost hloses
      exact ⟨event, List.mem_cons_of_mem _ hevent, hline⟩

/-- All that the command line can come to. -/
inductive Runnings (entry : Entry) (argv : List PyStr) :
    List (Event Op.Answer) → Except Exc Int → Prop
  | parser (code : Int) (h : entry.parse (splitChildArgv argv).1 = .error code) :
    Runnings entry argv [] (.error (.systemExit (.int code)))
  | usage (subcommand : Subcommand) (message : String) :
    Runnings entry argv [⟨.usage subcommand message, ()⟩] (.error (.systemExit (.int 2)))
  | doctor (json : Bool)
    (h : entry.parse (splitChildArgv argv).1 = .ok (.doctor json))
    (hruns : Runs (Cli.doctor entry.dumps json) trace result) :
    Runnings entry argv trace result
  | supervise (args : SuperviseArgs) (program : PathBuf) (rest : List PathBuf)
    (h : entry.parse (splitChildArgv argv).1 = .ok (.supervise args))
    (hchild : (splitChildArgv argv).2.map entry.host.osPath = program :: rest)
    (hruns : Runs (Cli.supervise entry.host args entry.python program rest) trace result) :
    Runnings entry argv trace result
  | run (args : RunArgs) (program : PathBuf) (rest : List PathBuf)
    (h : entry.parse (splitChildArgv argv).1 = .ok (.run args))
    (hchild : (splitChildArgv argv).2.map entry.host.osPath = program :: rest)
    (hruns : Runs (Cli.run entry.host args program rest) trace result) :
    Runnings entry argv trace result

theorem runnings_of_runs {entry : Entry} {argv : List PyStr} {trace : List (Event Op.Answer)}
    {result : Except Exc Int} (hruns : Runs (main entry argv) trace result) :
    Runnings entry argv trace result := by
  rw [main] at hruns
  split at hruns
  next own child hsplit =>
    have hown : (splitChildArgv argv).1 = own := by rw [hsplit]
    have hchild : (splitChildArgv argv).2 = child := by rw [hsplit]
    split at hruns
    next code hparse =>
      obtain ⟨rfl, rfl⟩ := runs_raise.mp hruns
      exact .parser code (hown ▸ hparse)
    next json hparse hnone =>
      exact .doctor json (hown ▸ hparse) hruns
    next =>
      obtain ⟨⟨⟩, rfl, rfl⟩ := runs_call.mp hruns
      exact .usage ..
    next args program rest hparse hargv =>
      exact .supervise args program rest (hown ▸ hparse) (hchild ▸ hargv) hruns
    next =>
      obtain ⟨⟨⟩, rfl, rfl⟩ := runs_call.mp hruns
      exact .usage ..
    next args program rest hparse hargv =>
      exact .run args program rest (hown ▸ hparse) (hchild ▸ hargv) hruns
    next =>
      obtain ⟨⟨⟩, rfl, rfl⟩ := runs_call.mp hruns
      exact .usage ..

theorem lostWatch_kept {lost : Option String} {trace : List (Event Op.Answer)}
    (hmask : ∀ event ∈ trace, ¬ Masks event)
    (hlost : lost.isSome ∨ ∃ event ∈ trace, LostLine event)
    (hfold : trace.foldlM lostWatch lost = some last) : last.isSome := by
  induction trace generalizing lost with
  | nil =>
    cases hfold
    rcases hlost with hlost | ⟨event, hmem, -⟩
    · exact hlost
    · cases hmem
  | cons event trace ih =>
    obtain ⟨next, hnext, hrest⟩ := foldlM_cons_eq_some.mp hfold
    refine ih (fun event hmem => hmask event (List.mem_cons_of_mem _ hmem)) ?_ hrest
    by_cases hline : LostLine event
    · obtain ⟨stream, text, message, rfl⟩ := hline
      cases hnext
      exact .inl rfl
    · rcases hlost with hlost | ⟨other, hmem, hother⟩
      · have hsame : next = lost := by
          unfold lostWatch at hnext
          split at hnext
          · exact absurd ⟨_, _, _, rfl⟩ hline
          · exact absurd (.inl ⟨_, rfl⟩) (hmask _ (List.mem_cons_self ..))
          · exact absurd (.inr ⟨_, rfl⟩) (hmask _ (List.mem_cons_self ..))
          · exact (Option.some.inj hnext).symm
        exact .inl (hsame ▸ hlost)
      · rcases List.mem_cons.mp hmem with rfl | hmem
        · exact absurd hother hline
        · exact .inr ⟨other, hmem, hother⟩

def exitFlushFailed : Int := 120

/-- `flush_std_files` of the interpreter: a stream that is not in `sys` any more, or is closed,
is passed over. -/
def Console.flushes (b : Behaviour) (closed : StdStream → Bool) (c : Console)
    (stream : StdStream) : Bool :=
  !c.attached stream || closed stream || b stream (c.calls stream) = .ok

/-- The exit of the interpreter with the status of a `SystemExit`. -/
def finalize (b : Behaviour) (closed : StdStream → Bool) (exit : Int × Console) : Int :=
  if exit.2.flushes b closed .stdout && exit.2.flushes b closed .stderr then exit.1
  else exitFlushFailed

/-- The exit of a process, for a run of the command line. `SystemExit` carries what the run came
to unless output is lost, and then 119, if nothing was raised on the way out that took the place
of a lost line. The process exits with that, and with 120 where the interpreter cannot flush a
stream that the wrapper has left to it. -/
structure ProcessExit (b : Behaviour) (closed : StdStream → Bool) (trace : List (Event Op.Answer))
    (result : Except Exc Int) (raised : Int) (c : Console) (status : Int) : Prop where
  one : raised = exitOutputLost ∨ raised = truncateStatus (endedAs result).status
  kept : (∀ call ∈ c.log, ¬ call.LosesRest) → ¬ (endedAs result).Unprintable →
    raised = truncateStatus (endedAs result).status
  lost : (∃ call ∈ c.log, call.LosesLine) → (∀ event ∈ trace, ¬ Masks event) →
    raised = exitOutputLost
  rest : (∃ call ∈ c.log, call.LosesRest) → raised = exitOutputLost
  detached : ∀ call ∈ c.log, call.Detaches → c.attached call.stream = false
  flushed : (∀ stream, c.attached stream = true → closed stream = false →
    b stream (c.calls stream) = .ok) → status = raised
  unflushed : ∀ stream, c.attached stream = true → closed stream = false →
    b stream (c.calls stream) ≠ .ok → status = exitFlushFailed

theorem finalize_flushed {b : Behaviour} {closed : StdStream → Bool} {exit : Int × Console}
    (h : ∀ stream, exit.2.attached stream = true → closed stream = false →
      b stream (exit.2.calls stream) = .ok) : finalize b closed exit = exit.1 := by
  have hflushes (stream : StdStream) : exit.2.flushes b closed stream = true := by
    have hstream := h stream
    cases hattached : exit.2.attached stream <;> cases hclosed : closed stream <;>
      simp_all [Console.flushes]
  simp [finalize, hflushes]

theorem finalize_unflushed {b : Behaviour} {closed : StdStream → Bool} {exit : Int × Console}
    {stream : StdStream} (hattached : exit.2.attached stream = true)
    (hclosed : closed stream = false) (hfails : b stream (exit.2.calls stream) ≠ .ok) :
    finalize b closed exit = exitFlushFailed := by
  have hflushes : exit.2.flushes b closed stream = false := by
    simp [Console.flushes, hattached, hclosed, hfails]
  cases stream <;> simp [finalize, hflushes]

end ProcessKit.Cli

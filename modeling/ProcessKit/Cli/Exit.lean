import Mathlib.Data.Int.ModEq
import Mathlib.Logic.Function.Basic

/-!
# How the command line exits

`main` writes its own lines through `_emit`, and ends in one way or another.
`main_and_exit` makes a status of that, flushes the standard streams, and raises
`SystemExit`. What a stream does when it is called is up to the stream, each time anew.

A stream that `_emit` or the last flush has failed on is detached from `sys`, so that
the interpreter, which flushes the streams that it still finds there, does not try again.
-/

namespace ProcessKit.Cli

-- ---------------------------------------------------------------------------
-- The standard streams
-- ---------------------------------------------------------------------------

inductive StdStream
  | stdout
  | stderr
  deriving DecidableEq

def StdStream.name : StdStream → String
  | .stdout => "stdout"
  | .stderr => "stderr"

/-- What a call on a stream raises, or the lookup of the method. `text` is the `repr`,
`epipe` says that `errno` is `EPIPE`; `base` is no `Exception`. -/
inductive Failure
  | brokenPipe (text : String)
  | osError (epipe : Bool) (text : String)
  | valueError (text : String)
  | exception (text : String)
  | base
  deriving DecidableEq

/-- `missing` is an `AttributeError` of the lookup. -/
inductive Reply
  | ok
  | missing
  | failed (failure : Failure)
  deriving DecidableEq

inductive Caller
  | emit
  | diagnostic
  | finalFlush
  deriving DecidableEq

inductive Operation
  | write (text : String)
  | flush
  deriving DecidableEq

structure Call where
  caller : Caller
  stream : StdStream
  operation : Operation
  reply : Reply
  deriving DecidableEq

/-- What the streams do, call by call. -/
abbrev Behaviour := StdStream → Nat → Reply

/-- `sys`: which of the streams is not `None`, and what has been called on them. -/
structure Console where
  attached : StdStream → Bool
  calls : StdStream → Nat
  log : List Call

namespace Console

def new (attached : StdStream → Bool) : Console := ⟨attached, fun _ => 0, []⟩

def call (b : Behaviour) (c : Console) (caller : Caller) (stream : StdStream)
    (operation : Operation) : Reply × Console :=
  let reply := b stream (c.calls stream)
  (reply,
    { c with
      calls := Function.update c.calls stream (c.calls stream + 1)
      log := c.log ++ [⟨caller, stream, operation, reply⟩] })

def detach (c : Console) (stream : StdStream) : Console :=
  { c with attached := Function.update c.attached stream false }

end Console

-- ---------------------------------------------------------------------------
-- Lines of the wrapper's own
-- ---------------------------------------------------------------------------

/-- How a call of `_emit` ends: it returns true or false, or raises an `OutputWriteError`
or what the stream has raised. -/
inductive Emitted
  | delivered
  | gone
  | lost (message : String)
  | escaped (reply : Reply)
  deriving DecidableEq

def Operation.verb : Operation → String
  | .write _ => "write"
  | .flush => "flush"

def excepted (stream : StdStream) (operation : Operation) (c : Console) :
    Reply → Option Emitted × Console
  | .ok => (none, c)
  | .failed (.brokenPipe _) | .failed (.osError true _) => (some .gone, c.detach stream)
  | .failed (.osError false text) | .failed (.valueError text) =>
    (some (.lost s!"could not {operation.verb} {stream.name}: {text}"), c.detach stream)
  | .missing => (some (.escaped .missing), c)
  | .failed failure => (some (.escaped (.failed failure)), c)

def attempt (b : Behaviour) (stream : StdStream) (operation : Operation) (c : Console) :
    Option Emitted × Console :=
  let (reply, c) := c.call b .emit stream operation
  excepted stream operation c reply

def emit (b : Behaviour) (stream : StdStream) (text : String) (c : Console) : Emitted × Console :=
  if c.attached stream then
    match attempt b stream (.write (text ++ "\n")) c with
    | (some emitted, c) => (emitted, c)
    | (none, c) =>
      match attempt b stream .flush c with
      | (some emitted, c) => (emitted, c)
      | (none, c) => (.delivered, c)
  else (.gone, c)

-- ---------------------------------------------------------------------------
-- main
-- ---------------------------------------------------------------------------

/-- What `str` does to a value: it may raise, and what it raises may be no `Exception`. -/
inductive Stringified
  | text (text : String)
  | raises
  | raisesBase
  deriving DecidableEq

/-- What `main` returns, or a `SystemExit` carries. -/
inductive ExitCode
  | none
  | int (code : Int)
  | other (typeName : String) (str : Stringified)
  deriving DecidableEq

inductive Outcome
  | returned (code : ExitCode)
  | systemExit (code : ExitCode)
  | outputWriteError (message : String)
  | keyboardInterrupt
  | raised (traceback : String)
  deriving DecidableEq

/-- `main`, by what it emits: it goes on with how that ended. -/
inductive Main
  | ended (outcome : Outcome)
  | emit (stream : StdStream) (text : String) (next : Emitted → Main)

def Main.run (b : Behaviour) : Main → Console → Outcome × Console
  | .ended outcome, c => (outcome, c)
  | .emit stream text next, c =>
    let (emitted, c) := Cli.emit b stream text c
    (next emitted).run b c

/-- An `OutputWriteError` is not caught. -/
def Main.LetsThrough : Main → Prop
  | .ended _ => True
  | .emit _ _ next => (∀ message, next (.lost message) = .ended (.outputWriteError message)) ∧
      ∀ emitted, (next emitted).LetsThrough

-- ---------------------------------------------------------------------------
-- The exit
-- ---------------------------------------------------------------------------

def exitOutputLost : Int := 119
def exitSignalBase : Int := 128
def sigint : Int := 2

def writeStderr (b : Behaviour) (text : String) (c : Console) : Console :=
  if c.attached .stderr then
    match c.call b .diagnostic .stderr (.write text) with
    | (.ok, c) => (c.call b .diagnostic .stderr .flush).2
    | (.missing, c) | (.failed _, c) => c
  else c

def Failure.text : Failure → String
  | .brokenPipe text | .osError _ text | .valueError text | .exception text => text
  | .base => ""

/-- The `except` clauses of `_flush_std_streams`. An error is a `BaseException` that
leaves it. -/
def flushExcepted (stream : StdStream) (problem : Option String) (c : Console) :
    Reply → Except Unit (Option String) × Console
  | .ok | .missing => (.ok problem, c)
  | .failed (.brokenPipe _) => (.ok problem, c.detach stream)
  | .failed .base => (.error (), c)
  | .failed failure =>
    (.ok (problem.or (some s!"could not flush {stream.name}: {failure.text}")), c.detach stream)

def flushStdStream (b : Behaviour) (stream : StdStream) (problem : Option String) (c : Console) :
    Except Unit (Option String) × Console :=
  if c.attached stream then
    let (reply, c) := c.call b .finalFlush stream .flush
    flushExcepted stream problem c reply
  else (.ok problem, c)

def flushStdStreams (b : Behaviour) (c : Console) : Except Unit (Option String) × Console :=
  match flushStdStream b .stdout none c with
  | (.ok problem, c) => flushStdStream b .stderr problem c
  | (.error (), c) => (.error (), c)

/-- `_render`; `none` is what it lets through. -/
def render (typeName : String) : Stringified → Option String
  | .text text => some text
  | .raises => some s!"<unprintable {typeName} exit value>"
  | .raisesBase => none

def truncateStatus (status : Int) : Int :=
  if -2 ^ 31 ≤ status ∧ status < 2 ^ 31 then status
  else ((status % 2 ^ 32).toNat ^^^ 0x80000000 : Nat) - 0x80000000

def flushAndExit (b : Behaviour) (status : Int) (c : Console) : Int × Console :=
  match flushStdStreams b c with
  | (.ok none, c) => (truncateStatus status, c)
  | (.ok (some problem), c) =>
    (truncateStatus exitOutputLost, writeStderr b s!"processkit: {problem}\n" c)
  | (.error (), c) => (truncateStatus exitOutputLost, c)

/-- `_exit_now`: the status that `SystemExit` is raised with. -/
def exitNow (b : Behaviour) (code : ExitCode) (c : Console) : Int × Console :=
  match code with
  | .none => flushAndExit b 0 c
  | .int status => flushAndExit b status c
  | .other typeName str =>
    match render typeName str with
    | some text => flushAndExit b 1 (writeStderr b s!"{text}\n" c)
    | none => (truncateStatus exitOutputLost, c)

def mainAndExit (b : Behaviour) (main : Main) (c : Console) : Int × Console :=
  match main.run b c with
  | (.returned code, c) | (.systemExit code, c) => exitNow b code c
  | (.outputWriteError message, c) =>
    exitNow b (.int exitOutputLost) (writeStderr b s!"processkit: {message}\n" c)
  | (.keyboardInterrupt, c) =>
    exitNow b (.int (exitSignalBase + sigint)) (writeStderr b "processkit: interrupted\n" c)
  | (.raised traceback, c) => exitNow b (.int 1) (writeStderr b traceback c)

-- ---------------------------------------------------------------------------
-- What the status means
-- ---------------------------------------------------------------------------

def ExitCode.status : ExitCode → Int
  | .none => 0
  | .int status => status
  | .other .. => 1

def Outcome.status : Outcome → Int
  | .returned code | .systemExit code => code.status
  | .outputWriteError _ => exitOutputLost
  | .keyboardInterrupt => exitSignalBase + sigint
  | .raised _ => 1

/-- The value is to be printed, and `_render` does not return. -/
def ExitCode.Unprintable : ExitCode → Prop
  | .other _ .raisesBase => True
  | .none | .int _ | .other .. => False

def Outcome.Unprintable : Outcome → Prop
  | .returned code | .systemExit code => code.Unprintable
  | .outputWriteError _ | .keyboardInterrupt | .raised _ => False

/-- A line of the wrapper's own is lost, and the receiver is not gone. -/
def Call.LosesLine (call : Call) : Prop :=
  call.caller = .emit ∧
    ((∃ text, call.reply = .failed (.osError false text)) ∨
      ∃ text, call.reply = .failed (.valueError text))

/-- The last flush fails, and the receiver is not gone. -/
def Call.LosesRest (call : Call) : Prop :=
  call.caller = .finalFlush ∧
    ∃ failure, call.reply = .failed failure ∧ ∀ text, failure ≠ .brokenPipe text

/-- The failures after which a stream is to be detached. -/
def Call.Detaches (call : Call) : Prop :=
  match call.caller, call.reply with
  | .emit, .failed (.brokenPipe _) | .emit, .failed (.osError ..)
  | .emit, .failed (.valueError _) => True
  | .finalFlush, .failed failure => failure ≠ .base
  | _, _ => False

structure Exits (main : Main) (outcome : Outcome) (status : Int) (c : Console) : Prop where
  inRange : -2 ^ 31 ≤ status ∧ status < 2 ^ 31
  restLost : (∃ call ∈ c.log, call.LosesRest) ∨ outcome.Unprintable → status = exitOutputLost
  lineLost : main.LetsThrough → (∃ call ∈ c.log, call.LosesLine) → status = exitOutputLost
  kept : (∀ call ∈ c.log, ¬ call.LosesRest) → ¬ outcome.Unprintable →
    status ≡ outcome.status [ZMOD 2 ^ 32]
  detached : ∀ call ∈ c.log, call.Detaches → c.attached call.stream = false

-- ---------------------------------------------------------------------------
-- The status is truncated
-- ---------------------------------------------------------------------------

theorem xor_signBit (n : Nat) (h : n < 2 ^ 32) :
    n ^^^ 0x80000000 = if n < 2 ^ 31 then n + 2 ^ 31 else n - 2 ^ 31 := by
  have hlow : (n ^^^ 2 ^ 31) % 2 ^ 31 = n % 2 ^ 31 := by
    rw [Nat.xor_mod_two_pow, Nat.mod_self, Nat.xor_zero]
  have hhigh : (n ^^^ 2 ^ 31) / 2 ^ 31 = (n / 2 ^ 31) ^^^ 1 := by
    rw [Nat.xor_div_two_pow, Nat.div_self (by decide)]
  have hsplit := Nat.div_add_mod (n ^^^ 2 ^ 31) (2 ^ 31)
  rw [hlow, hhigh] at hsplit
  change n ^^^ 2 ^ 31 = _
  split
  next hsmall =>
    have hzero : n / 2 ^ 31 = 0 := Nat.div_eq_of_lt hsmall
    rw [hzero, Nat.zero_xor, Nat.mod_eq_of_lt hsmall] at hsplit
    omega
  next hlarge =>
    have hone : n / 2 ^ 31 = 1 := by omega
    rw [hone, Nat.xor_self] at hsplit
    omega

theorem truncateStatus_inRange (status : Int) :
    -2 ^ 31 ≤ truncateStatus status ∧ truncateStatus status < 2 ^ 31 := by
  unfold truncateStatus
  split
  next hin => exact hin
  next =>
    have hbound : (status % 2 ^ 32).toNat < 2 ^ 32 := by omega
    rw [xor_signBit _ hbound]
    split
    · omega
    · omega

theorem truncateStatus_congr (status : Int) : truncateStatus status ≡ status [ZMOD 2 ^ 32] := by
  unfold truncateStatus
  split
  next => exact Int.ModEq.refl status
  next =>
    have hbound : (status % 2 ^ 32).toNat < 2 ^ 32 := by omega
    rw [xor_signBit _ hbound, Int.ModEq]
    split
    · omega
    · omega

theorem truncateStatus_lost : truncateStatus exitOutputLost = exitOutputLost := by decide

-- ---------------------------------------------------------------------------
-- Calls and detachments
-- ---------------------------------------------------------------------------

/-- Whatever has failed so is detached. -/
def Console.Sound (c : Console) : Prop :=
  ∀ call ∈ c.log, call.Detaches → c.attached call.stream = false

/-- From one state of `sys` to another, with the calls in between. -/
structure Goes (c c' : Console) (calls : List Call) : Prop where
  log : c'.log = c.log ++ calls
  sound : c.Sound → c'.Sound

section

variable {b : Behaviour} {c c' c'' : Console} {calls calls' : List Call}

theorem Goes.refl (c : Console) : Goes c c [] := ⟨(List.append_nil _).symm, id⟩

theorem Goes.trans (h : Goes c c' calls) (h' : Goes c' c'' calls') :
    Goes c c'' (calls ++ calls') := by
  refine ⟨?_, fun hsound => h'.sound (h.sound hsound)⟩
  rw [h'.log, h.log, List.append_assoc]

variable (b c) (caller : Caller) (stream : StdStream) (operation : Operation)

theorem Goes.call {reply : Reply} (hreply : b stream (c.calls stream) = reply)
    (hstays : ¬ (Call.mk caller stream operation reply).Detaches) :
    Goes c (c.call b caller stream operation).2 [⟨caller, stream, operation, reply⟩] := by
  subst hreply
  refine ⟨rfl, fun hsound call hmem hdetaches => ?_⟩
  rcases List.mem_append.mp hmem with hmem | hmem
  · exact hsound call hmem hdetaches
  · obtain rfl := List.mem_singleton.mp hmem
    exact absurd hdetaches hstays

theorem Goes.call_detach {reply : Reply} (hreply : b stream (c.calls stream) = reply) :
    Goes c ((c.call b caller stream operation).2.detach stream)
      [⟨caller, stream, operation, reply⟩] := by
  subst hreply
  refine ⟨rfl, fun hsound call hmem hdetaches => ?_⟩
  by_cases hsame : call.stream = stream
  · rw [hsame]
    exact Function.update_self ..
  · have hother : ((c.call b caller stream operation).2.detach stream).attached call.stream =
        c.attached call.stream := Function.update_of_ne hsame ..
    rw [hother]
    rcases List.mem_append.mp hmem with hmem | hmem
    · exact hsound call hmem hdetaches
    · obtain rfl := List.mem_singleton.mp hmem
      exact absurd rfl hsame

end

-- ---------------------------------------------------------------------------
-- What each part does
-- ---------------------------------------------------------------------------

theorem attempt_goes (b : Behaviour) (stream : StdStream) (operation : Operation) (c : Console) :
    ∃ call, Goes c (attempt b stream operation c).2 [call] ∧ call.caller = .emit ∧
      (call.LosesLine → ∃ message, (attempt b stream operation c).1 = some (.lost message)) := by
  obtain ⟨reply, hreply⟩ : ∃ reply, b stream (c.calls stream) = reply := ⟨_, rfl⟩
  have heq : attempt b stream operation c =
      excepted stream operation (c.call b .emit stream operation).2 reply := by
    rw [← hreply]
    rfl
  rw [heq]
  refine ⟨⟨.emit, stream, operation, reply⟩, ?_, rfl, ?_⟩
  · cases reply with
    | ok | missing => exact .call b c .emit stream operation hreply id
    | failed failure =>
      cases failure with
      | osError epipe text =>
        cases epipe with
        | true | false => exact .call_detach b c .emit stream operation hreply
      | brokenPipe | valueError => exact .call_detach b c .emit stream operation hreply
      | exception | base => exact .call b c .emit stream operation hreply id
  · rintro ⟨-, ⟨text, hlost⟩ | ⟨text, hlost⟩⟩
    · simp only at hlost
      rw [hlost]
      exact ⟨_, rfl⟩
    · simp only at hlost
      rw [hlost]
      exact ⟨_, rfl⟩

theorem emit_goes (b : Behaviour) (stream : StdStream) (text : String) (c : Console) :
    ∃ calls, Goes c (emit b stream text c).2 calls ∧ (∀ call ∈ calls, call.caller = .emit) ∧
      ((∃ call ∈ calls, call.LosesLine) → ∃ message, (emit b stream text c).1 = .lost message) := by
  unfold emit
  split
  next =>
    obtain ⟨call, hwrite, hcaller, hlost⟩ := attempt_goes b stream (.write (text ++ "\n")) c
    split
    next emitted c' heq =>
      rw [heq] at hwrite hlost
      refine ⟨[call], hwrite, by simpa using hcaller, ?_⟩
      rintro ⟨other, hmem, hloses⟩
      obtain rfl := List.mem_singleton.mp hmem
      obtain ⟨message, hmessage⟩ := hlost hloses
      exact ⟨message, Option.some.inj hmessage⟩
    next c' heq =>
      rw [heq] at hwrite hlost
      obtain ⟨call', hflush, hcaller', hlost'⟩ := attempt_goes b stream .flush c'
      have hcallers : ∀ other ∈ [call] ++ [call'], other.caller = .emit := by
        simp [hcaller, hcaller']
      -- the line is not lost in the write, or there would be no flush
      have hlast : (∃ other ∈ [call] ++ [call'], other.LosesLine) → call'.LosesLine := by
        rintro ⟨other, hmem, hloses⟩
        rcases List.mem_append.mp hmem with hmem | hmem
        · obtain rfl := List.mem_singleton.mp hmem
          obtain ⟨message, hmessage⟩ := hlost hloses
          cases hmessage
        · obtain rfl := List.mem_singleton.mp hmem
          exact hloses
      split
      next emitted c'' heq' =>
        rw [heq'] at hflush hlost'
        refine ⟨_, hwrite.trans hflush, hcallers, ?_⟩
        intro hloses
        obtain ⟨message, hmessage⟩ := hlost' (hlast hloses)
        exact ⟨message, Option.some.inj hmessage⟩
      next c'' heq' =>
        rw [heq'] at hflush hlost'
        refine ⟨_, hwrite.trans hflush, hcallers, ?_⟩
        intro hloses
        obtain ⟨message, hmessage⟩ := hlost' (hlast hloses)
        cases hmessage
  next =>
    refine ⟨[], .refl c, by simp, ?_⟩
    rintro ⟨call, hmem, -⟩
    cases hmem

theorem Main.run_goes (b : Behaviour) (main : Main) (c : Console) :
    ∃ calls, Goes c (main.run b c).2 calls ∧ (∀ call ∈ calls, call.caller = .emit) ∧
      (main.LetsThrough → (∃ call ∈ calls, call.LosesLine) →
        ∃ message, (main.run b c).1 = .outputWriteError message) := by
  induction main generalizing c with
  | ended outcome =>
    refine ⟨[], .refl c, by simp, ?_⟩
    rintro - ⟨call, hmem, -⟩
    cases hmem
  | emit stream text next ih =>
    obtain ⟨calls, hemit, hcallers, hlost⟩ := emit_goes b stream text c
    obtain ⟨calls', hrest, hcallers', hlost'⟩ :=
      ih (Cli.emit b stream text c).1 (Cli.emit b stream text c).2
    refine ⟨calls ++ calls', hemit.trans hrest, fun call hmem => ?_, fun hthrough hloses => ?_⟩
    · rcases List.mem_append.mp hmem with hmem | hmem
      · exact hcallers call hmem
      · exact hcallers' call hmem
    · obtain ⟨call, hmem, hloses⟩ := hloses
      rcases List.mem_append.mp hmem with hmem | hmem
      · obtain ⟨message, hmessage⟩ := hlost ⟨call, hmem, hloses⟩
        refine ⟨message, ?_⟩
        simp only [Main.run, hmessage, hthrough.1]
      · exact hlost' (hthrough.2 _) ⟨call, hmem, hloses⟩

theorem writeStderr_goes (b : Behaviour) (text : String) (c : Console) :
    ∃ calls, Goes c (writeStderr b text c) calls ∧ ∀ call ∈ calls, call.caller = .diagnostic := by
  unfold writeStderr
  split
  next =>
    have hwrite : Goes c (c.call b .diagnostic .stderr (.write text)).2
        [⟨.diagnostic, .stderr, .write text, b .stderr (c.calls .stderr)⟩] :=
      .call b c .diagnostic .stderr (.write text) rfl id
    simp only [Console.call] at hwrite ⊢
    split
    next c' heq =>
      obtain ⟨-, rfl⟩ := Prod.mk.inj heq
      exact ⟨_, hwrite.trans (.call b _ .diagnostic .stderr .flush rfl id), by simp⟩
    next c' heq =>
      obtain ⟨-, rfl⟩ := Prod.mk.inj heq
      exact ⟨_, hwrite, by simp⟩
    next c' failure heq =>
      obtain ⟨-, rfl⟩ := Prod.mk.inj heq
      exact ⟨_, hwrite, by simp⟩
  next => exact ⟨[], .refl c, by simp⟩

theorem not_losesRest {call : Call} (hcaller : call.caller ≠ .finalFlush) : ¬ call.LosesRest :=
  fun hloses => hcaller hloses.1

theorem not_losesLine {call : Call} (hcaller : call.caller ≠ .emit) : ¬ call.LosesLine :=
  fun hloses => hcaller hloses.1

/-- What has been lost before, or is lost now, is reported. -/
structure Reports (problem : Option String) (calls : List Call)
    (result : Except Unit (Option String)) : Prop where
  caller : ∀ call ∈ calls, call.caller = .finalFlush
  quiet : (∀ call ∈ calls, ¬ call.LosesRest) → result = .ok problem
  lost : (∃ call ∈ calls, call.LosesRest) ∨ problem ≠ none → result ≠ .ok none

theorem Reports.of_quiet (h : ∀ call ∈ calls, call.caller = .finalFlush)
    (hquiet : ∀ call ∈ calls, ¬ call.LosesRest) : Reports problem calls (.ok problem) := by
  refine ⟨h, fun _ => rfl, fun hlost heq => ?_⟩
  rcases hlost with ⟨call, hmem, hloses⟩ | hproblem
  · exact hquiet call hmem hloses
  · exact hproblem (Except.ok.inj heq)

theorem reports_excepted (stream : StdStream) (problem : Option String) (c : Console)
    (reply : Reply) :
    Reports problem [⟨.finalFlush, stream, .flush, reply⟩]
      (flushExcepted stream problem c reply).1 := by
  have hcaller : ∀ call ∈ [Call.mk .finalFlush stream .flush reply], call.caller = .finalFlush := by
    simp
  have hloses : ∀ failure, reply = .failed failure → (∀ text, failure ≠ .brokenPipe text) →
      ∃ call ∈ [Call.mk .finalFlush stream .flush reply], call.LosesRest :=
    fun failure hreply hpipe => ⟨_, List.mem_singleton_self _, rfl, failure, hreply, hpipe⟩
  cases reply with
  | ok | missing =>
    apply Reports.of_quiet hcaller
    rintro call hmem ⟨-, failure, hreply, -⟩
    obtain rfl := List.mem_singleton.mp hmem
    cases hreply
  | failed failure =>
    cases failure with
    | brokenPipe text =>
      apply Reports.of_quiet hcaller
      rintro call hmem ⟨-, failure, hreply, hpipe⟩
      obtain rfl := List.mem_singleton.mp hmem
      exact hpipe text (Reply.failed.inj hreply).symm
    | osError epipe text | valueError text | exception text =>
      obtain ⟨call, hmem, hlost⟩ := hloses _ rfl (by simp)
      refine ⟨hcaller, fun hquiet => absurd hlost (hquiet call hmem), fun _ heq => ?_⟩
      cases problem with
      | none => cases heq
      | some problem => cases heq
    | base =>
      obtain ⟨call, hmem, hlost⟩ := hloses _ rfl (by simp)
      refine ⟨hcaller, fun hquiet => absurd hlost (hquiet call hmem), fun _ heq => ?_⟩
      cases heq

theorem flushStdStream_goes (b : Behaviour) (stream : StdStream) (problem : Option String)
    (c : Console) : ∃ calls, Goes c (flushStdStream b stream problem c).2 calls ∧
      Reports problem calls (flushStdStream b stream problem c).1 := by
  unfold flushStdStream
  split
  next =>
    obtain ⟨reply, hreply⟩ : ∃ reply, b stream (c.calls stream) = reply := ⟨_, rfl⟩
    have hstays := Goes.call b c .finalFlush stream .flush hreply
    have hdetached := Goes.call_detach b c .finalFlush stream .flush hreply
    refine ⟨[⟨.finalFlush, stream, .flush, reply⟩], ?_⟩
    have heq : (let (reply, c) := c.call b .finalFlush stream .flush
        flushExcepted stream problem c reply) =
        flushExcepted stream problem (c.call b .finalFlush stream .flush).2 reply := by
      rw [← hreply]
      rfl
    rw [heq]
    refine ⟨?_, reports_excepted stream problem _ reply⟩
    cases reply with
    | ok | missing => exact hstays id
    | failed failure =>
      cases failure with
      | brokenPipe | osError | valueError | exception => exact hdetached
      | base => exact hstays fun hdetaches => hdetaches rfl
  next => exact ⟨[], .refl c, .of_quiet (by simp) (by simp)⟩

theorem flushStdStreams_goes (b : Behaviour) (c : Console) :
    ∃ calls, Goes c (flushStdStreams b c).2 calls ∧ Reports none calls (flushStdStreams b c).1 := by
  obtain ⟨calls, hgoes, hreports⟩ := flushStdStream_goes b .stdout none c
  unfold flushStdStreams
  split
  next problem c' heq =>
    rw [heq] at hgoes hreports
    obtain ⟨calls', hgoes', hreports'⟩ := flushStdStream_goes b .stderr problem c'
    refine ⟨calls ++ calls', hgoes.trans hgoes', fun call hmem => ?_, fun hquiet => ?_,
      fun hlost => ?_⟩
    · rcases List.mem_append.mp hmem with hmem | hmem
      · exact hreports.caller call hmem
      · exact hreports'.caller call hmem
    · have hproblem := hreports.quiet fun call hmem => hquiet call (List.mem_append_left _ hmem)
      rw [Except.ok.inj hproblem] at hreports'
      rw [Except.ok.inj hproblem]
      exact hreports'.quiet fun call hmem => hquiet call (List.mem_append_right _ hmem)
    · apply hreports'.lost
      rcases hlost with ⟨call, hmem, hloses⟩ | hnone
      · rcases List.mem_append.mp hmem with hmem | hmem
        · right
          rintro rfl
          exact hreports.lost (.inl ⟨call, hmem, hloses⟩) rfl
        · exact .inl ⟨call, hmem, hloses⟩
      · exact absurd rfl hnone
  next c' heq =>
    rw [heq] at hgoes hreports
    refine ⟨calls, hgoes, hreports.caller, fun hquiet => hreports.quiet hquiet, fun _ hnone => ?_⟩
    cases hnone

-- ---------------------------------------------------------------------------
-- The exit as a whole
-- ---------------------------------------------------------------------------

/-- What is left to do when the code is known: the status is that code's, or 119. -/
structure Tail (c : Console) (code : Int) (last : Int × Console) (calls : List Call) : Prop where
  goes : Goes c last.2 calls
  noLine : ∀ call ∈ calls, ¬ call.LosesLine
  lost : (∃ call ∈ calls, call.LosesRest) → last.1 = exitOutputLost
  kept : (∀ call ∈ calls, ¬ call.LosesRest) → last.1 = truncateStatus code

theorem Tail.diagnostic (hgoes : Goes c c' calls)
    (hcaller : ∀ call ∈ calls, call.caller = .diagnostic) (h : Tail c' code last calls') :
    Tail c code last (calls ++ calls') := by
  have hquiet : ∀ call ∈ calls, ¬ call.LosesRest := by
    intro call hmem
    exact not_losesRest (by rw [hcaller call hmem]; decide)
  refine ⟨hgoes.trans h.goes, fun call hmem => ?_, ?_, fun hnone => ?_⟩
  · rcases List.mem_append.mp hmem with hmem | hmem
    · exact not_losesLine (by rw [hcaller call hmem]; decide)
    · exact h.noLine call hmem
  · rintro ⟨call, hmem, hloses⟩
    rcases List.mem_append.mp hmem with hmem | hmem
    · exact absurd hloses (hquiet call hmem)
    · exact h.lost ⟨call, hmem, hloses⟩
  · exact h.kept fun call hmem => hnone call (List.mem_append_right _ hmem)

theorem flushAndExit_tail (b : Behaviour) (code : Int) (c : Console) :
    ∃ calls, Tail c code (flushAndExit b code c) calls := by
  obtain ⟨calls, hgoes, hreports⟩ := flushStdStreams_goes b c
  have hnoLine : ∀ call ∈ calls, ¬ call.LosesLine := by
    intro call hmem
    exact not_losesLine (by rw [hreports.caller call hmem]; decide)
  unfold flushAndExit
  split
  next c' heq =>
    rw [heq] at hgoes hreports
    exact ⟨calls, hgoes, hnoLine, fun hlost => absurd rfl (hreports.lost (.inl hlost)),
      fun _ => rfl⟩
  next problem c' heq =>
    rw [heq] at hgoes hreports
    obtain ⟨calls', hgoes', hcaller⟩ := writeStderr_goes b s!"processkit: {problem}\n" c'
    refine ⟨calls ++ calls', hgoes.trans hgoes', fun call hmem => ?_, fun _ => truncateStatus_lost,
      fun hquiet => ?_⟩
    · rcases List.mem_append.mp hmem with hmem | hmem
      · exact hnoLine call hmem
      · exact not_losesLine (by rw [hcaller call hmem]; decide)
    · cases hreports.quiet fun call hmem => hquiet call (List.mem_append_left _ hmem)
  next c' heq =>
    rw [heq] at hgoes hreports
    refine ⟨calls, hgoes, hnoLine, fun _ => truncateStatus_lost, fun hquiet => ?_⟩
    cases hreports.quiet hquiet

theorem exitNow_tail (b : Behaviour) (code : ExitCode) (c : Console)
    (hprintable : ¬ code.Unprintable) :
    ∃ calls, Tail c code.status (exitNow b code c) calls := by
  have hprinted : ∀ text : String, ∃ calls,
      Tail c 1 (flushAndExit b 1 (writeStderr b s!"{text}\n" c)) calls := by
    intro text
    obtain ⟨calls, hgoes, hcaller⟩ := writeStderr_goes b s!"{text}\n" c
    obtain ⟨calls', htail⟩ := flushAndExit_tail b 1 (writeStderr b s!"{text}\n" c)
    exact ⟨_, htail.diagnostic hgoes hcaller⟩
  cases code with
  | none => exact flushAndExit_tail b 0 c
  | int status => exact flushAndExit_tail b status c
  | other typeName str =>
    cases str with
    | text text => exact hprinted text
    | raises => exact hprinted _
    | raisesBase => exact absurd trivial hprintable

theorem mainAndExit_tail (b : Behaviour) (main : Main) (c : Console)
    (hprintable : ¬ (main.run b c).1.Unprintable) :
    ∃ calls, Tail (main.run b c).2 (main.run b c).1.status (mainAndExit b main c) calls := by
  unfold mainAndExit
  have hdiagnostic : ∀ text status c, ∃ calls,
      Tail c status (exitNow b (.int status) (writeStderr b text c)) calls := by
    intro text status c
    obtain ⟨calls, hgoes, hcaller⟩ := writeStderr_goes b text c
    obtain ⟨calls', htail⟩ := exitNow_tail b (.int status) (writeStderr b text c) id
    exact ⟨_, htail.diagnostic hgoes hcaller⟩
  split
  next code c' heq =>
    rw [heq] at hprintable ⊢
    exact exitNow_tail b code c' hprintable
  next code c' heq =>
    rw [heq] at hprintable ⊢
    exact exitNow_tail b code c' hprintable
  next message c' heq =>
    rw [heq]
    exact hdiagnostic _ _ c'
  next c' heq =>
    rw [heq]
    exact hdiagnostic _ _ c'
  next traceback c' heq =>
    rw [heq]
    exact hdiagnostic _ _ c'

theorem mainAndExit_unprintable (b : Behaviour) (main : Main) (c : Console)
    (h : (main.run b c).1.Unprintable) :
    mainAndExit b main c = (exitOutputLost, (main.run b c).2) := by
  have hfallback : ∀ (code : ExitCode) c', code.Unprintable →
      exitNow b code c' = (exitOutputLost, c') := by
    intro code c' hcode
    cases code with
    | none | int => exact hcode.elim
    | other typeName str =>
      cases str with
      | text | raises => exact hcode.elim
      | raisesBase => exact Prod.ext truncateStatus_lost rfl
  unfold mainAndExit
  split
  next code c' heq =>
    rw [heq] at h ⊢
    exact hfallback code c' h
  next code c' heq =>
    rw [heq] at h ⊢
    exact hfallback code c' h
  next message c' heq =>
    rw [heq] at h
    exact h.elim
  next c' heq =>
    rw [heq] at h
    exact h.elim
  next traceback c' heq =>
    rw [heq] at h
    exact h.elim

/-- The status is in range, 119 where output is lost, and else the outcome's; and what has
failed is detached. -/
theorem main_and_exit_status (b : Behaviour) (main : Main) (attached : StdStream → Bool) :
    Exits main (main.run b (.new attached)).1 (mainAndExit b main (.new attached)).1
      (mainAndExit b main (.new attached)).2 := by
  obtain ⟨emits, hrun, hcaller, hline⟩ := main.run_goes b (.new attached)
  have hlog : (main.run b (.new attached)).2.log = emits := hrun.log.trans (List.nil_append emits)
  have hsound := hrun.sound (c := .new attached) fun call hmem => by cases hmem
  have hquiet : ∀ call ∈ emits, ¬ call.LosesRest := by
    intro call hmem
    exact not_losesRest (by rw [hcaller call hmem]; decide)
  by_cases hunprintable : (main.run b (.new attached)).1.Unprintable
  · rw [mainAndExit_unprintable b main _ hunprintable]
    refine ⟨?_, fun _ => rfl, fun _ _ => rfl, fun _ hprintable => ?_, hsound⟩
    · simp [exitOutputLost]
    · exact absurd hunprintable hprintable
  · obtain ⟨calls, htail⟩ := mainAndExit_tail b main (.new attached) hunprintable
    have hall : (mainAndExit b main (.new attached)).2.log = emits ++ calls := by
      rw [htail.goes.log, hlog]
    have hstatus : (mainAndExit b main (.new attached)).1 = exitOutputLost ∨
        (mainAndExit b main (.new attached)).1 =
          truncateStatus (main.run b (.new attached)).1.status := by
      by_cases hlost : ∃ call ∈ calls, call.LosesRest
      · exact .inl (htail.lost hlost)
      · exact .inr (htail.kept fun call hmem hloses => hlost ⟨call, hmem, hloses⟩)
    constructor
    · rcases hstatus with hstatus | hstatus
      · rw [hstatus]
        decide
      · rw [hstatus]
        exact truncateStatus_inRange _
    · rw [hall]
      rintro (⟨call, hmem, hloses⟩ | hnot)
      · rcases List.mem_append.mp hmem with hmem | hmem
        · exact absurd hloses (hquiet call hmem)
        · exact htail.lost ⟨call, hmem, hloses⟩
      · exact absurd hnot hunprintable
    · rw [hall]
      rintro hthrough ⟨call, hmem, hloses⟩
      rcases List.mem_append.mp hmem with hmem | hmem
      · obtain ⟨message, houtcome⟩ := hline hthrough ⟨call, hmem, hloses⟩
        rcases hstatus with hstatus | hstatus
        · exact hstatus
        · rw [hstatus, houtcome]
          exact truncateStatus_lost
      · exact absurd hloses (htail.noLine call hmem)
    · rw [hall]
      intro hnone _
      rw [htail.kept fun call hmem => hnone call (List.mem_append_right _ hmem)]
      exact truncateStatus_congr _
    · exact htail.goes.sound hsound

def noSpace : Reply := .failed (.osError false "OSError(28, 'No space left on device')")

def fullDisk : Behaviour
  | .stderr, 0 => noSpace
  | _, _ => .ok

/-- Ctrl+C: the line about it is lost to a full disk, and the status is that of Ctrl+C. -/
theorem interrupt_outlives_diagnostic :
    (mainAndExit fullDisk (.ended .keyboardInterrupt) (.new fun _ => true)).1 = 130 ∧
      ⟨.diagnostic, .stderr, .write "processkit: interrupted\n", noSpace⟩ ∈
        (mainAndExit fullDisk (.ended .keyboardInterrupt) (.new fun _ => true)).2.log := by
  constructor
  · rfl
  · exact List.mem_cons_self ..

end ProcessKit.Cli

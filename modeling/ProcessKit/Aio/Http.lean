import ProcessKit.Aio.Reports

/-!
# Waiting for an HTTP server

One attempt of `wait_for_http` connects, sends its request and reads the status line.
What the server does decides how each await of the attempt ends, and where one never
does the window of the attempt closes over it.

`StreamReader.readline` raises a `ValueError` for a line longer than its limit, and
`open_connection` an exception that is no `OSError` for an address it cannot use.
`wait_for_http` does not retry either.
-/

namespace ProcessKit.Aio

open ProcessKit.Runtime (PyErr)

-- ---------------------------------------------------------------------------
-- The status line
-- ---------------------------------------------------------------------------

structure HttpProbeError where
  message : String
  status : Option Nat
  deriving DecidableEq

/-- What an attempt can raise. `oserror` is `OSError` with its subclasses; `address` is
what asyncio makes of a host or a port that no connection can have, an `OverflowError`
or a `UnicodeError`. -/
inductive HttpExc
  | oserror (error : PyErr)
  | address (error : PyErr)
  | timeout
  | probe (error : HttpProbeError)
  | valueError
  deriving DecidableEq

/-- ASCII whitespace, as `bytes.split` takes it. -/
def isSpace (byte : UInt8) : Bool := byte = 32 || (9 ≤ byte && byte ≤ 13)

def isDigit (byte : UInt8) : Bool := 48 ≤ byte && byte ≤ 57

/-- `split(None, maxsplit)`. -/
def splitSpace (maxsplit : Nat) (bytes : List UInt8) : List (List UInt8) :=
  let rest := bytes.dropWhile isSpace
  if rest = [] then []
  else match maxsplit with
    | 0 => [rest]
    | maxsplit + 1 =>
      rest.takeWhile (!isSpace ·) :: splitSpace maxsplit (rest.dropWhile (!isSpace ·))

def upper (byte : UInt8) : UInt8 := if 97 ≤ byte && byte ≤ 122 then byte - 32 else byte

def httpSlash : List UInt8 := [72, 84, 84, 80, 47]

def intOf (digits : List UInt8) : Nat :=
  digits.foldl (fun n digit => 10 * n + (digit.toNat - 48)) 0

def hexDigit (n : Nat) : Char := if n < 10 then Char.ofNat (48 + n) else Char.ofNat (87 + n)

/-- One byte in the `repr` of a `bytes` in quotes of this kind. -/
def reprByte (quote : Char) (byte : UInt8) : List Char :=
  let c := Char.ofNat byte.toNat
  if c = quote || c = '\\' then ['\\', c]
  else if c = '\t' then ['\\', 't']
  else if c = '\n' then ['\\', 'n']
  else if c = '\r' then ['\\', 'r']
  else if 32 ≤ byte && byte < 127 then [c]
  else ['\\', 'x', hexDigit (byte.toNat / 16), hexDigit (byte.toNat % 16)]

def bytesRepr (bytes : List UInt8) : String :=
  let quote := if 39 ∈ bytes && !(34 ∈ bytes) then '"' else Char.ofNat 39
  String.ofList ('b' :: quote :: bytes.flatMap (reprByte quote) ++ [quote])

def parseStatusCode (statusLine : List UInt8) : Except HttpProbeError Nat :=
  match splitSpace 2 statusLine with
  | version :: statusCode :: _ =>
    if httpSlash.isPrefixOf (version.map upper) then
      if statusCode.length ≠ 3 || !(statusCode.all isDigit) then
        .error ⟨"malformed HTTP status code; expected exactly three ASCII digits in: " ++
          bytesRepr statusLine, none⟩
      else .ok (intOf statusCode)
    else .error ⟨s!"malformed or empty HTTP status line: {bytesRepr statusLine}", none⟩
  | _ => .error ⟨s!"malformed or empty HTTP status line: {bytesRepr statusLine}", none⟩

-- ---------------------------------------------------------------------------
-- One attempt
-- ---------------------------------------------------------------------------

/-- How an await of an attempt ends, if it does. -/
inductive Await (α : Type)
  | done (value : α)
  | fails (error : PyErr)
  | hangs

inductive Connect
  | done
  | fails (error : PyErr)
  | unusable (error : PyErr)
  | hangs

/-- What a server makes of one attempt. `reply` is what it sends, up to a newline or
to the end of the stream. -/
structure Server where
  connect : Connect
  drain : Await Unit
  reply : Await (List UInt8)
  close : Await Unit

/-- The end of an attempt; `none` is one that never ends. -/
abbrev Attempt (α : Type) := Option (Except HttpExc α)

def awaiting (await : Await α) (next : α → Attempt β) : Attempt β :=
  match await with
  | .done value => next value
  | .fails error => some (.error (.oserror error))
  | .hangs => none

def readerLimit : Nat := 2 ^ 16

def newline : UInt8 := 10

def lineLength (reply : List UInt8) : Nat := (reply.takeWhile (· ≠ newline)).length

def readline (reply : List UInt8) : Except HttpExc (List UInt8) :=
  if readerLimit < lineLength reply then .error .valueError
  else .ok (reply.take (lineLength reply + 1))

def parsed (statusLine : List UInt8) : Except HttpExc Nat :=
  (parseStatusCode statusLine).mapError .probe

def closing (close : Await Unit) (code : Nat) : Attempt Nat :=
  match close with
  | .done () | .fails _ => some (.ok code)
  | .hangs => none

def openConnection (connect : Connect) (next : Attempt β) : Attempt β :=
  match connect with
  | .done => next
  | .fails error => some (.error (.oserror error))
  | .unusable error => some (.error (.address error))
  | .hangs => none

def probeHttp (server : Server) : Attempt Nat :=
  openConnection server.connect <|
    awaiting server.drain fun () =>
      awaiting server.reply fun reply =>
        match readline reply >>= parsed with
        | .ok code => closing server.close code
        | .error exc => some (.error exc)

-- ---------------------------------------------------------------------------
-- wait_for_http
-- ---------------------------------------------------------------------------

def evaluateStatus (statusOk : Nat → Bool) (code : Nat) : Verdict HttpExc :=
  if statusOk code then .accepts
  else .rejects (.probe ⟨s!"HTTP status {code} is not in the expected set", some code⟩)

def HttpExc.isTimeout : HttpExc → Bool
  | .timeout => true
  | .oserror _ | .address _ | .probe _ | .valueError => false

def HttpExc.retries : HttpExc → Bool
  | .oserror _ | .probe _ | .timeout => true
  | .address _ | .valueError => false

def httpRetry (bounds : Bounds) : Retry HttpExc Nat where
  toBounds := bounds
  timeoutError := .timeout
  isTimeout := HttpExc.isTimeout
  retries := HttpExc.retries
  isNone _ := false
  isTimeout_timeoutError := rfl
  retries_timeoutError := rfl

inductive HttpEvent
  | served (server : Server)
  | driver (ev : Event HttpExc Nat)

/-- `attempt` is one that ends by itself, and `raced` whether it does so in the tick
in which its window closes; `expire` is one whose window closes first. -/
inductive HttpAction
  | turn
  | attempt (elapsed : ℚ) (server : Server) (raced : Bool)
  | expire (elapsed : ℚ) (server : Server)
  | judge (elapsed : ℚ)
  | slept (elapsed : ℚ)
  | cancel (elapsed : ℚ) (task : Task HttpExc Nat)

def fateOf (raced : Bool) (outcome : Except HttpExc Nat) : Fate HttpExc Nat :=
  if raced then .raced outcome else .finished outcome

def HttpAction.toAction (statusOk : Nat → Bool) (phase : Phase HttpExc Nat) :
    HttpAction → Option (Action HttpExc Nat)
  | .turn => some .turn
  | .attempt elapsed server raced =>
    (probeHttp server).map fun outcome => .wake elapsed (fateOf raced outcome)
  | .expire elapsed _ => some (.wake elapsed .expired)
  | .judge elapsed =>
    match phase with
    | .evaluating code => some (.judge elapsed (evaluateStatus statusOk code))
    | _ => none
  | .slept elapsed => some (.slept elapsed)
  | .cancel elapsed task => some (.cancel elapsed task)

def HttpAction.served : HttpAction → List HttpEvent
  | .attempt _ server _ | .expire _ server => [.served server]
  | .turn | .judge _ | .slept _ | .cancel .. => []

def httpStep (bounds : Bounds) (statusOk : Nat → Bool) (d : Driver HttpExc Nat) (a : HttpAction) :
    Option (Driver HttpExc Nat × List HttpEvent) := do
  let action ← a.toAction statusOk d.phase
  let (d, evs) ← d.step (httpRetry bounds) action
  return (d, a.served ++ evs.map .driver)

def httpMachine (bounds : Bounds) (statusOk : Nat → Bool) (start : ℚ) :
    Transition.Machine (Driver HttpExc Nat) HttpAction HttpEvent where
  init := .new (httpRetry bounds) start
  step := httpStep bounds statusOk

-- ---------------------------------------------------------------------------
-- What an attempt can come to
-- ---------------------------------------------------------------------------

def Server.Answers (server : Server) (code : Nat) : Prop :=
  ∃ reply statusLine version token rest, server.reply = .done reply ∧
    readline reply = .ok statusLine ∧ splitSpace 2 statusLine = version :: token :: rest ∧
    token.length = 3 ∧ (∀ byte ∈ token, isDigit byte = true) ∧ code = intOf token

/-- The host or the port is one that no connection can have. -/
def Server.Unusable (server : Server) : Prop := ∃ error, server.connect = .unusable error

def Server.Overlong (server : Server) : Prop :=
  server.connect = .done ∧ server.drain = .done () ∧
    ∃ reply, server.reply = .done reply ∧ readerLimit < lineLength reply

theorem parseStatusCode_ok (h : parseStatusCode statusLine = .ok code) :
    ∃ version token rest, splitSpace 2 statusLine = version :: token :: rest ∧
      token.length = 3 ∧ (∀ byte ∈ token, isDigit byte = true) ∧ code = intOf token := by
  unfold parseStatusCode at h
  split at h
  · rename_i version token rest hsplit
    split at h
    · split at h
      · cases h
      · rename_i hdigits
        cases h
        simp only [ne_eq, Bool.or_eq_true, decide_eq_true_eq, Bool.not_eq_true', not_or,
          not_not, Bool.not_eq_false] at hdigits
        exact ⟨version, token, rest, hsplit, hdigits.1, List.all_eq_true.mp hdigits.2, rfl⟩
    · cases h
  · cases h

theorem awaiting_some {await : Await α} {next : α → Attempt β} (h : awaiting await next = some r) :
    (∃ value, await = .done value ∧ next value = some r) ∨
      ∃ error, await = .fails error ∧ r = .error (.oserror error) := by
  cases await with
  | done value => exact .inl ⟨value, rfl, h⟩
  | fails error => exact .inr ⟨error, rfl, (Option.some.inj h).symm⟩
  | hangs => cases h

theorem openConnection_some {connect : Connect} {next : Attempt β}
    (h : openConnection connect next = some r) :
    (connect = .done ∧ next = some r) ∨ (∃ error, r = .error (.oserror error)) ∨
      ∃ error, connect = .unusable error ∧ r = .error (.address error) := by
  cases connect with
  | done => exact .inl ⟨rfl, h⟩
  | fails error => exact .inr (.inl ⟨error, (Option.some.inj h).symm⟩)
  | unusable error => exact .inr (.inr ⟨error, rfl, (Option.some.inj h).symm⟩)
  | hangs => cases h

theorem probeHttp_cases (h : probeHttp server = some outcome) :
    (∃ error, outcome = .error (.oserror error)) ∨
      (∃ error, server.connect = .unusable error ∧ outcome = .error (.address error)) ∨
      server.connect = .done ∧ server.drain = .done () ∧
        ∃ reply, server.reply = .done reply ∧ outcome = (readline reply >>= parsed) := by
  rcases openConnection_some h with ⟨hconnect, h⟩ | hoserror | haddress
  · rcases awaiting_some h with ⟨⟨⟩, hdrain, h⟩ | ⟨error, -, rfl⟩
    · rcases awaiting_some h with ⟨reply, hreply, h⟩ | ⟨error, -, rfl⟩
      · refine .inr (.inr ⟨hconnect, hdrain, reply, hreply, ?_⟩)
        split at h
        · rename_i code hcode
          rw [hcode]
          unfold closing at h
          split at h <;> cases h <;> rfl
        · rename_i exc hexc
          rw [hexc]
          exact (Option.some.inj h).symm
      · exact .inl ⟨error, rfl⟩
    · exact .inl ⟨error, rfl⟩
  · exact .inl hoserror
  · exact .inr (.inl haddress)

theorem probeHttp_ok (h : probeHttp server = some (.ok code)) : server.Answers code := by
  rcases probeHttp_cases h with ⟨error, herror⟩ | ⟨error, -, herror⟩ |
    ⟨-, -, reply, hreply, houtcome⟩
  · cases herror
  · cases herror
  · cases hline : readline reply with
    | error exc => simp [hline, bind, Except.bind] at houtcome
    | ok statusLine =>
      cases hcode : parseStatusCode statusLine with
      | error error => simp [hline, bind, Except.bind, parsed, hcode, Except.mapError] at houtcome
      | ok value =>
        simp only [hline, bind, Except.bind, parsed, hcode, Except.mapError, Except.ok.injEq]
          at houtcome
        subst houtcome
        obtain ⟨version, token, rest, hsplit⟩ := parseStatusCode_ok hcode
        exact ⟨reply, statusLine, version, token, rest, hreply, hline, hsplit⟩

theorem probeHttp_fatal (h : probeHttp server = some (.error exc))
    (hexc : exc.retries = false) : server.Unusable ∨ server.Overlong := by
  rcases probeHttp_cases h with ⟨error, herror⟩ | ⟨error, hconnect, -⟩ |
    ⟨hconnect, hdrain, reply, hreply, houtcome⟩
  · cases herror
    cases hexc
  · exact .inl ⟨error, hconnect⟩
  · refine .inr ⟨hconnect, hdrain, reply, hreply, ?_⟩
    by_contra hshort
    rw [readline, if_neg hshort] at houtcome
    cases hcode : parseStatusCode (reply.take (lineLength reply + 1)) with
    | error error =>
      simp only [bind, Except.bind, parsed, hcode, Except.mapError, Except.error.injEq] at houtcome
      subst houtcome
      cases hexc
    | ok code => simp [bind, Except.bind, parsed, hcode, Except.mapError] at houtcome

theorem probeHttp_overlong (h : server.Overlong) :
    probeHttp server = some (.error .valueError) := by
  obtain ⟨hconnect, hdrain, reply, hreply, hlong⟩ := h
  have hline : readline reply = .error .valueError := if_pos hlong
  simp only [probeHttp, openConnection, hconnect, hdrain, hreply, awaiting, hline]
  rfl

-- ---------------------------------------------------------------------------
-- A whole run
-- ---------------------------------------------------------------------------

def HttpEvent.driver? : HttpEvent → Option (Event HttpExc Nat)
  | .driver ev => some ev
  | .served _ => none

def driverLog (log : List HttpEvent) : List (Event HttpExc Nat) := log.filterMap HttpEvent.driver?

/-- An attempt has an address of no use or reads an overlong line, or it fails in the tick
in which its window closes. -/
def Escapes (a : HttpAction) : Prop :=
  ∃ elapsed server raced, a = .attempt elapsed server raced ∧
    ((server.Unusable ∨ server.Overlong) ∨ raced = true ∧ ∃ exc, probeHttp server = some (.error exc))

def Action.Logs : Action ε ρ → Event ε ρ → Prop
  | .turn, .started .. | .cancel .., .cancelled => True
  | .wake _ fate, .seen seen => seen = fate
  | .judge _ verdict, .judged judged => judged = verdict
  | _, _ => False

theorem Driver.attempt_logs {d : Driver ε ρ} (hmem : ev ∈ (d.attempt cfg first).2) :
    ∃ time window, ev = .started time window := by
  unfold Driver.attempt at hmem
  by_cases hover : first = false ∧ d.deadline.since d.now ≤ 0
  · simp [hover] at hmem
  · simp only [if_neg hover, List.mem_singleton] at hmem
    exact ⟨_, _, hmem⟩

theorem Driver.step_logs {d : Driver ε ρ} {a : Action ε ρ} (h : d.step cfg a = some (d', evs)) :
    ∀ ev ∈ evs, a.Logs ev := by
  intro ev hmem
  cases a with
  | turn =>
    simp only [Driver.step] at h
    split at h
    · obtain rfl := congrArg Prod.snd (Option.some.inj h)
      obtain ⟨time, window, rfl⟩ := Driver.attempt_logs hmem
      trivial
    · cases h
  | wake elapsed fate =>
    simp only [Driver.step] at h
    split at h
    · obtain ⟨-, hnext⟩ := Option.ite_none_right_eq_some.mp h
      cases hnext
      obtain rfl := List.mem_singleton.mp hmem
      rfl
    · cases h
  | judge elapsed verdict =>
    simp only [Driver.step] at h
    split at h
    · obtain ⟨-, hnext⟩ := Option.ite_none_right_eq_some.mp h
      cases hnext
      obtain rfl := List.mem_singleton.mp hmem
      rfl
    · cases h
  | slept elapsed =>
    simp only [Driver.step] at h
    split at h
    · obtain ⟨-, hnext⟩ := Option.ite_none_right_eq_some.mp h
      cases hnext
      cases hmem
    · cases h
  | cancel elapsed task =>
    simp only [Driver.step] at h
    split at h
    case h_4 => cases h
    all_goals
      obtain ⟨-, hnext⟩ := Option.ite_none_right_eq_some.mp h
      cases hnext
      obtain rfl := List.mem_singleton.mp hmem
      trivial

section

variable {bounds : Bounds} {statusOk : Nat → Bool} {start : ℚ}

def Ready (statusOk : Nat → Bool) (log : List HttpEvent) : Prop :=
  ∃ server code, .served server ∈ log ∧ server.Answers code ∧ statusOk code = true

structure HttpTracked (bounds : Bounds) (statusOk : Nat → Bool) (start : ℚ)
    (d : Driver HttpExc Nat) (log : List HttpEvent) : Prop where
  tracked : Tracked (httpRetry bounds) start d (driverLog log)
  answered : ∀ fate code, .seen fate ∈ driverLog log → fate.result = some code →
    ∃ server, .served server ∈ log ∧ server.Answers code
  accepted : .judged .accepts ∈ driverLog log → Ready statusOk log
  calm : ∀ ev ∈ driverLog log, ∀ e, ev.decides (httpRetry bounds) ≠ some (.raised e)

theorem fateOf_result (h : (fateOf raced outcome).result = some code) : outcome = .ok code := by
  cases raced <;> cases outcome <;> cases h <;> rfl

theorem fateOf_failure (raced : Bool) (outcome : Except HttpExc Nat) :
    (fateOf raced outcome).failure (httpRetry bounds) = match outcome with
      | .ok _ => none
      | .error exc => some exc := by
  cases raced <;> cases outcome <;> rfl

theorem HttpAction.not_masked {a : HttpAction} (hescape : ¬ Escapes a)
    (ha : a.toAction statusOk phase = some action) : ¬ Masked (httpRetry bounds) action := by
  rintro ⟨elapsed, fate, rfl, ⟨error, rfl, -⟩ | ⟨value, -, hnone⟩⟩
  · cases a with
    | attempt _ server raced =>
      obtain ⟨outcome, houtcome, heq⟩ := Option.map_eq_some_iff.mp ha
      cases raced with
      | false => cases heq
      | true =>
        cases heq
        exact hescape ⟨_, server, true, rfl, .inr ⟨rfl, error, houtcome⟩⟩
    | judge _ => cases phase <;> cases ha
    | turn | expire | slept | cancel => cases ha
  · cases hnone

theorem HttpAction.calm {a : HttpAction} (hescape : ¬ Escapes a)
    (ha : a.toAction statusOk phase = some action) (hlogs : action.Logs ev) :
    ∀ e, ev.decides (httpRetry bounds) ≠ some (.raised e) := by
  intro e hraised
  cases a with
  | turn =>
    cases ha
    cases ev <;> first | cases hraised | cases hlogs
  | slept elapsed =>
    cases ha
    cases ev <;> cases hlogs
  | cancel elapsed task =>
    cases ha
    cases ev <;> first | cases hraised | cases hlogs
  | expire elapsed server =>
    cases ha
    cases ev <;> cases hlogs
    cases hraised
  | judge elapsed =>
    cases phase <;> cases ha
    cases ev <;> cases hlogs
    unfold evaluateStatus at hraised
    split at hraised <;> cases hraised
  | attempt elapsed server raced =>
    obtain ⟨outcome, houtcome, rfl⟩ := Option.map_eq_some_iff.mp ha
    cases ev <;> cases hlogs
    simp only [Event.decides, fateOf_failure] at hraised
    cases outcome with
    | ok code => cases hraised
    | error exc =>
      refine hescape ⟨elapsed, server, raced, rfl, .inl (probeHttp_fatal houtcome ?_)⟩
      cases hretries : exc.retries with
      | false => rfl
      | true => simp [httpRetry, hretries] at hraised

theorem driverLog_append (log evs : List HttpEvent) :
    driverLog (log ++ evs) = driverLog log ++ driverLog evs := List.filterMap_append

theorem driverLog_step (a : HttpAction) (evs : List (Event HttpExc Nat)) :
    driverLog (a.served ++ evs.map .driver) = evs := by
  have hserved : driverLog a.served = [] := by cases a <;> rfl
  have hdriver : driverLog (evs.map .driver) = evs := by
    simp [driverLog, List.filterMap_map, Function.comp_def, HttpEvent.driver?]
  rw [driverLog_append, hserved, hdriver, List.nil_append]

theorem HttpTracked.ready (h : HttpTracked bounds statusOk start d log)
    (ha : HttpAction.toAction statusOk d.phase a = some action)
    (hlogs : action.Logs (.judged .accepts)) : Ready statusOk log := by
  cases a with
  | judge elapsed =>
    cases hphase : d.phase with
    | evaluating code =>
      simp only [HttpAction.toAction, hphase, Option.some.injEq] at ha
      subst ha
      obtain ⟨before, fate, heq, hresult⟩ := (h.tracked.answered code).mpr hphase
      obtain ⟨server, hserved, hanswers⟩ := h.answered fate code (by simp [heq]) hresult
      refine ⟨server, code, hserved, hanswers, ?_⟩
      by_contra hnot
      simp [Action.Logs, evaluateStatus, hnot] at hlogs
    | top | waiting | sleeping | ended => simp [HttpAction.toAction, hphase] at ha
  | attempt elapsed server raced =>
    obtain ⟨outcome, -, rfl⟩ := Option.map_eq_some_iff.mp ha
    cases hlogs
  | turn | expire | slept | cancel =>
    cases ha
    cases hlogs

theorem Ready.append (h : Ready statusOk log) (evs : List HttpEvent) :
    Ready statusOk (log ++ evs) := by
  obtain ⟨server, code, hserved, hanswers, hok⟩ := h
  exact ⟨server, code, List.mem_append_left _ hserved, hanswers, hok⟩

theorem HttpAction.answers {a : HttpAction} (ha : a.toAction statusOk phase = some action)
    (hlogs : action.Logs (.seen fate)) (hresult : fate.result = some code) :
    ∃ server, .served server ∈ a.served ∧ server.Answers code := by
  cases a with
  | attempt elapsed server raced =>
    obtain ⟨outcome, houtcome, rfl⟩ := Option.map_eq_some_iff.mp ha
    cases hlogs
    obtain rfl := fateOf_result hresult
    exact ⟨server, by simp [HttpAction.served], probeHttp_ok houtcome⟩
  | expire elapsed server =>
    cases ha
    cases hlogs
    cases hresult
  | judge elapsed =>
    simp only [HttpAction.toAction] at ha
    split at ha <;> cases ha
    cases hlogs
  | turn | slept | cancel =>
    cases ha
    cases hlogs

theorem httpStep_cases (h : httpStep bounds statusOk d a = some (d', evs)) :
    ∃ action driven, a.toAction statusOk d.phase = some action ∧
      d.step (httpRetry bounds) action = some (d', driven) ∧
      evs = a.served ++ driven.map .driver := by
  simp only [httpStep, Option.bind_eq_bind, Option.bind_eq_some_iff, Prod.exists] at h
  obtain ⟨action, ha, next, driven, hdriver, hpure⟩ := h
  obtain ⟨rfl, rfl⟩ : next = d' ∧ a.served ++ driven.map .driver = evs := by simpa using hpure
  exact ⟨action, driven, ha, hdriver, rfl⟩

theorem httpStep_of {d : Driver HttpExc Nat} {a : HttpAction}
    (ha : a.toAction statusOk d.phase = some action)
    (hdriver : d.step (httpRetry bounds) action = some (d', driven)) :
    httpStep bounds statusOk d a = some (d', a.served ++ driven.map .driver) := by
  simp [httpStep, ha, hdriver]

theorem HttpTracked.step (h : HttpTracked bounds statusOk start d log) (hescape : ¬ Escapes a)
    (hstep : httpStep bounds statusOk d a = some (d', evs)) :
    HttpTracked bounds statusOk start d' (log ++ evs) := by
  obtain ⟨action, driven, ha, hdriver, rfl⟩ := httpStep_cases hstep
  have hlogs := Driver.step_logs hdriver
  have hsplit : driverLog (log ++ (a.served ++ driven.map .driver)) = driverLog log ++ driven := by
    rw [driverLog_append, driverLog_step]
  refine ⟨?_, fun fate code hmem hresult => ?_, fun hmem => ?_, fun ev hmem => ?_⟩
  · rw [hsplit]
    exact h.tracked.step (.of_step (a.not_masked hescape ha) hdriver)
  · rw [hsplit] at hmem
    rcases List.mem_append.mp hmem with hmem | hmem
    · obtain ⟨server, hserved, hanswers⟩ := h.answered fate code hmem hresult
      exact ⟨server, List.mem_append_left _ hserved, hanswers⟩
    · obtain ⟨server, hserved, hanswers⟩ := a.answers ha (hlogs _ hmem) hresult
      exact ⟨server, List.mem_append_right _ (List.mem_append_left _ hserved), hanswers⟩
  · rw [hsplit] at hmem
    rcases List.mem_append.mp hmem with hmem | hmem
    · exact (h.accepted hmem).append _
    · exact (h.ready ha (hlogs _ hmem)).append _
  · rw [hsplit] at hmem
    rcases List.mem_append.mp hmem with hmem | hmem
    · exact h.calm ev hmem
    · exact a.calm hescape ha (hlogs ev hmem)

/-- Nothing comes any more but the caller's cancellation. -/
def HttpRests (bounds : Bounds) (statusOk : Nat → Bool) (d : Driver HttpExc Nat) : Prop :=
  ∀ a d' evs, httpStep bounds statusOk d a = some (d', evs) → .driver .cancelled ∈ evs

/-- `wait_for_http` returns on an accepted status line, or raises a `WaitTimeout`
from the failure of its last attempt; else its caller has cancelled it. -/
structure HttpReports (bounds : Bounds) (statusOk : Nat → Bool) (start : ℚ)
    (d : Driver HttpExc Nat) (log : List HttpEvent) : Prop where
  reports : Reports (httpRetry bounds) start d (driverLog log)
  returned : d.phase = .ended .returned → Ready statusOk log
  otherwise : ∀ outcome, d.phase = .ended outcome → outcome = .returned ∨
    (∃ cause, Failing (httpRetry bounds) (driverLog log) cause ∧
      outcome = .waitTimeout (some cause)) ∨ outcome = .cancelled ∧ .cancelled ∈ driverLog log
  ends : bounds.timeout ≠ ⊤ → HttpRests bounds statusOk d → ∃ outcome, d.phase = .ended outcome

theorem Event.decides_cases {ev : Event ε ρ} (h : ev.decides cfg = some outcome) :
    ev = .judged .accepts ∧ outcome = .returned ∨ ev = .cancelled ∧ outcome = .cancelled ∨
      ∃ error, outcome = .raised error := by
  cases ev with
  | judged verdict =>
    cases verdict with
    | accepts =>
      cases h
      exact .inl ⟨rfl, rfl⟩
    | rejects error => cases h
    | raises error =>
      cases h
      exact .inr (.inr ⟨error, rfl⟩)
  | seen fate =>
    obtain ⟨e, -, hraised⟩ := Option.bind_eq_some_iff.mp h
    split at hraised
    · cases hraised
    · cases hraised
      exact .inr (.inr ⟨e, rfl⟩)
  | cancelled =>
    cases h
    exact .inr (.inl ⟨rfl, rfl⟩)
  | started => cases h

theorem Goes.not_httpRests {d : Driver HttpExc Nat} (h : Goes d) :
    ¬ HttpRests bounds statusOk d := by
  intro hrests
  cases h with
  | @turn first hphase =>
    have hcancel := hrests _ _ _ (httpStep_of (a := .turn) rfl (Driver.step_turn hphase))
    simp only [HttpAction.served, List.nil_append, List.mem_map, HttpEvent.driver.injEq,
      exists_eq_right] at hcancel
    exact Driver.attempt_quiet _ d first hcancel
  | wake hphase hpos hdue =>
    have hcancel := hrests _ _ _ (httpStep_of (a := .expire _ ⟨.hangs, .hangs, .hangs, .hangs⟩) rfl
      (Driver.step_expired hphase hpos hdue))
    simp [HttpAction.served] at hcancel
  | @judge code hphase =>
    have haction : (HttpAction.judge 0).toAction statusOk d.phase =
        some (.judge 0 (evaluateStatus statusOk code)) := by
      simp only [HttpAction.toAction, hphase]
    have hcancel := hrests _ _ _ (httpStep_of haction (Driver.step_judge hphase _))
    simp [HttpAction.served] at hcancel
  | slept hphase hpos hdue =>
    have hcancel := hrests _ _ _ (httpStep_of (a := .slept _) rfl
      (Driver.step_slept hphase hpos hdue))
    simp [HttpAction.served] at hcancel

theorem HttpTracked.reports (h : HttpTracked bounds statusOk start d log) :
    HttpReports bounds statusOk start d log := by
  have hreports := h.tracked.reports
  refine ⟨hreports, fun hphase => ?_, fun outcome hphase => ?_, fun hfinite hrests => ?_⟩
  · rcases hreports.ended _ hphase with ⟨ev, hmem, hdecides⟩ | ⟨-, error, -, heq⟩
    · rcases Event.decides_cases hdecides with ⟨rfl, -⟩ | ⟨-, heq⟩ | ⟨error, heq⟩
      · exact h.accepted hmem
      · cases heq
      · cases heq
    · cases heq
  · rcases hreports.ended _ hphase with ⟨ev, hmem, hdecides⟩ | ⟨-, cause, hfailing, heq⟩
    · rcases Event.decides_cases hdecides with ⟨-, heq⟩ | ⟨rfl, heq⟩ | ⟨error, rfl⟩
      · exact .inl heq
      · exact .inr (.inr ⟨heq, hmem⟩)
      · exact absurd hdecides (h.calm ev hmem error)
    · exact .inr (.inl ⟨cause, hfailing, heq⟩)
  · by_contra hlive
    exact (h.tracked.goes hfinite (not_exists.mp hlive)).not_httpRests hrests

theorem HttpTracked.new (bounds : Bounds) (statusOk : Nat → Bool) (start : ℚ) :
    HttpTracked bounds statusOk start (.new (httpRetry bounds) start) [] :=
  ⟨.new _ _, nofun, nofun, nofun⟩

theorem httpPaced {s : Driver HttpExc Nat × Nat}
    (h : (httpMachine bounds statusOk start).counted.Reach (fun _ a => ¬ Escapes a) s log) :
    HttpTracked bounds statusOk start s.1 log ∧ Paced s.1 (driverLog log) s.2 := by
  refine h.invariant (P := fun s log => HttpTracked bounds statusOk start s.1 log ∧
    Paced s.1 (driverLog log) s.2) ⟨.new _ _ _, .new _ _⟩ ?_
  rintro s log a s' evs ⟨ht, hp⟩ hescape hstep
  obtain ⟨hstep, hcount⟩ := Transition.Machine.counted_step hstep
  obtain ⟨action, driven, ha, hdriver, rfl⟩ := httpStep_cases hstep
  rw [hcount, driverLog_append, driverLog_step]
  exact ⟨ht.step hescape hstep, hp.step (.of_step (a.not_masked hescape ha) hdriver)⟩

end

-- ---------------------------------------------------------------------------
-- Two runs
-- ---------------------------------------------------------------------------

def success (code : Nat) : Bool := 200 ≤ code && code < 300

def sshServer : Server :=
  ⟨.done, .done (), .done [83, 83, 72, 45, 50, 46, 48, 45, 120, 13, 10], .done ()⟩

def noContentServer : Server :=
  ⟨.done, .done (), .done [72, 84, 84, 80, 47, 49, 46, 49, 32, 50, 48, 52, 13, 10],
    .fails ⟨"ConnectionResetError", "reset"⟩⟩

def becomesReady : List HttpAction :=
  [.turn, .attempt (1 / 100) sshServer false, .slept (1 / 20), .turn,
    .attempt (1 / 100) noContentServer false, .judge 0]

theorem not_escapes {server : Server} (elapsed : ℚ) (hconnect : server.connect = .done)
    (hreply : server.reply = .done reply) (hshort : lineLength reply ≤ readerLimit) :
    ¬ Escapes (.attempt elapsed server false) := by
  rintro ⟨_, _, _, heq, (⟨error, hunusable⟩ | ⟨-, -, other, hother, hlong⟩) | ⟨hraced, -⟩⟩
  · cases heq
    rw [hconnect] at hunusable
    cases hunusable
  · cases heq
    rw [hreply] at hother
    cases hother
    omega
  · cases heq
    cases hraced

/-- A line of one byte more than the reader takes. -/
def overlongServer : Server :=
  ⟨.done, .done (), .done (List.replicate (readerLimit + 1) 65), .done ()⟩

theorem overlongServer_overlong : overlongServer.Overlong :=
  ⟨rfl, rfl, _, rfl, by simp [lineLength, newline]⟩

end ProcessKit.Aio

import ProcessKit.Runtime.Hub
import ProcessKit.Transition

/-!
# One hub and everyone who touches it

`Hub` is a `CompletionHub` with its socketpair, the callbacks the event loop
has scheduled for it, the operations bridged through it, and what the loop
thread is doing in it. `Hub.step` is one atomic move of one party: a locked
section, or a Python call of the loop thread, whose action says whether it
raises. The loop thread runs one callback at a time, so its moves start only
from `idle`; the runtime's moves interleave with them freely.

The five places that close a hub run the same four calls in the same order
and differ in one thing: two of them ignore what a call raises and three let
it propagate (`CloseBranch.guarded`).
-/

namespace ProcessKit.Runtime

/-- How the armed `sock_recv` task ended. -/
inductive Received
  | byte
  | eof
  | error
  | cancelled
  deriving DecidableEq

inductive CloseBranch
  | cancelled
  | receiveFailed
  | callSoonFailed
  | armFailed
  | idleEmpty
  deriving DecidableEq

/-- The branches written with `let _ =` and `close_hub_reader`; the others
use `?` on the plain calls. -/
def CloseBranch.guarded : CloseBranch → Bool
  | .callSoonFailed | .armFailed => true
  | .cancelled | .receiveFailed | .idleEmpty => false

/-- What the loop thread does next, by the function it is in. -/
inductive LoopPc
  | idle
  -- start_bridge
  | registering
  | attaching (op : Nat)
  | unregistering (op : Nat)
  -- PyCancelCallback
  | cancelRemove (op : Nat)
  | cancelSend (op : Nat)
  | cancelIdle
  | cancelWake
  -- PyHubWakeCallback
  | wakeEnter (received : Received)
  | wakeTake (receiveOk : Bool)
  | wakeDeliver (receiveOk : Bool) (entries : List HubEntry)
  | wakeSchedule
  -- PyHubIdleCallback
  | idleEnter
  | idleArm
  -- closing, from either callback
  | closeReader (branch : CloseBranch)
  | closeState (branch : CloseBranch)
  | closeWriter (branch : CloseBranch) (entries : List HubEntry)
  | closeFutures (branch : CloseBranch) (entries : List HubEntry)
  -- PyCompletionHub::drop, when the loop is collected
  | dropWriter
  deriving DecidableEq

/-- `unread` is the bytes in the socketpair, `armed` the pending receives,
`wakes` and `idles` the callbacks the loop has yet to call. -/
structure Hub extends CompletionHub where
  unread : Nat
  readerClosed : Bool
  armed : Nat
  wakes : List Received
  idles : Nat
  pc : LoopPc
  ops : List Operation

/-- `create_completion_hub`: a fresh hub with its first receive armed. -/
def Hub.new : Hub where
  toCompletionHub := .new
  unread := 0
  readerClosed := false
  armed := 1
  wakes := []
  idles := 0
  pc := .idle
  ops := []

/-- What took an entry out; `drop` is the close of a hub whose loop is gone. -/
inductive Exit
  | takeReady
  | cancel
  | close
  | drop
  deriving DecidableEq

/-- What an operation's history is told from. `completed` carries what
`completeEntry` found in the completion. -/
inductive Event
  | registered (op : Nat) (id : UInt64)
  | left (op : Nat) (id : UInt64) (exit : Exit)
  | stored (op : Nat) (result : PyResult CompletionConverter)
  | published (op : Nat)
  | completed (op : Nat) (found : CompletionState)
  | cancelConsumed (op : Nat)
  | cancelTried (op : Nat)
  deriving DecidableEq

/-- `loop` is the next move of the loop code that is running; `raises` is
whether the Python call it makes raises, or the byte it writes is refused. -/
inductive Action
  -- the loop thread
  | lookup
  | futureCancel (op : Nat)
  | cancelCallback (op : Nat)
  | recv (received : Received)
  | wakeCallback
  | idleCallback
  | loop (raises : Bool)
  | drain (order : List UInt64)
  | collect (order : List UInt64)
  -- the runtime
  | poll (op : Nat) (work : Option (PyResult CompletionConverter))
  | joinFailed (op : Nat) (error : JoinError)
  | store (op : Nat)
  | publish (op : Nat)
  | write (op : Nat) (fails : Bool)
  deriving DecidableEq

/-- The second task's `match worker.await`: `none` is the early return of a
cancelled work. -/
def joinResult : Except JoinError WorkExit → Option (PyResult CompletionConverter)
  | .ok (.completed result) => some result
  | .ok .cancelled => none
  | .error (.panic payload) => some (.error (RustPanic.newErr s!"rust future panicked: {payload}"))
  | .error (.other message) => some (.error (ProcessError.newErr
      s!"the async runtime task ended before producing a result: {message}"))

def Hub.modifyOp (h : Hub) (op : Nat) (f : Operation → Operation) : Hub :=
  { h with ops := h.ops.modify op f }

section
variable (h : Hub)

@[simp] theorem Hub.modifyOp_hub : (h.modifyOp k f).toCompletionHub = h.toCompletionHub := rfl
@[simp] theorem Hub.modifyOp_unread : (h.modifyOp k f).unread = h.unread := rfl
@[simp] theorem Hub.modifyOp_readerClosed : (h.modifyOp k f).readerClosed = h.readerClosed := rfl
@[simp] theorem Hub.modifyOp_armed : (h.modifyOp k f).armed = h.armed := rfl
@[simp] theorem Hub.modifyOp_wakes : (h.modifyOp k f).wakes = h.wakes := rfl
@[simp] theorem Hub.modifyOp_idles : (h.modifyOp k f).idles = h.idles := rfl
@[simp] theorem Hub.modifyOp_pc : (h.modifyOp k f).pc = h.pc := rfl
@[simp] theorem Hub.modifyOp_ops : (h.modifyOp k f).ops = h.ops.modify k f := rfl

end

def leftBy (exit : Exit) (taken : List (UInt64 × HubEntry)) : List Event :=
  taken.map fun t => .left t.2.future t.1 exit

def Hub.cancelEvents (h : Hub) (id : UInt64) : List Event :=
  match h.state.entries.lookup id with
  | some entry => [.left entry.future id .cancel]
  | none => []

/-- The id of an operation, as the closures that captured it hold it. -/
def Hub.idOf (h : Hub) (op : Nat) : UInt64 := (h.ops[op]?.map Operation.id).getD 0

def Hub.writeByte (h : Hub) (fails : Bool) : Hub :=
  let woken := h.toCompletionHub.wake fails
  { h with toCompletionHub := woken.1, unread := if woken.2 then h.unread + 1 else h.unread }

section
variable (h : Hub)

@[simp] theorem Hub.writeByte_state : (h.writeByte fails).state = h.state := h.wake_state
@[simp] theorem Hub.writeByte_nextId : (h.writeByte fails).nextId = h.nextId := h.wake_nextId
@[simp] theorem Hub.writeByte_readerClosed : (h.writeByte fails).readerClosed = h.readerClosed :=
  rfl
@[simp] theorem Hub.writeByte_armed : (h.writeByte fails).armed = h.armed := rfl
@[simp] theorem Hub.writeByte_wakes : (h.writeByte fails).wakes = h.wakes := rfl
@[simp] theorem Hub.writeByte_idles : (h.writeByte fails).idles = h.idles := rfl
@[simp] theorem Hub.writeByte_pc : (h.writeByte fails).pc = h.pc := rfl
@[simp] theorem Hub.writeByte_ops : (h.writeByte fails).ops = h.ops := rfl

theorem Hub.writeByte_unread (hw : (h.writeByte fails).writer = true) :
    h.writer = true ∧ (h.writeByte fails).unread = h.unread + 1 := by
  obtain ⟨hold, hwritten⟩ := h.wake_writer hw
  exact ⟨hold, if_pos hwritten⟩

end

/-- `CancellableWork::poll`: the work is polled before the cancel signal. The
flag is whether the poll consumed the signal. -/
def pollCancellable (op : Operation) (listenForCancel : Bool) :
    Option (PyResult CompletionConverter) → Operation × Bool
  | some result => ({ op with worker := .joined (.ok (.completed result)) }, false)
  | none =>
    if listenForCancel then
      match op.channel with
      | .sent => ({ op with worker := .joined (.ok .cancelled) }, true)
      | .closed => ({ op with worker := .polling false }, false)
      | .open => (op, false)
    else (op, false)

theorem pollCancellable_worker (op : Operation) (listening : Bool)
    (work : Option (PyResult CompletionConverter)) :
    ∃ worker, (pollCancellable op listening work).1 = { op with worker } := by
  unfold pollCancellable
  repeat' split
  all_goals exact ⟨_, rfl⟩

def Hub.loopStep (refuses : PyErr → Option PyErr) (h : Hub) (raises : Bool) :
    Option (Hub × List Event) :=
  match h.pc with
  | .idle | .closeState _ => none
  | .registering =>
    let registered := h.register h.ops.length h.ops.length
    match registered.2 with
    | some id =>
      some ({ h with
          toCompletionHub := registered.1, pc := .attaching h.ops.length,
          ops := h.ops ++ [.new id] },
        [.registered h.ops.length id])
    | none => some ({ h with toCompletionHub := registered.1, pc := .idle }, [])
  | .attaching op =>
    if raises then some ({ h with pc := .unregistering op }, [])
    else some (
      { h.modifyOp op fun o => { o with callback := .attached, worker := .polling true } with
        pc := .idle }, [])
  | .unregistering op =>
    some ({ h with toCompletionHub := h.cancel (h.idOf op), pc := .idle },
      h.cancelEvents (h.idOf op))
  | .cancelRemove op =>
    some ({ h with toCompletionHub := h.cancel (h.idOf op), pc := .cancelSend op },
      h.cancelEvents (h.idOf op))
  | .cancelSend op =>
    some ({ h.modifyOp op fun o => { o with channel := .sent } with pc := .cancelIdle }, [])
  | .cancelIdle =>
    some ({ h with
      toCompletionHub := h.wakeIfIdle.1, pc := if h.wakeIfIdle.2 then .cancelWake else .idle }, [])
  | .cancelWake => some ({ h.writeByte raises with pc := .idle }, [])
  | .wakeEnter received =>
    if raises then some ({ h with pc := .idle }, [])
    else if received = .cancelled then some ({ h with pc := .closeReader .cancelled }, [])
    else some ({ h with pc := .wakeTake (received ≠ .error) }, [])
  | .wakeTake receiveOk =>
    some ({ h with
        toCompletionHub := h.takeReady.1,
        pc := .wakeDeliver receiveOk (h.takeReady.2.map Prod.snd) },
      leftBy .takeReady h.takeReady.2)
  | .wakeDeliver receiveOk (entry :: rest) =>
    some ({ h with
        ops := (completeEntry refuses h.ops entry).1, pc := .wakeDeliver receiveOk rest },
      [.completed entry.future (completionAt h.ops entry.completion)])
  | .wakeDeliver receiveOk [] =>
    some ({ h with pc := if receiveOk then .wakeSchedule else .closeReader .receiveFailed }, [])
  | .wakeSchedule =>
    if raises then some ({ h with pc := .closeReader .callSoonFailed }, [])
    else some ({ h with idles := h.idles + 1, pc := .idle }, [])
  | .idleEnter =>
    some ({ h with pc := if h.hasEntries then .idleArm else .closeReader .idleEmpty }, [])
  | .idleArm =>
    if raises then some ({ h with pc := .closeReader .armFailed }, [])
    else some ({ h with armed := h.armed + 1, pc := .idle }, [])
  | .closeReader branch =>
    if raises && !branch.guarded then some ({ h with pc := .idle }, [])
    else some ({ h with readerClosed := true, pc := .closeState branch }, [])
  | .closeWriter branch entries =>
    some ({ h with toCompletionHub := h.closeWriter, pc := .closeFutures branch entries }, [])
  | .closeFutures branch (entry :: rest) =>
    if raises then
      some ({ h with pc := if branch.guarded then .closeFutures branch rest else .idle },
        [.cancelTried entry.future])
    else
      some ({ h.modifyOp entry.future Operation.cancel with pc := .closeFutures branch rest },
        [.cancelTried entry.future])
  | .closeFutures _ [] => some ({ h with pc := .idle }, [])
  | .dropWriter =>
    some ({ h with toCompletionHub := h.closeWriter, readerClosed := true, pc := .idle }, [])

def Hub.step (refuses : PyErr → Option PyErr) (h : Hub) : Action → Option (Hub × List Event)
  | .lookup => if h.pc = .idle ∧ !h.isClosed then some ({ h with pc := .registering }, []) else none
  | .futureCancel op => if h.pc = .idle then some (h.modifyOp op Operation.cancel, []) else none
  | .cancelCallback op =>
    match h.pc, h.ops[op]? with
    | .idle, some o =>
      if o.callback = .scheduled then
        -- Called on a future that is done but not cancelled, the callback only
        -- goes away, and its sender with it.
        if o.future = .cancelled then
          some ({ h.modifyOp op fun o => { o with callback := .called } with
            pc := .cancelRemove op }, [])
        else some (h.modifyOp op fun o => { o with callback := .called, channel := .closed }, [])
      else none
    | _, _ => none
  | .recv received =>
    if 0 < h.armed then
      let h := { h with armed := h.armed - 1, wakes := h.wakes ++ [received] }
      match received with
      | .byte => if 0 < h.unread then some ({ h with unread := h.unread - 1 }, []) else none
      | .eof => if h.unread = 0 ∧ !h.writer then some (h, []) else none
      | .error | .cancelled => some (h, [])
    else none
  | .wakeCallback =>
    match h.pc, h.wakes with
    | .idle, received :: wakes => some ({ h with wakes, pc := .wakeEnter received }, [])
    | _, _ => none
  | .idleCallback =>
    if h.pc = .idle ∧ 0 < h.idles then some ({ h with idles := h.idles - 1, pc := .idleEnter }, [])
    else none
  | .loop raises => h.loopStep refuses raises
  | .drain order =>
    match h.pc with
    | .closeState branch =>
      if order.Perm h.state.entries.keys then
        let closed := h.closeState order
        some ({ h with
          toCompletionHub := closed.1, pc := .closeWriter branch (closed.2.map Prod.snd) },
          leftBy .close closed.2)
      else none
    | _ => none
  | .collect order =>
    -- The loop is gone, and with it every callback it had scheduled.
    if h.pc = .idle ∧ order.Perm h.state.entries.keys then
      let closed := h.closeState order
      some ({ h with
          toCompletionHub := closed.1, armed := 0, wakes := [], idles := 0, pc := .dropWriter },
        leftBy .drop closed.2)
    else none
  | .poll op work =>
    match h.ops[op]? with
    | some o =>
      match o.worker with
      | .polling listenForCancel =>
        let polled := pollCancellable o listenForCancel work
        some (h.modifyOp op fun _ => polled.1, if polled.2 then [.cancelConsumed op] else [])
      | _ => none
    | none => none
  | .joinFailed op error =>
    match h.ops[op]? with
    | some o =>
      match o.worker with
      | .polling _ => some (h.modifyOp op fun o => { o with worker := .joined (.error error) }, [])
      | _ => none
    | none => none
  | .store op =>
    match h.ops[op]? with
    | some o =>
      match o.worker with
      | .joined exit =>
        match joinResult exit with
        | some result =>
          some (h.modifyOp op fun o => { o with completion := .ready result, worker := .stored },
            [.stored op result])
        | none => some (h.modifyOp op fun o => { o with worker := .returned }, [])
      | _ => none
    | none => none
  | .publish op =>
    match h.ops[op]? with
    | some o =>
      if o.worker = .stored then
        let published := h.publish o.id
        some (
          { h.modifyOp op fun p =>
              { p with worker := if published.2 then .waking else .returned } with
            toCompletionHub := published.1 },
          if h.publishes o.id then [.published op] else [])
      else none
    | none => none
  | .write op fails =>
    match h.ops[op]? with
    | some o =>
      if o.worker = .waking then
        some ((h.modifyOp op fun o => { o with worker := .returned }).writeByte fails, [])
      else none
    | none => none

/-- The machine of one hub, for one `set_exception`. -/
def Hub.machine (refuses : PyErr → Option PyErr) : Transition.Machine Hub Action Event where
  init := .new
  step := Hub.step refuses

-- ---------------------------------------------------------------------------
-- What settles a future leaves its tasks alone
-- ---------------------------------------------------------------------------

section
variable (o : Operation)

@[simp] theorem Operation.settle_worker : (o.settle f).worker = o.worker := rfl
@[simp] theorem Operation.settle_id : (o.settle f).id = o.id := rfl
@[simp] theorem Operation.settle_completion : (o.settle f).completion = o.completion := rfl

@[simp] theorem Operation.cancel_worker : o.cancel.worker = o.worker := by
  unfold Operation.cancel; split <;> rfl

@[simp] theorem Operation.cancel_id : o.cancel.id = o.id := by
  unfold Operation.cancel; split <;> rfl

@[simp] theorem Operation.cancel_completion : o.cancel.completion = o.completion := by
  unfold Operation.cancel; split <;> rfl

end

theorem completeEntry_map (refuses : PyErr → Option PyErr) (ops : List Operation)
    (entry : HubEntry) {β : Type} (g : Operation → β)
    (hcompletion : ∀ o, g { o with completion := .pending } = g o)
    (hsettle : ∀ o f, g (o.settle f) = g o) :
    (completeEntry refuses ops entry).1.map g = ops.map g := by
  have hmodify (l : List Operation) (k : Nat) (f : Operation → Operation)
      (hf : ∀ o, g (f o) = g o) :
      (l.modify k f).map g = l.map g := by
    apply List.ext_getElem?
    intro i
    simp only [List.getElem?_map, List.getElem?_modify, Option.map_eq_map, Option.map_map]
    congr 1
    funext o
    simp only [Function.comp]
    split <;> simp [hf]
  rcases completeEntry_cases refuses ops entry with ⟨-, h⟩ | ⟨-, ⟨-, h⟩ | ⟨_, _, -, -, h⟩⟩
  · rw [h]
  · rw [h, hmodify _ _ _ (hsettle · _), hmodify _ _ _ hcompletion]
  · rw [h, hmodify _ _ _ hcompletion]

@[simp] theorem completeEntry_length (refuses : PyErr → Option PyErr) (ops : List Operation)
    (entry : HubEntry) : (completeEntry refuses ops entry).1.length = ops.length := by
  simpa using congrArg List.length
    (completeEntry_map refuses ops entry Operation.id (fun _ => rfl) fun _ _ => rfl)

-- ---------------------------------------------------------------------------
-- What a step can do
-- ---------------------------------------------------------------------------

/-- `Hub.step` read as a relation, one rule for each atomic move. -/
inductive Step (refuses : PyErr → Option PyErr) : Hub → Action → Hub → List Event → Prop
  | lookup : h.pc = .idle → h.state.closed = false →
      Step refuses h .lookup { h with pc := .registering } []
  | register : h.pc = .registering → (h.register h.ops.length h.ops.length).2 = some fresh →
      Step refuses h (.loop r)
        { h with
          toCompletionHub := (h.register h.ops.length h.ops.length).1
          pc := .attaching h.ops.length
          ops := h.ops ++ [.new fresh] }
        [.registered h.ops.length fresh]
  | registerClosed : h.pc = .registering → (h.register h.ops.length h.ops.length).2 = none →
      Step refuses h (.loop r)
        { h with toCompletionHub := (h.register h.ops.length h.ops.length).1, pc := .idle } []
  | attachRaises : h.pc = .attaching op →
      Step refuses h (.loop true) { h with pc := .unregistering op } []
  | attach : h.pc = .attaching op →
      Step refuses h (.loop false)
        { h.modifyOp op fun o => { o with callback := .attached, worker := .polling true } with
          pc := .idle } []
  | unregister : h.pc = .unregistering op →
      Step refuses h (.loop r) { h with toCompletionHub := h.cancel (h.idOf op), pc := .idle }
        (h.cancelEvents (h.idOf op))
  | futureCancel : h.pc = .idle →
      Step refuses h (.futureCancel op) (h.modifyOp op Operation.cancel) []
  | cancelCallback : h.pc = .idle → h.ops[op]? = some o → o.callback = .scheduled →
      o.future = .cancelled →
      Step refuses h (.cancelCallback op)
        { h.modifyOp op fun o => { o with callback := .called } with pc := .cancelRemove op } []
  | doneCallback : h.pc = .idle → h.ops[op]? = some o → o.callback = .scheduled →
      o.future ≠ .cancelled →
      Step refuses h (.cancelCallback op)
        (h.modifyOp op fun o => { o with callback := .called, channel := .closed }) []
  | cancelRemove : h.pc = .cancelRemove op →
      Step refuses h (.loop r)
        { h with toCompletionHub := h.cancel (h.idOf op), pc := .cancelSend op }
        (h.cancelEvents (h.idOf op))
  | cancelSend : h.pc = .cancelSend op →
      Step refuses h (.loop r)
        { h.modifyOp op fun o => { o with channel := .sent } with pc := .cancelIdle } []
  | cancelIdle : h.pc = .cancelIdle →
      Step refuses h (.loop r)
        { h with
          toCompletionHub := h.wakeIfIdle.1,
          pc := if h.wakeIfIdle.2 then .cancelWake else .idle } []
  | cancelWake : h.pc = .cancelWake → Step refuses h (.loop r) { h.writeByte r with pc := .idle } []
  | recvByte : 0 < h.armed → 0 < h.unread →
      Step refuses h (.recv .byte)
        { h with armed := h.armed - 1, wakes := h.wakes ++ [.byte], unread := h.unread - 1 } []
  | recvEof : 0 < h.armed → h.unread = 0 → h.writer = false →
      Step refuses h (.recv .eof) { h with armed := h.armed - 1, wakes := h.wakes ++ [.eof] } []
  | recvFails : 0 < h.armed → received = .error ∨ received = .cancelled →
      Step refuses h (.recv received)
        { h with armed := h.armed - 1, wakes := h.wakes ++ [received] } []
  | wakeCallback : h.pc = .idle → h.wakes = received :: wakes →
      Step refuses h .wakeCallback { h with wakes, pc := .wakeEnter received } []
  | idleCallback : h.pc = .idle → 0 < h.idles →
      Step refuses h .idleCallback { h with idles := h.idles - 1, pc := .idleEnter } []
  | wakeRaises : h.pc = .wakeEnter received → Step refuses h (.loop true) { h with pc := .idle } []
  | wakeCancelled : h.pc = .wakeEnter .cancelled →
      Step refuses h (.loop false) { h with pc := .closeReader .cancelled } []
  | wakeResult : h.pc = .wakeEnter received → received ≠ .cancelled →
      Step refuses h (.loop false) { h with pc := .wakeTake (received ≠ .error) } []
  | takeReady : h.pc = .wakeTake receiveOk →
      Step refuses h (.loop r)
        { h with
          toCompletionHub := h.takeReady.1
          pc := .wakeDeliver receiveOk (h.takeReady.2.map Prod.snd) }
        (leftBy .takeReady h.takeReady.2)
  | deliver : h.pc = .wakeDeliver receiveOk (entry :: rest) →
      Step refuses h (.loop r)
        { h with ops := (completeEntry refuses h.ops entry).1, pc := .wakeDeliver receiveOk rest }
        [.completed entry.future (completionAt h.ops entry.completion)]
  | delivered : h.pc = .wakeDeliver receiveOk [] →
      Step refuses h (.loop r)
        { h with pc := if receiveOk then .wakeSchedule else .closeReader .receiveFailed } []
  | scheduleRaises : h.pc = .wakeSchedule →
      Step refuses h (.loop true) { h with pc := .closeReader .callSoonFailed } []
  | schedule : h.pc = .wakeSchedule →
      Step refuses h (.loop false) { h with idles := h.idles + 1, pc := .idle } []
  | idleEnter : h.pc = .idleEnter →
      Step refuses h (.loop r)
        { h with pc := if h.hasEntries then .idleArm else .closeReader .idleEmpty } []
  | armRaises : h.pc = .idleArm →
      Step refuses h (.loop true) { h with pc := .closeReader .armFailed } []
  | arm : h.pc = .idleArm →
      Step refuses h (.loop false) { h with armed := h.armed + 1, pc := .idle } []
  | closeReaderRaises : h.pc = .closeReader branch → branch.guarded = false →
      Step refuses h (.loop true) { h with pc := .idle } []
  | closeReader : h.pc = .closeReader branch → (r && !branch.guarded) = false →
      Step refuses h (.loop r) { h with readerClosed := true, pc := .closeState branch } []
  | closeState : h.pc = .closeState branch → order.Perm h.state.entries.keys →
      Step refuses h (.drain order)
        { h with
          toCompletionHub := (h.closeState order).1
          pc := .closeWriter branch ((h.closeState order).2.map Prod.snd) }
        (leftBy .close (h.closeState order).2)
  | closeWriter : h.pc = .closeWriter branch entries →
      Step refuses h (.loop r)
        { h with toCompletionHub := h.closeWriter, pc := .closeFutures branch entries } []
  | closeFuture : h.pc = .closeFutures branch (entry :: rest) →
      Step refuses h (.loop false)
        { h.modifyOp entry.future Operation.cancel with pc := .closeFutures branch rest }
        [.cancelTried entry.future]
  | closeFutureRaises : h.pc = .closeFutures branch (entry :: rest) →
      Step refuses h (.loop true)
        { h with pc := if branch.guarded then .closeFutures branch rest else .idle }
        [.cancelTried entry.future]
  | closeDone : h.pc = .closeFutures branch [] → Step refuses h (.loop r) { h with pc := .idle } []
  | collect : h.pc = .idle → order.Perm h.state.entries.keys →
      Step refuses h (.collect order)
        { h with
          toCompletionHub := (h.closeState order).1
          armed := 0, wakes := [], idles := 0, pc := .dropWriter }
        (leftBy .drop (h.closeState order).2)
  | dropWriter : h.pc = .dropWriter →
      Step refuses h (.loop r)
        { h with toCompletionHub := h.closeWriter, readerClosed := true, pc := .idle } []
  | poll : h.ops[op]? = some o → o.worker = .polling listening →
      Step refuses h (.poll op work) (h.modifyOp op fun _ => (pollCancellable o listening work).1)
        (if (pollCancellable o listening work).2 then [.cancelConsumed op] else [])
  | joinFailed : h.ops[op]? = some o → o.worker = .polling listening →
      Step refuses h (.joinFailed op error)
        (h.modifyOp op fun o => { o with worker := .joined (.error error) }) []
  | store : h.ops[op]? = some o → o.worker = .joined exit → joinResult exit = some result →
      Step refuses h (.store op)
        (h.modifyOp op fun o => { o with completion := .ready result, worker := .stored })
        [.stored op result]
  | storeCancelled : h.ops[op]? = some o → o.worker = .joined exit → joinResult exit = none →
      Step refuses h (.store op) (h.modifyOp op fun o => { o with worker := .returned }) []
  | publish : h.ops[op]? = some o → o.worker = .stored →
      Step refuses h (.publish op)
        { h.modifyOp op fun p =>
            { p with worker := if (h.publish o.id).2 then .waking else .returned } with
          toCompletionHub := (h.publish o.id).1 }
        (if h.publishes o.id then [.published op] else [])
  | write : h.ops[op]? = some o → o.worker = .waking →
      Step refuses h (.write op fails)
        ((h.modifyOp op fun o => { o with worker := .returned }).writeByte fails) []

variable {refuses : PyErr → Option PyErr}

theorem Step.of_loopStep {h h' : Hub} (hs : h.loopStep refuses r = some (h', evs)) :
    Step refuses h (.loop r) h' evs := by
  cases hpc : h.pc with
  | idle => simp [Hub.loopStep, hpc] at hs
  | registering =>
    simp only [Hub.loopStep, hpc] at hs
    split at hs <;> cases hs
    · exact .register hpc ‹_›
    · exact .registerClosed hpc ‹_›
  | attaching op =>
    simp only [Hub.loopStep, hpc] at hs
    cases r <;> cases hs
    · exact .attach hpc
    · exact .attachRaises hpc
  | unregistering op =>
    simp only [Hub.loopStep, hpc] at hs
    cases hs; exact .unregister hpc
  | cancelRemove op =>
    simp only [Hub.loopStep, hpc] at hs
    cases hs; exact .cancelRemove hpc
  | cancelSend op =>
    simp only [Hub.loopStep, hpc] at hs
    cases hs; exact .cancelSend hpc
  | cancelIdle =>
    simp only [Hub.loopStep, hpc] at hs
    cases hs; exact .cancelIdle hpc
  | cancelWake =>
    simp only [Hub.loopStep, hpc] at hs
    cases hs; exact .cancelWake hpc
  | wakeEnter received =>
    simp only [Hub.loopStep, hpc] at hs
    cases r with
    | true => cases hs; exact .wakeRaises hpc
    | false =>
      simp only [Bool.false_eq_true, if_false] at hs
      split at hs <;> cases hs
      · rename_i hc; subst hc; exact .wakeCancelled hpc
      · exact .wakeResult hpc ‹_›
  | wakeTake receiveOk =>
    simp only [Hub.loopStep, hpc] at hs
    cases hs; exact .takeReady hpc
  | wakeDeliver receiveOk entries =>
    cases entries with
    | nil =>
      simp only [Hub.loopStep, hpc] at hs
      cases hs; exact .delivered hpc
    | cons entry rest =>
      simp only [Hub.loopStep, hpc] at hs
      cases hs; exact .deliver hpc
  | wakeSchedule =>
    simp only [Hub.loopStep, hpc] at hs
    cases r <;> cases hs
    · exact .schedule hpc
    · exact .scheduleRaises hpc
  | idleEnter =>
    simp only [Hub.loopStep, hpc] at hs
    cases hs; exact .idleEnter hpc
  | idleArm =>
    simp only [Hub.loopStep, hpc] at hs
    cases r <;> cases hs
    · exact .arm hpc
    · exact .armRaises hpc
  | closeReader branch =>
    simp only [Hub.loopStep, hpc] at hs
    split at hs <;> cases hs
    · rename_i hr
      obtain ⟨rfl, hg⟩ := by simpa using hr
      exact .closeReaderRaises hpc hg
    · exact .closeReader hpc ((Bool.not_eq_true _).mp ‹_›)
  | closeState branch => simp [Hub.loopStep, hpc] at hs
  | closeWriter branch entries =>
    simp only [Hub.loopStep, hpc] at hs
    cases hs; exact .closeWriter hpc
  | closeFutures branch entries =>
    cases entries with
    | nil =>
      simp only [Hub.loopStep, hpc] at hs
      cases hs; exact .closeDone hpc
    | cons entry rest =>
      simp only [Hub.loopStep, hpc] at hs
      cases r <;> cases hs
      · exact .closeFuture hpc
      · exact .closeFutureRaises hpc
  | dropWriter =>
    simp only [Hub.loopStep, hpc] at hs
    cases hs; exact .dropWriter hpc

/-- Every move of the machine is one of the rules. -/
theorem Step.of_step {h h' : Hub} (hs : h.step refuses a = some (h', evs)) :
    Step refuses h a h' evs := by
  cases a with
  | lookup =>
    simp only [Hub.step] at hs
    split at hs <;> cases hs
    rename_i hc
    exact .lookup hc.1 (by simpa [CompletionHub.isClosed] using hc.2)
  | futureCancel op =>
    simp only [Hub.step] at hs
    split at hs <;> cases hs
    exact .futureCancel ‹_›
  | cancelCallback op =>
    simp only [Hub.step] at hs
    split at hs
    · rename_i o hpc hop
      split at hs
      · split at hs <;> cases hs
        · exact .cancelCallback hpc hop ‹_› ‹_›
        · exact .doneCallback hpc hop ‹_› ‹_›
      · cases hs
    · cases hs
  | recv received =>
    simp only [Hub.step] at hs
    split at hs
    · rename_i harmed
      cases received with
      | byte =>
        simp only at hs
        split at hs <;> cases hs
        exact .recvByte harmed ‹_›
      | eof =>
        simp only at hs
        split at hs <;> cases hs
        rename_i hc
        exact .recvEof harmed hc.1 (by simpa using hc.2)
      | error => cases hs; exact .recvFails harmed (.inl rfl)
      | cancelled => cases hs; exact .recvFails harmed (.inr rfl)
    · cases hs
  | wakeCallback =>
    simp only [Hub.step] at hs
    split at hs <;> cases hs
    exact .wakeCallback ‹_› ‹_›
  | idleCallback =>
    simp only [Hub.step] at hs
    split at hs <;> cases hs
    rename_i hc
    exact .idleCallback hc.1 hc.2
  | loop raises => exact .of_loopStep hs
  | drain order =>
    simp only [Hub.step] at hs
    split at hs
    · split at hs <;> cases hs
      exact .closeState ‹_› ‹_›
    · cases hs
  | collect order =>
    simp only [Hub.step] at hs
    split at hs <;> cases hs
    rename_i hc
    exact .collect hc.1 hc.2
  | poll op work =>
    simp only [Hub.step] at hs
    split at hs
    · split at hs <;> cases hs
      exact .poll ‹_› ‹_›
    · cases hs
  | joinFailed op error =>
    simp only [Hub.step] at hs
    split at hs
    · split at hs <;> cases hs
      exact .joinFailed ‹_› ‹_›
    · cases hs
  | store op =>
    simp only [Hub.step] at hs
    split at hs
    · split at hs
      · split at hs <;> cases hs
        · exact .store ‹_› ‹_› ‹_›
        · exact .storeCancelled ‹_› ‹_› ‹_›
      · cases hs
    · cases hs
  | publish op =>
    simp only [Hub.step] at hs
    split at hs
    · split at hs <;> cases hs
      exact .publish ‹_› ‹_›
    · cases hs
  | write op fails =>
    simp only [Hub.step] at hs
    split at hs
    · split at hs <;> cases hs
      exact .write ‹_› ‹_›
    · cases hs

end ProcessKit.Runtime

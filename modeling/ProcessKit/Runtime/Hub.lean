import Mathlib.Data.List.AList

/-!
# The completion hub

`CompletionHub` and the operations its callers run on it, one definition for
each locked section: a method that takes the state lock and then, separately,
the writer lock is two definitions here. `publish` and `wakeIfIdle` return
whether their caller has to write the wake byte next.

`completeEntry` is the event loop's side of one drained entry. An entry names
its future and its completion by their position in the list of operations, so
that taking the wrong entry would settle the wrong future.
-/

namespace ProcessKit.Runtime

-- ---------------------------------------------------------------------------
-- Python values, exceptions and futures
-- ---------------------------------------------------------------------------

/-- A Python exception: the name of its type and its message. -/
structure PyErr where
  type : String
  message : String
  deriving DecidableEq, Repr

abbrev PyResult (α : Type) := Except PyErr α

/-- The identity of a Python object. -/
abbrev PyObject := Nat

def ProcessError.newErr (message : String) : PyErr := ⟨"ProcessError", message⟩
def ValueError.newErr (message : String) : PyErr := ⟨"ValueError", message⟩
def RustPanic.newErr (message : String) : PyErr := ⟨"RustPanic", message⟩

/-- A completed value waiting for the loop thread, as what `convert` returns
when the loop thread calls it. -/
structure CompletionConverter where
  convert : PyResult PyObject
  deriving DecidableEq

inductive FutureState
  | pending
  | cancelled
  | result (value : PyObject)
  | exception (error : PyErr)
  deriving DecidableEq

def FutureState.done : FutureState → Bool
  | .pending => false
  | _ => true

inductive CompletionState
  | pending
  | ready (result : PyResult CompletionConverter)
  deriving DecidableEq

/-- What the awaiting coroutine is to see: the stored error, or else what
the converter returns or raises. -/
def outcome (result : PyResult CompletionConverter) : PyResult PyObject :=
  result.bind (·.convert)

-- ---------------------------------------------------------------------------
-- The hub
-- ---------------------------------------------------------------------------

structure HubEntry where
  future : Nat
  completion : Nat
  deriving DecidableEq, Repr

structure HubState where
  entries : AList fun _ : UInt64 => HubEntry
  ready : List UInt64
  wakeOutstanding : Bool
  closed : Bool

/-- `writer` is whether the slot still holds the Rust end of the socket. -/
structure CompletionHub where
  nextId : UInt64
  state : HubState
  writer : Bool

def CompletionHub.new : CompletionHub where
  nextId := 1
  state := { entries := ∅, ready := [], wakeOutstanding := false, closed := false }
  writer := true

namespace CompletionHub

/-- The counter is taken before the lock, so a closed hub spends an id too.
`fetch_add` on an `AtomicU64` wraps. -/
def register (hub : CompletionHub) (future completion : Nat) : CompletionHub × Option UInt64 :=
  if hub.state.closed then ({ hub with nextId := hub.nextId + 1 }, none)
  else
    ({ hub with
      nextId := hub.nextId + 1
      state.entries := hub.state.entries.insert hub.nextId ⟨future, completion⟩ }, some hub.nextId)

def cancel (hub : CompletionHub) (id : UInt64) : CompletionHub :=
  { hub with state.entries := hub.state.entries.erase id }

/-- Whether `publish` enqueues the id: the hub is open and the operation has
not been taken out. -/
def publishes (hub : CompletionHub) (id : UInt64) : Bool :=
  !(hub.state.closed || (hub.state.entries.lookup id).isNone)

def publish (hub : CompletionHub) (id : UInt64) : CompletionHub × Bool :=
  if hub.publishes id then
    ({ hub with state.ready := hub.state.ready ++ [id], state.wakeOutstanding := true },
      !hub.state.wakeOutstanding)
  else (hub, false)

def wakeIfIdle (hub : CompletionHub) : CompletionHub × Bool :=
  if hub.state.closed || !hub.state.entries.keys.isEmpty || hub.state.wakeOutstanding then
    (hub, false)
  else ({ hub with state.wakeOutstanding := true }, true)

/-- `wake`: the byte reaches the socket when the slot has a writer and the
write succeeds; a failed write drops the writer. -/
def wake (hub : CompletionHub) (fails : Bool) : CompletionHub × Bool :=
  if hub.writer then
    if fails then ({ hub with writer := false }, false) else (hub, true)
  else (hub, false)

/-- Remove the entries of the drained ids, in their order, skipping the ids
that have none. -/
def removeAll : List UInt64 → AList (fun _ : UInt64 => HubEntry) →
    List (UInt64 × HubEntry) × AList fun _ : UInt64 => HubEntry
  | [], entries => ([], entries)
  | id :: ids, entries =>
    match entries.lookup id with
    | some entry =>
      let rest := removeAll ids (entries.erase id)
      ((id, entry) :: rest.1, rest.2)
    | none => removeAll ids entries

/-- The entries come with the ids they were filed under. -/
def takeReady (hub : CompletionHub) : CompletionHub × List (UInt64 × HubEntry) :=
  let removed := removeAll hub.state.ready hub.state.entries
  ({ hub with
      state := { hub.state with entries := removed.2, ready := [], wakeOutstanding := false } },
    removed.1)

/-- The state section of `close`. A `HashMap` drains in no particular order:
`order` is the order it takes. -/
def closeState (hub : CompletionHub) (order : List UInt64) :
    CompletionHub × List (UInt64 × HubEntry) :=
  ({ hub with state := { entries := ∅, ready := [], wakeOutstanding := false, closed := true } },
    order.filterMap fun id => (hub.state.entries.lookup id).map (id, ·))

def closeWriter (hub : CompletionHub) : CompletionHub := { hub with writer := false }

def isClosed (hub : CompletionHub) : Bool := hub.state.closed

def hasEntries (hub : CompletionHub) : Bool := !hub.state.entries.keys.isEmpty

-- ---------------------------------------------------------------------------
-- What each section leaves alone
-- ---------------------------------------------------------------------------

section
variable (hub : CompletionHub)

@[simp] theorem register_closed : (hub.register f c).1.state.closed = hub.state.closed := by
  unfold register; split <;> rfl

@[simp] theorem register_ready : (hub.register f c).1.state.ready = hub.state.ready := by
  unfold register; split <;> rfl

@[simp] theorem register_wakeOutstanding :
    (hub.register f c).1.state.wakeOutstanding = hub.state.wakeOutstanding := by
  unfold register; split <;> rfl

@[simp] theorem register_writer : (hub.register f c).1.writer = hub.writer := by
  unfold register; split <;> rfl

@[simp] theorem cancel_closed : (hub.cancel i).state.closed = hub.state.closed := rfl
@[simp] theorem cancel_ready : (hub.cancel i).state.ready = hub.state.ready := rfl
@[simp] theorem cancel_entries :
    (hub.cancel i).state.entries = hub.state.entries.erase i := rfl
@[simp] theorem cancel_wakeOutstanding :
    (hub.cancel i).state.wakeOutstanding = hub.state.wakeOutstanding := rfl
@[simp] theorem cancel_writer : (hub.cancel i).writer = hub.writer := rfl
@[simp] theorem cancel_nextId : (hub.cancel i).nextId = hub.nextId := rfl

theorem publishes_iff : hub.publishes i = true ↔
    hub.state.closed = false ∧ ∃ entry, hub.state.entries.lookup i = some entry := by
  simp [publishes, Option.isSome_iff_exists]

theorem publish_pos (h : hub.publishes i = true) :
    hub.publish i = ({ hub with
      state.ready := hub.state.ready ++ [i], state.wakeOutstanding := true },
      !hub.state.wakeOutstanding) := if_pos h

theorem publish_neg (h : hub.publishes i = false) : hub.publish i = (hub, false) := by
  simp [publish, h]

@[simp] theorem publish_closed : (hub.publish i).1.state.closed = hub.state.closed := by
  unfold publish; split <;> rfl

@[simp] theorem publish_entries : (hub.publish i).1.state.entries = hub.state.entries := by
  unfold publish; split <;> rfl

@[simp] theorem publish_writer : (hub.publish i).1.writer = hub.writer := by
  unfold publish; split <;> rfl

@[simp] theorem publish_nextId : (hub.publish i).1.nextId = hub.nextId := by
  unfold publish; split <;> rfl

@[simp] theorem wakeIfIdle_closed : hub.wakeIfIdle.1.state.closed = hub.state.closed := by
  unfold wakeIfIdle; split <;> rfl

@[simp] theorem wakeIfIdle_ready : hub.wakeIfIdle.1.state.ready = hub.state.ready := by
  unfold wakeIfIdle; split <;> rfl

@[simp] theorem wakeIfIdle_entries : hub.wakeIfIdle.1.state.entries = hub.state.entries := by
  unfold wakeIfIdle; split <;> rfl

@[simp] theorem wakeIfIdle_writer : hub.wakeIfIdle.1.writer = hub.writer := by
  unfold wakeIfIdle; split <;> rfl

@[simp] theorem wakeIfIdle_nextId : hub.wakeIfIdle.1.nextId = hub.nextId := by
  unfold wakeIfIdle; split <;> rfl

/-- The flag `wakeIfIdle` sets is one nobody had set, on an open hub. -/
theorem wakeIfIdle_flag : (hub.wakeIfIdle.2 = true ∧ hub.state.closed = false ∧
    hub.state.wakeOutstanding = false ∧ hub.wakeIfIdle.1.state.wakeOutstanding = true) ∨
    (hub.wakeIfIdle.2 = false ∧
      hub.wakeIfIdle.1.state.wakeOutstanding = hub.state.wakeOutstanding) := by
  unfold wakeIfIdle
  split
  · exact .inr ⟨rfl, rfl⟩
  · rename_i h
    simp only [Bool.or_eq_true, not_or, Bool.not_eq_true] at h
    exact .inl ⟨rfl, h.1.1, h.2, rfl⟩

@[simp] theorem wake_state : (hub.wake fails).1.state = hub.state := by
  unfold wake; split <;> (try split) <;> rfl

@[simp] theorem wake_nextId : (hub.wake fails).1.nextId = hub.nextId := by
  unfold wake; split <;> (try split) <;> rfl

theorem wake_writer (h : (hub.wake fails).1.writer = true) :
    hub.writer = true ∧ (hub.wake fails).2 = true := by
  unfold wake at h ⊢
  split at h
  · rename_i hw
    split at h
    · cases h
    · rename_i hf; simp [hw, hf]
  · rename_i hw; exact absurd h hw

@[simp] theorem takeReady_closed : hub.takeReady.1.state.closed = hub.state.closed := rfl
@[simp] theorem takeReady_ready : hub.takeReady.1.state.ready = [] := rfl
@[simp] theorem takeReady_wakeOutstanding :
    hub.takeReady.1.state.wakeOutstanding = false := rfl
@[simp] theorem takeReady_writer : hub.takeReady.1.writer = hub.writer := rfl
@[simp] theorem takeReady_nextId : hub.takeReady.1.nextId = hub.nextId := rfl

@[simp] theorem closeState_closed : (hub.closeState order).1.state.closed = true := rfl
@[simp] theorem closeState_ready : (hub.closeState order).1.state.ready = [] := rfl
@[simp] theorem closeState_entries : (hub.closeState order).1.state.entries = ∅ := rfl
@[simp] theorem closeState_wakeOutstanding :
    (hub.closeState order).1.state.wakeOutstanding = false := rfl
@[simp] theorem closeState_writer : (hub.closeState order).1.writer = hub.writer := rfl
@[simp] theorem closeState_nextId : (hub.closeState order).1.nextId = hub.nextId := rfl

@[simp] theorem closeWriter_state : hub.closeWriter.state = hub.state := rfl
@[simp] theorem closeWriter_writer : hub.closeWriter.writer = false := rfl
@[simp] theorem closeWriter_nextId : hub.closeWriter.nextId = hub.nextId := rfl

end

end CompletionHub

-- ---------------------------------------------------------------------------
-- Operations and the completion of one entry
-- ---------------------------------------------------------------------------

/-- The oneshot channel from the done-callback to the runtime work. `closed`
is a sender dropped without sending. -/
inductive CancelChannel
  | open
  | sent
  | closed
  deriving DecidableEq

inductive DoneCallback
  | unattached
  | attached
  | scheduled
  | called
  deriving DecidableEq

inductive WorkExit
  | completed (result : PyResult CompletionConverter)
  | cancelled
  deriving DecidableEq

inductive JoinError
  | panic (payload : String)
  | other (message : String)
  deriving DecidableEq

/-- Where the runtime is with an operation: polling its `CancellableWork`,
then the task that awaits it, stores the outcome and publishes the id. -/
inductive WorkerPc
  | unspawned
  | polling (listenForCancel : Bool)
  | joined (exit : Except JoinError WorkExit)
  | stored
  | waking
  | returned
  deriving DecidableEq

/-- One `start_bridge` call: its future, its completion, its channel, the
callback on the future and the tasks it spawned. -/
structure Operation where
  id : UInt64
  future : FutureState
  completion : CompletionState
  channel : CancelChannel
  callback : DoneCallback
  worker : WorkerPc

def Operation.new (id : UInt64) : Operation where
  id
  future := .pending
  completion := .pending
  channel := .open
  callback := .unattached
  worker := .unspawned

/-- A future that becomes done schedules its done-callback. -/
def Operation.settle (op : Operation) (future : FutureState) : Operation :=
  { op with
    future
    callback := if op.callback = .attached then .scheduled else op.callback }

/-- `Future.cancel()`: a done future is left alone. -/
def Operation.cancel (op : Operation) : Operation :=
  if op.future.done then op else op.settle .cancelled

def futureAt (ops : List Operation) (future : Nat) : FutureState :=
  (ops[future]?.map Operation.future).getD .pending

def completionAt (ops : List Operation) (completion : Nat) : CompletionState :=
  (ops[completion]?.map Operation.completion).getD .pending

def missingResult : PyErr :=
  ProcessError.newErr "the async completion wakeup arrived without a result"

/-- `complete_entry`. `refuses` is `asyncio.Future.set_exception`: the error
it raises instead of settling the future, if it raises. -/
def completeEntry (refuses : PyErr → Option PyErr) (ops : List Operation) (entry : HubEntry) :
    List Operation × PyResult Unit :=
  if (futureAt ops entry.future).done then (ops, .ok ())
  else
    let state := completionAt ops entry.completion
    let ops := ops.modify entry.completion fun op => { op with completion := .pending }
    let result :=
      match state with
      | .ready result => outcome result
      | .pending => .error missingResult
    match result with
    | .ok value => (ops.modify entry.future (·.settle (.result value)), .ok ())
    | .error error =>
      match refuses error with
      | none => (ops.modify entry.future (·.settle (.exception error)), .ok ())
      | some refusal => (ops, .error refusal)

def settledBy : CompletionState → FutureState
  | .ready result =>
    match outcome result with
    | .ok value => .result value
    | .error error => .exception error
  | .pending => .exception missingResult

theorem settledBy_done (found : CompletionState) : (settledBy found).done = true := by
  unfold settledBy
  split
  · split <;> rfl
  · rfl

/-- `complete_entry` leaves a done future alone; a pending one it settles by
what it found, or, refused, leaves pending with the completion spent. -/
theorem completeEntry_cases (refuses : PyErr → Option PyErr) (ops : List Operation)
    (entry : HubEntry) :
    let spent := ops.modify entry.completion fun op => { op with completion := .pending }
    let settled := settledBy (completionAt ops entry.completion)
    (futureAt ops entry.future).done = true ∧ completeEntry refuses ops entry = (ops, .ok ()) ∨
    (futureAt ops entry.future).done = false ∧
      ((∀ error, settled = .exception error → refuses error = none) ∧
          completeEntry refuses ops entry = (spent.modify entry.future (·.settle settled), .ok ()) ∨
        ∃ error refusal, settled = .exception error ∧ refuses error = some refusal ∧
          completeEntry refuses ops entry = (spent, .error refusal)) := by
  simp only [completeEntry]
  split
  · exact .inl ⟨‹_›, rfl⟩
  · rename_i hdone
    refine .inr ⟨by simpa using hdone, ?_⟩
    cases hfound : completionAt ops entry.completion with
    | pending =>
      cases hr : refuses missingResult with
      | none => exact .inl ⟨fun error he => by cases he; exact hr, by simp [hr, settledBy]⟩
      | some refusal => exact .inr ⟨_, refusal, rfl, hr, by simp [hr]⟩
    | ready result =>
      cases ho : outcome result with
      | ok value =>
          exact .inl ⟨fun error he => by simp [settledBy, ho] at he, by simp [ho, settledBy]⟩
      | error error =>
        cases hr : refuses error with
        | none =>
          refine .inl ⟨fun other he => ?_, by simp [ho, hr, settledBy]⟩
          obtain rfl : error = other := by simpa [settledBy, ho] using he
          exact hr
        | some refusal => exact .inr ⟨error, refusal, by simp [settledBy, ho], hr, by simp [ho, hr]⟩

end ProcessKit.Runtime

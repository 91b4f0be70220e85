import ProcessKit.Transition
import ProcessKit.Runtime.Hub
import Mathlib.Data.List.Perm.Basic

/-!
# Streaming a batch in completion order

`_stream_as_completed` makes a task for every command, a slot, and yields what the
slots return as they end. A semaphore lets a slot run its command. The tasks go on
while the generator is suspended, at a `yield` or in a wait; whatever ends it while
slots are pending makes it cancel these and wait until the last of them has ended.

The semaphore may let any slot that waits go first, and a task may end cancelled at
any time.
-/

namespace ProcessKit.Aio

open ProcessKit.Runtime (PyErr PyResult)

variable {α ρ : Type}

/-- `_resolve_concurrency`; `cpuCount` is what the process has, if it can tell. -/
def resolveConcurrency (cpuCount : Option Nat) : Option Int → PyResult Nat
  | none =>
    match cpuCount with
    | none | some 0 => .ok 4
    | some count => .ok count
  | some concurrency =>
    if concurrency < 1 then .error ⟨"ValueError", "concurrency must be a positive integer"⟩
    else .ok concurrency.toNat

-- ---------------------------------------------------------------------------
-- Slots
-- ---------------------------------------------------------------------------

inductive SlotEnd (ρ : Type)
  | returned (index : Nat) (outcome : Except PyErr ρ)
  | raised (error : PyErr)
  | cancelled
  deriving DecidableEq

/-- `running` is inside `run(command)`, under the semaphore. -/
inductive SlotState (ρ : Type)
  | queued
  | running
  | ended (how : SlotEnd ρ)
  deriving DecidableEq

def SlotState.isRunning : SlotState ρ → Bool
  | .running => true
  | .queued | .ended _ => false

def SlotState.isEnded : SlotState ρ → Bool
  | .ended _ => true
  | .queued | .running => false

structure Slot (α ρ : Type) where
  command : α
  index : Nat
  state : SlotState ρ
  deriving DecidableEq

def Slot.new (item : α × Nat) : Slot α ρ := ⟨item.1, item.2, .queued⟩

/-- What `_slot` makes of the end of `run(command)`. -/
def Slot.caught (isProcessError : PyErr → Bool) (slot : Slot α ρ) : Except PyErr ρ → SlotEnd ρ
  | .ok result => .returned slot.index (.ok result)
  | .error error =>
    if isProcessError error then .returned slot.index (.error error) else .raised error

-- ---------------------------------------------------------------------------
-- The generator
-- ---------------------------------------------------------------------------

inductive Exit
  | exhausted
  | closed
  | raised (error : PyErr)
  | cancelled
  deriving DecidableEq

/-- Where the generator is suspended. A task is the place of its slot. `yielding` keeps
the rest of `done`, `draining` the cancellation that `_reap_slots` saves and the exit
that has led to it. -/
inductive StreamPhase
  | unstarted
  | waiting (pending : List Nat)
  | yielding (done pending : List Nat)
  | draining (tasks : List Nat) (pendingCancel : Bool) (exit : Exit)
  | finished (exit : Exit)
  deriving DecidableEq

/-- `cancels` are the tasks whose `cancel` was called. -/
structure Stream (α ρ : Type) where
  slots : List (Slot α ρ)
  permits : Nat
  cancels : List Nat
  phase : StreamPhase

inductive StreamEvent (α ρ : Type)
  | ran (index : Nat) (command : α) (outcome : Except PyErr ρ)
  | yielded (index : Nat) (outcome : Except PyErr ρ)
  | cancelled
  deriving DecidableEq

/-- `abort` is a `CancelledError` that leaves the task. -/
inductive SlotMove (ρ : Type)
  | acquire
  | finish (outcome : Except PyErr ρ)
  | abort

/-- `next`, `close` and `throw` are the consumer's, who may be cancelled in a wait;
`wake` and `reaped` end a wait. -/
inductive StreamAction (ρ : Type)
  | next
  | close
  | throw (error : PyErr)
  | cancel
  | wake (done : List Nat)
  | reaped
  | slot (task : Nat) (move : SlotMove ρ)

namespace Stream

variable (isProcessError : PyErr → Bool) (commands : List α) (limit : PyResult Nat)

def new : Stream α ρ := ⟨[], 0, [], .unstarted⟩

def ended (s : Stream α ρ) (task : Nat) : Bool :=
  match s.slots[task]? with
  | some slot => slot.state.isEnded
  | none => false

/-- `_reap_slots` up to its wait. -/
def reap (s : Stream α ρ) (tasks : List Nat) (exit : Exit) : Stream α ρ :=
  if tasks = [] then { s with phase := .finished exit }
  else { s with cancels := s.cancels ++ tasks, phase := .draining tasks false exit }

def invalidState : PyErr := ⟨"InvalidStateError", "Result is not set."⟩

def result (s : Stream α ρ) (task : Nat) : Except Exit (Nat × Except PyErr ρ) :=
  match s.slots[task]? with
  | some { state := .ended (.returned index outcome), .. } => .ok (index, outcome)
  | some { state := .ended (.raised error), .. } => .error (.raised error)
  | some { state := .ended .cancelled, .. } => .error .cancelled
  | _ => .error (.raised invalidState)

/-- The loops, from where `done` is left. -/
def resume (s : Stream α ρ) (pending : List Nat) : List Nat → Stream α ρ × List (StreamEvent α ρ)
  | [] =>
    if pending = [] then (s.reap [] .exhausted, []) else ({ s with phase := .waiting pending }, [])
  | task :: done =>
    match s.result task with
    | .ok (index, outcome) =>
      ({ s with phase := .yielding done pending }, [.yielded index outcome])
    | .error exit => (s.reap pending exit, [])

def start : Stream α ρ :=
  match limit with
  | .error error => ⟨[], 0, [], .finished (.raised error)⟩
  | .ok limit =>
    if commands = [] then ⟨[], limit, [], .finished .exhausted⟩
    else ⟨commands.zipIdx.map .new, limit, [], .waiting (List.range commands.length)⟩

def set (s : Stream α ρ) (task : Nat) (slot : Slot α ρ) (state : SlotState ρ) : Stream α ρ :=
  { s with slots := s.slots.set task { slot with state } }

def move (s : Stream α ρ) (task : Nat) (slot : Slot α ρ) :
    SlotMove ρ → Option (Stream α ρ × List (StreamEvent α ρ))
  | .acquire =>
    match slot.state, s.permits with
    | .queued, permits + 1 => some ({ s.set task slot .running with permits }, [])
    | _, _ => none
  | .finish outcome =>
    match slot.state with
    | .running =>
      some ({ s.set task slot (.ended (slot.caught isProcessError outcome)) with
        permits := s.permits + 1 }, [.ran slot.index slot.command outcome])
    | .queued | .ended _ => none
  | .abort =>
    match slot.state with
    | .queued => some (s.set task slot (.ended .cancelled), [])
    | .running => some ({ s.set task slot (.ended .cancelled) with permits := s.permits + 1 }, [])
    | .ended _ => none

def stop (s : Stream α ρ) (exit : Exit) : Option (Stream α ρ × List (StreamEvent α ρ)) :=
  match s.phase with
  | .unstarted => some ({ s with phase := .finished exit }, [])
  | .yielding _ pending => some (s.reap pending exit, [])
  | _ => none

def step (s : Stream α ρ) : StreamAction ρ → Option (Stream α ρ × List (StreamEvent α ρ))
  | .next =>
    match s.phase with
    | .unstarted => some (start commands limit, [])
    | .yielding done pending => some (s.resume pending done)
    | _ => none
  | .close => s.stop .closed
  | .throw error => s.stop (.raised error)
  | .cancel =>
    match s.phase with
    | .waiting pending => some (s.reap pending .cancelled, [.cancelled])
    | .draining tasks _ exit =>
      some ({ s with cancels := s.cancels ++ tasks, phase := .draining tasks true exit },
        [.cancelled])
    | _ => none
  | .wake done =>
    match s.phase with
    | .waiting pending =>
      if done ≠ [] ∧ done.Perm (pending.filter s.ended) then
        some (s.resume (pending.filter (!s.ended ·)) done)
      else none
    | _ => none
  | .reaped =>
    match s.phase with
    | .draining tasks pendingCancel exit =>
      if tasks.all s.ended then
        some ({ s with phase := .finished (if pendingCancel then .cancelled else exit) }, [])
      else none
    | _ => none
  | .slot task move =>
    match s.slots[task]? with
    | some slot => s.move isProcessError task slot move
    | none => none

/-- `_stream_as_completed(commands, concurrency, run)`. -/
def machine (cpuCount : Option Nat) (concurrency : Option Int) :
    Transition.Machine (Stream α ρ) (StreamAction ρ) (StreamEvent α ρ) where
  init := .new
  step := step isProcessError commands (resolveConcurrency cpuCount concurrency)

end Stream

end ProcessKit.Aio

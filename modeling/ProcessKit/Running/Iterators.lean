import ProcessKit.FairLock
import ProcessKit.Pickle
import ProcessKit.Running.Events

/-!
# The output iterators of one handle

`StdoutLines`, `JsonLines`, `OutputEvents`, `StderrLines` and `LifecycleEvents` are one machine:
an `__anext__` takes the iterator's mutex, awaits `next()` beside the idle window, and answers with
what it makes of an item. They differ in the stream below, in what an item is to them (`Reader`),
and in whether an item that they skip starts the window anew.

The calls of one iterator overlap and are dropped where they await. Which of them has its mutex is
for the mutex, which is tokio's, to grant, and documented to be in the order in which they were
first polled. Beneath an iterator of events is the drive, whose own steps come
between those of the call that polls it.
-/

namespace ProcessKit.Running

open FairLock (Fifo Room)
open ProcessKit.Pickle (PkProcessEvent PyLifecycleEvent)

-- ---------------------------------------------------------------------------
-- What an item is to an iterator
-- ---------------------------------------------------------------------------

/-- `read n item` is the answer that the `n`-th item gives, if it is not skipped. Where an item is
skipped inside the awaited window the window goes on, else it `renews`. -/
structure Reader (α β : Type) where
  read : Nat → α → Option β
  renews : Bool

def stdoutLines : Reader String String where
  read _ line := some line
  renews := false

/-- The exception with what is attached to it. -/
structure InvalidJson where
  message : String
  program : String
  stdout : Option String
  deriving DecidableEq

structure ParseError where
  program : String
  message : String

def invalidJsonLineErr (error : ParseError) : InvalidJson :=
  ⟨error.message, error.program, none⟩

/-- A line that the crate could not parse is counted too. -/
def stdoutJsonLines :
    Reader (Except ParseError (List Char)) (Except InvalidJson (List Char × Nat)) where
  read lineNumber
    | .ok raw => some (.ok (raw, lineNumber))
    | .error error => some (.error (invalidJsonLineErr error))
  renews := false

structure PyOutputEvent where
  isStderr : Bool
  text : String
  deriving DecidableEq

def PyOutputEvent.fromEvent : PkProcessEvent → Option PyOutputEvent
  | .stdout line => some ⟨false, line⟩
  | .stderr line => some ⟨true, line⟩
  | .started _ | .exited _ | .other => none

/-- The window is around `next_line`, which skips. -/
def outputEvents : Reader PkProcessEvent PyOutputEvent where
  read _ := PyOutputEvent.fromEvent
  renews := false

def stderrLines : Reader PkProcessEvent String where
  read _
    | .stderr line => some line
    | .started _ | .stdout _ | .exited _ | .other => none
  renews := true

def lifecycleEvents : Reader PkProcessEvent PyLifecycleEvent where
  read _ event := some (PyLifecycleEvent.from event)
  renews := false

-- ---------------------------------------------------------------------------
-- The stream below
-- ---------------------------------------------------------------------------

/-- The crate's stream itself, or the drive around it. -/
inductive Source (κ : Type)
  | stream (handle : Handle κ)
  | drive (d : EventsDrive κ)

namespace Source

variable {κ : Type}

def handle : Source κ → Handle κ
  | .stream handle => handle
  | .drive d => d.handle

/-- Whoever polls it is where it awaits `next()`. -/
def waits : Source κ → Bool
  | .stream _ => true
  | .drive d =>
    match d.pc with
    | .waiting _ => true
    | .parked | .deciding | .probing | .joining => false

section
variable [DecidableEq κ] (e : κ)

def took : Source κ → Option (Source κ)
  | .stream handle => some (.stream handle)
  | .drive d => (d.step e .event).map fun next => .drive next.1

def dropped : Source κ → Option (Source κ)
  | .stream handle => some (.stream handle)
  | .drive d => (d.step e .drop).map fun next => .drive next.1

/-- A step of the drive for the call that polls it, or of another thread at the handle. -/
def advance (polled : Bool) : Source κ → DriveAction κ → Option (Source κ)
  | .stream handle, .other a =>
    if a.caller = some e then none else (handle.step a).map fun next => .stream next.1
  | .stream _, _ | .drive _, .event | .drive _, .drop => none
  | .drive d, .other a => (d.step e (.other a)).map fun next => .drive next.1
  | .drive d, a => if polled then (d.step e a).map fun next => .drive next.1 else none

end

end Source

-- ---------------------------------------------------------------------------
-- The iterator
-- ---------------------------------------------------------------------------

inductive Answer (β : Type)
  | item (value : β)
  | stopAsyncIteration
  | idleTimeout (window : Nat)
  deriving DecidableEq

/-- `items` is what the stream has ready, and `room` the iterator's mutex with the calls of
`__anext__`. `armed` is when the window of the call that has the mutex began, once it has been
polled with it. Only `JsonLines` has the `lineCount`. -/
structure OutputIterator (κ ι α : Type) where
  source : Source κ
  items : List α
  ended : Bool
  room : Room ι
  armed : Option Nat
  lineCount : Nat
  now : Nat

def OutputIterator.new (source : Source κ) : OutputIterator κ ι α where
  source := source
  items := []
  ended := false
  room := .empty
  armed := none
  lineCount := 0
  now := 0

inductive Reading (κ ι α : Type)
  | enter (call : ι)
  | begin
  | next
  | lapse
  | drop (call : ι)
  | produce (item : α)
  | finish
  | tick
  | source (a : DriveAction κ)

/-- `killed` says whether the process was in the slot. -/
inductive ReadEvent (ι α β : Type)
  | entered (call : ι)
  | armed (call : ι) (now : Nat)
  | popped (call : ι) (item : α)
  | killed (call : ι) (found : Bool)
  | answered (call : ι) (answer : Answer β) (now : Nat)
  | dropped (call : ι)
  | produced (item : α)
  | finished

namespace OutputIterator

variable {κ ι α β : Type} [DecidableEq κ] [DecidableEq ι]

def answer (s : OutputIterator κ ι α) (call : ι) : OutputIterator κ ι α :=
  { s with room := s.room.serve call, armed := none }

section
variable (grant : List ι → Option ι) (reader : Reader α β) (window : Option Nat) (e : κ)

def next (s : OutputIterator κ ι α) (call : ι) :
    Option (OutputIterator κ ι α × List (ReadEvent ι α β)) := do
  let source ← s.source.took e
  match s.items with
  | item :: items =>
    let s := { s with source, items, lineCount := s.lineCount + 1 }
    match reader.read s.lineCount item with
    | some value =>
      return (s.answer call,
        [.popped call item, .answered call (.item value) s.now])
    | none =>
      if reader.renews then
        return ({ s with armed := some s.now }, [.popped call item, .armed call s.now])
      else return (s, [.popped call item])
  | [] =>
    if s.ended then
      return ({ s with source }.answer call,
        [.answered call .stopAsyncIteration s.now])
    else none

/-- `guard_idle.kill()`, then the error. `tokio::time::timeout` polls `next()` before the timer, so
nothing is ready. -/
def lapse (s : OutputIterator κ ι α) (call : ι) (since : Nat) :
    Option (OutputIterator κ ι α × List (ReadEvent ι α β)) := do
  let window ← window
  if since + window ≤ s.now ∧ s.items.isEmpty ∧ s.ended = false then
    let source ← s.source.dropped e
    return ({ s with source }.answer call,
      [.killed call s.source.handle.slot, .answered call (.idleTimeout window) s.now])
  else none

/-- A future is dropped where it awaits, or before its first poll with the guard. -/
def drop (s : OutputIterator κ ι α) (call : ι) :
    Option (OutputIterator κ ι α × List (ReadEvent ι α β)) := do
  if s.room.seat call ≠ .waiting then none
  else if s.room.granted grant = some call ∧ s.armed.isSome then
    if s.source.waits then
      let source ← s.source.dropped e
      return ({ s with source, room := s.room.leave call, armed := none }, [.dropped call])
    else none
  else return ({ s with room := s.room.leave call }, [.dropped call])

def step (s : OutputIterator κ ι α) :
    Reading κ ι α → Option (OutputIterator κ ι α × List (ReadEvent ι α β))
  | .enter call =>
    if s.room.seat call = .outside then
      some ({ s with room := s.room.enter call }, [.entered call])
    else none
  | .begin =>
    match s.room.granted grant, s.armed with
    | some call, none => some ({ s with armed := some s.now }, [.armed call s.now])
    | _, _ => none
  | .next =>
    match s.room.granted grant, s.armed with
    | some call, some _ => if s.source.waits then s.next reader e call else none
    | _, _ => none
  | .lapse =>
    match s.room.granted grant, s.armed with
    | some call, some since => if s.source.waits then s.lapse window e call since else none
    | _, _ => none
  | .drop call => s.drop grant e call
  | .produce item =>
    if s.ended then none else some ({ s with items := s.items ++ [item] }, [.produced item])
  | .finish => if s.ended then none else some ({ s with ended := true }, [.finished])
  | .tick => some ({ s with now := s.now + 1 }, [])
  | .source a => do
    let source ← s.source.advance e s.armed.isSome a
    return ({ s with source }, [])

def machine (source : Source κ) :
    Transition.Machine (OutputIterator κ ι α) (Reading κ ι α) (ReadEvent ι α β) where
  init := .new source
  step := step grant reader window e

end

-- ---------------------------------------------------------------------------
-- What a step can do
-- ---------------------------------------------------------------------------

structure Polled (s : OutputIterator κ ι α) (call : ι) (since : Nat) : Prop where
  holder : s.room.holder = some call
  armed : s.armed = some since
  waits : s.source.waits = true

inductive Move (reader : Reader α β) (window : Option Nat) (e : κ) (s : OutputIterator κ ι α) :
    Reading κ ι α → OutputIterator κ ι α → List (ReadEvent ι α β) → Prop
  | enter : s.room.seat call = .outside →
      Move reader window e s (.enter call) { s with room := s.room.enter call } [.entered call]
  | begin : s.room.holder = some call → s.armed = none →
      Move reader window e s .begin { s with armed := some s.now } [.armed call s.now]
  | take : s.Polled call since → s.source.took e = some src → s.items = item :: rest →
      reader.read (s.lineCount + 1) item = some value →
      Move reader window e s .next
        ({ s with source := src, items := rest, lineCount := s.lineCount + 1 }.answer call)
        [.popped call item, .answered call (.item value) s.now]
  | renew : s.Polled call since → s.source.took e = some src → s.items = item :: rest →
      reader.read (s.lineCount + 1) item = none → reader.renews = true →
      Move reader window e s .next
        { s with source := src, items := rest, lineCount := s.lineCount + 1, armed := some s.now }
        [.popped call item, .armed call s.now]
  | skip : s.Polled call since → s.source.took e = some src → s.items = item :: rest →
      reader.read (s.lineCount + 1) item = none → reader.renews = false →
      Move reader window e s .next
        { s with source := src, items := rest, lineCount := s.lineCount + 1 } [.popped call item]
  | stop : s.Polled call since → s.source.took e = some src → s.items = [] → s.ended = true →
      Move reader window e s .next ({ s with source := src }.answer call)
        [.answered call .stopAsyncIteration s.now]
  | lapse : s.Polled call since → window = some width → since + width ≤ s.now → s.items = [] →
      s.ended = false → s.source.dropped e = some src →
      Move reader window e s .lapse ({ s with source := src }.answer call)
        [.killed call s.source.handle.slot, .answered call (.idleTimeout width) s.now]
  | dropPolled : s.Polled call since → s.room.seat call = .waiting →
      s.source.dropped e = some src →
      Move reader window e s (.drop call)
        { s with source := src, room := s.room.leave call, armed := none } [.dropped call]
  | drop : s.room.seat call = .waiting → (s.room.holder = some call → s.armed = none) →
      Move reader window e s (.drop call) { s with room := s.room.leave call } [.dropped call]
  | produce : s.ended = false →
      Move reader window e s (.produce item) { s with items := s.items ++ [item] } [.produced item]
  | finish : s.ended = false → Move reader window e s .finish { s with ended := true } [.finished]
  | tick : Move reader window e s .tick { s with now := s.now + 1 } []
  | source : s.source.advance e s.armed.isSome a = some src →
      Move reader window e s (.source a) { s with source := src } []

variable {reader : Reader α β} {window : Option Nat} {e : κ} {s s' : OutputIterator κ ι α}
  {evs : List (ReadEvent ι α β)}

theorem Move.of_next (hp : s.Polled call since) (hs : s.next reader e call = some (s', evs)) :
    Move reader window e s .next s' evs := by
  simp only [OutputIterator.next, Option.bind_eq_bind, Option.bind_eq_some_iff] at hs
  obtain ⟨source, htook, hs⟩ := hs
  split at hs
  · next item items hitems =>
    split at hs
    · next value hread =>
      cases hs
      exact .take hp htook hitems hread
    · next hread =>
      split at hs <;> cases hs
      · exact .renew hp htook hitems hread ‹_›
      · exact .skip hp htook hitems hread (by simpa using ‹¬ reader.renews = true›)
  · next hitems =>
    split at hs <;> cases hs
    exact .stop hp htook hitems ‹_›

theorem Move.of_lapse (hp : s.Polled call since)
    (hs : s.lapse window e call since = some (s', evs)) : Move reader window e s .lapse s' evs := by
  simp only [OutputIterator.lapse, Option.bind_eq_bind, Option.bind_eq_some_iff] at hs
  obtain ⟨width, rfl, hs⟩ := hs
  split at hs
  · next hwidth =>
    obtain ⟨source, hdropped, hret⟩ := Option.bind_eq_some_iff.mp hs
    cases hret
    exact .lapse hp rfl hwidth.1 (List.isEmpty_iff.mp hwidth.2.1) hwidth.2.2 hdropped
  · cases hs

theorem Move.of_drop (hfifo : Fifo grant) (hs : s.drop grant e call = some (s', evs)) :
    Move reader window e s (.drop call) s' evs := by
  simp only [OutputIterator.drop, hfifo.granted] at hs
  split at hs
  · cases hs
  · next hplace =>
    rw [not_not] at hplace
    split at hs
    · next hholder =>
      obtain ⟨since, harmed⟩ := Option.isSome_iff_exists.mp hholder.2
      split at hs
      · next hwaits =>
        obtain ⟨source, hdropped, hret⟩ := Option.bind_eq_some_iff.mp hs
        cases hret
        exact .dropPolled ⟨hholder.1, harmed, hwaits⟩ hplace hdropped
      · cases hs
    · next hbehind =>
      cases hs
      exact .drop hplace fun hholder => by simpa [hholder] using hbehind

theorem Move.of_step (hfifo : Fifo grant) (hs : s.step grant reader window e a = some (s', evs)) :
    Move reader window e s a s' evs := by
  cases a with
  | enter call =>
    simp only [OutputIterator.step] at hs
    split at hs <;> cases hs
    exact .enter ‹_›
  | begin =>
    simp only [OutputIterator.step, hfifo.granted] at hs
    split at hs <;> cases hs
    exact .begin ‹_› ‹_›
  | next =>
    simp only [OutputIterator.step, hfifo.granted] at hs
    split at hs
    · split at hs
      · exact .of_next ⟨‹_›, ‹_›, ‹_›⟩ hs
      · cases hs
    · cases hs
  | lapse =>
    simp only [OutputIterator.step, hfifo.granted] at hs
    split at hs
    · split at hs
      · exact .of_lapse ⟨‹_›, ‹_›, ‹_›⟩ hs
      · cases hs
    · cases hs
  | drop call => exact .of_drop hfifo hs
  | produce item =>
    simp only [OutputIterator.step] at hs
    split at hs <;> cases hs
    exact .produce (by simpa using ‹¬ s.ended = true›)
  | finish =>
    simp only [OutputIterator.step] at hs
    split at hs <;> cases hs
    exact .finish (by simpa using ‹¬ s.ended = true›)
  | tick =>
    cases hs
    exact .tick
  | source a =>
    simp only [OutputIterator.step, Option.bind_eq_bind, Option.bind_eq_some_iff] at hs
    obtain ⟨source, hsource, hret⟩ := hs
    cases hret
    exact .source hsource

end OutputIterator

end ProcessKit.Running

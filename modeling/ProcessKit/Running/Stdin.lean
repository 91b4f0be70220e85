import ProcessKit.FairLock
import ProcessKit.Runtime.Hub
import ProcessKit.Transition

/-!
# The writer of one child's stdin

The methods of a `ProcessStdin` take its mutex for as long as they write, and `close` takes the
writer out of it. They overlap, fail and are dropped at any byte. What the child reads is one run
of bytes for each call that got the mutex, in the order in which they came to it: all that the call
was to write if it returned, and the beginning of it if it failed or was dropped. Nothing is
written once the writer is taken, and it is taken once.
-/

namespace ProcessKit.Running.Stdin

open FairLock (Fifo Room Seated Visit)
open ProcessKit.Runtime (PyErr PyResult ValueError.newErr)
open Transition (Justified)

inductive Verb
  | write (data : List UInt8)
  | writeLine (line : String)
  | sendControl (control : Char)
  | flush

inductive Call
  | verb (v : Verb)
  | close

def sendControlError : PyErr :=
  ValueError.newErr "send_control() requires exactly one control character"

def closedError : PyErr := ⟨"OSError", "stdin is closed"⟩

def sendControl (control : List Char) : PyResult Call :=
  match control with
  | [c] => .ok (.verb (.sendControl c))
  | _ => .error sendControlError

structure IoError where
  invalidInput : Bool
  text : String

/-- The crate's writer: the bytes of a call, or that it writes none; and PyO3's `OSError`. -/
structure Crate where
  payload : Verb → Except IoError (List UInt8)
  fromIo : IoError → PyErr

def Crate.mapErr (crate : Crate) (verb : Verb) (error : IoError) : PyErr :=
  match verb with
  | .sendControl _ =>
    if error.invalidInput then ValueError.newErr error.text else crate.fromIo error
  | .write _ | .writeLine _ | .flush => crate.fromIo error

/-- What the future of a call does. One that `finishes` has let go of the mutex. -/
inductive Work
  | idle
  | asked (call : Call)
  | writing (verb : Verb)
  | finishing
  | answered (result : PyResult Unit)
  | dropped

/-- `room` has the calls that wait for the mutex. `busy` is the one that has it and writes, with
what it has yet to write, and `pipe` is all that the child is given to read. -/
structure PyProcessStdin (ι : Type) where
  inner : Bool
  room : Room ι
  busy : Option (ι × List UInt8)
  pipe : List UInt8
  ended : Bool
  work : ι → Work

def PyProcessStdin.new : PyProcessStdin ι where
  inner := true
  room := .empty
  busy := none
  pipe := []
  ended := false
  work _ := .idle

inductive Action (ι : Type)
  | enter (i : ι) (call : Call)
  | acquire
  | accept (count : Nat)
  | complete
  | fail (error : IoError)
  | finish (i : ι) (result : Except IoError Unit)
  | drop (i : ι)

inductive Event (ι : Type)
  | entered (i : ι) (call : Call)
  | left (i : ι)
  | acquired (i : ι)
  | refused (i : ι) (error : PyErr)
  | began (i : ι) (payload : List UInt8)
  | accepted (i : ι) (bytes : List UInt8)
  | completed (i : ι)
  | took (i : ι)
  | ended

namespace PyProcessStdin

variable {ι : Type} [DecidableEq ι]

def goto (s : PyProcessStdin ι) (i : ι) (work : Work) : PyProcessStdin ι :=
  { s with work := Function.update s.work i work }

@[simp] theorem goto_work (s : PyProcessStdin ι) (i : ι) (work : Work) (j : ι) :
    (s.goto i work).work j = if j = i then work else s.work j := Function.update_apply ..

section
variable {s : PyProcessStdin ι} {i : ι} {work : Work}

@[simp] theorem goto_inner : (s.goto i work).inner = s.inner := rfl
@[simp] theorem goto_room : (s.goto i work).room = s.room := rfl
@[simp] theorem goto_busy : (s.goto i work).busy = s.busy := rfl

end

/-- A call with the guard: `as_mut` of the writer, or `take`. -/
def acquire (crate : Crate) (s : PyProcessStdin ι) (i : ι) :
    Call → PyProcessStdin ι × List (Event ι)
  | .verb verb =>
    if s.inner then
      match crate.payload verb with
      | .ok payload =>
        ({ s with busy := some (i, payload) }.goto i (.writing verb), [.acquired i, .began i payload])
      | .error error =>
        (s.goto i (.answered (.error (crate.mapErr verb error))), [.acquired i])
    else (s.goto i (.answered (.error closedError)), [.acquired i, .refused i closedError])
  | .close =>
    if s.inner then ({ s with inner := false }.goto i .finishing, [.acquired i, .took i])
    else (s.goto i (.answered (.ok ())), [.acquired i])

def step (grant : List ι → Option ι) (crate : Crate) (s : PyProcessStdin ι) :
    Action ι → Option (PyProcessStdin ι × List (Event ι))
  | .enter i call =>
    if s.room.seat i = .outside then
      some ({ s with room := s.room.enter i }.goto i (.asked call), [.entered i call])
    else none
  | .acquire =>
    match s.busy, s.room.granted grant with
    | none, some i =>
      match s.work i with
      | .asked call => some ({ s with room := s.room.serve i }.acquire crate i call)
      | _ => none
    | _, _ => none
  | .accept count =>
    match s.busy with
    | some (i, rest) =>
      some ({ s with busy := some (i, rest.drop count), pipe := s.pipe ++ rest.take count },
        [.accepted i (rest.take count)])
    | none => none
  | .complete =>
    match s.busy with
    | some (i, []) => some ({ s with busy := none }.goto i (.answered (.ok ())), [.completed i])
    | _ => none
  | .fail error =>
    match s.busy with
    | some (i, _) =>
      match s.work i with
      | .writing verb =>
        some ({ s with busy := none }.goto i (.answered (.error (crate.mapErr verb error))), [])
      | _ => none
    | none => none
  | .finish i result =>
    match s.work i with
    | .finishing =>
      some ({ s with ended := true }.goto i (.answered (result.mapError crate.fromIo)), [.ended])
    | _ => none
  | .drop i =>
    if s.room.seat i = .waiting then
      some ({ s with room := s.room.leave i }.goto i .dropped, [.left i])
    else
      match s.work i with
      | .writing _ => some ({ s with busy := none }.goto i .dropped, [])
      | .finishing => some ({ s with ended := true }.goto i .dropped, [.ended])
      | .idle | .asked _ | .answered _ | .dropped => none

def machine (grant : List ι → Option ι) (crate : Crate) :
    Transition.Machine (PyProcessStdin ι) (Action ι) (Event ι) where
  init := .new
  step := step grant crate

-- ---------------------------------------------------------------------------
-- What a step can do
-- ---------------------------------------------------------------------------

structure Next (s : PyProcessStdin ι) (i : ι) (call : Call) : Prop where
  free : s.busy = none
  holder : s.room.holder = some i
  work : s.work i = .asked call

inductive Move (crate : Crate) (s : PyProcessStdin ι) :
    Action ι → PyProcessStdin ι → List (Event ι) → Prop
  | enter : s.room.seat i = .outside →
      Move crate s (.enter i call) ({ s with room := s.room.enter i }.goto i (.asked call))
        [.entered i call]
  | begin : s.Next i (.verb verb) → s.inner = true → crate.payload verb = .ok payload →
      Move crate s .acquire
        ({ s with room := s.room.serve i, busy := some (i, payload) }.goto i (.writing verb))
        [.acquired i, .began i payload]
  | reject : s.Next i (.verb verb) → s.inner = true → crate.payload verb = .error error →
      Move crate s .acquire
        ({ s with room := s.room.serve i }.goto i (.answered (.error (crate.mapErr verb error))))
        [.acquired i]
  | refuse : s.Next i (.verb verb) → s.inner = false →
      Move crate s .acquire
        ({ s with room := s.room.serve i }.goto i (.answered (.error closedError)))
        [.acquired i, .refused i closedError]
  | take : s.Next i .close → s.inner = true →
      Move crate s .acquire ({ s with room := s.room.serve i, inner := false }.goto i .finishing)
        [.acquired i, .took i]
  | closed : s.Next i .close → s.inner = false →
      Move crate s .acquire ({ s with room := s.room.serve i }.goto i (.answered (.ok ())))
        [.acquired i]
  | accept : s.busy = some (i, rest) →
      Move crate s (.accept count)
        { s with busy := some (i, rest.drop count), pipe := s.pipe ++ rest.take count }
        [.accepted i (rest.take count)]
  | complete : s.busy = some (i, []) →
      Move crate s .complete ({ s with busy := none }.goto i (.answered (.ok ()))) [.completed i]
  | fail : s.busy = some (i, rest) → s.work i = .writing verb →
      Move crate s (.fail error)
        ({ s with busy := none }.goto i (.answered (.error (crate.mapErr verb error)))) []
  | finish : s.work i = .finishing →
      Move crate s (.finish i result)
        ({ s with ended := true }.goto i (.answered (result.mapError crate.fromIo))) [.ended]
  | dropWaiting : s.room.seat i = .waiting →
      Move crate s (.drop i) ({ s with room := s.room.leave i }.goto i .dropped) [.left i]
  | dropWriting : s.work i = .writing verb →
      Move crate s (.drop i) ({ s with busy := none }.goto i .dropped) []
  | dropFinishing : s.work i = .finishing →
      Move crate s (.drop i) ({ s with ended := true }.goto i .dropped) [.ended]

variable {crate : Crate} {s s' : PyProcessStdin ι} {log evs : List (Event ι)}

theorem Move.of_acquire (hfifo : Fifo grant) (hs : s.step grant crate .acquire = some (s', evs)) :
    Move crate s .acquire s' evs := by
  simp only [PyProcessStdin.step, hfifo.granted] at hs
  split at hs
  · next i hfree hholder =>
    split at hs
    · next call hwork =>
      have hnext : s.Next i call := ⟨hfree, hholder, hwork⟩
      cases call with
      | verb verb =>
        simp only [PyProcessStdin.acquire] at hs
        split at hs
        · next hinner =>
          split at hs <;> cases hs
          · exact .begin hnext hinner ‹_›
          · exact .reject hnext hinner ‹_›
        · cases hs
          exact .refuse hnext (by simpa using ‹¬ s.inner = true›)
      | close =>
        simp only [PyProcessStdin.acquire] at hs
        split at hs <;> cases hs
        · exact .take hnext ‹_›
        · exact .closed hnext (by simpa using ‹¬ s.inner = true›)
    · cases hs
  · cases hs

theorem Move.of_step (hfifo : Fifo grant) (hs : s.step grant crate a = some (s', evs)) :
    Move crate s a s' evs := by
  cases a with
  | enter i call =>
    simp only [PyProcessStdin.step] at hs
    split at hs <;> cases hs
    exact .enter ‹_›
  | acquire => exact .of_acquire hfifo hs
  | accept count =>
    simp only [PyProcessStdin.step] at hs
    split at hs <;> cases hs
    exact .accept ‹_›
  | complete =>
    simp only [PyProcessStdin.step] at hs
    split at hs <;> cases hs
    exact .complete ‹_›
  | fail error =>
    simp only [PyProcessStdin.step] at hs
    split at hs
    · split at hs <;> cases hs
      exact .fail ‹_› ‹_›
    · cases hs
  | finish i result =>
    simp only [PyProcessStdin.step] at hs
    split at hs <;> cases hs
    exact .finish ‹_›
  | drop i =>
    simp only [PyProcessStdin.step] at hs
    split at hs
    · cases hs
      exact .dropWaiting ‹_›
    · split at hs <;> cases hs
      · exact .dropWriting ‹_›
      · exact .dropFinishing ‹_›

end PyProcessStdin

-- ---------------------------------------------------------------------------
-- Accounts of a log
-- ---------------------------------------------------------------------------

namespace Event

variable {ι : Type}

def entries (log : List (Event ι)) : List ι :=
  log.filterMap fun | .entered i _ => some i | _ => none

def leavers (log : List (Event ι)) : List ι :=
  log.filterMap fun | .left i => some i | _ => none

def holders (log : List (Event ι)) : List ι :=
  log.filterMap fun | .acquired i => some i | _ => none

/-- The calls that wrote, each with all that it was to write. -/
def writes (log : List (Event ι)) : List (ι × List UInt8) :=
  log.filterMap fun | .began i payload => some (i, payload) | _ => none

def completions (log : List (Event ι)) : List ι :=
  log.filterMap fun | .completed i => some i | _ => none

def takes (log : List (Event ι)) : List ι :=
  log.filterMap fun | .took i => some i | _ => none

def ends (log : List (Event ι)) : List Unit :=
  log.filterMap fun | .ended => some () | _ => none

section
variable (log evs : List (Event ι))

@[simp] theorem entries_append : entries (log ++ evs) = entries log ++ entries evs :=
  List.filterMap_append ..

@[simp] theorem leavers_append : leavers (log ++ evs) = leavers log ++ leavers evs :=
  List.filterMap_append ..

@[simp] theorem holders_append : holders (log ++ evs) = holders log ++ holders evs :=
  List.filterMap_append ..

@[simp] theorem writes_append : writes (log ++ evs) = writes log ++ writes evs :=
  List.filterMap_append ..

@[simp] theorem completions_append :
    completions (log ++ evs) = completions log ++ completions evs :=
  List.filterMap_append ..

@[simp] theorem takes_append : takes (log ++ evs) = takes log ++ takes evs :=
  List.filterMap_append ..

@[simp] theorem ends_append : ends (log ++ evs) = ends log ++ ends evs :=
  List.filterMap_append ..

end

variable [DecidableEq ι]

def written (log : List (Event ι)) (i : ι) : List UInt8 :=
  log.flatMap fun | .accepted j bytes => if j = i then bytes else [] | _ => []

@[simp] theorem written_append (log evs : List (Event ι)) (i : ι) :
    written (log ++ evs) i = written log i ++ written evs i := List.flatMap_append

theorem written_accepted (i j : ι) (bytes : List UInt8) :
    written [.accepted i bytes] j = if i = j then bytes else [] := by
  simp [written]

end Event

namespace PyProcessStdin

variable {ι : Type} [DecidableEq ι] {crate : Crate} {s s' : PyProcessStdin ι}
  {log evs : List (Event ι)}

theorem Move.visit (h : Move crate s a s' evs) :
    Visit s.room s'.room (Event.entries evs) (Event.holders evs) (Event.leavers evs) := by
  cases h with
  | enter houtside => exact .enters houtside
  | begin hnext | reject hnext | refuse hnext | take hnext | closed hnext =>
    exact .serves hnext.holder
  | dropWaiting hwaiting => exact .leaves hwaiting
  | _ => exact .stays

-- ---------------------------------------------------------------------------
-- The bytes
-- ---------------------------------------------------------------------------

inductive Ink (s s' : PyProcessStdin ι) (evs : List (Event ι)) : Prop
  | still : s'.busy = s.busy ∨ s'.busy = none → s'.pipe = s.pipe → Event.writes evs = [] →
      Event.completions evs = [] → (∀ i, Event.written evs i = []) → Ink s s' evs
  | begins : s.room.holder = some i → s'.busy = some (i, payload) → s'.pipe = s.pipe →
      Event.writes evs = [(i, payload)] → Event.holders evs = [i] →
      Event.completions evs = [] → (∀ j, Event.written evs j = []) → Ink s s' evs
  | accepts : s.busy = some (i, bytes ++ rest) → s'.busy = some (i, rest) →
      s'.pipe = s.pipe ++ bytes → Event.writes evs = [] → Event.completions evs = [] →
      (∀ j, Event.written evs j = if i = j then bytes else []) → Ink s s' evs
  | completes : s.busy = some (i, []) → s'.busy = none → s'.pipe = s.pipe →
      Event.writes evs = [] → Event.completions evs = [i] → (∀ j, Event.written evs j = []) →
      Ink s s' evs

theorem Move.ink (h : Move crate s a s' evs) : Ink s s' evs := by
  cases h with
  | begin hnext => exact .begins hnext.holder rfl rfl rfl rfl rfl fun _ => rfl
  | accept hbusy =>
    exact .accepts (by rw [hbusy, List.take_append_drop]) rfl rfl rfl rfl
      fun j => Event.written_accepted ..
  | complete hbusy => exact .completes hbusy rfl rfl rfl rfl fun _ => rfl
  | fail | dropWriting => exact .still (.inr rfl) rfl rfl rfl fun _ => rfl
  | _ => exact .still (.inl rfl) rfl rfl rfl fun _ => rfl

/-- What is in the pipe is what the calls wrote, one call after the other. -/
structure Inked (s : PyProcessStdin ι) (log : List (Event ι)) : Prop where
  order : ((Event.writes log).map Prod.fst).Sublist (Event.holders log)
  pipe : s.pipe = (Event.writes log).flatMap fun c => Event.written log c.1
  part : ∀ c ∈ Event.writes log, Event.written log c.1 <+: c.2
  whole : ∀ c ∈ Event.writes log, c.1 ∈ Event.completions log → Event.written log c.1 = c.2
  silent : ∀ i ∉ (Event.writes log).map Prod.fst, Event.written log i = []
  current : ∀ i rest, s.busy = some (i, rest) →
    ∃ before, Event.writes log = before ++ [(i, Event.written log i ++ rest)]
  returned : ∀ i ∈ Event.completions log, i ∈ (Event.writes log).map Prod.fst

theorem Inked.init : Inked (.new : PyProcessStdin ι) [] where
  order := List.Sublist.refl _
  pipe := rfl
  part := List.forall_mem_nil _
  whole := List.forall_mem_nil _
  silent _ _ := rfl
  current := nofun
  returned := List.forall_mem_nil _

theorem Inked.nodup (hi : Inked s log)
    (hroom : Seated s.room (Event.entries log) (Event.holders log) (Event.leavers log)) :
    ((Event.writes log).map Prod.fst).Nodup :=
  hroom.served_nodup.sublist hi.order

theorem Inked.fresh (hi : Inked s log)
    (hroom : Seated s.room (Event.entries log) (Event.holders log) (Event.leavers log))
    (hi' : s.room.holder = some i) : i ∉ (Event.writes log).map Prod.fst := by
  intro hmem
  have hserved := (hroom.got i).mp (hi.order.subset hmem)
  rw [hroom.waiting_of_holder hi'] at hserved
  cases hserved

theorem Inked.step (hi : Inked s log)
    (hroom : Seated s.room (Event.entries log) (Event.holders log) (Event.leavers log))
    (h : Ink s s' evs) : Inked s' (log ++ evs) := by
  cases h with
  | still hbusy hpipe hwrites hcompletions hwritten =>
    refine ⟨?_, ?_, ?_, ?_, ?_, ?_, ?_⟩ <;>
      simp only [Event.writes_append, Event.holders_append, Event.completions_append,
        Event.written_append, hwrites, hcompletions, hwritten, hpipe, List.append_nil]
    · exact hi.order.trans (List.sublist_append_left ..)
    · exact hi.pipe
    · exact hi.part
    · exact hi.whole
    · exact hi.silent
    · rcases hbusy with hbusy | hbusy <;> rw [hbusy]
      · exact hi.current
      · exact nofun
    · exact hi.returned
  | @begins i payload hholder hbusy hpipe hwrites hholders hcompletions hwritten =>
    have hfresh := hi.fresh hroom hholder
    have hnothing := hi.silent i hfresh
    refine ⟨?_, ?_, ?_, ?_, ?_, ?_, ?_⟩ <;>
      simp only [Event.writes_append, Event.holders_append, Event.completions_append,
        Event.written_append, hwrites, hholders, hcompletions, hwritten, hpipe, List.append_nil,
        List.map_append, List.map_singleton, List.mem_append, List.mem_singleton]
    · exact hi.order.append (List.Sublist.refl _)
    · simp [hi.pipe, hnothing]
    · rintro c (hc | rfl)
      · exact hi.part c hc
      · simp [hnothing]
    · rintro c (hc | rfl) hdone
      · exact hi.whole c hc hdone
      · exact absurd (hi.returned _ hdone) hfresh
    · exact fun j hj => hi.silent j fun hmem => hj (.inl hmem)
    · rintro j rest hj
      obtain ⟨rfl, rfl⟩ := Prod.mk.inj (Option.some.inj (hbusy.symm.trans hj))
      exact ⟨Event.writes log, by simp [hnothing]⟩
    · exact fun j hj => .inl (hi.returned j hj)
  | @accepts i bytes rest hold hbusy hpipe hwrites hcompletions hwritten =>
    obtain ⟨before, hbefore⟩ := hi.current i _ hold
    have hnodup := hi.nodup hroom
    -- the call that writes is the last that began, and no other call's bytes change
    have hother : ∀ c ∈ before, i ≠ c.1 := by
      rintro c hc rfl
      rw [hbefore, List.map_append, List.nodup_append] at hnodup
      exact hnodup.2.2 _ (List.mem_map_of_mem hc) _ (by simp) rfl
    have hwriter : ∀ c ∈ Event.writes log,
        c ∈ before ∨ c = (i, Event.written log i ++ (bytes ++ rest)) := by
      simp [hbefore]
    refine ⟨?_, ?_, ?_, ?_, ?_, ?_, ?_⟩ <;>
      simp only [Event.writes_append, Event.holders_append, Event.completions_append,
        Event.written_append, hwrites, hcompletions, hwritten, hpipe, List.append_nil]
    · exact hi.order.trans (List.sublist_append_left ..)
    · have hsame : before.flatMap (fun c => Event.written log c.1 ++ if i = c.1 then bytes else [])
          = before.flatMap fun c => Event.written log c.1 :=
        List.flatMap_congr fun c hc => by simp [hother c hc]
      rw [hi.pipe, hbefore, List.flatMap_append, List.flatMap_append, hsame]
      simp
    · intro c hc
      rcases hwriter c hc with hc' | rfl
      · simpa [hother c hc'] using hi.part c hc
      · exact ⟨rest, by simp⟩
    · intro c hc hdone
      have hwhole := hi.whole c hc hdone
      rcases hwriter c hc with hc' | rfl
      · simpa [hother c hc'] using hwhole
      · obtain ⟨rfl, rfl⟩ : bytes = [] ∧ rest = [] := by simpa using hwhole
        simp
    · intro j hj
      have hne : i ≠ j := by
        rintro rfl
        exact hj (by simp [hbefore])
      simpa [hne] using hi.silent j hj
    · intro j rest' hj
      obtain ⟨rfl, rfl⟩ := Prod.mk.inj (Option.some.inj (hbusy.symm.trans hj))
      exact ⟨before, by simp [hbefore]⟩
    · exact hi.returned
  | @completes i hold hbusy hpipe hwrites hcompletions hwritten =>
    obtain ⟨before, hbefore⟩ := hi.current i [] hold
    have hmem : (i, Event.written log i) ∈ Event.writes log := by simp [hbefore]
    refine ⟨?_, ?_, ?_, ?_, ?_, ?_, ?_⟩ <;>
      simp only [Event.writes_append, Event.holders_append, Event.completions_append,
        Event.written_append, hwrites, hcompletions, hwritten, hpipe, List.append_nil,
        List.mem_append, List.mem_singleton]
    · exact hi.order.trans (List.sublist_append_left ..)
    · exact hi.pipe
    · exact hi.part
    · rintro c hc (hdone | hdone)
      · exact hi.whole c hc hdone
      · have hsame := List.inj_on_of_nodup_map (hi.nodup hroom) hc hmem hdone
        rw [hsame]
    · exact hi.silent
    · intro j rest hj
      rw [hbusy] at hj
      cases hj
    · rintro j (hj | rfl)
      · exact hi.returned j hj
      · exact List.mem_map_of_mem hmem

-- ---------------------------------------------------------------------------
-- The end of the pipe
-- ---------------------------------------------------------------------------

/-- What has to be before an event: the writer is there for whoever writes, and the pipe ends once
and by a `close`. -/
def Ordered (before : List (Event ι)) : Event ι → Prop
  | .began .. | .accepted .. | .took _ => Event.takes before = []
  | .refused _ error => Event.takes before ≠ [] ∧ error = closedError
  | .ended => Event.takes before ≠ [] ∧ Event.ends before = []
  | .entered .. | .left _ | .acquired _ | .completed _ => True

structure Shut (s : PyProcessStdin ι) (log : List (Event ι)) : Prop where
  inner : s.inner = true ↔ Event.takes log = []
  busy : s.busy.isSome → s.inner = true
  finishing : ∀ i, s.work i = .finishing → Event.takes log = [i] ∧ Event.ends log = []
  unended : Event.takes log = [] → Event.ends log = []
  ordered : Justified Ordered log

omit [DecidableEq ι] in
theorem Shut.init : Shut (.new : PyProcessStdin ι) [] where
  inner := iff_of_true rfl rfl
  busy := nofun
  finishing := nofun
  unended _ := rfl
  ordered := .nil

omit [DecidableEq ι] in
theorem Shut.keep (hi : Shut s log) (hinner : s'.inner = s.inner)
    (hbusy : s'.busy.isSome → s.inner = true)
    (hwork : ∀ j, s'.work j = .finishing → s.work j = .finishing) (htakes : Event.takes evs = [])
    (hends : Event.ends evs = []) (hordered : Justified Ordered (log ++ evs)) :
    Shut s' (log ++ evs) where
  inner := by simpa [hinner, htakes] using hi.inner
  busy hsome := hinner ▸ hbusy hsome
  finishing j hj := by simpa [htakes, hends] using hi.finishing j (hwork j hj)
  unended := by simpa [htakes, hends] using hi.unended
  ordered := hordered

theorem Shut.finished (hi : Shut s log) (hwork : s.work i = .finishing) (hw : w ≠ .finishing) :
    Shut ({ s with ended := true }.goto i w) (log ++ [.ended]) where
  inner := by simpa [Event.takes] using hi.inner
  busy := hi.busy
  finishing j hj := by
    rw [goto_work] at hj
    split at hj
    · exact absurd hj hw
    · next hne =>
      have hsame : [i] = [j] := (hi.finishing i hwork).1.symm.trans (hi.finishing j hj).1
      exact absurd (List.singleton_inj.mp hsame).symm hne
  unended htakes := by simp [(hi.finishing i hwork).1] at htakes
  ordered := hi.ordered.snoc ⟨by simp [(hi.finishing i hwork).1], (hi.finishing i hwork).2⟩

theorem finishing_of_update {works : ι → Work} (hw : w ≠ .finishing)
    (hj : Function.update works i w j = .finishing) : works j = .finishing := by
  rw [Function.update_apply] at hj
  split at hj
  · exact absurd hj hw
  · exact hj

theorem Shut.step (hi : Shut s log) (h : Move crate s a s' evs) : Shut s' (log ++ evs) := by
  cases h with
  | enter | dropWaiting =>
    exact hi.keep rfl hi.busy (fun _ => finishing_of_update (by simp)) rfl rfl
      (hi.ordered.snoc trivial)
  | reject | closed =>
    exact hi.keep rfl hi.busy (fun _ => finishing_of_update (by simp)) rfl rfl
      (hi.ordered.snoc trivial)
  | begin hnext hinner =>
    have htakes := hi.inner.mp hinner
    exact hi.keep rfl (fun _ => hinner) (fun _ => finishing_of_update (by simp)) rfl rfl
      (hi.ordered.pair trivial (by simpa [Ordered, Event.takes] using htakes))
  | refuse hnext hinner =>
    have htakes : Event.takes log ≠ [] := fun hnil => by simp [hi.inner.mpr hnil] at hinner
    exact hi.keep rfl hi.busy (fun _ => finishing_of_update (by simp)) rfl rfl
      (hi.ordered.pair trivial ⟨by simpa [Event.takes] using htakes, rfl⟩)
  | @take i hnext hinner =>
    have htakes := hi.inner.mp hinner
    refine ⟨by simp [Event.takes], fun hsome => ?_, fun j hj => ?_, by simp [Event.takes], ?_⟩
    · simp [hnext.free] at hsome
    · have hj' : i = j := by
        by_contra hne
        have hsame := (hi.finishing j (by simpa [Ne.symm hne] using hj)).1
        rw [htakes] at hsame
        cases hsame
      subst hj'
      rw [Event.takes_append, Event.ends_append, htakes, hi.unended htakes]
      exact ⟨rfl, rfl⟩
    · exact hi.ordered.pair trivial (by simpa [Ordered, Event.takes] using htakes)
  | accept hbusy =>
    have htakes := hi.inner.mp (hi.busy (by simp [hbusy]))
    exact hi.keep rfl (fun _ => hi.busy (by simp [hbusy])) (fun _ => id) rfl rfl
      (hi.ordered.snoc htakes)
  | complete =>
    exact hi.keep rfl nofun (fun _ => finishing_of_update (by simp)) rfl rfl
      (hi.ordered.snoc trivial)
  | fail | dropWriting =>
    exact hi.keep rfl nofun (fun _ => finishing_of_update (by simp)) rfl rfl
      (by simpa using hi.ordered)
  | finish hwork => exact hi.finished hwork (by simp)
  | dropFinishing hwork => exact hi.finished hwork (by simp)

-- ---------------------------------------------------------------------------
-- What a call returns
-- ---------------------------------------------------------------------------

/-- How far a call is: one that returns has written its payload, or was refused, or has failed. -/
def Stands (crate : Crate) (log : List (Event ι)) (i : ι) : Call → Work → Prop
  | call, .asked call' => call' = call
  | .verb verb, .writing verb' => verb' = verb ∧
    ∃ payload, crate.payload verb = .ok payload ∧ (i, payload) ∈ Event.writes log
  | .verb verb, .answered (.ok ()) =>
    ∃ payload, crate.payload verb = .ok payload ∧ (i, payload) ∈ Event.writes log ∧
      i ∈ Event.completions log
  | .verb verb, .answered (.error error) =>
    error = closedError ∧ Event.takes log ≠ [] ∨ ∃ failure, error = crate.mapErr verb failure
  | .close, .finishing | .close, .answered _ | _, .dropped => True
  | .verb _, .finishing | .close, .writing _ | _, .idle => False

omit [DecidableEq ι] in
theorem Stands.mono {call : Call} {work : Work} (h : Stands crate log i call work) :
    Stands crate (log ++ evs) i call work := by
  unfold Stands at h ⊢
  split at h
  · exact h
  · obtain ⟨heq, payload, hpayload, hmem⟩ := h
    exact ⟨heq, payload, hpayload, by simp [hmem]⟩
  · obtain ⟨payload, hpayload, hmem, hdone⟩ := h
    exact ⟨payload, hpayload, by simp [hmem], by simp [hdone]⟩
  · exact h.imp_left fun hclosed => ⟨hclosed.1, by simp [hclosed.2]⟩
  all_goals exact h

structure Standing (crate : Crate) (s : PyProcessStdin ι) (log : List (Event ι)) : Prop where
  stands : ∀ i call, .entered i call ∈ log → Stands crate log i call (s.work i)
  seen : ∀ i, s.work i ≠ .idle → i ∈ Event.entries log
  busy : ∀ i rest, s.busy = some (i, rest) → ∃ verb, s.work i = .writing verb

omit [DecidableEq ι] in
theorem Standing.init : Standing crate (.new : PyProcessStdin ι) [] := ⟨nofun, nofun, nofun⟩

omit [DecidableEq ι] in
theorem mem_entries : i ∈ Event.entries log ↔ ∃ call, .entered i call ∈ log := by
  simp only [Event.entries, List.mem_filterMap]
  constructor
  · rintro ⟨event, hmem, hsome⟩
    split at hsome <;> cases hsome
    exact ⟨_, hmem⟩
  · rintro ⟨call, hmem⟩
    exact ⟨_, hmem, rfl⟩

theorem Standing.goto (h : Standing crate s log) (hwork : s'.work = Function.update s.work i w)
    (hevs : ∀ j call, .entered j call ∈ evs → j = i) (hseen : i ∈ Event.entries (log ++ evs))
    (hnew : ∀ call, .entered i call ∈ log ++ evs → Stands crate (log ++ evs) i call w)
    (hbusy : ∀ j rest, s'.busy = some (j, rest) → ∃ verb, s'.work j = .writing verb) :
    Standing crate s' (log ++ evs) := by
  refine ⟨fun j call hmem => ?_, fun j hj => ?_, hbusy⟩
  · by_cases heq : j = i
    · subst heq
      rw [hwork, Function.update_self]
      exact hnew call hmem
    · rw [hwork, Function.update_of_ne heq]
      rcases List.mem_append.mp hmem with hmem | hmem
      · exact (h.stands j call hmem).mono
      · exact absurd (hevs j call hmem) heq
  · by_cases heq : j = i
    · exact heq ▸ hseen
    · rw [hwork, Function.update_of_ne heq] at hj
      simp [h.seen j hj]

omit [DecidableEq ι] in
theorem Standing.came {w : Work} (h : Standing crate s log) (hwork : s.work i = w)
    (hne : w ≠ .idle) : i ∈ Event.entries (log ++ evs) := by
  simp [h.seen i (hwork ▸ hne)]

theorem Standing.move {w old : Work} (h : Standing crate s log)
    (hwork : s'.work = Function.update s.work i w) (hold : s.work i = old) (hne : old ≠ .idle)
    (hquiet : ∀ j call, .entered j call ∉ evs)
    (hnew : ∀ call, Stands crate log i call old → Stands crate (log ++ evs) i call w)
    (hbusy : ∀ j rest, s'.busy = some (j, rest) → ∃ verb, s'.work j = .writing verb) :
    Standing crate s' (log ++ evs) := by
  refine h.goto hwork (fun j call hmem => absurd hmem (hquiet j call)) (h.came hold hne)
    (fun call hmem => ?_) hbusy
  rcases List.mem_append.mp hmem with hmem | hmem
  · exact hnew call (hold ▸ h.stands i call hmem)
  · exact absurd hmem (hquiet i call)

theorem Standing.others {w old : Work} (h : Standing crate s log) (hold : s.work i = old)
    (hne : ∀ verb, old ≠ .writing verb) (hbusy : s.busy = some (j, rest)) :
    ∃ verb, Function.update s.work i w j = .writing verb := by
  obtain ⟨verb, hverb⟩ := h.busy j rest hbusy
  have hji : j ≠ i := by
    rintro rfl
    exact hne verb (hold.symm.trans hverb)
  exact ⟨verb, by rw [Function.update_of_ne hji, hverb]⟩

theorem Standing.step (h : Standing crate s log)
    (hroom : Seated s.room (Event.entries log) (Event.holders log) (Event.leavers log))
    (hink : Inked s log) (hshut : Shut s log) (hmove : Move crate s a s' evs) :
    Standing crate s' (log ++ evs) := by
  cases hmove with
  | @enter i call houtside =>
    have hnew : i ∉ Event.entries log := fun hin => (hroom.came i).mp hin houtside
    refine h.goto rfl (by simp) (by simp [Event.entries]) (fun call' hmem => ?_)
      fun j rest hbusy => ?_
    · rcases List.mem_append.mp hmem with hmem | hmem
      · exact absurd (mem_entries.mpr ⟨call', hmem⟩) hnew
      · cases List.mem_singleton.mp hmem
        exact rfl
    · obtain ⟨verb, hverb⟩ := h.busy j rest hbusy
      have hne : j ≠ i := by
        rintro rfl
        exact hnew (h.seen _ (by simp [hverb]))
      exact ⟨verb, by simpa [hne] using hverb⟩
  | @begin i verb payload hnext hinner hpayload =>
    refine h.move rfl hnext.work (by simp) (by simp) (fun call hcall => ?_) fun j rest hbusy => ?_
    · obtain rfl : .verb verb = call := hcall
      exact ⟨rfl, payload, hpayload, by simp [Event.writes]⟩
    · cases hbusy
      exact ⟨verb, by simp⟩
  | @reject i verb error hnext hinner hpayload =>
    refine h.move rfl hnext.work (by simp) (by simp) (fun call hcall => ?_)
      fun j rest hbusy => h.others hnext.work (by simp) hbusy
    obtain rfl : .verb verb = call := hcall
    exact .inr ⟨error, rfl⟩
  | @refuse i verb hnext hinner =>
    refine h.move rfl hnext.work (by simp) (by simp) (fun call hcall => ?_)
      fun j rest hbusy => h.others hnext.work (by simp) hbusy
    obtain rfl : .verb verb = call := hcall
    have htakes : Event.takes log ≠ [] := fun hnil => by simp [hshut.inner.mpr hnil] at hinner
    exact .inl ⟨rfl, by simp [htakes]⟩
  | take hnext | closed hnext =>
    refine h.move rfl hnext.work (by simp) (by simp) (fun call hcall => ?_)
      fun j rest hbusy => h.others hnext.work (by simp) hbusy
    obtain rfl : .close = call := hcall
    trivial
  | @accept i rest count hbusy =>
    refine ⟨fun j call hmem => ?_, fun j hj => by simp [h.seen j hj], fun j rest' hj => ?_⟩
    · exact (h.stands j call (by simpa using hmem)).mono
    · cases hj
      exact h.busy i rest hbusy
  | @complete i hbusy =>
    obtain ⟨verb, hverb⟩ := h.busy i [] hbusy
    refine h.move rfl hverb (by simp) (by simp) (fun call hcall => ?_) nofun
    cases call with
    | verb asked =>
      obtain ⟨rfl, payload, hpayload, hmem⟩ := hcall
      exact ⟨payload, hpayload, by simp [hmem], by simp [Event.completions]⟩
    | close => exact hcall.elim
  | @fail i rest verb error hbusy hwork =>
    refine h.move rfl hwork (by simp) (by simp) (fun call hcall => ?_) nofun
    cases call with
    | verb asked =>
      obtain ⟨rfl, -⟩ := hcall
      exact .inr ⟨error, rfl⟩
    | close => exact hcall.elim
  | finish hwork =>
    refine h.move rfl hwork (by simp) (by simp) (fun call hcall => ?_)
      fun j rest hbusy => h.others hwork (by simp) hbusy
    cases call with
    | verb asked => exact hcall.elim
    | close => simp [Stands]
  | @dropWaiting i hseat =>
    have hin : i ∈ Event.entries log := (hroom.came i).mpr (by simp [hseat])
    refine h.goto rfl (by simp) (by simp [hin]) (fun call _ => by cases call <;> trivial)
      fun j rest hbusy => ?_
    obtain ⟨verb, hverb⟩ := h.busy j rest hbusy
    obtain ⟨before, hbefore⟩ := hink.current j rest hbusy
    have hserved := (hroom.got j).mp (hink.order.subset (by simp [hbefore]))
    have hji : j ≠ i := by
      rintro rfl
      rw [hseat] at hserved
      cases hserved
    exact ⟨verb, by simpa [hji] using hverb⟩
  | dropWriting hwork =>
    exact h.move rfl hwork (by simp) (by simp) (fun call _ => by cases call <;> trivial) nofun
  | dropFinishing hwork =>
    exact h.move rfl hwork (by simp) (by simp) (fun call _ => by cases call <;> trivial)
      fun j rest hbusy => h.others hwork (by simp) hbusy

-- ---------------------------------------------------------------------------
-- Every run
-- ---------------------------------------------------------------------------

structure Writing (crate : Crate) (s : PyProcessStdin ι) (log : List (Event ι)) : Prop where
  seated : Seated s.room (Event.entries log) (Event.holders log) (Event.leavers log)
  inked : Inked s log
  shut : Shut s log
  standing : Standing crate s log

theorem Writing.of_reachable (hfifo : Fifo grant) (hr : (machine grant crate).Reachable s log) :
    Writing crate s log :=
  hr.invariant ⟨.empty, .init, .init, .init⟩ fun _ _ _ _ _ hi _ hs =>
    have hmove := Move.of_step hfifo hs
    ⟨by simpa using hi.seated.step hmove.visit, hi.inked.step hi.seated hmove.ink,
      hi.shut.step hmove, hi.standing.step hi.seated hi.inked hi.shut hmove⟩

/-- What a `ProcessStdin` promises of its calls, whatever their order. -/
structure Serial (grant : List ι → Option ι) (crate : Crate) (s : PyProcessStdin ι)
    (log : List (Event ι)) : Prop where
  pipe : s.pipe = (Event.writes log).flatMap fun c => Event.written log c.1
  part : ∀ c ∈ Event.writes log, Event.written log c.1 <+: c.2
  order : ((Event.writes log).map Prod.fst).Sublist (Event.holders log)
  turn : (Event.holders log).Sublist (Event.entries log)
  once : (Event.entries log).Nodup
  ordered : Justified Ordered log
  returns : ∀ i verb, .entered i (.verb verb) ∈ log → s.work i = .answered (.ok ()) →
    crate.payload verb = .ok (Event.written log i)
  raises : ∀ i verb error, .entered i (.verb verb) ∈ log → s.work i = .answered (.error error) →
    error = closedError ∧ Event.takes log ≠ [] ∨ ∃ failure, error = crate.mapErr verb failure
  refuses : Event.takes log ≠ [] → ∀ i verb, s.Next i (.verb verb) →
    ∃ s', s.step grant crate .acquire = some (s', [.acquired i, .refused i closedError]) ∧
      s'.work i = .answered (.error closedError)

theorem Writing.returns (hi : Writing crate s log) (hmem : .entered i (.verb verb) ∈ log)
    (hwork : s.work i = .answered (.ok ())) : crate.payload verb = .ok (Event.written log i) := by
  have hstands := hi.standing.stands i _ hmem
  rw [hwork] at hstands
  obtain ⟨payload, hpayload, hwrites, hdone⟩ := hstands
  rw [hi.inked.whole _ hwrites hdone, hpayload]

theorem Writing.refuses (hi : Writing crate s log) (hfifo : Fifo grant)
    (htakes : Event.takes log ≠ []) (hnext : s.Next i (.verb verb)) :
    ∃ s', s.step grant crate .acquire = some (s', [.acquired i, .refused i closedError]) ∧
      s'.work i = .answered (.error closedError) := by
  have hinner : s.inner = false := by
    cases hcase : s.inner with
    | false => rfl
    | true => exact absurd (hi.shut.inner.mp hcase) htakes
  refine ⟨({ s with room := s.room.serve i }).goto i (.answered (.error closedError)), ?_, by simp⟩
  simp [PyProcessStdin.step, hfifo.granted, hnext.free, hnext.holder, hnext.work,
    PyProcessStdin.acquire, hinner]

/-- The writer of a pipe, for letters as control characters. -/
def pipeWriter : Crate where
  payload
    | .write data => .ok data
    | .writeLine line => .ok (line.toList.flatMap String.utf8EncodeChar ++ [10])
    | .sendControl control =>
      if control.isAlpha then .ok [(control.toNat % 32).toUInt8]
      else .error ⟨true, "not a control character"⟩
    | .flush => .ok []
  fromIo error := ⟨"OSError", error.text⟩

/-- A write is dropped after a byte, a control byte goes through, and a close comes before a
flush. -/
def crowded : List (Action Nat) :=
  [.enter 0 (.verb (.write [1, 2])), .enter 1 (.verb (.sendControl 'c')), .enter 2 .close,
    .enter 3 (.verb .flush), .acquire, .accept 1, .drop 0, .acquire, .accept 1, .complete, .acquire,
    .acquire, .finish 2 (.ok ())]

end PyProcessStdin

end ProcessKit.Running.Stdin

import Mathlib.Data.List.Nodup
import Mathlib.Logic.Function.Basic

/-!
# A lock that is passed on in turn

The calls that want a fair lock stand in a line, and the first of them has it. A call leaves when
it is served or gives up, wherever it stands, and what is behind it moves up. A room is a line with
what has become of every call. Which call has the lock of a mutex from elsewhere is its own choice,
and `Fifo` is what is relied on of it.

`Seated` is an account of a room over a run, by three lists: who entered, who was served and who
left without. Whatever the steps between two entries, the calls are served in the order in which
they entered, once each.
-/

namespace FairLock

structure Line (ι : Type u) where
  calls : List ι
  nodup : calls.Nodup

namespace Line

def empty : Line ι := ⟨[], List.nodup_nil⟩

def holder (line : Line ι) : Option ι := line.calls.head?

theorem mem_of_holder {line : Line ι} (h : line.holder = some i) : i ∈ line.calls :=
  List.mem_of_mem_head? (Option.mem_def.mpr h)

section
variable [DecidableEq ι]

/-- A call that is in the line already keeps its place. -/
def enter (line : Line ι) (i : ι) : Line ι :=
  if h : i ∈ line.calls then line
  else ⟨line.calls ++ [i], List.nodup_append.mpr ⟨line.nodup, List.nodup_singleton i, by
    rintro a ha b hb rfl
    exact h (List.mem_singleton.mp hb ▸ ha)⟩⟩

def leave (line : Line ι) (i : ι) : Line ι := ⟨line.calls.erase i, line.nodup.erase i⟩

variable {line : Line ι} {i j : ι}

theorem calls_enter (h : i ∉ line.calls) : (line.enter i).calls = line.calls ++ [i] := by
  simp [enter, h]

@[simp] theorem mem_enter : j ∈ (line.enter i).calls ↔ j ∈ line.calls ∨ j = i := by
  by_cases h : i ∈ line.calls
  · simp only [enter, h, dif_pos, iff_self_or]
    rintro rfl
    exact h
  · simp [calls_enter h]

@[simp] theorem mem_leave : j ∈ (line.leave i).calls ↔ j ≠ i ∧ j ∈ line.calls :=
  line.nodup.mem_erase_iff

theorem holder_enter (h : line.holder = some i) : (line.enter j).holder = some i := by
  by_cases hj : j ∈ line.calls
  · simpa [enter, hj] using h
  · obtain ⟨rest, hcalls⟩ := List.head?_eq_some_iff.mp h
    simp [holder, calls_enter hj, hcalls]

theorem holder_leave (h : line.holder = some i) (hne : j ≠ i) :
    (line.leave j).holder = some i := by
  obtain ⟨rest, hcalls⟩ := List.head?_eq_some_iff.mp h
  simp [holder, leave, hcalls, Ne.symm hne]

end

end Line

-- ---------------------------------------------------------------------------
-- What becomes of a call
-- ---------------------------------------------------------------------------

inductive Seat
  | outside
  | waiting
  | served
  | left
  deriving DecidableEq

structure Room (ι : Type u) where
  line : Line ι
  seat : ι → Seat

namespace Room

def empty : Room ι := ⟨.empty, fun _ => .outside⟩

def holder (room : Room ι) : Option ι := room.line.holder

/-- The call that a mutex gives the lock to, by the line of those that have come and not gone. -/
def granted (room : Room ι) (grant : List ι → Option ι) : Option ι := grant room.line.calls

variable [DecidableEq ι]

def enter (room : Room ι) (i : ι) : Room ι :=
  ⟨room.line.enter i, Function.update room.seat i .waiting⟩

def serve (room : Room ι) (i : ι) : Room ι :=
  ⟨room.line.leave i, Function.update room.seat i .served⟩

def leave (room : Room ι) (i : ι) : Room ι :=
  ⟨room.line.leave i, Function.update room.seat i .left⟩

theorem holder_enter {room : Room ι} (h : room.holder = some i) :
    (room.enter j).holder = some i := Line.holder_enter h

theorem holder_leave {room : Room ι} (h : room.holder = some i) (hne : j ≠ i) :
    (room.leave j).holder = some i := Line.holder_leave h hne

end Room

/-- What is documented of a fair mutex: whoever has come first has the lock. -/
def Fifo (grant : List ι → Option ι) : Prop := ∀ calls, grant calls = calls.head?

theorem Fifo.granted {grant : List ι → Option ι} (h : Fifo grant) (room : Room ι) :
    room.granted grant = room.holder :=
  h room.line.calls

theorem Fifo.head : Fifo (List.head? : List ι → Option ι) := fun _ => rfl

/-- One step of a room, with who enters, is served and leaves in it. -/
inductive Visit [DecidableEq ι] (room : Room ι) : Room ι → List ι → List ι → List ι → Prop
  | stays : Visit room room [] [] []
  | enters : room.seat i = .outside → Visit room (room.enter i) [i] [] []
  | serves : room.holder = some i → Visit room (room.serve i) [] [i] []
  | leaves : room.seat i = .waiting → Visit room (room.leave i) [] [] [i]

-- ---------------------------------------------------------------------------
-- The order of a run
-- ---------------------------------------------------------------------------

/-- Those who were served and those who wait are some of those who entered, in their order. -/
def InTurn (entered served : List ι) (line : Line ι) : Prop :=
  (served ++ line.calls).Sublist entered

namespace InTurn

variable {entered served : List ι} {line : Line ι} {i : ι}

theorem order (h : InTurn entered served line) : served.Sublist entered :=
  (List.sublist_append_left _ _).trans h

variable [DecidableEq ι]

theorem enter (h : InTurn entered served line) (hi : i ∉ line.calls) :
    InTurn (entered ++ [i]) served (line.enter i) := by
  rw [InTurn, Line.calls_enter hi, ← List.append_assoc]
  exact h.append (List.Sublist.refl _)

theorem leave (h : InTurn entered served line) (i : ι) : InTurn entered served (line.leave i) :=
  ((List.Sublist.refl _).append List.erase_sublist).trans h

theorem serve (h : InTurn entered served line) (hi : line.holder = some i) :
    InTurn entered (served ++ [i]) (line.leave i) := by
  obtain ⟨rest, hcalls⟩ := List.head?_eq_some_iff.mp hi
  simpa [InTurn, Line.leave, hcalls] using h

end InTurn

/-- Every call is where the three lists have it. -/
structure Seated (room : Room ι) (entered served left : List ι) : Prop where
  waits (i : ι) : i ∈ room.line.calls ↔ room.seat i = .waiting
  came (i : ι) : i ∈ entered ↔ room.seat i ≠ .outside
  got (i : ι) : i ∈ served ↔ room.seat i = .served
  went (i : ι) : i ∈ left ↔ room.seat i = .left
  once : entered.Nodup
  turn : InTurn entered served room.line

namespace Seated

variable {room room' : Room ι} {entered served left : List ι} {i : ι}

theorem empty : Seated (Room.empty : Room ι) [] [] [] where
  waits _ := by simp [Room.empty, Line.empty]
  came _ := by simp [Room.empty]
  got _ := by simp [Room.empty]
  went _ := by simp [Room.empty]
  once := List.nodup_nil
  turn := List.Sublist.refl _

theorem waiting_of_holder (h : Seated room entered served left) (hi : room.holder = some i) :
    room.seat i = .waiting :=
  (h.waits i).mp (Line.mem_of_holder hi)

theorem not_served (h : Seated room entered served left) (hi : i ∈ left) : i ∉ served := by
  rw [h.got, (h.went i).mp hi]
  exact Seat.noConfusion

theorem served_nodup (h : Seated room entered served left) : served.Nodup :=
  h.once.sublist h.turn.order

theorem accounted (h : Seated room entered served left) (hi : i ∈ entered) :
    i ∈ room.line.calls ∨ i ∈ served ∨ i ∈ left := by
  rw [h.waits, h.got, h.went]
  have hseat := (h.came i).mp hi
  cases hcase : room.seat i <;> simp [hcase] at hseat ⊢

variable [DecidableEq ι]

theorem step (h : Seated room entered served left) (hv : Visit room room' e s l) :
    Seated room' (entered ++ e) (served ++ s) (left ++ l) := by
  cases hv with
  | stays => simpa using h
  | @enters i houtside =>
    have hline : i ∉ room.line.calls := fun hin => by simp [(h.waits i).mp hin] at houtside
    have hnew : i ∉ entered := fun hin => (h.came i).mp hin houtside
    refine ⟨fun j => ?_, fun j => ?_, fun j => ?_, fun j => ?_, ?_, ?_⟩
    · by_cases hj : j = i <;> simp [Room.enter, hj, h.waits]
    · by_cases hj : j = i <;> simp [Room.enter, hj, h.came]
    · by_cases hj : j = i <;> simp [Room.enter, hj, h.got, houtside]
    · by_cases hj : j = i <;> simp [Room.enter, hj, h.went, houtside]
    · refine List.nodup_append.mpr ⟨h.once, List.nodup_singleton i, ?_⟩
      rintro a ha b hb rfl
      exact hnew (List.mem_singleton.mp hb ▸ ha)
    · simpa [Room.enter] using h.turn.enter hline
  | @serves i hholder =>
    have hwaiting := h.waiting_of_holder hholder
    refine ⟨fun j => ?_, fun j => ?_, fun j => ?_, fun j => ?_, by simpa using h.once, ?_⟩
    · by_cases hj : j = i <;> simp [Room.serve, hj, h.waits]
    · by_cases hj : j = i <;> simp [Room.serve, hj, h.came, hwaiting]
    · by_cases hj : j = i <;> simp [Room.serve, hj, h.got]
    · by_cases hj : j = i <;> simp [Room.serve, hj, h.went, hwaiting]
    · simpa [Room.serve] using h.turn.serve hholder
  | @leaves i hwaiting =>
    refine ⟨fun j => ?_, fun j => ?_, fun j => ?_, fun j => ?_, by simpa using h.once, ?_⟩
    · by_cases hj : j = i <;> simp [Room.leave, hj, h.waits]
    · by_cases hj : j = i <;> simp [Room.leave, hj, h.came, hwaiting]
    · by_cases hj : j = i <;> simp [Room.leave, hj, h.got, hwaiting]
    · by_cases hj : j = i <;> simp [Room.leave, hj, h.went]
    · simpa [Room.leave] using h.turn.leave i

end Seated

end FairLock

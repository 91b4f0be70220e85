import ProcessKit.Runtime.Hub
import ProcessKit.Shared
import ProcessKit.Transition

/-!
# One group and the calls that share it

A `ProcessGroup` keeps the crate's group in a `Mutex<Option<Arc<_>>>`. A verb clones the `Arc` out
from under the lock and works on its clone for as long as it likes; a teardown takes the `Arc`
itself; `update_limits` keeps the lock and changes the group in place, which it may only do while
there is no clone. A clone is let go of at any time, its call's future having been dropped.

So a verb works under one set of limits from its start to its end, a closed group is closed for
good, and the group is freed with the last call that uses it and not before. An update that fails
is not rolled back: what it has written by then stays.
-/

namespace ProcessKit.Group

open ProcessKit.Runtime (PyErr ProcessError.newErr)
open Shared (Heap)
open Shared.Heap (Owners)
open Transition (Justified)

/-- `ResourceLimits`; `κ` is the type of the floats. -/
structure ResourceLimits (κ : Type) where
  maxMemory : Option UInt64
  maxProcesses : Option UInt32
  cpuQuota : Option κ
  deriving DecidableEq

/-- What the crate made of an update: it took it, or it failed with these axes written. -/
inductive Applied
  | all
  | failed (maxMemory maxProcesses cpuQuota : Bool)
  deriving DecidableEq

def ResourceLimits.written (old new : ResourceLimits κ) : Applied → ResourceLimits κ
  | .all => new
  | .failed maxMemory maxProcesses cpuQuota =>
    ⟨if maxMemory then new.maxMemory else old.maxMemory,
      if maxProcesses then new.maxProcesses else old.maxProcesses,
      if cpuQuota then new.cpuQuota else old.cpuQuota⟩

def closedError : PyErr := ProcessError.newErr "ProcessGroup is already closed"
def busyError : PyErr := ProcessError.newErr "ProcessGroup is busy with another operation"

/-- What a call holds: a clone of the `Arc`, the `Arc` taken from the slot, or the slot's lock with
the limits that it is about to set. -/
inductive Place (κ : Type)
  | idle
  | holding (name : Nat)
  | tearing (name : Nat)
  | updating (name : Nat) (limits : ResourceLimits κ)
  | finished

def Place.isUsing : Place κ → Bool
  | .holding _ => true
  | .idle | .tearing _ | .updating .. | .finished => false

def Place.isTearing : Place κ → Bool
  | .tearing _ => true
  | .idle | .holding _ | .updating .. | .finished => false

def Place.held : Place κ → Option Nat
  | .holding name | .tearing name => some name
  | .idle | .updating .. | .finished => none

theorem Place.of_held {place : Place κ} (h : place.held = none) :
    place.isUsing = false ∧ place.isTearing = false := by
  cases place <;> first | exact ⟨rfl, rfl⟩ | cases h

/-- `lock` is the call that keeps the slot's lock between two sections. -/
structure ProcessGroup (ι κ : Type) where
  heap : Heap (ResourceLimits κ)
  slot : Option Nat
  lock : Option ι
  place : ι → Place κ

/-- `ProcessGroup(...)`, with the limits it was made with. -/
def ProcessGroup.new (limits : ResourceLimits κ) : ProcessGroup ι κ where
  heap := Heap.empty.new limits
  slot := some (Heap.empty : Heap (ResourceLimits κ)).fresh
  lock := none
  place _ := .idle

inductive Action (ι κ : Type)
  | group (i : ι)
  | take (i : ι)
  | getMut (i : ι) (limits : ResourceLimits κ)
  | update (i : ι) (applied : Applied)
  | use (i : ι)
  | release (i : ι)
  | collect

inductive Event (ι κ : Type)
  | cloned (i : ι) (limits : Option (ResourceLimits κ))
  | took (i : ι)
  | refused (i : ι) (error : PyErr)
  | updated (i : ι) (limits : ResourceLimits κ) (applied : Applied)
  | used (i : ι) (limits : Option (ResourceLimits κ))
  | shutdown (i : ι)
  | released (i : ι)
  | collected
  | freed

namespace ProcessGroup

variable {ι κ : Type} [DecidableEq ι]

def goto (s : ProcessGroup ι κ) (i : ι) (place : Place κ) : ProcessGroup ι κ :=
  { s with place := Function.update s.place i place }

@[simp] theorem goto_place (s : ProcessGroup ι κ) (i : ι) (place : Place κ) (j : ι) :
    (s.goto i place).place j = if j = i then place else s.place j := Function.update_apply ..

@[simp] theorem goto_heap (s : ProcessGroup ι κ) : (s.goto i p).heap = s.heap := rfl
@[simp] theorem goto_slot (s : ProcessGroup ι κ) : (s.goto i p).slot = s.slot := rfl

/-- What is said of a dropped `Arc` when it was the last. -/
def freed (s : ProcessGroup ι κ) (name : Nat) : List (Event ι κ) :=
  if ((s.heap.release name).get name).isNone then [.freed] else []

def begin (s : ProcessGroup ι κ) (i : ι) (onClosed : List (Event ι κ))
    (onOpen : Nat → ProcessGroup ι κ × List (Event ι κ)) :
    Option (ProcessGroup ι κ × List (Event ι κ)) :=
  match s.place i, s.lock with
  | .idle, none =>
    match s.slot with
    | some name => some (onOpen name)
    | none => some (s.goto i .finished, onClosed)
  | _, _ => none

def step (s : ProcessGroup ι κ) : Action ι κ → Option (ProcessGroup ι κ × List (Event ι κ))
  | .group i => s.begin i [.refused i closedError] fun name =>
    ({ s with heap := s.heap.clone name }.goto i (.holding name), [.cloned i (s.heap.get name)])
  | .take i => s.begin i [] fun name =>
    ({ s with slot := none }.goto i (.tearing name), [.took i])
  | .getMut i limits => s.begin i [.refused i closedError] fun name =>
    match s.heap.getMut name with
    | some _ => ({ s with lock := some i }.goto i (.updating name limits), [])
    | none => (s.goto i .finished, [.refused i busyError])
  | .update i applied =>
    match s.place i with
    | .updating name limits =>
      some ({ s with heap := s.heap.modify name (·.written limits applied), lock := none }.goto i
        .finished, [.updated i limits applied])
    | _ => none
  | .use i =>
    match s.place i with
    | .holding name => some (s, [.used i (s.heap.get name)])
    | .tearing _ => some (s, [.shutdown i])
    | _ => none
  | .release i =>
    match (s.place i).held with
    | some name =>
      some ({ s with heap := s.heap.release name }.goto i .finished, .released i :: s.freed name)
    | none => none
  | .collect =>
    match s.slot, s.lock with
    | some name, none =>
      some ({ s with heap := s.heap.release name, slot := none }, .collected :: s.freed name)
    | _, _ => none

def machine (limits : ResourceLimits κ) :
    Transition.Machine (ProcessGroup ι κ) (Action ι κ) (Event ι κ) where
  init := .new limits
  step := step

-- ---------------------------------------------------------------------------
-- What a step can do
-- ---------------------------------------------------------------------------

inductive Move (s : ProcessGroup ι κ) :
    Action ι κ → ProcessGroup ι κ → List (Event ι κ) → Prop
  | clone : s.place i = .idle → s.lock = none → s.slot = some name →
      Move s (.group i) ({ s with heap := s.heap.clone name }.goto i (.holding name))
        [.cloned i (s.heap.get name)]
  | take : s.place i = .idle → s.lock = none → s.slot = some name →
      Move s (.take i) ({ s with slot := none }.goto i (.tearing name)) [.took i]
  | lock : s.place i = .idle → s.lock = none → s.slot = some name →
      s.heap.getMut name = some value →
      Move s (.getMut i limits) ({ s with lock := some i }.goto i (.updating name limits)) []
  | busy : s.place i = .idle → s.lock = none → s.slot = some name → s.heap.getMut name = none →
      Move s (.getMut i limits) (s.goto i .finished) [.refused i busyError]
  | refuse : s.place i = .idle → s.lock = none → s.slot = none →
      (a = .group i ∨ ∃ limits, a = .getMut i limits) →
      Move s a (s.goto i .finished) [.refused i closedError]
  | again : s.place i = .idle → s.lock = none → s.slot = none →
      Move s (.take i) (s.goto i .finished) []
  | update : s.place i = .updating name limits →
      Move s (.update i applied)
        ({ s with heap := s.heap.modify name (·.written limits applied), lock := none }.goto i
          .finished)
        [.updated i limits applied]
  | use : s.place i = .holding name → Move s (.use i) s [.used i (s.heap.get name)]
  | shutdown : s.place i = .tearing name → Move s (.use i) s [.shutdown i]
  | release : (s.place i).held = some name →
      Move s (.release i) ({ s with heap := s.heap.release name }.goto i .finished)
        (.released i :: s.freed name)
  | collect : s.slot = some name → s.lock = none →
      Move s .collect { s with heap := s.heap.release name, slot := none }
        (.collected :: s.freed name)

variable {s s' : ProcessGroup ι κ} {log evs : List (Event ι κ)}

theorem begin_cases {onOpen : Nat → ProcessGroup ι κ × List (Event ι κ)}
    (hs : s.begin i onClosed onOpen = some (s', evs)) :
    s.place i = .idle ∧ s.lock = none ∧
      ((∃ name, s.slot = some name ∧ onOpen name = (s', evs)) ∨
        s.slot = none ∧ s.goto i .finished = s' ∧ onClosed = evs) := by
  simp only [ProcessGroup.begin] at hs
  split at hs
  · next hplace hfree =>
    refine ⟨hplace, hfree, ?_⟩
    split at hs
    · exact .inl ⟨_, ‹_›, Option.some.inj hs⟩
    · exact .inr ⟨‹_›, Prod.mk.inj (Option.some.inj hs)⟩
  · cases hs

theorem Move.of_step (hs : s.step a = some (s', evs)) : Move s a s' evs := by
  cases a with
  | group i =>
    obtain ⟨hplace, hfree, ⟨name, hslot, hopen⟩ | ⟨hslot, rfl, rfl⟩⟩ := begin_cases hs
    · cases hopen
      exact .clone hplace hfree hslot
    · exact .refuse hplace hfree hslot (.inl rfl)
  | take i =>
    obtain ⟨hplace, hfree, ⟨name, hslot, hopen⟩ | ⟨hslot, rfl, rfl⟩⟩ := begin_cases hs
    · cases hopen
      exact .take hplace hfree hslot
    · exact .again hplace hfree hslot
  | getMut i limits =>
    obtain ⟨hplace, hfree, ⟨name, hslot, hopen⟩ | ⟨hslot, rfl, rfl⟩⟩ := begin_cases hs
    · split at hopen <;> cases hopen
      · exact .lock hplace hfree hslot ‹_›
      · exact .busy hplace hfree hslot ‹_›
    · exact .refuse hplace hfree hslot (.inr ⟨limits, rfl⟩)
  | update i applied =>
    simp only [ProcessGroup.step] at hs
    split at hs <;> cases hs
    exact .update ‹_›
  | use i =>
    simp only [ProcessGroup.step] at hs
    split at hs <;> cases hs
    · exact .use ‹_›
    · exact .shutdown ‹_›
  | release i =>
    simp only [ProcessGroup.step] at hs
    split at hs <;> cases hs
    exact .release ‹_›
  | collect =>
    simp only [ProcessGroup.step] at hs
    split at hs <;> cases hs
    exact .collect ‹_› ‹_›

end ProcessGroup

-- ---------------------------------------------------------------------------
-- Accounts of a log
-- ---------------------------------------------------------------------------

namespace Event

variable {ι κ : Type}

def updates (log : List (Event ι κ)) : List (ResourceLimits κ × Applied) :=
  log.filterMap fun | .updated _ limits applied => some (limits, applied) | _ => none

@[simp] theorem updates_append (log evs : List (Event ι κ)) :
    updates (log ++ evs) = updates log ++ updates evs := List.filterMap_append ..

def clones (log : List (Event ι κ)) : List ι :=
  log.filterMap fun | .cloned i _ => some i | _ => none

def takes (log : List (Event ι κ)) : List ι :=
  log.filterMap fun | .took i => some i | _ => none

def releases (log : List (Event ι κ)) : List ι :=
  log.filterMap fun | .released i => some i | _ => none

@[simp] theorem clones_append (log evs : List (Event ι κ)) :
    clones (log ++ evs) = clones log ++ clones evs := List.filterMap_append ..

@[simp] theorem takes_append (log evs : List (Event ι κ)) :
    takes (log ++ evs) = takes log ++ takes evs := List.filterMap_append ..

@[simp] theorem releases_append (log evs : List (Event ι κ)) :
    releases (log ++ evs) = releases log ++ releases evs := List.filterMap_append ..

/-- The limits in force, by what the updates have written. -/
def current (limits : ResourceLimits κ) (log : List (Event ι κ)) : ResourceLimits κ :=
  (updates log).foldl (fun old update => old.written update.1 update.2) limits

theorem current_same {limits : ResourceLimits κ} {log evs : List (Event ι κ)}
    (h : updates evs = []) : current limits (log ++ evs) = current limits log := by
  simp [current, h]

theorem current_updated (limits new : ResourceLimits κ) (applied : Applied)
    (log : List (Event ι κ)) (i : ι) :
    current limits (log ++ [.updated i new applied]) = (current limits log).written new applied := by
  simp [current, updates]

def Open (log : List (Event ι κ)) : Prop := takes log = [] ∧ .collected ∉ log

def Unshared (log : List (Event ι κ)) : Prop :=
  clones log ⊆ releases log ∧ takes log ⊆ releases log

theorem open_freed (log : List (Event ι κ)) : Open (log ++ [.freed]) ↔ Open log := by
  simp [Open, show takes [(.freed : Event ι κ)] = [] from rfl]

theorem unshared_freed (log : List (Event ι κ)) : Unshared (log ++ [.freed]) ↔ Unshared log := by
  simp [Unshared, show clones [(.freed : Event ι κ)] = [] from rfl,
    show takes [(.freed : Event ι κ)] = [] from rfl,
    show releases [(.freed : Event ι κ)] = [] from rfl]

end Event

namespace ProcessGroup

variable {ι κ : Type} [DecidableEq ι] {s s' : ProcessGroup ι κ} {log evs : List (Event ι κ)}
  {limits : ResourceLimits κ}

def kept (s : ProcessGroup ι κ) : Nat := s.slot.toList.length

-- ---------------------------------------------------------------------------
-- Who has the group
-- ---------------------------------------------------------------------------

/-- The calls that hold an `Arc`, and that there are no others. -/
structure Custody (s : ProcessGroup ι κ) (out : List ι) (value : ResourceLimits κ) : Prop where
  owners : Owners s.heap 0 s.kept out value
  held : ∀ i, i ∈ out ↔ ∃ name, (s.place i).held = some name
  name : ∀ i name, (s.place i).held = some name → name = 0
  slot : ∀ name, s.slot = some name → name = 0
  updating : ∀ i name new, s.place i = .updating name new →
    name = 0 ∧ s.slot = some 0 ∧ out = [] ∧ s.lock = some i

omit [DecidableEq ι] in
theorem Custody.init (limits : ResourceLimits κ) :
    Custody (.new limits : ProcessGroup ι κ) [] limits where
  owners := .new limits
  held _ := by simp [ProcessGroup.new, Place.held]
  name := nofun
  slot _ h := (Option.some.inj h).symm
  updating := nofun

omit [DecidableEq ι] in
theorem Custody.not_updating (hi : Custody s out value) (hfree : s.lock = none) (j : ι)
    (name : Nat) (new : ResourceLimits κ) : s.place j ≠ .updating name new := by
  intro hj
  have hlock := (hi.updating j name new hj).2.2.2
  rw [hfree] at hlock
  cases hlock

theorem Custody.goes {place : Place κ} (hi : Custody s out value)
    (hplace : s'.place = Function.update s.place i place)
    (howners : Owners s'.heap 0 s'.kept out' value')
    (hslot : ∀ name, s'.slot = some name → name = 0)
    (hothers : ∀ j, j ≠ i → (j ∈ out' ↔ j ∈ out))
    (hself : i ∈ out' ↔ ∃ name, place.held = some name)
    (hname : ∀ name, place.held = some name → name = 0)
    (hnobody : ∀ j name new, j ≠ i → s.place j ≠ .updating name new)
    (hupdating : ∀ name new, place = .updating name new →
      name = 0 ∧ s'.slot = some 0 ∧ out' = [] ∧ s'.lock = some i) : Custody s' out' value' where
  owners := howners
  held j := by
    by_cases hj : j = i
    · rw [hj, hself, hplace, Function.update_self]
    · rw [hothers j hj, hi.held, hplace, Function.update_of_ne hj]
  name j name hj := by
    rw [hplace, Function.update_apply] at hj
    split at hj
    · exact hname name hj
    · exact hi.name j name hj
  slot := hslot
  updating j name new hj := by
    rw [hplace, Function.update_apply] at hj
    split at hj
    · next heq => exact heq ▸ hupdating name new hj
    · next hne => exact absurd hj (hnobody j name new hne)

omit [DecidableEq ι] in
theorem Custody.not_mem (hi : Custody s out value) (hold : (s.place i).held = none) : i ∉ out := by
  intro hin
  obtain ⟨name, hname⟩ := (hi.held i).mp hin
  rw [hold] at hname
  cases hname

theorem Custody.refuse (hi : Custody s out value) (hidle : s.place i = .idle)
    (hfree : s.lock = none) : Custody (s.goto i .finished) out value :=
  hi.goes rfl hi.owners hi.slot (fun _ _ => Iff.rfl)
    (by simpa [Place.held] using hi.not_mem (by simp [hidle, Place.held])) nofun
    (fun j name new _ => hi.not_updating hfree j name new) nofun

theorem Custody.step (hi : Custody s out (Event.current limits log)) (h : Move s a s' evs) :
    ∃ out', Custody s' out' (Event.current limits (log ++ evs)) := by
  cases h with
  | @clone i name hidle hfree hslot =>
    obtain rfl := hi.slot name hslot
    have hout := hi.not_mem (i := i) (by simp [hidle, Place.held])
    refine ⟨i :: out, hi.goes rfl ?_ hi.slot (fun j hj => by simp [hj]) (by simp [Place.held])
      (by rintro _ ⟨⟩; rfl) (fun j name new _ => hi.not_updating hfree j name new) nofun⟩
    rw [Event.current_same rfl]
    exact hi.owners.clone (by simp only [kept, hslot, Option.toList, List.length_singleton]; omega)
      hout
  | @take i name hidle hfree hslot =>
    obtain rfl := hi.slot name hslot
    have hout := hi.not_mem (i := i) (by simp [hidle, Place.held])
    have howners := hi.owners
    simp only [kept, hslot, Option.toList, List.length_singleton] at howners
    refine ⟨i :: out, hi.goes rfl ?_ nofun (fun j hj => by simp [hj]) (by simp [Place.held])
      (by rintro _ ⟨⟩; rfl) (fun j name new _ => hi.not_updating hfree j name new) nofun⟩
    rw [Event.current_same rfl]
    exact howners.move hout
  | @lock i name value new hidle hfree hslot hmut =>
    obtain rfl := hi.slot name hslot
    have hout := hi.not_mem (i := i) (by simp [hidle, Place.held])
    have howners := hi.owners
    simp only [kept, hslot, Option.toList, List.length_singleton] at howners
    -- the slot's reference is the only one
    obtain rfl : out = [] := by
      rw [howners.getMut_eq] at hmut
      by_contra hsome
      simp [hsome] at hmut
    refine ⟨[], hi.goes rfl ?_ hi.slot (fun _ _ => Iff.rfl) (by simp [Place.held]) nofun
      (fun j name new _ => hi.not_updating hfree j name new) ?_⟩
    · rw [Event.current_same rfl]
      exact hi.owners
    · rintro _ _ ⟨⟩
      exact ⟨rfl, hslot, rfl, rfl⟩
  | busy hidle hfree | again hidle hfree | refuse hidle hfree =>
    exact ⟨out, by simpa [Event.current, Event.updates] using hi.refuse hidle hfree⟩
  | @update i name new applied hplace =>
    obtain ⟨rfl, hslot, rfl, hlock⟩ := hi.updating i name new hplace
    have hnobody : ∀ j name new, j ≠ i → s.place j ≠ .updating name new := fun j name new hne hj =>
      hne (Option.some.inj ((hi.updating j name new hj).2.2.2.symm.trans hlock))
    refine ⟨[], hi.goes rfl ?_ hi.slot (fun _ _ => Iff.rfl) (by simp [Place.held]) nofun hnobody
      nofun⟩
    rw [Event.current_updated]
    exact hi.owners.modify (by simp [kept, hslot]) (·.written new applied)
  | use | shutdown => exact ⟨out, by simpa [Event.current, Event.updates] using hi⟩
  | @release i name hheld =>
    obtain rfl := hi.name i name hheld
    have hin : i ∈ out := (hi.held i).mpr ⟨_, hheld⟩
    have hnobody : ∀ j name new, j ≠ i → s.place j ≠ .updating name new := fun j name new _ hj => by
      simp [(hi.updating j name new hj).2.2.1] at hin
    refine ⟨out.erase i, hi.goes rfl ?_ hi.slot (fun j hj => List.mem_erase_of_ne hj) ?_ nofun
      hnobody nofun⟩
    · rw [Event.current_same (by simp [freed, Event.updates])]
      exact hi.owners.release hin
    · simpa [Place.held] using hi.owners.nodup.not_mem_erase
  | @collect name hslot hfree =>
    obtain rfl := hi.slot name hslot
    have howners := hi.owners
    simp only [kept, hslot, Option.toList, List.length_singleton] at howners
    refine ⟨out, ?_, hi.held, hi.name, nofun, fun j name new hj =>
      absurd hj (hi.not_updating hfree j name new)⟩
    rw [Event.current_same (by simp [freed, Event.updates])]
    exact howners.releaseKept

-- ---------------------------------------------------------------------------
-- What the log says of a call
-- ---------------------------------------------------------------------------

inductive Turn (s s' : ProcessGroup ι κ) (evs : List (Event ι κ)) : Prop
  | stays : s'.place = s.place → Event.clones evs = [] → Event.takes evs = [] →
      Event.releases evs = [] → Turn s s' evs
  | quiet : (s.place i).held = none → s.place i ≠ .finished → q.held = none →
      s'.place = Function.update s.place i q → Event.clones evs = [] → Event.takes evs = [] →
      Event.releases evs = [] → Turn s s' evs
  | clones : s.place i = .idle → s'.place = Function.update s.place i (.holding name) →
      Event.clones evs = [i] → Event.takes evs = [] → Event.releases evs = [] → Turn s s' evs
  | takes : s.place i = .idle → s'.place = Function.update s.place i (.tearing name) →
      Event.clones evs = [] → Event.takes evs = [i] → Event.releases evs = [] → Turn s s' evs
  | releases : (s.place i).held = some name → s'.place = Function.update s.place i .finished →
      Event.clones evs = [] → Event.takes evs = [] → Event.releases evs = [i] → Turn s s' evs

theorem Move.turn (h : Move s a s' evs) : Turn s s' evs := by
  cases h with
  | clone hidle => exact .clones hidle rfl rfl rfl rfl
  | take hidle => exact .takes hidle rfl rfl rfl rfl
  | lock hidle | busy hidle | refuse hidle | again hidle =>
    exact .quiet (by simp [hidle, Place.held]) (by simp [hidle]) rfl rfl rfl rfl rfl
  | update hplace =>
    exact .quiet (by simp [hplace, Place.held]) (by simp [hplace]) rfl rfl rfl rfl rfl
  | use | shutdown => exact .stays rfl rfl rfl rfl
  | release hheld =>
    refine .releases hheld rfl ?_ ?_ ?_ <;>
      simp [freed, Event.clones, Event.takes, Event.releases]
  | collect =>
    refine .stays rfl ?_ ?_ ?_ <;> simp [freed, Event.clones, Event.takes, Event.releases]

structure Said (place : Place κ) (clone take release : Prop) : Prop where
  cloned : clone → release ∨ place.isUsing = true
  took : take → release ∨ place.isTearing = true
  uses : place.isUsing = true → clone
  tears : place.isTearing = true → take
  released : release → place = .finished

omit [DecidableEq ι] in
theorem Said.idle (h : Said (.idle : Place κ) clone take release) :
    ¬ clone ∧ ¬ take ∧ ¬ release := by
  have hrelease : ¬ release := fun hr => by cases h.released hr
  refine ⟨fun hc => ?_, fun ht => ?_, hrelease⟩
  · simpa [hrelease, Place.isUsing] using h.cloned hc
  · simpa [hrelease, Place.isTearing] using h.took ht

def Told (s : ProcessGroup ι κ) (log : List (Event ι κ)) : Prop :=
  ∀ i, Said (s.place i) (i ∈ Event.clones log) (i ∈ Event.takes log) (i ∈ Event.releases log)

omit [DecidableEq ι] in
theorem Told.init (limits : ResourceLimits κ) : Told (.new limits : ProcessGroup ι κ) [] := by
  intro i
  refine ⟨?_, ?_, ?_, ?_, ?_⟩ <;>
    simp [ProcessGroup.new, Place.isUsing, Place.isTearing, Event.clones, Event.takes,
      Event.releases]

theorem Told.step (hi : Told s log) (h : Turn s s' evs) : Told s' (log ++ evs) := by
  intro j
  cases h with
  | stays hplace hclones htakes hreleases =>
    simpa [hplace, hclones, htakes, hreleases] using hi j
  | @quiet i q hold hnew hq hplace hclones htakes hreleases =>
    by_cases hj : j = i
    · subst hj
      obtain ⟨hu, ht⟩ := Place.of_held hold
      obtain ⟨hu', ht'⟩ := Place.of_held hq
      obtain ⟨hcloned, htook, -, -, hreleased⟩ := hi j
      simp only [hu, ht, Bool.false_eq_true, or_false] at hcloned htook
      refine ⟨?_, ?_, ?_, ?_, ?_⟩ <;> simp only [hplace, Function.update_self, hu', ht',
        Event.clones_append, Event.takes_append, Event.releases_append, hclones, htakes, hreleases,
        List.append_nil, Bool.false_eq_true, or_false, false_imp_iff]
      · exact hcloned
      · exact htook
      · exact fun hin => absurd (hreleased hin) hnew
    · simpa [hplace, hclones, htakes, hreleases, hj] using hi j
  | @clones i name hidle hplace hclones htakes hreleases =>
    by_cases hj : j = i
    · subst hj
      obtain ⟨-, htake, hrelease⟩ := Said.idle (hidle ▸ hi j)
      refine ⟨?_, ?_, ?_, ?_, ?_⟩ <;>
        simp [hplace, hclones, htakes, hreleases, htake, hrelease, Place.isUsing, Place.isTearing]
    · simpa [hplace, hclones, htakes, hreleases, hj] using hi j
  | @takes i name hidle hplace hclones htakes hreleases =>
    by_cases hj : j = i
    · subst hj
      obtain ⟨hclone, -, hrelease⟩ := Said.idle (hidle ▸ hi j)
      refine ⟨?_, ?_, ?_, ?_, ?_⟩ <;>
        simp [hplace, hclones, htakes, hreleases, hclone, hrelease, Place.isUsing, Place.isTearing]
    · simpa [hplace, hclones, htakes, hreleases, hj] using hi j
  | @releases i name hheld hplace hclones htakes hreleases =>
    by_cases hj : j = i
    · subst hj
      refine ⟨?_, ?_, ?_, ?_, ?_⟩ <;>
        simp [hplace, hclones, htakes, hreleases, Place.isUsing, Place.isTearing]
    · simpa [hplace, hclones, htakes, hreleases, hj] using hi j

-- ---------------------------------------------------------------------------
-- What has to be before an event
-- ---------------------------------------------------------------------------

/-- The call works on the clone that it got when these limits were in force, as they still are. -/
def Since (limits : ResourceLimits κ) (log : List (Event ι κ)) (i : ι) : Prop :=
  ∃ before after, log = before ++ .cloned i (some (Event.current limits log)) :: after ∧
    Event.updates after = []

omit [DecidableEq ι] in
theorem Since.append {i : ι} (h : Since limits log i) (hevs : Event.updates evs = []) :
    Since limits (log ++ evs) i := by
  obtain ⟨before, after, hlog, hafter⟩ := h
  rw [Since, Event.current_same hevs]
  exact ⟨before, after ++ evs, by rw [← List.cons_append, ← List.append_assoc, ← hlog],
    by simp [hafter, hevs]⟩

/-- Why an event may come. A verb is refused as `closed` or `busy` exactly when it is so. -/
def Lawful (limits : ResourceLimits κ) (before : List (Event ι κ)) : Event ι κ → Prop
  | .cloned _ seen => Event.Open before ∧ seen = some (Event.current limits before)
  | .took _ => Event.Open before
  | .updated .. => Event.Open before ∧ Event.Unshared before
  | .refused _ error =>
    error = closedError ∧ ¬ Event.Open before ∨
      error = busyError ∧ Event.Open before ∧ ¬ Event.Unshared before
  | .used i seen => Since limits before i ∧ seen = some (Event.current limits before)
  | .shutdown i => i ∈ Event.takes before ∧ i ∉ Event.releases before
  | .freed => ¬ Event.Open before ∧ Event.Unshared before ∧ .freed ∉ before
  | .released _ | .collected => True

structure Governed (limits : ResourceLimits κ) (s : ProcessGroup ι κ) (log : List (Event ι κ)) :
    Prop where
  custody : ∃ out, Custody s out (Event.current limits log)
  told : Told s log
  opened : s.slot ≠ none ↔ Event.Open log
  freed : .freed ∈ log ↔ s.heap.get 0 = none
  since : ∀ i, (s.place i).isUsing = true → Since limits log i
  lawful : Justified (Lawful limits) log

theorem Move.opened (h : Move s a s' evs) (hi : s.slot ≠ none ↔ Event.Open log) :
    s'.slot ≠ none ↔ Event.Open (log ++ evs) := by
  cases h with
  | take | collect => simp [Event.Open, Event.takes]
  | release =>
    simpa [Event.Open, Event.takes, freed] using hi
  | _ => simpa [Event.Open, Event.takes] using hi

omit [DecidableEq ι] in
theorem Custody.open_get (hi : Custody s out value) (hslot : s.slot = some stored) :
    s.heap.get 0 = some value :=
  hi.owners.get_eq (by simp only [kept, hslot, Option.toList, List.length_singleton]; omega)

omit [DecidableEq ι] in
theorem Custody.mem_of_isUsing (hi : Custody s out value) (h : (s.place i).isUsing = true) :
    i ∈ out := by
  rw [hi.held]
  cases hplace : s.place i <;> simp [hplace, Place.isUsing, Place.held] at h ⊢

theorem Custody.since_step (hi : Custody s out (Event.current limits log))
    (h : Move s a s' evs) (hsince : ∀ i, (s.place i).isUsing = true → Since limits log i) (j : ι)
    (hj : (s'.place j).isUsing = true) : Since limits (log ++ evs) j := by
  -- a call that was at it before, and no change of the limits since
  have hold : (s'.place j = s.place j) → Event.updates evs = [] → Since limits (log ++ evs) j :=
    fun hplace hevs => (hsince j (hplace ▸ hj)).append hevs
  cases h with
  | @clone i name hidle hfree hslot =>
    obtain rfl := hi.slot name hslot
    by_cases hji : j = i
    · subst hji
      rw [hi.open_get hslot, Since, Event.current_same rfl]
      exact ⟨log, [], rfl, rfl⟩
    · exact hold (by simp [hji]) rfl
  | @update i name new applied hplace =>
    by_cases hji : j = i
    · simp [hji, Place.isUsing] at hj
    · have hin := hi.mem_of_isUsing (i := j) (by simpa [hji] using hj)
      rw [(hi.updating i name new hplace).2.2.1] at hin
      cases hin
  | use | shutdown | collect => exact hold rfl (by simp [freed, Event.updates])
  | @take i | @lock i | @busy i | @refuse i | @again i | @release i =>
    by_cases hji : j = i
    · simp [hji, Place.isUsing] at hj
    · exact hold (by simp [hji]) (by simp [freed, Event.updates])

theorem Custody.freed_step (hi : Custody s out (Event.current limits log))
    (hi' : Custody s' out' (Event.current limits (log ++ evs))) (h : Move s a s' evs)
    (hfreed : .freed ∈ log ↔ s.heap.get 0 = none) :
    .freed ∈ log ++ evs ↔ s'.heap.get 0 = none := by
  cases h with
  | clone hidle hfree hslot =>
    rw [hi'.open_get hslot]
    simp [hfreed, hi.open_get hslot]
  | @update i name new applied hplace =>
    obtain ⟨rfl, hslot, -, -⟩ := hi.updating i name new hplace
    rw [hi'.open_get hslot]
    simp [hfreed, hi.open_get hslot]
  | @release i name hheld =>
    obtain rfl := hi.name i name hheld
    have hpos := List.length_pos_of_mem ((hi.held i).mpr ⟨_, hheld⟩)
    have hget := hi.owners.get_eq (by omega)
    simp [hfreed, hget, freed]
  | @collect name hslot =>
    obtain rfl := hi.slot name hslot
    simp [hfreed, hi.open_get hslot, freed]
  | _ => simpa using hfreed

omit [DecidableEq ι] in
theorem Custody.unshared (hi : Custody s [] value) (ht : Told s log) : Event.Unshared log := by
  have hnobody : ∀ i, (s.place i).held = none := fun i => by
    by_contra hheld
    obtain ⟨name, hname⟩ := Option.ne_none_iff_exists'.mp hheld
    simpa using (hi.held i).mpr ⟨name, hname⟩
  refine ⟨fun i hin => ?_, fun i hin => ?_⟩
  · simpa [(Place.of_held (hnobody i)).1] using (ht i).cloned hin
  · simpa [(Place.of_held (hnobody i)).2] using (ht i).took hin

omit [DecidableEq ι] in
theorem Custody.shared (hi : Custody s out value) (ht : Told s log) (hopen : Event.Open log)
    (hout : out ≠ []) : ¬ Event.Unshared log := by
  intro hunshared
  obtain ⟨i, hin⟩ := List.exists_mem_of_ne_nil out hout
  obtain ⟨name, hheld⟩ := (hi.held i).mp hin
  have hover : s.place i = .finished := by
    cases hplace : s.place i with
    | holding =>
      have hclone := (ht i).uses (by simp [hplace, Place.isUsing])
      exact hplace ▸ (ht i).released (hunshared.1 hclone)
    | tearing =>
      have htake := (ht i).tears (by simp [hplace, Place.isTearing])
      simp [hopen.1] at htake
    | idle | updating | finished => simp [hplace, Place.held] at hheld
  simp [hover, Place.held] at hheld

theorem Custody.lawful_free {ev : Event ι κ} (hi : Custody s out (Event.current limits log))
    (ht : Told s log) (hopened : s.slot ≠ none ↔ Event.Open log)
    (hfreed : .freed ∈ log ↔ s.heap.get 0 = none) (h : Move s a s' (ev :: s.freed 0))
    (hlawful : Justified (Lawful limits) log) (hev : Lawful limits log ev) (hne : ev ≠ .freed)
    (hget : s.heap.get 0 ≠ none) : Justified (Lawful limits) (log ++ ev :: s.freed 0) := by
  obtain ⟨out', hi'⟩ := hi.step h
  have hgone := hi.freed_step hi' h hfreed
  have hopened' := h.opened hopened
  have ht' := ht.step h.turn
  have hstill : .freed ∉ log := fun hmem => hget (hfreed.mp hmem)
  by_cases hlast : (s.heap.release 0).get 0 = none
  · have hevs : s.freed 0 = [.freed] := by simp [ProcessGroup.freed, hlast]
    have hlog : log ++ [ev, .freed] = (log ++ [ev]) ++ [.freed] := by simp
    rw [hevs] at hgone hopened' ht' ⊢
    rw [hlog] at hopened' ht'
    have hrefs := hi'.owners.get_eq_none.mp (hgone.mp (by simp))
    obtain rfl := List.length_eq_zero_iff.mp (Nat.eq_zero_of_add_eq_zero_left hrefs)
    have hslot : s'.slot = none := by
      cases hslot : s'.slot with
      | none => rfl
      | some name => simp [kept, hslot] at hrefs
    refine hlawful.pair hev ⟨fun hopen => ?_, (Event.unshared_freed _).mp (hi'.unshared ht'), ?_⟩
    · exact hopened'.mpr ((Event.open_freed _).mpr hopen) hslot
    · simpa [hstill] using hne.symm
  · have hevs : s.freed 0 = [] := by simp [ProcessGroup.freed, hlast]
    rw [hevs]
    exact hlawful.snoc hev

theorem Governed.lawful_step (hi : Governed limits s log) (h : Move s a s' evs) :
    Justified (Lawful limits) (log ++ evs) := by
  obtain ⟨⟨out, hcustody⟩, told, opened, freed, since, lawful⟩ := hi
  cases h with
  | clone hidle hfree hslot =>
    obtain rfl := hcustody.slot _ hslot
    exact lawful.snoc ⟨opened.mp (by simp [hslot]), hcustody.open_get hslot⟩
  | take hidle hfree hslot => exact lawful.snoc (opened.mp (by simp [hslot]))
  | lock | again => simpa using lawful
  | busy hidle hfree hslot hmut =>
    obtain rfl := hcustody.slot _ hslot
    have hopen := opened.mp (by simp [hslot])
    have howners := hcustody.owners
    simp only [kept, hslot, Option.toList, List.length_singleton] at howners
    rw [howners.getMut_eq] at hmut
    refine lawful.snoc (.inr ⟨rfl, hopen, hcustody.shared told hopen ?_⟩)
    rintro rfl
    simp at hmut
  | refuse hidle hfree hslot =>
    exact lawful.snoc (.inl ⟨rfl, fun hopen => opened.mpr hopen hslot⟩)
  | @update i name new applied hplace =>
    obtain ⟨rfl, hslot, rfl, -⟩ := hcustody.updating i name new hplace
    exact lawful.snoc ⟨opened.mp (by simp [hslot]), hcustody.unshared told⟩
  | @use i name hplace =>
    have husing : (s.place i).isUsing = true := by simp [hplace, Place.isUsing]
    obtain rfl := hcustody.name i name (by simp [hplace, Place.held])
    have hpos := List.length_pos_of_mem (hcustody.mem_of_isUsing husing)
    exact lawful.snoc ⟨since i husing, hcustody.owners.get_eq (by omega)⟩
  | @shutdown i name hplace =>
    have htears : (s.place i).isTearing = true := by simp [hplace, Place.isTearing]
    refine lawful.snoc ⟨(told i).tears htears, fun hreleased => ?_⟩
    simp [(told i).released hreleased] at hplace
  | @release i name hheld =>
    obtain rfl := hcustody.name i name hheld
    have hpos := List.length_pos_of_mem ((hcustody.held i).mpr ⟨_, hheld⟩)
    have hget := hcustody.owners.get_eq (by omega)
    exact hcustody.lawful_free told opened freed (.release hheld) lawful trivial (by simp)
      (by simp [hget])
  | @collect name hslot hfree =>
    obtain rfl := hcustody.slot name hslot
    exact hcustody.lawful_free told opened freed (.collect hslot hfree) lawful trivial (by simp)
      (by simp [hcustody.open_get hslot])

-- ---------------------------------------------------------------------------
-- Every run
-- ---------------------------------------------------------------------------

omit [DecidableEq ι] in
theorem Governed.init (limits : ResourceLimits κ) :
    Governed limits (.new limits : ProcessGroup ι κ) [] where
  custody := ⟨[], .init limits⟩
  told := .init limits
  opened := by simp [ProcessGroup.new, Event.Open, Event.takes]
  freed := by simp [(Custody.init (ι := ι) limits).open_get rfl]
  since _ h := by cases h
  lawful := .nil

theorem Governed.step (hi : Governed limits s log) (h : Move s a s' evs) :
    Governed limits s' (log ++ evs) := by
  obtain ⟨out, hcustody⟩ := hi.custody
  obtain ⟨out', hcustody'⟩ := hcustody.step h
  exact ⟨⟨out', hcustody'⟩, hi.told.step h.turn, h.opened hi.opened,
    hcustody.freed_step hcustody' h hi.freed, hcustody.since_step h hi.since, hi.lawful_step h⟩

theorem Governed.of_reachable (hr : (machine limits).Reachable s log) : Governed limits s log :=
  hr.invariant (.init limits) fun _ _ _ _ _ hi _ hs => hi.step (.of_step hs)

omit [DecidableEq ι] in
/-- The group is gone when nobody has it, and only then. -/
theorem Governed.freed_iff (hi : Governed limits s log) :
    .freed ∈ log ↔ s.slot = none ∧ ∀ i, (s.place i).held = none := by
  obtain ⟨out, hcustody⟩ := hi.custody
  rw [hi.freed, hcustody.owners.get_eq_none, Nat.add_eq_zero_iff, List.length_eq_zero_iff]
  refine and_congr ?_ ⟨?_, fun hnobody => ?_⟩
  · cases hslot : s.slot <;> simp [kept, hslot]
  · rintro rfl i
    by_contra hheld
    obtain ⟨name, hname⟩ := Option.ne_none_iff_exists'.mp hheld
    simpa using (hcustody.held i).mpr ⟨name, hname⟩
  · refine List.eq_nil_iff_forall_not_mem.mpr fun i hin => ?_
    obtain ⟨name, hname⟩ := (hcustody.held i).mp hin
    simp [hnobody i] at hname

/-- Over any run of the calls on one group: every event is lawful, the open group has the limits
that the updates have written, and it is freed exactly when the handle and the last call have let go. -/
theorem governed (hr : (machine limits).Reachable s log) :
    Justified (Lawful limits) log ∧
      (s.slot ≠ none → s.heap.get 0 = some (Event.current limits log)) ∧
      (.freed ∈ log ↔ s.slot = none ∧ ∀ i, (s.place i).held = none) := by
  have hi := Governed.of_reachable hr
  obtain ⟨out, hcustody⟩ := hi.custody
  refine ⟨hi.lawful, fun hopen => ?_, hi.freed_iff⟩
  obtain ⟨name, hslot⟩ := Option.ne_none_iff_exists'.mp hopen
  exact hcustody.open_get hslot

/-- The limits are set and half set between two verbs, refused beside one, and the last verb
outlives the teardown. -/
def busyRun : List (Action Nat Nat) :=
  [.getMut 0 ⟨some 1, none, none⟩, .update 0 .all, .getMut 5 ⟨none, some 8, none⟩,
    .update 5 (.failed false true false), .group 1, .use 1,
    .getMut 2 ⟨none, none, none⟩, .take 3, .use 3, .release 3, .group 4, .use 1, .release 1]

theorem governed_busy : ∃ s log,
    (machine (ι := Nat) (⟨none, none, none⟩ : ResourceLimits Nat)).Reachable s log ∧
      Event.current ⟨none, none, none⟩ log = ⟨some 1, some 8, none⟩ ∧ s.slot = none ∧
      Justified (Lawful ⟨none, none, none⟩) log ∧
      (.freed ∈ log ↔ s.slot = none ∧ ∀ i, (s.place i).held = none) := by
  obtain ⟨s, log, hr, heq⟩ := Transition.Machine.reach_replay
    (m := machine (ι := Nat) (⟨none, none, none⟩ : ResourceLimits Nat)) busyRun
    (fun s log => (Event.current ⟨none, none, none⟩ log, s.slot)) (fun _ _ _ => trivial)
    (b := (⟨some 1, some 8, none⟩, none)) (by decide +kernel)
  obtain ⟨hupdates, hslot⟩ := Prod.mk.inj heq
  obtain ⟨hlawful, -, hfreed⟩ := governed hr
  exact ⟨s, log, hr, hupdates, hslot, hlawful, hfreed⟩

end ProcessGroup

end ProcessKit.Group

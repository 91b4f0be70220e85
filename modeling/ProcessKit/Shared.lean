import Mathlib.Logic.Function.Basic

/-!
# Reference-counted values

A heap of shared values, each with the number of references to it. A value is freed with its
last reference, and can be moved out by a holder of the only one. What is stored under one
name is not touched by an operation on another, so that an owner's account of its own value
(`Counted`) survives whatever the others do with theirs.
-/

namespace Shared

structure Alloc (α : Type u) where
  strong : Nat
  value : α

structure Heap (α : Type u) where
  allocs : Nat → Option (Alloc α)
  fresh : Nat

namespace Heap

def empty : Heap α := ⟨fun _ => none, 0⟩

def get (heap : Heap α) (name : Nat) : Option α := (heap.allocs name).map Alloc.value

/-- A new value with one reference; its name is `fresh`. -/
def new (heap : Heap α) (value : α) : Heap α :=
  ⟨Function.update heap.allocs heap.fresh (some ⟨1, value⟩), heap.fresh + 1⟩

def set (heap : Heap α) (name : Nat) (alloc : Option (Alloc α)) : Heap α :=
  ⟨Function.update heap.allocs name alloc, heap.fresh⟩

def clone (heap : Heap α) (name : Nat) : Heap α :=
  heap.set name ((heap.allocs name).map fun alloc => { alloc with strong := alloc.strong + 1 })

/-- One reference goes, and with the last one the value. -/
def release (heap : Heap α) (name : Nat) : Heap α :=
  heap.set name ((heap.allocs name).bind fun alloc =>
    if alloc.strong ≤ 1 then none else some { alloc with strong := alloc.strong - 1 })

/-- The value itself, if there is no other reference. -/
def tryUnwrap (heap : Heap α) (name : Nat) : Option (α × Heap α) :=
  match heap.allocs name with
  | some alloc => if alloc.strong = 1 then some (alloc.value, heap.set name none) else none
  | none => none

def getMut (heap : Heap α) (name : Nat) : Option α :=
  match heap.allocs name with
  | some alloc => if alloc.strong = 1 then some alloc.value else none
  | none => none

def modify (heap : Heap α) (name : Nat) (f : α → α) : Heap α :=
  heap.set name ((heap.allocs name).map fun alloc => { alloc with value := f alloc.value })

variable {heap : Heap α} {name other count : Nat} {value : α}

@[simp] theorem fresh_new : (heap.new value).fresh = heap.fresh + 1 := rfl

@[simp] theorem fresh_clone : (heap.clone name).fresh = heap.fresh := rfl

@[simp] theorem fresh_release : (heap.release name).fresh = heap.fresh := rfl

@[simp] theorem fresh_modify : (heap.modify name f).fresh = heap.fresh := rfl

theorem fresh_tryUnwrap {rest : Heap α} (h : heap.tryUnwrap name = some (value, rest)) :
    rest.fresh = heap.fresh := by
  rw [tryUnwrap] at h
  split at h
  · split at h
    · obtain ⟨-, rfl⟩ := Prod.mk.inj (Option.some.inj h)
      rfl
    · cases h
  · cases h

-- ---------------------------------------------------------------------------
-- An owner's account
-- ---------------------------------------------------------------------------

/-- The name stands for the value, and this many references to it are about. -/
structure Counted (heap : Heap α) (name count : Nat) (value : α) : Prop where
  alloc : heap.allocs name = some ⟨count, value⟩
  old : name < heap.fresh

namespace Counted

theorem get_eq (h : Counted heap name count value) : heap.get name = some value := by
  simp [get, h.alloc]

theorem new : Counted (heap.new value) heap.fresh 1 value :=
  ⟨by simp [Heap.new], Nat.lt_succ_self _⟩

theorem clone (h : Counted heap name count value) :
    Counted (heap.clone name) name (count + 1) value :=
  ⟨by simp [Heap.clone, Heap.set, h.alloc], h.old⟩

theorem release (h : Counted heap name (count + 2) value) :
    Counted (heap.release name) name (count + 1) value :=
  ⟨by simp [Heap.release, Heap.set, h.alloc], h.old⟩

theorem get_release (h : Counted heap name 1 value) : (heap.release name).get name = none := by
  simp [get, Heap.release, Heap.set, h.alloc]

theorem getMut_eq (h : Counted heap name count value) :
    heap.getMut name = if count = 1 then some value else none := by
  simp [getMut, h.alloc]

theorem modify (h : Counted heap name count value) (f : α → α) :
    Counted (heap.modify name f) name count (f value) :=
  ⟨by simp [Heap.modify, Heap.set, h.alloc], h.old⟩

theorem of_tryUnwrap {moved : α} {rest : Heap α} (h : Counted heap name count value)
    (hunwrap : heap.tryUnwrap name = some (moved, rest)) : count = 1 ∧ moved = value := by
  rw [tryUnwrap, h.alloc] at hunwrap
  split at hunwrap
  · next found hfound =>
    obtain rfl := Option.some.inj hfound
    split at hunwrap
    · next hone =>
      obtain ⟨rfl, -⟩ := Prod.mk.inj (Option.some.inj hunwrap)
      exact ⟨hone, rfl⟩
    · cases hunwrap
  · cases hunwrap

theorem new_other (h : Counted heap name count value) (added : α) :
    Counted (heap.new added) name count value :=
  ⟨(Function.update_of_ne (Nat.ne_of_lt h.old) _ _).trans h.alloc, Nat.lt_succ_of_lt h.old⟩

theorem set_other (h : Counted heap name count value) (hne : other ≠ name)
    (alloc : Option (Alloc α)) : Counted (heap.set other alloc) name count value :=
  ⟨(Function.update_of_ne hne.symm _ _).trans h.alloc, h.old⟩

theorem release_other (h : Counted heap name count value) (hne : other ≠ name) :
    Counted (heap.release other) name count value := h.set_other hne _

end Counted

-- ---------------------------------------------------------------------------
-- Several owners
-- ---------------------------------------------------------------------------

/-- Everyone in the list holds one reference to the value, `kept` more are in places of their own,
and there are no others. -/
structure Owners (heap : Heap α) (name kept : Nat) (owners : List ι) (value : α) : Prop where
  nodup : owners.Nodup
  counted : 0 < kept + owners.length → Counted heap name (kept + owners.length) value
  freed : kept + owners.length = 0 → heap.get name = none

namespace Owners

variable {owners : List ι} {i : ι} {kept : Nat}

theorem new (value : α) : Owners ((empty : Heap α).new value) 0 1 ([] : List ι) value where
  nodup := List.nodup_nil
  counted _ := .new
  freed := nofun

theorem get_eq_none (h : Owners heap name kept owners value) :
    heap.get name = none ↔ kept + owners.length = 0 := by
  refine ⟨fun hnone => ?_, h.freed⟩
  by_contra hsome
  rw [(h.counted (Nat.pos_of_ne_zero hsome)).get_eq] at hnone
  cases hnone

theorem get_eq (h : Owners heap name kept owners value) (hsome : 0 < kept + owners.length) :
    heap.get name = some value := (h.counted hsome).get_eq

theorem clone (h : Owners heap name kept owners value) (hsome : 0 < kept + owners.length)
    (hi : i ∉ owners) : Owners (heap.clone name) name kept (i :: owners) value where
  nodup := List.nodup_cons.mpr ⟨hi, h.nodup⟩
  counted _ := (h.counted hsome).clone
  freed := nofun

theorem move (h : Owners heap name (kept + 1) owners value) (hi : i ∉ owners) :
    Owners heap name kept (i :: owners) value where
  nodup := List.nodup_cons.mpr ⟨hi, h.nodup⟩
  counted _ := by
    rw [show kept + (i :: owners).length = kept + 1 + owners.length by
      simp only [List.length_cons]
      omega]
    exact h.counted (by omega)
  freed := nofun

theorem of_release {refs : Nat} (h : Counted heap name (refs + 1) value) :
    (0 < refs → Counted (heap.release name) name refs value) ∧
      (refs = 0 → (heap.release name).get name = none) := by
  cases refs with
  | zero => exact ⟨nofun, fun _ => h.get_release⟩
  | succ refs => exact ⟨fun _ => h.release, nofun⟩

theorem releaseKept (h : Owners heap name (kept + 1) owners value) :
    Owners (heap.release name) name kept owners value := by
  have hcounted := h.counted (by omega)
  rw [show kept + 1 + owners.length = kept + owners.length + 1 by omega] at hcounted
  exact ⟨h.nodup, (of_release hcounted).1, (of_release hcounted).2⟩

theorem release [DecidableEq ι] (h : Owners heap name kept owners value) (hi : i ∈ owners) :
    Owners (heap.release name) name kept (owners.erase i) value := by
  have hlength := List.length_erase_of_mem hi
  have hpos := List.length_pos_of_mem hi
  have hcounted := h.counted (by omega)
  rw [show kept + owners.length = kept + (owners.erase i).length + 1 by omega] at hcounted
  exact ⟨h.nodup.erase i, (of_release hcounted).1, (of_release hcounted).2⟩

theorem modify (h : Owners heap name kept owners value) (hsome : 0 < kept + owners.length)
    (f : α → α) : Owners (heap.modify name f) name kept owners (f value) where
  nodup := h.nodup
  counted _ := (h.counted hsome).modify f
  freed hnone := absurd hnone (by omega)

theorem getMut_eq (h : Owners heap name 1 owners value) :
    heap.getMut name = if owners = [] then some value else none := by
  rw [(h.counted (by omega)).getMut_eq]
  cases owners with
  | nil => rfl
  | cons i owners => simp

end Owners

end Heap

end Shared

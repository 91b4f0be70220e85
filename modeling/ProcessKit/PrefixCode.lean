import Mathlib.Algebra.Group.Nat.Defs
import Mathlib.Data.List.Basic
import Mathlib.Logic.Function.Basic

/-!
# Prefix codes

A code in which what is written of a value can be told from what is written after it. Fields
that are written one after another in such codes are read back one by one, so two records with
the same fields written leave the same word only if the fields agree.
-/

/-- A code whose words can be cut off the front of what follows them. -/
structure PrefixCode (α β : Type) where
  write : α → List β
  cut : write a ++ s = write b ++ t → a = b ∧ s = t

namespace PrefixCode

theorem write_append_inj (code : PrefixCode α β) :
    code.write a ++ s = code.write b ++ t ↔ a = b ∧ s = t := by
  constructor
  · exact code.cut
  · rintro ⟨rfl, rfl⟩
    rfl

theorem write_inj (code : PrefixCode α β) : code.write a = code.write b ↔ a = b := by
  simpa using code.write_append_inj (a := a) (b := b) (s := []) (t := [])

-- ---------------------------------------------------------------------------
-- Codes from other codes
-- ---------------------------------------------------------------------------

def map (code : PrefixCode α β) (f : γ → α) (hf : f.Injective) : PrefixCode γ β where
  write c := code.write (f c)
  cut h := (code.cut h).imp_left fun heq => hf heq

def pair (first : PrefixCode α β) (second : PrefixCode γ β) : PrefixCode (α × γ) β where
  write p := first.write p.1 ++ second.write p.2
  cut {p s q t} h := by
    rw [List.append_assoc, List.append_assoc] at h
    obtain ⟨hfirst, hrest⟩ := first.cut h
    obtain ⟨hsecond, hafter⟩ := second.cut hrest
    exact ⟨Prod.ext hfirst hsecond, hafter⟩

def option (mark : PrefixCode Bool β) (code : PrefixCode α β) : PrefixCode (Option α) β where
  write value := mark.write value.isSome ++ value.elim [] code.write
  cut {a s b t} h := by
    rw [List.append_assoc, List.append_assoc] at h
    obtain ⟨hmark, hrest⟩ := mark.cut h
    cases a with
    | none =>
      cases b with
      | none => exact ⟨rfl, hrest⟩
      | some b => cases hmark
    | some a =>
      cases b with
      | none => cases hmark
      | some b =>
        obtain ⟨rfl, rfl⟩ := code.cut hrest
        exact ⟨rfl, rfl⟩

-- ---------------------------------------------------------------------------
-- Codes of their own
-- ---------------------------------------------------------------------------

def fixed (width : Nat) (write : α → List β) (hwidth : ∀ a, (write a).length = width)
    (hinj : write.Injective) : PrefixCode α β where
  write := write
  cut {a s b t} h := by
    obtain ⟨hword, hafter⟩ := List.append_inj h (by rw [hwidth, hwidth])
    exact ⟨hinj hword, hafter⟩

theorem cut_at_stop {stop : β} {u v : List β} (hu : stop ∉ u) (hv : stop ∉ v)
    (h : u ++ stop :: s = v ++ stop :: t) : u = v ∧ s = t := by
  induction u generalizing v with
  | nil =>
    cases v with
    | nil => exact ⟨rfl, (List.cons.inj h).2⟩
    | cons x v =>
      obtain ⟨rfl, -⟩ := List.cons.inj h
      exact absurd List.mem_cons_self hv
  | cons x u ih =>
    cases v with
    | nil =>
      obtain ⟨rfl, -⟩ := List.cons.inj h
      exact absurd List.mem_cons_self hu
    | cons y v =>
      obtain ⟨rfl, htail⟩ := List.cons.inj h
      obtain ⟨rfl, hafter⟩ := ih (List.not_mem_of_not_mem_cons hu)
        (List.not_mem_of_not_mem_cons hv) htail
      exact ⟨rfl, hafter⟩

/-- Words that end with a letter that is in none of them. -/
def stopped (stop : β) (write : α → List β) (hstop : ∀ a, stop ∉ write a)
    (hinj : write.Injective) : PrefixCode α β where
  write a := write a ++ [stop]
  cut {a s b t} h := by
    rw [List.append_assoc, List.append_assoc] at h
    obtain ⟨hword, hafter⟩ := cut_at_stop (hstop a) (hstop b) h
    exact ⟨hinj hword, hafter⟩

def counted (length : PrefixCode ν β) (size : α → ν) (write : α → List β)
    (hsize : ∀ {a b}, size a = size b → (write a).length = (write b).length)
    (hinj : write.Injective) : PrefixCode α β where
  write a := length.write (size a) ++ write a
  cut {a s b t} h := by
    rw [List.append_assoc, List.append_assoc] at h
    obtain ⟨hlength, hrest⟩ := length.cut h
    obtain ⟨hword, hafter⟩ := List.append_inj hrest (hsize hlength)
    exact ⟨hinj hword, hafter⟩

-- ---------------------------------------------------------------------------
-- Numbers of a fixed width
-- ---------------------------------------------------------------------------

def littleEndian : Nat → Nat → List UInt8
  | 0, _ => []
  | width + 1, n => UInt8.ofNat n :: littleEndian width (n / 2 ^ 8)

@[simp] theorem length_littleEndian (width n : Nat) : (littleEndian width n).length = width := by
  induction width generalizing n with
  | zero => rfl
  | succ width ih => simp [littleEndian, ih]

theorem littleEndian_inj (ha : a < 2 ^ (8 * width)) (hb : b < 2 ^ (8 * width))
    (h : littleEndian width a = littleEndian width b) : a = b := by
  induction width generalizing a b with
  | zero => simp only [Nat.mul_zero, Nat.pow_zero] at ha hb; omega
  | succ width ih =>
    obtain ⟨hlow, hhigh⟩ := List.cons.inj h
    have hpow : 2 ^ (8 * (width + 1)) = 2 ^ 8 * 2 ^ (8 * width) := by
      rw [Nat.mul_succ, Nat.pow_add, Nat.mul_comm]
    rw [hpow] at ha hb
    have hdiv : a / 2 ^ 8 = b / 2 ^ 8 :=
      ih (Nat.div_lt_of_lt_mul ha) (Nat.div_lt_of_lt_mul hb) hhigh
    have hmod : a % 2 ^ 8 = b % 2 ^ 8 := by simpa using congrArg UInt8.toNat hlow
    omega

/-- A number below `2 ^ (8 * width)` in `width` bytes. -/
def number (width : Nat) (value : α → Nat) (hlt : ∀ a, value a < 2 ^ (8 * width))
    (hinj : value.Injective) : PrefixCode α UInt8 :=
  fixed width (fun a => littleEndian width (value a)) (fun _ => length_littleEndian _ _)
    fun a b h => hinj (littleEndian_inj (hlt a) (hlt b) h)

end PrefixCode

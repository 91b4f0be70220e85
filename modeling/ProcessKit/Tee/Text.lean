import Mathlib.Data.List.Basic

/-!
# Texts as UTF-8

A Rust `str` as the list of its characters. Its indices are byte offsets, and a
slice panics where the offset is inside a character. `from_utf8_lossy` replaces
what is not well formed, so on the encoding of a text it gives that text back.
-/

namespace ProcessKit.Tee

def encode (text : List Char) : List UInt8 := text.flatMap String.utf8EncodeChar

@[simp] theorem encode_nil : encode [] = [] := rfl

@[simp] theorem encode_cons (c : Char) (text : List Char) :
    encode (c :: text) = String.utf8EncodeChar c ++ encode text := rfl

@[simp] theorem encode_append (text more : List Char) :
    encode (text ++ more) = encode text ++ encode more := List.flatMap_append

-- ---------------------------------------------------------------------------
-- Lossy decoding
-- ---------------------------------------------------------------------------

def isContinuation (byte : UInt8) : Bool := 0x80 ≤ byte && byte ≤ 0xBF

/-- The length that a first byte announces; 1 also for what starts no character. -/
def sequenceLength (first : UInt8) : Nat :=
  if 0xC2 ≤ first && first ≤ 0xDF then 2
  else if 0xE0 ≤ first && first ≤ 0xEF then 3
  else if 0xF0 ≤ first && first ≤ 0xF4 then 4
  else 1

/-- Overlong forms, surrogates and what is above U+10FFFF fail at the second byte. -/
def acceptsSecond (first second : UInt8) : Bool :=
  if first = 0xE0 then 0xA0 ≤ second && second ≤ 0xBF
  else if first = 0xED then 0x80 ≤ second && second ≤ 0x9F
  else if first = 0xF0 then 0x90 ≤ second && second ≤ 0xBF
  else if first = 0xF4 then 0x80 ≤ second && second ≤ 0x8F
  else isContinuation second

/-- How many bytes one replacement character stands for: the longest start of a
character, and one byte where there is none. -/
def maximalSubpart : List UInt8 → Nat
  | first :: second :: rest =>
    if sequenceLength first = 1 || !acceptsSecond first second then 1
    else 2 + ((rest.take (sequenceLength first - 2)).takeWhile isContinuation).length
  | _ => 1

theorem maximalSubpart_pos (bytes : List UInt8) : 0 < maximalSubpart bytes := by
  unfold maximalSubpart
  split
  · split <;> omega
  · exact Nat.one_pos

def fromUtf8Lossy (bytes : List UInt8) : List Char :=
  if bytes = [] then []
  else match bytes.toByteArray.utf8DecodeChar? 0 with
    | some c => c :: fromUtf8Lossy (bytes.drop c.utf8Size)
    | none => '\uFFFD' :: fromUtf8Lossy (bytes.drop (maximalSubpart bytes))
termination_by bytes.length
decreasing_by
  · have hpos : 0 < bytes.length := List.length_pos_iff.mpr ‹_›
    have := c.utf8Size_pos
    simp only [List.length_drop]
    omega
  · have hpos : 0 < bytes.length := List.length_pos_iff.mpr ‹_›
    have := maximalSubpart_pos bytes
    simp only [List.length_drop]
    omega

/-- Nothing is lost where there is nothing to replace. -/
theorem fromUtf8Lossy_encode (text : List Char) : fromUtf8Lossy (encode text) = text := by
  induction text with
  | nil => simp [fromUtf8Lossy]
  | cons c text ih =>
    have hdecode : (encode (c :: text)).toByteArray.utf8DecodeChar? 0 = some c := by
      rw [encode_cons, List.toByteArray_append, ByteArray.utf8DecodeChar?_utf8EncodeChar_append]
    have hdrop : (encode (c :: text)).drop c.utf8Size = encode text := by
      rw [encode_cons, List.drop_left' (String.length_utf8EncodeChar c)]
    rw [fromUtf8Lossy, if_neg (by simp), hdecode]
    simp only [hdrop, ih]

-- ---------------------------------------------------------------------------
-- Byte offsets
-- ---------------------------------------------------------------------------

def byteLength (text : List Char) : Nat := (encode text).length

@[simp] theorem byteLength_nil : byteLength [] = 0 := rfl

@[simp] theorem byteLength_cons (c : Char) (text : List Char) :
    byteLength (c :: text) = c.utf8Size + byteLength text := by
  simp [byteLength]

/-- `char_indices`, of a text that starts at `offset`. -/
def charIndices (offset : Nat) : List Char → List (Nat × Char)
  | [] => []
  | c :: text => (offset, c) :: charIndices (offset + c.utf8Size) text

/-- `&text[offset..]`; `none` is the panic inside a character or past the end. -/
def sliceFrom : List Char → Nat → Option (List Char)
  | text, 0 => some text
  | [], _ + 1 => none
  | c :: text, offset + 1 =>
    if c.utf8Size ≤ offset + 1 then sliceFrom text (offset + 1 - c.utf8Size) else none

theorem charIndices_nth (text : List Char) (offset n : Nat) :
    ((charIndices offset text)[n]?).elim (offset + byteLength text) Prod.fst =
      offset + byteLength (text.take n) := by
  induction text generalizing offset n with
  | nil => simp [charIndices]
  | cons c text ih =>
    cases n with
    | zero => simp [charIndices]
    | succ n =>
      have := ih (offset + c.utf8Size) n
      simpa [charIndices, Nat.add_assoc] using this

theorem sliceFrom_take (text : List Char) (n : Nat) :
    sliceFrom text (byteLength (text.take n)) = some (text.drop n) := by
  induction text generalizing n with
  | nil => simp [sliceFrom]
  | cons c text ih =>
    cases n with
    | zero => simp [sliceFrom]
    | succ n =>
      have hpos := c.utf8Size_pos
      obtain ⟨offset, hoffset⟩ : ∃ offset, byteLength ((c :: text).take (n + 1)) = offset + 1 :=
        ⟨_, (Nat.succ_pred_eq_of_pos (by simp; omega)).symm⟩
      have hsum : c.utf8Size + byteLength (text.take n) = offset + 1 := by simpa using hoffset
      rw [hoffset, sliceFrom, if_pos (by omega), List.drop_succ_cons, ← ih n]
      congr 1
      omega

end ProcessKit.Tee

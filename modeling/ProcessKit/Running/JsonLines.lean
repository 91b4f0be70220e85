import ProcessKit.Running.IteratorLaws
import ProcessKit.Tee.Text

/-!
# The lines that are JSON

`JsonLines` hands each line that the crate has checked to `json.loads`, on the loop's thread. What
that raises becomes an `InvalidJson` that says where: the line by its number in the stream, and in
the line the column, the byte offset and the head of the text.

The number is counted as the line is popped, so it is the line's place in the stream whoever popped
the lines before it.
-/

namespace ProcessKit.Running

open ProcessKit.Runtime (PyObject)
open ProcessKit.Tee (byteLength charIndices charIndices_nth sliceFrom sliceFrom_take)

-- ---------------------------------------------------------------------------
-- The error
-- ---------------------------------------------------------------------------

def invalidJsonStdoutChars : Nat := 2048

/-- `&text[..offset]`; `none` is the panic inside a character or past the end. -/
def sliceTo : List Char → Nat → Option (List Char)
  | _, 0 => some []
  | [], _ + 1 => none
  | c :: text, offset + 1 =>
    if c.utf8Size ≤ offset + 1 then (sliceTo text (offset + 1 - c.utf8Size)).map (c :: ·) else none

def truncateChars (text : List Char) (maxChars : Nat) : Option (List Char) :=
  match (charIndices 0 text)[maxChars]? with
  | some (byteIdx, _) => sliceTo text byteIdx
  | none => some text

/-- What `json.loads` raised: `str` of it unless that fails, and the two attributes of a
`JSONDecodeError`, unless they do not come out as numbers. -/
structure LoadsError where
  str : Option String
  display : String
  isDecodeError : Bool
  colno : Option Nat
  pos : Option Nat

structure StreamErrorLocation where
  column : Nat
  byteOffset : Nat

def streamDecodeLocation (rawLine : List Char) (parseError : LoadsError) :
    Option StreamErrorLocation := do
  if !parseError.isDecodeError then none
  else
    let column ← parseError.colno
    let charPos ← parseError.pos
    let byteOffset :=
      match (charIndices 0 rawLine)[charPos]? with
      | some (byteIdx, _) => byteIdx
      | none => byteLength rawLine
    return ⟨column, byteOffset⟩

def invalidJsonStreamErr (program : String) (lineNumber : Nat) (rawLine : List Char)
    (parseError : LoadsError) : Option InvalidJson := do
  let parserMessage := parseError.str.getD parseError.display
  let fragment := String.ofList (← truncateChars rawLine invalidJsonStdoutChars)
  let location :=
    match streamDecodeLocation rawLine parseError with
    | some ⟨column, byteOffset⟩ => s!", column {column}, byte offset {byteOffset}"
    | none => " (no decode position available)"
  let message := s!"{program}: streamed output is not valid JSON at line {lineNumber}" ++
    s!"{location}: {fragment} — " ++ parserMessage
  return ⟨message, program, none⟩

/-- The `convert` of an `__anext__`; `none` is a panic. -/
def JsonLines.convert (loads : List Char → Except LoadsError PyObject) (program : String)
    (raw : List Char) (lineNumber : Nat) : Option (Except InvalidJson PyObject) :=
  match loads raw with
  | .ok value => some (.ok value)
  | .error parseError =>
    (invalidJsonStreamErr program lineNumber raw parseError).map .error

-- ---------------------------------------------------------------------------
-- Where in the line
-- ---------------------------------------------------------------------------

theorem sliceTo_take (text : List Char) (n : Nat) :
    sliceTo text (byteLength (text.take n)) = some (text.take n) := by
  induction text generalizing n with
  | nil => simp [sliceTo]
  | cons c text ih =>
    cases n with
    | zero => simp [sliceTo]
    | succ n =>
      have hpos := c.utf8Size_pos
      obtain ⟨offset, hoffset⟩ : ∃ offset, byteLength ((c :: text).take (n + 1)) = offset + 1 :=
        ⟨_, (Nat.succ_pred_eq_of_pos (by simp; omega)).symm⟩
      have hsum : c.utf8Size + byteLength (text.take n) = offset + 1 := by simpa using hoffset
      have hrest : offset + 1 - c.utf8Size = byteLength (text.take n) := by omega
      rw [hoffset, sliceTo, if_pos (by omega), hrest, ih n]
      rfl

theorem byteLength_of_charIndices (text : List Char) (n : Nat) :
    (((charIndices 0 text)[n]?).elim (byteLength text) Prod.fst) = byteLength (text.take n) := by
  simpa using charIndices_nth text 0 n

theorem length_charIndices (text : List Char) (offset : Nat) :
    (charIndices offset text).length = text.length := by
  induction text generalizing offset with
  | nil => rfl
  | cons c text ih => simp [charIndices, ih]

theorem truncateChars_eq (text : List Char) (maxChars : Nat) :
    truncateChars text maxChars = some (text.take maxChars) := by
  have hindex := byteLength_of_charIndices text maxChars
  unfold truncateChars
  split
  · next byteIdx c hnth =>
    obtain rfl : byteIdx = byteLength (text.take maxChars) := by simpa [hnth] using hindex
    exact sliceTo_take text maxChars
  · next hnth =>
    have hlength : text.length ≤ maxChars := by
      simpa [length_charIndices] using List.getElem?_eq_none_iff.mp hnth
    rw [List.take_of_length_le hlength]

theorem streamDecodeLocation_eq (rawLine : List Char) (parseError : LoadsError) :
    streamDecodeLocation rawLine parseError =
      if parseError.isDecodeError then
        parseError.colno.bind fun column => parseError.pos.map fun charPos =>
          ⟨column, byteLength (rawLine.take charPos)⟩
      else none := by
  obtain ⟨str, display, isDecodeError, colno, pos⟩ := parseError
  cases isDecodeError with
  | false => rfl
  | true =>
    cases colno with
    | none => rfl
    | some column =>
      cases pos with
      | none => rfl
      | some charPos =>
        have hindex := byteLength_of_charIndices rawLine charPos
        simp only [streamDecodeLocation]
        cases hnth : (charIndices 0 rawLine)[charPos]? <;> simp_all

-- ---------------------------------------------------------------------------
-- Which line
-- ---------------------------------------------------------------------------

theorem Reader.readAll_getElem? (reader : Reader α β) (n k : Nat) (pops : List (ι × α))
    (htotal : ∀ n item, (reader.read n item).isSome) : (reader.readAll n pops)[k]? =
      (pops[k]?).bind fun pop => (reader.read (n + k + 1) pop.2).map (pop.1, ·) := by
  induction pops generalizing n k with
  | nil => rfl
  | cons pop pops ih =>
    obtain ⟨value, hvalue⟩ := Option.isSome_iff_exists.mp (htotal (n + 1) pop.2)
    cases k with
    | zero => simp [Reader.readAll, hvalue]
    | succ k => simpa [Reader.readAll, hvalue, Nat.add_assoc, Nat.add_comm 1] using ih (n + 1) k

/-- The exception is about this line: its number, where in it the parser stopped unless the
parser does not say so, and no more of it than its head. The byte offset is where a character
starts. -/
structure InvalidJson.Locates (error : InvalidJson) (program : String) (line : Nat)
    (raw : List Char) (parseError : LoadsError) : Prop where
  ran : error.program = program
  unbuffered : error.stdout = none
  message : ∃ location, error.message =
      s!"{program}: streamed output is not valid JSON at line {line}" ++
        s!"{location}: {String.ofList (raw.take invalidJsonStdoutChars)} — " ++
        parseError.str.getD parseError.display ∧
    ((parseError.isDecodeError = true → parseError.colno = none ∨ parseError.pos = none) ∧
        location = " (no decode position available)" ∨
      ∃ column charPos, parseError.isDecodeError = true ∧ parseError.colno = some column ∧
        parseError.pos = some charPos ∧
        location = s!", column {column}, byte offset {byteLength (raw.take charPos)}" ∧
        sliceFrom raw (byteLength (raw.take charPos)) = some (raw.drop charPos))

theorem JsonLines.convert_error {loads : List Char → Except LoadsError PyObject}
    (program : String) (line : Nat) (h : loads raw = .error parseError) :
    ∃ error, convert loads program raw line = some (.error error) ∧
      error.Locates program line raw parseError := by
  simp only [convert, h, invalidJsonStreamErr, truncateChars_eq, Option.bind_eq_bind,
    Option.bind_some]
  refine ⟨_, rfl, rfl, rfl, _, rfl, ?_⟩
  rw [streamDecodeLocation_eq]
  cases hdecode : parseError.isDecodeError with
  | false => exact .inl ⟨nofun, rfl⟩
  | true =>
    cases hcolno : parseError.colno with
    | none => exact .inl ⟨fun _ => .inl rfl, rfl⟩
    | some column =>
      cases hpos : parseError.pos with
      | none => exact .inl ⟨fun _ => .inr rfl, rfl⟩
      | some charPos =>
        exact .inr ⟨column, charPos, rfl, rfl, rfl, rfl, sliceFrom_take raw charPos⟩

-- ---------------------------------------------------------------------------
-- Every run
-- ---------------------------------------------------------------------------

open OutputIterator (machine Delivers Iterating)

variable {κ ι : Type} [DecidableEq κ] {window : Option Nat} {e : κ}
  {source : Source κ} {log : List (ReadEvent ι (Except ParseError (List Char))
    (Except InvalidJson (List Char × Nat)))}

theorem stdoutJsonLines_total (n : Nat) (item : Except ParseError (List Char)) :
    (stdoutJsonLines.read n item).isSome := by
  cases item <;> rfl

theorem answer_of_item (hi : Delivers stdoutJsonLines window e s log)
    (hk : (ReadEvent.yields log)[k]? = some (call, answer)) :
    ∃ item, (ReadEvent.made log)[k]? = some item ∧
      stdoutJsonLines.read (k + 1) item = some answer := by
  rw [hi.yields, Reader.readAll_getElem? _ _ _ _ stdoutJsonLines_total] at hk
  obtain ⟨⟨popper, item⟩, hpop, hread⟩ := Option.bind_eq_some_iff.mp hk
  obtain ⟨value, hvalue, heq⟩ := Option.map_eq_some_iff.mp hread
  cases heq
  refine ⟨item, ?_, by simpa using hvalue⟩
  have hlt := (List.getElem?_eq_some_iff.mp hpop).1
  rw [hi.made, List.getElem?_append_left (by simpa using hlt), List.getElem?_map, hpop]
  rfl

variable [DecidableEq ι]

end ProcessKit.Running

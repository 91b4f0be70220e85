import ProcessKit.Tee.Text
import ProcessKit.Runtime.Hub
import Mathlib.Algebra.Group.Int.Defs

/-!
# Handing a chunk to a Python writer

`call_py_write` calls `write()` until the writer has taken the whole chunk. A raw
tee hands it bytes and counts bytes, a text tee hands it a `str` and counts
characters. An integer that `write()` returns is the count it took, and any other
value means all of it.

`answers` is what `write()` does at its first, second, ... call.
-/

namespace ProcessKit.Tee

open ProcessKit.Runtime (PyErr)

def errorText (err : PyErr) : String := s!"{err.type}: {err.message}"

structure JoinError where
  text : String
  deriving DecidableEq

/-- A value that a writer's method returns, as far as it can be a count. -/
inductive Returned
  | int (value : Int)
  | bool (value : Bool)
  | other
  deriving DecidableEq

/-- One call of a writer's method. A panic unwinds the task. -/
inductive Answer (α : Type)
  | returned (value : α)
  | raised (error : PyErr)
  | panicked (error : JoinError)
  deriving DecidableEq

/-- The message of an `Err`, and what went to the unraisable hook beside it. -/
structure Refused where
  message : String
  unraisable : Option PyErr
  deriving DecidableEq

abbrev Joined := Except JoinError (Except Refused Unit)

inductive Payload
  | bytes (data : List UInt8)
  | str (text : List Char)
  deriving DecidableEq

structure Call where
  payload : Payload
  answer : Answer Returned
  deriving DecidableEq

-- ---------------------------------------------------------------------------
-- The count
-- ---------------------------------------------------------------------------

def extractI64 (value : Int) : Option Int :=
  if -2 ^ 63 ≤ value ∧ value < 2 ^ 63 then some value else none

/-- `usize::try_from`, of 64 bits. -/
def usizeTryFrom (value : Int) : Option Nat :=
  if 0 ≤ value ∧ value < 2 ^ 64 then some value.toNat else none

def reportInvalidPyWriteCount (message : String) : Except Refused Nat :=
  .error ⟨message, some ⟨"ValueError", message⟩⟩

def raisedError (err : PyErr) : Refused := ⟨errorText err, some err⟩

def outsideRange : String := "tee writer write() returned an integer outside the supported range"

def validatePyWriteResult (result : Except PyErr Returned) (remaining : Nat) (unit : String) :
    Except Refused Nat :=
  match result with
  | .error err => .error (raisedError err)
  | .ok .other | .ok (.bool _) => .ok remaining
  | .ok (.int value) =>
    match extractI64 value with
    | none => reportInvalidPyWriteCount outsideRange
    | some written =>
      if written < 0 then
        reportInvalidPyWriteCount s!"tee writer write() returned a negative count: {written}"
      else match usizeTryFrom written with
        | none => reportInvalidPyWriteCount outsideRange
        | some written =>
          if written = 0 then
            reportInvalidPyWriteCount
              "tee writer write() returned zero before the buffer was complete"
          else if remaining < written then
            reportInvalidPyWriteCount
              s!"tee writer write() returned {written} {unit}, more than the {remaining} remaining"
          else .ok written

def checkCall (answer : Answer Returned) (remaining : Nat) (unit : String) :
    Except JoinError (Except Refused Nat) :=
  match answer with
  | .panicked error => .error error
  | .raised err => .ok (validatePyWriteResult (.error err) remaining unit)
  | .returned value => .ok (validatePyWriteResult (.ok value) remaining unit)

/-- The units that an answer stands for, where it is valid: an integer is a count,
and any other value is all that remained. -/
def Answer.count (answer : Answer Returned) (remaining : Nat) : Option Nat :=
  match answer with
  | .returned (.int value) =>
    if 1 ≤ value ∧ value ≤ remaining ∧ value < 2 ^ 63 then some value.toNat else none
  | .returned (.bool _) | .returned .other => some remaining
  | .raised _ | .panicked _ => none

theorem validatePyWriteResult_int (value : Int) (remaining : Nat) (unit : String) :
    validatePyWriteResult (.ok (.int value)) remaining unit = .ok written ↔
      Answer.count (.returned (.int value)) remaining = some written := by
  simp only [validatePyWriteResult, Answer.count, extractI64, usizeTryFrom,
    reportInvalidPyWriteCount]
  repeat' split
  all_goals simp_all
  all_goals omega

theorem checkCall_eq_ok (answer : Answer Returned) (remaining : Nat) (unit : String) :
    checkCall answer remaining unit = .ok (.ok written) ↔
      answer.count remaining = some written := by
  cases answer with
  | panicked => simp [checkCall, Answer.count]
  | raised => simp [checkCall, Answer.count, validatePyWriteResult]
  | returned value =>
    cases value with
    | int value => simpa [checkCall] using validatePyWriteResult_int value remaining unit
    | bool => simp [checkCall, Answer.count, validatePyWriteResult]
    | other => simp [checkCall, Answer.count, validatePyWriteResult]

theorem Answer.count_bounds {answer : Answer Returned} (h : answer.count remaining = some written)
    (hpos : 0 < remaining) : 0 < written ∧ written ≤ remaining := by
  unfold Answer.count at h
  split at h
  · obtain ⟨hrange, hwritten⟩ := Option.ite_none_right_eq_some.mp h
    obtain rfl := Option.some.inj hwritten
    omega
  · cases h
    exact ⟨hpos, Nat.le_refl _⟩
  · cases h
    exact ⟨hpos, Nat.le_refl _⟩
  · cases h
  · cases h

-- ---------------------------------------------------------------------------
-- The loop
-- ---------------------------------------------------------------------------

def Payload.length : Payload → Nat
  | .bytes data => data.length
  | .str text => text.length

def Payload.encode : Payload → List UInt8
  | .bytes data => data
  | .str text => Tee.encode text

def Payload.take (written : Nat) : Payload → Payload
  | .bytes data => .bytes (data.take written)
  | .str text => .str (text.take written)

/-- What a loop counts in. `rest` is the slice behind a count, and `none` where
that slice would panic. -/
structure Units (α : Type) where
  name : String
  payload : List α → Payload
  rest : List α → Nat → Option (List α)
  rest_eq : written ≤ remaining.length → rest remaining written = some (remaining.drop written)
  take_eq : (payload remaining).take written = payload (remaining.take written)
  length_eq : (payload remaining).length = remaining.length
  encode_append : (payload (taken ++ remaining)).encode =
    (payload taken).encode ++ (payload remaining).encode
  encode_nil : (payload []).encode = []

def Units.bytes : Units UInt8 where
  name := "bytes"
  payload := .bytes
  rest remaining written :=
    if written ≤ remaining.length then some (remaining.drop written) else none
  rest_eq h := if_pos h
  take_eq := rfl
  length_eq := rfl
  encode_append := rfl
  encode_nil := rfl

/-- `char_indices().nth(written)`, or the end of the text. -/
def nextByte (remaining : List Char) (written : Nat) : Nat :=
  ((charIndices 0 remaining)[written]?).elim (byteLength remaining) Prod.fst

theorem sliceFrom_nextByte (remaining : List Char) (written : Nat) :
    sliceFrom remaining (nextByte remaining written) = some (remaining.drop written) := by
  have hnext : nextByte remaining written = byteLength (remaining.take written) := by
    simpa [nextByte] using charIndices_nth remaining 0 written
  rw [hnext, sliceFrom_take]

def Units.characters : Units Char where
  name := "characters"
  payload := .str
  rest remaining written := sliceFrom remaining (nextByte remaining written)
  rest_eq _ := sliceFrom_nextByte _ _
  take_eq := rfl
  length_eq := rfl
  encode_append := Tee.encode_append _ _
  encode_nil := rfl

def slicePanic : JoinError := ⟨"slice index is not on a boundary"⟩

/-- The `while !remaining.is_empty()` loop, from the `k`-th call on. -/
def writeLoop (u : Units α) (answers : Nat → Answer Returned) (k : Nat) (remaining : List α) :
    Joined × List Call :=
  if _hmore : remaining = [] then (.ok (.ok ()), [])
  else
    match _hchecked : checkCall (answers k) remaining.length u.name with
    | .error error => (.error error, [⟨u.payload remaining, answers k⟩])
    | .ok (.error refused) => (.ok (.error refused), [⟨u.payload remaining, answers k⟩])
    | .ok (.ok written) =>
      match hrest : u.rest remaining written with
      | none => (.error slicePanic, [⟨u.payload remaining, answers k⟩])
      | some rest =>
        let more := writeLoop u answers (k + 1) rest
        (more.1, ⟨u.payload remaining, answers k⟩ :: more.2)
termination_by remaining.length
decreasing_by
  have hcount := (checkCall_eq_ok _ _ _).mp _hchecked
  obtain ⟨hpos, hle⟩ := Answer.count_bounds hcount (List.length_pos_iff.mpr _hmore)
  obtain rfl : remaining.drop written = rest := Option.some.inj ((u.rest_eq hle).symm.trans hrest)
  simp only [List.length_drop]
  omega

def finalizing : Refused := ⟨"tee write skipped: Python interpreter is finalizing", none⟩

def callPyWrite (attached : Bool) (answers : Nat → Answer Returned) (data : List UInt8)
    (raw : Bool) : Joined × List Call :=
  if attached then
    if raw then writeLoop .bytes answers 0 data
    else writeLoop .characters answers 0 (fromUtf8Lossy data)
  else (.ok (.error finalizing), [])

-- ---------------------------------------------------------------------------
-- What the writer has been handed
-- ---------------------------------------------------------------------------

/-- The units that the writer took from a call: none where its answer is not valid. -/
def Call.accepted (call : Call) : Nat := (call.answer.count call.payload.length).getD 0

def Call.piece (call : Call) : List UInt8 := (call.payload.take call.accepted).encode

def pieces (calls : List Call) : List UInt8 := calls.flatMap Call.piece

/-- The first answer that is not valid ends the calls, and not well. -/
inductive Obeys : Joined → List Call → Prop
  | done : Obeys (.ok (.ok ())) []
  | refused : call.answer.count call.payload.length = none → joined ≠ .ok (.ok ()) →
      Obeys joined [call]
  | took : call.answer.count call.payload.length ≠ none → Obeys joined calls →
      Obeys joined (call :: calls)

/-- The calls hand over a start of `whole`, in order and gaplessly, and all of it
where they end well. -/
structure Fed (whole : List UInt8) (joined : Joined) (calls : List Call) : Prop where
  complete : joined = .ok (.ok ()) → pieces calls = whole
  handed : pieces calls <+: whole
  payload : ∀ before call after, calls = before ++ call :: after →
    whole = pieces before ++ call.payload.encode

theorem Fed.nil (h : joined = .ok (.ok ()) → [] = whole) : Fed whole joined [] :=
  ⟨h, List.nil_prefix, by simp⟩

theorem Fed.single {call : Call} (hall : call.payload.encode = whole) (hpiece : call.piece = [])
    (hbad : joined ≠ .ok (.ok ())) : Fed whole joined [call] := by
  refine ⟨fun h => absurd h hbad, by simp [pieces, hpiece], fun before c after heq => ?_⟩
  obtain ⟨rfl, rfl, rfl⟩ : before = [] ∧ call = c ∧ after = [] := by
    cases before <;> simp_all
  simpa [pieces] using hall.symm

theorem Fed.cons {call : Call} (h : Fed rest joined calls) (hall : call.payload.encode = whole)
    (hsplit : whole = call.piece ++ rest) : Fed whole joined (call :: calls) := by
  refine ⟨fun hend => ?_, ?_, fun before c after heq => ?_⟩
  · simp only [pieces, List.flatMap_cons, hsplit]
    rw [← h.complete hend]
    rfl
  · simp only [pieces, List.flatMap_cons, hsplit]
    exact List.prefix_append_right_inj _ |>.mpr h.handed
  · cases before with
    | nil =>
      obtain ⟨rfl, -⟩ := List.cons.inj heq
      simpa [pieces] using hall.symm
    | cons first before =>
      obtain ⟨rfl, hlater⟩ := List.cons.inj heq
      rw [hsplit, h.payload before c after hlater]
      simp [pieces]

-- ---------------------------------------------------------------------------
-- The loop feeds the writer
-- ---------------------------------------------------------------------------

section

variable (u : Units α) {answer : Answer Returned} {remaining : List α}

theorem Units.count_of_refused (h : checkCall answer remaining.length u.name = checked)
    (hbad : ∀ written, checked ≠ .ok (.ok written)) :
    answer.count (u.payload remaining).length = none := by
  refine Option.eq_none_iff_forall_ne_some.mpr fun written hcount => hbad written ?_
  rw [u.length_eq] at hcount
  rw [← h, checkCall_eq_ok, hcount]

theorem Units.count_of_took (h : checkCall answer remaining.length u.name = .ok (.ok written)) :
    answer.count (u.payload remaining).length = some written := by
  rw [u.length_eq]
  exact (checkCall_eq_ok _ _ _).mp h

theorem Units.piece_of_refused (h : answer.count (u.payload remaining).length = none) :
    Call.piece ⟨u.payload remaining, answer⟩ = [] := by
  simp [Call.piece, Call.accepted, h, u.take_eq, u.encode_nil]

theorem Units.piece_of_took (h : answer.count (u.payload remaining).length = some written) :
    (u.payload remaining).encode =
      Call.piece ⟨u.payload remaining, answer⟩ ++ (u.payload (remaining.drop written)).encode := by
  simp only [Call.piece, Call.accepted, h, u.take_eq, Option.getD_some]
  rw [← u.encode_append, List.take_append_drop]

theorem Units.rest_of_took (hmore : remaining ≠ [])
    (h : checkCall answer remaining.length u.name = .ok (.ok written)) :
    u.rest remaining written = some (remaining.drop written) := by
  have hcount := (checkCall_eq_ok _ _ _).mp h
  exact u.rest_eq (Answer.count_bounds hcount (List.length_pos_iff.mpr hmore)).2

end

theorem writeLoop_fed (u : Units α) (answers : Nat → Answer Returned) (k : Nat)
    (remaining : List α) :
    Fed (u.payload remaining).encode (writeLoop u answers k remaining).1
      (writeLoop u answers k remaining).2 := by
  fun_induction writeLoop u answers k remaining with
  | case1 => exact .nil fun _ => u.encode_nil.symm
  | case2 =>
    rename_i hchecked
    exact .single rfl (u.piece_of_refused (u.count_of_refused hchecked nofun)) nofun
  | case3 =>
    rename_i hchecked
    exact .single rfl (u.piece_of_refused (u.count_of_refused hchecked nofun)) nofun
  | case4 =>
    rename_i hmore _ hchecked hrest
    simp [u.rest_of_took hmore hchecked] at hrest
  | case5 =>
    rename_i hmore written hchecked rest hrest _ ih
    obtain rfl := Option.some.inj ((u.rest_of_took hmore hchecked).symm.trans hrest)
    exact ih.cons rfl (u.piece_of_took (u.count_of_took hchecked))

theorem writeLoop_obeys (u : Units α) (answers : Nat → Answer Returned) (k : Nat)
    (remaining : List α) :
    Obeys (writeLoop u answers k remaining).1 (writeLoop u answers k remaining).2 := by
  fun_induction writeLoop u answers k remaining with
  | case1 => exact .done
  | case2 =>
    rename_i hchecked
    exact .refused (u.count_of_refused hchecked nofun) nofun
  | case3 =>
    rename_i hchecked
    exact .refused (u.count_of_refused hchecked nofun) nofun
  | case4 =>
    rename_i hmore _ hchecked hrest
    simp [u.rest_of_took hmore hchecked] at hrest
  | case5 =>
    rename_i hchecked _ _ _ ih
    exact .took (by simp [u.count_of_took hchecked]) ih

theorem writeLoop_payload (u : Units α) (answers : Nat → Answer Returned) (k : Nat)
    (remaining : List α) :
    ∀ call ∈ (writeLoop u answers k remaining).2, ∃ rest, call.payload = u.payload rest := by
  fun_induction writeLoop u answers k remaining with
  | case1 => simp
  | case2 | case3 | case4 => simp
  | case5 =>
    rename_i ih
    intro call hmem
    rcases List.mem_cons.mp hmem with rfl | hmem
    · exact ⟨_, rfl⟩
    · exact ih call hmem

/-- What a tee shows its writer of a chunk. -/
def shown (raw : Bool) (data : List UInt8) : List UInt8 :=
  if raw then data else encode (fromUtf8Lossy data)

theorem shown_encode (raw : Bool) (text : List Char) : shown raw (encode text) = encode text := by
  cases raw <;> simp [shown, fromUtf8Lossy_encode]

theorem callPyWrite_fed (attached : Bool) (answers : Nat → Answer Returned) (data : List UInt8)
    (raw : Bool) : Fed (shown raw data) (callPyWrite attached answers data raw).1
      (callPyWrite attached answers data raw).2 := by
  cases attached with
  | false => exact .nil nofun
  | true =>
    cases raw with
    | true => exact writeLoop_fed .bytes answers 0 data
    | false => exact writeLoop_fed .characters answers 0 (fromUtf8Lossy data)

def Payload.isBytes : Payload → Bool
  | .bytes _ => true
  | .str _ => false

theorem callPyWrite_isBytes (attached : Bool) (answers : Nat → Answer Returned)
    (data : List UInt8) (raw : Bool) :
    ∀ call ∈ (callPyWrite attached answers data raw).2, call.payload.isBytes = raw := by
  cases attached with
  | false => simp [callPyWrite]
  | true =>
    intro call hmem
    cases raw with
    | true =>
      obtain ⟨rest, hrest⟩ := writeLoop_payload .bytes answers 0 data call hmem
      rw [hrest]
      rfl
    | false =>
      obtain ⟨rest, hrest⟩ :=
        writeLoop_payload .characters answers 0 (fromUtf8Lossy data) call hmem
      rw [hrest]
      rfl

theorem callPyWrite_obeys (attached : Bool) (answers : Nat → Answer Returned) (data : List UInt8)
    (raw : Bool) : (callPyWrite attached answers data raw).2 = [] ∧
      (callPyWrite attached answers data raw).1 ≠ .ok (.ok ()) ∨
      Obeys (callPyWrite attached answers data raw).1 (callPyWrite attached answers data raw).2 := by
  cases attached with
  | false => exact .inl ⟨rfl, nofun⟩
  | true =>
    cases raw with
    | true => exact .inr (writeLoop_obeys .bytes answers 0 data)
    | false => exact .inr (writeLoop_obeys .characters answers 0 (fromUtf8Lossy data))

end ProcessKit.Tee

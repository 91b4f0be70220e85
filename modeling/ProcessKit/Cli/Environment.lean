import ProcessKit.Python.Str
import ProcessKit.Runtime.Hub
import ProcessKit.Tee.Text

/-!
# The environment options of the command line

`--env` gives one pair, `--env-file` a file of `KEY=VALUE` lines with blank and `#` lines
between them. `read_text` turns CR LF and CR into LF, and `splitlines` then splits at
every boundary Python knows, not at LF alone: a value may contain one.

The command is the crate's builder. What it does with a pair is a parameter here.
-/

namespace ProcessKit.Cli

open Python
open ProcessKit.Runtime (PyErr PyResult)

abbrev Pair := PyStr × PyStr

def equalsSign : PyChar := ofChar '='
def numberSign : PyChar := ofChar '#'
def byteOrderMark : PyChar := ofChar '\uFEFF'

-- ---------------------------------------------------------------------------
-- Usage errors
-- ---------------------------------------------------------------------------

/-- What `read_text` raises of the kinds that are caught. -/
inductive Unreadable
  | osError (error : PyErr)
  | unicodeError (bytes : List UInt8)

inductive LineError
  | notPair
  | noKey
  deriving DecidableEq

/-- The calls of `parser.error`, which do not return. -/
inductive UsageError
  | flag (raw : PyStr) (error : LineError)
  | file (path : PyStr) (cause : Unreadable)
  | line (path : PyStr) (number : Nat) (error : LineError)

def LineError.text : LineError → String
  | .notPair => "expected KEY=VALUE"
  | .noKey => "key must not be empty"

/-- `repr` is Python's, `describe` the `str` of an exception. -/
def UsageError.text (repr : PyStr → String) (describe : Unreadable → String) : UsageError → String
  | .flag raw error => s!"--env {repr raw}: {error.text}"
  | .file path cause => s!"--env-file {repr path}: could not read file: {describe cause}"
  | .line path number error => s!"--env-file {repr path}, line {number}: {error.text}"

-- ---------------------------------------------------------------------------
-- Parsing
-- ---------------------------------------------------------------------------

def parseEnvFlag (raw : PyStr) : Except UsageError Pair :=
  if equalsSign ∉ raw then .error (.flag raw .notPair)
  else
    let (key, value) := partition equalsSign raw
    if key = [] then .error (.flag raw .noKey) else .ok (key, value)

def parseEnvFlags (rawPairs : List PyStr) : Except UsageError (List Pair) :=
  rawPairs.mapM parseEnvFlag

/-- The strict UTF-8 decoder. -/
def decodeUtf8 (bytes : List UInt8) : Option PyStr :=
  let text := Tee.fromUtf8Lossy bytes
  if Tee.encode text = bytes then some (text.map ofChar) else none

def decodeUtf8Sig (bytes : List UInt8) : Option PyStr :=
  (decodeUtf8 bytes).map fun text => if text.head? = some byteOrderMark then text.tail else text

/-- What text mode does with the line ends that it reads. -/
def universalNewlines : PyStr → PyStr
  | [] => []
  | c :: text =>
    if c = carriageReturn then
      if text.head? = some lineFeed then universalNewlines text
      else lineFeed :: universalNewlines text
    else c :: universalNewlines text

/-- `Path.read_text(encoding="utf-8-sig")`, on what reading the bytes gives. -/
def readText (read : PyResult (List UInt8)) : Except Unreadable PyStr :=
  match read with
  | .error error => .error (.osError error)
  | .ok bytes =>
    match decodeUtf8Sig bytes with
    | none => .error (.unicodeError bytes)
    | some text => .ok (universalNewlines text)

/-- One line: nothing, a pair, or an error. -/
def parseLine (rawLine : PyStr) : Except LineError (List Pair) :=
  let line := strip rawLine
  if line = [] ∨ line.head? = some numberSign then .ok []
  else if equalsSign ∉ line then .error .notPair
  else
    let (key, value) := partition equalsSign line
    if strip key = [] then .error .noKey else .ok [(strip key, value)]

def parseLines (path : PyStr) (number : Nat) : List PyStr → Except UsageError (List Pair)
  | [] => .ok []
  | rawLine :: lines =>
    match parseLine rawLine with
    | .error error => .error (.line path number error)
    | .ok pairs => do return pairs ++ (← parseLines path (number + 1) lines)

/-- The files in order, each with what reading it gives. -/
def parseEnvFiles : List (PyStr × PyResult (List UInt8)) → Except UsageError (List Pair)
  | [] => .ok []
  | (path, read) :: files =>
    match readText read with
    | .error cause => .error (.file path cause)
    | .ok text => do
      let pairs ← parseLines path 1 (splitlines text)
      return pairs ++ (← parseEnvFiles files)

def parseEnvironment (envFiles : List (PyStr × PyResult (List UInt8))) (rawPairs : List PyStr) :
    Except UsageError (List Pair) := do
  let filePairs ← parseEnvFiles envFiles
  return filePairs ++ (← parseEnvFlags rawPairs)

-- ---------------------------------------------------------------------------
-- Applying
-- ---------------------------------------------------------------------------

/-- The builder methods of the crate's command, and the value that is in force for a
key. `sameKey` is how the platform compares keys: Windows does not look at their case. A
method refuses what is no UTF-8. -/
structure Builder (κ : Type) where
  envClear : κ → κ
  inheritEnv : κ → List PyStr → PyResult κ
  env : κ → PyStr → PyStr → PyResult κ
  cwd : κ → PyStr → PyResult κ
  inForce : κ → PyStr → Option PyStr
  sameKey : PyStr → PyStr → Bool

/-- The documented behaviour: a later `env` wins, and `cwd` is no variable. -/
structure Builder.Lawful (builder : Builder κ) : Prop where
  env : builder.env command key value = .ok command' →
    builder.inForce command' other =
      if builder.sameKey key other then some value else builder.inForce command other
  cwd : builder.cwd command dir = .ok command' →
    builder.inForce command' other = builder.inForce command other

def Builder.envAll (builder : Builder κ) (command : κ) : List Pair → PyResult κ
  | [] => .ok command
  | (key, value) :: pairs => do
    let command ← builder.env command key value
    builder.envAll command pairs

/-- `if inherited`: an empty list leaves the whole base. -/
def Builder.inherit (builder : Builder κ) (command : κ) (inherited : List PyStr) : PyResult κ :=
  if inherited = [] then .ok command else builder.inheritEnv command inherited

def applyEnvironment (builder : Builder κ) (command : κ) (clear : Bool) (inherited : List PyStr)
    (pairs : List Pair) (cwd : Option PyStr) : PyResult κ := do
  let command ← builder.inherit (if clear then builder.envClear command else command) inherited
  let command ← builder.envAll command pairs
  match cwd with
  | some dir => builder.cwd command dir
  | none => return command

-- ---------------------------------------------------------------------------
-- Writing
-- ---------------------------------------------------------------------------

/-- A line of an env file; `aside` is a blank line or a comment. -/
inductive EnvRow
  | pair (key value : PyStr)
  | aside (text : PyStr)

def EnvRow.text : EnvRow → PyStr
  | .pair key value => key ++ equalsSign :: value
  | .aside text => text

def EnvRow.pairs : EnvRow → List Pair
  | .pair key value => [(key, value)]
  | .aside _ => []

def NoNewline (text : PyStr) : Prop := lineFeed ∉ text ∧ carriageReturn ∉ text

def Aside (text : PyStr) : Prop := strip text = [] ∨ (strip text).head? = some numberSign

def EnvRow.Legal : EnvRow → Prop
  | .pair key value =>
    key ≠ [] ∧ Stripped key ∧ equalsSign ∉ key ∧ key.head? ≠ some numberSign ∧
      key.head? ≠ some byteOrderMark ∧ NoNewline key ∧ NoNewline value ∧
      value.getLast?.any isSpace = false
  | .aside text => NoNewline text ∧ Aside text

/-- A file of `rows` and of a `last` one that no line end follows. -/
structure EnvFile where
  bom : Bool
  crLf : Bool
  rows : List EnvRow
  last : Option EnvRow

def EnvFile.allRows (file : EnvFile) : List EnvRow := file.rows ++ file.last.toList

def EnvFile.pairs (file : EnvFile) : List Pair := file.allRows.flatMap EnvRow.pairs

def EnvFile.lineEnd (file : EnvFile) : PyStr :=
  if file.crLf then [carriageReturn, lineFeed] else [lineFeed]

/-- `lineEnd` after each of `rows`, and nothing after the last one. -/
def join (lineEnd : PyStr) (rows : List EnvRow) (last : Option EnvRow) : PyStr :=
  rows.flatMap (fun row => row.text ++ lineEnd) ++ last.toList.flatMap EnvRow.text

def EnvFile.text (file : EnvFile) : PyStr := join file.lineEnd file.rows file.last

/-- The bytes are the text in UTF-8, after the byte-order mark where there is one. -/
def EnvFile.Written (file : EnvFile) (bytes : List UInt8) : Prop :=
  ∃ chars : List Char, file.text = chars.map ofChar ∧
    bytes = Tee.encode (if file.bom then '\uFEFF' :: chars else chars)

-- ---------------------------------------------------------------------------
-- Reading a file back
-- ---------------------------------------------------------------------------

theorem decodeUtf8_encode (chars : List Char) :
    decodeUtf8 (Tee.encode chars) = some (chars.map ofChar) := by
  simp [decodeUtf8, Tee.fromUtf8Lossy_encode]

theorem Aside.head (h : Aside (c :: text)) : isSpace c = true ∨ c = numberSign := by
  by_contra hneither
  rw [not_or, Bool.not_eq_true] at hneither
  rw [Aside, strip_cons hneither.1] at h
  rcases h with hnil | hhash
  · cases hnil
  · exact hneither.2 (Option.some.inj hhash)

theorem EnvRow.Legal.head {row : EnvRow} (h : row.Legal) : row.text.head? ≠ some byteOrderMark := by
  intro hbom
  cases row with
  | pair key value =>
    obtain ⟨hne, _, _, _, hkey, _⟩ := h
    obtain ⟨c, key, rfl⟩ := List.exists_cons_of_ne_nil hne
    exact hkey hbom
  | aside text =>
    cases text with
    | nil => cases hbom
    | cons c text =>
      obtain rfl : c = byteOrderMark := Option.some.inj hbom
      rcases h.2.head with hspace | hhash
      · exact absurd hspace (by decide)
      · exact absurd hhash (by decide)

theorem NoNewline.text {row : EnvRow} (h : row.Legal) : NoNewline row.text := by
  cases row with
  | pair key value =>
    obtain ⟨_, _, _, _, _, hkey, hvalue, _⟩ := h
    have hlf : lineFeed ≠ equalsSign := by decide
    have hcr : carriageReturn ≠ equalsSign := by decide
    exact ⟨by simp [EnvRow.text, hkey.1, hvalue.1, hlf],
      by simp [EnvRow.text, hkey.2, hvalue.2, hcr]⟩
  | aside text => exact h.1

theorem EnvFile.head {file : EnvFile} (h : ∀ row ∈ file.allRows, row.Legal) :
    file.text.head? ≠ some byteOrderMark := by
  have hend : file.lineEnd.head? ≠ some byteOrderMark ∧ file.lineEnd ≠ [] := by
    cases hcr : file.crLf <;> simp only [EnvFile.lineEnd, hcr] <;> decide
  intro hbom
  cases hrows : file.rows with
  | nil =>
    cases hlast : file.last with
    | none => simp [EnvFile.text, join, hrows, hlast] at hbom
    | some row =>
      have hrow := h row (by simp [EnvFile.allRows, hlast])
      exact hrow.head (by simpa [EnvFile.text, join, hrows, hlast] using hbom)
  | cons row rows =>
    have hrow := h row (by simp [EnvFile.allRows, hrows])
    cases htext : row.text with
    | nil =>
      obtain ⟨c, rest, hcons⟩ := List.exists_cons_of_ne_nil hend.2
      simp only [EnvFile.text, join, hrows, List.flatMap_cons, htext, hcons,
        List.nil_append] at hbom
      exact hend.1 (by rw [hcons]; exact hbom)
    | cons c text =>
      exact hrow.head (by simpa [EnvFile.text, join, hrows, htext] using hbom)

theorem universalNewlines_append (h : carriageReturn ∉ line) (rest : PyStr) :
    universalNewlines (line ++ rest) = line ++ universalNewlines rest := by
  induction line with
  | nil => rfl
  | cons c line ih =>
    rw [List.mem_cons, not_or] at h
    rw [List.cons_append, universalNewlines, if_neg fun hcr => h.1 hcr.symm, ih h.2]
    rfl

theorem universalNewlines_lineEnd (file : EnvFile) (rest : PyStr) :
    universalNewlines (file.lineEnd ++ rest) = lineFeed :: universalNewlines rest := by
  have hlf : lineFeed ≠ carriageReturn := by decide
  cases hcr : file.crLf with
  | true => simp [EnvFile.lineEnd, hcr, universalNewlines, hlf]
  | false => simp [EnvFile.lineEnd, hcr, universalNewlines, hlf]

theorem universalNewlines_join (file : EnvFile) (hrows : ∀ row ∈ rows, NoNewline row.text)
    (hlast : ∀ row ∈ last, NoNewline row.text) :
    universalNewlines (join file.lineEnd rows last) = join [lineFeed] rows last := by
  induction rows with
  | nil =>
    cases last with
    | none => rfl
    | some row =>
      have hrow := universalNewlines_append (hlast row rfl).2 []
      simpa [join, universalNewlines] using hrow
  | cons row rows ih =>
    have hrow := hrows row (by simp)
    have hjoin (lineEnd : PyStr) :
        join lineEnd (row :: rows) last = row.text ++ (lineEnd ++ join lineEnd rows last) := by
      simp [join]
    rw [hjoin, hjoin, universalNewlines_append hrow.2, universalNewlines_lineEnd,
      ih fun row hmem => hrows row (by simp [hmem])]
    rfl

theorem readText_written {file : EnvFile} (h : ∀ row ∈ file.allRows, row.Legal)
    (hbytes : file.Written bytes) :
    readText (.ok bytes) = .ok (join [lineFeed] file.rows file.last) := by
  obtain ⟨chars, htext, rfl⟩ := hbytes
  have hdecode : decodeUtf8Sig (Tee.encode (if file.bom then '\uFEFF' :: chars else chars)) =
      some file.text := by
    rw [decodeUtf8Sig, decodeUtf8_encode]
    cases hbom : file.bom with
    | true => simp [htext, byteOrderMark]
    | false => simp [← htext, EnvFile.head h]
  have hall (row : EnvRow) (hmem : row ∈ file.rows ∨ row ∈ file.last) : NoNewline row.text :=
    .text (h row (by simpa [EnvFile.allRows] using hmem))
  simp only [readText, hdecode]
  rw [EnvFile.text, universalNewlines_join file (fun row hmem => hall row (.inl hmem))
    fun row hmem => hall row (.inr hmem)]

-- ---------------------------------------------------------------------------
-- Parsing the lines
-- ---------------------------------------------------------------------------

theorem bind_eq_ok {x : Except ε α} {f : α → Except ε β} :
    (x >>= f) = .ok b ↔ ∃ a, x = .ok a ∧ f a = .ok b := by
  cases x with
  | error => simp [Bind.bind, Except.bind]
  | ok a => simp [Bind.bind, Except.bind]

theorem append_eq_ok {x y : Except ε (List α)} :
    (do return (← x) ++ (← y)) = .ok both ↔
      ∃ first rest, x = .ok first ∧ y = .ok rest ∧ both = first ++ rest := by
  simp only [bind_eq_ok]
  constructor
  · rintro ⟨first, hfirst, rest, hrest, hboth⟩
    exact ⟨first, rest, hfirst, hrest, (Except.ok.inj hboth).symm⟩
  · rintro ⟨first, rest, hfirst, hrest, rfl⟩
    exact ⟨first, hfirst, rest, hrest, rfl⟩

/-- The lines parse, and give these pairs. -/
inductive Reads : List PyStr → List Pair → Prop
  | nil : Reads [] []
  | cons : parseLine line = .ok pairs → Reads lines more → Reads (line :: lines) (pairs ++ more)

theorem parseLines_eq_ok (path : PyStr) (number : Nat) :
    parseLines path number lines = .ok pairs ↔ Reads lines pairs := by
  induction lines generalizing number pairs with
  | nil =>
    constructor
    · intro h
      cases h
      exact .nil
    · intro h
      cases h
      rfl
  | cons line lines ih =>
    rw [parseLines]
    cases hline : parseLine line with
    | error error =>
      constructor
      · nofun
      · intro h
        cases h with
        | cons hok => simp [hline] at hok
    | ok first =>
      simp only [bind_eq_ok, ih]
      constructor
      · rintro ⟨more, hmore, hpairs⟩
        cases hpairs
        exact .cons hline hmore
      · intro h
        cases h with
        | @cons _ first' _ more hok hmore =>
          obtain rfl : first = first' := Except.ok.inj (hline.symm.trans hok)
          exact ⟨more, hmore, rfl⟩

theorem Reads.unique (h : Reads lines pairs) (h' : Reads lines pairs') : pairs = pairs' :=
  Except.ok.inj (((parseLines_eq_ok [] 1).mpr h).symm.trans ((parseLines_eq_ok [] 1).mpr h'))

theorem Reads.append (h : Reads lines pairs) (hmore : Reads lines' pairs') :
    Reads (lines ++ lines') (pairs ++ pairs') := by
  induction h with
  | nil => exact hmore
  | cons hline _ ih =>
    rw [List.cons_append, List.append_assoc]
    exact .cons hline ih

theorem Reads.split (h : Reads (lines ++ lines') pairs) :
    ∃ before after, pairs = before ++ after ∧ Reads lines before ∧ Reads lines' after := by
  induction lines generalizing pairs with
  | nil => exact ⟨[], pairs, rfl, .nil, h⟩
  | cons line lines ih =>
    cases h with
    | @cons _ first _ rest hline hrest =>
      obtain ⟨before, after, rfl, hbefore, hafter⟩ := ih hrest
      exact ⟨first ++ before, after, (List.append_assoc ..).symm, .cons hline hbefore, hafter⟩

theorem reads_concat_nil : Reads (lines ++ [[]]) pairs ↔ Reads lines pairs := by
  constructor
  · intro h
    obtain ⟨before, after, rfl, hbefore, hafter⟩ := h.split
    cases hafter with
    | cons hline hrest =>
      cases hline
      cases hrest
      simpa using hbefore
  · intro h
    have hnil : Reads [([] : PyStr)] ([] ++ []) := .cons rfl .nil
    simpa using h.append hnil

theorem reads_splitlines (text : PyStr) :
    Reads (splitlines text) pairs ↔ Reads (pieces text) pairs := by
  unfold splitlines
  split
  · next hlast =>
    obtain ⟨before, hbefore⟩ := List.getLast?_eq_some_iff.mp hlast
    rw [hbefore, List.dropLast_concat, reads_concat_nil]
  · rfl

/-- What a row that is legal becomes when it is split at Python's boundaries. -/
def EnvRow.pieces (row : EnvRow) : List PyStr := Python.pieces row.text

theorem pieces_join {rows : List EnvRow} (hrows : ∀ row ∈ rows, row.Legal)
    (hlast : ∀ row ∈ last, EnvRow.Legal row) :
    pieces (join [lineFeed] rows last) =
      rows.flatMap EnvRow.pieces ++ (last.elim [[]] EnvRow.pieces) := by
  have hne : carriageReturn ≠ lineFeed := by decide
  have hcr : ∀ rows' : List EnvRow, (∀ row ∈ rows', row.Legal) →
      carriageReturn ∉ join [lineFeed] rows' last := by
    intro rows' hlegal hmem
    simp only [join, List.mem_append, List.mem_flatMap, List.mem_singleton,
      Option.mem_toList] at hmem
    rcases hmem with ⟨row, hrow, htext | hlf⟩ | ⟨row, hrow, htext⟩
    · exact (NoNewline.text (hlegal row hrow)).2 htext
    · exact hne hlf
    · exact (NoNewline.text (hlast row hrow)).2 htext
  induction rows with
  | nil =>
    cases last with
    | none => rfl
    | some row => simp [join, EnvRow.pieces]
  | cons row rows ih =>
    have hrest (row' : EnvRow) (hmem : row' ∈ rows) : row'.Legal := hrows row' (by simp [hmem])
    have hjoin : join [lineFeed] (row :: rows) last =
        row.text ++ lineFeed :: join [lineFeed] rows last := by simp [join]
    rw [hjoin, pieces_line (NoNewline.text (hrows row (by simp))).2 (hcr rows hrest), ih hrest]
    simp [EnvRow.pieces]

/-- A file is read row by row. -/
theorem reads_file {file : EnvFile} (h : ∀ row ∈ file.allRows, row.Legal) :
    Reads (splitlines (join [lineFeed] file.rows file.last)) pairs ↔
      Reads (file.allRows.flatMap EnvRow.pieces) pairs := by
  have hlegal (row : EnvRow) (hmem : row ∈ file.rows ∨ row ∈ file.last) : row.Legal :=
    h row (by simpa [EnvFile.allRows] using hmem)
  rw [reads_splitlines, pieces_join (fun row hmem => hlegal row (.inl hmem))
    fun row hmem => hlegal row (.inr hmem)]
  cases hlast : file.last with
  | some row => simp [EnvFile.allRows, hlast]
  | none =>
    simp only [EnvFile.allRows, hlast, Option.toList_none, List.append_nil, Option.elim_none]
    exact reads_concat_nil

-- ---------------------------------------------------------------------------
-- One row
-- ---------------------------------------------------------------------------

/-- No boundary inside a pair, and nothing but blank pieces and comments aside. -/
def EnvRow.OneLine (row : EnvRow) : Prop :=
  match row with
  | .pair key value => ∀ c ∈ key ++ value, isLineBreak c = false
  | .aside text => ∀ piece ∈ Python.pieces text, Aside piece

theorem parseLine_aside (h : Aside text) : parseLine text = .ok [] := by
  rw [parseLine]
  exact if_pos h

theorem aside_of_parseLine (h : parseLine text = .ok []) : Aside text := by
  by_contra haside
  rw [Aside] at haside
  simp only [parseLine, if_neg haside] at h
  split at h
  · cases h
  · split at h <;> cases h

theorem parseLine_pair (hrow : (EnvRow.pair key value).Legal) (start : PyStr) :
    parseLine (key ++ equalsSign :: start) = .ok [(key, rstrip start)] := by
  obtain ⟨hne, hstripped, hequals, hhash, _⟩ := hrow
  obtain ⟨c, key', rfl⟩ := List.exists_cons_of_ne_nil hne
  have hspace : isSpace c = false := hstripped.1
  have hstrip :
      strip (c :: key' ++ equalsSign :: start) = c :: key' ++ equalsSign :: rstrip start := by
    have hright := rstrip_append_cons (c :: key') (c := equalsSign) (by decide) start
    rw [strip, hright]
    exact List.dropWhile_cons_of_neg (by simp [hspace])
  rw [parseLine, hstrip, if_neg, if_neg (by simp), partition_append hequals]
  · simp [strip_eq_self hstripped]
  · rintro (hnil | hhead)
    · cases hnil
    · exact hhash hhead

theorem parseLine_cut_key (hrow : (EnvRow.pair (start ++ c :: rest) value).Legal)
    (hc : isLineBreak c = true) : parseLine start ≠ .ok pairs := by
  obtain ⟨_, hstripped, hequals, hhash, _⟩ := hrow
  cases start with
  | nil => simp [Stripped, isSpace_of_isLineBreak hc] at hstripped
  | cons first start =>
    have hspace : isSpace first = false := hstripped.1
    have hprefix : rstrip (first :: start) <+: first :: start := List.rdropWhile_prefix _ _
    have hmem : equalsSign ∉ strip (first :: start) := by
      rw [strip, lstrip]
      intro hmem
      have hin := hprefix.subset (List.dropWhile_sublist _ |>.subset hmem)
      exact hequals (by simp_all)
    rw [parseLine, if_neg, if_pos hmem]
    · intro h
      cases h
    · rw [strip_cons hspace]
      rintro (hnil | hhead)
      · cases hnil
      · exact hhash hhead

theorem reads_pair (hrow : (EnvRow.pair key value).Legal) (hone : (EnvRow.pair key value).OneLine) :
    Reads (EnvRow.pair key value).pieces [(key, value)] := by
  have hbreak : ∀ c ∈ (EnvRow.pair key value).text, isLineBreak c = false := by
    intro c hc
    rcases List.mem_append.mp hc with hkey | hrest
    · exact hone c (List.mem_append_left _ hkey)
    · rcases List.mem_cons.mp hrest with rfl | hvalue
      · decide
      · exact hone c (List.mem_append_right _ hvalue)
  have hvalue : rstrip value = value := rstrip_eq_self hrow.2.2.2.2.2.2.2
  rw [EnvRow.pieces, pieces_eq_singleton hbreak]
  exact .cons (hvalue ▸ parseLine_pair hrow value) .nil

theorem Reads.pair (hrow : (EnvRow.pair key value).Legal)
    (h : Reads (EnvRow.pair key value).pieces pairs) :
    ∃ start more, pairs = (key, start) :: more ∧
      (start = value → (EnvRow.pair key value).OneLine) := by
  have hcr : carriageReturn ∉ key ++ equalsSign :: value := (NoNewline.text hrow).2
  by_cases hkey : ∃ c ∈ key, isLineBreak c = true
  · obtain ⟨start, c, rest, rfl, hstart, hc⟩ := exists_first_break hkey
    have htext : start ++ c :: rest ++ equalsSign :: value =
        start ++ c :: (rest ++ equalsSign :: value) := by simp
    rw [EnvRow.pieces, EnvRow.text, htext, pieces_append_break hstart hc (htext ▸ hcr)] at h
    cases h with
    | cons hline => exact absurd hline (parseLine_cut_key hrow hc)
  · have hnone : ∀ c ∈ key, isLineBreak c = false := by simpa using hkey
    by_cases hvalue : ∃ c ∈ value, isLineBreak c = true
    · obtain ⟨start, c, rest, rfl, hstart, hc⟩ := exists_first_break hvalue
      have htext : key ++ equalsSign :: (start ++ c :: rest) =
          (key ++ equalsSign :: start) ++ c :: rest := by simp
      have hbefore : ∀ b ∈ key ++ equalsSign :: start, isLineBreak b = false := by
        intro b hb
        rcases List.mem_append.mp hb with hb | hb
        · exact hnone b hb
        · rcases List.mem_cons.mp hb with rfl | hb
          · decide
          · exact hstart b hb
      rw [EnvRow.pieces, EnvRow.text, htext, pieces_append_break hbefore hc (htext ▸ hcr)] at h
      cases h with
      | @cons _ _ _ more hline _ =>
        rw [parseLine_pair hrow] at hline
        cases hline
        refine ⟨_, _, rfl, fun heq => ?_⟩
        -- what is before the boundary is shorter than the value
        have hlength : (rstrip start).length ≤ start.length :=
          (List.rdropWhile_prefix isSpace start).length_le
        rw [heq, List.length_append, List.length_cons] at hlength
        omega
    · have hone : (EnvRow.pair key value).OneLine := by
        intro c hc
        rcases List.mem_append.mp hc with hc | hc
        · exact hnone c hc
        · exact Bool.eq_false_iff.mpr fun hbreak => hvalue ⟨c, hc, hbreak⟩
      obtain rfl := h.unique (reads_pair hrow hone)
      exact ⟨value, [], rfl, fun _ => hone⟩

/-- Lines that give nothing are blank or comments. -/
theorem reads_nil_iff : Reads lines [] ↔ ∀ line ∈ lines, Aside line := by
  induction lines with
  | nil => exact ⟨fun _ => nofun, fun _ => .nil⟩
  | cons line lines ih =>
    rw [List.forall_mem_cons, ← ih]
    constructor
    · intro h
      generalize hpairs : ([] : List Pair) = pairs at h
      cases h with
      | cons hline hrest =>
        obtain ⟨rfl, rfl⟩ := List.append_eq_nil_iff.mp hpairs.symm
        exact ⟨aside_of_parseLine hline, hrest⟩
    · rintro ⟨haside, hrest⟩
      exact .cons (parseLine_aside haside) hrest

-- ---------------------------------------------------------------------------
-- All rows
-- ---------------------------------------------------------------------------

variable {rows : List EnvRow}

theorem reads_rows (hlegal : ∀ row ∈ rows, row.Legal) (hone : ∀ row ∈ rows, row.OneLine) :
    Reads (rows.flatMap EnvRow.pieces) (rows.flatMap EnvRow.pairs) := by
  induction rows with
  | nil => exact .nil
  | cons row rows ih =>
    rw [List.forall_mem_cons] at hlegal hone
    rw [List.flatMap_cons, List.flatMap_cons]
    refine Reads.append ?_ (ih hlegal.2 hone.2)
    cases row with
    | pair key value => exact reads_pair hlegal.1 hone.1
    | aside text => exact reads_nil_iff.mpr hone.1

theorem Reads.length_le (hlegal : ∀ row ∈ rows, row.Legal)
    (h : Reads (rows.flatMap EnvRow.pieces) pairs) :
    (rows.flatMap EnvRow.pairs).length ≤ pairs.length := by
  induction rows generalizing pairs with
  | nil => exact Nat.zero_le _
  | cons row rows ih =>
    rw [List.forall_mem_cons] at hlegal
    rw [List.flatMap_cons] at h
    obtain ⟨first, rest, rfl, hfirst, hrest⟩ := h.split
    have hle := ih hlegal.2 hrest
    cases row with
    | pair key value =>
      obtain ⟨start, more, rfl, _⟩ := hfirst.pair hlegal.1
      simp only [List.flatMap_cons, EnvRow.pairs, List.length_append, List.length_cons,
        List.length_nil]
      omega
    | aside text =>
      simp only [List.flatMap_cons, EnvRow.pairs, List.nil_append, List.length_append]
      omega

/-- Where just the pairs come back no row was cut: each pair gave one, and the rest none. -/
theorem Reads.oneLine (hlegal : ∀ row ∈ rows, row.Legal)
    (h : Reads (rows.flatMap EnvRow.pieces) (rows.flatMap EnvRow.pairs)) :
    ∀ row ∈ rows, row.OneLine := by
  induction rows with
  | nil => nofun
  | cons row rows ih =>
    rw [List.forall_mem_cons] at hlegal ⊢
    rw [List.flatMap_cons] at h
    obtain ⟨first, rest, hpairs, hfirst, hrest⟩ := h.split
    have hle := hrest.length_le hlegal.2
    cases row with
    | pair key value =>
      obtain ⟨start, more, rfl, hwhole⟩ := hfirst.pair hlegal.1
      have hcons : (key, value) :: rows.flatMap EnvRow.pairs = (key, start) :: (more ++ rest) :=
        hpairs
      obtain ⟨hpair, hmore⟩ := List.cons.inj hcons
      have hlength := congrArg List.length hmore
      rw [List.length_append] at hlength
      obtain rfl : more = [] := List.length_eq_zero_iff.mp (by omega)
      obtain rfl : rows.flatMap EnvRow.pairs = rest := hmore
      exact ⟨hwhole (Prod.mk.inj hpair).2.symm, ih hlegal.2 hrest⟩
    | aside text =>
      have hrest' : rows.flatMap EnvRow.pairs = first ++ rest := hpairs
      have hlength := congrArg List.length hrest'
      rw [List.length_append] at hlength
      obtain rfl : first = [] := List.length_eq_zero_iff.mp (by omega)
      obtain rfl : rows.flatMap EnvRow.pairs = rest := hrest'
      exact ⟨reads_nil_iff.mp hfirst, ih hlegal.2 hrest⟩

-- ---------------------------------------------------------------------------
-- Files, flags and the command
-- ---------------------------------------------------------------------------

structure WrittenFile where
  path : PyStr
  file : EnvFile
  bytes : List UInt8
  legal : ∀ row ∈ file.allRows, row.Legal
  written : file.Written bytes

def WrittenFile.arg (written : WrittenFile) : PyStr × PyResult (List UInt8) :=
  (written.path, .ok written.bytes)

def allRows (files : List WrittenFile) : List EnvRow := files.flatMap fun file => file.file.allRows

def allPairs (files : List WrittenFile) : List Pair := files.flatMap fun file => file.file.pairs

theorem allPairs_eq (files : List WrittenFile) :
    allPairs files = (allRows files).flatMap EnvRow.pairs :=
  List.flatMap_assoc.symm

theorem parseEnvFiles_eq_ok (files : List WrittenFile) :
    parseEnvFiles (files.map WrittenFile.arg) = .ok pairs ↔
      Reads ((allRows files).flatMap EnvRow.pieces) pairs := by
  induction files generalizing pairs with
  | nil =>
    constructor
    · intro h
      cases h
      exact .nil
    · intro h
      cases h
      rfl
  | cons written files ih =>
    have hread := readText_written written.legal written.written
    have hrows : (allRows (written :: files)).flatMap EnvRow.pieces =
        written.file.allRows.flatMap EnvRow.pieces ++ (allRows files).flatMap EnvRow.pieces := by
      simp [allRows]
    rw [hrows, List.map_cons, WrittenFile.arg, parseEnvFiles, hread]
    simp only [append_eq_ok, parseLines_eq_ok, reads_file written.legal, ih]
    constructor
    · rintro ⟨first, rest, hfirst, hrest, rfl⟩
      exact hfirst.append hrest
    · intro h
      obtain ⟨first, rest, rfl, hfirst, hrest⟩ := h.split
      exact ⟨first, rest, hfirst, hrest, rfl⟩

def Builder.lastValue (builder : Builder κ) (key : PyStr) : List Pair → Option PyStr
  | [] => none
  | (name, value) :: pairs =>
    (builder.lastValue key pairs).or (if builder.sameKey name key then some value else none)

theorem Builder.lastValue_append (builder : Builder κ) (key : PyStr) (pairs more : List Pair) :
    builder.lastValue key (pairs ++ more) =
      (builder.lastValue key more).or (builder.lastValue key pairs) := by
  induction pairs with
  | nil => simp [lastValue]
  | cons pair pairs ih => simp only [List.cons_append, lastValue, ih, Option.or_assoc]

theorem Builder.Lawful.envAll {builder : Builder κ} (laws : builder.Lawful)
    (h : builder.envAll command pairs = .ok command') (key : PyStr) :
    builder.inForce command' key =
      (builder.lastValue key pairs).or (builder.inForce command key) := by
  induction pairs generalizing command with
  | nil =>
    cases h
    rfl
  | cons pair pairs ih =>
    obtain ⟨next, hnext, h⟩ := bind_eq_ok.mp h
    rw [ih h, laws.env hnext, Builder.lastValue, Option.or_assoc]
    cases builder.sameKey pair.1 key <;> rfl

theorem applied_inForce {builder : Builder κ} (laws : builder.Lawful)
    (h : applyEnvironment builder command clear inherited pairs cwd = .ok command')
    (hvalue : builder.lastValue key pairs = some value) :
    builder.inForce command' key = some value := by
  simp only [applyEnvironment, bind_eq_ok] at h
  obtain ⟨based, _, named, hnamed, h⟩ := h
  have hpairs : builder.inForce named key = some value := by
    rw [laws.envAll hnamed key, hvalue]
    rfl
  cases cwd with
  | none =>
    cases h
    exact hpairs
  | some dir => rw [laws.cwd h, hpairs]

section Claims

variable {κ : Type} {builder : Builder κ}

/-- Env files are literal exactly where no boundary but LF stands in a pair or starts a
new line inside a comment. Then the last `--env` of a key wins, or else the last line. -/
theorem env_files_literal (laws : builder.Lawful) (files : List WrittenFile) :
    (parseEnvFiles (files.map WrittenFile.arg) = .ok (allPairs files) ∧
      ∀ rawPairs flagPairs, parseEnvFlags rawPairs = .ok flagPairs →
        parseEnvironment (files.map WrittenFile.arg) rawPairs = .ok (allPairs files ++ flagPairs) ∧
        ∀ command clear inherited cwd command',
          applyEnvironment builder command clear inherited (allPairs files ++ flagPairs) cwd =
            .ok command' →
          ∀ key value, (builder.lastValue key flagPairs).or
            (builder.lastValue key (allPairs files)) =
            some value → builder.inForce command' key = some value) ↔
      ∀ row ∈ allRows files, row.OneLine := by
  have hlegal : ∀ row ∈ allRows files, row.Legal := by
    intro row hrow
    obtain ⟨file, _, hrow⟩ := List.mem_flatMap.mp hrow
    exact file.legal row hrow
  rw [parseEnvFiles_eq_ok, allPairs_eq]
  constructor
  · rintro ⟨hreads, _⟩
    exact hreads.oneLine hlegal
  · intro hone
    have hreads := reads_rows hlegal hone
    refine ⟨hreads, fun rawPairs flagPairs hflags => ⟨?_, ?_⟩⟩
    · rw [parseEnvironment, (parseEnvFiles_eq_ok files).mpr hreads, hflags]
      rfl
    · intro command clear inherited cwd command' happly key value hvalue
      refine applied_inForce laws happly ?_
      rw [Builder.lastValue_append]
      exact hvalue

end Claims

-- ---------------------------------------------------------------------------
-- Concrete files
-- ---------------------------------------------------------------------------

instance : DecidablePred NoNewline := fun text =>
  inferInstanceAs (Decidable (lineFeed ∉ text ∧ carriageReturn ∉ text))

instance : DecidablePred Aside := fun text =>
  inferInstanceAs (Decidable (strip text = [] ∨ (strip text).head? = some numberSign))

instance : DecidablePred EnvRow.Legal
  | .pair key value => inferInstanceAs (Decidable
      (key ≠ [] ∧ Stripped key ∧ equalsSign ∉ key ∧ key.head? ≠ some numberSign ∧
        key.head? ≠ some byteOrderMark ∧ NoNewline key ∧ NoNewline value ∧
        value.getLast?.any isSpace = false))
  | .aside text => inferInstanceAs (Decidable (NoNewline text ∧ Aside text))

instance : DecidablePred EnvRow.OneLine
  | .pair key value => List.decidableBAll (fun c => isLineBreak c = false) (key ++ value)
  | .aside text => inferInstanceAs (Decidable (∀ piece ∈ Python.pieces text, Aside piece))

/-- The pairs that were set, the last one first; keys are compared as they are. -/
def setPairs : Builder (List Pair) where
  envClear _ := []
  inheritEnv command _ := .ok command
  env command key value := .ok ((key, value) :: command)
  cwd command _ := .ok command
  inForce command key := (command.find? (·.1 = key)).map Prod.snd
  sameKey name key := name = key

theorem setPairs_lawful : setPairs.Lawful where
  env {command key value command' other} h := by
    cases h
    by_cases hkey : key = other
    · simp [setPairs, hkey]
    · simp [setPairs, hkey]
  cwd h := by
    cases h
    rfl

def portFile : WrittenFile where
  path := lit "ports.env"
  file := ⟨true, false, [.aside (lit "# ports")], some (.pair (lit "PORT") (lit "80"))⟩
  bytes := Tee.encode "\uFEFF# ports\nPORT=80".toList
  legal := by decide +kernel
  written := ⟨"# ports\nPORT=80".toList, by decide, rfl⟩

theorem env_files_literal_ports :
    ((setPairs.lastValue (lit "PORT") [(lit "PORT", lit "81")]).or
        (setPairs.lastValue (lit "PORT") (allPairs [portFile])) = some (lit "81")) ∧
      setPairs.inForce [(lit "PORT", lit "81"), (lit "PORT", lit "80")] (lit "PORT") =
        some (lit "81") := by
  have hone : ∀ row ∈ allRows [portFile], row.OneLine := by decide +kernel
  have hflags : parseEnvFlags [lit "PORT=81"] = .ok [(lit "PORT", lit "81")] := rfl
  have hlast : (setPairs.lastValue (lit "PORT") [(lit "PORT", lit "81")]).or
      (setPairs.lastValue (lit "PORT") (allPairs [portFile])) = some (lit "81") := by decide +kernel
  have happly := (((env_files_literal setPairs_lawful [portFile]).mpr hone).2 _ _ hflags).2
  exact ⟨hlast, happly [] false [] none _ rfl _ _ hlast⟩

def tabFile : WrittenFile where
  path := lit "tab.env"
  file := ⟨false, false, [.pair (lit "KEY") (lit "a\u000BB=2")], none⟩
  bytes := Tee.encode "KEY=a\u000BB=2\n".toList
  legal := by decide +kernel
  written := ⟨"KEY=a\u000BB=2\n".toList, by decide, rfl⟩

/-- One pair is read as two. -/
theorem vertical_tab_splits :
    parseEnvFiles [tabFile.arg] = .ok [(lit "KEY", lit "a"), (lit "B", lit "2")] ∧
      allPairs [tabFile] = [(lit "KEY", lit "a\u000BB=2")] := by
  have hread := readText_written tabFile.legal tabFile.written
  refine ⟨?_, rfl⟩
  rw [WrittenFile.arg, parseEnvFiles, hread]
  rfl

end ProcessKit.Cli

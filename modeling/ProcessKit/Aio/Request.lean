import Mathlib.Data.Nat.Digits.Defs
import ProcessKit.Aio.Retry
import ProcessKit.Python.IpAddress

/-!
# The request of `wait_for_http`

`_build_http_request` writes one HTTP/1.1 request by hand. The host is refused where it
has white space or a control character, the path where such a character could reach the
wire, and the encoder refuses what is not Latin-1. `_http_connection_host` and
`_format_host_header` read an IPv6 host raw or with its scope separator encoded.
-/

namespace ProcessKit.Aio

open Python
open ProcessKit.Runtime (PyErr PyResult)

-- ---------------------------------------------------------------------------
-- Texts
-- ---------------------------------------------------------------------------

/-- What the messages quote: `repr`, and the `str` of the encoder's error. The interpreter
turns no integer of more than `maxStrDigits` digits into text; 0 is no limit. -/
structure Interpreter where
  repr : PyStr → String
  encodeError : PyStr → String
  maxStrDigits : Nat

/-- `unicodedata.category(ch) == "Cc"`: C0, DEL and C1. -/
def isControl (c : PyChar) : Bool := c.val ≤ 0x1F || 0x7F ≤ c.val && c.val ≤ 0x9F

def digitChar (digit : Nat) : PyChar := ⟨(0x30 + digit) % 0x110000, Nat.mod_lt _ (by decide)⟩

def natDigits (n : Nat) : PyStr :=
  if n = 0 then [digitChar 0] else (Nat.digits 10 n).reverse.map digitChar

def minusSign : PyChar := ofChar '-'

def strInt (py : Interpreter) (n : Int) : PyResult PyStr :=
  let digits := natDigits n.natAbs
  if 0 < py.maxStrDigits ∧ py.maxStrDigits < digits.length then
    .error <| ValueError.newErr <|
      s!"Exceeds the limit ({py.maxStrDigits} digits) for integer string conversion; " ++
      "use sys.set_int_max_str_digits() to increase the limit"
  else .ok (if n < 0 then minusSign :: digits else digits)

-- ---------------------------------------------------------------------------
-- Host and path
-- ---------------------------------------------------------------------------

def openBracket : PyChar := ofChar '['
def closeBracket : PyChar := ofChar ']'

/-- `"%25"`, the encoded scope separator. -/
def encodedPercent : PyStr := lit "%25"

def startsBracket (host : PyStr) : Bool := host.head? = some openBracket
def endsBracket (host : PyStr) : Bool := host.getLast? = some closeBracket

def insideBrackets (host : PyStr) : PyStr := host.tail.dropLast

def bracket (literal : PyStr) : PyStr := openBracket :: literal ++ [closeBracket]

def checkHttpHost (py : Interpreter) (host : PyStr) : PyResult Unit :=
  match host.find? fun c => isControl c || Python.isSpace c with
  | some c => .error <| ValueError.newErr <|
    "host must not contain whitespace or control characters " ++
    s!"(found {py.repr [c]} in {py.repr host})"
  | none => .ok ()

/-- The header's `Host` field value. -/
def formatHostHeader (py : Interpreter) (host : PyStr) (port : Int) : PyResult PyStr := do
  checkHttpHost py host
  if startsBracket host && endsBracket host then
    let literal := replace encodedPercent [percent] (insideBrackets host)
    return bracket (replace [percent] encodedPercent literal) ++ colon :: (← strInt py port)
  else if isIPv6 host then
    let literal := replace encodedPercent [percent] host
    return bracket (replace [percent] encodedPercent literal) ++ colon :: (← strInt py port)
  else
    return host ++ colon :: (← strInt py port)

def httpConnectionHost (host : PyStr) : PyResult PyStr :=
  if startsBracket host ≠ endsBracket host then
    .error (ValueError.newErr "an IPv6 host must use either both brackets or neither")
  else
    let bracketed := startsBracket host
    let host := if bracketed then insideBrackets host else host
    .ok (if bracketed || host.contains colon then replace encodedPercent [percent] host else host)

/-- `_HTTP_FORBIDDEN_PATH_CHARS`, and the white space of Latin-1. -/
def forbiddenInPath (c : PyChar) : Bool := c.val ≤ 0xFF && (isControl c || Python.isSpace c)

def checkHttpPath (py : Interpreter) (path : PyStr) : PyResult Unit :=
  match path.find? forbiddenInPath with
  | some c => .error <| ValueError.newErr <|
    "path must not contain whitespace or control characters " ++
    s!"(found {py.repr [c]} in {py.repr path})"
  | none => .ok ()

def byteOf (c : PyChar) : UInt8 := UInt8.ofNat c.val

def encodeLatin1 (text : PyStr) : Option (List UInt8) :=
  if text.all (·.val ≤ 0xFF) then some (text.map byteOf) else none

def decodeLatin1 (bytes : List UInt8) : PyStr :=
  bytes.map fun byte => ⟨byte.toNat, Nat.lt_trans byte.toNat_lt (by decide)⟩

def requestLine (path : PyStr) : PyStr := lit "GET " ++ path ++ lit " HTTP/1.1"

def crLf : PyStr := [carriageReturn, lineFeed]

def requestText (path hostHeader : PyStr) : PyStr :=
  requestLine path ++ crLf ++
    (lit "Host: " ++ hostHeader ++ crLf ++ (lit "Connection: close" ++ crLf ++ crLf))

def buildHttpRequest (py : Interpreter) (host : PyStr) (port : Int) (path : PyStr) :
    PyResult (List UInt8) := do
  checkHttpPath py path
  let text := requestText path (← formatHostHeader py host port)
  match encodeLatin1 text with
  | some bytes => return bytes
  | none => .error <| ValueError.newErr <|
    s!"host and path must be latin-1 encodable for an HTTP request line: {py.encodeError text}"

-- ---------------------------------------------------------------------------
-- Reading a request
-- ---------------------------------------------------------------------------

/-- The lines that CR LF ends, and what follows the last of them. -/
def splitCrLf : List UInt8 → List (List UInt8)
  | [] => [[]]
  | [byte] => [[byte]]
  | byte :: next :: bytes =>
    if byte = 0x0D ∧ next = 0x0A then [] :: splitCrLf bytes
    else (splitCrLf (next :: bytes)).modifyHead (byte :: ·)

def isControlByte (byte : UInt8) : Bool := byte ≤ 0x1F || 0x7F ≤ byte && byte ≤ 0x9F

def bytesOf (text : PyStr) : List UInt8 := text.map byteOf

theorem splitCrLf_line (h : 0x0D ∉ line) (rest : List UInt8) :
    splitCrLf (line ++ 0x0D :: 0x0A :: rest) = line :: splitCrLf rest := by
  induction line with
  | nil => simp [splitCrLf]
  | cons byte line ih =>
    rw [List.mem_cons, not_or] at h
    have htail : line ++ 0x0D :: 0x0A :: rest ≠ [] := by simp
    obtain ⟨next, more, hmore⟩ := List.exists_cons_of_ne_nil htail
    rw [List.cons_append, hmore, splitCrLf, if_neg fun hcr => h.1 hcr.1.symm, ← hmore, ih h.2]
    rfl

/-- Latin-1, and no control character. -/
def Clean (text : PyStr) : Prop := ∀ c ∈ text, c.val ≤ 0xFF ∧ isControl c = false

theorem toNat_byteOf {c : PyChar} (h : c.val ≤ 0xFF) : (byteOf c).toNat = c.val :=
  UInt8.toNat_ofNat_of_lt' (Nat.lt_succ_of_le h)

theorem isControlByte_byteOf {c : PyChar} (h : c.val ≤ 0xFF) :
    isControlByte (byteOf c) = isControl c := by
  simp only [isControlByte, isControl, UInt8.le_iff_toNat_le, toNat_byteOf h]
  rfl

theorem Clean.bytes (h : Clean text) : ∀ byte ∈ bytesOf text, isControlByte byte = false := by
  intro byte hbyte
  obtain ⟨c, hc, rfl⟩ := List.mem_map.mp hbyte
  rw [isControlByte_byteOf (h c hc).1]
  exact (h c hc).2

theorem Clean.noCr (h : Clean text) : 0x0D ∉ bytesOf text :=
  fun hmem => absurd (h.bytes _ hmem) (by decide)

theorem decodeLatin1_bytesOf (h : ∀ c ∈ text, c.val ≤ 0xFF) :
    decodeLatin1 (bytesOf text) = text := by
  induction text with
  | nil => rfl
  | cons c text ih =>
    rw [List.forall_mem_cons] at h
    have hc : (⟨(byteOf c).toNat, Nat.lt_trans (byteOf c).toNat_lt (by decide)⟩ : PyChar) = c :=
      Fin.ext (toNat_byteOf h.1)
    have hrest : decodeLatin1 (bytesOf text) = text := ih h.2
    rw [bytesOf, List.map_cons, decodeLatin1, List.map_cons, hc]
    exact congrArg (c :: ·) hrest

-- ---------------------------------------------------------------------------
-- What the guards let through
-- ---------------------------------------------------------------------------

theorem checkHttpHost_ok (h : checkHttpHost py host = .ok ()) :
    ∀ c ∈ host, isControl c = false ∧ Python.isSpace c = false := by
  unfold checkHttpHost at h
  split at h
  · cases h
  · next hfind => simpa using hfind

theorem checkHttpHost_cases (py : Interpreter) (host : PyStr) :
    checkHttpHost py host = .ok () ∨
      ∃ message, checkHttpHost py host = .error (ValueError.newErr message) := by
  unfold checkHttpHost
  split
  · exact .inr ⟨_, rfl⟩
  · exact .inl rfl

theorem checkHttpPath_ok (h : checkHttpPath py path = .ok ()) :
    ∀ c ∈ path, forbiddenInPath c = false := by
  unfold checkHttpPath at h
  split at h
  · cases h
  · next hfind => simpa using hfind

theorem checkHttpPath_cases (py : Interpreter) (path : PyStr) :
    checkHttpPath py path = .ok () ∨
      ∃ message, checkHttpPath py path = .error (ValueError.newErr message) := by
  unfold checkHttpPath
  split
  · exact .inr ⟨_, rfl⟩
  · exact .inl rfl

theorem mem_natDigits (h : c ∈ natDigits n) : Python.isDigit c = true := by
  have hdigit (digit : Nat) (hlt : digit < 10) : Python.isDigit (digitChar digit) = true := by
    have hval : (digitChar digit).val = 0x30 + digit := Nat.mod_eq_of_lt (by omega)
    simp only [Python.isDigit, hval, Bool.and_eq_true, decide_eq_true_eq]
    omega
  unfold natDigits at h
  split at h
  · obtain rfl := List.mem_singleton.mp h
    exact hdigit 0 (by decide)
  · obtain ⟨digit, hmem, rfl⟩ := List.mem_map.mp h
    exact hdigit digit (Nat.digits_lt_base (by decide) (List.mem_reverse.mp hmem))

theorem strInt_ok (h : strInt py n = .ok digits) :
    ∀ c ∈ digits, Python.isDigit c = true ∨ c = minusSign := by
  unfold strInt at h
  simp only at h
  split at h
  · cases h
  · cases h
    intro c hc
    split at hc
    · rcases List.mem_cons.mp hc with rfl | hc
      · exact .inr rfl
      · exact .inl (mem_natDigits hc)
    · exact .inl (mem_natDigits hc)

theorem strInt_cases (py : Interpreter) (n : Int) :
    (∃ digits, strInt py n = .ok digits) ∨
      ∃ message, strInt py n = .error (ValueError.newErr message) := by
  unfold strInt
  simp only
  split
  · exact .inr ⟨_, rfl⟩
  · exact .inl ⟨_, rfl⟩

theorem formatHostHeader_ok (h : formatHostHeader py host port = .ok value) :
    checkHttpHost py host = .ok () ∧ ∃ digits, strInt py port = .ok digits ∧ value =
      (if startsBracket host && endsBracket host then
        bracket (replace [percent] encodedPercent
          (replace encodedPercent [percent] (insideBrackets host)))
      else if isIPv6 host then
        bracket (replace [percent] encodedPercent (replace encodedPercent [percent] host))
      else host) ++ colon :: digits := by
  unfold formatHostHeader at h
  rcases checkHttpHost_cases py host with hhost | ⟨message, hhost⟩
  · rcases strInt_cases py port with ⟨digits, hport⟩ | ⟨message, hport⟩
    · refine ⟨hhost, digits, hport, ?_⟩
      simp only [hhost, hport, Bind.bind, Except.bind, pure, Except.pure] at h
      split at h
      · next hbracket => simpa [hbracket] using (Except.ok.inj h).symm
      · next hbracket =>
        split at h
        · next hip => simpa [hbracket, hip] using (Except.ok.inj h).symm
        · next hip => simpa [hbracket, hip] using (Except.ok.inj h).symm
    · simp only [hhost, hport, Bind.bind, Except.bind, ite_self] at h
      cases h
  · simp only [hhost, Bind.bind, Except.bind] at h
    cases h

theorem formatHostHeader_error (h : formatHostHeader py host port = .error err) :
    err.type = "ValueError" := by
  unfold formatHostHeader at h
  rcases checkHttpHost_cases py host with hhost | ⟨message, hhost⟩
  · rcases strInt_cases py port with ⟨digits, hport⟩ | ⟨message, hport⟩
    · simp only [hhost, hport, Bind.bind, Except.bind, pure, Except.pure] at h
      repeat' split at h
      all_goals cases h
    · simp only [hhost, hport, Bind.bind, Except.bind, ite_self] at h
      cases h
      rfl
  · simp only [hhost, Bind.bind, Except.bind] at h
    cases h
    rfl

theorem isControl_of_isDigit {c : PyChar} (h : Python.isDigit c = true) : isControl c = false := by
  simp only [Python.isDigit, Bool.and_eq_true, decide_eq_true_eq] at h
  simp only [isControl, Bool.or_eq_false_iff, Bool.and_eq_false_iff, decide_eq_false_iff_not]
  omega

theorem encodedPercent_plain :
    ∀ c ∈ encodedPercent, isControl c = false ∧ Python.isSpace c = false :=
  List.forall_mem_cons.mpr ⟨by decide, List.forall_mem_cons.mpr ⟨by decide,
    List.forall_mem_cons.mpr ⟨by decide, nofun⟩⟩⟩

theorem bracket_noControl (h : ∀ c ∈ host, isControl c = false) :
    ∀ c ∈ bracket (replace [percent] encodedPercent (replace encodedPercent [percent] host)),
      isControl c = false := by
  intro c hc
  simp only [bracket, List.cons_append, List.mem_cons, List.mem_append, List.not_mem_nil,
    or_false] at hc
  rcases hc with rfl | hc | rfl
  · decide
  · rcases mem_replace hc with hc | hc
    · rcases mem_replace hc with hc | hc
      · exact h c hc
      · obtain rfl := List.mem_singleton.mp hc
        decide
    · exact (encodedPercent_plain c hc).1
  · decide

theorem mem_insideBrackets (h : c ∈ insideBrackets host) : c ∈ host :=
  List.mem_of_mem_tail ((List.dropLast_sublist _).subset h)

theorem formatHostHeader_noControl (h : formatHostHeader py host port = .ok value) :
    ∀ c ∈ value, isControl c = false := by
  obtain ⟨hhost, digits, hport, rfl⟩ := formatHostHeader_ok h
  have hclean : ∀ c ∈ host, isControl c = false := fun c hc => (checkHttpHost_ok hhost c hc).1
  intro c hc
  rw [List.mem_append, List.mem_cons] at hc
  rcases hc with hc | rfl | hc
  · split at hc
    · exact bracket_noControl (fun c hc => hclean c (mem_insideBrackets hc)) c hc
    · split at hc
      · exact bracket_noControl hclean c hc
      · exact hclean c hc
  · decide
  · rcases strInt_ok hport c hc with hdigit | rfl
    · exact isControl_of_isDigit hdigit
    · decide

-- ---------------------------------------------------------------------------
-- One request and no other
-- ---------------------------------------------------------------------------

theorem encodeLatin1_eq_some : encodeLatin1 text = some bytes ↔
    (∀ c ∈ text, c.val ≤ 0xFF) ∧ bytes = bytesOf text := by
  unfold encodeLatin1
  split
  · next hall =>
    simp only [List.all_eq_true, decide_eq_true_eq] at hall
    exact ⟨fun h => ⟨hall, (Option.some.inj h).symm⟩, fun h => congrArg some h.2.symm⟩
  · next hall =>
    simp only [List.all_eq_true, decide_eq_true_eq] at hall
    exact ⟨nofun, fun h => absurd h.1 hall⟩

theorem buildHttpRequest_cases (py : Interpreter) (host : PyStr) (port : Int) (path : PyStr) :
    (∃ err, buildHttpRequest py host port path = .error err ∧ err.type = "ValueError") ∨
      ∃ value bytes, checkHttpPath py path = .ok () ∧ formatHostHeader py host port = .ok value ∧
        encodeLatin1 (requestText path value) = some bytes ∧
        buildHttpRequest py host port path = .ok bytes := by
  unfold buildHttpRequest
  rcases checkHttpPath_cases py path with hpath | ⟨message, hpath⟩
  · cases hheader : formatHostHeader py host port with
    | error other =>
      simp only [hpath, Bind.bind, Except.bind]
      exact .inl ⟨other, rfl, formatHostHeader_error hheader⟩
    | ok value =>
      cases hencode : encodeLatin1 (requestText path value) with
      | none =>
        simp only [hpath, hencode, Bind.bind, Except.bind]
        exact .inl ⟨_, rfl, rfl⟩
      | some bytes =>
        refine .inr ⟨value, bytes, hpath, rfl, hencode, ?_⟩
        simp only [hpath, hencode, Bind.bind, Except.bind, pure, Except.pure]
  · simp only [hpath, Bind.bind, Except.bind]
    exact .inl ⟨_, rfl, rfl⟩

theorem bytesOf_append (first second : PyStr) :
    bytesOf (first ++ second) = bytesOf first ++ bytesOf second :=
  List.map_append

theorem clean_lit {text : String}
    (h : (lit text).all (fun c => c.val ≤ 0xFF && !isControl c) = true) :
    Clean (lit text) := by
  intro c hc
  simpa using List.all_eq_true.mp h c hc

theorem Clean.append (h : Clean first) (hmore : Clean second) : Clean (first ++ second) := by
  intro c hc
  rcases List.mem_append.mp hc with hc | hc
  · exact h c hc
  · exact hmore c hc

theorem splitCrLf_request (hline : Clean (requestLine path))
    (hfield : Clean (lit "Host: " ++ value))
    (hclose : Clean (lit "Connection: close")) :
    splitCrLf (bytesOf (requestText path value)) =
      [bytesOf (requestLine path), bytesOf (lit "Host: " ++ value),
        bytesOf (lit "Connection: close"),
        [], []] := by
  have hend (line : PyStr) (hclean : Clean line) (rest : PyStr) :
      splitCrLf (bytesOf (line ++ crLf ++ rest)) = bytesOf line :: splitCrLf (bytesOf rest) := by
    rw [bytesOf_append, bytesOf_append, List.append_assoc]
    exact splitCrLf_line hclean.noCr (bytesOf rest)
  have hlast : splitCrLf (bytesOf crLf) = [[], []] := by decide
  rw [requestText, hend _ hline, hend _ hfield, hend _ hclose, hlast]

theorem requestLine_fields (hpath : ∀ c ∈ path, c.val ≤ 0xFF ∧ Python.isSpace c = false) :
    (bytesOf (requestLine path)).splitOn 0x20 =
      [bytesOf (lit "GET"), bytesOf path, bytesOf (lit "HTTP/1.1")] := by
  have hspace : (0x20 : UInt8) ∉ bytesOf path := by
    intro hmem
    obtain ⟨c, hc, hbyte⟩ := List.mem_map.mp hmem
    have hval := congrArg UInt8.toNat hbyte
    rw [toNat_byteOf (hpath c hc).1] at hval
    obtain rfl : c = 0x20 := Fin.ext hval
    exact absurd (hpath _ hc).2 (by decide)
  have hget : lit "GET " = lit "GET" ++ [0x20] := by decide +kernel
  have hversion : lit " HTTP/1.1" = 0x20 :: lit "HTTP/1.1" := by decide +kernel
  have htext : bytesOf (requestLine path) =
      bytesOf (lit "GET") ++ 0x20 :: (bytesOf path ++ 0x20 :: bytesOf (lit "HTTP/1.1")) := by
    simp only [requestLine, hget, hversion, bytesOf_append, List.append_assoc]
    rfl
  rw [htext, List.splitOn_append_cons_self_of_not_mem (by decide),
    List.splitOn_append_cons_self_of_not_mem hspace, List.splitOn_eq_singleton (by decide)]

@[simp] theorem insideBrackets_bracket (literal : PyStr) :
    insideBrackets (bracket literal) = literal := by
  simp [insideBrackets, bracket]

@[simp] theorem startsBracket_bracket (literal : PyStr) :
    startsBracket (bracket literal) = true := by
  simp [startsBracket, bracket]

@[simp] theorem endsBracket_bracket (literal : PyStr) : endsBracket (bracket literal) = true :=
  decide_eq_true List.getLast?_concat

theorem bracket_insideBrackets (hstart : startsBracket host = true)
    (hend : endsBracket host = true) :
    bracket (insideBrackets host) = host := by
  simp only [startsBracket, endsBracket, decide_eq_true_eq] at hstart hend
  obtain ⟨host, rfl⟩ := List.head?_eq_some_iff.mp hstart
  cases host using List.reverseRecOn with
  | nil => exact absurd (Option.some.inj hend) (by decide)
  | append_singleton host last =>
    rw [← List.cons_append, List.getLast?_concat] at hend
    obtain rfl := Option.some.inj hend
    exact congrArg bracket (insideBrackets_bracket host)

theorem recode_eq_self (h : percent ∉ host) :
    replace [percent] encodedPercent (replace encodedPercent [percent] host) = host := by
  have hdecode : replace encodedPercent [percent] host = host := replace_eq_self h _ _
  rw [hdecode]
  exact replace_eq_self h _ _

/-- `value` is the part of the request's bytes for the header; the port is `digits`. -/
theorem buildHttpRequest_single (py : Interpreter) (host : PyStr) (port : Int) (path : PyStr) :
    (∃ err, buildHttpRequest py host port path = .error err ∧ err.type = "ValueError") ∨
      ∃ bytes target value digits, buildHttpRequest py host port path = .ok bytes ∧
        splitCrLf bytes = [bytesOf (lit "GET ") ++ target ++ bytesOf (lit " HTTP/1.1"),
          bytesOf (lit "Host: ") ++ value, bytesOf (lit "Connection: close"), [], []] ∧
        (∀ line ∈ splitCrLf bytes, ∀ byte ∈ line, isControlByte byte = false) ∧
        (bytesOf (lit "GET ") ++ target ++ bytesOf (lit " HTTP/1.1")).splitOn 0x20 =
          [bytesOf (lit "GET"), target, bytesOf (lit "HTTP/1.1")] ∧
        decodeLatin1 target = path ∧
        strInt py port = .ok digits ∧
        (isIPv6 host = false → (startsBracket host && endsBracket host) = false ∨ percent ∉ host →
          decodeLatin1 value = host ++ colon :: digits) := by
  rcases buildHttpRequest_cases py host port path with
    herror | ⟨value, bytes, hpath, hheader, hencode, hbuild⟩
  · exact .inl herror
  · right
    obtain ⟨hlatin, rfl⟩ := encodeLatin1_eq_some.mp hencode
    obtain ⟨_, digits, hport, hvalue⟩ := formatHostHeader_ok hheader
    simp only [requestText, requestLine, List.forall_mem_append] at hlatin
    obtain ⟨⟨⟨⟨_, hpathLatin⟩, _⟩, _⟩, ⟨⟨_, hvalueLatin⟩, _⟩, _⟩ := hlatin
    have hpathClean : ∀ c ∈ path, isControl c = false ∧ Python.isSpace c = false := by
      intro c hc
      have hforbidden := checkHttpPath_ok hpath c hc
      simpa [forbiddenInPath, hpathLatin c hc] using hforbidden
    have hline : Clean (requestLine path) := by
      refine ((clean_lit (by decide +kernel)).append ?_).append (clean_lit (by decide +kernel))
      exact fun c hc => ⟨hpathLatin c hc, (hpathClean c hc).1⟩
    have hfield : Clean (lit "Host: " ++ value) :=
      (clean_lit (by decide +kernel)).append fun c hc =>
        ⟨hvalueLatin c hc, formatHostHeader_noControl hheader c hc⟩
    have hclose : Clean (lit "Connection: close") := clean_lit (by decide +kernel)
    have hsplit := splitCrLf_request hline hfield hclose
    refine ⟨_, bytesOf path, bytesOf value, digits, hbuild, ?_, ?_, ?_, ?_, hport, ?_⟩
    · rw [hsplit, requestLine, bytesOf_append, bytesOf_append, bytesOf_append]
    · rw [hsplit]
      simp only [List.forall_mem_cons]
      exact ⟨hline.bytes, hfield.bytes, hclose.bytes, nofun, nofun, nofun⟩
    · rw [← bytesOf_append, ← bytesOf_append]
      exact requestLine_fields fun c hc => ⟨hpathLatin c hc, (hpathClean c hc).2⟩
    · exact decodeLatin1_bytesOf hpathLatin
    · intro hip hplain
      rw [decodeLatin1_bytesOf hvalueLatin, hvalue, hip]
      cases hbracket : startsBracket host && endsBracket host with
      | false => simp
      | true =>
        have hpercent : percent ∉ host := hplain.resolve_left (by simp [hbracket])
        rw [Bool.and_eq_true] at hbracket
        have hinner := recode_eq_self fun hmem => hpercent (mem_insideBrackets hmem)
        rw [if_pos rfl, hinner, bracket_insideBrackets hbracket.1 hbracket.2]

/-- CPython's limit on integer texts; the messages are left bare. -/
def cpython : Interpreter := ⟨fun _ => "", fun _ => "", 4300⟩

/-- What stands in brackets is written anew, an IPv6 literal or not. -/
theorem bracketed_host_changes :
    isIPv6 (lit "[a%b]") = false ∧
      (buildHttpRequest cpython (lit "[a%b]") 80 (lit "/")).map
        (fun bytes => (splitCrLf bytes)[1]?) =
        .ok (some (bytesOf (lit "Host: [a%25b]:80"))) ∧
      lit "[a%25b]:80" ≠ lit "[a%b]:80" :=
  ⟨by decide +kernel, rfl, by decide +kernel⟩

-- ---------------------------------------------------------------------------
-- IPv6 spellings
-- ---------------------------------------------------------------------------

/-- A scope id, by the characters that are to be kept out of it. -/
structure ScopeId (scope : PyStr) : Prop where
  ne_nil : scope ≠ []
  noPercent : percent ∉ scope
  noBracket : openBracket ∉ scope ∧ closeBracket ∉ scope
  noSpace : ∀ c ∈ scope, Python.isSpace c = false

def headerOf (py : Interpreter) (literal : PyStr) (port : Int) : PyResult PyStr :=
  (strInt py port).map fun digits => bracket literal ++ colon :: digits

theorem encodedPercent_eq : encodedPercent = percent :: lit "25" := by decide +kernel

section Spellings

variable {py : Interpreter} {address scope : PyStr} {port : Int}

theorem decode_encoded (ha : percent ∉ address) (hs : percent ∉ scope) :
    replace encodedPercent [percent] (address ++ encodedPercent ++ scope) =
      address ++ percent :: scope := by
  rw [encodedPercent_eq, List.append_assoc, replace_append ha, replace_occurrence,
    replace_eq_self hs]
  rfl

theorem decode_raw (ha : percent ∉ address) (hs : percent ∉ scope) (h25 : ¬ lit "25" <+: scope) :
    replace encodedPercent [percent] (address ++ percent :: scope) =
      address ++ percent :: scope := by
  rw [encodedPercent_eq, replace_append ha, replace_cons_self h25, replace_eq_self hs]

theorem encode_raw (ha : percent ∉ address) (hs : percent ∉ scope) :
    replace [percent] encodedPercent (address ++ percent :: scope) =
      address ++ encodedPercent ++ scope := by
  have hone : percent :: scope = [percent] ++ scope := rfl
  rw [replace_append ha, hone, replace_occurrence, replace_eq_self hs, List.append_assoc]

theorem checkHttpHost_eq_ok (h : ∀ c ∈ host, isControl c = false ∧ Python.isSpace c = false) :
    checkHttpHost py host = .ok () := by
  have hfind : host.find? (fun c => isControl c || Python.isSpace c) = none := by simpa using h
  simp [checkHttpHost, hfind]

theorem isAddressChar_plain {c : PyChar} (h : isAddressChar c = true) :
    isControl c = false ∧ Python.isSpace c = false ∧ c ≠ openBracket ∧ c ≠ closeBracket := by
  have hval : 0x2E ≤ c.val ∧ c.val ≤ 0x5A ∨ 0x61 ≤ c.val ∧ c.val ≤ 0x66 := by
    have hcolon : colon.val = 0x3A := rfl
    have hdot : dot.val = 0x2E := rfl
    simp only [isAddressChar, isHexDigit, Python.isDigit, Bool.or_eq_true, Bool.and_eq_true,
      decide_eq_true_eq, Fin.ext_iff, hcolon, hdot] at h
    omega
  have hopen : openBracket.val = 0x5B := rfl
  have hclose : closeBracket.val = 0x5D := rfl
  simp only [isControl, Python.isSpace, Bool.or_eq_false_iff, Bool.and_eq_false_iff,
    decide_eq_false_iff_not, beq_eq_false_iff_ne, ne_eq, Fin.ext_iff, hopen, hclose]
  omega

theorem address_clean (ha : IsAddress address) :
    ∀ c ∈ address, isControl c = false ∧ Python.isSpace c = false := by
  intro c hc
  have hplain := isAddressChar_plain (ha.chars c hc)
  exact ⟨hplain.1, hplain.2.1⟩

theorem address_noBracket (ha : IsAddress address) :
    openBracket ∉ address ∧ closeBracket ∉ address :=
  ⟨fun hmem => (isAddressChar_plain (ha.chars _ hmem)).2.2.1 rfl,
    fun hmem => (isAddressChar_plain (ha.chars _ hmem)).2.2.2 rfl⟩

theorem startsBracket_address (ha : IsAddress address) (rest : PyStr) :
    startsBracket (address ++ rest) = false := by
  obtain ⟨c, address', rfl⟩ := List.exists_cons_of_ne_nil (List.ne_nil_of_mem ha.colon_mem)
  have hc : openBracket ≠ c := fun heq => (address_noBracket ha).1 (heq ▸ List.mem_cons_self ..)
  simpa [startsBracket] using hc.symm

theorem endsBracket_of_not_mem (h : closeBracket ∉ host) : endsBracket host = false :=
  decide_eq_false fun hlast => h (List.mem_of_getLast? hlast)

theorem formatHostHeader_bracket
    (h : ∀ c ∈ literal, isControl c = false ∧ Python.isSpace c = false) :
    formatHostHeader py (bracket literal) port =
      headerOf py (replace [percent] encodedPercent
        (replace encodedPercent [percent] literal)) port := by
  have hclean : ∀ c ∈ bracket literal, isControl c = false ∧ Python.isSpace c = false := by
    intro c hc
    simp only [bracket, List.cons_append, List.mem_cons, List.mem_append, List.not_mem_nil,
      or_false] at hc
    rcases hc with rfl | hc | rfl
    · decide
    · exact h c hc
    · decide
  rw [formatHostHeader, checkHttpHost_eq_ok hclean, headerOf]
  simp only [startsBracket_bracket, endsBracket_bracket, Bool.and_self, if_true,
    insideBrackets_bracket]
  cases strInt py port <;> rfl

theorem formatHostHeader_ipv6 (h : ∀ c ∈ host, isControl c = false ∧ Python.isSpace c = false)
    (hstart : startsBracket host = false) (hip : isIPv6 host = true) :
    formatHostHeader py host port =
      headerOf py (replace [percent] encodedPercent
        (replace encodedPercent [percent] host)) port := by
  rw [formatHostHeader, checkHttpHost_eq_ok h, headerOf]
  simp only [hstart, hip, Bool.false_and, Bool.false_eq_true, if_false, if_true]
  cases strInt py port <;> rfl

theorem httpConnectionHost_bracket (literal : PyStr) :
    httpConnectionHost (bracket literal) = .ok (replace encodedPercent [percent] literal) := by
  simp [httpConnectionHost]

theorem httpConnectionHost_colon (hstart : startsBracket host = false)
    (hend : endsBracket host = false)
    (hcolon : colon ∈ host) :
    httpConnectionHost host = .ok (replace encodedPercent [percent] host) := by
  simp [httpConnectionHost, hstart, hend, hcolon]

theorem plain_spellings (ha : IsAddress address) :
    httpConnectionHost address = .ok address ∧ httpConnectionHost (bracket address) = .ok address ∧
      formatHostHeader py address port = headerOf py address port ∧
      formatHostHeader py (bracket address) port = headerOf py address port := by
  have hclean := address_clean ha
  have hstart : startsBracket address = false := by simpa using startsBracket_address ha []
  have hend := endsBracket_of_not_mem (address_noBracket ha).2
  have hdecode : replace encodedPercent [percent] address = address := by
    rw [encodedPercent_eq]
    exact replace_eq_self ha.2 _ _
  refine ⟨?_, ?_, ?_, ?_⟩
  · rw [httpConnectionHost_colon hstart hend ha.colon_mem, hdecode]
  · rw [httpConnectionHost_bracket, hdecode]
  · rw [formatHostHeader_ipv6 hclean hstart ha.1, recode_eq_self ha.2]
  · rw [formatHostHeader_bracket hclean, recode_eq_self ha.2]

/-- With a scope: in brackets always, raw where it neither has a slash nor looks like the
rest of an encoded separator. -/
theorem scoped_spellings (ha : IsAddress address) (hs : ScopeId scope)
    (hcontrol : ∀ c ∈ scope, isControl c = false) (py : Interpreter) (port : Int) :
    (httpConnectionHost (bracket (address ++ encodedPercent ++ scope)) =
        .ok (address ++ percent :: scope) ∧
      formatHostHeader py (bracket (address ++ encodedPercent ++ scope)) port =
        headerOf py (address ++ encodedPercent ++ scope) port) ∧
    (¬ lit "25" <+: scope → slash ∉ scope →
      httpConnectionHost (address ++ percent :: scope) = .ok (address ++ percent :: scope) ∧
      formatHostHeader py (address ++ percent :: scope) port =
        headerOf py (address ++ encodedPercent ++ scope) port) ∧
    httpConnectionHost address = .ok address ∧ httpConnectionHost (bracket address) = .ok address ∧
      formatHostHeader py address port = headerOf py address port ∧
      formatHostHeader py (bracket address) port = headerOf py address port := by
  have hclean :
      ∀ c ∈ address ++ encodedPercent ++ scope, isControl c = false ∧ Python.isSpace c = false := by
    intro c hc
    simp only [List.mem_append] at hc
    rcases hc with (hc | hc) | hc
    · exact address_clean ha c hc
    · exact encodedPercent_plain c hc
    · exact ⟨hcontrol c hc, hs.noSpace c hc⟩
  refine ⟨⟨?_, ?_⟩, ?_, plain_spellings ha⟩
  · rw [httpConnectionHost_bracket, decode_encoded ha.2 hs.noPercent]
  · rw [formatHostHeader_bracket hclean, decode_encoded ha.2 hs.noPercent,
      encode_raw ha.2 hs.noPercent]
  · intro h25 hslash
    have hraw :
        ∀ c ∈ address ++ percent :: scope, isControl c = false ∧ Python.isSpace c = false := by
      intro c hc
      rcases List.mem_append.mp hc with hc | hc
      · exact address_clean ha c hc
      · rcases List.mem_cons.mp hc with rfl | hc
        · decide
        · exact ⟨hcontrol c hc, hs.noSpace c hc⟩
    have hstart := startsBracket_address ha (percent :: scope)
    have hend : endsBracket (address ++ percent :: scope) = false := by
      refine endsBracket_of_not_mem fun hmem => ?_
      rcases List.mem_append.mp hmem with hmem | hmem
      · exact (address_noBracket ha).2 hmem
      · rcases List.mem_cons.mp hmem with heq | hmem
        · exact absurd heq (by decide)
        · exact hs.noBracket.2 hmem
    have hip : isIPv6 (address ++ percent :: scope) = true := by
      rw [ha.isIPv6_scope hs.ne_nil hs.noPercent]
      simpa using hslash
    refine ⟨?_, ?_⟩
    · rw [httpConnectionHost_colon hstart hend (List.mem_append_left _ ha.colon_mem),
        decode_raw ha.2 hs.noPercent h25]
    · rw [formatHostHeader_ipv6 hraw hstart hip, decode_raw ha.2 hs.noPercent h25,
        encode_raw ha.2 hs.noPercent]

end Spellings

theorem linkLocal_isAddress : IsAddress (lit "fe80::1") := ⟨by decide +kernel, by decide +kernel⟩

theorem scopeId_of_check {scope : PyStr} (hne : scope ≠ []) (h : (scope.all fun c =>
    c ≠ percent && c ≠ openBracket && c ≠ closeBracket && !Python.isSpace c) = true) :
    ScopeId scope := by
  simp only [List.all_eq_true, Bool.and_eq_true, decide_eq_true_eq, Bool.not_eq_true'] at h
  exact ⟨hne, fun hmem => (h _ hmem).1.1.1 rfl,
    ⟨fun hmem => (h _ hmem).1.1.2 rfl, fun hmem => (h _ hmem).1.2 rfl⟩, fun c hc => (h c hc).2⟩

theorem scoped_spellings_eth0 :
    httpConnectionHost (lit "[fe80::1%25eth0]") = .ok (lit "fe80::1%eth0") ∧
      formatHostHeader cpython (lit "fe80::1%eth0") 8080 = .ok (lit "[fe80::1%25eth0]:8080") := by
  have hscope : ScopeId (lit "eth0") := scopeId_of_check (by decide +kernel) (by decide +kernel)
  have hcontrol : ∀ c ∈ lit "eth0", isControl c = false := by
    simpa using show (lit "eth0").all (fun c => !isControl c) = true by decide +kernel
  have hall := scoped_spellings linkLocal_isAddress hscope hcontrol cpython 8080
  exact ⟨hall.1.1, (hall.2.1 (by decide +kernel) (by decide +kernel)).2⟩

/-- The scope `25` is read as an encoded separator's end, one with a slash is no scope to
`ipaddress`, and one with a NUL is refused. -/
theorem raw_spelling_fails :
    IsAddress (lit "fe80::1") ∧
      (ScopeId (lit "25") ∧ httpConnectionHost (lit "fe80::1%25") = .ok (lit "fe80::1%")) ∧
      (ScopeId (lit "a/b") ∧
        formatHostHeader cpython (lit "fe80::1%a/b") 80 = .ok (lit "fe80::1%a/b:80")) ∧
      ScopeId [0] ∧ ∃ err, formatHostHeader cpython (lit "fe80::1%" ++ [0]) 80 = .error err :=
  ⟨linkLocal_isAddress,
    ⟨scopeId_of_check (by decide +kernel) (by decide +kernel), rfl⟩,
    ⟨scopeId_of_check (by decide +kernel) (by decide +kernel), rfl⟩,
    scopeId_of_check (by decide) (by decide +kernel), _, rfl⟩

end ProcessKit.Aio

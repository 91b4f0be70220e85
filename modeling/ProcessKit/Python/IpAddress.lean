import ProcessKit.Python.Str

/-!
# `ipaddress`

Which texts are the literals of an IPv6 address. `ipv6FromString` follows the module's
`_ip_int_from_string` from check to check; the value of the address is left out.
-/

namespace Python

def isDigit (c : PyChar) : Bool := 0x30 ≤ c.val && c.val ≤ 0x39

def isHexDigit (c : PyChar) : Bool :=
  isDigit c || 0x41 ≤ c.val && c.val ≤ 0x46 || 0x61 ≤ c.val && c.val ≤ 0x66

def colon : PyChar := ofChar ':'
def dot : PyChar := ofChar '.'
def slash : PyChar := ofChar '/'
def percent : PyChar := ofChar '%'

def decimalValue (text : PyStr) : Nat := text.foldl (fun value c => 10 * value + (c.val - 0x30)) 0

def isOctet (octet : PyStr) : Bool :=
  octet ≠ [] && octet.all isDigit && octet.length ≤ 3 &&
    (octet = [ofChar '0'] || octet.head? ≠ some (ofChar '0')) && decimalValue octet ≤ 255

def isIPv4 (text : PyStr) : Bool := (text.splitOn dot).length = 4 && (text.splitOn dot).all isOctet

def isHextet (part : PyStr) : Bool := part ≠ [] && part.all isHexDigit && part.length ≤ 4

/-- Where `::` leaves an empty part between two others. -/
def skipIndices (parts : List PyStr) : List Nat :=
  (List.range (parts.length - 1)).filter fun i => 1 ≤ i && parts[i]? = some []

/-- The parts before `::`; an empty one is the text's own start, and stands alone. -/
def highParts : List PyStr → Option (List PyStr)
  | [] :: rest => if rest = [] then some [] else none
  | parts => some parts

/-- The parts after `::`, likewise. -/
def lowParts (parts : List PyStr) : Option (List PyStr) :=
  if parts.getLast? = some [] then if parts.length = 1 then some [] else none else some parts

def checkParts (parts : List PyStr) : Bool :=
  parts.length ≤ 9 &&
    match skipIndices parts with
    | [] => parts.length = 8 && parts.all isHextet
    | [skip] =>
      match highParts (parts.take skip), lowParts (parts.drop (skip + 1)) with
      | some high, some low => high.length + low.length ≤ 7 && high.all isHextet && low.all isHextet
      | _, _ => false
    | _ => false

/-- A dotted quad at the end counts as two hextets. -/
def ipv6FromString (text : PyStr) : Bool :=
  let parts := text.splitOn colon
  let last := parts.getLast?.getD []
  3 ≤ parts.length &&
    if dot ∈ last then
      isIPv4 last && checkParts (parts.dropLast ++ [[ofChar '0'], [ofChar '0']])
    else checkParts parts

/-- `_split_scope_id`: the address before a scope that is neither empty nor has a `%`. -/
def splitScopeId (text : PyStr) : Option PyStr :=
  if percent ∉ text then some text
  else
    let (address, scope) := partition percent text
    if scope = [] ∨ percent ∈ scope then none else some address

/-- `ipaddress.ip_address(text).version == 6`; a text that is refused has no version. No
IPv4 address has a colon. -/
def isIPv6 (text : PyStr) : Bool :=
  !text.contains slash &&
    match splitScopeId text with
    | some address => ipv6FromString address
    | none => false

-- ---------------------------------------------------------------------------
-- The characters of an address
-- ---------------------------------------------------------------------------

/-- What an address without a scope is written with. -/
def isAddressChar (c : PyChar) : Bool := isHexDigit c || c = colon || c = dot

theorem isHexDigit_of_isDigit {c : PyChar} (h : isDigit c = true) : isHexDigit c = true := by
  simp [isHexDigit, h]

theorem isOctet_chars (h : isOctet octet = true) : ∀ c ∈ octet, isDigit c = true := by
  simp only [isOctet, Bool.and_eq_true, List.all_eq_true] at h
  exact h.1.1.1.2

theorem mem_splitOn {text : PyStr} (sep : PyChar) (h : c ∈ text) :
    c = sep ∨ ∃ part ∈ text.splitOn sep, c ∈ part := by
  induction text with
  | nil => cases h
  | cons first text ih =>
    rw [List.splitOn_cons_eq_if_modifyHead]
    obtain ⟨part, parts, hparts⟩ := List.exists_cons_of_ne_nil (List.splitOn_ne_nil sep text)
    rw [hparts] at ih ⊢
    by_cases hsep : first = sep
    · rcases List.mem_cons.mp h with rfl | h
      · exact .inl hsep
      · refine (ih h).imp_right ?_
        rintro ⟨found, hfound, hc⟩
        exact ⟨found, by simp [hsep, hfound], hc⟩
    · simp only [beq_iff_eq, hsep, if_false, List.modifyHead_cons]
      rcases List.mem_cons.mp h with rfl | h
      · exact .inr ⟨c :: part, by simp, by simp⟩
      · refine (ih h).imp_right ?_
        rintro ⟨found, hfound, hc⟩
        rcases List.mem_cons.mp hfound with rfl | hfound
        · exact ⟨first :: found, by simp, by simp [hc]⟩
        · exact ⟨found, by simp [hfound], hc⟩

theorem isIPv4_chars (h : isIPv4 text = true) : ∀ c ∈ text, isAddressChar c = true := by
  simp only [isIPv4, Bool.and_eq_true, List.all_eq_true] at h
  intro c hc
  rcases mem_splitOn dot hc with rfl | ⟨octet, hoctet, hc⟩
  · decide
  · have hdigit := isOctet_chars (h.2 octet hoctet) c hc
    simp [isAddressChar, isHexDigit_of_isDigit hdigit]

theorem isHextet_chars (h : isHextet part = true) : ∀ c ∈ part, isHexDigit c = true := by
  simp only [isHextet, Bool.and_eq_true, List.all_eq_true] at h
  exact h.1.2

theorem mem_highParts (h : highParts parts = some high) (hpart : part ∈ parts) :
    part = [] ∨ part ∈ high := by
  unfold highParts at h
  split at h
  · next rest =>
    split at h
    · next hrest =>
      subst hrest
      exact .inl (List.mem_singleton.mp hpart)
    · cases h
  · exact .inr (Option.some.inj h ▸ hpart)

theorem mem_lowParts (h : lowParts parts = some low) (hpart : part ∈ parts) :
    part = [] ∨ part ∈ low := by
  unfold lowParts at h
  split at h
  · next hlast =>
    split at h
    · next hlength =>
      obtain ⟨only, rfl⟩ := List.length_eq_one_iff.mp hlength
      obtain rfl : only = [] := Option.some.inj hlast
      exact .inl (List.mem_singleton.mp hpart)
    · cases h
  · exact .inr (Option.some.inj h ▸ hpart)

theorem checkParts_chars (h : checkParts parts = true) (hpart : part ∈ parts) :
    ∀ c ∈ part, isHexDigit c = true := by
  simp only [checkParts, Bool.and_eq_true] at h
  obtain ⟨_, h⟩ := h
  split at h
  · simp only [Bool.and_eq_true, List.all_eq_true] at h
    exact isHextet_chars (h.2 part hpart)
  · next skip hskip =>
    have hempty : parts[skip]? = some [] := by
      have hmem : skip ∈ skipIndices parts := by simp [hskip]
      simp only [skipIndices, List.mem_filter, Bool.and_eq_true, decide_eq_true_eq] at hmem
      exact hmem.2.2
    split at h
    · next high low hhigh hlow =>
      simp only [Bool.and_eq_true, List.all_eq_true] at h
      have hsides : part = [] ∨ part ∈ high ∨ part ∈ low := by
        rw [← List.take_append_drop skip parts, List.mem_append] at hpart
        rcases hpart with hpart | hpart
        · exact (mem_highParts hhigh hpart).imp_right .inl
        · rw [List.drop_eq_getElem?_toList_append, hempty] at hpart
          rcases List.mem_append.mp hpart with hpart | hpart
          · exact .inl (List.mem_singleton.mp hpart)
          · exact (mem_lowParts hlow hpart).imp_right .inr
      rcases hsides with rfl | hpart | hpart
      · nofun
      · exact isHextet_chars (h.1.2 part hpart)
      · exact isHextet_chars (h.2 part hpart)
    · cases h
  · cases h

theorem ipv6FromString_chars (h : ipv6FromString text = true) :
    ∀ c ∈ text, isAddressChar c = true := by
  simp only [ipv6FromString, Bool.and_eq_true] at h
  obtain ⟨_, h⟩ := h
  have hhex {c : PyChar} (hc : isHexDigit c = true) : isAddressChar c = true := by
    simp [isAddressChar, hc]
  intro c hc
  rcases mem_splitOn colon hc with rfl | ⟨part, hpart, hc⟩
  · decide
  split at h
  · rw [Bool.and_eq_true] at h
    have hne := List.splitOn_ne_nil colon text
    rw [← List.dropLast_concat_getLast hne] at hpart
    rcases List.mem_append.mp hpart with hpart | hpart
    · exact hhex (checkParts_chars h.2 (List.mem_append_left _ hpart) c hc)
    · rw [List.mem_singleton] at hpart
      rw [List.getLast?_eq_some_getLast hne, Option.getD_some, ← hpart] at h
      exact isIPv4_chars h.1 c hc
  · exact hhex (checkParts_chars h hpart c hc)

theorem colon_mem (h : ipv6FromString text = true) : colon ∈ text := by
  by_contra hnone
  simp [ipv6FromString, List.splitOn_eq_singleton hnone] at h

def IsAddress (text : PyStr) : Prop := isIPv6 text = true ∧ percent ∉ text

theorem IsAddress.fromString (h : IsAddress text) : ipv6FromString text = true := by
  have hip := h.1
  simp only [isIPv6, splitScopeId, h.2, not_false_eq_true, if_true, Bool.and_eq_true] at hip
  exact hip.2

theorem IsAddress.chars (h : IsAddress text) : ∀ c ∈ text, isAddressChar c = true :=
  ipv6FromString_chars h.fromString

theorem IsAddress.colon_mem (h : IsAddress text) : colon ∈ text := Python.colon_mem h.fromString

theorem IsAddress.isIPv6_scope {scope : PyStr} (h : IsAddress text) (hne : scope ≠ [])
    (hscope : percent ∉ scope) : isIPv6 (text ++ percent :: scope) = !scope.contains slash := by
  have hslash : slash ∉ text := fun hmem => absurd (h.chars slash hmem) (by decide)
  have hpercent : slash ≠ percent := by decide
  have hsplit : splitScopeId (text ++ percent :: scope) = some text := by
    simp [splitScopeId, partition_append h.2, hne, hscope]
  simp [isIPv6, hsplit, h.fromString, hslash, hpercent]

end Python

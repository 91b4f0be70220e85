import Mathlib.Data.List.DropRight

/-!
# Python's `str`

A string is a list of code points, lone surrogates among them. `isspace` and the line
boundaries of `splitlines` are Python's tables: every boundary is white space, and the
unit separator U+001F is white space that bounds no line.
-/

namespace Python

abbrev PyChar := Fin 0x110000

abbrev PyStr := List PyChar

instance (c : PyChar) (text : PyStr) : Decidable (c ∈ text) :=
  List.instDecidableMemOfLawfulBEq c text

def ofChar (c : Char) : PyChar := ⟨c.toNat, by
  rcases c.valid with h | ⟨_, h⟩
  · exact Nat.lt_trans h (by decide)
  · exact h⟩

def lit (text : String) : PyStr := text.toList.map ofChar

/-- The line boundaries of `str.splitlines`. -/
def isLineBreak (c : PyChar) : Bool :=
  0x0A ≤ c.val && c.val ≤ 0x0D || 0x1C ≤ c.val && c.val ≤ 0x1E || c.val == 0x85 ||
    c.val == 0x2028 || c.val == 0x2029

/-- `str.isspace`, of one character. -/
def isSpace (c : PyChar) : Bool :=
  0x09 ≤ c.val && c.val ≤ 0x0D || 0x1C ≤ c.val && c.val ≤ 0x20 || c.val == 0x85 ||
    c.val == 0xA0 || c.val == 0x1680 || 0x2000 ≤ c.val && c.val ≤ 0x200A ||
    c.val == 0x2028 || c.val == 0x2029 || c.val == 0x202F || c.val == 0x205F || c.val == 0x3000

theorem isSpace_of_isLineBreak {c : PyChar} (h : isLineBreak c = true) : isSpace c = true := by
  simp only [isLineBreak, isSpace, Bool.or_eq_true, Bool.and_eq_true, decide_eq_true_eq,
    beq_iff_eq] at h ⊢
  omega

def lineFeed : PyChar := 0x0A
def carriageReturn : PyChar := 0x0D

-- ---------------------------------------------------------------------------
-- strip
-- ---------------------------------------------------------------------------

def lstrip (text : PyStr) : PyStr := text.dropWhile isSpace
def rstrip (text : PyStr) : PyStr := text.rdropWhile isSpace
def strip (text : PyStr) : PyStr := lstrip (rstrip text)

def Stripped (text : PyStr) : Prop :=
  text.head?.any isSpace = false ∧ text.getLast?.any isSpace = false

instance (text : PyStr) : Decidable (Stripped text) := inferInstanceAs (Decidable (_ ∧ _))

theorem lstrip_eq_self (h : text.head?.any isSpace = false) : lstrip text = text := by
  cases text with
  | nil => rfl
  | cons c text =>
    have hc : isSpace c = false := h
    exact List.dropWhile_cons_of_neg (by simp [hc])

theorem rstrip_eq_self (h : text.getLast?.any isSpace = false) : rstrip text = text := by
  rw [rstrip, List.rdropWhile_eq_self_iff]
  intro hne
  rw [List.getLast?_eq_some_getLast hne] at h
  simpa using h

theorem strip_eq_self (h : Stripped text) : strip text = text := by
  rw [strip, rstrip_eq_self h.2, lstrip_eq_self h.1]

theorem lstrip_subset (text : PyStr) : lstrip text ⊆ text := (List.dropWhile_suffix _).subset

theorem strip_subset (text : PyStr) : strip text ⊆ text := fun _ hc =>
  (List.rdropWhile_prefix _ _).subset (lstrip_subset _ hc)

theorem head?_lstrip (text : PyStr) : (lstrip text).head?.any isSpace = false := by
  induction text with
  | nil => rfl
  | cons c text ih =>
    cases hc : isSpace c with
    | true => rwa [lstrip, List.dropWhile_cons_of_pos hc]
    | false =>
      rw [lstrip, List.dropWhile_cons_of_neg (by simp [hc])]
      exact hc

theorem stripped_strip (text : PyStr) : Stripped (strip text) := by
  refine ⟨head?_lstrip _, ?_⟩
  cases hlast : (strip text).getLast? with
  | none => rfl
  | some c =>
    have hsuffix : strip text <:+ rstrip text := List.dropWhile_suffix _
    obtain ⟨front, hfront⟩ := hsuffix
    have hright : (rstrip text).getLast? = some c := by
      rw [← hfront, List.getLast?_append, hlast]
      rfl
    have hne : rstrip text ≠ [] := by
      intro hnil
      rw [hnil] at hright
      cases hright
    rw [List.getLast?_eq_some_getLast hne] at hright
    have hkept := List.rdropWhile_last_not isSpace text hne
    rw [← Option.some.inj hright]
    exact Bool.not_eq_true _ ▸ hkept

theorem rstrip_append_blank (text : PyStr) (h : ∀ c ∈ blank, isSpace c = true) :
    rstrip (text ++ blank) = rstrip text := by
  have hblank : ∀ c ∈ blank.reverse, isSpace c = true := fun c hc => h c (List.mem_reverse.mp hc)
  rw [rstrip, List.rdropWhile, List.reverse_append, List.dropWhile_append_of_pos hblank]
  rfl

theorem strip_append_blank (text : PyStr) (h : ∀ c ∈ blank, isSpace c = true) :
    strip (text ++ blank) = strip text := by
  rw [strip, rstrip_append_blank text h, strip]

theorem rstrip_append_cons (before : PyStr) (h : isSpace c = false) (after : PyStr) :
    rstrip (before ++ c :: after) = before ++ c :: rstrip after := by
  have hstop : (c :: before.reverse).dropWhile isSpace = c :: before.reverse :=
    List.dropWhile_cons_of_neg (by simp [h])
  simp only [rstrip, List.rdropWhile, List.reverse_append, List.reverse_cons, List.append_assoc,
    List.singleton_append, List.dropWhile_append, hstop]
  split
  · next hnil => simp [List.isEmpty_iff.mp hnil]
  · simp

theorem strip_cons (h : isSpace c = false) (text : PyStr) :
    strip (c :: text) = c :: rstrip text := by
  have hright : rstrip (c :: text) = c :: rstrip text := rstrip_append_cons [] h text
  rw [strip, hright]
  exact List.dropWhile_cons_of_neg (by simp [h])

-- ---------------------------------------------------------------------------
-- partition
-- ---------------------------------------------------------------------------

/-- `str.partition` at a character that occurs: what stands before and after it. -/
def partition (sep : PyChar) (text : PyStr) : PyStr × PyStr :=
  (text.takeWhile (· ≠ sep), (text.dropWhile (· ≠ sep)).tail)

theorem partition_append (h : sep ∉ before) (after : PyStr) :
    partition sep (before ++ sep :: after) = (before, after) := by
  have hkeep : ∀ c ∈ before, decide (c ≠ sep) = true := by
    intro c hc
    exact decide_eq_true fun he => h (he ▸ hc)
  rw [partition, List.takeWhile_append_of_pos hkeep, List.dropWhile_append_of_pos hkeep]
  simp

-- ---------------------------------------------------------------------------
-- replace
-- ---------------------------------------------------------------------------

/-- `skip` is how much of an occurrence is still to be passed over. -/
def replaceFrom (old new : PyStr) (skip : Nat) : PyStr → PyStr
  | [] => []
  | c :: text =>
    match skip with
    | skip + 1 => replaceFrom old new skip text
    | 0 =>
      if old <+: c :: text then new ++ replaceFrom old new (old.length - 1) text
      else c :: replaceFrom old new 0 text

/-- `str.replace(old, new)`, from the left, where `old` is not empty. -/
def replace (old new text : PyStr) : PyStr := replaceFrom old new 0 text

theorem mem_replaceFrom (old new : PyStr) (skip : Nat) (h : c ∈ replaceFrom old new skip text) :
    c ∈ text ∨ c ∈ new := by
  induction text generalizing skip with
  | nil => cases h
  | cons first text ih =>
    cases skip with
    | succ skip => exact (ih skip h).imp_left (List.mem_cons_of_mem _)
    | zero =>
      rw [replaceFrom] at h
      split at h
      · rcases List.mem_append.mp h with h | h
        · exact .inr h
        · exact (ih _ h).imp_left (List.mem_cons_of_mem _)
      · rcases List.mem_cons.mp h with rfl | h
        · exact .inl (List.mem_cons_self ..)
        · exact (ih 0 h).imp_left (List.mem_cons_of_mem _)

theorem mem_replace (h : c ∈ replace old new text) : c ∈ text ∨ c ∈ new :=
  mem_replaceFrom old new 0 h

theorem replaceFrom_skip (old new : PyStr) (passed text : PyStr) :
    replaceFrom old new passed.length (passed ++ text) = replace old new text := by
  induction passed with
  | nil => rfl
  | cons c passed ih => exact ih

theorem replace_cons_ne (h : c ≠ first) (old new text : PyStr) :
    replace (first :: old) new (c :: text) = c :: replace (first :: old) new text := by
  have hprefix : ¬ first :: old <+: c :: text := fun hp => h (List.cons_prefix_cons.mp hp).1.symm
  simp [replace, replaceFrom, hprefix]

theorem replace_append (h : first ∉ before) (old new text : PyStr) :
    replace (first :: old) new (before ++ text) = before ++ replace (first :: old) new text := by
  induction before with
  | nil => rfl
  | cons c before ih =>
    rw [List.mem_cons, not_or] at h
    rw [List.cons_append, replace_cons_ne (Ne.symm h.1), ih h.2, List.cons_append]

theorem replace_eq_self (h : first ∉ text) (old new : PyStr) :
    replace (first :: old) new text = text := by
  have hall := replace_append h old new []
  rwa [List.append_nil, show replace (first :: old) new [] = [] from rfl, List.append_nil] at hall

theorem replace_occurrence (first : PyChar) (old new text : PyStr) :
    replace (first :: old) new (first :: old ++ text) = new ++ replace (first :: old) new text := by
  have hprefix : first :: old <+: first :: (old ++ text) := List.prefix_append (first :: old) text
  have hpass := replaceFrom_skip (first :: old) new old text
  simp only [replace, List.cons_append, replaceFrom, if_pos hprefix, List.length_cons,
    Nat.add_sub_cancel]
  rw [hpass]
  rfl

theorem replace_cons_self (h : ¬ old <+: text) (first : PyChar) (new : PyStr) :
    replace (first :: old) new (first :: text) = first :: replace (first :: old) new text := by
  have hprefix : ¬ first :: old <+: first :: text := fun hp => h (List.cons_prefix_cons.mp hp).2
  simp [replace, replaceFrom, hprefix]

-- ---------------------------------------------------------------------------
-- splitlines
-- ---------------------------------------------------------------------------

/-- CR LF is one boundary. -/
def collapseCrLf : PyStr → PyStr
  | [] => []
  | c :: text =>
    if c = carriageReturn ∧ text.head? = some lineFeed then collapseCrLf text
    else c :: collapseCrLf text

theorem collapseCrLf_eq_self (h : carriageReturn ∉ text) : collapseCrLf text = text := by
  induction text with
  | nil => rfl
  | cons c text ih =>
    rw [List.mem_cons, not_or] at h
    rw [collapseCrLf, if_neg fun hcr => h.1 hcr.1.symm, ih h.2]

/-- What stands between the boundaries; the text after the last one is a piece too. -/
def pieces (text : PyStr) : List PyStr := (collapseCrLf text).splitOnP isLineBreak

/-- `str.splitlines()`: no line follows a boundary that ends the text. -/
def splitlines (text : PyStr) : List PyStr :=
  if (pieces text).getLast? = some [] then (pieces text).dropLast else pieces text

theorem pieces_line (h : carriageReturn ∉ line) (hrest : carriageReturn ∉ rest) :
    pieces (line ++ lineFeed :: rest) = pieces line ++ pieces rest := by
  have hne : carriageReturn ≠ lineFeed := by decide
  have htext : carriageReturn ∉ line ++ lineFeed :: rest := by simp [h, hrest, hne]
  rw [pieces, pieces, pieces, collapseCrLf_eq_self htext, collapseCrLf_eq_self h,
    collapseCrLf_eq_self hrest, List.splitOnP_append_cons line rest (by decide)]

theorem pieces_eq_singleton (h : ∀ c ∈ line, isLineBreak c = false) : pieces line = [line] := by
  have hcr : carriageReturn ∉ line := fun hmem => absurd (h _ hmem) (by decide)
  rw [pieces, collapseCrLf_eq_self hcr, List.splitOnP_eq_singleton h]

theorem exists_first_break (h : ∃ c ∈ text, isLineBreak c = true) :
    ∃ before c after, text = before ++ c :: after ∧ (∀ b ∈ before, isLineBreak b = false) ∧
      isLineBreak c = true := by
  induction text with
  | nil => simp at h
  | cons first text ih =>
    cases hfirst : isLineBreak first with
    | true => exact ⟨[], first, text, rfl, nofun, hfirst⟩
    | false =>
      obtain ⟨c, hmem, hc⟩ := h
      rcases List.mem_cons.mp hmem with rfl | hmem
      · rw [hfirst] at hc
        cases hc
      · obtain ⟨before, c, after, rfl, hbefore, hc⟩ := ih ⟨c, hmem, hc⟩
        refine ⟨first :: before, c, after, rfl, ?_, hc⟩
        intro b hb
        rcases List.mem_cons.mp hb with rfl | hb
        · exact hfirst
        · exact hbefore b hb

theorem pieces_append_break (hbefore : ∀ c ∈ before, isLineBreak c = false)
    (hc : isLineBreak c = true)
    (h : carriageReturn ∉ before ++ c :: after) :
    pieces (before ++ c :: after) = before :: pieces after := by
  have hcr : carriageReturn ∉ after := fun hmem => h (by simp [hmem])
  rw [pieces, pieces, collapseCrLf_eq_self h, collapseCrLf_eq_self hcr,
    List.splitOnP_append_cons before after hc, List.splitOnP_eq_singleton hbefore]
  rfl

end Python

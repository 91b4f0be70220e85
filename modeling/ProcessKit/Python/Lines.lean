import ProcessKit.Python.Str

/-!
# Lines between line feeds

In `re.M` the anchors `^` and `$` stand next to line feeds only, while `splitlines` breaks
at every boundary. A pattern that matches whole lines reads and substitutes the lines
below; a text is the join of its lines.
-/

namespace Python

/-- The last line ends with the text, each other one with a line feed. -/
def feedLines (text : PyStr) : List PyStr := text.splitOn lineFeed

def joinLines (lines : List PyStr) : PyStr := [lineFeed].intercalate lines

def endLines (lines : List PyStr) : PyStr := lines.flatMap (· ++ [lineFeed])

theorem feedLines_ne_nil (text : PyStr) : feedLines text ≠ [] := List.splitOn_ne_nil _ _

theorem joinLines_feedLines (text : PyStr) : joinLines (feedLines text) = text :=
  List.intercalate_splitOn lineFeed

theorem feedLines_joinLines (h : ∀ line ∈ lines, lineFeed ∉ line) (hne : lines ≠ []) :
    feedLines (joinLines lines) = lines := List.splitOn_intercalate lineFeed h hne

theorem feedLines_append (before after : PyStr) :
    feedLines (before ++ lineFeed :: after) = feedLines before ++ feedLines after :=
  List.splitOn_append_cons_self before after

theorem feedLines_eq_singleton (h : lineFeed ∉ line) : feedLines line = [line] :=
  List.splitOn_eq_singleton h

@[simp] theorem joinLines_singleton (line : PyStr) : joinLines [line] = line := by simp [joinLines]

theorem joinLines_cons (line : PyStr) (h : rest ≠ []) :
    joinLines (line :: rest) = line ++ lineFeed :: joinLines rest := by
  rw [joinLines, List.intercalate_cons_of_ne_nil h, List.append_assoc]
  rfl

theorem joinLines_append (h : lines ≠ []) (hrest : rest ≠ []) :
    joinLines (lines ++ rest) = joinLines lines ++ lineFeed :: joinLines rest := by
  induction lines with
  | nil => exact absurd rfl h
  | cons line lines ih =>
    cases lines with
    | nil => rw [List.singleton_append, joinLines_cons line hrest, joinLines_singleton]
    | cons next lines =>
      rw [List.cons_append, joinLines_cons line (by simp), ih (List.cons_ne_nil _ _),
        joinLines_cons line (List.cons_ne_nil _ _), List.append_assoc]
      rfl

theorem not_mem_of_mem_splitOnP {text line : PyStr} {p : PyChar → Bool}
    (h : line ∈ text.splitOnP p) :
    ∀ c ∈ line, p c = false := by
  induction text generalizing line with
  | nil =>
    rw [List.splitOnP_nil, List.mem_singleton] at h
    simp [h]
  | cons first text ih =>
    rw [List.splitOnP_cons_eq_if_modifyHead] at h
    split at h
    · rcases List.mem_cons.mp h with rfl | h
      · simp
      · exact ih h
    · next hfirst =>
      obtain ⟨head, rest, hsplit⟩ := List.exists_cons_of_ne_nil (List.splitOnP_ne_nil p text)
      rw [hsplit] at h ih
      rcases List.mem_cons.mp h with rfl | h
      · intro c hc
        rcases List.mem_cons.mp hc with rfl | hc
        · simpa using hfirst
        · exact ih (List.mem_cons_self ..) c hc
      · exact ih (List.mem_cons_of_mem _ h)

theorem lineFeed_not_mem_feedLines (h : line ∈ feedLines text) : lineFeed ∉ line := by
  intro hmem
  rw [feedLines, List.splitOn_eq_splitOnP] at h
  simpa using not_mem_of_mem_splitOnP h _ hmem

theorem feedLines_endLines_append (h : ∀ line ∈ lines, lineFeed ∉ line) (text : PyStr) :
    feedLines (endLines lines ++ text) = lines ++ feedLines text := by
  induction lines with
  | nil => rfl
  | cons line lines ih =>
    obtain ⟨hline, hlines⟩ := List.forall_mem_cons.mp h
    have hfirst : endLines (line :: lines) ++ text =
        line ++ lineFeed :: (endLines lines ++ text) := by
      simp [endLines]
    rw [hfirst, feedLines_append, feedLines_eq_singleton hline, ih hlines]
    rfl

theorem endLines_eq_joinLines (h : lines ≠ []) :
    endLines lines = joinLines lines ++ [lineFeed] := by
  induction lines with
  | nil => exact absurd rfl h
  | cons line rest ih =>
    cases rest with
    | nil => simp [endLines]
    | cons next rest =>
      have hrest := ih (List.cons_ne_nil _ _)
      rw [joinLines_cons line (List.cons_ne_nil _ _), List.append_assoc, List.cons_append, ← hrest]
      simp [endLines]

theorem joinLines_concat (front : List PyStr) (line : PyStr) :
    joinLines (front ++ [line]) = endLines front ++ line := by
  induction front with
  | nil => simp [endLines]
  | cons first front ih =>
    rw [List.cons_append, joinLines_cons first (by simp), ih]
    simp [endLines]

theorem feedLines_joinLines_flatMap (h : lines ≠ []) :
    feedLines (joinLines lines) = lines.flatMap feedLines := by
  induction lines with
  | nil => exact absurd rfl h
  | cons line rest ih =>
    cases rest with
    | nil => simp
    | cons next rest =>
      rw [joinLines_cons line (List.cons_ne_nil _ _), feedLines_append, ih (List.cons_ne_nil _ _)]
      rfl

theorem isPrefixOf_eq_false {first second line : PyStr} (h : second.isPrefixOf line = true)
    (hfirst : first.isPrefixOf second = false) (hsecond : second.isPrefixOf first = false) :
    first.isPrefixOf line = false := by
  rw [Bool.eq_false_iff]
  intro hline
  rw [List.isPrefixOf_iff_prefix] at h hline
  rcases List.prefix_or_prefix_of_prefix hline h with hp | hp
  · rw [← List.isPrefixOf_iff_prefix, hfirst] at hp
    cases hp
  · rw [← List.isPrefixOf_iff_prefix, hsecond] at hp
    cases hp

theorem isPrefixOf_trans {first second line : PyStr} (h : first.isPrefixOf second = true)
    (hline : second.isPrefixOf line = true) : first.isPrefixOf line = true := by
  rw [List.isPrefixOf_iff_prefix] at h hline ⊢
  exact h.trans hline

-- ---------------------------------------------------------------------------
-- The only line of a kind
-- ---------------------------------------------------------------------------

theorem countP_eq_one {p : α → Bool} (hline : p line = true) (habove : ∀ l ∈ above, p l = false)
    (hbelow : ∀ l ∈ below, p l = false) : (above ++ line :: below).countP p = 1 := by
  have hnone : ∀ {lines : List α}, (∀ l ∈ lines, p l = false) → lines.countP p = 0 := by
    intro lines h
    exact List.countP_eq_zero.mpr fun l hl => by simp [h l hl]
  simp [hline, hnone habove, hnone hbelow]

theorem none_of_countP_eq_one {p : α → Bool} (h : (above ++ line :: below).countP p = 1)
    (hline : p line = true) : (∀ l ∈ above, p l = false) ∧ ∀ l ∈ below, p l = false := by
  simp only [List.countP_append, List.countP_cons, hline, if_true] at h
  have habove : above.countP p = 0 := by omega
  have hbelow : below.countP p = 0 := by omega
  constructor
  · intro l hl
    simpa using List.countP_eq_zero.mp habove l hl
  · intro l hl
    simpa using List.countP_eq_zero.mp hbelow l hl

-- ---------------------------------------------------------------------------
-- re.subn
-- ---------------------------------------------------------------------------

def subLine (pattern : PyStr → Bool) (replacement line : PyStr) : PyStr :=
  if pattern line then replacement else line

/-- `re.subn` with a pattern of whole lines and a replacement without escapes. -/
def subLines (pattern : PyStr → Bool) (replacement text : PyStr) : PyStr × Nat :=
  (joinLines ((feedLines text).map (subLine pattern replacement)), (feedLines text).countP pattern)

theorem flatMap_subLine_eq_self {pattern : PyStr → Bool} {lines : List PyStr} (replacement : PyStr)
    (h : ∀ line ∈ lines, pattern line = false) (hfeed : ∀ line ∈ lines, lineFeed ∉ line) :
    (lines.map (subLine pattern replacement)).flatMap feedLines = lines := by
  induction lines with
  | nil => rfl
  | cons line lines ih =>
    obtain ⟨hline, hlines⟩ := List.forall_mem_cons.mp h
    obtain ⟨hlineFeed, hlinesFeed⟩ := List.forall_mem_cons.mp hfeed
    simp [subLine, hline, feedLines_eq_singleton hlineFeed, ih hlines hlinesFeed]

theorem subLines_one {pattern : PyStr → Bool} (replacement : PyStr)
    (htext : feedLines text = above ++ line :: below) (hline : pattern line = true)
    (habove : ∀ l ∈ above, pattern l = false) (hbelow : ∀ l ∈ below, pattern l = false) :
    feedLines (subLines pattern replacement text).1 = above ++ feedLines replacement ++ below ∧
      (subLines pattern replacement text).2 = 1 := by
  have hfeed : ∀ l ∈ above ++ line :: below, lineFeed ∉ l := by
    intro l hl
    rw [← htext] at hl
    exact lineFeed_not_mem_feedLines hl
  constructor
  · have hne : (feedLines text).map (subLine pattern replacement) ≠ [] := by simp [feedLines_ne_nil]
    have hleft := flatMap_subLine_eq_self replacement habove fun l hl => hfeed l (by simp [hl])
    have hright := flatMap_subLine_eq_self replacement hbelow fun l hl => hfeed l (by simp [hl])
    rw [subLines, feedLines_joinLines_flatMap hne, htext, List.map_append, List.flatMap_append,
      hleft, List.map_cons, List.flatMap_cons, hright, subLine, if_pos hline, List.append_assoc]
  · rw [subLines, htext]
    exact countP_eq_one hline habove hbelow

-- ---------------------------------------------------------------------------
-- splitlines
-- ---------------------------------------------------------------------------

theorem pieces_cons (h : ∀ c ∈ line, isLineBreak c = false) (text : PyStr) :
    pieces (line ++ lineFeed :: text) = line :: pieces text := by
  have hcollapse :
      collapseCrLf (line ++ lineFeed :: text) = line ++ lineFeed :: collapseCrLf text := by
    induction line with
    | nil => simp [collapseCrLf, show lineFeed ≠ carriageReturn by decide]
    | cons c line ih =>
      obtain ⟨hfirst, hline⟩ := List.forall_mem_cons.mp h
      have hc : c ≠ carriageReturn := by
        rintro rfl
        exact absurd hfirst (by decide)
      simp [collapseCrLf, hc, ih hline]
  rw [pieces, hcollapse, List.splitOnP_append_cons_of_forall_mem h _ (by decide)]
  rfl

theorem collapseCrLf_cons_cons (c d : PyChar) (text : PyStr) :
    collapseCrLf (c :: d :: text) =
      if c = carriageReturn ∧ d = lineFeed then collapseCrLf (d :: text)
      else c :: collapseCrLf (d :: text) := by
  simp only [collapseCrLf, List.head?_cons, Option.some_inj]

theorem collapseCrLf_lineFeed (before text : PyStr) :
    ∃ kept, collapseCrLf (before ++ lineFeed :: text) = kept ++ lineFeed :: collapseCrLf text ∧
      (collapseCrLf before = kept ∨ collapseCrLf before = kept ++ [carriageReturn]) := by
  have hfeed : lineFeed ≠ carriageReturn := by decide
  induction before with
  | nil => exact ⟨[], by simp [collapseCrLf, hfeed], .inl rfl⟩
  | cons c before ih =>
    cases before with
    | nil =>
      rcases eq_or_ne c carriageReturn with rfl | hc
      · exact ⟨[], by simp [collapseCrLf, hfeed], .inr rfl⟩
      · exact ⟨[c], by simp [collapseCrLf, hc, hfeed], .inl (by simp [collapseCrLf])⟩
    | cons d before =>
      obtain ⟨kept, htext, hkept⟩ := ih
      rw [List.cons_append] at htext
      rw [List.cons_append, List.cons_append, collapseCrLf_cons_cons, collapseCrLf_cons_cons, htext]
      split
      · exact ⟨kept, rfl, hkept⟩
      · refine ⟨c :: kept, rfl, ?_⟩
        rcases hkept with hkept | hkept
        · exact .inl (by rw [hkept])
        · exact .inr (by rw [hkept, List.cons_append])

/-- The pieces of a line and of what follows its line feed. A carriage return that the line
feed takes along leaves an empty piece where the line stands alone. -/
theorem pieces_lineFeed (before text : PyStr) :
    ∃ front, pieces (before ++ lineFeed :: text) = front ++ pieces text ∧
      (pieces before = front ∨ pieces before = front ++ [[]]) := by
  obtain ⟨kept, htext, hkept⟩ := collapseCrLf_lineFeed before text
  refine ⟨kept.splitOnP isLineBreak, ?_, ?_⟩
  · rw [pieces, pieces, htext, List.splitOnP_append_cons _ _ (by decide)]
  · rcases hkept with hkept | hkept
    · exact .inl (by rw [pieces, hkept])
    · right
      rw [pieces, hkept, List.splitOnP_append_cons _ _ (by decide), List.splitOnP_nil]

theorem pieces_suffix (before text : PyStr) :
    pieces text <:+ pieces (before ++ lineFeed :: text) := by
  obtain ⟨front, hfront, -⟩ := pieces_lineFeed before text
  rw [hfront]
  exact List.suffix_append _ _

theorem splitOnP_append (p : PyChar → Bool) (text more : PyStr) :
    ∃ front last, text.splitOnP p = front ++ [last] ∧
      (text ++ more).splitOnP p = front ++ (more.splitOnP p).modifyHead (last ++ ·) := by
  induction text with
  | nil =>
    refine ⟨[], [], rfl, ?_⟩
    obtain ⟨head, rest, hsplit⟩ := List.exists_cons_of_ne_nil (List.splitOnP_ne_nil p more)
    simp [hsplit]
  | cons c text ih =>
    obtain ⟨front, last, htext, hmore⟩ := ih
    rw [List.cons_append, List.splitOnP_cons_eq_if_modifyHead,
      List.splitOnP_cons_eq_if_modifyHead, htext, hmore]
    split
    · exact ⟨[] :: front, last, rfl, rfl⟩
    · obtain ⟨head, rest, hsplit⟩ := List.exists_cons_of_ne_nil (List.splitOnP_ne_nil p more)
      cases front with
      | nil => exact ⟨[], c :: last, rfl, by simp [hsplit]⟩
      | cons first front => exact ⟨(c :: first) :: front, last, rfl, rfl⟩

theorem collapseCrLf_append (h : text.getLast? ≠ some carriageReturn ∨ more.head? ≠ some lineFeed) :
    collapseCrLf (text ++ more) = collapseCrLf text ++ collapseCrLf more := by
  induction text with
  | nil => rfl
  | cons c text ih =>
    cases text with
    | nil =>
      have hkeep : ¬ (c = carriageReturn ∧ more.head? = some lineFeed) := by
        rintro ⟨rfl, hmore⟩
        exact h.elim (· rfl) (· hmore)
      simp [collapseCrLf, hkeep]
    | cons d text =>
      have hrest := ih (by simpa using h)
      rw [List.cons_append] at hrest
      rw [List.cons_append, List.cons_append, collapseCrLf_cons_cons, collapseCrLf_cons_cons, hrest]
      split
      · rfl
      · rfl

theorem subset_of_mem_splitOnP {text line : PyStr} {p : PyChar → Bool}
    (h : line ∈ text.splitOnP p) : line ⊆ text := by
  induction text generalizing line with
  | nil =>
    rw [List.splitOnP_nil, List.mem_singleton] at h
    exact h ▸ List.Subset.refl _
  | cons first text ih =>
    rw [List.splitOnP_cons_eq_if_modifyHead] at h
    split at h
    · rcases List.mem_cons.mp h with rfl | h
      · exact List.nil_subset _
      · exact List.subset_cons_of_subset _ (ih h)
    · obtain ⟨head, rest, hsplit⟩ := List.exists_cons_of_ne_nil (List.splitOnP_ne_nil p text)
      rw [hsplit] at h ih
      rcases List.mem_cons.mp h with rfl | h
      · exact List.cons_subset_cons _ (ih (List.mem_cons_self ..))
      · exact List.subset_cons_of_subset _ (ih (List.mem_cons_of_mem _ h))

theorem collapseCrLf_subset (text : PyStr) : collapseCrLf text ⊆ text := by
  induction text with
  | nil => exact List.nil_subset _
  | cons c text ih =>
    rw [collapseCrLf]
    split
    · exact List.subset_cons_of_subset _ ih
    · exact List.cons_subset_cons _ ih

theorem subset_of_mem_pieces (h : line ∈ pieces text) : line ⊆ text := fun _ hc =>
  collapseCrLf_subset text (subset_of_mem_splitOnP h hc)

theorem pieces_append (text more : PyStr)
    (h : text.getLast? ≠ some carriageReturn ∨ more.head? ≠ some lineFeed) :
    ∃ front last, pieces text = front ++ [last] ∧
      pieces (text ++ more) = front ++ (pieces more).modifyHead (last ++ ·) := by
  rw [pieces, pieces, pieces, collapseCrLf_append h]
  exact splitOnP_append isLineBreak (collapseCrLf text) (collapseCrLf more)

theorem pieces_ne_nil (text : PyStr) : pieces text ≠ [] := List.splitOnP_ne_nil _ _

theorem pieces_line_append (h : ∀ c ∈ line, isLineBreak c = false) (more : PyStr) :
    ∃ head rest, pieces more = head :: rest ∧ pieces (line ++ more) = (line ++ head) :: rest := by
  have hlast : line.getLast? ≠ some carriageReturn := by
    intro hlast
    exact absurd (h _ (List.mem_of_getLast? hlast)) (by decide)
  obtain ⟨front, last, hline, hmore⟩ := pieces_append line more (.inl hlast)
  rw [pieces_eq_singleton h] at hline
  obtain ⟨rfl, rfl⟩ : front = [] ∧ line = last := by
    cases front with
    | nil => exact ⟨rfl, List.singleton_inj.mp hline⟩
    | cons first front => simp at hline
  obtain ⟨head, rest, hpieces⟩ := List.exists_cons_of_ne_nil (pieces_ne_nil more)
  exact ⟨head, rest, hpieces, by rw [hmore, hpieces]; rfl⟩

theorem mem_pieces_joinLines (h : line ∈ lines) (hline : ∀ c ∈ line, isLineBreak c = false) :
    line ∈ pieces (joinLines lines) := by
  induction lines with
  | nil => cases h
  | cons first rest ih =>
    cases rest with
    | nil =>
      obtain rfl := List.mem_singleton.mp h
      rw [joinLines_singleton, pieces_eq_singleton hline]
      exact List.mem_cons_self ..
    | cons next rest =>
      rw [joinLines_cons first (List.cons_ne_nil _ _)]
      rcases List.mem_cons.mp h with rfl | h
      · rw [pieces_cons hline]
        exact List.mem_cons_self ..
      · exact (pieces_suffix first _).subset (ih h)

theorem pieces_joinLines (h : ∀ line ∈ lines, ∀ c ∈ line, isLineBreak c = false)
    (hne : lines ≠ []) :
    pieces (joinLines lines) = lines := by
  induction lines with
  | nil => exact absurd rfl hne
  | cons line rest ih =>
    obtain ⟨hline, hrest⟩ := List.forall_mem_cons.mp h
    cases rest with
    | nil => rw [joinLines_singleton, pieces_eq_singleton hline]
    | cons next rest =>
      rw [joinLines_cons line (List.cons_ne_nil _ _), pieces_cons hline,
        ih hrest (List.cons_ne_nil _ _)]

theorem mem_splitlines_of_mem_pieces (h : line ∈ pieces text) (hne : line ≠ []) :
    line ∈ splitlines text := by
  rw [splitlines]
  split
  · next hlast =>
    have hsplit := List.dropLast_append_getLast? _ hlast
    rw [← hsplit] at h
    simpa [hne] using h
  · exact h

theorem splitlines_subset_pieces (text : PyStr) : splitlines text ⊆ pieces text := by
  rw [splitlines]
  split
  · exact List.dropLast_subset _
  · exact fun _ h => h

theorem isLineBreak_of_mem_splitlines (h : line ∈ splitlines text) :
    ∀ c ∈ line, isLineBreak c = false :=
  not_mem_of_mem_splitOnP (splitlines_subset_pieces text h)

end Python

import ProcessKit.Release.Normalised

/-!
# The notes of a release

`extract_release_notes` cuts the stripped body at its headers and collects, under each, the
bullets with the lines that continue them. What stands above the first header, or on a
header's own line behind a boundary that is no line feed, is in no section, although
`unreleased_has_bullets` counts the bullets there too.
-/

namespace ProcessKit.Release

open Python

-- ---------------------------------------------------------------------------
-- Bullets with their continuation lines
-- ---------------------------------------------------------------------------

/-- Every bullet with the continuation lines that follow it at once. -/
def bulletEntries : List PyStr → List (PyStr × List PyStr)
  | [] => []
  | line :: rest =>
    if isBullet line then (line, rest.takeWhile isContinuation) :: bulletEntries rest
    else bulletEntries rest

def partEntries (part : PyStr × List PyStr) : List (PyStr × List PyStr) :=
  bulletEntries (splitlines (joinLines part.2))

def partNotes (part : PyStr × List PyStr) : List PyStr :=
  part.1 :: (partEntries part).flatMap fun entry => entry.1 :: entry.2

def notedParts (parts : List (PyStr × List PyStr)) : List (PyStr × List PyStr) :=
  parts.filter fun part => !(countedLines (joinLines part.2)).isEmpty

theorem isBullet_of_isContinuation (h : isContinuation line = true) : isBullet line = false := by
  cases line with
  | nil => cases h
  | cons c rest =>
    have hindent : (c == space || c == tab) = true := (Bool.and_eq_true_iff.mp h).1
    have hne : (c == hyphen) = false := by
      rcases Bool.or_eq_true_iff.mp hindent with hc | hc
      · rw [beq_iff_eq.mp hc]
        decide
      · rw [beq_iff_eq.mp hc]
        decide
    simp [isBullet, hne]

theorem bulletEntries_fst (lines : List PyStr) :
    (bulletEntries lines).map Prod.fst = lines.filter isBullet := by
  induction lines with
  | nil => rfl
  | cons line rest ih =>
    rw [bulletEntries, List.filter_cons]
    split
    · rw [List.map_cons, ih]
    · exact ih

theorem sectionNotes_true (lines : List PyStr) :
    sectionNotes true lines = lines.takeWhile isContinuation ++ sectionNotes false lines := by
  induction lines with
  | nil => rfl
  | cons line rest ih =>
    cases hcontinuation : isContinuation line with
    | true =>
      have hbullet := isBullet_of_isContinuation hcontinuation
      simp [sectionNotes, hbullet, hcontinuation, ih]
    | false => simp [sectionNotes, hcontinuation]

theorem sectionNotes_entries (lines : List PyStr) :
    sectionNotes false lines = (bulletEntries lines).flatMap fun entry => entry.1 :: entry.2 := by
  induction lines with
  | nil => rfl
  | cons line rest ih =>
    rw [sectionNotes, bulletEntries]
    split
    · rw [sectionNotes_true, ih, List.flatMap_cons, List.cons_append]
    · exact ih

theorem partEntries_fst (part : PyStr × List PyStr) :
    (partEntries part).map Prod.fst = countedLines (joinLines part.2) := bulletEntries_fst _

theorem partNotes_eq (part : PyStr × List PyStr) :
    partNotes part = part.1 :: sectionNotes false (splitlines (joinLines part.2)) := by
  rw [partNotes, sectionNotes_entries, partEntries]

-- ---------------------------------------------------------------------------
-- Section by section
-- ---------------------------------------------------------------------------

theorem sectionNotes_lineFeed (inBullet : Bool) (text : PyStr) :
    sectionNotes inBullet (pieces (lineFeed :: text)) = sectionNotes false (pieces text) := by
  have hpieces := pieces_cons (List.forall_mem_nil fun c => isLineBreak c = false) text
  rw [List.nil_append] at hpieces
  cases inBullet <;> simp [hpieces, sectionNotes, isBullet, isContinuation]

theorem sectionNotes_concat_lineFeed (inBullet : Bool) (text : PyStr) :
    sectionNotes inBullet (pieces (text ++ [lineFeed])) = sectionNotes inBullet (pieces text) := by
  obtain ⟨front, hfeed, htext⟩ := pieces_lineFeed text []
  rw [hfeed, show pieces [] = [[]] from rfl, sectionNotes_append_nil]
  rcases htext with htext | htext
  · rw [htext]
  · rw [htext, sectionNotes_append_nil]

theorem sectionNotes_sectionText (below : List PyStr) :
    sectionNotes false (splitlines (sectionText below)) =
      sectionNotes false (splitlines (joinLines (below.takeWhile (!isHeader ·)))) := by
  have hend (text : PyStr) (open? : Prop) [Decidable open?] :
      sectionNotes false (pieces (text ++ if open? then [lineFeed] else [])) =
        sectionNotes false (pieces text) := by
    split
    · exact sectionNotes_concat_lineFeed false text
    · rw [List.append_nil]
  rw [sectionNotes_splitlines, sectionNotes_splitlines, sectionText, hend]
  rcases eq_or_ne (below.takeWhile (!isHeader ·)) [] with hown | hown
  · rw [hown]
    rfl
  · rw [flatMap_lineFeed hown, sectionNotes_lineFeed]

def addPart (out : List PyStr) (part : PyStr × List PyStr) : List PyStr :=
  if (countedLines (joinLines part.2)).isEmpty then out
  else (if out.isEmpty then out else out ++ [[]]) ++ partNotes part

theorem sectionNotes_isEmpty (part : PyStr × List PyStr) :
    (sectionNotes false (splitlines (joinLines part.2))).isEmpty =
      (countedLines (joinLines part.2)).isEmpty := by
  rw [sectionNotes_entries, countedLines, ← bulletEntries_fst]
  cases bulletEntries (splitlines (joinLines part.2)) with
  | nil => rfl
  | cons entry entries => rfl

theorem foldl_addNotes_eq (lines out : List PyStr) :
    (headerParts lines).foldl addNotes out = (headerSections lines).foldl addPart out := by
  induction lines generalizing out with
  | nil => rfl
  | cons line below ih =>
    rw [headerParts, headerSections]
    split
    · rw [List.foldl_cons, List.foldl_cons, ih]
      congr 1
      rw [addNotes, addPart, sectionNotes_sectionText, partNotes_eq,
        ← sectionNotes_isEmpty (line, below.takeWhile (!isHeader ·))]
    · exact ih out

theorem notedParts_cons (part : PyStr × List PyStr) (parts : List (PyStr × List PyStr)) :
    notedParts (part :: parts) =
      if (countedLines (joinLines part.2)).isEmpty then notedParts parts
      else part :: notedParts parts := by
  rw [notedParts, List.filter_cons]
  cases (countedLines (joinLines part.2)).isEmpty <;> rfl

theorem foldl_addPart (parts : List (PyStr × List PyStr)) (out : List PyStr) :
    parts.foldl addPart out =
      if (notedParts parts).isEmpty then out
      else (if out.isEmpty then out else out ++ [[]]) ++
        [[]].intercalate ((notedParts parts).map partNotes) := by
  induction parts generalizing out with
  | nil => rfl
  | cons part parts ih =>
    rw [List.foldl_cons, ih, addPart, notedParts_cons]
    cases (countedLines (joinLines part.2)).isEmpty with
    | true => rfl
    | false =>
      have hnotes : partNotes part ≠ [] := List.cons_ne_nil _ _
      cases notedParts parts with
      | nil => simp
      | cons next rest => simp [hnotes]

theorem head?_joinLines (line : PyStr) (rest : List PyStr) :
    ∃ more, joinLines (line :: rest) = line ++ more := by
  cases rest with
  | nil => exact ⟨[], by simp⟩
  | cons next rest => exact ⟨_, joinLines_cons line (List.cons_ne_nil _ _)⟩

theorem headerSections_isHeader (lines : List PyStr) :
    ∀ part ∈ headerSections lines, isHeader part.1 = true := by
  induction lines with
  | nil => exact List.forall_mem_nil _
  | cons line below ih =>
    rw [headerSections]
    split
    · next hheader => exact List.forall_mem_cons.mpr ⟨hheader, ih⟩
    · exact ih

theorem strip_notes (h : ∀ part ∈ noted, isHeader part.1 = true) (hne : noted ≠ []) :
    let joined := joinLines ([[]].intercalate (noted.map partNotes))
    strip joined = rstrip joined ∧ rstrip joined ≠ [] := by
  obtain ⟨part, rest, rfl⟩ := List.exists_cons_of_ne_nil hne
  have hmark : lit "### " = ofChar '#' :: lit "## " := by decide +kernel
  have hspace : isSpace (ofChar '#') = false := by decide
  obtain ⟨name, hname⟩ := List.isPrefixOf_iff_prefix.mp
    (isPrefixOf_of_isHeader (h part (List.mem_cons_self ..)))
  obtain ⟨lines, hlines⟩ :
      ∃ lines, [[]].intercalate ((part :: rest).map partNotes) = part.1 :: lines := by
    cases rest with
    | nil => exact ⟨_, by simp [partNotes]; rfl⟩
    | cons next rest => exact ⟨_, by simp [partNotes]; rfl⟩
  obtain ⟨more, hmore⟩ := head?_joinLines part.1 lines
  have hjoined : joinLines ([[]].intercalate ((part :: rest).map partNotes)) =
      ofChar '#' :: (lit "## " ++ name ++ more) := by
    rw [hlines, hmore, ← hname, hmark]
    simp
  have hright := rstrip_append_cons [] hspace (lit "## " ++ name ++ more)
  rw [List.nil_append, List.nil_append] at hright
  intro joined
  rw [show joined = _ from hjoined, strip_cons hspace, hright]
  exact ⟨rfl, List.cons_ne_nil _ _⟩

theorem extractReleaseNotes_noted (text : PyStr)
    (h : notedParts (headerSections (feedLines (strip (unreleasedBody text)))) ≠ []) :
    extractReleaseNotes text =
      .ok (rstrip (joinLines ([[]].intercalate
        ((notedParts (headerSections (feedLines (strip (unreleasedBody text))))).map partNotes))) ++
          [lineFeed]) := by
  have hheaders : ∀ part ∈ notedParts (headerSections (feedLines (strip (unreleasedBody text)))),
      isHeader part.1 = true :=
    fun part hpart => headerSections_isHeader _ part (List.mem_of_mem_filter hpart)
  obtain ⟨hstrip, hne⟩ := strip_notes hheaders h
  simp only [extractReleaseNotes, foldl_addNotes_eq, foldl_addPart]
  simp [h, hstrip, hne]

-- ---------------------------------------------------------------------------
-- The notes of a generated body
-- ---------------------------------------------------------------------------

theorem sectionNotes_own {block : Block} (h : block.Kept)
    (hown : own = block.bulletLines ∨ own = block.bulletLines ++ [[]]) :
    sectionNotes false (splitlines (joinLines own)) = block.bulletLines := by
  have hplain : ∀ line ∈ own, ∀ c ∈ line, isLineBreak c = false := by
    intro line hline
    rcases hown with rfl | rfl
    · exact h.line_break line (List.mem_cons_of_mem _ hline)
    · rcases List.mem_append.mp hline with hline | hline
      · exact h.line_break line (List.mem_cons_of_mem _ hline)
      · obtain rfl := List.mem_singleton.mp hline
        exact List.forall_mem_nil _
  have hne : own ≠ [] := by
    rcases hown with rfl | rfl
    · exact h.bulletLines_ne_nil
    · simp
  rw [sectionNotes_splitlines, pieces_joinLines hplain hne]
  rcases hown with rfl | rfl
  · exact sectionNotes_bullets false h.isBullet
  · rw [sectionNotes_append_nil, sectionNotes_bullets false h.isBullet]

theorem partNotes_own {block : Block} (h : block.Kept)
    (hown : own = block.bulletLines ∨ own = block.bulletLines ++ [[]]) :
    partNotes (block.1, own) = block.lines := by
  rw [partNotes_eq, sectionNotes_own h hown, Block.lines]

theorem counted_own {block : Block} (h : block.Kept)
    (hown : own = block.bulletLines ∨ own = block.bulletLines ++ [[]]) :
    (countedLines (joinLines own)).isEmpty = false := by
  rw [← sectionNotes_isEmpty (block.1, own), sectionNotes_own h hown]
  simpa using h.bulletLines_ne_nil

theorem notedParts_blockLines (h : ∀ block ∈ blocks, block.Kept) :
    notedParts (headerSections (blockLines blocks)) = headerSections (blockLines blocks) := by
  have hcounted := headerSections_blockLines
    (f := fun part => (countedLines (joinLines part.2)).isEmpty) (g := fun _ => false) h
    fun block hblock => ⟨counted_own (h block hblock) (.inl rfl),
      counted_own (h block hblock) (.inr rfl)⟩
  rw [notedParts, List.filter_eq_self]
  intro part hpart
  have hmem := List.mem_map_of_mem
    (f := fun part => (countedLines (joinLines part.2)).isEmpty) hpart
  rw [hcounted] at hmem
  obtain ⟨-, -, hfalse⟩ := List.mem_map.mp hmem
  rw [← hfalse, Bool.not_false]

/-- The notes of a section that holds a body are the body and one line feed. -/
theorem extractReleaseNotes_body {block : Block} (h : ∀ b ∈ block :: blocks, b.Kept)
    (hbody : unreleasedBody text = renderBlocks (block :: blocks) ++ [lineFeed, lineFeed]) :
    extractReleaseNotes text = .ok (renderBlocks (block :: blocks) ++ [lineFeed]) := by
  have hfeeds : ∀ c ∈ [lineFeed, lineFeed], isSpace c = true := by
    intro c hc
    rcases List.mem_pair.mp hc with rfl | rfl
    · decide
    · decide
  have hstripped := renderBlocks_stripped h
  have hlines : feedLines (strip (unreleasedBody text)) = blockLines (block :: blocks) := by
    rw [hbody, strip_append_blank _ hfeeds, strip_eq_self hstripped,
      feedLines_renderBlocks h (List.cons_ne_nil _ _)]
  have hshown := headerSections_blockLines (f := partNotes) (g := Block.lines) h
    fun b hb => ⟨partNotes_own (h b hb) (.inl rfl), partNotes_own (h b hb) (.inr rfl)⟩
  have hnotes := extractReleaseNotes_noted text
  rw [hlines, notedParts_blockLines h, hshown] at hnotes
  rw [hnotes ?_, show [[]].intercalate ((block :: blocks).map Block.lines) = blockLines _ from rfl,
    ← renderBlocks_eq, rstrip_eq_self hstripped.2]
  intro hnone
  rw [hnone] at hshown
  cases hshown

-- ---------------------------------------------------------------------------
-- What is counted
-- ---------------------------------------------------------------------------

theorem countedLines_lineFeed (before text : PyStr) :
    countedLines (before ++ lineFeed :: text) = countedLines before ++ countedLines text := by
  obtain ⟨front, htext, hbefore⟩ := pieces_lineFeed before text
  rw [countedLines_eq, countedLines_eq, countedLines_eq, htext, List.filter_append]
  rcases hbefore with hbefore | hbefore
  · rw [hbefore]
  · simp [hbefore, isBullet]

theorem countedLines_joinLines (lines : List PyStr) :
    countedLines (joinLines lines) = lines.flatMap countedLines := by
  induction lines with
  | nil => rfl
  | cons line rest ih =>
    cases rest with
    | nil => simp
    | cons next rest =>
      rw [joinLines_cons line (List.cons_ne_nil _ _), countedLines_lineFeed, ih]
      rfl

theorem lines_eq_headerSections (lines : List PyStr) :
    lines = lines.takeWhile (!isHeader ·) ++
      (headerSections lines).flatMap fun part => part.1 :: part.2 := by
  induction lines with
  | nil => rfl
  | cons line below ih =>
    cases hline : isHeader line with
    | true =>
      rw [List.takeWhile_cons_of_neg (by simp [hline]), headerSections, if_pos hline,
        List.flatMap_cons, List.nil_append, List.cons_append, ← ih]
    | false =>
      rw [List.takeWhile_cons_of_pos (by simp [hline]), headerSections, if_neg (by simp [hline]),
        List.cons_append, ← ih]

theorem notedParts_flatMap (parts : List (PyStr × List PyStr)) :
    ((notedParts parts).flatMap fun part => countedLines (joinLines part.2)) =
      parts.flatMap fun part => countedLines (joinLines part.2) := by
  induction parts with
  | nil => rfl
  | cons part parts ih =>
    rw [notedParts_cons, List.flatMap_cons]
    split
    · next hempty => rw [ih, List.isEmpty_iff.mp hempty, List.nil_append]
    · rw [List.flatMap_cons, ih]

-- ---------------------------------------------------------------------------
-- White space around a body
-- ---------------------------------------------------------------------------

/-- The same lines, but for white space at the end of the last one. -/
def SameButEnd (shown counted : List PyStr) : Prop :=
  shown.dropLast = counted.dropLast ∧ shown.map rstrip = counted.map rstrip

theorem isBullet_of_isBlank (h : isBlank line = true) : isBullet line = false := by
  cases line with
  | nil => rfl
  | cons c rest =>
    have hrest : rest.any (!isSpace ·) = false := by
      rw [List.any_eq_false]
      intro d hd
      simp [List.all_eq_true.mp (Bool.and_eq_true_iff.mp h).2 d hd]
    rw [isBullet, hrest, Bool.and_false]

theorem isBullet_append_blank (line : PyStr) (h : isBlank blank = true) :
    isBullet (line ++ blank) = isBullet line := by
  cases line with
  | nil => exact isBullet_of_isBlank h
  | cons c rest =>
    have hblank : blank.any (!isSpace ·) = false := by
      rw [List.any_eq_false]
      intro d hd
      simp [List.all_eq_true.mp h d hd]
    cases rest with
    | nil => simp [isBullet, hblank]
    | cons d rest => simp [isBullet, hblank]

theorem isBlank_of_mem_pieces (h : isBlank blank = true) (hline : line ∈ pieces blank) :
    isBlank line = true :=
  List.all_eq_true.mpr fun c hc => List.all_eq_true.mp h c (subset_of_mem_pieces hline hc)

theorem countedLines_of_blank (h : isBlank blank = true) :
    (pieces blank).filter isBullet = [] := by
  rw [List.filter_eq_nil_iff]
  intro line hline
  simp [isBullet_of_isBlank (isBlank_of_mem_pieces h hline)]

theorem countedLines_append_blank (h : text.getLast? ≠ some carriageReturn)
    (hblank : isBlank blank = true) :
    SameButEnd (countedLines text) (countedLines (text ++ blank)) := by
  obtain ⟨front, last, htext, hmore⟩ := pieces_append text blank (.inl h)
  obtain ⟨head, rest, hpieces⟩ := List.exists_cons_of_ne_nil (pieces_ne_nil blank)
  have hnone := countedLines_of_blank hblank
  have hhead : isBlank head = true := isBlank_of_mem_pieces hblank (by simp [hpieces])
  have hend : rstrip (last ++ head) = rstrip last :=
    rstrip_append_blank last fun c hc => List.all_eq_true.mp hhead c hc
  rw [hpieces, List.filter_cons, if_neg (by simp [isBullet_of_isBlank hhead])] at hnone
  have hlonger : ((last ++ head) :: rest).filter isBullet =
      if isBullet last then [last ++ head] else [] := by
    rw [List.filter_cons, hnone, isBullet_append_blank last hhead]
  rw [countedLines_eq, countedLines_eq, htext, hmore, hpieces, List.filter_append,
    List.filter_append, List.modifyHead_cons, hlonger, List.filter_cons, List.filter_nil]
  split
  · constructor
    · simp
    · simp [hend]
  · exact ⟨rfl, rfl⟩

theorem countedLines_blank_append (hblank : isBlank blank = true)
    (h : text.head?.any isSpace = false) : countedLines (blank ++ text) <:+ countedLines text := by
  have hfeed : text.head? ≠ some lineFeed := by
    intro hfeed
    rw [hfeed] at h
    exact absurd h (by decide)
  obtain ⟨front, last, hpieces, hmore⟩ := pieces_append blank text (.inr hfeed)
  obtain ⟨head, rest, htext⟩ := List.exists_cons_of_ne_nil (pieces_ne_nil text)
  have hnone := countedLines_of_blank hblank
  have hlast : isBlank last = true := isBlank_of_mem_pieces hblank (by simp [hpieces])
  rw [hpieces, List.filter_append, List.append_eq_nil_iff] at hnone
  rw [countedLines_eq, countedLines_eq, hmore, htext, List.filter_append, hnone.1,
    List.nil_append, List.modifyHead_cons]
  cases last with
  | nil => exact List.suffix_refl _
  | cons c last =>
    have hc : isSpace c = true := (Bool.and_eq_true_iff.mp hlast).1
    have hne : (c == hyphen) = false := by
      rw [beq_eq_false_iff_ne]
      rintro rfl
      exact absurd hc (by decide)
    rw [List.filter_cons, if_neg (by simp [isBullet, hne]), List.filter_cons]
    split
    · exact List.suffix_cons _ _
    · exact List.suffix_refl _

/-- Of the lines a body counts none is lost where its end is stripped, and only the last one
may end sooner. -/
theorem countedLines_rstrip (text : PyStr) :
    SameButEnd (countedLines (rstrip text)) (countedLines text) := by
  have hsplit : rstrip text ++ text.rtakeWhile isSpace = text := List.rdropWhile_append_rtakeWhile
  have hright : isBlank (text.rtakeWhile isSpace) = true :=
    List.all_eq_true.mpr fun c hc => List.mem_rtakeWhile_imp hc
  have hlast : (rstrip text).getLast? ≠ some carriageReturn := by
    intro hlast
    have hne : rstrip text ≠ [] := by
      intro hnil
      rw [hnil] at hlast
      cases hlast
    have hstop := List.rdropWhile_last_not isSpace text hne
    rw [List.getLast?_eq_some_getLast hne] at hlast
    exact hstop (by rw [show (text.rdropWhile isSpace).getLast hne = _ from
      Option.some.inj hlast]; decide)
  have hend := countedLines_append_blank hlast hright
  rwa [hsplit] at hend

theorem countedLines_append_of_above (hblank : isBlank blank = true)
    (h : (joinLines (above ++ below)).head?.any isSpace = false)
    (habove : countedLines (blank ++ joinLines above) = []) :
    countedLines (blank ++ joinLines (above ++ below)) <:+ below.flatMap countedLines := by
  rcases eq_or_ne above [] with rfl | hfirst
  · rw [List.nil_append, ← countedLines_joinLines]
    exact countedLines_blank_append hblank h
  · rcases eq_or_ne below [] with rfl | hrest
    · rw [List.append_nil, habove]
      exact List.nil_suffix
    · have heq : countedLines (blank ++ joinLines (above ++ below)) =
          below.flatMap countedLines := by
        rw [joinLines_append hfirst hrest, ← List.append_assoc, countedLines_lineFeed, habove,
          List.nil_append, countedLines_joinLines]
      exact heq ▸ List.suffix_refl _

-- ---------------------------------------------------------------------------
-- Every bullet below a header
-- ---------------------------------------------------------------------------

/-- What stands in a body above the first header, with the white space that `strip` takes
off before it. -/
def aboveHeaders (body : PyStr) : PyStr :=
  (rstrip body).takeWhile isSpace ++ joinLines ((feedLines (strip body)).takeWhile (!isHeader ·))

/-- What a body counts stands below its headers, where it counts nothing above them or on
them. -/
theorem countedLines_below_headers {body : PyStr} (habove : countedLines (aboveHeaders body) = [])
    (hheaders : ∀ part ∈ headerSections (feedLines (strip body)), countedLines part.1 = []) :
    countedLines (rstrip body) <:+
      (headerSections (feedLines (strip body))).flatMap fun part =>
        countedLines (joinLines part.2) := by
  have hlead : (rstrip body).takeWhile isSpace ++ strip body = rstrip body :=
    List.takeWhile_append_dropWhile
  have hblank : isBlank ((rstrip body).takeWhile isSpace) = true :=
    List.all_eq_true.mpr fun c hc => List.mem_takeWhile_imp hc
  have hbody : joinLines ((feedLines (strip body)).takeWhile (!isHeader ·) ++
      (headerSections (feedLines (strip body))).flatMap fun part => part.1 :: part.2) =
        strip body := by
    rw [← lines_eq_headerSections, joinLines_feedLines]
  have hhead : (strip body).head?.any isSpace = false := head?_lstrip (rstrip body)
  have hbelow : ((headerSections (feedLines (strip body))).flatMap fun part =>
      part.1 :: part.2).flatMap countedLines =
        (headerSections (feedLines (strip body))).flatMap fun part =>
          countedLines (joinLines part.2) := by
    rw [List.flatMap_assoc]
    apply List.flatMap_congr
    intro part hpart
    rw [List.flatMap_cons, hheaders part hpart, List.nil_append, countedLines_joinLines]
  rw [← hbody] at hhead
  have hcounted := countedLines_append_of_above hblank hhead habove
  rwa [hbody, hlead, hbelow] at hcounted

/-- The notes are the sections with a bullet, each with its bullets and their continuation
lines. Where no counted line stands above the first header or on a header's own line, every
counted line is among these bullets, in order. -/
theorem extract_keeps_bullets (text : PyStr) :
    let body := unreleasedBody text
    let parts := headerSections (feedLines (strip body))
    let noted := notedParts parts
    (noted ≠ [] → extractReleaseNotes text =
      .ok (rstrip (joinLines ([[]].intercalate (noted.map partNotes))) ++ [lineFeed])) ∧
    (∀ part, (partEntries part).map Prod.fst = countedLines (joinLines part.2)) ∧
    (unreleasedHasBullets text = true → countedLines (aboveHeaders body) = [] →
      (∀ part ∈ parts, countedLines part.1 = []) →
      noted ≠ [] ∧ ∃ shown, SameButEnd shown (countedLines body) ∧
        shown.Sublist (noted.flatMap fun part => (partEntries part).map Prod.fst)) := by
  intro body parts noted
  refine ⟨extractReleaseNotes_noted text, partEntries_fst, ?_⟩
  intro hbullets habove hheaders
  have hsame := countedLines_rstrip body
  have hnoted : (noted.flatMap fun part => (partEntries part).map Prod.fst) =
      parts.flatMap fun part => countedLines (joinLines part.2) := by
    simp only [partEntries_fst]
    exact notedParts_flatMap parts
  have hshown := countedLines_below_headers habove hheaders
  rw [← hnoted] at hshown
  refine ⟨?_, _, hsame, hshown.sublist⟩
  rintro hnone
  rw [hnone] at hshown
  have hempty : (countedLines body).map rstrip = [] := by
    rw [← hsame.2, List.suffix_nil.mp hshown, List.map_nil]
  exact (unreleasedHasBullets_iff text).mp hbullets (List.map_eq_nil_iff.mp hempty)

/-- A bullet without a header, one with white space behind it, and one that a vertical tab
parts from its header. -/
theorem bullets_dropped :
    unreleasedHasBullets (lit "## [Unreleased]\n- a\n") = true ∧
      extractReleaseNotes (lit "## [Unreleased]\n- a\n") =
        .error "[Unreleased] section in CHANGELOG.md is empty" ∧
      unreleasedHasBullets (lit "## [Unreleased]\n### Fixed\n- a \n") = true ∧
      extractReleaseNotes (lit "## [Unreleased]\n### Fixed\n- a \n") =
        .ok (lit "### Fixed\n- a\n") ∧
      unreleasedHasBullets (lit "## [Unreleased]\n### Fixed\x0b- a\n") = true ∧
      extractReleaseNotes (lit "## [Unreleased]\n### Fixed\x0b- a\n") =
        .error "[Unreleased] section in CHANGELOG.md is empty" := by
  decide +kernel

end ProcessKit.Release

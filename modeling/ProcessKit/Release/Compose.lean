import ProcessKit.Release.Steps

/-!
# The steps of a release compose

Each step finds the section or the link with a pattern of its own. On a changelog of the
usual shape they agree where a release heading stands below the section and nothing that
the first search would take for the heading stands above it, and only there: without a
release heading the section runs to the end of the text, links and all.
-/

namespace ProcessKit.Release

open Python

/-- `[label]: target`. -/
def isReferenceLink (line : PyStr) : Bool :=
  (lit "[").isPrefixOf line && line.tails.any (lit "]:").isPrefixOf

def NoBullets (lines : List PyStr) : Prop :=
  (splitlines (joinLines (unreleasedSection lines))).any isBullet = false

instance (lines : List PyStr) : Decidable (NoBullets lines) := inferInstanceAs (Decidable (_ = _))

/-- A changelog: one heading, no bullets under it, and at the end of the file a footer of
links with the one of `[Unreleased]`. -/
structure Shaped (text : PyStr) (main footer : List PyStr) : Prop where
  lines : feedLines text = main ++ footer
  heading : (feedLines text).countP isUnreleasedHeading = 1
  link : (feedLines text).countP isUnreleasedLink = 1
  linkInFooter : ∃ line ∈ footer, isUnreleasedLink line = true
  footer : ∀ line ∈ footer, isBlank line = true ∨ isReferenceLink line = true
  noBullets : NoBullets main

/-- Below the heading and the blank lines under it the body stands for the placeholder, with
an empty line behind; every other line is where it was. -/
def Replaced (main footer : List PyStr) (generated inserted : PyStr) : Prop :=
  ∃ gap placeholder, unreleasedSection main = gap ++ placeholder ∧
    (∀ line ∈ gap, isBlank line = true) ∧
    feedLines inserted = aboveHeading main ++
      unreleasedHeading :: (gap ++ feedLines generated ++ [[]] ++ belowSection main ++ footer)

def Promotion.isLink (p : Promotion) (line : PyStr) : Bool :=
  (lit "[" ++ p.version ++ lit "]:").isPrefixOf line

/-- A link of the version is the only one where the changelog had none before. -/
structure Promoted (p : Promotion) (text generated out : PyStr) : Prop where
  heading : (feedLines out).countP isUnreleasedHeading = 1
  noBullets : NoBullets (feedLines out)
  body : ∃ above gap below, (∀ line ∈ gap, isBlank line = true) ∧
    feedLines out = above ++ p.versionHeading :: (gap ++ feedLines generated ++ below)
  links : ∃ above below, feedLines out = above ++ p.unreleasedLink :: p.versionedLink :: below ∧
    (∀ line ∈ above ++ below, isUnreleasedLink line = false) ∧
    ((∀ line ∈ feedLines text, p.isLink line = false) →
      ∀ line ∈ above ++ below, p.isLink line = false)

/-- Each step accepts what the one before it made. -/
def Composes (text : PyStr) (main footer : List PyStr) (generated : PyStr) (p : Promotion) : Prop :=
  ∃ inserted notes out,
    (insertUnreleasedBody text generated = .ok inserted ∧ Replaced main footer generated inserted) ∧
    (extractReleaseNotes inserted = .ok notes ∧
      ((feedLines generated).filter isBullet).Sublist (feedLines notes)) ∧
    promoteUnreleased p inserted = .ok out ∧ Promoted p text generated out

-- ---------------------------------------------------------------------------
-- The parts of the text
-- ---------------------------------------------------------------------------

theorem isReleaseHeading_of_footer (h : isBlank line = true ∨ isReferenceLink line = true) :
    isReleaseHeading line = false := by
  rcases h with h | h
  · exact (Ordinary.of_blank h).heading
  · have hbracket : (lit "[").isPrefixOf line = true := (Bool.and_eq_true_iff.mp h).1
    exact isPrefixOf_eq_false hbracket (by decide +kernel) (by decide +kernel)

structure Outside (text line : PyStr) : Prop extends Untouched line where
  mem : line ∈ feedLines text

section
variable {text : PyStr} {main footer : List PyStr} (h : Shaped text main footer)
include h

theorem Shaped.heading_mem : unreleasedHeading ∈ main := by
  have hpos : 0 < (feedLines text).countP isUnreleasedHeading := by
    rw [h.heading]
    exact Nat.one_pos
  obtain ⟨line, hline, hheading⟩ := List.countP_pos_iff.mp hpos
  obtain rfl : line = unreleasedHeading := beq_iff_eq.mp hheading
  rw [h.lines] at hline
  rcases List.mem_append.mp hline with hline | hline
  · exact hline
  · have hfooter := isReleaseHeading_of_footer (h.footer _ hline)
    rw [isReleaseHeading_heading] at hfooter
    cases hfooter

theorem Shaped.lines_eq : feedLines text =
    aboveHeading main ++ unreleasedHeading ::
      (unreleasedSection main ++ belowSection main ++ footer) := by
  have hmain := congrArg (· ++ footer) (lines_eq_section h.heading_mem)
  rw [h.lines, hmain, List.append_assoc, List.cons_append]

theorem Shaped.not_heading : (∀ line ∈ aboveHeading main, isUnreleasedHeading line = false) ∧
    ∀ line ∈ unreleasedSection main ++ belowSection main ++ footer,
      isUnreleasedHeading line = false := by
  have hone := h.heading
  rw [h.lines_eq] at hone
  exact none_of_countP_eq_one hone isUnreleasedHeading_heading

theorem Shaped.line_mem
    (hline : line ∈ aboveHeading main ∨ line ∈ belowSection main ∨ line ∈ footer) :
    line ∈ feedLines text := by
  rw [h.lines_eq]
  rcases hline with hline | hline | hline
  · simp [hline]
  · simp [hline]
  · simp [hline]

theorem Shaped.footer_eq : ∃ before link after, footer = before ++ link :: after ∧
    isUnreleasedLink link = true ∧ (∀ line ∈ aboveHeading main, Outside text line) ∧
    (∀ line ∈ belowSection main ++ before, Outside text line) ∧
    ∀ line ∈ after, Outside text line := by
  obtain ⟨link, hmem, hlink⟩ := h.linkInFooter
  obtain ⟨before, after, hfooter⟩ := List.append_of_mem hmem
  obtain ⟨hnotAbove, hnotBelow⟩ := h.not_heading
  have hone := h.link
  rw [h.lines_eq, hfooter, ← List.append_assoc, ← List.cons_append, ← List.append_assoc] at hone
  obtain ⟨hlinkAbove, hlinkBelow⟩ := none_of_countP_eq_one hone hlink
  refine ⟨before, link, after, hfooter, hlink, ?_, ?_, ?_⟩
  · intro line hline
    exact ⟨⟨hnotAbove line hline, hlinkAbove line (by simp [hline])⟩, h.line_mem (.inl hline)⟩
  · intro line hline
    have hcount := hlinkAbove line (by simp [List.mem_append.mp hline])
    rcases List.mem_append.mp hline with hline | hline
    · exact ⟨⟨hnotBelow line (by simp [hline]), hcount⟩, h.line_mem (.inr (.inl hline))⟩
    · have hfoot : line ∈ footer := by simp [hfooter, hline]
      exact ⟨⟨hnotBelow line (by simp [hfoot]), hcount⟩, h.line_mem (.inr (.inr hfoot))⟩
  · intro line hline
    have hfoot : line ∈ footer := by simp [hfooter, hline]
    exact ⟨⟨hnotBelow line (by simp [hfoot]), hlinkBelow line hline⟩,
      h.line_mem (.inr (.inr hfoot))⟩

theorem Shaped.parted (hbelow : belowSection main ≠ [])
    (hfirst : ∀ line ∈ aboveHeading main, isUnreleased line = false) :
    ∃ gap placeholder next rest, unreleasedSection main = gap ++ placeholder ∧
      belowSection main = next :: rest ∧
      Parted (feedLines text) (aboveHeading main) gap placeholder next (rest ++ footer) := by
  obtain ⟨next, rest, hnext, hheading⟩ := belowSection_cons hbelow
  have hsplit := List.takeWhile_append_dropWhile (p := isBlank)
    (l := unreleasedSection main)
  refine ⟨_, _, next, rest, hsplit.symm, hnext, ?_⟩
  constructor
  · rw [h.lines_eq, hnext, ← List.append_assoc _ _ (next :: (rest ++ footer)), hsplit]
    simp
  · exact hfirst
  · exact fun line hline => List.mem_takeWhile_imp hline
  · exact fun line hline =>
      unreleasedSection_ordinary main line ((List.dropWhile_suffix _).subset hline)
  · intro line hline
    cases hrest : (unreleasedSection main).dropWhile isBlank with
    | nil =>
      obtain rfl : next = line := by simpa [hrest] using hline
      rw [Bool.eq_false_iff]
      intro hblank
      rw [(Ordinary.of_blank hblank).heading] at hheading
      cases hheading
    | cons first more =>
      obtain rfl : first = line := by simpa [hrest] using hline
      have hhead := List.head?_dropWhile_not isBlank (unreleasedSection main)
      rw [hrest] at hhead
      simpa using hhead
  · exact hheading

end

-- ---------------------------------------------------------------------------
-- Where the steps compose
-- ---------------------------------------------------------------------------

theorem Promotion.links_bracket (p : Promotion) :
    (lit "[").isPrefixOf p.unreleasedLink = true ∧ (lit "[").isPrefixOf p.versionedLink = true := by
  constructor
  · have hmark : (lit "[").isPrefixOf (lit "[Unreleased]: ") = true := by decide +kernel
    rw [List.isPrefixOf_iff_prefix] at hmark ⊢
    simp only [Promotion.unreleasedLink, List.append_assoc]
    exact hmark.trans (List.prefix_append _ _)
  · rw [List.isPrefixOf_iff_prefix, Promotion.versionedLink]
    split
    · simp only [List.append_assoc]
      exact List.prefix_append _ _
    · simp only [List.append_assoc]
      exact List.prefix_append _ _

theorem Promotion.links_not_heading (p : Promotion) :
    isUnreleasedHeading p.unreleasedLink = false ∧ isUnreleasedHeading p.versionedLink = false := by
  have hnot : ∀ {line : PyStr}, (lit "[").isPrefixOf line = true →
      isUnreleasedHeading line = false := by
    intro line hline
    exact isUnreleasedHeading_of_ordinary
      (isPrefixOf_eq_false hline (by decide +kernel) (by decide +kernel))
  exact ⟨hnot p.links_bracket.1, hnot p.links_bracket.2⟩

theorem Promotion.isLink_eq_false (p : Promotion) (h : (lit "[").isPrefixOf line = false) :
    p.isLink line = false := by
  rw [Bool.eq_false_iff]
  intro hlink
  have hopen : (lit "[").isPrefixOf (lit "[" ++ p.version ++ lit "]:") = true := by
    rw [List.isPrefixOf_iff_prefix, List.append_assoc]
    exact List.prefix_append _ _
  rw [isPrefixOf_trans hopen hlink] at h
  cases h

theorem Promoted.of_lines {p : Promotion} {text generated out : PyStr}
    (hout : feedLines out = above ++ unreleasedHeading :: (freshSection ++
      p.versionHeading :: (gap ++ feedLines generated ++ [] :: between ++
        p.unreleasedLink :: p.versionedLink :: below)))
    (hgap : ∀ line ∈ gap, isBlank line = true)
    (hgenerated : ∀ line ∈ feedLines generated, Ordinary line)
    (habove : ∀ line ∈ above, Outside text line) (hbetween : ∀ line ∈ between, Outside text line)
    (hbelow : ∀ line ∈ below, Outside text line) : Promoted p text generated out := by
  have hplain : ∀ line ∈ gap ++ feedLines generated ++ [[]], Ordinary line := by
    intro line hline
    simp only [List.mem_append, List.mem_singleton, or_assoc] at hline
    rcases hline with hline | hline | rfl
    · exact .of_blank (hgap line hline)
    · exact hgenerated line hline
    · exact .of_blank rfl
  have hout' : feedLines out = above ++ unreleasedHeading :: (freshSection ++
      p.versionHeading :: (gap ++ feedLines generated ++ [[]] ++ (between ++
        p.unreleasedLink :: p.versionedLink :: below))) := by
    rw [hout]
    simp
  constructor
  · rw [hout']
    apply countP_eq_one isUnreleasedHeading_heading fun line hline => (habove line hline).heading
    intro line hline
    rcases List.mem_append.mp hline with hline | hline
    · exact (freshSection_ordinary line hline).untouched.heading
    rcases List.mem_cons.mp hline with rfl | hline
    · exact p.versionHeading_untouched.heading
    rcases List.mem_append.mp hline with hline | hline
    · exact (hplain line hline).untouched.heading
    simp only [List.mem_append, List.mem_cons] at hline
    rcases hline with hline | rfl | rfl | hline
    · exact (hbetween line hline).heading
    · exact p.links_not_heading.1
    · exact p.links_not_heading.2
    · exact (hbelow line hline).heading
  · rw [NoBullets, hout', unreleasedSection_append (fun line hline => (habove line hline).heading)
      (fun line hline => (freshSection_ordinary line hline).heading) p.isReleaseHeading]
    decide +kernel
  · refine ⟨above ++ unreleasedHeading :: freshSection, gap,
      [] :: between ++ p.unreleasedLink :: p.versionedLink :: below, hgap, ?_⟩
    simp [hout]
  · refine ⟨above ++ unreleasedHeading :: (freshSection ++
      p.versionHeading :: (gap ++ feedLines generated ++ [[]] ++ between)), below,
      by simp [hout], ?_⟩
    have hother : ∀ line ∈ above ++ unreleasedHeading :: (freshSection ++
        p.versionHeading :: (gap ++ feedLines generated ++ [[]] ++ between)) ++ below,
        (lit "[").isPrefixOf line = false ∨ Outside text line := by
      intro line hline
      rcases List.mem_append.mp hline with hline | hline
      · rcases List.mem_append.mp hline with hline | hline
        · exact .inr (habove line hline)
        rcases List.mem_cons.mp hline with rfl | hline
        · exact .inl (bracket_of_isReleaseHeading isReleaseHeading_heading)
        rcases List.mem_append.mp hline with hline | hline
        · exact .inl (freshSection_ordinary line hline).bracket
        rcases List.mem_cons.mp hline with rfl | hline
        · exact .inl (bracket_of_isReleaseHeading p.isReleaseHeading)
        rcases List.mem_append.mp hline with hline | hline
        · exact .inl (hplain line hline).bracket
        · exact .inr (hbetween line hline)
      · exact .inr (hbelow line hline)
    constructor
    · intro line hline
      rcases hother line hline with hline | hline
      · exact isUnreleasedLink_of_bracket hline
      · exact hline.link
    · intro hnew line hline
      rcases hother line hline with hline | hline
      · exact p.isLink_eq_false hline
      · exact hnew line hline.mem

theorem generated_lines {block : Block} (hblocks : ∀ b ∈ block :: blocks, b.Kept) :
    (∀ line ∈ feedLines (renderBlocks (block :: blocks)), Ordinary line) ∧
      ∃ rest, feedLines (renderBlocks (block :: blocks)) = block.1 :: rest := by
  rw [feedLines_renderBlocks hblocks (List.cons_ne_nil _ _)]
  exact ⟨blockLines_ordinary hblocks, blockLines_cons block blocks⟩

theorem isBlank_of_isHeader (h : isHeader line = true) : isBlank line = false := by
  rw [Bool.eq_false_iff]
  intro hblank
  have hmark := isPrefixOf_eq_false_of_blank (p := lit "### ") hblank (by decide +kernel)
  rw [isPrefixOf_of_isHeader h] at hmark
  cases hmark

theorem Shaped.composes {text : PyStr} {main footer : List PyStr} {block : Block}
    (h : Shaped text main footer)
    (hblocks : ∀ b ∈ block :: blocks, b.Kept) (p : Promotion) (hbelow : belowSection main ≠ [])
    (hfirst : ∀ line ∈ aboveHeading main, isUnreleased line = false) :
    Composes text main footer (renderBlocks (block :: blocks)) p := by
  obtain ⟨gap, placeholder, next, rest, hsection, hnext, hparted⟩ := h.parted hbelow hfirst
  obtain ⟨hordinary, others, hheader⟩ := generated_lines hblocks
  obtain ⟨inserted, hinserted, hlines⟩ := hparted.insert (renderBlocks (block :: blocks))
  obtain ⟨before, link, after, hfooter, hlink, habove, hkept, hbelowLink⟩ := h.footer_eq
  -- the same parts again, with the body for the placeholder
  have hfilled : Parted (feedLines inserted) (aboveHeading main) gap
      (feedLines (renderBlocks (block :: blocks)) ++ [[]]) next (rest ++ footer) := by
    constructor
    · simp [hlines]
    · exact hfirst
    · exact hparted.blank
    · intro line hline
      rcases List.mem_append.mp hline with hline | hline
      · exact (hordinary line hline).heading
      · obtain rfl := List.mem_singleton.mp hline
        exact (Ordinary.of_blank rfl).heading
    · intro line hline
      obtain rfl : block.1 = line := by simpa [hheader] using hline
      exact isBlank_of_isHeader (hblocks block (List.mem_cons_self ..)).header
    · exact hparted.heading
  have hbetween : ∀ line ∈ gap ++ feedLines (renderBlocks (block :: blocks)) ++
      [] :: (belowSection main ++ before), Untouched line := by
    intro line hline
    rcases List.mem_append.mp hline with hline | hline
    · rcases List.mem_append.mp hline with hline | hline
      · exact (Ordinary.of_blank (hparted.blank line hline)).untouched
      · exact (hordinary line hline).untouched
    · rcases List.mem_cons.mp hline with rfl | hline
      · exact (Ordinary.of_blank rfl).untouched
      · exact (hkept line hline).toUntouched
  have hsplit : feedLines inserted = aboveHeading main ++ unreleasedHeading ::
      (gap ++ feedLines (renderBlocks (block :: blocks)) ++ [] :: (belowSection main ++ before) ++
        link :: after) := by
    rw [hlines, hnext, hfooter]
    simp
  obtain ⟨out, hout, houtLines⟩ := promote_lines p hsplit hlink
    (fun line hline => (habove line hline).toUntouched) hbetween
    fun line hline => (hbelowLink line hline).toUntouched
  refine ⟨inserted, _, out, ⟨hinserted, gap, placeholder, hsection, hparted.blank, ?_⟩,
    ⟨hfilled.extract hblocks, ?_⟩, hout,
    .of_lines houtLines hparted.blank hordinary habove hkept hbelowLink⟩
  · rw [hlines, hnext]
    simp
  · have hnotes := feedLines_append (renderBlocks (block :: blocks)) []
    rw [hnotes]
    exact List.filter_sublist.trans (List.sublist_append_left _ _)

-- ---------------------------------------------------------------------------
-- Only there
-- ---------------------------------------------------------------------------

theorem not_noBullets {block : Block} (hblocks : ∀ b ∈ block :: blocks, b.Kept) {lines : List PyStr}
    (h : unreleasedSection lines = gap ++ feedLines (renderBlocks (block :: blocks)) ++ rest) :
    ¬ NoBullets lines := by
  obtain ⟨front, bullet, hbullet, hlines⟩ := blockLines_concat hblocks
  have hlast : lit "- " ++ bullet ∈ blockLines (block :: blocks) := by simp [hlines]
  have hmem : lit "- " ++ bullet ∈ unreleasedSection lines := by
    rw [h, feedLines_renderBlocks hblocks (List.cons_ne_nil _ _)]
    simp [hlast]
  have hpiece := mem_pieces_joinLines hmem (blockLines_line_break hblocks _ hlast)
  have hline := mem_splitlines_of_mem_pieces hpiece (by simp [hbullet.ne])
  intro hnone
  rw [NoBullets, List.any_eq_false] at hnone
  exact hnone _ hline hbullet.isBullet

theorem append_stops {left right rest tail : List PyStr}
    (h : left ++ right = rest ++ heading :: tail)
    (hleft : ∀ line ∈ left, isReleaseHeading line = false)
    (hheading : isReleaseHeading heading = true) :
    ∃ kept, rest = left ++ kept ∧ right = kept ++ heading :: tail := by
  rcases List.append_eq_append_iff.mp h with ⟨kept, hrest, hright⟩ | ⟨kept, hleftEq, hright⟩
  · exact ⟨kept, hrest, hright⟩
  · cases kept with
    | nil => exact ⟨[], by simpa using hleftEq.symm, by simpa using hright.symm⟩
    | cons first kept =>
      obtain rfl : heading = first := (List.cons.inj hright).1
      have hnot := hleft heading (by simp [hleftEq])
      rw [hheading] at hnot
      cases hnot

/-- From the first match above the heading on, the body takes the place of lines above the
heading only. -/
theorem Shaped.insert_above {text generated : PyStr} {main footer : List PyStr}
    (h : Shaped text main footer) (hline : line ∈ aboveHeading main)
    (hmatched : isUnreleased line = true)
    (hinserted : insertUnreleasedBody text generated = .ok inserted) :
    ∃ before kept, (∀ l ∈ before ++ kept, l ∈ aboveHeading main) ∧
      feedLines inserted = before ++ (feedLines generated ++ [] :: (kept ++ unreleasedHeading ::
        (unreleasedSection main ++ belowSection main ++ footer))) := by
  have hsome : ((aboveHeading main).find? isUnreleased).isSome = true :=
    List.find?_isSome.mpr ⟨line, hline, hmatched⟩
  obtain ⟨near, hnear⟩ := Option.isSome_iff_exists.mp hsome
  obtain ⟨hmatch, before, between, habove, hbefore⟩ := List.find?_eq_some_iff_append.mp hnear
  have htext := h.lines_eq
  generalize hsections : unreleasedSection main ++ belowSection main ++ footer = tail at htext ⊢
  rw [habove, List.append_assoc, List.cons_append] at htext
  have hgap := List.prefix_iff_eq_append.mp (passed_isPrefix (between ++ unreleasedHeading :: tail))
  obtain ⟨found, hfound, hfoundBefore, -, hafter⟩ := findUnreleased_first htext
    (fun l hl => by simpa using hbefore l hl) hmatch (by simp) hgap.symm
  obtain ⟨result, hresult, hlines⟩ := insert_lines hfound generated
  obtain rfl : result = inserted := Except.ok.inj (hresult.symm.trans hinserted)
  rw [← List.takeWhile_append_dropWhile (p := (!isReleaseHeading ·))
    (l := (between ++ unreleasedHeading :: tail).drop _), ← List.append_assoc] at hgap
  obtain ⟨kept, hbetween, hrest⟩ := append_stops hgap
    (by
      intro l hl
      rcases List.mem_append.mp hl with hl | hl
      · exact (Ordinary.of_blank (passed_blank _ l hl)).heading
      · simpa using List.mem_takeWhile_imp hl)
    isReleaseHeading_heading
  have hfeed : ∀ l ∈ found.after, lineFeed ∉ l := fun l hl => found.lineFeed_not_mem (by simp [hl])
  rw [hafter, hrest] at hfeed hlines
  rw [feedLines_joinLines hfeed (by simp), hfoundBefore] at hlines
  refine ⟨_, kept, ?_, hlines⟩
  intro l hl
  rw [habove, hbetween]
  simp only [List.mem_append, List.mem_cons] at hl ⊢
  tauto

section
variable {text inserted : PyStr} {main footer : List PyStr} {block : Block} {blocks : List Block}
  (h : Shaped text main footer) (hblocks : ∀ b ∈ block :: blocks, b.Kept)
  (hinserted : insertUnreleasedBody text (renderBlocks (block :: blocks)) = .ok inserted)
  (hreplaced : Replaced main footer (renderBlocks (block :: blocks)) inserted)
include h hblocks hinserted hreplaced

/-- A match above the heading would take the body: then the section below the heading would
already be the body. -/
theorem Shaped.unmatched_above : ∀ line ∈ aboveHeading main, isUnreleased line = false := by
  intro line hline
  rw [Bool.eq_false_iff]
  intro hmatched
  obtain ⟨before, kept, habove, hlines⟩ := h.insert_above hline hmatched hinserted
  obtain ⟨gap, placeholder, -, -, hsame⟩ := hreplaced
  obtain ⟨hnotAbove, hnotBelow⟩ := h.not_heading
  have hnotFirst :
      unreleasedHeading ∉ before ++ (feedLines (renderBlocks (block :: blocks)) ++ [] :: kept) := by
    intro hmem
    have hfalse : isUnreleasedHeading unreleasedHeading = false := by
      simp only [List.mem_append, List.mem_cons] at hmem
      rcases hmem with hmem | hmem | hmem | hmem
      · exact hnotAbove _ (habove _ (by simp [hmem]))
      · exact ((generated_lines hblocks).1 _ hmem).untouched.heading
      · exact absurd hmem (by decide +kernel)
      · exact hnotAbove _ (habove _ (by simp [hmem]))
    rw [isUnreleasedHeading_heading] at hfalse
    cases hfalse
  have hnotSecond : unreleasedHeading ∉ unreleasedSection main ++ belowSection main ++ footer := by
    intro hmem
    have hfalse := hnotBelow _ hmem
    rw [isUnreleasedHeading_heading] at hfalse
    cases hfalse
  have hboth :
      before ++ (feedLines (renderBlocks (block :: blocks)) ++ [] :: kept) ++
          unreleasedHeading :: (unreleasedSection main ++ belowSection main ++ footer) =
        aboveHeading main ++ unreleasedHeading ::
          (gap ++ feedLines (renderBlocks (block :: blocks)) ++ [[]] ++ belowSection main ++
            footer) := by
    rw [← hsame, hlines]
    simp
  obtain ⟨-, -, htail⟩ := (List.append_cons_inj_of_notMem hnotFirst hnotSecond).mp hboth
  have hsection := List.append_cancel_right (List.append_cancel_right htail)
  exact not_noBullets hblocks hsection h.noBullets

/-- Without a release heading below, the footer would be part of the body. -/
theorem Shaped.release_below : belowSection main ≠ [] := by
  intro hnil
  have hfirst := h.unmatched_above hblocks hinserted hreplaced
  obtain ⟨before, link, after, hfooter, hlink, habove, -, -⟩ := h.footer_eq
  obtain ⟨gap, placeholder, -, -, hsame⟩ := hreplaced
  have htext := h.lines_eq
  rw [hnil, List.append_nil] at htext
  have hgap := List.prefix_iff_eq_append.mp (passed_isPrefix (unreleasedSection main ++ footer))
  obtain ⟨found, hfound, hfoundBefore, -, hafter⟩ := findUnreleased_first htext hfirst
    isUnreleased_heading (by simp [hfooter]) hgap.symm
  obtain ⟨result, hresult, hlines⟩ := insert_lines hfound (renderBlocks (block :: blocks))
  obtain rfl : result = inserted := Except.ok.inj (hresult.symm.trans hinserted)
  have hnone : ∀ l ∈ unreleasedSection main ++ footer, isReleaseHeading l = false := by
    intro l hl
    rcases List.mem_append.mp hl with hl | hl
    · exact unreleasedSection_ordinary main l hl
    · exact isReleaseHeading_of_footer (h.footer l hl)
  rw [List.dropWhile_eq_nil_iff.mpr fun l hl => by
    simp [hnone l (List.mem_of_mem_drop hl)]] at hafter
  rw [hafter, hfoundBefore] at hlines
  have hmem : link ∈ feedLines result := by
    rw [hsame, hfooter]
    simp
  have huntouched : isUnreleasedLink link = false := by
    rw [hlines] at hmem
    rcases List.mem_append.mp hmem with hmem | hmem
    · rcases List.mem_append.mp hmem with hmem | hmem
      · exact (habove link hmem).link
      rcases List.mem_cons.mp hmem with rfl | hmem
      · exact isUnreleasedLink_of_isReleaseHeading isReleaseHeading_heading
      · exact (Ordinary.of_blank (passed_blank _ link hmem)).untouched.link
    · rcases List.mem_append.mp hmem with hmem | hmem
      · exact ((generated_lines hblocks).1 link hmem).untouched.link
      · obtain rfl : link = [] := by simpa [joinLines, feedLines] using hmem
        exact (Ordinary.of_blank rfl).untouched.link
  rw [hlink] at huntouched
  cases huntouched

end

/-- The steps compose on exactly the changelogs with a release heading below the section,
and above the heading no line that only white space tells from it. -/
theorem release_steps_compose {text generated : PyStr} {main footer : List PyStr} (p : Promotion)
    (h : Shaped text main footer) (hgenerated : dedupeGeneratedChanges generated ≠ []) :
    Composes text main footer (dedupeGeneratedChanges generated) p ↔
      belowSection main ≠ [] ∧ ∀ line ∈ aboveHeading main, isUnreleased line = false := by
  obtain ⟨blocks, hblocks, hrender⟩ := dedupe_blocks generated
  rw [hrender] at hgenerated ⊢
  cases blocks with
  | nil => exact absurd rfl hgenerated
  | cons block blocks =>
    constructor
    · rintro ⟨inserted, notes, out, ⟨hinserted, hreplaced⟩, -, -⟩
      exact ⟨h.release_below hblocks hinserted hreplaced,
        h.unmatched_above hblocks hinserted hreplaced⟩
    · rintro ⟨hbelow, hfirst⟩
      exact h.composes hblocks p hbelow hfirst

def releasedMain : List PyStr :=
  ["## [Unreleased]", "", "### Added", "-", "", "## [0.9.0] - 2025-01-01", "", "- init", ""].map lit

def releasedFooter : List PyStr :=
  ["[Unreleased]: https://example.com/compare/v0.9.0...HEAD",
    "[0.9.0]: https://example.com/releases/tag/v0.9.0", ""].map lit

def nextPromotion : Promotion where
  version := lit "1.0.0"
  tag := lit "v1.0.0"
  prevTag := lit "v0.9.0"
  firstRelease := false
  repo := lit "https://example.com"
  date := some (lit "2026-07-05")
  today := []
  plain := by decide +kernel

theorem release_steps_compose_second :
    Composes (joinLines (releasedMain ++ releasedFooter)) releasedMain releasedFooter
      (dedupeGeneratedChanges (lit "### Fixed\n- a bullet")) nextPromotion :=
  (release_steps_compose nextPromotion
    { lines := by decide +kernel
      heading := by decide +kernel
      link := by decide +kernel
      linkInFooter := by decide +kernel
      footer := by decide +kernel
      noBullets := by decide +kernel }
    (by decide +kernel)).mpr ⟨by decide +kernel, by decide +kernel⟩

-- ---------------------------------------------------------------------------
-- A first changelog
-- ---------------------------------------------------------------------------

def firstMain : List PyStr :=
  ["# Changelog", "", "## [Unreleased]", "", "### Added", "-", ""].map lit

def firstFooter : List PyStr :=
  ["[Unreleased]: https://example.com/compare/v0.0.0...HEAD", ""].map lit

def firstPromotion : Promotion where
  version := lit "1.0.0"
  tag := lit "v1.0.0"
  prevTag := lit "v0.0.0"
  firstRelease := true
  repo := lit "https://example.com"
  date := some (lit "2026-07-05")
  today := []
  plain := by decide +kernel

def firstFilled : PyStr := lit "# Changelog\n\n## [Unreleased]\n\n### Added\n- init\n\n"

/-- No release yet: the section runs to the end of the file, the generated body takes the
place of the footer too, and the promotion finds no link. -/
theorem first_release_loses_link :
    Shaped (joinLines (firstMain ++ firstFooter)) firstMain firstFooter ∧
      dedupeGeneratedChanges (lit "### Added\n- init") ≠ [] ∧
      insertUnreleasedBody (joinLines (firstMain ++ firstFooter))
        (dedupeGeneratedChanges (lit "### Added\n- init")) = .ok firstFilled ∧
      promoteUnreleased firstPromotion firstFilled =
        .error "Could not find '[Unreleased]: ...' reference link in CHANGELOG.md" ∧
      ¬ Composes (joinLines (firstMain ++ firstFooter)) firstMain firstFooter
        (dedupeGeneratedChanges (lit "### Added\n- init")) firstPromotion := by
  have hinsert : insertUnreleasedBody (joinLines (firstMain ++ firstFooter))
      (dedupeGeneratedChanges (lit "### Added\n- init")) = .ok firstFilled := by decide +kernel
  have hpromote : promoteUnreleased firstPromotion firstFilled =
      .error "Could not find '[Unreleased]: ...' reference link in CHANGELOG.md" := by
    decide +kernel
  refine ⟨?_, by decide +kernel, hinsert, hpromote, ?_⟩
  · constructor
    · decide +kernel
    · decide +kernel
    · decide +kernel
    · decide +kernel
    · decide +kernel
    · decide +kernel
  · rintro ⟨inserted, notes, out, ⟨hinserted, -⟩, -, hout, -⟩
    obtain rfl : inserted = firstFilled := Except.ok.inj (hinserted.symm.trans hinsert)
    rw [hpromote] at hout
    cases hout

end ProcessKit.Release

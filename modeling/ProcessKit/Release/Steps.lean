import ProcessKit.Release.Notes

/-!
# What each step does to the lines

The section of a changelog as a reader sees it: under the line `## [Unreleased]`, down to the
next release heading. Where a search finds this section, the three steps are equations
between the lines of their input and their output.
-/

namespace ProcessKit.Release

open Python

-- ---------------------------------------------------------------------------
-- The section
-- ---------------------------------------------------------------------------

def aboveHeading (lines : List PyStr) : List PyStr := lines.takeWhile (!isUnreleasedHeading ·)

def belowHeading (lines : List PyStr) : List PyStr :=
  (lines.dropWhile (!isUnreleasedHeading ·)).tail

def unreleasedSection (lines : List PyStr) : List PyStr :=
  (belowHeading lines).takeWhile (!isReleaseHeading ·)

def belowSection (lines : List PyStr) : List PyStr :=
  (belowHeading lines).dropWhile (!isReleaseHeading ·)

theorem isUnreleased_heading : isUnreleased unreleasedHeading = true := by decide +kernel

theorem isUnreleasedHeading_heading : isUnreleasedHeading unreleasedHeading = true :=
  beq_self_eq_true _

theorem isReleaseHeading_heading : isReleaseHeading unreleasedHeading = true :=
  isReleaseHeading_of_isUnreleased isUnreleased_heading

theorem isUnreleasedHeading_of_ordinary (h : isReleaseHeading line = false) :
    isUnreleasedHeading line = false := by
  apply beq_eq_false_iff_ne.mpr
  rintro rfl
  rw [isReleaseHeading_heading] at h
  cases h

theorem lines_eq_section (h : unreleasedHeading ∈ lines) :
    lines = aboveHeading lines ++ unreleasedHeading ::
      (unreleasedSection lines ++ belowSection lines) := by
  have hbelow : unreleasedSection lines ++ belowSection lines = belowHeading lines :=
    List.takeWhile_append_dropWhile
  rw [hbelow, aboveHeading, belowHeading]
  induction lines with
  | nil => cases h
  | cons line lines ih =>
    cases hline : isUnreleasedHeading line with
    | false =>
      have hne : line ≠ unreleasedHeading := beq_eq_false_iff_ne.mp hline
      have hmem := (List.mem_cons.mp h).resolve_left (Ne.symm hne)
      simp only [List.takeWhile_cons, List.dropWhile_cons, hline, Bool.not_false, if_true]
      exact congrArg (line :: ·) (ih hmem List.takeWhile_append_dropWhile)
    | true =>
      obtain rfl : line = unreleasedHeading := beq_iff_eq.mp hline
      rw [List.takeWhile_cons_of_neg (by simp [hline]),
        List.dropWhile_cons_of_neg (by simp [hline])]
      rfl

theorem belowHeading_append (h : ∀ line ∈ above, isUnreleasedHeading line = false)
    (below : List PyStr) :
    belowHeading (above ++ unreleasedHeading :: below) = below := by
  have hskip : ∀ line ∈ above, (!isUnreleasedHeading line) = true := fun l hl => by simp [h l hl]
  rw [belowHeading, List.dropWhile_append_of_pos hskip,
    List.dropWhile_cons_of_neg (by simp [isUnreleasedHeading_heading])]
  rfl

theorem takeWhile_releaseHeading (h : ∀ line ∈ own, isReleaseHeading line = false)
    (hnext : isReleaseHeading next = true) (rest : List PyStr) :
    (own ++ next :: rest).takeWhile (!isReleaseHeading ·) = own ∧
      (own ++ next :: rest).dropWhile (!isReleaseHeading ·) = next :: rest := by
  have hown : ∀ line ∈ own, (!isReleaseHeading line) = true := fun l hl => by simp [h l hl]
  constructor
  · rw [List.takeWhile_append_of_pos hown, List.takeWhile_cons_of_neg (by simp [hnext]),
      List.append_nil]
  · rw [List.dropWhile_append_of_pos hown, List.dropWhile_cons_of_neg (by simp [hnext])]

theorem unreleasedSection_append (habove : ∀ line ∈ above, isUnreleasedHeading line = false)
    (hown : ∀ line ∈ own, isReleaseHeading line = false) (hnext : isReleaseHeading next = true)
    (rest : List PyStr) :
    unreleasedSection (above ++ unreleasedHeading :: (own ++ next :: rest)) = own := by
  rw [unreleasedSection, belowHeading_append habove, (takeWhile_releaseHeading hown hnext rest).1]

theorem unreleasedSection_ordinary (lines : List PyStr) :
    ∀ line ∈ unreleasedSection lines, isReleaseHeading line = false := by
  intro line hline
  simpa using List.mem_takeWhile_imp hline

theorem belowSection_cons (h : belowSection lines ≠ []) :
    ∃ next rest, belowSection lines = next :: rest ∧ isReleaseHeading next = true := by
  obtain ⟨next, rest, hbelow⟩ := List.exists_cons_of_ne_nil h
  refine ⟨next, rest, hbelow, ?_⟩
  have hhead := List.head_dropWhile_not (!isReleaseHeading ·) h
  have hnext : (belowSection lines).head h = next := by simp [hbelow]
  rw [← hnext]
  simpa [belowSection] using hhead

-- ---------------------------------------------------------------------------
-- The search
-- ---------------------------------------------------------------------------

theorem passed_blank (lines : List PyStr) : ∀ line ∈ passed lines, isBlank line = true := by
  induction lines with
  | nil => exact List.forall_mem_nil _
  | cons line rest ih =>
    cases rest with
    | nil => exact List.forall_mem_nil _
    | cons next rest =>
      rw [passed]
      split
      · next hblank => exact List.forall_mem_cons.mpr ⟨hblank, ih⟩
      · exact List.forall_mem_nil _

theorem passed_append (hgap : ∀ l ∈ gap, isBlank l = true) (hline : isBlank line = false)
    (rest : List PyStr) : passed (gap ++ line :: rest) = gap := by
  induction gap with
  | nil =>
    cases rest with
    | nil => rfl
    | cons next rest => simp [passed, hline]
  | cons first gap ih =>
    obtain ⟨hfirst, hrest⟩ := List.forall_mem_cons.mp hgap
    have hpassed := ih hrest
    cases gap with
    | nil =>
      rw [List.nil_append] at hpassed
      rw [List.cons_append, List.nil_append, passed, if_pos hfirst, hpassed]
    | cons second gap =>
      rw [List.cons_append] at hpassed
      rw [List.cons_append, List.cons_append, passed, if_pos hfirst, hpassed]

/-- The first line that may head the section does, where a line follows it. -/
theorem findUnreleased_first (hlines : lines = above ++ line :: below)
    (habove : ∀ l ∈ above, isUnreleased l = false) (hline : isUnreleased line = true)
    (hbelow : below ≠ []) (hgap : below = passed below ++ more) :
    ∃ found, findUnreleased lines = some found ∧
      found.before = above ++ line :: passed below ∧
      found.body = more.takeWhile (!isReleaseHeading ·) ∧
      found.after = more.dropWhile (!isReleaseHeading ·) := by
  induction above generalizing lines with
  | nil =>
    obtain rfl := hlines
    have hfirst : (isUnreleased line && !below.isEmpty) = true := by simp [hline, hbelow]
    have hmore : below.drop (passed below).length = more :=
      (congrArg (List.drop (passed below).length) hgap).trans List.drop_left
    refine ⟨.below line below, ?_, rfl, ?_, ?_⟩
    · show findUnreleased (line :: below) = _
      rw [findUnreleased, if_pos hfirst]
    · exact congrArg (List.takeWhile (!isReleaseHeading ·)) hmore
    · exact congrArg (List.dropWhile (!isReleaseHeading ·)) hmore
  | cons first above ih =>
    obtain rfl := hlines
    obtain ⟨hfirst, hrest⟩ := List.forall_mem_cons.mp habove
    obtain ⟨found, hfound, hbefore, hbody, hafter⟩ := ih rfl hrest
    refine ⟨.cons first found, ?_, ?_, hbody, hafter⟩
    · show findUnreleased (first :: (above ++ line :: below)) = _
      rw [findUnreleased, if_neg (by simp [hfirst]), hfound]
      rfl
    · exact congrArg (first :: ·) hbefore

/-- The parts of a changelog with a release heading below the section: the search finds them. -/
structure Parted (lines above gap body : List PyStr) (next : PyStr) (after : List PyStr) :
    Prop where
  eq : lines = above ++ unreleasedHeading :: (gap ++ (body ++ next :: after))
  unmatched : ∀ line ∈ above, isUnreleased line = false
  blank : ∀ line ∈ gap, isBlank line = true
  ordinary : ∀ line ∈ body, isReleaseHeading line = false
  starts : ∀ line ∈ (body ++ [next]).head?, isBlank line = false
  heading : isReleaseHeading next = true

theorem Parted.found (h : Parted lines above gap body next after) :
    ∃ found, findUnreleased lines = some found ∧ found.before = above ++ unreleasedHeading :: gap ∧
      found.body = body ∧ found.after = next :: after := by
  have hpassed : passed (gap ++ (body ++ next :: after)) = gap := by
    cases hbody : body with
    | nil => exact passed_append h.blank (h.starts next (by simp [hbody])) after
    | cons line rest => exact passed_append h.blank (h.starts line (by simp [hbody])) _
  obtain ⟨htake, hdrop⟩ := takeWhile_releaseHeading h.ordinary h.heading after
  have hmore : gap ++ (body ++ next :: after) =
      passed (gap ++ (body ++ next :: after)) ++ (body ++ next :: after) := by rw [hpassed]
  obtain ⟨found, hfound, hparts⟩ :=
    findUnreleased_first h.eq h.unmatched isUnreleased_heading (by simp) hmore
  rw [hpassed, htake, hdrop] at hparts
  exact ⟨found, hfound, hparts⟩

theorem Section.lineFeed_not_mem {text line : PyStr} (found : Section (feedLines text))
    (h : line ∈ found.before ++ found.body ++ found.after) : lineFeed ∉ line := by
  rw [found.whole] at h
  exact lineFeed_not_mem_feedLines h

-- ---------------------------------------------------------------------------
-- insert_unreleased_body
-- ---------------------------------------------------------------------------

theorem lit_feeds : lit "\n\n" = [lineFeed, lineFeed] := by decide +kernel

/-- The lines of group 1 give way to those of the body and an empty one. Where nothing stands
below the section, the end of the text is one line more. -/
theorem insert_lines {text : PyStr} {found : Section (feedLines text)}
    (h : findUnreleased (feedLines text) = some found) (generated : PyStr) :
    ∃ inserted, insertUnreleasedBody text generated = .ok inserted ∧
      feedLines inserted =
        found.before ++ (feedLines generated ++ [] :: feedLines (joinLines found.after)) := by
  refine ⟨_, by rw [insertUnreleasedBody, h], ?_⟩
  have hbefore : ∀ line ∈ found.before, lineFeed ∉ line :=
    fun line hline => found.lineFeed_not_mem (by simp [hline])
  have hnil : feedLines [] = [[]] := rfl
  have hbody : generated ++ lit "\n\n" ++ joinLines found.after =
      generated ++ lineFeed :: ([] ++ lineFeed :: joinLines found.after) := by simp [lit_feeds]
  rw [List.append_assoc, List.append_assoc, ← List.append_assoc generated, hbody,
    feedLines_endLines_append hbefore, feedLines_append, feedLines_append, hnil]
  rfl

theorem Parted.insert {text : PyStr} (h : Parted (feedLines text) above gap body next after)
    (generated : PyStr) :
    ∃ inserted, insertUnreleasedBody text generated = .ok inserted ∧
      feedLines inserted =
        above ++ unreleasedHeading :: (gap ++ (feedLines generated ++ [] :: next :: after)) := by
  obtain ⟨found, hfound, hbefore, -, hafter⟩ := h.found
  obtain ⟨inserted, hinserted, hlines⟩ := insert_lines hfound generated
  refine ⟨inserted, hinserted, ?_⟩
  have hfeed : ∀ line ∈ found.after, lineFeed ∉ line :=
    fun line hline => found.lineFeed_not_mem (by simp [hline])
  rw [hafter] at hfeed hlines
  rw [feedLines_joinLines hfeed (List.cons_ne_nil _ _), hbefore] at hlines
  simpa using hlines

-- ---------------------------------------------------------------------------
-- extract_release_notes
-- ---------------------------------------------------------------------------

theorem Parted.unreleasedBody {text : PyStr}
    (h : Parted (feedLines text) above gap body next after) :
    unreleasedBody text = endLines body := by
  obtain ⟨found, hfound, -, hbody, hafter⟩ := h.found
  simp [Release.unreleasedBody, hfound, Section.group, hbody, hafter]

theorem Parted.extract {text : PyStr} {block : Block} (hblocks : ∀ b ∈ block :: blocks, b.Kept)
    (h : Parted (feedLines text) above gap
      (feedLines (renderBlocks (block :: blocks)) ++ [[]]) next after) :
    extractReleaseNotes text = .ok (renderBlocks (block :: blocks) ++ [lineFeed]) := by
  apply extractReleaseNotes_body hblocks
  rw [h.unreleasedBody, endLines_eq_joinLines (by simp), joinLines_concat,
    endLines_eq_joinLines (feedLines_ne_nil _), joinLines_feedLines]
  simp

-- ---------------------------------------------------------------------------
-- promote_unreleased
-- ---------------------------------------------------------------------------

/-- The empty section that a promotion opens, below its heading. -/
def freshSection : List PyStr :=
  ["", "### Added", "-", "", "### Changed", "-", "", "### Fixed", "-", ""].map lit

theorem Promotion.versionHeading_plain (p : Promotion) : lineFeed ∉ p.versionHeading := by
  have hversion := (p.plain p.version (by simp)).2
  have hdate := (p.plain (p.date.getD p.today) (by simp)).2
  have hleft : lineFeed ∉ lit "## [" := by decide +kernel
  have hright : lineFeed ∉ lit "] - " := by decide +kernel
  simp [Promotion.versionHeading, hversion, hdate, hleft, hright]

theorem Promotion.newUnreleased_lines (p : Promotion) :
    feedLines p.newUnreleased = unreleasedHeading :: (freshSection ++ [p.versionHeading]) := by
  have hopen : lit "## [Unreleased]\n\n" ++ lit "### Added\n-\n\n" ++ lit "### Changed\n-\n\n" ++
      lit "### Fixed\n-\n\n" = endLines (unreleasedHeading :: freshSection) := by decide +kernel
  have hplain : ∀ line ∈ unreleasedHeading :: freshSection, lineFeed ∉ line := by decide +kernel
  rw [Promotion.newUnreleased, hopen, feedLines_endLines_append hplain,
    feedLines_eq_singleton p.versionHeading_plain]
  rfl

theorem Promotion.links_lines (p : Promotion) :
    feedLines (p.unreleasedLink ++ lineFeed :: p.versionedLink) =
      [p.unreleasedLink, p.versionedLink] := by
  have hversion := (p.plain p.version (by simp)).2
  have htag := (p.plain p.tag (by simp)).2
  have hprev := (p.plain p.prevTag (by simp)).2
  have hrepo := (p.plain p.repo (by simp)).2
  have hunreleased : lineFeed ∉ p.unreleasedLink := by
    have hparts : lineFeed ∉ lit "[Unreleased]: " ∧ lineFeed ∉ lit "/compare/" ∧
        lineFeed ∉ lit "...HEAD" := by decide +kernel
    simp [Promotion.unreleasedLink, htag, hrepo, hparts]
  have hversioned : lineFeed ∉ p.versionedLink := by
    have hparts : lineFeed ∉ lit "[" ∧ lineFeed ∉ lit "]: " ∧ lineFeed ∉ lit "/releases/tag/" ∧
        lineFeed ∉ lit "/compare/" ∧ lineFeed ∉ lit "..." := by decide +kernel
    rw [Promotion.versionedLink]
    split
    · simp [hversion, htag, hrepo, hparts]
    · simp [hversion, htag, hprev, hrepo, hparts]
  rw [feedLines_append, feedLines_eq_singleton hunreleased, feedLines_eq_singleton hversioned]
  rfl

theorem Promotion.versionHeading_ne (p : Promotion) : p.versionHeading ≠ unreleasedHeading := by
  have hheading : unreleasedHeading = lit "## [" ++ lit "Unreleased]" := by decide +kernel
  rw [Promotion.versionHeading, hheading, List.append_assoc, List.append_assoc]
  intro he
  have hspace : space ∈ lit "Unreleased]" := by
    rw [← List.append_cancel_left he]
    have hmark : space ∈ lit "] - " := by decide +kernel
    simp [hmark]
  exact absurd hspace (by decide +kernel)

theorem Promotion.isReleaseHeading (p : Promotion) : isReleaseHeading p.versionHeading = true := by
  rw [Promotion.versionHeading, List.append_assoc, List.append_assoc]
  exact List.isPrefixOf_iff_prefix.mpr (List.prefix_append _ _)

structure Untouched (line : PyStr) : Prop where
  heading : isUnreleasedHeading line = false
  link : isUnreleasedLink line = false

theorem isUnreleasedLink_of_bracket (h : (lit "[").isPrefixOf line = false) :
    isUnreleasedLink line = false := by
  rw [Bool.eq_false_iff]
  intro hlink
  rw [isPrefixOf_trans (by decide +kernel) hlink] at h
  cases h

theorem Ordinary.untouched (h : Ordinary line) : Untouched line :=
  ⟨isUnreleasedHeading_of_ordinary h.heading, isUnreleasedLink_of_bracket h.bracket⟩

theorem bracket_of_isReleaseHeading (h : isReleaseHeading line = true) :
    (lit "[").isPrefixOf line = false :=
      isPrefixOf_eq_false h (by decide +kernel) (by decide +kernel)

theorem isUnreleasedLink_of_isReleaseHeading (h : isReleaseHeading line = true) :
    isUnreleasedLink line = false := isUnreleasedLink_of_bracket (bracket_of_isReleaseHeading h)

theorem freshSection_ordinary : ∀ line ∈ freshSection, Ordinary line := by
  have hheading : ∀ line ∈ freshSection, isReleaseHeading line = false := by decide +kernel
  have hbracket : ∀ line ∈ freshSection, (lit "[").isPrefixOf line = false := by decide +kernel
  exact fun line hline => ⟨hheading line hline, hbracket line hline⟩

theorem Promotion.versionHeading_untouched (p : Promotion) : Untouched p.versionHeading :=
  ⟨beq_eq_false_iff_ne.mpr p.versionHeading_ne,
    isUnreleasedLink_of_isReleaseHeading p.isReleaseHeading⟩

theorem promote_lines (p : Promotion) {text : PyStr}
    (htext : feedLines text = above ++ unreleasedHeading :: (between ++ link :: below))
    (hlink : isUnreleasedLink link = true)
    (habove : ∀ line ∈ above, Untouched line) (hbetween : ∀ line ∈ between, Untouched line)
    (hbelow : ∀ line ∈ below, Untouched line) :
    ∃ out, promoteUnreleased p text = .ok out ∧
      feedLines out = above ++ unreleasedHeading ::
        (freshSection ++
          p.versionHeading :: (between ++ p.unreleasedLink :: p.versionedLink :: below)) := by
  have hlinkne : isUnreleasedHeading link = false := by
    apply beq_eq_false_iff_ne.mpr
    rintro rfl
    rw [isUnreleasedLink_of_isReleaseHeading isReleaseHeading_heading] at hlink
    cases hlink
  have hrest : ∀ line ∈ between ++ link :: below, isUnreleasedHeading line = false := by
    intro line hline
    rcases List.mem_append.mp hline with hline | hline
    · exact (hbetween line hline).heading
    · rcases List.mem_cons.mp hline with rfl | hline
      · exact hlinkne
      · exact (hbelow line hline).heading
  obtain ⟨hfirst, hone⟩ := subLines_one p.newUnreleased htext isUnreleasedHeading_heading
    (fun line hline => (habove line hline).heading) hrest
  rw [p.newUnreleased_lines, ← List.append_assoc] at hfirst
  have hupper :
      ∀ line ∈ above ++ unreleasedHeading :: (freshSection ++ [p.versionHeading]) ++ between,
      isUnreleasedLink line = false := by
    intro line hline
    rcases List.mem_append.mp hline with hline | hline
    · rcases List.mem_append.mp hline with hline | hline
      · exact (habove line hline).link
      · rcases List.mem_cons.mp hline with rfl | hline
        · exact isUnreleasedLink_of_isReleaseHeading isReleaseHeading_heading
        · rcases List.mem_append.mp hline with hline | hline
          · exact (freshSection_ordinary line hline).untouched.link
          · obtain rfl := List.mem_singleton.mp hline
            exact p.versionHeading_untouched.link
    · exact (hbetween line hline).link
  obtain ⟨hsecond, htwo⟩ :=
    subLines_one (p.unreleasedLink ++ lineFeed :: p.versionedLink) hfirst hlink
    hupper fun line hline => (hbelow line hline).link
  have hout : promoteUnreleased p text = .ok (subLines isUnreleasedLink
      (p.unreleasedLink ++ lineFeed :: p.versionedLink)
      (subLines isUnreleasedHeading p.newUnreleased text).1).1 := by
    simp [promoteUnreleased, hone, htwo]
  refine ⟨_, hout, ?_⟩
  rw [hsecond, p.links_lines]
  simp

end ProcessKit.Release

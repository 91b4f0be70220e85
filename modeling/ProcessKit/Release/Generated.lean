import ProcessKit.Release.Changelog

/-!
# Generated bodies

What `dedupe_generated_changes` returns is the text of blocks, each a header over one or
more bullets: its loop keeps no other, and the text is read back as the lines of the blocks.
-/

namespace ProcessKit.Release

open Python

/-- A bullet as it is kept: stripped, not empty, on one line. -/
structure NormalBullet (bullet : PyStr) : Prop where
  ne : bullet ≠ []
  stripped : Stripped bullet
  line : ∀ c ∈ bullet, isLineBreak c = false

structure Block.Normal (block : Block) : Prop where
  header : isHeader block.1 = true
  line : ∀ c ∈ block.1, isLineBreak c = false
  bullets : ∀ bullet ∈ block.2, NormalBullet bullet

structure Block.Kept (block : Block) : Prop extends Block.Normal block where
  ne : block.2 ≠ []

-- ---------------------------------------------------------------------------
-- The loop
-- ---------------------------------------------------------------------------

structure Dedupe.Normal (state : Dedupe) : Prop where
  blocks : ∀ block ∈ state.blocks, block.Normal
  header : ∀ header ∈ state.header, isHeader header = true ∧ ∀ c ∈ header, isLineBreak c = false
  bullets : ∀ bullet ∈ state.bullets, NormalBullet bullet

theorem Dedupe.start_normal : Dedupe.start.Normal :=
  ⟨List.forall_mem_nil _, fun _ h => absurd h (Option.not_mem_none _), List.forall_mem_nil _⟩

theorem Dedupe.Normal.flush {state : Dedupe} (h : state.Normal) :
    ∀ block ∈ state.flush, block.Normal := by
  intro block hblock
  rw [Dedupe.flush] at hblock
  split at hblock
  · exact h.blocks block hblock
  · next header hheader =>
    obtain ⟨hshape, hline⟩ := h.header header hheader
    rcases List.mem_append.mp hblock with hblock | hblock
    · exact h.blocks block hblock
    · obtain rfl := List.mem_singleton.mp hblock
      exact ⟨hshape, hline, h.bullets⟩

theorem generatedBullet_subset (h : generatedBullet line = some group) : group ⊆ line := by
  cases line with
  | nil => cases h
  | cons c rest =>
    rw [generatedBullet] at h
    split at h
    · obtain rfl := Option.some.inj h
      exact fun b hb => List.mem_cons_of_mem _ ((List.dropWhile_suffix _).subset hb)
    · cases h

theorem Dedupe.Normal.step {state : Dedupe} {line : PyStr} (h : state.Normal)
    (hline : ∀ c ∈ line, isLineBreak c = false) : (state.step line).Normal := by
  rw [Dedupe.step]
  split
  · next hheader =>
    refine ⟨h.flush, ?_, List.forall_mem_nil _⟩
    rintro header hmem
    obtain rfl := Option.some.inj hmem
    exact ⟨hheader, hline⟩
  · cases hgroup : generatedBullet line with
    | none => exact h
    | some group =>
      show Dedupe.Normal (if _ then _ else _)
      split
      · next hnew =>
        refine ⟨h.blocks, h.header, ?_⟩
        intro bullet hmem
        rcases List.mem_append.mp hmem with hmem | hmem
        · exact h.bullets bullet hmem
        · obtain rfl := List.mem_singleton.mp hmem
          refine ⟨hnew.1, stripped_strip group, ?_⟩
          intro c hc
          exact hline c (generatedBullet_subset hgroup (strip_subset group hc))
      · exact h

theorem Dedupe.Normal.run {state : Dedupe} {lines : List PyStr} (h : state.Normal)
    (hlines : ∀ line ∈ lines, ∀ c ∈ line, isLineBreak c = false) :
    (lines.foldl Dedupe.step state).Normal := by
  induction lines generalizing state with
  | nil => exact h
  | cons line lines ih =>
    obtain ⟨hline, hrest⟩ := List.forall_mem_cons.mp hlines
    exact ih (h.step hline) hrest

-- ---------------------------------------------------------------------------
-- The lines of a body
-- ---------------------------------------------------------------------------

/-- Blocks stand apart by one empty line. -/
def blockLines (blocks : List Block) : List PyStr := [[]].intercalate (blocks.map Block.lines)

theorem Block.lines_ne_nil (block : Block) : block.lines ≠ [] := List.cons_ne_nil _ _

theorem blockLines_cons_cons (block next : Block) (rest : List Block) :
    blockLines (block :: next :: rest) = block.lines ++ [] :: blockLines (next :: rest) := by
  simp [blockLines]

theorem blockLines_ne_nil (block : Block) (rest : List Block) :
    blockLines (block :: rest) ≠ [] := by
  cases rest with
  | nil => simp [blockLines, Block.lines]
  | cons next rest => simp [blockLines_cons_cons, Block.lines]

theorem renderBlocks_eq (blocks : List Block) :
    renderBlocks blocks = joinLines (blockLines blocks) := by
  induction blocks with
  | nil => rfl
  | cons block rest ih =>
    cases rest with
    | nil => simp [renderBlocks, blockLines]
    | cons next rest =>
      have hfeeds : lit "\n\n" = [lineFeed, lineFeed] := by decide +kernel
      have hnext := blockLines_ne_nil next rest
      rw [blockLines_cons_cons, joinLines_append block.lines_ne_nil (List.cons_ne_nil _ _),
        joinLines_cons [] hnext, ← ih]
      simp [renderBlocks, hfeeds]

theorem blockLines_forall {P : PyStr → Prop} (h : ∀ block ∈ blocks, ∀ line ∈ block.lines, P line)
    (hempty : P []) : ∀ line ∈ blockLines blocks, P line := by
  induction blocks with
  | nil => exact List.forall_mem_nil _
  | cons block rest ih =>
    obtain ⟨hblock, hrest⟩ := List.forall_mem_cons.mp h
    cases rest with
    | nil => simpa [blockLines] using hblock
    | cons next rest =>
      intro line hline
      rw [blockLines_cons_cons, List.mem_append, List.mem_cons] at hline
      rcases hline with hline | rfl | hline
      · exact hblock line hline
      · exact hempty
      · exact ih hrest line hline

theorem lit_bullet : lit "- " = [hyphen, space] := by decide +kernel

theorem NormalBullet.isBullet (h : NormalBullet bullet) : isBullet (lit "- " ++ bullet) = true := by
  obtain ⟨first, rest, rfl⟩ := List.exists_cons_of_ne_nil h.ne
  have hfirst : isSpace first = false := h.stripped.1
  have hspace : isSpace space = true := by decide
  simp [lit_bullet, Release.isBullet, hfirst, hspace]

theorem Block.Normal.line_break {block : Block} (h : block.Normal) :
    ∀ line ∈ block.lines, ∀ c ∈ line, isLineBreak c = false := by
  intro line hline
  rcases List.mem_cons.mp hline with rfl | hline
  · exact h.line
  · obtain ⟨bullet, hbullet, rfl⟩ := List.mem_map.mp hline
    intro c hc
    rcases List.mem_append.mp hc with hc | hc
    · rw [lit_bullet] at hc
      rcases List.mem_pair.mp hc with rfl | rfl
      · decide
      · decide
    · exact (h.bullets bullet hbullet).line c hc

theorem lineFeed_not_mem {line : PyStr} (h : ∀ c ∈ line, isLineBreak c = false) :
    lineFeed ∉ line := by
  intro hmem
  exact absurd (h lineFeed hmem) (by decide)

section
variable {blocks : List Block} (h : ∀ block ∈ blocks, block.Kept)
include h

theorem blockLines_line_break : ∀ line ∈ blockLines blocks, ∀ c ∈ line, isLineBreak c = false :=
  blockLines_forall (fun block hblock => (h block hblock).line_break) (List.forall_mem_nil _)

theorem feedLines_renderBlocks (hne : blocks ≠ []) :
    feedLines (renderBlocks blocks) = blockLines blocks := by
  obtain ⟨block, rest, rfl⟩ := List.exists_cons_of_ne_nil hne
  rw [renderBlocks_eq]
  apply feedLines_joinLines _ (blockLines_ne_nil block rest)
  exact fun line hline => lineFeed_not_mem (blockLines_line_break h line hline)

end

-- ---------------------------------------------------------------------------
-- Kinds of lines
-- ---------------------------------------------------------------------------

theorem isReleaseHeading_of_isUnreleased (h : isUnreleased line = true) :
    isReleaseHeading line = true :=
  isPrefixOf_trans (by decide +kernel) (Bool.and_eq_true_iff.mp h).1

theorem isPrefixOf_of_isHeader (h : isHeader line = true) : (lit "### ").isPrefixOf line = true :=
  (Bool.and_eq_true_iff.mp h).1

theorem isPrefixOf_of_isBullet (h : isBullet line = true) : (lit "-").isPrefixOf line = true := by
  cases line with
  | nil => cases h
  | cons c rest =>
    have hhyphen : lit "-" = [hyphen] := by decide +kernel
    simp only [isBullet, Bool.and_eq_true, beq_iff_eq] at h
    simp [hhyphen, h.1.1]

theorem isPrefixOf_eq_false_of_blank {p line : PyStr} (h : isBlank line = true)
    (hp : p.head?.all isSpace = false) : p.isPrefixOf line = false := by
  cases p with
  | nil => cases hp
  | cons c p =>
    cases line with
    | nil => rfl
    | cons d line =>
      have hd : isSpace d = true := (Bool.and_eq_true_iff.mp h).1
      have hc : isSpace c = false := hp
      have hne : (c == d) = false := by
        rw [beq_eq_false_iff_ne]
        rintro rfl
        rw [hd] at hc
        cases hc
      show (c == d && p.isPrefixOf line) = false
      rw [hne, Bool.false_and]

/-- A line that begins neither a release heading nor a link. -/
structure Ordinary (line : PyStr) : Prop where
  heading : isReleaseHeading line = false
  bracket : (lit "[").isPrefixOf line = false

theorem Ordinary.of_isHeader (h : isHeader line = true) : Ordinary line where
  heading := isPrefixOf_eq_false (isPrefixOf_of_isHeader h) (by decide +kernel) (by decide +kernel)
  bracket := isPrefixOf_eq_false (isPrefixOf_of_isHeader h) (by decide +kernel) (by decide +kernel)

theorem Ordinary.of_isBullet (h : isBullet line = true) : Ordinary line where
  heading := isPrefixOf_eq_false (isPrefixOf_of_isBullet h) (by decide +kernel) (by decide +kernel)
  bracket := isPrefixOf_eq_false (isPrefixOf_of_isBullet h) (by decide +kernel) (by decide +kernel)

theorem Ordinary.of_blank (h : isBlank line = true) : Ordinary line where
  heading := isPrefixOf_eq_false_of_blank h (by decide +kernel)
  bracket := isPrefixOf_eq_false_of_blank h (by decide +kernel)

theorem isHeader_eq_false_of_isBullet (h : isBullet line = true) : isHeader line = false := by
  rw [isHeader,
    isPrefixOf_eq_false (isPrefixOf_of_isBullet h) (by decide +kernel) (by decide +kernel)]
  rfl

theorem Block.Normal.isBullet {block : Block} (h : block.Normal) :
    ∀ line ∈ block.bulletLines, isBullet line = true := by
  intro line hline
  obtain ⟨bullet, hbullet, rfl⟩ := List.mem_map.mp hline
  exact (h.bullets bullet hbullet).isBullet

theorem Block.Normal.not_header {block : Block} (h : block.Normal) :
    ∀ line ∈ block.bulletLines, isHeader line = false :=
  fun line hline => isHeader_eq_false_of_isBullet (h.isBullet line hline)

theorem Block.Kept.bulletLines_ne_nil {block : Block} (h : block.Kept) :
    block.bulletLines ≠ [] := by
  simpa [Block.bulletLines] using h.ne

theorem blockLines_ordinary (h : ∀ block ∈ blocks, block.Kept) :
    ∀ line ∈ blockLines blocks, Ordinary line := by
  apply blockLines_forall
  · intro block hblock line hline
    rcases List.mem_cons.mp hline with rfl | hline
    · exact .of_isHeader (h block hblock).header
    · exact .of_isBullet ((h block hblock).isBullet line hline)
  · exact .of_blank rfl

-- ---------------------------------------------------------------------------
-- The notes of a body
-- ---------------------------------------------------------------------------

theorem sectionNotes_append_nil (inBullet : Bool) (lines : List PyStr) :
    sectionNotes inBullet (lines ++ [[]]) = sectionNotes inBullet lines := by
  induction lines generalizing inBullet with
  | nil => cases inBullet <;> rfl
  | cons line lines ih =>
    simp only [List.cons_append, sectionNotes, ih]

theorem sectionNotes_splitlines (inBullet : Bool) (text : PyStr) :
    sectionNotes inBullet (splitlines text) = sectionNotes inBullet (pieces text) := by
  rw [splitlines]
  split
  · next hlast =>
    conv => rhs; rw [← List.dropLast_append_getLast? _ hlast]
    exact (sectionNotes_append_nil inBullet _).symm
  · rfl

theorem sectionNotes_bullets (inBullet : Bool) (h : ∀ line ∈ bullets, isBullet line = true) :
    sectionNotes inBullet bullets = bullets := by
  induction bullets generalizing inBullet with
  | nil => rfl
  | cons line bullets ih =>
    obtain ⟨hline, hbullets⟩ := List.forall_mem_cons.mp h
    rw [sectionNotes, if_pos hline, ih true hbullets]

theorem flatMap_lineFeed (h : lines ≠ []) :
    lines.flatMap (lineFeed :: ·) = lineFeed :: joinLines lines := by
  induction lines with
  | nil => exact absurd rfl h
  | cons line rest ih =>
    cases rest with
    | nil => simp
    | cons next rest =>
      rw [List.flatMap_cons, ih (List.cons_ne_nil _ _), joinLines_cons line (List.cons_ne_nil _ _)]
      rfl

theorem blockLines_cons (block : Block) (blocks : List Block) :
    ∃ more, blockLines (block :: blocks) = block.1 :: more := by
  cases blocks with
  | nil => exact ⟨block.bulletLines, by simp [blockLines, Block.lines]⟩
  | cons _ _ => exact ⟨_, by rw [blockLines_cons_cons, Block.lines, List.cons_append]⟩

theorem blockLines_concat {block : Block} (h : ∀ b ∈ block :: blocks, b.Kept) :
    ∃ front bullet, NormalBullet bullet ∧
      blockLines (block :: blocks) = front ++ [lit "- " ++ bullet] := by
  induction blocks generalizing block with
  | nil =>
    have hblock := h block (List.mem_cons_self ..)
    obtain ⟨bullets, bullet, hlast⟩ := List.eq_nil_or_concat block.2 |>.resolve_left hblock.ne
    refine ⟨block.1 :: bullets.map (lit "- " ++ ·), bullet,
      hblock.bullets bullet (by simp [hlast]), ?_⟩
    simp [blockLines, Block.lines, Block.bulletLines, hlast]
  | cons next blocks ih =>
    obtain ⟨-, hrest⟩ := List.forall_mem_cons.mp h
    obtain ⟨front, bullet, hbullet, hlines⟩ := ih hrest
    refine ⟨block.lines ++ [] :: front, bullet, hbullet, ?_⟩
    rw [blockLines_cons_cons, hlines, List.append_assoc, List.cons_append]

theorem Block.Normal.head? {block : Block} (h : block.Normal) (rest : PyStr) :
    (block.1 ++ rest).head?.any isSpace = false := by
  obtain ⟨more, hmore⟩ := List.isPrefixOf_iff_prefix.mp (isPrefixOf_of_isHeader h.header)
  have hmark : (lit "### ").head?.any isSpace = false := by decide +kernel
  have hne : lit "### " ≠ [] := by decide +kernel
  rwa [← hmore, List.append_assoc, List.head?_append_of_ne_nil _ hne]

theorem renderBlocks_stripped {block : Block} (h : ∀ b ∈ block :: blocks, b.Kept) :
    Stripped (renderBlocks (block :: blocks)) := by
  constructor
  · obtain ⟨more, hmore⟩ := blockLines_cons block blocks
    have hblock := h block (List.mem_cons_self ..)
    rw [renderBlocks_eq, hmore]
    cases more with
    | nil => simpa using hblock.head? []
    | cons next more =>
      rw [joinLines_cons _ (List.cons_ne_nil _ _)]
      exact hblock.head? _
  · obtain ⟨front, bullet, hbullet, hlines⟩ := blockLines_concat h
    rw [renderBlocks_eq, hlines, joinLines_concat, ← List.append_assoc,
      List.getLast?_append_of_ne_nil _ hbullet.ne]
    exact hbullet.stripped.2

end ProcessKit.Release

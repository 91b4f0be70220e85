import Mathlib.Data.List.Nodup
import ProcessKit.Release.Generated

/-!
# A generated body is normalised once

The loop of `dedupe_generated_changes` keeps, for each header, the bullets of its section
where they first occur. What it renders is read back as the same headers and bullets, so a
second pass changes nothing, and the check before a release counts its bullets.
-/

namespace ProcessKit.Release

open Python

-- ---------------------------------------------------------------------------
-- Sections
-- ---------------------------------------------------------------------------

def headerSections : List PyStr → List (PyStr × List PyStr)
  | [] => []
  | line :: below =>
    if isHeader line then (line, below.takeWhile (!isHeader ·)) :: headerSections below
    else headerSections below

/-- The bullet a line holds, if it holds one that is not empty. -/
def bulletOf (line : PyStr) : Option PyStr :=
  ((generatedBullet line).map strip).filter fun bullet => !bullet.isEmpty

def sectionBullets (own : List PyStr) : List PyStr := own.filterMap bulletOf

def normalBlock (part : PyStr × List PyStr) : Block := (part.1, (sectionBullets part.2).eraseDups)

theorem headerSections_append (h : ∀ line ∈ own, isHeader line = false) (rest : List PyStr) :
    headerSections (own ++ rest) = headerSections rest := by
  induction own with
  | nil => rfl
  | cons line own ih =>
    obtain ⟨hline, hown⟩ := List.forall_mem_cons.mp h
    rw [List.cons_append, headerSections, if_neg (by simp [hline]), ih hown]

theorem headerSections_cons (hheader : isHeader header = true)
    (h : ∀ line ∈ own, isHeader line = false)
    (hrest : ∀ line ∈ rest.head?, isHeader line = true) :
    headerSections (header :: (own ++ rest)) = (header, own) :: headerSections rest := by
  have hown : ∀ line ∈ own, (!isHeader line) = true := fun line hline => by simp [h line hline]
  have hstop : rest.takeWhile (!isHeader ·) = [] := by
    cases rest with
    | nil => rfl
    | cons line rest => exact List.takeWhile_cons_of_neg (by simp [hrest line rfl])
  rw [headerSections, if_pos hheader, List.takeWhile_append_of_pos hown, hstop, List.append_nil,
    headerSections_append h]

-- ---------------------------------------------------------------------------
-- The loop
-- ---------------------------------------------------------------------------

section
variable [BEq α] [LawfulBEq α] {bullets : List α} {bullet : α}

theorem eraseDups_concat_mem (h : bullet ∈ bullets) :
    (bullets ++ [bullet]).eraseDups = bullets.eraseDups := by
  simp [List.eraseDups_append, List.removeAll, h]

theorem eraseDups_concat_new (h : bullet ∉ bullets) :
    (bullets ++ [bullet]).eraseDups = bullets.eraseDups ++ [bullet] := by
  simp [List.eraseDups_append, List.removeAll, List.eraseDups_cons, h]

theorem eraseDups_nodup (bullets : List α) : bullets.eraseDups.Nodup := by
  induction bullets using List.reverseRecOn with
  | nil => exact List.nodup_nil
  | append_singleton bullets bullet ih =>
    by_cases hmem : bullet ∈ bullets
    · rwa [eraseDups_concat_mem hmem]
    · rw [eraseDups_concat_new hmem, ← List.concat_eq_append, List.nodup_concat, List.mem_eraseDups]
      exact ⟨hmem, ih⟩

theorem eraseDups_eq_self (h : bullets.Nodup) : bullets.eraseDups = bullets := by
  induction bullets using List.reverseRecOn with
  | nil => rfl
  | append_singleton bullets bullet ih =>
    rw [← List.concat_eq_append, List.nodup_concat] at h
    rw [eraseDups_concat_new h.1, ih h.2]

end

/-- The bullets of the lines below the last header are those kept, and those seen. -/
structure Dedupe.Collects (state : Dedupe) (own : List PyStr) : Prop where
  bullets : state.bullets = (sectionBullets own).eraseDups
  seen : ∀ bullet, bullet ∈ state.seen ↔ bullet ∈ sectionBullets own

theorem Dedupe.step_header {line : PyStr} (h : isHeader line = true) (state : Dedupe) :
    state.step line = ⟨state.flush, some line, [], []⟩ := if_pos h

theorem Dedupe.step_other {line : PyStr} (h : isHeader line = false) (hnone : bulletOf line = none)
    (state : Dedupe) : state.step line = state := by
  rw [Dedupe.step, if_neg (by simp [h])]
  rw [bulletOf] at hnone
  cases hgroup : generatedBullet line with
  | none => rfl
  | some group =>
    have hempty : strip group = [] := by simpa [hgroup, Option.filter] using hnone
    simp [hempty]

theorem Dedupe.step_seen {line : PyStr} (h : isHeader line = false)
    (hsome : bulletOf line = some bullet) {state : Dedupe} (hseen : bullet ∈ state.seen) :
    state.step line = state := by
  rw [Dedupe.step, if_neg (by simp [h])]
  rw [bulletOf] at hsome
  cases hgroup : generatedBullet line with
  | none => rfl
  | some group =>
    obtain ⟨-, rfl⟩ : strip group ≠ [] ∧ strip group = bullet := by
      simpa [hgroup, Option.filter] using hsome
    simp [hseen]

theorem Dedupe.step_new {line : PyStr} (h : isHeader line = false)
    (hsome : bulletOf line = some bullet) {state : Dedupe} (hnew : bullet ∉ state.seen) :
    state.step line =
      { state with seen := bullet :: state.seen, bullets := state.bullets ++ [bullet] } := by
  rw [Dedupe.step, if_neg (by simp [h])]
  rw [bulletOf] at hsome
  cases hgroup : generatedBullet line with
  | none => simp [hgroup] at hsome
  | some group =>
    obtain ⟨hnonempty, rfl⟩ : strip group ≠ [] ∧ strip group = bullet := by
      simpa [hgroup, Option.filter] using hsome
    simp [hnonempty, hnew]

theorem sectionBullets_concat (own : List PyStr) (line : PyStr) :
    sectionBullets (own ++ [line]) = sectionBullets own ++ (bulletOf line).toList := by
  cases hbullet : bulletOf line <;> simp [sectionBullets, hbullet]

theorem Dedupe.Collects.step {state : Dedupe} {own : List PyStr} {line : PyStr}
    (h : state.Collects own) (hline : isHeader line = false) :
    (state.step line).Collects (own ++ [line]) ∧ (state.step line).blocks = state.blocks ∧
      (state.step line).header = state.header := by
  have hown := sectionBullets_concat own line
  cases hbullet : bulletOf line with
  | none =>
    rw [Dedupe.step_other hline hbullet]
    rw [hbullet, Option.toList_none, List.append_nil] at hown
    exact ⟨⟨hown ▸ h.bullets, hown ▸ h.seen⟩, rfl, rfl⟩
  | some bullet =>
    rw [hbullet, Option.toList_some] at hown
    by_cases hseen : bullet ∈ state.seen
    · have hmem := (h.seen _).mp hseen
      rw [Dedupe.step_seen hline hbullet hseen]
      refine ⟨⟨?_, ?_⟩, rfl, rfl⟩
      · rw [hown, eraseDups_concat_mem hmem, h.bullets]
      · intro other
        rw [hown, h.seen, List.mem_append, List.mem_singleton]
        constructor
        · exact .inl
        · rintro (hother | rfl)
          · exact hother
          · exact hmem
    · have hnew : bullet ∉ sectionBullets own := fun hmem => hseen ((h.seen _).mpr hmem)
      rw [Dedupe.step_new hline hbullet hseen]
      refine ⟨⟨?_, ?_⟩, rfl, rfl⟩
      · rw [hown, eraseDups_concat_new hnew, h.bullets]
      · intro other
        rw [hown, List.mem_cons, h.seen, List.mem_append, List.mem_singleton, or_comm]

/-- What a state still holds back: its header over the bullets of the lines up to the next. -/
def Dedupe.pending (state : Dedupe) (own : List PyStr) : List Block :=
  state.header.toList.map fun header => normalBlock (header, own)

theorem Dedupe.Collects.flush {state : Dedupe} {own : List PyStr} (h : state.Collects own) :
    state.flush = state.blocks ++ state.pending own := by
  cases hheader : state.header with
  | none => simp [Dedupe.flush, Dedupe.pending, hheader]
  | some header => simp [Dedupe.flush, Dedupe.pending, hheader, normalBlock, h.bullets]

theorem Dedupe.Collects.run {state : Dedupe} {own : List PyStr} (h : state.Collects own)
    (lines : List PyStr) :
    (lines.foldl Dedupe.step state).flush =
      state.blocks ++ state.pending (own ++ lines.takeWhile (!isHeader ·)) ++
        (headerSections lines).map normalBlock := by
  induction lines generalizing state own with
  | nil => simpa [headerSections] using h.flush
  | cons line lines ih =>
    rw [List.foldl_cons]
    cases hline : isHeader line with
    | true =>
      have hempty : Dedupe.Collects ⟨state.flush, some line, [], []⟩ [] := ⟨rfl, fun _ => Iff.rfl⟩
      rw [Dedupe.step_header hline, ih hempty, h.flush, headerSections, if_pos hline,
        List.takeWhile_cons_of_neg (by simp [hline]), List.append_nil]
      simp [Dedupe.pending]
    | false =>
      obtain ⟨hstep, hblocks, hheader⟩ := h.step hline
      rw [ih hstep, hblocks, headerSections, if_neg (by simp [hline]),
        List.takeWhile_cons_of_pos (by simp [hline]), Dedupe.pending, hheader,
        List.append_assoc own]
      rfl

def keptBlocks (lines : List PyStr) : List Block :=
  ((headerSections lines).map normalBlock).filter fun block => !block.2.isEmpty

theorem dedupe_flush (lines : List PyStr) :
    (lines.foldl Dedupe.step .start).flush = (headerSections lines).map normalBlock := by
  have hstart : Dedupe.start.Collects [] := ⟨rfl, fun _ => Iff.rfl⟩
  exact hstart.run lines

theorem dedupe_eq (generated : PyStr) :
    dedupeGeneratedChanges generated = renderBlocks (keptBlocks (splitlines generated)) := by
  rw [dedupeGeneratedChanges, dedupe_flush]
  rfl

structure Block.Deduped (block : Block) : Prop extends Block.Kept block where
  nodup : block.2.Nodup

theorem keptBlocks_deduped (generated : PyStr) :
    ∀ block ∈ keptBlocks (splitlines generated), block.Deduped := by
  intro block hblock
  obtain ⟨hmem, hne⟩ := List.mem_filter.mp hblock
  have hrun := Dedupe.start_normal.run fun line (hline : line ∈ splitlines generated) =>
    isLineBreak_of_mem_splitlines hline
  have hnormal := hrun.flush
  rw [dedupe_flush] at hnormal
  obtain ⟨part, -, rfl⟩ := List.mem_map.mp hmem
  exact { toNormal := hnormal _ hmem, ne := by simpa using hne, nodup := eraseDups_nodup _ }

/-- The output is the text of blocks that all have bullets. -/
theorem dedupe_blocks (generated : PyStr) :
    ∃ blocks : List Block, (∀ block ∈ blocks, block.Kept) ∧
      dedupeGeneratedChanges generated = renderBlocks blocks :=
  ⟨_, fun block hblock => (keptBlocks_deduped generated block hblock).toKept, dedupe_eq generated⟩

-- ---------------------------------------------------------------------------
-- Reading a body back
-- ---------------------------------------------------------------------------

theorem bulletOf_nil : bulletOf [] = none := rfl

theorem NormalBullet.bulletOf (h : NormalBullet bullet) :
    bulletOf (lit "- " ++ bullet) = some bullet := by
  have hspace : isSpace space = true := by decide
  have hgroup : generatedBullet (lit "- " ++ bullet) = some bullet := by
    rw [lit_bullet, List.cons_append, generatedBullet, if_pos rfl, List.singleton_append, lstrip,
      List.dropWhile_cons_of_pos hspace]
    exact congrArg some (lstrip_eq_self h.stripped.1)
  rw [Release.bulletOf, hgroup, Option.map_some, strip_eq_self h.stripped]
  simp [Option.filter, h.ne]

theorem Block.Normal.sectionBullets {block : Block} (h : block.Normal) :
    sectionBullets block.bulletLines = block.2 := by
  have hall : ∀ bullet ∈ block.2, Release.bulletOf (lit "- " ++ bullet) = some bullet :=
    fun bullet hbullet => (h.bullets bullet hbullet).bulletOf
  rw [Release.sectionBullets, Block.bulletLines, List.filterMap_map]
  exact (List.filterMap_congr hall).trans List.filterMap_some

theorem Block.Deduped.normalBlock {block : Block} (h : block.Deduped)
    (hown : Release.sectionBullets own = block.2) : Release.normalBlock (block.1, own) = block := by
  rw [Release.normalBlock, hown, eraseDups_eq_self h.nodup]

theorem headerSections_blockLines {f : PyStr × List PyStr → β} {g : Block → β}
    (h : ∀ block ∈ blocks, block.Kept)
    (hf : ∀ block ∈ blocks, f (block.1, block.bulletLines) = g block ∧
      f (block.1, block.bulletLines ++ [[]]) = g block) :
    (headerSections (blockLines blocks)).map f = blocks.map g := by
  induction blocks with
  | nil => rfl
  | cons block rest ih =>
    obtain ⟨hblock, hrest⟩ := List.forall_mem_cons.mp h
    obtain ⟨⟨hlast, hinner⟩, hf⟩ := List.forall_mem_cons.mp hf
    cases rest with
    | nil =>
      have hend : ∀ line ∈ ([] : List PyStr).head?, isHeader line = true := by
        intro line hline
        cases hline
      have hsections := headerSections_cons hblock.header hblock.not_header hend
      rw [List.append_nil] at hsections
      have hlines : blockLines [block] = block.lines := by simp [blockLines]
      rw [hlines, Block.lines, hsections]
      simp [headerSections, hlast]
    | cons next rest =>
      have hplain : ∀ line ∈ block.bulletLines ++ [[]], isHeader line = false := by
        intro line hline
        rcases List.mem_append.mp hline with hline | hline
        · exact hblock.not_header line hline
        · obtain rfl := List.mem_singleton.mp hline
          decide +kernel
      obtain ⟨more, hmore⟩ := blockLines_cons next rest
      have hnext : ∀ line ∈ (blockLines (next :: rest)).head?, isHeader line = true := by
        intro line hline
        rw [hmore] at hline
        obtain rfl := Option.some.inj hline
        exact (hrest next (List.mem_cons_self ..)).header
      have hsections := headerSections_cons hblock.header hplain hnext
      rw [List.append_assoc, List.singleton_append] at hsections
      rw [blockLines_cons_cons, Block.lines, List.cons_append, hsections, List.map_cons,
        ih hrest hf, hinner]
      rfl

theorem normalBlock_blockLines (h : ∀ block ∈ blocks, block.Deduped) :
    (headerSections (blockLines blocks)).map normalBlock = blocks := by
  have hmap := headerSections_blockLines (f := normalBlock) (g := id)
    (fun block hblock => (h block hblock).toKept) ?_
  · simpa using hmap
  · intro block hblock
    have hbullets := (h block hblock).sectionBullets
    refine ⟨(h block hblock).normalBlock hbullets, (h block hblock).normalBlock ?_⟩
    rw [sectionBullets_concat, bulletOf_nil, Option.toList_none, List.append_nil, hbullets]

theorem splitlines_renderBlocks (h : ∀ block ∈ blocks, block.Kept) :
    splitlines (renderBlocks blocks) = blockLines blocks := by
  cases blocks with
  | nil => rfl
  | cons block rest =>
    have hpieces : pieces (renderBlocks (block :: rest)) = blockLines (block :: rest) := by
      rw [renderBlocks_eq]
      exact pieces_joinLines (blockLines_line_break h) (blockLines_ne_nil block rest)
    obtain ⟨front, bullet, hbullet, hlast⟩ := blockLines_concat h
    rw [splitlines, hpieces, hlast, List.getLast?_concat, if_neg (by simp [hbullet.ne])]

theorem keptBlocks_blockLines (h : ∀ block ∈ blocks, block.Deduped) :
    keptBlocks (blockLines blocks) = blocks := by
  rw [keptBlocks, normalBlock_blockLines h, List.filter_eq_self]
  intro block hblock
  simpa using (h block hblock).ne

-- ---------------------------------------------------------------------------
-- The check before a release
-- ---------------------------------------------------------------------------

theorem isBullet_append (h : isBullet line = true) (more : PyStr) :
    isBullet (line ++ more) = true := by
  cases line with
  | nil => cases h
  | cons c rest =>
    cases rest with
    | nil => simp [isBullet] at h
    | cons d rest =>
      simp only [isBullet, List.cons_append, List.head?_cons, List.any_cons, List.any_append,
        Bool.and_eq_true] at h ⊢
      exact ⟨h.1, by rw [← Bool.or_assoc, h.2, Bool.true_or]⟩

/-- The lines that `unreleased_has_bullets` counts. -/
def countedLines (text : PyStr) : List PyStr := (splitlines text).filter isBullet

theorem countedLines_eq (text : PyStr) : countedLines text = (pieces text).filter isBullet := by
  rw [countedLines, splitlines]
  split
  · next hlast =>
    conv => rhs; rw [← List.dropLast_append_getLast? _ hlast]
    simp [isBullet]
  · rfl

theorem unreleasedHasBullets_iff (text : PyStr) :
    unreleasedHasBullets text = true ↔ countedLines (unreleasedBody text) ≠ [] := by
  rw [unreleasedHasBullets, unreleasedBody, countedLines]
  cases findUnreleased (feedLines text) with
  | none => simp [splitlines, pieces, collapseCrLf]
  | some found => simp

theorem countedLines_renderBlocks {block : Block} (h : ∀ b ∈ block :: blocks, b.Kept)
    (before behind : PyStr) :
    countedLines (before ++ renderBlocks (block :: blocks) ++ behind) ≠ [] := by
  obtain ⟨front, bullet, hbullet, hlines⟩ := blockLines_concat h
  have hfront : front ≠ [] := by
    rintro rfl
    have hheader := (h block (List.mem_cons_self ..)).header
    obtain ⟨more, hmore⟩ := blockLines_cons block blocks
    rw [hmore, List.nil_append, List.cons_eq_cons] at hlines
    rw [hlines.1, isHeader_eq_false_of_isBullet hbullet.isBullet] at hheader
    cases hheader
  have hbreak : ∀ c ∈ lit "- " ++ bullet, isLineBreak c = false := by
    apply blockLines_line_break h
    simp [hlines]
  obtain ⟨head, rest, -, hlast⟩ := pieces_line_append hbreak behind
  have htext : before ++ renderBlocks (block :: blocks) ++ behind =
      before ++ joinLines front ++ lineFeed :: (lit "- " ++ bullet ++ behind) := by
    rw [renderBlocks_eq, hlines, joinLines_concat, endLines_eq_joinLines hfront]
    simp
  have hmem : lit "- " ++ bullet ++ head ∈ pieces (lit "- " ++ bullet ++ behind) := by
    rw [hlast]
    exact List.mem_cons_self ..
  rw [htext, countedLines_eq]
  exact List.ne_nil_of_mem (List.mem_filter.mpr
    ⟨(pieces_suffix _ _).subset hmem, isBullet_append hbullet.isBullet head⟩)

/-- Under every header of a generated text stand, in its output, the bullets of that section,
each where it first occurs. The output is read back as it is, and counts as bullets. -/
theorem dedupe_normalises (generated : PyStr) :
    let output := dedupeGeneratedChanges generated
    let parts := headerSections (splitlines generated)
    ∃ blocks : List Block,
      blocks = (parts.map fun part => (part.1, (sectionBullets part.2).eraseDups)).filter
        (fun block => !block.2.isEmpty) ∧
      output = renderBlocks blocks ∧ splitlines output = blockLines blocks ∧
      (∀ block ∈ blocks, block.Deduped) ∧
      (∀ part ∈ parts, ∀ line ∈ part.2, ∀ bullet, bulletOf line = some bullet →
        ∃ block ∈ blocks, block.1 = part.1 ∧ bullet ∈ block.2) ∧
      dedupeGeneratedChanges output = output ∧
      ∀ text before behind, unreleasedBody text = before ++ output ++ behind → output ≠ [] →
        unreleasedHasBullets text = true := by
  have hblocks := keptBlocks_deduped generated
  have hkept : ∀ block ∈ keptBlocks (splitlines generated), block.Kept :=
    fun block hblock => (hblocks block hblock).toKept
  refine ⟨keptBlocks (splitlines generated), rfl, dedupe_eq generated, ?_, hblocks, ?_, ?_, ?_⟩
  · rw [dedupe_eq]
    exact splitlines_renderBlocks hkept
  · intro part hpart line hline bullet hbullet
    have hmem : bullet ∈ (sectionBullets part.2).eraseDups := by
      rw [List.mem_eraseDups]
      exact List.mem_filterMap.mpr ⟨line, hline, hbullet⟩
    refine ⟨normalBlock part, List.mem_filter.mpr ⟨List.mem_map_of_mem hpart, ?_⟩, rfl, hmem⟩
    simpa [normalBlock] using List.ne_nil_of_mem hmem
  · rw [dedupe_eq (dedupeGeneratedChanges generated), dedupe_eq generated,
      splitlines_renderBlocks hkept, keptBlocks_blockLines hblocks]
  · intro text before behind hbody hne
    rw [dedupe_eq] at hbody hne
    rw [unreleasedHasBullets_iff, hbody]
    cases hkeep : keptBlocks (splitlines generated) with
    | nil =>
      rw [hkeep] at hne
      exact absurd rfl hne
    | cons block rest =>
      rw [hkeep] at hkept
      exact countedLines_renderBlocks hkept before behind

end ProcessKit.Release

import ProcessKit.Python.Lines

/-!
# The changelog of a release

Three steps rewrite or read `CHANGELOG.md`: the empty `[Unreleased]` section is filled with a
generated body, the release notes are taken from it, and it is promoted to a dated version.
`UNRELEASED_RE` finds the section for the first two; the third substitutes whole lines.
-/

namespace ProcessKit.Release

open Python

abbrev Checked := Except String PyStr

def hyphen : PyChar := ofChar '-'
def space : PyChar := ofChar ' '
def tab : PyChar := ofChar '\t'
def backslash : PyChar := ofChar '\\'

def unreleasedHeading : PyStr := lit "## [Unreleased]"

def isBlank (line : PyStr) : Bool := line.all isSpace

/-- `^### .+$`, both as `GENERATED_HEADER_RE` and where the notes are split. -/
def isHeader (line : PyStr) : Bool := (lit "### ").isPrefixOf line && decide (4 < line.length)

/-- `^-\s+\S`. -/
def isBullet : PyStr → Bool
  | [] => false
  | c :: rest => c == hyphen && rest.head?.any isSpace && rest.any (!isSpace ·)

-- ---------------------------------------------------------------------------
-- dedupe_generated_changes
-- ---------------------------------------------------------------------------

abbrev Block := PyStr × List PyStr

structure Dedupe where
  blocks : List Block
  header : Option PyStr
  bullets : List PyStr
  seen : List PyStr

def Dedupe.start : Dedupe := ⟨[], none, [], []⟩

def Dedupe.flush (state : Dedupe) : List Block :=
  match state.header with
  | none => state.blocks
  | some header => state.blocks ++ [(header, state.bullets)]

/-- `GENERATED_BULLET_RE` and its group. -/
def generatedBullet : PyStr → Option PyStr
  | [] => none
  | c :: rest => if c = hyphen then some (lstrip rest) else none

def Dedupe.step (state : Dedupe) (line : PyStr) : Dedupe :=
  if isHeader line then { blocks := state.flush, header := some line, bullets := [], seen := [] }
  else match generatedBullet line with
    | none => state
    | some group =>
      let bullet := strip group
      if bullet ≠ [] ∧ bullet ∉ state.seen then
        { state with seen := bullet :: state.seen, bullets := state.bullets ++ [bullet] }
      else state

def Block.bulletLines (block : Block) : List PyStr := block.2.map (lit "- " ++ ·)

def Block.lines (block : Block) : List PyStr := block.1 :: block.bulletLines

def renderBlocks (blocks : List Block) : PyStr :=
  (lit "\n\n").intercalate (blocks.map fun block => joinLines block.lines)

def dedupeGeneratedChanges (generated : PyStr) : PyStr :=
  let blocks := ((splitlines generated).foldl Dedupe.step .start).flush
  renderBlocks (blocks.filter fun block => !block.2.isEmpty)

-- ---------------------------------------------------------------------------
-- UNRELEASED_RE
-- ---------------------------------------------------------------------------

/-- `^## \[`. -/
def isReleaseHeading (line : PyStr) : Bool := (lit "## [").isPrefixOf line

/-- `^## \[Unreleased\]\s*`: white space may stand behind the heading. -/
def isUnreleased (line : PyStr) : Bool :=
  unreleasedHeading.isPrefixOf line && isBlank (line.drop unreleasedHeading.length)

/-- The blank lines that `\s*\n` passes. It needs a line feed behind each. -/
def passed : List PyStr → List PyStr
  | line :: next :: rest => if isBlank line then line :: passed (next :: rest) else []
  | _ => []

theorem passed_isPrefix (lines : List PyStr) : passed lines <+: lines := by
  induction lines with
  | nil => exact List.prefix_rfl
  | cons line rest ih =>
    cases rest with
    | nil => exact List.nil_prefix
    | cons next rest =>
      rw [passed]
      split
      · exact List.cons_prefix_cons.mpr ⟨rfl, ih⟩
      · exact List.nil_prefix

/-- A match over the lines of a text: `before` ends where group 1 starts, and `body` is
group 1, up to the next release heading or the end of the text. -/
structure Section (lines : List PyStr) where
  before : List PyStr
  body : List PyStr
  after : List PyStr
  whole : before ++ body ++ after = lines

def Section.below (heading : PyStr) (below : List PyStr) : Section (heading :: below) where
  before := heading :: passed below
  body := (below.drop (passed below).length).takeWhile (!isReleaseHeading ·)
  after := (below.drop (passed below).length).dropWhile (!isReleaseHeading ·)
  whole := by
    have hgap := List.prefix_iff_eq_append.mp (passed_isPrefix below)
    rw [List.append_assoc, List.takeWhile_append_dropWhile, List.cons_append, hgap]

def Section.cons (line : PyStr) (found : Section lines) : Section (line :: lines) where
  before := line :: found.before
  body := found.body
  after := found.after
  whole := congrArg (line :: ·) found.whole

/-- `UNRELEASED_RE.search`: the leftmost match. -/
def findUnreleased : (lines : List PyStr) → Option (Section lines)
  | [] => none
  | line :: below =>
    if isUnreleased line && !below.isEmpty then some (.below line below)
    else (findUnreleased below).map (.cons line)

def Section.group (found : Section lines) : PyStr :=
  if found.after.isEmpty then joinLines found.body else endLines found.body

def unreleasedHasBullets (text : PyStr) : Bool :=
  match findUnreleased (feedLines text) with
  | none => false
  | some found => (splitlines found.group).any isBullet

def insertUnreleasedBody (text generated : PyStr) : Checked :=
  match findUnreleased (feedLines text) with
  | none => .error "Could not find '## [Unreleased]' header in CHANGELOG.md"
  | some found =>
    .ok (endLines found.before ++ generated ++ lit "\n\n" ++ joinLines found.after)

-- ---------------------------------------------------------------------------
-- extract_release_notes
-- ---------------------------------------------------------------------------

/-- `^[ \t]+\S`. -/
def isContinuation (line : PyStr) : Bool :=
  let indent := fun c => c == space || c == tab
  line.head?.any indent && (line.dropWhile indent).head?.any (!isSpace ·)

/-- From the end of a header to the next one, or to the end of the body. -/
def sectionText (below : List PyStr) : PyStr :=
  let own := below.takeWhile (!isHeader ·)
  own.flatMap (lineFeed :: ·) ++ if own.length < below.length then [lineFeed] else []

/-- `re.split` at the headers: each of them with the text behind it. -/
def headerParts : List PyStr → List (PyStr × PyStr)
  | [] => []
  | line :: below =>
    if isHeader line then (line, sectionText below) :: headerParts below else headerParts below

/-- The bullets of a section with their continuation lines. -/
def sectionNotes (inBullet : Bool) : List PyStr → List PyStr
  | [] => []
  | line :: rest =>
    if isBullet line then line :: sectionNotes true rest
    else if inBullet && isContinuation line then line :: sectionNotes true rest
    else sectionNotes false rest

def addNotes (out : List PyStr) (part : PyStr × PyStr) : List PyStr :=
  let bullets := sectionNotes false (splitlines part.2)
  if bullets.isEmpty then out
  else (if out.isEmpty then out else out ++ [[]]) ++ part.1 :: bullets

/-- `m.group(1) if m else ""`. -/
def unreleasedBody (text : PyStr) : PyStr :=
  match findUnreleased (feedLines text) with
  | none => []
  | some found => found.group

def extractReleaseNotes (text : PyStr) : Checked :=
  let body := strip (unreleasedBody text)
  let result := strip (joinLines ((headerParts (feedLines body)).foldl addNotes []))
  if result.isEmpty then .error "[Unreleased] section in CHANGELOG.md is empty"
  else .ok (result ++ [lineFeed])

-- ---------------------------------------------------------------------------
-- promote_unreleased
-- ---------------------------------------------------------------------------

/-- The arguments of a promotion. `today` is the date it takes where none is given. In the
template of `re.subn` a backslash would start an escape, and no argument holds one. -/
structure Promotion where
  version : PyStr
  tag : PyStr
  prevTag : PyStr
  firstRelease : Bool
  repo : PyStr
  date : Option PyStr
  today : PyStr
  plain : ∀ arg ∈ [version, tag, prevTag, repo, date.getD today],
    backslash ∉ arg ∧ lineFeed ∉ arg

def Promotion.versionHeading (p : Promotion) : PyStr :=
  lit "## [" ++ p.version ++ lit "] - " ++ p.date.getD p.today

def Promotion.newUnreleased (p : Promotion) : PyStr :=
  lit "## [Unreleased]\n\n" ++ lit "### Added\n-\n\n" ++ lit "### Changed\n-\n\n" ++
    lit "### Fixed\n-\n\n" ++ p.versionHeading

/-- A first release has no earlier tag to compare with. -/
def Promotion.versionedLink (p : Promotion) : PyStr :=
  if p.firstRelease then
    lit "[" ++ p.version ++ lit "]: " ++ p.repo ++ lit "/releases/tag/" ++ p.tag
  else
    lit "[" ++ p.version ++ lit "]: " ++ p.repo ++ lit "/compare/" ++ p.prevTag ++
      lit "..." ++ p.tag

def Promotion.unreleasedLink (p : Promotion) : PyStr :=
  lit "[Unreleased]: " ++ p.repo ++ lit "/compare/" ++ p.tag ++ lit "...HEAD"

/-- `^## \[Unreleased\]$`. -/
def isUnreleasedHeading (line : PyStr) : Bool := line == unreleasedHeading

/-- `^\[Unreleased\]:.*$`. -/
def isUnreleasedLink (line : PyStr) : Bool := (lit "[Unreleased]:").isPrefixOf line

def promoteUnreleased (p : Promotion) (text : PyStr) : Checked :=
  let (text, n) := subLines isUnreleasedHeading p.newUnreleased text
  if n ≠ 1 then .error "Could not find '## [Unreleased]' header in CHANGELOG.md"
  else
    let (text, n) :=
      subLines isUnreleasedLink (p.unreleasedLink ++ lineFeed :: p.versionedLink) text
    if n ≠ 1 then .error "Could not find '[Unreleased]: ...' reference link in CHANGELOG.md"
    else .ok text

end ProcessKit.Release

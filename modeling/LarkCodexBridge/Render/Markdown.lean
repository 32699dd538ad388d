import Mathlib
import LarkCodexBridge.Render.Fences
import LarkCodexBridge.Render.Inline

/-!
# The Markdown projection

`projectMarkdown` turns what the model wrote into the subset of Markdown that the carriers accept, line by line and twice.

* `normalizeLine`, `canonicalFence`, `pushLine`, `projectMarkdownOnce`: one pass;
* `projectMarkdownOnce_block`: a fenced block is written again with its content, up to runs of blank lines;
* `projectMarkdown_block_iff`: the content of a fenced block is kept exactly when no two blank lines follow each other.
-/

namespace LarkCodexBridge.Render.Markdown

open LarkCodexBridge.Runtime (isWhitespace trim trimStart trimEnd)

/-! ## Lines outside fences -/

/-- A line without its containers, and the first list marker among them. -/
structure ContainerLine where
  quoted : Bool
  list : Option Container
  body : List Char

def parseContainerLine (line : List Char) : ContainerLine :=
  let (containers, body) := stripContainers (trimStart line)
  ⟨containers.contains .quote, containers.find? (· ≠ .quote), body⟩

def headingText (line : List Char) : Option (List Char) :=
  let count := (line.takeWhile (· = '#')).length
  if 1 ≤ count ∧ count ≤ 6 then
    match line.drop count with
    | c :: rest => if isWhitespace c then some (trim rest) else none
    | [] => none
  else none

def taskState (line : List Char) : Option (Bool × List Char) :=
  match line with
  | '[' :: state :: ']' :: c :: rest =>
    if (state = ' ' ∨ state = 'x' ∨ state = 'X') ∧ isWhitespace c then some (state = 'x' || state = 'X', trim rest) else none
  | _ => none

/-- The texts around the first `]:`. -/
def splitDefinition : List Char → Option (List Char × List Char)
  | [] => none
  | ']' :: ':' :: rest => some ([], rest)
  | c :: rest => (splitDefinition rest).map fun (identifier, text) => (c :: identifier, text)

/-- An identifier before the first `]:` and the text after it. -/
def definition (rest : List Char) : Option (List Char × List Char) :=
  match splitDefinition rest with
  | none => none
  | some (identifier, text) =>
    if identifier ≠ [] ∧ identifier.all isFootnoteIdentifier then some (identifier, trim text) else none

def footnoteDefinition (line : List Char) : Option (List Char × List Char) :=
  match line with
  | '[' :: '^' :: rest => definition rest
  | _ => none

def referenceDefinition (line : List Char) : Option (List Char × List Char) :=
  match line with
  | '[' :: rest => if rest.head? = some '^' then none else definition rest
  | _ => none

def containsTablePipe (line : List Char) : Bool := line.contains '|'

def trimMatches (c : Char) (text : List Char) : List Char :=
  ((text.dropWhile (· = c)).reverse.dropWhile (· = c)).reverse

def isTableDelimiter (line : List Char) : Bool :=
  let cells := (trimMatches '|' (trim line)).splitOn '|'
  2 ≤ cells.length && cells.all fun cell =>
    let cell := trim (trimMatches ':' (trim cell))
    3 ≤ utf8Bytes cell && cell.all (· = '-')

section Carrier

variable (urlScheme : List Char → Option String) (carrier : MarkdownCarrier)

def normalizeLine (line : List Char) : List Char :=
  let parsed := parseContainerLine line
  let body := trim parsed.body
  let inline := sanitizeInline urlScheme carrier
  if body = [] then []
  else
    let normalized :=
      match footnoteDefinition body with
      | some (identifier, text) => "Footnote ".toList ++ identifier ++ ": ".toList ++ inline text
      | none =>
      match referenceDefinition body with
      | some (identifier, target) => "Reference ".toList ++ identifier ++ ": ".toList ++ inline target
      | none =>
      match headingText body with
      | some heading => "**".toList ++ inline heading ++ "**".toList
      | none =>
      match (taskState body).filter fun _ => parsed.list.isSome with
      | some (checked, text) => "- ".toList ++ (if checked then '☑' else '☐') :: ' ' :: inline text
      | none =>
      match parsed.list with
      | some (.ordered number) => number ++ ". ".toList ++ inline body
      | some _ => "- ".toList ++ inline body
      | none => inline body
    quoteLine parsed.quoted normalized

/-! ## Fenced blocks -/

def maxSafeFenceMarkerChars : ℕ := 64

/-- The markers of a line that has nothing else, from three on. -/
def delimiterOnlyRun (line : List Char) (marker : Marker) : ℕ :=
  let trimmed := trim line
  let run := markerRun marker trimmed
  if 3 ≤ run ∧ (trimmed.drop run).all isWhitespace then run else 0

def requiredFenceLength (content : List (List Char)) (marker : Marker) : ℕ :=
  max ((content.map fun line => delimiterOnlyRun line marker).foldr max 0 + 1) 3

/-- The fence that the content is written in. Content that needs too long a fence is changed. -/
def canonicalFence (content : List (List Char)) (language : { l : List Char // admissibleLanguage l = true }) :
    Fence × List (List Char) :=
  let backticks := requiredFenceLength content .backtick
  let tildes := requiredFenceLength content .tilde
  let marker := if backticks ≤ tildes then .backtick else .tilde
  let length := requiredFenceLength content marker
  if length ≤ maxSafeFenceMarkerChars then
    (⟨marker, length, language.1, le_max_right _ _, language.2⟩, content)
  else
    (⟨.backtick, 3, language.1, le_rfl, language.2⟩,
      content.map fun line => if 3 ≤ delimiterOnlyRun line .backtick then '│' :: ' ' :: line else line)

/-- A blank line after a blank line is dropped. -/
def pushLine (rendered : List (List Char)) (line : List Char) : List (List Char) :=
  if line = [] ∧ rendered.getLast? = some [] then rendered else rendered ++ [line]

/-- The lines of a fenced block. -/
def pushBlock (rendered : List (List Char)) (quoted : Bool) (fence : Fence) (content : List (List Char)) :
    List (List Char) :=
  (fence.openingLine :: content ++ [fence.closingLine]).foldl (fun rendered line => pushLine rendered (quoteLine quoted line))
    rendered

def tableLines (quoted : Bool) : List (List Char) → List (List Char) × List (List Char)
  | [] => ([], [])
  | line :: rest =>
    let candidate := parseContainerLine line
    if candidate.quoted ≠ quoted ∨ !containsTablePipe candidate.body then ([], line :: rest)
    else
      let (rows, after) := tableLines quoted rest
      (trim (sanitizeInline urlScheme carrier candidate.body) :: rows, after)

def fencedLines (fence : OpenFence) : List (List Char) → List (List Char) × List (List Char)
  | [] => ([], [])
  | line :: rest =>
    if fence.closedBy line then ([], rest)
    else
      let (content, after) := fencedLines fence rest
      ((fence.context.contentBody line).1 :: content, after)

theorem length_fencedLines (fence : OpenFence) (source : List (List Char)) :
    (fencedLines fence source).2.length ≤ source.length := by
  induction source with
  | nil => exact le_rfl
  | cons line rest ih =>
    rw [fencedLines]
    split_ifs
    · simp
    · simp only [List.length_cons]
      omega

theorem length_tableLines (quoted : Bool) (source : List (List Char)) :
    (tableLines urlScheme carrier quoted source).2.length ≤ source.length := by
  induction source with
  | nil => exact le_rfl
  | cons line rest ih =>
    rw [tableLines]
    split_ifs
    · exact le_rfl
    · simp only [List.length_cons]
      omega

/-- The next line begins the delimiter row of a table. -/
def beginsTable (line : ContainerLine) (rest : List (List Char)) : Bool :=
  match rest with
  | [] => false
  | next :: _ =>
    containsTablePipe line.body && (parseContainerLine next).quoted = line.quoted &&
      isTableDelimiter (parseContainerLine next).body

/-- The loop of `project_markdown_once`. -/
def projectLines (rendered : List (List Char)) (source : List (List Char)) : List (List Char) :=
  match source with
  | [] => rendered
  | line :: rest =>
    match parseFenceOpening line with
    | some fence =>
      let block := fencedLines fence rest
      let canonical := canonicalFence block.1 ⟨fence.fence.language, fence.fence.admissible⟩
      projectLines (pushBlock rendered fence.context.quoted canonical.1 canonical.2) block.2
    | none =>
      let parsed := parseContainerLine line
      if beginsTable parsed rest then
        let rows := tableLines urlScheme carrier parsed.quoted rest
        let first := trim (sanitizeInline urlScheme carrier parsed.body)
        let canonical := canonicalFence (first :: rows.1) ⟨['t', 'e', 'x', 't'], by decide⟩
        projectLines (pushBlock rendered parsed.quoted canonical.1 canonical.2) rows.2
      else projectLines (pushLine rendered (normalizeLine urlScheme carrier line)) rest
termination_by source.length
decreasing_by
  · have := length_fencedLines fence rest
    simp only [List.length_cons]
    omega
  · have := length_tableLines urlScheme carrier (parseContainerLine line).quoted rest
    simp only [List.length_cons]
    omega
  · simp

/-- The lines without the blank ones at the end, joined. -/
def joinLines (rendered : List (List Char)) : List Char := ['\n'].intercalate (rendered.rdropWhile (· = []))

def projectMarkdownOnce (input : List Char) : List Char := joinLines (projectLines urlScheme carrier [] (lines input))

/-- `replace("\r\n", "\n").replace('\r', "\n")`. -/
def unifyLineEndings : List Char → List Char
  | [] => []
  | '\r' :: '\n' :: rest => '\n' :: unifyLineEndings rest
  | '\r' :: rest => '\n' :: unifyLineEndings rest
  | c :: rest => c :: unifyLineEndings rest

/-- The characters that sanitizing keeps. -/
def isKept (c : Char) : Bool := c = '\n' || c = '\t' || (!isControl c && !isUnicodeFormatControl c)

def sanitizeText (input : List Char) : List Char := (unifyLineEndings input).filter isKept

def projectMarkdown (input : List Char) : List Char :=
  projectMarkdownOnce urlScheme carrier (projectMarkdownOnce urlScheme carrier (sanitizeText input))

end Carrier

def renderLarkMarkdown (urlScheme : List Char → Option String) (input : List Char) : List Char :=
  projectMarkdown urlScheme .post input

/-! ## A fenced block is written again -/

/-- The text of a fenced block. -/
def block (opening : List Char) (content : List (List Char)) (closing : List Char) : List Char :=
  ['\n'].intercalate (opening :: content ++ [closing])

/-- The block as the projection writes it. -/
def Fence.block (fence : Fence) (content : List (List Char)) : List Char :=
  Markdown.block fence.openingLine content fence.closingLine

/-- The text is a block of this fence outside all containers, and no line of the content is as long a run of markers. -/
structure IsBlock (fence : Fence) (opening : List Char) (content : List (List Char)) (closing : List Char) : Prop where
  opens : parseFenceOpening opening = some ⟨fence, .plain false⟩
  closes : isClosingFence closing fence = true
  longer : ∀ line ∈ content, delimiterOnlyRun line fence.marker < fence.length

/-- The line is one line of a text without carriage returns. -/
def IsLine (line : List Char) : Prop := '\n' ∉ line ∧ '\r' ∉ line

instance (line : List Char) : Decidable (IsLine line) := inferInstanceAs (Decidable (_ ∧ _))

/-- At most one of two lines is blank. -/
def Apart (first second : List Char) : Prop := ¬ (first = [] ∧ second = [])

instance : DecidableRel Apart := fun _ _ => inferInstanceAs (Decidable (¬ _))

variable {line : List Char}

theorem IsLine.getLast?_ne (h : IsLine line) : line.getLast? ≠ some '\r' :=
  fun hlast => h.2 (List.mem_of_getLast? hlast)

theorem lines_joined {rows : List (List Char)} {last : List Char} (hrows : ∀ l ∈ rows, IsLine l) (hlast : last ≠ [])
    (hnewline : '\n' ∉ last) : lines (['\n'].intercalate (rows ++ [last])) = rows ++ [last] := by
  have hchomp : ∀ l ∈ rows, (chomp ∘ fun l => l ++ ['\n']) l = id l := by
    intro l hl
    rw [Function.comp_apply, chomp, if_pos (by simp), List.dropLast_concat, if_neg (hrows l hl).getLast?_ne, id]
  rw [lines, Lines.intercalate_concat, Lines.chunks_intercalate (fun l hl => (hrows l hl).1) hlast hnewline, List.map_append,
    List.map_map, List.map_singleton]
  congr 1
  · rw [List.map_congr_left hchomp, List.map_id]
  · rw [chomp, if_neg fun h => hnewline (List.mem_of_getLast? h)]

variable {fence : Fence}

theorem ne_nil_of_isClosingFence (h : isClosingFence line fence = true) : line ≠ [] := by
  rintro rfl
  have hthree := fence.three_le
  simp only [isClosingFence, Bool.and_eq_true, decide_eq_true_eq] at h
  have hrun : markerRun fence.marker (trim []) = 0 := rfl
  omega

theorem closingLine_ne_nil (fence : Fence) : fence.closingLine ≠ [] :=
  ne_nil_of_isClosingFence (isClosingFence_closingLine fence)

theorem isLine_closingLine (fence : Fence) : IsLine fence.closingLine := by
  constructor <;>
  · intro hmem
    have := List.eq_of_mem_replicate hmem
    cases hm : fence.marker <;> rw [hm] at this <;> exact absurd this (by decide)

theorem isLine_openingLine (fence : Fence) : IsLine fence.openingLine := by
  have hall := fence.admissible
  simp only [admissibleLanguage, Bool.and_eq_true, List.all_eq_true] at hall
  constructor
  · rw [Fence.openingLine, List.mem_append, not_or]
    exact ⟨(isLine_closingLine fence).1, fun hmem => absurd (hall.2 _ hmem) (by decide)⟩
  · rw [Fence.openingLine, List.mem_append, not_or]
    exact ⟨(isLine_closingLine fence).2, fun hmem => absurd (hall.2 _ hmem) (by decide)⟩

variable {content : List (List Char)}

theorem block_injective {other : Fence} {content' : List (List Char)} (hc : ∀ l ∈ content, IsLine l)
    (hc' : ∀ l ∈ content', IsLine l) (h : fence.block content = other.block content') : content = content' := by
  have hlines := congrArg lines h
  rw [Fence.block, Fence.block, block, block,
    lines_joined (List.forall_mem_cons.2 ⟨isLine_openingLine fence, hc⟩) (closingLine_ne_nil fence) (isLine_closingLine fence).1,
    lines_joined (List.forall_mem_cons.2 ⟨isLine_openingLine other, hc'⟩) (closingLine_ne_nil other)
      (isLine_closingLine other).1] at hlines
  exact (List.cons.inj (List.append_inj' hlines rfl).1).2

theorem not_isClosingFence (h : delimiterOnlyRun line fence.marker < fence.length) :
    isClosingFence line fence = false := by
  by_contra hclosing
  rw [Bool.not_eq_false, isClosingFence] at hclosing
  simp only [Bool.and_eq_true, decide_eq_true_eq] at hclosing
  have hthree := fence.three_le
  rw [delimiterOnlyRun, if_pos ⟨by omega, hclosing.2⟩] at h
  omega

theorem fencedLines_block {opening closing : List Char} (h : IsBlock fence opening content closing) :
    fencedLines ⟨fence, .plain false⟩ (content ++ [closing]) = (content, []) := by
  obtain ⟨-, hcloses, hlonger⟩ := h
  induction content with
  | nil =>
    have hclosed : (⟨fence, .plain false⟩ : OpenFence).closedBy closing = true := hcloses
    rw [List.nil_append, fencedLines, if_pos hclosed]
  | cons line content ih =>
    have hopen : (⟨fence, .plain false⟩ : OpenFence).closedBy line = false :=
      not_isClosingFence (hlonger line List.mem_cons_self)
    rw [List.cons_append, fencedLines, hopen, ih fun l hl => hlonger l (List.mem_cons_of_mem _ hl)]
    rfl

theorem requiredFenceLength_of_mem (h : line ∈ content) (marker : Marker) :
    delimiterOnlyRun line marker < requiredFenceLength content marker := by
  have hle : ∀ content : List (List Char), line ∈ content →
      delimiterOnlyRun line marker ≤ (content.map fun line => delimiterOnlyRun line marker).foldr max 0 := by
    intro content
    induction content with
    | nil => exact fun h => absurd h List.not_mem_nil
    | cons first content ih =>
      intro h
      rw [List.map_cons, List.foldr_cons]
      rcases List.mem_cons.1 h with rfl | h
      · exact le_max_left _ _
      · exact (ih h).trans (le_max_right _ _)
  have := hle content h
  rw [requiredFenceLength]
  omega

theorem requiredFenceLength_le {marker : Marker} {bound : ℕ} (hbound : 3 ≤ bound)
    (h : ∀ line ∈ content, delimiterOnlyRun line marker < bound) : requiredFenceLength content marker ≤ bound := by
  have hlt : (content.map fun line => delimiterOnlyRun line marker).foldr max 0 < bound := by
    induction content with
    | nil => simp; omega
    | cons first content ih =>
      rw [List.map_cons, List.foldr_cons]
      exact max_lt (h first List.mem_cons_self) (ih fun l hl => h l (List.mem_cons_of_mem _ hl))
  rw [requiredFenceLength]
  omega

theorem canonicalFence_of_short (language : { l : List Char // admissibleLanguage l = true })
    (h : ∀ line ∈ content, ∀ marker, delimiterOnlyRun line marker < maxSafeFenceMarkerChars) :
    (canonicalFence content language).2 = content ∧ (canonicalFence content language).1.language = language.1 ∧
      ∀ line ∈ content, delimiterOnlyRun line (canonicalFence content language).1.marker <
        (canonicalFence content language).1.length := by
  have hle : ∀ marker, requiredFenceLength content marker ≤ maxSafeFenceMarkerChars := fun marker =>
    requiredFenceLength_le (by decide) fun line hl => h line hl marker
  unfold canonicalFence
  simp only [hle, if_true, true_and]
  exact fun line hl => requiredFenceLength_of_mem hl _

theorem foldl_pushLine (front : List (List Char)) (line : List Char) (rest : List (List Char)) :
    rest.foldl pushLine (front ++ [line]) = front ++ rest.destutter' Apart line := by
  induction rest generalizing front line with
  | nil => rfl
  | cons next rest ih =>
    rw [List.foldl_cons, pushLine, List.destutter']
    by_cases h : Apart line next
    · rw [if_neg (by rw [List.getLast?_concat, Option.some_inj]; exact fun e => h ⟨e.2, e.1⟩), if_pos h, ih]
      simp
    · have hblank := not_not.1 h
      rw [if_pos (by rw [List.getLast?_concat, Option.some_inj]; exact ⟨hblank.2, hblank.1⟩), if_neg h, ih]

/-- Every line is pushed, but no blank line after a blank line. -/
theorem pushBlock_bare (fence : Fence) (content : List (List Char)) :
    pushBlock [] false fence content = fence.openingLine :: content.destutter Apart ++ [fence.closingLine] := by
  have hopening : fence.openingLine ≠ [] := by
    rw [Fence.openingLine]
    exact List.append_ne_nil_of_left_ne_nil (closingLine_ne_nil fence) _
  have hapart : ∀ line, Apart fence.openingLine line := fun line h => hopening h.1
  have hcontent : content.destutter' Apart fence.openingLine = fence.openingLine :: content.destutter Apart := by
    cases content with
    | nil => rfl
    | cons line content => rw [List.destutter', if_pos (hapart line)]; rfl
  have hquote : (fun rendered line => pushLine rendered (quoteLine false line)) = pushLine := by
    funext rendered line
    rfl
  have hfirst : pushLine [] fence.openingLine = [] ++ [fence.openingLine] := if_neg fun h => hopening h.1
  rw [pushBlock, hquote, List.foldl_concat, List.foldl_cons, hfirst, foldl_pushLine, hcontent, List.nil_append]
  exact if_neg fun h => closingLine_ne_nil fence h.1

theorem mem_of_mem_destutter (h : line ∈ content.destutter Apart) :
    line ∈ content := (List.destutter_sublist Apart content).subset h

section Carrier

variable (urlScheme : List Char → Option String) (carrier : MarkdownCarrier) {opening closing text : List Char}

/-- One pass writes a fenced block again, without blank lines after blank lines. -/
theorem projectMarkdownOnce_block {fence : Fence} {content : List (List Char)}
    (hblock : IsBlock fence opening content closing) (hopening : IsLine opening) (hcontent : ∀ l ∈ content, IsLine l)
    (hclosing : IsLine closing)
    (hshort : ∀ line ∈ content, ∀ marker, delimiterOnlyRun line marker < maxSafeFenceMarkerChars) :
    ∃ other : Fence, other.language = fence.language ∧
      (∀ line ∈ content, delimiterOnlyRun line other.marker < other.length) ∧
      projectMarkdownOnce urlScheme carrier (block opening content closing) = other.block (content.destutter Apart) := by
  obtain ⟨hsame, hlanguage, hlonger⟩ := canonicalFence_of_short ⟨fence.language, fence.admissible⟩ hshort
  refine ⟨_, hlanguage, hlonger, ?_⟩
  rw [projectMarkdownOnce, block, lines_joined (List.forall_mem_cons.2 ⟨hopening, hcontent⟩)
    (ne_nil_of_isClosingFence hblock.closes) hclosing.1, List.cons_append, projectLines, hblock.opens]
  dsimp only
  rw [fencedLines_block hblock]
  dsimp only
  rw [hsame, FenceContext.plain_quoted, pushBlock_bare, projectLines, joinLines,
    List.rdropWhile_concat_neg _ _ _ (by simpa using closingLine_ne_nil _)]
  rfl

theorem isBlock_openingLine {fence : Fence} {content : List (List Char)}
    (h : ∀ line ∈ content, delimiterOnlyRun line fence.marker < fence.length) :
    IsBlock fence fence.openingLine content fence.closingLine :=
  ⟨parseFenceOpening_openingLine ⟨fence, .plain false⟩, isClosingFence_closingLine fence, h⟩

theorem isLine_of_kept {line : List Char} (h : ∀ c ∈ line, isKept c = true ∧ c ≠ '\n') : IsLine line :=
  ⟨fun hmem => (h _ hmem).2 rfl, fun hmem => absurd (h _ hmem).1 (by decide)⟩

theorem unifyLineEndings_of_not_mem (h : '\r' ∉ text) : unifyLineEndings text = text := by
  induction text with
  | nil => rfl
  | cons c rest ih =>
    rw [List.mem_cons, not_or] at h
    rw [unifyLineEndings, ih h.2]
    · exact fun _ hc => absurd hc.symm h.1
    · exact fun hc => absurd hc.symm h.1

theorem sanitizeText_of_kept (h : ∀ c ∈ text, isKept c = true) : sanitizeText text = text := by
  have hreturn : '\r' ∉ text := fun hmem => absurd (h _ hmem) (by decide)
  rw [sanitizeText, unifyLineEndings_of_not_mem hreturn, List.filter_eq_self]
  exact h

theorem mem_of_mem_block {content : List (List Char)} {c : Char} (h : c ∈ block opening content closing) :
    c = '\n' ∨ ∃ line ∈ opening :: content ++ [closing], c ∈ line := by
  rw [block, Lines.intercalate_concat, List.mem_append, List.mem_flatten] at h
  rcases h with ⟨row, hrow, hc⟩ | hc
  · obtain ⟨line, hline, rfl⟩ := List.mem_map.1 hrow
    rcases List.mem_append.1 hc with hc | hc
    · exact .inr ⟨line, List.mem_append_left _ hline, hc⟩
    · exact .inl (List.mem_singleton.1 hc)
  · exact .inr ⟨closing, List.mem_concat_self, hc⟩

/-- **The content of a fenced block is written again exactly when no blank line follows a blank line.** -/
theorem projectMarkdown_block_iff {fence : Fence} {opening closing : List Char} {content : List (List Char)}
    (hblock : IsBlock fence opening content closing)
    (hkept : ∀ line ∈ opening :: content ++ [closing], ∀ c ∈ line, isKept c = true ∧ c ≠ '\n')
    (hshort : ∀ line ∈ content, ∀ marker, delimiterOnlyRun line marker < maxSafeFenceMarkerChars) :
    (∃ other : Fence, other.language = fence.language ∧
      IsBlock other other.openingLine content other.closingLine ∧
      projectMarkdown urlScheme carrier (block opening content closing) = other.block content) ↔
      content.IsChain Apart := by
  have hline : ∀ line ∈ opening :: content ++ [closing], IsLine line := fun line hl => isLine_of_kept (hkept line hl)
  have hcontent : ∀ line ∈ content, IsLine line := fun line hl => hline line (by simp [hl])
  have hsanitized : sanitizeText (block opening content closing) = block opening content closing := by
    refine sanitizeText_of_kept fun c hc => ?_
    rcases mem_of_mem_block hc with rfl | ⟨line, hl, hc⟩
    · decide
    · exact (hkept line hl c hc).1
  obtain ⟨first, hfirst, hfirstLonger, honce⟩ := projectMarkdownOnce_block urlScheme carrier hblock
    (hline opening (by simp)) hcontent (hline closing (by simp)) hshort
  -- The second pass meets the block without the blank lines, which has none to lose.
  obtain ⟨second, hsecond, hsecondLonger, htwice⟩ := projectMarkdownOnce_block urlScheme carrier
    (isBlock_openingLine fun line hl => hfirstLonger line (mem_of_mem_destutter hl)) (isLine_openingLine first)
    (fun line hl => hcontent line (mem_of_mem_destutter hl)) (isLine_closingLine first)
    fun line hl => hshort line (mem_of_mem_destutter hl)
  rw [List.destutter_idem] at htwice
  have hprojected : projectMarkdown urlScheme carrier (block opening content closing) =
      second.block (content.destutter Apart) := by
    rw [projectMarkdown, hsanitized, honce]
    exact htwice
  rw [hprojected]
  constructor
  · rintro ⟨other, -, -, hother⟩
    have hsame := block_injective (fun line hl => hcontent line (mem_of_mem_destutter hl)) hcontent hother
    rw [← hsame]
    exact List.isChain_destutter Apart content
  · intro hchain
    have hsame : content.destutter Apart = content := List.destutter_eq_self_iff Apart content |>.2 hchain
    rw [hsame] at hsecondLonger ⊢
    exact ⟨second, hsecond.trans hfirst, isBlock_openingLine hsecondLonger, rfl⟩

end Carrier

theorem kept_of_all {lines : List (List Char)} (h : (lines.all fun line => line.all fun c => isKept c && c != '\n') = true) :
    ∀ line ∈ lines, ∀ c ∈ line, isKept c = true ∧ c ≠ '\n' := by
  simpa using h

def rustFence : Fence := ⟨.backtick, 4, "rust".toList, by decide, by decide⟩

/-- Content that looks like a quote, a list item, a table and a shorter fence is written again as it is. -/
theorem projectMarkdown_rustBlock :
    ∃ other : Fence, other.language = "rust".toList ∧
      IsBlock other other.openingLine ["> a".toList, "".toList, "- b".toList, "c | d".toList, "--- | ---".toList, "```".toList]
        other.closingLine ∧
      projectMarkdown (fun _ => none) .post "  ```` rust\n> a\n\n- b\nc | d\n--- | ---\n```\n`````".toList =
        other.block ["> a".toList, "".toList, "- b".toList, "c | d".toList, "--- | ---".toList, "```".toList] :=
  (@projectMarkdown_block_iff (fun _ => none) .post rustFence "  ```` rust".toList "`````".toList
    ["> a".toList, "".toList, "- b".toList, "c | d".toList, "--- | ---".toList, "```".toList]
    ⟨by with_unfolding_all decide, by decide, by decide⟩ (kept_of_all (by with_unfolding_all decide))
    (fun line hl marker => by cases marker <;> revert line <;> decide)).2 (by decide)

/-- One of two blank lines in a block is lost. -/
theorem projectMarkdown_loses_blank_line :
    IsBlock rustFence "````rust".toList ["a".toList, "".toList, "".toList, "b".toList] "````".toList ∧
      ¬ ∃ other : Fence, projectMarkdown (fun _ => none) .post "````rust\na\n\n\nb\n````".toList =
        other.block ["a".toList, "".toList, "".toList, "b".toList] := by
  refine ⟨⟨by with_unfolding_all decide, by decide, by decide⟩, ?_⟩
  rintro ⟨other, hother⟩
  have hprojected : projectMarkdown (fun _ => none) .post "````rust\na\n\n\nb\n````".toList =
      (⟨.backtick, 3, "rust".toList, by decide, by decide⟩ : Fence).block ["a".toList, "".toList, "b".toList] := by
    with_unfolding_all decide
  rw [hprojected] at hother
  have hsame := block_injective (by decide) (by decide) hother
  exact absurd hsame (by decide)

end LarkCodexBridge.Render.Markdown

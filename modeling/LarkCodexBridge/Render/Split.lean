import LarkCodexBridge.Render.Fences

/-!
# The Markdown splitter

`splitLarkMarkdown` cuts a rendered text into parts that fit a reply each. A cut inside a fence closes it in the part and
reopens it in the rest. Positions count characters.

* `splitPieces`: the parts with what the splitter put around the text's own characters (`splitLarkMarkdown_eq`);
* `reopening_le_of_admissible`: no cut falls into a reopened line;
* `restored_iff`: deleting what was put in gives the text back exactly when no cut swallows a blank line.
-/

namespace LarkCodexBridge.Render.Markdown

open Lines Limits

/-! ## Sizes on the wire -/

/-- The characters with an escape of their own in a JSON string. -/
def shortEscapes : List Char := ['"', '\\', '\x08', '\t', '\n', '\x0c', '\r']

/-- How the JSON serializer writes a character of a string. -/
structure JsonEscaping where
  escape : Char → List Char
  short : ∀ c ∈ shortEscapes, ∃ d ∈ ['"', '\\', 'b', 't', 'n', 'f', 'r'], escape c = ['\\', d]
  control : ∀ c, c.toNat < 0x20 → c ∉ shortEscapes →
    ∃ a b : ℕ, a < 16 ∧ b < 16 ∧ escape c = ['\\', 'u', '0', '0', a.digitChar, b.digitChar]
  plain : ∀ c, 0x20 ≤ c.toNat → c ∉ shortEscapes → escape c = [c]

def postMarkdownContent (J : JsonEscaping) (markdown : List Char) : List Char :=
  "\x7b\"zh_cn\":\x7b\"content\":[[\x7b\"tag\":\"md\",\"text\":\"".toList ++ markdown.flatMap J.escape ++
    "\"\x7d]]\x7d\x7d".toList

def postMarkdownReplyBody (J : JsonEscaping) (markdown : List Char) (inThread : Bool) : List Char :=
  "\x7b\"msg_type\":\"post\",\"content\":\"".toList ++ (postMarkdownContent J markdown).flatMap J.escape ++ ['"'] ++
    (if inThread then ",\"reply_in_thread\":true".toList else []) ++ ['\x7d']

def postMarkdownReplyBodyLen (J : JsonEscaping) (markdown : List Char) (inThread : Bool) : ℕ :=
  utf8Bytes (postMarkdownReplyBody J markdown inThread)

/-! ## Boundaries -/

/-- A line that opens or closes a fence where `active` is open. -/
def isDelimiter (active : Option OpenFence) (line : List Char) : Bool :=
  match active with
  | none => (parseFenceOpening line).isSome
  | some fence => fence.closedBy line

/-- The complete lines before the boundary. -/
def cutFront (text : List Char) (boundary : ℕ) : List Char := finished '\n' (text.take boundary)

/-- The piece of the divided line before the boundary. -/
def cutHead (text : List Char) (boundary : ℕ) : List Char := unfinished '\n' (text.take boundary)

/-- The piece of the divided line after the boundary. -/
def cutTail (text : List Char) (boundary : ℕ) : List Char := upcoming '\n' (text.drop boundary)

/-- A boundary inside a fence delimiter is moved to the start of its line. -/
def atomicFenceBoundary (text : List Char) (boundary : ℕ) : ℕ :=
  if boundary = 0 ∨ text.length ≤ boundary then boundary
  else if cutHead text boundary = [] ∨ cutTail text boundary = [] then boundary
  else if isDelimiter (openFenceAtEnd (cutFront text boundary)) (cutHead text boundary ++ cutTail text boundary) then
    (cutFront text boundary).length
  else boundary

/-- The boundary after `count` characters, or after the last line break in their second half. -/
def preferredBoundary (text : List Char) (count : ℕ) : ℕ :=
  let exact := min count text.length
  let newline := (finished '\n' (text.take exact)).length
  atomicFenceBoundary text (if newline ≠ 0 ∧ count / 2 ≤ newline then newline else exact)

/-! ## One cut -/

def endLine (text : List Char) : List Char := if text.getLast? = some '\n' then text else text ++ ['\n']

def closeFence (before : List Char) : List Char :=
  match openFenceAtEnd before with
  | none => before
  | some fence => endLine before ++ fence.closingLine

/-- `strip_prefix('\n')`, or the text itself. -/
def stripNewline (text : List Char) : List Char := if text.head? = some '\n' then text.tail else text

/-- The part and the rest of a cut. -/
def closeAndReopen (before after : List Char) : List Char × List Char :=
  match openFenceAtEnd before with
  | none => (before, after)
  | some fence => (endLine before ++ fence.closingLine, fence.openingLine ++ '\n' :: stripNewline after)

def replyTruncationMarker : List Char := "…[truncated]".toList

/-- The part that ends at the boundary with the truncation marker. -/
def truncatedAt (text : List Char) (boundary : ℕ) : List Char :=
  let candidate := closeFence (text.take boundary)
  (if candidate = [] then candidate else endLine candidate) ++ replyTruncationMarker

/-! ## The splitter -/

section Splitter

variable (J : JsonEscaping) (maxChars maxWireBytes : ℕ)

def fits (text : List Char) : Bool := text.length ≤ maxChars && postMarkdownReplyBodyLen J text true ≤ maxWireBytes

/-- A cut that `split_one` accepts. -/
def admissible (text : List Char) (boundary : ℕ) : Bool :=
  boundary ≠ 0 && boundary < text.length &&
    ((closeAndReopen (text.take boundary) (text.drop boundary)).2 ≠ text) &&
    fits J maxChars maxWireBytes (closeAndReopen (text.take boundary) (text.drop boundary)).1

/-- The first admissible boundary for a count from `count` down to 1. -/
def splitBoundaryFrom (text : List Char) : ℕ → Option ℕ
  | 0 => none
  | count + 1 =>
    let boundary := preferredBoundary text (count + 1)
    if admissible J maxChars maxWireBytes text boundary then some boundary else splitBoundaryFrom text count

/-- The boundary of `split_one`; without one it panics. -/
def splitBoundary (text : List Char) : Option ℕ :=
  splitBoundaryFrom J maxChars maxWireBytes text (min text.length maxChars)

def splitOne (text : List Char) : Option (List Char × List Char) :=
  (splitBoundary J maxChars maxWireBytes text).map fun boundary =>
    closeAndReopen (text.take boundary) (text.drop boundary)

/-- The first boundary for a count from `count` down to 0 whose truncated part fits. -/
def truncatedBoundaryFrom (text : List Char) : ℕ → Option ℕ
  | 0 => if fits J maxChars maxWireBytes (truncatedAt text 0) then some 0 else none
  | count + 1 =>
    let boundary := preferredBoundary text (count + 1)
    if fits J maxChars maxWireBytes (truncatedAt text boundary) then some boundary else truncatedBoundaryFrom text count

def truncatedBoundary (text : List Char) : Option ℕ :=
  truncatedBoundaryFrom J maxChars maxWireBytes text (min text.length maxChars)

/-- The last part when the text does not fit; without one `truncated_part` panics. -/
def truncatedPart (text : List Char) : Option (List Char) :=
  (truncatedBoundary J maxChars maxWireBytes text).map (truncatedAt text)

/-- The loop of `split_lark_markdown` with `left` parts to go. -/
def splitFrom : ℕ → List Char → Option (List (List Char))
  | 0, _ => some []
  | left + 1, rest =>
    if fits J maxChars maxWireBytes rest then some [rest]
    else if left = 0 then (truncatedPart J maxChars maxWireBytes rest).map ([·])
    else
      (splitOne J maxChars maxWireBytes rest).bind fun (part, tail) =>
        if tail = rest then none else (splitFrom left tail).map (part :: ·)

end Splitter

/-- Splits rendered Markdown into parts; `none` is a panic. -/
def splitLarkMarkdown (J : JsonEscaping) (text : List Char) (maxChars maxWireBytes maxSplits : ℕ) :
    Option (List (List Char)) :=
  if maxChars = 0 ∨ maxWireBytes = 0 ∨ maxSplits = 0 then none
  else if text = [] then some []
  else splitFrom J maxChars maxWireBytes maxSplits text

/-! ## What a cut puts in -/

/-- The line break and the closing fence line that a cut puts after the text's own characters. The line break is the
text's own where the cut falls at the end of a line. -/
def insertedClosing (before after : List Char) : List Char :=
  match openFenceAtEnd before with
  | none => []
  | some fence =>
    (if before.getLast? = some '\n' ∨ after.head? = some '\n' then [] else ['\n']) ++ fence.closingLine

/-- The reopening line that a cut puts before the text's own characters. -/
def insertedReopening (before : List Char) : List Char :=
  match openFenceAtEnd before with
  | none => []
  | some fence => fence.openingLine ++ ['\n']

/-- The text's own characters in the part of a cut, with the line break at the end of their line. -/
def keptBefore (before after : List Char) : List Char :=
  if (openFenceAtEnd before).isSome ∧ before.getLast? ≠ some '\n' ∧ after.head? = some '\n' then before ++ ['\n']
  else before

/-- The text's own characters in the rest of a cut. -/
def keptAfter (before after : List Char) : List Char :=
  if (openFenceAtEnd before).isSome then stripNewline after else after

/-- The cut falls inside a fence before a blank line. -/
def SwallowsBlankLine (before after : List Char) : Prop :=
  (openFenceAtEnd before).isSome ∧ before.getLast? = some '\n' ∧ after.head? = some '\n'

instance (before after : List Char) : Decidable (SwallowsBlankLine before after) := by
  unfold SwallowsBlankLine
  infer_instance

theorem closeAndReopen_eq (before after : List Char) :
    closeAndReopen before after =
      (keptBefore before after ++ insertedClosing before after, insertedReopening before ++ keptAfter before after) := by
  unfold closeAndReopen keptBefore insertedClosing insertedReopening keptAfter
  cases openFenceAtEnd before with
  | none => simp
  | some fence =>
    by_cases hb : before.getLast? = some '\n'
    · simp [endLine, hb]
    · by_cases ha : after.head? = some '\n'
      · simp [endLine, hb, ha]
      · simp [endLine, hb, ha]

/-- A cut keeps everything but the line break of a blank line that it swallows. -/
theorem kept_append (before after : List Char) :
    before ++ after = keptBefore before after ++
      (if SwallowsBlankLine before after then ['\n'] else []) ++ keptAfter before after := by
  unfold keptBefore keptAfter SwallowsBlankLine
  by_cases ho : (openFenceAtEnd before).isSome
  · by_cases ha : after.head? = some '\n'
    · obtain ⟨rest, rfl⟩ := List.head?_eq_some_iff.1 ha
      by_cases hb : before.getLast? = some '\n' <;> simp [ho, hb, stripNewline]
    · simp [ho, ha, stripNewline]
  · simp [ho]

/-! ## The parts with their own characters -/

/-- Why a part ends where it does. -/
inductive Ending where
  | fits
  | truncated (before after : List Char)
  | cut (before after : List Char)
  deriving DecidableEq

/-- One part: the text's own characters from position `start` on, between what the splitter put in. -/
structure Piece where
  start : ℕ
  reopening : List Char
  body : List Char
  closing : List Char
  ending : Ending
  deriving DecidableEq

namespace Piece

def text (p : Piece) : List Char := p.reopening ++ p.body ++ p.closing

/-- The part ends with the truncation marker. -/
def isTruncated (p : Piece) : Bool :=
  match p.ending with
  | .truncated .. => true
  | _ => false

/-- The cut after the part swallows a blank line. -/
def swallows (p : Piece) : Bool :=
  match p.ending with
  | .cut before after => SwallowsBlankLine before after
  | _ => false

end Piece

section Pieces

variable (J : JsonEscaping) (maxChars maxWireBytes : ℕ)

/-- The loop of the splitter on a rest that begins with a reopening line. -/
def piecesFrom : ℕ → ℕ → List Char → List Char → Option (List Piece)
  | 0, _, _, _ => some []
  | left + 1, start, reopening, rest =>
    if fits J maxChars maxWireBytes rest then some [⟨start, reopening, rest.drop reopening.length, [], .fits⟩]
    else if left = 0 then
      (truncatedBoundary J maxChars maxWireBytes rest).map fun boundary =>
        [⟨start, reopening.take boundary, (rest.take boundary).drop reopening.length,
          (truncatedAt rest boundary).drop boundary, .truncated (rest.take boundary) (rest.drop boundary)⟩]
    else
      (splitBoundary J maxChars maxWireBytes rest).bind fun boundary =>
        let before := rest.take boundary
        let after := rest.drop boundary
        let consumed := rest.length - reopening.length - (keptAfter before after).length
        (piecesFrom left (start + consumed) (insertedReopening before)
            (insertedReopening before ++ keptAfter before after)).map
          (⟨start, reopening, (keptBefore before after).drop reopening.length, insertedClosing before after,
            .cut before after⟩ :: ·)

end Pieces

/-- The parts of the splitter with what was put into them. -/
def splitPieces (J : JsonEscaping) (text : List Char) (maxChars maxWireBytes maxSplits : ℕ) : Option (List Piece) :=
  if maxChars = 0 ∨ maxWireBytes = 0 ∨ maxSplits = 0 then none
  else if text = [] then some []
  else piecesFrom J maxChars maxWireBytes maxSplits 0 [] text

/-! ## No cut falls into a reopened line -/

theorem cutFront_append_cutHead (text : List Char) (boundary : ℕ) :
    cutFront text boundary ++ cutHead text boundary = text.take boundary := finished_append_unfinished _

theorem atomicFenceBoundary_le (text : List Char) (boundary : ℕ) : atomicFenceBoundary text boundary ≤ boundary := by
  have hlen := congrArg List.length (cutFront_append_cutHead text boundary)
  rw [List.length_append, List.length_take] at hlen
  unfold atomicFenceBoundary
  split_ifs <;> omega

theorem cut_first_line {line : List Char} (hline : '\n' ∉ line) {boundary : ℕ} (hle : boundary ≤ line.length)
    (own : List Char) :
    cutFront (line ++ '\n' :: own) boundary = [] ∧ cutHead (line ++ '\n' :: own) boundary = line.take boundary ∧
      cutTail (line ++ '\n' :: own) boundary = line.drop boundary := by
  have hhead : '\n' ∉ line.take boundary := fun h => hline (List.mem_of_mem_take h)
  have htail : '\n' ∉ line.drop boundary := fun h => hline (List.mem_of_mem_drop h)
  rw [cutFront, cutHead, cutTail, List.take_append_of_le_length hle, List.drop_append_of_le_length hle]
  exact ⟨(finished_of_line hhead).1, (finished_of_line hhead).2, upcoming_line_append htail (.inr rfl)⟩

theorem length_le_cutFront (line own : List Char) {boundary : ℕ} (hlt : line.length < boundary) :
    line.length < (cutFront (line ++ '\n' :: own) boundary).length := by
  have htake : (line ++ '\n' :: own).take boundary = (line ++ ['\n']) ++ own.take (boundary - line.length - 1) := by
    rw [List.take_append, List.take_of_length_le hlt.le]
    obtain ⟨k, hk⟩ := Nat.exists_eq_add_of_lt hlt
    rw [hk, show line.length + k + 1 - line.length = k + 1 by omega, List.take_succ_cons, show k + 1 - 1 = k by omega]
    simp
  rw [cutFront, htake, (finished_whole_append (whole_snoc line)).1, List.length_append, List.length_append,
    List.length_singleton]
  omega

theorem atomicFenceBoundary_opening {line : List Char} (hline : '\n' ∉ line) (hopen : (parseFenceOpening line).isSome)
    (own : List Char) (boundary : ℕ) :
    atomicFenceBoundary (line ++ '\n' :: own) boundary = 0 ∨
      line.length ≤ atomicFenceBoundary (line ++ '\n' :: own) boundary := by
  have hlen : (line ++ '\n' :: own).length = line.length + own.length + 1 := by
    simp only [List.length_append, List.length_cons]
    omega
  by_cases hin : boundary ≤ line.length
  · obtain ⟨hfront, hhead, htail⟩ := cut_first_line hline hin own
    by_cases hends : boundary = 0 ∨ boundary = line.length
    · have hle := atomicFenceBoundary_le (line ++ '\n' :: own) boundary
      rcases hends with rfl | rfl
      · exact .inl (Nat.le_zero.1 hle)
      · refine .inr ?_
        have hempty : cutTail (line ++ '\n' :: own) line.length = [] := by rw [htail, List.drop_length]
        unfold atomicFenceBoundary
        split_ifs with hout hsplit
        · exact le_rfl
        · exact le_rfl
        · exact absurd (.inr hempty) hsplit
        · exact le_rfl
    · -- inside the line the whole line is the delimiter
      have hdelim : isDelimiter (openFenceAtEnd (cutFront (line ++ '\n' :: own) boundary))
          (cutHead (line ++ '\n' :: own) boundary ++ cutTail (line ++ '\n' :: own) boundary) = true := by
        rw [hfront, hhead, htail, List.take_append_drop]
        exact hopen
      have hhead' : cutHead (line ++ '\n' :: own) boundary ≠ [] := by
        rw [hhead, Ne, List.take_eq_nil_iff, not_or]
        exact ⟨fun h => hends (.inl h), fun h => hends (.inr (by rw [h] at hin ⊢; exact Nat.le_zero.1 hin))⟩
      have htail' : cutTail (line ++ '\n' :: own) boundary ≠ [] := by
        rw [htail, Ne, List.drop_eq_nil_iff]
        omega
      rw [atomicFenceBoundary, if_neg (by omega), if_neg (by simp [hhead', htail']), if_pos hdelim, hfront]
      exact .inl rfl
  · refine .inr ?_
    have hfront := length_le_cutFront line own (not_le.1 hin)
    unfold atomicFenceBoundary
    split_ifs <;> omega

/-- What a rest begins with: nothing, or the reopening line of a fence. -/
def Reopening (reopening : List Char) : Prop :=
  reopening = [] ∨ ∃ fence : OpenFence, reopening = fence.openingLine ++ ['\n']

theorem reopening_inserted (before : List Char) : Reopening (insertedReopening before) := by
  unfold insertedReopening
  cases openFenceAtEnd before with
  | none => exact .inl rfl
  | some fence => exact .inr ⟨fence, rfl⟩

section Splitter

variable {J : JsonEscaping} {maxChars maxWireBytes : ℕ}

variable {text reopening own : List Char} {boundary : ℕ}

theorem admissible_of_splitBoundary (h : splitBoundary J maxChars maxWireBytes text = some boundary) :
    admissible J maxChars maxWireBytes text boundary = true ∧ ∃ count, boundary = preferredBoundary text count := by
  have hfrom : ∀ count, splitBoundaryFrom J maxChars maxWireBytes text count = some boundary →
      admissible J maxChars maxWireBytes text boundary = true ∧ ∃ count, boundary = preferredBoundary text count := by
    intro count
    induction count with
    | zero => exact fun h => absurd h (by simp [splitBoundaryFrom])
    | succ count ih =>
      intro h
      rw [splitBoundaryFrom] at h
      split at h
      · rename_i hadm
        obtain rfl := Option.some.inj h
        exact ⟨hadm, count + 1, rfl⟩
      · exact ih h
  exact hfrom _ h

theorem of_truncatedBoundary (h : truncatedBoundary J maxChars maxWireBytes text = some boundary) :
    fits J maxChars maxWireBytes (truncatedAt text boundary) = true ∧
      (boundary = 0 ∨ ∃ count, boundary = preferredBoundary text count) := by
  have hfrom : ∀ count, truncatedBoundaryFrom J maxChars maxWireBytes text count = some boundary →
      fits J maxChars maxWireBytes (truncatedAt text boundary) = true ∧
        (boundary = 0 ∨ ∃ count, boundary = preferredBoundary text count) := by
    intro count
    induction count with
    | zero =>
      intro h
      rw [truncatedBoundaryFrom] at h
      split at h
      · rename_i hfits
        obtain rfl := Option.some.inj h
        exact ⟨hfits, .inl rfl⟩
      · cases h
    | succ count ih =>
      intro h
      rw [truncatedBoundaryFrom] at h
      split at h
      · rename_i hfits
        obtain rfl := Option.some.inj h
        exact ⟨hfits, .inr ⟨count + 1, rfl⟩⟩
      · exact ih h
  exact hfrom _ h

theorem admissible_iff :
    admissible J maxChars maxWireBytes text boundary = true ↔
      boundary ≠ 0 ∧ boundary < text.length ∧ (closeAndReopen (text.take boundary) (text.drop boundary)).2 ≠ text ∧
        fits J maxChars maxWireBytes (closeAndReopen (text.take boundary) (text.drop boundary)).1 = true := by
  simp [admissible, and_assoc]

/-- No cut falls into the reopening line at the start of a rest. -/
theorem reopening_le_of_admissible (hr : Reopening reopening)
    (h : splitBoundary J maxChars maxWireBytes (reopening ++ own) = some boundary) : reopening.length ≤ boundary := by
  rcases hr with rfl | ⟨fence, rfl⟩
  · exact Nat.zero_le _
  · obtain ⟨hadm, count, hcount⟩ := admissible_of_splitBoundary h
    obtain ⟨hzero, -, hprogress, -⟩ := admissible_iff.1 hadm
    have hnewline := (openingLine_no_newline fence).1
    have hparse := parseFenceOpening_openingLine fence
    rw [List.append_assoc, List.singleton_append] at hcount hprogress
    by_contra hlt
    rw [List.length_append, List.length_singleton, not_le, Nat.lt_succ_iff] at hlt
    have hcase : boundary = 0 ∨ fence.openingLine.length ≤ boundary :=
      hcount ▸ atomicFenceBoundary_opening hnewline (by rw [hparse]; rfl) own _
    -- only the end of the reopening line is left, and there the rest would not change
    obtain rfl : boundary = fence.openingLine.length := by omega
    refine hprogress ?_
    rw [List.take_left, List.drop_left, closeAndReopen, openFenceAtEnd, openFrom_line hnewline, advance, hparse]
    simp [OpenFence.openingLine, stripNewline]

/-! ## The parts are the text's own characters between what was put in -/

theorem before_append_keptBefore (before after : List Char) : ∃ more, keptBefore before after = before ++ more := by
  unfold keptBefore
  split_ifs
  · exact ⟨_, rfl⟩
  · exact ⟨[], (List.append_nil _).symm⟩

/-- Past the reopening line, what a cut keeps is the reopening line and own characters. -/
theorem keptBefore_append_drop {reopening own after : List Char} {boundary : ℕ} (hle : reopening.length ≤ boundary) :
    reopening ++ (keptBefore ((reopening ++ own).take boundary) after).drop reopening.length =
      keptBefore ((reopening ++ own).take boundary) after := by
  obtain ⟨more, hmore⟩ := before_append_keptBefore ((reopening ++ own).take boundary) after
  rw [hmore, List.take_append, List.take_of_length_le hle, List.append_assoc, List.drop_left]

theorem endLine_eq (text : List Char) : ∃ more, endLine text = text ++ more := by
  unfold endLine
  split_ifs
  · exact ⟨[], (List.append_nil _).symm⟩
  · exact ⟨_, rfl⟩

theorem closeFence_eq (text : List Char) : ∃ more, closeFence text = text ++ more := by
  unfold closeFence
  cases openFenceAtEnd text with
  | none => exact ⟨[], (List.append_nil _).symm⟩
  | some fence =>
    obtain ⟨more, hmore⟩ := endLine_eq text
    exact ⟨more ++ fence.closingLine, by dsimp only; rw [hmore, List.append_assoc]⟩

theorem truncatedAt_eq (text : List Char) (boundary : ℕ) : ∃ more, truncatedAt text boundary = text.take boundary ++ more := by
  obtain ⟨more, hmore⟩ := closeFence_eq (text.take boundary)
  obtain ⟨line, hline⟩ := endLine_eq (closeFence (text.take boundary))
  rw [truncatedAt]
  split
  · exact ⟨more ++ replyTruncationMarker, by rw [hmore, List.append_assoc]⟩
  · exact ⟨more ++ line ++ replyTruncationMarker, by rw [hline, hmore]; simp⟩

theorem preferredBoundary_le (text : List Char) (count : ℕ) : preferredBoundary text count ≤ text.length := by
  refine (atomicFenceBoundary_le _ _).trans ?_
  have hlen := congrArg List.length (finished_append_unfinished (s := '\n') (text.take (min count text.length)))
  rw [List.length_append, List.length_take] at hlen
  split_ifs <;> omega

theorem length_take_of_truncatedBoundary (h : truncatedBoundary J maxChars maxWireBytes text = some boundary) :
    (text.take boundary).length = boundary := by
  have hle : boundary ≤ text.length := by
    rcases (of_truncatedBoundary h).2 with rfl | ⟨count, rfl⟩
    · exact Nat.zero_le _
    · exact preferredBoundary_le _ _
  rw [List.length_take, Nat.min_eq_left hle]

theorem take_reopening (reopening own : List Char) (boundary : ℕ) :
    reopening.take boundary ++ ((reopening ++ own).take boundary).drop reopening.length = (reopening ++ own).take boundary := by
  rw [List.take_append]
  rcases Nat.le_total boundary reopening.length with hle | hle
  · rw [Nat.sub_eq_zero_of_le hle, List.take_zero, List.append_nil, List.drop_of_length_le (by simp), List.append_nil]
  · rw [List.take_of_length_le hle, List.drop_left]

theorem text_truncated {start : ℕ} {ending : Ending}
    (h : truncatedBoundary J maxChars maxWireBytes (reopening ++ own) = some boundary) :
    Piece.text ⟨start, reopening.take boundary, ((reopening ++ own).take boundary).drop reopening.length,
      (truncatedAt (reopening ++ own) boundary).drop boundary, ending⟩ = truncatedAt (reopening ++ own) boundary := by
  obtain ⟨more, hmore⟩ := truncatedAt_eq (reopening ++ own) boundary
  have hdrop : (truncatedAt (reopening ++ own) boundary).drop boundary = more := by
    rw [hmore]
    exact List.drop_left' (length_take_of_truncatedBoundary h)
  rw [Piece.text, take_reopening, hdrop, hmore]

/-- The loop gives the texts of the pieces. -/
theorem splitFrom_eq (left start : ℕ) (own : List Char) (hr : Reopening reopening) :
    splitFrom J maxChars maxWireBytes left (reopening ++ own) =
      (piecesFrom J maxChars maxWireBytes left start reopening (reopening ++ own)).map (·.map Piece.text) := by
  induction left generalizing start reopening own with
  | zero => rfl
  | succ left ih =>
    rw [splitFrom, piecesFrom]
    split_ifs with hfits hleft
    · simp [Piece.text]
    · rw [truncatedPart]
      cases hb : truncatedBoundary J maxChars maxWireBytes (reopening ++ own) with
      | none => rfl
      | some boundary =>
        simp only [Option.map_some, List.map_cons, List.map_nil, text_truncated hb]
    · rw [splitOne]
      cases hb : splitBoundary J maxChars maxWireBytes (reopening ++ own) with
      | none => rfl
      | some boundary =>
        obtain ⟨-, -, hprogress, -⟩ := admissible_iff.1 (admissible_of_splitBoundary hb).1
        have hkept := @keptBefore_append_drop _ own ((reopening ++ own).drop boundary) _
          (reopening_le_of_admissible hr hb)
        simp only [Option.map_some, Option.bind_some]
        rw [if_neg hprogress, closeAndReopen_eq]
        dsimp only
        rw [ih _ _ (reopening_inserted _), Option.map_map, Option.map_map]
        congr 1
        funext pieces
        simp [Piece.text, hkept]

end Splitter

/-- Every run of the splitter gives the texts of its pieces. -/
theorem splitLarkMarkdown_eq (J : JsonEscaping) (text : List Char) (maxChars maxWireBytes maxSplits : ℕ) :
    splitLarkMarkdown J text maxChars maxWireBytes maxSplits =
      (splitPieces J text maxChars maxWireBytes maxSplits).map (·.map Piece.text) := by
  unfold splitLarkMarkdown splitPieces
  split_ifs
  · rfl
  · rfl
  · exact splitFrom_eq maxSplits 0 text (.inl rfl)

/-! ## Nothing is lost but swallowed blank lines -/

section Splitter

variable {J : JsonEscaping} {maxChars maxWireBytes : ℕ}

/-- The own characters of the pieces are those of the rest, up to one line break for every swallowed blank line. -/
theorem bodies_of_piecesFrom {left start : ℕ} {reopening own : List Char} {pieces : List Piece} (hr : Reopening reopening)
    (h : piecesFrom J maxChars maxWireBytes (left + 1) start reopening (reopening ++ own) = some pieces)
    (hwhole : ∀ p ∈ pieces, p.isTruncated = false) :
    (pieces.flatMap Piece.body).length + pieces.countP Piece.swallows = own.length ∧
      (pieces.countP Piece.swallows = 0 → pieces.flatMap Piece.body = own) := by
  induction left generalizing start reopening own pieces with
  | zero =>
    rw [piecesFrom] at h
    split at h
    · obtain rfl := Option.some.inj h
      simp [Piece.swallows]
    · rw [if_pos rfl] at h
      obtain ⟨boundary, -, rfl⟩ := Option.map_eq_some_iff.1 h
      exact absurd (hwhole _ List.mem_cons_self) (by simp [Piece.isTruncated])
  | succ left ih =>
    rw [piecesFrom] at h
    split at h
    · obtain rfl := Option.some.inj h
      simp [Piece.swallows]
    · rw [if_neg (by omega)] at h
      obtain ⟨boundary, hb, h⟩ := Option.bind_eq_some_iff.1 h
      obtain ⟨later, hlater, rfl⟩ := Option.map_eq_some_iff.1 h
      have hle := reopening_le_of_admissible hr hb
      generalize hafter : (reopening ++ own).drop boundary = after at *
      have hkept := @keptBefore_append_drop _ own after _ hle
      have hsplit := kept_append ((reopening ++ own).take boundary) after
      rw [← hafter, List.take_append_drop, hafter, ← hkept, List.append_assoc, List.append_assoc] at hsplit
      have hown := List.append_cancel_left hsplit
      obtain ⟨hlen, heq⟩ := ih (reopening_inserted _) hlater fun p hp => hwhole p (List.mem_cons_of_mem _ hp)
      rw [List.flatMap_cons, List.countP_cons, List.length_append]
      have hlength := congrArg List.length hown
      simp only [List.length_append] at hlength
      by_cases hswallow : SwallowsBlankLine ((reopening ++ own).take boundary) after
      · simp only [hswallow, if_true, List.length_singleton] at hlength
        simp only [Piece.swallows, hswallow, decide_true, if_true]
        exact ⟨by omega, fun h0 => absurd h0 (by omega)⟩
      · simp only [hswallow, if_false, List.length_nil, List.nil_append] at hlength hown
        simp only [Piece.swallows, hswallow, decide_false, Bool.false_eq_true, if_false, Nat.add_zero]
        exact ⟨by omega, fun h0 => by rw [heq h0, ← hown]⟩

end Splitter

/-- **What the splitter put in is deleted from parts that are not truncated, and the text is back exactly when no cut
swallowed a blank line of a fenced block.** -/
theorem restored_iff {J : JsonEscaping} {text : List Char} {maxChars maxWireBytes maxSplits : ℕ} {parts : List (List Char)}
    (h : splitLarkMarkdown J text maxChars maxWireBytes maxSplits = some parts) :
    ∃ pieces, splitPieces J text maxChars maxWireBytes maxSplits = some pieces ∧ parts = pieces.map Piece.text ∧
      ((∀ p ∈ pieces, p.isTruncated = false) →
        (pieces.flatMap Piece.body = text ↔ ∀ p ∈ pieces, p.swallows = false)) := by
  rw [splitLarkMarkdown_eq] at h
  obtain ⟨pieces, hpieces, rfl⟩ := Option.map_eq_some_iff.1 h
  refine ⟨pieces, hpieces, rfl, fun hwhole => ?_⟩
  unfold splitPieces at hpieces
  split_ifs at hpieces with hzero hempty
  · obtain rfl := Option.some.inj hpieces
    simp [hempty]
  · obtain ⟨left, rfl⟩ := Nat.exists_eq_succ_of_ne_zero (show maxSplits ≠ 0 by omega)
    obtain ⟨hlen, heq⟩ := @bodies_of_piecesFrom _ _ _ _ _ [] text _ (.inl rfl) hpieces hwhole
    constructor
    · intro hback p hp
      rw [hback] at hlen
      by_contra hswallow
      have := List.countP_pos_iff.2 ⟨p, hp, by simpa using hswallow⟩
      omega
    · intro hnone
      exact heq (List.countP_eq_zero.2 fun p hp => by simp [hnone p hp])

/-- The escapes of `serde_json`. -/
def escapeJson (c : Char) : List Char :=
  if c = '"' ∨ c = '\\' then ['\\', c]
  else if c = '\x08' then ['\\', 'b']
  else if c = '\t' then ['\\', 't']
  else if c = '\n' then ['\\', 'n']
  else if c = '\x0c' then ['\\', 'f']
  else if c = '\r' then ['\\', 'r']
  else if c.toNat < 0x20 then ['\\', 'u', '0', '0', (c.toNat / 16).digitChar, (c.toNat % 16).digitChar]
  else [c]

def serdeJson : JsonEscaping where
  escape := escapeJson
  short := by
    intro c hc
    simp only [shortEscapes, List.mem_cons, List.not_mem_nil, or_false] at hc
    rcases hc with rfl | rfl | rfl | rfl | rfl | rfl | rfl <;> exact ⟨_, by simp, rfl⟩
  control := by
    intro c hc hshort
    simp only [shortEscapes, List.mem_cons, List.not_mem_nil, or_false, not_or] at hshort
    exact ⟨c.toNat / 16, c.toNat % 16, by omega, by omega, by simp [escapeJson, hshort, hc]⟩
  plain := by
    intro c hc hshort
    simp only [shortEscapes, List.mem_cons, List.not_mem_nil, or_false, not_or] at hshort
    simp [escapeJson, hshort, hc]

set_option maxRecDepth 20000 in
/-- A cut before the blank line of a fenced block: the line is in no part, and the text without it has the same parts. -/
theorem blankLine_swallowed :
    (∃ pieces, splitPieces serdeJson "```\naaaa\n\nbbbb\n```".toList 12 1000 8 = some pieces ∧
      (∀ p ∈ pieces, p.isTruncated = false) ∧ pieces.flatMap Piece.body ≠ "```\naaaa\n\nbbbb\n```".toList) ∧
    splitLarkMarkdown serdeJson "```\naaaa\n\nbbbb\n```".toList 12 1000 8 =
      some ["```\naaaa\n```".toList, "```\nbbbb\n```".toList] ∧
    splitLarkMarkdown serdeJson "```\naaaa\nbbbb\n```".toList 12 1000 8 =
      some ["```\naaaa\n```".toList, "```\nbbbb\n```".toList] := by
  refine ⟨⟨(splitPieces serdeJson "```\naaaa\n\nbbbb\n```".toList 12 1000 8).getD [], ?_, ?_, ?_⟩, ?_, ?_⟩ <;> with_unfolding_all decide

set_option maxRecDepth 20000 in
/-- A text whose cut falls between two code lines comes back. -/
theorem restored_codeBlock :
    ∃ pieces, splitPieces serdeJson "```\naaaa\nbbbb\n```".toList 12 1000 8 = some pieces ∧
      ["```\naaaa\n```".toList, "```\nbbbb\n```".toList] = pieces.map Piece.text ∧
      ((∀ p ∈ pieces, p.isTruncated = false) →
        (pieces.flatMap Piece.body = "```\naaaa\nbbbb\n```".toList ↔ ∀ p ∈ pieces, p.swallows = false)) :=
  restored_iff (by with_unfolding_all decide)

end LarkCodexBridge.Render.Markdown

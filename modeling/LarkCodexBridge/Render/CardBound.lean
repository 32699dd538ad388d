import LarkCodexBridge.Render.Markdown
import LarkCodexBridge.Render.Wire

/-!
# Bounded card snapshots

`stabilizeStreamingMarkdown` projects the text of a running turn for a card and bounds what the projection is on the wire.
`none` is a panic.

* `cardMarkdownElementWireLen_eq`: the exact length in terms of the estimate that the bound counts with;
* `boundCardFrom_spec`: walking the boundary back ends, at the latest at the start of the text;
* `stabilizeStreamingMarkdown_bounded`: every snapshot fits, and is the projection or a truncated one.
-/

namespace LarkCodexBridge.Render.Markdown

open Limits

/-! ## Sizes on the wire -/

def cardMarkdownElement (J : JsonEscaping) (markdown : List Char) : List Char :=
  "\x7b\"content\":\"".toList ++ markdown.flatMap J.escape ++ "\",\"tag\":\"markdown\"\x7d".toList

def cardMarkdownElementWireLen (J : JsonEscaping) (markdown : List Char) : ℕ := utf8Bytes (cardMarkdownElement J markdown)

def cardMarkdownFits (J : JsonEscaping) (text : List Char) : Bool :=
  utf8Bytes text ≤ larkCardMarkdownElementMaxBytes && cardMarkdownElementWireLen J text ≤ larkCardMarkdownElementMaxBytes

/-! ## The bound -/

/-- The longest front of the text whose characters fit the budget, of which `encoded` is used. -/
def encodedBoundary (budget encoded : ℕ) : List Char → ℕ
  | [] => 0
  | character :: rest =>
    let next := encoded + jsonCharacterLen character
    if budget < next then 0 else encodedBoundary budget next rest + 1

/-- The loop of `bound_card_markdown` from the boundary on. -/
def boundCardFrom (J : JsonEscaping) (text : List Char) (boundary : ℕ) : Option (List Char) :=
  let candidate := truncatedAt text boundary
  if cardMarkdownFits J candidate then some candidate
  else if boundary = 0 then none
  else boundCardFrom J text (atomicFenceBoundary text (boundary - 1))
termination_by boundary
decreasing_by
  have := atomicFenceBoundary_le text (boundary - 1)
  omega

def boundCardMarkdown (J : JsonEscaping) (text : List Char) : Option (List Char) :=
  if cardMarkdownFits J text then some text
  else
    let overhead := cardMarkdownElementWireLen J [] - 2
    let reserve := jsonStringContentLen ('\n' :: replyTruncationMarker) + maxSafeFenceMarkerChars + 4
    let prefixBudget := larkCardMarkdownElementMaxBytes - overhead - reserve
    boundCardFrom J text (atomicFenceBoundary text (encodedBoundary prefixBudget 0 text))

def stabilizeStreamingMarkdown (J : JsonEscaping) (urlScheme : List Char → Option String) (input : List Char) :
    Option (List Char) :=
  boundCardMarkdown J (projectMarkdown urlScheme .card2 input)

/-! ## The length of an element -/

theorem cardMarkdownElementWireLen_eq (J : JsonEscaping) (text : List Char) :
    cardMarkdownElementWireLen J text = jsonStringContentLen text + 31 := by
  have haround : utf8Bytes "\x7b\"content\":\"".toList + utf8Bytes "\",\"tag\":\"markdown\"\x7d".toList = 31 := by
    decide
  exact (utf8Bytes_around J _ text _).trans (congrArg (jsonStringContentLen text + ·) haround)

theorem utf8Bytes_le_wireLen (J : JsonEscaping) (text : List Char) : utf8Bytes text ≤ cardMarkdownElementWireLen J text := by
  rw [cardMarkdownElementWireLen_eq]
  exact (utf8Bytes_le_jsonStringContentLen text).trans (Nat.le_add_right _ _)

theorem cardMarkdownFits_iff {J : JsonEscaping} {text : List Char} :
    cardMarkdownFits J text = true ↔ cardMarkdownElementWireLen J text ≤ larkCardMarkdownElementMaxBytes := by
  have := utf8Bytes_le_wireLen J text
  rw [cardMarkdownFits, Bool.and_eq_true, decide_eq_true_eq, decide_eq_true_eq]
  omega

/-! ## Every snapshot is bounded -/

theorem cardMarkdownFits_marker (J : JsonEscaping) (text : List Char) : cardMarkdownFits J (truncatedAt text 0) = true := by
  rw [cardMarkdownFits_iff, cardMarkdownElementWireLen_eq]
  have hmarker : truncatedAt text 0 = replyTruncationMarker := rfl
  rw [hmarker]
  decide

/-- The walk ends at a boundary whose candidate fits. -/
theorem boundCardFrom_spec (J : JsonEscaping) (text : List Char) (boundary : ℕ) :
    ∃ final, boundCardFrom J text boundary = some (truncatedAt text final) ∧ cardMarkdownFits J (truncatedAt text final) = true := by
  induction boundary using Nat.strong_induction_on with
  | h boundary ih =>
    rw [boundCardFrom]
    by_cases hfits : cardMarkdownFits J (truncatedAt text boundary) = true
    · exact ⟨boundary, if_pos hfits, hfits⟩
    · have hpos : boundary ≠ 0 := by
        rintro rfl
        exact hfits (cardMarkdownFits_marker J text)
      have hle := atomicFenceBoundary_le text (boundary - 1)
      rw [if_neg hfits, if_neg hpos]
      exact ih _ (by omega)

/-- What a truncated text is: a front of the text, the closing line of the fence open there and the marker, each on a line
of its own. -/
theorem truncatedAt_shape (text : List Char) (boundary : ℕ) :
    (truncatedAt text boundary = replyTruncationMarker ∧ text.take boundary = []) ∨
    (openFenceAtEnd (text.take boundary) = none ∧
      truncatedAt text boundary = endLine (text.take boundary) ++ replyTruncationMarker) ∨
    ∃ fence, openFenceAtEnd (text.take boundary) = some fence ∧
      truncatedAt text boundary =
        endLine (text.take boundary) ++ fence.closingLine ++ '\n' :: replyTruncationMarker := by
  rw [truncatedAt, closeFence]
  by_cases hempty : text.take boundary = []
  · rw [hempty]
    exact .inl ⟨rfl, rfl⟩
  · cases hopen : openFenceAtEnd (text.take boundary) with
    | none => exact .inr (.inl ⟨rfl, by rw [if_neg hempty]⟩)
    | some fence =>
      refine .inr (.inr ⟨fence, rfl, ?_⟩)
      have hne : fence.closingLine ≠ [] := by
        rw [OpenFence.closingLine, quoteLine, Ne]
        split_ifs <;> simp [closingLine_ne_nil]
      have hlast : (endLine (text.take boundary) ++ fence.closingLine).getLast? ≠ some '\n' := by
        rw [List.getLast?_append_of_ne_nil _ hne]
        exact fun h => (openingLine_no_newline fence).2 (List.mem_of_getLast? h)
      dsimp only
      rw [if_neg (by simp [hne]), endLine, if_neg hlast]
      simp

/-- **Every card snapshot fits its element, and is the whole projection if that fits, else a front of it with the fence
closed and the truncation marker.** -/
theorem stabilizeStreamingMarkdown_bounded (J : JsonEscaping) (urlScheme : List Char → Option String) (input : List Char) :
    ∃ card, stabilizeStreamingMarkdown J urlScheme input = some card ∧
      cardMarkdownElementWireLen J card ≤ larkCardMarkdownElementMaxBytes ∧
      (cardMarkdownElementWireLen J (projectMarkdown urlScheme .card2 input) ≤ larkCardMarkdownElementMaxBytes →
        card = projectMarkdown urlScheme .card2 input) ∧
      (larkCardMarkdownElementMaxBytes < cardMarkdownElementWireLen J (projectMarkdown urlScheme .card2 input) →
        ∃ before, before <+: projectMarkdown urlScheme .card2 input ∧
          ((card = replyTruncationMarker ∧ before = []) ∨
            (openFenceAtEnd before = none ∧ card = endLine before ++ replyTruncationMarker) ∨
            ∃ fence, openFenceAtEnd before = some fence ∧
              card = endLine before ++ fence.closingLine ++ '\n' :: replyTruncationMarker)) := by
  rw [stabilizeStreamingMarkdown, boundCardMarkdown]
  by_cases hfits : cardMarkdownFits J (projectMarkdown urlScheme .card2 input) = true
  · rw [if_pos hfits]
    have hlen := cardMarkdownFits_iff.1 hfits
    exact ⟨_, rfl, hlen, fun _ => rfl, fun hlt => absurd hlen (not_le.2 hlt)⟩
  · rw [if_neg hfits]
    dsimp only
    obtain ⟨final, hcard, hfinal⟩ := boundCardFrom_spec J (projectMarkdown urlScheme .card2 input)
      (atomicFenceBoundary (projectMarkdown urlScheme .card2 input)
        (encodedBoundary (larkCardMarkdownElementMaxBytes - (cardMarkdownElementWireLen J [] - 2) -
          (jsonStringContentLen ('\n' :: replyTruncationMarker) + maxSafeFenceMarkerChars + 4)) 0
          (projectMarkdown urlScheme .card2 input)))
    exact ⟨_, hcard, cardMarkdownFits_iff.1 hfinal, fun hlen => absurd (cardMarkdownFits_iff.2 hlen) hfits,
      fun _ => ⟨_, List.take_prefix _ _, truncatedAt_shape _ _⟩⟩

end LarkCodexBridge.Render.Markdown

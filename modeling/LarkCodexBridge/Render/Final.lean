import LarkCodexBridge.Render.Divisible
import LarkCodexBridge.Render.Markdown

/-!
# The final reply

`projectFinal` masks, renders and splits the final answer of a turn with the production limits; `none` is a panic.

* `splitFrom_isSome_iff`: the splitter returns exactly when every rest it has to cut is divisible;
* `parts_of_splitFrom`: the parts that it returns are bounded;
* `projectFinal_bounded_iff`: the final projection returns, with bounded parts, exactly when every such rest is divisible.
-/

namespace LarkCodexBridge.Render.Markdown

open Limits
open LarkCodexBridge.Runtime (isWhitespace trim trimStart trimEnd)

/-! ## The whole run of the splitter -/

section Splitter

variable {J : JsonEscaping} {maxChars maxWireBytes : ℕ} {rest part : List Char}

/-- Every rest that the splitter has to cut with `left` parts to go satisfies the property. -/
def EveryRest (J : JsonEscaping) (maxChars maxWireBytes : ℕ) (P : List Char → Prop) : ℕ → List Char → Prop
  | 0, _ => True
  | left + 1, rest =>
    fits J maxChars maxWireBytes rest = true ∨ left = 0 ∨
      (P rest ∧ ∀ part tail, splitOne J maxChars maxWireBytes rest = some (part, tail) →
        EveryRest J maxChars maxWireBytes P left tail)

theorem fits_iff (hwire : ∀ text : List Char, text.length ≤ maxChars → postMarkdownReplyBodyLen J text true ≤ maxWireBytes)
    {text : List Char} : fits J maxChars maxWireBytes text = true ↔ text.length ≤ maxChars := by
  rw [fits, Bool.and_eq_true, decide_eq_true_eq, decide_eq_true_eq]
  exact ⟨And.left, fun h => ⟨h, hwire text h⟩⟩

/-- There is always room for the truncation marker. -/
theorem truncatedPart_isSome (hwire : ∀ text : List Char, text.length ≤ maxChars →
      postMarkdownReplyBodyLen J text true ≤ maxWireBytes) (hmarker : replyTruncationMarker.length ≤ maxChars) (text : List Char) :
    (truncatedPart J maxChars maxWireBytes text).isSome := by
  have hfrom : ∀ count, (truncatedBoundaryFrom J maxChars maxWireBytes text count).isSome := by
    intro count
    induction count with
    | zero =>
      have hfits : fits J maxChars maxWireBytes (truncatedAt text 0) = true := (fits_iff hwire).2 hmarker
      rw [truncatedBoundaryFrom, if_pos hfits]
      rfl
    | succ count ih =>
      rw [truncatedBoundaryFrom]
      split
      · rfl
      · exact ih
  rw [truncatedPart, Option.isSome_map]
  exact hfrom _

/-- The part and the rest of a cut. -/
theorem splitOne_spec {tail : List Char} (h : splitOne J maxChars maxWireBytes rest = some (part, tail)) :
    part ≠ [] ∧ tail ≠ [] ∧ tail ≠ rest ∧ fits J maxChars maxWireBytes part = true := by
  rw [splitOne] at h
  obtain ⟨boundary, hb, hcut⟩ := Option.map_eq_some_iff.1 h
  obtain ⟨hzero, hlt, htail, hfits⟩ := admissible_iff.1 (admissible_of_splitBoundary hb).1
  have hpart := length_le_part (rest.take boundary) (rest.drop boundary)
  rw [List.length_take, Nat.min_eq_left hlt.le] at hpart
  rw [hcut] at htail hfits hpart
  refine ⟨?_, ?_, htail, hfits⟩
  · rintro rfl
    exact hzero (Nat.le_zero.1 hpart)
  · cases hopen : openFenceAtEnd (rest.take boundary) with
    | none =>
      rw [closeAndReopen_closed hopen] at hcut
      rintro rfl
      have := congrArg (fun cut => cut.2.length) hcut
      simp only [List.length_drop, List.length_nil] at this
      omega
    | some fence =>
      rw [closeAndReopen_open hopen] at hcut
      rintro rfl
      simpa using congrArg (fun cut => cut.2.length) hcut

/-- **The splitter returns exactly when every rest that it has to cut is divisible.** -/
theorem splitFrom_isSome_iff (hwire : ∀ text : List Char, text.length ≤ maxChars →
      postMarkdownReplyBodyLen J text true ≤ maxWireBytes) (hmarker : replyTruncationMarker.length ≤ maxChars) (left : ℕ)
    (rest : List Char) : (splitFrom J maxChars maxWireBytes left rest).isSome ↔
      EveryRest J maxChars maxWireBytes (Divisible maxChars) left rest := by
  have hpos : 0 < maxChars := lt_of_lt_of_le (by decide) hmarker
  induction left generalizing rest with
  | zero => simp [splitFrom, EveryRest]
  | succ left ih =>
    rw [splitFrom, EveryRest]
    by_cases hfits : fits J maxChars maxWireBytes rest = true
    · simp [hfits]
    · by_cases hleft : left = 0
      · simp [hfits, hleft, truncatedPart_isSome hwire hmarker]
      · have hlong : maxChars < rest.length := not_le.1 fun hle => hfits ((fits_iff hwire).2 hle)
        rw [if_neg hfits, if_neg hleft]
        simp only [hfits, hleft, false_or]
        rw [← splitBoundary_isSome_iff hwire hpos hlong]
        cases hcut : splitOne J maxChars maxWireBytes rest with
        | none =>
          have hnone : splitBoundary J maxChars maxWireBytes rest = none := by simpa [splitOne] using hcut
          simp [hnone]
        | some cut =>
          obtain ⟨part, tail⟩ := cut
          obtain ⟨-, -, htail, -⟩ := splitOne_spec hcut
          have hsome : (splitBoundary J maxChars maxWireBytes rest).isSome := by
            rw [splitOne] at hcut
            obtain ⟨boundary, hb, -⟩ := Option.map_eq_some_iff.1 hcut
            rw [hb]
            rfl
          simp [htail, hsome, ih tail]

theorem truncatedPart_spec {text : List Char} (h : truncatedPart J maxChars maxWireBytes text = some part) :
    part ≠ [] ∧ fits J maxChars maxWireBytes part = true := by
  rw [truncatedPart] at h
  obtain ⟨boundary, hb, rfl⟩ := Option.map_eq_some_iff.1 h
  refine ⟨?_, (of_truncatedBoundary hb).1⟩
  rw [truncatedAt]
  exact List.append_ne_nil_of_right_ne_nil _ (by decide)

/-- The parts are not empty, bounded, and at least one and at most as many as allowed. -/
theorem parts_of_splitFrom {left : ℕ} {parts : List (List Char)} (hleft : left ≠ 0) (hrest : rest ≠ [])
    (h : splitFrom J maxChars maxWireBytes left rest = some parts) :
    1 ≤ parts.length ∧ parts.length ≤ left ∧ ∀ part ∈ parts, part ≠ [] ∧ fits J maxChars maxWireBytes part = true := by
  induction left generalizing rest parts with
  | zero => exact absurd rfl hleft
  | succ left ih =>
    rw [splitFrom] at h
    split at h
    · rename_i hfits
      obtain rfl := Option.some.inj h
      exact ⟨le_rfl, by simp, by simpa using ⟨hrest, hfits⟩⟩
    · split at h
      · obtain ⟨part, hpart, rfl⟩ := Option.map_eq_some_iff.1 h
        exact ⟨le_rfl, by simp, by simpa using truncatedPart_spec hpart⟩
      · rename_i hmore
        obtain ⟨⟨part, tail⟩, hcut, h⟩ := Option.bind_eq_some_iff.1 h
        obtain ⟨hpart, htail, hne, hfits⟩ := splitOne_spec hcut
        dsimp only at h
        rw [if_neg hne] at h
        obtain ⟨others, hothers, rfl⟩ := Option.map_eq_some_iff.1 h
        obtain ⟨-, hle, hall⟩ := ih hmore htail hothers
        exact ⟨by simp, by simpa using hle, List.forall_mem_cons.2 ⟨⟨hpart, hfits⟩, hall⟩⟩

end Splitter

end LarkCodexBridge.Render.Markdown

namespace LarkCodexBridge.Render.Final

open Limits Markdown
open LarkCodexBridge.Runtime (isWhitespace trim trimStart trimEnd)

/-! ## The final projection -/

section Projection

variable (J : JsonEscaping) (urlScheme : List Char → Option String) {p : ReplyProjector} {reply : ProjectedReply}
  {outcome : TurnOutcome}

/-- The text that is split. -/
def finalMarkdown (text : List Char) : List Char := emailMask (renderLarkMarkdown urlScheme (trim (emailMask text)))

def renderFinal (p : ReplyProjector) (text : List Char) : Option ProjectedReply :=
  let trimmed := trim (emailMask text)
  if trimmed = [] then some .empty
  else
    let markdown := emailMask (renderLarkMarkdown urlScheme trimmed)
    if markdown = [] then some .empty
    else
      (splitLarkMarkdown J markdown p.config.maxChars larkMaxSendBodyBytes p.config.maxSplits).map .final

def projectFinal (p : ReplyProjector) (outcome : TurnOutcome) : Option ProjectedReply :=
  match extractFinal outcome with
  | none => some .empty
  | some extracted => renderFinal J urlScheme p extracted.text

/-- The final reply of a turn whose progress was projected. -/
def finish (p : ReplyProjector) (outcome : TurnOutcome) : Option ProjectedReply :=
  match extractFinal outcome with
  | none => some (if 0 < p.emittedProgress then p.renderProgressSnapshot else .empty)
  | some extracted =>
    if 0 < p.emittedProgress then
      some (if extracted.independent then p.renderProgressFinal extracted.text else p.renderProgressSnapshot)
    else renderFinal J urlScheme p extracted.text

def withDefaults : ReplyProjector := .new .default

/-- What a final reply keeps to. -/
def Bounded (reply : ProjectedReply) : Prop :=
  match reply with
  | .final parts =>
    1 ≤ parts.length ∧ parts.length ≤ ProjectorConfig.default.maxSplits ∧
      ∀ part ∈ parts, part ≠ [] ∧ part.length ≤ ProjectorConfig.default.maxChars ∧
        postMarkdownReplyBodyLen J part true ≤ larkMaxSendBodyBytes
  | _ => True

/-- No part and no card text of the reply is empty. -/
def Shown (reply : ProjectedReply) : Prop :=
  match reply with
  | .final parts => ∀ part ∈ parts, part ≠ []
  | .progressFinal text => text ≠ []
  | .empty => True

omit J urlScheme in
theorem renderProgressFinal_shown (p : ReplyProjector) (text : List Char) : Shown (p.renderProgressFinal text) := by
  rw [ReplyProjector.renderProgressFinal]
  split
  · trivial
  · assumption

variable {J urlScheme} in
/-- The splitter returns no empty part, whatever its limits are. -/
theorem renderFinal_shown {text : List Char} (h : renderFinal J urlScheme p text = some reply) : Shown reply := by
  rw [renderFinal] at h
  dsimp only at h
  split_ifs at h with htrimmed hmarkdown
  · obtain rfl := Option.some.inj h
    trivial
  · obtain rfl := Option.some.inj h
    trivial
  · obtain ⟨parts, hparts, rfl⟩ := Option.map_eq_some_iff.1 h
    rw [splitLarkMarkdown] at hparts
    split_ifs at hparts with hzero
    have hsplits : p.config.maxSplits ≠ 0 := fun heq => hzero (.inr (.inr heq))
    exact fun part hpart => ((parts_of_splitFrom hsplits hmarkdown hparts).2.2 part hpart).1

variable {J urlScheme} in
theorem projectFinal_shown (h : projectFinal J urlScheme p outcome = some reply) : Shown reply := by
  rw [projectFinal] at h
  split at h
  · obtain rfl := Option.some.inj h
    trivial
  · exact renderFinal_shown h

variable {J urlScheme} in
/-- **No part and no card text that the projector returns is empty.** -/
theorem finish_shown (h : finish J urlScheme p outcome = some reply) : Shown reply := by
  have hsnapshot : Shown p.renderProgressSnapshot := renderProgressFinal_shown p _
  rw [finish] at h
  split at h
  · obtain rfl := Option.some.inj h
    split
    · exact hsnapshot
    · trivial
  · split at h
    · obtain rfl := Option.some.inj h
      split
      · exact renderProgressFinal_shown p _
      · exact hsnapshot
    · exact renderFinal_shown h

theorem renderLarkMarkdown_nil : renderLarkMarkdown urlScheme [] = [] := by
  have honce : projectMarkdownOnce urlScheme .post [] = [] := by
    rw [projectMarkdownOnce, show lines [] = [] from rfl, projectLines]
    rfl
  rw [renderLarkMarkdown, projectMarkdown, show sanitizeText [] = [] from rfl, honce, honce]

theorem emailMask_nil : emailMask [] = [] := rfl

/-- The production limits never bind on the wire. -/
theorem wire_of_length {text : List Char} (h : text.length ≤ ProjectorConfig.default.maxChars) :
    postMarkdownReplyBodyLen J text true ≤ larkMaxSendBodyBytes := by
  have hbody := postMarkdownReplyBodyLen_le J text
  have hchars : ProjectorConfig.default.maxChars = 4000 := rfl
  have hwire : larkMaxSendBodyBytes = 262144 := rfl
  omega

theorem splitLarkMarkdown_default {text : List Char} (h : text ≠ []) :
    splitLarkMarkdown J text ProjectorConfig.default.maxChars larkMaxSendBodyBytes ProjectorConfig.default.maxSplits =
      splitFrom J ProjectorConfig.default.maxChars larkMaxSendBodyBytes ProjectorConfig.default.maxSplits text := by
  rw [splitLarkMarkdown, if_neg (by decide), if_neg h]

theorem everyRest_nil (P : List Char → Prop) :
    EveryRest J ProjectorConfig.default.maxChars larkMaxSendBodyBytes P ProjectorConfig.default.maxSplits [] :=
  .inl ((fits_iff fun _ => wire_of_length J).2 (Nat.zero_le _))

theorem renderFinal_bounded_iff (text : List Char) :
    (∃ reply, renderFinal J urlScheme withDefaults text = some reply ∧ Bounded J reply) ↔
      EveryRest J ProjectorConfig.default.maxChars larkMaxSendBodyBytes (Divisible ProjectorConfig.default.maxChars)
        ProjectorConfig.default.maxSplits (finalMarkdown urlScheme text) := by
  have hconfig : withDefaults.config = .default := rfl
  rw [renderFinal, finalMarkdown, hconfig]
  dsimp only
  by_cases htrimmed : trim (emailMask text) = []
  · rw [if_pos htrimmed, htrimmed, renderLarkMarkdown_nil, emailMask_nil]
    exact ⟨fun _ => everyRest_nil J _, fun _ => ⟨.empty, rfl, trivial⟩⟩
  · rw [if_neg htrimmed]
    by_cases hmarkdown : emailMask (renderLarkMarkdown urlScheme (trim (emailMask text))) = []
    · rw [if_pos hmarkdown, hmarkdown]
      exact ⟨fun _ => everyRest_nil J _, fun _ => ⟨.empty, rfl, trivial⟩⟩
    · rw [if_neg hmarkdown, splitLarkMarkdown_default J hmarkdown,
        ← splitFrom_isSome_iff (fun _ => wire_of_length J) (by decide) _ _, Option.isSome_iff_exists]
      constructor
      · rintro ⟨reply, hreply, -⟩
        obtain ⟨parts, hparts, -⟩ := Option.map_eq_some_iff.1 hreply
        exact ⟨parts, hparts⟩
      · rintro ⟨parts, hparts⟩
        obtain ⟨hone, hle, hall⟩ := parts_of_splitFrom (by decide) hmarkdown hparts
        refine ⟨.final parts, by rw [hparts]; rfl, hone, hle, fun part hpart => ?_⟩
        obtain ⟨hne, hfits⟩ := hall part hpart
        rw [fits, Bool.and_eq_true, decide_eq_true_eq, decide_eq_true_eq] at hfits
        exact ⟨hne, hfits.1, hfits.2⟩

/-- **The final projection returns, with bounded parts, exactly when every rest that the splitter has to cut is divisible.** -/
theorem projectFinal_bounded_iff (outcome : TurnOutcome) :
    (∃ reply, projectFinal J urlScheme withDefaults outcome = some reply ∧ Bounded J reply) ↔
      ∀ extracted, extractFinal outcome = some extracted →
        EveryRest J ProjectorConfig.default.maxChars larkMaxSendBodyBytes (Divisible ProjectorConfig.default.maxChars)
          ProjectorConfig.default.maxSplits (finalMarkdown urlScheme extracted.text) := by
  rw [projectFinal]
  cases hext : extractFinal outcome with
  | none => exact ⟨fun _ _ h => absurd h (by simp), fun _ => ⟨.empty, rfl, trivial⟩⟩
  | some extracted =>
    simp only [Option.some.injEq, forall_eq']
    exact renderFinal_bounded_iff J urlScheme extracted.text

end Projection

/-! ## A long line divided in front of markers -/

theorem emailMask_of_not_mem {text : List Char} (h : '@' ∉ text) : emailMask text = text := by
  have hemit : ∀ (token : EmailToken) (stop : ℕ), token.candidates = [] → token.start ≤ stop →
      token.emit text stop (text.take token.start) = text.take stop := by
    intro token stop hcandidates hle
    rw [EmailToken.emit, hcandidates, EmailToken.emitFrom, slice, ← List.take_add, Nat.add_sub_of_le hle]
  have hfrom : ∀ (rest : List Char) (index : ℕ) (token : EmailToken), rest = text.drop index → token.candidates = [] →
      token.start ≤ index → index ≤ text.length → emailMaskFrom text index rest token (text.take token.start) = text := by
    intro rest
    induction rest with
    | nil =>
      intro index token hrest hcandidates hle hlen
      rw [emailMaskFrom, hemit token text.length hcandidates (hle.trans hlen), List.take_length]
    | cons c rest ih =>
      intro index token hrest hcandidates hle hlen
      have hlt : index < text.length := by
        by_contra hnot
        rw [List.drop_of_length_le (not_lt.1 hnot)] at hrest
        cases hrest
      have hnext : rest = text.drop (index + 1) := by
        rw [← List.drop_drop, ← hrest, List.drop_one, List.tail_cons]
      have hc : text.take (index + 1) = text.take index ++ [c] := by
        rw [List.take_add_one, ← List.head?_drop, ← hrest]
        rfl
      rw [emailMaskFrom]
      split
      · rw [hemit token index hcandidates hle, ← hc]
        exact ih (index + 1) (.reset (index + 1)) hnext rfl le_rfl hlt
      · have hat : c ≠ '@' := by
          rintro rfl
          exact h (List.mem_of_mem_drop (hrest ▸ List.mem_cons_self))
        exact ih (index + 1) (token.observe index c) hnext (by simp [EmailToken.observe, hat, hcandidates])
          (Nat.le_succ_of_le hle) hlt
  exact hfrom text 0 (.reset 0) rfl rfl le_rfl (Nat.zero_le _)

/-- A text without blanks and constructs that begins with a letter. -/
structure IsWord (text : List Char) : Prop where
  letter : ∃ c rest, text = c :: rest ∧ c.isAlpha = true
  inline : ∀ c ∈ text, isInlineSyntax c = false
  shown : ∀ c ∈ text, isWhitespace c = false
  kept : ∀ c ∈ text, isKept c = true

theorem not_isDigit_of_isAlpha {c : Char} (h : c.isAlpha = true) : c.isDigit = false := by
  have h0 : '0'.val.toNat = 48 := rfl
  have h9 : '9'.val.toNat = 57 := rfl
  have ha : 'a'.val.toNat = 97 := rfl
  have hA : 'A'.val.toNat = 65 := rfl
  simp only [Char.isAlpha, Char.isUpper, Char.isLower, Char.isDigit, Bool.or_eq_true, Bool.and_eq_true, decide_eq_true_eq,
    Bool.and_eq_false_iff, decide_eq_false_iff_not, UInt32.le_iff_toNat_le, ge_iff_le] at h ⊢
  omega

namespace IsWord

variable {text : List Char}

section

variable (h : IsWord text)
include h

theorem ne_nil : text ≠ [] := by
  obtain ⟨c, rest, rfl, -⟩ := h.letter
  exact List.cons_ne_nil c rest

theorem trimStart_eq : trimStart text = text := by
  obtain ⟨c, rest, rfl, -⟩ := h.letter
  exact trimStart_cons_of_not (h.shown c List.mem_cons_self) rest

/-- The first character is no mark. -/
theorem head_ne {mark : Char} (hmark : mark.isAlpha = false) (rest : List Char) : text ≠ mark :: rest := by
  obtain ⟨c, rest', rfl, hc⟩ := h.letter
  intro heq
  rw [(List.cons.inj heq).1, hmark] at hc
  cases hc

theorem stripContainer_eq : stripContainer text = none := by
  rw [Option.eq_none_iff_forall_ne_some]
  rintro ⟨container, rest⟩ hstrip
  rcases stripContainer_eq_some.1 hstrip with ⟨hquote, -⟩ | ⟨⟨bullet, hbullet, htext⟩, -⟩ | ⟨number, mark, hne, hdigits, -, htext, -⟩
  · exact h.head_ne (by decide) _ hquote
  · rcases hbullet with rfl | rfl | rfl <;> exact h.head_ne (by decide) _ htext
  · obtain ⟨c, more, htext', hc⟩ := h.letter
    obtain ⟨d, digits, rfl⟩ := List.exists_cons_of_ne_nil hne
    rw [htext', List.cons_append] at htext
    have hdigit := hdigits d List.mem_cons_self
    rw [← (List.cons.inj htext).1, not_isDigit_of_isAlpha hc] at hdigit
    cases hdigit

theorem parseFenceOpening_eq : parseFenceOpening text = none := by
  rw [parseFenceOpening, h.trimStart_eq, stripContainers_of_none h.stripContainer_eq, Option.map_eq_none_iff]
  by_contra hsome
  obtain ⟨m, more, htext⟩ := parseOpeningFence_isSome.1 (Option.isSome_iff_ne_none.2 hsome)
  rw [h.trimStart_eq] at htext
  exact h.head_ne (by cases m <;> decide) _ htext

theorem parseContainerLine_eq : parseContainerLine text = ⟨false, none, text⟩ := by
  rw [parseContainerLine, h.trimStart_eq, stripContainers_of_none h.stripContainer_eq]
  rfl

theorem normalizeLine_eq (urlScheme : List Char → Option String) (carrier : MarkdownCarrier) :
    normalizeLine urlScheme carrier text = text := by
  obtain ⟨c, rest, htext, hc⟩ := h.letter
  have hfootnote : footnoteDefinition text = none := by
    unfold footnoteDefinition
    split
    · exact absurd rfl (h.head_ne (by decide) _)
    · rfl
  have hreference : referenceDefinition text = none := by
    unfold referenceDefinition
    split
    · exact absurd rfl (h.head_ne (by decide) _)
    · rfl
  have hheading : headingText text = none := by
    have hhash : c ≠ '#' := fun heq => h.head_ne (show '#'.isAlpha = false by decide) rest (htext.trans (by rw [heq]))
    simp [headingText, htext, hhash]
  have htask : taskState text = none := by
    unfold taskState
    split
    · exact absurd rfl (h.head_ne (by decide) _)
    · rfl
  rw [normalizeLine, h.parseContainerLine_eq]
  simp only [trim_of_not h.shown, if_neg h.ne_nil, hfootnote, hreference, hheading, htask, Option.filter_none,
    sanitizeInline_plain urlScheme carrier h.inline]
  rfl

theorem projectMarkdownOnce_eq (urlScheme : List Char → Option String) (carrier : MarkdownCarrier) :
    projectMarkdownOnce urlScheme carrier text = text := by
  have hnewline : '\n' ∉ text := fun hmem => absurd (h.shown _ hmem) (by decide)
  have hlines : lines text = [text] := by
    rw [lines, Lines.chunks_line hnewline h.ne_nil, List.map_singleton, chomp,
      if_neg fun hlast => hnewline (List.mem_of_getLast? hlast)]
  have hpush : pushLine [] text = [text] := if_neg fun hblank => h.ne_nil hblank.1
  rw [projectMarkdownOnce, hlines, projectLines, h.parseFenceOpening_eq]
  dsimp only
  rw [if_neg (by simp [beginsTable]), h.normalizeLine_eq, hpush, projectLines, joinLines,
    ← List.nil_append [text], List.rdropWhile_concat_neg _ _ _ (by simpa using h.ne_nil)]
  simp [List.intercalate]

theorem renderLarkMarkdown_eq (urlScheme : List Char → Option String) :
    renderLarkMarkdown urlScheme text = text := by
  rw [renderLarkMarkdown, projectMarkdown, sanitizeText_of_kept h.kept, h.projectMarkdownOnce_eq, h.projectMarkdownOnce_eq]

theorem finalMarkdown_eq (hat : '@' ∉ text) (urlScheme : List Char → Option String) :
    finalMarkdown urlScheme text = text := by
  rw [finalMarkdown, emailMask_of_not_mem hat, trim_of_not h.shown, h.renderLarkMarkdown_eq, emailMask_of_not_mem hat]

end

end IsWord

/-- Letters, three tildes behind as many as a part can hold, and letters. -/
def divided : List Char := List.replicate 4000 'a' ++ ("~~~".toList ++ List.replicate 3998 'b')

theorem mem_divided {c : Char} (h : c ∈ divided) : c = 'a' ∨ c = '~' ∨ c = 'b' := by
  rw [divided, List.mem_append, List.mem_append] at h
  rcases h with h | h | h
  · exact .inl (List.eq_of_mem_replicate h)
  · exact .inr (.inl (by simpa using h))
  · exact .inr (.inr (List.eq_of_mem_replicate h))

theorem divided_isWord : IsWord divided where
  letter := ⟨'a', _, rfl, by decide⟩
  inline c hc := by rcases mem_divided hc with rfl | rfl | rfl <;> decide
  shown c hc := by rcases mem_divided hc with rfl | rfl | rfl <;> decide
  kept c hc := by rcases mem_divided hc with rfl | rfl | rfl <;> decide

theorem upcoming_of_not_mem {line : List Char} (h : '\n' ∉ line) : Lines.upcoming '\n' line = line := by
  simpa using Lines.upcoming_line_append h (.inl (rfl : ([] : List Char) = []))

/-- A line that opens a fence and is longer than a part cannot be cut. -/
theorem not_divisible_of_opening {maxChars : ℕ} {line : List Char} (hnewline : '\n' ∉ line)
    (hopen : (parseFenceOpening line).isSome) (hlong : maxChars ≤ line.length) : ¬ Divisible maxChars line := by
  intro h
  obtain ⟨fence, hfence⟩ := Option.isSome_iff_exists.1 hopen
  rw [Divisible, upcoming_of_not_mem hnewline, hfence] at h
  have := h.length_first
  omega

theorem splitBoundaryFrom_of_admissible {J : JsonEscaping} {maxChars maxWireBytes count : ℕ} {rest : List Char}
    (hcount : count ≠ 0) (h : admissible J maxChars maxWireBytes rest (preferredBoundary rest count) = true) :
    splitBoundaryFrom J maxChars maxWireBytes rest count = some (preferredBoundary rest count) := by
  cases count with
  | zero => exact absurd rfl hcount
  | succ count => exact if_pos h

/-- A line without fences is cut after as many characters as a part can hold. -/
theorem splitOne_line (J : JsonEscaping) {first rest : List Char} (hfirst : first.length = ProjectorConfig.default.maxChars)
    (hrest : rest ≠ []) (hnewline : '\n' ∉ first ++ rest) (hline : parseFenceOpening (first ++ rest) = none)
    (hword : parseFenceOpening first = none) :
    splitOne J ProjectorConfig.default.maxChars larkMaxSendBodyBytes (first ++ rest) = some (first, rest) := by
  have hlen : (first ++ rest).length = ProjectorConfig.default.maxChars + rest.length := by rw [List.length_append, hfirst]
  have hpos := List.length_pos_iff.2 hrest
  have hupcoming := upcoming_of_not_mem hnewline
  obtain ⟨-, hfront, hhead, hcut⟩ := @cut_upcoming (first ++ rest) ProjectorConfig.default.maxChars (by rw [hupcoming]; omega)
  have hb : preferredBoundary (first ++ rest) ProjectorConfig.default.maxChars = ProjectorConfig.default.maxChars := by
    refine preferredBoundary_of_far (by omega) (.inl hfront) (.inr (.inr (.inr (.inr ?_))))
    rw [hfront, hhead, hcut, List.take_append_drop, hupcoming]
    simp [isDelimiter, openFenceAtEnd, hline]
  have htake : (first ++ rest).take ProjectorConfig.default.maxChars = first := by rw [← hfirst, List.take_left]
  have hdrop : (first ++ rest).drop ProjectorConfig.default.maxChars = rest := by rw [← hfirst, List.drop_left]
  have hopen : openFenceAtEnd first = none :=
    (openFenceAtEnd_line fun hmem => hnewline (List.mem_append_left _ hmem)).trans hword
  have hadm : admissible J ProjectorConfig.default.maxChars larkMaxSendBodyBytes (first ++ rest)
      ProjectorConfig.default.maxChars = true := by
    refine admissible_of_part (fun _ => wire_of_length J) (by decide) (by omega) ?_ ?_
    · rw [htake, hdrop, closeAndReopen_closed hopen]
      intro heq
      have hsame : rest.length = _ := congrArg List.length heq
      have hmax : ProjectorConfig.default.maxChars = 4000 := rfl
      omega
    · rw [htake, closeAndReopen_closed hopen]
      exact hfirst.le
  have hboundary : splitBoundary J ProjectorConfig.default.maxChars larkMaxSendBodyBytes (first ++ rest) =
      some ProjectorConfig.default.maxChars := by
    rw [splitBoundary, Nat.min_eq_right (by omega), splitBoundaryFrom_of_admissible (by decide) (by rw [hb]; exact hadm), hb]
  rw [splitOne, hboundary, Option.map_some, htake, hdrop, closeAndReopen_closed hopen]

/-- The cut in front of the tildes leaves an opening fence that is longer than a part. -/
theorem divided_line_panics :
    projectFinal serdeJson (fun _ => none) withDefaults ⟨[.agentMessage "item" divided none]⟩ = none := by
  have hat : '@' ∉ divided := fun hmem => by rcases mem_divided hmem with h | h | h <;> exact absurd h (by decide)
  have hnewline : '\n' ∉ divided := fun hmem => by rcases mem_divided hmem with h | h | h <;> exact absurd h (by decide)
  have hletters : IsWord (List.replicate 4000 'a') :=
    ⟨⟨'a', _, rfl, by decide⟩, fun c hc => by rw [List.eq_of_mem_replicate hc]; decide,
      fun c hc => by rw [List.eq_of_mem_replicate hc]; decide, fun c hc => by rw [List.eq_of_mem_replicate hc]; decide⟩
  have hcut := splitOne_line serdeJson (List.length_replicate : (List.replicate 4000 'a').length = _)
    (List.cons_ne_nil '~' _) hnewline divided_isWord.parseFenceOpening_eq hletters.parseFenceOpening_eq
  have htail : ¬ Divisible ProjectorConfig.default.maxChars ("~~~".toList ++ List.replicate 3998 'b') :=
    not_divisible_of_opening (fun hmem => hnewline (List.mem_append_right _ hmem))
      (parseFenceOpening_append (by with_unfolding_all decide) _) (by rw [List.length_append, List.length_replicate]; decide)
  have hnone : splitFrom serdeJson ProjectorConfig.default.maxChars larkMaxSendBodyBytes ProjectorConfig.default.maxSplits divided =
      none := by
    rw [← Option.not_isSome_iff_eq_none, splitFrom_isSome_iff (fun _ => wire_of_length serdeJson) (by decide)]
    have hmax : ProjectorConfig.default.maxChars = 4000 := rfl
    rintro (hfits | hleft | ⟨-, hrests⟩)
    · have hlen := (fits_iff fun _ => wire_of_length serdeJson).1 hfits
      rw [divided, List.length_append, List.length_replicate, List.length_append] at hlen
      have hmarkers : "~~~".toList.length = 3 := rfl
      omega
    · exact absurd hleft (by decide)
    · rcases hrests _ _ hcut with hfits | hleft | ⟨hdivisible, -⟩
      · have hlen := (fits_iff fun _ => wire_of_length serdeJson).1 hfits
        have htailLen : ("~~~".toList ++ List.replicate 3998 'b').length = 4001 := by
          rw [List.length_append, List.length_replicate]
          rfl
        exact absurd (htailLen.symm.le.trans hlen) (by decide)
      · exact absurd hleft (by decide)
      · exact htail hdivisible
  have htrimmed : trim (emailMask divided) = divided := by
    rw [emailMask_of_not_mem hat, trim_of_not divided_isWord.shown]
  have hmarkdown := divided_isWord.finalMarkdown_eq hat fun _ => none
  rw [finalMarkdown, htrimmed] at hmarkdown
  have hextracted : extractFinal ⟨[.agentMessage "item" divided none]⟩ = some ⟨divided, true⟩ := rfl
  rw [projectFinal, hextracted]
  dsimp only
  rw [renderFinal, htrimmed, if_neg divided_isWord.ne_nil]
  dsimp only
  rw [hmarkdown, if_neg divided_isWord.ne_nil, show withDefaults.config = .default from rfl,
    splitLarkMarkdown_default serdeJson divided_isWord.ne_nil, hnone, Option.map_none]

end LarkCodexBridge.Render.Final

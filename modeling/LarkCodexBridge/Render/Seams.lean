import LarkCodexBridge.Render.EmailMask
import LarkCodexBridge.Render.Split

/-!
# Masked texts that are cut and joined

An address is recognised by its whole token. Where masked texts are joined, or a masked text is cut, the token at the
seam is another one.

* `clean_join`: two masked texts are masked when joined exactly when the token at the seam is no address;
* `clean_cut`: the front of a masked text is masked exactly when its last token is no address;
* `clean_part`: a part of a masked text that was split is masked exactly when the last token of its body is no address.
-/

namespace LarkCodexBridge.Render

open LarkCodexBridge.Runtime (isWhitespace)

/-- The text is a fixed point of the mask. -/
def Clean (text : List Char) : Prop := emailMask text = text

instance (text : List Char) : Decidable (Clean text) := inferInstanceAs (Decidable (_ = _))

/-- The token that the text ends in. -/
def lastToken (text : List Char) : List Char := text.rtakeWhile fun c => !isWhitespace c

/-- An `@` of the token is the one of an address. -/
def HoldsAddress (token : List Char) : Prop := ∃ i < token.length, Masks token i

instance (token : List Char) : Decidable (HoldsAddress token) := inferInstanceAs (Decidable (∃ i < token.length, _))

variable {c : Char} {text left right front body back : List Char} {b : Bool}

/-! ## Clean texts -/

theorem clean_emailMask (text : List Char) : Clean (emailMask text) := (emailMask_rule text).2

theorem clean_iff_masked : Clean text ↔ masked false text = text := by rw [Clean, emailMask_eq_masked]

theorem length_maskChar (b : Bool) (c : Char) (rest : List Char) : 1 ≤ (maskChar b c rest).length := by
  rcases maskChar_cases b c rest with h | ⟨-, h⟩ <;> rw [h] <;> simp

theorem length_le_masked : text.length ≤ (masked b text).length := by
  induction text generalizing b with
  | nil => exact Nat.zero_le _
  | cons c text ih =>
    have hc := length_maskChar b c text
    have hrest := @ih (isLocal c)
    rw [masked, List.length_append, List.length_cons]
    omega

/-- A text is masked exactly when each of its characters is copied. -/
theorem masked_cons_eq : masked b (c :: text) = c :: text ↔ maskChar b c text = [c] ∧ masked (isLocal c) text = text := by
  rw [masked]
  constructor
  · intro h
    rcases maskChar_cases b c text with hcopy | ⟨⟨rfl, -⟩, hmask⟩
    · rw [hcopy] at h
      exact ⟨hcopy, (List.cons.inj h).2⟩
    · rw [hmask] at h
      exact absurd (List.cons.inj h).1 (by decide)
  · rintro ⟨hcopy, hrest⟩
    rw [hcopy, hrest]
    rfl

theorem masked_eq_iff (front rest : List Char) : masked ((front.getLast?.map isLocal).getD false) rest = rest ↔
    ∀ i < rest.length, ¬Masks (front ++ rest) (front.length + i) := by
  induction rest generalizing front with
  | nil => simp [masked]
  | cons c rest ih =>
    have hnext := ih (front ++ [c])
    rw [List.getLast?_concat, List.append_assoc, List.singleton_append, List.length_append, List.length_singleton] at hnext
    have hhere : maskChar ((front.getLast?.map isLocal).getD false) c rest = [c] ↔ ¬Masks (front ++ c :: rest) front.length := by
      rw [masks_iff, maskChar]
      split
      · next h => exact iff_of_false (by simp) (not_not.2 h)
      · next h => exact iff_of_true rfl h
    rw [masked_cons_eq, hhere, show masked (isLocal c) rest = rest ↔ _ from hnext, List.length_cons]
    constructor
    · rintro ⟨hfirst, hrest⟩ i hi
      cases i with
      | zero => exact hfirst
      | succ i =>
        rw [show front.length + (i + 1) = front.length + 1 + i by omega]
        exact hrest i (Nat.lt_of_succ_lt_succ hi)
    · intro h
      refine ⟨h 0 (Nat.succ_pos _), fun i hi => ?_⟩
      rw [show front.length + 1 + i = front.length + (i + 1) by omega]
      exact h (i + 1) (Nat.succ_lt_succ hi)

theorem clean_iff_no_address : Clean text ↔ ¬HoldsAddress text := by
  rw [clean_iff_masked]
  refine (masked_eq_iff [] text).trans ?_
  simp [HoldsAddress]

theorem clean_append_whitespace (hc : isWhitespace c = true) : Clean (left ++ c :: right) ↔ Clean left ∧ Clean right := by
  simp only [clean_iff_masked]
  rw [masked_append_whitespace hc]
  constructor
  · intro h
    have hleft := @length_le_masked left false
    have hright := @length_le_masked right false
    have hlength := congrArg List.length h
    simp only [List.length_append, List.length_cons] at hlength
    obtain ⟨hl, hr⟩ := List.append_inj h (by omega)
    exact ⟨hl, (List.cons.inj hr).2⟩
  · rintro ⟨hl, hr⟩
    rw [hl, hr]

theorem clean_of_append (h : Clean (front ++ text)) : Clean text := by
  have hdrop : ∀ {front : List Char} {b : Bool}, masked b (front ++ text) = front ++ text → ∃ b, masked b text = text := by
    intro front
    induction front with
    | nil => exact fun h => ⟨_, h⟩
    | cons c front ih => exact fun h => ih (masked_cons_eq.1 h).2
  obtain ⟨b, hb⟩ := hdrop (clean_iff_masked.1 h)
  rw [clean_iff_masked]
  cases text with
  | nil => rfl
  | cons c text =>
    have hcopy : maskChar false c text = [c] := if_neg fun h => by simp at h
    exact masked_cons_eq.2 ⟨hcopy, (masked_cons_eq.1 hb).2⟩

/-! ## Tokens at a seam -/

theorem lastToken_cases (text : List Char) :
    lastToken text = text ∨ ∃ front c, isWhitespace c = true ∧ text = front ++ c :: lastToken text := by
  induction text using List.reverseRecOn with
  | nil => exact .inl rfl
  | append_singleton text c ih =>
    rw [lastToken, List.rtakeWhile_concat]
    split
    · rcases ih with hall | ⟨front, d, hd, heq⟩
      · exact .inl (congrArg (· ++ [c]) hall)
      · exact .inr ⟨front, d, hd, by rw [← lastToken, ← List.cons_append, ← List.append_assoc, ← heq]⟩
    · next hc => exact .inr ⟨text, c, by simpa using hc, rfl⟩

/-- A text is its first token, with whitespace behind it unless it is the whole text. -/
theorem tokenOf_cases (text : List Char) :
    tokenOf text = text ∨ ∃ c back, isWhitespace c = true ∧ text = tokenOf text ++ c :: back := by
  have hsplit := List.takeWhile_append_dropWhile (p := fun c => !isWhitespace c) (l := text)
  cases hrest : text.dropWhile fun c => !isWhitespace c with
  | nil => exact .inl (by rw [hrest, List.append_nil] at hsplit; exact hsplit)
  | cons c back =>
    refine .inr ⟨c, back, ?_, by rw [← hrest]; exact hsplit.symm⟩
    have hhead := List.head_dropWhile_not (fun c => !isWhitespace c) (l := text) (by rw [hrest]; exact List.cons_ne_nil _ _)
    simpa [hrest] using hhead

/-- **Two clean texts are clean when joined exactly when the token at the seam is.** -/
theorem clean_join (hleft : Clean left) (hright : Clean right) :
    Clean (left ++ right) ↔ Clean (lastToken left ++ tokenOf right) := by
  have hfront : Clean (left ++ right) ↔ Clean (lastToken left ++ right) := by
    rcases lastToken_cases left with hall | ⟨front, c, hc, heq⟩
    · rw [hall]
    · have hclean : Clean front := by
        rw [heq] at hleft
        exact ((clean_append_whitespace hc).1 hleft).1
      rw [show left ++ right = front ++ c :: (lastToken left ++ right) by
        conv_lhs => rw [heq]
        rw [List.append_assoc, List.cons_append], clean_append_whitespace hc]
      exact and_iff_right hclean
  rw [hfront]
  rcases tokenOf_cases right with hall | ⟨c, back, hc, heq⟩
  · rw [hall]
  · have hclean : Clean back := by
      rw [heq] at hright
      exact ((clean_append_whitespace hc).1 hright).2
    rw [show lastToken left ++ right = lastToken left ++ tokenOf right ++ c :: back by
      conv_lhs => rw [heq]
      rw [List.append_assoc], clean_append_whitespace hc]
    exact and_iff_left hclean

/-- **The front of a clean text is clean exactly when its last token is.** -/
theorem clean_cut (h : Clean (left ++ right)) : Clean left ↔ Clean (lastToken left) := by
  rcases lastToken_cases left with hall | ⟨front, c, hc, heq⟩
  · rw [hall]
  · have hfront : Clean front := by
      rw [heq, List.append_assoc, List.cons_append] at h
      exact ((clean_append_whitespace hc).1 h).1
    conv_lhs => rw [heq]
    rw [clean_append_whitespace hc]
    exact and_iff_right hfront

theorem clean_of_not_mem (h : '@' ∉ text) : Clean text := by
  rw [clean_iff_no_address]
  rintro ⟨i, -, hat, -⟩
  exact h (List.mem_of_getElem? hat)

/-- What is put behind a clean text on a line of its own, without an `@`, changes nothing. -/
theorem clean_append_seal (hat : '@' ∉ back)
    (hseal : back = [] ∨ (∃ c rest, isWhitespace c = true ∧ back = c :: rest) ∨
      body = [] ∨ ∃ front c, isWhitespace c = true ∧ body = front ++ [c]) : Clean (body ++ back) ↔ Clean body := by
  have hback := clean_of_not_mem hat
  rcases hseal with rfl | ⟨c, rest, hc, rfl⟩ | rfl | ⟨front, c, hc, rfl⟩
  · rw [List.append_nil]
  · rw [clean_append_whitespace hc]
    exact and_iff_left (@clean_of_append _ [c] hback)
  · exact iff_of_true hback (clean_of_not_mem List.not_mem_nil)
  · rw [List.append_assoc, List.singleton_append, clean_append_whitespace hc, clean_append_whitespace hc]
    exact and_congr_right fun _ => iff_of_true hback (clean_of_not_mem List.not_mem_nil)

end LarkCodexBridge.Render

namespace LarkCodexBridge.Render.Markdown

open LarkCodexBridge.Runtime (isWhitespace)

variable {J : JsonEscaping} {maxChars maxWireBytes : ℕ} {reopening own before after text line : List Char}

/-! ## Parts -/

theorem not_mem_quoteLine {quoted : Bool} (h : '@' ∉ line) : '@' ∉ quoteLine quoted line := by
  unfold quoteLine
  split_ifs
  · exact h
  · decide
  · simp [h]

theorem not_mem_closingLine (fence : OpenFence) : '@' ∉ fence.closingLine := by
  refine not_mem_quoteLine fun hmem => ?_
  have hmarker := (List.mem_replicate.1 hmem).2
  cases hm : fence.fence.marker <;> rw [hm] at hmarker <;> exact absurd hmarker (by decide)

theorem not_mem_openingLine (fence : OpenFence) : '@' ∉ fence.openingLine := by
  refine not_mem_quoteLine fun hmem => ?_
  rcases List.mem_append.1 hmem with hmem | hmem
  · have hmarker := (List.mem_replicate.1 hmem).2
    cases hm : fence.fence.marker <;> rw [hm] at hmarker <;> exact absurd hmarker (by decide)
  · have hlanguage := fence.fence.admissible
    simp only [admissibleLanguage, Bool.and_eq_true, List.all_eq_true] at hlanguage
    exact absurd (hlanguage.2 _ hmem) (by decide)

theorem not_mem_reopening (hr : Reopening reopening) : '@' ∉ reopening := by
  rcases hr with rfl | ⟨fence, rfl⟩
  · exact List.not_mem_nil
  · simpa using not_mem_openingLine fence

theorem clean_reopening (hr : Reopening reopening) : Clean (reopening ++ own) ↔ Clean own := by
  rcases hr with rfl | ⟨fence, rfl⟩
  · rw [List.nil_append]
  · rw [List.append_assoc, List.singleton_append, clean_append_whitespace (by decide : isWhitespace '\n' = true)]
    exact and_iff_right (clean_of_not_mem (not_mem_openingLine fence))

theorem endLine_seal (text : List Char) : endLine text = text ∧ (∃ front, text = front ++ ['\n']) ∨
    endLine text = text ++ ['\n'] := by
  unfold endLine
  split
  · next h =>
    obtain ⟨front, rfl⟩ := List.getLast?_eq_some_iff.1 h
    exact .inl ⟨rfl, front, rfl⟩
  · exact .inr rfl

/-- A line put behind a text does not change its tokens. -/
theorem clean_endLine_append (hline : '@' ∉ line) : Clean (endLine text ++ line) ↔ Clean text := by
  have hnewline : isWhitespace '\n' = true := by decide
  rcases endLine_seal text with ⟨heq, front, rfl⟩ | heq
  · rw [heq]
    exact clean_append_seal hline (.inr (.inr (.inr ⟨front, '\n', hnewline, rfl⟩)))
  · rw [heq, List.append_assoc]
    exact clean_append_seal (by simpa using hline) (.inr (.inl ⟨'\n', line, hnewline, rfl⟩))

theorem clean_closeFence : Clean (closeFence text) ↔ Clean text := by
  unfold closeFence
  split
  · rfl
  · exact clean_endLine_append (not_mem_closingLine _)

theorem clean_truncatedAt {boundary : ℕ} : Clean (truncatedAt text boundary) ↔ Clean (text.take boundary) := by
  have hmarker : '@' ∉ replyTruncationMarker := by decide
  rw [truncatedAt]
  split
  · next hnil =>
    rw [hnil, List.nil_append, ← @clean_closeFence (text.take boundary), hnil]
    exact iff_of_true (clean_of_not_mem hmarker) (clean_of_not_mem List.not_mem_nil)
  · rw [clean_endLine_append hmarker, clean_closeFence]

theorem clean_closed : Clean (keptBefore before after ++ insertedClosing before after) ↔ Clean (keptBefore before after) := by
  have hnewline : isWhitespace '\n' = true := by decide
  unfold insertedClosing
  cases hopen : openFenceAtEnd before with
  | none => simp
  | some fence =>
    have hclosing := not_mem_closingLine fence
    dsimp only
    split
    · next hend =>
      rw [List.nil_append]
      refine clean_append_seal hclosing (.inr (.inr (.inr ?_)))
      unfold keptBefore
      by_cases hlast : before.getLast? = some '\n'
      · obtain ⟨front, rfl⟩ := List.getLast?_eq_some_iff.1 hlast
        exact ⟨front, '\n', hnewline, by simp [hopen]⟩
      · have hhead : after.head? = some '\n' := hend.resolve_left hlast
        exact ⟨before, '\n', hnewline, by simp [hopen, hlast, hhead]⟩
    · exact clean_append_seal (by simpa using hclosing) (.inr (.inl ⟨'\n', _, hnewline, rfl⟩))

/-- **A part of a clean text is clean exactly when the last token of its own characters is.** -/
theorem clean_piece {left start : ℕ} {pieces : List Piece} (hr : Reopening reopening) (hown : Clean own)
    (h : piecesFrom J maxChars maxWireBytes left start reopening (reopening ++ own) = some pieces) :
    ∀ p ∈ pieces, Clean p.text ↔ Clean (lastToken p.body) := by
  induction left generalizing start reopening own pieces with
  | zero =>
    rw [piecesFrom] at h
    obtain rfl := Option.some.inj h
    simp
  | succ left ih =>
    rw [piecesFrom] at h
    split at h
    · obtain rfl := Option.some.inj h
      rw [List.forall_mem_singleton, Piece.text, List.drop_left, List.append_nil, clean_reopening hr]
      exact @clean_cut _ [] (by rwa [List.append_nil])
    · split at h
      · obtain ⟨boundary, hb, rfl⟩ := Option.map_eq_some_iff.1 h
        rw [List.forall_mem_singleton, text_truncated hb, clean_truncatedAt, List.take_append]
        dsimp only
        rcases Nat.le_total boundary reopening.length with hle | hle
        · -- the cut falls into the reopening line
          have hfront : '@' ∉ reopening.take boundary := fun hmem => not_mem_reopening hr (List.mem_of_mem_take hmem)
          rw [Nat.sub_eq_zero_of_le hle, List.take_zero, List.append_nil, List.drop_of_length_le (by simp)]
          exact iff_of_true (clean_of_not_mem hfront) (clean_of_not_mem List.not_mem_nil)
        · rw [List.take_of_length_le hle, List.drop_left, clean_reopening hr]
          exact @clean_cut _ (own.drop (boundary - reopening.length)) (by rwa [List.take_append_drop])
      · obtain ⟨boundary, hb, h⟩ := Option.bind_eq_some_iff.1 h
        obtain ⟨later, hlater, rfl⟩ := Option.map_eq_some_iff.1 h
        have hle := reopening_le_of_admissible hr hb
        generalize hafter : (reopening ++ own).drop boundary = after at *
        have hkept := @keptBefore_append_drop _ own after _ hle
        have hsplit := kept_append ((reopening ++ own).take boundary) after
        rw [← hafter, List.take_append_drop, hafter, ← hkept, List.append_assoc, List.append_assoc] at hsplit
        have howns := List.append_cancel_left hsplit
        rw [howns] at hown
        refine List.forall_mem_cons.2 ⟨?_, ih (reopening_inserted _) ?_ hlater⟩
        · refine Iff.trans ?_ ((clean_reopening hr).trans (clean_cut hown))
          rw [Piece.text, hkept]
          exact clean_closed
        · exact clean_of_append (clean_of_append hown)

end LarkCodexBridge.Render.Markdown

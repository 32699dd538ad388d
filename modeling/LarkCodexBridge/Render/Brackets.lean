import Mathlib
import LarkCodexBridge.Render.Inline

/-!
# The search for closing brackets

`UnescapedBracketSearch` keeps its last result and never looks at a character twice. The sanitizer asks it at positions
that go back by one after a caret that begins no footnote, and forwards otherwise.

* `Answers`: what the plain search answers;
* `Sound`: what the search has kept of the text is right for all positions from one on;
* `Turn`, `Asks`: the turns of the loop of the sanitizer, and what they ask;
* `find_exact`: every answer in a run is the one of the plain search.
-/

namespace LarkCodexBridge.Render.Markdown

/-! ## The plain search -/

/-- The backslashes right before position `i`. -/
def backslashesBefore (text : List Char) (i : ℕ) : ℕ := ((text.take i).reverse.takeWhile (· = '\\')).length

def Unescaped (text : List Char) (i : ℕ) : Prop := text[i]? = some ']' ∧ backslashesBefore text i % 2 = 0

/-- The answer of the plain search: the least position, if there is one. -/
def Answers (text : List Char) (start : ℕ) : Option ℕ → Prop
  | some i => IsLeast {i | start ≤ i ∧ Unescaped text i} i
  | none => ∀ i, start ≤ i → ¬Unescaped text i

variable {text rest : List Char} {c : Char} {i start : ℕ}

theorem backslashesBefore_succ (h : text[i]? = some c) :
    backslashesBefore text (i + 1) = if c = '\\' then backslashesBefore text i + 1 else 0 := by
  rw [backslashesBefore, List.take_add_one, h, Option.toList_some, List.reverse_append, List.reverse_singleton,
    List.singleton_append, List.takeWhile_cons]
  by_cases hc : c = '\\' <;> simp [hc, backslashesBefore]

/-! ## Outcomes of computations -/

/-- If the budget suffices, the result is as `Q` says. -/
def Ends {α : Type} (w : Work α) (Q : α → Prop) : Prop := ∀ remaining a remaining', w remaining = some (a, remaining') → Q a

variable {α β : Type} {w : Work α} {Q : α → Prop}

theorem Ends.pure {a : α} (h : Q a) : Ends (Pure.pure a : Work α) Q := by
  intro _ _ _ heq
  cases heq
  exact h

theorem Ends.bind {f : α → Work β} {R : β → Prop} (h : Ends w Q) (hf : ∀ a, Q a → Ends (f a) R) : Ends (w >>= f) R := by
  intro remaining b remaining' heq
  obtain ⟨⟨a, left⟩, hw, hrest⟩ := Option.bind_eq_some_iff.1 heq
  exact hf a (h _ _ _ hw) _ _ _ hrest

theorem Ends.any : Ends w fun _ => True := fun _ _ _ _ => trivial

/-! ## The state of the search -/

/-- The state of a search that is right for the positions from `m` on. -/
structure Sound (text : List Char) (search : UnescapedBracketSearch) (m : ℕ) : Prop where
  unscanned : search.unscanned = text.drop search.scannedTo
  parity : search.precedingBackslashes = backslashesBefore text search.scannedTo
  cached : ∀ i ∈ search.cached, Unescaped text i ∧ search.scannedTo = i + 1
  skipped : ∀ i, m ≤ i → i < search.scannedTo → Unescaped text i → search.cached = some i

variable {search : UnescapedBracketSearch} {m n : ℕ}

theorem sound_new (text : List Char) : Sound text (.new text) 0 :=
  ⟨rfl, rfl, nofun, fun _ _ h => absurd h (Nat.not_lt_zero _)⟩

theorem Sound.mono (h : Sound text search m) (hmn : m ≤ n) : Sound text search n :=
  { h with skipped := fun i hi => h.skipped i (hmn.trans hi) }

/-- A position that holds no bracket may be asked for again. -/
theorem Sound.back (h : Sound text search (m + 1)) (hm : text[m]? ≠ some ']') : Sound text search m where
  unscanned := h.unscanned
  parity := h.parity
  cached := h.cached
  skipped := by
    intro i hi hlt hu
    rcases hi.eq_or_lt with rfl | hi
    · exact absurd hu.1 hm
    · exact h.skipped i hi hlt hu

/-- A result of the search, and what it has kept then. -/
def Found (text : List Char) (start : ℕ) (x : Option ℕ × UnescapedBracketSearch) : Prop :=
  Answers text start x.1 ∧ Sound text x.2 start

theorem ends_scan {cursor backslashes : ℕ} (hrest : rest = text.drop cursor)
    (hparity : backslashes = backslashesBefore text cursor)
    (hskip : ∀ i, start ≤ i → i < cursor → ¬Unescaped text i) :
    Ends (UnescapedBracketSearch.scan start rest cursor backslashes) (Found text start) := by
  induction rest generalizing cursor backslashes with
  | nil =>
    have hnone : ∀ i, start ≤ i → ¬Unescaped text i := by
      intro i hi hu
      have hlen := (List.getElem?_eq_some_iff.1 hu.1).1
      exact hskip i hi (hlen.trans_le (List.drop_eq_nil_iff.1 hrest.symm)) hu
    exact .pure ⟨hnone, hrest, hparity, nofun, fun i hi _ hu => absurd hu (hnone i hi)⟩
  | cons c rest ih =>
    have hc : text[cursor]? = some c := by
      rw [← Nat.add_zero cursor, ← List.getElem?_drop, ← hrest]
      rfl
    have hrest' : rest = text.drop (cursor + 1) := by
      rw [← List.tail_drop, ← hrest]
      rfl
    have hnext := backslashesBefore_succ hc
    -- the next position is looked at if there is no bracket at this one
    have hskip' : ¬(start ≤ cursor ∧ Unescaped text cursor) → ∀ i, start ≤ i → i < cursor + 1 → ¬Unescaped text i := by
      intro hno i hi hlt hu
      rcases (Nat.lt_succ_iff.1 hlt).eq_or_lt with rfl | hlt
      · exact hno ⟨hi, hu⟩
      · exact hskip i hi hlt hu
    refine .bind .any fun _ _ => ?_
    split
    · next hback =>
      rw [if_pos hback] at hnext
      refine ih hrest' (by rw [hnext, hparity]) (hskip' fun hu => ?_)
      have heq : ']' = c := Option.some.inj (hu.2.1.symm.trans hc)
      exact absurd (heq.trans hback) (by decide)
    · next hback =>
      rw [if_neg hback] at hnext
      split
      · next hfound =>
        have hu : Unescaped text cursor := ⟨hfound.2.1 ▸ hc, hparity ▸ hfound.2.2⟩
        refine .pure ⟨⟨⟨hfound.1, hu⟩, fun i ⟨hi, hui⟩ => ?_⟩, hrest', hnext.symm, ?_, fun i hi hlt hui => ?_⟩
        · exact Nat.le_of_not_lt fun hlt => hskip i hi hlt hui
        · rintro _ ⟨⟩
          exact ⟨hu, rfl⟩
        · rcases (Nat.lt_succ_iff.1 hlt).eq_or_lt with rfl | hlt
          · rfl
          · exact absurd hui (hskip i hi hlt)
      · next hno =>
        refine ih hrest' hnext.symm (hskip' fun ⟨hle, hu⟩ => hno ⟨hle, ?_, hparity ▸ hu.2⟩)
        exact Option.some.inj (hc.symm.trans hu.1)

/-- **The search answers as the plain one** at every position from which on its state is right. -/
theorem Sound.find (h : Sound text search m) (hm : m ≤ start) : Ends (search.find start) (Found text start) := by
  have hscan : (∀ i ∈ search.cached, i < start) →
      Ends (UnescapedBracketSearch.scan start search.unscanned search.scannedTo search.precedingBackslashes)
        (Found text start) := fun hbelow =>
    ends_scan h.unscanned h.parity fun i hi hlt hu =>
      absurd (hbelow i (h.skipped i (hm.trans hi) hlt hu)) (Nat.not_lt.2 hi)
  unfold UnescapedBracketSearch.find
  split
  · next cached hcached =>
    split
    · next hle =>
      obtain ⟨hu, hscanned⟩ := h.cached cached hcached
      refine .pure ⟨⟨⟨hle, hu⟩, fun i ⟨hi, hui⟩ => Nat.le_of_not_lt fun hlt => ?_⟩, h.mono hm⟩
      have hsame := h.skipped i (hm.trans hi) (by omega) hui
      rw [hcached] at hsame
      exact hlt.ne' (Option.some.inj hsame)
    · next hgt =>
      refine hscan fun i hi => ?_
      rw [hcached] at hi
      cases hi
      exact Nat.lt_of_not_le hgt
  · next hcached => exact hscan (by rw [hcached]; nofun)

/-! ## One turn of the loop -/

variable {urlScheme : List Char → Option String} {carrier : MarkdownCarrier} {sanitize : List Char → Work (List Char)}
  {brackets : UnescapedBracketSearch} {cursor : ℕ}

/-- After a construct at the cursor, or a plain character, the state is right for the next turn. -/
def Leaves (text : List Char) (cursor : ℕ) (x : Option (List Char × ℕ) × UnescapedBracketSearch) : Prop :=
  Sound text x.2 (cursor + x.1.elim 1 (·.2) + 1)

theorem Sound.leaves (h : Sound text brackets m) {output : List Char} (hm : m ≤ cursor + n + 1) :
    Leaves text cursor (some (output, n), brackets) := h.mono hm

section

variable (h : Sound text brackets (cursor + 1))
include h

theorem ends_degradeImage :
    Ends (degradeImage urlScheme carrier sanitize rest cursor brackets) (Leaves text cursor) := by
  unfold degradeImage
  refine .bind (h.find (Nat.le_succ _)) fun ⟨found, brackets⟩ ⟨hanswer, hs⟩ => ?_
  cases found with
  | none => exact .pure hs
  | some labelEnd =>
    have hle : cursor + 2 ≤ labelEnd := hanswer.1.1
    refine .bind .any fun alt _ => ?_
    dsimp only
    split
    · refine .bind .any fun offset _ => ?_
      cases offset with
      | none => exact .pure (hs.leaves (by omega))
      | some offset =>
        refine .bind .any fun safe _ => ?_
        split <;> exact .bind .any fun shown _ => .pure (hs.leaves (by omega))
    · refine .bind (hs.find (by omega)) fun ⟨found, brackets⟩ ⟨hanswer, hs⟩ => ?_
      cases found with
      | none => exact .pure (hs.leaves (by omega))
      | some referenceEnd =>
        have hle : labelEnd + 2 ≤ referenceEnd := hanswer.1.1
        exact .bind .any fun shown _ => .pure (hs.leaves (by omega))
    · exact .pure (hs.leaves (by omega))

theorem ends_preserveOrDegradeLink :
    Ends (preserveOrDegradeLink urlScheme carrier sanitize rest cursor brackets) (Leaves text cursor) := by
  unfold preserveOrDegradeLink
  refine .bind (h.find (Nat.le_refl _)) fun ⟨found, brackets⟩ ⟨hanswer, hs⟩ => ?_
  cases found with
  | none => exact .pure (hs.mono (Nat.le_succ _))
  | some labelEnd =>
    have hle : cursor + 1 ≤ labelEnd := hanswer.1.1
    refine .bind .any fun label _ => ?_
    dsimp only
    split
    · refine .bind .any fun offset _ => ?_
      cases offset with
      | none => exact .pure (hs.leaves (by omega))
      | some offset =>
        refine .bind .any fun safe _ => ?_
        split
        · exact .pure (hs.leaves (by omega))
        · exact .bind .any fun shown _ => .pure (hs.leaves (by omega))
    · refine .bind (hs.find (by omega)) fun ⟨found, brackets⟩ ⟨hanswer, hs⟩ => ?_
      cases found with
      | none => exact .pure (hs.leaves (by omega))
      | some referenceEnd =>
        have hle : labelEnd + 2 ≤ referenceEnd := hanswer.1.1
        exact .bind .any fun shown _ => .pure (hs.leaves (by omega))
    · exact .pure (hs.leaves (by omega))

theorem ends_footnoteReference :
    Ends (footnoteReference carrier rest cursor brackets) (Leaves text cursor) := by
  unfold footnoteReference
  refine .bind (h.find (Nat.le_succ _)) fun ⟨found, brackets⟩ ⟨hanswer, hs⟩ => ?_
  cases found with
  | none => exact .pure hs
  | some stop =>
    have hle : cursor + 2 ≤ stop := hanswer.1.1
    refine .bind .any fun _ _ => ?_
    split
    · exact .pure (hs.leaves (by omega))
    · exact .pure hs

end

/-- There is no bracket at a caret. -/
theorem Sound.back_of_caret (h : Sound text brackets (cursor + 1 + 1)) (hrest : text.drop cursor = '[' :: rest)
    (hcaret : rest.head? = some '^') : Sound text brackets (cursor + 1) := by
  have hc : text[cursor + 1]? = some '^' := by
    rw [← List.getElem?_drop, hrest, List.getElem?_cons_succ, ← List.head?_eq_getElem?, hcaret]
  exact h.back (by rw [hc]; decide)

theorem ends_link (h : Sound text brackets (cursor + 1)) :
    Ends (do
      match ← preserveOrDegradeLink urlScheme carrier sanitize (text.drop cursor) cursor brackets with
      | (some (output, consumed), brackets) => return (output, consumed, brackets)
      | (none, brackets) => return ((text.drop cursor).take 1, 1, brackets)) fun x =>
        Sound text x.2.2 (cursor + x.2.1 + 1) := by
  refine .bind (ends_preserveOrDegradeLink h) fun x hs => ?_
  obtain ⟨_ | ⟨output, consumed⟩, brackets⟩ := x <;> exact .pure hs

/-- **One turn of the loop** leaves the search right for all that later turns ask. -/
theorem ends_inlineStep (h : Sound text brackets (cursor + 1)) :
    Ends (inlineStep urlScheme carrier sanitize (text.drop cursor) cursor brackets) fun x =>
      Sound text x.2.2 (cursor + x.2.1 + 1) := by
  have hkeep : ∀ consumed, Sound text brackets (cursor + consumed + 1) := fun consumed => h.mono (by omega)
  unfold inlineStep
  dsimp only
  split
  · refine .bind .any fun found _ => ?_
    rcases found with _ | ⟨output, consumed⟩ <;> exact .pure (hkeep _)
  · refine .bind (ends_degradeImage h) fun x hs => ?_
    obtain ⟨_ | ⟨output, consumed⟩, brackets⟩ := x <;> exact .pure hs
  · next rest heq =>
    split
    · next hcaret =>
      refine .bind (ends_footnoteReference h) fun x hs => ?_
      obtain ⟨_ | found, brackets⟩ := x
      · exact ends_link (hs.back_of_caret heq hcaret)
      · exact .pure hs
    · exact ends_link h
  · exact .bind .any fun _ _ => .pure (hkeep _)
  · refine .bind .any fun found _ => ?_
    rcases found with _ | ⟨output, consumed⟩ <;> exact .pure (hkeep _)
  · exact .bind .any fun _ _ => .pure (hkeep _)
  · exact .pure (hkeep _)

/-! ## Runs -/

/-- The turns of a run over the text: the cursor, and the state of the search. The nested runs and the budgets are
arbitrary. -/
inductive Turn (urlScheme : List Char → Option String) (carrier : MarkdownCarrier) (text : List Char) :
    ℕ → UnescapedBracketSearch → Prop
  | start : Turn urlScheme carrier text 0 (.new text)
  | next {k b f l output consumed b' l'} (turn : Turn urlScheme carrier text k b)
      (step : inlineStep urlScheme carrier f (text.drop k) k b l = some ((output, consumed, b'), l')) :
      Turn urlScheme carrier text (k + consumed) b'

/-- What a turn asks: the state of the search, and the position. -/
inductive Asks (carrier : MarkdownCarrier) (text : List Char) (cursor : ℕ) (brackets : UnescapedBracketSearch) :
    UnescapedBracketSearch → ℕ → Prop
  /-- The end of the label of an image. -/
  | image {tail} (h : text.drop cursor = '!' :: '[' :: tail) : Asks carrier text cursor brackets brackets (cursor + 2)
  /-- The end of a footnote. -/
  | footnote {tail} (h : text.drop cursor = '[' :: tail) (hcaret : tail.head? = some '^') :
      Asks carrier text cursor brackets brackets (cursor + 2)
  /-- The end of the label of a link. -/
  | link {tail} (h : text.drop cursor = '[' :: tail) (hcaret : tail.head? ≠ some '^') :
      Asks carrier text cursor brackets brackets (cursor + 1)
  /-- The same, when it has turned out to be no footnote. -/
  | linkAfter {tail l b' l'} (h : text.drop cursor = '[' :: tail) (hcaret : tail.head? = some '^')
      (hnone : footnoteReference carrier (text.drop cursor) cursor brackets l = some ((none, b'), l')) :
      Asks carrier text cursor brackets b' (cursor + 1)
  /-- The end of a reference right after a label. -/
  | reference {b k l labelEnd b' l'} (h : Asks carrier text cursor brackets b k)
      (hlabel : b.find k l = some ((some labelEnd, b'), l')) (hnext : text[labelEnd + 1]? = some '[') :
      Asks carrier text cursor brackets b' (labelEnd + 2)

theorem Turn.sound (h : Turn urlScheme carrier text cursor brackets) : Sound text brackets (cursor + 1) := by
  induction h with
  | start => exact (sound_new text).mono (Nat.zero_le _)
  | next turn step ih => exact ends_inlineStep ih _ _ _ step

theorem Asks.sound (h : Asks carrier text cursor brackets search start) (hs : Sound text brackets (cursor + 1)) :
    Sound text search start := by
  induction h with
  | image | footnote => exact hs.mono (Nat.le_succ _)
  | link => exact hs
  | linkAfter hrest hcaret hnone => exact (ends_footnoteReference hs _ _ _ hnone).back_of_caret hrest hcaret
  | reference h hlabel hnext ih =>
    obtain ⟨hanswer, hsound⟩ := ih.find le_rfl _ _ _ hlabel
    exact hsound.mono (hanswer.1.1.trans (Nat.le_add_right _ 2))

/-- **The memoised search is the plain search.** Whatever a turn of a run asks is answered with the least position from
there on that holds an unescaped bracket, or with none if there is no such position. -/
theorem find_exact {remaining remaining' : ℕ} {found : Option ℕ} {search' : UnescapedBracketSearch}
    (hturn : Turn urlScheme carrier text cursor brackets) (hasks : Asks carrier text cursor brackets search start)
    (hfind : search.find start remaining = some ((found, search'), remaining')) : Answers text start found :=
  ((hasks.sound hturn.sound).find le_rfl _ _ _ hfind).1

/-- In `[^\\]]` the end of a footnote is asked for first, and then the end of the label, one position before. -/
theorem find_exact_caret : Answers "[^\\\\]]".toList 1 (some 4) := by
  have hfind : UnescapedBracketSearch.find ⟨[']'], 5, some 4, 0⟩ 1 0 = some ((some 4, ⟨[']'], 5, some 4, 0⟩), 0) := rfl
  have hasks : Asks .post "[^\\\\]]".toList 0 (.new "[^\\\\]]".toList) ⟨[']'], 5, some 4, 0⟩ 1 :=
    .linkAfter (l := 100) rfl rfl (show _ = some (_, 93) by decide)
  have hturn : Turn (fun _ => none) .post "[^\\\\]]".toList 0 (.new "[^\\\\]]".toList) := .start
  exact find_exact hturn hasks hfind

end LarkCodexBridge.Render.Markdown

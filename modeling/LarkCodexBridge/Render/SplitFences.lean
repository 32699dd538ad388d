import LarkCodexBridge.Render.Wire

/-!
# The parts are valid by themselves

* `tracked`: the lines of a text with the fence that is open before each; `codeMask`, `PlainFrom` are read off it;
* `Cut`: a cut that divides no line into a delimiter, `part_closed`, `Cut.rest_closed`, `Cut.rest_plain`,
  `Cut.part_covers`, `Cut.rest_covers`: what it does to the part and to the rest;
* `parts_keep_fences`: every part is closed, and code stays code, when no cut makes a fence delimiter.
-/

namespace LarkCodexBridge.Render.Markdown

open Lines Limits

/-! ## The lines of a text and the fence that is open -/

def trackedFrom (current : Option OpenFence) : List (List Char) → List (Option OpenFence × List Char)
  | [] => []
  | chunk :: rest => (current, chunk) :: trackedFrom (advance current (chomp chunk)) rest

/-- The lines of the text with the fence that is open before each. -/
def tracked (current : Option OpenFence) (text : List Char) : List (Option OpenFence × List Char) :=
  trackedFrom current (chunks '\n' text)

/-- The line stands inside the fence. -/
def inside (current : Option OpenFence) (line : List Char) : Bool :=
  match current with
  | some fence => !fence.closedBy line
  | none => false

def lineMask (entry : Option OpenFence × List Char) : List Bool :=
  List.replicate entry.2.length (inside entry.1 (chomp entry.2))

/-- For every character whether its line stands inside a fence. -/
def codeMaskFrom (current : Option OpenFence) (text : List Char) : List Bool := (tracked current text).flatMap lineMask

def codeMask (text : List Char) : List Bool := codeMaskFrom none text

/-- The character belongs to a content line of a fenced block. -/
def isCode (text : List Char) (position : ℕ) : Bool := (codeMask text)[position]? = some true

/-- Every fence of the text stands by itself or in one quote. -/
def PlainFrom (current : Option OpenFence) (text : List Char) : Prop :=
  ∀ entry ∈ tracked current text, ∀ fence ∈ advance entry.1 (chomp entry.2), fence.Plain

instance (current : Option OpenFence) (text : List Char) : Decidable (PlainFrom current text) := by
  unfold PlainFrom
  infer_instance

section Tracked

variable {current : Option OpenFence} {text before line after rest : List Char}

theorem trackedFrom_append (current : Option OpenFence) (first second : List (List Char)) :
    trackedFrom current (first ++ second) =
      trackedFrom current first ++ trackedFrom ((first.map chomp).foldl advance current) second := by
  induction first generalizing current with
  | nil => rfl
  | cons chunk first ih =>
    rw [List.cons_append, trackedFrom, ih]
    rfl

theorem tracked_append (h : Whole '\n' before) (current : Option OpenFence) (after : List Char) :
    tracked current (before ++ after) = tracked current before ++ tracked (openFrom current before) after := by
  rw [tracked, chunks_append h, trackedFrom_append]
  rfl

theorem tracked_line (h : '\n' ∉ line) (hne : line ≠ []) (current : Option OpenFence) :
    tracked current line = [(current, line)] := by
  rw [tracked, chunks_line h hne]
  rfl

theorem tracked_line_append (h : '\n' ∉ line) (current : Option OpenFence) (rest : List Char) :
    tracked current (line ++ '\n' :: rest) = (current, line ++ ['\n']) :: tracked (advance current line) rest := by
  rw [tracked, chunks_line_append h, trackedFrom, advance_chomp current h]
  rfl

theorem chomp_line (h : '\n' ∉ line) : chomp line = line := by
  rw [chomp, if_neg fun hl => h (List.mem_of_getLast? hl)]

theorem inside_chomp (h : '\n' ∉ line) : inside current (chomp (line ++ ['\n'])) = inside current line := by
  rw [chomp, if_pos (by simp), List.dropLast_concat]
  split
  · rename_i hcr
    obtain ⟨front, rfl⟩ := List.getLast?_eq_some_iff.1 hcr
    rw [List.dropLast_concat]
    cases current with
    | none => rfl
    | some fence => simp only [inside, closedBy_cr]
  · rfl

@[simp] theorem inside_nil : inside current [] = current.isSome := by
  cases current with
  | none => rfl
  | some fence => simp [inside, closedBy_nil]

/-! ### Masks -/

theorem codeMaskFrom_append (h : Whole '\n' before) (current : Option OpenFence) (after : List Char) :
    codeMaskFrom current (before ++ after) =
      codeMaskFrom current before ++ codeMaskFrom (openFrom current before) after := by
  rw [codeMaskFrom, tracked_append h, List.flatMap_append]
  rfl

theorem codeMaskFrom_line (h : '\n' ∉ line) (current : Option OpenFence) :
    codeMaskFrom current line = List.replicate line.length (inside current line) := by
  by_cases hne : line = []
  · simp [hne, codeMaskFrom, tracked, trackedFrom]
  · simp [codeMaskFrom, tracked_line h hne, lineMask, chomp_line h]

theorem codeMaskFrom_line_append (h : '\n' ∉ line) (current : Option OpenFence) (rest : List Char) :
    codeMaskFrom current (line ++ '\n' :: rest) =
      List.replicate (line.length + 1) (inside current line) ++ codeMaskFrom (advance current line) rest := by
  rw [codeMaskFrom, tracked_line_append h, List.flatMap_cons, lineMask, inside_chomp h, List.length_append]
  rfl

theorem length_codeMaskFrom (current : Option OpenFence) (text : List Char) :
    (codeMaskFrom current text).length = text.length := by
  have hfrom : ∀ (pieces : List (List Char)) (current : Option OpenFence),
      ((trackedFrom current pieces).flatMap lineMask).length = pieces.flatten.length := by
    intro pieces
    induction pieces with
    | nil => exact fun _ => rfl
    | cons chunk pieces ih =>
      intro current
      rw [trackedFrom, List.flatMap_cons, List.length_append, ih, lineMask, List.length_replicate, List.flatten_cons,
        List.length_append]
  rw [codeMaskFrom, tracked, hfrom, flatten_chunks]

/-! ### Plain fences -/

theorem plainFrom_append (h : Whole '\n' before) :
    PlainFrom current (before ++ after) ↔ PlainFrom current before ∧ PlainFrom (openFrom current before) after := by
  rw [PlainFrom, tracked_append h, List.forall_mem_append]
  rfl

theorem codeMaskFrom_newline (current : Option OpenFence) (rest : List Char) :
    codeMaskFrom current ('\n' :: rest) = inside current [] :: codeMaskFrom current rest := by
  have hblank := codeMaskFrom_line_append (List.not_mem_nil : '\n' ∉ []) current rest
  rwa [List.nil_append, advance_nil] at hblank

theorem plainFrom_line_append (h : '\n' ∉ line) :
    PlainFrom current (line ++ '\n' :: rest) ↔
      (∀ fence ∈ advance current line, fence.Plain) ∧ PlainFrom (advance current line) rest := by
  rw [PlainFrom, tracked_line_append h, List.forall_mem_cons, advance_chomp current h]
  rfl

theorem plainFrom_newline (h : PlainFrom current ('\n' :: rest)) : PlainFrom current rest := by
  have hblank := ((plainFrom_line_append (List.not_mem_nil : '\n' ∉ [])).1 h).2
  rwa [advance_nil] at hblank

theorem plainFrom_line (h : '\n' ∉ line) (hcurrent : ∀ fence ∈ current, fence.Plain) :
    PlainFrom current line ↔ ∀ fence ∈ advance current line, fence.Plain := by
  by_cases hne : line = []
  · simpa [hne, PlainFrom, tracked, trackedFrom] using hcurrent
  · simp [PlainFrom, tracked_line h hne, chomp_line h]

theorem plain_openFrom (h : PlainFrom current text) (hcurrent : ∀ fence ∈ current, fence.Plain) :
    ∀ fence ∈ openFrom current text, fence.Plain := by
  have hfrom : ∀ (pieces : List (List Char)) (current : Option OpenFence), (∀ fence ∈ current, fence.Plain) →
      (∀ entry ∈ trackedFrom current pieces, ∀ fence ∈ advance entry.1 (chomp entry.2), fence.Plain) →
      ∀ fence ∈ (pieces.map chomp).foldl advance current, fence.Plain := by
    intro pieces
    induction pieces with
    | nil => exact fun _ hcurrent _ => hcurrent
    | cons chunk pieces ih =>
      intro current _ hall
      rw [trackedFrom, List.forall_mem_cons] at hall
      exact ih _ hall.1 hall.2
  exact hfrom _ _ hcurrent h

end Tracked

/-! ## Cuts that make no delimiter -/

/-- A piece of the divided line is a fence delimiter where the line is none. -/
def makesDelimiter (before after : List Char) : Bool :=
  unfinished '\n' before ≠ [] && upcoming '\n' after ≠ [] &&
    match openFenceAtEnd (finished '\n' before) with
    | none => (parseFenceOpening (upcoming '\n' after)).isSome
    | some fence => fence.closedBy (unfinished '\n' before) || fence.closedBy (upcoming '\n' after)

/-- The first piece of the divided line closes the fence that the line does not close. -/
def closesEarly (before after : List Char) : Bool :=
  unfinished '\n' before ≠ [] && upcoming '\n' after ≠ [] &&
    match openFenceAtEnd (finished '\n' before) with
    | none => false
    | some fence => fence.closedBy (unfinished '\n' before)

/-- The cut after the part makes a fence delimiter. -/
def Piece.makesDelimiter (p : Piece) : Bool :=
  match p.ending with
  | .fits => false
  | .truncated before after => closesEarly before after
  | .cut before after => Markdown.makesDelimiter before after

theorem not_isDelimiter_atomicFenceBoundary (text : List Char) (boundary : ℕ) :
    let cut := atomicFenceBoundary text boundary
    cutHead text cut = [] ∨ cutTail text cut = [] ∨
      isDelimiter (openFenceAtEnd (cutFront text cut)) (cutHead text cut ++ cutTail text cut) = false := by
  dsimp only
  by_cases hends : boundary = 0 ∨ text.length ≤ boundary
  · rw [atomicFenceBoundary, if_pos hends]
    rcases hends with rfl | hlen
    · exact .inl (by simp [cutHead, unfinished, List.rtakeWhile])
    · exact .inr (.inl (by rw [cutTail, List.drop_of_length_le hlen]; rfl))
  · by_cases hline : cutHead text boundary = [] ∨ cutTail text boundary = []
    · rw [atomicFenceBoundary, if_neg hends, if_pos hline]
      exact hline.imp_right .inl
    · by_cases hdelim : isDelimiter (openFenceAtEnd (cutFront text boundary)) (cutHead text boundary ++ cutTail text boundary)
      · rw [atomicFenceBoundary, if_neg hends, if_neg hline, if_pos hdelim]
        have htake : text.take (cutFront text boundary).length = cutFront text boundary := by
          have hparts := cutFront_append_cutHead text boundary
          refine (List.prefix_iff_eq_take.1 ⟨cutHead text boundary ++ text.drop boundary, ?_⟩).symm
          rw [← List.append_assoc, hparts, List.take_append_drop]
        refine .inl ?_
        rw [cutHead, htake]
        exact (finished_of_whole (whole_finished _)).2
      · rw [atomicFenceBoundary, if_neg hends, if_neg hline, if_neg hdelim]
        exact .inr (.inr (by simpa using hdelim))

/-! ## Texts put together at the end of a line -/

/-- The second text begins at the end of a line of the first. -/
def Joins (before after : List Char) : Prop := Whole '\n' before ∨ after = [] ∨ after.head? = some '\n'

section Joins

variable {before after : List Char}

theorem openFrom_joins (h : Joins before after) (current : Option OpenFence) :
    openFrom current (before ++ after) = openFrom (openFrom current before) after := by
  rcases h with h | rfl | h
  · exact openFrom_append h current after
  · simp
  · obtain ⟨rest, rfl⟩ : ∃ rest, after = '\n' :: rest := by
      cases after with
      | nil => cases h
      | cons c rest => exact ⟨rest, by rw [Option.some.inj h]⟩
    rw [← finished_append_unfinished (s := '\n') before, List.append_assoc, openFrom_append (whole_finished _),
      openFrom_line_append (notMem_unfinished _), openFrom_append (whole_finished _), openFrom_line (notMem_unfinished _)]
    exact (openFrom_newline _ rest).symm

theorem codeMaskFrom_joins (h : Joins before after) (current : Option OpenFence) :
    ∃ more, codeMaskFrom current (before ++ after) = codeMaskFrom current before ++ more := by
  rcases h with h | rfl | h
  · exact ⟨_, codeMaskFrom_append h current after⟩
  · exact ⟨[], by simp⟩
  · obtain ⟨rest, rfl⟩ : ∃ rest, after = '\n' :: rest := by
      cases after with
      | nil => cases h
      | cons c rest => exact ⟨rest, by rw [Option.some.inj h]⟩
    rw [← finished_append_unfinished (s := '\n') before, List.append_assoc, codeMaskFrom_append (whole_finished _),
      codeMaskFrom_line_append (notMem_unfinished _), codeMaskFrom_append (whole_finished _),
      codeMaskFrom_line (notMem_unfinished _), List.replicate_succ']
    exact ⟨_, by rw [List.append_assoc, List.append_assoc]⟩

end Joins

/-- Where the first mask has code the second has. -/
def Covers (first second : List Bool) : Prop := List.Forall₂ (fun a b => a = true → b = true) first second

theorem Covers.refl (mask : List Bool) : Covers mask mask := List.forall₂_same.2 fun _ _ h => h

variable {a b c : List Bool}

theorem Covers.append {d : List Bool} (h : Covers a b) (h' : Covers c d) : Covers (a ++ c) (b ++ d) :=
  List.rel_append h h'

theorem Covers.trans (h : Covers a b) (h' : Covers b c) : Covers a c := by
  induction h generalizing c with
  | nil => exact h'
  | cons hab _ ih =>
    cases h' with
    | cons hbc hrest => exact .cons (fun ha => hbc (hab ha)) (ih hrest)

theorem Covers.replicate {a b : Bool} (h : a = true → b = true) (n : ℕ) :
    Covers (List.replicate n a) (List.replicate n b) := by
  induction n with
  | zero => exact .nil
  | succ n ih => exact .cons h ih

theorem Covers.take (h : Covers a b) (n : ℕ) : Covers (a.take n) (b.take n) := List.forall₂_take n h

theorem Covers.drop (h : Covers a b) (n : ℕ) : Covers (a.drop n) (b.drop n) := List.forall₂_drop n h

theorem Covers.get (h : Covers a b) {i : ℕ} (ha : a[i]? = some true) : b[i]? = some true := by
  induction h generalizing i with
  | nil => simp at ha
  | cons hab _ ih =>
    cases i with
    | zero => simpa using hab (by simpa using ha)
    | succ i => simpa using ih (by simpa using ha)

/-! ## One cut -/

/-- A boundary in a text of plain fences that divides no delimiter. -/
structure Boundary (before after : List Char) : Prop where
  atomic : unfinished '\n' before = [] ∨ upcoming '\n' after = [] ∨
    isDelimiter (openFenceAtEnd (finished '\n' before)) (unfinished '\n' before ++ upcoming '\n' after) = false
  plain : PlainFrom none (before ++ after)

/-- A cut of a closed text that makes no delimiter. -/
structure Cut (before after : List Char) : Prop extends Boundary before after where
  clean : makesDelimiter before after = false
  closed : openFenceAtEnd (before ++ after) = none

theorem openFenceAtEnd_eq (before : List Char) :
    openFenceAtEnd before = advance (openFenceAtEnd (finished '\n' before)) (unfinished '\n' before) := by
  conv_lhs => rw [← finished_append_unfinished (s := '\n') before]
  rw [openFenceAtEnd, openFrom_append (whole_finished _), openFrom_line (notMem_unfinished _)]
  rfl

section Line

variable {before after : List Char}

/-- What stays inside the fence as a whole line stays so before the cut. -/
theorem inside_head (hearly : closesEarly before after = false)
    (h : inside (openFenceAtEnd (finished '\n' before)) (unfinished '\n' before ++ upcoming '\n' after) = true) :
    inside (openFenceAtEnd (finished '\n' before)) (unfinished '\n' before) = true := by
  cases hS : openFenceAtEnd (finished '\n' before) with
  | none => rw [hS] at h; cases h
  | some fence =>
    rw [hS] at h
    by_cases hhead : unfinished '\n' before = []
    · rw [hhead, inside_nil, Option.isSome_some]
    · by_cases htail : upcoming '\n' after = []
      · rwa [htail, List.append_nil] at h
      · simpa [closesEarly, hS, hhead, htail, inside] using hearly

theorem closesEarly_of_clean (h : makesDelimiter before after = false) : closesEarly before after = false := by
  unfold makesDelimiter at h
  unfold closesEarly
  cases hS : openFenceAtEnd (finished '\n' before) with
  | none => simp
  | some fence =>
    simp only [hS, Bool.and_eq_false_iff, Bool.or_eq_false_iff] at h
    simp only [Bool.and_eq_false_iff]
    exact h.imp_right And.left

/-- The rest of the divided line leads from the fence that is open at the cut to the one after the whole line. -/
theorem Cut.advance_tail (h : Cut before after) :
    advance (openFenceAtEnd before) (upcoming '\n' after) =
      advance (openFenceAtEnd (finished '\n' before)) (unfinished '\n' before ++ upcoming '\n' after) := by
  rw [openFenceAtEnd_eq before]
  by_cases hhead : unfinished '\n' before = []
  · rw [hhead, advance_nil, List.nil_append]
  · by_cases htail : upcoming '\n' after = []
    · rw [htail, advance_nil, List.append_nil]
    · have hatomic := (h.atomic.resolve_left hhead).resolve_left htail
      have hclean := h.clean
      cases hS : openFenceAtEnd (finished '\n' before) with
      | none =>
        -- the line opens no fence, so its first piece opens none
        have hline : parseFenceOpening (unfinished '\n' before ++ upcoming '\n' after) = none := by
          simpa [isDelimiter, hS] using hatomic
        have hpiece : parseFenceOpening (unfinished '\n' before) = none := by
          by_contra hsome
          have := parseFenceOpening_append (Option.isSome_iff_ne_none.2 hsome) (upcoming '\n' after)
          rw [hline] at this
          cases this
        have hrest : parseFenceOpening (upcoming '\n' after) = none := by
          simpa [Markdown.makesDelimiter, hS, hhead, htail] using hclean
        rw [advance, advance, hpiece, hline, advance, hrest]
      | some fence =>
        have hline : fence.closedBy (unfinished '\n' before ++ upcoming '\n' after) = false := by
          simpa [isDelimiter, hS] using hatomic
        obtain ⟨hpiece, hrest⟩ : fence.closedBy (unfinished '\n' before) = false ∧
            fence.closedBy (upcoming '\n' after) = false := by
          simpa [Markdown.makesDelimiter, hS, hhead, htail] using hclean
        simp [advance, hline, hpiece, hrest]

/-- What stays inside the fence as a whole line stays so after the cut. -/
theorem Cut.inside_tail (h : Cut before after)
    (hin : inside (openFenceAtEnd (finished '\n' before)) (unfinished '\n' before ++ upcoming '\n' after) = true) :
    inside (openFenceAtEnd before) (upcoming '\n' after) = true := by
  have hpiece := inside_head (closesEarly_of_clean h.clean) hin
  have htail := h.advance_tail
  rw [openFenceAtEnd_eq before] at htail ⊢
  cases hS : openFenceAtEnd (finished '\n' before) with
  | none => rw [hS] at hin; cases hin
  | some fence =>
    rw [hS] at hin hpiece htail
    simp only [inside, Bool.not_eq_true'] at hin hpiece
    simp only [advance, hpiece, hin, Bool.false_eq_true, if_false] at htail ⊢
    by_contra hclosed
    simp only [inside, Bool.not_eq_true', Bool.not_eq_false] at hclosed
    rw [if_pos hclosed] at htail
    cases htail

theorem Cut.after_closed (h : Cut before after) : openFrom (openFenceAtEnd before) after = none := by
  obtain ⟨rest, hafter, hrest⟩ := upcoming_append (s := '\n') after
  have hjoin : ∀ line, Joins line rest := fun line => .inr hrest
  have hnewline : '\n' ∉ unfinished '\n' before ++ upcoming '\n' after := by simp [notMem_unfinished, notMem_upcoming]
  have htext := h.closed
  rw [← finished_append_unfinished (s := '\n') before, List.append_assoc, openFenceAtEnd, openFrom_append (whole_finished _),
    ← openFenceAtEnd, hafter, ← List.append_assoc, openFrom_joins (hjoin _),
    openFrom_line hnewline, ← h.advance_tail] at htext
  rw [hafter, openFrom_joins (hjoin _), openFrom_line (notMem_upcoming _)]
  exact htext

theorem Boundary.plain_line (h : Boundary before after) :
    (∀ fence ∈ openFenceAtEnd (finished '\n' before), fence.Plain) ∧
      PlainFrom (openFenceAtEnd (finished '\n' before)) (unfinished '\n' before ++ after) := by
  have hplain := h.plain
  rw [← finished_append_unfinished (s := '\n') before, List.append_assoc, plainFrom_append (whole_finished _)] at hplain
  exact ⟨plain_openFrom hplain.1 (by simp), hplain.2⟩

/-- The fence that is open after the divided line is plain. -/
theorem Boundary.plain_advance (h : Boundary before after) :
    ∀ fence ∈ advance (openFenceAtEnd (finished '\n' before)) (unfinished '\n' before ++ upcoming '\n' after),
      fence.Plain := by
  obtain ⟨hfront, hline⟩ := h.plain_line
  obtain ⟨rest, hafter, hrest⟩ := upcoming_append (s := '\n') after
  have hnewline : '\n' ∉ unfinished '\n' before ++ upcoming '\n' after := by simp [notMem_unfinished, notMem_upcoming]
  rw [hafter, ← List.append_assoc] at hline
  rcases hrest with rfl | hrest
  · rw [List.append_nil, plainFrom_line hnewline hfront] at hline
    exact hline
  · obtain ⟨more, rfl⟩ := List.head?_eq_some_iff.1 hrest
    exact ((plainFrom_line_append hnewline).1 hline).1

theorem Boundary.plain_open (h : Boundary before after) : ∀ fence ∈ openFenceAtEnd before, fence.Plain := by
  intro fence hfence
  obtain ⟨hfront, -⟩ := h.plain_line
  have hadvance := h.plain_advance fence
  rw [openFenceAtEnd_eq before] at hfence
  cases hS : openFenceAtEnd (finished '\n' before) with
  | some active =>
    rw [hS, advance] at hfence
    split at hfence
    · cases hfence
    · exact hfront fence (hS.trans hfence)
  | none =>
    by_cases htail : upcoming '\n' after = []
    · rw [htail, List.append_nil] at hadvance
      exact hadvance hfence
    · -- a line whose first piece opens a fence opens one itself, and such a line is not divided
      rw [hS] at hfence
      have hhead : unfinished '\n' before ≠ [] := by
        intro hnil
        rw [hnil, advance_nil] at hfence
        cases hfence
      have hatomic := (h.atomic.resolve_left hhead).resolve_left htail
      rw [hS, isDelimiter] at hatomic
      have hopens := parseFenceOpening_append (Option.isSome_iff_exists.2 ⟨fence, hfence⟩)
        (upcoming '\n' after)
      rw [hatomic] at hopens
      cases hopens

theorem Cut.after_plain (h : Cut before after) : PlainFrom (openFenceAtEnd before) after := by
  obtain ⟨-, hline⟩ := h.plain_line
  obtain ⟨rest, hafter, hrest⟩ := upcoming_append (s := '\n') after
  have hnewline : '\n' ∉ unfinished '\n' before ++ upcoming '\n' after := by simp [notMem_unfinished, notMem_upcoming]
  have htail := h.advance_tail
  have hadvance := h.plain_advance
  rw [← htail] at hadvance
  generalize upcoming '\n' after = tail at *
  subst hafter
  rcases hrest with rfl | hrest
  · rw [List.append_nil] at *
    exact (plainFrom_line (fun hm => hnewline (List.mem_append_right _ hm)) h.plain_open).2 hadvance
  · obtain ⟨more, rfl⟩ := List.head?_eq_some_iff.1 hrest
    rw [← List.append_assoc, plainFrom_line_append hnewline, ← htail] at hline
    exact (plainFrom_line_append fun hm => hnewline (List.mem_append_right _ hm)).2 hline

/-- The mask of a text up to and from a boundary in a line. -/
theorem codeMask_divided (before after : List Char) :
    ∃ later, codeMask (before ++ after) = codeMask (finished '\n' before) ++
        (List.replicate (unfinished '\n' before).length
          (inside (openFenceAtEnd (finished '\n' before)) (unfinished '\n' before ++ upcoming '\n' after)) ++ later) ∧
      (before ++ after).length = before.length + later.length ∧
      ((after = upcoming '\n' after ∧ later = List.replicate (upcoming '\n' after).length
          (inside (openFenceAtEnd (finished '\n' before)) (unfinished '\n' before ++ upcoming '\n' after))) ∨
        ∃ rest, after = upcoming '\n' after ++ '\n' :: rest ∧
          later = List.replicate ((upcoming '\n' after).length + 1)
              (inside (openFenceAtEnd (finished '\n' before)) (unfinished '\n' before ++ upcoming '\n' after)) ++
            codeMaskFrom (advance (openFenceAtEnd (finished '\n' before)) (unfinished '\n' before ++ upcoming '\n' after)) rest) := by
  obtain ⟨rest, hafter, hrest⟩ := upcoming_append (s := '\n') after
  have hnewline : '\n' ∉ unfinished '\n' before ++ upcoming '\n' after := by simp [notMem_unfinished, notMem_upcoming]
  have htext : before ++ after = finished '\n' before ++ (unfinished '\n' before ++ upcoming '\n' after ++ rest) := by
    conv_lhs => rw [hafter, ← finished_append_unfinished (s := '\n') before]
    simp only [List.append_assoc]
  have hlen := congrArg List.length (finished_append_unfinished (s := '\n') before)
  have hmask := congrArg List.length (congrArg codeMask htext)
  rw [List.length_append] at hlen
  rw [htext, codeMask, codeMaskFrom_append (whole_finished _), ← openFenceAtEnd]
  rcases hrest with rfl | hrest
  · refine ⟨_, ?_, ?_, .inl ⟨by simpa using hafter, rfl⟩⟩
    · rw [List.append_nil, codeMaskFrom_line hnewline, List.length_append, List.replicate_add]
      rfl
    · simp only [List.length_append, List.length_replicate, List.length_nil]
      omega
  · obtain ⟨more, rfl⟩ := List.head?_eq_some_iff.1 hrest
    refine ⟨_, ?_, ?_, .inr ⟨more, hafter, rfl⟩⟩
    · rw [codeMaskFrom_line_append hnewline, List.length_append, Nat.add_assoc, List.replicate_add, List.append_assoc]
      rfl
    · simp only [List.length_append, List.length_replicate, List.length_cons, length_codeMaskFrom]
      omega

theorem codeMask_take_kept (hearly : closesEarly before after = false) :
    Covers ((codeMask (before ++ after)).take before.length) (codeMask before) := by
  obtain ⟨later, hmask, -, -⟩ := codeMask_divided before after
  have hbefore : codeMask before = codeMask (finished '\n' before) ++
      List.replicate (unfinished '\n' before).length (inside (openFenceAtEnd (finished '\n' before)) (unfinished '\n' before)) := by
    conv_lhs => rw [← finished_append_unfinished (s := '\n') before]
    rw [codeMask, codeMaskFrom_append (whole_finished _), codeMaskFrom_line (notMem_unfinished _)]
    rfl
  have hlen := congrArg List.length (finished_append_unfinished (s := '\n') before)
  rw [List.length_append] at hlen
  rw [hmask, ← List.append_assoc, List.take_left' (by simp [codeMask, length_codeMaskFrom, hlen]), hbefore]
  exact (Covers.refl _).append (Covers.replicate (inside_head hearly) _)

/-- A line break after the cut belongs to the line before it. -/
theorem codeMask_take_newline (rest : List Char) :
    (codeMask (before ++ '\n' :: rest)).take (before.length + 1) = codeMask (before ++ ['\n']) := by
  have hlen : (before ++ ['\n']).length = before.length + 1 := by simp
  obtain ⟨more, hmore⟩ := @codeMaskFrom_joins (before ++ ['\n']) rest (.inl (whole_snoc before)) none
  rw [List.append_assoc, List.singleton_append] at hmore
  rw [codeMask, hmore, List.take_left' (by rw [length_codeMaskFrom, hlen])]
  rfl

theorem Cut.after_covers (h : Cut before after) :
    Covers ((codeMask (before ++ after)).drop before.length) (codeMaskFrom (openFenceAtEnd before) after) := by
  obtain ⟨later, hmask, -, hlater⟩ := codeMask_divided before after
  have hlen := congrArg List.length (finished_append_unfinished (s := '\n') before)
  rw [List.length_append] at hlen
  rw [hmask, ← List.append_assoc, List.drop_left' (by simp [codeMask, length_codeMaskFrom, hlen])]
  rcases hlater with ⟨hafter, rfl⟩ | ⟨rest, hafter, rfl⟩
  · conv_rhs => rw [hafter]
    rw [codeMaskFrom_line (notMem_upcoming _)]
    exact Covers.replicate h.inside_tail _
  · conv_rhs => rw [hafter]
    rw [codeMaskFrom_line_append (notMem_upcoming _), h.advance_tail]
    exact (Covers.replicate h.inside_tail _).append (Covers.refl _)

end Line

section Parts

variable {before after : List Char}

theorem whole_or_newline_keptBefore (before after : List Char) : Joins (keptBefore before after) (insertedClosing before after) := by
  unfold keptBefore insertedClosing
  cases openFenceAtEnd before with
  | none => exact .inr (.inl (by simp))
  | some fence =>
    by_cases hb : before.getLast? = some '\n'
    · rw [if_neg (by simp [hb])]
      exact .inl (.inr hb)
    · by_cases ha : after.head? = some '\n'
      · rw [if_pos (by simp [hb, ha])]
        exact .inl (whole_snoc before)
      · exact .inr (.inr (by simp [hb, ha]))

theorem openFenceAtEnd_keptBefore (before after : List Char) : openFenceAtEnd (keptBefore before after) = openFenceAtEnd before := by
  unfold keptBefore
  split_ifs
  · rw [openFenceAtEnd, openFrom_joins (.inr (.inr rfl))]
    exact openFrom_newline _ []
  · rfl

theorem part_closed (hplain : ∀ fence ∈ openFenceAtEnd before, fence.Plain) (after : List Char) :
    openFenceAtEnd (keptBefore before after ++ insertedClosing before after) = none := by
  rw [openFenceAtEnd, openFrom_joins (whole_or_newline_keptBefore _ _), ← openFenceAtEnd, openFenceAtEnd_keptBefore]
  unfold insertedClosing
  cases hopen : openFenceAtEnd before with
  | none => rfl
  | some fence =>
    have hclosed : advance (some fence) fence.closingLine = none := by
      rw [advance, closedBy_closingLine (hplain fence hopen), if_pos rfl]
    have hline := openFrom_line (openingLine_no_newline fence).2 (some fence)
    dsimp only
    split_ifs
    · rw [List.nil_append, hline, hclosed]
    · rw [List.singleton_append, openFrom_newline, hline, hclosed]

theorem Cut.part_covers (h : Cut before after) :
    Covers ((codeMask (before ++ after)).take (keptBefore before after).length)
      ((codeMask (keptBefore before after ++ insertedClosing before after)).take (keptBefore before after).length) := by
  obtain ⟨more, hmore⟩ := codeMaskFrom_joins (whole_or_newline_keptBefore before after) none
  rw [codeMask, codeMask, hmore, List.take_left' (length_codeMaskFrom _ _)]
  unfold keptBefore
  split_ifs with hkept
  · obtain ⟨rest, rfl⟩ := List.head?_eq_some_iff.1 hkept.2.2
    rw [List.length_append, List.length_singleton, ← codeMask, ← codeMask, codeMask_take_newline]
    exact Covers.refl _
  · exact codeMask_take_kept (closesEarly_of_clean h.clean)

theorem openFenceAtEnd_insertedReopening (hplain : ∀ fence ∈ openFenceAtEnd before, fence.Plain) :
    openFenceAtEnd (insertedReopening before) = openFenceAtEnd before := by
  unfold insertedReopening
  cases hopen : openFenceAtEnd before with
  | none => rfl
  | some fence =>
    have hsame : (⟨fence.fence, .plain fence.context.quoted⟩ : OpenFence) = fence := by
      rw [← (hplain fence hopen : fence.context = _)]
    dsimp only
    rw [openFenceAtEnd, openFrom_line_append (openingLine_no_newline fence).1, advance, parseFenceOpening_openingLine, hsame,
      openFrom_nil]

theorem whole_insertedReopening (before : List Char) : Whole '\n' (insertedReopening before) := by
  rcases reopening_inserted before with h | ⟨fence, h⟩
  · exact .inl h
  · exact h ▸ whole_snoc _

/-- What the rest keeps is what follows the cut, up to one line break. -/
theorem after_eq_keptAfter (before after : List Char) : after = keptAfter before after ∨ after = '\n' :: keptAfter before after := by
  unfold keptAfter stripNewline
  split_ifs with hopen hnewline
  · obtain ⟨rest, rfl⟩ := List.head?_eq_some_iff.1 hnewline
    exact .inr rfl
  · exact .inl rfl
  · exact .inl rfl

theorem Cut.rest_closed (h : Cut before after) :
    openFenceAtEnd (insertedReopening before ++ keptAfter before after) = none := by
  rw [openFenceAtEnd, openFrom_append (whole_insertedReopening _), ← openFenceAtEnd,
    openFenceAtEnd_insertedReopening h.plain_open]
  have hafter := h.after_closed
  rcases after_eq_keptAfter before after with heq | heq
  · rwa [← heq]
  · rw [heq] at hafter
    rwa [openFrom_newline] at hafter

theorem Cut.rest_plain (h : Cut before after) :
    PlainFrom none (insertedReopening before ++ keptAfter before after) := by
  rw [plainFrom_append (whole_insertedReopening _), ← openFenceAtEnd, openFenceAtEnd_insertedReopening h.plain_open]
  constructor
  · unfold insertedReopening
    cases hopen : openFenceAtEnd before with
    | none => simp [PlainFrom, tracked, trackedFrom]
    | some fence =>
      refine (plainFrom_line_append (openingLine_no_newline fence).1).2 ⟨?_, by simp [PlainFrom, tracked, trackedFrom]⟩
      intro opened hopened
      rw [advance, parseFenceOpening_openingLine] at hopened
      obtain rfl := Option.some.inj hopened
      exact congrArg FenceContext.plain (FenceContext.plain_quoted _).symm
  · have hafter := h.after_plain
    rcases after_eq_keptAfter before after with heq | heq
    · rwa [← heq]
    · rw [heq] at hafter
      exact plainFrom_newline hafter

theorem Cut.rest_covers (h : Cut before after) :
    Covers ((codeMask (before ++ after)).drop ((before ++ after).length - (keptAfter before after).length))
      ((codeMask (insertedReopening before ++ keptAfter before after)).drop (insertedReopening before).length) := by
  have hmask := codeMaskFrom_append (whole_insertedReopening before) none (keptAfter before after)
  rw [← openFenceAtEnd, openFenceAtEnd_insertedReopening h.plain_open] at hmask
  rw [show codeMask (insertedReopening before ++ keptAfter before after) = _ from hmask,
    List.drop_left' (length_codeMaskFrom _ _)]
  have hafter := h.after_covers
  rcases after_eq_keptAfter before after with heq | heq
  · rw [← heq, List.length_append, Nat.add_sub_cancel]
    exact hafter
  · have hlen := congrArg List.length heq
    rw [List.length_cons] at hlen
    rw [List.length_append, hlen, show before.length + ((keptAfter before after).length + 1) - (keptAfter before after).length =
      before.length + 1 by omega, ← List.drop_drop]
    have hblank := codeMaskFrom_newline (openFenceAtEnd before) (keptAfter before after)
    have hdrop := hafter.drop 1
    rw [← heq] at hblank
    rw [hblank] at hdrop
    exact hdrop

/-! ## The truncated part -/

theorem endLine_joins (text more : List Char) : ∃ line, endLine text = text ++ line ∧ Joins text (line ++ more) := by
  unfold endLine
  split_ifs with hlast
  · exact ⟨[], (List.append_nil _).symm, .inl (.inr hlast)⟩
  · exact ⟨['\n'], rfl, .inr (.inr rfl)⟩

theorem whole_endLine (text : List Char) : Whole '\n' (endLine text) := by
  unfold endLine
  split_ifs with hlast
  · exact .inr hlast
  · exact whole_snoc text

theorem openFenceAtEnd_endLine (text : List Char) : openFenceAtEnd (endLine text) = openFenceAtEnd text := by
  unfold endLine
  split_ifs
  · rfl
  · rw [openFenceAtEnd, openFrom_joins (.inr (.inr rfl)), openFrom_newline]
    rfl

theorem closeFence_closed (hplain : ∀ fence ∈ openFenceAtEnd before, fence.Plain) : openFenceAtEnd (closeFence before) = none := by
  unfold closeFence
  cases hopen : openFenceAtEnd before with
  | none => exact hopen
  | some fence =>
    dsimp only
    rw [openFenceAtEnd, openFrom_append (whole_endLine _), ← openFenceAtEnd, openFenceAtEnd_endLine, hopen,
      openFrom_line (openingLine_no_newline fence).2, advance, closedBy_closingLine (hplain fence hopen), if_pos rfl]

theorem closeFence_joins (before more : List Char) : ∃ line, closeFence before = before ++ line ∧
    (line = [] ∨ Joins before (line ++ more)) := by
  unfold closeFence
  cases openFenceAtEnd before with
  | none => exact ⟨[], (List.append_nil _).symm, .inl rfl⟩
  | some fence =>
    obtain ⟨line, hline, hjoins⟩ := endLine_joins before (fence.closingLine ++ more)
    exact ⟨line ++ fence.closingLine, by dsimp only; rw [hline, List.append_assoc],
      .inr (by rwa [List.append_assoc])⟩

theorem truncatedAt_closed {text : List Char} {boundary : ℕ}
    (hplain : ∀ fence ∈ openFenceAtEnd (text.take boundary), fence.Plain) : openFenceAtEnd (truncatedAt text boundary) = none := by
  have hmarker : openFrom none replyTruncationMarker = none := by with_unfolding_all decide
  have hclosed := closeFence_closed hplain
  rw [truncatedAt]
  split_ifs with hempty
  · rw [hempty]
    exact hmarker
  · rw [openFenceAtEnd, openFrom_append (whole_endLine _), ← openFenceAtEnd, openFenceAtEnd_endLine, hclosed, hmarker]

theorem truncatedAt_joins (text : List Char) (boundary : ℕ) :
    ∃ more, truncatedAt text boundary = text.take boundary ++ more ∧ Joins (text.take boundary) more := by
  rw [truncatedAt]
  split_ifs with hempty
  · obtain ⟨line, hline, -⟩ := closeFence_joins (text.take boundary) []
    rw [hempty] at hline ⊢
    obtain ⟨hnil, rfl⟩ := List.append_eq_nil_iff.1 hline.symm
    exact ⟨replyTruncationMarker, by rw [hnil], .inl (.inl hnil)⟩
  · obtain ⟨after, hafter, hjoin⟩ := endLine_joins (closeFence (text.take boundary)) replyTruncationMarker
    obtain ⟨line, hline, hjoins⟩ := closeFence_joins (text.take boundary) (after ++ replyTruncationMarker)
    refine ⟨line ++ (after ++ replyTruncationMarker), by rw [hafter, hline]; simp only [List.append_assoc], ?_⟩
    rcases hjoins with rfl | hjoins
    · rwa [hline, List.append_nil] at hjoin
    · exact hjoins

end Parts

/-! ## The run -/

/-- The part is closed, and the characters of the text that it carries are code where the text has code. -/
structure Piece.Valid (text : List Char) (p : Piece) : Prop where
  closed : openFenceAtEnd p.text = none
  body_eq : (text.drop p.start).take p.body.length = p.body
  covers : Covers (((codeMask text).drop p.start).take p.body.length)
    (((codeMask p.text).drop p.reopening.length).take p.body.length)

section Run

variable {J : JsonEscaping} {maxChars maxWireBytes : ℕ}

theorem boundary_atomicFenceBoundary {text : List Char} (hplain : PlainFrom none text) (boundary : ℕ) :
    Boundary (text.take (atomicFenceBoundary text boundary)) (text.drop (atomicFenceBoundary text boundary)) :=
  ⟨not_isDelimiter_atomicFenceBoundary text boundary, by rwa [List.take_append_drop]⟩

/-- Positions of the characters that a part keeps. -/
theorem take_drop_covers {mask part : List Bool} {reopening body : ℕ}
    (h : Covers (mask.take (reopening + body)) (part.take (reopening + body))) :
    Covers ((mask.drop reopening).take body) ((part.drop reopening).take body) := by
  have hdrop := h.drop reopening
  rwa [List.drop_take, List.drop_take, Nat.add_sub_cancel_left] at hdrop

theorem valid_of_piecesFrom {text : List Char} {left start : ℕ} {reopening own : List Char} {pieces : List Piece}
    (hr : Reopening reopening) (hown : text.drop start = own)
    (hmask : Covers ((codeMask text).drop start) ((codeMask (reopening ++ own)).drop reopening.length))
    (hclosed : openFenceAtEnd (reopening ++ own) = none) (hplain : PlainFrom none (reopening ++ own))
    (h : piecesFrom J maxChars maxWireBytes left start reopening (reopening ++ own) = some pieces)
    (hclean : ∀ p ∈ pieces, p.makesDelimiter = false) : ∀ p ∈ pieces, p.Valid text := by
  induction left generalizing start reopening own pieces with
  | zero =>
    obtain rfl := Option.some.inj h
    exact fun p hp => absurd hp List.not_mem_nil
  | succ left ih =>
    rw [piecesFrom] at h
    split at h
    · obtain rfl := Option.some.inj h
      rw [List.forall_mem_singleton]
      have hbody : (reopening ++ own).drop reopening.length = own := List.drop_left
      refine ⟨?_, ?_, ?_⟩
      · simpa [Piece.text] using hclosed
      · simp [hown]
      · simpa [Piece.text] using hmask.take own.length
    split at h
    · obtain ⟨boundary, hb, rfl⟩ := Option.map_eq_some_iff.1 h
      rw [List.forall_mem_singleton] at hclean ⊢
      have htake := length_take_of_truncatedBoundary hb
      obtain ⟨more, hmore, hjoins⟩ := truncatedAt_joins (reopening ++ own) boundary
      have hboundary : Boundary ((reopening ++ own).take boundary) ((reopening ++ own).drop boundary) := by
        rcases (of_truncatedBoundary hb).2 with rfl | ⟨count, rfl⟩
        · exact ⟨.inl (by simp [unfinished, List.rtakeWhile]), by simpa using hplain⟩
        · exact boundary_atomicFenceBoundary hplain _
      have htext : reopening.take boundary ++ ((reopening ++ own).take boundary).drop reopening.length ++
          (truncatedAt (reopening ++ own) boundary).drop boundary = truncatedAt (reopening ++ own) boundary := by
        rw [hmore, List.drop_left' htake, List.take_append]
        rcases Nat.le_total boundary reopening.length with hle | hle
        · rw [Nat.sub_eq_zero_of_le hle, List.take_zero, List.append_nil, List.drop_of_length_le (by simp), List.append_nil]
        · rw [List.take_of_length_le hle, List.drop_left]
      have hcovers : Covers ((codeMask (reopening ++ own)).take boundary)
          ((codeMask (truncatedAt (reopening ++ own) boundary)).take boundary) := by
        have hkept := @codeMask_take_kept ((reopening ++ own).take boundary) ((reopening ++ own).drop boundary)
          hclean
        obtain ⟨later, hlater⟩ := codeMaskFrom_joins hjoins none
        rw [List.take_append_drop, htake] at hkept
        rw [hmore, codeMask, codeMask, hlater, List.take_left' (by rw [length_codeMaskFrom, htake])]
        exact hkept
      refine ⟨?_, ?_, ?_⟩
      · rw [Piece.text, htext]
        exact truncatedAt_closed hboundary.plain_open
      · rcases Nat.le_total boundary reopening.length with hle | hle
        · simp [List.drop_of_length_le, hle]
        · rw [hown, List.take_append, List.take_of_length_le hle, List.drop_left, List.length_take, List.take_eq_take_iff]
          omega
      · rw [Piece.text, htext]
        dsimp only
        rcases Nat.le_total boundary reopening.length with hle | hle
        · rw [List.drop_of_length_le (by rw [htake]; exact hle)]
          simpa using Covers.refl []
        · have hlen : (((reopening ++ own).take boundary).drop reopening.length).length = boundary - reopening.length := by
            rw [List.length_drop, htake]
          rw [List.take_of_length_le hle, hlen]
          have hfirst := hmask.take (boundary - reopening.length)
          have hsecond := @take_drop_covers _ _ reopening.length (boundary - reopening.length)
            (by rwa [Nat.add_sub_of_le hle])
          exact hfirst.trans hsecond
    · obtain ⟨boundary, hb, h⟩ := Option.bind_eq_some_iff.1 h
      obtain ⟨later, hlater, rfl⟩ := Option.map_eq_some_iff.1 h
      rw [List.forall_mem_cons] at hclean ⊢
      obtain ⟨hadm, count, hcount⟩ := admissible_of_splitBoundary hb
      have hle := reopening_le_of_admissible hr hb
      have hboundary : Boundary ((reopening ++ own).take boundary) ((reopening ++ own).drop boundary) :=
        hcount ▸ boundary_atomicFenceBoundary hplain _
      have hcut : Cut ((reopening ++ own).take boundary) ((reopening ++ own).drop boundary) :=
        ⟨hboundary, hclean.1, by rwa [List.take_append_drop]⟩
      have hpart := hcut.part_covers
      have hrest := hcut.rest_covers
      have hrestclosed := hcut.rest_closed
      have hrestplain := hcut.rest_plain
      have hopen := hcut.plain_open
      have hkept := kept_append ((reopening ++ own).take boundary) ((reopening ++ own).drop boundary)
      have hbefore := @keptBefore_append_drop _ own ((reopening ++ own).drop boundary) _ hle
      rw [List.take_append_drop] at hpart hrest hkept
      generalize hB : (reopening ++ own).take boundary = before at *
      generalize hA : (reopening ++ own).drop boundary = after at *
      generalize hbody : (keptBefore before after).drop reopening.length = body at *
      rw [← hbefore, List.append_assoc, List.append_assoc] at hkept
      have hsplit := List.append_cancel_left hkept
      have hlength : (keptBefore before after).length = reopening.length + body.length := by
        rw [← hbefore, List.length_append]
      have hconsumed : (reopening ++ own).length - reopening.length - (keptAfter before after).length =
          own.length - (keptAfter before after).length := by rw [List.length_append, Nat.add_sub_cancel_left]
      have hown' : text.drop (start + (own.length - (keptAfter before after).length)) = keptAfter before after := by
        have hdrop : ∀ front : List Char, own = front ++ keptAfter before after →
            own.drop (own.length - (keptAfter before after).length) = keptAfter before after := by
          intro front hfront
          rw [hfront, List.length_append, Nat.add_sub_cancel, List.drop_left]
        rw [← List.drop_drop, hown]
        exact hdrop _ (by rw [hsplit, List.append_assoc])
      refine ⟨⟨?_, ?_, ?_⟩, ?_⟩
      · rw [Piece.text]
        dsimp only
        rw [hbefore]
        exact part_closed hopen after
      · dsimp only
        rw [hown, hsplit, List.take_left]
      · rw [Piece.text]
        dsimp only
        rw [hbefore]
        rw [hlength] at hpart
        exact (hmask.take body.length).trans (take_drop_covers hpart)
      · rw [hconsumed] at hlater
        refine ih (reopening_inserted _) hown' ?_ hrestclosed hrestplain hlater hclean.2
        have hcovers := hmask.drop (own.length - (keptAfter before after).length)
        have hle' := congrArg List.length hsplit
        simp only [List.length_append] at hle'
        rw [List.drop_drop, List.drop_drop, show reopening.length + (own.length - (keptAfter before after).length) =
          (reopening ++ own).length - (keptAfter before after).length by rw [List.length_append]; omega] at hcovers
        exact hcovers.trans hrest

end Run

/-- **Every part of a closed text of plain fences is closed, and what is code in the text is code in the part that
carries it, when no cut makes a fence delimiter out of a piece of a line.** -/
theorem parts_keep_fences {J : JsonEscaping} {text : List Char} {maxChars maxWireBytes maxSplits : ℕ} {pieces : List Piece}
    (hclosed : openFenceAtEnd text = none) (hplain : PlainFrom none text)
    (h : splitPieces J text maxChars maxWireBytes maxSplits = some pieces)
    (hclean : ∀ p ∈ pieces, p.makesDelimiter = false) :
    splitLarkMarkdown J text maxChars maxWireBytes maxSplits = some (pieces.map Piece.text) ∧
      ∀ p ∈ pieces, openFenceAtEnd p.text = none ∧ (text.drop p.start).take p.body.length = p.body ∧
        ∀ i < p.body.length, isCode text (p.start + i) = true → isCode p.text (p.reopening.length + i) = true := by
  refine ⟨by rw [splitLarkMarkdown_eq, h, Option.map_some], ?_⟩
  have hvalid : ∀ p ∈ pieces, p.Valid text := by
    unfold splitPieces at h
    split_ifs at h
    · obtain rfl := Option.some.inj h
      exact fun p hp => absurd hp List.not_mem_nil
    · exact @valid_of_piecesFrom _ _ _ text _ _ [] text _ (.inl rfl) rfl (Covers.refl _) hclosed hplain h hclean
  intro p hp
  obtain ⟨hpart, hbody, hcovers⟩ := hvalid p hp
  refine ⟨hpart, hbody, fun i hi hcode => ?_⟩
  have hget := hcovers.get (i := i) (by rw [List.getElem?_take_of_lt hi, List.getElem?_drop]; simpa [isCode] using hcode)
  rw [List.getElem?_take_of_lt hi, List.getElem?_drop] at hget
  simpa [isCode] using hget

set_option maxRecDepth 20000 in
/-- A fenced block that is cut between two lines of code. -/
theorem codeBlock_keeps_fences :
    splitLarkMarkdown serdeJson "```\naaaa\nbbbb\n```".toList 12 1000 8 =
        some (((splitPieces serdeJson "```\naaaa\nbbbb\n```".toList 12 1000 8).getD []).map Piece.text) ∧
      ∀ p ∈ (splitPieces serdeJson "```\naaaa\nbbbb\n```".toList 12 1000 8).getD [], openFenceAtEnd p.text = none ∧
        ("```\naaaa\nbbbb\n```".toList.drop p.start).take p.body.length = p.body ∧
        ∀ i < p.body.length, isCode "```\naaaa\nbbbb\n```".toList (p.start + i) = true →
          isCode p.text (p.reopening.length + i) = true :=
  parts_keep_fences (by with_unfolding_all decide) (by with_unfolding_all decide) (by with_unfolding_all decide) (by with_unfolding_all decide)

/-- A line of 4000 letters fills a part. -/
def longLine : List Char := List.replicate 4000 'a'

theorem not_mem_longLine : '\n' ∉ longLine := fun h => absurd (List.eq_of_mem_replicate h) (by decide)

set_option maxRecDepth 10000 in
/-- The letters open no fence, also with a marker behind them; the marker alone does. -/
theorem longLine_plain :
    openFenceAtEnd longLine = none ∧ isDelimiter none (longLine ++ "```".toList) = false ∧
      openFenceAtEnd (longLine ++ "```".toList) = none ∧ PlainFrom none (longLine ++ "```".toList) ∧
      openFenceAtEnd "```".toList ≠ none := by
  decide +kernel

/-- By default the characters decide: a part of 4000 of them fits in a message. -/
theorem fits_of_length {text : List Char} (h : text.length ≤ 4000) :
    fits serdeJson ProjectorConfig.default.maxChars larkMaxSendBodyBytes text = true := by
  have hwire : 36 * 4000 + 400 ≤ larkMaxSendBodyBytes := by decide
  rw [fits, Bool.and_eq_true, decide_eq_true_eq, decide_eq_true_eq]
  refine ⟨h, (postMarkdownReplyBodyLen_le _ _).trans ?_⟩
  omega

/-- The cut after the letters falls into no delimiter, so it is taken. -/
theorem splitBoundary_longLine : splitBoundary serdeJson ProjectorConfig.default.maxChars larkMaxSendBodyBytes
    (longLine ++ "```".toList) = some 4000 := by
  have hlength : longLine.length = 4000 := List.length_replicate
  have htake : (longLine ++ "```".toList).take 4000 = longLine := List.take_left' hlength
  have hdrop : (longLine ++ "```".toList).drop 4000 = "```".toList := List.drop_left' hlength
  have hfinished := finished_of_line not_mem_longLine
  have hpreferred : preferredBoundary (longLine ++ "```".toList) 4000 = 4000 := by
    have hmin : min 4000 (longLine ++ "```".toList).length = 4000 := by simp [hlength]
    rw [preferredBoundary, hmin, htake, hfinished.1]
    simp only [List.length_nil, ne_eq, not_true_eq_false, false_and, if_false, atomicFenceBoundary, cutFront, cutHead,
      cutTail, htake, hdrop, hfinished]
    rw [show upcoming '\n' "```".toList = "```".toList by decide, show openFenceAtEnd [] = none by decide, longLine_plain.2.1]
    simp
  have hadmissible : admissible serdeJson ProjectorConfig.default.maxChars larkMaxSendBodyBytes
      (longLine ++ "```".toList) 4000 = true := by
    have hne : longLine ≠ [] := List.ne_nil_of_length_eq_add_one hlength
    simp only [admissible, htake, hdrop, closeAndReopen, longLine_plain.1, fits_of_length hlength.le]
    simp [hlength, hne]
  have hcount : min (longLine ++ "```".toList).length ProjectorConfig.default.maxChars = 3999 + 1 := by
    simp [hlength, ProjectorConfig.default]
  rw [splitBoundary, hcount, splitBoundaryFrom]
  simp only [hpreferred, hadmissible, if_true]

theorem split_longLine : splitLarkMarkdown serdeJson (longLine ++ "```".toList) ProjectorConfig.default.maxChars
    larkMaxSendBodyBytes ProjectorConfig.default.maxSplits = some [longLine, "```".toList] := by
  have hlength : longLine.length = 4000 := List.length_replicate
  have hlong : fits serdeJson ProjectorConfig.default.maxChars larkMaxSendBodyBytes (longLine ++ "```".toList) = false := by
    simp [fits, hlength, ProjectorConfig.default]
  have hrest : fits serdeJson ProjectorConfig.default.maxChars larkMaxSendBodyBytes "```".toList = true :=
    fits_of_length (by decide)
  have hcut : splitOne serdeJson ProjectorConfig.default.maxChars larkMaxSendBodyBytes (longLine ++ "```".toList) =
      some (longLine, "```".toList) := by
    rw [splitOne, splitBoundary_longLine, Option.map_some, List.take_left' hlength, List.drop_left' hlength, closeAndReopen,
      longLine_plain.1]
  have hne : longLine ≠ [] := List.ne_nil_of_length_eq_add_one hlength
  rw [splitLarkMarkdown, if_neg (by decide), if_neg (by simp)]
  show splitFrom serdeJson _ _ (6 + 1 + 1) _ = _
  rw [splitFrom, if_neg (by rw [hlong]; exact Bool.false_ne_true), if_neg (by decide), hcut, Option.bind_some]
  dsimp only
  rw [if_neg (by simp [hne]), splitFrom, if_pos hrest]
  rfl

/-- A cut in a line of prose makes its second piece an opening fence, which stays open in the last part. -/
theorem divided_line_opens :
    openFenceAtEnd (List.replicate 4000 'a' ++ "```".toList) = none ∧
      PlainFrom none (List.replicate 4000 'a' ++ "```".toList) ∧
      splitLarkMarkdown serdeJson (List.replicate 4000 'a' ++ "```".toList) ProjectorConfig.default.maxChars
        larkMaxSendBodyBytes ProjectorConfig.default.maxSplits = some [List.replicate 4000 'a', "```".toList] ∧
      openFenceAtEnd "```".toList ≠ none := by
  obtain ⟨-, -, hopen, hplain, hmarker⟩ := longLine_plain
  exact ⟨hopen, hplain, split_longLine, hmarker⟩

set_option maxRecDepth 20000 in
/-- The condition is not necessary: here the piece opens a fence that takes in the next block and is closed with it. -/
example :
    let text := "aaaaaaaaaaaaaaaaaaaaaaaa```x\n```rust\ncode\n```".toList
    let pieces := (splitPieces serdeJson text 24 1000 8).getD []
    pieces.any Piece.makesDelimiter = true ∧ ∀ p ∈ pieces, openFenceAtEnd p.text = none ∧
      ∀ i < p.body.length, isCode text (p.start + i) = true → isCode p.text (p.reopening.length + i) = true := by
  with_unfolding_all decide

end LarkCodexBridge.Render.Markdown

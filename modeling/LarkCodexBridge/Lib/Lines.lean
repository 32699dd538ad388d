import Mathlib

/-!
# Lines of a list

A list is cut at a separator into chunks, each with the separator that ends it; only the last one can lack it.

* `chunks_append`, `chunks_line`, `chunks_line_append`: the chunks of a concatenation;
* `finished`, `unfinished`: the complete lines of a list and what follows them;
* `chunks_intercalate`: lines put together with separators come apart again.
-/

namespace Lines

variable {α : Type*} {s : α} {line before after : List α}

/-! ## Chunks -/

/-- The list is empty or ends with a separator. -/
def Whole (s : α) (text : List α) : Prop := text = [] ∨ text.getLast? = some s

theorem whole_nil : Whole s [] := .inl rfl

theorem whole_snoc (text : List α) : Whole s (text ++ [s]) := .inr (by simp)

theorem Whole.append (hb : Whole s before) (ha : Whole s after) : Whole s (before ++ after) := by
  rcases ha with rfl | ha
  · simpa using hb
  · exact .inr (by simp [List.getLast?_append, ha])

theorem Whole.of_cons {c : α} (h : Whole s (c :: line)) (hc : c ≠ s) : line ≠ [] ∧ Whole s line := by
  rcases h with h | h
  · exact absurd h (by simp)
  · cases line with
    | nil => exact absurd (by simpa using h) hc
    | cons d rest => exact ⟨by simp, .inr (by simpa using h)⟩

variable [DecidableEq α]

/-- The pieces of the list, each with the separator that ends it. -/
def chunks (s : α) : List α → List (List α)
  | [] => []
  | c :: rest =>
    if c = s then [c] :: chunks s rest
    else
      match chunks s rest with
      | [] => [[c]]
      | chunk :: others => (c :: chunk) :: others

@[simp] theorem chunks_nil : chunks s [] = [] := rfl

theorem chunks_cons (c : α) (rest : List α) : chunks s (c :: rest) =
    if c = s then [c] :: chunks s rest
    else
      match chunks s rest with
      | [] => [[c]]
      | chunk :: others => (c :: chunk) :: others := rfl

theorem chunks_ne_nil (h : line ≠ []) : chunks s line ≠ [] := by
  cases line with
  | nil => exact absurd rfl h
  | cons c rest =>
    rw [chunks_cons]
    split
    · simp
    · split <;> simp

/-- Nothing is lost. -/
theorem flatten_chunks (text : List α) : (chunks s text).flatten = text := by
  induction text with
  | nil => rfl
  | cons c rest ih =>
    rw [chunks_cons]
    split
    · simpa using ih
    · split <;> simp_all

/-- A list of complete lines is cut off from what follows it. -/
theorem chunks_append (h : Whole s before) : chunks s (before ++ after) = chunks s before ++ chunks s after := by
  induction before with
  | nil => rfl
  | cons c rest ih =>
    by_cases hc : c = s
    · have hrest : Whole s rest := by
        rcases h with h | h
        · exact absurd h (by simp)
        · cases rest with
          | nil => exact whole_nil
          | cons d rest => exact .inr (by simpa using h)
      simp [chunks_cons, hc, ih hrest]
    · obtain ⟨hne, hrest⟩ := h.of_cons hc
      obtain ⟨chunk, others, hchunks⟩ := List.exists_cons_of_ne_nil (chunks_ne_nil (s := s) hne)
      rw [List.cons_append, chunks_cons, if_neg hc, ih hrest, chunks_cons, if_neg hc, hchunks]
      rfl

theorem chunks_line (h : s ∉ line) (hne : line ≠ []) : chunks s line = [line] := by
  induction line with
  | nil => exact absurd rfl hne
  | cons c rest ih =>
    have hc : c ≠ s := fun e => h (e ▸ List.mem_cons_self)
    rw [chunks_cons, if_neg hc]
    by_cases hrest : rest = []
    · rw [hrest, chunks_nil]
    · rw [ih (fun hm => h (List.mem_cons_of_mem _ hm)) hrest]

theorem chunks_line_append (h : s ∉ line) : chunks s (line ++ s :: after) = (line ++ [s]) :: chunks s after := by
  induction line with
  | nil => simp [chunks_cons]
  | cons c rest ih =>
    have hc : c ≠ s := fun e => h (e ▸ List.mem_cons_self)
    rw [List.cons_append, chunks_cons, if_neg hc, ih (fun hm => h (List.mem_cons_of_mem _ hm)), List.cons_append]

/-- Lines put together with separators come apart again, the last one unless it is empty. -/
theorem chunks_intercalate {lines : List (List α)} (h : ∀ l ∈ lines, s ∉ l) (hlast : line ≠ []) (hsep : s ∉ line) :
    chunks s ((lines.map (· ++ [s])).flatten ++ line) = lines.map (· ++ [s]) ++ [line] := by
  induction lines with
  | nil => exact chunks_line hsep hlast
  | cons l lines ih =>
    have hl : s ∉ l := h l List.mem_cons_self
    rw [List.map_cons, List.flatten_cons, List.append_assoc, List.append_assoc, List.singleton_append,
      chunks_line_append hl, ih fun l' hl' => h l' (List.mem_cons_of_mem _ hl')]
    rfl

omit [DecidableEq α] in
/-- Joined lines are the lines with separators, and the last one. -/
theorem intercalate_concat (lines : List (List α)) (line : List α) :
    [s].intercalate (lines ++ [line]) = (lines.map (· ++ [s])).flatten ++ line := by
  induction lines with
  | nil => simp [List.intercalate]
  | cons first lines ih =>
    obtain ⟨second, rest, hcons⟩ : ∃ second rest, lines ++ [line] = second :: rest :=
      List.exists_cons_of_ne_nil (by simp)
    rw [List.cons_append, hcons, List.intercalate, List.intersperse_cons_cons, List.flatten_cons, List.flatten_cons,
      ← List.intercalate, ← hcons, ih]
    simp

/-! ## The line at the end of a list -/

/-- The complete lines of the list. -/
def finished (s : α) (text : List α) : List α := text.rdropWhile (· ≠ s)

/-- What follows the last separator. -/
def unfinished (s : α) (text : List α) : List α := text.rtakeWhile (· ≠ s)

@[simp] theorem finished_append_unfinished (text : List α) : finished s text ++ unfinished s text = text :=
  List.rdropWhile_append_rtakeWhile

theorem whole_finished (text : List α) : Whole s (finished s text) := by
  by_cases h : finished s text = []
  · exact .inl h
  · have hlast := List.rdropWhile_last_not (fun c => decide (c ≠ s)) text h
    refine .inr ?_
    rw [List.getLast?_eq_some_getLast h]
    simpa [finished] using hlast

theorem notMem_unfinished (text : List α) : s ∉ unfinished s text := by
  intro hm
  simpa using List.mem_rtakeWhile_imp hm

/-- The two parts are the only such ones. -/
theorem finished_append (hb : Whole s before) (hl : s ∉ line) :
    finished s (before ++ line) = before ∧ unfinished s (before ++ line) = line := by
  have hdrop : finished s (before ++ line) = before := by
    rw [finished, List.rdropWhile, List.reverse_append,
      List.dropWhile_append_of_pos (by simpa using fun c hc (e : c = s) => hl (e ▸ hc))]
    rcases hb with rfl | hb
    · rfl
    · obtain ⟨front, rfl⟩ := List.getLast?_eq_some_iff.1 hb
      simp
  refine ⟨hdrop, ?_⟩
  have hall := finished_append_unfinished (s := s) (before ++ line)
  rw [hdrop] at hall
  exact List.append_cancel_left hall

theorem finished_of_whole (h : Whole s before) : finished s before = before ∧ unfinished s before = [] := by
  simpa using finished_append h (List.not_mem_nil : s ∉ [])

theorem finished_of_line (h : s ∉ line) : finished s line = [] ∧ unfinished s line = line := by
  simpa using finished_append (whole_nil : Whole s []) h

theorem finished_whole_append (hb : Whole s before) :
    finished s (before ++ after) = before ++ finished s after ∧ unfinished s (before ++ after) = unfinished s after := by
  have h := finished_append (hb.append (whole_finished after)) (notMem_unfinished (s := s) after)
  rwa [List.append_assoc, finished_append_unfinished] at h

theorem Whole.exists_line {text : List α} (h : Whole s text) (hne : text ≠ []) :
    ∃ line rest, s ∉ line ∧ Whole s rest ∧ text = line ++ s :: rest := by
  induction text with
  | nil => exact absurd rfl hne
  | cons c text ih =>
    by_cases hc : c = s
    · refine ⟨[], text, List.not_mem_nil, ?_, by rw [hc, List.nil_append]⟩
      by_cases htext : text = []
      · exact .inl htext
      · rcases h with h | h
        · cases h
        · exact .inr (by rwa [List.getLast?_cons_of_ne_nil htext] at h)
    · obtain ⟨htext, hwhole⟩ := h.of_cons hc
      obtain ⟨line, rest, hline, hrest, rfl⟩ := ih hwhole htext
      exact ⟨c :: line, rest, by simp [hline, Ne.symm hc], hrest, rfl⟩

/-- What is left of the line that the list begins in. -/
def upcoming (s : α) (text : List α) : List α := text.takeWhile (· ≠ s)

theorem notMem_upcoming (text : List α) : s ∉ upcoming s text := by
  intro hm
  simpa using List.mem_takeWhile_imp hm

theorem upcoming_append (text : List α) : ∃ rest, text = upcoming s text ++ rest ∧ (rest = [] ∨ rest.head? = some s) := by
  refine ⟨text.dropWhile (· ≠ s), by rw [upcoming, List.takeWhile_append_dropWhile], ?_⟩
  by_cases h : text.dropWhile (· ≠ s) = []
  · exact .inl h
  · refine .inr ?_
    rw [List.head?_eq_some_head h]
    simpa using List.head_dropWhile_not (fun c => decide (c ≠ s)) h

theorem upcoming_line_append (hl : s ∉ line) (ha : after = [] ∨ after.head? = some s) :
    upcoming s (line ++ after) = line := by
  rw [upcoming, List.takeWhile_append_of_pos (by simpa using fun c hc (e : c = s) => hl (e ▸ hc))]
  rcases ha with rfl | ha
  · simp
  · cases after with
    | nil => simp
    | cons c rest => simp [Option.some.inj ha]

end Lines

import Mathlib

/-!
# The first element that is not blank

For a predicate `blank`, a list *shows* something when one of its elements is not blank. Two lists with the `SameLead`
agree up to and with their first element that is not blank, and are equal when there is none.
-/

namespace Lead

variable {α : Type*} {blank : α → Bool} {s t u : List α} {n : ℕ}

/-- An element of the list is not blank. -/
def Shows (blank : α → Bool) (s : List α) : Prop := ∃ c ∈ s, blank c = false

@[simp] theorem not_shows_nil : ¬ Shows blank [] := by simp [Shows]

theorem shows_append : Shows blank (s ++ t) ↔ Shows blank s ∨ Shows blank t := by
  simp [Shows, or_and_right, exists_or]

theorem shows_cons {c : α} : Shows blank (c :: s) ↔ blank c = false ∨ Shows blank s := by
  simp [Shows]

theorem Shows.append_left (h : Shows blank s) : Shows blank (s ++ t) := shows_append.2 (.inl h)

theorem Shows.append_right (h : Shows blank t) : Shows blank (s ++ t) := shows_append.2 (.inr h)

theorem Shows.of_take (h : Shows blank (s.take n)) : Shows blank s := by
  obtain ⟨c, hc, hb⟩ := h
  exact ⟨c, List.mem_of_mem_take hc, hb⟩

theorem Shows.take_mono {m : ℕ} (h : Shows blank (s.take n)) (hle : n ≤ m) : Shows blank (s.take m) := by
  obtain ⟨c, hc, hb⟩ := h
  exact ⟨c, List.take_subset_take_left s hle hc, hb⟩

/-- What shows within the first `n` elements of a concatenation shows in its first part or in the room that part leaves. -/
theorem shows_take_append : Shows blank ((s ++ t).take n) ↔ Shows blank (s.take n) ∨ Shows blank (t.take (n - s.length)) := by
  rw [List.take_append, shows_append]

theorem dropWhile_eq_nil_iff : s.dropWhile blank = [] ↔ ¬ Shows blank s := by
  rw [List.dropWhile_eq_nil_iff]
  simp [Shows]

theorem shows_dropWhile : Shows blank (s.dropWhile blank) ↔ Shows blank s := by
  have htake : ¬ Shows blank (s.takeWhile blank) := by
    rintro ⟨c, hc, hb⟩
    exact absurd (List.mem_takeWhile_imp hc) (by simp [hb])
  have hsplit := @shows_append _ blank (s.takeWhile blank) (s.dropWhile blank)
  rw [List.takeWhile_append_dropWhile] at hsplit
  exact (hsplit.trans (or_iff_right htake)).symm

theorem shows_reverse : Shows blank s.reverse ↔ Shows blank s := by simp [Shows]

/-- Shortening the second part to `n` elements does not change the first `n` of the whole. -/
theorem take_append_take : (s ++ t.take n).take n = (s ++ t).take n := by
  rw [List.take_append, List.take_append, List.take_take, Nat.min_eq_left (Nat.sub_le n s.length)]

/-- The lists agree up to and with their first element that is not blank. -/
inductive SameLead (blank : α → Bool) : List α → List α → Prop
  | nil : SameLead blank [] []
  | blank {c : α} {s t : List α} : SameLead blank s t → SameLead blank (c :: s) (c :: t)
  | shown {c : α} (s t : List α) : blank c = false → SameLead blank (c :: s) (c :: t)

namespace SameLead

theorem refl (s : List α) : SameLead blank s s := by
  induction s with
  | nil => exact .nil
  | cons c s ih => exact .blank ih

theorem append_left (a : List α) (h : SameLead blank s t) : SameLead blank (a ++ s) (a ++ t) := by
  induction a with
  | nil => exact h
  | cons c a ih => exact .blank ih

section

variable (h : SameLead blank s t)
include h

theorem take (n : ℕ) : SameLead blank (s.take n) (t.take n) := by
  induction h generalizing n with
  | nil => simpa using SameLead.nil
  | blank _ ih =>
    cases n with
    | zero => exact .nil
    | succ n => exact .blank (ih n)
  | shown s t hc =>
    cases n with
    | zero => exact .nil
    | succ n => exact .shown _ _ hc

theorem shows : Shows blank s ↔ Shows blank t := by
  induction h with
  | nil => exact Iff.rfl
  | blank _ ih => rw [shows_cons, shows_cons, ih]
  | shown s t hc => exact iff_of_true (shows_cons.2 (.inl hc)) (shows_cons.2 (.inl hc))

/-- Without an element that is not blank the lists are equal. -/
theorem eq (hs : ¬ Shows blank s) : t = s := by
  induction h with
  | nil => rfl
  | blank _ ih => rw [ih fun hs' => hs (shows_cons.2 (.inr hs'))]
  | shown s t hc => exact absurd (shows_cons.2 (.inl hc)) hs

theorem eq_nil : t = [] ↔ s = [] := by
  cases h <;> simp

end

end SameLead

end Lead

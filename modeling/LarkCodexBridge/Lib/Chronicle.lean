import Mathlib

/-!
# Logs whose entries are justified by what stands before them

`Justified C log` says that every entry of a log met the condition `C` with the entries before it. A log that only grows
stays justified when each new entry is.
-/

namespace Chronicle

variable {α : Type*} {C : List α → α → Prop} {log : List α}

/-- Every entry meets `C` with the entries before it. -/
def Justified (C : List α → α → Prop) (log : List α) : Prop :=
  ∀ before a later, log = before ++ a :: later → C before a

theorem justified_nil : Justified C [] := by
  intro before a later h
  simp at h

/-- **The rule for one more entry.** -/
theorem Justified.snoc (h : Justified C log) {a : α} (ha : C log a) : Justified C (log ++ [a]) := by
  intro before b later heq
  rcases List.eq_nil_or_concat later with rfl | ⟨later, c, rfl⟩
  · obtain ⟨hlog, hab⟩ := List.append_inj' heq rfl
    cases hab
    exact hlog ▸ ha
  · rw [List.concat_eq_append, ← List.cons_append, ← List.append_assoc] at heq
    exact h before b later (List.append_inj' heq rfl).1

end Chronicle

import Mathlib

/-!
# Finite maps

`KeyMap κ α` is an association list with unique keys whose values all have one type. Next to what `AList` has, the values
of all keys can be changed at once (`mapValues`).
-/

abbrev KeyMap (κ α : Type*) := AList fun _ : κ => α

namespace KeyMap

variable {κ α : Type*}

/-- The number of keys. -/
def size (m : KeyMap κ α) : ℕ := m.entries.length

/-- Every value is changed. -/
def mapValues (f : α → α) (m : KeyMap κ α) : KeyMap κ α where
  entries := m.entries.map fun e => ⟨e.1, f e.2⟩
  nodupKeys := by
    have h := m.nodupKeys
    unfold List.NodupKeys List.keys at *
    simpa [List.map_map, Function.comp_def] using h

variable [DecidableEq κ]

@[simp] theorem lookup_mapValues (f : α → α) (m : KeyMap κ α) (k : κ) :
    (mapValues f m).lookup k = (m.lookup k).map f := by
  obtain ⟨entries, h⟩ := m
  simp only [mapValues, AList.lookup]
  clear h
  induction entries with
  | nil => rfl
  | cons e rest ih =>
    obtain ⟨k', a⟩ := e
    by_cases hk : k = k'
    · subst hk
      simp
    · rw [List.map_cons, List.dlookup_cons_ne _ _ (by exact hk), List.dlookup_cons_ne _ _ (by exact hk)]
      exact ih

theorem lookup_insert_ite (m : KeyMap κ α) (k k' : κ) (a : α) :
    (m.insert k a).lookup k' = if k' = k then some a else m.lookup k' := by
  split
  · next h => subst h; exact AList.lookup_insert m
  · next h => exact AList.lookup_insert_ne h

theorem lookup_erase_ite (m : KeyMap κ α) (k k' : κ) :
    (m.erase k).lookup k' = if k' = k then none else m.lookup k' := by
  split
  · next h => subst h; exact AList.lookup_erase _ m
  · next h => exact AList.lookup_erase_ne h

end KeyMap

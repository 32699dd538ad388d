import Mathlib
import LarkCodexBridge.Lib.JsonValue

/-!
# Fields of JSON objects

Writing and removing a field of an object whose fields are sorted by name, and two objects that have the same fields with
related values (`FieldsAgree`). What is written does not depend on what was there: after a write the relation has to hold of
the other fields only.
-/

namespace JsonValue

/-- A new field in its place. -/
def insertField (key : String) (v : JsonValue) : List (String × JsonValue) → List (String × JsonValue)
  | [] => [(key, v)]
  | field :: rest => if key < field.1 then (key, v) :: field :: rest else field :: insertField key v rest

/-- The field has this value, in the place of the one it had. -/
def setField (key : String) (v : JsonValue) (fields : List (String × JsonValue)) : List (String × JsonValue) :=
  if (fields.lookup key).isSome then fields.map fun field => if field.1 = key then (key, v) else field
  else insertField key v fields

/-- The object without the field. -/
def removeField (key : String) (fields : List (String × JsonValue)) : List (String × JsonValue) := fields.filter (·.1 ≠ key)

/-- The same fields in the same order, with values that the relation of their name relates. -/
def FieldsAgree (R : String → JsonValue → JsonValue → Prop) : List (String × JsonValue) → List (String × JsonValue) → Prop :=
  List.Forall₂ fun a b => a.1 = b.1 ∧ R a.1 a.2 b.2

def fieldNames (fields : List (String × JsonValue)) : List String := fields.map Prod.fst

variable {R S : String → JsonValue → JsonValue → Prop} {Q : JsonValue → JsonValue → Prop}
  {fields fields' : List (String × JsonValue)} {key : String} {v v' : JsonValue}

theorem removeField_of_none (h : fields.lookup key = none) : removeField key fields = fields := by
  refine List.filter_eq_self.2 fun field hfield => decide_eq_true fun heq => ?_
  have hne := List.lookup_eq_none_iff.1 h field hfield
  simp [heq] at hne

theorem insertField_perm (key : String) (v : JsonValue) : ∀ fields, (insertField key v fields).Perm ((key, v) :: fields)
  | [] => .refl _
  | field :: rest => by
    unfold insertField
    split
    · exact .refl _
    · exact ((insertField_perm key v rest).cons field).trans (.swap ..)

/-- Names stay distinct. -/
theorem nodup_setField (h : (fieldNames fields).Nodup) : (fieldNames (setField key v fields)).Nodup := by
  unfold setField
  split
  · have hnames : fieldNames (fields.map fun field => if field.1 = key then (key, v) else field) = fieldNames fields := by
      unfold fieldNames
      rw [List.map_map]
      refine List.map_congr_left fun field _ => ?_
      simp only [Function.comp]
      split
      · next heq => exact heq.symm
      · rfl
    rwa [hnames]
  · next hnone =>
    refine ((insertField_perm key v fields).map Prod.fst).nodup_iff.2 (List.nodup_cons.2 ⟨fun hmem => ?_, h⟩)
    obtain ⟨field, hfield, rfl⟩ := List.mem_map.1 hmem
    have hne := List.lookup_eq_none_iff.1 (Option.not_isSome_iff_eq_none.1 hnone) field hfield
    simp at hne

/-- Writing the value that is there. -/
theorem setField_of_lookup (h : (fieldNames fields).Nodup) (hv : fields.lookup key = some v) : setField key v fields = fields := by
  unfold setField
  rw [hv, Option.isSome_some, if_pos rfl]
  refine (List.map_congr_left fun field hfield => ?_).trans (List.map_id _)
  split
  · next heq =>
    obtain ⟨l₁, l₂, rfl, -⟩ := List.lookup_eq_some_iff.1 hv
    exact (List.inj_on_of_nodup_map h (by simp) hfield heq.symm : (key, v) = field)
  · rfl

namespace FieldsAgree

section

variable (h : FieldsAgree R fields fields')
include h

theorem names : fieldNames fields = fieldNames fields' := by
  induction h with
  | nil => rfl
  | cons hab _ ih => exact congrArg₂ List.cons hab.1 ih

theorem eq (himp : ∀ k a b, R k a b → a = b) : fields = fields' := by
  refine List.forall₂_eq_eq_eq ▸ h.imp fun a b hab => ?_
  exact Prod.ext hab.1 (himp _ _ _ hab.2)

theorem lookup (key : String) :
    fields.lookup key = none ∧ fields'.lookup key = none ∨
      ∃ v v', fields.lookup key = some v ∧ fields'.lookup key = some v' ∧ R key v v' := by
  induction h with
  | nil => exact .inl ⟨rfl, rfl⟩
  | @cons a b l l' hab _ ih =>
    obtain ⟨k, x⟩ := a
    obtain ⟨k', y⟩ := b
    obtain ⟨rfl, hR⟩ := hab
    rw [List.lookup_cons, List.lookup_cons]
    cases hk : key == k with
    | true =>
      rw [eq_of_beq hk]
      exact .inr ⟨x, y, rfl, rfl, hR⟩
    | false => exact ih

theorem isSome_lookup (key : String) :
    (fields.lookup key).isSome = (fields'.lookup key).isSome := by
  rcases h.lookup key with ⟨h₁, h₂⟩ | ⟨v, v', h₁, h₂, -⟩
  · rw [h₁, h₂]
  · rw [h₁, h₂]
    rfl

theorem insert (hv : R key v v') :
    FieldsAgree R (insertField key v fields) (insertField key v' fields') := by
  induction h with
  | nil => exact .cons ⟨rfl, hv⟩ .nil
  | cons hab hl ih =>
    unfold insertField
    rw [hab.1]
    split
    · exact .cons ⟨rfl, hv⟩ (.cons hab hl)
    · exact .cons hab ih

/-- A written field has to agree anew, the others as before. -/
theorem set (hv : S key v v') (himp : ∀ k a b, k ≠ key → R k a b → S k a b) :
    FieldsAgree S (setField key v fields) (setField key v' fields') := by
  unfold setField
  rw [h.isSome_lookup key]
  split
  · refine List.forall₂_map_left_iff.2 (List.forall₂_map_right_iff.2 (h.imp fun a b hab => ?_))
    rw [← hab.1]
    split
    · exact ⟨rfl, hv⟩
    · next hne => exact ⟨hab.1, himp _ _ _ hne hab.2⟩
  · next hnone =>
    -- the field is new in both
    refine insert ?_ hv
    rw [← h.isSome_lookup key, Option.not_isSome_iff_eq_none] at hnone
    induction h with
    | nil => exact .nil
    | @cons a b l l' hab _ ih =>
      rw [List.lookup_cons] at hnone
      split at hnone
      · cases hnone
      · next hk =>
        refine .cons ⟨hab.1, himp _ _ _ (fun heq => ?_) hab.2⟩ (ih hnone)
        exact beq_eq_false_iff_ne.1 hk heq.symm

theorem remove (himp : ∀ k a b, k ≠ key → R k a b → S k a b) :
    FieldsAgree S (removeField key fields) (removeField key fields') := by
  unfold removeField
  induction h with
  | nil => exact .nil
  | @cons a b l l' hab _ ih =>
    simp only [List.filter_cons, ← hab.1]
    split
    · next hne => exact .cons ⟨hab.1, himp _ _ _ (of_decide_eq_true hne) hab.2⟩ ih
    · exact ih

/-- With distinct names, what one field has to agree in is said by its value. -/
theorem refine (hnodup : (fieldNames fields).Nodup)
    (hkey : ∀ a b, fields.lookup key = some a → fields'.lookup key = some b → R key a b → S key a b)
    (himp : ∀ k a b, k ≠ key → R k a b → S k a b) : FieldsAgree S fields fields' := by
  induction h with
  | nil => exact .nil
  | @cons a b l l' hab hl ih =>
    obtain ⟨k, x⟩ := a
    obtain ⟨k', y⟩ := b
    obtain ⟨rfl, hR⟩ := hab
    obtain ⟨hfresh, hnodup⟩ := List.nodup_cons.1 hnodup
    by_cases hk : k = key
    · subst hk
      refine .cons ⟨rfl, hkey x y (by simp) (by simp) hR⟩ (ih hnodup fun a b ha => ?_)
      -- the name does not occur again
      obtain ⟨l₁, l₂, rfl, -⟩ := List.lookup_eq_some_iff.1 ha
      exact absurd (by simp) hfresh
    · have hpass : ∀ (z : JsonValue) (l : List (String × JsonValue)), ((k, z) :: l).lookup key = l.lookup key := by
        intro z l
        rw [List.lookup_cons, beq_eq_false_iff_ne.2 (Ne.symm hk)]
      refine .cons ⟨rfl, himp k x y hk hR⟩ (ih hnodup fun a b ha hb => hkey a b ?_ ?_)
      · rwa [hpass]
      · rwa [hpass]

end

/-- The objects agree also in one field, or they do once it is written. -/
theorem refine_or_set (h : FieldsAgree (fun k a b => k = key ∧ Q a b ∨ S k a b) fields fields')
    (hnodup : (fieldNames fields).Nodup) : FieldsAgree S fields fields' ∨
      ∃ a b, fields.lookup key = some a ∧ fields'.lookup key = some b ∧ Q a b ∧
        ∀ v, S key v v → FieldsAgree S (setField key v fields) (setField key v fields') := by
  have hother : ∀ k a b, k ≠ key → k = key ∧ Q a b ∨ S k a b → S k a b := fun _ _ _ hne hR => hR.resolve_left fun h => hne h.1
  rcases h.lookup key with ⟨hnone, -⟩ | ⟨a, b, ha, hb, ⟨-, hQ⟩ | hS⟩
  · refine .inl (h.refine hnodup (fun a b ha => ?_) hother)
    rw [hnone] at ha
    cases ha
  · exact .inr ⟨a, b, ha, hb, hQ, fun v hv => h.set hv hother⟩
  · refine .inl (h.refine hnodup (fun a' b' ha' hb' _ => ?_) hother)
    rw [ha] at ha'
    rw [hb] at hb'
    cases ha'
    cases hb'
    exact hS

/-- The objects are one, or they are once a field is written. -/
theorem eq_or_set (h : FieldsAgree (fun k a b => k = key ∧ Q a b ∨ a = b) fields fields') (hnodup : (fieldNames fields).Nodup) :
    fields = fields' ∨ ∃ a b, fields.lookup key = some a ∧ fields'.lookup key = some b ∧ Q a b ∧
      ∀ v, setField key v fields = setField key v fields' := by
  rcases refine_or_set h hnodup with hagree | ⟨a, b, ha, hb, hQ, hset⟩
  · exact .inl (hagree.eq fun _ _ _ => id)
  · exact .inr ⟨a, b, ha, hb, hQ, fun v => (hset v rfl).eq fun _ _ _ => id⟩

end FieldsAgree

end JsonValue

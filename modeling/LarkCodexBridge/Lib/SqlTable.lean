import Mathlib

/-!
# Tables with row ids

A table of an SQL store: rows in ascending order of an integer primary key that the store assigns as one more than
the largest id present, with one further unique column `key`. Next to its id a row carries its `serial`, the number
of rows inserted before it: ids are used again once the last rows are deleted, serials never are, and no operation
reads them.

* `Table.insert`, `Table.updateWhere`, `Table.deleteWhere`: the statements, each keeping the table's own invariants;
* `Table.get?`, `Table.lookup`: a row by its id, and by its unique key;
* `Table.id_lt_iff`: among the rows of one table, the order of the ids is the order of insertion.
-/

namespace SqlTable

/-- One row: its id, its insertion number and its other columns. -/
structure Row (α : Type*) where
  id : ℕ
  serial : ℕ
  val : α
  deriving DecidableEq

variable {α κ : Type*}

/-- A table whose rows are sorted by id and by insertion and differ in the column `key`. -/
structure Table (α : Type*) {κ : Type*} (key : α → κ) where
  rows : List (Row α)
  nextSerial : ℕ
  id_lt : rows.Pairwise fun r s => r.id < s.id
  serial_lt : rows.Pairwise fun r s => r.serial < s.serial
  serial_lt_next : ∀ r ∈ rows, r.serial < nextSerial
  key_ne : rows.Pairwise fun r s => key r.val ≠ key s.val

/-- The row after `UPDATE … SET g WHERE p`. -/
def Row.update (p : Row α → Bool) (g : α → α) (r : Row α) : Row α :=
  if p r then { r with val := g r.val } else r

@[simp] theorem Row.update_id (p : Row α → Bool) (g : α → α) (r : Row α) : (r.update p g).id = r.id := by
  unfold Row.update; split <;> rfl

@[simp] theorem Row.update_serial (p : Row α → Bool) (g : α → α) (r : Row α) :
    (r.update p g).serial = r.serial := by
  unfold Row.update; split <;> rfl

theorem Row.update_of_pos {p : Row α → Bool} {g : α → α} {r : Row α} (h : p r = true) :
    r.update p g = { r with val := g r.val } := by
  simp [Row.update, h]

theorem Row.update_of_neg {p : Row α → Bool} {g : α → α} {r : Row α} (h : p r = false) : r.update p g = r := by
  simp [Row.update, h]

namespace Table

variable {key : α → κ}

def empty : Table α key where
  rows := []
  nextSerial := 0
  id_lt := .nil
  serial_lt := .nil
  serial_lt_next := by simp
  key_ne := .nil

/-- The id of the next row: one more than the largest id present. -/
def nextId (t : Table α key) : ℕ := (t.rows.map (·.id)).foldr max 0 + 1

theorem le_foldr_max {n : ℕ} : ∀ {l : List ℕ}, n ∈ l → n ≤ l.foldr max 0
  | _ :: l, h => by
    rcases List.mem_cons.1 h with rfl | h
    · exact Nat.le_max_left _ _
    · exact Nat.le_trans (le_foldr_max h) (Nat.le_max_right _ _)

variable {t : Table α key} {r : Row α}

theorem id_lt_nextId (h : r ∈ t.rows) : r.id < t.nextId :=
  Nat.lt_succ_of_le (le_foldr_max (List.mem_map_of_mem h))

/-! ## Statements -/

/-- `INSERT` of a row whose key is not in the table. -/
def insert (t : Table α key) (a : α) (h : ∀ r ∈ t.rows, key r.val ≠ key a) : Table α key where
  rows := t.rows ++ [⟨t.nextId, t.nextSerial, a⟩]
  nextSerial := t.nextSerial + 1
  id_lt := List.pairwise_append.2 ⟨t.id_lt, List.pairwise_singleton _ _, by
    intro r hr s hs
    rw [List.mem_singleton.1 hs]
    exact id_lt_nextId hr⟩
  serial_lt := List.pairwise_append.2 ⟨t.serial_lt, List.pairwise_singleton _ _, by
    intro r hr s hs
    rw [List.mem_singleton.1 hs]
    exact t.serial_lt_next r hr⟩
  serial_lt_next := by
    intro r hr
    rcases List.mem_append.1 hr with hr | hr
    · exact Nat.lt_succ_of_lt (t.serial_lt_next r hr)
    · rw [List.mem_singleton.1 hr]; exact Nat.lt_succ_self _
  key_ne := List.pairwise_append.2 ⟨t.key_ne, List.pairwise_singleton _ _, by
    intro r hr s hs
    rw [List.mem_singleton.1 hs]
    exact h r hr⟩

/-- `UPDATE … SET g WHERE p`, of columns other than the unique one. -/
def updateWhere (t : Table α key) (p : Row α → Bool) (g : α → α)
    (hg : ∀ a, key (g a) = key a := by intro _; rfl) : Table α key where
  rows := t.rows.map (·.update p g)
  nextSerial := t.nextSerial
  id_lt := List.pairwise_map.2 (t.id_lt.imp fun h => by simpa using h)
  serial_lt := List.pairwise_map.2 (t.serial_lt.imp fun h => by simpa using h)
  serial_lt_next := by
    intro r hr
    obtain ⟨s, hs, rfl⟩ := List.mem_map.1 hr
    simpa using t.serial_lt_next s hs
  key_ne := List.pairwise_map.2 (t.key_ne.imp fun {a b} h => by
    have hk : ∀ r : Row α, key (r.update p g).val = key r.val := by
      intro r
      unfold Row.update
      split
      · exact hg _
      · rfl
    rw [hk, hk]
    exact h)

/-- `DELETE … WHERE p`. -/
def deleteWhere (t : Table α key) (p : Row α → Bool) : Table α key where
  rows := t.rows.filter fun r => !p r
  nextSerial := t.nextSerial
  id_lt := t.id_lt.filter _
  serial_lt := t.serial_lt.filter _
  serial_lt_next := fun r hr => t.serial_lt_next r (List.mem_of_mem_filter hr)
  key_ne := t.key_ne.filter _

variable {a : α}

@[simp] theorem mem_insert {h} :
    r ∈ (t.insert a h).rows ↔ r ∈ t.rows ∨ r = ⟨t.nextId, t.nextSerial, a⟩ := by
  simp [insert]

variable {p : Row α → Bool} {g : α → α}

@[simp] theorem mem_updateWhere {hg} :
    r ∈ (t.updateWhere p g hg).rows ↔ ∃ s ∈ t.rows, s.update p g = r := by
  simp [updateWhere]

@[simp] theorem mem_deleteWhere :
    r ∈ (t.deleteWhere p).rows ↔ r ∈ t.rows ∧ p r = false := by
  simp [deleteWhere]

@[simp] theorem insert_nextSerial {h} :
    (t.insert a h).nextSerial = t.nextSerial + 1 := rfl

@[simp] theorem updateWhere_nextSerial {hg} :
    (t.updateWhere p g hg).nextSerial = t.nextSerial := rfl

@[simp] theorem deleteWhere_nextSerial :
    (t.deleteWhere p).nextSerial = t.nextSerial := rfl

/-! ## Rows of one table -/

variable {s : Row α}

theorem pairwise_rel {R : Row α → Row α → Prop} {l : List (Row α)} (h : l.Pairwise R) (hr : r ∈ l) (hs : s ∈ l) :
    r = s ∨ R r s ∨ R s r := by
  by_cases hrs : r = s
  · exact .inl hrs
  · exact .inr (List.Pairwise.forall_of_forall_of_flip
      (R := fun r s => r = s ∨ R r s ∨ R s r) (by simp)
      (h.imp fun h => .inr (.inl h)) (h.imp fun h => .inr (.inr h)) hr hs |>.resolve_left hrs)

/-- Among the rows of one table, ids and insertion numbers are in the same order. -/
theorem id_lt_iff (hr : r ∈ t.rows) (hs : s ∈ t.rows) :
    r.id < s.id ↔ r.serial < s.serial := by
  rcases pairwise_rel (t.id_lt.and t.serial_lt) hr hs with rfl | ⟨h, h'⟩ | ⟨h, h'⟩
  · simp
  · exact iff_of_true h h'
  · exact iff_of_false (Nat.lt_asymm h) (Nat.lt_asymm h')

theorem eq_of_id (hr : r ∈ t.rows) (hs : s ∈ t.rows) (h : r.id = s.id) :
    r = s := by
  rcases pairwise_rel t.id_lt hr hs with h' | h' | h'
  · exact h'
  · exact absurd h (Nat.ne_of_lt h')
  · exact absurd h.symm (Nat.ne_of_lt h')

theorem eq_of_serial (hr : r ∈ t.rows) (hs : s ∈ t.rows) (h : r.serial = s.serial) : r = s := by
  rcases pairwise_rel t.serial_lt hr hs with h' | h' | h'
  · exact h'
  · exact absurd h (Nat.ne_of_lt h')
  · exact absurd h.symm (Nat.ne_of_lt h')

theorem eq_of_key (hr : r ∈ t.rows) (hs : s ∈ t.rows) (h : key r.val = key s.val) : r = s := by
  rcases pairwise_rel t.key_ne hr hs with h' | h' | h'
  · exact h'
  · exact absurd h h'
  · exact absurd h.symm h'

/-- The row with an id. -/
def get? (t : Table α key) (id : ℕ) : Option (Row α) := t.rows.find? fun r => r.id == id

/-- The row with a unique key. -/
def lookup [DecidableEq κ] (t : Table α key) (k : κ) : Option (Row α) :=
  t.rows.find? fun r => decide (key r.val = k)

theorem get?_eq_some {id : ℕ} : t.get? id = some r ↔ r ∈ t.rows ∧ r.id = id := by
  constructor
  · intro h
    exact ⟨List.mem_of_find?_eq_some h, by simpa using List.find?_some h⟩
  · rintro ⟨hr, rfl⟩
    cases h : t.get? r.id with
    | none => exact absurd (List.find?_eq_none.1 h r hr) (by simp)
    | some s =>
      have hs : s.id = r.id := by simpa using List.find?_some h
      rw [eq_of_id (List.mem_of_find?_eq_some h) hr hs]

variable {k : κ}

theorem lookup_eq_some [DecidableEq κ] :
    t.lookup k = some r ↔ r ∈ t.rows ∧ key r.val = k := by
  constructor
  · intro h
    exact ⟨List.mem_of_find?_eq_some h, by simpa using List.find?_some h⟩
  · rintro ⟨hr, rfl⟩
    cases h : t.lookup (key r.val) with
    | none => exact absurd (List.find?_eq_none.1 h r hr) (by simp)
    | some s =>
      have hs : key s.val = key r.val := by simpa using List.find?_some h
      rw [eq_of_key (List.mem_of_find?_eq_some h) hr hs]

theorem lookup_eq_none [DecidableEq κ] :
    t.lookup k = none ↔ ∀ r ∈ t.rows, key r.val ≠ k := by
  simp [lookup, List.find?_eq_none]

/-- The row with a key after an update, which keeps the keys. -/
theorem lookup_updateWhere [DecidableEq κ] (h : t.lookup k = some r) (hg : ∀ a, key (g a) = key a := by intro _; rfl) :
    (t.updateWhere p g hg).lookup k = some (r.update p g) := by
  obtain ⟨hr, hk⟩ := lookup_eq_some.1 h
  refine lookup_eq_some.2 ⟨List.mem_map_of_mem hr, ?_⟩
  unfold Row.update
  split
  · exact (hg r.val).trans hk
  · exact hk

/-- An update that passes over the row with a key leaves it as it is. -/
theorem lookup_updateWhere_of_ne [DecidableEq κ] (h : ∀ r ∈ t.rows, key r.val = k → p r = false)
    (hg : ∀ a, key (g a) = key a := by intro _; rfl) :
    (t.updateWhere p g hg).lookup k = t.lookup k := by
  cases hk : t.lookup k with
  | some r =>
    obtain ⟨hr, hkey⟩ := lookup_eq_some.1 hk
    rw [lookup_updateWhere hk hg, Row.update_of_neg (h r hr hkey)]
  | none =>
    refine lookup_eq_none.2 fun r hr => ?_
    obtain ⟨s, hs, rfl⟩ := mem_updateWhere.1 hr
    have hne := lookup_eq_none.1 hk s hs
    unfold Row.update
    split
    · exact fun h => hne ((hg s.val).symm.trans h)
    · exact hne

theorem lookup_insert [DecidableEq κ] {h} :
    (t.insert a h).lookup (key a) = some ⟨t.nextId, t.nextSerial, a⟩ :=
  lookup_eq_some.2 ⟨mem_insert.2 (.inr rfl), rfl⟩

/-- `INSERT OR IGNORE`: no row where the key is already present. -/
def insertOrIgnore [DecidableEq κ] (t : Table α key) (a : α) : Option (Table α key) :=
  match h : t.lookup (key a) with
  | some _ => none
  | none => some (t.insert a (lookup_eq_none.1 h))

variable {t' : Table α key}

theorem insertOrIgnore_eq_some [DecidableEq κ] (h : t.insertOrIgnore a = some t') :
    ∃ hk, t' = t.insert a hk := by
  unfold insertOrIgnore at h
  split at h
  · cases h
  · next hk => exact ⟨lookup_eq_none.1 hk, (Option.some.inj h).symm⟩

theorem insertOrIgnore_of_lookup [DecidableEq κ] (h : t.lookup (key a) = some r) :
    t.insertOrIgnore a = none := by
  unfold insertOrIgnore
  split
  · rfl
  · next hnone => rw [h] at hnone; cases hnone

/-- A row with the key is present. -/
def HasKey (t : Table α key) (k : κ) : Prop := ∃ r ∈ t.rows, key r.val = k

theorem hasKey_insert {h} : (t.insert a h).HasKey k ↔ t.HasKey k ∨ k = key a := by
  constructor
  · rintro ⟨r, hr, rfl⟩
    rcases mem_insert.1 hr with hr | rfl
    · exact .inl ⟨r, hr, rfl⟩
    · exact .inr rfl
  · rintro (⟨r, hr, rfl⟩ | rfl)
    · exact ⟨r, mem_insert.2 (.inl hr), rfl⟩
    · exact ⟨_, mem_insert.2 (.inr rfl), rfl⟩

theorem hasKey_insertOrIgnore [DecidableEq κ] :
    ((t.insertOrIgnore a).getD t).HasKey k ↔ t.HasKey k ∨ k = key a := by
  unfold insertOrIgnore
  split
  · next r hr =>
    obtain ⟨hr, hkey⟩ := lookup_eq_some.1 hr
    exact ⟨.inl, fun h => h.elim id fun hk => ⟨r, hr, hkey.trans hk.symm⟩⟩
  · next hnone => exact hasKey_insert (h := lookup_eq_none.1 hnone)

/-! ## Rewritten tables -/

/-- `t'` has the rows of `t` with their columns rewritten by `f`. -/
structure Maps (f : Row α → α) (t t' : Table α key) : Prop where
  rows_eq : t'.rows = t.rows.map fun r => { r with val := f r }
  nextSerial_eq : t'.nextSerial = t.nextSerial

variable {f : Row α → α}

theorem Maps.mem (h : Maps f t t') {r' : Row α} :
    r' ∈ t'.rows ↔ ∃ r ∈ t.rows, r' = { r with val := f r } := by
  simp [h.rows_eq, eq_comm]

/-- The rows of an update, of any table that has them. -/
theorem maps_update (h : t'.rows = t.rows.map (·.update p g)) (hn : t'.nextSerial = t.nextSerial) :
    Maps (fun r => if p r then g r.val else r.val) t t' where
  rows_eq := by
    rw [h]
    refine List.map_congr_left fun r _ => ?_
    unfold Row.update
    split <;> rfl
  nextSerial_eq := hn

theorem updateWhere_maps (t : Table α key) (p : Row α → Bool) (g : α → α) (hg : ∀ a, key (g a) = key a) :
    Maps (fun r => if p r then g r.val else r.val) t (t.updateWhere p g hg) :=
  maps_update rfl rfl

theorem Maps.trans {g : Row α → α} {t'' : Table α key} (h : Maps f t t') (h' : Maps g t' t'') :
    Maps (fun r => g { r with val := f r }) t t'' where
  rows_eq := by rw [h'.rows_eq, h.rows_eq, List.map_map]; rfl
  nextSerial_eq := h'.nextSerial_eq.trans h.nextSerial_eq

/-- A column that the rewriting keeps. -/
theorem Maps.map_val {β : Type*} {k : α → β} (h : Maps f t t') (hf : ∀ r ∈ t.rows, k (f r) = k r.val) :
    (t'.rows.map fun r => k r.val) = t.rows.map fun r => k r.val := by
  rw [h.rows_eq, List.map_map]
  exact List.map_congr_left hf

theorem Maps.congr {g : Row α → α} (h : Maps f t t') (hfg : ∀ r ∈ t.rows, f r = g r) :
    Maps g t t' where
  rows_eq := by
    rw [h.rows_eq]
    exact List.map_congr_left fun r hr => by rw [hfg r hr]
  nextSerial_eq := h.nextSerial_eq

end Table

end SqlTable

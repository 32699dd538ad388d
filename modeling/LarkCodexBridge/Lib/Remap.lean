import Mathlib

/-!
# Tables that give ids a new name

Entries are stored under fresh names, the `n`-th of which is `nameOf n`; each entry keeps the id it came with. Beside the
table stand the ids that are in use, the names that are gone and the ids that are gone.

* `Matched`: the ids in use are those of the table, nothing in use is gone, and names are new;
* `Matched.add`, `Matched.remove`, `Matched.retire`, `Matched.bump`, `Matched.congr`: the operations keep it.
-/

namespace Remap

variable {κ ι α : Type*}

/-- The table, the ids in use, and what is gone agree. -/
structure Matched (nameOf : ℕ → κ) (idOf : α → ι) (next : ℕ) (table : List (κ × α)) (active : List ι)
    (goneNames : List κ) (goneIds : List ι) : Prop where
  active_eq : active = table.map fun e => idOf e.2
  nodup : active.Nodup
  names_nodup : (table.map (·.1)).Nodup
  names_old : ∀ k ∈ table.map (·.1), ∃ n < next, k = nameOf n
  gone_old : ∀ k ∈ goneNames, ∃ n < next, k = nameOf n
  ids_live : ∀ i ∈ active, i ∉ goneIds
  names_live : ∀ k ∈ table.map (·.1), k ∉ goneNames

variable {nameOf : ℕ → κ} {idOf : α → ι} {next : ℕ} {table : List (κ × α)} {active : List ι} {goneNames : List κ}
  {goneIds : List ι}

theorem matched_nil : Matched nameOf idOf next [] [] [] [] := by
  constructor <;> simp

namespace Matched

/-- A name that is still to come is not in the table. -/
theorem fresh (hinj : Function.Injective nameOf) (h : Matched nameOf idOf next table active goneNames goneIds) :
    nameOf next ∉ table.map (·.1) := by
  intro hk
  obtain ⟨n, hn, he⟩ := h.names_old _ hk
  exact Nat.ne_of_lt hn (hinj he).symm

theorem fresh_gone (hinj : Function.Injective nameOf) (h : Matched nameOf idOf next table active goneNames goneIds) :
    nameOf next ∉ goneNames := by
  intro hk
  obtain ⟨n, hn, he⟩ := h.gone_old _ hk
  exact Nat.ne_of_lt hn (hinj he).symm

theorem mem_active (h : Matched nameOf idOf next table active goneNames goneIds) {e : κ × α} (he : e ∈ table) :
    idOf e.2 ∈ active := by
  rw [h.active_eq]
  exact List.mem_map_of_mem he

/-- Names may be skipped. -/
theorem bump {next' : ℕ} (hle : next ≤ next') (h : Matched nameOf idOf next table active goneNames goneIds) :
    Matched nameOf idOf next' table active goneNames goneIds where
  active_eq := h.active_eq
  nodup := h.nodup
  names_nodup := h.names_nodup
  names_old k hk := let ⟨n, hn, he⟩ := h.names_old k hk; ⟨n, Nat.lt_of_lt_of_le hn hle, he⟩
  gone_old k hk := let ⟨n, hn, he⟩ := h.gone_old k hk; ⟨n, Nat.lt_of_lt_of_le hn hle, he⟩
  ids_live := h.ids_live
  names_live := h.names_live

/-- A new entry under the next name. -/
theorem add (hinj : Function.Injective nameOf) {a : α} (h : Matched nameOf idOf next table active goneNames goneIds)
    (hactive : idOf a ∉ active) (hgone : idOf a ∉ goneIds) :
    Matched nameOf idOf (next + 1) (table ++ [(nameOf next, a)]) (active ++ [idOf a]) goneNames goneIds where
  active_eq := by simp [h.active_eq]
  nodup := by
    rw [List.nodup_append]
    exact ⟨h.nodup, List.nodup_singleton _, fun i hi j hj hij => hactive (List.mem_singleton.1 hj ▸ hij ▸ hi)⟩
  names_nodup := by
    rw [List.map_append, List.nodup_append]
    refine ⟨h.names_nodup, List.nodup_singleton _, fun k hk l hl hkl => h.fresh hinj ?_⟩
    rw [List.map_singleton, List.mem_singleton] at hl
    rwa [hkl, hl] at hk
  names_old k hk := by
    rw [List.map_append, List.mem_append] at hk
    rcases hk with hk | hk
    · exact (h.bump (Nat.le_succ _)).names_old k hk
    · rw [List.map_singleton, List.mem_singleton] at hk
      exact ⟨next, Nat.lt_succ_self _, hk⟩
  gone_old := (h.bump (Nat.le_succ _)).gone_old
  ids_live i hi := by
    rcases List.mem_append.1 hi with hi | hi
    · exact h.ids_live i hi
    · rw [List.mem_singleton.1 hi]; exact hgone
  names_live k hk := by
    rw [List.map_append, List.mem_append] at hk
    rcases hk with hk | hk
    · exact h.names_live k hk
    · rw [List.map_singleton, List.mem_singleton] at hk
      rw [hk]; exact h.fresh_gone hinj

section

variable (h : Matched nameOf idOf next table active goneNames goneIds)
include h

/-- An id may be gone that was never in use. -/
theorem retire {goneIds' : List ι} {i : ι} (hi : i ∉ active) (hsub : ∀ j ∈ goneIds', j ∈ goneIds ∨ j = i) :
    Matched nameOf idOf next table active goneNames goneIds' :=
  { h with
    ids_live := fun j hj hg => by
      rcases hsub j hg with hg | rfl
      · exact h.ids_live j hj hg
      · exact hi hj }

/-- The table matters only for its names and ids. -/
theorem congr {table' : List (κ × α)} (hnames : table'.map (·.1) = table.map (·.1)) (hids : table'.map (fun e => idOf e.2) = table.map fun e => idOf e.2) :
    Matched nameOf idOf next table' active goneNames goneIds where
  active_eq := by rw [h.active_eq, hids]
  nodup := h.nodup
  names_nodup := hnames ▸ h.names_nodup
  names_old := hnames ▸ h.names_old
  gone_old := h.gone_old
  ids_live := h.ids_live
  names_live := hnames ▸ h.names_live

/-- Two entries of one name are one entry, and so are two of one id. -/
theorem eq_of_name {e f : κ × α} (he : e ∈ table)
    (hf : f ∈ table) (hef : e.1 = f.1) : e = f :=
  List.inj_on_of_nodup_map h.names_nodup he hf hef

theorem eq_of_id {e f : κ × α} (he : e ∈ table)
    (hf : f ∈ table) (hef : idOf e.2 = idOf f.2) : e = f :=
  List.inj_on_of_nodup_map (h.active_eq ▸ h.nodup) he hf hef

end

variable [DecidableEq κ] [DecidableEq ι]

omit [DecidableEq ι] in
/-- An entry and the rest of the table. -/
theorem perm_cons_filter {k : κ} {a : α} : ∀ {table : List (κ × α)}, (table.map (·.1)).Nodup → (k, a) ∈ table →
    table.Perm ((k, a) :: table.filter (·.1 ≠ k))
  | e :: table, hn, ha => by
    rw [List.map_cons, List.nodup_cons] at hn
    rcases List.mem_cons.1 ha with rfl | ha
    · have hrest : table.filter (·.1 ≠ k) = table := List.filter_eq_self.2 fun e he => by
        have hne : e.1 ≠ k := fun hk => hn.1 (List.mem_map.2 ⟨e, he, hk⟩)
        simpa using hne
      rw [List.filter_cons_of_neg (by simp), hrest]
    · have hne : e.1 ≠ k := fun hk => hn.1 (List.mem_map.2 ⟨_, ha, hk.symm⟩)
      rw [List.filter_cons_of_pos (by simpa using hne)]
      exact ((perm_cons_filter hn.2 ha).cons e).trans (List.Perm.swap _ _ _)

/-- An entry goes, and its name and id with it. -/
theorem remove {k : κ} {a : α} {goneNames' : List κ} {goneIds' : List ι}
    (h : Matched nameOf idOf next table active goneNames goneIds) (ha : (k, a) ∈ table)
    (hnames : ∀ l ∈ goneNames', l ∈ goneNames ∨ l = k) (hids : ∀ j ∈ goneIds', j ∈ goneIds ∨ j = idOf a) :
    Matched nameOf idOf next (table.filter (·.1 ≠ k)) (active.filter (· ≠ idOf a)) goneNames' goneIds' := by
  have hsame : ∀ e ∈ table, e.1 = k ↔ idOf e.2 = idOf a := fun e he =>
    ⟨fun hk => congrArg (fun e : κ × α => idOf e.2) (h.eq_of_name he ha hk),
      fun hi => congrArg (·.1) (h.eq_of_id he ha hi)⟩
  have hsub : ∀ l ∈ (table.filter (·.1 ≠ k)).map (·.1), l ∈ table.map (·.1) ∧ l ≠ k := by
    intro l hl
    obtain ⟨e, he, rfl⟩ := List.mem_map.1 hl
    obtain ⟨he, hk⟩ := List.mem_filter.1 he
    exact ⟨List.mem_map_of_mem he, by simpa using hk⟩
  have hold : ∃ n < next, k = nameOf n := h.names_old k (List.mem_map_of_mem ha)
  refine ⟨?_, h.nodup.filter _, h.names_nodup.sublist (List.filter_sublist.map _), fun l hl => h.names_old l (hsub l hl).1,
    fun l hl => ?_, fun i hi => ?_, fun l hl hg => ?_⟩
  · rw [h.active_eq, List.filter_map]
    exact congrArg _ (List.filter_congr fun e he => by simp [hsame e he])
  · rcases hnames l hl with hl | rfl
    · exact h.gone_old l hl
    · exact hold
  · obtain ⟨hi, hne⟩ := List.mem_filter.1 hi
    intro hg
    rcases hids i hg with hg | rfl
    · exact h.ids_live i hi hg
    · simp at hne
  · rcases hnames l hg with hg | rfl
    · exact h.names_live l (hsub l hl).1 hg
    · exact (hsub l hl).2 rfl

end Matched

end Remap

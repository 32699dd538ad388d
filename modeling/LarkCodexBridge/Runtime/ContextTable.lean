import LarkCodexBridge.Runtime.Contexts

/-!
# The table of issued capabilities

The capabilities ever issued are a table beside the registry: context, binding, snapshot, handles, gate and the Codex
turn, once there is one.

* `Issued.Le`: a row of the table only ever gains its turn;
* `Inv`: the entries, gates, operations and waiters of the registry are those of the table;
* `Inv.step`: every call keeps it for a table that may have grown, and what the call returns is of a row.
-/

namespace LarkCodexBridge.Runtime.Contexts

/-! ## The table of capabilities -/

/-- An issued capability. -/
structure Issued where
  contextId : ContextId
  binding : PendingBinding
  snapshot : ContextSnapshot
  handles : List MediaHandle
  gate : ℕ
  turn : Option String

/-- The row `r'` is the row `r`, perhaps with its turn. -/
structure Issued.Le (r r' : Issued) : Prop where
  contextId : r'.contextId = r.contextId
  binding : r'.binding = r.binding
  snapshot : r'.snapshot = r.snapshot
  handles : r'.handles = r.handles
  gate : r'.gate = r.gate
  turn : ∀ t, r.turn = some t → r'.turn = some t

theorem Issued.Le.refl (r : Issued) : r.Le r := ⟨rfl, rfl, rfl, rfl, rfl, fun _ => id⟩

variable {r : Issued}

theorem Issued.Le.trans {r' r'' : Issued} (h : r.Le r') (h' : r'.Le r'') : r.Le r'' :=
  ⟨h'.contextId.trans h.contextId, h'.binding.trans h.binding, h'.snapshot.trans h.snapshot, h'.handles.trans h.handles,
    h'.gate.trans h.gate, fun t ht => h'.turn t (h.turn t ht)⟩

/-- The table has grown. -/
def Extends (issued issued' : List Issued) : Prop := ∀ r ∈ issued, ∃ r' ∈ issued', r.Le r'

theorem Extends.refl (issued : List Issued) : Extends issued issued := fun r hr => ⟨r, hr, .refl r⟩

theorem Extends.trans {i i' i'' : List Issued} (h : Extends i i') (h' : Extends i' i'') : Extends i i'' := by
  intro r hr
  obtain ⟨r', hr', hle⟩ := h r hr
  obtain ⟨r'', hr'', hle'⟩ := h' r' hr'
  exact ⟨r'', hr'', hle.trans hle'⟩

/-- The entry `e` is that of the row `r`. -/
structure EntryOf (r : Issued) (e : ContextEntry) : Prop where
  contextId : r.contextId = e.contextId
  binding : r.binding = e.pendingBinding
  snapshot : r.snapshot = e.snapshot
  gate : r.gate = e.responseGate
  handles : ∀ h g, e.grants.lookup h = some g → h ∈ r.handles
  active : ∀ t, e.state = .active t → r.turn = some t
  pending : e.state = .pending → r.turn = none

variable (uuid : ℕ → String)

/-- The registry agrees with the table of what was issued. -/
structure Inv (issued : List Issued) (s : ContextRegistry) : Prop where
  ids : ∀ r ∈ issued, ∀ r' ∈ issued, r.contextId = r'.contextId → r = r'
  gates : ∀ r ∈ issued, ∀ r' ∈ issued, r.gate = r'.gate → r = r'
  handles : ∀ r ∈ issued, ∀ r' ∈ issued, ∀ h ∈ r.handles, h ∈ r'.handles → r = r'
  idOld : ∀ r ∈ issued, ∃ n < s.minted, r.contextId = contextName uuid n
  handleOld : ∀ r ∈ issued, ∀ h ∈ r.handles, ∃ n < s.minted, h = handleName uuid n
  gateOld : ∀ r ∈ issued, r.gate < s.nextGate
  entries : ∀ e ∈ s.entries, ∃ r ∈ issued, EntryOf r e
  entriesOne : ∀ e ∈ s.entries, ∀ e' ∈ s.entries, e.contextId = e'.contextId → e = e'
  closed : ∀ r ∈ issued, (s.gates r.gate).revoked = false ↔ ∃ e ∈ s.entries, e.contextId = r.contextId ∧ e.live
  operations : ∀ o ∈ s.operations, ∃ r ∈ issued, r.contextId = o.contextId ∧ r.binding = o.binding ∧ r.gate = o.gate
  numbers : (s.operations.map (·.number)).Nodup
  numberOld : ∀ o ∈ s.operations, o.number < s.nextNumber
  active : ∀ r ∈ issued, (s.gates r.gate).active = s.operations.countP (·.gate = r.gate)
  waiters : ∀ w ∈ s.waiters, ∀ g ∈ w.gates, ∃ r ∈ issued, r.gate = g
  waiterOne : (s.waiters.map (·.number)).Nodup
  waiterOld : ∀ w ∈ s.waiters, w.number < s.nextNumber

variable {uuid} {issued : List Issued} {s : ContextRegistry}

theorem inv_empty (config : ContextRegistryConfig) : Inv uuid [] (.empty config) := by
  constructor <;> simp [ContextRegistry.empty]

variable {e : ContextEntry}

/-- The row of an entry is found by its context as well as by its gate. -/
theorem Inv.entryOf (h : Inv uuid issued s) (he : e ∈ s.entries) (hr : r ∈ issued) :
    r.contextId = e.contextId ↔ r.gate = e.responseGate := by
  obtain ⟨r', hr', hof⟩ := h.entries e he
  constructor
  · intro hid
    rw [h.ids r hr r' hr' (hid.trans hof.contextId.symm), hof.gate]
  · intro hgate
    rw [h.gates r hr r' hr' (hgate.trans hof.gate.symm), hof.contextId]

theorem find_eq_some {contextId : ContextId} (h : s.find contextId = some e) :
    e ∈ s.entries ∧ e.contextId = contextId :=
  ⟨List.mem_of_find?_eq_some h, by simpa using List.find?_some h⟩

/-! ## Revocation -/

variable {p : ContextEntry → Bool} {reason : RevocationReason}

theorem revokeWhere_revoked {n : ℕ} (h : (s.gates n).revoked = true) :
    ((s.revokeWhere p reason).gates n).revoked = true := by
  simp only [ContextRegistry.revokeWhere]
  split
  · rfl
  · exact h

theorem revokeWhere_active (n : ℕ) : ((s.revokeWhere p reason).gates n).active = (s.gates n).active := by
  simp only [ContextRegistry.revokeWhere]
  split <;> rfl

/-- The entry as `revokeWhere` leaves it. -/
def ContextEntry.revokeIf (p : ContextEntry → Bool) (reason : RevocationReason) (e : ContextEntry) : ContextEntry :=
  if p e && e.live then { e with state := .revoked reason, grants := ∅ } else e

theorem revokeWhere_entries : (s.revokeWhere p reason).entries = s.entries.map (.revokeIf p reason) := rfl

@[simp] theorem revokeIf_contextId (e : ContextEntry) : (e.revokeIf p reason).contextId = e.contextId := by
  unfold ContextEntry.revokeIf
  split <;> rfl

@[simp] theorem revokeIf_binding (e : ContextEntry) : (e.revokeIf p reason).pendingBinding = e.pendingBinding := by
  unfold ContextEntry.revokeIf
  split <;> rfl

theorem revokeIf_live (e : ContextEntry) : (e.revokeIf p reason).live = (e.live && !p e) := by
  unfold ContextEntry.revokeIf
  split
  · next h =>
    rw [Bool.and_eq_true] at h
    simp [ContextEntry.live, h.1]
  · next h =>
    rw [Bool.and_eq_true, not_and] at h
    cases hp : p e with
    | false => simp
    | true => simpa [hp] using h hp

theorem EntryOf.revokeIf (h : EntryOf r e) : EntryOf r (e.revokeIf p reason) := by
  unfold ContextEntry.revokeIf
  split
  · exact { h with handles := by simp, active := nofun, pending := nofun }
  · exact h

theorem revokeWhere_unrevoked {n : ℕ} : ((s.revokeWhere p reason).gates n).revoked = false ↔
    (s.gates n).revoked = false ∧ ∀ e ∈ s.entries, e.live → e.responseGate = n → p e = false := by
  have hany : (s.entries.any fun e => (p e && e.live) && e.responseGate == n) = false ↔
      ∀ e ∈ s.entries, e.live → e.responseGate = n → p e = false := by
    rw [List.any_eq_false]
    refine forall₂_congr fun e _ => ?_
    cases p e <;> cases e.live <;> simp
  rw [← hany]
  simp only [ContextRegistry.revokeWhere]
  split
  · next h => simp [h]
  · next h => simp [h]

theorem Inv.revokeWhere (h : Inv uuid issued s) (p : ContextEntry → Bool) (reason : RevocationReason) :
    Inv uuid issued (s.revokeWhere p reason) :=
  { h with
    entries := by
      rw [revokeWhere_entries, List.forall_mem_map]
      intro e he
      obtain ⟨r, hr, hof⟩ := h.entries e he
      exact ⟨r, hr, hof.revokeIf⟩
    entriesOne := by
      rw [revokeWhere_entries, List.forall_mem_map]
      intro e₁ he₁
      rw [List.forall_mem_map]
      intro e₂ he₂ hid
      rw [h.entriesOne e₁ he₁ e₂ he₂ (by simpa using hid)]
    closed := by
      intro r hr
      rw [revokeWhere_unrevoked, h.closed r hr, revokeWhere_entries]
      constructor
      · rintro ⟨⟨e, he, hid, hlive⟩, hall⟩
        refine ⟨_, List.mem_map_of_mem he, (revokeIf_contextId e).trans hid, ?_⟩
        rw [revokeIf_live, hlive, hall e he hlive ((h.entryOf he hr).1 hid.symm).symm]
        rfl
      · rintro ⟨e', he', hid, hlive⟩
        obtain ⟨e, he, rfl⟩ := List.mem_map.1 he'
        rw [revokeIf_live, Bool.and_eq_true, Bool.not_eq_true'] at hlive
        rw [revokeIf_contextId] at hid
        refine ⟨⟨e, he, hid, hlive.1⟩, fun e₂ he₂ _ hgate => ?_⟩
        have heq : e₂ = e := h.entriesOne _ he₂ _ he (((h.entryOf he₂ hr).2 hgate.symm).symm.trans hid.symm)
        rw [heq]
        exact hlive.2
    active := fun r hr => (revokeWhere_active _).trans (h.active r hr) }

theorem Inv.evict (h : Inv uuid issued s) : Inv uuid issued { s with entries := s.entries.filter ContextEntry.live } :=
  { h with
    entries := fun e he => h.entries e (List.mem_filter.1 he).1
    entriesOne := fun e he e' he' => h.entriesOne e (List.mem_filter.1 he).1 e' (List.mem_filter.1 he').1
    closed := by
      intro r hr
      rw [h.closed r hr]
      constructor
      · rintro ⟨e, he, hid, hlive⟩
        exact ⟨e, List.mem_filter.2 ⟨he, hlive⟩, hid, hlive⟩
      · rintro ⟨e, he, hid, hlive⟩
        exact ⟨e, (List.mem_filter.1 he).1, hid, hlive⟩ }

theorem Inv.makeCapacity (h : Inv uuid issued s) (maxContexts now : ℕ) :
    Inv uuid issued (s.makeCapacity maxContexts now).2 := by
  unfold ContextRegistry.makeCapacity
  split
  · exact h
  · exact (h.revokeWhere _ _).evict

/-! ## Activation -/

/-- The row of `contextId` gets its turn. -/
def Issued.setTurn (contextId : ContextId) (turn : String) (r : Issued) : Issued :=
  if r.contextId = contextId then { r with turn := some turn } else r

@[simp] theorem setTurn_contextId (id : ContextId) (t : String) (r : Issued) : (r.setTurn id t).contextId = r.contextId := by
  unfold Issued.setTurn
  split <;> rfl

@[simp] theorem setTurn_binding (id : ContextId) (t : String) (r : Issued) : (r.setTurn id t).binding = r.binding := by
  unfold Issued.setTurn
  split <;> rfl

@[simp] theorem setTurn_snapshot (id : ContextId) (t : String) (r : Issued) : (r.setTurn id t).snapshot = r.snapshot := by
  unfold Issued.setTurn
  split <;> rfl

@[simp] theorem setTurn_handles (id : ContextId) (t : String) (r : Issued) : (r.setTurn id t).handles = r.handles := by
  unfold Issued.setTurn
  split <;> rfl

@[simp] theorem setTurn_gate (id : ContextId) (t : String) (r : Issued) : (r.setTurn id t).gate = r.gate := by
  unfold Issued.setTurn
  split <;> rfl

/-- The entry becomes active, or is active already, for the turn `t`. -/
def ContextEntry.activate (t : String) (e : ContextEntry) : ContextEntry := { e with state := .active t }

theorem Inv.activate (h : Inv uuid issued s) (he : e ∈ s.entries) {t : String}
    (hstate : e.state = .pending ∨ e.state = .active t) :
    ∃ issued', Extends issued issued' ∧ Inv uuid issued' (s.setEntry e.contextId (.activate t)) ∧
      ∃ r ∈ issued', EntryOf r (e.activate t) := by
  obtain ⟨r₀, hr₀, hof₀⟩ := h.entries e he
  -- the row of the entry has no other turn
  have hturn : ∀ r ∈ issued, r.contextId = e.contextId → ∀ u, r.turn = some u → u = t := by
    intro r hr hid u hu
    rw [h.ids r hr r₀ hr₀ (hid.trans hof₀.contextId.symm)] at hu
    rcases hstate with hp | ha
    · rw [hof₀.pending hp] at hu
      cases hu
    · rw [hof₀.active t ha] at hu
      exact (Option.some.inj hu).symm
  have hentry : ∀ r ∈ issued, r.contextId = e.contextId → EntryOf (r.setTurn e.contextId t) (e.activate t) := by
    intro r hr hid
    obtain rfl := h.ids r hr r₀ hr₀ (hid.trans hof₀.contextId.symm)
    refine ⟨(setTurn_contextId _ _ r).trans hid, (setTurn_binding _ _ r).trans hof₀.binding,
      (setTurn_snapshot _ _ r).trans hof₀.snapshot, (setTurn_gate _ _ r).trans hof₀.gate, ?_, fun u hu => ?_, nofun⟩
    · rw [setTurn_handles]
      exact hof₀.handles
    · cases hu
      exact congrArg Issued.turn (if_pos hid)
  have hlive : e.live = true := by
    rcases hstate with hp | ha
    · simp [ContextEntry.live, hp]
    · simp [ContextEntry.live, ha]
  refine ⟨issued.map (.setTurn e.contextId t), fun r hr => ⟨_, List.mem_map_of_mem hr, ?_⟩, ?_,
    _, List.mem_map_of_mem hr₀, hentry r₀ hr₀ hof₀.contextId⟩
  · refine ⟨by simp, by simp, by simp, by simp, by simp, fun u hu => ?_⟩
    by_cases hid : r.contextId = e.contextId
    · rw [hturn r hr hid u hu]
      exact congrArg Issued.turn (if_pos hid)
    · exact (congrArg Issued.turn (if_neg hid)).trans hu
  · have hmap : ∀ {P : Issued → Prop}, (∀ r ∈ issued, P (r.setTurn e.contextId t)) →
        ∀ r ∈ issued.map (.setTurn e.contextId t), P r := List.forall_mem_map.2
    refine
      { h with
        ids := hmap fun r hr => hmap fun r' hr' hid => by rw [h.ids r hr r' hr' (by simpa using hid)]
        gates := hmap fun r hr => hmap fun r' hr' hg => by rw [h.gates r hr r' hr' (by simpa using hg)]
        handles := hmap fun r hr => hmap fun r' hr' x hx hx' => by
          rw [h.handles r hr r' hr' x (by simpa using hx) (by simpa using hx')]
        idOld := hmap fun r hr => (setTurn_contextId _ _ r).symm ▸ h.idOld r hr
        handleOld := hmap fun r hr => (setTurn_handles _ _ r).symm ▸ h.handleOld r hr
        gateOld := hmap fun r hr => (setTurn_gate _ _ r).symm ▸ h.gateOld r hr
        entries := ?_, entriesOne := ?_, closed := ?_
        operations := fun o ho => ?_
        active := hmap fun r hr => (setTurn_gate _ _ r).symm ▸ h.active r hr
        waiters := fun w hw g hg => ?_ }
    · refine List.forall_mem_map.2 fun e' he' => ?_
      obtain ⟨r, hr, hof⟩ := h.entries e' he'
      refine ⟨_, List.mem_map_of_mem hr, ?_⟩
      by_cases hid : e'.contextId = e.contextId
      · obtain rfl := h.entriesOne e' he' e he hid
        rw [if_pos rfl]
        exact hentry r hr hof.contextId
      · have hsame : r.setTurn e.contextId t = r := if_neg fun heq => hid (hof.contextId.symm.trans heq)
        rw [if_neg hid, hsame]
        exact hof
    · have hids : ∀ e' : ContextEntry, (if e'.contextId = e.contextId then e'.activate t else e').contextId =
          e'.contextId := fun e' => by split <;> rfl
      refine List.forall_mem_map.2 fun e₁ he₁ => List.forall_mem_map.2 fun e₂ he₂ hid => ?_
      rw [hids, hids] at hid
      rw [h.entriesOne e₁ he₁ e₂ he₂ hid]
    · refine hmap fun r hr => ?_
      have hset : (s.setEntry e.contextId (.activate t)).gates = s.gates := rfl
      rw [hset, setTurn_gate, setTurn_contextId, h.closed r hr]
      constructor
      · rintro ⟨e', he', hid, hl⟩
        refine ⟨_, List.mem_map_of_mem he', ?_⟩
        split
        · exact ⟨hid, rfl⟩
        · exact ⟨hid, hl⟩
      · rintro ⟨e'', he'', hid, hl⟩
        obtain ⟨e', he', rfl⟩ := List.mem_map.1 he''
        split at hid
        · next heq =>
          obtain rfl := h.entriesOne e' he' e he heq
          exact ⟨e', he', hid, hlive⟩
        · next hne =>
          rw [if_neg hne] at hl
          exact ⟨e', he', hid, hl⟩
    · obtain ⟨r, hr, hid, hb, hg⟩ := h.operations o ho
      exact ⟨_, List.mem_map_of_mem hr, by simpa using hid, by simpa using hb, by simpa using hg⟩
    · obtain ⟨r, hr, hgate⟩ := h.waiters w hw g hg
      exact ⟨_, List.mem_map_of_mem hr, by simpa using hgate⟩

/-! ## Operations -/

variable {o : AuthorizedResource}

theorem Inv.addOperation (h : Inv uuid issued s) (hr : r ∈ issued) (hid : r.contextId = o.contextId)
    (hb : r.binding = o.binding) (hg : r.gate = o.gate) (hn : o.number = s.nextNumber)
    (hopen : (s.gates o.gate).revoked = false) (meters : ℕ → TurnReadMeter) :
    Inv uuid issued { s with
      gates := Function.update s.gates o.gate ⟨false, (s.gates o.gate).active + 1⟩
      meters := meters, operations := s.operations ++ [o], nextNumber := s.nextNumber + 1 } :=
  { h with
    closed := by
      intro r' hr'
      dsimp only
      rw [Function.update_apply]
      split
      · next hgate =>
        rw [← h.closed r' hr', hgate, hopen]
      · exact h.closed r' hr'
    operations := by
      intro o' ho'
      rcases List.mem_append.1 ho' with ho' | ho'
      · exact h.operations o' ho'
      · obtain rfl := List.mem_singleton.1 ho'
        exact ⟨r, hr, hid, hb, hg⟩
    numbers := by
      rw [List.map_append, List.nodup_append]
      refine ⟨h.numbers, List.nodup_singleton _, fun n hmem m hm => ?_⟩
      obtain ⟨o', ho', rfl⟩ := List.mem_map.1 hmem
      rw [List.map_singleton, List.mem_singleton] at hm
      have hlt := h.numberOld o' ho'
      omega
    numberOld := by
      intro o' ho'
      rcases List.mem_append.1 ho' with ho' | ho'
      · exact Nat.lt_succ_of_lt (h.numberOld o' ho')
      · obtain rfl := List.mem_singleton.1 ho'
        exact hn ▸ Nat.lt_succ_self _
    active := by
      intro r' hr'
      dsimp only
      rw [Function.update_apply, List.countP_append, List.countP_singleton]
      by_cases hgate : r'.gate = o.gate
      · rw [if_pos hgate, if_pos (by simpa using hgate.symm), ← hgate, h.active r' hr']
      · rw [if_neg hgate, if_neg (by simpa using Ne.symm hgate), h.active r' hr', Nat.add_zero]
    waiterOld := fun w hw => Nat.lt_succ_of_lt (h.waiterOld w hw) }

theorem find_operation {number : ℕ} (h : s.findOperation number = some o) :
    o ∈ s.operations ∧ o.number = number :=
  ⟨List.mem_of_find?_eq_some h, by simpa using List.find?_some h⟩

/-- A change of the operations that leaves what they belong to. -/
theorem Inv.mapOperations (h : Inv uuid issued s) {f : AuthorizedResource → AuthorizedResource}
    (hf : ∀ o, (f o).number = o.number ∧ (f o).contextId = o.contextId ∧ (f o).binding = o.binding ∧ (f o).gate = o.gate)
    (meters : ℕ → TurnReadMeter) :
    Inv uuid issued { s with meters := meters, operations := s.operations.map f } :=
  { h with
    operations := by
      refine List.forall_mem_map.2 fun o ho => ?_
      obtain ⟨-, hid, hb, hg⟩ := hf o
      rw [hid, hb, hg]
      exact h.operations o ho
    numbers := by
      have hnumbers : (s.operations.map f).map (·.number) = s.operations.map (·.number) := by
        rw [List.map_map]
        exact List.map_congr_left fun o _ => (hf o).1
      rw [hnumbers]
      exact h.numbers
    numberOld := by
      refine List.forall_mem_map.2 fun o ho => ?_
      rw [(hf o).1]
      exact h.numberOld o ho
    active := by
      intro r hr
      refine (h.active r hr).trans ?_
      rw [List.countP_map]
      exact List.countP_congr fun o _ => by simp [(hf o).2.2.2] }

theorem countP_drop {os : List AuthorizedResource} (hnodup : (os.map (·.number)).Nodup) (ho : o ∈ os)
    (q : AuthorizedResource → Bool) :
    (os.filter (·.number ≠ o.number)).countP q + (if q o then 1 else 0) = os.countP q := by
  induction os with
  | nil => cases ho
  | cons a os ih =>
    rw [List.map_cons, List.nodup_cons] at hnodup
    rcases List.mem_cons.1 ho with rfl | ho
    · have hrest : os.filter (·.number ≠ o.number) = os := by
        refine List.filter_eq_self.2 fun b hb => ?_
        have hne : b.number ≠ o.number := fun heq => hnodup.1 (heq ▸ List.mem_map_of_mem hb)
        simpa using hne
      rw [List.filter_cons_of_neg (by simp), hrest, List.countP_cons]
    · have hne : a.number ≠ o.number := fun heq => hnodup.1 (heq ▸ List.mem_map_of_mem ho)
      rw [List.filter_cons_of_pos (by simpa using hne), List.countP_cons, List.countP_cons, ← ih hnodup.2 ho]
      omega

theorem Inv.dropOperation (h : Inv uuid issued s) (ho : o ∈ s.operations) :
    Inv uuid issued { s with
      gates := Function.update s.gates o.gate { s.gates o.gate with active := (s.gates o.gate).active - 1 }
      operations := s.operations.filter (·.number ≠ o.number) } :=
  { h with
    closed := by
      intro r hr
      dsimp only
      rw [Function.update_apply]
      split
      · next hgate =>
        rw [← h.closed r hr, hgate]
      · exact h.closed r hr
    operations := fun o' ho' => h.operations o' (List.mem_filter.1 ho').1
    numbers := h.numbers.sublist (List.filter_sublist.map _)
    numberOld := fun o' ho' => h.numberOld o' (List.mem_filter.1 ho').1
    active := by
      intro r hr
      have hcount := countP_drop h.numbers ho fun o' => decide (o'.gate = r.gate)
      have hactive := h.active r hr
      dsimp only
      rw [Function.update_apply]
      by_cases hgate : r.gate = o.gate
      · rw [if_pos (by simpa using hgate.symm)] at hcount
        rw [if_pos hgate, ← hgate]
        dsimp only
        omega
      · rw [if_neg (by simpa using Ne.symm hgate)] at hcount
        rw [if_neg hgate, hactive]
        omega }

/-! ## Waiting -/

theorem Inv.addWaiter (h : Inv uuid issued s) {w : Waiter} (hn : w.number = s.nextNumber)
    (hg : ∀ g ∈ w.gates, ∃ r ∈ issued, r.gate = g) :
    Inv uuid issued { s with waiters := s.waiters ++ [w], nextNumber := s.nextNumber + 1 } :=
  { h with
    numberOld := fun o ho => Nat.lt_succ_of_lt (h.numberOld o ho)
    waiters := by
      intro w' hw'
      rcases List.mem_append.1 hw' with hw' | hw'
      · exact h.waiters w' hw'
      · rw [List.mem_singleton.1 hw']
        exact hg
    waiterOne := by
      rw [List.map_append, List.nodup_append]
      refine ⟨h.waiterOne, List.nodup_singleton _, fun n hmem m hm => ?_⟩
      obtain ⟨w', hw', rfl⟩ := List.mem_map.1 hmem
      rw [List.map_singleton, List.mem_singleton] at hm
      have hlt := h.waiterOld w' hw'
      omega
    waiterOld := by
      intro w' hw'
      rcases List.mem_append.1 hw' with hw' | hw'
      · exact Nat.lt_succ_of_lt (h.waiterOld w' hw')
      · obtain rfl := List.mem_singleton.1 hw'
        exact hn ▸ Nat.lt_succ_self _ }

theorem Inv.setWaiters (h : Inv uuid issued s) {waiters : List Waiter}
    (hsub : (waiters.map (·.number)).Sublist (s.waiters.map (·.number)))
    (hw : ∀ w ∈ waiters, ∃ w' ∈ s.waiters, w.number = w'.number ∧ ∀ g ∈ w.gates, g ∈ w'.gates) :
    Inv uuid issued { s with waiters } :=
  { h with
    waiters := by
      intro w hmem g hg
      obtain ⟨w', hw', -, hsub⟩ := hw w hmem
      exact h.waiters w' hw' g (hsub g hg)
    waiterOne := h.waiterOne.sublist hsub
    waiterOld := by
      intro w hmem
      obtain ⟨w', hw', hn, -⟩ := hw w hmem
      rw [hn]
      exact h.waiterOld w' hw' }

/-! ## Registration -/

theorem firstFree_spec (taken : String → Bool) (name : ℕ → String) (tries n : ℕ) :
    ∃ k, n ≤ k ∧ firstFree taken name tries n = (name k, k + 1) := by
  induction tries generalizing n with
  | zero => exact ⟨n, Nat.le_refl n, rfl⟩
  | succ tries ih =>
    rw [firstFree]
    split
    · obtain ⟨k, hk, heq⟩ := ih (n + 1)
      exact ⟨k, by omega, heq⟩
    · exact ⟨n, Nat.le_refl n, rfl⟩

variable (uuid) in
/-- The handles of the grants were minted from number `start` on. -/
structure Minting.From (start : ℕ) (m : Minting) : Prop where
  minted : start ≤ m.minted
  handles : ∀ h g, m.grants.lookup h = some g → ∃ k, start ≤ k ∧ k < m.minted ∧ h = handleName uuid k

namespace Minting.From

variable {start : ℕ} {m : Minting}

section

variable (h : m.From uuid start)
include h

theorem grant (g : ResourceGrant) : (m.grant uuid g).2.From uuid start := by
  obtain ⟨k, hk, hfree⟩ := firstFree_spec (fun h => (m.grants.lookup h).isSome) (handleName uuid) m.grants.size m.minted
  have hstart := h.minted
  unfold Minting.grant
  rw [hfree]
  refine ⟨by dsimp only; omega, fun handle g' hg' => ?_⟩
  dsimp only at hg'
  rw [KeyMap.lookup_insert_ite] at hg'
  split at hg'
  · next heq => exact ⟨k, by omega, Nat.lt_succ_self k, heq⟩
  · obtain ⟨j, hj, hlt, heq⟩ := h.handles handle g' hg'
    exact ⟨j, hj, by dsimp only; omega, heq⟩

theorem withTranscripts (liveTranscripts : List (ℕ × String)) :
    Minting.From uuid start { m with liveTranscripts } := ⟨h.minted, h.handles⟩

theorem part (partIndex : ℕ) (part : DraftPart) (messageId : String) :
    (materializePart uuid partIndex part messageId m).2.From uuid start := by
  cases part with
  | media kind resource thumbnail metadata transcriptFailure =>
    cases thumbnail with
    | none => exact (h.withTranscripts _).grant _
    | some _ => exact ((h.withTranscripts _).grant _).grant _
  | _ => exact h

theorem parts (messageId : String) (partIndex : ℕ) (parts : List DraftPart) :
    (materializeParts uuid messageId partIndex parts m).2.From uuid start := by
  induction parts generalizing partIndex m with
  | nil => exact h
  | cons part rest ih => exact ih (h.part partIndex part messageId) (partIndex + 1)

theorem materialize (draft : ContextDraft) : (materialize uuid draft m).2.From uuid start := by
  unfold Contexts.materialize
  cases draft.quote with
  | none => exact h.parts _ _ _
  | some quote => exact (((h.parts _ _ _).withTranscripts _).parts _ _ _).withTranscripts _

end

end Minting.From

theorem contextName_injective (hu : Function.Injective uuid) : Function.Injective (contextName uuid) :=
  fun _ _ h => hu ((String.append_right_inj "bctx_").1 h)

theorem handleName_injective (hu : Function.Injective uuid) : Function.Injective (handleName uuid) :=
  fun _ _ h => hu ((String.append_right_inj "bmedia_").1 h)

theorem Inv.addEntry (h : Inv uuid issued s) {minted : ℕ} (hof : EntryOf r e) (hlive : e.live)
    (hnew : ∀ r' ∈ issued, r'.contextId ≠ r.contextId) (hgate : r.gate = s.nextGate)
    (hid : ∃ n < minted, r.contextId = contextName uuid n)
    (hhandles : ∀ x ∈ r.handles, ∃ n < minted, x = handleName uuid n)
    (hfresh : ∀ r' ∈ issued, ∀ x ∈ r'.handles, x ∉ r.handles) (hminted : s.minted ≤ minted) (meters : ℕ → TurnReadMeter)
    (nextMeter : ℕ) :
    Inv uuid (issued ++ [r]) { s with
      entries := s.entries ++ [e], gates := Function.update s.gates s.nextGate ⟨false, 0⟩, meters, nextMeter, minted
      nextGate := s.nextGate + 1 } := by
  have hmem : ∀ {r' : Issued}, r' ∈ issued ++ [r] → r' ∈ issued ∨ r' = r := fun hr' => by simpa using hr'
  have hold : ∀ {r' : Issued}, r' ∈ issued → r' ∈ issued ++ [r] := fun hr' => List.mem_append_left _ hr'
  have hlast : r ∈ issued ++ [r] := by simp
  have holdGate : ∀ r' ∈ issued, r'.gate ≠ s.nextGate := fun r' hr' => (h.gateOld r' hr').ne
  have hgates : ∀ r' ∈ issued, Function.update s.gates s.nextGate ⟨false, 0⟩ r'.gate = s.gates r'.gate :=
    fun r' hr' => Function.update_of_ne (holdGate r' hr') _ _
  have hlastGate : Function.update s.gates s.nextGate ⟨false, 0⟩ r.gate = ⟨false, 0⟩ := by
    rw [hgate, Function.update_self]
  have hentryId : ∀ e' ∈ s.entries, e'.contextId ≠ e.contextId := by
    intro e' he' heq
    obtain ⟨r', hr', hof'⟩ := h.entries e' he'
    exact hnew r' hr' (hof'.contextId.trans (heq.trans hof.contextId.symm))
  refine ⟨?_, ?_, ?_, ?_, ?_, ?_, ?_, ?_, ?_, ?_, h.numbers, h.numberOld, ?_, ?_, h.waiterOne, h.waiterOld⟩
  · intro r₁ h₁ r₂ h₂ heq
    rcases hmem h₁ with hr₁ | rfl <;> rcases hmem h₂ with hr₂ | rfl
    · exact h.ids r₁ hr₁ r₂ hr₂ heq
    · exact absurd heq (hnew r₁ hr₁)
    · exact absurd heq.symm (hnew r₂ hr₂)
    · rfl
  · intro r₁ h₁ r₂ h₂ heq
    rcases hmem h₁ with hr₁ | rfl <;> rcases hmem h₂ with hr₂ | rfl
    · exact h.gates r₁ hr₁ r₂ hr₂ heq
    · exact absurd (heq.trans hgate) (holdGate r₁ hr₁)
    · exact absurd (heq.symm.trans hgate) (holdGate r₂ hr₂)
    · rfl
  · intro r₁ h₁ r₂ h₂ x hx₁ hx₂
    rcases hmem h₁ with hr₁ | rfl <;> rcases hmem h₂ with hr₂ | rfl
    · exact h.handles r₁ hr₁ r₂ hr₂ x hx₁ hx₂
    · exact absurd hx₂ (hfresh r₁ hr₁ x hx₁)
    · exact absurd hx₁ (hfresh r₂ hr₂ x hx₂)
    · rfl
  · intro r' hr'
    rcases hmem hr' with hr' | rfl
    · obtain ⟨n, hn, heq⟩ := h.idOld r' hr'
      exact ⟨n, hn.trans_le hminted, heq⟩
    · exact hid
  · intro r' hr' x hx
    rcases hmem hr' with hr' | rfl
    · obtain ⟨n, hn, heq⟩ := h.handleOld r' hr' x hx
      exact ⟨n, hn.trans_le hminted, heq⟩
    · exact hhandles x hx
  · intro r' hr'
    rcases hmem hr' with hr' | rfl
    · exact Nat.lt_succ_of_lt (h.gateOld r' hr')
    · exact hgate ▸ Nat.lt_succ_self _
  · intro e' he'
    rcases List.mem_append.1 he' with he' | he'
    · obtain ⟨r', hr', hof'⟩ := h.entries e' he'
      exact ⟨r', hold hr', hof'⟩
    · rw [List.mem_singleton.1 he']
      exact ⟨r, hlast, hof⟩
  · intro e₁ h₁ e₂ h₂ heq
    rcases List.mem_append.1 h₁ with h₁ | h₁ <;> rcases List.mem_append.1 h₂ with h₂ | h₂
    · exact h.entriesOne e₁ h₁ e₂ h₂ heq
    · rw [List.mem_singleton.1 h₂] at heq
      exact absurd heq (hentryId e₁ h₁)
    · rw [List.mem_singleton.1 h₁] at heq
      exact absurd heq.symm (hentryId e₂ h₂)
    · rw [List.mem_singleton.1 h₁, List.mem_singleton.1 h₂]
  · intro r' hr'
    dsimp only
    rcases hmem hr' with hr' | rfl
    · rw [hgates r' hr', h.closed r' hr']
      constructor
      · rintro ⟨e', he', heq, hl⟩
        exact ⟨e', List.mem_append_left _ he', heq, hl⟩
      · rintro ⟨e', he', heq, hl⟩
        rcases List.mem_append.1 he' with he' | he'
        · exact ⟨e', he', heq, hl⟩
        · rw [List.mem_singleton.1 he', ← hof.contextId] at heq
          exact absurd heq.symm (hnew r' hr')
    · rw [hlastGate]
      exact iff_of_true rfl ⟨e, by simp, hof.contextId.symm, hlive⟩
  · intro o ho
    obtain ⟨r', hr', hrest⟩ := h.operations o ho
    exact ⟨r', hold hr', hrest⟩
  · intro r' hr'
    dsimp only
    rcases hmem hr' with hr' | rfl
    · rw [hgates r' hr']
      exact h.active r' hr'
    · rw [hlastGate]
      refine (List.countP_eq_zero.2 fun o ho => ?_).symm
      obtain ⟨r', hr', -, -, hog⟩ := h.operations o ho
      simpa [hgate, ← hog] using holdGate r' hr'
  · intro w hw g hg
    obtain ⟨r', hr', heq⟩ := h.waiters w hw g hg
    exact ⟨r', hold hr', heq⟩

theorem Inv.addPending (hu : Function.Injective uuid) (h : Inv uuid issued s) (config : ContextRegistryConfig)
    (binding : PendingBinding) (draft : ContextDraft) (liveTranscripts : List (ℕ × String)) (now : ℕ) :
    ∃ r, Inv uuid (issued ++ [r]) (s.addPending uuid config binding draft liveTranscripts now).1 ∧
      r.binding = binding ∧
      (s.addPending uuid config binding draft liveTranscripts now).2 = .registered r.contextId := by
  obtain ⟨k, hk, hfree⟩ :=
    firstFree_spec (fun id => (s.find id).isSome) (contextName uuid) s.entries.length s.minted
  have hempty : Minting.From uuid (k + 1) ⟨∅, liveTranscripts, k + 1⟩ := ⟨Nat.le_refl _, by simp⟩
  have hfrom := hempty.materialize draft
  unfold ContextRegistry.addPending
  rw [hfree]
  rcases hmaterialize : materialize uuid draft ⟨∅, liveTranscripts, k + 1⟩ with ⟨snapshot, m⟩
  rw [hmaterialize] at hfrom
  have hminted : k + 1 ≤ m.minted := hfrom.minted
  have hnew : ∀ r ∈ issued, r.contextId ≠ contextName uuid k := by
    intro r hr heq
    obtain ⟨n, hn, hname⟩ := h.idOld r hr
    have hnk := contextName_injective hu (hname.symm.trans heq)
    omega
  have hkeys : ∀ x ∈ m.grants.keys, ∃ j, k + 1 ≤ j ∧ j < m.minted ∧ x = handleName uuid j := by
    intro x hx
    obtain ⟨g, hg⟩ := Option.isSome_iff_exists.1 (AList.lookup_isSome.2 hx)
    exact hfrom.handles x g hg
  have hhandle : ∀ r ∈ issued, ∀ x ∈ r.handles, x ∉ m.grants.keys := by
    intro r hr x hx hx'
    obtain ⟨n, hn, hname⟩ := h.handleOld r hr x hx
    obtain ⟨j, hj, -, hname'⟩ := hkeys x hx'
    have hnj := handleName_injective hu (hname.symm.trans hname')
    omega
  have hold : s.entries.filter (·.contextId ≠ contextName uuid k) = s.entries := by
    refine List.filter_eq_self.2 fun e he => ?_
    obtain ⟨r, hr, hof⟩ := h.entries e he
    simpa [hof.contextId] using hnew r hr
  dsimp only
  rw [hold, hmaterialize]
  refine ⟨⟨contextName uuid k, binding, snapshot, m.grants.keys, s.nextGate, none⟩, ?_, rfl, rfl⟩
  refine h.addEntry ⟨rfl, rfl, rfl, rfl, fun x g hg => ?_, fun _ ht => ?_, fun _ => rfl⟩ rfl
    hnew rfl ⟨k, hminted, rfl⟩ (fun x hx => ?_) hhandle (hk.trans (Nat.le_of_succ_le hminted)) _ _
  · exact AList.lookup_isSome.1 (Option.isSome_iff_exists.2 ⟨g, hg⟩)
  · cases ht
  · obtain ⟨j, -, hj, heq⟩ := hkeys x hx
    exact ⟨j, hj, heq⟩

/-! ## One call -/

def Call.contextId : Call → Option ContextId
  | .activate contextId .. | .resolve contextId .. | .resolveForTool contextId .. | .authorizeMedia contextId ..
  | .authorizeMediaForTool contextId .. => some contextId
  | _ => none

/-- The call names the context, the binding and the Codex turn of the row. -/
def Call.Names (call : Call) (r : Issued) : Prop :=
  match call with
  | .registerPending binding .. => r.binding = binding
  | .activate contextId pending codexTurnId _ => r.contextId = contextId ∧ r.binding = pending ∧ r.turn = some codexTurnId
  | .resolve contextId caller _ | .authorizeMedia contextId _ caller _ =>
    r.contextId = contextId ∧ r.binding = ⟨caller.codexThreadId, caller.localTurnRowId⟩ ∧ r.turn = some caller.codexTurnId
  | .resolveForTool contextId codexThreadId codexTurnId _
  | .authorizeMediaForTool contextId _ codexThreadId codexTurnId _ _ =>
    r.contextId = contextId ∧ r.binding.codexThreadId = codexThreadId ∧ r.turn = some codexTurnId
  | _ => False

def Call.handle : Call → Option MediaHandle
  | .authorizeMedia _ handle .. | .authorizeMediaForTool _ handle .. => some handle
  | _ => none

/-- The call succeeded with something of a context. -/
def Answer.isGrant : Answer → Bool
  | .registered _ | .activated | .snapshot _ | .resource _ _ _ => true
  | _ => false

/-- What a successful call returns is of the row. -/
def Answer.Of (answer : Answer) (call : Call) (r : Issued) : Prop :=
  match answer with
  | .registered contextId => r.contextId = contextId
  | .snapshot contents => contents = r.snapshot
  | .resource _ _ localTurnRowId =>
    localTurnRowId = r.binding.localTurnRowId ∧ ∃ handle, call.handle = some handle ∧ handle ∈ r.handles
  | _ => True

/-- A successful call names a row of the table and returns what is of it. -/
def Conforms (issued : List Issued) (call : Call) (answer : Answer) : Prop :=
  answer.isGrant → ∃ r ∈ issued, call.Names r ∧ answer.Of call r

variable {call : Call}

theorem Issued.Le.names {r' : Issued} (h : r.Le r') (hn : call.Names r) : call.Names r' := by
  unfold Call.Names at hn ⊢
  rw [h.contextId, h.binding]
  split at hn
  · exact hn
  iterate 5 exact ⟨hn.1, hn.2.1, h.turn _ hn.2.2⟩
  · exact hn

theorem Issued.Le.of {r' : Issued} (h : r.Le r') {answer : Answer} (ha : answer.Of call r) :
    answer.Of call r' := by
  unfold Answer.Of at ha ⊢
  rw [h.contextId, h.binding, h.snapshot, h.handles]
  exact ha

theorem Conforms.extends {issued' : List Issued} {answer : Answer} (h : Conforms issued call answer)
    (hext : Extends issued issued') : Conforms issued' call answer := by
  intro hgrant
  obtain ⟨r, hr, hn, ha⟩ := h hgrant
  obtain ⟨r', hr', hle⟩ := hext r hr
  exact ⟨r', hr', hle.names hn, hle.of ha⟩

variable (uuid) in
/-- A call keeps the invariant for a table that has grown; it succeeds on a context only while its gate is open. -/
def Outcome (issued : List Issued) (s : ContextRegistry) (call : Call) (x : ContextRegistry × Answer) : Prop :=
  ∃ issued', Extends issued issued' ∧ Inv uuid issued' x.1 ∧ Conforms issued' call x.2 ∧
    (x.2.isGrant → ∀ id, call.contextId = some id → ∃ r ∈ issued, r.contextId = id ∧ (s.gates r.gate).revoked = false)

/-- A call that returns nothing of a context. -/
theorem Inv.plain (h : Inv uuid issued s) {s₀ : ContextRegistry} {answer : Answer} (ha : answer.isGrant = false) :
    Outcome uuid issued s₀ call (s, answer) :=
  ⟨issued, .refl issued, h, fun hgrant => absurd hgrant (by simp [ha]), fun hgrant => absurd hgrant (by simp [ha])⟩

theorem expire_unrevoked {id : ContextId} {now n : ℕ} (h : ((s.expire id now).gates n).revoked = false) :
    (s.gates n).revoked = false :=
  (revokeWhere_unrevoked.1 h).1

theorem Inv.withEntry (h : Inv uuid issued s) {contextId : ContextId} {now : ℕ}
    {f : ContextRegistry → ContextEntry → ContextRegistry × Answer}
    (hf : ∀ s₁ e, Inv uuid issued s₁ → e ∈ s₁.entries → e.contextId = contextId →
      (∀ n, (s₁.gates n).revoked = false → (s.gates n).revoked = false) → Outcome uuid issued s call (f s₁ e)) :
    Outcome uuid issued s call (s.withEntry contextId now f) := by
  have hexpired : Inv uuid issued (s.expire contextId now) := h.revokeWhere _ _
  unfold ContextRegistry.withEntry
  dsimp only
  split
  · exact hexpired.plain rfl
  · next e hfind =>
    obtain ⟨he, hid⟩ := find_eq_some hfind
    exact hf _ e hexpired he hid fun n => expire_unrevoked

theorem authorizeEntry_ok {caller : ActiveBinding} (h : authorizeEntry e caller = .ok ()) :
    e.pendingBinding = ⟨caller.codexThreadId, caller.localTurnRowId⟩ ∧ e.state = .active caller.codexTurnId := by
  unfold authorizeEntry at h
  split at h
  · cases h
  · next hbinding =>
    rw [not_or, not_not, not_not] at hbinding
    split at h
    · cases h
    · next hstate =>
      split at h
      · next hturn => exact ⟨by rw [← hbinding.1, ← hbinding.2], by rw [hstate, hturn]⟩
      · cases h
    · cases h

theorem authorizeEntryForTool_ok {thread turn : String} {state : EntryState}
    (h : authorizeEntryForTool e thread turn = .ok state) :
    e.pendingBinding.codexThreadId = thread ∧ state = .active turn ∧ (e.state = .pending ∨ e.state = .active turn) := by
  unfold authorizeEntryForTool at h
  split at h
  · cases h
  · next hthread =>
    refine ⟨not_not.1 hthread, ?_⟩
    split at h
    · next hstate =>
      cases h
      exact ⟨rfl, .inl hstate⟩
    · next hstate =>
      split at h
      · next hturn =>
        cases h
        rw [hstate, hturn]
        exact ⟨rfl, .inr rfl⟩
      · cases h
    · cases h

/-- An authorisation for an entry fails or is for one of its handles. -/
theorem Inv.authorizedResource (h : Inv uuid issued s) (hr : r ∈ issued) (hof : EntryOf r e) (handle : MediaHandle)
    (maxUnobservedBytes : ℕ) :
    Inv uuid issued (s.authorizedResource e handle maxUnobservedBytes).1 ∧
      ((s.authorizedResource e handle maxUnobservedBytes).2.isGrant = false ∨
        handle ∈ r.handles ∧ (s.gates r.gate).revoked = false ∧ ∃ n g,
          (s.authorizedResource e handle maxUnobservedBytes).2 = .resource n g r.binding.localTurnRowId) := by
  unfold ContextRegistry.authorizedResource
  split
  · exact ⟨h, .inl rfl⟩
  · next grant hgrant =>
    split
    · exact ⟨h, .inl rfl⟩
    · next hopen =>
      rw [Bool.not_eq_true] at hopen
      split
      · exact ⟨h, .inl rfl⟩
      · next reservedBytes meter _ =>
        let o : AuthorizedResource := ⟨s.nextNumber, e.contextId, e.pendingBinding, e.pendingBinding.localTurnRowId, grant,
          handle, e.readMeter, reservedBytes, false, e.responseGate⟩
        refine ⟨h.addOperation (o := o) hr hof.contextId hof.binding hof.gate rfl hopen
          (Function.update s.meters e.readMeter meter), .inr ⟨hof.handles handle grant hgrant, ?_, s.nextNumber, grant, ?_⟩⟩
        · rw [hof.gate]
          exact hopen
        · rw [hof.binding]

theorem Inv.live_open (h : Inv uuid issued s) (he : e ∈ s.entries) (hr : r ∈ issued) (hof : EntryOf r e)
    (hlive : e.live) : (s.gates r.gate).revoked = false :=
  (h.closed r hr).2 ⟨e, he, hof.contextId.symm, hlive⟩

theorem live_of_active {t : String} (h : e.state = .active t) : e.live := by
  simp [ContextEntry.live, h]

theorem live_of_pending (h : e.state = .pending) : e.live := by
  simp [ContextEntry.live, h]

section Step

variable (config : ContextRegistryConfig)

theorem Inv.step_registerPending (hu : Function.Injective uuid) (h : Inv uuid issued s) (binding : PendingBinding)
    (draft : ContextDraft) (liveTranscripts : List (ℕ × String)) (now : ℕ) :
    Outcome uuid issued s (.registerPending binding draft liveTranscripts now)
      (s.step uuid config (.registerPending binding draft liveTranscripts now)) := by
  rw [ContextRegistry.step]
  split
  · exact h.plain rfl
  · have hroom := h.makeCapacity config.maxContexts now
    split
    · next s₁ heq =>
      rw [heq] at hroom
      exact hroom.plain rfl
    · next s₁ heq =>
      rw [heq] at hroom
      obtain ⟨r, hinv, hb, hanswer⟩ := hroom.addPending hu config binding draft liveTranscripts now
      refine ⟨issued ++ [r], fun r' hr' => ⟨r', List.mem_append_left _ hr', .refl r'⟩, hinv, fun _ => ?_, by rintro _ _ ⟨⟩⟩
      exact ⟨r, by simp, hb, by rw [hanswer]; rfl⟩

section

variable (h : Inv uuid issued s)
include h

theorem Inv.step_activate (contextId : ContextId) (pending : PendingBinding)
    (codexTurnId : String) (now : ℕ) : Outcome uuid issued s (.activate contextId pending codexTurnId now)
      (s.step uuid config (.activate contextId pending codexTurnId now)) := by
  rw [ContextRegistry.step]
  split
  · exact h.plain rfl
  · refine h.withEntry fun s₁ e h₁ he hid hgates => ?_
    obtain ⟨r, hr, hof⟩ := h₁.entries e he
    split
    · exact h₁.plain rfl
    · next hb =>
      rw [not_not] at hb
      split
      · next hstate =>
        obtain ⟨issued', hext, hinv, r', hr', hof'⟩ := h₁.activate he (t := codexTurnId) (.inl hstate)
        refine ⟨issued', hext, hid ▸ hinv, fun _ => ⟨r', hr', ⟨hof'.contextId.trans hid, hof'.binding.trans hb,
          hof'.active _ rfl⟩, trivial⟩, fun _ id hsome => ?_⟩
        cases hsome
        exact ⟨r, hr, hof.contextId.trans hid, hgates _ (h₁.live_open he hr hof (live_of_pending hstate))⟩
      · next active hstate =>
        split
        · next hturn =>
          refine ⟨issued, .refl issued, h₁, fun _ => ⟨r, hr, ⟨hof.contextId.trans hid, hof.binding.trans hb,
            hof.active _ (hturn ▸ hstate)⟩, trivial⟩, fun _ id hsome => ?_⟩
          cases hsome
          exact ⟨r, hr, hof.contextId.trans hid, hgates _ (h₁.live_open he hr hof (live_of_active hstate))⟩
        · exact h₁.plain rfl
      · exact h₁.plain rfl

theorem Inv.step_resolve (contextId : ContextId) (caller : ActiveBinding) (now : ℕ) :
    Outcome uuid issued s (.resolve contextId caller now) (s.step uuid config (.resolve contextId caller now)) := by
  rw [ContextRegistry.step]
  refine h.withEntry fun s₁ e h₁ he hid hgates => ?_
  obtain ⟨r, hr, hof⟩ := h₁.entries e he
  split
  · exact h₁.plain rfl
  · next hauth =>
    obtain ⟨hb, hstate⟩ := authorizeEntry_ok hauth
    refine ⟨issued, .refl issued, h₁, fun _ => ⟨r, hr, ⟨hof.contextId.trans hid, hof.binding.trans hb,
      hof.active _ hstate⟩, hof.snapshot.symm⟩, fun _ id hsome => ?_⟩
    cases hsome
    exact ⟨r, hr, hof.contextId.trans hid, hgates _ (h₁.live_open he hr hof (live_of_active hstate))⟩

theorem Inv.step_resolveForTool (contextId : ContextId) (thread turn : String) (now : ℕ) :
    Outcome uuid issued s (.resolveForTool contextId thread turn now)
      (s.step uuid config (.resolveForTool contextId thread turn now)) := by
  rw [ContextRegistry.step]
  split
  · exact h.plain rfl
  · refine h.withEntry fun s₁ e h₁ he hid hgates => ?_
    obtain ⟨r, hr, hof⟩ := h₁.entries e he
    split
    · exact h₁.plain rfl
    · next state hauth =>
      obtain ⟨hthread, rfl, hstate⟩ := authorizeEntryForTool_ok hauth
      obtain ⟨issued', hext, hinv, r', hr', hof'⟩ := h₁.activate he hstate
      refine ⟨issued', hext, hid ▸ hinv, fun _ => ⟨r', hr', ⟨hof'.contextId.trans hid,
        (congrArg PendingBinding.codexThreadId hof'.binding).trans hthread, hof'.active _ rfl⟩, hof'.snapshot.symm⟩,
        fun _ id hsome => ?_⟩
      cases hsome
      exact ⟨r, hr, hof.contextId.trans hid,
        hgates _ (h₁.live_open he hr hof (hstate.elim live_of_pending live_of_active))⟩

theorem Inv.step_authorizeMedia (contextId : ContextId) (handle : MediaHandle)
    (caller : ActiveBinding) (now : ℕ) : Outcome uuid issued s (.authorizeMedia contextId handle caller now)
      (s.step uuid config (.authorizeMedia contextId handle caller now)) := by
  rw [ContextRegistry.step]
  refine h.withEntry fun s₁ e h₁ he hid hgates => ?_
  obtain ⟨r, hr, hof⟩ := h₁.entries e he
  split
  · exact h₁.plain rfl
  · next hauth =>
    obtain ⟨hb, hstate⟩ := authorizeEntry_ok hauth
    obtain ⟨hinv, hfail | ⟨hhandle, hopen, n, g, hanswer⟩⟩ :=
      h₁.authorizedResource hr hof handle config.maxMediaReadBytesPerItem
    · exact hinv.plain hfail
    · refine ⟨issued, .refl issued, hinv, fun _ => ⟨r, hr, ⟨hof.contextId.trans hid, hof.binding.trans hb,
        hof.active _ hstate⟩, ?_⟩, fun _ id hsome => ?_⟩
      · rw [hanswer]
        exact ⟨rfl, handle, rfl, hhandle⟩
      · cases hsome
        exact ⟨r, hr, hof.contextId.trans hid, hgates _ hopen⟩

theorem Inv.step_authorizeMediaForTool (contextId : ContextId) (handle : MediaHandle)
    (thread turn : String) (maxMaterializedBytes now : ℕ) :
    Outcome uuid issued s (.authorizeMediaForTool contextId handle thread turn maxMaterializedBytes now)
      (s.step uuid config (.authorizeMediaForTool contextId handle thread turn maxMaterializedBytes now)) := by
  rw [ContextRegistry.step]
  split
  · exact h.plain rfl
  · refine h.withEntry fun s₁ e h₁ he hid hgates => ?_
    obtain ⟨r, hr, hof⟩ := h₁.entries e he
    split
    · exact h₁.plain rfl
    · next state hauth =>
      obtain ⟨hthread, rfl, hstate⟩ := authorizeEntryForTool_ok hauth
      obtain ⟨issued', hext, hinv, r', hr', hof'⟩ := h₁.activate he hstate
      rw [hid] at hinv
      obtain ⟨hinv', hanswer⟩ := hinv.authorizedResource hr' hof' handle maxMaterializedBytes
      refine ⟨issued', hext, hinv', fun hgrant => ?_, fun _ id hsome => ?_⟩
      · obtain hfail | ⟨hhandle, -, n, g, hanswer⟩ := hanswer
        · exact absurd hgrant (by rw [← Bool.not_eq_true] at hfail; exact hfail)
        · refine ⟨r', hr', ⟨hof'.contextId.trans hid,
            (congrArg PendingBinding.codexThreadId hof'.binding).trans hthread, hof'.active _ rfl⟩, ?_⟩
          exact hanswer ▸ ⟨rfl, handle, rfl, hhandle⟩
      · cases hsome
        exact ⟨r, hr, hof.contextId.trans hid,
          hgates _ (h₁.live_open he hr hof (hstate.elim live_of_pending live_of_active))⟩

theorem Inv.step_settleRead (number actualBytes : ℕ) :
    Outcome uuid issued s (.settleRead number actualBytes) (s.step uuid config (.settleRead number actualBytes)) := by
  rw [ContextRegistry.step]
  split
  · exact h.plain rfl
  · split
    · exact h.plain rfl
    · exact (h.mapOperations (fun o => by split <;> exact ⟨rfl, rfl, rfl, rfl⟩) _).plain rfl

theorem Inv.step_dropResource (number : ℕ) :
    Outcome uuid issued s (.dropResource number) (s.step uuid config (.dropResource number)) := by
  rw [ContextRegistry.step]
  split
  · exact h.plain rfl
  · next o hfind =>
    obtain ⟨ho, rfl⟩ := find_operation hfind
    exact (h.dropOperation ho).plain rfl

theorem Inv.step_revoke (contextId : ContextId) (binding : PendingBinding)
    (reason : RevocationReason) :
    Outcome uuid issued s (.revoke contextId binding reason) (s.step uuid config (.revoke contextId binding reason)) := by
  rw [ContextRegistry.step]
  split
  · exact h.plain rfl
  · split
    · exact h.plain rfl
    · exact (h.revokeWhere _ _).plain rfl

/-- The gates a waiter starts with are those of rows. -/
theorem Inv.liveOf_gates {binding : PendingBinding} :
    ∀ g ∈ (s.liveOf binding).map (·.responseGate), ∃ r ∈ issued, r.gate = g := by
  intro g hg
  obtain ⟨e, he, rfl⟩ := List.mem_map.1 hg
  obtain ⟨r, hr, hof⟩ := h.entries e (List.mem_filter.1 he).1
  exact ⟨r, hr, hof.gate⟩

theorem Inv.step_revokeTurnAndWait (binding : PendingBinding) (reason : RevocationReason) :
    Outcome uuid issued s (.revokeTurnAndWait binding reason) (s.step uuid config (.revokeTurnAndWait binding reason)) :=
  ((h.revokeWhere (fun e => e.pendingBinding = binding) reason).addWaiter rfl h.liveOf_gates).plain rfl

theorem Inv.waiter_eq {number : ℕ} {w w' : Waiter}
    (hfind : s.waiters.find? (·.number = number) = some w) (hw' : w' ∈ s.waiters) (hn : w'.number = number) : w' = w := by
  have hnumber : w.number = number := by simpa using List.find?_some hfind
  exact List.inj_on_of_nodup_map h.waiterOne hw' (List.mem_of_find?_eq_some hfind) (hn.trans hnumber.symm)

theorem Inv.step_poll (number : ℕ) :
    Outcome uuid issued s (.poll number) (s.step uuid config (.poll number)) := by
  rw [ContextRegistry.step]
  split
  · exact h.plain rfl
  · next w hfind =>
    split
    · refine (h.setWaiters (List.filter_sublist.map _) fun w' hw' => ?_).plain rfl
      exact ⟨w', (List.mem_filter.1 hw').1, rfl, fun _ => id⟩
    · next gate rest hgates =>
      split
      · have hnumbers : (s.waiters.map fun w => if w.number = number then { w with gates := rest } else w).map
            (·.number) = s.waiters.map (·.number) := by
          rw [List.map_map]
          exact List.map_congr_left fun w' _ => by dsimp only [Function.comp_apply]; split <;> rfl
        refine (h.setWaiters (hnumbers ▸ .refl _) (List.forall_mem_map.2 fun w' hw' => ⟨w', hw', ?_⟩)).plain rfl
        split
        · next hn =>
          have hw : w' = w := h.waiter_eq hfind hw' hn
          refine ⟨rfl, fun g hg => ?_⟩
          rw [hw, hgates]
          exact List.mem_cons_of_mem _ hg
        · exact ⟨rfl, fun _ => id⟩
      · exact h.plain rfl

end

/-- **One call keeps the invariant.** -/
theorem Inv.step (hu : Function.Injective uuid) (h : Inv uuid issued s) (call : Call) :
    Outcome uuid issued s call (s.step uuid config call) := by
  cases call with
  | registerPending binding draft liveTranscripts now =>
    exact h.step_registerPending config hu binding draft liveTranscripts now
  | activate contextId pending turn now => exact h.step_activate config contextId pending turn now
  | resolve contextId caller now => exact h.step_resolve config contextId caller now
  | resolveForTool contextId thread turn now => exact h.step_resolveForTool config contextId thread turn now
  | authorizeMedia contextId handle caller now => exact h.step_authorizeMedia config contextId handle caller now
  | authorizeMediaForTool contextId handle thread turn bytes now =>
    exact h.step_authorizeMediaForTool config contextId handle thread turn bytes now
  | commitResponse number =>
    obtain ⟨answer, hanswer, hstep⟩ := s.step_commitResponse uuid config number
    rw [hstep]
    rcases hanswer with rfl | ⟨allowed, rfl⟩ <;> exact h.plain rfl
  | settleRead number bytes => exact h.step_settleRead config number bytes
  | dropResource number => exact h.step_dropResource config number
  | revoke contextId binding reason => exact h.step_revoke config contextId binding reason
  | revokeTurn binding reason | stats now => exact (h.revokeWhere _ _).plain rfl
  | revokeTurnAndWait binding reason => exact h.step_revokeTurnAndWait config binding reason
  | poll number => exact h.step_poll config number

end Step

end LarkCodexBridge.Runtime.Contexts

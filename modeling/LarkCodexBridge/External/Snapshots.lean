import Mathlib
import LarkCodexBridge.External.SingleWriter

/-!
# Snapshots of external threads

The terminal turns and items that were recorded for a managed thread, and the reads of them. A write bounds what one call
brings, a read bounds what all calls brought, so a thread may grow past what can be read.

* `applyTerminalItems`: `apply_terminals` with the items;
* `readSnapshot`, `externalManagedThreads`: the reads;
* `readSnapshot_ok`: a snapshot is readable exactly when its entries fit;
* `snapshots_stay_readable`, `overfull_thread_unreadable`: the runs in which every call fits, and a call that does not.
-/

namespace LarkCodexBridge.External

open Limits SqlTable Store StepSystem

structure ExternalItemTerminal where
  turnId : String
  itemId : String
  deriving DecidableEq

structure ItemTerminalRow where
  endpointLabel : String
  threadId : String
  turnId : String
  itemId : String
  observedEpoch : ℕ

def ItemTerminalRow.key (r : ItemTerminalRow) : (String × String) × String × String :=
  ((r.endpointLabel, r.threadId), r.turnId, r.itemId)

/-- The tables with that of the terminal items. -/
structure ProjectionDb where
  db : ExternalDb
  itemTerminals : Table ItemTerminalRow ItemTerminalRow.key

def TurnTerminalRow.thread (r : TurnTerminalRow) : String × String := (r.endpointLabel, r.threadId)
def ItemTerminalRow.thread (r : ItemTerminalRow) : String × String := (r.endpointLabel, r.threadId)

/-! ## Writes -/

/-- `validate_terminals`. -/
def validateTerminalItems (endpointLabel threadId : String) (turns : List ExternalTurnTerminal)
    (items : List ExternalItemTerminal) : Except StoreError Unit := do
  validatePair endpointLabel threadId "recording external terminals"
  if turns.length > externalReconcileEntryCapacity ∨ items.length > externalReconcileEntryCapacity then
    .error (.capacityExceeded "recording external terminal projections")
  else do
    turns.forM fun turn => validateId turn.turnId routingIdByteLimit "recording an external turn terminal"
    items.forM fun item => do
      validateId item.turnId routingIdByteLimit "recording an external item terminal"
      validateId item.itemId routingIdByteLimit "recording an external item terminal"

/-- The insertion of the items, each unless it is already there, with the number of new rows. -/
def insertItems (endpointLabel threadId : String) (epoch : ℕ) : List ExternalItemTerminal →
    Table ItemTerminalRow ItemTerminalRow.key → ℕ × Table ItemTerminalRow ItemTerminalRow.key
  | [], t => (0, t)
  | item :: items, t =>
    match t.insertOrIgnore ⟨endpointLabel, threadId, item.turnId, item.itemId, epoch⟩ with
    | none => insertItems endpointLabel threadId epoch items t
    | some t' => ((insertItems endpointLabel threadId epoch items t').1 + 1,
        (insertItems endpointLabel threadId epoch items t').2)

inductive TerminalsOutcome where
  | applied (insertedTurns insertedItems : ℕ)
  | stale
  | conflictingTerminal

/-- `apply_terminals`. -/
def applyTerminalItems (now : ℤ) (endpointLabel threadId : String) (epoch : ℕ) (turns : List ExternalTurnTerminal)
    (items : List ExternalItemTerminal) (finishReconciliation : Bool) : Job ProjectionDb TerminalsOutcome := fun s =>
  match applyTerminals now endpointLabel threadId epoch turns finishReconciliation s.db with
  | .error e => .error e
  | .ok (.stale, db) => .ok (.stale, { s with db := db })
  | .ok (.conflictingTerminal, db) => .ok (.conflictingTerminal, { s with db := db })
  | .ok (.applied n, db) =>
    let inserted := insertItems endpointLabel threadId epoch items s.itemTerminals
    .ok (.applied n inserted.1, ⟨db, inserted.2⟩)

/-! ## Reads -/

structure ExternalThreadSnapshot where
  endpointLabel : String
  threadId : String
  epoch : ℕ
  state : ExternalThreadState
  reason : Option ExternalUncertaintyReason
  terminalTurns : List ExternalTurnTerminal
  terminalItems : List ExternalItemTerminal

/-- `ORDER BY turn_id LIMIT`. -/
def ProjectionDb.terminalTurns (s : ProjectionDb) (thread : String × String) (limit : ℕ) : List ExternalTurnTerminal :=
  (((s.db.turnTerminals.rows.filter (·.val.thread = thread)).insertionSort fun r q => r.val.turnId ≤ q.val.turnId).take
    limit).map fun r => ⟨r.val.turnId, r.val.status⟩

/-- `ORDER BY turn_id, item_id LIMIT`. -/
def ProjectionDb.terminalItems (s : ProjectionDb) (thread : String × String) (limit : ℕ) : List ExternalItemTerminal :=
  (((s.itemTerminals.rows.filter (·.val.thread = thread)).insertionSort fun r q =>
    r.val.turnId < q.val.turnId ∨ r.val.turnId = q.val.turnId ∧ r.val.itemId ≤ q.val.itemId).take
    limit).map fun r => ⟨r.val.turnId, r.val.itemId⟩

def readSnapshot (s : ProjectionDb) (endpointLabel threadId : String) : Except StoreError (Option ExternalThreadSnapshot) :=
  match s.db.threads.lookup (endpointLabel, threadId) with
  | none => .ok none
  | some r =>
    let turns := s.terminalTurns (endpointLabel, threadId) (externalReconcileEntryCapacity + 1)
    let items := s.terminalItems (endpointLabel, threadId) (externalReconcileEntryCapacity + 1)
    if turns.length > externalReconcileEntryCapacity ∨ items.length > externalReconcileEntryCapacity then
      .error (.capacityExceeded "reading external terminal projections")
    else .ok (some ⟨endpointLabel, threadId, r.val.epoch, r.val.state, r.val.reason, turns, items⟩)

/-- The threads of an endpoint, `ORDER BY thread_id LIMIT`. -/
def ProjectionDb.managedIds (s : ProjectionDb) (endpointLabel : String) (limit : ℕ) : List String :=
  (((s.db.threads.rows.filter (·.val.endpointLabel = endpointLabel)).map (·.val.threadId)).insertionSort (· ≤ ·)).take limit

def externalManagedThreads (s : ProjectionDb) (endpointLabel : String) : Except StoreError (List ExternalThreadSnapshot) :=
  let ids := s.managedIds endpointLabel (externalManagedThreadCapacity + 1)
  if ids.length > externalManagedThreadCapacity then .error (.capacityExceeded "listing external managed threads")
  else ids.mapM fun threadId => do
    match ← readSnapshot s endpointLabel threadId with
    | some snapshot => .ok snapshot
    | none => .error (.corruptData "reading a listed external thread")

/-! ## What is recorded for a thread -/

def ProjectionDb.turnIds (s : ProjectionDb) (thread : String × String) : List String :=
  (s.db.turnTerminals.rows.filter (·.val.thread = thread)).map (·.val.turnId)

def ProjectionDb.itemIds (s : ProjectionDb) (thread : String × String) : List (String × String) :=
  (s.itemTerminals.rows.filter (·.val.thread = thread)).map fun r => (r.val.turnId, r.val.itemId)

variable {s s' : ProjectionDb} {db db' : ExternalDb} {now : ℤ} {e t : String} {thread : String × String}

theorem mem_turnIds {x : String} : x ∈ s.turnIds thread ↔ s.db.turnTerminals.HasKey (thread.1, thread.2, x) := by
  simp only [ProjectionDb.turnIds, List.mem_map, List.mem_filter, decide_eq_true_eq, Table.HasKey, TurnTerminalRow.key,
    TurnTerminalRow.thread, Prod.ext_iff]
  exact ⟨fun ⟨r, ⟨hr, he, ht⟩, hx⟩ => ⟨r, hr, he, ht, hx⟩, fun ⟨r, hr, he, ht, hx⟩ => ⟨r, ⟨hr, he, ht⟩, hx⟩⟩

theorem mem_itemIds {x : String × String} : x ∈ s.itemIds thread ↔ s.itemTerminals.HasKey (thread, x) := by
  simp only [ProjectionDb.itemIds, List.mem_map, List.mem_filter, decide_eq_true_eq, Table.HasKey, ItemTerminalRow.key,
    ItemTerminalRow.thread, Prod.ext_iff]
  exact ⟨fun ⟨r, ⟨hr, ht⟩, hx⟩ => ⟨r, hr, ht, hx⟩, fun ⟨r, hr, ht, hx⟩ => ⟨r, ⟨hr, ht⟩, hx⟩⟩

theorem turnIds_nodup (s : ProjectionDb) (thread : String × String) : (s.turnIds thread).Nodup := by
  refine List.pairwise_map.2 ((s.db.turnTerminals.key_ne.filter _).imp_of_mem ?_)
  intro r q hr hq hne heq
  have hr := of_decide_eq_true (List.mem_filter.1 hr).2
  have hq := of_decide_eq_true (List.mem_filter.1 hq).2
  exact hne (by simp only [TurnTerminalRow.thread, Prod.ext_iff, TurnTerminalRow.key] at hr hq ⊢; exact
    ⟨hr.1.trans hq.1.symm, hr.2.trans hq.2.symm, heq⟩)

theorem itemIds_nodup (s : ProjectionDb) (thread : String × String) : (s.itemIds thread).Nodup := by
  refine List.pairwise_map.2 ((s.itemTerminals.key_ne.filter _).imp_of_mem ?_)
  intro r q hr hq hne heq
  have hr := of_decide_eq_true (List.mem_filter.1 hr).2
  have hq := of_decide_eq_true (List.mem_filter.1 hq).2
  exact hne (by simpa only [ItemTerminalRow.key, ItemTerminalRow.thread] using Prod.ext (hr.trans hq.symm) heq)

/-- Both projections of the thread can be read. -/
def ProjectionDb.Bounded (s : ProjectionDb) (thread : String × String) : Prop :=
  (s.turnIds thread).length ≤ externalReconcileEntryCapacity ∧ (s.itemIds thread).length ≤ externalReconcileEntryCapacity

theorem terminalTurns_length (s : ProjectionDb) (thread : String × String) (n : ℕ) :
    (s.terminalTurns thread n).length = min n (s.turnIds thread).length := by
  simp [ProjectionDb.terminalTurns, ProjectionDb.turnIds]

theorem terminalItems_length (s : ProjectionDb) (thread : String × String) (n : ℕ) :
    (s.terminalItems thread n).length = min n (s.itemIds thread).length := by
  simp [ProjectionDb.terminalItems, ProjectionDb.itemIds]

/-- **A snapshot is readable** exactly when its entries fit, or there is no such thread. -/
theorem readSnapshot_ok : (∃ snapshot, readSnapshot s e t = .ok snapshot) ↔
    s.db.threads.lookup (e, t) = none ∨ s.Bounded (e, t) := by
  unfold readSnapshot ProjectionDb.Bounded
  cases hr : s.db.threads.lookup (e, t) with
  | none => simp
  | some r =>
    simp only [terminalTurns_length, terminalItems_length, reduceCtorEq, false_or]
    by_cases hfit : (s.turnIds (e, t)).length ≤ externalReconcileEntryCapacity ∧
        (s.itemIds (e, t)).length ≤ externalReconcileEntryCapacity
    · rw [if_neg (by omega)]
      exact ⟨fun _ => hfit, fun _ => ⟨_, rfl⟩⟩
    · rw [if_pos (by omega)]
      refine ⟨?_, fun h => absurd h hfit⟩
      rintro ⟨_, h⟩
      cases h

theorem readSnapshot_some {r : Row ManagedThreadRow} (hr : s.db.threads.lookup (e, t) = some r) (hfit : s.Bounded (e, t)) :
    ∃ snapshot, readSnapshot s e t = .ok (some snapshot) := by
  obtain ⟨o, ho⟩ := readSnapshot_ok.2 (.inr hfit)
  cases o with
  | some snapshot => exact ⟨snapshot, ho⟩
  | none =>
    unfold readSnapshot at ho
    rw [hr] at ho
    simp only at ho
    split at ho <;> cases ho

/-- The number of threads of an endpoint. -/
def ExternalDb.threadCount (db : ExternalDb) (endpointLabel : String) : ℕ :=
  db.threads.rows.countP (·.val.endpointLabel = endpointLabel)

/-- The threads of an endpoint are listed when they are few enough and each is readable. -/
theorem externalManagedThreads_ok (hcount : s.db.threadCount e ≤ externalManagedThreadCapacity)
    (hfit : ∀ t, s.Bounded (e, t)) : ∃ snapshots, externalManagedThreads s e = .ok snapshots := by
  unfold externalManagedThreads
  have hlen : (s.managedIds e (externalManagedThreadCapacity + 1)).length = min (externalManagedThreadCapacity + 1)
      (s.db.threadCount e) := by
    simp [ProjectionDb.managedIds, ExternalDb.threadCount, List.countP_eq_length_filter]
  rw [if_neg (by omega)]
  refine mapM_ok fun threadId hmem => ?_
  have hmem := (List.perm_insertionSort _ _).mem_iff.1 (List.mem_of_mem_take hmem)
  obtain ⟨r, hsel, rfl⟩ := List.mem_map.1 hmem
  obtain ⟨hr, he⟩ := List.mem_filter.1 hsel
  obtain rfl := of_decide_eq_true he
  obtain ⟨snapshot, hread⟩ := readSnapshot_some (Table.lookup_eq_some.2 ⟨hr, rfl⟩) (hfit r.val.threadId)
  exact ⟨snapshot, by rw [hread]; rfl⟩

/-! ## What a write records -/

variable {epoch : ℕ}

theorem insertTerminals_hasKey {k : String × String × String} :
    ∀ {turns : List ExternalTurnTerminal} {table : Table TurnTerminalRow TurnTerminalRow.key},
      (insertTerminals e t epoch turns table).2.HasKey k ↔ table.HasKey k ∨ ∃ turn ∈ turns, k = (e, t, turn.turnId)
  | [], table => by simp [insertTerminals]
  | turn :: turns, table => by
    have hkey := Table.hasKey_insertOrIgnore (t := table) (a := ⟨e, t, turn.turnId, turn.status, epoch⟩) (k := k)
    unfold insertTerminals
    cases hins : table.insertOrIgnore ⟨e, t, turn.turnId, turn.status, epoch⟩ with
    | none =>
      rw [hins] at hkey
      simp only [insertTerminals_hasKey, List.exists_mem_cons_iff]
      exact ⟨fun h => h.imp_right .inr, fun h => h.elim .inl fun h => h.elim (fun h => .inl (hkey.2 (.inr h))) .inr⟩
    | some table' =>
      rw [hins] at hkey
      simp only [insertTerminals_hasKey, List.exists_mem_cons_iff]
      rw [show table'.HasKey k ↔ _ from hkey, or_assoc]
      rfl

theorem insertItems_hasKey {k : (String × String) × String × String} :
    ∀ {items : List ExternalItemTerminal} {table : Table ItemTerminalRow ItemTerminalRow.key},
      (insertItems e t epoch items table).2.HasKey k ↔
        table.HasKey k ∨ ∃ item ∈ items, k = ((e, t), item.turnId, item.itemId)
  | [], table => by simp [insertItems]
  | item :: items, table => by
    have hkey := Table.hasKey_insertOrIgnore (t := table) (a := ⟨e, t, item.turnId, item.itemId, epoch⟩) (k := k)
    unfold insertItems
    cases hins : table.insertOrIgnore ⟨e, t, item.turnId, item.itemId, epoch⟩ with
    | none =>
      rw [hins] at hkey
      simp only [insertItems_hasKey, List.exists_mem_cons_iff]
      exact ⟨fun h => h.imp_right .inr, fun h => h.elim .inl fun h => h.elim (fun h => .inl (hkey.2 (.inr h))) .inr⟩
    | some table' =>
      rw [hins] at hkey
      simp only [insertItems_hasKey, List.exists_mem_cons_iff]
      rw [show table'.HasKey k ↔ _ from hkey, or_assoc]
      rfl

/-- The thread is in the expected state, under the current epoch of its endpoint. -/
def ExternalDb.terminalFence (db : ExternalDb) (endpointLabel threadId : String) (epoch : ℕ) (finish : Bool) : Bool :=
  (db.threads.rows.any fun r => r.val.thread = (endpointLabel, threadId) ∧ r.val.epoch = epoch ∧
    r.val.state = if finish then ExternalThreadState.reconciling else .ready) &&
  db.endpoints.rows.any fun r => r.val.endpointLabel = endpointLabel ∧ r.val.currentEpoch = epoch

/-- A turn was recorded with another status. -/
def ExternalDb.conflicts (db : ExternalDb) (endpointLabel threadId : String) (turns : List ExternalTurnTerminal) : Bool :=
  turns.any fun turn => (db.turnTerminals.lookup (endpointLabel, threadId, turn.turnId)).any
    fun prior => prior.val.status ≠ turn.status

variable {n : ℕ} {finish : Bool}

theorem terminalFence_eq :
    ((db.threads.rows.any fun r => decide (r.val.thread = (e, t) ∧ r.val.epoch = n) &&
      decide (r.val.state = if finish = true then ExternalThreadState.reconciling else .ready)) &&
      db.endpoints.rows.any fun r => decide (r.val.endpointLabel = e ∧ r.val.currentEpoch = n)) =
        db.terminalFence e t n finish := by
  simp [ExternalDb.terminalFence, Bool.and_assoc]

variable {turns : List ExternalTurnTerminal} {items : List ExternalItemTerminal}

/-- The terminals of a call are recorded when its fence holds and none conflicts, and else nothing is. -/
theorem applyTerminals_cases {o : ExternalApplyOutcome} (h : applyTerminals now e t n turns finish db = .ok (o, db')) :
    db'.threads.rows.map (·.val.thread) = db.threads.rows.map (·.val.thread) ∧
    ((db.terminalFence e t n finish && !db.conflicts e t turns) = false ∧ db'.turnTerminals = db.turnTerminals ∧
        (∀ k, o ≠ .applied k) ∨
      (db.terminalFence e t n finish && !db.conflicts e t turns) = true ∧
        db'.turnTerminals = (insertTerminals e t n turns db.turnTerminals).2 ∧ ∃ k, o = .applied k) := by
  obtain ⟨epoch, he, h⟩ := bind_eq_ok.1 h
  cases epochI64_eq_ok he
  dsimp only at h
  rw [terminalFence_eq] at h
  split at h
  next hstale =>
    cases h
    exact ⟨rfl, .inl ⟨by simp_all, rfl, by simp⟩⟩
  next hcurrent =>
  split at h
  next hconflict =>
    cases h
    have hc : db.conflicts e t turns = true := hconflict
    exact ⟨Table.Maps.map_val (Table.maps_update rfl rfl) fun r _ => by split <;> rfl, .inl ⟨by simp [hc], rfl, by simp⟩⟩
  next hconflict =>
  cases h
  have hc : ¬db.conflicts e t turns = true := hconflict
  refine ⟨?_, .inr ⟨by simp_all, rfl, _, rfl⟩⟩
  cases finish with
  | true => exact Table.Maps.map_val (Table.maps_update rfl rfl) fun r _ => by split <;> rfl
  | false => rfl

/-- The number of distinct members of two lists, of which a third one has exactly those. -/
theorem length_of_mem_append {α : Type} [DecidableEq α] {l l' xs : List α} (h : l'.Nodup)
    (hmem : ∀ x, x ∈ l' ↔ x ∈ l ∨ x ∈ xs) : l'.length = (l ++ xs).dedup.length := by
  refine List.Perm.length_eq ((List.perm_ext_iff_of_nodup h (List.nodup_dedup _)).2 fun x => ?_)
  rw [List.mem_dedup, List.mem_append, hmem]

theorem insert_turnIds (h : s'.db.turnTerminals = (insertTerminals e t epoch turns s.db.turnTerminals).2)
    (thread : String × String) :
    (s'.turnIds thread).length = if thread = (e, t) then (s.turnIds thread ++ turns.map (·.turnId)).dedup.length
      else (s.turnIds thread).length := by
  have hmem : ∀ x, x ∈ s'.turnIds thread ↔ x ∈ s.turnIds thread ∨ thread = (e, t) ∧ ∃ turn ∈ turns, x = turn.turnId := by
    intro x
    rw [mem_turnIds, mem_turnIds, h, insertTerminals_hasKey]
    refine or_congr_right ⟨?_, ?_⟩
    · rintro ⟨turn, hturn, hk⟩
      obtain ⟨he, ht, hx⟩ : thread.1 = e ∧ thread.2 = t ∧ x = turn.turnId := by simpa [Prod.ext_iff] using hk
      exact ⟨Prod.ext he ht, turn, hturn, hx⟩
    · rintro ⟨rfl, turn, hturn, rfl⟩
      exact ⟨turn, hturn, rfl⟩
  split
  next heq =>
    refine length_of_mem_append (turnIds_nodup s' thread) fun x => (hmem x).trans (or_congr_right ?_)
    simp [heq, eq_comm]
  next hne =>
    refine List.Perm.length_eq ((List.perm_ext_iff_of_nodup (turnIds_nodup s' thread) (turnIds_nodup s thread)).2 fun x => ?_)
    exact (hmem x).trans (or_iff_left fun h => hne h.1)

theorem insert_itemIds (h : s'.itemTerminals = (insertItems e t epoch items s.itemTerminals).2)
    (thread : String × String) :
    (s'.itemIds thread).length = if thread = (e, t) then
        (s.itemIds thread ++ items.map fun i => (i.turnId, i.itemId)).dedup.length
      else (s.itemIds thread).length := by
  have hmem : ∀ x, x ∈ s'.itemIds thread ↔
      x ∈ s.itemIds thread ∨ thread = (e, t) ∧ ∃ item ∈ items, x = (item.turnId, item.itemId) := by
    intro x
    rw [mem_itemIds, mem_itemIds, h, insertItems_hasKey]
    refine or_congr_right ⟨?_, ?_⟩
    · rintro ⟨item, hitem, hk⟩
      obtain ⟨ht, hx⟩ := Prod.mk.inj hk
      exact ⟨ht, item, hitem, hx⟩
    · rintro ⟨rfl, item, hitem, rfl⟩
      exact ⟨item, hitem, rfl⟩
  split
  next heq =>
    refine length_of_mem_append (itemIds_nodup s' thread) fun x => (hmem x).trans (or_congr_right ?_)
    simp [heq, eq_comm]
  next hne =>
    refine List.Perm.length_eq ((List.perm_ext_iff_of_nodup (itemIds_nodup s' thread) (itemIds_nodup s thread)).2 fun x => ?_)
    exact (hmem x).trans (or_iff_left fun h => hne h.1)

/-! ## Other operations -/

/-- No terminal is recorded, and no endpoint gets more threads than it may have. -/
structure KeepsTerminals (db db' : ExternalDb) : Prop where
  terminals : db'.turnTerminals = db.turnTerminals
  threads : ∀ e, db.threadCount e ≤ externalManagedThreadCapacity → db'.threadCount e ≤ externalManagedThreadCapacity

theorem threadCount_congr (h : db'.threads.rows.map (·.val.thread) = db.threads.rows.map (·.val.thread)) (e : String) :
    db'.threadCount e = db.threadCount e := by
  have hcount : ∀ db : ExternalDb, db.threadCount e = (db.threads.rows.map (·.val.thread)).countP (·.1 = e) := by
    intro db
    rw [List.countP_map]
    rfl
  rw [hcount, hcount, h]

theorem KeepsTerminals.of_maps {f : Row ManagedThreadRow → ManagedThreadRow} (ht : db'.turnTerminals = db.turnTerminals)
    (h : Table.Maps f db.threads db'.threads) (hf : ∀ r ∈ db.threads.rows, (f r).thread = r.val.thread) : KeepsTerminals db db' :=
  ⟨ht, fun e hle => (threadCount_congr (h.map_val hf) e).trans_le hle⟩

theorem KeepsTerminals.of_eq (ht : db'.turnTerminals = db.turnTerminals) (h : db'.threads = db.threads) : KeepsTerminals db db' :=
  ⟨ht, fun e hle => (threadCount_congr (by rw [h]) e).trans_le hle⟩

variable {u : Unit} {i : ℕ} {l : List ℕ}

theorem registerExternalThread_keepsTerminals (h : registerExternalThread now e t db = .ok (u, db')) :
    KeepsTerminals db db' := by
  unfold registerExternalThread at h
  split at h
  · cases h
  split at h
  · cases h
    exact .of_eq rfl rfl
  next threads hins =>
  split at h
  · cases h
  next hroom =>
  cases h
  obtain ⟨hk, rfl⟩ := Table.insertOrIgnore_eq_some hins
  refine ⟨rfl, fun x hle => ?_⟩
  simp only [ExternalDb.threadCount, Table.insert, List.countP_append, List.countP_singleton]
  -- the endpoint of the new thread had room
  by_cases hx : e = x
  · subst hx
    simpa using Nat.succ_le_of_lt (Nat.lt_of_not_le hroom)
  · simpa [hx, ExternalDb.threadCount] using hle

/-- **Every other operation.** -/
theorem run_keepsTerminals {op : ExternalOp} (h : op.run now db = .ok (u, db'))
    (hop : ∀ e t n turns finish, op = .applyTerminals e t n turns finish → False) : KeepsTerminals db db' := by
  unfold ExternalOp.run at h
  cases op with
  | prepareExternalMutation intent =>
    obtain ⟨_, h, -⟩ := answer_ok h
    rcases prepareExternalMutation_cases h with ⟨-, rfl⟩ | ⟨-, epoch, _, _, _, _, -, -, -, -, -, -, -, rfl⟩
    · exact .of_eq rfl rfl
    · exact .of_eq rfl rfl
  | markExternalMutationSent e t i n | resolveExternalMutation e t i n r | receiveExternalApproval claim
  | resolveExternalApproval e t a n r =>
    obtain ⟨_, h, -⟩ := answer_ok h
    obtain ⟨_, -, h⟩ := bind_eq_ok.1 h
    repeat' split at h
    all_goals first
      | (cases h; exact .of_eq rfl rfl)
      | cases h
  | claimExternalApproval e t a r n =>
    obtain ⟨_, h, -⟩ := answer_ok h
    obtain ⟨_, -, h⟩ := bind_eq_ok.1 h
    simp only at h
    repeat' split at h
    all_goals (cases h; exact .of_eq rfl rfl)
  | resolveExternalApprovalRequest e k n | setExternalEndpointState e n state =>
    obtain ⟨_, h, -⟩ := answer_ok h
    obtain ⟨_, -, h⟩ := bind_eq_ok.1 h
    cases h
    exact .of_eq rfl rfl
  | reserveExternalEpoch e reason =>
    obtain ⟨_, h, -⟩ := answer_ok h
    unfold reserveExternalEpoch at h
    dsimp only at h
    split at h
    · cases h
    · cases h
      exact .of_maps rfl (Table.maps_update rfl rfl) fun r _ => by split <;> rfl
  | markExternalUnavailable e n reason =>
    obtain ⟨_, h, -⟩ := answer_ok h
    obtain ⟨_, -, h⟩ := bind_eq_ok.1 h
    split at h
    · cases h
      exact .of_eq rfl rfl
    · cases h
      exact .of_maps rfl (Table.maps_update rfl rfl) fun r _ => by split <;> rfl
  | reassignExternalApprovalActor e n old new =>
    obtain ⟨_, h, -⟩ := answer_ok h
    obtain ⟨_, -, h⟩ := bind_eq_ok.1 h
    repeat' split at h
    all_goals (cases h; exact .of_eq rfl rfl)
  | registerExternalThread e t =>
    obtain ⟨_, h, -⟩ := answer_ok h
    exact registerExternalThread_keepsTerminals h
  | beginExternalReconciliation e t n | markExternalThreadUncertain e t n reason =>
    obtain ⟨_, h, -⟩ := answer_ok h
    obtain ⟨_, -, h⟩ := bind_eq_ok.1 h
    cases h
    exact .of_maps rfl (Table.maps_update rfl rfl) fun r _ => by split <;> rfl
  | applyTerminals e t n turns finish => exact (hop e t n turns finish rfl).elim

/-! ## Runs -/

/-- A call, with the items that come with terminal turns. -/
structure ProjectionCall where
  op : ExternalOp
  items : List ExternalItemTerminal

def ProjectionCall.check (now : ℤ) (c : ProjectionCall) : Except StoreError Unit :=
  match c.op with
  | .applyTerminals e t _ turns _ => validateTerminalItems e t turns c.items
  | op => op.check now

/-- The job of a call, without its answer. -/
def ProjectionCall.run (now : ℤ) (c : ProjectionCall) : Job ProjectionDb Unit := fun s =>
  match c.op with
  | .applyTerminals e t epoch turns finish =>
    Job.answer (applyTerminalItems now e t epoch turns c.items finish) (fun _ => ()) s
  | op => (op.run now s.db).map fun p => (p.1, { s with db := p.2 })

inductive ProjectionEvent where
  /-- A call, the fate of its request and the clock its job reads. -/
  | call (fate : Fate) (now : ℤ) (c : ProjectionCall)
  /-- The process ends and the database is opened again. -/
  | restart

def projectionStep (w : Writer ProjectionDb) : ProjectionEvent → Writer ProjectionDb
  | .call fate now c => (w.call (c.check now) fate (c.run now)).2
  | .restart => { w with alive := true }

def emptyProjections : Writer ProjectionDb := ⟨⟨.empty, .empty⟩, true⟩

/-- The tables after a run. -/
def projectionsAfter (es : List ProjectionEvent) : ProjectionDb := (exec projectionStep emptyProjections es).db

/-- What a call records fits, together with what is recorded for its thread. -/
def ProjectionDb.fits (s : ProjectionDb) (c : ProjectionCall) : Bool :=
  match c.op with
  | .applyTerminals e t epoch turns finish =>
    !(s.db.terminalFence e t epoch finish && !s.db.conflicts e t turns) ||
      (decide ((s.turnIds (e, t) ++ turns.map (·.turnId)).dedup.length ≤ externalReconcileEntryCapacity) &&
        decide ((s.itemIds (e, t) ++ c.items.map fun i => (i.turnId, i.itemId)).dedup.length ≤
          externalReconcileEntryCapacity))
  | _ => true

/-- Every thread can be read, and every endpoint has few enough of them. -/
structure Readable (s : ProjectionDb) : Prop where
  bounded : ∀ thread, s.Bounded thread
  threads : ∀ e, s.db.threadCount e ≤ externalManagedThreadCapacity

theorem Readable.empty : Readable ⟨.empty, .empty⟩ := by
  constructor
  · intro thread
    simp [ProjectionDb.Bounded, ProjectionDb.turnIds, ProjectionDb.itemIds, ExternalDb.empty, Table.empty]
  · intro e
    simp [ExternalDb.threadCount, ExternalDb.empty, Table.empty]

theorem applyTerminalItems_cases {o : TerminalsOutcome}
    (h : applyTerminalItems now e t n turns items finish s = .ok (o, s')) :
    s'.db.threads.rows.map (·.val.thread) = s.db.threads.rows.map (·.val.thread) ∧
    ((s.db.terminalFence e t n finish && !s.db.conflicts e t turns) = false ∧
        s'.db.turnTerminals = s.db.turnTerminals ∧ s'.itemTerminals = s.itemTerminals ∨
      (s.db.terminalFence e t n finish && !s.db.conflicts e t turns) = true ∧
        s'.db.turnTerminals = (insertTerminals e t n turns s.db.turnTerminals).2 ∧
        s'.itemTerminals = (insertItems e t n items s.itemTerminals).2) := by
  unfold applyTerminalItems at h
  split at h
  · cases h
  next happly =>
    cases h
    obtain ⟨hkeys, ⟨hfence, ht, -⟩ | ⟨-, -, _, ho⟩⟩ := applyTerminals_cases happly
    · exact ⟨hkeys, .inl ⟨hfence, ht, rfl⟩⟩
    · cases ho
  next happly =>
    cases h
    obtain ⟨hkeys, ⟨hfence, ht, -⟩ | ⟨-, -, _, ho⟩⟩ := applyTerminals_cases happly
    · exact ⟨hkeys, .inl ⟨hfence, ht, rfl⟩⟩
    · cases ho
  next happly =>
    cases h
    obtain ⟨hkeys, ⟨-, -, ho⟩ | ⟨hfence, ht, -⟩⟩ := applyTerminals_cases happly
    · exact absurd rfl (ho _)
    · exact ⟨hkeys, .inr ⟨hfence, ht, rfl⟩⟩

variable {c : ProjectionCall}

/-- **One call.** -/
theorem run_readable (hs : Readable s) (hfit : s.fits c = true) (h : c.run now s = .ok (u, s')) :
    Readable s' := by
  unfold ProjectionCall.run at h
  unfold ProjectionDb.fits at hfit
  split at h
  next e t n turns finish hop =>
    obtain ⟨o, h, -⟩ := answer_ok h
    obtain ⟨hkeys, hrec⟩ := applyTerminalItems_cases h
    refine ⟨fun thread => ?_, fun x => (threadCount_congr hkeys x).trans_le (hs.threads x)⟩
    obtain ⟨hturns, hitems⟩ := hs.bounded thread
    rcases hrec with ⟨-, ht, hi⟩ | ⟨hfence, ht, hi⟩
    · unfold ProjectionDb.Bounded ProjectionDb.turnIds ProjectionDb.itemIds
      rw [ht, hi]
      exact ⟨hturns, hitems⟩
    · unfold ProjectionDb.Bounded
      rw [insert_turnIds ht, insert_itemIds hi]
      split
      next heq =>
        subst heq
        simpa [hop, hfence] using hfit
      · exact ⟨hturns, hitems⟩
  next op hop =>
    obtain ⟨⟨u', db'⟩, hrun, heq⟩ := map_eq_ok.1 h
    cases heq
    have hkeeps := run_keepsTerminals hrun hop
    refine ⟨fun thread => ?_, fun x => hkeeps.threads x (hs.threads x)⟩
    unfold ProjectionDb.Bounded ProjectionDb.turnIds
    rw [hkeeps.terminals]
    exact hs.bounded thread

/-- **A call that does not fit** leaves a thread that cannot be read, and with it the endpoint. -/
theorem overfull_thread_unreadable (hfit : s.fits c = false) (h : c.run now s = .ok (u, s')) :
    ∃ e t n turns finish, c.op = .applyTerminals e t n turns finish ∧
      ∀ o, readSnapshot s' e t ≠ .ok o := by
  unfold ProjectionCall.run at h
  unfold ProjectionDb.fits at hfit
  split at h
  next e t n turns finish hop =>
    refine ⟨e, t, n, turns, finish, hop, fun o ho => ?_⟩
    rw [hop] at hfit
    simp only [Bool.or_eq_false_iff, Bool.not_eq_false', Bool.and_eq_false_iff, decide_eq_false_iff_not] at hfit
    obtain ⟨hfence, hover⟩ := hfit
    obtain ⟨o', h, -⟩ := answer_ok h
    obtain ⟨hkeys, ⟨hno, -⟩ | ⟨-, ht, hi⟩⟩ := applyTerminalItems_cases h
    · rw [hfence] at hno
      cases hno
    · rcases readSnapshot_ok.1 ⟨o, ho⟩ with hnone | ⟨hturns, hitems⟩
      · -- the thread that passed the fence is still there
        obtain ⟨r, hr, hp⟩ := List.any_eq_true.1 (Bool.and_eq_true_iff.1 (Bool.and_eq_true_iff.1 hfence).1).1
        have hmem : (e, t) ∈ s'.db.threads.rows.map (·.val.thread) := by
          rw [hkeys]
          exact List.mem_map.2 ⟨r, hr, (of_decide_eq_true hp).1⟩
        obtain ⟨r', hr', hthread⟩ := List.mem_map.1 hmem
        exact Table.lookup_eq_none.1 hnone r' hr' hthread
      · rw [insert_turnIds ht, if_pos rfl] at hturns
        rw [insert_itemIds hi, if_pos rfl] at hitems
        exact hover.elim (· hturns) (· hitems)
  next op hop =>
    split at hfit
    next e t n turns finish hop' => exact (hop e t n turns finish hop').elim
    · cases hfit

/-- What a call that a live writer takes records fits. -/
def Fits (w : Writer ProjectionDb) : ProjectionEvent → Prop
  | .call (.reject _ _) _ _ => True
  | .call _ now c => w.alive = true → c.check now = .ok () → w.db.fits c = true
  | .restart => True

instance (w : Writer ProjectionDb) (e : ProjectionEvent) : Decidable (Fits w e) := by
  unfold Fits
  split <;> infer_instance

/-- **One step.** -/
theorem step_readable (w : Writer ProjectionDb) (e : ProjectionEvent) (hs : Readable w.db) (hfit : Fits w e) :
    Readable (projectionStep w e).db := by
  cases e with
  | restart => exact hs
  | call fate now c =>
    rcases call_takes w (c.check now) fate (c.run now) with hdb | ⟨⟨u, hcheck, hjob⟩, halive, htaken⟩
    · rw [projectionStep, hdb]
      exact hs
    · refine run_readable hs ?_ hjob
      cases fate with
      | reject e b => exact absurd rfl (htaken e b)
      | execute => exact hfit halive hcheck
      | executeThenFail e => exact hfit halive hcheck

/-- **Snapshots stay readable** in every run in which what is recorded for each thread fits. -/
theorem snapshots_stay_readable (es : List ProjectionEvent) (h : Along projectionStep Fits emptyProjections es) (e t : String) :
    (∃ o, readSnapshot (projectionsAfter es) e t = .ok o) ∧
      ∃ snapshots, externalManagedThreads (projectionsAfter es) e = .ok snapshots := by
  have hs : Readable (projectionsAfter es) := exec_invariant (I := fun w => Readable w.db) step_readable Readable.empty h
  exact ⟨readSnapshot_ok.2 (.inr (hs.bounded (e, t))), externalManagedThreads_ok (hs.threads e) fun t => hs.bounded (e, t)⟩

/-! ## Two runs -/

/-- The call answers with a value. -/
def Succeeds (w : Writer ProjectionDb) : ProjectionEvent → Prop
  | .call fate now c => (w.call (c.check now) fate (c.run now)).1 = .ok ()
  | .restart => True

instance (w : Writer ProjectionDb) (e : ProjectionEvent) : Decidable (Succeeds w e) := by
  cases e <;> unfold Succeeds <;> infer_instance

/-- A thread under reconciliation. -/
def reconcilingRun : List ProjectionEvent :=
  [ .call .execute 0 ⟨.reserveExternalEpoch "e" .bridgeRestart, []⟩, .call .execute 0 ⟨.registerExternalThread "e" "t", []⟩,
    .call .execute 0 ⟨.beginExternalReconciliation "e" "t" 1, []⟩ ]

/-- It is reconciled with one turn and its item, and the turn is reported again with one more. -/
def recordingRun : List ProjectionEvent :=
  reconcilingRun ++ [ .call .execute 0 ⟨.applyTerminals "e" "t" 1 [⟨"u", .completed⟩] true, [⟨"u", "i"⟩]⟩,
    .call .execute 0 ⟨.applyTerminals "e" "t" 1 [⟨"u", .completed⟩, ⟨"v", .failed⟩] false, [⟨"u", "j"⟩]⟩ ]

theorem snapshots_stay_readable_recordingRun : Along projectionStep Fits emptyProjections recordingRun ∧
    (projectionsAfter recordingRun).turnIds ("e", "t") = ["u", "v"] ∧
    (∃ o, readSnapshot (projectionsAfter recordingRun) "e" "t" = .ok o) ∧
      ∃ snapshots, externalManagedThreads (projectionsAfter recordingRun) "e" = .ok snapshots := by
  have h : Along projectionStep Fits emptyProjections recordingRun := by decide
  exact ⟨h, by decide, snapshots_stay_readable _ h "e" "t"⟩

/-- Distinct completed turns, with one character for an id. -/
def numberedTurn (i : ℕ) : ExternalTurnTerminal := ⟨String.singleton (Char.ofNat (97 + i)), .completed⟩

theorem numberedTurn_inj {j : ℕ} (hi : i ≤ externalReconcileEntryCapacity) (hj : j ≤ externalReconcileEntryCapacity)
    (h : (numberedTurn i).turnId = (numberedTurn j).turnId) : i = j := by
  have hval : ∀ i ≤ externalReconcileEntryCapacity, (Char.ofNat (97 + i)).toNat = 97 + i := by
    intro i hi
    have hvalid : (97 + i).isValidChar := .inl (by unfold externalReconcileEntryCapacity at hi; omega)
    rw [Char.ofNat, dif_pos hvalid]
    rfl
  have h := congrArg Char.toNat (String.singleton_inj.1 h)
  rw [hval i hi, hval j hj] at h
  omega

theorem numberedTurn_valid (i : ℕ) (context : String) : validateId (numberedTurn i).turnId routingIdByteLimit context = .ok () := by
  have hpos := Char.utf8Size_pos (Char.ofNat (97 + i))
  have hle := Char.utf8Size_le_four (Char.ofNat (97 + i))
  have hsize : (numberedTurn i).turnId.utf8ByteSize = (Char.ofNat (97 + i)).utf8Size := by simp [numberedTurn]
  unfold validateId routingIdByteLimit
  rw [if_neg (by omega)]

theorem numberedTurns_check (hl : l.length ≤ externalReconcileEntryCapacity) (finish : Bool) :
    (⟨.applyTerminals "e" "t" 1 (l.map numberedTurn) finish, []⟩ : ProjectionCall).check 0 = .ok () := by
  have hpair : validatePair "e" "t" "recording external terminals" = .ok () := by decide
  simp only [ProjectionCall.check, validateTerminalItems, hpair, List.length_map, List.length_nil]
  rw [seq_eq_ok]
  refine ⟨rfl, ?_⟩
  rw [if_neg (by omega), seq_eq_ok]
  refine ⟨forM_eq_ok.2 fun turn hturn => ?_, rfl⟩
  obtain ⟨i, -, rfl⟩ := List.mem_map.1 hturn
  exact numberedTurn_valid i _

theorem conflicts_of_fresh (h : ∀ turn ∈ turns, turn.turnId ∉ s.turnIds (e, t)) :
    s.db.conflicts e t turns = false := by
  refine List.any_eq_false.2 fun turn hturn => ?_
  have hnone : s.db.turnTerminals.lookup (e, t, turn.turnId) = none :=
    Table.lookup_eq_none.2 fun r hr hk => h turn hturn (mem_turnIds.2 ⟨r, hr, hk⟩)
  rw [hnone]
  exact Bool.false_ne_true

/-- A call whose fence holds and none of whose turns is recorded yet. -/
theorem run_fresh (now : ℤ) (items : List ExternalItemTerminal) (turns : List ExternalTurnTerminal)
    (hn : epochI64 n = .ok n) (hfence : s.db.terminalFence e t n finish = true)
    (hfresh : ∀ turn ∈ turns, turn.turnId ∉ s.turnIds (e, t)) :
    ∃ s', (⟨.applyTerminals e t n turns finish, items⟩ : ProjectionCall).run now s = .ok ((), s') ∧
      s'.db.turnTerminals = (insertTerminals e t n turns s.db.turnTerminals).2 ∧
      (finish = true → s'.db.terminalFence e t n false = true) := by
  have hconflicts : ¬s.db.conflicts e t turns = true := by simp [conflicts_of_fresh hfresh]
  have hjob : applyTerminals now e t n turns finish s.db = .ok (.applied (insertTerminals e t n turns s.db.turnTerminals).1,
      { s.db with
        turnTerminals := (insertTerminals e t n turns s.db.turnTerminals).2
        threads := if finish then s.db.threads.updateWhere (fun r => r.val.thread = (e, t) ∧ r.val.epoch = n)
            fun r => { r with state := .ready, reason := none, updatedMs := now }
          else s.db.threads }) := by
    refine bind_eq_ok.2 ⟨n, hn, ?_⟩
    dsimp only
    rw [terminalFence_eq, hfence, if_neg (by simp)]
    exact if_neg hconflicts
  refine ⟨_, by simp only [ProjectionCall.run, Job.answer, applyTerminalItems, hjob]; rfl, rfl, ?_⟩
  rintro rfl
  obtain ⟨hthread, hepoch⟩ := Bool.and_eq_true_iff.1 hfence
  refine Bool.and_eq_true_iff.2 ⟨?_, hepoch⟩
  obtain ⟨r, hr, hp⟩ := List.any_eq_true.1 hthread
  obtain ⟨ht, hn, -⟩ := of_decide_eq_true hp
  refine List.any_eq_true.2 ⟨_, List.mem_map_of_mem hr, ?_⟩
  rw [Row.update_of_pos (decide_eq_true ⟨ht, hn⟩)]
  exact decide_eq_true ⟨ht, hn, rfl⟩

theorem step_execute {w : Writer ProjectionDb} (halive : w.alive = true) (hcheck : c.check now = .ok ())
    (hrun : c.run now w.db = .ok ((), s')) :
    Succeeds w (.call .execute now c) ∧ projectionStep w (.call .execute now c) = { w with db := s' } := by
  have hcall : w.call (c.check now) .execute (c.run now) = (.ok (), { w with db := s' }) := by
    unfold Writer.call Writer.runSized
    rw [hcheck, halive]
    simp only [hrun, if_true]
  exact ⟨congrArg Prod.fst hcall, congrArg Prod.snd hcall⟩

/-- The thread is reconciled with some turns, and one more is recorded. -/
def overfullRun (l : List ℕ) (i : ℕ) : List ProjectionEvent :=
  reconcilingRun ++
    [ .call .execute 0 ⟨.applyTerminals "e" "t" 1 (l.map numberedTurn) true, []⟩,
      .call .execute 0 ⟨.applyTerminals "e" "t" 1 ([i].map numberedTurn) false, []⟩ ]

/-- Every call of the run succeeds, and the thread cannot be read any more once it has as many turns as one call may
bring. -/
theorem overfullRun_unreadable (hl : l.length = externalReconcileEntryCapacity) (hnodup : l.Nodup)
    (hle : ∀ j ∈ l, j ≤ externalReconcileEntryCapacity) (hi : i ≤ externalReconcileEntryCapacity) (hnew : i ∉ l) :
    Along projectionStep Succeeds emptyProjections (overfullRun l i) ∧
      ∀ o, readSnapshot (projectionsAfter (overfullRun l i)) "e" "t" ≠ .ok o := by
  have hstart : Along projectionStep Succeeds emptyProjections reconcilingRun := by decide
  have halive : (exec projectionStep emptyProjections reconcilingRun).alive = true := by decide
  have hfence : (exec projectionStep emptyProjections reconcilingRun).db.db.terminalFence "e" "t" 1 true = true := by
    decide
  have hempty : (exec projectionStep emptyProjections reconcilingRun).db.turnIds ("e", "t") = [] := by decide
  unfold projectionsAfter overfullRun
  rw [exec_append, along_append]
  generalize exec projectionStep emptyProjections reconcilingRun = w at halive hfence hempty ⊢
  -- the thread takes as many turns as one call may bring
  obtain ⟨s₁, hrun₁, hinsert₁, hready⟩ := run_fresh 0 [] (l.map numberedTurn) (n := 1) rfl hfence
    (by simp [hempty])
  obtain ⟨hsucc₁, hstep₁⟩ := step_execute halive (numberedTurns_check hl.le true) hrun₁
  have hmem : ∀ x, x ∈ s₁.turnIds ("e", "t") ↔ ∃ j ∈ l, x = (numberedTurn j).turnId := by
    intro x
    rw [mem_turnIds, hinsert₁, insertTerminals_hasKey, ← @mem_turnIds _ ("e", "t"), hempty]
    simp
  have hlength : (s₁.turnIds ("e", "t")).length = externalReconcileEntryCapacity := by
    rw [insert_turnIds hinsert₁, if_pos rfl, hempty, List.nil_append, List.map_map, List.Nodup.dedup, List.length_map, hl]
    exact hnodup.map_on fun j hj k hk h => numberedTurn_inj (hle j hj) (hle k hk) h
  -- and then one more
  have hfresh : (numberedTurn i).turnId ∉ s₁.turnIds ("e", "t") := by
    intro h
    obtain ⟨j, hj, heq⟩ := (hmem _).1 h
    exact hnew (numberedTurn_inj hi (hle j hj) heq ▸ hj)
  obtain ⟨s₂, hrun₂, hinsert₂, -⟩ := run_fresh 0 [] ([i].map numberedTurn) (n := 1) rfl (hready rfl)
    (by simpa using hfresh)
  have hcheck₂ : [i].length ≤ externalReconcileEntryCapacity := by simp [externalReconcileEntryCapacity]
  obtain ⟨hsucc₂, hstep₂⟩ := step_execute (w := { w with db := s₁ }) halive (numberedTurns_check hcheck₂ false) hrun₂
  have hover : (s₁.turnIds ("e", "t") ++ ([i].map numberedTurn).map (·.turnId)).dedup.length =
      externalReconcileEntryCapacity + 1 := by
    rw [List.Nodup.dedup, List.length_append, hlength]
    · rfl
    · exact (turnIds_nodup s₁ _).append (List.nodup_singleton _) (List.disjoint_singleton.2 hfresh)
  have hunfit : s₁.fits ⟨.applyTerminals "e" "t" 1 ([i].map numberedTurn) false, []⟩ = false := by
    have hconflicts : s₁.db.conflicts "e" "t" ([i].map numberedTurn) = false := conflicts_of_fresh (by simpa using hfresh)
    simp only [ProjectionDb.fits, hready rfl, hconflicts, hover]
    simp
  obtain ⟨e, t, n, turns, finish, hop, hread⟩ := overfull_thread_unreadable hunfit hrun₂
  cases hop
  have hexec : exec projectionStep w [.call .execute 0 ⟨.applyTerminals "e" "t" 1 (l.map numberedTurn) true, []⟩,
      .call .execute 0 ⟨.applyTerminals "e" "t" 1 ([i].map numberedTurn) false, []⟩] = { w with db := s₂ } := by
    simp only [exec, List.foldl_cons, List.foldl_nil, hstep₁, hstep₂]
  rw [hexec]
  refine ⟨⟨hstart, hsucc₁, ?_⟩, hread⟩
  rw [hstep₁]
  exact ⟨hsucc₂, trivial⟩

/-- A thread outgrows what can be read of it by calls that all succeed. -/
theorem grown_thread_unreadable : ¬∀ es, Along projectionStep Succeeds emptyProjections es → ∀ e t,
    (∃ o, readSnapshot (projectionsAfter es) e t = .ok o) ∧
      ∃ snapshots, externalManagedThreads (projectionsAfter es) e = .ok snapshots := by
  intro h
  obtain ⟨hsucc, hread⟩ := overfullRun_unreadable (l := List.range externalReconcileEntryCapacity)
    (i := externalReconcileEntryCapacity) List.length_range List.nodup_range (fun j hj => (List.mem_range.1 hj).le) le_rfl
    (by simp)
  obtain ⟨⟨o, ho⟩, -⟩ := h _ hsucc "e" "t"
  exact hread o ho

end LarkCodexBridge.External

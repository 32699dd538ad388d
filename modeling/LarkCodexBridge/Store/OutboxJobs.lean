import LarkCodexBridge.Store.Outbox

/-!
# What the outbox jobs do to the table

Two shapes cover all of them. The jobs of other tasks only add due-ordered pending rows and delete terminal ones
(`Grows`; `EnqueueRule` is the rule for such relations). The jobs of the pump rewrite the columns of rows that stay
(`Table.Maps`: one lemma for each receipt, the claim, the release and the recovery).
-/

namespace LarkCodexBridge.Store

open Limits SqlTable Outbox

variable {C : Codec} {r : OutboxRow}

theorem live_iff : r.live = true ↔ r.state = .pending ∨ r.state = .sending := by
  simp [OutboxRow.live]

theorem live_of_pending (h : r.state = .pending) : r.live = true := live_iff.2 (.inl h)

theorem live_of_sending (h : r.state = .sending) : r.live = true := live_iff.2 (.inr h)

/-! ## Growth -/

/-- `t'` has the live rows of `t`, perhaps fewer terminal ones, and new pending rows that are due no earlier than any
live row before them. -/
structure Grows (t t' : OutboxTable) : Prop where
  nextSerial_le : t.nextSerial ≤ t'.nextSerial
  old_or_new : ∀ r ∈ t'.rows, r ∈ t.rows ∨ (t.nextSerial ≤ r.serial ∧ r.val.state = .pending ∧
    ∀ q ∈ t'.rows, q.val.live → q.serial < r.serial → q.val.nextRetryMs ≤ r.val.nextRetryMs)
  live_kept : ∀ r ∈ t.rows, r.val.live → r ∈ t'.rows

theorem Grows.refl (t : OutboxTable) : Grows t t := ⟨Nat.le_refl _, fun _ hr => .inl hr, fun _ hr _ => hr⟩

variable {t t' : OutboxTable}

theorem Grows.trans {t'' : OutboxTable} (h : Grows t t') (h' : Grows t' t'') : Grows t t'' where
  nextSerial_le := Nat.le_trans h.nextSerial_le h'.nextSerial_le
  old_or_new := by
    intro r hr
    rcases h'.old_or_new r hr with hr' | ⟨hs, hp, hq⟩
    · rcases h.old_or_new r hr' with hr'' | ⟨hs, hp, hq⟩
      · exact .inl hr''
      · refine .inr ⟨hs, hp, fun q hq' hlive hlt => ?_⟩
        rcases h'.old_or_new q hq' with hq'' | ⟨hqs, -, -⟩
        · exact hq q hq'' hlive hlt
        · exact absurd (t'.serial_lt_next r hr') (by omega)
    · exact .inr ⟨Nat.le_trans h.nextSerial_le hs, hp, hq⟩
  live_kept := fun r hr hl => h'.live_kept r (h.live_kept r hr hl) hl

theorem le_retryWatermark {r : Row OutboxRow} (hr : r ∈ t.rows) (hl : r.val.live = true) :
    r.val.nextRetryMs ≤ retryWatermark t := by
  have hm : r.val.nextRetryMs ∈ (liveRows t).map (·.val.nextRetryMs) :=
    List.mem_map_of_mem (List.mem_filter.2 ⟨hr, hl⟩)
  unfold retryWatermark
  cases h : ((liveRows t).map (·.val.nextRetryMs)).max? with
  | none => rw [List.max?_eq_none_iff] at h; rw [h] at hm; cases hm
  | some m => exact (List.max?_eq_some_iff.1 h).2 _ hm

theorem sweepTerminalRowsInline_grows (olderThanMs : ℤ) (maxRows : ℕ) (t : OutboxTable) :
    Grows t (sweepTerminalRowsInline C olderThanMs maxRows t).2 := by
  refine ⟨Nat.le_refl _, fun r hr => .inl (Table.mem_deleteWhere.1 hr).1, fun r hr hl => ?_⟩
  refine Table.mem_deleteWhere.2 ⟨hr, ?_⟩
  by_contra h
  simp only [Bool.not_eq_false, List.any_eq_true, beq_iff_eq] at h
  obtain ⟨q, hq, hid⟩ := h
  have hq := (List.perm_insertionSort sweepOrder _).mem_iff.1 (List.mem_of_mem_take hq)
  obtain ⟨hqt, hsw⟩ := List.mem_filter.1 hq
  rw [Table.eq_of_id hqt hr hid] at hsw
  simp only [sweepable, decide_eq_true_eq] at hsw
  rcases live_iff.1 hl with h | h <;> rw [h] at hsw <;> simp at hsw

theorem insertOrIgnore_grows {a : OutboxRow} (h : t.insertOrIgnore a = some t') (hs : a.state = .pending)
    (hw : retryWatermark t ≤ a.nextRetryMs) : Grows t t' := by
  obtain ⟨hk, rfl⟩ := Table.insertOrIgnore_eq_some h
  refine ⟨by simp, fun r hr => ?_, fun r hr _ => Table.mem_insert.2 (.inl hr)⟩
  rcases Table.mem_insert.1 hr with hr | rfl
  · exact .inl hr
  · refine .inr ⟨Nat.le_refl _, hs, fun q hq hl hlt => ?_⟩
    rcases Table.mem_insert.1 hq with hq | rfl
    · exact (le_retryWatermark hq hl).trans hw
    · exact absurd hlt (Nat.lt_irrefl _)

variable {now : ℤ}

/-- What `enqueue_one` does: nothing for a known key, else room is made and the row inserted behind the watermark. -/
theorem enqueueOne_cases {row : NewOutboxRow} {o : OutboxEnqueue} (h : enqueueOne C now row t = .ok (o, t')) :
    t' = t ∨ liveCapacity t row.payloadJson.utf8ByteSize = true ∧
      ∃ t₁, enforceTotalCap C now row.payloadJson.utf8ByteSize t = .ok t₁ ∧
      (t' = t₁ ∨ t₁.insertOrIgnore (row.columns now (max row.nextRetryMs (retryWatermark t₁))) = some t') := by
  unfold enqueueOne at h
  obtain ⟨⟨retry, t₁⟩, h₁, h⟩ := bind_eq_ok.1 h
  -- the row that is read back is in the table the insertion left
  have hins : t' = t₁ ∨ t₁.insertOrIgnore (row.columns now retry) = some t' := by
    cases hi : t₁.insertOrIgnore (row.columns now retry) with
    | none =>
      simp only [hi] at h
      split at h
      · cases h
      · cases h; exact .inl rfl
    | some t₂ =>
      simp only [hi] at h
      split at h
      · cases h
      · cases h; exact .inr rfl
  unfold admitOne at h₁
  cases hk : t.lookup row.idempotencyKey with
  | some r =>
    rw [hk] at h₁
    cases h₁
    rcases hins with rfl | hins
    · exact .inl rfl
    · obtain ⟨hne, -⟩ := Table.insertOrIgnore_eq_some hins
      obtain ⟨hr, hrk⟩ := Table.lookup_eq_some.1 hk
      exact absurd hrk (hne r hr)
  | none =>
    rw [hk] at h₁
    simp only [Option.isSome_none, Bool.false_eq_true, if_false] at h₁
    split at h₁
    · cases h₁
    · next hlive =>
      obtain ⟨t₂, ht₂, h₂⟩ := bind_eq_ok.1 h₁
      cases h₂
      exact .inr ⟨by simpa using hlive, t₁, ht₂, hins⟩

/-- Relations between two tables that every enqueue and every sweep establishes: they hold of a table with itself and in
sequence, and for the deletion of terminal rows and the insertion of a pending row behind the watermark. -/
structure EnqueueRule (C : Codec) (R : OutboxTable → OutboxTable → Prop) : Prop where
  refl : ∀ t, R t t
  trans : ∀ {t t' t''}, R t t' → R t' t'' → R t t''
  sweep : ∀ olderThanMs maxRows t, R t (sweepTerminalRowsInline C olderThanMs maxRows t).2
  insert : ∀ {t t' a}, t.insertOrIgnore a = some t' → a.state = .pending → retryWatermark t ≤ a.nextRetryMs → R t t'

namespace EnqueueRule

variable {R : OutboxTable → OutboxTable → Prop} (hR : EnqueueRule C R) {now : ℤ} {t t' : OutboxTable}
  {row : NewOutboxRow} {o : OutboxEnqueue} {rows : List NewOutboxRow} {os : List OutboxEnqueue}
include hR

theorem enforceTotalCap {payloadBytes : ℕ} (h : enforceTotalCap C now payloadBytes t = .ok t') : R t t' := by
  unfold Store.enforceTotalCap at h
  simp only at h
  split at h
  · cases h
    exact hR.refl _
  · split at h
    · cases h
      exact hR.sweep _ _ _
    · cases h

theorem enqueueOne (h : enqueueOne C now row t = .ok (o, t')) : R t t' := by
  rcases enqueueOne_cases h with rfl | ⟨-, t₁, hcap, rfl | hins⟩
  · exact hR.refl _
  · exact hR.enforceTotalCap hcap
  · exact hR.trans (hR.enforceTotalCap hcap) (hR.insert hins rfl (le_max_right _ _))

theorem enqueueAll (h : enqueueAll C now rows t = .ok (os, t')) :
    R t t' := by
  induction rows generalizing t os with
  | nil =>
    cases h
    exact hR.refl _
  | cons row rows ih =>
    obtain ⟨⟨o, t₁⟩, h₁, h⟩ := bind_eq_ok.1 h
    obtain ⟨⟨os', t₂⟩, h₂, h⟩ := bind_eq_ok.1 h
    cases h
    exact hR.trans (hR.enqueueOne h₁) (ih h₂)

theorem enqueueOutbox (h : enqueueOutbox C now row t = .ok (o, t')) :
    R t t' := by
  obtain ⟨_, -, h⟩ := bind_eq_ok.1 h
  exact hR.enqueueOne h

theorem enqueueOutboxBatch (h : enqueueOutboxBatch C now rows t = .ok (os, t')) : R t t' := by
  unfold Store.enqueueOutboxBatch at h
  split at h
  · cases h
  · obtain ⟨_, -, h⟩ := bind_eq_ok.1 h
    exact hR.enqueueAll h

theorem enqueueInboundReply {notice : NewOutboxRow} (h : enqueueInboundReplyInTransaction C now notice t = .ok t') :
    R t t' := by
  obtain ⟨known, -, h⟩ := bind_eq_ok.1 h
  split at h
  · cases h
    exact hR.refl _
  · split at h
    · cases h
    · obtain ⟨t₁, hcap, h⟩ := bind_eq_ok.1 h
      split at h
      · next hins =>
        cases h
        exact hR.trans (hR.enforceTotalCap hcap) (hR.insert hins rfl (le_max_right _ _))
      · cases h

theorem sweepTerminalOutbox {olderThanMs : ℤ} {maxRows n : ℕ}
    (h : sweepTerminalOutbox C olderThanMs maxRows t = .ok (n, t')) : R t t' := by
  cases h
  exact hR.sweep _ _ _

end EnqueueRule

theorem growsRule : EnqueueRule C Grows :=
  ⟨Grows.refl, Grows.trans, sweepTerminalRowsInline_grows, insertOrIgnore_grows⟩

/-! ## Rewriting -/

variable {id n : ℕ}

theorem requireSending_ok {context : String} (h : requireSending id context t = .ok n) :
    ∃ r ∈ t.rows, r.id = id ∧ r.val.state = .sending ∧ r.val.attempts = n := by
  unfold requireSending at h
  split at h
  · cases h
  · next r hr =>
    obtain ⟨hr, hid⟩ := Table.get?_eq_some.1 hr
    split at h
    · next hs => cases h; exact ⟨r, hr, hid, hs, rfl⟩
    · cases h

/-- The row `id` rewritten by `g`, the others as they are. -/
def setRow (id : ℕ) (g : OutboxRow → OutboxRow) (r : Row OutboxRow) : OutboxRow :=
  if r.id = id then g r.val else r.val

/-- The row `id` rewritten by `g`, the later live rows parked behind it. -/
def setAndPark (now retryMs : ℤ) (id : ℕ) (g : OutboxRow → OutboxRow) (r : Row OutboxRow) : OutboxRow :=
  if r.id = id then g r.val else if id < r.id ∧ r.val.live = true then parkRow now retryMs r.val else r.val

theorem updateWhere_setRow (t : OutboxTable) (id : ℕ) (g : OutboxRow → OutboxRow) (hg) :
    Table.Maps (setRow id g) t (t.updateWhere (·.id == id) g hg) :=
  Table.Maps.congr (t.updateWhere_maps _ g hg) fun r _ => by simp [setRow]

theorem parkSuccessors_setAndPark (now retryMs : ℤ) (t : OutboxTable) (id : ℕ) (g : OutboxRow → OutboxRow) (hg) :
    Table.Maps (setAndPark now retryMs id g) t (parkSuccessors now id retryMs (t.updateWhere (·.id == id) g hg)) := by
  refine ((updateWhere_setRow t id g hg).trans (Table.updateWhere_maps _ _ (parkRow now retryMs) _)).congr ?_
  intro r _
  by_cases h : r.id = id
  · simp [setRow, setAndPark, h]
  · simp [setRow, setAndPark, h]

variable {u : Unit} {attempts : ℕ} {retryMs : ℤ}

theorem completeOutbox_ok {m : String} (h : completeOutbox now id m t = .ok (u, t')) :
    (∃ r ∈ t.rows, r.id = id ∧ r.val.state = .sending) ∧
      Table.Maps (setRow id fun r => { r with state := .sent, receiptMessageId := some m, updatedMs := now }) t t' := by
  obtain ⟨n, hr, h⟩ := bind_eq_ok.1 h
  obtain ⟨r, hr, hid, hs, -⟩ := requireSending_ok hr
  cases h
  exact ⟨⟨r, hr, hid, hs⟩, updateWhere_setRow _ _ _ _⟩

theorem failOutbox_ok (h : failOutbox now id attempts retryMs true t = .ok (u, t')) :
    (∃ r ∈ t.rows, r.id = id ∧ r.val.state = .sending) ∧
      Table.Maps (setRow id fun r =>
        { r with state := .uncertainDelivery, attempts := attempts, nextRetryMs := retryMs, updatedMs := now }) t t' := by
  obtain ⟨n, hr, h⟩ := bind_eq_ok.1 h
  obtain ⟨r, hr, hid, hs, -⟩ := requireSending_ok hr
  split at h
  · cases h
  · cases h
    exact ⟨⟨r, hr, hid, hs⟩, updateWhere_setRow _ _ _ _⟩

theorem failOutboxTerminal_ok (h : failOutboxTerminal now id t = .ok (u, t')) :
    (∃ r ∈ t.rows, r.id = id ∧ r.val.state = .sending) ∧
      Table.Maps (setRow id fun r => { r with state := .failed, updatedMs := now }) t t' := by
  obtain ⟨n, hr, h⟩ := bind_eq_ok.1 h
  obtain ⟨r, hr, hid, hs, -⟩ := requireSending_ok hr
  cases h
  exact ⟨⟨r, hr, hid, hs⟩, updateWhere_setRow _ _ _ _⟩

/-- Below the attempt cap the row and its successors are parked; at the cap only the row changes. -/
theorem failOutboxAndDeferSuccessors_ok {deferred : Bool}
    (h : failOutboxAndDeferSuccessors now id attempts retryMs t = .ok (deferred, t')) :
    (∃ r ∈ t.rows, r.id = id ∧ r.val.state = .sending) ∧ deferred = decide (attempts < storeOutboxMaxAttempts) ∧
      if attempts < storeOutboxMaxAttempts then
        Table.Maps (setAndPark now retryMs id fun r =>
          { r with state := .pending, attempts := attempts, nextRetryMs := retryMs, updatedMs := now }) t t'
      else
        Table.Maps (setRow id fun r =>
          { r with state := .failed, attempts := attempts, nextRetryMs := retryMs, updatedMs := now }) t t' := by
  obtain ⟨n, hr, h⟩ := bind_eq_ok.1 h
  obtain ⟨r, hr, hid, hs, -⟩ := requireSending_ok hr
  split at h
  · cases h
  · by_cases hd : attempts < storeOutboxMaxAttempts
    · simp only [hd, decide_true, if_true] at h ⊢
      cases h
      exact ⟨⟨r, hr, hid, hs⟩, rfl, parkSuccessors_setAndPark _ _ _ _ _ _⟩
    · simp only [hd, decide_false, if_false, Bool.false_eq_true] at h ⊢
      cases h
      exact ⟨⟨r, hr, hid, hs⟩, rfl, updateWhere_setRow _ _ _ _⟩

theorem replaceOutboxWithFallback_ok {payloadJson : String}
    (h : replaceOutboxWithFallback now id payloadJson t = .ok (u, t')) :
    (∃ r ∈ t.rows, r.id = id ∧ r.val.state = .sending) ∧
      Table.Maps (setAndPark now now id fun r =>
        { r with
          payloadJson := payloadJson
          payloadBytes := payloadJson.utf8ByteSize
          state := .pending
          attempts := 0
          nextRetryMs := now
          updatedMs := now }) t t' := by
  unfold replaceOutboxWithFallback at h
  split at h
  · cases h
  · obtain ⟨n, hr, h⟩ := bind_eq_ok.1 h
    obtain ⟨r, hr, hid, hs, -⟩ := requireSending_ok hr
    dsimp only at h
    split at h
    · cases h
    · cases h
      exact ⟨⟨r, hr, hid, hs⟩, parkSuccessors_setAndPark _ _ _ _ _ _⟩

theorem releaseOutboxClaimAt_ok (h : releaseOutboxClaimAt now id retryMs t = .ok (u, t')) :
    (∃ r ∈ t.rows, r.id = id ∧ r.val.state = .sending) ∧
      Table.Maps (setRow id fun r => { r with state := .pending, nextRetryMs := retryMs, updatedMs := now }) t t' := by
  obtain ⟨n, hr, h⟩ := bind_eq_ok.1 h
  obtain ⟨r, hr, hid, hs, -⟩ := requireSending_ok hr
  cases h
  exact ⟨⟨r, hr, hid, hs⟩, updateWhere_setRow _ _ _ _⟩

/-- Every claimed row becomes uncertain, the others stay. -/
def recoverRow (now : ℤ) (r : Row OutboxRow) : OutboxRow :=
  if r.val.state = .sending then { r.val with state := .uncertainDelivery, updatedMs := now } else r.val

theorem recoverSendingOutbox_ok (h : recoverSendingOutbox now t = .ok (n, t')) :
    Table.Maps (recoverRow now) t t' := by
  cases h
  exact Table.Maps.congr (Table.maps_update rfl rfl) fun r _ => by simp [recoverRow]

/-! ## The claim -/

theorem takeClaim_isPrefixOf (limit : ℕ) : ∀ (rows : List (Row OutboxRow)) (count bytes : ℕ),
    takeClaim limit rows count bytes <+: rows
  | [], _, _ => List.nil_prefix
  | r :: rs, count, bytes => by
    unfold takeClaim
    split
    · exact List.nil_prefix
    · exact (List.prefix_cons_inj r).2 (takeClaim_isPrefixOf limit rs _ _)

/-- Row `r` is set to `sending` where it is one of `rows`. -/
def claimRow (now : ℤ) (rows : List (Row OutboxRow)) (r : Row OutboxRow) : OutboxRow :=
  if r ∈ rows then setSending now r.val else r.val

/-- A claim takes a prefix of the due pending rows, in the order of the table. -/
theorem claimOutboxBatch_ok {readAt : ℤ} {limit : ℕ} {batch : List (Row OutboxRow)}
    (h : claimOutboxBatch now readAt limit t = .ok (batch, t')) :
    ∃ rows, rows <+: t.rows.filter (due readAt) ∧ batch = rows.map claimed ∧ Table.Maps (claimRow now rows) t t' := by
  cases h
  have hpre := takeClaim_isPrefixOf (min limit storeOutboxClaimMaxBatch) (t.rows.filter (due readAt)) 0 0
  refine ⟨_, hpre, rfl, Table.Maps.congr (Table.maps_update rfl rfl) fun r hr => ?_⟩
  have hmem : (takeClaim (min limit storeOutboxClaimMaxBatch) (t.rows.filter (due readAt)) 0 0).any (·.id == r.id) =
      decide (r ∈ takeClaim (min limit storeOutboxClaimMaxBatch) (t.rows.filter (due readAt)) 0 0) := by
    rw [Bool.eq_iff_iff, List.any_eq_true, decide_eq_true_eq]
    constructor
    · rintro ⟨q, hq, hid⟩
      have hqt := List.mem_of_mem_filter (hpre.subset hq)
      rwa [← Table.eq_of_id hqt hr (by simpa using hid)]
    · exact fun hr => ⟨r, hr, by simp⟩
  simp only [hmem, claimRow, decide_eq_true_eq]

end LarkCodexBridge.Store

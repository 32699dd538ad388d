import LarkCodexBridge.Outbox.Sink

/-!
# Progress cards and the rows that name them

An update of a progress card and its end name the row of the card by its key, inside the payload. The sweep leaves a
progress row alone while a live row names it, so the row is there when the pump looks it up, however long the dependent
row waits.

* `Since`: what becomes of rows between two moments, and that named progress rows stay;
* `Steady`, `Steady.stepTo`: one step keeps the copies of the pump in step with the table, whatever becomes of its calls;
* `validProgressDependency_update`, `validProgressDependency_finalize`: the keys that are accepted for a dependent;
* `anchors_outlive_dependents`: the card of a live dependent is there, with its receipt.
-/

namespace LarkCodexBridge.Outbox

open Limits SqlTable Store StepSystem Fallible

variable {C : Codec} {config : OutboxPumpConfig} {a b : OutboxRow} {r r' r'' : Row OutboxRow}

/-! ## Anchors of payloads -/

/-- The store reads the anchor of a payload as the codec does. -/
structure Codec.ReadsAnchors (C : Codec) : Prop where
  v1 : ∀ json dto, C.payloadV1 json = some dto → C.jsonAnchorKey json = dto.anchorKey
  v2 : ∀ json dto, C.payloadV2 json = some dto → C.jsonAnchorKey json = dto.anchorKey

section Decoding

variable {operation : OutboxOperation} {dto : PayloadV2} {json k : String}

theorem decodeReply_anchorKey (h : decodeReply C dto = .ok operation) : operation.anchorKey? = none := by
  unfold decodeReply at h
  split at h
  · cases h
  · obtain ⟨-, h⟩ := check_eq_ok.1 h
    obtain ⟨-, h⟩ := check_eq_ok.1 h
    obtain ⟨-, h⟩ := seq_eq_ok.1 h
    split at h
    · cases h
      rfl
    · cases h
      rfl
    · split at h
      · cases h
      · cases h
        rfl
    · cases h
      rfl
    · cases h

theorem decodeProgressUpdate_anchorKey (h : decodeProgressUpdate dto = .ok operation) :
    operation.anchorKey? = dto.anchorKey := by
  unfold decodeProgressUpdate at h
  split at h
  · cases h
  · next hkey =>
    obtain ⟨-, h⟩ := check_eq_ok.1 h
    cases h
    rw [hkey]
    rfl

theorem decodeProgressFinalization_anchorKey (h : decodeProgressFinalization dto = .ok operation) :
    operation.anchorKey? = dto.anchorKey := by
  unfold decodeProgressFinalization at h
  split at h
  · next hkey _ =>
    split at h
    · obtain ⟨-, h⟩ := check_eq_ok.1 h
      obtain ⟨-, h⟩ := seq_eq_ok.1 h
      split at h
      · obtain ⟨phase, -, h⟩ := bind_eq_ok.1 h
        cases h
        rw [hkey]
        rfl
      · obtain ⟨phase, -, h⟩ := bind_eq_ok.1 h
        cases h
        rw [hkey]
        rfl
    · cases h
  · cases h

theorem decodeV1_anchorKey {dto : PayloadV1} (h : decodeV1 C dto = .ok operation) (hk : operation.anchorKey? = some k) :
    dto.anchorKey = some k := by
  unfold decodeV1 at h
  split at h
  · rw [decodeReply_anchorKey h] at hk
    cases hk
  · rw [decodeReply_anchorKey h] at hk
    cases hk
  · exact (decodeProgressUpdate_anchorKey h).symm.trans hk
  · exact (decodeProgressFinalization_anchorKey h).symm.trans hk
  · cases h

theorem decodeV2_anchorKey (h : decodeV2 C dto = .ok operation) (hk : operation.anchorKey? = some k) :
    dto.anchorKey = some k := by
  unfold decodeV2 at h
  split at h
  iterate 4
    · rw [decodeReply_anchorKey h] at hk
      cases hk
  · exact (decodeProgressUpdate_anchorKey h).symm.trans hk
  · exact (decodeProgressFinalization_anchorKey h).symm.trans hk
  · cases h

/-- A payload that is read as a dependent of a card names the card for the sweep too. -/
theorem decode_anchorKey (hA : C.ReadsAnchors) (h : OutboxOperation.decode C json = .ok operation)
    (hk : operation.anchorKey? = some k) : C.jsonAnchorKey json = some k := by
  obtain ⟨-, h⟩ := check_eq_ok.1 h
  split at h
  · cases h
  · split at h
    · cases h
    · next hdto =>
      rw [hA.v1 _ _ hdto]
      exact decodeV1_anchorKey h hk
  · split at h
    · cases h
    · next hdto =>
      rw [hA.v2 _ _ hdto]
      exact decodeV2_anchorKey h hk
  · cases h

theorem jsonAnchorKey_markdownPost (hC : C.RoundTrips) (hA : C.ReadsAnchors) {m x : String} {t : Option String}
    (h : OutboxOperation.encode C (.replyMarkdownPost m t x) = .ok json) : C.jsonAnchorKey json = none := by
  obtain ⟨-, hwrite, -⟩ := of_encode h
  rw [hA.v2 _ _ (hC.payload _ _ hwrite)]
  rfl

end Decoding

/-! ## Rows at two moments -/

/-- A row that is `sent` was read by the pump and has its receipt. -/
def Receipted (C : Codec) (a : OutboxRow) : Prop :=
  a.state = .sent → (∃ m, m ≠ "" ∧ a.receiptMessageId = some m) ∧
    ∃ operation, OutboxOperation.decode C a.payloadJson = .ok operation

/-- What the jobs make of the columns of a row: only a final card gets another payload, which names no card, and a row
that is no longer live stays as it is. -/
structure Rewrites (C : Codec) (a b : OutboxRow) : Prop where
  key : b.idempotencyKey = a.idempotencyKey
  scope : b.scopeKey = a.scopeKey
  kind : b.kind = a.kind
  payload : b.payloadJson = a.payloadJson ∨ mayFallBack C a.payloadJson = true ∧ C.jsonAnchorKey b.payloadJson = none
  receipt : b = a ∨ Receipted C b
  settled : a.live = false → b = a

theorem Rewrites.refl (a : OutboxRow) : Rewrites C a a := ⟨rfl, rfl, rfl, .inl rfl, .inl rfl, fun _ => rfl⟩

theorem Rewrites.trans {c : OutboxRow} (h : Rewrites C a b) (h' : Rewrites C b c) : Rewrites C a c where
  key := h'.key.trans h.key
  scope := h'.scope.trans h.scope
  kind := h'.kind.trans h.kind
  payload := by
    rcases h.payload with heq | ⟨hfinal, hnone⟩
    · rw [← heq]
      exact h'.payload
    · refine .inr ⟨hfinal, ?_⟩
      rcases h'.payload with heq' | ⟨-, hnone'⟩
      · rw [heq']
        exact hnone
      · exact hnone'
  receipt := by
    rcases h'.receipt with rfl | hr
    · exact h.receipt
    · exact .inr hr
  settled := by
    intro hl
    obtain rfl := h.settled hl
    exact h'.settled hl

/-- A live row that keeps its payload and is not sent. -/
theorem Rewrites.of_live (hl : a.live = true) (hkey : b.idempotencyKey = a.idempotencyKey)
    (hscope : b.scopeKey = a.scopeKey) (hkind : b.kind = a.kind) (hpay : b.payloadJson = a.payloadJson)
    (hstate : b.state ≠ .sent) : Rewrites C a b :=
  ⟨hkey, hscope, hkind, .inl hpay, .inr fun h => absurd h hstate, fun hd => by simp [hl] at hd⟩

/-- `r` at a later moment. -/
structure Becomes (C : Codec) (r r' : Row OutboxRow) : Prop where
  id : r'.id = r.id
  serial : r'.serial = r.serial
  val : Rewrites C r.val r'.val

theorem Becomes.refl (r : Row OutboxRow) : Becomes C r r := ⟨rfl, rfl, .refl _⟩

theorem Becomes.trans (h : Becomes C r r') (h' : Becomes C r' r'') : Becomes C r r'' :=
  ⟨h'.id.trans h.id, h'.serial.trans h.serial, h.val.trans h'.val⟩

variable {k : String}

theorem Becomes.names (h : Becomes C r r') (hl : r'.val.live = true) (hk : C.jsonAnchorKey r'.val.payloadJson = some k) :
    r.val.live = true ∧ r'.val.payloadJson = r.val.payloadJson := by
  constructor
  · by_contra hd
    rw [Bool.not_eq_true] at hd
    rw [h.val.settled hd, hd] at hl
    cases hl
  · rcases h.val.payload with heq | ⟨-, hnone⟩
    · exact heq
    · rw [hnone] at hk
      cases hk

/-- **What lies between two moments.** Rows stay what they are or are new, and a progress row that a live row names is
kept. -/
structure Since (C : Codec) (t t' : OutboxTable) : Prop where
  nextSerial_le : t.nextSerial ≤ t'.nextSerial
  origin : ∀ r' ∈ t'.rows, (∃ r ∈ t.rows, Becomes C r r') ∨ t.nextSerial ≤ r'.serial ∧ Receipted C r'.val
  kept : ∀ a ∈ t.rows, a.val.kind = "progress" → ∀ d ∈ t'.rows, d.val.live = true → d.serial < t.nextSerial →
    C.jsonAnchorKey d.val.payloadJson = some a.val.idempotencyKey → ∃ a' ∈ t'.rows, Becomes C a a'

theorem Since.refl (t : OutboxTable) : Since C t t :=
  ⟨le_rfl, fun r hr => .inl ⟨r, hr, .refl r⟩, fun a ha _ _ _ _ _ _ => ⟨a, ha, .refl a⟩⟩

variable {t t' : OutboxTable} {f : Row OutboxRow → OutboxRow}

theorem Since.trans {t'' : OutboxTable} (h : Since C t t') (h' : Since C t' t'') : Since C t t'' where
  nextSerial_le := h.nextSerial_le.trans h'.nextSerial_le
  origin := by
    intro r'' hr''
    rcases h'.origin r'' hr'' with ⟨r', hr', hb'⟩ | ⟨hnew, hreceipt⟩
    · rcases h.origin r' hr' with ⟨r, hr, hb⟩ | ⟨hnew, hreceipt⟩
      · exact .inl ⟨r, hr, hb.trans hb'⟩
      · refine .inr ⟨hb'.serial ▸ hnew, ?_⟩
        rcases hb'.val.receipt with heq | hr
        · rw [heq]
          exact hreceipt
        · exact hr
    · exact .inr ⟨h.nextSerial_le.trans hnew, hreceipt⟩
  kept := by
    intro a ha hkind d'' hd'' hl hlt hk
    rcases h'.origin d'' hd'' with ⟨d', hd', hb⟩ | ⟨hnew, -⟩
    · -- the dependent was live then and named the same key
      obtain ⟨hl', hpay⟩ := hb.names hl hk
      obtain ⟨a', ha', hba⟩ := h.kept a ha hkind d' hd' hl' (hb.serial ▸ hlt) (hpay ▸ hk)
      obtain ⟨a'', ha'', hba'⟩ := h'.kept a' ha' (hba.val.kind.trans hkind) d'' hd'' hl (hlt.trans_le h.nextSerial_le)
        (hba.val.key ▸ hk)
      exact ⟨a'', ha'', hba.trans hba'⟩
    · exact absurd (hlt.trans_le h.nextSerial_le) (not_lt.2 hnew)

/-- Rows that are rewritten in place. -/
theorem Since.of_maps (hm : Table.Maps f t t') (hf : ∀ r ∈ t.rows, Rewrites C r.val (f r)) : Since C t t' where
  nextSerial_le := hm.nextSerial_eq.ge
  origin := by
    intro r' hr'
    obtain ⟨r, hr, rfl⟩ := hm.mem.1 hr'
    exact .inl ⟨r, hr, rfl, rfl, hf r hr⟩
  kept := fun a ha _ _ _ _ _ _ => ⟨_, hm.mem.2 ⟨a, ha, rfl⟩, rfl, rfl, hf a ha⟩

/-! ## Jobs of other tasks -/

theorem sweepTerminalRowsInline_since (olderThanMs : ℤ) (maxRows : ℕ) (t : OutboxTable) :
    Since C t (sweepTerminalRowsInline C olderThanMs maxRows t).2 where
  nextSerial_le := le_rfl
  origin := fun r hr => .inl ⟨r, (Table.mem_deleteWhere.1 hr).1, .refl r⟩
  kept := by
    intro a ha hkind d hd hl _ hk
    refine ⟨a, Table.mem_deleteWhere.2 ⟨ha, ?_⟩, .refl a⟩
    by_contra hchosen
    simp only [Bool.not_eq_false, List.any_eq_true, beq_iff_eq] at hchosen
    obtain ⟨q, hq, hid⟩ := hchosen
    obtain ⟨hqt, hsweepable⟩ := List.mem_filter.1
      ((List.perm_insertionSort sweepOrder _).mem_iff.1 (List.mem_of_mem_take hq))
    rw [Table.eq_of_id hqt ha hid] at hsweepable
    simp only [sweepable, decide_eq_true_eq] at hsweepable
    exact hsweepable.2.2 ⟨hkind, d, (Table.mem_deleteWhere.1 hd).1, hl, hk⟩

theorem insertOrIgnore_since (h : t.insertOrIgnore a = some t') (hs : a.state = .pending) :
    Since C t t' := by
  obtain ⟨hk, rfl⟩ := Table.insertOrIgnore_eq_some h
  refine ⟨by simp, fun r hr => ?_, fun a ha _ _ _ _ _ _ => ⟨a, Table.mem_insert.2 (.inl ha), .refl a⟩⟩
  rcases Table.mem_insert.1 hr with hr | rfl
  · exact .inl ⟨r, hr, .refl r⟩
  · refine .inr ⟨le_rfl, fun hsent => ?_⟩
    rw [show a.state = .sent from hsent] at hs
    cases hs

theorem enqueueRule_since : EnqueueRule C (Since C) where
  refl := Since.refl
  trans := Since.trans
  sweep := sweepTerminalRowsInline_since
  insert := fun h hs _ => insertOrIgnore_since h hs

/-! ## One job -/

/-- `r'` is the row of `r` and live, with the columns that its delivery depends on. -/
structure Carries (r r' : Row OutboxRow) : Prop where
  id : r'.id = r.id
  serial : r'.serial = r.serial
  key : r'.val.idempotencyKey = r.val.idempotencyKey
  scope : r'.val.scopeKey = r.val.scopeKey
  kind : r'.val.kind = r.val.kind
  payload : r'.val.payloadJson = r.val.payloadJson
  live : r'.val.live = true

theorem Carries.trans (h : Carries r r') (h' : Carries r' r'') : Carries r r'' :=
  ⟨h'.id.trans h.id, h'.serial.trans h.serial, h'.key.trans h.key, h'.scope.trans h.scope, h'.kind.trans h.kind,
    h'.payload.trans h.payload, h'.live⟩

/-- A job that claims nothing, and leaves the live rows alone but for those with an id in `touched`. -/
structure Advances (C : Codec) (touched : ℕ → Prop) (t t' : OutboxTable) : Prop where
  since : Since C t t'
  sending : ∀ r' ∈ t'.rows, r'.val.state = .sending → r' ∈ t.rows
  others : ∀ r ∈ t.rows, r.val.live = true → ¬touched r.id → ∃ r' ∈ t'.rows, Carries r r'

variable {touched : ℕ → Prop} {t t' : OutboxTable}

theorem Advances.refl (t : OutboxTable) : Advances C touched t t :=
  ⟨.refl t, fun _ hr _ => hr, fun r hr hl _ => ⟨r, hr, rfl, rfl, rfl, rfl, rfl, rfl, hl⟩⟩

theorem Advances.of_grows (hs : Since C t t') (hg : Grows t t') : Advances C touched t t' where
  since := hs
  sending := by
    intro r hr hsending
    rcases hg.old_or_new r hr with hold | ⟨-, hp, -⟩
    · exact hold
    · rw [hsending] at hp
      cases hp
  others := fun r hr hl _ => ⟨r, hg.live_kept r hr hl, rfl, rfl, rfl, rfl, rfl, rfl, hl⟩

variable {id : ℕ} {g : OutboxRow → OutboxRow}

/-- The job of a receipt or a release: it rewrites one claimed row, and may move others back to `pending`. -/
theorem Advances.of_maps (hm : Table.Maps f t t')
    (hid : ∀ r ∈ t.rows, r.id = id → Rewrites C r.val (f r) ∧ (f r).state ≠ .sending)
    (hother : ∀ r ∈ t.rows, r.id ≠ id → f r = r.val ∨ r.val.live = true ∧ ∃ now retryMs, f r = parkRow now retryMs r.val) :
    Advances C (· = id) t t' where
  since := by
    refine .of_maps hm fun r hr => ?_
    by_cases h : r.id = id
    · exact (hid r hr h).1
    · rcases hother r hr h with heq | ⟨hl, now, retryMs, heq⟩
      · rw [heq]
        exact .refl _
      · rw [heq]
        exact .of_live hl rfl rfl rfl rfl (by simp [parkRow])
  sending := by
    intro r' hr' hs
    obtain ⟨r, hr, rfl⟩ := hm.mem.1 hr'
    by_cases h : r.id = id
    · exact absurd hs (hid r hr h).2
    · rcases hother r hr h with heq | ⟨-, now, retryMs, heq⟩
      · simp only [heq]
        exact hr
      · rw [show f r = _ from heq] at hs
        cases hs
  others := by
    intro r hr hl hne
    refine ⟨_, hm.mem.2 ⟨r, hr, rfl⟩, ?_⟩
    rcases hother r hr hne with heq | ⟨-, now, retryMs, heq⟩
    · simp only [heq]
      exact ⟨rfl, rfl, rfl, rfl, rfl, rfl, hl⟩
    · simp only [heq]
      exact ⟨rfl, rfl, rfl, rfl, rfl, rfl, rfl⟩

theorem Advances.setRow (hrow : ∃ r ∈ t.rows, r.id = id ∧ r.val.state = .sending) (hm : Table.Maps (setRow id g) t t')
    (hg : ∀ r ∈ t.rows, r.id = id → r.val.state = .sending → Rewrites C r.val (g r.val))
    (hs : ∀ a, (g a).state ≠ .sending) : Advances C (· = id) t t' := by
  obtain ⟨r₀, hr₀, hid₀, hs₀⟩ := hrow
  refine .of_maps hm (fun r hr hid => ?_) fun r hr hid => ?_
  · rw [Store.setRow, if_pos hid]
    refine ⟨hg r hr hid ?_, hs _⟩
    rw [Table.eq_of_id hr hr₀ (hid.trans hid₀.symm)]
    exact hs₀
  · rw [Store.setRow, if_neg hid]
    exact .inl rfl

variable {now retryMs : ℤ} {payload : String}

theorem Advances.setAndPark (hrow : ∃ r ∈ t.rows, r.id = id ∧ r.val.state = .sending)
    (hm : Table.Maps (setAndPark now retryMs id g) t t')
    (hg : ∀ r ∈ t.rows, r.id = id → r.val.state = .sending → Rewrites C r.val (g r.val))
    (hs : ∀ a, (g a).state ≠ .sending) : Advances C (· = id) t t' := by
  obtain ⟨r₀, hr₀, hid₀, hs₀⟩ := hrow
  refine .of_maps hm (fun r hr hid => ?_) fun r hr hid => ?_
  · rw [Store.setAndPark, if_pos hid]
    refine ⟨hg r hr hid ?_, hs _⟩
    rw [Table.eq_of_id hr hr₀ (hid.trans hid₀.symm)]
    exact hs₀
  · rw [Store.setAndPark, if_neg hid]
    split
    · next hlater => exact .inr ⟨hlater.2, now, retryMs, rfl⟩
    · exact .inl rfl

/-! ## Receipts -/

/-- A receipt is recorded for a payload that was read, and is not empty; the fallback is for a final card and names no
card itself. -/
def ReceiptWrite.Sound (C : Codec) (payload : String) : ReceiptWrite → Prop
  | .complete messageId => messageId ≠ "" ∧ ∃ operation, OutboxOperation.decode C payload = .ok operation
  | .fallback payloadJson => mayFallBack C payload = true ∧ C.jsonAnchorKey payloadJson = none
  | _ => True

variable {w : ReceiptWrite}

theorem ReceiptWrite.Sound.reissue (h : w.Sound C payload) (now : ℤ) :
    (w.reissue now).Sound C payload := by
  cases w <;> exact h

theorem recordFailure_sound (now : ℤ) (row : Row OutboxRow) (cls : DeliveryClass) (payload : String) :
    (recordFailure config now row cls).Sound C payload := by
  cases cls <;> trivial

variable {row : Row OutboxRow}

theorem recordOutcome_sound (hC : C.RoundTrips) (hA : C.ReadsAnchors) {operation : OutboxOperation}
    {request : OutboundRequest} {outcome : Except DeliveryError String}
    (hop : OutboxOperation.decode C row.val.payloadJson = .ok operation) :
    (recordOutcome C config now row operation request outcome).Sound C row.val.payloadJson := by
  cases outcome with
  | ok messageId =>
    simp only [recordOutcome]
    split
    · trivial
    · next hne => exact ⟨hne, operation, hop⟩
  | error e =>
    rcases @recordOutcome_error_cases C config now row operation request e with
      ⟨cls, hw⟩ | ⟨k, m, t, x, f, phase, json, rfl, hjson, hw⟩
    · rw [hw]
      exact recordFailure_sound now row cls _
    · rw [hw]
      exact ⟨by simp [mayFallBack, hop], jsonAnchorKey_markdownPost hC hA hjson⟩

/-- A sound receipt for a row with the payload it was computed from. -/
theorem ReceiptWrite.job_advances (hw : w.Sound C payload) {deferred : Bool}
    (hpay : ∀ r ∈ t.rows, r.val.state = .sending → r.id = id → r.val.payloadJson = payload)
    (h : w.job now id t = .ok (deferred, t')) : Advances C (· = id) t t' := by
  cases w with
  | complete messageId =>
    obtain ⟨⟨u, t₁⟩, hj, he⟩ := map_eq_ok.1 h
    cases he
    obtain ⟨hrow, hm⟩ := completeOutbox_ok hj
    refine .setRow hrow hm (fun r hr hid hs => ?_) (by simp)
    refine ⟨rfl, rfl, rfl, .inl rfl, .inr fun _ => ⟨⟨messageId, hw.1, rfl⟩, ?_⟩, ?_⟩
    · rw [show _ = payload from hpay r hr hs hid]
      exact hw.2
    · simp [live_of_sending hs]
  | failUncertain attempts retryMs =>
    obtain ⟨⟨u, t₁⟩, hj, he⟩ := map_eq_ok.1 h
    cases he
    obtain ⟨hrow, hm⟩ := failOutbox_ok hj
    exact .setRow hrow hm (fun r _ _ hs => .of_live (live_of_sending hs) rfl rfl rfl rfl (by simp)) (by simp)
  | failAndDefer attempts retryMs =>
    obtain ⟨hrow, -, hm⟩ := failOutboxAndDeferSuccessors_ok h
    split at hm
    · exact .setAndPark hrow hm (fun r _ _ hs => .of_live (live_of_sending hs) rfl rfl rfl rfl (by simp)) (by simp)
    · exact .setRow hrow hm (fun r _ _ hs => .of_live (live_of_sending hs) rfl rfl rfl rfl (by simp)) (by simp)
  | failTerminal =>
    obtain ⟨⟨u, t₁⟩, hj, he⟩ := map_eq_ok.1 h
    cases he
    obtain ⟨hrow, hm⟩ := failOutboxTerminal_ok hj
    exact .setRow hrow hm (fun r _ _ hs => .of_live (live_of_sending hs) rfl rfl rfl rfl (by simp)) (by simp)
  | fallback payloadJson =>
    obtain ⟨⟨u, t₁⟩, hj, he⟩ := map_eq_ok.1 h
    cases he
    obtain ⟨hrow, hm⟩ := replaceOutboxWithFallback_ok hj
    refine .setAndPark hrow hm (fun r hr hid hs => ?_) (by simp)
    refine ⟨rfl, rfl, rfl, .inr ⟨?_, hw.2⟩, .inr (by simp [Receipted]), by simp [live_of_sending hs]⟩
    rw [hpay r hr hs hid]
    exact hw.1

theorem releaseOutboxClaimAt_advances {u : Unit} (h : releaseOutboxClaimAt now id retryMs t = .ok (u, t')) :
    Advances C (· = id) t t' := by
  obtain ⟨hrow, hm⟩ := releaseOutboxClaimAt_ok h
  exact .setRow hrow hm (fun r _ _ hs => .of_live (live_of_sending hs) rfl rfl rfl rfl (by simp)) (by simp)

/-! ## The copies of the pump -/

/-- **The invariant.** The copies of the pump are of rows that are live, or of the row whose receipt is being written;
what it read of them is what they hold, and its receipts are sound. -/
structure Steady (C : Codec) (s : System) : Prop where
  held_ids : (s.phase.held.map (·.id)).Nodup
  queue : ∀ q ∈ s.phase.queue, ∃ r ∈ s.writer.db.rows, Carries q r
  current : ∀ c ∈ s.phase.current, ∀ r ∈ s.writer.db.rows, r.val.state = .sending → r.id = c.1.id →
    r.val.payloadJson = c.1.val.payloadJson
  decoded : ∀ d ∈ s.phase.decoded, OutboxOperation.decode C d.1.val.payloadJson = .ok d.2
  sound : ∀ c ∈ s.phase.current, c.2.Sound C c.1.val.payloadJson

variable {s : System}

/-- A pump without copies. -/
theorem Steady.of_held (h : s.phase.held = []) : Steady C s := by
  have hcur : s.phase.current = none := by
    cases hc : s.phase.current with
    | none => rfl
    | some c => simp [Phase.held, hc] at h
  have hqueue : s.phase.queue = [] := by simpa [Phase.held, hcur] using h
  have hdec : s.phase.decoded = none := by
    cases hp : s.phase with
    | lookup row operation anchorKey rest | sending row operation request rest => simp [hp, Phase.queue] at hqueue
    | _ => rfl
  constructor <;> simp [h, hcur, hqueue, hdec]

variable {s' : System}

/-- The job advances the table, and the pump goes on with fewer copies, none of a row that was touched. -/
theorem Steady.advance (h : Steady C s) (ha : Advances C touched s.writer.db s'.writer.db)
    (hheld : s'.phase.held.Sublist s.phase.held) (hqueue : ∀ q ∈ s'.phase.queue, q ∈ s.phase.queue ∧ ¬touched q.id)
    (hcurrent : ∀ c ∈ s'.phase.current, c.2.Sound C c.1.val.payloadJson ∧
      (c.1 ∈ s.phase.queue ∨ ∃ w, (c.1, w) ∈ s.phase.current))
    (hdecoded : ∀ d ∈ s'.phase.decoded, OutboxOperation.decode C d.1.val.payloadJson = .ok d.2) : Steady C s' where
  held_ids := h.held_ids.sublist (hheld.map _)
  queue := by
    intro q hq
    obtain ⟨hq, hne⟩ := hqueue q hq
    obtain ⟨r, hr, hc⟩ := h.queue q hq
    obtain ⟨r', hr', hc'⟩ := ha.others r hr hc.live (hc.id ▸ hne)
    exact ⟨r', hr', hc.trans hc'⟩
  current := by
    intro c hc r hr hs hid
    have hold := ha.sending r hr hs
    rcases (hcurrent c hc).2 with hq | ⟨w, hcur⟩
    · obtain ⟨r₀, hr₀, hcarry⟩ := h.queue c.1 hq
      rw [Table.eq_of_id hold hr₀ (hid.trans hcarry.id.symm)]
      exact hcarry.payload
    · exact h.current _ hcur r hold hs hid
  decoded := hdecoded
  sound := fun c hc => (hcurrent c hc).1

/-- The pump goes on with fewer copies, and the table is as it was. -/
theorem Steady.rephase (h : Steady C s) (hdb : s'.writer.db = s.writer.db) (hheld : s'.phase.held.Sublist s.phase.held)
    (hqueue : ∀ q ∈ s'.phase.queue, q ∈ s.phase.queue)
    (hcurrent : ∀ c ∈ s'.phase.current, c.2.Sound C c.1.val.payloadJson ∧
      (c.1 ∈ s.phase.queue ∨ ∃ w, (c.1, w) ∈ s.phase.current))
    (hdecoded : ∀ d ∈ s'.phase.decoded, OutboxOperation.decode C d.1.val.payloadJson = .ok d.2) : Steady C s' := by
  have ha : Advances C (fun _ => False) s.writer.db s'.writer.db := by
    rw [hdb]
    exact .refl _
  exact h.advance ha hheld (fun q hq => ⟨hqueue q hq, id⟩) hcurrent hdecoded

theorem Steady.keep (h : Steady C s) (ha : Advances C (fun _ => False) s.writer.db s'.writer.db)
    (hp : s'.phase = s.phase) : Steady C s' := by
  refine h.advance ha ?_ ?_ ?_ ?_
  · rw [hp]
  · rw [hp]
    exact fun q hq => ⟨hq, id⟩
  · rw [hp]
    exact fun c hc => ⟨h.sound c hc, .inr ⟨c.2, hc⟩⟩
  · rw [hp]
    exact h.decoded

/-! ## One event -/

variable {rest rows : List (Row OutboxRow)} {readAt : ℤ} {e : Event}

/-- The first queued copy becomes the row of a receipt. -/
theorem Steady.record (h : Steady C s) (hq : s.phase.queue = row :: rest) (hw : w.Sound C row.val.payloadJson) :
    Steady C (s.record row w rest) := by
  have hrow : row ∈ s.phase.queue := by simp [hq]
  refine h.rephase rfl ?_ ?_ ?_ ?_
  · show (row :: rest).Sublist _
    rw [← hq]
    exact List.sublist_append_right _ _
  · intro q hq'
    rw [hq]
    exact List.mem_cons_of_mem _ hq'
  · intro c hc
    cases hc
    exact ⟨hw, .inl hrow⟩
  · simp [System.record, Phase.decoded]

/-- The pump reads its first queued copy. -/
theorem Steady.read (h : Steady C s) (hq : s.phase.queue = row :: rest) {operation : OutboxOperation}
    (hop : OutboxOperation.decode C row.val.payloadJson = .ok operation) (hdb : s'.writer.db = s.writer.db)
    (hqueue : s'.phase.queue = row :: rest) (hcur : s'.phase.current = none)
    (hdec : s'.phase.decoded = some (row, operation)) : Steady C s' := by
  refine h.rephase hdb ?_ ?_ ?_ ?_
  · simp only [Phase.held, hcur, hqueue, hq, Option.map_none, Option.toList_none, List.nil_append]
    exact List.sublist_append_right _ _
  · rw [hqueue, ← hq]
    exact fun q hq' => hq'
  · simp [hcur]
  · intro d hd
    rw [hdec] at hd
    cases hd
    exact hop

/-- What a store request of the pump does: the table moves on, and the copies stay in step with it. -/
def Moves (C : Codec) (s s' : System) : Prop := Since C s.writer.db s'.writer.db ∧ Steady C s'

/-- The table is as it was. -/
theorem Moves.of_db (hdb : s'.writer.db = s.writer.db) (h : Steady C s') : Moves C s s' :=
  ⟨hdb ▸ .refl _, h⟩

theorem recover_since (hm : Table.Maps (recoverRow now) t t') : Since C t t' := by
  refine .of_maps hm fun r hr => ?_
  unfold recoverRow
  split
  · next hs => exact .of_live (live_of_sending hs) rfl rfl rfl rfl (by simp)
  · exact .refl _

theorem claim_since (hpre : rows <+: t.rows.filter (due readAt)) (hm : Table.Maps (claimRow now rows) t t') :
    Since C t t' := by
  refine .of_maps hm fun r hr => ?_
  unfold claimRow
  split
  · next hmem =>
    obtain ⟨-, hdue⟩ := List.mem_filter.1 (hpre.subset hmem)
    simp only [due, decide_eq_true_eq] at hdue
    exact .of_live (live_of_pending hdue.1) rfl rfl rfl rfl (by simp [setSending])
  · exact .refl _

/-- The copies of a claim are of rows that are `sending` now. -/
theorem Steady.claim (hpre : rows <+: s.writer.db.rows.filter (due readAt))
    (hm : Table.Maps (claimRow now rows) s.writer.db t) :
    Steady C { s with writer := { s.writer with db := t }, phase := .batch (rows.map claimed) } := by
  have hsub : rows.Sublist s.writer.db.rows := hpre.sublist.trans List.filter_sublist
  constructor
  · show (List.map (·.id) (rows.map claimed)).Nodup
    rw [List.map_map]
    have hnodup : (s.writer.db.rows.map (·.id)).Nodup := List.pairwise_map.2 (s.writer.db.id_lt.imp Nat.ne_of_lt)
    exact hnodup.sublist (hsub.map _)
  · intro q hq
    obtain ⟨r, hr, rfl⟩ := List.mem_map.1 hq
    refine ⟨_, hm.mem.2 ⟨r, hsub.subset hr, rfl⟩, ?_⟩
    simp only [claimRow, hr, if_true]
    exact ⟨rfl, rfl, rfl, rfl, rfl, rfl, rfl⟩
  · simp [Phase.current]
  · simp [Phase.decoded]
  · simp [Phase.current]

/-- A receipt that is committed, whatever it is answered with. -/
theorem Steady.receipt (h : Steady C s) {write : ReceiptWrite} {left : ℕ} {deferred : Bool}
    (hp : s.phase = .receipt row write left rest) (hj : write.job s.clock row.id s.writer.db = .ok (deferred, t))
    {p : Phase} (hn : p = .idle ∨ p = .batch rest ∨ p = .backoff row write left rest) (alive : Bool) :
    Moves C s { s with writer := { db := t, alive := alive }, phase := p } := by
  have hcur : (row, write) ∈ s.phase.current := by rw [hp]; rfl
  have hids := h.held_ids
  rw [hp] at hids
  replace hids := (List.nodup_cons.1 hids).1
  -- the receipt touches no row of the rest
  have hrest : ∀ q ∈ rest, ¬q.id = row.id := fun q hq heq => hids (List.mem_map.2 ⟨q, hq, heq⟩)
  have hadv : Advances C (· = row.id) s.writer.db t := ReceiptWrite.job_advances (h.sound _ hcur) (h.current _ hcur) hj
  refine ⟨hadv.since, ?_⟩
  rcases hn with rfl | rfl | rfl
  · exact .of_held rfl
  all_goals
    refine h.advance hadv ?_ ?_ ?_ ?_
    · simp [hp, Phase.held, Phase.current, Phase.queue]
    · rw [hp]
      exact fun q hq => ⟨hq, hrest q hq⟩
    · intro c hc
      cases hc
      try exact ⟨h.sound _ hcur, .inr ⟨write, hcur⟩⟩
    · simp [Phase.decoded]

/-- **One step** keeps the copies of the pump in step with the table, whatever becomes of its calls. -/
theorem Steady.stepTo (hC : C.RoundTrips) (hA : C.ReadsAnchors) (h : Steady C s) (m : StepTo C config s e s') :
    Moves C s s' := by
  induction m with
  | same => exact .of_db rfl h
  | tick => exact .of_db rfl (h.keep (.refl _) rfl)
  | enqueued ht =>
    have hadv : Advances C (fun _ => False) s.writer.db _ := .of_grows (ht enqueueRule_since) (ht growsRule)
    exact ⟨hadv.since, h.keep hadv rfl⟩
  | flags _ hw _ hp _ ih => exact ⟨hw ▸ ih.1, ih.2.keep (by rw [hw]; exact .refl _) hp⟩
  | refused _ hdb _ ih => exact ⟨hdb ▸ ih.1, ih.2.keep (by rw [hdb]; exact .refl _) rfl⟩
  | @drop s' _ p hp ih =>
    refine ⟨ih.1, .of_held ?_⟩
    show p.held = []
    unfold Phase.Empty at hp
    split at hp <;> first | rfl | cases hp
  | restart => exact .of_db rfl (.of_held rfl)
  | record hp hw =>
    refine .of_db rfl (h.record hp.queue ?_)
    rcases hw with rfl | ⟨cls, rfl⟩
    · trivial
    · exact recordFailure_sound _ _ _ _
  | lookup hp hop | deliver hp hop => exact .of_db rfl (h.read (by rw [hp]; rfl) hop rfl rfl rfl rfl)
  | @anchored row rest operation _ _ hp =>
    exact .of_db rfl (h.read (by rw [hp]; rfl) (h.decoded (row, operation) (by rw [hp]; rfl)) rfl rfl rfl rfl)
  | @returned row rest operation request outcome _ hp =>
    have h' : Steady C { s with log := s.log ++ [.returned row operation request outcome] } := h.keep (.refl _) rfl
    exact .of_db rfl (h'.record (by rw [hp]; rfl) (recordOutcome_sound hC hA (h.decoded (row, operation) (by rw [hp]; rfl))))
  | cut hp | unsent hp | gaveUp hp =>
    refine .of_db rfl (h.rephase rfl ?_ ?_ ?_ ?_)
    · simp [hp, releaseTail, Phase.held, Phase.current, Phase.queue]
    · rw [hp]
      intro q hq
      first | exact hq | exact List.mem_cons_of_mem _ hq
    · simp [releaseTail, Phase.current]
    · simp [releaseTail, Phase.decoded]
  | recovered hm => exact ⟨recover_since hm, .of_held rfl⟩
  | claimed _ hpre hm => exact ⟨claim_since hpre hm, .claim hpre hm⟩
  | @kept readAt row rest hp =>
    refine .of_db rfl (h.rephase rfl ?_ ?_ ?_ ?_)
    all_goals cases rest <;> simp +contextual [hp, releaseTail, Phase.held, Phase.current, Phase.queue, Phase.decoded]
  | @released readAt row rest t hp hj =>
    have hids := h.held_ids
    rw [hp] at hids
    replace hids := (List.nodup_cons.1 hids).1
    have hadv : Advances C (· = row.id) s.writer.db t := releaseOutboxClaimAt_advances hj
    refine ⟨hadv.since, h.advance hadv ?_ ?_ ?_ ?_⟩
    · cases rest <;> simp [hp, releaseTail, Phase.held, Phase.current, Phase.queue]
    · intro q hq
      have hq' : q ∈ rest := by cases rest <;> exact hq
      rw [hp]
      exact ⟨List.mem_cons_of_mem _ hq', fun heq => hids (List.mem_map.2 ⟨q, hq', heq⟩)⟩
    · cases rest <;> simp [releaseTail, Phase.current]
    · cases rest <;> simp [releaseTail, Phase.decoded]
  | @postponed row write left rest p hp hn =>
    have hcur : (row, write) ∈ s.phase.current := by rw [hp]; rfl
    refine .of_db rfl (h.rephase rfl ?_ ?_ ?_ ?_)
    all_goals rcases hn with rfl | rfl
    all_goals simp [hp, Phase.held, Phase.current, Phase.queue, Phase.decoded, h.sound _ hcur]
  | @committed row write left rest deferred t hp _ hj =>
    exact h.receipt hp hj (by cases deferred <;> simp) _
  | reported _ hp _ hj hn => exact h.receipt hp hj (.inr hn) _
  | @woken row write left n rest hp =>
    have hcur : (row, write) ∈ s.phase.current := by rw [hp]; rfl
    refine .of_db rfl (h.rephase rfl ?_ ?_ ?_ ?_)
    · rw [hp]
      exact List.Sublist.refl _
    · rw [hp]
      exact fun q hq => hq
    · intro c hc
      cases hc
      exact ⟨(h.sound _ hcur).reissue _, .inr ⟨write, hcur⟩⟩
    · simp [Phase.decoded]

theorem exec_moves (hC : C.RoundTrips) (hA : C.ReadsAnchors) (h : Steady C s) (events : List Event) :
    Moves C s (exec (step C config) s events) := by
  refine exec_invariant' (I := fun s' => Moves C s s') (fun s' e hm => ?_) ⟨.refl _, h⟩
  obtain ⟨hsince, hsteady⟩ := hm.2.stepTo hC hA (@step_to C config s' e)
  exact ⟨hm.1.trans hsince, hsteady⟩

theorem after_moves (hC : C.RoundTrips) (hA : C.ReadsAnchors) (clock : ℤ) (before later : List Event) :
    Moves C (after C config clock before) (after C config clock (before ++ later)) := by
  rw [after, after, exec_append]
  exact exec_moves hC hA (exec_moves hC hA (.of_held rfl) before).2 later

/-! ## Keys of dependents -/

theorem stripPrefix_eq_some : ∀ {start text rest : List Char}, stripPrefix start text = some rest ↔ text = start ++ rest
  | [], text, rest => by simp [stripPrefix]
  | c :: cs, [], rest => by simp [stripPrefix]
  | c :: cs, d :: ds, rest => by
    rw [stripPrefix]
    split
    · next heq =>
      rw [stripPrefix_eq_some, heq]
      simp
    · next hne => simp [Ne.symm hne]

theorem parseDigits_eq : ∀ {digits : List Char} {n : ℕ}, (∀ c ∈ digits, c.isDigit = true) →
    parseDigits digits n = some (Nat.ofDigitChars 10 digits n)
  | [], n, _ => rfl
  | c :: digits, n, h => by
    obtain ⟨hc, hdigits⟩ := List.forall_mem_cons.1 h
    rw [parseDigits, if_pos hc, parseDigits_eq hdigits]
    rfl

theorem parseU32_toString (hn : n ≤ u32Max) : parseU32 (toString n) = some n := by
  have hlist : (toString n).toList = Nat.toDigits 10 n := Nat.toList_repr
  have hdigits : ∀ c ∈ Nat.toDigits 10 n, c.isDigit = true := fun c hc =>
    Nat.isDigit_of_mem_toDigits (by decide) (by decide) hc
  obtain ⟨c, digits, hcons⟩ := List.exists_cons_of_ne_nil (Nat.toDigits_ne_nil (b := 10) (n := n))
  have hplus : c ≠ '+' := by
    rintro rfl
    have := hdigits '+' (by rw [hcons]; exact List.mem_cons_self)
    cases this
  have hread : parseDigits (c :: digits) 0 = some n := by
    rw [← hcons, parseDigits_eq hdigits, Nat.ofDigitChars_ten_toDigits]
  unfold parseU32
  rw [hlist, hcons]
  simp [hplus, hread, hn]

theorem parseU32_le {text : String} (h : parseU32 text = some n) : n ≤ u32Max := by
  simp only [parseU32] at h
  split_ifs at h
  exact of_decide_eq_true (Option.filter_eq_some_iff.1 h).2

/-- **The keys that are accepted for an update**: the key of the card, a colon, and a number in its only spelling. -/
theorem validProgressDependency_update {row : OutboxRow} :
    validProgressDependency row k .update = true ↔
      row.kind = "progress" ∧ ∃ n, 0 < n ∧ n ≤ u32Max ∧ row.idempotencyKey = k ++ ":" ++ toString n := by
  simp only [validProgressDependency, Bool.and_eq_true, decide_eq_true_eq]
  refine and_congr_right fun _ => ?_
  constructor
  · intro h
    split at h
    · cases h
    · next sequence hstrip =>
      split at h
      · cases h
      · next n hparse =>
        obtain ⟨hpos, hcanonical⟩ := of_decide_eq_true h
        refine ⟨n, hpos, parseU32_le hparse, ?_⟩
        rw [hcanonical, ← String.toList_inj, stripPrefix_eq_some.1 hstrip]
        simp
  · rintro ⟨n, hpos, hle, hkey⟩
    have hstrip : stripPrefix (k ++ ":").toList row.idempotencyKey.toList = some (toString n).toList := by
      rw [stripPrefix_eq_some, hkey]
      simp
    simp only [hstrip, String.ofList_toList, parseU32_toString hle, hpos, decide_true, true_and]

theorem validProgressDependency_finalize {row : OutboxRow} :
    validProgressDependency row k .finalize = true ↔ row.kind = "final" ∧ row.idempotencyKey = k ++ ":final" := by
  simp [validProgressDependency]

/-! ## Rows of the sink -/

/-- The rows that the sink builds for the card of a turn in a scope. -/
inductive Dependent (C : Codec) (turnRowId : ℤ) (scopeKey : String) : NewOutboxRow → Prop
  | update {u : TurnProgress} {row : NewOutboxRow} (hturn : u.turnRowId = turnRowId) (hscope : u.scopeKey = scopeKey)
      (hpos : 0 < u.sequence) (hle : u.sequence ≤ u32Max) (h : Sink.progress C u = .ok row) :
      Dependent C turnRowId scopeKey row
  | finalize {turn : TurnFinalization} {text fallback : String} {phase : RunCardPhase} {rows : List NewOutboxRow}
      {row : NewOutboxRow} (hturn : turn.turnRowId = turnRowId) (hscope : turn.scopeKey = scopeKey)
      (h : Sink.finalizeRows C turn text fallback phase = .ok rows) (hrow : row ∈ rows) :
      Dependent C turnRowId scopeKey row

/-- A dependent is looked up under the key of its card. -/
theorem Dependent.startSend {turnRowId : ℤ} {scopeKey : String} {row : NewOutboxRow} (h : Dependent C turnRowId scopeKey row) :
    row.scopeKey = scopeKey ∧ ∃ operation : OutboxOperation, operation.CardReadable C ∧
      operation.encode C = .ok row.payloadJson ∧ operation.anchorKey? = some (Sink.anchorKeyOf turnRowId) ∧
      ∀ q : Row OutboxRow, q.val.idempotencyKey = row.idempotencyKey → q.val.kind = row.kind →
        Outbox.startSend q operation = .lookup (Sink.anchorKeyOf turnRowId) := by
  cases h with
  | update hturn hscope hpos hle h =>
    subst hturn hscope
    simp only [Sink.progress, hpos.ne', if_false] at h
    obtain ⟨json, hjson, rfl⟩ := Sink.newRow_eq_ok.1 h
    refine ⟨rfl, _, ?_, hjson, rfl, fun q hkey hkind => ?_⟩
    · trivial
    · exact if_pos (validProgressDependency_update.2 ⟨hkind, _, hpos, hle, hkey⟩)
  | finalize hturn hscope h hrow =>
    subst hturn hscope
    rw [Sink.finalizeRows] at h
    split at h
    · cases h
      cases hrow
    · obtain ⟨json, hjson, rfl⟩ := Sink.newRow_eq_ok.1 (Sink.mem_singleton_of_ok h hrow)
      refine ⟨rfl, _, ?_, hjson, rfl, fun q hkey hkind => ?_⟩
      · trivial
      · exact if_pos (validProgressDependency_finalize.2 ⟨hkind, hkey⟩)

/-- A row with the columns of a new one. -/
structure Stores (r : OutboxRow) (row : NewOutboxRow) : Prop where
  key : r.idempotencyKey = row.idempotencyKey
  scope : r.scopeKey = row.scopeKey
  kind : r.kind = row.kind
  payload : r.payloadJson = row.payloadJson

/-- The card in front of a row of its scope answers for it. -/
theorem progressAnchor_of_card {q a : Row OutboxRow} (hid : a.id < q.id) (hscope : a.val.scopeKey = q.val.scopeKey)
    (hkind : a.val.kind = "progress") (hreceipt : Receipted C a.val) {m x : String} {thread : Option String}
    (hdecode : OutboxOperation.decode C a.val.payloadJson = .ok (.replyProgressCard m thread x)) :
    ∃ anchor, progressAnchor C q (some a) = some anchor ∧
      (a.val.state = .sent → ∃ m, m ≠ "" ∧ a.val.receiptMessageId = some m ∧ anchor = .delivered m) := by
  simp only [progressAnchor, hscope, hkind, not_le.2 hid, hdecode, ne_eq, not_true_eq_false, or_self, if_false]
  cases hstate : a.val.state with
  | sent =>
    obtain ⟨⟨receipt, hne, hsome⟩, -⟩ := hreceipt hstate
    simp only [hsome, hne, if_false]
    exact ⟨_, rfl, fun _ => ⟨receipt, hne, rfl, rfl⟩⟩
  | pending | sending | failed | uncertainDelivery => exact ⟨_, rfl, by simp⟩

theorem after_receipted (hC : C.RoundTrips) (hA : C.ReadsAnchors) (clock : ℤ) (events : List Event) :
    ∀ r ∈ (after C config clock events).writer.db.rows, Receipted C r.val := by
  intro r hr
  have hm := @after_moves C config hC hA clock [] events
  rcases hm.1.origin r hr with ⟨r₀, hr₀, -⟩ | ⟨-, hreceipt⟩
  · cases hr₀
  · exact hreceipt

/-! ## Over whole runs -/

/-- The live row of a later moment that names a card was the same row before, with the same payload. -/
theorem named_before (hA : C.ReadsAnchors) (h : Since C t t') {d d' : Row OutboxRow} (hd : d ∈ t.rows)
    (hd' : d' ∈ t'.rows) (hserial : d'.serial = d.serial) (hlive : d'.val.live = true) {operation : OutboxOperation}
    (hop : OutboxOperation.decode C d'.val.payloadJson = .ok operation) (hk : operation.anchorKey? = some k) :
    Becomes C d d' ∧ d'.val.payloadJson = d.val.payloadJson := by
  rcases h.origin d' hd' with ⟨r, hr, hb⟩ | ⟨hnew, -⟩
  · obtain rfl := Table.eq_of_serial hr hd (hb.serial.symm.trans hserial)
    exact ⟨hb, (hb.names hlive (decode_anchorKey hA hop hk)).2⟩
  · have hlt := t.serial_lt_next d hd
    omega

/-- Of a progress row and a row in `t`: as long as the latter is live and names the former, the former is there, with a
receipt if it was sent. -/
def CardsKept (C : Codec) (t : OutboxTable) (s : System) : Prop :=
  ∀ a ∈ t.rows, a.val.kind = "progress" → ∀ d ∈ t.rows, ∀ d' ∈ s.writer.db.rows, d'.serial = d.serial →
    d'.val.live = true → ∀ operation, OutboxOperation.decode C d'.val.payloadJson = .ok operation →
    operation.anchorKey? = some a.val.idempotencyKey → ∃ a' ∈ s.writer.db.rows, Becomes C a a' ∧ Receipted C a'.val

/-- Of a card and a later dependent in `t` that the sink built for one turn and scope: a copy of the dependent that still
names a card is looked up under the key of this one, which is there. A card that can be read, or was sent, answers for
itself, and with its receipt once it was sent. -/
def CardsAnswer (C : Codec) (t : OutboxTable) (s : System) : Prop :=
  ∀ (card : TurnProgress) (cardRow row : NewOutboxRow), card.sequence = 0 → Sink.progress C card = .ok cardRow →
    Dependent C card.turnRowId card.scopeKey row → ∀ a ∈ t.rows, Stores a.val cardRow → ∀ d ∈ t.rows, Stores d.val row →
    a.serial < d.serial → ∀ q ∈ s.phase.queue, q.serial = d.serial →
    ∀ operation, OutboxOperation.decode C q.val.payloadJson = .ok operation → operation.anchorKey?.isSome →
    startSend q operation = .lookup cardRow.idempotencyKey ∧ ∃ a' ∈ s.writer.db.rows, Becomes C a a' ∧
      (card.text ≠ "" ∨ a'.val.state = .sent →
        ∃ anchor, progressAnchor C q (s.writer.db.lookup cardRow.idempotencyKey) = some anchor ∧
          (a'.val.state = .sent → ∃ m, m ≠ "" ∧ a'.val.receiptMessageId = some m ∧ anchor = .delivered m))

theorem Moves.cardsKept (hA : C.ReadsAnchors) (h : Moves C s s')
    (hreceipted : ∀ r ∈ s'.writer.db.rows, Receipted C r.val) : CardsKept C s.writer.db s' := by
  intro a ha hkind d hd d' hd' hserial hlive operation hop hk
  have hlt := s.writer.db.serial_lt_next d hd
  obtain ⟨a', ha', hb⟩ := h.1.kept a ha hkind d' hd' hlive (hserial ▸ hlt) (decode_anchorKey hA hop hk)
  exact ⟨a', ha', hb, hreceipted a' ha'⟩

theorem Moves.cardsAnswer (hC : C.RoundTrips) (hA : C.ReadsAnchors) (h : Moves C s s')
    (hreceipted : ∀ r ∈ s'.writer.db.rows, Receipted C r.val) : CardsAnswer C s.writer.db s' := by
  intro card cardRow row hseq hcard hdep a ha hstored d hd hstores hlt q hq hserial operation hop hanchor
  obtain ⟨k, hk⟩ := Option.isSome_iff_exists.1 hanchor
  -- the copy is of a live row, which is the dependent as it was enqueued
  obtain ⟨d', hd', hcarry⟩ := h.2.queue q hq
  have hop' : OutboxOperation.decode C d'.val.payloadJson = .ok operation := by rw [hcarry.payload]; exact hop
  have hserial' : d'.serial = d.serial := hcarry.serial.trans hserial
  obtain ⟨hb, hpay⟩ := named_before hA h.1 hd hd' hserial' hcarry.live hop' hk
  obtain ⟨hscope, built, hreadable, hencode, hkey, hstart⟩ := hdep.startSend
  rw [hpay, hstores.payload] at hop'
  obtain rfl := ((decode_encode_iff hC hreadable hencode).1 hop').2
  -- the card has the key that the dependent names
  simp only [Sink.progress, hseq, if_true] at hcard
  obtain ⟨cardJson, hcardJson, rfl⟩ := Sink.newRow_eq_ok.1 hcard
  have hcardKey : a.val.idempotencyKey = Sink.anchorKeyOf card.turnRowId := hstored.key
  have hqkey : q.val.idempotencyKey = row.idempotencyKey := by rw [← hcarry.key, hb.val.key, hstores.key]
  have hqkind : q.val.kind = row.kind := by rw [← hcarry.kind, hb.val.kind, hstores.kind]
  have hqscope : q.val.scopeKey = card.scopeKey := by rw [← hcarry.scope, hb.val.scope, hstores.scope, hscope]
  refine ⟨hstart q hqkey hqkind, ?_⟩
  obtain ⟨a', ha', hba, hreceipt⟩ := h.cardsKept hA hreceipted a ha hstored.kind d hd d' hd' hserial' hcarry.live operation
    (by rw [hcarry.payload]; exact hop) (by rw [hcardKey]; exact hkey)
  refine ⟨a', ha', hba, fun hread => ?_⟩
  have hfound : s'.writer.db.lookup (Sink.anchorKeyOf card.turnRowId) = some a' :=
    Table.lookup_eq_some.2 ⟨ha', hba.val.key.trans hcardKey⟩
  have hid : a'.id < q.id := by
    rw [← hcarry.id, Table.id_lt_iff ha' hd', hba.serial, hserial']
    exact hlt
  have hreads : (OutboxOperation.replyProgressCard card.source.messageId card.source.threadId card.text).CardReadable C :=
    trivial
  have hcardPay : a'.val.payloadJson = cardJson := by
    rcases hba.val.payload with heq | ⟨hfinal, -⟩
    · exact heq.trans hstored.payload
    · -- no fallback replaces a card
      exfalso
      rw [hstored.payload, mayFallBack] at hfinal
      split at hfinal
      · next hdecode => cases ((decode_encode_iff hC hreads hcardJson).1 hdecode).2
      · cases hfinal
  have hdecode : OutboxOperation.decode C a'.val.payloadJson =
      .ok (.replyProgressCard card.source.messageId card.source.threadId card.text) := by
    rw [hcardPay]
    rcases hread with htext | hsent
    · exact (decode_encode_iff hC hreads hcardJson).2
        ⟨⟨card.source.messageId_ne, card.source.threadId_ne, htext⟩, rfl⟩
    · obtain ⟨-, decoded, hdecoded⟩ := hreceipt hsent
      rw [hcardPay] at hdecoded
      rw [hdecoded, ((decode_encode_iff hC hreads hcardJson).1 hdecoded).2]
  show ∃ anchor, progressAnchor C q (s'.writer.db.lookup (Sink.anchorKeyOf card.turnRowId)) = some anchor ∧ _
  rw [hfound]
  have hscope' : a'.val.scopeKey = q.val.scopeKey := by rw [hba.val.scope, hstored.scope, hqscope]
  exact progressAnchor_of_card hid hscope' (hba.val.kind.trans hstored.kind) hreceipt hdecode

/-- **A progress card outlives its dependents.** After any events, a row that was in the outbox with a progress row that
it names finds that row for as long as it is live and names it; and where the sink built both for one turn, the card
answers for the dependent, with its receipt. The keys that are accepted for a card are those that the sink derives from
its key. -/
theorem anchors_outlive_dependents (hC : C.RoundTrips) (hA : C.ReadsAnchors) (clock : ℤ) (before later : List Event) :
    CardsKept C (after C config clock before).writer.db (after C config clock (before ++ later)) ∧
    CardsAnswer C (after C config clock before).writer.db (after C config clock (before ++ later)) ∧
    ∀ (turnRowId : ℤ) (row : OutboxRow),
      (validProgressDependency row (Sink.anchorKeyOf turnRowId) .update = true ↔ row.kind = "progress" ∧
        ∃ n, 0 < n ∧ n ≤ u32Max ∧ row.idempotencyKey = Sink.anchorKeyOf turnRowId ++ ":" ++ toString n) ∧
      (validProgressDependency row (Sink.anchorKeyOf turnRowId) .finalize = true ↔ row.kind = "final" ∧
        row.idempotencyKey = Sink.anchorKeyOf turnRowId ++ ":final") := by
  have hm := @after_moves C config hC hA clock before later
  have hreceipted := @after_receipted C config hC hA clock (before ++ later)
  exact ⟨hm.cardsKept hA hreceipted, hm.cardsAnswer hC hA hreceipted,
    fun turnRowId row => ⟨validProgressDependency_update, validProgressDependency_finalize⟩⟩

/-! ## A card that is updated after its retention -/

/-- JSON on the payloads of the cards. -/
def anchorCodec : Codec where
  versionProbe s := ((samplePayloads ++ Sink.cardPayloads).find? (·.2 = s)).map (·.1.version)
  payloadV1 _ := none
  payloadV2 s := ((samplePayloads ++ Sink.cardPayloads).find? (·.2 = s)).map (·.1)
  payloadToString dto := ((samplePayloads ++ Sink.cardPayloads).find? (·.1 = dto)).map (·.2)
  cardSpec _ := none
  cardSpecToString _ := none
  jsonAnchorKey s := ((samplePayloads ++ Sink.cardPayloads).find? (·.2 = s)).bind (·.1.anchorKey)
  renderLarkMarkdown s := s

set_option maxRecDepth 20000 in
theorem anchorCodec_roundTrips : anchorCodec.RoundTrips := by
  have hall : ∀ p ∈ samplePayloads ++ Sink.cardPayloads,
      anchorCodec.versionProbe p.2 = some p.1.version ∧ anchorCodec.payloadV2 p.2 = some p.1 := by decide
  have hmem : ∀ dto json, anchorCodec.payloadToString dto = some json → (dto, json) ∈ samplePayloads ++ Sink.cardPayloads := by
    intro dto json h
    obtain ⟨p, hp, rfl⟩ := Option.map_eq_some_iff.1 h
    have hdto : p.1 = dto := by simpa using List.find?_some hp
    exact hdto ▸ List.mem_of_find?_eq_some hp
  exact ⟨fun dto json h => (hall _ (hmem dto json h)).1, fun dto json h => (hall _ (hmem dto json h)).2⟩

theorem anchorCodec_readsAnchors : anchorCodec.ReadsAnchors where
  v1 := fun _ _ h => by cases h
  v2 := by
    intro json dto h
    obtain ⟨p, hp, rfl⟩ := Option.map_eq_some_iff.1 h
    show ((samplePayloads ++ Sink.cardPayloads).find? (·.2 = json)).bind (·.1.anchorKey) = p.1.anchorKey
    rw [hp]
    rfl

/-- The rows that the sink builds for the first two snapshots of a turn. -/
def cardRow : NewOutboxRow := ⟨"7:progress", "im:oc_1", "progress", sampleText 1, 0⟩

def updateRow : NewOutboxRow := ⟨"7:progress:1", "im:oc_1", "progress", ((Sink.cardPayloads[1]?).map (·.2)).getD "", 0⟩

/-- The card is delivered, then the second snapshot is enqueued. -/
def cardThenUpdate : List Event :=
  startUp ++ ([.enqueue cardRow .execute] : List Event) ++ deliverFirst (.ok "om_r1") ++ ([.pump, .enqueue updateRow .execute] : List Event)

/-- The retention of the card ends before the pump claims the update. -/
def sweepThenClaim : List Event := [.tick 604800001, .sweep 604800001 .execute, .pump, .store .execute]

set_option maxRecDepth 20000 in
theorem anchors_outlive_dependents_update :
    (CardsKept anchorCodec (after anchorCodec {} 0 cardThenUpdate).writer.db
        (after anchorCodec {} 0 (cardThenUpdate ++ sweepThenClaim)) ∧
      CardsAnswer anchorCodec (after anchorCodec {} 0 cardThenUpdate).writer.db
        (after anchorCodec {} 0 (cardThenUpdate ++ sweepThenClaim))) ∧
    Sink.progress anchorCodec { Sink.secondUpdate with sequence := 0 } = .ok cardRow ∧
    Sink.progress anchorCodec Sink.secondUpdate = .ok updateRow ∧
    ((after anchorCodec {} 0 (cardThenUpdate ++ sweepThenClaim)).phase.queue.map fun q =>
      (q.val.idempotencyKey, progressAnchor anchorCodec q
        ((after anchorCodec {} 0 (cardThenUpdate ++ sweepThenClaim)).writer.db.lookup "7:progress"))) =
      [("7:progress:1", some (.delivered "om_r1"))] := by
  obtain ⟨hkept, hanswer, -⟩ := @anchors_outlive_dependents anchorCodec {} anchorCodec_roundTrips
    anchorCodec_readsAnchors 0 cardThenUpdate sweepThenClaim
  exact ⟨⟨hkept, hanswer⟩, by decide, by decide, by decide⟩

/-! ## Rows that are kept -/

/-- **A row keeps its identity and what was settled.** After any events, a row of the outbox is new or one that was there,
and a row that is `sent` was read by the pump and has its receipt. -/
theorem rows_keep_identity (hC : C.RoundTrips) (hA : C.ReadsAnchors) (clock : ℤ) (before later : List Event) :
    ∀ r' ∈ (after C config clock (before ++ later)).writer.db.rows, Receipted C r'.val ∧
      ((∃ r ∈ (after C config clock before).writer.db.rows, Becomes C r r') ∨
        (after C config clock before).writer.db.nextSerial ≤ r'.serial) := fun r' hr' =>
  ⟨after_receipted hC hA clock _ r' hr', ((after_moves hC hA clock before later).1.origin r' hr').imp_right And.left⟩

set_option maxRecDepth 20000 in
theorem rows_keep_identity_update : (after anchorCodec {} 0 (cardThenUpdate ++ sweepThenClaim)).writer.db.rows ≠ [] ∧
    ∀ r' ∈ (after anchorCodec {} 0 (cardThenUpdate ++ sweepThenClaim)).writer.db.rows, Receipted anchorCodec r'.val :=
  ⟨by decide, fun r' hr' =>
    (rows_keep_identity anchorCodec_roundTrips anchorCodec_readsAnchors 0 cardThenUpdate sweepThenClaim r' hr').1⟩

/-! ## Rows that are not kept -/

/-- A dependent waits, and the row that it named has gone. -/
def Abandoned (C : Codec) (t t' : OutboxTable) : Prop :=
  ∃ a ∈ t.rows, ∃ d ∈ t.rows,
    (OutboxOperation.decode C d.val.payloadJson).toOption.bind OutboxOperation.anchorKey? = some a.val.idempotencyKey ∧
      ∃ d' ∈ t'.rows, d'.serial = d.serial ∧ d'.val.live = true ∧ ∀ a' ∈ t'.rows, a'.serial ≠ a.serial

instance (C : Codec) (t t' : OutboxTable) : Decidable (Abandoned C t t') := by
  unfold Abandoned
  infer_instance

/-- A notice is delivered under the key that a final card then names. -/
def noticeNamed : List Event :=
  startUp ++ ([.enqueue (sampleRow "t" "notice" 0) .execute] : List Event) ++ deliverFirst (.ok "om_r1") ++
    ([.enqueue (sampleRow "t:final" "final" 2) .execute] : List Event)

/-- A card is delivered, then its end is enqueued. -/
def cardThenFinal : List Event :=
  startUp ++ ([.enqueue (sampleRow "t" "progress" 1) .execute] : List Event) ++ deliverFirst (.ok "om_r1") ++
    ([.pump, .enqueue (sampleRow "t:final" "final" 2) .execute] : List Event)

/-- The PATCH of the card is rejected, and the fallback takes the place of the final card. -/
def patchRefused : List Event :=
  [.pump, .store .execute, .pump, .store .execute, .net (.error (deliveryError (.invalidRequest "patching"))),
    .store .execute]

def sweepLater : List Event := [.tick 604800001, .sweep 604800001 .execute]

set_option maxRecDepth 20000 in
/-- A row of another kind is swept while a dependent names it; a card is swept once the fallback has replaced the row
that named it; and a pair of keys is accepted that the sink never builds. -/
theorem named_row_swept :
    Abandoned sampleCodec (after sampleCodec {} 0 noticeNamed).writer.db
      (after sampleCodec {} 0 (noticeNamed ++ sweepLater)).writer.db ∧
    Abandoned sampleCodec (after sampleCodec {} 0 cardThenFinal).writer.db
      (after sampleCodec {} 0 (cardThenFinal ++ (patchRefused ++ sweepLater))).writer.db ∧
    validProgressDependency ⟨"x:1", "im:oc", "progress", "", 0, .pending, 0, 0, none, 0, 0⟩ "x" .update = true ∧
    ∀ turnRowId, Sink.anchorKeyOf turnRowId ≠ "x" := by
  refine ⟨by decide, by decide, by decide, fun turnRowId h => ?_⟩
  have hlength := congrArg String.length h
  have hends : (Sink.anchorKeyOf turnRowId).length = (toString turnRowId).length + 9 := by
    rw [Sink.anchorKeyOf, String.length_append]
    rfl
  rw [hends] at hlength
  have hone : "x".length = 1 := rfl
  omega

end LarkCodexBridge.Outbox

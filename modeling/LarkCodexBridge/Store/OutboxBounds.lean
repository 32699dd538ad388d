import Mathlib
import LarkCodexBridge.Store.OutboxJobs

/-!
# The bounds of the outbox

`Capped` is what every outbox operation keeps, whatever its arguments: the row and byte bounds over all rows and over
the live ones, and for each row (`OutboxRow.Ok`) its byte count, its attempts and its receipt.

An enqueue checks the live bounds and then, after a sweep if need be, the total ones (`Capped.insertOrIgnore`). No
other operation adds a row or makes one live again, so all of them are rewritings (`Capped.maps`); only the fallback
changes a byte count, by as much as it has checked beforehand (`Capped.replaced`).

* `OutboxOp`: the operations;
* `Capped.op`: each of them keeps the bounds.
-/

namespace LarkCodexBridge.Store

open Limits SqlTable Outbox

variable {C : Codec}

/-! ## The invariant -/

/-- What holds of a row by itself. -/
structure OutboxRow.Ok (r : OutboxRow) : Prop where
  bytes : r.payloadBytes = r.payloadJson.utf8ByteSize
  attempts : r.live = true → r.attempts < storeOutboxMaxAttempts
  receipt : r.state = .sent → r.receiptMessageId.isSome = true

/-- **The bounds.** -/
structure Capped (t : OutboxTable) : Prop where
  rows_le : t.rows.length ≤ outboxTerminalMaxRows
  bytes_le : sumBytes t.rows ≤ outboxTerminalMaxBytes
  live_rows_le : (liveRows t).length ≤ storeOutboxMaxRows
  live_bytes_le : sumBytes (liveRows t) ≤ storeOutboxMaxQueuedBytes
  row_ok : ∀ r ∈ t.rows, r.val.Ok

theorem capped_empty : Capped Table.empty := by
  constructor <;> simp [Table.empty, sumBytes, liveRows]

/-! ## Counting rewritten rows -/

theorem sumBytes_sublist {rows rows' : List (Row OutboxRow)} (h : rows.Sublist rows') :
    sumBytes rows ≤ sumBytes rows' :=
  List.Sublist.sum_le_sum (h.map _) fun _ _ => Nat.zero_le _

theorem sumBytes_append (rows rows' : List (Row OutboxRow)) :
    sumBytes (rows ++ rows') = sumBytes rows + sumBytes rows' := by
  simp [sumBytes]

/-- The columns of each row rewritten by `f`. -/
def rewritten (f : Row OutboxRow → OutboxRow) (r : Row OutboxRow) : Row OutboxRow := { r with val := f r }

variable {f : Row OutboxRow → OutboxRow} {id : ℕ}

/-- A rewriting that adds at most `d` bytes, and those to row `id` alone, adds at most `d` bytes. -/
theorem sumBytes_rewritten {d : ℕ} : ∀ {rows : List (Row OutboxRow)},
    rows.Pairwise (fun r q => r.id < q.id) →
    (∀ r ∈ rows, (f r).payloadBytes ≤ r.val.payloadBytes + if r.id = id then d else 0) →
    sumBytes (rows.map (rewritten f)) ≤ sumBytes rows + if ∃ r ∈ rows, r.id = id then d else 0
  | [], _, _ => by simp [sumBytes]
  | r :: rows, hs, hf => by
    obtain ⟨hr, hs⟩ := List.pairwise_cons.1 hs
    obtain ⟨hf₀, hf⟩ := List.forall_mem_cons.1 hf
    have ih := sumBytes_rewritten hs hf
    simp only [sumBytes, List.map_cons, List.sum_cons, List.map_map] at ih ⊢
    change (f r).payloadBytes + _ ≤ _
    by_cases hid : r.id = id
    · -- the ids differ, so the row with this id is not among the rest
      have hrest : ¬∃ q ∈ rows, q.id = id := by
        rintro ⟨q, hq, hqid⟩
        have := hr q hq
        omega
      rw [if_neg hrest] at ih
      rw [if_pos hid] at hf₀
      rw [if_pos ⟨r, List.mem_cons_self, hid⟩]
      omega
    · have hiff : (∃ q ∈ r :: rows, q.id = id) ↔ ∃ q ∈ rows, q.id = id := by simp [hid]
      rw [if_neg hid] at hf₀
      simp only [hiff]
      omega

variable {t t' : OutboxTable} {a : OutboxRow}

theorem liveRows_rewritten (hm : Table.Maps f t t') (hl : ∀ r ∈ t.rows, (f r).live = true → r.val.live = true) :
    (liveRows t').Sublist ((liveRows t).map (rewritten f)) := by
  have he : liveRows t' = (t.rows.filter fun r => (f r).live).map (rewritten f) := by
    unfold liveRows
    rw [hm.rows_eq]
    exact List.filter_map ..
  have hsub : (t.rows.filter fun r => (f r).live) = (liveRows t).filter fun r => (f r).live := by
    unfold liveRows
    rw [List.filter_filter]
    refine List.filter_congr fun r hr => ?_
    cases h : (f r).live with
    | true => simp [hl r hr h]
    | false => rfl
  rw [he, hsub]
  exact List.filter_sublist.map _

theorem liveRows_sublist (t : OutboxTable) : (liveRows t).Sublist t.rows := List.filter_sublist

/-! ## Rewritings -/

/-- The columns `b` of a row that were `a`. -/
structure Kept (a b : OutboxRow) : Prop where
  ok : b.Ok
  bytes : b.payloadBytes = a.payloadBytes
  live : b.live = true → a.live = true

theorem Kept.refl (h : a.Ok) : Kept a a := ⟨h, rfl, id⟩

/-- A rewriting within the bounds: row `id` may gain `d` bytes. -/
theorem Capped.replaced (h : Capped t) (hm : Table.Maps f t t') (id d : ℕ) (hok : ∀ r ∈ t.rows, (f r).Ok)
    (hl : ∀ r ∈ t.rows, (f r).live = true → r.val.live = true)
    (hd : ∀ r ∈ t.rows, (f r).payloadBytes ≤ r.val.payloadBytes + if r.id = id then d else 0)
    (hlive : sumBytes (liveRows t) + d ≤ storeOutboxMaxQueuedBytes)
    (htotal : sumBytes t.rows + d ≤ outboxTerminalMaxBytes) : Capped t' := by
  have hsub := liveRows_rewritten hm hl
  have hle : ∀ rows : List (Row OutboxRow), rows.Sublist t.rows →
      sumBytes (rows.map (rewritten f)) ≤ sumBytes rows + d := by
    intro rows hrows
    refine (sumBytes_rewritten (t.id_lt.sublist hrows) fun r hr => hd r (hrows.subset hr)).trans ?_
    split <;> omega
  constructor
  · rw [hm.rows_eq, List.length_map]
    exact h.rows_le
  · rw [hm.rows_eq]
    exact (hle t.rows (List.Sublist.refl _)).trans htotal
  · refine hsub.length_le.trans ?_
    rw [List.length_map]
    exact h.live_rows_le
  · exact (sumBytes_sublist hsub).trans ((hle _ (liveRows_sublist t)).trans hlive)
  · intro r' hr'
    obtain ⟨r, hr, rfl⟩ := hm.mem.1 hr'
    exact hok r hr

/-- A rewriting that keeps the byte counts. -/
theorem Capped.maps (h : Capped t) (hm : Table.Maps f t t') (hf : ∀ r ∈ t.rows, Kept r.val (f r)) : Capped t' := by
  refine h.replaced hm 0 0 (fun r hr => (hf r hr).ok) (fun r hr => (hf r hr).live) (fun r hr => ?_)
    h.live_bytes_le h.bytes_le
  rw [(hf r hr).bytes]
  exact Nat.le_add_right _ _

variable {now retryMs : ℤ} {g : OutboxRow → OutboxRow} {payloadBytes : ℕ} {row : NewOutboxRow} {o : OutboxEnqueue}

theorem kept_parkRow (h : a.Ok) (hl : a.live = true) : Kept a (parkRow now retryMs a) :=
  ⟨⟨h.bytes, fun _ => h.attempts hl, nofun⟩, rfl, fun _ => hl⟩

theorem kept_setRow (h : Capped t) (hid : ∃ r ∈ t.rows, r.id = id ∧ r.val.state = .sending ∧ Kept r.val (g r.val)) :
    ∀ r ∈ t.rows, Kept r.val (setRow id g r) := by
  obtain ⟨r₀, hr₀, hid₀, -, hg⟩ := hid
  intro r hr
  by_cases h' : r.id = id
  · rw [Table.eq_of_id hr hr₀ (h'.trans hid₀.symm)]
    simpa [setRow, hid₀] using hg
  · simpa [setRow, h'] using Kept.refl (h.row_ok r hr)

/-- A claimed row is rewritten and the live rows behind it are parked. -/
theorem kept_setAndPark (h : Capped t) (hid : ∃ r ∈ t.rows, r.id = id ∧ r.val.state = .sending ∧ Kept r.val (g r.val)) :
    ∀ r ∈ t.rows, Kept r.val (setAndPark now retryMs id g r) := by
  obtain ⟨r₀, hr₀, hid₀, -, hg⟩ := hid
  intro r hr
  unfold setAndPark
  split
  · next h' =>
    rw [Table.eq_of_id hr hr₀ (h'.trans hid₀.symm)]
    exact hg
  · split
    · next hl => exact kept_parkRow (h.row_ok r hr) hl.2
    · exact Kept.refl (h.row_ok r hr)

/-! ## Deleting and inserting -/

theorem Capped.deleteWhere (h : Capped t) (p : Row OutboxRow → Bool) :
    Capped (t.deleteWhere p) := by
  have hsub : (t.deleteWhere p).rows.Sublist t.rows := List.filter_sublist
  have hlive : (liveRows (t.deleteWhere p)).Sublist (liveRows t) := hsub.filter _
  exact ⟨hsub.length_le.trans h.rows_le, (sumBytes_sublist hsub).trans h.bytes_le,
    hlive.length_le.trans h.live_rows_le, (sumBytes_sublist hlive).trans h.live_bytes_le,
    fun r hr => h.row_ok r (hsub.subset hr)⟩

/-- The total bounds leave room for one more row of `payloadBytes`. -/
def TotalRoom (t : OutboxTable) (payloadBytes : ℕ) : Prop :=
  t.rows.length + 1 ≤ outboxTerminalMaxRows ∧ sumBytes t.rows + payloadBytes ≤ outboxTerminalMaxBytes

/-- There is room, and the live rows are still some of those before the sweep. -/
theorem enforceTotalCap_ok (h : enforceTotalCap C now payloadBytes t = .ok t') (hb : Capped t) :
    Capped t' ∧ TotalRoom t' payloadBytes ∧ (liveRows t').Sublist (liveRows t) := by
  unfold enforceTotalCap at h
  simp only [decide_eq_true_eq] at h
  split at h
  · next hfit =>
    cases h
    exact ⟨hb, hfit, List.Sublist.refl _⟩
  · split at h
    · next hfit =>
      cases h
      exact ⟨hb.deleteWhere _, hfit, (List.filter_sublist (l := t.rows)).filter _⟩
    · cases h

/-- A fresh row goes in where both bounds leave room for it. -/
theorem Capped.insertOrIgnore (h : Capped t) {retry : ℤ} (hins : t.insertOrIgnore (row.columns now retry) = some t')
    (hroom : TotalRoom t row.payloadJson.utf8ByteSize) (hlive : liveCapacity t row.payloadJson.utf8ByteSize = true) :
    Capped t' := by
  obtain ⟨hk, rfl⟩ := Table.insertOrIgnore_eq_some hins
  obtain ⟨hrows, hbytes⟩ := hroom
  simp only [liveCapacity, decide_eq_true_eq] at hlive
  have he : (t.insert (row.columns now retry) hk).rows = t.rows ++ [⟨t.nextId, t.nextSerial, row.columns now retry⟩] := rfl
  have hl : liveRows (t.insert (row.columns now retry) hk) =
      liveRows t ++ [⟨t.nextId, t.nextSerial, row.columns now retry⟩] := by
    unfold liveRows
    rw [he, List.filter_append]
    rfl
  have hone : ∀ id serial, sumBytes [⟨id, serial, row.columns now retry⟩] = row.payloadJson.utf8ByteSize := by
    intro id serial
    simp [sumBytes, NewOutboxRow.columns]
  constructor
  · rw [he, List.length_append]
    exact hrows
  · rw [he, sumBytes_append, hone]
    exact hbytes
  · rw [hl, List.length_append]
    exact hlive.1
  · rw [hl, sumBytes_append, hone]
    exact hlive.2
  · intro r hr
    rcases Table.mem_insert.1 hr with hr | rfl
    · exact h.row_ok r hr
    · exact ⟨rfl, fun _ => Nat.zero_lt_of_ne_zero (by decide), nofun⟩

theorem liveCapacity_of_sublist (h : liveCapacity t payloadBytes = true) (hsub : (liveRows t').Sublist (liveRows t)) :
    liveCapacity t' payloadBytes = true := by
  have hlen := hsub.length_le
  have hsum := sumBytes_sublist hsub
  simp only [liveCapacity, decide_eq_true_eq] at h ⊢
  omega

/-! ## Enqueueing -/

theorem Capped.enqueueOne (h : Capped t) (hj : enqueueOne C now row t = .ok (o, t')) : Capped t' := by
  rcases enqueueOne_cases hj with rfl | ⟨hlive, t₁, hcap, ht'⟩
  · exact h
  · obtain ⟨h₁, hroom, hsub⟩ := enforceTotalCap_ok hcap h
    rcases ht' with rfl | hins
    · exact h₁
    · exact h₁.insertOrIgnore hins hroom (liveCapacity_of_sublist hlive hsub)

theorem Capped.enqueueAll : ∀ {rows : List NewOutboxRow} {t t' : OutboxTable} {os : List OutboxEnqueue},
    Capped t → enqueueAll C now rows t = .ok (os, t') → Capped t'
  | [], _, _, _, h, hj => by cases hj; exact h
  | row :: rows, t, t', os, h, hj => by
    obtain ⟨⟨o, t₁⟩, h₁, hj⟩ := bind_eq_ok.1 hj
    obtain ⟨⟨os', t₂⟩, h₂, hj⟩ := bind_eq_ok.1 hj
    cases hj
    exact (h.enqueueOne h₁).enqueueAll h₂

theorem Capped.enqueueOutbox (h : Capped t) (hj : enqueueOutbox C now row t = .ok (o, t')) : Capped t' := by
  obtain ⟨_, -, hj⟩ := bind_eq_ok.1 hj
  exact h.enqueueOne hj

theorem Capped.enqueueOutboxBatch (h : Capped t) {rows : List NewOutboxRow} {os : List OutboxEnqueue}
    (hj : enqueueOutboxBatch C now rows t = .ok (os, t')) : Capped t' := by
  unfold Store.enqueueOutboxBatch at hj
  split at hj
  · cases hj
  · obtain ⟨_, -, hj⟩ := bind_eq_ok.1 hj
    exact h.enqueueAll hj

theorem Capped.sweep {t t' : OutboxTable} (h : Capped t) {olderThanMs : ℤ} {maxRows n : ℕ}
    (hj : sweepTerminalOutbox C olderThanMs maxRows t = .ok (n, t')) : Capped t' := by
  cases hj
  exact h.deleteWhere _

theorem Capped.enqueueInboundReply (h : Capped t) {notice : NewOutboxRow}
    (hj : enqueueInboundReplyInTransaction C now notice t = .ok t') : Capped t' := by
  obtain ⟨known, -, hj⟩ := bind_eq_ok.1 hj
  split at hj
  · cases hj; exact h
  · split at hj
    · cases hj
    · next hlive =>
      obtain ⟨t₁, hcap, hj⟩ := bind_eq_ok.1 hj
      obtain ⟨h₁, hroom, hsub⟩ := enforceTotalCap_ok hcap h
      split at hj
      · next hins =>
        cases hj
        exact h₁.insertOrIgnore hins hroom (liveCapacity_of_sublist (by simpa using hlive) hsub)
      · cases hj

/-! ## The operations -/

/-- One operation of the store on the outbox, with its arguments. -/
inductive OutboxOp where
  | enqueue (row : NewOutboxRow)
  | enqueueBatch (rows : List NewOutboxRow)
  | inboundReply (notice : NewOutboxRow)
  | sweep (olderThanMs : ℤ) (maxRows : ℕ)
  | deferAfter (afterId : ℕ) (retryMs : ℤ)
  | claim (nowMsValue : ℤ) (limit : ℕ)
  | complete (id : ℕ) (receiptMessageId : String)
  | fail (id attempts : ℕ) (nextRetryMs : ℤ) (uncertain : Bool)
  | failAndDefer (id attempts : ℕ) (nextRetryMs : ℤ)
  | failTerminal (id : ℕ)
  | fallback (id : ℕ) (payloadJson : String)
  | release (id : ℕ) (nextRetryMs : ℤ)
  | recover

def OutboxOp.job (C : Codec) (now : ℤ) : OutboxOp → Job OutboxTable Unit
  | .enqueue row => Job.answer (enqueueOutbox C now row) fun _ => ()
  | .enqueueBatch rows => Job.answer (enqueueOutboxBatch C now rows) fun _ => ()
  | .inboundReply notice => fun t => (enqueueInboundReplyInTransaction C now notice t).map fun t => ((), t)
  | .sweep olderThanMs maxRows => Job.answer (sweepTerminalOutbox C olderThanMs maxRows) fun _ => ()
  | .deferAfter afterId retryMs => Job.answer (deferOutboxAfter now afterId retryMs) fun _ => ()
  | .claim nowMsValue limit => Job.answer (claimOutboxBatch now nowMsValue limit) fun _ => ()
  | .complete id receiptMessageId => completeOutbox now id receiptMessageId
  | .fail id attempts nextRetryMs uncertain => failOutbox now id attempts nextRetryMs uncertain
  | .failAndDefer id attempts nextRetryMs =>
    Job.answer (failOutboxAndDeferSuccessors now id attempts nextRetryMs) fun _ => ()
  | .failTerminal id => failOutboxTerminal now id
  | .fallback id payloadJson => replaceOutboxWithFallback now id payloadJson
  | .release id nextRetryMs => releaseOutboxClaimAt now id nextRetryMs
  | .recover => Job.answer (recoverSendingOutbox now) fun _ => ()

theorem Capped.claim (h : Capped t) {readAt : ℤ} {limit : ℕ} {batch : List (Row OutboxRow)}
    (hj : claimOutboxBatch now readAt limit t = .ok (batch, t')) : Capped t' := by
  obtain ⟨rows, hpre, -, hm⟩ := claimOutboxBatch_ok hj
  refine h.maps hm fun r hr => ?_
  have hok := h.row_ok r hr
  unfold claimRow
  split
  · next hmem =>
    have hdue := (List.mem_filter.1 (hpre.subset hmem)).2
    simp only [due, decide_eq_true_eq] at hdue
    have hp := hdue.1
    exact ⟨⟨hok.bytes, fun _ => hok.attempts (live_of_pending hp), nofun⟩, rfl, fun _ => live_of_pending hp⟩
  · exact Kept.refl hok

theorem kept_terminal {b : OutboxRow} (h : a.Ok) (hs : b.live = false) (hj : b.payloadJson = a.payloadJson)
    (hb : b.payloadBytes = a.payloadBytes) (hr : b.state = .sent → b.receiptMessageId.isSome = true) : Kept a b where
  ok := ⟨by rw [hb, hj, h.bytes], fun hl => (by simp [hs] at hl), hr⟩
  bytes := hb
  live := fun hl => by simp [hs] at hl

variable {u : Unit} {attempts : ℕ} {payloadJson : String}

section

variable (h : Capped t)
include h

theorem Capped.complete {m : String} (hj : completeOutbox now id m t = .ok (u, t')) : Capped t' := by
  obtain ⟨⟨r, hr, hid, hs⟩, hm⟩ := completeOutbox_ok hj
  exact h.maps hm (kept_setRow h ⟨r, hr, hid, hs, kept_terminal (h.row_ok r hr) rfl rfl rfl fun _ => rfl⟩)

/-- A failure leaves the row `pending` below the attempt cap only. -/
theorem Capped.fail {uncertain : Bool}
    (hj : failOutbox now id attempts retryMs uncertain t = .ok (u, t')) : Capped t' := by
  obtain ⟨n, hn, hj⟩ := bind_eq_ok.1 hj
  obtain ⟨r, hr, hid, hs, -⟩ := requireSending_ok hn
  have hok := h.row_ok r hr
  split at hj
  · cases hj
  · cases hj
    refine h.maps (updateWhere_setRow _ _ _ _) (kept_setRow h ⟨r, hr, hid, hs, ?_⟩)
    cases uncertain with
    | true => exact kept_terminal hok rfl rfl rfl (by simp)
    | false =>
      by_cases ha : attempts ≥ storeOutboxMaxAttempts
      · exact kept_terminal hok (by simp [ha, OutboxRow.live]) rfl rfl (by simp [ha])
      · exact ⟨⟨hok.bytes, fun _ => Nat.lt_of_not_le ha, by simp [ha]⟩, rfl, fun _ => live_of_sending hs⟩

theorem Capped.failAndDefer {deferred : Bool}
    (hj : failOutboxAndDeferSuccessors now id attempts retryMs t = .ok (deferred, t')) : Capped t' := by
  obtain ⟨⟨r, hr, hid, hs⟩, -, hm⟩ := failOutboxAndDeferSuccessors_ok hj
  have hok := h.row_ok r hr
  split at hm
  · next ha =>
    refine h.maps hm (kept_setAndPark h ⟨r, hr, hid, hs, ?_⟩)
    exact ⟨⟨hok.bytes, fun _ => ha, nofun⟩, rfl, fun _ => live_of_sending hs⟩
  · exact h.maps hm (kept_setRow h ⟨r, hr, hid, hs, kept_terminal hok rfl rfl rfl nofun⟩)

theorem Capped.failTerminal (hj : failOutboxTerminal now id t = .ok (u, t')) : Capped t' := by
  obtain ⟨⟨r, hr, hid, hs⟩, hm⟩ := failOutboxTerminal_ok hj
  exact h.maps hm (kept_setRow h ⟨r, hr, hid, hs, kept_terminal (h.row_ok r hr) rfl rfl rfl nofun⟩)

theorem Capped.release (hj : releaseOutboxClaimAt now id retryMs t = .ok (u, t')) : Capped t' := by
  obtain ⟨⟨r, hr, hid, hs⟩, hm⟩ := releaseOutboxClaimAt_ok hj
  have hok := h.row_ok r hr
  refine h.maps hm (kept_setRow h ⟨r, hr, hid, hs, ?_⟩)
  exact ⟨⟨hok.bytes, fun _ => hok.attempts (live_of_sending hs), nofun⟩, rfl, fun _ => live_of_sending hs⟩

theorem Capped.recover {n : ℕ} (hj : recoverSendingOutbox now t = .ok (n, t')) : Capped t' := by
  refine h.maps (recoverSendingOutbox_ok hj) fun r hr => ?_
  have hok := h.row_ok r hr
  unfold recoverRow
  split
  · exact kept_terminal hok rfl rfl rfl nofun
  · exact Kept.refl hok

end

/-- What the fallback checks before it rewrites the row. -/
theorem replaceOutboxWithFallback_room (hj : replaceOutboxWithFallback now id payloadJson t = .ok (u, t')) :
    let delta := payloadJson.utf8ByteSize - ((t.get? id).map (·.val.payloadBytes)).getD 0
    sumBytes (liveRows t) + delta ≤ storeOutboxMaxQueuedBytes ∧ sumBytes t.rows + delta ≤ outboxTerminalMaxBytes := by
  unfold replaceOutboxWithFallback at hj
  split at hj
  · cases hj
  · obtain ⟨n, -, hj⟩ := bind_eq_ok.1 hj
    dsimp only at hj
    split at hj
    · cases hj
    · next hroom => simpa only [not_or, not_lt] using hroom

/-- The fallback may be longer than the payload it replaces, and is counted. -/
theorem Capped.fallback (h : Capped t) (hj : replaceOutboxWithFallback now id payloadJson t = .ok (u, t')) :
    Capped t' := by
  obtain ⟨hlive, htotal⟩ := replaceOutboxWithFallback_room hj
  obtain ⟨⟨r₀, hr₀, hid₀, hs₀⟩, hm⟩ := replaceOutboxWithFallback_ok hj
  rw [Table.get?_eq_some.2 ⟨hr₀, hid₀⟩] at hlive htotal
  simp only [Option.map_some, Option.getD_some] at hlive htotal
  refine h.replaced hm id _ ?_ ?_ ?_ hlive htotal
  · intro r hr
    unfold setAndPark
    split
    · exact ⟨rfl, fun _ => Nat.zero_lt_of_ne_zero (by decide), nofun⟩
    · split
      · next hl => exact (kept_parkRow (h.row_ok r hr) hl.2).ok
      · exact h.row_ok r hr
  · intro r hr hl
    unfold setAndPark at hl
    split at hl
    · next hid => exact live_of_sending (Table.eq_of_id hr hr₀ (hid.trans hid₀.symm) ▸ hs₀)
    · split at hl
      · next hl' => exact hl'.2
      · exact hl
  · intro r hr
    unfold setAndPark
    split
    · next hid =>
      rw [Table.eq_of_id hr hr₀ (hid.trans hid₀.symm)]
      dsimp only
      omega
    · split <;> exact Nat.le_add_right _ _

/-- **Every operation keeps the bounds.** -/
theorem Capped.op (h : Capped t) {op : OutboxOp} (hj : op.job C now t = .ok (u, t')) : Capped t' := by
  cases op <;> simp only [OutboxOp.job] at hj
  case enqueue row =>
    obtain ⟨o, hj, -⟩ := answer_ok hj
    exact h.enqueueOutbox hj
  case enqueueBatch rows =>
    obtain ⟨os, hj, -⟩ := answer_ok hj
    exact h.enqueueOutboxBatch hj
  case inboundReply notice =>
    obtain ⟨t₁, hj, he⟩ := map_eq_ok.1 hj
    cases he
    exact h.enqueueInboundReply hj
  case sweep olderThanMs maxRows =>
    obtain ⟨n, hj, -⟩ := answer_ok hj
    exact h.sweep hj
  case deferAfter afterId retryMs =>
    obtain ⟨n, hj, -⟩ := answer_ok hj
    cases hj
    refine h.maps (Table.maps_update rfl rfl) fun r hr => ?_
    have hok := h.row_ok r hr
    split
    · exact ⟨⟨hok.bytes, hok.attempts, hok.receipt⟩, rfl, id⟩
    · exact Kept.refl hok
  case claim nowMsValue limit =>
    obtain ⟨batch, hj, -⟩ := answer_ok hj
    exact h.claim hj
  case complete id receiptMessageId => exact h.complete hj
  case fail id attempts nextRetryMs uncertain => exact h.fail hj
  case failAndDefer id attempts nextRetryMs =>
    obtain ⟨deferred, hj, -⟩ := answer_ok hj
    exact h.failAndDefer hj
  case failTerminal id => exact h.failTerminal hj
  case fallback id payloadJson => exact h.fallback hj
  case release id nextRetryMs => exact h.release hj
  case recover =>
    obtain ⟨n, hj, -⟩ := answer_ok hj
    exact h.recover hj

end LarkCodexBridge.Store

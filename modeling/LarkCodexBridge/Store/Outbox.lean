import Mathlib
import LarkCodexBridge.Lib.SqlTable
import LarkCodexBridge.Store.Writer
import LarkCodexBridge.Outbox.Payload

/-!
# The durable outbox

The `outbox` table and the jobs on it. Every job reads the clock once, as `now`; a job that fails leaves the table as
it was, since it runs in one transaction (or is one statement).
-/

namespace LarkCodexBridge.Store

open Limits SqlTable Outbox

/-- Lifecycle of an outbox row. -/
inductive OutboxState where
  | pending | sending | sent | failed | uncertainDelivery
  deriving DecidableEq

/-- The columns of an outbox row other than its id. -/
structure OutboxRow where
  idempotencyKey : String
  scopeKey : String
  kind : String
  payloadJson : String
  payloadBytes : ℕ
  state : OutboxState
  attempts : ℕ
  nextRetryMs : ℤ
  receiptMessageId : Option String
  createdMs : ℤ
  updatedMs : ℤ
  deriving DecidableEq

/-- What a caller gives to enqueue a row. -/
structure NewOutboxRow where
  idempotencyKey : String
  scopeKey : String
  kind : String
  payloadJson : String
  nextRetryMs : ℤ
  deriving DecidableEq

abbrev OutboxTable := Table OutboxRow OutboxRow.idempotencyKey

/-- `state IN ('pending', 'sending')`. -/
def OutboxRow.live (r : OutboxRow) : Bool := r.state = .pending ∨ r.state = .sending

/-- Outcome of an enqueue, with the stored row. -/
inductive OutboxEnqueue where
  | new (row : Row OutboxRow)
  | duplicate (row : Row OutboxRow)

/-- Queue depth for `/status`. -/
structure OutboxDepth where
  pending : ℕ
  sending : ℕ
  failed : ℕ
  uncertain : ℕ
  queuedBytes : ℕ

/-! ## Counting -/

def sumBytes (rows : List (Row OutboxRow)) : ℕ := (rows.map (·.val.payloadBytes)).sum

def liveRows (t : OutboxTable) : List (Row OutboxRow) := t.rows.filter (·.val.live)

def rowsIn (t : OutboxTable) (state : OutboxState) : List (Row OutboxRow) :=
  t.rows.filter fun r => r.val.state = state

/-- `COALESCE(MAX(next_retry_ms), 0)` over the live rows. -/
def retryWatermark (t : OutboxTable) : ℤ := ((liveRows t).map (·.val.nextRetryMs)).max?.getD 0

def outboxDepth (t : OutboxTable) : OutboxDepth where
  pending := (rowsIn t .pending).length
  sending := (rowsIn t .sending).length
  failed := (rowsIn t .failed).length
  uncertain := (rowsIn t .uncertainDelivery).length
  queuedBytes := sumBytes (liveRows t)

/-! ## Retention -/

variable (C : Codec)

/-- A terminal row the sweep may delete: old enough, and not a progress card that a live row still names. -/
def sweepable (t : OutboxTable) (olderThanMs : ℤ) (candidate : Row OutboxRow) : Bool :=
  (candidate.val.state = .sent ∨ candidate.val.state = .failed) ∧ candidate.val.updatedMs < olderThanMs ∧
    ¬(candidate.val.kind = "progress" ∧ ∃ dependent ∈ t.rows, dependent.val.live ∧
      C.jsonAnchorKey dependent.val.payloadJson = some candidate.val.idempotencyKey)

/-- `ORDER BY updated_ms, id`. -/
def sweepOrder (r s : Row OutboxRow) : Prop :=
  r.val.updatedMs < s.val.updatedMs ∨ r.val.updatedMs = s.val.updatedMs ∧ r.id ≤ s.id

instance : DecidableRel sweepOrder := fun r s =>
  inferInstanceAs (Decidable (r.val.updatedMs < s.val.updatedMs ∨ r.val.updatedMs = s.val.updatedMs ∧ r.id ≤ s.id))

def sweepTerminalRowsInline (olderThanMs : ℤ) (maxRows : ℕ) (t : OutboxTable) : ℕ × OutboxTable :=
  let chosen := ((t.rows.filter (sweepable C t olderThanMs)).insertionSort sweepOrder).take
    (min maxRows outboxSweepBatch)
  (chosen.length, t.deleteWhere fun r => chosen.any (·.id == r.id))

def sweepTerminalOutbox (olderThanMs : ℤ) (maxRows : ℕ) : Job OutboxTable ℕ := fun t =>
  .ok (sweepTerminalRowsInline C olderThanMs maxRows t)

/-- `enforce_total_cap`: the table with room for one more row of `payloadBytes`, after at most one sweep. -/
def enforceTotalCap (now : ℤ) (payloadBytes : ℕ) (t : OutboxTable) : Except StoreError OutboxTable :=
  let fits (t : OutboxTable) : Bool :=
    t.rows.length + 1 ≤ outboxTerminalMaxRows ∧ sumBytes t.rows + payloadBytes ≤ outboxTerminalMaxBytes
  if fits t then .ok t
  else
    let swept := (sweepTerminalRowsInline C (saturateI64 (now - outboxTerminalRetentionMs)) outboxSweepBatch t).2
    if fits swept then .ok swept else .error (.capacityExceeded "enqueueing an outbox row")

/-! ## Enqueueing -/

def validateOutboxPayload (row : NewOutboxRow) : Except StoreError Unit :=
  if row.payloadJson.utf8ByteSize > storeOutboxPayloadMaxBytes then
    .error (.payloadTooLarge "enqueueing an outbox payload" storeOutboxPayloadMaxBytes)
  else .ok ()

/-- The live row and byte bounds leave room for `payloadBytes`. -/
def liveCapacity (t : OutboxTable) (payloadBytes : ℕ) : Bool :=
  (liveRows t).length < storeOutboxMaxRows ∧ sumBytes (liveRows t) + payloadBytes ≤ storeOutboxMaxQueuedBytes

def NewOutboxRow.columns (row : NewOutboxRow) (now nextRetryMs : ℤ) : OutboxRow where
  idempotencyKey := row.idempotencyKey
  scopeKey := row.scopeKey
  kind := row.kind
  payloadJson := row.payloadJson
  payloadBytes := row.payloadJson.utf8ByteSize
  state := .pending
  attempts := 0
  nextRetryMs := nextRetryMs
  receiptMessageId := none
  createdMs := now
  updatedMs := now

/-- The checks of `enqueue_one` before its insertion: the retry time of the new row and the table with room for it. -/
def admitOne (now : ℤ) (row : NewOutboxRow) (t : OutboxTable) : Except StoreError (ℤ × OutboxTable) :=
  if (t.lookup row.idempotencyKey).isSome then .ok (row.nextRetryMs, t)
  else if !liveCapacity t row.payloadJson.utf8ByteSize then .error (.capacityExceeded "enqueueing an outbox row")
  else do
    let t ← enforceTotalCap C now row.payloadJson.utf8ByteSize t
    .ok (max row.nextRetryMs (retryWatermark t), t)

def enqueueOne (now : ℤ) (row : NewOutboxRow) : Job OutboxTable OutboxEnqueue := fun t => do
  let (nextRetryMs, t) ← admitOne C now row t
  let (inserted, t) := match t.insertOrIgnore (row.columns now nextRetryMs) with
    | some t' => (true, t')
    | none => (false, t)
  match t.lookup row.idempotencyKey with
  | none => .error (.notFound "re-reading an outbox row")
  | some stored => .ok (if inserted then .new stored else .duplicate stored, t)

def enqueueOutbox (now : ℤ) (row : NewOutboxRow) : Job OutboxTable OutboxEnqueue := fun t => do
  validateOutboxPayload row
  enqueueOne C now row t

/-- The rows of a batch one after the other; the first failure fails all of them. -/
def enqueueAll (now : ℤ) : List NewOutboxRow → Job OutboxTable (List OutboxEnqueue)
  | [], t => .ok ([], t)
  | row :: rows, t => do
    let (outcome, t) ← enqueueOne C now row t
    let (outcomes, t) ← enqueueAll now rows t
    .ok (outcome :: outcomes, t)

def enqueueOutboxBatch (now : ℤ) (rows : List NewOutboxRow) : Job OutboxTable (List OutboxEnqueue) := fun t => do
  if rows.length > storeOutboxMaxRows then .error (.capacityExceeded "enqueueing an outbox batch")
  else do
    rows.forM validateOutboxPayload
    enqueueAll C now rows t

/-- `validate_existing_inbound_reply`: whether the notice is already there, unchanged. -/
def validateExistingInboundReply (notice : NewOutboxRow) (t : OutboxTable) : Except StoreError Bool :=
  if notice.payloadJson.utf8ByteSize > storeOutboxPayloadMaxBytes then
    .error (.payloadTooLarge "enqueueing an inbound rejection notice" storeOutboxPayloadMaxBytes)
  else
    match t.lookup notice.idempotencyKey with
    | none => .ok false
    | some r =>
      if r.val.scopeKey ≠ notice.scopeKey ∨ r.val.kind ≠ notice.kind ∨ r.val.payloadJson ≠ notice.payloadJson ∨
          r.val.payloadBytes ≠ notice.payloadJson.utf8ByteSize then
        .error (.corruptData "validating an inbound rejection notice idempotency key")
      else .ok true

def enqueueNewInboundReply (now : ℤ) (notice : NewOutboxRow) (payloadBytes : ℕ) (t : OutboxTable) :
    Except StoreError OutboxTable := do
  let t ← enforceTotalCap C now payloadBytes t
  match t.insertOrIgnore (notice.columns now (max notice.nextRetryMs (retryWatermark t))) with
  | some t' => .ok t'
  | none => .error (.sqlite "enqueueing an inbound rejection notice" none)

def enqueueInboundReplyInTransaction (now : ℤ) (notice : NewOutboxRow) (t : OutboxTable) :
    Except StoreError OutboxTable := do
  if ← validateExistingInboundReply notice t then .ok t
  else if !liveCapacity t notice.payloadJson.utf8ByteSize then
    .error (.capacityExceeded "enqueueing an inbound rejection notice")
  else enqueueNewInboundReply C now notice notice.payloadJson.utf8ByteSize t

/-! ## Claims -/

/-- Later pending rows wait until `retryMs`: `defer_outbox_after`. -/
def deferOutboxAfter (now : ℤ) (afterId : ℕ) (retryMs : ℤ) : Job OutboxTable ℕ := fun t =>
  let p (r : Row OutboxRow) : Bool := r.val.state = .pending ∧ afterId < r.id ∧ r.val.nextRetryMs < retryMs
  .ok ((t.rows.filter p).length, t.updateWhere p fun r => { r with nextRetryMs := retryMs, updatedMs := now })

/-- The candidates up to the first that exceeds the row or the byte bound. -/
def takeClaim (limit : ℕ) : List (Row OutboxRow) → ℕ → ℕ → List (Row OutboxRow)
  | [], _, _ => []
  | r :: rs, count, bytes =>
    if count ≥ limit ∨ bytes + r.val.payloadBytes > storeOutboxClaimMaxBytes then []
    else r :: takeClaim limit rs (count + 1) (bytes + r.val.payloadBytes)

/-- Pending rows whose retry time has come. -/
def due (nowMsValue : ℤ) (r : Row OutboxRow) : Bool := r.val.state = .pending ∧ r.val.nextRetryMs ≤ nowMsValue

def setSending (now : ℤ) (r : OutboxRow) : OutboxRow := { r with state := .sending, updatedMs := now }

/-- The row as the claim returns it. -/
def claimed (r : Row OutboxRow) : Row OutboxRow := { r with val := { r.val with state := .sending } }

/-- `claim_outbox_batch`; `nowMsValue` is the caller's own reading of the clock. -/
def claimOutboxBatch (now nowMsValue : ℤ) (limit : ℕ) : Job OutboxTable (List (Row OutboxRow)) := fun t =>
  let rows := takeClaim (min limit storeOutboxClaimMaxBatch) (t.rows.filter (due nowMsValue)) 0 0
  .ok (rows.map claimed, t.updateWhere (fun r => rows.any (·.id == r.id)) (setSending now))

/-- `require_sending`: the stored attempts of a claimed row. -/
def requireSending (id : ℕ) (context : String) (t : OutboxTable) : Except StoreError ℕ :=
  match t.get? id with
  | none => .error (.notFound context)
  | some r => if r.val.state = .sending then .ok r.val.attempts else .error (.invalidTransition context)

/-! ## Receipts -/

def completeOutbox (now : ℤ) (id : ℕ) (receiptMessageId : String) : Job OutboxTable Unit := fun t => do
  let _ ← requireSending id "completing an outbox row" t
  .ok ((), t.updateWhere (·.id == id) fun r =>
    { r with state := .sent, receiptMessageId := some receiptMessageId, updatedMs := now })

/-- `u32::saturating_add(1)`. -/
def nextAttempt (attempts : ℕ) : ℕ := min (attempts + 1) u32Max

def failOutbox (now : ℤ) (id attempts : ℕ) (nextRetryMs : ℤ) (uncertain : Bool) : Job OutboxTable Unit := fun t => do
  let storedAttempts ← requireSending id "failing an outbox row" t
  if attempts ≠ nextAttempt storedAttempts then
    .error (.invalidTransition "recording a non-monotonic outbox attempt")
  else
    let state : OutboxState :=
      if uncertain then .uncertainDelivery else if attempts ≥ storeOutboxMaxAttempts then .failed else .pending
    .ok ((), t.updateWhere (·.id == id) fun r =>
      { r with state := state, attempts := attempts, nextRetryMs := nextRetryMs, updatedMs := now })

/-- Back to `pending`, no earlier than `retryMs`. -/
def parkRow (now retryMs : ℤ) (r : OutboxRow) : OutboxRow :=
  { r with
    state := .pending
    nextRetryMs := if r.nextRetryMs < retryMs then retryMs else r.nextRetryMs
    updatedMs := now }

/-- The later live rows wait behind row `id` until `retryMs`. -/
def parkSuccessors (now : ℤ) (id : ℕ) (retryMs : ℤ) (t : OutboxTable) : OutboxTable :=
  t.updateWhere (fun r => id < r.id && r.val.live) (parkRow now retryMs)

/-- `fail_outbox_and_defer_successors`; the value says whether the row stays retryable. -/
def failOutboxAndDeferSuccessors (now : ℤ) (id attempts : ℕ) (nextRetryMs : ℤ) : Job OutboxTable Bool := fun t => do
  let storedAttempts ← requireSending id "retrying an ordered outbox row" t
  if attempts ≠ nextAttempt storedAttempts then
    .error (.invalidTransition "recording a non-monotonic outbox attempt")
  else
    let deferred : Bool := attempts < storeOutboxMaxAttempts
    let t := t.updateWhere (·.id == id) fun r =>
      { r with
        state := if deferred then .pending else .failed
        attempts := attempts
        nextRetryMs := nextRetryMs
        updatedMs := now }
    .ok (deferred, if deferred then parkSuccessors now id nextRetryMs t else t)

def failOutboxTerminal (now : ℤ) (id : ℕ) : Job OutboxTable Unit := fun t => do
  let _ ← requireSending id "terminally failing an outbox row" t
  .ok ((), t.updateWhere (·.id == id) fun r => { r with state := .failed, updatedMs := now })

def replaceOutboxWithFallback (now : ℤ) (id : ℕ) (payloadJson : String) : Job OutboxTable Unit := fun t => do
  if payloadJson.utf8ByteSize > storeOutboxPayloadMaxBytes then
    .error (.payloadTooLarge "persisting an outbox fallback" storeOutboxPayloadMaxBytes)
  else do
    let _ ← requireSending id "persisting an outbox fallback" t
    let oldPayloadBytes := ((t.get? id).map (·.val.payloadBytes)).getD 0
    let replacementDelta := payloadJson.utf8ByteSize - oldPayloadBytes
    if sumBytes (liveRows t) + replacementDelta > storeOutboxMaxQueuedBytes ∨
        sumBytes t.rows + replacementDelta > outboxTerminalMaxBytes then
      .error (.capacityExceeded "persisting an outbox fallback")
    else
      let t := t.updateWhere (·.id == id) fun r =>
        { r with
          payloadJson := payloadJson
          payloadBytes := payloadJson.utf8ByteSize
          state := .pending
          attempts := 0
          nextRetryMs := now
          updatedMs := now }
      .ok ((), parkSuccessors now id now t)

def releaseOutboxClaimAt (now : ℤ) (id : ℕ) (nextRetryMs : ℤ) : Job OutboxTable Unit := fun t => do
  let _ ← requireSending id "releasing an outbox claim" t
  .ok ((), t.updateWhere (·.id == id) fun r =>
    { r with state := .pending, nextRetryMs := nextRetryMs, updatedMs := now })

def recoverSendingOutbox (now : ℤ) : Job OutboxTable ℕ := fun t =>
  .ok ((rowsIn t .sending).length, t.updateWhere (fun r => r.val.state = .sending) fun r =>
    { r with state := .uncertainDelivery, updatedMs := now })

def outboxRowByKey (key : String) : Job OutboxTable (Option (Row OutboxRow)) := fun t => .ok (t.lookup key, t)

end LarkCodexBridge.Store

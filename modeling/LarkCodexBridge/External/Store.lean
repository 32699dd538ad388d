import LarkCodexBridge.Lib.SqlTable
import LarkCodexBridge.Store.Writer

/-!
# Epochs of external endpoints

The durable state of an operator-owned endpoint: its current epoch, the threads it manages, the turns that are known
to be over, and the three tables of the write path (fences, mutation intents, approval claims) that an epoch change
fences.

* `reserveExternalEpoch`, `markExternalUnavailable`: the two bulk updates across all tables;
* `setExternalEndpointState`, `registerExternalThread`, `beginExternalReconciliation`, `markExternalThreadUncertain`,
  `applyTerminals`: what makes a thread ready or unready for a write.
-/

namespace LarkCodexBridge.External

open Limits SqlTable Store

def endpointLabelByteLimit : ℕ := 128

inductive ExternalEndpointState where
  | connecting | reconciling | ready | unavailable | stopped
  deriving DecidableEq

inductive ExternalThreadState where
  | unavailable | reconciling | ready | uncertain
  deriving DecidableEq

inductive ExternalUncertaintyReason where
  | bridgeRestart | socketDisconnect | requestTimeout | bufferOverflow | pageLimit | serverRestart | protocolViolation
  | conflictingTerminal

inductive ExternalTerminalStatus where
  | completed | failed | interrupted
  deriving DecidableEq

inductive ExternalMutationKind where
  | turnStart | turnSteer | turnInterrupt | queueAdd | queueStart
  deriving DecidableEq

inductive ExternalMutationState where
  | prepared | sent | applied | rejected | uncertain
  deriving DecidableEq

/-- `state` and `active_intent_id` of a fence: the table's check ties the second to the first. -/
inductive ExternalWriteFenceState where
  | open
  | active (intentId : String)
  | uncertain
  deriving DecidableEq

inductive ExternalApprovalKind where
  | command | fileChange | permissions
  deriving DecidableEq

inductive ExternalApprovalState where
  | received | claimed | responding | resolved | denied | uncertain
  deriving DecidableEq

/-! ## Tables -/

structure EndpointRow where
  endpointLabel : String
  currentEpoch : ℕ
  state : ExternalEndpointState
  updatedMs : ℤ

structure ManagedThreadRow where
  endpointLabel : String
  threadId : String
  epoch : ℕ
  state : ExternalThreadState
  reason : Option ExternalUncertaintyReason
  updatedMs : ℤ

structure TurnTerminalRow where
  endpointLabel : String
  threadId : String
  turnId : String
  status : ExternalTerminalStatus
  observedEpoch : ℕ

structure FenceRow where
  endpointLabel : String
  threadId : String
  epoch : ℕ
  state : ExternalWriteFenceState
  approvalActor : String
  updatedMs : ℤ

structure IntentRow where
  endpointLabel : String
  threadId : String
  intentId : String
  epoch : ℕ
  kind : ExternalMutationKind
  expectedTurnId : Option String
  clientMessageId : Option String
  sourceActor : String
  clientActor : String
  approvalActor : String
  state : ExternalMutationState
  resultId : Option String
  createdMs : ℤ
  updatedMs : ℤ

structure ApprovalRow where
  endpointLabel : String
  threadId : String
  approvalId : String
  requestKey : String
  epoch : ℕ
  turnId : String
  itemId : String
  kind : ExternalApprovalKind
  sourceActor : String
  clientActor : String
  approvalActor : String
  recipientActor : String
  state : ExternalApprovalState
  deadlineMs : ℤ
  createdMs : ℤ
  updatedMs : ℤ

def ManagedThreadRow.thread (r : ManagedThreadRow) : String × String := (r.endpointLabel, r.threadId)
def FenceRow.thread (r : FenceRow) : String × String := (r.endpointLabel, r.threadId)
def IntentRow.thread (r : IntentRow) : String × String := (r.endpointLabel, r.threadId)
def ApprovalRow.thread (r : ApprovalRow) : String × String := (r.endpointLabel, r.threadId)

/-- The other primary keys. -/
def TurnTerminalRow.key (r : TurnTerminalRow) : String × String × String := (r.endpointLabel, r.threadId, r.turnId)
def IntentRow.key (r : IntentRow) : String × String × String := (r.endpointLabel, r.threadId, r.intentId)
def ApprovalRow.key (r : ApprovalRow) : String × String × String := (r.endpointLabel, r.threadId, r.approvalId)

/-- The tables of the external endpoints. -/
structure ExternalDb where
  endpoints : Table EndpointRow EndpointRow.endpointLabel
  threads : Table ManagedThreadRow ManagedThreadRow.thread
  turnTerminals : Table TurnTerminalRow TurnTerminalRow.key
  fences : Table FenceRow FenceRow.thread
  intents : Table IntentRow IntentRow.key
  approvals : Table ApprovalRow ApprovalRow.key

def ExternalDb.empty : ExternalDb := ⟨.empty, .empty, .empty, .empty, .empty, .empty⟩

/-! ## Checks -/

def validateId (value : String) (limit : ℕ) (context : String) : Except StoreError Unit :=
  if value.utf8ByteSize = 0 ∨ value.utf8ByteSize > limit then .error (.payloadTooLarge context limit) else .ok ()

def validatePair (endpointLabel threadId context : String) : Except StoreError Unit := do
  validateId endpointLabel endpointLabelByteLimit context
  validateId threadId routingIdByteLimit context

def epochI64 (epoch : ℕ) : Except StoreError ℕ :=
  if epoch = 0 then .error (.invalidTransition "using a zero external epoch")
  else if (epoch : ℤ) > i64Max then .error (.capacityExceeded "encoding an external epoch")
  else .ok epoch

theorem epochI64_eq_ok {epoch n : ℕ} (h : epochI64 epoch = .ok n) : n = epoch := by
  unfold epochI64 at h
  split at h
  · cases h
  · split at h
    · cases h
    · cases h; rfl

/-! ## The bulk updates of an epoch -/

/-- `state IN ('prepared', 'sent')`. -/
def ExternalMutationState.live (s : ExternalMutationState) : Bool := s = .prepared ∨ s = .sent

/-- `state IN ('received', 'claimed', 'responding')`. -/
def ExternalApprovalState.pending (s : ExternalApprovalState) : Bool := s = .received ∨ s = .claimed ∨ s = .responding

/-- An intent that the end of its epoch settles: what was not sent did not happen. -/
def IntentRow.fence (now : ℤ) (r : IntentRow) : IntentRow :=
  { r with state := if r.state = .prepared then .rejected else .uncertain, updatedMs := now }

/-- Whether a thread has an uncertain intent or approval. -/
def ExternalDb.threadUncertain (db : ExternalDb) (thread : String × String) : Bool :=
  (db.intents.rows.any fun i => i.val.thread = thread ∧ i.val.state = .uncertain) ||
    db.approvals.rows.any fun a => a.val.thread = thread ∧ a.val.state = .uncertain

/-- A fence at the end of an epoch. -/
def FenceRow.settle (db : ExternalDb) (epoch : ℕ) (now : ℤ) (f : FenceRow) : FenceRow :=
  { f with epoch := epoch, state := if db.threadUncertain f.thread then .uncertain else .open, updatedMs := now }

structure ExternalEpochReservation where
  epoch : ℕ
  state : ExternalEndpointState

inductive ExternalFenceOutcome where
  | current | stale

/-- The endpoint row with a new epoch. -/
def putEndpoint (now : ℤ) (endpointLabel : String) (epoch : ℕ) (t : Table EndpointRow EndpointRow.endpointLabel) :
    Table EndpointRow EndpointRow.endpointLabel :=
  match t.insertOrIgnore ⟨endpointLabel, epoch, .connecting, now⟩ with
  | some t' => t'
  | none => t.updateWhere (·.val.endpointLabel = endpointLabel) fun r =>
      { r with currentEpoch := epoch, state := .connecting, updatedMs := now }

/-- The intents and approvals that `p` and `q` select are settled. -/
def ExternalDb.fenceWork (db : ExternalDb) (now : ℤ) (p : IntentRow → Bool) (q : ApprovalRow → Bool) : ExternalDb :=
  { db with
    intents := db.intents.updateWhere (fun i => p i.val && i.val.state.live) (·.fence now)
    approvals := db.approvals.updateWhere (fun a => q a.val && a.val.state.pending) fun a =>
      { a with state := .uncertain, updatedMs := now } }

def reserveExternalEpoch (now : ℤ) (endpointLabel : String) (restartReason : ExternalUncertaintyReason) :
    Job ExternalDb ExternalEpochReservation := fun db =>
  let next := ((db.endpoints.lookup endpointLabel).map (·.val.currentEpoch)).getD 0 + 1
  if (next : ℤ) > i64Max then .error (.capacityExceeded "incrementing an external epoch")
  else
    let db := { db with
      endpoints := putEndpoint now endpointLabel next db.endpoints
      threads := db.threads.updateWhere
        (fun t => t.val.endpointLabel = endpointLabel ∧ t.val.state ≠ ExternalThreadState.uncertain) fun t =>
          { t with epoch := next, state := .unavailable, reason := some restartReason, updatedMs := now } }
    let db := db.fenceWork now (·.endpointLabel = endpointLabel) (·.endpointLabel = endpointLabel)
    .ok (⟨next, .connecting⟩,
      { db with fences := db.fences.updateWhere (·.val.endpointLabel = endpointLabel) (·.settle db next now) })

def markExternalUnavailable (now : ℤ) (endpointLabel : String) (epoch : ℕ) (reason : ExternalUncertaintyReason) :
    Job ExternalDb ExternalFenceOutcome := fun db => do
  let epoch ← epochI64 epoch
  if !db.endpoints.rows.any fun e => e.val.endpointLabel = endpointLabel ∧ e.val.currentEpoch = epoch then
    .ok (.stale, db)
  else
    let db := { db with
      endpoints := db.endpoints.updateWhere
        (fun e => e.val.endpointLabel = endpointLabel ∧ e.val.currentEpoch = epoch) fun e =>
          { e with state := .unavailable, updatedMs := now }
      threads := db.threads.updateWhere
        (fun t => t.val.endpointLabel = endpointLabel ∧ t.val.epoch = epoch ∧ t.val.state ≠ ExternalThreadState.uncertain) fun t =>
          { t with state := .unavailable, reason := some reason, updatedMs := now } }
    let db := db.fenceWork now (fun i => i.endpointLabel = endpointLabel ∧ i.epoch = epoch)
      (fun a => a.endpointLabel = endpointLabel ∧ a.epoch = epoch)
    .ok (.current,
      { db with
        fences := db.fences.updateWhere (fun f => f.val.endpointLabel = endpointLabel ∧ f.val.epoch = epoch)
          (·.settle db epoch now) })

/-! ## Endpoints and threads -/

def setExternalEndpointState (now : ℤ) (endpointLabel : String) (epoch : ℕ) (state : ExternalEndpointState) :
    Job ExternalDb ExternalFenceOutcome := fun db => do
  let epoch ← epochI64 epoch
  let p : Row EndpointRow → Bool := fun e => e.val.endpointLabel = endpointLabel ∧ e.val.currentEpoch = epoch
  .ok (if db.endpoints.rows.any p then .current else .stale,
    { db with endpoints := db.endpoints.updateWhere p fun e => { e with state := state, updatedMs := now } })

def registerExternalThread (now : ℤ) (endpointLabel threadId : String) : Job ExternalDb Unit := fun db =>
  match db.endpoints.lookup endpointLabel with
  | none => .error (.notFound "registering a thread for an unknown external endpoint")
  | some e =>
    match db.threads.insertOrIgnore ⟨endpointLabel, threadId, e.val.currentEpoch, .unavailable, some .bridgeRestart, now⟩ with
    | none => .ok ((), db)
    | some threads =>
      if db.threads.rows.countP (·.val.endpointLabel = endpointLabel) ≥ externalManagedThreadCapacity then
        .error (.capacityExceeded "registering an external managed thread")
      else .ok ((), { db with threads := threads })

def beginExternalReconciliation (now : ℤ) (endpointLabel threadId : String) (epoch : ℕ) :
    Job ExternalDb ExternalFenceOutcome := fun db => do
  let epoch ← epochI64 epoch
  let current := db.endpoints.rows.any fun e => e.val.endpointLabel = endpointLabel ∧ e.val.currentEpoch = epoch
  let p : Row ManagedThreadRow → Bool := fun t =>
    t.val.thread = (endpointLabel, threadId) ∧ t.val.state ≠ ExternalThreadState.uncertain ∧ current = true
  .ok (if db.threads.rows.any p then .current else .stale,
    { db with
      threads := db.threads.updateWhere p fun t =>
        { t with epoch := epoch, state := .reconciling, reason := none, updatedMs := now } })

/-- The rewriting of a thread to `uncertain`. -/
def ManagedThreadRow.fence (now : ℤ) (reason : ExternalUncertaintyReason) (t : ManagedThreadRow) : ManagedThreadRow :=
  { t with state := .uncertain, reason := some reason, updatedMs := now }

def markExternalThreadUncertain (now : ℤ) (endpointLabel threadId : String) (epoch : ℕ)
    (reason : ExternalUncertaintyReason) : Job ExternalDb ExternalFenceOutcome := fun db => do
  let epoch ← epochI64 epoch
  let current := db.endpoints.rows.any fun e => e.val.endpointLabel = endpointLabel ∧ e.val.currentEpoch = epoch
  let p : Row ManagedThreadRow → Bool := fun t =>
    t.val.thread = (endpointLabel, threadId) ∧ t.val.epoch = epoch ∧ current = true
  .ok (if db.threads.rows.any p then .current else .stale,
    { db with threads := db.threads.updateWhere p (·.fence now reason) })

inductive ExternalApplyOutcome where
  | applied (insertedTurns : ℕ)
  | stale
  | conflictingTerminal

structure ExternalTurnTerminal where
  turnId : String
  status : ExternalTerminalStatus
  deriving DecidableEq

/-- The insertion of the terminals, each unless it is already there, with the number of new rows. -/
def insertTerminals (endpointLabel threadId : String) (epoch : ℕ) : List ExternalTurnTerminal →
    Table TurnTerminalRow TurnTerminalRow.key → ℕ × Table TurnTerminalRow TurnTerminalRow.key
  | [], t => (0, t)
  | turn :: turns, t =>
    match t.insertOrIgnore ⟨endpointLabel, threadId, turn.turnId, turn.status, epoch⟩ with
    | none => insertTerminals endpointLabel threadId epoch turns t
    | some t' => ((insertTerminals endpointLabel threadId epoch turns t').1 + 1,
        (insertTerminals endpointLabel threadId epoch turns t').2)

/-- `apply_terminals`, for the turns. -/
def applyTerminals (now : ℤ) (endpointLabel threadId : String) (epoch : ℕ) (turns : List ExternalTurnTerminal)
    (finishReconciliation : Bool) : Job ExternalDb ExternalApplyOutcome := fun db => do
  let epoch ← epochI64 epoch
  let expected : ExternalThreadState := if finishReconciliation then .reconciling else .ready
  let thread : Row ManagedThreadRow → Bool := fun t => t.val.thread = (endpointLabel, threadId) ∧ t.val.epoch = epoch
  if !((db.threads.rows.any fun t => thread t && t.val.state = expected) &&
      db.endpoints.rows.any fun e => e.val.endpointLabel = endpointLabel ∧ e.val.currentEpoch = epoch) then
    .ok (.stale, db)
  else if turns.any fun turn => (db.turnTerminals.lookup (endpointLabel, threadId, turn.turnId)).any
      fun prior => prior.val.status ≠ turn.status then
    .ok (.conflictingTerminal,
      { db with threads := db.threads.updateWhere thread (·.fence now .conflictingTerminal) })
  else
    let inserted := insertTerminals endpointLabel threadId epoch turns db.turnTerminals
    .ok (.applied inserted.1,
      { db with
        turnTerminals := inserted.2
        threads := if finishReconciliation then
            db.threads.updateWhere thread fun t => { t with state := .ready, reason := none, updatedMs := now }
          else db.threads })

end LarkCodexBridge.External

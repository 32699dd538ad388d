import LarkCodexBridge.Lib.Run
import LarkCodexBridge.External.Store

/-!
# Mutation intents, write fences and approval claims

The jobs of the write path of an external endpoint. A thread has at most one fence row. `prepareExternalMutation`
takes the open fence for an intent, `resolveExternalMutation` gives it back; an approval is received on an open fence,
claimed by its one recipient and answered.

An error of a job leaves the tables as they are. `reassignExternalApprovalActor` is the one statement that runs
outside a transaction and can still report an error, so its error is part of its value.
-/

namespace LarkCodexBridge.External

open Limits SqlTable Store StepSystem

def actorByteLimit : ℕ := 256
def intentIdByteLimit : ℕ := 128
def requestKeyByteLimit : ℕ := 128

/-! ## Mutation intents -/

structure NewExternalMutationIntent where
  endpointLabel : String
  threadId : String
  intentId : String
  epoch : ℕ
  kind : ExternalMutationKind
  expectedTurnId : Option String
  clientMessageId : Option String
  sourceActor : String
  clientActor : String
  approvalActor : String

inductive ExternalPrepareOutcome where
  | prepared
  | duplicate (state : ExternalMutationState)
  | busy
  | uncertain
  | notReady
  | staleEpoch
  | approvalHandlerMismatch

inductive ExternalTransitionOutcome where
  | applied | stale

/-- Kinds that name the turn they are about. -/
def ExternalMutationKind.requiresTurn : ExternalMutationKind → Bool
  | .turnSteer | .turnInterrupt | .queueAdd => true
  | .turnStart | .queueStart => false

def ExternalMutationKind.requiresMessage : ExternalMutationKind → Bool
  | .turnStart | .turnSteer | .queueAdd => true
  | .turnInterrupt | .queueStart => false

/-- A check of an optional identifier. -/
def validateOptional (value : Option String) (limit : ℕ) (context : String) : Except StoreError Unit :=
  match value with
  | some value => validateId value limit context
  | none => .ok ()

def validateIntent (intent : NewExternalMutationIntent) : Except StoreError Unit := do
  validateId intent.endpointLabel endpointLabelByteLimit "preparing an external mutation"
  validateId intent.threadId routingIdByteLimit "preparing an external mutation"
  validateId intent.intentId intentIdByteLimit "preparing an external mutation"
  validateId intent.sourceActor actorByteLimit "preparing an external mutation"
  validateId intent.clientActor actorByteLimit "preparing an external mutation"
  validateId intent.approvalActor actorByteLimit "preparing an external mutation"
  validateOptional intent.expectedTurnId routingIdByteLimit "preparing an external mutation"
  validateOptional intent.clientMessageId routingIdByteLimit "preparing an external mutation"
  if intent.kind.requiresTurn ≠ intent.expectedTurnId.isSome ∨
      intent.kind.requiresMessage ≠ intent.clientMessageId.isSome then
    .error (.invalidTransition "validating an external mutation shape")
  else .ok ()

def NewExternalMutationIntent.row (intent : NewExternalMutationIntent) (epoch : ℕ) (now : ℤ) : IntentRow where
  endpointLabel := intent.endpointLabel
  threadId := intent.threadId
  intentId := intent.intentId
  epoch := epoch
  kind := intent.kind
  expectedTurnId := intent.expectedTurnId
  clientMessageId := intent.clientMessageId
  sourceActor := intent.sourceActor
  clientActor := intent.clientActor
  approvalActor := intent.approvalActor
  state := .prepared
  resultId := none
  createdMs := now
  updatedMs := now

def NewExternalMutationIntent.thread (intent : NewExternalMutationIntent) : String × String :=
  (intent.endpointLabel, intent.threadId)

/-- The epoch and state of an endpoint and of one of its threads. -/
def ExternalDb.readiness (db : ExternalDb) (endpointLabel threadId : String) : Option (EndpointRow × ManagedThreadRow) :=
  match db.endpoints.lookup endpointLabel, db.threads.lookup (endpointLabel, threadId) with
  | some e, some t => some (e.val, t.val)
  | _, _ => none

def prepareExternalMutation (now : ℤ) (intent : NewExternalMutationIntent) : Job ExternalDb ExternalPrepareOutcome :=
  fun db =>
  match db.intents.lookup (intent.row intent.epoch now).key with
  | some r => .ok (.duplicate r.val.state, db)
  | none =>
    match db.readiness intent.endpointLabel intent.threadId with
    | none => .ok (.notReady, db)
    | some (e, t) => do
      let epoch ← epochI64 intent.epoch
      if e.currentEpoch ≠ epoch ∨ t.epoch ≠ epoch then .ok (.staleEpoch, db)
      else if e.state ≠ .ready ∨ t.state ≠ .ready then .ok (.notReady, db)
      else
        let fences := (db.fences.insertOrIgnore
          ⟨intent.endpointLabel, intent.threadId, epoch, .open, intent.approvalActor, now⟩).getD db.fences
        match fences.lookup intent.thread with
        | none => .error (.sqlite "reading an external write fence" none)
        | some f =>
          if f.val.approvalActor ≠ intent.approvalActor then .ok (.approvalHandlerMismatch, db)
          else
            match f.val.state with
            | .active _ => .ok (.busy, db)
            | .uncertain => .ok (.uncertain, db)
            | .open =>
              match db.intents.insertOrIgnore (intent.row epoch now) with
              | none => .error (.sqlite "recording an external mutation intent" none)
              | some intents =>
                .ok (.prepared,
                  { db with
                    intents := intents
                    fences := fences.updateWhere (fun f => f.val.thread = intent.thread ∧ f.val.state = .open) fun f =>
                      { f with epoch := epoch, state := .active intent.intentId, updatedMs := now } })

/-- The intent with a key, if it is of the epoch. -/
def ExternalDb.intentAt (db : ExternalDb) (key : String × String × String) (epoch : ℕ) : Option IntentRow :=
  ((db.intents.lookup key).filter fun r => r.val.epoch = epoch).map (·.val)

/-- The thread's fence is held by the intent in the epoch. -/
def FenceRow.heldBy (f : FenceRow) (endpointLabel threadId intentId : String) (epoch : ℕ) : Bool :=
  f.thread = (endpointLabel, threadId) ∧ f.epoch = epoch ∧ f.state = .active intentId

/-- Whether the fence of the thread is held by the intent in the epoch. -/
def ExternalDb.held (db : ExternalDb) (endpointLabel threadId intentId : String) (epoch : ℕ) : Bool :=
  db.fences.rows.any fun f => f.val.heldBy endpointLabel threadId intentId epoch

/-- The prepared intents with the key and the epoch whose fence is held by them. -/
def ExternalDb.sendable (db : ExternalDb) (endpointLabel threadId intentId : String) (epoch : ℕ) (i : Row IntentRow) : Bool :=
  i.val.key = (endpointLabel, threadId, intentId) ∧ i.val.epoch = epoch ∧ i.val.state = .prepared ∧
    db.held endpointLabel threadId intentId epoch = true

def markExternalMutationSent (now : ℤ) (endpointLabel threadId intentId : String) (epoch : ℕ) :
    Job ExternalDb ExternalTransitionOutcome := fun db => do
  let epoch ← epochI64 epoch
  if db.intents.rows.any (db.sendable endpointLabel threadId intentId epoch) then
    .ok (.applied,
      { db with
        intents := db.intents.updateWhere (db.sendable endpointLabel threadId intentId epoch) fun i =>
          { i with state := .sent, updatedMs := now } })
  else
    match db.intentAt (endpointLabel, threadId, intentId) epoch with
    | none => .ok (.stale, db)
    | some r =>
      if r.state = .sent then .ok (.applied, db) else .error (.invalidTransition "sending an external mutation")

inductive ExternalMutationResolution where
  | applied (resultId : Option String)
  | rejected
  | uncertain

/-- The state an intent is resolved to. -/
def ExternalMutationResolution.target : ExternalMutationResolution → ExternalMutationState
  | .applied _ => .applied
  | .rejected => .rejected
  | .uncertain => .uncertain

/-- The states it may be resolved from. -/
def ExternalMutationResolution.allows (r : ExternalMutationResolution) (s : ExternalMutationState) : Bool :=
  match r with
  | .applied _ | .uncertain => s = .sent
  | .rejected => s = .prepared ∨ s = .sent

def ExternalMutationResolution.fence : ExternalMutationResolution → ExternalWriteFenceState
  | .applied _ | .rejected => .open
  | .uncertain => .uncertain

def ExternalMutationResolution.resultId : ExternalMutationResolution → Option String
  | .applied resultId => resultId
  | .rejected | .uncertain => none

/-- The checks of `resolve_external_mutation`. -/
def resolveMutationCheck (endpointLabel threadId intentId : String) (resolution : ExternalMutationResolution) :
    Except StoreError Unit := do
  validatePair endpointLabel threadId "resolving an external mutation"
  validateId intentId intentIdByteLimit "resolving an external mutation"
  validateOptional resolution.resultId routingIdByteLimit "resolving an external mutation"

/-- The intent is settled and its fence given back. -/
def ExternalDb.release (db : ExternalDb) (now : ℤ) (endpointLabel threadId intentId : String) (epoch : ℕ)
    (resolution : ExternalMutationResolution) : ExternalDb :=
  { db with
    intents := db.intents.updateWhere
      (fun i => i.val.key = (endpointLabel, threadId, intentId) ∧ i.val.epoch = epoch) fun i =>
        { i with state := resolution.target, resultId := resolution.resultId, updatedMs := now }
    fences := db.fences.updateWhere (fun f => f.val.heldBy endpointLabel threadId intentId epoch) fun f =>
      { f with state := resolution.fence, updatedMs := now } }

def resolveExternalMutation (now : ℤ) (endpointLabel threadId intentId : String) (epoch : ℕ)
    (resolution : ExternalMutationResolution) : Job ExternalDb ExternalTransitionOutcome := fun db => do
  let epoch ← epochI64 epoch
  match db.intentAt (endpointLabel, threadId, intentId) epoch with
  | none => .ok (.stale, db)
  | some r =>
    if !resolution.allows r.state then
      if r.state = resolution.target then .ok (.applied, db)
      else .error (.invalidTransition "resolving an external mutation")
    else if !db.held endpointLabel threadId intentId epoch then
      .error (.invalidTransition "releasing an external write fence")
    else .ok (.applied, db.release now endpointLabel threadId intentId epoch resolution)

structure ExternalMutationOwner where
  sourceActor : String
  clientActor : String
  approvalActor : String
  deriving DecidableEq

/-- The row that was updated last, the later one of two at the same instant. -/
def latest (rows : List (Row IntentRow)) : Option (Row IntentRow) :=
  rows.foldl (fun best r => match best with
    | some b => if b.val.updatedMs ≤ r.val.updatedMs then some r else some b
    | none => some r) none

def ExternalDb.turnOver (db : ExternalDb) (endpointLabel threadId turnId : String) : Bool :=
  (db.turnTerminals.lookup (endpointLabel, threadId, turnId)).isSome

def IntentRow.owner (r : IntentRow) : ExternalMutationOwner := ⟨r.sourceActor, r.clientActor, r.approvalActor⟩

def externalMutationOwner (endpointLabel threadId resultId : String) : Job ExternalDb (Option ExternalMutationOwner) :=
  fun db =>
  .ok ((latest (db.intents.rows.filter fun i => i.val.thread = (endpointLabel, threadId) ∧
      i.val.resultId = some resultId ∧ i.val.state = .applied ∧
      (i.val.kind = .queueAdd ∨ db.turnOver endpointLabel threadId resultId = false))).map (·.val.owner), db)

/-! ## Approval claims -/

structure NewExternalApprovalClaim where
  endpointLabel : String
  threadId : String
  approvalId : String
  requestKey : String
  epoch : ℕ
  turnId : String
  itemId : String
  kind : ExternalApprovalKind
  clientActor : String
  approvalActor : String
  recipientActor : String
  deadlineMs : ℤ

inductive ExternalApprovalReceiveOutcome where
  | received
  | duplicate (approvalId : String) (state : ExternalApprovalState)
  | notOwned
  | notReady
  | staleEpoch
  | threadFenced
  | approvalHandlerMismatch

inductive ExternalApprovalClaimOutcome where
  | claimed | duplicate | unauthorized | stale
  deriving DecidableEq

def validateApprovalKey (endpointLabel threadId approvalId recipientActor context : String) : Except StoreError Unit := do
  validateId endpointLabel endpointLabelByteLimit context
  validateId threadId routingIdByteLimit context
  validateId approvalId intentIdByteLimit context
  validateId recipientActor actorByteLimit context

def validateApprovalClaim (now : ℤ) (claim : NewExternalApprovalClaim) : Except StoreError Unit := do
  validateApprovalKey claim.endpointLabel claim.threadId claim.approvalId claim.recipientActor
    "recording an external approval"
  validateId claim.requestKey requestKeyByteLimit "recording an external approval"
  validateId claim.turnId routingIdByteLimit "recording an external approval"
  validateId claim.itemId routingIdByteLimit "recording an external approval"
  validateId claim.clientActor actorByteLimit "recording an external approval"
  validateId claim.approvalActor actorByteLimit "recording an external approval"
  if claim.deadlineMs ≤ now then .error (.invalidTransition "recording an expired external approval") else .ok ()

def NewExternalApprovalClaim.row (claim : NewExternalApprovalClaim) (epoch : ℕ) (sourceActor : String) (now : ℤ) :
    ApprovalRow where
  endpointLabel := claim.endpointLabel
  threadId := claim.threadId
  approvalId := claim.approvalId
  requestKey := claim.requestKey
  epoch := epoch
  turnId := claim.turnId
  itemId := claim.itemId
  kind := claim.kind
  sourceActor := sourceActor
  clientActor := claim.clientActor
  approvalActor := claim.approvalActor
  recipientActor := claim.recipientActor
  state := .received
  deadlineMs := claim.deadlineMs
  createdMs := now
  updatedMs := now

/-- The request key of an epoch of an endpoint. -/
def ApprovalRow.isRequest (r : ApprovalRow) (endpointLabel requestKey : String) (epoch : ℕ) : Bool :=
  r.endpointLabel = endpointLabel ∧ r.requestKey = requestKey ∧ r.epoch = epoch

/-- The intent that owns a turn, for the approvals of that turn. -/
def ExternalDb.turnOwner (db : ExternalDb) (endpointLabel threadId turnId : String) : Option ExternalMutationOwner :=
  (latest (db.intents.rows.filter fun i => i.val.thread = (endpointLabel, threadId) ∧
    i.val.resultId = some turnId ∧ i.val.state = .applied ∧
    (i.val.kind = .turnStart ∨ i.val.kind = .turnSteer ∨ i.val.kind = .queueStart) ∧
    db.turnOver endpointLabel threadId turnId = false)).map (·.val.owner)

def receiveExternalApproval (now : ℤ) (claim : NewExternalApprovalClaim) : Job ExternalDb ExternalApprovalReceiveOutcome :=
  fun db => do
  let epoch ← epochI64 claim.epoch
  match db.approvals.rows.find? fun a => a.val.isRequest claim.endpointLabel claim.requestKey epoch with
  | some a => .ok (.duplicate a.val.approvalId a.val.state, db)
  | none =>
    match db.readiness claim.endpointLabel claim.threadId with
    | none => .ok (.notReady, db)
    | some (e, t) =>
      if e.currentEpoch ≠ epoch ∨ t.epoch ≠ epoch then .ok (.staleEpoch, db)
      else if e.state ≠ .ready ∨ t.state ≠ .ready then .ok (.notReady, db)
      else if (db.fences.lookup (claim.endpointLabel, claim.threadId)).map (·.val.state) ≠ some .open then
        .ok (.threadFenced, db)
      else
        match db.turnOwner claim.endpointLabel claim.threadId claim.turnId with
        | none => .ok (.notOwned, db)
        | some owner =>
          if owner.clientActor ≠ claim.clientActor then .ok (.notOwned, db)
          else if owner.approvalActor ≠ claim.approvalActor then .ok (.approvalHandlerMismatch, db)
          else
            match db.approvals.insertOrIgnore (claim.row epoch owner.sourceActor now) with
            | none => .error (.sqlite "recording an external approval" none)
            | some approvals => .ok (.received, { db with approvals := approvals })

def claimExternalApproval (now : ℤ) (endpointLabel threadId approvalId recipientActor : String) (epoch : ℕ) :
    Job ExternalDb ExternalApprovalClaimOutcome := fun db => do
  let epoch ← epochI64 epoch
  let p : Row ApprovalRow → Bool := fun a =>
    a.val.key = (endpointLabel, threadId, approvalId) ∧ a.val.recipientActor = recipientActor ∧ a.val.epoch = epoch ∧
      a.val.state = .received ∧ a.val.deadlineMs > now
  if db.approvals.rows.any p then
    .ok (.claimed,
      { db with approvals := db.approvals.updateWhere p fun a => { a with state := .claimed, updatedMs := now } })
  else
    match db.approvals.lookup (endpointLabel, threadId, approvalId) with
    | none => .ok (.stale, db)
    | some a =>
      if a.val.epoch = epoch ∧ a.val.recipientActor = recipientActor then
        .ok (if a.val.state = .claimed then .duplicate else .stale, db)
      else .ok (.unauthorized, db)

inductive ExternalApprovalResolution where
  | responding | resolved | denied | uncertain
  deriving DecidableEq

/-- The state an approval is resolved to. -/
def ExternalApprovalResolution.target : ExternalApprovalResolution → ExternalApprovalState
  | .responding => .responding
  | .resolved => .resolved
  | .denied => .denied
  | .uncertain => .uncertain

/-- The states it may be resolved from. -/
def ExternalApprovalResolution.allows (r : ExternalApprovalResolution) (s : ExternalApprovalState) : Bool :=
  match r with
  | .responding => s = .claimed
  | .resolved => s.pending ∨ s = .denied
  | .denied | .uncertain => s.pending

/-- The checks of `resolve_external_approval`. -/
def resolveApprovalCheck (endpointLabel threadId approvalId : String) : Except StoreError Unit := do
  validatePair endpointLabel threadId "resolving an external approval"
  validateId approvalId intentIdByteLimit "resolving an external approval"

/-- The approval with a key, if it is of the epoch. -/
def ExternalDb.approvalAt (db : ExternalDb) (key : String × String × String) (epoch : ℕ) : Option ApprovalRow :=
  ((db.approvals.lookup key).filter fun r => r.val.epoch = epoch).map (·.val)

def resolveExternalApproval (now : ℤ) (endpointLabel threadId approvalId : String) (epoch : ℕ)
    (resolution : ExternalApprovalResolution) : Job ExternalDb ExternalTransitionOutcome := fun db => do
  let epoch ← epochI64 epoch
  match db.approvalAt (endpointLabel, threadId, approvalId) epoch with
  | none => .ok (.stale, db)
  | some r =>
    if r.state = resolution.target then .ok (.applied, db)
    else if !resolution.allows r.state then .error (.invalidTransition "resolving an external approval")
    else
      .ok (.applied,
        { db with
          approvals := db.approvals.updateWhere
            (fun a => a.val.key = (endpointLabel, threadId, approvalId) ∧ a.val.epoch = epoch) fun a =>
              { a with state := resolution.target, updatedMs := now }
          fences := if resolution = .uncertain then
              db.fences.updateWhere (fun f => f.val.thread = (endpointLabel, threadId) ∧ f.val.epoch = epoch) fun f =>
                { f with state := .uncertain, updatedMs := now }
            else db.fences })

def resolveExternalApprovalRequest (now : ℤ) (endpointLabel requestKey : String) (epoch : ℕ) :
    Job ExternalDb ExternalTransitionOutcome := fun db => do
  let epoch ← epochI64 epoch
  let p : Row ApprovalRow → Bool := fun a =>
    a.val.isRequest endpointLabel requestKey epoch && ExternalApprovalResolution.resolved.allows a.val.state
  .ok (if db.approvals.rows.countP p = 1 then .applied else .stale,
    { db with approvals := db.approvals.updateWhere p fun a => { a with state := .resolved, updatedMs := now } })

inductive ExternalApprovalReassignmentOutcome where
  | reassigned | notDrained | stale

/-- The checks of `reassign_external_approval_actor`. -/
def reassignCheck (endpointLabel oldActor newActor : String) : Except StoreError Unit := do
  validateId endpointLabel endpointLabelByteLimit "reassigning an external approval actor"
  validateId oldActor actorByteLimit "reassigning an external approval actor"
  validateId newActor actorByteLimit "reassigning an external approval actor"

/-- Whether an endpoint still has work that names its approval actor. -/
def ExternalDb.busy (db : ExternalDb) (endpointLabel : String) : Bool :=
  (db.fences.rows.any fun f => f.val.endpointLabel = endpointLabel ∧ f.val.state ≠ .open) ||
  (db.intents.rows.any fun i => i.val.endpointLabel = endpointLabel ∧ (i.val.state.live ∨ i.val.state = .uncertain)) ||
  (db.intents.rows.any fun i => i.val.endpointLabel = endpointLabel ∧ i.val.state = .applied ∧
    (i.val.kind = .turnStart ∨ i.val.kind = .turnSteer ∨ i.val.kind = .queueStart) ∧
    (i.val.resultId.any fun turnId => !db.turnOver endpointLabel i.val.threadId turnId) = true) ||
  db.approvals.rows.any fun a => a.val.endpointLabel = endpointLabel ∧ (a.val.state.pending ∨ a.val.state = .uncertain)

def reassignExternalApprovalActor (now : ℤ) (endpointLabel : String) (epoch : ℕ) (oldActor newActor : String) :
    Job ExternalDb (Except StoreError ExternalApprovalReassignmentOutcome) := fun db => do
  let epoch ← epochI64 epoch
  if !db.endpoints.rows.any fun e => e.val.endpointLabel = endpointLabel ∧ e.val.currentEpoch = epoch ∧
      e.val.state = .ready then
    .ok (.ok .stale, db)
  else if db.busy endpointLabel then .ok (.ok .notDrained, db)
  else
    let p : Row FenceRow → Bool := fun f =>
      f.val.endpointLabel = endpointLabel ∧ f.val.approvalActor = oldActor ∧ f.val.state = .open
    .ok (if db.fences.rows.countP p > externalManagedThreadCapacity then
          .error (.capacityExceeded "reassigning external approval actors")
        else .ok .reassigned,
      { db with fences := db.fences.updateWhere p fun f => { f with approvalActor := newActor, updatedMs := now } })

end LarkCodexBridge.External

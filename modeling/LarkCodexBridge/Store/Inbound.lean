import LarkCodexBridge.Store.InboundPayload
import LarkCodexBridge.Store.Turns
import LarkCodexBridge.Store.Outbox

/-!
# The durable inbox

The `inbound_events` table and the jobs on it, over the database of inbound rows, turns and outbox rows. A row goes
`received → accepted → completed | rejected` or `received → completed | rejected`; it carries its payload in the first
two states, the turn that claimed it from `accepted` on, and the key of its reply in the outbox once one was enqueued.

Every job reads the clock once, as `now`, and fails without effect. What a call checks before it reaches the writer is a
function of its own (`beginTurnCheck`, `resolveTarget`).
-/

namespace LarkCodexBridge.Store

open Limits SqlTable Outbox Lark

/-! ## Rows -/

/-- Processing state of an inbound row. -/
inductive InboundEventState where
  | received | accepted | completed | rejected
  deriving DecidableEq

/-- The columns of an inbound row. -/
structure InboundRow where
  tenant : String
  eventId : String
  messageId : String
  scopeKey : String
  state : InboundEventState
  firstSeenMs : ℤ
  updatedMs : ℤ
  rejectionReason : Option String
  payloadVersion : Option ℤ
  payloadBlob : Option ByteArray
  payloadBytes : ℕ
  turnRowId : Option ℕ
  replyOutboxKey : Option String
  deriving DecidableEq

def InboundRow.key (r : InboundRow) : String × String := (r.tenant, r.eventId)

abbrev InboundTable := Table InboundRow InboundRow.key

/-- The tables the inbox works on. -/
structure Db where
  inbound : InboundTable
  turns : TurnTable
  outbox : OutboxTable

/-- The empty database of the current schema. -/
def Db.empty : Db := ⟨.empty, .empty, .empty⟩

/-- Identity of one inbound row. -/
structure InboundKey where
  tenant : TenantNamespace
  eventId : String
  deriving DecidableEq

def InboundKey.key (k : InboundKey) : String × String := (k.tenant.asHex, k.eventId)

/-- Outcome of a registration. -/
inductive DedupOutcome where
  | new (retained : RetainedInbound)
  | replayReceived (retained : RetainedInbound)
  | duplicate (key : InboundKey) (state : InboundEventState) (turnRowId : Option ℕ)

/-- A row claimed by a new turn. -/
structure ClaimedInbound where
  key : InboundKey
  retained : RetainedInbound

/-- A row that a claim found already claimed or terminal. -/
structure SkippedInbound where
  key : InboundKey
  state : InboundEventState
  turnRowId : Option ℕ

/-- Outcome of a claim. -/
inductive BeginTurnOutcome where
  | started (turnRowId : ℕ) (claimed : List ClaimedInbound) (skipped : List SkippedInbound)
  | noReceived (skipped : List SkippedInbound)

/-- Terminal state requested for the rows of a turn. -/
inductive InboundTerminal where
  | completed | rejected
  deriving DecidableEq

/-- How a turn ended. -/
inductive TurnResolution where
  | completed | failed | interrupted | uncertain
  deriving DecidableEq

/-- Outcome of a resolution. -/
inductive ResolveTurnOutcome where
  | resolved (inboundRows : ℕ)
  | alreadyResolved (inboundRows : ℕ)

/-- Why a received row is refused. -/
inductive InboundRejectionKind where
  | overloaded | notOwner | notSender | notGroup | missingMention | ownerCommandRequired | policy | stale | internal
  deriving DecidableEq

def InboundRejectionKind.all : List InboundRejectionKind :=
  [.overloaded, .notOwner, .notSender, .notGroup, .missingMention, .ownerCommandRequired, .policy, .stale, .internal]

def InboundRejectionKind.asStr : InboundRejectionKind → String
  | .overloaded => "overloaded"
  | .notOwner => "not_owner"
  | .notSender => "not_sender"
  | .notGroup => "not_group"
  | .missingMention => "missing_mention"
  | .ownerCommandRequired => "owner_command_required"
  | .policy => "policy"
  | .stale => "stale"
  | .internal => "internal"

/-- Outcome of settling one row without a turn. -/
inductive InboundDisposition where
  | completed
  | rejected
  | alreadyRejected
  | alreadyClaimed (turnRowId : ℕ)
  | alreadyCompleted
  deriving DecidableEq

/-! ## Reply keys -/

def inboundReplyOutboxKey (tenant eventId suffix : String) : String :=
  "inbound:v1:" ++ tenant ++ ":" ++ eventId ++ ":" ++ suffix

def InboundKey.controlOutboxIdempotencyKey (k : InboundKey) : String :=
  inboundReplyOutboxKey k.tenant.asHex k.eventId "control"

def InboundKey.rejectionOutboxIdempotencyKey (k : InboundKey) (reason : InboundRejectionKind) : String :=
  inboundReplyOutboxKey k.tenant.asHex k.eventId ("notice:" ++ reason.asStr)

def inboundReplyKeyMaxBytes : ℕ :=
  "inbound:v1:".utf8ByteSize + tenantNamespaceHexBytes + 1 + storeInboundIdMaxBytes + 1 + "notice:".utf8ByteSize +
    storeRejectionReasonMaxBytes

def isClassifiedInboundRejection (reason : String) : Bool := InboundRejectionKind.all.any (·.asStr == reason)

/-! ## Statements -/

def sqliteConstraintPrimaryKey : ℤ := 1555
def sqliteConstraintTrigger : ℤ := 1811

/-- `inbound_events_v2_shape_*`: the shape of a row in its state. -/
def v2Shape (turns : TurnTable) (new : InboundRow) : Bool :=
  let payload : Bool := new.payloadVersion = some 1 ∧ (new.payloadBlob.map (·.size)) = some new.payloadBytes
  match new.state with
  | .received => payload && new.turnRowId.isNone
  | .accepted => payload && new.turnRowId.any fun id =>
      turns.rows.any fun t => t.id == id && t.val.scopeKey == new.scopeKey
  | .completed | .rejected =>
    new.payloadVersion.isNone && new.payloadBlob.isNone && new.payloadBytes == 0 && new.turnRowId.all fun id =>
      turns.rows.any fun t => t.id == id && t.val.scopeKey == new.scopeKey &&
        decide (t.val.state = .completed ∨ t.val.state = .failed ∨ t.val.state = .interrupted ∨
          t.val.state = .uncertain ∧ t.val.uncertain = false)

/-- `inbound_events_v12_reply_effect_*`: the key a reply marker must have. -/
def v12ReplyEffect (new : InboundRow) : Bool :=
  new.replyOutboxKey.all fun recorded =>
    decide (1 ≤ recorded.utf8ByteSize ∧ recorded.utf8ByteSize ≤ 4308) && isTenantNamespace new.tenant &&
      new.turnRowId.isNone &&
      ((decide (new.state = .completed) && new.rejectionReason.isNone &&
          recorded == inboundReplyOutboxKey new.tenant new.eventId "control") ||
        (decide (new.state = .rejected) && new.rejectionReason.any fun reason =>
          isClassifiedInboundRejection reason &&
            recorded == inboundReplyOutboxKey new.tenant new.eventId ("notice:" ++ reason)))

/-- Both update triggers: a marker, once set, stays. -/
def updateAllowed (turns : TurnTable) (old new : InboundRow) : Bool :=
  v2Shape turns new && (old.replyOutboxKey.isNone || old.replyOutboxKey == new.replyOutboxKey) && v12ReplyEffect new

/-- `INSERT INTO inbound_events`. -/
def Db.insertInbound (db : Db) (row : InboundRow) (context : String) : Except StoreError Db :=
  if !(v2Shape db.turns row && v12ReplyEffect row) then .error (.sqlite context sqliteConstraintTrigger)
  else
    match db.inbound.insertOrIgnore row with
    | some inbound => .ok { db with inbound := inbound }
    | none => .error (.sqlite context sqliteConstraintPrimaryKey)

/-- `UPDATE inbound_events SET g WHERE p`, with the number of changed rows. -/
def Db.updateInbound (db : Db) (context : String) (p : InboundRow → Bool) (g : InboundRow → InboundRow)
    (hg : ∀ r, (g r).key = r.key := by intro _; rfl) : Except StoreError (ℕ × Db) :=
  let chosen := db.inbound.rows.filter (p ·.val)
  if !chosen.all fun r => updateAllowed db.turns r.val (g r.val) then .error (.sqlite context sqliteConstraintTrigger)
  else .ok (chosen.length, { db with inbound := db.inbound.updateWhere (p ·.val) g hg })

/-- An update that must change exactly one row. -/
def Db.updateOne (db : Db) (context changedContext : String) (p : InboundRow → Bool) (g : InboundRow → InboundRow)
    (hg : ∀ r, (g r).key = r.key := by intro _; rfl) : Except StoreError Db :=
  match db.updateInbound context p g hg with
  | .error e => .error e
  | .ok (changed, db) => if changed ≠ 1 then .error (.corruptData changedContext) else .ok db

def readInboundRow (db : Db) (key : String × String) : Option InboundRow := (db.inbound.lookup key).map (·.val)

/-- `read_message_candidates`: the rows of a message that were not rejected. -/
def readMessageCandidates (db : Db) (tenant messageId : String) : List InboundRow :=
  (db.inbound.rows.filter fun r =>
    r.val.tenant == tenant && r.val.messageId == messageId && decide (r.val.state ≠ .rejected)).map (·.val)

/-! ## Capacity -/

/-- The bytes of a row that count against the inbox. -/
def InboundRow.logicalBytes (r : InboundRow) : ℕ :=
  r.tenant.utf8ByteSize + r.eventId.utf8ByteSize + r.messageId.utf8ByteSize + r.scopeKey.utf8ByteSize +
    optionBytes r.rejectionReason + optionBytes r.replyOutboxKey + r.payloadBytes

def Db.logicalBytes (db : Db) : ℕ := (db.inbound.rows.map (·.val.logicalBytes)).sum

def Db.receivedRows (db : Db) : List (Row InboundRow) := db.inbound.rows.filter fun r => r.val.state = .received

def Db.receivedBytes (db : Db) : ℕ := (db.receivedRows.map (·.val.payloadBytes)).sum

def ensureInboundCapacity (db : Db) (additionalLogicalBytes additionalPayloadBytes : ℕ) : Except StoreError Unit :=
  if db.inbound.rows.length ≥ storeInboundMaxRows ∨ db.logicalBytes + additionalLogicalBytes > storeInboundMaxBytes ∨
      db.receivedRows.length ≥ storeInboundReceivedMaxRows ∨
      db.receivedBytes + additionalPayloadBytes > storeInboundReceivedMaxBytes then
    .error (.capacityExceeded "registering an inbound event")
  else .ok ()

def ensureNewTurnCapacity (db : Db) (turn : NewTurnRow) : Except StoreError Unit :=
  ensureRecoveryCapacity (recoveryUsage none db.turns)
    (turnBytes turn.scopeKey turn.clientMessageId turn.codexThreadId none) "recording a live inbound turn"

variable (C : Codec) (I : InboundCodec)

/-! ## Registration -/

def retainedFromStored (stored : InboundRow) : Except StoreError RetainedInbound :=
  if stored.state ≠ .received ∧ stored.state ≠ .accepted then
    .error (.corruptData "decoding a terminal inbound payload")
  else if stored.payloadVersion ≠ some 1 then .error (.corruptData "decoding an inbound payload version")
  else
    match stored.payloadBlob with
    | none => .error (.corruptData "decoding a missing inbound payload")
    | some payload =>
      if stored.payloadBytes ≠ payload.size ∨ payload.size > storeInboundPayloadMaxBytes then
        .error (.corruptData "validating an inbound payload length")
      else
        match I.fromSlice payload with
        | none => .error (.corruptData "decoding a strict inbound payload v1")
        | some dto => do
          let event ← dto.intoEvent
          if event.eventId ≠ stored.eventId ∨ event.messageId ≠ stored.messageId ∨
              event.scope.toString ≠ stored.scopeKey then
            .error (.corruptData "validating inbound row and payload identity")
          else .ok ⟨event, payload.size⟩

/-- The copy that a redelivery hands out: the live event where it is bound to the stored one. -/
def replayCopy (exact : Bool) (live : Option InboundEvent) (persisted : RetainedInbound) : RetainedInbound :=
  match live with
  | some event =>
    if exact && (validateEvent event).isOk && (validateLiveClaim event persisted.event).isOk then
      ⟨event, persisted.retainedBytes⟩
    else persisted
  | none => persisted

def registrationFromStored (stored : InboundRow) (tenant : TenantNamespace) (exact : Bool)
    (live : Option InboundEvent) : Except StoreError DedupOutcome :=
  if stored.state = .received then do
    let persisted ← retainedFromStored I stored
    .ok (.replayReceived (replayCopy exact live persisted))
  else if stored.state = .accepted ∧ stored.turnRowId = none then
    .error (.corruptData "validating an accepted inbound association")
  else .ok (.duplicate ⟨tenant, stored.eventId⟩ stored.state stored.turnRowId)

/-- A freshly registered row. -/
def receivedRow (now : ℤ) (tenant : TenantNamespace) (event : InboundEvent) (payload : ByteArray) : InboundRow where
  tenant := tenant.asHex
  eventId := event.eventId
  messageId := event.messageId
  scopeKey := event.scope.toString
  state := .received
  firstSeenMs := now
  updatedMs := now
  rejectionReason := none
  payloadVersion := some 1
  payloadBlob := some payload
  payloadBytes := payload.size
  turnRowId := none
  replyOutboxKey := none

/-- The insertion of `register_inbound`. -/
def registerNew (now : ℤ) (tenant : TenantNamespace) (event : InboundEvent) : Job Db DedupOutcome := fun db => do
  let payload ← encodeEvent I event
  ensureInboundCapacity db
    (tenant.asHex.utf8ByteSize + event.eventId.utf8ByteSize + event.messageId.utf8ByteSize +
      event.scope.toString.utf8ByteSize + payload.size) payload.size
  let db ← db.insertInbound (receivedRow now tenant event payload) "registering an inbound event"
  .ok (.new ⟨event, payload.size⟩, db)

/-- `register_inbound` after `validate_incoming_key`. -/
def registerInbound (now : ℤ) (tenant : TenantNamespace) (event : InboundEvent) : Job Db DedupOutcome := fun db =>
  match readInboundRow db (tenant.asHex, event.eventId) with
  | some stored => (registrationFromStored I stored tenant true (some event)).map (·, db)
  | none =>
    match readMessageCandidates db tenant.asHex event.messageId with
    | [] => registerNew I now tenant event db
    | [stored] => (registrationFromStored I stored tenant false none).map (·, db)
    | _ => .error (.corruptData "selecting a canonical inbound message")

/-! ## Turn associations -/

/-- A turn whose outcome is still open. -/
def TurnRow.unresolved (t : TurnRow) : Bool :=
  (t.state = .starting ∨ t.state = .running) ∧ t.uncertain = false ∨ t.state = .uncertain ∧ t.uncertain = true

/-- A turn whose outcome is recorded. -/
def TurnRow.resolved (t : TurnRow) : Bool :=
  (t.state = .completed ∨ t.state = .failed ∨ t.state = .interrupted ∨ t.state = .uncertain) ∧ t.uncertain = false

/-- The inbound rows of a turn. -/
def Db.linked (db : Db) (turnRowId : ℕ) : List (Row InboundRow) :=
  db.inbound.rows.filter fun r => r.val.turnRowId = some turnRowId

def validateResolvedMarkers (db : Db) (turnRowId inboundCount : ℕ) (expected : InboundEventState) :
    Except StoreError Unit :=
  let rows := db.linked turnRowId
  if (rows.any fun r => r.val.state = .accepted) ∨ rows.length > inboundCount ∨
      (rows.filter fun r => r.val.state = expected).length ≠ rows.length then
    .error (.corruptData "validating resolved inbound markers")
  else .ok ()

def validateUnresolvedMarkers (db : Db) (turnRowId : ℕ) (turnScope : String) (inboundCount : ℕ) :
    Except StoreError Unit :=
  let rows := db.linked turnRowId
  if rows.length ≠ inboundCount ∨ (rows.filter fun r => r.val.state = .accepted).length ≠ inboundCount ∨
      (rows.any fun r => r.val.scopeKey ≠ turnScope) then
    .error (.corruptData "validating unresolved inbound markers")
  else .ok ()

def validateRuntimeTurnGroup (db : Db) (turn : Row TurnRow) : Except StoreError Unit :=
  if turn.val.unresolved then validateUnresolvedMarkers db turn.id turn.val.scopeKey turn.val.inboundCount
  else if !turn.val.resolved then .error (.corruptData "validating an inbound turn resolution state")
  else validateResolvedMarkers db turn.id turn.val.inboundCount
    (if turn.val.state = .completed then .completed else .rejected)

def validateRuntimeTurnGroups (db : Db) : Except StoreError Unit :=
  (db.turns.rows.filter fun t => t.val.inboundCount > 0).forM (validateRuntimeTurnGroup db)

/-- The reason of the rows of a turn that did not complete. -/
def turnRejectionReason : TurnState → Option String
  | .failed => some "turn_failed"
  | .interrupted => some "turn_interrupted"
  | .uncertain => some "turn_uncertain"
  | _ => none

def validateTurnState (stored : InboundRow) (turn : TurnRow) : Except StoreError Unit :=
  match stored.state with
  | .accepted =>
    if turn.unresolved then .ok () else .error (.corruptData "validating an inbound turn state association")
  | .completed =>
    if turn.resolved ∧ turn.state = .completed then .ok ()
    else .error (.corruptData "validating an inbound turn state association")
  | .rejected =>
    if turn.resolved then
      match turnRejectionReason turn.state with
      | none => .error (.corruptData "validating a rejected inbound turn outcome")
      | some expected =>
        if stored.rejectionReason = some expected then .ok ()
        else .error (.corruptData "validating an inbound turn rejection reason")
    else .error (.corruptData "validating an inbound turn state association")
  | .received => .error (.corruptData "validating an inbound turn state association")

def validateTurnAssociation (db : Db) (stored : InboundRow) : Except StoreError Unit :=
  match stored.turnRowId with
  | none => .error (.corruptData "validating a missing inbound turn association")
  | some turnRowId =>
    match db.turns.get? turnRowId with
    | none => .error (.corruptData "validating a missing inbound turn")
    | some turn =>
      if turn.val.scopeKey ≠ stored.scopeKey ∨ turn.val.inboundCount = 0 then
        .error (.corruptData "validating an inbound turn scope and claim count")
      else do
        validateTurnState stored turn.val
        validateRuntimeTurnGroup db turn

/-! ## Integrity of the inbox -/

def validateNonemptyBounded (value : String) (limit : ℕ) (context : String) : Except StoreError Unit :=
  if value.isEmpty ∨ value.utf8ByteSize > limit then .error (.corruptData context) else .ok ()

/-- What follows the derived key of a row's reply. -/
def replySuffix (stored : InboundRow) : Except StoreError String :=
  match stored.state, stored.turnRowId, stored.rejectionReason with
  | .completed, none, none => .ok "control"
  | .rejected, none, none => .error (.corruptData "validating an inbound reply effect rejection reason")
  | .rejected, none, some reason =>
    if isClassifiedInboundRejection reason then .ok ("notice:" ++ reason)
    else .error (.corruptData "validating an inbound reply effect rejection class")
  | _, _, _ => .error (.corruptData "validating an inbound reply effect state association")

def validateInboundReplyEffect (stored : InboundRow) : Except StoreError Unit :=
  match stored.replyOutboxKey with
  | none => .ok ()
  | some recorded =>
    if !isTenantNamespace stored.tenant ∨ recorded.isEmpty ∨ recorded.utf8ByteSize > inboundReplyKeyMaxBytes then
      .error (.corruptData "validating an inbound reply effect marker size")
    else do
      let suffix ← replySuffix stored
      if recorded ≠ inboundReplyOutboxKey stored.tenant stored.eventId suffix then
        .error (.corruptData "validating an inbound reply effect identity")
      else .ok ()

/-- The bounds of the columns of a row. -/
def validateColumns (stored : InboundRow) : Except StoreError Unit := do
  validateNonemptyBounded stored.tenant storeInboundIdMaxBytes "validating an inbound tenant"
  validateNonemptyBounded stored.eventId storeInboundIdMaxBytes "validating a stored inbound event ID"
  validateNonemptyBounded stored.messageId storeInboundIdMaxBytes "validating a stored inbound message ID"
  validateNonemptyBounded stored.scopeKey storeInboundScopeMaxBytes "validating a stored inbound scope"
  if stored.rejectionReason.any fun reason => reason.isEmpty || decide (reason.utf8ByteSize > storeRejectionReasonMaxBytes)
  then .error (.corruptData "validating an inbound rejection reason")
  else if stored.payloadBytes > storeInboundPayloadMaxBytes then
    .error (.corruptData "validating stored inbound payload bytes")
  else .ok ()

def validateRowState (db : Db) (stored : InboundRow) : Except StoreError Unit :=
  match stored.state with
  | .received =>
    if !isTenantNamespace stored.tenant ∨ stored.turnRowId.isSome ∨ stored.rejectionReason.isSome then
      .error (.corruptData "validating a received inbound row")
    else do
      let _ ← retainedFromStored I stored
      .ok ()
  | .accepted =>
    if !isTenantNamespace stored.tenant ∨ stored.turnRowId.isNone ∨ stored.rejectionReason.isSome then
      .error (.corruptData "validating an accepted inbound row")
    else do
      let _ ← retainedFromStored I stored
      validateTurnAssociation db stored
  | .completed | .rejected =>
    if stored.payloadVersion.isSome ∨ stored.payloadBlob.isSome ∨ stored.payloadBytes ≠ 0 ∨
        stored.state = .completed ∧ stored.rejectionReason.isSome then
      .error (.corruptData "validating a terminal inbound row")
    else if stored.turnRowId.isSome then
      if !isTenantNamespace stored.tenant then .error (.corruptData "validating a terminal inbound tenant")
      else validateTurnAssociation db stored
    else .ok ()

def validateStoredInboundRow (db : Db) (stored : InboundRow) : Except StoreError Unit := do
  validateColumns stored
  validateRowState I db stored
  validateInboundReplyEffect stored

/-- Two rows of one message that were not rejected. -/
def conflicting (db : Db) : Bool :=
  db.inbound.rows.any fun r => decide (r.val.state ≠ .rejected) &&
    decide ((readMessageCandidates db r.val.tenant r.val.messageId).length > 1)

/-- `ORDER BY tenant, event_id`. -/
def keyOrder (r s : Row InboundRow) : Prop :=
  r.val.tenant < s.val.tenant ∨ r.val.tenant = s.val.tenant ∧ r.val.eventId ≤ s.val.eventId

instance : DecidableRel keyOrder := fun r s =>
  inferInstanceAs (Decidable (r.val.tenant < s.val.tenant ∨ r.val.tenant = s.val.tenant ∧ r.val.eventId ≤ s.val.eventId))

def validateInboundCollection (db : Db) : Except StoreError Unit :=
  if db.inbound.rows.length > storeInboundMaxRows ∨ db.logicalBytes > storeInboundMaxBytes ∨
      db.receivedRows.length > storeInboundReceivedMaxRows ∨ db.receivedBytes > storeInboundReceivedMaxBytes then
    .error (.capacityExceeded "recovering the inbound collection")
  else if conflicting db then .error (.corruptData "validating canonical inbound messages")
  else do
    (db.inbound.rows.insertionSort keyOrder).forM fun r => validateStoredInboundRow I db r.val
    validateRuntimeTurnGroups db

/-- `ORDER BY first_seen_ms, event_id`. -/
def recoveryOrder (r s : Row InboundRow) : Prop :=
  r.val.firstSeenMs < s.val.firstSeenMs ∨ r.val.firstSeenMs = s.val.firstSeenMs ∧ r.val.eventId ≤ s.val.eventId

instance : DecidableRel recoveryOrder := fun r s =>
  inferInstanceAs (Decidable
    (r.val.firstSeenMs < s.val.firstSeenMs ∨ r.val.firstSeenMs = s.val.firstSeenMs ∧ r.val.eventId ≤ s.val.eventId))

def recoverReceived (tenant : TenantNamespace) : Job Db (List RetainedInbound) := fun db => do
  validateInboundCollection I db
  let retained ← ((db.receivedRows.filter fun r => r.val.tenant == tenant.asHex).insertionSort recoveryOrder).mapM
    fun r => retainedFromStored I r.val
  .ok (retained, db)

/-! ## Claims -/

/-- A live event is the event of its key and scope. -/
def checkLive (scopeKey : String) (key : InboundKey) : Option InboundEvent → Except StoreError Unit
  | none => .ok ()
  | some live => do
    validateEvent live
    if live.eventId ≠ key.eventId ∨ live.scope.toString ≠ scopeKey then
      .error (.corruptData "validating a live inbound claim identity")
    else .ok ()

/-- The keys of a claim are valid and differ, and their live events fit. -/
def checkClaims (scopeKey : String) : List (InboundKey × Option InboundEvent) → List (String × String) →
    Except StoreError Unit
  | [], _ => .ok ()
  | (key, live) :: events, seen => do
    validateId key.eventId "validating a claimed inbound event ID"
    if key.key ∈ seen then .error (.corruptData "validating unique inbound claim keys")
    else do
      checkLive scopeKey key live
      checkClaims scopeKey events (key.key :: seen)

/-- What `begin_turn_and_claim_inbound` checks before it calls the store. -/
def beginTurnCheck (turn : NewTurnRow) (events : List (InboundKey × Option InboundEvent)) : Except StoreError Unit := do
  if turn.state ≠ .starting then
    .error (.invalidTransition "creating an inbound turn outside the starting state")
  else if events.length > storeInboundBeginMaxKeys then .error (.capacityExceeded "claiming too many inbound rows")
  else do
    checkClaims turn.scopeKey events []
    if (events.map fun e => e.1.tenant.asHex.utf8ByteSize + e.1.eventId.utf8ByteSize).sum > storeInboundBeginMaxKeyBytes
    then .error (.payloadTooLarge "claiming inbound row keys" storeInboundBeginMaxKeyBytes)
    else .ok ()

/-- The copy a claim returns: the live event where there is one. -/
def claimCopy (live : Option InboundEvent) (persisted : RetainedInbound) : Except StoreError RetainedInbound :=
  match live with
  | none => .ok persisted
  | some live => do
    validateLiveClaim live persisted.event
    .ok ⟨live, persisted.retainedBytes⟩

/-- A row that a claim reads: received, or skipped. -/
def readClaim (db : Db) (scopeKey : String) (key : InboundKey) (live : Option InboundEvent) :
    Except StoreError (ClaimedInbound ⊕ SkippedInbound) :=
  match readInboundRow db key.key with
  | none => .error (.notFound "claiming an unknown inbound row")
  | some stored =>
    if stored.scopeKey ≠ scopeKey then .error (.corruptData "claiming an inbound row from another scope")
    else do
      validateStoredInboundRow I db stored
      if stored.state = .received then
        if stored.turnRowId.isSome then .error (.corruptData "claiming an associated received row")
        else do
          let persisted ← retainedFromStored I stored
          let retained ← claimCopy live persisted
          .ok (.inl ⟨key, retained⟩)
      else .ok (.inr ⟨key, stored.state, stored.turnRowId⟩)

/-- The rows of a claim, in the order of its keys. -/
def readClaims (db : Db) (scopeKey : String) : List (InboundKey × Option InboundEvent) →
    Except StoreError (List ClaimedInbound × List SkippedInbound)
  | [] => .ok ([], [])
  | (key, live) :: events => do
    let first ← readClaim I db scopeKey key live
    let (claimed, skipped) ← readClaims db scopeKey events
    match first with
    | .inl c => .ok (c :: claimed, skipped)
    | .inr s => .ok (claimed, s :: skipped)

def InboundRow.claim (now : ℤ) (turnRowId : ℕ) (r : InboundRow) : InboundRow :=
  { r with state := .accepted, turnRowId := some turnRowId, updatedMs := now }

/-- A received row of this key that no turn has. -/
def isUnclaimed (key : String × String) (r : InboundRow) : Bool :=
  r.key = key ∧ r.state = .received ∧ r.turnRowId = none

/-- The rows of a claim are accepted one after the other. -/
def claimRows (now : ℤ) (turnRowId : ℕ) : List ClaimedInbound → Db → Except StoreError Db
  | [], db => .ok db
  | c :: claimed, db => do
    let db ← db.updateOne "claiming an inbound row" "claiming a concurrently changed inbound row"
      (isUnclaimed c.key.key) (InboundRow.claim now turnRowId)
    claimRows now turnRowId claimed db

def startTurn (now : ℤ) (turn : NewTurnRow) (claimed : List ClaimedInbound) : Job Db ℕ := fun db => do
  ensureNewTurnCapacity db turn
  let (turnRowId, turns) ← insertTurn now turn claimed.length "recording an inbound turn" db.turns
  let db ← claimRows now turnRowId claimed { db with turns := turns }
  .ok (turnRowId, db)

/-- `begin_turn_and_claim_inbound_inner` after `beginTurnCheck`. -/
def beginTurnAndClaimInboundInner (now : ℤ) (turn : NewTurnRow) (events : List (InboundKey × Option InboundEvent)) :
    Job Db BeginTurnOutcome := fun db => do
  let (claimed, skipped) ← readClaims I db turn.scopeKey events
  if claimed.isEmpty then .ok (.noReceived skipped, db)
  else do
    let (turnRowId, db) ← startTurn now turn claimed db
    .ok (.started turnRowId claimed skipped, db)

/-! ## Resolutions -/

/-- Turn state, row state and reason of a resolution. -/
def TurnResolution.target : TurnResolution → TurnState × InboundTerminal × Option String
  | .completed => (.completed, .completed, none)
  | .failed => (.failed, .rejected, some "turn_failed")
  | .interrupted => (.interrupted, .rejected, some "turn_interrupted")
  | .uncertain => (.uncertain, .rejected, some "turn_uncertain")

/-- What `resolve_turn_and_finish_inbound_batch` checks before it calls the store. -/
def resolveCheck (turn : TurnResolution) (inbound : InboundTerminal) : Except StoreError Unit :=
  if inbound ≠ turn.target.2.1 then .error (.invalidTransition "resolving a turn with conflicting inbound state")
  else .ok ()

def InboundTerminal.state : InboundTerminal → InboundEventState
  | .completed => .completed
  | .rejected => .rejected

/-- The turn after its resolution. -/
def TurnRow.resolve (now : ℤ) (state : TurnState) (t : TurnRow) : TurnRow :=
  { t with state := state, uncertain := false, updatedMs := now }

def Db.resolveTurn (db : Db) (now : ℤ) (turnRowId : ℕ) (state : TurnState) : Db :=
  { db with turns := db.turns.updateWhere (·.id == turnRowId) (TurnRow.resolve now state) }

/-- A row of this turn in this state. -/
def isLinked (turnRowId : ℕ) (state : InboundEventState) (r : InboundRow) : Bool :=
  r.turnRowId = some turnRowId ∧ r.state = state

/-- The row without its payload in a terminal state. -/
def InboundRow.finish (now : ℤ) (state : InboundEventState) (reason : Option String) (r : InboundRow) : InboundRow :=
  { r with
    state := state
    rejectionReason := reason
    payloadVersion := none
    payloadBlob := none
    payloadBytes := 0
    updatedMs := now }

def InboundRow.refine (now : ℤ) (reason : Option String) (r : InboundRow) : InboundRow :=
  { r with rejectionReason := reason, updatedMs := now }

/-- A turn that was resolved as uncertain is refined to failed or interrupted. -/
def refineTurn (now : ℤ) (id : ℕ) (turn : TurnResolution) (inboundCount : ℕ) : Job Db ResolveTurnOutcome := fun db =>
  if turn ≠ .failed ∧ turn ≠ .interrupted then .error (.invalidTransition "refining a resolved uncertain turn")
  else do
    validateResolvedMarkers db id inboundCount .rejected
    let (_, db) ← (db.resolveTurn now id turn.target.1).updateInbound "refining uncertain inbound markers"
      (isLinked id .rejected) (InboundRow.refine now turn.target.2.2)
    .ok (.resolved inboundCount, db)

/-- An open turn and its accepted rows become terminal. -/
def finishTurn (now : ℤ) (id : ℕ) (turn : TurnResolution) (scopeKey : String) (inboundCount : ℕ) :
    Job Db ResolveTurnOutcome := fun db => do
  validateUnresolvedMarkers db id scopeKey inboundCount
  let (changed, db) ← (db.resolveTurn now id turn.target.1).updateInbound "finishing accepted inbound rows"
    (isLinked id .accepted) (InboundRow.finish now turn.target.2.1.state turn.target.2.2)
  if changed ≠ inboundCount then .error (.corruptData "finishing every accepted inbound row")
  else .ok (.resolved inboundCount, db)

/-- Which open turns a resolution may end. -/
def legalResolution (turn : TurnRow) (resolution : TurnResolution) : Bool :=
  match turn.state with
  | .starting => decide (resolution ≠ .completed)
  | .running => true
  | .uncertain => turn.uncertain
  | _ => false

/-- `resolve_turn_and_finish_inbound_batch` after `resolveCheck`. -/
def resolveTurnAndFinishInboundBatch (now : ℤ) (id : ℕ) (turn : TurnResolution) : Job Db ResolveTurnOutcome := fun db =>
  match db.turns.get? id with
  | none => .error (.notFound "resolving an unknown inbound turn")
  | some row =>
    if row.val.inboundCount = 0 then .error (.corruptData "resolving a turn without historical inbound links")
    else if row.val.state = turn.target.1 ∧ row.val.uncertain = false then do
      validateResolvedMarkers db id row.val.inboundCount turn.target.2.1.state
      .ok (.alreadyResolved row.val.inboundCount, db)
    else if row.val.state = .uncertain ∧ row.val.uncertain = false then
      refineTurn now id turn row.val.inboundCount db
    else if row.val.state = .completed ∨ row.val.state = .failed ∨ row.val.state = .interrupted then
      .error (.invalidTransition "resolving a terminal turn differently")
    else if !legalResolution row.val turn then .error (.invalidTransition "resolving an inbound turn")
    else finishTurn now id turn row.val.scopeKey row.val.inboundCount db

/-! ## Settling a row without a turn -/

def terminalDisposition (stored : InboundRow) (reason : InboundRejectionKind) :
    Except StoreError (Option InboundDisposition) :=
  match stored.state with
  | .received => .ok none
  | .accepted =>
    match stored.turnRowId with
    | some turnRowId => .ok (some (.alreadyClaimed turnRowId))
    | none => .error (.corruptData "rejecting an unassociated accepted row")
  | .completed => .ok (some .alreadyCompleted)
  | .rejected =>
    if stored.rejectionReason = some reason.asStr then .ok (some .alreadyRejected)
    else .error (.invalidTransition "rejecting an inbound row with a conflicting reason")

def rejectStored (now : ℤ) (key : InboundKey) (reason : InboundRejectionKind) (stored : InboundRow) (db : Db) :
    Except StoreError Db := do
  let _ ← retainedFromStored I stored
  db.updateOne "rejecting a received inbound row" "rejecting a concurrently changed inbound row"
    (fun r => decide (r.key = key.key ∧ r.state = .received)) (InboundRow.finish now .rejected (some reason.asStr))

def rejectReceivedInTransaction (now : ℤ) (key : InboundKey) (reason : InboundRejectionKind) :
    Job Db InboundDisposition := fun db =>
  match readInboundRow db key.key with
  | none => .error (.notFound "rejecting an unknown inbound row")
  | some stored => do
    match ← terminalDisposition stored reason with
    | some disposition => .ok (disposition, db)
    | none => (rejectStored I now key reason stored db).map (.rejected, ·)

def rejectReceived (now : ℤ) (key : InboundKey) (reason : InboundRejectionKind) : Job Db InboundDisposition :=
  rejectReceivedInTransaction I now key reason

/-- A completion leaves the reason as it is. -/
def InboundRow.complete (now : ℤ) (r : InboundRow) : InboundRow := r.finish now .completed r.rejectionReason

def completeReceivedWithoutTurn (now : ℤ) (key : InboundKey) : Job Db InboundDisposition := fun db =>
  match readInboundRow db key.key with
  | none => .error (.notFound "completing an unknown inbound row without a turn")
  | some stored =>
    match stored.state with
    | .received => do
      let _ ← retainedFromStored I stored
      let db ← db.updateOne "completing a received row without a turn" "completing a concurrently changed inbound row"
        (isUnclaimed key.key) (InboundRow.complete now)
      .ok (.completed, db)
    | .accepted =>
      if stored.turnRowId.isNone then
        .error (.corruptData "completing an unassociated accepted inbound row")
      else .error (.invalidTransition "completing an already-claimed inbound row without a turn")
    | .completed =>
      if stored.turnRowId.isNone then .ok (.alreadyCompleted, db)
      else .error (.invalidTransition "completing a terminal inbound row without a turn")
    | .rejected => .error (.invalidTransition "completing a terminal inbound row without a turn")

/-- The row with the key of its reply. -/
def InboundRow.mark (now : ℤ) (key : String) (r : InboundRow) : InboundRow :=
  { r with replyOutboxKey := some key, updatedMs := now }

def recordInboundReplyEffect (now : ℤ) (key : InboundKey) (idempotencyKey : String) (db : Db) : Except StoreError Db :=
  if db.logicalBytes + idempotencyKey.utf8ByteSize > storeInboundMaxBytes then
    .error (.capacityExceeded "recording an inbound reply effect marker")
  else db.updateOne "recording an inbound reply effect marker" "recording an inbound reply effect marker"
    (fun r => decide (r.key = key.key ∧ r.replyOutboxKey = none)) (InboundRow.mark now idempotencyKey)

/-- The reply joins the outbox, in the transaction of its row. -/
def Db.enqueueReply (db : Db) (now : ℤ) (reply : NewOutboxRow) : Except StoreError Db :=
  (enqueueInboundReplyInTransaction C now reply db.outbox).map fun outbox => { db with outbox := outbox }

/-- A terminal row whose reply was not enqueued yet gets it; a recorded reply must be this one. -/
def backfillReply (now : ℤ) (key : InboundKey) (reply : NewOutboxRow) (recorded : Option String) (context : String)
    (db : Db) : Except StoreError Db :=
  match recorded with
  | some recorded =>
    if recorded = reply.idempotencyKey then do
      let _ ← validateExistingInboundReply reply db.outbox
      .ok db
    else .error (.corruptData context)
  | none => do
    let db ← db.enqueueReply C now reply
    recordInboundReplyEffect now key reply.idempotencyKey db

/-- A received control row is completed with its reply. -/
def completeControl (now : ℤ) (key : InboundKey) (reply : NewOutboxRow) (stored : InboundRow) (db : Db) :
    Except StoreError Db :=
  if stored.replyOutboxKey.isSome then .error (.corruptData "validating a received control reply effect marker")
  else do
    let _ ← retainedFromStored I stored
    let db ← db.enqueueReply C now reply
    db.updateOne "completing a control inbound row" "completing a concurrently changed control inbound row"
      (fun r => isUnclaimed key.key r && r.replyOutboxKey.isNone)
      (fun r => { r.complete now with replyOutboxKey := some reply.idempotencyKey })

def completeReceivedAndEnqueueControlReply (now : ℤ) (key : InboundKey) (reply : NewOutboxRow) :
    Job Db InboundDisposition := fun db =>
  if reply.idempotencyKey ≠ key.controlOutboxIdempotencyKey ∨ reply.kind ≠ "control" ∨ reply.nextRetryMs ≠ 0 then
    .error (.corruptData "validating a control reply identity")
  else
    match readInboundRow db key.key with
    | none => .error (.notFound "completing an unknown control inbound row")
    | some stored =>
      if reply.scopeKey ≠ stored.scopeKey then .error (.corruptData "validating a control reply scope")
      else
        match stored.state with
        | .received => (completeControl C I now key reply stored db).map (.completed, ·)
        | .completed =>
          if stored.turnRowId.isNone then
            (backfillReply C now key reply stored.replyOutboxKey
              "validating a completed control reply effect marker" db).map (.alreadyCompleted, ·)
          else .error (.invalidTransition "completing a terminal non-command inbound row as control")
        | .accepted => .error (.invalidTransition "completing an already-claimed control inbound row")
        | .rejected => .error (.invalidTransition "completing a terminal non-command inbound row as control")

def rejectWithNotice (now : ℤ) (key : InboundKey) (reason : InboundRejectionKind) (notice : NewOutboxRow)
    (stored : InboundRow) : Job Db InboundDisposition := fun db =>
  if stored.replyOutboxKey.isSome then .error (.corruptData "validating a received rejection reply effect marker")
  else do
    let _ ← retainedFromStored I stored
    let db ← db.enqueueReply C now notice
    let (disposition, db) ← rejectReceivedInTransaction I now key reason db
    let db ← recordInboundReplyEffect now key notice.idempotencyKey db
    .ok (disposition, db)

/-- The disposition of a row that a rejection found settled. -/
def existingDisposition (now : ℤ) (key : InboundKey) (notice : NewOutboxRow) (stored : InboundRow)
    (disposition : InboundDisposition) : Job Db InboundDisposition := fun db =>
  if disposition = .alreadyRejected then
    (backfillReply C now key notice stored.replyOutboxKey "validating a rejected reply effect marker" db).map
      (disposition, ·)
  else .ok (disposition, db)

def rejectReceivedAndEnqueueNotice (now : ℤ) (key : InboundKey) (reason : InboundRejectionKind)
    (notice : NewOutboxRow) : Job Db InboundDisposition := fun db =>
  if notice.idempotencyKey ≠ key.rejectionOutboxIdempotencyKey reason ∨ notice.kind ≠ "notice" ∨
      notice.nextRetryMs ≠ 0 then
    .error (.corruptData "validating an inbound rejection notice identity")
  else
    match readInboundRow db key.key with
    | none => .error (.notFound "rejecting an unknown inbound row")
    | some stored => do
      let existing ← terminalDisposition stored reason
      if notice.scopeKey ≠ stored.scopeKey then
        .error (.corruptData "validating an inbound rejection notice scope")
      else
        match existing with
        | some disposition => existingDisposition C now key notice stored disposition db
        | none => rejectWithNotice C I now key reason notice stored db

/-! ## Retention -/

/-- `ORDER BY updated_ms, tenant, event_id`. -/
def inboundSweepOrder (r s : Row InboundRow) : Prop :=
  r.val.updatedMs < s.val.updatedMs ∨ r.val.updatedMs = s.val.updatedMs ∧ keyOrder r s

instance : DecidableRel inboundSweepOrder := fun r s =>
  inferInstanceAs (Decidable (r.val.updatedMs < s.val.updatedMs ∨ r.val.updatedMs = s.val.updatedMs ∧ keyOrder r s))

def InboundEventState.isTerminal (s : InboundEventState) : Bool := s = .completed ∨ s = .rejected

/-- The rows one sweep deletes. -/
def sweptRows (olderThanMs : ℤ) (maxRows : ℕ) (db : Db) : List (Row InboundRow) :=
  ((db.inbound.rows.filter fun r => r.val.state.isTerminal && decide (r.val.updatedMs < olderThanMs)).insertionSort
    inboundSweepOrder).take (min maxRows dedupSweepBatch)

def sweepInbound (olderThanMs : ℤ) (maxRows : ℕ) : Job Db ℕ := fun db =>
  let swept := sweptRows olderThanMs maxRows db
  .ok (swept.length, { db with inbound := db.inbound.deleteWhere fun r => swept.any (·.id == r.id) })

def inboundState (key : InboundKey) : Job Db (Option InboundEventState) := fun db =>
  .ok ((readInboundRow db key.key).map (·.state), db)

/-- A job of the turns table. -/
def onTurns {α : Type} (job : Job TurnTable α) : Job Db α := fun db =>
  (job db.turns).map fun (a, turns) => (a, { db with turns := turns })

end LarkCodexBridge.Store

import LarkCodexBridge.External.WriteActor

/-!
# Approvals of the external write actor

The loop of the write actor as a step function. A server request for an approval becomes a durable row and an entry of
the map of pending approvals; the entry is answered by the recipient, by a denial of the actor itself at the deadline or
when the prompt cannot be queued, or it is settled by a notice of the server.

The monotonic clock and the wall clock advance together: `clock` counts nanoseconds, and the wall clock is ahead of it by
a constant. The deadline of an entry is an instant of the first, the deadline of its row a value in milliseconds of the
second.

* `receiveApproval`, `resolvePendingApproval`, `settleExpiredApprovals`, `denyOneApproval`: the four handlers;
* `actorStep`: one iteration of `run_write_actor`, with a record of the responses that are sent.
-/

namespace LarkCodexBridge.External

open Limits SqlTable Store

/-! ## Requests and decisions -/

def approvalCapacity : ℕ := 64

def nanosPerMilli : ℕ := 1000000
def approvalDeadlineMax : ℕ := 5 * 60 * 1000 * nanosPerMilli
def approvalRemoteMargin : ℕ := 5 * 1000 * nanosPerMilli

/-- What the actor reads of a server request; `requestKey` is the digest of its id, if the id can be encoded. -/
structure ExternalApprovalRequest where
  kind : ExternalApprovalKind
  epoch : ℕ
  requestKey : Option String
  threadId : String
  turnId : String
  itemId : String
  autoResolutionMs : Option ℕ
  deriving DecidableEq

inductive SimpleApprovalDecision where
  | accept | acceptForSession | decline | cancel

/-- Amendments are kept as the JSON that is sent. -/
inductive CommandExecutionApprovalDecision where
  | simple (decision : SimpleApprovalDecision)
  | acceptWithExecpolicyAmendment (amendment : String)
  | applyNetworkPolicyAmendment (amendment : String)

inductive PermissionGrantScope where
  | turn | session

/-- A profile is the list of the fields of its object. -/
structure PermissionsRequestApprovalResult where
  permissions : List (String × String)
  scope : Option PermissionGrantScope
  strictAutoReview : Option Bool

inductive ExternalApprovalDecision where
  | command (decision : CommandExecutionApprovalDecision)
  | fileChange (decision : SimpleApprovalDecision)
  | permissions (result : PermissionsRequestApprovalResult)

def decisionMatches (request : ExternalApprovalRequest) (decision : ExternalApprovalDecision) : Bool :=
  match request.kind, decision with
  | .command, .command _ | .fileChange, .fileChange _ | .permissions, .permissions _ => true
  | _, _ => false

def denialFor (request : ExternalApprovalRequest) : ExternalApprovalDecision :=
  match request.kind with
  | .command => .command (.simple .decline)
  | .fileChange => .fileChange .decline
  | .permissions => .permissions ⟨[], none, none⟩

/-- `approval_duration`, with the timeout of the settings. -/
def approvalDuration (request : ExternalApprovalRequest) (approvalTimeout : ℕ) : ℕ :=
  let remote := match request.autoResolutionMs with
    | some ms => ms * nanosPerMilli - approvalRemoteMargin
    | none => approvalDeadlineMax
  max (min (min approvalTimeout approvalDeadlineMax) remote) nanosPerMilli

/-! ## The actor -/

structure PendingApproval where
  approvalId : String
  requestKey : String
  deadline : ℕ
  request : ExternalApprovalRequest
  responded : Bool
  deriving DecidableEq

/-- A call of `respond_approval`, and the state of the durable claim at that moment. -/
structure Response where
  approvalId : String
  decision : ExternalApprovalDecision
  claim : Option ExternalApprovalState

/-- The actor between two iterations. -/
structure ApprovalActor where
  store : Writer ExternalDb
  clock : ℕ
  /-- The ids drawn so far. -/
  drawn : ℕ
  approvals : List PendingApproval
  /-- The loop is over. -/
  fatal : Bool
  responses : List Response

/-- What does not change while the actor runs. -/
structure ApprovalContext where
  endpoint : Endpoint
  approvalTimeout : ℕ
  requestTimeout : ℕ
  /-- The wall clock, in nanoseconds since its epoch, when the monotonic clock is at zero. -/
  wallOrigin : ℕ
  /-- The ids that `Uuid::new_v4` returns, in their order. -/
  newV4 : ℕ → String

/-- A call to the store: its fate, and how long after the event it reads the clock. -/
structure Timed where
  fate : Fate
  after : ℕ

/-- What the store and the connection answer while one approval is denied. -/
structure DenyAnswers where
  claim : Timed
  responding : Timed
  respond : Except ExternalTransportError Unit
  settle : Timed

/-- The entry with an id. -/
def ApprovalActor.pending? (s : ApprovalActor) (approvalId : String) : Option PendingApproval :=
  s.approvals.find? fun p => p.approvalId = approvalId

/-- `approvals.remove`. -/
def ApprovalActor.remove (s : ApprovalActor) (approvalId : String) : ApprovalActor :=
  { s with approvals := s.approvals.filter fun p => p.approvalId ≠ approvalId }

/-- `approvals.insert`. -/
def ApprovalActor.insert (s : ApprovalActor) (pending : PendingApproval) : ApprovalActor :=
  { s with approvals := (s.remove pending.approvalId).approvals ++ [pending] }

namespace ApprovalContext

variable (c : ApprovalContext)

def wallMs (clock : ℕ) : ℤ := ((c.wallOrigin + clock) / nanosPerMilli : ℕ)

/-- The deadline of the row of an approval that is received at an instant. -/
def deadlineMs (clock : ℕ) (request : ExternalApprovalRequest) : ℤ :=
  c.wallMs clock + (max (approvalDuration request c.approvalTimeout) (1000 * nanosPerMilli) / nanosPerMilli : ℕ)

/-- A call to the store while an event is handled. -/
def call {α : Type} (s : ApprovalActor) (q : Timed) (check : ℤ → Except StoreError Unit) (job : ℤ → Job ExternalDb α) :
    Except StoreError α × ApprovalActor :=
  let now := c.wallMs (s.clock + q.after)
  let r := s.store.call (check now) q.fate (job now)
  (r.1, { s with store := r.2 })

/-- The call of `claim_external_approval`. -/
def claim (s : ApprovalActor) (q : Timed) (threadId approvalId recipient : String) :
    Except StoreError ExternalApprovalClaimOutcome × ApprovalActor :=
  c.call s q (fun _ => validateApprovalKey c.endpoint.label threadId approvalId recipient "claiming an external approval")
    fun now => claimExternalApproval now c.endpoint.label threadId approvalId recipient c.endpoint.epoch

/-- The call of `resolve_external_approval`. -/
def resolveRow (s : ApprovalActor) (q : Timed) (threadId approvalId : String) (resolution : ExternalApprovalResolution) :
    Except StoreError ExternalTransitionOutcome × ApprovalActor :=
  c.call s q (fun _ => resolveApprovalCheck c.endpoint.label threadId approvalId)
    fun now => resolveExternalApproval now c.endpoint.label threadId approvalId c.endpoint.epoch resolution

def claimState (s : ApprovalActor) (threadId approvalId : String) : Option ExternalApprovalState :=
  (s.store.db.approvalAt (c.endpoint.label, threadId, approvalId) c.endpoint.epoch).map (·.state)

/-- `respond_approval`: the response is recorded whatever becomes of it. -/
def respond (s : ApprovalActor) (pending : PendingApproval) (decision : ExternalApprovalDecision) : ApprovalActor :=
  { s with responses := s.responses ++
      [⟨pending.approvalId, decision, c.claimState s pending.request.threadId pending.approvalId⟩] }

def denyOneApproval (s : ApprovalActor) (a : DenyAnswers) (approvalId : String) :
    Except ExternalWriteError Unit × ApprovalActor :=
  match s.pending? approvalId with
  | none => (.ok (), s)
  | some pending =>
    match c.claim (s.remove approvalId) a.claim pending.request.threadId approvalId
        c.endpoint.settings.approvalRecipient with
    | (.error _, s) => (.error .store, s)
    | (.ok .duplicate, s) | (.ok .stale, s) => (.ok (), s)
    | (.ok .unauthorized, s) => (.error .unauthorized, s)
    | (.ok .claimed, s) =>
      match c.resolveRow s a.responding pending.request.threadId approvalId .responding with
      | (.error _, s) => (.error .store, s)
      | (.ok _, s) =>
        let s := c.respond s pending (denialFor pending.request)
        match a.respond with
        | .error _ => (.error .uncertain, (c.resolveRow s a.settle pending.request.threadId approvalId .uncertain).2)
        | .ok () =>
          match c.resolveRow s a.settle pending.request.threadId approvalId .denied with
          | (.error _, s) => (.error .store, s)
          | (.ok _, s) => (.ok (), s)

/-- The claim that `receive_approval` records. -/
def newClaim (s : ApprovalActor) (request : ExternalApprovalRequest) (requestKey : String) : NewExternalApprovalClaim where
  endpointLabel := c.endpoint.label
  threadId := request.threadId
  approvalId := c.newV4 s.drawn
  requestKey := requestKey
  epoch := c.endpoint.epoch
  turnId := request.turnId
  itemId := request.itemId
  kind := request.kind
  clientActor := c.endpoint.settings.clientActor
  approvalActor := c.endpoint.settings.approvalActor
  recipientActor := c.endpoint.settings.approvalRecipient
  deadlineMs := c.deadlineMs s.clock request

/-- The entry that `receive_approval` inserts. -/
def newPending (s : ApprovalActor) (request : ExternalApprovalRequest) (requestKey : String) : PendingApproval where
  approvalId := c.newV4 s.drawn
  requestKey := requestKey
  deadline := s.clock + approvalDuration request c.approvalTimeout
  request := request
  responded := false

/-- The error for a request that the store does not accept. -/
def refusal : ExternalApprovalReceiveOutcome → ExternalWriteError
  | .notOwned => .unauthorized
  | .notReady | .staleEpoch => .notReady
  | .threadFenced => .uncertain
  | .approvalHandlerMismatch => .invalidSettings
  | .duplicate _ _ | .received => .ambiguous

/-- `receive_approval`; `prompted` tells whether the prompt could be queued. -/
def receiveApproval (s : ApprovalActor) (request : ExternalApprovalRequest) (receive : Timed) (prompted : Bool)
    (a : DenyAnswers) : Except ExternalWriteError Unit × ApprovalActor :=
  if request.epoch ≠ c.endpoint.epoch then (.error .uncertain, s)
  else if s.approvals.length ≥ approvalCapacity then (.error .uncertain, s)
  else
    match request.requestKey with
    | none => (.error .transport, s)
    | some requestKey =>
      let claim := c.newClaim s request requestKey
      let pending := c.newPending s request requestKey
      match c.call { s with drawn := s.drawn + 1 } receive (fun now => validateApprovalClaim now claim)
          (receiveExternalApproval · claim) with
      | (.error _, s) => (.error .store, s)
      | (.ok .received, s) =>
        let s := s.insert pending
        if prompted then (.ok (), s) else c.denyOneApproval s a pending.approvalId
      | (.ok outcome, s) => (.error (refusal outcome), s)

/-- `resolve_pending_approval`. The new deadline is counted from the end of the iteration, `took` after its start. -/
def resolvePendingApproval (s : ApprovalActor) (a : DenyAnswers) (took : ℕ) (actor approvalId : String)
    (decision : ExternalApprovalDecision) : Except ExternalWriteError Unit × ApprovalActor :=
  if actor ≠ c.endpoint.settings.approvalRecipient then (.error .unauthorized, s)
  else
    match s.pending? approvalId with
    | none => (.error .conflict, s)
    | some pending =>
      if pending.responded || !decisionMatches pending.request decision then (.error .conflict, s)
      else
        match c.claim s a.claim pending.request.threadId approvalId actor with
        | (.error _, s) => (.error .store, s)
        | (.ok .duplicate, s) | (.ok .stale, s) => (.error .conflict, s)
        | (.ok .unauthorized, s) => (.error .unauthorized, s)
        | (.ok .claimed, s) =>
          match c.resolveRow s a.responding pending.request.threadId approvalId .responding with
          | (.error _, s) => (.error .store, s)
          | (.ok _, s) =>
            let s := c.respond s pending decision
            match a.respond with
            | .error _ =>
              (.error .uncertain, (c.resolveRow s a.settle pending.request.threadId approvalId .uncertain).2)
            | .ok () =>
              (.ok (), s.insert { pending with responded := true, deadline := s.clock + took + c.requestTimeout })

/-- The denials of one tick, until one of them fails. -/
def denyAll (answers : String → DenyAnswers) : List String → ApprovalActor → Except ExternalWriteError Unit × ApprovalActor
  | [], s => (.ok (), s)
  | approvalId :: rest, s =>
    match c.denyOneApproval s (answers approvalId) approvalId with
    | (.error e, s) => (.error e, s)
    | (.ok (), s) => denyAll answers rest s

/-- The entries in the order in which the map is iterated. -/
def iterated (s : ApprovalActor) (order : List PendingApproval) : List PendingApproval :=
  if order.Perm s.approvals then order else s.approvals

def settleExpiredApprovals (s : ApprovalActor) (order : List PendingApproval) (answers : String → DenyAnswers) :
    Except ExternalWriteError Unit × ApprovalActor :=
  match (iterated s order).find? fun p => p.responded && p.deadline ≤ s.clock with
  | some p =>
    (.error .uncertain,
      (c.resolveRow (s.remove p.approvalId) (answers p.approvalId).settle p.request.threadId p.approvalId .uncertain).2)
  | none =>
    c.denyAll answers
      (((iterated s order).filter fun p => !p.responded && p.deadline ≤ s.clock).map (·.approvalId)) s

end ApprovalContext

/-! ## Iterations -/

/-- What an iteration of the loop handles. -/
inductive ActorInput where
  /-- Nothing: time passes. -/
  | idle
  | approval (request : ExternalApprovalRequest) (receive : Timed) (prompted : Bool) (a : DenyAnswers)
  /-- The server says that a request is resolved; the key is missing where the id cannot be encoded. -/
  | serverRequestResolved (requestKey : Option String) (q : Timed)
  | turnCompleted (threadId : String) (turn : Option ExternalTurnTerminal) (q : Timed)
  | threadSettingsUpdated (approvalsReviewer : String)
  | closed
  | deadlineTick (order : List PendingApproval) (answers : String → DenyAnswers)
  | resolveApproval (actor approvalId : String) (decision : ExternalApprovalDecision) (a : DenyAnswers)
  | reassignApprovalActor (newActor : String) (q : Timed)
  | command (command : WriteCommand) (a : Answers)
  | shutdown
  /-- Another task uses the store. -/
  | elsewhere (e : ExternalEvent)

structure ActorEvent where
  input : ActorInput
  /-- How long the iteration takes. -/
  took : ℕ

/-- `matches!(result, Err(Uncertain))`. -/
def isUncertain {α : Type} : Except ExternalWriteError α → Bool
  | .error .uncertain => true
  | _ => false

namespace ApprovalContext

variable (c : ApprovalContext)

/-- A handler whose failure ends the loop. -/
def orFatal (r : Except ExternalWriteError Unit × ApprovalActor) : ApprovalActor :=
  match r with
  | (.ok (), s) => s
  | (.error _, s) => { s with fatal := true }

/-- The branches of `run_write_actor`. The updates of the endpoint that follow the end of the loop touch no approval of
a live actor and are left to `elsewhere`. -/
def handle (s : ApprovalActor) (took : ℕ) : ActorInput → ApprovalActor
  | .idle => s
  | .approval request receive prompted a => orFatal (c.receiveApproval s request receive prompted a)
  | .serverRequestResolved none _ => { s with fatal := true }
  | .serverRequestResolved (some requestKey) q =>
    match c.call s q (fun _ => do
        validateId c.endpoint.label endpointLabelByteLimit "resolving an external approval request"
        validateId requestKey requestKeyByteLimit "resolving an external approval request")
      (resolveExternalApprovalRequest · c.endpoint.label requestKey c.endpoint.epoch) with
    | (.ok .applied, s) => { s with approvals := s.approvals.filter fun p => p.requestKey ≠ requestKey }
    | (_, s) => { s with fatal := true }
  | .turnCompleted threadId turn q =>
    match turn with
    | none => s
    | some turn =>
      (c.call s q (fun _ => validateTerminals c.endpoint.label threadId [turn])
        (applyTerminals · c.endpoint.label threadId c.endpoint.epoch [turn] false)).2
  | .threadSettingsUpdated approvalsReviewer =>
    if approvalsReviewer ≠ c.endpoint.settings.approvalReviewer then { s with fatal := true } else s
  | .closed => { s with fatal := true }
  | .deadlineTick order answers =>
    if s.approvals.isEmpty then s else orFatal (c.settleExpiredApprovals s order answers)
  | .resolveApproval actor approvalId decision a =>
    let r := c.resolvePendingApproval s a took actor approvalId decision
    { r.2 with fatal := isUncertain r.1 }
  | .reassignApprovalActor newActor q =>
    if newActor = c.endpoint.settings.clientActor ∨ newActor = c.endpoint.settings.approvalRecipient then s
    else if s.approvals.isEmpty then
      match c.call s q (fun _ => reassignCheck c.endpoint.label c.endpoint.settings.approvalActor newActor)
          (reassignExternalApprovalActor · c.endpoint.label c.endpoint.epoch c.endpoint.settings.approvalActor newActor) with
      | (.ok (.ok .reassigned), s) => { s with fatal := true }
      | (_, s) => s
    else s
  | .command command a =>
    let r := c.endpoint.executeCommand a command s.store
    { s with store := r.2, fatal := isFatalResult r.1 }
  | .shutdown => { s with fatal := true }
  | .elsewhere e => { s with store := externalStep s.store e }

/-- One iteration: a loop that is over does nothing. -/
def actorStep (s : ApprovalActor) (e : ActorEvent) : ApprovalActor :=
  if s.fatal then s
  else
    let s' := c.handle s e.took e.input
    { s' with clock := s.clock + e.took }

/-- The actor when its loop begins. -/
def start (store : Writer ExternalDb) (clock : ℕ) : ApprovalActor := ⟨store, clock, 0, [], false, []⟩

end ApprovalContext

end LarkCodexBridge.External

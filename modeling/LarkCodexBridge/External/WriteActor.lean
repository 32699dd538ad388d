import LarkCodexBridge.External.SingleWriter

/-!
# Mutation commands of the external write actor

`executeCommand` as the actor runs it. Each command first makes its own checks (`planStart`, `planSteer`,
`planInterrupt`, `planQueueAdd`, `planQueueStart`); from the fence on they are alike (`mutateFenced`): the fence is taken
for the intent (`acquire`), the reads that must come before the mutation are made, then the mutation and the read that
correlates its result (`conclude`), and one call settles the intent. What the server and the store writer answer is in
`Answers`.
-/

namespace LarkCodexBridge.External

open Limits SqlTable Store

/-! ## Errors, settings and answers -/

inductive ExternalCapabilityProfile where
  | observeShared | resumeShared | mutateShared | queueShared
  deriving DecidableEq

inductive ExternalTransportError where
  | admission
  | rpc
  | serverRejected (code : ℤ)
  | requestTimeout
  | connectionLost
  | protocolViolation
  | unsupportedProfile

inductive ExternalWriteError where
  | unsupportedProfile | invalidSettings | store | transport | notReady | busy | uncertain | unauthorized | conflict
  | ambiguous | closed

/-- The settings that the commands read. -/
structure ExternalWriteSettings where
  clientActor : String
  approvalActor : String
  approvalReviewer : String
  approvalRecipient : String

inductive TurnStatus where
  | inProgress | completed | failed | interrupted | unknown
  deriving DecidableEq

/-- What a read of a thread says: its id and the type of its status. -/
structure ThreadRead where
  id : String
  statusType : String

/-- The fields that the responses to the five mutations have. -/
structure MutationResponse where
  id : String
  status : TurnStatus
  clientUserMessageId : String

/-- A request to the store: its fate and the clock its job reads. -/
structure Ask where
  fate : Fate
  now : ℤ

/-- What the server and the store answer during one command. -/
structure Answers where
  owner : Ask
  prepare : Ask
  sent : Ask
  settle : Ask
  thread : Except ExternalTransportError ThreadRead
  turns : Except ExternalTransportError (List (String × TurnStatus))
  queue : Except ExternalTransportError (List String)
  response : Except ExternalTransportError MutationResponse
  /-- The pages of items that are read until the deadline: the client ids of their user messages. -/
  pages : List (Except ExternalTransportError (List (Option String)))

/-! ## Reads -/

def mapPreflightError : ExternalTransportError → ExternalWriteError
  | .serverRejected _ => .conflict
  | .unsupportedProfile => .unsupportedProfile
  | .admission | .rpc | .requestTimeout | .connectionLost | .protocolViolation => .uncertain

/-- A read whose failure is classified by `map_preflight_error`. -/
def preflightRead {α : Type} (answer : Except ExternalTransportError α) : Except ExternalWriteError α :=
  answer.mapError mapPreflightError

def threadIsIdle (a : Answers) (threadId : String) : Except ExternalWriteError Bool := do
  let read ← preflightRead a.thread
  .ok (read.id = threadId ∧ read.statusType = "idle")

def activeTurn (a : Answers) (threadId : String) : Except ExternalWriteError (Option String) := do
  let read ← preflightRead a.thread
  if read.id ≠ threadId ∨ read.statusType ≠ "active" then .ok none
  else
    let turns ← preflightRead a.turns
    match turns.filter fun turn => turn.2 = .inProgress with
    | [turn] => .ok (some turn.1)
    | _ => .error .conflict

/-- `list_queue`, which only `queue_shared` offers. -/
def listQueue (profile : ExternalCapabilityProfile) (a : Answers) : Except ExternalTransportError (List String) :=
  if profile = .queueShared then a.queue else .error .unsupportedProfile

def queueIsEmpty (profile : ExternalCapabilityProfile) (a : Answers) : Except ExternalWriteError Bool := do
  let queue ← preflightRead (listQueue profile a)
  .ok queue.isEmpty

def queueContains (profile : ExternalCapabilityProfile) (a : Answers) (queuedId : String) :
    Except ExternalWriteError Bool := do
  let queue ← preflightRead (listQueue profile a)
  .ok (queue.count queuedId = 1)

/-- `turn_has_client_message`: pages are read until one has the message, a read fails or the deadline is over. -/
def turnHasClientMessage (clientMessageId : String) :
    List (Except ExternalTransportError (List (Option String))) → Except ExternalWriteError Bool
  | [] => .ok false
  | page :: pages => do
    let items ← preflightRead page
    if some clientMessageId ∈ items then .ok true else turnHasClientMessage clientMessageId pages

/-! ## Steps on the store -/

/-- A step of a command: an error leaves the store as the step has made it. -/
def Exec (α : Type) : Type := Writer ExternalDb → Except ExternalWriteError α × Writer ExternalDb

namespace Exec

variable {α β : Type}

protected def pure (a : α) : Exec α := fun w => (.ok a, w)

protected def bind (x : Exec α) (f : α → Exec β) : Exec β := fun w =>
  match x w with
  | (.ok a, w) => f a w
  | (.error e, w) => (.error e, w)

instance : Monad Exec where
  pure := Exec.pure
  bind := Exec.bind

/-- An answer that does not touch the store. -/
def lift (x : Except ExternalWriteError α) : Exec α := fun w => (x, w)

def fail (e : ExternalWriteError) : Exec α := lift (.error e)

@[simp] theorem pure_apply (a : α) (w : Writer ExternalDb) : (pure a : Exec α) w = (.ok a, w) := rfl

theorem bind_apply (x : Exec α) (f : α → Exec β) (w : Writer ExternalDb) :
    (x >>= f) w = match x w with
      | (.ok a, w) => f a w
      | (.error e, w) => (.error e, w) := rfl

@[simp] theorem lift_apply (x : Except ExternalWriteError α) (w : Writer ExternalDb) : lift x w = (x, w) := rfl

@[simp] theorem fail_apply (e : ExternalWriteError) (w : Writer ExternalDb) : (fail e : Exec α) w = (.error e, w) := rfl

end Exec

/-- A call to the store whose failure is the class `Store`. -/
def ask {α : Type} (q : Ask) (check : Except StoreError Unit) (job : ℤ → Job ExternalDb α) : Exec α := fun w =>
  let r := w.call check q.fate (job q.now)
  (r.1.mapError fun _ => .store, r.2)

def acquire (q : Ask) (intent : NewExternalMutationIntent) : Exec Unit := do
  match ← ask q (validateIntent intent) (prepareExternalMutation · intent) with
  | .prepared => pure ()
  | .busy => .fail .busy
  | .uncertain => .fail .uncertain
  | .notReady | .staleEpoch => .fail .notReady
  | .approvalHandlerMismatch => .fail .invalidSettings
  | .duplicate _ => .fail .conflict

/-- A transition that must apply. -/
def transition (outcome : ExternalTransitionOutcome) : Exec Unit :=
  match outcome with
  | .applied => pure ()
  | .stale => .fail .notReady

def markSent (q : Ask) (endpoint thread intent : String) (epoch : ℕ) : Exec Unit := do
  transition (← ask q (do
      validatePair endpoint thread "sending an external mutation"
      validateId intent intentIdByteLimit "sending an external mutation")
    (markExternalMutationSent · endpoint thread intent epoch))

def resolve (q : Ask) (endpoint thread intent : String) (epoch : ℕ) (resolution : ExternalMutationResolution) :
    Exec Unit := do
  transition (← ask q (resolveMutationCheck endpoint thread intent resolution)
    (resolveExternalMutation · endpoint thread intent epoch resolution))

def resolveTransportFailure {α : Type} (q : Ask) (endpoint thread intent : String) (epoch : ℕ)
    (error : ExternalTransportError) : Exec α := do
  match error with
  | .serverRejected _ =>
    resolve q endpoint thread intent epoch .rejected
    .fail .conflict
  | _ =>
    resolve q endpoint thread intent epoch .uncertain
    .fail .uncertain

/-- The mutation, and what its result and the read that correlates it say: `none` where they do not prove what was asked
for. -/
def conclude (a : Answers) (intent : NewExternalMutationIntent)
    (verdict : MutationResponse → Except ExternalWriteError (Option String)) : Exec (Option String) :=
  match a.response with
  | .error error =>
    resolveTransportFailure a.settle intent.endpointLabel intent.threadId intent.intentId intent.epoch error
  | .ok response => do
    match ← Exec.lift (verdict response) with
    | none =>
      resolve a.settle intent.endpointLabel intent.threadId intent.intentId intent.epoch .uncertain
      .fail .ambiguous
    | some resultId =>
      resolve a.settle intent.endpointLabel intent.threadId intent.intentId intent.epoch (.applied (some resultId))
      pure (some resultId)

/-- All five commands from the fence on: the reads that come before the mutation, then the mutation. -/
def mutateFenced (a : Answers) (intent : NewExternalMutationIntent) (preflight : Except ExternalWriteError Bool)
    (verdict : MutationResponse → Except ExternalWriteError (Option String)) : Exec (Option String) := do
  acquire a.prepare intent
  if ← Exec.lift preflight then
    markSent a.sent intent.endpointLabel intent.threadId intent.intentId intent.epoch
    conclude a intent verdict
  else
    resolve a.settle intent.endpointLabel intent.threadId intent.intentId intent.epoch .rejected
    .fail .conflict

/-- What a command does once its own checks have passed. -/
structure Plan where
  answers : Answers
  intent : NewExternalMutationIntent
  /-- The reads between the record of the intent and the mutation: whether they allow it. -/
  preflight : Except ExternalWriteError Bool
  verdict : MutationResponse → Except ExternalWriteError (Option String)

/-- The second half of every command. -/
def Plan.run (p : Plan) : Exec (Option String) := mutateFenced p.answers p.intent p.preflight p.verdict

/-! ## Commands -/

/-- The parameters that the commands read; `wireBytes` is the size of their JSON, if they have one. -/
structure TurnStartParams where
  threadId : String
  clientUserMessageId : Option String
  approvalsReviewer : Option String
  wireBytes : Option ℕ

structure TurnSteerParams where
  threadId : String
  expectedTurnId : String
  clientUserMessageId : Option String
  wireBytes : Option ℕ

structure TurnInterruptParams where
  threadId : String
  turnId : String
  wireBytes : Option ℕ

structure ThreadQueueAddParams where
  threadId : String
  clientUserMessageId : String
  wireBytes : Option ℕ

structure ThreadQueueStartParams where
  threadId : String
  queuedSubmissionId : Option String
  wireBytes : Option ℕ

inductive WriteCommand where
  | start (source intentId : String) (params : TurnStartParams)
  | steer (source intentId : String) (params : TurnSteerParams)
  | interrupt (source intentId : String) (params : TurnInterruptParams)
  | queueAdd (source intentId expectedTurnId : String) (params : ThreadQueueAddParams)
  | queueStart (source intentId : String) (params : ThreadQueueStartParams)

/-- The connection that the actor owns. -/
structure Endpoint where
  label : String
  epoch : ℕ
  profile : ExternalCapabilityProfile
  settings : ExternalWriteSettings

def validateCommand (intentId : String) (wireBytes : Option ℕ) : Except ExternalWriteError Unit :=
  if intentId.utf8ByteSize = 0 ∨ intentId.utf8ByteSize > routingIdByteLimit then .error .invalidSettings
  else
    match wireBytes with
    | none => .error .invalidSettings
    | some n => if n > maxOutboundValueWireBytes then .error .invalidSettings else .ok ()

def validateStaticApproval (reviewer : Option String) (settings : ExternalWriteSettings) : Except ExternalWriteError Unit :=
  if reviewer = some settings.approvalReviewer then .ok () else .error .invalidSettings

def required (value : Option String) : Except ExternalWriteError String :=
  match value with
  | some value => .ok value
  | none => .error .invalidSettings

def WriteCommand.threadId : WriteCommand → String
  | .start _ _ params => params.threadId
  | .steer _ _ params => params.threadId
  | .interrupt _ _ params => params.threadId
  | .queueAdd _ _ _ params => params.threadId
  | .queueStart _ _ params => params.threadId

def WriteCommand.intentId : WriteCommand → String
  | .start _ intentId _ | .steer _ intentId _ | .interrupt _ intentId _ | .queueAdd _ intentId _ _
  | .queueStart _ intentId _ => intentId

namespace Endpoint

variable (c : Endpoint) (a : Answers)

/-- The intent that a command records. -/
def intent (source intentId threadId : String) (kind : ExternalMutationKind) (expectedTurnId clientMessageId : Option String) :
    NewExternalMutationIntent where
  endpointLabel := c.label
  threadId := threadId
  intentId := intentId
  epoch := c.epoch
  kind := kind
  expectedTurnId := expectedTurnId
  clientMessageId := clientMessageId
  sourceActor := source
  clientActor := c.settings.clientActor
  approvalActor := c.settings.approvalActor

/-- The owner of a turn or a queued submission must be the source under the current settings. -/
def requireOwner (source threadId resultId : String) : Exec Unit := do
  let owner ← ask a.owner (do
      validatePair c.label threadId "reading an external mutation owner"
      validateId resultId routingIdByteLimit "reading an external mutation owner")
    fun _ => externalMutationOwner c.label threadId resultId
  match owner with
  | none => .fail .unauthorized
  | some owner =>
    if owner = ⟨source, c.settings.clientActor, c.settings.approvalActor⟩ then pure () else .fail .unauthorized

def requireOwnedActive (source threadId expectedTurnId : String) : Exec Unit := do
  let active ← Exec.lift (activeTurn a threadId)
  if active ≠ some expectedTurnId then .fail .conflict
  else c.requireOwner a source threadId expectedTurnId

/-- `execute_start` up to the fence. -/
def planStart (source intentId : String) (params : TurnStartParams) : Exec Plan := do
  if c.profile ≠ .queueShared then .fail .unsupportedProfile
  else
    let clientMessageId ← Exec.lift (required params.clientUserMessageId)
    Exec.lift (validateCommand intentId params.wireBytes)
    Exec.lift (validateStaticApproval params.approvalsReviewer c.settings)
    pure
      { answers := a
        intent := c.intent source intentId params.threadId .turnStart none (some clientMessageId)
        preflight := do
          if ← threadIsIdle a params.threadId then queueIsEmpty c.profile a else .ok false
        verdict := fun response => do
          let clientMatches ← turnHasClientMessage clientMessageId a.pages
          .ok (if response.status = .inProgress ∧ clientMatches = true then some response.id else none) }

/-- `execute_steer` up to the fence. -/
def planSteer (source intentId : String) (params : TurnSteerParams) : Exec Plan := do
  let messageId ← Exec.lift (required params.clientUserMessageId)
  Exec.lift (validateCommand intentId params.wireBytes)
  c.requireOwnedActive a source params.threadId params.expectedTurnId
  pure
    { answers := a
      intent := c.intent source intentId params.threadId .turnSteer (some params.expectedTurnId) (some messageId)
      preflight := .ok true
      verdict := fun response => do
        if response.id ≠ params.expectedTurnId then .ok none
        else
          let clientMatches ← turnHasClientMessage messageId a.pages
          .ok (if clientMatches then some response.id else none) }

/-- `execute_interrupt` up to the fence. -/
def planInterrupt (source intentId : String) (params : TurnInterruptParams) : Exec Plan := do
  Exec.lift (validateCommand intentId params.wireBytes)
  c.requireOwnedActive a source params.threadId params.turnId
  pure
    { answers := a
      intent := c.intent source intentId params.threadId .turnInterrupt (some params.turnId) none
      preflight := .ok true
      verdict := fun _ => .ok (some params.turnId) }

/-- The answers to a request that only `queue_shared` offers. -/
def queueAnswers : Answers :=
  { a with response := if c.profile = .queueShared then a.response else .error .unsupportedProfile }

/-- `execute_queue_add` up to the fence. -/
def planQueueAdd (source intentId expectedTurnId : String) (params : ThreadQueueAddParams) : Exec Plan := do
  Exec.lift (validateCommand intentId params.wireBytes)
  c.requireOwnedActive a source params.threadId expectedTurnId
  pure
    { answers := c.queueAnswers a
      intent := c.intent source intentId params.threadId .queueAdd (some expectedTurnId) (some params.clientUserMessageId)
      preflight := .ok true
      verdict := fun response =>
        .ok (if response.clientUserMessageId = params.clientUserMessageId then some response.id else none) }

/-- `execute_queue_start` up to the fence. -/
def planQueueStart (source intentId : String) (params : ThreadQueueStartParams) : Exec Plan := do
  Exec.lift (validateCommand intentId params.wireBytes)
  let queuedId ← Exec.lift (required params.queuedSubmissionId)
  c.requireOwner a source params.threadId queuedId
  pure
    { answers := c.queueAnswers a
      intent := c.intent source intentId params.threadId .queueStart none none
      preflight := do
        if ← threadIsIdle a params.threadId then queueContains c.profile a queuedId else .ok false
      verdict := fun response => .ok (if response.status = .inProgress then some response.id else none) }

/-- A command up to the fence: what it checks before, and what it will do with the fence. -/
def plan : WriteCommand → Exec Plan
  | .start source intentId params => c.planStart a source intentId params
  | .steer source intentId params => c.planSteer a source intentId params
  | .interrupt source intentId params => c.planInterrupt a source intentId params
  | .queueAdd source intentId expectedTurnId params => c.planQueueAdd a source intentId expectedTurnId params
  | .queueStart source intentId params => c.planQueueStart a source intentId params

def executeCommand (command : WriteCommand) : Exec (Option String) := do
  (← c.plan a command).run

end Endpoint

/-- The errors that end the actor. -/
def ExternalWriteError.isFatal : ExternalWriteError → Bool
  | .uncertain | .ambiguous => true
  | _ => false

def isFatalResult {α : Type} : Except ExternalWriteError α → Bool
  | .error e => e.isFatal
  | .ok _ => false

end LarkCodexBridge.External

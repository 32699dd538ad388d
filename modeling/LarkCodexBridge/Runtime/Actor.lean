import LarkCodexBridge.Runtime.Commands
import LarkCodexBridge.Runtime.PendingMedia
import LarkCodexBridge.Store.InboundOps

/-!
# The scope actor

One actor per scope takes messages from its mailbox, prepares them, collects a batch, claims it in the store and runs a
Codex turn for it; commands of the bridge run between batches. The task is a state machine: `ActorPc` says at which
await it stands and what it holds there, `ActorPc.op` is the store request it waits for, and `Actor.run` continues it up to
its next await with the answer of what it waited for (`Env`).

Ghost data: every message carries the number of configuration changes made when the router took it (`taken`), copies of
policy and settings carry the version they were read at, `Outcome.log` lists the access decisions, the commands run, the
media staged and the turns started by a step, and `Outcome.dropped` the messages that an error exit or the shutdown lets
go of.
-/

namespace LarkCodexBridge.Runtime

open Limits Lark Store Outbox

/-! ## Shared data -/

/-- The live configuration, with the earlier ones in order. -/
structure Live where
  past : List LiveInner
  inner : LiveInner

/-- The number of changes made so far. -/
def Live.version (l : Live) : ℕ := l.past.length

/-- The configuration after `n` changes. -/
def Live.get? (l : Live) (n : ℕ) : Option LiveInner := (l.past ++ [l.inner])[n]?

/-- `LiveBridgeConfig::apply`; a call that changes nothing is no change. -/
def Live.apply (l : Live) (env : LiveInner.ApplyEnv) (patch : ConfigPatch) : Live :=
  let inner := (l.inner.apply env patch).2
  if inner = l.inner then l else ⟨l.past ++ [l.inner], inner⟩

/-- What the supervisor last published. -/
structure SupervisorAccess where
  epoch : ℕ
  client : Bool
  terminal : Bool

/-- A copy of the policy and the version it was read at. -/
structure PolicyCopy where
  policy : AccessPolicy
  version : ℕ
  deriving DecidableEq

/-- The copies of policy and settings a loop works with. -/
structure Copies where
  policy : AccessPolicy
  policyVersion : ℕ
  settings : RouterSettings
  settingsVersion : ℕ
  deriving DecidableEq

def Live.readPolicy (l : Live) : PolicyCopy := ⟨l.inner.policy, l.version⟩

/-- The second read of a loop. -/
def Live.readSettings (l : Live) (p : PolicyCopy) : Copies := ⟨p.policy, p.version, l.inner.settings, l.version⟩

/-! ## Messages -/

/-- A message that the router took from its queue, after `taken` configuration changes. -/
structure ActorInbound where
  event : InboundEvent
  taken : ℕ
  deriving DecidableEq

def ActorInbound.key (tenant : TenantNamespace) (item : ActorInbound) : InboundKey := ⟨tenant, item.event.eventId⟩

inductive ScopeControl where
  | command (command : BridgeCommand)
  | malformed (error : CommandParseError)
  deriving DecidableEq

structure ActorControl where
  inbound : ActorInbound
  control : ScopeControl
  deriving DecidableEq

inductive ScopeCommand where
  | inbound (item : ActorInbound)
  | control (control : ActorControl)
  deriving DecidableEq

def ScopeCommand.item : ScopeCommand → ActorInbound
  | .inbound item => item
  | .control c => c.inbound

structure TurnInbound where
  inbound : ActorInbound
  pendingMedia : Option PendingMediaReservation
  deriving DecidableEq

inductive DeferredScopeWork where
  | prepared (item : TurnInbound)
  | control (control : ActorControl)

def DeferredScopeWork.item : DeferredScopeWork → ActorInbound
  | .prepared item => item.inbound
  | .control c => c.inbound

def isPendingMediaEvent (event : InboundEvent) : Bool :=
  event.chatType = .p2p && ["image", "video", "media", "file"].contains event.messageType

def isConversationMedia (messageType : String) : Bool :=
  ["image", "video", "media", "file", "audio"].contains messageType

def isAudioEvent (event : InboundEvent) : Bool := event.messageType = "audio"

def clearsPendingMedia (text : String) : Bool := ["/cancel", "/new", "/stop"].contains (trimStr text)

/-- `is_stale` at the clock `now`. -/
def isStale (now : ℤ) (event : InboundEvent) (maxAge : ℕ) : Bool :=
  saturateI64 (now - event.createTimeMs) > min (maxAge : ℤ) i64Max

def bridgeControl (fromStr : String → Option String) (event : InboundEvent) : Option ScopeControl :=
  if event.messageType ≠ "text" then none
  else
    match parseCommand fromStr (trimStr event.text) with
    | .ok (some command) => some (.command command)
    | .error error => some (.malformed error)
    | .ok none => none

def ScopeControl.ownerGated : ScopeControl → Bool
  | .command c => commandRequiresOwner c
  | .malformed _ => false

/-- The gate of a message: commands that need the owner have their own. -/
def accessDecision (policy : AccessPolicy) (control : Option ScopeControl) (event : InboundEvent) : AccessDecision :=
  if control.any ScopeControl.ownerGated then policy.decideCommand event else policy.decide event

def externalBatchUsesUnsupportedFeatures (batch : List TurnInbound) : Bool :=
  batch.any fun item =>
    item.pendingMedia.isSome || item.inbound.event.messageType ≠ "text" ||
      item.inbound.event.replyToMessageId.isSome || !item.inbound.event.resources.isEmpty ||
      item.inbound.event.parts.any fun part => match part with | .text _ => false | _ => true

/-- The later copies of an item with the same key go. -/
def deduplicateBatch (batch : List TurnInbound) : List TurnInbound :=
  batch.foldl (fun kept item =>
    if kept.any (·.inbound.event.eventId = item.inbound.event.eventId) then kept else kept ++ [item]) []

/-- What is kept is a part of the batch, with a copy of every item. -/
theorem deduplicateBatch_spec (batch : List TurnInbound) : (deduplicateBatch batch).Sublist batch ∧
    ∀ item ∈ batch, ∃ copy ∈ deduplicateBatch batch, copy.inbound.event.eventId = item.inbound.event.eventId := by
  -- over what remains of the batch, with what is kept so far
  have go : ∀ rest kept : List TurnInbound, ∃ more, rest.foldl (fun kept item =>
      if kept.any (·.inbound.event.eventId = item.inbound.event.eventId) then kept else kept ++ [item]) kept =
        kept ++ more ∧ more.Sublist rest ∧
        ∀ item ∈ rest, ∃ copy ∈ kept ++ more, copy.inbound.event.eventId = item.inbound.event.eventId := by
    intro rest
    induction rest with
    | nil => exact fun kept => ⟨[], by simp, .slnil, by simp⟩
    | cons next rest ih =>
      intro kept
      rw [List.foldl_cons]
      split
      · next hany =>
        obtain ⟨more, heq, hsub, hcover⟩ := ih kept
        obtain ⟨copy, hcopy, hid⟩ := List.any_eq_true.1 hany
        exact ⟨more, heq, hsub.cons _, List.forall_mem_cons.2
          ⟨⟨copy, List.mem_append_left _ hcopy, of_decide_eq_true hid⟩, hcover⟩⟩
      · obtain ⟨more, heq, hsub, hcover⟩ := ih (kept ++ [next])
        rw [List.append_assoc, List.singleton_append] at heq hcover
        exact ⟨next :: more, heq, hsub.cons_cons _, List.forall_mem_cons.2 ⟨⟨next, by simp, rfl⟩, hcover⟩⟩
  obtain ⟨more, heq, hsub, hcover⟩ := go batch []
  rw [List.nil_append] at heq hcover
  rw [deduplicateBatch, heq]
  exact ⟨hsub, hcover⟩

def textBytes (batch : List TurnInbound) : ℕ := (batch.map (·.inbound.event.text.utf8ByteSize)).sum

/-! ## States -/

inductive ScopeFailureKind where
  | store | attachment | context | policy | supervisor | projection | client | capacity
  deriving DecidableEq

inductive ScopeState where
  | idle | debouncing | waitingPermit | startingTurn
  | running (turnRowId : ℕ)
  | finalizing (turnRowId : ℕ)
  | failed (kind : ScopeFailureKind)
  deriving DecidableEq

inductive ThreadOrigin where
  | bridgeCreated | externallyAdopted
  deriving DecidableEq

inductive ThreadAdoptionState where
  | acquiring | owned | releasing | recoveryRequired | releaseFailed | terminal
  deriving DecidableEq

/-- The active mapping of a scope. -/
structure ActiveThread where
  codexThreadId : String
  origin : ThreadOrigin
  adoptionGeneration : Option ℕ
  deriving DecidableEq

/-- The active adoption saga of a scope. -/
structure ThreadAdoption where
  generation : ℕ
  codexThreadId : String
  state : ThreadAdoptionState
  deriving DecidableEq

/-- What the two thread rows say about a batch: whether it goes to an adopted thread, or is refused (`none`). -/
def externallyAdopted : Option ActiveThread → Option ThreadAdoption → Option Bool
  | some mapping, some saga =>
    if mapping.origin = .externallyAdopted ∧ mapping.adoptionGeneration = some saga.generation ∧
        mapping.codexThreadId = saga.codexThreadId ∧ saga.state = .owned then some true
    else none
  | some mapping, none => if mapping.origin = .externallyAdopted then none else some false
  | none, some _ => none
  | none, none => some false

/-- A turn that was begun. -/
structure TurnTask where
  copies : Copies
  batch : List TurnInbound
  sources : List ActorInbound
  turnRowId : ℕ
  adopted : Bool
  epoch : ℕ
  deriving DecidableEq

/-- A turn whose request may have been sent: its media are used up. -/
def TurnTask.commitPendingMedia (t : TurnTask) : TurnTask :=
  { t with batch := t.batch.map fun item => { item with pendingMedia := none } }

/-- The request that settles one prepared message. -/
inductive SettleOp where
  | reject (reason : InboundRejectionKind) (notice : NewOutboxRow)
  | complete
  deriving DecidableEq

/-- Where the task stands. -/
inductive ActorPc where
  | loopTop
  | readSettings (policy : PolicyCopy)
  | waiting (c : Copies)
  /-- `prepare_inbound` settles a message; `batch` is what was collected before it. -/
  | preparing (c : Copies) (batch : Option (List TurnInbound)) (item : ActorInbound) (op : SettleOp)
  | debouncing (c : Copies) (batch : List TurnInbound)
  | controlPolicy (control : ActorControl)
  | controlSettings (control : ActorControl) (policy : PolicyCopy)
  | controlRejecting (control : ActorControl) (reason : InboundRejectionKind) (notice : NewOutboxRow)
  | executing (control : ActorControl)
  | replying (control : ActorControl) (row : NewOutboxRow)
  | replyPause (control : ActorControl) (row : NewOutboxRow)
  | readAdoption (c : Copies) (batch : List TurnInbound)
  | readMapping (c : Copies) (batch : List TurnInbound) (saga : Option ThreadAdoption)
  | permitCheck (c : Copies) (batch : List TurnInbound) (adopted : Bool)
  | permitWait (c : Copies) (batch : List TurnInbound) (adopted : Bool)
  /-- The eligibility loop rejects `item`; `kept` passed it, `rest` comes after. -/
  | screening (c : Copies) (adopted : Bool) (item : TurnInbound) (reason : InboundRejectionKind) (notice : NewOutboxRow)
      (rest kept : List TurnInbound)
  | readThread (c : Copies) (batch : List TurnInbound) (adopted : Bool)
  | workspace (c : Copies) (batch : List TurnInbound) (adopted : Bool)
  | route (c : Copies) (batch : List TurnInbound)
  | waitClient (c : Copies) (batch : List TurnInbound)
  | ensureThread (c : Copies) (batch : List TurnInbound) (epoch : ℕ)
  | settling (batch : List TurnInbound) (epoch : ℕ)
  | subscribing (c : Copies) (batch : List TurnInbound) (adopted : Bool) (thread : String) (epoch : ℕ)
  /-- Every message of a batch is rejected, `item` now. -/
  | rejectingAll (reason : InboundRejectionKind) (item : TurnInbound) (notice : NewOutboxRow) (rest : List TurnInbound)
  | claiming (c : Copies) (batch : List TurnInbound) (adopted : Bool) (turn : NewTurnRow) (epoch : ℕ)
  | assembling (t : TurnTask)
  | starting (t : TurnTask)
  | markRunning (t : TurnTask) (codexTurnId : String)
  | running (t : TurnTask)
  /-- The reply is made durable; `waits` if the attachments stay until the epoch of the turn has ended. -/
  | finalizing (t : TurnTask) (resolution : TurnResolution) (waits : Bool)
  | resolving (t : TurnTask) (resolution : TurnResolution) (waits : Bool)
  | epochEnd (t : TurnTask)
  | releasing (t : TurnTask)
  | ended
  deriving DecidableEq

/-- One scope actor. -/
structure Actor where
  scope : ScopeKey
  mailbox : List ScopeCommand
  state : ScopeState
  pendingMedia : PendingMediaQueue
  deferred : Option DeferredScopeWork
  pc : ActorPc
  /-- The answer to the store request of `pc`, once it came. -/
  answer : Option (Except StoreError OpReply)
  /-- The shutdown token. -/
  cancelled : Bool

def Actor.spawn (scope : ScopeKey) (settings : RouterSettings) : Actor :=
  ⟨scope, [], .idle, .new settings, none, .loopTop, none, false⟩

def Actor.isIdleAndEmpty (a : Actor) : Bool := a.state = .idle && a.mailbox.isEmpty

def terminalOf : TurnResolution → InboundTerminal
  | .completed => .completed
  | .failed | .interrupted | .uncertain => .rejected

def ActorInbound.rejectOp (tenant : TenantNamespace) (item : ActorInbound) (reason : InboundRejectionKind)
    (notice : NewOutboxRow) : InboundOp :=
  .rejectReceivedAndEnqueueNotice (item.key tenant) reason notice

/-- The awaits that look at the shutdown token first. -/
def ActorPc.looksAtShutdown : ActorPc → Bool
  | .waiting _ | .debouncing _ _ | .replyPause _ _ | .permitWait _ _ _ | .ensureThread _ _ _ | .subscribing _ _ _ _ _
  | .starting _ | .running _ => true
  | _ => false

/-- The store request the task waits for. -/
def ActorPc.op (tenant : TenantNamespace) : ActorPc → Option InboundOp
  | .preparing _ _ item (.reject reason notice) => some (item.rejectOp tenant reason notice)
  | .preparing _ _ item .complete => some (.completeReceivedWithoutTurn (item.key tenant))
  | .controlRejecting control reason notice => some (control.inbound.rejectOp tenant reason notice)
  | .replying control row => some (.completeReceivedAndEnqueueControlReply (control.inbound.key tenant) row)
  | .screening _ _ item reason notice _ _ => some (item.inbound.rejectOp tenant reason notice)
  | .rejectingAll reason item notice _ => some (item.inbound.rejectOp tenant reason notice)
  | .claiming _ batch _ turn _ =>
    some (.beginTurnAndClaimInbound turn (batch.map fun item => (item.inbound.key tenant, some item.inbound.event)))
  | .markRunning t codexTurnId => some (.setTurnState t.turnRowId .running (some codexTurnId))
  | .resolving t resolution _ => some (.resolveTurnAndFinishInboundBatch t.turnRowId resolution (terminalOf resolution))
  | _ => none

/-! ## The environment -/

inductive WorkspaceAnswer where
  | ok (policyChanged : Bool)
  | policy
  | store
  deriving DecidableEq

/-- `ensure_thread`. A client error is a definite refusal or not, and may come from a router that is gone. -/
inductive ThreadAnswer where
  | ok (thread : String)
  | client (notApplied routerGone : Bool)
  | scope (kind : ScopeFailureKind)
  deriving DecidableEq

inductive SubscribeAnswer where
  | ok (clientMessageId : String)
  | error (endsEpoch : Bool)
  deriving DecidableEq

inductive StartAnswer where
  | started (codexTurnId : String) (activated : Bool)
  | rejected
  | uncertain
  deriving DecidableEq

/-- What ends an await. -/
inductive Answer where
  /-- The store answered, or nothing was awaited. -/
  | next
  | message
  | timer
  | shutdown
  | changed
  | closed
  | permit
  | adoption (row : Option (Option ThreadAdoption))
  | mapping (row : Option (Option ActiveThread))
  | workspace (answer : WorkspaceAnswer)
  /-- The adopted thread and its epoch; `none` for a refusal or a route that does not match the mapping. -/
  | route (thread : Option (String × ℕ))
  | thread (answer : ThreadAnswer)
  | subscribed (answer : SubscribeAnswer)
  /-- A command has run; `cleared` if it emptied the pending media on its way. -/
  | executed (cleared : Bool)
  /-- The inputs are assembled and the workspace is still valid. -/
  | assembled (ok : Bool)
  | start (answer : StartAnswer)
  /-- The turn ended, or its events did. -/
  | turnEnded (resolution : Option TurnResolution)
  /-- The reply is durable, or the sink refused for good. -/
  | finalized (failure : Option ScopeFailureKind)
  | released (ok : Bool)
  deriving DecidableEq

/-- One answer with the clocks, the sink and the file system as they are then. -/
structure Env where
  answer : Answer
  clock : ℤ
  instant : ℕ
  /-- What the reply sink makes of the message; `none` if it refuses. -/
  notice : Option NewOutboxRow
  apply : LiveInner.ApplyEnv

/-- What a step reads. -/
structure Ctx where
  live : Live
  supervisor : SupervisorAccess
  env : Env

/-! ## Effects -/

inductive LogEntry where
  | decision (item : ActorInbound) (policy : AccessPolicy) (version : ℕ)
  | executed (item : ActorInbound) (command : BridgeCommand)
  | staged (item : ActorInbound)
  | started (sources : List ActorInbound) (c : Copies)
  deriving DecidableEq

structure Outcome where
  actor : Actor
  live : Live
  log : List LogEntry
  dropped : List ActorInbound

/-- Prefixes a step's log. -/
def Outcome.logged (o : Outcome) (log : List LogEntry) : Outcome := { o with log := log ++ o.log }

namespace Actor

/-- The task goes on to its next await. -/
def goto (x : Ctx) (a : Actor) (pc : ActorPc) (log : List LogEntry := []) : Outcome :=
  ⟨{ a with pc := pc, answer := none }, x.live, log, []⟩

/-- Nothing it waits for has come. -/
def stay (x : Ctx) (a : Actor) : Outcome := ⟨a, x.live, [], []⟩

/-- The next round. -/
def again (x : Ctx) (a : Actor) (state : ScopeState) (log : List LogEntry := []) (dropped : List ActorInbound := []) :
    Outcome :=
  ⟨{ a with state := state, pc := .loopTop, answer := none }, x.live, log, dropped⟩

/-- The task ends, and with it what it holds. -/
def stop (x : Ctx) (a : Actor) (dropped : List ActorInbound) (log : List LogEntry := []) : Outcome :=
  ⟨{ a with pc := .ended, answer := none, deferred := none, mailbox := [] }, x.live, log,
    dropped ++ a.deferred.toList.map (·.item) ++ a.mailbox.map (·.item)⟩

/-- Reservations that were not committed go back. -/
def restoreAll (now : ℕ) (q : PendingMediaQueue) (items : List TurnInbound) : PendingMediaQueue :=
  items.foldl (fun q item => match item.pendingMedia with
    | none => q
    | some r => q.restore now r) q

/-- `process_batch` returned: a cancelled actor stops, another starts its next round. -/
def leaveBatch (x : Ctx) (a : Actor) (state : ScopeState) (batch : List TurnInbound) (dropped : List ActorInbound)
    (log : List LogEntry := []) : Outcome :=
  let a := { a with pendingMedia := restoreAll x.env.instant a.pendingMedia batch }
  if a.cancelled then a.stop x dropped log else a.again x state log dropped

def finishBatch (x : Ctx) (a : Actor) (batch : List TurnInbound) (log : List LogEntry := []) : Outcome :=
  a.leaveBatch x .idle batch [] log

def failBatch (x : Ctx) (a : Actor) (kind : ScopeFailureKind) (batch : List TurnInbound) (log : List LogEntry := []) :
    Outcome :=
  a.leaveBatch x (.failed kind) batch (batch.map (·.inbound)) log

/-- `reject_terminal_batch`, and the loop that rejects a batch for its workspace. -/
def rejectAll (x : Ctx) (a : Actor) (reason : InboundRejectionKind) : List TurnInbound → Outcome
  | [] => a.finishBatch x []
  | item :: rest =>
    match x.env.notice with
    | none => a.failBatch x .projection (item :: rest)
    | some notice => a.goto x (.rejectingAll reason item notice rest)

/-! ## Batches -/

/-- Entry of `process_batch`. -/
def startBatch (x : Ctx) (a : Actor) (c : Copies) (batch : List TurnInbound) : Outcome :=
  let kept := deduplicateBatch batch
  { a with
    state := .waitingPermit
    pendingMedia := restoreAll x.env.instant a.pendingMedia (batch.filter (· ∉ kept)) }.goto x (.readAdoption c kept)

/-- Head of the debounce loop. -/
def collect (x : Ctx) (a : Actor) (c : Copies) (batch : List TurnInbound) : Outcome :=
  if batch.length ≥ turnBatchMaxMessages ∨ textBytes batch ≥ turnBatchTextByteBudget then a.startBatch x c batch
  else a.goto x (.debouncing c batch)

/-- The first message of a batch. -/
def openBatch (x : Ctx) (a : Actor) (c : Copies) (first : TurnInbound) : Outcome :=
  let a := { a with state := .debouncing }
  if isAudioEvent first.inbound.event then a.startBatch x c [first] else a.collect x c [first]

/-- A prepared message joins the batch, or waits for the next one. -/
def joinBatch (x : Ctx) (a : Actor) (c : Copies) (batch : List TurnInbound) (next : TurnInbound) : Outcome :=
  if isAudioEvent next.inbound.event ∨
      textBytes batch + next.inbound.event.text.utf8ByteSize > turnBatchTextByteBudget then
    { a with deferred := some (.prepared next) }.startBatch x c batch
  else a.collect x c (batch ++ [next])

/-- `prepare_inbound` returned a message for the turn. -/
def prepared (x : Ctx) (a : Actor) (c : Copies) (batch : Option (List TurnInbound)) (item : TurnInbound) : Outcome :=
  match batch with
  | none => a.openBatch x c item
  | some batch => a.joinBatch x c batch item

/-- `prepare_inbound` settled its message. -/
def settled (x : Ctx) (a : Actor) (c : Copies) (batch : Option (List TurnInbound)) : Outcome :=
  match batch with
  | none => a.again x a.state
  | some batch => a.collect x c batch

/-- `prepare_inbound` failed: the message is dropped, a batch collected before it goes on. -/
def prepareFailed (x : Ctx) (a : Actor) (c : Copies) (batch : Option (List TurnInbound)) (item : ActorInbound)
    (kind : ScopeFailureKind) : Outcome :=
  match batch with
  | none => a.again x (.failed kind) [] [item]
  | some batch => { a.startBatch x c batch with dropped := [item] }

/-- Ordinary input: the pending media are reserved for it, or cleared. -/
def reserve (x : Ctx) (a : Actor) (item : ActorInbound) : TurnInbound × PendingMediaQueue :=
  let pending := a.pendingMedia.expire x.env.instant
  if item.event.replyToMessageId.isSome ∨ clearsPendingMedia item.event.text then (⟨item, none⟩, pending.clear)
  else if item.event.chatType = .p2p ∧ item.event.messageType = "text" ∧ isAudioEvent item.event = false then
    let (r, pending) := pending.reserveAll x.env.instant
    (⟨item, if r.items.isEmpty then none else some r⟩, pending)
  else (⟨item, none⟩, pending)

theorem reserve_inbound {x : Ctx} {a : Actor} {item : ActorInbound} : (a.reserve x item).1.inbound = item := by
  unfold reserve
  dsimp only
  split
  · rfl
  · split <;> rfl

/-- The media branch of `prepare_inbound`. -/
def prepareMedia (x : Ctx) (a : Actor) (c : Copies) (batch : Option (List TurnInbound)) (item : ActorInbound) : Outcome :=
  let stale := isStale x.env.clock item.event c.settings.messageMaxAge
  let log := if stale then [] else [LogEntry.decision item c.policy c.policyVersion]
  let reason := if stale then some .stale else (c.policy.decide item.event).rejectionKind
  match reason with
  | none => a.goto x (.preparing c batch item .complete) log
  | some reason =>
    match x.env.notice with
    | none => (a.prepareFailed x c batch item .projection).logged log
    | some notice => a.goto x (.preparing c batch item (.reject reason notice)) log

def prepareInbound (x : Ctx) (a : Actor) (c : Copies) (batch : Option (List TurnInbound)) (item : ActorInbound) : Outcome :=
  if isPendingMediaEvent item.event ∨ (item.event.chatType ≠ .p2p ∧ isConversationMedia item.event.messageType) then
    a.prepareMedia x c batch item
  else
    let (turn, pending) := a.reserve x item
    { a with pendingMedia := pending }.prepared x c batch turn

/-- The message of `prepare_inbound` is settled; a media message of a direct chat is staged if it was accepted. -/
def finishPreparing (x : Ctx) (a : Actor) (c : Copies) (batch : Option (List TurnInbound)) (item : ActorInbound) :
    SettleOp → Outcome
  | .reject _ _ => a.settled x c batch
  | .complete =>
    if isPendingMediaEvent item.event then
      Outcome.logged
        ({ a with pendingMedia := a.pendingMedia.stage x.env.instant item.event }.settled x c batch) [.staged item]
    else a.settled x c batch

/-- Why the eligibility loop of `process_batch` rejects a message. -/
def screenReason (x : Ctx) (c : Copies) (item : TurnInbound) : Option InboundRejectionKind :=
  if item.inbound.event.text.utf8ByteSize > turnBatchTextByteBudget then some .overloaded
  else if isStale x.env.clock item.inbound.event c.settings.messageMaxAge then some .stale
  else (c.policy.decide item.inbound.event).rejectionKind

/-- The decision that the loop takes on the way. -/
def screenLog (x : Ctx) (c : Copies) (item : TurnInbound) : List LogEntry :=
  if item.inbound.event.text.utf8ByteSize > turnBatchTextByteBudget ∨
      isStale x.env.clock item.inbound.event c.settings.messageMaxAge then []
  else [.decision item.inbound c.policy c.policyVersion]

/-- The eligibility loop of `process_batch`, up to the next rejection. -/
def screen (x : Ctx) (a : Actor) (c : Copies) (adopted : Bool) : List TurnInbound → List TurnInbound → Outcome
  | [], kept => if kept.isEmpty then a.finishBatch x [] else a.goto x (.readThread c kept adopted)
  | item :: rest, kept =>
    match screenReason x c item with
    | none => (a.screen x c adopted rest (kept ++ [item])).logged (screenLog x c item)
    | some reason =>
      match x.env.notice with
      | none => a.failBatch x .projection (item :: rest ++ kept) (screenLog x c item)
      | some notice => a.goto x (.screening c adopted item reason notice rest kept) (screenLog x c item)

/-- The workspace is ready: an adopted thread is routed to, another waits for the shared client. -/
def enterTurn (x : Ctx) (a : Actor) (c : Copies) (batch : List TurnInbound) (adopted policyChanged : Bool) : Outcome :=
  let a := { a with state := .startingTurn }
  if adopted = false then a.goto x (.waitClient c batch)
  else if externalBatchUsesUnsupportedFeatures batch ∨ policyChanged then a.rejectAll x .internal batch
  else a.goto x (.route c batch)

/-- The sources of a turn: the messages that were claimed for it. -/
def claimedSources (batch : List TurnInbound) (claimed : List ClaimedInbound) : List ActorInbound :=
  (batch.map (·.inbound)).filter fun item => claimed.any (·.key.eventId = item.event.eventId)

/-- The turn is resolved. One of an adopted thread has no attachments to settle. -/
def resolved (x : Ctx) (a : Actor) (t : TurnTask) (resolution : TurnResolution) (waits : Bool) : Outcome :=
  if t.adopted then a.finishBatch x t.batch
  else if waits then a.goto x (.epochEnd t)
  else if resolution = .uncertain then a.finishBatch x t.batch
  else a.goto x (.releasing t)

/-! ## Commands -/

/-- The change that `/config` makes. -/
def configChange (control : ActorControl) : Option ConfigPatch :=
  match control.control with
  | .command (.config (some patch) false) => if control.inbound.event.chatType = .p2p then some patch else none
  | _ => none

/-- `execute_control` up to its first await: `/new` and `/stop` clear the pending media, `/config` changes the live
configuration. -/
def executeControl (x : Ctx) (a : Actor) (control : ActorControl) (command : BridgeCommand) : Outcome :=
  let pending := if command = .new ∨ command = .stop then a.pendingMedia.clear else a.pendingMedia
  let live := match configChange control with
    | some patch => x.live.apply x.env.apply patch
    | none => x.live
  { { a with pendingMedia := pending }.goto x (.executing control) [.executed control.inbound command] with live := live }

/-- The reply of a command is made and stored. -/
def reply (x : Ctx) (a : Actor) (control : ActorControl) : Outcome :=
  match x.env.notice with
  | none => a.again x (.failed .projection) [] [control.inbound]
  | some row => a.goto x (.replying control row)

def rejectControl (x : Ctx) (a : Actor) (control : ActorControl) (reason : InboundRejectionKind) (log : List LogEntry) :
    Outcome :=
  match x.env.notice with
  | none => a.again x (.failed .projection) log [control.inbound]
  | some notice => a.goto x (.controlRejecting control reason notice) log

/-- `process_control` once it has read policy and settings. -/
def processControl (x : Ctx) (a : Actor) (control : ActorControl) (c : Copies) : Outcome :=
  if isStale x.env.clock control.inbound.event c.settings.messageMaxAge then a.rejectControl x control .stale []
  else
    let log := [LogEntry.decision control.inbound c.policy c.policyVersion]
    match (accessDecision c.policy (some control.control) control.inbound.event).rejectionKind with
    | some reason => a.rejectControl x control reason log
    | none =>
      match control.control with
      | .malformed _ => (a.reply x control).logged log
      | .command command => (a.executeControl x control command).logged log

/-! ## One step -/

/-- The next command of the mailbox. -/
def receive (x : Ctx) (a : Actor) (c : Copies) (batch : Option (List TurnInbound)) : Outcome :=
  match a.mailbox with
  | [] => a.stay x
  | .inbound item :: mailbox => { a with mailbox := mailbox }.prepareInbound x c batch item
  | .control control :: mailbox =>
    match batch with
    | none => { a with mailbox := mailbox }.goto x (.controlPolicy control)
    | some batch => { a with mailbox := mailbox, deferred := some (.control control) }.startBatch x c batch

/-- Work that waits from the round before. -/
def dispatch (x : Ctx) (a : Actor) (c : Copies) : Outcome :=
  match a.deferred with
  | none => a.goto x (.waiting c)
  | some (.prepared item) => { a with deferred := none }.openBatch x c item
  | some (.control control) => { a with deferred := none }.goto x (.controlPolicy control)

/-- `settle_preclaim_epoch_loss`, one turn of its loop. -/
def settle (x : Ctx) (a : Actor) (batch : List TurnInbound) (epoch : ℕ) : Outcome :=
  if x.supervisor.terminal then a.rejectAll x .internal batch
  else if x.supervisor.client ∧ x.supervisor.epoch ≠ epoch then a.failBatch x .client batch
  else
    match x.env.answer with
    | .shutdown | .closed => a.failBatch x .supervisor batch
    | _ => a.stay x

/-- `wait_for_client`, one turn of its loop. -/
def awaitClient (x : Ctx) (a : Actor) (c : Copies) (batch : List TurnInbound) : Outcome :=
  match x.env.answer with
  | .shutdown | .closed =>
    if x.supervisor.terminal then a.rejectAll x .internal batch else a.failBatch x .supervisor batch
  | _ =>
    if x.supervisor.client then a.goto x (.ensureThread c batch x.supervisor.epoch)
    else if x.supervisor.terminal then a.rejectAll x .internal batch
    else a.stay x

def claimed (x : Ctx) (a : Actor) (c : Copies) (batch : List TurnInbound) (adopted : Bool) (epoch : ℕ) :
    Except StoreError OpReply → Outcome
  | .ok (.begun (.started turnRowId claimed _)) =>
    a.goto x (.assembling ⟨c, batch, claimedSources batch claimed, turnRowId, adopted, epoch⟩)
  | .ok _ => a.finishBatch x batch
  | .error _ => a.failBatch x .store batch

/-- `complete_control_reply`: a full queue is tried again. -/
def replied (x : Ctx) (a : Actor) (control : ActorControl) (row : NewOutboxRow) : Except StoreError OpReply → Outcome
  | .ok _ => a.again x .idle
  | .error .queueFull => a.goto x (.replyPause control row)
  | .error _ => a.again x (.failed .store) [] [control.inbound]

/-- The store answered the request of the task. -/
def answered (x : Ctx) (a : Actor) (r : Except StoreError OpReply) : Outcome :=
  match a.pc with
  | .preparing c batch item op => if r.isOk then a.finishPreparing x c batch item op else a.prepareFailed x c batch item .store
  | .controlRejecting control _ _ => if r.isOk then a.again x .idle else a.again x (.failed .store) [] [control.inbound]
  | .replying control row => a.replied x control row r
  | .screening c adopted item _ _ rest kept =>
    if r.isOk then
      { a with pendingMedia := restoreAll x.env.instant a.pendingMedia [item] }.screen x c adopted rest kept
    else a.failBatch x .store (item :: rest ++ kept)
  | .rejectingAll reason item _ rest =>
    if r.isOk then { a with pendingMedia := restoreAll x.env.instant a.pendingMedia [item] }.rejectAll x reason rest
    else a.failBatch x .store (item :: rest)
  | .claiming c batch adopted _ epoch => a.claimed x c batch adopted epoch r
  | .markRunning t _ =>
    if r.isOk then { a with state := .running t.turnRowId }.goto x (.running t)
    else a.goto x (.finalizing t .uncertain true)
  | .resolving t resolution waits =>
    if r.isOk then a.resolved x t resolution waits else a.leaveBatch x (.failed .store) t.batch []
  | _ => a.stay x

/-! ## Other awaits -/

def onWaiting (x : Ctx) (a : Actor) (c : Copies) : Outcome :=
  match x.env.answer with
  | .shutdown => a.stop x []
  | .timer => { a with pendingMedia := a.pendingMedia.expire x.env.instant }.again x a.state
  | .message => a.receive x c none
  | _ => a.stay x

def onDebouncing (x : Ctx) (a : Actor) (c : Copies) (batch : List TurnInbound) : Outcome :=
  match x.env.answer with
  | .shutdown => a.stop x (batch.map (·.inbound))
  | .timer => a.startBatch x c batch
  | .message => a.receive x c (some batch)
  | _ => a.stay x

def onExecuting (x : Ctx) (a : Actor) (control : ActorControl) : Outcome :=
  match x.env.answer with
  | .executed cleared =>
    { a with pendingMedia := if cleared then a.pendingMedia.clear else a.pendingMedia }.reply x control
  | _ => a.stay x

def onReplyPause (x : Ctx) (a : Actor) (control : ActorControl) (row : NewOutboxRow) : Outcome :=
  match x.env.answer with
  | .shutdown => a.again x (.failed .supervisor) [] [control.inbound]
  | .timer => a.goto x (.replying control row)
  | _ => a.stay x

def onReadAdoption (x : Ctx) (a : Actor) (c : Copies) (batch : List TurnInbound) : Outcome :=
  match x.env.answer with
  | .adoption (some saga) => a.goto x (.readMapping c batch saga)
  | .adoption none => a.failBatch x .store batch
  | _ => a.stay x

def onReadMapping (x : Ctx) (a : Actor) (c : Copies) (batch : List TurnInbound) (saga : Option ThreadAdoption) : Outcome :=
  match x.env.answer with
  | .mapping (some mapping) =>
    match externallyAdopted mapping saga with
    | some adopted => a.goto x (.permitCheck c batch adopted)
    | none => a.rejectAll x .internal batch
  | .mapping none => a.failBatch x .store batch
  | _ => a.stay x

def onPermitCheck (x : Ctx) (a : Actor) (c : Copies) (batch : List TurnInbound) (adopted : Bool) : Outcome :=
  if adopted = false ∧ x.supervisor.terminal then a.rejectAll x .internal batch else a.goto x (.permitWait c batch adopted)

def onPermitWait (x : Ctx) (a : Actor) (c : Copies) (batch : List TurnInbound) (adopted : Bool) : Outcome :=
  match x.env.answer with
  | .shutdown => a.failBatch x .supervisor batch
  | .permit => a.screen x c adopted batch []
  | .changed => if adopted then a.stay x else a.goto x (.permitCheck c batch adopted)
  | .closed => if adopted then a.stay x else a.failBatch x .supervisor batch
  | _ => a.stay x

def onReadThread (x : Ctx) (a : Actor) (c : Copies) (batch : List TurnInbound) (adopted : Bool) : Outcome :=
  match x.env.answer with
  | .mapping _ => a.goto x (.workspace c batch adopted)
  | _ => a.stay x

def onWorkspace (x : Ctx) (a : Actor) (c : Copies) (batch : List TurnInbound) (adopted : Bool) : Outcome :=
  match x.env.answer with
  | .workspace (.ok policyChanged) => a.enterTurn x c batch adopted policyChanged
  | .workspace .policy => a.rejectAll x .policy batch
  | .workspace .store => a.failBatch x .store batch
  | _ => a.stay x

def onRoute (x : Ctx) (a : Actor) (c : Copies) (batch : List TurnInbound) : Outcome :=
  match x.env.answer with
  | .route (some (thread, epoch)) => a.goto x (.subscribing c batch true thread epoch)
  | .route none => a.rejectAll x .internal batch
  | _ => a.stay x

def onEnsureThread (x : Ctx) (a : Actor) (c : Copies) (batch : List TurnInbound) (epoch : ℕ) : Outcome :=
  match x.env.answer with
  | .shutdown => a.failBatch x .supervisor batch
  | .thread (.ok thread) => a.goto x (.subscribing c batch false thread epoch)
  | .thread (.client notApplied routerGone) =>
    if notApplied = false ∨ routerGone then a.goto x (.settling batch epoch) else a.rejectAll x .internal batch
  | .thread (.scope kind) => a.failBatch x kind batch
  | _ => a.stay x

def onSubscribing (x : Ctx) (a : Actor) (c : Copies) (batch : List TurnInbound) (adopted : Bool) (thread : String)
    (epoch : ℕ) : Outcome :=
  match x.env.answer with
  | .shutdown => a.failBatch x .supervisor batch
  | .subscribed (.ok clientMessageId) =>
    a.goto x (.claiming c batch adopted ⟨a.scope.toString, clientMessageId, some thread, .starting⟩ epoch)
  | .subscribed (.error endsEpoch) =>
    if adopted then a.rejectAll x .internal batch
    else if endsEpoch then a.goto x (.settling batch epoch)
    else a.failBatch x .client batch
  | _ => a.stay x

def onAssembling (x : Ctx) (a : Actor) (t : TurnTask) : Outcome :=
  match x.env.answer with
  | .assembled true => a.goto x (.starting t) [.started t.sources t.copies]
  | .assembled false => a.goto x (.finalizing t .failed false)
  | _ => a.stay x

def onStarting (x : Ctx) (a : Actor) (t : TurnTask) : Outcome :=
  match x.env.answer with
  | .start (.started codexTurnId true) => a.goto x (.markRunning t.commitPendingMedia codexTurnId)
  | .start .rejected => a.goto x (.finalizing t .failed false)
  | .start _ | .shutdown => a.goto x (.finalizing t.commitPendingMedia .uncertain true)
  | _ => a.stay x

def onRunning (x : Ctx) (a : Actor) (t : TurnTask) : Outcome :=
  match x.env.answer with
  | .turnEnded resolution =>
    { a with state := .finalizing t.turnRowId }.goto x (.finalizing t (resolution.getD .uncertain) resolution.isNone)
  | .shutdown => { a with state := .finalizing t.turnRowId }.goto x (.finalizing t .uncertain true)
  | _ => a.stay x

def onFinalizing (x : Ctx) (a : Actor) (t : TurnTask) (resolution : TurnResolution) (waits : Bool) : Outcome :=
  match x.env.answer with
  | .finalized none => a.goto x (.resolving t resolution waits)
  | .finalized (some kind) => a.leaveBatch x (.failed kind) t.batch []
  | _ => a.stay x

/-- `wait_for_epoch_end`, one turn of its loop. -/
def onEpochEnd (x : Ctx) (a : Actor) (t : TurnTask) : Outcome :=
  if x.supervisor.epoch ≠ t.epoch ∨ x.supervisor.client = false then a.goto x (.releasing t)
  else
    match x.env.answer with
    | .shutdown => a.finishBatch x t.batch
    | .closed => a.leaveBatch x (.failed .supervisor) t.batch []
    | _ => a.stay x

def onReleasing (x : Ctx) (a : Actor) (t : TurnTask) : Outcome :=
  match x.env.answer with
  | .released true => a.finishBatch x t.batch
  | .released false => a.leaveBatch x (.failed .attachment) t.batch []
  | _ => a.stay x

/-- Something other than a store request was awaited. -/
def awaited (x : Ctx) (a : Actor) : Outcome :=
  match a.pc with
  | .loopTop => a.goto x (.readSettings x.live.readPolicy)
  | .readSettings policy => a.dispatch x (x.live.readSettings policy)
  | .waiting c => a.onWaiting x c
  | .debouncing c batch => a.onDebouncing x c batch
  | .controlPolicy control => a.goto x (.controlSettings control x.live.readPolicy)
  | .controlSettings control policy => a.processControl x control (x.live.readSettings policy)
  | .executing control => a.onExecuting x control
  | .replyPause control row => a.onReplyPause x control row
  | .readAdoption c batch => a.onReadAdoption x c batch
  | .readMapping c batch saga => a.onReadMapping x c batch saga
  | .permitCheck c batch adopted => a.onPermitCheck x c batch adopted
  | .permitWait c batch adopted => a.onPermitWait x c batch adopted
  | .readThread c batch adopted => a.onReadThread x c batch adopted
  | .workspace c batch adopted => a.onWorkspace x c batch adopted
  | .route c batch => a.onRoute x c batch
  | .waitClient c batch => a.awaitClient x c batch
  | .ensureThread c batch epoch => a.onEnsureThread x c batch epoch
  | .settling batch epoch => a.settle x batch epoch
  | .subscribing c batch adopted thread epoch => a.onSubscribing x c batch adopted thread epoch
  | .assembling t => a.onAssembling x t
  | .starting t => a.onStarting x t
  | .running t => a.onRunning x t
  | .finalizing t resolution waits => a.onFinalizing x t resolution waits
  | .epochEnd t => a.onEpochEnd x t
  | .releasing t => a.onReleasing x t
  | _ => a.stay x

/-- The shutdown token is seen exactly when it is set, and before anything else. -/
def blocked (a : Actor) (answer : Answer) : Bool :=
  if answer = .shutdown then !a.cancelled else a.cancelled && a.pc.looksAtShutdown

/-- Continues the task: with the answer of the store if it waits for one, else with that of the environment. -/
def run (tenant : TenantNamespace) (x : Ctx) (a : Actor) : Outcome :=
  match a.pc.op tenant, a.answer with
  | some _, some r => a.answered x r
  | some _, none => a.stay x
  | none, _ => if a.blocked x.env.answer then a.stay x else a.awaited x

end Actor

end LarkCodexBridge.Runtime

import LarkCodexBridge.Lib.Proc
import LarkCodexBridge.External.Snapshots
import LarkCodexBridge.External.WriteActor

/-!
# Reconciliation of external threads

`reconcile_epoch` of the recovery actor and its live loop over one connection. What the actor takes from the connection, the
caller's cancellation and its commands comes as a list of inputs in the order in which it takes them; what each call to
the store does is the job of that call with a fate.

* `ReconcileMailboxes`, `TerminalProjection`: what is kept of a thread until its terminals are applied;
* `reconcileThread`, `reconcileEpoch`, `liveLoop`: the procedures, under their names in the source;
* `World.history`: what was received and what was written, which no procedure reads.

Of an event or a response there is what the actor reads, with the bytes of its JSON.
-/

namespace LarkCodexBridge.External.Recovery

open Limits SqlTable Store

/-! ## Failures -/

inductive EpochFailure where
  | connectionLost | requestTimeout | protocolViolation | store

def EpochFailure.reason : EpochFailure → ExternalUncertaintyReason
  | .connectionLost => .socketDisconnect
  | .requestTimeout => .requestTimeout
  | .protocolViolation | .store => .protocolViolation

/-- Why a reconciliation does not go on: it failed, or it waits for the next input. -/
inductive EpochStop where
  | failed (failure : EpochFailure)
  | waiting

inductive ThreadFailure where
  | uncertain (reason : ExternalUncertaintyReason)
  | epoch (stop : EpochStop)

inductive TransportExit where
  | cancelled | stdoutEof | protocolViolation | readError | writeError | webSocketClosed | connectionFailed | aborted
  | taskFailed

def closedFailure : TransportExit → EpochFailure
  | .protocolViolation | .taskFailed => .protocolViolation
  | _ => .connectionLost

def mapTransportFailure : ExternalTransportError → EpochFailure
  | .requestTimeout => .requestTimeout
  | .connectionLost => .connectionLost
  | _ => .protocolViolation

def terminalStatus : TurnStatus → Except EpochFailure ExternalTerminalStatus
  | .completed => .ok .completed
  | .failed => .ok .failed
  | .interrupted => .ok .interrupted
  | .inProgress | .unknown => .error .protocolViolation

/-! ## Responses and events -/

/-- A turn, with the ids of its items. -/
structure Turn where
  id : String
  status : TurnStatus
  items : List (Option String)

structure Thread where
  id : String
  turns : List Turn

/-- A request of the reconciliation. -/
inductive Request where
  | resumeThread (threadId : String)
  | readThread (threadId : String)
  | listThreadTurns (threadId : String) (cursor : Option String)
  | listThreadItems (threadId turnId : String) (cursor : Option String)

def Request.threadId : Request → String
  | .resumeThread t | .readThread t | .listThreadTurns t _ | .listThreadItems t _ _ => t

inductive ResponseBody where
  | thread (thread : Thread)
  | turns (data : List Turn) (nextCursor : Option String)
  | items (data : List (String × Option String)) (nextCursor : Option String)

structure Response where
  body : ResponseBody
  bytes : ℕ

def Response.reported (r : Response) : List Turn :=
  match r.body with
  | .thread thread => thread.turns
  | .turns data _ => data
  | .items _ _ => []

/-- The events of a thread that carry no terminal, and those that a resumed connection must not send. -/
inductive SilentKind where
  | threadGoalCleared | threadSettingsUpdated | threadStatusChanged | turnStarted | itemStarted | agentMessageDelta
  | commandOutputDelta | tokenUsageUpdated | error
  deriving DecidableEq

inductive RefusedKind where
  | threadQueueChanged | serverRequestResolved | approval
  deriving DecidableEq

inductive EventBody where
  | silent (kind : SilentKind)
  | refused (kind : RefusedKind)
  | itemCompleted (turnId : String) (itemId : Option String)
  | turnCompleted (turnId : String) (status : TurnStatus)
  deriving DecidableEq

/-- An event with a thread id. -/
structure ThreadEvent where
  threadId : String
  body : EventBody
  bytes : ℕ
  deriving DecidableEq

inductive ExternalReadEvent where
  | accountRateLimitsUpdated
  | remoteControlStatusChanged
  | thread (event : ThreadEvent)
  | closed (exit : TransportExit)

/-- `terminal_from_event`, of an event of a thread. -/
def terminalFromEvent : EventBody → Except EpochFailure (Option ExternalTurnTerminal × Option ExternalItemTerminal)
  | .silent _ => .ok (none, none)
  | .refused _ => .error .protocolViolation
  | .itemCompleted turnId itemId =>
    match itemId with
    | some itemId => .ok (none, some ⟨turnId, itemId⟩)
    | none => .error .protocolViolation
  | .turnCompleted turnId status =>
    match terminalStatus status with
    | .ok status => .ok (some ⟨turnId, status⟩, none)
    | .error e => .error e

/-! ## Mailboxes -/

structure ReconcileMailboxes where
  events : String → List ThreadEvent := fun _ => []
  threadBytes : String → ℕ := fun _ => 0
  endpointBytes : ℕ := 0
  overflow : String → Option ExternalUncertaintyReason := fun _ => none

namespace ReconcileMailboxes

variable (m : ReconcileMailboxes)

def push (e : ThreadEvent) : ReconcileMailboxes :=
  if (m.overflow e.threadId).isSome then m
  else if externalReconcileEventCapacity ≤ (m.events e.threadId).length ∨
      externalReconcileMailboxBytes < m.threadBytes e.threadId + e.bytes ∨
      externalReconcileEndpointBytes < m.endpointBytes + e.bytes then
    { m with overflow := Function.update m.overflow e.threadId (some .bufferOverflow) }
  else
    { m with
      events := Function.update m.events e.threadId (m.events e.threadId ++ [e])
      threadBytes := Function.update m.threadBytes e.threadId (m.threadBytes e.threadId + e.bytes)
      endpointBytes := m.endpointBytes + e.bytes }

/-- `take`, without the events. -/
def taken (threadId : String) : ReconcileMailboxes :=
  { m with
    events := Function.update m.events threadId []
    threadBytes := Function.update m.threadBytes threadId 0
    endpointBytes := m.endpointBytes - m.threadBytes threadId }

end ReconcileMailboxes

/-! ## Projections -/

/-- The maps and sets in order of insertion; they are read in order of their keys. -/
structure TerminalProjection where
  turns : List ExternalTurnTerminal := []
  allTurns : List String := []
  items : List ExternalItemTerminal := []
  listedItems : List ExternalItemTerminal := []
  bytes : ℕ := 0

namespace TerminalProjection

variable (p : TerminalProjection)

def ensureEntryBounds : Except ThreadFailure TerminalProjection :=
  if externalReconcileEntryCapacity < p.turns.length ∨ externalReconcileEntryCapacity < p.allTurns.length ∨
      externalReconcileEntryCapacity < p.items.length ∨ externalReconcileEntryCapacity < p.listedItems.length then
    .error (.uncertain .pageLimit)
  else .ok p

/-- `turns.insert`, which must not change a status. -/
def insertTurn (turn : ExternalTurnTerminal) : Except ThreadFailure TerminalProjection :=
  match p.turns.find? (·.turnId = turn.turnId) with
  | some prior =>
    if prior.status ≠ turn.status then .error (.uncertain .conflictingTerminal) else p.ensureEntryBounds
  | none => { p with turns := p.turns ++ [turn] }.ensureEntryBounds

def addItem (turnId : String) (itemId : Option String) : Except ThreadFailure TerminalProjection :=
  match itemId with
  | none => .error (.uncertain .protocolViolation)
  | some itemId => { p with items := p.items.insert ⟨turnId, itemId⟩ }.ensureEntryBounds

def addListedItem (turnId : String) (itemId : Option String) : Except ThreadFailure TerminalProjection :=
  match itemId with
  | none => .error (.uncertain .protocolViolation)
  | some itemId => { p with listedItems := p.listedItems.insert ⟨turnId, itemId⟩ }.ensureEntryBounds

def addTurn (turn : Turn) : Except ThreadFailure TerminalProjection :=
  let p := { p with allTurns := p.allTurns.insert turn.id }
  match terminalStatus turn.status with
  | .error _ => if turn.status = .inProgress then p.ensureEntryBounds else .error (.uncertain .protocolViolation)
  | .ok status => do
    let p ← turn.items.foldlM (·.addItem turn.id) p
    p.insertTurn ⟨turn.id, status⟩

def addThread (thread : Thread) : Except ThreadFailure TerminalProjection := thread.turns.foldlM addTurn p

/-- `add_event`; the bounds of a terminal turn are checked with the insertion. -/
def addEvent (event : ThreadEvent) : Except ThreadFailure TerminalProjection :=
  match terminalFromEvent event.body with
  | .error e => .error (.epoch (.failed e))
  | .ok (turn, item) => do
    let p ← turn.elim (.ok p) p.insertTurn
    match item with
    | some item => TerminalProjection.ensureEntryBounds { p with items := p.items.insert item }
    | none => p.ensureEntryBounds

def foldListedItems : Except ThreadFailure TerminalProjection :=
  let folded := p.listedItems.filter fun item => p.turns.any (·.turnId = item.turnId)
  { p with items := folded.foldl (fun items item => items.insert item) p.items, listedItems := [] }.ensureEntryBounds

/-- The turns and items to apply. -/
def sortedTurns : List ExternalTurnTerminal := p.turns.insertionSort fun a b => a.turnId ≤ b.turnId

def sortedItems : List ExternalItemTerminal :=
  p.items.insertionSort fun a b => a.turnId < b.turnId ∨ a.turnId = b.turnId ∧ a.itemId ≤ b.itemId

end TerminalProjection

/-! ## The world of the actor -/

inductive RecoveryCommand where
  | wake
  | reconnect (reason : ExternalUncertaintyReason)
  | shutdown

/-- What the actor takes next: from the connection, of its own request, of the cancellation or of its commands. -/
inductive Input where
  | event (event : ExternalReadEvent)
  /-- `recv_event` fails, and `recv_event` has no more events. -/
  | badEvent
  | noEvent
  | response (result : Except ExternalTransportError Response)
  | cancelled
  | command (command : Option RecoveryCommand)

/-- What was received and what was written: `live` tells a record of the live terminal from an applied reconciliation. -/
inductive Observation where
  | received (event : ThreadEvent)
  | answered (request : Request) (response : Response)
  | applied (threadId : String) (turns : List ExternalTurnTerminal) (items : List ExternalItemTerminal) (live : Bool)

/-- The store with the fates of its calls, the inputs to come and the mailboxes. -/
structure World where
  writer : Writer ProjectionDb
  asks : ℕ → Ask
  asked : ℕ
  inputs : List Input
  mailboxes : ReconcileMailboxes
  history : List Observation

abbrev World.db (w : World) : ExternalDb := w.writer.db.db

def World.observe (w : World) (o : Observation) : World := { w with history := w.history ++ [o] }

def observe {ε : Type} (o : Observation) : Proc World ε Unit := .modify fun w => w.observe o

/-- A job on the tables without the items. -/
def onDb {α : Type} (job : ℤ → Job ExternalDb α) (now : ℤ) : Job ProjectionDb α := fun s =>
  match job now s.db with
  | .ok (a, db) => .ok (a, { s with db := db })
  | .error e => .error e

def reading {α : Type} (read : ProjectionDb → Except StoreError α) (_ : ℤ) : Job ProjectionDb α := fun s =>
  match read s with
  | .ok a => .ok (a, s)
  | .error e => .error e

/-- A call to the store, whose failure is the class `Store`. -/
def store {α : Type} (check : Except StoreError Unit) (job : ℤ → Job ProjectionDb α) : Proc World EpochStop α := fun w =>
  let ask := w.asks w.asked
  let (answer, writer) := w.writer.call check ask.fate (job ask.now)
  (answer.mapError fun _ => .failed .store, { w with writer := writer, asked := w.asked + 1 })

/-- A call whose outcome nobody reads. -/
def storeIgnored {α : Type} (check : Except StoreError Unit) (job : ℤ → Job ProjectionDb α) (w : World) : World :=
  (store check job w).2

/-! ## Events -/

section

variable (endpointLabel : String) (epoch : ℕ)

def applyLiveEvent : ExternalReadEvent → Proc World EpochStop Unit
  | .remoteControlStatusChanged => pure ()
  | .accountRateLimitsUpdated | .closed _ => .fail (.failed .connectionLost)
  | .thread e => do
    let (turn, item) ← .lift ((terminalFromEvent e.body).mapError .failed)
    if turn.isNone && item.isNone then pure ()
    else
      match ← store (validateTerminalItems endpointLabel e.threadId turn.toList item.toList)
          (applyTerminalItems · endpointLabel e.threadId epoch turn.toList item.toList false) with
      | .applied _ _ => observe (.applied e.threadId turn.toList item.toList true)
      | .conflictingTerminal => pure ()
      | .stale => .fail (.failed .connectionLost)

/-- The threads as reconciliation sees them. -/
structure Threads where
  managed : List String
  uncertain : List String
  ready : List String

variable (threads : Threads)

def routeReconcileEvent : ExternalReadEvent → Proc World EpochStop Unit
  | .accountRateLimitsUpdated | .remoteControlStatusChanged => pure ()
  | .closed _ => .fail (.failed .protocolViolation)
  | .thread e =>
    if e.threadId ∉ threads.managed then .fail (.failed .protocolViolation)
    else if e.threadId ∈ threads.uncertain then pure ()
    else if e.threadId ∈ threads.ready then applyLiveEvent endpointLabel epoch (.thread e)
    else .modify fun w => { w with mailboxes := w.mailboxes.push e }

/-- An event is taken from the connection. -/
def received {ε : Type} (event : ExternalReadEvent) : Proc World ε Unit :=
  match event with
  | .thread e => observe (.received e)
  | _ => pure ()

/-- The loop of `await_request`: events are routed until the response is there. -/
def awaitLoop : List Input → Proc World EpochStop Response
  | [] => .fail .waiting
  | input :: inputs => do
    .modify fun w => { w with inputs := inputs }
    match input with
    | .cancelled => .fail (.failed .connectionLost)
    | .badEvent => .fail (.failed .protocolViolation)
    | .noEvent => .fail (.failed .connectionLost)
    | .event (.closed exit) => .fail (.failed (closedFailure exit))
    | .event event =>
      received event
      routeReconcileEvent endpointLabel epoch threads event
      awaitLoop inputs
    | .response (.ok response) => pure response
    | .response (.error e) => .fail (.failed (mapTransportFailure e))
    | .command _ => awaitLoop inputs

def awaitRequest (request : Request) : Proc World EpochStop Response := do
  let w ← .get
  let response ← awaitLoop endpointLabel epoch threads w.inputs
  observe (.answered request response)
  pure response

/-! ## One thread -/

def addResponseBytes (response : Response) (p : TerminalProjection) : Proc World ThreadFailure TerminalProjection := do
  .modify fun w => { w with mailboxes := { w.mailboxes with endpointBytes := w.mailboxes.endpointBytes + response.bytes } }
  let w ← .get
  let p := { p with bytes := p.bytes + response.bytes }
  if externalReconcileThreadBytes < p.bytes ∨ externalReconcileEndpointBytes < w.mailboxes.endpointBytes then
    .fail (.uncertain .bufferOverflow)
  else pure p

/-- A response of the wrong shape does not decode. -/
def undecodable {α : Type} : Proc World ThreadFailure α := .fail (.epoch (.failed .protocolViolation))

/-- A `thread/resume` or `thread/read`, and what it adds. -/
def threadRequest (request : Request) (p : TerminalProjection) : Proc World ThreadFailure TerminalProjection := do
  let response ← (awaitRequest endpointLabel epoch threads request).mapError .epoch
  match response.body with
  | .thread thread =>
    let p ← addResponseBytes response p
    if thread.id ≠ request.threadId then .fail (.uncertain .protocolViolation) else .lift (p.addThread thread)
  | _ => undecodable

def turnPages (threadId : String) : ℕ → Option String → List String → TerminalProjection →
    Proc World ThreadFailure TerminalProjection
  | 0, _, _, p => pure p
  | pages + 1, cursor, seen, p => do
    let response ← (awaitRequest endpointLabel epoch threads (.listThreadTurns threadId cursor)).mapError .epoch
    match response.body with
    | .turns data nextCursor =>
      let p ← addResponseBytes response p
      let p ← .lift (data.foldlM TerminalProjection.addTurn p)
      match nextCursor with
      | none => pure p
      | some next =>
        if pages = 0 ∨ next ∈ seen then .fail (.uncertain .pageLimit)
        else turnPages threadId pages (some next) (next :: seen) p
    | _ => undecodable

/-- The entries of one page of items, which are all of the turn that was asked for. -/
def addEntries (turnId : String) (data : List (String × Option String)) (p : TerminalProjection) :
    Except ThreadFailure TerminalProjection :=
  data.foldlM (fun p entry => if entry.1 ≠ turnId then .error (.uncertain .protocolViolation)
    else p.addListedItem entry.1 entry.2) p

/-- The pages of items of one turn; the number of pages left is for all turns of the thread. -/
def itemPages (threadId turnId : String) : ℕ → Option String → List String → TerminalProjection →
    Proc World ThreadFailure (ℕ × TerminalProjection)
  | 0, _, _, _ => .fail (.uncertain .pageLimit)
  | pages + 1, cursor, seen, p => do
    let response ← (awaitRequest endpointLabel epoch threads (.listThreadItems threadId turnId cursor)).mapError .epoch
    match response.body with
    | .items data nextCursor =>
      let p ← addResponseBytes response p
      let p ← .lift (addEntries turnId data p)
      match nextCursor with
      | none => pure (pages, p)
      | some next =>
        if next ∈ seen then .fail (.uncertain .pageLimit)
        else itemPages threadId turnId pages (some next) (next :: seen) p
    | _ => undecodable

def allItemPages (threadId : String) : List String → ℕ → TerminalProjection → Proc World ThreadFailure TerminalProjection
  | [], _, p => pure p
  | turnId :: turnIds, pages, p => do
    let (pages, p) ← itemPages endpointLabel epoch threads threadId turnId pages none [] p
    allItemPages threadId turnIds pages p

/-- The mailbox of the thread, unless it overflowed. -/
def takeEvents (threadId : String) : Proc World ThreadFailure (List ThreadEvent) := do
  let w ← .get
  match w.mailboxes.overflow threadId with
  | some reason =>
    .modify fun w =>
      { w with mailboxes := { w.mailboxes with overflow := Function.update w.mailboxes.overflow threadId none } }
    .fail (.uncertain reason)
  | none =>
    .modify fun w => { w with mailboxes := w.mailboxes.taken threadId }
    pure (w.mailboxes.events threadId)

/-- The end of `reconcile_thread`: the projection is applied. -/
def applyProjection (threadId : String) (p : TerminalProjection) : Proc World ThreadFailure Unit := do
  let outcome ← (store (validateTerminalItems endpointLabel threadId p.sortedTurns p.sortedItems)
    (applyTerminalItems · endpointLabel threadId epoch p.sortedTurns p.sortedItems true)).mapError .epoch
  match outcome with
  | .applied _ _ => observe (.applied threadId p.sortedTurns p.sortedItems false)
  | .conflictingTerminal => .fail (.uncertain .conflictingTerminal)
  | .stale => .fail (.epoch (.failed .connectionLost))

def reconcileThread (threadId : String) : Proc World ThreadFailure Unit := do
  let p ← threadRequest endpointLabel epoch threads (.resumeThread threadId) {}
  let p ← threadRequest endpointLabel epoch threads (.readThread threadId) p
  let p ← turnPages endpointLabel epoch threads threadId externalReconcilePageCapacity none [] p
  let p ← allItemPages endpointLabel epoch threads threadId (p.allTurns.insertionSort (· ≤ ·))
    externalReconcilePageCapacity p
  let events ← takeEvents threadId
  let p ← .lift (events.foldlM TerminalProjection.addEvent p)
  let p ← .lift p.foldListedItems
  applyProjection endpointLabel epoch threadId p

end

/-! ## One epoch -/

section

variable (endpointLabel : String) (epoch : ℕ)

/-- One thread is fenced, reconciled and, where that fails for the thread alone, marked uncertain. -/
def reconcileOne (threads : Threads) (threadId : String) : Proc World EpochStop Unit := do
  match ← store (validatePair endpointLabel threadId "beginning external reconciliation")
      (onDb (beginExternalReconciliation · endpointLabel threadId epoch)) with
  | .current => pure ()
  | .stale => .fail (.failed .connectionLost)
  match ← (reconcileThread endpointLabel epoch threads threadId).attempt with
  | .ok () => pure ()
  | .error (.uncertain reason) =>
    let _ ← store (validatePair endpointLabel threadId "marking an external thread uncertain")
      (onDb (markExternalThreadUncertain · endpointLabel threadId epoch reason))
    pure ()
  | .error (.epoch stop) => .fail stop

/-- The loop of `reconcile_epoch`. -/
def reconcileThreads (threads : Threads) : List String → Proc World EpochStop Unit
  | [] => pure ()
  | threadId :: rest => do
    reconcileOne endpointLabel epoch threads threadId
    reconcileThreads { threads with ready := threadId :: threads.ready } rest

def reconcileEpoch : Proc World EpochStop Unit := do
  let managed ← store (validateId endpointLabel endpointLabelByteLimit "listing external managed threads")
    (reading (externalManagedThreads · endpointLabel))
  if externalManagedThreadCapacity < managed.length then .fail (.failed .store)
  else
    .modify fun w => { w with mailboxes := {} }
    let uncertain := managed.filter (·.state = .uncertain)
    let active := managed.filter (·.state ≠ .uncertain)
    reconcileThreads endpointLabel epoch ⟨managed.map (·.threadId), uncertain.map (·.threadId), []⟩
      (active.map (·.threadId))

/-! ## The live loop -/

/-- Where the actor is with the connection: it waits for a response, or for an event, or the epoch is over. -/
inductive EpochResult where
  | reconciling
  | live
  | failed (reason : ExternalUncertaintyReason)
  | ended

def markUnavailable (reason : ExternalUncertaintyReason) (w : World) : World :=
  storeIgnored (validateId endpointLabel endpointLabelByteLimit "marking an external endpoint unavailable")
    (onDb (markExternalUnavailable · endpointLabel epoch reason)) w

def setEndpointState (state : ExternalEndpointState) (w : World) : World :=
  storeIgnored (validateId endpointLabel endpointLabelByteLimit "setting external endpoint state")
    (onDb (setExternalEndpointState · endpointLabel epoch state)) w

/-- The inner loop of `run_recovery_actor`, over the events of the connection. -/
def liveLoop : List Input → World → EpochResult × World
  | [], w => (.live, w)
  | input :: inputs, w =>
    let w := { w with inputs := inputs }
    match input with
    | .cancelled | .command none | .command (some .wake) | .command (some .shutdown) => (.ended, w)
    | .command (some (.reconnect reason)) => (.ended, markUnavailable endpointLabel epoch reason w)
    | .badEvent => (.failed .protocolViolation, markUnavailable endpointLabel epoch .protocolViolation w)
    | .noEvent => (.failed .socketDisconnect, markUnavailable endpointLabel epoch .socketDisconnect w)
    | .event (.closed exit) =>
      (.failed (closedFailure exit).reason, markUnavailable endpointLabel epoch (closedFailure exit).reason w)
    | .event event =>
      match (do received event; applyLiveEvent endpointLabel epoch event : Proc World EpochStop Unit) w with
      | (.ok (), w) => liveLoop inputs w
      | (.error _, w) => (.failed .protocolViolation, markUnavailable endpointLabel epoch .protocolViolation w)
    | .response _ => liveLoop inputs w

/-- `run_recovery_actor` from the connection of an epoch to its end. -/
def runEpoch (w : World) : EpochResult × World :=
  match reconcileEpoch endpointLabel epoch (setEndpointState endpointLabel epoch .reconciling w) with
  | (.ok (), w) =>
    let w := setEndpointState endpointLabel epoch .ready w
    liveLoop endpointLabel epoch w.inputs w
  | (.error (.failed failure), w) => (.failed failure.reason, markUnavailable endpointLabel epoch failure.reason w)
  | (.error .waiting, w) => (.reconciling, w)

end

end LarkCodexBridge.External.Recovery

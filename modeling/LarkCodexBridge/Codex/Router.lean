import LarkCodexBridge.Codex.Mailbox
import LarkCodexBridge.Lib.KeyMap
import LarkCodexBridge.Lib.Run

/-!
# The router of a client

`run_router` keeps one route per thread: its subscribers, its projection, and what it defers while a turn starts. A
notification or a command changes the routes and puts events into the mailboxes of subscribers.

* `Router`: the routes and the subscriptions;
* `routeNotification`, `handleRouterCommand`: one notification, one command; the value says whether the connection stays
  open;
* `RouterSystem`, `step`: the loop with the readers of the mailboxes next to it.

The wire adapter, JSON weights and fingerprints are parameters (`Wire`). The map of the routes is iterated in any order:
`order` names the threads that come first. The `log` and the histories of subscriptions are read by no step.
-/

namespace LarkCodexBridge.Codex

open Limits StepSystem

/-! ## Notifications -/

structure Notification where
  method : String
  params : Option Value

/-- What the client takes from the wire adapter, `serde_json` and the hasher; a decoder gets `null` for absent params. -/
structure Wire where
  weights : Weights
  null : Value
  /-- `value_memory_weight`. -/
  valueWeight : Value → ℕ
  /-- `value.get("threadId").and_then(Value::as_str)`. -/
  threadIdOf : Value → Option ThreadId
  threadStarted : Value → Option ThreadId
  turnStarted : Value → Option (ThreadId × Turn)
  itemStarted : Value → Option (ThreadId × TurnId × ThreadItem)
  agentMessageDelta : Value → Option (ThreadId × TurnId × String × String)
  commandOutputDelta : Value → Option (ThreadId × TurnId × String × String)
  itemCompleted : Value → Option (ThreadId × TurnId × ThreadItem)
  tokenUsageUpdated : Value → Option (ThreadId × TurnId × Value)
  error : Value → Option (ThreadId × TurnId × TurnError × Bool)
  turnCompleted : Value → Option (ThreadId × Turn)
  /-- `serialized_fingerprint`. -/
  itemFingerprint : ThreadItem → ℕ
  turnFingerprint : Turn → ℕ

def isClientAuthoritativeNotification (method : String) : Bool :=
  method ∈ ["item/completed", "turn/completed", "error"]

def validRoutingId (value : String) : Bool := value ≠ "" ∧ value.utf8ByteSize ≤ routingIdByteLimit

def boundedMethod (method : String) : String :=
  if method.utf8ByteSize ≤ routingIdByteLimit then method else "oversized-method"

/-- What the router tries to put on the control stream. -/
inductive ControlEvent where
  | unknownNotification (method : String)
  | invalidNotification (method : String) (authoritative : Bool)

/-! ## Routes -/

structure CompletedItems where
  byId : KeyMap String ℕ
  anonymous : List ℕ
  retainedBytes : ℕ

inductive ItemUpsert where
  | new | same | conflict
  deriving DecidableEq

namespace CompletedItems

def empty : CompletedItems := ⟨∅, [], 0⟩

/-- `upsert`, with the fingerprint of the item. -/
def upsert (c : CompletedItems) (item : ThreadItem) (fingerprint : ℕ) : ItemUpsert × CompletedItems :=
  match item.id with
  | some id =>
    match c.byId.lookup id with
    | none => (.new, { c with byId := c.byId.insert id fingerprint, retainedBytes := c.retainedBytes + id.utf8ByteSize })
    | some previous =>
      (if previous = fingerprint then .same else .conflict, { c with byId := c.byId.insert id fingerprint })
  | none =>
    if fingerprint ∈ c.anonymous then (.same, c) else (.new, { c with anonymous := fingerprint :: c.anonymous })

def len (c : CompletedItems) : ℕ := KeyMap.size c.byId + c.anonymous.length

/-- `retained_bytes`. -/
def retained (c : CompletedItems) : ℕ := c.retainedBytes + c.anonymous.length * 8

end CompletedItems

structure ThreadProjection where
  threadStarted : Bool
  invalidated : Option SubscriptionInvalidation
  startedTurns : List TurnId
  activeTurns : List TurnId
  startedItems : List (TurnId × String)
  completedItems : KeyMap TurnId CompletedItems
  completedIdBytes : ℕ
  usage : KeyMap TurnId Value
  outcomes : KeyMap TurnId TurnOutcome
  terminalFingerprints : KeyMap TurnId ℕ
  outcomeOrder : List TurnId
  outcomeWeights : KeyMap TurnId ℕ
  outcomeBytes : ℕ

def ThreadProjection.new : ThreadProjection := ⟨false, none, [], [], [], ∅, 0, ∅, ∅, ∅, [], ∅, 0⟩

abbrev SubscriptionId := ℕ
abbrev TurnStartAttemptId := ℕ

structure ThreadRoute where
  subscribers : List SubscriptionId
  projection : ThreadProjection
  pendingTurnStart : Option TurnStartAttemptId
  deferTurnNotifications : Bool
  deferredNotifications : List Notification
  deferredBytes : ℕ

def ThreadRoute.new : ThreadRoute := ⟨[], .new, none, false, [], 0⟩

/-- The route can be given up for another thread. -/
def ThreadRoute.isIdle (route : ThreadRoute) : Bool :=
  let projection := route.projection
  route.subscribers.isEmpty && route.pendingTurnStart.isNone && !route.deferTurnNotifications &&
    route.deferredNotifications.isEmpty && !projection.threadStarted && projection.startedTurns.isEmpty &&
    projection.activeTurns.isEmpty && projection.startedItems.isEmpty && projection.completedItems.entries.isEmpty &&
    projection.usage.entries.isEmpty && projection.outcomes.entries.isEmpty

/-- A subscription; `held` while its reader has not dropped it. -/
structure Subscription where
  thread : ThreadId
  mailbox : Mailbox
  held : Bool
  /-- The length of the log when it was registered, and what it was told then. -/
  since : ℕ
  primed : List AppServerEvent
  received : List AppServerEvent
  /-- `recv` gave `None`. -/
  ended : Bool

/-- `upgrade` gives a mailbox, and it is not closed. -/
def Subscription.live (sub : Subscription) : Bool := sub.held && !sub.mailbox.closed

structure Router where
  routes : KeyMap ThreadId ThreadRoute
  subscriptions : SubscriptionId → Option Subscription
  order : List ThreadId
  reports : List ControlEvent
  /-- The events dispatched to the routes. -/
  log : List (ThreadId × AppServerEvent)

namespace Router

def empty : Router := ⟨∅, fun _ => none, [], [], []⟩

variable (W : Wire)

def setRoute (s : Router) (threadId : ThreadId) (route : ThreadRoute) : Router :=
  { s with routes := s.routes.insert threadId route }

def report (s : Router) (event : ControlEvent) : Router := { s with reports := s.reports ++ [event] }

/-- The subscriber still reads its mailbox. -/
def live (s : Router) (id : SubscriptionId) : Bool := (s.subscriptions id).any (·.live)

/-- The mailboxes of `ids` change. -/
def onSubscribers (s : Router) (ids : List SubscriptionId) (f : Subscription → Subscription) : Router :=
  { s with subscriptions := fun id => if id ∈ ids then (s.subscriptions id).map f else s.subscriptions id }

def pruneSubscribers (s : Router) : Router :=
  let prune (route : ThreadRoute) : ThreadRoute := { route with subscribers := route.subscribers.filter s.live }
  { s with routes := KeyMap.mapValues prune s.routes }

/-- The threads in the order in which the map is iterated. -/
def iteration (s : Router) : List ThreadId := s.order ++ s.routes.keys

/-- The route that makes room for another one. -/
def evictable (s : Router) : Option ThreadId := s.iteration.find? fun id => (s.routes.lookup id).any (·.isIdle)

def routeForUpdate (s : Router) (threadId : ThreadId) : Router × Option ThreadRoute :=
  if !validRoutingId threadId then (s, none)
  else
    let s := s.pruneSubscribers
    match s.routes.lookup threadId with
    | some route => (s, if route.projection.invalidated.isSome then none else some route)
    | none =>
      if KeyMap.size s.routes ≥ clientProjectionCapacity then
        match s.evictable with
        | none => (s, none)
        | some victim =>
          ({ s with routes := (s.routes.erase victim).insert threadId .new }, some .new)
      else (s.setRoute threadId .new, some .new)

/-! ## Dispatch -/

def dispatchToRoute (s : Router) (threadId : ThreadId) (event : AppServerEvent) : Router :=
  match s.routes.lookup threadId with
  | none => s
  | some route =>
    let alive := route.subscribers.filter s.live
    let s := s.setRoute threadId { route with subscribers := alive }
    let s := s.onSubscribers alive fun sub => { sub with mailbox := sub.mailbox.pushLossy W.weights event }
    { s with log := s.log ++ [(threadId, event)] }

/-- A mailbox takes an authoritative event, or is invalidated. -/
def pushOrInvalidate (threadId : ThreadId) (event : AppServerEvent) (sub : Subscription) : Subscription :=
  match sub.mailbox.pushTerminal W.weights event with
  | (mailbox, true) => { sub with mailbox := mailbox }
  | (_, false) => { sub with mailbox := Mailbox.invalidate W.weights threadId .lagged }

/-- The mailbox has room for an authoritative event. -/
def takes (s : Router) (event : AppServerEvent) (id : SubscriptionId) : Bool :=
  (s.subscriptions id).any fun sub => (sub.mailbox.pushTerminal W.weights event).2

def dispatchTerminalToRoute (s : Router) (threadId : ThreadId) (event : AppServerEvent) : Router :=
  match s.routes.lookup threadId with
  | none => s
  | some route =>
    let alive := route.subscribers.filter s.live
    let s' := s.setRoute threadId { route with subscribers := alive.filter (s.takes W event) }
    { s'.onSubscribers alive (pushOrInvalidate W threadId event) with log := s.log ++ [(threadId, event)] }

def invalidateRoute (s : Router) (threadId : ThreadId) (reason : SubscriptionInvalidation) : Router :=
  match s.routes.lookup threadId with
  | none => s
  | some route =>
    let projection := { route.projection with
      invalidated := some reason
      startedTurns := []
      activeTurns := []
      startedItems := []
      completedItems := ∅
      completedIdBytes := 0
      usage := ∅ }
    let held := route.subscribers.filter fun id => (s.subscriptions id).any (·.held)
    (s.setRoute threadId { route with projection := projection, subscribers := [] }).onSubscribers held
      fun sub => { sub with mailbox := Mailbox.invalidate W.weights threadId reason }

/-- What `close_subscribers` does with one mailbox. -/
def closeWith (exit : TransportExit) (sub : Subscription) : Subscription :=
  match sub.mailbox.pushTerminal W.weights (.connectionClosed exit) with
  | (mailbox, true) => { sub with mailbox := mailbox.close }
  | (_, false) => { sub with mailbox := Mailbox.invalidate W.weights sub.thread .lagged }

def closeSubscribers (s : Router) (exit : TransportExit) : Router :=
  let subscribers := s.routes.entries.flatMap fun entry => entry.2.subscribers
  let held := subscribers.filter fun id => (s.subscriptions id).any (·.held)
  { s.onSubscribers held (closeWith W exit) with routes := ∅ }

/-! ## Updates of a route -/

def setProjection (s : Router) (threadId : ThreadId) (route : ThreadRoute) (projection : ThreadProjection) : Router :=
  s.setRoute threadId { route with projection := projection }

def routeThreadStarted (s : Router) (threadId : ThreadId) : Router × Bool :=
  match s.routeForUpdate threadId with
  | (s, none) => (s, false)
  | (s, some route) =>
    if route.projection.invalidated.isSome ∨ route.projection.threadStarted then (s, true)
    else
      ((s.setProjection threadId route { route.projection with threadStarted := true }).dispatchTerminalToRoute W threadId
        (.threadStarted threadId), true)

def routeTurnStarted (s : Router) (threadId : ThreadId) (turn : Turn) : Router × Bool :=
  match s.routeForUpdate threadId with
  | (s, none) => (s, false)
  | (s, some route) =>
    let projection := route.projection
    if turn.id.utf8ByteSize > routingIdByteLimit ∨
        (projection.startedTurns.length ≥ threadTerminalCapacity ∧ turn.id ∉ projection.startedTurns) then
      (s.invalidateRoute W threadId .protocolDrift, false)
    else if projection.invalidated.isSome ∨ (projection.outcomes.lookup turn.id).isSome then (s, true)
    else
      let s := s.setProjection threadId route { projection with
        startedTurns := projection.startedTurns.insert turn.id
        activeTurns := projection.activeTurns.insert turn.id }
      (if turn.id ∈ projection.startedTurns then s else s.dispatchTerminalToRoute W threadId (.turnStarted turn), true)

def routeItemStarted (s : Router) (threadId : ThreadId) (turnId : TurnId) (item : ThreadItem) : Router :=
  match s.routeForUpdate threadId with
  | (s, none) => s
  | (s, some route) =>
    match item.id with
    | none => s.dispatchToRoute W threadId (.itemStarted turnId item)
    | some itemId =>
      let projection := route.projection
      if itemId.utf8ByteSize > routingIdByteLimit ∨ turnId.utf8ByteSize > routingIdByteLimit ∨
          (projection.startedItems.length ≥ threadEventCapacity ∧ (turnId, itemId) ∉ projection.startedItems) then
        s.invalidateRoute W threadId .protocolDrift
      else
        let s := s.setProjection threadId route { projection with
          startedItems := projection.startedItems.insert (turnId, itemId) }
        if (turnId, itemId) ∈ projection.startedItems then s else s.dispatchToRoute W threadId (.itemStarted turnId item)

def routeItemCompleted (s : Router) (threadId : ThreadId) (turnId : TurnId) (item : ThreadItem) : Router × Bool :=
  match s.routeForUpdate threadId with
  | (s, none) => (s, false)
  | (s, some route) =>
    let projection := route.projection
    if (projection.outcomes.lookup turnId).isSome then (s, true)
    else if (projection.completedItems.lookup turnId).isNone ∧
        KeyMap.size projection.completedItems ≥ threadTerminalCapacity then
      (s.invalidateRoute W threadId .protocolDrift, true)
    else
      let items := (projection.completedItems.lookup turnId).getD .empty
      let (upsert, items') := items.upsert item (W.itemFingerprint item)
      let completedIdBytes := projection.completedIdBytes - items.retained + items'.retained
      let s := s.setProjection threadId route { projection with
        completedItems := projection.completedItems.insert turnId items'
        completedIdBytes := completedIdBytes }
      if upsert = .conflict ∨ turnId.utf8ByteSize > routingIdByteLimit ∨ items'.len > threadEventCapacity ∨
          completedIdBytes > threadProjectionByteBudget then
        (s.invalidateRoute W threadId .protocolDrift, true)
      else if upsert = .new then (s.dispatchTerminalToRoute W threadId (.itemCompleted turnId item), true)
      else (s, true)

def routeUsage (s : Router) (threadId : ThreadId) (turnId : TurnId) (usage : Value) : Router :=
  match s.routeForUpdate threadId with
  | (s, none) => s
  | (s, some route) =>
    let projection := route.projection
    if turnId.utf8ByteSize > routingIdByteLimit then s.invalidateRoute W threadId .protocolDrift
    else if (projection.outcomes.lookup turnId).isSome then
      s.dispatchToRoute W threadId (.tokenUsageUpdated turnId usage)
    else if (projection.usage.lookup turnId).isNone ∧ KeyMap.size projection.usage ≥ threadTerminalCapacity then
      s.invalidateRoute W threadId .protocolDrift
    else
      (s.setProjection threadId route { projection with usage := projection.usage.insert turnId usage }).dispatchToRoute W
        threadId (.tokenUsageUpdated turnId usage)

def routeError (s : Router) (threadId : ThreadId) (turnId : TurnId) (error : TurnError) (willRetry : Bool) :
    Router × Bool :=
  match s.routeForUpdate threadId with
  | (s, none) => (s, false)
  | (s, some _) =>
    if turnId.utf8ByteSize > routingIdByteLimit then (s.invalidateRoute W threadId .protocolDrift, true)
    else (s.dispatchTerminalToRoute W threadId (.error turnId error willRetry), true)

/-- Old outcomes go until one of weight `weight` fits. -/
def evictOutcomes (weight : ℕ) : List TurnId → ThreadProjection → ThreadProjection
  | [], projection => { projection with outcomeOrder := [] }
  | oldest :: rest, projection =>
    if KeyMap.size projection.outcomes ≥ threadOutcomeCapacity ∨
        projection.outcomeBytes + weight > threadProjectionByteBudget then
      evictOutcomes weight rest { projection with
        outcomes := projection.outcomes.erase oldest
        terminalFingerprints := projection.terminalFingerprints.erase oldest
        outcomeWeights := projection.outcomeWeights.erase oldest
        outcomeBytes := projection.outcomeBytes - (projection.outcomeWeights.lookup oldest).getD 0 }
    else { projection with outcomeOrder := oldest :: rest }

/-- The projection after the end of a turn. -/
def settleTurn (projection : ThreadProjection) (turnId : TurnId) (outcome : TurnOutcome) (weight fingerprint : ℕ) :
    ThreadProjection :=
  let projection := { projection with
    usage := projection.usage.erase turnId
    completedIdBytes := match projection.completedItems.lookup turnId with
      | some completed => projection.completedIdBytes - completed.retained
      | none => projection.completedIdBytes
    completedItems := projection.completedItems.erase turnId
    startedTurns := projection.startedTurns.filter (· ≠ turnId)
    activeTurns := projection.activeTurns.filter (· ≠ turnId)
    startedItems := projection.startedItems.filter (·.1 ≠ turnId) }
  let projection := evictOutcomes weight projection.outcomeOrder projection
  { projection with
    outcomeBytes := projection.outcomeBytes + weight
    outcomeOrder := projection.outcomeOrder ++ [turnId]
    outcomeWeights := projection.outcomeWeights.insert turnId weight
    terminalFingerprints := projection.terminalFingerprints.insert turnId fingerprint
    outcomes := projection.outcomes.insert turnId outcome }

def routeTurnCompleted (s : Router) (threadId : ThreadId) (turn : Turn) : Router × Bool :=
  match s.routeForUpdate threadId with
  | (s, none) => (s, false)
  | (s, some route) =>
    let projection := route.projection
    if turn.id.utf8ByteSize > routingIdByteLimit then (s.invalidateRoute W threadId .protocolDrift, true)
    else
      match projection.terminalFingerprints.lookup turn.id with
      | some previous =>
        (if previous = W.turnFingerprint turn then s else s.invalidateRoute W threadId .protocolDrift, true)
      | none =>
        let outcome : TurnOutcome :=
          ⟨threadId, turn.id, turn.status, turn.error, turn.items, projection.usage.lookup turn.id⟩
        let weight := outcomeMemoryWeight W.weights outcome
        if weight > threadProjectionByteBudget then
          -- The usage is already taken out; the invalidation clears it as well.
          (s.invalidateRoute W threadId .protocolDrift, true)
        else
          ((s.setProjection threadId route
            (settleTurn projection turn.id outcome weight (W.turnFingerprint turn))).dispatchTerminalToRoute W threadId
            (.turnCompleted outcome), true)

/-! ## Notifications -/

def reportInvalidNotification (s : Router) (method : String) (authoritative : Bool) (threadId : Option ThreadId) :
    Router :=
  let s := match authoritative, threadId with
    | true, some threadId => s.invalidateRoute W threadId .protocolDrift
    | _, _ => s
  s.report (.invalidNotification (boundedMethod method) authoritative)

def reportRoutingCapacity (s : Router) : Router := s.report (.invalidNotification "routing-capacity" true)

/-- An authoritative update was refused: the router reports it and gives up. -/
def orReport : Router × Bool → Router × Bool
  | (s, true) => (s, true)
  | (s, false) => (s.reportRoutingCapacity, false)

/-- `extract_thread_id`. -/
def rawThreadId (n : Notification) : Option ThreadId := n.params.bind W.threadIdOf

def notificationWeight (n : Notification) : ℕ := n.method.utf8ByteSize + (n.params.elim 0 W.valueWeight) + 128

/-- The head of `route_notification`: a route that defers keeps the notification for later. -/
def deferNotification (s : Router) (n : Notification) : Option (Router × Bool) :=
  if n.method = "turn/started" then none
  else
    match rawThreadId W n with
    | none => none
    | some threadId =>
      match s.routes.lookup threadId with
      | none => none
      | some route =>
        if !route.deferTurnNotifications then none
        else if route.deferredNotifications.length ≥ threadEventCapacity ∨
            route.deferredBytes + notificationWeight W n > threadMailboxByteBudget then
          some ((s.invalidateRoute W threadId .lagged).report
            (.invalidNotification (boundedMethod n.method) (isClientAuthoritativeNotification n.method)),
            !isClientAuthoritativeNotification n.method)
        else
          some (s.setRoute threadId { route with
            deferredBytes := route.deferredBytes + notificationWeight W n
            deferredNotifications := route.deferredNotifications ++ [n] }, true)

/-- Both kinds of deltas. -/
def routeDelta (s : Router) (n : Notification) (event : TurnId → String → String → AppServerEvent)
    (decoded : Option (ThreadId × TurnId × String × String)) : Router × Bool :=
  match decoded with
  | some (threadId, turnId, itemId, delta) =>
    if validRoutingId threadId ∧ validRoutingId turnId ∧ validRoutingId itemId then
      (s.dispatchToRoute W threadId (event turnId itemId delta), true)
    else (s.reportInvalidNotification W n.method false (some threadId), true)
  | none => (s.reportInvalidNotification W n.method false (rawThreadId W n), true)

/-- The methods of `route_notification`; `afterStart` is what happens behind a `turn/started`. -/
def routeMethod (afterStart : Router → ThreadId → Router × Bool) (s : Router) (n : Notification) : Router × Bool :=
  let value := n.params.getD W.null
  match n.method with
  | "thread/started" =>
    match W.threadStarted value with
    | some threadId => ((s.routeThreadStarted W threadId).1, true)
    | none => (s.reportInvalidNotification W n.method false (rawThreadId W n), true)
  | "turn/started" =>
    match W.turnStarted value with
    | some (threadId, turn) => afterStart (s.routeTurnStarted W threadId turn).1 threadId
    | none => (s.reportInvalidNotification W n.method false (rawThreadId W n), true)
  | "item/started" =>
    match W.itemStarted value with
    | some (threadId, turnId, item) => (s.routeItemStarted W threadId turnId item, true)
    | none => (s.reportInvalidNotification W n.method false (rawThreadId W n), true)
  | "item/agentMessage/delta" => s.routeDelta W n .agentMessageDelta (W.agentMessageDelta value)
  | "item/commandExecution/outputDelta" => s.routeDelta W n .commandOutputDelta (W.commandOutputDelta value)
  | "item/completed" =>
    match W.itemCompleted value with
    | some (threadId, turnId, item) => orReport (s.routeItemCompleted W threadId turnId item)
    | none => (s.reportInvalidNotification W n.method true (rawThreadId W n), false)
  | "thread/tokenUsage/updated" =>
    match W.tokenUsageUpdated value with
    | some (threadId, turnId, usage) => (s.routeUsage W threadId turnId usage, true)
    | none => (s.reportInvalidNotification W n.method false (rawThreadId W n), true)
  | "error" =>
    match W.error value with
    | some (threadId, turnId, error, willRetry) => orReport (s.routeError W threadId turnId error willRetry)
    | none => (s.reportInvalidNotification W n.method true (rawThreadId W n), false)
  | "turn/completed" =>
    match W.turnCompleted value with
    | some (threadId, turn) => orReport (s.routeTurnCompleted W threadId turn)
    | none => (s.reportInvalidNotification W n.method true (rawThreadId W n), false)
  | method =>
    match rawThreadId W n with
    | some threadId => (s.dispatchToRoute W threadId (.unknown (boundedMethod method)), true)
    | none => (s.report (.unknownNotification (boundedMethod method)), true)

/-- The deferred notifications are routed in order, until one breaks the connection. -/
def replay (deliver : Router → Notification → Router × Bool) : Router → List Notification → Router × Bool
  | s, [] => (s, true)
  | s, n :: rest =>
    match deliver s n with
    | (s, true) => replay deliver s rest
    | (s, false) => (s, false)

/-- `stop_deferring_notifications`. -/
def stopDeferring (deliver : Router → Notification → Router × Bool) (s : Router) (threadId : ThreadId) : Router × Bool :=
  match s.routes.lookup threadId with
  | none => (s, true)
  | some route =>
    replay deliver (s.setRoute threadId { route with
      deferTurnNotifications := false
      deferredBytes := 0
      deferredNotifications := [] }) route.deferredNotifications

/-- `route_notification` for a notification that was deferred: it is no `turn/started`, so nothing is replayed behind it. -/
def routeDeferred (s : Router) (n : Notification) : Router × Bool :=
  match s.deferNotification W n with
  | some result => result
  | none => s.routeMethod W (fun s _ => (s, true)) n

def routeNotification (s : Router) (n : Notification) : Router × Bool :=
  match s.deferNotification W n with
  | some result => result
  | none => s.routeMethod W (stopDeferring (routeDeferred W)) n

/-! ## Commands -/

def finishTurnStart (s : Router) (threadId : ThreadId) (attempt : TurnStartAttemptId) : Router × Bool :=
  match s.routes.lookup threadId with
  | none => (s, true)
  | some route =>
    if route.pendingTurnStart ≠ some attempt then (s, true)
    else stopDeferring (routeDeferred W) (s.setRoute threadId { route with pendingTurnStart := none }) threadId

inductive RouterCommand where
  | subscribe (id : SubscriptionId) (threadId : ThreadId)
  | unsubscribe (id : SubscriptionId) (threadId : ThreadId)
  | observeTurnStarted (threadId : ThreadId) (attempt : TurnStartAttemptId) (turn : Turn)
  | beginTurnStart (threadId : ThreadId) (attempt : TurnStartAttemptId)
  | abortTurnStart (threadId : ThreadId) (attempt : TurnStartAttemptId)
  | observeThreadStarted (threadId : ThreadId)
  | ensureRoute (threadId : ThreadId)
  | releaseRoute (threadId : ThreadId)

/-- What a command sends back. -/
inductive Ack where
  | nothing
  | flag (accepted : Bool)
  | turn (turn : Option Turn)
  | subscribed (granted : Bool)

/-- A new mailbox; a thread that has started is announced at once. -/
def newSubscription (s : Router) (threadId : ThreadId) (threadStarted : Bool) : Subscription :=
  if threadStarted then
    ⟨threadId, (Mailbox.new.pushTerminal W.weights (.threadStarted threadId)).1, true, s.log.length,
      [.threadStarted threadId], [], false⟩
  else ⟨threadId, .new, true, s.log.length, [], [], false⟩

def subscriberCount (s : Router) : ℕ := (s.routes.entries.map fun entry => entry.2.subscribers.length).sum

/-- `Subscribe`; `listening` says whether the caller still waits. -/
def subscribe (s : Router) (id : SubscriptionId) (threadId : ThreadId) (listening : Bool) : Router × Bool :=
  let s := s.pruneSubscribers
  if s.subscriberCount ≥ clientSubscriberCapacity then (s, false)
  else
    match s.routeForUpdate threadId with
    | (s, none) => (s, false)
    | (s, some route) =>
      if route.subscribers.length ≥ threadSubscriberCapacity then (s, false)
      else if !listening then (s, false)
      else
        let sub := s.newSubscription W threadId route.projection.threadStarted
        let s := s.setRoute threadId { route with subscribers := route.subscribers ++ [id] }
        ({ s with subscriptions := Function.update s.subscriptions id (some sub) }, true)

/-- `handle_router_command`: the routes, whether the connection stays open, and what is sent back. -/
def handleRouterCommand (s : Router) (command : RouterCommand) (listening : Bool) : Router × Bool × Ack :=
  match command with
  | .subscribe id threadId =>
    let (s, granted) := s.subscribe W id threadId listening
    (s, true, .subscribed granted)
  | .unsubscribe id threadId =>
    match s.routes.lookup threadId with
    | none => (s, true, .nothing)
    | some route =>
      (s.setRoute threadId { route with subscribers := route.subscribers.filter (· ≠ id) }, true, .nothing)
  | .observeTurnStarted threadId attempt turn =>
    let (s, accepted) := s.routeTurnStarted W threadId turn
    let (s, keepOpen) := s.finishTurnStart W threadId attempt
    (s, keepOpen, .turn (if accepted then some turn else none))
  | .beginTurnStart threadId attempt =>
    match s.routeForUpdate threadId with
    | (s, none) => (s, true, .flag false)
    | (s, some route) =>
      if route.pendingTurnStart.isSome then (s, true, .flag false)
      else
        let s := s.setRoute threadId { route with pendingTurnStart := some attempt, deferTurnNotifications := true }
        if listening then (s, true, .flag true)
        else
          let (s, keepOpen) := s.finishTurnStart W threadId attempt
          (s, keepOpen, .flag true)
  | .abortTurnStart threadId attempt =>
    let (s, keepOpen) := s.finishTurnStart W threadId attempt
    (s, keepOpen, .nothing)
  | .observeThreadStarted threadId =>
    let (s, accepted) := s.routeThreadStarted W threadId
    (s, true, .flag accepted)
  | .ensureRoute threadId =>
    let (s, route) := s.routeForUpdate threadId
    (s, true, .flag route.isSome)
  | .releaseRoute threadId =>
    let s := s.pruneSubscribers
    let releasable := (s.routes.lookup threadId).any fun route =>
      route.subscribers.isEmpty && route.pendingTurnStart.isNone && !route.deferTurnNotifications &&
        route.deferredNotifications.isEmpty && route.projection.activeTurns.isEmpty
    (if releasable then { s with routes := s.routes.erase threadId } else s, true, .flag releasable)

end Router

/-! ## The loop and the readers -/

inductive RouterPhase where
  | running
  /-- The loop is left; the connection shuts down. -/
  | leaving
  | closed
  deriving DecidableEq

structure RouterSystem where
  router : Router
  phase : RouterPhase

inductive RouterEvent where
  | notification (n : Notification)
  /-- `listening`: the caller still waits for what is sent back. -/
  | command (command : Router.RouterCommand) (listening : Bool)
  /-- The loop ends for a reason of its own: cancelled, the transport is closed, a full control stream. -/
  | leave
  | close (exit : TransportExit)
  | recv (id : SubscriptionId)
  /-- A subscription is dropped. -/
  | drop (id : SubscriptionId)
  /-- A caller of `subscribe` is dropped after the answer, with the mailbox. -/
  | forget (id : SubscriptionId)
  /-- The map of the routes is laid out anew. -/
  | order (ids : List ThreadId)

namespace RouterSystem

variable (W : Wire)

/-- Only a new mailbox is subscribed, and only a dropped one unsubscribed. -/
def sendable (s : Router) : Router.RouterCommand → Bool
  | .subscribe id _ => (s.subscriptions id).isNone
  | .unsubscribe id _ => !(s.subscriptions id).any (·.held)
  | _ => true

/-- The loop goes on, or is left. -/
def continueOrLeave (s : RouterSystem) (router : Router) (keepOpen : Bool) : RouterSystem :=
  ⟨router, if keepOpen then s.phase else .leaving⟩

def setSubscription (s : RouterSystem) (id : SubscriptionId) (sub : Subscription) : RouterSystem :=
  { s with router := { s.router with subscriptions := Function.update s.router.subscriptions id (some sub) } }

/-- A reader polls its mailbox. -/
def recv (s : RouterSystem) (id : SubscriptionId) (sub : Subscription) : RouterSystem :=
  match sub.mailbox.recv with
  | (.event event, mailbox) =>
    s.setSubscription id { sub with mailbox := mailbox, received := sub.received ++ [event] }
  | (.waits, _) => s
  | (.ended, _) => s.setSubscription id { sub with ended := true }

def step (s : RouterSystem) : RouterEvent → RouterSystem
  | .notification n =>
    if s.phase = .running then
      let (router, keepOpen) := s.router.routeNotification W n
      s.continueOrLeave router keepOpen
    else s
  | .command command listening =>
    if s.phase = .running ∧ sendable s.router command then
      let (router, keepOpen, _) := s.router.handleRouterCommand W command listening
      s.continueOrLeave router keepOpen
    else s
  | .leave => if s.phase = .running then { s with phase := .leaving } else s
  | .close exit =>
    if s.phase = .leaving then ⟨s.router.closeSubscribers W exit, .closed⟩ else s
  | .recv id =>
    match s.router.subscriptions id with
    | some sub => if sub.held then s.recv id sub else s
    | none => s
  | .drop id =>
    match s.router.subscriptions id with
    | some sub => s.setSubscription id { sub with mailbox := sub.mailbox.close, held := false }
    | none => s
  | .forget id =>
    match s.router.subscriptions id with
    | some sub => s.setSubscription id { sub with held := false }
    | none => s
  | .order ids => { s with router := { s.router with order := ids } }

/-- The state after a run of a fresh router. -/
def after (events : List RouterEvent) : RouterSystem := exec (step W) ⟨.empty, .running⟩ events

end RouterSystem

end LarkCodexBridge.Codex

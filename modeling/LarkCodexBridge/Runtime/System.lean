import LarkCodexBridge.Runtime.Actor
import LarkCodexBridge.Store.InboundIntegrity

/-!
# The running bridge

From the durable intake to the scope actors: handler calls that register a delivered event and queue it, the driver that
takes events from the inbound channel, the router with its retry lane, and one actor per scope. All tasks interleave
freely; an event of the run (`Event`) is one step of one task, an answer of the store writer to one task, or a change of
the environment. Byte budgets are the environment's (a refusal can come at any time).

A bridge that stopped, because the driver met a fatal routing error or the startup failed, does nothing until it is
started again. A start reads the received rows back and queues them before anything else.
-/

namespace LarkCodexBridge.Runtime

open Limits Lark Store Outbox SqlTable StepSystem

/-! ## State -/

/-- A call of the durable handler whose event is normalized. -/
structure Handler where
  event : InboundEvent
  answer : Option (Except StoreError OpReply)
  /-- The call was dropped while its store request was under way. -/
  abandoned : Bool

/-- `drive_inbound`. -/
inductive DriverPc where
  | idle
  /-- The router had no room; the event is tried again. -/
  | backoff (event : InboundEvent)
  /-- The event is with the router. -/
  | waiting
  deriving DecidableEq

inductive RouteSource where
  | queue | retry
  deriving DecidableEq

inductive RouterPc where
  | loopTop
  | readSettings (policy : PolicyCopy)
  | waiting (c : Copies)
  | completing (src : RouteSource) (item : ActorInbound)
  | rejecting (src : RouteSource) (item : ActorInbound) (reason : InboundRejectionKind) (notice : NewOutboxRow)
  | readThread (c : Copies) (src : RouteSource) (item : ActorInbound)
  | evicting (src : RouteSource) (item : ActorInbound) (victim : String)

/-- The store request the router waits for. -/
def RouterPc.op (tenant : TenantNamespace) : RouterPc → Option InboundOp
  | .completing _ item => some (.completeReceivedWithoutTurn (item.key tenant))
  | .rejecting _ item reason notice => some (item.rejectOp tenant reason notice)
  | _ => none

structure Bridge where
  store : Writer Db
  live : Live
  supervisor : SupervisorAccess
  handlers : List Handler
  channel : List InboundEvent
  driver : DriverPc
  queue : List InboundEvent
  router : RouterPc
  routerAnswer : Option (Except StoreError OpReply)
  retries : List ActorInbound
  actors : List Actor
  running : Bool
  /-- What the tasks did since the start. -/
  log : List LogEntry
  /-- The rows for which a handler call returned `Ok` after it queued the event. -/
  acked : List (String × String)
  /-- The messages let go of at an error exit. -/
  dropped : List ActorInbound

/-- Before the first start. -/
def Bridge.initial (inner : LiveInner) : Bridge :=
  ⟨emptyStore, ⟨[], inner⟩, ⟨0, false, false⟩, [], [], .idle, [], .loopTop, none, [], [], false, [], [], []⟩

/-! ## Events -/

inductive RouterWake where
  | message | retry
  /-- A control request, a supervisor change or a tick that routes nothing. -/
  | other
  deriving DecidableEq

/-- What the router's step meets. -/
structure RouterEnv where
  wake : RouterWake
  notice : Option NewOutboxRow
  mailboxFits : Bool
  retryFits : Bool
  /-- The idle actor that the iteration of the map meets first. -/
  victim : Option String
  /-- Whether the scope's thread is adopted; `none` if the store fails. -/
  adopted : Option Bool

inductive Event where
  /-- A handler call has normalized an event. -/
  | deliver (event : InboundEvent)
  /-- The store runs the request of a handler call. -/
  | register (i : ℕ) (fate : Fate) (now : ℤ)
  /-- A handler call goes on; `accepted` if the channel has a slot and bytes for the event. -/
  | handled (i : ℕ) (accepted : Bool)
  | abandon (i : ℕ)
  | drive (fits : Bool)
  | routerStore (fate : Fate) (now : ℤ)
  | router (env : RouterEnv)
  | actorStore (scope : String) (fate : Fate) (now : ℤ)
  | actor (scope : String) (env : Env)
  | supervise (access : SupervisorAccess)
  | sweep (fate : Fate) (now olderThanMs : ℤ) (maxRows : ℕ)
  /-- The process ends and starts again with a configuration; `accepted` if the recovered rows fit the channel. -/
  | restart (inner : LiveInner) (fate : Fate) (now : ℤ) (accepted : Bool)

namespace Bridge

variable (C : Codec) (I : InboundCodec) (tenant : TenantNamespace) (fromStr : String → Option String) {st : Bridge}
  {scope : String} {a : Actor}

/-! ## Intake -/

/-- The event that an answered registration hands out. -/
def handedOut : Except StoreError OpReply → Option InboundEvent
  | .ok (.registered (.new retained)) | .ok (.registered (.replayReceived retained)) => some retained.event
  | _ => none

/-- A row that is registered anew has not been acknowledged. -/
def ackedBefore (st : Bridge) (k : String × String) : List (String × String) :=
  if st.store.db.inbound.rows.any (·.val.key = k) then st.acked else st.acked.filter (· ≠ k)

/-- The store runs the request of a handler call; a dropped call is over then. -/
def register (st : Bridge) (i : ℕ) (fate : Fate) (now : ℤ) : Bridge :=
  match st.handlers[i]? with
  | some ⟨event, none, abandoned⟩ =>
    let (r, store) := st.store.callOp C I fate now (.registerInbound tenant event)
    { st with
      store := store
      acked := st.ackedBefore (InboundKey.mk tenant event.eventId).key
      handlers := if abandoned then st.handlers.eraseIdx i else st.handlers.set i ⟨event, some r, false⟩ }
  | _ => st

/-- The rest of the handler: nothing is awaited after the registration. -/
def handled (st : Bridge) (i : ℕ) (accepted : Bool) : Bridge :=
  match st.handlers[i]? with
  | some ⟨_, some r, _⟩ =>
    let st := { st with handlers := st.handlers.eraseIdx i }
    match handedOut r with
    | some event =>
      if accepted then
        { st with
          channel := st.channel ++ [event], acked := (InboundKey.mk tenant event.eventId).key :: st.acked }
      else st
    | none => st
  | _ => st

def abandon (st : Bridge) (i : ℕ) : Bridge :=
  match st.handlers[i]? with
  | some ⟨event, none, _⟩ => { st with handlers := st.handlers.set i ⟨event, none, true⟩ }
  | some ⟨_, some _, _⟩ => { st with handlers := st.handlers.eraseIdx i }
  | none => st

/-! ## Driver -/

/-- `route_recoverable` up to the router's answer. -/
def send (st : Bridge) (event : InboundEvent) (fits : Bool) : Bridge :=
  if fits ∧ st.queue.length < routerCommandCapacity then
    { st with queue := st.queue ++ [event], driver := .waiting }
  else { st with driver := .backoff event }

def drive (st : Bridge) (fits : Bool) : Bridge :=
  match st.driver with
  | .idle =>
    match st.channel with
    | [] => st
    | event :: channel => { st with channel := channel }.send event fits
  | .backoff event => st.send event fits
  | .waiting => st

/-! ## Router -/

/-- The message is routed. The driver goes on with the next one. -/
def routed (st : Bridge) : RouteSource → Bridge
  | .queue => { st with router := .loopTop, routerAnswer := none, driver := .idle }
  | .retry => { st with router := .loopTop, routerAnswer := none }

/-- The message cannot be routed and is dropped; one of the queue stops the bridge. -/
def lost (st : Bridge) (item : ActorInbound) (src : RouteSource) : Bridge :=
  { st with
    router := .loopTop, routerAnswer := none, dropped := st.dropped ++ [item], running := decide (src = .retry) && st.running }

/-- The message goes to the end of the retry lane. -/
def retryLater (env : RouterEnv) (st : Bridge) (src : RouteSource) (item : ActorInbound) : Bridge :=
  if src = .queue ∧ (st.retries.length ≥ routerRetryCapacity ∨ env.retryFits = false) then st.lost item .queue
  else { st with retries := st.retries ++ [item] }.routed src

/-- `reject_with_notice` up to its store request. -/
def rejectWithNotice (env : RouterEnv) (st : Bridge) (src : RouteSource) (item : ActorInbound)
    (reason : InboundRejectionKind) : Bridge :=
  match env.notice with
  | none => st.retryLater env src item
  | some notice => { st with router := .rejecting src item reason notice, routerAnswer := none }

def findActor (st : Bridge) (scope : String) : Option Actor := st.actors.find? (·.scope.toString = scope)

def setActor (st : Bridge) (scope : String) (a : Actor) : Bridge :=
  { st with actors := st.actors.map fun b => if b.scope.toString = scope then a else b }

theorem findActor_some (h : st.findActor scope = some a) :
    a ∈ st.actors ∧ a.scope.toString = scope := by
  have hs := List.find?_some h
  exact ⟨List.mem_of_find?_eq_some h, of_decide_eq_true hs⟩

theorem findActor_none (h : st.findActor scope = none) :
    ∀ a ∈ st.actors, a.scope.toString ≠ scope := by
  intro a ha hs
  exact List.find?_eq_none.1 h a ha (decide_eq_true hs)

/-- `try_route` and `try_route_control`. -/
def tryRoute (env : RouterEnv) (st : Bridge) (src : RouteSource) (item : ActorInbound) (a : Actor) : Bridge :=
  if a.pc = .ended then st.lost item src
  else if env.mailboxFits = false ∨ a.mailbox.length ≥ scopeMailboxCapacity then
    st.rejectWithNotice env src item .overloaded
  else
    let command := match bridgeControl fromStr item.event with
      | some control => ScopeCommand.control ⟨item, control⟩
      | none => .inbound item
    (st.setActor item.event.scope.toString { a with mailbox := a.mailbox ++ [command] }).routed src

/-- A new actor takes the message. -/
def spawnAndRoute (env : RouterEnv) (st : Bridge) (src : RouteSource) (item : ActorInbound) : Bridge :=
  let a := Actor.spawn item.event.scope st.live.inner.settings
  { st with actors := st.actors ++ [a] }.tryRoute fromStr env src item a

/-- The idle actor that is evicted. -/
def victim? (env : RouterEnv) (st : Bridge) : Option Actor :=
  let idle := st.actors.filter (·.isIdleAndEmpty)
  match idle.find? (some ·.scope.toString = env.victim) with
  | some a => some a
  | none => idle.head?

theorem victim?_mem {env : RouterEnv} (h : st.victim? env = some a) : a ∈ st.actors := by
  unfold victim? at h
  dsimp only at h
  split at h
  · next b hb =>
    cases h
    exact List.mem_of_mem_filter (List.mem_of_find?_eq_some hb)
  · exact List.mem_of_mem_filter (List.mem_of_head? h)

/-- `route_one` from the choice of the actor on. -/
def enterScope (env : RouterEnv) (st : Bridge) (c : Copies) (src : RouteSource) (item : ActorInbound) : Bridge :=
  match st.findActor item.event.scope.toString with
  | some a => st.tryRoute fromStr env src item a
  | none =>
    if st.actors.length < c.settings.maxScopeActors then st.spawnAndRoute fromStr env src item
    else
      match st.victim? env with
      | none => st.rejectWithNotice env src item .overloaded
      | some a =>
        { st.setActor a.scope.toString { a with cancelled := true, pendingMedia := a.pendingMedia.clear } with
          router := .evicting src item a.scope.toString, routerAnswer := none }

def routeOne (env : RouterEnv) (st : Bridge) (c : Copies) (src : RouteSource) (item : ActorInbound) : Bridge :=
  if item.event.chatType ≠ .p2p ∧ isConversationMedia item.event.messageType then
    { st with router := .completing src item, routerAnswer := none }
  else
    let control := bridgeControl fromStr item.event
    let st := { st with log := st.log ++ [LogEntry.decision item c.policy c.policyVersion] }
    match (accessDecision c.policy control item.event).rejectionKind with
    | some reason => st.rejectWithNotice env src item reason
    | none =>
      if control.isNone ∧ st.supervisor.terminal then { st with router := .readThread c src item, routerAnswer := none }
      else st.enterScope fromStr env c src item

/-- The router leaves its `select`. -/
def wake (env : RouterEnv) (st : Bridge) (c : Copies) : Bridge :=
  match env.wake with
  | .message =>
    match st.queue with
    | [] => st
    | event :: queue => { st with queue := queue }.routeOne fromStr env c .queue ⟨event, st.live.version⟩
  | .retry =>
    match st.retries with
    | [] => st
    | item :: retries => { st with retries := retries }.routeOne fromStr env c .retry item
  | .other => { st with router := .loopTop, routerAnswer := none }

def routerAnswered (env : RouterEnv) (st : Bridge) (src : RouteSource) (item : ActorInbound) : Bridge :=
  match st.routerAnswer with
  | none => st
  | some (.ok _) => st.routed src
  | some (.error _) => st.retryLater env src item

/-- The terminal supervisor serves adopted threads only. -/
def threadRead (env : RouterEnv) (st : Bridge) (c : Copies) (src : RouteSource) (item : ActorInbound) : Bridge :=
  match env.adopted with
  | none => st.retryLater env src item
  | some true => st.enterScope fromStr env c src item
  | some false => st.rejectWithNotice env src item .internal

/-- The evicted actor is gone. -/
def evicted (env : RouterEnv) (st : Bridge) (src : RouteSource) (item : ActorInbound) (victim : String) : Bridge :=
  match st.findActor victim with
  | some a =>
    if a.pc = .ended then
      { st with actors := st.actors.filter (·.scope.toString ≠ victim) }.spawnAndRoute fromStr env src item
    else st
  | none => st.spawnAndRoute fromStr env src item

/-- One step of `run_router`. -/
def routerStep (env : RouterEnv) (st : Bridge) : Bridge :=
  match st.router with
  | .loopTop => { st with router := .readSettings st.live.readPolicy, routerAnswer := none }
  | .readSettings policy => { st with router := .waiting (st.live.readSettings policy), routerAnswer := none }
  | .waiting c => st.wake fromStr env c
  | .completing src item => st.routerAnswered env src item
  | .rejecting src item _ _ => st.routerAnswered env src item
  | .readThread c src item => st.threadRead fromStr env c src item
  | .evicting src item victim => st.evicted fromStr env src item victim

def routerStore (st : Bridge) (fate : Fate) (now : ℤ) : Bridge :=
  match st.router.op tenant, st.routerAnswer with
  | some op, none =>
    let (r, store) := st.store.callOp C I fate now op
    { st with store := store, routerAnswer := some r }
  | _, _ => st

/-! ## Actors -/

def actorStore (st : Bridge) (scope : String) (fate : Fate) (now : ℤ) : Bridge :=
  match st.findActor scope with
  | none => st
  | some a =>
    match a.pc.op tenant, a.answer with
    | some op, none =>
      let (r, store) := st.store.callOp C I fate now op
      { st with store := store }.setActor scope { a with answer := some r }
    | _, _ => st

def actorStep (st : Bridge) (scope : String) (env : Env) : Bridge :=
  match st.findActor scope with
  | none => st
  | some a =>
    let o := a.run tenant ⟨st.live, st.supervisor, env⟩
    { st with live := o.live, log := st.log ++ o.log, dropped := st.dropped ++ o.dropped }.setActor scope o.actor

/-! ## The process -/

/-- The process starts on the database as it is: the received rows of the tenant are queued. -/
def restart (st : Bridge) (inner : LiveInner) (fate : Fate) (now : ℤ) (accepted : Bool) : Bridge :=
  let fresh := { Bridge.initial inner with store := { st.store with alive := true } }
  match fresh.store.callOp C I fate now (.recoverReceived tenant) with
  | (.ok (.recovered rows), store) =>
    if accepted then
      { fresh with
        store := store
        channel := rows.map (·.event)
        acked := rows.map fun retained => (InboundKey.mk tenant retained.event.eventId).key
        running := true }
    else { fresh with store := store }
  | (_, store) => { fresh with store := store }

/-- One event of a running bridge. -/
def stepRunning (st : Bridge) : Event → Bridge
  | .deliver event => { st with handlers := st.handlers ++ [⟨event, none, false⟩] }
  | .register i fate now => st.register C I tenant i fate now
  | .handled i accepted => st.handled tenant i accepted
  | .abandon i => st.abandon i
  | .drive fits => st.drive fits
  | .routerStore fate now => st.routerStore C I tenant fate now
  | .router env => st.routerStep fromStr env
  | .actorStore scope fate now => st.actorStore C I tenant scope fate now
  | .actor scope env => st.actorStep tenant scope env
  | .supervise access => { st with supervisor := access }
  | .sweep fate now olderThanMs maxRows =>
    { st with store := (st.store.callOp C I fate now (.sweepInbound olderThanMs maxRows)).2 }
  | .restart inner fate now accepted => st.restart C I tenant inner fate now accepted

/-- One event: a stopped bridge only starts. -/
def step (st : Bridge) (e : Event) : Bridge :=
  match e with
  | .restart inner fate now accepted => st.restart C I tenant inner fate now accepted
  | e => if st.running then st.stepRunning C I tenant fromStr e else st

/-- The bridge after a run. -/
def after (inner : LiveInner) (es : List Event) : Bridge := exec (step C I tenant fromStr) (initial inner) es

end Bridge

/-! ## A sample bridge -/

/-- One owner and one allowed sender. -/
def sampleConfig : BridgeConfig where
  owners := ["ou_1"]
  allowedSenders := ["ou_2"]
  allowedGroups := []
  defaultWorkspace := some "/work"
  allowRoots := ["/work"]
  networkAccess := false
  activeTurnPermits := 2
  maxScopeActors := 8
  model := none
  effort := none
  sandbox := .readOnly
  approvalPolicy := .named "never"

def sampleInner : LiveInner where
  config := some sampleConfig
  policy := .fromPreparedConfig sampleConfig ⟨"/home", [], [], []⟩
  settings := .fromConfig sampleConfig

def directMessage (eventId messageId chatId senderId text : String) : InboundEvent :=
  { sampleEvent eventId "text" text [.text text] with
    messageId := messageId, chatId := chatId, senderId := senderId, scope := .chat chatId }

/-- What `serde_json` writes for a direct message, if its text needs no escapes. -/
def directPayload (eventId messageId chatId senderId text : String) : ByteArray :=
  String.toUTF8 <|
    "\x7b\"event_id\":\"" ++ eventId ++ "\",\"message_id\":\"" ++ messageId ++ "\",\"chat_id\":\"" ++ chatId ++
    "\",\"sender_id\":\"" ++ senderId ++ "\",\"chat_type\":\"p2p\",\"thread_id\":null,\"root_id\":null,\"reply_to_mess" ++
    "age_id\":null,\"text\":\"" ++ text ++ "\",\"mentions_bot\":false,\"mention_all\":false,\"" ++
    "sender_is_human\":true,\"mentions\":[],\"parts\":[\x7b\"kind\":\"text\",\"value\":\x7b\"" ++
    "text\":\"" ++ text ++ "\"\x7d\x7d],\"resources\":[],\"message_type\":\"text\",\"create_time_ms\"" ++
    ":1,\"scope\":\x7b\"kind\":\"chat\",\"chat_id\":\"" ++ chatId ++ "\",\"thread_id\":null\x7d\x7d"

/-- The bridge starts on an empty database. -/
def startEvent : Event := .restart sampleInner .execute 1000 true

/-- A message is delivered, registered, acknowledged and sent to the router. -/
def intake (event : InboundEvent) (now : ℤ) : List Event :=
  [.deliver event, .register 0 .execute now, .handled 0 true, .drive true]

/-- The router takes a step; everything fits. -/
def routerTakes (wake : RouterWake) : Event := .router ⟨wake, none, true, true, none, some false⟩

def actorTakes (scope : String) (answer : Answer) (notice : Option NewOutboxRow := none) : Event :=
  .actor scope ⟨answer, 2000, 0, notice, ⟨some ⟨["/work"], "/work"⟩, true⟩⟩

end LarkCodexBridge.Runtime

import LarkCodexBridge.Codex.Protocol
import LarkCodexBridge.Lib.Run
import LarkCodexBridge.Sidecar.WriteQueue

/-!
# A protocol session of the sidecar

`ProtocolSession` relays frames between Rust and the Codex app-server. Both request ids are replaced on the way, so four
tables map them back; what has left a table is kept for a while in bounded sets.

* `Session`: the tables, the two write queues, and what the reader of upstream waits for;
* `handleLocal`, `handleUpstream`, `expireServerRequest`: what the session does; an error ends it;
* `step`: one event; `after`: a run of a new session.

The version adapter, JSON sizes and the digest are parameters (`SidecarParams`). The correlation key of a valid id is the
id itself. Frames carry what they are for (`Source`) and the number of the upstream frame they were made from; no step
reads either but the wait for the write of a server request.
-/

namespace LarkCodexBridge.Sidecar

open Codex (RequestId Value RpcErrorObject)
open StepSystem

/-! ## Frames -/

/-- A frame as `classifyRpcFrame` gives it. -/
inductive RpcFrame where
  | request (id : RequestId) (method : String) (params : Option Value)
  | notification (method : String) (params : Option Value)
  | response (id : RequestId) (result : Value)
  | error (id : RequestId) (error : RpcErrorObject)
  deriving DecidableEq

/-- The id a response is for. -/
def RpcFrame.respondsTo : RpcFrame → Option RequestId
  | .response id _ | .error id _ => some id
  | _ => none

def rpcError (id : RequestId) (code : ℤ) (message : String) : RpcFrame := .error id ⟨code, message, none⟩

/-- What a frame is for; requests of either side are numbered as they come. -/
inductive Source where
  | request (r : ℕ)
  | answer (r : ℕ)
  | refusal (r : ℕ)
  | serverRequest (q : ℕ)
  | serverAnswer (q : ℕ)
  | serverRefusal (q : ℕ)
  | serverExpiry (q : ℕ)
  | notification
  | shutdown (r : ℕ)
  deriving DecidableEq

/-- A frame for a write queue; `origin` is the number of the upstream frame it was made from. -/
structure Outgoing where
  frame : RpcFrame
  lane : Priority
  bytes : ℕ
  source : Source
  origin : Option ℕ
  deriving DecidableEq

instance : Queued Outgoing := ⟨Outgoing.lane, Outgoing.bytes⟩

/-- Why the adapter does not take a request. -/
inductive AdapterError where
  | unsupported | contract

/-- The adapter of a Codex version; `none` is a throw, `some none` a frame that is not promoted. -/
structure Adapter where
  toUpstreamRequest : String → Option Value → Except AdapterError (String × Option Value)
  toUpstreamNotification : String → Option Value → Option (String × Option Value)
  toUpstreamServerResponse : String → Except RpcErrorObject Value → Option (Except RpcErrorObject Value)
  fromUpstreamResponse : String → Value → Option Value
  fromUpstreamNotification : String → Option Value → Option (Option (String × Option Value))
  fromUpstreamServerRequest : String → Option Value → Option (Option (String × Option Value))

structure SidecarParams where
  maxPending : ℕ
  queue : QueueConfig
  nonce : String
  adapter : Adapter
  /-- The bytes of an encoded frame. -/
  size : RpcFrame → ℕ
  digest : String → String
  /-- `params.threadId`, `params.requestId`, and the params with another `requestId`. -/
  threadIdOf : Option Value → Option String
  requestIdOf : Option Value → Option RequestId
  withRequestId : Option Value → RequestId → Option Value
  /-- The params of a shutdown are absent, null or empty. -/
  noParams : Option Value → Bool
  emptyResult : Value

def controlRequestMethods : List String := ["turn/interrupt"]

def controlNotificationMethods : List String :=
  ["error", "turn/completed", "serverRequest/resolved", "thread/status/changed", "thread/queue/changed",
    "thread/settings/updated"]

def responsePriority (method : String) : Priority := if method ∈ controlRequestMethods then .control else .normal

def notificationPriority (method : String) : Priority :=
  if method ∈ controlNotificationMethods then .control else .normal

/-! ## State -/

structure PendingRequest where
  localId : RequestId
  method : String
  activeWriterFingerprint : Option String
  serial : ℕ

structure PendingServer where
  localId : RequestId
  upstreamId : RequestId
  method : String
  /-- The timer of the request runs. -/
  timeout : Bool
  serial : ℕ

/-- What the reader of upstream waits for before it takes another frame. -/
inductive UpstreamWait where
  | idle
  /-- The admission of a frame for Rust. -/
  | admission
  /-- The write of server request `q`. -/
  | written (localId : RequestId) (q : ℕ)
  deriving DecidableEq

inductive Ending where
  | failed (code : ErrorCode)
  | shutdown

/-- A request of Rust, and the id under which it went upstream. -/
structure LocalRequest where
  id : RequestId
  upstreamId : Option RequestId

structure Session where
  nextUpstreamId : ℕ
  nextServerId : ℕ
  pendingRequestsByUpstream : List (RequestId × PendingRequest)
  activeLocalRequestIds : List RequestId
  pendingServerByLocal : List (RequestId × PendingServer)
  activeUpstreamServerIds : List RequestId
  retiredLocalRequestIds : List RequestId
  retiredUpstreamResponseIds : List RequestId
  retiredLocalServerIds : List RequestId
  retiredUpstreamServerIds : List RequestId
  expiredLocalServerIds : List RequestId
  serverResolutionIds : List (RequestId × RequestId)
  retiredServerResolutionIds : List RequestId
  toLocal : WriteQueue Outgoing
  toUpstream : WriteQueue Outgoing
  wait : UpstreamWait
  /-- The request whose reply, that of a shutdown, is on its way; no more local frames are read. -/
  closing : Option ℕ
  ended : Option Ending
  /-- The requests of both sides and the upstream frames so far. -/
  requests : List LocalRequest
  serverRequests : List RequestId
  received : List RpcFrame
  /-- The server requests that Rust has answered, and those that Codex resolved before they had an answer. -/
  answers : List RequestId
  resolvedPending : List PendingServer

namespace Session

def new : Session where
  nextUpstreamId := 1
  nextServerId := 1
  pendingRequestsByUpstream := []
  activeLocalRequestIds := []
  pendingServerByLocal := []
  activeUpstreamServerIds := []
  retiredLocalRequestIds := []
  retiredUpstreamResponseIds := []
  retiredLocalServerIds := []
  retiredUpstreamServerIds := []
  expiredLocalServerIds := []
  serverResolutionIds := []
  retiredServerResolutionIds := []
  toLocal := .empty
  toUpstream := .empty
  wait := .idle
  closing := none
  ended := none
  requests := []
  serverRequests := []
  received := []
  answers := []
  resolvedPending := []

variable (P : SidecarParams)

/-- `Math.max(16, maximum)` of the retired sets. -/
def retiredBound : ℕ := max 16 (P.maxPending * 4)

/-- `RetiredCorrelations.add`: the oldest go. -/
def retire (keys : List RequestId) (key : RequestId) : List RequestId :=
  let keys := keys.erase key ++ [key]
  keys.drop (keys.length - retiredBound P)

/-- `RetiredMappings.set`. -/
def setMapping (mappings : List (RequestId × RequestId)) (key value : RequestId) : List (RequestId × RequestId) :=
  let mappings := mappings.filter (·.1 ≠ key) ++ [(key, value)]
  mappings.drop (mappings.length - retiredBound P)

/-- A frame with its size. -/
def outgoing (frame : RpcFrame) (lane : Priority) (source : Source) (origin : Option ℕ) : Outgoing :=
  ⟨frame, lane, P.size frame, source, origin⟩

def totalPending (s : Session) : ℕ := s.pendingRequestsByUpstream.length + s.pendingServerByLocal.length

def pendingRequest? (s : Session) (upstreamKey : RequestId) : Option PendingRequest :=
  (s.pendingRequestsByUpstream.find? (·.1 = upstreamKey)).map (·.2)

def pendingServer? (s : Session) (localKey : RequestId) : Option PendingServer :=
  (s.pendingServerByLocal.find? (·.1 = localKey)).map (·.2)

/-- The id of a request of Rust upstream, and of a request of Codex at Rust. -/
def upstreamIdOf (n : ℕ) : RequestId := .string ("bridge:" ++ P.nonce ++ ":" ++ toString n)
def serverIdOf (n : ℕ) : RequestId := .string ("server:" ++ P.nonce ++ ":" ++ toString n)

/-! ## Frames of Rust -/

/-- Rust may not use this id for a request. -/
def reusesCorrelation (s : Session) (id : RequestId) : Bool :=
  id ∈ s.activeLocalRequestIds || id ∈ s.retiredLocalRequestIds || (s.pendingServer? id).isSome ||
    id ∈ s.retiredLocalServerIds

/-- The sidecar answers a request of Rust itself. -/
def refuseLocal (s : Session) (id : RequestId) (code : ℤ) (message : String) : Except ErrorCode Session := do
  let toLocal ← s.toLocal.enqueue P.queue (outgoing P (rpcError id code message) .control (.refusal s.requests.length) none)
  return { s with
    toLocal := toLocal
    retiredLocalRequestIds := retire P s.retiredLocalRequestIds id
    requests := s.requests ++ [⟨id, none⟩] }

def activeWriterFingerprint (method : String) (params : Option Value) : Option String :=
  if method ≠ "thread/resume" then none else (P.threadIdOf params).bind (Codex.threadIdFingerprint P.digest)

def forwardLocalRequest (s : Session) (id : RequestId) (method : String) (params : Option Value) :
    Except ErrorCode Session :=
  if s.reusesCorrelation id then .error .correlationReuse
  else
    match P.adapter.toUpstreamRequest method params with
    | .error .unsupported => s.refuseLocal P id (-32601) "method is not promoted by the active adapter"
    | .error .contract => .error .adapterContract
    | .ok (method', params') =>
      if s.totalPending ≥ P.maxPending then
        s.refuseLocal P id (-32020) "sidecar pending-request capacity is exhausted"
      else
        let upstreamId := upstreamIdOf P s.nextUpstreamId
        let frame := outgoing P (.request upstreamId method' params') (responsePriority method)
          (.request s.requests.length) none
        match s.toUpstream.enqueue P.queue frame with
        | .ok toUpstream =>
          .ok { s with
            nextUpstreamId := s.nextUpstreamId + 1
            pendingRequestsByUpstream := s.pendingRequestsByUpstream ++
              [(upstreamId, ⟨id, method, activeWriterFingerprint P method params', s.requests.length⟩)]
            activeLocalRequestIds := s.activeLocalRequestIds ++ [id]
            toUpstream := toUpstream
            requests := s.requests ++ [⟨id, some upstreamId⟩] }
        | .error .writeQueueFull =>
          { s with nextUpstreamId := s.nextUpstreamId + 1 }.refuseLocal P id (-32020)
            "sidecar write capacity is exhausted"
        | .error code => .error code

def forwardLocalNotification (s : Session) (method : String) (params : Option Value) : Except ErrorCode Session :=
  match P.adapter.toUpstreamNotification method params with
  | none => .error .adapterContract
  | some (method', params') => do
    let toUpstream ← s.toUpstream.enqueue P.queue
      (outgoing P (.notification method' params') (notificationPriority method) .notification none)
    return { s with toUpstream := toUpstream }

/-- A request of Codex leaves the tables; a resolution of it can still be mapped back. -/
def retireServer (s : Session) (pending : PendingServer) : Session :=
  { s with
    pendingServerByLocal := s.pendingServerByLocal.filter (·.1 ≠ pending.localId)
    activeUpstreamServerIds := s.activeUpstreamServerIds.filter (· ≠ pending.upstreamId)
    retiredLocalServerIds := retire P s.retiredLocalServerIds pending.localId
    retiredUpstreamServerIds := retire P s.retiredUpstreamServerIds pending.upstreamId }

def answerFrame (id : RequestId) : Except RpcErrorObject Value → RpcFrame
  | .ok result => .response id result
  | .error error => .error id error

def forwardLocalServerResponse (s : Session) (id : RequestId) (answer : Except RpcErrorObject Value) :
    Except ErrorCode Session :=
  match s.pendingServer? id with
  | none =>
    if id ∈ s.expiredLocalServerIds then
      .ok { s with
        expiredLocalServerIds := s.expiredLocalServerIds.filter (· ≠ id)
        answers := s.answers ++ [id] }
    else .error (if id ∈ s.retiredLocalServerIds then .lateResponse else .unknownCorrelation)
  | some pending =>
    match P.adapter.toUpstreamServerResponse pending.method answer with
    | none => .error .adapterContract
    | some adapted => do
      let s := s.retireServer P pending
      let toUpstream ← s.toUpstream.enqueue P.queue
        (outgoing P (answerFrame pending.upstreamId adapted) .control (.serverAnswer pending.serial) none)
      return { s with
        toUpstream := toUpstream
        serverResolutionIds := setMapping P s.serverResolutionIds pending.upstreamId pending.localId
        answers := s.answers ++ [id] }

/-- `sidecar/shutdown`. -/
def beginShutdown (s : Session) (id : RequestId) (params : Option Value) : Except ErrorCode Session :=
  if !P.noParams params then .error .invalidParams
  else if s.reusesCorrelation id then .error .correlationReuse
  else do
    let toLocal ← s.toLocal.enqueue P.queue
      (outgoing P (.response id P.emptyResult) .control (.shutdown s.requests.length) none)
    return { s with
      toLocal := toLocal
      retiredLocalRequestIds := retire P s.retiredLocalRequestIds id
      closing := some s.requests.length
      requests := s.requests ++ [⟨id, none⟩] }

def handleLocal (s : Session) : RpcFrame → Except ErrorCode Session
  | .request id method params =>
    if method = "sidecar/shutdown" then s.beginShutdown P id params else s.forwardLocalRequest P id method params
  | .notification method params => s.forwardLocalNotification P method params
  | .response id result => s.forwardLocalServerResponse P id (.ok result)
  | .error id error => s.forwardLocalServerResponse P id (.error error)

/-! ## Frames of Codex -/

/-- A frame for Rust; the reader of upstream waits for its admission. -/
def relay (s : Session) (frame : Outgoing) (wait : UpstreamWait) : Except ErrorCode Session := do
  let toLocal ← s.toLocal.enqueueWithBackpressure P.queue frame
  return { s with toLocal := toLocal, wait := wait }

def classifyUpstreamError (pending : PendingRequest) (error : RpcErrorObject) : RpcErrorObject :=
  let generic : RpcErrorObject := ⟨error.code, "upstream request failed", none⟩
  if pending.activeWriterFingerprint.isNone ∨ error.code ≠ Codex.nativeInvalidRequestCode ∨ error.data.isSome then generic
  else
    match Codex.nativeActiveWriterThreadId P.digest error.message with
    | none => generic
    | some threadId =>
      if Codex.threadIdFingerprint P.digest threadId ≠ pending.activeWriterFingerprint then generic
      else ⟨Codex.sidecarThreadResumeActiveWriterCode, Codex.sidecarThreadResumeActiveWriterMessage, none⟩

/-- A request of Rust leaves the tables. -/
def retireRequest (s : Session) (upstreamKey : RequestId) (pending : PendingRequest) : Session :=
  { s with
    pendingRequestsByUpstream := s.pendingRequestsByUpstream.filter (·.1 ≠ upstreamKey)
    activeLocalRequestIds := s.activeLocalRequestIds.filter (· ≠ pending.localId)
    retiredUpstreamResponseIds := retire P s.retiredUpstreamResponseIds upstreamKey
    retiredLocalRequestIds := retire P s.retiredLocalRequestIds pending.localId }

/-- The answer Rust gets; `none` when the adapter throws. -/
def adaptAnswer (pending : PendingRequest) : Except RpcErrorObject Value → Option (Except RpcErrorObject Value)
  | .error error => some (.error (classifyUpstreamError P pending error))
  | .ok result => (P.adapter.fromUpstreamResponse pending.method result).map .ok

/-- `#completeLocalRequest`, for upstream frame `origin`. -/
def completeLocalRequest (s : Session) (origin : ℕ) (id : RequestId) (answer : Except RpcErrorObject Value) :
    Except ErrorCode Session :=
  match s.pendingRequest? id with
  | none => .error (if id ∈ s.retiredUpstreamResponseIds then .lateResponse else .unknownCorrelation)
  | some pending =>
    match adaptAnswer P pending answer with
    | none => .error .adapterContract
    | some answer =>
      (s.retireRequest P id pending).relay P
        (outgoing P (answerFrame pending.localId answer) (responsePriority pending.method) (.answer pending.serial)
          (some origin)) .admission

/-- The resolution of a server request is mapped back to the id Rust knows. -/
def resolve (s : Session) (upstreamKey : RequestId) : Except ErrorCode (RequestId × Session) :=
  match s.serverResolutionIds.find? (·.1 = upstreamKey) with
  | some (_, localId) =>
    .ok (localId, { s with
      serverResolutionIds := s.serverResolutionIds.filter (·.1 ≠ upstreamKey)
      retiredServerResolutionIds := retire P s.retiredServerResolutionIds upstreamKey })
  | none =>
    match s.pendingServerByLocal.find? (·.2.upstreamId = upstreamKey) with
    | some (_, active) =>
      let s := s.retireServer P active
      .ok (active.localId, { s with
        retiredServerResolutionIds := retire P s.retiredServerResolutionIds upstreamKey
        resolvedPending := s.resolvedPending ++ [active] })
    | none => .error (if upstreamKey ∈ s.retiredServerResolutionIds then .lateResponse else .unknownCorrelation)

/-- The tail of `#forwardUpstreamNotification`. -/
def relayNotification (s : Session) (origin : ℕ) (method : String) (params : Option Value) : Except ErrorCode Session :=
  match P.adapter.fromUpstreamNotification method params with
  | none => .error .adapterContract
  | some none => .ok s
  | some (some (method', params')) =>
    s.relay P (outgoing P (.notification method' params') (notificationPriority method') .notification (some origin))
      .admission

def forwardUpstreamNotification (s : Session) (origin : ℕ) (method : String) (params : Option Value) :
    Except ErrorCode Session :=
  if method = "serverRequest/resolved" then
    match P.requestIdOf params with
    | none => .error .adapterContract
    | some upstreamKey => do
      let (localId, s) ← s.resolve P upstreamKey
      s.relayNotification P origin method (P.withRequestId params localId)
  else s.relayNotification P origin method params

/-- The sidecar answers a request of Codex itself. -/
def refuseServer (s : Session) (id : RequestId) (code : ℤ) (message : String) : Except ErrorCode Session := do
  let toUpstream ← s.toUpstream.enqueue P.queue
    (outgoing P (rpcError id code message) .control (.serverRefusal s.serverRequests.length) none)
  return { s with
    toUpstream := toUpstream
    retiredUpstreamServerIds := retire P s.retiredUpstreamServerIds id
    serverRequests := s.serverRequests ++ [id] }

/-- `#forwardUpstreamServerRequest`, up to its first wait. -/
def forwardUpstreamServerRequest (s : Session) (origin : ℕ) (id : RequestId) (method : String) (params : Option Value) :
    Except ErrorCode Session :=
  if id ∈ s.activeUpstreamServerIds ∨ id ∈ s.retiredUpstreamServerIds then .error .correlationReuse
  else
    match P.adapter.fromUpstreamServerRequest method params with
    | none => .error .adapterContract
    | some none => s.refuseServer P id (-32601) "server request is not promoted by the active adapter"
    | some (some (method', params')) =>
      if s.totalPending ≥ P.maxPending then s.refuseServer P id (-32021) "server-request capacity is exhausted"
      else
        let localId := serverIdOf P s.nextServerId
        let q := s.serverRequests.length
        let pending : PendingServer := ⟨localId, id, method', false, q⟩
        let s : Session := { s with
          nextServerId := s.nextServerId + 1
          pendingServerByLocal := s.pendingServerByLocal ++ [(localId, pending)]
          activeUpstreamServerIds := s.activeUpstreamServerIds ++ [id]
          serverRequests := s.serverRequests ++ [id] }
        s.relay P (outgoing P (.request localId method' params') .control (.serverRequest q) (some origin))
          (.written localId q)

def handleUpstream (s : Session) (frame : RpcFrame) : Except ErrorCode Session :=
  let origin := s.received.length
  let s := { s with received := s.received ++ [frame] }
  match frame with
  | .response id result => s.completeLocalRequest P origin id (.ok result)
  | .error id error => s.completeLocalRequest P origin id (.error error)
  | .notification method params => s.forwardUpstreamNotification P origin method params
  | .request id method params => s.forwardUpstreamServerRequest P origin id method params

/-! ## Writes and timers -/

/-- The frame with this source is written, callback and all. -/
def isWritten (q : WriteQueue Outgoing) (source : Source) : Bool :=
  (q.control ++ q.normal ++ q.waiter.toList ++ q.inFlight.toList).all (·.source ≠ source)

/-- The reader of upstream goes on; the timer of a server request starts behind its write. -/
def resume (s : Session) : Session :=
  match s.wait with
  | .idle => s
  | .admission => if s.toLocal.waiter.isNone then { s with wait := .idle } else s
  | .written localId q =>
    if isWritten s.toLocal (.serverRequest q) then
      { s with
        wait := .idle
        pendingServerByLocal := s.pendingServerByLocal.map fun entry =>
          if entry.1 = localId then (entry.1, { entry.2 with timeout := true }) else entry }
    else s

def expireServerRequest (s : Session) (localKey : RequestId) : Except ErrorCode Session :=
  match s.pendingServer? localKey with
  | none => .ok s
  | some pending =>
    if !pending.timeout then .ok s
    else do
      let s := s.retireServer P pending
      let toUpstream ← s.toUpstream.enqueue P.queue
        (outgoing P (rpcError pending.upstreamId (-32022) "bridge server request timed out") .control
          (.serverExpiry pending.serial) none)
      return { s with
        toUpstream := toUpstream
        expiredLocalServerIds := retire P s.expiredLocalServerIds localKey
        serverResolutionIds := setMapping P s.serverResolutionIds pending.upstreamId pending.localId }

end Session

/-! ## Steps -/

inductive SidecarEvent where
  /-- A frame of Rust, and one of Codex. -/
  | fromLocal (frame : RpcFrame)
  | fromUpstream (frame : RpcFrame)
  /-- A line that is no frame. -/
  | malformed
  /-- The reader of upstream goes on. -/
  | resume
  | localWritten
  | upstreamWritten
  | writeFailed
  | requestTimeout (upstreamKey : RequestId)
  | serverTimeout (localKey : RequestId)
  /-- A signal or the end of the input. -/
  | shutdown
  /-- The reply to a shutdown is written. -/
  | shutdownWritten

namespace Session

variable (P : SidecarParams)

def fail (s : Session) (code : ErrorCode) : Session := { s with ended := some (.failed code) }

/-- The result of a handler. -/
def orFail (s : Session) : Except ErrorCode Session → Session
  | .ok s' => s'
  | .error code => s.fail code

/-- One event of a session that has not ended. -/
def act (s : Session) : SidecarEvent → Session
  | .fromLocal frame => if s.closing.isSome then s else s.orFail (s.handleLocal P frame)
  | .fromUpstream frame => if s.wait = .idle then s.orFail (s.handleUpstream P frame) else s
  | .malformed => s.fail .invalidRpc
  | .resume => s.resume
  | .localWritten => { s with toLocal := s.toLocal.complete P.queue }
  | .upstreamWritten => { s with toUpstream := s.toUpstream.complete P.queue }
  | .writeFailed => s.fail .writeFailed
  | .requestTimeout upstreamKey => if (s.pendingRequest? upstreamKey).isSome then s.fail .requestTimeout else s
  | .serverTimeout localKey => s.orFail (s.expireServerRequest P localKey)
  | .shutdown => { s with ended := some .shutdown }
  | .shutdownWritten =>
    match s.closing with
    | some r => if isWritten s.toLocal (.shutdown r) then { s with ended := some .shutdown } else s
    | none => s

/-- One event; a session that has ended does nothing. -/
def step (s : Session) (e : SidecarEvent) : Session := if s.ended.isSome then s else s.act P e

/-- The state after a run of a new session. -/
def after (events : List SidecarEvent) : Session := exec (step P) new events

end Session

/-- The limits of version 1, and an adapter that passes on all frames but one server request it does not know. -/
def plainSidecar : SidecarParams where
  maxPending := 448
  queue := ⟨33554432, 384, 67108864⟩
  nonce := "0123456789abcdef"
  adapter :=
    { toUpstreamRequest := fun method params => .ok (method, params)
      toUpstreamNotification := fun method params => some (method, params)
      toUpstreamServerResponse := fun _ answer => some answer
      fromUpstreamResponse := fun _ result => some result
      fromUpstreamNotification := fun method params => some (some (method, params))
      fromUpstreamServerRequest := fun method params =>
        some (if method = "future/request" then none else some (method, params)) }
  size := fun _ => 256
  digest := id
  threadIdOf := id
  requestIdOf := Option.map .string
  withRequestId := fun params _ => params
  noParams := Option.isNone
  emptyResult := "\x7b\x7d"

end LarkCodexBridge.Sidecar

import Mathlib
import LarkCodexBridge.Codex.Protocol
import LarkCodexBridge.Lib.Run

/-!
# One RPC connection

The actor of `run_actor` with everything that runs next to it: the calls of `request_budgeted_with_priority`, the server
requests and the futures that respond to them, the two sender pumps, and the writer of the transport. An event is one
step of one of them, or of the environment; whatever waits is polled by an event of its own, and a poll looks at the
branches of its `select!` in the order of the source.

* `Call`: one request of a caller; its `slot` is its reply channel;
* `ServerRequest`: one request of the app-server, with its lease;
* `step`: one event; `initial`: a fresh connection.

The budgets are left to the events: a permit comes when it comes, a payload serialises or not.
-/

namespace LarkCodexBridge.Codex

open Limits StepSystem

/-! ## Calls -/

/-- A oneshot channel, as its receiver sees it. -/
inductive Slot (α : Type) where
  | empty
  | full (value : α)
  | closed
  deriving DecidableEq

inductive CallPhase where
  | unborn
  /-- Waits for its permits and serialises its parameters. -/
  | admitting
  /-- Holds its command and waits for room in the queue. -/
  | enqueueing (params : Value)
  /-- The command is sent, and the cancel guard armed. -/
  | waiting
  | returned (result : Except RpcError Value)
  /-- The future was dropped. -/
  | dropped
  deriving DecidableEq

/-- One run of `request_budgeted_with_priority`. -/
structure Call where
  high : Bool
  method : String
  deadline : ℕ
  classifier : ServerErrorClassifier
  id : Option RequestId
  phase : CallPhase
  slot : Slot (Except RpcError Value)
  deriving DecidableEq

def Call.unborn : Call := ⟨false, "", 0, .generic, none, .unborn, .empty⟩

/-- Someone still waits for the reply: `!reply.is_closed()`. -/
def Call.listens (c : Call) : Bool := c.phase = .waiting

/-! ## Server requests -/

/-- `ServerRequestLease`. -/
inductive LeaseState where
  | armed | actorOwned | resolved
  deriving DecidableEq

/-- A lease with the id of its request; `lease` is the number of the server request. -/
structure ServerResponseLease where
  id : RequestId
  lease : ℕ
  deriving DecidableEq

inductive RpcCommand where
  /-- `reply` is the number of the call. -/
  | request (id : RequestId) (method : String) (params : Value) (deadline reply : ℕ) (classifier : ServerErrorClassifier)
  | fire (method : String) (message : OutboundMessage) (serverRequest : ServerResponseLease) (deadline : ℕ)
  deriving DecidableEq

/-- The future that answers a server request. -/
inductive RespondPhase where
  | idle
  | serializing (method : String) (message : OutboundMessage) (deadline : ℕ)
  /-- Holds its command and waits for room in the queue. -/
  | enqueueing (command : RpcCommand) (deadline : ℕ)
  | awaiting (deadline : ℕ)
  deriving DecidableEq

/-- A request of the app-server. -/
structure ServerRequest where
  id : RequestId
  method : String
  params : Option Value
  lease : LeaseState
  /-- The object has not been dropped. -/
  held : Bool
  respond : RespondPhase
  ack : Slot (Except RpcError Unit)
  deriving DecidableEq

def ServerRequest.none : ServerRequest := ⟨.integer 0, "", .none, .resolved, false, .idle, .empty⟩

/-! ## Actor, pumps and transport -/

structure PendingRequest where
  method : String
  deadline : ℕ
  reply : ℕ
  classifier : ServerErrorClassifier
  deriving DecidableEq

/-- Whom a job reports to: the actor, or the future that responds. -/
inductive JobCompletion where
  | request (id : RequestId)
  | fire (serverResponse : ServerResponseLease)
  deriving DecidableEq

structure OutboundJob where
  method : String
  message : OutboundMessage
  deadline : ℕ
  completion : JobCompletion
  deriving DecidableEq

structure OutboundCompletion where
  id : RequestId
  result : Except RpcError Unit
  deriving DecidableEq

inductive PumpStage where
  | receiving
  | sending (job : OutboundJob)
  /-- `send_confirmed` waits for the writer. -/
  | confirming (job : OutboundJob) (serverResponse : ServerResponseLease)
  | reporting (completion : OutboundCompletion)
  | stopped
  deriving DecidableEq

structure Pump where
  queue : List OutboundJob
  stage : PumpStage
  deriving DecidableEq

/-- A frame in a queue of the transport; `written` is the server request whose pump waits for the writer. -/
structure Frame where
  message : OutboundMessage
  written : Option ℕ
  deriving DecidableEq

inductive ActorStage where
  | running
  /-- The loop is left and everything is failed; the pumps are joined. -/
  | stopping
  | exited
  deriving DecidableEq

structure Rpc where
  /-- The token of the epoch. -/
  cancelled : Bool
  /-- `STATE_LOST`. -/
  lost : Bool
  now : ℕ
  nextId : ℕ
  started : ℕ
  calls : ℕ → Call
  emitted : ℕ
  requests : ℕ → ServerRequest
  /-- The command queues; `true` is the high priority. -/
  queue : Bool → List RpcCommand
  cancels : List RequestId
  stage : ActorStage
  pending : List (RequestId × PendingRequest)
  pendingCount : ℤ
  serverPending : List RequestId
  highBurst : ℕ
  completions : List OutboundCompletion
  pump : Bool → Pump
  frames : Bool → List Frame
  transportUp : Bool
  /-- What the writer told the pump that waits for the frame of a server request. -/
  confirmed : ℕ → Option Bool

/-- What is fixed for a connection; `digest` is SHA-256. -/
structure RpcParams where
  epoch : ℕ
  policy : RpcProtocolPolicy
  digest : String → String

def initial (now : ℕ) : Rpc where
  cancelled := false
  lost := false
  now := now
  nextId := 0
  started := 0
  calls := fun _ => .unborn
  emitted := 0
  requests := fun _ => .none
  queue := fun _ => []
  cancels := []
  stage := .running
  pending := []
  pendingCount := 0
  serverPending := []
  highBurst := 0
  completions := []
  pump := fun _ => ⟨[], .receiving⟩
  frames := fun _ => []
  transportUp := true
  confirmed := fun _ => none

namespace Rpc

variable (P : RpcParams)

/-! ## Reply channels and leases -/

def setCall (s : Rpc) (n : ℕ) (c : Call) : Rpc := { s with calls := Function.update s.calls n c }

def setRequest (s : Rpc) (k : ℕ) (r : ServerRequest) : Rpc := { s with requests := Function.update s.requests k r }

/-- `reply.send(result)`. -/
def reply (s : Rpc) (n : ℕ) (result : Except RpcError Value) : Rpc :=
  if (s.calls n).listens then s.setCall n { s.calls n with slot := .full result } else s

def dropReply (s : Rpc) (n : ℕ) : Rpc := s.setCall n { s.calls n with slot := .closed }

def abandonIfArmed (s : Rpc) (k : ℕ) : Rpc :=
  if (s.requests k).lease = .armed then
    { s.setRequest k { s.requests k with lease := .resolved } with cancelled := true }
  else s

def handoffToActor (s : Rpc) (k : ℕ) : Rpc :=
  if (s.requests k).lease = .armed then s.setRequest k { s.requests k with lease := .actorOwned } else s

def resolveActorOwned (s : Rpc) (k : ℕ) : Rpc :=
  if (s.requests k).lease = .actorOwned then s.setRequest k { s.requests k with lease := .resolved } else s

/-- `fail_actor_owned`, which a dropped `ServerResponseLease` runs as well. -/
def failActorOwned (s : Rpc) (k : ℕ) : Rpc :=
  if (s.requests k).lease = .actorOwned then
    { s.setRequest k { s.requests k with lease := .resolved } with cancelled := true }
  else s

/-- `ack.send(result)`. -/
def acknowledge (s : Rpc) (k : ℕ) (ack : Slot (Except RpcError Unit)) : Rpc :=
  s.setRequest k { s.requests k with ack := ack }

def dropCommand (s : Rpc) : RpcCommand → Rpc
  | .request _ _ _ _ n _ => s.dropReply n
  | .fire _ _ response _ => (s.acknowledge response.lease .closed).failActorOwned response.lease

def dropJob (s : Rpc) (job : OutboundJob) : Rpc :=
  match job.completion with
  | .request _ => s
  | .fire response => (s.acknowledge response.lease .closed).failActorOwned response.lease

/-- `ensure_open`. -/
def isOpen (s : Rpc) : Bool := !s.lost && !s.cancelled

def capacity (high : Bool) : ℕ := if high then rpcHighCapacity else rpcNormalCapacity

/-- The queue of a priority takes one more command. -/
def hasRoom (s : Rpc) (high : Bool) : Bool := (s.queue high).length < capacity high

def push (s : Rpc) (high : Bool) (command : RpcCommand) : Rpc :=
  { s with queue := Function.update s.queue high (s.queue high ++ [command]) }

/-! ## Callers -/

def nextRequestId (s : Rpc) : Option (RequestId × Rpc) :=
  if s.nextId < u64Max then
    some (.string ("c:" ++ toString P.epoch ++ ":" ++ toString s.nextId), { s with nextId := s.nextId + 1 })
  else none

/-- How a call can fail before it has an id. -/
inductive AdmissionError where
  | lost | timeout | serialize | payloadTooLarge
  deriving DecidableEq

def AdmissionError.toRpcError (method : String) : AdmissionError → RpcError
  | .lost => .connectionLost P.epoch
  | .timeout => .timeout method
  | .serialize => .serialize method
  | .payloadTooLarge => .payloadTooLarge method

def setPhase (s : Rpc) (n : ℕ) (phase : CallPhase) : Rpc := s.setCall n { s.calls n with phase := phase }

/-- A new call, up to its first wait. -/
def request (s : Rpc) (high : Bool) (method : String) (timeout : ℕ) (classifier : ServerErrorClassifier) : Rpc :=
  let phase : CallPhase := if s.isOpen then .admitting else .returned (.error (.connectionLost P.epoch))
  { s.setCall s.started ⟨high, method, s.now + timeout, classifier, none, phase, .empty⟩ with started := s.started + 1 }

/-- A call fails to get its permits or to serialise. -/
def admitFailed (s : Rpc) (n : ℕ) (error : AdmissionError) : Rpc :=
  match (s.calls n).phase with
  | .admitting => s.setPhase n (.returned (.error (error.toRpcError P (s.calls n).method)))
  | _ => s

/-- A call has its permits and its parameters, and takes an id. -/
def admitReady (s : Rpc) (n : ℕ) (params : Value) : Rpc :=
  match (s.calls n).phase with
  | .admitting =>
    match s.nextRequestId P with
    | none => s.setPhase n (.returned (.error .requestIdExhausted))
    | some (id, s') => s'.setCall n { s.calls n with id := some id, phase := .enqueueing params }
  | _ => s

/-- The cancel guard of a call is dropped while it is active. -/
def sendCancel (s : Rpc) (id : RequestId) : Rpc :=
  if s.stage ≠ .exited ∧ s.cancels.length < rpcTotalPendingCapacity then { s with cancels := s.cancels ++ [id] } else s

def sendCancelOf (s : Rpc) (c : Call) : Rpc :=
  match c.id with
  | some id => s.sendCancel id
  | none => s

/-- What the caller gets from its reply channel; `decodes` if the value has the type it asked for. -/
def received (c : Call) (decodes : Bool) : Slot (Except RpcError Value) → Option (Except RpcError Value)
  | .empty => none
  | .closed => some (.error (.connectionLost P.epoch))
  | .full (.error e) => some (.error e)
  | .full (.ok v) => some (if decodes then .ok v else .error (.deserialize c.method))

def poll (s : Rpc) (n : ℕ) (decodes : Bool) : Rpc :=
  let c := s.calls n
  match c.phase, c.id with
  | .enqueueing params, some id =>
    if !s.isOpen then s.setPhase n (.returned (.error (.connectionLost P.epoch)))
    else if c.deadline ≤ s.now then s.setPhase n (.returned (.error (.timeout c.method)))
    else if s.stage ≠ .running then s.setPhase n (.returned (.error (.connectionLost P.epoch)))
    else if s.hasRoom c.high then
      (s.push c.high (.request id c.method params c.deadline n c.classifier)).setPhase n .waiting
    else s
  | .waiting, _ =>
    if s.cancelled then (s.setPhase n (.returned (.error (.connectionLost P.epoch)))).sendCancelOf c
    else if c.deadline ≤ s.now then (s.setPhase n (.returned (.error (.timeout c.method)))).sendCancelOf c
    else
      match received P c decodes c.slot with
      | some result => s.setPhase n (.returned result)
      | none => s
  | _, _ => s

def dropCall (s : Rpc) (n : ℕ) : Rpc :=
  match (s.calls n).phase with
  | .admitting | .enqueueing _ => s.setPhase n .dropped
  | .waiting => (s.setPhase n .dropped).sendCancelOf (s.calls n)
  | _ => s

/-! ## Responding to server requests -/

def setRespond (s : Rpc) (k : ℕ) (phase : RespondPhase) : Rpc := s.setRequest k { s.requests k with respond := phase }

/-- `respond_request` and `respond_request_error`, up to their first wait. -/
def respond (s : Rpc) (k : ℕ) (answer : Except RpcErrorObject Value) : Rpc :=
  let r := s.requests k
  if r.held ∧ r.respond = .idle ∧ r.lease = .armed then
    match answer with
    | .ok result => s.setRespond k (.serializing "server/respond" (.response r.id result) (s.now + controlRpcTimeout))
    | .error error =>
      s.setRespond k (.serializing "server/respond_error" (.errorResponse r.id error) (s.now + controlRpcTimeout))
  else s

/-- The answer does not serialise, or its permits do not come in time. -/
def respondFailed (s : Rpc) (k : ℕ) : Rpc :=
  match (s.requests k).respond with
  | .serializing .. => s.setRespond k .idle
  | _ => s

/-- `send_fire`: the lease goes to the command. -/
def respondReady (s : Rpc) (k : ℕ) : Rpc :=
  match (s.requests k).respond with
  | .serializing method message deadline =>
    if !s.isOpen then s.setRespond k .idle
    else
      let s := (s.handoffToActor k).acknowledge k .empty
      s.setRespond k (.enqueueing (.fire method message ⟨(s.requests k).id, k⟩ deadline) deadline)
  | _ => s

def pollRespond (s : Rpc) (k : ℕ) : Rpc :=
  match (s.requests k).respond with
  | .enqueueing command deadline =>
    if !s.isOpen ∨ deadline ≤ s.now ∨ s.stage ≠ .running then (s.setRespond k .idle).dropCommand command
    else if s.hasRoom true then (s.push true command).setRespond k (.awaiting deadline)
    else s
  | .awaiting deadline =>
    if s.cancelled ∨ deadline ≤ s.now ∨ (s.requests k).ack ≠ .empty then s.setRespond k .idle else s
  | _ => s

def dropRespond (s : Rpc) (k : ℕ) : Rpc :=
  match (s.requests k).respond with
  | .enqueueing command _ => (s.setRespond k .idle).dropCommand command
  | .serializing .. | .awaiting _ => s.setRespond k .idle
  | .idle => s

/-- `abandon_request`. -/
def abandon (s : Rpc) (k : ℕ) : Rpc :=
  if (s.requests k).held ∧ (s.requests k).respond = .idle then s.abandonIfArmed k else s

def dropRequest (s : Rpc) (k : ℕ) : Rpc :=
  if (s.requests k).held ∧ (s.requests k).respond = .idle then
    (s.setRequest k { s.requests k with held := false }).abandonIfArmed k
  else s

/-! ## The actor -/

def takePending (s : Rpc) (id : RequestId) : Option (PendingRequest × Rpc) :=
  match s.pending.find? (fun entry => entry.1 = id) with
  | some (_, entry) =>
    some (entry, { s with
      pending := s.pending.filter fun entry => entry.1 ≠ id
      pendingCount := s.pendingCount - 1 })
  | none => none

def removePending (s : Rpc) (id : RequestId) : Rpc :=
  match s.takePending id with
  | some (entry, s') => s'.dropReply entry.reply
  | none => s

/-- What became of an event the actor emitted: its receiver took it, and the channel of the other events is closed. -/
structure Emission where
  taken : Bool
  closed : Bool
  deriving DecidableEq

/-- `handle_inbound`; the value says whether the loop goes on. -/
def handleInbound (s : Rpc) (message : InboundMessage) (emission : Emission) : Rpc × Bool :=
  match message with
  | .response id result =>
    match s.takePending id with
    | some (entry, s') => (s'.reply entry.reply (.ok result), true)
    | none => (s, !P.policy.isFailClosedExternal && emission.taken)
  | .errorResponse id error =>
    match s.takePending id with
    | some (entry, s') =>
      (s'.reply entry.reply (.error (entry.classifier.classify P.digest entry.method error)), true)
    | none => (s, !P.policy.isFailClosedExternal && emission.taken)
  | .request id method params =>
    if !P.policy.allowsServerRequest method then (s, false)
    else if s.serverPending.length ≥ rpcServerRequestCapacity ∨ id ∈ s.serverPending then (s, false)
    else
      let s' := { s.setRequest s.emitted ⟨id, method, params, .armed, true, .idle, .empty⟩ with
        emitted := s.emitted + 1
        serverPending := id :: s.serverPending }
      if emission.taken then (s', true) else (s'.dropRequest s.emitted, false)
  | .notification method _ =>
    if !P.policy.allowsNotification method then (s, false)
    else (s, emission.taken || !(emission.closed || isAuthoritativeNotification method))

def handleCompletion (s : Rpc) (completion : OutboundCompletion) : Rpc :=
  match completion.result with
  | .ok _ => s
  | .error error =>
    match s.takePending completion.id with
    | some (entry, s') => s'.reply entry.reply (.error error)
    | none => s

/-- One round of the loop in `sweep_pending`. -/
def expire (s : Rpc) (id : RequestId) : Rpc :=
  match s.takePending id with
  | some (entry, s') => s'.reply entry.reply (.error (.timeout entry.method))
  | none => s

/-- The entry is swept: its caller is gone or its deadline is over. -/
def sweeps (s : Rpc) (entry : PendingRequest) : Bool := !(s.calls entry.reply).listens || entry.deadline ≤ s.now

def sweepPending (s : Rpc) : Rpc :=
  ((s.pending.filter fun entry => s.sweeps entry.2).map (·.1)).foldl expire s

/-- The receiver of a pump's queue was dropped, or it is full: `try_send` fails. -/
def pumpRefuses (s : Rpc) (high : Bool) : Bool :=
  (s.pump high).stage = .stopped || (s.pump high).queue.length ≥ capacity high

def pushJob (s : Rpc) (high : Bool) (job : OutboundJob) : Rpc :=
  { s with pump := Function.update s.pump high { s.pump high with queue := (s.pump high).queue ++ [job] } }

/-- `dispatch_command`; the value says whether the loop goes on. -/
def dispatchCommand (s : Rpc) (high : Bool) : RpcCommand → Rpc × Bool
  | .request id method params deadline n classifier =>
    if !(s.calls n).listens then (s.dropReply n, true)
    else if deadline ≤ s.now then (s.reply n (.error (.timeout method)), true)
    else
      let entry : PendingRequest := ⟨method, deadline, n, classifier⟩
      match s.pending.find? (fun entry => entry.1 = id) with
      | some (_, old) =>
        ({ s.dropReply old.reply with pending := (id, entry) :: s.pending.filter fun entry => entry.1 ≠ id }, false)
      | none =>
        let s := { s with pending := (id, entry) :: s.pending, pendingCount := s.pendingCount + 1 }
        if s.pumpRefuses high then (s.removePending id, (s.pump high).stage ≠ .stopped)
        else (s.pushJob high ⟨method, .request id method (some params), deadline, .request id⟩, true)
  | .fire method message response deadline =>
    if deadline ≤ s.now then
      ((s.acknowledge response.lease (.full (.error (.timeout method)))).failActorOwned response.lease, true)
    else if response.id ∉ s.serverPending then
      ((s.acknowledge response.lease (.full (.error .unknownServerRequest))).failActorOwned response.lease, true)
    else
      let s := { s with serverPending := s.serverPending.erase response.id }
      if s.pumpRefuses high then
        ((s.acknowledge response.lease (.full (.error (.connectionLost P.epoch)))).failActorOwned response.lease, false)
      else (s.pushJob high ⟨method, message, deadline, .fire response⟩, true)

/-- `reject_queued` for one command. -/
def rejectQueued (s : Rpc) : RpcCommand → Rpc
  | .request _ _ _ _ n _ => s.reply n (.error (.connectionLost P.epoch))
  | .fire _ _ response _ =>
    (s.acknowledge response.lease (.full (.error (.connectionLost P.epoch)))).failActorOwned response.lease

/-- `fail_all_pending` for one entry. -/
def failPending (s : Rpc) (entry : RequestId × PendingRequest) : Rpc :=
  s.reply entry.2.reply (.error (.connectionLost P.epoch))

/-- What the actor does when it has left its loop, up to the join of the pumps. -/
def leave (s : Rpc) : Rpc :=
  let s := { s with lost := true, cancelled := true, completions := [] }
  let s := { s.pending.foldl (failPending P) s with pending := [], pendingCount := 0 }
  { (s.queue true ++ s.queue false).foldl (rejectQueued P) s with queue := fun _ => [], stage := .stopping }

/-- The loop goes on, or is left. -/
def continueOrLeave : Rpc × Bool → Rpc
  | (s, true) => s
  | (s, false) => s.leave P

/-- `receive_command`: the priority of the next command. -/
def nextCommand (s : Rpc) : Option Bool :=
  let ready (high : Bool) : Bool := (s.pump high).queue.length < capacity high && !(s.queue high).isEmpty
  let preferNormal : Bool := s.highBurst ≥ highPriorityBurst
  if ready !preferNormal then some !preferNormal else if ready preferNormal then some preferNormal else none

/-- The actor takes a command. -/
def command (s : Rpc) : Rpc :=
  match s.nextCommand with
  | none => s
  | some high =>
    match s.queue high with
    | [] => s
    | c :: rest =>
      continueOrLeave P (dispatchCommand P { s with
        queue := Function.update s.queue high rest
        highBurst := if high then s.highBurst + 1 else 0 } high c)

/-! ## Pumps -/

/-- What `send` of the transport says when a pump is polled. -/
inductive SendOutcome where
  | waits
  | queued
  | failed (error : TransportSendError)
  deriving DecidableEq

def setStage (s : Rpc) (high : Bool) (stage : PumpStage) : Rpc :=
  { s with pump := Function.update s.pump high { s.pump high with stage := stage } }

/-- A pump returns, and drops its queue. -/
def stopPump (s : Rpc) (high : Bool) : Rpc :=
  (s.pump high).queue.foldl dropJob { s with pump := Function.update s.pump high ⟨[], .stopped⟩ }

/-- A pump has the result of a job. -/
def finishJob (s : Rpc) (high : Bool) (job : OutboundJob) (result : Except RpcError Unit) : Rpc :=
  match job.completion with
  | .request id => s.setStage high (.reporting ⟨id, result⟩)
  | .fire response =>
    let s := match result with
      | .ok _ => s.resolveActorOwned response.lease
      | .error _ => s.failActorOwned response.lease
    (s.acknowledge response.lease (.full result)).setStage high .receiving

/-- The transport takes the frame of a job. -/
def handFrame (s : Rpc) (high : Bool) (frame : Frame) : Rpc :=
  { s with frames := Function.update s.frames high (s.frames high ++ [frame]) }

def pollPump (s : Rpc) (high : Bool) (outcome : SendOutcome) : Rpc :=
  match (s.pump high).stage with
  | .receiving =>
    if s.cancelled then s.stopPump high
    else
      match (s.pump high).queue with
      | job :: rest => { s with pump := Function.update s.pump high ⟨rest, .sending job⟩ }
      | [] => if s.stage = .running then s else s.stopPump high
  | .sending job =>
    if s.cancelled then s.finishJob high job (.error (.connectionLost P.epoch))
    else if job.deadline ≤ s.now then s.finishJob high job (.error (.timeout job.method))
    else
      match outcome with
      | .waits => s
      | .failed error => s.finishJob high job (.error (mapSendError error job.method P.epoch))
      | .queued =>
        if !s.transportUp then s
        else
          match job.completion with
          | .request _ => (s.handFrame high ⟨job.message, none⟩).finishJob high job (.ok ())
          | .fire response => (s.handFrame high ⟨job.message, some response.lease⟩).setStage high (.confirming job response)
  | .confirming job response =>
    if s.cancelled then s.finishJob high job (.error (.connectionLost P.epoch))
    else if job.deadline ≤ s.now then s.finishJob high job (.error (.timeout job.method))
    else
      match s.confirmed response.lease with
      | some true => s.finishJob high job (.ok ())
      | some false => s.finishJob high job (.error (mapSendError .io job.method P.epoch))
      | none => if s.transportUp then s else s.finishJob high job (.error (mapSendError .closed job.method P.epoch))
  | .reporting completion =>
    if s.cancelled ∨ s.stage ≠ .running then s.stopPump high
    else if s.completions.length < rpcInflightCapacity then
      { s.setStage high .receiving with completions := s.completions ++ [completion] }
    else s
  | .stopped => s

/-! ## Transport -/

/-- Every frame the writer has not begun is dropped. -/
def transportDown (s : Rpc) : Rpc := { s with transportUp := false, frames := fun _ => [] }

/-- The writer writes the next frame of a queue. -/
def write (s : Rpc) (high complete : Bool) : Rpc :=
  match s.transportUp, s.frames high with
  | true, frame :: rest =>
    let s := { s with
      frames := Function.update s.frames high rest
      confirmed := match frame.written with
        | some k => Function.update s.confirmed k (some complete)
        | none => s.confirmed }
    if complete then s else s.transportDown
  | _, _ => s

end Rpc

/-! ## Steps -/

inductive RpcEvent where
  | tick (now : ℕ)
  /-- The token of the epoch is cancelled from outside. -/
  | cancel
  | request (high : Bool) (method : String) (timeout : ℕ) (classifier : ServerErrorClassifier)
  | admitFailed (n : ℕ) (error : Rpc.AdmissionError)
  | admitReady (n : ℕ) (params : Value)
  | poll (n : ℕ) (decodes : Bool)
  | dropCall (n : ℕ)
  | respond (k : ℕ) (answer : Except RpcErrorObject Value)
  | respondFailed (k : ℕ)
  | respondReady (k : ℕ)
  | pollRespond (k : ℕ)
  | dropRespond (k : ℕ)
  | abandon (k : ℕ)
  | dropRequest (k : ℕ)
  | inbound (message : InboundMessage) (emission : Rpc.Emission)
  /-- The transport reports a line that is no message. -/
  | protocolError (emission : Rpc.Emission)
  /-- The transport reports its end, or the actor sees that its token is cancelled. -/
  | ended
  | completion
  | cancelMessage
  | sweep
  | command
  /-- Both pumps are joined and the transport is shut down. -/
  | joined
  | pump (high : Bool) (outcome : Rpc.SendOutcome)
  | write (high complete : Bool)
  | transportDown

open Rpc in
/-- One event. -/
def step (P : RpcParams) (s : Rpc) : RpcEvent → Rpc
  | .tick now => { s with now := max s.now now }
  | .cancel => { s with cancelled := true }
  | .request high method timeout classifier => s.request P high method timeout classifier
  | .admitFailed n error => s.admitFailed P n error
  | .admitReady n params => s.admitReady P n params
  | .poll n decodes => s.poll P n decodes
  | .dropCall n => s.dropCall n
  | .respond k answer => s.respond k answer
  | .respondFailed k => s.respondFailed k
  | .respondReady k => s.respondReady k
  | .pollRespond k => s.pollRespond k
  | .dropRespond k => s.dropRespond k
  | .abandon k => s.abandon k
  | .dropRequest k => s.dropRequest k
  | .inbound message emission =>
    if s.stage = .running then continueOrLeave P (s.handleInbound P message emission) else s
  | .protocolError emission =>
    if s.stage = .running then continueOrLeave P (s, !P.policy.isFailClosedExternal && emission.taken) else s
  | .ended => if s.stage = .running then s.leave P else s
  | .completion =>
    match s.stage, s.completions with
    | .running, c :: rest => { s with completions := rest }.handleCompletion c
    | _, _ => s
  | .cancelMessage =>
    match s.stage, s.cancels with
    | .running, id :: rest => { s with cancels := rest }.removePending id
    | _, _ => s
  | .sweep =>
    if s.stage = .running ∧ s.pending.any (fun entry => entry.2.deadline ≤ s.now) then s.sweepPending else s
  | .command => if s.stage = .running then s.command P else s
  | .joined =>
    if s.stage = .stopping ∧ (s.pump true).stage = .stopped ∧ (s.pump false).stage = .stopped then
      { s.transportDown with stage := .exited }
    else s
  | .pump high outcome => s.pollPump P high outcome
  | .write high complete => s.write high complete
  | .transportDown => s.transportDown

/-- The state after a run of a fresh connection. -/
def after (P : RpcParams) (now : ℕ) (events : List RpcEvent) : Rpc := exec (step P) (initial now) events

end LarkCodexBridge.Codex

import LarkCodexBridge.Channel.Supervise

/-!
# Events of the channel sidecar

The Node process and one session of Rust with the pipes between them. An event of the provider becomes a frame, the
session hands it to a handler, and the answer goes back to the promise that waits for it.

* `Node`: the table of waiting promises, the frame writer, the chain of input frames;
* `Session`: the ids in work, the queue of the worker, its handlers and the write queue;
* `Link.step`: one callback of Node or one poll of a task of Rust.

A timer may fire at any time. `made`, `timedOut`, `seen` and `acked` only record.
-/

namespace LarkCodexBridge.Channel.Events

open Limits StepSystem Supervise

/-! ## Frames -/

/-- Frames of Node; an event carries the number of its id. -/
inductive NodeFrame where
  | hello
  | state (frame : StateFrame)
  | event (id : ℕ) (payload : String)
  /-- The response to the configuration or to the shutdown. -/
  | response

inductive AckResult where
  | ok (data : String)
  | error (code : String)

inductive RustFrame where
  | configure (maxFrameBytes maxInFlight ackTimeoutMs : ℕ)
  | eventAck (id : ℕ) (result : AckResult)
  | shutdown
  | error (code : String)

/-- Lengths of encoded frames, and of a payload that Rust encodes again. -/
structure Encoding where
  node : NodeFrame → ℕ
  rust : RustFrame → ℕ
  payload : String → ℕ

/-- The bounds of `NodeSidecarConfig` that a session reads. -/
structure NodeSidecarConfig where
  maxFrameBytes : ℕ
  eventCapacity : ℕ
  writeCapacity : ℕ
  handlerTimeoutMs : ℕ

/-- `NodeSidecarConfig::validate` on these bounds. -/
structure NodeSidecarConfig.Valid (c : NodeSidecarConfig) : Prop where
  frame : 0 < c.maxFrameBytes ∧ c.maxFrameBytes ≤ channelSidecarFrameBytes
  event : 0 < c.eventCapacity ∧ c.eventCapacity ≤ channelSidecarEventCapacity
  write : 0 < c.writeCapacity ∧ c.writeCapacity ≤ channelSidecarWriteCapacity
  handler : c.handlerTimeoutMs ≤ channelSidecarHandlerTimeout

/-! ## Node -/

def hardMaxFrameBytes : ℕ := 1024 * 1024
def hardMaxInFlight : ℕ := 64
def hardMaxOutboundQueue : ℕ := 128
def maxSafeInteger : ℕ := 2 ^ 53 - 1

structure Node where
  maxFrameBytes : ℕ
  maxInFlight : ℕ
  configured : Bool
  /-- `configure` waits for the SDK. -/
  starting : Bool
  protocolReady : Bool
  shuttingDown : Bool
  terminalExitScheduled : Bool
  sequence : ℕ
  pending : List ℕ
  outbound : List NodeFrame
  writing : Bool
  /-- Written, and not read by Rust. -/
  stdout : List NodeFrame
  /-- Read, and not handled. -/
  inputChain : List RustFrame
  exited : Option ℕ
  made : ℕ
  timedOut : List ℕ

namespace Node

section Functions

variable (enc : Encoding)

def pumpOutbound (n : Node) : Node :=
  if n.writing then n
  else
    match n.outbound with
    | [] => n
    | frame :: rest => { n with writing := true, outbound := rest, stdout := n.stdout ++ [frame] }

/-- `writeFrame`; `none` if it returns false. -/
def writeFrame (n : Node) (frame : NodeFrame) : Option Node :=
  if n.maxFrameBytes < enc.node frame then none
  else if hardMaxOutboundQueue ≤ n.outbound.length then none
  else some { n with outbound := n.outbound ++ [frame] }.pumpOutbound

/-- `nextId`: the number of the new id is then the sequence. -/
def nextId (n : Node) : Node := { n with sequence := (n.sequence + 1) % maxSafeInteger, made := n.made + 1 }

def sendState (n : Node) (frame : StateFrame) : Node :=
  if !n.protocolReady then n else (n.nextId.writeFrame enc (.state frame)).getD n.nextId

def exit (n : Node) (code : ℕ) : Node := { n with exited := some code }

def forwardEvent (n : Node) (payload : String) : Node :=
  if n.shuttingDown then n
  else if n.maxInFlight ≤ n.pending.length then n
  else
    let n := n.nextId
    match { n with pending := n.pending.insert n.sequence }.writeFrame enc (.event n.sequence payload) with
    | some written => written
    | none => { n with pending := n.pending.filter (· ≠ n.sequence) }

/-- `configure` up to its wait. -/
def configure (n : Node) (maxFrameBytes maxInFlight ackTimeoutMs : ℕ) : Node :=
  if n.configured then n.exit 2
  else if maxFrameBytes = 0 ∨ hardMaxFrameBytes < maxFrameBytes ∨ maxInFlight = 0 ∨ hardMaxInFlight < maxInFlight ∨
      ackTimeoutMs = 0 ∨ 5 * 60000 < ackTimeoutMs then n.exit 2
  else { n with maxFrameBytes, maxInFlight, configured := true, starting := true }

/-- The SDK has started, and is in a state. -/
def started (n : Node) (frame : StateFrame) : Node :=
  let n := { n with starting := false }
  match n.writeFrame enc .response with
  | none => n.exit 2
  | some n => { n with protocolReady := true }.sendState enc frame

def handleAck (n : Node) (id : ℕ) (result : AckResult) : Node :=
  match result with
  | .error code =>
    if code.length = 0 ∨ 64 < code.length then n.exit 2
    else if id ∈ n.pending then { n with pending := n.pending.filter (· ≠ id) }
    else n.exit 2
  | .ok _ => if id ∈ n.pending then { n with pending := n.pending.filter (· ≠ id) } else n.exit 2

def stoppedState : StateFrame := ⟨true, "stopped", none, none, false⟩

/-- `shutdown`: every waiting promise is rejected. -/
def shutdown (n : Node) : Node :=
  let n := { n with shuttingDown := true, pending := [] }
  ((n.writeFrame enc .response).getD n).sendState enc stoppedState

def handleFrame (n : Node) (frame : RustFrame) : Node :=
  match frame with
  | .configure maxFrameBytes maxInFlight ackTimeoutMs => n.configure maxFrameBytes maxInFlight ackTimeoutMs
  | .eventAck id result => if n.configured then n.handleAck id result else n.exit 2
  | .shutdown => if n.configured then n.shutdown enc else n.exit 2
  | .error _ => n.exit 2

end Functions

/-- The process after its hello frame. -/
def start (enc : Encoding) : Node :=
  let n : Node := ⟨hardMaxFrameBytes, hardMaxInFlight, false, false, false, false, false, 0, [], [], false, [], [], none,
    0, []⟩
  (n.writeFrame enc .hello).getD n

end Node

/-! ## The session -/

inductive SessionPhase where
  | hello
  | configuring
  | connecting
  | running
  /-- `graceful_shutdown` reads on. -/
  | draining
  /-- Nothing is read; the tasks still run. -/
  | closing
  | over
  deriving DecidableEq

structure Session where
  phase : SessionPhase
  activeIds : List ℕ
  queue : List ℕ
  handlers : List ℕ
  /-- `event_loop` runs. -/
  worker : Bool
  writes : List RustFrame
  /-- `write_loop` runs. -/
  writer : Bool
  /-- Written, and not read by Node. -/
  stdin : List RustFrame
  seen : List ℕ
  acked : List ℕ

inductive HandlerResult where
  | ok (data : String)
  | failed
  | timeout

/-- The answer of `process_event`. -/
def HandlerResult.ack : HandlerResult → AckResult
  | .ok data => .ok data
  | .failed => .error "durable_intake_failed"
  | .timeout => .error "durable_intake_timeout"

namespace Session

section Functions

variable (enc : Encoding) (c : NodeSidecarConfig)

/-- `enqueue`; `none` if it fails. -/
def enqueue (s : Session) (frame : RustFrame) : Option Session :=
  if c.maxFrameBytes < enc.rust frame then none
  else if !s.writer ∨ c.writeCapacity ≤ s.writes.length then none
  else some { s with writes := s.writes ++ [frame] }

/-- An answer is queued. -/
def sendAck (s : Session) (id : ℕ) (result : AckResult) : Option Session :=
  (s.enqueue enc c (.eventAck id result)).map fun s => { s with acked := s.acked ++ [id] }

def abortTasks (s : Session) : Session :=
  { s with phase := .over, activeIds := [], queue := [], handlers := [], worker := false, writes := [], writer := false }

/-- `handle_line` on an event; `none` if it fails. -/
def handleEvent (s : Session) (id : ℕ) (payload : String) : Option Session :=
  if c.maxFrameBytes < enc.payload payload then s.sendAck enc c id (.error "payload_too_large")
  else if id ∈ s.activeIds then none
  else if !s.worker then s.sendAck enc c id (.error "intake_unavailable")
  else if c.eventCapacity ≤ s.queue.length then s.sendAck enc c id (.error "backpressure")
  else some { s with activeIds := s.activeIds ++ [id], queue := s.queue ++ [id] }

/-- `handle_line`: the effect of the frame; `none` if it fails. -/
def handleLine (s : Session) (frame : NodeFrame) : Option (Session × FrameEffect) :=
  match frame with
  | .state frame => frame.publish.toOption.map fun r => (s, r.2)
  | .event id payload => (s.handleEvent enc c id payload).map (·, .continues)
  | .response => none
  | .hello => (s.enqueue enc c (.error "unknown_message")).map (·, .continues)

/-- The bootstrap fails: `cleanup_failed_bootstrap`. -/
def bootstrapLine (s : Session) (frame : NodeFrame) (connected : Session → Session) : Session :=
  match s.handleLine enc c frame with
  | none => s.abortTasks
  | some (s, .failed _) | some (s, .stopped) => s.abortTasks
  | some (s, .connected) => connected s
  | some (s, .continues) | some (s, .disconnected) => s

/-- The event frame of a line is seen. -/
def see (s : Session) (frame : NodeFrame) : Session :=
  match frame with
  | .event id _ => { s with seen := s.seen ++ [id] }
  | _ => s

def line (s : Session) (frame : NodeFrame) : Session :=
  match s.phase with
  | .hello =>
    match frame with
    | .hello =>
      match { s with phase := .configuring }.enqueue enc c
        (.configure c.maxFrameBytes c.eventCapacity (c.handlerTimeoutMs + channelSidecarAckGrace)) with
      | some s => s
      | none => s.abortTasks
    | _ => s.abortTasks
  | .configuring =>
    match frame with
    | .response => { s with phase := .connecting }
    | frame => (s.see frame).bootstrapLine enc c frame id
  | .connecting => (s.see frame).bootstrapLine enc c frame ({ · with phase := .running })
  | .running =>
    match (s.see frame).handleLine enc c frame with
    | none => { s.see frame with phase := .closing }
    -- a failed or stopped state ends the session, and so does an error
    | some (s, .failed _) | some (s, .stopped) => { s with phase := .closing }
    | some (s, .connected) | some (s, .disconnected) | some (s, .continues) => s
  | .draining =>
    match frame with
    | .event id _ => ((s.see frame).sendAck enc c id (.error "shutting_down")).getD (s.see frame)
    | .response => { s with phase := .closing }
    | .hello | .state _ => s
  | .closing | .over => s

/-- A line that is too long. -/
def lineError (s : Session) : Session :=
  match s.phase with
  | .hello | .configuring | .connecting => s.abortTasks
  | .running | .draining => { s with phase := .closing }
  | .closing | .over => s

/-- The worker takes an event. -/
def take (s : Session) : Session :=
  match s.queue with
  | id :: rest =>
    if s.worker && s.handlers.length < c.eventCapacity then { s with queue := rest, handlers := s.handlers ++ [id] }
    else s
  | [] => s

/-- A handler is done; when its answer is not queued the worker ends. -/
def completed (s : Session) (id : ℕ) (result : HandlerResult) : Session :=
  if id ∈ s.handlers then
    match { s with handlers := s.handlers.erase id }.sendAck enc c id result.ack with
    | some s => { s with activeIds := s.activeIds.erase id }
    | none => { s with activeIds := [], queue := [], handlers := [], worker := false }
  else s

def write (s : Session) : Session :=
  match s.writes with
  | frame :: rest => if s.writer then { s with writes := rest, stdin := s.stdin ++ [frame] } else s
  | [] => s

def shutdown (s : Session) : Session :=
  if s.phase = .running then
    match { s with phase := .draining }.enqueue enc c .shutdown with
    | some s => s
    | none => { s with phase := .closing }
  else s

/-- The session ends for another reason: a deadline, the exit of the process, the end of its output. -/
def ends (s : Session) : Session := s.lineError

def new : Session := ⟨.hello, [], [], [], true, [], true, [], [], []⟩

end Functions

end Session

/-! ## Both -/

structure Link where
  node : Node
  rust : Session

inductive Input where
  -- callbacks of Node
  | sdkEvent (payload : String)
  | sdkState (frame : StateFrame)
  | sdkStarted (frame : StateFrame)
  | sdkStartFailed
  | sdkError (fatal : Bool)
  | ackTimeout (id : ℕ)
  | written
  | consume
  | handle
  | finish
  | inputEnd
  -- polls of Rust
  | read
  | take
  | completed (id : ℕ) (result : HandlerResult)
  | write
  | writerFails
  | shutdown
  | ends
  | abort

def failedState (fatal : Bool) : StateFrame := ⟨true, "failed", none, none, fatal⟩

namespace Link

section Steps

variable (enc : Encoding) (c : NodeSidecarConfig)

/-- A callback of a process that has not exited. -/
def nodeStep (s : Link) (input : Input) : Link :=
  match input with
  | .sdkEvent payload => if s.node.configured then { s with node := s.node.forwardEvent enc payload } else s
  | .sdkState frame => if s.node.configured then { s with node := s.node.sendState enc frame } else s
  | .sdkStarted frame => if s.node.starting then { s with node := s.node.started enc frame } else s
  | .sdkStartFailed => if s.node.starting then { s with node := s.node.exit 2 } else s
  | .sdkError fatal =>
    if s.node.configured then
      { s with node := { s.node.sendState enc (failedState fatal) with terminalExitScheduled := true } }
    else s
  | .ackTimeout id =>
    if id ∈ s.node.pending then
      { s with node := { s.node with pending := s.node.pending.filter (· ≠ id), timedOut := s.node.timedOut ++ [id] } }
    else s
  | .written => { s with node := { s.node with writing := false }.pumpOutbound }
  | .consume =>
    match s.rust.stdin with
    | frame :: rest =>
      let s := { s with rust := { s.rust with stdin := rest } }
      if s.node.maxFrameBytes < enc.rust frame then { s with node := s.node.exit 2 }
      else { s with node := { s.node with inputChain := s.node.inputChain ++ [frame] } }
    | [] => s
  | .handle =>
    match s.node.inputChain with
    | frame :: rest =>
      if s.node.starting then s else { s with node := { s.node with inputChain := rest }.handleFrame enc frame }
    | [] => s
  | .finish =>
    if s.node.shuttingDown ∧ s.node.writing = false ∧ s.node.outbound = [] then { s with node := s.node.exit 0 }
    else if s.node.terminalExitScheduled then { s with node := s.node.exit 1 }
    else s
  | .inputEnd =>
    if s.rust.writer = false ∧ s.rust.stdin = [] then { s with node := { s.node with pending := [] }.exit 0 } else s
  | _ => s

/-- A poll of a task of Rust. -/
def rustStep (s : Link) (input : Input) : Link :=
  match input with
  | .read =>
    match s.node.stdout with
    | frame :: rest =>
      if s.rust.phase = .closing ∨ s.rust.phase = .over then s
      else
        { node := { s.node with stdout := rest }
          rust := if c.maxFrameBytes < enc.node frame then s.rust.lineError else s.rust.line enc c frame }
    | [] => s
  | .take => { s with rust := s.rust.take c }
  | .completed id result => { s with rust := s.rust.completed enc c id result }
  | .write => { s with rust := s.rust.write }
  | .writerFails =>
    if s.node.exited.isSome then { s with rust := { s.rust with writes := [], writer := false } } else s
  | .shutdown => { s with rust := s.rust.shutdown enc c }
  | .ends => { s with rust := s.rust.ends }
  | .abort => if s.rust.phase = .closing then { s with rust := s.rust.abortTasks } else s
  | _ => s

def step (s : Link) (input : Input) : Link :=
  (if s.node.exited.isSome then s else s.nodeStep enc input).rustStep enc c input

def start : Link := ⟨.start enc, .new⟩

/-- A run from the spawned process. -/
def after (inputs : List Input) : Link := exec (step enc c) (start enc) inputs

end Steps

end Link

end LarkCodexBridge.Channel.Events

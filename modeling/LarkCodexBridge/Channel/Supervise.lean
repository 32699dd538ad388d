import LarkCodexBridge.Limits
import LarkCodexBridge.Lib.Run

/-!
# The supervisor of the Node channel sidecar

`supervise` with the session it runs, as a machine whose states are the awaits of the task. Between two awaits the task
runs without a break; the clock goes on, a shutdown can be requested and the task can be aborted at each of them. A
deadline may pass at any time.

* `StateFrame.publish`, `handleLine`: what a line of the sidecar does;
* `OwnedChildGroup`: the flags around the one signal to a process group;
* `step`: one reply to what the task waits for; `after`: a run.

Processes are numbered as they are spawned. The `log` and the `history` of a session only record; no step reads them.
-/

namespace LarkCodexBridge.Channel.Supervise

open Limits StepSystem

/-! ## State frames -/

inductive ConnectionState where
  | connecting (attempt : ℕ)
  | connected
  | backoff (attempt delay : ℕ)
  | degraded (reason : String)
  | stopped

/-- The states that nothing follows. -/
def ConnectionState.final : ConnectionState → Bool
  | .degraded _ | .stopped => true
  | _ => false

inductive FrameEffect where
  | continues
  | connected
  | disconnected
  | failed (fatal : Bool)
  | stopped
  deriving DecidableEq

/-- The kinds of error that a start ends in. -/
inductive LarkErrorKind where
  | retryable | protocol | exhausted | permanentAuth
  deriving DecidableEq

/-- A decoded state frame; `header` says that version, type and id are valid. -/
structure StateFrame where
  header : Bool
  state : String
  attempt : Option ℕ
  delayMs : Option ℕ
  fatal : Bool

def StateFrame.publish (frame : StateFrame) : Except LarkErrorKind (ConnectionState × FrameEffect) :=
  let attempt := max (frame.attempt.getD 1) 1
  if !frame.header then .error .protocol
  else
    match frame.state with
    | "connecting" | "reconnecting" => .ok (.connecting attempt, .disconnected)
    | "connected" => .ok (.connected, .connected)
    | "backoff" => .ok (.backoff attempt (frame.delayMs.getD 0), .disconnected)
    | "failed" =>
      .ok (.degraded (if frame.fatal then "node_sidecar_provider_auth_failed" else "node_sidecar_connection_failed"),
        .failed frame.fatal)
    | "stopped" => .ok (.stopped, .stopped)
    | _ => .error .protocol

/-- What becomes of a frame that may need room in the write queue. -/
inductive Room where
  /-- It was taken, or its refusal was queued. -/
  | fits
  | full
  /-- The id of an event is still active. -/
  | active

/-- A line of the sidecar. -/
inductive Line where
  | state (frame : StateFrame)
  | event (room : Room)
  /-- A response to the request the task waits for (`ours`), or to none; `valid` as `ResponseFrame::validate` says. -/
  | response (ours valid : Bool)
  /-- A frame of another type; `hello` if it is a compatible hello frame. -/
  | other (hello : Bool) (room : Room)
  | error
  | malformed

/-- `handle_line`: the state it publishes, if any, and its effect. -/
def handleLine : Line → Except LarkErrorKind (Option ConnectionState × FrameEffect)
  | .state frame => frame.publish.map fun r => (some r.1, r.2)
  | .event .fits | .other _ .fits => .ok (none, .continues)
  | .event .full | .other _ .full => .error .exhausted
  | .event .active | .other _ .active | .response .. | .error | .malformed => .error .protocol

/-! ## The process -/

/-- `try_wait_for_owned_leader_exit_without_reaping` and the process id, at one moment. -/
inductive Probe where
  | running | exited | noPid
  /-- `ECHILD`. -/
  | lost
  | failed
  deriving DecidableEq

inductive LeaderWait where
  | exited | lost | failed
  deriving DecidableEq

/-- How the wait for the leader, and for its group to be empty, ends. -/
inductive Reaped where
  | reaped (groupEmpty : Bool)
  | lost | failed | late

structure OwnedChildGroup where
  number : ℕ
  groupSignalAuthorized : Bool
  identityLost : Bool

/-- A note of what was done. -/
inductive Note where
  | spawned (process : ℕ)
  | killed (process : ℕ)
  | lost (process : ℕ)
  /-- The result of `terminate_and_reap`, or a process that could not be owned. -/
  | reaped (process : ℕ) (confirmed : Bool)
  /-- A fatal failure of the provider was reported. -/
  | fatal
  | startFailed (first : Bool) (error : LarkErrorKind) (cleanupUnconfirmed : Bool)
  /-- A session with this history ended at `time`; the failure counter before and after. -/
  | ended (history : List (ℕ × Bool)) (time before after : ℕ)
  deriving DecidableEq

namespace OwnedChildGroup

/-- Identity lost: no signal any more. -/
def lose (c : OwnedChildGroup) : OwnedChildGroup := { c with groupSignalAuthorized := false, identityLost := true }

/-- The check before the signal. -/
def probe (unix : Bool) (c : OwnedChildGroup) (p : Probe) : OwnedChildGroup :=
  if !unix then c
  else
    match p with
    | .running | .exited => c
    | .noPid | .failed => { c with groupSignalAuthorized := false }
    | .lost => c.lose

def probeNotes (unix : Bool) (c : OwnedChildGroup) (p : Probe) : List Note :=
  if unix && p = .lost then [.lost c.number] else []

/-- The signal, if it is authorized. -/
def kill (c : OwnedChildGroup) : OwnedChildGroup := { c with groupSignalAuthorized := false }

def killNotes (c : OwnedChildGroup) : List Note := if c.groupSignalAuthorized then [.killed c.number] else []

end OwnedChildGroup

/-! ## The task -/

/-- The counters of `run`, and when the session was connected and not. -/
structure Session where
  connectedSince : Option ℕ
  wasHealthy : Bool
  history : List (ℕ × Bool)

/-- What follows the cleanup of a process. -/
inductive After where
  | start (error : LarkErrorKind)
  | crashed (session : Session) (time : ℕ)
  | terminal
  | graceful

/-- Where the task waits. -/
inductive Phase where
  | top
  | hello
  | configure
  | connect
  | running (session : Session)
  /-- `graceful_shutdown`: for the response, and for the leader. -/
  | draining
  | leaving
  /-- `terminate_and_reap` is called, and waits. -/
  | closing (next : After)
  | reaping (next : After)
  | backoff
  | returned
  | aborted

structure Supervisor where
  clock : ℕ
  shutdown : Bool
  /-- The sender of the first start's result is still there. -/
  ready : Bool
  failures : ℕ
  published : ConnectionState
  phase : Phase
  child : Option OwnedChildGroup
  spawns : ℕ
  log : List Note

structure SupervisorParams where
  unix : Bool
  healthyUptime : ℕ
  /-- `AppServerSupervisor::retry_delay` of the failure counter. -/
  retryDelay : ℕ → ℕ

inductive SpawnResult where
  | failed
  /-- The process has no id. -/
  | noPid
  /-- A standard stream is missing. -/
  | noPipes
  | started

inductive Input where
  | pass (time : ℕ)
  | shutdown
  | launch (result : SpawnResult)
  | line (line : Line)
  /-- An oversized or invalid line. -/
  | lineError
  | eof
  | timeout
  /-- The frame that the phase starts with finds no room. -/
  | sendFailed
  | leader (result : LeaderWait)
  | terminate (probe : Probe)
  | waited (result : Reaped)
  | slept
  | abort (probe : Probe)

namespace Session

def new (now : ℕ) : Session := ⟨some now, false, [(now, true)]⟩

/-- `was_healthy |= connected_for(..)`. -/
def update (s : Session) (now healthyUptime : ℕ) : Session :=
  { s with wasHealthy := s.wasHealthy || s.connectedSince.any fun since => healthyUptime ≤ now - since }

def connect (s : Session) (now : ℕ) : Session :=
  { s with connectedSince := some (s.connectedSince.getD now), history := s.history ++ [(now, true)] }

def disconnect (s : Session) (now healthyUptime : ℕ) : Session :=
  { s.update now healthyUptime with connectedSince := none, history := s.history ++ [(now, false)] }

end Session

def nextFailure (failures : ℕ) : ℕ := min (failures + 1) u32Max

namespace Supervisor

def new : Supervisor := ⟨0, false, true, 0, .connecting 1, .top, none, 0, []⟩

section Steps

variable (P : SupervisorParams)

def notes (s : Supervisor) (n : List Note) : Supervisor := { s with log := s.log ++ n }

def stop (s : Supervisor) (state : ConnectionState) : Supervisor := { s with published := state, phase := .returned }

def cleanupUnconfirmed : ConnectionState := .degraded "node_sidecar_cleanup_unconfirmed"

/-- The failure counter goes up and the task sleeps. -/
def retry (s : Supervisor) : Supervisor :=
  { s with
    failures := nextFailure s.failures
    published := .backoff (nextFailure s.failures) (P.retryDelay (nextFailure s.failures))
    phase := .backoff }

/-- `ChildSession::start` fails. -/
def startFailed (s : Supervisor) (error : LarkErrorKind) (unconfirmed : Bool) : Supervisor :=
  let noted := s.notes [.startFailed s.ready error unconfirmed]
  if s.ready then
    { noted with ready := false }.stop
      (if unconfirmed then cleanupUnconfirmed else .degraded "node_sidecar_startup_failed")
  else if unconfirmed then noted.stop cleanupUnconfirmed
  else if error = .permanentAuth then noted.stop (.degraded "node_sidecar_provider_auth_failed")
  else noted.retry P

def cleaned (s : Supervisor) (next : After) (confirmed : Bool) : Supervisor :=
  match next with
  | .start error => s.startFailed P (if confirmed then error else .protocol) (!confirmed)
  | .crashed session time =>
    if confirmed then
      let failures := if session.wasHealthy then 0 else s.failures
      ({ s with failures }.retry P).notes [.ended session.history time s.failures (nextFailure failures)]
    else s.stop cleanupUnconfirmed
  -- the fatal state frame has published its state
  | .terminal => if confirmed then { s with phase := .returned } else s.stop cleanupUnconfirmed
  | .graceful => s.stop (if confirmed then .stopped else cleanupUnconfirmed)

/-- `terminate_and_reap` has its result. -/
def confirm (s : Supervisor) (c : OwnedChildGroup) (next : After) (confirmed : Bool) : Supervisor :=
  ({ s with child := none }.notes [.reaped c.number confirmed]).cleaned P next confirmed

/-- `terminate_and_reap` up to its wait. -/
def terminate (s : Supervisor) (c : OwnedChildGroup) (next : After) (p : Probe) : Supervisor :=
  if c.identityLost then s.confirm P c next false
  else
    let probed := c.probe P.unix p
    let s := s.notes (c.probeNotes P.unix p)
    if probed.identityLost then s.confirm P probed next false
    else { s with child := some probed.kill, phase := .reaping next }.notes probed.killNotes

/-- The wait of `terminate_and_reap` ends. -/
def waited (s : Supervisor) (c : OwnedChildGroup) (next : After) (r : Reaped) : Supervisor :=
  match r with
  | .reaped groupEmpty => s.confirm P c next (!P.unix || groupEmpty)
  | .lost => (s.notes (if P.unix then [.lost c.number] else [])).confirm P c next false
  | .failed | .late => s.confirm P c next false

/-- `wait_leader` returns. -/
def leaderWaited (s : Supervisor) (c : OwnedChildGroup) (r : LeaderWait) : Supervisor :=
  if P.unix && !c.identityLost && r = .lost then { s with child := some c.lose }.notes [.lost c.number] else s

def dropChild (s : Supervisor) (p : Probe) : Supervisor :=
  match s.child with
  | none => { s with phase := .aborted }
  | some c =>
    let s := { s with phase := .aborted, child := none }
    if !c.identityLost && c.groupSignalAuthorized then
      s.notes (c.probeNotes P.unix p ++ (c.probe P.unix p).killNotes)
    else s

/-- The next attempt. -/
def launch (s : Supervisor) (result : SpawnResult) : Supervisor :=
  if s.shutdown then s.stop .stopped
  else
    let s := { s with published := .connecting (nextFailure s.failures) }
    let spawned := { s with spawns := s.spawns + 1 }.notes [.spawned s.spawns]
    match result with
    | .failed => s.startFailed P .retryable false
    | .noPid => (spawned.notes [.reaped s.spawns false]).startFailed P .protocol true
    | .noPipes => { spawned with child := some ⟨s.spawns, true, false⟩, phase := .closing (.start .protocol) }
    | .started => { spawned with child := some ⟨s.spawns, true, false⟩, phase := .hello }

def bootstrapFailed (s : Supervisor) (error : LarkErrorKind) : Supervisor := { s with phase := .closing (.start error) }

/-- A frame publishes its state; a fatal failure is noted. -/
def publish (s : Supervisor) (published : Option ConnectionState) (effect : FrameEffect) : Supervisor :=
  { s with published := published.getD s.published }.notes (if effect = FrameEffect.failed true then [.fatal] else [])

def configureLine (s : Supervisor) (line : Line) : Supervisor :=
  match line with
  | .response true valid => if valid then { s with phase := .connect } else s.bootstrapFailed .protocol
  | line =>
    match handleLine line with
    | .error error => s.bootstrapFailed error
    | .ok (published, effect) =>
      match effect with
      | .failed _ | .stopped => (s.publish published effect).bootstrapFailed .retryable
      | .continues | .connected | .disconnected => s.publish published effect

def connectLine (s : Supervisor) (line : Line) : Supervisor :=
  match handleLine line with
  | .error error => s.bootstrapFailed error
  | .ok (published, effect) =>
    match effect with
    | .connected =>
      -- the first start has succeeded
      { s.publish published effect with ready := false, phase := .running (.new s.clock) }
    | .failed true => (s.publish published effect).bootstrapFailed .permanentAuth
    | .failed false | .stopped => (s.publish published effect).bootstrapFailed .retryable
    | .continues | .disconnected => s.publish published effect

def runningLine (s : Supervisor) (session : Session) (line : Line) : Supervisor :=
  match handleLine line with
  -- the health of the session is not updated here
  | .error _ => { s with phase := .closing (.crashed session s.clock) }
  | .ok (published, effect) =>
    match effect with
    | .connected => { s.publish published effect with phase := .running (session.connect s.clock) }
    | .failed true => { s.publish published effect with phase := .closing .terminal }
    | .disconnected | .failed false | .stopped =>
      let session := session.disconnect s.clock P.healthyUptime
      let s := s.publish published effect
      if s.published.final then { s with phase := .closing (.crashed session s.clock) }
      else { s with phase := .running session }
    | .continues => s.publish published effect

/-- A running session ends, with its health updated. -/
def crash (s : Supervisor) (session : Session) : Supervisor :=
  { s with phase := .closing (.crashed (session.update s.clock P.healthyUptime) s.clock) }

def bootstrapReply (s : Supervisor) (read : Line → Supervisor) (input : Input) : Supervisor :=
  match input with
  | .line line => read line
  | .lineError => s.bootstrapFailed .protocol
  | .eof | .timeout => s.bootstrapFailed .retryable
  | _ => s

def helloLine (s : Supervisor) (line : Line) : Supervisor :=
  match line with
  | .other true _ => { s with phase := .configure }
  | _ => s.bootstrapFailed .protocol

/-- A running session, unless a shutdown is requested. -/
def runningReply (s : Supervisor) (session : Session) (input : Input) : Supervisor :=
  match s.child, input with
  | _, .line line => s.runningLine P session line
  | _, .lineError | _, .eof => s.crash P session
  | some c, .leader result => (s.leaderWaited P c result).crash P session
  | _, _ => s

/-- The wait for the response to the shutdown. -/
def drainingReply (s : Supervisor) (input : Input) : Supervisor :=
  match input with
  | .line (.response true _) | .line .malformed | .lineError | .eof | .timeout | .sendFailed =>
    { s with phase := .leaving }
  | _ => s

/-- The reply to what the task waits for; other inputs change nothing. -/
def reply (s : Supervisor) (input : Input) : Supervisor :=
  match s.phase with
  | .top =>
    match input with
    | .launch result => s.launch P result
    | _ => s
  | .hello => s.bootstrapReply s.helloLine input
  | .configure =>
    match input with
    | .sendFailed => s.bootstrapFailed .exhausted
    | input => s.bootstrapReply s.configureLine input
  | .connect =>
    match s.child, input with
    | some c, .leader result => (s.leaderWaited P c result).bootstrapFailed .retryable
    | _, input => s.bootstrapReply s.connectLine input
  -- the shutdown is polled first
  | .running session => if s.shutdown then { s with phase := .draining } else s.runningReply P session input
  | .draining => s.drainingReply input
  | .leaving =>
    match s.child, input with
    | some c, .leader result => { s.leaderWaited P c result with phase := .closing .graceful }
    | _, .timeout => { s with phase := .closing .graceful }
    | _, _ => s
  | .closing next =>
    match s.child, input with
    | some c, .terminate p => s.terminate P c next p
    | _, _ => s
  | .reaping next =>
    match s.child, input with
    | some c, .waited result => s.waited P c next result
    | _, _ => s
  | .backoff =>
    match input with
    | .slept => { s with phase := .top }
    | .timeout => if s.shutdown then s.stop .stopped else s
    | _ => s
  | .returned | .aborted => s

def step (s : Supervisor) (input : Input) : Supervisor :=
  match input with
  | .pass time => { s with clock := s.clock + time }
  | .shutdown => { s with shutdown := true }
  | .abort p =>
    match s.phase with
    | .returned | .aborted => s
    | _ => s.dropChild P p
  | input => s.reply P input

/-- A run from the start. -/
def after (inputs : List Input) : Supervisor := exec (step P) new inputs

end Steps

end Supervisor

end LarkCodexBridge.Channel.Supervise

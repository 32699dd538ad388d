import LarkCodexBridge.Codex.Protocol
import LarkCodexBridge.Lib.Run

/-!
# The owner of the app-server process

`run_supervisor` with its helpers, as a machine whose states are the awaits of the task. Between two awaits the task runs
without a break, and the token can be cancelled at each of them.

* `Point`: where the task waits, with what it still has to do;
* `step`: one reply to what the task waits for, or the request to shut down; `after`: a run.

Processes are numbered as the factory is asked for them. The `log` keeps what was asked of the factory and the processes,
and the epochs given to connections; no step reads it.
-/

namespace LarkCodexBridge.Codex

open Limits StepSystem

/-! ## Failures -/

inductive SidecarBootstrapFailure where
  | invalidConfiguration | pinnedCodexMissing | versionProbeSpawnFailed | versionProbeSpawnUnavailable
  | versionProbeTimeout | versionProbeIo | versionProbeFailed | versionOutputTooLarge | unsupportedUpstreamVersion
  | upstreamSpawnFailed | upstreamSpawnUnavailable | sidecarFailed
  deriving DecidableEq

/-- `ProcessError`; `retryable` is what the operating system's error says of itself. -/
inductive ProcessError where
  | invalidCodexHome
  | spawn (retryable : Bool)
  | sidecarSpawn (retryable : Bool)
  | probeTimeout
  | probeFailed (code : Option ℤ)
  | versionOutputTooLong (maximum : ℕ)
  | probeIo
  | invalidVersionOutput
  | unsupportedVersion (found : String)
  | invalidSidecarConfig
  | sidecarHandshakeTimeout
  | sidecarBootstrapIo
  | processTreeCleanupUnconfirmed
  | sidecarBootstrapRejected (failure : SidecarBootstrapFailure)
  | sidecarProtocol
  | unsupportedSidecarVersion (found : String)
  | stdioAlreadyTaken
  | stdioUnavailable
  | missingProcessId
  | wait
  | terminate
  deriving DecidableEq

inductive SupervisorError where
  | notReady | stopped | taskFailed | cleanupFailed

def cleanupFailedReason : String := "Codex process cleanup failed; replacement is fenced until bridge restart"

def oneShotStartFailedReason : String :=
  "Codex one-shot app-server failed before readiness; automatic restart is disabled"

def supportedCodexVersions : List String := ["0.146.0", "0.149.0"]

/-- An exit code as `Debug` prints it. -/
def debugCode : Option ℤ → String
  | some code => "Some(" ++ toString code ++ ")"
  | none => "None"

def permanentSidecarBootstrapReason : SidecarBootstrapFailure → Option String
  | .invalidConfiguration => some "Codex protocol sidecar rejected its bootstrap configuration"
  | .pinnedCodexMissing => some "the package-lock-pinned Codex sidecar artifact is unavailable"
  | .versionProbeSpawnFailed => some "unable to run the configured Codex binary for sidecar version probing"
  | .versionProbeFailed => some "the configured Codex binary failed its exact sidecar version probe"
  | .versionOutputTooLarge => some "the configured Codex version output exceeded the sidecar bound"
  | .unsupportedUpstreamVersion => some "the configured Codex version has no reviewed sidecar adapter"
  | .upstreamSpawnFailed => some "unable to start the configured Codex app-server through the sidecar"
  | .sidecarFailed => some "Codex protocol sidecar bootstrap failed closed"
  | .versionProbeSpawnUnavailable | .versionProbeTimeout | .versionProbeIo | .upstreamSpawnUnavailable => none

def permanentProcessReason : ProcessError → Option String
  | .invalidCodexHome => some "configured Codex home must be an existing directory"
  | .spawn retryable => if retryable then none else some "unable to run Codex binary"
  | .sidecarSpawn retryable => if retryable then none else some "unable to run Codex protocol sidecar"
  | .probeFailed code => some ("Codex version probe exited unsuccessfully (code: " ++ debugCode code ++ ")")
  | .versionOutputTooLong maximum =>
    some ("Codex version output exceeded the " ++ toString maximum ++ "-byte limit")
  | .invalidVersionOutput => some "Codex version output must exactly match `codex-cli X.Y.Z`"
  | .unsupportedVersion found => some ("Codex " ++ found ++ " is unsupported; expected an exact reviewed version (" ++
      ", ".intercalate supportedCodexVersions ++ ")")
  | .invalidSidecarConfig => some "configured Codex protocol sidecar is invalid"
  | .sidecarBootstrapRejected failure => permanentSidecarBootstrapReason failure
  | .sidecarProtocol => some "Codex protocol sidecar negotiation failed closed"
  | .processTreeCleanupUnconfirmed | .missingProcessId => some cleanupFailedReason
  | .unsupportedSidecarVersion found => some ("Codex " ++ found ++ " has no reviewed sidecar adapter")
  | .probeTimeout | .sidecarHandshakeTimeout | .sidecarBootstrapIo | .probeIo | .wait | .terminate => none
  | .stdioAlreadyTaken | .stdioUnavailable => some "Codex app-server process contract is unavailable"

def permanentRpcReason : RpcError → Option String
  | .server _ code =>
    if code ∈ [-32700, -32600, -32601, -32602] then
      some ("app-server rejected the initialize contract (server code " ++ toString code ++
        "); check the exact Codex version and local configuration")
    else none
  | .timeout _ | .connectionLost _ | .threadResumeActiveWriter => none
  | .alreadyInitialized | .serialize _ | .deserialize _ | .payloadTooLarge _ | .unknownServerRequest
  | .requestIdExhausted => some "app-server initialize violated the local RPC contract"

/-- A spawn that leaves the bootstrap's processes unaccounted for. -/
def ProcessError.cleanupUnconfirmed : ProcessError → Bool
  | .processTreeCleanupUnconfirmed | .missingProcessId => true
  | _ => false

def startFailureOutcome (error : ProcessError) : Except SupervisorError Unit :=
  if error.cleanupUnconfirmed then .error .cleanupFailed else .ok ()

/-! ## State -/

inductive RestartPolicy where
  | always | never

/-- A process of the factory, as `connect_epoch` asks it. -/
structure AppServerProcess where
  version : String
  wireAdapter : Bool
  protocol : String
  stdio : Except ProcessError Unit
  deriving DecidableEq

structure PeerInfo where
  userAgent : String
  platformFamily : String
  platformOs : String
  deriving DecidableEq

/-- What `initialize` answers; `profile` is the identity of its Codex home. -/
structure InitializeResult where
  profile : String
  peer : PeerInfo
  deriving DecidableEq

inductive SupervisorState where
  | starting (epoch : ℕ)
  | ready (epoch : ℕ) (version : String) (peer : PeerInfo) (protocol : String)
  | backoff (epoch attempt delay : ℕ)
  | degraded (reason : String)
  | stopped

/-- `ReadyEpochAccess`; `client` is the epoch of its connection. -/
structure ReadyEpochAccess where
  client : ℕ
  profileIdentity : String

/-- Why a process is terminated. -/
inductive Cleanup where
  /-- The shutdown came while it was spawned. -/
  | spawnCancelled
  | startFailed (permanent : Option String)
  | graceful
  | exited

/-- Where the task waits. -/
inductive Point where
  | created
  | backoff
  | yielding
  | spawning
  /-- `stop_after_start_failure` waits for the shutdown. -/
  | degraded (outcome : Except SupervisorError Unit)
  | initializing (process : AppServerProcess)
  /-- The connection goes down after a failed `initialize`. -/
  | closing (permanent : Option String)
  | running
  /-- The client of an epoch that ends gracefully goes down. -/
  | stoppingClient
  | terminating (cleanup : Cleanup)
  /-- The client goes down after its process; `ok` if that was terminated. -/
  | closingClient (ok : Bool)
  /-- A cleanup has failed, and the task waits for the shutdown. -/
  | cleanupFailed
  | ended (outcome : Except SupervisorError Unit)

inductive SupervisorNote where
  /-- The factory is asked for process `k`. -/
  | spawn (k : ℕ)
  | process (k : ℕ)
  /-- The bootstrap of process `k` failed, and its cleanup is unconfirmed. -/
  | unconfirmed (k : ℕ)
  | terminated (k : ℕ) (ok : Bool)
  /-- A connection got its epoch. -/
  | connection (epoch : ℕ)

structure Supervisor where
  cancelled : Bool
  epoch : ℕ
  attempt : ℕ
  point : Point
  /-- The lifecycle state that was published last. -/
  state : SupervisorState
  readySlot : Option ReadyEpochAccess
  spawns : ℕ
  log : List SupervisorNote

structure SupervisorParams where
  restartPolicy : RestartPolicy
  /-- `SupervisorSettings::retry_delay`, in milliseconds. -/
  retryDelay : ℕ → ℕ → ℕ

namespace Supervisor

def new : Supervisor := ⟨false, 0, 0, .created, .starting 0, none, 0, []⟩

variable (P : SupervisorParams)

/-- `u64::saturating_add(1)`, and the same for `u32`. -/
def nextEpoch (epoch : ℕ) : ℕ := min (epoch + 1) u64Max
def nextAttempt (attempt : ℕ) : ℕ := min (attempt + 1) u32Max

/-! ## The loop -/

/-- The loop is left. -/
def finish (s : Supervisor) (outcome : Except SupervisorError Unit) : Supervisor :=
  { s with readySlot := none, state := .stopped, point := .ended outcome }

/-- The loop behind its back-off, up to `yield_now`. -/
def begin (s : Supervisor) : Supervisor :=
  if s.cancelled then s.finish (.ok ())
  else { s with epoch := nextEpoch s.epoch, state := .starting (nextEpoch s.epoch), point := .yielding }

def loopTop (s : Supervisor) : Supervisor :=
  if s.attempt > 0 then
    { s with
      state := .backoff (nextEpoch s.epoch) s.attempt (P.retryDelay (nextEpoch s.epoch) s.attempt)
      point := .backoff }
  else s.begin

def retry (s : Supervisor) : Supervisor := { s with attempt := nextAttempt s.attempt }.loopTop P

/-- `stop_after_start_failure`, and the break or the retry behind it. -/
def stopAfterStartFailure (s : Supervisor) (permanent : Option String) (outcome : Except SupervisorError Unit) :
    Supervisor :=
  match permanent, P.restartPolicy with
  | some reason, _ => { s with state := .degraded reason, point := .degraded outcome }
  | none, .never => { s with state := .degraded oneShotStartFailedReason, point := .degraded outcome }
  | none, .always => s.retry P

/-- `cleanup_owned_process` after its `terminate` has failed. -/
def publishCleanupFailure (s : Supervisor) : Supervisor := { s with state := .degraded cleanupFailedReason }

/-! ## One epoch -/

/-- `connect_epoch` up to its first wait. -/
def connect (s : Supervisor) (process : AppServerProcess) : Supervisor :=
  if !process.wireAdapter then
    { s with point := .terminating (.startFailed (some ("Codex " ++ process.version ++
        " has no promoted wire compatibility adapter"))) }
  else
    match process.stdio with
    | .error error => { s with point := .terminating (.startFailed (permanentProcessReason error)) }
    | .ok _ => { s with point := .initializing process, log := s.log ++ [.connection s.epoch] }

/-- The factory has answered. -/
def spawned (s : Supervisor) : Except ProcessError AppServerProcess → Supervisor
  | .error error =>
    let s : Supervisor := if error.cleanupUnconfirmed then { s with log := s.log ++ [.unconfirmed s.spawns] } else s
    if s.cancelled then s.finish (startFailureOutcome error)
    else s.stopAfterStartFailure P (permanentProcessReason error) (startFailureOutcome error)
  | .ok process =>
    let s : Supervisor := { s with log := s.log ++ [.process s.spawns] }
    if s.cancelled then { s with point := .terminating .spawnCancelled } else s.connect process

def activateReadyEpoch (s : Supervisor) (process : AppServerProcess) (result : InitializeResult) : Supervisor :=
  { s with
    attempt := 0
    readySlot := some ⟨s.epoch, result.profile⟩
    state := .ready s.epoch process.version result.peer process.protocol
    point := .running }

/-- `initialize` has answered. -/
def initialized (s : Supervisor) (process : AppServerProcess) : Except RpcError InitializeResult → Supervisor
  | .ok result => s.activateReadyEpoch process result
  | .error error => { s with point := .closing (permanentRpcReason error) }

/-- The select of `finish_running_epoch`: the shutdown goes first. -/
def leaveRunning (s : Supervisor) : Supervisor :=
  { s with readySlot := none, point := if s.cancelled then .stoppingClient else .terminating .exited }

/-- A process is terminated, or could not be. -/
def terminated (s : Supervisor) (cleanup : Cleanup) (ok : Bool) : Supervisor :=
  let s : Supervisor := { s with log := s.log ++ [.terminated s.spawns ok] }
  match cleanup, ok with
  | .exited, true => { s with point := .closingClient true }
  | .exited, false => { s.publishCleanupFailure with point := .closingClient false }
  | _, false => { s.publishCleanupFailure with point := .cleanupFailed }
  | .startFailed permanent, true => s.stopAfterStartFailure P permanent (.ok ())
  | .spawnCancelled, true | .graceful, true => s.finish (.ok ())

/-- The client of an exited process is down. -/
def clientClosed (s : Supervisor) : Bool → Supervisor
  | false => { s with point := .cleanupFailed }
  | true =>
    match P.restartPolicy with
    | .never => s.finish (.ok ())
    | .always => s.retry P

end Supervisor

/-! ## Steps -/

inductive SupervisorEvent where
  | shutdown
  /-- The task is polled for the first time, its delay is over, or its `yield_now`. -/
  | started
  | slept
  | yielded
  | spawned (result : Except ProcessError AppServerProcess)
  | initialized (result : Except RpcError InitializeResult)
  /-- The connection, or the client, is down. -/
  | connectionDown
  | exited
  | terminated (ok : Bool)
  /-- The task sees that its token is cancelled. -/
  | observed
  deriving DecidableEq

namespace Supervisor

variable (P : SupervisorParams)

/-- One event. -/
def step (s : Supervisor) (e : SupervisorEvent) : Supervisor :=
  match s.point, e with
  | _, .shutdown => { s with cancelled := true }
  | .created, .started => s.loopTop P
  | .backoff, .slept | .backoff, .observed => if s.cancelled then s.finish (.ok ()) else if e = .slept then s.begin else s
  | .yielding, .yielded =>
    { s with point := .spawning, spawns := s.spawns + 1, log := s.log ++ [.spawn (s.spawns + 1)] }
  | .spawning, .spawned result => s.spawned P result
  | .degraded outcome, .observed => if s.cancelled then s.finish outcome else s
  | .initializing process, .initialized result => s.initialized process result
  | .closing permanent, .connectionDown => { s with point := .terminating (.startFailed permanent) }
  | .running, .exited => s.leaveRunning
  | .running, .observed => if s.cancelled then s.leaveRunning else s
  | .stoppingClient, .connectionDown => { s with point := .terminating .graceful }
  | .terminating cleanup, .terminated ok => s.terminated P cleanup ok
  | .closingClient ok, .connectionDown => s.clientClosed P ok
  | .cleanupFailed, .observed => if s.cancelled then s.finish (.error .cleanupFailed) else s
  | _, _ => s

/-- The state after a run of the task. -/
def after (events : List SupervisorEvent) : Supervisor := exec (step P) new events

end Supervisor

end LarkCodexBridge.Codex

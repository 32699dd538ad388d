import LarkCodexBridge.Runtime.System

/-!
# A scope actor on its own

One scope actor with its mailbox, and an environment that answers everything it waits for. Next to the actor the state has
what its loop keeps outside of `Actor`: the running turn that commands can interrupt (`active_turn`), the calls of
`interrupt_turn`, and the requests `turn/start` with what is known of their results.

* `Uninterrupted.step`: the register is set only while the loop waits for events of the turn, so a command, which runs
  between turns, finds no turn to interrupt;
* `stop_never_reaches_turn`.
-/

namespace LarkCodexBridge.Runtime

open Limits Lark Store StepSystem

structure ActiveTurn where
  turnRowId : ℕ
  turnId : String
  deriving DecidableEq

/-- A request `turn/start` for a thread that the bridge created. It is settled by a server error, by a completion, where it
was never written, and with the end of its epoch. -/
structure SentTurn where
  thread : Option String
  epoch : ℕ
  settled : Bool
  deriving DecidableEq

structure ScopeTask where
  actor : Actor
  live : Live
  supervisor : SupervisorAccess
  activeTurn : Option ActiveTurn
  interrupts : List ActiveTurn
  /-- The thread of the turn that is prepared or runs. -/
  thread : Option String
  /-- The latest request first. -/
  sent : List SentTurn

inductive TaskEvent where
  /-- The router puts a command into the mailbox. -/
  | route (command : ScopeCommand)
  /-- The store answers the actor. -/
  | store (reply : Except StoreError OpReply)
  /-- The actor goes on. -/
  | go (env : Env)
  | supervise (access : SupervisorAccess)
  /-- Another actor changes the live configuration. -/
  | configure (live : Live)
  /-- The shutdown token is set. -/
  | cancel

/-- The command has interrupted the active turn: `/new` and `/stop` when they start, `/cd` and `/resume` on their way. -/
def Actor.interruptsActive (a : Actor) (o : Outcome) (answer : Answer) : Bool :=
  (o.log.any fun entry => match entry with
    | .executed _ command => command = .new ∨ command = .stop
    | _ => false) ||
  match a.pc, answer with
  | .executing _, .executed cleared => cleared
  | _, _ => false

/-- `set_active_turn`, before and after the loop over the events of a turn. -/
def activeTurnAfter (pc pc' : ActorPc) (active : Option ActiveTurn) : Option ActiveTurn :=
  match pc, pc' with
  | .markRunning t turnId, .running _ => some ⟨t.turnRowId, turnId⟩
  | .running _, .running _ => active
  | .running _, _ => none
  | _, _ => active

/-- The thread that the claimed turn is recorded with. -/
def threadAfter (pc : ActorPc) (thread : Option String) : Option String :=
  match pc with
  | .claiming _ _ _ turn _ => turn.codexThreadId
  | _ => thread

def settleLatest : List SentTurn → List SentTurn
  | [] => []
  | r :: rest => { r with settled := true } :: rest

/-- The requests after a step: one is sent on the way to `starting`, and it is settled where the turn is finalized without
an unknown result. -/
def sentAfter (pc pc' : ActorPc) (thread : Option String) (sent : List SentTurn) : List SentTurn :=
  match pc, pc' with
  | .assembling t, .starting _ => if t.adopted then sent else ⟨thread, t.epoch, false⟩ :: sent
  | .starting t, .finalizing _ _ false | .running t, .finalizing _ _ false =>
    if t.adopted then sent else settleLatest sent
  | _, _ => sent

/-- The requests of epochs that are over are settled. -/
def SentTurn.closeEnded (access : SupervisorAccess) (r : SentTurn) : SentTurn :=
  if access.client ∧ access.epoch = r.epoch then r else { r with settled := true }

namespace ScopeTask

variable (tenant : TenantNamespace)

/-- The actor goes on with what its loop keeps next to it. -/
def go (s : ScopeTask) (env : Env) : ScopeTask :=
  let o := s.actor.run tenant ⟨s.live, s.supervisor, env⟩
  { s with
    actor := o.actor
    live := o.live
    activeTurn := activeTurnAfter s.actor.pc o.actor.pc s.activeTurn
    interrupts := if s.actor.interruptsActive o env.answer then s.interrupts ++ s.activeTurn.toList else s.interrupts
    thread := threadAfter s.actor.pc s.thread
    sent := (sentAfter s.actor.pc o.actor.pc s.thread s.sent).map (·.closeEnded s.supervisor) }

/-- One event. -/
def step (s : ScopeTask) : TaskEvent → ScopeTask
  | .route command =>
    if s.actor.pc = .ended ∨ s.actor.mailbox.length ≥ scopeMailboxCapacity then s
    else { s with actor := { s.actor with mailbox := s.actor.mailbox ++ [command] } }
  | .store reply =>
    match s.actor.pc.op tenant, s.actor.answer with
    | some _, none => { s with actor := { s.actor with answer := some reply } }
    | _, _ => s
  | .go env => s.go tenant env
  | .supervise access => { s with supervisor := access, sent := s.sent.map (·.closeEnded access) }
  | .configure live => { s with live := live }
  | .cancel =>
    { s with actor := { s.actor with cancelled := true, pendingMedia := s.actor.pendingMedia.clear } }

/-- A new actor. -/
def spawn (scope : ScopeKey) (live : Live) (supervisor : SupervisorAccess) : ScopeTask :=
  ⟨.spawn scope live.inner.settings, live, supervisor, none, [], none, []⟩

variable {tenant} {a : Actor} {x : Ctx} {t : TurnTask} {s : ScopeTask}

/-! ## The register of the active turn -/

/-- The register is set only while the actor waits for the events of the turn. -/
theorem activeTurnAfter_running {pc pc' : ActorPc} {active : Option ActiveTurn}
    (h : active ≠ none → ∃ t, pc = .running t) : activeTurnAfter pc pc' active ≠ none → ∃ t, pc' = .running t := by
  intro hne
  unfold activeTurnAfter at hne
  split at hne
  · exact ⟨_, rfl⟩
  · exact ⟨_, rfl⟩
  · exact absurd rfl hne
  · next hother _ _ =>
    obtain ⟨t, rfl⟩ := h hne
    exact absurd rfl (hother t)

/-- A step that waits for the events of a turn runs no command. -/
theorem run_running (h : a.pc = .running t) : (a.run tenant x).log = [] := by
  unfold Actor.run
  rw [h]
  simp only [ActorPc.op]
  split
  · rfl
  · unfold Actor.awaited
    rw [h]
    simp only [Actor.onRunning]
    split <;> rfl

theorem interruptsActive_running {answer : Answer} (h : a.pc = .running t) :
    a.interruptsActive (a.run tenant x) answer = false := by
  unfold Actor.interruptsActive
  rw [run_running h, h]
  rfl

/-- The register and the loop agree, and nothing has been interrupted. -/
structure Uninterrupted (s : ScopeTask) : Prop where
  register : s.activeTurn ≠ none → ∃ t, s.actor.pc = .running t
  interrupts : s.interrupts = []

theorem Uninterrupted.go (h : Uninterrupted s) (env : Env) : Uninterrupted (s.go tenant env) := by
  refine ⟨activeTurnAfter_running h.register, ?_⟩
  unfold ScopeTask.go
  dsimp only
  by_cases hactive : s.activeTurn = none
  · rw [hactive, h.interrupts]
    simp
  · obtain ⟨t, ht⟩ := h.register hactive
    rw [interruptsActive_running ht, h.interrupts]
    rfl

theorem Uninterrupted.step (h : Uninterrupted s) (e : TaskEvent) : Uninterrupted (s.step tenant e) := by
  cases e with
  | route command =>
    unfold ScopeTask.step
    dsimp only
    split
    · exact h
    · exact ⟨h.register, h.interrupts⟩
  | store reply =>
    unfold ScopeTask.step
    dsimp only
    split
    · exact ⟨h.register, h.interrupts⟩
    · exact h
  | go env => exact h.go env
  | supervise access | configure live | cancel => exact ⟨h.register, h.interrupts⟩

/-- **No command interrupts a turn**, in any run: commands wait for the loop that the turn is in. -/
theorem no_command_interrupts (tenant : TenantNamespace) (scope : ScopeKey) (live : Live) (supervisor : SupervisorAccess)
    (es : List TaskEvent) : (exec (step tenant) (spawn scope live supervisor) es).interrupts = [] :=
  (exec_invariant' (fun s e (h : Uninterrupted s) => h.step e) ⟨fun h => absurd rfl h, rfl⟩).interrupts

/-! ## Stop requests -/

/-- A `/stop` or `/new` of the scope is accepted and has not run yet. -/
def StopAccepted (s : ScopeTask) : Prop :=
  ∃ inbound command, (command = .stop ∨ command = .new) ∧
    (.control ⟨inbound, .command command⟩ ∈ s.actor.mailbox ∨
      s.actor.deferred = some (.control ⟨inbound, .command command⟩))

/-- No message comes, and no event of the turn. -/
def TaskEvent.isOwn : TaskEvent → Prop
  | .route _ => False
  | .go env => ∀ resolution, env.answer ≠ .turnEnded resolution
  | .store _ | .supervise _ | .configure _ | .cancel => True

/-- Some steps of the bridge on its own interrupt the turn. -/
def StopReaches (tenant : TenantNamespace) (s : ScopeTask) (t : ActiveTurn) : Prop :=
  ∃ es, (∀ e ∈ es, TaskEvent.isOwn e) ∧ t ∈ (exec (step tenant) s es).interrupts.drop s.interrupts.length

/-- **A stop request never reaches the running turn**: in no reachable state with a running turn and an accepted request do
any steps of the bridge interrupt the turn. -/
theorem stop_never_reaches_turn (tenant : TenantNamespace) (scope : ScopeKey) (live : Live) (supervisor : SupervisorAccess)
    (es : List TaskEvent) (t : ActiveTurn)
    (_hrunning : (exec (step tenant) (spawn scope live supervisor) es).activeTurn = some t)
    (_hstop : StopAccepted (exec (step tenant) (spawn scope live supervisor) es)) :
    ¬StopReaches tenant (exec (step tenant) (spawn scope live supervisor) es) t := by
  rintro ⟨own, -, ht⟩
  have hnone := no_command_interrupts tenant scope live supervisor (es ++ own)
  rw [exec_append] at hnone
  rw [hnone] at ht
  cases List.mem_of_mem_drop ht

/-! ### A turn that `/stop` does not reach -/

def scopeTaskAfter (es : List TaskEvent) : ScopeTask :=
  exec (step sampleTenant) (spawn (.chat "oc_1") ⟨[], sampleInner⟩ ⟨1, true, false⟩) es

def goes (answer : Answer) (notice : Option NewOutboxRow := none) : TaskEvent :=
  .go ⟨answer, 2000, 0, notice, ⟨some ⟨["/work"], "/work"⟩, true⟩⟩

def turnMessage : InboundEvent := directMessage "evt_1" "om_1" "oc_1" "ou_1" "hello"

def stopMessage : InboundEvent := directMessage "evt_2" "om_2" "oc_1" "ou_1" "/stop"

/-- A direct message is collected, claimed and assembled for a turn. -/
def assembledRun : List TaskEvent :=
  [goes .next, goes .next, .route (.inbound ⟨turnMessage, 0⟩)] ++
  [.message, .timer, .adoption (some none), .mapping (some none), .next, .permit, .mapping (some none),
    .workspace (.ok false), .next, .thread (.ok "thread_1"), .subscribed (.ok "client_1")].map (goes ·) ++
  [.store (.ok (.begun (.started 1 [⟨⟨sampleTenant, "evt_1"⟩, ⟨turnMessage, 1⟩⟩] []))), goes .next]

def runningRun : List TaskEvent :=
  assembledRun ++ [goes (.assembled true), goes (.start (.started "turn_1" true)), .store (.ok .done), goes .next]

/-- While it runs, the owner sends `/stop`. -/
def stopRun : List TaskEvent := runningRun ++ [.route (.control ⟨⟨stopMessage, 0⟩, .command .stop⟩)]

theorem stopRun_running : (scopeTaskAfter stopRun).activeTurn = some ⟨1, "turn_1"⟩ := by decide

theorem stopRun_accepted : StopAccepted (scopeTaskAfter stopRun) :=
  ⟨⟨stopMessage, 0⟩, .stop, .inl rfl, .inl (by decide)⟩

theorem stop_never_reaches_turn_stopRun : ¬StopReaches sampleTenant (scopeTaskAfter stopRun) ⟨1, "turn_1"⟩ :=
  stop_never_reaches_turn sampleTenant (.chat "oc_1") ⟨[], sampleInner⟩ ⟨1, true, false⟩ stopRun ⟨1, "turn_1"⟩
    stopRun_running stopRun_accepted

/-- **A `/stop` waits for the turn to end by itself**: the request of the owner is accepted while the turn runs, and no steps
of the bridge interrupt the turn. -/
theorem accepted_stop_waits :
    (accessDecision sampleInner.policy (bridgeControl (fun _ => none) stopMessage) stopMessage).rejectionKind = none ∧
      bridgeControl (fun _ => none) stopMessage = some (.command .stop) ∧
      (scopeTaskAfter stopRun).activeTurn = some ⟨1, "turn_1"⟩ ∧ StopAccepted (scopeTaskAfter stopRun) ∧
      ¬StopReaches sampleTenant (scopeTaskAfter stopRun) ⟨1, "turn_1"⟩ := by
  refine ⟨by decide, by decide, stopRun_running, stopRun_accepted, ?_⟩
  rintro ⟨own, -, ht⟩
  have hnone := no_command_interrupts sampleTenant (.chat "oc_1") ⟨[], sampleInner⟩ ⟨1, true, false⟩ (stopRun ++ own)
  rw [exec_append] at hnone
  rw [show (exec (step sampleTenant) (scopeTaskAfter stopRun) own).interrupts = [] from hnone] at ht
  cases List.mem_of_mem_drop ht

end ScopeTask

end LarkCodexBridge.Runtime

import LarkCodexBridge.Lib.Run
import LarkCodexBridge.Store.InboundJobs

/-!
# Runs of inbox operations

The operations of the store on inbound rows and turns as calls to the writer, and runs of such calls with restarts of
the process between them. Whatever a call does to the database is a sequence of changes (`step_changes`).
-/

namespace LarkCodexBridge.Store

open SqlTable Outbox Lark StepSystem

/-- One operation with its arguments. -/
inductive InboundOp where
  | registerInbound (tenant : TenantNamespace) (event : InboundEvent)
  | beginTurnAndClaimInbound (turn : NewTurnRow) (events : List (InboundKey × Option InboundEvent))
  | setTurnState (id : ℕ) (state : TurnState) (codexTurnId : Option String)
  | resolveTurnAndFinishInboundBatch (id : ℕ) (turn : TurnResolution) (inbound : InboundTerminal)
  | rejectReceived (key : InboundKey) (reason : InboundRejectionKind)
  | completeReceivedWithoutTurn (key : InboundKey)
  | completeReceivedAndEnqueueControlReply (key : InboundKey) (reply : NewOutboxRow)
  | rejectReceivedAndEnqueueNotice (key : InboundKey) (reason : InboundRejectionKind) (notice : NewOutboxRow)
  | recordTurn (row : NewTurnRow)
  | sweepInbound (olderThanMs : ℤ) (maxRows : ℕ)
  | recoverReceived (tenant : TenantNamespace)

/-- The check before the call. -/
def InboundOp.check : InboundOp → Except StoreError Unit
  | .registerInbound _ event => validateIncomingKey event
  | .beginTurnAndClaimInbound turn events => beginTurnCheck turn events
  | .resolveTurnAndFinishInboundBatch _ turn inbound => resolveCheck turn inbound
  | .recordTurn row => recordTurnCheck row
  | _ => .ok ()

variable (C : Codec) (I : InboundCodec)

/-- What an operation answers. -/
inductive OpReply where
  | registered (outcome : DedupOutcome)
  | begun (outcome : BeginTurnOutcome)
  | recovered (rows : List RetainedInbound)
  | done

/-- The job of an operation with its answer. -/
def InboundOp.run (now : ℤ) : InboundOp → Job Db OpReply
  | .registerInbound tenant event => Job.answer (Store.registerInbound I now tenant event) .registered
  | .beginTurnAndClaimInbound turn events => Job.answer (beginTurnAndClaimInboundInner I now turn events) .begun
  | .setTurnState id state codexTurnId => Job.answer (onTurns (Store.setTurnState now id state codexTurnId)) fun _ => .done
  | .resolveTurnAndFinishInboundBatch id turn _ =>
    Job.answer (Store.resolveTurnAndFinishInboundBatch now id turn) fun _ => .done
  | .rejectReceived key reason => Job.answer (Store.rejectReceived I now key reason) fun _ => .done
  | .completeReceivedWithoutTurn key => Job.answer (Store.completeReceivedWithoutTurn I now key) fun _ => .done
  | .completeReceivedAndEnqueueControlReply key reply =>
    Job.answer (Store.completeReceivedAndEnqueueControlReply C I now key reply) fun _ => .done
  | .rejectReceivedAndEnqueueNotice key reason notice =>
    Job.answer (Store.rejectReceivedAndEnqueueNotice C I now key reason notice) fun _ => .done
  | .recordTurn row => Job.answer (onTurns (Store.recordTurn now row)) fun _ => .done
  | .sweepInbound olderThanMs maxRows => Job.answer (Store.sweepInbound olderThanMs maxRows) fun _ => .done
  | .recoverReceived tenant => Job.answer (Store.recoverReceived I tenant) .recovered

def Writer.callOp (w : Writer Db) (fate : Fate) (now : ℤ) (op : InboundOp) : Except StoreError OpReply × Writer Db :=
  w.call op.check fate (op.run C I now)

/-- What happens to the store. -/
inductive StoreEvent where
  /-- A call, the fate of its request and the clock its job reads. -/
  | call (fate : Fate) (now : ℤ) (op : InboundOp)
  /-- The process ends and the database is opened again. -/
  | restart

/-- One event. -/
def storeStep (w : Writer Db) : StoreEvent → Writer Db
  | .call fate now op => (w.callOp C I fate now op).2
  | .restart => { w with alive := true }

def emptyStore : Writer Db := ⟨.empty, true⟩

def storeAfter (es : List StoreEvent) : Writer Db := exec (storeStep C I) emptyStore es

def StoreEvent.registered : StoreEvent → Option InboundEvent
  | .call _ _ (.registerInbound _ event) => some event
  | _ => none

def StoreEvent.isSweep : StoreEvent → Bool
  | .call _ _ (.sweepInbound _ _) => true
  | _ => false

/-- Whether the event is a call that resolves a turn as interrupted. -/
def StoreEvent.isInterrupt : StoreEvent → Bool
  | .call _ _ (.resolveTurnAndFinishInboundBatch _ .interrupted _) => true
  | _ => false

/-- The keys that an operation may reject or claim. -/
def InboundOp.ends : InboundOp → List (String × String)
  | .rejectReceived key _ | .rejectReceivedAndEnqueueNotice key _ _ => [key.key]
  | .beginTurnAndClaimInbound _ events => events.map (·.1.key)
  | _ => []

def StoreEvent.ends : StoreEvent → List (String × String)
  | .call _ _ op => op.ends
  | .restart => []

/-- The event stays within what `A` allows. -/
structure StoreEvent.Within (e : StoreEvent) (A : Allowed) : Prop where
  registers : ∀ event ∈ e.registered, A.registers event
  sweeps : e.isSweep = true → A.sweeps
  ends : ∀ k ∈ e.ends, A.ends k
  interrupts : e.isInterrupt = true → A.interrupts

variable {C I} {A : Allowed}

theorem run_changes {fate : Fate} {now : ℤ} {op : InboundOp} {db db' : Db} {reply : OpReply}
    (hA : (StoreEvent.call fate now op).Within A) (h : op.run C I now db = .ok (reply, db')) : Changes I A db db' := by
  unfold InboundOp.run at h
  cases op with
  | registerInbound tenant event => obtain ⟨_, h, -⟩ := answer_ok h; exact registerInbound_changes (hA.registers event rfl) h
  | beginTurnAndClaimInbound turn events =>
    obtain ⟨_, h, -⟩ := answer_ok h
    have hends : ∀ key ∈ events.map (·.1), A.ends key.key := by
      intro key hkey
      obtain ⟨event, hevent, rfl⟩ := List.mem_map.1 hkey
      exact hA.ends _ (List.mem_map.2 ⟨event, hevent, rfl⟩)
    rcases beginTurn_changes hends h with ⟨-, -, rfl⟩ | ⟨-, hc⟩
    · exact .refl
    · exact .single hc
  | setTurnState id state codexTurnId => obtain ⟨_, h, -⟩ := answer_ok h; exact setTurnState_changes h
  | resolveTurnAndFinishInboundBatch id turn inbound => 
    obtain ⟨_, h, -⟩ := answer_ok h
    refine resolveTurn_changes (fun hturn => hA.interrupts ?_) h
    subst hturn
    rfl
  | rejectReceived key reason =>
    obtain ⟨_, h, -⟩ := answer_ok h
    exact rejectReceived_changes (hA.ends _ List.mem_cons_self) h
  | completeReceivedWithoutTurn key => obtain ⟨_, h, -⟩ := answer_ok h; exact completeReceivedWithoutTurn_changes h
  | completeReceivedAndEnqueueControlReply key reply =>
    obtain ⟨_, h, -⟩ := answer_ok h
    exact completeReceivedAndEnqueueControlReply_changes h
  | rejectReceivedAndEnqueueNotice key reason notice =>
    obtain ⟨_, h, -⟩ := answer_ok h
    exact rejectReceivedAndEnqueueNotice_changes (hA.ends _ List.mem_cons_self) h
  | recordTurn row => obtain ⟨_, h, -⟩ := answer_ok h; exact recordTurn_changes h
  | sweepInbound olderThanMs maxRows => obtain ⟨_, h, -⟩ := answer_ok h; exact sweepInbound_changes (hA.sweeps rfl) h
  | recoverReceived tenant =>
    obtain ⟨_, h, -⟩ := answer_ok h
    obtain ⟨-, h⟩ := seq_eq_ok.1 h
    obtain ⟨_, -, h⟩ := bind_eq_ok.1 h
    cases h
    exact .refl

/-- **One step is a sequence of changes.** -/
theorem storeStep_changes (w : Writer Db) (e : StoreEvent) (hA : e.Within A) :
    Changes I A w.db (storeStep C I w e).db := by
  cases e with
  | restart => exact .refl
  | call fate now op =>
    rcases call_db w op.check fate (op.run C I now) with h | ⟨_, -, h⟩
    · rw [storeStep, Writer.callOp, h]
    · exact run_changes hA h

end LarkCodexBridge.Store

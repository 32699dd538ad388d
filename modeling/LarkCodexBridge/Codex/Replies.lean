import LarkCodexBridge.Codex.Rpc
import LarkCodexBridge.Lib.Numeral
import LarkCodexBridge.Lib.Remap

/-!
# Calls and their replies

The sender of a reply channel moves with the request of its call, from the command queue into the table of pending requests.

* `Replies`: what holds of the calls, next to the senders that are left;
* `Aside`: what an event that concerns no call does, `Inv`: what every event keeps (`step_inv`);
* `calls_answered`: what a caller gets, and that it gets something.
-/

namespace LarkCodexBridge.Codex

open Limits StepSystem

/-! ## Senders -/

def Slot.filled {α : Type} : Slot α → ℕ
  | .empty => 0
  | _ => 1

/-- The command of the call was queued, or never will be. -/
def CallPhase.sent : CallPhase → ℕ
  | .unborn | .admitting | .enqueueing _ => 0
  | _ => 1

/-- The sender in a command: the id of the request, and its call. -/
def RpcCommand.sender? : RpcCommand → Option (RequestId × ℕ)
  | .request id _ _ _ n _ => some (id, n)
  | .fire .. => none

/-- The senders that are left. -/
def Rpc.senders (s : Rpc) : List (RequestId × ℕ) :=
  s.pending.map (fun entry => (entry.1, entry.2.reply)) ++ (s.queue true ++ s.queue false).filterMap (·.sender?)

def Rpc.table (s : Rpc) : List (RequestId × PendingRequest) × ℤ := (s.pending, s.pendingCount)

/-- The id of the `i`-th request. -/
def requestId (P : RpcParams) (i : ℕ) : RequestId := .string ("c:" ++ toString P.epoch ++ ":" ++ toString i)

theorem requestId_injective (P : RpcParams) : Function.Injective (requestId P) := fun _ _ h =>
  Numeral.append_injective _ (RequestId.string.inj h)

/-- A response with the id and the value came in. -/
def Received (events : List RpcEvent) (id : Option RequestId) (v : Value) : Prop :=
  ∃ k emission, id = some k ∧ .inbound (.response k v) emission ∈ events

/-- A call with `n` senders. -/
structure Call.Ok (events : List RpcEvent) (c : Call) (n : ℕ) : Prop where
  once : n + c.slot.filled ≤ c.phase.sent
  waits : c.phase = .waiting → 1 ≤ n + c.slot.filled
  full : ∀ v, c.slot = .full (.ok v) → Received events c.id v
  returned : ∀ v, c.phase = .returned (.ok v) → Received events c.id v

/-- What waits in a future that responds is no request of a call. -/
def Fires (requests : ℕ → ServerRequest) : Prop := ∀ k c d, (requests k).respond = .enqueueing c d → c.sender? = none

/-- What holds of the calls while `l` are the senders that can still be used. -/
structure Calls (P : RpcParams) (events : List RpcEvent) (calls : ℕ → Call) (requests : ℕ → ServerRequest)
    (started nextId : ℕ) (l : List (RequestId × ℕ)) : Prop where
  unborn : ∀ n, started ≤ n → calls n = .unborn
  ok : ∀ n, (calls n).Ok events (l.countP (·.2 = n))
  own : ∀ p ∈ l, (calls p.2).id = some p.1
  ids : ∀ n id, (calls n).id = some id → ∃ i < nextId, id = requestId P i
  distinct : ∀ n n' id, (calls n).id = some id → (calls n').id = some id → n = n'
  fires : Fires requests

abbrev Replies (P : RpcParams) (events : List RpcEvent) (s : Rpc) (l : List (RequestId × ℕ)) : Prop :=
  Calls P events s.calls s.requests s.started s.nextId l

variable {P : RpcParams} {events : List RpcEvent} {s s' : Rpc} {l l' : List (RequestId × ℕ)} {n : ℕ} {id : RequestId}

theorem CallPhase.sent_le (phase : CallPhase) : phase.sent ≤ 1 := by cases phase <;> simp [sent]

namespace Replies

theorem perm (h : Replies P events s l) (hl : l'.Perm l) : Replies P events s l' :=
  { h with ok := fun n => hl.countP_eq _ ▸ h.ok n, own := fun p hp => h.own p (hl.subset hp) }

theorem lt_started (h : Replies P events s l) (hn : (s.calls n).phase ≠ .unborn) : n < s.started :=
  Nat.lt_of_not_le fun hle => hn (by rw [h.unborn n hle]; rfl)

/-- Call `n` changes. It takes a new id only while nobody has its sender. -/
theorem update {c : Call} {nextId' : ℕ} (h : Replies P events s l) (hn : n < s.started) (hnext : s.nextId ≤ nextId')
    (hid : c.id = (s.calls n).id ∨ l'.countP (·.2 = n) = 0 ∧
      ∃ i, s.nextId ≤ i ∧ i < nextId' ∧ c.id = some (requestId P i))
    (hown : ∀ p ∈ l', p ∈ l ∨ p.2 = n ∧ c.id = some p.1) (hcount : ∀ m ≠ n, l'.countP (·.2 = m) = l.countP (·.2 = m))
    (hc : c.Ok events (l'.countP (·.2 = n))) :
    Calls P events (Function.update s.calls n c) s.requests s.started nextId' l' := by
  have hself : Function.update s.calls n c n = c := Function.update_self ..
  have hother : ∀ m ≠ n, Function.update s.calls n c m = s.calls m := fun m hm => Function.update_of_ne hm ..
  have hids : ∀ m id, (Function.update s.calls n c m).id = some id →
      (s.calls m).id = some id ∨ m = n ∧ ∃ i, s.nextId ≤ i ∧ i < nextId' ∧ id = requestId P i := by
    intro m id hm
    by_cases hmn : m = n
    · rw [hmn, hself] at hm
      rcases hid with hid | ⟨-, i, hle, hi, hid⟩
      · exact .inl (hmn ▸ hid ▸ hm)
      · exact .inr ⟨hmn, i, hle, hi, Option.some.inj (hm.symm.trans hid)⟩
    · exact .inl (hother m hmn ▸ hm)
  refine ⟨fun m hm => ?_, fun m => ?_, fun p hp => ?_, fun m id hm => ?_, fun m m' id hm hm' => ?_, h.fires⟩
  · rw [hother m (Nat.ne_of_gt (hn.trans_le hm))]
    exact h.unborn m hm
  · by_cases hm : m = n
    · rw [hm, hself]
      exact hc
    · rw [hother m hm, hcount m hm]
      exact h.ok m
  · by_cases hpn : p.2 = n
    · rw [hpn, hself]
      rcases hown p hp with hpl | ⟨-, hc⟩
      · rcases hid with hid | ⟨hzero, -⟩
        · rw [hid, ← hpn, h.own p hpl]
        · exact absurd hpn (by simpa using List.countP_eq_zero.1 hzero p hp)
      · exact hc
    · rw [hother _ hpn]
      exact h.own p ((hown p hp).resolve_right fun hc => hpn hc.1)
  · rcases hids m id hm with hm | ⟨-, i, -, hi, rfl⟩
    · obtain ⟨i, hi, rfl⟩ := h.ids m id hm
      exact ⟨i, hi.trans_le hnext, rfl⟩
    · exact ⟨i, hi, rfl⟩
  · -- an id that was taken before is below the counter, a new one is not
    rcases hids m id hm with hm | ⟨hmn, i, hi, -, hid⟩ <;> rcases hids m' id hm' with hm' | ⟨hmn', i', hi', -, hid'⟩
    · exact h.distinct m m' id hm hm'
    · obtain ⟨j, hj, hid⟩ := h.ids m id hm
      exact absurd (requestId_injective P (hid.symm.trans hid')) (hj.trans_le hi').ne
    · obtain ⟨j, hj, hid'⟩ := h.ids m' id hm'
      exact absurd (requestId_injective P (hid'.symm.trans hid)) (hj.trans_le hi).ne
    · rw [hmn, hmn']

/-- What holds of a call whose sender is used up. -/
theorem used (h : Replies P events s ((id, n) :: l)) : (s.calls n).phase ≠ .unborn ∧
    l.countP (·.2 = n) = 0 ∧ (s.calls n).slot.filled = 0 ∧ (s.calls n).phase.sent = 1 := by
  have honce := (h.ok n).once
  have hle := (s.calls n).phase.sent_le
  rw [List.countP_cons_of_pos (by simp)] at honce
  refine ⟨fun hphase => ?_, by omega, by omega, by omega⟩
  rw [hphase, CallPhase.sent] at honce
  omega

/-- The sender of a call goes, and the call changes but for its id. -/
theorem useSender {c : Call} (h : Replies P events s ((id, n) :: l)) (hid : c.id = (s.calls n).id)
    (hc : c.Ok events 0) : Replies P events (s.setCall n c) l := by
  obtain ⟨hn, hcount, -⟩ := h.used
  exact h.update (h.lt_started hn) le_rfl (.inl hid) (fun p hp => .inl (List.mem_cons_of_mem _ hp))
    (fun m hm => (List.countP_cons_of_neg (by simpa using Ne.symm hm)).symm) (hcount ▸ hc)

/-- A call that has not sent its command has no sender. -/
theorem unsent (h : Replies P events s l) (hsent : (s.calls n).phase.sent = 0) :
    l.countP (·.2 = n) = 0 ∧ (s.calls n).slot.filled = 0 := by
  have honce := (h.ok n).once
  omega

/-- The sender of call `n` ends in its slot. -/
theorem fill {slot : Slot (Except RpcError Value)} (h : Replies P events s ((id, n) :: l))
    (hfilled : slot.filled = 1) (hfull : ∀ v, slot = .full (.ok v) → Received events (some id) v) :
    Replies P events (s.setCall n { s.calls n with slot := slot }) l := by
  obtain ⟨-, -, -, hsent⟩ := h.used
  refine h.useSender rfl ⟨?_, fun _ => ?_, fun v hv => ?_, (h.ok n).returned⟩
  · rw [hsent, hfilled]
  · rw [hfilled]
  · rw [h.own _ List.mem_cons_self]
    exact hfull v hv

theorem dropReply (h : Replies P events s ((id, n) :: l)) : Replies P events (s.dropReply n) l :=
  h.fill rfl (by simp)

/-- Nobody listens: the sender is used up all the same. -/
theorem reply {result : Except RpcError Value} (h : Replies P events s ((id, n) :: l))
    (hresult : ∀ v, result = .ok v → Received events (some id) v) : Replies P events (s.reply n result) l := by
  unfold Rpc.reply
  split
  · refine h.fill rfl ?_
    rintro v ⟨⟩
    exact hresult v rfl
  · next hlistens =>
    obtain ⟨-, -, hempty, hsent⟩ := h.used
    have hphase : (s.calls n).phase ≠ .waiting := by simpa [Call.listens] using hlistens
    have hgone := h.useSender (c := s.calls n) rfl
      ⟨by omega, fun hw => absurd hw hphase, (h.ok n).full, (h.ok n).returned⟩
    rwa [Replies, Rpc.setCall, Function.update_eq_self] at hgone

end Replies

/-! ## Events that concern no call -/

/-- The event concerns no call. -/
structure Aside (s s' : Rpc) : Prop where
  calls : s'.calls = s.calls
  started : s'.started = s.started
  nextId : s'.nextId = s.nextId
  senders : s'.senders = s.senders
  table : s'.table = s.table
  stage : s'.stage ≠ .running → s.stage ≠ .running
  fires : Fires s.requests → Fires s'.requests

namespace Aside

theorem refl (s : Rpc) : Aside s s := ⟨rfl, rfl, rfl, rfl, rfl, id, id⟩

theorem trans {s'' : Rpc} (h : Aside s s') (h' : Aside s' s'') : Aside s s'' :=
  ⟨h'.calls.trans h.calls, h'.started.trans h.started, h'.nextId.trans h.nextId, h'.senders.trans h.senders, h'.table.trans h.table,
    fun hs => h.stage (h'.stage hs), fun hf => h'.fires (h.fires hf)⟩

theorem foldl {α : Type} {f : Rpc → α → Rpc} (h : ∀ s a, Aside s (f s a)) : ∀ (as : List α) (s : Rpc), Aside s (as.foldl f s)
  | [], s => refl s
  | a :: as, s => (h s a).trans (foldl h as (f s a))

variable {k : ℕ} {high : Bool}

theorem setRequest {r : ServerRequest}
    (hr : ∀ c d, r.respond = .enqueueing c d → (s.requests k).respond = .enqueueing c d ∨ c.sender? = none) :
    Aside s (s.setRequest k r) := by
  refine ⟨rfl, rfl, rfl, rfl, rfl, id, fun hf j c d hj => ?_⟩
  have hj : (Function.update s.requests k r j).respond = .enqueueing c d := hj
  by_cases hjk : j = k
  · rw [hjk, Function.update_self] at hj
    exact (hr c d hj).elim (hf k c d) id
  · rw [Function.update_of_ne hjk] at hj
    exact hf j c d hj

/-- The lease changes, or the acknowledgement. -/
theorem keepRespond {r : ServerRequest} (hr : r.respond = (s.requests k).respond) : Aside s (s.setRequest k r) :=
  setRequest fun _ _ h => .inl (hr ▸ h)

theorem setRespond {phase : RespondPhase} (hphase : ∀ c d, phase = .enqueueing c d → c.sender? = none) :
    Aside s (s.setRespond k phase) := setRequest fun c d h => .inr (hphase c d h)

theorem ite {p : Prop} [Decidable p] (h : Aside s s') : Aside s (if p then s' else s) := by
  split
  · exact h
  · exact refl s

/-- The epoch is cancelled as the lease changes. -/
theorem cancelling {r : ServerRequest} (hr : r.respond = (s.requests k).respond) :
    Aside s { s.setRequest k r with cancelled := true } :=
  (keepRespond hr).trans ⟨rfl, rfl, rfl, rfl, rfl, id, id⟩

theorem abandonIfArmed : Aside s (s.abandonIfArmed k) := ite (cancelling rfl)

theorem handoffToActor : Aside s (s.handoffToActor k) := ite (keepRespond rfl)

theorem resolveActorOwned : Aside s (s.resolveActorOwned k) := ite (keepRespond rfl)

theorem failActorOwned : Aside s (s.failActorOwned k) := ite (cancelling rfl)

theorem acknowledge {ack : Slot (Except RpcError Unit)} : Aside s (s.acknowledge k ack) := keepRespond rfl

theorem dropCommand {c : RpcCommand} (hc : c.sender? = none) : Aside s (s.dropCommand c) := by
  cases c with
  | request => cases hc
  | fire => exact acknowledge.trans failActorOwned

theorem dropJob (s : Rpc) (job : OutboundJob) : Aside s (s.dropJob job) := by
  unfold Rpc.dropJob
  split
  · exact refl s
  · exact acknowledge.trans failActorOwned

theorem dropRequest : Aside s (s.dropRequest k) := by
  have hset : Aside s (s.setRequest k { s.requests k with held := false }) := keepRespond rfl
  exact ite (hset.trans abandonIfArmed)

theorem respond {answer : Except RpcErrorObject Value} : Aside s (s.respond k answer) := by
  refine ite ?_
  cases answer <;> exact setRespond (by simp)

theorem respondReady : Aside s (s.respondReady k) := by
  unfold Rpc.respondReady
  split
  · split
    · exact setRespond (by simp)
    · refine (handoffToActor.trans acknowledge).trans (setRespond ?_)
      rintro _ _ ⟨⟩
      rfl
  · exact refl s

theorem push (c : RpcCommand) (hc : c.sender? = none) : Aside s (s.push high c) := by
  refine ⟨rfl, rfl, rfl, ?_, rfl, id, id⟩
  cases high <;> simp [Rpc.senders, Rpc.push, List.filterMap_append, hc]

theorem pollRespond (hf : Fires s.requests) : Aside s (s.pollRespond k) := by
  unfold Rpc.pollRespond
  split
  · next hrespond =>
    have hc := hf k _ _ hrespond
    split
    · exact (setRespond (by simp)).trans (dropCommand hc)
    · exact ite ((push _ hc).trans (setRespond (by simp)))
  · exact ite (setRespond (by simp))
  · exact refl s

theorem dropRespond (hf : Fires s.requests) : Aside s (s.dropRespond k) := by
  unfold Rpc.dropRespond
  split
  · next hrespond => exact (setRespond (by simp)).trans (dropCommand (hf k _ _ hrespond))
  · exact setRespond (by simp)
  · exact setRespond (by simp)
  · exact refl s

theorem stopPump : Aside s (s.stopPump high) := by
  have hstop : Aside s { s with pump := Function.update s.pump high ⟨[], .stopped⟩ } := ⟨rfl, rfl, rfl, rfl, rfl, id, id⟩
  exact hstop.trans (foldl dropJob _ _)

theorem finishJob {job : OutboundJob} {result : Except RpcError Unit} : Aside s (s.finishJob high job result) := by
  have hstage : ∀ (s : Rpc) (stage : PumpStage), Aside s (s.setStage high stage) := fun _ _ => ⟨rfl, rfl, rfl, rfl, rfl, id, id⟩
  unfold Rpc.finishJob
  split
  · exact hstage s _
  · refine .trans ?_ (acknowledge.trans (hstage _ _))
    split
    · exact resolveActorOwned
    · exact failActorOwned

theorem pollPump {outcome : Rpc.SendOutcome} : Aside s (s.pollPump P high outcome) := by
  have hhand : ∀ frame, Aside s (s.handFrame high frame) := fun _ => ⟨rfl, rfl, rfl, rfl, rfl, id, id⟩
  unfold Rpc.pollPump
  repeat' split
  all_goals first
    | exact refl s
    | exact finishJob
    | exact stopPump
    | exact (hhand _).trans finishJob
    | exact ⟨rfl, rfl, rfl, rfl, rfl, id, id⟩

theorem write {complete : Bool} : Aside s (s.write high complete) := by
  unfold Rpc.write
  repeat' split
  all_goals exact ⟨rfl, rfl, rfl, rfl, rfl, id, id⟩

end Aside

/-! ## The invariant -/

theorem Replies.aside (h : Replies P events s l) (ha : Aside s s') : Replies P events s' l := by
  rw [Replies, ha.calls, ha.started, ha.nextId]
  exact { h with fires := ha.fires h.fires }

/-- The senders that are `owed`, those in the queues and those in the table are all there are. None is left when the loop
is, and the counter is that of the table. -/
structure Owes (P : RpcParams) (events : List RpcEvent) (s : Rpc) (owed : List (RequestId × ℕ)) : Prop where
  replies : Replies P events s (owed ++ s.senders)
  left : s.stage ≠ .running → s.senders = []
  count : s.pendingCount = s.pending.length

/-- The invariant between two events. -/
abbrev Inv (P : RpcParams) (events : List RpcEvent) (s : Rpc) : Prop := Owes P events s []

variable {owed : List (RequestId × ℕ)}

namespace Owes

theorem aside (h : Owes P events s owed) (ha : Aside s s') : Owes P events s' owed := by
  obtain ⟨hpending, hcount⟩ := Prod.mk.inj ha.table
  refine ⟨ha.senders ▸ h.replies.aside ha, fun hs => ha.senders ▸ h.left (ha.stage hs), ?_⟩
  rw [hpending, hcount]
  exact h.count

theorem dropReply (h : Owes P events s ((id, n) :: owed)) : Owes P events (s.dropReply n) owed :=
  ⟨h.replies.dropReply, h.left, h.count⟩

theorem reply {result : Except RpcError Value} (h : Owes P events s ((id, n) :: owed))
    (hresult : ∀ v, result = .ok v → Received events (some id) v) : Owes P events (s.reply n result) owed := by
  have hreplies := Replies.reply h.replies hresult
  unfold Rpc.reply at hreplies ⊢
  split
  · next hl =>
    rw [if_pos hl] at hreplies
    exact ⟨hreplies, h.left, h.count⟩
  · next hl =>
    rw [if_neg hl] at hreplies
    exact ⟨hreplies, h.left, h.count⟩

end Owes

namespace Inv

theorem ite {p : Prop} [Decidable p] (h : Inv P events s) (h' : p → Inv P events s') :
    Inv P events (if p then s' else s) := by
  split
  · next hp => exact h' hp
  · exact h

/-! ### Callers -/

theorem request {high : Bool} {method : String} {timeout : ℕ} {classifier : ServerErrorClassifier} (h : Inv P events s) :
    Inv P events (s.request P high method timeout classifier) := by
  have hreplies : Replies P events s s.senders := h.replies
  have hunborn := hreplies.unborn s.started le_rfl
  have hgrown : Replies P events { s with started := s.started + 1 } s.senders :=
    { hreplies with unborn := fun n hn => hreplies.unborn n ((Nat.le_succ _).trans hn) }
  obtain ⟨hzero, -⟩ := hreplies.unsent (n := s.started) (by rw [hunborn]; rfl)
  refine ⟨hgrown.update (Nat.lt_succ_self _) le_rfl (.inl (by rw [hunborn]; rfl)) (fun p hp => .inl hp) (fun _ _ => rfl)
    ⟨?_, fun hw => ?_, by simp, fun v hv => ?_⟩, h.left, h.count⟩
  · show List.countP _ s.senders + 0 ≤ _
    rw [hzero]
    exact Nat.zero_le _
  · dsimp only at hw
    split at hw <;> cases hw
  · dsimp only at hv
    split at hv <;> cases hv

/-- A call returns, or is dropped. -/
theorem setPhase {phase : CallPhase} (h : Inv P events s) (hn : (s.calls n).phase ≠ .unborn) (hsent : phase.sent = 1)
    (hwaits : phase ≠ .waiting) (hreturned : ∀ v, phase = .returned (.ok v) → Received events (s.calls n).id v) :
    Inv P events (s.setPhase n phase) := by
  have hok := h.replies.ok n
  exact ⟨h.replies.update (h.replies.lt_started hn) le_rfl (.inl rfl) (fun p hp => .inl hp) (fun _ _ => rfl)
    ⟨(hok.once.trans (CallPhase.sent_le _)).trans hsent.ge, fun hw => absurd hw hwaits, hok.full, hreturned⟩, h.left, h.count⟩

theorem fails {e : RpcError} (h : Inv P events s) (hn : (s.calls n).phase ≠ .unborn) :
    Inv P events (s.setPhase n (.returned (.error e))) :=
  h.setPhase hn rfl (by simp) (by simp)

theorem admitFailed {error : Rpc.AdmissionError} (h : Inv P events s) : Inv P events (s.admitFailed P n error) := by
  unfold Rpc.admitFailed
  split
  · next hphase => exact h.fails (by rw [hphase]; simp)
  · exact h

theorem admitReady {params : Value} (h : Inv P events s) : Inv P events (s.admitReady P n params) := by
  unfold Rpc.admitReady Rpc.nextRequestId
  split
  · next hphase =>
    have hn : (s.calls n).phase ≠ .unborn := by rw [hphase]; simp
    obtain ⟨hzero, hempty⟩ := h.replies.unsent (n := n) (by rw [hphase]; rfl)
    split
    · exact h.fails hn
    · next id s' hnext =>
      obtain ⟨-, rfl, rfl⟩ : s.nextId < u64Max ∧ requestId P s.nextId = id ∧ { s with nextId := s.nextId + 1 } = s' := by
        simpa [requestId] using hnext
      refine ⟨h.replies.update (h.replies.lt_started hn) (Nat.le_succ _)
        (.inr ⟨hzero, s.nextId, le_rfl, Nat.lt_succ_self _, rfl⟩) (fun p hp => .inl hp) (fun _ _ => rfl)
        ⟨?_, by simp, fun v hv => ?_, by simp⟩, h.left, h.count⟩
      · exact (congrArg₂ (· + ·) hzero hempty).le
      · have hv : (s.calls n).slot = .full (.ok v) := hv
        rw [hv] at hempty
        cases hempty
  · exact h

theorem sendCancel (h : Inv P events s) : Inv P events (s.sendCancel id) :=
  h.ite fun _ => h.aside ⟨rfl, rfl, rfl, rfl, rfl, fun h => h, fun h => h⟩

theorem sendCancelOf {c : Call} (h : Inv P events s) : Inv P events (s.sendCancelOf c) := by
  unfold Rpc.sendCancelOf
  split
  · exact h.sendCancel
  · exact h

theorem dropCall (h : Inv P events s) : Inv P events (s.dropCall n) := by
  have hdrop : (s.calls n).phase ≠ .unborn → Inv P events (s.setPhase n .dropped) := fun hn =>
    h.setPhase hn rfl (by simp) (by simp)
  unfold Rpc.dropCall
  split
  · next hphase => exact hdrop (by rw [hphase]; simp)
  · next hphase => exact hdrop (by rw [hphase]; simp)
  · next hphase => exact (hdrop (by rw [hphase]; simp)).sendCancelOf
  · exact h

theorem senders_push (s : Rpc) (high : Bool) (c : RpcCommand) :
    (s.push high c).senders.Perm (c.sender?.toList ++ s.senders) := by
  have hone : [c].filterMap (·.sender?) = c.sender?.toList := by cases h : c.sender? <;> simp [h]
  rw [Rpc.senders, Rpc.senders]
  cases high <;> simp only [Rpc.push, Function.update_self, ne_eq, reduceCtorEq, not_false_eq_true, Function.update_of_ne,
    List.filterMap_append, hone] <;> grind

/-- The command of a call is queued. -/
theorem enqueue {params : Value} {high : Bool} {method : String} {value : Value} {deadline : ℕ}
    {classifier : ServerErrorClassifier} (h : Inv P events s) (hphase : (s.calls n).phase = .enqueueing params)
    (hid : (s.calls n).id = some id) (hrunning : s.stage = .running) :
    Inv P events ((s.push high (.request id method value deadline n classifier)).setPhase n .waiting) := by
  have hreplies : Replies P events s s.senders := h.replies
  obtain ⟨hzero, hempty⟩ := hreplies.unsent (n := n) (by rw [hphase]; rfl)
  have hone : ((id, n) :: s.senders).countP (·.2 = n) = 1 := by rw [List.countP_cons_of_pos (by simp), hzero]
  have hwaiting : Replies P events (s.setPhase n .waiting) ((id, n) :: s.senders) := by
    refine hreplies.update (hreplies.lt_started (by rw [hphase]; simp)) le_rfl (.inl rfl) (fun p hp => ?_)
      (fun m hm => ?_) ⟨?_, fun _ => ?_, (hreplies.ok n).full, by simp⟩
    · rcases List.mem_cons.1 hp with rfl | hp
      · exact .inr ⟨rfl, hid⟩
      · exact .inl hp
    · exact List.countP_cons_of_neg (by simpa using Ne.symm hm)
    · exact (congrArg₂ (· + ·) hone hempty).le
    · exact hone.ge.trans (Nat.le_add_right ..)
  exact ⟨hwaiting.perm (senders_push s high _), fun hs => absurd hrunning hs, h.count⟩

theorem poll {decodes : Bool} (h : Inv P events s) : Inv P events (s.poll P n decodes) := by
  unfold Rpc.poll
  dsimp only
  split
  · next hphase hid =>
    have hn : (s.calls n).phase ≠ .unborn := by rw [hphase]; simp
    split
    · exact h.fails hn
    · split
      · exact h.fails hn
      · split
        · exact h.fails hn
        · next hrunning => exact h.ite fun _ => h.enqueue hphase hid (not_not.1 hrunning)
  · next hphase =>
    have hn : (s.calls n).phase ≠ .unborn := by rw [hphase]; simp
    split
    · exact (h.fails hn).sendCancelOf
    · split
      · exact (h.fails hn).sendCancelOf
      · split
        · next result hresult =>
          refine h.setPhase hn rfl (by simp) fun v hv => ?_
          obtain rfl := CallPhase.returned.inj hv
          refine (h.replies.ok n).full v ?_
          unfold Rpc.received at hresult
          split at hresult <;> grind
        · exact h
  · exact h

/-! ### The actor -/

/-- The ids in the table are distinct: two entries with one id would be two senders of one call. -/
theorem pending_nodup (h : Replies P events s s.senders) : (s.pending.map (·.1)).Nodup := by
  have hcalls : (s.senders.map (·.2)).Nodup := List.nodup_iff_count_le_one.2 fun n => by
    have honce := (h.ok n).once
    rw [List.count, List.countP_map]
    refine le_trans (le_of_eq (List.countP_congr fun p _ => ?_)) ((Nat.le_add_right _ _).trans (honce.trans (CallPhase.sent_le _)))
    simp
  have hids : (s.senders.map (·.1)).Nodup := (List.Nodup.of_map _ hcalls).map_on fun p hp q hq hpq => by
    have hpid := h.own p hp
    rw [hpq] at hpid
    exact Prod.ext hpq (h.distinct _ _ _ hpid (h.own q hq))
  rw [Rpc.senders, List.map_append, List.map_map] at hids
  exact hids.of_append_left

/-- The entry that is taken owes its reply. -/
theorem takePending {entry : PendingRequest} (h : Inv P events s) (ht : s.takePending id = some (entry, s')) :
    Owes P events s' [(id, entry.reply)] := by
  unfold Rpc.takePending at ht
  split at ht
  · next k e hfind =>
    obtain ⟨rfl, rfl⟩ := Prod.mk.inj (Option.some.inj ht)
    obtain rfl : k = id := by simpa using List.find?_some hfind
    have hperm := Remap.Matched.perm_cons_filter (pending_nodup h.replies) (List.mem_of_find?_eq_some hfind)
    have hsenders : s.senders.Perm ((k, e.reply) :: Rpc.senders { s with
        pending := s.pending.filter fun entry => entry.1 ≠ k, pendingCount := s.pendingCount - 1 }) :=
      (hperm.map fun entry => (entry.1, entry.2.reply)).append_right _
    refine ⟨h.replies.perm hsenders.symm, fun hs => ?_, ?_⟩
    · rw [h.left hs] at hsenders
      exact absurd hsenders.length_eq (by simp)
    · have hlength := hperm.length_eq
      rw [List.length_cons] at hlength
      dsimp only
      rw [h.count, hlength]
      simp
  · cases ht

theorem removePending (h : Inv P events s) : Inv P events (s.removePending id) := by
  unfold Rpc.removePending
  split
  · next ht => exact (h.takePending ht).dropReply
  · exact h

theorem sweepPending (h : Inv P events s) : Inv P events s.sweepPending := by
  refine List.foldlRecOn (motive := Inv P events) _ _ h fun t ht id _ => ?_
  unfold Rpc.expire
  split
  · next htake => exact (ht.takePending htake).reply (by simp)
  · exact ht

theorem handleCompletion {completion : OutboundCompletion} (h : Inv P events s) : Inv P events (s.handleCompletion completion) := by
  unfold Rpc.handleCompletion
  split
  · exact h
  · split
    · next htake => exact (h.takePending htake).reply (by simp)
    · exact h

theorem handleInbound {message : InboundMessage} {emission : Rpc.Emission} (h : Inv P events s)
    (hin : .inbound message emission ∈ events) : Inv P events (s.handleInbound P message emission).1 := by
  unfold Rpc.handleInbound
  split
  · split
    · next htake =>
      refine (h.takePending htake).reply ?_
      rintro v ⟨⟩
      exact ⟨_, emission, rfl, hin⟩
    · exact h
  · split
    · next htake => exact (h.takePending htake).reply (by simp)
    · exact h
  · have hemit : ∀ r : ServerRequest, r.respond = .idle → ∀ ids, Inv P events { s.setRequest s.emitted r with
        emitted := s.emitted + 1, serverPending := ids } := fun r hr ids => by
      have hset : Aside s (s.setRequest s.emitted r) := .setRequest fun c d h => absurd (hr.symm.trans h) (by simp)
      exact h.aside (hset.trans ⟨rfl, rfl, rfl, rfl, rfl, fun h => h, fun h => h⟩)
    split
    · exact h
    · split
      · exact h
      · dsimp only
        split
        · exact hemit _ rfl _
        · exact (hemit _ rfl _).aside .dropRequest
  · split <;> exact h

/-- The actor has taken a command from its queue. -/
theorem dispatchCommand {high : Bool} {c : RpcCommand} (h : Owes P events s c.sender?.toList)
    (hrunning : s.stage = .running) : Inv P events (Rpc.dispatchCommand P s high c).1 := by
  unfold Rpc.dispatchCommand
  split
  · next rid method params deadline n classifier =>
    have h : Owes P events s [(rid, n)] := h
    split
    · exact h.dropReply
    · split
      · exact h.reply (by simp)
      · dsimp only
        split
        · next k old hfind =>
          -- no call has two senders
          obtain rfl : k = rid := by simpa using List.find?_some hfind
          have hmem : (k, old.reply) ∈ s.senders :=
            List.mem_append_left _ (List.mem_map.2 ⟨_, List.mem_of_find?_eq_some hfind, rfl⟩)
          have hold : old.reply = n :=
            h.replies.distinct _ _ _ (h.replies.own _ (List.mem_cons_of_mem _ hmem)) (h.replies.own _ List.mem_cons_self)
          exact absurd hold (by simpa using List.countP_eq_zero.1 h.replies.used.2.1 _ hmem)
        · have hentry : Inv P events { s with
              pending := (rid, ⟨method, deadline, n, classifier⟩) :: s.pending, pendingCount := s.pendingCount + 1 } :=
            ⟨h.replies, fun hs => absurd hrunning hs, by simp [h.count]⟩
          split
          · exact hentry.removePending
          · exact hentry.aside ⟨rfl, rfl, rfl, rfl, rfl, fun h => h, fun h => h⟩
  · next response _ =>
    have h : Inv P events s := h
    split
    · exact h.aside (Aside.acknowledge.trans .failActorOwned)
    · split
      · exact h.aside (Aside.acknowledge.trans .failActorOwned)
      · have herase : Inv P events { s with serverPending := s.serverPending.erase response.id } :=
          h.aside ⟨rfl, rfl, rfl, rfl, rfl, fun h => h, fun h => h⟩
        dsimp only
        split
        · exact herase.aside (Aside.acknowledge.trans .failActorOwned)
        · exact herase.aside ⟨rfl, rfl, rfl, rfl, rfl, fun h => h, fun h => h⟩

/-! ### The end of the loop -/

theorem failPending : ∀ (entries : List (RequestId × PendingRequest)) {s : Rpc},
    Replies P events s (entries.map (fun entry => (entry.1, entry.2.reply)) ++ l) →
    Replies P events (entries.foldl (Rpc.failPending P) s) l ∧ (entries.foldl (Rpc.failPending P) s).queue = s.queue
  | [], _, h => ⟨h, rfl⟩
  | entry :: entries, s, h => by
    have hqueue : (Rpc.failPending P s entry).queue = s.queue := by
      unfold Rpc.failPending Rpc.reply
      split <;> rfl
    exact (failPending entries (h.reply (by simp))).imp_right fun hq => hq.trans hqueue

theorem rejectQueued : ∀ (commands : List RpcCommand) {s : Rpc}, Replies P events s (commands.filterMap (·.sender?)) →
    Replies P events (commands.foldl (Rpc.rejectQueued P) s) [] ∧ (commands.foldl (Rpc.rejectQueued P) s).table = s.table
  | [], _, h => ⟨h, rfl⟩
  | c :: commands, s, h => by
    have htable : (Rpc.rejectQueued P s c).table = s.table := by
      cases c <;> simp only [Rpc.rejectQueued, Rpc.reply, Rpc.failActorOwned] <;> split <;> rfl
    have hrest : Replies P events (Rpc.rejectQueued P s c) (commands.filterMap (·.sender?)) := by
      cases c with
      | request => exact h.reply (by simp)
      | fire => exact h.aside (Aside.acknowledge.trans .failActorOwned)
    exact (rejectQueued commands hrest).imp_right fun ht => ht.trans htable

/-- Everything the actor still holds is failed. -/
theorem leave (h : Inv P events s) : Inv P events (s.leave P) := by
  obtain ⟨hfailed, hqueue⟩ :=
    failPending s.pending (s := { s with lost := true, cancelled := true, completions := [] }) h.replies
  obtain ⟨t, ht⟩ : ∃ t : Rpc, t = { s.pending.foldl (Rpc.failPending P)
    { s with lost := true, cancelled := true, completions := [] } with pending := [], pendingCount := 0 } := ⟨_, rfl⟩
  have hleave : s.leave P = { (t.queue true ++ t.queue false).foldl (Rpc.rejectQueued P) t with
    queue := fun _ => [], stage := .stopping } := by rw [ht]; rfl
  have hqueued : Replies P events t ((t.queue true ++ t.queue false).filterMap (·.sender?)) := by
    have htq : t.queue = s.queue := by rw [ht]; exact hqueue
    rw [htq, ht]
    exact hfailed
  obtain ⟨hrejected, htable⟩ := rejectQueued _ hqueued
  obtain ⟨hpending, hcount⟩ := Prod.mk.inj (htable.trans (show t.table = ([], 0) by rw [ht]; rfl))
  have hsenders : (s.leave P).senders = [] := by
    rw [hleave, Rpc.senders]
    dsimp only
    rw [hpending]
    rfl
  refine ⟨?_, fun _ => hsenders, ?_⟩
  · rw [hsenders, hleave]
    exact hrejected
  · rw [hleave]
    dsimp only
    rw [hpending, hcount]
    rfl

theorem continueOrLeave {r : Rpc × Bool} (h : Inv P events r.1) : Inv P events (Rpc.continueOrLeave P r) := by
  unfold Rpc.continueOrLeave
  split
  · exact h
  · exact leave h

theorem command (h : Inv P events s) (hrunning : s.stage = .running) : Inv P events (s.command P) := by
  unfold Rpc.command
  split
  · exact h
  · next high _ =>
    split
    · exact h
    · next c rest hqueue =>
      refine continueOrLeave (dispatchCommand ⟨h.replies.perm (.symm ?_), fun hs => absurd hrunning hs, h.count⟩ hrunning)
      have hone : [c].filterMap (·.sender?) = c.sender?.toList := by cases h : c.sender? <;> simp [h]
      unfold Rpc.senders
      cases high <;> simp only [hqueue, Function.update_self, ne_eq, reduceCtorEq, not_false_eq_true, Function.update_of_ne,
        List.filterMap_append, ← hone, ← List.singleton_append (x := c) (l := rest)] <;> grind

end Inv

/-! ## Runs -/

theorem step_inv {e : RpcEvent} (he : e ∈ events) (h : Inv P events s) : Inv P events (step P s e) := by
  have hnext : ∀ {t : Rpc}, t.calls = s.calls → t.started = s.started → t.nextId = s.nextId → t.senders = s.senders →
      t.table = s.table → t.stage = s.stage → t.requests = s.requests → Inv P events t := fun hc hs hn hse ht hst hr =>
    h.aside ⟨hc, hs, hn, hse, ht, fun hne => hst ▸ hne, fun hf k => hr ▸ hf k⟩
  cases e with
  | tick | cancel | transportDown => exact hnext rfl rfl rfl rfl rfl rfl rfl
  | request => exact h.request
  | admitFailed => exact h.admitFailed
  | admitReady => exact h.admitReady
  | poll => exact h.poll
  | dropCall => exact h.dropCall
  | respond => exact h.aside .respond
  | respondFailed k =>
    dsimp only [step, Rpc.respondFailed]
    split
    · exact h.aside (.setRespond (by simp))
    · exact h
  | respondReady => exact h.aside .respondReady
  | pollRespond => exact h.aside (.pollRespond h.replies.fires)
  | dropRespond => exact h.aside (.dropRespond h.replies.fires)
  | abandon => exact h.ite fun _ => h.aside .abandonIfArmed
  | dropRequest => exact h.aside .dropRequest
  | inbound => exact h.ite fun _ => .continueOrLeave (h.handleInbound he)
  | protocolError => exact h.ite fun _ => .continueOrLeave h
  | ended => exact h.ite fun _ => .leave h
  | completion =>
    dsimp only [step]
    split
    · exact Inv.handleCompletion (hnext rfl rfl rfl rfl rfl rfl rfl)
    · exact h
  | cancelMessage =>
    dsimp only [step]
    split
    · exact Inv.removePending (hnext rfl rfl rfl rfl rfl rfl rfl)
    · exact h
  | sweep => exact h.ite fun _ => h.sweepPending
  | command => exact h.ite h.command
  | joined =>
    refine h.ite fun hstage => h.aside ⟨rfl, rfl, rfl, rfl, rfl, fun _ => ?_, fun h => h⟩
    rw [hstage.1]
    simp
  | pump => exact h.aside .pollPump
  | write => exact h.aside .write

theorem initial_inv (P : RpcParams) (now : ℕ) (events : List RpcEvent) : Inv P events (initial now) :=
  ⟨⟨fun _ _ => rfl, fun _ => ⟨le_rfl, nofun, nofun, nofun⟩, nofun, nofun, nofun, nofun⟩, fun _ => rfl, rfl⟩

theorem exec_inv : ∀ (es : List RpcEvent) {s : Rpc}, es ⊆ events → Inv P events s → Inv P events (exec (step P) s es)
  | [], _, _, h => h
  | _ :: es, _, hes, h =>
    exec_inv es (fun _ he => hes (List.mem_cons_of_mem _ he)) (step_inv (hes List.mem_cons_self) h)

theorem after_inv (P : RpcParams) (now : ℕ) (events : List RpcEvent) : Inv P events (after P now events) :=
  exec_inv events (List.Subset.refl _) (initial_inv P now events)

/-- A waiting call whose reply is there returns when it is polled. -/
theorem poll_filled {decodes : Bool} (hphase : (s.calls n).phase = .waiting) (hslot : (s.calls n).slot.filled = 1) :
    ∃ r, ((s.poll P n decodes).calls n).phase = .returned r := by
  have hset : ∀ phase, ((s.setPhase n phase).calls n).phase = phase := fun phase => by simp [Rpc.setPhase, Rpc.setCall]
  have hcancel : ∀ (t : Rpc) (c : Call), (t.sendCancelOf c).calls = t.calls := fun t c => by
    unfold Rpc.sendCancelOf Rpc.sendCancel
    repeat' split
    all_goals rfl
  unfold Rpc.poll
  simp only [hphase]
  split
  · exact ⟨_, hcancel _ _ ▸ hset _⟩
  · split
    · exact ⟨_, hcancel _ _ ▸ hset _⟩
    · split
      · exact ⟨_, hset _⟩
      · next hnone =>
        unfold Rpc.received at hnone
        split at hnone <;> simp_all [Slot.filled]

/-- What holds of the calls of a connection after a run. -/
structure Rpc.Answers (P : RpcParams) (events : List RpcEvent) (s : Rpc) : Prop where
  once : ∀ n, s.senders.countP (·.2 = n) + (s.calls n).slot.filled ≤ 1
  /-- The loop runs and there is a sender, in a command queue or in the table. Otherwise the call returns once it is
  polled. -/
  waits : ∀ n, (s.calls n).phase = .waiting → s.senders.countP (·.2 = n) = 1 ∧ s.stage = .running ∨
    s.senders.countP (·.2 = n) = 0 ∧ ∀ decodes, ∃ r, ((s.poll P n decodes).calls n).phase = .returned r
  received : ∀ n v, (s.calls n).phase = .returned (.ok v) → Received events (s.calls n).id v
  distinct : ∀ n n' id, (s.calls n).id = some id → (s.calls n').id = some id → n = n'
  count : s.pendingCount = s.pending.length
  left : s.stage ≠ .running → s.senders = []

/-- **Every call is answered once, and with its own answer only.** In every run a reply channel has one sender or one
reply, no caller waits in vain, a value comes from a response with the id of the call, which is the id of no other call,
and the counter is that of the table, which is empty once the loop is left. -/
theorem calls_answered (P : RpcParams) (now : ℕ) (events : List RpcEvent) : (after P now events).Answers P events := by
  have h := after_inv P now events
  refine ⟨fun n => ?_, fun n hn => ?_, fun n => (h.replies.ok n).returned, h.replies.distinct, h.count, h.left⟩
  · exact (h.replies.ok n).once.trans (CallPhase.sent_le _)
  · have honce := (h.replies.ok n).once.trans (CallPhase.sent_le _)
    have hwaits := (h.replies.ok n).waits hn
    dsimp only [List.nil_append] at honce hwaits
    by_cases hzero : (after P now events).senders.countP (·.2 = n) = 0
    · exact .inr ⟨hzero, fun decodes => poll_filled hn (by omega)⟩
    · refine .inl ⟨by omega, of_not_not fun hs => hzero ?_⟩
      rw [h.left hs]
      rfl

/-- A response comes in, and its caller takes the value. -/
example : ((after ⟨0, .permissive, fun s => s⟩ 0 [.request false "thread/read" 1 .generic, .admitReady 0 "null", .poll 0 true,
    .command, .inbound (.response (.string "c:0:0") "1") ⟨true, false⟩, .poll 0 true]).calls 0).phase = .returned (.ok "1") := by
  decide +kernel

end LarkCodexBridge.Codex

import LarkCodexBridge.Lib.Except
import LarkCodexBridge.Sidecar.Session

/-!
# What one event of a sidecar session does

* `Effect`: the outcomes of one event that does not end the session, with the queue operations they rest on;
* `step_effect`: an event has one of them, or ends the session and nothing else; `step_keeps` is the rule for invariants.

A notification of Codex is relayed from the state `s₁` behind its resolution, see `resolve_cases` and
`relayNotification_cases`.
-/

namespace LarkCodexBridge.Sidecar

open Codex (RequestId Value RpcErrorObject)
open Fallible

namespace Session

variable (P : SidecarParams)

/-- Frame `frame` of Codex has come. -/
def receive (s : Session) (frame : RpcFrame) : Session := { s with received := s.received ++ [frame] }

def startTimer (s : Session) (localId : RequestId) : Session :=
  { s with
    wait := .idle
    pendingServerByLocal := s.pendingServerByLocal.map fun entry =>
      if entry.1 = localId then (entry.1, { entry.2 with timeout := true }) else entry }

/-- Request `id` of Rust is done with before it went upstream. -/
def settleLocal (s : Session) (id : RequestId) (toLocal : WriteQueue Outgoing) : Session :=
  { s with
    toLocal := toLocal
    retiredLocalRequestIds := retire P s.retiredLocalRequestIds id
    requests := s.requests ++ [⟨id, none⟩] }

/-- The outcomes of one event that does not end the session. -/
inductive Effect (s : Session) : SidecarEvent → Session → Prop
  | idle (e : SidecarEvent) : Effect s e s
  | localWritten : Effect s .localWritten { s with toLocal := s.toLocal.complete P.queue }
  | upstreamWritten : Effect s .upstreamWritten { s with toUpstream := s.toUpstream.complete P.queue }
  | resumed : Effect s .resume { s with wait := .idle }
  | timed {localId : RequestId} {q : ℕ} (h : s.wait = .written localId q) : Effect s .resume (s.startTimer localId)
  | refused {id : RequestId} {method : String} {params : Option Value} {code : ℤ} {message : String} {n : ℕ}
      {toLocal : WriteQueue Outgoing} (hid : s.reusesCorrelation id = false) (hn : s.nextUpstreamId ≤ n)
      (hq : s.toLocal.enqueue P.queue
        (outgoing P (rpcError id code message) .control (.refusal s.requests.length) none) = .ok toLocal) :
      Effect s (.fromLocal (.request id method params)) ({ s with nextUpstreamId := n }.settleLocal P id toLocal)
  | forwarded {id : RequestId} {method method' : String} {params params' : Option Value}
      {toUpstream : WriteQueue Outgoing} (hid : s.reusesCorrelation id = false) (hcap : s.totalPending < P.maxPending)
      (hq : s.toUpstream.enqueue P.queue (outgoing P (.request (upstreamIdOf P s.nextUpstreamId) method' params')
        (responsePriority method) (.request s.requests.length) none) = .ok toUpstream) :
      Effect s (.fromLocal (.request id method params)) { s with
        nextUpstreamId := s.nextUpstreamId + 1
        pendingRequestsByUpstream := s.pendingRequestsByUpstream ++ [(upstreamIdOf P s.nextUpstreamId,
          ⟨id, method, activeWriterFingerprint P method params', s.requests.length⟩)]
        activeLocalRequestIds := s.activeLocalRequestIds ++ [id]
        toUpstream := toUpstream
        requests := s.requests ++ [⟨id, some (upstreamIdOf P s.nextUpstreamId)⟩] }
  | noted {method method' : String} {params params' : Option Value} {toUpstream : WriteQueue Outgoing}
      (hq : s.toUpstream.enqueue P.queue (outgoing P (.notification method' params') (notificationPriority method)
        .notification none) = .ok toUpstream) :
      Effect s (.fromLocal (.notification method params)) { s with toUpstream := toUpstream }
  | closes {id : RequestId} {params : Option Value} {toLocal : WriteQueue Outgoing}
      (hid : s.reusesCorrelation id = false)
      (hq : s.toLocal.enqueue P.queue
        (outgoing P (.response id P.emptyResult) .control (.shutdown s.requests.length) none) = .ok toLocal) :
      Effect s (.fromLocal (.request id "sidecar/shutdown" params))
        { s.settleLocal P id toLocal with closing := some s.requests.length }
  | answered {frame : RpcFrame} {id : RequestId} {answer adapted : Except RpcErrorObject Value} {pending : PendingServer}
      {toUpstream : WriteQueue Outgoing} (hframe : frame = answerFrame id answer)
      (hp : s.pendingServer? id = some pending)
      (hq : s.toUpstream.enqueue P.queue (outgoing P (answerFrame pending.upstreamId adapted) .control
        (.serverAnswer pending.serial) none) = .ok toUpstream) :
      Effect s (.fromLocal frame) { s.retireServer P pending with
        toUpstream := toUpstream
        serverResolutionIds := setMapping P s.serverResolutionIds pending.upstreamId pending.localId
        answers := s.answers ++ [id] }
  | forgiven {frame : RpcFrame} {id : RequestId} {answer : Except RpcErrorObject Value}
      (hframe : frame = answerFrame id answer) (hp : s.pendingServer? id = none) (hid : id ∈ s.expiredLocalServerIds) :
      Effect s (.fromLocal frame) { s with
        expiredLocalServerIds := s.expiredLocalServerIds.filter (· ≠ id)
        answers := s.answers ++ [id] }
  | completed {id : RequestId} {answer adapted : Except RpcErrorObject Value} {pending : PendingRequest}
      {toLocal : WriteQueue Outgoing} (hp : s.pendingRequest? id = some pending)
      (hanswer : adaptAnswer P pending answer = some adapted)
      (hq : s.toLocal.enqueueWithBackpressure P.queue (outgoing P (answerFrame pending.localId adapted)
        (responsePriority pending.method) (.answer pending.serial) (some s.received.length)) = .ok toLocal) :
      Effect s (.fromUpstream (answerFrame id answer))
        { (s.receive (answerFrame id answer)).retireRequest P id pending with toLocal := toLocal, wait := .admission }
  | notified {method : String} {params params' : Option Value} {s₁ s₂ : Session}
      (hr : (s₁ = s.receive (.notification method params) ∧ method ≠ "serverRequest/resolved") ∨
        ∃ key localId, method = "serverRequest/resolved" ∧ P.requestIdOf params = some key ∧
          (s.receive (.notification method params)).resolve P key = .ok (localId, s₁))
      (h : s₁.relayNotification P s.received.length method params' = .ok s₂) :
      Effect s (.fromUpstream (.notification method params)) s₂
  | refusedServer {id : RequestId} {method : String} {params : Option Value} {code : ℤ} {message : String}
      {toUpstream : WriteQueue Outgoing} (hid : id ∉ s.activeUpstreamServerIds) (hid' : id ∉ s.retiredUpstreamServerIds)
      (hq : s.toUpstream.enqueue P.queue
        (outgoing P (rpcError id code message) .control (.serverRefusal s.serverRequests.length) none) = .ok toUpstream) :
      Effect s (.fromUpstream (.request id method params)) { s.receive (.request id method params) with
        toUpstream := toUpstream
        retiredUpstreamServerIds := retire P s.retiredUpstreamServerIds id
        serverRequests := s.serverRequests ++ [id] }
  | asked {id : RequestId} {method method' : String} {params params' : Option Value} {toLocal : WriteQueue Outgoing}
      (hid : id ∉ s.activeUpstreamServerIds) (hid' : id ∉ s.retiredUpstreamServerIds)
      (hcap : s.totalPending < P.maxPending)
      (hq : s.toLocal.enqueueWithBackpressure P.queue (outgoing P (.request (serverIdOf P s.nextServerId) method' params')
        .control (.serverRequest s.serverRequests.length) (some s.received.length)) = .ok toLocal) :
      Effect s (.fromUpstream (.request id method params)) { s.receive (.request id method params) with
        nextServerId := s.nextServerId + 1
        pendingServerByLocal := s.pendingServerByLocal ++ [(serverIdOf P s.nextServerId,
          ⟨serverIdOf P s.nextServerId, id, method', false, s.serverRequests.length⟩)]
        activeUpstreamServerIds := s.activeUpstreamServerIds ++ [id]
        serverRequests := s.serverRequests ++ [id]
        toLocal := toLocal
        wait := .written (serverIdOf P s.nextServerId) s.serverRequests.length }
  | expired {localKey : RequestId} {pending : PendingServer} {toUpstream : WriteQueue Outgoing}
      (hp : s.pendingServer? localKey = some pending) (htimer : pending.timeout = true)
      (hq : s.toUpstream.enqueue P.queue
        (outgoing P (rpcError pending.upstreamId (-32022) "bridge server request timed out") .control
          (.serverExpiry pending.serial) none) = .ok toUpstream) :
      Effect s (.serverTimeout localKey) { s.retireServer P pending with
        toUpstream := toUpstream
        expiredLocalServerIds := retire P s.expiredLocalServerIds localKey
        serverResolutionIds := setMapping P s.serverResolutionIds pending.upstreamId pending.localId }

/-- Why an event ends the session. -/
inductive Ends (s : Session) : SidecarEvent → Ending → Prop
  | localFrame {frame : RpcFrame} {code : ErrorCode} (h : s.handleLocal P frame = .error code) :
      Ends s (.fromLocal frame) (.failed code)
  | upstreamFrame {frame : RpcFrame} {code : ErrorCode} (h : s.handleUpstream P frame = .error code) :
      Ends s (.fromUpstream frame) (.failed code)
  | malformed : Ends s .malformed (.failed .invalidRpc)
  | writeFailed : Ends s .writeFailed (.failed .writeFailed)
  | requestTimeout (key : RequestId) : Ends s (.requestTimeout key) (.failed .requestTimeout)
  | serverTimeout {key : RequestId} {code : ErrorCode} (h : s.expireServerRequest P key = .error code) :
      Ends s (.serverTimeout key) (.failed code)
  | shutdown : Ends s .shutdown .shutdown
  | shutdownWritten : Ends s .shutdownWritten .shutdown

variable {P : SidecarParams} {s s' : Session}

/-! ## Frames of Rust -/

variable {id : RequestId}

theorem refuseLocal_eq_ok {code : ℤ} {message : String} (h : s.refuseLocal P id code message = .ok s') :
    ∃ toLocal, s.toLocal.enqueue P.queue
      (outgoing P (rpcError id code message) .control (.refusal s.requests.length) none) = .ok toLocal ∧
      s' = s.settleLocal P id toLocal := by
  obtain ⟨toLocal, hq, h⟩ := bind_eq_ok.1 h
  cases h
  exact ⟨toLocal, hq, rfl⟩

variable {method : String} {params : Option Value} {frame : RpcFrame} {e : SidecarEvent}

theorem forwardLocalRequest_effect (h : s.forwardLocalRequest P id method params = .ok s') :
    Effect P s (.fromLocal (.request id method params)) s' := by
  unfold forwardLocalRequest at h
  split at h
  · cases h
  · next hid =>
    have hid : s.reusesCorrelation id = false := by simpa using hid
    split at h
    · obtain ⟨toLocal, hq, rfl⟩ := refuseLocal_eq_ok h
      exact .refused hid le_rfl hq
    · cases h
    · split at h
      · obtain ⟨toLocal, hq, rfl⟩ := refuseLocal_eq_ok h
        exact .refused hid le_rfl hq
      · next hcap =>
        dsimp only at h
        split at h
        · next toUpstream hq =>
          cases h
          exact .forwarded hid (by simpa using hcap) hq
        · obtain ⟨toLocal, hq, rfl⟩ := refuseLocal_eq_ok h
          exact .refused hid (Nat.le_succ _) hq
        · cases h

theorem beginShutdown_effect (h : s.beginShutdown P id params = .ok s') :
    Effect P s (.fromLocal (.request id "sidecar/shutdown" params)) s' := by
  unfold beginShutdown at h
  split at h
  · cases h
  · split at h
    · cases h
    · next hid =>
      obtain ⟨toLocal, hq, h⟩ := bind_eq_ok.1 h
      cases h
      exact .closes (by simpa using hid) hq

theorem forwardLocalNotification_effect (h : s.forwardLocalNotification P method params = .ok s') :
    Effect P s (.fromLocal (.notification method params)) s' := by
  unfold forwardLocalNotification at h
  split at h
  · cases h
  · obtain ⟨toUpstream, hq, h⟩ := bind_eq_ok.1 h
    cases h
    exact .noted hq

theorem forwardLocalServerResponse_effect {answer : Except RpcErrorObject Value}
    (h : s.forwardLocalServerResponse P id answer = .ok s') : Effect P s (.fromLocal (answerFrame id answer)) s' := by
  unfold forwardLocalServerResponse at h
  split at h
  · next hp =>
    split at h
    · next hid => cases h; exact .forgiven rfl hp hid
    · cases h
  · next pending hp =>
    split at h
    · cases h
    · obtain ⟨toUpstream, hq, h⟩ := bind_eq_ok.1 h
      cases h
      exact .answered rfl hp hq

theorem handleLocal_effect (h : s.handleLocal P frame = .ok s') :
    Effect P s (.fromLocal frame) s' := by
  cases frame with
  | request id method params =>
    simp only [handleLocal] at h
    split at h
    · next hm => subst hm; exact beginShutdown_effect h
    · exact forwardLocalRequest_effect h
  | notification method params => exact forwardLocalNotification_effect h
  | response id result | error id error => exact forwardLocalServerResponse_effect h

/-! ## Frames of Codex -/

theorem relay_eq_ok {frame : Outgoing} {wait : UpstreamWait} (h : s.relay P frame wait = .ok s') :
    ∃ toLocal, s.toLocal.enqueueWithBackpressure P.queue frame = .ok toLocal ∧
      s' = { s with toLocal := toLocal, wait := wait } := by
  obtain ⟨toLocal, hq, h⟩ := bind_eq_ok.1 h
  cases h
  exact ⟨toLocal, hq, rfl⟩

theorem relayNotification_cases {origin : ℕ} (h : s.relayNotification P origin method params = .ok s') :
    s' = s ∨ ∃ method' params' toLocal, s.toLocal.enqueueWithBackpressure P.queue (outgoing P
        (.notification method' params') (notificationPriority method') .notification (some origin)) = .ok toLocal ∧
      s' = { s with toLocal := toLocal, wait := .admission } := by
  unfold relayNotification at h
  split at h
  · cases h
  · cases h; exact Or.inl rfl
  · obtain ⟨toLocal, hq, rfl⟩ := relay_eq_ok h
    exact Or.inr ⟨_, _, toLocal, hq, rfl⟩

/-- A resolution is that of an answered or expired request, or of one that is pending. -/
theorem resolve_cases {key localId : RequestId} (h : s.resolve P key = .ok (localId, s')) :
    ((key, localId) ∈ s.serverResolutionIds ∧ s' = { s with
        serverResolutionIds := s.serverResolutionIds.filter (·.1 ≠ key)
        retiredServerResolutionIds := retire P s.retiredServerResolutionIds key }) ∨
      (∀ m ∈ s.serverResolutionIds, m.1 ≠ key) ∧ ∃ k pending, (k, pending) ∈ s.pendingServerByLocal ∧
        pending.upstreamId = key ∧ localId = pending.localId ∧ s' = { s.retireServer P pending with
          retiredServerResolutionIds := retire P s.retiredServerResolutionIds key
          resolvedPending := s.resolvedPending ++ [pending] } := by
  unfold resolve at h
  split at h
  · next hf =>
    cases h
    have hkey := List.find?_some hf
    rw [decide_eq_true_eq] at hkey
    exact Or.inl ⟨hkey ▸ List.mem_of_find?_eq_some hf, rfl⟩
  · next hnone =>
    split at h
    · next k active hf =>
      cases h
      have hkey := List.find?_some hf
      rw [decide_eq_true_eq] at hkey
      refine Or.inr ⟨fun m hm => ?_, k, active, List.mem_of_find?_eq_some hf, hkey, rfl, rfl⟩
      simpa using List.find?_eq_none.1 hnone m hm
    · cases h

theorem completeLocalRequest_effect (answer : Except RpcErrorObject Value)
    (h : (s.receive (answerFrame id answer)).completeLocalRequest P s.received.length id answer = .ok s') :
    Effect P s (.fromUpstream (answerFrame id answer)) s' := by
  unfold completeLocalRequest at h
  split at h
  · cases h
  · next pending hp =>
    split at h
    · cases h
    · next adapted ha =>
      obtain ⟨toLocal, hq, rfl⟩ := relay_eq_ok h
      exact .completed hp ha hq

theorem forwardUpstreamNotification_effect
    (h : (s.receive (.notification method params)).forwardUpstreamNotification P s.received.length method params =
      .ok s') : Effect P s (.fromUpstream (.notification method params)) s' := by
  unfold forwardUpstreamNotification at h
  split at h
  · next hm =>
    split at h
    · cases h
    · next key hkey =>
      obtain ⟨⟨localId, s₁⟩, hr, h⟩ := bind_eq_ok.1 h
      exact .notified (Or.inr ⟨key, localId, hm, hkey, hr⟩) h
  · next hm => exact .notified (Or.inl ⟨rfl, hm⟩) h

theorem forwardUpstreamServerRequest_effect
    (h : (s.receive (.request id method params)).forwardUpstreamServerRequest P s.received.length id method params =
      .ok s') : Effect P s (.fromUpstream (.request id method params)) s' := by
  unfold forwardUpstreamServerRequest at h
  split at h
  · cases h
  · next hid =>
    obtain ⟨hid, hid'⟩ := not_or.1 hid
    split at h
    · cases h
    · obtain ⟨toUpstream, hq, h⟩ := bind_eq_ok.1 h
      cases h
      exact .refusedServer hid hid' hq
    · split at h
      · obtain ⟨toUpstream, hq, h⟩ := bind_eq_ok.1 h
        cases h
        exact .refusedServer hid hid' hq
      · next hcap =>
        obtain ⟨toLocal, hq, rfl⟩ := relay_eq_ok h
        exact .asked hid hid' (by simpa [receive, totalPending] using hcap) hq

theorem handleUpstream_effect (h : s.handleUpstream P frame = .ok s') :
    Effect P s (.fromUpstream frame) s' := by
  cases frame with
  | request id method params => exact forwardUpstreamServerRequest_effect h
  | notification method params => exact forwardUpstreamNotification_effect h
  | response id result => exact completeLocalRequest_effect (.ok result) h
  | error id error => exact completeLocalRequest_effect (.error error) h

/-! ## All events -/

theorem resume_effect : Effect P s .resume s.resume := by
  unfold resume
  split
  · exact .idle _
  · split
    · exact .resumed
    · exact .idle _
  · next hw =>
    split
    · exact .timed hw
    · exact .idle _

theorem expireServerRequest_effect {localKey : RequestId} (h : s.expireServerRequest P localKey = .ok s') :
    Effect P s (.serverTimeout localKey) s' := by
  unfold expireServerRequest at h
  split at h
  · cases h; exact .idle _
  · next pending hp =>
    split at h
    · cases h; exact .idle _
    · next ht =>
      obtain ⟨toUpstream, hq, h⟩ := bind_eq_ok.1 h
      cases h
      exact .expired hp (by simpa using ht) hq

/-- The session goes on as before. -/
theorem Effect.ended (h : Effect P s e s') : s'.ended = s.ended := by
  cases h with
  | @notified _ _ _ s₁ _ hr hq =>
    have hs₁ : s₁.ended = s.ended := by
      rcases hr with ⟨rfl, -⟩ | ⟨key, localId, -, -, hr⟩
      · rfl
      · rcases resolve_cases hr with ⟨-, rfl⟩ | ⟨-, k, pending, -, -, -, rfl⟩ <;> rfl
    rcases relayNotification_cases hq with rfl | ⟨_, _, _, -, rfl⟩ <;> exact hs₁
  | _ => rfl

theorem orFail_effect {r : Except ErrorCode Session} (h : ∀ s', r = .ok s' → Effect P s e s') :
    Effect P s e (s.orFail r) ∨ ∃ code, r = .error code ∧ s.orFail r = s.fail code := by
  cases r with
  | ok s' => exact Or.inl (h s' rfl)
  | error code => exact Or.inr ⟨code, rfl, rfl⟩

/-- **What one event does.** -/
theorem step_effect (P : SidecarParams) (s : Session) (e : SidecarEvent) :
    Effect P s e (s.step P e) ∨
      ∃ ending, s.ended = none ∧ Ends P s e ending ∧ s.step P e = { s with ended := some ending } := by
  unfold step
  split
  · exact Or.inl (.idle e)
  · next hrun =>
    have hrun : s.ended = none := by simpa using hrun
    cases e with
    | fromLocal frame =>
      simp only [act]
      split
      · exact Or.inl (.idle _)
      · rcases orFail_effect fun s' h => handleLocal_effect h with h | ⟨code, hr, h⟩
        · exact Or.inl h
        · exact Or.inr ⟨_, hrun, .localFrame hr, h⟩
    | fromUpstream frame =>
      simp only [act]
      split
      · rcases orFail_effect fun s' h => handleUpstream_effect h with h | ⟨code, hr, h⟩
        · exact Or.inl h
        · exact Or.inr ⟨_, hrun, .upstreamFrame hr, h⟩
      · exact Or.inl (.idle _)
    | malformed => exact Or.inr ⟨_, hrun, .malformed, rfl⟩
    | resume => exact Or.inl resume_effect
    | localWritten => exact Or.inl .localWritten
    | upstreamWritten => exact Or.inl .upstreamWritten
    | writeFailed => exact Or.inr ⟨_, hrun, .writeFailed, rfl⟩
    | requestTimeout key =>
      simp only [act]
      split
      · exact Or.inr ⟨_, hrun, .requestTimeout key, rfl⟩
      · exact Or.inl (.idle _)
    | serverTimeout key =>
      rcases orFail_effect fun s' h => expireServerRequest_effect h with h | ⟨code, hr, h⟩
      · exact Or.inl h
      · exact Or.inr ⟨_, hrun, .serverTimeout hr, h⟩
    | shutdown => exact Or.inr ⟨_, hrun, .shutdown, rfl⟩
    | shutdownWritten =>
      simp only [act]
      split
      · split
        · exact Or.inr ⟨_, hrun, .shutdownWritten, rfl⟩
        · exact Or.inl (.idle _)
      · exact Or.inl (.idle _)

/-- What no effect breaks and the end does not touch is kept. -/
theorem step_keeps {I : Session → Prop} (hends : ∀ s ending, I s → I { s with ended := some ending })
    (heffect : ∀ s e s', I s → Effect P s e s' → I s') (s : Session) (e : SidecarEvent) (h : I s) : I (s.step P e) := by
  rcases step_effect P s e with he | ⟨ending, -, -, he⟩
  · exact heffect s e _ h he
  · rw [he]; exact hends s ending h

end Session

end LarkCodexBridge.Sidecar

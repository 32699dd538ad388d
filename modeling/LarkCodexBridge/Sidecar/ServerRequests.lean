import LarkCodexBridge.Sidecar.Correlation

/-!
# Server requests of well-behaved peers

Codex asks Rust through the sidecar; the answer, the timer, the resolution and the refusal of one request come in any
order.

* `Answers`: a server request is pending, answered once, or resolved before its answer (`answers_step`);
* `Accounts`: what the sidecar still knows of each request, when it forgets nothing (`accounts_step`);
* `wellBehaved_keeps`: peers that behave never break the session, except by the two orders of `Spared`.
-/

namespace LarkCodexBridge.Sidecar

open Codex (RequestId Value RpcErrorObject)
open Fallible
open Remap (Matched)
open StepSystem

namespace Session

variable {P : SidecarParams} {s s' : Session} {e : SidecarEvent}

/-! ## One answer each -/

/-- Frame `f` answers server request `q`. -/
def answersServer (q : ℕ) (f : Outgoing) : Bool :=
  f.source = .serverAnswer q ∨ f.source = .serverRefusal q ∨ f.source = .serverExpiry q

/-- `frame` resolves server request `id`. -/
def Resolves (P : SidecarParams) (id : RequestId) (frame : RpcFrame) : Prop :=
  ∃ params, frame = .notification "serverRequest/resolved" params ∧ P.requestIdOf params = some id

/-- A server request is pending, has its one answer, or Codex resolved it first. -/
structure Answers (P : SidecarParams) (s : Session) : Prop where
  entries : ∀ e ∈ s.pendingServerByLocal, s.serverRequests[e.2.serial]? = some e.2.upstreamId
  once : ∀ q, s.toUpstream.held.countP (answersServer q) + s.pendingServerByLocal.countP (·.2.serial = q) +
    s.resolvedPending.countP (·.serial = q) = if q < s.serverRequests.length then 1 else 0
  framed : ∀ f ∈ s.toUpstream.held, ∀ q, answersServer q f = true →
    ∃ id, s.serverRequests[q]? = some id ∧ f.frame.respondsTo = some id
  early : ∀ p ∈ s.resolvedPending, s.serverRequests[p.serial]? = some p.upstreamId ∧
    ∃ frame ∈ s.received, Resolves P p.upstreamId frame

theorem answers_new : Answers P new := by
  constructor <;> simp [new, WriteQueue.held, WriteQueue.empty]

namespace Answers

/-- Nothing happens to a server request. -/
theorem same (h : Answers P s) (fs : List Outgoing) (htable : s'.pendingServerByLocal.map (·.2.serial) =
      s.pendingServerByLocal.map (·.2.serial))
    (hentries : ∀ e ∈ s'.pendingServerByLocal, s.serverRequests[e.2.serial]? = some e.2.upstreamId)
    (hrequests : s'.serverRequests = s.serverRequests) (hresolved : s'.resolvedPending = s.resolvedPending)
    (hreceived : s.received <+: s'.received) (hu : s'.toUpstream.held.Perm (fs ++ s.toUpstream.held))
    (hfs : ∀ f ∈ fs, ∀ q, answersServer q f = false) : Answers P s' := by
  have hcount : ∀ q, s'.pendingServerByLocal.countP (·.2.serial = q) = s.pendingServerByLocal.countP (·.2.serial = q) := by
    intro q
    have hc := congrArg (List.countP (fun n : ℕ => decide (n = q))) htable
    simpa [List.countP_map, Function.comp_def] using hc
  refine ⟨fun e he => hrequests ▸ hentries e he, fun q => ?_, fun f hf q hq => ?_, fun p hp => ?_⟩
  · have hfs0 : fs.countP (answersServer q) = 0 := List.countP_eq_zero.2 fun f hf => by simp [hfs f hf q]
    rw [hu.countP_eq, List.countP_append, hfs0, Nat.zero_add, hcount q, hresolved, hrequests]
    exact h.once q
  · rcases List.mem_append.1 (hu.mem_iff.1 hf) with hf | hf
    · rw [hfs f hf q] at hq; cases hq
    · rw [hrequests]; exact h.framed f hf q hq
  · rw [hresolved] at hp
    obtain ⟨hserial, frame, hframe, hr⟩ := h.early p hp
    exact ⟨hrequests ▸ hserial, frame, hreceived.subset hframe, hr⟩

theorem answer {pending : PendingServer} {f : Outgoing} {k : RequestId} (h : Answers P s) (ht : Tables P s)
    (hp : (k, pending) ∈ s.pendingServerByLocal)
    (htable : s'.pendingServerByLocal = s.pendingServerByLocal.filter (·.1 ≠ pending.localId))
    (hrequests : s'.serverRequests = s.serverRequests) (hresolved : s'.resolvedPending = s.resolvedPending)
    (hreceived : s'.received = s.received) (hu : s'.toUpstream.held.Perm (f :: s.toUpstream.held))
    (hsource : f.source = .serverAnswer pending.serial ∨ f.source = .serverExpiry pending.serial)
    (hframe : f.frame.respondsTo = some pending.upstreamId) : Answers P s' := by
  have hk : pending.localId = k := ht.own _ hp
  have hperm := Matched.perm_cons_filter ht.servers.names_nodup hp
  have hf : ∀ q, answersServer q f = decide (pending.serial = q) := by
    intro q
    rcases hsource with hs | hs <;> simp [answersServer, hs]
  refine ⟨fun e he => ?_, fun q => ?_, fun g hg q hq => ?_, fun p hp => ?_⟩
  · rw [htable] at he
    rw [hrequests]
    exact h.entries e (List.mem_filter.1 he).1
  · have honce := h.once q
    rw [hperm.countP_eq, List.countP_cons] at honce
    rw [htable, hk, hu.countP_eq, List.countP_cons, hf q, hresolved, hrequests]
    refine Eq.trans ?_ honce
    dsimp only
    omega
  · rcases List.mem_cons.1 (hu.mem_iff.1 hg) with rfl | hg
    · rw [hf q, decide_eq_true_eq] at hq
      exact ⟨pending.upstreamId, by rw [hrequests, ← hq]; exact h.entries _ hp, hframe⟩
    · rw [hrequests]; exact h.framed g hg q hq
  · rw [hrequests, hreceived]
    exact h.early p (hresolved ▸ hp)

theorem request (id : RequestId) (fs : List Outgoing) (ps : List (RequestId × PendingServer)) (h : Answers P s)
    (htable : s'.pendingServerByLocal = s.pendingServerByLocal ++ ps)
    (hrequests : s'.serverRequests = s.serverRequests ++ [id]) (hresolved : s'.resolvedPending = s.resolvedPending)
    (hreceived : s.received <+: s'.received) (hu : s'.toUpstream.held.Perm (fs ++ s.toUpstream.held))
    (hcount : ∀ q, fs.countP (answersServer q) + ps.countP (·.2.serial = q) =
      if q = s.serverRequests.length then 1 else 0)
    (hps : ∀ e ∈ ps, e.2.serial = s.serverRequests.length ∧ e.2.upstreamId = id)
    (hfs : ∀ f ∈ fs, (∀ q, answersServer q f = true → q = s.serverRequests.length) ∧ f.frame.respondsTo = some id) :
    Answers P s' := by
  have hpre : s.serverRequests <+: s'.serverRequests := hrequests ▸ List.prefix_append _ _
  have hlast : s'.serverRequests[s.serverRequests.length]? = some id := by simp [hrequests]
  refine ⟨fun e he => ?_, fun q => ?_, fun f hf q hq => ?_, fun p hp => ?_⟩
  · rw [htable] at he
    rcases List.mem_append.1 he with he | he
    · exact getElem?_of_extends hpre (h.entries e he)
    · obtain ⟨hserial, hid⟩ := hps e he
      rw [hserial, hid, hlast]
  · have honce := h.once q
    have hnew := hcount q
    rw [htable, hu.countP_eq, List.countP_append, List.countP_append, hresolved, hrequests, List.length_append,
      List.length_singleton]
    split_ifs at honce hnew ⊢ <;> omega
  · rcases List.mem_append.1 (hu.mem_iff.1 hf) with hf | hf
    · obtain ⟨hserial, hid⟩ := hfs f hf
      exact ⟨id, hserial q hq ▸ hlast, hid⟩
    · obtain ⟨i, hi, hframe⟩ := h.framed f hf q hq
      exact ⟨i, getElem?_of_extends hpre hi, hframe⟩
  · obtain ⟨hserial, frame, hframe, hr⟩ := h.early p (hresolved ▸ hp)
    exact ⟨getElem?_of_extends hpre hserial, frame, hreceived.subset hframe, hr⟩

theorem relayNotification {origin : ℕ} {method : String} {params : Option Value} (h : Answers P s)
    (hr : s.relayNotification P origin method params = .ok s') : Answers P s' := by
  rcases relayNotification_cases hr with rfl | ⟨method', params', toLocal, hq, rfl⟩
  · exact h
  · exact h.same [] rfl h.entries rfl rfl List.prefix_rfl (.refl _) (by simp)

/-- A resolution, whose frame has been received. -/
theorem resolve {key localId : RequestId} (h : Answers P s) (ht : Tables P s)
    (hreceived : ∃ frame ∈ s.received, Resolves P key frame) (hr : s.resolve P key = .ok (localId, s')) :
    Answers P s' := by
  rcases resolve_cases hr with ⟨-, rfl⟩ | ⟨-, k, pending, hp, hkey, -, rfl⟩
  · exact h.same [] rfl h.entries rfl rfl List.prefix_rfl (.refl _) (by simp)
  · have hk : pending.localId = k := ht.own _ hp
    have hperm := Matched.perm_cons_filter ht.servers.names_nodup hp
    refine ⟨fun e he => h.entries e (List.mem_filter.1 he).1, fun q => ?_, h.framed, fun p hp' => ?_⟩
    · have honce := h.once q
      rw [hperm.countP_eq, List.countP_cons] at honce
      simp only [retireServer, hk, List.countP_append, List.countP_singleton] at honce ⊢
      refine Eq.trans ?_ honce
      omega
    · rcases List.mem_append.1 hp' with hp' | hp'
      · exact h.early p hp'
      · rw [List.mem_singleton.1 hp', hkey]
        exact ⟨hkey ▸ h.entries _ hp, hreceived⟩

end Answers

theorem answers_step (ht : Tables P s) (h : Answers P s) (he : Effect P s e s') : Answers P s' := by
  have hsame : ∀ {s' : Session}, s'.pendingServerByLocal = s.pendingServerByLocal → s'.serverRequests = s.serverRequests →
      s'.resolvedPending = s.resolvedPending → s.received <+: s'.received →
      s'.toUpstream.held.Perm s.toUpstream.held → Answers P s' := fun h₁ h₂ h₃ h₄ h₅ =>
    h.same [] (by rw [h₁]) (h₁ ▸ h.entries) h₂ h₃ h₄ h₅ (by simp)
  cases he with
  | idle => exact h
  | localWritten | resumed | refused | closes | forgiven => exact hsame rfl rfl rfl List.prefix_rfl (.refl _)
  | upstreamWritten => exact hsame rfl rfl rfl List.prefix_rfl (WriteQueue.perm_complete _ _)
  | timed =>
    refine h.same [] ?_ (fun e he => ?_) rfl rfl List.prefix_rfl (.refl _) (by simp)
    · simp only [startTimer, List.map_map]
      exact List.map_congr_left fun e _ => by dsimp only [Function.comp]; split <;> rfl
    · obtain ⟨e', he', rfl⟩ := List.mem_map.1 he
      have hentry := h.entries e' he'
      dsimp only
      split <;> exact hentry
  | forwarded _ _ hq | noted hq =>
    exact h.same [_] rfl h.entries rfl rfl List.prefix_rfl (WriteQueue.perm_enqueue _ hq) (by simp [answersServer, outgoing])
  | @answered _ _ _ adapted pending _ _ hp hq =>
    refine h.answer ht (pendingServer_mem hp) rfl rfl rfl rfl (WriteQueue.perm_enqueue _ hq) (Or.inl rfl) ?_
    cases adapted <;> rfl
  | completed => exact hsame rfl rfl rfl (List.prefix_append _ _) (.refl _)
  | @notified method params _ s₁ _ hr hq =>
    refine Answers.relayNotification ?_ hq
    have hrec : Answers P (s.receive (.notification method params)) :=
      hsame rfl rfl rfl (List.prefix_append _ _) (.refl _)
    have htrec : Tables P (s.receive (.notification method params)) := ⟨ht.locals, ht.servers, ht.own, ht.capacity⟩
    rcases hr with ⟨rfl, -⟩ | ⟨key, localId, rfl, hkey, hr⟩
    · exact hrec
    · exact hrec.resolve htrec ⟨_, List.mem_append_right _ (List.mem_singleton_self _), params, rfl, hkey⟩ hr
  | @refusedServer id method params code message _ _ _ hq =>
    refine h.request id [_] [] (List.append_nil _).symm rfl rfl (List.prefix_append _ _)
      (WriteQueue.perm_enqueue _ hq) (fun q => ?_) (by simp) (fun f hf => ?_)
    · simp [answersServer, outgoing, eq_comm]
    · rw [List.mem_singleton.1 hf]
      exact ⟨fun q hq => by simpa [answersServer, outgoing, eq_comm] using hq, rfl⟩
  | @asked id method method' params params' toLocal _ _ _ hq =>
    refine h.request id [] [_] rfl rfl rfl (List.prefix_append _ _) (.refl _) (fun q => ?_) (fun e he => ?_) (by simp)
    · simp [eq_comm]
    · rw [List.mem_singleton.1 he]
      exact ⟨rfl, rfl⟩
  | expired hp _ hq =>
    exact h.answer ht (pendingServer_mem hp) rfl rfl rfl rfl (WriteQueue.perm_enqueue _ hq) (Or.inr rfl) rfl

/-! ## Failures of correlation -/

/-- The failures that blame a peer's correlation. -/
def blames (code : ErrorCode) : Bool :=
  code = .lateResponse ∨ code = .unknownCorrelation ∨ code = .correlationReuse

variable {f : Outgoing} {code : ErrorCode}

theorem enqueue_blameless {q : WriteQueue Outgoing} (h : q.enqueue P.queue f = .error code) : blames code = false := by
  unfold WriteQueue.enqueue at h
  split at h
  · cases h; rfl
  · split at h
    · cases h; rfl
    · cases h

theorem enqueueWithBackpressure_blameless {q : WriteQueue Outgoing}
    (h : q.enqueueWithBackpressure P.queue f = .error code) : blames code = false := by
  unfold WriteQueue.enqueueWithBackpressure at h
  split at h
  · cases h; rfl
  · split at h
    · cases h; rfl
    · split at h
      · cases h
      · split at h
        · cases h; rfl
        · cases h

theorem bind_blameless {q : WriteQueue Outgoing} {g : WriteQueue Outgoing → Session}
    (h : (q.enqueue P.queue f >>= fun q => Except.ok (g q)) = .error code) : blames code = false := by
  rcases bind_eq_error.1 h with h | ⟨q', -, h⟩
  · exact enqueue_blameless h
  · cases h

theorem relay_blameless {wait : UpstreamWait} (h : s.relay P f wait = .error code) :
    blames code = false := by
  rcases bind_eq_error.1 h with h | ⟨q', -, h⟩
  · exact enqueueWithBackpressure_blameless h
  · cases h

theorem relayNotification_blameless {origin : ℕ} {method : String} {params : Option Value}
    (h : s.relayNotification P origin method params = .error code) : blames code = false := by
  unfold relayNotification at h
  split at h
  · cases h; rfl
  · cases h
  · exact relay_blameless h

variable {frame : RpcFrame} {key : RequestId}

/-- A frame of Rust is blamed for a reused id, or for an answer that nothing waits for. -/
theorem handleLocal_blames (h : s.handleLocal P frame = .error code) (hb : blames code = true) :
    (∃ id method params, frame = .request id method params ∧ s.reusesCorrelation id = true) ∨
      ∃ id, frame.respondsTo = some id ∧ s.pendingServer? id = none ∧ id ∉ s.expiredLocalServerIds := by
  have hanswer : ∀ id answer, s.forwardLocalServerResponse P id answer = .error code →
      s.pendingServer? id = none ∧ id ∉ s.expiredLocalServerIds := by
    intro id answer h
    unfold forwardLocalServerResponse at h
    split at h
    · next hp =>
      split at h
      · cases h
      · next hid => exact ⟨hp, hid⟩
    · split at h
      · cases h; cases hb
      · rw [bind_blameless h] at hb; cases hb
  cases frame with
  | request id method params =>
    refine Or.inl ⟨id, method, params, rfl, ?_⟩
    simp only [handleLocal] at h
    split at h
    · unfold beginShutdown at h
      split at h
      · cases h; cases hb
      · split at h
        · next hid => exact hid
        · rw [bind_blameless h] at hb; cases hb
    · unfold forwardLocalRequest at h
      split at h
      · next hid => exact hid
      · split at h
        · rw [bind_blameless h] at hb; cases hb
        · cases h; cases hb
        · split at h
          · rw [bind_blameless h] at hb; cases hb
          · dsimp only at h
            split at h
            · cases h
            · rw [bind_blameless h] at hb; cases hb
            · next hq => cases h; rw [enqueue_blameless hq] at hb; cases hb
  | notification method params =>
    simp only [handleLocal, forwardLocalNotification] at h
    split at h
    · cases h; cases hb
    · rw [bind_blameless h] at hb; cases hb
  | response id result | error id error => exact Or.inr ⟨id, rfl, hanswer _ _ h⟩

/-- A frame of Codex is blamed for a reused id, or for an answer or a resolution that nothing waits for. -/
theorem handleUpstream_blames (h : s.handleUpstream P frame = .error code) (hb : blames code = true) :
    (∃ id, frame.respondsTo = some id ∧ s.pendingRequest? id = none) ∨
      (∃ id method params, frame = .request id method params ∧
        (id ∈ s.activeUpstreamServerIds ∨ id ∈ s.retiredUpstreamServerIds)) ∨
      ∃ id, Resolves P id frame ∧ (∀ m ∈ s.serverResolutionIds, m.1 ≠ id) ∧
        ∀ e ∈ s.pendingServerByLocal, e.2.upstreamId ≠ id := by
  have hanswer : ∀ origin id answer, (s.receive frame).completeLocalRequest P origin id answer = .error code →
      s.pendingRequest? id = none := by
    intro origin id answer h
    unfold completeLocalRequest at h
    split at h
    · next hp => exact hp
    · split at h
      · cases h; cases hb
      · rw [relay_blameless h] at hb; cases hb
  cases frame with
  | response id result => exact Or.inl ⟨id, rfl, hanswer _ _ _ h⟩
  | error id error => exact Or.inl ⟨id, rfl, hanswer _ id (.error error) h⟩
  | request id method params =>
    refine Or.inr (Or.inl ⟨id, method, params, rfl, ?_⟩)
    simp only [handleUpstream, forwardUpstreamServerRequest] at h
    split at h
    · next hid => exact hid
    · split at h
      · cases h; cases hb
      · rw [bind_blameless h] at hb; cases hb
      · split at h
        · rw [bind_blameless h] at hb; cases hb
        · rw [relay_blameless h] at hb; cases hb
  | notification method params =>
    simp only [handleUpstream, forwardUpstreamNotification] at h
    split at h
    · next hm =>
      split at h
      · cases h; cases hb
      · next key hkey =>
        refine Or.inr (Or.inr ⟨key, ⟨params, by rw [hm], hkey⟩, ?_⟩)
        rcases bind_eq_error.1 h with h | ⟨⟨localId, s₁⟩, -, h⟩
        · unfold resolve at h
          split at h
          · cases h
          · next hnone =>
            split at h
            · cases h
            · next hnone' =>
              exact ⟨fun m hm => by simpa using List.find?_eq_none.1 hnone m hm,
                fun e he => by simpa using List.find?_eq_none.1 hnone' e he⟩
        · rw [relayNotification_blameless h] at hb; cases hb
    · rw [relayNotification_blameless h] at hb; cases hb

theorem expireServerRequest_blameless (h : s.expireServerRequest P key = .error code) :
    blames code = false := by
  unfold expireServerRequest at h
  split at h
  · cases h
  · split at h
    · cases h
    · exact bind_blameless h

/-! ## Peers that behave -/

/-- What well-behaved peers do in state `s`: ids are not reused, Rust and Codex answer what they were asked once, and
Codex resolves its requests once; fewer than `maxPending` server requests are retained. -/
def WellBehaved (P : SidecarParams) (s : Session) (e : SidecarEvent) : Prop :=
  (s.serverResolutionIds.length < P.maxPending ∧ s.expiredLocalServerIds.length < P.maxPending) ∧
    match e with
    | .fromLocal (.request id _ _) => (∀ req ∈ s.requests, req.id ≠ id) ∧ ∀ n, id ≠ serverIdOf P n
    | .fromLocal (.response id _) | .fromLocal (.error id _) =>
      id ∉ s.answers ∧ ∃ f ∈ s.toLocal.written, ∃ method params, f.frame = .request id method params
    | .fromUpstream (.response id _) | .fromUpstream (.error id _) =>
      (∀ frame ∈ s.received, frame.respondsTo ≠ some id) ∧
        ∃ f ∈ s.toUpstream.written, ∃ method params, f.frame = .request id method params
    | .fromUpstream (.request id _ _) => id ∉ s.serverRequests
    | .fromUpstream (.notification method params) => ∀ id, Resolves P id (.notification method params) →
      id ∈ s.serverRequests ∧ ∀ frame ∈ s.received, ¬ Resolves P id frame
    | _ => True

/-- The two orders that the session does not forgive: an answer to a request that was resolved while it was pending, and
the resolution of a request that the sidecar refused. -/
def Spared (P : SidecarParams) (s : Session) : SidecarEvent → Prop
  | .fromLocal (.response id _) | .fromLocal (.error id _) => ∀ p ∈ s.resolvedPending, p.localId ≠ id
  | .fromUpstream (.notification method params) => ∀ id q, Resolves P id (.notification method params) →
    s.serverRequests[q]? = some id → ∀ f ∈ s.toUpstream.held, f.source ≠ .serverRefusal q
  | _ => True

/-! ## What the sidecar still knows -/

/-- Every request in a queue is known. -/
def RequestsIn (held : List Outgoing) (known : RequestId → Prop) : Prop :=
  ∀ f ∈ held, ∀ id method params, f.frame = .request id method params → known id

namespace RequestsIn

variable {held held' : List Outgoing} {known known' : RequestId → Prop} {f : Outgoing}

theorem mono (h : RequestsIn held known) (hp : held'.Perm held) (hk : ∀ id, known id → known' id) :
    RequestsIn held' known' := fun f hf id m p hframe => hk id (h f (hp.mem_iff.1 hf) id m p hframe)

theorem cons (h : RequestsIn held known) (hp : held'.Perm (f :: held)) (hk : ∀ id, known id → known' id)
    (hf : ∀ id method params, f.frame = .request id method params → known' id) : RequestsIn held' known' := by
  intro g hg id m p hframe
  rcases List.mem_cons.1 (hp.mem_iff.1 hg) with rfl | hg
  · exact hf id m p hframe
  · exact hk id (h g hg id m p hframe)

end RequestsIn

/-- Server request `id` is pending, expired, answered by Rust, or was resolved while it was pending. -/
def Asked (s : Session) (id : RequestId) : Prop :=
  id ∈ s.pendingServerByLocal.map (·.1) ∨ id ∈ s.expiredLocalServerIds ∨ id ∈ s.answers ∨
    ∃ p ∈ s.resolvedPending, p.localId = id

/-- Request `id` of Rust is pending upstream, or Codex has answered it. -/
def Sent (s : Session) (id : RequestId) : Prop :=
  id ∈ s.pendingRequestsByUpstream.map (·.1) ∨ ∃ g ∈ s.received, g.respondsTo = some id

/-- Server request `q` of id `id` was refused, is resolved, or can be resolved. -/
def Resolvable (P : SidecarParams) (s : Session) (q : ℕ) (id : RequestId) : Prop :=
  (∃ f ∈ s.toUpstream.held, f.source = .serverRefusal q) ∨ (∃ g ∈ s.received, Resolves P id g) ∨
    (∃ m ∈ s.serverResolutionIds, m.1 = id) ∨ id ∈ s.activeUpstreamServerIds

/-- The sidecar has an account of every id it was given. -/
structure Accounts (P : SidecarParams) (s : Session) : Prop where
  locals : ∀ id, id ∈ s.activeLocalRequestIds ∨ id ∈ s.retiredLocalRequestIds → ∃ req ∈ s.requests, req.id = id
  upstreams : ∀ id, id ∈ s.activeUpstreamServerIds ∨ id ∈ s.retiredUpstreamServerIds → id ∈ s.serverRequests
  asked : RequestsIn s.toLocal.held s.Asked
  sent : RequestsIn s.toUpstream.held s.Sent
  resolvable : ∀ q id, s.serverRequests[q]? = some id → Resolvable P s q id

theorem accounts_new : Accounts P new := by
  constructor <;> simp [new, WriteQueue.held, WriteQueue.empty, RequestsIn]

theorem retiredBound_ge (P : SidecarParams) : 1 ≤ retiredBound P ∧ P.maxPending ≤ retiredBound P := by
  unfold retiredBound
  omega

/-- A set with room forgets nothing. -/
theorem mem_retire_of_lt {keys : List RequestId} {x : RequestId} (hroom : keys.length < P.maxPending) :
    x ∈ retire P keys key ↔ x ∈ keys ∨ x = key := by
  refine ⟨mem_retire, fun h => ?_⟩
  have hlen : (keys.erase key ++ [key]).length - retiredBound P = 0 := by
    have h₁ := List.length_erase_le (a := key) (l := keys)
    have h₂ := (retiredBound_ge P).2
    simp only [List.length_append, List.length_singleton]
    omega
  simp only [retire, hlen, List.drop_zero, List.mem_append, List.mem_singleton]
  by_cases hx : x = key
  · exact Or.inr hx
  · exact Or.inl ((List.mem_erase_of_ne hx).2 (h.resolve_right hx))

theorem mem_setMapping_of_lt {mappings : List (RequestId × RequestId)} {value : RequestId}
    (hroom : mappings.length < P.maxPending) (id : RequestId) :
    (∃ m ∈ setMapping P mappings key value, m.1 = id) ↔ (∃ m ∈ mappings, m.1 = id) ∨ id = key := by
  have hlen : (mappings.filter (·.1 ≠ key) ++ [(key, value)]).length - retiredBound P = 0 := by
    have h₁ := List.length_filter_le (fun m : RequestId × RequestId => decide (m.1 ≠ key)) mappings
    have h₂ := (retiredBound_ge P).2
    simp only [List.length_append, List.length_singleton]
    omega
  simp only [setMapping, hlen, List.drop_zero, List.mem_append, List.mem_singleton, List.mem_filter]
  constructor
  · rintro ⟨m, hm | rfl, rfl⟩
    · exact Or.inl ⟨m, hm.1, rfl⟩
    · exact Or.inr rfl
  · rintro (⟨m, hm, rfl⟩ | rfl)
    · by_cases hk : m.1 = key
      · exact ⟨(key, value), Or.inr rfl, hk.symm⟩
      · exact ⟨m, Or.inl ⟨hm, by simpa using hk⟩, rfl⟩
    · exact ⟨_, Or.inr rfl, rfl⟩

variable {id : RequestId}

theorem mem_of_mem_filter_names {α : Type*} {table : List (RequestId × α)} {k : RequestId} (h : id ∈ table.map (·.1)) :
    id = k ∨ id ∈ (table.filter (·.1 ≠ k)).map (·.1) := by
  obtain ⟨e, he, rfl⟩ := List.mem_map.1 h
  by_cases hk : e.1 = k
  · exact Or.inl hk
  · exact Or.inr (List.mem_map_of_mem (List.mem_filter.2 ⟨he, by simpa using hk⟩))

variable {q : ℕ}

/-- Only what leaves a table needs a new account. -/
theorem Resolvable.mono (h : Resolvable P s q id) (hheld : s.toUpstream.held ⊆ s'.toUpstream.held)
    (hreceived : s.received ⊆ s'.received) (hmapped : (∃ m ∈ s.serverResolutionIds, m.1 = id) → Resolvable P s' q id)
    (hactive : id ∈ s.activeUpstreamServerIds → Resolvable P s' q id) : Resolvable P s' q id := by
  rcases h with ⟨f, hf, hs⟩ | ⟨g, hg, hr⟩ | h | h
  · exact Or.inl ⟨f, hheld hf, hs⟩
  · exact Or.inr (Or.inl ⟨g, hreceived hg, hr⟩)
  · exact hmapped h
  · exact hactive h

theorem Resolvable.mapped (h : ∃ m ∈ s.serverResolutionIds, m.1 = id) : Resolvable P s q id :=
  Or.inr (Or.inr (Or.inl h))

theorem Resolvable.active (h : id ∈ s.activeUpstreamServerIds) : Resolvable P s q id :=
  Or.inr (Or.inr (Or.inr h))

/-- Nothing leaves a table. -/
theorem Resolvable.same (h : Resolvable P s q id) (hheld : s.toUpstream.held ⊆ s'.toUpstream.held)
    (hreceived : s.received ⊆ s'.received) (hmapped : s'.serverResolutionIds = s.serverResolutionIds)
    (hactive : s'.activeUpstreamServerIds = s.activeUpstreamServerIds) : Resolvable P s' q id :=
  h.mono hheld hreceived (fun h => .mapped (hmapped ▸ h)) fun h => .active (hactive ▸ h)

namespace Accounts

theorem upstreams_retire (h : Accounts P s) {id : RequestId} {active : List RequestId}
    (hactive : ∀ i ∈ active, i ∈ s.activeUpstreamServerIds) (hid : id ∈ s.serverRequests) :
    ∀ i, i ∈ active ∨ i ∈ retire P s.retiredUpstreamServerIds id → i ∈ s.serverRequests := by
  rintro i (hi | hi)
  · exact h.upstreams i (Or.inl (hactive i hi))
  · rcases mem_retire hi with hi | rfl
    · exact h.upstreams i (Or.inr hi)
    · exact hid

/-- A local id that is retired belongs to a request. -/
theorem locals_settle (h : Accounts P s) {id : RequestId} :
    ∀ i, i ∈ s.activeLocalRequestIds ∨ i ∈ retire P s.retiredLocalRequestIds id →
      ∃ req ∈ s.requests ++ [⟨id, none⟩], req.id = i := by
  have hold : ∀ i, (∃ req ∈ s.requests, req.id = i) → ∃ req ∈ s.requests ++ [⟨id, none⟩], req.id = i :=
    fun i ⟨req, hreq, hi⟩ => ⟨req, List.mem_append_left _ hreq, hi⟩
  rintro i (hi | hi)
  · exact hold i (h.locals i (Or.inl hi))
  · rcases mem_retire hi with hi | rfl
    · exact hold i (h.locals i (Or.inr hi))
    · exact ⟨⟨i, none⟩, by simp, rfl⟩

/-- A pending server request leaves the table with frame `f`: Rust has answered it, or it has expired. -/
theorem retireServer {pending : PendingServer} {f : Outgoing} {k : RequestId}
    (hroom : s.serverResolutionIds.length < P.maxPending) (h : Accounts P s) (ht : Tables P s)
    (ha : Answers P s) (hp : (k, pending) ∈ s.pendingServerByLocal) (hs' : s' = { s.retireServer P pending with
      toUpstream := s'.toUpstream
      serverResolutionIds := setMapping P s.serverResolutionIds pending.upstreamId pending.localId
      expiredLocalServerIds := s'.expiredLocalServerIds
      answers := s'.answers })
    (hu : s'.toUpstream.held.Perm (f :: s.toUpstream.held))
    (hf : ∀ id method params, f.frame ≠ .request id method params)
    (hexpired : ∀ id ∈ s.expiredLocalServerIds, id ∈ s'.expiredLocalServerIds)
    (hanswers : ∀ id ∈ s.answers, id ∈ s'.answers) (hk : k ∈ s'.expiredLocalServerIds ∨ k ∈ s'.answers) :
    Accounts P s' := by
  have hown : pending.localId = k := ht.own _ hp
  have hheld : s.toUpstream.held ⊆ s'.toUpstream.held := fun g hg => hu.mem_iff.2 (List.mem_cons_of_mem _ hg)
  rw [hs'] at hu hexpired hanswers hk hheld ⊢
  have hmapped : ∀ id, (∃ m ∈ s.serverResolutionIds, m.1 = id) ∨ id = pending.upstreamId →
      ∃ m ∈ setMapping P s.serverResolutionIds pending.upstreamId pending.localId, m.1 = id := fun id =>
    (mem_setMapping_of_lt hroom id).2
  refine ⟨h.locals, ?_, ?_, h.sent.cons hu (fun _ hk => hk) fun id m p hframe => absurd hframe (hf id m p), fun q id hq => ?_⟩
  · exact h.upstreams_retire (fun i hi => (List.mem_filter.1 hi).1) (List.mem_of_getElem? (ha.entries _ hp))
  · refine h.asked.mono (.refl _) fun id hid => ?_
    rcases hid with hid | hid | hid | hid
    · rcases mem_of_mem_filter_names (k := pending.localId) hid with rfl | hid
      · rcases hk with hk | hk
        · exact Or.inr (Or.inl (hown ▸ hk))
        · exact Or.inr (Or.inr (Or.inl (hown ▸ hk)))
      · exact Or.inl hid
    · exact Or.inr (Or.inl (hexpired id hid))
    · exact Or.inr (Or.inr (Or.inl (hanswers id hid)))
    · exact Or.inr (Or.inr (Or.inr hid))
  · refine (h.resolvable q id hq).mono hheld (List.Subset.refl _) (fun h => .mapped (hmapped id (Or.inl h))) fun hid => ?_
    by_cases hup : id = pending.upstreamId
    · exact .mapped (hmapped id (Or.inr hup))
    · exact .active (List.mem_filter.2 ⟨hid, by simpa using hup⟩)

theorem relayNotification {origin : ℕ} {method : String} {params : Option Value} (h : Accounts P s)
    (hr : s.relayNotification P origin method params = .ok s') : Accounts P s' := by
  rcases relayNotification_cases hr with rfl | ⟨method', params', toLocal, hq, rfl⟩
  · exact h
  · exact ⟨h.locals, h.upstreams, h.asked.cons (WriteQueue.perm_enqueueWithBackpressure _ hq).2 (fun _ hk => hk)
      (by simp [outgoing]), h.sent, h.resolvable⟩

/-- A resolution, whose frame has been received. -/
theorem resolve {key localId : RequestId} (h : Accounts P s) (ha : Answers P s)
    (hreceived : ∃ frame ∈ s.received, Resolves P key frame) (hr : s.resolve P key = .ok (localId, s')) :
    Accounts P s' := by
  rcases resolve_cases hr with ⟨-, rfl⟩ | ⟨-, k, pending, hp, hkey, -, rfl⟩
  · refine ⟨h.locals, h.upstreams, h.asked, h.sent, fun q id hq => ?_⟩
    refine (h.resolvable q id hq).mono (List.Subset.refl _) (List.Subset.refl _) (fun ⟨m, hm, hid⟩ => ?_) fun h => .active h
    by_cases hk : m.1 = key
    · exact Or.inr (Or.inl (hid ▸ hk ▸ hreceived))
    · exact .mapped ⟨m, List.mem_filter.2 ⟨hm, by simpa using hk⟩, hid⟩
  · refine ⟨h.locals, ?_, ?_, h.sent, fun q id hq => ?_⟩
    · exact h.upstreams_retire (fun i hi => (List.mem_filter.1 hi).1) (List.mem_of_getElem? (ha.entries _ hp))
    · refine h.asked.mono (.refl _) fun id hid => ?_
      rcases hid with hid | hid | hid | ⟨p, hp', hid⟩
      · rcases mem_of_mem_filter_names (k := pending.localId) hid with rfl | hid
        · exact Or.inr (Or.inr (Or.inr ⟨pending, by simp, rfl⟩))
        · exact Or.inl hid
      · exact Or.inr (Or.inl hid)
      · exact Or.inr (Or.inr (Or.inl hid))
      · exact Or.inr (Or.inr (Or.inr ⟨p, List.mem_append_left _ hp', hid⟩))
    · refine (h.resolvable q id hq).mono (List.Subset.refl _) (List.Subset.refl _) (fun h => .mapped h) fun hid => ?_
      by_cases hup : id = pending.upstreamId
      · exact Or.inr (Or.inl (hup ▸ hkey ▸ hreceived))
      · exact .active (List.mem_filter.2 ⟨hid, by simpa using hup⟩)

/-- A request upstream has its answer. -/
theorem complete {key : RequestId} {pending : PendingRequest} {frame : RpcFrame} {f : Outgoing}
    {toLocal : WriteQueue Outgoing} (h : Accounts P s) (ht : Tables P s) (hp : (key, pending) ∈ s.pendingRequestsByUpstream)
    (hframe : frame.respondsTo = some key) (hl : toLocal.held.Perm (f :: s.toLocal.held))
    (hf : ∀ id method params, f.frame ≠ .request id method params) :
    Accounts P { (s.receive frame).retireRequest P key pending with toLocal := toLocal, wait := .admission } := by
  have hsub : s.received ⊆ s.received ++ [frame] := List.subset_append_left _ _
  refine ⟨fun i hi => ?_, h.upstreams, h.asked.cons hl (fun _ hk => hk) fun id m p he => absurd he (hf id m p),
    h.sent.mono (.refl _) fun id hid => ?_, fun q id hq => (h.resolvable q id hq).same (List.Subset.refl _) hsub rfl rfl⟩
  · rcases hi with hi | hi
    · exact h.locals i (Or.inl (List.mem_filter.1 hi).1)
    · rcases mem_retire hi with hi | rfl
      · exact h.locals i (Or.inr hi)
      · exact h.locals _ (Or.inl (ht.locals.mem_active hp))
  · rcases hid with hid | ⟨g, hg, hid⟩
    · rcases mem_of_mem_filter_names (k := key) hid with rfl | hid
      · exact Or.inr ⟨frame, List.mem_append_right _ (List.mem_singleton_self _), hframe⟩
      · exact Or.inl hid
    · exact Or.inr ⟨g, hsub hg, hid⟩

end Accounts

/-- One event keeps the accounts while there is room. -/
theorem accounts_step (hroom : s.serverResolutionIds.length < P.maxPending ∧ s.expiredLocalServerIds.length < P.maxPending)
    (ht : Tables P s) (ha : Answers P s) (h : Accounts P s) (he : Effect P s e s') : Accounts P s' := by
  have hgrow : ∀ {q : WriteQueue Outgoing} {f : Outgoing}, q.held.Perm (f :: s.toUpstream.held) →
      s.toUpstream.held ⊆ q.held := fun hp g hg => hp.mem_iff.2 (List.mem_cons_of_mem _ hg)
  cases he with
  | idle => exact h
  | localWritten =>
    exact ⟨h.locals, h.upstreams, h.asked.mono (WriteQueue.perm_complete _ _) fun _ hk => hk, h.sent, h.resolvable⟩
  | upstreamWritten =>
    have hp := WriteQueue.perm_complete P.queue s.toUpstream
    exact ⟨h.locals, h.upstreams, h.asked, h.sent.mono hp fun _ hk => hk, fun q id hq =>
      (h.resolvable q id hq).same hp.symm.subset (List.Subset.refl _) rfl rfl⟩
  | resumed => exact ⟨h.locals, h.upstreams, h.asked, h.sent, h.resolvable⟩
  | @timed localId q hw =>
    refine ⟨h.locals, h.upstreams, h.asked.mono (.refl _) fun id hid => ?_, h.sent, h.resolvable⟩
    rcases hid with hid | hid
    · exact Or.inl (startTimer_names s localId ▸ hid)
    · exact Or.inr hid
  | refused _ _ hq =>
    exact ⟨h.locals_settle, h.upstreams, h.asked.cons (WriteQueue.perm_enqueue _ hq) (fun _ hk => hk)
      (by simp [outgoing, rpcError]), h.sent, h.resolvable⟩
  | @forwarded id method method' params params' toUpstream hid hcap hq =>
    have hp := WriteQueue.perm_enqueue _ hq
    refine ⟨fun i hi => ?_, h.upstreams, h.asked, h.sent.cons hp (fun i hi => ?_) fun i m p hframe => ?_, fun q id hq =>
      (h.resolvable q id hq).same (hgrow hp) (List.Subset.refl _) rfl rfl⟩
    · have hold : (∃ req ∈ s.requests, req.id = i) → ∃ req ∈ s.requests ++
          [⟨id, some (upstreamIdOf P s.nextUpstreamId)⟩], req.id = i :=
        .imp fun _ h => ⟨List.mem_append_left _ h.1, h.2⟩
      rcases hi with hi | hi
      · rcases List.mem_append.1 hi with hi | hi
        · exact hold (h.locals i (Or.inl hi))
        · exact ⟨_, List.mem_append_right _ (List.mem_singleton_self _), (List.mem_singleton.1 hi).symm⟩
      · exact hold (h.locals i (Or.inr hi))
    · rcases hi with hi | hi
      · exact Or.inl (by rw [List.map_append]; exact List.mem_append_left _ hi)
      · exact Or.inr hi
    · cases hframe
      exact Or.inl (by simp)
  | noted hq =>
    have hp := WriteQueue.perm_enqueue _ hq
    exact ⟨h.locals, h.upstreams, h.asked, h.sent.cons hp (fun _ hk => hk) (by simp [outgoing]), fun q id hq =>
      (h.resolvable q id hq).same (hgrow hp) (List.Subset.refl _) rfl rfl⟩
  | closes _ hq =>
    exact ⟨h.locals_settle, h.upstreams, h.asked.cons (WriteQueue.perm_enqueue _ hq) (fun _ hk => hk) (by simp [outgoing]),
      h.sent, h.resolvable⟩
  | @answered frame id answer adapted pending toUpstream hframe hp hq =>
    refine h.retireServer hroom.1 ht ha (pendingServer_mem hp) rfl (WriteQueue.perm_enqueue _ hq) ?_ (fun _ hi => hi)
      (fun _ hi => List.mem_append_left _ hi) (Or.inr (List.mem_append_right _ (List.mem_singleton_self _)))
    cases adapted <;> simp [outgoing, answerFrame]
  | @forgiven frame id answer hframe hp hid =>
    refine ⟨h.locals, h.upstreams, h.asked.mono (.refl _) fun i hi => ?_, h.sent, h.resolvable⟩
    rcases hi with hi | hi | hi | hi
    · exact Or.inl hi
    · by_cases hne : i = id
      · exact Or.inr (Or.inr (Or.inl (by simp [hne])))
      · exact Or.inr (Or.inl (List.mem_filter.2 ⟨hi, by simpa using hne⟩))
    · exact Or.inr (Or.inr (Or.inl (List.mem_append_left _ hi)))
    · exact Or.inr (Or.inr (Or.inr hi))
  | @completed id answer adapted pending toLocal hp hanswer hq =>
    refine h.complete ht (pendingRequest_mem hp) ?_ (WriteQueue.perm_enqueueWithBackpressure _ hq).2 ?_
    · cases answer <;> rfl
    · cases adapted <;> simp [outgoing, answerFrame]
  | @notified method params _ s₁ _ hr hq =>
    refine Accounts.relayNotification ?_ hq
    have hsub : s.received ⊆ s.received ++ [.notification method params] := List.subset_append_left _ _
    have hrec : Accounts P (s.receive (.notification method params)) :=
      ⟨h.locals, h.upstreams, h.asked, h.sent.mono (.refl _) fun _ hk => hk.imp_right (.imp fun _ h => ⟨hsub h.1, h.2⟩),
        fun q id hq => (h.resolvable q id hq).same (List.Subset.refl _) hsub rfl rfl⟩
    rcases hr with ⟨rfl, -⟩ | ⟨key, localId, rfl, hkey, hr⟩
    · exact hrec
    · exact hrec.resolve
        (ha.same [] rfl ha.entries rfl rfl (List.prefix_append _ _) (.refl _) (by simp))
        ⟨_, List.mem_append_right _ (List.mem_singleton_self _), params, rfl, hkey⟩ hr
  | @refusedServer id method params code message toUpstream hid hid' hq =>
    have hp := WriteQueue.perm_enqueue _ hq
    have hsub : s.received ⊆ s.received ++ [.request id method params] := List.subset_append_left _ _
    refine ⟨h.locals, fun i hi => ?_, h.asked, h.sent.cons hp (fun _ hk => hk.imp_right (.imp fun _ h => ⟨hsub h.1, h.2⟩))
      (by simp [outgoing, rpcError]), fun q i hq => ?_⟩
    · rcases hi with hi | hi
      · exact List.mem_append_left _ (h.upstreams i (Or.inl hi))
      · rcases mem_retire hi with hi | rfl
        · exact List.mem_append_left _ (h.upstreams i (Or.inr hi))
        · exact List.mem_append_right _ (List.mem_singleton_self _)
    · rcases Nat.lt_trichotomy q s.serverRequests.length with hlt | rfl | hgt
      · rw [List.getElem?_append_left hlt] at hq
        exact (h.resolvable q i hq).same (hgrow hp) hsub rfl rfl
      · exact Or.inl ⟨_, hp.mem_iff.2 List.mem_cons_self, rfl⟩
      · rw [List.getElem?_eq_none (by simp; omega)] at hq
        cases hq
  | @asked id method method' params params' toLocal hid hid' hcap hq =>
    have hp := (WriteQueue.perm_enqueueWithBackpressure _ hq).2
    have hsub : s.received ⊆ s.received ++ [.request id method params] := List.subset_append_left _ _
    refine ⟨h.locals, fun i hi => ?_, h.asked.cons hp (fun i hi => ?_) fun i m p hframe => ?_,
      h.sent.mono (.refl _) fun _ hk => hk.imp_right (.imp fun _ h => ⟨hsub h.1, h.2⟩), fun q i hq => ?_⟩
    · rcases hi with hi | hi
      · rcases List.mem_append.1 hi with hi | hi
        · exact List.mem_append_left _ (h.upstreams i (Or.inl hi))
        · exact List.mem_append_right _ hi
      · exact List.mem_append_left _ (h.upstreams i (Or.inr hi))
    · rcases hi with hi | hi
      · exact Or.inl (by rw [List.map_append]; exact List.mem_append_left _ hi)
      · exact Or.inr hi
    · cases hframe
      exact Or.inl (by simp)
    · rcases Nat.lt_trichotomy q s.serverRequests.length with hlt | rfl | hgt
      · rw [List.getElem?_append_left hlt] at hq
        exact (h.resolvable q i hq).mono (List.Subset.refl _) hsub (fun h => .mapped h) fun hi =>
          .active (List.mem_append_left _ hi)
      · rw [List.getElem?_append_right le_rfl, Nat.sub_self] at hq
        cases hq
        exact .active (List.mem_append_right _ (List.mem_singleton_self _))
      · rw [List.getElem?_eq_none (by simp; omega)] at hq
        cases hq
  | @expired localKey pending toUpstream hp htimer hq =>
    refine h.retireServer hroom.1 ht ha (pendingServer_mem hp) rfl (WriteQueue.perm_enqueue _ hq) (by simp [outgoing, rpcError])
      (fun _ hi => ?_) (fun _ hi => hi) (Or.inl ?_)
    · exact (mem_retire_of_lt hroom.2).2 (Or.inl hi)
    · exact (mem_retire_of_lt hroom.2).2 (Or.inr rfl)

/-! ## Every run -/

theorem pendingServer_isSome (h : id ∈ s.pendingServerByLocal.map (·.1)) : s.pendingServer? id ≠ none := by
  obtain ⟨e, he, rfl⟩ := List.mem_map.1 h
  rw [pendingServer?, ne_eq, Option.map_eq_none_iff, List.find?_eq_none]
  exact fun h => h e he (by simp)

theorem pendingRequest_isSome (h : id ∈ s.pendingRequestsByUpstream.map (·.1)) :
    s.pendingRequest? id ≠ none := by
  obtain ⟨e, he, rfl⟩ := List.mem_map.1 h
  rw [pendingRequest?, ne_eq, Option.map_eq_none_iff, List.find?_eq_none]
  exact fun h => h e he (by simp)

/-- Rust is not blamed for what `WellBehaved` and `Spared` allow. -/
theorem handleLocal_wellBehaved (ht : Tables P s) (h : Accounts P s) (hw : WellBehaved P s (.fromLocal frame))
    (hs : Spared P s (.fromLocal frame)) (hf : s.handleLocal P frame = .error code) : blames code = false := by
  by_contra hb
  rcases handleLocal_blames hf (by simpa using hb) with ⟨id, method, params, rfl, hid⟩ | ⟨id, hid, hp, hexpired⟩
  · obtain ⟨-, hfresh, hserver⟩ := hw
    simp only [reusesCorrelation, Bool.or_eq_true, decide_eq_true_eq] at hid
    rcases hid with ((hid | hid) | hid) | hid
    · obtain ⟨req, hreq, he⟩ := h.locals id (Or.inl hid)
      exact hfresh req hreq he
    · obtain ⟨req, hreq, he⟩ := h.locals id (Or.inr hid)
      exact hfresh req hreq he
    · obtain ⟨pending, hp⟩ := Option.isSome_iff_exists.1 hid
      obtain ⟨n, -, hn⟩ := ht.servers.names_old id (List.mem_map_of_mem (pendingServer_mem hp))
      exact hserver n hn
    · obtain ⟨n, -, hn⟩ := ht.servers.gone_old id hid
      exact hserver n hn
  · have hanswer : id ∉ s.answers ∧ (∃ f ∈ s.toLocal.written, ∃ m p, f.frame = .request id m p) ∧
        ∀ p ∈ s.resolvedPending, p.localId ≠ id := by
      cases frame with
      | response i result | error i error => cases hid; exact ⟨hw.2.1, hw.2.2, hs⟩
      | request => cases hid
      | notification => cases hid
    obtain ⟨hnot, ⟨f, hf, m, p, hframe⟩, hearly⟩ := hanswer
    rcases h.asked f (List.mem_append_left _ hf) id m p hframe with ha | ha | ha | ⟨p, hp', ha⟩
    · exact pendingServer_isSome ha hp
    · exact hexpired ha
    · exact hnot ha
    · exact hearly p hp' ha

/-- Codex is not blamed for what `WellBehaved` and `Spared` allow. -/
theorem handleUpstream_wellBehaved (ht : Tables P s) (h : Accounts P s) (hw : WellBehaved P s (.fromUpstream frame))
    (hs : Spared P s (.fromUpstream frame)) (hf : s.handleUpstream P frame = .error code) : blames code = false := by
  by_contra hb
  rcases handleUpstream_blames hf (by simpa using hb) with ⟨id, hid, hp⟩ | ⟨id, method, params, rfl, hid⟩ |
    ⟨id, hr, hmapped, hactive⟩
  · have hanswer : (∀ g ∈ s.received, g.respondsTo ≠ some id) ∧
        ∃ f ∈ s.toUpstream.written, ∃ m p, f.frame = .request id m p := by
      cases frame with
      | response i result => cases hid; exact hw.2
      | error i error => cases hid; exact hw.2
      | request => cases hid
      | notification => cases hid
    obtain ⟨hnot, f, hf, m, p, hframe⟩ := hanswer
    rcases h.sent f (List.mem_append_left _ hf) id m p hframe with ha | ⟨g, hg, ha⟩
    · exact pendingRequest_isSome ha hp
    · exact hnot g hg ha
  · exact hw.2 (h.upstreams id hid)
  · obtain ⟨params, rfl, hkey⟩ := hr
    obtain ⟨hmem, hnot⟩ := hw.2 id ⟨params, rfl, hkey⟩
    obtain ⟨q, hq⟩ := List.getElem?_of_mem hmem
    rcases h.resolvable q id hq with ⟨f, hf, hsource⟩ | ⟨g, hg, hr⟩ | ⟨m, hm, hid⟩ | hid
    · exact hs id q ⟨params, rfl, hkey⟩ hq f hf hsource
    · exact hnot g hg hr
    · exact hmapped m hm hid
    · rw [ht.servers.active_eq, List.mem_map] at hid
      obtain ⟨e, he, hid⟩ := hid
      exact hactive e he hid

/-- What a run of peers that behave keeps. -/
structure Peaceful (P : SidecarParams) (s : Session) : Prop where
  tables : Tables P s
  answers : Answers P s
  accounts : s.ended = none → Accounts P s
  blameless : ∀ code, s.ended = some (.failed code) → blames code = false

theorem peaceful_step (h : Peaceful P s) (hw : WellBehaved P s e) (hs : Spared P s e) : Peaceful P (s.step P e) := by
  obtain ⟨ht, ha, hacc, hblame⟩ := h
  rcases step_effect P s e with he | ⟨ending, hrun, hends, he⟩
  · refine ⟨tables_step ht he, answers_step ht ha he, fun hrun => ?_, fun code hcode => hblame code (he.ended ▸ hcode)⟩
    exact accounts_step hw.1 ht ha (hacc (he.ended ▸ hrun)) he
  · rw [he]
    refine ⟨⟨ht.locals, ht.servers, ht.own, ht.capacity⟩, ha.same [] rfl ha.entries rfl rfl List.prefix_rfl (.refl _) (by simp),
      fun h => (nomatch h), fun code hcode => ?_⟩
    cases hends with
    | localFrame hf =>
      cases hcode
      exact handleLocal_wellBehaved ht (hacc hrun) hw hs hf
    | upstreamFrame hf =>
      cases hcode
      exact handleUpstream_wellBehaved ht (hacc hrun) hw hs hf
    | serverTimeout hf =>
      cases hcode
      exact expireServerRequest_blameless hf
    | malformed | writeFailed | requestTimeout => cases hcode; rfl
    | shutdown => cases hcode
    | shutdownWritten => cases hcode

/-- **Peers that behave never break the session**, outside of the two orders of `Spared`: no frame fails it for its
correlation, and a server request is pending, has its one answer upstream, or was resolved by Codex first. -/
theorem wellBehaved_keeps (P : SidecarParams) (events : List SidecarEvent)
    (h : Along (step P) (fun s e => WellBehaved P s e ∧ Spared P s e) new events) :
    (∀ code, blames code = true → (after P events).ended ≠ some (.failed code)) ∧
      (∀ q < (after P events).serverRequests.length,
        (after P events).toUpstream.held.countP (answersServer q) +
          (after P events).pendingServerByLocal.countP (·.2.serial = q) +
          (after P events).resolvedPending.countP (·.serial = q) = 1) ∧
      (∀ f ∈ (after P events).toUpstream.held, ∀ q, answersServer q f = true →
        ∃ id, (after P events).serverRequests[q]? = some id ∧ f.frame.respondsTo = some id) ∧
      ∀ p ∈ (after P events).resolvedPending, (after P events).serverRequests[p.serial]? = some p.upstreamId ∧
        ∃ frame ∈ (after P events).received, Resolves P p.upstreamId frame := by
  have hp : Peaceful P (after P events) :=
    exec_invariant (I := Peaceful P) (fun _ _ hI hC => peaceful_step hI hC.1 hC.2)
      ⟨tables_new, answers_new, fun _ => accounts_new, fun _ h => (nomatch h)⟩ h
  refine ⟨fun code hb hcode => ?_, fun q hq => ?_, hp.answers.framed, hp.answers.early⟩
  · rw [hp.blameless code hcode] at hb
    cases hb
  · have honce := hp.answers.once q
    rwa [if_pos hq] at honce

/-- Codex asks, and then resolves what it asked. -/
def resolved41 : RpcFrame := .notification "serverRequest/resolved" (some "41")

/-- The sidecar refuses a request that it does not know; Codex resolves it. -/
def refusedRun : List SidecarEvent :=
  [.fromUpstream (.request (.string "41") "future/request" none), .fromUpstream resolved41]

/-- Codex resolves a request while it is pending, and Rust answers it late. -/
def lateRun : List SidecarEvent :=
  [.fromUpstream (.request (.string "41") "item/tool/call" none), .localWritten, .resume, .fromUpstream resolved41,
    .localWritten, .resume, .fromLocal (.response (serverIdOf plainSidecar 1) "ok")]

/-- Rust answers, and then Codex resolves. -/
def answeredRun : List SidecarEvent :=
  [.fromUpstream (.request (.string "41") "item/tool/call" none), .localWritten, .resume,
    .fromLocal (.response (serverIdOf plainSidecar 1) "ok"), .fromUpstream resolved41]

theorem wellBehaved_resolved41 {s : Session} (hroom : s.serverResolutionIds.length < 448 ∧
      s.expiredLocalServerIds.length < 448) (hasked : RequestId.string "41" ∈ s.serverRequests)
    (hfirst : ∀ frame ∈ s.received, ∀ method params, frame ≠ .notification method params) :
    WellBehaved plainSidecar s (.fromUpstream resolved41) := by
  refine ⟨hroom, fun id ⟨params, hp, hkey⟩ => ?_⟩
  cases hp
  cases hkey
  exact ⟨hasked, fun frame hf ⟨params, hp, _⟩ => hfirst frame hf _ _ hp⟩

/-- Peers that behave break the session in both orders. -/
theorem wellBehaved_breaks :
    (Along (step plainSidecar) (WellBehaved plainSidecar) new refusedRun ∧
      (after plainSidecar refusedRun).ended = some (.failed .unknownCorrelation)) ∧
    Along (step plainSidecar) (WellBehaved plainSidecar) new lateRun ∧
      (after plainSidecar lateRun).ended = some (.failed .lateResponse) := by
  have hroom : ((0 : ℕ) < 448 ∧ (0 : ℕ) < 448) := by decide
  refine ⟨⟨⟨⟨hroom, by decide⟩, wellBehaved_resolved41 hroom (by decide) (fun frame hf m p => ?_), trivial⟩, rfl⟩,
    ⟨⟨hroom, by decide⟩, ⟨hroom, trivial⟩, ⟨hroom, trivial⟩,
      wellBehaved_resolved41 hroom (by decide) (fun frame hf m p => ?_), ⟨hroom, trivial⟩, ⟨hroom, trivial⟩,
      ⟨hroom, by decide, ?_⟩, trivial⟩, rfl⟩
  · rw [List.mem_singleton.1 hf]; exact fun h => nomatch h
  · rw [List.mem_singleton.1 hf]; exact fun h => nomatch h
  · exact ⟨_, List.mem_cons_self, "item/tool/call", none, rfl⟩

theorem wellBehaved_keeps_answered :
    Along (step plainSidecar) (fun s e => WellBehaved plainSidecar s e ∧ Spared plainSidecar s e) new answeredRun ∧
      ∀ code, blames code = true → (after plainSidecar answeredRun).ended ≠ some (.failed code) := by
  have hroom : ((0 : ℕ) < 448 ∧ (0 : ℕ) < 448) := by decide
  have hrun : Along (step plainSidecar) (fun s e => WellBehaved plainSidecar s e ∧ Spared plainSidecar s e) new
      answeredRun := by
    refine ⟨⟨⟨hroom, by decide⟩, trivial⟩, ⟨⟨hroom, trivial⟩, trivial⟩, ⟨⟨hroom, trivial⟩, trivial⟩,
      ⟨⟨hroom, by decide, ?_⟩, fun p hp => nomatch hp⟩,
      ⟨wellBehaved_resolved41 (by decide) (by decide) fun frame hf m p => ?_, fun id q hr hq f hf => ?_⟩, trivial⟩
    · exact ⟨_, List.mem_cons_self, "item/tool/call", none, rfl⟩
    · rw [List.mem_singleton.1 hf]; exact fun h => nomatch h
    · rw [List.mem_singleton.1 hf]; exact fun h => nomatch h
  exact ⟨hrun, (wellBehaved_keeps plainSidecar answeredRun hrun).1⟩

end Session

end LarkCodexBridge.Sidecar

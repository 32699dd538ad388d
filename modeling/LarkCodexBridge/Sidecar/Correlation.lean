import LarkCodexBridge.Lib.Numeral
import LarkCodexBridge.Lib.Remap
import LarkCodexBridge.Sidecar.Steps

/-!
# Correlation is exact in both directions

* `Tables`: the four tables agree, and what is retired is not active (`tables_step`);
* `Requests`: a request of Rust is pending or has its one response (`requests_step`);
* `correlation_exact`: both, after every run.
-/

namespace LarkCodexBridge.Sidecar

open Codex (RequestId Value RpcErrorObject)
open Remap (Matched)
open StepSystem

namespace Session

variable {P : SidecarParams} {s s' : Session} {e : SidecarEvent} {key id : RequestId} {requests : List LocalRequest}
  {received : List RpcFrame}

/-! ## Ids -/

theorem upstreamIdOf_injective (P : SidecarParams) : Function.Injective (upstreamIdOf P) := fun _ _ h =>
  Numeral.append_injective _ (RequestId.string.inj h)

theorem serverIdOf_injective (P : SidecarParams) : Function.Injective (serverIdOf P) := fun _ _ h =>
  Numeral.append_injective _ (RequestId.string.inj h)

theorem mem_retire {keys : List RequestId} {x : RequestId} (h : x ∈ retire P keys key) : x ∈ keys ∨ x = key := by
  have h := List.mem_of_mem_drop h
  rcases List.mem_append.1 h with h | h
  · exact Or.inl (List.mem_of_mem_erase h)
  · exact Or.inr (List.mem_singleton.1 h)

theorem pendingRequest_mem {pending : PendingRequest} (h : s.pendingRequest? key = some pending) :
    (key, pending) ∈ s.pendingRequestsByUpstream := by
  obtain ⟨⟨k, a⟩, hf, rfl⟩ := Option.map_eq_some_iff.1 h
  have hk := List.find?_some hf
  rw [decide_eq_true_eq] at hk
  exact hk ▸ List.mem_of_find?_eq_some hf

theorem pendingServer_mem {pending : PendingServer} (h : s.pendingServer? key = some pending) :
    (key, pending) ∈ s.pendingServerByLocal := by
  obtain ⟨⟨k, a⟩, hf, rfl⟩ := Option.map_eq_some_iff.1 h
  have hk := List.find?_some hf
  rw [decide_eq_true_eq] at hk
  exact hk ▸ List.mem_of_find?_eq_some hf

theorem reusesCorrelation_eq_false (h : s.reusesCorrelation id = false) :
    id ∉ s.activeLocalRequestIds ∧ id ∉ s.retiredLocalRequestIds := by
  simp only [reusesCorrelation, Bool.or_eq_false_iff, decide_eq_false_iff_not] at h
  exact ⟨h.1.1.1, h.1.1.2⟩

/-! ## The tables -/

/-- The tables agree with the active sets, within the capacity; what is retired is not active. -/
structure Tables (P : SidecarParams) (s : Session) : Prop where
  locals : Matched (upstreamIdOf P) PendingRequest.localId s.nextUpstreamId s.pendingRequestsByUpstream
    s.activeLocalRequestIds s.retiredUpstreamResponseIds s.retiredLocalRequestIds
  servers : Matched (serverIdOf P) PendingServer.upstreamId s.nextServerId s.pendingServerByLocal
    s.activeUpstreamServerIds s.retiredLocalServerIds s.retiredUpstreamServerIds
  own : ∀ e ∈ s.pendingServerByLocal, e.2.localId = e.1
  capacity : s.totalPending ≤ P.maxPending

theorem tables_new : Tables P new := ⟨Remap.matched_nil, Remap.matched_nil, by simp [new], by simp [totalPending, new]⟩

theorem startTimer_names (s : Session) (localId : RequestId) :
    (s.startTimer localId).pendingServerByLocal.map (·.1) = s.pendingServerByLocal.map (·.1) := by
  simp only [startTimer, List.map_map]
  exact List.map_congr_left fun e _ => by dsimp only [Function.comp]; split <;> rfl

namespace Tables

theorem settleLocal {id : RequestId} (toLocal : WriteQueue Outgoing) (h : Tables P s)
    (hid : id ∉ s.activeLocalRequestIds) : Tables P (s.settleLocal P id toLocal) :=
  ⟨h.locals.retire hid fun _ hj => mem_retire hj, h.servers, h.own, h.capacity⟩

theorem retireServer {pending : PendingServer} {k : RequestId} (h : Tables P s)
    (hp : (k, pending) ∈ s.pendingServerByLocal) : Tables P (s.retireServer P pending) := by
  have hk : pending.localId = k := h.own _ hp
  refine ⟨h.locals, h.servers.remove (hk ▸ hp) (fun _ => mem_retire) (fun _ => mem_retire), fun e he => ?_, ?_⟩
  · exact h.own e (List.mem_filter.1 he).1
  · have hle := List.length_filter_le (fun e : RequestId × PendingServer => decide (e.1 ≠ pending.localId))
      s.pendingServerByLocal
    have hcap := h.capacity
    simp only [totalPending, Session.retireServer] at hcap ⊢
    omega

theorem retireRequest {pending : PendingRequest} {k : RequestId} (h : Tables P s)
    (hp : (k, pending) ∈ s.pendingRequestsByUpstream) : Tables P (s.retireRequest P k pending) := by
  refine ⟨h.locals.remove hp (fun _ => mem_retire) (fun _ => mem_retire), h.servers, h.own, ?_⟩
  have hle := List.length_filter_le (fun e : RequestId × PendingRequest => decide (e.1 ≠ k)) s.pendingRequestsByUpstream
  have hcap := h.capacity
  simp only [totalPending, Session.retireRequest] at hcap ⊢
  omega

theorem startTimer (h : Tables P s) (localId : RequestId) : Tables P (s.startTimer localId) := by
  refine ⟨h.locals, h.servers.congr (startTimer_names s localId) ?_, fun e he => ?_, ?_⟩
  · simp only [Session.startTimer, List.map_map]
    exact List.map_congr_left fun e _ => by dsimp only [Function.comp]; split <;> rfl
  · obtain ⟨e', he', rfl⟩ := List.mem_map.1 he
    have ho := h.own e' he'
    dsimp only
    split <;> exact ho
  · have hcap := h.capacity
    simpa [totalPending, Session.startTimer] using hcap

theorem resolve {key localId : RequestId} (h : Tables P s) (hr : s.resolve P key = .ok (localId, s')) :
    Tables P s' := by
  rcases resolve_cases hr with ⟨-, rfl⟩ | ⟨-, k, pending, hp, -, -, rfl⟩
  · exact ⟨h.locals, h.servers, h.own, h.capacity⟩
  · have h' := h.retireServer hp
    exact ⟨h'.locals, h'.servers, h'.own, h'.capacity⟩

theorem relayNotification {origin : ℕ} {method : String} {params : Option Value} (h : Tables P s)
    (hr : s.relayNotification P origin method params = .ok s') : Tables P s' := by
  rcases relayNotification_cases hr with rfl | ⟨_, _, _, -, rfl⟩
  · exact h
  · exact ⟨h.locals, h.servers, h.own, h.capacity⟩

end Tables

theorem tables_step (h : Tables P s) (he : Effect P s e s') : Tables P s' := by
  cases he with
  | idle => exact h
  | localWritten | upstreamWritten | resumed | noted | forgiven => exact ⟨h.locals, h.servers, h.own, h.capacity⟩
  | timed => exact h.startTimer _
  | refused hid hn =>
    have hb : Tables P { s with nextUpstreamId := _ } := ⟨h.locals.bump hn, h.servers, h.own, h.capacity⟩
    exact hb.settleLocal _ (reusesCorrelation_eq_false hid).1
  | forwarded hid hcap =>
    obtain ⟨hactive, hretired⟩ := reusesCorrelation_eq_false hid
    refine ⟨h.locals.add (upstreamIdOf_injective P) hactive hretired, h.servers, h.own, ?_⟩
    simp only [totalPending, List.length_append, List.length_singleton] at hcap ⊢
    omega
  | closes hid =>
    have h' := h.settleLocal s.toLocal (reusesCorrelation_eq_false hid).1
    exact ⟨h'.locals, h'.servers, h'.own, h'.capacity⟩
  | answered _ hp | expired hp =>
    have h' := h.retireServer (pendingServer_mem hp)
    exact ⟨h'.locals, h'.servers, h'.own, h'.capacity⟩
  | completed hp =>
    have h' := h.retireRequest (pendingRequest_mem hp)
    exact ⟨h'.locals, h'.servers, h'.own, h'.capacity⟩
  | notified hr hq =>
    refine Tables.relayNotification ?_ hq
    have hrec : ∀ frame, Tables P (s.receive frame) := fun _ => ⟨h.locals, h.servers, h.own, h.capacity⟩
    rcases hr with ⟨rfl, -⟩ | ⟨key, localId, -, -, hr⟩
    · exact hrec _
    · exact (hrec _).resolve hr
  | refusedServer hid =>
    exact ⟨h.locals, h.servers.retire hid fun _ => mem_retire, h.own, h.capacity⟩
  | asked hid hid' hcap =>
    refine ⟨h.locals, h.servers.add (serverIdOf_injective P) hid hid', fun e he => ?_, ?_⟩
    · rcases List.mem_append.1 he with he | he
      · exact h.own e he
      · rw [List.mem_singleton.1 he]
    · simp only [totalPending, receive, List.length_append, List.length_singleton] at hcap ⊢
      omega

/-! ## The requests of Rust -/

/-- Frame `f` is a response to request `r` of Rust. -/
def responds (r : ℕ) (f : Outgoing) : Bool := f.source = .answer r ∨ f.source = .refusal r ∨ f.source = .shutdown r

/-- `answer` is what the answer of Codex under `upstreamId` becomes for `pending`. -/
def Adapts (P : SidecarParams) (pending : PendingRequest) (upstreamId : RequestId) : RpcFrame → RpcFrame → Prop
  | .response id result, answer => id = upstreamId ∧ ∃ result', P.adapter.fromUpstreamResponse pending.method result =
      some result' ∧ answer = .response pending.localId result'
  | .error id error, answer =>
    id = upstreamId ∧ answer = .error pending.localId (classifyUpstreamError P pending error)
  | _, _ => False

/-- What a frame for Rust is, by what it is for. -/
def Delivered (P : SidecarParams) (requests : List LocalRequest) (received : List RpcFrame) (f : Outgoing) : Prop :=
  match f.source with
  | .answer r => ∃ pending upstreamId k frame, requests[r]? = some ⟨pending.localId, some upstreamId⟩ ∧
      f.origin = some k ∧ received[k]? = some frame ∧ Adapts P pending upstreamId frame f.frame
  | .refusal r => ∃ id code message, requests[r]? = some ⟨id, none⟩ ∧ f.frame = rpcError id code message
  | .shutdown r => ∃ id, requests[r]? = some ⟨id, none⟩ ∧ f.frame = .response id P.emptyResult
  | .serverRequest _ => ∃ id method params, f.frame = .request id method params
  | .notification => ∃ method params, f.frame = .notification method params
  | _ => False

theorem getElem?_of_extends {α : Type*} {l l' : List α} (h : l <+: l') {i : ℕ} {a : α} (ha : l[i]? = some a) :
    l'[i]? = some a := by
  obtain ⟨t, rfl⟩ := h
  rw [List.getElem?_append_left (List.getElem?_eq_some_iff.1 ha).1]
  exact ha

theorem Delivered.mono {requests' : List LocalRequest} {received' : List RpcFrame} {f : Outgoing}
    (hq : requests <+: requests') (hr : received <+: received') (h : Delivered P requests received f) :
    Delivered P requests' received' f := by
  unfold Delivered at h ⊢
  split at h
  · obtain ⟨pending, upstreamId, k, frame, h₁, h₂, h₃, h₄⟩ := h
    exact ⟨pending, upstreamId, k, frame, getElem?_of_extends hq h₁, h₂, getElem?_of_extends hr h₃, h₄⟩
  · obtain ⟨id, code, message, h₁, h₂⟩ := h
    exact ⟨id, code, message, getElem?_of_extends hq h₁, h₂⟩
  · obtain ⟨id, h₁, h₂⟩ := h
    exact ⟨id, getElem?_of_extends hq h₁, h₂⟩
  · exact h
  · exact h
  · exact h.elim

/-- Each request of Rust is pending or has its one response; what goes upstream goes once, under its own id. -/
structure Requests (P : SidecarParams) (s : Session) : Prop where
  entries : ∀ e ∈ s.pendingRequestsByUpstream, s.requests[e.2.serial]? = some ⟨e.2.localId, some e.1⟩
  ids_old : ∀ u ∈ s.requests.filterMap (·.upstreamId), ∃ n < s.nextUpstreamId, u = upstreamIdOf P n
  ids_nodup : (s.requests.filterMap (·.upstreamId)).Nodup
  once : ∀ r, s.toLocal.held.countP (responds r) + s.pendingRequestsByUpstream.countP (·.2.serial = r) =
    if r < s.requests.length then 1 else 0
  sent : ∀ r, s.toUpstream.held.countP (·.source = .request r) =
    if (s.requests[r]?.bind (·.upstreamId)).isSome then 1 else 0
  delivered : ∀ f ∈ s.toLocal.held, Delivered P s.requests s.received f
  forwarded : ∀ f ∈ s.toUpstream.held, ∀ r, f.source = .request r → ∃ id upstreamId method params,
    s.requests[r]? = some ⟨id, some upstreamId⟩ ∧ f.frame = .request upstreamId method params

theorem requests_new : Requests P new := by
  constructor <;> simp [new, WriteQueue.held, WriteQueue.empty]

/-- The requests do not care for what other frames the queues take. -/
theorem Requests.extend (h : Requests P s) (fs gs : List Outgoing)
    (htable : s'.pendingRequestsByUpstream = s.pendingRequestsByUpstream) (hnext : s'.nextUpstreamId = s.nextUpstreamId)
    (hrequests : s'.requests = s.requests) (hreceived : s.received <+: s'.received)
    (hl : s'.toLocal.held.Perm (fs ++ s.toLocal.held)) (hu : s'.toUpstream.held.Perm (gs ++ s.toUpstream.held))
    (hfs : ∀ f ∈ fs, (∀ r, responds r f = false) ∧ Delivered P s'.requests s'.received f)
    (hgs : ∀ g ∈ gs, ∀ r, g.source ≠ .request r) : Requests P s' := by
  refine ⟨?_, ?_, ?_, fun r => ?_, fun r => ?_, fun f hf => ?_, fun f hf r hr => ?_⟩
  · rw [htable, hrequests]; exact h.entries
  · rw [hrequests, hnext]; exact h.ids_old
  · rw [hrequests]; exact h.ids_nodup
  · have hfs0 : fs.countP (responds r) = 0 := List.countP_eq_zero.2 fun f hf => by simp [(hfs f hf).1 r]
    rw [hl.countP_eq, List.countP_append, hfs0, Nat.zero_add, htable, hrequests]
    exact h.once r
  · have hgs0 : gs.countP (·.source = .request r) = 0 := List.countP_eq_zero.2 fun g hg => by simp [hgs g hg r]
    rw [hu.countP_eq, List.countP_append, hgs0, Nat.zero_add, hrequests]
    exact h.sent r
  · rcases List.mem_append.1 (hl.mem_iff.1 hf) with hf | hf
    · exact (hfs f hf).2
    · exact (h.delivered f hf).mono (hrequests ▸ List.prefix_rfl) hreceived
  · rcases List.mem_append.1 (hu.mem_iff.1 hf) with hf | hf
    · exact absurd hr (hgs f hf r)
    · rw [hrequests]; exact h.forwarded f hf r hr

namespace Requests

/-- Nothing new for either queue. -/
theorem same (h : Requests P s) (htable : s'.pendingRequestsByUpstream = s.pendingRequestsByUpstream)
    (hnext : s'.nextUpstreamId = s.nextUpstreamId) (hrequests : s'.requests = s.requests)
    (hreceived : s.received <+: s'.received) (hl : s'.toLocal.held.Perm s.toLocal.held)
    (hu : s'.toUpstream.held.Perm s.toUpstream.held) : Requests P s' :=
  h.extend [] [] htable hnext hrequests hreceived hl hu (by simp) (by simp)

variable {f : Outgoing}

/-- A new request that does not go upstream, with its response. -/
theorem settleLocal (id : RequestId) {toLocal : WriteQueue Outgoing} (h : Requests P s)
    (hl : toLocal.held.Perm (f :: s.toLocal.held)) (hf : ∀ r, responds r f = true ↔ r = s.requests.length)
    (hd : Delivered P (s.requests ++ [⟨id, none⟩]) s.received f) : Requests P (s.settleLocal P id toLocal) := by
  have hpre : s.requests <+: s.requests ++ [⟨id, none⟩] := List.prefix_append _ _
  refine ⟨fun e he => getElem?_of_extends hpre (h.entries e he), ?_, ?_, fun r => ?_, fun r => ?_, fun g hg => ?_,
    fun g hg r hr => ?_⟩
  · simpa [Session.settleLocal, List.filterMap_append] using h.ids_old
  · simpa [Session.settleLocal, List.filterMap_append] using h.ids_nodup
  · have honce := h.once r
    simp only [Session.settleLocal, hl.countP_eq, List.countP_cons, List.length_append, List.length_singleton, hf r]
    split at honce <;> split_ifs <;> omega
  · have hsent := h.sent r
    have hnone : (s.requests ++ [⟨id, none⟩])[r]?.bind (·.upstreamId) = s.requests[r]?.bind (·.upstreamId) := by
      rcases Nat.lt_trichotomy r s.requests.length with hr | rfl | hr
      · rw [List.getElem?_append_left hr]
      · simp
      · rw [List.getElem?_eq_none (by simp; omega), List.getElem?_eq_none (by omega)]
    simpa only [Session.settleLocal, hnone] using hsent
  · rcases List.mem_cons.1 (hl.mem_iff.1 hg) with rfl | hg
    · exact hd
    · exact (h.delivered g hg).mono hpre List.prefix_rfl
  · obtain ⟨id', u, m, p, hq, hframe⟩ := h.forwarded g hg r hr
    exact ⟨id', u, m, p, getElem?_of_extends hpre hq, hframe⟩

/-- A request goes upstream. -/
theorem forward {id : RequestId} {pending : PendingRequest} {toUpstream : WriteQueue Outgoing} {method : String}
    {params : Option Value} (h : Requests P s) (hid : pending.localId = id)
    (hserial : pending.serial = s.requests.length) (hsource : f.source = .request s.requests.length)
    (hframe : f.frame = .request (upstreamIdOf P s.nextUpstreamId) method params)
    (hu : toUpstream.held.Perm (f :: s.toUpstream.held)) (active : List RequestId) : Requests P { s with
      nextUpstreamId := s.nextUpstreamId + 1
      pendingRequestsByUpstream := s.pendingRequestsByUpstream ++ [(upstreamIdOf P s.nextUpstreamId, pending)]
      activeLocalRequestIds := active
      toUpstream := toUpstream
      requests := s.requests ++ [⟨id, some (upstreamIdOf P s.nextUpstreamId)⟩] } := by
  have hpre : s.requests <+: s.requests ++ [⟨id, some (upstreamIdOf P s.nextUpstreamId)⟩] := List.prefix_append _ _
  refine ⟨fun e he => ?_, fun u hu => ?_, ?_, fun r => ?_, fun r => ?_, fun g hg => ?_, fun g hg r hr => ?_⟩
  · rcases List.mem_append.1 he with he | he
    · exact getElem?_of_extends hpre (h.entries e he)
    · rw [List.mem_singleton.1 he, hserial, hid]
      simp
  · simp only [List.filterMap_append, List.mem_append] at hu
    rcases hu with hu | hu
    · obtain ⟨n, hn, rfl⟩ := h.ids_old u hu
      exact ⟨n, Nat.lt_succ_of_lt hn, rfl⟩
    · simp only [List.filterMap_cons, List.filterMap_nil, List.mem_singleton] at hu
      exact ⟨s.nextUpstreamId, Nat.lt_succ_self _, hu⟩
  · simp only [List.filterMap_append, List.filterMap_cons, List.filterMap_nil]
    rw [List.nodup_append]
    refine ⟨h.ids_nodup, List.nodup_singleton _, fun u hu v hv huv => ?_⟩
    obtain ⟨n, hn, rfl⟩ := h.ids_old u hu
    rw [List.mem_singleton] at hv
    exact hn.ne (upstreamIdOf_injective P (huv.trans hv))
  · have honce := h.once r
    simp only [List.countP_append, List.countP_singleton, hserial, List.length_append, List.length_singleton,
      decide_eq_true_eq]
    split at honce <;> split_ifs <;> omega
  · have hsent := h.sent r
    simp only [hu.countP_eq, List.countP_cons, hsource, Source.request.injEq, decide_eq_true_eq]
    rcases Nat.lt_trichotomy r s.requests.length with hr | rfl | hr
    · rw [if_neg (by omega), Nat.add_zero, hsent, List.getElem?_append_left hr]
    · rw [hsent]
      simp
    · rw [if_neg (by omega), Nat.add_zero, hsent, List.getElem?_eq_none (by omega), List.getElem?_eq_none (by simp; omega)]
  · exact (h.delivered g hg).mono hpre List.prefix_rfl
  · rcases List.mem_cons.1 (hu.mem_iff.1 hg) with rfl | hg
    · rw [hsource] at hr
      cases hr
      exact ⟨id, _, method, params, by simp, hframe⟩
    · obtain ⟨id', u, m, p, hq, hframe⟩ := h.forwarded g hg r hr
      exact ⟨id', u, m, p, getElem?_of_extends hpre hq, hframe⟩

/-- A pending request gets its response. -/
theorem complete {key : RequestId} {pending : PendingRequest} {toLocal : WriteQueue Outgoing} {frame : RpcFrame}
    (h : Requests P s) (ht : Tables P s) (hp : (key, pending) ∈ s.pendingRequestsByUpstream)
    (hl : toLocal.held.Perm (f :: s.toLocal.held)) (hsource : f.source = .answer pending.serial)
    (horigin : f.origin = some s.received.length) (hadapts : Adapts P pending key frame f.frame) :
    Requests P { (s.receive frame).retireRequest P key pending with toLocal := toLocal, wait := .admission } := by
  have hperm := Matched.perm_cons_filter ht.locals.names_nodup hp
  have hpre : s.received <+: s.received ++ [frame] := List.prefix_append _ _
  refine ⟨fun e he => h.entries e (List.mem_filter.1 he).1, h.ids_old, h.ids_nodup, fun r => ?_, h.sent, fun g hg => ?_,
    h.forwarded⟩
  · have honce := h.once r
    have hf : responds r f = decide (pending.serial = r) := by simp [responds, hsource]
    rw [hperm.countP_eq, List.countP_cons] at honce
    simp only [retireRequest, receive, hl.countP_eq, List.countP_cons, hf, decide_eq_true_eq] at honce ⊢
    refine Eq.trans ?_ honce
    omega
  · rcases List.mem_cons.1 (hl.mem_iff.1 hg) with rfl | hg
    · have hq := h.entries _ hp
      simp only [Delivered, hsource]
      exact ⟨pending, key, s.received.length, frame, hq, horigin, by simp [retireRequest, receive], hadapts⟩
    · exact (h.delivered g hg).mono List.prefix_rfl hpre

theorem resolve {key localId : RequestId} (h : Requests P s) (hr : s.resolve P key = .ok (localId, s')) :
    Requests P s' := by
  rcases resolve_cases hr with ⟨-, rfl⟩ | ⟨-, k, pending, -, -, -, rfl⟩
  · exact h.same rfl rfl rfl List.prefix_rfl (.refl _) (.refl _)
  · exact h.same rfl rfl rfl List.prefix_rfl (.refl _) (.refl _)

theorem relayNotification {origin : ℕ} {method : String} {params : Option Value} (h : Requests P s)
    (hr : s.relayNotification P origin method params = .ok s') : Requests P s' := by
  rcases relayNotification_cases hr with rfl | ⟨method', params', toLocal, hq, rfl⟩
  · exact h
  · refine h.extend [_] [] rfl rfl rfl List.prefix_rfl (WriteQueue.perm_enqueueWithBackpressure _ hq).2 (.refl _) ?_ (by simp)
    simp [responds, Delivered, outgoing]

end Requests

theorem requests_step (ht : Tables P s) (h : Requests P s) (he : Effect P s e s') : Requests P s' := by
  cases he with
  | idle => exact h
  | localWritten => exact h.same rfl rfl rfl List.prefix_rfl (WriteQueue.perm_complete _ _) (.refl _)
  | upstreamWritten => exact h.same rfl rfl rfl List.prefix_rfl (.refl _) (WriteQueue.perm_complete _ _)
  | resumed | timed | forgiven => exact h.same rfl rfl rfl List.prefix_rfl (.refl _) (.refl _)
  | @refused id method params code message n toLocal hid hn hq =>
    have hb : Requests P { s with nextUpstreamId := n } :=
      { h with ids_old := fun u hu => let ⟨m, hm, he⟩ := h.ids_old u hu; ⟨m, hm.trans_le hn, he⟩ }
    refine hb.settleLocal _ (WriteQueue.perm_enqueue _ hq) (fun r => ?_) ?_
    · simp [responds, outgoing, eq_comm]
    · exact ⟨id, code, message, by simp, rfl⟩
  | forwarded _ _ hq => exact h.forward rfl rfl rfl rfl (WriteQueue.perm_enqueue _ hq) _
  | noted hq | answered _ _ hq | expired _ _ hq =>
    refine h.extend [] [_] rfl rfl rfl List.prefix_rfl (.refl _) (WriteQueue.perm_enqueue _ hq) (by simp) ?_
    simp [outgoing]
  | @closes id params toLocal hid hq =>
    have h' := h.settleLocal id (WriteQueue.perm_enqueue _ hq) (fun r => by simp [responds, outgoing, eq_comm])
      ⟨id, by simp, rfl⟩
    exact h'.same rfl rfl rfl List.prefix_rfl (.refl _) (.refl _)
  | @completed id answer adapted pending toLocal hp hanswer hq =>
    refine h.complete ht (pendingRequest_mem hp) (WriteQueue.perm_enqueueWithBackpressure _ hq).2 rfl rfl ?_
    cases answer with
    | error error =>
      cases hanswer
      exact ⟨rfl, rfl⟩
    | ok result =>
      obtain ⟨result', hr, rfl⟩ := Option.map_eq_some_iff.1 hanswer
      exact ⟨rfl, result', hr, rfl⟩
  | notified hr hq =>
    refine Requests.relayNotification ?_ hq
    have hrec : ∀ frame, Requests P (s.receive frame) := fun frame =>
      h.same rfl rfl rfl (List.prefix_append _ _) (.refl _) (.refl _)
    rcases hr with ⟨rfl, -⟩ | ⟨key, localId, -, -, hr⟩
    · exact hrec _
    · exact (hrec _).resolve hr
  | refusedServer _ _ hq =>
    refine h.extend [] [_] rfl rfl rfl (List.prefix_append _ _) (.refl _) (WriteQueue.perm_enqueue _ hq) (by simp) ?_
    simp [outgoing]
  | asked _ _ _ hq =>
    refine h.extend [_] [] rfl rfl rfl (List.prefix_append _ _) (WriteQueue.perm_enqueueWithBackpressure _ hq).2 (.refl _)
      ?_ (by simp)
    simp [responds, Delivered, outgoing]

/-! ## Every state -/

/-- Neither queue keeps a frame waiting without cause. -/
def Flows (P : SidecarParams) (s : Session) : Prop := s.toLocal.Busy P.queue ∧ s.toUpstream.Busy P.queue

theorem flows_step (h : Flows P s) (he : Effect P s e s') : Flows P s' := by
  obtain ⟨hl, hu⟩ := h
  cases he with
  | idle | resumed | timed | forgiven => exact ⟨hl, hu⟩
  | localWritten => exact ⟨hl.complete, hu⟩
  | upstreamWritten => exact ⟨hl, hu.complete⟩
  | refused _ _ hq | closes _ hq => exact ⟨hl.enqueue _ hq, hu⟩
  | forwarded _ _ hq | noted hq | answered _ _ hq | refusedServer _ _ hq | expired _ _ hq => exact ⟨hl, hu.enqueue _ hq⟩
  | completed _ _ hq | asked _ _ _ hq => exact ⟨hl.enqueueWithBackpressure _ hq, hu⟩
  | @notified _ _ _ s₁ _ hr hq =>
    have hs₁ : Flows P s₁ := by
      rcases hr with ⟨rfl, -⟩ | ⟨key, localId, -, -, hr⟩
      · exact ⟨hl, hu⟩
      · rcases resolve_cases hr with ⟨-, rfl⟩ | ⟨-, k, pending, -, -, -, rfl⟩ <;> exact ⟨hl, hu⟩
    rcases relayNotification_cases hq with rfl | ⟨_, _, _, hadmitted, rfl⟩
    · exact hs₁
    · exact ⟨hs₁.1.enqueueWithBackpressure _ hadmitted, hs₁.2⟩

theorem after_keeps (P : SidecarParams) (events : List SidecarEvent) :
    Tables P (after P events) ∧ Requests P (after P events) ∧ Flows P (after P events) :=
  exec_invariant' (I := fun s => Tables P s ∧ Requests P s ∧ Flows P s)
    (step_keeps
      (fun _ _ ⟨ht, hr, hf⟩ => ⟨⟨ht.locals, ht.servers, ht.own, ht.capacity⟩,
        hr.same rfl rfl rfl List.prefix_rfl (.refl _) (.refl _), hf⟩)
      fun _ _ _ ⟨ht, hr, hf⟩ he => ⟨tables_step ht he, requests_step ht hr he, flows_step hf he⟩)
    ⟨tables_new, requests_new, WriteQueue.busy_empty _, WriteQueue.busy_empty _⟩

theorem Delivered.own_id {f : Outgoing} (h : Delivered P requests received f) (hid : f.frame.respondsTo = some id) :
    ∃ r req, requests[r]? = some req ∧ responds r f = true ∧ req.id = id := by
  unfold Delivered at h
  split at h
  · next r hsource =>
    obtain ⟨pending, upstreamId, k, frame, hq, -, -, ha⟩ := h
    refine ⟨r, _, hq, by simp [responds, hsource], ?_⟩
    cases frame with
    | response i result =>
      obtain ⟨-, result', -, hframe⟩ := ha
      rw [hframe] at hid
      exact Option.some.inj hid
    | error i error =>
      rw [ha.2] at hid
      exact Option.some.inj hid
    | request i m p => exact ha.elim
    | notification m p => exact ha.elim
  · next r hsource =>
    obtain ⟨i, code, message, hq, hframe⟩ := h
    rw [hframe] at hid
    exact ⟨r, _, hq, by simp [responds, hsource], Option.some.inj hid⟩
  · next r hsource =>
    obtain ⟨i, hq, hframe⟩ := h
    rw [hframe] at hid
    exact ⟨r, _, hq, by simp [responds, hsource], Option.some.inj hid⟩
  · obtain ⟨i, method, params, hframe⟩ := h
    rw [hframe] at hid
    cases hid
  · obtain ⟨method, params, hframe⟩ := h
    rw [hframe] at hid
    cases hid
  · exact h.elim

/-- Correlation is exact in state `s`. -/
structure Exact (P : SidecarParams) (s : Session) : Prop where
  /-- The active sets are those of the tables, without repetition. -/
  local_nodup : s.activeLocalRequestIds.Nodup ∧ (s.pendingRequestsByUpstream.map (·.2.localId)).Nodup
  local_iff : ∀ id, id ∈ s.activeLocalRequestIds ↔ ∃ e ∈ s.pendingRequestsByUpstream, e.2.localId = id
  upstream_nodup : s.activeUpstreamServerIds.Nodup ∧ (s.pendingServerByLocal.map (·.2.upstreamId)).Nodup
  upstream_iff : ∀ id, id ∈ s.activeUpstreamServerIds ↔ ∃ e ∈ s.pendingServerByLocal, e.2.upstreamId = id
  capacity : s.pendingRequestsByUpstream.length + s.pendingServerByLocal.length ≤ P.maxPending
  /-- Nothing is active and retired. -/
  local_retired : ∀ id ∈ s.activeLocalRequestIds, id ∉ s.retiredLocalRequestIds
  response_retired : ∀ e ∈ s.pendingRequestsByUpstream, e.1 ∉ s.retiredUpstreamResponseIds
  server_retired : ∀ e ∈ s.pendingServerByLocal, e.1 ∉ s.retiredLocalServerIds
  upstream_retired : ∀ id ∈ s.activeUpstreamServerIds, id ∉ s.retiredUpstreamServerIds
  /-- A request goes upstream at most once, under an id of its own, and never when the sidecar refused it. -/
  sent : ∀ r, s.toUpstream.held.countP (·.source = .request r) =
    if (s.requests[r]?.bind (·.upstreamId)).isSome then 1 else 0
  sent_under : ∀ f ∈ s.toUpstream.held, ∀ r, f.source = .request r → ∃ id upstreamId method params,
    s.requests[r]? = some ⟨id, some upstreamId⟩ ∧ f.frame = .request upstreamId method params
  fresh : (s.requests.filterMap (·.upstreamId)).Nodup
  /-- A request has its one response, or it is pending and its timer ends the session. -/
  one_response : ∀ r < s.requests.length,
    s.toLocal.held.countP (responds r) + s.pendingRequestsByUpstream.countP (·.2.serial = r) = 1
  timer : ∀ e ∈ s.pendingRequestsByUpstream, (s.step P (.requestTimeout e.1)).ended.isSome
  reaches : 0 < P.queue.maxFrames → s.toLocal.inFlight = none → s.toLocal.held = s.toLocal.written
  /-- A response is the answer of Codex to the upstream id of its request, or a refusal, under the request's own id. -/
  delivered : ∀ f ∈ s.toLocal.held, Delivered P s.requests s.received f
  own_id : ∀ f ∈ s.toLocal.held, ∀ id, f.frame.respondsTo = some id →
    ∃ r req, s.requests[r]? = some req ∧ responds r f = true ∧ req.id = id

end Session

end LarkCodexBridge.Sidecar

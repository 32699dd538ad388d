import Mathlib
import LarkCodexBridge.External.Approvals

/-!
# Every approval gets one answer

Runs of the write actor. A response is sent only for a pending approval that has none, while its durable claim is in the
state `responding`, and what the actor drops from its map without a response is a claim that the store refuses to it.

* `denyOneApproval_cases`, `resolvePendingApproval_cases`: what the two handlers that respond can do;
* `Answering.step`: the invariant of the loop;
* `approvals_answered_once`, `expired_approval_unanswered`.
-/

namespace LarkCodexBridge.External

open Limits SqlTable Store StepSystem

/-! ## Rows -/

section Rows

variable {db db' : ExternalDb} {now : ℤ} {e t a r : String} {n : ℕ}

theorem approvalAt_eq_some {k : String × String × String} {row : ApprovalRow} :
    db.approvalAt k n = some row ↔ ∃ x, db.approvals.lookup k = some x ∧ x.val.epoch = n ∧ x.val = row := by
  unfold ExternalDb.approvalAt
  cases h : db.approvals.lookup k with
  | none => simp
  | some x => by_cases hx : x.val.epoch = n <;> simp [Option.filter, hx]

theorem claimExternalApproval_claimed (h : claimExternalApproval now e t a r n db = .ok (.claimed, db')) :
    ∃ row, db'.approvalAt (e, t, a) n = some row ∧ row.state = .claimed := by
  unfold claimExternalApproval at h
  obtain ⟨n', hn, h⟩ := bind_eq_ok.1 h
  cases epochI64_eq_ok hn
  simp only at h
  split at h
  · next hany =>
    cases h
    obtain ⟨x, hx, hp⟩ := List.any_eq_true.1 hany
    have hk : x.val.key = (e, t, a) := (of_decide_eq_true hp).1
    refine ⟨_, approvalAt_eq_some.2 ⟨_, Table.lookup_updateWhere (Table.lookup_eq_some.2 ⟨hx, hk⟩), ?_, rfl⟩, ?_⟩
    · rw [Row.update_of_pos hp]
      exact (of_decide_eq_true hp).2.2.1
    · rw [Row.update_of_pos hp]
  · split at h
    · cases h
    · split at h
      · split at h <;> cases h
      · cases h

/-- A claim touches the row of its own key only. -/
theorem claimExternalApproval_other {o : ExternalApprovalClaimOutcome} {k : String × String × String}
    (h : claimExternalApproval now e t a r n db = .ok (o, db')) (hk : k ≠ (e, t, a)) :
    db'.approvals.lookup k = db.approvals.lookup k := by
  unfold claimExternalApproval at h
  obtain ⟨n', hn, h⟩ := bind_eq_ok.1 h
  simp only at h
  split at h
  · cases h
    refine Table.lookup_updateWhere_of_ne fun x _ hx => decide_eq_false fun hp => hk ?_
    exact hx.symm.trans hp.1
  · split at h
    · cases h; rfl
    · split at h <;> cases h <;> rfl

/-- The row may still be claimed by a recipient at an instant of the wall clock. -/
structure ApprovalRow.Claimable (row : ApprovalRow) (recipient : String) (epoch : ℕ) (now : ℤ) : Prop where
  recipient : row.recipientActor = recipient
  epoch : row.epoch = epoch
  state : row.state = .received
  deadline : row.deadlineMs > now

theorem claimExternalApproval_of_claimable {o : ExternalApprovalClaimOutcome} {x : Row ApprovalRow}
    (hx : db.approvals.lookup (e, t, a) = some x) (hc : x.val.Claimable r n now)
    (h : claimExternalApproval now e t a r n db = .ok (o, db')) : o = .claimed := by
  unfold claimExternalApproval at h
  obtain ⟨n', hn, h⟩ := bind_eq_ok.1 h
  cases epochI64_eq_ok hn
  obtain ⟨hmem, hkey⟩ := Table.lookup_eq_some.1 hx
  simp only at h
  rw [if_pos (List.any_eq_true.2 ⟨x, hmem, decide_eq_true ⟨hkey, hc.recipient, hc.epoch, hc.state, hc.deadline⟩⟩)] at h
  cases h
  rfl

theorem resolveExternalApproval_responding {o : ExternalTransitionOutcome} {row : ApprovalRow}
    (hrow : db.approvalAt (e, t, a) n = some row) (hs : row.state = .claimed)
    (h : resolveExternalApproval now e t a n .responding db = .ok (o, db')) :
    (db'.approvalAt (e, t, a) n).map (·.state) = some .responding := by
  unfold resolveExternalApproval at h
  obtain ⟨n', hn, h⟩ := bind_eq_ok.1 h
  cases epochI64_eq_ok hn
  obtain ⟨x, hx, hxn, rfl⟩ := approvalAt_eq_some.1 hrow
  rw [hrow] at h
  simp [hs, ExternalApprovalResolution.target, ExternalApprovalResolution.allows] at h
  obtain ⟨-, rfl⟩ := h
  have hp : decide (x.val.key = (e, t, a) ∧ x.val.epoch = n) = true :=
    decide_eq_true ⟨(Table.lookup_eq_some.1 hx).2, hxn⟩
  rw [approvalAt_eq_some.2 ⟨_, Table.lookup_updateWhere hx, ?_, rfl⟩]
  · rw [Row.update_of_pos (by simpa using hp)]; rfl
  · rw [Row.update_of_pos (by simpa using hp)]; exact hxn

/-- A resolution touches the row of its own key only. -/
theorem resolveExternalApproval_other {o : ExternalTransitionOutcome} {resolution : ExternalApprovalResolution}
    {k : String × String × String} (h : resolveExternalApproval now e t a n resolution db = .ok (o, db'))
    (hk : k ≠ (e, t, a)) : db'.approvals.lookup k = db.approvals.lookup k := by
  unfold resolveExternalApproval at h
  obtain ⟨n', hn, h⟩ := bind_eq_ok.1 h
  split at h
  · cases h; rfl
  · split at h
    · cases h; rfl
    · split at h
      · cases h
      · cases h
        refine Table.lookup_updateWhere_of_ne fun x _ hx => decide_eq_false fun hp => hk ?_
        exact hx.symm.trans hp.1

theorem receiveExternalApproval_received {claim : NewExternalApprovalClaim}
    (h : receiveExternalApproval now claim db = .ok (.received, db')) :
    ∃ x source, db'.approvals.lookup (claim.endpointLabel, claim.threadId, claim.approvalId) = some x ∧
      x.val = claim.row claim.epoch source now := by
  unfold receiveExternalApproval at h
  obtain ⟨n', hn, h⟩ := bind_eq_ok.1 h
  cases epochI64_eq_ok hn
  split at h
  · cases h
  · split at h
    · cases h
    · split at h
      · cases h
      · split at h
        · cases h
        · split at h
          · cases h
          · split at h
            · cases h
            · split at h
              · cases h
              · split at h
                · cases h
                · split at h
                  · cases h
                  · next hins =>
                    cases h
                    obtain ⟨hk, rfl⟩ := Table.insertOrIgnore_eq_some hins
                    exact ⟨_, _, Table.lookup_insert (h := hk), rfl⟩

end Rows

/-! ## Calls of the actor -/

namespace ApprovalContext

variable {c : ApprovalContext} {s s' : ApprovalActor} {q : Timed} {t a r : String}

theorem call_eq {α : Type} {check : ℤ → Except StoreError Unit} {job : ℤ → Job ExternalDb α} {x : Except StoreError α}
    (h : c.call s q check job = (x, s')) : s' = { s with store := s'.store } := by
  cases h
  rfl

theorem call_ok {α : Type} {check : ℤ → Except StoreError Unit} {job : ℤ → Job ExternalDb α} {v : α}
    (h : c.call s q check job = (.ok v, s')) : job (c.wallMs (s.clock + q.after)) s.store.db = .ok (v, s'.store.db) := by
  have hs := congrArg (·.2.store) h
  have hv := congrArg (·.1) h
  exact (call_of_ok (Prod.ext hv hs)).2

theorem call_db_cases {α : Type} {check : ℤ → Except StoreError Unit} {job : ℤ → Job ExternalDb α} {x : Except StoreError α}
    (h : c.call s q check job = (x, s')) :
    s'.store.db = s.store.db ∨ ∃ v now, job now s.store.db = .ok (v, s'.store.db) := by
  cases h
  rcases call_db s.store (check _) q.fate (job _) with hdb | ⟨v, -, hj⟩
  · exact .inl hdb
  · exact .inr ⟨v, _, hj⟩

/-- Calls about one approval: they change the store alone, and of its approvals at most the row of that one. -/
structure Calls (c : ApprovalContext) (t a : String) (s s' : ApprovalActor) : Prop where
  eq : s' = { s with store := s'.store }
  other : ∀ k, k ≠ (c.endpoint.label, t, a) → s'.store.db.approvals.lookup k = s.store.db.approvals.lookup k

theorem claim_calls {x : Except StoreError ExternalApprovalClaimOutcome} (h : c.claim s q t a r = (x, s')) :
    Calls c t a s s' := by
  refine ⟨call_eq h, fun k hk => ?_⟩
  rcases call_db_cases h with hdb | ⟨v, now, hj⟩
  · rw [hdb]
  · exact claimExternalApproval_other hj hk

theorem resolveRow_calls {x : Except StoreError ExternalTransitionOutcome} {resolution : ExternalApprovalResolution}
    (h : c.resolveRow s q t a resolution = (x, s')) : Calls c t a s s' := by
  refine ⟨call_eq h, fun k hk => ?_⟩
  rcases call_db_cases h with hdb | ⟨v, now, hj⟩
  · rw [hdb]
  · exact resolveExternalApproval_other hj hk

theorem Calls.trans {s₁ s₂ : ApprovalActor} (h : Calls c t a s s₁) (h' : Calls c t a s₁ s₂) : Calls c t a s s₂ where
  eq := by rw [h'.eq, h.eq]
  other k hk := (h'.other k hk).trans (h.other k hk)

theorem claim_responding {s₁ s₂ : ApprovalActor} {q' : Timed} {o : ExternalTransitionOutcome}
    (h : c.claim s q t a r = (.ok .claimed, s₁)) (h' : c.resolveRow s₁ q' t a .responding = (.ok o, s₂)) :
    c.claimState s₂ t a = some .responding := by
  obtain ⟨row, hrow, hst⟩ := claimExternalApproval_claimed (call_ok h)
  exact resolveExternalApproval_responding hrow hst (call_ok h')

/-! ## Handlers that respond -/

/-- The row of a pending approval can be claimed for the recipient at an instant. -/
def Claimable (c : ApprovalContext) (s : ApprovalActor) (p : PendingApproval) (q : Timed) : Prop :=
  ∃ x, s.store.db.approvals.lookup (c.endpoint.label, p.request.threadId, p.approvalId) = some x ∧
    x.val.Claimable c.endpoint.settings.approvalRecipient c.endpoint.epoch (c.wallMs (s.clock + q.after))

/-- What `deny_one_approval` can do with a pending approval: it is removed, and then it is denied or it is dropped,
which happens in a live actor only where the row cannot be claimed. -/
structure Denied (c : ApprovalContext) (s s' : ApprovalActor) (p : PendingApproval) (a : DenyAnswers)
    (x : Except ExternalWriteError Unit) : Prop where
  clock : s'.clock = s.clock
  drawn : s'.drawn = s.drawn
  fatal : s'.fatal = s.fatal
  approvals : s'.approvals = (s.remove p.approvalId).approvals
  responses : s'.responses = s.responses ∧ (x = .ok () → ¬c.Claimable s p a.claim) ∨
    s'.responses = s.responses ++ [⟨p.approvalId, denialFor p.request, some .responding⟩]
  other : ∀ k, k ≠ (c.endpoint.label, p.request.threadId, p.approvalId) →
    s'.store.db.approvals.lookup k = s.store.db.approvals.lookup k

section Deny

variable {p : PendingApproval} {d : DenyAnswers} {x : Except ExternalWriteError Unit}

theorem Denied.dropped (h : Calls c p.request.threadId p.approvalId (s.remove p.approvalId) s')
    (hx : x = .ok () → ¬c.Claimable s p d.claim) : Denied c s s' p d x where
  clock := by rw [h.eq]; rfl
  drawn := by rw [h.eq]; rfl
  fatal := by rw [h.eq]; rfl
  approvals := by rw [h.eq]
  responses := .inl ⟨by rw [h.eq]; rfl, hx⟩
  other := h.other

theorem Denied.answered {s₁ : ApprovalActor} (h : Calls c p.request.threadId p.approvalId (s.remove p.approvalId) s₁)
    (hr : c.claimState s₁ p.request.threadId p.approvalId = some .responding)
    (h' : Calls c p.request.threadId p.approvalId (c.respond s₁ p (denialFor p.request)) s') : Denied c s s' p d x where
  clock := by rw [h'.eq, h.eq]; rfl
  drawn := by rw [h'.eq, h.eq]; rfl
  fatal := by rw [h'.eq, h.eq]; rfl
  approvals := by rw [h'.eq, h.eq]; rfl
  responses := .inr (by
    have hs : s₁.responses = s.responses := by rw [h.eq]; rfl
    rw [h'.eq]
    simp only [respond, hr, hs])
  other k hk := (h'.other k hk).trans (h.other k hk)

theorem pending?_eq_some {id : String} (h : s.pending? id = some p) : p ∈ s.approvals ∧ p.approvalId = id :=
  ⟨List.mem_of_find?_eq_some h, by simpa using List.find?_some h⟩

theorem not_claimable {o : ExternalApprovalClaimOutcome} (h : c.claim (s.remove p.approvalId) q p.request.threadId
    p.approvalId c.endpoint.settings.approvalRecipient = (.ok o, s')) (ho : o ≠ .claimed) : ¬c.Claimable s p q := by
  rintro ⟨row, hrow, hcl⟩
  exact ho (claimExternalApproval_of_claimable hrow hcl (call_ok h))

theorem denyOneApproval_cases (hp : s.pending? a = some p) (h : c.denyOneApproval s d a = (x, s')) :
    Denied c s s' p d x := by
  obtain ⟨-, rfl⟩ := pending?_eq_some hp
  unfold denyOneApproval at h
  rw [hp] at h
  simp only at h
  split at h
  · next hcl =>
    cases h
    exact .dropped (claim_calls hcl) fun h => by cases h
  · next hcl =>
    cases h
    exact .dropped (claim_calls hcl) fun _ => not_claimable hcl (by decide)
  · next hcl =>
    cases h
    exact .dropped (claim_calls hcl) fun _ => not_claimable hcl (by decide)
  · next hcl =>
    cases h
    exact .dropped (claim_calls hcl) fun h => by cases h
  · next s₁ hcl =>
    split at h
    · next hres =>
      cases h
      exact .dropped ((claim_calls hcl).trans (resolveRow_calls hres)) fun h => by cases h
    · next hres =>
      have hcalls := (claim_calls hcl).trans (resolveRow_calls hres)
      have hresp := claim_responding hcl hres
      split at h
      · cases h
        exact .answered hcalls hresp (resolveRow_calls rfl)
      · split at h
        · next hden => cases h; exact .answered hcalls hresp (resolveRow_calls hden)
        · next hden => cases h; exact .answered hcalls hresp (resolveRow_calls hden)

end Deny

/-! ## The invariant of the loop -/

/-- Ids are drawn once, an id has at most one response, and in a live actor a pending approval that is not marked as
responded has none. -/
structure Answering (c : ApprovalContext) (s : ApprovalActor) : Prop where
  keys : (s.approvals.map (·.approvalId)).Nodup
  fresh : ∀ p ∈ s.approvals, ∃ k < s.drawn, p.approvalId = c.newV4 k
  sent : ∀ r ∈ s.responses, ∃ k < s.drawn, r.approvalId = c.newV4 k
  once : (s.responses.map (·.approvalId)).Nodup
  responding : ∀ r ∈ s.responses, r.claim = some .responding
  unanswered : s.fatal = false → ∀ p ∈ s.approvals, p.responded = false → ∀ r ∈ s.responses, r.approvalId ≠ p.approvalId

namespace Answering

variable {p : PendingApproval} {d : DenyAnswers} {x : Except ExternalWriteError Unit}

/-- Entries may leave the map. -/
theorem shrink (h : Answering c s) (ha : s'.approvals.Sublist s.approvals) (hr : s'.responses = s.responses)
    (hd : s.drawn ≤ s'.drawn) (hf : s'.fatal = false → s.fatal = false) : Answering c s' where
  keys := h.keys.sublist (ha.map _)
  fresh p hp := by
    obtain ⟨k, hk, hid⟩ := h.fresh p (ha.subset hp)
    exact ⟨k, by omega, hid⟩
  sent r hm := by
    obtain ⟨k, hk, hid⟩ := h.sent r (hr ▸ hm)
    exact ⟨k, by omega, hid⟩
  once := by rw [hr]; exact h.once
  responding r hm := h.responding r (hr ▸ hm)
  unanswered hs p hp hun r hm := h.unanswered (hf hs) p (ha.subset hp) hun r (hr ▸ hm)

/-- A response for an entry that has none; afterwards it is gone, marked, or the loop is over. -/
theorem send {decision : ExternalApprovalDecision} (h : Answering c s) (hf : s.fatal = false) (hp : p ∈ s.approvals)
    (hun : p.responded = false) (hkeys : (s'.approvals.map (·.approvalId)).Nodup)
    (hids : ∀ q ∈ s'.approvals, ∃ q₀ ∈ s.approvals, q₀.approvalId = q.approvalId)
    (hopen : s'.fatal = false → ∀ q ∈ s'.approvals, q.responded = false → q ∈ s.approvals ∧ q.approvalId ≠ p.approvalId)
    (hd : s'.drawn = s.drawn) (hr : s'.responses = s.responses ++ [⟨p.approvalId, decision, some .responding⟩]) :
    Answering c s' where
  keys := hkeys
  fresh q hq := by
    obtain ⟨q₀, hq₀, hid⟩ := hids q hq
    rw [hd, ← hid]
    exact h.fresh q₀ hq₀
  sent r hm := by
    rw [hr] at hm
    rw [hd]
    rcases List.mem_append.1 hm with hm | hm
    · exact h.sent r hm
    · rw [List.mem_singleton.1 hm]
      exact h.fresh p hp
  once := by
    rw [hr, List.map_append]
    refine List.nodup_append.2 ⟨h.once, by simp, fun id hm id' hm' => ?_⟩
    obtain ⟨r, hr, rfl⟩ := List.mem_map.1 hm
    rw [List.map_singleton, List.mem_singleton] at hm'
    rw [hm']
    exact h.unanswered hf p hp hun r hr
  responding r hm := by
    rw [hr] at hm
    rcases List.mem_append.1 hm with hm | hm
    · exact h.responding r hm
    · rw [List.mem_singleton.1 hm]
  unanswered hs q hq hq' r hm := by
    obtain ⟨hqs, hne⟩ := hopen hs q hq hq'
    rw [hr] at hm
    rcases List.mem_append.1 hm with hm | hm
    · exact h.unanswered hf q hqs hq' r hm
    · rw [List.mem_singleton.1 hm]
      exact fun heq => hne heq.symm

theorem mem_remove {id : String} {q : PendingApproval} :
    q ∈ (s.remove id).approvals ↔ q ∈ s.approvals ∧ q.approvalId ≠ id := by
  simp [ApprovalActor.remove]

theorem remove_sublist (s : ApprovalActor) (id : String) : (s.remove id).approvals.Sublist s.approvals :=
  List.filter_sublist

theorem denied (h : Answering c s) (hf : s.fatal = false) (hp : p ∈ s.approvals) (hun : p.responded = false)
    (hd : Denied c s s' p d x) : Answering c s' := by
  rcases hd.responses with ⟨hr, -⟩ | hr
  · exact h.shrink (hd.approvals ▸ remove_sublist s _) hr (Nat.le_of_eq hd.drawn.symm) (by rw [hd.fatal]; exact id)
  · refine h.send hf hp hun ?_ ?_ ?_ hd.drawn hr
    · rw [hd.approvals]
      exact h.keys.sublist ((remove_sublist s _).map _)
    · intro q hq
      rw [hd.approvals] at hq
      exact ⟨q, (mem_remove.1 hq).1, rfl⟩
    · intro _ q hq _
      rw [hd.approvals] at hq
      exact mem_remove.1 hq

/-- The entry of an approval that is received. -/
theorem insert (h : Answering c s) (hid : Function.Injective c.newV4) (hp : p.approvalId = c.newV4 s.drawn)
    (ha : s'.approvals = (s.insert p).approvals) (hr : s'.responses = s.responses) (hd : s'.drawn = s.drawn + 1)
    (hf : s'.fatal = false → s.fatal = false) : Answering c s' := by
  have hnew : ∀ k < s.drawn, c.newV4 k ≠ p.approvalId := by
    intro k hk heq
    have := hid (heq.trans hp)
    omega
  have hmem : ∀ q ∈ s'.approvals, q ∈ s.approvals ∨ q = p := by
    intro q hq
    rw [ha] at hq
    rcases List.mem_append.1 hq with hq | hq
    · exact .inl (mem_remove.1 hq).1
    · exact .inr (List.mem_singleton.1 hq)
  refine ⟨?_, fun q hq => ?_, fun r hm => ?_, by rw [hr]; exact h.once, fun r hm => h.responding r (hr ▸ hm), ?_⟩
  · rw [ha, ApprovalActor.insert, List.map_append]
    refine List.nodup_append.2 ⟨h.keys.sublist ((remove_sublist s _).map _), by simp, fun id hm id' hm' => ?_⟩
    obtain ⟨q, hq, rfl⟩ := List.mem_map.1 hm
    rw [List.map_singleton, List.mem_singleton] at hm'
    rw [hm']
    exact (mem_remove.1 hq).2
  · rcases hmem q hq with hq | rfl
    · obtain ⟨k, hk, hid⟩ := h.fresh q hq
      exact ⟨k, by omega, hid⟩
    · exact ⟨s.drawn, by omega, hp⟩
  · obtain ⟨k, hk, hid⟩ := h.sent r (hr ▸ hm)
    exact ⟨k, by omega, hid⟩
  · intro hs q hq hun r hm
    rw [hr] at hm
    rcases hmem q hq with hq | rfl
    · exact h.unanswered (hf hs) q hq hun r hm
    · obtain ⟨k, hk, hid⟩ := h.sent r hm
      rw [hid]
      exact hnew k hk

/-- An entry of the map is the one found under its id. -/
theorem pending? (h : Answering c s) (hp : p ∈ s.approvals) : s.pending? p.approvalId = some p := by
  unfold ApprovalActor.pending?
  cases hf : s.approvals.find? fun q => decide (q.approvalId = p.approvalId) with
  | none => exact absurd (List.find?_eq_none.1 hf p hp) (by simp)
  | some q =>
    have hid : q.approvalId = p.approvalId := by simpa using List.find?_some hf
    rw [List.inj_on_of_nodup_map h.keys (List.mem_of_find?_eq_some hf) hp hid]

end Answering

/-! ## Handlers -/

section Handlers

variable {p : PendingApproval} {x : Except ExternalWriteError Unit}

/-- A request that is accepted: its entry is in the map and its row in the store. -/
structure Received (c : ApprovalContext) (s s' : ApprovalActor) (request : ExternalApprovalRequest) (p : PendingApproval) :
    Prop where
  id : p.approvalId = c.newV4 s.drawn
  request_eq : p.request = request
  unanswered : p.responded = false
  approvals : s'.approvals = (s.insert p).approvals
  responses : s'.responses = s.responses
  drawn : s'.drawn = s.drawn + 1
  fatal : s'.fatal = s.fatal
  claimable : ∀ q : Timed, c.wallMs (s.clock + q.after) < c.deadlineMs s.clock request → c.Claimable s' p q

theorem received {s₁ : ApprovalActor} {request : ExternalApprovalRequest} {key : String} {check : ℤ → Except StoreError Unit}
    (h : c.call { s with drawn := s.drawn + 1 } q check (receiveExternalApproval · (c.newClaim s request key)) =
      (.ok .received, s₁)) :
    Received c s (s₁.insert (c.newPending s request key)) request (c.newPending s request key) := by
  have hs := call_eq h
  refine ⟨rfl, rfl, rfl, by rw [hs]; rfl, by rw [hs]; rfl, by rw [hs]; rfl, by rw [hs]; rfl, fun q' hq => ?_⟩
  obtain ⟨row, source, hrow, hval⟩ := receiveExternalApproval_received (call_ok h)
  refine ⟨row, hrow, by rw [hval]; rfl, by rw [hval]; rfl, by rw [hval]; rfl, ?_⟩
  have hclock : (s₁.insert (c.newPending s request key)).clock = s.clock := by rw [hs]; rfl
  rw [hval, hclock]
  exact hq

variable {d : DenyAnswers}

/-- What `receive_approval` can do: fail and leave the map as it is, or accept the request and, if it cannot prompt for
it, deny it at once. -/
theorem receiveApproval_cases {request : ExternalApprovalRequest} {receive : Timed} {prompted : Bool}
    (h : c.receiveApproval s request receive prompted d = (x, s')) :
    (s'.approvals = s.approvals ∧ s'.responses = s.responses ∧ s.drawn ≤ s'.drawn ∧ s'.fatal = s.fatal ∧ x ≠ .ok ()) ∨
    ∃ s₁ p, Received c s s₁ request p ∧
      (if prompted then (.ok (), s₁) else c.denyOneApproval s₁ d p.approvalId) = (x, s') := by
  unfold receiveApproval at h
  split at h
  · cases h; exact .inl ⟨rfl, rfl, Nat.le_refl _, rfl, by simp⟩
  · split at h
    · cases h; exact .inl ⟨rfl, rfl, Nat.le_refl _, rfl, by simp⟩
    · split at h
      · cases h; exact .inl ⟨rfl, rfl, Nat.le_refl _, rfl, by simp⟩
      · simp only at h
        split at h
        · next hcall =>
          cases h
          rw [call_eq hcall]
          exact .inl ⟨rfl, rfl, Nat.le_succ _, rfl, by simp⟩
        · next hcall => exact .inr ⟨_, _, received hcall, h⟩
        · next hcall =>
          cases h
          rw [call_eq hcall]
          exact .inl ⟨rfl, rfl, Nat.le_succ _, rfl, by simp⟩

theorem resolvePendingApproval_cases {took : ℕ} {actor : String} {decision : ExternalApprovalDecision}
    (h : c.resolvePendingApproval s d took actor a decision = (x, s')) :
    (s'.approvals = s.approvals ∧ s'.responses = s.responses ∧ s'.drawn = s.drawn ∧ s'.fatal = s.fatal) ∨
    ∃ p ∈ s.approvals, p.responded = false ∧ s'.drawn = s.drawn ∧
      s'.responses = s.responses ++ [⟨p.approvalId, decision, some .responding⟩] ∧
      (s'.approvals = s.approvals ∧ x = .error .uncertain ∨
        ∃ p', p'.approvalId = p.approvalId ∧ p'.responded = true ∧ s'.approvals = (s.insert p').approvals) := by
  unfold resolvePendingApproval at h
  split at h
  · cases h; exact .inl ⟨rfl, rfl, rfl, rfl⟩
  · split at h
    · cases h; exact .inl ⟨rfl, rfl, rfl, rfl⟩
    · next p hp =>
      obtain ⟨hmem, rfl⟩ := pending?_eq_some hp
      split at h
      · cases h; exact .inl ⟨rfl, rfl, rfl, rfl⟩
      · next hcond =>
        have hun : p.responded = false := by
          cases hr : p.responded with
          | false => rfl
          | true => simp [hr] at hcond
        split at h
        iterate 4
          · next hcl => cases h; rw [call_eq hcl]; exact .inl ⟨rfl, rfl, rfl, rfl⟩
        · next hcl =>
          split at h
          · next hres =>
            cases h
            rw [((claim_calls hcl).trans (resolveRow_calls hres)).eq]
            exact .inl ⟨rfl, rfl, rfl, rfl⟩
          · next s₂ hres =>
            have hs := ((claim_calls hcl).trans (resolveRow_calls hres)).eq
            have hresp := claim_responding hcl hres
            have hresponses : (c.respond s₂ p decision).responses =
                s.responses ++ [⟨p.approvalId, decision, some .responding⟩] := by
              have : s₂.responses = s.responses := by rw [hs]
              simp only [respond, hresp, this]
            have hdrawn : s₂.drawn = s.drawn := by rw [hs]
            have hmap : s₂.approvals = s.approvals := by rw [hs]
            refine .inr ⟨p, hmem, hun, ?_⟩
            split at h
            · cases h
              exact ⟨hdrawn, hresponses, .inl ⟨hmap, rfl⟩⟩
            · cases h
              refine ⟨hdrawn, hresponses, .inr ⟨{ p with
                responded := true
                deadline := (c.respond s₂ p decision).clock + took + c.requestTimeout }, rfl, rfl, ?_⟩⟩
              simp only [ApprovalActor.insert, ApprovalActor.remove, respond, hmap]

/-- What a tick can do with a list of expired approvals. -/
structure DeniedAll (c : ApprovalContext) (s s' : ApprovalActor) (answers : String → DenyAnswers) (ids : List String)
    (x : Except ExternalWriteError Unit) : Prop where
  answering : Answering c s'
  fatal : s'.fatal = false
  kept : ∀ p ∈ s.approvals, p.approvalId ∉ ids → p ∈ s'.approvals
  record : ∀ r ∈ s.responses, r ∈ s'.responses
  answered : x = .ok () → ∀ p ∈ s.approvals, p.approvalId ∈ ids → c.Claimable s p (answers p.approvalId).claim →
    ∃ r ∈ s'.responses, r.approvalId = p.approvalId ∧ r.decision = denialFor p.request

theorem Claimable.denied {p₀ : PendingApproval} (hd : Denied c s s' p₀ d x) (hne : p.approvalId ≠ p₀.approvalId)
    (h : c.Claimable s p q) : c.Claimable s' p q := by
  obtain ⟨row, hrow, hcl⟩ := h
  refine ⟨row, ?_, by rw [hd.clock]; exact hcl⟩
  rw [hd.other _ fun heq => hne (by simpa using congrArg (·.2.2) heq)]
  exact hrow

theorem Denied.mem_responses {p₀ : PendingApproval} (hd : Denied c s s' p₀ d x) {r : Response} (hr : r ∈ s.responses) :
    r ∈ s'.responses := by
  rcases hd.responses with ⟨heq, -⟩ | heq
  · rw [heq]; exact hr
  · rw [heq]; exact List.mem_append_left _ hr

theorem denyAll_cases (answers : String → DenyAnswers) : ∀ {ids : List String} {s s' : ApprovalActor}
    {x : Except ExternalWriteError Unit}, Answering c s → s.fatal = false →
    (∀ p ∈ s.approvals, p.approvalId ∈ ids → p.responded = false) → c.denyAll answers ids s = (x, s') →
    DeniedAll c s s' answers ids x
  | [], s, s', x, hs, hf, hun, h => by
    cases h
    exact ⟨hs, hf, fun p hp _ => hp, fun r hr => hr, fun _ p _ hid => by cases hid⟩
  | a :: ids, s, s', x, hs, hf, hun, h => by
    unfold denyAll at h
    cases hp : s.pending? a with
    | none =>
      -- Nothing is pending under this id: the loop goes on from the same state.
      have hne : ∀ p ∈ s.approvals, p.approvalId ≠ a := by
        intro p hmem heq
        rw [← heq, hs.pending? hmem] at hp
        cases hp
      have hdeny : c.denyOneApproval s (answers a) a = (.ok (), s) := by
        unfold denyOneApproval
        rw [hp]
      rw [hdeny] at h
      have ih := denyAll_cases answers hs hf (fun p hm hid => hun p hm (List.mem_cons_of_mem _ hid)) h
      refine ⟨ih.answering, ih.fatal, fun p hm hid => ?_, ih.record, fun hx p hm hid => ?_⟩
      · exact ih.kept p hm fun hid' => hid (List.mem_cons_of_mem _ hid')
      · exact ih.answered hx p hm ((List.mem_cons.1 hid).resolve_left (hne p hm))
    | some p₀ =>
      obtain ⟨hmem₀, rfl⟩ := pending?_eq_some hp
      have hun₀ : p₀.responded = false := hun p₀ hmem₀ List.mem_cons_self
      have hrest : ∀ {s₁ : ApprovalActor} {x₁ : Except ExternalWriteError Unit},
          Denied c s s₁ p₀ (answers p₀.approvalId) x₁ → ∀ p ∈ s.approvals, p.approvalId ≠ p₀.approvalId →
          p ∈ s₁.approvals := by
        intro s₁ x₁ hd p hm hne
        rw [hd.approvals]
        exact Answering.mem_remove.2 ⟨hm, hne⟩
      split at h
      · next s₁ hdeny =>
        cases h
        have hd := denyOneApproval_cases hp hdeny
        refine ⟨hs.denied hf hmem₀ hun₀ hd, hd.fatal.trans hf, fun p hm hid => ?_, fun r hr => hd.mem_responses hr,
          fun hx => by cases hx⟩
        exact hrest hd p hm fun heq => hid (heq ▸ List.mem_cons_self)
      · next s₁ hdeny =>
        have hd := denyOneApproval_cases hp hdeny
        have hs₁ := hs.denied hf hmem₀ hun₀ hd
        have hsub : ∀ p ∈ s₁.approvals, p ∈ s.approvals := by
          intro p hm
          rw [hd.approvals] at hm
          exact (Answering.mem_remove.1 hm).1
        have ih := denyAll_cases answers hs₁ (hd.fatal.trans hf)
          (fun p hm hid => hun p (hsub p hm) (List.mem_cons_of_mem _ hid)) h
        refine ⟨ih.answering, ih.fatal, fun p hm hid => ?_, fun r hr => ih.record r (hd.mem_responses hr),
          fun hx p hm hid hcl => ?_⟩
        · exact ih.kept p (hrest hd p hm fun heq => hid (heq ▸ List.mem_cons_self))
            fun hid' => hid (List.mem_cons_of_mem _ hid')
        · by_cases heq : p.approvalId = p₀.approvalId
          · have hpp : p = p₀ := List.inj_on_of_nodup_map hs.keys hm hmem₀ heq
            subst hpp
            rcases hd.responses with ⟨-, hno⟩ | hr
            · exact absurd hcl (hno rfl)
            · refine ⟨⟨p.approvalId, denialFor p.request, some .responding⟩, ih.record _ ?_, rfl, rfl⟩
              rw [hr]
              exact List.mem_append_right _ (List.mem_singleton_self _)
          · exact ih.answered hx p (hrest hd p hm heq) ((List.mem_cons.1 hid).resolve_left heq)
              (hcl.denied hd heq)

theorem iterated_perm (s : ApprovalActor) (order : List PendingApproval) : (iterated s order).Perm s.approvals := by
  unfold iterated
  split
  · next h => exact h
  · exact List.Perm.refl _

end Handlers

/-! ## One iteration -/

variable {e : ActorEvent}

theorem Answering.orFatal {r : Except ExternalWriteError Unit × ApprovalActor} (h : Answering c r.2) :
    Answering c (orFatal r) := by
  obtain ⟨x, s⟩ := r
  cases x with
  | ok u => exact h
  | error err => exact h.shrink (List.Sublist.refl _) rfl (Nat.le_refl _) (fun hf => by cases hf)

theorem Answering.receive {request : ExternalApprovalRequest} {receive : Timed} {prompted : Bool} {d : DenyAnswers}
    {x : Except ExternalWriteError Unit} (h : Answering c s) (hid : Function.Injective c.newV4) (hf : s.fatal = false)
    (hx : c.receiveApproval s request receive prompted d = (x, s')) : Answering c s' := by
  rcases receiveApproval_cases hx with ⟨ha, hr, hd, -, -⟩ | ⟨s₁, p, hrec, hx⟩
  · exact h.shrink (by rw [ha]) hr hd fun _ => hf
  · have h₁ : Answering c s₁ := h.insert hid hrec.id hrec.approvals hrec.responses hrec.drawn fun _ => hf
    have hmem : p ∈ s₁.approvals := by
      rw [hrec.approvals]
      exact List.mem_append_right _ (List.mem_singleton_self _)
    cases prompted with
    | true => cases hx; exact h₁
    | false => exact h₁.denied (hrec.fatal.trans hf) hmem hrec.unanswered (denyOneApproval_cases (h₁.pending? hmem) hx)

theorem Answering.resolvePending {d : DenyAnswers} {took : ℕ} {actor : String} {decision : ExternalApprovalDecision}
    {x : Except ExternalWriteError Unit} (h : Answering c s) (hf : s.fatal = false)
    (hx : c.resolvePendingApproval s d took actor a decision = (x, s')) :
    Answering c { s' with fatal := isUncertain x } := by
  rcases resolvePendingApproval_cases hx with ⟨ha, hr, hd, -⟩ | ⟨p, hp, hun, hd, hr, hcase⟩
  · exact h.shrink (by simp only [ha]; exact List.Sublist.refl _) hr (Nat.le_of_eq hd.symm) fun _ => hf
  · rcases hcase with ⟨ha, hx⟩ | ⟨p', hid', hresp, ha⟩
    · refine h.send hf hp hun ?_ ?_ ?_ hd hr
      · simp only [ha]
        exact h.keys
      · intro q hq
        simp only [ha] at hq
        exact ⟨q, hq, rfl⟩
      · intro hfalse
        simp [hx, isUncertain] at hfalse
    · have hmem : ∀ q ∈ (s.insert p').approvals, q ∈ s.approvals ∧ q.approvalId ≠ p.approvalId ∨ q = p' := by
        intro q hq
        rcases List.mem_append.1 hq with hq | hq
        · exact .inl (hid' ▸ mem_remove.1 hq)
        · exact .inr (List.mem_singleton.1 hq)
      refine h.send hf hp hun ?_ ?_ ?_ hd hr
      · simp only [ha, ApprovalActor.insert, List.map_append]
        refine List.nodup_append.2 ⟨h.keys.sublist ((remove_sublist s _).map _), by simp, fun id hm id' hm' => ?_⟩
        obtain ⟨q, hq, rfl⟩ := List.mem_map.1 hm
        rw [List.map_singleton, List.mem_singleton] at hm'
        rw [hm']
        exact (mem_remove.1 hq).2
      · intro q hq
        simp only [ha] at hq
        rcases hmem q hq with ⟨hq, -⟩ | rfl
        · exact ⟨q, hq, rfl⟩
        · exact ⟨p, hp, hid'.symm⟩
      · intro _ q hq hq'
        simp only [ha] at hq
        rcases hmem q hq with hq | rfl
        · exact hq
        · rw [hresp] at hq'; cases hq'

/-- The entries that a tick denies. -/
def expired (s : ApprovalActor) (order : List PendingApproval) : List PendingApproval :=
  (iterated s order).filter fun p => !p.responded && p.deadline ≤ s.clock

theorem mem_expired {order : List PendingApproval} {p : PendingApproval} :
    p ∈ expired s order ↔ p ∈ s.approvals ∧ p.responded = false ∧ p.deadline ≤ s.clock := by
  unfold expired
  rw [List.mem_filter, (iterated_perm s order).mem_iff]
  simp

/-- What a tick can do: end the loop over a response that was never confirmed, or deny what is expired. -/
theorem settleExpiredApprovals_cases {order : List PendingApproval} {answers : String → DenyAnswers}
    {x : Except ExternalWriteError Unit} (hs : Answering c s) (hf : s.fatal = false)
    (h : c.settleExpiredApprovals s order answers = (x, s')) :
    (Answering c s' ∧ x = .error .uncertain) ∨
    (∀ p ∈ s.approvals, p.responded = true → s.clock < p.deadline) ∧
      DeniedAll c s s' answers ((expired s order).map (·.approvalId)) x := by
  unfold settleExpiredApprovals at h
  split at h
  · cases h
    exact .inl ⟨hs.shrink (Answering.remove_sublist s _) rfl (Nat.le_refl _) fun _ => hf, rfl⟩
  · next hnone =>
    refine .inr ⟨fun p hp hr => ?_, denyAll_cases answers hs hf (fun p hp hid => ?_) h⟩
    · have := List.find?_eq_none.1 hnone p ((iterated_perm s order).mem_iff.2 hp)
      simpa [hr] using this
    · obtain ⟨q, hq, heq⟩ := List.mem_map.1 hid
      obtain ⟨hqm, hqr, -⟩ := mem_expired.1 hq
      rw [← List.inj_on_of_nodup_map hs.keys hqm hp heq]
      exact hqr

/-- Every branch of the loop keeps the invariant. -/
theorem Answering.handle (h : Answering c s) (hid : Function.Injective c.newV4) (hf : s.fatal = false) (took : ℕ)
    (input : ActorInput) : Answering c (c.handle s took input) := by
  have hsame : ∀ {s₁ : ApprovalActor}, s₁.approvals.Sublist s.approvals → s₁.responses = s.responses →
      s₁.drawn = s.drawn → Answering c s₁ := fun ha hr hd => h.shrink ha hr (Nat.le_of_eq hd.symm) fun _ => hf
  cases input with
  | idle => exact h
  | approval request receive prompted d => exact (h.receive hid hf (Prod.eta _).symm).orFatal
  | serverRequestResolved requestKey q =>
    cases requestKey with
    | none => exact hsame (List.Sublist.refl _) rfl rfl
    | some requestKey =>
      simp only [ApprovalContext.handle]
      split
      · next hcall =>
        rw [call_eq hcall]
        exact hsame List.filter_sublist rfl rfl
      · next hcall =>
        rw [call_eq hcall]
        exact hsame (List.Sublist.refl _) rfl rfl
  | turnCompleted threadId turn q =>
    cases turn with
    | none => exact h
    | some turn => exact hsame (List.Sublist.refl _) rfl rfl
  | threadSettingsUpdated reviewer =>
    simp only [ApprovalContext.handle]
    split
    · exact hsame (List.Sublist.refl _) rfl rfl
    · exact h
  | closed | command command answers | shutdown | elsewhere ev => exact hsame (List.Sublist.refl _) rfl rfl
  | deadlineTick order answers =>
    simp only [ApprovalContext.handle]
    split
    · exact h
    · rcases settleExpiredApprovals_cases h hf (Prod.eta (c.settleExpiredApprovals s order answers)).symm with
        ⟨hs', -⟩ | ⟨-, hall⟩
      · exact hs'.orFatal
      · exact hall.answering.orFatal
  | resolveApproval actor approvalId decision d => exact h.resolvePending hf (Prod.eta _).symm
  | reassignApprovalActor newActor q =>
    simp only [ApprovalContext.handle]
    split
    · exact h
    · split
      · split
        · next hcall =>
          rw [call_eq hcall]
          exact hsame (List.Sublist.refl _) rfl rfl
        · next hcall =>
          rw [call_eq hcall]
          exact hsame (List.Sublist.refl _) rfl rfl
      · exact h

/-- **One iteration keeps the invariant.** -/
theorem Answering.step (h : Answering c s) (hid : Function.Injective c.newV4) (e : ActorEvent) :
    Answering c (c.actorStep s e) := by
  unfold actorStep
  split
  · exact h
  · next hf =>
    exact (h.handle hid (by simpa using hf) e.took e.input).shrink (List.Sublist.refl _) rfl (Nat.le_refl _) id

/-! ## Answers in time -/

/-- Whenever the actor is about to deny an approval, because it is expired or because its prompt cannot be queued, the
row can still be claimed: it is received, and its own deadline is later than the wall clock. -/
def TimelyFor (c : ApprovalContext) (s : ApprovalActor) : ActorInput → Prop
  | .approval request _ prompted d => prompted = false → c.wallMs (s.clock + d.claim.after) < c.deadlineMs s.clock request
  | .deadlineTick _ answers =>
    (∀ p ∈ s.approvals, p.responded = true → s.clock < p.deadline) →
      ∀ p ∈ s.approvals, p.responded = false → p.deadline ≤ s.clock → c.Claimable s p (answers p.approvalId).claim
  | _ => True

def Timely (c : ApprovalContext) (s : ApprovalActor) (e : ActorEvent) : Prop := TimelyFor c s e.input

/-- The record has a response for an id. -/
def Answered (s : ApprovalActor) (approvalId : String) : Prop := ∃ r ∈ s.responses, r.approvalId = approvalId

/-- What an iteration owes to the approvals, as long as the actor lives. -/
structure Settles (c : ApprovalContext) (s : ApprovalActor) (e : ActorEvent) : Prop where
  /-- A tick denies every approval whose deadline is over. -/
  denied : ∀ order answers, e.input = .deadlineTick order answers → (c.actorStep s e).fatal = false →
    ∀ p ∈ s.approvals, p.responded = false → p.deadline ≤ s.clock →
      ∃ r ∈ (c.actorStep s e).responses, r.approvalId = p.approvalId ∧ r.decision = denialFor p.request
  /-- An approval leaves the map only with a response or on a notice of the server. -/
  kept : (c.actorStep s e).fatal = false → ∀ p ∈ s.approvals,
    (∃ p' ∈ (c.actorStep s e).approvals, p'.approvalId = p.approvalId) ∨ Answered (c.actorStep s e) p.approvalId ∨
      ∃ q, e.input = .serverRequestResolved (some p.requestKey) q
  /-- An approval that is accepted is in the map or has a response. -/
  accepted : ∀ request receive prompted d, e.input = .approval request receive prompted d → s.fatal = false →
    (c.actorStep s e).fatal = false →
      (∃ p ∈ (c.actorStep s e).approvals, p.approvalId = c.newV4 s.drawn) ∨ Answered (c.actorStep s e) (c.newV4 s.drawn)

theorem actorStep_of_live (hf : s.fatal = false) :
    c.actorStep s e = { c.handle s e.took e.input with clock := s.clock + e.took } := by
  unfold actorStep
  rw [if_neg (by simp [hf])]

/-- A handler whose failure ends the loop has succeeded in a loop that goes on. -/
theorem orFatal_live {r : Except ExternalWriteError Unit × ApprovalActor} (h : (orFatal r).fatal = false) :
    r = (.ok (), orFatal r) := by
  obtain ⟨x, s⟩ := r
  cases x with
  | ok u => rfl
  | error err => cases h

/-- A tick that leaves the actor alive has denied all that was expired. -/
theorem tick_cases (h : Answering c s) (hf : s.fatal = false) {order : List PendingApproval}
    {answers : String → DenyAnswers} {took : ℕ} (hlive : (c.handle s took (.deadlineTick order answers)).fatal = false) :
    s.approvals = [] ∧ c.handle s took (.deadlineTick order answers) = s ∨
    (∀ p ∈ s.approvals, p.responded = true → s.clock < p.deadline) ∧
      DeniedAll c s (c.handle s took (.deadlineTick order answers)) answers ((expired s order).map (·.approvalId)) (.ok ()) := by
  simp only [ApprovalContext.handle] at hlive ⊢
  split at hlive
  · next hempty =>
    rw [if_pos hempty]
    exact .inl ⟨List.isEmpty_iff.1 hempty, rfl⟩
  · next hempty =>
    rw [if_neg hempty]
    rcases settleExpiredApprovals_cases h hf (orFatal_live hlive) with ⟨-, hx⟩ | hall
    · cases hx
    · exact .inr hall

/-- A request that leaves the actor alive has been accepted. -/
theorem approval_cases {request : ExternalApprovalRequest} {receive : Timed} {prompted : Bool} {d : DenyAnswers} {took : ℕ}
    (hlive : (c.handle s took (.approval request receive prompted d)).fatal = false) :
    ∃ s₁ p, Received c s s₁ request p ∧ (if prompted then (.ok (), s₁) else c.denyOneApproval s₁ d p.approvalId) =
      (.ok (), c.handle s took (.approval request receive prompted d)) := by
  rcases receiveApproval_cases (orFatal_live hlive) with ⟨-, -, -, -, hx⟩ | hrec
  · exact absurd rfl hx
  · exact hrec

section Settled

variable (h : Answering c s) (hid : Function.Injective c.newV4) (ht : Timely c s e) (hf : s.fatal = false)
  (hlive : (c.handle s e.took e.input).fatal = false)

include h ht hf hlive in
theorem handle_denied {order : List PendingApproval} {answers : String → DenyAnswers}
    (he : e.input = .deadlineTick order answers) {p : PendingApproval} (hp : p ∈ s.approvals) (hun : p.responded = false)
    (hdue : p.deadline ≤ s.clock) :
    ∃ r ∈ (c.handle s e.took e.input).responses, r.approvalId = p.approvalId ∧ r.decision = denialFor p.request := by
  unfold Timely at ht
  rw [he] at hlive ht ⊢
  rcases tick_cases h hf hlive with ⟨hempty, -⟩ | ⟨hnone, hall⟩
  · rw [hempty] at hp; cases hp
  · exact hall.answered rfl p hp (List.mem_map_of_mem (mem_expired.2 ⟨hp, hun, hdue⟩)) (ht hnone p hp hun hdue)

include h hid ht hf hlive in
theorem handle_accepted {request : ExternalApprovalRequest} {receive : Timed} {prompted : Bool} {d : DenyAnswers}
    (he : e.input = .approval request receive prompted d) :
    (∃ p ∈ (c.handle s e.took e.input).approvals, p.approvalId = c.newV4 s.drawn) ∨
      Answered (c.handle s e.took e.input) (c.newV4 s.drawn) := by
  unfold Timely at ht
  rw [he] at hlive ht ⊢
  obtain ⟨s₁, p, hrec, hx⟩ := approval_cases hlive
  have hmem : p ∈ s₁.approvals := by
    rw [hrec.approvals]
    exact List.mem_append_right _ (List.mem_singleton_self _)
  cases prompted with
  | true =>
    have hs : s₁ = c.handle s e.took (.approval request receive true d) := congrArg (·.2) hx
    exact .inl ⟨p, hs ▸ hmem, hrec.id⟩
  | false =>
    have h₁ : Answering c s₁ := h.insert hid hrec.id hrec.approvals hrec.responses hrec.drawn fun _ => hf
    rcases (denyOneApproval_cases (h₁.pending? hmem) hx).responses with ⟨-, hno⟩ | hr
    · exact absurd (hrec.claimable d.claim (ht rfl)) (hno rfl)
    · refine .inr ⟨⟨p.approvalId, denialFor p.request, some .responding⟩, ?_, hrec.id⟩
      rw [hr]
      exact List.mem_append_right _ (List.mem_singleton_self _)

include h hid ht hf hlive in
theorem handle_kept {p : PendingApproval} (hp : p ∈ s.approvals) :
    (∃ p' ∈ (c.handle s e.took e.input).approvals, p'.approvalId = p.approvalId) ∨
      Answered (c.handle s e.took e.input) p.approvalId ∨
        ∃ q, e.input = .serverRequestResolved (some p.requestKey) q := by
  cases he : e.input with
  | idle | closed | command command answers | shutdown | elsewhere ev => exact .inl ⟨p, hp, rfl⟩
  | approval request receive prompted d =>
    rw [he] at hlive
    obtain ⟨s₁, p₀, hrec, hx⟩ := approval_cases hlive
    have hne : p.approvalId ≠ p₀.approvalId := by
      obtain ⟨k, hk, hpk⟩ := h.fresh p hp
      rw [hpk, hrec.id]
      exact fun heq => absurd (hid heq) (Nat.ne_of_lt hk)
    have hp₁ : p ∈ s₁.approvals := by
      rw [hrec.approvals]
      exact List.mem_append_left _ (Answering.mem_remove.2 ⟨hp, hne⟩)
    cases prompted with
    | true =>
      have hs : s₁ = c.handle s e.took (.approval request receive true d) := congrArg (·.2) hx
      exact .inl ⟨p, hs ▸ hp₁, rfl⟩
    | false =>
      have h₁ : Answering c s₁ := h.insert hid hrec.id hrec.approvals hrec.responses hrec.drawn fun _ => hf
      have hmem : p₀ ∈ s₁.approvals := by
        rw [hrec.approvals]
        exact List.mem_append_right _ (List.mem_singleton_self _)
      refine .inl ⟨p, ?_, rfl⟩
      rw [(denyOneApproval_cases (h₁.pending? hmem) hx).approvals]
      exact Answering.mem_remove.2 ⟨hp₁, hne⟩
  | serverRequestResolved requestKey q =>
    cases requestKey with
    | none => exact .inl ⟨p, hp, rfl⟩
    | some requestKey =>
      by_cases hkey : p.requestKey = requestKey
      · exact .inr (.inr ⟨q, by rw [hkey]⟩)
      · refine .inl ⟨p, ?_, rfl⟩
        simp only [ApprovalContext.handle]
        split
        · next hcall =>
          rw [call_eq hcall]
          exact List.mem_filter.2 ⟨hp, by simpa using hkey⟩
        · next hcall =>
          rw [call_eq hcall]
          exact hp
  | turnCompleted threadId turn q =>
    cases turn with
    | none => exact .inl ⟨p, hp, rfl⟩
    | some turn => exact .inl ⟨p, hp, rfl⟩
  | threadSettingsUpdated reviewer =>
    simp only [ApprovalContext.handle]
    split
    · exact .inl ⟨p, hp, rfl⟩
    · exact .inl ⟨p, hp, rfl⟩
  | deadlineTick order answers =>
    have hdenied := fun hun hdue => handle_denied h ht hf hlive he hp hun hdue
    rw [he] at hlive hdenied
    rcases tick_cases h hf hlive with ⟨hempty, -⟩ | ⟨-, hall⟩
    · rw [hempty] at hp; cases hp
    · by_cases hexp : p.approvalId ∈ (expired s order).map (·.approvalId)
      · obtain ⟨p', hp', heq⟩ := List.mem_map.1 hexp
        obtain ⟨hm, hun, hdue⟩ := mem_expired.1 hp'
        rw [List.inj_on_of_nodup_map h.keys hm hp heq] at hun hdue
        obtain ⟨r, hr, hrid, -⟩ := hdenied hun hdue
        exact .inr (.inl ⟨r, hr, hrid⟩)
      · exact .inl ⟨p, hall.kept p hp hexp, rfl⟩
  | resolveApproval actor approvalId decision d =>
    rcases resolvePendingApproval_cases (Prod.eta (c.resolvePendingApproval s d e.took actor approvalId decision)).symm with
      ⟨ha, -⟩ | ⟨p₀, -, -, -, -, ⟨ha, -⟩ | ⟨p', hid', -, ha⟩⟩
    · refine .inl ⟨p, ?_, rfl⟩
      simp only [ApprovalContext.handle, ha]
      exact hp
    · refine .inl ⟨p, ?_, rfl⟩
      simp only [ApprovalContext.handle, ha]
      exact hp
    · simp only [ApprovalContext.handle, ha]
      by_cases heq : p.approvalId = p'.approvalId
      · exact .inl ⟨p', List.mem_append_right _ (List.mem_singleton_self _), heq.symm⟩
      · exact .inl ⟨p, List.mem_append_left _ (Answering.mem_remove.2 ⟨hp, heq⟩), rfl⟩
  | reassignApprovalActor newActor q =>
    refine .inl ⟨p, ?_, rfl⟩
    simp only [ApprovalContext.handle]
    split
    · exact hp
    · split
      · split
        · next hcall => rw [call_eq hcall]; exact hp
        · next hcall => rw [call_eq hcall]; exact hp
      · exact hp

end Settled

/-- **One iteration settles what it owes**, if it is in time. -/
theorem Answering.settles (h : Answering c s) (hid : Function.Injective c.newV4) (ht : Timely c s e) : Settles c s e := by
  cases hf : s.fatal with
  | true =>
    have hstep : c.actorStep s e = s := by unfold actorStep; rw [if_pos hf]
    have hdead : (c.actorStep s e).fatal ≠ false := by rw [hstep, hf]; decide
    exact ⟨fun _ _ _ hl => absurd hl hdead, fun hl => absurd hl hdead, fun _ _ _ _ _ hs => by rw [hf] at hs; cases hs⟩
  | false =>
    refine ⟨fun order answers he hl p hp hun hdue => ?_, fun hl p hp => ?_, fun request receive prompted d he _ hl => ?_⟩
    · rw [actorStep_of_live hf] at hl ⊢
      exact handle_denied h ht hf hl he hp hun hdue
    · rw [actorStep_of_live hf] at hl ⊢
      exact handle_kept h hid ht hf hl hp
    · rw [actorStep_of_live hf] at hl ⊢
      exact handle_accepted h hid ht hf hl he

/-! ## Runs -/

/-- What a run owes to the approvals: one response at most for each, each of them sent under a claim that is
responding, and every iteration settles what it owes. -/
structure AnsweredOnce (c : ApprovalContext) (s : ApprovalActor) (es : List ActorEvent) : Prop where
  once : ∀ id, ((exec c.actorStep s es).responses.filter fun r => r.approvalId = id).length ≤ 1
  responding : ∀ r ∈ (exec c.actorStep s es).responses, r.claim = some .responding
  settles : Along c.actorStep (Settles c) s es

theorem answering_start (store : Writer ExternalDb) (clock : ℕ) : Answering c (start store clock) where
  keys := List.nodup_nil
  fresh p hp := by cases hp
  sent r hr := by cases hr
  once := List.nodup_nil
  responding r hr := by cases hr
  unanswered _ p hp := by cases hp

/-- Values that are distinct under `f` have at most one with a given image. -/
theorem length_filter_le_one {α : Type} {f : α → String} {id : String} : ∀ {l : List α}, (l.map f).Nodup →
    (l.filter fun x => f x = id).length ≤ 1
  | [], _ => Nat.zero_le 1
  | x :: l, h => by
    obtain ⟨hx, hl⟩ := List.nodup_cons.1 h
    by_cases heq : f x = id
    · have hnone : l.filter (fun y => decide (f y = id)) = [] :=
        List.filter_eq_nil_iff.2 fun y hy hyid => hx (List.mem_map.2 ⟨y, hy, (of_decide_eq_true hyid).trans heq.symm⟩)
      simp [heq, hnone]
    · simpa [heq] using length_filter_le_one hl

instance (row : ApprovalRow) (recipient : String) (epoch : ℕ) (now : ℤ) : Decidable (row.Claimable recipient epoch now) :=
  decidable_of_iff (row.recipientActor = recipient ∧ row.epoch = epoch ∧ row.state = .received ∧ row.deadlineMs > now)
    ⟨fun ⟨h₁, h₂, h₃, h₄⟩ => ⟨h₁, h₂, h₃, h₄⟩, fun ⟨h₁, h₂, h₃, h₄⟩ => ⟨h₁, h₂, h₃, h₄⟩⟩

instance (c : ApprovalContext) (s : ApprovalActor) (p : PendingApproval) (q : Timed) : Decidable (Claimable c s p q) :=
  match h : s.store.db.approvals.lookup (c.endpoint.label, p.request.threadId, p.approvalId) with
  | none => .isFalse fun ⟨x, hx, _⟩ => by rw [h] at hx; cases hx
  | some x =>
    decidable_of_iff (x.val.Claimable c.endpoint.settings.approvalRecipient c.endpoint.epoch (c.wallMs (s.clock + q.after)))
      ⟨fun hc => ⟨x, h, hc⟩, fun ⟨y, hy, hc⟩ => by rw [h] at hy; cases hy; exact hc⟩

instance (c : ApprovalContext) (s : ApprovalActor) : ∀ input, Decidable (TimelyFor c s input)
  | .approval _ _ _ _ => by unfold TimelyFor; infer_instance
  | .deadlineTick _ _ => by unfold TimelyFor; infer_instance
  | .idle | .serverRequestResolved _ _ | .turnCompleted _ _ _ | .threadSettingsUpdated _ | .closed
  | .resolveApproval _ _ _ _ | .reassignApprovalActor _ _ | .command _ _ | .shutdown | .elsewhere _ => .isTrue trivial

instance (c : ApprovalContext) (s : ApprovalActor) (e : ActorEvent) : Decidable (Timely c s e) :=
  inferInstanceAs (Decidable (TimelyFor c s e.input))

/-- Ids that differ in their length. -/
def unaryIds (n : ℕ) : String := String.ofList (List.replicate (n + 1) 'a')

theorem unaryIds_injective : Function.Injective unaryIds := by
  intro m n h
  have := congrArg String.length h
  simpa [unaryIds] using this

/-- An actor of the endpoint of `steerRun`, with a timeout in milliseconds. -/
def steerContext (timeoutMs : ℕ) : ApprovalContext where
  endpoint := ⟨"e", 1, .queueShared, ⟨"c", "a", "user", "r"⟩⟩
  approvalTimeout := timeoutMs * nanosPerMilli
  requestTimeout := 30 * 1000 * nanosPerMilli
  wallOrigin := 0
  newV4 := unaryIds

/-- The actor after the turn of `steerRun` has started. -/
def steerStart : ApprovalActor := start (exec externalStep emptyExternal (steerRun.take 8)) 0

/-- Everything is answered at once. -/
def promptAnswers : DenyAnswers := ⟨⟨.execute, 0⟩, ⟨.execute, 0⟩, .ok (), ⟨.execute, 0⟩⟩

/-- An approval is received, nobody decides it, and the first tick comes when its deadline is over. -/
def expiredRun (timeoutMs : ℕ) : List ActorEvent :=
  [ ⟨.approval ⟨.command, 1, some "k", "t", "turn", "item", none⟩ ⟨.execute, 0⟩ true promptAnswers,
      timeoutMs * nanosPerMilli⟩,
    ⟨.deadlineTick [] fun _ => promptAnswers, 0⟩ ]

end ApprovalContext

end LarkCodexBridge.External

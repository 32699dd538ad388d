import LarkCodexBridge.Runtime.BridgeCustody

/-!
# Acknowledged messages

A message is acknowledged once its handler call returned `Ok`. As long as its row is received, some task of the bridge holds
a copy that owes a settled row, or a copy was let go of at an error exit (`Bridge.dropped`).

* `step_kept`: one step keeps this, with one case for each kind of event;
* `acknowledged_is_held`: so does every run, and a bridge at rest has no acknowledged received row but dropped ones.
-/

namespace LarkCodexBridge.Runtime

open Limits Lark Store Outbox SqlTable StepSystem

namespace Bridge

variable {C : Codec} {I : InboundCodec} {tenant : TenantNamespace} {fromStr : String → Option String} {st st' : Bridge}
  {fate : Fate} {now : ℤ} {k : String × String} {op : InboundOp} {i : ℕ}

/-! ## The invariant -/

/-- A copy of the message is held that owes a settled row. -/
def HeldCopy (tenant : TenantNamespace) (st : Bridge) (k : String × String) : Prop :=
  ∃ h ∈ st.holds, h.2.owes = true ∧ (InboundKey.mk tenant h.1.eventId).key = k

/-- A copy of the message was let go of at an error exit. -/
def LetGo (tenant : TenantNamespace) (st : Bridge) (k : String × String) : Prop :=
  ∃ item ∈ st.dropped, (item.key tenant).key = k

/-- A row that is received and acknowledged. -/
def Waits (st : Bridge) (k : String × String) : Prop :=
  (∃ r ∈ st.store.db.inbound.rows, r.val.state = .received ∧ r.val.key = k) ∧ k ∈ st.acked

structure Kept (tenant : TenantNamespace) (st : Bridge) : Prop where
  wf : st.WF
  kept : ∀ k, st.Waits k → st.HeldCopy tenant k ∨ st.LetGo tenant k

/-! ## Steps -/

theorem HeldCopy.of_subset (h : st.HeldCopy tenant k) (hsub : ∀ x ∈ st.holds, x ∈ st'.holds) : st'.HeldCopy tenant k := by
  obtain ⟨x, hx, ho⟩ := h
  exact ⟨x, hsub x hx, ho⟩

/-- A step that asks nothing of the store. -/
theorem Moves.kept (h : st.Kept tenant) (hm : st.Moves tenant st') : st'.Kept tenant := by
  refine ⟨hm.wf, fun k hk => ?_⟩
  obtain ⟨hrow, hacked⟩ := hk
  rw [hm.store] at hrow
  rcases hm.acked k hacked with hacked | hheld
  · obtain ⟨dropped, log, hd, -, hacc⟩ := hm.accounts
    rcases h.kept k ⟨hrow, hacked⟩ with ⟨x, hx, ho, rfl⟩ | ⟨item, hitem, hkey⟩
    · rcases hacc.owed x hx ho with ⟨y, hy, hyo, hid⟩ | ⟨event, hevent, hid⟩
      · exact .inl ⟨y, hy, hyo, by rw [hid]⟩
      · obtain ⟨item, hitem, rfl⟩ := List.mem_map.1 hevent
        refine .inr ⟨item, ?_, by rw [ActorInbound.key, hid]⟩
        rw [hd]
        exact List.mem_append_right _ hitem
    · refine .inr ⟨item, ?_, hkey⟩
      rw [hd]
      exact List.mem_append_left _ hitem
  · exact .inl hheld

theorem received_before {w : Writer Db} (hop : op.keepsRows = true ∨ ∃ o n, op = .sweepInbound o n)
    (hrow : ∃ r ∈ (w.callOp C I fate now op).2.db.inbound.rows, r.val.state = .received ∧ r.val.key = k) :
    ∃ r ∈ w.db.inbound.rows, r.val.state = .received ∧ r.val.key = k := by
  obtain ⟨r', hr', hs, hk⟩ := hrow
  rcases callOp_row hr' with ⟨r, hr, -, hev⟩ | hnew
  · exact ⟨r, hr, hev.received hs, hev.key.symm.trans hk⟩
  · obtain ⟨tenant', event, rfl, -⟩ := hnew.event
    rcases hop with hop | ⟨o, n, hop⟩ <;> cases hop

/-- A request of the router or of an actor. -/
theorem Asks.kept (h : st.Kept tenant) (ha : st.Asks C I tenant fate now op st') : st'.Kept tenant := by
  refine ⟨ha.wf, fun k hk => ?_⟩
  obtain ⟨hrow, hacked⟩ := hk
  rw [ha.store] at hrow
  rw [ha.acked] at hacked
  rcases h.kept k ⟨received_before (.inl ha.keepsRows) hrow, hacked⟩ with ⟨x, hx, ho, rfl⟩ | ⟨item, hitem, hkey⟩
  · cases hans : (st.store.callOp C I fate now op).1 with
    | ok reply =>
      rcases (ha.settled (by rw [hans]; rfl)).owed x hx ho with ⟨y, hy, hyo, hid⟩ | hsettled
      · exact .inl ⟨y, hy, hyo, by rw [hid]⟩
      · -- the answer settled the row
        obtain ⟨r, hr, hs, hk⟩ := hrow
        exact absurd hs (callOp_settles hans _ hsettled r hr hk)
    | error e => exact .inl ⟨x, (ha.unsettled (by rw [hans]; rfl)).mem_iff.2 hx, ho, rfl⟩
  · exact .inr ⟨item, ha.dropped ▸ hitem, hkey⟩

/-- The answer to a handler call hands out at most a copy. -/
theorem register_holds {event : InboundEvent} {abandoned : Bool} (hi : st.handlers[i]? = some ⟨event, none, abandoned⟩)
    (handlers : List Handler) (hh : handlers = st.handlers.eraseIdx i ∨ ∃ handler, handlers = st.handlers.set i handler) :
    ∀ x ∈ st.onTheWay, x ∈ { st with handlers := handlers }.onTheWay := by
  intro x hx
  have hsplit := (onTheWay_split hi).mem_iff.2 hx
  have herase : x ∈ { st with handlers := st.handlers.eraseIdx i }.onTheWay := by
    rcases List.mem_append.1 hsplit with hx | hx
    · cases hx
    · exact hx
  rcases hh with rfl | ⟨handler, rfl⟩
  · exact herase
  · exact (onTheWay_set handler (List.getElem?_eq_some_iff.1 hi).1).mem_iff.1 (List.mem_append_right _ herase)

theorem ackedBefore_subset : ∀ k' ∈ st.ackedBefore k, k' ∈ st.acked := by
  intro k' hk'
  unfold ackedBefore at hk'
  split at hk'
  · exact hk'
  · exact List.mem_of_mem_filter hk'

theorem ackedBefore_fresh (h : ∀ r ∈ st.store.db.inbound.rows, r.val.key ≠ k) : k ∉ st.ackedBefore k := by
  have hany : ¬ st.store.db.inbound.rows.any (·.val.key = k) := by
    intro hany
    obtain ⟨r, hr, hk⟩ := List.any_eq_true.1 hany
    exact h r hr (of_decide_eq_true hk)
  rw [ackedBefore, if_neg hany]
  simp

theorem register_kept (h : st.Kept tenant) : (st.register C I tenant i fate now).Kept tenant := by
  unfold register
  split
  · next event abandoned hi =>
    dsimp only
    refine ⟨⟨h.wf.shape, h.wf.driven, h.wf.evicting⟩, fun k hk => ?_⟩
    obtain ⟨⟨r', hr', hs, rfl⟩, hacked⟩ := hk
    rcases callOp_row hr' with ⟨r, hr, -, hev⟩ | hnew
    · have hkept := h.kept r'.val.key ⟨⟨r, hr, hev.received hs, hev.key.symm⟩, ackedBefore_subset _ hacked⟩
      refine hkept.imp (fun hheld => hheld.of_subset fun x hx => ?_) fun ⟨item, hitem, hkey⟩ => ⟨item, hitem, hkey⟩
      rcases List.mem_append.1 hx with hx | hx
      · refine List.mem_append_left _ ((List.mem_append.1 hx).elim (fun hx => ?_) (List.mem_append_right _))
        refine List.mem_append_left _ (register_holds hi _ ?_ x hx)
        split
        · exact .inl rfl
        · exact .inr ⟨_, rfl⟩
      · exact List.mem_append_right _ hx
    · -- a row that is registered anew has not been acknowledged
      obtain ⟨tenant', event', heq, hkey, -⟩ := hnew.event
      cases heq
      have hfresh : ∀ r ∈ st.store.db.inbound.rows, r.val.key ≠ (InboundKey.mk tenant event.eventId).key := by
        intro r hr hk
        exact hnew.fresh r hr (hk.trans hkey.symm)
      refine absurd hacked ?_
      rw [hkey]
      exact ackedBefore_fresh hfresh
  · exact h

theorem initial_wf (inner : LiveInner) : (initial inner).WF :=
  ⟨⟨List.nodup_nil, by simp [initial]⟩, .inl rfl, trivial⟩

/-- A start queues every row that it acknowledges. -/
theorem restart_kept {inner : LiveInner} {accepted : Bool} :
    (st.restart C I tenant inner fate now accepted).Kept tenant := by
  have none : ∀ st' : Bridge, st'.WF → st'.acked = [] → st'.Kept tenant := by
    intro st' hwf hacked
    refine ⟨hwf, fun k hk => ?_⟩
    have := hk.2
    rw [hacked] at this
    cases this
  have hwf := initial_wf inner
  unfold restart
  dsimp only
  split
  · next rows store _ =>
    split
    · refine ⟨⟨hwf.shape, .inl rfl, trivial⟩, fun k hk => .inl ?_⟩
      obtain ⟨retained, hmem, rfl⟩ := List.mem_map.1 hk.2
      refine ⟨(retained.event, .waits), ?_, rfl, rfl⟩
      have hch : (retained.event, Stage.waits) ∈ waiting (rows.map (·.event)) :=
        List.mem_map.2 ⟨_, List.mem_map.2 ⟨retained, hmem, rfl⟩, rfl⟩
      simp [holds, rest, onTheWay, initial, hch]
    · exact none _ ⟨hwf.shape, .inl rfl, trivial⟩ rfl
  · exact none _ ⟨hwf.shape, .inl rfl, trivial⟩ rfl

theorem step_kept (e : Event) (h : st.Kept tenant) : (st.step C I tenant fromStr e).Kept tenant := by
  have hstep : Step C I tenant st e (st.step C I tenant fromStr e) := step_cases h.wf e
  generalize st.step C I tenant fromStr e = st' at hstep
  cases hstep with
  | moves hm => exact hm.kept h
  | register i fate now => exact register_kept h
  | asks fate now op ha => exact ha.kept h
  | sweep fate now olderThanMs maxRows =>
    refine ⟨⟨h.wf.shape, h.wf.driven, h.wf.evicting⟩, fun k hk => ?_⟩
    exact h.kept k ⟨received_before (.inr ⟨_, _, rfl⟩) hk.1, hk.2⟩
  | restart inner fate now accepted => exact restart_kept

theorem after_kept (inner : LiveInner) (es : List Event) : (after C I tenant fromStr inner es).Kept tenant := by
  refine exec_invariant' (fun st e h => step_kept e h) ⟨initial_wf inner, fun k hk => ?_⟩
  cases hk.2

/-! ## Runs -/

/-- All queues are empty, the router waits for work and every actor waits on its mailbox. -/
structure AtRest (st : Bridge) : Prop where
  channel : st.channel = []
  queue : st.queue = []
  driver : ∀ event, st.driver ≠ .backoff event
  retries : st.retries = []
  router : ∃ c, st.router = .waiting c
  actors : ∀ a ∈ st.actors, a.mailbox = [] ∧ ∃ c, a.pc = .waiting c

/-- A bridge at rest holds what its handler calls are about to queue, and nothing else. -/
theorem AtRest.holds (h : st.AtRest) (hwf : st.WF) : st.holds = st.handlers.flatMap Handler.holds := by
  obtain ⟨c, hrouter⟩ := h.router
  have hdriver : st.driver.holds = [] := by
    cases hd : st.driver with
    | backoff event => exact absurd hd (h.driver event)
    | idle | waiting => rfl
  have hactors : st.actorsHold = [] := by
    refine List.flatMap_eq_nil_iff.2 fun a ha => ?_
    obtain ⟨hmailbox, c, hpc⟩ := h.actors a ha
    have hdeferred : a.deferred = none := (hwf.shape.actors a ha).collects (by rw [hpc]; rfl)
    simp [Actor.holds, Actor.rest, hmailbox, hdeferred, hpc, ActorPc.holds]
  rw [Bridge.holds, rest, hactors, hrouter, onTheWay, h.queue, h.channel, h.retries, hdriver]
  simp [RouterPc.holds]

theorem AtRest.not_held (h : st.AtRest) (hwf : st.WF) : ¬ st.HeldCopy tenant k := by
  rintro ⟨x, hx, ho, -⟩
  rw [h.holds hwf] at hx
  obtain ⟨handler, -, hx⟩ := List.mem_flatMap.1 hx
  obtain ⟨event, -, rfl⟩ := List.mem_map.1 hx
  cases ho

def helloMessage : InboundEvent := directMessage "evt_1" "om_1" "oc_1" "ou_1" "hello"

def helloPayload : InboundCodec :=
  codecOf [(.ofEvent (persistableEvent helloMessage), directPayload "evt_1" "om_1" "oc_1" "ou_1" "hello")]
    (by decide)

/-- The bridge after a run of the sample. -/
def helloAfter (es : List Event) : Bridge := after noOutbox helloPayload sampleTenant (fun _ => none) sampleInner es

/-- The message reaches the queue of the router. -/
def queuedRun : List Event := startEvent :: intake helloMessage 1001

set_option maxRecDepth 20000 in
theorem queuedRun_waits : (helloAfter queuedRun).Waits (sampleTenant.asHex, "evt_1") :=
  ⟨by decide, by decide⟩

/-- The app server refuses the thread without a definite answer, and a new epoch comes before the claim. -/
def epochLossRun : List Event :=
  queuedRun ++ [.supervise ⟨1, true, false⟩, routerTakes .other, routerTakes .other, routerTakes .message] ++
    ([.next, .next, .message, .timer, .adoption (some none), .mapping (some none), .next, .permit, .mapping (some none),
      .workspace (.ok false), .next, .thread (.client false false)].map (actorTakes "im:oc_1" ·)) ++
    [.supervise ⟨2, true, false⟩] ++ [.changed, .next, .next].map (actorTakes "im:oc_1" ·) ++
    [routerTakes .other, routerTakes .other]

set_option maxRecDepth 20000 in
theorem epochLossRun_waits : (helloAfter epochLossRun).Waits (sampleTenant.asHex, "evt_1") :=
  ⟨by decide, by decide⟩

set_option maxRecDepth 20000 in
theorem epochLossRun_router :
    (match (helloAfter epochLossRun).router with | .waiting _ => true | _ => false) = true := by decide

set_option maxRecDepth 20000 in
theorem epochLossRun_actors : ((helloAfter epochLossRun).actors.all fun a =>
    a.mailbox.isEmpty && match a.pc with | .waiting _ => true | _ => false) = true := by decide

set_option maxRecDepth 20000 in
theorem epochLossRun_atRest : (helloAfter epochLossRun).AtRest := by
  have hdriver : (helloAfter epochLossRun).driver = .idle := by decide
  have hrouter := epochLossRun_router
  refine ⟨by decide, by decide, fun event h => ?_, by decide, ?_, fun a ha => ?_⟩
  · rw [hdriver] at h
    cases h
  · split at hrouter
    · next c heq => exact ⟨c, heq⟩
    · cases hrouter
  · have h := List.all_eq_true.1 epochLossRun_actors a ha
    rw [Bool.and_eq_true, List.isEmpty_iff] at h
    refine ⟨h.1, ?_⟩
    have hpc := h.2
    split at hpc
    · next c heq => exact ⟨c, heq⟩
    · cases hpc

end Bridge

end LarkCodexBridge.Runtime

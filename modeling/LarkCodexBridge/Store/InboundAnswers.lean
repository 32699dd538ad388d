import LarkCodexBridge.Store.InboundClaims

/-!
# What an answer says about the rows

One call of the store, seen by its caller:

* `callOp_row`: every row after the call is a row from before that evolved, or the row that the call registered;
* `callOp_settles`: a request that was answered `Ok` leaves none of its rows received;
* `registered_new`, `registered_replay`, `recovered_rows`: what the copies that the store hands out belong to.
-/

namespace LarkCodexBridge.Store

open Limits SqlTable Outbox Lark StepSystem

variable {C : Codec} {I : InboundCodec} {w : Writer Db} {fate : Fate} {now : ℤ} {op : InboundOp}

/-! ## Calls -/

/-- A call answers an error and leaves the database, or its job ran: with its answer, or with an error of a writer that
stopped then. -/
theorem callOp_cases (C : Codec) (I : InboundCodec) (w : Writer Db) (fate : Fate) (now : ℤ) (op : InboundOp) :
    (∃ e, (w.callOp C I fate now op).1 = .error e ∧ (w.callOp C I fate now op).2.db = w.db) ∨
      ∃ reply db, op.run C I now w.db = .ok (reply, db) ∧ w.alive = true ∧
        (w.callOp C I fate now op = (.ok reply, { w with db := db }) ∨
          ∃ e, w.callOp C I fate now op = (.error e, ⟨db, false⟩)) := by
  unfold Writer.callOp Writer.call
  split
  · exact .inl ⟨_, rfl, rfl⟩
  · rcases w.runSized_cases fate (op.run C I now) with h | ⟨a, db, hj, halive, -, hr⟩ | ⟨a, db, e, hj, halive, -, hr⟩
    · exact .inl h
    · exact .inr ⟨a, db, hj, halive, .inl hr⟩
    · exact .inr ⟨a, db, hj, halive, .inr ⟨e, hr⟩⟩

variable {reply : OpReply}

/-- An answer is that of the job. -/
theorem callOp_ok (h : (w.callOp C I fate now op).1 = .ok reply) :
    op.run C I now w.db = .ok (reply, (w.callOp C I fate now op).2.db) ∧ (w.callOp C I fate now op).2.alive = w.alive := by
  rcases callOp_cases C I w fate now op with ⟨e, he, -⟩ | ⟨reply', db, hrun, -, hr | ⟨e, hr⟩⟩
  · rw [he] at h
    cases h
  · rw [hr] at h ⊢
    cases h
    exact ⟨hrun, rfl⟩
  · rw [hr] at h
    cases h

/-- A writer that still serves did what it answered: nothing on an error. -/
theorem callOp_error {e : StoreError} (h : (w.callOp C I fate now op).1 = .error e)
    (halive : (w.callOp C I fate now op).2.alive = true) : (w.callOp C I fate now op).2.db = w.db := by
  rcases callOp_cases C I w fate now op with ⟨-, -, hdb⟩ | ⟨reply', db, -, -, hr | ⟨e, hr⟩⟩
  · exact hdb
  · rw [hr] at h
    cases h
  · rw [hr] at halive
    cases halive

theorem callOp_alive (h : (w.callOp C I fate now op).2.alive = true) : w.alive = true := by
  unfold Writer.callOp Writer.call at h
  split at h
  · exact h
  · exact Writer.alive_of_runSized h

/-! ## Rows after a call -/

/-- What the operation itself may do. -/
def InboundOp.allowed (op : InboundOp) : Allowed :=
  ⟨fun _ => True, (StoreEvent.call .execute 0 op).isSweep = true, (· ∈ op.ends), True⟩

theorem callOp_evolves : Evolves op.allowed w.db (w.callOp C I fate now op).2.db := by
  refine Changes.evolves (I := I) (storeStep_changes (C := C) w (.call fate now op) ⟨fun _ _ => trivial, fun hs => ?_,
    fun _ h => h, fun _ => trivial⟩)
  cases op with
  | sweepInbound => rfl
  | _ => cases hs

/-- The row that a registration inserted. -/
structure Registered (op : InboundOp) (db : Db) (r' : InboundRow) : Prop where
  event : ∃ tenant event, op = .registerInbound tenant event ∧ r'.key = (tenant.asHex, event.eventId) ∧
    r'.messageId = event.messageId
  state : r'.state = .received
  fresh : ∀ r ∈ db.inbound.rows, r.val.key ≠ r'.key
  others : ∀ r ∈ db.inbound.rows, r.val.tenant = r'.tenant → r.val.messageId = r'.messageId → r.val.state = .rejected

/-- **A row after a call was there before, or the call registered it.** -/
theorem callOp_row {r' : Row InboundRow} (hr' : r' ∈ (w.callOp C I fate now op).2.db.inbound.rows) :
    (∃ r ∈ w.db.inbound.rows, r.serial = r'.serial ∧ RowEvolves op.allowed r.val r'.val) ∨
      Registered op w.db r'.val := by
  by_cases hlt : r'.serial < w.db.inbound.nextSerial
  · exact .inl (callOp_evolves.old r' hr' hlt)
  · obtain ⟨-, hfresh, hothers, fate', now', tenant, event, payload, he, hval⟩ :=
      storeStep_new (C := C) (I := I) (e := .call fate now op) hr' (Nat.le_of_not_lt hlt)
    cases he
    exact .inr ⟨⟨tenant, event, rfl, by rw [hval]; rfl, by rw [hval]; rfl⟩, by rw [hval]; rfl, hfresh, hothers⟩

variable {r : Row InboundRow}

/-- Only a sweep deletes rows. -/
theorem callOp_kept (hsweep : (StoreEvent.call .execute 0 op).isSweep = false) (hr : r ∈ w.db.inbound.rows) :
    ∃ r' ∈ (w.callOp C I fate now op).2.db.inbound.rows, RowEvolves op.allowed r.val r'.val := by
  have hev : Evolves op.allowed w.db (w.callOp C I fate now op).2.db := callOp_evolves
  obtain ⟨r', hr', hs⟩ := hev.kept (by simp [InboundOp.allowed, hsweep]) r hr
  obtain ⟨s, hs', hss, hrow⟩ := hev.old r' hr' (hs ▸ w.db.inbound.serial_lt_next r hr)
  obtain rfl := Table.eq_of_serial hs' hr (hss.trans hs)
  exact ⟨r', hr', hrow⟩

/-- The operations that register no row and sweep none. -/
def InboundOp.keepsRows : InboundOp → Bool
  | .registerInbound _ _ | .sweepInbound _ _ => false
  | _ => true

theorem InboundOp.isSweep_of_keepsRows (h : op.keepsRows = true) : (StoreEvent.call .execute 0 op).isSweep = false := by
  cases op with
  | sweepInbound => cases h
  | _ => rfl

variable {db : Db} {r' : InboundRow} {A : Allowed}

theorem Registered.not_keepsRows (hr : Registered op db r') : ¬op.keepsRows = true := by
  obtain ⟨tenant, event, rfl, -⟩ := hr.event
  exact Bool.false_ne_true

/-- At most one row of a message was not rejected. -/
def Canonical (db : Db) : Prop :=
  ∀ r ∈ db.inbound.rows, ∀ s ∈ db.inbound.rows, r.val.tenant = s.val.tenant → r.val.messageId = s.val.messageId →
    r.val.state ≠ .rejected → s.val.state ≠ .rejected → r = s

theorem RowEvolves.not_rejected {r : InboundRow} (h : RowEvolves A r r') (hs : r'.state ≠ .rejected) :
    r.state ≠ .rejected := by
  intro hr
  exact hs ((h.terminal (by simp [hr, InboundEventState.isTerminal])).trans hr)

theorem callOp_canonical (h : Canonical w.db) : Canonical (w.callOp C I fate now op).2.db := by
  intro r' hr' s' hs' htenant hmessage hr hs
  rcases callOp_row hr' with ⟨r, hrm, hrs, hrev⟩ | hrnew <;> rcases callOp_row hs' with ⟨s, hsm, hss, hsev⟩ | hsnew
  · have heq : r = s := h r hrm s hsm (by rw [← hrev.tenant, ← hsev.tenant, htenant])
      (by rw [← hrev.messageId, ← hsev.messageId, hmessage]) (hrev.not_rejected hr) (hsev.not_rejected hs)
    exact Table.eq_of_serial hr' hs' (by rw [← hrs, ← hss, heq])
  · exact absurd (hsnew.others r hrm (by rw [← hrev.tenant, htenant]) (by rw [← hrev.messageId, hmessage]))
      (hrev.not_rejected hr)
  · exact absurd (hrnew.others s hsm (by rw [← hsev.tenant, htenant]) (by rw [← hsev.messageId, hmessage]))
      (hsev.not_rejected hs)
  · obtain ⟨tenant, event, rfl, hk, -⟩ := hrnew.event
    obtain ⟨tenant', event', heq, hk', -⟩ := hsnew.event
    cases heq
    exact Table.eq_of_key hr' hs' (hk.trans hk'.symm)

/-! ## Settled rows -/

def InboundOp.settles : InboundOp → List (String × String)
  | .rejectReceived key _ | .completeReceivedWithoutTurn key | .completeReceivedAndEnqueueControlReply key _
  | .rejectReceivedAndEnqueueNotice key _ _ => [key.key]
  | .beginTurnAndClaimInbound _ events => events.map (·.1.key)
  | _ => []

/-- The rows of a key are not received any more. -/
def NotReceived (db : Db) (k : String × String) : Prop :=
  ∀ r ∈ db.inbound.rows, r.val.key = k → r.val.state ≠ .received

variable {k : String × String} {stored : InboundRow} {inbound : InboundTable} {g : InboundRow → InboundRow}

theorem notReceived_of_row (hr : r ∈ db.inbound.rows) (hk : r.val.key = k) (hs : r.val.state ≠ .received) :
    NotReceived db k := by
  intro q hq hqk
  rw [Table.eq_of_key hq hr (hqk.trans hk.symm)]
  exact hs

/-- Rows that were rewritten to a state other than `received`. -/
theorem notReceived_of_maps {p : InboundRow → Prop} [DecidablePred p] (hm : Table.Maps (rewrite p g) db.inbound inbound)
    (hg : ∀ r, (g r).state ≠ .received) (hp : ∀ r ∈ db.inbound.rows, r.val.key = k → ¬p r.val → r.val.state ≠ .received) :
    NotReceived { db with inbound := inbound } k := by
  intro r' hr' hk
  obtain ⟨r, hr, rfl⟩ := hm.mem.1 hr'
  dsimp only at hk ⊢
  unfold rewrite at hk ⊢
  split at hk
  · next hpr => rw [if_pos hpr]; exact hg _
  · next hpr => rw [if_neg hpr]; exact hp r hr hk hpr

/-- The row that an update of its key ends. -/
theorem notReceived_of_rewrite (hk : r.val.key = k) (hm : Table.Maps (rewrite (·.key = r.val.key) g) db.inbound inbound)
    (hg : ∀ r, (g r).state ≠ .received) :
    NotReceived { db with inbound := inbound } k :=
  notReceived_of_maps hm hg fun _ _ hsk hne => absurd (hsk.trans hk.symm) hne

variable {db' : Db}

theorem NotReceived.of_changes (hc : Changes I A db db') (hser : db'.inbound.nextSerial = db.inbound.nextSerial)
    (h : NotReceived db k) : NotReceived db' k := by
  intro r' hr' hk hs
  have hlt := db'.inbound.serial_lt_next r' hr'
  obtain ⟨r, hr, -, hev⟩ := hc.evolves.old r' hr' (hser ▸ hlt)
  exact h r hr (hev.key.symm.trans hk) (hev.received hs)

variable {key : InboundKey} {d : InboundDisposition}

theorem completeReceivedWithoutTurn_settles (h : completeReceivedWithoutTurn I now key db = .ok (d, db')) :
    NotReceived db' key.key := by
  obtain ⟨r, hr, hk, ⟨hs, rfl⟩ | ⟨-, -, inbound, rfl, hm⟩⟩ := completeReceivedWithoutTurn_cases h
  · exact notReceived_of_row hr hk hs
  · exact notReceived_of_rewrite hk hm fun r => by simp [InboundRow.complete, InboundRow.finish]

/-- Whatever else the job did, the row was not received when it found it. -/
theorem notReceived_after (hc : Changes I ⟨fun _ => False, False,
    fun _ => True, True⟩ db db') (hr : r ∈ db.inbound.rows) (hk : r.val.key = k) (hs : r.val.state ≠ .received) :
    NotReceived db' k :=
  (notReceived_of_row hr hk hs).of_changes hc (hc.nextSerial_eq fun _ => id)

theorem completeReceivedAndEnqueueControlReply_settles {reply : NewOutboxRow}
    (h : completeReceivedAndEnqueueControlReply C I now key reply db = .ok (d, db')) :
    NotReceived db' key.key := by
  have hc : Changes I ⟨fun _ => False, False, fun _ => True, True⟩ db db' := completeReceivedAndEnqueueControlReply_changes h
  obtain ⟨r, hr, hk, -, ⟨hs, -⟩ | ⟨hs, -⟩ | ⟨-, -, -, outbox, inbound, -, rfl, hm⟩⟩ := completeControlReply_cases h
  · exact notReceived_after hc hr hk hs
  · exact notReceived_after hc hr hk (by simp [hs])
  · show NotReceived { db with inbound := inbound } key.key
    exact notReceived_of_rewrite hk hm fun r => by simp [InboundRow.complete, InboundRow.finish]

variable {reason : InboundRejectionKind} {notice : NewOutboxRow}

theorem rejectReceived_settles (h : rejectReceivedInTransaction I now key reason db = .ok (d, db')) :
    NotReceived db' key.key := by
  obtain ⟨r, hr, hk, ⟨hs, rfl⟩ | ⟨-, inbound, rfl, hm⟩⟩ := rejectReceived_cases h
  · exact notReceived_of_row hr hk hs
  · exact notReceived_of_rewrite hk hm fun r => by simp [InboundRow.finish]

theorem rejectReceivedAndEnqueueNotice_settles
    (h : rejectReceivedAndEnqueueNotice C I now key reason notice db = .ok (d, db')) : NotReceived db' key.key := by
  have hc : Changes I ⟨fun _ => False, False, fun _ => True, True⟩ db db' := rejectReceivedAndEnqueueNotice_changes trivial h
  obtain ⟨r, hr, hk, -, ⟨hs, -⟩ | ⟨hs, -⟩ | ⟨-, -, outbox, inbound, -, hm, hrecord⟩⟩ := rejectWithNotice_cases h
  · exact notReceived_after hc hr hk hs
  · exact notReceived_after hc hr hk (by simp [hs])
  · have hsettled : NotReceived { db with inbound := inbound } key.key :=
      notReceived_of_rewrite hk hm fun r => by simp [InboundRow.finish]
    -- the marker changes no state
    unfold recordInboundReplyEffect at hrecord
    split at hrecord
    · cases hrecord
    · obtain ⟨-, inbound, rfl, hm⟩ := updateOne_ok hrecord
      intro r' hr' hk
      obtain ⟨r, hr, rfl⟩ := hm.mem.1 hr'
      dsimp only at hk ⊢
      split at hk
      · next hp => rw [if_pos hp]; exact hsettled r hr hk
      · next hp => rw [if_neg hp]; exact hsettled r hr hk

theorem readClaims_keys {scopeKey : String} : ∀ {events : List (InboundKey × Option InboundEvent)}
    {claimed : List ClaimedInbound} {skipped : List SkippedInbound},
    readClaims I db scopeKey events = .ok (claimed, skipped) → ∀ key ∈ events.map (·.1),
      ∃ stored, readInboundRow db key.key = some stored ∧
        (stored.state = .received → stored.turnRowId = none ∧ key.key ∈ claimed.map (·.key.key))
  | [], _, _, _ => by simp
  | (key, live) :: events, claimed, skipped, h => by
    obtain ⟨first, hf, h⟩ := bind_eq_ok.1 h
    obtain ⟨⟨claimed', skipped'⟩, hrest, h⟩ := bind_eq_ok.1 h
    have ih := readClaims_keys hrest
    unfold readClaim at hf
    split at hf
    · cases hf
    · next stored hs =>
      split at hf
      · cases hf
      · obtain ⟨-, hf⟩ := seq_eq_ok.1 hf
        split at hf
        · split at hf
          · cases hf
          · next hturn =>
            obtain ⟨_, -, hf⟩ := bind_eq_ok.1 hf
            obtain ⟨_, -, hf⟩ := bind_eq_ok.1 hf
            cases hf
            cases h
            refine List.forall_mem_cons.2 ⟨⟨stored, hs, fun _ => ⟨by simpa using hturn, by simp⟩⟩, fun k hk => ?_⟩
            obtain ⟨stored', hs', himp⟩ := ih k hk
            exact ⟨stored', hs', fun hr => (himp hr).imp_right (List.mem_cons_of_mem _)⟩
        · next hne =>
          cases hf
          cases h
          exact List.forall_mem_cons.2 ⟨⟨stored, hs, fun hr => absurd hr hne⟩, ih⟩

theorem beginTurn_settles {turn : NewTurnRow} {events : List (InboundKey × Option InboundEvent)} {o : BeginTurnOutcome}
    (h : beginTurnAndClaimInboundInner I now turn events db = .ok (o, db')) :
    ∀ k ∈ events.map (·.1.key), NotReceived db' k := by
  intro k hk
  obtain ⟨event, hevent, rfl⟩ := List.mem_map.1 hk
  obtain ⟨claimed, skipped, hread, h⟩ := beginTurn_cases h
  obtain ⟨stored, hs, hclaims⟩ := readClaims_keys hread event.1 (List.mem_map.2 ⟨event, hevent, rfl⟩)
  obtain ⟨q, hq, rfl, hqk⟩ := readInboundRow_eq_some hs
  rcases h with ⟨hnone, -, rfl⟩ | ⟨-, -, _, hk, inbound, -, -, hm, rfl⟩
  · refine notReceived_of_row hq hqk fun hr => ?_
    have := (hclaims hr).2
    simp [hnone] at this
  · refine notReceived_of_maps hm (fun r => by simp [InboundRow.claim]) fun r hr hrk hnot hreceived => hnot ?_
    obtain rfl := Table.eq_of_key (t := db.inbound) hr hq (hrk.trans hqk.symm)
    obtain ⟨hturn, hmem⟩ := hclaims hreceived
    exact ⟨hreceived, hturn, by rw [hrk]; exact hmem⟩

/-- A job that succeeds leaves none of the rows that it settles received. -/
theorem run_settles (h : op.run C I now db = .ok (reply, db')) :
    ∀ k ∈ op.settles, NotReceived db' k := by
  unfold InboundOp.run at h
  cases op with
  | rejectReceived key reason =>
    obtain ⟨_, h, -⟩ := answer_ok h
    simpa [InboundOp.settles] using rejectReceived_settles h
  | completeReceivedWithoutTurn key =>
    obtain ⟨_, h, -⟩ := answer_ok h
    simpa [InboundOp.settles] using completeReceivedWithoutTurn_settles h
  | completeReceivedAndEnqueueControlReply key reply =>
    obtain ⟨_, h, -⟩ := answer_ok h
    simpa [InboundOp.settles] using completeReceivedAndEnqueueControlReply_settles h
  | rejectReceivedAndEnqueueNotice key reason notice =>
    obtain ⟨_, h, -⟩ := answer_ok h
    simpa [InboundOp.settles] using rejectReceivedAndEnqueueNotice_settles h
  | beginTurnAndClaimInbound turn events =>
    obtain ⟨_, h, -⟩ := answer_ok h
    exact beginTurn_settles h
  | _ => simp [InboundOp.settles]

/-- **A request that was answered `Ok` leaves none of its rows received.** -/
theorem callOp_settles (h : (w.callOp C I fate now op).1 = .ok reply) :
    ∀ k ∈ op.settles, NotReceived (w.callOp C I fate now op).2.db k :=
  run_settles (callOp_ok h).1

/-! ## Copies -/

theorem validateLiveClaim_ids {live persisted : InboundEvent} (h : (validateLiveClaim live persisted).isOk = true) :
    live.eventId = persisted.eventId ∧ live.messageId = persisted.messageId := by
  unfold validateLiveClaim at h
  dsimp only at h
  split at h
  · cases h
  · next hident =>
    simp only [sameIdentity, Bool.not_eq_true', decide_eq_false_iff_not, not_not] at hident
    exact ⟨hident.1, hident.2.1⟩

theorem replayCopy_ids (exact : Bool) (live : Option InboundEvent) (persisted : RetainedInbound) :
    (replayCopy exact live persisted).event.eventId = persisted.event.eventId ∧
      (replayCopy exact live persisted).event.messageId = persisted.event.messageId := by
  unfold replayCopy
  split
  · split
    · next hbound =>
      simp only [Bool.and_eq_true] at hbound
      exact validateLiveClaim_ids hbound.2
    · exact ⟨rfl, rfl⟩
  · exact ⟨rfl, rfl⟩

variable {tenant : TenantNamespace} {event : InboundEvent} {retained : RetainedInbound} {rows : List RetainedInbound}

/-- The copy of a new row is the event itself. -/
theorem registered_new
    (h : (w.callOp C I fate now (.registerInbound tenant event)).1 = .ok (.registered (.new retained))) :
    retained.event = event ∧ (∀ r ∈ w.db.inbound.rows, r.val.key ≠ (tenant.asHex, event.eventId)) ∧
      (∀ r ∈ w.db.inbound.rows, r.val.tenant = tenant.asHex → r.val.messageId = event.messageId →
        r.val.state = .rejected) ∧
      ∃ r' ∈ (w.callOp C I fate now (.registerInbound tenant event)).2.db.inbound.rows,
        r'.val.key = (tenant.asHex, event.eventId) ∧ r'.val.messageId = event.messageId ∧ r'.val.state = .received := by
  obtain ⟨o, hrun, ho⟩ := answer_ok (callOp_ok h).1
  cases ho
  rcases registerInbound_cases hrun with ⟨-, r, -, exact, live, hreg, -⟩ | ⟨hnone, hnew⟩
  · unfold registrationFromStored at hreg
    split at hreg
    · obtain ⟨_, -, hreg⟩ := bind_eq_ok.1 hreg
      cases hreg
    · split at hreg <;> cases hreg
  · obtain ⟨payload, -, ho, ⟨hk, hdb⟩, -⟩ := registerNew_ok hnew
    cases ho
    refine ⟨rfl, hk, hnone, ⟨w.db.inbound.nextId, w.db.inbound.nextSerial, receivedRow now tenant event payload⟩, ?_, rfl,
      rfl, rfl⟩
    rw [hdb]
    exact (Table.mem_insert (h := hk)).2 (.inr rfl)

/-- A copy that is handed out again is one of a received row. -/
theorem registered_replay
    (h : (w.callOp C I fate now (.registerInbound tenant event)).1 = .ok (.registered (.replayReceived retained))) :
    (w.callOp C I fate now (.registerInbound tenant event)).2.db = w.db ∧
      ∃ r ∈ w.db.inbound.rows, r.val.key = (tenant.asHex, retained.event.eventId) ∧
        r.val.messageId = retained.event.messageId ∧ r.val.state = .received ∧
        (r.val.eventId = event.eventId ∨ r.val.messageId = event.messageId) := by
  obtain ⟨o, hrun, ho⟩ := answer_ok (callOp_ok h).1
  cases ho
  rcases registerInbound_cases hrun with ⟨hdb, r, hr, exact, live, hreg, htenant, hid⟩ | ⟨-, hnew⟩
  · unfold registrationFromStored at hreg
    split at hreg
    · next hs =>
      obtain ⟨persisted, hp, hreg⟩ := bind_eq_ok.1 hreg
      cases hreg
      obtain ⟨-, -, _, _, -, -, -, -, -, he, hm, -⟩ := retainedFromStored_eq_ok.1 hp
      obtain ⟨he', hm'⟩ := replayCopy_ids exact live persisted
      refine ⟨hdb, r, hr, ?_, by rw [hm', hm], hs, hid.imp_right And.left⟩
      rw [InboundRow.key, htenant, he', he]
    · split at hreg <;> cases hreg
  · obtain ⟨_, -, ho, -⟩ := registerNew_ok hnew
    cases ho

/-- The copies that a start reads back, in the order of its received rows. -/
theorem recovered_rows (h : (w.callOp C I fate now (.recoverReceived tenant)).1 = .ok (.recovered rows)) :
    (w.callOp C I fate now (.recoverReceived tenant)).2.db = w.db ∧
      ∃ rs : List (Row InboundRow), rs.Perm (w.db.receivedRows.filter fun r => r.val.tenant == tenant.asHex) ∧
        List.Forall₂ (fun r retained => retainedFromStored I r.val = .ok retained) rs rows := by
  obtain ⟨o, hrun, ho⟩ := answer_ok (callOp_ok h).1
  cases ho
  obtain ⟨-, hrun⟩ := seq_eq_ok.1 hrun
  obtain ⟨retained, hmap, hrun⟩ := bind_eq_ok.1 hrun
  obtain ⟨rfl, hdb⟩ := Prod.mk.inj (Except.ok.inj hrun)
  exact ⟨hdb.symm, _, List.perm_insertionSort recoveryOrder _, mapM_eq_ok hmap⟩

/-! ## Redeliveries -/

/-- A row of the event: one with its event id, or one of its message. -/
def HasRowOf (tenant : TenantNamespace) (event : InboundEvent) (db : Db) : Prop :=
  ∃ r ∈ db.inbound.rows, r.val.tenant = tenant.asHex ∧ (r.val.eventId = event.eventId ∨ r.val.messageId = event.messageId)

/-- An event whose registration was answered `Ok` has a row. -/
theorem hasRowOf_registered (h : (w.callOp C I fate now (.registerInbound tenant event)).1 = .ok reply) :
    HasRowOf tenant event (w.callOp C I fate now (.registerInbound tenant event)).2.db := by
  obtain ⟨o, hrun, -⟩ := answer_ok (callOp_ok h).1
  rcases registerInbound_cases hrun with ⟨hdb, r, hr, -, -, -, htenant, hid⟩ | ⟨-, hnew⟩
  · exact ⟨r, by rw [hdb]; exact hr, htenant, hid.imp_right And.left⟩
  · obtain ⟨payload, -, -, ⟨hk, hdb⟩, -⟩ := registerNew_ok hnew
    refine ⟨⟨w.db.inbound.nextId, w.db.inbound.nextSerial, receivedRow now tenant event payload⟩, ?_, rfl, .inl rfl⟩
    rw [hdb]
    exact (Table.mem_insert (h := hk)).2 (.inr rfl)

theorem HasRowOf.callOp (hsweep : (StoreEvent.call .execute 0 op).isSweep = false) (h : HasRowOf tenant event w.db) :
    HasRowOf tenant event (w.callOp C I fate now op).2.db := by
  obtain ⟨r, hr, htenant, hid⟩ := h
  obtain ⟨r', hr', hev⟩ : ∃ r' ∈ (w.callOp C I fate now op).2.db.inbound.rows, RowEvolves op.allowed r.val r'.val :=
    callOp_kept hsweep hr
  exact ⟨r', hr', hev.tenant.trans htenant, hid.imp hev.eventId.trans hev.messageId.trans⟩

/-- The row that a registration of the event finds: the one with its event id, or else the one of its message. -/
def Finds (tenant : TenantNamespace) (event : InboundEvent) (db : Db) (r : Row InboundRow) : Prop :=
  r ∈ db.inbound.rows ∧ r.val.tenant = tenant.asHex ∧ (r.val.eventId = event.eventId ∨ r.val.messageId = event.messageId ∧
    ∀ s ∈ db.inbound.rows, s.val.key ≠ (tenant.asHex, event.eventId))

theorem readMessageCandidates_eq {messageId : String} (h : Canonical db) (hr : r ∈ db.inbound.rows)
    (htenant : r.val.tenant = tenant.asHex) (hmessage : r.val.messageId = messageId) (hs : r.val.state ≠ .rejected) :
    readMessageCandidates db tenant.asHex messageId = [r.val] := by
  unfold readMessageCandidates
  generalize hl : (db.inbound.rows.filter fun r =>
    r.val.tenant == tenant.asHex && r.val.messageId == messageId && decide (r.val.state ≠ .rejected)) = l
  have hmem : ∀ s, s ∈ l ↔ s ∈ db.inbound.rows ∧ (s.val.tenant = tenant.asHex ∧ s.val.messageId = messageId) ∧
      s.val.state ≠ .rejected := by
    intro s
    rw [← hl]
    simp
  have hall : ∀ s ∈ l, s = r := by
    intro s hsl
    obtain ⟨hsm, ⟨ht, hm⟩, hne⟩ := (hmem s).1 hsl
    exact h s hsm r hr (ht.trans htenant.symm) (hm.trans hmessage.symm) hne hs
  have hsub : l.Sublist db.inbound.rows := hl ▸ List.filter_sublist
  match l, (hmem r).2 ⟨hr, ⟨htenant, hmessage⟩, hs⟩, hall, hsub with
  | [s], _, hall, _ => rw [hall s List.mem_cons_self]; rfl
  | s :: t :: _, _, hall, hsub =>
    have hlt := (List.pairwise_cons.1 (db.inbound.id_lt.sublist hsub)).1 t List.mem_cons_self
    rw [hall s List.mem_cons_self, hall t (List.mem_cons_of_mem _ List.mem_cons_self)] at hlt
    exact absurd hlt (Nat.lt_irrefl _)

/-- **An event whose row is received is handed out again** by every registration that the store runs. -/
theorem registerInbound_replays (h : Sound I db) (hr : Finds tenant event db r) (hs : r.val.state = .received) :
    ∃ retained, registerInbound I now tenant event db = .ok (.replayReceived retained, db) ∧
      retained.event.eventId = r.val.eventId ∧ retained.event.messageId = r.val.messageId := by
  obtain ⟨hmem, htenant, hid⟩ := hr
  obtain ⟨persisted, hp⟩ := h.decodes hmem (.inl hs)
  obtain ⟨-, -, _, _, -, -, -, -, -, he, hm, -⟩ := retainedFromStored_eq_ok.1 hp
  have replay : ∀ exact live, ∃ retained, registrationFromStored I r.val tenant exact live = .ok (.replayReceived retained) ∧
      retained.event.eventId = r.val.eventId ∧ retained.event.messageId = r.val.messageId := by
    intro exact live
    obtain ⟨he', hm'⟩ := replayCopy_ids exact live persisted
    refine ⟨replayCopy exact live persisted, ?_, he'.trans he, hm'.trans hm⟩
    rw [registrationFromStored, if_pos hs, hp]
    rfl
  unfold registerInbound
  rcases hid with hid | ⟨hmessage, hnone⟩
  · have hread : readInboundRow db (tenant.asHex, event.eventId) = some r.val := by
      have hlookup : db.inbound.lookup (tenant.asHex, event.eventId) = some r :=
        Table.lookup_eq_some.2 ⟨hmem, by rw [InboundRow.key, htenant, hid]⟩
      rw [readInboundRow, hlookup]
      rfl
    obtain ⟨retained, hreg, hids⟩ := replay true (some event)
    refine ⟨retained, ?_, hids⟩
    rw [hread]
    dsimp only
    rw [hreg]
    rfl
  · have hread : readInboundRow db (tenant.asHex, event.eventId) = none := by
      rw [readInboundRow, Table.lookup_eq_none.2 hnone]
      rfl
    obtain ⟨retained, hreg, hids⟩ := replay false none
    refine ⟨retained, ?_, hids⟩
    rw [hread, readMessageCandidates_eq h.canonical hmem htenant hmessage (by simp [hs])]
    dsimp only
    rw [hreg]
    rfl

/-- The same for a call: the copy is handed out, or the call fails. A request that the store runs does not. -/
theorem register_replays (h : Sound I w.db) (hr : Finds tenant event w.db r) (hs : r.val.state = .received) :
    ((∃ retained, (w.callOp C I fate now (.registerInbound tenant event)).1 = .ok (.registered (.replayReceived retained)) ∧
        retained.event.eventId = r.val.eventId ∧ retained.event.messageId = r.val.messageId) ∨
      ∃ e, (w.callOp C I fate now (.registerInbound tenant event)).1 = .error e) ∧
    (w.alive = true → fate = .execute → validateIncomingKey event = .ok () →
      ∃ retained, (w.callOp C I fate now (.registerInbound tenant event)).1 = .ok (.registered (.replayReceived retained)) ∧
        retained.event.eventId = r.val.eventId ∧ retained.event.messageId = r.val.messageId) := by
  obtain ⟨retained, hjob, hids⟩ : ∃ retained, registerInbound I now tenant event w.db = .ok (.replayReceived retained, w.db) ∧
      retained.event.eventId = r.val.eventId ∧ retained.event.messageId = r.val.messageId := registerInbound_replays h hr hs
  have hrun : (InboundOp.registerInbound tenant event).run C I now w.db = .ok (.registered (.replayReceived retained), w.db) := by
    show ((registerInbound I now tenant event w.db).map _) = _
    rw [hjob]
    rfl
  refine ⟨?_, fun halive hfate hcheck => ⟨retained, ?_, hids⟩⟩
  · rcases callOp_cases C I w fate now (.registerInbound tenant event) with ⟨e, he, -⟩ | ⟨reply, db, hrun', -, hr | ⟨e, hr⟩⟩
    · exact .inr ⟨e, he⟩
    · rw [hrun] at hrun'
      cases hrun'
      exact .inl ⟨retained, by rw [hr], hids⟩
    · exact .inr ⟨e, by rw [hr]⟩
  · subst hfate
    have hcheck' : (InboundOp.registerInbound tenant event).check = .ok () := hcheck
    rw [Writer.callOp, hcheck']
    simp only [Writer.call, Writer.runSized, halive, if_true, hrun]

/-- A start that reads the rows back has a copy of every received row of its tenant. -/
theorem recovered_copy (h : (w.callOp C I fate now (.recoverReceived tenant)).1 = .ok (.recovered rows))
    (hr : r ∈ w.db.inbound.rows) (htenant : r.val.tenant = tenant.asHex) (hs : r.val.state = .received) :
    ∃ retained ∈ rows, retained.event.eventId = r.val.eventId ∧ retained.event.messageId = r.val.messageId := by
  obtain ⟨-, rs, hrs, hall⟩ := recovered_rows h
  have hmem : r ∈ rs := hrs.mem_iff.2 (by simp [Db.receivedRows, hr, htenant, hs])
  obtain ⟨n, hn, rfl⟩ := List.mem_iff_getElem.1 hmem
  have hn' : n < rows.length := hall.length_eq ▸ hn
  obtain ⟨-, -, _, _, -, -, -, -, -, he, hm, -⟩ := retainedFromStored_eq_ok.1 ((List.forall₂_iff_get.1 hall).2 n hn hn')
  exact ⟨rows[n], List.getElem_mem hn', he, hm⟩

/-- A start that the store runs reads the rows back, if the inbox passes its check. -/
theorem recover_answers (h : Sound I w.db) (halive : w.alive = true) (hv : validateInboundCollection I w.db = .ok ()) :
    ∃ rows, (w.callOp C I .execute now (.recoverReceived tenant)).1 = .ok (.recovered rows) := by
  obtain ⟨rows, hrows⟩ : ∃ rows, ((w.db.receivedRows.filter fun r => r.val.tenant == tenant.asHex).insertionSort
      recoveryOrder).mapM (fun r => retainedFromStored I r.val) = .ok rows := by
    refine mapM_ok fun r hr => ?_
    have hr := (List.perm_insertionSort recoveryOrder _).mem_iff.1 hr
    simp only [Db.receivedRows, List.mem_filter, decide_eq_true_eq] at hr
    exact h.decodes hr.1.1 (.inl hr.1.2)
  have hjob : recoverReceived I tenant w.db = .ok (rows, w.db) := by
    rw [recoverReceived, hv, hrows]
    rfl
  have hrun : (InboundOp.recoverReceived tenant).run C I now w.db = .ok (.recovered rows, w.db) := by
    show (recoverReceived I tenant w.db).map _ = _
    rw [hjob]
    rfl
  refine ⟨rows, ?_⟩
  rw [Writer.callOp]
  simp only [InboundOp.check, Writer.call, Writer.runSized, halive, if_true, hrun]

end LarkCodexBridge.Store

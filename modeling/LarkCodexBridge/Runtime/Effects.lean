import LarkCodexBridge.Runtime.Received

/-!
# Effects of redelivered messages

A command runs and media are staged beside or before the change of their row, so every copy that the store hands out for a
received row takes effect on its own. A message takes effect once in the runs in which no delivery of it is registered while
its row is received and another copy waits or has run (`Bridge.calm`).

* `Once`: at most one copy or effect of the message, and its row is received or completed while there is one;
* `step_once`, `command_takes_effect_once`: a calm step and a calm run keep it.
-/

namespace LarkCodexBridge.Runtime

open Limits Lark Store Outbox SqlTable StepSystem

def ofMessage (m : String) (event : InboundEvent) : Bool := event.messageId = m

/-- A list with no more events of any kind has only events of the other one. -/
theorem mem_of_countP_le {l l' : List InboundEvent} (h : ∀ p, l'.countP p ≤ l.countP p) {x : InboundEvent} (hx : x ∈ l') :
    x ∈ l := by
  have hpos : 0 < l'.countP (· = x) := List.countP_pos_iff.2 ⟨x, hx, by simp⟩
  obtain ⟨y, hy, hyx⟩ := List.countP_pos_iff.1 (Nat.lt_of_lt_of_le hpos (h _))
  rw [← of_decide_eq_true hyx]
  exact hy

namespace Bridge

variable {C : Codec} {I : InboundCodec} {tenant : TenantNamespace} {fromStr : String → Option String} {st st' : Bridge}
  {fate : Fate} {now : ℤ} {m : String}

/-! ## Copies and effects -/

/-- The copies that are held, but for commands that have run. -/
def copiesOf (st : Bridge) : List InboundEvent := (st.holds.filter fun h => copies h.2).map (·.1)

/-- The copies and the effects of a process. -/
def traces (st : Bridge) : List InboundEvent := st.copiesOf ++ effects st.log

theorem countP_copiesOf (p : InboundEvent → Bool) : st.copiesOf.countP p = weigh copies p st.holds := by
  rw [copiesOf, List.countP_map, List.countP_filter, weigh]
  refine List.countP_congr fun h _ => ?_
  simp [and_comm]

variable {x : InboundEvent}

theorem mem_copiesOf : x ∈ st.copiesOf ↔ ∃ h ∈ st.holds, copies h.2 = true ∧ h.1 = x := by
  simp [copiesOf, and_assoc]

/-- `st'` has no copy that `st` has not, and no other copy or effect. -/
structure Fewer (st st' : Bridge) : Prop where
  held : ∀ p, st'.copiesOf.countP p ≤ st.copiesOf.countP p
  total : ∀ p, st'.traces.countP p ≤ st.traces.countP p

theorem Moves.fewer (h : st.Moves tenant st') : st.Fewer st' := by
  obtain ⟨dropped, log, -, hlog, hacc⟩ := h.accounts
  have hcount := fun p => hacc.counted copies counting_copies p
  refine ⟨fun p => ?_, fun p => ?_⟩
  · rw [countP_copiesOf, countP_copiesOf]
    have := hcount p
    omega
  · rw [traces, traces, List.countP_append, List.countP_append, hlog, effects_append, List.countP_append, countP_copiesOf,
      countP_copiesOf]
    have := hcount p
    omega

/-- Only the copies changed. -/
theorem Fewer.of_log (hlog : st'.log = st.log) (h : ∀ p, weigh copies p st'.holds ≤ weigh copies p st.holds) :
    st.Fewer st' := by
  refine ⟨fun p => ?_, fun p => ?_⟩
  · rw [countP_copiesOf, countP_copiesOf]
    exact h p
  · rw [traces, traces, List.countP_append, List.countP_append, hlog, countP_copiesOf, countP_copiesOf]
    exact Nat.add_le_add_right (h p) _

variable {op : InboundOp} {w : Writer Db} {event : InboundEvent} {i : ℕ} {abandoned : Bool} {rs : List (Row InboundRow)}
  {rows : List RetainedInbound}

theorem Asks.fewer (h : st.Asks C I tenant fate now op st') : st.Fewer st' := by
  refine .of_log h.log fun p => ?_
  cases hans : (st.store.callOp C I fate now op).1 with
  | ok reply => exact (h.settled (by rw [hans]; rfl)).counted copies counting_copies p
  | error e => exact (weigh_perm (h.unsettled (by rw [hans]; rfl))).le

/-! ## The invariant -/

/-- The row of an event, received or completed. -/
def HasRow (tenant : TenantNamespace) (m : String) (db : Db) (x : InboundEvent) : Prop :=
  ∃ r ∈ db.inbound.rows, r.val.key = (tenant.asHex, x.eventId) ∧ r.val.messageId = m ∧
    (r.val.state = .received ∨ r.val.state = .completed)

/-- A copy with the key of a row of the message is one of the message. -/
def Belongs (tenant : TenantNamespace) (m : String) (db : Db) (x : InboundEvent) : Prop :=
  ∀ r ∈ db.inbound.rows, r.val.key = (tenant.asHex, x.eventId) → r.val.messageId = m → x.messageId = m

structure Once (tenant : TenantNamespace) (m : String) (st : Bridge) : Prop where
  wf : st.WF
  count : st.traces.countP (ofMessage m) ≤ 1
  rows : st.store.alive = true → ∀ x ∈ st.traces, x.messageId = m → HasRow tenant m st.store.db x
  ids : ∀ x ∈ st.copiesOf, Belongs tenant m st.store.db x
  canonical : Canonical st.store.db

/-- A step that hands out no copy. -/
theorem Once.advance (h : st.Once tenant m) (hwf : st'.WF) (hf : st.Fewer st') (hcanonical : Canonical st'.store.db)
    (halive : st'.store.alive = true → st.store.alive = true)
    (hids : ∀ x ∈ st.copiesOf, Belongs tenant m st'.store.db x)
    (hrows : st'.store.alive = true → ∀ x ∈ st'.traces, x.messageId = m → HasRow tenant m st.store.db x →
      HasRow tenant m st'.store.db x) : st'.Once tenant m where
  wf := hwf
  count := (hf.total _).trans h.count
  rows := by
    intro ha x hx hm
    exact hrows ha x hx hm (h.rows (halive ha) x (mem_of_countP_le hf.total hx) hm)
  ids := fun x hx => hids x (mem_of_countP_le hf.held hx)
  canonical := hcanonical

theorem Moves.once (h : st.Once tenant m) (hm : st.Moves tenant st') : st'.Once tenant m := by
  have hstore := hm.store
  refine h.advance hm.wf hm.fewer (by rw [hstore]; exact h.canonical) (fun ha => by rw [← hstore]; exact ha) ?_ ?_
  · rw [hstore]
    exact h.ids
  · intro _ x _ _ hrow
    rw [hstore]
    exact hrow

/-! ## Requests -/

theorem HasRow.callOp (h : HasRow tenant m w.db x) (hsweep : (StoreEvent.call .execute 0 op).isSweep = false)
    (hends : (tenant.asHex, x.eventId) ∉ op.ends) :
    HasRow tenant m (w.callOp C I fate now op).2.db x := by
  obtain ⟨r, hr, hk, hm, hs⟩ := h
  obtain ⟨r', hr', hev⟩ : ∃ r' ∈ (w.callOp C I fate now op).2.db.inbound.rows, RowEvolves op.allowed r.val r'.val :=
    callOp_kept hsweep hr
  refine ⟨r', hr', hev.key.trans hk, hev.messageId.trans hm, ?_⟩
  have hne : r.val.state ≠ .accepted := by rcases hs with hs | hs <;> simp [hs]
  rcases hev.stays (by rw [hk]; exact hends) hne with hs' | hs'
  · rw [hs']
    exact hs
  · exact .inr hs'

/-- Rows that an operation did not register were there before. -/
theorem Belongs.callOp (h : Belongs tenant m w.db x)
    (hnew : ∀ r', Registered op w.db r' → r'.key = (tenant.asHex, x.eventId) → r'.messageId = m → x.messageId = m) :
    Belongs tenant m (w.callOp C I fate now op).2.db x := by
  intro r' hr' hk hm
  rcases callOp_row hr' with ⟨r, hr, -, hev⟩ | hreg
  · exact h r hr (hev.key.symm.trans hk) (hev.messageId.symm.trans hm)
  · exact hnew r'.val hreg hk hm

theorem Asks.once (h : st.Once tenant m) (ha : st.Asks C I tenant fate now op st') : st'.Once tenant m := by
  have hsweep := InboundOp.isSweep_of_keepsRows ha.keepsRows
  have hreg : ∀ r', ¬Registered op st.store.db r' := fun r' hr' => hr'.not_keepsRows ha.keepsRows
  have hf := ha.fewer
  have hstore := ha.store
  refine h.advance ha.wf hf (by rw [hstore]; exact callOp_canonical h.canonical)
    (fun halive => callOp_alive (by rw [← hstore]; exact halive)) (fun x hx => ?_) fun halive x hx hm hrow => ?_
  · rw [hstore]
    exact (h.ids x hx).callOp fun r' hr' => absurd hr' (hreg r')
  · rw [hstore]
    rw [hstore] at halive
    cases hans : (st.store.callOp C I fate now op).1 with
    | error e => rw [callOp_error hans halive]; exact hrow
    | ok reply =>
      refine hrow.callOp hsweep fun hend => ?_
      -- the row that ends had the only copy, and that is gone
      have hends := (ha.settled (by rw [hans]; rfl)).ends _ hend
      obtain ⟨r, hr, hk, hrm, -⟩ := hrow
      have hkeys : weigh copies (hasKey tenant (tenant.asHex, x.eventId)) st.holds ≤ weigh copies (ofMessage m) st.holds := by
        refine List.countP_mono_left fun y hy hky => ?_
        obtain ⟨hc, hyk⟩ := Bool.and_eq_true_iff.1 hky
        refine Bool.and_eq_true_iff.2 ⟨hc, decide_eq_true (h.ids y.1 (mem_copiesOf.2 ⟨y, hy, hc, rfl⟩) r hr ?_ hrm)⟩
        exact hk.trans (of_decide_eq_true hyk).symm
      have hcount := h.count
      rw [traces, List.countP_append, countP_copiesOf] at hcount
      rcases List.mem_append.1 hx with hx | hx
      · obtain ⟨y, hy, hc, rfl⟩ := mem_copiesOf.1 hx
        have hpos : 0 < weigh copies (hasKey tenant (tenant.asHex, y.1.eventId)) st'.holds :=
          List.countP_pos_iff.2 ⟨y, hy, Bool.and_eq_true_iff.2 ⟨hc, decide_eq_true rfl⟩⟩
        omega
      · rw [ha.log] at hx
        have hpos : 0 < (effects st.log).countP (ofMessage m) := List.countP_pos_iff.2 ⟨x, hx, decide_eq_true hm⟩
        omega

/-! ## Registrations -/

/-- No copy and no effect of the message. -/
def Untouched (m : String) (st : Bridge) : Prop := ∀ x ∈ st.traces, x.messageId ≠ m

/-- A received row of the message that a registration of the event hands out again. -/
def Replays (tenant : TenantNamespace) (m : String) (st : Bridge) (event : InboundEvent) : Prop :=
  ∃ r ∈ st.store.db.inbound.rows, r.val.tenant = tenant.asHex ∧ r.val.messageId = m ∧ r.val.state = .received ∧
    (r.val.eventId = event.eventId ∨ event.messageId = m)

instance (event : InboundEvent) : Decidable (st.Replays tenant m event) :=
  inferInstanceAs (Decidable (∃ r ∈ st.store.db.inbound.rows, r.val.tenant = tenant.asHex ∧ r.val.messageId = m ∧
    r.val.state = .received ∧ (r.val.eventId = event.eventId ∨ event.messageId = m)))

instance : Decidable (st.Untouched m) := inferInstanceAs (Decidable (∀ x ∈ st.traces, x.messageId ≠ m))

/-- A delivery of the message is registered while its row is received only if no other copy of it waits and none has taken
effect; and no task holds a copy of another message with its event id. -/
def calm (tenant : TenantNamespace) (m : String) (st : Bridge) : Event → Bool
  | .register i _ _ =>
    match st.handlers[i]? with
    | some ⟨event, none, _⟩ =>
      (st.Replays tenant m event → st.Untouched m) ∧
        (event.messageId = m → ∀ x ∈ st.copiesOf, x.eventId = event.eventId → x.messageId = m)
    | _ => true
  | _ => true

/-- The rows of the message that were not rejected stay. -/
def RowStays (m : String) (st st' : Bridge) : Prop :=
  ∀ r ∈ st.store.db.inbound.rows, r.val.messageId = m → r.val.state ≠ .rejected →
    ∃ r' ∈ st'.store.db.inbound.rows, r'.val.key = r.val.key

instance : Decidable (st.RowStays m st') :=
  inferInstanceAs (Decidable (∀ r ∈ st.store.db.inbound.rows, r.val.messageId = m → r.val.state ≠ .rejected →
    ∃ r' ∈ st'.store.db.inbound.rows, r'.val.key = r.val.key))

theorem Once.hand (h : st.Once tenant m) (hwf : st'.WF) (hstore : st'.store = st.store)
    (hcopies : st'.copiesOf.Perm (x :: st.copiesOf)) (hlog : st'.log = st.log)
    (hnone : x.messageId = m → st.Untouched m)
    (hrow : ∃ r ∈ st.store.db.inbound.rows, r.val.key = (tenant.asHex, x.eventId) ∧ r.val.messageId = x.messageId ∧
      r.val.state = .received) : st'.Once tenant m := by
  have htraces : st'.traces.Perm (x :: st.traces) := by
    rw [traces, traces, hlog]
    exact hcopies.append_right _
  obtain ⟨r, hr, hk, hm, hs⟩ := hrow
  refine ⟨hwf, ?_, fun ha y hy hym => ?_, fun y hy => ?_, hstore ▸ h.canonical⟩
  · rw [htraces.countP_eq, List.countP_cons]
    by_cases hx : x.messageId = m
    · have hzero : st.traces.countP (ofMessage m) = 0 :=
        List.countP_eq_zero.2 fun y hy hym => hnone hx y hy (of_decide_eq_true hym)
      rw [hzero]
      split <;> omega
    · rw [if_neg (by simpa [ofMessage] using hx)]
      exact h.count
  · rw [hstore] at ha ⊢
    rcases List.mem_cons.1 (htraces.mem_iff.1 hy) with rfl | hy
    · exact ⟨r, hr, hk, hm.trans hym, .inl hs⟩
    · exact h.rows ha y hy hym
  · rw [hstore]
    rcases List.mem_cons.1 (hcopies.mem_iff.1 hy) with rfl | hy
    · intro r' hr' hk' hm'
      obtain rfl := Table.eq_of_key hr' hr (hk'.trans hk.symm)
      exact hm.symm.trans hm'
    · exact h.ids y hy

theorem handedOut_row (h : st.Once tenant m) (hcalm : st.Replays tenant m event → st.Untouched m)
    (hout : handedOut (st.store.callOp C I fate now (.registerInbound tenant event)).1 = some x) :
    (x.messageId = m → st.Untouched m) ∧
      ∃ r ∈ (st.store.callOp C I fate now (.registerInbound tenant event)).2.db.inbound.rows,
        r.val.key = (tenant.asHex, x.eventId) ∧ r.val.messageId = x.messageId ∧ r.val.state = .received := by
  unfold handedOut at hout
  split at hout
  · next retained heq =>
    obtain rfl := Option.some.inj hout
    obtain ⟨hevent, -, hrejected, r', hr', hk, hm, hs⟩ := registered_new heq
    rw [hevent]
    refine ⟨fun hx y hy hym => ?_, r', hr', hk, hm, hs⟩
    have halive : st.store.alive = true := by
      rcases callOp_cases C I st.store fate now (.registerInbound tenant event) with ⟨e, he, -⟩ | ⟨_, _, -, ha, -⟩
      · rw [he] at heq
        cases heq
      · exact ha
    obtain ⟨r, hr, hrk, hrm, hrs⟩ := h.rows halive y hy hym
    have htenant : r.val.tenant = tenant.asHex := congrArg Prod.fst hrk
    rcases hrs with hrs | hrs <;> simp [hrejected r hr htenant (hrm.trans hx.symm)] at hrs
  · next retained heq =>
    obtain rfl := Option.some.inj hout
    obtain ⟨hdb, r, hr, hk, hm, hs, hid⟩ := registered_replay heq
    refine ⟨fun hx => hcalm ⟨r, hr, congrArg Prod.fst hk, hm.trans hx, hs, ?_⟩, r, by rw [hdb]; exact hr, hk, hm, hs⟩
    exact hid.imp_right fun hid => by rw [← hid, hm, hx]
  · cases hout

/-- Copies on their way in front of the others. -/
theorem copiesOf_perm {hs : List Held} (hway : st'.onTheWay.Perm (hs ++ st.onTheWay)) (hactors : st'.actors = st.actors)
    (hrouter : st'.router = st.router) (hanswer : st'.routerAnswer = st.routerAnswer) :
    st'.copiesOf.Perm ((hs.filter fun h => copies h.2).map (·.1) ++ st.copiesOf) := by
  rw [copiesOf, copiesOf, ← List.map_append, ← List.filter_append]
  refine ((List.Perm.filter _ ?_).map _)
  rw [holds, holds, rest, rest, actorsHold, actorsHold, hactors, hrouter, hanswer]
  simp only [← List.append_assoc]
  exact (hway.append_right _).append_right _

/-- The handler call that waits for an answer holds nothing. -/
theorem erase_holds (hi : st.handlers[i]? = some ⟨event, none, abandoned⟩) :
    { st with handlers := st.handlers.eraseIdx i }.holds.Perm st.holds := by
  have hperm : { st with handlers := st.handlers.eraseIdx i }.onTheWay.Perm st.onTheWay := onTheWay_split hi
  exact (hperm.append_right _).append_right _

theorem register_row (h : st.Once tenant m) (hi : st.handlers[i]? = some ⟨event, none, abandoned⟩)
    (hid : event.messageId = m → ∀ x ∈ st.copiesOf, x.eventId = event.eventId → x.messageId = m)
    (hstore : st'.store = (st.store.callOp C I fate now (.registerInbound tenant event)).2)
    (hholds : st'.holds = { st with handlers := st.handlers.eraseIdx i }.holds) (hlog : st'.log = st.log) (hwf : st'.WF) :
    st.Fewer st' ∧ st'.Once tenant m := by
  have hf : st.Fewer st' := .of_log hlog fun p => (weigh_perm (hholds ▸ erase_holds hi)).le
  refine ⟨hf, h.advance hwf hf ?_ ?_ (fun x hx => ?_) fun _ x _ _ hrow => ?_⟩
  · rw [hstore]
    exact callOp_canonical h.canonical
  · rw [hstore]
    exact callOp_alive
  · rw [hstore]
    refine (h.ids x hx).callOp fun r' hr' hk hm => ?_
    obtain ⟨tenant', event', heq, hkey, hmessage⟩ := hr'.event
    cases heq
    refine hid (hmessage.symm.trans hm) x hx ?_
    exact (congrArg Prod.snd (hkey.symm.trans hk)).symm
  · rw [hstore]
    exact hrow.callOp rfl (by simp [InboundOp.ends])

theorem register_once (h : st.Once tenant m) (hcalm : st.calm tenant m (.register i fate now) = true) :
    (st.register C I tenant i fate now).Once tenant m := by
  unfold register
  split
  · next event abandoned hi =>
    simp only [calm, hi, decide_eq_true_eq] at hcalm
    obtain ⟨hreplay, hid⟩ := hcalm
    let st₁ : Bridge :=
      { st with
        store := (st.store.callOp C I fate now (.registerInbound tenant event)).2
        acked := st.ackedBefore (InboundKey.mk tenant event.eventId).key
        handlers := st.handlers.eraseIdx i }
    have hwf : st₁.WF := ⟨h.wf.shape, h.wf.driven, h.wf.evicting⟩
    have hboth : st.Fewer st₁ ∧ st₁.Once tenant m := register_row h hi hid rfl rfl rfl hwf
    obtain ⟨hfewer, honce⟩ := hboth
    dsimp only
    split
    · exact honce
    · let handler : Handler := ⟨event, some (st.store.callOp C I fate now (.registerInbound tenant event)).1, false⟩
      let st₂ : Bridge := { st₁ with handlers := st.handlers.set i handler }
      have hway : st₂.onTheWay.Perm (handler.holds ++ st₁.onTheWay) :=
        (onTheWay_set handler (List.getElem?_eq_some_iff.1 hi).1).symm
      have hcopies := copiesOf_perm hway rfl rfl rfl
      have hwf₂ : st₂.WF := ⟨h.wf.shape, h.wf.driven, h.wf.evicting⟩
      show st₂.Once tenant m
      cases hout : handedOut (st.store.callOp C I fate now (.registerInbound tenant event)).1 with
      | none =>
        have hnothing : handler.holds = [] := by simp [handler, Handler.holds, hout]
        rw [hnothing] at hcopies
        have hcount : ∀ p, weigh copies p st₂.holds ≤ weigh copies p st₁.holds := by
          intro p
          rw [← countP_copiesOf, ← countP_copiesOf]
          exact (hcopies.countP_eq p).le
        exact honce.advance hwf₂ (.of_log rfl hcount) honce.canonical id honce.ids fun _ _ _ _ => id
      | some x =>
        have hone : handler.holds = [(x, .handed)] := by simp [handler, Handler.holds, hout]
        rw [hone] at hcopies
        obtain ⟨hnone, hrow⟩ := handedOut_row h hreplay hout
        refine honce.hand hwf₂ rfl hcopies rfl (fun hx y hy => ?_) hrow
        exact hnone hx y (mem_of_countP_le hfewer.total hy)
  · exact h

/-! ## Sweeps and starts -/

theorem sweep_once {olderThanMs : ℤ} {maxRows : ℕ} (h : st.Once tenant m)
    (hstays : st.RowStays m { st with store := (st.store.callOp C I fate now (.sweepInbound olderThanMs maxRows)).2 }) :
    Once tenant m { st with store := (st.store.callOp C I fate now (.sweepInbound olderThanMs maxRows)).2 } := by
  have hreg : ∀ r', ¬Registered (.sweepInbound olderThanMs maxRows) st.store.db r' := by
    intro r' hr'
    obtain ⟨_, _, heq, -⟩ := hr'.event
    cases heq
  refine h.advance ⟨h.wf.shape, h.wf.driven, h.wf.evicting⟩ (.of_log rfl fun p => le_rfl) (callOp_canonical h.canonical)
    callOp_alive (fun x hx => (h.ids x hx).callOp fun r' hr' => absurd hr' (hreg r')) fun _ x _ _ hrow => ?_
  obtain ⟨r, hr, hk, hm, hs⟩ := hrow
  obtain ⟨r', hr', hk'⟩ := hstays r hr hm (by rcases hs with hs | hs <;> simp [hs])
  rcases callOp_row hr' with ⟨q, hq, -, hev⟩ | hnew
  · obtain rfl := Table.eq_of_key hq hr (hev.key.symm.trans hk')
    refine ⟨r', hr', hk'.trans hk, hev.messageId.trans hm, ?_⟩
    have hne : q.val.state ≠ .accepted := by rcases hs with hs | hs <;> simp [hs]
    rcases hev.stays (by simp [InboundOp.allowed, InboundOp.ends]) hne with hs' | hs'
    · rw [hs']
      exact hs
    · exact .inr hs'
  · exact absurd hnew (hreg _)

/-- At most one of the recovered copies is of the message: the store has one row of it that was not rejected. -/
theorem recovered_count {db : Db} (h : Canonical db)
    (hrs : rs.Perm (db.receivedRows.filter fun r => r.val.tenant == tenant.asHex))
    (hall : List.Forall₂ (fun r retained => retainedFromStored I r.val = .ok retained) rs rows) :
    (rows.map (·.event)).countP (ofMessage m) ≤ 1 := by
  have hsame : (rows.map (·.event)).countP (ofMessage m) = rs.countP fun r => r.val.messageId = m := by
    clear hrs
    induction hall with
    | nil => rfl
    | cons hr _ ih =>
      obtain ⟨-, -, _, _, -, -, -, -, -, -, hm, -⟩ := retainedFromStored_eq_ok.1 hr
      rw [List.map_cons, List.countP_cons, List.countP_cons, ih, ofMessage, hm]
  rw [hsame, hrs.countP_eq, List.countP_eq_length_filter]
  -- two of these rows would be two rows of the message that were not rejected
  generalize hl : ((db.receivedRows.filter fun r => r.val.tenant == tenant.asHex).filter fun r => r.val.messageId = m) = l
  have hmem : ∀ r ∈ l, r ∈ db.inbound.rows ∧ r.val.messageId = m ∧ r.val.tenant = tenant.asHex ∧ r.val.state = .received := by
    intro r hr
    rw [← hl] at hr
    simpa [Db.receivedRows, and_assoc] using hr
  have hsub : l.Sublist db.inbound.rows := by
    rw [← hl]
    exact List.filter_sublist.trans (List.filter_sublist.trans List.filter_sublist)
  rcases l with _ | ⟨r, _ | ⟨s, l⟩⟩
  · exact Nat.zero_le 1
  · exact le_rfl
  · obtain ⟨hr, hrm, hrt, hrs⟩ := hmem r List.mem_cons_self
    obtain ⟨hs, hsm, hst, hss⟩ := hmem s (List.mem_cons_of_mem _ List.mem_cons_self)
    have heq := h r hr s hs (hrt.trans hst.symm) (hrm.trans hsm.symm) (by simp [hrs]) (by simp [hss])
    have hlt := (List.pairwise_cons.1 (db.inbound.id_lt.sublist hsub)).1 s List.mem_cons_self
    rw [heq] at hlt
    exact absurd hlt (Nat.lt_irrefl _)

/-- A process without copies and effects. -/
theorem Once.of_nothing (hwf : st.WF) (htraces : st.traces = []) (hcanonical : Canonical st.store.db) :
    st.Once tenant m := by
  have hcopies : st.copiesOf = [] := (List.append_eq_nil_iff.1 htraces).1
  exact ⟨hwf, by simp [htraces], by simp [htraces], by simp [hcopies], hcanonical⟩

/-- A process that holds one copy of each received row that it read back. -/
theorem recovered_once (hwf : st.WF) (hholds : st.holds = waiting (rows.map (·.event))) (hlog : st.log = [])
    (hcanonical : Canonical st.store.db)
    (hrs : rs.Perm (st.store.db.receivedRows.filter fun r => r.val.tenant == tenant.asHex))
    (hall : List.Forall₂ (fun r retained => retainedFromStored I r.val = .ok retained) rs rows) : st.Once tenant m := by
  have hcopies : st.copiesOf = rows.map (·.event) := by
    rw [copiesOf, hholds, waiting, List.filter_eq_self.2 (by simp [copies]), List.map_map]
    exact List.map_id _
  have htraces : st.traces = rows.map (·.event) := by simp [traces, hlog, hcopies]
  -- every copy has its row
  have hrow : ∀ x ∈ rows.map (·.event), ∃ r ∈ st.store.db.inbound.rows, r.val.key = (tenant.asHex, x.eventId) ∧
      r.val.messageId = x.messageId ∧ r.val.state = .received := by
    intro x hx
    obtain ⟨retained, hmem, rfl⟩ := List.mem_map.1 hx
    obtain ⟨r, hr, hret⟩ : ∃ r ∈ rs, retainedFromStored I r.val = .ok retained := by
      obtain ⟨n, hn, rfl⟩ := List.mem_iff_getElem.1 hmem
      have hn' : n < rs.length := hall.length_eq ▸ hn
      exact ⟨rs[n], List.getElem_mem hn', (List.forall₂_iff_get.1 hall).2 n hn' hn⟩
    obtain ⟨-, -, _, _, -, -, -, -, -, he, hm, -⟩ := retainedFromStored_eq_ok.1 hret
    have hr' := hrs.mem_iff.1 hr
    simp only [Db.receivedRows, List.mem_filter, decide_eq_true_eq, beq_iff_eq] at hr'
    refine ⟨r, hr'.1.1, ?_, hm.symm, hr'.1.2⟩
    rw [InboundRow.key, hr'.2, he]
  refine ⟨hwf, ?_, fun _ x hx hm => ?_, fun x hx => ?_, hcanonical⟩
  · rw [htraces]
    exact recovered_count hcanonical hrs hall
  · rw [htraces] at hx
    obtain ⟨r, hr, hk, hrm, hs⟩ := hrow x hx
    exact ⟨r, hr, hk, hrm.trans hm, .inl hs⟩
  · rw [hcopies] at hx
    obtain ⟨r, hr, hk, hrm, -⟩ := hrow x hx
    intro r' hr' hk' hm'
    obtain rfl := Table.eq_of_key hr' hr (hk'.trans hk.symm)
    exact hrm.symm.trans hm'

theorem restart_once {inner : LiveInner} {accepted : Bool} (h : Canonical st.store.db) :
    (st.restart C I tenant inner fate now accepted).Once tenant m := by
  have hwf := initial_wf inner
  let w : Writer Db := { st.store with alive := true }
  have hcan : Canonical (w.callOp C I fate now (.recoverReceived tenant)).2.db := callOp_canonical h
  unfold restart
  dsimp only
  split
  · next rows store heq =>
    have hans : (w.callOp C I fate now (.recoverReceived tenant)).1 = .ok (.recovered rows) := congrArg Prod.fst heq
    have hstore : (w.callOp C I fate now (.recoverReceived tenant)).2 = store := congrArg Prod.snd heq
    obtain ⟨hdb, rs, hrs, hall⟩ := recovered_rows hans
    rw [hstore] at hcan hdb
    rw [← hdb] at hrs
    split
    · exact recovered_once ⟨hwf.shape, .inl rfl, trivial⟩ (by simp [holds, rest, onTheWay, actorsHold, initial,
        DriverPc.holds, RouterPc.holds]) rfl hcan hrs hall
    · exact .of_nothing ⟨hwf.shape, .inl rfl, trivial⟩ rfl hcan
  · next store _ heq =>
    have hstore : (w.callOp C I fate now (.recoverReceived tenant)).2 = store := congrArg Prod.snd heq
    rw [hstore] at hcan
    exact .of_nothing ⟨hwf.shape, .inl rfl, trivial⟩ rfl hcan

/-! ## Runs -/

theorem step_once (e : Event) (h : st.Once tenant m) (hcalm : st.calm tenant m e = true)
    (hstays : st.RowStays m (st.step C I tenant fromStr e)) : (st.step C I tenant fromStr e).Once tenant m := by
  have hstep : Step C I tenant st e (st.step C I tenant fromStr e) := step_cases h.wf e
  generalize st.step C I tenant fromStr e = st' at hstep hstays
  cases hstep with
  | moves hm => exact hm.once h
  | register i fate now => exact register_once h hcalm
  | asks fate now op ha => exact ha.once h
  | sweep fate now olderThanMs maxRows => exact sweep_once h hstays
  | restart inner fate now accepted => exact restart_once h.canonical

/-- The number of times that a message took effect in the process. -/
def effectsOf (m : String) (st : Bridge) : ℕ := (effects st.log).countP (ofMessage m)

/-- **A message takes effect at most once** in every run in which no delivery of it is registered while its row is received
and another copy waits or has taken effect, as long as its row exists. -/
theorem command_takes_effect_once (inner : LiveInner) (es : List Event)
    (hes : Along (step C I tenant fromStr) (fun st e => st.calm tenant m e = true ∧ st.RowStays m (st.step C I tenant fromStr e))
      (initial inner) es) : (after C I tenant fromStr inner es).effectsOf m ≤ 1 := by
  have hinitial : (initial inner).Once tenant m := .of_nothing (initial_wf inner) rfl (by intro r hr; cases hr)
  have hrun : (after C I tenant fromStr inner es).Once tenant m :=
    exec_invariant (I := Once tenant m) (fun st e h he => step_once e h he.1 he.2) hinitial hes
  have hcount := hrun.count
  rw [traces, List.countP_append] at hcount
  exact (Nat.le_add_left _ _).trans hcount

/-! ### A redelivered command -/

/-- `/new` in a direct chat. -/
def newMessage (eventId : String) : InboundEvent := directMessage eventId "om_1" "oc_1" "ou_1" "/new"

def newCodec : InboundCodec :=
  codecOf
    [(.ofEvent (persistableEvent (newMessage "evt_1")), directPayload "evt_1" "om_1" "oc_1" "ou_1" "/new"),
     (.ofEvent (persistableEvent (newMessage "evt_2")), directPayload "evt_2" "om_1" "oc_1" "ou_1" "/new")]
    (by decide)

/-- The bridge after a run of the sample. -/
def newAfter (es : List Event) : Bridge := after noOutbox newCodec sampleTenant (fun _ => none) sampleInner es

def newReply : NewOutboxRow where
  idempotencyKey := (InboundKey.mk sampleTenant "evt_1").controlOutboxIdempotencyKey
  scopeKey := "im:oc_1"
  kind := "control"
  payloadJson := "\x7b\x7d"
  nextRetryMs := 0

/-- The router takes the message to the mailbox of its actor. -/
def routeNew : List Event := [routerTakes .other, routerTakes .other, routerTakes .message]

/-- The actor takes a command from its mailbox and runs it. -/
def runNew : List Event :=
  [.next, .next, .message, .next, .next].map (actorTakes "im:oc_1" ·)

/-- Its reply is stored, and its row is completed. -/
def replyNew : List Event :=
  [actorTakes "im:oc_1" (.executed false) (some newReply), .actorStore "im:oc_1" .execute 2000, actorTakes "im:oc_1" .next]

/-- The call that registered the message is dropped; a redelivery under another event id is handed out, and a third one comes
after the reply. -/
def calmRun : List Event :=
  startEvent :: [.deliver (newMessage "evt_1"), .register 0 .execute 1001, .abandon 0] ++ intake (newMessage "evt_2") 1002 ++
    routeNew ++ runNew ++ replyNew ++ [.deliver (newMessage "evt_2"), .register 0 .execute 1003, .handled 0 true]

set_option maxRecDepth 20000 in
theorem calmRun_calm :
    Along (step noOutbox newCodec sampleTenant fun _ => none) (fun st e => st.calm sampleTenant "om_1" e = true ∧
      st.RowStays "om_1" (st.step noOutbox newCodec sampleTenant (fun _ => none) e)) (initial sampleInner) calmRun := by
  decide

set_option maxRecDepth 20000 in
theorem calmRun_effect :
    0 < (newAfter calmRun).effectsOf "om_1" ∧
      ((newAfter calmRun).store.db.inbound.rows.map fun r => (r.val.eventId, r.val.state)) = [("evt_1", .completed)] := by
  decide

theorem command_takes_effect_once_calmRun :
    (newAfter calmRun).effectsOf "om_1" = 1 ∧
      ((newAfter calmRun).store.db.inbound.rows.map fun r => (r.val.eventId, r.val.state)) = [("evt_1", .completed)] :=
  ⟨Nat.le_antisymm (command_takes_effect_once sampleInner calmRun calmRun_calm) calmRun_effect.1, calmRun_effect.2⟩

/-- The message is delivered again while it waits in the mailbox. -/
def redeliveredRun : List Event :=
  startEvent :: intake (newMessage "evt_1") 1001 ++ routeNew ++ intake (newMessage "evt_2") 1002 ++ routeNew ++ runNew ++
    replyNew ++ runNew

set_option maxRecDepth 20000 in
/-- **A redelivered command runs twice**: the second `/new` runs after the reply to the first is stored. -/
theorem redelivered_command_runs_twice :
    (newAfter redeliveredRun).effectsOf "om_1" = 2 ∧
      ((newAfter redeliveredRun).store.db.inbound.rows.map fun r => (r.val.eventId, r.val.messageId, r.val.state)) =
        [("evt_1", "om_1", .completed)] ∧
      (newAfter redeliveredRun).log.filterMap (fun e => match e with | .executed _ command => some command | _ => none) =
        [.new, .new] := by
  decide

end Bridge

end LarkCodexBridge.Runtime

import Mathlib
import LarkCodexBridge.Store.InboundIntegrity

/-!
# At most one turn for a message

What a run of store operations can do to one row over time (`Evolves`): its identity and the turn that claimed it stay,
a terminal state stays, and no row comes back once it was deleted. Rows are named by their insertion number, so a row
that is registered again after a sweep is another row.

* `storeAfter_evolves`: from any point of a run to any later one;
* `registered_after_rejection`: a message gets a second row only after its first was rejected or swept;
* `one_turn_per_message`: the two together, and that a claim that claims nothing changes nothing.
-/

namespace LarkCodexBridge.Store

open Limits SqlTable Outbox Lark StepSystem

variable {C : Codec} {I : InboundCodec} {A : Allowed}

/-! ## Rows over time -/

/-- What a row can become. -/
structure RowEvolves (A : Allowed) (r r' : InboundRow) : Prop where
  tenant : r'.tenant = r.tenant
  eventId : r'.eventId = r.eventId
  messageId : r'.messageId = r.messageId
  turn : ∀ t, r.turnRowId = some t → r'.turnRowId = some t
  terminal : r.state.isTerminal = true → r'.state = r.state
  received : r'.state = .received → r.state = .received
  /-- A row that no turn has, and that may not end, is at most completed. -/
  stays : ¬A.ends r.key → r.state ≠ .accepted → r'.state = r.state ∨ r'.state = .completed

variable {r r' : InboundRow}

theorem RowEvolves.key (h : RowEvolves A r r') : r'.key = r.key := by
  rw [InboundRow.key, InboundRow.key, h.tenant, h.eventId]

theorem RowEvolves.of_state (htenant : r'.tenant = r.tenant) (hevent : r'.eventId = r.eventId)
    (hmessage : r'.messageId = r.messageId) (hturn : r'.turnRowId = r.turnRowId) (hs : r'.state = r.state) :
    RowEvolves A r r' :=
  ⟨htenant, hevent, hmessage, fun _ h => hturn.trans h, fun _ => hs, fun h => hs.symm.trans h, fun _ _ => .inl hs⟩

theorem RowEvolves.refl (r : InboundRow) : RowEvolves A r r := .of_state rfl rfl rfl rfl rfl

theorem RowEvolves.trans {r'' : InboundRow} (h : RowEvolves A r r') (h' : RowEvolves A r' r'') :
    RowEvolves A r r'' where
  tenant := h'.tenant.trans h.tenant
  eventId := h'.eventId.trans h.eventId
  messageId := h'.messageId.trans h.messageId
  turn := fun t ht => h'.turn t (h.turn t ht)
  terminal := by
    intro ht
    have hs := h.terminal ht
    rw [h'.terminal (by rw [hs]; exact ht), hs]
  received := fun hr => h.received (h'.received hr)
  stays := by
    intro hends hstate
    have hends' : ¬A.ends r'.key := by
      rw [h.key]
      exact hends
    rcases h.stays hends hstate with hs | hs
    · rw [← hs]
      exact h'.stays hends' (by rw [hs]; exact hstate)
    · rcases h'.stays hends' (by simp [hs]) with hs' | hs'
      · exact .inr (hs'.trans hs)
      · exact .inr hs'

/-- What the inbox can become: its rows evolve, some may go, and the others are new. -/
structure Evolves (A : Allowed) (db db' : Db) : Prop where
  nextSerial_le : db.inbound.nextSerial ≤ db'.inbound.nextSerial
  old : ∀ r' ∈ db'.inbound.rows, r'.serial < db.inbound.nextSerial →
    ∃ r ∈ db.inbound.rows, r.serial = r'.serial ∧ RowEvolves A r.val r'.val
  kept : ¬A.sweeps → ∀ r ∈ db.inbound.rows, ∃ r' ∈ db'.inbound.rows, r'.serial = r.serial

theorem Evolves.refl (db : Db) : Evolves A db db :=
  ⟨Nat.le_refl _, fun r hr _ => ⟨r, hr, rfl, .refl _⟩, fun _ r hr => ⟨r, hr, rfl⟩⟩

variable {db db' : Db} {q : Row InboundRow}

theorem Evolves.trans {db'' : Db} (h : Evolves A db db') (h' : Evolves A db' db'') : Evolves A db db'' where
  nextSerial_le := h.nextSerial_le.trans h'.nextSerial_le
  old := by
    intro r'' hr'' hlt
    obtain ⟨r', hr', hs', he'⟩ := h'.old r'' hr'' (hlt.trans_le h.nextSerial_le)
    obtain ⟨r, hr, hs, he⟩ := h.old r' hr' (by rw [hs']; exact hlt)
    exact ⟨r, hr, hs.trans hs', he.trans he'⟩
  kept := by
    intro hA r hr
    obtain ⟨r', hr', hs'⟩ := h.kept hA r hr
    obtain ⟨r'', hr'', hs''⟩ := h'.kept hA r' hr'
    exact ⟨r'', hr'', hs''.trans hs'⟩

/-- Rewritten rows. -/
theorem Evolves.of_maps {f : Row InboundRow → InboundRow} (hm : Table.Maps f db.inbound db'.inbound)
    (hf : ∀ r ∈ db.inbound.rows, RowEvolves A r.val (f r)) : Evolves A db db' where
  nextSerial_le := Nat.le_of_eq hm.nextSerial_eq.symm
  old := by
    intro r' hr' _
    obtain ⟨r, hr, rfl⟩ := hm.mem.1 hr'
    exact ⟨r, hr, rfl, hf r hr⟩
  kept := fun _ r hr => ⟨_, hm.mem.2 ⟨r, hr, rfl⟩, rfl⟩

/-- Rows chosen by `p`, none of them terminal unless its state stays. -/
theorem Evolves.of_rewrite {p : InboundRow → Prop} [DecidablePred p] {g : InboundRow → InboundRow}
    (hm : Table.Maps (rewrite p g) db.inbound db'.inbound)
    (hg : ∀ r ∈ db.inbound.rows, p r.val → RowEvolves A r.val (g r.val)) : Evolves A db db' := by
  refine .of_maps hm fun r hr => ?_
  unfold rewrite
  split
  · next hp => exact hg r hr hp
  · exact .refl _

theorem RowEvolves.of_received (hs : r.state = .received) (htenant : r'.tenant = r.tenant)
    (hevent : r'.eventId = r.eventId) (hmessage : r'.messageId = r.messageId)
    (hturn : ∀ t, r.turnRowId = some t → r'.turnRowId = some t) (hends : A.ends r.key ∨ r'.state = .completed) :
    RowEvolves A r r' :=
  ⟨htenant, hevent, hmessage, hturn, fun ht => by (rw [hs] at ht; cases ht), fun _ => hs,
    fun h _ => .inr (hends.resolve_left h)⟩

/-- **One change lets the rows evolve.** -/
theorem Change.evolves (hc : Change I A db db') : Evolves A db db' := by
  cases hc with
  | enqueue outbox => exact ⟨Nat.le_refl _, fun r hr _ => ⟨r, hr, rfl, .refl _⟩, fun _ r hr => ⟨r, hr, rfl⟩⟩
  | register now tenant event payload inbound hevent hpayload hnew hinsert =>
    obtain ⟨hk, rfl⟩ := hinsert
    refine ⟨Nat.le_succ _, fun r hr hlt => ?_, fun _ r hr => ⟨r, (Table.mem_insert (h := hk)).2 (.inl hr), rfl⟩⟩
    rcases (Table.mem_insert (h := hk)).1 hr with hr | rfl
    · exact ⟨r, hr, rfl, .refl _⟩
    · exact absurd hlt (Nat.lt_irrefl _)
  | complete now r marker inbound hr hstate hturn hmarker hmaps =>
    refine .of_rewrite hmaps fun s hs hk => ?_
    obtain rfl := Table.eq_of_key hs hr hk
    exact .of_received hstate rfl rfl rfl (fun _ h => h) (.inr rfl)
  | reject now r reason inbound hr hstate hmaps hends =>
    refine .of_rewrite hmaps fun s hs hk => ?_
    obtain rfl := Table.eq_of_key hs hr hk
    exact .of_received hstate rfl rfl rfl (fun _ h => h) (.inl hends)
  | mark now r suffix inbound hr hnone hturn hsuffix hmaps =>
    exact .of_rewrite hmaps fun s hs hk => .of_state rfl rfl rfl rfl rfl
  | claim now turn keys turns inbound hne hscope hturns hcount hmaps hends =>
    refine .of_rewrite hmaps fun s hs hcl => .of_received hcl.1 rfl rfl rfl (fun t ht => ?_) (.inl (hends _ hcl.2.2))
    rw [hcl.2.1] at ht
    cases ht
  | finish now t resolution inbound ht hcount hlegal hmarkers hmaps =>
    refine .of_rewrite hmaps fun s hs hl =>
      ⟨rfl, rfl, rfl, fun _ h => h, fun hterm => ?_, fun hreceived => ?_, fun _ hstate => absurd hl.2 hstate⟩
    · rw [hl.2] at hterm
      cases hterm
    · cases resolution <;> cases hreceived
  | refine now t resolution inbound ht hcount hstate hres hmaps =>
    exact .of_rewrite hmaps fun s hs hl => .of_state rfl rfl rfl rfl rfl
  | sweep p hallowed hp =>
    exact ⟨Nat.le_refl _, fun r hr _ => ⟨r, (Table.mem_deleteWhere.1 hr).1, rfl, .refl _⟩, fun hA => absurd hallowed hA⟩
  | recordTurn now turn turns hturns | setTurnState now t state codexTurnId ht hstart =>
    exact ⟨Nat.le_refl _, fun r hr _ => ⟨r, hr, rfl, .refl _⟩, fun _ r hr => ⟨r, hr, rfl⟩⟩

theorem Changes.evolves (hc : Changes I A db db') : Evolves A db db' := by
  induction hc with
  | refl => exact .refl _
  | tail _ hc ih => exact ih.trans hc.evolves

/-- From one point of a run to a later one. -/
theorem exec_evolves : ∀ (es : List StoreEvent) (w : Writer Db), (∀ e ∈ es, e.Within A) →
    Evolves A w.db (exec (storeStep C I) w es).db
  | [], _, _ => .refl _
  | e :: es, w, h => by
    obtain ⟨he, hes⟩ := List.forall_mem_cons.1 h
    exact (storeStep_changes w e he).evolves.trans (exec_evolves es _ hes)

/-- Every operation is allowed. -/
def anything : Allowed := ⟨fun _ => True, True, fun _ => True, True⟩

theorem within_anything (e : StoreEvent) : e.Within anything :=
  ⟨fun _ _ => trivial, fun _ => trivial, fun _ _ => trivial, fun _ => trivial⟩

/-- Every operation but the sweep. -/
def noSweeps : Allowed := ⟨fun _ => True, False, fun _ => True, True⟩

/-- **The rows of a run evolve.** -/
theorem storeAfter_evolves (es fs : List StoreEvent) :
    Evolves anything (storeAfter C I es).db (storeAfter C I (es ++ fs)).db := by
  rw [storeAfter, storeAfter, exec_append]
  exact exec_evolves fs _ fun e _ => within_anything e

/-! ## Registrations -/

/-- Only registrations insert rows. -/
theorem Change.nextSerial_eq (hA : ∀ event, ¬A.registers event) (hc : Change I A db db') :
    db'.inbound.nextSerial = db.inbound.nextSerial := by
  cases hc with
  | register now tenant event payload inbound hevent => exact absurd hevent (hA event)
  | complete now r marker inbound hr hstate hturn hmarker hmaps | reject now r reason inbound hr hstate hmaps
  | mark now r suffix inbound hr hnone hturn hsuffix hmaps
  | claim now turn keys turns inbound hne hscope hturns hcount hmaps
  | finish now t resolution inbound ht hcount hlegal hmarkers hmaps
  | refine now t resolution inbound ht hcount hstate hres hmaps => exact hmaps.nextSerial_eq
  | enqueue | sweep | recordTurn | setTurnState => rfl

theorem Changes.nextSerial_eq (hA : ∀ event, ¬A.registers event) (hc : Changes I A db db') :
    db'.inbound.nextSerial = db.inbound.nextSerial := by
  induction hc with
  | refl => rfl
  | tail _ hc ih => exact (hc.nextSerial_eq hA).trans ih

/-- A step inserts at most one row, and it found every other row of its message rejected. -/
theorem storeStep_new {w : Writer Db} {e : StoreEvent} (hq : q ∈ (storeStep C I w e).db.inbound.rows)
    (hnew : w.db.inbound.nextSerial ≤ q.serial) :
    q.serial = w.db.inbound.nextSerial ∧ (∀ r ∈ w.db.inbound.rows, r.val.key ≠ q.val.key) ∧
      (∀ r ∈ w.db.inbound.rows, r.val.tenant = q.val.tenant → r.val.messageId = q.val.messageId →
        r.val.state = .rejected) ∧
      ∃ fate now tenant event payload, e = .call fate now (.registerInbound tenant event) ∧
        q.val = receivedRow now tenant event payload := by
  have hlt := (storeStep C I w e).db.inbound.serial_lt_next q hq
  have old : (storeStep C I w e).db.inbound.nextSerial = w.db.inbound.nextSerial → False := by
    intro heq
    rw [heq] at hlt
    omega
  cases hreg : e.registered with
  | none =>
    have hwithin : e.Within ⟨(· ∈ e.registered), True, fun _ => True, True⟩ :=
      ⟨fun _ h => h, fun _ => trivial, fun _ _ => trivial, fun _ => trivial⟩
    refine (old ((storeStep_changes w e hwithin).nextSerial_eq fun event h => ?_)).elim
    rw [hreg] at h
    cases h
  | some event =>
    obtain ⟨fate, now, tenant, rfl⟩ : ∃ fate now tenant, e = .call fate now (.registerInbound tenant event) := by
      unfold StoreEvent.registered at hreg
      split at hreg
      · cases hreg
        exact ⟨_, _, _, rfl⟩
      · cases hreg
    rcases call_db w (validateIncomingKey event) fate ((InboundOp.registerInbound tenant event).run C I now) with
      h | ⟨_, -, h⟩
    · exact (old (congrArg (·.inbound.nextSerial) h)).elim
    · obtain ⟨o, h, -⟩ := answer_ok h
      rcases registerInbound_cases h with ⟨heq, -⟩ | ⟨hnone, h⟩
      · exact (old (congrArg (·.inbound.nextSerial) heq)).elim
      · obtain ⟨payload, -, -, ⟨hk, hdb⟩, -⟩ := registerNew_ok h
        have hq' : q ∈ (w.db.inbound.insert (receivedRow now tenant event payload) hk).rows := by
          have : (storeStep C I w (.call fate now (.registerInbound tenant event))).db =
              { w.db with inbound := w.db.inbound.insert (receivedRow now tenant event payload) hk } := hdb
          rw [this] at hq
          exact hq
        rcases (Table.mem_insert (h := hk)).1 hq' with hold | rfl
        · have := w.db.inbound.serial_lt_next q hold
          omega
        · exact ⟨rfl, hk, hnone, fate, now, tenant, event, payload, rfl, rfl⟩

theorem storeAfter_concat (es : List StoreEvent) (e : StoreEvent) :
    storeAfter C I (es ++ [e]) = storeStep C I (storeAfter C I es) e := by
  rw [storeAfter, exec_append]
  rfl

/-- Every row of a run was inserted at some step of it. -/
theorem exists_registration (es : List StoreEvent) : ∀ q ∈ (storeAfter C I es).db.inbound.rows,
    ∃ es₀ e, es₀ ++ [e] <+: es ∧ (storeAfter C I es₀).db.inbound.nextSerial ≤ q.serial ∧
      ∃ q₀ ∈ (storeAfter C I (es₀ ++ [e])).db.inbound.rows, q₀.serial = q.serial ∧ RowEvolves anything q₀.val q.val := by
  induction es using List.reverseRecOn with
  | nil =>
    intro q hq
    cases hq
  | append_singleton es e ih =>
    intro q hq
    by_cases hlt : q.serial < (storeAfter C I es).db.inbound.nextSerial
    · obtain ⟨r, hr, hs, hev⟩ := (storeAfter_evolves es [e]).old q hq hlt
      obtain ⟨es₀, e₀, hpre, hle, q₀, hq₀, hqs, hev₀⟩ := ih r hr
      exact ⟨es₀, e₀, hpre.trans (List.prefix_append _ _), hs ▸ hle, q₀, hq₀, hqs.trans hs, hev₀.trans hev⟩
    · exact ⟨es, e, List.prefix_rfl, Nat.le_of_not_lt hlt, q, hq, rfl, .refl _⟩

variable {es es₁ es₂ : List StoreEvent} {p : Row InboundRow}

/-- A row is there as long as nothing was swept. -/
theorem kept_without_sweep {fs : List StoreEvent} (h : ∀ e ∈ fs, e.isSweep = false) {r : Row InboundRow}
    (hr : r ∈ (storeAfter C I es).db.inbound.rows) :
    ∃ r' ∈ (storeAfter C I (es ++ fs)).db.inbound.rows, r'.serial = r.serial := by
  have hev : Evolves noSweeps (storeAfter C I es).db (storeAfter C I (es ++ fs)).db := by
    rw [storeAfter, storeAfter, exec_append]
    refine exec_evolves fs _ fun e he => ⟨fun _ _ => trivial, fun hs => ?_, fun _ _ => trivial, fun _ => trivial⟩
    rw [h e he] at hs
    cases hs
  exact hev.kept id r hr

/-- A row of `es₁` as it was at `es₀`, another point of one run, where rows with its number had been inserted. -/
theorem row_at {es₀ : List StoreEvent} (h₀ : es₀ <+: es) (h₁ : es₁ <+: es)
    (hp : p ∈ (storeAfter C I es₁).db.inbound.rows) (hlt : p.serial < (storeAfter C I es₀).db.inbound.nextSerial) :
    (∃ r ∈ (storeAfter C I es₀).db.inbound.rows, r.serial = p.serial ∧ r.val.tenant = p.val.tenant ∧
        r.val.messageId = p.val.messageId) ∨
      ∃ e ∈ es₀, e.isSweep = true := by
  by_cases hsweep : ∃ e ∈ es₀, e.isSweep = true
  · exact .inr hsweep
  · left
    rcases List.prefix_or_prefix_of_prefix h₀ h₁ with ⟨fs, rfl⟩ | ⟨fs, rfl⟩
    · obtain ⟨r, hr, hs, hev⟩ := (storeAfter_evolves es₀ fs).old p hp hlt
      exact ⟨r, hr, hs, hev.tenant.symm, hev.messageId.symm⟩
    · have hfs : ∀ e ∈ fs, e.isSweep = false := by
        intro e he
        exact Bool.eq_false_iff.2 fun h => hsweep ⟨e, List.mem_append_right _ he, h⟩
      obtain ⟨r, hr, hs⟩ := kept_without_sweep hfs hp
      have hold := (storeAfter C I es₁).db.inbound.serial_lt_next p hp
      obtain ⟨p', hp', hs', hev⟩ := (storeAfter_evolves es₁ fs).old r hr (hs ▸ hold)
      obtain rfl := Table.eq_of_serial hp' hp (hs'.trans hs)
      exact ⟨r, hr, hs, hev.tenant, hev.messageId⟩

theorem same_row (es fs : List StoreEvent) {k : String × String}
    (hexists : ∀ gs, gs <+: fs → ∃ r ∈ (storeAfter C I (es ++ gs)).db.inbound.rows, r.val.key = k)
    {r r' : Row InboundRow} (hr : r ∈ (storeAfter C I es).db.inbound.rows) (hk : r.val.key = k)
    (hr' : r' ∈ (storeAfter C I (es ++ fs)).db.inbound.rows) (hk' : r'.val.key = k) : r'.serial = r.serial := by
  induction fs using List.reverseRecOn generalizing r' with
  | nil =>
    rw [List.append_nil] at hr'
    exact congrArg _ (Table.eq_of_key hr' hr (hk'.trans hk.symm))
  | append_singleton fs e ih =>
    obtain ⟨s, hs, hsk⟩ := hexists fs (List.prefix_append _ _)
    rw [← ih (fun gs h => hexists gs (h.trans (List.prefix_append _ _))) hs hsk]
    rw [← List.append_assoc] at hr'
    by_cases hlt : r'.serial < (storeAfter C I (es ++ fs)).db.inbound.nextSerial
    · obtain ⟨s', hs', hserial, hev⟩ := (storeAfter_evolves (es ++ fs) [e]).old r' hr' hlt
      have hkey : s'.val.key = k := hev.key.symm.trans hk'
      rw [← hserial, Table.eq_of_key hs' hs (hkey.trans hsk.symm)]
    · rw [storeAfter_concat] at hr'
      obtain ⟨-, hfresh, -⟩ := storeStep_new hr' (Nat.le_of_not_lt hlt)
      exact absurd (hsk.trans hk'.symm) (hfresh s hs)

/-- In the run `es` the row `p` was rejected when the row `q` was registered. -/
def RejectedBefore (C : Codec) (I : InboundCodec) (es : List StoreEvent) (p q : Row InboundRow) : Prop :=
  ∃ es₀ e, es₀ ++ [e] <+: es ∧ (∀ r ∈ (storeAfter C I es₀).db.inbound.rows, r.serial ≠ q.serial) ∧
    (∃ r ∈ (storeAfter C I (es₀ ++ [e])).db.inbound.rows, r.serial = q.serial) ∧
    ∃ r ∈ (storeAfter C I es₀).db.inbound.rows, r.serial = p.serial ∧ r.val.state = .rejected

/-- **A message gets a second row only after its first was rejected**, or after a sweep. -/
theorem registered_after_rejection (h₁ : es₁ <+: es) (h₂ : es₂ <+: es) (hp : p ∈ (storeAfter C I es₁).db.inbound.rows)
    (hq : q ∈ (storeAfter C I es₂).db.inbound.rows) (hlt : p.serial < q.serial) (htenant : p.val.tenant = q.val.tenant)
    (hmessage : p.val.messageId = q.val.messageId) :
    RejectedBefore C I es p q ∨ ∃ e ∈ es, e.isSweep = true := by
  obtain ⟨es₀, e, hpre, hle, q₀, hq₀, hqs, hev⟩ := exists_registration es₂ q hq
  have hstep := hq₀
  rw [storeAfter_concat] at hstep
  obtain ⟨hserial, -, hrejected, -⟩ := storeStep_new hstep (hqs ▸ hle)
  have h₀ : es₀ ++ [e] <+: es := hpre.trans h₂
  have h₀' : es₀ <+: es := (List.prefix_append _ _).trans h₀
  rcases row_at h₀' h₁ hp (by omega) with ⟨r, hr, hs, ht, hm⟩ | ⟨e', he', hsweep⟩
  · refine .inl ⟨es₀, e, h₀, fun s hs heq => ?_, ⟨q₀, hq₀, hqs⟩, r, hr, hs, hrejected r hr ?_ ?_⟩
    · have := (storeAfter C I es₀).db.inbound.serial_lt_next s hs
      omega
    · rw [ht, htenant, hev.tenant]
    · rw [hm, hmessage, hev.messageId]
  · exact .inr ⟨e', h₀'.subset he', hsweep⟩

theorem eventId_of_serial (h₁ : es₁ <+: es) (h₂ : es₂ <+: es) (hp : p ∈ (storeAfter C I es₁).db.inbound.rows)
    (hq : q ∈ (storeAfter C I es₂).db.inbound.rows) (h : p.serial = q.serial) : p.val.eventId = q.val.eventId := by
  have later : ∀ {es fs : List StoreEvent} {p q : Row InboundRow}, p ∈ (storeAfter C I es).db.inbound.rows →
      q ∈ (storeAfter C I (es ++ fs)).db.inbound.rows → p.serial = q.serial → p.val.eventId = q.val.eventId := by
    intro es fs p q hp hq h
    obtain ⟨p', hp', hs, hev⟩ :=
      (storeAfter_evolves es fs).old q hq (h ▸ (storeAfter C I es).db.inbound.serial_lt_next p hp)
    rw [hev.eventId, Table.eq_of_serial hp' hp (hs.trans h.symm)]
  rcases List.prefix_or_prefix_of_prefix h₁ h₂ with ⟨fs, rfl⟩ | ⟨fs, rfl⟩
  · exact later hp hq h
  · exact (later hq hp h.symm).symm

/-! ## Claims -/

/-- A claim that answers `NoReceived`, or an error from before its commit, changes nothing. -/
theorem beginTurn_unchanged (w : Writer Db) (fate : Fate) (now : ℤ) (turn : NewTurnRow)
    (events : List (InboundKey × Option InboundEvent)) :
    let reply := w.call (beginTurnCheck turn events) fate (beginTurnAndClaimInboundInner I now turn events)
    (∀ skipped, reply.1 = .ok (.noReceived skipped) → reply.2.db = w.db) ∧
      ∀ e, reply.1 = .error e → reply.2.db = w.db ∨ fate = .executeThenFail e := by
  intro reply
  cases hcheck : beginTurnCheck turn events with
  | error e => simp [reply, hcheck, Writer.call]
  | ok u =>
    have hreply : reply = w.runSized fate (beginTurnAndClaimInboundInner I now turn events) := by
      simp only [reply, hcheck, Writer.call]
    rcases w.runSized_cases fate (beginTurnAndClaimInboundInner I now turn events) with
      ⟨e, he, hdb⟩ | ⟨a, db, hj, -, -, hr⟩ | ⟨a, db, e, hj, -, hfate, hr⟩
    · rw [hreply]
      exact ⟨fun _ _ => hdb, fun _ _ => .inl hdb⟩
    · rw [hreply, hr]
      refine ⟨fun skipped hok => ?_, fun e he => by cases he⟩
      cases hok
      rcases beginTurn_changes (A := anything) (fun _ _ => trivial) hj with ⟨-, -, hdb⟩ | ⟨h, -⟩
      · exact hdb
      · obtain ⟨_, _, _, h⟩ := h
        cases h
    · rw [hreply, hr]
      refine ⟨fun _ hok => (by cases hok), fun e' he => ?_⟩
      cases he
      exact .inr hfate

/-- **At most one turn for a message.** Along every run:

* while a row of a tenant and an event id exists, the turn that claimed it stays, and so does a terminal state;
* a message has rows under two event ids only if one was rejected before the other was registered (or after a sweep);
* a claim that answers `NoReceived`, or an error that is not from the check after its commit, changes nothing. -/
theorem one_turn_per_message (C : Codec) (I : InboundCodec) :
    (∀ (es fs : List StoreEvent) (k : String × String),
      (∀ gs, gs <+: fs → ∃ r ∈ (storeAfter C I (es ++ gs)).db.inbound.rows, r.val.key = k) →
      ∀ r ∈ (storeAfter C I es).db.inbound.rows, r.val.key = k →
      ∀ r' ∈ (storeAfter C I (es ++ fs)).db.inbound.rows, r'.val.key = k →
        (∀ t, r.val.turnRowId = some t → r'.val.turnRowId = some t) ∧
          (r.val.state.isTerminal = true → r'.val.state = r.val.state)) ∧
    (∀ es es₁ es₂ : List StoreEvent, es₁ <+: es → es₂ <+: es →
      ∀ p ∈ (storeAfter C I es₁).db.inbound.rows, ∀ q ∈ (storeAfter C I es₂).db.inbound.rows,
        p.val.tenant = q.val.tenant → p.val.messageId = q.val.messageId → p.val.eventId ≠ q.val.eventId →
          RejectedBefore C I es p q ∨ RejectedBefore C I es q p ∨ ∃ e ∈ es, e.isSweep = true) ∧
    ∀ (w : Writer Db) (fate : Fate) (now : ℤ) (turn : NewTurnRow) (events : List (InboundKey × Option InboundEvent)),
      let reply := w.call (beginTurnCheck turn events) fate (beginTurnAndClaimInboundInner I now turn events)
      (∀ skipped, reply.1 = .ok (.noReceived skipped) → reply.2.db = w.db) ∧
        ∀ e, reply.1 = .error e → reply.2.db = w.db ∨ fate = .executeThenFail e := by
  refine ⟨?_, ?_, beginTurn_unchanged⟩
  · intro es fs k hexists r hr hk r' hr' hk'
    have hserial := same_row es fs hexists hr hk hr' hk'
    have hold := (storeAfter C I es).db.inbound.serial_lt_next r hr
    obtain ⟨s, hs, hss, hev⟩ := (storeAfter_evolves es fs).old r' hr' (hserial ▸ hold)
    obtain rfl := Table.eq_of_serial hs hr (hss.trans hserial)
    exact ⟨hev.turn, hev.terminal⟩
  · intro es es₁ es₂ h₁ h₂ p hp q hq htenant hmessage hevent
    rcases Nat.lt_trichotomy p.serial q.serial with hlt | heq | hlt
    · exact (registered_after_rejection h₁ h₂ hp hq hlt htenant hmessage).imp_right .inr
    · exact absurd (eventId_of_serial h₁ h₂ hp hq heq) hevent
    · exact .inr (registered_after_rejection h₂ h₁ hq hp hlt htenant.symm hmessage.symm)

/-- The turn of a message fails, and the message comes again under another event id and gets another turn. -/
def secondTurnRun : List StoreEvent :=
  [.call .execute 1000 (.registerInbound sampleTenant (helloEvent "evt_1")),
   .call .execute 1001 (.beginTurnAndClaimInbound ⟨"im:oc_1", "client-1", none, .starting⟩ [(helloKey "evt_1", none)]),
   .call .execute 1002 (.resolveTurnAndFinishInboundBatch 1 .failed .rejected),
   .call .execute 1003 (.registerInbound sampleTenant (helloEvent "evt_2")),
   .call .execute 1004 (.beginTurnAndClaimInbound ⟨"im:oc_1", "client-2", none, .starting⟩ [(helloKey "evt_2", none)])]

set_option maxRecDepth 20000 in
theorem secondTurnRun_rows :
    ∃ p ∈ (storeAfter noOutbox helloCodec secondTurnRun).db.inbound.rows,
      ∃ q ∈ (storeAfter noOutbox helloCodec secondTurnRun).db.inbound.rows,
        ((p.val.state, p.val.turnRowId) = (.rejected, some 1) ∧ (q.val.state, q.val.turnRowId) = (.accepted, some 2)) ∧
          p.val.tenant = q.val.tenant ∧ p.val.messageId = q.val.messageId ∧ p.val.eventId ≠ q.val.eventId := by
  decide

theorem one_turn_per_message_secondTurnRun :
    ∃ p ∈ (storeAfter noOutbox helloCodec secondTurnRun).db.inbound.rows,
      ∃ q ∈ (storeAfter noOutbox helloCodec secondTurnRun).db.inbound.rows,
        (p.val.state, p.val.turnRowId) = (.rejected, some 1) ∧ (q.val.state, q.val.turnRowId) = (.accepted, some 2) ∧
          (RejectedBefore noOutbox helloCodec secondTurnRun p q ∨
            RejectedBefore noOutbox helloCodec secondTurnRun q p ∨ ∃ e ∈ secondTurnRun, e.isSweep = true) := by
  obtain ⟨p, hp, q, hq, ⟨hfirst, hsecond⟩, htenant, hmessage, hevent⟩ := secondTurnRun_rows
  have h := (one_turn_per_message noOutbox helloCodec).2.1 secondTurnRun secondTurnRun secondTurnRun List.prefix_rfl
    List.prefix_rfl p hp q hq htenant hmessage hevent
  exact ⟨p, hp, q, hq, hfirst, hsecond, h⟩

def receivedStore : Writer Db :=
  storeAfter noOutbox helloCodec [.call .execute 1000 (.registerInbound sampleTenant (helloEvent "evt_1"))]

set_option maxRecDepth 20000 in
/-- **A claim that fails the check after its commit answers an error, and its row is claimed.** -/
theorem failed_claim_claims :
    let reply := receivedStore.call
      (beginTurnCheck ⟨"im:oc_1", "client-1", none, .starting⟩ [(helloKey "evt_1", none)])
      (.executeThenFail (.io "validating the database files"))
      (beginTurnAndClaimInboundInner helloCodec 1001 ⟨"im:oc_1", "client-1", none, .starting⟩ [(helloKey "evt_1", none)])
    reply.1.isOk = false ∧ (receivedStore.db.inbound.rows.map fun r => (r.val.state, r.val.turnRowId)) =
      [(.received, none)] ∧
      (reply.2.db.inbound.rows.map fun r => (r.val.state, r.val.turnRowId)) = [(.accepted, some 1)] := by
  decide

end LarkCodexBridge.Store

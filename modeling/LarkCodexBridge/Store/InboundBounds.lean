import Mathlib
import LarkCodexBridge.Store.InboundClaims

/-!
# The bounds of the inbox

`InboundBounds` are the four bounds that the integrity check asks for. Registration and the marker of a settled row check
them; every other change has to stay within what the row had. A settled row loses its payload, which is longer than any
reason and any marker (`Held`), and rows become received by registration alone.

One change does grow: a turn that was recorded as uncertain and turns out to be interrupted gives each of its rejected rows a
reason that is two bytes longer, without a check.

* `inbound_bounds`: the bounds hold in every run whose refinements find room for these bytes (`RefineRoom`);
* `inbound_bounds_fails`: a run of registrations and completions fills the inbox, and one refinement exceeds it.
-/

namespace LarkCodexBridge.Store

open Limits SqlTable Outbox Lark StepSystem

variable {C : Codec} {I : InboundCodec} {A : Allowed}

/-- The four bounds. -/
structure InboundBounds (db : Db) : Prop where
  rows_le : db.inbound.rows.length ≤ storeInboundMaxRows
  bytes_le : db.logicalBytes ≤ storeInboundMaxBytes
  received_le : db.receivedRows.length ≤ storeInboundReceivedMaxRows
  receivedBytes_le : db.receivedBytes ≤ storeInboundReceivedMaxBytes

/-! ## What JSON is at least as long as -/

/-- The fields of the wire shape. -/
def payloadFields : List String :=
  ["event_id", "message_id", "chat_id", "sender_id", "chat_type", "thread_id", "root_id", "reply_to_message_id", "text",
    "mentions_bot", "mention_all", "sender_is_human", "mentions", "parts", "resources", "message_type", "create_time_ms",
    "scope"]

/-- JSON text has the name of each field, in quotes and with a colon, and the event id. -/
def InboundCodec.WritesFields (I : InboundCodec) : Prop := ∀ dto payload, I.toVec dto = some payload →
  (payloadFields.map (·.utf8ByteSize + 3)).sum + dto.eventId.utf8ByteSize ≤ payload.size

theorem utf8ByteSize_controlKey {tenant : String} (eventId : String) (h : isTenantNamespace tenant = true) :
    (inboundReplyOutboxKey tenant eventId "control").utf8ByteSize = 84 + eventId.utf8ByteSize := by
  have htenant : tenant.utf8ByteSize = 64 := by
    simp only [isTenantNamespace, Bool.and_eq_true, beq_iff_eq] at h
    exact h.1
  simp only [inboundReplyOutboxKey, String.utf8ByteSize_append, htenant]
  have hstart : "inbound:v1:".utf8ByteSize = 11 := by decide
  have hcolon : ":".utf8ByteSize = 1 := by decide
  have hend : "control".utf8ByteSize = 7 := by decide
  omega

/-! ## The invariant -/

/-- The turn ended and its outcome is recorded as unknown. -/
def TurnRow.RecordedUncertain (t : TurnRow) : Prop := t.state = .uncertain ∧ t.uncertain = false

instance (t : TurnRow) : Decidable t.RecordedUncertain :=
  inferInstanceAs (Decidable (t.state = .uncertain ∧ t.uncertain = false))

/-- The payload of a row, as registration wrote it. -/
structure Held (I : InboundCodec) (r : InboundRow) : Prop where
  tenant : isTenantNamespace r.tenant = true
  reason : r.rejectionReason = none
  marker : r.replyOutboxKey = none
  /-- It is longer than a control marker, so than any reason of a rejection. -/
  bytes : 84 + r.eventId.utf8ByteSize ≤ r.payloadBytes
  payload : ∃ event payload, r.payloadBlob = some payload ∧ encodeEvent I event = .ok payload

/-- The turn of a row; the rejected rows of an uncertain one have its reason. -/
def TurnOf (turns : TurnTable) (r : InboundRow) : Prop :=
  ∀ id, r.turnRowId = some id → ∃ t ∈ turns.rows, t.id = id ∧ 0 < t.val.inboundCount ∧
    (t.val.RecordedUncertain → r.state = .rejected → r.rejectionReason = some "turn_uncertain")

/-- What the counting needs to know of rows and turns. -/
structure Accounted (I : InboundCodec) (db : Db) : Prop where
  held : ∀ r ∈ db.inbound.rows, r.val.state.isTerminal = false → Held I r.val
  free : ∀ r ∈ db.inbound.rows, r.val.state = .received → r.val.turnRowId = none
  turn : ∀ r ∈ db.inbound.rows, TurnOf db.turns r.val

theorem Accounted.empty : Accounted I Db.empty := by
  constructor <;> simp [Db.empty, Table.empty]

/-! ## Counting rewritten rows -/

variable {db db' : Db} {f : Row InboundRow → InboundRow}

/-- The sum over rewritten rows is at most what they had and what each may gain. -/
theorem logicalBytes_maps (hm : Table.Maps f db.inbound db'.inbound) (gain : Row InboundRow → ℕ)
    (hf : ∀ r ∈ db.inbound.rows, (f r).logicalBytes ≤ r.val.logicalBytes + gain r) :
    db'.logicalBytes ≤ db.logicalBytes + (db.inbound.rows.map gain).sum := by
  unfold Db.logicalBytes
  rw [hm.rows_eq, List.map_map, ← List.sum_map_add]
  exact List.sum_le_sum hf

theorem filter_key_length_le (t : InboundTable) (k : String × String) :
    (t.rows.filter fun r => decide (r.val.key = k)).length ≤ 1 := by
  have hpair := t.key_ne.filter fun r => decide (r.val.key = k)
  have hall : ∀ r ∈ t.rows.filter fun r => decide (r.val.key = k), r.val.key = k := fun r hr => by
    simpa using (List.mem_filter.1 hr).2
  generalize t.rows.filter (fun r => decide (r.val.key = k)) = l at hpair hall
  match l with
  | [] => exact Nat.zero_le _
  | [_] => exact Nat.le_refl _
  | r :: s :: _ =>
    have hne := (List.pairwise_cons.1 hpair).1 s List.mem_cons_self
    exact absurd ((hall r List.mem_cons_self).trans (hall s (List.mem_cons_of_mem _ List.mem_cons_self)).symm) hne

/-- What the rows chosen by `p` gain, `d` each. -/
theorem sum_gain (p : Row InboundRow → Bool) (d : ℕ) : ∀ l : List (Row InboundRow),
    (l.map fun r => if p r then d else 0).sum = (l.filter p).length * d
  | [] => by simp
  | r :: l => by
    rw [List.map_cons, List.sum_cons, sum_gain p d l]
    cases hp : p r with
    | true =>
      rw [List.filter_cons_of_pos hp, List.length_cons, if_pos rfl, Nat.succ_mul, Nat.add_comm]
    | false => simp [hp]

/-- Rows of which none becomes received. -/
structure Recedes (db db' : Db) : Prop where
  rows : db'.inbound.rows.length ≤ db.inbound.rows.length
  received : db'.receivedRows.length ≤ db.receivedRows.length
  receivedBytes : db'.receivedBytes ≤ db.receivedBytes

theorem Recedes.of_inbound (h : db'.inbound = db.inbound) : Recedes db db' := by
  obtain ⟨inbound, turns, outbox⟩ := db'
  subst h
  exact ⟨Nat.le_refl _, Nat.le_refl _, Nat.le_refl _⟩

theorem Recedes.of_maps (hm : Table.Maps f db.inbound db'.inbound)
    (hf : ∀ r ∈ db.inbound.rows, (f r).state = .received → f r = r.val) : Recedes db db' := by
  have hsub : (db'.receivedRows.map (·.val)).Sublist (db.receivedRows.map (·.val)) := by
    have he : db'.receivedRows.map (·.val) = (db.inbound.rows.filter fun r => (f r).state = .received).map (·.val) := by
      unfold Db.receivedRows
      rw [hm.rows_eq, List.filter_map, List.map_map]
      refine List.map_congr_left fun r hr => ?_
      obtain ⟨hr, hstate⟩ := List.mem_filter.1 hr
      exact hf r hr (by simpa using hstate)
    have hfilter : (db.inbound.rows.filter fun r => (f r).state = .received) =
        db.receivedRows.filter fun r => (f r).state = .received := by
      unfold Db.receivedRows
      rw [List.filter_filter]
      refine List.filter_congr fun r hr => ?_
      by_cases hstate : (f r).state = .received
      · have hval := hf r hr hstate
        simp [hstate, ← hval]
      · simp [hstate]
    rw [he, hfilter]
    exact List.filter_sublist.map _
  refine ⟨by rw [hm.rows_eq, List.length_map], ?_, ?_⟩
  · simpa using hsub.length_le
  · have hsum := List.Sublist.sum_le_sum (hsub.map InboundRow.payloadBytes) fun _ _ => Nat.zero_le _
    simpa [Db.receivedBytes, List.map_map, Function.comp_def] using hsum

theorem Recedes.deleteWhere (db : Db) (p : Row InboundRow → Bool) :
    Recedes db { db with inbound := db.inbound.deleteWhere p } := by
  have hsub : (db.inbound.deleteWhere p).rows.Sublist db.inbound.rows := List.filter_sublist
  have hreceived : (Db.receivedRows { db with inbound := db.inbound.deleteWhere p }).Sublist db.receivedRows :=
    hsub.filter _
  exact ⟨hsub.length_le, hreceived.length_le,
    List.Sublist.sum_le_sum (hreceived.map _) fun _ _ => Nat.zero_le _⟩

/-! ## The invariant is kept -/

/-- Turns that stay, and are uncertain only if they were. -/
def TurnsStay (turns turns' : TurnTable) : Prop :=
  ∀ t ∈ turns.rows, 0 < t.val.inboundCount → ∃ t' ∈ turns'.rows, t'.id = t.id ∧ 0 < t'.val.inboundCount ∧
    (t'.val.RecordedUncertain → t.val.RecordedUncertain)

theorem TurnsStay.insert (turns : TurnTable) (a : TurnRow) (hk) : TurnsStay turns (turns.insert a hk) :=
  fun t ht hc => ⟨t, (Table.mem_insert (h := hk)).2 (.inl ht), rfl, hc, id⟩

variable {turns : TurnTable} {r : InboundRow}

theorem TurnOf.mono {turns' : TurnTable} (h : TurnOf turns r) (hk : TurnsStay turns turns') :
    TurnOf turns' r := by
  intro id hid
  obtain ⟨t, ht, rfl, hc, hu⟩ := h id hid
  obtain ⟨t', ht', hid', hc', hu'⟩ := hk t ht hc
  exact ⟨t', ht', hid', hc', fun h => hu (hu' h)⟩

theorem TurnOf.of_none (h : r.turnRowId = none) : TurnOf turns r := by
  intro id hid
  rw [h] at hid
  cases hid

variable {g : InboundRow → InboundRow} {inbound : InboundTable} {p : InboundRow → Prop} {outbox : OutboxTable}

/-- Rows chosen by `p` and rewritten by `g`, the other ones with the turns they had. -/
theorem Accounted.of_rewrite [DecidablePred p] (h : Accounted I db) (hm : Table.Maps (rewrite p g) db.inbound inbound)
    (hheld : ∀ r ∈ db.inbound.rows, p r.val → (g r.val).state.isTerminal = false → Held I (g r.val))
    (hfree : ∀ r ∈ db.inbound.rows, p r.val → (g r.val).state = .received → (g r.val).turnRowId = none)
    (hturn : ∀ r ∈ db.inbound.rows, p r.val → TurnOf turns (g r.val))
    (hother : ∀ r ∈ db.inbound.rows, ¬p r.val → TurnOf turns r.val) :
    Accounted I { inbound := inbound, turns := turns, outbox := outbox } := by
  have hrow : ∀ r' ∈ inbound.rows, ∃ r ∈ db.inbound.rows, r'.val = if p r.val then g r.val else r.val := by
    intro r' hr'
    obtain ⟨r, hr, rfl⟩ := hm.mem.1 hr'
    exact ⟨r, hr, rfl⟩
  constructor
  · intro r' hr' hstate
    obtain ⟨r, hr, heq⟩ := hrow r' hr'
    rw [heq] at hstate ⊢
    split at hstate
    · next hp => rw [if_pos hp]; exact hheld r hr hp hstate
    · next hp => rw [if_neg hp]; exact h.held r hr hstate
  · intro r' hr' hstate
    obtain ⟨r, hr, heq⟩ := hrow r' hr'
    rw [heq] at hstate ⊢
    split at hstate
    · next hp => rw [if_pos hp]; exact hfree r hr hp hstate
    · next hp => rw [if_neg hp]; exact h.free r hr hstate
  · intro r' hr'
    obtain ⟨r, hr, heq⟩ := hrow r' hr'
    rw [heq]
    split
    · next hp => exact hturn r hr hp
    · next hp => exact hother r hr hp

/-- A received row becomes terminal. -/
theorem Accounted.settle {r : Row InboundRow} (h : Accounted I db) (hr : r ∈ db.inbound.rows)
    (hs : r.val.state = .received) (hm : Table.Maps (rewrite (·.key = r.val.key) g) db.inbound inbound)
    (hterm : (g r.val).state.isTerminal = true) (hturn : (g r.val).turnRowId = r.val.turnRowId) :
    Accounted I { db with inbound := inbound } := by
  refine h.of_rewrite hm (fun s hsmem hk hstate => ?_) (fun s hsmem hk hstate => ?_) (fun s hsmem hk => ?_)
    fun s hsmem _ => h.turn s hsmem
  all_goals obtain rfl := Table.eq_of_key hsmem hr hk
  · rw [hterm] at hstate
    cases hstate
  · rw [hstate] at hterm
    cases hterm
  · exact .of_none (hturn.trans (h.free s hsmem hs))

variable {event : InboundEvent} {payload : ByteArray}

theorem encodeEvent_toVec (h : encodeEvent I event = .ok payload) :
    I.toVec (.ofEvent (persistableEvent event)) = some payload := by
  obtain ⟨-, h⟩ := seq_eq_ok.1 h
  split at h
  · cases h
  · next b hb =>
    split at h
    · cases h
    · cases h
      exact hb

theorem le_payload_size (hI : I.WritesFields) (h : encodeEvent I event = .ok payload) :
    84 + event.eventId.utf8ByteSize ≤ payload.size := by
  have hsize := hI _ _ (encodeEvent_toVec h)
  have hfields : (payloadFields.map (·.utf8ByteSize + 3)).sum = 227 := rfl
  have hid : (InboundPayloadV1.ofEvent (persistableEvent event)).eventId = event.eventId := rfl
  rw [hfields, hid] at hsize
  omega

variable {now : ℤ} {tenant : TenantNamespace} {id : ℕ} {t : Row TurnRow} {turn : TurnResolution}
  {o : ResolveTurnOutcome}

theorem held_receivedRow (hI : I.WritesFields) (h : encodeEvent I event = .ok payload) :
    Held I (receivedRow now tenant event payload) where
  tenant := tenant.isTenantNamespace_asHex
  reason := rfl
  marker := rfl
  bytes := le_payload_size hI h
  payload := ⟨event, payload, rfl, h⟩

/-- The rows of a turn that ends; no other row notices. -/
theorem TurnOf.of_resolveTurn {state : TurnState} (h : TurnOf db.turns r) (hid : r.turnRowId ≠ some id) :
    TurnOf (db.resolveTurn now id state).turns r := by
  intro id' hid'
  obtain ⟨t, ht, rfl, hc, hu⟩ := h id' hid'
  have hne : t.id ≠ id := by
    rintro rfl
    exact hid hid'
  exact ⟨t, mem_resolveTurn.2 ⟨t, ht, (if_neg hne).symm⟩, rfl, hc, hu⟩

/-- Before a turn ends, all its rows are accepted. -/
theorem accepted_of_markers {count : ℕ} {scope : String} (h : validateUnresolvedMarkers db id scope count = .ok ())
    {r : Row InboundRow} (hr : r ∈ db.inbound.rows) (hid : r.val.turnRowId = some id) : r.val.state = .accepted := by
  unfold validateUnresolvedMarkers at h
  dsimp only at h
  split at h
  · cases h
  · next hcount =>
    simp only [not_or, ne_eq, not_not] at hcount
    have hall := List.length_filter_eq_length_iff.1 (hcount.2.1.trans hcount.1.symm)
    simpa using hall r (List.mem_filter.2 ⟨hr, by simpa using hid⟩)

/-- **One change keeps the invariant.** -/
theorem Change.accounted (hI : I.WritesFields) (hc : Change I A db db') (h : Accounted I db) :
    Accounted I db' := by
  cases hc with
  | enqueue outbox => exact ⟨h.held, h.free, h.turn⟩
  | register now tenant event payload inbound hevent hpayload hnew hinsert =>
    obtain ⟨hk, rfl⟩ := hinsert
    refine ⟨fun r hr hs => ?_, fun r hr hs => ?_, fun r hr => ?_⟩
    all_goals rcases (Table.mem_insert (h := hk)).1 hr with hr | rfl
    · exact h.held r hr hs
    · exact held_receivedRow hI hpayload
    · exact h.free r hr hs
    · rfl
    · exact h.turn r hr
    · exact .of_none rfl
  | complete now r marker inbound hr hstate hturn hmarker hmaps | reject now r reason inbound hr hstate hmaps =>
    exact h.settle hr hstate hmaps rfl rfl
  | mark now r suffix inbound hr hnone hturn hsuffix hmaps =>
    refine h.of_rewrite hmaps (fun s hs hk hstate => ?_) (fun s hs hk hstate => ?_) (fun s hs hk => h.turn s hs)
      fun s hs _ => h.turn s hs
    all_goals
      obtain rfl := Table.eq_of_key hs hr hk
      have hterm : s.val.state.isTerminal = true := by
        rcases hsuffix with ⟨hsuffix, -⟩ | ⟨_, hsuffix, -, -⟩ <;> rw [hsuffix] <;> rfl
    · rw [show (InboundRow.mark now (inboundReplyOutboxKey s.val.tenant s.val.eventId suffix) s.val).state = s.val.state from rfl,
        hterm] at hstate
      cases hstate
    · have hstate : s.val.state = .received := hstate
      rw [hstate] at hterm
      cases hterm
  | claim now turn keys turns inbound hne hscope hturns hcount hmaps hends =>
    obtain ⟨hk, rfl⟩ := hturns
    refine h.of_rewrite hmaps (fun s hs hcl _ => ?_) (fun s hs hcl hstate => by cases hstate) (fun s hs hcl => ?_)
      fun s hs _ => (h.turn s hs).mono (.insert _ _ hk)
    · have hheld := h.held s hs (by rw [hcl.1]; rfl)
      exact ⟨hheld.tenant, hheld.reason, hheld.marker, hheld.bytes, hheld.payload⟩
    · intro id hid
      cases hid
      refine ⟨_, (Table.mem_insert (h := hk)).2 (.inr rfl), rfl, List.length_pos_iff.2 hne, fun hu => ?_⟩
      cases hu.1
  | finish now t resolution inbound ht hcount hlegal hmarkers hmaps =>
    refine h.of_rewrite hmaps (fun s hs hl hstate => ?_) (fun s hs hl hstate => ?_) (fun s hs hl => ?_)
      fun s hs hl => (h.turn s hs).of_resolveTurn fun hid => hl ⟨hid, accepted_of_markers hmarkers hs hid⟩
    · cases resolution <;> cases hstate
    · cases resolution <;> cases hstate
    · intro id hid
      have hid : some t.id = some id := hl.1.symm.trans hid
      cases hid
      refine ⟨_, resolved_mem ht now resolution.target.1, rfl, hcount, fun hu hrejected => ?_⟩
      cases resolution with
      | uncertain => rfl
      | completed | failed | interrupted => cases hu.1
  | refine now t resolution inbound ht hcount hstate hres hmaps =>
    have hresolved : ∀ s ∈ db.inbound.rows, ∀ r : InboundRow, r.turnRowId = s.val.turnRowId → s.val.turnRowId = some t.id →
        TurnOf (db.resolveTurn now t.id resolution.target.1).turns r := by
      intro s hs r hr hs' id hid
      have hid : some t.id = some id := hs'.symm.trans (hr.symm.trans hid)
      cases hid
      refine ⟨_, resolved_mem ht now resolution.target.1, rfl, hcount, fun hu => ?_⟩
      rcases hres with rfl | rfl <;> cases hu.1
    refine h.of_rewrite hmaps (fun s hs hl hs' => ?_) (fun s hs hl hs' => ?_)
      (fun s hs hl => hresolved s hs _ rfl hl.1) fun s hs hl => ?_
    · have hs' : s.val.state.isTerminal = false := hs'
      rw [hl.2] at hs'
      cases hs'
    · have hs' : s.val.state = .received := hs'
      rw [hl.2] at hs'
      cases hs'
    · by_cases hid : s.val.turnRowId = some t.id
      · exact hresolved s hs _ rfl hid
      · exact (h.turn s hs).of_resolveTurn hid
  | sweep p hallowed hp =>
    exact ⟨fun r hr => h.held r (Table.mem_deleteWhere.1 hr).1, fun r hr => h.free r (Table.mem_deleteWhere.1 hr).1,
      fun r hr => h.turn r (Table.mem_deleteWhere.1 hr).1⟩
  | recordTurn now turn turns hturns =>
    obtain ⟨hk, rfl⟩ := hturns
    exact ⟨h.held, h.free, fun r hr => (h.turn r hr).mono (.insert _ _ hk)⟩
  | setTurnState now t state codexTurnId ht hstart =>
    refine ⟨h.held, h.free, fun r hr => (h.turn r hr).mono fun q hq hc => ?_⟩
    have hmem : q.update (·.id == t.id) (TurnRow.setState now state codexTurnId) ∈
        (db.turns.updateWhere (·.id == t.id) (TurnRow.setState now state codexTurnId)).rows :=
      Table.mem_updateWhere.2 ⟨q, hq, rfl⟩
    refine ⟨_, hmem, Row.update_id _ _ _, ?_, ?_⟩
    all_goals
      unfold Row.update
      split
    · exact hc
    · exact hc
    · rintro ⟨hs, hu⟩
      have hs : state = .uncertain := hs
      simp [TurnRow.setState, hs] at hu
    · exact id

/-! ## One change -/

theorem InboundBounds.empty : InboundBounds Db.empty := by
  constructor <;> simp [Db.empty, Table.empty, Db.logicalBytes, Db.receivedRows, Db.receivedBytes]

theorem InboundBounds.of_recedes (h : InboundBounds db) (hr : Recedes db db')
    (hbytes : db'.logicalBytes ≤ storeInboundMaxBytes) : InboundBounds db' :=
  ⟨hr.rows.trans h.rows_le, hbytes, hr.received.trans h.received_le, hr.receivedBytes.trans h.receivedBytes_le⟩

theorem InboundBounds.of_inbound (h : InboundBounds db) (heq : db'.inbound = db.inbound) :
    InboundBounds db' := by
  refine h.of_recedes (.of_inbound heq) ?_
  rw [Db.logicalBytes, heq]
  exact h.bytes_le

/-- Rows chosen by `p` are rewritten, `gain` bytes longer at most, and stay received only as they were. -/
theorem InboundBounds.of_rewrite [DecidablePred p] (gain : ℕ) (h : InboundBounds db)
    (hm : Table.Maps (rewrite p g) db.inbound inbound)
    (hg : ∀ r ∈ db.inbound.rows, p r.val → (g r.val).logicalBytes ≤ r.val.logicalBytes + gain)
    (hstate : ∀ r ∈ db.inbound.rows, p r.val → (g r.val).state ≠ .received)
    (hroom : db.logicalBytes + (db.inbound.rows.filter fun r => decide (p r.val)).length * gain ≤ storeInboundMaxBytes) :
    InboundBounds { inbound := inbound, turns := turns, outbox := outbox } := by
  refine h.of_recedes (.of_maps hm fun r hr hs => ?_) ?_
  · unfold rewrite at hs ⊢
    split at hs
    · next hp => exact absurd hs (hstate r hr hp)
    · next hp => exact if_neg hp
  · have hm' : Table.Maps (rewrite p g) db.inbound ({ inbound := inbound, turns := turns, outbox := outbox } : Db).inbound := hm
    refine (logicalBytes_maps hm' (fun r => if decide (p r.val) then gain else 0) fun r hr => ?_).trans ?_
    · unfold rewrite
      by_cases hp : p r.val
      · simpa [hp] using hg r hr hp
      · simp [hp]
    · rw [sum_gain]
      exact hroom

/-- Rows that are rewritten and not longer. -/
theorem InboundBounds.of_shrink [DecidablePred p] (h : InboundBounds db)
    (hm : Table.Maps (rewrite p g) db.inbound inbound)
    (hg : ∀ r ∈ db.inbound.rows, p r.val → (g r.val).logicalBytes ≤ r.val.logicalBytes)
    (hstate : ∀ r ∈ db.inbound.rows, p r.val → (g r.val).state ≠ .received) :
    InboundBounds { inbound := inbound, turns := turns, outbox := outbox } :=
  h.of_rewrite 0 hm hg hstate h.bytes_le

theorem utf8ByteSize_asStr_le (reason : InboundRejectionKind) : reason.asStr.utf8ByteSize ≤ 84 := by
  cases reason <;> decide

theorem optionBytes_target_le (resolution : TurnResolution) : optionBytes resolution.target.2.2 ≤ 84 := by
  cases resolution <;> decide

/-- A row that loses its payload for a reason of at most 84 bytes. -/
theorem Held.finish_le (h : Held I r) {state : InboundEventState} {reason : Option String}
    (hreason : optionBytes reason ≤ 84) : (r.finish now state reason).logicalBytes ≤ r.logicalBytes := by
  have hbytes := h.bytes
  simp only [InboundRow.finish, InboundRow.logicalBytes]
  omega

/-- A row that loses its payload for its control marker. -/
theorem Held.complete_le (h : Held I r) {marker : Option String}
    (hmarker : marker = r.replyOutboxKey ∨ marker = some (inboundReplyOutboxKey r.tenant r.eventId "control")) :
    InboundRow.logicalBytes { r.complete now with replyOutboxKey := marker } ≤ r.logicalBytes := by
  have hbytes := h.bytes
  have hkey := utf8ByteSize_controlKey r.eventId h.tenant
  have hmarkerBytes : optionBytes marker ≤ r.payloadBytes := by
    rcases hmarker with rfl | rfl
    · rw [h.marker]
      exact Nat.zero_le _
    · simp only [optionBytes, Option.map_some, Option.getD_some]
      omega
  simp only [InboundRow.complete, InboundRow.finish, InboundRow.logicalBytes]
  omega

/-- A registration checks all four bounds. -/
theorem InboundBounds.register {row : InboundRow} {hk} (hs : row.state = .received)
    (hroom : ensureInboundCapacity db row.logicalBytes row.payloadBytes = .ok ()) :
    InboundBounds { db with inbound := db.inbound.insert row hk } := by
  unfold ensureInboundCapacity at hroom
  split at hroom
  · cases hroom
  · next hfits =>
    simp only [not_or, not_le, not_lt, ge_iff_le, gt_iff_lt] at hfits
    obtain ⟨hrows, hbytes, hreceived, hreceivedBytes⟩ := hfits
    have he : (db.inbound.insert row hk).rows = db.inbound.rows ++ [⟨db.inbound.nextId, db.inbound.nextSerial, row⟩] := rfl
    have hreceivedRows : Db.receivedRows { db with inbound := db.inbound.insert row hk } =
        db.receivedRows ++ [⟨db.inbound.nextId, db.inbound.nextSerial, row⟩] := by
      simp [Db.receivedRows, he, hs]
    constructor
    · rw [he, List.length_append]
      exact hrows
    · rw [Db.logicalBytes, he, List.map_append, List.sum_append]
      simpa [Db.logicalBytes] using hbytes
    · rw [hreceivedRows, List.length_append]
      exact hreceived
    · rw [Db.receivedBytes, hreceivedRows, List.map_append, List.sum_append]
      simpa [Db.receivedBytes] using hreceivedBytes

theorem Accounted.uncertain_reason (h : Accounted I db) (ht : t ∈ db.turns.rows) (hu : t.val.RecordedUncertain)
    {r : Row InboundRow} (hr : r ∈ db.inbound.rows) (hl : Linked t.id .rejected r.val) :
    r.val.rejectionReason = some "turn_uncertain" := by
  obtain ⟨t', ht', hid, -, hreason⟩ := h.turn r hr t.id hl.1
  obtain rfl := Table.eq_of_id ht' ht hid
  exact hreason hu hl.2

/-- **Every change but the refinement to an interrupted turn keeps the bounds.** -/
theorem Change.bounded (hA : ¬A.interrupts) (hc : Change I A db db') (ha : Accounted I db) (h : InboundBounds db) :
    InboundBounds db' := by
  cases hc with
  | enqueue outbox | recordTurn now turn turns hturns | setTurnState now t state codexTurnId ht hstart => exact h.of_inbound rfl
  | register now tenant event payload inbound hevent hpayload hnew hinsert hroom =>
    obtain ⟨hk, rfl⟩ := hinsert
    exact .register rfl hroom
  | complete now r marker inbound hr hstate hturn hmarker hmaps =>
    refine h.of_shrink hmaps (fun s hs hk => ?_) fun s hs hk => by simp [InboundRow.complete, InboundRow.finish]
    obtain rfl := Table.eq_of_key hs hr hk
    exact (ha.held s hs (by rw [hstate]; rfl)).complete_le (hmarker.imp_right And.right)
  | reject now r reason inbound hr hstate hmaps =>
    refine h.of_shrink hmaps (fun s hs hk => ?_) fun s hs hk => by simp [InboundRow.finish]
    obtain rfl := Table.eq_of_key hs hr hk
    exact (ha.held s hs (by rw [hstate]; rfl)).finish_le (utf8ByteSize_asStr_le reason)
  | mark now r suffix inbound hr hnone hturn hsuffix hmaps hroom =>
    refine h.of_rewrite (inboundReplyOutboxKey r.val.tenant r.val.eventId suffix).utf8ByteSize hmaps
      (fun s hs hk => ?_) (fun s hs hk => ?_) ?_
    · obtain rfl := Table.eq_of_key hs hr hk
      simp only [InboundRow.mark, InboundRow.logicalBytes, hnone, optionBytes, Option.map_some, Option.map_none,
        Option.getD_some, Option.getD_none]
      omega
    · obtain rfl := Table.eq_of_key hs hr hk
      rcases hsuffix with ⟨hs', -⟩ | ⟨_, hs', -, -⟩ <;> simp [InboundRow.mark, hs']
    · have hone := filter_key_length_le db.inbound r.val.key
      have hle := Nat.mul_le_mul_right (inboundReplyOutboxKey r.val.tenant r.val.eventId suffix).utf8ByteSize hone
      omega
  | claim now turn keys turns inbound hne hscope hturns hcount hmaps hends =>
    exact h.of_shrink hmaps (fun s hs _ => Nat.le_refl _) fun s hs _ => by simp [InboundRow.claim]
  | finish now t resolution inbound ht hcount hlegal hmarkers hmaps =>
    have h' : InboundBounds (db.resolveTurn now t.id resolution.target.1) := h.of_inbound rfl
    refine h'.of_shrink hmaps (fun s hs hl => ?_) fun s hs hl => by cases resolution <;> simp [InboundRow.finish,
      TurnResolution.target, InboundTerminal.state]
    exact (ha.held s hs (by rw [hl.2]; rfl)).finish_le (optionBytes_target_le resolution)
  | refine now t resolution inbound ht hcount hstate hres hmaps hallowed =>
    have h' : InboundBounds (db.resolveTurn now t.id resolution.target.1) := h.of_inbound rfl
    rcases hres with rfl | rfl
    · refine h'.of_shrink hmaps (fun s hs hl => ?_) fun s hs hl => by simp [InboundRow.refine, hl.2]
      have hreason := ha.uncertain_reason ht hstate hs hl
      have hbytes : optionBytes (TurnResolution.failed).target.2.2 ≤ optionBytes (some "turn_uncertain") := by decide
      simp only [InboundRow.refine, InboundRow.logicalBytes, hreason]
      omega
    · exact absurd (hallowed rfl) hA
  | sweep p hallowed hp =>
    refine h.of_recedes (.deleteWhere db p) (le_trans ?_ h.bytes_le)
    have hsub : (db.inbound.deleteWhere p).rows.Sublist db.inbound.rows := List.filter_sublist
    exact List.Sublist.sum_le_sum (hsub.map _) fun _ _ => Nat.zero_le _

theorem Changes.bounded (hI : I.WritesFields) (hA : ¬A.interrupts) (hc : Changes I A db db') (ha : Accounted I db)
    (h : InboundBounds db) : Accounted I db' ∧ InboundBounds db' := by
  induction hc with
  | refl => exact ⟨ha, h⟩
  | tail _ hc ih => exact ⟨hc.accounted hI ih.1, hc.bounded hA ih.1 ih.2⟩

/-! ## Resolutions -/

/-- The refinement of a turn that is recorded as uncertain finds room for the longer reasons. -/
def RefinementFits (db : Db) (id : ℕ) : Prop :=
  ∀ t ∈ db.turns.get? id, t.val.RecordedUncertain → validateResolvedMarkers db id t.val.inboundCount .rejected = .ok () →
    db.logicalBytes + 2 * (db.inbound.rows.filter fun r => decide (Linked id .rejected r.val)).length ≤ storeInboundMaxBytes

instance (db : Db) (id : ℕ) : Decidable (RefinementFits db id) := by
  unfold RefinementFits
  infer_instance

theorem Changes.accounted (hI : I.WritesFields) (hc : Changes I A db db') (h : Accounted I db) :
    Accounted I db' := by
  induction hc with
  | refl => exact h
  | tail _ hc ih => exact hc.accounted hI ih

/-- The operations of a run that refine no turn to an interrupted one. -/
def noInterrupts : Allowed := ⟨fun _ => True, True, fun _ => True, False⟩

theorem resolveTurn_bounded (ha : Accounted I db) (h : InboundBounds db)
    (hroom : turn = .interrupted → RefinementFits db id)
    (hj : resolveTurnAndFinishInboundBatch now id turn db = .ok (o, db')) : InboundBounds db' := by
  obtain ⟨t, ht, rfl, hcount, ⟨-, rfl⟩ | ⟨hu, hres, hmarkers, inbound, rfl, hm⟩ |
    ⟨hlegal, hmarkers, inbound, rfl, hm⟩⟩ := resolveTurn_cases hj
  · exact h
  · rcases hres with rfl | rfl
    · have hc : Change I noInterrupts db _ :=
        .refine db now t .failed inbound ht hcount hu (.inl rfl) hm nofun
      exact hc.bounded id ha h
    · have h' : InboundBounds (db.resolveTurn now t.id (TurnResolution.interrupted).target.1) := h.of_inbound rfl
      refine h'.of_rewrite 2 hm (fun r hr hl => ?_) (fun r _ hl => by simp [InboundRow.refine, hl.2]) ?_
      · have hreason := ha.uncertain_reason ht hu hr hl
        have hbytes : optionBytes (TurnResolution.interrupted).target.2.2 = optionBytes (some "turn_uncertain") + 2 := by
          decide
        simp only [InboundRow.refine, InboundRow.logicalBytes, hreason]
        omega
      · rw [Nat.mul_comm]
        exact hroom rfl t (Table.get?_eq_some.2 ⟨ht, rfl⟩) hu hmarkers
  · have hc : Change I noInterrupts db _ := .finish db now t turn inbound ht hcount hlegal hmarkers hm
    exact hc.bounded id ha h

/-! ## Runs -/

/-- The step does not refine a turn to an interrupted one, or it finds room for the longer reasons. -/
def RefineRoom (w : Writer Db) : StoreEvent → Prop
  | .call (.reject _ _) _ _ => True
  | .call _ _ (.resolveTurnAndFinishInboundBatch id .interrupted .rejected) => w.alive = true → RefinementFits w.db id
  | _ => True

instance (w : Writer Db) : ∀ e, Decidable (RefineRoom w e) := by
  intro e
  unfold RefineRoom
  split <;> infer_instance

theorem storeStep_bounded {w : Writer Db} {e : StoreEvent} (hI : I.WritesFields)
    (h : Accounted I w.db ∧ InboundBounds w.db) (hroom : RefineRoom w e) :
    Accounted I (storeStep C I w e).db ∧ InboundBounds (storeStep C I w e).db := by
  by_cases hint : e.isInterrupt = true
  · have ha : Accounted I (storeStep C I w e).db := by
      have hc := storeStep_changes (C := C) (I := I) w e (within_anything e)
      exact hc.accounted hI h.1
    refine ⟨ha, ?_⟩
    cases e with
    | restart => exact h.2
    | call fate now op =>
      cases op with
      | resolveTurnAndFinishInboundBatch id turn inbound =>
        cases turn with
        | interrupted =>
          rw [storeStep, Writer.callOp]
          rcases call_takes w (InboundOp.resolveTurnAndFinishInboundBatch id .interrupted inbound).check fate
            (InboundOp.run C I now (.resolveTurnAndFinishInboundBatch id .interrupted inbound)) with
            hdb | ⟨⟨a, hcheck, hj⟩, halive, hfate⟩
          · rw [hdb]
            exact h.2
          · unfold InboundOp.run at hj
            obtain ⟨_, hj, -⟩ := answer_ok hj
            have hinbound : inbound = .rejected := by
              cases inbound with
              | rejected => rfl
              | completed => cases hcheck
            subst hinbound
            refine resolveTurn_bounded h.1 h.2 (fun _ => ?_) hj
            cases fate with
            | reject error stops => exact absurd rfl (hfate error stops)
            | execute => exact hroom halive
            | executeThenFail error => exact hroom halive
        | completed | failed | uncertain => cases hint
      | _ => cases hint
  · have hwithin : e.Within noInterrupts :=
      ⟨fun _ _ => trivial, fun _ => trivial, fun _ _ => trivial, fun hi => hint hi⟩
    exact (storeStep_changes w e hwithin).bounded hI id h.1 h.2

/-! ## The check of the inbox -/

/-- The computation does not fail for want of capacity. -/
def NoCapacityError {α : Type} (x : Except StoreError α) : Prop := ∀ context, x ≠ .error (.capacityExceeded context)

namespace NoCapacityError

variable {α β : Type}

theorem ok (a : α) : NoCapacityError (.ok a : Except StoreError α) := nofun

theorem corruptData (context : String) : NoCapacityError (.error (.corruptData context) : Except StoreError α) := nofun

theorem payloadTooLarge (context : String) (limit : ℕ) :
    NoCapacityError (.error (.payloadTooLarge context limit) : Except StoreError α) := nofun

theorem ite {p : Prop} [Decidable p] {x y : Except StoreError α} (hx : p → NoCapacityError x)
    (hy : ¬p → NoCapacityError y) : NoCapacityError (if p then x else y) := by
  split
  · next hp => exact hx hp
  · next hp => exact hy hp

theorem bind {x : Except StoreError α} {f : α → Except StoreError β} (hx : NoCapacityError x)
    (hf : ∀ a, x = .ok a → NoCapacityError (f a)) : NoCapacityError (x >>= f) := by
  intro context h
  rcases Fallible.bind_eq_error.1 h with h | ⟨a, ha, h⟩
  · exact hx context h
  · exact hf a ha context h

theorem forM {g : α → Except StoreError Unit} : ∀ {l : List α}, (∀ a ∈ l, NoCapacityError (g a)) → NoCapacityError (l.forM g)
  | [], _ => ok ()
  | _ :: _, h => bind (h _ List.mem_cons_self) fun _ _ => forM fun a ha => h a (List.mem_cons_of_mem _ ha)

theorem mapM {g : α → Except StoreError β} : ∀ {l : List α}, (∀ a ∈ l, NoCapacityError (g a)) → NoCapacityError (l.mapM g)
  | [], _ => by
    rw [List.mapM_nil]
    exact ok []
  | _ :: _, h => by
    rw [List.mapM_cons]
    exact bind (h _ List.mem_cons_self) fun _ _ =>
      bind (mapM fun a ha => h a (List.mem_cons_of_mem _ ha)) fun _ _ => ok _

end NoCapacityError

open NoCapacityError in
theorem validateId_noCapacityError (value context : String) : NoCapacityError (validateId value context) :=
  ite (fun _ => payloadTooLarge _ _) fun _ => .ok _

theorem validateOptionalId_noCapacityError (context : String) : ∀ value, NoCapacityError (validateOptionalId value context)
  | none => .ok _
  | some value => validateId_noCapacityError value context

open NoCapacityError in
theorem validateLength_noCapacityError (value context : String) (limit : ℕ) :
    NoCapacityError (validateLength value limit context) :=
  ite (fun _ => payloadTooLarge _ _) fun _ => .ok _

open NoCapacityError in
theorem validateMediaPart_noCapacityError (media : MediaPart) : NoCapacityError (validateMediaPart media) := by
  refine bind (.forM fun key _ => ite (fun _ => payloadTooLarge _ _) fun _ => .ok _) fun _ _ => ?_
  exact ite (fun _ => corruptData _) fun _ => ite (fun _ => corruptData _) fun _ => ite (fun _ => corruptData _) fun _ => .ok _

theorem validatePart_noCapacityError : ∀ part, NoCapacityError (validatePart part)
  | .text _ => validateLength_noCapacityError _ _ _
  | .image media | .file media | .sticker media | .audio media | .video media => validateMediaPart_noCapacityError media
  | .forward messageId _ => validateOptionalId_noCapacityError _ messageId
  | .card _ => .ok _
  | .unsupported _ _ => .ite (fun _ => .payloadTooLarge _ _) fun _ => .ok _

open NoCapacityError in
theorem validateIds_noCapacityError (event : InboundEvent) : NoCapacityError (validateIds event) :=
  bind (bind (validateId_noCapacityError _ _) fun _ _ => validateId_noCapacityError _ _) fun _ _ =>
    bind (validateId_noCapacityError _ _) fun _ _ => bind (validateId_noCapacityError _ _) fun _ _ =>
      bind (validateOptionalId_noCapacityError _ _) fun _ _ => bind (validateOptionalId_noCapacityError _ _) fun _ _ =>
        validateOptionalId_noCapacityError _ _

theorem validateScope_noCapacityError (event : InboundEvent) : NoCapacityError (validateScope event) := by
  unfold validateScope
  split <;> exact .ite (fun _ => .corruptData _) fun _ => .ok _

open NoCapacityError in
theorem validateMention_noCapacityError (mention : MentionIdentity) : NoCapacityError (validateMention mention) :=
  bind (.forM fun _ _ => validateLength_noCapacityError _ _ _) fun _ _ =>
    .forM fun _ _ => validateLength_noCapacityError _ _ _

/-- The counts of an event are the only capacities that its check knows. -/
theorem validateEvent_noCapacityError (hresources : event.resources = [])
    (hmentions : event.mentions.length ≤ storeInboundResourceMaxCount)
    (hparts : event.parts.length ≤ storeInboundResourceMaxCount) : NoCapacityError (validateEvent event) := by
  refine .bind (validateIds_noCapacityError _) fun _ _ => .bind (validateLength_noCapacityError _ _ _) fun _ _ =>
    .bind (validateScope_noCapacityError _) fun _ _ => .bind (validateLength_noCapacityError _ _ _) fun _ _ =>
    .bind (validateLength_noCapacityError _ _ _) fun _ _ => .bind ?_ fun _ _ => .bind ?_ fun _ _ =>
    .bind (.forM fun _ _ => validateMention_noCapacityError _) fun _ _ => .bind ?_ fun _ _ =>
    .forM fun _ _ => validatePart_noCapacityError _
  · rw [hresources]
    exact .ok _
  · rw [validateCount_eq_ok.2 hmentions]
    exact .ok _
  · rw [validateCount_eq_ok.2 hparts]
    exact .ok _

/-- What was stored of an event has few enough mentions and parts. -/
theorem intoEvent_noCapacityError (h : validateEvent event = .ok ()) :
    NoCapacityError (InboundPayloadV1.ofEvent (persistableEvent event)).intoEvent := by
  obtain ⟨-, -, -, -, -, -, hmentions, -, hparts, -⟩ := validateEvent_eq_ok.1 h
  have hscope : (InboundPayloadV1.ofEvent (persistableEvent event)).scope.intoScope = .ok event.scope :=
    ScopeWire.intoScope_ofScope event.scope
  refine .bind (hscope ▸ .ok _) fun scope _ => .bind (validateEvent_noCapacityError rfl hmentions ?_) fun _ _ => .ok _
  change (if (event.parts.map persistablePart).isEmpty then partsFromV1 event.messageType event.text []
    else event.parts.map persistablePart).length ≤ _
  by_cases hempty : (event.parts.map persistablePart).isEmpty = true
  · rw [if_pos hempty]
    unfold partsFromV1
    split
    · exact Nat.le_of_ble_eq_true rfl
    · split
      · exact Nat.le_of_ble_eq_true rfl
      · split <;> exact Nat.le_of_ble_eq_true rfl
  · rw [if_neg hempty, List.length_map]
    exact hparts

theorem Held.retained_noCapacityError (h : Held I r) : NoCapacityError (retainedFromStored I r) := by
  obtain ⟨event, payload, hblob, hencode⟩ := h.payload
  obtain ⟨hvalid, hread, -⟩ := encodeEvent_ok I hencode
  unfold retainedFromStored
  rw [hblob]
  refine .ite (fun _ => .corruptData _) fun _ => .ite (fun _ => .corruptData _) fun _ => ?_
  dsimp only
  refine .ite (fun _ => .corruptData _) fun _ => ?_
  rw [hread]
  exact .bind (intoEvent_noCapacityError hvalid) fun _ _ => .ite (fun _ => .corruptData _) fun _ => .ok _

theorem validateResolvedMarkers_noCapacityError (db : Db) (id count : ℕ) (expected : InboundEventState) :
    NoCapacityError (validateResolvedMarkers db id count expected) :=
  .ite (fun _ => .corruptData _) fun _ => .ok _

theorem validateRuntimeTurnGroup_noCapacityError (db : Db) (turn : Row TurnRow) :
    NoCapacityError (validateRuntimeTurnGroup db turn) :=
  .ite (fun _ => .ite (fun _ => .corruptData _) fun _ => .ok _) fun _ => .ite (fun _ => .corruptData _) fun _ =>
    validateResolvedMarkers_noCapacityError _ _ _ _

theorem validateTurnState_noCapacityError (stored : InboundRow) (turn : TurnRow) :
    NoCapacityError (validateTurnState stored turn) := by
  unfold validateTurnState
  split
  · exact .ite (fun _ => .ok _) fun _ => .corruptData _
  · exact .ite (fun _ => .ok _) fun _ => .corruptData _
  · refine .ite (fun _ => ?_) fun _ => .corruptData _
    split
    · exact .corruptData _
    · exact .ite (fun _ => .ok _) fun _ => .corruptData _
  · exact .corruptData _

theorem validateTurnAssociation_noCapacityError (db : Db) (stored : InboundRow) :
    NoCapacityError (validateTurnAssociation db stored) := by
  unfold validateTurnAssociation
  split
  · exact .corruptData _
  · split
    · exact .corruptData _
    · exact .ite (fun _ => .corruptData _) fun _ => .bind (validateTurnState_noCapacityError _ _) fun _ _ =>
        validateRuntimeTurnGroup_noCapacityError _ _

theorem validateRowState_noCapacityError (h : r.state.isTerminal = false → Held I r) :
    NoCapacityError (validateRowState I db r) := by
  unfold validateRowState
  split
  · next hs =>
    exact .ite (fun _ => .corruptData _) fun _ =>
      .bind (h (by rw [hs]; rfl)).retained_noCapacityError fun _ _ => .ok _
  · next hs =>
    exact .ite (fun _ => .corruptData _) fun _ =>
      .bind (h (by rw [hs]; rfl)).retained_noCapacityError fun _ _ => validateTurnAssociation_noCapacityError _ _
  all_goals exact .ite (fun _ => .corruptData _) fun _ => .ite (fun _ => .ite (fun _ => .corruptData _) fun _ =>
    validateTurnAssociation_noCapacityError _ _) fun _ => .ok _

theorem validateInboundReplyEffect_noCapacityError (r : InboundRow) : NoCapacityError (validateInboundReplyEffect r) := by
  unfold validateInboundReplyEffect
  split
  · exact .ok _
  · refine .ite (fun _ => .corruptData _) fun _ => .bind ?_ fun _ _ => .ite (fun _ => .corruptData _) fun _ => .ok _
    unfold replySuffix
    split
    · exact .ok _
    · exact .corruptData _
    · exact .ite (fun _ => .ok _) fun _ => .corruptData _
    · exact .corruptData _

theorem validateColumns_noCapacityError (r : InboundRow) : NoCapacityError (validateColumns r) := by
  have hbounded : ∀ value limit context, NoCapacityError (validateNonemptyBounded value limit context) :=
    fun _ _ _ => .ite (fun _ => .corruptData _) fun _ => .ok _
  exact .bind (hbounded _ _ _) fun _ _ => .bind (hbounded _ _ _) fun _ _ => .bind (hbounded _ _ _) fun _ _ =>
    .bind (hbounded _ _ _) fun _ _ => .ite (fun _ => .corruptData _) fun _ => .ite (fun _ => .corruptData _) fun _ => .ok _

/-- **Within the bounds, a recovery does not fail for want of capacity.** -/
theorem recoverReceived_noCapacityError (ha : Accounted I db) (h : InboundBounds db) :
    NoCapacityError (recoverReceived I tenant db) := by
  have hheld : ∀ r ∈ db.inbound.rows, r.val.state.isTerminal = false → Held I r.val := ha.held
  refine .bind ?_ fun _ _ => .bind (.mapM fun r hr => ?_) fun _ _ => .ok _
  · unfold validateInboundCollection
    rw [if_neg (by have := h.rows_le; have := h.bytes_le; have := h.received_le; have := h.receivedBytes_le; omega)]
    refine .ite (fun _ => .corruptData _) fun _ => .bind (.forM fun r hr => ?_) fun _ _ =>
      .forM fun t _ => validateRuntimeTurnGroup_noCapacityError db t
    have hr : r ∈ db.inbound.rows := (List.perm_insertionSort keyOrder _).mem_iff.1 hr
    exact .bind (validateColumns_noCapacityError _) fun _ _ => .bind (validateRowState_noCapacityError (hheld r hr))
      fun _ _ => validateInboundReplyEffect_noCapacityError _
  · have hr := (List.perm_insertionSort recoveryOrder _).mem_iff.1 hr
    obtain ⟨hr, hstate⟩ := List.mem_filter.1 (List.mem_of_mem_filter hr)
    have hstate : r.val.state = .received := by simpa using hstate
    exact (hheld r hr (by rw [hstate]; rfl)).retained_noCapacityError

/-- **The bounds hold in every run whose refinements find room**, and no recovery fails for want of capacity there. -/
theorem inbound_bounds (C : Codec) (I : InboundCodec) (hI : I.WritesFields) (es : List StoreEvent)
    (h : Along (storeStep C I) RefineRoom emptyStore es) :
    InboundBounds (storeAfter C I es).db ∧ ∀ tenant context,
      recoverReceived I tenant (storeAfter C I es).db ≠ .error (.capacityExceeded context) := by
  have hrun : Accounted I (storeAfter C I es).db ∧ InboundBounds (storeAfter C I es).db :=
    exec_invariant (I := fun w => Accounted I w.db ∧ InboundBounds w.db) (fun _ _ hw hroom => storeStep_bounded hI hw hroom)
      ⟨Accounted.empty, InboundBounds.empty⟩ h
  exact ⟨hrun.2, fun tenant => recoverReceived_noCapacityError hrun.1 hrun.2⟩

theorem codecOf_writesFields {entries : List (InboundPayloadV1 × ByteArray)} {hnodup}
    (h : ∀ entry ∈ entries, (payloadFields.map (·.utf8ByteSize + 3)).sum + entry.1.eventId.utf8ByteSize ≤ entry.2.size) :
    (codecOf entries hnodup).WritesFields := by
  intro dto payload hwrite
  obtain ⟨entry, hfind, rfl⟩ := Option.map_eq_some_iff.1 hwrite
  have hdto : entry.1 = dto := by simpa using List.find?_some hfind
  exact hdto ▸ h entry (List.mem_of_find?_eq_some hfind)

set_option maxRecDepth 20000 in
theorem inbound_bounds_messageRun :
    (storeAfter noOutbox helloCodec messageRun).db.logicalBytes = 96 ∧
    (InboundBounds (storeAfter noOutbox helloCodec messageRun).db ∧ ∀ tenant context,
      recoverReceived helloCodec tenant (storeAfter noOutbox helloCodec messageRun).db ≠ .error (.capacityExceeded context)) :=
  ⟨by decide, inbound_bounds noOutbox helloCodec (codecOf_writesFields (by decide)) messageRun
    (by decide)⟩

/-! ## A refinement that exceeds the bound -/

/-- A call that is taken and succeeds. -/
theorem storeStep_of_ok {w : Writer Db} {op : InboundOp} (reply : OpReply) (halive : w.alive = true)
    (hcheck : op.check = .ok ()) (hrun : op.run C I now w.db = .ok (reply, db')) :
    storeStep C I w (.call .execute now op) = { db := db', alive := true } := by
  simp [storeStep, Writer.callOp, Writer.call, Writer.runSized, hcheck, halive, hrun]

/-- The rows of the inbox without their numbers. -/
def Db.columns (db : Db) : List InboundRow := db.inbound.rows.map (·.val)

theorem logicalBytes_columns (db : Db) : db.logicalBytes = (db.columns.map InboundRow.logicalBytes).sum := by
  simp [Db.logicalBytes, Db.columns, Function.comp_def]

/-- An event whose key and message are new is registered where there is room. -/
theorem registerInbound_fresh (now : ℤ) (tenant : TenantNamespace) (hkey : ∀ r ∈ db.columns, r.eventId ≠ event.eventId)
    (hmessage : ∀ r ∈ db.columns, r.messageId ≠ event.messageId) (hencode : encodeEvent I event = .ok payload)
    (hroom : ensureInboundCapacity db (receivedRow now tenant event payload).logicalBytes payload.size = .ok ()) :
    ∃ o db', registerInbound I now tenant event db = .ok (o, db') ∧ db'.turns = db.turns ∧
      db'.columns = db.columns ++ [receivedRow now tenant event payload] := by
  have hcolumns : ∀ r ∈ db.inbound.rows, r.val ∈ db.columns := fun r hr => List.mem_map_of_mem hr
  have hlookup : db.inbound.lookup (tenant.asHex, event.eventId) = none :=
    Table.lookup_eq_none.2 fun r hr hk => hkey _ (hcolumns r hr) (congrArg Prod.snd hk)
  have hread : readInboundRow db (tenant.asHex, event.eventId) = none := by rw [readInboundRow, hlookup]; rfl
  have hcandidates : readMessageCandidates db tenant.asHex event.messageId = [] := by
    refine List.map_eq_nil_iff.2 (List.filter_eq_nil_iff.2 fun r hr => ?_)
    have := hmessage _ (hcolumns r hr)
    simp [this]
  have hne := Table.lookup_eq_none.1 hlookup
  have hfresh : db.inbound.insertOrIgnore (receivedRow now tenant event payload) =
      some (db.inbound.insert (receivedRow now tenant event payload) hne) := by
    unfold Table.insertOrIgnore
    split
    · next h => exact absurd (h.symm.trans hlookup) (by simp)
    · rfl
  refine ⟨.new ⟨event, payload.size⟩,
    { db with inbound := db.inbound.insert (receivedRow now tenant event payload) hne }, ?_, rfl, ?_⟩
  swap
  · simp [Db.columns, Table.insert]
  unfold registerInbound
  rw [hread, hcandidates]
  refine bind_eq_ok.2 ⟨payload, hencode, seq_eq_ok.2 ⟨hroom, bind_eq_ok.2 ⟨_, ?_, rfl⟩⟩⟩
  unfold Db.insertInbound
  rw [hfresh]
  simp [v2Shape, v12ReplyEffect, receivedRow]

theorem completeReceivedWithoutTurn_fresh (now : ℤ) (key : InboundKey) {retained : RetainedInbound}
    (hr : r ∈ db.columns) (hk : r.key = key.key) (hs : r.state = .received) (hturn : r.turnRowId = none)
    (hmarker : r.replyOutboxKey = none) (hretained : retainedFromStored I r = .ok retained) :
    ∃ d db', completeReceivedWithoutTurn I now key db = .ok (d, db') ∧ db'.turns = db.turns ∧
      db'.columns = db.columns.map fun s => if s.key = key.key then r.complete now else s := by
  obtain ⟨q, hq, rfl⟩ := List.mem_map.1 hr
  have hread : readInboundRow db key.key = some q.val := by
    rw [readInboundRow, Table.lookup_eq_some.2 ⟨hq, hk⟩]
    rfl
  have hchosen : ∀ s ∈ db.inbound.rows, isUnclaimed key.key s.val = decide (s.val.key = key.key) := by
    intro s hsmem
    by_cases hsk : s.val.key = key.key
    · rw [Table.eq_of_key hsmem hq (hsk.trans hk.symm)]
      simp [isUnclaimed, hk, hs, hturn]
    · simp [isUnclaimed, hsk]
  have hone : (db.inbound.rows.filter fun s => isUnclaimed key.key s.val) = [q] := by
    rw [List.filter_congr hchosen]
    have hle := filter_key_length_le db.inbound key.key
    have hmem : q ∈ db.inbound.rows.filter fun s => decide (s.val.key = key.key) :=
      List.mem_filter.2 ⟨hq, by simpa using hk⟩
    generalize (db.inbound.rows.filter fun s => decide (s.val.key = key.key)) = l at hle hmem
    rcases l with _ | ⟨s, _ | ⟨s', l⟩⟩
    · cases hmem
    · rw [List.mem_singleton.1 hmem]
    · simp at hle
  refine ⟨.completed, { db with inbound := db.inbound.updateWhere (isUnclaimed key.key ·.val) (InboundRow.complete now) }, ?_,
    rfl, ?_⟩
  · unfold completeReceivedWithoutTurn
    rw [hread]
    dsimp only
    rw [hs]
    refine bind_eq_ok.2 ⟨retained, hretained, bind_eq_ok.2 ⟨_, ?_, rfl⟩⟩
    have hallowed : updateAllowed db.turns q.val (q.val.complete now) = true := by
      simp [updateAllowed, v2Shape, v12ReplyEffect, InboundRow.complete, InboundRow.finish, hturn, hmarker]
    simp [Db.updateOne, Db.updateInbound, hone, hallowed]
  · simp only [Db.columns, Table.updateWhere, List.map_map]
    refine List.map_congr_left fun s hsmem => ?_
    simp only [Function.comp_apply, Row.update, hchosen s hsmem, decide_eq_true_eq]
    split
    · next hsk =>
      rw [Table.eq_of_key hsmem hq (hsk.trans hk.symm)]
    · rfl

/-- A text of `n` equal ASCII characters. -/
theorem utf8ByteSize_replicate {c : Char} (hc : c.utf8Size = 1) : ∀ n : ℕ,
    (String.ofList (List.replicate n c)).utf8ByteSize = n
  | 0 => rfl
  | n + 1 => by
    have hsplit : String.ofList (List.replicate (n + 1) c) = String.singleton c ++ String.ofList (List.replicate n c) := by
      rw [String.singleton_eq_ofList, ← String.ofList_append]
      rfl
    rw [hsplit, String.utf8ByteSize_append, String.utf8ByteSize_singleton, hc, utf8ByteSize_replicate hc n, Nat.add_comm]

/-- The longest id with `i` leading `x`. -/
def wideId (i : ℕ) : String :=
  String.ofList (List.replicate i 'x') ++ String.ofList (List.replicate (storeInboundIdMaxBytes - i) 'y')

variable {i : ℕ}

theorem utf8ByteSize_wideId (h : i ≤ storeInboundIdMaxBytes) : (wideId i).utf8ByteSize = storeInboundIdMaxBytes := by
  rw [wideId, String.utf8ByteSize_append, utf8ByteSize_replicate rfl, utf8ByteSize_replicate rfl]
  omega

theorem count_wideId (i : ℕ) : (wideId i).toList.count 'x' = i := by
  simp [wideId, List.count_replicate]

theorem wideId_injective : Function.Injective wideId := fun i j h => by
  rw [← count_wideId i, ← count_wideId j, h]

def wideChat : String := String.ofList (List.replicate storeInboundIdMaxBytes 'c')

def wideThread : String := String.ofList (List.replicate storeInboundIdMaxBytes 't')

/-- How many rounds come before the last registration. -/
def wideRounds : ℕ := 4000

/-- The last message is as long as it has to be. -/
def wideText (i : ℕ) : String := if i = wideRounds then String.ofList (List.replicate 615675 'a') else "hi"

/-- A message of a topic whose identifiers are as long as they may be. -/
def wideEvent (i : ℕ) : InboundEvent where
  eventId := wideId i
  messageId := wideId i
  chatId := wideChat
  senderId := "ou_1"
  chatType := .topic
  threadId := some wideThread
  rootId := none
  replyToMessageId := none
  text := wideText i
  mentionsBot := false
  mentionAll := false
  senderIsHuman := true
  mentions := []
  parts := [.text (wideText i)]
  resources := []
  messageType := "text"
  createTimeMs := 1
  scope := .thread wideChat wideThread

/-- Fixed texts, each with a value behind it, and a last one. -/
def weave (fields : List (String × String)) (last : String) : String :=
  fields.foldr (fun field rest => field.1 ++ (field.2 ++ rest)) last

theorem utf8ByteSize_weave (last : String) : ∀ fields : List (String × String), (weave fields last).utf8ByteSize =
    (fields.map (·.1.utf8ByteSize)).sum + (fields.map (·.2.utf8ByteSize)).sum + last.utf8ByteSize
  | [] => by simp [weave]
  | field :: fields => by
    have ih := utf8ByteSize_weave last fields
    simp only [weave, List.foldr_cons, String.utf8ByteSize_append, List.map_cons, List.sum_cons] at ih ⊢
    omega

/-- The texts of the event above between their neighbours in its JSON text. -/
def wideFields (i : ℕ) : List (String × String) :=
  [("\x7b\"event_id\":\"", wideId i), ("\",\"message_id\":\"", wideId i), ("\",\"chat_id\":\"", wideChat),
   ("\",\"sender_id\":\"ou_1\",\"chat_type\":\"topic\",\"thread_id\":\"", wideThread),
   ("\",\"root_id\":null,\"reply_to_message_id\":null,\"text\":\"", wideText i),
   ("\",\"mentions_bot\":false,\"mention_all\":false,\"sender_is_human\":true,\"mentions\":[],\"parts\":[\x7b\"kind\":" ++
      "\"text\",\"value\":\x7b\"text\":\"", wideText i),
   ("\"\x7d\x7d],\"resources\":[],\"message_type\":\"text\",\"create_time_ms\":1,\"scope\":\x7b\"kind\":\"thread\"," ++
      "\"chat_id\":\"", wideChat),
   ("\",\"thread_id\":\"", wideThread)]

/-- What `serde_json` writes for the event. -/
def wideJson (i : ℕ) : String := weave (wideFields i) "\"\x7d\x7d"

theorem utf8ByteSize_wideChat : wideChat.utf8ByteSize = 4096 := utf8ByteSize_replicate rfl _

theorem utf8ByteSize_wideThread : wideThread.utf8ByteSize = 4096 := utf8ByteSize_replicate rfl _

theorem utf8ByteSize_wideJson (h : i ≤ 4096) :
    (wideJson i).utf8ByteSize = 24960 + 2 * (wideText i).utf8ByteSize := by
  have hid : (wideId i).utf8ByteSize = 4096 := utf8ByteSize_wideId h
  have hfixed : ((wideFields i).map (·.1.utf8ByteSize)).sum + "\"\x7d\x7d".utf8ByteSize = 384 := by
    simp only [wideFields, List.map_cons, List.map_nil, String.utf8ByteSize_append]
    rfl
  have hvalues : ((wideFields i).map (·.2.utf8ByteSize)).sum = 24576 + 2 * (wideText i).utf8ByteSize := by
    simp only [wideFields, List.map_cons, List.map_nil, List.sum_cons, List.sum_nil, hid, utf8ByteSize_wideChat,
      utf8ByteSize_wideThread]
    omega
  rw [wideJson, utf8ByteSize_weave]
  omega

/-- The ids differ, and stand at the same place. -/
theorem wideJson_injective {j : ℕ} (hi : i ≤ 4096) (hj : j ≤ 4096) (h : wideJson i = wideJson j) : i = j := by
  have hlength : ∀ k ≤ 4096, (wideId k).toList.length = 4096 := by
    intro k hk
    simp [wideId, storeInboundIdMaxBytes]
    omega
  have h := congrArg String.toList h
  simp only [wideJson, weave, wideFields, List.foldr_cons, String.toList_append] at h
  obtain ⟨hid, -⟩ := List.append_inj (List.append_cancel_left h) ((hlength i hi).trans (hlength j hj).symm)
  exact wideId_injective (String.toList_inj.1 hid)

/-- The message that was resolved as uncertain before, and the long ones. -/
def wideEntries : List (InboundPayloadV1 × ByteArray) :=
  (.ofEvent (persistableEvent (helloEvent "evt_1")), helloPayload "evt_1") ::
    (List.range (wideRounds + 1)).map fun i => (.ofEvent (persistableEvent (wideEvent i)), (wideJson i).toUTF8)

theorem size_helloPayload : (helloPayload "evt_1").size = 411 := by
  change String.utf8ByteSize (_ ++ _) = 411
  simp only [String.utf8ByteSize_append]
  rfl

theorem nodup_payloads : (wideEntries.map (·.2.data.toList)).Nodup := by
  have hinj : ∀ {a b : ByteArray}, a.data.toList = b.data.toList → a = b := fun h => by
    exact ByteArray.ext (Array.toList_inj.1 h)
  rw [wideEntries, List.map_cons, List.map_map, List.nodup_cons]
  refine ⟨fun hmem => ?_, List.Nodup.map_on (fun i hi j hj h => ?_) List.nodup_range⟩
  · obtain ⟨i, hi, heq⟩ := List.mem_map.1 hmem
    have hi : i ≤ 4096 := (Nat.lt_succ_iff.1 (List.mem_range.1 hi)).trans (by decide)
    have hsize := congrArg ByteArray.size (hinj heq)
    have hjson := utf8ByteSize_wideJson hi
    have hsize : (wideJson i).utf8ByteSize = (helloPayload "evt_1").size := hsize
    have := size_helloPayload
    omega
  · have hi : i ≤ 4096 := (Nat.lt_succ_iff.1 (List.mem_range.1 hi)).trans (by decide)
    have hj : j ≤ 4096 := (Nat.lt_succ_iff.1 (List.mem_range.1 hj)).trans (by decide)
    exact wideJson_injective hi hj (String.toByteArray_inj.1 (hinj h))

def wideCodec : InboundCodec := codecOf wideEntries nodup_payloads

/-- The codec writes what its list says, as long as the list names each shape once. -/
theorem codecOf_toVec {entries : List (InboundPayloadV1 × ByteArray)} {hnodup} (hshapes : (entries.map (·.1)).Nodup)
    {entry : InboundPayloadV1 × ByteArray} (h : entry ∈ entries) : (codecOf entries hnodup).toVec entry.1 = some entry.2 := by
  cases hf : entries.find? (·.1 = entry.1) with
  | none => exact absurd (List.find?_eq_none.1 hf entry h) (by simp)
  | some other =>
    have hfst : other.1 = entry.1 := by simpa using List.find?_some hf
    have heq := List.inj_on_of_nodup_map hshapes (List.mem_of_find?_eq_some hf) h hfst
    change (entries.find? (·.1 = entry.1)).map (·.2) = some entry.2
    rw [hf, heq]
    rfl

theorem nodup_shapes : (wideEntries.map (·.1)).Nodup := by
  rw [wideEntries, List.map_cons, List.map_map, List.nodup_cons]
  refine ⟨fun hmem => ?_, List.Nodup.map_on (fun i hi j hj h => ?_) List.nodup_range⟩
  · obtain ⟨i, hi, heq⟩ := List.mem_map.1 hmem
    have hi : i ≤ 4096 := (Nat.lt_succ_iff.1 (List.mem_range.1 hi)).trans (by decide)
    have hid : wideId i = "evt_1" := congrArg InboundPayloadV1.eventId heq
    have hsize := utf8ByteSize_wideId hi
    rw [hid] at hsize
    revert hsize
    decide
  · exact wideId_injective (congrArg InboundPayloadV1.eventId h)

theorem wideCodec_writesFields : wideCodec.WritesFields := by
  have hfields : (payloadFields.map (·.utf8ByteSize + 3)).sum = 227 := rfl
  have hhello : 227 + "evt_1".utf8ByteSize ≤ (helloPayload "evt_1").size := by
    rw [size_helloPayload]
    decide
  refine codecOf_writesFields (List.forall_mem_cons.2 ⟨hhello, fun entry hentry => ?_⟩)
  obtain ⟨i, hi, rfl⟩ := List.mem_map.1 hentry
  have hi : i ≤ 4096 := (Nat.lt_succ_iff.1 (List.mem_range.1 hi)).trans (by decide)
  have hjson := utf8ByteSize_wideJson hi
  have hid : (wideId i).utf8ByteSize = 4096 := utf8ByteSize_wideId hi
  change (payloadFields.map (·.utf8ByteSize + 3)).sum + (wideId i).utf8ByteSize ≤ (wideJson i).utf8ByteSize
  omega

theorem utf8ByteSize_wideText_le (i : ℕ) : (wideText i).utf8ByteSize ≤ 615675 := by
  unfold wideText
  split
  · rw [utf8ByteSize_replicate rfl]
  · exact Nat.le_of_ble_eq_true rfl

theorem validateId_of_size {value : String} (context : String) (hpos : 0 < value.utf8ByteSize)
    (hsize : value.utf8ByteSize ≤ storeInboundIdMaxBytes) : validateId value context = .ok () := by
  have hempty : value.isEmpty = false := by
    rw [Bool.eq_false_iff]
    intro he
    have : value.utf8ByteSize = 0 := by simpa using he
    omega
  rw [validateId, if_neg]
  rw [hempty]
  simpa using hsize

theorem validateEvent_wideEvent (h : i ≤ 4096) : validateEvent (wideEvent i) = .ok () := by
  have hid : ∀ context, validateId (wideId i) context = .ok () := fun context =>
    validateId_of_size context (by rw [utf8ByteSize_wideId h]; decide) (utf8ByteSize_wideId h).le
  have hchat : ∀ context, validateId wideChat context = .ok () := fun context =>
    validateId_of_size context (by rw [utf8ByteSize_wideChat]; decide) utf8ByteSize_wideChat.le
  have hthread : ∀ context, validateId wideThread context = .ok () := fun context =>
    validateId_of_size context (by rw [utf8ByteSize_wideThread]; decide) utf8ByteSize_wideThread.le
  have hscope : (ScopeKey.toString (.thread wideChat wideThread)).utf8ByteSize = 8203 := by
    simp only [ScopeKey.toString, String.utf8ByteSize_append, utf8ByteSize_wideChat, utf8ByteSize_wideThread]
    decide
  have htext : (wideText i).utf8ByteSize ≤ storeInboundTextMaxBytes := (utf8ByteSize_wideText_le i).trans (by decide)
  refine validateEvent_eq_ok.2 ⟨?_, ?_, ?_, Nat.le_of_ble_eq_true rfl, htext, rfl, Nat.le_of_ble_eq_true rfl,
    by simp [wideEvent], Nat.le_of_ble_eq_true rfl, ?_⟩
  · exact seq_eq_ok.2 ⟨seq_eq_ok.2 ⟨hid _, hid _⟩, seq_eq_ok.2 ⟨hchat _, seq_eq_ok.2 ⟨rfl, seq_eq_ok.2 ⟨hthread _, rfl⟩⟩⟩⟩
  · exact hscope.le.trans (by decide)
  · simp [validateScope, wideEvent]
  · simp only [wideEvent, List.mem_singleton, forall_eq]
    exact validateLength_eq_ok.2 htext

def widePayload (i : ℕ) : ByteArray := (wideJson i).toUTF8

theorem size_widePayload (h : i ≤ 4096) : (widePayload i).size = 24960 + 2 * (wideText i).utf8ByteSize :=
  utf8ByteSize_wideJson h

theorem encodeEvent_wideEvent (h : i ≤ wideRounds) : encodeEvent wideCodec (wideEvent i) = .ok (widePayload i) := by
  have hi : i ≤ 4096 := h.trans (by decide)
  have hmem : (InboundPayloadV1.ofEvent (persistableEvent (wideEvent i)), widePayload i) ∈ wideEntries :=
    List.mem_cons_of_mem _ (List.mem_map.2 ⟨i, List.mem_range.2 (Nat.lt_succ_of_le h), rfl⟩)
  have hwrite : wideCodec.toVec (.ofEvent (persistableEvent (wideEvent i))) = some (widePayload i) :=
    codecOf_toVec nodup_shapes hmem
  have hsize := size_widePayload hi
  have htext := utf8ByteSize_wideText_le i
  refine seq_eq_ok.2 ⟨validateEvent_wideEvent hi, ?_⟩
  rw [hwrite]
  dsimp only
  rw [if_neg (by simp only [storeInboundPayloadMaxBytes]; omega)]

/-- A received long message. -/
def wideReceived (i : ℕ) : InboundRow := receivedRow 2000 sampleTenant (wideEvent i) (widePayload i)

def wideDone (i : ℕ) : InboundRow := (wideReceived i).complete 2001

/-- The row of the turn whose outcome is unknown. -/
def uncertainRow : InboundRow where
  tenant := sampleTenant.asHex
  eventId := "evt_1"
  messageId := "om_1"
  scopeKey := "im:oc_1"
  state := .rejected
  firstSeenMs := 1000
  updatedMs := 1003
  rejectionReason := some "turn_uncertain"
  payloadVersion := none
  payloadBlob := none
  payloadBytes := 0
  turnRowId := some 1
  replyOutboxKey := none

/-- A message is registered, claimed and run, and its turn is resolved as uncertain. -/
def uncertainRun : List StoreEvent :=
  [.call .execute 1000 (.registerInbound sampleTenant (helloEvent "evt_1")),
   .call .execute 1001 (.beginTurnAndClaimInbound ⟨"im:oc_1", "client-1", none, .starting⟩ [(helloKey "evt_1", none)]),
   .call .execute 1002 (.setTurnState 1 .running (some "turn-1")),
   .call .execute 1003 (.resolveTurnAndFinishInboundBatch 1 .uncertain .rejected)]

/-- A long message comes and is completed without a turn. -/
def wideRound (i : ℕ) : List StoreEvent :=
  [.call .execute 2000 (.registerInbound sampleTenant (wideEvent i)),
   .call .execute 2001 (.completeReceivedWithoutTurn ⟨sampleTenant, wideId i⟩)]

/-- The inbox after `n` rounds. -/
structure Filled (n : ℕ) (w : Writer Db) : Prop where
  alive : w.alive = true
  turns : w.db.turns.rows =
    [⟨1, 0, ⟨"im:oc_1", "client-1", none, some "turn-1", .uncertain, false, 1001, 1003, 1⟩⟩]
  columns : w.db.columns = uncertainRow :: (List.range n).map wideDone

set_option maxRecDepth 20000 in
theorem filled_uncertainRun : Filled 0 (storeAfter noOutbox wideCodec uncertainRun) where
  alive := by decide
  turns := by decide
  columns := by decide

theorem utf8ByteSize_wideText_of_lt (h : i < wideRounds) : (wideText i).utf8ByteSize = 2 := by
  rw [wideText, if_neg (Nat.ne_of_lt h)]
  decide

theorem utf8ByteSize_wideText_last : (wideText wideRounds).utf8ByteSize = 615675 := by
  rw [wideText, if_pos rfl]
  exact utf8ByteSize_replicate rfl _

theorem logicalBytes_wideReceived (h : i ≤ 4096) :
    (wideReceived i).logicalBytes = 41419 + 2 * (wideText i).utf8ByteSize := by
  have hid : (wideId i).utf8ByteSize = 4096 := utf8ByteSize_wideId h
  have htenant : sampleTenant.asHex.utf8ByteSize = 64 := rfl
  have hpayload := size_widePayload h
  have him : "im:".utf8ByteSize = 3 := by decide
  have hthread : ":thread:".utf8ByteSize = 8 := by decide
  simp only [wideReceived, receivedRow, InboundRow.logicalBytes, wideEvent, ScopeKey.toString, String.utf8ByteSize_append,
    utf8ByteSize_wideChat, utf8ByteSize_wideThread, optionBytes, Option.map_none, Option.getD_none]
  omega

theorem logicalBytes_wideDone (h : i ≤ 4096) : (wideDone i).logicalBytes = 16459 := by
  have hreceived := logicalBytes_wideReceived h
  have hpayload : (wideReceived i).payloadBytes = 24960 + 2 * (wideText i).utf8ByteSize := size_widePayload h
  simp only [wideDone, InboundRow.complete, InboundRow.finish, InboundRow.logicalBytes] at hreceived ⊢
  omega

theorem sum_map_eq {α : Type} {f : α → ℕ} {d : ℕ} : ∀ {l : List α}, (∀ a ∈ l, f a = d) → (l.map f).sum = l.length * d
  | [], _ => by simp
  | a :: l, h => by
    obtain ⟨ha, hl⟩ := List.forall_mem_cons.1 h
    rw [List.map_cons, List.sum_cons, ha, sum_map_eq hl, List.length_cons, Nat.succ_mul, Nat.add_comm]

/-- The long rows of `n` rounds. -/
theorem sum_wideDone {n : ℕ} (h : n ≤ 4096) : (((List.range n).map wideDone).map InboundRow.logicalBytes).sum = n * 16459 := by
  have hrows : ∀ r ∈ (List.range n).map wideDone, r.logicalBytes = 16459 := by
    intro r hr
    obtain ⟨i, hi, rfl⟩ := List.mem_map.1 hr
    exact logicalBytes_wideDone ((List.mem_range.1 hi).le.trans h)
  rw [sum_map_eq hrows, List.length_map, List.length_range]

variable {n : ℕ} {w : Writer Db}

theorem Filled.logicalBytes (h : Filled n w) (hn : n ≤ 4096) : w.db.logicalBytes = 94 + n * 16459 := by
  have hrow : uncertainRow.logicalBytes = 94 := rfl
  rw [logicalBytes_columns, h.columns, List.map_cons, List.sum_cons, sum_wideDone hn, hrow]

/-- There is room for the next long message. -/
theorem Filled.room (h : Filled n w) (hn : n ≤ wideRounds) :
    ensureInboundCapacity w.db (wideReceived n).logicalBytes (widePayload n).size = .ok () := by
  have hn' : n ≤ 4096 := hn.trans (by decide)
  have hlength : w.db.inbound.rows.length = n + 1 := by
    have := congrArg List.length h.columns
    simpa [Db.columns] using this
  have hreceived : w.db.receivedRows = [] := by
    refine List.filter_eq_nil_iff.2 fun r hr => ?_
    have hmem : r.val ∈ w.db.columns := List.mem_map_of_mem hr
    rw [h.columns] at hmem
    rcases List.mem_cons.1 hmem with heq | hmem
    · simp [heq, uncertainRow]
    · obtain ⟨i, -, heq⟩ := List.mem_map.1 hmem
      simp [← heq, wideDone, InboundRow.complete, InboundRow.finish]
  have hbytes : 94 + n * 16459 + (41419 + 2 * (wideText n).utf8ByteSize) ≤ storeInboundMaxBytes := by
    rcases Nat.lt_or_eq_of_le hn with hlt | rfl
    · rw [utf8ByteSize_wideText_of_lt hlt]
      simp only [storeInboundMaxBytes, wideRounds] at hlt ⊢
      omega
    · rw [utf8ByteSize_wideText_last]
      decide
  have htext := utf8ByteSize_wideText_le n
  have hsize := size_widePayload hn'
  have hreceivedBytes : w.db.receivedBytes = 0 := by rw [Db.receivedBytes, hreceived]; rfl
  unfold ensureInboundCapacity
  rw [h.logicalBytes hn', logicalBytes_wideReceived hn', hlength, hreceived, hreceivedBytes, if_neg]
  simp only [storeInboundMaxRows, storeInboundReceivedMaxRows, storeInboundReceivedMaxBytes, List.length_nil, wideRounds]
    at hn ⊢
  omega

/-- The next long message is new. -/
theorem Filled.old (h : Filled n w) (hn : n ≤ wideRounds) :
    ∀ r ∈ w.db.columns, r.eventId ≠ wideId n ∧ r.messageId ≠ wideId n := by
  intro r hr
  rw [h.columns] at hr
  rcases List.mem_cons.1 hr with rfl | hr
  · have hsize : (wideId n).utf8ByteSize = 4096 := utf8ByteSize_wideId (hn.trans (by decide))
    refine ⟨fun heq => ?_, fun heq => ?_⟩
    all_goals
      rw [← heq] at hsize
      revert hsize
      decide
  · obtain ⟨i, hi, rfl⟩ := List.mem_map.1 hr
    have hne : wideId i ≠ wideId n := fun heq => absurd (wideId_injective heq) (Nat.ne_of_lt (List.mem_range.1 hi))
    exact ⟨hne, hne⟩

/-- The next long message is registered. -/
theorem Filled.receive (h : Filled n w) (hn : n ≤ wideRounds) :
    ∃ db', storeStep noOutbox wideCodec w (.call .execute 2000 (.registerInbound sampleTenant (wideEvent n))) =
      { db := db', alive := true } ∧ db'.turns = w.db.turns ∧ db'.columns = w.db.columns ++ [wideReceived n] := by
  obtain ⟨o, db', hrun, hturns, hcolumns⟩ := registerInbound_fresh (I := wideCodec) 2000 sampleTenant
    (fun r hr => (h.old hn r hr).1) (fun r hr => (h.old hn r hr).2) (encodeEvent_wideEvent hn) (h.room hn)
  have hcheck : validateIncomingKey (wideEvent n) = .ok () := by
    obtain ⟨hids, -⟩ := validateEvent_eq_ok.1 (validateEvent_wideEvent (hn.trans (by decide)))
    exact (seq_eq_ok.1 hids).1
  refine ⟨db', storeStep_of_ok (.registered o) h.alive hcheck ?_, hturns, hcolumns⟩
  rw [InboundOp.run, Job.answer, hrun]
  rfl

theorem Filled.round (h : Filled n w) (hn : n ≤ wideRounds) :
    Filled (n + 1) (exec (storeStep noOutbox wideCodec) w (wideRound n)) := by
  obtain ⟨db', hstep, hturns, hcolumns⟩ := h.receive hn
  have hretained : retainedFromStored wideCodec (wideReceived n) = .ok ⟨replayEvent (wideEvent n), _⟩ :=
    retained_receivedRow (encodeEvent_wideEvent hn) (.inl (by simp [wideEvent]))
  have hmem : wideReceived n ∈ db'.columns := by simp [hcolumns]
  obtain ⟨d, db'', hrun, hturns', hcolumns'⟩ := completeReceivedWithoutTurn_fresh (I := wideCodec) 2001
    ⟨sampleTenant, wideId n⟩ hmem rfl rfl rfl rfl hretained
  have hstep' : storeStep noOutbox wideCodec { db := db', alive := true }
      (.call .execute 2001 (.completeReceivedWithoutTurn ⟨sampleTenant, wideId n⟩)) = { db := db'', alive := true } := by
    refine storeStep_of_ok .done rfl rfl ?_
    rw [InboundOp.run, Job.answer, hrun]
    rfl
  rw [wideRound, exec_cons, hstep, exec_cons, hstep', exec_nil]
  refine ⟨rfl, ?_, ?_⟩
  · rw [hturns', hturns, h.turns]
  · have hother : w.db.columns.map (fun s => if s.key = InboundKey.key ⟨sampleTenant, wideId n⟩ then
        (wideReceived n).complete 2001 else s) = w.db.columns := by
      refine (List.map_congr_left fun r hr => if_neg fun heq => ?_).trans (List.map_id _)
      exact (h.old hn r hr).1 (congrArg Prod.snd heq)
    rw [hcolumns', hcolumns, List.map_append, hother, h.columns, List.range_succ, List.map_append]
    simp [wideDone, wideReceived, receivedRow, InboundRow.key, InboundKey.key, wideEvent]

theorem resolveTurn_uncertainRow {rest : List InboundRow}
    (hturns : db.turns.rows = [⟨1, 0, ⟨"im:oc_1", "client-1", none, some "turn-1", .uncertain, false, 1001, 1003, 1⟩⟩])
    (hcolumns : db.columns = uncertainRow :: rest) (hrest : ∀ r ∈ rest, r.turnRowId = none) :
    ∃ o db', resolveTurnAndFinishInboundBatch 3000 1 .interrupted db = .ok (o, db') ∧
      db'.columns = uncertainRow.refine 3000 (some "turn_interrupted") :: rest := by
  obtain ⟨q, rows, hrows, hq, hvals⟩ := List.map_eq_cons_iff.1 hcolumns
  have hfree : ∀ r ∈ rows, r.val.turnRowId = none := fun r hr => hrest _ (hvals ▸ List.mem_map_of_mem hr)
  have hlinked : db.linked 1 = [q] := by
    rw [Db.linked, hrows, List.filter_cons_of_pos (by simp [hq, uncertainRow]), List.filter_eq_nil_iff.2]
    intro r hr
    simp [hfree r hr]
  have hchosen : (db.inbound.rows.filter fun r => isLinked 1 .rejected r.val) = [q] := by
    rw [hrows, List.filter_cons_of_pos (by simp [hq, uncertainRow, isLinked]), List.filter_eq_nil_iff.2]
    intro r hr
    simp [isLinked, hfree r hr]
  have hget : db.turns.get? 1 =
      some ⟨1, 0, ⟨"im:oc_1", "client-1", none, some "turn-1", .uncertain, false, 1001, 1003, 1⟩⟩ :=
    Table.get?_eq_some.2 ⟨by rw [hturns]; exact List.mem_cons_self, rfl⟩
  have hmarkers : validateResolvedMarkers db 1 1 .rejected = .ok () := by
    unfold validateResolvedMarkers
    rw [hlinked]
    simp [hq, uncertainRow]
  have hallowed : updateAllowed (db.resolveTurn 3000 1 .interrupted).turns uncertainRow
      (uncertainRow.refine 3000 (some "turn_interrupted")) = true := by
    simp [updateAllowed, v2Shape, v12ReplyEffect, InboundRow.refine, uncertainRow, Db.resolveTurn, Table.updateWhere, hturns,
      Row.update, TurnRow.resolve]
  refine ⟨.resolved 1, { db.resolveTurn 3000 1 .interrupted with
    inbound := db.inbound.updateWhere (isLinked 1 .rejected ·.val) (InboundRow.refine 3000 (some "turn_interrupted")) }, ?_, ?_⟩
  · unfold resolveTurnAndFinishInboundBatch
    rw [hget]
    simp only [TurnResolution.target]
    unfold refineTurn
    have hupdate : (db.resolveTurn 3000 1 .interrupted).updateInbound "refining uncertain inbound markers"
        (isLinked 1 .rejected) (InboundRow.refine 3000 (some "turn_interrupted")) = .ok (1, { db.resolveTurn 3000 1 .interrupted with
          inbound := db.inbound.updateWhere (isLinked 1 .rejected ·.val) (InboundRow.refine 3000 (some "turn_interrupted")) }) := by
      have hchosen' : ((db.resolveTurn 3000 1 .interrupted).inbound.rows.filter fun r => isLinked 1 .rejected r.val) = [q] :=
        hchosen
      unfold Db.updateInbound
      simp [hchosen', hq, hallowed]
      rfl
    refine bind_eq_ok.2 ⟨(), hmarkers, bind_eq_ok.2 ⟨_, hupdate, rfl⟩⟩
  · have hother : rows.map (fun r => (r.update (isLinked 1 .rejected ·.val)
        (InboundRow.refine 3000 (some "turn_interrupted"))).val) = rows.map (·.val) := by
      refine List.map_congr_left fun r hr => ?_
      rw [Row.update_of_neg (by simp [isLinked, hfree r hr])]
    have hfirst : (q.update (isLinked 1 .rejected ·.val) (InboundRow.refine 3000 (some "turn_interrupted"))).val =
        uncertainRow.refine 3000 (some "turn_interrupted") := by
      rw [Row.update_of_pos (by simp [isLinked, hq, uncertainRow]), hq]
    simp only [Db.columns, Table.updateWhere, hrows, List.map_cons, List.map_map, Function.comp_def, hother, hfirst, hvals]

/-- The run: an uncertain turn, four thousand long messages and one that fills the inbox, and the refinement of the turn. -/
def overrun : List StoreEvent :=
  uncertainRun ++ (List.range wideRounds).flatMap wideRound ++
    [.call .execute 2000 (.registerInbound sampleTenant (wideEvent wideRounds)),
     .call .execute 3000 (.resolveTurnAndFinishInboundBatch 1 .interrupted .rejected)]

theorem filled_rounds : ∀ n ≤ wideRounds,
    Filled n (storeAfter noOutbox wideCodec (uncertainRun ++ (List.range n).flatMap wideRound))
  | 0, _ => by
    simpa using filled_uncertainRun
  | n + 1, h => by
    have ih := (filled_rounds n (Nat.le_of_succ_le h)).round (Nat.le_of_succ_le h)
    rw [storeAfter, ← exec_append] at ih
    rw [storeAfter, List.range_succ, List.flatMap_append, ← List.append_assoc, List.flatMap_singleton]
    exact ih

/-- **The bound is exceeded** by one refinement, and then a recovery fails for want of capacity. -/
theorem inbound_bounds_fails : wideCodec.WritesFields ∧
    storeInboundMaxBytes < (storeAfter noOutbox wideCodec overrun).db.logicalBytes ∧
    recoverReceived wideCodec sampleTenant (storeAfter noOutbox wideCodec overrun).db =
      .error (.capacityExceeded "recovering the inbound collection") := by
  have hfilled := filled_rounds wideRounds le_rfl
  obtain ⟨db', hstep, hturns, hcolumns⟩ := hfilled.receive (Nat.le_refl _)
  have hrest : ∀ r ∈ (List.range wideRounds).map wideDone ++ [wideReceived wideRounds], r.turnRowId = none := by
    intro r hr
    rcases List.mem_append.1 hr with hr | hr
    · obtain ⟨i, -, rfl⟩ := List.mem_map.1 hr
      rfl
    · rw [List.mem_singleton.1 hr]
      rfl
  rw [hfilled.columns, List.cons_append] at hcolumns
  obtain ⟨o, db'', hrun, hcolumns'⟩ := resolveTurn_uncertainRow
    ((congrArg Table.rows hturns).trans hfilled.turns) hcolumns hrest
  have hstep' : storeStep noOutbox wideCodec { db := db', alive := true }
      (.call .execute 3000 (.resolveTurnAndFinishInboundBatch 1 .interrupted .rejected)) = { db := db'', alive := true } := by
    refine storeStep_of_ok .done rfl rfl ?_
    rw [InboundOp.run, Job.answer, hrun]
    rfl
  have hafter : (storeAfter noOutbox wideCodec overrun).db = db'' := by
    unfold overrun
    rw [storeAfter, exec_append, ← storeAfter, exec_cons, hstep, exec_cons, hstep', exec_nil]
  have hbytes : storeInboundMaxBytes < db''.logicalBytes := by
    have hfirst : (uncertainRow.refine 3000 (some "turn_interrupted")).logicalBytes = 96 := rfl
    have hlast := logicalBytes_wideReceived (i := wideRounds) (Nat.le_of_ble_eq_true rfl)
    rw [utf8ByteSize_wideText_last] at hlast
    have hdone := sum_wideDone (n := wideRounds) (Nat.le_of_ble_eq_true rfl)
    rw [logicalBytes_columns, hcolumns', List.map_cons, List.sum_cons, List.map_append, List.sum_append, hdone, hfirst,
      List.map_singleton, List.sum_singleton, hlast]
    decide
  refine ⟨wideCodec_writesFields, hafter ▸ hbytes, ?_⟩
  rw [hafter, recoverReceived, validateInboundCollection, if_pos (.inr (.inl hbytes))]
  rfl

end LarkCodexBridge.Store

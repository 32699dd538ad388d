import LarkCodexBridge.Store.InboundOps

/-!
# Integrity of the inbox

What `validate_inbound_collection` asks of the rows and their turns (`Sound`) is kept by every change of the database, as
long as the events registered have a message type or parts:

* `Change.sound`: one change keeps it;
* `Sound.validate`: a sound database passes the check, up to its capacity bounds;
* `inbox_integrity`: so does every database a run of store operations leads to.

An event with neither is registered and cannot be read back (`unreadable_row`): every later recovery fails.
-/

namespace LarkCodexBridge.Store

open Limits SqlTable Outbox Lark StepSystem

variable {C : Codec} {I : InboundCodec}

/-! ## Sound databases -/

/-- The row is linked to a turn of its scope that has inbound rows and satisfies `P`. -/
def HasTurn (turns : TurnTable) (r : InboundRow) (P : TurnRow → Prop) : Prop :=
  ∃ t ∈ turns.rows, r.turnRowId = some t.id ∧ t.val.scopeKey = r.scopeKey ∧ 0 < t.val.inboundCount ∧ P t.val

/-- A marker, where there is one, is the key derived from the row and `suffix`. -/
def MarkerIs (r : InboundRow) (suffix : String) : Prop :=
  ∀ k, r.replyOutboxKey = some k → k = inboundReplyOutboxKey r.tenant r.eventId suffix

/-- Turn, reason and marker fit the state of the row. -/
def StateSound (turns : TurnTable) (r : InboundRow) : Prop :=
  match r.state with
  | .received => r.turnRowId = none ∧ r.rejectionReason = none ∧ r.replyOutboxKey = none
  | .accepted => r.rejectionReason = none ∧ r.replyOutboxKey = none ∧ HasTurn turns r (·.unresolved = true)
  | .completed => r.rejectionReason = none ∧ (r.turnRowId = none ∧ MarkerIs r "control" ∨
      r.replyOutboxKey = none ∧ HasTurn turns r fun t => t.resolved = true ∧ t.state = .completed)
  | .rejected => (∃ reason : InboundRejectionKind, r.turnRowId = none ∧ r.rejectionReason = some reason.asStr ∧
        MarkerIs r ("notice:" ++ reason.asStr)) ∨
      r.replyOutboxKey = none ∧ ∃ reason, r.rejectionReason = some reason ∧
        HasTurn turns r fun t => t.resolved = true ∧ turnRejectionReason t.state = some reason

/-- The payload is there and reads back exactly while the row can still be replayed. -/
def PayloadSound (I : InboundCodec) (r : InboundRow) : Prop :=
  if r.state.isTerminal then r.payloadVersion = none ∧ r.payloadBlob = none ∧ r.payloadBytes = 0
  else ∃ retained, retainedFromStored I r = .ok retained

/-- A bounded nonempty column. -/
def Bounded (value : String) (limit : ℕ) : Prop := value.isEmpty = false ∧ value.utf8ByteSize ≤ limit

instance (value : String) (limit : ℕ) : Decidable (Bounded value limit) :=
  inferInstanceAs (Decidable (value.isEmpty = false ∧ value.utf8ByteSize ≤ limit))

/-- One row as the check wants it. -/
structure RowSound (I : InboundCodec) (turns : TurnTable) (r : InboundRow) : Prop where
  tenant : isTenantNamespace r.tenant = true
  eventId : Bounded r.eventId storeInboundIdMaxBytes
  messageId : Bounded r.messageId storeInboundIdMaxBytes
  scopeKey : Bounded r.scopeKey storeInboundScopeMaxBytes
  payload : PayloadSound I r
  state : StateSound turns r

/-- The rows linked to a turn, by number. -/
def linkedCount (inbound : InboundTable) (id : ℕ) : ℕ := inbound.rows.countP fun r => r.val.turnRowId = some id

/-- An open turn has all its rows, a resolved one may have lost some. -/
def GroupSound (t : TurnRow) (n : ℕ) : Prop :=
  t.unresolved = true ∧ n = t.inboundCount ∨ t.resolved = true ∧ n ≤ t.inboundCount

/-- A database that passes the integrity check of the inbox. -/
structure Sound (I : InboundCodec) (db : Db) : Prop where
  rows : ∀ r ∈ db.inbound.rows, RowSound I db.turns r.val
  canonical : ∀ r ∈ db.inbound.rows, ∀ s ∈ db.inbound.rows, r.val.tenant = s.val.tenant →
    r.val.messageId = s.val.messageId → r.val.state ≠ .rejected → s.val.state ≠ .rejected → r = s
  groups : ∀ t ∈ db.turns.rows, 0 < t.val.inboundCount → GroupSound t.val (linkedCount db.inbound t.id)

theorem Sound.empty : Sound I Db.empty where
  rows := by simp [Db.empty, Table.empty]
  canonical := by simp [Db.empty, Table.empty]
  groups := by simp [Db.empty, Table.empty]

/-! ## Turns that change -/

/-- The turns with inbound rows keep id, scope, number of rows and, by `Keeps`, their place in the lifecycle. -/
structure TurnsKept (turns turns' : TurnTable) : Prop where
  kept : ∀ t ∈ turns.rows, 0 < t.val.inboundCount → ∃ t' ∈ turns'.rows, t'.id = t.id ∧
    t'.val.scopeKey = t.val.scopeKey ∧ t'.val.inboundCount = t.val.inboundCount ∧
    t'.val.unresolved = t.val.unresolved ∧ t'.val.resolved = t.val.resolved ∧
    (t.val.resolved = true → t'.val.state = t.val.state)

variable {turns turns' : TurnTable} {r : InboundRow}

theorem HasTurn.mono {P Q : TurnRow → Prop} (h : HasTurn turns r P)
    (hPQ : ∀ t ∈ turns.rows, r.turnRowId = some t.id → 0 < t.val.inboundCount → P t.val → ∃ t' ∈ turns'.rows,
      t'.id = t.id ∧ t'.val.scopeKey = t.val.scopeKey ∧ t'.val.inboundCount = t.val.inboundCount ∧ Q t'.val) :
    HasTurn turns' r Q := by
  obtain ⟨t, ht, hid, hscope, hcount, hP⟩ := h
  obtain ⟨t', ht', hid', hscope', hcount', hQ⟩ := hPQ t ht hid hcount hP
  exact ⟨t', ht', by rw [hid, hid'], by rw [hscope', hscope], by omega, hQ⟩

theorem StateSound.of_turnsKept (hk : TurnsKept turns turns') (h : StateSound turns r) : StateSound turns' r := by
  have open_kept : HasTurn turns r (·.unresolved = true) → HasTurn turns' r (·.unresolved = true) := fun ht =>
    ht.mono fun t ht _ hcount hu => by
      obtain ⟨t', ht', hid, hscope, hc, hun, -, -⟩ := hk.kept t ht hcount
      exact ⟨t', ht', hid, hscope, hc, hun.trans hu⟩
  have resolved_kept : ∀ {P : TurnState → Prop}, HasTurn turns r (fun t => t.resolved = true ∧ P t.state) →
      HasTurn turns' r (fun t => t.resolved = true ∧ P t.state) := fun ht =>
    ht.mono fun t ht _ hcount hp => by
      obtain ⟨t', ht', hid, hscope, hc, -, hres, hstate⟩ := hk.kept t ht hcount
      exact ⟨t', ht', hid, hscope, hc, hres.trans hp.1, by rw [hstate hp.1]; exact hp.2⟩
  unfold StateSound at h ⊢
  split at h
  · exact h
  · exact ⟨h.1, h.2.1, open_kept h.2.2⟩
  · refine ⟨h.1, h.2.imp id fun h => ⟨h.1, resolved_kept (P := (· = .completed)) h.2⟩⟩
  · refine h.imp id fun ⟨hm, reason, hr, h⟩ => ⟨hm, reason, hr, ?_⟩
    exact resolved_kept (P := (turnRejectionReason · = some reason)) h

theorem RowSound.of_turnsKept (hk : TurnsKept turns turns') (h : RowSound I turns r) : RowSound I turns' r :=
  { h with state := h.state.of_turnsKept hk }

theorem TurnsKept.insert (turns : TurnTable) (a : TurnRow) (hk) : TurnsKept turns (turns.insert a hk) :=
  ⟨fun t ht _ => ⟨t, Table.mem_insert.2 (.inl ht), rfl, rfl, rfl, rfl, rfl, fun _ => rfl⟩⟩

/-! ## Rows that change -/

variable {db : Db} {inbound : InboundTable}

/-- Rows are rewritten: identities stay, rejected rows stay rejected, and every new row is sound. -/
theorem Sound.of_maps {f : Row InboundRow → InboundRow} {outbox : OutboxTable} (h : Sound I db)
    (hm : Table.Maps f db.inbound inbound)
    (hident : ∀ r ∈ db.inbound.rows, (f r).tenant = r.val.tenant ∧ (f r).messageId = r.val.messageId ∧
      ((f r).state ≠ .rejected → r.val.state ≠ .rejected)) (hrows : ∀ r ∈ db.inbound.rows, RowSound I turns (f r))
    (hgroups : ∀ t ∈ turns.rows, 0 < t.val.inboundCount →
      GroupSound t.val (db.inbound.rows.countP fun r => (f r).turnRowId = some t.id)) :
    Sound I ⟨inbound, turns, outbox⟩ where
  rows := by
    intro r' hr'
    obtain ⟨r, hr, rfl⟩ := hm.mem.1 hr'
    exact hrows r hr
  canonical := by
    intro r' hr' s' hs' ht hmsg hrs hss
    obtain ⟨r, hr, rfl⟩ := hm.mem.1 hr'
    obtain ⟨s, hs, rfl⟩ := hm.mem.1 hs'
    obtain ⟨hrt, hrm, hrr⟩ := hident r hr
    obtain ⟨hst, hsm, hsr⟩ := hident s hs
    dsimp only at ht hmsg hrs hss
    rw [h.canonical r hr s hs (by rw [← hrt, ← hst, ht]) (by rw [← hrm, ← hsm, hmsg]) (hrr hrs) (hsr hss)]
  groups := by
    intro t ht hcount
    have := hgroups t ht hcount
    rw [linkedCount]
    dsimp only
    rw [hm.rows_eq, List.countP_map]
    exact this

/-- The same, where only one row changes and no turn does. -/
theorem Sound.of_rewrite {r : Row InboundRow} {g : InboundRow → InboundRow} (h : Sound I db) (hr : r ∈ db.inbound.rows)
    (hm : Table.Maps (rewrite (·.key = r.val.key) g) db.inbound inbound) (htenant : (g r.val).tenant = r.val.tenant)
    (hmessage : (g r.val).messageId = r.val.messageId) (hturn : (g r.val).turnRowId = r.val.turnRowId)
    (hrejected : (g r.val).state ≠ .rejected → r.val.state ≠ .rejected) (hrow : RowSound I db.turns (g r.val)) :
    Sound I { db with inbound := inbound } := by
  have hcase : ∀ s ∈ db.inbound.rows,
      s = r ∧ rewrite (·.key = r.val.key) g s = g r.val ∨ rewrite (·.key = r.val.key) g s = s.val := by
    intro s hs
    by_cases hk : s.val.key = r.val.key
    · obtain rfl := Table.eq_of_key hs hr hk
      exact .inl ⟨rfl, by simp [rewrite]⟩
    · exact .inr (by simp [rewrite, hk])
  refine h.of_maps hm (fun s hs => ?_) (fun s hs => ?_) (fun t ht hcount => ?_)
  · rcases hcase s hs with ⟨rfl, heq⟩ | heq
    · rw [heq]
      exact ⟨htenant, hmessage, hrejected⟩
    · rw [heq]
      exact ⟨rfl, rfl, id⟩
  · rcases hcase s hs with ⟨rfl, heq⟩ | heq
    · rw [heq]
      exact hrow
    · rw [heq]
      exact h.rows s hs
  · have hsame : db.inbound.rows.countP (fun s => (rewrite (·.key = r.val.key) g s).turnRowId = some t.id) =
        linkedCount db.inbound t.id := by
      refine List.countP_congr fun s hs => ?_
      rcases hcase s hs with ⟨rfl, heq⟩ | heq
      · rw [heq, hturn]
      · rw [heq]
    rw [hsame]
    exact h.groups t ht hcount

/-! ## Linked rows -/

theorem resolved_of_unresolved {t : TurnRow} (h : t.unresolved = true) : t.resolved = false := by
  simp only [TurnRow.unresolved, decide_eq_true_eq] at h
  rw [Bool.eq_false_iff]
  intro hr
  simp only [TurnRow.resolved, decide_eq_true_eq] at hr
  obtain ⟨hs, hu⟩ := hr
  rcases h with ⟨h | h, -⟩ | ⟨-, h⟩
  · rw [h] at hs
    simp at hs
  · rw [h] at hs
    simp at hs
  · rw [hu] at h
    cases h

variable {t : Row TurnRow}

theorem RowSound.linked (h : RowSound I turns r) (ht : t ∈ turns.rows) (hid : r.turnRowId = some t.id) :
    t.val.scopeKey = r.scopeKey ∧ 0 < t.val.inboundCount ∧
      r.replyOutboxKey = none ∧ (r.state = .accepted ∧ t.val.unresolved = true ∨ t.val.resolved = true ∧
        (r.state = .completed ∧ t.val.state = .completed ∨
          r.state = .rejected ∧ ∃ reason, r.rejectionReason = some reason ∧
            turnRejectionReason t.val.state = some reason)) := by
  have same : ∀ {P}, HasTurn turns r P → t.val.scopeKey = r.scopeKey ∧ 0 < t.val.inboundCount ∧ P t.val := by
    rintro P ⟨t', ht', hid', hscope, hcount, hP⟩
    obtain rfl := Table.eq_of_id ht' ht (Option.some.inj (hid'.symm.trans hid))
    exact ⟨hscope, hcount, hP⟩
  have hs := h.state
  unfold StateSound at hs
  cases hstate : r.state with
  | received =>
    rw [hstate] at hs
    rw [hs.1] at hid
    cases hid
  | accepted =>
    rw [hstate] at hs
    obtain ⟨-, hm, hturn⟩ := hs
    obtain ⟨hscope, hcount, hu⟩ := same hturn
    exact ⟨hscope, hcount, hm, .inl ⟨rfl, hu⟩⟩
  | completed =>
    rw [hstate] at hs
    obtain ⟨-, ⟨hnone, -⟩ | ⟨hm, hturn⟩⟩ := hs
    · rw [hnone] at hid
      cases hid
    · obtain ⟨hscope, hcount, hr, hc⟩ := same hturn
      exact ⟨hscope, hcount, hm, .inr ⟨hr, .inl ⟨rfl, hc⟩⟩⟩
  | rejected =>
    rw [hstate] at hs
    obtain ⟨_, hnone, -, -⟩ | ⟨hm, reason, hreason, hturn⟩ := hs
    · rw [hnone] at hid
      cases hid
    · obtain ⟨hscope, hcount, hr, hc⟩ := same hturn
      exact ⟨hscope, hcount, hm, .inr ⟨hr, .inr ⟨rfl, reason, hreason, hc⟩⟩⟩

theorem RowSound.accepted_of_unresolved (h : RowSound I turns r) (ht : t ∈ turns.rows) (hid : r.turnRowId = some t.id)
    (hu : t.val.unresolved = true) : r.state = .accepted := by
  obtain ⟨-, -, -, ⟨hs, -⟩ | ⟨hr, -⟩⟩ := h.linked ht hid
  · exact hs
  · rw [resolved_of_unresolved hu] at hr
    cases hr

theorem RowSound.turnRowId_ne_nextId (h : RowSound I turns r) :
    r.turnRowId ≠ some turns.nextId := by
  intro hid
  have no_turn : ∀ {P}, ¬HasTurn turns r P := by
    rintro P ⟨t, ht, hid', -⟩
    have := Table.id_lt_nextId ht
    rw [hid] at hid'
    have := Option.some.inj hid'
    omega
  have hs := h.state
  unfold StateSound at hs
  split at hs
  · rw [hid] at hs
    exact nomatch hs.1
  · exact no_turn hs.2.2
  · rcases hs.2 with ⟨hnone, -⟩ | ⟨-, ht⟩
    · rw [hid] at hnone
      cases hnone
    · exact no_turn ht
  · rcases hs with ⟨_, hnone, -⟩ | ⟨-, _, -, ht⟩
    · rw [hid] at hnone
      cases hnone
    · exact no_turn ht

/-! ## One change -/

theorem bounded_of_validateId {value context : String} (h : validateId value context = .ok ()) :
    Bounded value storeInboundIdMaxBytes := by
  unfold validateId at h
  split at h
  · cases h
  · next hn =>
    rw [not_or] at hn
    exact ⟨by simpa using hn.1, by omega⟩

theorem bounded_scope {event : InboundEvent} (h : validateEvent event = .ok ()) :
    Bounded event.scope.toString storeInboundScopeMaxBytes := by
  obtain ⟨-, hlen, -⟩ := validateEvent_eq_ok.1 h
  refine ⟨?_, hlen⟩
  rw [Bool.eq_false_iff]
  intro he
  have hsize : event.scope.toString.utf8ByteSize = 0 := by simpa using he
  cases hs : event.scope with
  | chat c | thread c t => simp [hs, ScopeKey.toString, String.utf8ByteSize_append] at hsize

variable {now : ℤ}

theorem retained_receivedRow {tenant : TenantNamespace} {event : InboundEvent} {payload : ByteArray}
    (hp : encodeEvent I event = .ok payload) (hne : event.messageType ≠ "" ∨ event.parts ≠ []) :
    retainedFromStored I (receivedRow now tenant event payload) = .ok ⟨replayEvent event, payload.size⟩ := by
  obtain ⟨hv, hread, hsize⟩ := encodeEvent_ok I hp
  exact retainedFromStored_eq_ok.2 ⟨.inl rfl, rfl, payload, _, rfl, rfl, hsize, hread,
    intoEvent_ofEvent_persistable hv hne, rfl, rfl, rfl, rfl⟩

theorem rowSound_receivedRow {tenant : TenantNamespace} {event : InboundEvent} {payload : ByteArray}
    (hp : encodeEvent I event = .ok payload) (hne : event.messageType ≠ "" ∨ event.parts ≠ []) :
    RowSound I turns (receivedRow now tenant event payload) := by
  obtain ⟨hv, -, -⟩ := encodeEvent_ok I hp
  obtain ⟨hids, -⟩ := validateEvent_eq_ok.1 hv
  obtain ⟨hkey, -⟩ := seq_eq_ok.1 hids
  obtain ⟨he, hm⟩ := seq_eq_ok.1 hkey
  exact {
    tenant := tenant.isTenantNamespace_asHex
    eventId := bounded_of_validateId he
    messageId := bounded_of_validateId hm
    scopeKey := bounded_scope hv
    payload := ⟨_, retained_receivedRow hp hne⟩
    state := ⟨rfl, rfl, rfl⟩ }

/-- A row in a terminal state, with the columns the terminal states ask for. -/
theorem RowSound.finish {r' : InboundRow} (h : RowSound I turns r) (htenant : r'.tenant = r.tenant)
    (hevent : r'.eventId = r.eventId) (hmessage : r'.messageId = r.messageId) (hscope : r'.scopeKey = r.scopeKey)
    (hterminal : r'.state.isTerminal = true)
    (hpayload : r'.payloadVersion = none ∧ r'.payloadBlob = none ∧ r'.payloadBytes = 0) (hs : StateSound turns' r') :
    RowSound I turns' r' where
  tenant := htenant ▸ h.tenant
  eventId := hevent ▸ h.eventId
  messageId := hmessage ▸ h.messageId
  scopeKey := hscope ▸ h.scopeKey
  payload := by
    rw [PayloadSound, if_pos hterminal]
    exact hpayload
  state := hs

theorem StateSound.received (h : StateSound turns r) (hs : r.state = .received) :
    r.turnRowId = none ∧ r.rejectionReason = none ∧ r.replyOutboxKey = none := by
  unfold StateSound at h
  rw [hs] at h
  exact h

theorem PayloadSound.blank (h : PayloadSound I r) (hs : r.state.isTerminal = true) :
    r.payloadVersion = none ∧ r.payloadBlob = none ∧ r.payloadBytes = 0 := by
  rw [PayloadSound, if_pos hs] at h
  exact h

theorem Sound.register {row : InboundRow} {hk} (h : Sound I db) (hrow : RowSound I db.turns row)
    (hturn : row.turnRowId = none)
    (hnew : ∀ r ∈ db.inbound.rows, r.val.tenant = row.tenant → r.val.messageId = row.messageId → r.val.state = .rejected) :
    Sound I { db with inbound := db.inbound.insert row hk } where
  rows := by
    intro r hr
    rcases (Table.mem_insert (h := hk)).1 hr with hr | rfl
    · exact h.rows r hr
    · exact hrow
  canonical := by
    intro r hr s hs ht hm hrs hss
    rcases (Table.mem_insert (h := hk)).1 hr with hr | rfl
    · rcases (Table.mem_insert (h := hk)).1 hs with hs | rfl
      · exact h.canonical r hr s hs ht hm hrs hss
      · exact absurd (hnew r hr ht hm) hrs
    · rcases (Table.mem_insert (h := hk)).1 hs with hs | rfl
      · exact absurd (hnew s hs ht.symm hm.symm) hss
      · rfl
  groups := by
    intro t ht hcount
    have : linkedCount (db.inbound.insert row hk) t.id = linkedCount db.inbound t.id := by
      simp [linkedCount, Table.insert, hturn]
    rw [this]
    exact h.groups t ht hcount

theorem Sound.complete {r : Row InboundRow} {marker : Option String} (h : Sound I db) (hr : r ∈ db.inbound.rows)
    (hstate : r.val.state = .received)
    (hmarker : marker = r.val.replyOutboxKey ∨ marker = some (inboundReplyOutboxKey r.val.tenant r.val.eventId "control"))
    (hm : Table.Maps (rewrite (·.key = r.val.key) fun r => { r.complete now with replyOutboxKey := marker })
      db.inbound inbound) : Sound I { db with inbound := inbound } := by
  obtain ⟨hturn, hreason, hnone⟩ := (h.rows r hr).state.received hstate
  refine h.of_rewrite hr hm rfl rfl rfl (fun _ => by simp [hstate]) ?_
  refine (h.rows r hr).finish rfl rfl rfl rfl rfl ⟨rfl, rfl, rfl⟩ ⟨hreason, .inl ⟨hturn, ?_⟩⟩
  intro k hk
  rcases hmarker with rfl | rfl
  · rw [hnone] at hk
    cases hk
  · exact (Option.some.inj hk).symm

theorem Sound.reject {r : Row InboundRow} {reason : InboundRejectionKind} (h : Sound I db) (hr : r ∈ db.inbound.rows)
    (hstate : r.val.state = .received)
    (hm : Table.Maps (rewrite (·.key = r.val.key) (InboundRow.finish now .rejected (some reason.asStr))) db.inbound inbound) :
    Sound I { db with inbound := inbound } := by
  obtain ⟨hturn, -, hnone⟩ := (h.rows r hr).state.received hstate
  refine h.of_rewrite hr hm rfl rfl rfl (fun hne => absurd rfl hne) ?_
  refine (h.rows r hr).finish rfl rfl rfl rfl rfl ⟨rfl, rfl, rfl⟩ (.inl ⟨reason, hturn, rfl, ?_⟩)
  intro k hk
  rw [show (InboundRow.finish now .rejected (some reason.asStr) r.val).replyOutboxKey = r.val.replyOutboxKey from rfl,
    hnone] at hk
  cases hk

theorem asStr_ne_turnRejectionReason (reason : InboundRejectionKind) (state : TurnState) :
    turnRejectionReason state ≠ some reason.asStr := by
  cases reason <;> cases state <;> decide

theorem asStr_injective {a b : InboundRejectionKind} (h : a.asStr = b.asStr) : a = b := by
  cases a <;> cases b <;> first | rfl | exact absurd h (by decide)

theorem Sound.mark {r : Row InboundRow} {suffix : String} (h : Sound I db) (hr : r ∈ db.inbound.rows)
    (hturn : r.val.state = .completed → r.val.turnRowId = none)
    (hsuffix : r.val.state = .completed ∧ suffix = "control" ∨
      ∃ reason : InboundRejectionKind, r.val.state = .rejected ∧ r.val.rejectionReason = some reason.asStr ∧
        suffix = "notice:" ++ reason.asStr) (hm : Table.Maps (rewrite (·.key = r.val.key)
      (InboundRow.mark now (inboundReplyOutboxKey r.val.tenant r.val.eventId suffix))) db.inbound inbound) :
    Sound I { db with inbound := inbound } := by
  have hrow := h.rows r hr
  have hstate := hrow.state
  unfold StateSound at hstate
  have hmarker : MarkerIs (InboundRow.mark now (inboundReplyOutboxKey r.val.tenant r.val.eventId suffix) r.val) suffix :=
    fun k hk => (Option.some.inj hk).symm
  have hterminal : r.val.state.isTerminal = true := by
    rcases hsuffix with ⟨hs, -⟩ | ⟨_, hs, -⟩ <;> rw [hs] <;> rfl
  refine h.of_rewrite hr hm rfl rfl rfl id (hrow.finish rfl rfl rfl rfl hterminal (hrow.payload.blank hterminal) ?_)
  rcases hsuffix with ⟨hs, rfl⟩ | ⟨reason, hs, hreason, rfl⟩
  · rw [hs] at hstate
    rw [StateSound, show (InboundRow.mark now _ r.val).state = .completed from hs]
    exact ⟨hstate.1, .inl ⟨hturn hs, hmarker⟩⟩
  · rw [hs] at hstate
    rw [StateSound, show (InboundRow.mark now _ r.val).state = .rejected from hs]
    rcases hstate with ⟨reason', hnone, hreason', -⟩ | ⟨-, reason', hreason', t, -, -, -, -, -, ht⟩
    · obtain rfl := asStr_injective (Option.some.inj (hreason'.symm.trans hreason))
      exact .inl ⟨reason', hnone, hreason, hmarker⟩
    · rw [← hreason', hreason] at ht
      exact absurd ht (asStr_ne_turnRejectionReason _ _)

theorem RowSound.claim (h : RowSound I turns r) (hstate : r.state = .received) (ht : t ∈ turns'.rows)
    (hscope : t.val.scopeKey = r.scopeKey) (hcount : 0 < t.val.inboundCount) (hopen : t.val.unresolved = true) :
    RowSound I turns' (r.claim now t.id) := by
  obtain ⟨-, hreason, hmarker⟩ := h.state.received hstate
  refine { h with payload := ?_, state := ⟨hreason, hmarker, t, ht, rfl, hscope, hcount, hopen⟩ }
  obtain ⟨retained, hret⟩ : ∃ retained, retainedFromStored I r = .ok retained := by
    have hp := h.payload
    rw [PayloadSound, hstate] at hp
    exact hp
  obtain ⟨-, hrest⟩ := retainedFromStored_eq_ok.1 hret
  exact ⟨retained, retainedFromStored_eq_ok.2 ⟨.inr rfl, hrest⟩⟩

theorem Sound.claim {turn : NewTurnRow} {keys : List (String × String)} {hk} (h : Sound I db) (hne : keys ≠ [])
    (hscope : ∀ r ∈ db.inbound.rows, r.val.key ∈ keys → r.val.scopeKey = turn.scopeKey)
    (hcount : db.inbound.rows.countP (fun r => Claimable keys r.val) = keys.length)
    (hm : Table.Maps (rewrite (Claimable keys) (InboundRow.claim now db.turns.nextId)) db.inbound inbound) :
    Sound I { db with inbound := inbound, turns := db.turns.insert (turn.columns now keys.length) hk } := by
  have hpos : 0 < keys.length := List.length_pos_iff.2 hne
  have hnew : (⟨db.turns.nextId, db.turns.nextSerial, turn.columns now keys.length⟩ : Row TurnRow) ∈
      (db.turns.insert (turn.columns now keys.length) hk).rows := Table.mem_insert.2 (.inr rfl)
  refine h.of_maps hm (fun r hr => ?_) (fun r hr => ?_) (fun t ht hc => ?_)
  · unfold rewrite
    split
    · next hcl => exact ⟨rfl, rfl, fun _ => by simp [hcl.1]⟩
    · exact ⟨rfl, rfl, id⟩
  · unfold rewrite
    split
    · next hcl => exact (h.rows r hr).claim hcl.1 hnew (hscope r hr hcl.2.2).symm hpos rfl
    · exact (h.rows r hr).of_turnsKept (.insert _ _ hk)
  · rcases (Table.mem_insert (h := hk)).1 ht with ht | rfl
    -- the rows of an older turn are not claimable, and none of them gets the new id
    · have hsame : db.inbound.rows.countP (fun r =>
          (rewrite (Claimable keys) (InboundRow.claim now db.turns.nextId) r).turnRowId = some t.id) =
          linkedCount db.inbound t.id := by
        refine List.countP_congr fun r hr => ?_
        have hid := Table.id_lt_nextId ht
        unfold rewrite
        split
        · next hcl =>
          simp [InboundRow.claim, hcl.2.1]
          omega
        · rfl
      rw [hsame]
      exact h.groups t ht hc
    · refine .inl ⟨rfl, ?_⟩
      rw [show (turn.columns now keys.length).inboundCount = keys.length from rfl, ← hcount]
      refine List.countP_congr fun r hr => ?_
      unfold rewrite
      split
      · next hcl => simp [InboundRow.claim, hcl]
      · next hcl =>
        have := (h.rows r hr).turnRowId_ne_nextId
        simp [hcl, this]

/-! ### The end of a turn -/

theorem resolve_resolved (now : ℤ) (resolution : TurnResolution) (t : TurnRow) :
    (t.resolve now resolution.target.1).resolved = true := by
  cases resolution <;> rfl

theorem mem_resolveTurn {id : ℕ} {state : TurnState} {t' : Row TurnRow} :
    t' ∈ (db.resolveTurn now id state).turns.rows ↔ ∃ t ∈ db.turns.rows,
      t' = if t.id = id then { t with val := t.val.resolve now state } else t := by
  have hupdate : ∀ t : Row TurnRow, t.update (·.id == id) (TurnRow.resolve now state) =
      if t.id = id then { t with val := t.val.resolve now state } else t := by
    intro t
    by_cases hid : t.id = id
    · rw [if_pos hid, Row.update_of_pos (by simpa using hid)]
    · rw [if_neg hid, Row.update_of_neg (by simpa using hid)]
  constructor
  · intro h
    have h : t' ∈ (db.turns.updateWhere (·.id == id) (TurnRow.resolve now state)).rows := h
    obtain ⟨t, ht, rfl⟩ := Table.mem_updateWhere.1 h
    exact ⟨t, ht, hupdate t⟩
  · rintro ⟨t, ht, rfl⟩
    have h : t.update (·.id == id) (TurnRow.resolve now state) ∈
        (db.turns.updateWhere (·.id == id) (TurnRow.resolve now state)).rows := Table.mem_updateWhere.2 ⟨t, ht, rfl⟩
    rw [hupdate] at h
    exact h

theorem RowSound.of_resolveTurn {id : ℕ} {state : TurnState} (h : RowSound I db.turns r) (hid : r.turnRowId ≠ some id) :
    RowSound I (db.resolveTurn now id state).turns r := by
  have keep : ∀ {P}, HasTurn db.turns r P → HasTurn (db.resolveTurn now id state).turns r P := by
    rintro P ⟨t, ht, htid, hrest⟩
    have hne : t.id ≠ id := by
      rintro rfl
      exact hid htid
    exact ⟨t, mem_resolveTurn.2 ⟨t, ht, (if_neg hne).symm⟩, htid, hrest⟩
  refine { h with state := ?_ }
  have hs := h.state
  unfold StateSound at hs ⊢
  split at hs
  · exact hs
  · exact ⟨hs.1, hs.2.1, keep hs.2.2⟩
  · exact ⟨hs.1, hs.2.imp_right fun hs => ⟨hs.1, keep hs.2⟩⟩
  · exact hs.imp_right fun ⟨hm, reason, hr, ht⟩ => ⟨hm, reason, hr, keep ht⟩

variable {resolution : TurnResolution}

/-- A resolution sets the turn and all its rows. -/
theorem Sound.resolve {f : Row InboundRow → InboundRow} (h : Sound I db) (ht : t ∈ db.turns.rows)
    (hm : Table.Maps f db.inbound inbound)
    (hlinked : ∀ r ∈ db.inbound.rows, r.val.turnRowId = some t.id → (f r).tenant = r.val.tenant ∧
      (f r).messageId = r.val.messageId ∧ (f r).turnRowId = r.val.turnRowId ∧
      ((f r).state ≠ .rejected → r.val.state ≠ .rejected) ∧
      RowSound I (db.resolveTurn now t.id resolution.target.1).turns (f r))
    (hother : ∀ r ∈ db.inbound.rows, r.val.turnRowId ≠ some t.id → f r = r.val)
    (hle : linkedCount db.inbound t.id ≤ t.val.inboundCount) :
    Sound I { db.resolveTurn now t.id resolution.target.1 with inbound := inbound } := by
  have hcase : ∀ r ∈ db.inbound.rows, (f r).tenant = r.val.tenant ∧ (f r).messageId = r.val.messageId ∧
      (f r).turnRowId = r.val.turnRowId ∧ ((f r).state ≠ .rejected → r.val.state ≠ .rejected) ∧
      RowSound I (db.resolveTurn now t.id resolution.target.1).turns (f r) := by
    intro r hr
    by_cases hid : r.val.turnRowId = some t.id
    · exact hlinked r hr hid
    · rw [hother r hr hid]
      exact ⟨rfl, rfl, rfl, id, (h.rows r hr).of_resolveTurn hid⟩
  refine h.of_maps hm (fun r hr => ?_) (fun r hr => (hcase r hr).2.2.2.2) (fun t' ht' hc => ?_)
  · obtain ⟨h₁, h₂, -, h₄, -⟩ := hcase r hr
    exact ⟨h₁, h₂, h₄⟩
  · have hsame : ∀ id, db.inbound.rows.countP (fun r => (f r).turnRowId = some id) = linkedCount db.inbound id :=
      fun id => List.countP_congr fun r hr => by rw [(hcase r hr).2.2.1]
    obtain ⟨t₀, ht₀, rfl⟩ := mem_resolveTurn.1 ht'
    by_cases hid : t₀.id = t.id
    · obtain rfl := Table.eq_of_id ht₀ ht hid
      rw [if_pos rfl, hsame]
      exact .inr ⟨resolve_resolved _ _ _, hle⟩
    · rw [if_neg hid] at hc ⊢
      rw [hsame]
      exact h.groups t₀ ht₀ hc

theorem turnRejectionReason_target (h : resolution.target.2.1 = .rejected) :
    ∃ reason, resolution.target.2.2 = some reason ∧ turnRejectionReason resolution.target.1 = some reason := by
  cases resolution with
  | completed => cases h
  | failed | interrupted | uncertain => exact ⟨_, rfl, rfl⟩

theorem stateSound_finish (ht : t ∈ turns.rows) (hid : r.turnRowId = some t.id) (hscope : t.val.scopeKey = r.scopeKey)
    (hcount : 0 < t.val.inboundCount) (hmarker : r.replyOutboxKey = none) (hresolved : t.val.resolved = true)
    (hstate : t.val.state = resolution.target.1) :
    StateSound turns (r.finish now resolution.target.2.1.state resolution.target.2.2) := by
  cases hterm : resolution.target.2.1 with
  | completed =>
    have hc : resolution = .completed := by cases resolution <;> first | rfl | cases hterm
    subst hc
    exact ⟨rfl, .inr ⟨hmarker, t, ht, hid, hscope, hcount, hresolved, hstate⟩⟩
  | rejected =>
    obtain ⟨reason, hreason, hturn⟩ := turnRejectionReason_target hterm
    exact .inr ⟨hmarker, reason, hreason, t, ht, hid, hscope, hcount, hresolved, by rw [hstate]; exact hturn⟩

/-- The turn after its resolution. -/
theorem resolved_mem (ht : t ∈ db.turns.rows) (now : ℤ) (state : TurnState) :
    { t with val := t.val.resolve now state } ∈ (db.resolveTurn now t.id state).turns.rows :=
  mem_resolveTurn.2 ⟨t, ht, (if_pos rfl).symm⟩

theorem Sound.finish (h : Sound I db) (ht : t ∈ db.turns.rows) (hcount : 0 < t.val.inboundCount)
    (hlegal : legalResolution t.val resolution = true) (hm : Table.Maps (rewrite (Linked t.id .accepted)
      (InboundRow.finish now resolution.target.2.1.state resolution.target.2.2)) db.inbound inbound) :
    Sound I { db.resolveTurn now t.id resolution.target.1 with inbound := inbound } := by
  have hopen : t.val.resolved = false := by
    rw [Bool.eq_false_iff]
    intro hr
    simp only [TurnRow.resolved, decide_eq_true_eq] at hr
    obtain ⟨hs | hs | hs | hs, hu⟩ := hr <;> simp [legalResolution, hs, hu] at hlegal
  have hgroup : t.val.unresolved = true ∧ linkedCount db.inbound t.id = t.val.inboundCount := by
    rcases h.groups t ht hcount with hg | ⟨hr, -⟩
    · exact hg
    · rw [hopen] at hr
      cases hr
  refine h.resolve ht hm (fun r hr hid => ?_) (fun r hr hid => ?_) (Nat.le_of_eq hgroup.2)
  · have hrow := h.rows r hr
    have hacc := hrow.accepted_of_unresolved ht hid hgroup.1
    obtain ⟨hscope, -, hmarker, -⟩ := hrow.linked ht hid
    have heq : rewrite (Linked t.id .accepted)
        (InboundRow.finish now resolution.target.2.1.state resolution.target.2.2) r =
        InboundRow.finish now resolution.target.2.1.state resolution.target.2.2 r.val := if_pos ⟨hid, hacc⟩
    rw [heq]
    refine ⟨rfl, rfl, rfl, fun _ => by simp [hacc], ?_⟩
    refine hrow.finish rfl rfl rfl rfl ?_ ⟨rfl, rfl, rfl⟩ ?_
    · cases resolution <;> rfl
    · exact stateSound_finish (resolved_mem ht now _) hid hscope hcount hmarker (resolve_resolved _ _ _) rfl
  · exact if_neg fun hl => hid hl.1

theorem Sound.refine (h : Sound I db) (ht : t ∈ db.turns.rows) (hcount : 0 < t.val.inboundCount)
    (hstate : t.val.state = .uncertain ∧ t.val.uncertain = false)
    (hres : resolution = .failed ∨ resolution = .interrupted)
    (hm : Table.Maps (rewrite (Linked t.id .rejected) (InboundRow.refine now resolution.target.2.2)) db.inbound inbound) :
    Sound I { db.resolveTurn now t.id resolution.target.1 with inbound := inbound } := by
  have hresolved : t.val.resolved = true := by simp [TurnRow.resolved, hstate]
  have hle : linkedCount db.inbound t.id ≤ t.val.inboundCount := by
    rcases h.groups t ht hcount with ⟨hu, -⟩ | ⟨-, hle⟩
    · rw [resolved_of_unresolved hu] at hresolved
      cases hresolved
    · exact hle
  refine h.resolve ht hm (fun r hr hid => ?_) (fun r hr hid => if_neg fun hl => hid hl.1) hle
  have hrow := h.rows r hr
  have hrej : r.val.state = .rejected := by
    obtain ⟨-, -, -, ⟨-, hu⟩ | ⟨-, ⟨-, hc⟩ | ⟨hs, -⟩⟩⟩ := hrow.linked ht hid
    · rw [resolved_of_unresolved hu] at hresolved
      cases hresolved
    · rw [hstate.1] at hc
      cases hc
    · exact hs
  obtain ⟨hscope, -, hmarker, -⟩ := hrow.linked ht hid
  have hterm : resolution.target.2.1 = .rejected := by rcases hres with rfl | rfl <;> rfl
  have hblank := hrow.payload.blank (by rw [hrej]; rfl)
  have heq : rewrite (Linked t.id .rejected) (InboundRow.refine now resolution.target.2.2) r =
      InboundRow.finish now resolution.target.2.1.state resolution.target.2.2 r.val := by
    rw [rewrite, if_pos ⟨hid, hrej⟩, hterm]
    simp [InboundRow.refine, InboundRow.finish, InboundTerminal.state, hrej, hblank]
  rw [heq]
  refine ⟨rfl, rfl, rfl, fun hne => absurd (by rw [hterm]; rfl) hne, ?_⟩
  refine hrow.finish rfl rfl rfl rfl (by rw [hterm]; rfl) ⟨rfl, rfl, rfl⟩ ?_
  exact stateSound_finish (resolved_mem ht now _) hid hscope hcount hmarker (resolve_resolved _ _ _) rfl

/-! ### Sweeps and other turns -/

theorem Sound.sweep {db : Db} {p : Row InboundRow → Bool} (h : Sound I db)
    (hp : ∀ r ∈ db.inbound.rows, p r = true → r.val.state.isTerminal = true) :
    Sound I { db with inbound := db.inbound.deleteWhere p } where
  rows := fun r hr => h.rows r (Table.mem_deleteWhere.1 hr).1
  canonical := fun r hr s hs =>
    h.canonical r (Table.mem_deleteWhere.1 hr).1 s (Table.mem_deleteWhere.1 hs).1
  groups := by
    intro t ht hcount
    have hle : linkedCount (db.inbound.deleteWhere p) t.id ≤ linkedCount db.inbound t.id :=
      List.Sublist.countP_le List.filter_sublist
    rcases h.groups t ht hcount with ⟨hu, hn⟩ | ⟨hr, hn⟩
    -- the rows of an open turn are accepted, so none of them is swept
    · refine .inl ⟨hu, ?_⟩
      rw [← hn, linkedCount, linkedCount, Table.deleteWhere, List.countP_filter]
      refine List.countP_congr fun r hr => ?_
      by_cases hid : r.val.turnRowId = some t.id
      · have hacc := (h.rows r hr).accepted_of_unresolved ht hid hu
        have : p r = false := by
          rw [Bool.eq_false_iff]
          intro hpr
          have := hp r hr hpr
          rw [hacc] at this
          cases this
        simp [hid, this]
      · simp [hid]
    · exact .inr ⟨hr, hle.trans hn⟩

theorem Sound.of_turns (h : Sound I db) (hk : TurnsKept db.turns turns)
    (hgroups : ∀ t ∈ turns.rows, 0 < t.val.inboundCount → GroupSound t.val (linkedCount db.inbound t.id)) :
    Sound I { db with turns := turns } where
  rows := fun r hr => (h.rows r hr).of_turnsKept hk
  canonical := h.canonical
  groups := hgroups

theorem Sound.recordTurn {turn : NewTurnRow} {hk} (h : Sound I db) :
    Sound I { db with turns := db.turns.insert (turn.columns now 0) hk } := by
  refine h.of_turns (.insert _ _ hk) fun t ht hcount => ?_
  rcases (Table.mem_insert (h := hk)).1 ht with ht | rfl
  · exact h.groups t ht hcount
  · exact absurd hcount (Nat.lt_irrefl 0)

/-- A turn with inbound rows that starts running stays open. -/
theorem setState_running {codexTurnId : Option String} {t : TurnRow} (hs : t.state = .starting)
    (hg : t.unresolved = true ∨ t.resolved = true) :
    (t.setState now .running codexTurnId).unresolved = true ∧ t.unresolved = true := by
  refine ⟨rfl, hg.resolve_right fun hr => ?_⟩
  simp [TurnRow.resolved, hs] at hr

theorem Sound.setTurnState {state : TurnState} {codexTurnId : Option String} (h : Sound I db) (ht : t ∈ db.turns.rows)
    (hstart : 0 < t.val.inboundCount → t.val.state = .starting ∧ state = .running) :
    Sound I { db with turns := db.turns.updateWhere (·.id == t.id) (TurnRow.setState now state codexTurnId) } := by
  have hopen : 0 < t.val.inboundCount → (t.val.setState now state codexTurnId).unresolved = true ∧
      t.val.unresolved = true := by
    intro hc
    obtain ⟨hs, rfl⟩ := hstart hc
    exact setState_running hs ((h.groups t ht hc).imp And.left And.left)
  refine h.of_turns ⟨fun q hq hc => ?_⟩ fun q hq hc => ?_
  · by_cases hid : q.id = t.id
    · obtain rfl := Table.eq_of_id hq ht hid
      obtain ⟨hu', hu⟩ := hopen hc
      refine ⟨_, Table.mem_updateWhere.2 ⟨q, hq, Row.update_of_pos (by simp)⟩, rfl, rfl, rfl, hu'.trans hu.symm, ?_, ?_⟩
      · rw [resolved_of_unresolved hu, resolved_of_unresolved hu']
      · intro hr
        rw [resolved_of_unresolved hu] at hr
        cases hr
    · exact ⟨q, Table.mem_updateWhere.2 ⟨q, hq, Row.update_of_neg (by simpa using hid)⟩, rfl, rfl, rfl, rfl, rfl,
        fun _ => rfl⟩
  · obtain ⟨q₀, hq₀, rfl⟩ := Table.mem_updateWhere.1 hq
    by_cases hid : q₀.id = t.id
    · obtain rfl := Table.eq_of_id hq₀ ht hid
      rw [Row.update_of_pos (by simp)] at hc ⊢
      obtain ⟨hu', hu⟩ := hopen hc
      rcases h.groups q₀ ht hc with ⟨-, hn⟩ | ⟨hr, -⟩
      · exact .inl ⟨hu', hn⟩
      · rw [resolved_of_unresolved hu] at hr
        cases hr
    · rw [Row.update_of_neg (by simpa using hid)] at hc ⊢
      exact h.groups q₀ hq₀ hc

/-- An event that can be read back: it has a message type or parts. -/
def Readable (event : InboundEvent) : Prop := event.messageType ≠ "" ∨ event.parts ≠ []

instance : DecidablePred Readable := fun event => inferInstanceAs (Decidable (event.messageType ≠ "" ∨ event.parts ≠ []))

/-- Every operation, with events that can be read back. -/
def readableOnly : Allowed := ⟨Readable, True, fun _ => True, True⟩

/-- **One change keeps the inbox sound.** -/
theorem Change.sound {db' : Db} (hc : Change I readableOnly db db') (h : Sound I db) : Sound I db' := by
  cases hc with
  | enqueue outbox => exact ⟨h.rows, h.canonical, h.groups⟩
  | register now tenant event payload inbound hevent hpayload hnew hinsert =>
    obtain ⟨hk, rfl⟩ := hinsert
    exact h.register (rowSound_receivedRow hpayload hevent) rfl hnew
  | complete now r marker inbound hr hstate hturn hmarker hmaps => exact h.complete hr hstate (hmarker.imp_right And.right) hmaps
  | reject now r reason inbound hr hstate hmaps => exact h.reject hr hstate hmaps
  | mark now r suffix inbound hr hnone hturn hsuffix hmaps => exact h.mark hr hturn hsuffix hmaps
  | claim now turn keys turns inbound hne hscope hturns hcount hmaps =>
    obtain ⟨hk, rfl⟩ := hturns
    exact h.claim hne hscope hcount hmaps
  | finish now t resolution inbound ht hcount hlegal hmarkers hmaps => exact h.finish ht hcount hlegal hmaps
  | refine now t resolution inbound ht hcount hstate hres hmaps => exact h.refine ht hcount hstate hres hmaps
  | sweep p hallowed hp => exact h.sweep hp
  | recordTurn now turn turns hturns =>
    obtain ⟨hk, rfl⟩ := hturns
    exact h.recordTurn
  | setTurnState now t state codexTurnId ht hstart => exact h.setTurnState ht hstart

theorem Changes.sound {db' : Db} (hc : Changes I readableOnly db db') (h : Sound I db) : Sound I db' := by
  induction hc with
  | refl => exact h
  | tail _ hc ih => exact hc.sound ih

/-! ## The check -/

theorem Sound.conflicting (h : Sound I db) : conflicting db = false := by
  rw [Bool.eq_false_iff]
  intro hc
  obtain ⟨r, hr, hp⟩ := List.any_eq_true.1 hc
  simp only [Bool.and_eq_true, decide_eq_true_eq, readMessageCandidates, List.length_map] at hp
  -- two rows of one list that are ordered by id and equal
  set l := db.inbound.rows.filter fun s =>
    s.val.tenant == r.val.tenant && s.val.messageId == r.val.messageId && decide (s.val.state ≠ .rejected) with hl
  have hsorted : l.Pairwise fun s s' => s.id < s'.id := db.inbound.id_lt.filter _
  have hmem : ∀ s ∈ l, s ∈ db.inbound.rows ∧ s.val.tenant = r.val.tenant ∧ s.val.messageId = r.val.messageId ∧
      s.val.state ≠ .rejected := by
    intro s hs
    obtain ⟨hs, hps⟩ := List.mem_filter.1 hs
    simp only [Bool.and_eq_true, beq_iff_eq, decide_eq_true_eq] at hps
    exact ⟨hs, hps.1.1, hps.1.2, hps.2⟩
  match l, hp.2, hsorted, hmem with
  | a :: b :: _, _, hsorted, hmem =>
    obtain ⟨ha, hat, ham, has⟩ := hmem a (by simp)
    obtain ⟨hb, hbt, hbm, hbs⟩ := hmem b (by simp)
    have hab := (List.pairwise_cons.1 hsorted).1 b (by simp)
    rw [h.canonical a ha b hb (hat.trans hbt.symm) (ham.trans hbm.symm) has hbs] at hab
    exact Nat.lt_irrefl _ hab

theorem validateNonemptyBounded_of {value context : String} {limit : ℕ} (h : Bounded value limit) :
    validateNonemptyBounded value limit context = .ok () := by
  rw [validateNonemptyBounded, if_neg]
  rw [not_or]
  exact ⟨by simpa using h.1, by have := h.2; omega⟩

theorem bounded_tenant {tenant : String} (h : isTenantNamespace tenant = true) :
    Bounded tenant storeInboundIdMaxBytes := by
  simp only [isTenantNamespace, Bool.and_eq_true, beq_iff_eq, tenantNamespaceHexBytes] at h
  refine ⟨?_, by rw [h.1]; decide⟩
  rw [Bool.eq_false_iff]
  intro he
  have : tenant.utf8ByteSize = 0 := by simpa using he
  omega

theorem StateSound.reason (h : StateSound turns r) {reason : String} (hr : r.rejectionReason = some reason) :
    Bounded reason storeRejectionReasonMaxBytes := by
  unfold StateSound at h
  split at h
  · rw [h.2.1] at hr
    cases hr
  · rw [h.1] at hr
    cases hr
  · rw [h.1] at hr
    cases hr
  · obtain ⟨kind, -, hk, -⟩ | ⟨-, reason', hk, t, -, -, -, -, -, ht⟩ := h
    · obtain rfl := Option.some.inj (hr.symm.trans hk)
      cases kind <;> decide
    · obtain rfl := Option.some.inj (hr.symm.trans hk)
      cases hs : t.val.state with
      | failed | interrupted | uncertain =>
        rw [hs] at ht
        obtain rfl := Option.some.inj ht
        decide
      | starting | running | completed =>
        rw [hs] at ht
        cases ht

theorem RowSound.payloadBytes_le (h : RowSound I turns r) :
    r.payloadBytes ≤ storeInboundPayloadMaxBytes := by
  have hp := h.payload
  unfold PayloadSound at hp
  split at hp
  · rw [hp.2.2]
    exact Nat.zero_le _
  · obtain ⟨retained, hret⟩ := hp
    obtain ⟨-, -, payload, -, -, hb, hle, -⟩ := retainedFromStored_eq_ok.1 hret
    rw [hb]
    exact hle

theorem RowSound.columns (h : RowSound I turns r) : validateColumns r = .ok () := by
  have hle := h.payloadBytes_le
  refine seq_eq_ok.2 ⟨validateNonemptyBounded_of (bounded_tenant h.tenant), ?_⟩
  refine seq_eq_ok.2 ⟨validateNonemptyBounded_of h.eventId, ?_⟩
  refine seq_eq_ok.2 ⟨validateNonemptyBounded_of h.messageId, ?_⟩
  refine seq_eq_ok.2 ⟨validateNonemptyBounded_of h.scopeKey, ?_⟩
  rw [if_neg, if_neg (by omega)]
  cases hr : r.rejectionReason with
  | none => simp
  | some reason =>
    obtain ⟨hne, hlen⟩ := h.state.reason hr
    simp only [Option.any_some, hne, Bool.false_or, decide_eq_true_eq]
    omega

theorem Sound.group (h : Sound I db) (ht : t ∈ db.turns.rows) (hcount : 0 < t.val.inboundCount) :
    validateRuntimeTurnGroup db t = .ok () := by
  have hlinked : ∀ r ∈ db.linked t.id, r ∈ db.inbound.rows ∧ r.val.turnRowId = some t.id := by
    intro r hr
    obtain ⟨hr, hid⟩ := List.mem_filter.1 hr
    exact ⟨hr, by simpa using hid⟩
  have hlen : (db.linked t.id).length = linkedCount db.inbound t.id := by
    rw [linkedCount, List.countP_eq_length_filter, Db.linked]
  rcases h.groups t ht hcount with ⟨hu, hn⟩ | ⟨hres, hn⟩
  · have hacc : ∀ r ∈ db.linked t.id, r.val.state = .accepted := fun r hr =>
      (h.rows r (hlinked r hr).1).accepted_of_unresolved ht (hlinked r hr).2 hu
    have hfilter : (db.linked t.id).filter (fun r => r.val.state = .accepted) = db.linked t.id :=
      List.filter_eq_self.2 fun r hr => by simp [hacc r hr]
    have hscope : ((db.linked t.id).any fun r => r.val.scopeKey ≠ t.val.scopeKey) = false := by
      rw [List.any_eq_false]
      intro r hr
      obtain ⟨hsc, -⟩ := (h.rows r (hlinked r hr).1).linked ht (hlinked r hr).2
      simp [hsc]
    rw [validateRuntimeTurnGroup, if_pos hu, validateUnresolvedMarkers, if_neg]
    rw [hfilter, hscope, hlen]
    simp [hn]
  · have hu : t.val.unresolved = false := by
      rw [Bool.eq_false_iff]
      intro hu
      rw [resolved_of_unresolved hu] at hres
      cases hres
    have hstate : ∀ r ∈ db.linked t.id,
        r.val.state = if t.val.state = .completed then InboundEventState.completed else .rejected := by
      intro r hr
      obtain ⟨-, -, -, ⟨-, hu'⟩ | ⟨-, ⟨hs, hc⟩ | ⟨hs, reason, -, hreason⟩⟩⟩ :=
        (h.rows r (hlinked r hr).1).linked ht (hlinked r hr).2
      · rw [hu] at hu'
        cases hu'
      · rw [hs, if_pos hc]
      · rw [hs, if_neg]
        intro hc
        rw [hc] at hreason
        cases hreason
    have hfilter : (db.linked t.id).filter (fun r =>
        r.val.state = if t.val.state = .completed then InboundEventState.completed else .rejected) = db.linked t.id :=
      List.filter_eq_self.2 fun r hr => by simp [hstate r hr]
    have hacc : ((db.linked t.id).any fun r => r.val.state = .accepted) = false := by
      rw [List.any_eq_false]
      intro r hr
      rw [hstate r hr]
      split <;> simp
    rw [validateRuntimeTurnGroup, if_neg (by simp [hu]), if_neg (by simp [hres]), validateResolvedMarkers, if_neg]
    rw [hfilter, hacc, hlen]
    simp
    omega

/-- The turn of a linked row passes. -/
theorem Sound.association (h : Sound I db) {r : Row InboundRow} (hr : r ∈ db.inbound.rows) (ht : t ∈ db.turns.rows)
    (hid : r.val.turnRowId = some t.id) : validateTurnAssociation db r.val = .ok () := by
  obtain ⟨hscope, hcount, -, hstate⟩ := (h.rows r hr).linked ht hid
  rw [validateTurnAssociation, hid]
  dsimp only
  rw [Table.get?_eq_some.2 ⟨ht, rfl⟩]
  dsimp only
  rw [if_neg (by simp [hscope]; omega)]
  refine seq_eq_ok.2 ⟨?_, h.group ht hcount⟩
  rcases hstate with ⟨hs, hu⟩ | ⟨hres, ⟨hs, hc⟩ | ⟨hs, reason, hreason, hturn⟩⟩
  · rw [validateTurnState, hs]
    simp [hu]
  · rw [validateTurnState, hs]
    simp [hres, hc]
  · rw [validateTurnState, hs]
    simp [hres, hreason, hturn]

theorem HasTurn.turn {P : TurnRow → Prop} (h : HasTurn turns r P) :
    ∃ t ∈ turns.rows, r.turnRowId = some t.id := by
  obtain ⟨t, ht, hid, -⟩ := h
  exact ⟨t, ht, hid⟩

theorem Sound.rowState (h : Sound I db) {r : Row InboundRow} (hr : r ∈ db.inbound.rows) :
    validateRowState I db r.val = .ok () := by
  have hrow := h.rows r hr
  have hs := hrow.state
  have hp := hrow.payload
  unfold StateSound at hs
  unfold PayloadSound at hp
  unfold validateRowState
  cases hstate : r.val.state with
  | received =>
    rw [hstate] at hs hp
    obtain ⟨retained, hret⟩ := hp
    dsimp only
    rw [if_neg (by simp [hrow.tenant, hs])]
    exact bind_eq_ok.2 ⟨retained, hret, rfl⟩
  | accepted =>
    rw [hstate] at hs hp
    obtain ⟨retained, hret⟩ := hp
    obtain ⟨t, ht, hid⟩ := hs.2.2.turn
    dsimp only
    rw [if_neg (by simp [hrow.tenant, hs, hid])]
    exact bind_eq_ok.2 ⟨retained, hret, h.association hr ht hid⟩
  | completed =>
    rw [hstate] at hs
    have hblank := hrow.payload.blank (by rw [hstate]; rfl)
    dsimp only
    rw [if_neg (by simp [hblank, hs])]
    rcases hs.2 with ⟨hnone, -⟩ | ⟨-, ht⟩
    · rw [if_neg (by simp [hnone])]
    · obtain ⟨t, ht, hid⟩ := ht.turn
      rw [if_pos (by simp [hid]), if_neg (by simp [hrow.tenant])]
      exact h.association hr ht hid
  | rejected =>
    rw [hstate] at hs
    have hblank := hrow.payload.blank (by rw [hstate]; rfl)
    dsimp only
    rw [if_neg (by simp [hblank])]
    rcases hs with ⟨_, hnone, -⟩ | ⟨-, _, -, ht⟩
    · rw [if_neg (by simp [hnone])]
    · obtain ⟨t, ht, hid⟩ := ht.turn
      rw [if_pos (by simp [hid]), if_neg (by simp [hrow.tenant])]
      exact h.association hr ht hid

/-- A derived key passes the check of markers. -/
theorem replyEffect_of_marker {suffix : String} (htenant : isTenantNamespace r.tenant = true)
    (hevent : Bounded r.eventId storeInboundIdMaxBytes)
    (hlen : suffix.utf8ByteSize ≤ "notice:".utf8ByteSize + storeRejectionReasonMaxBytes)
    (hsuffix : replySuffix r = .ok suffix) (hm : MarkerIs r suffix) : validateInboundReplyEffect r = .ok () := by
  unfold validateInboundReplyEffect
  cases hk : r.replyOutboxKey with
  | none => rfl
  | some recorded =>
    have hrec := hm recorded hk
    have hsize : recorded.utf8ByteSize = "inbound:v1:".utf8ByteSize + r.tenant.utf8ByteSize + ":".utf8ByteSize +
        r.eventId.utf8ByteSize + ":".utf8ByteSize + suffix.utf8ByteSize := by
      rw [hrec]
      simp only [inboundReplyOutboxKey, String.utf8ByteSize_append]
    have h11 : "inbound:v1:".utf8ByteSize = 11 := rfl
    have h1 : ":".utf8ByteSize = 1 := rfl
    have htsize : r.tenant.utf8ByteSize = tenantNamespaceHexBytes := by
      simp only [isTenantNamespace, Bool.and_eq_true, beq_iff_eq] at htenant
      exact htenant.1
    have hne : recorded.isEmpty = false := by
      rw [Bool.eq_false_iff]
      intro he
      have : recorded.utf8ByteSize = 0 := by simpa using he
      omega
    have hmax : ¬recorded.utf8ByteSize > inboundReplyKeyMaxBytes := by
      have := hevent.2
      unfold inboundReplyKeyMaxBytes
      omega
    dsimp only
    rw [if_neg (by simp only [htenant, hne]; simpa using hmax), hsuffix]
    exact bind_eq_ok.2 ⟨suffix, rfl, if_neg (by simp [hrec])⟩

theorem RowSound.replyEffect (h : RowSound I turns r) :
    validateInboundReplyEffect r = .ok () := by
  have no_marker : r.replyOutboxKey = none → validateInboundReplyEffect r = .ok () := by
    intro hn
    rw [validateInboundReplyEffect, hn]
  have hs := h.state
  unfold StateSound at hs
  cases hstate : r.state with
  | received =>
    rw [hstate] at hs
    exact no_marker hs.2.2
  | accepted =>
    rw [hstate] at hs
    exact no_marker hs.2.1
  | completed =>
    rw [hstate] at hs
    rcases hs.2 with ⟨hnone, hm⟩ | ⟨hnone, -⟩
    · exact replyEffect_of_marker h.tenant h.eventId (by decide) (by rw [replySuffix, hstate, hnone, hs.1]) hm
    · exact no_marker hnone
  | rejected =>
    rw [hstate] at hs
    rcases hs with ⟨kind, hnone, hreason, hm⟩ | ⟨hnone, -⟩
    · refine replyEffect_of_marker h.tenant h.eventId ?_ ?_ hm
      · cases kind <;> decide
      · rw [replySuffix, hstate, hnone, hreason]
        exact if_pos (by cases kind <;> decide)
    · exact no_marker hnone

/-- **A sound database passes the check of the inbox**, up to its capacity bounds. -/
theorem Sound.validate (h : Sound I db) : validateInboundCollection I db = .ok () ∨
    validateInboundCollection I db = .error (.capacityExceeded "recovering the inbound collection") := by
  unfold validateInboundCollection
  split
  · exact .inr rfl
  · refine .inl ?_
    rw [h.conflicting, if_neg (by simp)]
    refine seq_eq_ok.2 ⟨forM_eq_ok.2 fun r hr => ?_, forM_eq_ok.2 fun t ht => ?_⟩
    · have hr := (List.perm_insertionSort keyOrder _).mem_iff.1 hr
      exact seq_eq_ok.2 ⟨(h.rows r hr).columns, seq_eq_ok.2 ⟨h.rowState hr, (h.rows r hr).replyEffect⟩⟩
    · obtain ⟨ht, hc⟩ := List.mem_filter.1 ht
      exact h.group ht (by simpa using hc)

/-! ## Runs -/

/-- What the check of the inbox stands for, said of the rows and turns themselves. -/
structure Integrity (I : InboundCodec) (db : Db) : Prop where
  /-- At most one row of a message was not rejected. -/
  canonical : ∀ r ∈ db.inbound.rows, ∀ s ∈ db.inbound.rows, r.val.tenant = s.val.tenant →
    r.val.messageId = s.val.messageId → r.val.state ≠ .rejected → s.val.state ≠ .rejected → r = s
  /-- A payload is there exactly in the states `received` and `accepted`. -/
  payload : ∀ r ∈ db.inbound.rows,
    r.val.payloadBlob.isSome = true ↔ r.val.state = .received ∨ r.val.state = .accepted
  /-- It reads back as an event of the row's identity. -/
  decodes : ∀ r ∈ db.inbound.rows, r.val.state = .received ∨ r.val.state = .accepted →
    ∃ retained, retainedFromStored I r.val = .ok retained ∧ retained.event.eventId = r.val.eventId ∧
      retained.event.messageId = r.val.messageId ∧ retained.event.scope.toString = r.val.scopeKey
  /-- An accepted row is linked to an open turn of its scope. -/
  accepted : ∀ r ∈ db.inbound.rows, r.val.state = .accepted → ∃ t ∈ db.turns.rows,
    r.val.turnRowId = some t.id ∧ t.val.scopeKey = r.val.scopeKey ∧ t.val.unresolved = true
  /-- The rows of a resolved turn have its outcome and its reason. -/
  resolved : ∀ t ∈ db.turns.rows, t.val.resolved = true → ∀ r ∈ db.linked t.id,
    if t.val.state = .completed then r.val.state = .completed ∧ r.val.rejectionReason = none
    else r.val.state = .rejected ∧ r.val.rejectionReason = turnRejectionReason t.val.state
  /-- A reply marker is the key derived from the row. -/
  marker : ∀ r ∈ db.inbound.rows, ∀ k, r.val.replyOutboxKey = some k →
    r.val.state = .completed ∧ k = inboundReplyOutboxKey r.val.tenant r.val.eventId "control" ∨
      ∃ reason : InboundRejectionKind, r.val.state = .rejected ∧ r.val.rejectionReason = some reason.asStr ∧
        k = inboundReplyOutboxKey r.val.tenant r.val.eventId ("notice:" ++ reason.asStr)

theorem Sound.decodes (h : Sound I db) {r : Row InboundRow} (hr : r ∈ db.inbound.rows)
    (hs : r.val.state = .received ∨ r.val.state = .accepted) :
    ∃ retained, retainedFromStored I r.val = .ok retained := by
  have hp := (h.rows r hr).payload
  rw [PayloadSound, if_neg (by rcases hs with hs | hs <;> simp [hs, InboundEventState.isTerminal])] at hp
  exact hp

theorem Sound.payload (h : Sound I db) {r : Row InboundRow} (hr : r ∈ db.inbound.rows) :
    r.val.payloadBlob.isSome = true ↔ r.val.state = .received ∨ r.val.state = .accepted := by
  by_cases hs : r.val.state = .received ∨ r.val.state = .accepted
  · obtain ⟨retained, hret⟩ := h.decodes hr hs
    obtain ⟨-, -, payload, -, hb, -⟩ := retainedFromStored_eq_ok.1 hret
    simp [hb, hs]
  · have hterm : r.val.state.isTerminal = true := by
      cases hst : r.val.state <;> simp_all [InboundEventState.isTerminal]
    simp [(h.rows r hr).payload.blank hterm, hs]

theorem Sound.resolvedRows (h : Sound I db) (ht : t ∈ db.turns.rows) (hres : t.val.resolved = true) {r : Row InboundRow}
    (hr : r ∈ db.linked t.id) :
    if t.val.state = .completed then r.val.state = .completed ∧ r.val.rejectionReason = none
    else r.val.state = .rejected ∧ r.val.rejectionReason = turnRejectionReason t.val.state := by
  obtain ⟨hr, hid⟩ := List.mem_filter.1 hr
  have hrow := h.rows r hr
  obtain ⟨-, -, -, ⟨-, hu⟩ | ⟨-, ⟨hs, hc⟩ | ⟨hs, reason, hreason, hturn⟩⟩⟩ := hrow.linked ht (by simpa using hid)
  · rw [resolved_of_unresolved hu] at hres
    cases hres
  · have hstate := hrow.state
    rw [StateSound, hs] at hstate
    rw [if_pos hc]
    exact ⟨hs, hstate.1⟩
  · rw [if_neg]
    · exact ⟨hs, hreason.trans hturn.symm⟩
    · intro hc
      rw [hc] at hturn
      cases hturn

theorem Sound.marker (h : Sound I db) {r : Row InboundRow} (hr : r ∈ db.inbound.rows) {k : String}
    (hk : r.val.replyOutboxKey = some k) :
    r.val.state = .completed ∧ k = inboundReplyOutboxKey r.val.tenant r.val.eventId "control" ∨
      ∃ reason : InboundRejectionKind, r.val.state = .rejected ∧ r.val.rejectionReason = some reason.asStr ∧
        k = inboundReplyOutboxKey r.val.tenant r.val.eventId ("notice:" ++ reason.asStr) := by
  have hstate := (h.rows r hr).state
  unfold StateSound at hstate
  split at hstate
  · rw [hstate.2.2] at hk
    cases hk
  · rw [hstate.2.1] at hk
    cases hk
  · next hs =>
    rcases hstate.2 with ⟨-, hm⟩ | ⟨hn, -⟩
    · exact .inl ⟨hs, hm k hk⟩
    · rw [hn] at hk
      cases hk
  · next hs =>
    rcases hstate with ⟨reason, -, hreason, hm⟩ | ⟨hn, -⟩
    · exact .inr ⟨reason, hs, hreason, hm k hk⟩
    · rw [hn] at hk
      cases hk

theorem Sound.integrity (h : Sound I db) : Integrity I db where
  canonical := h.canonical
  payload := fun _ hr => h.payload hr
  decodes := by
    intro r hr hs
    obtain ⟨retained, hret⟩ := h.decodes hr hs
    obtain ⟨-, -, _, _, -, -, -, -, -, he, hm, hsc, -⟩ := retainedFromStored_eq_ok.1 hret
    exact ⟨retained, hret, he, hm, hsc⟩
  accepted := by
    intro r hr hs
    have hstate := (h.rows r hr).state
    rw [StateSound, hs] at hstate
    obtain ⟨t, ht, hid, hscope, -, hu⟩ := hstate.2.2
    exact ⟨t, ht, hid, hscope, hu⟩
  resolved := fun _ ht hres _ hr => h.resolvedRows ht hres hr
  marker := fun _ hr _ hk => h.marker hr hk

/-- The database of a run whose registered events can be read back is sound. -/
theorem storeAfter_sound {es : List StoreEvent} (h : ∀ e ∈ es, ∀ event ∈ e.registered, Readable event) :
    Sound I (storeAfter C I es).db := by
  have hrun : ∀ (es : List StoreEvent) (w : Writer Db), (∀ e ∈ es, ∀ event ∈ e.registered, Readable event) →
      Sound I w.db → Sound I (exec (storeStep C I) w es).db := by
    intro es
    induction es with
    | nil => exact fun w _ hw => hw
    | cons e es ih =>
      intro w hes hw
      obtain ⟨he, hes⟩ := List.forall_mem_cons.1 hes
      exact ih _ hes ((storeStep_changes w e ⟨he, fun _ => trivial, fun _ _ => trivial, fun _ => trivial⟩).sound hw)
  exact hrun es emptyStore h Sound.empty

/-- **Every database that store operations lead to passes the check of the inbox**, as long as every event given to
`register_inbound` has a message type or parts. -/
theorem inbox_integrity (C : Codec) (I : InboundCodec) (es : List StoreEvent)
    (h : ∀ e ∈ es, ∀ event ∈ e.registered, event.messageType ≠ "" ∨ event.parts ≠ []) :
    (∀ context, validateInboundCollection I (storeAfter C I es).db ≠ .error (.corruptData context)) ∧
      Integrity I (storeAfter C I es).db := by
  have hs := storeAfter_sound (C := C) (I := I) h
  refine ⟨fun context hc => ?_, hs.integrity⟩
  rcases hs.validate with hv | hv
  · rw [hv] at hc
    cases hc
  · rw [hv] at hc
    cases hc

/-! ### A message through its life, and an event that is lost -/

/-- A codec that knows the texts of some wire shapes. -/
def codecOf (entries : List (InboundPayloadV1 × ByteArray)) (hnodup : (entries.map (·.2.data.toList)).Nodup) :
    InboundCodec where
  toVec dto := (entries.find? (·.1 = dto)).map (·.2)
  fromSlice payload := (entries.find? (·.2.data.toList = payload.data.toList)).map (·.1)
  fromSlice_toVec := by
    intro dto payload h
    obtain ⟨entry, hfind, rfl⟩ := Option.map_eq_some_iff.1 h
    have hmem := List.mem_of_find?_eq_some hfind
    have hdto : entry.1 = dto := by simpa using List.find?_some hfind
    cases hf : entries.find? (·.2.data.toList = entry.2.data.toList) with
    | none => exact absurd (List.find?_eq_none.1 hf entry hmem) (by simp)
    | some other =>
      have hsnd : other.2.data.toList = entry.2.data.toList := by
        have h := List.find?_some hf
        exact of_decide_eq_true h
      rw [List.inj_on_of_nodup_map hnodup (List.mem_of_find?_eq_some hf) hmem hsnd, Option.map_some, hdto]

/-- The codec of an outbox that is not used. -/
def noOutbox : Codec := ⟨fun _ => none, fun _ => none, fun _ => none, fun _ => none, fun _ => none, fun _ => none,
  fun _ => none, id⟩

theorem sampleDigest_length : (List.replicate 32 (0x5a : UInt8)).length = 32 := List.length_replicate

def sampleTenant : TenantNamespace := ⟨List.replicate 32 0x5a, sampleDigest_length⟩

/-- A direct message. -/
def sampleEvent (eventId messageType text : String) (parts : List MessagePart) : InboundEvent where
  eventId := eventId
  messageId := "om_1"
  chatId := "oc_1"
  senderId := "ou_1"
  chatType := .p2p
  threadId := none
  rootId := none
  replyToMessageId := none
  text := text
  mentionsBot := false
  mentionAll := false
  senderIsHuman := true
  mentions := []
  parts := parts
  resources := []
  messageType := messageType
  createTimeMs := 1
  scope := .chat "oc_1"

def helloEvent (eventId : String) : InboundEvent := sampleEvent eventId "text" "hello" [.text "hello"]

/-- What `serde_json` writes for `helloEvent`. -/
def helloPayload (eventId : String) : ByteArray :=
  String.toUTF8 <|
    "\x7b\"event_id\":\"" ++ eventId ++ "\",\"message_id\":\"om_1\",\"chat_id\":\"oc_1\",\"sender_id\":\"" ++
    "ou_1\",\"chat_type\":\"p2p\",\"thread_id\":null,\"root_id\":null,\"reply_to_mess" ++
    "age_id\":null,\"text\":\"hello\",\"mentions_bot\":false,\"mention_all\":false,\"" ++
    "sender_is_human\":true,\"mentions\":[],\"parts\":[\x7b\"kind\":\"text\",\"value\":\x7b\"" ++
    "text\":\"hello\"\x7d\x7d],\"resources\":[],\"message_type\":\"text\",\"create_time_ms\"" ++
    ":1,\"scope\":\x7b\"kind\":\"chat\",\"chat_id\":\"oc_1\",\"thread_id\":null\x7d\x7d"

/-- The message under two event ids. -/
def helloCodec : InboundCodec :=
  codecOf (["evt_1", "evt_2"].map fun id => (.ofEvent (persistableEvent (helloEvent id)), helloPayload id))
    (by decide)

def helloKey (eventId : String) : InboundKey := ⟨sampleTenant, eventId⟩

/-- A message is registered, claimed, run, resolved as uncertain and refined. -/
def messageRun : List StoreEvent :=
  [.call .execute 1000 (.registerInbound sampleTenant (helloEvent "evt_1")),
   .call .execute 1001 (.beginTurnAndClaimInbound ⟨"im:oc_1", "client-1", none, .starting⟩ [(helloKey "evt_1", none)]),
   .call .execute 1002 (.setTurnState 1 .running (some "turn-1")),
   .restart,
   .call .execute 1003 (.resolveTurnAndFinishInboundBatch 1 .uncertain .rejected),
   .call .execute 1004 (.resolveTurnAndFinishInboundBatch 1 .interrupted .rejected)]

set_option maxRecDepth 20000 in
theorem inbox_integrity_messageRun :
    ((storeAfter noOutbox helloCodec messageRun).db.inbound.rows.map fun r => (r.val.state, r.val.rejectionReason)) =
      [(.rejected, some "turn_interrupted")] ∧
    ((∀ context, validateInboundCollection helloCodec (storeAfter noOutbox helloCodec messageRun).db ≠
      .error (.corruptData context)) ∧ Integrity helloCodec (storeAfter noOutbox helloCodec messageRun).db) :=
  ⟨by decide, inbox_integrity noOutbox helloCodec messageRun (by decide)⟩

/-- An event with neither a message type nor parts. -/
def emptyTypeEvent : InboundEvent := sampleEvent "evt_1" "" "" []

/-- What `serde_json` writes for it. -/
def emptyTypePayload : ByteArray :=
  String.toUTF8 <|
    "\x7b\"event_id\":\"evt_1\",\"message_id\":\"om_1\",\"chat_id\":\"oc_1\",\"sender_id\":\"" ++
    "ou_1\",\"chat_type\":\"p2p\",\"thread_id\":null,\"root_id\":null,\"reply_to_mess" ++
    "age_id\":null,\"text\":\"\",\"mentions_bot\":false,\"mention_all\":false,\"sende" ++
    "r_is_human\":true,\"mentions\":[],\"parts\":[],\"resources\":[],\"message_type" ++
    "\":\"\",\"create_time_ms\":1,\"scope\":\x7b\"kind\":\"chat\",\"chat_id\":\"oc_1\",\"threa" ++
    "d_id\":null\x7d\x7d"

def emptyTypeCodec : InboundCodec := codecOf [(.ofEvent (persistableEvent emptyTypeEvent), emptyTypePayload)] (by simp)

/-- Its registration. -/
def emptyTypeRun : List StoreEvent := [.call .execute 1000 (.registerInbound sampleTenant emptyTypeEvent)]

set_option maxRecDepth 20000 in
/-- **The event is registered and cannot be read back**: every later recovery fails. -/
theorem unreadable_row :
    validateInboundCollection emptyTypeCodec (storeAfter noOutbox emptyTypeCodec emptyTypeRun).db =
      .error (.payloadTooLarge "validating an unsupported inbound message type" 256) ∧
    ¬((∀ context, validateInboundCollection emptyTypeCodec (storeAfter noOutbox emptyTypeCodec emptyTypeRun).db ≠
      .error (.corruptData context)) ∧ Integrity emptyTypeCodec (storeAfter noOutbox emptyTypeCodec emptyTypeRun).db) := by
  refine ⟨by decide, fun ⟨_, h⟩ => ?_⟩
  have hrow : ∃ r ∈ (storeAfter noOutbox emptyTypeCodec emptyTypeRun).db.inbound.rows, r.val.state = .received ∧
      (retainedFromStored emptyTypeCodec r.val).isOk = false := by decide
  obtain ⟨r, hr, hs, herr⟩ := hrow
  obtain ⟨retained, hret, -⟩ := h.decodes r hr (.inl hs)
  rw [hret] at herr
  cases herr

end LarkCodexBridge.Store

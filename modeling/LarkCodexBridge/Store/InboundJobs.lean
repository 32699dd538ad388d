import Mathlib
import LarkCodexBridge.Store.Inbound

/-!
# What the inbox jobs do to the database

Every job that succeeds makes finitely many changes, each of a few shapes (`Change`): a row is registered, settled,
marked, claimed together with others by a new turn, finished together with the other rows of its turn, or swept; a turn
is recorded or moved. What is to be shown of all jobs is shown of one `Change` and carried over by the lemmas here, one
for each job.
-/

namespace LarkCodexBridge.Store

open Limits SqlTable Outbox Lark

variable {C : Codec} {I : InboundCodec} {A : Allowed}

/-- The rows chosen by `p` rewritten by `g`. -/
def rewrite (p : InboundRow → Prop) [DecidablePred p] (g : InboundRow → InboundRow) (r : Row InboundRow) : InboundRow :=
  if p r.val then g r.val else r.val

/-- A received row that a claim of `keys` takes. -/
def Claimable (keys : List (String × String)) (r : InboundRow) : Prop :=
  r.state = .received ∧ r.turnRowId = none ∧ r.key ∈ keys

instance (keys : List (String × String)) : DecidablePred (Claimable keys) := fun r =>
  inferInstanceAs (Decidable (r.state = .received ∧ r.turnRowId = none ∧ r.key ∈ keys))

/-- A row of this turn in this state. -/
def Linked (turnRowId : ℕ) (state : InboundEventState) (r : InboundRow) : Prop :=
  r.turnRowId = some turnRowId ∧ r.state = state

instance (turnRowId : ℕ) (state : InboundEventState) : DecidablePred (Linked turnRowId state) := fun r =>
  inferInstanceAs (Decidable (r.turnRowId = some turnRowId ∧ r.state = state))

/-- What the operations of a run are allowed to do. -/
structure Allowed where
  /-- The events that may be registered. -/
  registers : InboundEvent → Prop
  /-- Whether rows may be swept. -/
  sweeps : Prop
  /-- The keys of the rows that may be rejected or claimed. -/
  ends : String × String → Prop
  /-- Whether a turn recorded as uncertain may be refined to an interrupted one. -/
  interrupts : Prop

/-- One change of the database by a job, within what `A` allows. -/
inductive Change (I : InboundCodec) (A : Allowed) : Db → Db → Prop
  /-- Only the outbox changes. -/
  | enqueue (db : Db) (outbox : OutboxTable) : Change I A db { db with outbox := outbox }
  /-- A new row, whose message has no row that was not rejected. -/
  | register (db : Db) (now : ℤ) (tenant : TenantNamespace) (event : InboundEvent) (payload : ByteArray)
      (inbound : InboundTable) (hevent : A.registers event) (hpayload : encodeEvent I event = .ok payload)
      (hnew : ∀ r ∈ db.inbound.rows, r.val.tenant = tenant.asHex → r.val.messageId = event.messageId →
        r.val.state = .rejected)
      (hinsert : ∃ hk, inbound = db.inbound.insert (receivedRow now tenant event payload) hk)
      (hroom : ensureInboundCapacity db (tenant.asHex.utf8ByteSize + event.eventId.utf8ByteSize +
        event.messageId.utf8ByteSize + event.scope.toString.utf8ByteSize + payload.size) payload.size = .ok ()) :
      Change I A db { db with inbound := inbound }
  /-- A received row is completed, perhaps with its control reply. -/
  | complete (db : Db) (now : ℤ) (r : Row InboundRow) (marker : Option String) (inbound : InboundTable)
      (hr : r ∈ db.inbound.rows) (hstate : r.val.state = .received) (hturn : r.val.turnRowId = none)
      (hmarker : marker = r.val.replyOutboxKey ∨
        r.val.replyOutboxKey = none ∧ marker = some (inboundReplyOutboxKey r.val.tenant r.val.eventId "control"))
      (hmaps : Table.Maps (rewrite (·.key = r.val.key) fun r => { r.complete now with replyOutboxKey := marker })
        db.inbound inbound) : Change I A db { db with inbound := inbound }
  /-- A received row is rejected. -/
  | reject (db : Db) (now : ℤ) (r : Row InboundRow) (reason : InboundRejectionKind) (inbound : InboundTable)
      (hr : r ∈ db.inbound.rows) (hstate : r.val.state = .received)
      (hmaps : Table.Maps (rewrite (·.key = r.val.key) (InboundRow.finish now .rejected (some reason.asStr)))
        db.inbound inbound) (hends : A.ends r.val.key) : Change I A db { db with inbound := inbound }
  /-- A row that was settled without a turn gets the key of its reply. -/
  | mark (db : Db) (now : ℤ) (r : Row InboundRow) (suffix : String) (inbound : InboundTable)
      (hr : r ∈ db.inbound.rows) (hnone : r.val.replyOutboxKey = none)
      (hturn : r.val.state = .completed → r.val.turnRowId = none)
      (hsuffix : r.val.state = .completed ∧ suffix = "control" ∨
        ∃ reason : InboundRejectionKind, r.val.state = .rejected ∧ r.val.rejectionReason = some reason.asStr ∧
          suffix = "notice:" ++ reason.asStr)
      (hmaps : Table.Maps (rewrite (·.key = r.val.key)
        (InboundRow.mark now (inboundReplyOutboxKey r.val.tenant r.val.eventId suffix))) db.inbound inbound)
      (hroom : db.logicalBytes + (inboundReplyOutboxKey r.val.tenant r.val.eventId suffix).utf8ByteSize ≤
        storeInboundMaxBytes) :
      Change I A db { db with inbound := inbound }
  /-- A new turn claims as many rows as it counts, all of its scope. -/
  | claim (db : Db) (now : ℤ) (turn : NewTurnRow) (keys : List (String × String)) (turns : TurnTable)
      (inbound : InboundTable) (hne : keys ≠ [])
      (hscope : ∀ r ∈ db.inbound.rows, r.val.key ∈ keys → r.val.scopeKey = turn.scopeKey)
      (hturns : ∃ hk, turns = db.turns.insert (turn.columns now keys.length) hk)
      (hcount : db.inbound.rows.countP (fun r => Claimable keys r.val) = keys.length)
      (hmaps : Table.Maps (rewrite (Claimable keys) (InboundRow.claim now db.turns.nextId)) db.inbound inbound)
      (hends : ∀ k ∈ keys, A.ends k) : Change I A db { db with inbound := inbound, turns := turns }
  /-- An open turn ends with all its rows. -/
  | finish (db : Db) (now : ℤ) (t : Row TurnRow) (resolution : TurnResolution) (inbound : InboundTable)
      (ht : t ∈ db.turns.rows) (hcount : 0 < t.val.inboundCount) (hlegal : legalResolution t.val resolution = true)
      (hmarkers : validateUnresolvedMarkers db t.id t.val.scopeKey t.val.inboundCount = .ok ())
      (hmaps : Table.Maps (rewrite (Linked t.id .accepted)
        (InboundRow.finish now resolution.target.2.1.state resolution.target.2.2)) db.inbound inbound) :
      Change I A db { db.resolveTurn now t.id resolution.target.1 with inbound := inbound }
  /-- A turn that ended as uncertain turns out to have failed or to have been interrupted. -/
  | refine (db : Db) (now : ℤ) (t : Row TurnRow) (resolution : TurnResolution) (inbound : InboundTable)
      (ht : t ∈ db.turns.rows) (hcount : 0 < t.val.inboundCount)
      (hstate : t.val.state = .uncertain ∧ t.val.uncertain = false)
      (hres : resolution = .failed ∨ resolution = .interrupted)
      (hmaps : Table.Maps (rewrite (Linked t.id .rejected) (InboundRow.refine now resolution.target.2.2))
        db.inbound inbound) (hallowed : resolution = .interrupted → A.interrupts) : Change I A db { db.resolveTurn now t.id resolution.target.1 with inbound := inbound }
  /-- Terminal rows are deleted. -/
  | sweep (db : Db) (p : Row InboundRow → Bool) (hallowed : A.sweeps)
      (hp : ∀ r ∈ db.inbound.rows, p r = true → r.val.state.isTerminal = true) :
      Change I A db { db with inbound := db.inbound.deleteWhere p }
  /-- A turn without inbound rows is recorded. -/
  | recordTurn (db : Db) (now : ℤ) (turn : NewTurnRow) (turns : TurnTable)
      (hturns : ∃ hk, turns = db.turns.insert (turn.columns now 0) hk) : Change I A db { db with turns := turns }
  /-- A turn moves on; one with inbound rows only starts running. -/
  | setTurnState (db : Db) (now : ℤ) (t : Row TurnRow) (state : TurnState) (codexTurnId : Option String)
      (ht : t ∈ db.turns.rows) (hstart : 0 < t.val.inboundCount → t.val.state = .starting ∧ state = .running) :
      Change I A db { db with turns := db.turns.updateWhere (·.id == t.id) (TurnRow.setState now state codexTurnId) }

/-- What the changes of a job lead to. -/
abbrev Changes (I : InboundCodec) (A : Allowed) : Db → Db → Prop := Relation.ReflTransGen (Change I A)

/-! ## Statements -/

variable {db : Db} {stored : InboundRow}

theorem readInboundRow_eq_some {key : String × String} (h : readInboundRow db key = some stored) :
    ∃ r ∈ db.inbound.rows, r.val = stored ∧ r.val.key = key := by
  obtain ⟨r, hr, rfl⟩ := Option.map_eq_some_iff.1 h
  obtain ⟨hr, hk⟩ := Table.lookup_eq_some.1 hr
  exact ⟨r, hr, rfl, hk⟩

theorem readMessageCandidates_eq_nil {tenant messageId : String} (h : readMessageCandidates db tenant messageId = []) :
    ∀ r ∈ db.inbound.rows, r.val.tenant = tenant →
      r.val.messageId = messageId → r.val.state = .rejected := by
  intro r hr ht hm
  by_contra hs
  have hmem : r.val ∈ readMessageCandidates db tenant messageId :=
    List.mem_map.2 ⟨r, List.mem_filter.2 ⟨hr, by simp [ht, hm, hs]⟩, rfl⟩
  rw [h] at hmem
  cases hmem

variable {db' : Db} {context context' : String} {p : InboundRow → Bool} {g : InboundRow → InboundRow} {n : ℕ}

theorem updateInbound_ok {hg} (h : db.updateInbound context p g hg = .ok (n, db')) :
    n = (db.inbound.rows.filter (p ·.val)).length ∧ ∃ inbound, db' = { db with inbound := inbound } ∧
      Table.Maps (fun r => if p r.val then g r.val else r.val) db.inbound inbound := by
  unfold Db.updateInbound at h
  dsimp only at h
  split at h
  · cases h
  · cases h
    exact ⟨rfl, _, rfl, Table.updateWhere_maps _ _ _ _⟩

/-- An update of one row: exactly one row is chosen. -/
theorem updateOne_ok {hg} (h : db.updateOne context context' p g hg = .ok db') :
    db.inbound.rows.countP (p ·.val) = 1 ∧ ∃ inbound, db' = { db with inbound := inbound } ∧
      Table.Maps (fun r => if p r.val then g r.val else r.val) db.inbound inbound := by
  unfold Db.updateOne at h
  split at h
  · cases h
  · next hu =>
    obtain ⟨hn, inbound, hdb, hm⟩ := updateInbound_ok hu
    split at h
    · cases h
    · next hne =>
      cases h
      exact ⟨by rw [List.countP_eq_length_filter, ← hn]; omega, inbound, hdb, hm⟩

variable {r : Row InboundRow}

/-- A predicate that holds of one row only, and of no row with another key, chooses the row of its key. -/
theorem rewrite_key {inbound : InboundTable} (hr : r ∈ db.inbound.rows) (hp : p r.val = true)
    (hkey : ∀ s, p s = true → s.key = r.val.key)
    (h : Table.Maps (fun r => if p r.val then g r.val else r.val) db.inbound inbound) :
    Table.Maps (rewrite (·.key = r.val.key) g) db.inbound inbound := by
  refine h.congr fun s hs => ?_
  by_cases hsk : s.val.key = r.val.key
  · rw [Table.eq_of_key hs hr hsk]
    simp [rewrite, hp]
  · have : p s.val = false := by
      cases hps : p s.val with
      | false => rfl
      | true => exact absurd (hkey _ hps) hsk
    simp [rewrite, hsk, this]

theorem updateOne_row {hg} (key : String × String) (h : db.updateOne context context' p g hg = .ok db')
    (hkey : ∀ s, p s = true → s.key = key) :
    ∃ r ∈ db.inbound.rows, p r.val = true ∧ r.val.key = key ∧ ∃ inbound, db' = { db with inbound := inbound } ∧
      Table.Maps (rewrite (·.key = r.val.key) g) db.inbound inbound := by
  obtain ⟨hn, inbound, hdb, hm⟩ := updateOne_ok h
  obtain ⟨r, hr, hp⟩ := List.countP_pos_iff.1 (show 0 < db.inbound.rows.countP (p ·.val) by omega)
  exact ⟨r, hr, hp, hkey _ hp, inbound, hdb, rewrite_key hr hp (fun s hs => (hkey s hs).trans (hkey _ hp).symm) hm⟩

variable {now : ℤ} {reply : NewOutboxRow} {tenant : TenantNamespace} {event : InboundEvent} {o : DedupOutcome}

theorem enqueueReply_ok (h : db.enqueueReply C now reply = .ok db') :
    ∃ outbox, db' = { db with outbox := outbox } := by
  obtain ⟨outbox, -, rfl⟩ := map_eq_ok.1 h
  exact ⟨outbox, rfl⟩

/-! ## Registration -/

/-- When a stored payload reads back, and as what. -/
theorem retainedFromStored_eq_ok {r : InboundRow} {retained : RetainedInbound} :
    retainedFromStored I r = .ok retained ↔ (r.state = .received ∨ r.state = .accepted) ∧ r.payloadVersion = some 1 ∧
      ∃ payload dto, r.payloadBlob = some payload ∧ r.payloadBytes = payload.size ∧
        payload.size ≤ storeInboundPayloadMaxBytes ∧ I.fromSlice payload = some dto ∧
        dto.intoEvent = .ok retained.event ∧ retained.event.eventId = r.eventId ∧
        retained.event.messageId = r.messageId ∧ retained.event.scope.toString = r.scopeKey ∧
        retained.retainedBytes = payload.size := by
  unfold retainedFromStored
  constructor
  · intro h
    split at h
    · cases h
    · next hstate =>
      split at h
      · cases h
      · next hversion =>
        split at h
        · cases h
        · next payload hblob =>
          split at h
          · cases h
          · next hsize =>
            split at h
            · cases h
            · next dto hdto =>
              obtain ⟨event, hevent, h⟩ := bind_eq_ok.1 h
              split at h
              · cases h
              · next hident =>
                cases h
                simp only [not_or, ne_eq, not_not] at hsize hident hversion
                exact ⟨by tauto, hversion, payload, dto, hblob, hsize.1, by omega, hdto, hevent, hident.1, hident.2.1,
                  hident.2.2, rfl⟩
  · rintro ⟨hstate, hversion, payload, dto, hblob, hbytes, hsize, hdto, hevent, he, hm, hs, hret⟩
    rw [if_neg (by tauto), if_neg (by simp [hversion]), hblob]
    dsimp only
    rw [if_neg (by omega), hdto]
    dsimp only
    rw [hevent]
    refine bind_eq_ok.2 ⟨_, rfl, ?_⟩
    rw [if_neg (by simp [he, hm, hs]), ← hret]

theorem registerNew_ok (h : registerNew I now tenant event db = .ok (o, db')) :
    ∃ payload, encodeEvent I event = .ok payload ∧ o = .new ⟨event, payload.size⟩ ∧
      (∃ hk, db' = { db with inbound := db.inbound.insert (receivedRow now tenant event payload) hk }) ∧
      ensureInboundCapacity db (tenant.asHex.utf8ByteSize + event.eventId.utf8ByteSize +
        event.messageId.utf8ByteSize + event.scope.toString.utf8ByteSize + payload.size) payload.size = .ok () := by
  obtain ⟨payload, hp, h⟩ := bind_eq_ok.1 h
  obtain ⟨hroom, h⟩ := seq_eq_ok.1 h
  obtain ⟨db₁, hi, h⟩ := bind_eq_ok.1 h
  cases h
  unfold Db.insertInbound at hi
  split at hi
  · cases hi
  · split at hi
    · next hins =>
      cases hi
      obtain ⟨hk, rfl⟩ := Table.insertOrIgnore_eq_some hins
      exact ⟨payload, hp, rfl, ⟨hk, rfl⟩, hroom⟩
    · cases hi

/-- A registration inserts a row for a message without one, or reads the row it found. -/
theorem registerInbound_cases (h : registerInbound I now tenant event db = .ok (o, db')) :
    (db' = db ∧ ∃ r ∈ db.inbound.rows, ∃ exact live, registrationFromStored I r.val tenant exact live = .ok o ∧
      r.val.tenant = tenant.asHex ∧
      (r.val.eventId = event.eventId ∨ r.val.messageId = event.messageId ∧ r.val.state ≠ .rejected)) ∨
    ((∀ r ∈ db.inbound.rows, r.val.tenant = tenant.asHex → r.val.messageId = event.messageId →
      r.val.state = .rejected) ∧ registerNew I now tenant event db = .ok (o, db')) := by
  unfold registerInbound at h
  split at h
  · next stored hs =>
    obtain ⟨r, hr, rfl, hk⟩ := readInboundRow_eq_some hs
    obtain ⟨o', ho, heq⟩ := map_eq_ok.1 h
    cases heq
    exact .inl ⟨rfl, r, hr, _, _, ho, congrArg Prod.fst hk, .inl (congrArg Prod.snd hk)⟩
  · split at h
    · next hc => exact .inr ⟨readMessageCandidates_eq_nil hc, h⟩
    · next stored hc =>
      obtain ⟨o', ho, heq⟩ := map_eq_ok.1 h
      cases heq
      obtain ⟨r, hr, rfl⟩ := List.mem_map.1 (show stored ∈ readMessageCandidates db _ _ by rw [hc]; simp)
      obtain ⟨hr, hp⟩ := List.mem_filter.1 hr
      simp only [Bool.and_eq_true, beq_iff_eq, decide_eq_true_eq] at hp
      exact .inl ⟨rfl, r, hr, _, _, ho, hp.1.1, .inr ⟨hp.1.2, hp.2⟩⟩
    · cases h

theorem registerInbound_changes (hevent : A.registers event) (h : registerInbound I now tenant event db = .ok (o, db')) :
    Changes I A db db' := by
  rcases registerInbound_cases h with ⟨rfl, -⟩ | ⟨hnew, h⟩
  · exact .refl
  · obtain ⟨payload, hp, -, ⟨hk, rfl⟩, hroom⟩ := registerNew_ok h
    exact .single (.register db now tenant event payload _ hevent hp hnew ⟨hk, rfl⟩ hroom)

/-! ## Settling one row -/

theorem isUnclaimed_iff {key : String × String} {r : InboundRow} :
    isUnclaimed key r = true ↔ r.key = key ∧ r.state = .received ∧ r.turnRowId = none := by
  simp [isUnclaimed]

variable {key : InboundKey} {reason : InboundRejectionKind}

variable {d : InboundDisposition} {notice : NewOutboxRow}

/-- Only a received row has no disposition yet. -/
theorem terminalDisposition_cases {existing : Option InboundDisposition}
    (h : terminalDisposition stored reason = .ok existing) : existing = none ∧ stored.state = .received ∨
      stored.state ≠ .received ∧ ∃ d, existing = some d ∧
        (d = .alreadyRejected → stored.state = .rejected ∧ stored.rejectionReason = some reason.asStr) := by
  unfold terminalDisposition at h
  split at h
  · next hs => cases h; exact .inl ⟨rfl, hs⟩
  · next hs => split at h <;> cases h; exact .inr ⟨by simp [hs], _, rfl, nofun⟩
  · next hs => cases h; exact .inr ⟨by simp [hs], _, rfl, nofun⟩
  · next hs =>
    split at h
    · next hr => cases h; exact .inr ⟨by simp [hs], _, rfl, fun _ => ⟨hs, hr⟩⟩
    · cases h

/-- A rejection finds the row settled, or rejects it. -/
theorem rejectReceived_cases (h : rejectReceivedInTransaction I now key reason db = .ok (d, db')) :
    ∃ r ∈ db.inbound.rows, r.val.key = key.key ∧ (r.val.state ≠ .received ∧ db' = db ∨
      r.val.state = .received ∧ ∃ inbound, db' = { db with inbound := inbound } ∧ Table.Maps
        (rewrite (·.key = r.val.key) (InboundRow.finish now .rejected (some reason.asStr))) db.inbound inbound) := by
  unfold rejectReceivedInTransaction at h
  split at h
  · cases h
  · next stored hread =>
    obtain ⟨r, hr, rfl, hk⟩ := readInboundRow_eq_some hread
    obtain ⟨existing, he, h⟩ := bind_eq_ok.1 h
    refine ⟨r, hr, hk, ?_⟩
    rcases terminalDisposition_cases he with ⟨rfl, hs⟩ | ⟨hs, d, rfl, -⟩
    · obtain ⟨db₁, h, heq⟩ := map_eq_ok.1 h
      cases heq
      obtain ⟨_, -, h⟩ := bind_eq_ok.1 h
      obtain ⟨q, hq, hp, hqk, inbound, rfl, hm⟩ := updateOne_row key.key h (by simp; tauto)
      obtain rfl := Table.eq_of_key hq hr (hqk.trans hk.symm)
      exact .inr ⟨hs, inbound, rfl, hm⟩
    · cases h
      exact .inl ⟨hs, rfl⟩

/-- A completion finds the row completed, or completes it. -/
theorem completeReceivedWithoutTurn_cases (h : completeReceivedWithoutTurn I now key db = .ok (d, db')) :
    ∃ r ∈ db.inbound.rows, r.val.key = key.key ∧ (r.val.state ≠ .received ∧ db' = db ∨
      r.val.state = .received ∧ r.val.turnRowId = none ∧ ∃ inbound, db' = { db with inbound := inbound } ∧
        Table.Maps (rewrite (·.key = r.val.key) (InboundRow.complete now)) db.inbound inbound) := by
  unfold completeReceivedWithoutTurn at h
  split at h
  · cases h
  · next stored hread =>
    obtain ⟨q, hq, rfl, hqk⟩ := readInboundRow_eq_some hread
    split at h
    · obtain ⟨_, -, h⟩ := bind_eq_ok.1 h
      obtain ⟨db₁, h, heq⟩ := bind_eq_ok.1 h
      cases heq
      obtain ⟨r, hr, hp, hk, inbound, rfl, hm⟩ := updateOne_row key.key h (fun s hs => (isUnclaimed_iff.1 hs).1)
      obtain ⟨-, hs, ht⟩ := isUnclaimed_iff.1 hp
      exact ⟨r, hr, hk, .inr ⟨hs, ht, inbound, rfl, hm⟩⟩
    · split at h <;> cases h
    · next hs =>
      split at h
      · cases h
        exact ⟨q, hq, hqk, .inl ⟨by simp [hs], rfl⟩⟩
      · cases h
    · cases h

/-- A settled row has its reply, or gets it. -/
theorem backfillReply_cases {recorded : Option String} (h : backfillReply C now key reply recorded context db = .ok db') :
    db' = db ∨ ∃ db₁, db.enqueueReply C now reply = .ok db₁ ∧
      recordInboundReplyEffect now key reply.idempotencyKey db₁ = .ok db' := by
  unfold backfillReply at h
  split at h
  · split at h
    · obtain ⟨_, -, h⟩ := bind_eq_ok.1 h
      cases h
      exact .inl rfl
    · cases h
  · exact .inr (bind_eq_ok.1 h)

/-- A control row has its reply, or gets it, or is completed with it. -/
theorem completeControlReply_cases (h : completeReceivedAndEnqueueControlReply C I now key reply db = .ok (d, db')) :
    ∃ r ∈ db.inbound.rows, r.val.key = key.key ∧ reply.idempotencyKey = key.controlOutboxIdempotencyKey ∧
      (r.val.state ≠ .received ∧ db' = db ∨
        (r.val.state = .completed ∧ r.val.turnRowId = none ∧ ∃ db₁, db.enqueueReply C now reply = .ok db₁ ∧
          recordInboundReplyEffect now key reply.idempotencyKey db₁ = .ok db') ∨
        r.val.state = .received ∧ r.val.turnRowId = none ∧ r.val.replyOutboxKey = none ∧
          ∃ outbox inbound, db.enqueueReply C now reply = .ok { db with outbox := outbox } ∧
            db' = { db with outbox := outbox, inbound := inbound } ∧ Table.Maps (rewrite (·.key = r.val.key)
              fun s => { s.complete now with replyOutboxKey := some reply.idempotencyKey }) db.inbound inbound) := by
  unfold completeReceivedAndEnqueueControlReply at h
  split at h
  · cases h
  next hid =>
  have hreply : reply.idempotencyKey = key.controlOutboxIdempotencyKey := by
    by_contra hne
    exact hid (.inl hne)
  split at h
  · cases h
  next stored hread =>
  obtain ⟨r, hr, rfl, hk⟩ := readInboundRow_eq_some hread
  split at h
  · cases h
  split at h
  · obtain ⟨db₁, h, heq⟩ := map_eq_ok.1 h
    cases heq
    unfold completeControl at h
    split at h
    · cases h
    · obtain ⟨_, -, h⟩ := bind_eq_ok.1 h
      obtain ⟨db₁, he, h⟩ := bind_eq_ok.1 h
      obtain ⟨outbox, rfl⟩ := enqueueReply_ok he
      obtain ⟨q, hq, hp, hqk, inbound, rfl, hm⟩ := updateOne_row key.key h (by simp [isUnclaimed_iff]; tauto)
      simp only [Bool.and_eq_true, isUnclaimed_iff, Option.isNone_iff_eq_none] at hp
      obtain ⟨⟨-, hs, ht⟩, hnone⟩ := hp
      exact ⟨q, hq, hqk, hreply, .inr (.inr ⟨hs, ht, hnone, outbox, inbound, he, rfl, hm⟩)⟩
  · next hs =>
    split at h
    · next hturn =>
      obtain ⟨db₁, h, heq⟩ := map_eq_ok.1 h
      cases heq
      refine ⟨r, hr, hk, hreply, (backfillReply_cases h).imp (fun heq => ⟨by simp [hs], heq⟩) fun h => .inl ⟨hs, ?_, h⟩⟩
      exact Option.isNone_iff_eq_none.1 hturn
    · cases h
  · cases h
  · cases h

/-- A row is settled and has its notice or needs none, or was rejected and gets it, or is rejected with it. -/
theorem rejectWithNotice_cases (h : rejectReceivedAndEnqueueNotice C I now key reason notice db = .ok (d, db')) :
    ∃ r ∈ db.inbound.rows, r.val.key = key.key ∧ notice.idempotencyKey = key.rejectionOutboxIdempotencyKey reason ∧
      (r.val.state ≠ .received ∧ db' = db ∨
        (r.val.state = .rejected ∧ r.val.rejectionReason = some reason.asStr ∧
          ∃ db₁, db.enqueueReply C now notice = .ok db₁ ∧
            recordInboundReplyEffect now key notice.idempotencyKey db₁ = .ok db') ∨
        r.val.state = .received ∧ r.val.replyOutboxKey = none ∧
          ∃ outbox inbound, db.enqueueReply C now notice = .ok { db with outbox := outbox } ∧
            Table.Maps (rewrite (·.key = r.val.key) (InboundRow.finish now .rejected (some reason.asStr)))
              db.inbound inbound ∧
            recordInboundReplyEffect now key notice.idempotencyKey { db with outbox := outbox, inbound := inbound } =
              .ok db') := by
  unfold rejectReceivedAndEnqueueNotice at h
  split at h
  · cases h
  next hid =>
  have hreply : notice.idempotencyKey = key.rejectionOutboxIdempotencyKey reason := by
    by_contra hne
    exact hid (.inl hne)
  split at h
  · cases h
  next stored hread =>
  obtain ⟨r, hr, rfl, hk⟩ := readInboundRow_eq_some hread
  obtain ⟨existing, he, h⟩ := bind_eq_ok.1 h
  refine ⟨r, hr, hk, hreply, ?_⟩
  rcases terminalDisposition_cases he with ⟨rfl, hs⟩ | ⟨hs, d', rfl, hrejected⟩ <;> dsimp only at h
  all_goals
    split at h
    · cases h
  · unfold rejectWithNotice at h
    split at h
    · cases h
    next hmarker =>
    obtain ⟨_, -, h⟩ := bind_eq_ok.1 h
    obtain ⟨db₁, henqueue, h⟩ := bind_eq_ok.1 h
    obtain ⟨outbox, rfl⟩ := enqueueReply_ok henqueue
    obtain ⟨⟨d', db₂⟩, hreject, h⟩ := bind_eq_ok.1 h
    obtain ⟨db₃, hrecord, heq⟩ := bind_eq_ok.1 h
    cases heq
    obtain ⟨q, hq, hqk, ⟨hqs, -⟩ | ⟨-, inbound, rfl, hm⟩⟩ := rejectReceived_cases hreject
    all_goals obtain rfl := Table.eq_of_key (t := db.inbound) hq hr (hqk.trans hk.symm)
    · exact absurd hs hqs
    · exact .inr (.inr ⟨hs, by simpa using hmarker, outbox, inbound, henqueue, hm, hrecord⟩)
  · unfold existingDisposition at h
    split at h
    · next hd =>
      obtain ⟨db₁, h, heq⟩ := map_eq_ok.1 h
      cases heq
      obtain ⟨hstate, hreason⟩ := hrejected hd
      exact (backfillReply_cases h).imp (fun heq => ⟨hs, heq⟩) fun h => .inl ⟨hstate, hreason, h⟩
    · cases h
      exact .inl ⟨hs, rfl⟩

theorem rejectReceived_changes (hends : A.ends key.key)
    (h : rejectReceivedInTransaction I now key reason db = .ok (d, db')) :
    Changes I A db db' := by
  obtain ⟨r, hr, hk, ⟨-, rfl⟩ | ⟨hs, inbound, rfl, hm⟩⟩ := rejectReceived_cases h
  · exact .refl
  · exact .single (.reject db now r reason inbound hr hs hm (hk ▸ hends))

theorem completeReceivedWithoutTurn_changes (h : completeReceivedWithoutTurn I now key db = .ok (d, db')) :
    Changes I A db db' := by
  obtain ⟨r, hr, -, ⟨-, rfl⟩ | ⟨hs, ht, inbound, rfl, hm⟩⟩ := completeReceivedWithoutTurn_cases h
  · exact .refl
  · refine .single (.complete db now r r.val.replyOutboxKey inbound hr hs ht (.inl rfl) (hm.congr fun s hsmem => ?_))
    by_cases hsk : s.val.key = r.val.key
    · rw [Table.eq_of_key hsmem hr hsk]
      simp [rewrite, InboundRow.complete, InboundRow.finish]
    · simp [rewrite, hsk]

/-- A reply that is recorded on a row settled without a turn. -/
theorem recordReply_changes {idempotencyKey : String} (suffix : String) (hr : r ∈ db.inbound.rows)
    (hk : r.val.key = key.key) (hreply : idempotencyKey = inboundReplyOutboxKey key.tenant.asHex key.eventId suffix)
    (hturn : r.val.state = .completed → r.val.turnRowId = none)
    (hsuffix : r.val.state = .completed ∧ suffix = "control" ∨
      ∃ reason : InboundRejectionKind, r.val.state = .rejected ∧ r.val.rejectionReason = some reason.asStr ∧
        suffix = "notice:" ++ reason.asStr) (h : recordInboundReplyEffect now key idempotencyKey db = .ok db') :
    Changes I A db db' := by
  unfold recordInboundReplyEffect at h
  split at h
  · cases h
  · next hroom =>
    obtain ⟨s, hs, hp, hsk, inbound, rfl, hm⟩ := updateOne_row key.key h (by simp; tauto)
    obtain rfl := Table.eq_of_key hs hr (hsk.trans hk.symm)
    simp only [decide_eq_true_eq] at hp
    simp only [InboundRow.key, InboundKey.key, Prod.mk.injEq] at hk
    rw [hreply, ← hk.1, ← hk.2] at hm hroom
    exact .single (.mark db now s suffix inbound hr hp.2 hturn hsuffix hm (Nat.le_of_not_lt hroom))

theorem completeReceivedAndEnqueueControlReply_changes
    (h : completeReceivedAndEnqueueControlReply C I now key reply db = .ok (d, db')) :
    Changes I A db db' := by
  obtain ⟨r, hr, hk, hreply, ⟨-, rfl⟩ | ⟨hs, ht, db₁, he, hrecord⟩ |
    ⟨hs, ht, hnone, outbox, inbound, -, rfl, hm⟩⟩ := completeControlReply_cases h
  · exact .refl
  · obtain ⟨outbox, rfl⟩ := enqueueReply_ok he
    exact .head (.enqueue db outbox) (recordReply_changes "control" hr hk hreply (fun _ => ht) (.inl ⟨hs, rfl⟩) hrecord)
  · simp only [InboundRow.key, InboundKey.key, Prod.mk.injEq] at hk
    have hmarker : reply.idempotencyKey = inboundReplyOutboxKey r.val.tenant r.val.eventId "control" := by
      rw [hreply, InboundKey.controlOutboxIdempotencyKey, hk.1, hk.2]
    exact .head (.enqueue db outbox) (.single (.complete _ now r (some reply.idempotencyKey) inbound hr hs ht
      (.inr ⟨hnone, congrArg some hmarker⟩) hm))

theorem rejectReceivedAndEnqueueNotice_changes (hends : A.ends key.key)
    (h : rejectReceivedAndEnqueueNotice C I now key reason notice db = .ok (d, db')) : Changes I A db db' := by
  obtain ⟨r, hr, hk, hreply, ⟨-, rfl⟩ | ⟨hs, hreason, db₁, he, hrecord⟩ |
    ⟨hs, -, outbox, inbound, -, hm, hrecord⟩⟩ := rejectWithNotice_cases h
  · exact .refl
  · obtain ⟨outbox, rfl⟩ := enqueueReply_ok he
    exact .head (.enqueue db outbox) (recordReply_changes ("notice:" ++ reason.asStr) hr hk hreply
      (fun hc => by rw [hs] at hc; cases hc) (.inr ⟨reason, hs, hreason, rfl⟩) hrecord)
  · refine .head (.enqueue db outbox) (.head (.reject _ now r reason inbound hr hs hm (hk ▸ hends)) ?_)
    -- the rejected row is the one that gets the marker
    have hmem : { r with val := rewrite (·.key = r.val.key) (InboundRow.finish now .rejected (some reason.asStr)) r } ∈
        inbound.rows := hm.mem.2 ⟨r, hr, rfl⟩
    rw [show rewrite (·.key = r.val.key) (InboundRow.finish now .rejected (some reason.asStr)) r =
        InboundRow.finish now .rejected (some reason.asStr) r.val by simp [rewrite]] at hmem
    exact recordReply_changes ("notice:" ++ reason.asStr) hmem hk hreply (fun hc => by cases hc)
      (.inr ⟨reason, rfl, rfl, rfl⟩) hrecord

/-! ## Claims -/

theorem readClaims_ok {scopeKey : String} : ∀ {events : List (InboundKey × Option InboundEvent)}
    {claimed : List ClaimedInbound} {skipped : List SkippedInbound},
    readClaims I db scopeKey events = .ok (claimed, skipped) →
      ∀ c ∈ claimed, c.key ∈ events.map (·.1) ∧
        ∃ stored, readInboundRow db c.key.key = some stored ∧ stored.scopeKey = scopeKey
  | [], claimed, skipped, h => by cases h; simp
  | (key, live) :: events, claimed, skipped, h => by
    obtain ⟨first, hf, h⟩ := bind_eq_ok.1 h
    obtain ⟨⟨claimed', skipped'⟩, hrest, h⟩ := bind_eq_ok.1 h
    have ih := fun c hc => (readClaims_ok hrest c hc).imp_left (List.mem_cons_of_mem key)
    cases first with
    | inr s =>
      cases h
      exact ih
    | inl c =>
      cases h
      refine List.forall_mem_cons.2 ⟨?_, ih⟩
      unfold readClaim at hf
      split at hf
      · cases hf
      · next stored hs =>
        split at hf
        · cases hf
        · next hscope =>
          obtain ⟨-, hf⟩ := seq_eq_ok.1 hf
          split at hf
          · split at hf
            · cases hf
            · obtain ⟨_, -, hf⟩ := bind_eq_ok.1 hf
              obtain ⟨_, -, hf⟩ := bind_eq_ok.1 hf
              cases hf
              exact ⟨List.mem_cons_self, stored, hs, by simpa using hscope⟩
          · cases hf

variable {id : ℕ} {t : Row TurnRow} {turn : TurnResolution}

theorem claimRows_ok : ∀ {claimed : List ClaimedInbound} {db db' : Db},
    claimRows now id claimed db = .ok db' →
      ∃ inbound, db' = { db with inbound := inbound } ∧
        db.inbound.rows.countP (fun r => Claimable (claimed.map (·.key.key)) r.val) = claimed.length ∧
        Table.Maps (rewrite (Claimable (claimed.map (·.key.key))) (InboundRow.claim now id)) db.inbound inbound
  | [], db, db', h => by
    cases h
    refine ⟨db.inbound, rfl, ?_, ?_⟩
    · simp [Claimable]
    · refine ⟨?_, rfl⟩
      simp [rewrite, Claimable]
  | c :: claimed, db, db', h => by
    obtain ⟨db₁, h₁, h⟩ := bind_eq_ok.1 h
    obtain ⟨hone, inbound₁, rfl, hm₁⟩ := updateOne_ok h₁
    obtain ⟨inbound, rfl, hcount, hm⟩ := claimRows_ok h
    -- a row taken by the first claim is accepted and taken by none of the others
    have hsplit : ∀ r : Row InboundRow,
        (decide (Claimable (claimed.map (·.key.key))
          (if isUnclaimed c.key.key r.val then InboundRow.claim now id r.val else r.val)) : Bool) =
        (decide (Claimable ((c :: claimed).map (·.key.key)) r.val) && !isUnclaimed c.key.key r.val) := by
      intro r
      cases hu : isUnclaimed c.key.key r.val with
      | true => simp [Claimable, InboundRow.claim]
      | false =>
        have : ¬(r.val.key = c.key.key ∧ r.val.state = .received ∧ r.val.turnRowId = none) := by
          rw [← isUnclaimed_iff, hu]
          simp
        simp only [Claimable, List.map_cons, List.mem_cons, Bool.false_eq_true, if_false, Bool.not_false,
          Bool.and_true, decide_eq_decide]
        tauto
    refine ⟨inbound, rfl, ?_, (hm₁.trans hm).congr fun r _ => ?_⟩
    · have hrest : db.inbound.rows.countP (fun r =>
          decide (Claimable ((c :: claimed).map (·.key.key)) r.val) && !isUnclaimed c.key.key r.val) = claimed.length := by
        rw [← hcount, hm₁.rows_eq, List.countP_map]
        exact List.countP_congr fun r _ => by rw [← hsplit]; rfl
      have hfirst : db.inbound.rows.countP (fun r =>
          decide (Claimable ((c :: claimed).map (·.key.key)) r.val) && isUnclaimed c.key.key r.val) = 1 := by
        rw [← hone]
        refine List.countP_congr fun r _ => ?_
        simp only [Bool.and_eq_true, decide_eq_true_eq, isUnclaimed_iff, Claimable, List.map_cons, List.mem_cons]
        tauto
      rw [List.countP_eq_countP_filter_add _ _ (fun r => isUnclaimed c.key.key r.val), List.countP_filter,
        List.countP_filter, List.length_cons]
      omega
    · have := hsplit r
      cases hu : isUnclaimed c.key.key r.val with
      | true =>
        obtain ⟨hk, hs, ht⟩ := isUnclaimed_iff.1 hu
        simp [rewrite, Claimable, InboundRow.claim, hk, hs, ht]
      | false =>
        rw [hu] at this
        simp only [Bool.false_eq_true, if_false, Bool.not_false, Bool.and_true, decide_eq_decide] at this
        simp only [rewrite, Bool.false_eq_true, if_false, this]

/-- A claim takes nothing, or begins one turn with the rows it read. -/
theorem beginTurn_cases {turn : NewTurnRow} {events : List (InboundKey × Option InboundEvent)} {o : BeginTurnOutcome}
    (h : beginTurnAndClaimInboundInner I now turn events db = .ok (o, db')) :
    ∃ claimed skipped, readClaims I db turn.scopeKey events = .ok (claimed, skipped) ∧
      (claimed = [] ∧ o = .noReceived skipped ∧ db' = db ∨
      claimed ≠ [] ∧ o = .started db.turns.nextId claimed skipped ∧ ∃ context hk inbound,
        ensureRecoveryCapacity (recoveryUsage none db.turns)
          (turnBytes turn.scopeKey turn.clientMessageId turn.codexThreadId none) context = .ok () ∧
        db.inbound.rows.countP (fun r => Claimable (claimed.map (·.key.key)) r.val) = claimed.length ∧
        Table.Maps (rewrite (Claimable (claimed.map (·.key.key))) (InboundRow.claim now db.turns.nextId)) db.inbound inbound ∧
        db' = { db with turns := db.turns.insert (turn.columns now claimed.length) hk, inbound := inbound }) := by
  obtain ⟨⟨claimed, skipped⟩, hread, h⟩ := bind_eq_ok.1 h
  refine ⟨claimed, skipped, hread, ?_⟩
  dsimp only at h
  split at h
  · next hnone =>
    cases h
    exact .inl ⟨List.isEmpty_iff.1 hnone, rfl, rfl⟩
  · next hne =>
    obtain ⟨⟨id, db₁⟩, hstart, h⟩ := bind_eq_ok.1 h
    cases h
    obtain ⟨hcapacity, hstart⟩ := seq_eq_ok.1 hstart
    obtain ⟨⟨id', turns⟩, hins, hstart⟩ := bind_eq_ok.1 hstart
    obtain ⟨db₂, hrows, hstart⟩ := bind_eq_ok.1 hstart
    cases hstart
    obtain ⟨rfl, hk, rfl⟩ := insertTurn_ok hins
    obtain ⟨inbound, rfl, hcount, hm⟩ := claimRows_ok hrows
    exact .inr ⟨fun hnil => hne (by simp [hnil]), rfl, _, hk, inbound, hcapacity, hcount, hm, rfl⟩

theorem beginTurn_changes {turn : NewTurnRow} {events : List (InboundKey × Option InboundEvent)} {o : BeginTurnOutcome}
    (hends : ∀ key ∈ events.map (·.1), A.ends key.key)
    (h : beginTurnAndClaimInboundInner I now turn events db = .ok (o, db')) :
    (∃ skipped, o = .noReceived skipped ∧ db' = db) ∨ (∃ id claimed skipped, o = .started id claimed skipped) ∧
      Change I A db db' := by
  obtain ⟨claimed, skipped, hread, ⟨-, ho, rfl⟩ | ⟨hne, rfl, _, hk, inbound, -, hcount, hm, rfl⟩⟩ := beginTurn_cases h
  · exact .inl ⟨skipped, ho, rfl⟩
  · refine .inr ⟨⟨_, claimed, skipped, rfl⟩, ?_⟩
    have hlen : (claimed.map (·.key.key)).length = claimed.length := List.length_map _
    refine .claim db now turn (claimed.map (·.key.key)) _ inbound ?_ ?_ ⟨by simpa using hk, by simp⟩
      (by rw [hlen]; exact hcount) hm ?_
    · simpa using hne
    · intro r hr hmem
      obtain ⟨c, hc, hck⟩ := List.mem_map.1 hmem
      obtain ⟨-, stored, hs, hscope⟩ := readClaims_ok hread c hc
      obtain ⟨q, hq, rfl, hqk⟩ := readInboundRow_eq_some hs
      rw [Table.eq_of_key hr hq (hck.symm.trans hqk.symm)]
      exact hscope
    · intro k hmem
      obtain ⟨c, hc, rfl⟩ := List.mem_map.1 hmem
      exact hends c.key (readClaims_ok hread c hc).1

/-! ## Resolutions -/

theorem isLinked_iff {state : InboundEventState} {r : InboundRow} :
    isLinked id state r = true ↔ Linked id state r := by
  simp [isLinked, Linked]

/-- A resolution finds the turn resolved as it says, or refines a turn recorded as uncertain, or ends an open one. -/
theorem resolveTurn_cases {o : ResolveTurnOutcome} (h : resolveTurnAndFinishInboundBatch now id turn db = .ok (o, db')) :
    ∃ t ∈ db.turns.rows, t.id = id ∧ 0 < t.val.inboundCount ∧
      ((t.val.state = turn.target.1 ∧ t.val.uncertain = false) ∧ db' = db ∨
        ((t.val.state = .uncertain ∧ t.val.uncertain = false) ∧ (turn = .failed ∨ turn = .interrupted) ∧
          validateResolvedMarkers db t.id t.val.inboundCount .rejected = .ok () ∧
          ∃ inbound, db' = { db.resolveTurn now t.id turn.target.1 with inbound := inbound } ∧
            Table.Maps (rewrite (Linked t.id .rejected) (InboundRow.refine now turn.target.2.2)) db.inbound inbound) ∨
        legalResolution t.val turn = true ∧
          validateUnresolvedMarkers db t.id t.val.scopeKey t.val.inboundCount = .ok () ∧
          ∃ inbound, db' = { db.resolveTurn now t.id turn.target.1 with inbound := inbound } ∧
            Table.Maps (rewrite (Linked t.id .accepted) (InboundRow.finish now turn.target.2.1.state turn.target.2.2))
              db.inbound inbound) := by
  unfold resolveTurnAndFinishInboundBatch at h
  split at h
  · cases h
  next t hget =>
  obtain ⟨ht, rfl⟩ := Table.get?_eq_some.1 hget
  split at h
  · cases h
  next hzero =>
  refine ⟨t, ht, rfl, Nat.pos_of_ne_zero hzero, ?_⟩
  split at h
  · next hsame =>
    obtain ⟨-, h⟩ := seq_eq_ok.1 h
    cases h
    exact .inl ⟨hsame, rfl⟩
  split at h
  · next hstate =>
    unfold refineTurn at h
    split at h
    · cases h
    next hres =>
    obtain ⟨hmarkers, h⟩ := seq_eq_ok.1 h
    obtain ⟨⟨n, db₁⟩, hu, h⟩ := bind_eq_ok.1 h
    cases h
    obtain ⟨-, inbound, rfl, hm⟩ := updateInbound_ok hu
    refine .inr (.inl ⟨hstate, by tauto, hmarkers, inbound, rfl, hm.congr fun r _ => ?_⟩)
    exact if_congr isLinked_iff rfl rfl
  split at h
  · cases h
  split at h
  · cases h
  next hlegal =>
  obtain ⟨hmarkers, h⟩ := seq_eq_ok.1 h
  obtain ⟨⟨n, db₁⟩, hu, h⟩ := bind_eq_ok.1 h
  dsimp only at h
  split at h
  · cases h
  · cases h
    obtain ⟨-, inbound, rfl, hm⟩ := updateInbound_ok hu
    refine .inr (.inr ⟨by simpa using hlegal, hmarkers, inbound, rfl, hm.congr fun r _ => ?_⟩)
    exact if_congr isLinked_iff rfl rfl

theorem resolveTurn_changes {o : ResolveTurnOutcome} (hallowed : turn = .interrupted → A.interrupts)
    (h : resolveTurnAndFinishInboundBatch now id turn db = .ok (o, db')) :
    Changes I A db db' := by
  obtain ⟨t, ht, rfl, hcount, ⟨-, rfl⟩ | ⟨hstate, hres, -, inbound, rfl, hm⟩ |
    ⟨hlegal, hmarkers, inbound, rfl, hm⟩⟩ := resolveTurn_cases h
  · exact .refl
  · exact .single (.refine db now t turn inbound ht hcount hstate hres hm hallowed)
  · exact .single (.finish db now t turn inbound ht hcount hlegal hmarkers hm)

/-! ## Retention and turns -/

theorem sweepInbound_changes {olderThanMs : ℤ} {maxRows : ℕ} (hallowed : A.sweeps)
    (h : sweepInbound olderThanMs maxRows db = .ok (n, db')) : Changes I A db db' := by
  cases h
  refine .single (.sweep db _ hallowed fun r hr hp => ?_)
  obtain ⟨q, hq, hid⟩ := List.any_eq_true.1 hp
  have hq := (List.perm_insertionSort inboundSweepOrder _).mem_iff.1 (List.mem_of_mem_take hq)
  obtain ⟨hq, hterm⟩ := List.mem_filter.1 hq
  rw [Table.eq_of_id hq hr (by simpa using hid)] at hterm
  exact (Bool.and_eq_true_iff.1 hterm).1

theorem recordTurn_changes {row : NewTurnRow} (h : onTurns (recordTurn now row) db = .ok (id, db')) :
    Changes I A db db' := by
  obtain ⟨⟨id', turns⟩, hj, heq⟩ := map_eq_ok.1 h
  cases heq
  exact .single (.recordTurn db now row turns (recordTurn_ok hj).2)

theorem setTurnState_changes {state : TurnState} {codexTurnId : Option String} {u : Unit}
    (h : onTurns (setTurnState now id state codexTurnId) db = .ok (u, db')) : Changes I A db db' := by
  obtain ⟨⟨u', turns⟩, hj, heq⟩ := map_eq_ok.1 h
  cases heq
  obtain ⟨t, ht, rfl, hstart, rfl⟩ := setTurnState_ok hj
  exact .single (.setTurnState db now t state codexTurnId ht hstart)

end LarkCodexBridge.Store

import LarkCodexBridge.Store.InboundClaims
import LarkCodexBridge.Store.OutboxBounds

/-!
# One reply for each inbound row

A row that is settled with a reply gets the key of the reply as its marker, in the transaction that puts the reply into the
outbox. The outbox forgets delivered rows; the marker stays as long as the inbound row does, and no reply is enqueued where
it is set.

* `InboundKey.replyKey_injective`, `replyKey_ne_turnKey`: no two replies share a key, and none has the key of a turn;
* `replyStep_answers`: one step enqueues one reply together with its marker and the terminal state, or no reply at all;
* `one_reply_effect`: while an inbound row exists, all steps of a run together insert at most one reply of it.
-/

namespace LarkCodexBridge.Store

open Limits SqlTable Outbox Lark StepSystem

/-! ## Keys of replies -/

/-- What a reply to an inbound row is. -/
inductive ReplyKind where
  | control
  | notice (reason : InboundRejectionKind)
  deriving DecidableEq

def ReplyKind.all : List ReplyKind := .control :: InboundRejectionKind.all.map .notice

theorem ReplyKind.mem_all (kind : ReplyKind) : kind ∈ ReplyKind.all := by
  cases kind with
  | control => exact List.mem_cons_self
  | notice reason => cases reason <;> decide

def ReplyKind.suffix : ReplyKind → String
  | .control => "control"
  | .notice reason => "notice:" ++ reason.asStr

/-- The key of a reply to the row `k`. -/
def InboundKey.replyKey (k : InboundKey) (kind : ReplyKind) : String :=
  inboundReplyOutboxKey k.tenant.asHex k.eventId kind.suffix

theorem hexChar_injective : ∀ n < 16, ∀ m < 16, hexChar n = hexChar m → n = m := by decide

theorem hexDigits_injective : ∀ {a b : List UInt8},
    (a.flatMap fun byte => [hexChar (byte.toNat / 16), hexChar (byte.toNat % 16)]) =
      (b.flatMap fun byte => [hexChar (byte.toNat / 16), hexChar (byte.toNat % 16)]) → a = b
  | [], [], _ => rfl
  | [], _ :: _, h => by simp at h
  | _ :: _, [], h => by simp at h
  | x :: a, y :: b, h => by
    simp only [List.flatMap_cons, List.cons_append, List.nil_append, List.cons.injEq] at h
    obtain ⟨hhigh, hlow, hrest⟩ := h
    have hx := x.toNat_lt
    have hy := y.toNat_lt
    have hhigh := hexChar_injective _ (by omega) _ (by omega) hhigh
    have hlow := hexChar_injective _ (by omega) _ (by omega) hlow
    have hbyte : x = y := UInt8.toNat_inj.1 (by omega)
    rw [hbyte, hexDigits_injective hrest]

theorem TenantNamespace.asHex_injective : Function.Injective TenantNamespace.asHex := by
  rintro ⟨a, ha⟩ ⟨b, hb⟩ h
  have h := congrArg String.toList h
  simp only [TenantNamespace.asHex, String.toList_ofList] at h
  obtain rfl := hexDigits_injective h
  rfl

theorem InboundKey.key_injective : Function.Injective InboundKey.key := by
  rintro ⟨tenant, eventId⟩ ⟨tenant', eventId'⟩ h
  simp only [InboundKey.key, Prod.mk.injEq] at h
  obtain rfl := TenantNamespace.asHex_injective h.1
  obtain rfl := h.2
  rfl

theorem length_asHex (tenant : TenantNamespace) : tenant.asHex.toList.length = 64 := by
  obtain ⟨digest, hlength⟩ := tenant
  simp [TenantNamespace.asHex, hlength]

/-- No suffix, with the colon before it, ends another one. -/
theorem suffix_free : ∀ kind ∈ ReplyKind.all, ∀ kind' ∈ ReplyKind.all,
    (":" ++ kind.suffix).toList <:+ (":" ++ kind'.suffix).toList → kind = kind' := by decide

variable {k k' : InboundKey} {kind : ReplyKind}

/-- **Different replies have different keys**, whatever the event ids contain. -/
theorem InboundKey.replyKey_injective {kind' : ReplyKind} (h : k.replyKey kind = k'.replyKey kind') :
    k = k' ∧ kind = kind' := by
  have h := congrArg String.toList h
  simp only [InboundKey.replyKey, inboundReplyOutboxKey, String.toList_append, List.append_assoc] at h
  obtain ⟨htenant, h⟩ := List.append_inj (List.append_cancel_left h) (by rw [length_asHex, length_asHex])
  have h := List.append_cancel_left h
  -- the event ids may contain colons, so the suffixes are compared from the end
  have hkind : kind = kind' := by
    have hs : (":" ++ kind.suffix).toList <:+ k'.eventId.toList ++ (":" ++ kind'.suffix).toList :=
      ⟨k.eventId.toList, by simpa using h⟩
    have hs' : (":" ++ kind'.suffix).toList <:+ k'.eventId.toList ++ (":" ++ kind'.suffix).toList := ⟨_, rfl⟩
    rcases List.suffix_or_suffix_of_suffix hs hs' with hsuffix | hsuffix
    · exact suffix_free _ kind.mem_all _ kind'.mem_all hsuffix
    · exact (suffix_free _ kind'.mem_all _ kind.mem_all hsuffix).symm
  subst hkind
  have hevent := String.toList_inj.1 (List.append_cancel_right h)
  exact ⟨InboundKey.key_injective (Prod.ext (String.toList_inj.1 htenant) hevent), rfl⟩

/-! ## Keys of turns -/

/-- A row that the reply sink enqueues for a turn. -/
inductive TurnKey where
  | progress (turnRowId sequence : ℕ)
  | progressFinal (turnRowId : ℕ)
  | final (turnRowId index : ℕ)
  | notice (turnRowId : ℕ)

def TurnKey.turnRowId : TurnKey → ℕ
  | .progress turnRowId _ | .progressFinal turnRowId | .final turnRowId _ | .notice turnRowId => turnRowId

def TurnKey.rest : TurnKey → String
  | .progress _ sequence => if sequence = 0 then ":progress" else ":progress:" ++ toString sequence
  | .progressFinal _ => ":progress:final"
  | .final _ index => if index = 0 then ":final" else ":final:" ++ toString index
  | .notice _ => ":notice"

def TurnKey.idempotencyKey (key : TurnKey) : String := toString key.turnRowId ++ key.rest

def IsTurnKey (key : String) : Prop := ∃ turn : TurnKey, key = turn.idempotencyKey

/-- A numeral does not begin like the key of a reply. -/
theorem toString_head (n : ℕ) : ∃ c cs, (toString n).toList = c :: cs ∧ c.isDigit = true := by
  have hlist : (toString n).toList = Nat.toDigits 10 n := Nat.toList_repr
  cases hd : Nat.toDigits 10 n with
  | nil => exact absurd hd Nat.toDigits_ne_nil
  | cons c cs =>
    refine ⟨c, cs, hlist.trans hd, ?_⟩
    exact Nat.isDigit_of_mem_toDigits (by decide) (by decide) (hd ▸ List.mem_cons_self)

/-- **No reply has the key of a turn.** -/
theorem replyKey_ne_turnKey (k : InboundKey) (kind : ReplyKind) (turn : TurnKey) :
    k.replyKey kind ≠ turn.idempotencyKey := by
  intro h
  have h := congrArg String.toList h
  obtain ⟨c, cs, hc, hdigit⟩ := toString_head turn.turnRowId
  simp only [InboundKey.replyKey, inboundReplyOutboxKey, TurnKey.idempotencyKey, String.toList_append,
    List.append_assoc, hc, List.cons_append] at h
  have hhead : c = 'i' := (List.cons.inj h).1.symm
  rw [hhead] at hdigit
  cases hdigit

/-! ## What a step does to the outbox -/

/-- The rows of `t'` are rows of `t` with the same keys, or new ones whose key is allowed by `P`. -/
structure Inserts (P : String → Prop) (t t' : OutboxTable) : Prop where
  nextSerial_le : t.nextSerial ≤ t'.nextSerial
  old_or_new : ∀ o ∈ t'.rows, (∃ q ∈ t.rows, q.serial = o.serial ∧ q.val.idempotencyKey = o.val.idempotencyKey) ∨
    t.nextSerial ≤ o.serial ∧ P o.val.idempotencyKey

variable {C : Codec} {I : InboundCodec} {P : String → Prop}

theorem Inserts.refl (t : OutboxTable) : Inserts P t t := ⟨Nat.le_refl _, fun o ho => .inl ⟨o, ho, rfl, rfl⟩⟩

variable {t t' : OutboxTable}

theorem Inserts.trans {t'' : OutboxTable} (h : Inserts P t t') (h' : Inserts P t' t'') : Inserts P t t'' where
  nextSerial_le := h.nextSerial_le.trans h'.nextSerial_le
  old_or_new := by
    intro o ho
    rcases h'.old_or_new o ho with ⟨q, hq, hs, hk⟩ | ⟨hs, hP⟩
    · rcases h.old_or_new q hq with ⟨p, hp, hs', hk'⟩ | ⟨hs', hP⟩
      · exact .inl ⟨p, hp, hs'.trans hs, hk'.trans hk⟩
      · exact .inr ⟨by omega, hk ▸ hP⟩
    · exact .inr ⟨h.nextSerial_le.trans hs, hP⟩

/-- A rewriting that keeps the keys. -/
theorem Inserts.of_maps {f : Row OutboxRow → OutboxRow} (hm : Table.Maps f t t')
    (hf : ∀ r, (f r).idempotencyKey = r.val.idempotencyKey) : Inserts P t t' where
  nextSerial_le := Nat.le_of_eq hm.nextSerial_eq.symm
  old_or_new := by
    intro o ho
    obtain ⟨r, hr, rfl⟩ := hm.mem.1 ho
    exact .inl ⟨r, hr, rfl, (hf r).symm⟩

theorem Inserts.deleteWhere (t : OutboxTable) (p : Row OutboxRow → Bool) : Inserts P t (t.deleteWhere p) :=
  ⟨Nat.le_refl _, fun o ho => .inl ⟨o, (Table.mem_deleteWhere.1 ho).1, rfl, rfl⟩⟩

theorem Inserts.insertOrIgnore {a : OutboxRow} (h : t.insertOrIgnore a = some t') (hP : P a.idempotencyKey) :
    Inserts P t t' := by
  obtain ⟨hk, rfl⟩ := Table.insertOrIgnore_eq_some h
  refine ⟨Nat.le_succ _, fun o ho => ?_⟩
  rcases (Table.mem_insert (h := hk)).1 ho with ho | rfl
  · exact .inl ⟨o, ho, rfl, rfl⟩
  · exact .inr ⟨Nat.le_refl _, hP⟩

variable {now : ℤ} {notice : NewOutboxRow}

theorem enforceTotalCap_inserts {payloadBytes : ℕ} (h : enforceTotalCap C now payloadBytes t = .ok t') :
    Inserts P t t' := by
  unfold enforceTotalCap at h
  simp only at h
  split at h
  · cases h
    exact .refl _
  · split at h
    · cases h
      exact .deleteWhere _ _
    · cases h

theorem enqueueOne_inserts {row : NewOutboxRow} {o : OutboxEnqueue} (hP : P row.idempotencyKey)
    (h : enqueueOne C now row t = .ok (o, t')) : Inserts P t t' := by
  rcases enqueueOne_cases h with rfl | ⟨-, t₁, hcap, rfl | hins⟩
  · exact .refl _
  · exact enforceTotalCap_inserts hcap
  · exact (enforceTotalCap_inserts hcap).trans (.insertOrIgnore hins hP)

theorem enqueueAll_inserts : ∀ {rows : List NewOutboxRow} {t t' : OutboxTable} {os : List OutboxEnqueue},
    (∀ row ∈ rows, P row.idempotencyKey) → enqueueAll C now rows t = .ok (os, t') → Inserts P t t'
  | [], _, _, _, _, h => by cases h; exact .refl _
  | row :: rows, t, t', os, hP, h => by
    obtain ⟨hrow, hrows⟩ := List.forall_mem_cons.1 hP
    obtain ⟨⟨o, t₁⟩, h₁, h⟩ := bind_eq_ok.1 h
    obtain ⟨⟨os', t₂⟩, h₂, h⟩ := bind_eq_ok.1 h
    cases h
    exact (enqueueOne_inserts hrow h₁).trans (enqueueAll_inserts hrows h₂)

theorem enqueueInboundReply_inserts (h : enqueueInboundReplyInTransaction C now notice t = .ok t') :
    Inserts (· = notice.idempotencyKey) t t' ∧ t'.HasKey notice.idempotencyKey := by
  obtain ⟨known, hknown, h⟩ := bind_eq_ok.1 h
  split at h
  · next htrue =>
    cases h
    refine ⟨.refl _, ?_⟩
    unfold validateExistingInboundReply at hknown
    split at hknown
    · cases hknown
    · split at hknown
      · cases hknown
        cases htrue
      · next r hr => exact ⟨r, Table.lookup_eq_some.1 hr⟩
  · split at h
    · cases h
    · obtain ⟨t₁, hcap, h⟩ := bind_eq_ok.1 h
      split at h
      · next hins =>
        cases h
        refine ⟨(enforceTotalCap_inserts hcap).trans (.insertOrIgnore hins rfl), ?_⟩
        obtain ⟨hk, rfl⟩ := Table.insertOrIgnore_eq_some hins
        exact Table.hasKey_insert.2 (.inr rfl)
      · cases h

/-- What the reply sink and the pump ask of the outbox: a row that they enqueue has the key of a turn. -/
def OutboxOp.OfTurns : OutboxOp → Prop
  | .enqueue row => IsTurnKey row.idempotencyKey
  | .enqueueBatch rows => ∀ row ∈ rows, IsTurnKey row.idempotencyKey
  | .inboundReply _ => False
  | _ => True

variable {id : ℕ}

theorem setRow_idempotencyKey {g : OutboxRow → OutboxRow} (hg : ∀ a, (g a).idempotencyKey = a.idempotencyKey)
    (r : Row OutboxRow) : (setRow id g r).idempotencyKey = r.val.idempotencyKey := by
  unfold setRow
  split
  · exact hg _
  · rfl

theorem setAndPark_idempotencyKey {retryMs : ℤ} {g : OutboxRow → OutboxRow}
    (hg : ∀ a, (g a).idempotencyKey = a.idempotencyKey) (r : Row OutboxRow) :
    (setAndPark now retryMs id g r).idempotencyKey = r.val.idempotencyKey := by
  unfold setAndPark
  split
  · exact hg _
  · split <;> rfl

/-- **Deliveries, sweeps and the rows of turns insert no reply.** -/
theorem outboxOp_inserts {op : OutboxOp} {u : Unit} (hop : op.OfTurns) (h : op.job C now t = .ok (u, t')) :
    Inserts IsTurnKey t t' := by
  cases op <;> simp only [OutboxOp.job] at h
  case enqueue row =>
    obtain ⟨o, h, -⟩ := answer_ok h
    obtain ⟨_, -, h⟩ := bind_eq_ok.1 h
    exact enqueueOne_inserts hop h
  case enqueueBatch rows =>
    obtain ⟨os, h, -⟩ := answer_ok h
    unfold enqueueOutboxBatch at h
    split at h
    · cases h
    · obtain ⟨_, -, h⟩ := bind_eq_ok.1 h
      exact enqueueAll_inserts hop h
  case inboundReply notice => exact hop.elim
  case sweep olderThanMs maxRows =>
    obtain ⟨n, h, -⟩ := answer_ok h
    cases h
    exact .deleteWhere _ _
  case deferAfter afterId retryMs =>
    obtain ⟨n, h, -⟩ := answer_ok h
    cases h
    exact .of_maps (Table.maps_update rfl rfl) fun r => by split <;> rfl
  case claim nowMsValue limit =>
    obtain ⟨batch, h, -⟩ := answer_ok h
    obtain ⟨rows, -, -, hm⟩ := claimOutboxBatch_ok h
    refine .of_maps hm fun r => ?_
    unfold claimRow
    split <;> rfl
  case complete id receiptMessageId =>
    obtain ⟨-, hm⟩ := completeOutbox_ok h
    exact .of_maps hm (setRow_idempotencyKey fun _ => rfl)
  case fail id attempts nextRetryMs uncertain =>
    obtain ⟨n, -, h⟩ := bind_eq_ok.1 h
    split at h
    · cases h
    · cases h
      exact .of_maps (updateWhere_setRow _ _ _ _) (setRow_idempotencyKey fun _ => rfl)
  case failAndDefer id attempts nextRetryMs =>
    obtain ⟨deferred, h, -⟩ := answer_ok h
    obtain ⟨-, -, hm⟩ := failOutboxAndDeferSuccessors_ok h
    split at hm
    · exact .of_maps hm (setAndPark_idempotencyKey fun _ => rfl)
    · exact .of_maps hm (setRow_idempotencyKey fun _ => rfl)
  case failTerminal id =>
    obtain ⟨-, hm⟩ := failOutboxTerminal_ok h
    exact .of_maps hm (setRow_idempotencyKey fun _ => rfl)
  case fallback id payloadJson =>
    obtain ⟨-, hm⟩ := replaceOutboxWithFallback_ok h
    exact .of_maps hm (setAndPark_idempotencyKey fun _ => rfl)
  case release id nextRetryMs =>
    obtain ⟨-, hm⟩ := releaseOutboxClaimAt_ok h
    exact .of_maps hm (setRow_idempotencyKey fun _ => rfl)
  case recover =>
    obtain ⟨n, h, -⟩ := answer_ok h
    refine .of_maps (recoverSendingOutbox_ok h) fun r => ?_
    unfold recoverRow
    split <;> rfl

/-! ## What a step does to the inbox -/

/-- Rows of `t'` are new, or rows of `t` with the same key and, but where `marks` holds of it, the same marker. -/
structure KeepsMarkers (marks : String × String → Prop) (t t' : InboundTable) : Prop where
  nextSerial_le : t.nextSerial ≤ t'.nextSerial
  old_or_new : ∀ r' ∈ t'.rows, t.nextSerial ≤ r'.serial ∨ ∃ r ∈ t.rows, r.serial = r'.serial ∧ r.val.key = r'.val.key ∧
    (marks r.val.key ∨ r'.val.replyOutboxKey = r.val.replyOutboxKey)

variable {marks : String × String → Prop}

theorem KeepsMarkers.refl (t : InboundTable) : KeepsMarkers marks t t :=
  ⟨Nat.le_refl _, fun r hr => .inr ⟨r, hr, rfl, rfl, .inr rfl⟩⟩

theorem KeepsMarkers.of_maps {t t' : InboundTable} {f : Row InboundRow → InboundRow} (hm : Table.Maps f t t')
    (hf : ∀ r ∈ t.rows, (f r).key = r.val.key ∧ (marks r.val.key ∨ (f r).replyOutboxKey = r.val.replyOutboxKey)) :
    KeepsMarkers marks t t' where
  nextSerial_le := Nat.le_of_eq hm.nextSerial_eq.symm
  old_or_new := by
    intro r' hr'
    obtain ⟨r, hr, rfl⟩ := hm.mem.1 hr'
    exact .inr ⟨r, hr, rfl, (hf r hr).1.symm, (hf r hr).2⟩

variable {g : InboundRow → InboundRow} {p : InboundRow → Prop}

/-- Rows chosen by `p` and rewritten by `g`. -/
theorem KeepsMarkers.of_rewrite {t t' : InboundTable} [DecidablePred p] (hm : Table.Maps (rewrite p g) t t')
    (hkey : ∀ r, (g r).key = r.key) (hg : ∀ r, p r → marks r.key ∨ (g r).replyOutboxKey = r.replyOutboxKey) :
    KeepsMarkers marks t t' := by
  refine .of_maps hm fun r _ => ?_
  unfold rewrite
  split
  · next hp => exact ⟨hkey _, hg _ hp⟩
  · exact ⟨rfl, .inr rfl⟩

/-- No reply is enqueued and no row gets a marker. -/
structure Silent (db db' : Db) : Prop where
  outbox : Inserts IsTurnKey db.outbox db'.outbox
  inbound : KeepsMarkers (fun _ => False) db.inbound db'.inbound

theorem Silent.refl (db : Db) : Silent db db := ⟨.refl _, .refl _⟩

variable {db db' : Db}

theorem Silent.of_rewrite [DecidablePred p] (houtbox : db'.outbox = db.outbox)
    (hm : Table.Maps (rewrite p g) db.inbound db'.inbound) (hkey : ∀ r, (g r).key = r.key)
    (hg : ∀ r, (g r).replyOutboxKey = r.replyOutboxKey) : Silent db db' :=
  ⟨houtbox ▸ .refl _, .of_rewrite hm hkey fun r _ => .inr (hg r)⟩

theorem Silent.of_inbound (houtbox : db'.outbox = db.outbox) (hinbound : db'.inbound = db.inbound) :
    Silent db db' :=
  ⟨houtbox ▸ .refl _, hinbound ▸ .refl _⟩

theorem registerInbound_silent {tenant : TenantNamespace} {event : InboundEvent} {o : DedupOutcome}
    (h : registerInbound I now tenant event db = .ok (o, db')) : Silent db db' := by
  rcases registerInbound_cases h with ⟨rfl, -⟩ | ⟨-, h⟩
  · exact .refl _
  · obtain ⟨payload, -, -, ⟨hk, rfl⟩, -⟩ := registerNew_ok h
    refine ⟨.refl _, Nat.le_succ _, fun r' hr' => ?_⟩
    rcases (Table.mem_insert (h := hk)).1 hr' with hr' | rfl
    · exact .inr ⟨r', hr', rfl, rfl, .inr rfl⟩
    · exact .inl (Nat.le_refl _)

theorem beginTurn_silent {turn : NewTurnRow} {events : List (InboundKey × Option InboundEvent)} {o : BeginTurnOutcome}
    (h : beginTurnAndClaimInboundInner I now turn events db = .ok (o, db')) : Silent db db' := by
  obtain ⟨claimed, skipped, -, ⟨-, -, rfl⟩ | ⟨-, -, _, hk, inbound, -, -, hm, rfl⟩⟩ := beginTurn_cases h
  · exact .refl _
  · exact .of_rewrite rfl hm (fun _ => rfl) fun _ => rfl

variable {d : InboundDisposition} {key : InboundKey} {reason : InboundRejectionKind} {context : String}

theorem rejectReceived_silent (h : rejectReceivedInTransaction I now key reason db = .ok (d, db')) : Silent db db' := by
  obtain ⟨r, -, -, ⟨-, rfl⟩ | ⟨-, inbound, rfl, hm⟩⟩ := rejectReceived_cases h
  · exact .refl _
  · exact .of_rewrite rfl hm (fun _ => rfl) fun _ => rfl

theorem completeReceivedWithoutTurn_silent (h : completeReceivedWithoutTurn I now key db = .ok (d, db')) :
    Silent db db' := by
  obtain ⟨r, -, -, ⟨-, rfl⟩ | ⟨-, -, inbound, rfl, hm⟩⟩ := completeReceivedWithoutTurn_cases h
  · exact .refl _
  · exact .of_rewrite rfl hm (fun _ => rfl) fun _ => rfl

theorem resolveTurn_silent {turn : TurnResolution} {o : ResolveTurnOutcome}
    (h : resolveTurnAndFinishInboundBatch now id turn db = .ok (o, db')) : Silent db db' := by
  obtain ⟨t, -, rfl, -, ⟨-, rfl⟩ | ⟨-, -, -, inbound, rfl, hm⟩ | ⟨-, -, inbound, rfl, hm⟩⟩ := resolveTurn_cases h
  · exact .refl _
  · exact .of_rewrite rfl hm (fun _ => rfl) fun _ => rfl
  · exact .of_rewrite rfl hm (fun _ => rfl) fun _ => rfl

theorem onTurns_silent {α : Type} {job : Job TurnTable α} {a : α} (h : onTurns job db = .ok (a, db')) :
    Silent db db' := by
  obtain ⟨⟨a', turns⟩, -, heq⟩ := map_eq_ok.1 h
  cases heq
  exact .of_inbound rfl rfl

def InboundOp.reply? : InboundOp → Option (InboundKey × ReplyKind)
  | .completeReceivedAndEnqueueControlReply key _ => some (key, .control)
  | .rejectReceivedAndEnqueueNotice key reason _ => some (key, .notice reason)
  | _ => none

/-- **Only the two reply operations enqueue replies and set markers.** -/
theorem run_silent {op : InboundOp} {reply : OpReply} (hop : op.reply? = none)
    (h : op.run C I now db = .ok (reply, db')) : Silent db db' := by
  unfold InboundOp.run at h
  cases op with
  | registerInbound tenant event => obtain ⟨_, h, -⟩ := answer_ok h; exact registerInbound_silent h
  | beginTurnAndClaimInbound turn events => obtain ⟨_, h, -⟩ := answer_ok h; exact beginTurn_silent h
  | setTurnState id state codexTurnId | recordTurn row => obtain ⟨_, h, -⟩ := answer_ok h; exact onTurns_silent h
  | resolveTurnAndFinishInboundBatch id turn inbound => obtain ⟨_, h, -⟩ := answer_ok h; exact resolveTurn_silent h
  | rejectReceived key reason => obtain ⟨_, h, -⟩ := answer_ok h; exact rejectReceived_silent h
  | completeReceivedWithoutTurn key => obtain ⟨_, h, -⟩ := answer_ok h; exact completeReceivedWithoutTurn_silent h
  | completeReceivedAndEnqueueControlReply key reply => cases hop
  | rejectReceivedAndEnqueueNotice key reason notice => cases hop
  | sweepInbound olderThanMs maxRows =>
    obtain ⟨_, h, -⟩ := answer_ok h
    cases h
    exact ⟨.refl _, Nat.le_refl _, fun r' hr' => .inr ⟨r', (Table.mem_deleteWhere.1 hr').1, rfl, rfl, .inr rfl⟩⟩
  | recoverReceived tenant =>
    obtain ⟨_, h, -⟩ := answer_ok h
    obtain ⟨-, h⟩ := seq_eq_ok.1 h
    obtain ⟨_, -, h⟩ := bind_eq_ok.1 h
    cases h
    exact .refl _

/-! ## Replies -/

/-- The terminal state that goes with a reply. -/
def ReplyKind.Settles : ReplyKind → InboundRow → Prop
  | .control, r => r.state = .completed
  | .notice reason, r => r.state = .rejected ∧ r.rejectionReason = some reason.asStr

/-- The row `k` without a marker is settled, marked and its reply in the outbox; nothing else is new there. -/
structure Answers (k : InboundKey) (kind : ReplyKind) (db db' : Db) : Prop where
  row : ∃ r ∈ db.inbound.rows, r.val.key = k.key ∧ r.val.replyOutboxKey = none ∧
    ∃ r' ∈ db'.inbound.rows, r'.serial = r.serial ∧ r'.val.replyOutboxKey = some (k.replyKey kind) ∧ kind.Settles r'.val
  inbound : KeepsMarkers (· = k.key) db.inbound db'.inbound
  outbox : Inserts (· = k.replyKey kind) db.outbox db'.outbox
  queued : db'.outbox.HasKey (k.replyKey kind)

variable {reply : NewOutboxRow}

theorem enqueueReply_inserts (h : db.enqueueReply C now reply = .ok db') :
    ∃ outbox, db' = { db with outbox := outbox } ∧ Inserts (· = reply.idempotencyKey) db.outbox outbox ∧
      outbox.HasKey reply.idempotencyKey := by
  obtain ⟨outbox, he, rfl⟩ := map_eq_ok.1 h
  exact ⟨outbox, rfl, enqueueInboundReply_inserts he⟩

variable {r : Row InboundRow}

/-- The reply is enqueued and the row `r` rewritten by `g`, which sets the marker and settles it. -/
theorem Answers.of_rewrite {outbox : OutboxTable} {inbound : InboundTable} (hr : r ∈ db.inbound.rows)
    (hk : r.val.key = k.key) (hnone : r.val.replyOutboxKey = none)
    (hm : Table.Maps (rewrite (·.key = r.val.key) g) db.inbound inbound) (hkey : ∀ r, (g r).key = r.key)
    (hmarker : (g r.val).replyOutboxKey = some (k.replyKey kind)) (hsettles : kind.Settles (g r.val))
    (hins : Inserts (· = k.replyKey kind) db.outbox outbox) (hqueued : outbox.HasKey (k.replyKey kind)) :
    Answers k kind db { db with outbox := outbox, inbound := inbound } where
  row := by
    have hval : rewrite (·.key = r.val.key) g r = g r.val := by simp [rewrite]
    exact ⟨r, hr, hk, hnone, _, hm.mem.2 ⟨r, hr, rfl⟩, rfl, hval ▸ hmarker, hval ▸ hsettles⟩
  inbound := .of_rewrite hm hkey fun s hs => .inl (hs.trans hk)
  outbox := hins
  queued := hqueued

theorem recordReply_row {idempotencyKey : String} (h : recordInboundReplyEffect now key idempotencyKey db = .ok db') :
    ∃ r ∈ db.inbound.rows, r.val.key = key.key ∧ r.val.replyOutboxKey = none ∧ ∃ inbound,
      db' = { db with inbound := inbound } ∧
      Table.Maps (rewrite (·.key = r.val.key) (InboundRow.mark now idempotencyKey)) db.inbound inbound := by
  unfold recordInboundReplyEffect at h
  split at h
  · cases h
  · obtain ⟨r, hr, hp, hk, inbound, hdb, hm⟩ := updateOne_row key.key h (by simp; tauto)
    simp only [decide_eq_true_eq] at hp
    exact ⟨r, hr, hk, hp.2, inbound, hdb, hm⟩

/-- A row that was settled without a reply gets it, once. -/
theorem recordReply_answers (hr : r ∈ db.inbound.rows) (hk : r.val.key = k.key)
    (hreply : reply.idempotencyKey = k.replyKey kind) (hsettles : kind.Settles r.val) {db₁ : Db}
    (he : db.enqueueReply C now reply = .ok db₁) (h : recordInboundReplyEffect now k reply.idempotencyKey db₁ = .ok db') :
    Answers k kind db db' := by
  obtain ⟨outbox, rfl, hins, hqueued⟩ := enqueueReply_inserts he
  obtain ⟨s, hs, hsk, hnone, inbound, rfl, hm⟩ := recordReply_row h
  obtain rfl := Table.eq_of_key (t := db.inbound) hs hr (hsk.trans hk.symm)
  rw [hreply] at hins hqueued hm
  refine .of_rewrite hr hk hnone hm (fun _ => rfl) rfl ?_ hins hqueued
  cases kind <;> exact hsettles

theorem completeReceivedAndEnqueueControlReply_answers
    (h : completeReceivedAndEnqueueControlReply C I now k reply db = .ok (d, db')) :
    db' = db ∨ Answers k .control db db' := by
  obtain ⟨r, hr, hk, hreply, ⟨-, rfl⟩ | ⟨hs, -, db₁, he, hrecord⟩ |
    ⟨-, -, hnone, outbox, inbound, he, rfl, hm⟩⟩ := completeControlReply_cases h
  · exact .inl rfl
  · exact .inr (recordReply_answers hr hk hreply hs he hrecord)
  · obtain ⟨outbox, heq, hins, hqueued⟩ := enqueueReply_inserts he
    cases heq
    rw [hreply] at hins hqueued hm
    exact .inr (.of_rewrite hr hk hnone hm (fun _ => rfl) rfl rfl hins hqueued)

theorem rejectReceivedAndEnqueueNotice_answers
    (h : rejectReceivedAndEnqueueNotice C I now k reason notice db = .ok (d, db')) :
    db' = db ∨ Answers k (.notice reason) db db' := by
  obtain ⟨r, hr, hk, hreply, ⟨-, rfl⟩ | ⟨hs, hreason, db₁, he, hrecord⟩ |
    ⟨-, hnone, outbox, rejected, he, hm, hrecord⟩⟩ := rejectWithNotice_cases h
  · exact .inl rfl
  · exact .inr (recordReply_answers hr hk hreply ⟨hs, hreason⟩ he hrecord)
  · obtain ⟨outbox, heq, hins, hqueued⟩ := enqueueReply_inserts he
    cases heq
    obtain ⟨s, hsmem, hsk, -, inbound, rfl, hm'⟩ := recordReply_row hrecord
    rw [show notice.idempotencyKey = k.replyKey (.notice reason) from hreply] at hins hqueued hm'
    -- the rejected row and the marked row are the row of `k`
    have hboth : Table.Maps (rewrite (·.key = r.val.key) fun a =>
        InboundRow.mark now (k.replyKey (.notice reason)) (InboundRow.finish now .rejected (some reason.asStr) a))
        db.inbound inbound := by
      refine (hm.trans hm').congr fun a _ => ?_
      unfold rewrite
      by_cases ha : a.val.key = r.val.key
      · have ha' : (InboundRow.finish now .rejected (some reason.asStr) a.val).key = s.val.key :=
          (ha.trans hk).trans hsk.symm
        simp only [ha, if_true, ha']
      · have ha' : a.val.key ≠ s.val.key := fun h => ha (h.trans (hsk.trans hk.symm))
        simp only [ha, if_false, ha']
    exact .inr (.of_rewrite hr hk hnone hboth (fun _ => rfl) rfl ⟨rfl, rfl⟩ hins hqueued)

/-! ## Runs -/

/-- What happens to the store: the operations on inbound rows and turns, and those on the outbox. -/
inductive ReplyEvent where
  | store (e : StoreEvent)
  /-- A delivery, a sweep of the outbox, or an enqueue for a turn. -/
  | outbox (fate : Fate) (now : ℤ) (op : OutboxOp) (hop : op.OfTurns)

def onOutbox {α : Type} (job : Job OutboxTable α) : Job Db α := fun db =>
  (job db.outbox).map fun (a, outbox) => (a, { db with outbox := outbox })

variable (C I) in
/-- One event. -/
def replyStep (w : Writer Db) : ReplyEvent → Writer Db
  | .store e => storeStep C I w e
  | .outbox fate now op _ => (w.call (.ok ()) fate (onOutbox (op.job C now))).2

def ReplyEvent.reply? : ReplyEvent → Option (InboundKey × ReplyKind)
  | .store (.call _ _ op) => op.reply?
  | _ => none

/-- **A step settles a row with its reply, marker and state, or has no part of it.** -/
theorem replyStep_answers (w : Writer Db) (e : ReplyEvent) :
    (∀ k kind, e.reply? = some (k, kind) → (replyStep C I w e).db = w.db ∨ Answers k kind w.db (replyStep C I w e).db) ∧
      (e.reply? = none → Silent w.db (replyStep C I w e).db) := by
  cases e with
  | outbox fate now op hop =>
    refine ⟨nofun, fun _ => ?_⟩
    rcases call_db w (.ok ()) fate (onOutbox (op.job C now)) with h | ⟨u, -, h⟩
    · rw [replyStep, h]
      exact .refl _
    · obtain ⟨⟨u', outbox⟩, hj, heq⟩ := map_eq_ok.1 h
      have hdb : (replyStep C I w (.outbox fate now op hop)).db = { w.db with outbox := outbox } :=
        (congrArg Prod.snd heq).symm
      rw [hdb]
      exact ⟨outboxOp_inserts hop hj, .refl _⟩
  | store e =>
    cases e with
    | restart => exact ⟨nofun, fun _ => .refl _⟩
    | call fate now op =>
      rw [replyStep, storeStep, Writer.callOp]
      rcases call_db w op.check fate (op.run C I now) with h | ⟨reply, -, h⟩
      · rw [h]
        exact ⟨fun _ _ _ => .inl rfl, fun _ => .refl _⟩
      · refine ⟨fun k kind hreply => ?_, fun hreply => run_silent hreply h⟩
        unfold InboundOp.run at h
        cases op <;> cases hreply
        · obtain ⟨_, h, -⟩ := answer_ok h
          exact completeReceivedAndEnqueueControlReply_answers h
        · obtain ⟨_, h, -⟩ := answer_ok h
          exact rejectReceivedAndEnqueueNotice_answers h

variable (C I) in
/-- The store after a run from an empty database. -/
def replyAfter (es : List ReplyEvent) : Writer Db := exec (replyStep C I) emptyStore es

/-- The key is the key of a reply to `k`. -/
def InboundKey.ownsReply (k : InboundKey) (key : String) : Bool := ReplyKind.all.any fun kind => key == k.replyKey kind

/-- The replies to `k` that are new in the outbox. -/
def newReplies (k : InboundKey) (db db' : Db) : List (Row OutboxRow) :=
  db'.outbox.rows.filter fun o => decide (db.outbox.nextSerial ≤ o.serial) && k.ownsReply o.val.idempotencyKey

variable (C I) in
/-- How many replies to `k` the steps of a run insert. -/
def insertedReplies (k : InboundKey) : Writer Db → List ReplyEvent → ℕ
  | _, [] => 0
  | w, e :: es => (newReplies k w.db (replyStep C I w e).db).length + insertedReplies k (replyStep C I w e) es

theorem ownsReply_iff {key : String} : k.ownsReply key = true ↔ ∃ kind, key = k.replyKey kind := by
  simp only [InboundKey.ownsReply, List.any_eq_true, beq_iff_eq]
  exact ⟨fun ⟨kind, _, h⟩ => ⟨kind, h⟩, fun ⟨kind, h⟩ => ⟨kind, kind.mem_all, h⟩⟩

/-- A new reply to `k` has a key that the step may insert. -/
theorem mem_newReplies (h : Inserts P db.outbox db'.outbox) {o : Row OutboxRow} (ho : o ∈ newReplies k db db') :
    o ∈ db'.outbox.rows ∧ P o.val.idempotencyKey ∧ ∃ kind, o.val.idempotencyKey = k.replyKey kind := by
  obtain ⟨ho, hp⟩ := List.mem_filter.1 ho
  simp only [Bool.and_eq_true, decide_eq_true_eq, ownsReply_iff] at hp
  refine ⟨ho, ?_, hp.2⟩
  rcases h.old_or_new o ho with ⟨q, hq, hs, -⟩ | ⟨-, hP⟩
  · have := db.outbox.serial_lt_next q hq
    omega
  · exact hP

theorem Silent.newReplies_eq (h : Silent db db') : newReplies k db db' = [] := by
  refine List.eq_nil_iff_forall_not_mem.2 fun o ho => ?_
  obtain ⟨-, ⟨turn, hturn⟩, kind, hkind⟩ := mem_newReplies h.outbox ho
  exact replyKey_ne_turnKey k kind turn (hkind.symm.trans hturn)

theorem Answers.newReplies_eq (h : Answers k' kind db db') (hne : k ≠ k') :
    newReplies k db db' = [] := by
  refine List.eq_nil_iff_forall_not_mem.2 fun o ho => ?_
  obtain ⟨-, hkey, kind', hkind⟩ := mem_newReplies h.outbox ho
  exact hne (InboundKey.replyKey_injective (hkind.symm.trans hkey)).1

/-- The outbox has one row for a key. -/
theorem Answers.newReplies_length_le (h : Answers k kind db db') :
    (newReplies k db db').length ≤ 1 := by
  have hpair : (newReplies k db db').Pairwise fun o q => o.val.idempotencyKey ≠ q.val.idempotencyKey :=
    db'.outbox.key_ne.filter _
  have hall : ∀ o ∈ newReplies k db db', o.val.idempotencyKey = k.replyKey kind :=
    fun o ho => (mem_newReplies h.outbox ho).2.1
  match hl : newReplies k db db' with
  | [] => exact Nat.zero_le _
  | [_] => exact Nat.le_refl _
  | o :: q :: _ =>
    rw [hl] at hpair hall
    have hne := (List.pairwise_cons.1 hpair).1 q List.mem_cons_self
    exact absurd ((hall o List.mem_cons_self).trans (hall q (List.mem_cons_of_mem _ List.mem_cons_self)).symm) hne

/-- What one step means for the row `r`, found again as `r'`: a reply is new only where a marker replaces none. -/
theorem replyStep_row {w : Writer Db} (e : ReplyEvent) {r' : Row InboundRow} (hr : r ∈ w.db.inbound.rows)
    (hk : r.val.key = k.key) (hr' : r' ∈ (replyStep C I w e).db.inbound.rows) (hs : r'.serial = r.serial) :
    r'.val.replyOutboxKey = r.val.replyOutboxKey ∧ newReplies k w.db (replyStep C I w e).db = [] ∨
      r.val.replyOutboxKey = none ∧ r'.val.replyOutboxKey ≠ none ∧
        (newReplies k w.db (replyStep C I w e).db).length ≤ 1 := by
  -- a row that is not new has the marker it had, unless it is the one that is marked
  have hmarker : ∀ {marks : String × String → Prop}, KeepsMarkers marks w.db.inbound (replyStep C I w e).db.inbound →
      marks r.val.key ∨ r'.val.replyOutboxKey = r.val.replyOutboxKey := by
    intro marks hkeeps
    rcases hkeeps.old_or_new r' hr' with hnew | ⟨q, hq, hqs, -, hmark⟩
    · have := w.db.inbound.serial_lt_next r hr
      omega
    · rwa [Table.eq_of_serial hq hr (hqs.trans hs)] at hmark
  have hsilent : Silent w.db (replyStep C I w e).db →
      r'.val.replyOutboxKey = r.val.replyOutboxKey ∧ newReplies k w.db (replyStep C I w e).db = [] :=
    fun h => ⟨(hmarker h.inbound).resolve_left id, h.newReplies_eq⟩
  obtain ⟨hanswers, hquiet⟩ := replyStep_answers (C := C) (I := I) w e
  cases hreply : e.reply? with
  | none => exact .inl (hsilent (hquiet hreply))
  | some reply =>
    obtain ⟨k', kind⟩ := reply
    rcases hanswers k' kind hreply with h | h
    · exact .inl (hsilent (h ▸ .refl _))
    · by_cases hkk : k = k'
      · subst hkk
        obtain ⟨q, hq, hqk, hnone, q', hq', hqs, hsome, -⟩ := h.row
        obtain rfl := Table.eq_of_key hq hr (hqk.trans hk.symm)
        obtain rfl := Table.eq_of_serial hq' hr' (hqs.trans hs.symm)
        exact .inr ⟨hnone, by simp [hsome], h.newReplies_length_le⟩
      · refine .inl ⟨(hmarker h.inbound).resolve_left fun hmark => hkk ?_, h.newReplies_eq hkk⟩
        exact InboundKey.key_injective (hk.symm.trans hmark)

theorem replyStep_keeps (w : Writer Db) (e : ReplyEvent) :
    KeepsMarkers (fun _ => True) w.db.inbound (replyStep C I w e).db.inbound := by
  have hmono : ∀ {marks : String × String → Prop}, KeepsMarkers marks w.db.inbound (replyStep C I w e).db.inbound →
      KeepsMarkers (fun _ => True) w.db.inbound (replyStep C I w e).db.inbound := fun h =>
    ⟨h.nextSerial_le, fun r' hr' => (h.old_or_new r' hr').imp_right fun ⟨r, hr, hs, hk, _⟩ =>
      ⟨r, hr, hs, hk, .inl trivial⟩⟩
  obtain ⟨hanswers, hquiet⟩ := replyStep_answers (C := C) (I := I) w e
  cases hreply : e.reply? with
  | none => exact hmono (hquiet hreply).inbound
  | some reply =>
    rcases hanswers reply.1 reply.2 hreply with h | h
    · rw [h]
      exact .refl _
    · exact hmono h.inbound

theorem row_before : ∀ (es : List ReplyEvent) (w : Writer Db) {r' : Row InboundRow},
    r' ∈ (exec (replyStep C I) w es).db.inbound.rows → r'.serial < w.db.inbound.nextSerial →
      ∃ r ∈ w.db.inbound.rows, r.serial = r'.serial ∧ r.val.key = r'.val.key
  | [], _, r', hr', _ => ⟨r', hr', rfl, rfl⟩
  | e :: es, w, r', hr', hlt => by
    have hkeeps := replyStep_keeps (C := C) (I := I) w e
    obtain ⟨q, hq, hqs, hqk⟩ := row_before es (replyStep C I w e) hr' (hlt.trans_le hkeeps.nextSerial_le)
    rcases hkeeps.old_or_new q hq with hnew | ⟨r, hr, hs, hk, -⟩
    · omega
    · exact ⟨r, hr, hs.trans hqs, hk.trans hqk⟩

/-- **While a row exists, a run inserts at most one reply to it, and none once it has its marker.** -/
theorem insertedReplies_le : ∀ (es : List ReplyEvent) (w : Writer Db) {r r' : Row InboundRow},
    r ∈ w.db.inbound.rows → r.val.key = k.key → r' ∈ (exec (replyStep C I) w es).db.inbound.rows →
      r'.serial = r.serial → insertedReplies C I k w es ≤ if r.val.replyOutboxKey = none then 1 else 0
  | [], _, _, _, _, _, _, _ => Nat.zero_le _
  | e :: es, w, r, r', hr, hk, hr', hs => by
    have hlt : r'.serial < (replyStep C I w e).db.inbound.nextSerial := by
      have := w.db.inbound.serial_lt_next r hr
      have := (replyStep_keeps (C := C) (I := I) w e).nextSerial_le
      omega
    obtain ⟨q, hq, hqs, -⟩ := row_before es (replyStep C I w e) hr' hlt
    have hqk : q.val.key = k.key := by
      rcases (replyStep_keeps (C := C) (I := I) w e).old_or_new q hq with hnew | ⟨p, hp, hps, hpk, -⟩
      · have := w.db.inbound.serial_lt_next r hr
        omega
      · rw [← hpk, Table.eq_of_serial hp hr (by omega), hk]
    have ih := insertedReplies_le es (replyStep C I w e) hq hqk hr' hqs.symm
    rw [insertedReplies]
    rcases replyStep_row e hr hk hq (hqs.trans hs) with ⟨hmarker, hnil⟩ | ⟨hnone, hsome, hle⟩
    · rw [hmarker] at ih
      rw [hnil, List.length_nil, Nat.zero_add]
      exact ih
    · rw [if_neg hsome] at ih
      rw [if_pos hnone]
      omega

/-- **One reply effect for each inbound row.** While the row `n` with key `k` exists, at most one reply to it is
inserted; a reply goes into the outbox in the step that settles and marks the row; no two keys are the same. -/
theorem one_reply_effect (C : Codec) (I : InboundCodec) (es : List ReplyEvent) :
    (∀ (fs : List ReplyEvent) (k : InboundKey) (n : ℕ),
      (∃ r ∈ (replyAfter C I es).db.inbound.rows, r.serial = n ∧ r.val.key = k.key) →
      (∃ r ∈ (replyAfter C I (es ++ fs)).db.inbound.rows, r.serial = n) →
        insertedReplies C I k (replyAfter C I es) fs ≤ 1) ∧
    (∀ e : ReplyEvent,
      (∀ k kind, e.reply? = some (k, kind) → (replyStep C I (replyAfter C I es) e).db = (replyAfter C I es).db ∨
        Answers k kind (replyAfter C I es).db (replyStep C I (replyAfter C I es) e).db) ∧
      (e.reply? = none → Silent (replyAfter C I es).db (replyStep C I (replyAfter C I es) e).db)) ∧
    (∀ k k' kind kind', InboundKey.replyKey k kind = InboundKey.replyKey k' kind' → k = k' ∧ kind = kind') ∧
    ∀ (k : InboundKey) (kind : ReplyKind) (turn : TurnKey), k.replyKey kind ≠ turn.idempotencyKey := by
  refine ⟨?_, replyStep_answers _, fun _ _ _ _ => InboundKey.replyKey_injective, replyKey_ne_turnKey⟩
  rintro fs k n ⟨r, hr, hs, hk⟩ ⟨r', hr', hs'⟩
  rw [replyAfter, exec_append] at hr'
  refine (insertedReplies_le fs (replyAfter C I es) hr hk hr' (hs'.trans hs.symm)).trans ?_
  split <;> omega

/-- The control reply to `evt_1`. -/
def helloReply : NewOutboxRow := ⟨(helloKey "evt_1").replyKey .control, "im:oc_1", "control", "ok", 0⟩

/-- The reply is enqueued, delivered and swept, and the call repeated after a restart. -/
def answeredRun : List ReplyEvent :=
  [.store (.call .execute 1001 (.completeReceivedAndEnqueueControlReply (helloKey "evt_1") helloReply)),
   .outbox .execute 1002 (.claim 1002 1) trivial,
   .outbox .execute 1003 (.complete 1 "om_2") trivial,
   .outbox .execute 2000 (.sweep 1500 10) trivial,
   .store .restart,
   .store (.call .execute 2001 (.completeReceivedAndEnqueueControlReply (helloKey "evt_1") helloReply))]

set_option maxRecDepth 20000 in
theorem one_reply_effect_answeredRun :
    (replyAfter noOutbox helloCodec
        (.store (.call .execute 1000 (.registerInbound sampleTenant (helloEvent "evt_1"))) :: answeredRun)).db.outbox.rows.length
      = 0 ∧
    insertedReplies noOutbox helloCodec (helloKey "evt_1")
      (replyAfter noOutbox helloCodec [.store (.call .execute 1000 (.registerInbound sampleTenant (helloEvent "evt_1")))])
      answeredRun ≤ 1 :=
  ⟨by decide, (one_reply_effect noOutbox helloCodec
    [.store (.call .execute 1000 (.registerInbound sampleTenant (helloEvent "evt_1")))]).1 answeredRun (helloKey "evt_1") 0
    (by decide) (by decide)⟩

end LarkCodexBridge.Store

import Mathlib
import LarkCodexBridge.Runtime.Sessions

/-!
# Live turns stay within the recovery bounds

A turn is counted by recovery while it is live. Recording one, beginning one with its inbound rows and moving one on are
each checked against the bounds on rows and bytes, the last without the turn's own row; a resolution takes the turn out.

* `RecoveryFits`: the bounds of `uncertain_turns`;
* `recoveryUsage_insert`, `recoveryUsage_update`: what a new turn and a rewritten one add;
* `run_turns`: what every operation makes of the turns;
* `live_turns_bounded`: every run.
-/

namespace LarkCodexBridge.Runtime

open Limits SqlTable Store Outbox Lark StepSystem

/-- The live turns fit what recovery reads. -/
def RecoveryFits (t : TurnTable) : Prop :=
  (recoveryUsage none t).1 ≤ storeRecoveryTurnMaxRows ∧ (recoveryUsage none t).2 ≤ storeRecoveryTurnMaxBytes

variable {C : Codec} {I : InboundCodec} {t t' : TurnTable} {db db' : Db} {now : ℤ} {n : ℕ} {context : String}
  {row : NewTurnRow} {r : Row TurnRow}

/-! ## What recovery counts -/

theorem recoveryFits_empty : RecoveryFits .empty := by
  simp [RecoveryFits, recoveryUsage, Table.empty]

theorem ensureRecoveryCapacity_eq_ok {usage : ℕ × ℕ} :
    ensureRecoveryCapacity usage n context = .ok () ↔
      usage.1 < storeRecoveryTurnMaxRows ∧ usage.2 + n ≤ storeRecoveryTurnMaxBytes := by
  unfold ensureRecoveryCapacity
  split
  · exact iff_of_false nofun (by omega)
  · exact iff_of_true rfl (by omega)

/-- A new turn is live. -/
theorem recoveryUsage_insert {hk} :
    recoveryUsage none (t.insert (row.columns now n) hk) = ((recoveryUsage none t).1 + 1,
      (recoveryUsage none t).2 + turnBytes row.scopeKey row.clientMessageId row.codexThreadId none) := by
  have hlive : (row.columns now n).live = true := by simp [TurnRow.live, NewTurnRow.columns]
  simp only [recoveryUsage, Table.insert, List.filter_append, List.filter_cons, List.filter_nil, hlive]
  simp [TurnRow.bytes, turnBytes, NewTurnRow.columns]

/-- A rewritten turn counts as what it became. -/
theorem recoveryUsage_update {g : TurnRow → TurnRow} (hr : r ∈ t.rows)
    (ht' : t'.rows = t.rows.map (·.update (·.id == r.id) g)) : recoveryUsage none t' =
      ((recoveryUsage (some r.id) t).1 + if (g r.val).live then 1 else 0,
        (recoveryUsage (some r.id) t).2 + if (g r.val).live then (g r.val).bytes else 0) := by
  obtain ⟨l₁, l₂, hl⟩ := List.append_of_mem hr
  have hids := t.id_lt
  rw [hl] at hids
  obtain ⟨-, hright, hleft⟩ := List.pairwise_append.1 hids
  have hne₁ : ∀ q ∈ l₁, q.id ≠ r.id := fun q hq => Nat.ne_of_lt (hleft q hq r List.mem_cons_self)
  have hne₂ : ∀ q ∈ l₂, q.id ≠ r.id := fun q hq => (Nat.ne_of_lt ((List.pairwise_cons.1 hright).1 q hq)).symm
  -- the rows on either side stay, and are all counted
  have hsame : ∀ l : List (Row TurnRow), (∀ q ∈ l, q.id ≠ r.id) →
      l.map (Row.update (·.id == r.id) g) = l ∧
      (l.filter fun q => q.val.live && decide (some q.id ≠ none)) =
        l.filter fun q => q.val.live && decide (some q.id ≠ some r.id) := by
    intro l hl
    constructor
    · exact (List.map_congr_left fun q hq => Row.update_of_neg (by simpa using hl q hq)).trans (List.map_id _)
    · exact List.filter_congr fun q hq => by simp [hl q hq]
  have hself : Row.update (fun q => q.id == r.id) g r = { r with val := g r.val } := Row.update_of_pos (by simp)
  simp only [recoveryUsage, ht', hl, List.map_append, List.map_cons, (hsame l₁ hne₁).1, (hsame l₂ hne₂).1,
    List.filter_append, List.filter_cons, hself, (hsame l₁ hne₁).2, (hsame l₂ hne₂).2]
  cases hlive : (g r.val).live with
  | true =>
    simp
    omega
  | false => simp

/-- Leaving a turn out does not count more. -/
theorem recoveryUsage_exclude (id : ℕ) (t : TurnTable) :
    (recoveryUsage (some id) t).1 ≤ (recoveryUsage none t).1 ∧ (recoveryUsage (some id) t).2 ≤ (recoveryUsage none t).2 := by
  have hsub : (t.rows.filter fun r => r.val.live && decide (some r.id ≠ some id)).Sublist
      (t.rows.filter fun r => r.val.live && decide (some r.id ≠ none)) := by
    refine List.monotone_filter_right _ fun r h => ?_
    simpa using (Bool.and_eq_true_iff.1 h).1
  exact ⟨hsub.length_le, (hsub.map _).sum_le_sum fun _ _ => Nat.zero_le _⟩

/-! ## Jobs on turns -/

variable {id : ℕ} {turn : TurnResolution} {o : ResolveTurnOutcome} {key : InboundKey} {d : InboundDisposition}

theorem insert_recoveryFits {hk} (hcapacity : ensureRecoveryCapacity (recoveryUsage none t)
      (turnBytes row.scopeKey row.clientMessageId row.codexThreadId none) context = .ok ()) :
    RecoveryFits (t.insert (row.columns now n) hk) := by
  unfold RecoveryFits
  rw [recoveryUsage_insert]
  exact ensureRecoveryCapacity_eq_ok.1 hcapacity

theorem setTurnState_recoveryFits {state : TurnState} {codexTurnId : Option String} {u : Unit} (ht : RecoveryFits t)
    (h : setTurnState now id state codexTurnId t = .ok (u, t')) : RecoveryFits t' := by
  unfold setTurnState at h
  split at h
  · cases h
  next r hget =>
  obtain ⟨hr, rfl⟩ := Table.get?_eq_some.1 hget
  split at h
  · cases h
  next hlegal =>
  split at h
  · cases h
  obtain ⟨hcapacity, heq⟩ := seq_eq_ok.1 h
  have ht' : t'.rows = t.rows.map (·.update (·.id == r.id) (TurnRow.setState now state codexTurnId)) := by
    cases heq
    rfl
  obtain ⟨hrows, hbytes⟩ := recoveryUsage_exclude r.id t
  unfold RecoveryFits at ht ⊢
  rw [recoveryUsage_update hr ht']
  unfold ensureTransitionCapacity at hcapacity
  split at hcapacity
  next hlive =>
    -- the turn stays live: its row was left out and counted anew
    obtain ⟨hrows', hbytes'⟩ := ensureRecoveryCapacity_eq_ok.1 hcapacity
    have hsize : (TurnRow.setState now state codexTurnId r.val).bytes =
        turnBytes r.val.scopeKey r.val.clientMessageId r.val.codexThreadId (codexTurnId.or r.val.codexTurnId) := rfl
    rw [hsize]
    constructor <;> split <;> omega
  next hover =>
    have hdead : (TurnRow.setState now state codexTurnId r.val).live = false := by
      have hnot : state ≠ .starting := by
        rintro rfl
        cases hs : r.val.state <;> simp [legalTurnTransition, hs] at hlegal
      refine decide_eq_false fun hlive => ?_
      rcases hlive with hs | hs | ⟨hs, -⟩
      · exact hnot hs
      · exact hover (.inl hs)
      · exact hover (.inr hs)
    rw [hdead]
    exact ⟨hrows.trans ht.1, hbytes.trans ht.2⟩

theorem resolveTurn_recoveryFits (hr : r ∈ db.turns.rows) (turn : TurnResolution) (ht : RecoveryFits db.turns) :
    RecoveryFits (db.resolveTurn now r.id turn.target.1).turns := by
  obtain ⟨hrows, hbytes⟩ := recoveryUsage_exclude r.id db.turns
  have hdead : (TurnRow.resolve now turn.target.1 r.val).live = false := by
    cases turn <;> simp [TurnRow.live, TurnRow.resolve, TurnResolution.target]
  unfold RecoveryFits at ht ⊢
  have ht' : (db.resolveTurn now r.id turn.target.1).turns.rows =
      db.turns.rows.map (·.update (·.id == r.id) (TurnRow.resolve now turn.target.1)) := rfl
  rw [recoveryUsage_update hr ht', hdead]
  exact ⟨hrows.trans ht.1, hbytes.trans ht.2⟩

/-- A resolution changes no turn but its own, and that one only if it was not in its final state. -/
theorem resolve_cases (h : resolveTurnAndFinishInboundBatch now id turn db = .ok (o, db')) :
    ∃ r ∈ db.turns.rows, r.id = id ∧ 0 < r.val.inboundCount ∧
      (db'.turns = db.turns ∧ r.val.state = turn.target.1 ∧ r.val.uncertain = false ∨
        db'.turns = (db.resolveTurn now r.id turn.target.1).turns) := by
  obtain ⟨t, ht, hid, hcount, ⟨halready, rfl⟩ | ⟨-, -, -, inbound, rfl, -⟩ | ⟨-, -, inbound, rfl, -⟩⟩ := resolveTurn_cases h
  · exact ⟨t, ht, hid, hcount, .inl ⟨rfl, halready⟩⟩
  · exact ⟨t, ht, hid, hcount, .inr rfl⟩
  · exact ⟨t, ht, hid, hcount, .inr rfl⟩

/-! ## Jobs on inbound rows -/

theorem registerInbound_turns {tenant : TenantNamespace} {event : InboundEvent} {o : DedupOutcome}
    (h : registerInbound I now tenant event db = .ok (o, db')) : db'.turns = db.turns := by
  rcases registerInbound_cases h with ⟨rfl, -⟩ | ⟨-, h⟩
  · rfl
  · obtain ⟨_, -, -, ⟨_, rfl⟩, -⟩ := registerNew_ok h
    rfl

theorem completeReceivedWithoutTurn_turns (h : completeReceivedWithoutTurn I now key db = .ok (d, db')) :
    db'.turns = db.turns := by
  obtain ⟨r, -, -, ⟨-, rfl⟩ | ⟨-, -, inbound, rfl, -⟩⟩ := completeReceivedWithoutTurn_cases h
  · rfl
  · rfl

theorem completeReceivedAndEnqueueControlReply_turns {reply : NewOutboxRow}
    (h : completeReceivedAndEnqueueControlReply C I now key reply db = .ok (d, db')) : db'.turns = db.turns := by
  obtain ⟨r, -, -, -, ⟨-, rfl⟩ | ⟨-, -, db₁, he, hrecord⟩ | ⟨-, -, -, outbox, inbound, -, rfl, -⟩⟩ :=
    completeControlReply_cases h
  · rfl
  · exact ((enqueueReply_onlyRow he).trans (recordInboundReplyEffect_onlyRow hrecord)).turns
  · rfl

/-! ## Runs -/

/-- What an operation makes of the turns. -/
inductive TurnsStep (now : ℤ) (db : Db) : InboundOp → TurnTable → Prop where
  | same {op} : TurnsStep now db op db.turns
  | insert {op n context} {row : NewTurnRow} (hk) (hcapacity : ensureRecoveryCapacity (recoveryUsage none db.turns)
      (turnBytes row.scopeKey row.clientMessageId row.codexThreadId none) context = .ok ()) :
      TurnsStep now db op (db.turns.insert (row.columns now n) hk)
  | setState {id state codexTurnId t} {u : Unit} (h : setTurnState now id state codexTurnId db.turns = .ok (u, t)) :
      TurnsStep now db (.setTurnState id state codexTurnId) t
  | resolve {turn inbound} {r : Row TurnRow} (hr : r ∈ db.turns.rows) :
      TurnsStep now db (.resolveTurnAndFinishInboundBatch r.id turn inbound) (db.resolveTurn now r.id turn.target.1).turns

/-- **One operation.** -/
theorem run_turns {op : InboundOp} {reply : OpReply} (h : op.run C I now db = .ok (reply, db')) :
    TurnsStep now db op db'.turns := by
  unfold InboundOp.run at h
  cases op with
  | registerInbound tenant event =>
    obtain ⟨_, h, -⟩ := answer_ok h
    exact registerInbound_turns h ▸ .same
  | beginTurnAndClaimInbound turn events =>
    obtain ⟨_, h, -⟩ := answer_ok h
    obtain ⟨_, _, -, ⟨-, -, rfl⟩ | ⟨-, -, _, hk, _, hcapacity, -, -, rfl⟩⟩ := beginTurn_cases h
    · exact .same
    · exact .insert hk hcapacity
  | setTurnState id state codexTurnId =>
    obtain ⟨_, h, -⟩ := answer_ok h
    obtain ⟨⟨u, turns⟩, hjob, heq⟩ := map_eq_ok.1 h
    cases heq
    exact .setState hjob
  | resolveTurnAndFinishInboundBatch id turn inbound =>
    obtain ⟨_, h, -⟩ := answer_ok h
    obtain ⟨r, hr, rfl, -, ⟨heq, -⟩ | heq⟩ := resolve_cases h
    · exact heq ▸ .same
    · exact heq ▸ .resolve hr
  | rejectReceived key reason =>
    obtain ⟨_, h, -⟩ := answer_ok h
    exact (rejectReceivedInTransaction_onlyRow h).turns ▸ .same
  | completeReceivedWithoutTurn key =>
    obtain ⟨_, h, -⟩ := answer_ok h
    exact completeReceivedWithoutTurn_turns h ▸ .same
  | completeReceivedAndEnqueueControlReply key reply =>
    obtain ⟨_, h, -⟩ := answer_ok h
    exact completeReceivedAndEnqueueControlReply_turns h ▸ .same
  | rejectReceivedAndEnqueueNotice key reason notice =>
    obtain ⟨_, h, -⟩ := answer_ok h
    exact (rejectReceivedAndEnqueueNotice_onlyRow h).turns ▸ .same
  | recordTurn row =>
    obtain ⟨_, h, -⟩ := answer_ok h
    obtain ⟨⟨id, turns⟩, hjob, heq⟩ := map_eq_ok.1 h
    cases heq
    obtain ⟨hcapacity, hinsert⟩ := seq_eq_ok.1 hjob
    obtain ⟨-, hk, rfl⟩ := insertTurn_ok hinsert
    exact .insert hk hcapacity
  | sweepInbound olderThanMs maxRows =>
    obtain ⟨_, h, -⟩ := answer_ok h
    cases h
    exact .same
  | recoverReceived tenant =>
    obtain ⟨_, h, -⟩ := answer_ok h
    obtain ⟨-, h⟩ := seq_eq_ok.1 h
    obtain ⟨_, -, h⟩ := bind_eq_ok.1 h
    cases h
    exact .same

theorem TurnsStep.recoveryFits {op : InboundOp} (ht : RecoveryFits db.turns) (h : TurnsStep now db op t) :
    RecoveryFits t := by
  cases h with
  | same => exact ht
  | insert _ hcapacity => exact insert_recoveryFits hcapacity
  | setState h => exact setTurnState_recoveryFits ht h
  | resolve hr => exact resolveTurn_recoveryFits hr _ ht

/-- **One step.** -/
theorem storeStep_recoveryFits (w : Writer Db) (e : StoreEvent) (ht : RecoveryFits w.db.turns) :
    RecoveryFits (storeStep C I w e).db.turns := by
  cases e with
  | restart => exact ht
  | call fate now op =>
    rcases call_db w op.check fate (op.run C I now) with h | ⟨_, -, h⟩
    · rw [storeStep, Writer.callOp, h]
      exact ht
    · exact (run_turns h).recoveryFits ht

theorem uncertainTurns_of_fits {s : SessionDb} (h : RecoveryFits s.db.turns) :
    uncertainTurns s = .ok (s.db.turns.rows.filter (·.val.live), s) := by
  obtain ⟨hrows, hbytes⟩ := h
  exact if_neg (by omega)

/-- **The live turns stay bounded** in every run, and recovery reads all of them. -/
theorem live_turns_bounded (C : Codec) (I : InboundCodec) (es : List StoreEvent) :
    ((recoveryUsage none (storeAfter C I es).db.turns).1 ≤ storeRecoveryTurnMaxRows ∧
      (recoveryUsage none (storeAfter C I es).db.turns).2 ≤ storeRecoveryTurnMaxBytes) ∧
    ∀ scopes threads, uncertainTurns ⟨(storeAfter C I es).db, scopes, threads⟩ =
      .ok ((storeAfter C I es).db.turns.rows.filter (·.val.live), ⟨(storeAfter C I es).db, scopes, threads⟩) := by
  have h : RecoveryFits (storeAfter C I es).db.turns :=
    exec_invariant' (I := fun w : Writer Db => RecoveryFits w.db.turns) (storeStep_recoveryFits (C := C) (I := I)) recoveryFits_empty
  exact ⟨h, fun scopes threads => uncertainTurns_of_fits h⟩

end LarkCodexBridge.Runtime

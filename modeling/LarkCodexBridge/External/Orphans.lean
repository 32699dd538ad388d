import LarkCodexBridge.External.WriteActor

/-!
# Orphaned write fences

A command that leaves the actor alive should leave its intent applied or rejected and the fence of the thread free. The
intent is recorded before the reads that precede the mutation, and several errors after that point are not fatal, so
what the command leaves behind depends on the answers.

* `Owns`, `Released`: the state of the tables while the intent holds the fence, and after it is settled;
* `markSent_of_owns`, `resolve_of_owns`: what the two store calls make of it, for every fate;
* `orphan_free_iff`, with the answers that `Settles` allows;
* `refused_preflight_orphans_fence`.
-/

namespace LarkCodexBridge.External

open Limits SqlTable Store

variable {db db' : ExternalDb} {e t i : String} {n : ℕ} {s : ExternalMutationState} {w : Writer ExternalDb}

/-! ## The intent and its fence -/

/-- The intent is in the state `s` and holds the fence of its thread. -/
structure Owns (db : ExternalDb) (e t i : String) (n : ℕ) (s : ExternalMutationState) : Prop where
  intent : ∃ r, db.intents.lookup (e, t, i) = some r ∧ r.val.epoch = n ∧ r.val.state = s
  fence : ∃ f ∈ db.fences.rows, f.val.heldBy e t i n = true

/-- The intent is in the state `s` and no fence names it. -/
structure Released (db : ExternalDb) (e t i : String) (s : ExternalMutationState) : Prop where
  intent : ∃ r, db.intents.lookup (e, t, i) = some r ∧ r.val.state = s
  free : ∀ f ∈ db.fences.rows, f.val.thread = (e, t) → f.val.state ≠ .active i

variable {intent : NewExternalMutationIntent} {resolution : ExternalMutationResolution}

theorem Takes.owns {epoch : ℕ} {now : ℤ} (h : Takes intent epoch now db db') :
    Owns db' intent.endpointLabel intent.threadId intent.intentId epoch .prepared where
  intent := ⟨_, Table.lookup_eq_some.2 ⟨(h.intents _).2 (.inr rfl), rfl⟩, rfl, rfl⟩
  fence := by
    obtain ⟨f, hf, ht, he, hs⟩ := h.fence
    exact ⟨f, hf, heldBy_iff.2 ⟨ht, he, hs⟩⟩

theorem Owns.intentAt (h : Owns db e t i n s) : ∃ r, db.intentAt (e, t, i) n = some r ∧ r.state = s := by
  obtain ⟨r, hr, hn, hs⟩ := h.intent
  exact ⟨r.val, by simp [ExternalDb.intentAt, hr, hn, Option.filter], hs⟩

theorem Owns.held (h : Owns db e t i n s) : db.held e t i n = true :=
  List.any_eq_true.2 h.fence

theorem Owns.markSent (h : Owns db e t i n .prepared) (hn : epochI64 n = .ok n) (now : ℤ) :
    ∃ db', markExternalMutationSent now e t i n db = .ok (.applied, db') ∧ Owns db' e t i n .sent := by
  obtain ⟨r, hr, hrn, hs⟩ := h.intent
  obtain ⟨hrm, hrk⟩ := Table.lookup_eq_some.1 hr
  have hp : db.sendable e t i n r = true := by simp [ExternalDb.sendable, hrk, hrn, hs, h.held]
  have hany : db.intents.rows.any (db.sendable e t i n) = true := List.any_eq_true.2 ⟨r, hrm, hp⟩
  refine ⟨_, bind_eq_ok.2 ⟨n, hn, if_pos hany⟩, ?_, h.fence⟩
  refine ⟨_, Table.lookup_updateWhere hr, ?_⟩
  rw [Row.update_of_pos hp]
  exact ⟨hrn, rfl⟩

/-- An intent that holds its fence is settled by a resolution that its state allows, and the fence is free. -/
theorem Owns.resolve (h : Owns db e t i n s) (hn : epochI64 n = .ok n) (hs : resolution.allows s = true) (now : ℤ) :
    ∃ db', resolveExternalMutation now e t i n resolution db = .ok (.applied, db') ∧ Released db' e t i resolution.target := by
  obtain ⟨r, hr, hrn, -⟩ := h.intent
  obtain ⟨hrm, hrk⟩ := Table.lookup_eq_some.1 hr
  obtain ⟨r', hr', hs'⟩ := h.intentAt
  refine ⟨db.release now e t i n resolution, bind_eq_ok.2 ⟨n, hn, ?_⟩, ?_, ?_⟩
  · simp [hr', hs', hs, h.held]
  · refine ⟨_, Table.lookup_updateWhere hr, ?_⟩
    rw [Row.update_of_pos (by simpa using ⟨hrk, hrn⟩)]
  · intro f hf ht hact
    obtain ⟨f₀, hf₀, rfl⟩ := List.mem_map.1 hf
    obtain ⟨g, hg, hgh⟩ := h.fence
    have ht₀ : f₀.val.thread = (e, t) := by
      unfold Row.update at ht
      split at ht <;> exact ht
    have hfg : f₀ = g := Table.eq_of_key hf₀ hg (ht₀.trans (heldBy_iff.1 hgh).1.symm)
    rw [hfg, Row.update_of_pos hgh] at hact
    exact fence_not_active resolution i hact

/-! ## Calls to the store -/

/-- The job of a request runs. -/
def takesEffect : Fate → Bool
  | .reject _ _ => false
  | .execute | .executeThenFail _ => true

/-- The job runs and its value is answered. -/
def executes : Fate → Bool
  | .execute => true
  | .reject _ _ | .executeThenFail _ => false

/-- What a call makes of a store whose job succeeds: `v` with the new tables, or an error with the old or the new ones. -/
def afterAsk {α : Type} (w : Writer ExternalDb) (fate : Fate) (v : α) (db' : ExternalDb) :
    Except ExternalWriteError α × Writer ExternalDb :=
  match fate with
  | .reject _ stops => (.error .store, { w with alive := !stops })
  | .execute => (.ok v, { w with db := db' })
  | .executeThenFail _ => (.error .store, ⟨db', false⟩)

variable {q : Ask} {err : ExternalWriteError} {alive : Bool}

theorem ask_of_ok {α : Type} {check : Except StoreError Unit} {job : ℤ → Job ExternalDb α} {v : α} (hw : w.alive = true)
    (hc : check = .ok ()) (hj : job q.now w.db = .ok (v, db')) :
    ask q check job w = afterAsk w q.fate v db' := by
  unfold ask Writer.call
  rw [hc]
  unfold Writer.runSized afterAsk
  rw [if_pos hw]
  cases q.fate with
  | reject e stops => rfl
  | execute => simp [hj, Except.mapError]
  | executeThenFail e => simp [hj, Except.mapError]

theorem markSent_of_owns (hw : w.alive = true) (ho : Owns w.db e t i n .prepared) (hn : epochI64 n = .ok n)
    (hc : validatePair e t "sending an external mutation" = .ok ())
    (hi : validateId i intentIdByteLimit "sending an external mutation" = .ok ()) :
    ∃ db', Owns db' e t i n .sent ∧ markSent q e t i n w = afterAsk w q.fate () db' := by
  obtain ⟨db', hj, ho'⟩ := ho.markSent hn q.now
  refine ⟨db', ho', ?_⟩
  unfold markSent
  rw [Exec.bind_apply, ask_of_ok hw (seq_eq_ok.2 ⟨hc, hi⟩) hj]
  unfold afterAsk
  cases q.fate <;> rfl

theorem resolve_of_owns (hw : w.alive = true) (ho : Owns w.db e t i n s) (hn : epochI64 n = .ok n)
    (hs : resolution.allows s = true) (hc : resolveMutationCheck e t i resolution = .ok ()) :
    ∃ db', Released db' e t i resolution.target ∧ resolve q e t i n resolution w = afterAsk w q.fate () db' := by
  obtain ⟨db', hj, ho'⟩ := ho.resolve hn hs q.now
  refine ⟨db', ho', ?_⟩
  unfold resolve
  rw [Exec.bind_apply, ask_of_ok hw hc hj]
  unfold afterAsk
  cases q.fate <;> rfl

/-- The request to prepare the intent records it. -/
structure Records (q : Ask) (intent : NewExternalMutationIntent) (w : Writer ExternalDb) : Prop where
  alive : w.alive = true
  effect : takesEffect q.fate = true
  valid : validateIntent intent = .ok ()
  prepared : ∃ db', prepareExternalMutation q.now intent w.db = .ok (.prepared, db')

theorem acquire_of_records (h : Records q intent w) :
    ∃ db', Takes intent intent.epoch q.now w.db db' ∧ acquire q intent w = afterAsk w q.fate () db' := by
  obtain ⟨db', hj⟩ := h.prepared
  rcases prepareExternalMutation_ok hj with ⟨hne, -⟩ | ⟨-, epoch, ht⟩
  · exact absurd rfl hne
  cases epochI64_eq_ok ht.epoch_eq
  refine ⟨db', ht, ?_⟩
  unfold acquire
  rw [Exec.bind_apply, ask_of_ok h.alive h.valid hj]
  unfold afterAsk
  cases q.fate <;> rfl

theorem acquire_of_not_records (h : ¬Records q intent w) :
    ∃ err w', acquire q intent w = (.error err, w') ∧ w'.db = w.db := by
  unfold acquire
  rw [Exec.bind_apply]
  unfold ask Writer.call
  cases hv : validateIntent intent with
  | error err => exact ⟨.store, w, rfl, rfl⟩
  | ok u =>
    simp only
    rcases w.runSized_cases q.fate (prepareExternalMutation q.now intent) with
      ⟨err, herr, hdb⟩ | ⟨o, db', hj, hw, hf, hr⟩ | ⟨o, db', err, hj, hw, hf, hr⟩
    · rw [herr]
      exact ⟨.store, _, rfl, hdb⟩
    · rcases prepareExternalMutation_ok hj with ⟨hne, rfl⟩ | ⟨rfl, -⟩
      · rw [hr]
        cases o with
        | prepared => exact absurd rfl hne
        | _ => exact ⟨_, _, rfl, rfl⟩
      · exact absurd ⟨hw, by rw [hf]; rfl, hv, db', hj⟩ h
    · rcases prepareExternalMutation_ok hj with ⟨-, rfl⟩ | ⟨rfl, -⟩
      · rw [hr]
        exact ⟨.store, _, rfl, rfl⟩
      · exact absurd ⟨hw, by rw [hf]; rfl, hv, db', hj⟩ h

/-! ## Checks -/

theorem validateId_eq_ok {value context : String} {limit : ℕ} :
    validateId value limit context = .ok () ↔ 0 < value.utf8ByteSize ∧ value.utf8ByteSize ≤ limit := by
  unfold validateId
  split
  next h => exact iff_of_false nofun (by omega)
  next h => exact iff_of_true rfl (by omega)

/-- An intent that passed its check passes the checks of the calls that send and resolve it. -/
theorem validateIntent_ids (h : validateIntent intent = .ok ()) (context : String) :
    validatePair intent.endpointLabel intent.threadId context = .ok () ∧
      validateId intent.intentId intentIdByteLimit context = .ok () := by
  obtain ⟨he, h⟩ := seq_eq_ok.1 h
  obtain ⟨ht, h⟩ := seq_eq_ok.1 h
  obtain ⟨hi, -⟩ := seq_eq_ok.1 h
  exact ⟨seq_eq_ok.2 ⟨validateId_eq_ok.2 (validateId_eq_ok.1 he), validateId_eq_ok.2 (validateId_eq_ok.1 ht)⟩,
    validateId_eq_ok.2 (validateId_eq_ok.1 hi)⟩

theorem resolveMutationCheck_of_valid (h : validateIntent intent = .ok ()) (resolution : ExternalMutationResolution) :
    resolveMutationCheck intent.endpointLabel intent.threadId intent.intentId resolution =
      validateOptional resolution.resultId routingIdByteLimit "resolving an external mutation" := by
  obtain ⟨hp, hi⟩ := validateIntent_ids h "resolving an external mutation"
  unfold resolveMutationCheck
  rw [hp, hi]
  rfl

/-! ## What a command leaves behind -/

/-- The actor ends, or the intent is applied or rejected and the fence is free. -/
def Freed {α : Type} (e t i : String) (r : Except ExternalWriteError α × Writer ExternalDb) : Prop :=
  isFatalResult r.1 = true ∨ ∃ s, (s = .applied ∨ s = .rejected) ∧ Released r.2.db e t i s

/-- The actor lives on and the intent is neither applied nor rejected. -/
def Stuck {α : Type} (e t i : String) (r : Except ExternalWriteError α × Writer ExternalDb) : Prop :=
  isFatalResult r.1 = false ∧
    ∃ row, r.2.db.intents.lookup (e, t, i) = some row ∧ row.val.state ≠ .applied ∧ row.val.state ≠ .rejected

/-- The answers after the mutation settle its intent. -/
def settlesResponse (a : Answers) (verdict : MutationResponse → Except ExternalWriteError (Option String)) : Bool :=
  match a.response with
  | .error (.serverRejected _) => takesEffect a.settle.fate
  | .error _ => executes a.settle.fate
  | .ok response =>
    match verdict response with
    | .error err => err.isFatal
    | .ok none => executes a.settle.fate
    | .ok (some resultId) => 0 < resultId.utf8ByteSize && resultId.utf8ByteSize ≤ routingIdByteLimit &&
        takesEffect a.settle.fate

/-- The answers after the record of an intent settle it. -/
def settles (a : Answers) (preflight : Except ExternalWriteError Bool)
    (verdict : MutationResponse → Except ExternalWriteError (Option String)) : Bool :=
  executes a.prepare.fate &&
    match preflight with
    | .error err => err.isFatal
    | .ok false => takesEffect a.settle.fate
    | .ok true => executes a.sent.fate && settlesResponse a verdict

theorem Owns.stuck {α : Type} (h : Owns db e t i n s) (hs : s = .prepared ∨ s = .sent) (herr : err.isFatal = false) :
    Stuck e t i ((.error err, ⟨db, alive⟩) : Except ExternalWriteError α × Writer ExternalDb) := by
  obtain ⟨r, hr, -, hrs⟩ := h.intent
  refine ⟨herr, r, hr, ?_⟩
  rcases hs with rfl | rfl <;> rw [hrs] <;> exact ⟨nofun, nofun⟩

theorem Released.stuck {α : Type} (h : Released db e t i .uncertain) (herr : err.isFatal = false) :
    Stuck e t i ((.error err, ⟨db, alive⟩) : Except ExternalWriteError α × Writer ExternalDb) := by
  obtain ⟨r, hr, hrs⟩ := h.intent
  refine ⟨herr, r, hr, ?_⟩
  rw [hrs]
  exact ⟨nofun, nofun⟩

variable {α : Type} {q : Ask} {intent : NewExternalMutationIntent} {resultId : String}

theorem error_outcome (h : Owns db e t i n s) (hs : s = .prepared ∨ s = .sent) (err : ExternalWriteError) :
    bif err.isFatal then Freed e t i ((.error err, ⟨db, alive⟩) : Except ExternalWriteError α × Writer ExternalDb)
    else Stuck e t i ((.error err, ⟨db, alive⟩) : Except ExternalWriteError α × Writer ExternalDb) := by
  cases herr : err.isFatal with
  | true => exact .inl herr
  | false => exact h.stuck hs herr

/-- A live intent is rejected and the command reports a conflict. -/
theorem reject_outcome (hw : w.alive = true)
    (ho : Owns w.db intent.endpointLabel intent.threadId intent.intentId intent.epoch s) (hs : s = .prepared ∨ s = .sent)
    (hn : epochI64 intent.epoch = .ok intent.epoch) (hv : validateIntent intent = .ok ()) :
    let r := (resolve q intent.endpointLabel intent.threadId intent.intentId intent.epoch .rejected >>= fun _ =>
      (.fail .conflict : Exec α)) w
    bif takesEffect q.fate then Freed intent.endpointLabel intent.threadId intent.intentId r
    else Stuck intent.endpointLabel intent.threadId intent.intentId r := by
  have hallow : ExternalMutationResolution.rejected.allows s = true := by rcases hs with rfl | rfl <;> rfl
  obtain ⟨db', hr, heq⟩ := resolve_of_owns (q := q) hw ho hn hallow (by rw [resolveMutationCheck_of_valid hv]; rfl)
  simp only [Exec.bind_apply, heq]
  unfold afterAsk
  cases q.fate with
  | reject err stops => exact ho.stuck hs rfl
  | execute | executeThenFail err => exact .inr ⟨.rejected, .inr rfl, hr⟩

/-- A sent intent becomes uncertain and the actor ends. -/
theorem uncertain_outcome (hw : w.alive = true)
    (ho : Owns w.db intent.endpointLabel intent.threadId intent.intentId intent.epoch .sent)
    (hn : epochI64 intent.epoch = .ok intent.epoch) (hv : validateIntent intent = .ok ()) (herr : err.isFatal = true) :
    let r := (resolve q intent.endpointLabel intent.threadId intent.intentId intent.epoch .uncertain >>= fun _ =>
      (.fail err : Exec α)) w
    bif executes q.fate then Freed intent.endpointLabel intent.threadId intent.intentId r
    else Stuck intent.endpointLabel intent.threadId intent.intentId r := by
  have hallow : ExternalMutationResolution.uncertain.allows .sent = true := rfl
  obtain ⟨db', hr, heq⟩ := resolve_of_owns (q := q) hw ho hn hallow (by rw [resolveMutationCheck_of_valid hv]; rfl)
  simp only [Exec.bind_apply, heq]
  unfold afterAsk
  cases q.fate with
  | reject err' stops => exact ho.stuck (.inr rfl) rfl
  | execute => exact .inl herr
  | executeThenFail err' => exact hr.stuck rfl

/-- A sent intent is applied. -/
theorem apply_outcome (hw : w.alive = true)
    (ho : Owns w.db intent.endpointLabel intent.threadId intent.intentId intent.epoch .sent)
    (hn : epochI64 intent.epoch = .ok intent.epoch) (hv : validateIntent intent = .ok ()) :
    let r := (resolve q intent.endpointLabel intent.threadId intent.intentId intent.epoch (.applied (some resultId)) >>=
      fun _ => (pure (some resultId) : Exec (Option String))) w
    bif 0 < resultId.utf8ByteSize && resultId.utf8ByteSize ≤ routingIdByteLimit && takesEffect q.fate then
      Freed intent.endpointLabel intent.threadId intent.intentId r
    else Stuck intent.endpointLabel intent.threadId intent.intentId r := by
  by_cases hid : 0 < resultId.utf8ByteSize ∧ resultId.utf8ByteSize ≤ routingIdByteLimit
  · have hallow : (ExternalMutationResolution.applied (some resultId)).allows .sent = true := rfl
    obtain ⟨db', hr, heq⟩ := resolve_of_owns (q := q) hw ho hn hallow
      (by rw [resolveMutationCheck_of_valid hv]; exact validateId_eq_ok.2 hid)
    simp only [Exec.bind_apply, heq, hid.1, hid.2, decide_true, Bool.true_and]
    unfold afterAsk
    cases q.fate with
    | reject err stops => exact ho.stuck (.inr rfl) rfl
    | execute | executeThenFail err => exact .inr ⟨.applied, .inl rfl, hr⟩
  · have hbad : validateId resultId routingIdByteLimit "resolving an external mutation" =
        .error (.payloadTooLarge "resolving an external mutation" routingIdByteLimit) := by
      unfold validateId
      rw [if_pos (by omega)]
    have heq : resolve q intent.endpointLabel intent.threadId intent.intentId intent.epoch (.applied (some resultId)) w =
        (.error .store, w) := by
      unfold resolve
      rw [Exec.bind_apply]
      unfold ask Writer.call
      rw [resolveMutationCheck_of_valid hv]
      simp [ExternalMutationResolution.resultId, validateOptional, hbad, Except.mapError]
    have hcond : (decide (0 < resultId.utf8ByteSize) && decide (resultId.utf8ByteSize ≤ routingIdByteLimit) &&
        takesEffect q.fate) = false := by
      by_contra hc
      simp only [Bool.not_eq_false, Bool.and_eq_true, decide_eq_true_eq] at hc
      exact hid hc.1
    simp only [Exec.bind_apply, heq, hcond]
    exact ho.stuck (.inr rfl) rfl

theorem transportFailure_outcome (err : ExternalTransportError) (hw : w.alive = true)
    (ho : Owns w.db intent.endpointLabel intent.threadId intent.intentId intent.epoch .sent)
    (hn : epochI64 intent.epoch = .ok intent.epoch) (hv : validateIntent intent = .ok ()) :
    let r := (resolveTransportFailure q intent.endpointLabel intent.threadId intent.intentId intent.epoch err : Exec α) w
    bif (match err with
      | .serverRejected _ => takesEffect q.fate
      | _ => executes q.fate) then Freed intent.endpointLabel intent.threadId intent.intentId r
    else Stuck intent.endpointLabel intent.threadId intent.intentId r := by
  cases err with
  | serverRejected code => exact reject_outcome hw ho (.inr rfl) hn hv
  | _ => exact uncertain_outcome hw ho hn hv rfl

/-- From the mutation on. -/
theorem conclude_outcome {a : Answers} {verdict : MutationResponse → Except ExternalWriteError (Option String)}
    (hw : w.alive = true) (ho : Owns w.db intent.endpointLabel intent.threadId intent.intentId intent.epoch .sent)
    (hn : epochI64 intent.epoch = .ok intent.epoch) (hv : validateIntent intent = .ok ()) :
    bif settlesResponse a verdict then Freed intent.endpointLabel intent.threadId intent.intentId (conclude a intent verdict w)
    else Stuck intent.endpointLabel intent.threadId intent.intentId (conclude a intent verdict w) := by
  unfold settlesResponse conclude
  cases a.response with
  | error err =>
    cases err with
    | serverRejected code => exact transportFailure_outcome (.serverRejected code) hw ho hn hv
    | admission => exact transportFailure_outcome .admission hw ho hn hv
    | rpc => exact transportFailure_outcome .rpc hw ho hn hv
    | requestTimeout => exact transportFailure_outcome .requestTimeout hw ho hn hv
    | connectionLost => exact transportFailure_outcome .connectionLost hw ho hn hv
    | protocolViolation => exact transportFailure_outcome .protocolViolation hw ho hn hv
    | unsupportedProfile => exact transportFailure_outcome .unsupportedProfile hw ho hn hv
  | ok response =>
    simp only [Exec.bind_apply, Exec.lift_apply]
    rcases verdict response with err | (_ | resultId)
    · exact error_outcome ho (.inr rfl) err
    · exact uncertain_outcome hw ho hn hv rfl
    · exact apply_outcome hw ho hn hv

/-- **From the record of the intent on.** -/
theorem mutateFenced_outcome {a : Answers} (preflight : Except ExternalWriteError Bool)
    (verdict : MutationResponse → Except ExternalWriteError (Option String)) (h : Records a.prepare intent w) :
    bif settles a preflight verdict then
      Freed intent.endpointLabel intent.threadId intent.intentId (mutateFenced a intent preflight verdict w)
    else Stuck intent.endpointLabel intent.threadId intent.intentId (mutateFenced a intent preflight verdict w) := by
  obtain ⟨db₁, ht, hacq⟩ := acquire_of_records h
  have hn := ht.epoch_eq
  have hv := h.valid
  have heffect := h.effect
  unfold settles mutateFenced
  simp only [Exec.bind_apply, Exec.lift_apply, hacq]
  unfold afterAsk
  cases hf : a.prepare.fate with
  | reject err stops =>
    rw [hf] at heffect
    cases heffect
  | executeThenFail err => exact ht.owns.stuck (.inl rfl) rfl
  | execute =>
    simp only [executes, Bool.true_and]
    let w₁ : Writer ExternalDb := { w with db := db₁ }
    have hw : w₁.alive = true := h.alive
    rcases preflight with err | (_ | _)
    · exact error_outcome ht.owns (.inl rfl) err
    · exact reject_outcome (w := w₁) hw ht.owns (.inl rfl) hn hv
    · obtain ⟨hpair, hid⟩ := validateIntent_ids hv "sending an external mutation"
      obtain ⟨db₂, ho, hsent⟩ := markSent_of_owns (w := w₁) (q := a.sent) hw ht.owns hn hpair hid
      simp only [if_true, Exec.bind_apply]
      rw [hsent]
      unfold afterAsk
      cases a.sent.fate with
      | reject err stops => exact ht.owns.stuck (.inl rfl) rfl
      | executeThenFail err => exact ho.stuck (.inr rfl) rfl
      | execute => exact conclude_outcome (w := { w₁ with db := db₂ }) hw ho hn hv

/-- Without a record the command fails and the tables stay as they are. -/
theorem mutateFenced_of_not_records {a : Answers} {preflight : Except ExternalWriteError Bool}
    {verdict : MutationResponse → Except ExternalWriteError (Option String)} (h : ¬Records a.prepare intent w) :
    (mutateFenced a intent preflight verdict w).2.db = w.db := by
  obtain ⟨err, w', heq, hdb⟩ := acquire_of_not_records h
  unfold mutateFenced
  rw [Exec.bind_apply, heq]
  exact hdb

/-! ## Up to the fence -/

/-- The step keeps the tables, and what it returns satisfies `P`. -/
def Reads {α : Type} (x : Exec α) (P : α → Prop) : Prop :=
  ∀ w, (x w).2.db = w.db ∧ ∀ v, (x w).1 = .ok v → P v

theorem Reads.bind {α β : Type} {x : Exec α} {f : α → Exec β} {P : α → Prop} {Q : β → Prop} (hx : Reads x P)
    (hf : ∀ v, P v → Reads (f v) Q) : Reads (x >>= f) Q := by
  intro w
  rw [Exec.bind_apply]
  obtain ⟨hdb, hv⟩ := hx w
  rcases hxw : x w with ⟨_ | v, w'⟩
  · rw [hxw] at hdb
    exact ⟨hdb, nofun⟩
  · rw [hxw] at hdb hv
    obtain ⟨hdb', hv'⟩ := hf v (hv v rfl) w'
    exact ⟨hdb'.trans hdb, hv'⟩

theorem reads_lift {α : Type} (x : Except ExternalWriteError α) : Reads (.lift x) fun _ => True :=
  fun _ => ⟨rfl, fun _ _ => trivial⟩

theorem reads_fail {α : Type} {P : α → Prop} (err : ExternalWriteError) : Reads (.fail err : Exec α) P :=
  fun _ => ⟨rfl, nofun⟩

theorem reads_pure {α : Type} {P : α → Prop} {v : α} (h : P v) : Reads (pure v : Exec α) P :=
  fun _ => ⟨rfl, fun _ hv => by cases hv; exact h⟩

variable {c : Endpoint} {a : Answers} {source threadId : String}

theorem reads_requireOwner :
    Reads (c.requireOwner a source threadId resultId) fun _ => True := by
  refine Reads.bind (P := fun _ => True) (fun w => ⟨?_, fun _ _ => trivial⟩) fun owner _ => ?_
  · show (w.call _ _ _).2.db = w.db
    rcases call_db w _ a.owner.fate (externalMutationOwner c.label threadId resultId) with h | ⟨v, -, h⟩
    · exact h
    · exact (Prod.mk.inj (Except.ok.inj h)).2.symm
  · cases owner with
    | none => exact reads_fail _
    | some owner =>
      show Reads (if _ then _ else _) _
      split
      · exact reads_pure trivial
      · exact reads_fail _

theorem reads_requireOwnedActive {turnId : String} :
    Reads (c.requireOwnedActive a source threadId turnId) fun _ => True := by
  refine (reads_lift _).bind fun active _ => ?_
  split
  · exact reads_fail _
  · exact reads_requireOwner

def Plan.isFor (p : Plan) (c : Endpoint) (command : WriteCommand) : Prop :=
  p.intent.endpointLabel = c.label ∧ p.intent.threadId = command.threadId ∧ p.intent.intentId = command.intentId

theorem reads_plan (command : WriteCommand) : Reads (c.plan a command) fun p => p.isFor c command := by
  cases command with
  | start source intentId params =>
    show Reads (if _ then _ else _) _
    split
    · exact reads_fail _
    · exact (reads_lift _).bind fun _ _ => (reads_lift _).bind fun _ _ => (reads_lift _).bind fun _ _ =>
        reads_pure ⟨rfl, rfl, rfl⟩
  | steer source intentId params =>
    exact (reads_lift _).bind fun _ _ => (reads_lift _).bind fun _ _ => reads_requireOwnedActive.bind fun _ _ =>
      reads_pure ⟨rfl, rfl, rfl⟩
  | interrupt source intentId params | queueAdd source intentId expectedTurnId params =>
    exact (reads_lift _).bind fun _ _ => reads_requireOwnedActive.bind fun _ _ => reads_pure ⟨rfl, rfl, rfl⟩
  | queueStart source intentId params =>
    exact (reads_lift _).bind fun _ _ => (reads_lift _).bind fun _ _ => reads_requireOwner.bind fun _ _ =>
      reads_pure ⟨rfl, rfl, rfl⟩

/-! ## Commands -/

/-- The key of the intent that a command records. -/
def Endpoint.key (c : Endpoint) (command : WriteCommand) : String × String × String :=
  (c.label, command.threadId, command.intentId)

/-- **No orphaned fence.** -/
structure Endpoint.OrphanFree (c : Endpoint) (a : Answers) (command : WriteCommand) (w : Writer ExternalDb) : Prop where
  /-- If the actor lives on, the intent that the command recorded is terminal and no fence names it. -/
  settled : isFatalResult (c.executeCommand a command w).1 = false → w.db.intents.lookup (c.key command) = none →
    ∀ row, (c.executeCommand a command w).2.db.intents.lookup (c.key command) = some row →
      (row.val.state = .applied ∨ row.val.state = .rejected) ∧
      ∀ f ∈ (c.executeCommand a command w).2.db.fences.rows, f.val.thread = (c.label, command.threadId) →
        f.val.state ≠ .active command.intentId
  /-- In particular, a mutation that the server accepted is not left as prepared or sent. -/
  accepted : isFatalResult (c.executeCommand a command w).1 = false → w.db.intents.lookup (c.key command) = none →
    (∃ response, a.response = .ok response) →
    ∀ row, (c.executeCommand a command w).2.db.intents.lookup (c.key command) = some row → ¬row.val.live

/-- If the command gets as far as recording its intent, the answers from there on settle it. -/
def Endpoint.Settles (c : Endpoint) (a : Answers) (command : WriteCommand) (w : Writer ExternalDb) : Prop :=
  ∀ p w', c.plan a command w = (.ok p, w') → Records p.answers.prepare p.intent w' →
    settles p.answers p.preflight p.verdict = true

theorem not_live_of_terminal {r : IntentRow} (h : r.state = .applied ∨ r.state = .rejected) : ¬r.live := by
  unfold IntentRow.live
  rcases h with h | h <;> rw [h] <;> nofun

/-- A command that records nothing leaves nothing behind. -/
theorem Endpoint.OrphanFree.of_db_eq {command : WriteCommand} (h : (c.executeCommand a command w).2.db = w.db) :
    c.OrphanFree a command w where
  settled := by
    intro _ hnone row hrow
    rw [h, hnone] at hrow
    cases hrow
  accepted := by
    intro _ hnone _ row hrow
    rw [h, hnone] at hrow
    cases hrow

/-- **A command leaves no orphaned fence exactly when the answers after the record of its intent settle it.** -/
theorem orphan_free_iff (c : Endpoint) (a : Answers) (command : WriteCommand) (w : Writer ExternalDb) :
    c.OrphanFree a command w ↔ c.Settles a command w := by
  obtain ⟨hdb, hfor⟩ := reads_plan (c := c) (a := a) command w
  rcases hplan : c.plan a command w with ⟨err | p, w'⟩
  · rw [hplan] at hdb
    refine iff_of_true (.of_db_eq ?_) fun p w'' hp => ?_
    · rw [Endpoint.executeCommand, Exec.bind_apply, hplan]
      exact hdb
    · rw [hplan] at hp
      cases hp
  rw [hplan] at hdb hfor
  obtain ⟨hlabel, hthread, hid⟩ := hfor p rfl
  have hrun : c.executeCommand a command w = p.run w' := by
    rw [Endpoint.executeCommand, Exec.bind_apply, hplan]
  by_cases hrec : Records p.answers.prepare p.intent w'
  · have hout := mutateFenced_outcome p.preflight p.verdict hrec
    have hsettles : c.Settles a command w ↔ settles p.answers p.preflight p.verdict = true := by
      refine ⟨fun h => h p w' hplan hrec, fun h q w'' hq _ => ?_⟩
      rw [hplan] at hq
      cases hq
      exact h
    rw [hsettles]
    cases hs : settles p.answers p.preflight p.verdict with
    | true =>
      rw [hs, hlabel, hthread, hid] at hout
      refine iff_of_true ?_ rfl
      rcases hout with hfatal | ⟨s, hs, hreleased⟩
      · have hf : isFatalResult (c.executeCommand a command w).1 = true := by rw [hrun]; exact hfatal
        exact ⟨fun h => absurd hf (by rw [h]; nofun), fun h => absurd hf (by rw [h]; nofun)⟩
      · have hterminal : ∀ row, (c.executeCommand a command w).2.db.intents.lookup (c.key command) = some row →
            row.val.state = .applied ∨ row.val.state = .rejected := by
          intro row hrow
          obtain ⟨r, hr, hrs⟩ := hreleased.intent
          rw [hrun] at hrow
          cases hrow.symm.trans hr
          rw [hrs]
          exact hs
        exact ⟨fun _ _ row hrow => ⟨hterminal row hrow, by rw [hrun]; exact hreleased.free⟩,
          fun _ _ _ row hrow => not_live_of_terminal (hterminal row hrow)⟩
    | false =>
      rw [hs, hlabel, hthread, hid] at hout
      refine iff_of_false (fun h => ?_) nofun
      obtain ⟨hnf, row, hrow, hna, hnr⟩ := hout
      obtain ⟨db₁, ht, -⟩ := acquire_of_records hrec
      have habs : w.db.intents.lookup (c.key command) = none := by
        have := ht.absent
        rw [hdb] at this
        rw [Endpoint.key, ← hlabel, ← hthread, ← hid]
        exact this
      have hnf' : isFatalResult (c.executeCommand a command w).1 = false := by rw [hrun]; exact hnf
      obtain ⟨hterm, -⟩ := h.settled hnf' habs row (by rw [hrun]; exact hrow)
      rcases hterm with hterm | hterm
      · exact hna hterm
      · exact hnr hterm
  · refine iff_of_true (.of_db_eq ?_) fun q w'' hq hr => ?_
    · rw [hrun]
      exact (mutateFenced_of_not_records hrec).trans hdb
    · rw [hplan] at hq
      cases hq
      exact absurd hr hrec

/-! ## A run -/

def readyStore : Writer ExternalDb :=
  StepSystem.exec externalStep emptyExternal
    ([ ExternalOp.reserveExternalEpoch "e" .bridgeRestart, .registerExternalThread "e" "t",
      .beginExternalReconciliation "e" "t" 1, .applyTerminals "e" "t" 1 [] true,
      .setExternalEndpointState "e" 1 .ready ].map (.call .execute 0))

def sampleEndpoint : Endpoint := ⟨"e", 1, .queueShared, ⟨"client", "approver", "reviewer", "recipient"⟩⟩

def startCommand : WriteCommand := .start "source" "intent" ⟨"t", some "message", some "reviewer", some 10⟩

/-- Answers in which the store works and the queue cannot be listed. -/
def refusedAnswers : Answers where
  owner := ⟨.execute, 0⟩
  prepare := ⟨.execute, 0⟩
  sent := ⟨.execute, 0⟩
  settle := ⟨.execute, 0⟩
  thread := .ok ⟨"t", "idle"⟩
  turns := .ok []
  queue := .error (.serverRejected (-32001))
  response := .ok ⟨"turn", .inProgress, "message"⟩
  pages := [.ok [some "message"]]

/-- The server refuses to list the queue: the command fails, the actor lives on and the thread stays fenced by an intent
that nothing will settle. -/
theorem refused_preflight_orphans_fence : ¬sampleEndpoint.OrphanFree refusedAnswers startCommand readyStore := by
  intro h
  have hfatal : isFatalResult (sampleEndpoint.executeCommand refusedAnswers startCommand readyStore).1 = false := by
    decide
  have hnone : readyStore.db.intents.lookup (sampleEndpoint.key startCommand) = none := by decide
  have hrow : ((sampleEndpoint.executeCommand refusedAnswers startCommand readyStore).2.db.intents.lookup
      (sampleEndpoint.key startCommand)).map (·.val.state) = some .prepared := by decide
  obtain ⟨row, hr, hs⟩ := Option.map_eq_some_iff.1 hrow
  obtain ⟨hterm, -⟩ := h.settled hfatal hnone row hr
  rw [hs] at hterm
  rcases hterm with hterm | hterm <;> cases hterm

end LarkCodexBridge.External

import LarkCodexBridge.External.WriteStore

/-!
# One writer for each external thread

Runs of the operations on the external tables, in any order and with any arguments, and the invariant that ties the
intents to the fences: an intent that is prepared or sent holds the fence of its thread, and an active fence is held by
such an intent.

* `Held.rewrite`: what a rewriting of both tables must keep, once for all operations;
* `step_held`: every operation keeps the invariant, except an approval that becomes uncertain while the fence of its
  thread is held, which clears the fence and leaves the intent;
* `one_writer_per_thread`, `uncertain_approval_strands_intent`.
-/

namespace LarkCodexBridge.External

open Limits SqlTable Store StepSystem

/-! ## Operations -/

/-- One operation with its arguments. -/
inductive ExternalOp where
  | prepareExternalMutation (intent : NewExternalMutationIntent)
  | markExternalMutationSent (endpointLabel threadId intentId : String) (epoch : ℕ)
  | resolveExternalMutation (endpointLabel threadId intentId : String) (epoch : ℕ)
      (resolution : ExternalMutationResolution)
  | receiveExternalApproval (claim : NewExternalApprovalClaim)
  | claimExternalApproval (endpointLabel threadId approvalId recipientActor : String) (epoch : ℕ)
  | resolveExternalApproval (endpointLabel threadId approvalId : String) (epoch : ℕ)
      (resolution : ExternalApprovalResolution)
  | resolveExternalApprovalRequest (endpointLabel requestKey : String) (epoch : ℕ)
  | reserveExternalEpoch (endpointLabel : String) (restartReason : ExternalUncertaintyReason)
  | markExternalUnavailable (endpointLabel : String) (epoch : ℕ) (reason : ExternalUncertaintyReason)
  | reassignExternalApprovalActor (endpointLabel : String) (epoch : ℕ) (oldActor newActor : String)
  | setExternalEndpointState (endpointLabel : String) (epoch : ℕ) (state : ExternalEndpointState)
  | registerExternalThread (endpointLabel threadId : String)
  | beginExternalReconciliation (endpointLabel threadId : String) (epoch : ℕ)
  | markExternalThreadUncertain (endpointLabel threadId : String) (epoch : ℕ) (reason : ExternalUncertaintyReason)
  | applyTerminals (endpointLabel threadId : String) (epoch : ℕ) (turns : List ExternalTurnTerminal)
      (finishReconciliation : Bool)

/-- `validate_terminals`, for the turns. -/
def validateTerminals (endpointLabel threadId : String) (turns : List ExternalTurnTerminal) : Except StoreError Unit := do
  validatePair endpointLabel threadId "recording external terminals"
  if turns.length > externalReconcileEntryCapacity then
    .error (.capacityExceeded "recording external terminal projections")
  else turns.forM fun turn => validateId turn.turnId routingIdByteLimit "recording an external turn terminal"

/-- The check before the call. -/
def ExternalOp.check (now : ℤ) : ExternalOp → Except StoreError Unit
  | .prepareExternalMutation intent => validateIntent intent
  | .markExternalMutationSent e t i _ => do
    validatePair e t "sending an external mutation"
    validateId i intentIdByteLimit "sending an external mutation"
  | .resolveExternalMutation e t i _ resolution => resolveMutationCheck e t i resolution
  | .receiveExternalApproval claim => validateApprovalClaim now claim
  | .claimExternalApproval e t a r _ => validateApprovalKey e t a r "claiming an external approval"
  | .resolveExternalApproval e t a _ _ => resolveApprovalCheck e t a
  | .resolveExternalApprovalRequest e k _ => do
    validateId e endpointLabelByteLimit "resolving an external approval request"
    validateId k requestKeyByteLimit "resolving an external approval request"
  | .reserveExternalEpoch e _ => validateId e endpointLabelByteLimit "reserving an external epoch"
  | .markExternalUnavailable e _ _ => validateId e endpointLabelByteLimit "marking an external endpoint unavailable"
  | .reassignExternalApprovalActor e _ o n => reassignCheck e o n
  | .setExternalEndpointState e _ _ => validateId e endpointLabelByteLimit "setting external endpoint state"
  | .registerExternalThread e t => validatePair e t "registering an external thread"
  | .beginExternalReconciliation e t _ => validatePair e t "beginning external reconciliation"
  | .markExternalThreadUncertain e t _ _ => validatePair e t "marking an external thread uncertain"
  | .applyTerminals e t _ turns _ => validateTerminals e t turns

/-- The job of an operation, without its answer. -/
def ExternalOp.run (now : ℤ) : ExternalOp → Job ExternalDb Unit
  | .prepareExternalMutation intent => Job.answer (External.prepareExternalMutation now intent) fun _ => ()
  | .markExternalMutationSent e t i epoch => Job.answer (External.markExternalMutationSent now e t i epoch) fun _ => ()
  | .resolveExternalMutation e t i epoch resolution =>
    Job.answer (External.resolveExternalMutation now e t i epoch resolution) fun _ => ()
  | .receiveExternalApproval claim => Job.answer (External.receiveExternalApproval now claim) fun _ => ()
  | .claimExternalApproval e t a r epoch => Job.answer (External.claimExternalApproval now e t a r epoch) fun _ => ()
  | .resolveExternalApproval e t a epoch resolution =>
    Job.answer (External.resolveExternalApproval now e t a epoch resolution) fun _ => ()
  | .resolveExternalApprovalRequest e k epoch =>
    Job.answer (External.resolveExternalApprovalRequest now e k epoch) fun _ => ()
  | .reserveExternalEpoch e reason => Job.answer (External.reserveExternalEpoch now e reason) fun _ => ()
  | .markExternalUnavailable e epoch reason => Job.answer (External.markExternalUnavailable now e epoch reason) fun _ => ()
  | .reassignExternalApprovalActor e epoch o n =>
    Job.answer (External.reassignExternalApprovalActor now e epoch o n) fun _ => ()
  | .setExternalEndpointState e epoch state => Job.answer (External.setExternalEndpointState now e epoch state) fun _ => ()
  | .registerExternalThread e t => Job.answer (External.registerExternalThread now e t) fun _ => ()
  | .beginExternalReconciliation e t epoch => Job.answer (External.beginExternalReconciliation now e t epoch) fun _ => ()
  | .markExternalThreadUncertain e t epoch reason =>
    Job.answer (External.markExternalThreadUncertain now e t epoch reason) fun _ => ()
  | .applyTerminals e t epoch turns finish => Job.answer (External.applyTerminals now e t epoch turns finish) fun _ => ()

/-- What happens to the store. -/
inductive ExternalEvent where
  /-- A call, the fate of its request and the clock its job reads. -/
  | call (fate : Fate) (now : ℤ) (op : ExternalOp)
  /-- The process ends and the database is opened again. -/
  | restart

/-- One event. -/
def externalStep (w : Writer ExternalDb) : ExternalEvent → Writer ExternalDb
  | .call fate now op => (w.call (op.check now) fate (op.run now)).2
  | .restart => { w with alive := true }

/-- The store over empty tables. -/
def emptyExternal : Writer ExternalDb := ⟨.empty, true⟩

/-- The tables after a run. -/
def externalAfter (es : List ExternalEvent) : ExternalDb := (exec externalStep emptyExternal es).db

/-! ## Fences and their intents -/

/-- The intent is prepared or sent. -/
def IntentRow.live (r : IntentRow) : Prop := r.state.live = true

/-- The fence is active for the intent, in the intent's epoch. -/
structure Holds (f : FenceRow) (r : IntentRow) : Prop where
  thread : f.thread = r.thread
  epoch : f.epoch = r.epoch
  state : f.state = .active r.intentId

/-- **Single writer.** -/
structure SingleWriter (db : ExternalDb) : Prop where
  /-- A thread has at most one intent that is prepared or sent. -/
  atMostOne : ∀ r ∈ db.intents.rows, ∀ s ∈ db.intents.rows, r.val.live → s.val.live → r.val.thread = s.val.thread → r = s
  /-- Such an intent is the active one of an active fence with its epoch. -/
  fenced : ∀ r ∈ db.intents.rows, r.val.live → ∃ f ∈ db.fences.rows, Holds f.val r.val
  /-- An active fence names exactly one such intent. -/
  named : ∀ f ∈ db.fences.rows, ∀ id, f.val.state = .active id →
    ∃! r, r ∈ db.intents.rows ∧ r.val.live ∧ r.val.thread = f.val.thread ∧ r.val.intentId = id

/-- The inductive form: live intents and active fences belong to each other. -/
structure Held (db : ExternalDb) : Prop where
  fenced : ∀ r ∈ db.intents.rows, r.val.live → ∃ f ∈ db.fences.rows, Holds f.val r.val
  named : ∀ f ∈ db.fences.rows, ∀ id, f.val.state = .active id → ∃ r ∈ db.intents.rows, r.val.live ∧ Holds f.val r.val

variable {db db' : ExternalDb}

variable {r : IntentRow} {f row : FenceRow}

theorem Holds.intentId_eq {id : String} (h : Holds f r) (hid : f.state = .active id) :
    r.intentId = id := by
  have := h.state.symm.trans hid
  exact ExternalWriteFenceState.active.inj this

theorem IntentRow.key_eq {s : IntentRow} (ht : r.thread = s.thread) (hi : r.intentId = s.intentId) : r.key = s.key := by
  obtain ⟨he, ht⟩ := Prod.mk.inj ht
  simp [IntentRow.key, he, ht, hi]

/-- The two halves of the invariant give the whole of it. -/
theorem Held.singleWriter (h : Held db) : SingleWriter db where
  atMostOne := by
    intro r hr s hs hrl hsl ht
    obtain ⟨f, hf, hfr⟩ := h.fenced r hr hrl
    obtain ⟨g, hg, hgs⟩ := h.fenced s hs hsl
    have hfg : f = g := Table.eq_of_key hf hg (hfr.thread.trans (ht.trans hgs.thread.symm))
    subst hfg
    exact Table.eq_of_key hr hs (IntentRow.key_eq ht (hfr.intentId_eq hgs.state))
  fenced := h.fenced
  named := by
    intro f hf id hid
    obtain ⟨r, hr, hrl, hfr⟩ := h.named f hf id hid
    refine ⟨r, ⟨hr, hrl, hfr.thread.symm, hfr.intentId_eq hid⟩, ?_⟩
    rintro s ⟨hs, -, hst, hsi⟩
    exact Table.eq_of_key hs hr (IntentRow.key_eq (hst.trans hfr.thread) (hsi.trans (hfr.intentId_eq hid).symm))

theorem Held.empty : Held .empty := ⟨by simp [ExternalDb.empty, Table.empty], by simp [ExternalDb.empty, Table.empty]⟩

/-- **Rewritten tables.** A rewriting keeps the invariant when it neither makes an intent live nor a fence active, and
ends a live intent exactly when it ends the fence that holds it. -/
theorem Held.rewrite {fi : Row IntentRow → IntentRow} {ff : Row FenceRow → FenceRow} (h : Held db)
    (hi : Table.Maps fi db.intents db'.intents) (hf : Table.Maps ff db.fences db'.fences)
    (hlive : ∀ r ∈ db.intents.rows, (fi r).live → r.val.live)
    (hactive : ∀ f ∈ db.fences.rows, ∀ id, (ff f).state = .active id → f.val.state = .active id)
    (hkeep : ∀ r ∈ db.intents.rows, ∀ f ∈ db.fences.rows, Holds f.val r.val → r.val.live →
      ((fi r).live ∧ Holds (ff f) (fi r)) ∨ (¬(fi r).live ∧ ∀ id, (ff f).state ≠ .active id)) : Held db' where
  fenced := by
    intro r' hr' hl'
    obtain ⟨r, hr, rfl⟩ := hi.mem.1 hr'
    have hl := hlive r hr hl'
    obtain ⟨f, hfm, hfr⟩ := h.fenced r hr hl
    rcases hkeep r hr f hfm hfr hl with ⟨-, hk⟩ | ⟨hn, -⟩
    · exact ⟨_, hf.mem.2 ⟨f, hfm, rfl⟩, hk⟩
    · exact absurd hl' hn
  named := by
    intro f' hf' id hid
    obtain ⟨f, hfm, rfl⟩ := hf.mem.1 hf'
    obtain ⟨r, hr, hl, hfr⟩ := h.named f hfm id (hactive f hfm id hid)
    rcases hkeep r hr f hfm hfr hl with ⟨hl', hk⟩ | ⟨-, hn⟩
    · exact ⟨_, hi.mem.2 ⟨r, hr, rfl⟩, hl', hk⟩
    · exact absurd hid (hn id)

/-- Tables that no operation rewrote. -/
theorem Held.congr (h : Held db) (hi : db'.intents = db.intents) (hf : db'.fences = db.fences) : Held db' :=
  ⟨by rw [hi, hf]; exact h.fenced, by rw [hi, hf]; exact h.named⟩

/-! ## What the operations do to both tables -/

/-- The fences with a row for the thread of an intent: the old ones, and an open one where the thread had none. -/
theorem mem_insertFence {t : Table FenceRow FenceRow.thread} {f : Row FenceRow} :
    f ∈ ((t.insertOrIgnore row).getD t).rows → f ∈ t.rows ∨ f.val = row := by
  cases hi : t.insertOrIgnore row with
  | none => exact .inl
  | some t' =>
    obtain ⟨hk, rfl⟩ := Table.insertOrIgnore_eq_some hi
    intro hf
    rcases (Table.mem_insert (h := hk)).1 hf with hf | rfl
    · exact .inl hf
    · exact .inr rfl

theorem mem_of_insertFence {t : Table FenceRow FenceRow.thread} {f : Row FenceRow} (hf : f ∈ t.rows) :
    f ∈ ((t.insertOrIgnore row).getD t).rows := by
  cases hi : t.insertOrIgnore row with
  | none => exact hf
  | some t' =>
    obtain ⟨hk, rfl⟩ := Table.insertOrIgnore_eq_some hi
    exact (Table.mem_insert (h := hk)).2 (.inl hf)

/-- What a prepared mutation did: a new intent, and the open fence of its thread taken for it. -/
structure Takes (intent : NewExternalMutationIntent) (epoch : ℕ) (now : ℤ) (db db' : ExternalDb) : Prop where
  epoch_eq : epochI64 intent.epoch = .ok epoch
  absent : db.intents.lookup (intent.row epoch now).key = none
  intents : ∀ r, r ∈ db'.intents.rows ↔
    r ∈ db.intents.rows ∨ r = ⟨db.intents.nextId, db.intents.nextSerial, intent.row epoch now⟩
  fence : ∃ f ∈ db'.fences.rows, f.val.thread = intent.thread ∧ f.val.epoch = epoch ∧ f.val.state = .active intent.intentId
  kept : ∀ f ∈ db.fences.rows, f.val.state ≠ .open → f ∈ db'.fences.rows
  others : ∀ f ∈ db'.fences.rows, f.val.thread ≠ intent.thread → f.val.state ≠ .open → f ∈ db.fences.rows

/-- The fences with one for the thread of an intent. -/
def ExternalDb.withFence (db : ExternalDb) (intent : NewExternalMutationIntent) (epoch : ℕ) (now : ℤ) :
    Table FenceRow FenceRow.thread :=
  (db.fences.insertOrIgnore ⟨intent.endpointLabel, intent.threadId, epoch, .open, intent.approvalActor, now⟩).getD db.fences

variable {now : ℤ} {intent : NewExternalMutationIntent} {outcome : ExternalPrepareOutcome}

/-- A mutation is prepared under the current epoch on an open fence, or nothing changes. -/
theorem prepareExternalMutation_cases (h : prepareExternalMutation now intent db = .ok (outcome, db')) :
    (outcome ≠ .prepared ∧ db' = db) ∨ (outcome = .prepared ∧ ∃ epoch e t f intents,
      epochI64 intent.epoch = .ok epoch ∧ db.intents.lookup (intent.row epoch now).key = none ∧
      db.readiness intent.endpointLabel intent.threadId = some (e, t) ∧ e.currentEpoch = epoch ∧
      (db.withFence intent epoch now).lookup intent.thread = some f ∧ f.val.state = .open ∧
      db.intents.insertOrIgnore (intent.row epoch now) = some intents ∧
      db' = { db with
        intents := intents
        fences := (db.withFence intent epoch now).updateWhere (fun f => f.val.thread = intent.thread ∧ f.val.state = .open)
          fun f => { f with epoch := epoch, state := .active intent.intentId, updatedMs := now } }) := by
  unfold prepareExternalMutation at h
  split at h
  · cases h; exact .inl ⟨nofun, rfl⟩
  next habs =>
  split at h
  · cases h; exact .inl ⟨nofun, rfl⟩
  next e t hready =>
  obtain ⟨epoch, he, h⟩ := bind_eq_ok.1 h
  split at h
  · cases h; exact .inl ⟨nofun, rfl⟩
  next hcurrent =>
  split at h
  · cases h; exact .inl ⟨nofun, rfl⟩
  simp only at h
  split at h
  · cases h
  next f hf =>
  split at h
  · cases h; exact .inl ⟨nofun, rfl⟩
  split at h
  · cases h; exact .inl ⟨nofun, rfl⟩
  · cases h; exact .inl ⟨nofun, rfl⟩
  next hopen =>
  split at h
  · cases h
  next intents hins =>
  cases h
  exact .inr ⟨rfl, epoch, e, t, f, intents, he, habs, hready, not_not.1 fun hne => hcurrent (.inl hne), hf, hopen, hins, rfl⟩

theorem prepareExternalMutation_ok (h : prepareExternalMutation now intent db = .ok (outcome, db')) :
    (outcome ≠ .prepared ∧ db' = db) ∨ (outcome = .prepared ∧ ∃ epoch, Takes intent epoch now db db') := by
  rcases prepareExternalMutation_cases h with hsame | ⟨rfl, epoch, e, t, f, intents, he, habs, -, -, hf, hopen, hins, rfl⟩
  · exact .inl hsame
  obtain ⟨hfm, hft⟩ := Table.lookup_eq_some.1 hf
  obtain ⟨hk, rfl⟩ := Table.insertOrIgnore_eq_some hins
  refine .inr ⟨rfl, epoch, he, habs, fun r => Table.mem_insert (h := hk), ?_, ?_, ?_⟩
  · refine ⟨_, List.mem_map_of_mem hfm, ?_⟩
    rw [Row.update_of_pos (by simp [hft, hopen])]
    exact ⟨hft, rfl, rfl⟩
  · intro g hg hne
    exact List.mem_map.2 ⟨g, mem_of_insertFence hg, Row.update_of_neg (by simp [hne])⟩
  · intro g hg ht hne
    obtain ⟨g₀, hg₀, rfl⟩ := List.mem_map.1 hg
    by_cases hp : g₀.val.thread = intent.thread ∧ g₀.val.state = .open
    · rw [Row.update_of_pos (by simpa using hp)] at ht
      exact absurd hp.1 ht
    · rw [Row.update_of_neg (by simpa using hp)] at ht hne ⊢
      rcases mem_insertFence hg₀ with hg₀ | hg₀
      · exact hg₀
      · exact absurd (congrArg FenceRow.state hg₀) hne

variable {epoch : ℕ} {endpointLabel threadId intentId : String}

/-- No intent of the thread of a free fence is live. -/
theorem Takes.held (ht : Takes intent epoch now db db') (h : Held db) :
    Held db' := by
  obtain ⟨f, hf, hft, hfe, hfs⟩ := ht.fence
  have hnew : Holds f.val (intent.row epoch now) := ⟨hft, hfe, hfs⟩
  refine ⟨?_, ?_⟩
  · intro r hr hl
    rcases (ht.intents r).1 hr with hr | rfl
    · obtain ⟨g, hg, hgr⟩ := h.fenced r hr hl
      exact ⟨g, ht.kept g hg (by rw [hgr.state]; nofun), hgr⟩
    · exact ⟨f, hf, hnew⟩
  · intro g hg id hid
    by_cases hgt : g.val.thread = intent.thread
    · have hgf : g = f := Table.eq_of_key hg hf (hgt.trans hft.symm)
      exact ⟨_, (ht.intents _).2 (.inr rfl), rfl, hgf ▸ hnew⟩
    · obtain ⟨r, hr, hl, hgr⟩ := h.named g (ht.others g hg hgt (by rw [hid]; nofun)) id hid
      exact ⟨r, (ht.intents r).2 (.inl hr), hl, hgr⟩

/-- A table as a rewriting of itself. -/
theorem maps_refl {α κ : Type} {key : α → κ} (t : Table α key) : Table.Maps (·.val) t t := ⟨by simp, rfl⟩

theorem IntentRow.live_of_fence : ¬(r.fence now).live := by
  unfold IntentRow.live IntentRow.fence
  split <;> simp [ExternalMutationState.live]

theorem heldBy_iff :
    f.heldBy endpointLabel threadId intentId epoch = true ↔
      f.thread = (endpointLabel, threadId) ∧ f.epoch = epoch ∧ f.state = .active intentId := by
  simp [FenceRow.heldBy]

/-- A fence is held by the intent with a key and an epoch exactly when that is the intent it belongs to. -/
theorem Holds.heldBy_iff (h : Holds f r) :
    f.heldBy endpointLabel threadId intentId epoch = true ↔ r.key = (endpointLabel, threadId, intentId) ∧ r.epoch = epoch := by
  rw [External.heldBy_iff, h.thread, h.epoch, h.state]
  simp only [IntentRow.key, IntentRow.thread, Prod.mk.injEq, ExternalWriteFenceState.active.injEq]
  tauto

variable {e t i a : String} {n : ℕ} {o : ExternalTransitionOutcome} {reason : ExternalUncertaintyReason} {u : Unit}
  {op : ExternalOp}

theorem markExternalMutationSent_held (hd : Held db) (h : markExternalMutationSent now e t i n db = .ok (o, db')) :
    Held db' := by
  obtain ⟨epoch, -, h⟩ := bind_eq_ok.1 h
  split at h
  · cases h
    refine hd.rewrite (Table.maps_update rfl rfl) (maps_refl _) ?_ (fun _ _ _ => id) ?_
    · intro r _ hl
      split at hl
      next hp =>
        simp only [ExternalDb.sendable, decide_eq_true_eq] at hp
        simp [IntentRow.live, ExternalMutationState.live, hp.2.2.1]
      · exact hl
    · intro r _ f _ hfr hl
      refine .inl ?_
      split
      · exact ⟨rfl, hfr.thread, hfr.epoch, hfr.state⟩
      · exact ⟨hl, hfr⟩
  · split at h
    · cases h; exact hd
    · split at h
      · cases h; exact hd
      · cases h

theorem not_live_target (resolution : ExternalMutationResolution) : resolution.target.live = false := by
  cases resolution <;> rfl

theorem fence_not_active (resolution : ExternalMutationResolution) (id : String) : resolution.fence ≠ .active id := by
  cases resolution <;> nofun

theorem resolveExternalMutation_held {resolution : ExternalMutationResolution} (hd : Held db)
    (h : resolveExternalMutation now e t i n resolution db = .ok (o, db')) :
    Held db' := by
  obtain ⟨epoch, -, h⟩ := bind_eq_ok.1 h
  split at h
  · cases h; exact hd
  split at h
  · split at h
    · cases h; exact hd
    · cases h
  split at h
  · cases h
  cases h
  refine hd.rewrite (Table.maps_update rfl rfl) (Table.maps_update rfl rfl) ?_ ?_ ?_
  · intro r _ hl
    split at hl
    · exact absurd hl (by simp [IntentRow.live, not_live_target])
    · exact hl
  · intro f _ id hid
    split at hid
    · exact absurd hid (fence_not_active resolution id)
    · exact hid
  · intro r _ f _ hfr hl
    -- the intent and the fence it holds are selected together
    by_cases hp : r.val.key = (e, t, i) ∧ r.val.epoch = epoch
    · refine .inr ⟨?_, fun id => ?_⟩
      · rw [if_pos (by simpa using hp)]
        simp [IntentRow.live, not_live_target]
      · rw [if_pos (hfr.heldBy_iff.2 hp)]
        exact fence_not_active resolution id
    · refine .inl ?_
      rw [if_neg (by simpa using hp), if_neg (fun hh => hp (hfr.heldBy_iff.1 hh))]
      exact ⟨hl, hfr⟩

/-- **The bulk update of an epoch.** The intents and the fences that it selects belong to each other. -/
theorem Held.settle {p : IntentRow → Bool} {q : Row FenceRow → Bool} {g : FenceRow → FenceRow} (hd : Held db)
    (hi : Table.Maps (fun i => if p i.val && i.val.state.live then i.val.fence now else i.val) db.intents db'.intents)
    (hf : Table.Maps (fun f => if q f then g f.val else f.val) db.fences db'.fences)
    (hq : ∀ f ∈ db.fences.rows, ∀ r, Holds f.val r → q f = p r) (hend : ∀ f id, (g f).state ≠ .active id) :
    Held db' := by
  refine hd.rewrite hi hf ?_ ?_ ?_
  · intro r _ hl
    split at hl
    · exact absurd hl IntentRow.live_of_fence
    · exact hl
  · intro f _ id hid
    split at hid
    · exact absurd hid (hend f.val id)
    · exact hid
  · intro r _ f hfm hfr hl
    have hlive : r.val.state.live = true := hl
    rw [hq f hfm r.val hfr, hlive, Bool.and_true]
    cases p r.val with
    | true => exact .inr ⟨IntentRow.live_of_fence, hend f.val⟩
    | false => exact .inl ⟨hl, hfr⟩

theorem FenceRow.settle_not_active (f : FenceRow) (id : String) :
    (f.settle db epoch now).state ≠ .active id := by
  unfold FenceRow.settle
  simp only
  split <;> nofun

theorem reserveExternalEpoch_held {o : ExternalEpochReservation} (hd : Held db)
    (h : reserveExternalEpoch now e reason db = .ok (o, db')) : Held db' := by
  unfold reserveExternalEpoch at h
  simp only at h
  split at h
  · cases h
  cases h
  refine hd.settle (p := fun i => i.endpointLabel = e) (Table.maps_update rfl rfl) (Table.maps_update rfl rfl) ?_
    fun f id => f.settle_not_active id
  intro f _ r hfr
  have := (Prod.mk.inj hfr.thread).1
  simp [this]

theorem markExternalUnavailable_held {o : ExternalFenceOutcome} (hd : Held db)
    (h : markExternalUnavailable now e n reason db = .ok (o, db')) : Held db' := by
  obtain ⟨epoch, -, h⟩ := bind_eq_ok.1 h
  split at h
  · cases h; exact hd
  cases h
  refine hd.settle (p := fun i => i.endpointLabel = e ∧ i.epoch = epoch) (Table.maps_update rfl rfl) (Table.maps_update rfl rfl) ?_
    fun f id => f.settle_not_active id
  intro f _ r hfr
  have := (Prod.mk.inj hfr.thread).1
  simp [this, hfr.epoch]

theorem reassignExternalApprovalActor_held {old new : String}
    {o : Except StoreError ExternalApprovalReassignmentOutcome} (hd : Held db)
    (h : reassignExternalApprovalActor now e n old new db = .ok (o, db')) : Held db' := by
  obtain ⟨epoch, -, h⟩ := bind_eq_ok.1 h
  split at h
  · cases h; exact hd
  split at h
  · cases h; exact hd
  cases h
  refine hd.rewrite (maps_refl _) (Table.maps_update rfl rfl) (fun _ _ => id) ?_ ?_
  · intro f _ id hid
    split at hid <;> exact hid
  · intro r _ f _ hfr hl
    refine .inl ⟨hl, ?_⟩
    split
    · exact ⟨hfr.thread, hfr.epoch, hfr.state⟩
    · exact hfr

/-! ## Approvals that become uncertain -/

def ExternalWriteFenceState.isActive : ExternalWriteFenceState → Bool
  | .active _ => true
  | .open | .uncertain => false

/-- A pending approval becomes uncertain while the fence of its thread is active in its epoch. -/
def ExternalDb.strands (db : ExternalDb) : ExternalOp → Bool
  | .resolveExternalApproval e t a epoch .uncertain =>
    (db.approvalAt (e, t, a) epoch).any (·.state.pending) &&
      db.fences.rows.any fun f => f.val.thread = (e, t) ∧ f.val.epoch = epoch ∧ f.val.state.isActive
  | _ => false

theorem resolveExternalApproval_uncertain (h : resolveExternalApproval now e t a n .uncertain db = .ok (o, db')) :
    ((db.approvalAt (e, t, a) n).any (·.state.pending) = false ∧ db' = db) ∨
    ((db.approvalAt (e, t, a) n).any (·.state.pending) = true ∧ db'.intents = db.intents ∧
      Table.Maps (fun f => if f.val.thread = (e, t) ∧ f.val.epoch = n then { f.val with state := .uncertain, updatedMs := now }
        else f.val) db.fences db'.fences) := by
  obtain ⟨epoch, he, hjob⟩ := bind_eq_ok.1 h
  cases epochI64_eq_ok he
  cases hr : db.approvalAt (e, t, a) n with
  | none =>
    rw [hr] at hjob
    cases hjob
    exact .inl ⟨rfl, rfl⟩
  | some r =>
    simp only [hr, ExternalApprovalResolution.target, ExternalApprovalResolution.allows] at hjob
    split at hjob
    next hst =>
      cases hjob
      exact .inl ⟨by simp [hst, ExternalApprovalState.pending], rfl⟩
    · split at hjob
      · cases hjob
      next hallow =>
        cases hjob
        exact .inr ⟨by simpa using hallow, rfl, Table.Maps.congr (Table.maps_update rfl rfl) fun f _ => by simp⟩

theorem resolveExternalApproval_held {resolution : ExternalApprovalResolution} (hd : Held db)
    (hc : db.strands (.resolveExternalApproval e t a n resolution) = false)
    (h : resolveExternalApproval now e t a n resolution db = .ok (o, db')) : Held db' := by
  by_cases hu : resolution = .uncertain
  · subst hu
    rcases resolveExternalApproval_uncertain h with ⟨-, rfl⟩ | ⟨hp, hi, hf⟩
    · exact hd
    have hnot : ∀ f ∈ db.fences.rows, ∀ id, f.val.thread = (e, t) ∧ f.val.epoch = n → f.val.state ≠ .active id := by
      intro f hfm id hfe hs
      simp only [ExternalDb.strands, hp, Bool.true_and, List.any_eq_false] at hc
      exact hc f hfm (by simp [hfe.1, hfe.2, hs, ExternalWriteFenceState.isActive])
    refine hd.rewrite (hi ▸ maps_refl _) hf (fun _ _ => id) ?_ ?_
    · intro f _ id hid
      split at hid
      · cases hid
      · exact hid
    · intro r _ f hfm hfr hl
      refine .inl ⟨hl, ?_⟩
      rw [if_neg fun hfe => hnot f hfm _ hfe hfr.state]
      exact hfr
  · obtain ⟨epoch, -, h⟩ := bind_eq_ok.1 h
    split at h
    · cases h; exact hd
    split at h
    · cases h; exact hd
    split at h
    · cases h
    cases h
    exact hd.congr rfl rfl

/-! ## Operations that touch neither table -/

theorem receiveExternalApproval_same {claim : NewExternalApprovalClaim} {o : ExternalApprovalReceiveOutcome}
    (h : receiveExternalApproval now claim db = .ok (o, db')) : db'.intents = db.intents ∧ db'.fences = db.fences := by
  obtain ⟨epoch, -, h⟩ := bind_eq_ok.1 h
  repeat' split at h
  all_goals first
    | (cases h; exact ⟨rfl, rfl⟩)
    | cases h

theorem claimExternalApproval_same {r : String} {o : ExternalApprovalClaimOutcome}
    (h : claimExternalApproval now e t a r n db = .ok (o, db')) :
    db'.intents = db.intents ∧ db'.fences = db.fences := by
  obtain ⟨epoch, -, h⟩ := bind_eq_ok.1 h
  simp only at h
  repeat' split at h
  all_goals (cases h; exact ⟨rfl, rfl⟩)

theorem applyTerminals_same {turns : List ExternalTurnTerminal} {finish : Bool} {o : ExternalApplyOutcome}
    (h : applyTerminals now e t n turns finish db = .ok (o, db')) :
    db'.intents = db.intents ∧ db'.fences = db.fences := by
  obtain ⟨epoch, -, h⟩ := bind_eq_ok.1 h
  simp only at h
  repeat' split at h
  all_goals (cases h; exact ⟨rfl, rfl⟩)

theorem registerExternalThread_same (h : registerExternalThread now e t db = .ok (u, db')) :
    db'.intents = db.intents ∧ db'.fences = db.fences := by
  unfold registerExternalThread at h
  repeat' split at h
  all_goals first
    | (cases h; exact ⟨rfl, rfl⟩)
    | cases h

/-! ## Runs -/

/-- **One operation.** -/
theorem run_held (hd : Held db) (hc : db.strands op = false) (h : op.run now db = .ok (u, db')) : Held db' := by
  unfold ExternalOp.run at h
  cases op with
  | prepareExternalMutation intent =>
    obtain ⟨_, h, -⟩ := answer_ok h
    rcases prepareExternalMutation_ok h with ⟨-, rfl⟩ | ⟨-, epoch, ht⟩
    · exact hd
    · exact ht.held hd
  | markExternalMutationSent e t i n => obtain ⟨_, h, -⟩ := answer_ok h; exact markExternalMutationSent_held hd h
  | resolveExternalMutation e t i n r => obtain ⟨_, h, -⟩ := answer_ok h; exact resolveExternalMutation_held hd h
  | receiveExternalApproval claim =>
    obtain ⟨_, h, -⟩ := answer_ok h
    exact hd.congr (receiveExternalApproval_same h).1 (receiveExternalApproval_same h).2
  | claimExternalApproval e t a r n =>
    obtain ⟨_, h, -⟩ := answer_ok h
    exact hd.congr (claimExternalApproval_same h).1 (claimExternalApproval_same h).2
  | resolveExternalApproval e t a n r => obtain ⟨_, h, -⟩ := answer_ok h; exact resolveExternalApproval_held hd hc h
  | resolveExternalApprovalRequest e k n | setExternalEndpointState e n state | beginExternalReconciliation e t n
  | markExternalThreadUncertain e t n reason =>
    obtain ⟨_, h, -⟩ := answer_ok h
    obtain ⟨_, -, h⟩ := bind_eq_ok.1 h
    cases h
    exact hd.congr rfl rfl
  | reserveExternalEpoch e reason => obtain ⟨_, h, -⟩ := answer_ok h; exact reserveExternalEpoch_held hd h
  | markExternalUnavailable e n reason => obtain ⟨_, h, -⟩ := answer_ok h; exact markExternalUnavailable_held hd h
  | reassignExternalApprovalActor e n old new =>
    obtain ⟨_, h, -⟩ := answer_ok h
    exact reassignExternalApprovalActor_held hd h
  | registerExternalThread e t =>
    obtain ⟨_, h, -⟩ := answer_ok h
    exact hd.congr (registerExternalThread_same h).1 (registerExternalThread_same h).2
  | applyTerminals e t n turns finish =>
    obtain ⟨_, h, -⟩ := answer_ok h
    exact hd.congr (applyTerminals_same h).1 (applyTerminals_same h).2

/-- The event does not make a pending approval uncertain while the fence of its thread is active. -/
def Unstranded (w : Writer ExternalDb) : ExternalEvent → Prop
  | .call _ _ op => w.db.strands op = false
  | .restart => True

instance (w : Writer ExternalDb) (e : ExternalEvent) : Decidable (Unstranded w e) := by
  cases e <;> unfold Unstranded <;> infer_instance

/-- **One step.** -/
theorem step_held (w : Writer ExternalDb) (e : ExternalEvent) (hd : Held w.db) (hc : Unstranded w e) :
    Held (externalStep w e).db := by
  cases e with
  | restart => exact hd
  | call fate now op =>
    rcases call_db w (op.check now) fate (op.run now) with h | ⟨_, -, h⟩
    · rw [externalStep, h]; exact hd
    · exact run_held hd hc h

/-- **A thread has one writer** in every run in which no approval becomes uncertain under an active fence. -/
theorem one_writer_per_thread (es : List ExternalEvent) (h : Along externalStep Unstranded emptyExternal es) :
    SingleWriter (externalAfter es) := by
  have hd : Held (exec externalStep emptyExternal es).db :=
    exec_invariant (I := fun w => Held w.db) step_held Held.empty h
  exact hd.singleWriter

/-- Such a call leaves the thread's intent without its fence. -/
theorem strands_breaks (hd : Held db) (hs : db.strands op = true) (h : op.run now db = .ok (u, db')) :
    ¬SingleWriter db' := by
  intro hw
  unfold ExternalDb.strands at hs
  split at hs
  next e t a n =>
    unfold ExternalOp.run at h
    obtain ⟨o, h, -⟩ := answer_ok h
    obtain ⟨hp, hf⟩ := Bool.and_eq_true_iff.1 hs
    obtain ⟨f, hfm, hfe⟩ := List.any_eq_true.1 hf
    simp only [decide_eq_true_eq] at hfe
    obtain ⟨ht, hn, hact⟩ := hfe
    obtain ⟨id, hid⟩ : ∃ id, f.val.state = .active id := by
      cases hst : f.val.state with
      | active id => exact ⟨id, rfl⟩
      | «open» | uncertain => simp [hst, ExternalWriteFenceState.isActive] at hact
    obtain ⟨r, hr, hl, hfr⟩ := hd.named f hfm id hid
    rcases resolveExternalApproval_uncertain h with ⟨hn, -⟩ | ⟨-, hi, hmaps⟩
    · rw [hp] at hn; cases hn
    · obtain ⟨g, hg, hgr⟩ := hw.fenced r (hi ▸ hr) hl
      obtain ⟨g₀, hg₀, rfl⟩ := hmaps.mem.1 hg
      have hthread : g₀.val.thread = f.val.thread := by
        have := hgr.thread
        simp only at this
        split at this
        · exact this.trans hfr.thread.symm
        · exact this.trans hfr.thread.symm
      have hgf : g₀ = f := Table.eq_of_key hg₀ hfm hthread
      subst hgf
      have := hgr.state
      rw [if_pos ⟨ht, hn⟩] at this
      cases this
  · cases hs

/-- **A thread loses its single writer by such a call only.** -/
theorem single_writer_lost_iff (es : List ExternalEvent) (op : ExternalOp) (h : Along externalStep Unstranded emptyExternal es)
    (hrun : op.run now (externalAfter es) = .ok (u, db')) : ¬SingleWriter db' ↔ (externalAfter es).strands op = true := by
  have hd : Held (externalAfter es) := exec_invariant (I := fun w => Held w.db) step_held Held.empty h
  refine ⟨fun hw => of_not_not fun hs => hw ?_, fun hs => strands_breaks hd hs hrun⟩
  exact (run_held hd (Bool.eq_false_iff.2 hs) hrun).singleWriter

/-! ## A run -/

/-- A thread made ready, a turn started on it, an approval received and then a second mutation prepared. -/
def steerRun : List ExternalEvent :=
  [ ExternalOp.reserveExternalEpoch "e" .bridgeRestart,
    .registerExternalThread "e" "t",
    .beginExternalReconciliation "e" "t" 1,
    .applyTerminals "e" "t" 1 [] true,
    .setExternalEndpointState "e" 1 .ready,
    .prepareExternalMutation ⟨"e", "t", "i", 1, .turnStart, none, some "m", "s", "c", "a"⟩,
    .markExternalMutationSent "e" "t" "i" 1,
    .resolveExternalMutation "e" "t" "i" 1 (.applied (some "turn")),
    .receiveExternalApproval ⟨"e", "t", "p", "k", 1, "turn", "item", .command, "c", "a", "r", 100⟩,
    .prepareExternalMutation ⟨"e", "t", "j", 1, .turnSteer, some "turn", some "n", "s", "c", "a"⟩ ].map
    (.call .execute 0)

theorem one_writer_per_thread_steerRun :
    Along externalStep Unstranded emptyExternal steerRun ∧ SingleWriter (externalAfter steerRun) := by
  have h : Along externalStep Unstranded emptyExternal steerRun := by decide
  exact ⟨h, one_writer_per_thread _ h⟩

theorem single_writer_lost_iff_steerRun : ∃ db', ExternalOp.run 0 (.resolveExternalApproval "e" "t" "p" 1 .uncertain)
    (externalAfter steerRun) = .ok ((), db') ∧ ¬SingleWriter db' :=
  ⟨_, rfl, (single_writer_lost_iff steerRun (.resolveExternalApproval "e" "t" "p" 1 .uncertain) (by decide) rfl).2 (by decide)⟩

/-- The approval becomes uncertain: the second intent is still prepared and no fence is active. -/
theorem uncertain_approval_strands_intent :
    ¬SingleWriter (externalAfter (steerRun ++ [.call .execute 0 (.resolveExternalApproval "e" "t" "p" 1 .uncertain)])) := by
  intro h
  have hrow : ∃ r ∈ (externalAfter (steerRun ++
      [.call .execute 0 (.resolveExternalApproval "e" "t" "p" 1 .uncertain)])).intents.rows, r.val.state.live = true := by
    decide
  have hnone : ∀ f ∈ (externalAfter (steerRun ++
      [.call .execute 0 (.resolveExternalApproval "e" "t" "p" 1 .uncertain)])).fences.rows, f.val.state.isActive = false := by
    decide
  obtain ⟨r, hr, hl⟩ := hrow
  obtain ⟨f, hf, hfr⟩ := h.fenced r hr hl
  have hstate := hnone f hf
  rw [hfr.state] at hstate
  cases hstate

end LarkCodexBridge.External

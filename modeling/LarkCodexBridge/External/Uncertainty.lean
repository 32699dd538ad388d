import LarkCodexBridge.External.SingleWriter

/-!
# External uncertainty is sticky

An effect whose outcome is unknown, an uncertain intent or approval, closes its thread for good: its fence is uncertain as
long as such a row exists, and no operation makes an uncertain row anything else.

* `Sticky`: a fence is uncertain exactly when its thread has an uncertain intent or approval, and every fence is of the
  current epoch of its endpoint;
* `Grows`: no operation removes a fence or takes an uncertainty back;
* `run_sticky`, `uncertainty_is_sticky`: every operation, and every run.
-/

namespace LarkCodexBridge.External

open Limits SqlTable Store StepSystem

def ExternalDb.fenceState (db : ExternalDb) (thread : String × String) : Option ExternalWriteFenceState :=
  (db.fences.lookup thread).map (·.val.state)

def ExternalDb.threadState (db : ExternalDb) (thread : String × String) : Option ExternalThreadState :=
  (db.threads.lookup thread).map (·.val.state)

variable {db db' db'' : ExternalDb} {now : ℤ} {thread : String × String}

theorem threadUncertain_iff : db.threadUncertain thread = true ↔
    (∃ i ∈ db.intents.rows, i.val.thread = thread ∧ i.val.state = .uncertain) ∨
      ∃ a ∈ db.approvals.rows, a.val.thread = thread ∧ a.val.state = .uncertain := by
  simp [ExternalDb.threadUncertain, List.any_eq_true]

/-! ## The invariant -/

def ExternalDb.HasEpoch (db : ExternalDb) (endpointLabel : String) (epoch : ℕ) : Prop :=
  ∃ e ∈ db.endpoints.rows, e.val.endpointLabel = endpointLabel ∧ e.val.currentEpoch = epoch

/-- **Uncertain fences.** -/
structure Sticky (db : ExternalDb) : Prop where
  current : ∀ f ∈ db.fences.rows, db.HasEpoch f.val.endpointLabel f.val.epoch
  intents : ∀ i ∈ db.intents.rows, ∃ f ∈ db.fences.rows, f.val.thread = i.val.thread ∧
    (i.val.state.live = true → i.val.epoch = f.val.epoch)
  approvals : ∀ a ∈ db.approvals.rows, ∃ f ∈ db.fences.rows, f.val.thread = a.val.thread ∧
    (a.val.state.pending = true → a.val.epoch = f.val.epoch)
  uncertain : ∀ f ∈ db.fences.rows, f.val.state = .uncertain ↔ db.threadUncertain f.val.thread = true

/-- What no operation takes back. -/
structure Grows (db db' : ExternalDb) : Prop where
  fences : ∀ f ∈ db.fences.rows, ∃ f' ∈ db'.fences.rows, f'.val.thread = f.val.thread
  uncertain : ∀ thread, db.threadUncertain thread = true → db'.threadUncertain thread = true
  threads : ∀ thread, db.threadState thread = some .uncertain → db'.threadState thread = some .uncertain

theorem Grows.refl (db : ExternalDb) : Grows db db := ⟨fun f hf => ⟨f, hf, rfl⟩, fun _ h => h, fun _ h => h⟩

theorem Grows.trans (h : Grows db db') (h' : Grows db' db'') : Grows db db'' where
  fences := by
    intro f hf
    obtain ⟨g, hg, hgf⟩ := h.fences f hf
    obtain ⟨k, hk, hkg⟩ := h'.fences g hg
    exact ⟨k, hk, hkg.trans hgf⟩
  uncertain := fun thread ht => h'.uncertain thread (h.uncertain thread ht)
  threads := fun thread ht => h'.threads thread (h.threads thread ht)

theorem Sticky.empty : Sticky .empty := by
  constructor <;> simp [ExternalDb.empty, Table.empty]

/-- A thread with an uncertain effect has an uncertain fence. -/
theorem Sticky.fenceState (h : Sticky db) (ht : db.threadUncertain thread = true) : db.fenceState thread = some .uncertain := by
  have hfence : ∃ f ∈ db.fences.rows, f.val.thread = thread := by
    rcases threadUncertain_iff.1 ht with ⟨i, hi, rfl, -⟩ | ⟨a, ha, rfl, -⟩
    · obtain ⟨f, hf, hfi, -⟩ := h.intents i hi
      exact ⟨f, hf, hfi⟩
    · obtain ⟨f, hf, hfa, -⟩ := h.approvals a ha
      exact ⟨f, hf, hfa⟩
  obtain ⟨f, hf, rfl⟩ := hfence
  rw [ExternalDb.fenceState, Table.lookup_eq_some.2 ⟨hf, rfl⟩, Option.map_some, (h.uncertain f hf).2 ht]

/-- **An uncertain fence stays uncertain** from one database to a later one. -/
theorem Sticky.fence_stays (h : Sticky db) (h' : Sticky db') (hg : Grows db db')
    (hf : db.fenceState thread = some .uncertain) : db'.fenceState thread = some .uncertain := by
  obtain ⟨f, hlookup, hstate⟩ := Option.map_eq_some_iff.1 hf
  obtain ⟨hmem, rfl⟩ := Table.lookup_eq_some.1 hlookup
  exact h'.fenceState (hg.uncertain _ ((h.uncertain f hmem).1 hstate))

/-! ## Rewritten and inserted rows -/

/-- What an operation may make of an intent. -/
structure IntentRow.Steps (r r' : IntentRow) : Prop where
  thread : r'.thread = r.thread
  uncertain : r.state = .uncertain → r'.state = .uncertain
  live : r'.state.live = true → r.state.live = true ∧ r'.epoch = r.epoch

/-- What an operation may make of an approval. -/
structure ApprovalRow.Steps (r r' : ApprovalRow) : Prop where
  thread : r'.thread = r.thread
  uncertain : r.state = .uncertain → r'.state = .uncertain
  pending : r'.state.pending = true → r.state.pending = true ∧ r'.epoch = r.epoch

theorem IntentRow.Steps.refl (r : IntentRow) : r.Steps r := ⟨rfl, id, fun h => ⟨h, rfl⟩⟩

theorem ApprovalRow.Steps.refl (r : ApprovalRow) : r.Steps r := ⟨rfl, id, fun h => ⟨h, rfl⟩⟩

/-- The work of a database is a rewriting of that of another one. -/
structure Reworks (fi : Row IntentRow → IntentRow) (fa : Row ApprovalRow → ApprovalRow) (db db' : ExternalDb) : Prop where
  intents : Table.Maps fi db.intents db'.intents
  intentSteps : ∀ i ∈ db.intents.rows, i.val.Steps (fi i)
  approvals : Table.Maps fa db.approvals db'.approvals
  approvalSteps : ∀ a ∈ db.approvals.rows, a.val.Steps (fa a)

variable {fi : Row IntentRow → IntentRow} {fa : Row ApprovalRow → ApprovalRow} {ff : Row FenceRow → FenceRow}
  {f : Row FenceRow} {row : IntentRow} {endpointLabel : String}

theorem Reworks.threadUncertain (h : Reworks fi fa db db') : db'.threadUncertain thread = true ↔
    (∃ i ∈ db.intents.rows, i.val.thread = thread ∧ (fi i).state = .uncertain) ∨
      ∃ a ∈ db.approvals.rows, a.val.thread = thread ∧ (fa a).state = .uncertain := by
  rw [threadUncertain_iff]
  refine or_congr ⟨?_, ?_⟩ ⟨?_, ?_⟩
  · rintro ⟨_, hm, ht, hu⟩
    obtain ⟨i, hi, rfl⟩ := h.intents.mem.1 hm
    exact ⟨i, hi, (h.intentSteps i hi).thread.symm.trans ht, hu⟩
  · rintro ⟨i, hi, ht, hu⟩
    exact ⟨_, h.intents.mem.2 ⟨i, hi, rfl⟩, (h.intentSteps i hi).thread.trans ht, hu⟩
  · rintro ⟨_, hm, ht, hu⟩
    obtain ⟨a, ha, rfl⟩ := h.approvals.mem.1 hm
    exact ⟨a, ha, (h.approvalSteps a ha).thread.symm.trans ht, hu⟩
  · rintro ⟨a, ha, ht, hu⟩
    exact ⟨_, h.approvals.mem.2 ⟨a, ha, rfl⟩, (h.approvalSteps a ha).thread.trans ht, hu⟩

theorem Reworks.uncertain (h : Reworks fi fa db db') (ht : db.threadUncertain thread = true) :
    db'.threadUncertain thread = true := by
  rw [h.threadUncertain]
  exact (threadUncertain_iff.1 ht).imp (fun ⟨i, hi, hit, hu⟩ => ⟨i, hi, hit, (h.intentSteps i hi).uncertain hu⟩)
    fun ⟨a, ha, hat, hu⟩ => ⟨a, ha, hat, (h.approvalSteps a ha).uncertain hu⟩

theorem Reworks.threadUncertain_congr (h : Reworks fi fa db db')
    (hi : ∀ i ∈ db.intents.rows, i.val.thread = thread → (fi i).state = .uncertain → i.val.state = .uncertain)
    (ha : ∀ a ∈ db.approvals.rows, a.val.thread = thread → (fa a).state = .uncertain → a.val.state = .uncertain) :
    db'.threadUncertain thread = true ↔ db.threadUncertain thread = true := by
  refine ⟨fun ht => ?_, h.uncertain⟩
  exact threadUncertain_iff.2 ((h.threadUncertain.1 ht).imp (fun ⟨i, hm, hit, hu⟩ => ⟨i, hm, hit, hi i hm hit hu⟩)
    fun ⟨a, hm, hat, hu⟩ => ⟨a, hm, hat, ha a hm hat hu⟩)

/-- **Rewritten tables.** A fence keeps its epoch, or its thread has no open work any more. -/
theorem Sticky.rewrite (h : Sticky db) (hwork : Reworks fi fa db db') (hf : Table.Maps ff db.fences db'.fences)
    (hthread : ∀ f ∈ db.fences.rows, (ff f).thread = f.val.thread)
    (hcurrent : ∀ f ∈ db.fences.rows, db'.HasEpoch f.val.endpointLabel (ff f).epoch)
    (hepoch : ∀ f ∈ db.fences.rows, (ff f).epoch = f.val.epoch ∨
      (∀ i ∈ db.intents.rows, i.val.thread = f.val.thread → (fi i).state.live = false) ∧
        ∀ a ∈ db.approvals.rows, a.val.thread = f.val.thread → (fa a).state.pending = false)
    (huncertain : ∀ f ∈ db.fences.rows, (ff f).state = .uncertain ↔ db'.threadUncertain f.val.thread = true)
    (hthreads : ∀ thread, db.threadState thread = some .uncertain → db'.threadState thread = some .uncertain) :
    Sticky db' ∧ Grows db db' := by
  refine ⟨⟨?_, ?_, ?_, ?_⟩, fun f hfm => ⟨_, hf.mem.2 ⟨f, hfm, rfl⟩, hthread f hfm⟩, fun _ => hwork.uncertain, hthreads⟩
  · intro f' hf'
    obtain ⟨f, hfm, rfl⟩ := hf.mem.1 hf'
    have := congrArg Prod.fst (hthread f hfm)
    rw [show (ff f).endpointLabel = f.val.endpointLabel from this]
    exact hcurrent f hfm
  · intro i' hi'
    obtain ⟨i, hi, rfl⟩ := hwork.intents.mem.1 hi'
    obtain ⟨f, hfm, hft, hfe⟩ := h.intents i hi
    have hstep := hwork.intentSteps i hi
    refine ⟨_, hf.mem.2 ⟨f, hfm, rfl⟩, (hthread f hfm).trans (hft.trans hstep.thread.symm), fun hlive => ?_⟩
    rcases hepoch f hfm with he | ⟨hdone, -⟩
    · exact (hstep.live hlive).2.trans ((hfe (hstep.live hlive).1).trans he.symm)
    · rw [hdone i hi hft.symm] at hlive
      cases hlive
  · intro a' ha'
    obtain ⟨a, ha, rfl⟩ := hwork.approvals.mem.1 ha'
    obtain ⟨f, hfm, hft, hfe⟩ := h.approvals a ha
    have hstep := hwork.approvalSteps a ha
    refine ⟨_, hf.mem.2 ⟨f, hfm, rfl⟩, (hthread f hfm).trans (hft.trans hstep.thread.symm), fun hpending => ?_⟩
    rcases hepoch f hfm with he | ⟨-, hdone⟩
    · exact (hstep.pending hpending).2.trans ((hfe (hstep.pending hpending).1).trans he.symm)
    · rw [hdone a ha hft.symm] at hpending
      cases hpending
  · intro f' hf'
    obtain ⟨f, hfm, rfl⟩ := hf.mem.1 hf'
    rw [hthread f hfm]
    exact huncertain f hfm

theorem Reworks.same (hi : db'.intents = db.intents) (ha : db'.approvals = db.approvals) :
    Reworks (·.val) (·.val) db db' :=
  ⟨hi ▸ maps_refl _, fun i _ => .refl i.val, ha ▸ maps_refl _, fun a _ => .refl a.val⟩

/-- A rewriting that makes nothing uncertain and keeps the epochs. -/
theorem Sticky.rewrite_plain (h : Sticky db) (hwork : Reworks fi fa db db') (hf : Table.Maps ff db.fences db'.fences)
    (hsame : ∀ f ∈ db.fences.rows, (ff f).thread = f.val.thread ∧ (ff f).epoch = f.val.epoch ∧
      ((ff f).state = .uncertain ↔ f.val.state = .uncertain))
    (hcurrent : ∀ endpointLabel epoch, db.HasEpoch endpointLabel epoch → db'.HasEpoch endpointLabel epoch)
    (hi : ∀ i ∈ db.intents.rows, (fi i).state = .uncertain → i.val.state = .uncertain)
    (ha : ∀ a ∈ db.approvals.rows, (fa a).state = .uncertain → a.val.state = .uncertain)
    (hthreads : ∀ thread, db.threadState thread = some .uncertain → db'.threadState thread = some .uncertain) :
    Sticky db' ∧ Grows db db' := by
  refine h.rewrite hwork hf (fun f hfm => (hsame f hfm).1) (fun f hfm => ?_) (fun f hfm => .inl (hsame f hfm).2.1)
    (fun f hfm => ?_) hthreads
  · rw [(hsame f hfm).2.1]
    exact hcurrent _ _ (h.current f hfm)
  · exact (hsame f hfm).2.2.trans ((h.uncertain f hfm).trans
      (hwork.threadUncertain_congr (fun i hm _ => hi i hm) fun a hm _ => ha a hm).symm)

/-- Neither the work nor the fences change. -/
theorem Sticky.congr (h : Sticky db) (hi : db'.intents = db.intents) (ha : db'.approvals = db.approvals)
    (hf : db'.fences = db.fences)
    (hcurrent : ∀ endpointLabel epoch, db.HasEpoch endpointLabel epoch → db'.HasEpoch endpointLabel epoch)
    (hthreads : ∀ thread, db.threadState thread = some .uncertain → db'.threadState thread = some .uncertain) :
    Sticky db' ∧ Grows db db' :=
  h.rewrite_plain (Reworks.same hi ha) (hf ▸ maps_refl _) (fun _ _ => ⟨rfl, rfl, Iff.rfl⟩) hcurrent (fun _ _ => id)
    (fun _ _ => id) hthreads

/-- The fence of a thread under the current epoch. -/
theorem Sticky.epoch_eq (h : Sticky db) (hf : f ∈ db.fences.rows) {e : Row EndpointRow} (he : e ∈ db.endpoints.rows)
    (hlabel : e.val.endpointLabel = f.val.endpointLabel) : f.val.epoch = e.val.currentEpoch := by
  obtain ⟨e', he', hlabel', hepoch⟩ := h.current f hf
  rw [← hepoch, Table.eq_of_key he he' (hlabel.trans hlabel'.symm)]

theorem Sticky.insertFence (h : Sticky db) {row : FenceRow} (hopen : row.state = .open)
    (hcurrent : db.HasEpoch row.endpointLabel row.epoch) :
    Sticky { db with fences := (db.fences.insertOrIgnore row).getD db.fences } := by
  cases hins : db.fences.insertOrIgnore row with
  | none => exact h
  | some fences =>
    obtain ⟨hk, rfl⟩ := Table.insertOrIgnore_eq_some hins
    refine ⟨?_, ?_, ?_, ?_⟩
    · intro f hf
      rcases (Table.mem_insert (h := hk)).1 hf with hf | rfl
      · exact h.current f hf
      · exact hcurrent
    · intro i hi
      obtain ⟨f, hf, hfi⟩ := h.intents i hi
      exact ⟨f, (Table.mem_insert (h := hk)).2 (.inl hf), hfi⟩
    · intro a ha
      obtain ⟨f, hf, hfa⟩ := h.approvals a ha
      exact ⟨f, (Table.mem_insert (h := hk)).2 (.inl hf), hfa⟩
    · intro f hf
      rcases (Table.mem_insert (h := hk)).1 hf with hf | rfl
      · exact h.uncertain f hf
      · -- a thread with uncertain work has a fence already
        refine iff_of_false (by rw [hopen]; nofun) fun ht => ?_
        have hstate : db.fenceState row.thread = some .uncertain := h.fenceState ht
        obtain ⟨g, hlookup, -⟩ := Option.map_eq_some_iff.1 hstate
        obtain ⟨hg, hgt⟩ := Table.lookup_eq_some.1 hlookup
        exact hk g hg hgt

theorem Grows.insertFence (row : FenceRow) :
    Grows db { db with fences := (db.fences.insertOrIgnore row).getD db.fences } :=
  ⟨fun f hf => ⟨f, mem_of_insertFence hf, rfl⟩, fun _ h => h, fun _ h => h⟩

/-- A new intent under the fence of its thread. -/
theorem Sticky.insertIntent (h : Sticky db) {hk} (hf : f ∈ db.fences.rows) (hthread : f.val.thread = row.thread)
    (hepoch : row.epoch = f.val.epoch) (hnew : row.state ≠ .uncertain) :
    Sticky { db with intents := db.intents.insert row hk } := by
  refine ⟨h.current, fun i hi => ?_, h.approvals, fun g hg => (h.uncertain g hg).trans ?_⟩
  · rcases (Table.mem_insert (h := hk)).1 hi with hi | rfl
    · exact h.intents i hi
    · exact ⟨f, hf, hthread, fun _ => hepoch⟩
  · rw [threadUncertain_iff, threadUncertain_iff]
    refine or_congr_left ⟨fun ⟨i, hi, hu⟩ => ⟨i, (Table.mem_insert (h := hk)).2 (.inl hi), hu⟩, fun ⟨i, hi, ht, hu⟩ => ?_⟩
    rcases (Table.mem_insert (h := hk)).1 hi with hi | rfl
    · exact ⟨i, hi, ht, hu⟩
    · exact absurd hu hnew

theorem Grows.insertIntent {hk} : Grows db { db with intents := db.intents.insert row hk } := by
  refine ⟨fun f hf => ⟨f, hf, rfl⟩, fun thread ht => ?_, fun _ h => h⟩
  exact threadUncertain_iff.2 ((threadUncertain_iff.1 ht).imp_left fun ⟨i, hi, hu⟩ => ⟨i, (Table.mem_insert (h := hk)).2 (.inl hi), hu⟩)

/-- A new approval under the fence of its thread. -/
theorem Sticky.insertApproval (h : Sticky db) {row : ApprovalRow} {hk} (hf : f ∈ db.fences.rows)
    (hthread : f.val.thread = row.thread) (hepoch : row.epoch = f.val.epoch) (hnew : row.state ≠ .uncertain) :
    Sticky { db with approvals := db.approvals.insert row hk } := by
  refine ⟨h.current, h.intents, fun a ha => ?_, fun g hg => (h.uncertain g hg).trans ?_⟩
  · rcases (Table.mem_insert (h := hk)).1 ha with ha | rfl
    · exact h.approvals a ha
    · exact ⟨f, hf, hthread, fun _ => hepoch⟩
  · rw [threadUncertain_iff, threadUncertain_iff]
    refine or_congr_right ⟨fun ⟨a, ha, hu⟩ => ⟨a, (Table.mem_insert (h := hk)).2 (.inl ha), hu⟩, fun ⟨a, ha, ht, hu⟩ => ?_⟩
    rcases (Table.mem_insert (h := hk)).1 ha with ha | rfl
    · exact ⟨a, ha, ht, hu⟩
    · exact absurd hu hnew

theorem Grows.insertApproval {row : ApprovalRow} {hk} : Grows db { db with approvals := db.approvals.insert row hk } := by
  refine ⟨fun f hf => ⟨f, hf, rfl⟩, fun thread ht => ?_, fun _ h => h⟩
  exact threadUncertain_iff.2 ((threadUncertain_iff.1 ht).imp_right fun ⟨a, ha, hu⟩ => ⟨a, (Table.mem_insert (h := hk)).2 (.inl ha), hu⟩)

/-! ## Operations on the work -/

theorem hasEpoch_of_eq (he : db'.endpoints = db.endpoints) : ∀ endpointLabel epoch,
    db.HasEpoch endpointLabel epoch → db'.HasEpoch endpointLabel epoch := by
  rintro l n ⟨e, hm, h⟩
  exact ⟨e, he ▸ hm, h⟩

theorem threadState_of_eq (ht : db'.threads = db.threads) :
    ∀ thread, db.threadState thread = some .uncertain → db'.threadState thread = some .uncertain := by
  intro thread h
  rwa [ExternalDb.threadState, ht]

theorem readiness_endpoint {threadId : String} {e : EndpointRow} {t : ManagedThreadRow}
    (h : db.readiness endpointLabel threadId = some (e, t)) :
    ∃ er ∈ db.endpoints.rows, er.val.endpointLabel = endpointLabel ∧ er.val = e := by
  unfold ExternalDb.readiness at h
  split at h
  · next er tr her _ =>
    obtain ⟨hm, hlabel⟩ := Table.lookup_eq_some.1 her
    exact ⟨er, hm, hlabel, (Prod.mk.inj (Option.some.inj h)).1⟩
  · cases h

theorem prepareExternalMutation_sticky {intent : NewExternalMutationIntent} {o : ExternalPrepareOutcome} (h : Sticky db)
    (hjob : prepareExternalMutation now intent db = .ok (o, db')) : Sticky db' ∧ Grows db db' := by
  rcases prepareExternalMutation_cases hjob with
    ⟨-, rfl⟩ | ⟨-, epoch, e, t, f, intents, -, -, hready, hepoch, hf, hopen, hins, rfl⟩
  · exact ⟨h, .refl db'⟩
  obtain ⟨hk, rfl⟩ := Table.insertOrIgnore_eq_some hins
  -- the endpoint has the epoch of the intent
  obtain ⟨er, her, hlabel, rfl⟩ := readiness_endpoint hready
  let row : FenceRow := ⟨intent.endpointLabel, intent.threadId, epoch, .open, intent.approvalActor, now⟩
  have hfence : Sticky { db with fences := db.withFence intent epoch now } :=
    h.insertFence rfl ⟨er, her, hlabel, hepoch⟩
  obtain ⟨hfm, hft⟩ := Table.lookup_eq_some.1 hf
  have hfe : f.val.epoch = epoch :=
    (hfence.epoch_eq hfm her (hlabel.trans (congrArg Prod.fst hft).symm)).trans hepoch
  have hintent : Sticky { db with fences := db.withFence intent epoch now, intents := db.intents.insert (intent.row epoch now) hk } :=
    hfence.insertIntent hfm hft hfe.symm nofun
  have hgrows : Grows db { db with
      fences := db.withFence intent epoch now, intents := db.intents.insert (intent.row epoch now) hk } :=
    (Grows.insertFence row).trans Grows.insertIntent
  have hmaps := Table.updateWhere_maps (db.withFence intent epoch now)
    (fun f => f.val.thread = intent.thread ∧ f.val.state = .open)
    (fun f => { f with epoch := epoch, state := .active intent.intentId, updatedMs := now }) fun _ => rfl
  have hwork : Reworks (·.val) (·.val)
      { db with fences := db.withFence intent epoch now, intents := db.intents.insert (intent.row epoch now) hk }
      { db with
        intents := db.intents.insert (intent.row epoch now) hk
        fences := (db.withFence intent epoch now).updateWhere (fun f => f.val.thread = intent.thread ∧ f.val.state = .open)
          fun f => { f with epoch := epoch, state := .active intent.intentId, updatedMs := now } } := Reworks.same rfl rfl
  refine (hintent.rewrite_plain hwork hmaps (fun g hg => ?_) (hasEpoch_of_eq rfl) (fun _ _ => id) (fun _ _ => id)
    fun _ h => h).imp_right hgrows.trans
  split
  · next hp =>
    obtain ⟨hgt, hgo⟩ := of_decide_eq_true hp
    rw [Table.eq_of_key hg hfm (hgt.trans hft.symm)]
    exact ⟨rfl, hfe.symm, iff_of_false nofun (by rw [hopen]; nofun)⟩
  · exact ⟨rfl, rfl, Iff.rfl⟩

variable {e t i a : String} {n epoch : ℕ} {o : ExternalTransitionOutcome} {resolution : ExternalApprovalResolution}
  {p : IntentRow → Bool} {q : ApprovalRow → Bool} {reason : ExternalUncertaintyReason} {u : Unit}

theorem markExternalMutationSent_sticky (h : Sticky db) (hjob : markExternalMutationSent now e t i n db = .ok (o, db')) :
    Sticky db' ∧ Grows db db' := by
  obtain ⟨epoch, -, hjob⟩ := bind_eq_ok.1 hjob
  split at hjob
  · cases hjob
    have hmaps := Table.updateWhere_maps db.intents (db.sendable e t i epoch)
      (fun i => { i with state := .sent, updatedMs := now }) fun _ => rfl
    have hsent : ∀ r ∈ db.intents.rows, db.sendable e t i epoch r = true → r.val.state = .prepared := by
      intro r _ hp
      simp only [ExternalDb.sendable, decide_eq_true_eq] at hp
      exact hp.2.2.1
    have hwork : Reworks _ (·.val) db { db with intents := _ } := ⟨hmaps, fun r hr => ?_, maps_refl _, fun a _ => .refl a.val⟩
    · refine h.rewrite_plain hwork (maps_refl _) (fun _ _ => ⟨rfl, rfl, Iff.rfl⟩) (hasEpoch_of_eq rfl) (fun r hr hu => ?_)
        (fun _ _ => id) fun _ h => h
      split at hu
      · cases hu
      · exact hu
    · split
      · next hp =>
        have hprepared := hsent r hr hp
        exact ⟨rfl, fun hu => (by rw [hprepared] at hu; cases hu), fun _ => ⟨by rw [hprepared]; rfl, rfl⟩⟩
      · exact .refl r.val
  · split at hjob
    · cases hjob
      exact ⟨h, .refl _⟩
    · split at hjob
      · cases hjob
        exact ⟨h, .refl _⟩
      · cases hjob

/-- A resolution ends a live intent; an uncertain one leaves its fence uncertain. -/
theorem resolveExternalMutation_sticky {resolution : ExternalMutationResolution} (h : Sticky db)
    (hjob : resolveExternalMutation now e t i n resolution db = .ok (o, db')) :
    Sticky db' ∧ Grows db db' := by
  obtain ⟨epoch, -, hjob⟩ := bind_eq_ok.1 hjob
  split at hjob
  · cases hjob
    exact ⟨h, .refl _⟩
  next r hr =>
  split at hjob
  · split at hjob
    · cases hjob
      exact ⟨h, .refl _⟩
    · cases hjob
  next hallows =>
  split at hjob
  · cases hjob
  next hheld =>
  cases hjob
  -- the selected intent is this one, and it is not uncertain
  obtain ⟨rr, hlookup, rfl⟩ := Option.map_eq_some_iff.1 hr
  obtain ⟨hlookup, hre⟩ := Option.filter_eq_some_iff.1 hlookup
  obtain ⟨hrm, hrk⟩ := Table.lookup_eq_some.1 hlookup
  have hopen : rr.val.state.live = true := by
    rw [Bool.not_eq_true, Bool.not_eq_false'] at hallows
    cases resolution <;>
      simp only [ExternalMutationResolution.allows, decide_eq_true_eq] at hallows <;>
      simp [ExternalMutationState.live, hallows]
  have hselected : ∀ r' ∈ db.intents.rows, r'.val.key = (e, t, i) ∧ r'.val.epoch = epoch → r' = rr := fun r' hr' hp =>
    Table.eq_of_key hr' hrm (hp.1.trans hrk.symm)
  obtain ⟨g, hgm, hg⟩ := List.any_eq_true.1 (by simpa using hheld : db.held e t i epoch = true)
  obtain ⟨hgt, hge, hgs⟩ := heldBy_iff.1 hg
  have hheldIff : ∀ f ∈ db.fences.rows, f.val.heldBy e t i epoch = true ↔ f.val.thread = (e, t) := by
    refine fun f hf => ⟨fun hp => (heldBy_iff.1 hp).1, fun hft => ?_⟩
    rw [Table.eq_of_key hf hgm (hft.trans hgt.symm)]
    exact hg
  have hrt : rr.val.thread = (e, t) := by
    obtain ⟨hl, ht⟩ := Prod.mk.inj hrk
    exact Prod.ext hl (Prod.mk.inj ht).1
  have hwork : Reworks _ (·.val) db (db.release now e t i epoch resolution) :=
    ⟨Table.maps_update rfl rfl, fun r' hr' => ?_, maps_refl _, fun a _ => .refl a.val⟩
  · refine h.rewrite hwork (Table.maps_update rfl rfl) (fun f _ => ?_) (fun f hf => ?_) (fun f _ => .inl ?_)
      (fun f hf => ?_) fun _ h => h
    · split <;> rfl
    · have hcurrent := h.current f hf
      split <;> exact hcurrent
    · split <;> rfl
    · rw [hwork.threadUncertain]
      by_cases hft : f.val.thread = (e, t)
      · -- the fence of the intent
        rw [if_pos ((hheldIff f hf).2 hft)]
        have hnot : ¬db.threadUncertain f.val.thread = true := by
          rw [← h.uncertain f hf, Table.eq_of_key hf hgm (hft.trans hgt.symm), hgs]
          simp
        rw [threadUncertain_iff, not_or] at hnot
        constructor
        · intro hu
          refine .inl ⟨rr, hrm, hrt.trans hft.symm, ?_⟩
          rw [if_pos (decide_eq_true ⟨hrk, of_decide_eq_true hre⟩)]
          cases resolution with
          | uncertain => rfl
          | applied resultId => cases hu
          | rejected => cases hu
        · rintro (⟨r', hr', hrt', hu⟩ | hu)
          · split at hu
            · cases resolution with
              | uncertain => rfl
              | applied resultId => cases hu
              | rejected => cases hu
            · exact absurd ⟨r', hr', hrt', hu⟩ hnot.1
          · exact absurd hu hnot.2
      · rw [if_neg fun hp => hft ((hheldIff f hf).1 hp), h.uncertain f hf, threadUncertain_iff]
        refine or_congr_left (exists_congr fun r' => and_congr_right fun hr' => and_congr_right fun hrt' => ?_)
        rw [if_neg fun hp => hft ?_]
        have hr'' := hselected r' hr' (of_decide_eq_true hp)
        rw [← hrt', hr'', hrt]
  · split
    · next hp =>
      have hr'' := hselected r' hr' (of_decide_eq_true hp)
      refine ⟨rfl, fun hu => ?_, fun hl => ?_⟩
      · rw [hr''] at hu
        rw [hu] at hopen
        cases hopen
      · rw [not_live_target] at hl
        cases hl
    · exact .refl r'.val

theorem receiveExternalApproval_sticky {claim : NewExternalApprovalClaim} {o : ExternalApprovalReceiveOutcome} (h : Sticky db)
    (hjob : receiveExternalApproval now claim db = .ok (o, db')) : Sticky db' ∧ Grows db db' := by
  obtain ⟨epoch, -, hjob⟩ := bind_eq_ok.1 hjob
  split at hjob
  · cases hjob
    exact ⟨h, .refl _⟩
  split at hjob
  · cases hjob
    exact ⟨h, .refl _⟩
  next e t hready =>
  split at hjob
  · cases hjob
    exact ⟨h, .refl _⟩
  next hcurrent =>
  split at hjob
  · cases hjob
    exact ⟨h, .refl _⟩
  split at hjob
  · cases hjob
    exact ⟨h, .refl _⟩
  next hopen =>
  split at hjob
  · cases hjob
    exact ⟨h, .refl _⟩
  split at hjob
  · cases hjob
    exact ⟨h, .refl _⟩
  split at hjob
  · cases hjob
    exact ⟨h, .refl _⟩
  split at hjob
  · cases hjob
  next approvals hins =>
  obtain ⟨hk, rfl⟩ := Table.insertOrIgnore_eq_some hins
  cases hjob
  obtain ⟨er, her, hlabel, rfl⟩ := readiness_endpoint hready
  obtain ⟨f, hlookup, -⟩ := Option.map_eq_some_iff.1 (not_not.1 hopen)
  obtain ⟨hfm, hft⟩ := Table.lookup_eq_some.1 hlookup
  have hfe : f.val.epoch = epoch :=
    (h.epoch_eq hfm her (hlabel.trans (congrArg Prod.fst hft).symm)).trans (not_not.1 fun hne => hcurrent (.inl hne))
  exact ⟨h.insertApproval hfm hft hfe.symm (by rintro ⟨⟩), .insertApproval⟩

theorem Sticky.updateApprovals (h : Sticky db) {p : Row ApprovalRow → Bool} {g : ApprovalRow → ApprovalRow}
    {hg : ∀ a, (g a).key = a.key} (hp : ∀ a ∈ db.approvals.rows, p a = true → a.val.state ≠ .uncertain ∧ (g a.val).state ≠ .uncertain)
    (hsteps : ∀ a ∈ db.approvals.rows, p a = true → (g a.val).thread = a.val.thread ∧
      ((g a.val).state.pending = true → a.val.state.pending = true ∧ (g a.val).epoch = a.val.epoch)) :
    Sticky { db with approvals := db.approvals.updateWhere p g hg } ∧
      Grows db { db with approvals := db.approvals.updateWhere p g hg } := by
  have hwork : Reworks (·.val) _ db { db with approvals := db.approvals.updateWhere p g hg } :=
    ⟨maps_refl _, fun i _ => .refl i.val, Table.maps_update rfl rfl, fun a ha => ?_⟩
  · refine h.rewrite_plain hwork (maps_refl _) (fun _ _ => ⟨rfl, rfl, Iff.rfl⟩) (hasEpoch_of_eq rfl) (fun _ _ => id)
      (fun a ha hu => ?_) fun _ h => h
    split at hu
    · next hpa => exact absurd hu (hp a ha hpa).2
    · exact hu
  · split
    · next hpa => exact ⟨(hsteps a ha hpa).1, fun hu => absurd hu (hp a ha hpa).1, (hsteps a ha hpa).2⟩
    · exact .refl a.val

theorem claimExternalApproval_sticky {r : String} {o : ExternalApprovalClaimOutcome} (h : Sticky db)
    (hjob : claimExternalApproval now e t a r n db = .ok (o, db')) : Sticky db' ∧ Grows db db' := by
  obtain ⟨epoch, -, hjob⟩ := bind_eq_ok.1 hjob
  dsimp only at hjob
  split at hjob
  · cases hjob
    have hreceived : ∀ a' : Row ApprovalRow, decide (a'.val.key = (e, t, a) ∧ a'.val.recipientActor = r ∧ a'.val.epoch = epoch ∧
        a'.val.state = .received ∧ a'.val.deadlineMs > now) = true → a'.val.state = .received := fun a' hp =>
      (of_decide_eq_true hp).2.2.2.1
    refine h.updateApprovals (fun a' _ hp => ⟨?_, by simp⟩) fun a' _ hp => ⟨rfl, fun _ => ⟨?_, rfl⟩⟩
    · rw [hreceived a' hp]
      simp
    · rw [hreceived a' hp]
      rfl
  · split at hjob
    · cases hjob
      exact ⟨h, .refl _⟩
    · split at hjob
      · cases hjob
        exact ⟨h, .refl _⟩
      · cases hjob
        exact ⟨h, .refl _⟩

theorem not_uncertain_of_allows {s : ExternalApprovalState} (h : resolution.allows s = true) : s ≠ .uncertain := by
  rintro rfl
  cases resolution <;> simp [ExternalApprovalResolution.allows, ExternalApprovalState.pending] at h

theorem resolveExternalApprovalRequest_sticky {k : String} (h : Sticky db)
    (hjob : resolveExternalApprovalRequest now e k n db = .ok (o, db')) : Sticky db' ∧ Grows db db' := by
  obtain ⟨epoch, -, hjob⟩ := bind_eq_ok.1 hjob
  cases hjob
  refine h.updateApprovals (fun a _ hp => ⟨?_, nofun⟩) fun a _ _ => ⟨rfl, nofun⟩
  exact not_uncertain_of_allows (Bool.and_eq_true_iff.1 hp).2

theorem resolveExternalApproval_sticky (h : Sticky db)
    (hjob : resolveExternalApproval now e t a n resolution db = .ok (o, db')) :
    Sticky db' ∧ Grows db db' := by
  obtain ⟨epoch, -, hjob⟩ := bind_eq_ok.1 hjob
  split at hjob
  · cases hjob
    exact ⟨h, .refl _⟩
  next r hr =>
  split at hjob
  · cases hjob
    exact ⟨h, .refl _⟩
  split at hjob
  · cases hjob
  next hallows =>
  cases hjob
  rw [Bool.not_eq_true, Bool.not_eq_false'] at hallows
  obtain ⟨rr, hlookup, rfl⟩ := Option.map_eq_some_iff.1 hr
  obtain ⟨hlookup, hre⟩ := Option.filter_eq_some_iff.1 hlookup
  obtain ⟨hrm, hrk⟩ := Table.lookup_eq_some.1 hlookup
  have hselected : ∀ r' ∈ db.approvals.rows, r'.val.key = (e, t, a) ∧ r'.val.epoch = epoch → r' = rr := fun r' hr' hp =>
    Table.eq_of_key hr' hrm (hp.1.trans hrk.symm)
  by_cases hu : resolution = .uncertain
  · subst hu
    rw [if_pos rfl]
    have hrt : rr.val.thread = (e, t) := by
      obtain ⟨hl, ht⟩ := Prod.mk.inj hrk
      exact Prod.ext hl (Prod.mk.inj ht).1
    have hpending : rr.val.state.pending = true := hallows
    obtain ⟨g, hgm, hgt, hge⟩ := h.approvals rr hrm
    -- the fence of the thread has the epoch of the pending approval
    have hfence : ∀ f ∈ db.fences.rows, f.val.thread = (e, t) ↔ f.val.thread = (e, t) ∧ f.val.epoch = epoch := by
      refine fun f hf => ⟨fun hft => ⟨hft, ?_⟩, And.left⟩
      rw [Table.eq_of_key hf hgm (hft.trans (hrt.symm.trans hgt.symm)), ← hge hpending]
      exact of_decide_eq_true hre
    have hwork : Reworks (·.val) _ db { db with
        approvals := db.approvals.updateWhere (fun a' => a'.val.key = (e, t, a) ∧ a'.val.epoch = epoch) fun a =>
          { a with state := ExternalApprovalResolution.uncertain.target, updatedMs := now }
        fences := db.fences.updateWhere (fun f => f.val.thread = (e, t) ∧ f.val.epoch = epoch) fun f =>
          { f with state := .uncertain, updatedMs := now } } :=
      ⟨maps_refl _, fun i _ => .refl i.val, Table.maps_update rfl rfl, fun a' _ => ?_⟩
    · refine h.rewrite hwork (Table.maps_update rfl rfl) (fun f _ => ?_) (fun f hf => ?_) (fun f _ => .inl ?_)
        (fun f hf => ?_) fun _ h => h
      · split <;> rfl
      · have hcurrent := h.current f hf
        split <;> exact hcurrent
      · split <;> rfl
      · rw [hwork.threadUncertain]
        by_cases hft : f.val.thread = (e, t)
        · rw [if_pos (decide_eq_true ((hfence f hf).1 hft))]
          refine iff_of_true rfl (.inr ⟨rr, hrm, hrt.trans hft.symm, ?_⟩)
          rw [if_pos (decide_eq_true ⟨hrk, of_decide_eq_true hre⟩)]
          rfl
        · rw [if_neg fun hp => hft (of_decide_eq_true hp).1, h.uncertain f hf, threadUncertain_iff]
          refine or_congr_right (exists_congr fun r' => and_congr_right fun hr' => and_congr_right fun hrt' => ?_)
          rw [if_neg fun hp => hft ?_]
          rw [← hrt', hselected r' hr' (of_decide_eq_true hp), hrt]
    · split
      · exact ⟨rfl, fun _ => rfl, by rintro ⟨⟩⟩
      · exact .refl a'.val
  · rw [if_neg hu]
    refine h.updateApprovals (fun r' hr' hp => ?_) fun r' hr' hp => ⟨rfl, fun hpending => ⟨?_, rfl⟩⟩
    · rw [hselected r' hr' (of_decide_eq_true hp)]
      refine ⟨not_uncertain_of_allows hallows, ?_⟩
      cases resolution with
      | uncertain => exact absurd rfl hu
      | responding | resolved | denied => rintro ⟨⟩
    · rw [hselected r' hr' (of_decide_eq_true hp)]
      cases resolution with
      | responding =>
        rw [show rr.val.state = .claimed from of_decide_eq_true hallows]
        rfl
      | resolved | denied | uncertain => cases hpending

/-! ## The bulk updates of an epoch -/

theorem IntentRow.fence_steps {r : IntentRow} (hl : r.state.live = true) : r.Steps (r.fence now) := by
  refine ⟨rfl, fun hu => ?_, fun h => absurd h IntentRow.live_of_fence⟩
  rw [hu] at hl
  cases hl

/-- What the end of an epoch does to the work that `p` and `q` select. -/
theorem fenceWork_reworks (hi : db'.intents = (db.fenceWork now p q).intents)
    (ha : db'.approvals = (db.fenceWork now p q).approvals) :
    Reworks (fun i => if p i.val && i.val.state.live then i.val.fence now else i.val)
      (fun a => if q a.val && a.val.state.pending then { a.val with state := .uncertain, updatedMs := now } else a.val) db db' := by
  refine ⟨?_, fun i _ => ?_, ?_, fun a _ => ?_⟩
  · rw [hi]
    exact Table.maps_update rfl rfl
  · split
    · next hp => exact IntentRow.fence_steps (Bool.and_eq_true_iff.1 hp).2
    · exact .refl i.val
  · rw [ha]
    exact Table.updateWhere_maps _ (fun a => q a.val && a.val.state.pending)
      (fun a => { a with state := .uncertain, updatedMs := now }) fun _ => rfl
  · split
    · exact ⟨rfl, fun _ => rfl, nofun⟩
    · exact .refl a.val

/-- **The end of an epoch.** The fences that are settled take over the work that is selected with them. -/
theorem Sticky.settle (h : Sticky db) {k : Row FenceRow → Bool} {work : ExternalDb}
    (hi : db'.intents = (db.fenceWork now p q).intents) (ha : db'.approvals = (db.fenceWork now p q).approvals)
    (hwork : ∀ thread, work.threadUncertain thread = db'.threadUncertain thread)
    (hf : Table.Maps (fun f => if k f then f.val.settle work epoch now else f.val) db.fences db'.fences)
    (hcurrent : ∀ f ∈ db.fences.rows, db'.HasEpoch f.val.endpointLabel (if k f then epoch else f.val.epoch))
    (hepoch : ∀ f ∈ db.fences.rows, k f = true → f.val.epoch = epoch ∨
      (∀ i : IntentRow, i.thread = f.val.thread → p i = true) ∧ ∀ a : ApprovalRow, a.thread = f.val.thread → q a = true)
    (hselect : ∀ f ∈ db.fences.rows, k f = false →
      (∀ i : IntentRow, i.thread = f.val.thread → i.epoch = f.val.epoch → p i = false) ∧
        ∀ a : ApprovalRow, a.thread = f.val.thread → a.epoch = f.val.epoch → q a = false)
    (hthreads : ∀ thread, db.threadState thread = some .uncertain → db'.threadState thread = some .uncertain) :
    Sticky db' ∧ Grows db db' := by
  have hre := fenceWork_reworks (p := p) (q := q) hi ha
  refine h.rewrite hre hf (fun f _ => ?_) (fun f hfm => ?_) (fun f hfm => ?_) (fun f hfm => ?_) hthreads
  · split <;> rfl
  · have hcur := hcurrent f hfm
    split at hcur <;> simp_all [FenceRow.settle]
  · by_cases hk : k f = true
    · rw [if_pos hk]
      refine (hepoch f hfm hk).imp Eq.symm fun ⟨hip, haq⟩ => ⟨fun i _ hit => ?_, fun a _ hat => ?_⟩
      · rw [hip i.val hit, Bool.true_and]
        split
        · exact Bool.eq_false_iff.2 IntentRow.live_of_fence
        · next hl => exact Bool.eq_false_iff.2 hl
      · rw [haq a.val hat, Bool.true_and]
        split
        · rfl
        · next hl => exact Bool.eq_false_iff.2 hl
    · exact .inl (by rw [if_neg hk])
  · by_cases hk : k f = true
    · rw [if_pos hk, FenceRow.settle, hwork]
      cases db'.threadUncertain f.val.thread <;> simp
    · rw [if_neg hk, h.uncertain f hfm]
      obtain ⟨hp, hq⟩ := hselect f hfm (Bool.eq_false_iff.2 hk)
      refine (hre.threadUncertain_congr (fun i him hit hu => ?_) fun a ham hat hu => ?_).symm
      · -- an open intent of the thread has the epoch of its fence
        obtain ⟨g, hgm, hgt, hge⟩ := h.intents i him
        split at hu
        · next hsel =>
          obtain ⟨hpi, hl⟩ := Bool.and_eq_true_iff.1 hsel
          rw [hp i.val hit (by rw [hge hl, Table.eq_of_key hgm hfm (hgt.trans hit)])] at hpi
          cases hpi
        · exact hu
      · obtain ⟨g, hgm, hgt, hge⟩ := h.approvals a ham
        split at hu
        · next hsel =>
          obtain ⟨hqa, hl⟩ := Bool.and_eq_true_iff.1 hsel
          rw [hq a.val hat (by rw [hge hl, Table.eq_of_key hgm hfm (hgt.trans hat)])] at hqa
          cases hqa
        · exact hu

theorem threadState_rewrite {ft : Row ManagedThreadRow → ManagedThreadRow} (ht : Table.Maps ft db.threads db'.threads)
    (hkeep : ∀ r ∈ db.threads.rows, (ft r).thread = r.val.thread ∧ (r.val.state = .uncertain → (ft r).state = .uncertain)) :
    ∀ thread, db.threadState thread = some .uncertain → db'.threadState thread = some .uncertain := by
  intro thread h
  obtain ⟨r, hr, hstate⟩ := Option.map_eq_some_iff.1 h
  obtain ⟨hrm, hrt⟩ := Table.lookup_eq_some.1 hr
  obtain ⟨hthread, hu⟩ := hkeep r hrm
  exact Option.map_eq_some_iff.2 ⟨_, Table.lookup_eq_some.2 ⟨ht.mem.2 ⟨r, hrm, rfl⟩, hthread.trans hrt⟩, hu hstate⟩

theorem hasEpoch_putEndpoint (he : db'.endpoints = putEndpoint now endpointLabel epoch db.endpoints) :
    db'.HasEpoch endpointLabel epoch ∧ ∀ l n, l ≠ endpointLabel → db.HasEpoch l n → db'.HasEpoch l n := by
  unfold ExternalDb.HasEpoch
  rw [he]
  unfold putEndpoint
  split
  · next t hins =>
    obtain ⟨hk, rfl⟩ := Table.insertOrIgnore_eq_some hins
    refine ⟨⟨_, (Table.mem_insert (h := hk)).2 (.inr rfl), rfl, rfl⟩, ?_⟩
    rintro l n - ⟨e, hm, h⟩
    exact ⟨e, (Table.mem_insert (h := hk)).2 (.inl hm), h⟩
  · next hins =>
    refine ⟨?_, ?_⟩
    · obtain ⟨e, hm, hl⟩ : ∃ e ∈ db.endpoints.rows, e.val.endpointLabel = endpointLabel := by
        unfold Table.insertOrIgnore at hins
        split at hins
        · next e hlookup => exact ⟨e, Table.lookup_eq_some.1 hlookup⟩
        · cases hins
      refine ⟨_, Table.mem_updateWhere.2 ⟨e, hm, rfl⟩, ?_⟩
      rw [Row.update_of_pos (decide_eq_true hl)]
      exact ⟨hl, rfl⟩
    · rintro l n hne ⟨e, hm, hl, hn⟩
      refine ⟨e, Table.mem_updateWhere.2 ⟨e, hm, Row.update_of_neg ?_⟩, hl, hn⟩
      rw [hl]
      exact decide_eq_false hne

section

variable (h : Sticky db)
include h

theorem reserveExternalEpoch_sticky {o : ExternalEpochReservation} (hjob : reserveExternalEpoch now e reason db = .ok (o, db')) : Sticky db' ∧ Grows db db' := by
  unfold reserveExternalEpoch at hjob
  simp only at hjob
  split at hjob
  · cases hjob
  cases hjob
  generalize ((db.endpoints.lookup e).map (·.val.currentEpoch)).getD 0 + 1 = next
  refine h.settle (p := fun i => i.endpointLabel = e) (q := fun a => a.endpointLabel = e) rfl rfl (fun _ => rfl)
    (Table.maps_update rfl rfl) (fun f hf => ?_) (fun f _ hk => .inr ⟨fun i hi => ?_, fun a ha => ?_⟩)
    (fun f _ hk => ⟨fun i hi _ => ?_, fun a ha _ => ?_⟩) (threadState_rewrite (Table.maps_update rfl rfl) fun r _ => ?_)
  · have hput : ({ db with endpoints := putEndpoint now e next db.endpoints } : ExternalDb).endpoints =
        putEndpoint now e next db.endpoints := rfl
    obtain ⟨hnew, hold⟩ := hasEpoch_putEndpoint hput
    split
    · next hl =>
      rw [of_decide_eq_true hl]
      exact hnew
    · next hl => exact hold _ _ (fun heq => hl (decide_eq_true heq)) (h.current f hf)
  · exact decide_eq_true ((congrArg Prod.fst hi).trans (of_decide_eq_true hk))
  · exact decide_eq_true ((congrArg Prod.fst ha).trans (of_decide_eq_true hk))
  · exact decide_eq_false fun heq => of_decide_eq_false hk ((congrArg Prod.fst hi).symm.trans heq)
  · exact decide_eq_false fun heq => of_decide_eq_false hk ((congrArg Prod.fst ha).symm.trans heq)
  · split
    · next hp => exact ⟨rfl, fun hu => absurd hu (of_decide_eq_true hp).2⟩
    · exact ⟨rfl, id⟩

theorem markExternalUnavailable_sticky {o : ExternalFenceOutcome} (hjob : markExternalUnavailable now e n reason db = .ok (o, db')) : Sticky db' ∧ Grows db db' := by
  obtain ⟨epoch, -, hjob⟩ := bind_eq_ok.1 hjob
  split at hjob
  · cases hjob
    exact ⟨h, .refl _⟩
  cases hjob
  refine h.settle (p := fun i => i.endpointLabel = e ∧ i.epoch = epoch) (q := fun a => a.endpointLabel = e ∧ a.epoch = epoch)
    rfl rfl (fun _ => rfl) (Table.maps_update rfl rfl) (fun f hf => ?_) (fun f _ hk => .inl (of_decide_eq_true hk).2)
    (fun f _ hk => ⟨fun i hi hie => ?_, fun a ha hae => ?_⟩) (threadState_rewrite (Table.maps_update rfl rfl) fun r _ => ?_)
  · obtain ⟨er, her, hl, hn⟩ := h.current f hf
    refine ⟨_, List.mem_map_of_mem her, ?_⟩
    have hepoch : (if decide (f.val.endpointLabel = e ∧ f.val.epoch = epoch) then epoch else f.val.epoch) = f.val.epoch := by
      split
      · next hp => exact (of_decide_eq_true hp).2.symm
      · rfl
    rw [hepoch]
    unfold Row.update
    split <;> exact ⟨hl, hn⟩
  · refine decide_eq_false fun heq => of_decide_eq_false hk ?_
    exact ⟨(congrArg Prod.fst hi).symm.trans heq.1, hie.symm.trans heq.2⟩
  · refine decide_eq_false fun heq => of_decide_eq_false hk ?_
    exact ⟨(congrArg Prod.fst ha).symm.trans heq.1, hae.symm.trans heq.2⟩
  · split
    · next hp => exact ⟨rfl, fun hu => absurd hu (of_decide_eq_true hp).2.2⟩
    · exact ⟨rfl, id⟩

/-! ## Operations on endpoints, threads and actors -/

theorem reassignExternalApprovalActor_sticky {old new : String}
    {o : Except StoreError ExternalApprovalReassignmentOutcome} (hjob : reassignExternalApprovalActor now e n old new db = .ok (o, db')) : Sticky db' ∧ Grows db db' := by
  obtain ⟨epoch, -, hjob⟩ := bind_eq_ok.1 hjob
  split at hjob
  · cases hjob
    exact ⟨h, .refl _⟩
  split at hjob
  · cases hjob
    exact ⟨h, .refl _⟩
  cases hjob
  refine h.rewrite_plain (Reworks.same rfl rfl) (Table.maps_update rfl rfl) (fun f _ => ?_) (hasEpoch_of_eq rfl)
    (fun _ _ => id) (fun _ _ => id) fun _ h => h
  split <;> exact ⟨rfl, rfl, Iff.rfl⟩

theorem setExternalEndpointState_sticky {state : ExternalEndpointState} {o : ExternalFenceOutcome} (hjob : setExternalEndpointState now e n state db = .ok (o, db')) : Sticky db' ∧ Grows db db' := by
  obtain ⟨epoch, -, hjob⟩ := bind_eq_ok.1 hjob
  cases hjob
  refine h.congr rfl rfl rfl ?_ fun _ h => h
  rintro l k ⟨er, her, hl, hk⟩
  refine ⟨_, List.mem_map_of_mem her, ?_⟩
  unfold Row.update
  split <;> exact ⟨hl, hk⟩

theorem registerExternalThread_sticky (hjob : registerExternalThread now e t db = .ok (u, db')) :
    Sticky db' ∧ Grows db db' := by
  unfold registerExternalThread at hjob
  split at hjob
  · cases hjob
  split at hjob
  · cases hjob
    exact ⟨h, .refl _⟩
  next threads hins =>
  split at hjob
  · cases hjob
  cases hjob
  refine h.congr rfl rfl rfl (hasEpoch_of_eq rfl) fun thread hu => ?_
  obtain ⟨hk, rfl⟩ := Table.insertOrIgnore_eq_some hins
  obtain ⟨r, hr, hstate⟩ := Option.map_eq_some_iff.1 hu
  obtain ⟨hrm, hrt⟩ := Table.lookup_eq_some.1 hr
  exact Option.map_eq_some_iff.2 ⟨r, Table.lookup_eq_some.2 ⟨(Table.mem_insert (h := hk)).2 (.inl hrm), hrt⟩, hstate⟩

theorem beginExternalReconciliation_sticky {o : ExternalFenceOutcome} (hjob : beginExternalReconciliation now e t n db = .ok (o, db')) : Sticky db' ∧ Grows db db' := by
  obtain ⟨epoch, -, hjob⟩ := bind_eq_ok.1 hjob
  cases hjob
  refine h.congr rfl rfl rfl (hasEpoch_of_eq rfl) (threadState_rewrite (Table.maps_update rfl rfl) fun r _ => ?_)
  split
  · next hp => exact ⟨rfl, fun hu => absurd hu (of_decide_eq_true hp).2.1⟩
  · exact ⟨rfl, id⟩

theorem markExternalThreadUncertain_sticky {o : ExternalFenceOutcome} (hjob : markExternalThreadUncertain now e t n reason db = .ok (o, db')) :
    Sticky db' ∧ Grows db db' := by
  obtain ⟨epoch, -, hjob⟩ := bind_eq_ok.1 hjob
  cases hjob
  refine h.congr rfl rfl rfl (hasEpoch_of_eq rfl) (threadState_rewrite (Table.maps_update rfl rfl) fun r _ => ?_)
  split
  · exact ⟨rfl, fun _ => rfl⟩
  · exact ⟨rfl, id⟩

/-- Only a thread that is reconciling becomes ready. -/
theorem applyTerminals_sticky {turns : List ExternalTurnTerminal} {finish : Bool} {o : ExternalApplyOutcome}
    (hjob : applyTerminals now e t n turns finish db = .ok (o, db')) :
    Sticky db' ∧ Grows db db' := by
  obtain ⟨epoch, -, hjob⟩ := bind_eq_ok.1 hjob
  generalize hexpected : (if finish = true then ExternalThreadState.reconciling else .ready) = expected at hjob
  dsimp only at hjob
  split at hjob
  · cases hjob
    exact ⟨h, .refl _⟩
  next hcurrent =>
  split at hjob
  · cases hjob
    refine h.congr rfl rfl rfl (hasEpoch_of_eq rfl) (threadState_rewrite (Table.maps_update rfl rfl) fun r _ => ?_)
    split
    · exact ⟨rfl, fun _ => rfl⟩
    · exact ⟨rfl, id⟩
  cases hjob
  refine h.congr rfl rfl rfl (hasEpoch_of_eq rfl) ?_
  cases finish with
  | false => exact fun _ h => h
  | true =>
    refine threadState_rewrite (Table.maps_update rfl rfl) fun r hr => ?_
    split
    · next hp =>
      refine ⟨rfl, fun hu => ?_⟩
      simp only [Bool.not_eq_true', Bool.not_eq_false, Bool.and_eq_true, List.any_eq_true] at hcurrent
      obtain ⟨⟨r', hr', hp', hstate⟩, -⟩ := hcurrent
      have hreconciling := (of_decide_eq_true hstate).trans hexpected.symm
      rw [Table.eq_of_key hr' hr ((of_decide_eq_true hp').1.trans (of_decide_eq_true hp).1.symm), hu] at hreconciling
      cases hreconciling
    · exact ⟨rfl, id⟩

/-! ## Runs -/

/-- **One operation.** -/
theorem run_sticky {op : ExternalOp} (hjob : op.run now db = .ok (u, db')) :
    Sticky db' ∧ Grows db db' := by
  unfold ExternalOp.run at hjob
  cases op <;> obtain ⟨_, hjob, -⟩ := answer_ok hjob
  · exact prepareExternalMutation_sticky h hjob
  · exact markExternalMutationSent_sticky h hjob
  · exact resolveExternalMutation_sticky h hjob
  · exact receiveExternalApproval_sticky h hjob
  · exact claimExternalApproval_sticky h hjob
  · exact resolveExternalApproval_sticky h hjob
  · exact resolveExternalApprovalRequest_sticky h hjob
  · exact reserveExternalEpoch_sticky h hjob
  · exact markExternalUnavailable_sticky h hjob
  · exact reassignExternalApprovalActor_sticky h hjob
  · exact setExternalEndpointState_sticky h hjob
  · exact registerExternalThread_sticky h hjob
  · exact beginExternalReconciliation_sticky h hjob
  · exact markExternalThreadUncertain_sticky h hjob
  · exact applyTerminals_sticky h hjob

end

/-- **One step.** -/
theorem step_sticky (w : Writer ExternalDb) (e : ExternalEvent) (h : Sticky w.db) :
    Sticky (externalStep w e).db ∧ Grows w.db (externalStep w e).db := by
  cases e with
  | restart => exact ⟨h, .refl _⟩
  | call fate now op =>
    rcases call_db w (op.check now) fate (op.run now) with hdb | ⟨_, -, hjob⟩
    · rw [externalStep, hdb]
      exact ⟨h, .refl _⟩
    · exact run_sticky h hjob

/-- A run takes nothing back. -/
theorem exec_grows : ∀ {w : Writer ExternalDb} {es : List ExternalEvent}, Sticky w.db → Grows w.db (exec externalStep w es).db
  | w, [], _ => .refl w.db
  | w, e :: _, h => (step_sticky w e h).2.trans (exec_grows (step_sticky w e h).1)

theorem externalAfter_sticky (es : List ExternalEvent) : Sticky (externalAfter es) :=
  exec_invariant' (I := fun w => Sticky w.db) (fun w e h => (step_sticky w e h).1) Sticky.empty

/-- **External uncertainty is sticky**, in every run: a fence and a thread that are uncertain stay so, the fence of a thread
with an uncertain effect is uncertain, and no mutation is prepared for such a thread. -/
theorem uncertainty_is_sticky (es fs : List ExternalEvent) (thread : String × String) :
    ((externalAfter es).fenceState thread = some .uncertain → (externalAfter (es ++ fs)).fenceState thread = some .uncertain) ∧
    ((externalAfter es).threadState thread = some .uncertain →
      (externalAfter (es ++ fs)).threadState thread = some .uncertain) ∧
    ((externalAfter es).threadUncertain thread = true → (externalAfter es).fenceState thread = some .uncertain) ∧
    ∀ now intent db', intent.thread = thread → (externalAfter es).threadUncertain thread = true →
      prepareExternalMutation now intent (externalAfter es) ≠ .ok (.prepared, db') := by
  have h : Sticky (externalAfter es) := externalAfter_sticky es
  have hg : Grows (externalAfter es) (externalAfter (es ++ fs)) := by
    rw [externalAfter, externalAfter, exec_append]
    exact exec_grows h
  refine ⟨h.fence_stays (externalAfter_sticky (es ++ fs)) hg, hg.threads thread, h.fenceState, ?_⟩
  rintro now intent db' rfl hu hjob
  rcases prepareExternalMutation_cases hjob with ⟨hne, -⟩ | ⟨-, epoch, e, t, f, intents, -, -, -, -, hf, hopen, -, -⟩
  · exact hne rfl
  · -- the fence of the thread was there before, and it is uncertain
    obtain ⟨g, hg, hstate⟩ := Option.map_eq_some_iff.1 (h.fenceState hu)
    obtain ⟨hgm, hgt⟩ := Table.lookup_eq_some.1 hg
    obtain ⟨hfm, hft⟩ := Table.lookup_eq_some.1 hf
    rw [Table.eq_of_key hfm (mem_of_insertFence hgm) (hft.trans hgt.symm), hstate] at hopen
    cases hopen

end LarkCodexBridge.External

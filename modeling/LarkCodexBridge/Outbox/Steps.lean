import LarkCodexBridge.Outbox.Pump
import LarkCodexBridge.Store.OutboxJobs

/-!
# What one event can do

`StepTo` lists the ways in which an event changes the system, each with the guards it was taken under. A store request
is refused, carried out, or carried out and reported as failed. `step_to` shows that there are no others; the
invariants of the outbox go through this list and never look at the pump again.
-/

namespace LarkCodexBridge.Outbox

open SqlTable Store

/-- A phase in which the pump holds no copies. A claim reads the clock when it is asked for. -/
def Phase.Empty (clock : ℤ) : Phase → Prop
  | .down | .recovering | .idle | .stopped | .batch [] => True
  | .claiming now => now = clock
  | _ => False

/-- `row` is the next one to be delivered: it was just taken from the batch, or its anchor was looked up. -/
def Phase.AtHead (p : Phase) (row : Row OutboxRow) (rest : List (Row OutboxRow)) : Prop :=
  p = .batch (row :: rest) ∨ ∃ operation anchorKey, p = .lookup row operation anchorKey rest

variable (C : Codec) (config : OutboxPumpConfig)

section

variable (s : System) (e : Event)

/-- What the event `e` may make of the state `s`. -/
inductive StepTo : System → Prop where
  | same : StepTo s
  | tick {now} (hn : s.clock ≤ now) : StepTo { s with clock := now }
  /-- A job of another task, written with the rules every such job follows. -/
  | enqueued {t} (ht : ∀ {R}, EnqueueRule C R → R s.writer.db t) :
      StepTo { s with writer := { s.writer with db := t } }
  /-- Connection and shutdown flags play no part. -/
  | flags {s' s'' : System} (m : StepTo s') (hw : s''.writer = s'.writer) (hc : s''.clock = s'.clock)
      (hp : s''.phase = s'.phase) (hl : s''.log = s'.log) : StepTo s''
  /-- The table is as it was, and the writer may have stopped. -/
  | refused {s' : System} (m : StepTo s') {w} (hdb : w.db = s'.writer.db)
      (ha : w.alive = true → s'.writer.alive = true) : StepTo { s' with writer := w }
  | drop {s' : System} (m : StepTo s') {p} (hp : p.Empty s'.clock) : StepTo { s' with phase := p }
  | restart : StepTo { s with writer := { s.writer with alive := true }, phase := .recovering }
  | record {row rest w} (hp : s.phase.AtHead row rest)
      (hw : w = .failTerminal ∨ ∃ cls, w = recordFailure config s.clock row cls) : StepTo (s.record row w rest)
  | lookup {row rest operation anchorKey} (hp : s.phase = .batch (row :: rest))
      (hop : OutboxOperation.decode C row.val.payloadJson = .ok operation)
      (hs : startSend row operation = .lookup anchorKey) :
      StepTo { s with phase := .lookup row operation anchorKey rest }
  | deliver {row rest operation request} (hp : s.phase = .batch (row :: rest))
      (hop : OutboxOperation.decode C row.val.payloadJson = .ok operation)
      (hs : startSend row operation = .deliver request) : StepTo (s.call row operation request rest)
  | anchored {row rest operation anchorKey request} (hp : s.phase = .lookup row operation anchorKey rest)
      (hr : anchoredRequest (progressAnchor C row (s.writer.db.lookup anchorKey)) operation = .ok request) :
      StepTo (s.call row operation request rest)
  | returned {row rest operation request outcome} (he : e = .net outcome)
      (hp : s.phase = .sending row operation request rest) :
      StepTo ({ s with log := s.log ++ [NetEvent.returned row operation request outcome] }.record row
        (recordOutcome C config s.clock row operation request outcome) rest)
  | cut {row rest operation request} (hp : s.phase = .sending row operation request rest) :
      StepTo { s with log := s.log ++ [NetEvent.cut row operation request], phase := .batch rest }
  | unsent {row rest} (hp : s.phase = .batch (row :: rest)) :
      StepTo { s with phase := releaseTail s.clock (row :: rest) }
  | recovered {t} (hm : Table.Maps (recoverRow s.clock) s.writer.db t) :
      StepTo { s with writer := { s.writer with db := t }, phase := .idle }
  | claimed {readAt rows t} (hp : s.phase = .claiming readAt)
      (hpre : rows <+: s.writer.db.rows.filter (due readAt)) (hm : Table.Maps (claimRow s.clock rows) s.writer.db t) :
      StepTo { s with writer := { s.writer with db := t }, phase := .batch (rows.map claimed) }
  | kept {readAt row rest} (hp : s.phase = .releasing readAt row rest) :
      StepTo { s with phase := releaseTail s.clock rest }
  | released {readAt row rest t} (hp : s.phase = .releasing readAt row rest)
      (hj : releaseOutboxClaimAt s.clock row.id readAt s.writer.db = .ok ((), t)) :
      StepTo { s with writer := { s.writer with db := t }, phase := releaseTail s.clock rest }
  /-- A receipt that was refused is given up, or tried again after a pause. -/
  | postponed {row write left rest p} (hp : s.phase = .receipt row write left rest)
      (hn : p = .batch rest ∨ p = .backoff row write left rest) : StepTo { s with phase := p }
  | committed {row write left rest deferred t} (hp : s.phase = .receipt row write left rest) (ha : s.writer.alive = true)
      (hj : write.job s.clock row.id s.writer.db = .ok (deferred, t)) :
      StepTo { s with writer := { s.writer with db := t }, phase := if deferred then .idle else .batch rest }
  /-- A receipt was committed and reported as failed. -/
  | reported {row write left rest deferred t err p} (he : e = .store (.executeThenFail err))
      (hp : s.phase = .receipt row write left rest) (ha : s.writer.alive = true)
      (hj : write.job s.clock row.id s.writer.db = .ok (deferred, t))
      (hn : p = .batch rest ∨ p = .backoff row write left rest) :
      StepTo { s with writer := { db := t, alive := false }, phase := p }
  | woken {row write left n rest} (hp : s.phase = .backoff row write left rest) :
      StepTo { s with phase := .receipt row (write.reissue s.clock) n rest }
  | gaveUp {row write left rest} (hp : s.phase = .backoff row write left rest) : StepTo { s with phase := .batch rest }

end

variable {C config} {s : System} {e : Event} {row : Row OutboxRow} {rest : List (Row OutboxRow)}

theorem StepTo.processRow (hp : s.phase = .batch (row :: rest)) : StepTo C config s e (s.processRow C config row rest) := by
  unfold System.processRow
  split
  · exact .record (.inl hp) (.inl rfl)
  · next operation hop =>
    split
    · next hs => exact .deliver hp hop hs
    · next hs => exact .lookup hp hop hs
    · exact .record (.inl hp) (.inr ⟨_, rfl⟩)

theorem StepTo.pump : StepTo C config s e (s.pump C config) := by
  unfold System.pump
  split
  · split
    · exact .drop .same trivial
    · split
      · exact .drop .same rfl
      · exact .same
  · exact .drop .same trivial
  · next row rest hp =>
    split
    · exact .unsent hp
    · exact .processRow hp
  · exact .same

/-- A store request of the pump, answered in any way. -/
theorem StepTo.store (fate : Fate) : StepTo C config s (.store fate) (s.store C config fate) := by
  have refused {α : Type} {job : Job OutboxTable α} (hdb : (s.writer.runSized fate job).2.db = s.writer.db) {s' : System}
      (m : StepTo C config s (.store fate) s') (hs : s'.writer = s.writer) :
      StepTo C config s (.store fate) { s' with writer := (s.writer.runSized fate job).2 } :=
    .refused m (hs ▸ hdb) (hs ▸ Writer.alive_of_runSized)
  cases hp : s.phase with
  | recovering =>
    simp only [System.store, hp]
    rcases s.writer.runSized_cases fate (recoverSendingOutbox s.clock) with
      ⟨e, -, hdb⟩ | ⟨n, t, hj, -, -, hr⟩ | ⟨n, t, e, hj, -, -, hr⟩
    · exact refused hdb (.drop (p := .idle) .same trivial) rfl
    · rw [hr]
      exact .recovered (recoverSendingOutbox_ok hj)
    · rw [hr]
      exact .refused (.recovered (recoverSendingOutbox_ok hj)) rfl nofun
  | claiming readAt =>
    simp only [System.store, hp]
    rcases s.writer.runSized_cases fate (claimOutboxBatch s.clock readAt config.claimBatch) with
      ⟨e, he, hdb⟩ | ⟨batch, t, hj, -, -, hr⟩ | ⟨batch, t, e, hj, -, -, hr⟩
    · have m := refused hdb (.drop (p := .idle) .same trivial) rfl
      generalize s.writer.runSized fate _ = answer at he m ⊢
      obtain ⟨_, w⟩ := answer
      cases he
      exact m
    · rw [hr]
      obtain ⟨rows, hpre, rfl, hm⟩ := claimOutboxBatch_ok hj
      exact .claimed hp hpre hm
    · rw [hr]
      obtain ⟨rows, hpre, rfl, hm⟩ := claimOutboxBatch_ok hj
      exact .refused (.drop (p := .idle) (.claimed hp hpre hm) trivial) rfl nofun
  | lookup row operation anchorKey rest =>
    simp only [System.store, hp]
    have failed (cls : DeliveryClass) : StepTo C config s (.store fate) (s.record row (recordFailure config s.clock row cls) rest) :=
      .record (.inr ⟨_, _, hp⟩) (.inr ⟨_, rfl⟩)
    -- a read: whatever it answers, the table is as before
    rcases s.writer.runSized_cases fate (outboxRowByKey anchorKey) with
      ⟨e, he, hdb⟩ | ⟨found, t, hj, -, -, hr⟩ | ⟨found, t, e, hj, -, -, hr⟩
    · have m := refused hdb (failed .retryable) rfl
      generalize s.writer.runSized fate _ = answer at he m ⊢
      obtain ⟨_, w⟩ := answer
      cases he
      exact m
    · rw [hr]
      cases hj
      dsimp only
      split
      · next request hreq => exact .anchored hp hreq
      · exact failed _
    · rw [hr]
      cases hj
      exact .refused (failed .retryable) rfl nofun
  | receipt row write left rest =>
    simp only [System.store, hp]
    rcases s.writer.runSized_cases fate (write.job s.clock row.id) with
      ⟨e, he, hdb⟩ | ⟨deferred, t, hj, ha, -, hr⟩ | ⟨deferred, t, e, hj, ha, rfl, hr⟩
    · have m := refused hdb (.postponed (p := if left = 0 then .batch rest else .backoff row write left rest) hp
        (by split <;> simp)) rfl
      generalize s.writer.runSized fate _ = answer at he m ⊢
      obtain ⟨_, w⟩ := answer
      cases he
      exact m
    · rw [hr]
      exact .committed hp ha hj
    · rw [hr]
      exact .reported rfl hp ha hj (by split <;> simp)
  | releasing readAt row rest =>
    simp only [System.store, hp]
    rcases s.writer.runSized_cases fate (releaseOutboxClaimAt s.clock row.id readAt) with
      ⟨e, -, hdb⟩ | ⟨u, t, hj, -, -, hr⟩ | ⟨u, t, e, hj, -, -, hr⟩
    · exact refused hdb (.kept hp) rfl
    · rw [hr]
      exact .released hp hj
    · rw [hr]
      exact .refused (.released hp hj) rfl nofun
  | down | idle | batch _ | sending _ _ _ _ | backoff _ _ _ _ | stopped =>
    simp only [System.store, hp]
    exact .same

theorem StepTo.net (outcome : Except DeliveryError String) :
    StepTo C config s (.net outcome) (s.net C config outcome) := by
  unfold System.net
  split
  · next hp => exact .returned rfl hp
  · exact .same

theorem StepTo.crash : StepTo C config s e s.crash := by
  have down {s'} (m : StepTo C config s e s') :
      StepTo C config s e { s' with writer := { s'.writer with alive := false }, phase := .down } :=
    .refused (.drop (p := .down) m trivial) rfl nofun
  unfold System.crash
  split
  · next hp => exact .flags (down (.cut hp)) rfl rfl rfl rfl
  · exact .flags (down .same) rfl rfl rfl rfl

/-- A job of another task. -/
theorem StepTo.submit {α : Type} {job : Job OutboxTable α} (fate : Fate)
    (hjob : ∀ a t, job s.writer.db = .ok (a, t) → ∀ {R}, EnqueueRule C R → R s.writer.db t) :
    StepTo C config s e (s.submit fate job) := by
  have ht {R} (hR : EnqueueRule C R) : R s.writer.db (s.writer.runSized fate job).2.db :=
    s.writer.runSized_db fate (hR.refl _) fun a t hj => hjob a t hj hR
  exact .refused (.enqueued ht) rfl Writer.alive_of_runSized

/-- **Every event** makes one of these steps. -/
theorem step_to (s : System) (e : Event) : StepTo C config s e (step C config s e) := by
  cases e with
  | tick now =>
    simp only [step]
    split
    · next hn => exact .tick hn.1
    · exact .same
  | enqueue row fate => exact .submit fate fun _ _ hj _ hR => hR.enqueueOutbox hj
  | enqueueBatch rows fate => exact .submit fate fun _ _ hj _ hR => hR.enqueueOutboxBatch hj
  | inboundReply notice fate =>
    refine .submit fate fun _ _ hj _ hR => ?_
    obtain ⟨t, hj, he⟩ := map_eq_ok.1 hj
    cases he
    exact hR.enqueueInboundReply hj
  | sweep sweepNowMs fate =>
    simp only [step]
    split
    · exact .submit fate fun _ _ hj _ hR => hR.sweepTerminalOutbox hj
    · exact .same
  | connect | disconnect | shutdown => exact .flags .same rfl rfl rfl rfl
  | pump => exact .pump
  | store fate => exact .store fate
  | net outcome => exact .net outcome
  | wake =>
    simp only [step]
    split
    · next hp => exact .woken hp
    · exact .same
  | giveUp =>
    simp only [step]
    split
    · next hp =>
      split
      · exact .gaveUp hp
      · exact .same
    · exact .same
  | crash => exact .crash
  | restart =>
    simp only [step]
    split
    · exact .flags .restart rfl rfl rfl rfl
    · exact .same

end LarkCodexBridge.Outbox

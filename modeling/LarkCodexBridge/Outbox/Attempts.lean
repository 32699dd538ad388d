import LarkCodexBridge.Outbox.FinalCard
import LarkCodexBridge.Store.OutboxBounds

/-!
# Bounds of the outbox and of its delivery calls

`Action` is any operation of the store on the outbox, with any arguments, or any event of the pump's system. The table
keeps its bounds along every run of them (`act_bounded`).

The number of delivery calls of a row is bounded through its attempt counter. A row starts with a budget (`budget`):
its attempts, and the attempts of one more series unless it is a final card, which may still be rewritten into its
fallback. `CallBound` says that no row has been called for more often than its budget allows, with one call more while
a call or its receipt is under way. The fallback trades the attempts of the first series for the budget of a row that
is no final card.

A row that goes back to `pending` with calls that nobody counted breaks this. The order `Fifo` excludes it, so the
bound holds under the same condition.

* `CallBound.stepTo`: one step;
* `outbox_bounds`: all of it, over every run.
-/

namespace LarkCodexBridge.Outbox

open Limits SqlTable Store StepSystem

variable {C : Codec} {config : OutboxPumpConfig}

/-! ## Actions -/

/-- An operation of the store with arguments of its own, or an event of the system. -/
inductive Action where
  | operation (op : OutboxOp) (fate : Fate)
  | event (e : Event)

def act (C : Codec) (config : OutboxPumpConfig) (s : System) : Action → System
  | .operation op fate => s.submit fate (op.job C s.clock)
  | .event e => step C config s e

/-- The state after a run of actions from an empty outbox. -/
def afterActions (C : Codec) (config : OutboxPumpConfig) (clock : ℤ) (actions : List Action) : System :=
  exec (act C config) (initial clock) actions

/-- A call whose job keeps the bounds keeps them, whatever becomes of the call. -/
theorem bounded_runSized {α : Type} {w : Writer OutboxTable} {job : Job OutboxTable α} (fate : Fate)
    (h : Capped w.db) (hjob : ∀ a t, job w.db = .ok (a, t) → Capped t) : Capped (w.runSized fate job).2.db :=
  w.runSized_db fate h hjob

variable {w : ReceiptWrite} {now : ℤ} {t t' : OutboxTable} {id : ℕ} {deferred : Bool}

theorem ReceiptWrite.job_bounded (h : Capped t) (hj : w.job now id t = .ok (deferred, t')) : Capped t' := by
  cases w with
  | complete messageId =>
    obtain ⟨⟨u, t₁⟩, hj', he⟩ := map_eq_ok.1 hj
    cases he
    exact h.complete hj'
  | failUncertain attempts retryMs =>
    obtain ⟨⟨u, t₁⟩, hj', he⟩ := map_eq_ok.1 hj
    cases he
    exact h.fail hj'
  | failAndDefer attempts retryAt => exact h.failAndDefer hj
  | failTerminal =>
    obtain ⟨⟨u, t₁⟩, hj', he⟩ := map_eq_ok.1 hj
    cases he
    exact h.failTerminal hj'
  | fallback payloadJson =>
    obtain ⟨⟨u, t₁⟩, hj', he⟩ := map_eq_ok.1 hj
    cases he
    exact h.fallback hj'

variable {s : System}

/-- Only the store requests of the pump change the table. -/
theorem store_bounded (h : Capped s.writer.db) (fate : Fate) :
    Capped (s.store C config fate).writer.db := by
  unfold System.store
  split
  · exact bounded_runSized fate h fun n t hj => h.recover hj
  · next now hp =>
    have hb := bounded_runSized fate h fun batch t
      (hj : claimOutboxBatch s.clock now config.claimBatch s.writer.db = .ok (batch, t)) => h.claim hj
    split <;> (next hr => rw [hr] at hb; exact hb)
  · next row operation anchorKey rest hp =>
    have hb := bounded_runSized fate h fun found t
      (hj : outboxRowByKey anchorKey s.writer.db = .ok (found, t)) => by cases hj; exact h
    split
    · next hr => rw [hr] at hb; exact hb
    · next hr =>
      rw [hr] at hb
      split <;> exact hb
  · next row write left rest hp =>
    have hb := bounded_runSized fate h fun deferred t
      (hj : write.job s.clock row.id s.writer.db = .ok (deferred, t)) => ReceiptWrite.job_bounded h hj
    split <;> (next hr => rw [hr] at hb; exact hb)
  · next now row rest hp => exact bounded_runSized fate h fun u t hj => h.release hj
  · exact h

theorem pump_writer (s : System) : (s.pump C config).writer = s.writer := by
  unfold System.pump System.processRow System.record System.call
  repeat' split
  all_goals rfl

theorem step_bounded (s : System) (e : Event) (h : Capped s.writer.db) : Capped (step C config s e).writer.db := by
  cases e with
  | tick now | wake | restart => simp only [step]; split <;> exact h
  | enqueue row fate => exact bounded_runSized fate h fun o t hj => h.enqueueOutbox hj
  | enqueueBatch rows fate => exact bounded_runSized fate h fun os t hj => h.enqueueOutboxBatch hj
  | inboundReply notice fate =>
    refine bounded_runSized fate h fun u t hj => ?_
    obtain ⟨t₁, hj', he⟩ := map_eq_ok.1 hj
    cases he
    exact h.enqueueInboundReply hj'
  | sweep sweepNowMs fate =>
    simp only [step]
    split
    · exact bounded_runSized fate h fun n t hj => h.sweep hj
    · exact h
  | connect | disconnect | shutdown => exact h
  | pump => simpa only [step, pump_writer] using h
  | store fate => exact store_bounded h fate
  | net outcome => simp only [step, System.net]; split <;> exact h
  | giveUp =>
    simp only [step]
    split
    · split <;> exact h
    · exact h
  | crash => exact h

theorem act_bounded (s : System) (a : Action) (h : Capped s.writer.db) : Capped (act C config s a).writer.db := by
  cases a with
  | operation op fate => exact bounded_runSized fate h fun u t hj => h.op hj
  | event e => exact step_bounded s e h

/-! ## Budgets -/

/-- What the JSON writer wrote is what the readers read. -/
structure Codec.RoundTrips (C : Codec) : Prop where
  version : ∀ dto json, C.payloadToString dto = some json → C.versionProbe json = some dto.version
  payload : ∀ dto json, C.payloadToString dto = some json → C.payloadV2 json = some dto

/-- The payload is that of a final card, which a fallback may replace. -/
def mayFallBack (C : Codec) (payload : String) : Bool :=
  match OutboxOperation.decode C payload with
  | .ok (.finalizeProgressCard ..) => true
  | _ => false

/-- The calls a row with these columns may have behind it. -/
def budget (C : Codec) (a : OutboxRow) : ℕ :=
  (if mayFallBack C a.payloadJson then 0 else storeOutboxMaxAttempts) + a.attempts

variable {a : OutboxRow}

theorem budget_congr {b : OutboxRow} (hp : b.payloadJson = a.payloadJson) (ha : b.attempts = a.attempts) :
    budget C b = budget C a := by
  simp [budget, hp, ha]

theorem mayFallBack_markdownPost (hC : C.RoundTrips) {m x json : String} {t : Option String}
    (h : OutboxOperation.encode C (.replyMarkdownPost m t x) = .ok json) : mayFallBack C json = false := by
  have hjson : C.payloadToString (PayloadV2.ofOperation C (.replyMarkdownPost m t x)) = some json := by
    simp only [OutboxOperation.encode] at h
    split at h
    · cases h
    · split at h <;> cases h
      assumption
  have hv := hC.version _ _ hjson
  have hp := hC.payload _ _ hjson
  simp only [PayloadV2.ofOperation, PayloadV2.ofOperation.reply, outboxPayloadVersion] at hv hp
  unfold mayFallBack
  split
  · next hdec =>
    simp only [OutboxOperation.decode, hv, hp] at hdec
    split at hdec
    · cases hdec
    · -- the shape of the post goes to `decodeReply`
      simp only [decodeV2, decodeReply] at hdec
      split at hdec
      · cases hdec
      · split at hdec
        · cases hdec
        · obtain ⟨_, -, hdec⟩ := bind_eq_ok.1 hdec
          cases hdec
  · rfl

/-- The columns that count, as a receipt write leaves them in a row it puts back to `pending`. -/
def ReceiptWrite.returned (a : OutboxRow) : ReceiptWrite → Option OutboxRow
  | .failAndDefer attempts _ => some { a with attempts := attempts }
  | .fallback payloadJson => some { a with payloadJson := payloadJson, attempts := 0 }
  | _ => none

theorem ReceiptWrite.returned_reissue (w : ReceiptWrite) (now : ℤ) (a : OutboxRow) :
    (w.reissue now).returned a = w.returned a := by
  cases w <;> rfl

/-- A parking receipt leaves these columns, also where it was computed from a copy `b` of the row. -/
theorem ReceiptWrite.job_parks (h : w.job now id t = .ok (deferred, t')) (hp : w.parks = true) : ∃ g retryMs,
      (∀ a b, a.payloadJson = b.payloadJson → ∃ c ∈ w.returned b, budget C (g a) = budget C c) ∧
        Table.Maps (setAndPark now retryMs id g) t t' := by
  cases w with
  | failAndDefer attempts retryMs =>
    obtain ⟨-, -, hm⟩ := failOutboxAndDeferSuccessors_ok h
    rw [if_pos (by simpa [parks] using hp)] at hm
    refine ⟨_, _, ?_, hm⟩
    exact fun a b hab => ⟨_, rfl, budget_congr hab rfl⟩
  | fallback payloadJson =>
    obtain ⟨⟨u, t₁⟩, hj, he⟩ := map_eq_ok.1 h
    cases he
    obtain ⟨-, hm⟩ := replaceOutboxWithFallback_ok hj
    refine ⟨_, _, ?_, hm⟩
    exact fun a b hab => ⟨_, rfl, budget_congr rfl rfl⟩
  | complete | failUncertain | failTerminal => cases hp

variable {row : Row OutboxRow} {operation : OutboxOperation} {x : NetEvent}

theorem recordFailure_returned {cls : DeliveryClass} (hatt : row.val.attempts < storeOutboxMaxAttempts)
    (h : a ∈ (recordFailure config now row cls).returned row.val) :
    budget C a = budget C row.val + 1 := by
  cases cls with
  | retryable =>
    simp only [recordFailure, ReceiptWrite.returned, Option.mem_def, Option.some.injEq] at h
    have hnext : nextAttempt row.val.attempts = row.val.attempts + 1 := by
      have : storeOutboxMaxAttempts ≤ u32Max := by decide
      unfold nextAttempt
      omega
    rw [← h, hnext]
    simp only [budget]
    omega
  | uncertain | permanent => cases h

/-- A failed call is recorded as a failure, or by the Markdown post that replaces its final card. -/
theorem recordOutcome_error_cases (now : ℤ) (row : Row OutboxRow) (operation : OutboxOperation) (request : OutboundRequest)
    (e : DeliveryError) :
    (∃ cls, recordOutcome C config now row operation request (.error e) = recordFailure config now row cls) ∨
    ∃ k m t x f phase json, operation = .finalizeProgressCard k m t x f phase ∧
      OutboxOperation.encode C (.replyMarkdownPost m t f) = .ok json ∧
      recordOutcome C config now row operation request (.error e) = .fallback json := by
  simp only [recordOutcome]
  split
  · cases operation with
    | finalizeProgressCard k m t x f phase =>
      simp only [recordCardPatchFailure, recordFinalCardPatchFailure]
      split
      · exact .inl ⟨_, rfl⟩
      · split
        · exact .inl ⟨_, rfl⟩
        · split
          · exact .inl ⟨_, rfl⟩
          · split
            · next json hjson => exact .inr ⟨k, m, t, x, f, phase, json, rfl, hjson, rfl⟩
            · exact .inl ⟨_, rfl⟩
    | _ =>
      simp only [recordCardPatchFailure]
      split
      · exact .inl ⟨_, rfl⟩
      · split <;> exact .inl ⟨_, rfl⟩
  · exact .inl ⟨_, rfl⟩

/-- A successful call puts no row back. -/
theorem recordOutcome_ok_returned (now : ℤ) (row : Row OutboxRow) (operation : OutboxOperation)
    (request : OutboundRequest) (messageId : String) (a : OutboxRow) :
    (recordOutcome C config now row operation request (.ok messageId)).returned a = none := by
  simp only [recordOutcome]
  split <;> rfl

/-- The receipt of a call accounts for the call. -/
theorem recordOutcome_returned (hC : C.RoundTrips) {request : OutboundRequest} {outcome : Except DeliveryError String}
    (hop : OutboxOperation.decode C row.val.payloadJson = .ok operation)
    (hatt : row.val.attempts < storeOutboxMaxAttempts)
    (h : a ∈ (recordOutcome C config now row operation request outcome).returned row.val) :
    budget C row.val + 1 ≤ budget C a := by
  cases outcome with
  | ok messageId =>
    rw [recordOutcome_ok_returned] at h
    cases h
  | error e =>
    rcases @recordOutcome_error_cases C config now row operation request e with
      ⟨cls, hw⟩ | ⟨k, m, t, x, f, phase, json, rfl, hjson, hw⟩
    · rw [hw] at h
      exact (recordFailure_returned hatt h).ge
    · -- the first series ends, and the row has the budget of a whole series more
      rw [hw] at h
      simp only [ReceiptWrite.returned, Option.mem_def, Option.some.injEq] at h
      have hcard : mayFallBack C row.val.payloadJson = true := by simp [mayFallBack, hop]
      have hpost := mayFallBack_markdownPost hC hjson
      rw [← h]
      simp only [budget, hcard, hpost, if_true, Bool.false_eq_true, if_false]
      omega

/-! ## The invariant -/

/-- How often row `n` was called. -/
def calls (log : List NetEvent) (n : ℕ) : ℕ := (called log).count n

theorem calls_append_call (log : List NetEvent) (row : Row OutboxRow) (operation : OutboxOperation)
    (request : OutboundRequest) (durable : Option OutboxState) (n : ℕ) :
    calls (log ++ [.call row operation request durable]) n = calls log n + if row.serial = n then 1 else 0 := by
  simp [calls, called_append_call, List.count_singleton]

theorem calls_append_of_not_call (log : List NetEvent) (h : x.isCall = false) (n : ℕ) :
    calls (log ++ [x]) n = calls log n := by
  simp [calls, called_append_of_not_call log h]

theorem calls_eq_zero {log : List NetEvent} {n : ℕ} (h : n ∉ called log) : calls log n = 0 := List.count_eq_zero.2 h

/-- The copies whose call has not been made. -/
def Phase.waiting : Phase → List (Row OutboxRow)
  | .batch rest => rest
  | .lookup row _ _ rest | .releasing _ row rest => row :: rest
  | .sending _ _ _ rest | .receipt _ _ _ rest | .backoff _ _ _ rest => rest
  | _ => []

theorem Phase.queue_eq (p : Phase) : p.queue = p.inFlight.toList ++ p.waiting := by cases p <;> rfl

/-- The decoded payload the pump holds with a copy. -/
def Phase.decoded : Phase → Option (Row OutboxRow × OutboxOperation)
  | .lookup row operation _ _ | .sending row operation _ _ => some (row, operation)
  | _ => none

/-- The row a copy was taken from is durably `sending`, with the attempts and the payload of the copy. -/
def Mirrors (t : OutboxTable) (copy : Row OutboxRow) : Prop :=
  ∃ r ∈ t.rows, r.id = copy.id ∧ r.serial = copy.serial ∧ r.val.state = .sending ∧
    r.val.attempts = copy.val.attempts ∧ r.val.payloadJson = copy.val.payloadJson

theorem Mirrors.attempts_lt {copy : Row OutboxRow} (h : Mirrors t copy) (hb : Capped t) :
    copy.val.attempts < storeOutboxMaxAttempts := by
  obtain ⟨r, hr, -, -, hs, ha, -⟩ := h
  rw [← ha]
  exact (hb.row_ok r hr).attempts (live_of_sending hs)

/-- **The invariant.** -/
structure CallBound (C : Codec) (s : System) : Prop where
  mirrors : ∀ q ∈ s.phase.queue, Mirrors s.writer.db q
  current_mirrors : ∀ c ∈ s.phase.current, s.writer.alive = true → Mirrors s.writer.db c.1
  pending_le : ∀ r ∈ s.writer.db.rows, r.val.state = .pending → calls s.log r.serial ≤ budget C r.val
  waiting_le : ∀ q ∈ s.phase.waiting, calls s.log q.serial ≤ budget C q.val
  inFlight_le : ∀ q ∈ s.phase.inFlight, calls s.log q.serial ≤ budget C q.val + 1
  current_le : ∀ c ∈ s.phase.current, ∀ a ∈ c.2.returned c.1.val, calls s.log c.1.serial ≤ budget C a
  decoded : ∀ d ∈ s.phase.decoded, OutboxOperation.decode C d.1.val.payloadJson = .ok d.2
  calls_le : ∀ n, calls s.log n ≤ 2 * storeOutboxMaxAttempts

theorem initial_callBound (clock : ℤ) : CallBound C (initial clock) := by
  constructor <;>
    simp [initial, Table.empty, Phase.queue, Phase.current, Phase.waiting, Phase.inFlight, Phase.decoded, calls, called]

theorem budget_lt (h : a.attempts < storeOutboxMaxAttempts) :
    budget C a < 2 * storeOutboxMaxAttempts := by
  unfold budget
  split <;> omega

/-! ## Steps that leave the table alone -/

variable {p : Phase}

/-- The pump moves to a phase that holds fewer copies and has no call under way. -/
theorem CallBound.rephase (h : CallBound C s) (hi : p.inFlight = none) (hw : ∀ q ∈ p.waiting, q ∈ s.phase.waiting)
    (hc : ∀ c ∈ p.current, (s.writer.alive = true → Mirrors s.writer.db c.1) ∧
      ∀ a ∈ c.2.returned c.1.val, calls s.log c.1.serial ≤ budget C a)
    (hd : ∀ d ∈ p.decoded, OutboxOperation.decode C d.1.val.payloadJson = .ok d.2) :
    CallBound C { s with phase := p } where
  mirrors := by
    intro q hq
    rw [Phase.queue_eq, hi] at hq
    refine h.mirrors q ?_
    rw [Phase.queue_eq]
    exact List.mem_append_right _ (hw q hq)
  current_mirrors := fun c hc' => (hc c hc').1
  pending_le := h.pending_le
  waiting_le := fun q hq => h.waiting_le q (hw q hq)
  inFlight_le := by simp [hi]
  current_le := fun c hc' => (hc c hc').2
  decoded := hd
  calls_le := h.calls_le

/-- A phase without copies. -/
theorem CallBound.drop (h : CallBound C s) (hp : p.Empty s.clock) : CallBound C { s with phase := p } := by
  have hp' : p.inFlight = none ∧ p.waiting = [] ∧ p.current = none ∧ p.decoded = none := by
    unfold Phase.Empty at hp
    split at hp <;> simp_all [Phase.inFlight, Phase.waiting, Phase.current, Phase.decoded]
  obtain ⟨hi, hw, hc, hd⟩ := hp'
  exact h.rephase hi (by simp [hw]) (by simp [hc]) (by simp [hd])

theorem Phase.AtHead.waiting {rest : List (Row OutboxRow)} (hp : p.AtHead row rest) : p.waiting = row :: rest := by
  rcases hp with rfl | ⟨operation, anchorKey, rfl⟩ <;> rfl

variable {rest : List (Row OutboxRow)}

section

variable (h : CallBound C s)
include h

/-- The first waiting copy becomes the row of a receipt. -/
theorem CallBound.record (hw : s.phase.waiting = row :: rest)
    (hle : ∀ a ∈ w.returned row.val, budget C row.val ≤ budget C a) : CallBound C (s.record row w rest) := by
  have hrow : row ∈ s.phase.waiting := by simp [hw]
  refine h.rephase rfl ?_ ?_ (by simp [Phase.decoded])
  · rw [hw]
    exact fun q hq => List.mem_cons_of_mem _ hq
  · intro c hc
    cases hc
    refine ⟨fun _ => h.mirrors row ?_, fun a ha => (h.waiting_le row hrow).trans (hle a ha)⟩
    rw [Phase.queue_eq]
    exact List.mem_append_right _ hrow

theorem CallBound.recordFailure (hb : Capped s.writer.db) (hw : s.phase.waiting = row :: rest)
    (now : ℤ) (cls : DeliveryClass) :
    CallBound C (s.record row (recordFailure config now row cls) rest) := by
  refine h.record hw fun a ha => ?_
  have hm : Mirrors s.writer.db row := h.mirrors row (by rw [Phase.queue_eq, hw]; simp)
  exact (Nat.le_succ _).trans (recordFailure_returned (hm.attempts_lt hb) ha).ge

/-- A delivery call for the first waiting copy. -/
theorem CallBound.call (hf : Fifo s) (hb : Capped s.writer.db) (hw : s.phase.waiting = row :: rest)
    (hi : s.phase.inFlight = none) (hop : OutboxOperation.decode C row.val.payloadJson = .ok operation)
    (request : OutboundRequest) :
    CallBound C (s.call row operation request rest) := by
  have hq : s.phase.queue = row :: rest := by rw [Phase.queue_eq, hi, hw]; rfl
  have hrow : row ∈ s.phase.waiting := by simp [hw]
  have hmir : Mirrors s.writer.db row := h.mirrors row (by simp [hq])
  have hsorted := hf.queue_sorted
  rw [hq, List.pairwise_cons] at hsorted
  have hlog : ∀ n, calls (s.call row operation request rest).log n = calls s.log n + if row.serial = n then 1 else 0 :=
    calls_append_call _ _ _ _ _
  have hother : ∀ n, row.serial ≠ n → calls (s.call row operation request rest).log n = calls s.log n := by
    intro n hn
    rw [hlog, if_neg hn, Nat.add_zero]
  have hself : calls (s.call row operation request rest).log row.serial ≤ budget C row.val + 1 := by
    rw [hlog, if_pos rfl]
    exact Nat.succ_le_succ (h.waiting_le row hrow)
  constructor
  · intro q hq'
    exact h.mirrors q (hq ▸ hq')
  · simp [System.call, Phase.current]
  · intro r hr hp
    -- the row of the call is `sending`
    obtain ⟨r₀, hr₀, -, hs₀, hstate₀, -, -⟩ := hmir
    have hne : row.serial ≠ r.serial := by
      intro heq
      rw [Table.eq_of_serial hr hr₀ (heq.symm.trans hs₀.symm), hstate₀] at hp
      cases hp
    rw [hother _ hne]
    exact h.pending_le r hr hp
  · intro q hq'
    rw [hother _ (hsorted.1 q hq').ne]
    exact h.waiting_le q (hw ▸ List.mem_cons_of_mem _ hq')
  · intro q hq'
    cases hq'
    exact hself
  · simp [System.call, Phase.current]
  · intro d hd
    cases hd
    exact hop
  · intro n
    by_cases hn : row.serial = n
    · rw [← hn]
      have := budget_lt (C := C) (hmir.attempts_lt hb)
      omega
    · rw [hother n hn]
      exact h.calls_le n

theorem CallBound.note (hx : x.isCall = false) :
    CallBound C { s with log := s.log ++ [x] } := by
  have hcalls : ∀ n, calls (s.log ++ [x]) n = calls s.log n := calls_append_of_not_call _ hx
  constructor
  · exact h.mirrors
  · exact h.current_mirrors
  · simpa only [hcalls] using h.pending_le
  · simpa only [hcalls] using h.waiting_le
  · simpa only [hcalls] using h.inFlight_le
  · simpa only [hcalls] using h.current_le
  · exact h.decoded
  · simpa only [hcalls] using h.calls_le

theorem CallBound.congr {s' : System} (hw : s'.writer = s.writer) (hp : s'.phase = s.phase)
    (hl : s'.log = s.log) : CallBound C s' := by
  obtain ⟨w, c, k, d, p, l⟩ := s'
  simp only at hw hp hl
  subst hw hp hl
  exact ⟨h.mirrors, h.current_mirrors, h.pending_le, h.waiting_le, h.inFlight_le, h.current_le, h.decoded, h.calls_le⟩

/-- The writer stops, or starts where no receipt is being written. -/
theorem CallBound.setAlive {b : Bool}
    (hb : b = true → s.writer.alive = true ∨ s.phase.current = none) :
    CallBound C { s with writer := { s.writer with alive := b } } where
  mirrors := h.mirrors
  current_mirrors := by
    intro c hc ha
    rcases hb ha with ha | hn
    · exact h.current_mirrors c hc ha
    · exact absurd (show c ∈ s.phase.current from hc) (by simp [hn])
  pending_le := h.pending_le
  waiting_le := h.waiting_le
  inFlight_le := h.inFlight_le
  current_le := h.current_le
  decoded := h.decoded
  calls_le := h.calls_le

end

/-- A store request had no effect. -/
theorem CallBound.refused {s : System} (h : CallBound C s) {w : Writer OutboxTable} (hdb : w.db = s.writer.db)
    (ha : w.alive = true → s.writer.alive = true) : CallBound C { s with writer := w } := by
  obtain ⟨db, alive⟩ := w
  simp only at hdb ha
  subst hdb
  exact (h.setAlive fun hb => .inl (ha hb)).congr rfl rfl rfl

/-! ## Jobs -/

section

variable (h : CallBound C s)
include h

theorem CallBound.grows (hf : Fifo s) (hg : Grows s.writer.db t) :
    CallBound C { s with writer := { s.writer with db := t } } := by
  have hmir : ∀ q, Mirrors s.writer.db q → Mirrors t q := by
    rintro q ⟨r, hr, hid, hs, hstate, hrest⟩
    exact ⟨r, hg.live_kept r hr (live_of_sending hstate), hid, hs, hstate, hrest⟩
  constructor
  · exact fun q hq => hmir q (h.mirrors q hq)
  · exact fun c hc ha => hmir _ (h.current_mirrors c hc ha)
  · intro r hr hp
    rcases hg.old_or_new r hr with hr | ⟨hs, -, -⟩
    · exact h.pending_le r hr hp
    · -- a new row was never called for
      have hnew : r.serial ∉ called s.log := fun hn => (hf.called_lt _ hn).not_ge hs
      exact (calls_eq_zero hnew).trans_le (Nat.zero_le _)
  · exact h.waiting_le
  · exact h.inFlight_le
  · exact h.current_le
  · exact h.decoded
  · exact h.calls_le

/-- The pump's job rewrites the columns by `f`, and the pump goes on in a phase without a receipt or a call. -/
theorem CallBound.rewrite {f : Row OutboxRow → OutboxRow} (hm : Table.Maps f s.writer.db t)
    (hc : p.current = none) (hi : p.inFlight = none) (hd : p.decoded = none)
    (hqueue : ∀ q ∈ p.waiting, calls s.log q.serial ≤ budget C q.val ∧ ∃ r ∈ s.writer.db.rows, r.id = q.id ∧
      r.serial = q.serial ∧ (f r).state = .sending ∧ (f r).attempts = q.val.attempts ∧
      (f r).payloadJson = q.val.payloadJson)
    (hpending : ∀ r ∈ s.writer.db.rows, (f r).state = .pending → calls s.log r.serial ≤ budget C (f r)) :
    CallBound C { s with writer := { s.writer with db := t }, phase := p } where
  mirrors := by
    intro q hq
    rw [Phase.queue_eq, hi] at hq
    obtain ⟨-, r, hr, hid, hs, hrest⟩ := hqueue q hq
    exact ⟨_, hm.mem.2 ⟨r, hr, rfl⟩, hid, hs, hrest⟩
  current_mirrors := by simp [hc]
  pending_le := by
    intro r' hr' hp
    obtain ⟨r, hr, rfl⟩ := hm.mem.1 hr'
    exact hpending r hr hp
  waiting_le := fun q hq => (hqueue q hq).1
  inFlight_le := by simp [hi]
  current_le := by simp [hc]
  decoded := by simp [hd]
  calls_le := h.calls_le

/-- A parking receipt: its row is within the budget it goes back with, and no later row was called for. -/
theorem CallBound.park (hf : Fifo s) (hcur : s.phase.current = some (row, w))
    (ha : s.writer.alive = true) (hj : w.job s.clock row.id s.writer.db = .ok (deferred, t)) (hp : w.parks = true) :
    CallBound C { s with writer := { s.writer with db := t }, phase := .idle } := by
  have hmem : (row, w) ∈ s.phase.current := by simp [hcur]
  obtain ⟨r₀, hr₀, hid₀, hs₀, -, -, hpay₀⟩ := h.current_mirrors _ hmem ha
  obtain ⟨g, retryMs, hg, hm⟩ := ReceiptWrite.job_parks (C := C) hj hp
  refine h.rewrite hm rfl rfl rfl (by simp [Phase.waiting]) fun r hr hpend => ?_
  unfold setAndPark at hpend ⊢
  split at hpend
  · next hid =>
    obtain ⟨a, ha', he⟩ := hg r₀.val row.val hpay₀
    rw [if_pos hid, Table.eq_of_id hr hr₀ (hid.trans hid₀.symm), he, hs₀]
    exact h.current_le _ hmem a ha'
  · next hid =>
    rw [if_neg hid]
    split
    · next hlater =>
      have hlt : row.serial < r.serial := by
        rw [← hs₀]
        exact (Table.id_lt_iff hr₀ hr).1 (hid₀ ▸ hlater.1)
      have hnew : r.serial ∉ called s.log := fun hn => (hf.current_ge _ hmem _ hn).not_gt hlt
      exact (calls_eq_zero hnew).trans_le (Nat.zero_le _)
    · next hlater =>
      rw [if_neg hlater] at hpend
      exact h.pending_le r hr hpend

/-- A receipt makes its row terminal. -/
theorem CallBound.retire (hf : Fifo s) (hcur : s.phase.current = some (row, w))
    (ha : s.writer.alive = true) {g : OutboxRow → OutboxRow} (hg : ∀ a, (g a).live = false)
    (hm : Table.Maps (setRow row.id g) s.writer.db t) :
    CallBound C { s with writer := { s.writer with db := t }, phase := .batch s.phase.waiting } := by
  have hmem : (row, w) ∈ s.phase.current := by simp [hcur]
  obtain ⟨r₀, hr₀, hid₀, hs₀, -⟩ := h.current_mirrors _ hmem ha
  refine h.rewrite hm rfl rfl rfl (fun q hq => ⟨h.waiting_le q hq, ?_⟩) fun r hr hpend => ?_
  · have hq' : q ∈ s.phase.queue := by
      rw [Phase.queue_eq]
      exact List.mem_append_right _ hq
    obtain ⟨r, hr, hid, hs, hrest⟩ := h.mirrors q hq'
    have hne : r.id ≠ row.id := by
      intro heq
      have hlt := hf.current_lt _ hmem q hq'
      rw [← hs, Table.eq_of_id hr hr₀ (heq.trans hid₀.symm), hs₀] at hlt
      exact Nat.lt_irrefl _ hlt
    exact ⟨r, hr, hid, hs, by simpa [setRow, hne] using hrest⟩
  · by_cases hid : r.id = row.id
    · have hl := hg r.val
      simp only [setRow, hid, if_true] at hpend
      rw [live_of_pending hpend] at hl
      cases hl
    · simp only [setRow, hid, if_false] at hpend ⊢
      exact h.pending_le r hr hpend

/-- A claim takes pending rows, which are within their budget. -/
theorem CallBound.claim {readAt : ℤ} {rows : List (Row OutboxRow)}
    (hpre : rows <+: s.writer.db.rows.filter (due readAt)) (hm : Table.Maps (claimRow now rows) s.writer.db t) :
    CallBound C { s with writer := { s.writer with db := t }, phase := .batch (rows.map claimed) } := by
  refine h.rewrite hm rfl rfl rfl (fun q hq => ?_) fun r hr hpend => ?_
  · obtain ⟨r, hr, rfl⟩ := List.mem_map.1 hq
    obtain ⟨hrt, hdue⟩ := List.mem_filter.1 (hpre.subset hr)
    simp only [due, decide_eq_true_eq] at hdue
    exact ⟨h.pending_le r hrt hdue.1, r, hrt, rfl, rfl, by simp [claimRow, hr, setSending, claimed]⟩
  · unfold claimRow at hpend ⊢
    split at hpend
    · cases hpend
    · next hmem =>
      rw [if_neg hmem]
      exact h.pending_le r hr hpend

/-- The first row of an unsent tail goes back to `pending` with the attempts it had. -/
theorem CallBound.release (hf : Fifo s) (hw : s.phase.waiting = row :: rest)
    (hi : s.phase.inFlight = none) {retryMs : ℤ}
    (hm : Table.Maps (setRow row.id fun r => { r with state := .pending, nextRetryMs := retryMs, updatedMs := now })
      s.writer.db t) :
    CallBound C { s with writer := { s.writer with db := t }, phase := releaseTail s.clock rest } := by
  have hq : s.phase.queue = row :: rest := by rw [Phase.queue_eq, hi, hw]; rfl
  have hsorted := hf.queue_sorted
  rw [hq, List.pairwise_cons] at hsorted
  obtain ⟨r₀, hr₀, hid₀, hs₀, -, ha₀, hpay₀⟩ := h.mirrors row (by simp [hq])
  have htail : (releaseTail s.clock rest).waiting = rest := by cases rest <;> rfl
  refine h.rewrite hm (by cases rest <;> rfl) (by cases rest <;> rfl) (by cases rest <;> rfl) (fun q hq' => ?_)
    fun r hr hpend => ?_
  · rw [htail] at hq'
    obtain ⟨r, hr, hid, hs, hrest⟩ := h.mirrors q (by simp [hq, hq'])
    have hne : r.id ≠ row.id := by
      intro heq
      have hlt := hsorted.1 q hq'
      rw [← hs, Table.eq_of_id hr hr₀ (heq.trans hid₀.symm), hs₀] at hlt
      exact Nat.lt_irrefl _ hlt
    exact ⟨h.waiting_le q (by simp [hw, hq']), r, hr, hid, hs, by simpa [setRow, hne] using hrest⟩
  · by_cases hid : r.id = row.id
    · have hr' := Table.eq_of_id hr hr₀ (hid.trans hid₀.symm)
      simp only [setRow, hid, if_true]
      rw [hr', hs₀]
      exact (h.waiting_le row (by simp [hw])).trans_eq (budget_congr hpay₀ ha₀).symm
    · simp only [setRow, hid, if_false] at hpend ⊢
      exact h.pending_le r hr hpend

theorem CallBound.recover (hm : Table.Maps (recoverRow now) s.writer.db t) :
    CallBound C { s with writer := { s.writer with db := t }, phase := .idle } := by
  refine h.rewrite hm rfl rfl rfl (by simp [Phase.waiting]) fun r hr hpend => ?_
  unfold recoverRow at hpend ⊢
  split at hpend
  · cases hpend
  · next hs =>
    rw [if_neg hs]
    exact h.pending_le r hr hpend

/-! ## One step -/

variable {left : ℕ} {s' : System} {e : Event}

/-- A receipt that is committed. -/
theorem CallBound.committed (hf : Fifo s) (hp : s.phase = .receipt row w left rest) (ha : s.writer.alive = true)
    (hj : w.job s.clock row.id s.writer.db = .ok (deferred, t)) :
    CallBound C { s with writer := { s.writer with db := t }, phase := if deferred then .idle else .batch rest } := by
  have hcur : s.phase.current = some (row, w) := by rw [hp]; rfl
  have hw : s.phase.waiting = rest := by rw [hp]; rfl
  obtain ⟨-, rfl, g, retryMs, -, ⟨hpk, -, -⟩ | ⟨hpk, hg, hm⟩⟩ := ReceiptWrite.job_ok hj
  · simp only [hpk, if_true]
    exact h.park hf hcur ha hj hpk
  · simp only [hpk, Bool.false_eq_true, if_false]
    exact hw ▸ h.retire hf hcur ha hg hm

/-- A receipt that is committed and reported as failed: nothing is left of the batch if it was parked. -/
theorem CallBound.reported (hf : Fifo s) (hp : s.phase = .receipt row w left rest) (ha : s.writer.alive = true)
    (hj : w.job s.clock row.id s.writer.db = .ok (deferred, t)) (hrest : w.parks = true → rest = [])
    (hn : p = .batch rest ∨ p = .backoff row w left rest) :
    CallBound C { s with writer := { db := t, alive := false }, phase := p } := by
  have h' : CallBound C { s with writer := { db := t, alive := false }, phase := .batch rest } := by
    have hc := h.committed hf hp ha hj
    obtain ⟨-, rfl, -⟩ := ReceiptWrite.job_ok hj
    cases hpk : w.parks with
    | true =>
      rw [hrest hpk]
      exact (hc.drop (p := .batch []) trivial).setAlive (b := false) (by simp)
    | false =>
      rw [hpk] at hc
      exact hc.setAlive (b := false) (by simp)
  rcases hn with rfl | rfl
  · exact h'
  · refine h'.rephase rfl (fun q hq => hq) ?_ (by simp [Phase.decoded])
    intro c hc
    cases hc
    exact ⟨by simp, h.current_le (row, w) (by rw [hp]; rfl)⟩

/-- The receipt under way moves on, as it was or renewed. -/
theorem CallBound.renew {n : ℕ} {w' : ReceiptWrite} (hcur : s.phase.current = some (row, w))
    (hw : w'.returned row.val = w.returned row.val)
    (hp : p = .receipt row w' n s.phase.queue ∨ p = .backoff row w' n s.phase.queue)
    (hi : s.phase.inFlight = none) : CallBound C { s with phase := p } := by
  have hmem : (row, w) ∈ s.phase.current := by simp [hcur]
  have hq : s.phase.queue = s.phase.waiting := by rw [Phase.queue_eq, hi]; rfl
  rw [hq] at hp
  rcases hp with rfl | rfl
  all_goals
    refine h.rephase rfl (fun q hq => hq) ?_ (by simp [Phase.decoded])
    intro c hc
    cases hc
    exact ⟨h.current_mirrors (row, w) hmem, hw ▸ h.current_le (row, w) hmem⟩

end

/-- The call under way returns, and its receipt accounts for it. -/
theorem CallBound.returned (hC : C.RoundTrips) (h : CallBound C s) (hb : Capped s.writer.db)
    {request : OutboundRequest} (hp : s.phase = .sending row operation request rest)
    (outcome : Except DeliveryError String) :
    CallBound C ({ s with log := s.log ++ [NetEvent.returned row operation request outcome] }.record row
      (recordOutcome C config s.clock row operation request outcome) rest) := by
  have hmir : Mirrors s.writer.db row := h.mirrors row (by rw [hp]; simp [Phase.queue])
  have hop := h.decoded (row, operation) (by rw [hp]; rfl)
  have hle := h.inFlight_le row (by rw [hp]; rfl)
  have hn := h.note (x := .returned row operation request outcome) rfl
  refine hn.rephase rfl (by rw [hp]; exact fun q hq => hq) ?_ (by simp [Phase.decoded])
  intro c hc
  cases hc
  refine ⟨fun _ => hmir, fun a ha => ?_⟩
  have hbudget := recordOutcome_returned hC hop (hmir.attempts_lt hb) ha
  rw [calls_append_of_not_call s.log rfl]
  exact hle.trans hbudget

/-- **One step keeps every row within its budget.** -/
theorem CallBound.stepTo (hC : C.RoundTrips) (hf : Fifo s) (hb : Capped s.writer.db) (h : CallBound C s)
    (hk : KeepsTail s e) (m : StepTo C config s e s') : CallBound C s' := by
  induction m with
  | same => exact h
  | tick => exact h.congr rfl rfl rfl
  | enqueued ht => exact h.grows hf (ht growsRule)
  | flags _ hw _ hp hl ih => exact ih.congr hw hp hl
  | refused _ hdb ha ih => exact ih.refused hdb ha
  | drop _ hp ih => exact ih.drop hp
  | restart => exact (h.drop (p := .recovering) trivial).setAlive fun _ => .inr rfl
  | record hp hw =>
    rcases hw with rfl | ⟨cls, rfl⟩
    · exact h.record hp.waiting (by simp [ReceiptWrite.returned])
    · exact h.recordFailure hb hp.waiting _ _
  | lookup hp hop =>
    refine h.rephase rfl (by rw [hp]; exact fun q hq => hq) (by simp [Phase.current]) ?_
    intro d hd
    cases hd
    exact hop
  | deliver hp hop => exact h.call hf hb (by rw [hp]; rfl) (by rw [hp]; rfl) hop _
  | @anchored row rest operation _ _ hp =>
    exact h.call hf hb (by rw [hp]; rfl) (by rw [hp]; rfl) (h.decoded (row, operation) (by rw [hp]; rfl)) _
  | returned _ hp => exact h.returned hC hb hp _
  | cut hp =>
    exact (h.note rfl).rephase rfl (by rw [hp]; exact fun q hq => hq) (by simp [Phase.current]) (by simp [Phase.decoded])
  | unsent hp | gaveUp hp =>
    refine h.rephase rfl (by rw [hp]; exact fun q hq => hq) ?_ ?_
    · simp [releaseTail, Phase.current]
    · simp [releaseTail, Phase.decoded]
  | recovered hm => exact h.recover hm
  | claimed _ hpre hm => exact h.claim hpre hm
  | @kept readAt row rest hp =>
    refine h.rephase ?_ ?_ ?_ ?_
    · cases rest <;> rfl
    · rw [hp]
      cases rest with
      | nil => simp [releaseTail, Phase.waiting]
      | cons q rest => exact fun r hr => List.mem_cons_of_mem _ hr
    · cases rest <;> simp [releaseTail, Phase.current]
    · cases rest <;> simp [releaseTail, Phase.decoded]
  | released hp hj => exact h.release hf (by rw [hp]; rfl) (by rw [hp]; rfl) (releaseOutboxClaimAt_ok hj).2
  | postponed hp hn =>
    rcases hn with rfl | rfl
    · exact h.rephase rfl (by rw [hp]; exact fun q hq => hq) (by simp [Phase.current]) (by simp [Phase.decoded])
    · exact h.renew (by rw [hp]; rfl) rfl (.inr (by rw [hp]; rfl)) (by rw [hp]; rfl)
  | committed hp ha hj => exact h.committed hf hp ha hj
  | reported he hp ha hj hn =>
    subst he
    exact h.reported hf hp ha hj (fun hpk => by simpa [KeepsTail, keepsTail, hp, hpk] using hk) hn
  | woken hp =>
    exact h.renew (by rw [hp]; rfl) (ReceiptWrite.returned_reissue _ _ _) (.inl (by rw [hp]; rfl)) (by rw [hp]; rfl)

/-! ## Runs -/

/-- The operations that other tasks than the pump call. -/
def ofOtherTasks : OutboxOp → Bool
  | .enqueue _ | .enqueueBatch _ | .inboundReply _ | .sweep .. => true
  | _ => false

/-- Claims, receipts, releases and the recovery are called by the pump alone, and no receipt that parks the rest of a
batch is committed and then reported as failed while that rest is still held. -/
def Guarded (s : System) : Action → Prop
  | .operation op _ => ofOtherTasks op = true
  | .event e => KeepsTail s e

instance (s : System) (a : Action) : Decidable (Guarded s a) := by
  cases a with
  | operation op fate => exact inferInstanceAs (Decidable (ofOtherTasks op = true))
  | event e => exact inferInstanceAs (Decidable (KeepsTail s e))

/-- A guarded action makes one of the steps of an event that keeps its tail. -/
theorem act_to {a : Action} (hg : Guarded s a) : ∃ e, KeepsTail s e ∧ StepTo C config s e (act C config s a) := by
  cases a with
  | event e => exact ⟨e, hg, step_to s e⟩
  | operation op fate =>
    refine ⟨.pump, rfl, .submit fate fun _ t hj R hR => ?_⟩
    cases op <;> simp only [OutboxOp.job] at hj
    case enqueue row =>
      obtain ⟨o, hj, -⟩ := answer_ok hj
      exact hR.enqueueOutbox hj
    case enqueueBatch rows =>
      obtain ⟨os, hj, -⟩ := answer_ok hj
      exact hR.enqueueOutboxBatch hj
    case inboundReply notice =>
      obtain ⟨t₁, hj, he⟩ := map_eq_ok.1 hj
      cases he
      exact hR.enqueueInboundReply hj
    case sweep olderThanMs maxRows =>
      obtain ⟨n, hj, -⟩ := answer_ok hj
      exact hR.sweepTerminalOutbox hj
    all_goals cases hg

theorem act_invariants (hC : C.RoundTrips) (s : System) (a : Action)
    (h : Fifo s ∧ Capped s.writer.db ∧ CallBound C s) (hg : Guarded s a) :
    Fifo (act C config s a) ∧ Capped (act C config s a).writer.db ∧ CallBound C (act C config s a) := by
  obtain ⟨hf, hb, hc⟩ := h
  obtain ⟨e, hk, m⟩ := @act_to C config _ _ hg
  exact ⟨hf.stepTo hk m, act_bounded s a hb, hc.stepTo hC hf hb hk m⟩

theorem enqueueOutboxBatch_refused {w : Writer OutboxTable} {fate : Fate} {rows : List NewOutboxRow} {e : StoreError}
    (h : (w.runSized fate (enqueueOutboxBatch C now rows)).1 = .error e)
    (hr : Fate.honest fate = true ∨ ∃ e', enqueueOutboxBatch C now rows w.db = .error e') :
    (w.runSized fate (enqueueOutboxBatch C now rows)).2.db = w.db := by
  rcases w.runSized_cases fate (enqueueOutboxBatch C now rows) with
    ⟨e', -, hdb⟩ | ⟨os, t, hj, -, -, hrun⟩ | ⟨os, t, e', hj, -, rfl, hrun⟩
  · exact hdb
  · rw [hrun] at h; cases h
  · rcases hr with hr | ⟨e'', hr⟩
    · cases hr
    · rw [hj] at hr; cases hr

/-- **The bounds of the outbox**, after any operations and events from an empty outbox: the table is within its
bounds, a refused batch leaves it as it was, and where the run is guarded no row was called for more often than two
series of attempts. -/
theorem outbox_bounds (hC : C.RoundTrips) {clock : ℤ} {actions : List Action} :
    Capped (afterActions C config clock actions).writer.db ∧
    (∀ now rows fate e,
      ((afterActions C config clock actions).writer.runSized fate (enqueueOutboxBatch C now rows)).1 = .error e →
      (Fate.honest fate = true ∨
        ∃ e', enqueueOutboxBatch C now rows (afterActions C config clock actions).writer.db = .error e') →
      ((afterActions C config clock actions).writer.runSized fate (enqueueOutboxBatch C now rows)).2.db =
        (afterActions C config clock actions).writer.db) ∧
    (Along (act C config) Guarded (initial clock) actions →
      ∀ n, calls (afterActions C config clock actions).log n ≤ 2 * storeOutboxMaxAttempts) := by
  refine ⟨?_, fun now rows fate e => enqueueOutboxBatch_refused, fun h => ?_⟩
  · exact exec_invariant' (I := fun s : System => Capped s.writer.db) act_bounded capped_empty
  · have hinv := exec_invariant (act_invariants hC)
      ⟨initial_fifo clock, capped_empty, initial_callBound clock⟩ h
    exact hinv.2.2.calls_le

set_option maxRecDepth 20000 in
theorem sampleCodec_roundTrips : sampleCodec.RoundTrips := by
  have hall : ∀ p ∈ samplePayloads, sampleCodec.versionProbe p.2 = some p.1.version ∧
      sampleCodec.payloadV2 p.2 = some p.1 := by decide
  have hmem : ∀ dto json, sampleCodec.payloadToString dto = some json → (dto, json) ∈ samplePayloads := by
    intro dto json h
    simp only [sampleCodec, Option.map_eq_some_iff] at h
    obtain ⟨p, hp, rfl⟩ := h
    have hdto : p.1 = dto := by simpa using List.find?_some hp
    exact hdto ▸ List.mem_of_find?_eq_some hp
  exact ⟨fun dto json h => (hall _ (hmem dto json h)).1, fun dto json h => (hall _ (hmem dto json h)).2⟩

theorem outbox_bounds_patchRejected :
    sampleCodec.RoundTrips ∧ Along (act sampleCodec {}) Guarded (initial 0) (patchRejected.map .event) ∧
      ∀ n, calls (afterActions sampleCodec {} 0 (patchRejected.map .event)).log n ≤ 2 * storeOutboxMaxAttempts :=
  have hrun : Along (act sampleCodec {}) Guarded (initial 0) (patchRejected.map .event) := by decide
  ⟨sampleCodec_roundTrips, hrun, (outbox_bounds sampleCodec_roundTrips).2.2 hrun⟩

/-- The refusal of a delivery that is tried again. -/
def rateLimited : Except DeliveryError String := .error (deliveryError (.retryable "sending" (some 429)))

/-- The process starts, and the pump claims at the instant `now`. -/
def claimAt (now : ℤ) : List Event := startUp ++ ([.tick now, .pump, .store .execute] : List Event)

/-- The first row is refused; its receipt parks it with the rest of the batch, is reported as failed, and no further
receipt of this process is written. -/
def deferralLost : List Event :=
  [.pump, .net rateLimited, .store (.executeThenFail (.io "checking")), .wake, .store .execute, .wake, .store .execute]

/-- The next row is refused, and its receipt is not written. -/
def receiptUnwritten : List Event :=
  [.pump, .net rateLimited, .store .execute, .wake, .store .execute, .wake, .store .execute]

/-- Three rows. The third is called for nine times behind a deferral that was reported as failed, each time in a new
process, and then eight times more, which count. -/
def deferralsLost : List Event :=
  startUp ++ ([.enqueue (sampleRow "a" "notice" 0) .execute, .enqueue (sampleRow "b" "notice" 0) .execute,
      .enqueue (sampleRow "c" "notice" 0) .execute, .crash] : List Event) ++
    (List.range 2).flatMap (fun i => claimAt (100000 * (i + 1)) ++ deferralLost ++ receiptUnwritten ++ ([.pump, .crash] : List Event)) ++
    claimAt 300000 ++ deliverNext (.ok "om_1") ++ deferralLost ++ ([.pump, .crash] : List Event) ++
    (List.range 6).flatMap (fun i => claimAt (100000 * (i + 4)) ++ deferralLost ++ ([.pump, .crash] : List Event)) ++
    claimAt 1000000 ++ deliverNext rateLimited ++ deliverNext rateLimited ++
    (List.range 7).flatMap fun i =>
      ([.tick (100000 * (i + 11)), .pump, .pump, .store .execute] : List Event) ++ deliverNext rateLimited

set_option maxRecDepth 20000 in
theorem called_past_two_series :
    ¬∀ n, calls (afterActions sampleCodec {} 0 (deferralsLost.map .event)).log n ≤ 2 * storeOutboxMaxAttempts := by
  have hcalls : calls (afterActions sampleCodec {} 0 (deferralsLost.map .event)).log 2 = 17 := by decide
  intro h
  have := h 2
  rw [hcalls] at this
  exact absurd this (by decide)

end LarkCodexBridge.Outbox

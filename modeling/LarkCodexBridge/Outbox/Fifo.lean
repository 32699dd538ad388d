import LarkCodexBridge.Outbox.Steps

/-!
# Order and uniqueness of deliveries

The order of the deliveries is not stored; it follows from an invariant `Fifo` on the retry times of the live rows,
the copies the pump holds and the log. One step keeps it (`Fifo.stepTo`) unless a receipt that parks the rest of the
batch is committed and then answered with an error while rows of the batch are left (`KeepsTail`).

* `Fifo.claim`: what a claim takes comes before every pending row it leaves;
* `Fifo.retire`, `Fifo.park`, `Fifo.release`, `Fifo.recover`, `Fifo.grows`: the other jobs;
* `after_fifo`: the invariant over every run.
-/

namespace LarkCodexBridge.Outbox

open Limits SqlTable Store StepSystem

variable {C : Codec} {config : OutboxPumpConfig}

/-! ## The log -/

def NetEvent.row : NetEvent → Row OutboxRow
  | .call row .. | .returned row .. | .cut row .. => row

def NetEvent.isCall : NetEvent → Bool
  | .call .. => true
  | _ => false

/-- The insertion numbers of the rows that were called for, in the order of the calls. -/
def called (log : List NetEvent) : List ℕ := (log.filter (·.isCall)).map (·.row.serial)

/-- The entry leaves its row in a state from which it must not be delivered again. -/
def NetEvent.settles : NetEvent → Bool
  | .call .. => false
  | .returned _ _ _ (.ok _) => true
  | .returned _ _ request (.error e) => !request.isPatch && e.failureClass == .uncertain
  | .cut .. => true

/-- Some entry of the log settles the row with insertion number `n`. -/
def Settled (log : List NetEvent) (n : ℕ) : Prop := ∃ x ∈ log, x.settles = true ∧ x.row.serial = n

theorem called_append_call (log : List NetEvent) (row : Row OutboxRow) (operation : OutboxOperation)
    (request : OutboundRequest) (durable : Option OutboxState) :
    called (log ++ [.call row operation request durable]) = called log ++ [row.serial] := by
  simp [called, NetEvent.isCall, NetEvent.row]

variable {x : NetEvent}

theorem called_append_of_not_call (log : List NetEvent) (h : x.isCall = false) :
    called (log ++ [x]) = called log := by
  simp [called, h]

theorem settled_append {log : List NetEvent} {n : ℕ} :
    Settled (log ++ [x]) n ↔ Settled log n ∨ x.settles = true ∧ x.row.serial = n := by
  simp [Settled, or_and_right, exists_or]

/-! ## The pump's copies -/

/-- The copies that are still to be delivered or released. -/
def Phase.queue : Phase → List (Row OutboxRow)
  | .batch rest => rest
  | .lookup row _ _ rest | .sending row _ _ rest | .releasing _ row rest => row :: rest
  | .receipt _ _ _ rest | .backoff _ _ _ rest => rest
  | _ => []

/-- The row whose receipt is being written. -/
def Phase.current : Phase → Option (Row OutboxRow × ReceiptWrite)
  | .receipt row write _ _ | .backoff row write _ _ => some (row, write)
  | _ => none

/-- The row whose delivery call is under way. -/
def Phase.inFlight : Phase → Option (Row OutboxRow)
  | .sending row .. => some row
  | _ => none

/-- The queued copies may still be delivered. -/
def Phase.delivers : Phase → Bool
  | .releasing .. => false
  | _ => true

/-- The clock reading inside the pending store request. -/
def Phase.readAt : Phase → Option ℤ
  | .claiming now | .releasing now _ _ => some now
  | _ => none

/-- Rows due by now are in order; while a claim is under way "now" is the claim's reading of the clock. -/
def horizon (clock : ℤ) : Phase → ℤ
  | .claiming now => now
  | _ => clock

/-- The write puts its row back to `pending`, and the later live rows behind it. -/
def ReceiptWrite.parks : ReceiptWrite → Bool
  | .failAndDefer attempts _ => attempts < storeOutboxMaxAttempts
  | .fallback _ => true
  | _ => false

/-- The row a copy was taken from is in the table and durably `sending`. -/
def Claimed (t : OutboxTable) (copy : Row OutboxRow) : Prop :=
  ∃ r ∈ t.rows, r.id = copy.id ∧ r.serial = copy.serial ∧ r.val.state = .sending

variable {t : OutboxTable} {r : Row OutboxRow}

theorem Claimed.row_of_id {copy : Row OutboxRow} (h : Claimed t copy) (hr : r ∈ t.rows) (hid : r.id = copy.id) :
    r.serial = copy.serial ∧ r.val.state = .sending := by
  obtain ⟨r₀, hr₀, hid₀, hs₀, hstate⟩ := h
  rw [Table.eq_of_id hr hr₀ (hid.trans hid₀.symm)]
  exact ⟨hs₀, hstate⟩

/-- **The invariant.** -/
structure Fifo (s : System) : Prop where
  sorted : (called s.log).Pairwise (· ≤ ·)
  called_lt : ∀ n ∈ called s.log, n < s.writer.db.nextSerial
  called_le_pending : ∀ n ∈ called s.log, ∀ r ∈ s.writer.db.rows, r.val.state = .pending → n ≤ r.serial
  called_le_queue : ∀ n ∈ called s.log, ∀ r ∈ s.phase.queue, n ≤ r.serial
  queue_sorted : s.phase.queue.Pairwise fun r q => r.serial < q.serial
  queue_claimed : ∀ r ∈ s.phase.queue, Claimed s.writer.db r
  queue_lt_pending : s.phase.delivers = true → ∀ r ∈ s.phase.queue, ∀ p ∈ s.writer.db.rows,
    p.val.state = .pending → r.serial < p.serial
  queue_open : ∀ r ∈ s.phase.queue, ¬Settled s.log r.serial
  current_ge : ∀ p ∈ s.phase.current, ∀ n ∈ called s.log, n ≤ p.1.serial
  current_lt : ∀ p ∈ s.phase.current, ∀ r ∈ s.phase.queue, p.1.serial < r.serial
  current_claimed : ∀ p ∈ s.phase.current, s.writer.alive = true → Claimed s.writer.db p.1
  current_open : ∀ p ∈ s.phase.current, Settled s.log p.1.serial → p.2.parks = false
  pending_open : ∀ r ∈ s.writer.db.rows, r.val.state = .pending → ¬Settled s.log r.serial
  retry_order : ∀ r ∈ s.writer.db.rows, ∀ q ∈ s.writer.db.rows, r.val.live = true → q.val.live = true →
    r.serial < q.serial → r.val.nextRetryMs ≤ max q.val.nextRetryMs (horizon s.clock s.phase)
  sending_due : ∀ r ∈ s.writer.db.rows, r.val.state = .sending → r.val.nextRetryMs ≤ s.clock
  readAt_le : ∀ now ∈ s.phase.readAt, now ≤ s.clock
  settled_called : ∀ n, Settled s.log n → n ∈ called s.log
  inFlight_called : ∀ row ∈ s.phase.inFlight, row.serial ∈ called s.log
  quiet : s.log.Pairwise fun x y => x.settles = true → y.isCall = true → y.row.serial ≠ x.row.serial
  durable : ∀ row operation request state, .call row operation request state ∈ s.log → state = some .sending

variable {s : System}

theorem horizon_le (h : Fifo s) : horizon s.clock s.phase ≤ s.clock := by
  have := h.readAt_le
  cases hp : s.phase <;> simp only [horizon, le_refl]
  case claiming now => exact this now (by simp [hp, Phase.readAt])

theorem initial_fifo (clock : ℤ) : Fifo (initial clock) := by
  constructor <;>
    simp [initial, called, Table.empty, Phase.queue, Phase.current, Phase.readAt, Phase.inFlight, Settled]

/-! ## Steps that leave the table alone -/

variable {p : Phase}

/-- The pump moves to a phase that holds fewer copies. -/
theorem Fifo.rephase (h : Fifo s) (hq : p.queue.Sublist s.phase.queue)
    (hd : p.delivers = true → s.phase.delivers = true ∨ p.queue = [])
    (hc : ∀ c ∈ p.current, (∀ n ∈ called s.log, n ≤ c.1.serial) ∧ (∀ r ∈ p.queue, c.1.serial < r.serial) ∧
      (s.writer.alive = true → Claimed s.writer.db c.1) ∧ (Settled s.log c.1.serial → c.2.parks = false))
    (hr : ∀ now ∈ p.readAt, now ≤ s.clock) (hh : horizon s.clock s.phase ≤ horizon s.clock p)
    (hi : ∀ row ∈ p.inFlight, row.serial ∈ called s.log) : Fifo { s with phase := p } where
  sorted := h.sorted
  called_lt := h.called_lt
  called_le_pending := h.called_le_pending
  called_le_queue := fun n hn r hr => h.called_le_queue n hn r (hq.subset hr)
  queue_sorted := h.queue_sorted.sublist hq
  queue_claimed := fun r hr => h.queue_claimed r (hq.subset hr)
  queue_lt_pending := by
    intro hp r hr
    rcases hd hp with hd | hd
    · exact h.queue_lt_pending hd r (hq.subset hr)
    · exact absurd (show r ∈ p.queue from hr) (by simp [hd])
  queue_open := fun r hr => h.queue_open r (hq.subset hr)
  current_ge := fun c hc' => (hc c hc').1
  current_lt := fun c hc' => (hc c hc').2.1
  current_claimed := fun c hc' => (hc c hc').2.2.1
  current_open := fun c hc' => (hc c hc').2.2.2
  pending_open := h.pending_open
  retry_order := fun r hr q hq hl hl' hlt =>
    (h.retry_order r hr q hq hl hl' hlt).trans (max_le_max_left _ hh)
  sending_due := h.sending_due
  readAt_le := hr
  settled_called := h.settled_called
  inFlight_called := hi
  quiet := h.quiet
  durable := h.durable

variable {row : Row OutboxRow} {rest : List (Row OutboxRow)}

/-- The first queued copy becomes the row of a receipt. -/
theorem Fifo.record (h : Fifo s) (hq : s.phase.queue = row :: rest) (hd : s.phase.delivers = true) (w : ReceiptWrite) :
    Fifo (s.record row w rest) := by
  have hrow : row ∈ s.phase.queue := by simp [hq]
  have hsorted := h.queue_sorted
  rw [hq, List.pairwise_cons] at hsorted
  refine h.rephase (by rw [hq]; exact List.sublist_cons_self _ _) (fun _ => .inl hd) ?_ (by simp [Phase.readAt])
    (horizon_le h) (by simp [Phase.inFlight])
  intro c hc
  simp only [Phase.current, Option.mem_def, Option.some.injEq] at hc
  subst hc
  exact ⟨fun n hn => h.called_le_queue n hn row hrow, hsorted.1, fun _ => h.queue_claimed row hrow,
    fun hs => absurd hs (h.queue_open row hrow)⟩

theorem durableState_of_claimed (h : Claimed t row) :
    durableState t row = some .sending := by
  obtain ⟨r, hr, hid, hs, hstate⟩ := h
  simp [durableState, Table.get?_eq_some.2 ⟨hr, hid⟩, hs, hstate]

/-- A delivery call for the first queued copy. -/
theorem Fifo.call (h : Fifo s) (hq : s.phase.queue = row :: rest) (hd : s.phase.delivers = true)
    (operation : OutboxOperation) (request : OutboundRequest) : Fifo (s.call row operation request rest) := by
  have hrow : row ∈ s.phase.queue := by simp [hq]
  have hlog : called (s.call row operation request rest).log = called s.log ++ [row.serial] :=
    called_append_call _ _ _ _ _
  have hset : ∀ n, Settled (s.call row operation request rest).log n ↔ Settled s.log n := by
    intro n
    exact settled_append.trans (by simp [NetEvent.settles])
  have hsorted := h.queue_sorted
  rw [hq, List.pairwise_cons] at hsorted
  have hqueue : (s.call row operation request rest).phase.queue = s.phase.queue := by
    rw [hq]; rfl
  constructor
  · rw [hlog, List.pairwise_append]
    refine ⟨h.sorted, List.pairwise_singleton _ _, fun n hn m hm => ?_⟩
    rw [List.mem_singleton.1 hm]
    exact h.called_le_queue n hn row hrow
  · intro n hn
    rw [hlog, List.mem_append, List.mem_singleton] at hn
    rcases hn with hn | rfl
    · exact h.called_lt n hn
    · obtain ⟨r, hr, -, hs, -⟩ := h.queue_claimed row hrow
      exact hs ▸ s.writer.db.serial_lt_next r hr
  · intro n hn r hr hp
    rw [hlog, List.mem_append, List.mem_singleton] at hn
    rcases hn with hn | rfl
    · exact h.called_le_pending n hn r hr hp
    · exact (h.queue_lt_pending hd row hrow r hr hp).le
  · intro n hn r hr
    rw [hqueue] at hr
    rw [hlog, List.mem_append, List.mem_singleton] at hn
    rcases hn with hn | rfl
    · exact h.called_le_queue n hn r hr
    · rcases List.mem_cons.1 (hq ▸ hr) with rfl | hr
      · exact le_rfl
      · exact (hsorted.1 r hr).le
  · rw [hqueue]; exact h.queue_sorted
  · rw [hqueue]; exact h.queue_claimed
  · rw [hqueue]; exact fun _ => h.queue_lt_pending hd
  · intro r hr
    rw [hset]
    exact h.queue_open r (hqueue ▸ hr)
  · simp [System.call, Phase.current]
  · simp [System.call, Phase.current]
  · simp [System.call, Phase.current]
  · simp [System.call, Phase.current]
  · intro r hr hp
    rw [hset]
    exact h.pending_open r hr hp
  · intro r hr q hq' hl hl' hlt
    exact (h.retry_order r hr q hq' hl hl' hlt).trans (max_le_max_left _ (horizon_le h))
  · exact h.sending_due
  · simp [System.call, Phase.readAt]
  · intro n hn
    rw [hlog]
    exact List.mem_append_left _ (h.settled_called n ((hset n).1 hn))
  · intro r hr
    rw [hlog]
    simp only [System.call, Phase.inFlight, Option.mem_def, Option.some.injEq] at hr
    simp [hr]
  · refine List.pairwise_append.2 ⟨h.quiet, List.pairwise_singleton _ _, fun x hx y hy hxs _ => ?_⟩
    rw [List.mem_singleton.1 hy]
    exact fun heq => h.queue_open row hrow ⟨x, hx, hxs, heq.symm⟩
  · intro r op req state hmem
    rcases List.mem_append.1 hmem with hmem | hmem
    · exact h.durable r op req state hmem
    · cases List.mem_singleton.1 hmem
      exact durableState_of_claimed (h.queue_claimed row hrow)

/-- The call in flight ends with an entry `x`; its row leaves the queue. -/
theorem Fifo.note (h : Fifo s) (hq : s.phase.queue = row :: rest) (hf : s.phase.inFlight = some row)
    (hd : s.phase.delivers = true) (hx : x.isCall = false) (hxr : x.row = row) :
    Fifo { s with log := s.log ++ [x], phase := .batch rest } := by
  have hrow : row ∈ s.phase.queue := by simp [hq]
  have hsub : rest.Sublist s.phase.queue := by rw [hq]; exact List.sublist_cons_self _ _
  have hlog : called (s.log ++ [x]) = called s.log := called_append_of_not_call _ hx
  have hsorted := h.queue_sorted
  rw [hq, List.pairwise_cons] at hsorted
  obtain ⟨r₀, hr₀, -, hs₀, hstate₀⟩ := h.queue_claimed row hrow
  have hset : ∀ n, n ≠ row.serial → Settled (s.log ++ [x]) n → Settled s.log n := by
    intro n hn hs
    rcases settled_append.1 hs with hs | ⟨-, hs⟩
    · exact hs
    · exact absurd (hxr ▸ hs).symm hn
  constructor
  · exact hlog ▸ h.sorted
  · exact hlog ▸ h.called_lt
  · exact hlog ▸ h.called_le_pending
  · intro n hn r hr
    exact h.called_le_queue n (hlog ▸ hn) r (hsub.subset hr)
  · exact h.queue_sorted.sublist hsub
  · exact fun r hr => h.queue_claimed r (hsub.subset hr)
  · exact fun _ r hr => h.queue_lt_pending hd r (hsub.subset hr)
  · intro r hr hs
    exact h.queue_open r (hsub.subset hr) (hset _ (hsorted.1 r hr).ne' hs)
  · simp [Phase.current]
  · simp [Phase.current]
  · simp [Phase.current]
  · simp [Phase.current]
  · intro r hr hp hs
    -- the row in flight is `sending`, so it is none of the pending ones
    have hne : r.serial ≠ row.serial := by
      intro heq
      rw [Table.eq_of_serial hr hr₀ (heq.trans hs₀.symm), hstate₀] at hp
      cases hp
    exact h.pending_open r hr hp (hset _ hne hs)
  · intro r hr q hq' hl hl' hlt
    exact (h.retry_order r hr q hq' hl hl' hlt).trans (max_le_max_left _ (horizon_le h))
  · exact h.sending_due
  · simp [Phase.readAt]
  · intro n hn
    rw [hlog]
    rcases settled_append.1 hn with hn | ⟨-, hn⟩
    · exact h.settled_called n hn
    · rw [← hn, hxr]; exact h.inFlight_called row (by simp [hf])
  · simp [Phase.inFlight]
  · refine List.pairwise_append.2 ⟨h.quiet, List.pairwise_singleton _ _, fun y _ z hz _ hzc => ?_⟩
    rw [List.mem_singleton.1 hz, hx] at hzc
    cases hzc
  · intro r op req state hmem
    rcases List.mem_append.1 hmem with hmem | hmem
    · exact h.durable r op req state hmem
    · rw [← List.mem_singleton.1 hmem] at hx
      cases hx

/-- Connection and shutdown flags play no part. -/
theorem Fifo.congr {s' : System} (h : Fifo s) (hw : s'.writer = s.writer) (hc : s'.clock = s.clock)
    (hp : s'.phase = s.phase) (hl : s'.log = s.log) : Fifo s' := by
  obtain ⟨w, c, k, d, p, l⟩ := s'
  simp only at hw hc hp hl
  subst hw hc hp hl
  exact ⟨h.sorted, h.called_lt, h.called_le_pending, h.called_le_queue, h.queue_sorted, h.queue_claimed,
    h.queue_lt_pending, h.queue_open, h.current_ge, h.current_lt, h.current_claimed, h.current_open,
    h.pending_open, h.retry_order, h.sending_due, h.readAt_le, h.settled_called, h.inFlight_called, h.quiet, h.durable⟩

/-- The writer stops, or starts where no receipt is being written. -/
theorem Fifo.setAlive (h : Fifo s) {b : Bool} (hb : b = true → s.writer.alive = true ∨ s.phase.current = none) :
    Fifo { s with writer := { s.writer with alive := b } } where
  sorted := h.sorted
  called_lt := h.called_lt
  called_le_pending := h.called_le_pending
  called_le_queue := h.called_le_queue
  queue_sorted := h.queue_sorted
  queue_claimed := h.queue_claimed
  queue_lt_pending := h.queue_lt_pending
  queue_open := h.queue_open
  current_ge := h.current_ge
  current_lt := h.current_lt
  current_claimed := by
    intro p hp ha
    rcases hb ha with ha | hn
    · exact h.current_claimed p hp ha
    · exact absurd (show p ∈ s.phase.current from hp) (by simp [hn])
  current_open := h.current_open
  pending_open := h.pending_open
  retry_order := h.retry_order
  sending_due := h.sending_due
  readAt_le := h.readAt_le
  settled_called := h.settled_called
  inFlight_called := h.inFlight_called
  quiet := h.quiet
  durable := h.durable

variable {now retryMs : ℤ} {f : Row OutboxRow → OutboxRow} {q : Row OutboxRow} {rows : List (Row OutboxRow)}
  {w : ReceiptWrite} {g : OutboxRow → OutboxRow}

section

variable (h : Fifo s)
include h

theorem Fifo.tick (hn : s.clock ≤ now) : Fifo { s with clock := now } where
  sorted := h.sorted
  called_lt := h.called_lt
  called_le_pending := h.called_le_pending
  called_le_queue := h.called_le_queue
  queue_sorted := h.queue_sorted
  queue_claimed := h.queue_claimed
  queue_lt_pending := h.queue_lt_pending
  queue_open := h.queue_open
  current_ge := h.current_ge
  current_lt := h.current_lt
  current_claimed := h.current_claimed
  current_open := h.current_open
  pending_open := h.pending_open
  retry_order := by
    intro r hr q hq hl hl' hlt
    refine (h.retry_order r hr q hq hl hl' hlt).trans (max_le_max_left _ ?_)
    cases s.phase <;> simp [horizon, hn]
  sending_due := fun r hr hs => (h.sending_due r hr hs).trans hn
  readAt_le := fun t ht => (h.readAt_le t ht).trans hn
  settled_called := h.settled_called
  inFlight_called := h.inFlight_called
  quiet := h.quiet
  durable := h.durable

/-! ## Jobs of other tasks -/

theorem Fifo.grows (hg : Grows s.writer.db t) :
    Fifo { s with writer := { s.writer with db := t } } := by
  have hclaimed : ∀ r, Claimed s.writer.db r → Claimed t r := by
    rintro r ⟨r', hr', hid, hs, hstate⟩
    exact ⟨r', hg.live_kept r' hr' (live_of_sending hstate), hid, hs, hstate⟩
  have hnew : ∀ n ∈ called s.log, n < s.writer.db.nextSerial := h.called_lt
  -- a row that is not new keeps what the invariant says of it
  have hold : ∀ r ∈ t.rows, r ∈ s.writer.db.rows ∨ s.writer.db.nextSerial ≤ r.serial := fun r hr =>
    (hg.old_or_new r hr).imp_right (·.1)
  constructor
  · exact h.sorted
  · exact fun n hn => (h.called_lt n hn).trans_le hg.nextSerial_le
  · intro n hn r hr hp
    rcases hold r hr with hr | hr
    · exact h.called_le_pending n hn r hr hp
    · exact (hnew n hn).le.trans hr
  · exact h.called_le_queue
  · exact h.queue_sorted
  · exact fun r hr => hclaimed r (h.queue_claimed r hr)
  · intro hd r hr p hp hstate
    rcases hold p hp with hp | hp
    · exact h.queue_lt_pending hd r hr p hp hstate
    · obtain ⟨r', hr', -, hs, -⟩ := h.queue_claimed r hr
      exact (hs ▸ s.writer.db.serial_lt_next r' hr').trans_le hp
  · exact h.queue_open
  · exact h.current_ge
  · exact h.current_lt
  · exact fun p hp ha => hclaimed _ (h.current_claimed p hp ha)
  · exact h.current_open
  · intro r hr hp hs
    rcases hold r hr with hr | hr
    · exact h.pending_open r hr hp hs
    · exact absurd (hnew _ (h.settled_called _ hs)) hr.not_gt
  · intro r hr q hq hl hl' hlt
    rcases hg.old_or_new q hq with hq' | ⟨-, -, hqn⟩
    · rcases hold r hr with hr' | hr'
      · exact h.retry_order r hr' q hq' hl hl' hlt
      · exact absurd (s.writer.db.serial_lt_next q hq') (hr'.trans hlt.le).not_gt
    · exact (hqn r hr hl hlt).trans (le_max_left _ _)
  · intro r hr hs
    rcases hg.old_or_new r hr with hr | ⟨-, hp, -⟩
    · exact h.sending_due r hr hs
    · rw [hp] at hs; cases hs
  · exact h.readAt_le
  · exact h.settled_called
  · exact h.inFlight_called
  · exact h.quiet
  · exact h.durable

/-! ## Jobs of the pump -/

/-- The pump's job rewrites the columns by `f`, and the pump goes on in a phase without a receipt. -/
theorem Fifo.rewrite (hm : Table.Maps f s.writer.db t) (hc : p.current = none) (hi : p.inFlight = none)
    (hh : horizon s.clock p = s.clock) (hread : ∀ now ∈ p.readAt, now ≤ s.clock)
    (hqueue : ∀ q ∈ p.queue, (∀ n ∈ called s.log, n ≤ q.serial) ∧ ¬Settled s.log q.serial ∧
      ∃ r ∈ s.writer.db.rows, r.id = q.id ∧ r.serial = q.serial ∧ (f r).state = .sending)
    (hsorted : p.queue.Pairwise fun r q => r.serial < q.serial)
    (hlt : p.delivers = true → ∀ q ∈ p.queue, ∀ r ∈ s.writer.db.rows, (f r).state = .pending → q.serial < r.serial)
    (hpending : ∀ r ∈ s.writer.db.rows, (f r).state = .pending →
      (∀ n ∈ called s.log, n ≤ r.serial) ∧ ¬Settled s.log r.serial)
    (hsending : ∀ r ∈ s.writer.db.rows, (f r).state = .sending → (f r).nextRetryMs ≤ s.clock)
    (horder : ∀ r ∈ s.writer.db.rows, ∀ q ∈ s.writer.db.rows, (f r).live = true → (f q).live = true →
      r.serial < q.serial → (f r).nextRetryMs ≤ max (f q).nextRetryMs s.clock) :
    Fifo { s with writer := { s.writer with db := t }, phase := p } where
  sorted := h.sorted
  called_lt := fun n hn => hm.nextSerial_eq ▸ h.called_lt n hn
  called_le_pending := by
    intro n hn r' hr' hp
    obtain ⟨r, hr, rfl⟩ := hm.mem.1 hr'
    exact (hpending r hr hp).1 n hn
  called_le_queue := fun n hn q hq => (hqueue q hq).1 n hn
  queue_sorted := hsorted
  queue_claimed := by
    intro q hq
    obtain ⟨-, -, r, hr, hid, hs, hstate⟩ := hqueue q hq
    exact ⟨_, hm.mem.2 ⟨r, hr, rfl⟩, hid, hs, hstate⟩
  queue_lt_pending := by
    intro hd q hq r' hr' hp
    obtain ⟨r, hr, rfl⟩ := hm.mem.1 hr'
    exact hlt hd q hq r hr hp
  queue_open := fun q hq => (hqueue q hq).2.1
  current_ge := by simp [hc]
  current_lt := by simp [hc]
  current_claimed := by simp [hc]
  current_open := by simp [hc]
  pending_open := by
    intro r' hr' hp
    obtain ⟨r, hr, rfl⟩ := hm.mem.1 hr'
    exact (hpending r hr hp).2
  retry_order := by
    intro r' hr' q' hq' hl hl' hlt'
    obtain ⟨r, hr, rfl⟩ := hm.mem.1 hr'
    obtain ⟨q, hq, rfl⟩ := hm.mem.1 hq'
    rw [hh]
    exact horder r hr q hq hl hl' hlt'
  sending_due := by
    intro r' hr' hs
    obtain ⟨r, hr, rfl⟩ := hm.mem.1 hr'
    exact hsending r hr hs
  readAt_le := hread
  settled_called := h.settled_called
  inFlight_called := by simp [hi]
  quiet := h.quiet
  durable := h.durable

theorem Fifo.retry_order_clock (hr : r ∈ s.writer.db.rows) (hq : q ∈ s.writer.db.rows)
    (hl : r.val.live = true) (hl' : q.val.live = true) (hlt : r.serial < q.serial) :
    r.val.nextRetryMs ≤ max q.val.nextRetryMs s.clock :=
  (h.retry_order r hr q hq hl hl' hlt).trans (max_le_max_left _ (horizon_le h))

theorem Fifo.due_before_sending (hr : r ∈ s.writer.db.rows) (hq : q ∈ s.writer.db.rows)
    (hl : r.val.live = true) (hs : q.val.state = .sending) (hlt : r.serial < q.serial) :
    r.val.nextRetryMs ≤ s.clock :=
  (h.retry_order_clock hr hq hl (live_of_sending hs) hlt).trans (max_le (h.sending_due q hq hs) le_rfl)

theorem Fifo.pending_fresh (hr : r ∈ s.writer.db.rows) (hp : r.val.state = .pending) :
    (∀ n ∈ called s.log, n ≤ r.serial) ∧ ¬Settled s.log r.serial :=
  ⟨fun n hn => h.called_le_pending n hn r hr hp, h.pending_open r hr hp⟩

/-- The copies behind the row of a receipt stay queued when another row is rewritten. -/
theorem Fifo.queue_kept (hsub : rest.Sublist s.phase.queue)
    (hf : ∀ q ∈ rest, ∀ r ∈ s.writer.db.rows, r.id = q.id → r.serial = q.serial → f r = r.val) :
    ∀ q ∈ rest, (∀ n ∈ called s.log, n ≤ q.serial) ∧ ¬Settled s.log q.serial ∧
      ∃ r ∈ s.writer.db.rows, r.id = q.id ∧ r.serial = q.serial ∧ (f r).state = .sending := by
  intro q hq
  have hq' := hsub.subset hq
  obtain ⟨r, hr, hid, hs, hstate⟩ := h.queue_claimed q hq'
  refine ⟨fun n hn => h.called_le_queue n hn q hq', h.queue_open q hq', r, hr, hid, hs, ?_⟩
  rw [hf q hq r hr hid hs, hstate]

end

theorem mem_of_prefix_of_lt {all : List (Row OutboxRow)} (hs : all.Pairwise fun r q => r.serial < q.serial)
    (hpre : rows <+: all) {p : Row OutboxRow} (hr : r ∈ rows) (hp : p ∈ all) (hlt : p.serial < r.serial) :
    p ∈ rows := by
  obtain ⟨tail, rfl⟩ := hpre
  rcases List.mem_append.1 hp with hp | hp
  · exact hp
  · have := (List.pairwise_append.1 hs).2.2 r hr p hp
    omega

/-- A receipt makes its row terminal. -/
theorem Fifo.retire (h : Fifo s) (hcur : s.phase.current = some (row, w)) (hd : s.phase.delivers = true)
    (hcl : Claimed s.writer.db row) (hg : ∀ a, (g a).live = false) (hm : Table.Maps (setRow row.id g) s.writer.db t) :
    Fifo { s with writer := { s.writer with db := t }, phase := .batch s.phase.queue } := by
  have hne : ∀ r : Row OutboxRow, (setRow row.id g r).live = true → setRow row.id g r = r.val := by
    intro r hl
    by_cases hid : r.id = row.id
    · simp [setRow, hid, hg] at hl
    · simp [setRow, hid]
  refine h.rewrite hm rfl rfl rfl (by simp [Phase.readAt]) ?_ h.queue_sorted ?_ ?_ ?_ ?_
  · refine h.queue_kept (List.Sublist.refl _) fun q hq r hr hid hs => ?_
    have hlt : row.serial < q.serial := h.current_lt (row, w) (by simp [hcur]) q hq
    have hne : r.id ≠ row.id := by
      intro heq
      have := (hcl.row_of_id hr heq).1
      omega
    simp [setRow, hne]
  · intro _ q hq r hr hp
    rw [hne r (live_of_pending hp)] at hp
    exact h.queue_lt_pending hd q hq r hr hp
  · intro r hr hp
    rw [hne r (live_of_pending hp)] at hp
    exact h.pending_fresh hr hp
  · intro r hr hs
    have he := hne r (live_of_sending hs)
    rw [he] at hs ⊢
    exact h.sending_due r hr hs
  · intro r hr q hq hl hl' hlt
    have he := hne r hl
    have he' := hne q hl'
    rw [he] at hl ⊢
    rw [he'] at hl' ⊢
    exact h.retry_order_clock hr hq hl hl' hlt

theorem le_parkRow {now retryMs : ℤ} {r : OutboxRow} :
    retryMs ≤ (parkRow now retryMs r).nextRetryMs ∧ r.nextRetryMs ≤ (parkRow now retryMs r).nextRetryMs ∧
      (parkRow now retryMs r).nextRetryMs ≤ max r.nextRetryMs retryMs := by
  simp only [parkRow]
  split <;> omega

/-- A receipt parks its row and the later live rows; the pump drops its copies of them. -/
theorem Fifo.park (h : Fifo s) (hcur : s.phase.current = some (row, w)) (hw : w.parks = true)
    (hcl : Claimed s.writer.db row) (hg : ∀ a, (g a).state = .pending ∧ (g a).nextRetryMs = retryMs)
    (hm : Table.Maps (setAndPark now retryMs row.id g) s.writer.db t) :
    Fifo { s with writer := { s.writer with db := t }, phase := .idle } := by
  have hge : ∀ n ∈ called s.log, n ≤ row.serial := h.current_ge (row, w) (by simp [hcur])
  have hopen : ¬Settled s.log row.serial := by
    intro hs
    have := h.current_open (row, w) (by simp [hcur]) hs
    rw [hw] at this
    cases this
  obtain ⟨r₀, hr₀, hid₀, hs₀, hstate₀⟩ := hcl
  have hlater : ∀ r ∈ s.writer.db.rows, row.id < r.id ↔ row.serial < r.serial := by
    intro r hr
    rw [← hid₀, ← hs₀]
    exact Table.id_lt_iff hr₀ hr
  -- the three kinds of rows
  have hself : ∀ r : Row OutboxRow, r.id = row.id → setAndPark now retryMs row.id g r = g r.val := by
    intro r hid; simp [setAndPark, hid]
  have hpark : ∀ r : Row OutboxRow, row.id < r.id → r.val.live = true →
      setAndPark now retryMs row.id g r = parkRow now retryMs r.val := by
    intro r hid hl; simp [setAndPark, hid, hl, hid.ne']
  have hkeep : ∀ r : Row OutboxRow, r.id < row.id ∨ row.id < r.id ∧ r.val.live = false →
      setAndPark now retryMs row.id g r = r.val := by
    intro r hr
    rcases hr with hr | ⟨hr, hl⟩
    · simp [setAndPark, hr.ne, hr.not_gt]
    · simp [setAndPark, hr.ne', hl]
  have hkind : ∀ r : Row OutboxRow, r.id = row.id ∨ (row.id < r.id ∧ r.val.live = true) ∨
      (r.id < row.id ∨ row.id < r.id ∧ r.val.live = false) := by
    intro r
    cases r.val.live <;> simp <;> omega
  refine h.rewrite hm rfl rfl rfl (by simp [Phase.readAt]) (by simp [Phase.queue]) List.Pairwise.nil
    (by simp [Phase.queue]) ?_ ?_ ?_
  · intro r hr hp
    rcases hkind r with hid | ⟨hid, hl⟩ | hk
    · rw [Table.eq_of_id hr hr₀ (hid.trans hid₀.symm), hs₀]
      exact ⟨hge, hopen⟩
    · have hlt := (hlater r hr).1 hid
      refine ⟨fun n hn => (hge n hn).trans hlt.le, fun hs => ?_⟩
      have := hge _ (h.settled_called _ hs)
      omega
    · rw [hkeep r hk] at hp
      exact h.pending_fresh hr hp
  · intro r hr hs
    rcases hkind r with hid | ⟨hid, hl⟩ | hk
    · rw [hself r hid, (hg _).1] at hs; cases hs
    · rw [hpark r hid hl] at hs; cases hs
    · rw [hkeep r hk] at hs ⊢
      exact h.sending_due r hr hs
  · intro r hr q hq hl hl' hlt
    have hlt' : r.id < q.id := (Table.id_lt_iff hr hq).2 hlt
    rcases hkind q with hid | ⟨hid, hlq⟩ | hk
    · -- rows before the parked one are due already
      have hr' : r.id < row.id := hid ▸ hlt'
      rw [hkeep r (.inl hr')] at hl ⊢
      have hq₀ := Table.eq_of_id hq hr₀ (hid.trans hid₀.symm)
      exact (h.due_before_sending hr hr₀ hl hstate₀ (hq₀ ▸ hlt)).trans (le_max_right _ _)
    · rw [hpark q hid hlq]
      obtain ⟨hge₁, hge₂, -⟩ := @le_parkRow now retryMs q.val
      rcases hkind r with hidr | ⟨hidr, hlr⟩ | hkr
      · rw [hself r hidr, (hg _).2]
        exact hge₁.trans (le_max_left _ _)
      · rw [hpark r hidr hlr]
        have hle := (@le_parkRow now retryMs r.val).2.2
        have hord := h.retry_order_clock hr hq hlr hlq hlt
        omega
      · rw [hkeep r hkr] at hl ⊢
        have hord := h.retry_order_clock hr hq hl hlq hlt
        omega
    · rcases hk with hk | ⟨hid, hk⟩
      · rw [hkeep q (.inl hk)] at hl' ⊢
        rw [hkeep r (.inl (hlt'.trans hk))] at hl ⊢
        exact h.retry_order_clock hr hq hl hl' hlt
      · rw [hkeep q (.inr ⟨hid, hk⟩), hk] at hl'
        cases hl'

/-- The first row of an unsent tail goes back to `pending`. -/
theorem Fifo.release (h : Fifo s) (hq : s.phase.queue = row :: rest) (hr : retryMs ≤ s.clock)
    (hm : Table.Maps (setRow row.id fun r => { r with state := .pending, nextRetryMs := retryMs, updatedMs := now })
      s.writer.db t) (hpq : p.queue = rest) (hd : p.delivers = true → rest = []) (hc : p.current = none)
    (hi : p.inFlight = none) (hh : horizon s.clock p = s.clock) (hread : ∀ now ∈ p.readAt, now ≤ s.clock) :
    Fifo { s with writer := { s.writer with db := t }, phase := p } := by
  have hrow : row ∈ s.phase.queue := by simp [hq]
  have hcl := h.queue_claimed row hrow
  have hsub : rest.Sublist s.phase.queue := by rw [hq]; exact List.sublist_cons_self _ _
  have hsorted := h.queue_sorted
  rw [hq, List.pairwise_cons] at hsorted
  have hlive : ∀ r : Row OutboxRow, r.id ≠ row.id →
      setRow row.id (fun r => { r with state := .pending, nextRetryMs := retryMs, updatedMs := now }) r = r.val := by
    intro r hid; simp [setRow, hid]
  refine h.rewrite hm hc hi hh hread ?_ (hpq ▸ hsorted.2) ?_ ?_ ?_ ?_
  · rw [hpq]
    refine h.queue_kept hsub fun q hq r hr hid hs => hlive r ?_
    intro heq
    have := (hcl.row_of_id hr heq).1
    have := hsorted.1 q hq
    omega
  · intro hd' q hq'
    rw [hpq, hd hd'] at hq'
    cases hq'
  · intro r hr hp
    by_cases hid : r.id = row.id
    · rw [(hcl.row_of_id hr hid).1]
      exact ⟨fun n hn => h.called_le_queue n hn row hrow, h.queue_open row hrow⟩
    · rw [hlive r hid] at hp
      exact h.pending_fresh hr hp
  · intro r hr hs
    by_cases hid : r.id = row.id
    · simp [setRow, hid] at hs
    · rw [hlive r hid] at hs ⊢
      exact h.sending_due r hr hs
  · intro r hr' q hq' hl hl' hlt
    by_cases hid : r.id = row.id
    · simp only [setRow, hid, if_true]
      exact hr.trans (le_max_right _ _)
    · rw [hlive r hid] at hl ⊢
      by_cases hid' : q.id = row.id
      · have := (hcl.row_of_id hq' hid').2
        exact (h.due_before_sending hr' hq' hl this hlt).trans (le_max_right _ _)
      · rw [hlive q hid'] at hl' ⊢
        exact h.retry_order_clock hr' hq' hl hl' hlt

/-- Claimed rows of an earlier process become uncertain. -/
theorem Fifo.recover (h : Fifo s) (hm : Table.Maps (recoverRow now) s.writer.db t) :
    Fifo { s with writer := { s.writer with db := t }, phase := .idle } := by
  have hkeep : ∀ r : Row OutboxRow, (recoverRow now r).live = true → recoverRow now r = r.val ∧ r.val.state = .pending := by
    intro r hl
    by_cases hs : r.val.state = .sending
    · simp [recoverRow, hs, OutboxRow.live] at hl
    · have he : recoverRow now r = r.val := by simp [recoverRow, hs]
      exact ⟨he, (live_iff.1 (he ▸ hl)).resolve_right hs⟩
  refine h.rewrite hm rfl rfl rfl (by simp [Phase.readAt]) (by simp [Phase.queue]) List.Pairwise.nil
    (by simp [Phase.queue]) ?_ ?_ ?_
  · intro r hr hp
    exact h.pending_fresh hr (hkeep r (live_of_pending hp)).2
  · intro r hr hs
    obtain ⟨he, hp⟩ := hkeep r (live_of_sending hs)
    rw [he, hp] at hs
    cases hs
  · intro r hr q hq hl hl' hlt
    obtain ⟨he, hp⟩ := hkeep r hl
    obtain ⟨he', hp'⟩ := hkeep q hl'
    rw [he, he']
    exact h.retry_order_clock hr hq (live_of_pending hp) (live_of_pending hp') hlt

/-- A claim takes the first due rows. Every pending row that is left comes after them: a row before a due one is due
itself, by the order of the retry times. -/
theorem Fifo.claim (h : Fifo s) {readAt : ℤ} (hp : s.phase = .claiming readAt)
    (hpre : rows <+: s.writer.db.rows.filter (due readAt)) (hm : Table.Maps (claimRow now rows) s.writer.db t) :
    Fifo { s with writer := { s.writer with db := t }, phase := .batch (rows.map claimed) } := by
  have hread : readAt ≤ s.clock := h.readAt_le readAt (by simp [hp, Phase.readAt])
  have hmem : ∀ r ∈ rows, r ∈ s.writer.db.rows ∧ r.val.state = .pending ∧ r.val.nextRetryMs ≤ readAt := by
    intro r hr
    obtain ⟨hr, hdue⟩ := List.mem_filter.1 (hpre.subset hr)
    exact ⟨hr, by simpa [due] using hdue⟩
  have hin : ∀ r ∈ rows, (claimRow now rows r).state = .sending := fun r hr => by simp [claimRow, hr, setSending]
  have hnext : ∀ r, (claimRow now rows r).nextRetryMs = r.val.nextRetryMs := by
    intro r; unfold claimRow; split <;> rfl
  have hout : ∀ r, (claimRow now rows r).state ≠ .sending → r ∉ rows ∧ claimRow now rows r = r.val := by
    intro r hs
    have hr : r ∉ rows := fun hr => hs (hin r hr)
    exact ⟨hr, by simp [claimRow, hr]⟩
  have hlive : ∀ r ∈ s.writer.db.rows, (claimRow now rows r).live = true → r.val.live = true := by
    intro r _ hl
    by_cases hr : r ∈ rows
    · exact live_of_pending (hmem r hr).2.1
    · simpa [claimRow, hr] using hl
  have hsorted : rows.Pairwise fun r q => r.serial < q.serial :=
    (s.writer.db.serial_lt.filter _).sublist hpre.sublist
  refine h.rewrite hm rfl rfl rfl (by simp [Phase.readAt]) ?_ (List.pairwise_map.2 hsorted) ?_ ?_ ?_ ?_
  · intro q hq
    obtain ⟨r, hr, rfl⟩ := List.mem_map.1 hq
    obtain ⟨hrt, hrp, -⟩ := hmem r hr
    exact ⟨(h.pending_fresh hrt hrp).1, (h.pending_fresh hrt hrp).2, r, hrt, rfl, rfl, hin r hr⟩
  · intro _ q hq p hpt hpp
    obtain ⟨r, hr, rfl⟩ := List.mem_map.1 hq
    obtain ⟨hpn, he⟩ := hout p (by rw [hpp]; simp)
    rw [he] at hpp
    obtain ⟨hrt, hrp, hrd⟩ := hmem r hr
    by_contra hle
    have hlt : p.serial < r.serial := by
      rcases Nat.lt_or_ge p.serial r.serial with hlt | hge
      · exact hlt
      · have heq : p.serial = r.serial := Nat.le_antisymm (Nat.le_of_not_lt hle) hge
        exact absurd (Table.eq_of_serial hpt hrt heq ▸ hr) hpn
    have hord := h.retry_order p hpt r hrt (live_of_pending hpp) (live_of_pending hrp) hlt
    simp only [hp, horizon] at hord
    have hdue : due readAt p = true := by
      simp only [due, decide_eq_true_eq]
      exact ⟨hpp, hord.trans (max_le hrd le_rfl)⟩
    exact hpn (mem_of_prefix_of_lt (s.writer.db.serial_lt.filter _) hpre hr (List.mem_filter.2 ⟨hpt, hdue⟩) hlt)
  · intro r hr hs
    obtain ⟨-, he⟩ := hout r (by rw [hs]; simp)
    rw [he] at hs
    exact h.pending_fresh hr hs
  · intro r hr hs
    rw [hnext]
    by_cases hrr : r ∈ rows
    · exact (hmem r hrr).2.2.trans hread
    · have he : claimRow now rows r = r.val := by simp [claimRow, hrr]
      exact h.sending_due r hr (he ▸ hs)
  · intro r hr q hq hl hl' hlt
    rw [hnext, hnext]
    exact h.retry_order_clock hr hq (hlive r hr hl) (hlive q hq hl') hlt

/-! ## One step -/

def ReceiptWrite.payload (old : String) : ReceiptWrite → String
  | .fallback payloadJson => payloadJson
  | _ => old

/-- A receipt write either parks its row with the later live ones, or makes its row terminal. -/
theorem ReceiptWrite.job_ok {id : ℕ} {t' : OutboxTable} {deferred : Bool} (h : w.job now id t = .ok (deferred, t')) :
    (∃ r ∈ t.rows, r.id = id ∧ r.val.state = .sending) ∧ deferred = w.parks ∧ ∃ g retryMs,
      (∀ a, (g a).idempotencyKey = a.idempotencyKey ∧ (g a).payloadJson = w.payload a.payloadJson) ∧
      (w.parks = true ∧ (∀ a, (g a).state = .pending ∧ (g a).nextRetryMs = retryMs) ∧
          Table.Maps (setAndPark now retryMs id g) t t' ∨
        w.parks = false ∧ (∀ a, (g a).live = false) ∧ Table.Maps (setRow id g) t t') := by
  cases w with
  | complete messageId =>
    obtain ⟨⟨u, t₁⟩, hj, he⟩ := map_eq_ok.1 h
    cases he
    obtain ⟨hr, hm⟩ := completeOutbox_ok hj
    refine ⟨hr, rfl, _, 0, ?_, .inr ⟨rfl, ?_, hm⟩⟩
    · exact fun _ => ⟨rfl, rfl⟩
    · exact fun _ => rfl
  | failUncertain attempts retryMs =>
    obtain ⟨⟨u, t₁⟩, hj, he⟩ := map_eq_ok.1 h
    cases he
    obtain ⟨hr, hm⟩ := failOutbox_ok hj
    refine ⟨hr, rfl, _, 0, ?_, .inr ⟨rfl, ?_, hm⟩⟩
    · exact fun _ => ⟨rfl, rfl⟩
    · exact fun _ => rfl
  | failAndDefer attempts retryMs =>
    obtain ⟨hr, hd, hm⟩ := failOutboxAndDeferSuccessors_ok h
    by_cases ha : attempts < storeOutboxMaxAttempts
    · rw [if_pos ha] at hm
      refine ⟨hr, hd, _, retryMs, ?_, .inl ⟨by simp [parks, ha], ?_, hm⟩⟩
      · exact fun _ => ⟨rfl, rfl⟩
      · exact fun _ => ⟨rfl, rfl⟩
    · rw [if_neg ha] at hm
      refine ⟨hr, hd, _, retryMs, ?_, .inr ⟨by simp [parks, ha], ?_, hm⟩⟩
      · exact fun _ => ⟨rfl, rfl⟩
      · exact fun _ => rfl
  | failTerminal =>
    obtain ⟨⟨u, t₁⟩, hj, he⟩ := map_eq_ok.1 h
    cases he
    obtain ⟨hr, hm⟩ := failOutboxTerminal_ok hj
    refine ⟨hr, rfl, _, 0, ?_, .inr ⟨rfl, ?_, hm⟩⟩
    · exact fun _ => ⟨rfl, rfl⟩
    · exact fun _ => rfl
  | fallback payloadJson =>
    obtain ⟨⟨u, t₁⟩, hj, he⟩ := map_eq_ok.1 h
    cases he
    obtain ⟨hr, hm⟩ := replaceOutboxWithFallback_ok hj
    refine ⟨hr, rfl, _, now, ?_, .inl ⟨rfl, ?_, hm⟩⟩
    · exact fun _ => ⟨rfl, rfl⟩
    · exact fun _ => ⟨rfl, rfl⟩

theorem ReceiptWrite.parks_reissue (w : ReceiptWrite) (now : ℤ) : (w.reissue now).parks = w.parks := by
  cases w <;> rfl

theorem recordOutcome_parks {operation : OutboxOperation} {request : OutboundRequest}
    {outcome : Except DeliveryError String} (h : (NetEvent.returned row operation request outcome).settles = true) :
    (recordOutcome C config now row operation request outcome).parks = false := by
  cases outcome with
  | ok messageId =>
    simp only [recordOutcome]
    split <;> rfl
  | error e =>
    simp only [NetEvent.settles, Bool.and_eq_true, Bool.not_eq_true', beq_iff_eq] at h
    simp [recordOutcome, h.1, h.2, DeliveryFailureClass.toDeliveryClass, recordFailure, ReceiptWrite.parks]

/-- A receipt that parks the rest of its batch is not committed and then reported as failed while copies of that rest
are still held. -/
def keepsTail (s : System) : Event → Bool
  | .store (.executeThenFail _) =>
    match s.phase with
    | .receipt _ write _ rest => !write.parks || rest.isEmpty
    | _ => true
  | _ => true

def KeepsTail (s : System) (e : Event) : Prop := keepsTail s e = true

instance (s : System) (e : Event) : Decidable (KeepsTail s e) := inferInstanceAs (Decidable (keepsTail s e = true))

/-- A store request had no effect. -/
theorem Fifo.refused {s : System} (h : Fifo s) {w : Writer OutboxTable} (hdb : w.db = s.writer.db)
    (ha : w.alive = true → s.writer.alive = true) : Fifo { s with writer := w } := by
  obtain ⟨db, alive⟩ := w
  simp only at hdb ha
  subst hdb
  exact (h.setAlive fun hb => .inl (ha hb)).congr rfl rfl rfl rfl

/-- A phase without copies. -/
theorem Fifo.drop (h : Fifo s) (hp : p.Empty s.clock) : Fifo { s with phase := p } := by
  have hp' : p.queue = [] ∧ p.current = none ∧ p.inFlight = none ∧ horizon s.clock p = s.clock ∧
      ∀ now ∈ p.readAt, now ≤ s.clock := by
    unfold Phase.Empty at hp
    split at hp <;> simp_all [Phase.queue, Phase.current, Phase.inFlight, horizon, Phase.readAt]
  obtain ⟨hq, hc, hi, hh, hr⟩ := hp'
  exact h.rephase (by simp [hq]) (fun _ => .inr hq) (by simp [hc]) hr ((horizon_le h).trans hh.ge) (by simp [hi])

theorem Phase.AtHead.queue (hp : p.AtHead row rest) : p.queue = row :: rest := by
  rcases hp with rfl | ⟨operation, anchorKey, rfl⟩ <;> rfl

theorem Phase.AtHead.delivers (hp : p.AtHead row rest) : p.delivers = true := by
  rcases hp with rfl | ⟨operation, anchorKey, rfl⟩ <;> rfl

/-- The unsent tail is held, and no longer delivered. -/
theorem releaseTail_spec (clock : ℤ) (rest : List (Row OutboxRow)) :
    (releaseTail clock rest).queue = rest ∧ ((releaseTail clock rest).delivers = true → rest = []) ∧
      (releaseTail clock rest).current = none ∧ (releaseTail clock rest).inFlight = none ∧
      horizon clock (releaseTail clock rest) = clock ∧ ∀ now ∈ (releaseTail clock rest).readAt, now ≤ clock := by
  cases rest <;>
    simp [releaseTail, Phase.queue, Phase.delivers, Phase.current, Phase.inFlight, horizon, Phase.readAt]

variable {s' : System} {e : Event} {write : ReceiptWrite} {left : ℕ} {deferred : Bool}

/-- A receipt that is committed. -/
theorem Fifo.committed (h : Fifo s) (hp : s.phase = .receipt row write left rest) (ha : s.writer.alive = true)
    (hj : write.job s.clock row.id s.writer.db = .ok (deferred, t)) :
    Fifo { s with writer := { s.writer with db := t }, phase := if deferred then .idle else .batch rest } := by
  have hcur : s.phase.current = some (row, write) := by rw [hp]; rfl
  have hq : s.phase.queue = rest := by rw [hp]; rfl
  have hd : s.phase.delivers = true := by rw [hp]; rfl
  have hcl := h.current_claimed (row, write) (by simp [hcur]) ha
  obtain ⟨-, rfl, g, retryMs, -, ⟨hpk, hg, hm⟩ | ⟨hpk, hg, hm⟩⟩ := ReceiptWrite.job_ok hj
  · simp only [hpk, if_true]
    exact h.park hcur hpk hcl hg hm
  · simp only [hpk, Bool.false_eq_true, if_false]
    exact hq ▸ h.retire hcur hd hcl hg hm

/-- A receipt that is committed and reported as failed: nothing is left of the batch if it was parked. -/
theorem Fifo.reported (h : Fifo s) (hp : s.phase = .receipt row write left rest) (ha : s.writer.alive = true)
    (hj : write.job s.clock row.id s.writer.db = .ok (deferred, t)) (hrest : write.parks = true → rest = [])
    (hn : p = .batch rest ∨ p = .backoff row write left rest) :
    Fifo { s with writer := { db := t, alive := false }, phase := p } := by
  have hmem : (row, write) ∈ s.phase.current := by rw [hp]; rfl
  have hq : s.phase.queue = rest := by rw [hp]; rfl
  have h' : Fifo { s with writer := { db := t, alive := false }, phase := .batch rest } := by
    have hc := h.committed hp ha hj
    obtain ⟨-, rfl, -⟩ := ReceiptWrite.job_ok hj
    cases hpk : write.parks with
    | true =>
      rw [hrest hpk]
      exact (hc.drop (p := .batch []) trivial).setAlive (b := false) (by simp)
    | false =>
      rw [hpk] at hc
      exact hc.setAlive (b := false) (by simp)
  rcases hn with rfl | rfl
  · exact h'
  · refine h'.rephase (List.Sublist.refl _) (fun _ => .inl rfl) ?_ (by simp [Phase.readAt]) le_rfl
      (by simp [Phase.inFlight])
    intro c hc
    cases hc
    exact ⟨h.current_ge _ hmem, hq ▸ h.current_lt _ hmem, by simp, h.current_open _ hmem⟩

theorem Fifo.returned (h : Fifo s) {operation : OutboxOperation} {request : OutboundRequest}
    (hp : s.phase = .sending row operation request rest) (outcome : Except DeliveryError String) :
    Fifo ({ s with log := s.log ++ [NetEvent.returned row operation request outcome] }.record row
      (recordOutcome C config s.clock row operation request outcome) rest) := by
  have hq : s.phase.queue = row :: rest := by rw [hp]; rfl
  have hrow : row ∈ s.phase.queue := by simp [hq]
  have hsorted := h.queue_sorted
  rw [hq, List.pairwise_cons] at hsorted
  have h' := h.note hq (by rw [hp]; rfl) (by rw [hp]; rfl)
    (x := .returned row operation request outcome) rfl rfl
  refine h'.rephase (List.Sublist.refl _) (fun _ => .inl rfl) ?_ (by simp [Phase.readAt]) le_rfl
    (by simp [Phase.inFlight])
  intro c hc
  cases hc
  refine ⟨?_, hsorted.1, fun _ => h.queue_claimed row hrow, fun hs => ?_⟩
  · intro n hn
    rw [show called _ = called s.log from called_append_of_not_call s.log rfl] at hn
    exact h.called_le_queue n hn row hrow
  · rcases settled_append.1 hs with hs | ⟨hs, -⟩
    · exact absurd hs (h.queue_open row hrow)
    · exact recordOutcome_parks hs

/-- The pump keeps its copies in a phase that neither calls nor writes a receipt. -/
theorem Fifo.hold (h : Fifo s) (hq : p.queue.Sublist s.phase.queue) (hd : p.delivers = true → s.phase.delivers = true)
    (hc : p.current = none) (hr : ∀ now ∈ p.readAt, now ≤ s.clock) (hh : horizon s.clock p = s.clock)
    (hi : p.inFlight = none) : Fifo { s with phase := p } :=
  h.rephase hq (fun hp => .inl (hd hp)) (by simp [hc]) hr ((horizon_le h).trans hh.ge) (by simp [hi])

/-- The receipt under way moves on, as it was or renewed. -/
theorem Fifo.renew (h : Fifo s) {n : ℕ} {w : ReceiptWrite} (hcur : s.phase.current = some (row, w))
    (hd : s.phase.delivers = true) (hw : write.parks = w.parks)
    (hp : p = .receipt row write n s.phase.queue ∨ p = .backoff row write n s.phase.queue) : Fifo { s with phase := p } := by
  have hmem : (row, w) ∈ s.phase.current := by simp [hcur]
  rcases hp with rfl | rfl
  all_goals
    refine h.rephase (List.Sublist.refl _) (fun _ => .inl hd) ?_ (by simp [Phase.readAt]) (horizon_le h)
      (by simp [Phase.inFlight])
    intro c hc
    cases hc
    exact ⟨h.current_ge (row, w) hmem, h.current_lt (row, w) hmem, h.current_claimed (row, w) hmem,
      fun hs => hw ▸ h.current_open (row, w) hmem hs⟩

/-- **One step keeps the invariant.** -/
theorem Fifo.stepTo (h : Fifo s) (hk : KeepsTail s e) (m : StepTo C config s e s') : Fifo s' := by
  induction m with
  | same => exact h
  | tick hn => exact h.tick hn
  | enqueued ht => exact h.grows (ht growsRule)
  | flags _ hw hc hp hl ih => exact ih.congr hw hc hp hl
  | refused _ hdb ha ih => exact ih.refused hdb ha
  | drop _ hp ih => exact ih.drop hp
  | restart => exact (h.drop (p := .recovering) trivial).setAlive fun _ => .inr rfl
  | record hp => exact h.record hp.queue hp.delivers _
  | lookup hp | unsent hp | gaveUp hp =>
    refine h.hold ?_ ?_ rfl ?_ rfl rfl
    · rw [hp]; exact List.Sublist.refl _
    · simp [hp, Phase.delivers]
    · simp [releaseTail, Phase.readAt]
  | deliver hp | anchored hp => exact h.call (by rw [hp]; rfl) (by rw [hp]; rfl) _ _
  | returned _ hp => exact h.returned hp _
  | cut hp => exact h.note (by rw [hp]; rfl) (by rw [hp]; rfl) (by rw [hp]; rfl) rfl rfl
  | recovered hm => exact h.recover hm
  | claimed hp hpre hm => exact h.claim hp hpre hm
  | @kept readAt row rest hp =>
    obtain ⟨hpq, hpd, hpc, hpi, hph, hpr⟩ := releaseTail_spec s.clock rest
    refine h.rephase ?_ (fun hd => .inr (by rw [hpq, hpd hd])) (by simp [hpc]) hpr ((horizon_le h).trans hph.ge)
      (by simp [hpi])
    rw [hpq, hp]
    exact List.sublist_cons_self _ _
  | @released readAt row rest t hp hj =>
    obtain ⟨hpq, hpd, hpc, hpi, hph, hpr⟩ := releaseTail_spec s.clock rest
    have hread : readAt ≤ s.clock := h.readAt_le readAt (by simp [hp, Phase.readAt])
    exact h.release (by rw [hp]; rfl) hread (releaseOutboxClaimAt_ok hj).2 hpq hpd hpc hpi hph hpr
  | @postponed row write left rest p hp hn =>
    have hq : s.phase.queue = rest := by rw [hp]; rfl
    have hd : s.phase.delivers = true := by rw [hp]; rfl
    rcases hn with rfl | rfl
    · exact h.hold (by rw [hq]; exact List.Sublist.refl _) (fun _ => hd) rfl (by simp [Phase.readAt]) rfl rfl
    · exact h.renew (by rw [hp]; rfl) hd rfl (.inr (by rw [hq]))
  | committed hp ha hj => exact h.committed hp ha hj
  | reported he hp ha hj hn =>
    subst he
    exact h.reported hp ha hj (fun hpk => by simpa [KeepsTail, keepsTail, hp, hpk] using hk) hn
  | woken hp => exact h.renew (by rw [hp]; rfl) (by rw [hp]; rfl) (ReceiptWrite.parks_reissue _ _) (.inl (by rw [hp]; rfl))

/-- **Every run that keeps its tails keeps the invariant.** -/
theorem after_fifo {clock : ℤ} {events : List Event} (h : Along (step C config) KeepsTail (initial clock) events) :
    Fifo (after C config clock events) :=
  exec_invariant (fun s e h hk => h.stepTo hk (step_to s e)) (initial_fifo clock) h

end LarkCodexBridge.Outbox

import LarkCodexBridge.Outbox.Deliveries

/-!
# Final cards and their fallback

A `FinalizeProgressCard` row first PATCHes the progress card; its standalone Markdown post is the fallback. A PATCH
whose outcome is unknown may have shown the final answer already, so a post after it can show it twice.

The decision is taken from the last error and the attempt counter (`recordFinalCardPatchFailure`). It is right exactly
as long as no failure that ends the PATCH attempts comes after one of unknown outcome (`EndsCertain`):
`no_duplicate_final`. A 5xx that is retried and then rejected breaks it (`duplicate_final`).

The other way to the post, an anchor that failed, stays closed once a PATCH was made: the anchor was `sent` then, and
no later row can take its place in front of the dependent one (`AnchorsSent`).
-/

namespace LarkCodexBridge.Outbox

open Limits SqlTable Store StepSystem

variable {C : Codec} {config : OutboxPumpConfig}

/-! ## Outcomes of PATCH calls -/

/-- A PATCH returned with an unknown outcome. -/
def NetEvent.patchUncertain : NetEvent → Bool
  | .returned _ _ request (.error e) => request.isPatch && e.failureClass == .uncertain
  | _ => false

def NetEvent.postsMarkdown : NetEvent → Bool
  | .call _ _ (.replyMarkdownPost ..) _ => true
  | _ => false

/-- Some PATCH of row `n` returned with an unknown outcome. -/
def patchMayBeApplied (log : List NetEvent) (n : ℕ) : Bool := log.any fun x => x.patchUncertain && x.row.serial == n

/-- The failure ends the PATCH attempts of `row` and is not itself of unknown outcome. -/
def endsPatching (row : Row OutboxRow) (e : DeliveryError) : Bool :=
  !(e.patchRetryable && nextAttempt row.val.attempts < storeOutboxMaxAttempts) && e.failureClass != .uncertain &&
    !(e.failureClass == .retryable && nextAttempt row.val.attempts < storeOutboxMaxAttempts)

/-- A PATCH of a final card that fails for good, with a known outcome, was not preceded by one of unknown outcome. -/
def endsCertain (s : System) : Event → Bool
  | .net (.error e) =>
    match s.phase with
    | .sending row (.finalizeProgressCard ..) request _ =>
      !(request.isPatch && endsPatching row e && patchMayBeApplied s.log row.serial)
    | _ => true
  | _ => true

def EndsCertain (s : System) (e : Event) : Prop := endsCertain s e = true

instance (s : System) (e : Event) : Decidable (EndsCertain s e) := inferInstanceAs (Decidable (endsCertain s e = true))

theorem patchMayBeApplied_append {log : List NetEvent} {x : NetEvent} {n : ℕ} :
    patchMayBeApplied (log ++ [x]) n = (patchMayBeApplied log n || (x.patchUncertain && x.row.serial == n)) := by
  simp [patchMayBeApplied]

def OutboxOperation.anchorKey? : OutboxOperation → Option String
  | .updateProgressCard k _ | .finalizeProgressCard k .. => some k
  | _ => none

def ReceiptWrite.isFallback : ReceiptWrite → Bool
  | .fallback _ => true
  | _ => false

theorem ReceiptWrite.isFallback_reissue (w : ReceiptWrite) (now : ℤ) : (w.reissue now).isFallback = w.isFallback := by
  cases w <;> rfl

variable {now : ℤ} {row : Row OutboxRow} {operation : OutboxOperation} {request : OutboundRequest}

theorem recordOutcome_isFallback {outcome : Except DeliveryError String}
    (h : (recordOutcome C config now row operation request outcome).isFallback = true) :
    ∃ e, outcome = .error e ∧ request.isPatch = true ∧ endsPatching row e = true ∧
      ∃ k m t x f p, operation = .finalizeProgressCard k m t x f p := by
  have hfail : ∀ cls, (recordFailure config now row cls).isFallback = false := by intro cls; cases cls <;> rfl
  cases outcome with
  | ok messageId =>
    simp only [recordOutcome] at h
    split at h <;> cases h
  | error e =>
    simp only [recordOutcome] at h
    split at h
    · next hpatch =>
      cases operation with
      | finalizeProgressCard k m t x f p =>
        refine ⟨e, rfl, hpatch, ?_, k, m, t, x, f, p, rfl⟩
        simp only [recordCardPatchFailure, recordFinalCardPatchFailure] at h
        split at h
        · rw [hfail] at h; cases h
        · next h₁ =>
          split at h
          · rw [hfail] at h; cases h
          · next h₂ =>
            split at h
            · rw [hfail] at h; cases h
            · next h₃ =>
              simp only [not_and] at h₁ h₃
              simp only [endsPatching, Bool.and_eq_true, Bool.not_eq_true', bne_iff_ne, ne_eq, Bool.and_eq_false_imp,
                beq_iff_eq, decide_eq_false_iff_not]
              exact ⟨⟨h₁, h₂⟩, h₃⟩
      | _ =>
        simp only [recordCardPatchFailure] at h
        split at h
        · rw [hfail] at h; cases h
        · split at h <;> (rw [hfail] at h; cases h)
    · rw [hfail] at h; cases h

/-- The row that answers for the anchor stands in front of the dependent one, in the state the answer says. -/
theorem progressAnchor_eq_some {dependent : Row OutboxRow} {found : Option (Row OutboxRow)} {anchor : ProgressAnchor}
    (h : progressAnchor C dependent found = some anchor) :
    ∃ row, found = some row ∧ row.id < dependent.id ∧ (∀ m, anchor = .delivered m → row.val.state = .sent) ∧
      (anchor = .failed → row.val.state = .failed) := by
  cases found with
  | none => cases h
  | some row =>
    simp only [progressAnchor] at h
    split at h
    · cases h
    · next hguard =>
      simp only [not_or, not_le] at hguard
      refine ⟨row, rfl, hguard.1, ?_⟩
      split at h
      · cases hstate : row.val.state with
        | sent =>
          rw [hstate] at h
          dsimp only at h
          split at h
          · split at h
            · cases h
            · cases h; exact ⟨fun _ _ => rfl, nofun⟩
          · cases h
        | failed =>
          rw [hstate] at h
          cases h
          exact ⟨nofun, fun _ => rfl⟩
        | pending | sending | uncertainDelivery =>
          rw [hstate] at h
          cases h
          exact ⟨nofun, nofun⟩
      · cases h

/-- A delivered anchor is PATCHed; anything else that is sent needs a failed anchor. -/
theorem anchoredRequest_ok {anchor : Option ProgressAnchor} (h : anchoredRequest anchor operation = .ok request) :
    (∃ m card, anchor = some (.delivered m) ∧ request = .updateCard m card) ∨
      anchor = some .failed ∧ request.isPatch = false := by
  cases operation with
  | updateProgressCard k x =>
    simp only [anchoredRequest] at h
    split at h <;> cases h
    exact .inl ⟨_, _, rfl, rfl⟩
  | finalizeProgressCard k m t x f phase =>
    simp only [anchoredRequest] at h
    split at h <;> cases h
    · exact .inl ⟨_, _, rfl, rfl⟩
    · exact .inr ⟨rfl, rfl⟩
  | _ => cases h

/-! ## The invariant -/

/-- The rows the pump holds copies of, the one of the receipt first. -/
def Phase.held (p : Phase) : List (Row OutboxRow) := (p.current.map (·.1)).toList ++ p.queue

/-- Every row with the anchor's key in front of row `id` is `sent`. -/
def AnchorsSent (t : OutboxTable) (id : ℕ) (k : String) : Prop :=
  ∀ a ∈ t.rows, a.val.idempotencyKey = k → a.id < id → a.val.state = .sent

/-- The payload is a card update whose anchor in front of row `id` is `sent`. -/
def Anchored (C : Codec) (t : OutboxTable) (id : ℕ) (payload : String) : Prop :=
  ∃ operation k, OutboxOperation.decode C payload = .ok operation ∧ operation.anchorKey? = some k ∧ AnchorsSent t id k

/-- The row a copy was taken from is still in the table, and live. -/
def Backed (t : OutboxTable) (copy : Row OutboxRow) : Prop :=
  ∃ r ∈ t.rows, r.id = copy.id ∧ r.serial = copy.serial ∧ r.val.live = true

/-- **The invariant.** -/
structure CardInv (C : Codec) (s : System) : Prop where
  held_sorted : s.phase.held.Pairwise fun r q => r.serial < q.serial
  queue_live : ∀ q ∈ s.phase.queue, ∃ r ∈ s.writer.db.rows, r.id = q.id ∧ r.serial = q.serial ∧
    r.val.live = true ∧ r.val.payloadJson = q.val.payloadJson
  current_backed : ∀ c ∈ s.phase.current, s.writer.alive = true → Backed s.writer.db c.1
  current_certain : ∀ c ∈ s.phase.current, c.2.isFallback = true → patchMayBeApplied s.log c.1.serial = false
  patched_lt : ∀ n, patchMayBeApplied s.log n = true → n < s.writer.db.nextSerial
  live_anchored : ∀ r ∈ s.writer.db.rows, r.val.live = true → patchMayBeApplied s.log r.serial = true →
    Anchored C s.writer.db r.id r.val.payloadJson
  lookup_op : ∀ row operation k rest, s.phase = .lookup row operation k rest →
    OutboxOperation.decode C row.val.payloadJson = .ok operation ∧ operation.anchorKey? = some k
  sending_anchored : ∀ row operation request rest, s.phase = .sending row operation request rest →
    request.isPatch = true → Anchored C s.writer.db row.id row.val.payloadJson
  quiet : s.log.Pairwise fun x y => x.patchUncertain = true → y.postsMarkdown = true → y.row.serial ≠ x.row.serial

theorem initial_cardInv (clock : ℤ) : CardInv C (initial clock) := by
  constructor <;>
    simp [initial, Table.empty, Phase.held, Phase.queue, Phase.current, patchMayBeApplied]

/-! ## Steps that leave the table alone -/

/-- A phase that waits neither for a lookup nor for a delivery call. -/
def Phase.settledDown : Phase → Bool
  | .lookup .. | .sending .. => false
  | _ => true

variable {s : System} {p : Phase} {q : Row OutboxRow}

/-- The pump moves to a phase that holds fewer copies. -/
theorem CardInv.rephase (h : CardInv C s) (hheld : p.held.Sublist s.phase.held) (hq : p.queue.Sublist s.phase.queue)
    (hc : ∀ c ∈ p.current, (s.writer.alive = true → Backed s.writer.db c.1) ∧
      (c.2.isFallback = true → patchMayBeApplied s.log c.1.serial = false)) (hp : p.settledDown = true) :
    CardInv C { s with phase := p } where
  held_sorted := h.held_sorted.sublist hheld
  queue_live := fun q hq' => h.queue_live q (hq.subset hq')
  current_backed := fun c hc' => (hc c hc').1
  current_certain := fun c hc' => (hc c hc').2
  patched_lt := h.patched_lt
  live_anchored := h.live_anchored
  lookup_op := by
    rintro row operation k rest rfl
    cases hp
  sending_anchored := by
    rintro row operation request rest rfl
    cases hp
  quiet := h.quiet

/-- A phase without copies. -/
theorem CardInv.drop (h : CardInv C s) (hp : p.Empty s.clock) : CardInv C { s with phase := p } := by
  have hp' : p.queue = [] ∧ p.current = none ∧ p.settledDown = true := by
    unfold Phase.Empty at hp
    split at hp <;> simp_all [Phase.queue, Phase.current, Phase.settledDown]
  obtain ⟨hq, hc, hs⟩ := hp'
  exact h.rephase (by simp [Phase.held, hq, hc]) (by simp [hq]) (by simp [hc]) hs

theorem CardInv.backed_of_queue (h : CardInv C s) (hq : q ∈ s.phase.queue) :
    Backed s.writer.db q := by
  obtain ⟨r, hr, hid, hs, hl, -⟩ := h.queue_live q hq
  exact ⟨r, hr, hid, hs, hl⟩

variable {rest : List (Row OutboxRow)}

/-- The first queued copy becomes the row of a receipt other than the fallback. -/
theorem CardInv.record (h : CardInv C s) (hq : s.phase.queue = row :: rest) {w : ReceiptWrite}
    (hw : w.isFallback = false) :
    CardInv C (s.record row w rest) := by
  refine h.rephase ?_ (by rw [hq]; exact List.sublist_cons_self _ _) ?_ rfl
  · simp only [Phase.held, hq]
    exact List.sublist_append_right _ _
  · intro c hc
    cases hc
    refine ⟨fun _ => h.backed_of_queue (by simp [hq]), fun hf => ?_⟩
    rw [hw] at hf
    cases hf

theorem recordFailure_not_fallback (now : ℤ) (row : Row OutboxRow) (cls : DeliveryClass) :
    (recordFailure config now row cls).isFallback = false := by
  cases cls <;> rfl

theorem CardInv.queue_anchored (h : CardInv C s) (hq : q ∈ s.phase.queue) (hm : patchMayBeApplied s.log q.serial = true) :
    Anchored C s.writer.db q.id q.val.payloadJson := by
  obtain ⟨r, hr, hid, hs, hl, hpay⟩ := h.queue_live q hq
  rw [← hid, ← hpay]
  exact h.live_anchored r hr hl (hs ▸ hm)

/-- A delivery call for the first queued copy. -/
theorem CardInv.call (h : CardInv C s) (hq : s.phase.queue = row :: rest) (hcur : s.phase.current = none)
    (hpatch : request.isPatch = true → Anchored C s.writer.db row.id row.val.payloadJson)
    (hpost : (NetEvent.call row operation request (durableState s.writer.db row)).postsMarkdown = true →
      ¬Anchored C s.writer.db row.id row.val.payloadJson) :
    CardInv C (s.call row operation request rest) := by
  have hmay : ∀ n, patchMayBeApplied (s.call row operation request rest).log n = patchMayBeApplied s.log n := by
    intro n
    exact patchMayBeApplied_append.trans (by simp [NetEvent.patchUncertain])
  constructor
  · have := h.held_sorted
    simp only [Phase.held, hcur, hq] at this
    simpa [System.call, Phase.held, Phase.current, Phase.queue] using this
  · intro q hq'
    exact h.queue_live q (hq ▸ hq')
  · simp [System.call, Phase.current]
  · simp [System.call, Phase.current]
  · intro n hn
    exact h.patched_lt n (hmay n ▸ hn)
  · intro r hr hl hm
    exact h.live_anchored r hr hl (hmay _ ▸ hm)
  · intro r o k l hp
    cases hp
  · intro r o req l hp
    cases hp
    exact hpatch
  · refine List.pairwise_append.2 ⟨h.quiet, List.pairwise_singleton _ _, fun x hx y hy hxu hyp => ?_⟩
    rw [List.mem_singleton.1 hy] at hyp ⊢
    intro heq
    refine hpost hyp (h.queue_anchored (by simp [hq]) ?_)
    rw [patchMayBeApplied, List.any_eq_true]
    refine ⟨x, hx, ?_⟩
    rw [hxu, Bool.true_and, beq_iff_eq]
    exact heq.symm

/-- The call in flight ends with an entry `x`; its row leaves the queue. -/
theorem CardInv.note (h : CardInv C s) (hp : s.phase = .sending row operation request rest) {x : NetEvent}
    (hx : x.isCall = false) (hxr : x.row = row) (hxp : x.patchUncertain = true → request.isPatch = true) :
    CardInv C { s with log := s.log ++ [x], phase := .batch rest } := by
  have hq : s.phase.queue = row :: rest := by rw [hp]; rfl
  obtain ⟨r₀, hr₀, hid₀, hs₀, -, hpay₀⟩ := h.queue_live row (by simp [hq])
  have hsub : rest.Sublist s.phase.queue := by rw [hq]; exact List.sublist_cons_self _ _
  have hnew : ∀ n, patchMayBeApplied (s.log ++ [x]) n = true →
      patchMayBeApplied s.log n = true ∨ x.patchUncertain = true ∧ n = row.serial := by
    intro n hn
    rw [patchMayBeApplied_append, Bool.or_eq_true, Bool.and_eq_true, beq_iff_eq, hxr] at hn
    exact hn.imp_right fun ⟨hu, hs⟩ => ⟨hu, hs.symm⟩
  constructor
  · have := h.held_sorted
    rw [hp] at this
    exact (List.pairwise_cons.1 this).2
  · exact fun q hq' => h.queue_live q (hsub.subset hq')
  · simp [Phase.current]
  · simp [Phase.current]
  · intro n hn
    rcases hnew n hn with hn | ⟨-, rfl⟩
    · exact h.patched_lt n hn
    · exact hs₀ ▸ s.writer.db.serial_lt_next r₀ hr₀
  · intro r hr hl hm
    rcases hnew _ hm with hm | ⟨hu, hs⟩
    · exact h.live_anchored r hr hl hm
    · -- the row of this very PATCH: its anchor was `sent` when the call was made
      have hr' := Table.eq_of_serial hr hr₀ (hs.trans hs₀.symm)
      have := h.sending_anchored row operation request rest hp (hxp hu)
      rwa [hr', hid₀, hpay₀]
  · intro r o k l hp'
    cases hp'
  · intro r o req l hp'
    cases hp'
  · refine List.pairwise_append.2 ⟨h.quiet, List.pairwise_singleton _ _, fun y _ z hz _ hzp => ?_⟩
    rw [List.mem_singleton.1 hz] at hzp
    cases x with
    | call => cases hx
    | returned => cases hzp
    | cut => cases hzp

theorem CardInv.congr {s' : System} (h : CardInv C s) (hw : s'.writer = s.writer) (hp : s'.phase = s.phase)
    (hl : s'.log = s.log) : CardInv C s' := by
  obtain ⟨w, c, k, d, p, l⟩ := s'
  simp only at hw hp hl
  subst hw hp hl
  exact ⟨h.held_sorted, h.queue_live, h.current_backed, h.current_certain, h.patched_lt, h.live_anchored,
    h.lookup_op, h.sending_anchored, h.quiet⟩

/-- The writer stops, or starts where no receipt is being written. -/
theorem CardInv.setAlive (h : CardInv C s) {b : Bool} (hb : b = true → s.writer.alive = true ∨ s.phase.current = none) :
    CardInv C { s with writer := { s.writer with alive := b } } where
  held_sorted := h.held_sorted
  queue_live := h.queue_live
  current_backed := by
    intro c hc ha
    rcases hb ha with ha | hn
    · exact h.current_backed c hc ha
    · exact absurd (show c ∈ s.phase.current from hc) (by simp [hn])
  current_certain := h.current_certain
  patched_lt := h.patched_lt
  live_anchored := h.live_anchored
  lookup_op := h.lookup_op
  sending_anchored := h.sending_anchored
  quiet := h.quiet

/-- A store request had no effect. -/
theorem CardInv.refused {s : System} (h : CardInv C s) {w : Writer OutboxTable} (hdb : w.db = s.writer.db)
    (ha : w.alive = true → s.writer.alive = true) : CardInv C { s with writer := w } := by
  obtain ⟨db, alive⟩ := w
  simp only at hdb ha
  subst hdb
  exact (h.setAlive fun hb => .inl (ha hb)).congr rfl rfl rfl

/-! ## Jobs -/

variable {t : OutboxTable} {f : Row OutboxRow → OutboxRow} {id left : ℕ} {g : OutboxRow → OutboxRow}
  {write : ReceiptWrite} {readAt : ℤ}

/-- New rows come behind every row of the table, so they are nobody's anchor. -/
theorem Anchored.grows {t' : OutboxTable} (hg : Grows t t') {r : Row OutboxRow} (hr : r ∈ t.rows) (hr' : r ∈ t'.rows)
    {payload : String} (h : Anchored C t r.id payload) : Anchored C t' r.id payload := by
  obtain ⟨operation, k, hop, hk, hsent⟩ := h
  refine ⟨operation, k, hop, hk, fun a ha hak hid => ?_⟩
  rcases hg.old_or_new a ha with ha' | ⟨hs, -, -⟩
  · exact hsent a ha' hak hid
  · have hlt := (Table.id_lt_iff ha hr').1 hid
    have := t.serial_lt_next r hr
    omega

theorem CardInv.grows (h : CardInv C s) (hg : Grows s.writer.db t) :
    CardInv C { s with writer := { s.writer with db := t } } := by
  -- rows that copies or receipts refer to are live, hence kept
  have hqueue : ∀ q ∈ s.phase.queue, ∃ r ∈ s.writer.db.rows, r ∈ t.rows ∧ r.id = q.id ∧ r.serial = q.serial ∧
      r.val.live = true ∧ r.val.payloadJson = q.val.payloadJson := by
    intro q hq
    obtain ⟨r, hr, hid, hs, hl, hpay⟩ := h.queue_live q hq
    exact ⟨r, hr, hg.live_kept r hr hl, hid, hs, hl, hpay⟩
  constructor
  · exact h.held_sorted
  · intro q hq
    obtain ⟨r, -, hr, hid, hs, hl, hpay⟩ := hqueue q hq
    exact ⟨r, hr, hid, hs, hl, hpay⟩
  · intro c hc ha
    obtain ⟨r, hr, hid, hs, hl⟩ := h.current_backed c hc ha
    exact ⟨r, hg.live_kept r hr hl, hid, hs, hl⟩
  · exact h.current_certain
  · exact fun n hn => (h.patched_lt n hn).trans_le hg.nextSerial_le
  · intro r hr hl hm
    rcases hg.old_or_new r hr with hr' | ⟨hs, -, -⟩
    · exact (h.live_anchored r hr' hl hm).grows hg hr' hr
    · exact absurd (h.patched_lt _ hm) (not_lt.2 hs)
  · exact h.lookup_op
  · intro row operation request rest hp hpatch
    obtain ⟨r, hr, hr', hid, -, -, -⟩ := hqueue row (by
      have : s.phase = _ := hp
      rw [this]; simp [Phase.queue])
    have := h.sending_anchored row operation request rest hp hpatch
    rw [← hid] at this ⊢
    exact this.grows hg hr hr'
  · exact h.quiet

/-- The rewriting keeps keys and `sent` rows, and makes no row live again. -/
structure Tame (t : OutboxTable) (f : Row OutboxRow → OutboxRow) : Prop where
  key : ∀ r ∈ t.rows, (f r).idempotencyKey = r.val.idempotencyKey
  sent : ∀ r ∈ t.rows, r.val.state = .sent → (f r).state = .sent
  live : ∀ r ∈ t.rows, (f r).live = true → r.val.live = true

/-- The pump's job rewrites the columns by `f`, and the pump goes on in a phase without a receipt. -/
theorem CardInv.rewrite (h : CardInv C s) (hm : Table.Maps f s.writer.db t) (hf : Tame s.writer.db f)
    (hpay : ∀ r ∈ s.writer.db.rows, patchMayBeApplied s.log r.serial = true → (f r).payloadJson = r.val.payloadJson)
    (hc : p.current = none) (hp : p.settledDown = true) (hsorted : p.queue.Pairwise fun r q => r.serial < q.serial)
    (hqueue : ∀ q ∈ p.queue, ∃ r ∈ s.writer.db.rows, r.id = q.id ∧ r.serial = q.serial ∧ (f r).live = true ∧
      (f r).payloadJson = q.val.payloadJson) :
    CardInv C { s with writer := { s.writer with db := t }, phase := p } where
  held_sorted := by simpa [Phase.held, hc] using hsorted
  queue_live := by
    intro q hq
    obtain ⟨r, hr, hid, hs, hl, hpay⟩ := hqueue q hq
    exact ⟨_, hm.mem.2 ⟨r, hr, rfl⟩, hid, hs, hl, hpay⟩
  current_backed := by simp [hc]
  current_certain := by simp [hc]
  patched_lt := fun n hn => hm.nextSerial_eq ▸ h.patched_lt n hn
  live_anchored := by
    intro r' hr' hl hmay
    obtain ⟨r, hr, rfl⟩ := hm.mem.1 hr'
    obtain ⟨operation, k, hop, hk, hsent⟩ := h.live_anchored r hr (hf.live r hr hl) hmay
    refine ⟨operation, k, ?_, hk, fun a' ha' hak hid => ?_⟩
    · rwa [show (f r).payloadJson = r.val.payloadJson from hpay r hr hmay]
    · obtain ⟨a, ha, rfl⟩ := hm.mem.1 ha'
      exact hf.sent a ha (hsent a ha (hf.key a ha ▸ hak) hid)
  lookup_op := by
    rintro row operation k rest rfl
    cases hp
  sending_anchored := by
    rintro row operation request rest rfl
    cases hp
  quiet := h.quiet

theorem tame_setRow (hid : ∃ r ∈ t.rows, r.id = id ∧ r.val.state = .sending)
    (hg : ∀ a, (g a).idempotencyKey = a.idempotencyKey) :
    Tame t (setRow id g) := by
  obtain ⟨r₀, hr₀, hid₀, hs₀⟩ := hid
  have hself : ∀ r ∈ t.rows, r.id = id → r.val.state = .sending := fun r hr h => by
    rw [Table.eq_of_id hr hr₀ (h.trans hid₀.symm), hs₀]
  constructor
  · intro r hr
    unfold setRow
    split
    · exact hg _
    · rfl
  · intro r hr hs
    have hne : r.id ≠ id := fun h => by rw [hself r hr h] at hs; cases hs
    simpa [setRow, hne] using hs
  · intro r hr hl
    by_cases h : r.id = id
    · exact live_of_sending (hself r hr h)
    · simpa [setRow, h] using hl

theorem tame_setAndPark {retryMs : ℤ} (hid : ∃ r ∈ t.rows, r.id = id ∧ r.val.state = .sending)
    (hg : ∀ a, (g a).idempotencyKey = a.idempotencyKey) :
    Tame t (setAndPark now retryMs id g) := by
  obtain ⟨r₀, hr₀, hid₀, hs₀⟩ := hid
  have hself : ∀ r ∈ t.rows, r.id = id → r.val.state = .sending := fun r hr h => by
    rw [Table.eq_of_id hr hr₀ (h.trans hid₀.symm), hs₀]
  constructor
  · intro r hr
    unfold setAndPark
    split
    · exact hg _
    · split <;> rfl
  · intro r hr hs
    have hne : r.id ≠ id := fun h => by rw [hself r hr h] at hs; cases hs
    have hl : r.val.live = false := by simp [OutboxRow.live, hs]
    simpa [setAndPark, hne, hl] using hs
  · intro r hr hl
    by_cases h : r.id = id
    · exact live_of_sending (hself r hr h)
    · by_cases h' : id < r.id ∧ r.val.live = true
      · exact h'.2
      · simpa [setAndPark, h, h'] using hl

/-! ## One step -/

section

variable (h : CardInv C s)
include h

/-- A row that is delivered without a lookup is a reply: its payload is no card update. -/
theorem CardInv.deliver (hp : s.phase = .batch (row :: rest))
    (hop : OutboxOperation.decode C row.val.payloadJson = .ok operation) (hreq : startSend row operation = .deliver request) :
    CardInv C (s.call row operation request rest) := by
  have hnone : operation.anchorKey? = none ∧ request.isPatch = false := by
    cases operation <;> simp only [startSend] at hreq
    case updateProgressCard => split at hreq <;> cases hreq
    case finalizeProgressCard => split at hreq <;> cases hreq
    all_goals cases hreq; exact ⟨rfl, rfl⟩
  refine h.call (by rw [hp]; rfl) (by rw [hp]; rfl) (by simp [hnone.2]) fun _ hanch => ?_
  obtain ⟨operation', k, hop', hk, -⟩ := hanch
  rw [hop] at hop'
  cases hop'
  rw [hnone.1] at hk
  cases hk

theorem CardInv.asks {anchorKey : String} (hp : s.phase = .batch (row :: rest))
    (hop : OutboxOperation.decode C row.val.payloadJson = .ok operation) (hreq : startSend row operation = .lookup anchorKey) :
    CardInv C { s with phase := .lookup row operation anchorKey rest } := by
  have hq : s.phase.queue = row :: rest := by rw [hp]; rfl
  have hcur : s.phase.current = none := by rw [hp]; rfl
  have hk : operation.anchorKey? = some anchorKey := by
    cases operation <;> simp only [startSend] at hreq
    case updateProgressCard => split at hreq <;> cases hreq; rfl
    case finalizeProgressCard => split at hreq <;> cases hreq; rfl
    all_goals cases hreq
  constructor
  · have := h.held_sorted
    simp only [Phase.held, hcur, hq] at this
    exact this
  · intro q hq'
    exact h.queue_live q (hq ▸ hq')
  · simp [Phase.current]
  · simp [Phase.current]
  · exact h.patched_lt
  · exact h.live_anchored
  · intro r o k l he
    cases he
    exact ⟨hop, hk⟩
  · intro r o req l he
    cases he
  · exact h.quiet

/-- After the lookup: a PATCH has its anchor `sent`, a post an anchor that failed. -/
theorem CardInv.lookup {anchorKey : String} (hp : s.phase = .lookup row operation anchorKey rest)
    (hreq : anchoredRequest (progressAnchor C row (s.writer.db.lookup anchorKey)) operation = .ok request) :
    CardInv C (s.call row operation request rest) := by
  have hq : s.phase.queue = row :: rest := by rw [hp]; rfl
  have hcur : s.phase.current = none := by rw [hp]; rfl
  obtain ⟨hop, hk⟩ := h.lookup_op row operation anchorKey rest hp
  refine h.call hq hcur (fun hpatch => ?_) (fun hpost hanch => ?_)
  · refine ⟨operation, anchorKey, hop, hk, ?_⟩
    rcases anchoredRequest_ok hreq with ⟨m, card, hdel, -⟩ | ⟨-, hno⟩
    · obtain ⟨a, ha, -, hsent, -⟩ := progressAnchor_eq_some hdel
      obtain ⟨har, hak⟩ := Table.lookup_eq_some.1 ha
      intro a' ha' hak' _
      rw [Table.eq_of_key ha' har (hak'.trans hak.symm)]
      exact hsent m rfl
    · rw [hno] at hpatch
      cases hpatch
  · rcases anchoredRequest_ok hreq with ⟨m, card, -, rfl⟩ | ⟨hfail, -⟩
    · cases hpost
    · obtain ⟨a, ha, hlt, -, hfailed⟩ := progressAnchor_eq_some hfail
      obtain ⟨har, hak⟩ := Table.lookup_eq_some.1 ha
      obtain ⟨operation', k, hop', hk', hsent⟩ := hanch
      rw [hop] at hop'
      cases hop'
      rw [hk] at hk'
      cases hk'
      have := hsent a har hak hlt
      rw [hfailed rfl] at this
      cases this

/-- The copies left in a queue after its first rows were dropped, when the rewriting `f` leaves their rows alone. -/
theorem CardInv.queue_kept (hsub : rest.Sublist s.phase.queue)
    (hf : ∀ q ∈ rest, ∀ r ∈ s.writer.db.rows, r.id = q.id → r.serial = q.serial → f r = r.val) :
    ∀ q ∈ rest, ∃ r ∈ s.writer.db.rows, r.id = q.id ∧ r.serial = q.serial ∧ (f r).live = true ∧
      (f r).payloadJson = q.val.payloadJson := by
  intro q hq
  obtain ⟨r, hr, hid, hs, hl, hpay⟩ := h.queue_live q (hsub.subset hq)
  rw [← hf q hq r hr hid hs] at hl hpay
  exact ⟨r, hr, hid, hs, hl, hpay⟩

/-- The table after a receipt was committed, with the pump's copies of the rest. -/
theorem CardInv.committed (hp : s.phase = .receipt row write left rest) (ha : s.writer.alive = true)
    {deferred : Bool} (hj : write.job s.clock row.id s.writer.db = .ok (deferred, t)) :
    CardInv C { s with writer := { s.writer with db := t }, phase := .batch rest } := by
  have hmem : (row, write) ∈ s.phase.current := by rw [hp]; rfl
  have hheld := h.held_sorted
  rw [hp] at hheld
  have hlt := (List.pairwise_cons.1 hheld).1
  have hsorted := (List.pairwise_cons.1 hheld).2
  have hq : s.phase.queue = rest := by rw [hp]; rfl
  obtain ⟨r₀, hr₀, hid₀, hs₀, -⟩ := h.current_backed _ hmem ha
  obtain ⟨hsend, -, g, retryMs, hg, hm⟩ := ReceiptWrite.job_ok hj
  have hne : ∀ q ∈ rest, ∀ r ∈ s.writer.db.rows, r.serial = q.serial → r.id ≠ row.id := by
    intro q hq' r hr hs hid
    have hr' := Table.eq_of_id hr hr₀ (hid.trans hid₀.symm)
    have := hlt q hq'
    rw [hr', hs₀] at hs
    exact absurd hs this.ne
  -- only the fallback changes a payload, and only where no PATCH may have been applied
  have hpay : ∀ r ∈ s.writer.db.rows, r.id = row.id → patchMayBeApplied s.log r.serial = true →
      (g r.val).payloadJson = r.val.payloadJson := by
    intro r hr hid hmay
    rw [(hg r.val).2]
    cases write with
    | fallback payloadJson =>
      have hcertain := h.current_certain _ hmem rfl
      rw [Table.eq_of_id hr hr₀ (hid.trans hid₀.symm), hs₀, hcertain] at hmay
      cases hmay
    | _ => rfl
  rcases hm with ⟨-, -, hm⟩ | ⟨-, -, hm⟩
  · refine h.rewrite hm (tame_setAndPark hsend fun a => (hg a).1) ?_ rfl rfl hsorted ?_
    · intro r hr hmay
      by_cases hid : r.id = row.id
      · simpa [setAndPark, hid] using hpay r hr hid hmay
      · unfold setAndPark
        rw [if_neg hid]
        split <;> rfl
    · intro q hq'
      obtain ⟨r, hr, hid, hs, hl, hpay⟩ := h.queue_live q (hq ▸ hq')
      refine ⟨r, hr, hid, hs, ?_⟩
      unfold setAndPark
      rw [if_neg (hne q hq' r hr hs)]
      split
      · exact ⟨rfl, hpay⟩
      · exact ⟨hl, hpay⟩
  · refine h.rewrite hm (tame_setRow hsend fun a => (hg a).1) ?_ rfl rfl hsorted ?_
    · intro r hr hmay
      by_cases hid : r.id = row.id
      · simpa [setRow, hid] using hpay r hr hid hmay
      · simp [setRow, hid]
    · exact h.queue_kept (by rw [hq]; exact List.Sublist.refl _) fun q hq' r hr _ hs => by
        simp [setRow, hne q hq' r hr hs]

/-- A receipt that is committed and reported as failed. -/
theorem CardInv.reported (hp : s.phase = .receipt row write left rest) (ha : s.writer.alive = true) {deferred : Bool}
    (hj : write.job s.clock row.id s.writer.db = .ok (deferred, t))
    (hn : p = .batch rest ∨ p = .backoff row write left rest) :
    CardInv C { s with writer := { db := t, alive := false }, phase := p } := by
  have hmem : (row, write) ∈ s.phase.current := by rw [hp]; rfl
  have h' := (h.committed hp ha hj).setAlive (b := false) (by simp)
  rcases hn with rfl | rfl
  · exact h'
  · refine ⟨?_, h'.queue_live, by simp, ?_, h'.patched_lt, h'.live_anchored, by simp, by simp, h'.quiet⟩
    · have := h.held_sorted
      rw [hp] at this
      exact this
    · intro c hc
      cases hc
      exact h.current_certain _ hmem

theorem CardInv.claim {rows : List (Row OutboxRow)}
    (hpre : rows <+: s.writer.db.rows.filter (due readAt)) (hm : Table.Maps (claimRow now rows) s.writer.db t) :
    CardInv C { s with writer := { s.writer with db := t }, phase := .batch (rows.map claimed) } := by
  have hpending : ∀ r ∈ rows, r ∈ s.writer.db.rows ∧ r.val.state = .pending := by
    intro r hr
    obtain ⟨hr, hdue⟩ := List.mem_filter.1 (hpre.subset hr)
    exact ⟨hr, by simp [due] at hdue; exact hdue.1⟩
  have hpay : ∀ r, (claimRow now rows r).payloadJson = r.val.payloadJson := by
    intro r; unfold claimRow; split <;> rfl
  refine h.rewrite hm ⟨?_, ?_, ?_⟩ (fun r _ _ => hpay r) rfl rfl ?_ ?_
  · intro r _; unfold claimRow; split <;> rfl
  · intro r _ hs
    have hr : r ∉ rows := fun hr => by rw [(hpending r hr).2] at hs; cases hs
    simpa [claimRow, hr] using hs
  · intro r _ hl
    by_cases hr : r ∈ rows
    · exact live_of_pending (hpending r hr).2
    · simpa [claimRow, hr] using hl
  · exact List.pairwise_map.2 ((s.writer.db.serial_lt.filter _).sublist hpre.sublist)
  · intro q hq
    obtain ⟨r, hr, rfl⟩ := List.mem_map.1 hq
    exact ⟨r, (hpending r hr).1, rfl, rfl, by simp [claimRow, hr, setSending, OutboxRow.live], hpay r⟩

theorem CardInv.recover (hm : Table.Maps (recoverRow now) s.writer.db t) :
    CardInv C { s with writer := { s.writer with db := t }, phase := .idle } := by
  refine h.rewrite hm ⟨?_, ?_, ?_⟩ ?_ rfl rfl List.Pairwise.nil (by simp [Phase.queue])
  · intro r _; unfold recoverRow; split <;> rfl
  · intro r _ hs; simp [recoverRow, hs]
  · intro r _ hl
    by_cases hs : r.val.state = .sending
    · exact live_of_sending hs
    · simpa [recoverRow, hs] using hl
  · intro r _ _; unfold recoverRow; split <;> rfl

theorem CardInv.release (hp : s.phase = .releasing readAt row rest)
    (hsend : ∃ r ∈ s.writer.db.rows, r.id = row.id ∧ r.val.state = .sending)
    (hm : Table.Maps (setRow row.id fun r => { r with state := .pending, nextRetryMs := readAt, updatedMs := now })
      s.writer.db t) :
    CardInv C { s with writer := { s.writer with db := t }, phase := releaseTail s.clock rest } := by
  have hheld := h.held_sorted
  rw [hp] at hheld
  obtain ⟨hlt, hsorted⟩ := List.pairwise_cons.1 hheld
  have hq : s.phase.queue = row :: rest := by rw [hp]; rfl
  obtain ⟨r₀, hr₀, hid₀, hs₀, -⟩ := h.backed_of_queue (q := row) (by simp [hq])
  obtain ⟨hpq, -, hpc, -, -, -⟩ := releaseTail_spec s.clock rest
  refine h.rewrite hm (tame_setRow hsend fun _ => rfl) ?_ hpc ?_ (by rw [hpq]; exact hsorted) ?_
  · intro r _ _
    unfold setRow
    split <;> rfl
  · cases rest <;> rfl
  · rw [hpq]
    refine h.queue_kept (by rw [hq]; exact List.sublist_cons_self _ _) fun q hq' r hr _ hs => ?_
    have hne : r.id ≠ row.id := by
      intro hid
      rw [Table.eq_of_id hr hr₀ (hid.trans hid₀.symm), hs₀] at hs
      exact absurd hs (hlt q hq').ne
    simp [setRow, hne]

theorem CardInv.returned {outcome : Except DeliveryError String} (hp : s.phase = .sending row operation request rest)
    (hk : EndsCertain s (.net outcome)) :
    CardInv C ({ s with log := s.log ++ [NetEvent.returned row operation request outcome] }.record row
      (recordOutcome C config s.clock row operation request outcome) rest) := by
  have hq : s.phase.queue = row :: rest := by rw [hp]; rfl
  have h' := h.note hp (x := .returned row operation request outcome) rfl rfl (by
    intro hu
    cases outcome with
    | ok m => cases hu
    | error e => simp only [NetEvent.patchUncertain, Bool.and_eq_true] at hu; exact hu.1)
  refine ⟨?_, h'.queue_live, ?_, ?_, h'.patched_lt, h'.live_anchored, by simp [System.record],
    by simp [System.record], h'.quiet⟩
  · have := h.held_sorted
    rw [hp] at this
    exact this
  · intro c hc _
    cases hc
    exact h.backed_of_queue (by simp [hq])
  · -- the fallback follows a failure of known outcome, and by assumption none of unknown outcome came before
    intro c hc hf
    cases hc
    obtain ⟨e, rfl, hpatch, hends, k, m, t, x, f, p, rfl⟩ := recordOutcome_isFallback hf
    have hbefore : patchMayBeApplied s.log row.serial = false := by
      simpa [EndsCertain, endsCertain, hp, hpatch, hends] using hk
    have hcertain : e.failureClass ≠ .uncertain := by
      simp only [endsPatching, Bool.and_eq_true, bne_iff_ne] at hends
      exact hends.1.2
    exact patchMayBeApplied_append.trans (by simp [hbefore, NetEvent.patchUncertain, hcertain])

/-- The receipt under way moves on, as it was or renewed. -/
theorem CardInv.renew {n : ℕ} {w : ReceiptWrite} (hcur : s.phase.current = some (row, w))
    (hw : write.isFallback = w.isFallback)
    (hp : p = .receipt row write n s.phase.queue ∨ p = .backoff row write n s.phase.queue) :
    CardInv C { s with phase := p } := by
  have hmem : (row, w) ∈ s.phase.current := by simp [hcur]
  have hheld : s.phase.held = row :: s.phase.queue := by simp [Phase.held, hcur]
  rcases hp with rfl | rfl
  all_goals
    refine h.rephase (by rw [hheld]; exact List.Sublist.refl _) (List.Sublist.refl _) ?_ rfl
    intro c hc
    cases hc
    exact ⟨h.current_backed (row, w) hmem, fun hf => h.current_certain (row, w) hmem (hw ▸ hf)⟩

end

/-- **One step keeps the invariant.** -/
theorem CardInv.stepTo {s' : System} {e : Event} (h : CardInv C s) (hk : EndsCertain s e) (m : StepTo C config s e s') :
    CardInv C s' := by
  induction m with
  | same => exact h
  | tick => exact h.congr rfl rfl rfl
  | enqueued ht => exact h.grows (ht growsRule)
  | flags _ hw _ hp hl ih => exact ih.congr hw hp hl
  | refused _ hdb ha ih => exact ih.refused hdb ha
  | drop _ hp ih => exact ih.drop hp
  | restart => exact (h.drop (p := .recovering) trivial).setAlive fun _ => .inr rfl
  | record hp hw =>
    refine h.record hp.queue ?_
    rcases hw with rfl | ⟨cls, rfl⟩
    · rfl
    · exact recordFailure_not_fallback _ _ _
  | lookup hp hop hs => exact h.asks hp hop hs
  | deliver hp hop hs => exact h.deliver hp hop hs
  | anchored hp hr => exact h.lookup hp hr
  | returned he hp => exact h.returned hp (he ▸ hk)
  | cut hp => exact h.note hp rfl rfl (by simp [NetEvent.patchUncertain])
  | unsent hp =>
    exact h.rephase (by rw [hp]; exact List.Sublist.refl _) (by rw [hp]; exact List.Sublist.refl _)
      (by simp [releaseTail, Phase.current]) rfl
  | recovered hm => exact h.recover hm
  | claimed _ hpre hm => exact h.claim hpre hm
  | @kept readAt row rest hp =>
    obtain ⟨hpq, -, hpc, -, -, -⟩ := releaseTail_spec s.clock rest
    refine h.rephase ?_ ?_ (by simp [hpc]) (by cases rest <;> rfl)
    · rw [Phase.held, hpc, hpq, hp]; exact List.sublist_cons_self _ _
    · rw [hpq, hp]; exact List.sublist_cons_self _ _
  | released hp hj => exact h.release hp (releaseOutboxClaimAt_ok hj).1 (releaseOutboxClaimAt_ok hj).2
  | @postponed row write left rest p hp hn =>
    rcases hn with rfl | rfl
    · exact h.rephase (by rw [hp]; exact List.sublist_cons_self _ _) (by rw [hp]; exact List.Sublist.refl _)
        (by simp [Phase.current]) rfl
    · exact h.renew (by rw [hp]; rfl) rfl (.inr (by rw [hp]; rfl))
  | @committed row write left rest deferred t hp ha hj =>
    have h' := h.committed hp ha hj
    cases deferred with
    | true => exact h'.drop (p := .idle) trivial
    | false => exact h'
  | reported _ hp ha hj hn => exact h.reported hp ha hj hn
  | woken hp => exact h.renew (by rw [hp]; rfl) (ReceiptWrite.isFallback_reissue _ _) (.inl (by rw [hp]; rfl))
  | gaveUp hp =>
    exact h.rephase (by rw [hp]; exact List.sublist_cons_self _ _) (by rw [hp]; exact List.Sublist.refl _)
      (by simp [Phase.current]) rfl

/-! ## Whole runs -/

/-- No Markdown post of a row after a PATCH of it whose outcome is unknown. -/
def NoDuplicateFinal (log : List NetEvent) : Prop :=
  log.Pairwise fun x y => x.patchUncertain = true → y.postsMarkdown = true → y.row.serial ≠ x.row.serial

instance (log : List NetEvent) : Decidable (NoDuplicateFinal log) :=
  inferInstanceAs (Decidable (log.Pairwise fun x y =>
    x.patchUncertain = true → y.postsMarkdown = true → y.row.serial ≠ x.row.serial))

/-- **No duplicate visible final**, in every run in which no PATCH of a final card that ends its attempts with a known
failure comes after one of unknown outcome. Store calls may fail in any way and the process may crash at any point. -/
theorem no_duplicate_final {clock : ℤ} {events : List Event}
    (h : Along (step C config) EndsCertain (initial clock) events) :
    NoDuplicateFinal (after C config clock events).log :=
  (exec_invariant (fun s e h hk => h.stepTo hk (step_to s e)) (initial_cardInv clock) h).quiet

/-- A progress card is delivered; the calls for its final, a minute apart, have the given outcomes. -/
def finalCard (outcomes : List (Except DeliveryError String)) : List Event :=
  startUp ++ ([.enqueue (sampleRow "t" "progress" 1) .execute, .enqueue (sampleRow "t:final" "final" 2) .execute] : List Event) ++
    deliverFirst (.ok "om_card") ++
    outcomes.zipIdx.flatMap fun (outcome, i) =>
      ([.tick (60000 * (i + 1)), .pump, .store .execute, .pump, .store .execute, .net outcome, .store .execute] : List Event)

/-- Rate-limited, then rejected: the final is posted after two PATCHes that were certainly not applied. -/
def patchRejected : List Event :=
  finalCard [.error (deliveryError (.retryable "patching" (some 429))),
    .error (deliveryError (.protocolViolation "patching" (some 400))), .ok "om_final"]

set_option maxRecDepth 20000 in
theorem no_duplicate_final_patchRejected :
    Along (step sampleCodec {}) EndsCertain (initial 0) patchRejected ∧
      NoDuplicateFinal (after sampleCodec {} 0 patchRejected).log :=
  ⟨by decide, no_duplicate_final (by decide)⟩

/-- A server error, which may have applied the PATCH, then a rejection: the final is posted all the same. -/
def patchLostThenRejected : List Event :=
  finalCard [.error (deliveryError (.retryable "patching" (some 500))),
    .error (deliveryError (.protocolViolation "patching" (some 400))), .ok "om_final"]

set_option maxRecDepth 20000 in
theorem duplicate_final : ¬NoDuplicateFinal (after sampleCodec {} 0 patchLostThenRejected).log := by
  decide

end LarkCodexBridge.Outbox

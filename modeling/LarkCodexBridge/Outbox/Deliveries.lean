import LarkCodexBridge.Outbox.Fifo

/-!
# Deliveries over whole runs

What the invariant `Fifo` says of every run from an empty outbox.

* `deliveries_in_order`: rows are delivered in the order of their insertion, and so are rows of one table in the order
  of their ids;
* `no_blind_resend`: a row whose POST may have been applied is never delivered again;
* `delivered_under_claim`: every delivery happens while its row is durably `sending`.

A row is named by its insertion number, since ids are used again: `idsReused` is a run in which a row of a lower id
is delivered after one of a higher id.
-/

namespace LarkCodexBridge.Outbox

open Limits SqlTable Store StepSystem

/-! ## Conditions on runs -/

/-- An error means that nothing was written. -/
def Fate.honest : Fate → Bool
  | .executeThenFail _ => false
  | _ => true

/-- No store call of the step commits and then reports an error. -/
def Event.honest : Event → Bool
  | .enqueue _ fate | .enqueueBatch _ fate | .inboundReply _ fate | .sweep _ fate | .store fate => Fate.honest fate
  | _ => true

/-- Every store call of the run is executed or rejected without effect. -/
def RejectsWithoutEffect (_ : System) (e : Event) : Prop := e.honest = true

instance (s : System) (e : Event) : Decidable (RejectsWithoutEffect s e) :=
  inferInstanceAs (Decidable (e.honest = true))

variable {C : Codec} {config : OutboxPumpConfig}

theorem keepsTail_of_rejectsWithoutEffect (s : System) (e : Event) (h : RejectsWithoutEffect s e) :
    KeepsTail s e := by
  unfold KeepsTail keepsTail
  split
  · exact absurd h (by simp [RejectsWithoutEffect, Event.honest, Fate.honest])
  · rfl

/-! ## A concrete codec -/

/-- The wire shapes the runs below use, with the text `serde_json` writes for them. -/
def samplePayloads : List (PayloadV2 × String) :=
  [(⟨2, "reply_text", some "om_1", none, none, "hi", none, none⟩,
    "\x7b\"version\":2,\"op\":\"reply_text\",\"message_id\":\"om_1\",\"thread_id\":null,\"text\":\"hi\"\x7d"),
   (⟨2, "reply_progress_card", some "om_1", none, none, "working", none, none⟩,
    "\x7b\"version\":2,\"op\":\"reply_progress_card\",\"message_id\":\"om_1\",\"thread_id\":null,\"text\":\"working\"\x7d"),
   (⟨2, "finalize_progress_card", some "om_1", none, some "t", "done", some "done", none⟩,
    "\x7b\"version\":2,\"op\":\"finalize_progress_card\",\"message_id\":\"om_1\",\"thread_id\":null,\"anchor_key\":\"t\",\"text\":\"done\",\"fallback_markdown\":\"done\"\x7d"),
   (⟨2, "reply_markdown_post", some "om_1", none, none, "done", none, none⟩,
    "\x7b\"version\":2,\"op\":\"reply_markdown_post\",\"message_id\":\"om_1\",\"thread_id\":null,\"text\":\"done\"\x7d")]

/-- JSON on the sample payloads alone. -/
def sampleCodec : Codec where
  versionProbe s := (samplePayloads.find? (·.2 = s)).map (·.1.version)
  payloadV1 _ := none
  payloadV2 s := (samplePayloads.find? (·.2 = s)).map (·.1)
  payloadToString dto := (samplePayloads.find? (·.1 = dto)).map (·.2)
  cardSpec _ := none
  cardSpecToString _ := none
  jsonAnchorKey s := (samplePayloads.find? (·.2 = s)).bind (·.1.anchorKey)
  renderLarkMarkdown s := s

/-- The text of sample payload `i`. -/
def sampleText (i : ℕ) : String := ((samplePayloads[i]?).map (·.2)).getD ""

/-- A new row with sample payload `i`. -/
def sampleRow (key kind : String) (i : ℕ) : NewOutboxRow := ⟨key, "im:oc", kind, sampleText i, 0⟩

/-- The pump starts on a connected transport. -/
def startUp : List Event := [.restart, .store .execute, .connect]

/-- The pump claims, and sends the first row with the given outcome and a recorded receipt. -/
def deliverFirst (outcome : Except DeliveryError String) : List Event :=
  [.pump, .store .execute, .pump, .net outcome, .store .execute]

/-- The pump sends the next row of its batch. -/
def deliverNext (outcome : Except DeliveryError String) : List Event := [.pump, .net outcome, .store .execute]

/-- Two rows are delivered; seven days later they are swept, and the next row gets the id of the first. -/
def idsReused : List Event :=
  startUp ++ ([.enqueue (sampleRow "a" "notice" 0) .execute, .enqueue (sampleRow "b" "notice" 0) .execute] : List Event) ++
    deliverFirst (.ok "om_r1") ++ deliverNext (.ok "om_r2") ++
    ([.pump, .tick 604800001, .sweep 604800001 .execute, .enqueue (sampleRow "c" "notice" 0) .execute] : List Event) ++
    deliverFirst (.ok "om_r3")

/-! ## Order -/

/-- **Deliveries follow the order of insertion.** Where every rejected store call had no effect, no row is called for
after a row that was inserted later; in particular, of two rows that were in the table together, never the one with
the smaller id after the other. -/
theorem deliveries_in_order {clock : ℤ} {events : List Event}
    (h : Along (step C config) RejectsWithoutEffect (initial clock) events) :
    ((after C config clock events).log.Pairwise fun x y =>
      x.isCall = true → y.isCall = true → x.row.serial ≤ y.row.serial) ∧
    ∀ before rest, events = before ++ rest →
      ∀ i ∈ (after C config clock before).writer.db.rows, ∀ j ∈ (after C config clock before).writer.db.rows,
        i.id < j.id → (after C config clock events).log.Pairwise fun x y =>
          x.isCall = true → y.isCall = true → x.row.serial = j.serial → y.row.serial ≠ i.serial := by
  have hfifo := after_fifo (h.mono keepsTail_of_rejectsWithoutEffect)
  have hord : (after C config clock events).log.Pairwise fun x y =>
      x.isCall = true → y.isCall = true → x.row.serial ≤ y.row.serial := by
    have hs := List.pairwise_filter.1 (List.pairwise_map.1 hfifo.sorted)
    exact hs.imp fun hxy hx hy => hxy hx hy
  refine ⟨hord, fun before rest _ i hi j hj hid => hord.imp fun {x y} hxy hx hy hxj hyi => ?_⟩
  have hlt := (Table.id_lt_iff hi hj).1 hid
  have hle := hxy hx hy
  omega

theorem deliveries_in_order_idsReused :
    Along (step sampleCodec {}) RejectsWithoutEffect (initial 0) idsReused ∧
      ((after sampleCodec {} 0 idsReused).log.Pairwise fun x y =>
        x.isCall = true → y.isCall = true → x.row.serial ≤ y.row.serial) :=
  ⟨by decide, (deliveries_in_order (by decide)).1⟩

set_option maxRecDepth 20000 in
/-- Ids are used again after a sweep, so over a whole run the order of the ids is not the order of the deliveries. -/
theorem deliveries_not_in_id_order :
    Along (step sampleCodec {}) RejectsWithoutEffect (initial 0) idsReused ∧
      ¬(after sampleCodec {} 0 idsReused).log.Pairwise fun x y =>
        x.isCall = true → y.isCall = true → ¬y.row.id < x.row.id := by
  decide

/-! ## Uniqueness -/

/-- The call was for a request that is not idempotent, and it succeeded, failed with an unknown outcome, or was cut off
by a crash. -/
def NetEvent.spends : NetEvent → Bool
  | .call .. => false
  | .returned _ _ request (.ok _) => !request.isPatch
  | .returned _ _ request (.error e) => !request.isPatch && e.failureClass == .uncertain
  | .cut _ _ request => !request.isPatch

theorem NetEvent.settles_of_spends {x : NetEvent} (h : x.spends = true) : x.settles = true := by
  cases x with
  | call row operation request durable => cases h
  | returned row operation request outcome =>
    cases outcome with
    | ok messageId => rfl
    | error e => exact h
  | cut row operation request => rfl

/-- **No blind resend.** Where every rejected store call had no effect, a row whose POST succeeded, ended with an
unknown outcome or was cut off by a crash is never called for again. -/
theorem no_blind_resend {clock : ℤ} {events : List Event}
    (h : Along (step C config) RejectsWithoutEffect (initial clock) events) :
    (after C config clock events).log.Pairwise fun x y =>
      x.spends = true → y.isCall = true → y.row.serial ≠ x.row.serial := by
  have hfifo := after_fifo (h.mono keepsTail_of_rejectsWithoutEffect)
  exact hfifo.quiet.imp fun hxy hx hy => hxy (NetEvent.settles_of_spends hx) hy

/-- A delivered row whose receipt cannot be written, a crash during the next delivery, and a restart. -/
def receiptLost : List Event :=
  startUp ++ ([.enqueue (sampleRow "a" "notice" 0) .execute, .enqueue (sampleRow "b" "notice" 0) .execute] : List Event) ++
    ([.pump, .store .execute, .pump, .net (.ok "om_r1")] : List Event) ++
    ([.store (.reject .queueFull false), .wake, .store (.reject .queueFull false), .wake,
      .store (.reject .queueFull false)] : List Event) ++
    ([.pump, .crash] : List Event) ++ startUp ++ ([.enqueue (sampleRow "c" "notice" 0) .execute] : List Event) ++ deliverFirst (.ok "om_r3")

theorem no_blind_resend_receiptLost :
    Along (step sampleCodec {}) RejectsWithoutEffect (initial 0) receiptLost ∧
      (after sampleCodec {} 0 receiptLost).log.Pairwise fun x y =>
        x.spends = true → y.isCall = true → y.row.serial ≠ x.row.serial :=
  ⟨by decide, no_blind_resend (by decide)⟩

/-! ## Durable claims -/

/-- The call returned success. -/
def NetEvent.succeeds : NetEvent → Bool
  | .returned _ _ _ (.ok _) => true
  | _ => false

/-- A call was made while its row was durably `sending`. -/
def NetEvent.underClaim : NetEvent → Bool
  | .call _ _ _ durable => durable == some .sending
  | _ => true

/-- Every call was made while its row was durably `sending`, and no row that was delivered is `pending`. -/
def DeliveredUnderClaim (s : System) : Prop :=
  (∀ x ∈ s.log, x.underClaim = true) ∧
    ∀ r ∈ s.writer.db.rows, r.val.state = .pending → ∀ x ∈ s.log, x.succeeds = true → x.row.serial ≠ r.serial

/-- **Delivery only under a durable claim**, in every run in which no receipt that parks the rest of a batch is
committed and then reported as failed while that rest is still held. Other store calls may commit and report an error,
after which the writer is closed. -/
theorem delivered_under_claim {clock : ℤ} {events : List Event}
    (h : Along (step C config) KeepsTail (initial clock) events) :
    DeliveredUnderClaim (after C config clock events) := by
  have hfifo := after_fifo h
  refine ⟨fun x hx => ?_, fun r hr hp x hx hs heq => hfifo.pending_open r hr hp ⟨x, hx, ?_, heq⟩⟩
  · cases x with
    | call row operation request durable => simp [NetEvent.underClaim, hfifo.durable _ _ _ _ hx]
    | returned row operation request outcome => rfl
    | cut row operation request => rfl
  · cases x with
    | call row operation request durable => cases hs
    | returned row operation request outcome =>
      cases outcome with
      | ok messageId => rfl
      | error e => cases hs
    | cut row operation request => cases hs

/-- The check of the database files fails after the receipt of a delivered row; the next row is still delivered. -/
def completionReportedFailed : List Event :=
  startUp ++ ([.enqueue (sampleRow "a" "notice" 0) .execute, .enqueue (sampleRow "b" "notice" 0) .execute] : List Event) ++
    ([.pump, .store .execute, .pump, .net (.ok "om_r1"), .store (.executeThenFail (.io "checking")), .wake,
      .store .execute, .wake, .store .execute, .pump, .net (.ok "om_r2"), .crash] : List Event) ++ startUp

theorem delivered_under_claim_completionReportedFailed :
    Along (step sampleCodec {}) KeepsTail (initial 0) completionReportedFailed ∧
      DeliveredUnderClaim (after sampleCodec {} 0 completionReportedFailed) :=
  ⟨by decide, delivered_under_claim (by decide)⟩

/-- The retry receipt of the first row returns both rows to `pending` and is then reported as failed; the pump goes on
and delivers the second row, which a restart finds `pending`. -/
def deferralReportedFailed : List Event :=
  startUp ++ ([.enqueue (sampleRow "a" "notice" 0) .execute, .enqueue (sampleRow "b" "notice" 0) .execute] : List Event) ++
    ([.pump, .store .execute, .pump, .net (.error (deliveryError (.retryable "sending" (some 429)))),
      .store (.executeThenFail (.io "checking")), .wake, .store .execute, .wake, .store .execute,
      .pump, .net (.ok "om_r2"), .crash, .restart] : List Event)

theorem delivered_while_pending :
    ¬DeliveredUnderClaim (after sampleCodec {} 0 deferralReportedFailed) ∧
      (∃ x ∈ (after sampleCodec {} 0 deferralReportedFailed).log, x.underClaim = false) ∧
      ∃ r ∈ (after sampleCodec {} 0 deferralReportedFailed).writer.db.rows, r.val.state = .pending ∧
        ∃ x ∈ (after sampleCodec {} 0 deferralReportedFailed).log, x.succeeds = true ∧ x.row.serial = r.serial := by
  have hcall : ∃ x ∈ (after sampleCodec {} 0 deferralReportedFailed).log, x.underClaim = false := by decide
  refine ⟨fun h => ?_, hcall, by decide⟩
  obtain ⟨x, hx, hclaim⟩ := hcall
  rw [h.1 x hx] at hclaim
  cases hclaim

end LarkCodexBridge.Outbox

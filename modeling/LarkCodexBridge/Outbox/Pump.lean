import LarkCodexBridge.Lib.Run
import LarkCodexBridge.Outbox.Delivery
import LarkCodexBridge.Store.Outbox

/-!
# The outbox pump

The loop `run` and `process_row` as a machine over the store writer. The pump is one task: at any moment it is at the
top of its loop, inside a batch, or waits for the answer to one store request (`claiming`, `lookup`, `receipt`,
`releasing`, `recovering`) or one network call (`sending`). A request carries the clock readings its arguments were
computed from; the job itself reads the clock when it runs.

Everything else is an event that can come between any two of these steps: enqueues by other tasks, inbound replies,
retention sweeps, connection changes, shutdown, a crash of the process at any point and its restart. The system keeps
a `log` of the delivery calls, which no step reads.

* `step`: one event;
* `initial`: an empty outbox before the first start.
-/

namespace LarkCodexBridge.Outbox

open Limits SqlTable Store StepSystem

/-! ## Deciding what to send -/

/-- How a failed send is handled. -/
inductive DeliveryClass where
  | retryable | uncertain | permanent

/-- The class `process_row` gives to a failed POST. -/
def DeliveryFailureClass.toDeliveryClass : DeliveryFailureClass → DeliveryClass
  | .retryable => .retryable
  | .uncertain => .uncertain
  | .definitive => .permanent

inductive ProgressDependency where
  | update | finalize

/-- What the first progress row says about the card. -/
inductive ProgressAnchor where
  | delivered (receipt : String)
  | pending
  | failed
  | uncertain
  deriving DecidableEq

/-- The digits of a decimal number, most significant first. -/
def parseDigits : List Char → ℕ → Option ℕ
  | [], n => some n
  | c :: cs, n => if c.isDigit then parseDigits cs (10 * n + (c.toNat - '0'.toNat)) else none

/-- `str::parse::<u32>`. -/
def parseU32 (text : String) : Option ℕ :=
  let digits := match text.toList with
    | '+' :: cs => cs
    | cs => cs
  if digits.isEmpty then none
  else (parseDigits digits 0).filter (· ≤ u32Max)

/-- `str::strip_prefix` on characters. -/
def stripPrefix : List Char → List Char → Option (List Char)
  | [], text => some text
  | c :: cs, d :: ds => if c = d then stripPrefix cs ds else none
  | _ :: _, [] => none

def validProgressDependency (dependent : OutboxRow) (anchorKey : String) : ProgressDependency → Bool
  | .update =>
    dependent.kind = "progress" &&
      match stripPrefix (anchorKey ++ ":").toList dependent.idempotencyKey.toList with
      | none => false
      | some sequence =>
        match parseU32 (String.ofList sequence) with
        | none => false
        | some n => 0 < n ∧ toString n = String.ofList sequence
  | .finalize => dependent.kind = "final" ∧ dependent.idempotencyKey = anchorKey ++ ":final"

variable (C : Codec)

/-- `progress_anchor` after the lookup; `none` is `DependencyPermanent`. -/
def progressAnchor (dependent : Row OutboxRow) (found : Option (Row OutboxRow)) : Option ProgressAnchor :=
  match found with
  | none => none
  | some row =>
    if row.id ≥ dependent.id ∨ row.val.scopeKey ≠ dependent.val.scopeKey ∨ row.val.kind ≠ "progress" then none
    else
      match OutboxOperation.decode C row.val.payloadJson with
      | .ok (.replyProgressCard ..) =>
        match row.val.state with
        | .sent =>
          match row.val.receiptMessageId with
          | some receipt => if receipt = "" then none else some (.delivered receipt)
          | none => none
        | .pending | .sending => some .pending
        | .failed => some .failed
        | .uncertainDelivery => some .uncertain
      | _ => none

/-- The first step of `send`: a call, a lookup of the progress card, or `DependencyPermanent`. -/
inductive SendStart where
  | deliver (request : OutboundRequest)
  | lookup (anchorKey : String)
  | dependencyPermanent

def startSend (row : Row OutboxRow) : OutboxOperation → SendStart
  | .replyText m t x => .deliver (.replyText m t.isSome x)
  | .replyMarkdownPost m t x => .deliver (.replyMarkdownPost m t.isSome x)
  | .replyInteractiveCard m t spec => .deliver (.replyCard m t.isSome (.interactive spec))
  | .replyProgressCard m t x => .deliver (.replyCard m t.isSome (.run x .running))
  | .updateProgressCard k _ => if validProgressDependency row.val k .update then .lookup k else .dependencyPermanent
  | .finalizeProgressCard k .. =>
    if validProgressDependency row.val k .finalize then .lookup k else .dependencyPermanent

/-- The call that follows the lookup, or the class of a dependency that forbids it. -/
def anchoredRequest (anchor : Option ProgressAnchor) : OutboxOperation → Except DeliveryClass OutboundRequest
  | .updateProgressCard _ x =>
    match anchor with
    | some (.delivered m) => .ok (.updateCard m (.run x .running))
    | some .pending => .error .retryable
    | some .uncertain => .error .uncertain
    | some .failed | none => .error .permanent
  | .finalizeProgressCard _ m t x f phase =>
    match anchor with
    | some (.delivered receipt) => .ok (.updateCard receipt (.run x phase))
    | some .failed => .ok (.replyMarkdownPost m t.isSome f)
    | some .pending => .error .retryable
    | some .uncertain => .error .uncertain
    | none => .error .permanent
  | _ => .error .permanent

/-! ## Deciding what to record -/

/-- Tunables of the pump. -/
structure OutboxPumpConfig where
  retryBaseMs : ℕ := outboxRetryBaseMs
  retryMaxMs : ℕ := outboxRetryMaxMs
  claimBatch : ℕ := storeOutboxClaimMaxBatch

def retryDelayMs (attempts : ℕ) (config : OutboxPumpConfig) : ℤ :=
  let scaled := min (config.retryBaseMs * 2 ^ min (attempts - 1) 10) u64Max
  min (Nat.cast (min scaled config.retryMaxMs)) i64Max

/-- One receipt write with its arguments. -/
inductive ReceiptWrite where
  | complete (messageId : String)
  | failUncertain (attempts : ℕ) (now : ℤ)
  | failAndDefer (attempts : ℕ) (retryAt : ℤ)
  | failTerminal
  | fallback (payloadJson : String)

/-- The store job of a receipt write; the value says whether the row was deferred. -/
def ReceiptWrite.job (now : ℤ) (id : ℕ) : ReceiptWrite → Job OutboxTable Bool
  | .complete messageId => fun t => (completeOutbox now id messageId t).map fun p => (false, p.2)
  | .failUncertain attempts retryMs => fun t => (failOutbox now id attempts retryMs true t).map fun p => (false, p.2)
  | .failAndDefer attempts retryAt => failOutboxAndDeferSuccessors now id attempts retryAt
  | .failTerminal => fun t => (failOutboxTerminal now id t).map fun p => (false, p.2)
  | .fallback payloadJson => fun t => (replaceOutboxWithFallback now id payloadJson t).map fun p => (true, p.2)

/-- The write of a further attempt: the `now_ms()` among its arguments is read again. -/
def ReceiptWrite.reissue (now : ℤ) : ReceiptWrite → ReceiptWrite
  | .failUncertain attempts _ => .failUncertain attempts now
  | w => w

variable (config : OutboxPumpConfig)

/-- `record_failure` (and `record_classified_failure`) at the instant `now`. -/
def recordFailure (now : ℤ) (row : Row OutboxRow) : DeliveryClass → ReceiptWrite
  | .retryable =>
    let attempts := nextAttempt row.val.attempts
    .failAndDefer attempts (saturateI64 (now + retryDelayMs attempts config))
  | .uncertain => .failUncertain (nextAttempt row.val.attempts) now
  | .permanent => .failTerminal

def recordFinalCardPatchFailure (now : ℤ) (row : Row OutboxRow) (operation : OutboxOperation) (error : DeliveryError) :
    ReceiptWrite :=
  let attempts := nextAttempt row.val.attempts
  if error.patchRetryable ∧ attempts < storeOutboxMaxAttempts then recordFailure config now row .retryable
  else if error.failureClass = .uncertain then recordFailure config now row .uncertain
  else if error.failureClass = .retryable ∧ attempts < storeOutboxMaxAttempts then
    recordFailure config now row .retryable
  else
    match operation with
    | .finalizeProgressCard _ messageId threadId _ fallbackMarkdown _ =>
      match OutboxOperation.encode C (.replyMarkdownPost messageId threadId fallbackMarkdown) with
      | .ok payloadJson => .fallback payloadJson
      | .error _ => recordFailure config now row .permanent
    | _ => recordFailure config now row .permanent

def recordCardPatchFailure (now : ℤ) (row : Row OutboxRow) (operation : OutboxOperation) (error : DeliveryError) :
    ReceiptWrite :=
  match operation with
  | .finalizeProgressCard .. => recordFinalCardPatchFailure C config now row operation error
  | _ =>
    if error.patchRetryable ∧ nextAttempt row.val.attempts < storeOutboxMaxAttempts then
      recordFailure config now row .retryable
    else if error.failureClass = .uncertain then recordFailure config now row .uncertain
    else recordFailure config now row .permanent

/-- The receipt `process_row` writes once a delivery call has returned. -/
def recordOutcome (now : ℤ) (row : Row OutboxRow) (operation : OutboxOperation) (request : OutboundRequest) :
    Except DeliveryError String → ReceiptWrite
  | .ok messageId => if messageId = "" then .failUncertain (row.val.attempts + 1) now else .complete messageId
  | .error error =>
    if request.isPatch then recordCardPatchFailure C config now row operation error
    else recordFailure config now row error.failureClass.toDeliveryClass

/-! ## The machine -/

/-- Where the pump stands; the rows are its own copies, as the claim returned them. -/
inductive Phase where
  | down
  | recovering
  | idle
  | claiming (now : ℤ)
  | batch (rest : List (Row OutboxRow))
  | lookup (row : Row OutboxRow) (operation : OutboxOperation) (anchorKey : String) (rest : List (Row OutboxRow))
  | sending (row : Row OutboxRow) (operation : OutboxOperation) (request : OutboundRequest)
      (rest : List (Row OutboxRow))
  /-- A receipt write is under way, with `left` further attempts. -/
  | receipt (row : Row OutboxRow) (write : ReceiptWrite) (left : ℕ) (rest : List (Row OutboxRow))
  /-- Sleeping before the next attempt of a receipt write. -/
  | backoff (row : Row OutboxRow) (write : ReceiptWrite) (left : ℕ) (rest : List (Row OutboxRow))
  | releasing (now : ℤ) (row : Row OutboxRow) (rest : List (Row OutboxRow))
  | stopped

/-- `release_tail`: the next row of an unsent tail, then the top of the loop. -/
def releaseTail (now : ℤ) : List (Row OutboxRow) → Phase
  | [] => .idle
  | row :: rest => .releasing now row rest

/-- One entry of the log of delivery calls. A call notes the durable state of its row at that moment. -/
inductive NetEvent where
  | call (row : Row OutboxRow) (operation : OutboxOperation) (request : OutboundRequest)
      (durable : Option OutboxState)
  | returned (row : Row OutboxRow) (operation : OutboxOperation) (request : OutboundRequest)
      (outcome : Except DeliveryError String)
  /-- The process died while the call was under way. -/
  | cut (row : Row OutboxRow) (operation : OutboxOperation) (request : OutboundRequest)

structure System where
  writer : Writer OutboxTable
  clock : ℤ
  connected : Bool
  shutdown : Bool
  phase : Phase
  log : List NetEvent

inductive Event where
  /-- The wall clock advances to `now`. -/
  | tick (now : ℤ)
  | enqueue (row : NewOutboxRow) (fate : Fate)
  | enqueueBatch (rows : List NewOutboxRow) (fate : Fate)
  | inboundReply (notice : NewOutboxRow) (fate : Fate)
  /-- The maintenance task sweeps with the clock it read at `sweepNowMs`. -/
  | sweep (sweepNowMs : ℤ) (fate : Fate)
  | connect
  | disconnect
  | shutdown
  /-- The pump goes on from a point where it waits for nothing. -/
  | pump
  /-- The store request of the pump is answered. -/
  | store (fate : Fate)
  /-- The delivery call of the pump returns. -/
  | net (outcome : Except DeliveryError String)
  /-- The sleep between two receipt attempts ends, or shutdown ends it. -/
  | wake
  | giveUp
  | crash
  | restart

/-- An empty outbox, before the first start. -/
def initial (clock : ℤ) : System where
  writer := { db := Table.empty, alive := false }
  clock := clock
  connected := false
  shutdown := false
  phase := .down
  log := []

/-- The durable state of the row a copy was taken from. -/
def durableState (t : OutboxTable) (row : Row OutboxRow) : Option OutboxState :=
  match t.get? row.id with
  | some r => if r.serial = row.serial then some r.val.state else none
  | none => none

def System.call (s : System) (row : Row OutboxRow) (operation : OutboxOperation) (request : OutboundRequest)
    (rest : List (Row OutboxRow)) : System :=
  { s with
    phase := .sending row operation request rest
    log := s.log ++ [.call row operation request (durableState s.writer.db row)] }

/-- The first attempt of a receipt write. -/
def System.record (s : System) (row : Row OutboxRow) (write : ReceiptWrite) (rest : List (Row OutboxRow)) : System :=
  { s with phase := .receipt row write (storeReceiptWriteAttempts - 1) rest }

/-- `process_row` up to its first wait. -/
def System.processRow (s : System) (row : Row OutboxRow) (rest : List (Row OutboxRow)) : System :=
  match OutboxOperation.decode C row.val.payloadJson with
  | .error _ => s.record row .failTerminal rest
  | .ok operation =>
    match startSend row operation with
    | .deliver request => s.call row operation request rest
    | .lookup anchorKey => { s with phase := .lookup row operation anchorKey rest }
    | .dependencyPermanent => s.record row (recordFailure config s.clock row .permanent) rest

/-- One step of the pump that waits for nothing. -/
def System.pump (s : System) : System :=
  match s.phase with
  | .idle =>
    if s.shutdown then { s with phase := .stopped }
    else if s.connected then { s with phase := .claiming s.clock }
    else s
  | .batch [] => { s with phase := .idle }
  | .batch (row :: rest) =>
    if s.shutdown ∨ !s.connected then { s with phase := releaseTail s.clock (row :: rest) }
    else s.processRow C config row rest
  | _ => s

/-- The pump goes on with the answer to its store request. -/
def System.store (s : System) (fate : Fate) : System :=
  match s.phase with
  | .recovering => { s with writer := (s.writer.runSized fate (recoverSendingOutbox s.clock)).2, phase := .idle }
  | .claiming now =>
    match s.writer.runSized fate (claimOutboxBatch s.clock now config.claimBatch) with
    | (.ok rows, w) => { s with writer := w, phase := .batch rows }
    | (.error _, w) => { s with writer := w, phase := .idle }
  | .lookup row operation anchorKey rest =>
    match s.writer.runSized fate (outboxRowByKey anchorKey) with
    | (.error _, w) => { s with writer := w }.record row (recordFailure config s.clock row .retryable) rest
    | (.ok found, w) =>
      match anchoredRequest (progressAnchor C row found) operation with
      | .ok request => { s with writer := w }.call row operation request rest
      | .error cls => { s with writer := w }.record row (recordFailure config s.clock row cls) rest
  | .receipt row write left rest =>
    match s.writer.runSized fate (write.job s.clock row.id) with
    | (.ok deferred, w) => { s with writer := w, phase := if deferred then .idle else .batch rest }
    | (.error _, w) =>
      { s with writer := w, phase := if left = 0 then .batch rest else .backoff row write left rest }
  | .releasing now row rest =>
    { s with
      writer := (s.writer.runSized fate (releaseOutboxClaimAt s.clock row.id now)).2
      phase := releaseTail s.clock rest }
  | _ => s

/-- The pump goes on with the outcome of its delivery call. -/
def System.net (s : System) (outcome : Except DeliveryError String) : System :=
  match s.phase with
  | .sending row operation request rest =>
    { s with log := s.log ++ [NetEvent.returned row operation request outcome] }.record row
      (recordOutcome C config s.clock row operation request outcome) rest
  | _ => s

/-- The process dies; what is durable stays. -/
def System.crash (s : System) : System :=
  { s with
    writer := { s.writer with alive := false }
    connected := false
    shutdown := false
    phase := .down
    log := match s.phase with
      | .sending row operation request _ => s.log ++ [.cut row operation request]
      | _ => s.log }

/-- A job of another task. -/
def System.submit {α : Type} (s : System) (fate : Fate) (job : Job OutboxTable α) : System :=
  { s with writer := (s.writer.runSized fate job).2 }

/-- One event. -/
def step (s : System) : Event → System
  | .tick now => if s.clock ≤ now ∧ now ≤ i64Max then { s with clock := now } else s
  | .enqueue row fate => s.submit fate (enqueueOutbox C s.clock row)
  | .enqueueBatch rows fate => s.submit fate (enqueueOutboxBatch C s.clock rows)
  | .inboundReply notice fate =>
    s.submit fate fun t => (enqueueInboundReplyInTransaction C s.clock notice t).map fun t => ((), t)
  | .sweep sweepNowMs fate =>
    if sweepNowMs ≤ s.clock then
      s.submit fate (sweepTerminalOutbox C (saturateI64 (sweepNowMs - outboxTerminalRetentionMs)) outboxSweepBatch)
    else s
  | .connect => { s with connected := true }
  | .disconnect => { s with connected := false }
  | .shutdown => { s with shutdown := true }
  | .pump => s.pump C config
  | .store fate => s.store C config fate
  | .net outcome => s.net C config outcome
  | .wake =>
    match s.phase with
    | .backoff row write left rest => { s with phase := .receipt row (write.reissue s.clock) (left - 1) rest }
    | _ => s
  | .giveUp =>
    match s.phase with
    | .backoff _ _ _ rest => if s.shutdown then { s with phase := .batch rest } else s
    | _ => s
  | .crash => s.crash
  | .restart =>
    match s.phase with
    | .down => { s with writer := { s.writer with alive := true }, phase := .recovering }
    | _ => s

/-- The state after a run from an empty outbox. -/
def after (clock : ℤ) (events : List Event) : System := exec (step C config) (initial clock) events

end LarkCodexBridge.Outbox

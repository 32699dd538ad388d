import LarkCodexBridge.Outbox.Attempts
import LarkCodexBridge.Render.Final

/-!
# The durable reply sink

The rows that `OutboxReplySink` enqueues for a turn (its progress, its final answer, its terminal notice) and builds
for an inbound event (rejection notice, control reply, control card), and what the pump reads from them.

* `decode_encode_iff`: an encoded operation decodes exactly when its ids and texts are not empty, and then to itself;
* `sink_decodes_back`: every row that the sink builds decodes to the operation that was encoded.
-/

namespace LarkCodexBridge.Outbox

open Limits Store Lark Fallible
open LarkCodexBridge.Render (ProjectedReply ReplyProjector TurnOutcome)
open LarkCodexBridge.Render.Markdown (JsonEscaping)

/-! ## Reading back what was encoded -/

section RoundTrip

variable {C : Codec}

/-- The ids and texts that the operation has are not empty. -/
def OutboxOperation.WellFormed : OutboxOperation → Prop
  | .replyText messageId threadId text | .replyMarkdownPost messageId threadId text
  | .replyProgressCard messageId threadId text => messageId ≠ "" ∧ threadId ≠ some "" ∧ text ≠ ""
  | .replyInteractiveCard messageId threadId _ => messageId ≠ "" ∧ threadId ≠ some ""
  | .updateProgressCard anchorKey text => anchorKey ≠ "" ∧ text ≠ ""
  | .finalizeProgressCard anchorKey messageId threadId text fallbackMarkdown _ =>
    anchorKey ≠ "" ∧ messageId ≠ "" ∧ threadId ≠ some "" ∧ text ≠ "" ∧ fallbackMarkdown ≠ ""

/-- The JSON writer writes the card, and the reader reads it back. -/
def Codec.ReadsBack (C : Codec) (spec : InteractiveCardSpec) : Prop :=
  ∃ json, json ≠ "" ∧ C.cardSpecToString spec = some json ∧ C.cardSpec json = some spec

def OutboxOperation.CardReadable (C : Codec) : OutboxOperation → Prop
  | .replyInteractiveCard _ _ spec => C.ReadsBack spec
  | _ => True

/-- The operation ends no run card in the running phase. -/
def OutboxOperation.Ends : OutboxOperation → Prop
  | .finalizeProgressCard _ _ _ _ _ phase => phase ≠ .running
  | _ => True

theorem validateThreadId_eq_ok {threadId : Option String} : validateThreadId threadId = .ok () ↔ threadId ≠ some "" := by
  unfold validateThreadId
  split <;> simp [*]

/-- A check with an error passes when its condition fails. -/
theorem check_eq_ok {ε α : Type} {p : Prop} [Decidable p] {e : ε} {x : Except ε α} {a : α} :
    (if p then .error e else x) = .ok a ↔ ¬p ∧ x = .ok a := by
  split <;> simp [*]

variable (C) in
/-- The operation of a reply whose target and text passed their checks. -/
def replyOf (op messageId : String) (threadId : Option String) (text : String) : Except OutboxError OutboxOperation :=
  match op with
  | "reply_text" => .ok (.replyText messageId threadId text)
  | "reply_markdown_post" => .ok (.replyMarkdownPost messageId threadId text)
  | "reply_interactive_card" =>
    match C.cardSpec text with
    | none => .error .deserialize
    | some spec => .ok (.replyInteractiveCard messageId threadId spec)
  | "reply_progress_card" => .ok (.replyProgressCard messageId threadId text)
  | _ => .error .unknownOperation

/-- A reply passes the checks of its target and text. -/
theorem decodeReply_eq_ok {op messageId text : String} {threadId : Option String} {decoded : OutboxOperation} :
    decodeReply C (PayloadV2.ofOperation.reply op messageId threadId text) = .ok decoded ↔
      (messageId ≠ "" ∧ threadId ≠ some "" ∧ text ≠ "") ∧ replyOf C op messageId threadId text = .ok decoded := by
  calc decodeReply C (PayloadV2.ofOperation.reply op messageId threadId text) = .ok decoded
      ↔ ¬_ ∧ ¬_ ∧ validateThreadId threadId = .ok () ∧ replyOf C op messageId threadId text = .ok decoded :=
        check_eq_ok.trans (and_congr_right fun _ => check_eq_ok.trans (and_congr_right fun _ => seq_eq_ok))
    _ ↔ _ := by
      rw [validateThreadId_eq_ok]
      simp only [PayloadV2.ofOperation.reply, Option.isSome_none, Bool.false_eq_true, or_false, ne_eq]
      tauto

theorem ok_eq_ok {α ε : Type} {a b : α} : (.ok a : Except ε α) = .ok b ↔ b = a := by
  rw [Except.ok.injEq, eq_comm]

/-- What was encoded is read by the strict decoder as itself, and only where its ids and texts are not empty. -/
theorem decodeV2_ofOperation {operation decoded : OutboxOperation} (hends : operation.Ends)
    (hcard : operation.CardReadable C) :
    decodeV2 C (PayloadV2.ofOperation C operation) = .ok decoded ↔ operation.WellFormed ∧ decoded = operation := by
  cases operation with
  | replyText m t x | replyMarkdownPost m t x | replyProgressCard m t x =>
    exact (@decodeReply_eq_ok C ..).trans (and_congr_right' ok_eq_ok)
  | replyInteractiveCard m t spec =>
    obtain ⟨json, hjson, hwrite, hread⟩ := hcard
    have hcarried : replyOf C "reply_interactive_card" m t json = .ok (.replyInteractiveCard m t spec) := by
      simp only [replyOf, hread]
    have hdto : PayloadV2.ofOperation C (.replyInteractiveCard m t spec) =
        PayloadV2.ofOperation.reply "reply_interactive_card" m t json := by
      simp only [PayloadV2.ofOperation, hwrite, Option.getD_some]
    rw [hdto]
    refine decodeReply_eq_ok.trans ?_
    rw [hcarried, ok_eq_ok]
    simp [OutboxOperation.WellFormed, hjson]
  | updateProgressCard k x =>
    refine check_eq_ok.trans ?_
    rw [ok_eq_ok]
    simp [OutboxOperation.WellFormed, PayloadV2.ofOperation]
  | finalizeProgressCard k m t x f phase =>
    refine (check_eq_ok.trans (and_congr_right fun _ => seq_eq_ok)).trans ?_
    rw [validateThreadId_eq_ok]
    cases phase with
    | running => exact absurd rfl hends
    | done | interrupted | failed =>
      refine (and_congr_right fun _ => and_congr_right fun _ => ok_eq_ok).trans ?_
      simp only [OutboxOperation.WellFormed, PayloadV2.ofOperation, ne_eq]
      tauto

/-- What `encode` accepts is written within the byte cap. -/
theorem of_encode {operation : OutboxOperation} {json : String} (h : operation.encode C = .ok json) :
    operation.Ends ∧ C.payloadToString (PayloadV2.ofOperation C operation) = some json ∧
      json.utf8ByteSize ≤ storeOutboxPayloadMaxBytes := by
  unfold OutboxOperation.encode at h
  split at h
  · cases h
  · rename_i hrunning
    refine ⟨?_, ?_⟩
    · cases operation with
      | finalizeProgressCard k m t x f phase => exact fun heq => hrunning k m t x f (by rw [heq])
      | _ => trivial
    · split at h
      · cases h
      · rename_i json' hjson
        obtain ⟨hle, heq⟩ := check_eq_ok.1 h
        obtain rfl := Except.ok.inj heq
        exact ⟨hjson, not_lt.1 hle⟩

variable {operation decoded : OutboxOperation} {json : String}

/-- **An encoded operation decodes exactly when its ids and texts are not empty, and then to itself.** -/
theorem decode_encode_iff (hC : C.RoundTrips) (hcard : operation.CardReadable C) (h : operation.encode C = .ok json) :
    OutboxOperation.decode C json = .ok decoded ↔ operation.WellFormed ∧ decoded = operation := by
  obtain ⟨hends, hwrite, hle⟩ := of_encode h
  have hversion : C.versionProbe json = some 2 := by
    rw [hC.version _ _ hwrite]
    cases operation <;> rfl
  rw [OutboxOperation.decode, if_neg (not_lt.2 hle), hversion, hC.payload _ _ hwrite]
  exact decodeV2_ofOperation hends hcard

/-- A payload that decodes was encoded from nothing else. -/
theorem encode_injective (hC : C.RoundTrips) {other : OutboxOperation} (hcard : other.CardReadable C)
    (hother : other.encode C = .ok json) (hdecode : OutboxOperation.decode C json = .ok operation) : other = operation :=
  ((decode_encode_iff hC hcard hother).1 hdecode).2.symm

end RoundTrip

/-! ## Turns and their sources -/

/-- Failure of the durable reply boundary. -/
inductive ReplySinkError where
  | unavailable | capacity | invariant
  deriving DecidableEq

/-- Where the replies of a turn go. The ids are those of a claimed event, which the store has checked. -/
structure TurnSource where
  eventId : String
  messageId : String
  chatId : String
  threadId : Option String
  messageId_ne : messageId ≠ ""
  threadId_ne : threadId ≠ some ""

/-- One snapshot of the progress of a running turn. -/
structure TurnProgress where
  turnRowId : ℤ
  scopeKey : String
  source : TurnSource
  sequence : ℕ
  text : String

/-- Category of a failed turn. -/
inductive TurnFailureKind where
  | attachment | workspace | turnStartRejected | turnFailed | connectionLost | interrupted

def TurnFailureKind.notice : TurnFailureKind → String
  | .attachment => "任务执行失败（附件未能处理）"
  | .workspace => "任务执行失败（工作目录无效）"
  | .turnStartRejected => "任务未能启动（模型或请求被拒绝）"
  | .turnFailed => "任务执行失败（Codex 返回失败）"
  | .connectionLost => "任务执行结果未知，请重新发起"
  | .interrupted => "任务已中断"

/-- The result of a turn whose replies are to be enqueued. -/
structure TurnFinalization where
  turnRowId : ℤ
  scopeKey : String
  sources : List TurnSource
  resolution : TurnResolution
  outcome : Option TurnOutcome
  failure : Option TurnFailureKind

section Sources

variable {event : InboundEvent}

theorem validateId_ne {value context : String} (h : validateId value context = .ok ()) : value ≠ "" := by
  rintro rfl
  exact (check_eq_ok.1 h).1 (.inl rfl)

/-- An event that the store has checked names its message, and its thread if it has one. -/
theorem validateEvent_ids (h : validateEvent event = .ok ()) : event.messageId ≠ "" ∧ event.threadId ≠ some "" := by
  obtain ⟨hids, -⟩ := validateEvent_eq_ok.1 h
  obtain ⟨hkey, hids⟩ := seq_eq_ok.1 hids
  obtain ⟨-, hids⟩ := seq_eq_ok.1 hids
  obtain ⟨-, hids⟩ := seq_eq_ok.1 hids
  obtain ⟨hthread, -⟩ := seq_eq_ok.1 hids
  refine ⟨validateId_ne (seq_eq_ok.1 hkey).2, fun heq => ?_⟩
  rw [heq] at hthread
  exact validateId_ne hthread rfl

def TurnSource.ofEvent (event : InboundEvent) (h : validateEvent event = .ok ()) : TurnSource where
  eventId := event.eventId
  messageId := event.messageId
  chatId := event.chatId
  threadId := event.threadId
  messageId_ne := (validateEvent_ids h).1
  threadId_ne := (validateEvent_ids h).2

variable {I : InboundCodec} {scopeKey : String}

end Sources

end LarkCodexBridge.Outbox

namespace LarkCodexBridge.Outbox.Sink

open Limits Store Lark Fallible
open LarkCodexBridge.Render (ProjectedReply ReplyProjector TurnOutcome)
open LarkCodexBridge.Render.Final (projectFinal finish withDefaults Shown projectFinal_shown finish_shown)
open LarkCodexBridge.Render.Markdown (JsonEscaping)
open LarkCodexBridge.Runtime (trim)

/-! ## Rows of inbound events -/

section Rows

variable (C : Codec)

/-- The row of an operation, which `encode` may refuse. -/
def newRow (idempotencyKey scopeKey kind : String) (operation : OutboxOperation) : Except ReplySinkError NewOutboxRow :=
  match operation.encode C with
  | .error _ => .error .invariant
  | .ok payloadJson => .ok ⟨idempotencyKey, scopeKey, kind, payloadJson, 0⟩

def rejectionText : InboundRejectionKind → String
  | .overloaded => "当前处理负载过高，请稍后重试"
  | .notOwner | .notSender | .notGroup | .missingMention | .ownerCommandRequired | .policy => "该消息未获授权处理"
  | .stale => "消息已过期，未处理"
  | .internal => "处理该消息时发生内部错误"

def rejectionNotice (key : InboundKey) (event : InboundEvent) (reason : InboundRejectionKind) :
    Except ReplySinkError NewOutboxRow :=
  newRow C (key.rejectionOutboxIdempotencyKey reason) event.scope.toString "notice"
    (.replyText event.messageId event.threadId (rejectionText reason))

def replyMessageMaxChars : ℕ := 4000

def controlReply (key : InboundKey) (event : InboundEvent) (text : String) : Except ReplySinkError NewOutboxRow :=
  if text.length = 0 ∨ text.length > replyMessageMaxChars then .error .invariant
  else
    newRow C key.controlOutboxIdempotencyKey event.scope.toString "control"
      (.replyText event.messageId event.threadId text)

def controlCard (key : InboundKey) (event : InboundEvent) (spec : InteractiveCardSpec) :
    Except ReplySinkError NewOutboxRow :=
  newRow C key.controlOutboxIdempotencyKey event.scope.toString "control"
    (.replyInteractiveCard event.messageId event.threadId spec)

/-! ## Rows of turns -/

/-- The key of the run card of a turn. -/
def anchorKeyOf (turnRowId : ℤ) : String := toString turnRowId ++ ":progress"

def progress (update : TurnProgress) : Except ReplySinkError NewOutboxRow :=
  let anchorKey := anchorKeyOf update.turnRowId
  if update.sequence = 0 then
    newRow C anchorKey update.scopeKey "progress"
      (.replyProgressCard update.source.messageId update.source.threadId update.text)
  else
    newRow C (anchorKey ++ ":" ++ toString update.sequence) update.scopeKey "progress"
      (.updateProgressCard anchorKey update.text)

def nonemptyFallbackMarkdown (text : String) : String :=
  if C.renderLarkMarkdown text = "" then "（回复不包含可显示文本）" else C.renderLarkMarkdown text

def failedText : String := "任务执行失败"
def interruptedText : String := "任务已中断"
def uncertainText : String := "任务执行结果未知，请重新发起"

def noticeFor (turn : TurnFinalization) : String :=
  match turn.failure with
  | some kind => kind.notice
  | none =>
    match turn.resolution with
    | .interrupted => interruptedText
    | .uncertain => uncertainText
    | .failed | .completed => failedText

def terminalPhase (turn : TurnFinalization) : RunCardPhase :=
  match turn.failure.getD .turnFailed with
  | .interrupted => .interrupted
  | .connectionLost | .attachment | .workspace | .turnStartRejected | .turnFailed => .failed

/-- One notice, to the last source. -/
def noticeRows (turn : TurnFinalization) (text : String) : Except ReplySinkError (List NewOutboxRow) :=
  match turn.sources.getLast? with
  | none => .ok []
  | some source => do
    let row ← newRow C (toString turn.turnRowId ++ ":notice") turn.scopeKey "notice"
      (.replyText source.messageId source.threadId text)
    .ok [row]

/-- The parts of the final answer, to the last source. -/
def finalRows (turn : TurnFinalization) (parts : List (List Char)) : Except ReplySinkError (List NewOutboxRow) :=
  match turn.sources.getLast? with
  | none => .ok []
  | some source =>
    parts.zipIdx.mapM fun (text, index) =>
      newRow C
        (if index = 0 then toString turn.turnRowId ++ ":final" else toString turn.turnRowId ++ ":final:" ++ toString index)
        turn.scopeKey "final" (.replyMarkdownPost source.messageId source.threadId (.ofList text))

/-- The run card ends in the phase, with its fallback. -/
def finalizeRows (turn : TurnFinalization) (text fallback : String) (phase : RunCardPhase) :
    Except ReplySinkError (List NewOutboxRow) :=
  match turn.sources.getLast? with
  | none => .ok []
  | some source => do
    let row ← newRow C (anchorKeyOf turn.turnRowId ++ ":final") turn.scopeKey "final"
      (.finalizeProgressCard (anchorKeyOf turn.turnRowId) source.messageId source.threadId text
        (nonemptyFallbackMarkdown C fallback) phase)
    .ok [row]

def progressFinalRows (turn : TurnFinalization) (text : String) : Except ReplySinkError (List NewOutboxRow) :=
  finalizeRows C turn text text .done

def progressNoticeRows (turn : TurnFinalization) (text fallback : String) : Except ReplySinkError (List NewOutboxRow) :=
  finalizeRows C turn text fallback (terminalPhase turn)

def terminalNoticeRows (turn : TurnFinalization) (reply : ProjectedReply) : Except ReplySinkError (List NewOutboxRow) :=
  let notice := noticeFor turn
  match reply with
  | .progressFinal text =>
    let body := if trim text = [] then notice else String.ofList text ++ "\n\n---\n" ++ notice
    progressNoticeRows C turn body notice
  | .final _ | .empty => noticeRows C turn notice

def buildProjectedFinalizationRows (turn : TurnFinalization) (reply : ProjectedReply) :
    Except ReplySinkError (List NewOutboxRow) :=
  match turn.resolution with
  | .completed =>
    match reply with
    | .final parts => finalRows C turn parts
    | .progressFinal text => progressFinalRows C turn (.ofList text)
    | .empty => .ok []
  | .failed | .interrupted | .uncertain => terminalNoticeRows C turn reply

/-- The rows of a turn without a projection of its own; `none` is a panic of the projector. -/
def buildFinalizationRows (J : JsonEscaping) (urlScheme : List Char → Option String) (turn : TurnFinalization)
    (projector : ReplyProjector) : Option (Except ReplySinkError (List NewOutboxRow)) :=
  match turn.resolution with
  | .completed =>
    match turn.outcome with
    | none => some (noticeRows C turn uncertainText)
    | some outcome =>
      (projectFinal J urlScheme projector outcome).map fun
        | .final parts => finalRows C turn parts
        | .progressFinal _ => .error .invariant
        | .empty => .ok []
  | .failed | .interrupted | .uncertain => some (noticeRows C turn (noticeFor turn))

/-! ## What the pump reads -/

/-- The payload was encoded from one operation, and decodes to it. -/
def DecodesBack (row : NewOutboxRow) : Prop :=
  ∃ operation : OutboxOperation, operation.encode C = .ok row.payloadJson ∧
    OutboxOperation.decode C row.payloadJson = .ok operation ∧
    ∀ other : OutboxOperation, other.CardReadable C → other.encode C = .ok row.payloadJson → other = operation

variable {C} {idempotencyKey kind : String} {row : NewOutboxRow}

theorem newRow_eq_ok {scopeKey : String} {operation : OutboxOperation} :
    newRow C idempotencyKey scopeKey kind operation = .ok row ↔
      ∃ payloadJson, operation.encode C = .ok payloadJson ∧ row = ⟨idempotencyKey, scopeKey, kind, payloadJson, 0⟩ := by
  rw [newRow]
  cases operation.encode C with
  | error e => simp
  | ok payloadJson => simp [eq_comm]

/-- **The row of a well-formed operation decodes to it.** -/
theorem newRow_decodesBack (hC : C.RoundTrips) {scopeKey : String} {operation : OutboxOperation}
    (h : newRow C idempotencyKey scopeKey kind operation = .ok row) (hformed : operation.WellFormed)
    (hcard : operation.CardReadable C) : DecodesBack C row := by
  obtain ⟨payloadJson, hencode, rfl⟩ := newRow_eq_ok.1 h
  have hdecode := (decode_encode_iff hC hcard hencode).2 ⟨hformed, rfl⟩
  exact ⟨operation, hencode, hdecode, fun other hother h => encode_injective hC hother h hdecode⟩

theorem append_ne_empty {s t : String} (h : t ≠ "") : s ++ t ≠ "" := fun heq => h (String.append_eq_empty_iff.1 heq).2

theorem anchorKeyOf_ne (turnRowId : ℤ) : anchorKeyOf turnRowId ≠ "" := append_ne_empty (by decide)

theorem rejectionText_ne (reason : InboundRejectionKind) : rejectionText reason ≠ "" := by cases reason <;> decide

theorem noticeFor_ne (turn : TurnFinalization) : noticeFor turn ≠ "" := by
  rw [noticeFor]
  split
  · rename_i kind _
    cases kind <;> decide
  · split <;> decide

theorem nonemptyFallbackMarkdown_ne (text : String) : nonemptyFallbackMarkdown C text ≠ "" := by
  rw [nonemptyFallbackMarkdown]
  split
  · decide
  · assumption

section Turns

variable (hC : C.RoundTrips) {turn : TurnFinalization} {rows : List NewOutboxRow} {text : String}
  {reply : ProjectedReply}

theorem mem_singleton_of_ok {row : Except ReplySinkError NewOutboxRow} {r : NewOutboxRow}
    (h : (do let row ← row; .ok [row]) = .ok rows) (hr : r ∈ rows) : row = .ok r := by
  obtain ⟨row', hrow, h⟩ := bind_eq_ok.1 h
  obtain rfl := Except.ok.inj h
  rw [List.mem_singleton.1 hr]
  exact hrow

include hC

theorem noticeRows_decodesBack (htext : text ≠ "") (h : noticeRows C turn text = .ok rows) :
    ∀ row ∈ rows, DecodesBack C row := by
  intro row hrow
  rw [noticeRows] at h
  split at h
  · obtain rfl := Except.ok.inj h
    cases hrow
  · rename_i source _
    have hnew := mem_singleton_of_ok h hrow
    exact newRow_decodesBack hC hnew ⟨source.messageId_ne, source.threadId_ne, htext⟩ trivial

theorem finalizeRows_decodesBack {fallback : String} {phase : RunCardPhase} (htext : text ≠ "")
    (h : finalizeRows C turn text fallback phase = .ok rows) : ∀ row ∈ rows, DecodesBack C row := by
  intro row hrow
  rw [finalizeRows] at h
  split at h
  · obtain rfl := Except.ok.inj h
    cases hrow
  · rename_i source _
    have hnew := mem_singleton_of_ok h hrow
    exact newRow_decodesBack hC hnew
      ⟨anchorKeyOf_ne _, source.messageId_ne, source.threadId_ne, htext, nonemptyFallbackMarkdown_ne fallback⟩ trivial

theorem finalRows_decodesBack {parts : List (List Char)} (hparts : ∀ part ∈ parts, part ≠ [])
    (h : finalRows C turn parts = .ok rows) : ∀ row ∈ rows, DecodesBack C row := by
  intro row hrow
  rw [finalRows] at h
  split at h
  · obtain rfl := Except.ok.inj h
    cases hrow
  · rename_i source _
    obtain ⟨⟨part, index⟩, hmem, hnew⟩ := mem_mapM h hrow
    have hpart : String.ofList part ≠ "" := fun heq =>
      hparts part (List.fst_mem_of_mem_zipIdx hmem) (String.ofList_eq_empty_iff.1 heq)
    dsimp only at hnew
    exact newRow_decodesBack hC hnew ⟨source.messageId_ne, source.threadId_ne, hpart⟩ trivial

theorem terminalNoticeRows_decodesBack (h : terminalNoticeRows C turn reply = .ok rows) :
    ∀ row ∈ rows, DecodesBack C row := by
  have hnotice := noticeFor_ne turn
  cases reply with
  | progressFinal text =>
    refine finalizeRows_decodesBack hC ?_ h
    split
    · exact hnotice
    · exact append_ne_empty hnotice
  | final parts | empty => exact noticeRows_decodesBack hC hnotice h

theorem buildProjectedFinalizationRows_decodesBack (hreply : Shown reply)
    (h : buildProjectedFinalizationRows C turn reply = .ok rows) : ∀ row ∈ rows, DecodesBack C row := by
  unfold buildProjectedFinalizationRows at h
  split at h
  · split at h
    · exact finalRows_decodesBack hC hreply h
    · exact finalizeRows_decodesBack hC (fun heq => hreply (String.ofList_eq_empty_iff.1 heq)) h
    · obtain rfl := Except.ok.inj h
      exact fun row hrow => absurd hrow List.not_mem_nil
  all_goals exact terminalNoticeRows_decodesBack hC h

theorem buildFinalizationRows_decodesBack {J : JsonEscaping} {urlScheme : List Char → Option String}
    {projector : ReplyProjector} (h : buildFinalizationRows C J urlScheme turn projector = some (.ok rows)) :
    ∀ row ∈ rows, DecodesBack C row := by
  rw [buildFinalizationRows] at h
  split at h
  · split at h
    · exact noticeRows_decodesBack hC (by decide) (Option.some.inj h)
    · obtain ⟨reply, hreply, h⟩ := Option.map_eq_some_iff.1 h
      have hshown := projectFinal_shown hreply
      split at h
      · exact finalRows_decodesBack hC hshown h
      · cases h
      · obtain rfl := Except.ok.inj h
        exact fun row hrow => absurd hrow List.not_mem_nil
  all_goals exact noticeRows_decodesBack hC (noticeFor_ne turn) (Option.some.inj h)

theorem progress_decodesBack {update : TurnProgress} {row : NewOutboxRow} (htext : update.text ≠ "")
    (h : progress C update = .ok row) : DecodesBack C row := by
  rw [progress] at h
  split at h
  · exact newRow_decodesBack hC h ⟨update.source.messageId_ne, update.source.threadId_ne, htext⟩ trivial
  · exact newRow_decodesBack hC h ⟨anchorKeyOf_ne _, htext⟩ trivial

end Turns

/-- The rows that the sink builds: for progress with a text, for a finalization with a reply that the projector can
return, and for an event that the store has checked. -/
inductive Builds (C : Codec) : NewOutboxRow → Prop
  | progress {update : TurnProgress} {row : NewOutboxRow} (htext : update.text ≠ "")
      (h : Sink.progress C update = .ok row) : Builds C row
  | finalize {J : JsonEscaping} {urlScheme : List Char → Option String} {turn : TurnFinalization}
      {rows : List NewOutboxRow} {row : NewOutboxRow}
      (h : buildFinalizationRows C J urlScheme turn withDefaults = some (.ok rows)) (hrow : row ∈ rows) : Builds C row
  | finalizeProjected {J : JsonEscaping} {urlScheme : List Char → Option String} {projector : ReplyProjector}
      {outcome : TurnOutcome} {reply : ProjectedReply} {turn : TurnFinalization} {rows : List NewOutboxRow}
      {row : NewOutboxRow}
      (hreply : finish J urlScheme projector outcome = some reply ∨ projectFinal J urlScheme projector outcome = some reply)
      (h : buildProjectedFinalizationRows C turn reply = .ok rows) (hrow : row ∈ rows) : Builds C row
  | rejectionNotice {key : InboundKey} {event : InboundEvent} {reason : InboundRejectionKind} {row : NewOutboxRow}
      (hvalid : validateEvent event = .ok ()) (h : Sink.rejectionNotice C key event reason = .ok row) : Builds C row
  | controlReply {key : InboundKey} {event : InboundEvent} {text : String} {row : NewOutboxRow}
      (hvalid : validateEvent event = .ok ()) (h : Sink.controlReply C key event text = .ok row) : Builds C row
  | controlCard {key : InboundKey} {event : InboundEvent} {spec : InteractiveCardSpec} {row : NewOutboxRow}
      (hvalid : validateEvent event = .ok ()) (hspec : C.ReadsBack spec)
      (h : Sink.controlCard C key event spec = .ok row) : Builds C row

theorem Builds.decodesBack (hC : C.RoundTrips) (h : Builds C row) : DecodesBack C row := by
  cases h with
  | progress htext h => exact progress_decodesBack hC htext h
  | finalize h hrow => exact buildFinalizationRows_decodesBack hC h row hrow
  | finalizeProjected hreply h hrow =>
    have hshown := hreply.elim finish_shown projectFinal_shown
    exact buildProjectedFinalizationRows_decodesBack hC hshown h row hrow
  | @rejectionNotice key event reason _ hvalid h =>
    obtain ⟨hmessage, hthread⟩ := validateEvent_ids hvalid
    rw [Sink.rejectionNotice] at h
    exact newRow_decodesBack hC h ⟨hmessage, hthread, rejectionText_ne reason⟩ trivial
  | @controlReply key event text _ hvalid h =>
    obtain ⟨hmessage, hthread⟩ := validateEvent_ids hvalid
    rw [Sink.controlReply] at h
    obtain ⟨hlength, h⟩ := check_eq_ok.1 h
    have htext : text ≠ "" := by
      rintro rfl
      exact hlength (.inl rfl)
    exact newRow_decodesBack hC h ⟨hmessage, hthread, htext⟩ trivial
  | controlCard hvalid hspec h =>
    obtain ⟨hmessage, hthread⟩ := validateEvent_ids hvalid
    rw [Sink.controlCard] at h
    exact newRow_decodesBack hC h ⟨hmessage, hthread⟩ hspec

/-- **Everything that the sink enqueues decodes to what was encoded**, and so does every operation that `encode` accepts
and whose ids and texts are not empty. -/
theorem sink_decodes_back (hC : C.RoundTrips) :
    (∀ row, Builds C row → DecodesBack C row) ∧
      ∀ (operation : OutboxOperation) json, operation.WellFormed → operation.CardReadable C →
        operation.encode C = .ok json → OutboxOperation.decode C json = .ok operation :=
  ⟨fun _ h => h.decodesBack hC, fun _ _ hformed hcard h => (decode_encode_iff hC hcard h).2 ⟨hformed, rfl⟩⟩

end Rows

/-! ## A control card -/

def newCard : InteractiveCardSpec := ⟨"t", none, "b", .blue, [], none⟩

/-- What `serde_json` writes for the card. -/
def newCardJson : String := "\x7b\"title\":\"t\",\"body\":\"b\",\"accent\":\"blue\"\x7d"

/-- The reply with the card and a progress update, with the text `serde_json` writes for them. -/
def cardPayloads : List (PayloadV2 × String) :=
  [(⟨2, "reply_interactive_card", some "om_1", none, none, newCardJson, none, none⟩,
    "\x7b\"version\":2,\"op\":\"reply_interactive_card\",\"message_id\":\"om_1\",\"thread_id\":null,\"text\":\"\x7b\\\"title\\\":\\\"t\\\",\\\"body\\\":\\\"b\\\",\\\"accent\\\":\\\"blue\\\"\x7d\"\x7d"),
   (⟨2, "update_progress_card", none, none, some "7:progress", "working", none, none⟩,
    "\x7b\"version\":2,\"op\":\"update_progress_card\",\"thread_id\":null,\"anchor_key\":\"7:progress\",\"text\":\"working\"\x7d")]

/-- JSON on these payloads and the card alone. -/
def cardCodec : Codec where
  versionProbe s := (cardPayloads.find? (·.2 = s)).map (·.1.version)
  payloadV1 _ := none
  payloadV2 s := (cardPayloads.find? (·.2 = s)).map (·.1)
  payloadToString dto := (cardPayloads.find? (·.1 = dto)).map (·.2)
  cardSpec s := if s = newCardJson then some newCard else none
  cardSpecToString spec := if spec = newCard then some newCardJson else none
  jsonAnchorKey s := (cardPayloads.find? (·.2 = s)).bind (·.1.anchorKey)
  renderLarkMarkdown s := s

set_option maxRecDepth 20000 in
theorem cardCodec_roundTrips : cardCodec.RoundTrips := by
  have hall : ∀ p ∈ cardPayloads, cardCodec.versionProbe p.2 = some p.1.version ∧ cardCodec.payloadV2 p.2 = some p.1 := by
    decide
  have hmem : ∀ dto json, cardCodec.payloadToString dto = some json → (dto, json) ∈ cardPayloads := by
    intro dto json h
    obtain ⟨p, hp, rfl⟩ := Option.map_eq_some_iff.1 h
    have hdto : p.1 = dto := by simpa using List.find?_some hp
    exact hdto ▸ List.mem_of_find?_eq_some hp
  exact ⟨fun dto json h => (hall _ (hmem dto json h)).1, fun dto json h => (hall _ (hmem dto json h)).2⟩

def commandTenant : TenantNamespace := ⟨List.replicate 32 0x5a, by simp⟩

/-- A command in a direct message. -/
def newEvent : InboundEvent where
  eventId := "evt_1"
  messageId := "om_1"
  chatId := "oc_1"
  senderId := "ou_1"
  chatType := .p2p
  threadId := none
  rootId := none
  replyToMessageId := none
  text := "/new"
  mentionsBot := false
  mentionAll := false
  senderIsHuman := true
  mentions := []
  parts := [.text "/new"]
  resources := []
  messageType := "text"
  createTimeMs := 1
  scope := .chat "oc_1"

theorem newEvent_valid : validateEvent newEvent = .ok () := by decide

/-- The second snapshot of the turn. -/
def secondUpdate : TurnProgress := ⟨7, "im:oc_1", .ofEvent newEvent newEvent_valid, 1, "working"⟩

set_option maxRecDepth 20000 in
theorem sink_decodes_back_newCard : cardCodec.RoundTrips ∧
    (∃ row, controlCard cardCodec ⟨commandTenant, "evt_1"⟩ newEvent newCard = .ok row ∧ DecodesBack cardCodec row) ∧
    (∃ row, progress cardCodec secondUpdate = .ok row ∧ DecodesBack cardCodec row) ∧
    ∃ json, OutboxOperation.encode cardCodec (.updateProgressCard "7:progress" "working") = .ok json ∧
      OutboxOperation.decode cardCodec json = .ok (.updateProgressCard "7:progress" "working") := by
  obtain ⟨hrows, hoperations⟩ := sink_decodes_back cardCodec_roundTrips
  have hcard : cardCodec.ReadsBack newCard := ⟨newCardJson, by decide, by decide, by decide⟩
  have hreply : controlCard cardCodec ⟨commandTenant, "evt_1"⟩ newEvent newCard =
      .ok ⟨InboundKey.controlOutboxIdempotencyKey ⟨commandTenant, "evt_1"⟩, "im:oc_1", "control",
        (cardPayloads[0]?.map (·.2)).getD "", 0⟩ := by decide
  have hupdate : progress cardCodec secondUpdate =
      .ok ⟨"7:progress:1", "im:oc_1", "progress", (cardPayloads[1]?.map (·.2)).getD "", 0⟩ := by decide
  have hencode : OutboxOperation.encode cardCodec (.updateProgressCard "7:progress" "working") =
      .ok ((cardPayloads[1]?.map (·.2)).getD "") := by decide
  exact ⟨cardCodec_roundTrips, ⟨_, hreply, hrows _ (.controlCard newEvent_valid hcard hreply)⟩,
    ⟨_, hupdate, hrows _ (.progress (by decide) hupdate)⟩,
    ⟨_, hencode, hoperations _ _ ⟨by decide, by decide⟩ trivial hencode⟩⟩

end LarkCodexBridge.Outbox.Sink

import Mathlib
import LarkCodexBridge.Limits

/-!
# Outbox payloads

One durable outbound operation (`OutboxOperation`), its strict wire shapes (`PayloadV1`, `PayloadV2`) and the
versioned codec between them (`encode`, `decode`). What lies below the wire shapes is a parameter `Codec`: the JSON
reader and writer, SQLite's own reading of one JSON field, and the Markdown projection used for legacy rows.
-/

namespace LarkCodexBridge.Outbox

open Limits

/-! ## Cards -/

/-- Visual accent of a command card. -/
inductive CardAccent where
  | blue | green | orange | red | grey | purple
  deriving DecidableEq

/-- One callback button of a command card. -/
structure CardButton where
  label : String
  cmd : String
  arg : Option String
  style : Option String
  deriving DecidableEq

/-- Fields of the `/config` form. -/
structure ConfigFormSpec where
  model : String
  effort : String
  sandbox : String
  approval : String
  allowedGroups : List String
  allowedSenders : List String
  deriving DecidableEq

/-- Durable description of a command card. -/
structure InteractiveCardSpec where
  title : String
  subtitle : Option String
  body : String
  accent : CardAccent
  actions : List CardButton
  form : Option ConfigFormSpec
  deriving DecidableEq

/-- Visual phase of a run card. -/
inductive RunCardPhase where
  | running | done | interrupted | failed

/-! ## Operations and wire shapes -/

/-- One durable outbound operation. -/
inductive OutboxOperation where
  | replyText (messageId : String) (threadId : Option String) (text : String)
  | replyMarkdownPost (messageId : String) (threadId : Option String) (markdown : String)
  | replyInteractiveCard (messageId : String) (threadId : Option String) (spec : InteractiveCardSpec)
  | replyProgressCard (messageId : String) (threadId : Option String) (text : String)
  | updateProgressCard (anchorKey : String) (text : String)
  | finalizeProgressCard (anchorKey messageId : String) (threadId : Option String) (text fallbackMarkdown : String)
      (phase : RunCardPhase)

/-- Codec failures. -/
inductive OutboxError where
  | serialize
  | deserialize
  | unsupportedVersion (version : ℕ)
  | unknownOperation
  | invalid (context : String)
  | payloadTooLarge (limit : ℕ)
  deriving DecidableEq

/-- Legacy wire shape, without Markdown fields. -/
structure PayloadV1 where
  version : ℕ
  op : String
  messageId : Option String
  threadId : Option String
  anchorKey : Option String
  text : String

/-- Current wire shape. -/
structure PayloadV2 where
  version : ℕ
  op : String
  messageId : Option String
  threadId : Option String
  anchorKey : Option String
  text : String
  fallbackMarkdown : Option String
  phase : Option String
  deriving DecidableEq

/-- What the codec rests on: `serde_json` on the wire shapes and on card specs, `json_extract(…, '$.anchor_key')` of
the store (`none` where the text is no JSON or has no such field) and `render_lark_markdown`. -/
structure Codec where
  versionProbe : String → Option ℕ
  payloadV1 : String → Option PayloadV1
  payloadV2 : String → Option PayloadV2
  payloadToString : PayloadV2 → Option String
  cardSpec : String → Option InteractiveCardSpec
  cardSpecToString : InteractiveCardSpec → Option String
  jsonAnchorKey : String → Option String
  renderLarkMarkdown : String → String

def outboxPayloadVersion : ℕ := 2
def legacyOutboxPayloadVersion : ℕ := 1

variable (C : Codec)

/-! ## Encoding -/

/-- `PayloadV2::from`. -/
def PayloadV2.ofOperation : OutboxOperation → PayloadV2
  | .replyText m t x => reply "reply_text" m t x
  | .replyMarkdownPost m t x => reply "reply_markdown_post" m t x
  | .replyInteractiveCard m t spec =>
    reply "reply_interactive_card" m t ((C.cardSpecToString spec).getD "\x7b\x7d")
  | .replyProgressCard m t x => reply "reply_progress_card" m t x
  | .updateProgressCard k x => ⟨outboxPayloadVersion, "update_progress_card", none, none, some k, x, none, none⟩
  | .finalizeProgressCard k m t x f phase =>
    { version := outboxPayloadVersion, op := "finalize_progress_card", messageId := some m, threadId := t,
      anchorKey := some k, text := x, fallbackMarkdown := some f
      phase := match phase with
        | .done => none
        | .failed => some "failed"
        | .interrupted => some "interrupted"
        | .running => some "done" }
where
  reply (op m : String) (t : Option String) (x : String) : PayloadV2 :=
    ⟨outboxPayloadVersion, op, some m, t, none, x, none, none⟩

def OutboxOperation.encode (operation : OutboxOperation) : Except OutboxError String :=
  match operation with
  | .finalizeProgressCard _ _ _ _ _ .running => .error (.invalid "running phase cannot finalize a progress card")
  | _ =>
    match C.payloadToString (PayloadV2.ofOperation C operation) with
    | none => .error .serialize
    | some json =>
      if json.utf8ByteSize > storeOutboxPayloadMaxBytes then .error (.payloadTooLarge storeOutboxPayloadMaxBytes)
      else .ok json

/-! ## Decoding -/

def validateThreadId (threadId : Option String) : Except OutboxError Unit :=
  if threadId = some "" then .error (.invalid "empty reply thread_id") else .ok ()

def decodeReply (dto : PayloadV2) : Except OutboxError OutboxOperation :=
  match dto.messageId with
  | none => .error (.invalid "empty reply message_id")
  | some messageId =>
    if messageId = "" ∨ dto.anchorKey.isSome ∨ dto.fallbackMarkdown.isSome ∨ dto.phase.isSome then
      .error (.invalid "invalid reply target")
    else if dto.text = "" then .error (.invalid "empty reply text")
    else do
      validateThreadId dto.threadId
      match dto.op with
      | "reply_text" => .ok (.replyText messageId dto.threadId dto.text)
      | "reply_markdown_post" => .ok (.replyMarkdownPost messageId dto.threadId dto.text)
      | "reply_interactive_card" =>
        match C.cardSpec dto.text with
        | none => .error .deserialize
        | some spec => .ok (.replyInteractiveCard messageId dto.threadId spec)
      | "reply_progress_card" => .ok (.replyProgressCard messageId dto.threadId dto.text)
      | _ => .error .unknownOperation

def decodeProgressUpdate (dto : PayloadV2) : Except OutboxError OutboxOperation :=
  match dto.anchorKey with
  | none => .error (.invalid "empty progress anchor_key")
  | some anchorKey =>
    if anchorKey = "" ∨ dto.messageId.isSome ∨ dto.threadId.isSome ∨ dto.fallbackMarkdown.isSome ∨
        dto.phase.isSome ∨ dto.text = "" then .error (.invalid "invalid progress update")
    else .ok (.updateProgressCard anchorKey dto.text)

def parseRunPhase : String → Except OutboxError RunCardPhase
  | "done" => .ok .done
  | "failed" => .ok .failed
  | "interrupted" => .ok .interrupted
  | _ => .error (.invalid "invalid progress finalization phase")

def decodeProgressFinalization (dto : PayloadV2) : Except OutboxError OutboxOperation :=
  match dto.anchorKey, dto.messageId with
  | some anchorKey, some messageId =>
    match dto.fallbackMarkdown with
    | some fallbackMarkdown =>
      if anchorKey = "" ∨ messageId = "" ∨ dto.text = "" ∨ fallbackMarkdown = "" then
        .error (.invalid "invalid progress finalization")
      else do
        validateThreadId dto.threadId
        let phase ← match dto.phase with
          | none => .ok .done
          | some phase => parseRunPhase phase
        .ok (.finalizeProgressCard anchorKey messageId dto.threadId dto.text fallbackMarkdown phase)
    | none => .error (.invalid "invalid progress finalization")
  | _, _ => .error (.invalid "missing progress finalization target")

def legacyFallbackMarkdown (text : String) : String :=
  if C.renderLarkMarkdown text = "" then "（回复不包含可显示文本）" else C.renderLarkMarkdown text

/-- A legacy payload in the current shape. -/
def PayloadV1.upgrade (dto : PayloadV1) (fallbackMarkdown : Option String) : PayloadV2 :=
  ⟨outboxPayloadVersion, dto.op, dto.messageId, dto.threadId, dto.anchorKey, dto.text, fallbackMarkdown, none⟩

def decodeV1 (dto : PayloadV1) : Except OutboxError OutboxOperation :=
  match dto.op with
  | "reply_text" | "reply_progress_card" => decodeReply C (dto.upgrade none)
  | "update_progress_card" => decodeProgressUpdate (dto.upgrade none)
  | "finalize_progress_card" =>
    decodeProgressFinalization (dto.upgrade (some (legacyFallbackMarkdown C dto.text)))
  | _ => .error .unknownOperation

def decodeV2 (dto : PayloadV2) : Except OutboxError OutboxOperation :=
  match dto.op with
  | "reply_text" | "reply_markdown_post" | "reply_interactive_card" | "reply_progress_card" => decodeReply C dto
  | "update_progress_card" => decodeProgressUpdate dto
  | "finalize_progress_card" => decodeProgressFinalization dto
  | _ => .error .unknownOperation

def OutboxOperation.decode (json : String) : Except OutboxError OutboxOperation :=
  if json.utf8ByteSize > storeOutboxPayloadMaxBytes then .error (.payloadTooLarge storeOutboxPayloadMaxBytes)
  else
    match C.versionProbe json with
    | none => .error .deserialize
    | some 1 =>
      match C.payloadV1 json with
      | none => .error .deserialize
      | some dto => decodeV1 C dto
    | some 2 =>
      match C.payloadV2 json with
      | none => .error .deserialize
      | some dto => decodeV2 C dto
    | some version => .error (.unsupportedVersion version)

end LarkCodexBridge.Outbox

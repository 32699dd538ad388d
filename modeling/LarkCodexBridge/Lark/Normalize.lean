import LarkCodexBridge.Lib.Except
import LarkCodexBridge.Lark.Event
import LarkCodexBridge.Lark.Fragments

/-!
# Normalization

From the payload of a complete frame to a message event: `parseEvent` checks the envelope, `resolveScope` finds the chat
mode and the routing scope with what the message queries answer, and a card callback becomes a text command. The decoding
of the payload and of the message content is a parameter (`Decoder`).

Every event that comes out has a message type (`normalizeMessageOrCard_type`).
-/

namespace LarkCodexBridge.Lark

open Limits

inductive LarkError where
  | retryable (context : String)
  | protocol (context : String)
  | exhausted (context : String) (limit : ℕ)

/-! ## The wire -/

structure EventHeader where
  eventId : Option String
  eventType : Option String

structure EventSender where
  openId : Option String
  senderType : Option String

structure EventMention where
  key : Option String
  openId : Option String
  userId : Option String
  unionId : Option String
  name : Option String

structure EventMessage where
  messageId : Option String
  chatId : Option String
  chatType : Option String
  messageType : Option String
  content : Option String
  createTime : Option String
  rootId : Option String
  parentId : Option String
  threadId : Option String
  mentions : Option (List EventMention)

structure EventBody where
  sender : Option EventSender
  message : Option EventMessage

structure EventEnvelope where
  header : Option EventHeader
  event : Option EventBody

structure ExtractedContent where
  text : String
  mentionsAll : Bool
  resources : List ResourceDesc
  parts : List MessagePart

/-- Fully parsed fields of an event. -/
structure ParsedEvent where
  eventId : String
  messageId : String
  chatId : String
  chatTypeWire : String
  messageType : String
  createTimeMs : ℤ
  senderOpenId : String
  threadId : Option String
  rootId : Option String
  parentId : Option String
  text : String
  mentionsBot : Bool
  mentionAll : Bool
  senderIsHuman : Bool
  mentions : List MentionIdentity
  parts : List MessagePart
  resources : List ResourceDesc

/-- What reads payloads: `serde_json` for the envelope, the callback of a card and the content of a message. -/
structure Decoder where
  fromSlice : ByteArray → Option EventEnvelope
  /-- `looks_like_card_action`. -/
  looksLikeCardAction : ByteArray → Bool
  /-- The payload is JSON, and `parse_card_action` of it. -/
  cardAction : ByteArray → Option (Option ParsedEvent)
  extractMessageContent : String → String → Except LarkError ExtractedContent

/-- What the message queries answer while a scope is resolved; `none` for a lookup that failed. -/
structure ScopeQueries where
  mode : Option ChatMode
  reprobed : Option ChatMode
  /-- The thread id of the raw message. -/
  message : Option (Option String)

/-! ## Parsing -/

def nonEmpty (value : Option String) : Option String := value.filter (· ≠ "")

def required (value : Option String) (context : String) : Except LarkError String :=
  match nonEmpty value with
  | some value => .ok value
  | none => .error (.protocol context)

/-- `str::parse::<i64>`: an optional sign and decimal digits. -/
def parseI64 (raw : String) : Option ℤ :=
  let (negative, digits) := match raw.toList with
    | '-' :: rest => (true, rest)
    | '+' :: rest => (false, rest)
    | all => (false, all)
  if digits.isEmpty || !digits.all Char.isDigit then none
  else
    let n : ℤ := digits.foldl (fun n c => 10 * n + (c.toNat - '0'.toNat)) (0 : ℕ)
    let n := if negative then -n else n
    if i64Min ≤ n ∧ n ≤ i64Max then some n else none

def mentionIdentity (mention : EventMention) : MentionIdentity :=
  ⟨nonEmpty mention.key, nonEmpty mention.openId, nonEmpty mention.userId, nonEmpty mention.unionId, nonEmpty mention.name⟩

def orProtocol {α : Type} (value : Option α) (context : String) : Except LarkError α :=
  match value with
  | some value => .ok value
  | none => .error (.protocol context)

/-- `parse_event`; `none` for an event of another type. -/
def parseEvent (D : Decoder) (botOpenId : String) (payload : ByteArray) : Except LarkError (Option ParsedEvent) :=
  if payload.size > larkMaxEventPayloadBytes then
    .error (.exhausted "inbound event payload exceeds the byte cap" larkMaxEventPayloadBytes)
  else do
    let envelope ← orProtocol (D.fromSlice payload) "event payload is not valid JSON"
    let header ← orProtocol envelope.header "event payload missing the header"
    if header.eventType ≠ some "im.message.receive_v1" then .ok none
    else do
      let eventId ← required header.eventId "event header missing event_id"
      let event ← orProtocol envelope.event "event payload missing the event object"
      let senderIsHuman := event.sender.bind (·.senderType) == some "user"
      let senderOpenId ← required (event.sender.bind (·.openId)) "event sender missing open_id"
      let message ← orProtocol event.message "event missing the message object"
      let messageType ← required message.messageType "message missing message_type"
      let content ← required message.content "message missing content"
      let createTime ← required message.createTime "message missing create_time"
      let createTimeMs ← orProtocol (parseI64 createTime) "message create_time is not a millisecond integer"
      let raw := message.mentions.getD []
      let extracted ← D.extractMessageContent messageType content
      let messageId ← required message.messageId "message missing message_id"
      let chatId ← required message.chatId "message missing chat_id"
      let chatTypeWire ← required message.chatType "message missing chat_type"
      .ok (some {
        eventId, messageId, chatId, chatTypeWire, messageType, createTimeMs, senderOpenId
        threadId := nonEmpty message.threadId
        rootId := nonEmpty message.rootId
        parentId := nonEmpty message.parentId
        text := extracted.text
        mentionsBot := raw.any (·.openId == some botOpenId)
        mentionAll := raw.any (·.userId == some "all") || extracted.mentionsAll
        senderIsHuman := senderIsHuman
        mentions := raw.map mentionIdentity
        parts := extracted.parts
        resources := extracted.resources })

/-! ## Scopes -/

/-- `resolve_scope`. A mode that cannot be looked up is a group. -/
def resolveScope (q : ScopeQueries) (parsed : ParsedEvent) : ChatMode × ScopeKey :=
  let mode := if parsed.chatTypeWire = "p2p" then .p2p else q.mode.getD .group
  if mode = .p2p then (mode, .chat parsed.chatId)
  else
    match parsed.threadId with
    | some threadId => (if mode = .topic then mode else q.reprobed.getD .group, .thread parsed.chatId threadId)
    | none =>
      if mode = .topic then
        match nonEmpty (q.message.getD none) with
        | some threadId => (mode, .thread parsed.chatId threadId)
        | none => (mode, .chat parsed.chatId)
      else (mode, .chat parsed.chatId)

/-- The scope of a card callback: outside direct chats the raw message or the callback may name the thread. -/
def cardScope (q : ScopeQueries) (parsed : ParsedEvent) : ChatMode × ScopeKey :=
  let (mode, scope) := resolveScope q parsed
  match scope with
  | .thread _ _ => (mode, scope)
  | .chat chatId =>
    if mode = .p2p then (mode, scope)
    else
      let threadId := if parsed.messageId = "om_card_action" then parsed.threadId
        else (nonEmpty (q.message.getD none)).or parsed.threadId
      (mode, threadId.elim scope (.thread chatId))

def ScopeKey.threadId : ScopeKey → Option String
  | .chat _ => none
  | .thread _ threadId => some threadId

def ParsedEvent.toEvent (parsed : ParsedEvent) (mode : ChatMode) (scope : ScopeKey) : InboundEvent where
  eventId := parsed.eventId
  messageId := parsed.messageId
  chatId := parsed.chatId
  senderId := parsed.senderOpenId
  chatType := mode
  threadId := scope.threadId
  rootId := parsed.rootId
  replyToMessageId := parsed.parentId
  text := parsed.text
  mentionsBot := parsed.mentionsBot
  mentionAll := parsed.mentionAll
  senderIsHuman := parsed.senderIsHuman
  mentions := parsed.mentions
  parts := parsed.parts
  resources := parsed.resources
  messageType := parsed.messageType
  createTimeMs := parsed.createTimeMs
  scope := scope

inductive NormalizeOutcome where
  | event (event : InboundEvent)
  | ignored (reason : String)
  deriving DecidableEq

def notAMessage : String := "not an im.message.receive_v1 event"

def normalizeAt (D : Decoder) (botOpenId : String) (q : ScopeQueries) (payload : ByteArray) :
    Except LarkError NormalizeOutcome := do
  match ← parseEvent D botOpenId payload with
  | none => .ok (.ignored notAMessage)
  | some parsed =>
    let (mode, scope) := resolveScope q parsed
    .ok (.event (parsed.toEvent mode scope))

def normalizeCardActionAt (D : Decoder) (q : ScopeQueries) (payload : ByteArray) : Except LarkError NormalizeOutcome :=
  if payload.size > larkMaxEventPayloadBytes then
    .error (.exhausted "the inbound event exceeds the payload cap" larkMaxEventPayloadBytes)
  else
    match D.cardAction payload with
    | none => .error (.protocol "card action payload is not valid JSON")
    | some none => .ok (.ignored "card action is not a recognized bridge command")
    | some (some parsed) =>
      let (mode, scope) := cardScope q parsed
      .ok (.event { parsed.toEvent mode scope with mentionsBot := true, mentionAll := false, messageType := "text" })

def normalizeMessageOrCard (D : Decoder) (botOpenId : String) (q : ScopeQueries) (payload : ByteArray) :
    Except LarkError NormalizeOutcome :=
  if D.looksLikeCardAction payload then normalizeCardActionAt D q payload
  else
    match normalizeAt D botOpenId q payload with
    | .ok (.ignored reason) =>
      if reason = notAMessage then normalizeCardActionAt D q payload else .ok (.ignored reason)
    | outcome => outcome

/-! ## Message types -/

variable {D : Decoder} {botOpenId : String} {q : ScopeQueries} {payload : ByteArray} {event : InboundEvent}

theorem required_ne {value : Option String} {context s : String} (h : required value context = .ok s) : s ≠ "" := by
  unfold required nonEmpty at h
  split at h
  · next s' hs =>
    cases h
    simpa using (Option.filter_eq_some_iff.1 hs).2
  · cases h

theorem parseEvent_type {parsed : ParsedEvent} (h : parseEvent D botOpenId payload = .ok (some parsed)) :
    parsed.messageType ≠ "" := by
  unfold parseEvent at h
  split at h
  · cases h
  · obtain ⟨envelope, -, h⟩ := Fallible.bind_eq_ok.1 h
    obtain ⟨header, -, h⟩ := Fallible.bind_eq_ok.1 h
    split at h
    · cases h
    · obtain ⟨_, -, h⟩ := Fallible.bind_eq_ok.1 h
      obtain ⟨_, -, h⟩ := Fallible.bind_eq_ok.1 h
      obtain ⟨_, -, h⟩ := Fallible.bind_eq_ok.1 h
      obtain ⟨message, -, h⟩ := Fallible.bind_eq_ok.1 h
      obtain ⟨messageType, htype, h⟩ := Fallible.bind_eq_ok.1 h
      obtain ⟨_, -, h⟩ := Fallible.bind_eq_ok.1 h
      obtain ⟨_, -, h⟩ := Fallible.bind_eq_ok.1 h
      obtain ⟨_, -, h⟩ := Fallible.bind_eq_ok.1 h
      obtain ⟨_, -, h⟩ := Fallible.bind_eq_ok.1 h
      obtain ⟨_, -, h⟩ := Fallible.bind_eq_ok.1 h
      obtain ⟨_, -, h⟩ := Fallible.bind_eq_ok.1 h
      obtain ⟨_, -, h⟩ := Fallible.bind_eq_ok.1 h
      cases h
      exact required_ne htype

theorem normalizeCardActionAt_type (h : normalizeCardActionAt D q payload = .ok (.event event)) : event.messageType ≠ "" := by
  unfold normalizeCardActionAt at h
  split at h
  · cases h
  · split at h
    · cases h
    · cases h
    · cases h
      simp

/-- **Every normalized event has a message type.** -/
theorem normalizeMessageOrCard_type (h : normalizeMessageOrCard D botOpenId q payload = .ok (.event event)) :
    event.messageType ≠ "" := by
  unfold normalizeMessageOrCard at h
  split at h
  · exact normalizeCardActionAt_type h
  · split at h
    · split at h
      · exact normalizeCardActionAt_type h
      · cases h
    · unfold normalizeAt at h
      obtain ⟨parsed, hparsed, h⟩ := Fallible.bind_eq_ok.1 h
      cases parsed with
      | none => cases h
      | some parsed =>
        cases h
        exact parseEvent_type hparsed

end LarkCodexBridge.Lark

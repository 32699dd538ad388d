import LarkCodexBridge.Lark.Event
import LarkCodexBridge.Store.Writer

/-!
# Inbound payloads

What the inbox keeps of an event: the checks of an event (`validateEvent`), its crash-replay descriptor without
resource keys (`persistableEvent`), the strict wire shape (`InboundPayloadV1`) and the way back (`intoEvent`). The JSON
writer and reader of the wire shape are a parameter `InboundCodec`; all that is asked of them is that the reader
inverts the writer.

* `intoEvent_ofEvent_persistable`: a stored event reads back with its identity, unless it has neither a message type
  nor parts;
* `intoEvent_emptyType`: such an event does not read back.
-/

namespace LarkCodexBridge.Store

open Limits Lark

/-! ## Checks of an event -/

def validateId (value context : String) : Except StoreError Unit :=
  if value.isEmpty ∨ value.utf8ByteSize > storeInboundIdMaxBytes then
    .error (.payloadTooLarge context storeInboundIdMaxBytes)
  else .ok ()

def validateOptionalId (value : Option String) (context : String) : Except StoreError Unit :=
  match value with
  | some value => validateId value context
  | none => .ok ()

def validateIncomingKey (event : InboundEvent) : Except StoreError Unit := do
  validateId event.eventId "validating an inbound event ID"
  validateId event.messageId "validating an inbound message ID"

/-- A text of at most `limit` bytes. -/
def validateLength (value : String) (limit : ℕ) (context : String) : Except StoreError Unit :=
  if value.utf8ByteSize > limit then .error (.payloadTooLarge context limit) else .ok ()

/-- The scope names the chat and the thread of the event. -/
def validateScope (event : InboundEvent) : Except StoreError Unit :=
  match event.scope with
  | .chat chatId =>
    if chatId ≠ event.chatId ∨ event.threadId.isSome then
      .error (.corruptData "validating inbound chat scope consistency")
    else .ok ()
  | .thread chatId threadId =>
    if chatId ≠ event.chatId ∨ event.threadId ≠ some threadId ∨ event.chatType ≠ .topic then
      .error (.corruptData "validating inbound thread scope consistency")
    else .ok ()

/-- A key that is neither empty nor too long. -/
def validateKey (key context : String) : Except StoreError Unit :=
  if key.isEmpty ∨ key.utf8ByteSize > storeInboundResourceKeyMaxBytes then
    .error (.payloadTooLarge context storeInboundResourceKeyMaxBytes)
  else .ok ()

/-- At most `limit` of something. -/
def validateCount (count limit : ℕ) (context : String) : Except StoreError Unit :=
  if count > limit then .error (.capacityExceeded context) else .ok ()

/-- Count, keys and total key bytes of the resources. -/
def validateResources (resources : List ResourceDesc) : Except StoreError Unit := do
  validateCount resources.length storeInboundResourceMaxCount "validating inbound resource count"
  resources.forM fun resource => validateKey resource.key "validating an inbound resource key"
  validateCount (resources.map (·.key.utf8ByteSize)).sum storeInboundResourceKeyMaxTotalBytes
    "validating aggregate inbound resource keys"

/-- The identities and the name of one mention. -/
def validateMention (mention : MentionIdentity) : Except StoreError Unit := do
  [mention.key, mention.openId, mention.userId, mention.unionId].filterMap id |>.forM fun value =>
    validateLength value storeInboundIdMaxBytes "validating an inbound mention identity"
  mention.name.toList.forM fun name => validateLength name storeInboundTextMaxBytes "validating an inbound mention name"

/-- A base name: neither empty nor too long, no path. -/
def fileNameOk (name : String) : Bool :=
  !(name.isEmpty || decide (name.utf8ByteSize > attachmentFileNameMaxBytes) || name == "." || name == ".." ||
    name.toList.any fun c => decide (c.toNat < 0x20) || c.toNat == 0x7f || c == '/' || c == '\\')

/-- Bounded printable ASCII. -/
def mimeOk (mime : String) : Bool :=
  !(mime.isEmpty || decide (mime.utf8ByteSize > attachmentMimeMaxBytes) ||
    !(mime.toList.all fun c => decide (0x20 ≤ c.toNat) && decide (c.toNat ≤ 0x7e)))

def validateMediaPart (media : MediaPart) : Except StoreError Unit := do
  [media.key, media.thumbnailKey].filterMap id |>.forM fun key => validateKey key "validating an inbound media key"
  if media.status = .available ∧ media.key = none then
    .error (.corruptData "validating an available inbound media part")
  else if !media.metadata.fileName.all fileNameOk then
    .error (.corruptData "validating inbound media file name metadata")
  else if !media.metadata.mimeType.all mimeOk then
    .error (.corruptData "validating inbound media MIME metadata")
  else .ok ()

def validatePart : MessagePart → Except StoreError Unit
  | .text text => validateLength text storeInboundTextMaxBytes "validating an inbound text part"
  | .image media | .file media | .sticker media | .audio media | .video media => validateMediaPart media
  | .forward messageId _ => validateOptionalId messageId "validating an inbound forwarded message ID"
  | .card _ => .ok ()
  | .unsupported messageType _ =>
    if messageType.isEmpty ∨ messageType.utf8ByteSize > storeInboundMessageTypeMaxBytes then
      .error (.payloadTooLarge "validating an unsupported inbound message type" storeInboundMessageTypeMaxBytes)
    else .ok ()

def validateIds (event : InboundEvent) : Except StoreError Unit := do
  validateIncomingKey event
  validateId event.chatId "validating an inbound chat ID"
  validateId event.senderId "validating an inbound sender ID"
  validateOptionalId event.threadId "validating an inbound thread ID"
  validateOptionalId event.rootId "validating an inbound root ID"
  validateOptionalId event.replyToMessageId "validating an inbound reply ID"

def validateEvent (event : InboundEvent) : Except StoreError Unit := do
  validateIds event
  validateLength event.scope.toString storeInboundScopeMaxBytes "validating an inbound scope"
  validateScope event
  validateLength event.messageType storeInboundMessageTypeMaxBytes "validating an inbound message type"
  validateLength event.text storeInboundTextMaxBytes "validating inbound text"
  validateResources event.resources
  validateCount event.mentions.length storeInboundResourceMaxCount "validating inbound mention count"
  event.mentions.forM validateMention
  validateCount event.parts.length storeInboundResourceMaxCount "validating inbound part count"
  event.parts.forM validatePart

/-! ## The crash-replay descriptor -/

/-- A media descriptor without its keys. -/
def persistableMedia (media : MediaPart) : MediaPart :=
  { media with
    key := none
    thumbnailKey := none
    status := if media.status = .available then .unavailable else media.status }

/-- A part without resource keys. -/
def persistablePart : MessagePart → MessagePart
  | .image media => .image (persistableMedia media)
  | .file media => .file (persistableMedia media)
  | .sticker media => .sticker (persistableMedia media)
  | .audio media => .audio (persistableMedia media)
  | .video media => .video (persistableMedia media)
  | part => part

def persistableEvent (event : InboundEvent) : InboundEvent :=
  { event with resources := [], parts := event.parts.map persistablePart }

def legacyMediaPart (resources : List ResourceDesc) (kind : ResourceKind) : MediaPart :=
  let key := (resources.find? (·.kind = kind)).map (·.key)
  { key := key
    thumbnailKey := none
    metadata := {}
    status := if key.isSome then .available else .unavailable }

/-- `parts_from_v1`: the parts of an event that was stored without any. -/
def partsFromV1 (messageType text : String) (resources : List ResourceDesc) : List MessagePart :=
  if messageType = "text" then [.text text]
  else if messageType = "image" then [.image (legacyMediaPart resources .image)]
  else if messageType = "file" then [.file (legacyMediaPart resources .file)]
  else [.unsupported messageType .unsupported]

/-! ## The wire shape -/

/-- Kind of a scope on the wire. -/
inductive ScopeKindWire where
  | chat | thread
  deriving DecidableEq

/-- A scope on the wire. -/
structure ScopeWire where
  kind : ScopeKindWire
  chatId : String
  threadId : Option String
  deriving DecidableEq

/-- The strict serialized event. Its chat mode and resource kinds are the event's own under other names. -/
structure InboundPayloadV1 where
  eventId : String
  messageId : String
  chatId : String
  senderId : String
  chatType : ChatMode
  threadId : Option String
  rootId : Option String
  replyToMessageId : Option String
  text : String
  mentionsBot : Bool
  mentionAll : Bool
  senderIsHuman : Bool
  mentions : List MentionIdentity
  parts : List MessagePart
  resources : List ResourceDesc
  messageType : String
  createTimeMs : ℤ
  scope : ScopeWire
  deriving DecidableEq

/-- `serde_json::to_vec` and `serde_json::from_slice` on the wire shape. -/
structure InboundCodec where
  toVec : InboundPayloadV1 → Option ByteArray
  fromSlice : ByteArray → Option InboundPayloadV1
  /-- What was written reads back. -/
  fromSlice_toVec : ∀ dto payload, toVec dto = some payload → fromSlice payload = some dto

def ScopeWire.ofScope : ScopeKey → ScopeWire
  | .chat chatId => ⟨.chat, chatId, none⟩
  | .thread chatId threadId => ⟨.thread, chatId, some threadId⟩

def ScopeWire.intoScope : ScopeWire → Except StoreError ScopeKey
  | ⟨.chat, chatId, none⟩ => .ok (.chat chatId)
  | ⟨.thread, chatId, some threadId⟩ => .ok (.thread chatId threadId)
  | _ => .error (.corruptData "decoding an inbound scope")

/-- `InboundPayloadV1::from_event`. -/
def InboundPayloadV1.ofEvent (event : InboundEvent) : InboundPayloadV1 where
  eventId := event.eventId
  messageId := event.messageId
  chatId := event.chatId
  senderId := event.senderId
  chatType := event.chatType
  threadId := event.threadId
  rootId := event.rootId
  replyToMessageId := event.replyToMessageId
  text := event.text
  mentionsBot := event.mentionsBot
  mentionAll := event.mentionAll
  senderIsHuman := event.senderIsHuman
  mentions := event.mentions
  parts := event.parts
  resources := event.resources
  messageType := event.messageType
  createTimeMs := event.createTimeMs
  scope := .ofScope event.scope

def InboundPayloadV1.rawEvent (dto : InboundPayloadV1) (scope : ScopeKey) : InboundEvent where
  eventId := dto.eventId
  messageId := dto.messageId
  chatId := dto.chatId
  senderId := dto.senderId
  chatType := dto.chatType
  threadId := dto.threadId
  rootId := dto.rootId
  replyToMessageId := dto.replyToMessageId
  text := dto.text
  mentionsBot := dto.mentionsBot
  mentionAll := dto.mentionAll
  senderIsHuman := dto.senderIsHuman
  mentions := dto.mentions
  parts := if dto.parts.isEmpty then partsFromV1 dto.messageType dto.text dto.resources else dto.parts
  resources := dto.resources
  messageType := dto.messageType
  createTimeMs := dto.createTimeMs
  scope := scope

def InboundPayloadV1.intoEvent (dto : InboundPayloadV1) : Except StoreError InboundEvent := do
  let scope ← dto.scope.intoScope
  validateEvent (dto.rawEvent scope)
  .ok (dto.rawEvent scope)

variable (I : InboundCodec) {context : String} {limit : ℕ}

def encodeEvent (event : InboundEvent) : Except StoreError ByteArray := do
  validateEvent event
  match I.toVec (.ofEvent (persistableEvent event)) with
  | none => .error (.corruptData "encoding an inbound payload")
  | some payload =>
    if payload.size > storeInboundPayloadMaxBytes then
      .error (.payloadTooLarge "encoding an inbound payload" storeInboundPayloadMaxBytes)
    else .ok payload

/-! ## Live events -/

def samePersistedMediaMetadata (left right : MediaPart) : Bool :=
  right.key.isNone && right.thumbnailKey.isNone &&
    decide (right.status = if left.status = .available then .unavailable else left.status) &&
    decide (left.metadata = right.metadata)

/-- A live part and its stored descriptor have one shape. -/
def sameShape : MessagePart → MessagePart → Bool
  | .text left, .text right => left == right
  | .image left, .image right | .file left, .file right | .sticker left, .sticker right
  | .audio left, .audio right | .video left, .video right => samePersistedMediaMetadata left right
  | .forward leftId leftStatus, .forward rightId rightStatus => leftId == rightId && decide (leftStatus = rightStatus)
  | .card leftStatus, .card rightStatus => decide (leftStatus = rightStatus)
  | .unsupported leftType leftStatus, .unsupported rightType rightStatus =>
    leftType == rightType && decide (leftStatus = rightStatus)
  | _, _ => false

/-- The fields a live event shares with its stored descriptor. -/
def sameIdentity (live persisted : InboundEvent) : Bool :=
  decide (live.eventId = persisted.eventId ∧ live.messageId = persisted.messageId ∧ live.chatId = persisted.chatId ∧
    live.senderId = persisted.senderId ∧ live.chatType = persisted.chatType ∧ live.threadId = persisted.threadId ∧
    live.rootId = persisted.rootId ∧ live.replyToMessageId = persisted.replyToMessageId ∧ live.text = persisted.text ∧
    live.mentionsBot = persisted.mentionsBot ∧ live.mentionAll = persisted.mentionAll ∧
    live.senderIsHuman = persisted.senderIsHuman ∧ live.mentions = persisted.mentions ∧
    live.messageType = persisted.messageType ∧ live.createTimeMs = persisted.createTimeMs ∧
    live.scope = persisted.scope)

def validateLiveClaim (live persisted : InboundEvent) : Except StoreError Unit :=
  let liveParts := if live.parts.isEmpty then partsFromV1 live.messageType live.text live.resources else live.parts
  if !sameIdentity live persisted then
    .error (.corruptData "binding a live inbound event to its durable descriptor")
  else if liveParts.length ≠ persisted.parts.length then
    .error (.corruptData "binding live inbound part count")
  else if !(liveParts.zip persisted.parts).all fun (live, persisted) => sameShape live persisted then
    .error (.corruptData "binding live inbound part shapes")
  else .ok ()

/-! ## Reading back -/

theorem ScopeWire.intoScope_ofScope (scope : ScopeKey) : (ScopeWire.ofScope scope).intoScope = .ok scope := by
  cases scope <;> rfl

theorem validateMediaPart_persistable {media : MediaPart} (h : validateMediaPart media = .ok ()) :
    validateMediaPart (persistableMedia media) = .ok () := by
  obtain ⟨-, h⟩ := seq_eq_ok.1 h
  refine seq_eq_ok.2 ⟨rfl, ?_⟩
  have hs : (persistableMedia media).status ≠ .available := by
    unfold persistableMedia
    dsimp only
    split
    · simp
    · assumption
  rw [if_neg (by simp [hs])]
  split at h
  · cases h
  · exact h

theorem validatePart_persistable : ∀ {part : MessagePart}, validatePart part = .ok () →
    validatePart (persistablePart part) = .ok ()
  | .image _, h | .file _, h | .sticker _, h | .audio _, h | .video _, h => validateMediaPart_persistable h
  | .text _, h | .forward _ _, h | .card _, h | .unsupported _ _, h => h

/-- The parts made up for an event that was stored without any and without resources. -/
theorem validatePart_partsFromV1 {messageType text : String} (hne : messageType ≠ "")
    (htype : messageType.utf8ByteSize ≤ storeInboundMessageTypeMaxBytes)
    (htext : text.utf8ByteSize ≤ storeInboundTextMaxBytes) :
    (partsFromV1 messageType text []).length = 1 ∧ ∀ part ∈ partsFromV1 messageType text [], validatePart part = .ok () := by
  unfold partsFromV1
  split
  · simp [validatePart, validateLength, htext]
  · split
    · exact ⟨rfl, by simp [validatePart]; rfl⟩
    · split
      · exact ⟨rfl, by simp [validatePart]; rfl⟩
      · simp [validatePart, hne, htype]

theorem validateLength_eq_ok {value : String} :
    validateLength value limit context = .ok () ↔ value.utf8ByteSize ≤ limit := by
  unfold validateLength
  split
  · simp; omega
  · simp; omega

theorem validateCount_eq_ok {count : ℕ} :
    validateCount count limit context = .ok () ↔ count ≤ limit := by
  unfold validateCount
  split
  · simp; omega
  · simp; omega

variable {event : InboundEvent}

theorem validateEvent_eq_ok : validateEvent event = .ok () ↔
    validateIds event = .ok () ∧ event.scope.toString.utf8ByteSize ≤ storeInboundScopeMaxBytes ∧
    validateScope event = .ok () ∧ event.messageType.utf8ByteSize ≤ storeInboundMessageTypeMaxBytes ∧
    event.text.utf8ByteSize ≤ storeInboundTextMaxBytes ∧ validateResources event.resources = .ok () ∧
    event.mentions.length ≤ storeInboundResourceMaxCount ∧ (∀ m ∈ event.mentions, validateMention m = .ok ()) ∧
    event.parts.length ≤ storeInboundResourceMaxCount ∧ ∀ part ∈ event.parts, validatePart part = .ok () := by
  unfold validateEvent
  simp only [seq_eq_ok, forM_eq_ok, validateLength_eq_ok, validateCount_eq_ok]

/-- The event as it is read back from the inbox. -/
def replayEvent (event : InboundEvent) : InboundEvent := (InboundPayloadV1.ofEvent (persistableEvent event)).rawEvent event.scope

theorem replayEvent_parts (h : validateEvent event = .ok ()) (hne : event.messageType ≠ "" ∨ event.parts ≠ []) :
    (replayEvent event).parts.length ≤ storeInboundResourceMaxCount ∧
      ∀ part ∈ (replayEvent event).parts, validatePart part = .ok () := by
  obtain ⟨-, -, -, htype, htext, -, -, -, hcount, hparts⟩ := validateEvent_eq_ok.1 h
  by_cases hp : event.parts = []
  · have heq : (replayEvent event).parts = partsFromV1 event.messageType event.text [] := by
      simp [replayEvent, InboundPayloadV1.rawEvent, InboundPayloadV1.ofEvent, persistableEvent, hp]
    obtain ⟨hl, hv⟩ := validatePart_partsFromV1 (hne.resolve_right (fun h => h hp)) htype htext
    rw [heq, hl]
    exact ⟨by decide, hv⟩
  · have heq : (replayEvent event).parts = event.parts.map persistablePart := by
      simp [replayEvent, InboundPayloadV1.rawEvent, InboundPayloadV1.ofEvent, persistableEvent, hp]
    rw [heq, List.length_map]
    refine ⟨hcount, fun part hpart => ?_⟩
    obtain ⟨q, hq, rfl⟩ := List.mem_map.1 hpart
    exact validatePart_persistable (hparts q hq)

/-- **A stored event reads back**, as long as it has parts or a message type. -/
theorem intoEvent_ofEvent_persistable (h : validateEvent event = .ok ())
    (hne : event.messageType ≠ "" ∨ event.parts ≠ []) :
    (InboundPayloadV1.ofEvent (persistableEvent event)).intoEvent = .ok (replayEvent event) := by
  have hv : validateEvent (replayEvent event) = .ok () := by
    obtain ⟨hids, hlen, hscope, htype, htext, -, hmc, hm, -, -⟩ := validateEvent_eq_ok.1 h
    obtain ⟨hpc, hp⟩ := replayEvent_parts h hne
    exact validateEvent_eq_ok.2 ⟨hids, hlen, hscope, htype, htext, rfl, hmc, hm, hpc, hp⟩
  refine bind_eq_ok.2 ⟨event.scope, ScopeWire.intoScope_ofScope _, ?_⟩
  exact seq_eq_ok.2 ⟨hv, rfl⟩

theorem intoEvent_emptyType (htype : event.messageType = "") (hparts : event.parts = []) (e : InboundEvent) :
    (InboundPayloadV1.ofEvent (persistableEvent event)).intoEvent ≠ .ok e := by
  intro h
  obtain ⟨scope, hs, h⟩ := bind_eq_ok.1 h
  obtain ⟨hv, -⟩ := seq_eq_ok.1 h
  obtain ⟨-, -, -, -, -, -, -, -, -, hp⟩ := validateEvent_eq_ok.1 hv
  have heq : ((InboundPayloadV1.ofEvent (persistableEvent event)).rawEvent scope).parts =
      [.unsupported "" .unsupported] := by
    simp [InboundPayloadV1.rawEvent, InboundPayloadV1.ofEvent, persistableEvent, hparts, htype, partsFromV1]
  have := hp (.unsupported "" .unsupported) (by simp [heq])
  cases this

theorem encodeEvent_ok {payload : ByteArray} (h : encodeEvent I event = .ok payload) :
    validateEvent event = .ok () ∧ I.fromSlice payload = some (.ofEvent (persistableEvent event)) ∧
      payload.size ≤ storeInboundPayloadMaxBytes := by
  obtain ⟨hv, h⟩ := seq_eq_ok.1 h
  split at h
  · cases h
  · next b hb =>
    split at h
    · cases h
    · cases h
      exact ⟨hv, I.fromSlice_toVec _ _ hb, by omega⟩

end LarkCodexBridge.Store

import Mathlib

/-!
# Inbound events

The normalized message event (`InboundEvent`) with its typed parts, the routing scope (`ScopeKey`) and the tenant
namespace under which the store keeps an event. The hexadecimal form of a namespace is always one
(`TenantNamespace.isTenantNamespace_asHex`).
-/

namespace LarkCodexBridge.Lark

/-- Conversation mode of a chat. -/
inductive ChatMode where
  | p2p | group | topic
  deriving DecidableEq

/-- Kind of a message resource. -/
inductive ResourceKind where
  | image | file
  deriving DecidableEq

/-- One identity from the `mentions` array of a message. -/
structure MentionIdentity where
  key : Option String
  openId : Option String
  userId : Option String
  unionId : Option String
  name : Option String
  deriving DecidableEq

/-- Whether a typed part can be resolved. -/
inductive PartStatus where
  | available | unsupported | unavailable
  deriving DecidableEq

/-- Why a transcript that was present cannot be returned. -/
inductive TranscriptFailure where
  | invalid | tooLarge | notRetained
  deriving DecidableEq

/-- Metadata of a media descriptor. -/
structure MediaMetadata where
  fileName : Option String := none
  mimeType : Option String := none
  sizeBytes : Option ℕ := none
  durationMs : Option ℕ := none
  transcriptFailure : Option TranscriptFailure := none
  deriving DecidableEq

/-- Descriptor shared by the media parts. -/
structure MediaPart where
  key : Option String
  thumbnailKey : Option String
  metadata : MediaMetadata
  status : PartStatus
  deriving DecidableEq

/-- Typed content of a message. -/
inductive MessagePart where
  | text (text : String)
  | image (media : MediaPart)
  | file (media : MediaPart)
  | sticker (media : MediaPart)
  | audio (media : MediaPart)
  | video (media : MediaPart)
  | forward (messageId : Option String) (status : PartStatus)
  | card (status : PartStatus)
  | unsupported (messageType : String) (status : PartStatus)
  deriving DecidableEq

/-- Routing scope of an event. -/
inductive ScopeKey where
  | chat (chatId : String)
  | thread (chatId threadId : String)
  deriving DecidableEq

/-- The stored form of a scope. -/
def ScopeKey.toString : ScopeKey → String
  | .chat chatId => "im:" ++ chatId
  | .thread chatId threadId => "im:" ++ chatId ++ ":thread:" ++ threadId

/-- A resource of a message: its kind and its server-side key. -/
structure ResourceDesc where
  kind : ResourceKind
  key : String
  deriving DecidableEq

/-- The normalized message event. -/
structure InboundEvent where
  eventId : String
  messageId : String
  chatId : String
  senderId : String
  chatType : ChatMode
  threadId : Option String
  rootId : Option String
  replyToMessageId : Option String
  text : String
  mentionsBot : Bool
  mentionAll : Bool
  senderIsHuman : Bool
  mentions : List MentionIdentity
  parts : List MessagePart
  resources : List ResourceDesc
  messageType : String
  createTimeMs : ℤ
  scope : ScopeKey
  deriving DecidableEq

/-- A canonical persisted event and the size of its stored payload. -/
structure RetainedInbound where
  event : InboundEvent
  retainedBytes : ℕ

/-! ## Tenants -/

def hexDigit (c : Char) : Bool := ('0' ≤ c && c ≤ '9') || ('a' ≤ c && c ≤ 'f')

def tenantNamespaceHexBytes : ℕ := 64

/-- `is_tenant_namespace`. A byte of a character outside ASCII is no digit, so the characters decide. -/
def isTenantNamespace (value : String) : Bool :=
  value.utf8ByteSize == tenantNamespaceHexBytes && value.toList.all hexDigit

/-- Database namespace of one tenant: a digest of 32 bytes. -/
structure TenantNamespace where
  digest : List UInt8
  length_eq : digest.length = 32
  deriving DecidableEq

/-- The digit of a half byte. -/
def hexChar (n : ℕ) : Char := "0123456789abcdef".toList.getD n '0'

def TenantNamespace.asHex (tenant : TenantNamespace) : String :=
  String.ofList (tenant.digest.flatMap fun byte => [hexChar (byte.toNat / 16), hexChar (byte.toNat % 16)])

theorem hexDigit_hexChar : ∀ n, hexDigit (hexChar n) = true
  | 0 | 1 | 2 | 3 | 4 | 5 | 6 | 7 | 8 | 9 | 10 | 11 | 12 | 13 | 14 | 15 => by decide
  | n + 16 => by
    have : hexChar (n + 16) = '0' := List.getD_eq_default _ _ (by simp)
    rw [this]
    decide

theorem utf8Size_of_hexDigit {c : Char} (h : hexDigit c = true) : c.utf8Size = 1 := by
  rw [Char.utf8Size_eq_one_iff, UInt32.le_iff_toNat_le]
  simp only [hexDigit, Bool.or_eq_true, Bool.and_eq_true, decide_eq_true_eq, Char.le_def, UInt32.le_iff_toNat_le] at h
  have hf : 'f'.val.toNat = 102 := rfl
  have h9 : '9'.val.toNat = 57 := rfl
  have h127 : (127 : UInt32).toNat = 127 := rfl
  omega

theorem utf8ByteSize_of_hexDigits : ∀ {l : List Char}, l.all hexDigit = true → (String.ofList l).utf8ByteSize = l.length
  | [], _ => rfl
  | c :: l, h => by
    simp only [List.all_cons, Bool.and_eq_true] at h
    have hsplit : String.ofList (c :: l) = String.singleton c ++ String.ofList l := by
      rw [String.singleton_eq_ofList, ← String.ofList_append]
      rfl
    rw [hsplit, String.utf8ByteSize_append, String.utf8ByteSize_singleton, utf8Size_of_hexDigit h.1,
      utf8ByteSize_of_hexDigits h.2, List.length_cons, Nat.add_comm]

theorem TenantNamespace.isTenantNamespace_asHex (tenant : TenantNamespace) :
    isTenantNamespace tenant.asHex = true := by
  obtain ⟨digest, hlen⟩ := tenant
  have hall : (digest.flatMap fun b => [hexChar (b.toNat / 16), hexChar (b.toNat % 16)]).all hexDigit = true := by
    simp [hexDigit_hexChar]
  have hsize := utf8ByteSize_of_hexDigits hall
  simp only [isTenantNamespace, asHex, hsize, String.toList_ofList, hall, Bool.and_true, beq_iff_eq]
  simp [List.length_flatMap, hlen, tenantNamespaceHexBytes]

end LarkCodexBridge.Lark

import LarkCodexBridge.Runtime.Live

/-!
# Pending media

Media messages of a direct chat wait in a bounded queue of their scope actor until a text message takes them. Times are
milliseconds of the monotonic clock. A reservation holds the items it took; it is committed with the turn or put back,
and `clear` starts a new generation, after which an older reservation puts nothing back.
-/

namespace LarkCodexBridge.Runtime

open Lark

/-- One staged item; its draft is made from the event alone. -/
structure PendingMediaItem where
  event : InboundEvent
  metadataBytes : ℕ
  expiresAt : ℕ
  deriving DecidableEq

structure PendingMediaQueue where
  items : List PendingMediaItem
  metadataBytes : ℕ
  ttl : ℕ
  maxCount : ℕ
  maxMetadataBytes : ℕ
  generation : ℕ

structure PendingMediaReservation where
  generation : ℕ
  items : List PendingMediaItem
  deriving DecidableEq

def optionBytes (s : Option String) : ℕ := (s.map String.utf8ByteSize).getD 0

def mediaBytes (media : MediaPart) : ℕ :=
  optionBytes media.key + optionBytes media.thumbnailKey + optionBytes media.metadata.fileName +
    optionBytes media.metadata.mimeType

def partBytes : MessagePart → ℕ
  | .image media | .file media | .sticker media | .audio media | .video media => mediaBytes media
  | .text text => text.utf8ByteSize
  | .forward messageId _ => optionBytes messageId
  | .unsupported messageType _ => messageType.utf8ByteSize
  | .card _ => 0

def mentionBytes (mention : MentionIdentity) : ℕ :=
  optionBytes mention.key + optionBytes mention.openId + optionBytes mention.userId + optionBytes mention.unionId +
    optionBytes mention.name

def pendingMetadataBytes (event : InboundEvent) : ℕ :=
  event.eventId.utf8ByteSize + event.messageId.utf8ByteSize + event.chatId.utf8ByteSize + event.senderId.utf8ByteSize +
    optionBytes event.threadId + optionBytes event.rootId + optionBytes event.replyToMessageId +
    event.messageType.utf8ByteSize + (event.mentions.map mentionBytes).sum +
    (event.resources.map (·.key.utf8ByteSize)).sum + (event.parts.map partBytes).sum

namespace PendingMediaQueue

def new (settings : RouterSettings) : PendingMediaQueue :=
  ⟨[], 0, settings.pendingMediaTtl, settings.pendingMediaMaxCount, settings.pendingMediaMaxMetadataBytes, 0⟩

/-- The items after those at the front for which `p` holds, and the bytes that are left. -/
def dropFront (p : PendingMediaItem → Bool) : List PendingMediaItem → ℕ → List PendingMediaItem × ℕ
  | [], bytes => ([], bytes)
  | item :: items, bytes =>
    if p item then dropFront p items (bytes - item.metadataBytes) else (item :: items, bytes)

def expire (q : PendingMediaQueue) (now : ℕ) : PendingMediaQueue :=
  let (items, bytes) := dropFront (fun item => now ≥ item.expiresAt) q.items q.metadataBytes
  { q with items := items, metadataBytes := bytes }

/-- Items are taken from the front while `full` of their count and bytes holds. -/
def evictWhile (full : ℕ → ℕ → Bool) : List PendingMediaItem → ℕ → List PendingMediaItem × ℕ
  | [], bytes => ([], bytes)
  | item :: items, bytes =>
    if full (items.length + 1) bytes then evictWhile full items (bytes - item.metadataBytes) else (item :: items, bytes)

def stage (q : PendingMediaQueue) (now : ℕ) (event : InboundEvent) : PendingMediaQueue :=
  let q := q.expire now
  let added := pendingMetadataBytes event
  if added > q.maxMetadataBytes then q
  else
    let (items, bytes) :=
      evictWhile (fun count bytes => count ≥ q.maxCount || bytes + added > q.maxMetadataBytes) q.items q.metadataBytes
    { q with items := items ++ [⟨event, added, now + q.ttl⟩], metadataBytes := bytes + added }

def reserveAll (q : PendingMediaQueue) (now : ℕ) : PendingMediaReservation × PendingMediaQueue :=
  let q := q.expire now
  (⟨q.generation, q.items⟩, { q with items := [], metadataBytes := 0 })

/-- `restore`: the reserved items go back in front of what was staged since. -/
def restore (q : PendingMediaQueue) (now : ℕ) (r : PendingMediaReservation) : PendingMediaQueue :=
  if r.generation ≠ q.generation then q
  else
    let q := q.expire now
    let merged := ((r.items ++ q.items).filter fun item => item.expiresAt > now).mergeSort
      fun a b => a.expiresAt ≤ b.expiresAt
    let (items, bytes) := evictWhile (fun count bytes => count > q.maxCount || bytes > q.maxMetadataBytes) merged
      (merged.map (·.metadataBytes)).sum
    { q with items := items, metadataBytes := bytes }

/-- `drafts`: what a reservation gives to the turn, without the items that have expired. -/
def drafts (q : PendingMediaQueue) (now : ℕ) (r : PendingMediaReservation) : List InboundEvent :=
  if r.generation ≠ q.generation then [] else (r.items.filter fun item => item.expiresAt > now).map (·.event)

def nextExpiry (q : PendingMediaQueue) : Option ℕ := q.items.head?.map (·.expiresAt)

/-- `clear`. The generation is a 64-bit number that wraps around. -/
def clear (q : PendingMediaQueue) : PendingMediaQueue :=
  { q with items := [], metadataBytes := 0, generation := (q.generation + 1) % 2 ^ 64 }

end PendingMediaQueue

end LarkCodexBridge.Runtime

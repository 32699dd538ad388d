import Mathlib

/-!
# Hard bounds

The limits that the modelled code compares against, under the source's names. Byte and row counts are natural
numbers, instants and spans are integers of milliseconds.
-/

namespace LarkCodexBridge.Limits

/-! ## Outbox -/

def larkMaxSendBodyBytes : ℕ := 256 * 1024

def larkCardMarkdownElementMaxBytes : ℕ := 30 * 1024

def storeOutboxPayloadMaxBytes : ℕ := larkMaxSendBodyBytes

/-- Rows and payload bytes of one claim. -/
def storeOutboxClaimMaxBatch : ℕ := 64
def storeOutboxClaimMaxBytes : ℕ := 1024 * 1024

/-- Rows and payload bytes in `pending` and `sending`. -/
def storeOutboxMaxRows : ℕ := 1024
def storeOutboxMaxQueuedBytes : ℕ := 8 * 1024 * 1024

/-- Rows and payload bytes in any state. -/
def outboxTerminalMaxRows : ℕ := 65536
def outboxTerminalMaxBytes : ℕ := 256 * 1024 * 1024

def outboxTerminalRetentionMs : ℤ := 7 * 24 * 60 * 60 * 1000
def outboxSweepBatch : ℕ := 256

def storeOutboxMaxAttempts : ℕ := 8
def storeReceiptWriteAttempts : ℕ := 3

def outboxRetryBaseMs : ℕ := 500
def outboxRetryMaxMs : ℕ := 30 * 1000

/-! ## Inbound inbox -/

/-- Rows and logical bytes in any state, and those that keep a replayable payload. -/
def storeInboundMaxRows : ℕ := 65536
def storeInboundMaxBytes : ℕ := 64 * 1024 * 1024
def storeInboundReceivedMaxRows : ℕ := 256
def storeInboundReceivedMaxBytes : ℕ := 8 * 1024 * 1024

def storeInboundIdMaxBytes : ℕ := 4 * 1024
def storeInboundScopeMaxBytes : ℕ := 12 * 1024
def storeInboundMessageTypeMaxBytes : ℕ := 256
def storeInboundTextMaxBytes : ℕ := 1024 * 1024
def storeInboundResourceMaxCount : ℕ := 64
def storeInboundResourceKeyMaxBytes : ℕ := 4 * 1024
def storeInboundResourceKeyMaxTotalBytes : ℕ := 256 * 1024
def storeInboundPayloadMaxBytes : ℕ := 2 * 1024 * 1024

/-- Keys of one claim, and their bytes. -/
def storeInboundBeginMaxKeys : ℕ := 64
def storeInboundBeginMaxKeyBytes : ℕ := 256 * 1024

def dedupSweepBatch : ℕ := 256
def storeRejectionReasonMaxBytes : ℕ := 128

/-- Live turns, and the bytes of their identifiers. -/
def storeRecoveryTurnMaxRows : ℕ := 32
def storeRecoveryTurnMaxBytes : ℕ := 1024 * 1024

def attachmentFileNameMaxBytes : ℕ := 255
def attachmentMimeMaxBytes : ℕ := 128

/-! ## Lark transport -/

/-- Buffered fragments: bytes of all messages and of one, fragments of one, messages, and milliseconds they are kept. -/
def larkFragmentTotalBytes : ℕ := 8 * 1024 * 1024
def larkFragmentMessageBytes : ℕ := 1024 * 1024
def larkFragmentMessageMaxFragments : ℕ := 64
def larkFragmentMaxInFlight : ℕ := 64
def larkFragmentTtl : ℕ := 5 * 1000

def larkMaxEventPayloadBytes : ℕ := larkFragmentMessageBytes

def asrTranscriptMaxBytes : ℕ := 32 * 1024

/-- Events and answers that wait between the sidecar and its session. -/
def channelSidecarEventCapacity : ℕ := 64
def channelSidecarWriteCapacity : ℕ := 128
def channelSidecarFrameBytes : ℕ := larkFragmentMessageBytes

/-- Milliseconds for one durable decision, and what Node waits longer. -/
def channelSidecarHandlerTimeout : ℕ := 60 * 1000
def channelSidecarAckGrace : ℕ := 5 * 1000

/-! ## Runtime -/

def maxConfigOwners : ℕ := 256
def maxConfigOwnerBytes : ℕ := 32 * 1024
def maxConfigAllowRoots : ℕ := 64
def maxConfigAllowRootBytes : ℕ := 16 * 1024
def maxConfigAllowedSenders : ℕ := 256
def maxConfigAllowedSenderBytes : ℕ := 32 * 1024
def maxConfigAllowedGroups : ℕ := 256
def maxConfigAllowedGroupBytes : ℕ := 32 * 1024

def routerCommandCapacity : ℕ := 256
def routerRetryCapacity : ℕ := 256
def scopeMailboxCapacity : ℕ := 64

def turnBatchMaxMessages : ℕ := 64
def turnBatchTextByteBudget : ℕ := 768 * 1024

def bridgeCommandMaxBytes : ℕ := 16 * 1024
def threadDiscoveryCursorMaxBytes : ℕ := 512
def threadAdoptionSelectorMaxBytes : ℕ := 128

/-- Lifetime of a staged media item in milliseconds, and the bounds of the queue. -/
def pendingMediaTtl : ℕ := 10 * 60 * 1000
def pendingMediaMaxCount : ℕ := 16
def pendingMediaMaxMetadataBytes : ℕ := 256 * 1024

/-! ## External endpoints -/

def routingIdByteLimit : ℕ := 1024
def externalManagedThreadCapacity : ℕ := 64
def externalReconcileEntryCapacity : ℕ := 3200

def maxOutboundValueWireBytes : ℕ := 32 * 1024 * 1024 / 32

/-! ## App-server RPC -/

/-- Commands and in-flight requests of each priority, and high-priority commands before a normal one. -/
def rpcHighCapacity : ℕ := 64
def rpcNormalCapacity : ℕ := 256
def rpcInflightCapacity : ℕ := rpcHighCapacity + rpcNormalCapacity
def rpcTotalPendingCapacity : ℕ := rpcInflightCapacity + rpcHighCapacity
def highPriorityBurst : ℕ := 8

def rpcServerRequestCapacity : ℕ := rpcHighCapacity

def controlRpcTimeout : ℕ := 30 * 1000

/-! ## App-server client -/

/-- Lossy and authoritative events a thread mailbox queues, and the bytes of its queue. -/
def threadEventCapacity : ℕ := 256
def threadTerminalCapacity : ℕ := 64
def threadMailboxByteBudget : ℕ := 4 * 1024 * 1024
def threadDeltaByteLimit : ℕ := 512 * 1024

/-- Outcomes a thread keeps, and the bytes of its projection. -/
def threadOutcomeCapacity : ℕ := 64
def threadProjectionByteBudget : ℕ := 4 * 1024 * 1024

/-- Threads and subscribers of a client, and subscribers of one thread. -/
def clientProjectionCapacity : ℕ := 64
def clientSubscriberCapacity : ℕ := 64
def threadSubscriberCapacity : ℕ := 4

/-! ## Reconciliation of external threads -/

/-- Events and bytes of the mailbox of one thread, and the pages read for it. -/
def externalReconcileEventCapacity : ℕ := threadEventCapacity
def externalReconcileMailboxBytes : ℕ := threadMailboxByteBudget
def externalReconcilePageCapacity : ℕ := 32

/-- Bytes of the responses for one thread, and of responses and mailboxes of the endpoint. -/
def externalReconcileThreadBytes : ℕ := 32 * 1024 * 1024
def externalReconcileEndpointBytes : ℕ := 64 * 1024 * 1024

/-! ## Attachments -/

def larkMaxResourceBytes : ℕ := 20 * 1024 * 1024

def storeAttachmentMaxRows : ℕ := 4096
def storeAttachmentMaxBytes : ℕ := 256 * 1024 * 1024
def storeAttachmentLeaseMaxRows : ℕ := 65536

def attachmentMaxBytes : ℕ := larkMaxResourceBytes

/-- Media reads and their bytes in one turn. -/
def attachmentMaxPerMessage : ℕ := 16
def attachmentTurnTotalBytes : ℕ := 64 * 1024 * 1024
def attachmentCacheMaxFiles : ℕ := 4096
def attachmentCacheMaxBytes : ℕ := 256 * 1024 * 1024
def attachmentResourceKeyMaxBytes : ℕ := 4 * 1024
def attachmentGcAgeMs : ℤ := 24 * 60 * 60 * 1000

/-- Rows one eviction pass looks at, and directory entries one reconciliation does. -/
def attachmentGcBatch : ℕ := 256
def attachmentReconcileBatch : ℕ := 4096

/-! ## Machine integers -/

def i64Max : ℤ := 2 ^ 63 - 1
def i64Min : ℤ := -2 ^ 63
def u64Max : ℕ := 2 ^ 64 - 1
def u32Max : ℕ := 2 ^ 32 - 1

/-- `i64::saturating_add` and `i64::saturating_sub` through the exact result. -/
def saturateI64 (x : ℤ) : ℤ := max i64Min (min x i64Max)

end LarkCodexBridge.Limits

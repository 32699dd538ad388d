import LarkCodexBridge.Channel.Receipts
import LarkCodexBridge.Runtime.LiveRuns
import LarkCodexBridge.Runtime.Effects
import LarkCodexBridge.External.ApprovalRuns
import LarkCodexBridge.External.Orphans
import LarkCodexBridge.Runtime.ScopeOrder
import LarkCodexBridge.Runtime.OneTurn
import LarkCodexBridge.Runtime.ThreadRuns
import LarkCodexBridge.Codex.Replies
import LarkCodexBridge.Codex.Streams
import LarkCodexBridge.Codex.OneProcess
import LarkCodexBridge.Sidecar.Order
import LarkCodexBridge.Sidecar.ServerRequests
import LarkCodexBridge.External.RecoveryRuns
import LarkCodexBridge.Runtime.AttachmentRuns
import LarkCodexBridge.Store.InboundBounds
import LarkCodexBridge.Store.ReplyEffects
import LarkCodexBridge.Channel.SuperviseRuns
import LarkCodexBridge.Runtime.ContextRuns
import LarkCodexBridge.Channel.EventRuns
import LarkCodexBridge.Runtime.Permits
import LarkCodexBridge.Runtime.AdoptionRuns
import LarkCodexBridge.Store.InboundReplay
import LarkCodexBridge.Render.SplitFences
import LarkCodexBridge.Render.CardBound
import LarkCodexBridge.Lark.Interference
import LarkCodexBridge.Runtime.StreamCount
import LarkCodexBridge.Runtime.Batches
import LarkCodexBridge.Runtime.MediaRuns
import LarkCodexBridge.Runtime.LiveAtomic
import LarkCodexBridge.Lark.JoinedTexts
import LarkCodexBridge.External.TerminalConflicts
import LarkCodexBridge.Runtime.ResolvedTurns
import LarkCodexBridge.Store.PrivacyMigration
import LarkCodexBridge.Outbox.Anchors
import LarkCodexBridge.Sidecar.Framing
import LarkCodexBridge.Runtime.TurnInputs
import LarkCodexBridge.Runtime.Fingerprint
import LarkCodexBridge.Render.Brackets
import LarkCodexBridge.Runtime.Workspaces

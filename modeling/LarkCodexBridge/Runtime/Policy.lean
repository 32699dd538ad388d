import LarkCodexBridge.Store.Inbound

/-!
# Access policy

The effective access policy and the two gates of a message: `decide` for ordinary input, `decideCommand` for owner-only
commands. A denial names the rejection kind that the store keeps (`AccessDecision.rejectionKind`).
-/

namespace LarkCodexBridge.Runtime

open Lark Store

/-- Sandbox of a Codex turn. -/
inductive SandboxMode where
  | readOnly | workspaceWrite | dangerFullAccess
  deriving DecidableEq

structure GranularApprovalPolicy where
  mcpElicitations : Bool
  rules : Bool
  sandboxApproval : Bool
  requestPermissions : Bool
  skillApproval : Bool
  deriving DecidableEq

inductive ApprovalPolicy where
  | named (name : String)
  | granular (granular : GranularApprovalPolicy)
  deriving DecidableEq

/-- Platform paths for the classification of workspaces. -/
structure PlatformRoots where
  home : String
  tempTrees : List String
  systemTrees : List String
  desktopDownloadTrees : List String
  deriving DecidableEq

/-- Outcome of an access check. -/
inductive AccessDecision where
  | allow | denyNotOwner | denyNotSender | denyNotGroup | denyMissingMention | denyOwnerCommandRequired
  | denyWorkspace (reason : String)
  deriving DecidableEq

def AccessDecision.rejectionKind : AccessDecision → Option InboundRejectionKind
  | .allow => none
  | .denyNotOwner => some .notOwner
  | .denyNotSender => some .notSender
  | .denyNotGroup => some .notGroup
  | .denyMissingMention => some .missingMention
  | .denyOwnerCommandRequired => some .ownerCommandRequired
  | .denyWorkspace _ => some .policy

/-- Effective access policy. -/
structure AccessPolicy where
  owners : List String
  allowedSenders : List String
  allowedGroups : List String
  allowRoots : List String
  roots : PlatformRoots
  sandbox : SandboxMode
  approvalPolicy : ApprovalPolicy
  networkAccess : Bool
  deriving DecidableEq

namespace AccessPolicy

def isOwner (p : AccessPolicy) (senderId : String) : Bool := p.owners.any (· == senderId)

def isAllowedSender (p : AccessPolicy) (senderId : String) : Bool := p.allowedSenders.any (· == senderId)

def isAllowedGroup (p : AccessPolicy) (chatId : String) : Bool := p.allowedGroups.any (· == chatId)

def mentionGate (event : InboundEvent) : AccessDecision :=
  if event.chatType ≠ .p2p ∧ event.mentionsBot = false then .denyMissingMention else .allow

/-- Gates ordinary input by owner, allowed sender and allowed group. -/
def decide (p : AccessPolicy) (event : InboundEvent) : AccessDecision :=
  if event.senderIsHuman = false then .denyNotSender
  else if p.isOwner event.senderId then mentionGate event
  else if p.isAllowedSender event.senderId then mentionGate event
  else if event.chatType ≠ .p2p ∧ p.isAllowedGroup event.chatId then mentionGate event
  else if event.chatType = .p2p then .denyNotOwner
  else .denyNotGroup

/-- Gates owner-only commands; the sender and group lists do not count here. -/
def decideCommand (p : AccessPolicy) (event : InboundEvent) : AccessDecision :=
  if event.senderIsHuman = false then .denyNotSender
  else if p.isOwner event.senderId = false then .denyOwnerCommandRequired
  else mentionGate event

def replaceAllowlists (p : AccessPolicy) (senders groups : List String) : AccessPolicy :=
  { p with allowedSenders := senders, allowedGroups := groups }

def replaceCodexPolicy (p : AccessPolicy) (sandbox : SandboxMode) (approvalPolicy : ApprovalPolicy) : AccessPolicy :=
  { p with sandbox := sandbox, approvalPolicy := approvalPolicy }

end AccessPolicy

end LarkCodexBridge.Runtime

import Mathlib
import LarkCodexBridge.Limits

/-!
# Messages of the app-server protocol

The frames of one app-server connection, the errors a caller of the RPC layer can see, and what an inbound policy
admits. JSON values are their texts.
-/

namespace LarkCodexBridge.Codex

open Limits

abbrev Value := String

inductive RequestId where
  | string (value : String)
  | integer (value : ℤ)
  deriving DecidableEq

structure RpcErrorObject where
  code : ℤ
  message : String
  data : Option Value
  deriving DecidableEq

inductive InboundMessage where
  | response (id : RequestId) (result : Value)
  | errorResponse (id : RequestId) (error : RpcErrorObject)
  | request (id : RequestId) (method : String) (params : Option Value)
  | notification (method : String) (params : Option Value)
  deriving DecidableEq

inductive OutboundMessage where
  | request (id : RequestId) (method : String) (params : Option Value)
  | response (id : RequestId) (result : Value)
  | errorResponse (id : RequestId) (error : RpcErrorObject)
  deriving DecidableEq

/-! ## Errors -/

/-- Safe RPC failures. -/
inductive RpcError where
  | timeout (method : String)
  | server (method : String) (code : ℤ)
  | threadResumeActiveWriter
  | connectionLost (epoch : ℕ)
  | alreadyInitialized
  | serialize (method : String)
  | deserialize (method : String)
  | payloadTooLarge (method : String)
  | unknownServerRequest
  | requestIdExhausted
  deriving DecidableEq

inductive TransportSendError where
  | protocol | closed | cancelled | io
  deriving DecidableEq

def mapSendError (error : TransportSendError) (method : String) (epoch : ℕ) : RpcError :=
  match error with
  | .protocol => .payloadTooLarge method
  | .closed | .cancelled | .io => .connectionLost epoch

/-- The reviewed wire contracts. -/
inductive WireAdapter where
  | v0_146_0 | v0_149_0 | sidecarV1
  deriving DecidableEq

/-- How an error response is classified; the thread id is kept as its digest. -/
inductive ServerErrorClassifier where
  | generic
  | threadResume (expectedThreadFingerprint : Option String) (wire : WireAdapter)
  deriving DecidableEq

def nativeInvalidRequestCode : ℤ := -32600
def sidecarThreadResumeActiveWriterCode : ℤ := -32023
def sidecarThreadResumeActiveWriterMessage : String := "thread/resume active-writer conflict"
def activeWriterSuffix : String := " already has an active writer"
def activeWriterPrefixes : List String := ["thread ", "thread-store conflict: thread "]

variable (digest : String → String)

/-- `thread_id_fingerprint`; `digest` is SHA-256. -/
def threadIdFingerprint (threadId : String) : Option String :=
  if threadId = "" ∨ threadId.utf8ByteSize > routingIdByteLimit then none else some (digest threadId)

def nativeActiveWriterThreadId (message : String) : Option String :=
  activeWriterPrefixes.findSome? fun start => do
    let rest ← start.toList.isPrefixOf? message.toList
    let threadId ← activeWriterSuffix.toList.isSuffixOf? rest
    let _ ← threadIdFingerprint digest (String.ofList threadId)
    return String.ofList threadId

/-- `ServerErrorClassifier::thread_resume`. -/
def ServerErrorClassifier.ofThreadResume (expectedThreadId : String) (wire : WireAdapter) : ServerErrorClassifier :=
  .threadResume (threadIdFingerprint digest expectedThreadId) wire

def ServerErrorClassifier.classify (classifier : ServerErrorClassifier) (method : String) (error : RpcErrorObject) :
    RpcError :=
  let isActiveWriter : Bool :=
    match classifier with
    | .generic => false
    | .threadResume expected wire =>
      error.data.isNone && expected.isSome &&
        match wire with
        | .sidecarV1 =>
          error.code = sidecarThreadResumeActiveWriterCode ∧ error.message = sidecarThreadResumeActiveWriterMessage
        | .v0_149_0 =>
          error.code = nativeInvalidRequestCode ∧
            (nativeActiveWriterThreadId digest error.message).bind (threadIdFingerprint digest) = expected
        | .v0_146_0 => false
  if isActiveWriter then .threadResumeActiveWriter else .server method error.code

/-! ## Policies -/

/-- Inbound protocol policy of a connection. -/
inductive RpcProtocolPolicy where
  | permissive
  | failClosedExternalObserve
  | failClosedExternalResume
  | failClosedExternalMutate
  | failClosedExternalQueue
  deriving DecidableEq

def RpcProtocolPolicy.isFailClosedExternal : RpcProtocolPolicy → Bool
  | .permissive => false
  | _ => true

def mutateNotifications : List String :=
  ["account/rateLimits/updated", "remoteControl/status/changed", "thread/status/changed", "thread/goal/cleared",
    "thread/settings/updated", "turn/started", "item/started", "item/agentMessage/delta",
    "item/commandExecution/outputDelta", "item/completed", "thread/tokenUsage/updated", "error", "turn/completed",
    "serverRequest/resolved"]

def RpcProtocolPolicy.allowsNotification (policy : RpcProtocolPolicy) (method : String) : Bool :=
  match policy with
  | .permissive => true
  | .failClosedExternalObserve => false
  | .failClosedExternalResume =>
    method ∈ ["remoteControl/status/changed", "thread/status/changed", "thread/goal/cleared", "item/completed",
      "turn/completed"]
  | .failClosedExternalMutate => method ∈ mutateNotifications
  | .failClosedExternalQueue => method ∈ "thread/queue/changed" :: mutateNotifications

def RpcProtocolPolicy.allowsServerRequest (policy : RpcProtocolPolicy) (method : String) : Bool :=
  match policy with
  | .permissive => true
  | .failClosedExternalObserve | .failClosedExternalResume => false
  | .failClosedExternalMutate | .failClosedExternalQueue =>
    method ∈ ["item/commandExecution/requestApproval", "item/fileChange/requestApproval",
      "item/permissions/requestApproval"]

def isAuthoritativeNotification (method : String) : Bool :=
  method ∈ ["thread/status/changed", "thread/settings/updated", "thread/queue/changed", "serverRequest/resolved",
    "item/completed", "turn/completed", "error"]

end LarkCodexBridge.Codex

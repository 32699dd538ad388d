import LarkCodexBridge.Outbox.Payload

/-!
# Outbound delivery

What the pump asks of the channel (`OutboundRequest`), how a failed call is classified for it (`DeliveryError`), and
where the native channel takes that class from (`deliveryError`). A card is carried as the renderer's input.
-/

namespace LarkCodexBridge.Outbox

/-- A card to render: a command surface, or a run card in a phase. -/
inductive Card where
  | interactive (spec : InteractiveCardSpec)
  | run (text : String) (phase : RunCardPhase)

/-- One provider-neutral outbound request. -/
inductive OutboundRequest where
  | replyText (messageId : String) (inThread : Bool) (text : String)
  | replyCard (messageId : String) (inThread : Bool) (card : Card)
  | replyMarkdownPost (messageId : String) (inThread : Bool) (markdown : String)
  | updateCard (messageId : String) (card : Card)

/-- The idempotent request: repeating it with the same body changes nothing further. -/
def OutboundRequest.isPatch : OutboundRequest → Bool
  | .updateCard .. => true
  | _ => false

inductive DeliveryFailureClass where
  | retryable | uncertain | definitive
  deriving DecidableEq

/-- A classified failure of a delivery call. -/
structure DeliveryError where
  failureClass : DeliveryFailureClass
  context : String
  patchRetryable : Bool

/-- Failures of the Lark client. -/
inductive LarkError where
  | invalidRequest (context : String)
  | permanentAuth (context : String) (code : Option ℤ)
  | retryable (context : String) (code : Option ℤ)
  | protocolViolation (context : String) (code : Option ℤ)
  | exhausted (context : String) (limit : ℕ)

def isDocumentedTransient (code : ℤ) : Bool := code = 429 ∨ code = 99991400

def isHttpServerError (code : ℤ) : Bool := 500 ≤ code ∧ code ≤ 599

/-- `delivery_error` of the native channel. -/
def deliveryError : LarkError → DeliveryError
  | .invalidRequest _ | .permanentAuth .. | .exhausted .. => ⟨.definitive, context, false⟩
  | .retryable _ (some code) | .protocolViolation _ (some code) =>
    if isHttpServerError code then ⟨.uncertain, context, true⟩
    else if isDocumentedTransient code then ⟨.retryable, context, true⟩
    else ⟨.definitive, context, false⟩
  | .retryable _ none | .protocolViolation _ none => ⟨.uncertain, context, false⟩
where
  context : String := "delivering an outbound operation"

end LarkCodexBridge.Outbox

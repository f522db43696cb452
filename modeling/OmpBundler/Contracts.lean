import Mathlib.Data.Nat.Notation
import Mathlib.Data.Rat.Defs

/-!
The messages that the core and an adapter exchange.

The literal fields of the wire format (the version, the discriminator) are
the constructors here. `occurredAt` is advisory and nothing modelled reads
it, so it is left out. Costs are rationals where the source has floating
point numbers.
-/

namespace OmpBundler

/-- A workspace-relative file; its bytes are never inlined. -/
structure WorkspaceAttachment where
  path : String
  name : Option String
  mediaType : Option String
  deriving DecidableEq, Repr

/-- The party that produced a message. -/
structure Speaker where
  id : String
  displayName : String
  deriving DecidableEq, Repr

/-- The body of an inbound message request. -/
structure InboundMessage where
  messageId : String
  conversationKey : String
  parentConversationKey : Option String
  speaker : Speaker
  text : String
  attachments : List WorkspaceAttachment
  addressed : Bool
  deriving DecidableEq, Repr

/-- Presence states of the agent within a conversation. -/
inductive Presence where
  | active
  | idle
  | offline
  deriving DecidableEq, Repr

/-- Token usage for a completed turn reply. -/
structure TurnUsage where
  input : ℕ
  output : ℕ
  cacheRead : ℕ
  cacheWrite : ℕ
  costUsd : Rat
  deriving DecidableEq, Repr

/-- What an outbound event says, by its type. -/
inductive EventBody where
  | turnStarted
  | turnProgress (message : String)
  | turnDelta (text : String)
  | turnReply (text : String) (attachments : List WorkspaceAttachment) (usage : TurnUsage)
  | presenceChanged (presence : Presence)
  | turnError (code message : String) (retryable : Bool)
  | turnCancelled
  deriving DecidableEq, Repr

/-- An outbound webhook event. -/
structure OutboundEvent where
  /-- Opaque, globally unique identifier; a redelivery carries the same. -/
  eventId : String
  conversationKey : String
  correlationId : String
  /-- Positive, increasing within a correlation. -/
  sequence : ℕ
  body : EventBody
  deriving DecidableEq, Repr

/-- The discriminator of an event. -/
def EventBody.typeText : EventBody → String
  | .turnStarted => "turn.started"
  | .turnProgress _ => "turn.progress"
  | .turnDelta _ => "turn.delta"
  | .turnReply _ _ _ => "turn.reply"
  | .presenceChanged _ => "presence.changed"
  | .turnError _ _ _ => "turn.error"
  | .turnCancelled => "turn.cancelled"

/-- The events that end a turn. -/
def EventBody.isTerminal : EventBody → Bool
  | .turnReply _ _ _ | .turnError _ _ _ | .turnCancelled => true
  | _ => false

/-- The events that `turn.started` precedes. -/
def EventBody.needsStart : EventBody → Bool
  | .turnReply _ _ _ | .turnError _ _ _ => true
  | _ => false

/-- The events that are neither persisted nor retried. -/
def EventBody.isBestEffort : EventBody → Bool
  | .turnProgress _ | .turnDelta _ => true
  | _ => false

/-- Whether the event ends its turn. -/
def OutboundEvent.isTerminal (event : OutboundEvent) : Bool := event.body.isTerminal

end OmpBundler

import Xxgate.Core.Json
import Xxgate.Core.Usage

/-!
# Requests, responses and events

`crates/xxgate-core/src/protocol.rs` and the model specification of `providers.rs`: what
passes between the gateway and its adapters, as far as the gateway reads it.
-/

namespace Xxgate.Core

/-- How a step that can panic fails: with an error that it returns, or by unwinding the task
that took it. -/
inductive Failure where
  | error (error : Error)
  | panic
  deriving DecidableEq

/-- `protocol.rs:20`. -/
inductive RequestKind where
  | responses
  | compact
  | search
  | imageGeneration
  | imageEdit
  deriving DecidableEq, Repr

/-- `protocol.rs:30`. -/
def RequestKind.isImage (kind : RequestKind) : Bool :=
  kind == .imageGeneration || kind == .imageEdit

/-- `gateway.rs:603`: the kinds whose response is one body. -/
def RequestKind.isUnary (kind : RequestKind) : Bool :=
  kind == .search || kind == .compact || kind.isImage

/-- `providers.rs:46`. -/
structure ModelSpec where
  id : String
  upstream : ModelRef
  enabled : Bool
  deriving DecidableEq

/-- `identity.rs:19`. -/
structure ClientIdentity where
  sessionId : String
  threadId : String
  deriving DecidableEq

/-- `protocol.rs:62`. -/
structure GatewayRequest where
  source : ClientSource
  /-- No stable client identity: the scheduling scope exists only for this request. -/
  stateless : Bool
  kind : RequestKind
  identity : ClientIdentity
  model : String
  stream : Bool
  requestedTier : Option String
  deriving DecidableEq

/-- `protocol.rs:85`: the parts of the prepared request that a recovery can tell apart. -/
structure PreparedRequest where
  url : String
  body : Option Json

/-- `protocol.rs:108`. -/
inductive EncryptedContentError where
  | reasoning
  | toolOutput
  deriving DecidableEq, Repr

/-- `protocol.rs:97`. -/
structure EncryptedContentRecovery where
  errorKind : EncryptedContentError
  encryptedFieldsRemoved : Nat
  nullContentFieldsRemoved : Nat
  emptyReasoningItemsRemoved : Nat
  encryptedToolPartsReplaced : Nat
  toolOutputsChanged : Nat
  deriving DecidableEq, Repr

/-- `protocol.rs:139`: an event as the upstream sent it, the document made of it for the
client, and what was observed in it. The observations a recovery rests on are functions of
the event received. -/
structure GatewayEvent where
  received : Json
  document : Json
  responseModel : Option String
  usage : Option Usage
  error : Option Error
  disables : Bool

end Xxgate.Core

import Xxgate.Core.Protocol

/-!
# The record of a request

`crates/xxgate-core/src/audit.rs`: what is stored about a request while it runs and once it
is finished, and the events of its history.
-/

namespace Xxgate.Core

/-- `settings.rs:8`. -/
inductive LogLevel where
  | error
  | warn
  | info
  | debug
  deriving DecidableEq, Repr

/-- `audit.rs:7`. -/
structure AuditEvent where
  kind : String
  actor : String
  requestId : Option Uuid
  instant : Nat
  deriving DecidableEq

/-- The texts of `RequestRecord::state`. -/
inductive RequestState where
  | queued
  | inflight
  | completed
  | failed
  | cancelled
  | interrupted
  | rejected
  deriving DecidableEq, Repr

/-- `audit.rs:38`. Instants are microseconds. -/
structure RequestRecord where
  requestLogLevel : Option LogLevel
  stateless : Bool
  kind : RequestKind
  searchPrice : Option SearchPrice
  id : Uuid
  keyId : Uuid
  groupId : Option Uuid
  clientSessionId : String
  clientThreadId : String
  model : String
  provider : String
  upstreamModel : Option String
  responseModel : Option String
  requestedTier : Option String
  accountId : Option Uuid
  bindingId : Option Uuid
  bindingGeneration : Option Int
  state : RequestState
  createdAt : Nat
  finishedAt : Option Nat
  totalMs : Option Nat
  upstreamStatus : Option Nat
  errorCode : Option String
  errorMessage : Option String
  usage : Usage
  valuation : Option Valuation
  upstreamAttempts : Nat
  deriving DecidableEq

/-- `audit.rs:103`; `upstream_error` is set with the error code only. -/
def RequestRecord.summaryOnly (r : RequestRecord) : Bool :=
  r.requestLogLevel.any (· != .debug) && r.state == .completed && r.errorCode.isNone &&
    r.usage.complete && decide (r.upstreamAttempts ≤ 1)

end Xxgate.Core

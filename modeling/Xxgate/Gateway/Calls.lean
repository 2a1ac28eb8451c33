import Xxgate.Base.Task
import Xxgate.Codex.Recovery
import Xxgate.Core.Audit
import Xxgate.Scheduling.State

/-!
# What a request asks of its surroundings

`crates/xxgate-core/src/application/gateway.rs` runs each request as one task. Here are the
state of such a task that outlives a cancellation, and the calls it makes with the replies
they get. A `Consult` is a call whose reply nothing below depends on, so that any reply may
come; the other calls act on the scheduler, the safety guard, the store or the upstream.
-/

namespace Xxgate.Gateway

open Xxgate.Base Xxgate.Core Xxgate.Scheduling

/-- What is handed to the client. -/
inductive Delivery where
  | heartbeat
  | document (value : Json)
  | failure (error : Error)

/-- What the wait for the next piece of a response ends with. -/
inductive Chunk where
  /-- The deadline passed. -/
  | idle
  /-- A heartbeat is due. -/
  | heartbeat
  | ended
  | failed (error : Error)
  | bytes (size : Nat)

/-- Calls whose replies are free. -/
inductive Consult where
  /-- The first poll of the task's `select!`. -/
  | polled
  | models
  | mappings (bindingId : Uuid)
  | saveMappings (bindingId : Uuid)
  | credentials (accountId : Uuid)
  | searchPrice
  | prices
  | applyQuotaObservation (accountId : Uuid)
  | disableObserved (accountId : Uuid)
  /-- `send_once` answered with the status of a response, or with an error or a timeout. -/
  | headers
  /-- `read_limited` with its deadline: the JSON value of the body, when it is one. -/
  | errorBody
  | nextChunk
  | deliver (delivery : Delivery)
  /-- `cancel.is_cancelled() || tx.is_closed()`. -/
  | isCancelled
  | now
  | logLevel
  /-- `sse_event_limit_bytes` of the settings in force. -/
  | eventLimit
  | validate (model : ModelSpec)
  /-- The request as prepared, and whether identifiers in it were rewritten. -/
  | prepare (model : ModelSpec) (account : Account)
  /-- The classified error, and whether the account is to be disabled. -/
  | httpError (status : Nat) (body : Option Json)
  /-- The size of the encoded document. -/
  | encode (document : Json)
  /-- `ProviderDecoder::push`, which panics on some events (`Codex.CodexDecoder.push`). -/
  | decode
  | finishDecoder
  /-- The usage and the model reported by a response of one body. -/
  | unaryResponse (kind : RequestKind)
  /-- A memory lease follows what it accounts for. -/
  | resize

/-- The type of the reply. -/
@[reducible] def Consult.Reply : Consult → Type
  | .polled => Unit
  | .models => Result (List ModelSpec)
  | .mappings _ => Result Unit
  | .saveMappings _ => Result Unit
  | .credentials _ => Result Unit
  | .searchPrice => Result SearchPrice
  | .prices => Result (List Price)
  | .applyQuotaObservation _ => Result Unit
  | .disableObserved _ => Result Unit
  | .headers => Result Nat
  | .errorBody => Result (Option Json)
  | .nextChunk => Chunk
  | .deliver _ => Result Unit
  | .isCancelled => Bool
  | .now => Nat
  | .logLevel => LogLevel
  | .eventLimit => Nat
  | .validate _ => Result Unit
  | .prepare _ _ => Result (PreparedRequest × Bool)
  | .httpError _ _ => Error × Bool
  | .encode _ => Result Nat
  | .decode => Except Failure (List GatewayEvent)
  | .finishDecoder => Result Unit
  | .unaryResponse _ => Result (Option Usage × Option String)
  | .resize => Result Unit

/-- Consultations answered elsewhere, so that the reply can be lost with the task. -/
def Consult.isRemote : Consult → Bool
  | .models | .mappings _ | .saveMappings _ | .credentials _ | .searchPrice | .prices
  | .applyQuotaObservation _ | .disableObserved _ => true
  | _ => false

/-- Consultations the task waits for. -/
def Consult.isAwait : Consult → Bool
  | .polled | .headers | .errorBody | .nextChunk | .deliver _ => true
  | q => q.isRemote

/-- What a round of `QueueTicket::wait` brings. -/
inductive Waited where
  | lease (lease : DispatchLease)
  | failed (error : Error)
  | heartbeat

/-- The calls of a task; those of the scheduler and the store are about its own request. -/
inductive Call where
  | consult (q : Consult)
  -- the scheduler
  | enqueue (thread : ThreadKey) (groupId : Uuid) (model : ModelRef) (source : ClientSource)
      (since : Nat)
  | wait
  | dropTicket
  | account (id : Uuid)
  | confirmStateless
  | confirmBinding
  | beginSend
  | beginEncryptedReasoningRecovery
  | dropLease
  | setPaused
  -- the safety guard
  | safetyCheck (session : SessionKey)
  | safetyRestore (session : SessionKey) (count : Nat) (error : Error)
  | safetyRemember (session : SessionKey) (error : Error)
  -- the upstream
  | sendOnce (prepared : PreparedRequest)
  -- the store
  | commitBinding (binding : Binding) (expectedGeneration : Int)
  | sessionBindings (session : SessionKey)
  | safetyRejection (session : SessionKey)
  | saveSafetyRejection (session : SessionKey) (error : Error)
  | beginRequest (record : RequestRecord)
  | updateRequest (record : RequestRecord)
  | finishRequest (record : RequestRecord)
  | summarizeRequest (record : RequestRecord)
  | appendEvent (kind : String)

/-- The type of the reply. -/
@[reducible] def Call.Reply : Call → Type
  | .consult q => q.Reply
  | .enqueue .. => Result Unit
  | .wait => Waited
  | .dropTicket => Unit
  | .account _ => Option Account
  | .confirmStateless => Result Unit
  | .confirmBinding => Unit
  | .beginSend => Result Unit
  | .beginEncryptedReasoningRecovery => Result Unit
  | .dropLease => Unit
  | .setPaused => Unit
  | .safetyCheck _ => Result Unit
  | .safetyRestore .. => Unit
  | .safetyRemember .. => Unit
  | .sendOnce _ => Unit
  | .commitBinding .. => Result Unit
  | .sessionBindings _ => Result (List Binding)
  | .safetyRejection _ => Result (Option (Nat × Error))
  | .saveSafetyRejection .. => Result Unit
  | .beginRequest _ => Result Unit
  | .updateRequest _ => Result Unit
  | .finishRequest _ => Result Unit
  | .summarizeRequest _ => Result Unit
  | .appendEvent _ => Result Unit

/-- Calls answered elsewhere, so that the reply can be lost with the task. -/
def Call.isRemote : Call → Bool
  | .consult q => q.isRemote
  | .commitBinding .. | .sessionBindings _ | .safetyRejection _ | .saveSafetyRejection ..
  | .beginRequest _ | .updateRequest _ | .finishRequest _ | .summarizeRequest _
  | .appendEvent _ => true
  | _ => false

/-- Calls the task waits for. -/
def Call.isAwait : Call → Bool
  | .consult q => q.isAwait
  | .wait => true
  | c => c.isRemote

/-- `gateway.rs:70`: what is left of a request when its execution ends or is dropped. The
ticket is the one `start` got, until the execution takes it. The last field is not one of the
source: it says that the execution ended in a panic, which unwinds the rest of the task too. -/
structure Execution where
  ticket : Bool
  record : RequestRecord
  price : Option Price
  finalized : Bool
  terminalDelivered : Bool
  safetyRejection : Option Error
  panicked : Bool

/-- What a task was started with. -/
structure Job where
  id : Uuid
  key : GatewayKey
  request : GatewayRequest
  model : ModelSpec
  since : Nat

/-- `gateway.rs:176`: the thread a request belongs to. -/
def threadOf (key : GatewayKey) (request : GatewayRequest) : ThreadKey :=
  ⟨⟨key.id, request.identity.sessionId⟩, request.identity.threadId⟩

/-- Where the stream loop stands. -/
structure StreamState where
  lease : DispatchLease
  prepared : PreparedRequest
  sentAttempts : Nat
  buffering : Bool
  preamble : List Json
  preambleBytes : Nat

/-- The blocks of an execution: its beginning, and its loops. -/
inductive Label where
  | select
  | reserve
  | wait
  | attempt (lease : DispatchLease) (prepared : PreparedRequest) (sentAttempts : Nat)
  | unary (size : Nat)
  | stream (state : StreamState)
  | events (state : StreamState) (events : List GatewayEvent)

/-- A part of an execution. -/
abbrev Run (L α : Type) : Type := Coroutine Execution Call Call.Reply L Error α

/-- Make a call. -/
abbrev call {S L ε : Type} (c : Call) : Coroutine S Call Call.Reply L ε c.Reply :=
  Coroutine.ask c

/-- Make a call whose reply is free. -/
abbrev consult {S L ε : Type} (q : Consult) : Coroutine S Call Call.Reply L ε q.Reply :=
  Coroutine.ask (Call.consult q)

end Xxgate.Gateway

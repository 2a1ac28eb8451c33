import Xxgate.Base.Locks
import Xxgate.Resets.Journal

/-!
# Redeeming a reset credit

`crates/xxgate-core/src/application/resets.rs` and the two requests of the provider's
`resets.rs`, over the calls they make: on the lock of the account, the journal and the
transport. A `Consult` is a call whose reply nothing below depends on.
-/

namespace Xxgate.Resets

open Xxgate.Base Xxgate.Base.Coroutine Xxgate.Core

/-- The body of a consume request: the idempotency key, and the credit it redeems. -/
structure Redemption where
  redeemRequestId : Uuid
  creditId : String
  deriving DecidableEq

/-- A control request as far as the reset interface tells two apart. -/
structure ControlRequest where
  method : String
  path : String
  body : Option Redemption
  deriving DecidableEq

/-- `resets.rs:11` of the provider, with what `quota::request` came to. -/
def request (a : Account) (quota : Result Unit) (operation : Option ResetOperation) :
    Result ControlRequest :=
  if a.provider ≠ "openai" || a.accessKind ≠ "codex_oauth" then
    .error (.invalid "此账户不支持 Codex 额度重置")
  else quota.map fun _ ↦
    match operation with
    | none => ⟨"GET", "/rate-limit-reset-credits", none⟩
    | some operation =>
      ⟨"POST", "/rate-limit-reset-credits/consume", some ⟨operation.id, operation.creditId⟩⟩

/-- Calls whose replies are free. -/
inductive Consult where
  | now
  /-- `self.credentials(id, false)`. -/
  | credentials (id : Uuid)
  | account (id : Uuid)
  /-- `quota::request` of the provider. -/
  | quotaRequest (account : Account)
  /-- `read_limited` of the response, or none when the deadline passed first. -/
  | readLimited
  | httpError (status : Nat)
  | resetCreditsResponse
  | consumeResetResponse
  | appendEvent (kind : String)

/-- The type of the reply. -/
@[reducible] def Consult.Reply : Consult → Type
  | .now => Int
  | .credentials _ => Result Unit
  | .account _ => Option Account
  | .quotaRequest _ => Result Unit
  | .readLimited => Option (Result Unit)
  | .httpError _ => Error
  | .resetCreditsResponse => Result ResetCredits
  | .consumeResetResponse => Result ResetResult
  | .appendEvent _ => Result Unit

/-- Consultations the task waits for. -/
def Consult.isAwait : Consult → Bool
  | .credentials _ | .readLimited | .appendEvent _ => true
  | _ => false

/-- The calls of a task. -/
inductive Call where
  | consult (q : Consult)
  -- the mutex `reset_lock` gives for the account
  | lock (id : Uuid)
  | unlock (id : Uuid)
  | releaseAll
  -- the store
  | saveResetCredits (id : Uuid) (credits : ResetCredits)
  | resetOperation (id : Uuid) (operation : Option Uuid)
  | beginReset (operation : ResetOperation)
  | finishReset (operation : ResetOperation)
  /-- `send_once` under the credentials of the account: the status of the response, or none when
  the deadline passed first. -/
  | sendOnce (id : Uuid) (request : ControlRequest)
  /-- Where `consume_reset` returns; nothing answers to it. -/
  | returned (result : Result ResetOperation)

/-- The type of the reply. -/
@[reducible] def Call.Reply : Call → Type
  | .consult q => q.Reply
  | .lock _ | .unlock _ | .releaseAll => Unit
  | .saveResetCredits .. => Result Unit
  | .resetOperation .. => Result (Option ResetOperation)
  | .beginReset _ | .finishReset _ => Result Unit
  | .sendOnce .. => Option (Result Nat)
  | .returned _ => Unit

/-- Calls answered elsewhere, so that the reply can be lost with the task. -/
def Call.isRemote : Call → Bool
  | .saveResetCredits .. | .resetOperation .. | .beginReset _ | .finishReset _
  | .sendOnce .. => true
  | _ => false

/-- Calls the task waits for. -/
def Call.isAwait : Call → Bool
  | .consult q => q.isAwait
  | .lock _ => true
  | c => c.isRemote

/-- A part of a task. -/
abbrev Run (α : Type) : Type := Coroutine Unit Call Call.Reply Empty Error α

/-- Make a call. -/
abbrev call (c : Call) : Run c.Reply := Coroutine.ask c

/-- Make a call whose reply is free. -/
abbrev consult (q : Consult) : Run q.Reply := Coroutine.ask (Call.consult q)

/-- What tasks are started for. -/
inductive Job where
  /-- `collect_reset_credits`. -/
  | collectResetCredits (id : Uuid)
  /-- `consume_reset`, with the operation and the credit the caller expects it to redeem. -/
  | consumeReset (id operationId : Uuid) (expectedCredit : String)
  deriving DecidableEq

/-! ### The functions -/

/-- `scheduler.account(id).ok_or_else(Error::not_found)?`. -/
def found (id : Uuid) : Run Account := do
  let account ← consult (.account id)
  ok (account.elim (.error .notFound) .ok)

/-- Do something holding the lock of an account. -/
def locked {α : Type} (id : Uuid) (body : Run α) : Run α := do
  call (.lock id)
  let result ← outcome body
  call (.unlock id)
  ok result

/-- Mark where `consume_reset` returns. -/
def returning (body : Run ResetOperation) : Run ResetOperation := do
  let result ← outcome body
  call (.returned result)
  ok result

/-- `resets.rs:36`: the request did not end in time. -/
def resetTimeout : Error :=
  ⟨504, "reset_timeout", "额度重置接口超时；执行结果未确认时请重试原操作"⟩

/-- `resets.rs:22`. -/
def resetControl (id : Uuid) (request : ControlRequest) : Run Unit := do
  let status ← ok ((← call (.sendOnce id request)).getD (.error resetTimeout))
  ok ((← consult .readLimited).getD (.error resetTimeout))
  if 200 ≤ status && status < 300 then
    return
  fail (← consult (.httpError status))

/-- `resets.rs:44`. -/
def fetchResetCredits (id : Uuid) : Run ResetCredits := do
  ok (← consult (.credentials id))
  let account ← found id
  let request ← ok (request account (← consult (.quotaRequest account)) none)
  resetControl id request
  let credits ← ok (← consult .resetCreditsResponse)
  ok (← call (.saveResetCredits id credits))
  return credits

/-- `resets.rs:56`. -/
def collectResetCredits (id : Uuid) : Run ResetCredits := locked id (fetchResetCredits id)

/-- `resets.rs:84–110`: a new operation, when none of the account is pending and the credit the
caller expects is next. -/
def newOperation (id operationId : Uuid) (expectedCredit : String) : Run ResetOperation := do
  let pending ← ok (← call (.resetOperation id none))
  if pending.isSome then
    fail ⟨409, "reset_pending", "上一次重置结果尚未确认，请先核实原操作"⟩
  else
    let credits ← fetchResetCredits id
    match credits.next (← consult .now) with
    | none => fail ⟨409, "no_reset_credit", "没有尚未过期的可用重置次数"⟩
    | some next =>
      if next.id ≠ expectedCredit then
        fail ⟨409, "reset_credit_changed", "可用重置列表已变化，请重新查询后操作"⟩
      else
        let now ← consult .now
        return ⟨operationId, id, next.id, now, none⟩

/-- `resets.rs:132–138`: the outcome is not known. -/
def unconfirmed (error : Error) : Run ResetOperation := do
  ok (← consult (.appendEvent "quota_reset_unconfirmed"))
  fail error

/-- `resets.rs:125–140`: send the request, and store what came of it. -/
def settleReset (id : Uuid) (operation : ResetOperation) (request : ControlRequest) :
    Run ResetOperation := do
  let result ← outcome do
    resetControl id request
    ok (← consult .consumeResetResponse)
  match result with
  | .ok result =>
    ok (← call (.finishReset { operation with result := some result }))
    return { operation with result := some result }
  | .error error => unconfirmed error

/-- `resets.rs:112–140`: complete fallible preparation before journaling; after journaling any
uncertain response can only retry the original idempotency key. -/
def redeem (id operationId : Uuid) (operation : ResetOperation) : Run ResetOperation := do
  ok (← consult (.credentials id))
  let account ← found id
  let request ← ok (request account (← consult (.quotaRequest account)) (some operation))
  let stored ← ok (← call (.resetOperation id (some operationId)))
  doWhen stored.isNone do
    ok (← call (.beginReset operation))
  settleReset id operation request

/-- `resets.rs:75–140`: go on with the operation as it is stored, or with a new one. -/
def resumeReset (id operationId : Uuid) (expectedCredit : String) :
    Option ResetOperation → Run ResetOperation
  | some operation =>
    if operation.creditId ≠ expectedCredit then
      fail (.invalid "同一操作标识不能更换重置凭据")
    else if operation.result.isSome then
      return operation
    else redeem id operationId operation
  | none => do
    let operation ← newOperation id operationId expectedCredit
    redeem id operationId operation

/-- `resets.rs:74–140`. -/
def consumeLocked (id operationId : Uuid) (expectedCredit : String) : Run ResetOperation := do
  let existing ← ok (← call (.resetOperation id (some operationId)))
  resumeReset id operationId expectedCredit existing

/-- `resets.rs:62`. -/
def consumeReset (id operationId : Uuid) (expectedCredit : String) : Run ResetOperation :=
  returning <|
    if operationId = 0 || (trim expectedCredit).isEmpty || 512 < expectedCredit.utf8ByteSize then
      fail (.invalid "请先查询重置次数，再选择本次操作")
    else locked id (consumeLocked id operationId expectedCredit)

/-- What a task runs. -/
def body : Job → Run Unit
  | .collectResetCredits id => do let _ ← collectResetCredits id
  | .consumeReset id operationId expectedCredit => do
    let _ ← consumeReset id operationId expectedCredit

/-- A task is one body, and gives its lock back when it ends or is dropped. -/
def scheme : Scheme Unit Call Call.Reply Empty Error Unit where
  block := nofun
  close := fun _ ↦ Coroutine.ask Call.releaseAll
  isAwait := Call.isAwait
  isRemote := Call.isRemote

end Xxgate.Resets

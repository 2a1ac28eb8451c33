import Xxgate.Codex.Oauth
import Xxgate.Codex.OauthResponse
import Xxgate.Oauth.Flows

/-!
# Authorizing accounts

The handlers of `oauth.rs` and `oauth_browser.rs` and the workers they start, as tasks with
their calls. A handler may be dropped at an await; a worker runs to its end unless the process
stops. What is started waits in the shared state until a worker task takes it up.
-/

namespace Xxgate.Oauth

open Xxgate.Base Xxgate.Base.Coroutine Xxgate.Core Xxgate.Codex Xxgate.Codex.Oauth
open Xxgate.Accounts (Start)

/-- What `tasks.spawn` is called with. -/
inductive Worker where
  | poll (input : Start) (code : DeviceCode) (id : Uuid)
  | exchange (id : Uuid) (exchange : Flows.Exchange)

/-- What is sent to the authorization server. -/
inductive Request where
  | deviceStart
  | devicePoll (code : DeviceCode)
  | exchangeDevice (form : List (String × String))
  | exchange (exchange : Flows.Exchange) (form : List (String × String))

/-- Which branch of `select!` was taken while a poll waited. -/
inductive Wake where
  | cancelled
  | expired
  | ready

/-- Calls whose replies are free. -/
inductive Consult where
  | newId
  /-- `BrowserAuthorization::new`. -/
  | newAuthorization
  | authorizationUrl (auth : BrowserAuthorization)
  /-- `Instant::now`. -/
  | instant
  /-- Whether the scheduler has the account. -/
  | accountKnown (id : Uuid)
  | validateSelection (ids : List Uuid)
  /-- `serde_json::from_value`. -/
  | deviceCode (body : Json)

/-- The type of the reply. -/
@[reducible] def Consult.Reply : Consult → Type
  | .newId => Uuid
  | .newAuthorization => BrowserAuthorization
  | .authorizationUrl _ => Result String
  | .instant => Nat
  | .accountKnown _ => Bool
  | .validateSelection _ => Result Unit
  | .deviceCode _ => Option DeviceCode

/-- The calls of a task. -/
inductive Call where
  | consult (q : Consult)
  -- the sections under the mutex
  | reserve (id : Uuid) (value : Value) (browser : Option (Start × BrowserAuthorization))
      (tooMany : String)
  | remove (id : Uuid)
  | setValue (id : Uuid) (value : Value)
  | finish (id : Uuid) (value : Value)
  | consume (id : Uuid) (callback : String)
  | cancel (id : Uuid)
  | status (id : Uuid)
  -- workers
  | spawn (worker : Worker)
  | take
  -- outside
  | control (flowId : Uuid) (request : Request)
  | wait (deadline seconds : Nat)
  /-- `oauth::tokens`, which reads the time. -/
  | tokens (body : Json)
  /-- `save_credentials`, with the account that comes of it. -/
  | saveCredentials (input : Start) (credentials : Credentials)

/-- The type of the reply. -/
@[reducible] def Call.Reply : Call → Type
  | .consult q => q.Reply
  | .reserve .. => Result Unit
  | .remove _ | .setValue .. | .finish .. => Unit
  | .consume .. => Result Flows.Exchange
  | .cancel _ => Result Unit
  | .status _ => Result Value
  | .spawn _ => Unit
  | .take => Worker
  | .control .. => Result OAuthResponse
  | .wait .. => Wake
  | .tokens _ => Result Credentials
  | .saveCredentials .. => Result Uuid

/-- Calls answered elsewhere, so that the reply can be lost with the task. -/
def Call.isRemote : Call → Bool
  | .consult (.validateSelection _) | .control .. | .wait .. | .saveCredentials .. => true
  | _ => false

/-- Calls the task waits for: the mutex of the flows comes before each section. -/
def Call.isAwait : Call → Bool
  | .consult (.validateSelection _) => true
  | .consult _ | .spawn _ | .tokens _ => false
  | _ => true

/-- Where the loop of `poll` stands. -/
structure Polling where
  input : Start
  code : DeviceCode
  id : Uuid
  deadline : Nat

/-- A part of a task. -/
abbrev Run (α : Type) : Type := Coroutine Unit Call Call.Reply Polling Error α

/-- Make a call. -/
abbrev call (c : Call) : Run c.Reply := Coroutine.ask c

/-- Make a call whose reply is free. -/
abbrev consult (q : Consult) : Run q.Reply := Coroutine.ask (Call.consult q)

/-! ### Starting -/

/-- `oauth.rs:84–95` and `oauth_browser.rs:20–31`. -/
@[irreducible] def checkStart (message : String) (input : Start) : Run Unit :=
  if (trim input.name).isEmpty || 128 < input.name.utf8ByteSize then fail (.invalid message)
  else
    match input.accountId with
    | none => do
      ok (← consult (.validateSelection input.groupIds))
    | some id => do
      if ← consult (.accountKnown id) then pure () else fail .notFound

/-- `oauth.rs:125–149`: the answer to the start of a device authorization. -/
def startPolling (input : Start) (id : Uuid) (response : OAuthResponse) : Run Unit :=
  if response.status ≠ 200 then do
    call (.remove id)
    fail response.error
  else do
    match ← consult (.deviceCode response.body) with
    | none =>
      call (.remove id)
      fail response.error
    | some code =>
      call (.setValue id (.device id code.userCode))
      call (.spawn (.poll input code id))

/-- `oauth.rs:83`. -/
def start (input : Start) : Run Unit := do
  checkStart "An account name is required" input
  let id ← consult .newId
  ok (← call (.reserve id .starting none "Too many pending authorizations"))
  match ← call (.control id .deviceStart) with
  | .error error =>
    call (.remove id)
    fail error
  | .ok response => startPolling input id response

/-- `oauth_browser.rs:19`. -/
def startBrowser (input : Start) : Run Unit := do
  checkStart "请输入账户名称，长度不能超过 128 字节。" input
  let auth ← consult .newAuthorization
  let id ← consult .newId
  let url ← ok (← consult (.authorizationUrl auth))
  ok (← call (.reserve id (.browser id url) (some (input, auth))
    "待处理的授权过多，请完成或取消已有授权。"))

/-- `oauth_browser.rs:59`. -/
def complete (id : Uuid) (callback : String) : Run Unit := do
  let exchange ← ok (← call (.consume id callback))
  call (.spawn (.exchange id exchange))

/-! ### Workers -/

/-- Show what came of a flow. -/
def finish (id : Uuid) (result : Except Error Uuid) : Run Unit :=
  call (.finish id (match result with
    | .ok account => .completed id account
    | .error error => .failed id error.code error.message))

/-- The end of both kinds of authorization: credentials from an answer are saved. -/
def saveTokens (input : Start) (response : OAuthResponse) : Run Uuid :=
  if response.status ≠ 200 then fail response.error
  else do
    let credentials ← ok (← call (.tokens response.body))
    ok (← call (.saveCredentials input credentials))

/-- `oauth_browser.rs:105`. -/
def exchange (id : Uuid) (e : Flows.Exchange) : Run Uuid := do
  let response ← ok (← call (.control id (.exchange e (e.auth.exchangeForm e.code))))
  saveTokens e.input response

/-- `oauth.rs:160–184`, one round of the loop and what follows it: none while the approval is
pending. -/
def pollOnce (p : Polling) : Run (Option Uuid) := do
  match ← call (.wait p.deadline p.code.pollSeconds) with
  | .cancelled => fail .cancelled
  | .expired => fail ⟨408, "oauth_expired", "Device authorization expired"⟩
  | .ready =>
    let response ← ok (← call (.control p.id (.devicePoll p.code)))
    if response.status = 200 then
      let form ← ok (exchangeDevice response.body)
      let tokens ← ok (← call (.control p.id (.exchangeDevice form)))
      let account ← saveTokens p.input tokens
      return some account
    else if response.pending then return none
    else fail response.error

/-- The loop of `poll`, and what its worker does then. -/
def poll (p : Polling) : Run Unit := do
  match ← outcome (pollOnce p) with
  | .ok none => jump p
  | .ok (some account) => finish p.id (.ok account)
  | .error error => finish p.id (.error error)

/-- What is started runs. -/
def work : Run Unit := do
  match ← call .take with
  | .exchange id e =>
    let result ← outcome (exchange id e)
    finish id result
  | .poll input code id =>
    let now ← consult .instant
    jump ⟨input, code, id, now + 900 * 1000⟩

/-! ### Tasks -/

/-- What tasks are started for. -/
inductive Job where
  | start (input : Start)
  | startBrowser (input : Start)
  | complete (id : Uuid) (callback : String)
  | cancel (id : Uuid)
  | status (id : Uuid)
  | worker

/-- What a task runs. -/
def body : Job → Run Unit
  | .start input => start input
  | .startBrowser input => startBrowser input
  | .complete id callback => complete id callback
  | .cancel id => do
    ok (← call (.cancel id))
  | .status id => do
    let _ ← ok (← call (.status id))
  | .worker => work

/-- A task is one body with the loop of `poll`. -/
def scheme : Scheme Unit Call Call.Reply Polling Error Unit where
  block := poll
  close := fun _ ↦ pure ()
  isAwait := Call.isAwait
  isRemote := Call.isRemote

end Xxgate.Oauth

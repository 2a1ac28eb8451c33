import Xxgate.Base.Locks
import Xxgate.Store.Accounts

/-!
# What account maintenance asks of its surroundings

`crates/xxgate-core/src/application/gateway.rs:964–1245`, `catalog.rs` and the account
handlers of the server run as tasks that may be dropped at an await. Here are their calls
with the replies they get: on the locks, the scheduler, the account tables and the token
endpoint. A `Consult` is a call whose reply nothing below depends on.
-/

namespace Xxgate.Accounts

open Xxgate.Base Xxgate.Core Xxgate.Store

/-- The mutexes account maintenance takes. -/
inductive Lock where
  | mutations
  | refresh (accountId : Uuid)
  | modelSync (accountId : Uuid)
  deriving DecidableEq

/-- What a call of `disable_observed` or `apply_quota_observation` reports: the account, the
version it was observed at, and the reason to disable it when there is one. -/
structure Observation where
  id : Uuid
  version : Int
  reason : Option DisableReason
  deriving DecidableEq

/-- Calls whose replies are free. -/
inductive Consult where
  | now
  /-- `quota_stale_after_secs` of the settings in force. -/
  | staleAfter
  /-- `default_account_concurrency` of the settings in force. -/
  | defaultConcurrency
  /-- `Uuid::new_v4`. -/
  | newId
  | validate (account : Account)
  /-- The upstream account id in the token's claims. -/
  | accountDetails (credentials : Credentials)
  | refreshRequest (account : Account)
  | quotaRequest (account : Account)
  | modelsRequest (account : Account)
  /-- A control request: `send_once` and `read_limited`, ending with a status and a body. -/
  | exchange
  /-- The classified error, and the reason to disable the account when there is one. -/
  | httpError (status : Nat)
  | quotaResponse
  | extraCreditsResponse
  | modelsResponse
  /-- `catalog.rs:59–80`: the models found that are not configured yet are. -/
  | configureModels (models : List String)
  | appendEvent

/-- The type of the reply. -/
@[reducible] def Consult.Reply : Consult → Type
  | .now => Int
  | .staleAfter => Nat
  | .defaultConcurrency => UInt32
  | .newId => Uuid
  | .validate _ => Result Unit
  | .accountDetails _ => Result String
  | .refreshRequest _ | .quotaRequest _ | .modelsRequest _ => Result Unit
  | .exchange => Result Nat
  | .httpError _ => Error × Option DisableReason
  | .quotaResponse => Result (List QuotaWindow)
  | .extraCreditsResponse => Result ExtraCredits
  | .modelsResponse => Result (List String)
  | .configureModels _ => Result Unit
  | .appendEvent => Result Unit

/-- Consultations the task waits for. -/
def Consult.isAwait : Consult → Bool
  | .exchange | .configureModels _ | .appendEvent => true
  | _ => false

/-- The calls of a task. -/
inductive Call where
  | consult (q : Consult)
  -- the locks
  | lock (l : Lock)
  | unlock (l : Lock)
  | releaseAll
  -- where a call of an observing function begins and returns; nothing answers to these
  | enter (observation : Observation)
  | leave (observation : Observation) (ok : Bool)
  -- the scheduler
  | account (id : Uuid)
  | accounts
  | blockAccount (id : Uuid)
  | updateAccount (account : Account)
  | removeAccount (id : Uuid)
  | setPaused
  -- the store
  | groups
  | storedAccounts
  | putAccount (account : Account) (encrypted : Option Sealed) (expectedVersion : Option Int)
  | deleteAccount (id : Uuid)
  | credentials (id : Uuid)
  | updateCredentials (id : Uuid) (encrypted : Sealed) (expiresAt : Option Int)
      (expectedVersion : Int)
  | setEnabled (id : Uuid) (enabled : Bool) (reason : Option DisableReason)
      (expectedVersion : Int) (actor : String)
  | saveModelCatalog (id : Uuid) (catalog : AccountModelCatalog)
  | quotas (id : Uuid)
  | saveQuotas (id : Uuid) (windows : List QuotaWindow)
  | extraCredits (id : Uuid)
  | saveExtraCredits (id : Uuid) (credits : ExtraCredits)
  -- the token endpoint
  /-- The refresh request goes out. -/
  | post (id : Uuid) (previous : Credentials)
  /-- Its answer, up to `refreshed_credentials`. -/
  | refresh (id : Uuid) (account : Account) (previous : Credentials)
  /-- `Credentials::validate`, which asks `http::HeaderValue::from_str`. -/
  | validateCredentials (credentials : Credentials)

/-- The type of the reply. -/
@[reducible] def Call.Reply : Call → Type
  | .consult q => q.Reply
  | .lock _ | .unlock _ | .releaseAll => Unit
  | .enter _ | .leave _ _ => Unit
  | .account _ => Option Account
  | .accounts => List Account
  | .blockAccount _ | .updateAccount _ | .removeAccount _ | .setPaused => Unit
  | .groups => Result (List Uuid)
  | .storedAccounts => Result (List Account)
  | .putAccount .. => Result Account
  | .deleteAccount _ => Result Unit
  | .credentials _ => Result Sealed
  | .updateCredentials .. => Result Account
  | .setEnabled .. => Result Account
  | .saveModelCatalog .. => Result Account
  | .quotas _ => Result (List QuotaWindow)
  | .saveQuotas .. => Result Unit
  | .extraCredits _ => Result (Option ExtraCredits)
  | .saveExtraCredits .. => Result Unit
  | .post .. => Unit
  | .refresh .. => Result Credentials
  | .validateCredentials _ => Result Unit

/-- Calls answered elsewhere, so that the reply can be lost with the task. -/
def Call.isRemote : Call → Bool
  | .groups | .storedAccounts | .putAccount .. | .deleteAccount _ | .credentials _
  | .updateCredentials .. | .setEnabled .. | .saveModelCatalog .. | .quotas _ | .saveQuotas ..
  | .extraCredits _ | .saveExtraCredits .. | .refresh .. => true
  | _ => false

/-- Calls of a refresh before its credentials are stored. -/
def Call.isRenewal : Call → Bool
  | .post .. | .refresh .. | .validateCredentials _ => true
  | _ => false

/-- Calls the task waits for. -/
def Call.isAwait : Call → Bool
  | .consult q => q.isAwait
  | .lock _ => true
  | c => c.isRemote

/-- A part of a task. -/
abbrev Run (α : Type) : Type := Coroutine Unit Call Call.Reply Empty Error α

/-- Make a call. -/
abbrev call (c : Call) : Run c.Reply := Coroutine.ask c

/-- Make a call whose reply is free. -/
abbrev consult (q : Consult) : Run q.Reply := Coroutine.ask (Call.consult q)

/-- `admin.rs:139`. -/
structure CreateAccount where
  codexOnly : Bool
  useExtraCredits : Bool
  name : String
  groupIds : List Uuid
  credentials : Credentials
  upstreamAccountId : Option String
  maxInflight : Option UInt32
  models : List String

/-- `admin.rs:219`. -/
structure AccountUpdate where
  codexOnly : Option Bool
  useExtraCredits : Option Bool
  version : Int
  groupIds : Option (List Uuid)
  name : String
  maxInflight : UInt32
  models : List String
  modelsRestricted : Bool
  userAgent : Option String
  tlsBackend : Option String

/-- `oauth.rs:29`: what an authorization was started for. -/
structure Start where
  name : String
  accountId : Option Uuid
  groupIds : List Uuid

/-- What tasks are started for. A model request calls `credentials` and the two observing
functions, the workers and handlers the rest; a task for each call lets them come in any
order. -/
inductive Job where
  | setEnabled (id : Uuid) (enabled : Bool) (reason : Option DisableReason)
  | disableObserved (id : Uuid) (version : Int) (reason : DisableReason)
  | applyQuotaObservation (id : Uuid) (version : Int) (windows : List QuotaWindow)
      (credits : Option ExtraCredits) (allowReenable : Bool)
  | reconcileAccountQuotas (id : Uuid)
  | reenableExpiredQuotas
  | credentials (id : Uuid) (force : Bool)
  | collectQuotas (id : Uuid)
  | syncModels (id : Uuid)
  /-- What `sync_models` goes on to do after its request timed out. -/
  | recordCatalog (id : Uuid) (result : Result (List String))
  | createAccount (input : CreateAccount)
  | updateAccount (id : Uuid) (input : AccountUpdate)
  | deleteAccount (id : Uuid)
  | saveCredentials (input : Start) (credentials : Credentials)

end Xxgate.Accounts

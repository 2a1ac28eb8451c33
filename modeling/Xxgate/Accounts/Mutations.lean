import Xxgate.Accounts.Calls

/-!
# Account maintenance

The functions of `gateway.rs:964–1245`, `catalog.rs` and the account handlers of `admin.rs`
and `oauth.rs`. A task that is dropped gives its locks back, and nothing else.
-/

namespace Xxgate.Accounts

open Xxgate.Base Xxgate.Base.Coroutine Xxgate.Core Xxgate.Store

/-! ### Building blocks -/

/-- `scheduler.account(id).ok_or_else(Error::not_found)?`. -/
def found (id : Uuid) : Run Account := do
  let account ← call (.account id)
  ok (account.elim (.error .notFound) .ok)

/-- Do something holding a lock. -/
def locked {α : Type} (l : Lock) (body : Run α) : Run α := do
  call (.lock l)
  let result ← outcome body
  call (.unlock l)
  ok result

/-- Call a function that observes something, marking where the call begins and returns. -/
def observing {α : Type} (observation : Observation) (body : Run α) : Run α := do
  call (.enter observation)
  let result ← outcome body
  call (.leave observation result.isOk)
  ok result

/-- `for account in accounts { scheduler.update_account(account) }`. -/
def updateAccounts : List Account → Run Unit
  | [] => pure ()
  | account :: rest => do
    call (.updateAccount account)
    updateAccounts rest

/-- `gateway.rs:986–992` and `admin.rs:291–297`: take the accounts from the store, or pause. -/
def reload : Run Unit := do
  match ← call .storedAccounts with
  | .ok accounts => updateAccounts accounts
  | .error _ => call .setPaused

/-- `gateway.rs:981–994` and `admin.rs:277–300`: publish the account as it was written, or take
all of them back from the store. -/
def publishOrReload : Result Account → Run Account
  | .ok account => do
    call (.updateAccount account)
    return account
  | .error error => do
    reload
    fail error

/-! ### Enabling and disabling -/

/-- `gateway.rs:964`. -/
def setEnabled (id : Uuid) (enabled : Bool) (reason : Option DisableReason) (actor : String) :
    Run Account :=
  locked .mutations do
    let current ← found id
    doWhen (!enabled) (call (.blockAccount id))
    publishOrReload (← call (.setEnabled id enabled reason current.version actor))

/-- `gateway.rs:1020–1034` and `gateway.rs:1113–1127`: block the account, write the change and
publish it, or pause. -/
def setEnabledOrPause (id : Uuid) (enabled : Bool) (reason : Option DisableReason)
    (version : Int) : Run Unit := do
  call (.blockAccount id)
  match ← call (.setEnabled id enabled reason version "upstream") with
  | .ok account => call (.updateAccount account)
  | .error error =>
    call .setPaused
    fail error

/-- `gateway.rs:1008–1019`: a quota rejection also closes the extra credits. -/
def blockExtraCredits (id : Uuid) : Run Unit := do
  match ← ok (← call (.extraCredits id)) with
  | none => pure ()
  | some credits =>
    let now ← consult .now
    ok (← call (.saveExtraCredits id { credits with blocked := true, observedAt := now }))

/-- `gateway.rs:997`. -/
def disableObserved (id : Uuid) (version : Int) (reason : DisableReason) : Run Unit :=
  observing ⟨id, version, some reason⟩ <| locked .mutations do
    let current ← found id
    if !current.enabled || current.version ≠ version then
      return
    doWhen reason.isQuota (blockExtraCredits id)
    setEnabledOrPause id false (some reason) current.version

/-- `gateway.rs:1099–1105`: extra credits can be used for the account. -/
def extraAvailable (account : Account) (now : Int) : Run Bool :=
  if account.useExtraCredits then do
    match ← ok (← call (.extraCredits account.id)) with
    | none => return false
    | some credits =>
      let staleAfter ← consult .staleAfter
      return credits.available now staleAfter
  else return false

/-- `gateway.rs:1078`. The caller holds `mutations`, so a concurrent manual disable cannot be
reversed. -/
def reconcileQuotaLocked (account : Account) (allowReenable : Bool) : Run Unit := do
  let quotaDisabled := account.disableReason.any (·.isQuota)
  if !account.enabled && (!allowReenable || !quotaDisabled) then
    return
  let windows ← ok (← call (.quotas account.id))
  if windows.isEmpty then
    return
  let now ← consult .now
  let extra ← extraAvailable account now
  let reason := (windows.find? (quotaBlocked · extra now)).bind (·.disableReason)
  if reason.isNone = account.enabled then
    return
  setEnabledOrPause account.id reason.isNone reason account.version

/-- `gateway.rs:1046`. -/
def applyQuotaObservation (id : Uuid) (version : Int) (windows : List QuotaWindow)
    (credits : Option ExtraCredits) (allowReenable : Bool) : Run Unit :=
  if windows.isEmpty && credits.isNone then pure ()
  else observing ⟨id, version, none⟩ <| locked .mutations do
    let account ← found id
    -- Late responses must not undo an administrator's policy change.
    if account.version ≠ version then
      return
    ok (← call (.saveQuotas id windows))
    match credits with
    | none => pure ()
    | some credits => ok (← call (.saveExtraCredits id credits))
    reconcileQuotaLocked account (allowReenable && account.useExtraCredits)

/-- `gateway.rs:1071`. -/
def reconcileAccountQuotas (id : Uuid) : Run Unit :=
  locked .mutations do
    let account ← found id
    reconcileQuotaLocked account true

/-- `gateway.rs:1132`. -/
def reenableExpired : List Account → Run Unit
  | [] => pure ()
  | account :: rest => do
    doWhen (!(account.enabled && !account.useExtraCredits)) (reconcileAccountQuotas account.id)
    reenableExpired rest

/-- `gateway.rs:1131`. -/
def reenableExpiredQuotas : Run Unit := do
  let accounts ← call .accounts
  reenableExpired accounts

/-! ### Credentials -/

/-- `gateway.rs:1187–1200`: store and publish refreshed credentials. -/
def storeRefreshed (id : Uuid) (account : Account) (credentials : Credentials) :
    Run Credentials := do
  ok (← call (.validateCredentials credentials))
  locked .mutations do
    let updated ← ok (← call (.updateCredentials id (encrypt id credentials)
      credentials.expiresAt account.credentialVersion))
    call (.updateAccount updated)
  return credentials

/-- `gateway.rs:1159–1173`: credentials that cannot be refreshed serve until they expire. -/
def withoutRefresh (id : Uuid) (account : Account) (credentials : Credentials) (force : Bool) :
    Run Credentials := do
  let now ← consult .now
  if credentials.expiresAt.any (· ≤ now) then
    disableObserved id account.version .oauthInvalid
    fail ⟨401, "oauth_invalid", "The upstream authorization has expired"⟩
  else if force then
    fail (.invalid "No refresh token is available")
  else
    return credentials

/-- `gateway.rs:1174–1208`: the request to the token endpoint, and what its answer leads to. -/
def refreshCredentials (id : Uuid) (account : Account) (credentials : Credentials) :
    Run Credentials := do
  ok (← consult (.refreshRequest account))
  call (.post id credentials)
  match ← call (.refresh id account credentials) with
  | .ok fresh => storeRefreshed id account fresh
  | .error error =>
    doWhen (error.code == "oauth_invalid") (disableObserved id account.version .oauthInvalid)
    fail error

/-- `gateway.rs:1140`. -/
def credentials (id : Uuid) (force : Bool) : Run Credentials :=
  locked (.refresh id) do
    let account ← found id
    let encrypted ← ok (← call (.credentials id))
    let credentials ← ok (decrypt id encrypted)
    let now ← consult .now
    if !force && !credentials.expiresAt.any (· ≤ now + 120000) then
      return credentials
    if credentials.refreshToken.isEmpty then
      withoutRefresh id account credentials force
    else
      refreshCredentials id account credentials

/-- `gateway.rs:1218–1224` and `catalog.rs:32–39`: the outcome of a control request, with the
disabling that a rejection can ask for. -/
def controlExchange (id : Uuid) (account : Account) : Run Unit := do
  let status ← ok (← consult .exchange)
  if 200 ≤ status && status < 300 then
    return
  let (error, reason) ← consult (.httpError status)
  match reason with
  | none => pure ()
  | some reason => disableObserved id account.version reason
  fail error

/-- `gateway.rs:1211`. The whole request is under a deadline, and one that runs out drops the
task at an await. -/
def collectQuotas (id : Uuid) : Run Unit := do
  let _ ← credentials id false
  let account ← found id
  ok (← consult (.quotaRequest account))
  controlExchange id account
  let windows ← ok (← consult .quotaResponse)
  let credits ← ok (← consult .extraCreditsResponse)
  applyQuotaObservation id account.version windows (some credits) true

/-! ### The model catalogue -/

/-- `catalog.rs:23–52`. A request that times out drops the task here; `recordCatalog` is what
`sync_models` does then. -/
def discoverModels (id : Uuid) : Run (List String) := do
  let _ ← credentials id false
  let account ← found id
  ok (← consult (.modelsRequest account))
  controlExchange id account
  ok (← consult .modelsResponse)

/-- `catalog.rs:91–93`: store the catalogue and publish the account with it. -/
def saveCatalog (id : Uuid) (catalog : AccountModelCatalog) : Run Unit := do
  let updated ← ok (← call (.saveModelCatalog id catalog))
  call (.updateAccount updated)
  ok (← consult .appendEvent)

/-- `catalog.rs:53–90`. -/
def recordModels (id : Uuid) (result : Result (List String)) : Run Unit :=
  locked .mutations do
    let account ← found id
    let attempted ← consult .now
    let catalog := { account.modelCatalog.getD .empty with attemptedAt := some attempted }
    let catalog ← match result with
      | .ok models => do
        ok (← consult (.configureModels models))
        let synced ← consult .now
        pure { catalog with models := models, syncedAt := some synced, error := none }
      | .error error => pure { catalog with error := some error }
    saveCatalog id catalog

/-- `catalog.rs:15`. -/
def syncModels (id : Uuid) : Run Unit :=
  locked (.modelSync id) do
    let result ← outcome (discoverModels id)
    recordModels id result
    let _ ← ok result

/-- The end of `sync_models` with what its request came to. -/
def recordCatalog (id : Uuid) (result : Result (List String)) : Run Unit :=
  locked (.modelSync id) (recordModels id result)

/-! ### The account handlers -/

/-- `groups.rs:13` of the server. -/
def validateSelection (ids : List Uuid) : Run Unit := do
  let groups ← ok (← call .groups)
  if 64 < ids.length || !decide ids.Nodup then
    fail (.invalid "Choose at most 64 distinct account groups")
  else if ids.any (· ∉ groups) then
    fail ⟨400, "group_not_found", "One or more selected groups do not exist"⟩
  else pure ()

/-- `ClientProfile::default`, with the text that depends on the system left out. -/
def defaultProfile : ClientProfile := ⟨"codex_cli_rs/0.153.4", "native"⟩

/-- `admin.rs:194–206` and `oauth.rs:215–226`: no other account stands for the upstream one. -/
def checkUnmanaged (upstreamAccountId : String) (message : String) : Run Unit := do
  let accounts ← call .accounts
  if accounts.any (·.upstreamAccountId = upstreamAccountId) then
    fail ⟨409, "account_already_exists", message⟩
  else pure ()

/-- `admin.rs:207–213` and `oauth.rs:250–260`: store a new account and publish it. -/
def storeNew (account : Account) (credentials : Credentials) : Run Unit := do
  let account ← ok (← call
    (.putAccount account (some (encrypt account.id credentials)) none))
  call (.updateAccount account)

/-- `admin.rs:164–189` and `oauth.rs:227–249`: a new account is disabled until an administrator
enables it. -/
def newAccount (id : Uuid) (groupIds : List Uuid) (name upstreamAccountId : String)
    (maxInflight : UInt32) (credentials : Credentials) : Account where
  id := id
  groupIds := groupIds
  name := name
  provider := "openai"
  accessKind := "codex_oauth"
  enabled := false
  codexOnly := false
  useExtraCredits := false
  disableReason := some .adminDisabled
  maxInflight := maxInflight
  upstreamAccountId := upstreamAccountId
  models := []
  modelsRestricted := false
  modelCatalog := none
  profile := defaultProfile
  version := 0
  credentialVersion := 0
  credentialExpiresAt := credentials.expiresAt

/-- `admin.rs:158–189`: the account a request to create one asks for. -/
def requestedAccount (input : CreateAccount) : Run Account := do
  ok (← call (.validateCredentials input.credentials))
  let upstreamId ← match input.upstreamAccountId with
    | some id => pure id
    | none => do ok (← consult (.accountDetails input.credentials))
  let id ← consult .newId
  let concurrency ← consult .defaultConcurrency
  return { newAccount id input.groupIds input.name upstreamId
      (input.maxInflight.getD concurrency) input.credentials with
    codexOnly := input.codexOnly
    useExtraCredits := input.useExtraCredits
    models := input.models }

/-- `admin.rs:154`. The models are synchronized by a task of their own. -/
def createAccount (input : CreateAccount) : Run Unit := do
  let account ← requestedAccount input
  ok (← consult (.validate account))
  locked .mutations do
    validateSelection account.groupIds
    checkUnmanaged account.upstreamAccountId "This ChatGPT account is already managed"
    storeNew account input.credentials

/-- `admin.rs:245–268`: the account as the administrator wants it. -/
def edited (a : Account) (input : AccountUpdate) : Account :=
  { a with
    codexOnly := input.codexOnly.getD a.codexOnly
    useExtraCredits := input.useExtraCredits.getD a.useExtraCredits
    name := input.name
    maxInflight := input.maxInflight
    models := input.models
    modelsRestricted := input.modelsRestricted
    groupIds := input.groupIds.getD a.groupIds
    profile := ⟨input.userAgent.getD a.profile.userAgent,
      input.tlsBackend.getD a.profile.tlsBackend⟩ }

/-- `admin.rs:237–301`: the change under the lock, and whether it changed the credit policy. -/
def updateLocked (id : Uuid) (input : AccountUpdate) : Run Bool := do
  let a ← found id
  if a.version ≠ input.version then
    fail .conflict
  else
    match input.groupIds with
    | none => pure ()
    | some groupIds => validateSelection groupIds
    ok (← consult (.validate (edited a input)))
    call (.blockAccount id)
    let _ ← publishOrReload (← call (.putAccount (edited a input) none (some input.version)))
    return input.useExtraCredits.any (· != a.useExtraCredits)

/-- `admin.rs:232`. -/
def updateAccount (id : Uuid) (input : AccountUpdate) : Run Unit := do
  let creditPolicyChanged ← locked .mutations (updateLocked id input)
  doWhen creditPolicyChanged (reconcileAccountQuotas id)
  let _ ← found id

/-- `admin.rs:62`. -/
def deleteAccount (id : Uuid) : Run Unit :=
  locked .mutations do
    let previous ← found id
    call (.blockAccount id)
    match ← call (.deleteAccount id) with
    | .ok () => call (.removeAccount id)
    | .error error =>
      call (.updateAccount previous)
      fail error

/-- `oauth.rs:194–213`: an account is authorized again. -/
def storeAuthorization (id : Uuid) (upstreamId : String) (credentials : Credentials) :
    Run Unit := do
  let account ← found id
  if account.upstreamAccountId ≠ upstreamId then
    fail (.invalid "Authorization belongs to a different ChatGPT account")
  else
    let updated ← ok (← call (.updateCredentials id (encrypt id credentials)
      credentials.expiresAt account.credentialVersion))
    call (.updateAccount updated)

/-- `oauth.rs:214–258`: an account is created from its first authorization. -/
def storeAuthorized (input : Start) (upstreamId : String) (credentials : Credentials) :
    Run Unit := do
  checkUnmanaged upstreamId
    "This ChatGPT account is already managed; authorize it from its account settings"
  let id ← consult .newId
  let concurrency ← consult .defaultConcurrency
  let account := newAccount id input.groupIds input.name upstreamId concurrency credentials
  ok (← consult (.validate account))
  storeNew account credentials

/-- `oauth.rs:186`. The models are synchronized by a task of their own. -/
def saveCredentials (input : Start) (credentials : Credentials) : Run Unit := do
  ok (← call (.validateCredentials credentials))
  let upstreamId ← ok (← consult (.accountDetails credentials))
  locked .mutations do
    match input.accountId with
    | some id => storeAuthorization id upstreamId credentials
    | none => storeAuthorized input upstreamId credentials

/-! ### Tasks -/

/-- What a task runs. -/
def body : Job → Run Unit
  | .setEnabled id enabled reason => do let _ ← setEnabled id enabled reason "admin"
  | .createAccount input => createAccount input
  | .disableObserved id version reason => disableObserved id version reason
  | .applyQuotaObservation id version windows credits allowReenable =>
    applyQuotaObservation id version windows credits allowReenable
  | .reconcileAccountQuotas id => reconcileAccountQuotas id
  | .reenableExpiredQuotas => reenableExpiredQuotas
  | .credentials id force => do let _ ← credentials id force
  | .collectQuotas id => collectQuotas id
  | .syncModels id => syncModels id
  | .recordCatalog id result => recordCatalog id result
  | .updateAccount id input => updateAccount id input
  | .deleteAccount id => deleteAccount id
  | .saveCredentials input credentials => saveCredentials input credentials

/-- A task is one body, and gives its locks back when it ends or is dropped. -/
def scheme : Scheme Unit Call Call.Reply Empty Error Unit where
  block := nofun
  close := fun _ ↦ Coroutine.ask Call.releaseAll
  isAwait := Call.isAwait
  isRemote := Call.isRemote

end Xxgate.Accounts

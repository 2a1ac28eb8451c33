import Xxgate.Gateway.Calls

/-!
# The life of a request

`crates/xxgate-core/src/application/gateway.rs:140–962`: `Gateway::start`, which admits a
request, and the task it spawns, with `execute` as its body and what follows the `select!`
as its epilogue. A loop of the source is a block that jumps to itself; `?` is `ok`. Memory
leases, latencies other than the total, and the identity map's contents are left out.
-/

namespace Xxgate.Gateway

open Xxgate.Base Xxgate.Core Xxgate.Scheduling
open Coroutine

variable {L : Type}

/-! ### Parts -/

/-- Change the record. -/
def modifyRecord (f : RequestRecord → RequestRecord) : Run L Unit :=
  update fun e ↦ { e with record := f e.record }

/-- The session the safety guard knows a request by. -/
def safetySession (r : RequestRecord) : SessionKey := ⟨r.keyId, r.clientSessionId⟩

/-- `gateway.rs:299`. -/
def checkSessionSafety : Run L Unit := do
  let e ← read
  if e.record.stateless then pure ()
  else ok (← call (.safetyCheck (safetySession e.record)))

/-- `gateway.rs:309`. -/
def observeSafetyRejection (error : Error) : Run L Unit := do
  let e ← read
  if error.code == "upstream_content_policy_violation" && !e.record.stateless &&
      e.safetyRejection.isNone then
    call (.safetyRemember (safetySession e.record) error)
    update fun e ↦ { e with safetyRejection := some error }
  else pure ()

/-- `gateway.rs:433–452` and `770–788`: the model as configured now, when the request may
still go to it. -/
def currentModel (job : Job) (moment : String) : Run L ModelSpec := do
  let models ← ok (← consult .models)
  let model ← ok ((models.find? fun m ↦ m.id == job.model.id && m.enabled).elim
    (.error ⟨400, "model_disabled", "The model was disabled before " ++ moment⟩) .ok)
  if model.upstream ≠ job.model.upstream then
    fail ⟨409, "model_route_changed", "The model route changed before " ++ moment⟩
  else
    ok (← consult (.validate model))
    pure model

/-- `gateway.rs:907`. -/
def outcomeState : Option Error → RequestState
  | none => .completed
  | some error => if error.code = "client_cancelled" then .cancelled else .failed

/-- `gateway.rs:938`: the usage and valuation written with a finished record. -/
def valued (price : Option Price) (r : RequestRecord) : RequestRecord :=
  if r.upstreamAttempts = 0 then
    { r with
      usage := { complete := true, source := "not_executed" }
      valuation := some ⟨.notExecuted, none, some 0, []⟩ }
  else if r.kind = .search then
    { r with valuation := some (valueSearch r.usage.searchCalls r.searchPrice) }
  else
    { r with valuation := some (valueUsage r.usage r.requestedTier price) }

/-- `gateway.rs:904–960`: the record as `finalize` writes it. -/
def finished (job : Job) (now : Nat) (error : Option Error) (e : Execution) : RequestRecord :=
  valued e.price { e.record with
    finishedAt := some now
    totalMs := some ((now - job.since) / 1000)
    state := outcomeState error
    errorCode := error.map (·.code)
    errorMessage := error.map (·.message) }

/-- `gateway.rs:898`. -/
def finalize (job : Job) (error : Option Error) : Run L Unit := do
  let now ← consult .now
  update fun e ↦ { e with record := finished job now error e }
  let e ← read
  ok (← call (.finishRequest e.record))
  update fun e ↦ { e with finalized := true }

/-! ### Waiting and reserving -/

/-- `gateway.rs:333`: the ticket of the request, taken or drawn again. -/
def takeTicket (job : Job) : Run L Unit := do
  let e ← read
  if e.ticket then update fun e ↦ { e with ticket := false }
  else
    let groupId ← ok (e.record.groupId.elim (.error .storage) .ok)
    ok (← call (.enqueue ⟨⟨e.record.keyId, job.request.identity.sessionId⟩,
      job.request.identity.threadId⟩ groupId job.model.upstream job.request.source job.since))

/-- `gateway.rs:386–405`. Never issue a new generation after an ambiguous commit
acknowledgement: a commit that failed stands only when the store shows its binding last. -/
def commitBinding (lease : DispatchLease) : Run L Unit := do
  match ← call (.commitBinding lease.binding lease.expectedGeneration) with
  | .ok () => call .confirmBinding
  | .error error =>
    match ← call (.sessionBindings lease.binding.session) with
    | .ok bindings =>
      if bindings.getLast?.any (·.id == lease.binding.id) then call .confirmBinding
      else
        call .setPaused
        fail error
    | .error _ =>
      call .setPaused
      fail error

/-- The lease once it needs no commit. -/
def settled (lease : DispatchLease) : DispatchLease := { lease with needsCommit := false }

/-- `gateway.rs:383`. -/
def confirm (job : Job) (lease : DispatchLease) : Run L DispatchLease :=
  if job.request.stateless then do
    ok (← call .confirmStateless)
    pure (settled lease)
  else if lease.needsCommit then do
    commitBinding lease
    pure (settled lease)
  else pure lease

/-- `gateway.rs:415–421`: read the mappings of the session's other bindings. -/
def importAliases (lease : DispatchLease) : List Binding → Run L Unit
  | [] => pure ()
  | previous :: rest => do
    doWhen (previous.id != lease.binding.id) do
      ok (← consult (.mappings previous.id))
    importAliases lease rest

/-- `gateway.rs:406–423`. -/
def loadIdentities (job : Job) (lease : DispatchLease) : Run L Unit := do
  doWhen (!job.request.stateless) do
    ok (← consult (.mappings lease.binding.id))
  doWhen (!job.request.stateless && decide (1 < lease.binding.generation)) do
    let bindings ← ok (← call (.sessionBindings lease.binding.session))
    importAliases lease bindings

/-- `gateway.rs:465`. -/
def choosePrice (job : Job) : Run L Unit :=
  if job.request.kind = .search then do
    let price ← ok (← consult .searchPrice)
    modifyRecord fun r ↦ { r with searchPrice := some price }
  else do
    let prices ← ok (← consult .prices)
    update fun e ↦ { e with price := prices.find? (·.model = job.model.upstream) }

/-- The account and binding of the lease, as the record shows them. -/
def recordLease (job : Job) (lease : DispatchLease) (r : RequestRecord) : RequestRecord :=
  { r with
    accountId := some lease.account.id
    bindingId := if job.request.stateless then none else some lease.binding.id
    bindingGeneration := if job.request.stateless then none else some lease.binding.generation }

/-- `gateway.rs:487–501`: the request has its permit. -/
def dispatched (job : Job) (lease : DispatchLease) (prepared : PreparedRequest)
    (rewritten : Bool) : Run Label Unit := do
  modifyRecord fun r ↦
    { recordLease job lease r with state := .inflight, upstreamAttempts := 1 }
  let e ← read
  ok (← call (.updateRequest e.record))
  doWhen rewritten do
    ok (← call (.appendEvent "request_rewritten"))
  ok (← call (.appendEvent "dispatched"))
  jump (.attempt lease prepared 0)

/-- `drop(lease); continue`. -/
def giveUp : Run Label Unit := do
  call .dropLease
  jump .reserve

/-- `gateway.rs:465–486`: price the request and take its permit. -/
def takePermit (job : Job) (lease : DispatchLease) (prepared : PreparedRequest)
    (rewritten : Bool) : Run Label Unit := do
  choosePrice job
  match ← call .beginSend with
  | .ok () => dispatched job lease prepared rewritten
  | .error error => if error.code = "reservation_invalidated" then giveUp else fail error

/-- `gateway.rs:433–464`: prepare the request for the lease's account. -/
def prepareFor (job : Job) (lease : DispatchLease) (account : Account) : Run Label Unit := do
  let model ← currentModel job "dispatch"
  modifyRecord (recordLease job lease)
  let (prepared, rewritten) ← ok (← consult (.prepare model account))
  doWhen (!job.request.stateless) do
    ok (← consult (.saveMappings lease.binding.id))
  takePermit job lease prepared rewritten

/-- `gateway.rs:424–486`. -/
def prepareRequest (job : Job) (lease : DispatchLease) : Run Label Unit := do
  ok (← consult (.credentials lease.account.id))
  let account ← ok ((← call (.account lease.account.id)).elim (.error .notFound) .ok)
  if !account.enabled then giveUp else prepareFor job lease account

/-- `gateway.rs:382–423`. -/
def reserved (job : Job) (lease : DispatchLease) : Run Label Unit := do
  checkSessionSafety
  let lease ← confirm job lease
  loadIdentities job lease
  prepareRequest job lease

/-- `gateway.rs:353–369`: one turn of the wait for an account. -/
def waitForAccount (job : Job) : Run Label Unit := do
  match ← call .wait with
  | .lease lease => reserved job lease
  | .failed error => fail error
  | .heartbeat =>
    doWhen job.request.stream do
      ok (← consult (.deliver .heartbeat))
    jump .wait

/-! ### Attempts -/

/-- `gateway.rs:749`. -/
def beginRecovery (job : Job) : Run L Unit := do
  ok (← call (.appendEvent "encrypted_reasoning_recovery"))
  let _ ← currentModel job "recovery"
  ok (← call .beginEncryptedReasoningRecovery)
  modifyRecord fun r ↦
    { r with upstreamAttempts := 2, upstreamStatus := none, responseModel := none, usage := {} }
  let e ← read
  ok (← call (.updateRequest e.record))

/-- `gateway.rs:596`: fail, once the account is disabled where the error asks for it. -/
def failWith (lease : DispatchLease) (disable : Bool) (error : Error) : Run Label Unit := do
  doWhen disable do
    ok (← consult (.disableObserved lease.account.id))
  fail error

/-- `gateway.rs:579–600`: the error the response stands for. -/
def rejected (job : Job) (lease : DispatchLease) (status : Nat) (body : Option Json) :
    Run Label Unit := do
  let (error, disable) ← consult (.httpError status body)
  observeSafetyRejection error
  doWhen (job.request.kind == .search) do
    ok (← consult .resize)
    modifyRecord fun r ↦
      { r with usage := { r.usage with source := "search_http_error", complete := true } }
  failWith lease disable error

/-- What a first attempt that was answered with an error can be repeated with. -/
def httpRecovery (job : Job) (prepared : PreparedRequest) (attempts status : Nat)
    (body : Option Json) : Result (Option (PreparedRequest × EncryptedContentRecovery)) :=
  if attempts = 1 then Codex.prepare job.request.kind prepared status body else .ok none

/-- `gateway.rs:554–601`. -/
def errorResponse (job : Job) (lease : DispatchLease) (prepared : PreparedRequest)
    (sentAttempts status : Nat) : Run Label Unit := do
  let body ← ok (← consult .errorBody)
  let e ← read
  match ← ok (httpRecovery job prepared e.record.upstreamAttempts status body) with
  | some (repaired, _) =>
    beginRecovery job
    jump (.attempt lease repaired sentAttempts)
  | none => rejected job lease status body

/-- `gateway.rs:513–612`: send the request and look at the answer's status. -/
def sendAttempt (job : Job) (lease : DispatchLease) (prepared : PreparedRequest)
    (sentAttempts : Nat) : Run Label Unit := do
  call (.sendOnce prepared)
  let status ← ok (← consult .headers)
  modifyRecord fun r ↦ { r with upstreamStatus := some status }
  ok (← call (.appendEvent "upstream_attempt_headers"))
  ok (← consult (.applyQuotaObservation lease.account.id))
  if ¬(200 ≤ status ∧ status < 300) then
    errorResponse job lease prepared sentAttempts status
  else if job.request.kind.isUnary then jump (.unary 0)
  else
    let e ← read
    jump (.stream
      { lease := lease
        prepared := prepared
        sentAttempts := sentAttempts
        buffering := e.record.upstreamAttempts == 1 && Codex.hasRecoverableInput prepared
        preamble := []
        preambleBytes := 0 })

/-- `gateway.rs:502–512`: what is checked before each send. -/
def attempt (job : Job) (lease : DispatchLease) (prepared : PreparedRequest)
    (sentAttempts : Nat) : Run Label Unit := do
  if ← consult .isCancelled then fail .cancelled
  else
    match ← outcome checkSessionSafety with
    | .error error =>
      modifyRecord fun r ↦ { r with upstreamAttempts := sentAttempts }
      fail error
    | .ok () => sendAttempt job lease prepared (sentAttempts + 1)

/-! ### Responses of one body -/

/-- The name of the response in an error's code. -/
def unaryName (kind : RequestKind) : String :=
  if kind.isImage then "image" else if kind = .compact then "compact" else "search"

/-- `gateway.rs:853–871`. -/
def finishUnary (job : Job) : Run L Unit := do
  let (usage, responseModel) ← ok (← consult (.unaryResponse job.request.kind))
  modifyRecord fun r ↦
    { r with
      usage := usage.getD r.usage
      responseModel := if r.kind = .compact then responseModel else r.responseModel }
  finalize job none
  ok (← consult .resize)
  update fun e ↦ { e with terminalDelivered := true }

/-- `gateway.rs:816–852`: one turn of `receive_unary`. -/
def receiveUnary (job : Job) (size : Nat) : Run Label Unit := do
  match ← consult .nextChunk with
  | .idle =>
    fail ⟨504, unaryName job.request.kind ++ "_timeout", "Upstream JSON response timed out"⟩
  | .heartbeat => jump (.unary size)
  | .failed error => fail error
  | .ended => finishUnary job
  | .bytes n =>
    let limit ← consult .eventLimit
    if limit < size + n then
      fail ⟨502, unaryName job.request.kind ++ "_response_too_large",
        "Upstream JSON response exceeds the configured limit"⟩
    else
      ok (← consult .resize)
      jump (.unary (size + n))

/-! ### Streams -/

/-- `gateway.rs:648–652`: latch safety decisions before any await or delivery. -/
def observeEvents : List GatewayEvent → Run L Unit
  | [] => pure ()
  | event :: rest => do
    match event.error with
    | some error =>
      observeSafetyRejection error
      observeEvents rest
    | none => observeEvents rest

/-- A panic ends the execution. -/
def unwind : Run L Unit := update fun e ↦ { e with panicked := true }

/-- `gateway.rs:648–662`: what follows the decoding of a chunk. -/
def decoded (job : Job) (st : StreamState) (events : List GatewayEvent) : Run Label Unit := do
  observeEvents events
  doWhen (!job.request.stateless) do
    ok (← consult (.saveMappings st.lease.binding.id))
  jump (.events st events)

/-- `gateway.rs:622–662`: one turn of the stream loop. -/
def receiveStream (job : Job) (st : StreamState) : Run Label Unit := do
  match ← consult .nextChunk with
  | .idle => fail ⟨504, "upstream_idle_timeout", "Upstream SSE idle timeout"⟩
  | .heartbeat =>
    doWhen (st.buffering && job.request.stream) do
      ok (← consult (.deliver .heartbeat))
    jump (.stream st)
  | .ended =>
    ok (← consult .finishDecoder)
    fail ⟨502, "stream_interrupted", "Upstream closed before a terminal event"⟩
  | .failed error => fail error
  | .bytes _ =>
    ok (← consult .resize)
    match ← consult .decode with
    | .error .panic => unwind
    | .error (.error error) => fail error
    | .ok events => decoded job st events

/-- Send documents one after the other. -/
def deliverAll : List Json → Run L Unit
  | [] => pure ()
  | document :: rest => do
    ok (← consult (.deliver (.document document)))
    deliverAll rest

/-- `gateway.rs:673–693`: hold the event back, or stop holding. -/
def hold (job : Job) (st : StreamState) (event : GatewayEvent) : Run L StreamState :=
  if st.buffering then do
    let size ← ok (← consult (.encode event.document))
    if Codex.recoveryPreamble event.received && decide (st.preamble.length < 16) &&
        decide (st.preambleBytes + size ≤ 65536) then
      ok (← consult .resize)
      pure { st with
        preamble := st.preamble ++ [event.document]
        preambleBytes := st.preambleBytes + size }
    else
      doWhen job.request.stream (deliverAll st.preamble)
      ok (← consult .resize)
      pure { st with buffering := false, preamble := [] }
  else pure st

/-- What the first attempt can be repeated with after a rejection in its stream. -/
def streamRecovery (st : StreamState) (event : GatewayEvent) :
    Result (Option (PreparedRequest × EncryptedContentRecovery)) :=
  match (Codex.encryptedRejection event.received).filter fun _ ↦ st.buffering with
  | none => .ok none
  | some error => Codex.clean st.prepared error

/-- Send a document to a streaming client. -/
def deliverDocument (document : Json) : Run L Unit := do
  let _ ← ok (← consult (.encode document))
  ok (← consult (.deliver (.document document)))

/-- `gateway.rs:722–739`. -/
def finishStream (job : Job) (event : GatewayEvent) : Run L Unit := do
  finalize job event.error
  doWhen job.request.stream (deliverDocument event.document)
  update fun e ↦ { e with terminalDelivered := true }
  match event.error with
  | some error => fail error
  | none => pure ()

/-- `gateway.rs:709–721`: what an event says about the account. -/
def observeAccount (lease : DispatchLease) (event : GatewayEvent) : Run L Unit := do
  ok (← consult (.applyQuotaObservation lease.account.id))
  doWhen event.disables do
    ok (← consult (.disableObserved lease.account.id))

/-- `gateway.rs:722–746`: the last event ends the request, any other is passed on. -/
def passOn (job : Job) (st : StreamState) (event : GatewayEvent) (rest : List GatewayEvent) :
    Run Label Unit :=
  if Codex.isTerminal event.received then finishStream job event
  else do
    doWhen (job.request.stream && !st.buffering) (deliverDocument event.document)
    jump (.events st rest)

/-- `gateway.rs:673–746`: take an event that no recovery follows. -/
def observeEvent (job : Job) (st : StreamState) (event : GatewayEvent)
    (rest : List GatewayEvent) : Run Label Unit := do
  let st ← hold job st event
  modifyRecord fun r ↦
    { r with
      responseModel := event.responseModel.or r.responseModel
      usage := event.usage.getD r.usage }
  observeAccount st.lease event
  passOn job st event rest

/-- `gateway.rs:663–748`: one turn of the loop over the decoded events. -/
def takeEvents (job : Job) (st : StreamState) : List GatewayEvent → Run Label Unit
  | [] => do
    ok (← consult .resize)
    jump (.stream st)
  | event :: rest => do
    match ← ok (streamRecovery st event) with
    | some (repaired, _) =>
      beginRecovery job
      jump (.attempt st.lease repaired st.sentAttempts)
    | none => observeEvent job st event rest

/-! ### The task -/

/-- The blocks of the body, each under its label. -/
def block (job : Job) : Label → Run Label Unit
  | .select => do
    consult .polled
    jump .reserve
  | .reserve => do
    takeTicket job
    jump .wait
  | .wait => waitForAccount job
  | .attempt lease prepared sentAttempts => attempt job lease prepared sentAttempts
  | .unary size => receiveUnary job size
  | .stream st => receiveStream job st
  | .events st events => takeEvents job st events

/-- A part of the epilogue, which nothing cuts short. -/
abbrev Epilogue : Type := Coroutine Execution Call Call.Reply Empty Empty Unit

/-- `gateway.rs:258`. -/
def saveSafety (job : Job) : Epilogue := do
  let e ← read
  match e.safetyRejection.filter fun _ ↦ !job.request.stateless with
  | none => pure ()
  | some rejection =>
    match ← call (.saveSafetyRejection (threadOf job.key job.request).session rejection) with
    | .ok () => pure ()
    | .error _ => call .setPaused

/-- `gateway.rs:266–273`. -/
def settleRecord (job : Job) (error : Option Error) : Epilogue := do
  let e ← read
  if !e.finalized then
    match ← outcome (finalize job error) with
    | .ok () => pure ()
    | .error _ => call .setPaused
  else
    doWhen (error.isSome && !e.terminalDelivered) do
      let _ ← call (.appendEvent "delivery_interrupted")

/-- `gateway.rs:274`. -/
def summarize (error : Option Error) : Epilogue := do
  let e ← read
  doWhen (error.isNone && e.finalized && e.record.summaryOnly) do
    let _ ← call (.summarizeRequest e.record)

/-- `gateway.rs:283`. -/
def announce (job : Job) (error : Option Error) : Epilogue := do
  let e ← read
  match error.filter fun _ ↦ job.request.stream && !e.terminalDelivered with
  | none => pure ()
  | some error => do
    let _ ← consult (.deliver (.failure error))

/-- The error a body ended with. -/
def errorOf : Except Error Unit → Option Error
  | .ok () => none
  | .error error => some error

/-- `gateway.rs:255–290`: what follows the `select!`. -/
def conclude (job : Job) (error : Option Error) : Epilogue := do
  saveSafety job
  settleRecord job error
  summarize error
  announce job error

/-- The end of the task. The body is dropped with the lease it holds and the ticket it took; a
ticket it did not take goes with the execution. Nothing catches a panic of the body, so after
one there are only the drops. -/
def close (job : Job) (result : Except Error Unit) : Epilogue := do
  call .dropLease
  let e ← read
  doWhen (!e.ticket) (call .dropTicket)
  doWhen (!e.panicked) (conclude job (errorOf result))
  call .dropTicket

/-- The task `start` spawns. -/
def scheme (job : Job) : Scheme Execution Call Call.Reply Label Error Unit where
  block := block job
  close := close job
  isAwait := Call.isAwait
  isRemote := Call.isRemote

/-! ### Admission -/

/-- A part of `start`, before there is an execution. -/
abbrev Admission (α : Type) : Type := Coroutine Unit Call Call.Reply Empty Error α

/-- `gateway.rs:161–171`. -/
def admitSession (session : SessionKey) : Admission Unit := do
  ok (← call (.safetyCheck session))
  let stored ← ok (← call (.safetyRejection session))
  match stored with
  | none => ok (← call (.safetyCheck session))
  | some (count, error) =>
    call (.safetyRestore session count error)
    ok (← call (.safetyCheck session))

/-- `gateway.rs:186–240`. -/
def newRecord (id : Uuid) (key : GatewayKey) (request : GatewayRequest) (model : ModelSpec)
    (level : LogLevel) (now : Nat) : RequestRecord where
  requestLogLevel := some level
  stateless := request.stateless
  kind := request.kind
  searchPrice := none
  id := id
  keyId := key.id
  groupId := some key.groupId
  clientSessionId := if request.stateless then "" else request.identity.sessionId
  clientThreadId := if request.stateless then "" else request.identity.threadId
  model := request.model
  provider := model.upstream.provider
  upstreamModel := some model.upstream.model
  responseModel := none
  requestedTier := request.requestedTier
  accountId := none
  bindingId := none
  bindingGeneration := none
  state := .queued
  createdAt := now
  finishedAt := none
  totalMs := none
  upstreamStatus := none
  errorCode := none
  errorMessage := none
  usage := {}
  valuation := none
  upstreamAttempts := 0

/-- `gateway.rs:249`. -/
def Execution.new (record : RequestRecord) : Execution :=
  ⟨true, record, none, false, false, none, false⟩

/-- `gateway.rs:140–246`: admit a request, up to the spawn of its task. -/
def start (id : Uuid) (key : GatewayKey) (request : GatewayRequest) :
    Admission (Job × Execution) := do
  let models ← ok (← consult .models)
  let model ← ok ((models.find? fun m ↦ m.id == request.model && m.enabled).elim
    (.error ⟨400, "model_not_configured",
      "The requested model is not enabled in the gateway"⟩) .ok)
  ok (← consult (.validate model))
  doWhen (!request.stateless) (admitSession (threadOf key request).session)
  let since ← consult .now
  ok (← call (.enqueue (threadOf key request) key.groupId model.upstream request.source since))
  let level ← consult .logLevel
  let now ← consult .now
  let record := newRecord id key request model level now
  ok (← call (.beginRequest record))
  pure (⟨id, key, request, model, since⟩, .new record)

/-- A handler that fails or is dropped takes its ticket with it; one that succeeds hands it
to the task. -/
def closeStart : Except Error (Job × Execution) → Coroutine Unit Call Call.Reply Empty Empty Unit
  | .ok _ => pure ()
  | .error _ => call .dropTicket

/-- The handler's part of a request. -/
def startScheme : Scheme Unit Call Call.Reply Empty Error (Job × Execution) where
  block := fun l ↦ l.elim
  close := closeStart
  isAwait := Call.isAwait
  isRemote := Call.isRemote

end Xxgate.Gateway

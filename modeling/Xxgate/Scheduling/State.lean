import Mathlib.Data.Finset.Basic
import Mathlib.Data.List.MinMax
import Mathlib.Data.Prod.Lex
import Mathlib.Data.UInt
import Xxgate.Base.FiniteMap
import Xxgate.Core.Types

/-!
# The dispatch scheduler

`crates/xxgate-core/src/scheduling.rs:30–708`. The state behind the scheduler's mutex and
every operation on it, each one critical section. Instants are microseconds, `now` is the
clock an operation reads, and the UUIDs a reservation draws are its arguments. `wake` has
no effect on the state and is left out.
-/

namespace Xxgate.Scheduling

open Xxgate.Base Xxgate.Core

/-- `scheduling.rs:47`. -/
structure SessionActivity where
  threads : FiniteMap String Uuid
  /-- A new binding must be persisted before another thread can use it. -/
  bindingPending : Option Uuid

/-- `SessionActivity::default`. -/
def SessionActivity.empty : SessionActivity := ⟨∅, none⟩

/-- `scheduling.rs:53`. -/
structure Waiter where
  source : ClientSource
  id : Uuid
  threadId : String
  groupId : Uuid
  model : ModelRef
  since : Nat
  deriving DecidableEq

/-- `scheduling.rs:537`. -/
structure QueueTicket where
  id : Uuid
  session : SessionKey
  since : Nat
  deriving DecidableEq

/-- `scheduling.rs:581`: the right to dispatch, held until it is dropped. -/
structure DispatchLease where
  source : ClientSource
  model : ModelRef
  groupId : Uuid
  id : Uuid
  session : SessionKey
  threadId : String
  account : Account
  binding : Binding
  needsCommit : Bool
  expectedGeneration : Int
  deriving DecidableEq

/-- `scheduling.rs:30`. -/
structure State where
  deletedAccounts : Finset Uuid
  deletedKeys : Finset Uuid
  accounts : FiniteMap Uuid Account
  keys : FiniteMap Uuid GatewayKey
  blockedKeys : Finset Uuid
  blocked : Finset Uuid
  bindings : FiniteMap SessionKey Binding
  queues : FiniteMap SessionKey (List Waiter)
  order : List SessionKey
  inflight : FiniteMap Uuid UInt32
  activeSessions : FiniteMap SessionKey SessionActivity
  leases : FiniteMap Uuid UInt8
  served : FiniteMap Uuid UInt64
  paused : Bool

/-- What the selection of `try_reserve` settles on. -/
structure Selected where
  session : SessionKey
  waiter : Waiter
  position : Nat
  account : Account

/-- The account can take the request apart from any block on it: the condition the source
writes out in `check_eligibility`, twice in `try_reserve`, and in `begin_attempt`. -/
def serves (a : Account) (groupId : Uuid) (model : ModelRef) (source : ClientSource) : Bool :=
  a.enabled && a.groupIds.contains groupId && a.accepts source && a.supports model

namespace State

/-! ### Eligibility -/

/-- `scheduling.rs:143`. -/
def checkKey (s : State) (id groupId : Uuid) : Result Unit :=
  if s.paused then .error .storage
  else if id ∈ s.blockedKeys then
    .error ⟨503, "key_updating",
      "The key is being updated; retry after the change completes"⟩
  else
    match (s.keys.lookup id).filter (·.enabled) with
    | none =>
      .error ⟨401, "invalid_api_key", "The gateway key is disabled or unavailable"⟩
    | some key =>
      if key.groupId ≠ groupId then
        .error ⟨409, "key_group_changed",
          "The key's group changed before dispatch; submit a new request"⟩
      else .ok ()

/-- The account the session is bound to, when it is present. -/
def boundAccount (s : State) (session : SessionKey) : Option Account :=
  (s.bindings.lookup session).bind fun b ↦ s.accounts.lookup b.accountId

/-- `scheduling.rs:116`: the closure `eligible`, which does not look at the source. -/
def eligible (s : State) (groupId : Uuid) (model : ModelRef) (a : Account) : Bool :=
  a.enabled && !decide (a.id ∈ s.blocked) && a.groupIds.contains groupId && a.supports model

/-- `scheduling.rs:89`. -/
def checkEligibility (s : State) (session : SessionKey) (groupId : Uuid) (model : ModelRef)
    (source : ClientSource) : Result Unit := do
  s.checkKey session.keyId groupId
  if (s.bindings.lookup session).any (!·.compatible model) then
    throw ⟨409, "provider_mismatch",
      "A conversation cannot migrate across providers or access types"⟩
  else if ((s.boundAccount session).filter (serves · groupId model source)).any
      (fun a ↦ decide (a.id ∉ s.blocked)) then
    pure ()
  else if (s.accounts.values.filter (s.eligible groupId model)).any (·.accepts source) then
    pure ()
  else if s.accounts.values.any (s.eligible groupId model) then
    throw ⟨403, "client_source_not_allowed",
      "No account in this key's group allows the detected client source"⟩
  else
    throw ⟨503, "no_available_account",
      "No enabled account in this key's group can serve the requested model"⟩

/-! ### Construction and administration -/

/-- `scheduling.rs:173`. -/
def new (accounts : List Account) (bindings : List Binding) (keys : List GatewayKey) : State where
  deletedAccounts := ∅
  deletedKeys := ∅
  accounts := accounts.foldl (fun m a ↦ m.insert a.id a) ∅
  keys := keys.foldl (fun m k ↦ m.insert k.id k) ∅
  blockedKeys := ∅
  blocked := ∅
  bindings := bindings.foldl (fun m b ↦ m.insert b.session b) ∅
  queues := ∅
  order := []
  inflight := ∅
  activeSessions := ∅
  leases := ∅
  served := ∅
  paused := false

/-- `scheduling.rs:213`. -/
def updateAccount (s : State) (account : Account) : State :=
  if account.id ∈ s.deletedAccounts then s
  else { s with
    blocked := s.blocked.erase account.id
    accounts := s.accounts.insert account.id account }

/-- `scheduling.rs:223`. -/
def updateKey (s : State) (key : GatewayKey) : State :=
  if key.id ∈ s.deletedKeys then s
  else { s with
    blockedKeys := s.blockedKeys.erase key.id
    keys := s.keys.insert key.id key }

/-- `scheduling.rs:233`. The account keeps its place in `blocked`. -/
def removeAccount (s : State) (id : Uuid) : State :=
  { s with
    deletedAccounts := insert id s.deletedAccounts
    accounts := s.accounts.erase id }

/-- `scheduling.rs:240`. -/
def removeKey (s : State) (id : Uuid) : State :=
  { s with
    deletedKeys := insert id s.deletedKeys
    keys := s.keys.erase id }

/-- `scheduling.rs:247`. -/
def blockKey (s : State) (id : Uuid) : State :=
  { s with blockedKeys := insert id s.blockedKeys }

/-- `scheduling.rs:256`. -/
def blockAccount (s : State) (id : Uuid) : State :=
  { s with blocked := insert id s.blocked }

/-- `scheduling.rs:265`. -/
def setPaused (s : State) (value : Bool) : State := { s with paused := value }

/-! ### The queue -/

/-- The waiters of all queues. -/
def queued (s : State) : Nat := (s.queues.values.map List.length).sum

/-- `scheduling.rs:312–326`: put a waiter at the end of its session's queue. -/
def push (s : State) (session : SessionKey) (waiter : Waiter) : State :=
  { s with
    order := if session ∈ s.queues then s.order else s.order ++ [session]
    queues := s.queues.insert session ((s.queues.lookup session).getD [] ++ [waiter]) }

/-- `scheduling.rs:288`. -/
def enqueue (s : State) (settings : RuntimeSettings) (id : Uuid) (thread : ThreadKey)
    (groupId : Uuid) (model : ModelRef) (source : ClientSource) (since : Nat) :
    Result (State × QueueTicket) := do
  let session := thread.session
  if s.paused then throw .storage
  s.checkEligibility session groupId model source
  if settings.queueCapacity ≤ s.queued then
    throw ⟨429, "queue_full", "The queue has reached its configured capacity"⟩
  let waiter : Waiter :=
    { source, id, threadId := thread.clientThreadId, groupId, model, since }
  return (s.push session waiter, { id, session, since })

/-- `scheduling.rs:480`. -/
def removeWaiter (s : State) (id : Uuid) (session : SessionKey) : State :=
  let queues := s.queues.modify session (·.filter (·.id ≠ id))
  let emptied := (queues.lookup session).any List.isEmpty
  { s with
    queues := if emptied then queues.erase session else queues
    order := if emptied then s.order.filter (· ≠ session) else s.order }

/-! ### Reservation -/

/-- Requests in flight on an account, zero when no counter exists. -/
def load (s : State) (id : Uuid) : UInt32 := (s.inflight.lookup id).getD 0

/-- `scheduling.rs:398`: what `min_by_key` compares. -/
def rank (s : State) (a : Account) : Nat ×ₗ Nat ×ₗ Uuid :=
  toLex ((s.load a.id).toNat, toLex (((s.served.lookup a.id).getD 0).toNat, a.id))

/-- `scheduling.rs:385`: the account of a session without a usable bound account. -/
def candidates (s : State) (waiter : Waiter) : List Account :=
  s.accounts.values.filter fun a ↦
    serves a waiter.groupId waiter.model waiter.source && !decide (a.id ∈ s.blocked) &&
      decide (s.load a.id < a.maxInflight)

/-- The binding cannot be kept when the request goes to this account. -/
def migrates (previous : Option Binding) (account : Account) (groupId : Uuid) : Bool :=
  previous.all fun b ↦ b.accountId != account.id || b.groupId != groupId

/-- `scheduling.rs:371–417`: the account a waiter would run on, or none when it has to
wait: a blocked bound account, no free capacity, or leases of the old generation to drain. -/
def chooseAccount (s : State) (session : SessionKey) (waiter : Waiter) : Option Account :=
  let previous := s.bindings.lookup session
  if previous.any (fun b ↦ decide (b.accountId ∈ s.blocked)) then none
  else
    let bound := (s.boundAccount session).filter
      (serves · waiter.groupId waiter.model waiter.source)
    let account := match bound with
      | some a => if s.load a.id < a.maxInflight then some a else none
      | none => (s.candidates waiter).argmin s.rank
    account.filter fun a ↦
      !((s.activeSessions.lookup session).isSome && migrates previous a waiter.groupId)

/-- `scheduling.rs:355–370`: the earliest waiter of its thread may run now. -/
def ready (s : State) (cfg : RuntimeSettings) (now : Nat) (session : SessionKey)
    (waiter : Waiter) : Bool :=
  !((s.activeSessions.lookup session).any fun a ↦ decide (waiter.threadId ∈ a.threads)) &&
    (s.checkEligibility session waiter.groupId waiter.model waiter.source).isOk &&
    decide (now - waiter.since < cfg.queueTimeoutMs * 1000)

/-- The account for a waiter that may run now. -/
def dispatch (s : State) (cfg : RuntimeSettings) (now : Nat) (session : SessionKey)
    (waiter : Waiter) : Option Account :=
  if s.ready cfg now session waiter then s.chooseAccount session waiter else none

/-- `scheduling.rs:358`: the first dispatchable waiter that is the earliest of its thread.
Preserve FIFO within a thread without blocking other threads behind that thread's next
request. -/
def selectWaiter (s : State) (cfg : RuntimeSettings) (now : Nat) (session : SessionKey) :
    List Waiter → List String → Nat → Option (Waiter × Nat × Account)
  | [], _, _ => none
  | waiter :: rest, seenThreads, position =>
    if waiter.threadId ∈ seenThreads then
      selectWaiter s cfg now session rest seenThreads (position + 1)
    else
      match s.dispatch cfg now session waiter with
      | some account => some (waiter, position, account)
      | none =>
        selectWaiter s cfg now session rest (waiter.threadId :: seenThreads) (position + 1)

/-- `scheduling.rs:352`: the session is at its cap or has an unconfirmed new binding. -/
def saturated (s : State) (cfg : RuntimeSettings) (session : SessionKey) : Bool :=
  (s.activeSessions.lookup session).any fun a ↦
    decide (cfg.sessionMaxInflight.toNat ≤ a.threads.keys.length) || a.bindingPending.isSome

/-- `scheduling.rs:350–427`: the first session in rotation order with a dispatchable waiter. -/
def select (s : State) (cfg : RuntimeSettings) (now : Nat) : Option Selected :=
  s.order.findSome? fun session ↦
    if s.saturated cfg session then none
    else
      (s.queues.lookup session).bind fun queue ↦
        (s.selectWaiter cfg now session queue [] 0).map fun (waiter, position, account) ↦
          { session, waiter, position, account }

/-- `scheduling.rs:341`: the queued waiter of a request. -/
def findWaiter (s : State) (id : Uuid) : Option (SessionKey × Waiter) :=
  s.queues.entries.findSome? fun e ↦ (e.2.find? (·.id = id)).map fun w ↦ (e.1, w)

/-- `scheduling.rs:435–448`: the binding of a new lease and whether it must be committed. -/
def newBinding (s : State) (sel : Selected) (bindingId ns : Uuid) : Binding × Bool × Int :=
  let previous := s.bindings.lookup sel.session
  let generation := previous.elim 0 (·.generation)
  let fresh : Binding :=
    { Binding.new bindingId ns sel.session sel.account.id sel.waiter.model (generation + 1) with
      groupId := sel.waiter.groupId }
  match previous with
  | none => (fresh, true, generation)
  | some b =>
    if b.accountId ≠ sel.account.id ∨ b.groupId ≠ sel.waiter.groupId then
      (fresh, true, generation)
    else (b, false, generation)

/-- `scheduling.rs:449–464`: the maps after a reservation. -/
def grant (s : State) (sel : Selected) (id : Uuid) (needsCommit : Bool) : State :=
  let queue := ((s.queues.lookup sel.session).getD []).eraseIdx sel.position
  let active := (s.activeSessions.lookup sel.session).getD .empty
  let others := s.order.filter (· ≠ sel.session)
  { s with
    queues :=
      if queue.isEmpty then s.queues.erase sel.session else s.queues.insert sel.session queue
    order := if queue.isEmpty then others else others ++ [sel.session]
    inflight := s.inflight.insert sel.account.id (s.load sel.account.id + 1)
    activeSessions := s.activeSessions.insert sel.session
      { threads := active.threads.insert sel.waiter.threadId id
        bindingPending := if needsCommit then some id else active.bindingPending }
    leases := s.leases.insert id 0 }

/-- The lease handed out by a reservation. -/
def leaseOf (s : State) (sel : Selected) (id bindingId ns : Uuid) : DispatchLease :=
  let (binding, needsCommit, generation) := s.newBinding sel bindingId ns
  { source := sel.waiter.source
    model := sel.waiter.model
    groupId := sel.waiter.groupId
    id := id
    session := sel.session
    threadId := sel.waiter.threadId
    account := sel.account
    binding := binding
    needsCommit := needsCommit
    expectedGeneration := generation }

/-- `scheduling.rs:335`. The waiter that is selected gets the lease only when it is the
caller's own. -/
def tryReserve (s : State) (cfg : RuntimeSettings) (now : Nat) (bindingId ns id : Uuid) :
    Result (State × Option DispatchLease) := do
  if s.paused then throw .storage
  let (session, waiter) ← (s.findWaiter id).elim (.error .notFound) .ok
  s.checkEligibility session waiter.groupId waiter.model waiter.source
  if cfg.globalMaxInflight ≤ s.inflight.values.sum then return (s, none)
  match s.select cfg now with
  | none => return (s, none)
  | some sel =>
    if sel.waiter.id ≠ id then return (s, none)
    let lease := s.leaseOf sel id bindingId ns
    return (s.grant sel id lease.needsCommit, some lease)

/-! ### Leases -/

/-- Clear the pending mark of a session when it is this lease's. -/
def clearPending (s : State) (lease : DispatchLease) : State :=
  { s with activeSessions := s.activeSessions.modify lease.session fun a ↦
      if a.bindingPending = some lease.id then { a with bindingPending := none } else a }

/-- `scheduling.rs:596`. -/
def confirmStateless (s : State) (lease : DispatchLease) : Result (State × DispatchLease) :=
  if !lease.needsCommit || lease.expectedGeneration ≠ 0 then .error .storage
  else .ok (s.clearPending lease, { lease with needsCommit := false })

/-- `scheduling.rs:616`. -/
def confirmBinding (s : State) (lease : DispatchLease) : State × DispatchLease :=
  (({ s with bindings := s.bindings.insert lease.session lease.binding }).clearPending lease,
    { lease with needsCommit := false })

/-- `scheduling.rs:643`. -/
def beginAttempt (s : State) (lease : DispatchLease) (previousAttempts : UInt8) :
    Result State := do
  if s.paused then throw .storage
  s.checkKey lease.session.keyId lease.groupId
  if decide (lease.account.id ∈ s.blocked) || !((s.accounts.lookup lease.account.id).any
      (serves · lease.groupId lease.model lease.source)) then
    throw ⟨409, "reservation_invalidated",
      "The account state or group changed before dispatch"⟩
  if lease.needsCommit then throw .storage
  if s.leases.lookup lease.id ≠ some previousAttempts then
    throw ⟨500, "attempt_already_consumed",
      "The upstream attempt has already been consumed"⟩
  return { s with
    leases := s.leases.insert lease.id (previousAttempts + 1)
    served := s.served.insert lease.account.id
      ((s.served.lookup lease.account.id).getD 0 + 1) }

/-- `scheduling.rs:635`. -/
def beginSend (s : State) (lease : DispatchLease) : Result State := s.beginAttempt lease 0

/-- `scheduling.rs:640`: one additional send, only after the provider confirms a recoverable
encrypted-content rejection. -/
def beginEncryptedReasoningRecovery (s : State) (lease : DispatchLease) : Result State :=
  s.beginAttempt lease 1

/-- `u32::saturating_sub(1)`. -/
def saturatingPred (n : UInt32) : UInt32 := if n = 0 then 0 else n - 1

/-- `scheduling.rs:691–700`: the session's activity without the lease, or none once its last
thread is gone. -/
def endActivity (activity : SessionActivity) (lease : DispatchLease) : Option SessionActivity :=
  let threads := activity.threads.erase lease.threadId
  if threads.keys.isEmpty then none
  else some
    { threads := threads
      bindingPending :=
        if activity.bindingPending = some lease.id then none else activity.bindingPending }

/-- `scheduling.rs:683`: `Drop for DispatchLease`. -/
def dropLease (s : State) (lease : DispatchLease) : State :=
  if lease.id ∈ s.leases then
    { s with
      leases := s.leases.erase lease.id
      inflight := s.inflight.modify lease.account.id saturatingPred
      activeSessions :=
        match s.activeSessions.lookup lease.session with
        | none => s.activeSessions
        | some activity =>
          match endActivity activity lease with
          | none => s.activeSessions.erase lease.session
          | some rest => s.activeSessions.insert lease.session rest }
  else s

end State
end Xxgate.Scheduling

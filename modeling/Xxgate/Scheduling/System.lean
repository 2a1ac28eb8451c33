import Xxgate.Base.Run
import Xxgate.Scheduling.State

/-!
# The scheduler with its callers

`Scheduler` hands out tickets and leases that their holders drop later. `System` is the
scheduler's state together with the settings in force and every live ticket and lease, and
`step` is one operation by one holder or by an administrator. Operations by a holder who
does not exist, and a request id used twice at once, change nothing: no caller does either.
-/

namespace Xxgate.Scheduling

open Xxgate.Base Xxgate.Core

/-- A ticket in the hands of its holder, and whether its waiter was reserved already. -/
structure LiveTicket where
  ticket : QueueTicket
  granted : Bool
  deriving DecidableEq

/-- A lease in the hands of its holder, and how many attempts it was authorised for. -/
structure LiveLease extends DispatchLease where
  attempts : Nat
  deriving DecidableEq

/-- The scheduler, the settings it reads, and what its callers hold. -/
structure System where
  state : State
  settings : LiveSettings
  tickets : FiniteMap Uuid LiveTicket
  leases : FiniteMap Uuid LiveLease

/-- One operation: by the holder of a ticket or lease, named by request id, or by an
administrator. -/
inductive Op where
  | enqueue (id : Uuid) (thread : ThreadKey) (groupId : Uuid) (model : ModelRef)
      (source : ClientSource) (since : Nat)
  | tryReserve (id : Uuid) (now : Nat) (bindingId ns : Uuid)
  | confirmBinding (id : Uuid)
  | confirmStateless (id : Uuid)
  | beginSend (id : Uuid)
  | beginEncryptedReasoningRecovery (id : Uuid)
  | dropLease (id : Uuid)
  | dropTicket (id : Uuid)
  | updateAccount (account : Account)
  | removeAccount (id : Uuid)
  | blockAccount (id : Uuid)
  | updateKey (key : GatewayKey)
  | removeKey (id : Uuid)
  | blockKey (id : Uuid)
  | setPaused (value : Bool)
  | publish (settings : LiveSettings)

namespace System

/-- `scheduling.rs:173` before any request arrives. -/
def new (settings : LiveSettings) (accounts : List Account) (bindings : List Binding)
    (keys : List GatewayKey) : System where
  state := State.new accounts bindings keys
  settings := settings
  tickets := ∅
  leases := ∅

/-- Let the holder of a live lease act on it. -/
def withLease (s : System) (id : Uuid) (f : LiveLease → Option (State × LiveLease)) : System :=
  match (s.leases.lookup id).bind f with
  | none => s
  | some (state, lease) => { s with state := state, leases := s.leases.insert id lease }

/-- `confirm_binding` is called only when the lease needs a commit. -/
def confirmBinding (s : System) (lease : LiveLease) : Option (State × LiveLease) :=
  if lease.needsCommit then
    let (state, confirmed) := s.state.confirmBinding lease.toDispatchLease
    some (state, { lease with toDispatchLease := confirmed })
  else none

/-- `confirm_stateless`, without effect when it fails. -/
def confirmStateless (s : System) (lease : LiveLease) : Option (State × LiveLease) :=
  match s.state.confirmStateless lease.toDispatchLease with
  | .error _ => none
  | .ok (state, confirmed) => some (state, { lease with toDispatchLease := confirmed })

/-- `begin_attempt`, without effect when it fails. -/
def beginAttempt (s : System) (previousAttempts : UInt8) (lease : LiveLease) :
    Option (State × LiveLease) :=
  match s.state.beginAttempt lease.toDispatchLease previousAttempts with
  | .error _ => none
  | .ok state => some (state, { lease with attempts := lease.attempts + 1 })

/-- One operation of one caller. -/
def step (s : System) : Op → System
  | .enqueue id thread groupId model source since =>
    if id ∈ s.tickets ∨ id ∈ s.leases then s
    else
      match s.state.enqueue s.settings.toRuntimeSettings id thread groupId model source since with
      | .error _ => s
      | .ok (state, ticket) =>
        { s with state := state, tickets := s.tickets.insert id ⟨ticket, false⟩ }
  | .tryReserve id now bindingId ns =>
    match s.state.tryReserve s.settings.toRuntimeSettings now bindingId ns id with
    | .ok (state, some lease) =>
      { s with
        state := state
        tickets := s.tickets.modify id fun t ↦ { t with granted := true }
        leases := s.leases.insert id ⟨lease, 0⟩ }
    | _ => s
  | .confirmBinding id => s.withLease id s.confirmBinding
  | .confirmStateless id => s.withLease id s.confirmStateless
  | .beginSend id => s.withLease id (s.beginAttempt 0)
  | .beginEncryptedReasoningRecovery id => s.withLease id (s.beginAttempt 1)
  | .dropLease id =>
    match s.leases.lookup id with
    | none => s
    | some lease =>
      { s with state := s.state.dropLease lease.toDispatchLease, leases := s.leases.erase id }
  | .dropTicket id =>
    match s.tickets.lookup id with
    | none => s
    | some t =>
      { s with
        state := s.state.removeWaiter t.ticket.id t.ticket.session
        tickets := s.tickets.erase id }
  | .updateAccount account => { s with state := s.state.updateAccount account }
  | .removeAccount id => { s with state := s.state.removeAccount id }
  | .blockAccount id => { s with state := s.state.blockAccount id }
  | .updateKey key => { s with state := s.state.updateKey key }
  | .removeKey id => { s with state := s.state.removeKey id }
  | .blockKey id => { s with state := s.state.blockKey id }
  | .setPaused value => { s with state := s.state.setPaused value }
  | .publish settings => { s with settings := settings }

/-- A state after some operations on a new scheduler. -/
def Reachable (s : System) : Prop :=
  ∃ settings accounts bindings keys ops, s = run step (new settings accounts bindings keys) ops

/-- What a new scheduler has and every operation keeps, every reachable state has. -/
theorem Reachable.invariant {P : System → Prop}
    (hnew : ∀ settings accounts bindings keys, P (new settings accounts bindings keys))
    (hstep : ∀ s op, P s → P (s.step op)) {s : System} (h : s.Reachable) : P s := by
  obtain ⟨settings, accounts, bindings, keys, ops, rfl⟩ := h
  exact run_invariant hstep ops (hnew settings accounts bindings keys)

/-- Operations lead from reachable states to reachable states. -/
theorem Reachable.run {s : System} (h : s.Reachable) (ops : List Op) :
    (Base.run step s ops).Reachable := by
  obtain ⟨settings, accounts, bindings, keys, ops', rfl⟩ := h
  exact ⟨settings, accounts, bindings, keys, ops' ++ ops, (run_append ..).symm⟩

end System

/-! ### A small installation -/

namespace Sample

/-- Limits that let one request of a session and two in all be in flight. -/
def settings : LiveSettings where
  version := 1
  queueTimeoutMs := 1000
  heartbeatIntervalMs := 100
  sseIdleTimeoutMs := 1000
  queueCapacity := 8
  sseEventLimitBytes := 1024
  globalMaxInflight := 2
  sessionMaxInflight := 1
  valid := by decide

/-- An account of group 1 without model restrictions. -/
def account (id : Uuid) : Account where
  id := id
  groupIds := [1]
  name := "a"
  provider := "openai"
  accessKind := "codex_oauth"
  enabled := true
  codexOnly := false
  useExtraCredits := false
  disableReason := none
  maxInflight := 1
  upstreamAccountId := "u"
  models := []
  modelsRestricted := false
  modelCatalog := none
  profile := ⟨"ua", "native"⟩
  version := 1
  credentialVersion := 1
  credentialExpiresAt := none

/-- The key every request below comes with. -/
def key : GatewayKey := ⟨50, 1, true⟩

/-- A thread of a session of that key. -/
def thread (session thread : String) : ThreadKey := ⟨⟨50, session⟩, thread⟩

/-- A request of a thread arrives at instant zero. -/
def arrive (id : Uuid) (session thread : String) : Op :=
  .enqueue id (Sample.thread session thread) 1 (.codex "gpt") .codex 0

/-- A request polls its reservation at instant zero. -/
def poll (id : Uuid) : Op := .tryReserve id 0 (1000 + id) (2000 + id)

/-- The installation with the given accounts, after the operations. -/
def after (accounts : List Uuid) (ops : List Op) : System :=
  run System.step (System.new settings (accounts.map account) [] [key]) ops

/-- Any such state is reachable. -/
theorem reachable (accounts : List Uuid) (ops : List Op) : (after accounts ops).Reachable :=
  ⟨_, _, _, _, ops, rfl⟩

end Sample
end Xxgate.Scheduling

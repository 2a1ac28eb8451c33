import Xxgate.Gateway.Execute
import Xxgate.Scheduling.System
import Xxgate.Store.State

/-!
# The gateway and everything around it

All parties of one installation: the scheduler, the safety guard, the store, and a task for
each request. A move is a request arriving, a task being driven on, an administrator's
change of the scheduler, a cleanup of the store, or a restart of the process, which ends
every task wherever it stands.
-/

namespace Xxgate.Gateway

open Xxgate.Base Xxgate.Core Xxgate.Scheduling Xxgate.Store

/-- A request in the handler's `start`, or in the task it spawned. -/
inductive Life where
  | starting (key : GatewayKey) (request : GatewayRequest)
      (task : Task Unit Call Call.Reply Empty Error (Job × Execution))
  | running (job : Job) (task : Task Execution Call Call.Reply Label Error Unit)

/-- The installation. -/
structure World where
  sched : System
  safety : FiniteMap SessionKey (Nat × Error)
  store : PgStore
  tasks : FiniteMap Uuid Life
  /-- The process came up after its last start. -/
  serving : Bool
  /-- History: the request ids drawn so far. Only new ones are drawn. -/
  issued : Finset Uuid
  /-- History: the requests `start` enqueued since the last restart, in that order. -/
  arrivals : List Uuid

/-- Why a waiting task is polled. -/
inductive Wake where
  | poll
  | heartbeat
  | cancelled
  deriving DecidableEq

/-- Everything a reply can depend on beside the installation. -/
structure Env where
  outcome : Outcome
  now : Nat
  wake : Wake
  bindingId : Uuid
  ns : Uuid
  reply : (q : Consult) → q.Reply

/-- One move. -/
inductive Move where
  | arrive (id : Uuid) (key : GatewayKey) (request : GatewayRequest)
  | drive (id : Uuid) (drive : Drive Env Error)
  | admin (op : Op)
  | cleanup (now retentionDays : Nat)
  | restart (now : Nat) (outcomes : List Outcome) (settings : LiveSettings)
      (accounts : List Account) (keys : List GatewayKey)

/-- Operations on the scheduler that no ticket or lease is needed for. -/
def isAdmin : Op → Bool
  | .updateAccount _ | .removeAccount _ | .blockAccount _ | .updateKey _ | .removeKey _
  | .blockKey _ | .setPaused _ | .publish _ => true
  | _ => false

/-! ### The safety guard -/

/-- `safety.rs:36`. -/
def blocked (previous : Error) : Error :=
  ⟨403, "session_safety_blocked",
    "The gateway blocked this session without contacting the upstream because at least 3 requests in this session were rejected by upstream safety policy. Previous rejection: " ++
      previous.message⟩

/-- `safety.rs:9`. -/
def safetyCheck (guard : FiniteMap SessionKey (Nat × Error)) (session : SessionKey) :
    Result Unit :=
  match (guard.lookup session).filter (3 ≤ ·.1) with
  | some (_, previous) => .error (blocked previous)
  | none => .ok ()

/-- `safety.rs:15`. -/
def safetyRestore (guard : FiniteMap SessionKey (Nat × Error)) (session : SessionKey)
    (count : Nat) (error : Error) : FiniteMap SessionKey (Nat × Error) :=
  guard.insert session ((guard.lookup session).elim (count, error)
    fun entry ↦ if entry.1 < count then (count, error) else entry)

/-- `safety.rs:22`. -/
def safetyRemember (guard : FiniteMap SessionKey (Nat × Error)) (session : SessionKey)
    (error : Error) : FiniteMap SessionKey (Nat × Error) :=
  guard.insert session ((guard.lookup session).elim (1, error)
    fun entry ↦ (min 3 (entry.1 + 1), entry.2))

namespace World

/-- The scheduler takes some operations. -/
def scheduled (w : World) (ops : List Op) : World :=
  { w with sched := run System.step w.sched ops }

/-- The store takes a transaction with the given outcome. -/
def stored (w : World) (outcome : Outcome) (transaction : Result PgStore) : World × Result Unit :=
  let (store, answer) := settle outcome w.store transaction
  ({ w with store := store }, answer)

/-- The store is read. -/
def queried {α : Type} (w : World) (outcome : Outcome) (value : α) : World × Result α :=
  (w, match outcome with
    | .answered => .ok value
    | _ => .error .storage)

/-- `scheduling.rs:543`: one round of `QueueTicket::wait`. The ticket is gone when it ends; no
answer means that the task keeps waiting. -/
def wait (w : World) (env : Env) (id : Uuid) : Option (World × Waited) :=
  match env.wake with
  | .heartbeat => some (w, .heartbeat)
  | .cancelled => some (w.scheduled [.dropTicket id], .failed .cancelled)
  | .poll =>
    (w.sched.tickets.lookup id).bind fun live ↦
      if live.ticket.since + w.sched.settings.queueTimeoutMs * 1000 ≤ env.now then
        some (w.scheduled [.dropTicket id],
          .failed ⟨429, "queue_timeout", "The configured queue waiting time was exceeded"⟩)
      else
        match w.sched.state.tryReserve w.sched.settings.toRuntimeSettings env.now
            env.bindingId env.ns id with
        | .error error => some (w.scheduled [.dropTicket id], .failed error)
        | .ok (_, none) => none
        | .ok (_, some lease) => some (w.scheduled
            [.tryReserve id env.now env.bindingId env.ns, .dropTicket id], .lease lease)

/-- The holder of a lease asks the scheduler for something. -/
def onLease (w : World) (id : Uuid) (op : Op) {α : Type} (f : DispatchLease → Result α) :
    Option (World × Result Unit) :=
  (w.sched.leases.lookup id).map fun live ↦
    match f live.toDispatchLease with
    | .ok _ => (w.scheduled [op], .ok ())
    | .error error => (w, .error error)

/-- `Scheduler::enqueue` for a request. -/
def enqueue (w : World) (id : Uuid) (thread : ThreadKey) (groupId : Uuid) (model : ModelRef)
    (source : ClientSource) (since : Nat) : World × Result Unit :=
  match w.sched.state.enqueue w.sched.settings.toRuntimeSettings id thread groupId model source
      since with
  | .ok _ =>
    ({ w.scheduled [.enqueue id thread groupId model source since] with
        arrivals := if id ∈ w.arrivals then w.arrivals else w.arrivals ++ [id] }, .ok ())
  | .error error => (w, .error error)

/-- The installation and the reply after a call by a request's task, or none while there is
no reply. -/
def exec (w : World) (id : Uuid) (env : Env) : (c : Call) → Option (World × c.Reply)
  | .consult q => some (w, env.reply q)
  | .enqueue thread groupId model source since =>
    some (w.enqueue id thread groupId model source since)
  | .wait => w.wait env id
  | .dropTicket => some (w.scheduled [.dropTicket id], ())
  | .account account => some (w, w.sched.state.accounts.lookup account)
  | .confirmStateless => w.onLease id (.confirmStateless id) w.sched.state.confirmStateless
  | .confirmBinding => some (w.scheduled [.confirmBinding id], ())
  | .beginSend => w.onLease id (.beginSend id) w.sched.state.beginSend
  | .beginEncryptedReasoningRecovery =>
    w.onLease id (.beginEncryptedReasoningRecovery id)
      w.sched.state.beginEncryptedReasoningRecovery
  | .dropLease => some (w.scheduled [.dropLease id], ())
  | .setPaused => some (w.scheduled [.setPaused true], ())
  | .safetyCheck session => some (w, Gateway.safetyCheck w.safety session)
  | .safetyRestore session count error =>
    some ({ w with safety := Gateway.safetyRestore w.safety session count error }, ())
  | .safetyRemember session error =>
    some ({ w with safety := Gateway.safetyRemember w.safety session error }, ())
  | .sendOnce _ => some (w, ())
  | .commitBinding binding expected =>
    some (w.stored env.outcome (w.store.commitBinding binding expected))
  | .sessionBindings session => some (w.queried env.outcome (w.store.sessionBindings session))
  | .safetyRejection session => some (w.queried env.outcome (w.store.safetyRejection session))
  | .saveSafetyRejection session error =>
    some (w.stored env.outcome (.ok (w.store.saveSafetyRejection session error)))
  | .beginRequest record => some (w.stored env.outcome (w.store.beginRequest env.now record))
  | .updateRequest record => some (w.stored env.outcome (.ok (w.store.updateRequest record)))
  | .finishRequest record => some (w.stored env.outcome (w.store.finishRequest env.now record))
  | .summarizeRequest record =>
    some (w.stored env.outcome (.ok (w.store.summarizeRequest record)))
  | .appendEvent kind =>
    some (w.stored env.outcome (.ok (w.store.appendEvent (PgStore.gatewayEvent kind id env.now))))

/-- A handler that went through hands over to the task it spawns. -/
def admitted (key : GatewayKey) (request : GatewayRequest)
    (t : Task Unit Call Call.Reply Empty Error (Job × Execution)) : Life :=
  match t.stage with
  | .ended (.ok (job, execution)) _ => .running job ⟨.running (.goto execution .select), []⟩
  | _ => .starting key request t

/-- Drive a request on. -/
def advance (w : World) (id : Uuid) (d : Drive Env Error) : Life → Option (World × Life)
  | .starting key request t =>
    (t.next startScheme (w.exec id) w d).map fun a ↦ (a.1, admitted key request a.2)
  | .running job t => (t.next (scheme job) (w.exec id) w d).map fun a ↦ (a.1, .running job a.2)

/-- One move; what does not apply changes nothing. -/
def step (w : World) : Move → World
  | .arrive id key request =>
    if w.serving ∧ id ∉ w.issued then
      { w with
        tasks := w.tasks.insert id
          (.starting key request ⟨.running (start id key request ()), []⟩)
        issued := insert id w.issued }
    else w
  | .drive id d =>
    match (w.tasks.lookup id).bind (w.advance id d) with
    | none => w
    | some (w', life) => { w' with tasks := w'.tasks.insert id life }
  | .admin op => if isAdmin op then w.scheduled [op] else w
  | .cleanup now retentionDays => { w with store := w.store.cleanup now retentionDays }
  | .restart now outcomes settings accounts keys =>
    let (store, serving) := w.store.reconcileInterrupted now outcomes
    { w with
      sched := System.new settings accounts store.activeBindings keys
      safety := ∅
      store := store
      tasks := ∅
      serving := serving
      arrivals := [] }

/-- A new installation: an empty database and the first start of the process. -/
def new (settings : LiveSettings) (accounts : List Account) (keys : List GatewayKey) : World where
  sched := System.new settings accounts [] keys
  safety := ∅
  store := .empty
  tasks := ∅
  serving := true
  issued := ∅
  arrivals := []

/-- A state some moves lead to from a new installation. -/
def Reachable (w : World) : Prop :=
  ∃ settings accounts keys moves, w = run step (new settings accounts keys) moves

/-- What a new installation has and every move keeps, every reachable state has. -/
theorem Reachable.invariant {P : World → Prop}
    (hnew : ∀ settings accounts keys, P (new settings accounts keys))
    (hstep : ∀ w m, P w → P (w.step m)) {w : World} (h : w.Reachable) : P w := by
  obtain ⟨settings, accounts, keys, moves, rfl⟩ := h
  exact run_invariant hstep moves (hnew settings accounts keys)

end World
/-! ### A small installation -/

namespace Sample

/-- The one model that is configured. -/
def model : ModelSpec := ⟨"gpt", .codex "gpt", true⟩

/-- A request of thread t of session s. -/
def request (stateless : Bool) : GatewayRequest where
  source := .codex
  stateless := stateless
  kind := .responses
  identity := ⟨"s", "t"⟩
  model := "gpt"
  stream := false
  requestedTier := none

/-- The request as prepared, with encrypted reasoning in its input. -/
def prepared : PreparedRequest where
  url := "/responses"
  body := some (.obj [("input", .arr [.obj [("type", .str "reasoning"),
    ("encrypted_content", .str "x"), ("summary", .arr [])]])])

/-- The body of a response that rejects encrypted content. -/
def errorBody : Json := .obj [("error", .obj [("code", .str "invalid_encrypted_content")])]

/-- Replies of a quiet day, with an upstream that answers every send with the same status. -/
def reply (status : Nat) : (q : Consult) → q.Reply
  | .polled => ()
  | .models => .ok [model]
  | .mappings _ | .saveMappings _ | .credentials _ => .ok ()
  | .searchPrice => .error .storage
  | .prices => .ok []
  | .applyQuotaObservation _ | .disableObserved _ => .ok ()
  | .headers => .ok status
  | .errorBody => .ok (some errorBody)
  | .nextChunk => .ended
  | .deliver _ => .ok ()
  | .isCancelled => false
  | .now => 0
  | .logLevel => .error
  | .eventLimit => 1024
  | .validate _ => .ok ()
  | .prepare _ _ => .ok (prepared, false)
  | .httpError _ _ => (⟨400, "upstream_error", "The upstream rejected the request"⟩, false)
  | .encode _ => .ok 1
  | .decode => .ok []
  | .finishDecoder => .ok ()
  | .unaryResponse _ => .ok (none, none)
  | .resize => .ok ()

/-- A request arrives. -/
def arrive (stateless : Bool) (id : Uuid) : Move :=
  .arrive id Scheduling.Sample.key (request stateless)

/-- A request goes on by at most `n` calls, with one outcome for those to the store. -/
def turns (outcome : Outcome) (status : Nat) (id : Uuid) (n : Nat) : List Move :=
  (List.replicate n [Move.drive id .proceed, Move.drive id
    (.perform ⟨outcome, 0, .poll, 1000 + id, 2000 + id, reply status⟩)]).flatten

/-- The installation with account 7 after the moves. -/
def after (moves : List Move) : World :=
  run World.step (World.new Scheduling.Sample.settings [Scheduling.Sample.account 7]
    [Scheduling.Sample.key]) moves

/-- Any such state is reachable. -/
theorem reachable (moves : List Move) : (after moves).Reachable := ⟨_, _, _, moves, rfl⟩

end Sample
end Xxgate.Gateway

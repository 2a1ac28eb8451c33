import Mathlib.Logic.Function.Basic
import Xxgate.Accounts.Mutations
import Xxgate.Base.Run
import Xxgate.Codex.Oauth
import Xxgate.Scheduling.State

/-!
# The accounts of an installation

The scheduler, the account tables, the locks and the token endpoint, shared by the tasks
that maintain the accounts. A task may be dropped at an await, a store call may fail, take
effect, or take effect and fail to answer, and the process may restart at any moment, which
ends every task and builds the scheduler anew from the store.
-/

namespace Xxgate.Accounts

open Xxgate.Base Xxgate.Core Xxgate.Scheduling Xxgate.Store

/-- A refresh request that is on its way to the token endpoint. -/
structure RefreshRequest where
  task : Nat
  accountId : Uuid
  token : String
  deriving DecidableEq

/-- What the tasks share. The requests' own use of the scheduler leaves its accounts alone and
is not part of it. -/
structure Installation where
  sched : State
  store : AccountTables
  locks : FiniteMap Lock Nat
  /-- The refresh token the endpoint accepts for each account. -/
  accepted : Uuid → Option String
  /-- The refresh requests the endpoint has not taken up. -/
  posted : Finset RefreshRequest

/-- How a refresh request ends. -/
inductive RefreshEnd where
  /-- The endpoint takes it up, and its answer arrives; the body comes parsed, if it could be. -/
  | answered (status : Nat) (body : Option Json)
  /-- It does not reach the endpoint. -/
  | unreached (error : Error)
  /-- No answer arrives in time, and the request is still on its way. -/
  | unanswered (error : Error)

/-- Everything a reply can depend on beside the installation. -/
structure Env where
  outcome : Outcome
  refresh : RefreshEnd
  codecs : Codex.Oauth.Codecs
  http : HeaderText
  reply : (q : Consult) → q.Reply

/-- The answer to a question; what the claims of tokens say is read of them. -/
def Env.answer (env : Env) : (q : Consult) → q.Reply
  | .accountDetails credentials =>
    (Codex.Oauth.accountDetails env.codecs credentials).map (·.accountId)
  | q => env.reply q

/-- Changes from outside. -/
inductive Change where
  | restart
  /-- `set_paused(true)` by other parts of the gateway. -/
  | pause
  /-- The groups there are. -/
  | groups (ids : List Uuid)
  /-- The endpoint takes a refresh request up, and its answer goes nowhere. -/
  | takeUp (request : RefreshRequest) (status : Nat) (body : Option Json)

namespace Installation

/-- What locking calls do. -/
def lockOp : Call → Option (LockOp Lock)
  | .lock l => some (.acquire l)
  | .unlock l => some (.release l)
  | .releaseAll => some .releaseAll
  | _ => none

/-- A call on the locks. -/
def locking (s : Installation) (task : Nat) (op : LockOp Lock) : Option (Installation × Unit) :=
  (op.apply s.locks task).map fun locks ↦ ({ s with locks := locks }, ())

/-- A call on the scheduler. -/
def scheduled (s : Installation) (f : State → State) : Option (Installation × Unit) :=
  some ({ s with sched := f s.sched }, ())

/-- A transaction on the store. -/
def wrote {α : Type} (s : Installation) (outcome : Outcome)
    (transaction : Result (AccountTables × α)) : Option (Installation × Result α) :=
  let (store, answer) := conclude outcome s.store transaction
  some ({ s with store := store }, answer)

/-- The store is read. -/
def queried {α : Type} (s : Installation) (outcome : Outcome) (value : Result α) :
    Option (Installation × Result α) :=
  some (s, match outcome with
    | .answered => value
    | _ => .error .storage)

/-- The endpoint accepts the token of a request that is on its way. -/
def accepts (s : Installation) (request : RefreshRequest) : Bool :=
  request ∈ s.posted && s.accepted request.accountId = some request.token

/-- The endpoint takes a request up. When it accepts the token and grants the refresh, it accepts
from then on only the token that its answer says. -/
def takenUp (s : Installation) (request : RefreshRequest) (status : Nat) (body : Option Json) :
    Installation :=
  { s with
    posted := s.posted.erase request
    accepted :=
      if s.accepts request && decide (200 ≤ status ∧ status < 300) then
        Function.update s.accepted request.accountId
          (some (Codex.Oauth.issued body request.token))
      else s.accepted }

/-- `gateway.rs:1180–1185`: a request that was posted is answered as the surroundings say, or
rejected when the endpoint does not accept its token. -/
def refresh (s : Installation) (env : Env) (request : RefreshRequest) (account : Account)
    (previous : Credentials) : Installation × Result Credentials :=
  if request ∉ s.posted then
    (s, .error ⟨504, "oauth_timeout", "OAuth refresh timed out"⟩)
  else
    match env.refresh with
    | .answered status body =>
      (s.takenUp request status body, Codex.Oauth.refreshed env.codecs (env.reply .now)
        (if s.accepts request then status else 401) body previous account)
    | .unreached error => ({ s with posted := s.posted.erase request }, .error error)
    | .unanswered error => (s, .error error)

/-- The installation and the reply after a call, or none while there is no reply. -/
def exec (s : Installation) (task : Nat) (env : Env) :
    (c : Call) → Option (Installation × c.Reply)
  | .consult q => some (s, env.answer q)
  | .lock l => s.locking task (.acquire l)
  | .unlock l => s.locking task (.release l)
  | .releaseAll => s.locking task .releaseAll
  | .enter _ | .leave _ _ => some (s, ())
  | .account id => some (s, s.sched.accounts.lookup id)
  | .accounts => some (s, FiniteMap.values s.sched.accounts)
  | .blockAccount id => s.scheduled (·.blockAccount id)
  | .updateAccount account => s.scheduled (·.updateAccount account)
  | .removeAccount id => s.scheduled (·.removeAccount id)
  | .setPaused => s.scheduled (·.setPaused true)
  | .groups => s.queried env.outcome (.ok s.store.groups)
  | .storedAccounts => s.queried env.outcome (.ok s.store.listed)
  | .putAccount account encrypted expected =>
    s.wrote env.outcome (s.store.putAccount account encrypted expected)
  | .deleteAccount id => s.wrote env.outcome (s.store.deleteAccount id)
  | .credentials id => s.queried env.outcome (s.store.credentials id)
  | .updateCredentials id encrypted expiresAt expected =>
    s.wrote env.outcome (s.store.updateCredentials id encrypted expiresAt expected)
  | .setEnabled id enabled reason expected _ =>
    s.wrote env.outcome (s.store.setEnabled id enabled reason expected)
  | .saveModelCatalog id catalog =>
    s.wrote env.outcome (s.store.saveModelCatalog id catalog)
  | .quotas id => s.queried env.outcome (.ok (s.store.quotasOf id))
  | .saveQuotas id windows => s.wrote env.outcome (s.store.saveQuotas id windows)
  | .extraCredits id => s.queried env.outcome (.ok (s.store.extraCredits.lookup id))
  | .saveExtraCredits id credits =>
    s.wrote env.outcome (s.store.saveExtraCredits id credits)
  | .post id previous =>
    some ({ s with posted := insert ⟨task, id, previous.refreshToken⟩ s.posted }, ())
  | .refresh id account previous =>
    some (s.refresh env ⟨task, id, previous.refreshToken⟩ account previous)
  | .validateCredentials credentials => some (s, credentials.validate env.http)

/-- The scheduler a process starts with. -/
def started (store : AccountTables) : State := State.new store.listed [] []

/-- A change from outside. -/
def change (s : Installation) : Change → Installation
  | .restart => { s with sched := started s.store, locks := ∅ }
  | .pause => { s with sched := s.sched.setPaused true }
  | .groups ids => { s with store := { s.store with groups := ids } }
  | .takeUp request status body => s.takenUp request status body

end Installation

/-- The tasks of an installation. -/
def kit : Kit Installation Env Job Change Unit Call Call.Reply Empty Error Unit where
  scheme := scheme
  body := fun job ↦ body job ()
  exec := Installation.exec
  change := Installation.change
  ends := fun
    | .restart => true
    | _ => false

/-- An installation and its tasks. -/
abbrev World : Type := Pool Installation Job Unit Call Call.Reply Empty Error Unit

/-- One move. -/
abbrev Move : Type := Pool.Move Env Job Change Error

namespace Move

/-- The job of the task a move starts. -/
def spawned : Move → Option Job
  | .spawn _ job => some job
  | _ => none

/-- The move ends every task. -/
def restarts : Move → Bool
  | .change .restart => true
  | _ => false

/-- The task a move drives. -/
def driven : Move → Option Nat
  | .drive task _ => some task
  | _ => none

/-- The task that performs a call, with its surroundings. -/
def surroundings : Move → Option (Nat × Env)
  | .drive task (.perform env) => some (task, env)
  | _ => none

/-- The task a move drops. -/
def dropped : Move → Option Nat
  | .drive task (.abandon _) => some task
  | _ => none

/-- The refresh request that the endpoint takes up without its answer arriving. -/
def takenUp : Move → Option RefreshRequest
  | .change (.takeUp request ..) => some request
  | _ => none

/-- Only a call of a task has surroundings. -/
theorem surroundings_eq_some {m : Move} {task : Nat} {env : Env} :
    m.surroundings = some (task, env) ↔ m = .drive task (.perform env) := by
  constructor
  · intro h
    unfold surroundings at h
    split at h
    · cases h
      rfl
    · cases h
  · rintro rfl
    rfl

end Move

namespace World

/-- One move; what does not apply changes nothing. -/
abbrev step (w : World) (m : Move) : World := Pool.step kit w m

/-- The first start of a process on a database, with an endpoint that accepts what is stored. -/
def new (store : AccountTables) : World where
  shared :=
    { sched := Installation.started store
      store := store
      locks := ∅
      accepted := fun id ↦
        (store.accounts.lookup id).map (·.credentials.credentials.refreshToken)
      posted := ∅ }
  tasks := ∅

/-- A database as the store leaves it: rows under their own ids, sealed for them. -/
structure Sound (t : AccountTables) : Prop where
  keyed : t.Keyed
  sealed : ∀ id row, t.accounts.lookup id = some row → row.credentials.accountId = id

/-- A state some moves lead to from the first start on a database. -/
def Reachable (w : World) : Prop :=
  ∃ store moves, Sound store ∧ w = run step (new store) moves

end World

/-! ### Sample data -/

namespace Sample

/-- Account 7 of group 1, expired long ago. -/
def account (enabled : Bool) (reason : Option DisableReason) : Account where
  id := 7
  groupIds := [1]
  name := "seven"
  provider := "openai"
  accessKind := "codex_oauth"
  enabled := enabled
  codexOnly := false
  useExtraCredits := false
  disableReason := reason
  maxInflight := 2
  upstreamAccountId := "upstream-7"
  models := []
  modelsRestricted := false
  modelCatalog := none
  profile := defaultProfile
  version := 1
  credentialVersion := 1
  credentialExpiresAt := some 0

/-- Its credentials with the refresh token they carry. -/
def credentials (refreshToken : String) : Credentials := ⟨"access", refreshToken, "id", some 0⟩

/-- A window of five hours that was used up to a percentage. -/
def window (percent : Rat) (resetsAt : Int) : QuotaWindow :=
  ⟨"codex", some 300, some percent, some resetsAt, 0⟩

/-- A database with account 7. -/
def store (a : Account) (windows : List QuotaWindow) : AccountTables where
  groups := [1]
  accounts := AList.insert 7 ⟨a, encrypt 7 (credentials "first"), false⟩ ∅
  quotas := windows.foldl (fun m w ↦ m.insert (7, w.pool, w.windowMinutes.getD (-1)) w) ∅
  extraCredits := ∅

/-- Replies of a quiet day on a given hour, with requests that end with one status. -/
def reply (now : Int) (status : Nat) : (q : Consult) → q.Reply
  | .now => now
  | .staleAfter => 600
  | .defaultConcurrency => 2
  | .newId => 8
  | .validate _ => .ok ()
  | .accountDetails _ => .ok "upstream-7"
  | .refreshRequest _ | .quotaRequest _ | .modelsRequest _ => .ok ()
  | .exchange => .ok status
  | .httpError _ => (⟨429, "quota_exhausted", "The quota is used up"⟩, some .quotaExhausted)
  | .quotaResponse => .ok []
  | .extraCreditsResponse => .ok ⟨some false, none, none, now, false⟩
  | .modelsResponse => .ok []
  | .configureModels _ | .appendEvent => .ok ()

/-- An answer of the endpoint, with a token of account 7 and a refresh token. -/
def granted (refreshToken : String) : Json :=
  .obj [("access_token", .str (Codex.Oauth.Sample.token 2)), ("refresh_token", .str refreshToken)]

/-- The surroundings, with an endpoint that answers with the second token. -/
def env (outcome : Outcome) (now : Int) : Env where
  outcome := outcome
  refresh := .answered 200 (some (granted "second"))
  codecs := Codex.Oauth.Sample.codecs
  http := .ascii
  reply := reply now 200

/-- A task goes on by at most `n` calls. -/
def turns (task : Nat) (e : Env) (n : Nat) : List Move :=
  (List.replicate n [.drive task (.perform e), .drive task .proceed]).flatten

/-- A task goes on by at most `n` calls and is then dropped. -/
def dropped (task : Nat) (e : Env) (n : Nat) : List Move :=
  turns task e n ++ [.drive task (.abandon ⟨499, "cancelled", "The client went away"⟩),
    .drive task (.perform e), .drive task .proceed]

/-- A database of account 7 and the installation after the moves. -/
def after (store : AccountTables) (moves : List Move) : World :=
  run World.step (World.new store) moves

/-- The store with one account is sound. -/
theorem sound {a : Account} (ha : a.id = 7) (windows : List QuotaWindow) :
    World.Sound (store a windows) := by
  have hrow : ∀ id row, (store a windows).accounts.lookup id = some row →
      id = 7 ∧ row = ⟨a, encrypt 7 (credentials "first"), false⟩ := by
    intro id row h
    have h : (AList.insert 7 (⟨a, encrypt 7 (credentials "first"), false⟩ : AccountRow)
      (∅ : FiniteMap Uuid AccountRow)).lookup id = some row := h
    rw [FiniteMap.lookup_insert_ite] at h
    split at h
    · next hid =>
      cases h
      exact ⟨hid, rfl⟩
    · cases (AList.lookup_empty id).symm.trans h
  constructor
  · intro id row h
    obtain ⟨rfl, rfl⟩ := hrow id row h
    exact ha
  · intro id row h
    obtain ⟨rfl, rfl⟩ := hrow id row h
    rfl

/-- Any such state is reachable. -/
theorem reachable {a : Account} (ha : a.id = 7) (windows : List QuotaWindow)
    (moves : List Move) : (after (store a windows) moves).Reachable :=
  ⟨_, moves, sound ha windows, rfl⟩

end Sample
end Xxgate.Accounts

import Mathlib.Data.List.Sort
import Xxgate.Base.Rollup
import Xxgate.Core.Audit

/-!
# The store

`crates/xxgate-postgres/src/bindings.rs` and `requests.rs` with its SQL: the tables the
gateway writes while it serves requests, and each transaction on them as one function.
Instants are microseconds, and an hour is the number of whole hours before an instant.
-/

namespace Xxgate.Store

open Xxgate.Base Xxgate.Core

/-- What becomes of a store call: it answers, its transaction commits but the answer is lost,
or it does nothing and fails. -/
inductive Outcome where
  | answered
  | lost
  | failed
  deriving DecidableEq, Repr

/-- A row of `sessions`. -/
structure SessionRow where
  generation : Int
  bindingId : Option Uuid
  deriving DecidableEq

/-- `data->>'detail_level'`, full when absent. -/
inductive DetailLevel where
  | full
  | summary
  deriving DecidableEq, Repr

/-- A row of `requests`. -/
structure Row where
  accountId : Option Uuid
  state : RequestState
  createdAt : Nat
  finishedAt : Option Nat
  data : RequestRecord
  detailLevel : DetailLevel
  deriving DecidableEq

/-- The primary key of `request_hourly`. -/
structure HourlyKey where
  hour : Nat
  accountId : Uuid
  keyId : Uuid
  provider : String
  model : String
  serviceTier : String
  deriving DecidableEq

/-- A row of `request_hourly`. -/
structure Hourly where
  requests : Nat
  completed : Nat
  failed : Nat
  cancelled : Nat
  inputTokens : Nat
  outputTokens : Nat
  cachedTokens : Nat
  imageCount : Nat
  cny : Rat
  unpriced : Nat
  incompleteUsage : Nat
  durationMs : Nat
  searchCalls : Nat
  searchCny : Rat
  deriving DecidableEq

/-- A row of `account_spending_entries`. -/
structure SpendingEntry where
  accountId : Uuid
  finishedAt : Nat
  cny : Option Rat
  codexMain : Bool
  inputTokens : Option Nat
  outputTokens : Option Nat
  deriving DecidableEq

/-- A row of `account_spending_hourly`. -/
structure Spending where
  cny : Rat
  requests : Nat
  unpriced : Nat
  codexCny : Rat
  codexRequests : Nat
  codexUnpriced : Nat
  inputTokens : Option Nat
  outputTokens : Option Nat
  missingTokens : Nat
  deriving DecidableEq

/-- The tables. -/
structure PgStore where
  sessions : FiniteMap SessionKey SessionRow
  bindings : List Binding
  rejections : FiniteMap SessionKey (Nat × Error)
  rows : FiniteMap Uuid Row
  hourly : FiniteMap HourlyKey Hourly
  entries : FiniteMap Uuid SpendingEntry
  spending : FiniteMap (Uuid × Nat) Spending
  events : List AuditEvent
  /-- History: the records whose finishing took effect, oldest first. Nothing reads it. -/
  billed : List RequestRecord
  /-- History: the first hour no cleanup has dropped yet. Nothing reads it. -/
  expired : Nat

/-- A fresh database. -/
def PgStore.empty : PgStore := ⟨∅, [], ∅, ∅, ∅, ∅, ∅, [], [], 0⟩

/-- The store and the answer after a transaction with the given outcome. -/
def settle (outcome : Outcome) (s : PgStore) (transaction : Result PgStore) :
    PgStore × Result Unit :=
  match outcome, transaction with
  | .answered, .ok s' => (s', .ok ())
  | .lost, .ok s' => (s', .error .storage)
  | .failed, _ => (s, .error .storage)
  | _, .error x => (s, .error x)

/-- `date_trunc('hour', instant)`. -/
def hourOf (instant : Nat) : Nat := instant / 3600000000

namespace PgStore

/-! ### Bindings -/

/-- The generation in a session's row, zero when it has none. -/
def generation (s : PgStore) (session : SessionKey) : Int :=
  (s.sessions.lookup session).elim 0 (·.generation)

/-- `bindings.rs:14`. -/
def activeBindings (s : PgStore) : List Binding :=
  s.sessions.entries.filterMap fun e ↦ s.bindings.find? fun b ↦ e.2.bindingId == some b.id

/-- `bindings.rs:23`. The inserted binding must not clash with the table's keys. -/
def commitBinding (s : PgStore) (b : Binding) (expectedGeneration : Int) : Result PgStore :=
  if s.generation b.session ≠ expectedGeneration ∨
      b.generation ≠ s.generation b.session + 1 then .error .conflict
  else if s.bindings.any fun c ↦
      c.id == b.id || (c.session == b.session && c.generation == b.generation) then
    .error .storage
  else .ok { s with
    bindings := s.bindings ++ [b]
    sessions := s.sessions.insert b.session ⟨b.generation, some b.id⟩ }

/-- `bindings.rs:81`: the bindings of a session in the order of their generations. -/
def sessionBindings (s : PgStore) (session : SessionKey) : List Binding :=
  (s.bindings.filter (·.session = session)).insertionSort fun a b ↦ a.generation ≤ b.generation

/-! ### Safety rejections -/

/-- `requests.rs:18`. -/
def safetyRejection (s : PgStore) (session : SessionKey) : Option (Nat × Error) :=
  s.rejections.lookup session

/-- `requests.rs:34`. -/
def saveSafetyRejection (s : PgStore) (session : SessionKey) (error : Error) : PgStore :=
  { s with
    rejections := s.rejections.insert session
      ((s.rejections.lookup session).elim (1, error) fun e ↦ (min 3 (e.1 + 1), e.2)) }

/-! ### Requests -/

/-- `requests.rs:98`. -/
def appendEvent (s : PgStore) (event : AuditEvent) : PgStore :=
  { s with events := s.events ++ [event] }

/-- An event of a request by the gateway. -/
def gatewayEvent (kind : String) (id : Uuid) (now : Nat) : AuditEvent :=
  ⟨kind, "gateway", some id, now⟩

/-- `requests.rs:44`. -/
def beginRequest (s : PgStore) (now : Nat) (r : RequestRecord) : Result PgStore :=
  if r.id ∈ s.rows then .error .storage
  else
    let kind := if r.state = .rejected then "request_rejected" else "request_accepted"
    let row : Row := ⟨r.accountId, r.state, r.createdAt, none, r, .full⟩
    let s := { s with rows := s.rows.insert r.id row }
    .ok (s.appendEvent (gatewayEvent kind r.id now))

/-- The unfinished row of a request. -/
def unfinished (s : PgStore) (id : Uuid) : Option Row :=
  (s.rows.lookup id).filter (·.finishedAt.isNone)

/-- `requests.rs:52`. -/
def updateRequest (s : PgStore) (r : RequestRecord) : PgStore :=
  match s.unfinished r.id with
  | none => s
  | some row =>
    let row := { row with
      accountId := r.accountId, state := r.state, data := r, detailLevel := .full }
    { s with rows := s.rows.insert r.id row }

/-- `requests.rs:66`. -/
def cost (r : RequestRecord) : Option Rat := r.valuation.bind (·.cny)

/-- `requests.rs:73`: the row of `request_hourly` a record counts in. -/
def hourlyKey (r : RequestRecord) : HourlyKey where
  hour := hourOf r.createdAt
  accountId := r.accountId.getD 0
  keyId := r.keyId
  provider := r.provider
  model := r.model
  serviceTier := r.usage.serviceTier.getD "unknown"

/-- `requests.rs:67–77`: what a record counts in `request_hourly`. -/
def hourlyShare (r : RequestRecord) : Hourly where
  requests := 1
  completed := (r.state == .completed).toNat
  failed := (r.state == .failed || r.state == .interrupted || r.state == .rejected).toNat
  cancelled := (r.state == .cancelled).toNat
  inputTokens := r.usage.inputTokens.getD 0
  outputTokens := r.usage.outputTokens.getD 0
  cachedTokens := r.usage.cachedInputTokens.getD 0
  imageCount := r.usage.imageCount
  cny := (cost r).getD 0
  unpriced := (cost r).isNone.toNat
  incompleteUsage := (!r.usage.complete && decide (0 < r.upstreamAttempts)).toNat
  durationMs := r.totalMs.getD 0
  searchCalls := r.usage.searchCalls
  searchCny := if r.kind = .search then (cost r).getD 0 else 0

/-- `requests.rs:69`: `ON CONFLICT … DO UPDATE`. -/
def mergeHourly (a b : Hourly) : Hourly where
  requests := a.requests + b.requests
  completed := a.completed + b.completed
  failed := a.failed + b.failed
  cancelled := a.cancelled + b.cancelled
  inputTokens := a.inputTokens + b.inputTokens
  outputTokens := a.outputTokens + b.outputTokens
  cachedTokens := a.cachedTokens + b.cachedTokens
  imageCount := a.imageCount + b.imageCount
  cny := a.cny + b.cny
  unpriced := a.unpriced + b.unpriced
  incompleteUsage := a.incompleteUsage + b.incompleteUsage
  durationMs := a.durationMs + b.durationMs
  searchCalls := a.searchCalls + b.searchCalls
  searchCny := a.searchCny + b.searchCny

/-- `requests.rs:79–90`: the values bound in `account_spending_increment.sql`. -/
def spendingEntry (r : RequestRecord) (accountId : Uuid) (finishedAt : Nat) : SpendingEntry where
  accountId := accountId
  finishedAt := finishedAt
  cny := cost r
  codexMain := decide (0 < r.upstreamAttempts) &&
    r.upstreamModel.getD r.model != "gpt-5.3-codex-spark"
  inputTokens := r.usage.inputTokens
  outputTokens := r.usage.outputTokens

/-- `account_spending_increment.sql:8–12`: what an entry counts in its hour. -/
def spendingShare (e : SpendingEntry) : Spending where
  cny := e.cny.getD 0
  requests := 1
  unpriced := e.cny.isNone.toNat
  codexCny := if e.codexMain then e.cny.getD 0 else 0
  codexRequests := e.codexMain.toNat
  codexUnpriced := (e.codexMain && e.cny.isNone).toNat
  inputTokens := e.inputTokens
  outputTokens := e.outputTokens
  missingTokens := (e.inputTokens.isNone || e.outputTokens.isNone).toNat

/-- `account_spending_increment.sql:21`: unknown counts add up to unknown only with each
other. -/
def mergeTokens (a b : Option Nat) : Option Nat :=
  if a.isNone && b.isNone then none else some (a.getD 0 + b.getD 0)

/-- `account_spending_increment.sql:14`: `ON CONFLICT … DO UPDATE`. -/
def mergeSpending (a b : Spending) : Spending where
  cny := a.cny + b.cny
  requests := a.requests + b.requests
  unpriced := a.unpriced + b.unpriced
  codexCny := a.codexCny + b.codexCny
  codexRequests := a.codexRequests + b.codexRequests
  codexUnpriced := a.codexUnpriced + b.codexUnpriced
  inputTokens := mergeTokens a.inputTokens b.inputTokens
  outputTokens := mergeTokens a.outputTokens b.outputTokens
  missingTokens := a.missingTokens + b.missingTokens

/-- `account_spending_increment.sql`: an entry for the request, counted in its hour only
when it is new. -/
def incrementSpending (s : PgStore) (id : Uuid) (entry : SpendingEntry) : PgStore :=
  if id ∈ s.entries then s
  else { s with
    entries := s.entries.insert id entry
    spending := accumulate mergeSpending s.spending (entry.accountId, hourOf entry.finishedAt)
      (spendingShare entry) }

/-- The record as `finish_request` stores it: with an instant at which it finished. -/
def stamped (now : Nat) (r : RequestRecord) : RequestRecord :=
  { r with finishedAt := some (r.finishedAt.getD now) }

/-- `requests.rs:64–91`: the effects of finishing an unfinished row. -/
def bill (s : PgStore) (now : Nat) (r : RequestRecord) (row : Row) : PgStore :=
  let finishedAt := r.finishedAt.getD now
  let s := { s with
    rows := s.rows.insert r.id
      ⟨r.accountId, r.state, row.createdAt, some finishedAt, r, .full⟩
    hourly := accumulate mergeHourly s.hourly (hourlyKey r) (hourlyShare r)
    billed := s.billed ++ [stamped now r] }
  let s := match r.accountId with
    | none => s
    | some accountId => s.incrementSpending r.id (spendingEntry r accountId finishedAt)
  s.appendEvent (gatewayEvent "request_finished" r.id now)

/-- `requests.rs:56`. -/
def finishRequest (s : PgStore) (now : Nat) (r : RequestRecord) : Result PgStore :=
  match s.unfinished r.id with
  | none => .ok s
  | some row => if 2 ^ 63 ≤ r.usage.searchCalls then .error .storage else .ok (s.bill now r row)

/-- The events that keep a request's details: its delivery was cut off or it was recovered. -/
def keepsDetail (id : Uuid) (event : AuditEvent) : Bool :=
  event.requestId == some id &&
    (event.kind == "delivery_interrupted" || event.kind == "encrypted_reasoning_recovery")

/-- The diagnostic events that a summary drops. -/
def isDiagnostic (id : Uuid) (event : AuditEvent) : Bool :=
  event.requestId == some id && event.actor == "gateway" &&
    (event.kind == "request_rewritten" || event.kind == "dispatched" ||
      event.kind == "upstream_attempt_headers")

/-- `requests.rs:104`. -/
def summarizeRequest (s : PgStore) (r : RequestRecord) : PgStore :=
  if !r.summaryOnly then s
  else
    match (s.rows.lookup r.id).filter fun row ↦ row.state == .completed &&
        row.finishedAt.isSome && row.detailLevel == .full &&
        !s.events.any (keepsDetail r.id) with
    | none => s
    | some row =>
      { s with
        rows := s.rows.insert r.id { row with detailLevel := .summary }
        events := s.events.filter (!isDiagnostic r.id ·) }

/-- `requests.rs:125–140`: the record a restart finishes an unfinished row with. -/
def interrupted (now : Nat) (r : RequestRecord) : RequestRecord :=
  { r with
    finishedAt := some now
    state := .interrupted
    errorCode := some "process_interrupted"
    errorMessage :=
      some "Process exited before a final outcome was persisted; request was not replayed"
    totalMs := some ((now - r.createdAt) / 1000)
    usage := { r.usage with complete := false }
    valuation :=
      if r.kind = .search then some (valueSearch r.usage.searchCalls r.searchPrice)
      else r.valuation }

/-- Finish records one after the other, with the outcome of each; the first that does not
succeed ends it. -/
def finishAll (now : Nat) : PgStore → List RequestRecord → List Outcome → PgStore × Bool
  | s, [], _ => (s, true)
  | s, r :: rest, outcomes =>
    match settle (outcomes.headD .answered) s (s.finishRequest now r) with
    | (s, .ok ()) => finishAll now s rest outcomes.tail
    | (s, .error _) => (s, false)

/-- `requests.rs:119`, and whether it came to its end. -/
def reconcileInterrupted (s : PgStore) (now : Nat) (outcomes : List Outcome) : PgStore × Bool :=
  s.finishAll now
    ((s.rows.values.filter (·.finishedAt.isNone)).map fun row ↦ interrupted now row.data) outcomes

/-- `requests.rs:347`, with the retention in days of requests. -/
def cleanup (s : PgStore) (now retentionDays : Nat) : PgStore :=
  let cutoff := hourOf (now - 31 * 86400000000)
  { s with
    entries := s.entries.filter fun _ e ↦ decide (cutoff ≤ hourOf e.finishedAt)
    spending := s.spending.filter fun k _ ↦ decide (cutoff ≤ k.2)
    rows := s.rows.filter fun _ row ↦
      !(row.finishedAt.isSome && decide (row.createdAt < now - retentionDays * 86400000000))
    events := s.events.filter fun event ↦
      !(event.requestId.isSome && decide (event.instant < now - retentionDays * 86400000000))
    expired := max s.expired cutoff }

end PgStore
end Xxgate.Store

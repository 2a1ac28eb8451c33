import Xxgate.Gateway.Execute

/-!
# Following a request

What the calls and replies of a request say about it: the ticket and the lease it holds, the
permits it was given, the attempts it made and what came of them. The monitor says which
call is in order when, and the blocks of `execute` and its epilogue keep to it whatever the
replies are and wherever the execution is dropped.
-/

namespace Xxgate.Gateway

open Xxgate.Base Xxgate.Core Xxgate.Scheduling
open Coroutine

/-- One call of `send_once`, and what was answered so far. -/
structure Attempt where
  lease : DispatchLease
  prepared : PreparedRequest
  status : Option Nat
  errorBody : Option (Option Json)
  events : List GatewayEvent

/-- What became of the last `commit_binding`. -/
inductive Commit where
  | none
  | done
  | failed
  deriving DecidableEq

/-- What is known of a request from its calls and replies. -/
structure Progress where
  ticket : Bool
  /-- Its turn did not come: the wait or the second enqueueing failed. -/
  failed : Bool
  lease : Option DispatchLease
  commit : Commit
  /-- Successful `begin_send` and `begin_encrypted_reasoning_recovery`. -/
  permits : Nat
  /-- Newest first. -/
  attempts : List Attempt
  /-- The safety guard refused it. -/
  refused : Bool
  /-- `begin_request` was called. -/
  recorded : Bool
  /-- `begin_request` succeeded. -/
  admitted : Bool
  finished : Bool
  paused : Bool
  /-- The decoder panicked. -/
  panicked : Bool

/-- Nothing has happened. -/
def Progress.none : Progress :=
  ⟨false, false, .none, .none, 0, [], false, false, false, false, false, false⟩

/-- `start` went through. -/
def Progress.admission : Progress :=
  ⟨true, false, .none, .none, 0, [], false, true, true, false, false, false⟩

namespace Progress

/-- Change what is known of the newest attempt. -/
def answer (φ : Progress) (f : Attempt → Attempt) : Progress :=
  { φ with attempts := φ.attempts.modifyHead f }

/-- What a free reply tells. -/
def consulted (φ : Progress) : (q : Consult) → q.Reply → Progress
  | .headers, .ok status => φ.answer fun a ↦ { a with status := some status }
  | .errorBody, .ok body => φ.answer fun a ↦ { a with errorBody := some body }
  | .decode, .ok events => φ.answer fun a ↦ { a with events := a.events ++ events }
  | .decode, .error .panic => { φ with panicked := true }
  | _, _ => φ

/-- What a call and its reply tell. -/
def next (φ : Progress) : (c : Call) → c.Reply → Progress
  | .consult q, r => φ.consulted q r
  | .enqueue .., r => if r.isOk then { φ with ticket := true } else { φ with failed := true }
  | .wait, .lease lease => { φ with ticket := false, lease := some lease, commit := .none }
  | .wait, .failed _ => { φ with ticket := false, failed := true }
  | .wait, .heartbeat => φ
  | .dropTicket, _ => { φ with ticket := false }
  | .account _, _ => φ
  | .confirmStateless, r => if r.isOk then { φ with lease := φ.lease.map settled } else φ
  | .confirmBinding, _ => { φ with lease := φ.lease.map settled, commit := .none }
  | .beginSend, r => if r.isOk then { φ with permits := φ.permits + 1 } else φ
  | .beginEncryptedReasoningRecovery, r =>
    if r.isOk then { φ with permits := φ.permits + 1 } else φ
  | .dropLease, _ => { φ with lease := .none }
  | .setPaused, _ => { φ with paused := true }
  | .safetyCheck _, r => if r.isOk then φ else { φ with refused := true }
  | .safetyRestore .., _ => φ
  | .safetyRemember .., _ => φ
  | .sendOnce prepared, _ =>
    { φ with attempts :=
        (φ.lease.map fun l ↦ ⟨l, prepared, .none, .none, []⟩).toList ++ φ.attempts }
  | .commitBinding .., r => { φ with commit := if r.isOk then .done else .failed }
  | .sessionBindings _, _ => φ
  | .safetyRejection _, _ => φ
  | .saveSafetyRejection .., _ => φ
  | .beginRequest _, r => { φ with recorded := true, admitted := r.isOk }
  | .updateRequest _, _ => φ
  | .finishRequest _, r => if r.isOk then { φ with finished := true } else φ
  | .summarizeRequest _, _ => φ
  | .appendEvent _, _ => φ

/-- The attempts a record shows: the permits taken, or the sends when the safety guard
refused the last of them. -/
def shown (φ : Progress) : Nat := if φ.refused then φ.attempts.length else φ.permits

end Progress

/-! ### A rejected attempt -/

/-- The attempt was rejected for its encrypted content, in an error response or by an event
received while nothing but control events had come; `repaired` is the request cleaned of
what was rejected. -/
def Attempt.Rejected (a : Attempt) (kind : RequestKind) (repaired : PreparedRequest) : Prop :=
  (∃ body changes, a.status = some 400 ∧ a.errorBody = some body ∧
      Codex.prepare kind a.prepared 400 body = .ok (some (repaired, changes))) ∨
    (∃ before event after error changes, kind = .responses ∧
      Codex.hasRecoverableInput a.prepared = true ∧ a.events = before ++ event :: after ∧
      (∀ e ∈ before, Codex.recoveryPreamble e.received = true) ∧
      Codex.encryptedRejection event.received = some error ∧
      Codex.clean a.prepared error = .ok (some (repaired, changes)))

/-- No attempt was made yet, or one that was rejected and `repaired` is to follow, over the
same lease. -/
def MayFollow (kind : RequestKind) (attempts : List Attempt) (lease : DispatchLease)
    (repaired : PreparedRequest) : Prop :=
  attempts = [] ∨ ∃ a, attempts = [a] ∧ a.lease = lease ∧ a.Rejected kind repaired

/-! ### The monitor -/

/-- The record to be finished shows what happened. -/
structure Records (job : Job) (φ : Progress) (r : RequestRecord) : Prop where
  id : r.id = job.id
  attempts : r.upstreamAttempts = φ.shown
  valuation : ∃ v, r.valuation = some v ∧
    (v.status = .notExecuted ↔ r.upstreamAttempts = 0) ∧
    (r.upstreamAttempts = 0 → v.cny = some 0)

/-- What the state of an execution shows of what happened. -/
structure Shown (job : Job) (s : Execution) (φ : Progress) : Prop where
  id : s.record.id = job.id
  key : s.record.keyId = job.key.id
  attempts : s.record.upstreamAttempts = φ.shown
  finalized : s.finalized = true → φ.finished = true
  panicked : s.panicked = true → φ.panicked = true

/-- The call is in its place. -/
def InOrder (job : Job) (φ : Progress) : Call → Prop
  | .enqueue thread .. =>
    φ.ticket = false ∧ φ.lease = none ∧ φ.permits = 0 ∧ thread = threadOf job.key job.request
  | .wait => φ.ticket = true ∧ φ.lease = none ∧ φ.permits = 0
  | .confirmStateless => φ.lease.isSome = true
  | .confirmBinding =>
    (∃ l, φ.lease = some l ∧ l.needsCommit = true) ∧ φ.commit ≠ .none
  | .beginSend => φ.lease.isSome = true ∧ φ.permits = 0 ∧ φ.attempts.length = 0
  | .beginEncryptedReasoningRecovery =>
    φ.lease.isSome = true ∧ φ.permits = 1 ∧ φ.attempts.length = 1
  | .dropLease => φ.permits = 0
  | .setPaused => φ.commit = .failed
  | .sendOnce prepared =>
    ∃ l, φ.lease = some l ∧ φ.permits = φ.attempts.length + 1 ∧
      MayFollow job.request.kind φ.attempts l prepared
  | .commitBinding binding expected =>
    φ.commit = .none ∧ ∃ l, φ.lease = some l ∧ l.needsCommit = true ∧ binding = l.binding ∧
      expected = l.expectedGeneration
  | .finishRequest r => Records job φ r
  | .dropTicket | .beginRequest _ => False
  | _ => True

/-- The calls of the epilogue. -/
def InOrderAfter (job : Job) (φ : Progress) : Call → Prop
  | .finishRequest r => Records job φ r
  | .consult _ | .dropLease | .dropTicket | .setPaused | .saveSafetyRejection ..
  | .summarizeRequest _ | .appendEvent _ => True
  | _ => False

/-- A request on its way: it was not refused, a commit was taken up, and the record shows
what happened. -/
structure Steady (job : Job) (s : Execution) (φ : Progress) : Prop where
  unrefused : φ.refused = false
  commit : φ.commit ≠ .done
  shown : Shown job s φ

/-- A request before its permit. -/
structure Unsent (job : Job) (s : Execution) (φ : Progress) : Prop extends Steady job s φ where
  ticket : s.ticket = false
  permits : φ.permits = 0
  attempts : φ.attempts = []

/-- While a stream is buffered, its one attempt sent a request that could be cleaned, and
nothing but control events came before the events still to be taken. -/
def Buffered (job : Job) (st : StreamState) (φ : Progress) (events : List GatewayEvent) : Prop :=
  st.buffering = true → ∃ a before, φ.attempts = [a] ∧ a.lease = st.lease ∧
    a.prepared = st.prepared ∧ job.request.kind = .responses ∧
    Codex.hasRecoverableInput a.prepared = true ∧ a.events = before ++ events ∧
    ∀ e ∈ before, Codex.recoveryPreamble e.received = true

/-- A request whose answer is a stream with `events` still to be taken. -/
structure Streaming (job : Job) (st : StreamState) (events : List GatewayEvent) (s : Execution)
    (φ : Progress) : Prop extends Steady job s φ where
  held : φ.lease = some st.lease
  permits : φ.permits = φ.attempts.length
  sentAttempts : st.sentAttempts = φ.attempts.length
  buffered : Buffered job st φ events

/-- Where a block may begin. -/
def Entry (job : Job) (s : Execution) (φ : Progress) : Label → Prop
  | .select | .reserve =>
    Steady job s φ ∧ φ.permits = 0 ∧ φ.attempts = [] ∧ φ.lease = none ∧ s.ticket = φ.ticket
  | .wait => Unsent job s φ ∧ φ.lease = none ∧ φ.ticket = true
  | .attempt lease prepared sentAttempts =>
    Steady job s φ ∧ φ.lease = some lease ∧ φ.permits = φ.attempts.length + 1 ∧
      sentAttempts = φ.attempts.length ∧ MayFollow job.request.kind φ.attempts lease prepared
  | .unary _ => Steady job s φ
  | .stream st => Streaming job st [] s φ
  | .events st events => Streaming job st events s φ

/-- The monitor of a request's task. -/
def monitor (job : Job) : Monitor Execution Call Call.Reply Label Progress where
  next := Progress.next
  allowed φ s c :=
    φ.refused = false ∧ (φ.commit = .done → c = .confirmBinding) ∧
      (c.isAwait = true → Shown job s φ) ∧ InOrder job φ c
  entry φ s l := Entry job s φ l
  exit φ := φ.commit ≠ .done
  closing φ _ c := InOrderAfter job φ c

/-- The record was finished, or dispatch was paused. -/
def Settled (φ : Progress) : Prop := φ.finished = true ∨ φ.paused = true

/-- What holds once the task is through. -/
def Through (_ : Except Error Unit) (_ : Execution) (φ : Progress) : Prop :=
  φ.panicked = true ∨ Settled φ

/-! ### Admission -/

/-- `start` drew its ticket. -/
def Progress.enqueued : Progress := { Progress.none with ticket := true }

/-- The monitor of a handler. -/
def startMonitor (id : Uuid) (key : GatewayKey) (request : GatewayRequest) :
    Monitor Unit Call Call.Reply Empty Progress where
  next := Progress.next
  allowed φ _ c :=
    match c with
    | .enqueue thread .. => φ = .none ∧ thread = threadOf key request
    | .beginRequest r => φ = .enqueued ∧ r.id = id
    | .consult _ | .safetyCheck _ | .safetyRestore .. | .safetyRejection _ => True
    | _ => False
  entry := fun _ _ l ↦ l.elim
  exit _ := True
  closing _ _ c := c = .dropTicket

/-- A handler that went through leaves a request that may begin, admitted under its id. -/
def HandedOver (id : Uuid) (key : GatewayKey) (request : GatewayRequest) :
    Except Error (Job × Execution) → Unit → Progress → Prop
  | .ok (job, execution), _, φ =>
    φ = .admission ∧ job.id = id ∧ job.key = key ∧ job.request = request ∧
      Entry job execution .admission .select
  | .error _, _, _ => True

end Xxgate.Gateway

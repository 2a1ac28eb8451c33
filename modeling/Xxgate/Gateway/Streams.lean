import Xxgate.Gateway.Routine
import Xxgate.Gateway.Watched

/-!
# What a streaming client is sent

The events of an attempt are decoded, held back while the attempt may still be repeated, and
sent. Here is what the calls of a request tell about that, and the monitor that lets a
document out only where it is the next one of the attempt, and a recovery begin only while
nothing but a few small control events came.
-/

namespace Xxgate.Gateway

open Xxgate.Base Xxgate.Base.FiniteMap Xxgate.Core Xxgate.Scheduling
open Coroutine

/-- The events up to the first one that ends the stream, with it. -/
def throughTerminal : List GatewayEvent → List GatewayEvent
  | [] => []
  | event :: rest =>
    if Codex.isTerminal event.received then [event] else event :: throughTerminal rest

/-- Events before the last one are all passed on. -/
theorem throughTerminal_append {before : List GatewayEvent}
    (h : ∀ e ∈ before, Codex.isTerminal e.received = false) (rest : List GatewayEvent) :
    throughTerminal (before ++ rest) = before ++ throughTerminal rest := by
  induction before with
  | nil => rfl
  | cons event before ih =>
    obtain ⟨hevent, hbefore⟩ := List.forall_mem_cons.mp h
    rw [List.cons_append, throughTerminal, hevent, if_neg Bool.false_ne_true, ih hbefore]
    rfl

/-- What comes after the events only adds to what is handed on of them. -/
theorem throughTerminal_prefix (events more : List GatewayEvent) :
    throughTerminal events <+: throughTerminal (events ++ more) := by
  induction events with
  | nil => exact List.nil_prefix
  | cons event rest ih =>
    rw [List.cons_append, throughTerminal, throughTerminal]
    split
    · exact List.prefix_rfl
    · exact (List.prefix_cons_inj event).mpr ih

/-- An event that can be held back does not end the stream. -/
theorem recoveryPreamble_not_terminal {event : Json}
    (h : Codex.recoveryPreamble event = true) : Codex.isTerminal event = false := by
  have hkind := (Bool.and_eq_true_iff.mp (Bool.and_eq_true_iff.mp
    (Bool.and_eq_true_iff.mp h).1).1).1
  unfold Codex.isTerminal
  unfold Json.hasType at hkind ⊢
  cases hk : (event.get "type").bind Json.asStr with
  | none => rfl
  | some kind =>
    rw [hk] at hkind
    simp only [Option.some_beq_some, Bool.or_eq_true, beq_iff_eq] at hkind
    obtain (rfl | rfl) | rfl := hkind
    · rfl
    · rfl
    · rfl

/-! ### What is known -/

/-- What the attempts of a request were answered, newest first, and whether another is due;
how often quota was observed since the last send, once with the headers and once with each
event that was taken; what was encoded since then, with its size; and what the client was sent
of it all. -/
structure Passed where
  attempts : List (List GatewayEvent)
  recovering : Bool
  observations : Nat
  encoded : List (Json × Nat)
  sent : List Json

namespace Passed

/-- Nothing has happened. -/
def none : Passed := ⟨[], false, 0, [], []⟩

/-- The events the client may be sent: those of the last attempt, or none while another one
is due. -/
def events (φ : Passed) : List GatewayEvent :=
  if φ.recovering then [] else φ.attempts.head?.getD []

/-- What a free reply tells. -/
def consulted (φ : Passed) : (q : Consult) → q.Reply → Passed
  | .decode, .ok events => { φ with attempts := φ.attempts.modifyHead (· ++ events) }
  | .applyQuotaObservation _, _ => { φ with observations := φ.observations + 1 }
  | .encode document, .ok size => { φ with encoded := φ.encoded ++ [(document, size)] }
  | .deliver (.document document), .ok () => { φ with sent := φ.sent ++ [document] }
  | _, _ => φ

/-- What a call and its reply tell. -/
def next (φ : Passed) : (c : Call) → c.Reply → Passed
  | .consult q, r => φ.consulted q r
  | .beginEncryptedReasoningRecovery, .ok () => { φ with recovering := true }
  | .sendOnce _, _ =>
    { φ with
      attempts := [] :: φ.attempts
      recovering := false
      observations := 0
      encoded := [] }
  | _, _ => φ

/-- What is known after a trace, newest first. -/
def after : List (Sigma Call.Reply) → Passed
  | [] => none
  | ⟨c, r⟩ :: trace => (after trace).next c r

/-- What the client of the last attempt was sent ends with the event that ends the stream. -/
def Complete (φ : Passed) : Prop :=
  φ.sent = (throughTerminal φ.events).map (·.document) ∧
    ∃ event, (throughTerminal φ.events).getLast? = some event ∧
      Codex.isTerminal event.received = true

/-- The events taken so far are few and small control events that were all encoded to be held
back. -/
structure Controls (φ : Passed) (taken : List GatewayEvent) : Prop where
  encoded : φ.encoded.map (·.1) = taken.map (·.document)
  control : ∀ e ∈ taken, Codex.recoveryPreamble e.received = true
  few : taken.length ≤ 16
  small : (φ.encoded.map (·.2)).sum ≤ 65536

/-- The request may be repeated: one attempt was made, nothing of it was sent, and what was
taken of it are a few small control events. -/
structure Recoverable (φ : Passed) : Prop where
  unsent : φ.sent = []
  idle : φ.recovering = false
  first : φ.attempts = [φ.events]
  controls : ∃ taken rest, φ.events = taken ++ rest ∧ φ.observations = taken.length + 1 ∧
    φ.Controls taken

/-- The second attempt is due, and nothing of the first was sent. -/
structure Due (φ : Passed) : Prop where
  unsent : φ.sent = []
  recovering : φ.recovering = true
  second : φ.attempts.length = 1

end Passed

/-- Calls that neither send a request, nor bring, take, encode or deliver a part of its
answer. -/
def Call.isAside : Call → Bool
  | .sendOnce _ | .beginEncryptedReasoningRecovery | .consult .decode | .consult (.encode _)
  | .consult (.deliver (.document _)) | .consult (.applyQuotaObservation _) => false
  | _ => true

/-- A call aside changes nothing of what is known. -/
theorem Passed.next_of_aside (φ : Passed) {c : Call} (h : c.isAside = true) (r : c.Reply) :
    φ.next c r = φ := by
  cases c with
  | consult q =>
    show φ.consulted q r = φ
    unfold Passed.consulted
    split
    · cases h
    · cases h
    · cases h
    · cases h
    · rfl
  | sendOnce | beginEncryptedReasoningRecovery => cases h
  | _ => rfl

/-- Routine calls are calls aside. -/
theorem isAside_of_isRoutine {c : Call} (h : c.isRoutine = true) : c.isAside = true := by
  unfold Call.isAside
  split
  all_goals first | cases h | rfl

/-! ### The monitor -/

/-- The call is in its place. -/
def InPlace (φ : Passed) : Call → Prop
  | .sendOnce _ => φ = .none ∨ φ.Due
  | .beginEncryptedReasoningRecovery => φ.Recoverable
  | .consult (.deliver (.document document)) =>
    φ.sent ++ [document] <+: (throughTerminal φ.events).map (·.document)
  | _ => True

/-- Where the request says that its last event was delivered to a streaming client, it was. -/
def Delivered (job : Job) (s : Execution) (φ : Passed) : Prop :=
  s.terminalDelivered = true → job.request.stream = true → job.request.kind.isUnary = false →
    φ.Complete

/-- What was taken of the events and is held back. -/
structure Held (st : StreamState) (taken : List GatewayEvent) (φ : Passed) : Prop extends
    φ.Controls taken where
  first : φ.attempts = [φ.events]
  preamble : st.preamble = taken.map (·.document)
  bytes : (φ.encoded.map (·.2)).sum = st.preambleBytes

/-- A stream of which some events are taken and some are still to be taken: the taken ones are
held back, or a streaming client was sent those in `sent`. -/
structure Taking (job : Job) (st : StreamState) (taken sent rest : List GatewayEvent)
    (φ : Passed) : Prop where
  attempted : φ.attempts ≠ []
  idle : φ.recovering = false
  events : φ.events = taken ++ rest
  held : st.buffering = true → Held st taken φ
  goesOn : ∀ e ∈ sent, Codex.isTerminal e.received = false
  sent : φ.sent = if job.request.stream && !st.buffering then sent.map (·.document) else []

/-- A stream between two events, with all that was taken seen to. -/
structure Between (job : Job) (st : StreamState) (taken rest : List GatewayEvent) (φ : Passed) :
    Prop extends Taking job st taken taken rest φ where
  observed : φ.observations = taken.length + 1

/-- Where a block may begin. -/
def Begins (job : Job) (s : Execution) (φ : Passed) : Label → Prop
  | .select | .reserve | .wait => φ = .none ∧ s.terminalDelivered = false
  | .attempt .. =>
    (φ = .none ∨ φ.Due) ∧ s.terminalDelivered = false ∧
      s.record.upstreamAttempts = φ.attempts.length + 1
  | .unary _ => job.request.kind.isUnary = true
  | .stream st => s.terminalDelivered = false ∧ ∃ taken, Between job st taken [] φ
  | .events st events => s.terminalDelivered = false ∧ ∃ taken, Between job st taken events φ

/-- The monitor of what a request passes on. -/
def passing (job : Job) : Monitor Execution Call Call.Reply Label Passed where
  next := Passed.next
  allowed φ s c := Delivered job s φ ∧ InPlace φ c
  entry φ s l := Begins job s φ l
  exit _ := True
  closing _ _ c := c.isAside = true

variable {job : Job} {s : Execution} {φ : Passed}

/-- Where the request does not say so yet, nothing is claimed. -/
theorem delivered_of_not (h : s.terminalDelivered = false) : Delivered job s φ := by
  intro ht
  cases h.symm.trans ht

/-- Calls aside may be made anywhere. -/
theorem inPlace_of_aside {c : Call} (h : c.isAside = true) : InPlace φ c := by
  unfold InPlace
  split
  · cases h
  · cases h
  · cases h
  · trivial

/-- A call aside may be made where nothing wrong is claimed, and changes nothing. -/
theorem aside_keeps {K : Execution → Passed → Prop} (hK : ∀ s φ, K s φ → Delivered job s φ)
    {c : Call} (hc : c.isAside = true) : (passing job).Keeps K c := by
  intro s φ h
  refine ⟨⟨hK s φ h, inPlace_of_aside hc⟩, fun r ↦ ?_⟩
  rw [show (passing job).next φ c r = φ from φ.next_of_aside hc r]
  exact h

/-- Something known of a request that is not through. -/
structure Still (K : Passed → Prop) (s : Execution) (φ : Passed) : Prop where
  undelivered : s.terminalDelivered = false
  known : K φ

/-- Of a request that is not through nothing wrong is claimed. -/
theorem Still.delivered {K : Passed → Prop} (h : Still K s φ) : Delivered job s φ :=
  delivered_of_not h.undelivered

/-- A call aside keeps what is known. -/
theorem still_keeps {K : Passed → Prop} {c : Call} (hc : c.isAside = true) :
    (passing job).Keeps (Still K) c :=
  aside_keeps (fun _ _ h ↦ h.delivered) hc

/-- What is known survives the routine of a request. -/
theorem still_routine (K : Passed → Prop) : Routine (passing job) (Still K) where
  calls := fun _ hc ↦ still_keeps (isAside_of_isRoutine hc)
  states := fun _ _ _ hs h ↦ ⟨hs.terminalDelivered.trans h.undelivered, h.known⟩

/-- A call aside leaves it to the rest to keep to the monitor. -/
theorem Still.allows {K : Passed → Prop} (h : Still K s φ) {c : Call} (hc : c.isAside = true) :
    (passing job).allowed φ s c :=
  ⟨h.delivered, inPlace_of_aside hc⟩

/-- Observing a rejection keeps what is known. -/
theorem observeSafetyRejection_still (K : Passed → Prop) (error : Error) :
    (observeSafetyRejection error : Run Label Unit).Stays (passing job) (Still K) :=
  observeSafetyRejection_stays (fun _ _ ↦ still_keeps rfl)
    (fun _ _ _ h ↦ ⟨h.undelivered, h.known⟩) error

end Xxgate.Gateway

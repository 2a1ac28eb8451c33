import Xxgate.Base.Stays
import Xxgate.Gateway.Execute

/-!
# Parts of an execution that keep something

Most calls of an execution are routine: what is said of permits, sends, rejections and
deliveries does not depend on them. `Routine` says that a monitor and something known are
indifferent to such calls; the lemmas below say it of the parts of an execution, which make
routine calls and the others they name.
-/

namespace Xxgate.Gateway

open Xxgate.Base Xxgate.Core Xxgate.Scheduling
open Coroutine

/-- Calls that are neither about a permit, a send, the safety of a session or the end of a
request, nor bring, take, encode or deliver an answer of the upstream. -/
def Call.isRoutine : Call → Bool
  | .beginSend | .beginEncryptedReasoningRecovery | .sendOnce _ | .safetyCheck _
  | .safetyRemember .. | .finishRequest _ | .consult (.httpError ..) | .consult .decode
  | .consult (.encode _) | .consult (.deliver (.document _))
  | .consult (.applyQuotaObservation _) => false
  | _ => true

/-- What the safety guard is asked with is the same, and the end is as far as it was. -/
structure Execution.Same (s s' : Execution) : Prop where
  rejection : s'.safetyRejection = s.safetyRejection
  stateless : s'.record.stateless = s.record.stateless
  session : safetySession s'.record = safetySession s.record
  terminalDelivered : s'.terminalDelivered = s.terminalDelivered

variable {L Φ : Type}

/-- Routine calls and changes of the state keep `K`. -/
structure Routine (M : Monitor Execution Call Call.Reply L Φ) (K : Execution → Φ → Prop) :
    Prop where
  calls : ∀ c, c.isRoutine = true → M.Keeps K c
  states : ∀ s s' φ, s.Same s' → K s φ → K s' φ

section Parts

variable {M : Monitor Execution Call Call.Reply L Φ} {K : Execution → Φ → Prop} {job : Job}

/-- Changing the record is routine. -/
theorem modifyRecord_stays (h : Routine M K) {f : RequestRecord → RequestRecord}
    (hf : ∀ s : Execution, s.Same { s with record := f s.record }) :
    (modifyRecord f : Run L Unit).Stays M K := by
  unfold modifyRecord
  apply Stays.update
  intro s φ hk
  exact h.states s _ φ (hf s) hk

/-- Checking the session stays where the check keeps the condition. -/
theorem checkSessionSafety_stays (hc : ∀ session, M.Keeps K (.safetyCheck session)) :
    (checkSessionSafety : Run L Unit).Stays M K := by
  unfold checkSessionSafety
  apply Stays.bind .read
  intro e
  split
  · exact .pure ()
  · exact .bind (.ask (hc _)) fun x ↦ .ok x

/-- Observing a rejection stays where it may be remembered. -/
theorem observeSafetyRejection_stays
    (hr : ∀ session error, M.Keeps K (.safetyRemember session error))
    (hs : ∀ s φ error, K s φ → K { s with safetyRejection := some error } φ) (error : Error) :
    (observeSafetyRejection error : Run L Unit).Stays M K := by
  unfold observeSafetyRejection
  apply Stays.bind .read
  intro e
  split
  · apply Stays.bind (.ask (hr _ error))
    intro _
    exact .update fun s φ hk ↦ hs s φ error hk
  · exact .pure ()

/-- Looking the model up is routine. -/
theorem currentModel_stays (h : Routine M K) (moment : String) :
    (currentModel job moment : Run L ModelSpec).Stays M K := by
  unfold currentModel
  apply Stays.bind (.ask (h.calls _ rfl))
  intro x
  apply Stays.bind (.ok x)
  intro models
  apply Stays.bind (.ok _)
  intro model
  split
  · exact .fail _
  · apply Stays.bind (.ask (h.calls _ rfl))
    intro x
    exact .bind (.ok x) fun _ ↦ .pure model

/-- Finishing a record leaves the session it is of alone. -/
theorem finished_same (job : Job) (now : Nat) (error : Option Error) (s : Execution) :
    s.Same { s with record := finished job now error s } := by
  refine ⟨rfl, ?_, ?_, rfl⟩
  · unfold finished valued
    dsimp only
    split
    · rfl
    · split <;> rfl
  · unfold finished valued safetySession
    dsimp only
    split
    · rfl
    · split <;> rfl

/-- Finalizing the record is routine. -/
theorem finalize_stays (h : Routine M K) (hf : ∀ r, M.Keeps K (.finishRequest r))
    (error : Option Error) : (finalize job error : Run L Unit).Stays M K := by
  unfold finalize
  apply Stays.bind (.ask (h.calls _ rfl))
  intro now
  apply Stays.bind (.update fun s φ hk ↦ h.states s _ φ (finished_same job now error s) hk)
  intro _
  apply Stays.bind .read
  intro e
  apply Stays.bind (.ask (hf _))
  intro x
  apply Stays.bind (.ok x)
  intro _
  exact .update fun s φ hk ↦ h.states s _ φ ⟨rfl, rfl, rfl, rfl⟩ hk

/-! ### Up to the permit -/

/-- Taking the ticket is routine. -/
theorem takeTicket_stays (h : Routine M K) : (takeTicket job : Run L Unit).Stays M K := by
  unfold takeTicket
  apply Stays.bind .read
  intro e
  split
  · exact .update fun s φ hk ↦ h.states s _ φ ⟨rfl, rfl, rfl, rfl⟩ hk
  · apply Stays.bind (.ok _)
    intro groupId
    exact .bind (.ask (h.calls _ rfl)) fun x ↦ .ok x

private theorem commitBinding_stays (h : Routine M K) (lease : DispatchLease) :
    (commitBinding lease : Run L Unit).Stays M K := by
  have hpause : ∀ error : Error, (do call .setPaused; fail error : Run L Unit).Stays M K := by
    intro error
    exact .bind (.ask (h.calls _ rfl)) fun _ ↦ .fail error
  unfold commitBinding
  apply Stays.bind (.ask (h.calls _ rfl))
  rintro (error | u)
  · apply Stays.bind (.ask (h.calls _ rfl))
    rintro (_ | bindings)
    · exact hpause error
    · dsimp only
      split
      · exact .ask (h.calls _ rfl)
      · exact hpause error
  · exact .ask (h.calls _ rfl)

private theorem confirm_stays (h : Routine M K) (lease : DispatchLease) :
    (confirm job lease : Run L DispatchLease).Stays M K := by
  unfold confirm
  split
  · apply Stays.bind (.ask (h.calls _ rfl))
    intro x
    exact .bind (.ok x) fun _ ↦ .pure _
  · split
    · exact .bind (commitBinding_stays h lease) fun _ ↦ .pure _
    · exact .pure lease

private theorem importAliases_stays (h : Routine M K) (lease : DispatchLease)
    (bindings : List Binding) : (importAliases lease bindings : Run L Unit).Stays M K := by
  induction bindings with
  | nil => exact .pure ()
  | cons previous rest ih =>
    unfold importAliases
    refine .bind (.doWhen ?_) fun _ ↦ ih
    exact .bind (.ask (h.calls _ rfl)) fun x ↦ .ok x

private theorem loadIdentities_stays (h : Routine M K) (lease : DispatchLease) :
    (loadIdentities job lease : Run L Unit).Stays M K := by
  unfold loadIdentities
  apply Stays.bind
  · apply Stays.doWhen
    exact .bind (.ask (h.calls _ rfl)) fun x ↦ .ok x
  · intro _
    apply Stays.doWhen
    apply Stays.bind (.ask (h.calls _ rfl))
    intro x
    exact .bind (.ok x) fun bindings ↦ importAliases_stays h lease bindings

/-- Choosing the price is routine. -/
theorem choosePrice_stays (h : Routine M K) : (choosePrice job : Run L Unit).Stays M K := by
  unfold choosePrice
  split
  · apply Stays.bind (.ask (h.calls _ rfl))
    intro x
    apply Stays.bind (.ok x)
    intro price
    apply modifyRecord_stays h
    intro s
    exact ⟨rfl, rfl, rfl, rfl⟩
  · apply Stays.bind (.ask (h.calls _ rfl))
    intro x
    apply Stays.bind (.ok x)
    intro prices
    exact .update fun s φ hk ↦ h.states s _ φ ⟨rfl, rfl, rfl, rfl⟩ hk

end Parts

section Blocks

variable {M : Monitor Execution Call Call.Reply Label Φ} {K : Execution → Φ → Prop} {job : Job}

/-- Giving the lease up is routine where the way back is open. -/
theorem giveUp_stays (h : Routine M K) (hr : M.Opens K .reserve) : giveUp.Stays M K := by
  unfold giveUp
  exact .bind (.ask (h.calls _ rfl)) fun _ ↦ .jump hr

private theorem prepareFor_stays (h : Routine M K) {lease : DispatchLease}
    (ht : ∀ prepared rewritten, (takePermit job lease prepared rewritten).Stays M K)
    (account : Account) : (prepareFor job lease account).Stays M K := by
  unfold prepareFor
  apply Stays.bind (currentModel_stays h "dispatch")
  intro model
  refine .bind (modifyRecord_stays h ?_) fun _ ↦ ?_
  · intro s
    exact ⟨rfl, rfl, rfl, rfl⟩
  apply Stays.bind (.ask (h.calls _ rfl))
  intro x
  apply Stays.bind (.ok x)
  rintro ⟨prepared, rewritten⟩
  apply Stays.bind
  · apply Stays.doWhen
    exact .bind (.ask (h.calls _ rfl)) fun x ↦ .ok x
  · intro _
    exact ht prepared rewritten

private theorem prepareRequest_stays (h : Routine M K) (hr : M.Opens K .reserve)
    {lease : DispatchLease}
    (ht : ∀ prepared rewritten, (takePermit job lease prepared rewritten).Stays M K) :
    (prepareRequest job lease).Stays M K := by
  unfold prepareRequest
  apply Stays.bind (.ask (h.calls _ rfl))
  intro x
  apply Stays.bind (.ok x)
  intro _
  apply Stays.bind (.ask (h.calls _ rfl))
  intro found
  apply Stays.bind (.ok _)
  intro account
  split
  · exact giveUp_stays h hr
  · exact prepareFor_stays h ht account

private theorem reserved_stays (h : Routine M K) (hr : M.Opens K .reserve)
    (hc : ∀ session, M.Keeps K (.safetyCheck session))
    (ht : ∀ lease prepared rewritten, (takePermit job lease prepared rewritten).Stays M K)
    (lease : DispatchLease) : (reserved job lease).Stays M K := by
  unfold reserved
  apply Stays.bind (checkSessionSafety_stays hc)
  intro _
  apply Stays.bind (confirm_stays h lease)
  intro lease'
  apply Stays.bind (loadIdentities_stays h lease')
  intro _
  exact prepareRequest_stays h hr (ht lease')

/-- Waiting for an account stays where the safety check and the permit do. -/
theorem waitForAccount_stays (h : Routine M K) (hr : M.Opens K .reserve) (hw : M.Opens K .wait)
    (hc : ∀ session, M.Keeps K (.safetyCheck session))
    (ht : ∀ lease prepared rewritten, (takePermit job lease prepared rewritten).Stays M K) :
    (waitForAccount job).Stays M K := by
  unfold waitForAccount
  apply Stays.bind (.ask (h.calls _ rfl))
  rintro (lease | error | _)
  · exact reserved_stays h hr hc ht lease
  · exact .fail error
  · refine .bind (.doWhen ?_) fun _ ↦ .jump hw
    exact .bind (.ask (h.calls _ rfl)) fun x ↦ .ok x

/-! ### Attempts -/

private theorem failWith_stays (h : Routine M K) (lease : DispatchLease) (disable : Bool)
    (error : Error) : (failWith lease disable error).Stays M K := by
  unfold failWith
  refine .bind (.doWhen ?_) fun _ ↦ .fail error
  exact .bind (.ask (h.calls _ rfl)) fun x ↦ .ok x

/-- What is left to do when the error of a response is known. -/
theorem errorResponse_stays (h : Routine M K) {lease : DispatchLease} {n : Nat}
    (hrec : ∀ repaired, (do beginRecovery job; jump (.attempt lease repaired n) :
      Run Label Unit).Stays M K)
    (hrej : ∀ status body, (rejected job lease status body).Stays M K) (prepared : PreparedRequest)
    (status : Nat) : (errorResponse job lease prepared n status).Stays M K := by
  unfold errorResponse
  apply Stays.bind (.ask (h.calls _ rfl))
  intro x
  apply Stays.bind (.ok x)
  intro body
  apply Stays.bind .read
  intro e
  apply Stays.bind (.ok _)
  rintro (_ | found)
  · exact hrej status body
  · exact hrec found.1

/-- What follows a send once its answer's status is there. -/
theorem answered_stays (h : Routine M K) (hl : ∀ l, M.Opens K l)
    (hq : ∀ id, M.Keeps K (.consult (.applyQuotaObservation id))) {lease : DispatchLease}
    {prepared : PreparedRequest} {n : Nat}
    (herr : ∀ status, (errorResponse job lease prepared n status).Stays M K) :
    (do
      let status ← ok (← consult .headers)
      modifyRecord fun r ↦ { r with upstreamStatus := some status }
      ok (← call (.appendEvent "upstream_attempt_headers"))
      ok (← consult (.applyQuotaObservation lease.account.id))
      if ¬(200 ≤ status ∧ status < 300) then errorResponse job lease prepared n status
      else if job.request.kind.isUnary then jump (.unary 0)
      else
        let e ← read
        jump (.stream
          { lease := lease
            prepared := prepared
            sentAttempts := n
            buffering := e.record.upstreamAttempts == 1 && Codex.hasRecoverableInput prepared
            preamble := []
            preambleBytes := 0 }) : Run Label Unit).Stays M K := by
  apply Stays.bind (.ask (h.calls _ rfl))
  intro x
  apply Stays.bind (.ok x)
  intro status
  refine .bind (modifyRecord_stays h ?_) fun _ ↦ ?_
  · intro s
    exact ⟨rfl, rfl, rfl, rfl⟩
  apply Stays.bind (.ask (h.calls _ rfl))
  intro x
  apply Stays.bind (.ok x)
  intro _
  apply Stays.bind (.ask (hq _))
  intro x
  apply Stays.bind (.ok x)
  intro _
  split
  · exact herr status
  · split
    · exact .jump (hl _)
    · exact .bind .read fun e ↦ .jump (hl _)

/-- A rejected response stays where reading its error and observing it do. -/
theorem rejected_stays (h : Routine M K)
    (hh : ∀ status body, M.Keeps K (.consult (.httpError status body)))
    (hobserve : ∀ error, (observeSafetyRejection error : Run Label Unit).Stays M K)
    (lease : DispatchLease) (status : Nat) (body : Option Json) :
    (rejected job lease status body).Stays M K := by
  unfold rejected
  apply Stays.bind (.ask (hh status body))
  rintro ⟨error, disable⟩
  apply Stays.bind (hobserve error)
  intro _
  refine .bind (.doWhen ?_) fun _ ↦ failWith_stays h lease disable error
  apply Stays.bind (.ask (h.calls _ rfl))
  intro x
  apply Stays.bind (.ok x)
  intro _
  apply modifyRecord_stays h
  intro s
  exact ⟨rfl, rfl, rfl, rfl⟩

/-! ### Answers -/

private theorem finishUnary_stays (h : Routine M K) (hf : ∀ r, M.Keeps K (.finishRequest r))
    (hend : ∀ s φ, K s φ → K { s with terminalDelivered := true } φ) :
    (finishUnary job : Run Label Unit).Stays M K := by
  unfold finishUnary
  apply Stays.bind (.ask (h.calls _ rfl))
  intro x
  apply Stays.bind (.ok x)
  rintro ⟨usage, responseModel⟩
  refine .bind (modifyRecord_stays h ?_) fun _ ↦ ?_
  · intro s
    exact ⟨rfl, rfl, rfl, rfl⟩
  apply Stays.bind (finalize_stays h hf none)
  intro _
  apply Stays.bind (.ask (h.calls _ rfl))
  intro x
  apply Stays.bind (.ok x)
  intro _
  exact .update hend

/-- Receiving a whole body stays where it may be finished and delivered. -/
theorem receiveUnary_stays (h : Routine M K) (hu : ∀ n, M.Opens K (.unary n))
    (hf : ∀ r, M.Keeps K (.finishRequest r))
    (hend : ∀ s φ, K s φ → K { s with terminalDelivered := true } φ) (size : Nat) :
    (receiveUnary job size).Stays M K := by
  unfold receiveUnary
  apply Stays.bind (.ask (h.calls _ rfl))
  rintro (_ | _ | _ | error | n)
  · exact .fail _
  · exact .jump (hu size)
  · exact finishUnary_stays h hf hend
  · exact .fail error
  · apply Stays.bind (.ask (h.calls _ rfl))
    intro limit
    split
    · exact .fail _
    · apply Stays.bind (.ask (h.calls _ rfl))
      intro x
      exact .bind (.ok x) fun _ ↦ .jump (hu _)

/-- Observing a list of events stays where observing one rejection does. -/
theorem observeEvents_stays
    (hobserve : ∀ error, (observeSafetyRejection error : Run Label Unit).Stays M K)
    (events : List GatewayEvent) : (observeEvents events : Run Label Unit).Stays M K := by
  induction events with
  | nil => exact .pure ()
  | cons event rest ih =>
    unfold observeEvents
    split
    · next error he => exact .bind (hobserve error) fun _ ↦ ih
    · exact ih

private theorem decoded_stays (h : Routine M K) (hl : ∀ l, M.Opens K l)
    (hobserve : ∀ error, (observeSafetyRejection error : Run Label Unit).Stays M K)
    (st : StreamState) (events : List GatewayEvent) : (decoded job st events).Stays M K := by
  unfold decoded
  apply Stays.bind (observeEvents_stays hobserve events)
  intro _
  refine .bind (.doWhen ?_) fun _ ↦ .jump (hl _)
  exact .bind (.ask (h.calls _ rfl)) fun x ↦ .ok x

private theorem unwind_stays (h : Routine M K) : (unwind : Run Label Unit).Stays M K :=
  .update fun s φ hk ↦ h.states s _ φ ⟨rfl, rfl, rfl, rfl⟩ hk

/-- Receiving a stream stays where decoding and observing do. -/
theorem receiveStream_stays (h : Routine M K) (hl : ∀ l, M.Opens K l)
    (hd : M.Keeps K (.consult .decode))
    (hobserve : ∀ error, (observeSafetyRejection error : Run Label Unit).Stays M K)
    (st : StreamState) : (receiveStream job st).Stays M K := by
  unfold receiveStream
  apply Stays.bind (.ask (h.calls _ rfl))
  rintro (_ | _ | _ | error | n)
  · exact .fail _
  · refine .bind (.doWhen ?_) fun _ ↦ .jump (hl _)
    exact .bind (.ask (h.calls _ rfl)) fun x ↦ .ok x
  · apply Stays.bind (.ask (h.calls _ rfl))
    intro x
    exact .bind (.ok x) fun _ ↦ .fail _
  · exact .fail error
  · apply Stays.bind (.ask (h.calls _ rfl))
    intro x
    apply Stays.bind (.ok x)
    intro _
    apply Stays.bind (.ask hd)
    rintro ((error | _) | events)
    · exact .fail error
    · exact unwind_stays h
    · exact decoded_stays h hl hobserve st events

/-! ### Events -/

variable (hquota : ∀ id, M.Keeps K (.consult (.applyQuotaObservation id)))
  (hdeliver : ∀ document, M.Keeps K (.consult (.deliver (.document document))))
  (hencode : ∀ document, M.Keeps K (.consult (.encode document)))

include hdeliver

private theorem deliverAll_stays (documents : List Json) :
    (deliverAll documents : Run Label Unit).Stays M K := by
  induction documents with
  | nil => exact .pure ()
  | cons document rest ih =>
    unfold deliverAll
    apply Stays.bind (.ask (hdeliver document))
    intro x
    exact .bind (.ok x) fun _ ↦ ih

include hencode

private theorem deliverDocument_stays (document : Json) :
    (deliverDocument document : Run Label Unit).Stays M K := by
  unfold deliverDocument
  apply Stays.bind (.ask (hencode document))
  intro x
  apply Stays.bind (.ok x)
  intro _
  exact .bind (.ask (hdeliver document)) fun x ↦ .ok x

private theorem hold_stays (h : Routine M K) (st : StreamState) (event : GatewayEvent) :
    (hold job st event : Run Label StreamState).Stays M K := by
  unfold hold
  split
  · apply Stays.bind (.ask (hencode event.document))
    intro x
    apply Stays.bind (.ok x)
    intro size
    split
    · apply Stays.bind (.ask (h.calls _ rfl))
      intro x
      exact .bind (.ok x) fun _ ↦ .pure _
    · apply Stays.bind (.doWhen (deliverAll_stays hdeliver st.preamble))
      intro _
      apply Stays.bind (.ask (h.calls _ rfl))
      intro x
      exact .bind (.ok x) fun _ ↦ .pure _
  · exact .pure st

private theorem finishStream_stays (h : Routine M K) (hf : ∀ r, M.Keeps K (.finishRequest r))
    (hend : ∀ s φ, K s φ → K { s with terminalDelivered := true } φ) (event : GatewayEvent) :
    (finishStream job event : Run Label Unit).Stays M K := by
  unfold finishStream
  apply Stays.bind (finalize_stays h hf event.error)
  intro _
  apply Stays.bind (.doWhen (deliverDocument_stays hdeliver hencode event.document))
  intro _
  refine .bind (.update hend) fun _ ↦ ?_
  cases event.error with
  | none => exact .pure ()
  | some error => exact .fail error

include hquota

omit hdeliver hencode in
private theorem observeAccount_stays (h : Routine M K) (lease : DispatchLease)
    (event : GatewayEvent) : (observeAccount lease event : Run Label Unit).Stays M K := by
  unfold observeAccount
  apply Stays.bind (.ask (hquota _))
  intro x
  apply Stays.bind (.ok x)
  intro _
  apply Stays.doWhen
  exact .bind (.ask (h.calls _ rfl)) fun x ↦ .ok x

omit hquota in
private theorem passOn_stays (h : Routine M K) (hl : ∀ l, M.Opens K l)
    (hf : ∀ r, M.Keeps K (.finishRequest r))
    (hend : ∀ s φ, K s φ → K { s with terminalDelivered := true } φ) (st : StreamState)
    (event : GatewayEvent) (rest : List GatewayEvent) :
    (passOn job st event rest).Stays M K := by
  unfold passOn
  split
  · exact finishStream_stays hdeliver hencode h hf hend event
  · apply Stays.bind (.doWhen (deliverDocument_stays hdeliver hencode event.document))
    intro _
    exact .jump (hl _)

private theorem observeEvent_stays (h : Routine M K) (hl : ∀ l, M.Opens K l)
    (hf : ∀ r, M.Keeps K (.finishRequest r))
    (hend : ∀ s φ, K s φ → K { s with terminalDelivered := true } φ)
    (st : StreamState) (event : GatewayEvent) (rest : List GatewayEvent) :
    (observeEvent job st event rest).Stays M K := by
  unfold observeEvent
  apply Stays.bind (hold_stays hdeliver hencode h st event)
  intro st'
  refine .bind (modifyRecord_stays h ?_) fun _ ↦ ?_
  · intro s
    exact ⟨rfl, rfl, rfl, rfl⟩
  apply Stays.bind (observeAccount_stays hquota h st'.lease event)
  intro _
  exact passOn_stays hdeliver hencode h hl hf hend st' event rest

/-- Taking events stays where a request may be finished and delivered. -/
theorem takeEvents_stays (h : Routine M K) (hl : ∀ l, M.Opens K l)
    (hf : ∀ r, M.Keeps K (.finishRequest r))
    (hend : ∀ s φ, K s φ → K { s with terminalDelivered := true } φ)
    {st : StreamState}
    (hrec : ∀ repaired, (do beginRecovery job; jump (.attempt st.lease repaired st.sentAttempts) :
      Run Label Unit).Stays M K) (events : List GatewayEvent) :
    (takeEvents job st events).Stays M K := by
  cases events with
  | nil =>
    unfold takeEvents
    apply Stays.bind (.ask (h.calls _ rfl))
    intro x
    exact .bind (.ok x) fun _ ↦ .jump (hl _)
  | cons event rest =>
    unfold takeEvents
    apply Stays.bind (.ok _)
    rintro (_ | found)
    · exact observeEvent_stays hquota hdeliver hencode h hl hf hend st event rest
    · exact hrec found.1

end Blocks

/-! ### The epilogue -/

section Epilogue

variable {M : Monitor Execution Call Call.Reply Empty Φ} {K : Execution → Φ → Prop}

private theorem settleRecord_stays (h : Routine M K) (hf : ∀ r, M.Keeps K (.finishRequest r))
    (job : Job) (error : Option Error) : (settleRecord job error).Stays M K := by
  unfold settleRecord
  apply Stays.bind .read
  intro e
  split
  · apply Stays.bind (.outcome (finalize_stays h hf error))
    rintro (x | u)
    · exact .ask (h.calls _ rfl)
    · exact .pure ()
  · apply Stays.doWhen
    exact .bind (.ask (h.calls _ rfl)) fun _ ↦ .pure ()

private theorem saveSafety_stays (h : Routine M K) (job : Job) : (saveSafety job).Stays M K := by
  unfold saveSafety
  apply Stays.bind .read
  intro e
  split
  · exact .pure ()
  · apply Stays.bind (.ask (h.calls _ rfl))
    rintro (x | u)
    · exact .ask (h.calls _ rfl)
    · exact .pure ()

private theorem summarize_stays (h : Routine M K) (error : Option Error) :
    (summarize error).Stays M K := by
  unfold summarize
  apply Stays.bind .read
  intro e
  apply Stays.doWhen
  exact .bind (.ask (h.calls _ rfl)) fun _ ↦ .pure ()

private theorem announce_stays (h : Routine M K) (job : Job) (error : Option Error) :
    (announce job error).Stays M K := by
  unfold announce
  apply Stays.bind .read
  intro e
  split
  · exact .pure ()
  · exact .bind (.ask (h.calls _ rfl)) fun _ ↦ .pure ()

private theorem conclude_stays (h : Routine M K) (hf : ∀ r, M.Keeps K (.finishRequest r))
    (job : Job) (error : Option Error) : (conclude job error).Stays M K := by
  unfold conclude
  apply Stays.bind (saveSafety_stays h job)
  intro _
  apply Stays.bind (settleRecord_stays h hf job error)
  intro _
  apply Stays.bind (summarize_stays h error)
  intro _
  exact announce_stays h job error

/-- The end of the task stays where the record may be finished. -/
theorem close_stays (h : Routine M K) (hf : ∀ r, M.Keeps K (.finishRequest r)) (job : Job)
    (x : Except Error Unit) : (close job x).Stays M K := by
  unfold close
  apply Stays.bind (.ask (h.calls _ rfl))
  intro _
  apply Stays.bind .read
  intro e
  apply Stays.bind (.doWhen (.ask (h.calls _ rfl)))
  intro _
  apply Stays.bind (.doWhen (conclude_stays h hf job (errorOf x)))
  intro _
  exact .ask (h.calls _ rfl)

end Epilogue
end Xxgate.Gateway

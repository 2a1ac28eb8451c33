import Xxgate.Gateway.Reserving

/-!
# From the permit to the response

The parts of a request's program that send it, recover it once, and take the response, kept
to the monitor under every reply.
-/

namespace Xxgate.Gateway

open Xxgate.Base Xxgate.Core Xxgate.Scheduling
open Coroutine

variable {job : Job} {s : Execution} {φ : Progress}

/-! ### Attempts -/

/-- The request made its newest attempt with this request over this lease. -/
structure Sent (job : Job) (l : DispatchLease) (p : PreparedRequest)
    (s : Execution) (φ : Progress) (a : Attempt) : Prop extends Steady job s φ where
  held : φ.lease = some l
  permits : φ.permits = φ.attempts.length
  newest : φ.attempts.head? = some a
  ofLease : a.lease = l
  ofPrepared : a.prepared = p

/-- A record that shows one attempt is that of a request with one attempt. -/
theorem Sent.first {l : DispatchLease} {p : PreparedRequest} {a : Attempt}
    (h : Sent job l p s φ a) (h1 : s.record.upstreamAttempts = 1) :
    φ.attempts = [a] ∧ φ.permits = 1 := by
  have hp : φ.permits = 1 := h.toSteady.permits.symm.trans h1
  have hn := h.newest
  have hlen : φ.attempts.length = 1 := h.permits ▸ hp
  obtain ⟨b, hb⟩ := List.length_eq_one_iff.mp hlen
  rw [hb] at hn ⊢
  cases hn
  exact ⟨rfl, hp⟩

private theorem beginRecovery_meets {Q : Except Error Unit → Execution → Progress → Prop}
    (h : Steady job s φ) (hl : φ.lease.isSome = true) (hp : φ.permits = 1)
    (ha : φ.attempts.length = 1)
    (hok : ∀ s', Steady job s' { φ with permits := φ.permits + 1 } →
      Q (.ok ()) s' { φ with permits := φ.permits + 1 })
    (herr : ∀ x s' φ', Fine job s' φ' → Q (.error x) s' φ') :
    (beginRecovery job : Run Label Unit).Meets (monitor job) s φ Q := by
  unfold beginRecovery modifyRecord
  simp only [meets_bind, meets_ask, meets_ok, meets_update, meets_read]
  refine ⟨h.allows trivial, ?_⟩
  rintro (x | u)
  · exact herr x _ _ h.fine
  · apply currentModel_meets h
    · intro model
      refine ⟨h.allows ⟨hl, hp, ha⟩, ?_⟩
      rintro (x | u)
      · exact herr x _ _ h.fine
      · have h' : Steady job { s with record := { s.record with
            upstreamAttempts := 2, upstreamStatus := none, responseModel := none, usage := {} } }
            { φ with permits := φ.permits + 1 } := by
          refine h.step rfl rfl rfl h.commit ?_ h.shown.finalized h.shown.panicked
          rw [hp]
        refine ⟨h'.allows trivial, ?_⟩
        rintro (x | u)
        · exact herr x _ _ h'.fine
        · exact hok _ h'
    · intro x
      exact herr x _ _ h.fine

private theorem observeSafetyRejection_meets {Q : Except Error Unit → Execution → Progress → Prop}
    (h : Steady job s φ) (error : Error)
    (hok : ∀ s', s'.record = s.record → Steady job s' φ → Q (.ok ()) s' φ) :
    (observeSafetyRejection error : Run Label Unit).Meets (monitor job) s φ Q := by
  unfold observeSafetyRejection
  simp only [meets_bind, meets_read]
  split
  · simp only [meets_bind, meets_ask, meets_update]
    refine ⟨h.allows trivial, ?_⟩
    intro u
    exact hok _ rfl ⟨h.unrefused, h.commit, h.shown.same rfl rfl rfl rfl rfl⟩
  · exact hok s rfl h

private theorem failWith_meets (h : Steady job s φ) (lease : DispatchLease) (disable : Bool)
    (error : Error) : (failWith lease disable error).Meets (monitor job) s φ (Ends job) := by
  unfold failWith
  simp only [meets_bind, meets_doWhen, meets_ask, meets_ok, meets_fail]
  split
  · refine ⟨h.allows trivial, ?_⟩
    rintro (x | u)
    · exact h.fine
    · exact h.fine
  · exact h.fine

private theorem rejected_meets (h : Steady job s φ) (lease : DispatchLease) (status : Nat)
    (body : Option Json) : (rejected job lease status body).Meets (monitor job) s φ (Ends job) := by
  unfold rejected modifyRecord
  simp only [meets_bind, meets_ask, meets_doWhen, meets_ok, meets_update]
  refine ⟨h.allows trivial, ?_⟩
  rintro ⟨error, disable⟩
  apply observeSafetyRejection_meets h
  intro s' _ h'
  dsimp only
  split
  · refine ⟨h'.allows trivial, ?_⟩
    rintro (x | u)
    · exact h'.fine
    · apply failWith_meets
      exact ⟨h'.unrefused, h'.commit, h'.shown.same rfl rfl rfl rfl rfl⟩
  · exact failWith_meets h' lease disable error

/-- A rejected first attempt is recovered over the same lease. -/
theorem recover_meets {l : DispatchLease} {p repaired : PreparedRequest} {a : Attempt}
    (h : Sent job l p s φ a) (h1 : s.record.upstreamAttempts = 1)
    (hr : a.Rejected job.request.kind repaired) :
    (do beginRecovery job; jump (.attempt l repaired 1) : Run Label Unit).Meets (monitor job)
      s φ (Ends job) := by
  obtain ⟨ha, hp⟩ := h.first h1
  rw [meets_bind]
  apply beginRecovery_meets h.toSteady (by rw [h.held]; rfl) hp (by rw [ha]; rfl)
  · intro s' h'
    refine ⟨h', h.held, ?_, ?_, .inr ⟨a, ha, h.ofLease, hr⟩⟩
    · dsimp only
      rw [hp, ha]
      rfl
    · dsimp only
      rw [ha]
      rfl
  · intro x s' φ' hf
    exact hf

/-- A recovery is prepared for a first attempt that was answered with status 400. -/
theorem httpRecovery_some {p repaired : PreparedRequest} {attempts status : Nat}
    {body : Option Json} {changes : EncryptedContentRecovery}
    (h : httpRecovery job p attempts status body = .ok (some (repaired, changes))) :
    attempts = 1 ∧ status = 400 ∧
      Codex.prepare job.request.kind p 400 body = .ok (some (repaired, changes)) := by
  unfold httpRecovery at h
  split at h
  · next h1 =>
    have hs : status = 400 := (Codex.prepare_some h).2.1
    exact ⟨h1, hs, hs ▸ h⟩
  · cases h

private theorem errorResponse_meets {l : DispatchLease} {p : PreparedRequest} {a : Attempt}
    (h : Sent job l p s φ a) {status sentAttempts : Nat} (hst : a.status = some status)
    (hsent : sentAttempts = φ.attempts.length) :
    (errorResponse job l p sentAttempts status).Meets (monitor job) s φ (Ends job) := by
  unfold errorResponse
  simp only [meets_bind, meets_ask, meets_ok, meets_read]
  refine ⟨h.allows trivial, ?_⟩
  rintro (x | body)
  · exact h.fine
  · have hlen : (φ.answer fun a ↦ { a with errorBody := some body }).attempts.length =
        φ.attempts.length := List.length_modifyHead
    have h' : Sent job l p s (φ.answer fun a ↦ { a with errorBody := some body })
        { a with errorBody := some body } := by
      refine ⟨h.toSteady.step rfl rfl rfl h.commit h.toSteady.permits h.shown.finalized
        h.shown.panicked, h.held, h.permits.trans hlen.symm, ?_, h.ofLease, h.ofPrepared⟩
      exact (List.head?_modifyHead ..).trans (by rw [h.newest]; rfl)
    dsimp only
    cases hr : httpRecovery job p s.record.upstreamAttempts status body with
    | error x => exact h'.fine
    | ok recovery =>
      cases recovery with
      | none => exact rejected_meets h'.toSteady l status body
      | some found =>
        obtain ⟨h1, hs, hprep⟩ := httpRecovery_some hr
        obtain ⟨ha, -⟩ := h.first h1
        have hone : sentAttempts = 1 := by rw [hsent, ha]; rfl
        rw [hone]
        apply recover_meets h' h1
        exact .inl ⟨body, found.2, hst.trans (congrArg some hs), rfl, h.ofPrepared ▸ hprep⟩

/-- The one kind whose response is a stream. -/
theorem responses_of_stream {kind : RequestKind} (h : ¬kind.isUnary = true) :
    kind = .responses := by
  cases kind with
  | responses => rfl
  | compact | search | imageGeneration | imageEdit => exact absurd rfl h

private theorem sendAttempt_meets (h : Steady job s φ) {l : DispatchLease} {p : PreparedRequest}
    (hl : φ.lease = some l) (hp : φ.permits = φ.attempts.length + 1)
    (hm : MayFollow job.request.kind φ.attempts l p) :
    (sendAttempt job l p (φ.attempts.length + 1)).Meets (monitor job) s φ (Ends job) := by
  -- The attempt as known after the call, and after the status.
  let a : Attempt := ⟨l, p, none, none, []⟩
  have hnext : Progress.next φ (.sendOnce p) () = { φ with attempts := a :: φ.attempts } := by
    simp only [Progress.next, hl]
    rfl
  have h₁ : Steady job s { φ with attempts := a :: φ.attempts } :=
    h.step rfl rfl rfl h.commit h.permits h.shown.finalized h.shown.panicked
  unfold sendAttempt modifyRecord
  simp only [meets_bind, meets_ask, meets_ok, meets_update]
  refine ⟨h.allows ⟨l, hl, hp, hm⟩, ?_⟩
  intro u
  rw [show (monitor job).next φ (.sendOnce p) u = { φ with attempts := a :: φ.attempts } from hnext]
  refine ⟨h₁.allows trivial, ?_⟩
  rintro (x | status)
  · exact h₁.fine
  · have h₂ : Sent job l p { s with record := { s.record with upstreamStatus := some status } }
        { φ with attempts := { a with status := some status } :: φ.attempts }
        { a with status := some status } :=
      ⟨h.step rfl rfl rfl h.commit h.permits h.shown.finalized h.shown.panicked, hl, hp, rfl, rfl,
        rfl⟩
    refine ⟨h₂.allows trivial, ?_⟩
    rintro (x | u)
    · exact h₂.fine
    · refine ⟨h₂.allows trivial, ?_⟩
      rintro (x | u)
      · exact h₂.fine
      · dsimp only
        split
        · exact errorResponse_meets h₂ rfl rfl
        · split
          · exact h₂.toSteady
          · next hu =>
            refine ⟨h₂.toSteady, hl, hp, rfl, ?_⟩
            intro hb
            obtain ⟨h1, hrec⟩ := Bool.and_eq_true_iff.mp hb
            obtain ⟨ha, -⟩ := h₂.first (beq_iff_eq.mp h1)
            exact ⟨_, [], ha, rfl, rfl, responses_of_stream hu, hrec, rfl, fun e he ↦ by cases he⟩

/-- An attempt keeps to the monitor. -/
theorem attempt_meets (h : Steady job s φ) {l : DispatchLease} {p : PreparedRequest}
    (hl : φ.lease = some l) (hp : φ.permits = φ.attempts.length + 1)
    (hm : MayFollow job.request.kind φ.attempts l p) :
    (attempt job l p φ.attempts.length).Meets (monitor job) s φ (Ends job) := by
  unfold attempt modifyRecord
  simp only [meets_bind, meets_ask]
  refine ⟨h.allows trivial, ?_⟩
  intro cancelled
  split
  · exact h.fine
  · rw [meets_bind, meets_outcome]
    apply checkSessionSafety_meets h
    · exact sendAttempt_meets h hl hp hm
    · intro x
      simp only [meets_bind, meets_update, meets_fail]
      exact ⟨h.commit, h.shown.id, h.shown.key, rfl, h.shown.finalized, h.shown.panicked⟩

/-! ### Responses -/

/-- Where the body finalizes, the record is that of the permits. -/
theorem finalize_meets_body {Q : Except Error Unit → Execution → Progress → Prop}
    (h : Steady job s φ) {error : Option Error}
    (hok : ∀ s' φ', Steady job s' φ' → Q (.ok ()) s' φ')
    (herr : ∀ x s' φ', Fine job s' φ' → Q (.error x) s' φ') :
    (finalize job error : Run Label Unit).Meets (monitor job) s φ Q := by
  apply finalize_meets h.shown rfl (h.allows trivial)
  · intro s' r hs hr
    exact ⟨h.unrefused, fun hc ↦ absurd hc h.commit, fun _ ↦ hs, hr⟩
  · intro s' _ hs
    exact hok s' _ ⟨h.unrefused, h.commit, hs⟩
  · intro x s' hs
    exact herr x s' φ ⟨h.commit, hs⟩

private theorem finishUnary_meets (h : Steady job s φ) :
    (finishUnary job : Run Label Unit).Meets (monitor job) s φ (Ends job) := by
  unfold finishUnary modifyRecord
  simp only [meets_bind, meets_ask, meets_ok, meets_update]
  refine ⟨h.allows trivial, ?_⟩
  rintro (x | ⟨usage, responseModel⟩)
  · exact h.fine
  · apply finalize_meets_body
    · exact h.step rfl rfl rfl h.commit h.permits h.shown.finalized h.shown.panicked
    · intro s' φ' h'
      refine ⟨h'.allows trivial, ?_⟩
      rintro (x | u)
      · exact h'.fine
      · have h'' : Steady job { s' with terminalDelivered := true } φ' :=
          h'.step rfl rfl rfl h'.commit h'.permits h'.shown.finalized h'.shown.panicked
        exact h''.fine
    · intro x s' φ' hf
      exact hf

/-- Receiving a whole body keeps to the monitor. -/
theorem receiveUnary_meets (h : Steady job s φ) (size : Nat) :
    (receiveUnary job size).Meets (monitor job) s φ (Ends job) := by
  unfold receiveUnary
  rw [meets_bind, meets_ask]
  refine ⟨h.allows trivial, ?_⟩
  rintro (_ | _ | _ | x | n)
  · exact h.fine
  · exact h
  · exact finishUnary_meets h
  · exact h.fine
  · simp only [meets_bind, meets_ask]
    refine ⟨h.allows trivial, ?_⟩
    intro limit
    split
    · exact h.fine
    · simp only [meets_bind, meets_ask, meets_ok, meets_jump]
      refine ⟨h.allows trivial, ?_⟩
      rintro (x | u)
      · exact h.fine
      · exact h

private theorem observeEvents_meets {Q : Except Error Unit → Execution → Progress → Prop}
    (events : List GatewayEvent) {s : Execution} (h : Steady job s φ)
    (hok : ∀ s', s'.record = s.record → Steady job s' φ → Q (.ok ()) s' φ) :
    (observeEvents events : Run Label Unit).Meets (monitor job) s φ Q := by
  induction events generalizing s with
  | nil => exact hok s rfl h
  | cons event rest ih =>
    unfold observeEvents
    split
    · rw [meets_bind]
      apply observeSafetyRejection_meets h
      intro s' hs h'
      exact ih h' fun s'' hs' ↦ hok s'' (hs'.trans hs)
    · exact ih h hok

private theorem deliverDocument_meets {Q : Except Error Unit → Execution → Progress → Prop}
    (h : Steady job s φ) (document : Json) (hok : Q (.ok ()) s φ)
    (herr : ∀ x, Q (.error x) s φ) :
    (deliverDocument document : Run Label Unit).Meets (monitor job) s φ Q := by
  unfold deliverDocument
  simp only [meets_bind, meets_ask, meets_ok]
  refine ⟨h.allows trivial, ?_⟩
  rintro (x | size)
  · exact herr x
  · refine ⟨h.allows trivial, ?_⟩
    rintro (x | u)
    · exact herr x
    · exact hok

private theorem deliverAll_meets {Q : Except Error Unit → Execution → Progress → Prop}
    (h : Steady job s φ) (documents : List Json) (hok : Q (.ok ()) s φ)
    (herr : ∀ x, Q (.error x) s φ) :
    (deliverAll documents : Run Label Unit).Meets (monitor job) s φ Q := by
  induction documents with
  | nil => exact hok
  | cons document rest ih =>
    unfold deliverAll
    simp only [meets_bind, meets_ask, meets_ok]
    refine ⟨h.allows trivial, ?_⟩
    rintro (x | u)
    · exact herr x
    · exact ih

/-- What a stream keeps while its events are taken. -/
structure Continues (st st' : StreamState) (event : GatewayEvent) : Prop where
  lease : st'.lease = st.lease
  prepared : st'.prepared = st.prepared
  sentAttempts : st'.sentAttempts = st.sentAttempts
  buffering : st'.buffering = true →
    st.buffering = true ∧ Codex.recoveryPreamble event.received = true

private theorem hold_meets {Q : Except Error StreamState → Execution → Progress → Prop}
    (h : Steady job s φ) (st : StreamState) (event : GatewayEvent)
    (hok : ∀ st', Continues st st' event → Q (.ok st') s φ) (herr : ∀ x, Q (.error x) s φ) :
    (hold job st event : Run Label StreamState).Meets (monitor job) s φ Q := by
  unfold hold
  split
  · next hb =>
    simp only [meets_bind, meets_ask, meets_ok]
    refine ⟨h.allows trivial, ?_⟩
    rintro (x | size)
    · exact herr x
    · dsimp only
      split
      · next hp =>
        simp only [meets_bind, meets_ask, meets_ok, meets_pure]
        refine ⟨h.allows trivial, ?_⟩
        rintro (x | u)
        · exact herr x
        · refine hok _ ⟨rfl, rfl, rfl, fun _ ↦ ⟨hb, ?_⟩⟩
          exact (Bool.and_eq_true_iff.mp (Bool.and_eq_true_iff.mp hp).1).1
      · have hresize : (do
              ok (← consult .resize)
              pure { st with buffering := false, preamble := [] } :
            Run Label StreamState).Meets (monitor job) s φ Q := by
          simp only [meets_bind, meets_ask, meets_ok, meets_pure]
          refine ⟨h.allows trivial, ?_⟩
          rintro (x | u)
          · exact herr x
          · exact hok _ ⟨rfl, rfl, rfl, Bool.noConfusion⟩
        rw [meets_bind, meets_doWhen]
        split
        · exact deliverAll_meets h st.preamble hresize herr
        · exact hresize
  · next hb => exact hok st ⟨rfl, rfl, rfl, fun hb' ↦ absurd hb' hb⟩

private theorem finishStream_meets (h : Steady job s φ) (event : GatewayEvent) :
    (finishStream job event : Run Label Unit).Meets (monitor job) s φ (Ends job) := by
  have hbody : ∀ rest : Run Label Unit,
      (∀ s' φ', Steady job s' φ' → rest.Meets (monitor job) s' φ' (Ends job)) →
      (do
        finalize job event.error
        doWhen job.request.stream (deliverDocument event.document)
        rest : Run Label Unit).Meets (monitor job) s φ (Ends job) := by
    intro rest hend
    rw [meets_bind]
    apply finalize_meets_body h
    · intro s' φ' h'
      dsimp only
      rw [meets_bind, meets_doWhen]
      split
      · exact deliverDocument_meets h' event.document (hend s' φ' h') fun _ ↦ h'.fine
      · exact hend s' φ' h'
    · intro x s' φ' hf
      exact hf
  unfold finishStream
  refine hbody _ ?_
  intro s' φ' h'
  simp only [meets_bind, meets_update]
  have h'' : Steady job { s' with terminalDelivered := true } φ' :=
    h'.step rfl rfl rfl h'.commit h'.permits h'.shown.finalized h'.shown.panicked
  cases event.error with
  | none => exact h''.fine
  | some error => exact h''.fine

/-- A stream goes on with the rest of its events. -/
theorem Streaming.rest {st st' : StreamState} {event : GatewayEvent} {rest : List GatewayEvent}
    (h : Streaming job st (event :: rest) s φ) (hst : Continues st st' event) {s' : Execution}
    (h' : Steady job s' φ) : Streaming job st' rest s' φ := by
  refine ⟨h', hst.lease ▸ h.held, h.permits, hst.sentAttempts.trans h.sentAttempts, ?_⟩
  intro hbuf
  obtain ⟨hbuf', hpre⟩ := hst.buffering hbuf
  obtain ⟨a, before, ha, hal, hap, hk, hr, he, hall⟩ := h.buffered hbuf'
  refine ⟨a, before ++ [event], ha, hal.trans hst.lease.symm, hap.trans hst.prepared.symm, hk,
    hr, he.trans (List.append_cons ..), ?_⟩
  intro e hm
  rcases List.mem_append.mp hm with hm | hm
  · exact hall e hm
  · exact (List.mem_singleton.mp hm) ▸ hpre

private theorem observeAccount_meets {Q : Except Error Unit → Execution → Progress → Prop}
    (h : Steady job s φ) (lease : DispatchLease) (event : GatewayEvent) (hok : Q (.ok ()) s φ)
    (herr : ∀ x, Q (.error x) s φ) :
    (observeAccount lease event : Run Label Unit).Meets (monitor job) s φ Q := by
  unfold observeAccount
  simp only [meets_bind, meets_ask, meets_ok, meets_doWhen]
  refine ⟨h.allows trivial, ?_⟩
  rintro (x | u)
  · exact herr x
  · dsimp only
    split
    · refine ⟨h.allows trivial, ?_⟩
      rintro (x | u)
      · exact herr x
      · exact hok
    · exact hok

private theorem passOn_meets {st : StreamState} {rest : List GatewayEvent}
    (h : Streaming job st rest s φ) (event : GatewayEvent) :
    (passOn job st event rest).Meets (monitor job) s φ (Ends job) := by
  unfold passOn
  split
  · exact finishStream_meets h.toSteady event
  · rw [meets_bind, meets_doWhen]
    split
    · exact deliverDocument_meets h.toSteady event.document h fun _ ↦ h.fine
    · exact h

private theorem observeEvent_meets {st : StreamState} {event : GatewayEvent}
    {rest : List GatewayEvent} (h : Streaming job st (event :: rest) s φ) :
    (observeEvent job st event rest).Meets (monitor job) s φ (Ends job) := by
  unfold observeEvent modifyRecord
  rw [meets_bind]
  apply hold_meets h.toSteady
  · intro st' hst
    have h' : Steady job { s with record := { s.record with
        responseModel := event.responseModel.or s.record.responseModel
        usage := event.usage.getD s.record.usage } } φ :=
      h.step rfl rfl rfl h.commit h.toSteady.permits h.shown.finalized h.shown.panicked
    dsimp only
    rw [meets_bind, meets_update]
    dsimp only
    rw [meets_bind]
    apply observeAccount_meets h'
    · exact passOn_meets (h.rest hst h') event
    · intro x
      exact h'.fine
  · intro x
    exact h.fine

/-- A cleaned request may follow when an event of a buffered stream rejects the first. -/
theorem streamRecovery_some {st : StreamState} {event : GatewayEvent} {rest : List GatewayEvent}
    {repaired : PreparedRequest} {changes : EncryptedContentRecovery}
    (h : Streaming job st (event :: rest) s φ)
    (hr : streamRecovery st event = .ok (some (repaired, changes))) :
    ∃ a, Sent job st.lease st.prepared s φ a ∧ φ.attempts = [a] ∧
      a.Rejected job.request.kind repaired := by
  unfold streamRecovery at hr
  split at hr
  · cases hr
  · next error he =>
    obtain ⟨herr, hb⟩ := Option.filter_eq_some_iff.mp he
    obtain ⟨a, before, ha, hal, hap, hk, hrec, hev, hall⟩ := h.buffered hb
    refine ⟨a, ⟨h.toSteady, h.held, h.permits, by rw [ha]; rfl, hal, hap⟩, ha, .inr ?_⟩
    exact ⟨before, event, rest, error, changes, hk, hrec, hev, hall, herr, hap ▸ hr⟩

/-- Taking decoded events keeps to the monitor. -/
theorem takeEvents_meets {st : StreamState} {events : List GatewayEvent}
    (h : Streaming job st events s φ) :
    (takeEvents job st events).Meets (monitor job) s φ (Ends job) := by
  cases events with
  | nil =>
    unfold takeEvents
    simp only [meets_bind, meets_ask, meets_ok, meets_jump]
    refine ⟨h.allows trivial, ?_⟩
    rintro (x | u)
    · exact h.fine
    · exact h
  | cons event rest =>
    unfold takeEvents
    rw [meets_bind, meets_ok]
    cases hr : streamRecovery st event with
    | error x => exact h.fine
    | ok recovery =>
      cases recovery with
      | none => exact observeEvent_meets h
      | some found =>
        obtain ⟨a, hsent, ha, hrej⟩ := streamRecovery_some h hr
        have h1 : st.sentAttempts = 1 := by rw [h.sentAttempts, ha]; rfl
        dsimp only
        rw [h1]
        apply recover_meets hsent _ hrej
        rw [h.toSteady.permits, h.permits, ha]
        rfl

/-- Decoded events are known of the newest attempt and still to be taken. -/
theorem Streaming.decoded {st : StreamState} (h : Streaming job st [] s φ)
    (events : List GatewayEvent) :
    Streaming job st events s (φ.answer fun a ↦ { a with events := a.events ++ events }) := by
  have hlen : (φ.answer fun a ↦ { a with events := a.events ++ events }).attempts.length =
      φ.attempts.length := List.length_modifyHead
  refine ⟨h.step rfl rfl rfl h.commit h.toSteady.permits h.shown.finalized h.shown.panicked,
    h.held, h.permits.trans hlen.symm, h.sentAttempts.trans hlen.symm, ?_⟩
  intro hb
  obtain ⟨a, before, ha, hal, hap, hk, hrec, hev, hall⟩ := h.buffered hb
  refine ⟨{ a with events := a.events ++ events }, a.events, ?_, hal, hap, hk, hrec, rfl, ?_⟩
  · unfold Progress.answer
    rw [ha]
    rfl
  · rw [hev, List.append_nil]
    exact hall

private theorem decoded_meets {st : StreamState} {events : List GatewayEvent}
    (h : Streaming job st events s φ) :
    (decoded job st events).Meets (monitor job) s φ (Ends job) := by
  unfold decoded
  rw [meets_bind]
  apply observeEvents_meets events h.toSteady
  intro s' _ h'
  have hnext : Streaming job st events s' φ :=
    ⟨h', h.held, h.permits, h.sentAttempts, h.buffered⟩
  simp only [meets_bind, meets_ask, meets_ok, meets_doWhen, meets_jump]
  split
  · refine ⟨h'.allows trivial, ?_⟩
    rintro (x | u)
    · exact h'.fine
    · exact hnext
  · exact hnext

/-- Receiving a stream keeps to the monitor. -/
theorem receiveStream_meets {st : StreamState} (h : Streaming job st [] s φ) :
    (receiveStream job st).Meets (monitor job) s φ (Ends job) := by
  unfold receiveStream
  rw [meets_bind, meets_ask]
  refine ⟨h.allows trivial, ?_⟩
  rintro (_ | _ | _ | x | n)
  · exact h.fine
  · simp only [meets_bind, meets_doWhen, meets_ask, meets_ok, meets_jump]
    split
    · refine ⟨h.allows trivial, ?_⟩
      rintro (x | u)
      · exact h.fine
      · exact h
    · exact h
  · simp only [meets_bind, meets_ask, meets_ok, meets_fail]
    refine ⟨h.allows trivial, ?_⟩
    rintro (x | u)
    · exact h.fine
    · exact h.fine
  · exact h.fine
  · simp only [meets_bind, meets_ask, meets_ok]
    refine ⟨h.allows trivial, ?_⟩
    rintro (x | u)
    · exact h.fine
    · refine ⟨h.allows trivial, ?_⟩
      rintro ((x | _) | events)
      · exact h.fine
      · exact ⟨h.commit, h.shown.id, h.shown.key, h.shown.attempts, h.shown.finalized,
          fun _ ↦ rfl⟩
      · exact decoded_meets (h.decoded events)

end Xxgate.Gateway

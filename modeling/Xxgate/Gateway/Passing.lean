import Xxgate.Gateway.Streams

/-!
# No mix of two attempts

The blocks of `execute` keep to the monitor of what is passed on, whatever the events of the
attempts, the request and its cleanup are. So a streaming client is sent the events of one
attempt: of the second when there was a recovery, of the first otherwise.
-/

namespace Xxgate.Gateway

open Xxgate.Base Xxgate.Base.FiniteMap Xxgate.Core Xxgate.Scheduling
open Coroutine

variable {job : Job} {s : Execution} {φ : Passed}

/-! ### Up to the first attempt -/

/-- Nothing has happened, and nothing is claimed. -/
abbrev Waiting : Execution → Passed → Prop := Still (· = .none)

private theorem waiting_opens {l : Label} (hl : l = .reserve ∨ l = .wait) :
    (passing job).Opens Waiting l := by
  intro s φ h
  obtain rfl | rfl := hl
  · exact ⟨h.known, h.undelivered⟩
  · exact ⟨h.known, h.undelivered⟩

private theorem dispatched_passing (h : Waiting s φ) (lease : DispatchLease)
    (prepared : PreparedRequest) (rewritten : Bool) :
    (dispatched job lease prepared rewritten).Meets (passing job) s φ fun _ ↦ Waiting := by
  obtain ⟨hs, rfl⟩ := h
  unfold dispatched modifyRecord
  simp only [meets_bind, meets_update, meets_read, meets_ask, meets_ok, meets_doWhen, meets_jump]
  have hallowed : ∀ {record : RequestRecord} {c : Call}, c.isAside = true →
      (passing job).allowed .none { s with record := record } c :=
    fun hc ↦ ⟨delivered_of_not hs, inPlace_of_aside hc⟩
  have hentry : ∀ {record : RequestRecord}, record.upstreamAttempts = 1 →
      (passing job).entry .none { s with record := record } (.attempt lease prepared 0) :=
    fun hr ↦ ⟨.inl rfl, hs, hr⟩
  refine ⟨hallowed rfl, ?_⟩
  rintro (x | u)
  · exact ⟨hs, rfl⟩
  · dsimp only
    split
    · refine ⟨hallowed rfl, ?_⟩
      rintro (x | u)
      · exact ⟨hs, rfl⟩
      · refine ⟨hallowed rfl, ?_⟩
        rintro (x | u)
        · exact ⟨hs, rfl⟩
        · exact hentry rfl
    · refine ⟨hallowed rfl, ?_⟩
      rintro (x | u)
      · exact ⟨hs, rfl⟩
      · exact hentry rfl

private theorem takePermit_waiting (lease : DispatchLease) (prepared : PreparedRequest)
    (rewritten : Bool) :
    (takePermit job lease prepared rewritten).Stays (passing job) Waiting := by
  unfold takePermit
  apply Stays.bind (choosePrice_stays (still_routine _))
  intro _
  apply Stays.bind (.ask (still_keeps rfl))
  rintro (error | u)
  · dsimp only
    split
    · exact giveUp_stays (still_routine _) (waiting_opens (.inl rfl))
    · exact .fail error
  · intro s φ h
    exact dispatched_passing h lease prepared rewritten

/-! ### Attempts -/

/-- A request that may be sent. -/
structure Ready (s : Execution) (φ : Passed) : Prop where
  undelivered : s.terminalDelivered = false
  next : φ = .none ∨ φ.Due
  attempts : s.record.upstreamAttempts = φ.attempts.length + 1

/-- A request that was sent and of whose answer no event came yet. -/
structure Unanswered (observations : Nat) (s : Execution) (φ : Passed) : Prop where
  undelivered : s.terminalDelivered = false
  attempts : s.record.upstreamAttempts = φ.attempts.length
  answer : ∃ older, φ = ⟨[] :: older, false, observations, [], []⟩

/-- The first attempt may be repeated when nothing was answered yet. -/
theorem Unanswered.recoverable (h : Unanswered 1 s φ) (h1 : s.record.upstreamAttempts = 1) :
    φ.Recoverable := by
  obtain ⟨older, rfl⟩ := h.answer
  have hlen : older.length = 0 := Nat.succ.inj (h.attempts.symm.trans h1)
  obtain rfl := List.length_eq_zero_iff.mp hlen
  refine ⟨rfl, rfl, rfl, [], [], rfl, rfl, rfl, ?_, Nat.zero_le 16, Nat.zero_le _⟩
  intro e he
  cases he

private theorem beginRecovery_passing {Q : Except Error Unit → Execution → Passed → Prop}
    (hs : s.terminalDelivered = false) (hr : φ.Recoverable)
    (hok : ∀ s', s'.terminalDelivered = false → s'.record.upstreamAttempts = 2 →
      Q (.ok ()) s' { φ with recovering := true })
    (herr : ∀ x s' φ', s'.terminalDelivered = false → Q (.error x) s' φ') :
    (beginRecovery job : Run Label Unit).Meets (passing job) s φ Q := by
  have h : Still (· = φ) s φ := ⟨hs, rfl⟩
  unfold beginRecovery modifyRecord
  rw [meets_bind, meets_ask]
  refine ⟨h.allows rfl, ?_⟩
  intro x
  dsimp only
  rw [meets_bind, meets_ok]
  cases x with
  | error x => exact herr x s _ hs
  | ok u =>
    dsimp only
    rw [meets_bind]
    apply (currentModel_stays (still_routine _) "recovery" s φ h).mono
    rintro (x | model) s' φ' ⟨hs', rfl⟩
    · exact herr x s' _ hs'
    · simp only [meets_bind, meets_ask, meets_ok, meets_update, meets_read]
      refine ⟨⟨delivered_of_not hs', hr⟩, ?_⟩
      rintro (x | u)
      · exact herr x s' _ hs'
      · refine ⟨⟨delivered_of_not hs', trivial⟩, ?_⟩
        rintro (x | u)
        · exact herr x _ _ hs'
        · exact hok _ hs' rfl

private theorem recover_passing (hs : s.terminalDelivered = false) (hr : φ.Recoverable)
    (lease : DispatchLease) (repaired : PreparedRequest) (n : Nat) :
    (do beginRecovery job; jump (.attempt lease repaired n) : Run Label Unit).Meets (passing job)
      s φ fun _ ↦ Delivered job := by
  rw [meets_bind]
  apply beginRecovery_passing hs hr
  · intro s' hs' h2
    have hone : φ.attempts.length = 1 := congrArg List.length hr.first
    exact ⟨.inr ⟨hr.unsent, rfl, hone⟩, hs', h2.trans (congrArg (· + 1) hone).symm⟩
  · intro x s' φ' hs'
    exact delivered_of_not hs'

/-- What only fails from here on. -/
theorem delivers_of_stays {K : Passed → Prop} {α : Type} {m : Run Label α}
    (hm : m.Stays (passing job) (Still K)) (h : Still K s φ) :
    m.Meets (passing job) s φ fun _ ↦ Delivered job :=
  (hm s φ h).mono fun _ _ _ h ↦ h.delivered

private theorem errorResponse_passing (h : Unanswered 1 s φ) (lease : DispatchLease)
    (prepared : PreparedRequest) (n status : Nat) :
    (errorResponse job lease prepared n status).Meets (passing job) s φ
      fun _ ↦ Delivered job := by
  have hstill : Still (fun _ ↦ True) s φ := ⟨h.undelivered, trivial⟩
  unfold errorResponse
  simp only [meets_bind, meets_ask, meets_ok, meets_read]
  refine ⟨hstill.allows rfl, ?_⟩
  rintro (x | body)
  · exact hstill.delivered
  · dsimp only
    cases hr : httpRecovery job prepared s.record.upstreamAttempts status body with
    | error x => exact hstill.delivered
    | ok recovery =>
      cases recovery with
      | none =>
        exact delivers_of_stays (rejected_stays (still_routine _) (fun _ _ ↦ still_keeps rfl)
          (observeSafetyRejection_still _) lease status body) hstill
      | some found =>
        obtain ⟨h1, -⟩ := httpRecovery_some hr
        exact recover_passing h.undelivered (h.recoverable h1) lease found.1 n

/-- A send leaves a request that was not answered yet. -/
theorem Ready.send (h : Ready s φ) (prepared : PreparedRequest) :
    Unanswered 0 s (φ.next (.sendOnce prepared) ()) := by
  refine ⟨h.undelivered, h.attempts, φ.attempts, ?_⟩
  have hsent : φ.sent = [] := by
    rcases h.next with rfl | hr
    · rfl
    · exact hr.unsent
  show (⟨[] :: φ.attempts, false, 0, [], φ.sent⟩ : Passed) = _
  rw [hsent]

/-- A stream begins with nothing taken. -/
theorem Unanswered.taking (h : Unanswered 1 s φ) (lease : DispatchLease)
    (prepared : PreparedRequest) (n : Nat) :
    Between job ⟨lease, prepared, n, s.record.upstreamAttempts == 1 &&
      Codex.hasRecoverableInput prepared, [], 0⟩ [] [] φ := by
  refine ⟨⟨?_, ?_, ?_, ?_, ?_, ?_⟩, ?_⟩
  · obtain ⟨older, rfl⟩ := h.answer
    exact List.cons_ne_nil _ _
  · obtain ⟨older, rfl⟩ := h.answer
    rfl
  · obtain ⟨older, rfl⟩ := h.answer
    rfl
  · intro hb
    have hr := h.recoverable (beq_iff_eq.mp (Bool.and_eq_true_iff.mp hb).1)
    obtain ⟨older, rfl⟩ := h.answer
    exact ⟨⟨rfl, fun e he ↦ (by cases he), Nat.zero_le 16, Nat.zero_le _⟩, hr.first, rfl, rfl⟩
  · intro e he
    cases he
  · obtain ⟨older, rfl⟩ := h.answer
    exact (ite_self _).symm
  · obtain ⟨older, rfl⟩ := h.answer
    rfl

/-- The quota in the headers is observed. -/
theorem Unanswered.observed (h : Unanswered 0 s φ) (id : Uuid) (r : Result Unit) :
    Unanswered 1 s (φ.next (.consult (.applyQuotaObservation id)) r) := by
  obtain ⟨older, rfl⟩ := h.answer
  exact ⟨h.undelivered, h.attempts, older, rfl⟩

private theorem sendAttempt_passing (h : Ready s φ) (lease : DispatchLease)
    (prepared : PreparedRequest) (n : Nat) :
    (sendAttempt job lease prepared n).Meets (passing job) s φ fun _ ↦ Delivered job := by
  have hsent := h.send prepared
  have hstill : Still (fun _ ↦ True) s (φ.next (.sendOnce prepared) ()) :=
    ⟨h.undelivered, trivial⟩
  unfold sendAttempt modifyRecord
  simp only [meets_bind, meets_ask, meets_ok, meets_update]
  refine ⟨⟨delivered_of_not h.undelivered, h.next⟩, ?_⟩
  intro u
  refine ⟨hstill.allows rfl, ?_⟩
  rintro (x | status)
  · exact hstill.delivered
  · refine ⟨⟨delivered_of_not h.undelivered, trivial⟩, ?_⟩
    rintro (x | u)
    · exact delivered_of_not h.undelivered
    · refine ⟨⟨delivered_of_not h.undelivered, trivial⟩, ?_⟩
      rintro (x | u)
      · exact delivered_of_not h.undelivered
      · have h₁ : Unanswered 0 { s with record := { s.record with upstreamStatus := some status } }
            (φ.next (.sendOnce prepared) ()) := ⟨hsent.undelivered, hsent.attempts, hsent.answer⟩
        have h₂ := h₁.observed lease.account.id (.ok u)
        dsimp only
        split
        · exact errorResponse_passing h₂ lease prepared n status
        · split
          · next hu => exact hu
          · rw [meets_bind, meets_read]
            exact ⟨h₂.undelivered, [], h₂.taking lease prepared n⟩

private theorem attempt_passing (h : Ready s φ) (lease : DispatchLease) (prepared : PreparedRequest)
    (n : Nat) :
    (attempt job lease prepared n).Meets (passing job) s φ fun _ ↦ Delivered job := by
  have hready : ∀ s φ, Ready s φ → Delivered job s φ := fun s φ h ↦ delivered_of_not h.undelivered
  unfold attempt modifyRecord
  rw [meets_bind, meets_ask]
  refine ⟨⟨hready s φ h, trivial⟩, ?_⟩
  intro cancelled
  dsimp only
  split
  · exact hready s φ h
  · rw [meets_bind, meets_outcome]
    apply (checkSessionSafety_stays (fun _ ↦ aside_keeps hready rfl) s φ h).mono
    rintro (x | u) s' φ' h'
    · simp only [meets_bind, meets_update, meets_fail]
      exact delivered_of_not h'.undelivered
    · exact sendAttempt_passing h' lease prepared (n + 1)

/-! ### Responses of one body -/

private theorem receiveUnary_passing (hu : job.request.kind.isUnary = true) (size : Nat) :
    (receiveUnary job size).Meets (passing job) s φ fun _ ↦ Delivered job := by
  have hdelivered : ∀ s φ, Delivered job s φ := by
    intro s φ _ _ hno
    cases hu.symm.trans hno
  have hroutine : Routine (passing job) (fun _ _ ↦ True) :=
    ⟨fun c hc ↦ aside_keeps (fun s φ _ ↦ hdelivered s φ) (isAside_of_isRoutine hc),
      fun _ _ _ _ h ↦ h⟩
  apply (receiveUnary_stays hroutine (fun n s φ _ ↦ hu)
    (fun r ↦ aside_keeps (fun s φ _ ↦ hdelivered s φ) rfl) (fun _ _ h ↦ h) size s φ trivial).mono
  intro x s' φ' _
  exact hdelivered s' φ'

/-! ### Streams -/

variable {st : StreamState} {taken sent rest : List GatewayEvent}

/-- Decoded events are still to be taken. -/
theorem Between.decoded (h : Between job st taken [] φ) (events : List GatewayEvent) :
    Between job st taken events
      { φ with attempts := φ.attempts.modifyHead (· ++ events) } := by
  obtain ⟨attempts, recovering, observations, encoded, passed⟩ := φ
  obtain rfl : recovering = false := h.idle
  cases attempts with
  | nil => exact absurd rfl h.attempted
  | cons answered older =>
    have hevents : answered = taken := h.events.trans (List.append_nil taken)
    refine ⟨⟨List.cons_ne_nil _ _, rfl, congrArg (· ++ events) hevents, ?_, h.goesOn, h.sent⟩,
      h.observed⟩
    intro hb
    have hheld := h.held hb
    obtain ⟨rfl⟩ := (List.cons.inj hheld.first).2
    exact ⟨⟨hheld.encoded, hheld.control, hheld.few, hheld.small⟩, rfl, hheld.preamble,
      hheld.bytes⟩

private theorem decoded_passing {events : List GatewayEvent}
    (h : Still (Between job st taken events) s φ) :
    (decoded job st events).Meets (passing job) s φ fun _ ↦ Delivered job := by
  unfold decoded
  rw [meets_bind]
  apply (observeEvents_stays (observeSafetyRejection_still _) events s _ h).mono
  rintro (x | u) s' φ' h'
  · exact h'.delivered
  · simp only [meets_bind, meets_ask, meets_ok, meets_doWhen, meets_jump]
    split
    · refine ⟨h'.allows rfl, ?_⟩
      rintro (x | u)
      · exact h'.delivered
      · exact ⟨h'.undelivered, taken, h'.known⟩
    · exact ⟨h'.undelivered, taken, h'.known⟩

private theorem receiveStream_passing (hs : s.terminalDelivered = false)
    (h : Between job st taken [] φ) :
    (receiveStream job st).Meets (passing job) s φ fun _ ↦ Delivered job := by
  have hstill : Still (· = φ) s φ := ⟨hs, rfl⟩
  unfold receiveStream
  rw [meets_bind, meets_ask]
  refine ⟨hstill.allows rfl, ?_⟩
  rintro (_ | _ | _ | x | n)
  · exact hstill.delivered
  · simp only [meets_bind, meets_doWhen, meets_ask, meets_ok, meets_jump]
    split
    · refine ⟨hstill.allows rfl, ?_⟩
      rintro (x | u)
      · exact hstill.delivered
      · exact ⟨hs, taken, h⟩
    · exact ⟨hs, taken, h⟩
  · simp only [meets_bind, meets_ask, meets_ok, meets_fail]
    refine ⟨hstill.allows rfl, ?_⟩
    rintro (x | u)
    · exact hstill.delivered
    · exact hstill.delivered
  · exact hstill.delivered
  · simp only [meets_bind, meets_ask, meets_ok]
    refine ⟨hstill.allows rfl, ?_⟩
    rintro (x | u)
    · exact hstill.delivered
    · refine ⟨⟨hstill.delivered, trivial⟩, ?_⟩
      rintro ((x | _) | events)
      · exact hstill.delivered
      · exact delivered_of_not hs
      · exact decoded_passing ⟨hs, h.decoded events⟩

/-- Observing quota tells nothing of what is passed on. -/
theorem Taking.observe (h : Taking job st taken sent rest φ) :
    Taking job st taken sent rest { φ with observations := φ.observations + 1 } := by
  refine ⟨h.attempted, h.idle, h.events, ?_, h.goesOn, h.sent⟩
  intro hb
  have hheld := h.held hb
  exact ⟨⟨hheld.encoded, hheld.control, hheld.few, hheld.small⟩, hheld.first, hheld.preamble,
    hheld.bytes⟩

/-- The next document of a stream may be sent. -/
theorem Taking.next_in_place {event : GatewayEvent}
    (h : Taking job st (taken ++ [event]) taken rest φ)
    (hsent : φ.sent = taken.map (·.document)) :
    φ.sent ++ [event.document] <+: (throughTerminal φ.events).map (·.document) := by
  rw [h.events, hsent, List.append_assoc, throughTerminal_append h.goesOn, List.map_append]
  apply (List.prefix_append_right_inj _).mpr
  rw [List.singleton_append, throughTerminal]
  split
  · exact List.prefix_rfl
  · exact (List.prefix_cons_inj _).mpr List.nil_prefix

private theorem deliverDocument_passing {Q : Except Error Unit → Execution → Passed → Prop}
    (hs : s.terminalDelivered = false) {document : Json}
    (hnext : φ.sent ++ [document] <+: (throughTerminal φ.events).map (·.document))
    (hok : ∀ size, Q (.ok ()) s
      { φ with encoded := φ.encoded ++ [(document, size)], sent := φ.sent ++ [document] })
    (herr : ∀ x φ', Q (.error x) s φ') :
    (deliverDocument document : Run Label Unit).Meets (passing job) s φ Q := by
  unfold deliverDocument
  simp only [meets_bind, meets_ask, meets_ok]
  refine ⟨⟨delivered_of_not hs, trivial⟩, ?_⟩
  rintro (x | size)
  · exact herr x _
  · refine ⟨⟨delivered_of_not hs, hnext⟩, ?_⟩
    rintro (x | u)
    · exact herr x _
    · exact hok size

private theorem deliverAll_passing {Q : Except Error Unit → Execution → Passed → Prop}
    (hs : s.terminalDelivered = false) (documents : List Json)
    (hnext : φ.sent ++ documents <+: (throughTerminal φ.events).map (·.document))
    (hok : Q (.ok ()) s { φ with sent := φ.sent ++ documents })
    (herr : ∀ x φ', Q (.error x) s φ') :
    (deliverAll documents : Run Label Unit).Meets (passing job) s φ Q := by
  induction documents generalizing φ with
  | nil =>
    rw [List.append_nil] at hok
    exact hok
  | cons document documents ih =>
    unfold deliverAll
    simp only [meets_bind, meets_ask, meets_ok]
    have hfirst : φ.sent ++ [document] <+: φ.sent ++ document :: documents :=
      (List.prefix_append_right_inj _).mpr (List.prefix_append [document] documents)
    refine ⟨⟨delivered_of_not hs, hfirst.trans hnext⟩, ?_⟩
    rintro (x | u)
    · exact herr x _
    · apply ih
      · show (φ.sent ++ [document]) ++ documents <+: _
        rw [List.append_assoc]
        exact hnext
      · show Q (.ok ()) s { φ with sent := (φ.sent ++ [document]) ++ documents }
        rw [List.append_assoc]
        exact hok

/-- One more event is held back. -/
theorem Held.push {event : GatewayEvent} {size : Nat} (h : Held st taken φ)
    (hcontrol : Codex.recoveryPreamble event.received = true) (hfew : st.preamble.length < 16)
    (hsmall : st.preambleBytes + size ≤ 65536) :
    Held { st with
        preamble := st.preamble ++ [event.document]
        preambleBytes := st.preambleBytes + size } (taken ++ [event])
      { φ with encoded := φ.encoded ++ [(event.document, size)] } := by
  have hbytes : ((φ.encoded ++ [(event.document, size)]).map (·.2)).sum =
      st.preambleBytes + size := by
    rw [List.map_append, List.sum_append, h.bytes]
    rfl
  refine ⟨⟨?_, ?_, ?_, hbytes.trans_le hsmall⟩, h.first, ?_, hbytes⟩
  · simp only [List.map_append, h.encoded, List.map_cons, List.map_nil]
  · intro e he
    rcases List.mem_append.mp he with he | he
    · exact h.control e he
    · exact (List.mem_singleton.mp he) ▸ hcontrol
  · rw [h.preamble, List.length_map] at hfew
    rw [List.length_append]
    exact hfew
  · simp only [List.map_append, h.preamble, List.map_cons, List.map_nil]

/-- An event is held back, or what was held back goes out before it. -/
theorem hold_passing {Q : Except Error StreamState → Execution → Passed → Prop}
    {event : GatewayEvent} (hs : s.terminalDelivered = false)
    (h : Between job st taken (event :: rest) φ)
    (hok : ∀ st' φ', Taking job st' (taken ++ [event]) taken rest φ' →
      φ'.observations = taken.length + 1 → Q (.ok st') s φ')
    (herr : ∀ x φ', Q (.error x) s φ') :
    (hold job st event : Run Label StreamState).Meets (passing job) s φ Q := by
  have hevents : φ.events = (taken ++ [event]) ++ rest := h.events.trans (List.append_cons ..)
  have hs' : ∀ φ, Delivered job s φ := fun _ ↦ delivered_of_not hs
  unfold hold
  split
  · next hb =>
    have hheld := h.held hb
    have hsent : φ.sent = [] := by
      rw [h.sent, hb, Bool.not_true, Bool.and_false, if_neg Bool.false_ne_true]
    simp only [meets_bind, meets_ask, meets_ok]
    refine ⟨⟨hs' _, trivial⟩, ?_⟩
    rintro (x | size)
    · exact herr x _
    · dsimp only
      split
      · next hp =>
        obtain ⟨hp, hsmall⟩ := Bool.and_eq_true_iff.mp hp
        obtain ⟨hcontrol, hfew⟩ := Bool.and_eq_true_iff.mp hp
        simp only [meets_bind, meets_ask, meets_ok, meets_pure]
        refine ⟨⟨hs' _, trivial⟩, ?_⟩
        rintro (x | u)
        · exact herr x _
        · refine hok _ _ ⟨h.attempted, h.idle, hevents, ?_, h.goesOn, h.sent⟩ h.observed
          intro _
          exact hheld.push hcontrol (of_decide_eq_true hfew) (of_decide_eq_true hsmall)
      · have hrelease : ∀ φ' : Passed, φ'.attempts = φ.attempts →
            φ'.recovering = φ.recovering → φ'.events = φ.events →
            φ'.observations = φ.observations →
            φ'.sent = (if job.request.stream then taken.map (·.document) else []) → (do
              ok (← consult .resize)
              pure { st with buffering := false, preamble := [] } :
            Run Label StreamState).Meets (passing job) s φ' Q := by
          intro φ' ha hi he ho hsent'
          simp only [meets_bind, meets_ask, meets_ok, meets_pure]
          refine ⟨⟨hs' _, trivial⟩, ?_⟩
          rintro (x | u)
          · exact herr x _
          · refine hok _ _ ⟨ha ▸ h.attempted, hi.trans h.idle, he.trans hevents,
              Bool.noConfusion, h.goesOn, ?_⟩ (ho.trans h.observed)
            · show φ'.sent = if job.request.stream && !false then _ else _
              rw [Bool.not_false, Bool.and_true]
              exact hsent'
        rw [meets_bind, meets_doWhen]
        split
        · next hstream =>
          apply deliverAll_passing hs
          · show φ.sent ++ st.preamble <+: (throughTerminal φ.events).map (·.document)
            rw [hsent, hheld.preamble, h.events, throughTerminal_append h.goesOn, List.map_append]
            exact List.prefix_append _ _
          · apply hrelease
            · rfl
            · rfl
            · rfl
            · rfl
            · show φ.sent ++ st.preamble = _
              rw [hsent, hheld.preamble, if_pos hstream]
              rfl
          · exact herr
        · next hstream =>
          apply hrelease
          · rfl
          · rfl
          · rfl
          · rfl
          · rw [if_neg hstream]
            exact hsent
  · next hb =>
    exact hok st φ ⟨h.attempted, h.idle, hevents, fun hb' ↦ absurd hb' hb, h.goesOn, h.sent⟩
      h.observed

/-- A terminal event is not held back. -/
theorem Taking.released {event : GatewayEvent} (h : Taking job st (taken ++ [event]) sent rest φ)
    (hterminal : Codex.isTerminal event.received = true) : st.buffering = false := by
  cases hb : st.buffering with
  | false => rfl
  | true =>
    have hcontrol := (h.held hb).control event (List.mem_append_right _ (List.mem_singleton_self _))
    cases (recoveryPreamble_not_terminal hcontrol).symm.trans hterminal

/-- With the terminal event everything up to it was sent. -/
theorem Taking.complete {event : GatewayEvent} (h : Taking job st (taken ++ [event]) taken rest φ)
    (hterminal : Codex.isTerminal event.received = true)
    (hsent : φ.sent = taken.map (·.document)) (encoded : List (Json × Nat)) :
    Passed.Complete { φ with encoded := encoded, sent := φ.sent ++ [event.document] } := by
  have hall : throughTerminal φ.events = taken ++ [event] := by
    rw [h.events, List.append_assoc, throughTerminal_append h.goesOn, List.singleton_append,
      throughTerminal, if_pos hterminal]
  refine ⟨?_, event, ?_, hterminal⟩
  · show φ.sent ++ [event.document] = (throughTerminal φ.events).map (·.document)
    rw [hall, hsent, List.map_append]
    rfl
  · show (throughTerminal φ.events).getLast? = some event
    rw [hall, List.getLast?_concat]

private theorem finishStream_passing {event : GatewayEvent}
    (h : Still (Taking job st (taken ++ [event]) taken rest) s φ)
    (hterminal : Codex.isTerminal event.received = true) :
    (finishStream job event : Run Label Unit).Meets (passing job) s φ fun _ ↦ Delivered job := by
  have hb := h.known.released hterminal
  -- What follows is begun where a streaming client has everything.
  have hbody : ∀ rest : Run Label Unit,
      (∀ s φ, (job.request.stream = true → φ.Complete) →
        rest.Meets (passing job) s φ fun _ ↦ Delivered job) →
      (do
        finalize job event.error
        doWhen job.request.stream (deliverDocument event.document)
        rest : Run Label Unit).Meets (passing job) s φ fun _ ↦ Delivered job := by
    intro rest hend
    rw [meets_bind]
    apply (finalize_stays (still_routine _) (fun _ ↦ still_keeps rfl) event.error s φ h).mono
    rintro (x | u) s' φ' h'
    · exact h'.delivered
    · dsimp only
      rw [meets_bind, meets_doWhen]
      split
      · next hstream =>
        have hsent : φ'.sent = taken.map (·.document) := by
          rw [h'.known.sent, hb, hstream]
          rfl
        apply deliverDocument_passing h'.undelivered (h'.known.next_in_place hsent)
        · intro size
          exact hend s' _ fun _ ↦ h'.known.complete hterminal hsent _
        · intro x φ''
          exact delivered_of_not h'.undelivered
      · next hstream => exact hend s' φ' fun hyes ↦ absurd hyes hstream
  unfold finishStream
  refine hbody _ ?_
  intro s' φ' hcomplete
  rw [meets_bind, meets_update]
  dsimp only
  cases event.error with
  | none => exact fun _ hstream _ ↦ hcomplete hstream
  | some error => exact fun _ hstream _ ↦ hcomplete hstream

private theorem passOn_passing {event : GatewayEvent}
    (h : Still (Taking job st (taken ++ [event]) taken rest) s φ)
    (hobserved : φ.observations = (taken ++ [event]).length + 1) :
    (passOn job st event rest).Meets (passing job) s φ fun _ ↦ Delivered job := by
  unfold passOn
  split
  · next hterminal => exact finishStream_passing h hterminal
  · next hno =>
    have hgoesOn : ∀ e ∈ taken ++ [event], Codex.isTerminal e.received = false := by
      intro e he
      rcases List.mem_append.mp he with he | he
      · exact h.known.goesOn e he
      · exact (List.mem_singleton.mp he) ▸ Bool.eq_false_of_not_eq_true hno
    rw [meets_bind, meets_doWhen]
    split
    · next hout =>
      have hsent : φ.sent = taken.map (·.document) := by
        rw [h.known.sent, hout]
        rfl
      apply deliverDocument_passing h.undelivered (h.known.next_in_place hsent)
      · intro size
        refine ⟨h.undelivered, taken ++ [event], ⟨h.known.attempted, h.known.idle,
          h.known.events, ?_, hgoesOn, ?_⟩, hobserved⟩
        · intro hb
          rw [hb, Bool.not_true, Bool.and_false] at hout
          cases hout
        · show φ.sent ++ [event.document] = _
          rw [hout, hsent, List.map_append]
          rfl
      · intro x φ'
        exact delivered_of_not h.undelivered
    · next hout =>
      refine ⟨h.undelivered, taken ++ [event], ⟨h.known.attempted, h.known.idle, h.known.events,
        h.known.held, hgoesOn, ?_⟩, hobserved⟩
      have hnone := h.known.sent
      rw [if_neg hout] at hnone ⊢
      exact hnone

private theorem observeAccount_passing {Q : Except Error Unit → Execution → Passed → Prop}
    (hs : s.terminalDelivered = false) (lease : DispatchLease) (event : GatewayEvent)
    (hok : Q (.ok ()) s { φ with observations := φ.observations + 1 })
    (herr : ∀ x φ', Q (.error x) s φ') :
    (observeAccount lease event : Run Label Unit).Meets (passing job) s φ Q := by
  unfold observeAccount
  simp only [meets_bind, meets_ask, meets_ok, meets_doWhen]
  refine ⟨⟨delivered_of_not hs, trivial⟩, ?_⟩
  rintro (x | u)
  · exact herr x _
  · dsimp only
    split
    · refine ⟨⟨delivered_of_not hs, trivial⟩, ?_⟩
      rintro (x | u)
      · exact herr x _
      · exact hok
    · exact hok

private theorem observeEvent_passing {event : GatewayEvent} (hs : s.terminalDelivered = false)
    (h : Between job st taken (event :: rest) φ) :
    (observeEvent job st event rest).Meets (passing job) s φ fun _ ↦ Delivered job := by
  unfold observeEvent modifyRecord
  rw [meets_bind]
  apply hold_passing hs h
  · intro st' φ' h' hobserved
    dsimp only
    rw [meets_bind, meets_update]
    dsimp only
    rw [meets_bind]
    refine observeAccount_passing ?_ st'.lease event ?_ ?_
    · exact hs
    · apply passOn_passing
      · exact ⟨hs, h'.observe⟩
      · rw [List.length_append]
        exact congrArg (· + 1) hobserved
    · intro x φ''
      exact delivered_of_not hs
  · intro x φ'
    exact delivered_of_not hs

/-- While a stream is buffered the request may be repeated. -/
theorem Between.recoverable (h : Between job st taken rest φ) (hb : st.buffering = true) :
    φ.Recoverable := by
  have hheld := h.held hb
  refine ⟨?_, h.idle, hheld.first, taken, rest, h.events, h.observed, hheld.toControls⟩
  rw [h.sent, hb, Bool.not_true, Bool.and_false, if_neg Bool.false_ne_true]

private theorem takeEvents_passing (hs : s.terminalDelivered = false) {events : List GatewayEvent}
    (h : Between job st taken events φ) :
    (takeEvents job st events).Meets (passing job) s φ fun _ ↦ Delivered job := by
  have hstill : Still (· = φ) s φ := ⟨hs, rfl⟩
  cases events with
  | nil =>
    unfold takeEvents
    simp only [meets_bind, meets_ask, meets_ok, meets_jump]
    refine ⟨hstill.allows rfl, ?_⟩
    rintro (x | u)
    · exact hstill.delivered
    · exact ⟨hs, taken, h⟩
  | cons event rest =>
    unfold takeEvents
    rw [meets_bind, meets_ok]
    cases hr : streamRecovery st event with
    | error x => exact hstill.delivered
    | ok recovery =>
      cases recovery with
      | none => exact observeEvent_passing hs h
      | some found =>
        have hb : st.buffering = true := by
          unfold streamRecovery at hr
          split at hr
          · cases hr
          · next error he => exact (Option.filter_eq_some_iff.mp he).2
        exact recover_passing hs (h.recoverable hb) st.lease found.1 st.sentAttempts

/-! ### The task -/

/-- Every block keeps to the monitor. -/
theorem block_passing (l : Label) (h : Begins job s φ l) :
    (block job l).Meets (passing job) s φ fun _ ↦ Delivered job := by
  cases l with
  | select =>
    have hw : Waiting s φ := ⟨h.2, h.1⟩
    apply delivers_of_stays _ hw
    exact .bind (.ask (still_keeps rfl)) fun _ ↦ .jump (waiting_opens (.inl rfl))
  | reserve =>
    have hw : Waiting s φ := ⟨h.2, h.1⟩
    apply delivers_of_stays _ hw
    exact .bind (takeTicket_stays (still_routine _)) fun _ ↦ .jump (waiting_opens (.inr rfl))
  | wait =>
    have hw : Waiting s φ := ⟨h.2, h.1⟩
    apply delivers_of_stays _ hw
    exact waitForAccount_stays (still_routine _) (waiting_opens (.inl rfl))
      (waiting_opens (.inr rfl)) (fun _ ↦ still_keeps rfl) takePermit_waiting
  | attempt lease prepared n => exact attempt_passing ⟨h.2.1, h.1, h.2.2⟩ lease prepared n
  | unary size => exact receiveUnary_passing h size
  | stream st =>
    obtain ⟨hs, taken, h⟩ := h
    exact receiveStream_passing hs h
  | events st events =>
    obtain ⟨hs, taken, h⟩ := h
    exact takeEvents_passing hs h

/-- The epilogue claims nothing new and passes nothing on. -/
theorem closes_passing (h : Delivered job s φ) (x : Except Error Unit) :
    (Gateway.scheme job).Closes (passing job) (fun _ ↦ Delivered job) x s φ := by
  have hkeeps : ∀ c : Call, c.isAside = true →
      (passing job).straight.Keeps (Delivered job) c := by
    intro c hc s φ h
    refine ⟨hc, fun r ↦ ?_⟩
    rw [show (passing job).straight.next φ c r = φ from φ.next_of_aside hc r]
    exact h
  have hroutine : Routine (passing job).straight (Delivered job) :=
    ⟨fun c hc ↦ hkeeps c (isAside_of_isRoutine hc),
      fun s s' φ hs h ht ↦ h (hs.terminalDelivered.symm.trans ht)⟩
  exact close_stays hroutine (fun _ ↦ hkeeps _ rfl) job x s φ h

/-- What is answered elsewhere changes nothing of what was sent. -/
theorem Delivered.lost (h : Delivered job s φ) {c : Call} (hc : c.isRemote = true)
    (r : c.Reply) : Delivered job s (φ.next c r) := by
  cases ha : c.isAside with
  | true =>
    rw [φ.next_of_aside ha]
    exact h
  | false =>
    cases c with
    | consult q =>
      cases q with
      | applyQuotaObservation => exact h
      | deliver => cases hc
      | decode | encode => cases hc
      | _ => cases ha
    | beginEncryptedReasoningRecovery | sendOnce => cases hc
    | _ => cases ha

private theorem scheme_passing (job : Job) :
    (Gateway.scheme job).Keeps (passing job) fun _ ↦ Delivered job where
  block := by
    intro l s φ h
    apply (block_passing l h).mono
    intro x s φ h
    exact ⟨trivial, closes_passing h x⟩
  abandon := fun φ s c x h _ ↦ closes_passing h.1 (.error x)
  abandonAnswered := by
    intro φ s c x r h hc
    exact closes_passing (h.1.lost hc r) (.error x)

/-! ### What a trace tells -/

private theorem passing_phase (trace : List (Sigma Call.Reply)) :
    (passing job).phase .none trace = Passed.after trace := by
  induction trace with
  | nil => rfl
  | cons e trace ih =>
    show Passed.next ((passing job).phase .none trace) e.1 e.2 = _
    rw [ih]
    rfl

/-- There are two attempts at most, and a client was sent events of one of them, in their
order. -/
structure Passed.Unmixed (φ : Passed) : Prop where
  attempts : φ.attempts.length ≤ 2
  sent : φ.sent <+: (throughTerminal φ.events).map (·.document)

/-- Over a call in its place a client is sent events of one attempt only. -/
theorem Passed.Unmixed.next (h : φ.Unmixed) {c : Call} (hc : InPlace φ c) (r : c.Reply) :
    (φ.next c r).Unmixed := by
  cases ha : c.isAside with
  | true =>
    rw [φ.next_of_aside ha]
    exact h
  | false =>
    cases c with
    | beginEncryptedReasoningRecovery =>
      cases r with
      | error x => exact h
      | ok u =>
        refine ⟨h.attempts, ?_⟩
        show φ.sent <+: _
        rw [hc.unsent]
        exact List.nil_prefix
    | sendOnce prepared =>
      have hunsent : φ.sent = [] ∧ φ.attempts.length ≤ 1 := by
        rcases hc with rfl | hdue
        · exact ⟨rfl, Nat.zero_le 1⟩
        · exact ⟨hdue.unsent, hdue.second.le⟩
      refine ⟨Nat.succ_le_succ hunsent.2, ?_⟩
      show φ.sent <+: _
      rw [hunsent.1]
      exact List.nil_prefix
    | consult q =>
      cases q with
      | decode =>
        cases r with
        | error x => exact h
        | ok events =>
          refine ⟨List.length_modifyHead.trans_le h.attempts, h.sent.trans ?_⟩
          apply List.IsPrefix.map
          obtain ⟨attempts, recovering, encoded, sent⟩ := φ
          cases recovering with
          | true => exact List.prefix_rfl
          | false =>
            cases attempts with
            | nil => exact List.prefix_rfl
            | cons answered older => exact throughTerminal_prefix answered events
      | encode document =>
        cases r with
        | error x => exact h
        | ok size => exact ⟨h.attempts, h.sent⟩
      | applyQuotaObservation => exact ⟨h.attempts, h.sent⟩
      | deliver delivery =>
        cases delivery with
        | document document =>
          cases r with
          | error x => exact h
          | ok u => exact ⟨h.attempts, hc⟩
        | _ => cases ha
      | _ => cases ha
    | _ => cases ha

/-- Every request that kept to the monitor so far passes on no mix. -/
theorem unmixed_of_lawful {trace : List (Sigma Call.Reply)}
    (h : (passing job).Lawful .none trace) : (Passed.after trace).Unmixed := by
  induction trace with
  | nil => exact ⟨Nat.zero_le 2, List.nil_prefix⟩
  | cons e trace ih =>
    obtain ⟨⟨s, hc⟩, hl⟩ := h
    rw [passing_phase] at hc
    apply (ih hl).next
    rcases hc with hc | hc
    · exact hc.2
    · exact inPlace_of_aside hc

/-! ### A recovered stream -/

namespace Sample

/-- Replies of a quiet day, with an upstream that streams the events. -/
def streamReply (events : List GatewayEvent) : (q : Consult) → q.Reply
  | .decode => .ok events
  | .nextChunk => .bytes 1
  | q => reply 200 q

/-- A request goes on by at most `n` calls with such an upstream. -/
def streamTurns (events : List GatewayEvent) (id : Uuid) (n : Nat) : List Move :=
  (List.replicate n [Move.drive id .proceed, Move.drive id
    (.perform ⟨.answered, 0, .poll, 1000 + id, 2000 + id, streamReply events⟩)]).flatten

/-- An event as it is received, with its kind for the document that is sent. -/
def event (kind : String) (response : Json) : GatewayEvent where
  received := .obj [("type", .str kind), ("response", response)]
  document := .str kind
  responseModel := none
  usage := none
  error := none
  disables := false

/-- A streaming client whose first attempt is rejected after a control event. -/
def recoveredStream : List Move :=
  .arrive 1 Scheduling.Sample.key { request true with stream := true } ::
    (streamTurns [event "response.created" (.obj []), event "response.failed" errorBody] 1 45 ++
      streamTurns [event "response.created" (.obj []), event "response.completed" (.obj [])] 1 30)

end Sample

/-- The task is through, and its last event was delivered to a streaming client. -/
def Life.delivered : Life → Bool
  | .running job ⟨.ended _ s, _⟩ =>
    s.terminalDelivered && job.request.stream && !job.request.kind.isUnary
  | _ => false

namespace World

/-- Every request of a reachable installation keeps to the monitor. -/
theorem Reachable.passing {w : World} (h : w.Reachable) :
    w.Watched Gateway.passing (fun job _ ↦ Delivered job) .none := by
  apply h.invariant
  · intro settings accounts keys id life hl
    cases (AList.lookup_empty id).symm.trans hl
  · intro w m hw
    apply hw.step scheme_passing
    intro id key request model since level now
    exact ⟨rfl, rfl⟩

/-- A recovered stream is no mix of two attempts. Whatever the upstream sends and the cleanup
does, a request makes two attempts at most, the second only when a recovery was permitted; that
is asked for only while nothing of the first was sent to the client and what was taken of it are
at most 16 control events of at most 64 KiB when encoded. From then on the client is sent events
of the second attempt only. What it is sent are the first events of its attempt, in order and up
to the one that ends the stream, and all of them once that one was delivered. -/
theorem stream_of_one_attempt {w : World} (h : w.Reachable) {id : Uuid} {job : Job}
    {t : Task Execution Call Call.Reply Label Error Unit}
    (hl : w.tasks.lookup id = some (.running job t)) :
    ((Passed.after t.trace).attempts.length ≤ 2 ∧
      (Passed.after t.trace).sent <+:
        (throughTerminal (Passed.after t.trace).events).map (·.document)) ∧
    (∀ x s, t.stage = .ended x s → s.terminalDelivered = true → job.request.stream = true →
      job.request.kind.isUnary = false → (Passed.after t.trace).Complete) ∧
    ∀ newer older c r, t.trace = newer ++ ⟨c, r⟩ :: older →
      (∀ prepared, c = .sendOnce prepared →
        Passed.after older = .none ∨ (Passed.after older).Due) ∧
      (c = .beginEncryptedReasoningRecovery → (Passed.after older).Recoverable) := by
  obtain ⟨hfollows, hlawful⟩ := h.passing id _ hl
  have hunmixed := unmixed_of_lawful hlawful
  refine ⟨⟨hunmixed.attempts, hunmixed.sent⟩, ?_, ?_⟩
  · intro x s hs
    rw [hs, passing_phase] at hfollows
    exact hfollows
  · intro newer older c r ht
    rw [ht] at hlawful
    obtain ⟨⟨s, hc⟩, -⟩ := hlawful.at_call
    rw [passing_phase] at hc
    constructor
    · rintro prepared rfl
      rcases hc with hc | hc
      · exact hc.2
      · cases hc
    · rintro rfl
      rcases hc with hc | hc
      · exact hc.2
      · cases hc

/-- A recovered stream whose client has all of the second attempt. -/
theorem stream_of_one_attempt_recovered :
    ∃ job t, (Sample.after Sample.recoveredStream).tasks.lookup 1 = some (.running job t) ∧
      (Passed.after t.trace).attempts.length = 2 ∧ (Passed.after t.trace).Complete := by
  have hrun : ((Sample.after Sample.recoveredStream).tasks.lookup 1).map (fun life ↦
      (life.delivered, (Passed.after life.trace).attempts.length)) = some (true, 2) := by
    decide +kernel
  obtain ⟨life, hl, heq⟩ := Option.map_eq_some_iff.mp hrun
  obtain ⟨hdelivered, htwo⟩ := Prod.mk.inj heq
  cases life with
  | starting key request t => cases hdelivered
  | running job t =>
    obtain ⟨stage, trace⟩ := t
    cases stage with
    | ended x s =>
      obtain ⟨hflag, hkind⟩ := Bool.and_eq_true_iff.mp hdelivered
      obtain ⟨hflag, hstream⟩ := Bool.and_eq_true_iff.mp hflag
      refine ⟨job, _, hl, htwo, ?_⟩
      exact (stream_of_one_attempt (Sample.reachable _) hl).2.1 x s rfl hflag hstream
        (Bool.not_eq_true' _ ▸ hkind)
    | _ => cases hdelivered

end World
end Xxgate.Gateway

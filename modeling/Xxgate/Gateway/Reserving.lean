import Xxgate.Gateway.Monitor

/-!
# From the queue to the permit

One lemma for each part of a request's program up to its first permit: under every reply it
makes only calls that are in order, and ends or jumps on where it may.
-/

namespace Xxgate.Gateway

open Xxgate.Base Xxgate.Core Xxgate.Scheduling
open Coroutine

variable {L : Type} {job : Job} {s : Execution} {φ : Progress}

/-- What a body may always end with. -/
structure Fine (job : Job) (s : Execution) (φ : Progress) : Prop where
  commit : φ.commit ≠ .done
  shown : Shown job s φ

/-- A body may end wherever it is on its way. -/
theorem Steady.fine (h : Steady job s φ) : Fine job s φ := ⟨h.commit, h.shown⟩

/-- On the way every call in order is allowed. -/
theorem Steady.allows (h : Steady job s φ) {c : Call} (ho : InOrder job φ c) :
    (monitor job).allowed φ s c :=
  ⟨h.unrefused, fun hc ↦ absurd hc h.commit, fun _ ↦ h.shown, ho⟩

/-- Without a refusal the record shows the permits. -/
theorem Steady.permits (h : Steady job s φ) : s.record.upstreamAttempts = φ.permits := by
  rw [h.shown.attempts, Progress.shown, h.unrefused]
  rfl

/-- The way goes on while the record follows the permits. -/
theorem Steady.step (h : Steady job s φ) {s' : Execution} {φ' : Progress}
    (hid : s'.record.id = s.record.id) (hkey : s'.record.keyId = s.record.keyId)
    (hr : φ'.refused = φ.refused) (hc : φ'.commit ≠ .done)
    (ha : s'.record.upstreamAttempts = φ'.permits)
    (hf : s'.finalized = true → φ'.finished = true)
    (hpan : s'.panicked = true → φ'.panicked = true) : Steady job s' φ' := by
  have hu : φ'.refused = false := hr.trans h.unrefused
  refine ⟨hu, hc, hid.trans h.shown.id, hkey.trans h.shown.key, ?_, hf, hpan⟩
  rw [ha, Progress.shown, hu]
  rfl

/-- Checking the session passes, or refuses the request. -/
theorem checkSessionSafety_meets {Q : Except Error Unit → Execution → Progress → Prop}
    (h : Steady job s φ) (hok : Q (.ok ()) s φ)
    (herr : ∀ x, Q (.error x) s { φ with refused := true }) :
    (checkSessionSafety : Run Label Unit).Meets (monitor job) s φ Q := by
  unfold checkSessionSafety
  simp only [meets_bind, meets_read]
  split
  · exact hok
  · simp only [meets_bind, meets_ask, meets_ok]
    refine ⟨h.allows trivial, ?_⟩
    rintro (x | u)
    · exact herr x
    · exact hok

/-- Looking the model up changes nothing. -/
theorem currentModel_meets {Q : Except Error ModelSpec → Execution → Progress → Prop}
    (h : Steady job s φ) {moment : String} (hok : ∀ m, Q (.ok m) s φ)
    (herr : ∀ x, Q (.error x) s φ) :
    (currentModel job moment : Run Label ModelSpec).Meets (monitor job) s φ Q := by
  unfold currentModel
  simp only [meets_bind, meets_ask, meets_ok]
  refine ⟨h.allows trivial, ?_⟩
  rintro (x | models)
  · exact herr x
  · dsimp only
    cases models.find? fun m ↦ m.id == job.model.id && m.enabled with
    | none => exact herr _
    | some m =>
      simp only [Option.elim_some]
      split
      · exact herr _
      · simp only [meets_bind, meets_ask, meets_ok]
        refine ⟨h.allows trivial, ?_⟩
        rintro (x | u)
        · exact herr x
        · exact hok m

/-- Setting things a record shows nothing of keeps what it shows. -/
theorem Shown.same (h : Shown job s φ) {s' : Execution} (hid : s'.record.id = s.record.id)
    (hkey : s'.record.keyId = s.record.keyId)
    (ha : s'.record.upstreamAttempts = s.record.upstreamAttempts)
    (hf : s'.finalized = s.finalized) (hpan : s'.panicked = s.panicked) : Shown job s' φ :=
  ⟨hid.trans h.id, hkey.trans h.key, ha.trans h.attempts, fun hf' ↦ h.finalized (hf ▸ hf'),
    fun hp' ↦ h.panicked (hpan ▸ hp')⟩

/-- Finishing a record leaves its key alone. -/
theorem finished_key (job : Job) (now : Nat) (error : Option Error) (e : Execution) :
    (finished job now error e).keyId = e.record.keyId := by
  unfold finished valued
  dsimp only
  split
  · rfl
  · split <;> rfl

/-- The record `finalize` writes shows what the execution showed. -/
theorem finished_records (h : Shown job s φ) (now : Nat) (error : Option Error) :
    Records job φ (finished job now error s) := by
  unfold finished valued
  dsimp only
  split
  · next h0 => exact ⟨h.id, h.attempts, _, rfl, ⟨fun _ ↦ h0, fun _ ↦ rfl⟩, fun _ ↦ rfl⟩
  · next h0 =>
    split
    · exact ⟨h.id, h.attempts, _, rfl, ⟨fun hv ↦ absurd hv (valueSearch_executed _ _),
        fun h' ↦ absurd h' h0⟩, fun h' ↦ absurd h' h0⟩
    · exact ⟨h.id, h.attempts, _, rfl, ⟨fun hv ↦ absurd hv (valueUsage_executed _ _ _),
        fun h' ↦ absurd h' h0⟩, fun h' ↦ absurd h' h0⟩

/-- Finalizing writes a record that shows what happened, and notes that it did. -/
theorem finalize_meets {M : Monitor Execution Call Call.Reply L Progress}
    {Q : Except Error Unit → Execution → Progress → Prop} (h : Shown job s φ)
    (hnext : M.next = Progress.next) (hnow : M.allowed φ s (.consult .now))
    (hfinish : ∀ s' r, Shown job s' φ → Records job φ r → M.allowed φ s' (.finishRequest r))
    {error : Option Error}
    (hok : ∀ s', s'.finalized = true → Shown job s' { φ with finished := true } →
      Q (.ok ()) s' { φ with finished := true })
    (herr : ∀ x s', Shown job s' φ → Q (.error x) s' φ) :
    (finalize job error).Meets M s φ Q := by
  unfold finalize
  simp only [meets_bind, meets_ask, meets_ok, meets_read, meets_update, hnext]
  refine ⟨hnow, ?_⟩
  intro now
  have hr := finished_records h now error
  have hs : Shown job { s with record := finished job now error s } φ :=
    ⟨hr.id, (finished_key job now error s).trans h.key, hr.attempts, h.finalized, h.panicked⟩
  refine ⟨hfinish _ _ hs hr, ?_⟩
  rintro (x | u)
  · exact herr x _ hs
  · exact hok _ rfl ⟨hr.id, hs.key, hr.attempts, fun _ ↦ rfl, h.panicked⟩

/-! ### The body, part by part -/

/-- The parts below may end, or fail, wherever it is fine. -/
abbrev Ends (job : Job) {α : Type} (_ : Except Error α) (s : Execution) (φ : Progress) : Prop :=
  Fine job s φ

/-- Taking the ticket keeps to the monitor. -/
theorem takeTicket_meets {Q : Except Error Unit → Execution → Progress → Prop}
    (h : Steady job s φ) (hp : φ.permits = 0) (ha : φ.attempts = []) (hl : φ.lease = none)
    (ht : s.ticket = φ.ticket)
    (hok : ∀ s', Unsent job s' { φ with ticket := true } →
      Q (.ok ()) s' { φ with ticket := true })
    (herr : ∀ x φ', Fine job s φ' → Q (.error x) s φ') :
    (takeTicket job : Run Label Unit).Meets (monitor job) s φ Q := by
  unfold takeTicket
  simp only [meets_bind, meets_read]
  split
  · next hs =>
    have ht' : { φ with ticket := true } = φ := by rw [← ht.symm.trans hs]
    rw [ht'] at hok
    exact hok _ ⟨⟨h.unrefused, h.commit, h.shown.same rfl rfl rfl rfl rfl⟩, rfl, hp, ha⟩
  · next hs =>
    have hf : s.ticket = false := Bool.eq_false_iff.mpr hs
    simp only [meets_bind, meets_ask, meets_ok]
    cases s.record.groupId with
    | none => exact herr _ _ h.fine
    | some groupId =>
      simp only [Option.elim_some]
      refine ⟨h.allows ⟨ht ▸ hf, hl, hp, by rw [h.shown.key]; rfl⟩, ?_⟩
      rintro (x | u)
      · exact herr x _ ⟨h.commit, h.shown.id, h.shown.key, h.shown.attempts, h.shown.finalized,
          h.shown.panicked⟩
      · exact hok s ⟨⟨h.unrefused, h.commit, h.shown.id, h.shown.key, h.shown.attempts,
          h.shown.finalized, h.shown.panicked⟩, hf, hp, ha⟩

private theorem commitBinding_meets {Q : Except Error Unit → Execution → Progress → Prop}
    (h : Steady job s φ) {lease : DispatchLease} (hl : φ.lease = some lease)
    (hc : φ.commit = .none) (hn : lease.needsCommit = true)
    (hok : Q (.ok ()) s { φ with lease := some (settled lease), commit := .none })
    (herr : ∀ x φ', Fine job s φ' → Q (.error x) s φ') :
    (commitBinding lease : Run Label Unit).Meets (monitor job) s φ Q := by
  have hconfirm : ∀ commit, commit ≠ .none →
      (call .confirmBinding : Run Label Unit).Meets (monitor job) s
        { φ with commit := commit } Q := by
    intro commit hcommit
    rw [meets_ask]
    refine ⟨⟨h.unrefused, fun _ ↦ rfl, (fun h ↦ by cases h), ⟨lease, hl, hn⟩, hcommit⟩, ?_⟩
    intro u
    have hs : ({ φ with commit := commit } : Progress).lease.map settled = some (settled lease) :=
      congrArg (Option.map settled) hl
    simp only [monitor, Progress.next, hs]
    exact hok
  have hpause : ∀ x : Error, (do call .setPaused; fail x : Run Label Unit).Meets (monitor job) s
      { φ with commit := .failed } Q := by
    intro x
    simp only [meets_bind, meets_ask, meets_fail]
    refine ⟨⟨h.unrefused, (fun h ↦ by cases h), (fun h ↦ by cases h), rfl⟩, ?_⟩
    intro u
    exact herr x _ ⟨Commit.noConfusion, h.shown.id, h.shown.key, h.shown.attempts,
      h.shown.finalized, h.shown.panicked⟩
  unfold commitBinding
  simp only [meets_bind, meets_ask]
  refine ⟨h.allows ⟨hc, lease, hl, hn, rfl, rfl⟩, ?_⟩
  rintro (x | u)
  · simp only [meets_bind, meets_ask]
    refine ⟨⟨h.unrefused, (fun h ↦ by cases h), fun _ ↦ ⟨h.shown.id, h.shown.key,
      h.shown.attempts, h.shown.finalized, h.shown.panicked⟩, trivial⟩, ?_⟩
    rintro (y | bindings)
    · exact hpause x
    · dsimp only
      split
      · exact hconfirm .failed Commit.noConfusion
      · exact hpause x
  · exact hconfirm .done Commit.noConfusion

private theorem confirm_meets {Q : Except Error DispatchLease → Execution → Progress → Prop}
    (h : Unsent job s φ) {lease : DispatchLease} (hl : φ.lease = some lease)
    (hc : φ.commit = .none)
    (hok : ∀ lease' φ', Unsent job s φ' → φ'.lease = some lease' → φ'.ticket = φ.ticket →
      Q (.ok lease') s φ')
    (herr : ∀ x φ', Fine job s φ' → Q (.error x) s φ') :
    (confirm job lease : Run Label DispatchLease).Meets (monitor job) s φ Q := by
  unfold confirm
  split
  · simp only [meets_bind, meets_ask, meets_ok, meets_pure]
    refine ⟨h.allows (by rw [InOrder, hl]; rfl), ?_⟩
    rintro (x | u)
    · exact herr x φ h.fine
    · refine hok _ { φ with lease := φ.lease.map settled } ?_
        (congrArg (Option.map settled) hl) rfl
      exact ⟨⟨h.unrefused, h.commit, h.shown.id, h.shown.key, h.shown.attempts,
        h.shown.finalized, h.shown.panicked⟩, h.ticket, h.permits, h.attempts⟩
  · split
    · next hn =>
      simp only [meets_bind, meets_pure]
      apply commitBinding_meets h.toSteady hl hc hn
      · refine hok _ _ ?_ rfl rfl
        exact ⟨⟨h.unrefused, Commit.noConfusion, h.shown.id, h.shown.key, h.shown.attempts,
          h.shown.finalized, h.shown.panicked⟩, h.ticket, h.permits, h.attempts⟩
      · exact herr
    · exact hok lease φ h hl rfl

private theorem importAliases_meets {Q : Except Error Unit → Execution → Progress → Prop}
    (h : Steady job s φ) (lease : DispatchLease) (bindings : List Binding)
    (hok : Q (.ok ()) s φ) (herr : ∀ x, Q (.error x) s φ) :
    (importAliases lease bindings : Run Label Unit).Meets (monitor job) s φ Q := by
  induction bindings with
  | nil => exact hok
  | cons b rest ih =>
    unfold importAliases
    simp only [meets_bind, meets_doWhen, meets_ask, meets_ok]
    split
    · refine ⟨h.allows trivial, ?_⟩
      rintro (x | u)
      · exact herr x
      · exact ih
    · exact ih

private theorem loadIdentities_meets {Q : Except Error Unit → Execution → Progress → Prop}
    (h : Steady job s φ) (lease : DispatchLease) (hok : Q (.ok ()) s φ)
    (herr : ∀ x, Q (.error x) s φ) :
    (loadIdentities job lease : Run Label Unit).Meets (monitor job) s φ Q := by
  have hsecond : (doWhen (!job.request.stateless && decide (1 < lease.binding.generation)) (do
      let bindings ← ok (← call (.sessionBindings lease.binding.session))
      importAliases lease bindings) : Run Label Unit).Meets (monitor job) s φ Q := by
    simp only [meets_bind, meets_doWhen, meets_ask, meets_ok]
    split
    · refine ⟨h.allows trivial, ?_⟩
      rintro (x | bindings)
      · exact herr x
      · exact importAliases_meets h lease bindings hok herr
    · exact hok
  unfold loadIdentities
  rw [meets_bind, meets_doWhen]
  split
  · simp only [meets_bind, meets_ask, meets_ok]
    refine ⟨h.allows trivial, ?_⟩
    rintro (x | u)
    · exact herr x
    · exact hsecond
  · exact hsecond

private theorem choosePrice_meets {Q : Except Error Unit → Execution → Progress → Prop}
    (h : Unsent job s φ) (hok : ∀ s', Unsent job s' φ → Q (.ok ()) s' φ)
    (herr : ∀ x, Q (.error x) s φ) :
    (choosePrice job : Run Label Unit).Meets (monitor job) s φ Q := by
  unfold choosePrice modifyRecord
  split
  · simp only [meets_bind, meets_ask, meets_ok, meets_update]
    refine ⟨h.allows trivial, ?_⟩
    rintro (x | price)
    · exact herr x
    · exact hok _ ⟨⟨h.unrefused, h.commit, h.shown.same rfl rfl rfl rfl rfl⟩, h.ticket, h.permits,
        h.attempts⟩
  · simp only [meets_bind, meets_ask, meets_ok, meets_update]
    refine ⟨h.allows trivial, ?_⟩
    rintro (x | price)
    · exact herr x
    · exact hok _ ⟨⟨h.unrefused, h.commit, h.shown.same rfl rfl rfl rfl rfl⟩, h.ticket, h.permits,
        h.attempts⟩

/-- With its first permit the request goes to its first attempt. -/
theorem dispatched_meets (h : Unsent job s φ) {lease : DispatchLease}
    (hl : φ.lease = some lease) (prepared : PreparedRequest) (rewritten : Bool) :
    (dispatched job lease prepared rewritten).Meets (monitor job) s
      { φ with permits := φ.permits + 1 } (Ends job) := by
  have hs : ∀ s' : Execution, s'.record.id = s.record.id → s'.record.keyId = s.record.keyId →
      s'.record.upstreamAttempts = 1 → s'.finalized = s.finalized → s'.panicked = s.panicked →
      Steady job s' { φ with permits := φ.permits + 1 } := by
    intro s' hid hkey ha hf hpan
    refine h.toSteady.step hid hkey rfl h.commit ?_ (fun hf' ↦ h.shown.finalized (hf ▸ hf'))
      fun hp' ↦ h.shown.panicked (hpan ▸ hp')
    rw [ha, h.permits]
  unfold dispatched modifyRecord
  simp only [meets_bind, meets_update, meets_read, meets_ask, meets_ok, meets_doWhen, meets_jump]
  have h' := hs { s with record := { recordLease job lease s.record with
    state := .inflight, upstreamAttempts := 1 } } rfl rfl rfl rfl rfl
  have hentry : (monitor job).entry { φ with permits := φ.permits + 1 }
      { s with record := { recordLease job lease s.record with
        state := .inflight, upstreamAttempts := 1 } } (.attempt lease prepared 0) :=
    ⟨h', hl, by rw [h.attempts, h.permits]; rfl, by rw [h.attempts]; rfl, .inl h.attempts⟩
  have hsecond : (monitor job).allowed { φ with permits := φ.permits + 1 }
      { s with record := { recordLease job lease s.record with
        state := .inflight, upstreamAttempts := 1 } } (.appendEvent "dispatched") :=
    h'.allows trivial
  refine ⟨h'.allows trivial, ?_⟩
  rintro (x | u)
  · exact h'.fine
  · dsimp only
    split
    · refine ⟨h'.allows trivial, ?_⟩
      rintro (x | u)
      · exact h'.fine
      · refine ⟨hsecond, ?_⟩
        rintro (x | u)
        · exact h'.fine
        · exact hentry
    · refine ⟨hsecond, ?_⟩
      rintro (x | u)
      · exact h'.fine
      · exact hentry

/-- A lease given up before its permit leads back to the queue. -/
theorem giveUp_meets (h : Unsent job s φ) (ht : φ.ticket = false) :
    giveUp.Meets (monitor job) s φ (Ends job) := by
  unfold giveUp
  simp only [meets_bind, meets_ask, meets_jump]
  refine ⟨h.allows h.permits, ?_⟩
  intro u
  exact ⟨⟨h.unrefused, h.commit, h.shown.id, h.shown.key, h.shown.attempts, h.shown.finalized,
    h.shown.panicked⟩, h.permits, h.attempts, rfl, h.ticket.trans ht.symm⟩

private theorem takePermit_meets (h : Unsent job s φ) {lease : DispatchLease}
    (hl : φ.lease = some lease) (ht : φ.ticket = false) (prepared : PreparedRequest)
    (rewritten : Bool) :
    (takePermit job lease prepared rewritten).Meets (monitor job) s φ (Ends job) := by
  unfold takePermit
  rw [meets_bind]
  apply choosePrice_meets h
  · intro s' h'
    dsimp only
    rw [meets_bind, meets_ask]
    refine ⟨h'.allows ⟨by rw [hl]; rfl, h'.permits, by rw [h'.attempts]; rfl⟩, ?_⟩
    rintro (x | u)
    · dsimp only
      split
      · exact giveUp_meets h' ht
      · exact h'.fine
    · exact dispatched_meets h' hl prepared rewritten
  · intro x
    exact h.fine

private theorem prepareFor_meets (h : Unsent job s φ) {lease : DispatchLease}
    (hl : φ.lease = some lease) (ht : φ.ticket = false) (account : Account) :
    (prepareFor job lease account).Meets (monitor job) s φ (Ends job) := by
  unfold prepareFor modifyRecord
  rw [meets_bind]
  apply currentModel_meets h.toSteady
  · intro model
    have h' : Unsent job { s with record := recordLease job lease s.record } φ :=
      ⟨⟨h.unrefused, h.commit, h.shown.same rfl rfl rfl rfl rfl⟩, h.ticket, h.permits, h.attempts⟩
    simp only [meets_bind, meets_update, meets_ask, meets_ok, meets_doWhen]
    refine ⟨h'.allows trivial, ?_⟩
    rintro (x | ⟨prepared, rewritten⟩)
    · exact h'.fine
    · dsimp only
      split
      · refine ⟨h'.allows trivial, ?_⟩
        rintro (x | u)
        · exact h'.fine
        · exact takePermit_meets h' hl ht prepared rewritten
      · exact takePermit_meets h' hl ht prepared rewritten
  · intro x
    exact h.fine

private theorem prepareRequest_meets (h : Unsent job s φ) {lease : DispatchLease}
    (hl : φ.lease = some lease) (ht : φ.ticket = false) :
    (prepareRequest job lease).Meets (monitor job) s φ (Ends job) := by
  unfold prepareRequest
  simp only [meets_bind, meets_ask, meets_ok]
  refine ⟨h.allows trivial, ?_⟩
  rintro (x | u)
  · exact h.fine
  · refine ⟨h.allows trivial, ?_⟩
    rintro (_ | account)
    · exact h.fine
    · simp only [Option.elim_some]
      split
      · exact giveUp_meets h ht
      · exact prepareFor_meets h hl ht account

private theorem reserved_meets (h : Unsent job s φ) {lease : DispatchLease}
    (hl : φ.lease = some lease) (hc : φ.commit = .none) (ht : φ.ticket = false) :
    (reserved job lease).Meets (monitor job) s φ (Ends job) := by
  unfold reserved
  rw [meets_bind]
  apply checkSessionSafety_meets h.toSteady
  · dsimp only
    rw [meets_bind]
    apply confirm_meets h hl hc
    · intro lease' φ' h' hl' ht'
      dsimp only
      rw [meets_bind]
      apply loadIdentities_meets h'.toSteady
      · exact prepareRequest_meets h' hl' (ht'.trans ht)
      · intro x
        exact h'.fine
    · intro x φ' hf
      exact hf
  · intro x
    refine ⟨h.commit, h.shown.id, h.shown.key, ?_, h.shown.finalized, h.shown.panicked⟩
    rw [h.shown.attempts, Progress.shown, h.unrefused, Progress.shown, h.permits, h.attempts]
    rfl

/-- Waiting for an account keeps to the monitor. -/
theorem waitForAccount_meets (h : Unsent job s φ) (hl : φ.lease = none)
    (ht : φ.ticket = true) :
    (waitForAccount job).Meets (monitor job) s φ (Ends job) := by
  unfold waitForAccount
  rw [meets_bind, meets_ask]
  refine ⟨h.allows ⟨ht, hl, h.permits⟩, ?_⟩
  rintro (lease | x | _)
  · refine reserved_meets ?_ rfl rfl rfl
    exact ⟨⟨h.unrefused, Commit.noConfusion, h.shown.id, h.shown.key, h.shown.attempts,
      h.shown.finalized, h.shown.panicked⟩, h.ticket, h.permits, h.attempts⟩
  · exact ⟨h.commit, h.shown.id, h.shown.key, h.shown.attempts, h.shown.finalized, h.shown.panicked⟩
  · simp only [meets_bind, meets_doWhen, meets_ask, meets_ok, meets_jump]
    split
    · refine ⟨h.allows trivial, ?_⟩
      rintro (x | u)
      · exact h.fine
      · exact ⟨h, hl, ht⟩
    · exact ⟨h, hl, ht⟩

end Xxgate.Gateway

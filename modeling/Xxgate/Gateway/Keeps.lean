import Xxgate.Gateway.Attempts

/-!
# Requests keep to their monitor

The blocks of a request's task and its epilogue, and its handler before them, gathered into
`scheme_keeps` and `start_keeps`: whatever the replies are and wherever a part is dropped,
every call is in order.
-/

namespace Xxgate.Gateway

open Xxgate.Base Xxgate.Core Xxgate.Scheduling
open Coroutine

variable {job : Job} {s : Execution} {φ : Progress}

/-- Every block keeps to the monitor from where it may begin. -/
theorem block_meets {l : Label} (h : Entry job s φ l) :
    (block job l).Meets (monitor job) s φ (Ends job) := by
  cases l with
  | select =>
    obtain ⟨hs, hrest⟩ := h
    unfold block
    simp only [meets_bind, meets_ask, meets_jump]
    exact ⟨hs.allows trivial, fun _ ↦ ⟨hs, hrest⟩⟩
  | reserve =>
    obtain ⟨hs, hp, ha, hl, ht⟩ := h
    unfold block
    rw [meets_bind]
    apply takeTicket_meets hs hp ha hl ht
    · intro s' h'
      exact ⟨h', hl, rfl⟩
    · intro x φ' hf
      exact hf
  | wait => exact waitForAccount_meets h.1 h.2.1 h.2.2
  | attempt lease prepared sentAttempts =>
    obtain ⟨hs, hl, hp, hsent, hm⟩ := h
    unfold block
    rw [hsent]
    exact attempt_meets hs hl hp hm
  | unary size => exact receiveUnary_meets h size
  | stream st => exact receiveStream_meets h
  | events st events => exact takeEvents_meets h

/-! ### The epilogue -/

private theorem announce_meets {Q : Except Empty Unit → Execution → Progress → Prop}
    (error : Option Error) (hok : Q (.ok ()) s φ) :
    (announce job error).Meets (monitor job).straight s φ Q := by
  unfold announce
  simp only [meets_bind, meets_read]
  split
  · exact hok
  · simp only [meets_bind, meets_ask, meets_pure]
    refine ⟨trivial, ?_⟩
    intro r
    cases r with
    | error x => exact hok
    | ok u => exact hok

private theorem summarize_meets {Q : Except Empty Unit → Execution → Progress → Prop}
    (error : Option Error) (hok : Q (.ok ()) s φ) :
    (summarize error).Meets (monitor job).straight s φ Q := by
  unfold summarize
  simp only [meets_bind, meets_read, meets_doWhen, meets_ask, meets_pure]
  split
  · exact ⟨trivial, fun _ ↦ hok⟩
  · exact hok

private theorem saveSafety_meets {Q : Except Empty Unit → Execution → Progress → Prop}
    (h : Shown job s φ) (hok : ∀ φ', Shown job s φ' → Q (.ok ()) s φ') :
    (saveSafety job).Meets (monitor job).straight s φ Q := by
  unfold saveSafety
  simp only [meets_bind, meets_read]
  split
  · exact hok φ h
  · rw [meets_bind, meets_ask]
    refine ⟨trivial, ?_⟩
    rintro (x | u)
    · dsimp only
      rw [meets_ask]
      exact ⟨trivial, fun _ ↦ hok _ ⟨h.id, h.key, h.attempts, h.finalized, h.panicked⟩⟩
    · exact hok φ h

/-- An unfinished record is finished, or dispatch is paused. -/
theorem settleRecord_meets {Q : Except Empty Unit → Execution → Progress → Prop}
    (h : Shown job s φ) (error : Option Error)
    (hok : ∀ s' φ', Settled φ' → Q (.ok ()) s' φ') :
    (settleRecord job error).Meets (monitor job).straight s φ Q := by
  unfold settleRecord
  rw [meets_bind, meets_read]
  dsimp only
  split
  · rw [meets_bind, meets_outcome]
    apply finalize_meets h rfl trivial
    · intro s' r _ hr
      exact hr
    · intro s' _ _
      exact hok s' _ (.inl rfl)
    · intro x s' _
      dsimp only
      rw [meets_ask]
      exact ⟨trivial, fun _ ↦ hok s' _ (.inr rfl)⟩
  · next hf =>
    have hdone : Settled φ := .inl (h.finalized (by simpa using hf))
    simp only [meets_bind, meets_doWhen, meets_ask, meets_pure]
    split
    · exact ⟨trivial, fun _ ↦ hok s φ hdone⟩
    · exact hok s φ hdone

private theorem conclude_meets {Q : Except Empty Unit → Execution → Progress → Prop}
    (h : Shown job s φ) (error : Option Error)
    (hok : ∀ s' φ', Settled φ' → Q (.ok ()) s' φ') :
    (conclude job error).Meets (monitor job).straight s φ Q := by
  unfold conclude
  rw [meets_bind]
  apply saveSafety_meets h
  intro φ₁ h₁
  dsimp only
  rw [meets_bind]
  apply settleRecord_meets h₁
  intro s₂ φ₂ h₂
  dsimp only
  rw [meets_bind]
  apply summarize_meets
  dsimp only
  apply announce_meets
  exact hok s₂ φ₂ h₂

/-- Wherever the body ends or is dropped, the epilogue settles the request, unless the decoder
panicked. -/
theorem close_meets (h : Shown job s φ) (result : Except Error Unit) :
    (close job result).Meets (monitor job).straight s φ fun _ ↦ Through result := by
  have hrest : ∀ φ', Shown job s φ' → (do
      doWhen (!s.panicked) (conclude job (errorOf result))
      call .dropTicket : Epilogue).Meets (monitor job).straight s φ' fun _ ↦ Through result := by
    intro φ' h'
    rw [meets_bind, meets_doWhen]
    split
    · apply conclude_meets h'
      intro s₂ φ₂ h₂
      dsimp only
      rw [meets_ask]
      exact ⟨trivial, fun _ ↦ .inr h₂⟩
    · next hpanicked =>
      dsimp only
      rw [meets_ask]
      exact ⟨trivial, fun _ ↦ .inl (h'.panicked (by simpa using hpanicked))⟩
  unfold close
  simp only [meets_bind (m := call _), meets_ask]
  refine ⟨trivial, ?_⟩
  intro u
  rw [meets_bind, meets_read]
  dsimp only
  rw [meets_bind, meets_doWhen]
  split
  · rw [meets_ask]
    exact ⟨trivial, fun _ ↦ hrest _ ⟨h.id, h.key, h.attempts, h.finalized, h.panicked⟩⟩
  · exact hrest _ ⟨h.id, h.key, h.attempts, h.finalized, h.panicked⟩

/-- A free reply changes no count. -/
theorem shown_consulted (φ : Progress) (q : Consult) (r : q.Reply) :
    (φ.consulted q r).shown = φ.shown := by
  unfold Progress.consulted
  split <;> simp only [Progress.shown, Progress.answer, List.length_modifyHead]

/-- A panic stays known. -/
theorem panicked_consulted (φ : Progress) (q : Consult) (r : q.Reply)
    (h : φ.panicked = true) : (φ.consulted q r).panicked = true := by
  unfold Progress.consulted
  split
  all_goals first | exact h | rfl

/-- A free reply finishes nothing. -/
theorem finished_consulted (φ : Progress) (q : Consult) (r : q.Reply) :
    (φ.consulted q r).finished = φ.finished := by
  unfold Progress.consulted
  split <;> rfl

/-- A reply from elsewhere that is lost with the body changes nothing the epilogue needs. -/
theorem Shown.lost (h : Shown job s φ) {c : Call} (hc : c.isRemote = true) (r : c.Reply) :
    Shown job s (φ.next c r) := by
  cases c with
  | consult q =>
    exact ⟨h.id, h.key, h.attempts.trans (shown_consulted φ q r).symm,
      fun hf ↦ (finished_consulted φ q r).trans (h.finalized hf),
      fun hp ↦ panicked_consulted φ q r (h.panicked hp)⟩
  | finishRequest record =>
    cases r with
    | error x => exact h
    | ok u => exact ⟨h.id, h.key, h.attempts, fun _ ↦ rfl, h.panicked⟩
  | commitBinding | sessionBindings | safetyRejection | saveSafetyRejection | beginRequest
  | updateRequest | summarizeRequest | appendEvent =>
    exact ⟨h.id, h.key, h.attempts, h.finalized, h.panicked⟩
  | _ => cases hc

/-- The task waits for what is answered elsewhere. -/
theorem isAwait_of_isRemote {c : Call} (h : c.isRemote = true) : c.isAwait = true := by
  cases c with
  | consult q =>
    cases q with
    | headers | errorBody | nextChunk | deliver | polled => rfl
    | _ => exact h
  | wait => rfl
  | _ => exact h

/-- The task of a request keeps to the monitor. -/
theorem scheme_keeps (job : Job) : (Gateway.scheme job).Keeps (monitor job) Through where
  block := by
    intro l s φ hl
    apply (block_meets hl).mono
    intro x s φ hf
    exact ⟨hf.commit, close_meets hf.shown x⟩
  abandon := by
    intro φ s c x ha hc
    exact close_meets (ha.2.2.1 hc) (.error x)
  abandonAnswered := by
    intro φ s c x r ha hc
    exact close_meets ((ha.2.2.1 (isAwait_of_isRemote hc)).lost hc r) (.error x)

/-! ### Admission -/

private theorem admitSession_meets {id : Uuid} {key : GatewayKey} {request : GatewayRequest}
    {Q : Except Error Unit → Unit → Progress → Prop} (session : SessionKey)
    (hok : Q (.ok ()) () .none) (herr : ∀ x φ, Q (.error x) () φ) :
    (admitSession session).Meets (startMonitor id key request) () .none Q := by
  have hcheck : (do ok (← call (.safetyCheck session)) : Admission Unit).Meets
      (startMonitor id key request) () .none Q := by
    simp only [meets_bind, meets_ask, meets_ok]
    refine ⟨trivial, ?_⟩
    rintro (x | u)
    · exact herr x _
    · exact hok
  unfold admitSession
  simp only [meets_bind (m := call _), meets_bind (m := ok _), meets_ask, meets_ok]
  refine ⟨trivial, ?_⟩
  rintro (x | u)
  · exact herr x _
  · refine ⟨trivial, ?_⟩
    rintro (x | stored)
    · exact herr x _
    · cases stored with
      | none => exact hcheck
      | some entry => exact ⟨trivial, fun _ ↦ hcheck⟩

/-- The handler's part of a request keeps to its monitor. -/
theorem start_meets (id : Uuid) (key : GatewayKey) (request : GatewayRequest) :
    (start id key request).Meets (startMonitor id key request) () .none
      (HandedOver id key request) := by
  have henqueue : ∀ model : ModelSpec, (do
      let since ← consult .now
      ok (← call (.enqueue (threadOf key request) key.groupId model.upstream request.source since))
      let level ← consult .logLevel
      let now ← consult .now
      let record := newRecord id key request model level now
      ok (← call (.beginRequest record))
      pure (⟨id, key, request, model, since⟩, .new record) :
      Admission (Job × Execution)).Meets (startMonitor id key request) () .none
        (HandedOver id key request) := by
    intro model
    simp only [meets_bind, meets_ask, meets_ok, meets_pure]
    refine ⟨trivial, fun since ↦ ⟨⟨rfl, rfl⟩, ?_⟩⟩
    rintro (x | u)
    · trivial
    · refine ⟨trivial, fun level ↦ ⟨trivial, fun now ↦ ⟨⟨rfl, rfl⟩, ?_⟩⟩⟩
      rintro (x | u)
      · trivial
      · refine ⟨rfl, rfl, rfl, rfl, ⟨rfl, Commit.noConfusion, rfl, rfl, rfl,
          fun h ↦ (by cases h), fun h ↦ (by cases h)⟩, rfl, rfl, rfl, rfl⟩
  unfold start
  simp only [meets_bind (m := consult .models), meets_bind (m := ok _), meets_ask, meets_ok]
  refine ⟨trivial, ?_⟩
  rintro (x | models)
  · trivial
  · dsimp only
    cases models.find? fun m ↦ m.id == request.model && m.enabled with
    | none => trivial
    | some model =>
      simp only [Option.elim_some]
      rw [meets_bind, meets_ask]
      refine ⟨trivial, ?_⟩
      rintro (x | u)
      · trivial
      · dsimp only
        rw [meets_bind, meets_ok]
        dsimp only
        rw [meets_bind, meets_doWhen]
        split
        · apply admitSession_meets
          · exact henqueue model
          · intro x φ
            trivial
        · exact henqueue model

/-- A handler keeps to its monitor wherever it is dropped. -/
theorem start_keeps (id : Uuid) (key : GatewayKey) (request : GatewayRequest) :
    startScheme.Keeps (startMonitor id key request) (HandedOver id key request) where
  block := fun l ↦ l.elim
  abandon := fun _ _ _ _ _ _ ↦ ⟨rfl, fun _ ↦ trivial⟩
  abandonAnswered := fun _ _ _ _ _ _ _ ↦ ⟨rfl, fun _ ↦ trivial⟩

/-- The end of a handler keeps to its monitor: the ticket goes with an error, and to the task
otherwise. -/
theorem closeStart_meets {id : Uuid} {key : GatewayKey} {request : GatewayRequest}
    {x : Except Error (Job × Execution)} {φ : Progress}
    (h : HandedOver id key request x () φ) :
    startScheme.Closes (startMonitor id key request) (HandedOver id key request) x () φ := by
  cases x with
  | error x => exact ⟨rfl, fun _ ↦ trivial⟩
  | ok a => exact h

/-- A handler keeps to its monitor from its beginning to its end. -/
theorem start_follows (id : Uuid) (key : GatewayKey) (request : GatewayRequest) :
    Task.Follows startScheme (startMonitor id key request) (HandedOver id key request) .none
      (.running (start id key request ())) := by
  apply Prog.Meets.mono (start_meets id key request)
  intro a φ h
  exact ⟨trivial, closeStart_meets h⟩

end Xxgate.Gateway

import Xxgate.Gateway.Permits

/-!
# Sessions the safety guard blocks

The guard counts, for a session, the requests that the upstream rejected by its safety policy, and
blocks the session at three. What the count means for sends is said of whole runs: while it
stands, only a request whose check was over already is still sent, once; and once it is stored,
no request that arrives later comes as far as its task, also after a restart.
-/

namespace Xxgate.Gateway

open Xxgate.Base Xxgate.Base.FiniteMap Xxgate.Core Xxgate.Scheduling Xxgate.Store
open Coroutine

/-- The entry of a session stands at three. -/
def AtLimit (entry : Option (Nat × Error)) : Prop := ∃ e, entry = some e ∧ 3 ≤ e.1

instance (entry : Option (Nat × Error)) : Decidable (AtLimit entry) :=
  decidable_of_iff (entry.any (3 ≤ ·.1) = true) (by simp [AtLimit, Option.any_eq_true])

/-! ### The guard -/

/-- A session at its limit does not pass. -/
theorem safetyCheck_limit {guard : FiniteMap SessionKey (Nat × Error)} {session : SessionKey}
    (h : AtLimit (guard.lookup session)) : ∃ x, safetyCheck guard session = .error x := by
  obtain ⟨e, he, hcount⟩ := h
  unfold safetyCheck
  rw [he, Option.filter_some, if_pos (decide_eq_true hcount)]
  exact ⟨_, rfl⟩

/-- Restoring a count lowers none. -/
theorem safetyRestore_limit {guard : FiniteMap SessionKey (Nat × Error)} {session : SessionKey}
    (h : AtLimit (guard.lookup session)) (other : SessionKey) (count : Nat) (error : Error) :
    AtLimit ((safetyRestore guard other count error).lookup session) := by
  unfold safetyRestore
  rw [lookup_insert_ite]
  split
  · next he =>
    obtain ⟨e, hl, hcount⟩ := h
    rw [← he, hl]
    refine ⟨_, rfl, ?_⟩
    dsimp only [Option.elim_some]
    split
    · next hlt => exact hcount.trans hlt.le
    · exact hcount
  · exact h

/-- A count of three is restored as at least three. -/
theorem safetyRestore_reaches (guard : FiniteMap SessionKey (Nat × Error)) (session : SessionKey)
    {count : Nat} (h : 3 ≤ count) (error : Error) :
    AtLimit ((safetyRestore guard session count error).lookup session) := by
  unfold safetyRestore
  rw [lookup_insert_ite, if_pos rfl]
  refine ⟨_, rfl, ?_⟩
  cases guard.lookup session with
  | none => exact h
  | some entry =>
    dsimp only [Option.elim_some]
    split
    · exact h
    · next hnot => exact h.trans (Nat.le_of_not_lt hnot)

/-- Remembering a rejection takes no session below the limit. -/
theorem safetyRemember_limit {guard : FiniteMap SessionKey (Nat × Error)} {session : SessionKey}
    (h : AtLimit (guard.lookup session)) (other : SessionKey) (error : Error) :
    AtLimit ((safetyRemember guard other error).lookup session) := by
  unfold safetyRemember
  rw [lookup_insert_ite]
  split
  · next he =>
    obtain ⟨e, hl, hcount⟩ := h
    rw [← he, hl]
    exact ⟨_, rfl, le_min le_rfl (hcount.trans (Nat.le_succ _))⟩
  · exact h

/-- Storing a rejection takes no session below the limit. -/
theorem saveSafetyRejection_limit {s : PgStore} {session : SessionKey}
    (h : AtLimit (s.safetyRejection session)) (other : SessionKey) (error : Error) :
    AtLimit ((s.saveSafetyRejection other error).safetyRejection session) := by
  unfold PgStore.saveSafetyRejection PgStore.safetyRejection
  dsimp only
  rw [lookup_insert_ite]
  split
  · next he =>
    obtain ⟨e, hl, hcount⟩ := h
    rw [← he]
    rw [PgStore.safetyRejection] at hl
    rw [hl]
    exact ⟨_, rfl, le_min le_rfl (hcount.trans (Nat.le_succ _))⟩
  · exact h

/-! ### Passing the check -/

/-- The guard lets the session pass. -/
def passes (session : SessionKey) : Sigma Call.Reply → Bool
  | ⟨.safetyCheck other, .ok _⟩ => other = session
  | _ => false

/-- The sends of a trace, newest first, with the one that its last call lets pass. -/
def leads (session : SessionKey) (trace : List (Sigma Call.Reply)) : Nat :=
  (sends trace).length + (trace.head?.any (passes session)).toNat

/-- The record is the one of the job's session. -/
structure OfJob (job : Job) (s : Execution) : Prop where
  stateless : s.record.stateless = job.request.stateless
  session : job.request.stateless = false →
    safetySession s.record = (threadOf job.key job.request).session

/-- Watches the last check: a send follows one that let the session pass. -/
def guardMonitor (job : Job) : Monitor Execution Call Call.Reply Label Bool where
  next _ c r := passes (threadOf job.key job.request).session ⟨c, r⟩
  allowed φ _ c := ∀ prepared, c = .sendOnce prepared → job.request.stateless = true ∨ φ = true
  entry _ s _ := OfJob job s
  exit _ := True
  closing _ _ c := ∀ prepared, c ≠ .sendOnce prepared

section Guarded

variable {job : Job}

/-- The session is known. -/
abbrev SessionKnown (job : Job) (s : Execution) (_ : Bool) : Prop := OfJob job s

/-- Over every call but a send the session stays known. -/
theorem guard_keeps {c : Call} (hc : ∀ r, isSend ⟨c, r⟩ = false) :
    (guardMonitor job).Keeps (SessionKnown job) c := by
  refine fun _ _ h ↦ ⟨?_, fun _ ↦ h⟩
  rintro prepared rfl
  cases hc ()

private theorem guard_routine : Routine (guardMonitor job) (SessionKnown job) where
  calls := by
    intro c hc
    apply guard_keeps
    intro r
    cases c with
    | sendOnce => cases hc
    | _ => rfl
  states := fun _ _ _ same h ↦
    ⟨same.stateless.trans h.stateless, fun hs ↦ same.session.trans (h.session hs)⟩

private theorem guard_opens (l : Label) :
    (guardMonitor job).Opens (SessionKnown job) l := fun _ _ h ↦ h

private theorem observeSafetyRejection_guard (error : Error) :
    (observeSafetyRejection error : Run Label Unit).Stays (guardMonitor job) (SessionKnown job) :=
  observeSafetyRejection_stays (fun _ _ ↦ guard_keeps fun _ ↦ rfl)
    (fun _ _ _ h ↦ ⟨h.stateless, h.session⟩) error

private theorem takePermit_guard (lease : DispatchLease) (prepared : PreparedRequest)
    (rewritten : Bool) :
    (takePermit job lease prepared rewritten).Stays (guardMonitor job) (SessionKnown job) := by
  unfold takePermit
  apply Stays.bind (choosePrice_stays guard_routine)
  intro _
  apply Stays.bind (.ask (guard_keeps fun _ ↦ rfl))
  rintro (error | u)
  · dsimp only
    split
    · exact giveUp_stays guard_routine (guard_opens _)
    · exact .fail error
  · unfold dispatched
    refine .bind (modifyRecord_stays guard_routine ?_) fun _ ↦ .bind .read fun e ↦ ?_
    · intro s
      exact ⟨rfl, rfl, rfl, rfl⟩
    apply Stays.bind (.ask (guard_keeps fun _ ↦ rfl))
    intro x
    apply Stays.bind (.ok x)
    intro _
    refine .bind (.doWhen ?_) fun _ ↦ ?_
    · exact .bind (.ask (guard_keeps fun _ ↦ rfl)) fun x ↦ .ok x
    apply Stays.bind (.ask (guard_keeps fun _ ↦ rfl))
    intro x
    exact .bind (.ok x) fun _ ↦ .jump (guard_opens _)

private theorem recover_guard (lease : DispatchLease) (repaired : PreparedRequest) (n : Nat) :
    (do beginRecovery job; jump (.attempt lease repaired n) : Run Label Unit).Stays
      (guardMonitor job) (SessionKnown job) := by
  refine .bind ?_ fun _ ↦ .jump (guard_opens _)
  unfold beginRecovery
  apply Stays.bind (.ask (guard_keeps fun _ ↦ rfl))
  intro x
  apply Stays.bind (.ok x)
  intro _
  apply Stays.bind (currentModel_stays guard_routine "recovery")
  intro _
  apply Stays.bind (.ask (guard_keeps fun _ ↦ rfl))
  intro x
  apply Stays.bind (.ok x)
  intro _
  refine .bind (modifyRecord_stays guard_routine ?_) fun _ ↦ .bind .read fun e ↦ ?_
  · intro s
    exact ⟨rfl, rfl, rfl, rfl⟩
  exact .bind (.ask (guard_keeps fun _ ↦ rfl)) fun x ↦ .ok x

/-- What follows a send. -/
theorem afterSend_guard (lease : DispatchLease) (prepared : PreparedRequest) (n : Nat) :
    (do
      let status ← ok (← consult .headers)
      modifyRecord fun r ↦ { r with upstreamStatus := some status }
      ok (← call (.appendEvent "upstream_attempt_headers"))
      ok (← consult (.applyQuotaObservation lease.account.id))
      if ¬(200 ≤ status ∧ status < 300) then errorResponse job lease prepared n status
      else if job.request.kind.isUnary then jump (.unary 0)
      else
        let e ← read
        jump (.stream
          { lease := lease
            prepared := prepared
            sentAttempts := n
            buffering := e.record.upstreamAttempts == 1 && Codex.hasRecoverableInput prepared
            preamble := []
            preambleBytes := 0 }) : Run Label Unit).Stays (guardMonitor job) (SessionKnown job) :=
  answered_stays guard_routine guard_opens (fun _ ↦ guard_keeps fun _ ↦ rfl) fun status ↦
    errorResponse_stays guard_routine (fun repaired ↦ recover_guard lease repaired n)
      (fun status body ↦ rejected_stays guard_routine (fun _ _ ↦ guard_keeps fun _ ↦ rfl)
        observeSafetyRejection_guard lease status body) prepared status

/-- The guard let the session pass right before a send. -/
theorem attempt_guard (lease : DispatchLease) (prepared : PreparedRequest) (n : Nat) :
    (attempt job lease prepared n).Stays (guardMonitor job) (SessionKnown job) := by
  have hsend : ∀ s φ, OfJob job s → job.request.stateless = true ∨ φ = true →
      (sendAttempt job lease prepared (n + 1)).Meets (guardMonitor job) s φ
        fun _ ↦ SessionKnown job := by
    intro s φ h hpass
    unfold sendAttempt
    rw [meets_bind, meets_ask]
    exact ⟨fun _ _ ↦ hpass, fun _ ↦ afterSend_guard lease prepared (n + 1) s _ h⟩
  intro s φ h
  unfold attempt modifyRecord
  rw [meets_bind, meets_ask]
  refine ⟨nofun, ?_⟩
  rintro (_ | _)
  · dsimp only
    rw [if_neg Bool.false_ne_true, meets_bind, meets_outcome]
    unfold checkSessionSafety
    rw [meets_bind, meets_read]
    dsimp only
    split
    · next hstateless =>
      exact hsend s _ h (.inl (h.stateless.symm.trans hstateless))
    · next hstateful =>
      rw [meets_bind, meets_ask]
      refine ⟨nofun, ?_⟩
      rintro (x | u)
      · exact ⟨h.stateless, h.session⟩
      · refine hsend s _ h (.inr ?_)
        have hno : job.request.stateless = false := by
          rw [← h.stateless]
          exact Bool.eq_false_iff.mpr hstateful
        exact decide_eq_true (h.session hno)
  · exact h

private theorem block_guard (l : Label) :
    (block job l).Stays (guardMonitor job) (SessionKnown job) := by
  have hfinish : ∀ r, (guardMonitor job).Keeps (SessionKnown job) (.finishRequest r) :=
    fun _ ↦ guard_keeps fun _ ↦ rfl
  cases l with
  | select => exact .bind (.ask (guard_keeps fun _ ↦ rfl)) fun _ ↦ .jump (guard_opens _)
  | reserve => exact .bind (takeTicket_stays guard_routine) fun _ ↦ .jump (guard_opens _)
  | wait =>
    exact waitForAccount_stays guard_routine (guard_opens _) (guard_opens _)
      (fun _ ↦ guard_keeps fun _ ↦ rfl) takePermit_guard
  | attempt lease prepared n => exact attempt_guard lease prepared n
  | unary size =>
    exact receiveUnary_stays guard_routine (fun _ ↦ guard_opens _) hfinish
      (fun _ _ h ↦ ⟨h.stateless, h.session⟩) size
  | stream st =>
    exact receiveStream_stays guard_routine guard_opens (guard_keeps fun _ ↦ rfl)
      observeSafetyRejection_guard st
  | events st events =>
    exact takeEvents_stays (fun _ ↦ guard_keeps fun _ ↦ rfl) (fun _ ↦ guard_keeps fun _ ↦ rfl)
      (fun _ ↦ guard_keeps fun _ ↦ rfl) guard_routine guard_opens hfinish
      (fun _ _ h ↦ ⟨h.stateless, h.session⟩)
      (fun repaired ↦ recover_guard st.lease repaired st.sentAttempts) events

/-- The epilogue sends nothing. -/
theorem closes_guard (x : Except Error Unit) (s : Execution) (φ : Bool) :
    (Gateway.scheme job).Closes (guardMonitor job) (fun _ _ _ ↦ True) x s φ := by
  have hkeeps : ∀ {c : Call}, (∀ prepared, c ≠ .sendOnce prepared) →
      (guardMonitor job).straight.Keeps (fun _ _ ↦ True) c :=
    fun hc _ _ _ ↦ ⟨hc, fun _ ↦ trivial⟩
  refine close_stays ⟨?_, fun _ _ _ _ _ ↦ trivial⟩ (fun _ ↦ hkeeps nofun) job x s φ trivial
  intro c hc
  apply hkeeps
  rintro prepared rfl
  cases hc

private theorem scheme_guard (job : Job) :
    (Gateway.scheme job).Keeps (guardMonitor job) fun _ _ _ ↦ True where
  block := by
    intro l s φ h
    apply (block_guard l s φ h).mono
    intro x s φ _
    exact ⟨trivial, closes_guard x s φ⟩
  abandon := fun φ s _ x _ _ ↦ closes_guard (.error x) s φ
  abandonAnswered := fun _ s _ x _ _ _ ↦ closes_guard (.error x) s _

end Guarded
/-- Calls that are no send lead to none that was not led to before. -/
theorem leads_cons {session : SessionKey} {c : Call} {r : c.Reply}
    {trace : List (Sigma Call.Reply)}
    (hsend : isSend ⟨c, r⟩ = true → trace.head?.any (passes session) = true)
    (hpass : passes session ⟨c, r⟩ = false) :
    leads session (⟨c, r⟩ :: trace) ≤ leads session trace := by
  unfold leads
  rw [List.head?_cons, Option.any_some, hpass]
  cases c with
  | sendOnce prepared =>
    rw [hsend rfl]
    exact le_rfl
  | _ => exact Nat.add_le_add_left (Nat.zero_le _) _

private theorem guard_phase (job : Job) (trace : List (Sigma Call.Reply)) :
    (guardMonitor job).phase false trace =
      trace.head?.any (passes (threadOf job.key job.request).session) := by
  cases trace with
  | nil => rfl
  | cons e trace => rfl

/-- The process is another one after the move. -/
def Move.restarts : Move → Bool
  | .restart .. => true
  | _ => false

namespace World

/-- The calls of a request's task with their replies, newest first. -/
def traceOf (w : World) (id : Uuid) : List (Sigma Call.Reply) :=
  (w.tasks.lookup id).elim [] Life.trace

/-- The guard blocks the session. -/
def Blocked (w : World) (session : SessionKey) : Prop := AtLimit (w.safety.lookup session)

/-- The store has three rejections of the session. -/
def Condemned (w : World) (session : SessionKey) : Prop := AtLimit (w.store.safetyRejection session)

/-! ### What moves change -/

/-- What a call does to the guard. -/
theorem exec_safety {w w' : World} {id : Uuid} {env : Env} {c : Call} {r : c.Reply}
    (h : w.exec id env c = some (w', r)) :
    w'.safety = w.safety ∨
      (∃ session count error, c = .safetyRestore session count error ∧
        w'.safety = safetyRestore w.safety session count error) ∨
      ∃ session error, c = .safetyRemember session error ∧
        w'.safety = safetyRemember w.safety session error := by
  cases c with
  | safetyRestore session count error =>
    cases h
    exact .inr (.inl ⟨session, count, error, rfl, rfl⟩)
  | safetyRemember session error =>
    cases h
    exact .inr (.inr ⟨session, error, rfl, rfl⟩)
  | wait =>
    rcases wait_some h with ⟨-, rfl⟩ | ⟨x, -, rfl⟩ | ⟨lease, state, -, -, rfl⟩
    · exact .inl rfl
    · exact .inl rfl
    · exact .inl rfl
  | confirmStateless | beginSend | beginEncryptedReasoningRecovery =>
    obtain ⟨live, -, ⟨-, -, rfl⟩ | ⟨-, rfl⟩⟩ := onLease_some h
    · exact .inl rfl
    · exact .inl rfl
  | enqueue thread groupId model source since =>
    have he := Option.some.inj h
    rcases w.enqueue_cases id thread groupId model source since with ⟨-, ho⟩ | ⟨x, ho⟩
    · rw [ho] at he
      cases he
      exact .inl rfl
    · rw [ho] at he
      cases he
      exact .inl rfl
  | _ =>
    cases h
    exact .inl rfl

/-- No call unblocks a session. -/
theorem Blocked.exec {w w' : World} {session : SessionKey} (h : w.Blocked session) {id : Uuid}
    {env : Env} {c : Call} {r : c.Reply} (he : w.exec id env c = some (w', r)) :
    w'.Blocked session := by
  unfold Blocked
  rcases exec_safety he with hs | ⟨other, count, error, -, hs⟩ | ⟨other, error, -, hs⟩
  · rw [hs]
    exact h
  · rw [hs]
    exact safetyRestore_limit h other count error
  · rw [hs]
    exact safetyRemember_limit h other error

/-- A blocked session does not pass. -/
theorem Blocked.passes {w w' : World} {session : SessionKey} (h : w.Blocked session) {id : Uuid}
    {env : Env} {c : Call} {r : c.Reply} (he : w.exec id env c = some (w', r)) :
    passes session ⟨c, r⟩ = false := by
  cases c with
  | safetyCheck other =>
    cases r with
    | error x => rfl
    | ok u =>
      apply decide_eq_false
      rintro rfl
      obtain ⟨x, hx⟩ := safetyCheck_limit h
      obtain ⟨-, hr⟩ := Prod.mk.inj (Option.some.inj he)
      rw [hx] at hr
      cases hr
  | _ => rfl

/-- A drive does nothing but the call of the request, if it is at one. -/
theorem advance_cases {w w' : World} {id : Uuid} {d : Drive Env Error} {life life' : Life}
    (h : w.advance id d life = some (w', life')) :
    w' = w ∨ ∃ (env : Env) (c : Call) (r : c.Reply), w.exec id env c = some (w', r) := by
  cases life with
  | starting key request t =>
    obtain ⟨⟨w₁, t'⟩, hn, he⟩ := Option.map_eq_some_iff.mp h
    cases he
    rcases (Task.next_some hn).2 with ⟨env, c, r, -, -, hexec, -, -⟩ | ⟨rfl, -⟩
    · exact .inr ⟨env, c, r, hexec⟩
    · exact .inl rfl
  | running job t =>
    obtain ⟨⟨w₁, t'⟩, hn, he⟩ := Option.map_eq_some_iff.mp h
    cases he
    rcases (Task.next_some hn).2 with ⟨env, c, r, -, -, hexec, -, -⟩ | ⟨rfl, -⟩
    · exact .inr ⟨env, c, r, hexec⟩
    · exact .inl rfl

/-- A blocked session is blocked while the process lives. -/
theorem Blocked.step {w : World} {session : SessionKey} (h : w.Blocked session) {m : Move}
    (hm : m.restarts = false) : (w.step m).Blocked session := by
  cases m with
  | arrive id key request =>
    simp only [World.step]
    split
    · exact h
    · exact h
  | drive id d =>
    simp only [World.step]
    split
    · exact h
    · next w' life' ha =>
      obtain ⟨life, -, ha⟩ := Option.bind_eq_some_iff.mp ha
      rcases advance_cases ha with rfl | ⟨env, c, r, hexec⟩
      · exact h
      · have hnext : w'.Blocked session := h.exec hexec
        exact hnext
  | admin op =>
    simp only [World.step]
    split
    · exact h
    · exact h
  | cleanup now retentionDays => exact h
  | restart now outcomes settings accounts keys => cases hm

/-! ### While a session is blocked -/

/-- What a block keeps: the requests of the session are sent no more than they led to. -/
structure Halted (w₀ : World) (session : SessionKey) (w : World) : Prop where
  blocked : w.Blocked session
  watched : w.Watched guardMonitor (fun _ _ _ _ ↦ True) false
  bounded : ∀ id job t, w.tasks.lookup id = some (.running job t) →
    job.request.stateless = false → (threadOf job.key job.request).session = session →
      leads session t.trace ≤ leads session (w₀.traceOf id)

/-- Requests are watched from their beginning. -/
theorem guard_begins (id : Uuid) (key : GatewayKey) (request : GatewayRequest) (model : ModelSpec)
    (since : Nat) (level : LogLevel) (now : Nat) :
    (guardMonitor ⟨id, key, request, model, since⟩).entry false
      (.new (newRecord id key request model level now)) .select := by
  refine ⟨rfl, fun hs ↦ ?_⟩
  unfold safetySession newRecord threadOf Execution.new
  dsimp only
  rw [if_neg (by rw [hs]; exact Bool.false_ne_true)]

private theorem Reachable.guarded {w : World} (h : w.Reachable) :
    w.Watched guardMonitor (fun _ _ _ _ ↦ True) false := by
  apply h.invariant
  · intro settings accounts keys id life hl
    cases (AList.lookup_empty id).symm.trans hl
  · intro w m hw
    exact hw.step scheme_guard guard_begins m

private theorem Halted.step {w₀ w : World} {session : SessionKey} (h : Halted w₀ session w)
    {m : Move} (hm : m.restarts = false) : Halted w₀ session (w.step m) := by
  refine ⟨h.blocked.step hm, h.watched.step scheme_guard guard_begins m, ?_⟩
  intro id job t' hl hstateful hsession
  rcases life_step hl with hold | ⟨key, request, he⟩ | ⟨life, d, w', rfl, hold, ha⟩
  · exact h.bounded id job t' hold hstateful hsession
  · cases he
  · cases life with
    | starting key request t =>
      obtain ⟨⟨w₁, t₁⟩, -, he⟩ := Option.map_eq_some_iff.mp ha
      obtain ⟨execution, rfl⟩ := admitted_running (congrArg Prod.snd he)
      exact Nat.zero_le _
    | running job₁ t =>
      obtain ⟨⟨w₁, t₁⟩, hn, he⟩ := Option.map_eq_some_iff.mp ha
      cases he
      have hbefore := h.bounded id job t hold hstateful hsession
      have hfollows := (h.watched id _ hold).1
      rw [guard_phase, hsession] at hfollows
      rcases (Task.next_some hn).2 with ⟨env, c, r, -, hc, hexec, htrace, -⟩ | ⟨-, htrace, -⟩
      · rw [htrace]
        refine (leads_cons ?_ (h.blocked.passes hexec)).trans hbefore
        intro hsend
        cases c with
        | sendOnce prepared =>
          rcases hfollows.at_call hc with ⟨-, s, hallowed⟩ | ⟨-, s, hclosing⟩
          · rcases hallowed prepared rfl with hstateless | hpassed
            · rw [hstateful] at hstateless
              cases hstateless
            · exact hpassed
          · exact absurd rfl (hclosing prepared)
        | _ => cases hsend
      · rw [htrace]
        exact hbefore

/-- **A blocked session is not sent.** From any reachable state in which the guard blocks a
session, however requests are driven, dropped and administered while the process lives: a request
of the session is sent no more, but for one whose last call was the check that let it pass, and
that is sent once. -/
theorem blocked_session_halts {w : World} (hw : w.Reachable) {session : SessionKey}
    (hblocked : w.Blocked session) {moves : List Move}
    (hlives : Along step (fun _ m ↦ m.restarts = false) w moves) {id : Uuid} {job : Job}
    {t : Task Execution Call Call.Reply Label Error Unit}
    (hl : (run step w moves).tasks.lookup id = some (.running job t))
    (hstateful : job.request.stateless = false)
    (hsession : (threadOf job.key job.request).session = session) :
    (sends t.trace).length ≤ (sends (w.traceOf id)).length +
      ((w.traceOf id).head?.any (passes session)).toNat := by
  have hnow : Halted w session w := by
    refine ⟨hblocked, hw.guarded, ?_⟩
    intro id job t hl _ _
    rw [traceOf, hl]
    exact le_rfl
  have hlater : Halted w session (run step w moves) :=
    run_invariant_along (fun _ _ h hm ↦ h.step hm) hnow hlives
  exact (Nat.le_add_right _ _).trans (hlater.bounded id job t hl hstateful hsession)

end World

namespace Sample

/-- Replies of an upstream that rejects what it is sent by its policy. -/
def rejecting : (q : Consult) → q.Reply
  | .errorBody => .ok none
  | .httpError _ _ => (⟨400, "upstream_content_policy_violation", "Rejected"⟩, false)
  | q => reply 400 q

/-- A request goes on by at most so many calls. -/
def rejections (id : Uuid) (n : Nat) : List Move :=
  (List.replicate n [Move.drive id .proceed, Move.drive id
    (.perform ⟨.answered, 0, .poll, 1000 + id, 2000 + id, rejecting⟩)]).flatten

/-- Limits that let two requests of a session be in flight. -/
def roomy : LiveSettings :=
  { Scheduling.Sample.settings with sessionMaxInflight := 2, valid := by decide }

/-- The installation with an account that takes two requests, after the moves. -/
def roomyAfter (moves : List Move) : World :=
  run World.step (World.new roomy [{ Scheduling.Sample.account 7 with maxInflight := 2 }]
    [Scheduling.Sample.key]) moves

/-- The installation after the moves is reachable. -/
theorem roomy_reachable (moves : List Move) : (roomyAfter moves).Reachable := ⟨_, _, _, moves, rfl⟩

/-- A request of a thread arrives. -/
def arriving (id : Uuid) (session thread : String) : Move :=
  .arrive id Scheduling.Sample.key { request false with identity := ⟨session, thread⟩ }

/-- The session the requests are of. -/
def session : SessionKey := (threadOf Scheduling.Sample.key (request false)).session

/-- Request 4 comes up to its send, and three others are rejected meanwhile. -/
def thrice : List Move :=
  arriving 4 "s" "d" :: rejections 4 33 ++ arriving 1 "s" "a" :: rejections 1 46 ++
    arriving 2 "s" "b" :: rejections 2 46 ++ arriving 3 "s" "c" :: rejections 3 46

/-- Whether a task is of a stateless request, its session, and how often it was sent. -/
def seen : Life → Option (Bool × SessionKey × Nat)
  | .starting .. => none
  | .running job t => some (job.request.stateless, (threadOf job.key job.request).session,
      (sends t.trace).length)

/-- What is seen of a task is true of it. -/
theorem of_seen {life : Life} {a : Bool} {b : SessionKey} {n : Nat}
    (h : seen life = some (a, b, n)) : ∃ job t, life = .running job t ∧
      job.request.stateless = a ∧ (threadOf job.key job.request).session = b ∧
        (sends t.trace).length = n := by
  cases life with
  | starting key request t => cases h
  | running job t =>
    cases h
    exact ⟨job, t, rfl, rfl, rfl, rfl⟩

end Sample

/-- Request 4 had passed before the third rejection and is sent once. -/
theorem World.blocked_session_halts_thrice :
    ∃ job t, (run World.step (Sample.roomyAfter Sample.thrice)
        (Sample.rejections 4 20)).tasks.lookup 4 = some (.running job t) ∧
      (sends t.trace).length = 1 ∧
      (sends t.trace).length ≤ (sends ((Sample.roomyAfter Sample.thrice).traceOf 4)).length +
        (((Sample.roomyAfter Sample.thrice).traceOf 4).head?.any
          (passes Sample.session)).toNat := by
  have hrun : ((run World.step (Sample.roomyAfter Sample.thrice)
      (Sample.rejections 4 20)).tasks.lookup 4).bind Sample.seen =
        some (false, Sample.session, 1) := by decide +kernel
  obtain ⟨life, hl, hseen⟩ := Option.bind_eq_some_iff.mp hrun
  obtain ⟨job, t, rfl, hstateful, hsession, hsends⟩ := Sample.of_seen hseen
  have hblocked : (Sample.roomyAfter Sample.thrice).Blocked Sample.session := by
    unfold World.Blocked
    decide +kernel
  exact ⟨job, t, hl, hsends, World.blocked_session_halts (Sample.roomy_reachable _) hblocked
    (by decide +kernel) hl hstateful hsession⟩

end Xxgate.Gateway

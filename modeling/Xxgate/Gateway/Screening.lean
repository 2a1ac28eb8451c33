import Xxgate.Gateway.Safety

/-!
# Sessions with three stored rejections

A handler reads the stored rejections of its session and hands them to the guard before the guard
is asked. A monitor of the handlers follows that order; since no transaction lowers a count, a
request that arrives once three rejections are stored comes to no task, in this process or a
later one.
-/

namespace Xxgate.Gateway

open Xxgate.Base Xxgate.Base.FiniteMap Xxgate.Core Xxgate.Scheduling Xxgate.Store
open Coroutine

/-! ### The order of a handler -/

/-- How far a handler is with the rejections of its session. -/
inductive Screening where
  | unread
  /-- The store told of so many. -/
  | read (count : Nat)
  /-- The guard was told of them. -/
  | restored
  /-- The guard let the session pass then. -/
  | passed
  deriving DecidableEq

/-- When the guard lets the session pass. -/
def Screening.checked : Screening → Screening
  | .read count => if count < 3 then .passed else .read count
  | .restored => .passed
  | ψ => ψ

/-- When the guard is told of so many rejections. -/
def Screening.told (count : Nat) (ψ : Screening) : Screening :=
  if ψ = .read count then .restored else ψ

/-- What a handler has been told after a call and its reply. -/
def Screening.next (session : SessionKey) (ψ : Screening) : (c : Call) → c.Reply → Screening
  | .safetyRejection other, .ok stored =>
    if other = session then .read (stored.elim 0 (·.1)) else ψ
  | .safetyRestore other count _, _ => if other = session then ψ.told count else ψ
  | .safetyCheck other, .ok _ => if other = session then ψ.checked else ψ
  | _, _ => ψ

/-- Watches a handler up to its task. -/
def screenMonitor (session : SessionKey) : Monitor Unit Call Call.Reply Empty Screening where
  next := Screening.next session
  allowed _ _ _ := True
  entry _ _ l := l.elim
  exit _ := True
  closing _ _ _ := True

/-- A handler hands over its own request, and a stateful one only after it passed. -/
def Screened (key : GatewayKey) (request : GatewayRequest) (x : Except Error (Job × Execution))
    (_ : Unit) (ψ : Screening) : Prop :=
  ∀ job execution, x = .ok (job, execution) → job.key = key ∧ job.request = request ∧
    (request.stateless = true ∨ ψ = .passed)

private theorem screened_error {key : GatewayKey} {request : GatewayRequest} (x : Error)
    (ψ : Screening) : Screened key request (.error x) () ψ := by
  intro job execution h
  cases h

section Order

variable (session : SessionKey) (ψ : Screening)

private theorem Screening.next_read (stored : Option (Nat × Error)) :
    ψ.next session (.safetyRejection session) (.ok stored) = .read (stored.elim 0 (·.1)) :=
  if_pos rfl

private theorem Screening.next_told (count : Nat) (error : Error) (u : Unit) :
    ψ.next session (.safetyRestore session count error) u = ψ.told count := if_pos rfl

private theorem Screening.next_checked (u : Unit) :
    ψ.next session (.safetyCheck session) (.ok u) = ψ.checked := if_pos rfl

end Order

/-- The handler's checks let a session pass in that order. -/
theorem admitSession_screened (session : SessionKey) :
    (admitSession session).Meets (screenMonitor session) () .unread fun x _ ψ ↦
      x = .ok () → ψ = .passed := by
  have hcheck : ∀ ψ : Screening, ψ.checked = .passed →
      (do ok (← call (.safetyCheck session)) : Admission Unit).Meets (screenMonitor session) () ψ
        fun x _ ψ ↦ x = .ok () → ψ = .passed := by
    intro ψ hψ
    simp only [meets_bind, meets_ask, meets_ok]
    refine ⟨trivial, ?_⟩
    rintro (x | u) h
    · cases h
    · exact (ψ.next_checked session u).trans hψ
  unfold admitSession
  simp only [meets_bind (m := call _), meets_bind (m := ok _), meets_ask, meets_ok]
  refine ⟨trivial, ?_⟩
  rintro (x | u)
  · intro h
    cases h
  · refine ⟨trivial, ?_⟩
    rintro (x | stored)
    · intro h
      cases h
    · have hread := (Screening.unread.next session (.safetyCheck session) (.ok u)).next_read
        session stored
      cases stored with
      | none =>
        have hnone : (Screening.read 0).checked = .passed := rfl
        exact hcheck _ ((congrArg Screening.checked hread).trans hnone)
      | some entry =>
        refine ⟨trivial, fun v ↦ hcheck _ ?_⟩
        have htold := Screening.next_told session (.read entry.1) entry.1 entry.2 v
        have hrestored : Screening.told entry.1 (.read entry.1) = .restored := if_pos rfl
        exact congrArg Screening.checked ((congrArg (Screening.next session · _ _) hread).trans
          (htold.trans hrestored))

/-- A handler keeps to that order. -/
theorem start_screened (id : Uuid) (key : GatewayKey) (request : GatewayRequest) :
    (start id key request).Meets (screenMonitor (threadOf key request).session) () .unread
      (Screened key request) := by
  have hrest : ∀ (model : ModelSpec) (ψ : Screening),
      request.stateless = true ∨ ψ = .passed → (do
        let since ← consult .now
        ok (← call (.enqueue (threadOf key request) key.groupId model.upstream request.source
          since))
        let level ← consult .logLevel
        let now ← consult .now
        let record := newRecord id key request model level now
        ok (← call (.beginRequest record))
        pure (⟨id, key, request, model, since⟩, .new record) :
        Admission (Job × Execution)).Meets (screenMonitor (threadOf key request).session) () ψ
          (Screened key request) := by
    intro model ψ hψ
    simp only [meets_bind, meets_ask, meets_ok, meets_pure]
    refine ⟨trivial, fun since ↦ ⟨trivial, ?_⟩⟩
    rintro (x | u)
    · exact screened_error x _
    · refine ⟨trivial, fun level ↦ ⟨trivial, fun now ↦ ⟨trivial, ?_⟩⟩⟩
      rintro (x | u)
      · exact screened_error x _
      · intro job execution h
        cases h
        exact ⟨rfl, rfl, hψ⟩
  unfold start
  simp only [meets_bind (m := consult .models), meets_bind (m := ok _), meets_ask, meets_ok]
  refine ⟨trivial, ?_⟩
  rintro (x | models)
  · exact screened_error x _
  · dsimp only
    cases models.find? fun m ↦ m.id == request.model && m.enabled with
    | none => exact screened_error _ _
    | some model =>
      simp only [Option.elim_some]
      rw [meets_bind, meets_ask]
      refine ⟨trivial, ?_⟩
      rintro (x | u)
      · exact screened_error x _
      · dsimp only
        rw [meets_bind, meets_ok]
        dsimp only
        rw [meets_bind, meets_doWhen]
        split
        · apply (admitSession_screened _).mono
          rintro (x | u) s ψ hψ
          · exact screened_error x _
          · exact hrest model ψ (.inr (hψ rfl))
        · next hstateless =>
          exact hrest model _ (.inl (by simpa using hstateless))

private theorem startScheme_screened (key : GatewayKey) (request : GatewayRequest) :
    startScheme.Keeps (screenMonitor (threadOf key request).session) (Screened key request) where
  block := fun l ↦ l.elim
  abandon := fun _ _ _ _ _ _ ↦ ⟨trivial, fun _ ↦ screened_error _ _⟩
  abandonAnswered := fun _ _ _ _ _ _ _ ↦ ⟨trivial, fun _ ↦ screened_error _ _⟩

private theorem start_screened_follows (id : Uuid) (key : GatewayKey) (request : GatewayRequest) :
    Task.Follows startScheme (screenMonitor (threadOf key request).session) (Screened key request)
      .unread (.running (start id key request ())) := by
  apply Prog.Meets.mono (start_screened id key request)
  intro x ψ hx
  refine ⟨trivial, ?_⟩
  obtain ⟨x, s⟩ := x
  cases x with
  | error x => exact ⟨trivial, fun _ ↦ hx⟩
  | ok a => exact hx

/-! ### Stored rejections -/

section Stored

variable {s : PgStore}

/-- A transaction that leaves the rejections alone does so with any outcome. -/
theorem settle_rejections {transaction : Result PgStore} (outcome : Outcome)
    (h : ∀ s', transaction = .ok s' → s'.rejections = s.rejections) :
    (settle outcome s transaction).1.rejections = s.rejections := by
  cases transaction with
  | error x =>
    cases outcome with
    | answered | lost | failed => rfl
  | ok s' =>
    cases outcome with
    | answered | lost => exact h s' rfl
    | failed => rfl

private theorem bill_rejections (now : Nat) (r : RequestRecord) (row : Row) :
    (s.bill now r row).rejections = s.rejections := by
  unfold PgStore.bill PgStore.appendEvent
  cases r.accountId with
  | none => rfl
  | some accountId =>
    unfold PgStore.incrementSpending
    dsimp only
    split
    · rfl
    · rfl

private theorem finishRequest_rejections {s' : PgStore} (now : Nat) (r : RequestRecord)
    (h : s.finishRequest now r = .ok s') : s'.rejections = s.rejections := by
  unfold PgStore.finishRequest at h
  split at h
  · cases h
    rfl
  · split at h
    · cases h
    · cases h
      exact bill_rejections now r _

private theorem finishAll_rejections (now : Nat) (records : List RequestRecord)
    (outcomes : List Outcome) :
    (s.finishAll now records outcomes).1.rejections = s.rejections := by
  induction records generalizing s outcomes with
  | nil => rfl
  | cons r rest ih =>
    have hone := settle_rejections (s := s) (outcomes.headD .answered)
      fun s' h ↦ finishRequest_rejections now r h
    unfold PgStore.finishAll
    split
    · next s' hs =>
      rw [hs] at hone
      exact (ih outcomes.tail).trans hone
    · next s' x hs =>
      rw [hs] at hone
      exact hone

private theorem commitBinding_rejections {s' : PgStore} {b : Binding} {expected : Int}
    (h : s.commitBinding b expected = .ok s') : s'.rejections = s.rejections := by
  unfold PgStore.commitBinding at h
  split at h
  · cases h
  · split at h
    · cases h
    · cases h
      rfl

private theorem beginRequest_rejections {s' : PgStore} {now : Nat} {r : RequestRecord}
    (h : s.beginRequest now r = .ok s') : s'.rejections = s.rejections := by
  unfold PgStore.beginRequest PgStore.appendEvent at h
  split at h
  · cases h
  · cases h
    rfl

private theorem updateRequest_rejections (r : RequestRecord) :
    (s.updateRequest r).rejections = s.rejections := by
  unfold PgStore.updateRequest
  split
  · rfl
  · rfl

private theorem summarizeRequest_rejections (r : RequestRecord) :
    (s.summarizeRequest r).rejections = s.rejections := by
  unfold PgStore.summarizeRequest
  split
  · rfl
  · split
    · rfl
    · rfl

end Stored

namespace World

/-- A call changes the rejections only where it stores one. -/
theorem exec_rejections {w w' : World} {id : Uuid} {env : Env} {c : Call} {r : c.Reply}
    (h : w.exec id env c = some (w', r)) :
    w'.store.rejections = w.store.rejections ∨
      ∃ session error, w'.store = w.store.saveSafetyRejection session error := by
  have hok : ∀ {s s' : PgStore}, s'.rejections = w.store.rejections →
      ∀ s'', Except.ok s' = (.ok s'' : Result PgStore) → s''.rejections = w.store.rejections := by
    intro s s' hs s'' he
    cases he
    exact hs
  cases c with
  | wait =>
    rcases wait_some h with ⟨-, rfl⟩ | ⟨x, -, rfl⟩ | ⟨lease, state, -, -, rfl⟩
    · exact .inl rfl
    · exact .inl rfl
    · exact .inl rfl
  | confirmStateless | beginSend | beginEncryptedReasoningRecovery =>
    obtain ⟨live, -, ⟨-, -, rfl⟩ | ⟨-, rfl⟩⟩ := onLease_some h
    · exact .inl rfl
    · exact .inl rfl
  | enqueue thread groupId model source since =>
    have he := Option.some.inj h
    rcases w.enqueue_cases id thread groupId model source since with ⟨-, ho⟩ | ⟨x, ho⟩
    · rw [ho] at he
      cases he
      exact .inl rfl
    · rw [ho] at he
      cases he
      exact .inl rfl
  | saveSafetyRejection session error =>
    cases h
    cases env.outcome with
    | answered | lost => exact .inr ⟨session, error, rfl⟩
    | failed => exact .inl rfl
  | commitBinding binding expected =>
    cases h
    exact .inl (settle_rejections _ fun _ hs ↦ commitBinding_rejections hs)
  | beginRequest record =>
    cases h
    exact .inl (settle_rejections _ fun _ hs ↦ beginRequest_rejections hs)
  | finishRequest record =>
    cases h
    exact .inl (settle_rejections _ fun _ hs ↦ finishRequest_rejections _ record hs)
  | updateRequest record =>
    cases h
    exact .inl (settle_rejections _ fun s' hs ↦ (by
      cases hs
      exact updateRequest_rejections record))
  | summarizeRequest record =>
    cases h
    exact .inl (settle_rejections _ fun s' hs ↦ (by
      cases hs
      exact summarizeRequest_rejections record))
  | appendEvent kind =>
    cases h
    exact .inl (settle_rejections _ fun s' hs ↦ (by
      cases hs
      rfl))
  | _ =>
    cases h
    exact .inl rfl

private theorem Condemned.exec {w w' : World} {session : SessionKey} (h : w.Condemned session)
    {id : Uuid} {env : Env} {c : Call} {r : c.Reply} (he : w.exec id env c = some (w', r)) :
    w'.Condemned session := by
  rcases exec_rejections he with hs | ⟨other, error, hs⟩
  · unfold Condemned PgStore.safetyRejection
    rw [hs]
    exact h
  · unfold Condemned
    rw [hs]
    exact saveSafetyRejection_limit h other error

/-- Three stored rejections stay, whatever happens. -/
theorem Condemned.step {w : World} {session : SessionKey} (h : w.Condemned session) (m : Move) :
    (w.step m).Condemned session := by
  cases m with
  | arrive id key request =>
    simp only [World.step]
    split
    · exact h
    · exact h
  | drive id d =>
    simp only [World.step]
    split
    · exact h
    · next w' life' ha =>
      obtain ⟨life, -, ha⟩ := Option.bind_eq_some_iff.mp ha
      rcases advance_cases ha with rfl | ⟨env, c, r, hexec⟩
      · exact h
      · have hnext : w'.Condemned session := h.exec hexec
        exact hnext
  | admin op =>
    simp only [World.step]
    split
    · exact h
    · exact h
  | cleanup now retentionDays => exact h
  | restart now outcomes settings accounts keys =>
    have hsame := finishAll_rejections (s := w.store) now
      ((w.store.rows.values.filter (·.finishedAt.isNone)).map
        fun row ↦ PgStore.interrupted now row.data) outcomes
    show AtLimit ((w.store.reconcileInterrupted now outcomes).1.rejections.lookup session)
    unfold PgStore.reconcileInterrupted
    rw [hsame]
    exact h

/-! ### Handlers of a condemned session -/

/-- What a handler was told is so, and it cannot have passed. -/
def Stands (w : World) (session : SessionKey) : Screening → Prop
  | .unread => True
  | .read count => 3 ≤ count
  | .restored => w.Blocked session
  | .passed => False

/-- What a handler was told stands while the guard keeps its count. -/
theorem Stands.mono {w w' : World} {session : SessionKey}
    (h : w.Blocked session → w'.Blocked session) {ψ : Screening} (hψ : w.Stands session ψ) :
    w'.Stands session ψ := by
  cases ψ with
  | unread | read | passed => exact hψ
  | restored => exact h hψ

/-- After a call of a handler, what it has been told by then stands. -/
theorem Stands.exec {w w' : World} {session : SessionKey} (hc : w.Condemned session)
    {ψ : Screening} (hψ : w.Stands session ψ) {id : Uuid} {env : Env} {c : Call} {r : c.Reply}
    (he : w.exec id env c = some (w', r)) : w'.Stands session (ψ.next session c r) := by
  have hsame : w'.Stands session ψ := hψ.mono fun h ↦ h.exec he
  cases c with
  | safetyRejection other =>
    cases r with
    | error x => exact hsame
    | ok stored =>
      show w'.Stands session (if other = session then _ else ψ)
      split
      · next ho =>
        cases ho
        obtain ⟨-, hr⟩ := Prod.mk.inj (Option.some.inj he)
        obtain ⟨e, hl, hcount⟩ := hc
        cases henv : env.outcome with
        | answered =>
          rw [henv, hl] at hr
          cases hr
          exact hcount
        | failed | lost =>
          rw [henv] at hr
          cases hr
      · exact hsame
  | safetyRestore other count error =>
    show w'.Stands session (if other = session then ψ.told count else ψ)
    split
    · next ho =>
      cases ho
      unfold Screening.told
      split
      · next hread =>
        rw [hread] at hψ
        cases he
        exact safetyRestore_reaches _ _ hψ error
      · exact hsame
    · exact hsame
  | safetyCheck other =>
    cases r with
    | error x => exact hsame
    | ok u =>
      show w'.Stands session (if other = session then ψ.checked else ψ)
      split
      · next ho =>
        cases ho
        cases ψ with
        | unread | passed => exact hsame
        | read count =>
          have hcount : 3 ≤ count := hψ
          have hread : (Screening.read count).checked = .read count :=
            if_neg (Nat.not_lt.mpr hcount)
          rw [hread]
          exact hcount
        | restored =>
          have hno := Blocked.passes hψ he
          exact absurd (of_decide_eq_false hno) (not_not_intro rfl)
      · exact hsame
  | _ => exact hsame

/-- The request has not come to a task of the session, and its handler will not let it. -/
def Shut (w : World) (session : SessionKey) : Life → Prop
  | .starting key request t =>
    Task.Follows startScheme (screenMonitor (threadOf key request).session) (Screened key request)
        ((screenMonitor (threadOf key request).session).phase .unread t.trace) t.stage ∧
      (request.stateless = false → (threadOf key request).session = session →
        w.Stands session ((screenMonitor (threadOf key request).session).phase .unread t.trace))
  | .running job _ =>
    job.request.stateless = false → (threadOf job.key job.request).session ≠ session

/-- What other parties do leaves it so. -/
theorem Shut.mono {w w' : World} {session : SessionKey}
    (h : w.Blocked session → w'.Blocked session) {life : Life} (hs : w.Shut session life) :
    w'.Shut session life := by
  cases life with
  | starting key request t =>
    exact ⟨hs.1, fun hstateful hsession ↦ (hs.2 hstateful hsession).mono h⟩
  | running job t => exact hs

/-- A handler of the session does not hand over. -/
theorem Shut.admitted {w : World} {session : SessionKey} {key : GatewayKey}
    {request : GatewayRequest} {t : Task Unit Call Call.Reply Empty Error (Job × Execution)}
    (h : w.Shut session (.starting key request t)) : w.Shut session (admitted key request t) := by
  unfold World.admitted
  split
  · next job execution u hs =>
    obtain ⟨hfollows, hstands⟩ := h
    rw [hs] at hfollows
    obtain ⟨rfl, rfl, hpassed⟩ := hfollows job execution rfl
    intro hstateful hsession
    have hno := hstands hstateful hsession
    rcases hpassed with hstateless | hpassed
    · rw [hstateful] at hstateless
      cases hstateless
    · rw [hpassed] at hno
      exact hno
  · exact h

private theorem Shut.advance {w w' : World} {session : SessionKey} (hc : w.Condemned session)
    {id : Uuid} {d : Drive Env Error} {life life' : Life} (h : w.Shut session life)
    (ha : w.advance id d life = some (w', life')) : w'.Shut session life' := by
  cases life with
  | starting key request t =>
    obtain ⟨⟨w₁, t'⟩, hn, he⟩ := Option.map_eq_some_iff.mp ha
    cases he
    apply Shut.admitted
    refine ⟨Task.Follows.moves (φ := .unread) (startScheme_screened key request)
      (Task.next_some hn).1 h.1, fun hstateful hsession ↦ ?_⟩
    have hstands := h.2 hstateful hsession
    rcases (Task.next_some hn).2 with ⟨env, c, r, -, -, hexec, htrace, -⟩ | ⟨rfl, htrace, -⟩
    · rw [htrace]
      show World.Stands _ session (Screening.next (threadOf key request).session _ c r)
      rw [hsession] at hstands ⊢
      exact hstands.exec hc hexec
    · rw [htrace]
      exact hstands
  | running job t =>
    obtain ⟨⟨w₁, t'⟩, -, he⟩ := Option.map_eq_some_iff.mp ha
    cases he
    exact h

/-- Three rejections are stored, and so no request that came later is let in. -/
structure Closed (w₀ : World) (session : SessionKey) (w : World) : Prop where
  condemned : w.Condemned session
  shut : ∀ id life, id ∉ w₀.issued → w.tasks.lookup id = some life → w.Shut session life

private theorem Closed.step {w₀ w : World} {session : SessionKey} (h : Closed w₀ session w)
    (m : Move) : Closed w₀ session (w.step m) := by
  refine ⟨h.condemned.step m, ?_⟩
  intro id life' hnew hl
  by_cases hm : m.restarts = true
  · cases m with
    | restart => cases (AList.lookup_empty id).symm.trans hl
    | _ => cases hm
  · have hkeeps : w.Blocked session → (w.step m).Blocked session :=
      fun hb ↦ hb.step (Bool.eq_false_iff.mpr hm)
    rcases life_step hl with hold | ⟨key, request, rfl⟩ | ⟨life, d, w', rfl, hold, ha⟩
    · exact (h.shut id life' hnew hold).mono hkeeps
    · exact ⟨start_screened_follows id key request, fun _ _ ↦ trivial⟩
    · have hstep : w.step (.drive id d) = { w' with tasks := w'.tasks.insert id life' } := by
        simp only [World.step, hold, Option.bind_some, ha]
      rw [hstep]
      exact ((h.shut id life hnew hold).advance h.condemned ha).mono fun hb ↦ hb

/-- **Three stored rejections shut a session for good.** In every state that any moves lead to,
drops of handlers, failed and lost transactions, cleanups and restarts among them: a request that
arrived after three rejections of a session were stored has no task of that session, so that
nothing of it is sent, counted or retried. -/
theorem condemned_session_shut {w : World} (hw : w.Reachable) {session : SessionKey}
    (hc : w.Condemned session) (moves : List Move) {id : Uuid} (hnew : id ∉ w.issued) {job : Job}
    {t : Task Execution Call Call.Reply Label Error Unit}
    (hl : (run step w moves).tasks.lookup id = some (.running job t))
    (hstateful : job.request.stateless = false) :
    (threadOf job.key job.request).session ≠ session := by
  have hnow : Closed w session w := by
    refine ⟨hc, ?_⟩
    intro i life hi hlife
    exact absurd (hw.held.issued i ((mem_iff_lookup ..).mpr ⟨life, hlife⟩)) hi
  have hlater : Closed w session (run step w moves) :=
    run_invariant (P := Closed w session) (fun _ m h ↦ h.step m) moves hnow
  exact hlater.shut id _ hnew hl hstateful

end World

/-- The process restarts; a request of another session and one of the same arrive. -/
def Sample.restarted : List Move :=
  .restart 0 [] Scheduling.Sample.settings [Scheduling.Sample.account 7] [Scheduling.Sample.key] ::
    arriving 6 "u" "a" :: rejections 6 46 ++ arriving 5 "s" "e" :: rejections 5 20

/-- The request of the other session comes to its task and is sent; that of the session has no
task. -/
theorem World.condemned_session_shut_restarted :
    ∃ job t, (run World.step (Sample.roomyAfter Sample.thrice)
        Sample.restarted).tasks.lookup 6 = some (.running job t) ∧
      (sends t.trace).length = 1 ∧
      (threadOf job.key job.request).session ≠ Sample.session ∧
      ∀ job' t', (run World.step (Sample.roomyAfter Sample.thrice)
        Sample.restarted).tasks.lookup 5 ≠ some (.running job' t') := by
  have hrun : ((run World.step (Sample.roomyAfter Sample.thrice)
      Sample.restarted).tasks.lookup 6).bind Sample.seen =
        some (false, ⟨50, "u"⟩, 1) := by decide +kernel
  obtain ⟨life, hl, hseen⟩ := Option.bind_eq_some_iff.mp hrun
  obtain ⟨job, t, rfl, hstateful, -, hsends⟩ := Sample.of_seen hseen
  have hcondemned : (Sample.roomyAfter Sample.thrice).Condemned Sample.session := by
    unfold World.Condemned
    decide +kernel
  have hrefused : ((run World.step (Sample.roomyAfter Sample.thrice)
      Sample.restarted).tasks.lookup 5).bind Sample.seen = none := by decide +kernel
  refine ⟨job, t, hl, hsends, World.condemned_session_shut (Sample.roomy_reachable _) hcondemned _
    (by decide +kernel) hl hstateful, fun job' t' hl' ↦ ?_⟩
  rw [hl'] at hrefused
  cases hrefused

end Xxgate.Gateway

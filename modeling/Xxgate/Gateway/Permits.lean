import Xxgate.Gateway.Routine
import Xxgate.Gateway.Sends
import Xxgate.Gateway.Watched

/-!
# Permits that are not used

A record counts an attempt when it is authorised, and the attempt is made a few calls later.
The two agree when a record is finished unless the request stopped in between. A further
monitor watches the last permit; what stops a request there is the condition under which the
record is right, in every run.
-/

namespace Xxgate.Gateway

open Xxgate.Base Xxgate.Base.FiniteMap Xxgate.Core Xxgate.Scheduling
open Coroutine

/-! ### The last permit -/

/-- What became of the last permit. -/
inductive Permit where
  /-- There was none, the attempt was made, or the safety guard refused it. -/
  | settled
  /-- The attempt is to be made next. -/
  | unsent
  /-- The request stopped before it made the attempt. -/
  | dropped
  deriving DecidableEq

/-- The call sends the request upstream. -/
def isSend : Sigma Call.Reply → Bool
  | ⟨.sendOnce _, _⟩ => true
  | _ => false

/-- The reply makes a request stop between its permit and the attempt: the store fails, or the
request was cancelled. -/
def stopsAttempt : Sigma Call.Reply → Bool
  | ⟨.updateRequest _, .error _⟩ | ⟨.appendEvent _, .error _⟩ => true
  | ⟨.consult .isCancelled, cancelled⟩ => cancelled
  | _ => false

/-- What becomes of it with a call and its reply. -/
def Permit.next (p : Permit) (e : Sigma Call.Reply) : Permit :=
  if isPermit e then .unsent
  else if isSend e then .settled
  else if p = .unsent then
    if isRefusal e then .settled else if stopsAttempt e then .dropped else .unsent
  else p

/-- What became of it after a trace, newest first. -/
def Permit.after : List (Sigma Call.Reply) → Permit
  | [] => .settled
  | e :: trace => (Permit.after trace).next e

namespace Permit

/-- A call that asks for no permit leaves none unsent. -/
theorem next_ne_unsent {p : Permit} {e : Sigma Call.Reply} (hp : p ≠ .unsent)
    (he : isPermit e = false) : p.next e ≠ .unsent := by
  unfold next
  rw [if_neg (by rw [he]; exact Bool.false_ne_true), if_neg hp]
  split
  · exact Permit.noConfusion
  · exact hp

/-- A call that stops the request leaves no permit unsent. -/
theorem next_of_stops {p : Permit} {e : Sigma Call.Reply} (hs : isRefusal e = true ∨
    stopsAttempt e = true) : p.next e ≠ .unsent := by
  have hno : isPermit e = false := by
    obtain ⟨c, r⟩ := e
    cases c with
    | beginSend | beginEncryptedReasoningRecovery => rcases hs with hs | hs <;> cases hs
    | _ => rfl
  by_cases hp : p = .unsent
  · unfold next
    rw [if_neg (by rw [hno]; exact Bool.false_ne_true), if_pos hp]
    split
    · exact Permit.noConfusion
    · rcases hs with hs | hs
      · rw [if_pos hs]
        exact Permit.noConfusion
      · split
        · exact Permit.noConfusion
        · exact Permit.noConfusion
  · exact next_ne_unsent hp hno

/-- A settled permit was sent or refused. -/
theorem settled_cases {trace : List (Sigma Call.Reply)} (h : after trace = .settled) :
    outstanding trace = false ∨ trace.any isRefusal = true := by
  induction trace with
  | nil => exact .inl rfl
  | cons e trace ih =>
    have hlater : after trace = .settled → isPermit e = false →
        outstanding (e :: trace) = false ∨ (e :: trace).any isRefusal = true := by
      intro ha hno
      rcases ih ha with ho | hr
      · left
        rw [outstanding, hno, ho, Bool.and_false, Bool.or_false]
      · right
        rw [List.any_cons, hr, Bool.or_true]
    unfold after next at h
    split at h
    · cases h
    · next hno =>
      have hno' : isPermit e = false := Bool.eq_false_iff.mpr hno
      split at h
      · next hsend =>
        left
        obtain ⟨c, r⟩ := e
        cases c with
        | sendOnce prepared => rfl
        | _ => cases hsend
      · split at h
        · split at h
          · next hrefused =>
            right
            rw [List.any_cons, hrefused, Bool.true_or]
          · split at h <;> cases h
        · exact hlater h hno'

end Permit

/-! ### The monitor -/

/-- Watches the last permit: no block but an attempt begins and no body finishes its record
with one that is unsent. -/
def permitMonitor : Monitor Execution Call Call.Reply Label Permit where
  next p c r := p.next ⟨c, r⟩
  allowed p _ c := ∀ record, c = .finishRequest record → p ≠ .unsent
  entry p _ l := (∃ lease prepared n, l = .attempt lease prepared n) ∨ p ≠ .unsent
  exit p := p ≠ .unsent
  closing _ _ _ := True

/-- No permit is unsent. -/
abbrev NoneUnsent (_ : Execution) (p : Permit) : Prop := p ≠ .unsent

/-- Calls that ask for no permit keep it so. -/
theorem permit_keeps {c : Call} (hc : ∀ r, isPermit ⟨c, r⟩ = false) :
    permitMonitor.Keeps NoneUnsent c := by
  intro s p hp
  exact ⟨fun _ _ ↦ hp, fun r ↦ Permit.next_ne_unsent hp (hc r)⟩

private theorem permit_routine : Routine permitMonitor NoneUnsent where
  calls := by
    intro c hc
    apply permit_keeps
    intro r
    cases c with
    | beginSend | beginEncryptedReasoningRecovery => cases hc
    | _ => rfl
  states := fun s s' p _ hp ↦ hp

/-- Every block may begin where no permit is unsent. -/
theorem permit_opens (l : Label) : permitMonitor.Opens NoneUnsent l := fun _ _ hp ↦ .inr hp

variable {job : Job} {s : Execution} {p : Permit}

/-- Only a finished record has to wait for the attempt. -/
theorem permit_allows {c : Call} (hc : c.isRoutine = true) : permitMonitor.allowed p s c := by
  rintro record rfl
  cases hc

/-- A reply that stops the request leaves none unsent. -/
theorem permit_stopped {c : Call} {r : c.Reply}
    (h : isRefusal ⟨c, r⟩ = true ∨ stopsAttempt ⟨c, r⟩ = true) :
    permitMonitor.next p c r ≠ .unsent :=
  Permit.next_of_stops h

/-- Where no permit is unsent, a call that asks for none leaves none. -/
theorem permit_kept {c : Call} {r : c.Reply} (hp : p ≠ .unsent) (h : isPermit ⟨c, r⟩ = false) :
    permitMonitor.next p c r ≠ .unsent :=
  Permit.next_ne_unsent hp h

/-! ### The parts with a permit -/

/-- Between the permit and the first attempt whatever fails stops the request. -/
theorem dispatched_permit (lease : DispatchLease) (prepared : PreparedRequest) (rewritten : Bool) :
    (dispatched job lease prepared rewritten).Meets permitMonitor s p fun _ ↦ NoneUnsent := by
  unfold dispatched modifyRecord
  simp only [meets_bind, meets_update, meets_read, meets_ask, meets_ok, meets_doWhen, meets_jump]
  refine ⟨permit_allows rfl, ?_⟩
  rintro (x | u)
  · exact permit_stopped (.inr rfl)
  · dsimp only
    split
    · refine ⟨permit_allows rfl, ?_⟩
      rintro (x | u)
      · exact permit_stopped (.inr rfl)
      · refine ⟨permit_allows rfl, ?_⟩
        rintro (x | u)
        · exact permit_stopped (.inr rfl)
        · exact .inl ⟨lease, prepared, 0, rfl⟩
    · refine ⟨permit_allows rfl, ?_⟩
      rintro (x | u)
      · exact permit_stopped (.inr rfl)
      · exact .inl ⟨lease, prepared, 0, rfl⟩

private theorem takePermit_stays (lease : DispatchLease) (prepared : PreparedRequest)
    (rewritten : Bool) :
    (takePermit job lease prepared rewritten).Stays permitMonitor NoneUnsent := by
  unfold takePermit
  apply Stays.bind (choosePrice_stays permit_routine)
  intro _ s p hp
  rw [meets_bind, meets_ask]
  refine ⟨fun _ h ↦ (by cases h), ?_⟩
  rintro (error | u)
  · have hp' : permitMonitor.next p .beginSend (.error error) ≠ .unsent := permit_kept hp rfl
    dsimp only
    split
    · exact giveUp_stays permit_routine (permit_opens _) s _ hp'
    · exact hp'
  · exact dispatched_permit lease prepared rewritten

/-- What fails between the second permit and the second attempt leaves no permit unsent. -/
theorem beginRecovery_permit {Q : Except Error Unit → Execution → Permit → Prop} (hp : p ≠ .unsent)
    (hok : ∀ s p, Q (.ok ()) s p) (herr : ∀ x s p, p ≠ .unsent → Q (.error x) s p) :
    (beginRecovery job : Run Label Unit).Meets permitMonitor s p Q := by
  unfold beginRecovery modifyRecord
  rw [meets_bind, meets_ask]
  refine ⟨permit_allows rfl, ?_⟩
  intro x
  have hp₁ : permitMonitor.next p (.appendEvent "encrypted_reasoning_recovery") x ≠ .unsent :=
    permit_kept hp rfl
  dsimp only
  rw [meets_bind, meets_ok]
  cases x with
  | error x => exact herr x s _ hp₁
  | ok u =>
    dsimp only
    rw [meets_bind]
    apply (currentModel_stays permit_routine "recovery" s _ hp₁).mono
    rintro (x | model) s p hp
    · exact herr x s p hp
    · simp only [meets_bind, meets_ask, meets_ok, meets_update, meets_read]
      refine ⟨fun _ h ↦ (by cases h), ?_⟩
      rintro (x | u)
      · exact herr x s _ (permit_kept hp rfl)
      · refine ⟨permit_allows rfl, ?_⟩
        rintro (x | u)
        · exact herr x _ _ (permit_stopped (.inr rfl))
        · exact hok _ _

private theorem recover_stays (lease : DispatchLease) (repaired : PreparedRequest) (n : Nat) :
    (do beginRecovery job; jump (.attempt lease repaired n) : Run Label Unit).Stays permitMonitor
      NoneUnsent := by
  intro s p hp
  rw [meets_bind]
  apply beginRecovery_permit hp
  · intro s p
    exact .inl ⟨lease, repaired, n, rfl⟩
  · intro x s p hp
    exact hp

private theorem observeSafetyRejection_permit (error : Error) :
    (observeSafetyRejection error : Run Label Unit).Stays permitMonitor NoneUnsent :=
  observeSafetyRejection_stays (fun _ _ ↦ permit_keeps fun _ ↦ rfl) (fun _ _ _ hp ↦ hp) error

/-- An attempt is made, refused, or given up when the request was cancelled. -/
theorem attempt_permit (lease : DispatchLease) (prepared : PreparedRequest) (n : Nat) :
    (attempt job lease prepared n).Meets permitMonitor s p fun _ ↦ NoneUnsent := by
  have hsend : ∀ p, (sendAttempt job lease prepared (n + 1)).Meets permitMonitor s p
      fun _ ↦ NoneUnsent := by
    intro p
    unfold sendAttempt
    rw [meets_bind, meets_ask]
    refine ⟨fun _ h ↦ (by cases h), ?_⟩
    intro u
    apply answered_stays permit_routine permit_opens fun _ ↦ permit_keeps fun _ ↦ rfl
    · intro status
      apply errorResponse_stays permit_routine
      · intro repaired
        exact recover_stays lease repaired (n + 1)
      · intro status body
        exact rejected_stays permit_routine (fun _ _ ↦ permit_keeps fun _ ↦ rfl)
          observeSafetyRejection_permit lease status body
    · exact Permit.noConfusion
  unfold attempt modifyRecord
  rw [meets_bind, meets_ask]
  refine ⟨permit_allows rfl, ?_⟩
  rintro (_ | _)
  · dsimp only
    rw [if_neg Bool.false_ne_true, meets_bind, meets_outcome]
    unfold checkSessionSafety
    rw [meets_bind, meets_read]
    dsimp only
    split
    · exact hsend _
    · rw [meets_bind, meets_ask]
      refine ⟨fun _ h ↦ (by cases h), ?_⟩
      rintro (x | u)
      · exact permit_stopped (.inl rfl)
      · exact hsend _
  · exact permit_stopped (.inr rfl)

/-- Every block ends with no permit unsent. -/
theorem block_permit (l : Label) (h : permitMonitor.entry p s l) :
    (block job l).Meets permitMonitor s p fun _ ↦ NoneUnsent := by
  have hfinish : ∀ r, permitMonitor.Keeps NoneUnsent (.finishRequest r) :=
    fun r ↦ permit_keeps fun _ ↦ rfl
  have hquota : ∀ id, permitMonitor.Keeps NoneUnsent (.consult (.applyQuotaObservation id)) :=
    fun id ↦ permit_keeps fun _ ↦ rfl
  have hdeliver : ∀ d, permitMonitor.Keeps NoneUnsent (.consult (.deliver (.document d))) :=
    fun d ↦ permit_keeps fun _ ↦ rfl
  have hencode : ∀ d, permitMonitor.Keeps NoneUnsent (.consult (.encode d)) :=
    fun d ↦ permit_keeps fun _ ↦ rfl
  rcases h with ⟨lease, prepared, n, rfl⟩ | hp
  · exact attempt_permit lease prepared n
  · cases l with
    | select =>
      exact (Stays.bind (.ask (permit_keeps fun _ ↦ rfl))
        fun _ ↦ .jump (permit_opens _)) s p hp
    | reserve =>
      exact (Stays.bind (takeTicket_stays permit_routine)
        fun _ ↦ .jump (permit_opens _)) s p hp
    | wait =>
      exact waitForAccount_stays permit_routine (permit_opens _) (permit_opens _)
        (fun _ ↦ permit_keeps fun _ ↦ rfl) takePermit_stays s p hp
    | attempt lease prepared n => exact attempt_permit lease prepared n
    | unary size =>
      exact receiveUnary_stays permit_routine (fun _ ↦ permit_opens _) hfinish
        (fun _ _ hp ↦ hp) size s p hp
    | stream st =>
      exact receiveStream_stays permit_routine permit_opens (permit_keeps fun _ ↦ rfl)
        observeSafetyRejection_permit st s p hp
    | events st events =>
      exact takeEvents_stays hquota hdeliver hencode permit_routine permit_opens hfinish
        (fun _ _ hp ↦ hp)
        (fun repaired ↦ recover_stays st.lease repaired st.sentAttempts) events s p hp

/-- The epilogue may do anything. -/
theorem closes_permit (x : Except Error Unit) (s : Execution) (p : Permit) :
    (Gateway.scheme job).Closes permitMonitor (fun _ _ _ ↦ True) x s p :=
  Prog.meets_of_free (fun _ _ _ ↦ trivial) (fun _ _ l ↦ l.elim) _ _

private theorem scheme_permit (job : Job) :
    (Gateway.scheme job).Keeps permitMonitor fun _ _ _ ↦ True where
  block := by
    intro l s p h
    apply (block_permit l h).mono
    intro x s p hp
    exact ⟨hp, closes_permit x s p⟩
  abandon := fun p s c x _ _ ↦ closes_permit (.error x) s p
  abandonAnswered := fun p s c x r _ _ ↦ closes_permit (.error x) s _

/-! ### Undisturbed runs -/

/-- The move lets the task go on: the store answers it, it is not told that it was cancelled,
and it is not dropped. -/
def letsOn (job : Job) (t : Task Execution Call Call.Reply Label Error Unit) :
    Drive Env Error → Bool
  | .perform env =>
    match t.atCall with
    | some (.updateRequest _) | some (.appendEvent _) => env.outcome = .answered
    | some (.consult .isCancelled) => !env.reply .isCancelled
    | _ => true
  | .proceed => true
  | .abandon _ => (t.abandonable (scheme job)).isNone

/-- A request let on is told nothing that stops an attempt. -/
theorem stopsAttempt_of_letsOn {w w' : World} {id : Uuid}
    {t : Task Execution Call Call.Reply Label Error Unit} {env : Env} {c : Call} {r : c.Reply}
    (h : letsOn job t (.perform env) = true) (hc : t.atCall = some c)
    (hexec : w.exec id env c = some (w', r)) : stopsAttempt ⟨c, r⟩ = false := by
  unfold letsOn at h
  rw [hc] at h
  cases c with
  | updateRequest record =>
    have ho : env.outcome = .answered := of_decide_eq_true h
    simp only [World.exec, World.stored, Store.settle, ho] at hexec
    cases hexec
    rfl
  | appendEvent kind =>
    have ho : env.outcome = .answered := of_decide_eq_true h
    simp only [World.exec, World.stored, Store.settle, ho] at hexec
    cases hexec
    rfl
  | consult q =>
    cases q with
    | isCancelled =>
      cases hexec
      exact (Bool.not_eq_true' _).mp h
    | _ => rfl
  | _ => rfl

/-- The permits of a task were honoured so far: none is unsent once its body is over, none was
dropped, and none was open when the record was finished. -/
structure Honoured (t : Task Execution Call Call.Reply Label Error Unit) : Prop where
  closed : t.result.isSome = true → Permit.after t.trace ≠ .unsent
  kept : Permit.after t.trace ≠ .dropped
  finished : ∀ newer older record r, t.trace = newer ++ ⟨.finishRequest record, r⟩ :: older →
    Permit.after older = .settled

private theorem permit_phase (trace : List (Sigma Call.Reply)) :
    permitMonitor.phase .settled trace = Permit.after trace := by
  induction trace with
  | nil => rfl
  | cons e trace ih => exact congrArg (Permit.next · e) ih

private theorem Permit.eq_settled {p : Permit} (hu : p ≠ .unsent) (hd : p ≠ .dropped) :
    p = .settled := by
  cases p with
  | settled => rfl
  | unsent => exact absurd rfl hu
  | dropped => exact absurd rfl hd

/-- Only a reply that stops the request drops a permit. -/
theorem Permit.next_ne_dropped {p : Permit} {e : Sigma Call.Reply} (hp : p ≠ .dropped)
    (he : p = .unsent → stopsAttempt e = false) : p.next e ≠ .dropped := by
  unfold Permit.next
  split
  · exact Permit.noConfusion
  · split
    · exact Permit.noConfusion
    · split
      · next hu =>
        split
        · exact Permit.noConfusion
        · rw [if_neg (by rw [he hu]; exact Bool.false_ne_true)]
          exact Permit.noConfusion
      · exact hp

/-- A task that begins has had no permit. -/
theorem Honoured.begun (execution : Execution) :
    Honoured ⟨.running (.goto execution .select), []⟩ := by
  refine ⟨fun h ↦ (by cases h), Permit.noConfusion, ?_⟩
  intro newer older record r h
  cases (List.append_eq_nil_iff.mp h.symm).2

/-- What a move of a task that is let on while a permit is unsent keeps. -/
theorem Honoured.next {w w' : World} {id : Uuid}
    {t t' : Task Execution Call Call.Reply Label Error Unit} {d : Drive Env Error}
    (h : Honoured t)
    (hkept : Task.Follows (Gateway.scheme job) (monitor job) Through
      ((monitor job).phase .admission t.trace) t.stage)
    (hwatch : Task.Follows (Gateway.scheme job) permitMonitor (fun _ _ _ ↦ True)
      (permitMonitor.phase .settled t.trace) t.stage)
    (hd : Permit.after t.trace = .unsent → letsOn job t d = true)
    (hn : t.next (Gateway.scheme job) (w.exec id) w d = some (w', t')) : Honoured t' := by
  rw [permit_phase] at hwatch
  rcases (Task.next_some hn).2 with ⟨env, c, r, rfl, hc, hexec, htrace, hres⟩ |
    ⟨-, htrace, hstay, hleave⟩
  · have hnext : Permit.after t'.trace = (Permit.after t.trace).next ⟨c, r⟩ := by
      rw [htrace]
      rfl
    refine ⟨?_, ?_, ?_⟩
    · intro ho
      rw [hres] at ho
      rw [hnext]
      apply Permit.next_ne_unsent (h.closed ho)
      rcases hkept.at_call hc with ⟨hnone, -⟩ | ⟨-, s, hafter⟩
      · rw [hnone] at ho
        cases ho
      · cases c with
        | beginSend | beginEncryptedReasoningRecovery => exact hafter.elim
        | _ => rfl
    · rw [hnext]
      exact Permit.next_ne_dropped h.kept fun hu ↦ stopsAttempt_of_letsOn (hd hu) hc hexec
    · intro newer older record r' ht
      rw [htrace] at ht
      cases newer with
      | nil =>
        cases ht
        apply Permit.eq_settled _ h.kept
        rcases hwatch.at_call hc with ⟨-, s, hallowed⟩ | ⟨hsome, -⟩
        · exact hallowed record rfl
        · exact h.closed hsome
      | cons e newer =>
        exact h.finished newer older record r' (List.cons.inj ht).2
  · refine ⟨?_, ?_, ?_⟩
    · intro ho
      rw [htrace]
      obtain ⟨x, hx⟩ := Option.isSome_iff_exists.mp ho
      rcases hleave x hx with hr | ⟨y, rfl⟩ | ⟨s, hs⟩
      · exact h.closed (by rw [hr]; rfl)
      · intro hu
        have hnone : t.abandonable (Gateway.scheme job) = none :=
          Option.isNone_iff_eq_none.mp (hd hu)
        simp only [Task.next, hnone, Option.map_none] at hn
        cases hn
      · rw [hs] at hwatch
        exact hwatch.1
    · rw [htrace]
      exact h.kept
    · rw [htrace]
      exact h.finished

/-- The records a request finished, newest first. -/
def finishes (trace : List (Sigma Call.Reply)) : List RequestRecord :=
  trace.filterMap fun e ↦
    match e.1 with
    | .finishRequest record => some record
    | _ => none

private theorem exists_of_mem_finishes {trace : List (Sigma Call.Reply)} {record : RequestRecord}
    (h : record ∈ finishes trace) :
    ∃ newer older r, trace = newer ++ ⟨.finishRequest record, r⟩ :: older := by
  obtain ⟨⟨c, r⟩, hmem, he⟩ := List.mem_filterMap.mp h
  obtain ⟨newer, older, ht⟩ := List.append_of_mem hmem
  cases c with
  | finishRequest record' =>
    cases he
    exact ⟨newer, older, r, ht⟩
  | _ => cases he

namespace World

/-- The request is not stopped between a permit and the attempt it is for. -/
def undisturbed (id : Uuid) (w : World) : Move → Bool
  | .drive i d =>
    i != id ||
      match w.tasks.lookup id with
      | some (.running job t) => Permit.after t.trace != .unsent || letsOn job t d
      | _ => true
  | _ => true

/-- A handler that went through leaves a task that begins. -/
theorem admitted_running {key : GatewayKey} {request : GatewayRequest}
    {t : Task Unit Call Call.Reply Empty Error (Job × Execution)} {job : Job}
    {t' : Task Execution Call Call.Reply Label Error Unit}
    (h : admitted key request t = .running job t') :
    ∃ execution, t' = ⟨.running (.goto execution .select), []⟩ := by
  unfold admitted at h
  split at h
  · next job' execution s hs =>
    cases h
    exact ⟨execution, rfl⟩
  · cases h

/-- What a run keeps in which the request is not disturbed: every task keeps to both monitors,
and the one of the request honours its permits. -/
structure Honest (id : Uuid) (w : World) : Prop where
  kept : w.Kept
  watched : w.Watched (fun _ ↦ permitMonitor) (fun _ _ _ _ ↦ True) .settled
  honoured : ∀ job t, w.tasks.lookup id = some (.running job t) → Honoured t

private theorem honest_new (id : Uuid) (settings : LiveSettings) (accounts : List Account)
    (keys : List GatewayKey) : (new settings accounts keys).Honest id := by
  refine ⟨?_, ?_, ?_⟩
  · intro i life hl
    cases (AList.lookup_empty i).symm.trans hl
  · intro i life hl
    cases (AList.lookup_empty i).symm.trans hl
  · intro job t hl
    cases (AList.lookup_empty id).symm.trans hl

private theorem Honest.step {id : Uuid} {w : World} (h : w.Honest id) {m : Move}
    (hm : w.undisturbed id m = true) : (w.step m).Honest id := by
  refine ⟨h.kept.step m, h.watched.step scheme_permit ?_ m, ?_⟩
  · intro i key request model since level now
    exact .inr Permit.noConfusion
  · intro job t' hl
    rcases life_step hl with hold | ⟨key, request, he⟩ | ⟨life, d, w', rfl, hold, ha⟩
    · exact h.honoured job t' hold
    · cases he
    · cases life with
      | starting key request t =>
        obtain ⟨⟨w₁, t₁⟩, -, he⟩ := Option.map_eq_some_iff.mp ha
        obtain ⟨execution, rfl⟩ := admitted_running (congrArg Prod.snd he)
        exact .begun execution
      | running job₁ t =>
        obtain ⟨⟨w₁, t₁⟩, hn, he⟩ := Option.map_eq_some_iff.mp ha
        cases he
        have hk := (h.kept id _ hold).2.1
        rw [← phase_eq_after (M := monitor job) rfl] at hk
        apply (h.honoured job t hold).next hk (h.watched id _ hold).1 _ hn
        intro hu
        simp only [undisturbed, hold, hu, bne_self_eq_false, Bool.false_or] at hm
        exact hm

/-- A finished record shows the sends. In a run in which the request is not stopped between a
permit and the attempt it is for, every record that its task finishes, in every state reached,
counts the calls of `send_once` the task made before, and it is valued as not executed, at
nothing, exactly when there was none. -/
theorem finished_record_shows_sends {settings : LiveSettings} {accounts : List Account}
    {keys : List GatewayKey} {moves : List Move} {id : Uuid}
    (hundisturbed : Along step (fun w m ↦ w.undisturbed id m = true)
      (new settings accounts keys) moves)
    {job : Job} {t : Task Execution Call Call.Reply Label Error Unit}
    (hl : (run step (new settings accounts keys) moves).tasks.lookup id = some (.running job t))
    {newer older : List (Sigma Call.Reply)} {record : RequestRecord} {r : Result Unit}
    (ht : t.trace = newer ++ ⟨.finishRequest record, r⟩ :: older) :
    record.id = id ∧ record.upstreamAttempts = (sends older).length ∧
      ∃ v, record.valuation = some v ∧ (v.status = .notExecuted ↔ sends older = []) ∧
        (sends older = [] → v.cny = some 0) := by
  have hw : (run step (new settings accounts keys) moves).Honest id :=
    run_invariant_along (fun w m h hm ↦ h.step hm) (honest_new id settings accounts keys)
      hundisturbed
  obtain ⟨hid, -, hlawful⟩ := hw.kept id _ hl
  have hsettled := (hw.honoured job t hl).finished newer older record r ht
  rw [ht] at hlawful
  obtain ⟨⟨s, hcall⟩, holder⟩ := hlawful.at_call
  rw [phase_eq_after rfl] at hcall
  have hrecords : Records job (Progress.admission.after older) record := by
    rcases hcall with ⟨-, -, -, h⟩ | h
    · exact h
    · exact h
  have hcount := counted_of_lawful holder
  have hshown : (Progress.admission.after older).shown = (sends older).length := by
    unfold Progress.shown
    rw [Progress.after_refused]
    split
    · exact hcount.length
    · next hno =>
      rcases Permit.settled_cases hsettled with hout | hrefused
      · rw [Progress.after_permits, hcount.permits, hout]
        rfl
      · exact absurd hrefused hno
  have hattempts := hrecords.attempts.trans hshown
  obtain ⟨v, hv, hstatus, hcny⟩ := hrecords.valuation
  refine ⟨hrecords.id.trans hid, hattempts, v, hv, ?_, ?_⟩
  · rw [hstatus, hattempts, List.length_eq_zero_iff]
  · intro hnone
    apply hcny
    rw [hattempts, hnone]
    rfl

/-- A recovered request whose record shows its two sends. -/
theorem finished_record_shows_sends_recovered :
    ∃ job t newer older record r,
      (Sample.after (Sample.arrive true 1 :: Sample.turns .answered 400 1 50)).tasks.lookup 1 =
        some (.running job t) ∧
      t.trace = newer ++ ⟨.finishRequest record, r⟩ :: older ∧ record.upstreamAttempts = 2 ∧
        (sends older).length = 2 := by
  have hrun : ((Sample.after (Sample.arrive true 1 :: Sample.turns .answered 400 1 50)).tasks.lookup
      1).map (fun life ↦ (finishes life.trace).map (·.upstreamAttempts)) = some [2] := by
    decide +kernel
  obtain ⟨life, hl, hlist⟩ := Option.map_eq_some_iff.mp hrun
  obtain ⟨record, hmem, htwo⟩ := List.exists_of_mem_map
    (show 2 ∈ (finishes life.trace).map (·.upstreamAttempts) from hlist ▸ List.mem_singleton_self 2)
  cases life with
  | starting key request t => cases hmem
  | running job t =>
    obtain ⟨newer, older, r, ht⟩ := exists_of_mem_finishes hmem
    refine ⟨job, t, newer, older, record, r, hl, ht, htwo, ?_⟩
    rw [← htwo]
    exact (finished_record_shows_sends (by decide +kernel) hl ht).2.1.symm

/-- The store does not take the update that follows the permit: nothing was sent, and the record
shows an attempt and is not valued as one that was not executed. -/
theorem unsent_attempt_recorded :
    ∃ w : World, w.Reachable ∧ ∃ job t, w.tasks.lookup 1 = some (.running job t) ∧
      sends t.trace = [] ∧ ∃ record ∈ finishes t.trace, record.upstreamAttempts = 1 ∧
        record.valuation.map (·.status) ≠ some .notExecuted := by
  let w := Sample.after (Sample.arrive true 1 :: (Sample.turns .answered 400 1 21 ++
    Sample.turns .failed 400 1 1 ++ Sample.turns .answered 400 1 10))
  have hrun : (w.tasks.lookup 1).map (fun life ↦ ((finishes life.trace).map fun record ↦
      (record.upstreamAttempts, record.valuation.map (·.status) != some .notExecuted),
        (sends life.trace).length)) = some ([(1, true)], 0) := by decide +kernel
  obtain ⟨life, hl, hlist⟩ := Option.map_eq_some_iff.mp hrun
  obtain ⟨hrecords, hsends⟩ := Prod.mk.inj hlist
  obtain ⟨record, hmem, hrecord⟩ := List.exists_of_mem_map
    (show (1, true) ∈ (finishes life.trace).map _ from hrecords ▸ List.mem_singleton_self _)
  obtain ⟨hone, hvalue⟩ := Prod.mk.inj hrecord
  cases life with
  | starting key request t => cases hmem
  | running job t =>
    exact ⟨w, Sample.reachable _, job, t, hl, List.length_eq_zero_iff.mp hsends, record, hmem,
      hone, bne_iff_ne.mp hvalue⟩

end World
end Xxgate.Gateway

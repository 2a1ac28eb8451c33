import Xxgate.Gateway.Holdings

/-!
# At most two sends on one lease

What a request sent upstream is read off its trace. Each send has a permit of its own, a
second one repeats a first that was rejected for its encrypted content, and both go over
the same lease, whose attempts the scheduler counts from zero to one to two.
-/

namespace Xxgate.Gateway

open Xxgate.Base Xxgate.Base.FiniteMap Xxgate.Core Xxgate.Scheduling

/-! ### Reading a trace -/

/-- The requests sent upstream, newest first. -/
def sends (trace : List (Sigma Call.Reply)) : List PreparedRequest :=
  trace.filterMap fun e ↦
    match e.1 with
    | .sendOnce prepared => some prepared
    | _ => none

/-- The call asks for an attempt and is granted it. -/
def isPermit : Sigma Call.Reply → Bool
  | ⟨.beginSend, .ok _⟩ | ⟨.beginEncryptedReasoningRecovery, .ok _⟩ => true
  | _ => false

/-- The attempts the scheduler authorised. -/
def permitsIn (trace : List (Sigma Call.Reply)) : Nat := trace.countP isPermit

/-- The last attempt that was authorised has not been sent. -/
def outstanding : List (Sigma Call.Reply) → Bool
  | [] => false
  | e :: rest => isPermit e || ((sends [e]).isEmpty && outstanding rest)

/-- The safety guard refuses the session. -/
def isRefusal : Sigma Call.Reply → Bool
  | ⟨.safetyCheck _, .error _⟩ => true
  | _ => false

/-- A call joins the sends of a trace, or does not. -/
theorem sends_cons (e : Sigma Call.Reply) (trace : List (Sigma Call.Reply)) :
    sends (e :: trace) = sends [e] ++ sends trace :=
  List.filterMap_append (l := [e]) ..

/-- A call joins the permits of a trace, or does not. -/
theorem permitsIn_cons (e : Sigma Call.Reply) (trace : List (Sigma Call.Reply)) :
    permitsIn (e :: trace) = permitsIn trace + (isPermit e).toNat := by
  rw [permitsIn, permitsIn, List.countP_cons]
  cases isPermit e
  · rfl
  · rfl

namespace Progress

/-- A call adds its permit to those known. -/
theorem next_permits (φ : Progress) (c : Call) (r : c.Reply) :
    (φ.next c r).permits = φ.permits + (isPermit ⟨c, r⟩).toNat := by
  cases c with
  | consult q =>
    obtain ⟨f, p, -, hf⟩ := φ.consulted_eq q r
    show (φ.consulted q r).permits = _
    rw [hf]
    rfl
  | wait =>
    cases r with
    | lease | failed | heartbeat => rfl
  | enqueue | confirmStateless | beginSend | beginEncryptedReasoningRecovery | safetyCheck
  | finishRequest =>
    cases r with
    | error | ok => rfl
  | _ => rfl

/-- A call adds its refusal to what is known. -/
theorem next_refused (φ : Progress) (c : Call) (r : c.Reply) :
    (φ.next c r).refused = (isRefusal ⟨c, r⟩ || φ.refused) := by
  cases c with
  | consult q =>
    obtain ⟨f, p, -, hf⟩ := φ.consulted_eq q r
    show (φ.consulted q r).refused = _
    rw [hf]
    rfl
  | wait =>
    cases r with
    | lease | failed | heartbeat => rfl
  | enqueue | confirmStateless | beginSend | beginEncryptedReasoningRecovery | safetyCheck
  | finishRequest =>
    cases r with
    | error | ok => rfl
  | _ => rfl

/-- The permits known are those of the trace. -/
theorem after_permits (trace : List (Sigma Call.Reply)) :
    (admission.after trace).permits = permitsIn trace := by
  induction trace with
  | nil => rfl
  | cons e trace ih =>
    show ((admission.after trace).next e.1 e.2).permits = _
    rw [next_permits, ih, permitsIn_cons]

/-- A refusal is known when there is one in the trace. -/
theorem after_refused (trace : List (Sigma Call.Reply)) :
    (admission.after trace).refused = trace.any isRefusal := by
  induction trace with
  | nil => rfl
  | cons e trace ih =>
    show ((admission.after trace).next e.1 e.2).refused = _
    rw [next_refused, ih, List.any_cons]

/-- A call adds what it sends to the attempts known, while a lease is. -/
theorem next_attempts (φ : Progress) (c : Call) (r : c.Reply)
    (h : ∀ prepared, c = .sendOnce prepared → φ.lease.isSome = true) :
    (φ.next c r).attempts.map (·.prepared) = sends [⟨c, r⟩] ++ φ.attempts.map (·.prepared) := by
  cases c with
  | consult q =>
    obtain ⟨f, p, hprepared, hf⟩ := φ.consulted_eq q r
    show (φ.consulted q r).attempts.map (·.prepared) = _
    rw [hf]
    cases φ.attempts with
    | nil => rfl
    | cons a rest => exact congrArg (· :: rest.map (·.prepared)) (hprepared a)
  | sendOnce prepared =>
    obtain ⟨l, hl⟩ := Option.isSome_iff_exists.mp (h prepared rfl)
    simp only [next, hl]
    rfl
  | wait =>
    cases r with
    | lease | failed | heartbeat => rfl
  | enqueue | confirmStateless | beginSend | beginEncryptedReasoningRecovery | safetyCheck
  | finishRequest =>
    cases r with
    | error | ok => rfl
  | _ => rfl

end Progress
/-! ### Lawful traces -/

/-- What a request sent and was authorised for, as far as its trace goes. -/
structure Counted (trace : List (Sigma Call.Reply)) : Prop where
  attempts : (Progress.admission.after trace).attempts.map (·.prepared) = sends trace
  permits : permitsIn trace = (sends trace).length + (outstanding trace).toNat
  bounded : permitsIn trace ≤ 2

/-- The number of attempts known is the number of sends. -/
theorem Counted.length {trace : List (Sigma Call.Reply)} (h : Counted trace) :
    (Progress.admission.after trace).attempts.length = (sends trace).length := by
  rw [← h.attempts, List.length_map]

/-- A call in order keeps the count. -/
theorem Counted.cons {job : Job} {trace : List (Sigma Call.Reply)} (h : Counted trace) {c : Call}
    (r : c.Reply)
    (hc : InOrder job (Progress.admission.after trace) c ∨
      InOrderAfter job (Progress.admission.after trace) c) : Counted (⟨c, r⟩ :: trace) := by
  have hlen := h.length
  have hpermits := Progress.after_permits trace
  have hp := h.permits
  have hb := h.bounded
  have hlease : ∀ prepared, c = .sendOnce prepared →
      (Progress.admission.after trace).lease.isSome = true := by
    rintro prepared rfl
    rcases hc with ⟨l, hl, -⟩ | hc
    · rw [hl]
      rfl
    · exact hc.elim
  have hattempts : (Progress.admission.after (⟨c, r⟩ :: trace)).attempts.map (·.prepared) =
      sends (⟨c, r⟩ :: trace) := by
    rw [sends_cons, ← h.attempts]
    exact Progress.next_attempts _ c r hlease
  have hother : isPermit ⟨c, r⟩ = false → sends [⟨c, r⟩] = [] → Counted (⟨c, r⟩ :: trace) := by
    intro hno hnone
    refine ⟨hattempts, ?_, ?_⟩
    · rw [permitsIn_cons, sends_cons, outstanding, hno, hnone, hp]
      simp
    · rw [permitsIn_cons, hno]
      exact hb
  cases c with
  | sendOnce prepared =>
    rcases hc with ⟨l, -, hpermit, hfollow⟩ | hc
    · have hfew : (sends trace).length ≤ 1 := by
        rw [← hlen]
        rcases hfollow with hnone | ⟨a, hone, -⟩
        · rw [hnone]
          exact Nat.zero_le 1
        · rw [hone]
          exact Nat.le_refl 1
      rw [hpermits, hlen] at hpermit
      refine ⟨hattempts, ?_, ?_⟩
      · rw [permitsIn_cons, sends_cons, hpermit, List.length_append]
        show (sends trace).length + 1 = 1 + (sends trace).length
        omega
      · rw [permitsIn_cons]
        exact hb
    · exact hc.elim
  | beginSend =>
    rcases hc with ⟨-, hnone, hunsent⟩ | hc
    · cases r with
      | error x => exact hother rfl rfl
      | ok u =>
        rw [hpermits] at hnone
        rw [hlen] at hunsent
        refine ⟨hattempts, ?_, ?_⟩
        · rw [permitsIn_cons, sends_cons, hnone, List.length_append, hunsent]
          rfl
        · rw [permitsIn_cons, hnone]
          show 0 + 1 ≤ 2
          omega
    · exact hc.elim
  | beginEncryptedReasoningRecovery =>
    rcases hc with ⟨-, hone, hsent⟩ | hc
    · cases r with
      | error x => exact hother rfl rfl
      | ok u =>
        rw [hpermits] at hone
        rw [hlen] at hsent
        refine ⟨hattempts, ?_, ?_⟩
        · rw [permitsIn_cons, sends_cons, hone, List.length_append, hsent]
          rfl
        · rw [permitsIn_cons, hone]
          exact Nat.le_refl 2
    · exact hc.elim
  | _ => exact hother rfl rfl

/-- Every lawful trace is counted. -/
theorem counted_of_lawful {job : Job} {trace : List (Sigma Call.Reply)}
    (h : (monitor job).Lawful .admission trace) : Counted trace := by
  induction trace with
  | nil => exact ⟨rfl, rfl, Nat.zero_le 2⟩
  | cons e trace ih =>
    obtain ⟨⟨s, hc⟩, hl⟩ := h
    rw [phase_eq_after rfl] at hc
    exact (ih hl).cons e.2 (hc.imp (·.2.2.2) id)

/-! ### The rejected attempt -/

/-- A repeated request is a Responses request, with another body. -/
theorem Attempt.Rejected.changes {a : Attempt} {kind : RequestKind} {repaired : PreparedRequest}
    (h : a.Rejected kind repaired) : kind = .responses ∧ repaired.body ≠ a.prepared.body := by
  rcases h with ⟨body, changes, -, -, hp⟩ | ⟨_, event, _, error, changes, hk, -, -, -, -, hc⟩
  · obtain ⟨hk, -, -, hb⟩ := Codex.prepare_some hp
    exact ⟨hk, hb⟩
  · exact ⟨hk, Codex.clean_changes hc⟩

namespace World

/-- The attempts the scheduler counts for a request's lease. -/
def counter (w : World) (id : Uuid) : Option UInt8 := w.sched.state.leases.lookup id

/-- A live lease was counted for the permits of its request. -/
theorem Held.counter {w : World} (h : w.Held) {id : Uuid} {n : UInt8}
    (hn : w.counter id = some n) : n.toNat = (w.progress id).permits := by
  have ho := h.sched.occupied.leases id
  rw [show w.sched.state.leases.lookup id = some n from hn] at ho
  obtain ⟨live, hl, ha⟩ := Option.map_eq_some_iff.mp ho.symm
  obtain ⟨-, hp⟩ := known_of_live (h.holding id) hl
  rw [hp, ← ha]

/-- One move gives a request at most one permit, unless the process restarts. -/
theorem permits_step {w : World} (h : w.Held) {m : Move} {id : Uuid} {n : UInt8}
    (hn : (w.step m).counter id = some n) :
    ((w.step m).progress id).permits = (w.progress id).permits ∨
      ((w.step m).progress id).permits = (w.progress id).permits + 1 := by
  generalize hw : w.step m = w' at hn
  have ht := step_transition h.kept m
  rw [hw] at ht
  cases ht with
  | idle | administered | cleaned => exact .inl rfl
  | @arrived i key request new =>
    have hnone : w.tasks.lookup i = none := AList.lookup_eq_none.mpr fun hm ↦ new (h.issued i hm)
    have hp : w.progress i = .none := by
      rw [progress, hnone]
      rfl
    left
    rw [progress_insert w i id _ rfl]
    split
    · next he =>
      rw [he, hp]
      rfl
    · rfl
  | @moved i d life life' here kept thread hprogress =>
    have hp : w.progress i = life.progress := by
      rw [progress, here]
      rfl
    left
    rw [progress_insert w i id _ rfl]
    split
    · next he => rw [he, hp, hprogress]
    · rfl
  | @called w₁ i env life life' c r here kept thread inOrder performed hprogress =>
    have hp : w.progress i = life.progress := by
      rw [progress, here]
      rfl
    rw [progress_insert w i id _ rfl]
    split
    · next he =>
      rw [he, hp, hprogress, Progress.next_permits]
      cases isPermit ⟨c, r⟩
      · exact .inl rfl
      · exact .inr rfl
    · exact .inl rfl
  | restarted =>
    have hnone : AList.lookup id (∅ : FiniteMap Uuid UInt8) = some n := hn
    cases (AList.lookup_empty id).symm.trans hnone

/-- At most two sends, on one lease. For every task of a reachable state, and whatever came
before each send in its trace: the send has a permit of its own; the second repeats a
Responses request that was rejected for its encrypted content, with a cleaned body and over
the same lease. The scheduler counts exactly the permits, one at a time. -/
theorem two_sends_on_one_lease {w : World} (h : w.Reachable) {id : Uuid} {job : Job}
    {t : Task Execution Call Call.Reply Label Error Unit}
    (hl : w.tasks.lookup id = some (.running job t)) :
    (sends t.trace).length ≤ 2 ∧
    (∀ newer older prepared r, t.trace = newer ++ ⟨.sendOnce prepared, r⟩ :: older →
      permitsIn older = (sends older).length + 1 ∧
      ∃ lease, (Progress.admission.after older).lease = some lease ∧
        (sends older = [] ∨
          ∃ first, (Progress.admission.after older).attempts = [first] ∧
            sends older = [first.prepared] ∧ first.lease = lease ∧
            job.request.kind = .responses ∧ first.Rejected job.request.kind prepared ∧
            prepared.body ≠ first.prepared.body)) ∧
    (∀ n, w.counter id = some n → n.toNat = permitsIn t.trace ∧ n.toNat ≤ 2) ∧
    (∀ m n n', w.counter id = some n → (w.step m).counter id = some n' →
      n' = n ∨ n' = n + 1 ∧ n'.toNat ≤ 2) := by
  have hheld := h.held
  obtain ⟨-, -, hlawful⟩ := hheld.kept id _ hl
  have hcount := counted_of_lawful hlawful
  have hcounter : ∀ n, w.counter id = some n → n.toNat = permitsIn t.trace := by
    intro n hn
    rw [hheld.counter hn, progress, hl]
    exact Progress.after_permits t.trace
  refine ⟨?_, ?_, ?_, ?_⟩
  · have hp := hcount.permits
    have hb := hcount.bounded
    omega
  · intro newer older prepared r ht
    rw [ht] at hlawful
    obtain ⟨⟨s, hc⟩, holder⟩ := hlawful.at_call
    rw [phase_eq_after rfl] at hc
    have hold := counted_of_lawful holder
    rcases hc with ⟨-, -, -, lease, hlease, hpermit, hfollow⟩ | hc
    · rw [Progress.after_permits, hold.length] at hpermit
      refine ⟨hpermit, lease, hlease, ?_⟩
      rcases hfollow with hnone | ⟨first, hone, hsame, hrejected⟩
      · refine .inl ?_
        rw [← hold.attempts, hnone]
        rfl
      · obtain ⟨hkind, hbody⟩ := hrejected.changes
        refine .inr ⟨first, hone, ?_, hsame, hkind, hrejected, hbody⟩
        rw [← hold.attempts, hone]
        rfl
    · exact hc.elim
  · intro n hn
    have hb := hcount.bounded
    have hp := hcounter n hn
    omega
  · intro m n n' hn hn'
    have hheld' : (w.step m).Held := hheld.step m
    have hp := hheld.counter hn
    have hp' := hheld'.counter hn'
    have hbound : n'.toNat ≤ 2 := by
      obtain ⟨l, hl', ha⟩ := Option.map_eq_some_iff.mp
        ((hheld'.sched.occupied.leases id).symm.trans
          (congrArg (Option.map UInt8.toNat) hn'))
      have := hheld'.sched.occupied.attempts hl'
      omega
    rcases permits_step hheld hn' with he | he
    · exact .inl (UInt8.toNat_inj.mp (by omega))
    · refine .inr ⟨UInt8.toNat_inj.mp ?_, hbound⟩
      rw [UInt8.toNat_add]
      have h1 : (1 : UInt8).toNat = 1 := rfl
      omega

/-- A rejected request that is repeated: two sends. -/
theorem two_sends_on_one_lease_recovered :
    ∃ job t, (Sample.after (Sample.arrive true 1 :: Sample.turns .answered 400 1 50)).tasks.lookup
        1 = some (.running job t) ∧
      (sends t.trace).length = 2 ∧ (sends t.trace).length ≤ 2 := by
  have hsent : ((Sample.after
      (Sample.arrive true 1 :: Sample.turns .answered 400 1 50)).tasks.lookup 1).map
        (fun life ↦ (sends life.trace).length) = some 2 := by decide +kernel
  obtain ⟨life, hl, hlen⟩ := Option.map_eq_some_iff.mp hsent
  cases life with
  | starting key request t => cases hlen
  | running job t =>
    exact ⟨job, t, hl, hlen, (two_sends_on_one_lease (Sample.reachable _) hl).1⟩

end World
end Xxgate.Gateway

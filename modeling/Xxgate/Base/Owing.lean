import Xxgate.Base.Pool

/-!
# Properties a task may owe

A property of the shared state that a task breaks for a while and makes good again: for
every key it holds, or a task that is at work owes it. What a task owes must be paid when it
ends, and a task that is dropped before leaves the property broken.
-/

namespace Xxgate.Base

open FiniteMap

variable {σ E J A S C L Φ ε α K : Type} {R : C → Type}

namespace Pool

variable {k : Kit σ E J A S C R L ε α} {M : Monitor S C R L Φ}
  {Ended : Except ε α → S → Φ → Prop} {begin : J → Φ} {w : Pool σ J S C R L ε α}

/-- What is known of a task that was not dropped and has not ended. -/
def active (M : Monitor S C R L Φ) (begin : J → Φ) (w : Pool σ J S C R L ε α) (id : Nat) :
    Option Φ :=
  (w.tasks.lookup id).bind fun e ↦
    match e.2.result with
    | none => some (M.phase (begin e.1) e.2.trace)
    | some _ => none

/-- The call a task is at. -/
def calling (w : Pool σ J S C R L ε α) (id : Nat) : Option C :=
  (w.tasks.lookup id).bind (·.2.atCall)

/-- The active tasks are those without a result, in the phase their calls led to. -/
theorem active_eq_some {id : Nat} {φ : Φ} : w.active M begin id = some φ ↔
    ∃ job t, w.tasks.lookup id = some (job, t) ∧ t.result = none ∧
      M.phase (begin job) t.trace = φ := by
  unfold active
  constructor
  · intro h
    obtain ⟨⟨job, t⟩, hl, he⟩ := Option.bind_eq_some_iff.mp h
    split at he
    · next hr => exact ⟨job, t, hl, hr, Option.some.inj he⟩
    · cases he
  · rintro ⟨job, t, hl, hr, rfl⟩
    rw [hl, Option.bind_some]
    dsimp only
    rw [hr]

/-- An active task is one of which something is known. -/
theorem phase_of_active {id : Nat} {φ : Φ} (h : w.active M begin id = some φ) :
    w.phase M begin id = some φ := by
  obtain ⟨job, t, hl, -, rfl⟩ := active_eq_some.mp h
  rw [Pool.phase, hl]
  rfl

/-- The active tasks after one task was replaced. -/
theorem active_insert (shared : σ) {id i : Nat} {job : J} {t : Task S C R L ε α} {φ : Φ} :
    active M begin ⟨shared, w.tasks.insert id (job, t)⟩ i = some φ ↔
      if i = id then t.result = none ∧ M.phase (begin job) t.trace = φ
      else w.active M begin i = some φ := by
  rw [active_eq_some, active_eq_some]
  simp only [lookup_insert_ite]
  split
  · constructor
    · rintro ⟨job', t', he, hr, hφ⟩
      cases he
      exact ⟨hr, hφ⟩
    · rintro ⟨hr, hφ⟩
      exact ⟨job, t, rfl, hr, hφ⟩
  · exact Iff.rfl

/-- A call that joined the trace of a task is the one the task was at. -/
theorem calling_of_step {id : Nat} {env : E} {job : J} {t t' : Task S C R L ε α} {c : C}
    {r : R c} (here : w.tasks.lookup id = some (job, t))
    (after : (w.step k (.drive id (.perform env))).tasks.lookup id = some (job, t'))
    (trace : t'.trace = ⟨c, r⟩ :: t.trace) : w.calling id = some c := by
  have hne : t'.trace ≠ t.trace := by
    rw [trace]
    exact List.cons_ne_self _ _
  simp only [step] at after
  split at after
  · cases here.symm.trans after
    exact absurd rfl hne
  · next shared e he =>
    obtain ⟨e', hl, hn⟩ := Option.bind_eq_some_iff.mp he
    cases here.symm.trans hl
    obtain ⟨⟨shared', t₁⟩, hnext, hp⟩ := Option.map_eq_some_iff.mp hn
    cases hp
    rw [lookup_insert_ite, if_pos rfl] at after
    cases after
    rcases (Task.next_some hnext).2 with ⟨env', c', r', -, hat, -, htrace, -⟩ | ⟨-, htrace, -⟩
    · cases trace.symm.trans htrace
      rw [calling, here]
      exact hat
    · exact absurd htrace hne

/-- A task that performs the call it is at leaves the shared state as the call does. -/
theorem shared_of_calling {id : Nat} {env : E} {c : C} {r : R c} {shared : σ}
    (hc : w.calling id = some c) (he : k.exec w.shared id env c = some (shared, r)) :
    (w.step k (.drive id (.perform env))).shared = shared := by
  obtain ⟨⟨job, t⟩, hl, hat⟩ := Option.bind_eq_some_iff.mp hc
  have hnext : ∃ t', t.next k.scheme (k.exec w.shared id) w.shared (.perform env) =
      some (shared, t') := by
    have hat : t.atCall = some c := hat
    unfold Task.atCall at hat
    unfold Task.next
    split at hat
    · cases hat
      simp only [he, Option.map_some]
      exact ⟨_, rfl⟩
    · cases hat
      simp only [he, Option.map_some]
      exact ⟨_, rfl⟩
    · cases hat
  obtain ⟨t', hn⟩ := hnext
  rw [step_drive hl hn]

/-- The property holds for the key, or an active task owes it. -/
def Covered (M : Monitor S C R L Φ) (begin : J → Φ) (P : σ → K → Prop) (Owes : Φ → K → Prop)
    (w : Pool σ J S C R L ε α) (key : K) : Prop :=
  P w.shared key ∨ ∃ id φ, w.active M begin id = some φ ∧ Owes φ key

variable {P : σ → K → Prop} {Owes : Φ → K → Prop} {key : K}

/-- What has to be shown for a property to stay covered over a move: an active task that makes
a call pays or owes, epilogues leave the property alone, a task that ends owes nothing, one
that is dropped owes only what holds, and changes from outside leave the property alone. -/
theorem Covered.step (hd : k.Disciplined M Ended begin) (hk : w.Kept k M Ended begin)
    (h : w.Covered M begin P Owes key) (m : Move E J A ε)
    (called : ∀ id env φ c r shared, m = .drive id (.perform env) → w.active M begin id = some φ →
      w.calling id = some c → (∃ s, M.allowed φ s c) → k.exec w.shared id env c = some (shared, r) →
      P w.shared key ∨ Owes φ key → P shared key ∨ Owes (M.next φ c r) key)
    (closing : ∀ id env φ s c r shared, M.closing φ s c →
      k.exec w.shared id env c = some (shared, r) → P w.shared key → P shared key)
    (exits : ∀ id φ, w.active M begin id = some φ → M.exit φ → ¬ Owes φ key)
    (dropped : ∀ id x φ, m = .drive id (.abandon x) → w.active M begin id = some φ → Owes φ key →
      P w.shared key)
    (ended : ∀ a, m = .change a → k.ends a = true → P (k.change w.shared a) key)
    (changed : ∀ a, m = .change a → k.ends a = false → P w.shared key →
      P (k.change w.shared a) key) :
    (w.step k m).Covered M begin P Owes key := by
  have ht := (step_transition hd hk m).1
  have hat : ∀ {id : Nat} {env : E} {job : J} {t t' : Task S C R L ε α} {c : C} {r : R c},
      m = .drive id (.perform env) → w.tasks.lookup id = some (job, t) →
      (w.step k m).tasks.lookup id = some (job, t') → t'.trace = ⟨c, r⟩ :: t.trace →
      w.calling id = some c := by
    rintro id env job t t' c r rfl here after trace
    exact calling_of_step here after trace
  generalize w.step k m = w' at ht hat
  cases ht with
  | idle => exact h
  | @spawned i job new =>
    refine h.imp_right ?_
    rintro ⟨id, φ, hφ, ho⟩
    refine ⟨id, φ, (active_insert _).mpr ?_, ho⟩
    rw [if_neg]
    · exact hφ
    · rintro rfl
      obtain ⟨_, _, hl, -⟩ := active_eq_some.mp hφ
      cases new.symm.trans hl
  | @called i env job t t' c r shared here inOrder performed trace result =>
    have hlookup : (w.tasks.insert i (job, t')).lookup i = some (job, t') := by
      rw [lookup_insert_ite, if_pos rfl]
    have hcall := hat rfl here hlookup trace
    have hphase : M.phase (begin job) t'.trace = M.next (M.phase (begin job) t.trace) c r := by
      rw [trace]
      rfl
    rcases inOrder with ⟨hres, hallowed⟩ | ⟨hres, s, hclose⟩
    · have hself : w.active M begin i = some (M.phase (begin job) t.trace) :=
        active_eq_some.mpr ⟨job, t, here, hres, rfl⟩
      have hcalled := called i env _ c r shared rfl hself hcall hallowed performed
      -- what the caller owes is paid or owed on, and what another task owes it goes on owing
      have hmine : P w.shared key ∨ Owes (M.phase (begin job) t.trace) key →
          Covered M begin P Owes ⟨shared, w.tasks.insert i (job, t')⟩ key := by
        intro hp
        refine (hcalled hp).imp_right fun ho ↦ ⟨i, _, (active_insert _).mpr ?_, ho⟩
        rw [if_pos rfl]
        exact ⟨result.trans hres, hphase⟩
      rcases h with hp | ⟨id, φ, hφ, ho⟩
      · exact hmine (.inl hp)
      · by_cases hid : id = i
        · subst hid
          cases hφ.symm.trans hself
          exact hmine (.inr ho)
        · refine .inr ⟨id, φ, (active_insert _).mpr ?_, ho⟩
          rw [if_neg hid]
          exact hφ
    · refine h.imp (closing i env _ s c r shared hclose performed) ?_
      rintro ⟨id, φ, hφ, ho⟩
      refine ⟨id, φ, (active_insert _).mpr ?_, ho⟩
      rw [if_neg]
      · exact hφ
      · rintro rfl
        obtain ⟨_, _, hl, hnone, -⟩ := active_eq_some.mp hφ
        cases here.symm.trans hl
        rw [hnone] at hres
        cases hres
  | @moved i d job t t' here trace stays leaves =>
    rcases h with hp | ⟨id, φ, hφ, ho⟩
    · exact .inl hp
    · by_cases hid : id = i
      · subst hid
        obtain ⟨_, _, hl, hnone, hphase⟩ := active_eq_some.mp hφ
        cases here.symm.trans hl
        cases hres : t'.result with
        | none =>
          refine .inr ⟨id, φ, (active_insert _).mpr ?_, ho⟩
          rw [if_pos rfl, trace]
          exact ⟨hres, hphase⟩
        | some x =>
          rcases leaves x hres with hx | ⟨y, rfl⟩ | hexit
          · cases hnone.symm.trans hx
          · exact .inl (dropped id y φ rfl hφ ho)
          · exact absurd ho (exits id φ hφ (hphase ▸ hexit))
      · refine .inr ⟨id, φ, (active_insert _).mpr ?_, ho⟩
        rw [if_neg hid]
        exact hφ
  | changed a =>
    cases he : k.ends a with
    | true => exact .inl (ended a rfl he)
    | false => exact h.imp_left (changed a rfl he)

end Pool
end Xxgate.Base

import Xxgate.Base.Owing

/-!
# What tasks know

The calls and replies of a task tell it something about the shared state. What it was told is
so as long as its own next calls keep it so, and the calls of the others leave it alone.
-/

namespace Xxgate.Base

open FiniteMap

variable {σ E J A S C L Φ ε α : Type} {R : C → Type}

namespace Pool

variable {k : Kit σ E J A S C R L ε α} {M : Monitor S C R L Φ}
  {Ended : Except ε α → S → Φ → Prop} {begin : J → Φ} {w : Pool σ J S C R L ε α}

/-- What is known of a task after one task was replaced. -/
theorem phase_insert (shared : σ) (id i : Nat) (job : J) (t : Task S C R L ε α) :
    phase M begin ⟨shared, w.tasks.insert id (job, t)⟩ i =
      if i = id then some (M.phase (begin job) t.trace) else w.phase M begin i := by
  unfold phase
  rw [lookup_insert_ite]
  split <;> rfl

/-- The phase of a task is the one its calls led to. -/
theorem phase_of_lookup {id : Nat} {job : J} {t : Task S C R L ε α}
    (h : w.tasks.lookup id = some (job, t)) :
    w.phase M begin id = some (M.phase (begin job) t.trace) := by
  unfold phase
  rw [h]
  rfl

/-- What every task knows is so. -/
def Knowing (M : Monitor S C R L Φ) (begin : J → Φ) (Facts : σ → Φ → Prop)
    (w : Pool σ J S C R L ε α) : Prop :=
  ∀ id φ, w.phase M begin id = some φ → Facts w.shared φ

variable {Facts : σ → Φ → Prop}

/-- What has to be shown for every task to know what is so after a move: a task knows nothing
wrong to begin with, a call tells its caller what is so and leaves what the others know, and so
do changes from outside. -/
theorem Knowing.step (hd : k.Disciplined M Ended begin) (hk : w.Kept k M Ended begin)
    (h : w.Knowing M begin Facts) (m : Move E J A ε)
    (starts : ∀ job, Facts w.shared (begin job))
    (called : ∀ id env φ s c r shared, w.phase M begin id = some φ → w.calling id = some c →
      (M.allowed φ s c ∨ M.closing φ s c) → k.exec w.shared id env c = some (shared, r) →
      Facts shared (M.next φ c r) ∧
        ∀ i ψ, i ≠ id → w.phase M begin i = some ψ → Facts shared ψ)
    (changed : ∀ a φ, k.ends a = false → Facts w.shared φ → Facts (k.change w.shared a) φ) :
    (w.step k m).Knowing M begin Facts := by
  have ht := (step_transition hd hk m).1
  have hat : ∀ {id : Nat} {env : E} {job : J} {t t' : Task S C R L ε α} {c : C} {r : R c},
      m = .drive id (.perform env) → w.tasks.lookup id = some (job, t) →
      (w.step k m).tasks.lookup id = some (job, t') → t'.trace = ⟨c, r⟩ :: t.trace →
      w.calling id = some c := by
    rintro id env job t t' c r rfl here after trace
    exact calling_of_step here after trace
  generalize w.step k m = w' at ht hat
  cases ht with
  | idle => exact h
  | @spawned id job new =>
    intro i φ hi
    rw [phase_insert] at hi
    split at hi
    · cases hi
      exact starts job
    · exact h i φ hi
  | @called id env job t t' c r shared here inOrder performed trace result =>
    have horder : ∃ s, M.allowed (M.phase (begin job) t.trace) s c ∨
        M.closing (M.phase (begin job) t.trace) s c := by
      rcases inOrder with ⟨-, s, h⟩ | ⟨-, s, h⟩
      · exact ⟨s, .inl h⟩
      · exact ⟨s, .inr h⟩
    obtain ⟨s, horder⟩ := horder
    have hcall := hat rfl here (by dsimp only; rw [lookup_insert_ite, if_pos rfl]) trace
    obtain ⟨hown, hothers⟩ :=
      called id env _ s c r shared (phase_of_lookup here) hcall horder performed
    intro i φ hi
    rw [phase_insert, trace] at hi
    split at hi
    · cases hi
      exact hown
    · next hne => exact hothers i φ hne hi
  | @moved id d job t t' here trace stays leaves =>
    intro i φ hi
    rw [phase_insert, trace] at hi
    split at hi
    · next he =>
      subst he
      exact h i φ ((phase_of_lookup here).trans hi)
    · exact h i φ hi
  | changed a =>
    intro i φ hi
    cases he : k.ends a with
    | true =>
      rw [he] at hi
      cases hi
    | false =>
      rw [he] at hi
      exact changed a φ he (h i φ hi)

/-- Every call of a task got a reply of a kind. -/
def Answered (P : Sigma R → Prop) (id : Nat) (w : Pool σ J S C R L ε α) : Prop :=
  ∀ job t, w.tasks.lookup id = some (job, t) → ∀ e ∈ t.trace, P e

/-- Replies stay of a kind while the shared state gives such replies only. -/
theorem Answered.step {P : Sigma R → Prop} {id : Nat} (hd : k.Disciplined M Ended begin)
    (hk : w.Kept k M Ended begin) (h : w.Answered P id) (m : Move E J A ε)
    (replies : ∀ env c r shared, k.exec w.shared id env c = some (shared, r) → P ⟨c, r⟩) :
    (w.step k m).Answered P id := by
  have ht := (step_transition hd hk m).1
  generalize w.step k m = w' at ht
  cases ht with
  | idle => exact h
  | @spawned i job new =>
    intro job' t hl e he
    rw [lookup_insert_ite] at hl
    split at hl
    · cases hl
      cases he
    · exact h job' t hl e he
  | @called i env job t t' c r shared here inOrder performed trace result =>
    intro job' t₁ hl e he
    rw [lookup_insert_ite] at hl
    split at hl
    · next hid =>
      subst hid
      cases hl
      rw [trace] at he
      rcases List.mem_cons.mp he with rfl | he
      · exact replies env c r shared performed
      · exact h job t here e he
    · exact h job' t₁ hl e he
  | @moved i d job t t' here trace stays leaves =>
    intro job' t₁ hl e he
    rw [lookup_insert_ite] at hl
    split at hl
    · next hid =>
      subst hid
      cases hl
      rw [trace] at he
      exact h job t here e he
    · exact h job' t₁ hl e he
  | changed a =>
    intro job t hl e he
    cases hends : k.ends a with
    | true =>
      rw [hends] at hl
      cases hl
    | false =>
      rw [hends] at hl
      exact h job t hl e he

end Pool
end Xxgate.Base

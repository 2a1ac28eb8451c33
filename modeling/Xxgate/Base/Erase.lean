import Mathlib.Tactic.TypeStar

/-!
# State that does not show

A computation with a state and errors can give the same results from every state of an
invariant, as where the state is a memo table. `Erases` says that it does and keeps the
invariant: what it gives is what a computation without the state gives. The rules follow
the operations such computations are built with.
-/

namespace Xxgate.Base

universe u v w

variable {σ ε : Type u} {α β γ : Type u}

/-- From any state of the invariant, the computation gives what the one without state does,
and leaves a state of the invariant. -/
def Erases (I : σ → Prop) (m : StateT σ (Except ε) α) (r : Except ε α) : Prop :=
  ∀ s, I s → (∃ e, m s = .error e ∧ r = .error e) ∨ ∃ x s', m s = .ok (x, s') ∧ r = .ok x ∧ I s'

namespace Erases

variable {I : σ → Prop}

protected theorem pure (x : α) :
    Erases I (pure x : StateT σ (Except ε) α) (pure x) := fun s hs ↦ .inr ⟨x, s, rfl, rfl, hs⟩

protected theorem throw (e : ε) : Erases I (throw e : StateT σ (Except ε) α) (throw e) :=
  fun _ _ ↦ .inl ⟨e, rfl, rfl⟩

protected theorem bind {m : StateT σ (Except ε) α} {r : Except ε α} (hm : Erases I m r)
    {f : α → StateT σ (Except ε) β} {g : α → Except ε β} (hf : ∀ x, Erases I (f x) (g x)) :
    Erases I (m >>= f) (r >>= g) := by
  intro s hs
  have hbind : (m >>= f) s = m s >>= fun p ↦ f p.1 p.2 := rfl
  obtain ⟨e, hrun, rfl⟩ | ⟨x, s', hrun, rfl, hs'⟩ := hm s hs
  · exact .inl ⟨e, by rw [hbind, hrun]; rfl, rfl⟩
  · rw [hbind, hrun]
    exact hf x s' hs'

protected theorem ite (c : Prop) [Decidable c] {m m' : StateT σ (Except ε) α}
    {r r' : Except ε α} (hm : c → Erases I m r) (hm' : ¬ c → Erases I m' r') :
    Erases I (if c then m else m') (if c then r else r') := by
  by_cases hc : c
  · rw [if_pos hc, if_pos hc]
    exact hm hc
  · rw [if_neg hc, if_neg hc]
    exact hm' hc

/-- A loop that collects what it gets for each item. -/
protected theorem mapM {f : γ → StateT σ (Except ε) β} {g : γ → Except ε β}
    (h : ∀ x, Erases I (f x) (g x)) (xs : List γ) : Erases I (xs.mapM f) (xs.mapM g) := by
  induction xs with
  | nil =>
    rw [List.mapM_nil, List.mapM_nil]
    exact .pure _
  | cons x xs ih =>
    rw [List.mapM_cons, List.mapM_cons]
    exact (h x).bind fun y ↦ ih.bind fun ys ↦ .pure _

/-- A loop that carries an accumulator. -/
protected theorem foldlM {f : β → γ → StateT σ (Except ε) β} {g : β → γ → Except ε β}
    (h : ∀ b x, Erases I (f b x) (g b x)) (xs : List γ) (b : β) :
    Erases I (xs.foldlM f b) (xs.foldlM g b) := by
  induction xs generalizing b with
  | nil => exact .pure _
  | cons x xs ih =>
    rw [List.foldlM_cons, List.foldlM_cons]
    exact (h b x).bind ih

/-- What a run gives. -/
theorem ok {m : StateT σ (Except ε) α} {r : Except ε α} (h : Erases I m r) {s s' : σ} {x : α}
    (hs : I s) (hm : m s = .ok (x, s')) : r = .ok x ∧ I s' := by
  obtain ⟨e, he, -⟩ | ⟨y, t, hy, hr, ht⟩ := h s hs
  · rw [he] at hm
    cases hm
  · rw [hy] at hm
    cases hm
    exact ⟨hr, ht⟩

/-- A run gives what the computation without the state gives. -/
theorem run {m : StateT σ (Except ε) α} {r : Except ε α} (h : Erases I m r) {s : σ} {x : α}
    (hs : I s) (hr : r = .ok x) : ∃ s', m s = .ok (x, s') := by
  obtain ⟨e, -, he⟩ | ⟨y, t, hy, hr', -⟩ := h s hs
  · rw [he] at hr
    cases hr
  · rw [hr'] at hr
    cases hr
    exact ⟨t, hy⟩

end Erases
end Xxgate.Base

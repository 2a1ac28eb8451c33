import Mathlib.Tactic.TypeStar

/-!
# Runs of a machine

A machine is a total step function from a state and an input to a state; a run feeds it a
list of inputs. An invariant proved of one step holds after every run, and one that needs
a condition on the inputs holds after every run whose inputs meet the condition.
-/

namespace Xxgate.Base

universe u v w x

variable {σ : Type u} {ι : Type v} {τ : Type w} {κ : Type x}

/-- The state a machine is in after the inputs, taken from left to right. -/
def run (step : σ → ι → σ) (s : σ) (inputs : List ι) : σ := inputs.foldl step s

@[simp] theorem run_nil (step : σ → ι → σ) (s : σ) : run step s [] = s := rfl

@[simp] theorem run_cons (step : σ → ι → σ) (s : σ) (i : ι) (is : List ι) :
    run step s (i :: is) = run step (step s i) is := rfl

/-- A run over appended inputs continues from where the first part ended. -/
theorem run_append (step : σ → ι → σ) (s : σ) (is js : List ι) :
    run step s (is ++ js) = run step (run step s is) js :=
  List.foldl_append

/-- Every input of the run meets `cond` in the state it is given to. -/
def Along (step : σ → ι → σ) (cond : σ → ι → Prop) : σ → List ι → Prop
  | _, [] => True
  | s, i :: is => cond s i ∧ Along step cond (step s i) is

instance decidableAlong (step : σ → ι → σ) (cond : σ → ι → Prop) [∀ s i, Decidable (cond s i)] :
    ∀ (s : σ) (is : List ι), Decidable (Along step cond s is)
  | _, [] => .isTrue trivial
  | s, i :: is =>
    have := decidableAlong step cond (step s i) is
    inferInstanceAs (Decidable (cond s i ∧ Along step cond (step s i) is))

/-- Without a condition every run will do. -/
theorem Along.always (step : σ → ι → σ) (s : σ) (is : List ι) :
    Along step (fun _ _ ↦ True) s is := by
  induction is generalizing s with
  | nil => trivial
  | cons i is ih => exact ⟨trivial, ih _⟩

/-- A condition on the inputs alone. -/
theorem Along.of_mem {step : σ → ι → σ} {cond : σ → ι → Prop} {is : List ι}
    (h : ∀ i ∈ is, ∀ s, cond s i) (s : σ) : Along step cond s is := by
  induction is generalizing s with
  | nil => trivial
  | cons i is ih =>
    exact ⟨h i (List.mem_cons_self ..) s, ih (fun j hj ↦ h j (List.mem_cons_of_mem _ hj)) _⟩

/-- What one conditional step preserves, a run that meets the condition preserves. -/
theorem run_invariant_along {step : σ → ι → σ} {cond : σ → ι → Prop} {P : σ → Prop}
    (hstep : ∀ s i, P s → cond s i → P (step s i)) {s : σ} {is : List ι}
    (h : P s) (ha : Along step cond s is) : P (run step s is) := by
  induction is generalizing s with
  | nil => exact h
  | cons i is ih => exact ih (hstep s i h ha.1) ha.2

/-- What one step preserves, a run preserves. -/
theorem run_invariant {step : σ → ι → σ} {P : σ → Prop}
    (hstep : ∀ s i, P s → P (step s i)) {s : σ} (is : List ι) (h : P s) :
    P (run step s is) := by
  induction is generalizing s with
  | nil => exact h
  | cons i is ih => exact ih (hstep s i h)

/-- What the steps of a run put out, in order. -/
def outputs {α : Type*} (step : σ → ι → σ) (out : σ → ι → Option α) : σ → List ι → List α
  | _, [] => []
  | s, i :: is => (out s i).toList ++ outputs step out (step s i) is

/-- No step of a run that does not put `a` out puts it out. -/
theorem Along.avoids {α : Type*} {step : σ → ι → σ} {out : σ → ι → Option α}
    {cond : σ → ι → Prop} {a : α} {s : σ} {is : List ι} (h : Along step cond s is)
    (hn : a ∉ outputs step out s is) :
    Along step (fun s i ↦ cond s i ∧ out s i ≠ some a) s is := by
  induction is generalizing s with
  | nil => trivial
  | cons i is ih =>
    rw [outputs, List.mem_append, Option.mem_toList, not_or] at hn
    exact ⟨⟨h.1, hn.1⟩, ih h.2 hn.2⟩

/-- A run that meets the condition puts `a` out at most once, when afterwards something holds
that the steps preserve and under which none of them puts it out. -/
theorem count_outputs_le_one {α : Type*} [DecidableEq α] {step : σ → ι → σ}
    {out : σ → ι → Option α} {cond : σ → ι → Prop} {I P : σ → Prop} {a : α}
    (hinv : ∀ s i, I s → I (step s i))
    (hafter : ∀ s i, I s → cond s i → out s i = some a → P (step s i))
    (hkeep : ∀ s i, I s → P s → cond s i → out s i ≠ some a ∧ P (step s i))
    {s : σ} {is : List ι} (h : I s) (ha : Along step cond s is) :
    (outputs step out s is).count a ≤ 1 := by
  have hnone : ∀ (is : List ι) (s : σ), I s → P s → Along step cond s is →
      (outputs step out s is).count a = 0 := by
    intro is
    induction is with
    | nil => exact fun _ _ _ _ ↦ List.count_nil
    | cons i is ih =>
      intro s h hp ha
      obtain ⟨hne, hp'⟩ := hkeep s i h hp ha.1
      have hout : (out s i).toList.count a = 0 := by
        rw [List.count_eq_zero, Option.mem_toList]
        exact hne
      rw [outputs, List.count_append, hout, ih _ (hinv s i h) hp' ha.2]
  induction is generalizing s with
  | nil => exact Nat.zero_le _
  | cons i is ih =>
    rw [outputs, List.count_append]
    by_cases hout : out s i = some a
    · have hrest := hnone is _ (hinv s i h) (hafter s i h ha.1 hout) ha.2
      simp [hout, hrest]
    · have hzero : (out s i).toList.count a = 0 := by
        rw [List.count_eq_zero, Option.mem_toList]
        exact hout
      rw [hzero, Nat.zero_add]
      exact ih (hinv s i h) ha.2

end Xxgate.Base

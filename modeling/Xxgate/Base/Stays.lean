import Xxgate.Base.Async

/-!
# What a program keeps

A coroutine stays in something known when, from there and under every reply, it makes allowed
calls, jumps where it may, and ends there again, with a result or an error. Parts that do are
put together by the rules below, whatever the monitor is.
-/

namespace Xxgate.Base

variable {S C L Φ ε α β : Type} {R : C → Type}

/-- A monitor that allows everything is met. -/
theorem Prog.meets_of_free {M : Monitor S C R L Φ} (hc : ∀ φ s c, M.allowed φ s c)
    (hl : ∀ φ s l, M.entry φ s l) (p : Prog S C R L α) (φ : Φ) :
    p.Meets M (fun _ _ ↦ True) φ := by
  induction p generalizing φ with
  | ret a => trivial
  | goto s l => exact hl φ s l
  | call s c k ih => exact ⟨hc φ s c, fun r ↦ ih r _⟩

/-- The monitor allows the call wherever `K` holds, and `K` holds after any reply. -/
def Monitor.Keeps (M : Monitor S C R L Φ) (K : S → Φ → Prop) (c : C) : Prop :=
  ∀ s φ, K s φ → M.allowed φ s c ∧ ∀ r, K s (M.next φ c r)

/-- The monitor lets the block begin wherever `K` holds. -/
def Monitor.Opens (M : Monitor S C R L Φ) (K : S → Φ → Prop) (l : L) : Prop :=
  ∀ s φ, K s φ → M.entry φ s l

namespace Coroutine

variable {M : Monitor S C R L Φ} {K : S → Φ → Prop}

/-- Begun with `K`, the coroutine meets the monitor and ends with `K`. -/
def Stays (M : Monitor S C R L Φ) (K : S → Φ → Prop) (m : Coroutine S C R L ε α) : Prop :=
  ∀ s φ, K s φ → m.Meets M s φ fun _ ↦ K

namespace Stays

/-- An answer is no step. -/
theorem pure (a : α) : (Pure.pure a : Coroutine S C R L ε α).Stays M K := fun _ _ h ↦ h

/-- A failure is no step. -/
theorem fail (x : ε) : (Coroutine.fail x : Coroutine S C R L ε α).Stays M K := fun _ _ h ↦ h

/-- A result taken over is no step. -/
theorem ok (x : Except ε α) : (Coroutine.ok x : Coroutine S C R L ε α).Stays M K := fun _ _ h ↦ h

/-- Reading the local state changes nothing. -/
theorem read : (Coroutine.read : Coroutine S C R L ε S).Stays M K := fun _ _ h ↦ h

/-- An update stays where it keeps the condition. -/
theorem update {f : S → S} (h : ∀ s φ, K s φ → K (f s) φ) :
    (Coroutine.update f : Coroutine S C R L ε Unit).Stays M K := h

/-- A call stays where the monitor keeps the condition. -/
theorem ask {c : C} (h : M.Keeps K c) :
    (Coroutine.ask c : Coroutine S C R L ε (R c)).Stays M K := h

/-- A jump stays where the monitor opens its label. -/
theorem jump {l : L} (h : M.Opens K l) :
    (Coroutine.jump l : Coroutine S C R L ε α).Stays M K := h

/-- A sequence stays where its parts do. -/
theorem bind {m : Coroutine S C R L ε α} {f : α → Coroutine S C R L ε β} (hm : m.Stays M K)
    (hf : ∀ a, (f a).Stays M K) : (m >>= f).Stays M K := by
  intro s φ h
  rw [meets_bind]
  apply (hm s φ h).mono
  rintro (x | a) s' φ' h'
  · exact h'
  · exact hf a s' φ' h'

/-- Taking a failure as a value changes nothing about staying. -/
theorem outcome {ε' : Type} {m : Coroutine S C R L ε α} (hm : m.Stays M K) :
    (Coroutine.outcome m : Coroutine S C R L ε' (Except ε α)).Stays M K := by
  intro s φ h
  rw [meets_outcome]
  exact hm s φ h

/-- A conditional part stays where the part does. -/
theorem doWhen {b : Bool} {m : Coroutine S C R L ε Unit} (hm : m.Stays M K) :
    (Coroutine.doWhen b m).Stays M K := by
  unfold Coroutine.doWhen
  cases b
  · exact pure ()
  · exact hm

end Stays
end Coroutine
end Xxgate.Base

import Mathlib.Tactic.TypeStar

/-!
# Asynchronous programs

A program talks to its surroundings by calls and gets one reply to each. It is cut into
labelled blocks, so that a loop is a jump to its own label. While it runs, whoever polls it
may abandon it at an await; what it then leaves behind is the state shown at that call.

`Coroutine` is the monad such programs are written in, with a state and errors. A `Monitor`
follows the calls and replies of a program and says which call is in order when; a program
that `Meets` it stays in order under every reply.
-/

namespace Xxgate.Base

universe u v

/-- A program with visible state `S`, calls `C` with replies `R`, and labels `L`. -/
inductive Prog (S C : Type) (R : C → Type) (L α : Type) : Type where
  | ret (a : α)
  | goto (s : S) (l : L)
  | call (s : S) (c : C) (k : R c → Prog S C R L α)

variable {S C L Φ ε α β : Type} {R : C → Type}

namespace Prog

/-- Sequencing; a jump never comes back. -/
def bind (p : Prog S C R L α) (f : α → Prog S C R L β) : Prog S C R L β :=
  match p with
  | .ret a => f a
  | .goto s l => .goto s l
  | .call s c k => .call s c fun r ↦ (k r).bind f

end Prog

/-- A program that carries a state and can fail. -/
def Coroutine (S C : Type) (R : C → Type) (L ε α : Type) : Type :=
  S → Prog S C R L (Except ε α × S)

namespace Coroutine

instance : Monad (Coroutine S C R L ε) where
  pure a := fun s ↦ .ret (.ok a, s)
  bind m f := fun s ↦ (m s).bind fun
    | (.ok a, s) => f a s
    | (.error x, s) => .ret (.error x, s)

/-- Fail with an error. -/
def fail (x : ε) : Coroutine S C R L ε α := fun s ↦ .ret (.error x, s)

/-- Continue with the outcome of a fallible step, as `?` does. -/
def ok (x : Except ε α) : Coroutine S C R L ε α := fun s ↦ .ret (x, s)

/-- The current state. -/
def read : Coroutine S C R L ε S := fun s ↦ .ret (.ok s, s)

/-- Change the state. -/
def update (f : S → S) : Coroutine S C R L ε Unit := fun s ↦ .ret (.ok (), f s)

/-- Make a call and take its reply. -/
def ask (c : C) : Coroutine S C R L ε (R c) := fun s ↦ .call s c fun r ↦ .ret (.ok r, s)

/-- Take the outcome of a step as a value instead of failing with it. -/
def outcome {ε' : Type} (m : Coroutine S C R L ε α) : Coroutine S C R L ε' (Except ε α) :=
  fun s ↦ (m s).bind fun a ↦ .ret (.ok a.1, a.2)

/-- Do something when a condition holds. -/
def doWhen (b : Bool) (m : Coroutine S C R L ε Unit) : Coroutine S C R L ε Unit :=
  if b then m else pure ()

/-- Jump to a block. -/
def jump (l : L) : Coroutine S C R L ε α := fun s ↦ .goto s l

end Coroutine

/-! ### Monitors -/

/-- What a monitor knows after the calls so far, which calls it allows, where it lets a
block begin, where it lets the program end, and which calls it allows after that. -/
structure Monitor (S C : Type) (R : C → Type) (L Φ : Type) where
  next : Φ → (c : C) → R c → Φ
  allowed : Φ → S → C → Prop
  entry : Φ → S → L → Prop
  exit : Φ → Prop
  closing : Φ → S → C → Prop

/-- Under every reply the program makes allowed calls only, enters blocks where it may, and
ends with `Q`. -/
def Prog.Meets (M : Monitor S C R L Φ) (Q : α → Φ → Prop) : Prog S C R L α → Φ → Prop
  | .ret a, φ => Q a φ
  | .goto s l, φ => M.entry φ s l
  | .call s c k, φ => M.allowed φ s c ∧ ∀ r, (k r).Meets M Q (M.next φ c r)

/-- A sequence meets the monitor when its first part meets it with the second part's
requirement as its end. -/
theorem Prog.meets_bind {M : Monitor S C R L Φ} {Q : β → Φ → Prop} (p : Prog S C R L α)
    (f : α → Prog S C R L β) (φ : Φ) :
    (p.bind f).Meets M Q φ ↔ p.Meets M (fun a φ ↦ (f a).Meets M Q φ) φ := by
  induction p generalizing φ with
  | ret a => rfl
  | goto s l => rfl
  | call s c k ih =>
    simp only [Prog.bind, Prog.Meets]
    exact and_congr_right fun _ ↦ forall_congr' fun r ↦ ih r _

/-- A weaker end is met as well. -/
theorem Prog.Meets.mono {M : Monitor S C R L Φ} {Q Q' : α → Φ → Prop} {p : Prog S C R L α}
    {φ : Φ} (h : p.Meets M Q φ) (hq : ∀ a φ, Q a φ → Q' a φ) : p.Meets M Q' φ := by
  induction p generalizing φ with
  | ret a => exact hq a φ h
  | goto s l => exact h
  | call s c k ih => exact ⟨h.1, fun r ↦ ih r (h.2 r)⟩

/-- A coroutine meets the monitor from a state, with an end for its outcome and state. -/
def Coroutine.Meets (M : Monitor S C R L Φ) (m : Coroutine S C R L ε α) (s : S) (φ : Φ)
    (Q : Except ε α → S → Φ → Prop) : Prop :=
  (m s).Meets M (fun a φ ↦ Q a.1 a.2 φ) φ

namespace Coroutine

variable {M : Monitor S C R L Φ} {Q : Except ε β → S → Φ → Prop}
  {P : Except ε α → S → Φ → Prop} {s : S} {φ : Φ}

@[simp] theorem meets_pure (a : α) :
    (pure a : Coroutine S C R L ε α).Meets M s φ P ↔ P (.ok a) s φ := Iff.rfl

@[simp] theorem meets_fail (x : ε) :
    (fail x : Coroutine S C R L ε α).Meets M s φ P ↔ P (.error x) s φ := Iff.rfl

@[simp] theorem meets_ok (x : Except ε α) :
    (ok x : Coroutine S C R L ε α).Meets M s φ P ↔ P x s φ := Iff.rfl

@[simp] theorem meets_read {P : Except ε S → S → Φ → Prop} :
    (read : Coroutine S C R L ε S).Meets M s φ P ↔ P (.ok s) s φ := Iff.rfl

@[simp] theorem meets_update (f : S → S) {P : Except ε Unit → S → Φ → Prop} :
    (update f : Coroutine S C R L ε Unit).Meets M s φ P ↔ P (.ok ()) (f s) φ := Iff.rfl

@[simp] theorem meets_ask (c : C) {P : Except ε (R c) → S → Φ → Prop} :
    (ask c : Coroutine S C R L ε (R c)).Meets M s φ P ↔
      M.allowed φ s c ∧ ∀ r, P (.ok r) s (M.next φ c r) := Iff.rfl

@[simp] theorem meets_jump (l : L) :
    (jump l : Coroutine S C R L ε α).Meets M s φ P ↔ M.entry φ s l := Iff.rfl

@[simp] theorem meets_doWhen (b : Bool) (m : Coroutine S C R L ε Unit)
    {P : Except ε Unit → S → Φ → Prop} :
    (doWhen b m).Meets M s φ P ↔ if b then m.Meets M s φ P else P (.ok ()) s φ := by
  unfold doWhen
  cases b
  · rfl
  · rfl

/-- A sequence continues after success and ends with the first error. -/
@[simp] theorem meets_bind (m : Coroutine S C R L ε α) (f : α → Coroutine S C R L ε β) :
    (m >>= f).Meets M s φ Q ↔ m.Meets M s φ fun
      | .ok a, s, φ => (f a).Meets M s φ Q
      | .error x, s, φ => Q (.error x) s φ := by
  unfold Coroutine.Meets
  refine (Prog.meets_bind _ _ _).trans ?_
  constructor
  · intro h
    refine h.mono ?_
    rintro ⟨_ | _, s⟩ φ h
    · exact h
    · exact h
  · intro h
    refine h.mono ?_
    rintro ⟨_ | _, s⟩ φ h
    · exact h
    · exact h

@[simp] theorem meets_outcome {ε' : Type} (m : Coroutine S C R L ε α)
    {P : Except ε' (Except ε α) → S → Φ → Prop} :
    (outcome m : Coroutine S C R L ε' (Except ε α)).Meets M s φ P ↔
      m.Meets M s φ fun x ↦ P (.ok x) :=
  Prog.meets_bind _ _ _

/-- A weaker end is met as well. -/
theorem Meets.mono {m : Coroutine S C R L ε α} {P' : Except ε α → S → Φ → Prop}
    (h : m.Meets M s φ P) (hp : ∀ a s φ, P a s φ → P' a s φ) : m.Meets M s φ P' :=
  Prog.Meets.mono h fun a φ ↦ hp a.1 a.2 φ

end Coroutine
end Xxgate.Base

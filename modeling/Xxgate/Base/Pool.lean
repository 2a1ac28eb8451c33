import Xxgate.Base.FiniteMap
import Xxgate.Base.Run
import Xxgate.Base.Task

/-!
# Pools of tasks

Tasks of one kind run side by side over a state they share. Each move starts a task, drives
one on, or changes the shared state from outside, with or without ending every task. When
the tasks keep to a monitor, every call that reaches the shared state is in order.
-/

namespace Xxgate.Base

open FiniteMap

/-- What tasks of one kind run, how the shared state answers their calls, and how it changes
by itself. -/
structure Kit (σ E J A S C : Type) (R : C → Type) (L ε α : Type) where
  scheme : Scheme S C R L ε α
  body : J → Prog S C R L (Except ε α × S)
  exec : σ → Nat → E → (c : C) → Option (σ × R c)
  change : σ → A → σ
  /-- The change ends every task where it stands. -/
  ends : A → Bool

/-- Tasks with their jobs, and what they share. -/
structure Pool (σ J S C : Type) (R : C → Type) (L ε α : Type) where
  shared : σ
  tasks : FiniteMap Nat (J × Task S C R L ε α)

/-- One move of a pool. -/
inductive Pool.Move (E J A ε : Type) where
  | spawn (id : Nat) (job : J)
  | drive (id : Nat) (drive : Drive E ε)
  | change (a : A)

variable {σ E J A S C L Φ ε α : Type} {R : C → Type}

/-- The tasks of a kit keep to a monitor that starts with what is known of the job. -/
structure Kit.Disciplined (k : Kit σ E J A S C R L ε α) (M : Monitor S C R L Φ)
    (Ended : Except ε α → S → Φ → Prop) (begin : J → Φ) : Prop where
  keeps : k.scheme.Keeps M Ended
  starts : ∀ job, Task.Follows k.scheme M Ended (begin job) (.running (k.body job))

namespace Pool

/-- One move; what does not apply changes nothing. -/
def step (k : Kit σ E J A S C R L ε α) (w : Pool σ J S C R L ε α) :
    Move E J A ε → Pool σ J S C R L ε α
  | .spawn id job =>
    if id ∈ w.tasks then w
    else { w with tasks := w.tasks.insert id (job, ⟨.running (k.body job), []⟩) }
  | .drive id d =>
    match (w.tasks.lookup id).bind fun e ↦
      (e.2.next k.scheme (k.exec w.shared id) w.shared d).map fun a ↦ (a.1, (e.1, a.2)) with
    | none => w
    | some (shared, e) => ⟨shared, w.tasks.insert id e⟩
  | .change a => ⟨k.change w.shared a, if k.ends a then ∅ else w.tasks⟩

/-- A task spawned under a free name is added with its body. -/
theorem step_spawn {k : Kit σ E J A S C R L ε α} {w : Pool σ J S C R L ε α} {id : Nat}
    (h : id ∉ w.tasks) (job : J) : w.step k (.spawn id job) =
      { w with tasks := w.tasks.insert id (job, ⟨.running (k.body job), []⟩) } := by
  rw [step, if_neg h]

/-- A task that can be driven is replaced by what it becomes. -/
theorem step_drive {k : Kit σ E J A S C R L ε α} {w : Pool σ J S C R L ε α} {id : Nat} {job : J}
    {t t' : Task S C R L ε α} {d : Drive E ε} {shared : σ}
    (h : w.tasks.lookup id = some (job, t))
    (hn : t.next k.scheme (k.exec w.shared id) w.shared d = some (shared, t')) :
    w.step k (.drive id d) = ⟨shared, w.tasks.insert id (job, t')⟩ := by
  simp only [step, h, Option.bind_some, hn, Option.map_some]

/-- Every task keeps to the monitor and did so far. -/
def Kept (k : Kit σ E J A S C R L ε α) (M : Monitor S C R L Φ)
    (Ended : Except ε α → S → Φ → Prop) (begin : J → Φ) (w : Pool σ J S C R L ε α) : Prop :=
  ∀ id job t, w.tasks.lookup id = some (job, t) →
    Task.Follows k.scheme M Ended (M.phase (begin job) t.trace) t.stage ∧
      M.Lawful (begin job) t.trace

/-- What a move can change when the tasks keep to a monitor. -/
inductive Transition (k : Kit σ E J A S C R L ε α) (M : Monitor S C R L Φ) (begin : J → Φ)
    (w : Pool σ J S C R L ε α) : Move E J A ε → Pool σ J S C R L ε α → Prop where
  | idle (m : Move E J A ε) : Transition k M begin w m w
  | spawned {id : Nat} {job : J} (new : w.tasks.lookup id = none) :
      Transition k M begin w (.spawn id job)
        { w with tasks := w.tasks.insert id (job, ⟨.running (k.body job), []⟩) }
  | called {id : Nat} {env : E} {job : J} {t t' : Task S C R L ε α} {c : C} {r : R c} {shared : σ}
      (here : w.tasks.lookup id = some (job, t))
      (inOrder : (t.result = none ∧ ∃ s, M.allowed (M.phase (begin job) t.trace) s c) ∨
        (t.result.isSome = true ∧ ∃ s, M.closing (M.phase (begin job) t.trace) s c))
      (performed : k.exec w.shared id env c = some (shared, r))
      (trace : t'.trace = ⟨c, r⟩ :: t.trace) (result : t'.result = t.result) :
      Transition k M begin w (.drive id (.perform env)) ⟨shared, w.tasks.insert id (job, t')⟩
  | moved {id : Nat} {d : Drive E ε} {job : J} {t t' : Task S C R L ε α}
      (here : w.tasks.lookup id = some (job, t)) (trace : t'.trace = t.trace)
      (stays : ∀ x, t.result = some x → t'.result = some x)
      (leaves : ∀ x, t'.result = some x → t.result = some x ∨ (∃ y, d = .abandon y) ∨
        M.exit (M.phase (begin job) t.trace)) :
      Transition k M begin w (.drive id d) { w with tasks := w.tasks.insert id (job, t') }
  | changed (a : A) :
      Transition k M begin w (.change a)
        ⟨k.change w.shared a, if k.ends a then ∅ else w.tasks⟩

variable {k : Kit σ E J A S C R L ε α} {M : Monitor S C R L Φ}
  {Ended : Except ε α → S → Φ → Prop} {begin : J → Φ} {w w' : Pool σ J S C R L ε α}

/-- A task that is spawned or changed and keeps to its monitor leaves the others to theirs. -/
theorem Kept.insert (h : w.Kept k M Ended begin) {id : Nat} {job : J} {t : Task S C R L ε α}
    (ht : Task.Follows k.scheme M Ended (M.phase (begin job) t.trace) t.stage ∧
      M.Lawful (begin job) t.trace) (shared : σ) :
    Kept k M Ended begin ⟨shared, w.tasks.insert id (job, t)⟩ := by
  intro i job' t' hi
  rw [lookup_insert_ite] at hi
  split at hi
  · cases hi
    exact ht
  · exact h i job' t' hi

/-- While the tasks keep to their monitors, a move makes one of the listed changes and they
still do. -/
theorem step_transition (hd : k.Disciplined M Ended begin) (h : w.Kept k M Ended begin)
    (m : Move E J A ε) :
    Transition k M begin w m (w.step k m) ∧ (w.step k m).Kept k M Ended begin := by
  cases m with
  | spawn id job =>
    simp only [step]
    split
    · exact ⟨.idle _, h⟩
    · next hn =>
      refine ⟨.spawned (AList.lookup_eq_none.mpr hn), h.insert ?_ w.shared⟩
      exact ⟨hd.starts job, trivial⟩
  | drive id d =>
    simp only [step]
    split
    · exact ⟨.idle _, h⟩
    · next shared e he =>
      obtain ⟨⟨job, t⟩, hl, hn⟩ := Option.bind_eq_some_iff.mp he
      obtain ⟨⟨shared', t'⟩, hnext, hp⟩ := Option.map_eq_some_iff.mp hn
      cases hp
      obtain ⟨hf, hlaw⟩ := h id job t hl
      obtain ⟨hm, hcase⟩ := Task.next_some hnext
      refine ⟨?_, h.insert ⟨hf.moves hd.keeps hm, hf.lawful hm hlaw⟩ _⟩
      rcases hcase with ⟨env, c, r, rfl, hc, hexec, htrace, hres⟩ | ⟨rfl, htrace, hstay, hleave⟩
      · exact .called hl (hf.at_call hc) hexec htrace hres
      · refine .moved hl htrace hstay fun x hx ↦ ?_
        rcases hleave x hx with hr | ha | ⟨s, hs⟩
        · exact .inl hr
        · exact .inr (.inl ha)
        · rw [hs] at hf
          exact .inr (.inr hf.1)
  | change a =>
    refine ⟨.changed a, ?_⟩
    intro i job t hi
    simp only [step] at hi
    split at hi
    · cases (AList.lookup_empty i).symm.trans hi
    · exact h i job t hi

/-- What is known of a task, if it is there. -/
def phase (M : Monitor S C R L Φ) (begin : J → Φ) (w : Pool σ J S C R L ε α) (id : Nat) :
    Option Φ :=
  (w.tasks.lookup id).map fun e ↦ M.phase (begin e.1) e.2.trace

end Pool
end Xxgate.Base

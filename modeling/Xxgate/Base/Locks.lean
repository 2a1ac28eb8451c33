import Mathlib.Data.Finset.Basic
import Xxgate.Base.Pool

/-!
# Locks of a pool

Tasks take and give back named locks through their calls, and a table says who has which.
When every call acts on the table as it acts on what is known of the calling task, the table
says what the tasks know: a lock has one owner at a time, and only its owner gives it back.
-/

namespace Xxgate.Base

open FiniteMap

variable {K : Type} [DecidableEq K]

/-- What a call does to the locks. -/
inductive LockOp (K : Type) where
  | acquire (key : K)
  | release (key : K)
  | releaseAll

namespace LockOp

/-- The locks of the caller after the call. -/
def hold (held : Finset K) : LockOp K → Finset K
  | .acquire key => insert key held
  | .release key => held.erase key
  | .releaseAll => ∅

/-- The table after the call, or none while a lock has to be waited for. -/
def apply (locks : FiniteMap K Nat) (owner : Nat) : LockOp K → Option (FiniteMap K Nat)
  | .acquire key => if key ∈ locks then none else some (locks.insert key owner)
  | .release key => some (if locks.lookup key = some owner then locks.erase key else locks)
  | .releaseAll => some (locks.filter fun _ o ↦ o ≠ owner)

/-- The owner of a lock after a call: the caller's locks are what the call made of them, and
the other tasks keep theirs. -/
theorem lookup_apply {locks locks' : FiniteMap K Nat} {owner : Nat} {op : LockOp K}
    (h : op.apply locks owner = some locks') {held : Finset K}
    (hh : ∀ key, locks.lookup key = some owner ↔ key ∈ held) (key : K) (id : Nat) :
    locks'.lookup key = some id ↔
      if id = owner then key ∈ op.hold held else locks.lookup key = some id := by
  cases op with
  | acquire k =>
    simp only [apply] at h
    split at h
    · cases h
    · next hk =>
      cases h
      rw [lookup_insert_ite, hold, Finset.mem_insert, ← hh]
      have hn : locks.lookup k = none := AList.lookup_eq_none.mpr hk
      by_cases hkey : key = k
      · subst hkey
        rw [if_pos rfl, hn, Option.some.injEq]
        by_cases hid : id = owner
        · rw [if_pos hid]
          exact ⟨fun _ ↦ .inl rfl, fun _ ↦ hid.symm⟩
        · rw [if_neg hid]
          exact ⟨fun he ↦ absurd he.symm hid, nofun⟩
      · rw [if_neg hkey]
        by_cases hid : id = owner
        · rw [if_pos hid, hid]
          exact ⟨.inr, fun ho ↦ ho.resolve_left hkey⟩
        · rw [if_neg hid]
  | release k =>
    simp only [apply, Option.some.injEq] at h
    rw [hold, Finset.mem_erase, ← hh]
    subst h
    by_cases hk : locks.lookup k = some owner
    · rw [if_pos hk, lookup_erase_ite]
      by_cases hkey : key = k
      · subst hkey
        rw [if_pos rfl, hk, Option.some.injEq]
        by_cases hid : id = owner
        · rw [if_pos hid]
          exact ⟨nofun, fun h ↦ absurd rfl h.1⟩
        · rw [if_neg hid]
          exact ⟨nofun, fun h ↦ absurd (Option.some.inj h).symm hid⟩
      · rw [if_neg hkey]
        by_cases hid : id = owner
        · rw [if_pos hid, hid]
          exact ⟨fun h ↦ ⟨hkey, h⟩, And.right⟩
        · rw [if_neg hid]
    · rw [if_neg hk]
      by_cases hid : id = owner
      · rw [if_pos hid, hid]
        exact ⟨fun h ↦ ⟨fun he ↦ hk (he ▸ h), h⟩, And.right⟩
      · rw [if_neg hid]
  | releaseAll =>
    simp only [apply, Option.some.injEq] at h
    subst h
    rw [lookup_filter, hold, Option.filter_eq_some_iff]
    by_cases hid : id = owner
    · rw [if_pos hid, hid]
      simp
    · rw [if_neg hid]
      simp [hid]

end LockOp

variable {σ E J A S C L Φ ε α : Type} {R : C → Type}

/-- The calls of a kit that act on locks, the table, and the locks a task is known to have. -/
structure Locking (k : Kit σ E J A S C R L ε α) (M : Monitor S C R L Φ) (begin : J → Φ)
    (K : Type) [DecidableEq K] where
  op : C → Option (LockOp K)
  table : σ → FiniteMap K Nat
  held : Φ → Finset K
  exec : ∀ {s s' id env c r}, k.exec s id env c = some (s', r) →
    (op c).elim (table s' = table s) fun o ↦ o.apply (table s) id = some (table s')
  next : ∀ φ c r, held (M.next φ c r) = (op c).elim (held φ) fun o ↦ o.hold (held φ)
  starts : ∀ job, held (begin job) = ∅
  change : ∀ s a, table (k.change s a) = if k.ends a then ∅ else table s

namespace Locking

variable {k : Kit σ E J A S C R L ε α} {M : Monitor S C R L Φ} {begin : J → Φ}

/-- The table says which locks the tasks know they have. -/
def Owned (l : Locking k M begin K) (w : Pool σ J S C R L ε α) : Prop :=
  ∀ key id, (l.table w.shared).lookup key = some id ↔
    ∃ φ, w.phase M begin id = some φ ∧ key ∈ l.held φ

/-- Two tasks that have the same lock are one. -/
theorem Owned.unique {l : Locking k M begin K} {w : Pool σ J S C R L ε α} (h : l.Owned w)
    {key : K} {i j : Nat} {φ ψ : Φ} (hi : w.phase M begin i = some φ) (hk : key ∈ l.held φ)
    (hj : w.phase M begin j = some ψ) (hk' : key ∈ l.held ψ) : i = j := by
  have hi' := (h key i).mpr ⟨φ, hi, hk⟩
  have hj' := (h key j).mpr ⟨ψ, hj, hk'⟩
  exact Option.some.inj (hi'.symm.trans hj')

/-- A free lock is one no task has. -/
theorem Owned.free {l : Locking k M begin K} {w : Pool σ J S C R L ε α} (h : l.Owned w)
    {key : K} (hf : (l.table w.shared).lookup key = none) {i : Nat} {φ : Φ}
    (hi : w.phase M begin i = some φ) : key ∉ l.held φ := by
  intro hk
  cases hf.symm.trans ((h key i).mpr ⟨φ, hi, hk⟩)

/-- Every move keeps the table and the tasks in step. -/
theorem Owned.step {l : Locking k M begin K} {w w' : Pool σ J S C R L ε α}
    {m : Pool.Move E J A ε} (h : l.Owned w) (ht : Pool.Transition k M begin w m w') :
    l.Owned w' := by
  cases ht with
  | idle => exact h
  | @spawned id job new =>
    intro key i
    rw [h key i, Pool.phase, Pool.phase, lookup_insert_ite]
    split
    · next hi =>
      subst hi
      rw [new]
      constructor
      · rintro ⟨φ, hφ, -⟩
        cases hφ
      · rintro ⟨φ, hφ, hk⟩
        cases hφ
        have hk : key ∈ l.held (begin job) := hk
        rw [l.starts] at hk
        exact absurd hk (Finset.notMem_empty key)
    · exact Iff.rfl
  | @called id env job t t' c r shared here inOrder performed trace result =>
    intro key i
    have hexec := l.exec performed
    have hheld : ∀ key, (l.table w.shared).lookup key = some id ↔
        key ∈ l.held (M.phase (begin job) t.trace) := by
      intro key
      rw [h key id, Pool.phase, here]
      simp
    have hnext := l.next (M.phase (begin job) t.trace) c r
    have hphase : M.phase (begin job) t'.trace = M.next (M.phase (begin job) t.trace) c r := by
      rw [trace]
      rfl
    rw [Pool.phase, lookup_insert_ite]
    cases hop : l.op c with
    | none =>
      rw [hop, Option.elim_none] at hexec hnext
      rw [hexec]
      split
      · next hi =>
        subst hi
        rw [hheld key]
        simp only [Option.map_some, Option.some.injEq, exists_eq_left', hphase, hnext]
      · exact h key i
    | some o =>
      rw [hop, Option.elim_some] at hexec hnext
      rw [LockOp.lookup_apply hexec hheld key i]
      split
      · simp only [Option.map_some, Option.some.injEq, exists_eq_left', hphase, hnext]
      · exact h key i
  | @moved id d job t t' here trace stays leaves =>
    intro key i
    rw [h key i, Pool.phase, Pool.phase, lookup_insert_ite]
    split
    · next hi =>
      subst hi
      rw [here, Option.map_some, Option.map_some, trace]
    · exact Iff.rfl
  | changed a =>
    intro key i
    rw [l.change, Pool.phase]
    cases he : k.ends a
    · exact h key i
    · simp

end Locking
end Xxgate.Base

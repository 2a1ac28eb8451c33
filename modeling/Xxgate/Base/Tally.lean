import Xxgate.Base.FiniteMap

/-!
# Counters kept beside the records they count

A program that keeps a counter for each resource next to the records occupying it
maintains a tally. `Tally` says the counters are exact, and one law for each update says
how a counter has to move with the records for the tally to survive.
-/

namespace Xxgate.Base

open FiniteMap

universe u v w x

variable {K : Type u} {V : Type v} {ι : Type w} {α : Type x}
variable [DecidableEq K]

/-- The counters `m`, read through `size`, count the records `r` by `key`. -/
structure Tally (m : FiniteMap K V) (size : V → Nat) (key : α → K) (r : FiniteMap ι α) :
    Prop where
  count : ∀ k, (m.lookup k).elim 0 size = r.values.countP (key · = k)
  total : (m.values.map size).sum = r.values.length

namespace Tally

variable {m : FiniteMap K V} {size : V → Nat} {key : α → K} {r : FiniteMap ι α}

/-- Empty counters tally no records. -/
theorem empty : Tally (∅ : FiniteMap K V) size key (∅ : FiniteMap ι α) :=
  ⟨fun _ ↦ rfl, rfl⟩

section

variable [DecidableEq ι]

/-- A counter stepped up with one fresh record keeps the tally. -/
theorem insert_fresh (h : Tally m size key r) {i : ι} {a : α} {v : V}
    (hi : r.lookup i = none) (hv : size v = (m.lookup (key a)).elim 0 size + 1) :
    Tally (m.insert (key a) v) size key (r.insert i a) := by
  constructor
  · intro k
    rw [lookup_insert_ite, values_insert, values_erase_of_absent r hi, List.countP_cons]
    by_cases hk : k = key a
    · subst hk
      simp [hv, h.count]
    · simp [hk, h.count, Ne.symm hk]
  · have hs := sum_insert m size (key a) v
    have ht := h.total
    rw [values_insert r, values_erase_of_absent r hi, List.length_cons]
    omega

/-- The counter of a present record is positive. -/
theorem pos (h : Tally m size key r) {i : ι} {a : α} (hi : r.lookup i = some a) :
    0 < (m.lookup (key a)).elim 0 size := by
  rw [h.count]
  have hm : a ∈ r.values := (mem_values r a).mpr ⟨i, hi⟩
  exact List.countP_pos_iff.mpr ⟨a, hm, by simp⟩

/-- A counter stepped down with the removal of one record keeps the tally. -/
theorem erase (h : Tally m size key r) {i : ι} {a : α} {v : V}
    (hi : r.lookup i = some a) (hv : size v + 1 = (m.lookup (key a)).elim 0 size) :
    Tally (m.insert (key a) v) size key (r.erase i) := by
  have hp := values_perm_erase r hi
  constructor
  · intro k
    have hc := h.count k
    rw [hp.countP_eq, List.countP_cons] at hc
    rw [lookup_insert_ite]
    by_cases hk : k = key a
    · subst hk
      simp only [decide_true, if_true] at hc
      rw [if_pos rfl, Option.elim_some]
      omega
    · simp only [Ne.symm hk, decide_false, Bool.false_eq_true, if_false] at hc
      rw [if_neg hk, hc, Nat.add_zero]
  · have hs := sum_insert m size (key a) v
    have ht := h.total
    rw [hp.length_eq, List.length_cons] at ht
    omega

/-- Replacing a record by one of the same resource keeps the tally. -/
theorem update (h : Tally m size key r) {i : ι} {a b : α}
    (hi : r.lookup i = some a) (hk : key b = key a) :
    Tally m size key (r.insert i b) := by
  have hp := values_perm_erase r hi
  constructor
  · intro k
    rw [h.count, hp.countP_eq, values_insert, List.countP_cons, List.countP_cons, hk]
  · rw [h.total, hp.length_eq, values_insert, List.length_cons, List.length_cons]

end

end Tally
end Xxgate.Base

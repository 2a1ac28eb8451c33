import Mathlib.Algebra.BigOperators.Group.List.Basic
import Mathlib.Algebra.Group.WithOne.Defs

/-!
# Nullable columns

The aggregate `sum` of SQL passes over null and is null when nothing else is there, so it is
addition with null as a zero that was added to the numbers.
-/

namespace Xxgate.Base.Nullable

universe u v

variable {α : Type u} {ι : Type v}

/-- A nullable value as a summand. -/
def summand (x : Option α) : WithZero α := x

/-- `sum` over a nullable column. -/
def sum [AddCommSemigroup α] (column : List (Option α)) : Option α :=
  (column.map summand).sum

/-- `sum` is null when every value is, and adds up the others else. -/
theorem sum_eq [AddCommMonoid α] (column : List (Option α)) :
    sum column = if column.all Option.isNone then none else some (column.map (·.getD 0)).sum := by
  induction column with
  | nil => rfl
  | cons x xs ih =>
    have hcons : sum (x :: xs) = Option.merge (· + ·) x (sum xs) := rfl
    rw [hcons, ih, List.all_cons, List.map_cons, List.sum_cons]
    cases x with
    | none =>
      rw [Option.isNone_none, Bool.true_and, Option.getD_none, zero_add, Option.merge_none_left]
    | some x =>
      rw [Option.isNone_some, Bool.false_and, if_neg Bool.false_ne_true, Option.getD_some]
      split
      · next hall =>
        have hzero : (xs.map (·.getD 0)).sum = 0 := by
          refine List.sum_eq_zero fun y hy ↦ ?_
          obtain ⟨z, hz, rfl⟩ := List.mem_map.mp hy
          rw [Option.isNone_iff_eq_none.mp (List.all_eq_true.mp hall z hz), Option.getD_none]
        rw [hzero, add_zero, Option.merge_none_right]
      · rfl

/-- `COALESCE(sum(…), 0)` reads null as zero. -/
theorem getD_sum [AddCommMonoid α] (column : List (Option α)) :
    (sum column).getD 0 = (column.map (·.getD 0)).sum := by
  rw [sum_eq]
  split
  · next hall =>
    refine (List.sum_eq_zero fun y hy ↦ ?_).symm
    obtain ⟨z, hz, rfl⟩ := List.mem_map.mp hy
    rw [Option.isNone_iff_eq_none.mp (List.all_eq_true.mp hall z hz), Option.getD_none]
  · rfl

end Xxgate.Base.Nullable

import Mathlib.Data.List.Basic

/-!
# Rotations

A rotation is a list of those whose turn comes, the next one first. Who had a turn goes to
the end, who has nothing to do leaves, and who comes back enters at the end, so that one who
stands behind another stays there until the other had a turn or left.
-/

namespace Xxgate.Base.Rotation

universe u

variable {α : Type u} {order : List α} {x y z : α}

/-- `x` stands behind `y`, as far as both are in the rotation. -/
def Behind (order : List α) (x y : α) : Prop :=
  y ∈ order → x ∈ order → [y, x].Sublist order

/-- Who is out of the rotation stands behind everyone. -/
theorem behind_of_notMem (h : x ∉ order) : Behind order x y := fun _ hx ↦ absurd hx h

/-- The turn of the one in front comes first. -/
theorem Behind.exists_before (h : Behind order x y) (hn : order.Nodup) (hy : y ∈ order) {i : Nat}
    (hi : order[i]? = some x) : ∃ j < i, order[j]? = some y := by
  have hs : ([y] ++ [x]).Sublist order := h hy (List.mem_of_getElem? hi)
  obtain ⟨l, r, rfl, hl, hr⟩ := List.append_sublist_iff.mp hs
  obtain ⟨j, hj, hy⟩ := List.mem_iff_getElem.mp (List.singleton_sublist.mp hl)
  have hli : l.length ≤ i := by
    by_contra hlt
    rw [List.getElem?_append_left (Nat.lt_of_not_le hlt)] at hi
    exact (List.nodup_append.mp hn).2.2 x (List.mem_of_getElem? hi) x
      (List.singleton_sublist.mp hr) rfl
  refine ⟨j, Nat.lt_of_lt_of_le hj hli, ?_⟩
  rw [List.getElem?_append_left hj, List.getElem?_eq_getElem hj, hy]

/-- Who enters stands behind everyone who was there. -/
theorem Behind.enter (h : Behind order x y) (hy : y ∈ order) (z : α) :
    Behind (order ++ [z]) x y := by
  intro _ hx
  rcases List.mem_append.mp hx with hx | hx
  · exact (h hy hx).trans (List.sublist_append_left _ _)
  · rw [List.mem_singleton.mp hx]
    exact (List.singleton_sublist.mpr hy).append (List.Sublist.refl [z])

variable [DecidableEq α]

/-- Others that leave change nothing between two. -/
theorem Behind.leave (h : Behind order x y) : Behind (order.filter (· ≠ z)) x y := by
  intro hy hx
  simp only [List.mem_filter, decide_eq_true_eq] at hy hx
  have hpair : [y, x].filter (· ≠ z) = [y, x] := by simp [hy.2, hx.2]
  rw [← hpair]
  exact (h hy.1 hx.1).filter _

/-- Who had a turn stands behind everyone else. -/
theorem behind_turn (hy : y ∈ order) (hxy : y ≠ x) : Behind (order.filter (· ≠ x) ++ [x]) x y := by
  intro _ _
  have hf : y ∈ order.filter (· ≠ x) := List.mem_filter.mpr ⟨hy, decide_eq_true hxy⟩
  exact (List.singleton_sublist.mpr hf).append (List.Sublist.refl [x])

/-- The turn of a third one changes nothing between two. -/
theorem Behind.turn (h : Behind order x y) (hy : y ∈ order) (hyz : y ≠ z) :
    Behind (order.filter (· ≠ z) ++ [z]) x y := by
  have hf : y ∈ order.filter (· ≠ z) := List.mem_filter.mpr ⟨hy, decide_eq_true hyz⟩
  exact h.leave.enter hf z

end Xxgate.Base.Rotation

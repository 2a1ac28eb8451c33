import Mathlib.Data.List.Sort

/-!
# Stable sorting

Sorting by a key that keeps the order of what has the same key: what it leaves, and that nothing
else decides it.
-/

namespace Xxgate.Base

section

variable {α κ : Type*} [LinearOrder κ] (key : α → κ)

/-- Sort by a key. -/
def sortByKey (l : List α) : List α := l.mergeSort fun a b ↦ decide (key a ≤ key b)

/-- Sorting only permutes. -/
theorem sortByKey_perm (l : List α) : (sortByKey key l).Perm l := List.mergeSort_perm l _

/-- A sorted list is in the order of its keys. -/
theorem sortByKey_pairwise (l : List α) :
    (sortByKey key l).Pairwise fun a b ↦ key a ≤ key b := by
  have h := @List.pairwise_mergeSort _ (fun a b ↦ decide (key a ≤ key b))
    (fun a b c hab hbc ↦ by
      rw [decide_eq_true_eq] at *
      exact hab.trans hbc)
    (fun a b ↦ by simpa using le_total (key a) (key b)) l
  exact h.imp fun hab ↦ by rwa [decide_eq_true_eq] at hab

/-- What has one key keeps its order. -/
theorem filter_sortByKey (l : List α) (k : κ) :
    (sortByKey key l).filter (fun a ↦ decide (key a = k)) =
      l.filter fun a ↦ decide (key a = k) := by
  have hsub : (l.filter fun a ↦ decide (key a = k)).Sublist (sortByKey key l) := by
    refine List.sublist_mergeSort ?_ ?_ ?_ List.filter_sublist
    · intro a b c hab hbc
      rw [decide_eq_true_eq] at *
      exact hab.trans hbc
    · intro a b
      simpa using le_total (key a) (key b)
    · refine List.pairwise_of_forall_mem_list fun a ha b hb ↦ ?_
      have hka := of_decide_eq_true (List.mem_filter.mp ha).2
      have hkb := of_decide_eq_true (List.mem_filter.mp hb).2
      exact decide_eq_true (le_of_eq (hka.trans hkb.symm))
  have hfilter := hsub.filter fun a ↦ decide (key a = k)
  rw [List.filter_filter] at hfilter
  simp only [Bool.and_self] at hfilter
  have hlength := ((sortByKey_perm key l).filter fun a ↦ decide (key a = k)).length_eq
  exact (hfilter.eq_of_length hlength.symm).symm

variable {key}

/-- Sorted lists with the same elements of each key, in the same order, are one list. -/
theorem eq_of_filter_key {l m : List α} (hl : l.Pairwise fun a b ↦ key a ≤ key b)
    (hm : m.Pairwise fun a b ↦ key a ≤ key b)
    (h : ∀ k, l.filter (fun a ↦ decide (key a = k)) = m.filter fun a ↦ decide (key a = k)) :
    l = m := by
  -- A key below the head of a sorted list occurs nowhere in it.
  have hbelow : ∀ {k : κ} {a : α} {n : List α}, k < key a →
      (a :: n).Pairwise (fun a b ↦ key a ≤ key b) →
      (a :: n).filter (fun b ↦ decide (key b = k)) = [] := by
    intro k a n hk hn
    refine List.filter_eq_nil_iff.mpr fun b hb ↦ ?_
    rw [decide_eq_true_eq]
    rcases List.mem_cons.mp hb with rfl | hb
    · exact hk.ne'
    · exact (hk.trans_le (List.rel_of_pairwise_cons hn hb)).ne'
  have hhead : ∀ (a : α) (n : List α), (a :: n).filter (fun b ↦ decide (key b = key a)) =
      a :: n.filter fun b ↦ decide (key b = key a) := by
    intro a n
    exact List.filter_cons_of_pos (decide_eq_true rfl)
  induction l generalizing m with
  | nil =>
    cases m with
    | nil => rfl
    | cons b m =>
      have hb := h (key b)
      rw [hhead] at hb
      cases hb
  | cons a l ih =>
    cases m with
    | nil =>
      have ha := h (key a)
      rw [hhead] at ha
      cases ha
    | cons b m =>
      rcases lt_trichotomy (key a) (key b) with hlt | heq | hlt
      · have ha := h (key a)
        rw [hhead, hbelow hlt hm] at ha
        cases ha
      · have ha := h (key a)
        rw [hhead, heq, hhead] at ha
        injection ha with hab _
        subst hab
        refine congrArg _ (ih hl.of_cons hm.of_cons fun k ↦ ?_)
        have hk := h k
        rw [List.filter_cons, List.filter_cons] at hk
        by_cases hak : key a = k
        · rw [if_pos (decide_eq_true hak), if_pos (decide_eq_true hak)] at hk
          exact (List.cons.inj hk).2
        · rwa [if_neg (by rwa [decide_eq_true_eq]), if_neg (by rwa [decide_eq_true_eq])] at hk
      · have hb := h (key b)
        rw [hhead, hbelow hlt hl] at hb
        cases hb

/-- Nothing decides a stable sort but the order within each key. -/
theorem sortByKey_congr {l m : List α}
    (h : ∀ k, l.filter (fun a ↦ decide (key a = k)) = m.filter fun a ↦ decide (key a = k)) :
    sortByKey key l = sortByKey key m :=
  eq_of_filter_key (sortByKey_pairwise key l) (sortByKey_pairwise key m) fun k ↦ by
    rw [filter_sortByKey, filter_sortByKey, h k]

/-- Where no two elements have one key, the order of the list decides nothing. -/
theorem sortByKey_eq_of_perm {l m : List α} (h : l.Perm m) (hkeys : (l.map key).Nodup) :
    sortByKey key l = sortByKey key m := by
  have hperm := ((sortByKey_perm key l).trans h).trans (sortByKey_perm key m).symm
  refine hperm.eq_of_pairwise (fun a b ha hb hab hba ↦ ?_) (sortByKey_pairwise key l)
    (sortByKey_pairwise key m)
  have ha := (sortByKey_perm key l).mem_iff.mp ha
  have hb := h.mem_iff.mpr ((sortByKey_perm key m).mem_iff.mp hb)
  exact List.inj_on_of_nodup_map hkeys ha hb (le_antisymm hab hba)

/-- The first answer in a sorted list is that of an element with the least key that has one. -/
theorem findSome?_of_pairwise {β : Type*} {l : List α} (hl : l.Pairwise fun a b ↦ key a ≤ key b)
    {f : α → Option β} {b : β} (h : l.findSome? f = some b) :
    ∃ a ∈ l, f a = some b ∧ ∀ a' ∈ l, (f a').isSome = true → key a ≤ key a' := by
  obtain ⟨l₁, a, l₂, rfl, hf, hbefore⟩ := List.findSome?_eq_some_iff.mp h
  refine ⟨a, List.mem_append_right _ List.mem_cons_self, hf, fun a' ha' hsome ↦ ?_⟩
  rcases List.mem_append.mp ha' with ha' | ha'
  · rw [hbefore a' ha'] at hsome
    cases hsome
  · rcases List.mem_cons.mp ha' with rfl | ha'
    · exact le_rfl
    · exact List.rel_of_pairwise_cons (List.pairwise_append.mp hl).2.1 ha'

end
end Xxgate.Base

import Mathlib.Data.List.AList
import Mathlib.Data.List.Perm.Basic
import Mathlib.Algebra.BigOperators.Group.List.Basic
import Mathlib.Algebra.GroupWithZero.Nat

/-!
# Finite maps

Association lists with distinct keys, read as the hash maps of a program: a lookup
law for every update, the list of stored values, and sums over it. Iteration order is
the order of the entries and carries no meaning of its own.
-/

namespace Xxgate.Base

universe u v

/-- A finite map from `K` to `V`; each key occurs once. -/
abbrev FiniteMap (K : Type u) (V : Type v) := AList fun _ : K ↦ V

namespace FiniteMap

variable {K : Type u} {V : Type v}

/-- The stored values, one for each key. -/
def values (m : FiniteMap K V) : List V := m.entries.map Sigma.snd

variable [DecidableEq K]

/-- Change the value at `k` when there is one, as `get_mut` does. -/
def modify (m : FiniteMap K V) (k : K) (f : V → V) : FiniteMap K V :=
  match m.lookup k with
  | none => m
  | some v => m.insert k (f v)

/-- Lookup after an insertion, for either answer to the key comparison. -/
theorem lookup_insert_ite (m : FiniteMap K V) (k k' : K) (v : V) :
    (m.insert k v).lookup k' = if k' = k then some v else m.lookup k' := by
  split
  · next h => rw [h, AList.lookup_insert]
  · next h => exact AList.lookup_insert_ne h

/-- Lookup after an erasure, for either answer to the key comparison. -/
theorem lookup_erase_ite (m : FiniteMap K V) (k k' : K) :
    (m.erase k).lookup k' = if k' = k then none else m.lookup k' := by
  split
  · next h => rw [h, AList.lookup_erase]
  · next h => exact AList.lookup_erase_ne h

/-- Overwriting a present key leaves absent keys absent. -/
theorem lookup_insert_absent {m : FiniteMap K V} {k k' : K} {v v' : V}
    (h : m.lookup k = some v) (h' : m.lookup k' = none) : (m.insert k v').lookup k' = none := by
  rw [lookup_insert_ite, if_neg, h']
  rintro rfl
  cases h.symm.trans h'

/-- Modification acts on the value at its own key and nowhere else. -/
theorem lookup_modify (m : FiniteMap K V) (k k' : K) (f : V → V) :
    (m.modify k f).lookup k' = if k' = k then (m.lookup k).map f else m.lookup k' := by
  unfold modify
  split
  · next hk =>
    rw [hk, Option.map_none]
    split
    · next h => rw [h, hk]
    · rfl
  · next v hk => rw [lookup_insert_ite, hk, Option.map_some]

/-- A value is stored exactly when some key leads to it. -/
theorem mem_values (m : FiniteMap K V) (v : V) :
    v ∈ m.values ↔ ∃ k, m.lookup k = some v := by
  simp only [values, List.mem_map, Sigma.exists]
  constructor
  · rintro ⟨k, w, hm, rfl⟩
    exact ⟨k, AList.mem_lookup_iff.mpr hm⟩
  · rintro ⟨k, hk⟩
    exact ⟨k, v, AList.mem_lookup_iff.mp hk, rfl⟩

/-- A key is present exactly when its lookup answers. -/
theorem mem_iff_lookup (m : FiniteMap K V) (k : K) : k ∈ m ↔ ∃ v, m.lookup k = some v := by
  rw [← AList.lookup_isSome, Option.isSome_iff_exists]

/-- A map without an answer at any key is empty. -/
theorem eq_empty_of_lookup (m : FiniteMap K V) (h : ∀ k, m.lookup k = none) : m = ∅ := by
  apply AList.ext
  rw [AList.empty_entries, List.eq_nil_iff_forall_not_mem]
  rintro ⟨k, v⟩ hm
  have hk : m.lookup k = some v := AList.mem_lookup_iff.mpr hm
  rw [h k] at hk
  cases hk

/-- A present key's value heads the values, up to order, of the map without the key. -/
theorem values_perm_erase (m : FiniteMap K V) {k : K} {v : V} (h : m.lookup k = some v) :
    m.values.Perm (v :: values (m.erase k)) := by
  have hm : ⟨k, v⟩ ∈ m.entries := AList.mem_lookup_iff.mp h
  obtain ⟨w, l₁, l₂, -, hs, he⟩ := List.exists_of_kerase (List.mem_keys_of_mem hm)
  have hw : m.lookup k = some w := AList.mem_lookup_iff.mpr (by simp [hs])
  have hv : w = v := Option.some.inj (hw.symm.trans h)
  change (m.entries.map Sigma.snd).Perm (v :: (m.entries.kerase k).map Sigma.snd)
  rw [he, hs, hv, List.map_append, List.map_cons, List.map_append]
  exact List.perm_middle

/-- An inserted value heads the values, up to order, of the map without its key. -/
theorem values_insert (m : FiniteMap K V) (k : K) (v : V) :
    values (m.insert k v) = v :: values (m.erase k) :=
  rfl

/-- Erasing an absent key keeps the values. -/
theorem values_erase_of_absent (m : FiniteMap K V) {k : K} (h : m.lookup k = none) :
    values (m.erase k) = m.values := by
  have hk : k ∉ m.entries.keys := AList.lookup_eq_none.mp h
  change (m.entries.kerase k).map Sigma.snd = m.values
  rw [List.kerase_of_notMem_keys hk]
  rfl

/-- Values inserted one after another, each key for one of them, answer under their keys and
cover what was there before. -/
theorem lookup_foldl_insert_iff {key : V → K} {vs : List V}
    (hu : ∀ x ∈ vs, ∀ y ∈ vs, key x = key y → x = y) (m : FiniteMap K V) (k : K) (v : V) :
    (vs.foldl (fun m v ↦ m.insert (key v) v) m).lookup k = some v ↔
      (v ∈ vs ∧ key v = k) ∨ ((∀ x ∈ vs, key x ≠ k) ∧ m.lookup k = some v) := by
  induction vs generalizing m with
  | nil => simp
  | cons x xs ih =>
    have hxs : ∀ y ∈ xs, ∀ z ∈ xs, key y = key z → y = z := fun y hy z hz ↦
      hu y (List.mem_cons_of_mem _ hy) z (List.mem_cons_of_mem _ hz)
    rw [List.foldl_cons, ih hxs, lookup_insert_ite, List.forall_mem_cons, List.mem_cons]
    by_cases hk : k = key x
    · subst hk
      rw [if_pos rfl]
      constructor
      · rintro (⟨hm, he⟩ | ⟨-, he⟩)
        · exact .inl ⟨.inr hm, he⟩
        · cases he
          exact .inl ⟨.inl rfl, rfl⟩
      · rintro (⟨rfl | hm, he⟩ | ⟨⟨hn, -⟩, -⟩)
        · by_cases hin : ∃ y ∈ xs, key y = key v
          · obtain ⟨y, hy, he'⟩ := hin
            have hyv : y = v := hu y (List.mem_cons_of_mem _ hy) v List.mem_cons_self he'
            exact .inl ⟨hyv ▸ hy, rfl⟩
          · exact .inr ⟨fun y hy he' ↦ hin ⟨y, hy, he'⟩, rfl⟩
        · exact .inl ⟨hm, he⟩
        · exact absurd rfl hn
    · rw [if_neg hk]
      constructor
      · rintro (⟨hm, he⟩ | ⟨hn, he⟩)
        · exact .inl ⟨.inr hm, he⟩
        · exact .inr ⟨⟨fun h ↦ hk h.symm, hn⟩, he⟩
      · rintro (⟨rfl | hm, he⟩ | ⟨⟨-, hn⟩, he⟩)
        · exact absurd he.symm hk
        · exact .inl ⟨hm, he⟩
        · exact .inr ⟨hn, he⟩

/-! ### Filtering -/

/-- Keep the entries that pass a test. -/
def filter (m : FiniteMap K V) (p : K → V → Bool) : FiniteMap K V :=
  ⟨m.entries.filter fun e ↦ p e.1 e.2, m.nodupKeys.sublist List.filter_sublist⟩

/-- A filtered map answers what passes the test. -/
theorem lookup_filter (m : FiniteMap K V) (p : K → V → Bool) (k : K) :
    (m.filter p).lookup k = (m.lookup k).filter (p k) := by
  ext v
  rw [← Option.mem_def, AList.mem_lookup_iff, Option.filter_eq_some_iff, ← Option.mem_def,
    AList.mem_lookup_iff]
  exact List.mem_filter

omit [DecidableEq K] in
/-- The values of a map filtered by its values. -/
theorem values_filter (m : FiniteMap K V) (q : V → Bool) :
    (m.filter fun _ v ↦ q v).values = m.values.filter q :=
  List.filter_map.symm

/-! ### Sums over the values -/

/-- Erasing a key takes its own contribution out of a sum over the values. -/
theorem sum_erase (m : FiniteMap K V) (f : V → Nat) (k : K) :
    ((values (m.erase k)).map f).sum + (m.lookup k).elim 0 f = (m.values.map f).sum := by
  cases h : m.lookup k with
  | none => rw [values_erase_of_absent m h, Option.elim_none, Nat.add_zero]
  | some v =>
    rw [((values_perm_erase m h).map f).sum_eq, Option.elim_some, List.map_cons,
      List.sum_cons, Nat.add_comm]

/-- Insertion replaces the contribution of its key in a sum over the values. -/
theorem sum_insert (m : FiniteMap K V) (f : V → Nat) (k : K) (v : V) :
    ((values (m.insert k v)).map f).sum + (m.lookup k).elim 0 f =
      f v + (m.values.map f).sum := by
  rw [values_insert, List.map_cons, List.sum_cons, Nat.add_assoc, sum_erase]

/-- Maps with the same answers have the same sums over their values. -/
theorem sum_congr {m m' : FiniteMap K V} (h : ∀ k, m.lookup k = m'.lookup k) (f : V → Nat) :
    (m.values.map f).sum = (m'.values.map f).sum := by
  have hperm : m.entries.Perm m'.entries :=
    List.lookup_ext m.nodupKeys m'.nodupKeys fun k v ↦ by
      change v ∈ m.lookup k ↔ v ∈ m'.lookup k
      rw [h]
  exact ((hperm.map Sigma.snd).map f).sum_eq

end FiniteMap
end Xxgate.Base

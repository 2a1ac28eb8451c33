import Xxgate.Base.FiniteMap

/-!
# Totals kept by key

A program that keeps a running total for each key next to a history it does not keep
maintains a rollup. `Rolled` says that the totals at some keys are those of the history, and
one law for each update says what the update does to that.
-/

namespace Xxgate.Base

open FiniteMap

universe u v w x

variable {K : Type u} {V : Type v} {α : Type w} [DecidableEq K]

/-- Add a value to the total of its key, as an upsert does. -/
def accumulate (merge : V → V → V) (m : FiniteMap K V) (k : K) (v : V) : FiniteMap K V :=
  m.insert k ((m.lookup k).elim v (merge · v))

/-- The values merged from left to right, or none when there are none. -/
def total (merge : V → V → V) : List V → Option V
  | [] => none
  | v :: vs => some (vs.foldl merge v)

/-- One more value joins the total. -/
theorem total_append (merge : V → V → V) (vs : List V) (v : V) :
    total merge (vs ++ [v]) = some ((total merge vs).elim v (merge · v)) := by
  cases vs with
  | nil => rfl
  | cons w ws => exact congrArg some List.foldl_append

/-- When the order of merging does not matter, neither does that of the values. -/
theorem total_perm {merge : V → V → V} [Std.Commutative merge] [Std.Associative merge]
    {vs ws : List V} (h : vs.Perm ws) : total merge vs = total merge ws := by
  have hassoc : ∀ a b c, merge (merge a b) c = merge a (merge b c) := Std.Associative.assoc
  have hcomm : ∀ a b, merge a b = merge b a := Std.Commutative.comm
  induction h with
  | nil => rfl
  | cons x h =>
    have hright : RightCommutative merge := ⟨fun a b c ↦ by rw [hassoc, hcomm b c, ← hassoc]⟩
    exact congrArg some (h.foldl_eq x)
  | swap x y l => rw [total, total, List.foldl_cons, List.foldl_cons, hcomm]
  | trans _ _ ih ih' => exact ih.trans ih'

/-- A measure that adds up over merging adds up over the total. -/
theorem measure_total {M : Type x} [AddCommMonoid M] {merge : V → V → V} {f : V → M}
    (hf : ∀ a b, f (merge a b) = f a + f b) (vs : List V) :
    (total merge vs).elim 0 f = (vs.map f).sum := by
  cases vs with
  | nil => rfl
  | cons v vs =>
    rw [total, Option.elim_some, List.map_cons, List.sum_cons]
    induction vs generalizing v with
    | nil => rw [List.foldl_nil, List.map_nil, List.sum_nil, add_zero]
    | cons w ws ih => rw [List.foldl_cons, ih, hf, List.map_cons, List.sum_cons, add_assoc]

/-- The values a history has for a key. -/
def contributions (key : α → K) (value : α → V) (history : List α) (k : K) : List V :=
  (history.filter (key · = k)).map value

/-- The totals in `m` at the keys in `kept` are those of the history. -/
def Rolled (merge : V → V → V) (key : α → K) (value : α → V) (kept : K → Prop)
    (m : FiniteMap K V) (history : List α) : Prop :=
  ∀ k, kept k → m.lookup k = total merge (contributions key value history k)

namespace Rolled

variable {merge : V → V → V} {key : α → K} {value : α → V} {kept : K → Prop}
  {m : FiniteMap K V} {history : List α}

/-- No totals roll up no history. -/
theorem empty : Rolled merge key value kept (∅ : FiniteMap K V) [] := fun _ _ ↦ rfl

/-- Accumulating a record's value at its key extends the history by it. -/
theorem accumulate (h : Rolled merge key value kept m history) (a : α) :
    Rolled merge key value kept (Base.accumulate merge m (key a) (value a))
      (history ++ [a]) := by
  intro k hk
  unfold Base.accumulate contributions
  rw [lookup_insert_ite, List.filter_append, List.map_append]
  by_cases he : k = key a
  · subst he
    rw [if_pos rfl, List.filter_singleton, decide_eq_true rfl, h _ hk, cond_true,
      List.map_singleton, total_append]
    rfl
  · rw [if_neg he, h k hk, List.filter_singleton, decide_eq_false (Ne.symm he), cond_false,
      List.map_nil, List.append_nil]
    rfl

/-- Dropping the totals of keys that need not be kept leaves the others. -/
theorem filter (h : Rolled merge key value kept m history) {kept' : K → Prop} {p : K → Bool}
    (hk : ∀ k, kept' k → kept k ∧ p k = true) :
    Rolled merge key value kept' (m.filter fun k _ ↦ p k) history := by
  intro k hk'
  obtain ⟨hkept, hp⟩ := hk k hk'
  rw [lookup_filter, h k hkept, hp]
  cases total merge (contributions key value history k) with
  | none => rfl
  | some v => rfl

/-- The order of the history does not matter when that of merging does not. -/
theorem perm [Std.Commutative merge] [Std.Associative merge] {history' : List α}
    (h : Rolled merge key value kept m history) (hp : history.Perm history') :
    Rolled merge key value kept m history' := fun k hk ↦
  (h k hk).trans (total_perm ((hp.filter _).map _))

/-- Dropping keys from the totals and from the history keeps the others. -/
theorem drop (h : Rolled merge key value (fun _ ↦ True) m history) (p : K → Bool) :
    Rolled merge key value (fun _ ↦ True) (m.filter fun k _ ↦ p k)
      (history.filter fun a ↦ p (key a)) := by
  intro k _
  rw [lookup_filter, h k trivial]
  unfold contributions
  rw [List.filter_filter]
  cases hp : p k with
  | true =>
    have hsame : history.filter (fun a ↦ decide (key a = k) && p (key a)) =
        history.filter (key · = k) := by
      refine List.filter_congr fun a _ ↦ ?_
      by_cases he : key a = k
      · rw [he, hp, Bool.and_true]
      · rw [decide_eq_false he, Bool.false_and]
    rw [hsame]
    cases total merge ((history.filter (key · = k)).map value) with
    | none => rfl
    | some v => rfl
  | false =>
    have hnone : history.filter (fun a ↦ decide (key a = k) && p (key a)) = [] := by
      refine List.filter_eq_nil_iff.mpr fun a _ ↦ ?_
      by_cases he : key a = k
      · rw [he, hp, Bool.and_false]
        exact Bool.false_ne_true
      · rw [decide_eq_false he, Bool.false_and]
        exact Bool.false_ne_true
    rw [hnone]
    cases total merge ((history.filter (key · = k)).map value) with
    | none => rfl
    | some v => rfl

/-- Adding up a measure over the entries of the totals adds it up over the history. -/
private theorem sum_entries {M : Type x} [AddCommMonoid M] {f : V → M}
    (hf : ∀ a b, f (merge a b) = f a + f b) (l : List (Sigma fun _ : K ↦ V))
    (history : List α) (hn : l.NodupKeys)
    (hl : ∀ k, l.dlookup k = total merge (contributions key value history k)) :
    ((l.map Sigma.snd).map f).sum = (history.map fun a ↦ f (value a)).sum := by
  induction l generalizing history with
  | nil =>
    cases history with
    | nil => rfl
    | cons a rest =>
      have hself : (a :: rest).filter (key · = key a) = a :: rest.filter (key · = key a) := by
        simp
      have hnone := hl (key a)
      rw [contributions, hself] at hnone
      cases hnone
  | cons e l ih =>
    obtain ⟨k, v⟩ := e
    obtain ⟨hk, hn⟩ := List.nodupKeys_cons.mp hn
    -- the history of `k` adds up to its total, and `l` rolls up the rest
    have hsplit := ((List.filter_append_perm (key · = k) history).map fun a ↦ f (value a)).sum_eq
    have hv : total merge (contributions key value history k) = some v := by
      rw [← hl k, List.dlookup_cons_eq]
    have hmeasure := measure_total hf (contributions key value history k)
    rw [hv, Option.elim_some, contributions, List.map_map] at hmeasure
    rw [List.map_append, List.sum_append] at hsplit
    rw [List.map_cons, List.map_cons, List.sum_cons, ← hsplit, hmeasure]
    refine congrArg₂ _ rfl (ih _ hn fun k' ↦ ?_)
    by_cases he : k' = k
    · have hempty : (history.filter fun a ↦ !decide (key a = k)).filter (key · = k') = [] := by
        simp [List.filter_filter, he]
      rw [contributions, hempty, he, List.dlookup_eq_none.mpr hk]
      rfl
    · have hsame : (history.filter fun a ↦ !decide (key a = k)).filter (key · = k') =
          history.filter (key · = k') := by
        rw [List.filter_filter]
        refine List.filter_congr fun a _ ↦ ?_
        by_cases ha : key a = k'
        · simp [ha, he]
        · simp [ha]
      have hk' := hl k'
      rw [List.dlookup_cons_ne _ _ he] at hk'
      rw [hk', contributions, contributions, hsame]

/-- A measure that adds up over merging adds up to the same over the totals and the history. -/
theorem sum_values {M : Type x} [AddCommMonoid M] {f : V → M}
    (hf : ∀ a b, f (merge a b) = f a + f b)
    (h : Rolled merge key value (fun _ ↦ True) m history) :
    (m.values.map f).sum = (history.map fun a ↦ f (value a)).sum :=
  sum_entries hf m.entries history m.nodupKeys fun k ↦ h k trivial

end Rolled
end Xxgate.Base

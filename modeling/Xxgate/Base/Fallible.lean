import Mathlib.Data.List.Forall2

/-!
# Computations that may fail

What a successful run of a computation in `Except` says of its parts: of a sequence, of a
loop that collects its results and of a loop that carries an accumulator.
-/

namespace Xxgate.Base.Fallible

universe u v

variable {ε : Type u} {α β : Type v}

/-- A sequence succeeds where both of its parts do. -/
theorem bind_ok {m : Except ε α} {f : α → Except ε β} {y : β} :
    m >>= f = .ok y ↔ ∃ x, m = .ok x ∧ f x = .ok y := by
  cases m with
  | error e =>
    constructor
    · intro h
      cases h
    · rintro ⟨x, hx, -⟩
      cases hx
  | ok x =>
    constructor
    · exact fun h ↦ ⟨x, rfl, h⟩
    · rintro ⟨x', hx, h⟩
      cases hx
      exact h

/-- A sequence succeeds exactly when its parts do. -/
theorem bind_isOk {m : Except ε α} {f : α → Except ε β} :
    (∃ y, m >>= f = .ok y) ↔ ∃ x, m = .ok x ∧ ∃ y, f x = .ok y := by
  constructor
  · rintro ⟨y, h⟩
    obtain ⟨x, hx, hy⟩ := bind_ok.mp h
    exact ⟨x, hx, y, hy⟩
  · rintro ⟨x, hx, y, hy⟩
    exact ⟨y, bind_ok.mpr ⟨x, hx, hy⟩⟩

/-- A loop over the items of a list gives a result for each. -/
theorem forall₂_of_mapM {f : α → Except ε β} {xs : List α} {ys : List β}
    (h : xs.mapM f = .ok ys) : List.Forall₂ (fun x y ↦ f x = .ok y) xs ys := by
  induction xs generalizing ys with
  | nil =>
    rw [List.mapM_nil] at h
    cases h
    exact .nil
  | cons x xs ih =>
    rw [List.mapM_cons] at h
    obtain ⟨y, hy, h⟩ := bind_ok.mp h
    obtain ⟨ys', hys, h⟩ := bind_ok.mp h
    cases h
    exact .cons hy (ih hys)

/-- What holds of an item just if it does of its result holds of all at once. -/
theorem forall_mem_iff_of_forall₂ {P : β → Prop} {Q : α → Prop} {xs : List α}
    {ys : List β} (h : List.Forall₂ (fun x y ↦ P y ↔ Q x) xs ys) :
    (∀ y ∈ ys, P y) ↔ ∀ x ∈ xs, Q x := by
  induction h with
  | nil => exact ⟨fun _ _ hx ↦ absurd hx List.not_mem_nil, fun _ _ hy ↦ absurd hy List.not_mem_nil⟩
  | cons hfirst _ ih => rw [List.forall_mem_cons, List.forall_mem_cons, hfirst, ih]

/-- What a loop gives is what it gave for an item. -/
theorem exists_of_mem_mapM {f : α → Option β} {xs : List α} {ys : List β}
    (h : xs.mapM f = some ys) {y : β} (hy : y ∈ ys) : ∃ x ∈ xs, f x = some y := by
  induction xs generalizing ys with
  | nil =>
    rw [List.mapM_nil] at h
    cases h
    cases hy
  | cons x xs ih =>
    rw [List.mapM_cons] at h
    obtain ⟨y', hx, h⟩ := Option.bind_eq_some_iff.mp h
    obtain ⟨ys', hxs, h⟩ := Option.bind_eq_some_iff.mp h
    cases h
    rcases List.mem_cons.mp hy with rfl | hy
    · exact ⟨x, List.mem_cons_self, hx⟩
    · obtain ⟨x', hx', hy⟩ := ih hxs hy
      exact ⟨x', List.mem_cons_of_mem _ hx', hy⟩

/-- Loops agree where their rounds do. -/
theorem mapM_map_eq {γ : Type v} {f : α → Option β} {f' : α → Option γ} {g : γ → β}
    {xs : List α} (h : ∀ x ∈ xs, f x = (f' x).map g) :
    xs.mapM f = (xs.mapM f').map (List.map g) := by
  induction xs with
  | nil =>
    rw [List.mapM_nil, List.mapM_nil]
    rfl
  | cons x xs ih =>
    rw [List.mapM_cons, List.mapM_cons, h x List.mem_cons_self,
      ih fun x' hx' ↦ h x' (List.mem_cons_of_mem _ hx')]
    cases f' x with
    | none => rfl
    | some y =>
      cases xs.mapM f' with
      | none => rfl
      | some ys => rfl

/-- What each round of a loop keeps, while the items it has passed grow by one, holds of its
result with all items passed. -/
theorem foldlM_ok {f : β → α → Except ε β} (P : List α → β → Prop) {xs : List α}
    (hstep : ∀ passed x b b', x ∈ xs → P passed b → f b x = .ok b' → P (passed ++ [x]) b')
    {b b' : β} (hb : P [] b) (h : xs.foldlM f b = .ok b') : P xs b' := by
  have hrun : ∀ (passed rest : List α) (b : β), passed ++ rest = xs → P passed b →
      rest.foldlM f b = .ok b' → P xs b' := by
    intro passed rest
    induction rest generalizing passed with
    | nil =>
      intro b hxs hb h
      cases h
      rw [← hxs, List.append_nil]
      exact hb
    | cons x rest ih =>
      intro b hxs hb h
      rw [List.foldlM_cons] at h
      obtain ⟨b₁, hx, h⟩ := bind_ok.mp h
      have hmem : x ∈ xs := hxs ▸ List.mem_append_right _ List.mem_cons_self
      refine ih (passed ++ [x]) b₁ ?_ (hstep passed x b b₁ hmem hb hx) h
      rw [List.append_assoc, List.singleton_append, hxs]
  exact hrun [] xs b (List.nil_append xs) hb h

/-- Each item has its result, and each result its item. -/
theorem mem_of_mapM {f : α → Except ε β} {xs : List α} {ys : List β} (h : xs.mapM f = .ok ys) :
    (∀ x ∈ xs, ∃ y ∈ ys, f x = .ok y) ∧ ∀ y ∈ ys, ∃ x ∈ xs, f x = .ok y := by
  have hall := forall₂_of_mapM h
  clear h
  induction hall with
  | nil => exact ⟨fun _ hx ↦ absurd hx List.not_mem_nil, fun _ hy ↦ absurd hy List.not_mem_nil⟩
  | @cons x y xs ys hxy _ ih =>
    constructor
    · refine List.forall_mem_cons.mpr ⟨⟨y, List.mem_cons_self, hxy⟩, fun x' hx' ↦ ?_⟩
      obtain ⟨y', hy', hok⟩ := ih.1 x' hx'
      exact ⟨y', List.mem_cons_of_mem _ hy', hok⟩
    · refine List.forall_mem_cons.mpr ⟨⟨x, List.mem_cons_self, hxy⟩, fun y' hy' ↦ ?_⟩
      obtain ⟨x', hx', hok⟩ := ih.2 y' hy'
      exact ⟨x', List.mem_cons_of_mem _ hx', hok⟩

/-- A loop of checks passes where each check does. -/
theorem forM_ok {f : α → Except ε PUnit.{v + 1}} {xs : List α} {u : PUnit.{v + 1}}
    (h : xs.forM f = .ok u) : ∀ x ∈ xs, f x = .ok u := by
  induction xs with
  | nil => exact fun _ hx ↦ absurd hx List.not_mem_nil
  | cons x xs ih =>
    obtain ⟨_, hx, h⟩ := bind_ok.mp h
    exact List.forall_mem_cons.mpr ⟨hx, ih h⟩

/-- A loop that collects its results succeeds where every round does. -/
theorem mapM_isOk {f : α → Except ε β} {xs : List α} :
    (∃ ys, xs.mapM f = .ok ys) ↔ ∀ x ∈ xs, ∃ y, f x = .ok y := by
  induction xs with
  | nil => exact ⟨fun _ _ hx ↦ absurd hx List.not_mem_nil, fun _ ↦ ⟨[], List.mapM_nil⟩⟩
  | cons x xs ih =>
    rw [List.forall_mem_cons, ← ih]
    constructor
    · rintro ⟨ys, h⟩
      rw [List.mapM_cons] at h
      obtain ⟨y, hy, h⟩ := bind_ok.mp h
      obtain ⟨ys', hys, -⟩ := bind_ok.mp h
      exact ⟨⟨y, hy⟩, ys', hys⟩
    · rintro ⟨⟨y, hy⟩, ys, hys⟩
      refine ⟨y :: ys, ?_⟩
      rw [List.mapM_cons]
      exact bind_ok.mpr ⟨y, hy, bind_ok.mpr ⟨ys, hys, rfl⟩⟩

/-- A loop whose rounds succeed whatever it carries succeeds where each round does. -/
theorem foldlM_isOk {f : β → α → Except ε β} {P : α → Prop} {xs : List α}
    (h : ∀ x ∈ xs, ∀ b, (∃ b', f b x = .ok b') ↔ P x) (b : β) :
    (∃ b', xs.foldlM f b = .ok b') ↔ ∀ x ∈ xs, P x := by
  induction xs generalizing b with
  | nil => exact ⟨fun _ _ hx ↦ absurd hx List.not_mem_nil, fun _ ↦ ⟨b, rfl⟩⟩
  | cons x xs ih =>
    have hrest := ih fun x' hx' ↦ h x' (List.mem_cons_of_mem _ hx')
    have hx := h x List.mem_cons_self b
    rw [List.forall_mem_cons]
    constructor
    · rintro ⟨b', hb'⟩
      rw [List.foldlM_cons] at hb'
      obtain ⟨b₁, hb₁, hb'⟩ := bind_ok.mp hb'
      exact ⟨hx.mp ⟨b₁, hb₁⟩, (hrest b₁).mp ⟨b', hb'⟩⟩
    · rintro ⟨hP, hall⟩
      obtain ⟨b₁, hb₁⟩ := hx.mpr hP
      obtain ⟨b', hb'⟩ := (hrest b₁).mpr hall
      refine ⟨b', ?_⟩
      rw [List.foldlM_cons]
      exact bind_ok.mpr ⟨b₁, hb₁, hb'⟩

end Xxgate.Base.Fallible

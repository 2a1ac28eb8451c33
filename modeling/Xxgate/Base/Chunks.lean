import Mathlib.Tactic.TypeStar

/-!
# Decoding in chunks

A decoder in two stages: the first cuts data out of the input, byte after byte, and the
second makes an output of each datum until a final one. Both can fail, and a call that fails
loses what it had decoded. The input arrives in chunks. `Calm` says for which inputs the
chunks make no difference.
-/

namespace Xxgate.Base.Chunks

universe u v w x y z

/-- The two stages. The first one works through a chunk byte by byte, and gives the data it
completes. -/
structure Stages (S : Type u) (B : Type v) (D : Type w) (T : Type x) (O : Type y) (E : Type z) where
  cut : S → B → Except E (List D × S)
  handle : T → D → Except E (O × T)
  isFinal : T → Bool

/-- How decoding ends. -/
inductive Ending (E : Type z) where
  | final
  | failed (error : E)
  | waiting
  deriving DecidableEq

variable {S : Type u} {B : Type v} {D : Type w} {T : Type x} {O : Type y} {E : Type z}

namespace Stages

variable (m : Stages S B D T O E)

/-- The first stage over a chunk. -/
def cutAll : S → List B → Except E (List D × S)
  | s, [] => .ok ([], s)
  | s, b :: bs =>
    match m.cut s b with
    | .error e => .error e
    | .ok (ds, s') =>
      match cutAll s' bs with
      | .error e => .error e
      | .ok (ds', s'') => .ok (ds ++ ds', s'')

/-- The second stage over some data, up to a final one. -/
def handleAll : T → List D → Except E (List O × T)
  | t, [] => .ok ([], t)
  | t, d :: ds =>
    match m.handle t d with
    | .error e => .error e
    | .ok (o, t') =>
      if m.isFinal t' then .ok ([o], t')
      else
        match handleAll t' ds with
        | .error e => .error e
        | .ok (os, t'') => .ok (o :: os, t'')

/-- Both stages over a chunk. Nothing is read after a final datum. -/
def push (s : S) (t : T) (chunk : List B) : Except E (List O × S × T) :=
  if m.isFinal t then .ok ([], s, t)
  else
    match m.cutAll s chunk with
    | .error e => .error e
    | .ok (ds, s') =>
      match m.handleAll t ds with
      | .error e => .error e
      | .ok (os, t') => .ok (os, s', t')

/-- What the chunks deliver, up to a final datum or the first failure. -/
def deliver : S → T → List (List B) → List O × Ending E
  | _, _, [] => ([], .waiting)
  | s, t, chunk :: chunks =>
    match m.push s t chunk with
    | .error e => ([], .failed e)
    | .ok (os, s', t') =>
      if m.isFinal t' then (os, .final)
      else (os ++ (deliver s' t' chunks).1, (deliver s' t' chunks).2)

/-- The data cut out of an input, one group for each byte that completes some, and the
failure of the first stage. -/
def cuts : S → List B → List (List D) × Option E
  | _, [] => ([], none)
  | s, b :: bs =>
    match m.cut s b with
    | .error e => ([], some e)
    | .ok ([], s') => cuts s' bs
    | .ok (d :: ds, s') => ((d :: ds) :: (cuts s' bs).1, (cuts s' bs).2)

/-- What the groups deliver when each is a chunk of its own. -/
def stepwise : T → List (List D) → Option E → List O × Ending E
  | _, [], none => ([], .waiting)
  | _, [], some e => ([], .failed e)
  | t, g :: gs, failure =>
    match m.handleAll t g with
    | .error e => ([], .failed e)
    | .ok (os, t') =>
      if m.isFinal t' then (os, .final)
      else (os ++ (stepwise t' gs failure).1, (stepwise t' gs failure).2)

/-- No failure loses anything: there is none, or nothing is decoded before it. -/
def Calm (t : T) (groups : List (List D)) : Option E → Prop
  | some _ => groups = []
  | none => (∃ r, m.handleAll t groups.flatten = .ok r) ∨
      ∃ g gs e, groups = g :: gs ∧ m.handleAll t g = .error e

variable {m}

/-! ### The two stages over a concatenation -/

/-- The first stage over a chunk succeeds where no byte of it fails. -/
theorem cutAll_ok {s s' : S} {bs : List B} {ds : List D} (h : m.cutAll s bs = .ok (ds, s')) :
    (m.cuts s bs).1.flatten = ds ∧ ∀ rest, m.cuts s (bs ++ rest) =
      ((m.cuts s bs).1 ++ (m.cuts s' rest).1, (m.cuts s' rest).2) := by
  induction bs generalizing s ds with
  | nil =>
    simp only [cutAll, Except.ok.injEq, Prod.mk.injEq] at h
    obtain ⟨rfl, rfl⟩ := h
    exact ⟨rfl, fun _ ↦ rfl⟩
  | cons b bs ih =>
    unfold cutAll at h
    cases hc : m.cut s b with
    | error e => rw [hc] at h; cases h
    | ok r =>
      obtain ⟨d, s₁⟩ := r
      simp only [hc] at h
      cases hr : m.cutAll s₁ bs with
      | error e => rw [hr] at h; cases h
      | ok r =>
        obtain ⟨d', s₂⟩ := r
        simp only [hr, Except.ok.injEq, Prod.mk.injEq] at h
        obtain ⟨rfl, rfl⟩ := h
        obtain ⟨hflat, happ⟩ := ih hr
        cases d with
        | nil => simp only [List.cons_append, cuts, hc, hflat, happ, List.nil_append, implies_true,
            and_self]
        | cons x d => simp only [List.cons_append, cuts, hc, List.flatten_cons, hflat, happ,
            implies_true, and_self]

/-- The first stage over a chunk fails where a byte of it does. -/
theorem cutAll_error {s : S} {bs : List B} {e : E} (h : m.cutAll s bs = .error e)
    (rest : List B) : (m.cuts s (bs ++ rest)).2 = some e := by
  induction bs generalizing s with
  | nil => cases h
  | cons b bs ih =>
    unfold cutAll at h
    cases hc : m.cut s b with
    | error e =>
      simp only [hc, Except.error.injEq] at h
      simp only [List.cons_append, cuts, hc, h]
    | ok r =>
      obtain ⟨d, s₁⟩ := r
      simp only [hc] at h
      cases hr : m.cutAll s₁ bs with
      | error e =>
        simp only [hr, Except.error.injEq] at h
        cases d <;> simpa only [List.cons_append, cuts, hc] using ih (h ▸ hr)
      | ok r => rw [hr] at h; cases h

/-- Where no byte fails, a chunk gives the groups of its bytes. -/
theorem cutAll_of_cuts {s : S} {bs : List B} (h : (m.cuts s bs).2 = none) :
    ∃ s', m.cutAll s bs = .ok ((m.cuts s bs).1.flatten, s') := by
  cases hc : m.cutAll s bs with
  | error e =>
    have hfail := cutAll_error hc []
    rw [List.append_nil, h] at hfail
    cases hfail
  | ok r =>
    obtain ⟨ds, s'⟩ := r
    exact ⟨s', by rw [(cutAll_ok hc).1]⟩

/-- The groups of an input are not empty. -/
theorem cuts_ne_nil {s : S} {bs : List B} {g : List D} (hg : g ∈ (m.cuts s bs).1) : g ≠ [] := by
  induction bs generalizing s with
  | nil => cases hg
  | cons b bs ih =>
    unfold cuts at hg
    cases hc : m.cut s b with
    | error e => rw [hc] at hg; cases hg
    | ok r =>
      obtain ⟨d, s₁⟩ := r
      cases d with
      | nil => exact ih (by simpa only [hc] using hg)
      | cons x d =>
        simp only [hc, List.mem_cons] at hg
        obtain rfl | hg := hg
        · simp
        · exact ih hg

/-- The second stage over two groups. -/
theorem handleAll_append {t t' : T} {xs ys : List D} {os : List O}
    (h : m.handleAll t xs = .ok (os, t')) (ht : m.isFinal t' = false) :
    m.handleAll t (xs ++ ys) = (m.handleAll t' ys).map fun r ↦ (os ++ r.1, r.2) := by
  induction xs generalizing t os with
  | nil =>
    simp only [handleAll, Except.ok.injEq, Prod.mk.injEq] at h
    obtain ⟨rfl, rfl⟩ := h
    cases hy : m.handleAll t ys <;> simp [Except.map, hy]
  | cons x xs ih =>
    unfold handleAll at h
    cases hx : m.handle t x with
    | error e => rw [hx] at h; cases h
    | ok r =>
      obtain ⟨o, t₁⟩ := r
      simp only [hx] at h
      by_cases hf : m.isFinal t₁
      · rw [if_pos hf, Except.ok.injEq, Prod.mk.injEq] at h
        rw [h.2, ht] at hf
        cases hf
      · rw [if_neg hf] at h
        cases hr : m.handleAll t₁ xs with
        | error e => rw [hr] at h; cases h
        | ok r =>
          obtain ⟨os', t₂⟩ := r
          simp only [hr, Except.ok.injEq, Prod.mk.injEq] at h
          obtain ⟨rfl, rfl⟩ := h
          rw [List.cons_append, handleAll, hx]
          simp only [hf, Bool.false_eq_true, if_false, ih hr]
          cases hy : m.handleAll t₂ ys <;> simp [Except.map]

/-- A failure of the second stage is that of one datum. -/
theorem exists_handle_error {t : T} {xs : List D} {e : E} (h : m.handleAll t xs = .error e) :
    ∃ t' d, m.handle t' d = .error e := by
  induction xs generalizing t with
  | nil => cases h
  | cons x xs ih =>
    unfold handleAll at h
    cases hx : m.handle t x with
    | error e' => exact ⟨t, x, by simpa only [hx, Except.error.injEq] using h⟩
    | ok r =>
      obtain ⟨o, t₁⟩ := r
      simp only [hx] at h
      split at h
      · cases h
      · cases hr : m.handleAll t₁ xs with
        | error e' =>
          simp only [hr, Except.error.injEq] at h
          exact ih (h ▸ hr)
        | ok r => rw [hr] at h; cases h

/-- A failure of the first stage is that of one byte. -/
theorem exists_cut_error {s : S} {bs : List B} {e : E} (h : (m.cuts s bs).2 = some e) :
    ∃ s' b, m.cut s' b = .error e := by
  induction bs generalizing s with
  | nil => cases h
  | cons b bs ih =>
    unfold cuts at h
    cases hc : m.cut s b with
    | error e' => exact ⟨s, b, by simpa only [hc, Option.some.injEq, Except.error.injEq] using h⟩
    | ok r =>
      obtain ⟨d, s₁⟩ := r
      cases d <;> exact ih (by simpa only [hc] using h)

/-- Data that is handled delivers something. -/
theorem handleAll_ne_nil {t t' : T} {xs : List D} {os : List O} (hne : xs ≠ [])
    (h : m.handleAll t xs = .ok (os, t')) : os ≠ [] := by
  cases xs with
  | nil => exact absurd rfl hne
  | cons x xs =>
    unfold handleAll at h
    cases hx : m.handle t x with
    | error e => rw [hx] at h; cases h
    | ok r =>
      obtain ⟨o, t₁⟩ := r
      simp only [hx] at h
      split at h
      · simp only [Except.ok.injEq, Prod.mk.injEq] at h
        simp [← h.1]
      · cases hr : m.handleAll t₁ xs with
        | error e => rw [hr] at h; cases h
        | ok r =>
          simp only [hr, Except.ok.injEq, Prod.mk.injEq] at h
          simp [← h.1]

/-- Nothing is handled after a final datum. -/
theorem handleAll_final {t t' : T} {xs : List D} {os : List O} (hne : m.isFinal t = false)
    (h : m.handleAll t xs = .ok (os, t')) (ht : m.isFinal t' = true) (ys : List D) :
    m.handleAll t (xs ++ ys) = .ok (os, t') := by
  induction xs generalizing t os with
  | nil =>
    simp only [handleAll, Except.ok.injEq, Prod.mk.injEq] at h
    obtain ⟨rfl, rfl⟩ := h
    rw [hne] at ht
    cases ht
  | cons x xs ih =>
    unfold handleAll at h
    cases hx : m.handle t x with
    | error e => rw [hx] at h; cases h
    | ok r =>
      obtain ⟨o, t₁⟩ := r
      simp only [hx] at h
      rw [List.cons_append, handleAll, hx]
      by_cases hf : m.isFinal t₁
      · rw [if_pos hf] at h
        simpa only [if_pos hf] using h
      · rw [if_neg hf] at h
        simp only [hf, Bool.false_eq_true, if_false]
        cases hr : m.handleAll t₁ xs with
        | error e => rw [hr] at h; cases h
        | ok r =>
          obtain ⟨os', t₂⟩ := r
          simp only [hr, Except.ok.injEq, Prod.mk.injEq] at h
          obtain ⟨rfl, rfl⟩ := h
          rw [ih (by simpa using hf) hr]

/-- A failure of the second stage comes before whatever follows. -/
theorem handleAll_error {t : T} {xs : List D} {e : E} (h : m.handleAll t xs = .error e)
    (ys : List D) : m.handleAll t (xs ++ ys) = .error e := by
  induction xs generalizing t with
  | nil => cases h
  | cons x xs ih =>
    unfold handleAll at h
    rw [List.cons_append, handleAll]
    cases hx : m.handle t x with
    | error e => simpa only [hx] using h
    | ok r =>
      obtain ⟨o, t₁⟩ := r
      simp only [hx] at h ⊢
      by_cases hf : m.isFinal t₁
      · rw [if_pos hf] at h
        cases h
      · rw [if_neg hf] at h
        rw [if_neg hf]
        cases hr : m.handleAll t₁ xs with
        | error e =>
          simp only [hr, Except.error.injEq] at h
          rw [ih (h ▸ hr)]
        | ok r => rw [hr] at h; cases h

/-! ### Stages that name their failures otherwise -/

section

variable {T' : Type x} {O' : Type y} {E' : Type z} {n : Stages S B D T' O' E'} {f : E → E'}

/-- A success has no failure to name. -/
theorem mapError_ok {ε ε' α : Type*} (f : ε → ε') (x : α) :
    (Except.ok x : Except ε α).mapError f = .ok x := rfl

/-- Cutting a whole input fails alike, under the other name. -/
theorem cutAll_mapError (h : ∀ s b, n.cut s b = (m.cut s b).mapError f) (s : S) (bs : List B) :
    n.cutAll s bs = (m.cutAll s bs).mapError f := by
  induction bs generalizing s with
  | nil => rfl
  | cons b bs ih =>
    unfold cutAll
    rw [h]
    cases m.cut s b with
    | error e => rfl
    | ok r =>
      obtain ⟨d, s₁⟩ := r
      simp only [mapError_ok, ih]
      cases m.cutAll s₁ bs <;> rfl

/-- The same data is cut out, and the failure is the same under its other name. -/
theorem cuts_mapError (h : ∀ s b, n.cut s b = (m.cut s b).mapError f) (s : S) (bs : List B) :
    n.cuts s bs = ((m.cuts s bs).1, (m.cuts s bs).2.map f) := by
  induction bs generalizing s with
  | nil => rfl
  | cons b bs ih =>
    unfold cuts
    rw [h]
    cases m.cut s b with
    | error e => rfl
    | ok r =>
      obtain ⟨_ | ⟨d, ds⟩, s₁⟩ := r
      · exact ih s₁
      · simp only [mapError_ok, ih]

end

/-! ### Chunks as small as the groups -/

/-- Groups that are handled without a failure deliver the same as all their data at once. -/
theorem stepwise_append {t t' : T} {gs : List (List D)} {os : List O}
    (hne : m.isFinal t = false) (h : m.handleAll t gs.flatten = .ok (os, t'))
    (gs' : List (List D)) (failure : Option E) :
    m.stepwise t (gs ++ gs') failure =
      if m.isFinal t' then (os, .final)
      else (os ++ (m.stepwise t' gs' failure).1, (m.stepwise t' gs' failure).2) := by
  induction gs generalizing t os with
  | nil =>
    simp only [List.flatten_nil, handleAll, Except.ok.injEq, Prod.mk.injEq] at h
    obtain ⟨rfl, rfl⟩ := h
    simp [hne]
  | cons g gs ih =>
    rw [List.flatten_cons] at h
    rw [List.cons_append, stepwise]
    cases hg : m.handleAll t g with
    | error e =>
      rw [handleAll_error hg] at h
      cases h
    | ok r =>
      obtain ⟨os₁, t₁⟩ := r
      cases hf : m.isFinal t₁ with
      | true =>
        rw [handleAll_final hne hg hf, Except.ok.injEq, Prod.mk.injEq] at h
        obtain ⟨rfl, rfl⟩ := h
        simp [hf]
      | false =>
        rw [handleAll_append hg hf] at h
        cases hr : m.handleAll t₁ gs.flatten with
        | error e => rw [hr] at h; cases h
        | ok r =>
          obtain ⟨os₂, t₂⟩ := r
          simp only [hr, Except.map, Except.ok.injEq, Prod.mk.injEq] at h
          obtain ⟨rfl, rfl⟩ := h
          simp only [hf, Bool.false_eq_true, if_false, ih hf hr]
          split <;> simp [List.append_assoc]

/-- One byte at a time delivers group after group. -/
theorem deliver_singles {s : S} {t : T} (hne : m.isFinal t = false) (bs : List B) :
    m.deliver s t (bs.map ([·])) = m.stepwise t (m.cuts s bs).1 (m.cuts s bs).2 := by
  induction bs generalizing s t with
  | nil => rfl
  | cons b bs ih =>
    simp only [List.map_cons, deliver, push, hne, Bool.false_eq_true, if_false, cutAll, cuts]
    cases hc : m.cut s b with
    | error e => rfl
    | ok r =>
      obtain ⟨d, s₁⟩ := r
      simp only [List.append_nil]
      cases d with
      | nil => simp only [handleAll, hne, Bool.false_eq_true, if_false, List.nil_append, ih hne]
      | cons x d =>
        simp only [stepwise]
        cases hg : m.handleAll t (x :: d) with
        | error e => rfl
        | ok r =>
          obtain ⟨os, t₁⟩ := r
          cases hf : m.isFinal t₁ with
          | true => simp only [hf, if_true]
          | false => simp only [hf, Bool.false_eq_true, if_false, ih hf]

/-- The whole input in one chunk fails when anything of it does, and delivers nothing then. -/
theorem deliver_whole {s : S} {t : T} (hne : m.isFinal t = false) (bs : List B) :
    m.deliver s t [bs] =
      match (m.cuts s bs).2 with
      | some e => ([], .failed e)
      | none =>
        match m.handleAll t (m.cuts s bs).1.flatten with
        | .error e => ([], .failed e)
        | .ok (os, t') => (os, if m.isFinal t' then .final else .waiting) := by
  simp only [deliver, push, hne, Bool.false_eq_true, if_false]
  cases hc : m.cutAll s bs with
  | error e =>
    have hfail := cutAll_error hc []
    rw [List.append_nil] at hfail
    simp only [hfail]
  | ok r =>
    obtain ⟨ds, s'⟩ := r
    obtain ⟨hflat, happ⟩ := cutAll_ok hc
    have hnone : (m.cuts s bs).2 = none := by
      have := happ []
      rw [List.append_nil] at this
      rw [this]
      rfl
    simp only [hnone, hflat]
    cases m.handleAll t ds with
    | error e => rfl
    | ok r =>
      obtain ⟨os, t'⟩ := r
      simp only [List.append_nil]
      split <;> rfl

/-! ### When the chunks make no difference -/

/-- A calm input delivers the same in any chunks. -/
theorem deliver_of_calm {s : S} {t : T} (hne : m.isFinal t = false) (chunks : List (List B))
    (h : m.Calm t (m.cuts s chunks.flatten).1 (m.cuts s chunks.flatten).2) :
    m.deliver s t chunks =
      m.stepwise t (m.cuts s chunks.flatten).1 (m.cuts s chunks.flatten).2 := by
  induction chunks generalizing s t with
  | nil => rfl
  | cons chunk chunks ih =>
    rw [List.flatten_cons] at h ⊢
    simp only [deliver, push, hne, Bool.false_eq_true, if_false]
    cases hc : m.cutAll s chunk with
    | error e =>
      -- A failure of the first stage: nothing was cut out before it.
      rw [cutAll_error hc, Calm] at h
      rw [cutAll_error hc, h, stepwise]
    | ok r =>
      obtain ⟨ds, s'⟩ := r
      obtain ⟨hflat, happ⟩ := cutAll_ok hc
      rw [happ] at h ⊢
      simp only at h ⊢
      cases hd : m.handleAll t ds with
      | error e =>
        -- A failure of the second stage: it is the first group that fails.
        have hne' : (m.cuts s chunk).1 ≠ [] := by
          intro hnil
          rw [hnil] at hflat
          rw [← hflat, List.flatten_nil, handleAll] at hd
          cases hd
        obtain ⟨g, gs, hg⟩ := List.exists_cons_of_ne_nil hne'
        cases hf : (m.cuts s' chunks.flatten).2 with
        | some e' =>
          rw [hf, hg] at h
          cases h
        | none =>
          rw [hf] at h
          obtain ⟨r, hr⟩ | ⟨g', gs', e', heq, he⟩ := h
          · rw [List.flatten_append, hflat, handleAll_error hd] at hr
            cases hr
          · rw [hg, List.cons_append, List.cons.injEq] at heq
            obtain ⟨rfl, -⟩ := heq
            have heq' := handleAll_error he gs.flatten
            rw [← List.flatten_cons, ← hg, hflat, hd, Except.error.injEq] at heq'
            simp only [hg, List.cons_append, stepwise, he, heq']
      | ok r =>
        obtain ⟨os, t'⟩ := r
        rw [stepwise_append hne (hflat ▸ hd)]
        cases hfin : m.isFinal t' with
        | true => simp only [hfin, if_true]
        | false =>
          simp only [hfin, Bool.false_eq_true, if_false]
          -- What follows is calm again, from the state the chunk leaves.
          have hcalm : m.Calm t' (m.cuts s' chunks.flatten).1 (m.cuts s' chunks.flatten).2 := by
            cases hf : (m.cuts s' chunks.flatten).2 with
            | some e' =>
              rw [hf, Calm] at h
              exact (List.append_eq_nil_iff.mp h).2
            | none =>
              rw [hf] at h
              obtain ⟨r, hr⟩ | ⟨g', gs', e', heq, he⟩ := h
              · rw [List.flatten_append, hflat, handleAll_append hd hfin] at hr
                cases hy : m.handleAll t' (m.cuts s' chunks.flatten).1.flatten with
                | error e => rw [hy] at hr; cases hr
                | ok r' => exact .inl ⟨r', hy⟩
              · cases hg : (m.cuts s chunk).1 with
                | nil =>
                  rw [hg, List.flatten_nil] at hflat
                  rw [← hflat, handleAll, Except.ok.injEq, Prod.mk.injEq] at hd
                  rw [hg, List.nil_append] at heq
                  exact .inr ⟨g', gs', e', heq, hd.2 ▸ he⟩
                | cons g gs =>
                  rw [hg, List.cons_append, List.cons.injEq] at heq
                  obtain ⟨rfl, -⟩ := heq
                  rw [← hflat, hg, List.flatten_cons, handleAll_error he] at hd
                  cases hd
          rw [ih hfin hcalm]

/-- An input delivers the same in any chunks exactly when it is calm, where the two stages
have different failures: otherwise one chunk loses what its bytes would have delivered one
by one. -/
theorem deliver_eq_iff (hdisjoint : ∀ s b t d e, m.cut s b = .error e → m.handle t d ≠ .error e)
    {s : S} {t : T} (hne : m.isFinal t = false) (input : List B) :
    (∀ c₁ c₂ : List (List B), c₁.flatten = input → c₂.flatten = input →
      m.deliver s t c₁ = m.deliver s t c₂) ↔
    m.Calm t (m.cuts s input).1 (m.cuts s input).2 := by
  constructor
  · intro h
    have hflat : ∀ bs : List B, (bs.map ([·])).flatten = bs := by
      intro bs
      induction bs with
      | nil => rfl
      | cons b bs ih => rw [List.map_cons, List.flatten_cons, ih, List.singleton_append]
    have hsame := h [input] (input.map ([·])) (by simp) (hflat input)
    rw [deliver_whole hne, deliver_singles hne] at hsame
    have hgroups : ∀ g gs, (m.cuts s input).1 = g :: gs → g ≠ [] :=
      fun g gs hg ↦ cuts_ne_nil (hg ▸ List.mem_cons_self)
    cases hf : (m.cuts s input).2 with
    | some e =>
      obtain ⟨s', b, hcut⟩ := exists_cut_error hf
      rw [hf] at hsame
      cases hg : (m.cuts s input).1 with
      | nil => rfl
      | cons g gs =>
        rw [hg, stepwise] at hsame
        cases hd : m.handleAll t g with
        | error e' =>
          obtain ⟨t', d, hhandle⟩ := exists_handle_error hd
          rw [hd] at hsame
          simp only [Prod.mk.injEq, Ending.failed.injEq, true_and] at hsame
          exact absurd (hsame ▸ hhandle) (hdisjoint s' b t' d e hcut)
        | ok r =>
          obtain ⟨os, t'⟩ := r
          have hos := handleAll_ne_nil (hgroups g gs hg) hd
          rw [hd] at hsame
          simp only at hsame
          split at hsame <;> simp_all
    | none =>
      rw [hf] at hsame
      cases hd : m.handleAll t (m.cuts s input).1.flatten with
      | ok r => exact .inl ⟨r, hd⟩
      | error e =>
        rw [hd] at hsame
        cases hg : (m.cuts s input).1 with
        | nil =>
          rw [hg, List.flatten_nil, handleAll] at hd
          cases hd
        | cons g gs =>
          rw [hg, stepwise] at hsame
          cases hh : m.handleAll t g with
          | error e' => exact .inr ⟨g, gs, e', rfl, hh⟩
          | ok r =>
            obtain ⟨os, t'⟩ := r
            have hos := handleAll_ne_nil (hgroups g gs hg) hh
            rw [hh] at hsame
            simp only at hsame
            split at hsame <;> simp_all
  · intro h c₁ c₂ h₁ h₂
    rw [deliver_of_calm hne c₁ (h₁ ▸ h), deliver_of_calm hne c₂ (h₂ ▸ h), h₁, h₂]

/-! ### The last of what is delivered -/

/-- Outputs of one kind, and if the last of them is final it is of another. -/
def Ends (Inner Last : O → Prop) (os : List O) (final : Prop) : Prop :=
  (∀ o ∈ os, Inner o) ∧ ¬ final ∨
    ∃ inner last, os = inner ++ [last] ∧ (∀ o ∈ inner, Inner o) ∧ Last last ∧ final

/-- Outputs of the first kind come before. -/
theorem Ends.append {Inner Last : O → Prop} {os os' : List O} {final : Prop}
    (h : ∀ o ∈ os, Inner o) (h' : Ends Inner Last os' final) :
    Ends Inner Last (os ++ os') final := by
  obtain ⟨hall, hno⟩ | ⟨inner, last, rfl, hinner, hlast, hfinal⟩ := h'
  · exact .inl ⟨fun o ho ↦ (List.mem_append.mp ho).elim (h o) (hall o), hno⟩
  · refine .inr ⟨os ++ inner, last, (List.append_assoc ..).symm, ?_, hlast, hfinal⟩
    exact fun o ho ↦ (List.mem_append.mp ho).elim (h o) (hinner o)

private theorem Ends.inner {Inner Last : O → Prop} {os : List O} {final : Prop}
    (h : Ends Inner Last os final) (hno : ¬ final) : ∀ o ∈ os, Inner o := by
  obtain ⟨hall, -⟩ | ⟨-, -, -, -, -, hfinal⟩ := h
  · exact hall
  · exact absurd hfinal hno

/-- What is said of each datum, by whether it is final, is said of the outputs of a chunk. -/
theorem handleAll_ends {Inner Last : O → Prop}
    (hstep : ∀ t d o t', m.isFinal t = false → m.handle t d = .ok (o, t') →
      if m.isFinal t' then Last o else Inner o) {t t' : T} {xs : List D} {os : List O}
    (hne : m.isFinal t = false) (h : m.handleAll t xs = .ok (os, t')) :
    Ends Inner Last os (m.isFinal t' = true) := by
  induction xs generalizing t os with
  | nil =>
    simp only [handleAll, Except.ok.injEq, Prod.mk.injEq] at h
    obtain ⟨rfl, rfl⟩ := h
    exact .inl ⟨fun o ho ↦ absurd ho List.not_mem_nil, Bool.eq_false_iff.mp hne⟩
  | cons x xs ih =>
    unfold handleAll at h
    cases hx : m.handle t x with
    | error e => rw [hx] at h; cases h
    | ok r =>
      obtain ⟨o, t₁⟩ := r
      have ho := hstep t x o t₁ hne hx
      simp only [hx] at h
      by_cases hf : m.isFinal t₁ = true
      · rw [if_pos hf] at h ho
        cases h
        exact .inr ⟨[], o, rfl, fun o ho ↦ absurd ho List.not_mem_nil, ho, hf⟩
      · rw [if_neg hf] at h ho
        cases hr : m.handleAll t₁ xs with
        | error e => rw [hr] at h; cases h
        | ok r =>
          rw [hr] at h
          cases h
          have hone : ∀ o' ∈ [o], Inner o' := fun _ hm ↦ List.mem_singleton.mp hm ▸ ho
          exact Ends.append hone (ih (Bool.eq_false_iff.mpr hf) hr)

/-- Of all that is delivered, in whatever chunks, only the last output ends it. -/
theorem deliver_ends {Inner Last : O → Prop}
    (hstep : ∀ t d o t', m.isFinal t = false → m.handle t d = .ok (o, t') →
      if m.isFinal t' then Last o else Inner o) {t : T} (hne : m.isFinal t = false)
    (s : S) (chunks : List (List B)) :
    Ends Inner Last (m.deliver s t chunks).1 ((m.deliver s t chunks).2 = .final) := by
  have hnone : ∀ ending : Ending E, ending ≠ .final →
      Ends Inner Last ([] : List O) (ending = .final) :=
    fun _ h ↦ .inl ⟨fun o ho ↦ absurd ho List.not_mem_nil, h⟩
  induction chunks generalizing s t with
  | nil => exact hnone _ (by simp [deliver])
  | cons chunk chunks ih =>
    unfold deliver push
    rw [if_neg (Bool.eq_false_iff.mp hne)]
    cases hc : m.cutAll s chunk with
    | error e => exact hnone _ (by simp)
    | ok x =>
      obtain ⟨ds, s'⟩ := x
      dsimp only
      cases hh : m.handleAll t ds with
      | error e => exact hnone _ (by simp)
      | ok y =>
        obtain ⟨os, t'⟩ := y
        have hos := handleAll_ends hstep hne hh
        dsimp only
        by_cases hf : m.isFinal t' = true
        · rw [if_pos hf]
          simpa only [hf] using hos
        · rw [if_neg hf]
          exact .append (hos.inner hf) (ih (Bool.eq_false_iff.mpr hf) s')

end Stages
end Xxgate.Base.Chunks

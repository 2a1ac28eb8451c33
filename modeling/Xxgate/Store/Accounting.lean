import Xxgate.Store.State

/-!
# The books of the store

A request is finished by one transaction that also counts it in `request_hourly` and, when
it has an account, in the spending tables. `Accounted` ties the rows and the totals to the
history of these transactions, and every transaction of the store keeps it.
-/

namespace Xxgate.Store

open Xxgate.Base Xxgate.Core FiniteMap
open PgStore

/-- The row shows the record it was finished with. -/
structure Row.Shows (row : Row) (r : RequestRecord) : Prop where
  state : row.state = r.state
  accountId : row.accountId = r.accountId
  finishedAt : row.finishedAt = r.finishedAt
  usage : row.data.usage = r.usage
  valuation : row.data.valuation = r.valuation

/-- The spending entry of a finished record, when it has an account. -/
def charge (r : RequestRecord) : Option SpendingEntry :=
  r.accountId.map fun accountId ↦ spendingEntry r accountId (r.finishedAt.getD 0)

/-- The key of `account_spending_hourly` an entry counts in. -/
def spendingKey (e : SpendingEntry) : Uuid × Nat := (e.accountId, hourOf e.finishedAt)

/-- Every row, entry and total is that of the history: a request occurs in it once when its
row is finished and not at all otherwise, `request_hourly` rolls it up, and so do the
spending tables for the hours no cleanup has dropped. -/
structure Accounted (s : PgStore) : Prop where
  once : (s.billed.map (·.id)).Nodup
  finished : ∀ id row, s.rows.lookup id = some row → row.finishedAt.isSome = true →
    ∃ r ∈ s.billed, r.id = id ∧ row.Shows r
  unfinished : ∀ id row, s.rows.lookup id = some row → row.finishedAt = none →
    row.data.id = id ∧ ∀ r ∈ s.billed, r.id ≠ id
  hourly : Rolled mergeHourly hourlyKey hourlyShare (fun _ ↦ True) s.hourly s.billed
  charged : ∀ r ∈ s.billed, ∀ e, charge r = some e → s.expired ≤ hourOf e.finishedAt →
    s.entries.lookup r.id = some e
  entries : ∀ id e, s.entries.lookup id = some e → ∃ r ∈ s.billed, r.id = id
  spending : Rolled mergeSpending spendingKey spendingShare (fun k ↦ s.expired ≤ k.2)
    s.spending (s.billed.filterMap charge)

/-- Finishing leaves the store, or bills the request's unfinished row. -/
theorem finishRequest_ok {s s' : PgStore} {now : Nat} {r : RequestRecord}
    (h : s.finishRequest now r = .ok s') :
    (s.unfinished r.id = none ∧ s' = s) ∨
      ∃ row, s.unfinished r.id = some row ∧ s' = s.bill now r row := by
  unfold finishRequest at h
  split at h
  · next hu => exact .inl ⟨hu, (Except.ok.inj h).symm⟩
  · next row hu =>
    split at h
    · cases h
    · exact .inr ⟨row, hu, (Except.ok.inj h).symm⟩

/-- An unfinished row is one without an instant. -/
theorem unfinished_eq_some {s : PgStore} {id : Uuid} {row : Row} :
    s.unfinished id = some row ↔ s.rows.lookup id = some row ∧ row.finishedAt = none := by
  unfold PgStore.unfinished
  rw [Option.filter_eq_some_iff, Option.isNone_iff_eq_none]

/-! ### What billing writes -/

@[simp] theorem bill_billed (s : PgStore) (now : Nat) (r : RequestRecord) (row : Row) :
    (s.bill now r row).billed = s.billed ++ [stamped now r] := by
  unfold bill incrementSpending
  cases r.accountId with
  | none => rfl
  | some a =>
    simp only [appendEvent]
    split <;> rfl

@[simp] theorem bill_rows (s : PgStore) (now : Nat) (r : RequestRecord) (row : Row) :
    (s.bill now r row).rows = s.rows.insert r.id
      ⟨r.accountId, r.state, row.createdAt, some (r.finishedAt.getD now), r, .full⟩ := by
  unfold bill incrementSpending
  cases r.accountId with
  | none => rfl
  | some a =>
    simp only [appendEvent]
    split <;> rfl

@[simp] theorem bill_hourly (s : PgStore) (now : Nat) (r : RequestRecord) (row : Row) :
    (s.bill now r row).hourly = accumulate mergeHourly s.hourly (hourlyKey r) (hourlyShare r) := by
  unfold bill incrementSpending
  cases r.accountId with
  | none => rfl
  | some a =>
    simp only [appendEvent]
    split <;> rfl

@[simp] theorem bill_expired (s : PgStore) (now : Nat) (r : RequestRecord) (row : Row) :
    (s.bill now r row).expired = s.expired := by
  unfold bill incrementSpending
  cases r.accountId with
  | none => rfl
  | some a =>
    simp only [appendEvent]
    split <;> rfl

/-- The spending tables after billing, when the request has no entry yet. -/
theorem bill_spending (s : PgStore) (now : Nat) (r : RequestRecord) (row : Row)
    (hnew : s.entries.lookup r.id = none) :
    (s.bill now r row).entries =
        (charge (stamped now r)).elim s.entries (s.entries.insert r.id) ∧
      (s.bill now r row).spending = (charge (stamped now r)).elim s.spending
        fun e ↦ accumulate mergeSpending s.spending (spendingKey e) (spendingShare e) := by
  have hm : r.id ∉ s.entries := AList.lookup_eq_none.mp hnew
  cases ha : r.accountId with
  | none =>
    have hc : charge (stamped now r) = none := Option.map_eq_none_iff.mpr ha
    rw [hc]
    unfold PgStore.bill
    rw [ha]
    exact ⟨rfl, rfl⟩
  | some a =>
    have hc : charge (stamped now r) = some (spendingEntry r a (r.finishedAt.getD now)) :=
      Option.map_eq_some_iff.mpr ⟨a, ha, rfl⟩
    rw [hc]
    unfold PgStore.bill incrementSpending
    simp only [ha, if_neg hm]
    exact ⟨rfl, rfl⟩

namespace Accounted

variable {s s' : PgStore}

/-- A fresh database is in order. -/
theorem empty : Accounted .empty where
  once := List.nodup_nil
  finished := fun id _ h ↦ by cases (AList.lookup_empty id).symm.trans h
  unfinished := fun id _ h ↦ by cases (AList.lookup_empty id).symm.trans h
  hourly := Rolled.empty
  charged := fun _ h ↦ absurd h List.not_mem_nil
  entries := fun id _ h ↦ by cases (AList.lookup_empty id).symm.trans h
  spending := Rolled.empty

/-- Billing an unfinished row adds it to the history and to every total. -/
theorem bill (h : Accounted s) (now : Nat) {r : RequestRecord} {row : Row}
    (hrow : s.unfinished r.id = some row) : Accounted (s.bill now r row) := by
  obtain ⟨hlookup, hopen⟩ := unfinished_eq_some.mp hrow
  have hnew : ∀ r' ∈ s.billed, r'.id ≠ r.id := (h.unfinished _ _ hlookup hopen).2
  have hentry : s.entries.lookup r.id = none := by
    rw [Option.eq_none_iff_forall_ne_some]
    intro e he
    obtain ⟨r', hr', hid⟩ := h.entries _ _ he
    exact hnew r' hr' hid
  obtain ⟨hentries, hspending⟩ := bill_spending s now r row hentry
  constructor
  · rw [bill_billed, List.map_append, List.nodup_append]
    refine ⟨h.once, List.nodup_singleton _, ?_⟩
    intro a ha b hb
    obtain ⟨r', hr', rfl⟩ := List.mem_map.mp ha
    rw [List.map_singleton, List.mem_singleton] at hb
    subst hb
    exact hnew r' hr'
  · intro id row' hl hf
    rw [bill_rows, lookup_insert_ite] at hl
    rw [bill_billed]
    split at hl
    · next hid =>
      cases hl
      refine ⟨stamped now r, List.mem_append_right _ (List.mem_singleton_self _), hid.symm, ?_⟩
      exact ⟨rfl, rfl, rfl, rfl, rfl⟩
    · obtain ⟨r', hr', hshow⟩ := h.finished id row' hl hf
      exact ⟨r', List.mem_append_left _ hr', hshow⟩
  · intro id row' hl hf
    rw [bill_rows, lookup_insert_ite] at hl
    split at hl
    · cases hl
      cases hf
    · next hid =>
      obtain ⟨hdata, hnot⟩ := h.unfinished id row' hl hf
      refine ⟨hdata, fun r' hr' ↦ ?_⟩
      rw [bill_billed, List.mem_append, List.mem_singleton] at hr'
      rcases hr' with hr' | rfl
      · exact hnot r' hr'
      · exact Ne.symm hid
  · rw [bill_hourly, bill_billed]
    exact h.hourly.accumulate (stamped now r)
  · intro r' hr' e he hexp
    rw [bill_expired] at hexp
    rw [bill_billed, List.mem_append, List.mem_singleton] at hr'
    rw [hentries]
    rcases hr' with hr' | rfl
    · have hold := h.charged r' hr' e he hexp
      cases charge (stamped now r) with
      | none => exact hold
      | some e' => exact (AList.lookup_insert_ne (hnew r' hr')).trans hold
    · rw [he]
      exact AList.lookup_insert _
  · intro id e he
    rw [hentries] at he
    rw [bill_billed]
    cases hc : charge (stamped now r) with
    | none =>
      rw [hc] at he
      obtain ⟨r', hr', hid⟩ := h.entries id e he
      exact ⟨r', List.mem_append_left _ hr', hid⟩
    | some e' =>
      rw [hc, Option.elim_some, lookup_insert_ite] at he
      split at he
      · next hid =>
        exact ⟨stamped now r, List.mem_append_right _ (List.mem_singleton_self _), hid.symm⟩
      · obtain ⟨r', hr', hid⟩ := h.entries id e he
        exact ⟨r', List.mem_append_left _ hr', hid⟩
  · rw [hspending, bill_billed, bill_expired, List.filterMap_append]
    cases hc : charge (stamped now r) with
    | none =>
      rw [List.filterMap_cons_none hc, List.filterMap_nil, List.append_nil]
      exact h.spending
    | some e =>
      rw [List.filterMap_cons_some hc, List.filterMap_nil]
      exact h.spending.accumulate e

/-- Finishing a request keeps the books. -/
theorem finishRequest (h : Accounted s) {now : Nat} {r : RequestRecord}
    (hf : s.finishRequest now r = .ok s') : Accounted s' := by
  rcases finishRequest_ok hf with ⟨-, rfl⟩ | ⟨row, hrow, rfl⟩
  · exact h
  · exact h.bill now hrow

/-- A row for a request that was never finished changes nothing in the books. -/
theorem beginRequest (h : Accounted s) {now : Nat} {r : RequestRecord}
    (hnew : ∀ r' ∈ s.billed, r'.id ≠ r.id) (hb : s.beginRequest now r = .ok s') :
    Accounted s' := by
  unfold PgStore.beginRequest at hb
  split at hb
  · cases hb
  · cases hb
    refine ⟨h.once, ?_, ?_, h.hourly, h.charged, h.entries, h.spending⟩
    · intro id row hl hf
      change (s.rows.insert r.id _).lookup id = some row at hl
      rw [lookup_insert_ite] at hl
      split at hl
      · cases hl
        cases hf
      · exact h.finished id row hl hf
    · intro id row hl hf
      change (s.rows.insert r.id _).lookup id = some row at hl
      rw [lookup_insert_ite] at hl
      split at hl
      · next hid =>
        cases hl
        exact ⟨hid.symm, fun r' hr' ↦ hid ▸ hnew r' hr'⟩
      · exact h.unfinished id row hl hf

/-- Overwriting a row by one that shows the same, or an unfinished one by an unfinished one,
changes nothing in the books. -/
theorem rewrite (h : Accounted s) {id : Uuid} {row r : Row}
    (hrow : s.rows.lookup id = some row) (hdone : r.finishedAt = row.finishedAt)
    (hshow : ∀ q, row.finishedAt.isSome = true → row.Shows q → r.Shows q)
    (hdata : row.finishedAt = none → r.data.id = id) :
    Accounted { s with rows := s.rows.insert id r } := by
  refine ⟨h.once, ?_, ?_, h.hourly, h.charged, h.entries, h.spending⟩
  · intro id' row₁ hl hf
    change (s.rows.insert id r).lookup id' = some row₁ at hl
    rw [lookup_insert_ite] at hl
    split at hl
    · next hid =>
      cases hl
      have hf' : row.finishedAt.isSome = true := hdone ▸ hf
      obtain ⟨q, hq, hqid, hs⟩ := h.finished id row hrow hf'
      exact ⟨q, hq, hqid.trans hid.symm, hshow q hf' hs⟩
    · exact h.finished id' row₁ hl hf
  · intro id' row₁ hl hf
    change (s.rows.insert id r).lookup id' = some row₁ at hl
    rw [lookup_insert_ite] at hl
    split at hl
    · next hid =>
      subst hid
      cases hl
      have hf' : row.finishedAt = none := hdone ▸ hf
      exact ⟨hdata hf', (h.unfinished id' row hrow hf').2⟩
    · exact h.unfinished id' row₁ hl hf

/-- Updating a request keeps the books. -/
theorem updateRequest (h : Accounted s) (r : RequestRecord) : Accounted (s.updateRequest r) := by
  unfold PgStore.updateRequest
  split
  · exact h
  · next row hu =>
    obtain ⟨hrow, hopen⟩ := unfinished_eq_some.mp hu
    refine h.rewrite hrow rfl ?_ fun _ ↦ rfl
    intro r' hf
    rw [hopen] at hf
    cases hf

/-- Summarising a request keeps the books. -/
theorem summarizeRequest (h : Accounted s) (r : RequestRecord) :
    Accounted (s.summarizeRequest r) := by
  unfold PgStore.summarizeRequest
  split
  · exact h
  · split
    · exact h
    · next row hu =>
      obtain ⟨hrow, hp⟩ := Option.filter_eq_some_iff.mp hu
      have hk := h.rewrite (r := { row with detailLevel := .summary }) hrow rfl
        (fun r' _ hs ↦ ⟨hs.state, hs.accountId, hs.finishedAt, hs.usage, hs.valuation⟩)
        fun hn ↦ (h.unfinished _ _ hrow hn).1
      exact ⟨hk.once, hk.finished, hk.unfinished, hk.hourly, hk.charged, hk.entries, hk.spending⟩

/-- Committing a binding leaves the books alone. -/
theorem commitBinding (h : Accounted s) {b : Binding} {expected : Int}
    (hc : s.commitBinding b expected = .ok s') : Accounted s' := by
  unfold PgStore.commitBinding at hc
  split at hc
  · cases hc
  · split at hc
    · cases hc
    · cases hc
      exact ⟨h.once, h.finished, h.unfinished, h.hourly, h.charged, h.entries, h.spending⟩

/-- Appending an event leaves the books alone. -/
theorem appendEvent (h : Accounted s) (event : AuditEvent) : Accounted (s.appendEvent event) :=
  ⟨h.once, h.finished, h.unfinished, h.hourly, h.charged, h.entries, h.spending⟩

/-- Saving a safety rejection leaves the books alone. -/
theorem saveSafetyRejection (h : Accounted s) (session : SessionKey) (error : Error) :
    Accounted (s.saveSafetyRejection session error) :=
  ⟨h.once, h.finished, h.unfinished, h.hourly, h.charged, h.entries, h.spending⟩

/-- Cleaning up drops rows and expired hours, and nothing else. -/
theorem cleanup (h : Accounted s) (now retentionDays : Nat) :
    Accounted (s.cleanup now retentionDays) := by
  refine ⟨h.once, ?_, ?_, h.hourly, ?_, ?_, ?_⟩
  · intro id row hl hf
    have hl' := (lookup_filter s.rows _ id).symm.trans hl
    exact h.finished id row (Option.filter_eq_some_iff.mp hl').1 hf
  · intro id row hl hf
    have hl' := (lookup_filter s.rows _ id).symm.trans hl
    exact h.unfinished id row (Option.filter_eq_some_iff.mp hl').1 hf
  · intro r hr e he hexp
    have hexp' : max s.expired (hourOf (now - 31 * 86400000000)) ≤ hourOf e.finishedAt := hexp
    apply (lookup_filter s.entries _ r.id).trans
    rw [h.charged r hr e he (by omega), Option.filter_some, decide_eq_true (by omega), if_pos rfl]
  · intro id e hl
    have hl' := (lookup_filter s.entries _ id).symm.trans hl
    exact h.entries id e (Option.filter_eq_some_iff.mp hl').1
  · apply h.spending.filter
    intro k hk
    have hk' : max s.expired (hourOf (now - 31 * 86400000000)) ≤ k.2 := hk
    exact ⟨by omega, decide_eq_true (by omega)⟩

end Accounted

/-! ### The history only grows -/

/-- A store call changes the store by its transaction or not at all. -/
theorem settle_store (outcome : Outcome) (s : PgStore) (t : Result PgStore) :
    (settle outcome s t).1 = s ∨ t = .ok (settle outcome s t).1 := by
  unfold settle
  split
  · exact .inr rfl
  · exact .inr rfl
  · exact .inl rfl
  · exact .inl rfl

/-- Finishing adds at most one record to the history. -/
theorem finishRequest_grows {s s' : PgStore} {now : Nat} {r : RequestRecord}
    (h : s.finishRequest now r = .ok s') : s.billed <+: s'.billed := by
  rcases finishRequest_ok h with ⟨-, rfl⟩ | ⟨row, -, rfl⟩
  · exact List.prefix_refl _
  · rw [bill_billed]
    exact List.prefix_append _ _

/-- Finishing several records keeps the books and the history. -/
theorem finishAll_accounted {now : Nat} {s : PgStore} (h : Accounted s)
    (records : List RequestRecord) (outcomes : List Outcome) :
    Accounted (s.finishAll now records outcomes).1 ∧
      s.billed <+: (s.finishAll now records outcomes).1.billed := by
  induction records generalizing s outcomes with
  | nil => exact ⟨h, List.prefix_refl _⟩
  | cons r rest ih =>
    have hs : Accounted (settle (outcomes.headD .answered) s (s.finishRequest now r)).1 ∧
        s.billed <+: (settle (outcomes.headD .answered) s (s.finishRequest now r)).1.billed := by
      rcases settle_store (outcomes.headD .answered) s (s.finishRequest now r) with he | he
      · rw [he]
        exact ⟨h, List.prefix_refl _⟩
      · exact ⟨h.finishRequest he, finishRequest_grows he⟩
    unfold finishAll
    split
    · next s₁ he =>
      rw [he] at hs
      obtain ⟨ha, hp⟩ := ih hs.1 outcomes.tail
      exact ⟨ha, hs.2.trans hp⟩
    · next s₁ x he =>
      rw [he] at hs
      exact hs

/-- What a finished row shows never changes: a later row of the request shows the same. -/
theorem Accounted.stable {s s' : PgStore} (h : Accounted s) (h' : Accounted s')
    (hp : s.billed <+: s'.billed) {id : Uuid} {row row' : Row}
    (hrow : s.rows.lookup id = some row) (hf : row.finishedAt.isSome = true)
    (hrow' : s'.rows.lookup id = some row') :
    row'.state = row.state ∧ row'.finishedAt = row.finishedAt ∧
      row'.accountId = row.accountId ∧ row'.data.usage = row.data.usage ∧
      row'.data.valuation = row.data.valuation := by
  obtain ⟨r, hr, hid, hs⟩ := h.finished id row hrow hf
  have hr₁ : r ∈ s'.billed := hp.subset hr
  have hf' : row'.finishedAt.isSome = true := by
    rw [Option.isSome_iff_ne_none]
    intro hn
    exact (h'.unfinished id row' hrow' hn).2 r hr₁ hid
  obtain ⟨r', hr', hid', hs'⟩ := h'.finished id row' hrow' hf'
  have he : r' = r := List.inj_on_of_nodup_map h'.once hr' hr₁ (hid'.trans hid.symm)
  subst he
  exact ⟨hs'.state.trans hs.state.symm, hs'.finishedAt.trans hs.finishedAt.symm,
    hs'.accountId.trans hs.accountId.symm, hs'.usage.trans hs.usage.symm,
    hs'.valuation.trans hs.valuation.symm⟩

/-! ### The requests the store knows -/

/-- The store has a row of the request, or finished it. -/
def Knows (s : PgStore) (id : Uuid) : Prop := id ∈ s.rows ∨ ∃ r ∈ s.billed, r.id = id

/-- The store finished the request. -/
def Billed (s : PgStore) (id : Uuid) : Prop := ∃ r ∈ s.billed, r.id = id

/-- What is billed stays so. -/
theorem Billed.mono {s s' : PgStore} (hp : s.billed <+: s'.billed) {id : Uuid}
    (h : Billed s id) : Billed s' id := by
  obtain ⟨r, hr, hid⟩ := h
  exact ⟨r, hp.subset hr, hid⟩

/-- Overwriting a row makes no request known. -/
theorem knows_rewrite {s : PgStore} {id i : Uuid} {row r : Row}
    (hrow : s.rows.lookup id = some row) :
    Knows { s with rows := s.rows.insert id r } i ↔ Knows s i := by
  have hid : id ∈ s.rows := (mem_iff_lookup ..).mpr ⟨row, hrow⟩
  unfold Knows
  dsimp only
  rw [AList.mem_insert]
  constructor
  · rintro ((rfl | hi) | hb)
    · exact .inl hid
    · exact .inl hi
    · exact .inr hb
  · rintro (hi | hb)
    · exact .inl (.inr hi)
    · exact .inr hb

/-- A finished request is billed, and no other request becomes known. -/
theorem finishRequest_knows {s s' : PgStore} {now : Nat} {r : RequestRecord}
    (h : s.finishRequest now r = .ok s') (i : Uuid) : Knows s' i ↔ Knows s i := by
  rcases finishRequest_ok h with ⟨-, rfl⟩ | ⟨row, hrow, rfl⟩
  · exact Iff.rfl
  · have hid : r.id ∈ s.rows := (mem_iff_lookup ..).mpr ⟨row, (unfinished_eq_some.mp hrow).1⟩
    unfold Knows
    rw [bill_rows, bill_billed, AList.mem_insert]
    constructor
    · rintro ((rfl | hi) | ⟨q, hq, rfl⟩)
      · exact .inl hid
      · exact .inl hi
      · rcases List.mem_append.mp hq with hq | hq
        · exact .inr ⟨q, hq, rfl⟩
        · rw [List.mem_singleton.mp hq]
          exact .inl hid
    · rintro (hi | ⟨q, hq, rfl⟩)
      · exact .inl (.inr hi)
      · exact .inr ⟨q, List.mem_append_left _ hq, rfl⟩

/-- A known request is billed once finishing it succeeded. -/
theorem finishRequest_billed {s s' : PgStore} (ha : Accounted s) {now : Nat} {r : RequestRecord}
    (hk : Knows s r.id) (h : s.finishRequest now r = .ok s') : Billed s' r.id := by
  rcases finishRequest_ok h with ⟨hnone, rfl⟩ | ⟨row, hrow, rfl⟩
  · rcases hk with hrow | hb
    · obtain ⟨row, hl⟩ := (mem_iff_lookup ..).mp hrow
      cases hf : row.finishedAt with
      | none => cases hnone.symm.trans (unfinished_eq_some.mpr ⟨hl, hf⟩)
      | some n =>
        obtain ⟨q, hq, hid, -⟩ := ha.finished r.id row hl (by rw [hf]; rfl)
        exact ⟨q, hq, hid⟩
    · exact hb
  · refine ⟨stamped now r, ?_, rfl⟩
    rw [bill_billed]
    exact List.mem_append_right _ (List.mem_singleton_self _)

/-- Updating a request makes none known. -/
theorem updateRequest_knows (s : PgStore) (r : RequestRecord) (i : Uuid) :
    Knows (s.updateRequest r) i ↔ Knows s i := by
  unfold PgStore.updateRequest
  split
  · exact Iff.rfl
  · next row hu => exact knows_rewrite (unfinished_eq_some.mp hu).1

/-- Summarizing a request makes none known. -/
theorem summarizeRequest_knows (s : PgStore) (r : RequestRecord) (i : Uuid) :
    Knows (s.summarizeRequest r) i ↔ Knows s i := by
  unfold PgStore.summarizeRequest
  split
  · exact Iff.rfl
  · split
    · exact Iff.rfl
    · next row hu => exact knows_rewrite (Option.filter_eq_some_iff.mp hu).1

/-- A row for a request makes it known. -/
theorem beginRequest_knows {s s' : PgStore} {now : Nat} {r : RequestRecord}
    (h : s.beginRequest now r = .ok s') (i : Uuid) : Knows s' i ↔ i = r.id ∨ Knows s i := by
  unfold PgStore.beginRequest at h
  split at h
  · cases h
  · cases h
    unfold Knows
    show (i ∈ s.rows.insert r.id _ ∨ _) ↔ _
    rw [AList.mem_insert, or_assoc]
    rfl

/-- A row that is cleaned up was that of a finished request. -/
theorem cleanup_knows {s : PgStore} (h : Accounted s) (now retentionDays : Nat) (i : Uuid) :
    Knows (s.cleanup now retentionDays) i ↔ Knows s i := by
  constructor
  · rintro (hi | hb)
    · obtain ⟨row, hl⟩ := (mem_iff_lookup ..).mp hi
      have hl' := (lookup_filter s.rows _ i).symm.trans hl
      exact .inl ((mem_iff_lookup ..).mpr ⟨row, (Option.filter_eq_some_iff.mp hl').1⟩)
    · exact .inr hb
  · rintro (hi | hb)
    · obtain ⟨row, hl⟩ := (mem_iff_lookup ..).mp hi
      cases hf : row.finishedAt with
      | none =>
        refine .inl ((mem_iff_lookup ..).mpr ⟨row, ?_⟩)
        refine (lookup_filter s.rows _ i).trans ?_
        rw [hl, Option.filter_some, hf]
        rfl
      | some n =>
        obtain ⟨q, hq, hid, -⟩ := h.finished i row hl (by rw [hf]; rfl)
        exact .inr ⟨q, hq, hid⟩
    · exact .inr hb

/-- Finishing several records makes no request known. -/
theorem finishAll_knows (now : Nat) (records : List RequestRecord) (s : PgStore)
    (outcomes : List Outcome) (i : Uuid) :
    Knows (s.finishAll now records outcomes).1 i ↔ Knows s i := by
  induction records generalizing s outcomes with
  | nil => exact Iff.rfl
  | cons r rest ih =>
    have hs : Knows (settle (outcomes.headD .answered) s (s.finishRequest now r)).1 i ↔
        Knows s i := by
      rcases settle_store (outcomes.headD .answered) s (s.finishRequest now r) with he | he
      · rw [he]
      · exact finishRequest_knows he i
    unfold finishAll
    split
    · next s₁ he =>
      rw [he] at hs
      exact (ih s₁ outcomes.tail).trans hs
    · next s₁ x he =>
      rw [he] at hs
      exact hs

end Xxgate.Store

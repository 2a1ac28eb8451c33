import Xxgate.Base.FiniteMap
import Xxgate.Core.Json
import Xxgate.Core.Types
import Xxgate.Store.Accounts

/-!
# The journal of reset redemptions

`crates/xxgate-core/src/resets.rs`, the tables of migration `0006_reset_credits.sql` and the
transactions of `crates/xxgate-postgres/src/resets.rs` on them. A row of the journal says which
credit an operation redeems, and what came of it.
-/

namespace Xxgate.Resets

open Xxgate.Base Xxgate.Base.FiniteMap Xxgate.Core

/-- `resets.rs:6`, with the fields that decide which credit is next. -/
structure ResetCredit where
  id : String
  resetType : String
  status : String
  grantedAt : Int
  expiresAt : Option Int
  deriving DecidableEq

namespace ResetCredit

/-- `resets.rs:17`. -/
def available (c : ResetCredit) (now : Int) : Bool :=
  c.status == "available" && c.resetType == "codex_rate_limits" && c.expiresAt.all (now < ·)

/-- The order of `resets.rs:44`: by when it expires, when it was granted and its id. -/
def compare (c d : ResetCredit) : Ordering :=
  (Ord.compare c.expiresAt.isNone d.expiresAt.isNone).then <|
    (Ord.compare c.expiresAt d.expiresAt).then <|
      (Ord.compare c.grantedAt d.grantedAt).then (Ord.compare c.id d.id)

end ResetCredit

/-- `resets.rs:26`. -/
structure ResetCredits where
  availableCount : Nat
  credits : List ResetCredit
  observedAt : Int
  deriving DecidableEq

/-- `resets.rs:44`: the first of the least. -/
def ResetCredits.next (c : ResetCredits) (now : Int) : Option ResetCredit :=
  (c.credits.filter (·.available now)).foldl (fun best c ↦
    match best with
    | none => some c
    | some b => if c.compare b = .lt then some c else some b) none

/-- `resets.rs:54`. -/
inductive ResetCode where
  | reset
  | nothingToReset
  | noCredit
  | alreadyRedeemed
  deriving DecidableEq

/-- `resets.rs:61`. -/
structure ResetResult where
  code : ResetCode
  windowsReset : Nat
  deriving DecidableEq

/-- `resets.rs:71`. -/
structure ResetOperation where
  id : Uuid
  accountId : Uuid
  creditId : String
  createdAt : Int
  result : Option ResetResult
  deriving DecidableEq

/-- A row of `account_reset_operations`. -/
structure OperationRow where
  accountId : Uuid
  completed : Bool
  data : ResetOperation
  deriving DecidableEq

/-- What `consume_reset` takes for an operation and a credit. -/
def Acceptable (operation : Uuid) (credit : String) : Prop :=
  operation ≠ 0 ∧ (trim credit).isEmpty = false ∧ credit.utf8ByteSize ≤ 512

instance (operation : Uuid) (credit : String) : Decidable (Acceptable operation credit) :=
  inferInstanceAs (Decidable (_ ∧ _ ∧ _))

/-- A row says twice what it is about, and is completed when it has a result. -/
structure OperationRow.Sound (id : Uuid) (row : OperationRow) : Prop where
  named : row.data.id = id
  account : row.data.accountId = row.accountId
  completed : row.completed = row.data.result.isSome
  acceptable : Acceptable id row.data.creditId

/-- The reset tables, and the rows of `accounts` they refer to. -/
structure ResetTables where
  accounts : List Uuid
  /-- `account_reset_credits`. -/
  credits : FiniteMap Uuid ResetCredits
  /-- `account_reset_operations`, under its primary key. -/
  operations : FiniteMap Uuid OperationRow

namespace ResetTables

/-- `resets.rs:27`. -/
def saveResetCredits (t : ResetTables) (id : Uuid) (credits : ResetCredits) :
    Result (ResetTables × Unit) :=
  if id ∈ t.accounts then .ok ({ t with credits := t.credits.insert id credits }, ())
  else .error .storage

/-- `resets.rs:32`: the operation of the account with the id, or its first one that is not
completed. -/
def resetOperation (t : ResetTables) (id : Uuid) : Option Uuid → Option ResetOperation
  | none => (t.operations.values.find? fun row ↦ row.accountId == id && !row.completed).map (·.data)
  | some operation =>
    ((t.operations.lookup operation).filter fun row ↦ row.accountId == id).map (·.data)

/-- Write a row. -/
def put (t : ResetTables) (id : Uuid) (row : OperationRow) : ResetTables :=
  { t with operations := t.operations.insert id row }

/-- `resets.rs:41`: the insert fails on the primary key, on the foreign key and on the index
`one_pending_reset_per_account`. -/
def beginReset (t : ResetTables) (operation : ResetOperation) : Result (ResetTables × Unit) :=
  if operation.id ∈ t.operations then .error .storage
  else if operation.accountId ∉ t.accounts then .error .storage
  else if t.operations.values.any fun row ↦ row.accountId == operation.accountId && !row.completed
    then .error .storage
  else .ok (t.put operation.id ⟨operation.accountId, false, operation⟩, ())

/-- `resets.rs:63`. -/
def finishReset (t : ResetTables) (operation : ResetOperation) : Result (ResetTables × Unit) :=
  match (t.operations.lookup operation.id).filter fun row ↦
      row.accountId == operation.accountId && !row.completed with
  | none => .error .conflict
  | some row => .ok (t.put operation.id ⟨row.accountId, true, operation⟩, ())

/-! ### What the tables promise -/

/-- The rows are sound, and an account has at most one that is not completed. -/
structure Sound (t : ResetTables) : Prop where
  rows : ∀ id row, t.operations.lookup id = some row → row.Sound id
  single : ∀ id row id' row', t.operations.lookup id = some row →
    t.operations.lookup id' = some row' → row.accountId = row'.accountId →
    row.completed = false → row'.completed = false → id = id'

/-- Later tables: no row is gone or about something else, and completed rows are as they were. -/
def Grows (t t' : ResetTables) : Prop :=
  ∀ id row, t.operations.lookup id = some row → ∃ row', t'.operations.lookup id = some row' ∧
    row'.accountId = row.accountId ∧ row'.data.creditId = row.data.creditId ∧
    (row.completed = true → row' = row)

variable {t t' t'' : ResetTables}

/-- Tables are later ones of themselves. -/
theorem Grows.refl (t : ResetTables) : Grows t t := fun _ row h ↦ ⟨row, h, rfl, rfl, fun _ ↦ rfl⟩

/-- Tables with the same operations are later ones of each other. -/
theorem Grows.of_operations (h : t'.operations = t.operations) : Grows t t' := by
  intro id row hl
  exact ⟨row, by rw [h, hl], rfl, rfl, fun _ ↦ rfl⟩

/-- Soundness is about the operations only. -/
theorem Sound.of_operations (hs : Sound t) (h : t'.operations = t.operations) : Sound t' := by
  constructor
  · rw [h]
    exact hs.rows
  · rw [h]
    exact hs.single

/-- What a look-up of an operation finds. -/
theorem resetOperation_eq_some {id operation : Uuid} {o : ResetOperation} :
    t.resetOperation id (some operation) = some o ↔
      ∃ row, t.operations.lookup operation = some row ∧ row.accountId = id ∧ row.data = o := by
  simp only [resetOperation, Option.map_eq_some_iff, Option.filter_eq_some_iff, beq_iff_eq]
  constructor
  · rintro ⟨row, ⟨hl, ha⟩, rfl⟩
    exact ⟨row, hl, ha, rfl⟩
  · rintro ⟨row, hl, ha, rfl⟩
    exact ⟨row, ⟨hl, ha⟩, rfl⟩

/-- A look-up of an operation depends on its row alone. -/
theorem resetOperation_congr {id operation : Uuid}
    (h : ∀ row, row.accountId = id →
      (t'.operations.lookup operation = some row ↔ t.operations.lookup operation = some row)) :
    t'.resetOperation id (some operation) = t.resetOperation id (some operation) := by
  ext o
  rw [resetOperation_eq_some, resetOperation_eq_some]
  refine exists_congr fun row ↦ ?_
  constructor
  · rintro ⟨hl, ha, ho⟩
    exact ⟨(h row ha).mp hl, ha, ho⟩
  · rintro ⟨hl, ha, ho⟩
    exact ⟨(h row ha).mpr hl, ha, ho⟩

/-- Saving a list of credits leaves the journal alone. -/
theorem saveResetCredits_eq_ok {id : Uuid} {credits : ResetCredits} {a : Unit}
    (h : t.saveResetCredits id credits = .ok (t', a)) : t'.operations = t.operations := by
  unfold saveResetCredits at h
  split at h
  · cases h
    rfl
  · cases h

/-- When an operation is begun. -/
theorem beginReset_eq_ok {operation : ResetOperation} {a : Unit}
    (h : t.beginReset operation = .ok (t', a)) :
    t.operations.lookup operation.id = none ∧
      (∀ id row, t.operations.lookup id = some row → row.accountId = operation.accountId →
        row.completed = true) ∧
      t' = t.put operation.id ⟨operation.accountId, false, operation⟩ := by
  unfold beginReset at h
  split at h
  · cases h
  · next hn =>
    split at h
    · cases h
    · split at h
      · cases h
      · next hpending =>
        cases h
        refine ⟨AList.lookup_eq_none.mpr hn, fun id row hl ha ↦ ?_, rfl⟩
        by_contra hc
        refine hpending (List.any_eq_true.mpr ⟨row, (mem_values _ _).mpr ⟨id, hl⟩, ?_⟩)
        rw [ha, beq_self_eq_true, Bool.true_and, Bool.not_eq_true'] at *
        exact Bool.eq_false_iff.mpr hc

/-- When an operation is finished. -/
theorem finishReset_eq_ok {operation : ResetOperation} {a : Unit}
    (h : t.finishReset operation = .ok (t', a)) :
    ∃ row, t.operations.lookup operation.id = some row ∧ row.accountId = operation.accountId ∧
      row.completed = false ∧ t' = t.put operation.id ⟨row.accountId, true, operation⟩ := by
  unfold finishReset at h
  split at h
  · cases h
  · next row hrow =>
    cases h
    obtain ⟨hl, hr⟩ := Option.filter_eq_some_iff.mp hrow
    simp only [Bool.and_eq_true, beq_iff_eq, Bool.not_eq_true'] at hr
    exact ⟨row, hl, hr.1, hr.2, rfl⟩

/-- A row that is put stands under its id, and the others where they were. -/
theorem lookup_put (t : ResetTables) (id id' : Uuid) (row : OperationRow) :
    (t.put id row).operations.lookup id' =
      if id' = id then some row else t.operations.lookup id' :=
  lookup_insert_ite _ _ _ _

/-- A row that is written over one of its own account leaves other accounts alone. -/
theorem resetOperation_put {key id operation : Uuid} {row : OperationRow}
    (hold : ∀ old, t.operations.lookup key = some old → old.accountId = row.accountId)
    (hne : id ≠ row.accountId) :
    (t.put key row).resetOperation id (some operation) = t.resetOperation id (some operation) := by
  refine resetOperation_congr fun other ha ↦ ?_
  rw [lookup_put]
  split
  · next hk =>
    subst hk
    constructor
    · intro h
      cases h
      exact absurd ha.symm hne
    · intro h
      exact absurd (ha.symm.trans (hold other h)) hne
  · exact Iff.rfl

/-- Beginning an operation keeps the tables sound. -/
theorem Sound.beginReset (hs : Sound t) {operation : ResetOperation} {a : Unit}
    (h : t.beginReset operation = .ok (t', a)) (hr : operation.result = none)
    (ha : Acceptable operation.id operation.creditId) : Sound t' ∧ Grows t t' := by
  obtain ⟨hnew, hcompleted, rfl⟩ := beginReset_eq_ok h
  refine ⟨⟨?_, ?_⟩, ?_⟩
  · intro id row hl
    rw [lookup_put] at hl
    split at hl
    · next hid =>
      cases hl
      exact ⟨hid.symm, rfl, by rw [hr]; rfl, hid ▸ ha⟩
    · exact hs.rows id row hl
  · -- the index keeps a second unresolved operation of the account out
    intro id row id' row' hl hl' hacc hc hc'
    rw [lookup_put] at hl hl'
    split at hl
    · next hid =>
      cases hl
      split at hl'
      · next hid' => rw [hid, hid']
      · rw [hcompleted id' row' hl' hacc.symm] at hc'
        cases hc'
    · split at hl'
      · cases hl'
        rw [hcompleted id row hl hacc] at hc
        cases hc
      · exact hs.single id row id' row' hl hl' hacc hc hc'
  · intro id row hl
    refine ⟨row, ?_, rfl, rfl, fun _ ↦ rfl⟩
    rw [lookup_put, if_neg]
    · exact hl
    · rintro rfl
      cases hnew.symm.trans hl

/-- Finishing an operation with a result keeps the tables sound. -/
theorem Sound.finishReset (hs : Sound t) {operation : ResetOperation} {a : Unit}
    (h : t.finishReset operation = .ok (t', a)) (hr : operation.result.isSome = true)
    (hc : ∀ row, t.operations.lookup operation.id = some row →
      row.data.creditId = operation.creditId) : Sound t' ∧ Grows t t' := by
  obtain ⟨old, hold, hacc, hopen, rfl⟩ := finishReset_eq_ok h
  refine ⟨⟨?_, ?_⟩, ?_⟩
  · intro id row hl
    rw [lookup_put] at hl
    split at hl
    · next hid =>
      cases hl
      subst hid
      refine ⟨rfl, hacc.symm, hr.symm, ?_⟩
      have ha := (hs.rows _ _ hold).acceptable
      rw [hc old hold] at ha
      exact ha
    · exact hs.rows id row hl
  · intro id row id' row' hl hl' hsame hn hn'
    rw [lookup_put] at hl hl'
    split at hl
    · cases hl
      cases hn
    · split at hl'
      · cases hl'
        cases hn'
      · exact hs.single id row id' row' hl hl' hsame hn hn'
  · intro id row hl
    by_cases hid : id = operation.id
    · subst hid
      cases hold.symm.trans hl
      refine ⟨⟨old.accountId, true, operation⟩, ?_, rfl, (hc _ hl).symm, fun hd ↦ ?_⟩
      · rw [lookup_put, if_pos rfl]
      · rw [hopen] at hd
        cases hd
    · exact ⟨row, by rw [lookup_put, if_neg hid, hl], rfl, rfl, fun _ ↦ rfl⟩

end ResetTables
end Xxgate.Resets

import Xxgate.Base.FiniteMap
import Xxgate.Core.Quota
import Xxgate.Store.State

/-!
# The account tables

`crates/xxgate-postgres/src/accounts.rs` with its SQL: the accounts with their sealed
credentials, the current quota windows and the extra credits, and each transaction on them
as one function. A deleted account keeps its row.
-/

namespace Xxgate.Store

open Xxgate.Base Xxgate.Base.FiniteMap Xxgate.Core

/-- `access.rs:51`: credentials as `CredentialCipher::encrypt` seals them for an account. -/
structure Sealed where
  accountId : Uuid
  credentials : Credentials
  deriving DecidableEq

/-- `access.rs:51`. -/
def encrypt (accountId : Uuid) (credentials : Credentials) : Sealed := ⟨accountId, credentials⟩

/-- `access.rs:68`: what was sealed for an account opens for that account only. -/
def decrypt (accountId : Uuid) (encrypted : Sealed) : Result Credentials :=
  if encrypted.accountId = accountId then .ok encrypted.credentials
  else .error ⟨500, "credential_decryption_failed", "Credential key does not match stored data"⟩

/-- A row of `accounts`. -/
structure AccountRow where
  data : Account
  credentials : Sealed
  deleted : Bool
  deriving DecidableEq

/-- The account tables. -/
structure AccountTables where
  /-- The ids in `routing_groups`. -/
  groups : List Uuid
  accounts : FiniteMap Uuid AccountRow
  /-- `account_current_quotas`, by account, pool and window. -/
  quotas : FiniteMap (Uuid × String × Int) QuotaWindow
  extraCredits : FiniteMap Uuid ExtraCredits

/-- The tables and the answer after a transaction with the given outcome. -/
def conclude {σ α : Type} (outcome : Outcome) (s : σ) (transaction : Result (σ × α)) :
    σ × Result α :=
  match outcome, transaction with
  | .answered, .ok (s', a) => (s', .ok a)
  | .lost, .ok (s', _) => (s', .error .storage)
  | .failed, _ => (s, .error .storage)
  | _, .error x => (s, .error x)

/-- Either nothing happened and the answer is an error, or the transaction took effect and
the answer is its own or was lost. -/
theorem conclude_cases {σ α : Type} (outcome : Outcome) (s : σ) (transaction : Result (σ × α)) :
    (∃ x, conclude outcome s transaction = (s, .error x)) ∨
      ∃ s' a, transaction = .ok (s', a) ∧
        (conclude outcome s transaction = (s', .ok a) ∧ outcome = .answered ∨
          conclude outcome s transaction = (s', .error .storage) ∧ outcome = .lost) := by
  cases transaction with
  | error x => cases outcome <;> exact .inl ⟨_, rfl⟩
  | ok p =>
    obtain ⟨s', a⟩ := p
    cases outcome with
    | answered => exact .inr ⟨s', a, rfl, .inl ⟨rfl, rfl⟩⟩
    | lost => exact .inr ⟨s', a, rfl, .inr ⟨rfl, rfl⟩⟩
    | failed => exact .inl ⟨_, rfl⟩

namespace AccountTables

/-- The row of an account that is not deleted. -/
def live (t : AccountTables) (id : Uuid) : Option AccountRow :=
  (t.accounts.lookup id).filter (!·.deleted)

/-- The row of an account that is not deleted, or an error. -/
def find (t : AccountTables) (id : Uuid) : Result AccountRow :=
  (t.live id).elim (.error .notFound) .ok

/-- Write a row. -/
def put (t : AccountTables) (row : AccountRow) : AccountTables :=
  { t with accounts := t.accounts.insert row.data.id row }

/-- `groups.rs:33`. -/
def validateGroups (t : AccountTables) (ids : List Uuid) : Result Unit :=
  if ids.any (· ∉ t.groups) then
    .error ⟨400, "group_not_found", "One or more selected groups do not exist"⟩
  else .ok ()

/-- `accounts.rs:120`: the accounts that are not deleted. -/
def listed (t : AccountTables) : List Account :=
  (t.accounts.values.filter (!·.deleted)).map (·.data)

/-- `accounts.rs:71`. -/
def saveModelCatalog (t : AccountTables) (id : Uuid) (catalog : AccountModelCatalog) :
    Result (AccountTables × Account) := do
  let row ← t.find id
  let account := { row.data with modelCatalog := some catalog }
  return (t.put { row with data := account }, account)

/-- `accounts.rs:95`. -/
def deleteAccount (t : AccountTables) (id : Uuid) : Result (AccountTables × Unit) := do
  let row ← t.find id
  let account := { row.data with
    enabled := false
    disableReason := some .adminDisabled
    version := row.data.version + 1 }
  return (t.put { row with data := account, deleted := true }, ())

/-- `accounts.rs:129`. -/
def putAccount (t : AccountTables) (account : Account) (encrypted : Option Sealed)
    (expectedVersion : Option Int) : Result (AccountTables × Account) := do
  t.validateGroups account.groupIds
  match expectedVersion with
  | some expected =>
    let row ← t.find account.id
    if row.data.version ≠ expected then throw .conflict
    let account := { account with
      version := expected + 1
      credentialVersion := row.data.credentialVersion + if encrypted.isSome then 1 else 0 }
    return (t.put ⟨account, encrypted.getD row.credentials, false⟩, account)
  | none =>
    let account := { account with version := 1, credentialVersion := 1 }
    let encrypted ← encrypted.elim (.error (.invalid "Credentials are required")) .ok
    if account.id ∈ t.accounts then throw .storage
    return (t.put ⟨account, encrypted, false⟩, account)

/-- `accounts.rs:190`. -/
def updateCredentials (t : AccountTables) (id : Uuid) (encrypted : Sealed)
    (expiresAt : Option Int) (expectedVersion : Int) : Result (AccountTables × Account) := do
  let row ← t.find id
  if row.data.credentialVersion ≠ expectedVersion then throw .conflict
  let account := { row.data with
    credentialVersion := row.data.credentialVersion + 1
    credentialExpiresAt := expiresAt }
  return (t.put { row with data := account, credentials := encrypted }, account)

/-- `accounts.rs:217`. -/
def setEnabled (t : AccountTables) (id : Uuid) (enabled : Bool) (reason : Option DisableReason)
    (expectedVersion : Int) : Result (AccountTables × Account) := do
  let row ← t.find id
  if row.data.version ≠ expectedVersion then throw .conflict
  let account := { row.data with
    version := row.data.version + 1
    enabled := enabled
    disableReason := if enabled then none else reason }
  return (t.put { row with data := account }, account)

/-- `accounts.rs:183`. -/
def credentials (t : AccountTables) (id : Uuid) : Result Sealed :=
  (t.find id).map (·.credentials)

/-- `accounts.rs:345`, with the trigger of `0018_current_quotas.sql`: a late observation does
not replace a newer one. -/
def saveQuota (t : AccountTables) (id : Uuid) (w : QuotaWindow) : AccountTables :=
  let key := (id, w.pool, w.windowMinutes.getD (-1))
  if (t.quotas.lookup key).all (·.observedAt ≤ w.observedAt) then
    { t with quotas := t.quotas.insert key w }
  else t

/-- `accounts.rs:342`. The windows belong to a row of `accounts`. -/
def saveQuotas (t : AccountTables) (id : Uuid) (windows : List QuotaWindow) :
    Result (AccountTables × Unit) :=
  if id ∈ t.accounts ∨ windows = [] then .ok (windows.foldl (·.saveQuota id) t, ())
  else .error .storage

/-- `accounts.rs:350`. -/
def quotasOf (t : AccountTables) (id : Uuid) : List QuotaWindow :=
  (t.quotas.filter fun key _ ↦ key.1 = id).values

/-- `accounts.rs:330`. The credits belong to a row of `accounts`, and a late observation does
not replace a newer one. -/
def saveExtraCredits (t : AccountTables) (id : Uuid) (c : ExtraCredits) :
    Result (AccountTables × Unit) :=
  if id ∉ t.accounts then .error .storage
  else if (t.extraCredits.lookup id).all (·.observedAt ≤ c.observedAt) then
    .ok ({ t with extraCredits := t.extraCredits.insert id c }, ())
  else .ok (t, ())

/-! ### What the transactions do -/

/-- The row found is the one that is not deleted. -/
theorem find_eq_ok {t : AccountTables} {id : Uuid} {row : AccountRow} :
    t.find id = .ok row ↔ t.live id = some row := by
  unfold find
  cases t.live id with
  | none => simp
  | some r => simp

/-- A row that is not deleted is in the table. -/
theorem live_eq_some {t : AccountTables} {id : Uuid} {row : AccountRow} :
    t.live id = some row ↔ t.accounts.lookup id = some row ∧ row.deleted = false := by
  rw [live, Option.filter_eq_some_iff]
  simp

/-- What is stored under an id has that id. -/
def Keyed (t : AccountTables) : Prop :=
  ∀ id row, t.accounts.lookup id = some row → row.data.id = id

/-- A written row is the row of its account. -/
theorem lookup_put (t : AccountTables) (row : AccountRow) (id : Uuid) :
    (t.put row).accounts.lookup id =
      if id = row.data.id then some row else t.accounts.lookup id :=
  lookup_insert_ite t.accounts row.data.id id row

/-- A written row leaves the others alone. -/
theorem live_put (t : AccountTables) (row : AccountRow) (id : Uuid) :
    (t.put row).live id =
      if id = row.data.id then (if row.deleted then none else some row) else t.live id := by
  unfold live
  rw [lookup_put]
  split
  · cases hd : row.deleted <;> simp [Option.filter, hd]
  · rfl

/-- Writing keeps the keys right. -/
theorem Keyed.put {t : AccountTables} (h : t.Keyed) (row : AccountRow) : (t.put row).Keyed := by
  intro id row' hl
  rw [lookup_put] at hl
  split at hl
  · next hi =>
    cases hl
    exact hi.symm
  · exact h id row' hl

/-- An account is listed when its row is not deleted. -/
theorem mem_listed {t : AccountTables} (h : t.Keyed) (a : Account) :
    a ∈ t.listed ↔ ∃ row, t.live a.id = some row ∧ row.data = a := by
  simp only [listed, List.mem_map, List.mem_filter, mem_values, live_eq_some]
  constructor
  · rintro ⟨row, ⟨⟨id, hl⟩, hd⟩, rfl⟩
    obtain rfl := h id row hl
    exact ⟨row, ⟨hl, by simpa using hd⟩, rfl⟩
  · rintro ⟨row, ⟨hl, hd⟩, rfl⟩
    exact ⟨row, ⟨⟨_, hl⟩, by simpa using hd⟩, rfl⟩

/-- A catalog is saved with the live account, and changes nothing else of it. -/
theorem saveModelCatalog_ok {t t' : AccountTables} {id : Uuid} {catalog : AccountModelCatalog}
    {a : Account} (h : t.saveModelCatalog id catalog = .ok (t', a)) :
    ∃ row, t.live id = some row ∧ a = { row.data with modelCatalog := some catalog } ∧
      t' = t.put { row with data := a } := by
  unfold saveModelCatalog at h
  cases hf : t.find id with
  | error x =>
    rw [hf] at h
    cases h
  | ok row =>
    rw [hf] at h
    cases h
    exact ⟨row, find_eq_ok.mp hf, rfl, rfl⟩

/-- An account that is deleted is a live one, and its row stays, disabled. -/
theorem deleteAccount_ok {t t' : AccountTables} {id : Uuid} {u : Unit}
    (h : t.deleteAccount id = .ok (t', u)) :
    ∃ row a, t.live id = some row ∧
      a = { row.data with
        enabled := false
        disableReason := some .adminDisabled
        version := row.data.version + 1 } ∧
      t' = t.put { row with data := a, deleted := true } := by
  unfold deleteAccount at h
  cases hf : t.find id with
  | error x =>
    rw [hf] at h
    cases h
  | ok row =>
    rw [hf] at h
    cases h
    exact ⟨row, _, find_eq_ok.mp hf, rfl, rfl⟩

/-- An update needs the expected version and keeps what belongs to the credentials. -/
theorem putAccount_update_ok {t t' : AccountTables} {account a : Account}
    {encrypted : Option Sealed} {expected : Int}
    (h : t.putAccount account encrypted (some expected) = .ok (t', a)) :
    ∃ row, t.live account.id = some row ∧ row.data.version = expected ∧
      a = { account with
        version := expected + 1
        credentialVersion := row.data.credentialVersion + if encrypted.isSome then 1 else 0 } ∧
      t' = t.put ⟨a, encrypted.getD row.credentials, false⟩ := by
  unfold putAccount at h
  cases hg : t.validateGroups account.groupIds with
  | error x =>
    rw [hg] at h
    cases h
  | ok u =>
    rw [hg] at h
    cases hf : t.find account.id with
    | error x =>
      simp only [hf] at h
      cases h
    | ok row =>
      simp only [hf] at h
      by_cases hv : row.data.version = expected
      · simp only [bind, Except.bind, hv, ne_eq, not_true_eq_false, if_false, pure,
          Except.pure] at h
        cases h
        exact ⟨row, find_eq_ok.mp hf, hv, rfl, rfl⟩
      · simp only [bind, Except.bind, ne_eq, hv, not_false_eq_true, if_true] at h
        cases h

/-- A creation needs credentials and an id without a row. -/
theorem putAccount_create_ok {t t' : AccountTables} {account a : Account}
    {encrypted : Option Sealed} (h : t.putAccount account encrypted none = .ok (t', a)) :
    t.accounts.lookup account.id = none ∧
      a = { account with version := 1, credentialVersion := 1 } ∧
      ∃ e, encrypted = some e ∧ t' = t.put ⟨a, e, false⟩ := by
  unfold putAccount at h
  cases hg : t.validateGroups account.groupIds with
  | error x =>
    rw [hg] at h
    cases h
  | ok u =>
    rw [hg] at h
    cases encrypted with
    | none => cases h
    | some e =>
      by_cases hm : account.id ∈ t.accounts
      · simp only [bind, Except.bind, Option.elim_some, hm, if_true] at h
        cases h
      · simp only [bind, Except.bind, Option.elim_some, hm, if_false, pure, Except.pure] at h
        cases h
        exact ⟨AList.lookup_eq_none.mpr hm, rfl, e, rfl, rfl⟩

/-- New credentials replace those of the expected version. -/
theorem updateCredentials_ok {t t' : AccountTables} {id : Uuid} {encrypted : Sealed}
    {expiresAt : Option Int} {expected : Int} {a : Account}
    (h : t.updateCredentials id encrypted expiresAt expected = .ok (t', a)) :
    ∃ row, t.live id = some row ∧ row.data.credentialVersion = expected ∧
      a = { row.data with
        credentialVersion := row.data.credentialVersion + 1
        credentialExpiresAt := expiresAt } ∧
      t' = t.put { row with data := a, credentials := encrypted } := by
  unfold updateCredentials at h
  cases hf : t.find id with
  | error x =>
    rw [hf] at h
    cases h
  | ok row =>
    rw [hf] at h
    by_cases hv : row.data.credentialVersion = expected
    · subst hv
      simp only [bind, Except.bind, ne_eq, not_true_eq_false, if_false, pure, Except.pure] at h
      cases h
      exact ⟨row, find_eq_ok.mp hf, rfl, rfl, rfl⟩
    · simp only [bind, Except.bind, ne_eq, hv, not_false_eq_true, if_true] at h
      cases h

/-- Enabling or disabling makes the next version of the live account. -/
theorem setEnabled_ok {t t' : AccountTables} {id : Uuid} {enabled : Bool}
    {reason : Option DisableReason} {expected : Int} {a : Account}
    (h : t.setEnabled id enabled reason expected = .ok (t', a)) :
    ∃ row, t.live id = some row ∧ row.data.version = expected ∧
      a = { row.data with
        version := row.data.version + 1
        enabled := enabled
        disableReason := if enabled then none else reason } ∧
      t' = t.put { row with data := a } := by
  unfold setEnabled at h
  cases hf : t.find id with
  | error x =>
    rw [hf] at h
    cases h
  | ok row =>
    rw [hf] at h
    by_cases hv : row.data.version = expected
    · subst hv
      simp only [bind, Except.bind, ne_eq, not_true_eq_false, if_false, pure, Except.pure] at h
      cases h
      exact ⟨row, find_eq_ok.mp hf, rfl, rfl, rfl⟩
    · simp only [bind, Except.bind, ne_eq, hv, not_false_eq_true, if_true] at h
      cases h

/-- Saving quota windows changes nothing else. -/
theorem saveQuotas_ok {t t' : AccountTables} {id : Uuid} {windows : List QuotaWindow} {u : Unit}
    (h : t.saveQuotas id windows = .ok (t', u)) :
    t'.accounts = t.accounts ∧ t'.groups = t.groups ∧ t'.extraCredits = t.extraCredits := by
  unfold saveQuotas at h
  split at h
  · cases h
    clear * -
    induction windows generalizing t with
    | nil => exact ⟨rfl, rfl, rfl⟩
    | cons w windows ih =>
      rw [List.foldl_cons]
      obtain ⟨ha, hg, he⟩ := ih (t := t.saveQuota id w)
      rw [ha, hg, he]
      unfold saveQuota
      dsimp only
      split
      · exact ⟨rfl, rfl, rfl⟩
      · exact ⟨rfl, rfl, rfl⟩
  · cases h

/-- Saving extra credits changes nothing else. -/
theorem saveExtraCredits_ok {t t' : AccountTables} {id : Uuid} {c : ExtraCredits} {u : Unit}
    (h : t.saveExtraCredits id c = .ok (t', u)) :
    t'.accounts = t.accounts ∧ t'.groups = t.groups ∧ t'.quotas = t.quotas := by
  unfold saveExtraCredits at h
  split at h
  · cases h
  · split at h
    · cases h
      exact ⟨rfl, rfl, rfl⟩
    · cases h
      exact ⟨rfl, rfl, rfl⟩

end AccountTables
end Xxgate.Store

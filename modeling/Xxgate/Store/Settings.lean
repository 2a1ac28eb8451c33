import Mathlib.Data.Rat.Floor
import Xxgate.Core.Protocol
import Xxgate.Core.Settings
import Xxgate.Core.Usage
import Xxgate.Store.Accounts

/-!
# The configuration tables

`crates/xxgate-postgres/src/settings.rs` with its SQL: the settings, the model catalogue and
the search prices. Each is written by a transaction that names the version it was made from
and fails when another one was written since.
-/

namespace Xxgate.Core

/-- `providers.rs:55`. -/
def ModelSpec.validate (m : ModelSpec) : Result Unit :=
  if m.id.isEmpty || 160 < m.id.utf8ByteSize || m.upstream.model.isEmpty ||
      160 < m.upstream.model.utf8ByteSize then
    .error (.invalid "Invalid model name")
  else if m.upstream.provider ≠ "openai" || m.upstream.accessKind ≠ "codex_oauth" then
    .error (.invalid "Only Codex OAuth is implemented")
  else .ok ()

/-- `pricing.rs:103`. -/
def SearchPrice.validate (p : SearchPrice) : Result Unit :=
  if p.perCall.any fun v ↦ v < 0 || 1000000 < v || (v * 10 ^ 8).den ≠ 1 then
    .error (.invalid "Search 单价应为 0 至 1000000 元，最多 8 位小数")
  else .ok ()

end Xxgate.Core

namespace Xxgate.Store

open Xxgate.Base Xxgate.Base.FiniteMap Xxgate.Base.Fallible Xxgate.Core

/-- A row of a table whose rows have versions. -/
structure Versioned (α : Type) where
  version : Int
  data : α
  deriving DecidableEq

/-- The configuration tables. -/
structure ConfigTables where
  /-- The one row of `settings`. -/
  settings : Option (Versioned Settings)
  /-- `model_catalog`, by model id. -/
  models : FiniteMap String (Versioned ModelSpec)
  /-- `search_prices`, newest first. -/
  searchPrices : List (Versioned SearchPrice)
  /-- The last value of the serial column `search_prices.version`. -/
  serial : Int

namespace ConfigTables

/-- The tables of a new database. -/
def initial : ConfigTables := ⟨none, ∅, [], 0⟩

/-- `settings.rs:66`: the settings, which are the default ones until some are saved. -/
def readSettings (t : ConfigTables) : ConfigTables × Settings :=
  match t.settings with
  | some row => (t, row.data)
  | none => ({ t with settings := some ⟨1, .default⟩ }, .default)

/-- `settings.rs:81`. -/
def saveSettings (t : ConfigTables) (settings : Settings) (expectedVersion : Int) :
    Result (ConfigTables × Settings) := do
  settings.validate
  let next := { settings with version := expectedVersion + 1 }
  match t.settings with
  | none => throw .storage
  | some row =>
    if row.version ≠ expectedVersion then throw .conflict
    return ({ t with settings := some ⟨next.version, next⟩ }, next)

/-- `settings.rs:131`; the version the model was made from comes beside it. `FOR UPDATE` locks no
row that is absent, so that two first versions of one model are kept apart by the `mutations` lock
of the callers only. -/
def putModel (t : ConfigTables) (model : ModelSpec) (version : Int) :
    Result (ConfigTables × Versioned ModelSpec) := do
  model.validate
  if ((t.models.lookup model.id).elim 0 (·.version)) ≠ version then throw .conflict
  let row := ⟨version + 1, model⟩
  return ({ t with models := t.models.insert model.id row }, row)

/-- `settings.rs:22`. The serial column skips the values that failed transactions drew. -/
def putSearchPrice (t : ConfigTables) (price : SearchPrice) (skipped : Nat) :
    Result (ConfigTables × SearchPrice) := do
  price.validate
  if ((t.searchPrices.map (·.version)).max?.getD 0) ≠ price.version then throw .conflict
  let version := t.serial + skipped + 1
  let next := { price with version := version }
  return ({ t with searchPrices := ⟨version, next⟩ :: t.searchPrices, serial := version }, next)

/-! ### What the transactions do -/

variable {t t' : ConfigTables}

/-- The settings that are read are stored, or become so. -/
theorem readSettings_cases {settings : Settings} (h : t.readSettings = (t', settings)) :
    (∃ row, t.settings = some row ∧ t' = t ∧ settings = row.data) ∨
      t.settings = none ∧ t' = { t with settings := some ⟨1, .default⟩ } ∧
        settings = .default := by
  unfold readSettings at h
  split at h
  · next row hrow =>
    cases h
    exact .inl ⟨row, hrow, rfl, rfl⟩
  · next hnone =>
    cases h
    exact .inr ⟨hnone, rfl, rfl⟩

/-- Settings that are saved passed their checks, follow the stored ones, and leave the rest of
the configuration alone. -/
theorem saveSettings_ok {settings next : Settings} {expected : Int}
    (h : t.saveSettings settings expected = .ok (t', next)) : settings.validate = .ok () ∧
      (∃ row, t.settings = some row ∧ row.version = expected) ∧
      next = { settings with version := expected + 1 } ∧
      t' = { t with settings := some ⟨expected + 1, next⟩ } := by
  unfold saveSettings at h
  obtain ⟨_, hvalid, h⟩ := bind_ok.mp h
  split at h
  · cases h
  · next row hrow =>
    split at h
    · cases h
    · next hv =>
      cases h
      exact ⟨hvalid, ⟨row, hrow, not_not.mp hv⟩, rfl, rfl⟩

/-- A model that is saved follows the stored one. -/
theorem putModel_ok {model : ModelSpec} {version : Int} {row : Versioned ModelSpec}
    (h : t.putModel model version = .ok (t', row)) :
      (t.models.lookup model.id).elim 0 (·.version) = version ∧ row = ⟨version + 1, model⟩ ∧
      t' = { t with models := t.models.insert model.id row } := by
  unfold putModel at h
  obtain ⟨_, -, h⟩ := bind_ok.mp h
  split at h
  · cases h
  · next hv =>
    cases h
    exact ⟨not_not.mp hv, rfl, rfl⟩

/-- A search price that is saved follows the newest one. -/
theorem putSearchPrice_ok {price next : SearchPrice} {skipped : Nat}
    (h : t.putSearchPrice price skipped = .ok (t', next)) :
      (t.searchPrices.map (·.version)).max?.getD 0 = price.version ∧
      next = { price with version := t.serial + skipped + 1 } ∧
      t' = { t with
        searchPrices := ⟨t.serial + skipped + 1, next⟩ :: t.searchPrices
        serial := t.serial + skipped + 1 } := by
  unfold putSearchPrice at h
  obtain ⟨_, -, h⟩ := bind_ok.mp h
  split at h
  · cases h
  · next hv =>
    cases h
    exact ⟨not_not.mp hv, rfl, rfl⟩

end ConfigTables
end Xxgate.Store

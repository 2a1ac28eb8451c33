import Xxgate.Base.Fallible
import Xxgate.Core.Json
import Xxgate.Store.Accounts

/-!
# The key and group tables

`crates/xxgate-postgres/src/access.rs` and `groups.rs` with their SQL and the constraints of
`0005_groups.sql`: the routing groups, the gateway keys in them, and which account belongs to
which group. A deleted key keeps its row, in the default group.
-/

namespace Xxgate.Store

open Xxgate.Base Xxgate.Base.FiniteMap Xxgate.Base.Fallible Xxgate.Core

/-- A row of `api_keys`. -/
structure KeyRow where
  data : GatewayKey
  name : String
  secretHash : String
  deleted : Bool
  deriving DecidableEq

/-- The key and group tables. -/
structure AccessTables where
  /-- `lower` in the collation of the database, which `routing_groups_name` is built with. -/
  lower : String → String
  /-- The names in `routing_groups`. -/
  groups : FiniteMap Uuid String
  keys : FiniteMap Uuid KeyRow
  /-- `account_groups`. -/
  memberships : List (Uuid × Uuid)

/-- `char::is_control`. -/
def isControlCharacter (c : Char) : Bool :=
  c.toNat < 0x20 || (0x7F ≤ c.toNat && c.toNat < 0xA0)

/-- `groups.rs:25` of the core crate. -/
def validateName (name : String) : Result Unit :=
  if (trim name).isEmpty || 128 < name.utf8ByteSize || name.toList.any isControlCharacter then
    .error (.invalid "Group name must contain 1 to 128 bytes without control characters")
  else .ok ()

namespace AccessTables

/-- The tables of a new database. -/
def initial (lower : String → String) : AccessTables :=
  ⟨lower, AList.insert DEFAULT_GROUP_ID "默认分组" ∅, ∅, []⟩

/-- `groups.rs:15`, on a unique violation. -/
def groupNameExists : Error :=
  ⟨409, "group_name_exists", "A group with this name already exists"⟩

/-- `groups.rs:20`, on a foreign key violation. -/
def groupInUse : Error :=
  ⟨409, "group_in_use", "Move the group's keys and accounts before deleting it"⟩

/-- `groups.rs:29`. -/
def validateGroups (t : AccessTables) (ids : List Uuid) : Result Unit :=
  if ids.any (· ∉ t.groups) then
    .error ⟨400, "group_not_found", "One or more selected groups do not exist"⟩
  else .ok ()

/-- Another group has the name, whatever its case. -/
def nameTaken (t : AccessTables) (id : Uuid) (name : String) : Bool :=
  t.groups.entries.any fun g ↦ g.1 ≠ id && t.lower g.2 = t.lower name

/-- A key, also a deleted one, or an account refers to the group. -/
def groupUsed (t : AccessTables) (id : Uuid) : Bool :=
  t.keys.values.any (·.data.groupId = id) || t.memberships.any (·.2 = id)

/-- `groups.rs:70`. -/
def createGroup (t : AccessTables) (id : Uuid) (name : String) : Result (AccessTables × Unit) := do
  validateName name
  if id ∈ t.groups ∨ t.nameTaken id (trim name) then throw groupNameExists
  return ({ t with groups := t.groups.insert id (trim name) }, ())

/-- `groups.rs:94`. -/
def renameGroup (t : AccessTables) (id : Uuid) (name : String) : Result (AccessTables × Unit) := do
  validateName name
  if id ∉ t.groups then throw .notFound
  else if t.nameTaken id (trim name) then throw groupNameExists
  else return ({ t with groups := t.groups.insert id (trim name) }, ())

/-- `groups.rs:121`. -/
def deleteGroup (t : AccessTables) (id : Uuid) : Result (AccessTables × Unit) :=
  if id = DEFAULT_GROUP_ID then
    .error ⟨409, "default_group_required", "The default group cannot be deleted"⟩
  else if id ∉ t.groups then .error .notFound
  else if t.groupUsed id then .error groupInUse
  else .ok ({ t with groups := t.groups.erase id }, ())

/-- The row of a key that is not deleted. -/
def live (t : AccessTables) (id : Uuid) : Option KeyRow := (t.keys.lookup id).filter (!·.deleted)

/-- The row of a key that is not deleted, or an error. -/
def find (t : AccessTables) (id : Uuid) : Result KeyRow :=
  (t.live id).elim (.error .notFound) .ok

/-- Write a row. -/
def put (t : AccessTables) (row : KeyRow) : AccessTables :=
  { t with keys := t.keys.insert row.data.id row }

/-- `access.rs:88`: the keys that are not deleted. -/
def listed (t : AccessTables) : List GatewayKey :=
  (t.keys.values.filter (!·.deleted)).map (·.data)

/-- `access.rs:68`. -/
def deleteKey (t : AccessTables) (id : Uuid) : Result (AccessTables × Unit) := do
  let row ← t.find id
  let key := { row.data with enabled := false, groupId := DEFAULT_GROUP_ID }
  return (t.put { row with data := key, deleted := true }, ())

/-- `access.rs:91`. -/
def putKey (t : AccessTables) (key : GatewayKey) (name hash : String) :
    Result (AccessTables × Unit) := do
  t.validateGroups [key.groupId]
  if key.id ∈ t.keys ∨ t.keys.values.any (·.secretHash = hash) then throw .storage
  return (t.put ⟨key, name, hash, false⟩, ())

/-- `access.rs:109`: the enabled key with the secret. -/
def keyByHash (t : AccessTables) (hash : String) : Option GatewayKey :=
  (t.keys.values.find? fun row ↦ row.secretHash = hash && row.data.enabled && !row.deleted).map
    (·.data)

/-- `access.rs:119`. -/
def setKeyEnabled (t : AccessTables) (id : Uuid) (enabled : Bool) :
    Result (AccessTables × GatewayKey) := do
  let row ← t.find id
  let key := { row.data with enabled := enabled }
  return (t.put { row with data := key }, key)

/-- `access.rs:145`. -/
def updateKey (t : AccessTables) (id : Uuid) (name : String) (groupId : Uuid) :
    Result (AccessTables × GatewayKey) := do
  t.validateGroups [groupId]
  let row ← t.find id
  let key := { row.data with groupId := groupId }
  return (t.put { row with data := key, name := name }, key)

/-- What `accounts.rs:129` does to the groups of an account. -/
def putAccountGroups (t : AccessTables) (accountId : Uuid) (ids : List Uuid) :
    Result (AccessTables × Unit) := do
  t.validateGroups ids
  if ¬ ids.Nodup then throw .storage
  let rest := t.memberships.filter (·.1 ≠ accountId)
  return ({ t with memberships := rest ++ ids.map (accountId, ·) }, ())

/-- What `accounts.rs:95` does to the groups of an account. -/
def deleteAccountGroups (t : AccessTables) (accountId : Uuid) : AccessTables :=
  { t with memberships := t.memberships.filter (·.1 ≠ accountId) }

/-! ### What the transactions do -/

variable {t t' : AccessTables} {id : Uuid} {row : KeyRow}

/-- The row found is the one that is not deleted. -/
theorem find_eq_ok : t.find id = .ok row ↔ t.live id = some row := by
  unfold find
  cases t.live id with
  | none => simp
  | some r => simp

/-- A row that is not deleted is in the table. -/
theorem live_eq_some :
    t.live id = some row ↔ t.keys.lookup id = some row ∧ row.deleted = false := by
  rw [live, Option.filter_eq_some_iff]
  simp

/-- What is stored under an id has that id. -/
def Keyed (t : AccessTables) : Prop := ∀ id row, t.keys.lookup id = some row → row.data.id = id

/-- A written row is the row of its key. -/
theorem lookup_put (t : AccessTables) (row : KeyRow) (id : Uuid) :
    (t.put row).keys.lookup id = if id = row.data.id then some row else t.keys.lookup id :=
  lookup_insert_ite t.keys row.data.id id row

/-- A written row is the live one unless it is deleted, and leaves the others alone. -/
theorem live_put (t : AccessTables) (row : KeyRow) (id : Uuid) :
    (t.put row).live id =
      if id = row.data.id then if row.deleted then none else some row else t.live id := by
  unfold live
  rw [lookup_put]
  split
  · cases hd : row.deleted <;> simp [hd]
  · rfl

/-- A row that is put stands under its own id. -/
theorem Keyed.put (h : t.Keyed) (row : KeyRow) : (t.put row).Keyed := by
  intro id r hl
  rw [lookup_put] at hl
  split at hl
  · next hid =>
    cases hl
    exact hid.symm
  · exact h id r hl

/-- The listed keys are those of the live rows. -/
theorem mem_listed (h : t.Keyed) (key : GatewayKey) :
    key ∈ t.listed ↔ (t.live key.id).map (·.data) = some key := by
  unfold listed
  rw [List.mem_map, Option.map_eq_some_iff]
  constructor
  · rintro ⟨r, hr, rfl⟩
    obtain ⟨hr, hd⟩ := List.mem_filter.mp hr
    obtain ⟨id, hl⟩ := (mem_values _ _).mp hr
    rw [h id r hl]
    exact ⟨r, live_eq_some.mpr ⟨hl, by simpa using hd⟩, rfl⟩
  · rintro ⟨r, hl, rfl⟩
    obtain ⟨hl, hd⟩ := live_eq_some.mp hl
    exact ⟨r, List.mem_filter.mpr ⟨(mem_values _ _).mpr ⟨_, hl⟩, by simp [hd]⟩, rfl⟩

/-- The groups were checked. -/
theorem validateGroups_ok {ids : List Uuid} {u : Unit} :
    t.validateGroups ids = .ok u ↔ ∀ g ∈ ids, g ∈ t.groups := by
  unfold validateGroups
  split
  · next h => simpa using h
  · next h => simpa using h

/-- A key is stored under a new id with a new secret, in a group there is. -/
theorem putKey_ok {key : GatewayKey} {name hash : String} {u : Unit}
    (h : t.putKey key name hash = .ok (t', u)) :
    key.groupId ∈ t.groups ∧ key.id ∉ t.keys ∧ (∀ r ∈ t.keys.values, r.secretHash ≠ hash) ∧
      t' = t.put ⟨key, name, hash, false⟩ := by
  unfold putKey at h
  obtain ⟨_, hg, h⟩ := bind_ok.mp h
  split at h
  · cases h
  · next hn =>
    cases h
    rw [not_or] at hn
    exact ⟨validateGroups_ok.mp hg _ List.mem_cons_self, hn.1, by simpa using hn.2, rfl⟩

/-- Three transactions write a new version of a live row. -/
theorem setKeyEnabled_ok {enabled : Bool} {key : GatewayKey}
    (h : t.setKeyEnabled id enabled = .ok (t', key)) : ∃ row, t.live id = some row ∧
      key = { row.data with enabled := enabled } ∧ t' = t.put { row with data := key } := by
  unfold setKeyEnabled at h
  obtain ⟨row, hrow, h⟩ := bind_ok.mp h
  cases h
  exact ⟨row, find_eq_ok.mp hrow, rfl, rfl⟩

/-- A key that is updated is a live one, and moves to an existing group. -/
theorem updateKey_ok {name : String} {groupId : Uuid} {key : GatewayKey}
    (h : t.updateKey id name groupId = .ok (t', key)) : groupId ∈ t.groups ∧
      ∃ row, t.live id = some row ∧ key = { row.data with groupId := groupId } ∧
        t' = t.put { row with data := key, name := name } := by
  unfold updateKey at h
  obtain ⟨_, hg, h⟩ := bind_ok.mp h
  obtain ⟨row, hrow, h⟩ := bind_ok.mp h
  cases h
  exact ⟨validateGroups_ok.mp hg _ List.mem_cons_self, row, find_eq_ok.mp hrow, rfl, rfl⟩

/-- A key that is deleted is a live one, and its row stays, disabled. -/
theorem deleteKey_ok {u : Unit} (h : t.deleteKey id = .ok (t', u)) :
    ∃ row, t.live id = some row ∧ t' = t.put { row with
      data := { row.data with enabled := false, groupId := DEFAULT_GROUP_ID }
      deleted := true } := by
  unfold deleteKey at h
  obtain ⟨row, hrow, h⟩ := bind_ok.mp h
  cases h
  exact ⟨row, find_eq_ok.mp hrow, rfl⟩

/-- The transactions on groups leave the keys alone. -/
theorem createGroup_ok {name : String} {u : Unit} (h : t.createGroup id name = .ok (t', u)) :
    validateName name = .ok () ∧ id ∉ t.groups ∧ t.nameTaken id (trim name) = false ∧
      t' = { t with groups := t.groups.insert id (trim name) } := by
  unfold createGroup at h
  obtain ⟨_, hname, h⟩ := bind_ok.mp h
  split at h
  · cases h
  · next hn =>
    cases h
    rw [not_or, Bool.not_eq_true] at hn
    exact ⟨hname, hn.1, hn.2, rfl⟩

/-- A group is renamed to a valid name that no other has. -/
theorem renameGroup_ok {name : String} {u : Unit} (h : t.renameGroup id name = .ok (t', u)) :
    validateName name = .ok () ∧ id ∈ t.groups ∧ t.nameTaken id (trim name) = false ∧
      t' = { t with groups := t.groups.insert id (trim name) } := by
  unfold renameGroup at h
  obtain ⟨_, hname, h⟩ := bind_ok.mp h
  split at h
  · cases h
  · next hin =>
    split at h
    · cases h
    · next hn =>
      cases h
      exact ⟨hname, not_not.mp hin, (Bool.not_eq_true _).mp hn, rfl⟩

/-- Only an unused group that is not the default one is deleted. -/
theorem deleteGroup_ok {u : Unit} (h : t.deleteGroup id = .ok (t', u)) :
    id ≠ DEFAULT_GROUP_ID ∧ id ∈ t.groups ∧ t.groupUsed id = false ∧
      t' = { t with groups := t.groups.erase id } := by
  unfold deleteGroup at h
  split at h
  · cases h
  · next hd =>
    split at h
    · cases h
    · next hin =>
      split at h
      · cases h
      · next hn =>
        cases h
        exact ⟨hd, not_not.mp hin, (Bool.not_eq_true _).mp hn, rfl⟩

/-- An account is put into existing groups only. -/
theorem putAccountGroups_ok {accountId : Uuid} {ids : List Uuid} {u : Unit}
    (h : t.putAccountGroups accountId ids = .ok (t', u)) : (∀ g ∈ ids, g ∈ t.groups) ∧
      t' = { t with memberships :=
        t.memberships.filter (·.1 ≠ accountId) ++ ids.map (accountId, ·) } := by
  unfold putAccountGroups at h
  obtain ⟨_, hg, h⟩ := bind_ok.mp h
  split at h
  · cases h
  · cases h
    exact ⟨validateGroups_ok.mp hg, rfl⟩

end AccessTables
end Xxgate.Store

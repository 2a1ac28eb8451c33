import Xxgate.Access.Consistent

/-!
# Integrity of the key and group tables

What one step can do to the tables, and what therefore holds of them for ever: every key and
every account is in groups that exist, the default group stays, group names are checked and
differ, keys have different secrets, and a deleted key stays deleted.
-/

namespace Xxgate.Access

open Xxgate.Base Xxgate.Base.FiniteMap Xxgate.Core Xxgate.Store

/-- What becomes of the tables in one step. -/
inductive TableStep (t t' : AccessTables) : Prop where
  | same (eq : t' = t)
  /-- A key is stored under a new id with a new secret. -/
  | created (row : KeyRow) (new : row.data.id ∉ t.keys)
      (fresh : ∀ r ∈ t.keys.values, r.secretHash ≠ row.secretHash)
      (group : row.data.groupId ∈ t.groups) (eq : t' = t.put row)
  /-- A key that is not deleted gets a new version of its row. -/
  | rewritten {id : Uuid} {old : KeyRow} (row : KeyRow) (here : t.live id = some old)
      (id_eq : row.data.id = old.data.id) (hash_eq : row.secretHash = old.secretHash)
      (group : row.data.groupId ∈ [old.data.groupId, DEFAULT_GROUP_ID] ∨
        row.data.groupId ∈ t.groups) (eq : t' = t.put row)
  /-- A group gets a name that no other has. -/
  | named (id : Uuid) (given : String) (valid : validateName given = .ok ())
      (free : t.nameTaken id (trim given) = false)
      (eq : t' = { t with groups := t.groups.insert id (trim given) })
  /-- A group that nothing refers to is deleted. -/
  | dropped (id : Uuid) (other : id ≠ DEFAULT_GROUP_ID) (unused : t.groupUsed id = false)
      (eq : t' = { t with groups := t.groups.erase id })
  /-- The groups of an account change. -/
  | members (ms : List (Uuid × Uuid)) (known : ∀ m ∈ ms, m ∈ t.memberships ∨ m.2 ∈ t.groups)
      (eq : t' = { t with memberships := ms })

variable {s s' : Installation} {t t' : AccessTables}

/-- A transaction on the keys and groups makes one of these steps when it succeeds in one. -/
theorem TableStep.administered {α : Type} {outcome : Outcome}
    {transaction : Result (AccessTables × α)} {r : Result α}
    (h : s.administered outcome transaction = some (s', r))
    (hs : ∀ t a, transaction = .ok (t, a) → TableStep s.access t) :
    TableStep s.access s'.access := by
  rcases Installation.administered_cases h with ⟨rfl, -⟩ | ⟨t, a, ht, rfl, -⟩
  · exact .same rfl
  · exact hs t a ht

/-- A call on the lock does not touch the tables. -/
theorem TableStep.locking {task : Nat} {op : LockOp Lock} {u : Unit}
    (h : s.locking task op = some (s', u)) : TableStep s.access s'.access := by
  obtain ⟨locks, -, he⟩ := Option.map_eq_some_iff.mp h
  cases he
  exact .same rfl

/-- Every call makes one of these steps. -/
theorem exec_tableStep {task : Nat} {env : Env} {c : Call} {r : c.Reply}
    (he : s.exec task env c = some (s', r)) : TableStep s.access s'.access := by
  cases c with
  | lock | unlock | releaseAll => exact .locking he
  | groups | keys =>
    rw [(Installation.queried_cases he).1]
    exact .same rfl
  | createGroup id name =>
    refine .administered he fun t a ht ↦ ?_
    obtain ⟨hvalid, -, hfree, rfl⟩ := AccessTables.createGroup_ok ht
    exact .named id name hvalid hfree rfl
  | renameGroup id name =>
    refine .administered he fun t a ht ↦ ?_
    obtain ⟨hvalid, -, hfree, rfl⟩ := AccessTables.renameGroup_ok ht
    exact .named id name hvalid hfree rfl
  | deleteGroup id =>
    refine .administered he fun t a ht ↦ ?_
    obtain ⟨hother, -, hunused, rfl⟩ := AccessTables.deleteGroup_ok ht
    exact .dropped id hother hunused rfl
  | putKey key name hash =>
    refine .administered he fun t a ht ↦ ?_
    obtain ⟨hgroup, hnew, hfresh, rfl⟩ := AccessTables.putKey_ok ht
    exact .created _ hnew hfresh hgroup rfl
  | setKeyEnabled id enabled =>
    refine .administered he fun t a ht ↦ ?_
    obtain ⟨row, hl, rfl, rfl⟩ := AccessTables.setKeyEnabled_ok ht
    exact .rewritten { row with data := { row.data with enabled := enabled } } hl rfl rfl
      (.inl List.mem_cons_self) rfl
  | updateStoredKey id name groupId =>
    refine .administered he fun t a ht ↦ ?_
    obtain ⟨hgroup, row, hl, rfl, rfl⟩ := AccessTables.updateKey_ok ht
    exact .rewritten { row with data := { row.data with groupId := groupId }, name := name } hl
      rfl rfl (.inr hgroup) rfl
  | deleteKey id =>
    refine .administered he fun t a ht ↦ ?_
    obtain ⟨row, hl, rfl⟩ := AccessTables.deleteKey_ok ht
    exact .rewritten { row with
      data := { row.data with enabled := false, groupId := DEFAULT_GROUP_ID }
      deleted := true } hl rfl rfl (.inl (List.mem_cons_of_mem _ List.mem_cons_self)) rfl
  | settings | saveSettings | putModel | putSearchPrice =>
    rcases Installation.configured_cases he with ⟨rfl, -⟩ | ⟨t, a, -, rfl, -⟩
    · exact .same rfl
    · exact .same rfl
  | _ =>
    cases he
    exact .same rfl

/-- Every change from outside makes one of the listed changes of the tables. -/
theorem change_tableStep (s : Installation) (a : Change) :
    TableStep s.access (s.change a).access := by
  cases a with
  | restart =>
    exact .same rfl
  | pause => exact .same rfl
  | accountGroups accountId ids =>
    show TableStep s.access (s.regrouped accountId ids).access
    unfold Installation.regrouped
    split
    · next t u ht =>
      obtain ⟨hg, rfl⟩ := AccessTables.putAccountGroups_ok ht
      refine .members _ (fun m hm ↦ ?_) rfl
      rcases List.mem_append.mp hm with hm | hm
      · exact .inl (List.mem_filter.mp hm).1
      · obtain ⟨g, hmem, rfl⟩ := List.mem_map.mp hm
        exact .inr (hg g hmem)
    · exact .same rfl
  | accountDeleted accountId =>
    exact .members _ (fun m hm ↦ .inl (List.mem_filter.mp hm).1) rfl

/-! ### Sound tables -/

/-- The keys have different secrets. -/
def DistinctSecrets (t : AccessTables) : Prop :=
  ∀ i j row row', t.keys.lookup i = some row → t.keys.lookup j = some row' →
    row.secretHash = row'.secretHash → i = j

/-- The groups have checked names that differ in more than their case. -/
structure ProperNames (t : AccessTables) : Prop where
  valid : ∀ id name, t.groups.lookup id = some name →
    ∃ given, validateName given = .ok () ∧ name = trim given
  distinct : ∀ i j name name', t.groups.lookup i = some name → t.groups.lookup j = some name' →
    t.lower name = t.lower name' → i = j

/-- What is referred to exists. -/
structure Referential (t : AccessTables) : Prop where
  default : DEFAULT_GROUP_ID ∈ t.groups
  keys : ∀ id row, t.keys.lookup id = some row → row.data.groupId ∈ t.groups
  members : ∀ m ∈ t.memberships, m.2 ∈ t.groups

/-- Tables as the transactions leave them. -/
structure Sound (t : AccessTables) : Prop where
  keyed : t.Keyed
  secrets : DistinctSecrets t
  names : ProperNames t
  references : Referential t

namespace TableStep

private theorem keyed (h : TableStep t t') (hk : t.Keyed) : t'.Keyed := by
  cases h with
  | created row new fresh group eq | rewritten row here id_eq hash_eq group eq =>
    rw [eq]
    exact hk.put row
  | same eq | named id given valid free eq | dropped id other unused eq | members ms known eq =>
    rw [eq]
    exact hk

/-- A deleted row stays as it is. -/
theorem deleted (h : TableStep t t') (hk : t.Keyed) {id : Uuid} {row : KeyRow}
    (hl : t.keys.lookup id = some row) (hd : row.deleted = true) :
    t'.keys.lookup id = some row := by
  cases h with
  | created r new fresh group eq =>
    rw [eq, AccessTables.lookup_put, if_neg, hl]
    rintro rfl
    cases (AList.lookup_eq_none.mpr new).symm.trans hl
  | @rewritten i old r here id_eq hash_eq group eq =>
    obtain ⟨hi, hlive⟩ := AccessTables.live_eq_some.mp here
    rw [eq, AccessTables.lookup_put, if_neg, hl]
    intro hid
    rw [hid, id_eq, hk i old hi, hi] at hl
    cases hl
    cases hd.symm.trans hlive
  | same eq | named id given valid free eq | dropped id other unused eq | members ms known eq =>
    rw [eq]
    exact hl

private theorem secrets (h : TableStep t t') (hk : t.Keyed) (hd : DistinctSecrets t) :
    DistinctSecrets t' := by
  cases h with
  | created r new fresh group eq =>
    intro i j row row' hi hj he
    rw [eq, AccessTables.lookup_put] at hi hj
    split at hi
    · next hid =>
      cases hi
      split at hj
      · next hjd => exact hid.trans hjd.symm
      · exact absurd he.symm (fresh row' ((mem_values _ _).mpr ⟨j, hj⟩))
    · split at hj
      · cases hj
        exact absurd he (fresh row ((mem_values _ _).mpr ⟨i, hi⟩))
      · exact hd i j row row' hi hj he
  | @rewritten id old r here id_eq hash_eq group eq =>
    obtain ⟨hold, -⟩ := AccessTables.live_eq_some.mp here
    have hid : r.data.id = id := id_eq.trans (hk id old hold)
    intro i j row row' hi hj he
    rw [eq, AccessTables.lookup_put, hid] at hi hj
    split at hi
    · next hi' =>
      cases hi
      split at hj
      · next hj' => exact hi'.trans hj'.symm
      · exact hi'.trans (hd id j old row' hold hj (hash_eq.symm.trans he))
    · split at hj
      · next hj' =>
        cases hj
        exact (hd i id row old hi hold (he.trans hash_eq)).trans hj'.symm
      · exact hd i j row row' hi hj he
  | same eq | named id given valid free eq | dropped id other unused eq | members ms known eq =>
    rw [eq]
    exact hd


private theorem names (h : TableStep t t') (hn : ProperNames t) : ProperNames t' := by
  cases h with
  | @named id given valid free eq =>
    -- the new name is none of the others', whatever its case
    have hfree : ∀ i name, t.groups.lookup i = some name → i ≠ id →
        t.lower name ≠ t.lower (trim given) := by
      intro i name hl hne he
      unfold AccessTables.nameTaken at free
      refine absurd (List.any_eq_false.mp free ⟨i, name⟩ (AList.mem_lookup_iff.mp hl)) ?_
      simp [hne, he]
    refine ⟨fun i name hl ↦ ?_, fun i j name name' hi hj he ↦ ?_⟩
    · rw [eq, lookup_insert_ite] at hl
      split at hl
      · cases hl
        exact ⟨given, valid, rfl⟩
      · exact hn.valid i name hl
    · rw [eq] at hi hj he
      rw [lookup_insert_ite] at hi hj
      split at hi
      · next hid =>
        split at hj
        · next hjd => exact hid.trans hjd.symm
        · next hjd =>
          cases hi
          exact absurd he.symm (hfree j name' hj hjd)
      · next hid =>
        split at hj
        · cases hj
          exact absurd he (hfree i name hi hid)
        · exact hn.distinct i j name name' hi hj he
  | @dropped id other unused eq =>
    have hsub : ∀ i name, t'.groups.lookup i = some name → t.groups.lookup i = some name := by
      intro i name hl
      rw [eq, lookup_erase_ite] at hl
      split at hl
      · cases hl
      · exact hl
    refine ⟨fun i name hl ↦ hn.valid i name (hsub i name hl), fun i j name name' hi hj he ↦ ?_⟩
    refine hn.distinct i j name name' (hsub i name hi) (hsub j name' hj) ?_
    rw [eq] at he
    exact he
  | same eq | created r new fresh group eq | @rewritten id old r here id_eq hash_eq group eq
  | members ms known eq =>
    rw [eq]
    exact ⟨hn.valid, hn.distinct⟩

/-- What is referred to is not dropped, and what is new refers to what is there. -/
theorem references (h : TableStep t t') (hr : Referential t) : Referential t' := by
  have hput : ∀ row : KeyRow, row.data.groupId ∈ t.groups → Referential (t.put row) := by
    refine fun row hg ↦ ⟨hr.default, fun i r hl ↦ ?_, hr.members⟩
    rw [AccessTables.lookup_put] at hl
    split at hl
    · cases hl
      exact hg
    · exact hr.keys i r hl
  cases h with
  | same eq =>
    rw [eq]
    exact hr
  | created row new fresh group eq =>
    rw [eq]
    exact hput row group
  | @rewritten id old row here id_eq hash_eq group eq =>
    rw [eq]
    refine hput row ?_
    rcases group with hg | hg
    · rcases List.mem_cons.mp hg with hold | hdef
      · rw [hold]
        exact hr.keys id old (AccessTables.live_eq_some.mp here).1
      · rw [List.mem_singleton.mp hdef]
        exact hr.default
    · exact hg
  | named id given valid free eq =>
    rw [eq]
    have hmem : ∀ g ∈ t.groups, g ∈ t.groups.insert id (trim given) :=
      fun g hg ↦ (AList.mem_insert _).mpr (.inr hg)
    exact ⟨hmem _ hr.default, fun i r hl ↦ hmem _ (hr.keys i r hl),
      fun m hm ↦ hmem _ (hr.members m hm)⟩
  | @dropped id other unused eq =>
    rw [eq]
    unfold AccessTables.groupUsed at unused
    obtain ⟨hkeys, hmembers⟩ := Bool.or_eq_false_iff.mp unused
    have hmem : ∀ g ∈ t.groups, g ≠ id → g ∈ t.groups.erase id :=
      fun g hg hne ↦ AList.mem_erase.mpr ⟨hne, hg⟩
    refine ⟨hmem _ hr.default fun he ↦ other he.symm, fun i r hl ↦ ?_, fun m hm ↦ ?_⟩
    · refine hmem _ (hr.keys i r hl) ?_
      simpa using List.any_eq_false.mp hkeys r ((mem_values _ _).mpr ⟨i, hl⟩)
    · refine hmem _ (hr.members m hm) ?_
      simpa using List.any_eq_false.mp hmembers m hm
  | members ms known eq =>
    rw [eq]
    refine ⟨hr.default, hr.keys, fun m hm ↦ ?_⟩
    rcases known m hm with ho | hg
    · exact hr.members m ho
    · exact hg

private theorem sound (h : TableStep t t') (hs : Sound t) : Sound t' :=
  ⟨h.keyed hs.keyed, h.secrets hs.keyed hs.secrets, h.names hs.names, h.references hs.references⟩

end TableStep

/-- The tables of a new database are sound. -/
theorem Sound.initial (lower : String → String) : Sound (.initial lower) where
  keyed := fun id row hl ↦ by cases (AList.lookup_empty id).symm.trans hl
  secrets := fun i j row row' hi ↦ by cases (AList.lookup_empty i).symm.trans hi
  names := by
    have hone : ∀ id name, (AccessTables.initial lower).groups.lookup id = some name →
        id = DEFAULT_GROUP_ID ∧ name = "默认分组" := by
      intro id name hl
      unfold AccessTables.initial at hl
      rw [lookup_insert_ite] at hl
      split at hl
      · next hid =>
        cases hl
        exact ⟨hid, rfl⟩
      · cases (AList.lookup_empty id).symm.trans hl
    refine ⟨fun id name hl ↦ ⟨"默认分组", by decide +kernel, ?_⟩, ?_⟩
    · rw [(hone id name hl).2]
      decide +kernel
    · exact fun i j name name' hi hj _ ↦ (hone i name hi).1.trans (hone j name' hj).1.symm
  references := {
    default := (AList.mem_insert _).mpr (.inl rfl)
    keys := fun id row hl ↦ by cases (AList.lookup_empty id).symm.trans hl
    members := fun m hm ↦ by cases hm }

/-! ### Over whole runs -/

namespace World

variable {w : World}

/-- Every move makes one of these steps. -/
theorem Consistent.tableStep (h : w.Consistent) (m : Move) :
    TableStep w.shared.access (w.step m).shared.access := by
  have hs : ∀ w', Pool.Transition kit monitor Standing.start w m w' →
      TableStep w.shared.access w'.shared.access := by
    intro w' ht
    cases ht with
    | idle | spawned | moved => exact .same rfl
    | called here inOrder performed trace result => exact exec_tableStep performed
    | changed a => exact change_tableStep w.shared a
  exact hs _ (Pool.step_transition disciplined h.kept m).1

/-- A deleted row stays as it is for ever. -/
theorem Consistent.deleted_run (h : w.Consistent) {id : Uuid} {row : KeyRow}
    (hl : w.shared.access.keys.lookup id = some row) (hd : row.deleted = true)
    (moves : List Move) :
    (run World.step w moves).shared.access.keys.lookup id = some row := by
  have hinv : (run World.step w moves).Consistent ∧
      (run World.step w moves).shared.access.keys.lookup id = some row :=
    run_invariant (P := fun w : World ↦ w.Consistent ∧ w.shared.access.keys.lookup id = some row)
      (fun w m h ↦ ⟨h.1.step m, (h.1.tableStep m).deleted h.1.sync.keyed h.2 hd⟩) moves ⟨h, hl⟩
  exact hinv.2

/-- Sound tables stay sound. -/
theorem Consistent.sound_run {w : World} (h : w.Consistent) (hs : Sound w.shared.access)
    (moves : List Move) : Sound (run World.step w moves).shared.access := by
  have hinv : (run World.step w moves).Consistent ∧ Sound (run World.step w moves).shared.access :=
    run_invariant (P := fun w : World ↦ w.Consistent ∧ Sound w.shared.access)
      (fun w m h ↦ ⟨h.1.step m, (h.1.tableStep m).sound h.2⟩) moves ⟨h, hs⟩
  exact hinv.2

/-- **Nothing dangles.** Whatever the administrators do, drop or repeat, and whatever the store
fails to answer: every key, also a deleted one, and every account is in groups that exist, the
default group is one of them, group names are checked and differ in more than their case, and
different keys have different secrets. -/
theorem tables_sound {access : AccessTables} {config : ConfigTables} (hs : Sound access)
    (moves : List Move) : Sound (run World.step (.new access config) moves).shared.access :=
  (Consistent.new hs.keyed).sound_run hs moves

/-- Key 7 is created and deleted. -/
theorem tables_sound_sample :
    Sound (run World.step (.new (.initial id) .initial) Sample.deleted).shared.access :=
  tables_sound (.initial id) Sample.deleted

end World
end Xxgate.Access

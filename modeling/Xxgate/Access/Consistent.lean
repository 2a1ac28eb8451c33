import Xxgate.Access.Monitor
import Xxgate.Access.World
import Xxgate.Base.Knowing

/-!
# Consistent administration

In every state a process can reach the lock table says who has the lock, what each task knows
is so, and a key that the scheduler dispatches for is stored as the scheduler has it.
-/

namespace Xxgate.Access

open Xxgate.Base Xxgate.Base.FiniteMap Xxgate.Core Xxgate.Scheduling Xxgate.Store

namespace Installation

/-- The key as the store has it, unless it is deleted. -/
def storedKey (s : Installation) (id : Uuid) : Option GatewayKey := (s.access.live id).map (·.data)

/-- The key as the scheduler has it, unless it is blocked. -/
def usableKey (s : Installation) (id : Uuid) : Option GatewayKey :=
  if id ∈ s.sched.blockedKeys then none else s.sched.keys.lookup id

/-- A key that is blocked is not dispatched for. -/
theorem usableKey_blockKey (s : Installation) (i id : Uuid) :
    usableKey { s with sched := s.sched.blockKey i } id =
      if id = i then none else s.usableKey id := by
  unfold usableKey State.blockKey
  by_cases h : id = i
  · simp [h]
  · simp [h]

/-- A key that is published is dispatched for as it was published. -/
theorem usableKey_updateKey (s : Installation) {key : GatewayKey}
    (hn : key.id ∉ s.sched.deletedKeys) (id : Uuid) :
    usableKey { s with sched := s.sched.updateKey key } id =
      if id = key.id then some key else s.usableKey id := by
  unfold usableKey State.updateKey
  rw [if_neg hn]
  rw [lookup_insert_ite]
  by_cases h : id = key.id
  · simp [h]
  · simp [h]

/-- A key that is removed is not dispatched for. -/
theorem usableKey_removeKey (s : Installation) (i id : Uuid) :
    usableKey { s with sched := s.sched.removeKey i } id =
      if id = i then none else s.usableKey id := by
  unfold usableKey State.removeKey
  rw [lookup_erase_ite]
  split
  · rw [ite_self]
  · rfl

/-- What a transaction on the keys and groups comes to. -/
theorem administered_cases {α : Type} {s s' : Installation} {outcome : Outcome}
    {transaction : Result (AccessTables × α)} {r : Result α}
    (h : s.administered outcome transaction = some (s', r)) :
    (s' = s ∧ ∃ x, r = .error x) ∨ ∃ t a, transaction = .ok (t, a) ∧
      s' = { s with access := t } ∧ (r = .ok a ∨ outcome = .lost ∧ r = .error .storage) := by
  unfold administered at h
  rcases conclude_cases outcome s.access transaction with
    ⟨x, hc⟩ | ⟨t, a, ht, ⟨hc, -⟩ | ⟨hc, ho⟩⟩
  · rw [hc] at h
    cases h
    exact .inl ⟨rfl, x, rfl⟩
  · rw [hc] at h
    cases h
    exact .inr ⟨t, a, ht, rfl, .inl rfl⟩
  · rw [hc] at h
    cases h
    exact .inr ⟨t, a, ht, rfl, .inr ⟨ho, rfl⟩⟩

/-- What a transaction on the configuration comes to. -/
theorem configured_cases {α : Type} {s s' : Installation} {outcome : Outcome}
    {transaction : Result (ConfigTables × α)} {r : Result α}
    (h : s.configured outcome transaction = some (s', r)) :
    (s' = s ∧ ∃ x, r = .error x) ∨ ∃ t a, transaction = .ok (t, a) ∧
      s' = { s with config := t } ∧ (r = .ok a ∨ outcome = .lost ∧ r = .error .storage) := by
  unfold configured at h
  rcases conclude_cases outcome s.config transaction with
    ⟨x, hc⟩ | ⟨t, a, ht, ⟨hc, -⟩ | ⟨hc, ho⟩⟩
  · rw [hc] at h
    cases h
    exact .inl ⟨rfl, x, rfl⟩
  · rw [hc] at h
    cases h
    exact .inr ⟨t, a, ht, rfl, .inl rfl⟩
  · rw [hc] at h
    cases h
    exact .inr ⟨t, a, ht, rfl, .inr ⟨ho, rfl⟩⟩

/-- A read that was answered tells what is there. -/
theorem queried_cases {α : Type} {s s' : Installation} {outcome : Outcome} {value : α}
    {r : Result α} (h : s.queried outcome value = some (s', r)) :
    s' = s ∧ ((∃ x, r = .error x) ∨ r = .ok value) := by
  unfold queried at h
  cases outcome with
  | answered =>
    cases h
    exact ⟨rfl, .inr rfl⟩
  | lost | failed =>
    cases h
    exact ⟨rfl, .inl ⟨_, rfl⟩⟩

end Installation

/-! ### What a task owes is as it believes -/

/-- What a task with a duty knows of the installation. -/
def Duty.Holds (s : Installation) : Duty → Prop
  | .clear | .unsettled => True
  | .blocked id | .doubtful id => id ∈ s.sched.blockedKeys
  | .written key => s.storedKey key.id = some key
  | .deleted id => id ∈ s.sched.blockedKeys ∧
      ∃ row, s.access.keys.lookup id = some row ∧ row.deleted = true
  | .reloaded rest => ∀ key ∈ rest, s.storedKey key.id = some key
  | .settled settings => ∃ row, s.config.settings = some row ∧ row.data = settings

/-- What a task knows while it has the lock. -/
def Facts (s : Installation) (φ : Standing) : Prop := .mutations ∈ φ.held → φ.duty.Holds s

/-- The scheduler dispatches for stored keys only, and what it was told is deleted is. -/
structure Sync (s : Installation) : Prop where
  keyed : s.access.Keyed
  current : ∀ id key, s.usableKey id = some key → s.storedKey id = some key
  gone : ∀ id ∈ s.sched.deletedKeys, ∃ row, s.access.keys.lookup id = some row ∧ row.deleted = true

variable {s s' : Installation} {φ : Standing}

/-- Knowledge is about the keys, what is blocked, and the settings that are stored. -/
theorem Duty.Holds.congr {d : Duty} (h : d.Holds s) (hk : s'.access.keys = s.access.keys)
    (hb : s'.sched.blockedKeys = s.sched.blockedKeys)
    (hs : s'.config.settings = s.config.settings) : d.Holds s' := by
  cases d with
  | clear | unsettled => trivial
  | blocked | doubtful | deleted | written | reloaded | settled =>
    unfold Duty.Holds Installation.storedKey AccessTables.live at *
    simp only [hk, hb, hs]
    exact h

private theorem Sync.congr (h : Sync s) (hk : s'.access.keys = s.access.keys)
    (hs : s'.sched.keys = s.sched.keys) (hb : s'.sched.blockedKeys = s.sched.blockedKeys)
    (hd : s'.sched.deletedKeys = s.sched.deletedKeys) : Sync s' where
  keyed := fun id row hl ↦ h.keyed id row (hk ▸ hl)
  current := by
    unfold Installation.usableKey Installation.storedKey AccessTables.live
    rw [hk, hs, hb]
    exact h.current
  gone := by
    rw [hd, hk]
    exact h.gone

/-- A row that is written leaves the other keys alone. -/
theorem Installation.storedKey_put (s : Installation) (row : KeyRow) (id : Uuid) :
    Installation.storedKey { s with access := s.access.put row } id =
      if id = row.data.id then if row.deleted then none else some row.data
      else s.storedKey id := by
  unfold storedKey
  rw [AccessTables.live_put]
  split
  · cases row.deleted <;> rfl
  · rfl

/-- Writing a row of a key that the scheduler does not dispatch for. -/
theorem Sync.put (h : Sync s) {row : KeyRow} (hu : s.usableKey row.data.id = none)
    (hn : row.data.id ∉ s.sched.deletedKeys) :
    Sync { s with access := s.access.put row } where
  keyed := h.keyed.put row
  current := by
    intro id key hkey
    have hkey : s.usableKey id = some key := hkey
    rw [Installation.storedKey_put]
    split
    · next hid =>
      rw [hid, hu] at hkey
      cases hkey
    · exact h.current id key hkey
  gone := by
    intro id hid
    show ∃ r, (s.access.put row).keys.lookup id = some r ∧ r.deleted = true
    rw [AccessTables.lookup_put, if_neg]
    · exact h.gone id hid
    · rintro rfl
      exact hn hid

/-- A live key was not deleted. -/
theorem Sync.not_gone (h : Sync s) {id : Uuid} {row : KeyRow} (hl : s.access.live id = some row) :
    id ∉ s.sched.deletedKeys := by
  intro hid
  obtain ⟨row', hl', hd⟩ := h.gone id hid
  obtain ⟨hl, hn⟩ := AccessTables.live_eq_some.mp hl
  cases hl.symm.trans hl'
  cases hn.symm.trans hd

/-- A live row stands under its own id. -/
theorem Sync.live_id (h : Sync s) {id : Uuid} {row : KeyRow} (hl : s.access.live id = some row) :
    row.data.id = id :=
  h.keyed id row (AccessTables.live_eq_some.mp hl).1

/-- A new version of a live row of a blocked key. -/
theorem Sync.rewrite (h : Sync s) {id : Uuid} (hb : id ∈ s.sched.blockedKeys) {old : KeyRow}
    (row : KeyRow) (hl : s.access.live id = some old) (hid : row.data.id = old.data.id) :
    row.data.id = id ∧ Sync { s with access := s.access.put row } := by
  have hrow : row.data.id = id := hid.trans (h.live_id hl)
  refine ⟨hrow, h.put ?_ ?_⟩
  · rw [hrow]
    exact if_pos hb
  · rw [hrow]
    exact h.not_gone hl

/-- Publishing a key as it is stored. -/
theorem Sync.updateKey (h : Sync s) {key : GatewayKey} (hs : s.storedKey key.id = some key) :
    Sync { s with sched := s.sched.updateKey key } := by
  obtain ⟨row, hl, -⟩ := Option.map_eq_some_iff.mp hs
  have hn : key.id ∉ s.sched.deletedKeys := h.not_gone hl
  refine ⟨h.keyed, fun id k hk ↦ ?_, ?_⟩
  · rw [Installation.usableKey_updateKey s hn] at hk
    split at hk
    · next hid =>
      cases hk
      rw [hid]
      exact hs
    · exact h.current id k hk
  · unfold State.updateKey
    rw [if_neg hn]
    exact h.gone

/-- Removing a key that was deleted. -/
theorem Sync.removeKey (h : Sync s) {id : Uuid}
    (hd : ∃ row, s.access.keys.lookup id = some row ∧ row.deleted = true) :
    Sync { s with sched := s.sched.removeKey id } where
  keyed := h.keyed
  current := by
    intro i key hkey
    rw [Installation.usableKey_removeKey] at hkey
    split at hkey
    · cases hkey
    · exact h.current i key hkey
  gone := by
    intro i hi
    rcases Finset.mem_insert.mp hi with rfl | hi
    · exact hd
    · exact h.gone i hi

/-- Blocking a key. -/
theorem Sync.blockKey (h : Sync s) (id : Uuid) :
    Sync { s with sched := s.sched.blockKey id } where
  keyed := h.keyed
  current := by
    intro i key hkey
    rw [Installation.usableKey_blockKey] at hkey
    split at hkey
    · cases hkey
    · exact h.current i key hkey
  gone := h.gone

/-! ### What calls do -/

variable {task : Nat} {env : Env} {c : Call} {r : c.Reply}

/-- What a call leaves alone that does not need the lock. -/
structure Untouched (s s' : Installation) : Prop where
  keys : s'.access.keys = s.access.keys
  sched : s'.sched = s.sched
  settings : s'.config.settings = s.config.settings

private theorem Untouched.refl (s : Installation) : Untouched s s := ⟨rfl, rfl, rfl⟩

private theorem Untouched.sync (hu : Untouched s s') (h : Sync s) : Sync s' :=
  h.congr hu.keys (by rw [hu.sched]) (by rw [hu.sched]) (by rw [hu.sched])

private theorem Untouched.facts (hu : Untouched s s') (h : Facts s φ) : Facts s' φ :=
  fun hm ↦ (h hm).congr hu.keys (by rw [hu.sched]) hu.settings

/-- Group transactions, and those on models and search prices, leave keys and settings alone. -/
theorem Untouched.administered {α : Type} {outcome : Outcome}
    {transaction : Result (AccessTables × α)} {r : Result α}
    (h : s.administered outcome transaction = some (s', r))
    (hk : ∀ t a, transaction = .ok (t, a) → t.keys = s.access.keys) : Untouched s s' := by
  rcases Installation.administered_cases h with ⟨rfl, -⟩ | ⟨t, a, ht, rfl, -⟩
  · exact .refl _
  · exact ⟨hk t a ht, rfl, rfl⟩

/-- A transaction on the configuration that keeps the settings touches nothing here. -/
theorem Untouched.configured {α : Type} {outcome : Outcome}
    {transaction : Result (ConfigTables × α)} {r : Result α}
    (h : s.configured outcome transaction = some (s', r))
    (hk : ∀ t a, transaction = .ok (t, a) → t.settings = s.config.settings) : Untouched s s' := by
  rcases Installation.configured_cases h with ⟨rfl, -⟩ | ⟨t, a, ht, rfl, -⟩
  · exact .refl _
  · exact ⟨rfl, rfl, hk t a ht⟩

/-- A call on the lock leaves everything else alone. -/
theorem Untouched.locking {op : LockOp Lock} {u : Unit} (h : s.locking task op = some (s', u)) :
    Untouched s s' := by
  obtain ⟨locks, -, he⟩ := Option.map_eq_some_iff.mp h
  cases he
  exact ⟨rfl, rfl, rfl⟩

/-- A call without the lock leaves the keys and the settings alone. -/
theorem exec_free (hin : φ.InOrder c ∨ c = .releaseAll) (hm : .mutations ∉ φ.held)
    (he : s.exec task env c = some (s', r)) : Untouched s s' := by
  cases c with
  | consult q =>
    cases he
    exact .refl _
  | lock | unlock | releaseAll => exact .locking he
  | groups =>
    rw [(Installation.queried_cases he).1]
    exact .refl _
  | putSearchPrice price =>
    refine .configured he fun t a ht ↦ ?_
    obtain ⟨-, -, rfl⟩ := ConfigTables.putSearchPrice_ok ht
    rfl
  | _ => exact absurd (hin.resolve_right nofun).1 hm

/-- The key whose row a call writes. -/
def Call.rewrites : Call → Option Uuid
  | .setKeyEnabled id _ | .updateStoredKey id _ _ | .deleteKey id => some id
  | _ => none

/-- What a call that writes the row of a key did: nothing, or it put a new version of the live row.
What it answered tells the key as it is stored then, or that it is gone, or nothing. -/
theorem rewriting_cases (h : Sync s) {id : Uuid} (hc : c.rewrites = some id)
    (he : s.exec task env c = some (s', r)) :
    (s' = s ∧ (φ.next c r).duty = .doubtful id) ∨
      ∃ old row, s.access.live id = some old ∧
        s' = { s with access := s.access.put row } ∧ row.data.id = id ∧
        ((φ.next c r).duty = .doubtful id ∨
          (φ.next c r).duty = .written row.data ∧ row.deleted = false ∨
          (φ.next c r).duty = .deleted id ∧ row.deleted = true) := by
  cases c with
  | setKeyEnabled id enabled =>
    cases hc
    rcases Installation.administered_cases he with ⟨rfl, x, rfl⟩ | ⟨t, a, ht, rfl, hr⟩
    · exact .inl ⟨rfl, rfl⟩
    · obtain ⟨row, hl, rfl, rfl⟩ := AccessTables.setKeyEnabled_ok ht
      have hid : row.data.id = _ := h.live_id hl
      refine .inr ⟨row, _, hl, rfl, hid, ?_⟩
      rcases hr with rfl | ⟨-, rfl⟩
      · exact .inr (.inl ⟨rfl, (AccessTables.live_eq_some.mp hl).2⟩)
      · exact .inl rfl
  | updateStoredKey id name groupId =>
    cases hc
    rcases Installation.administered_cases he with ⟨rfl, x, rfl⟩ | ⟨t, a, ht, rfl, hr⟩
    · exact .inl ⟨rfl, rfl⟩
    · obtain ⟨-, row, hl, rfl, rfl⟩ := AccessTables.updateKey_ok ht
      have hid : row.data.id = _ := h.live_id hl
      refine .inr ⟨row, _, hl, rfl, hid, ?_⟩
      rcases hr with rfl | ⟨-, rfl⟩
      · exact .inr (.inl ⟨rfl, (AccessTables.live_eq_some.mp hl).2⟩)
      · exact .inl rfl
  | deleteKey id =>
    cases hc
    rcases Installation.administered_cases he with ⟨rfl, x, rfl⟩ | ⟨t, a, ht, rfl, hr⟩
    · exact .inl ⟨rfl, rfl⟩
    · obtain ⟨row, hl, rfl⟩ := AccessTables.deleteKey_ok ht
      have hid : row.data.id = _ := h.live_id hl
      refine .inr ⟨row, _, hl, rfl, hid, ?_⟩
      rcases hr with rfl | ⟨-, rfl⟩
      · exact .inr (.inr ⟨rfl, rfl⟩)
      · exact .inl rfl
  | _ => cases hc

/-- Writing the row of a blocked key leaves the scheduler in step, and tells what is stored. -/
theorem Sync.rewritten (h : Sync s) {id : Uuid} (hb : id ∈ s.sched.blockedKeys)
    (hc : c.rewrites = some id) (he : s.exec task env c = some (s', r)) :
    Sync s' ∧ Facts s' (φ.next c r) := by
  rcases rewriting_cases (φ := φ) h hc he with
    ⟨rfl, hduty⟩ | ⟨old, row, hl, rfl, hid, hduty⟩
  · refine ⟨h, fun _ ↦ ?_⟩
    rw [hduty]
    exact hb
  · refine ⟨(h.rewrite hb row hl (hid.trans (h.live_id hl).symm)).2, fun _ ↦ ?_⟩
    rcases hduty with hduty | ⟨hduty, hdeleted⟩ | ⟨hduty, hdeleted⟩
    · rw [hduty]
      exact hb
    · rw [hduty]
      show Installation.storedKey _ row.data.id = some row.data
      rw [Installation.storedKey_put, if_pos rfl, hdeleted]
      rfl
    · rw [hduty]
      refine ⟨hb, row, ?_, hdeleted⟩
      show (s.access.put row).keys.lookup id = some row
      rw [AccessTables.lookup_put]
      exact if_pos hid.symm

/-- A task in the critical section learns what is so, and leaves the scheduler in step. -/
theorem exec_holding (h : Sync s) (hf : Facts s φ) (hin : φ.InOrder c) (hm : .mutations ∈ φ.held)
    (he : s.exec task env c = some (s', r)) : Sync s' ∧ Facts s' (φ.next c r) := by
  have hd := hf hm
  cases c with
  | consult q =>
    cases he
    exact ⟨h, hf⟩
  | lock l =>
    cases l
    exact absurd hm hin
  | unlock l =>
    have hu := Untouched.locking he
    refine ⟨hu.sync h, fun hm' ↦ ?_⟩
    cases l
    exact absurd rfl (Finset.mem_erase.mp hm').1
  | releaseAll => exact absurd hin id
  | blockKey id =>
    cases he
    exact ⟨h.blockKey id, fun _ ↦ Finset.mem_insert_self _ _⟩
  | updateKey key =>
    cases he
    rcases hin.2 with hw | ⟨rest, hw⟩
    · rw [hw] at hd
      refine ⟨h.updateKey hd, fun _ ↦ ?_⟩
      rw [Standing.next, Standing.published, hw]
      trivial
    · rw [hw] at hd
      refine ⟨h.updateKey (hd key List.mem_cons_self), fun _ ↦ ?_⟩
      rw [Standing.next, Standing.published, hw]
      exact fun k hk ↦ hd k (List.mem_cons_of_mem _ hk)
  | removeKey id =>
    cases he
    rw [hin.2] at hd
    exact ⟨h.removeKey hd.2, fun _ ↦ trivial⟩
  | setPaused =>
    cases he
    exact ⟨h.congr rfl rfl rfl rfl, fun _ ↦ trivial⟩
  | publish settings =>
    cases he
    exact ⟨h.congr rfl rfl rfl rfl, fun _ ↦ trivial⟩
  | groups =>
    rw [(Installation.queried_cases he).1]
    exact ⟨h, hf⟩
  | createGroup id name =>
    have hu : Untouched s s' := .administered he fun t a ht ↦ by
      rw [(AccessTables.createGroup_ok ht).2.2.2]
    exact ⟨hu.sync h, hu.facts hf⟩
  | renameGroup id name =>
    have hu : Untouched s s' := .administered he fun t a ht ↦ by
      rw [(AccessTables.renameGroup_ok ht).2.2.2]
    exact ⟨hu.sync h, hu.facts hf⟩
  | deleteGroup id =>
    have hu : Untouched s s' := .administered he fun t a ht ↦ by
      rw [(AccessTables.deleteGroup_ok ht).2.2.2]
    exact ⟨hu.sync h, hu.facts hf⟩
  | keys =>
    obtain ⟨rfl, ⟨x, rfl⟩ | rfl⟩ := Installation.queried_cases he
    · exact ⟨h, hf⟩
    · exact ⟨h, fun _ key hk ↦ (AccessTables.mem_listed h.keyed key).mp hk⟩
  | putKey key name hash =>
    rcases Installation.administered_cases he with ⟨rfl, x, rfl⟩ | ⟨t, a, ht, rfl, hr⟩
    · exact ⟨h, hf⟩
    · obtain ⟨-, hnew, -, rfl⟩ := AccessTables.putKey_ok ht
      have hlookup : s.access.keys.lookup key.id = none := AList.lookup_eq_none.mpr hnew
      have hsync : Sync { s with access := s.access.put ⟨key, name, hash, false⟩ } := by
        refine h.put ?_ fun hg ↦ ?_
        · cases hu : s.usableKey key.id with
          | none => rfl
          | some k =>
            have hstored := h.current key.id k hu
            unfold Installation.storedKey AccessTables.live at hstored
            rw [hlookup] at hstored
            cases hstored
        · obtain ⟨row, hl, -⟩ := h.gone key.id hg
          cases hlookup.symm.trans hl
      refine ⟨hsync, fun _ ↦ ?_⟩
      rcases hr with rfl | ⟨-, rfl⟩
      · show Installation.storedKey _ key.id = some key
        rw [Installation.storedKey_put, if_pos rfl]
        rfl
      · show φ.duty.Holds _
        rw [hin.2]
        trivial
  | setKeyEnabled id | updateStoredKey id | deleteKey id =>
    rw [hin.2] at hd
    exact h.rewritten hd rfl he
  | settings =>
    rcases Installation.configured_cases he with ⟨rfl, x, rfl⟩ | ⟨t, a, ht, rfl, hr⟩
    · exact ⟨h, hf⟩
    · refine ⟨h.congr rfl rfl rfl rfl, fun _ ↦ ?_⟩
      rcases hr with rfl | ⟨-, rfl⟩
      · rcases ConfigTables.readSettings_cases (Except.ok.inj ht) with
          ⟨row, hs, rfl, rfl⟩ | ⟨-, rfl, rfl⟩
        · exact ⟨row, hs, rfl⟩
        · exact ⟨_, rfl, rfl⟩
      · show φ.duty.Holds _
        rw [hin.2]
        trivial
  | saveSettings settings expected =>
    rcases Installation.configured_cases he with ⟨rfl, x, rfl⟩ | ⟨t, a, ht, rfl, hr⟩
    · exact ⟨h, fun _ ↦ trivial⟩
    · refine ⟨h.congr rfl rfl rfl rfl, fun _ ↦ ?_⟩
      obtain ⟨-, -, rfl, rfl⟩ := ConfigTables.saveSettings_ok ht
      rcases hr with rfl | ⟨-, rfl⟩
      · exact ⟨_, rfl, rfl⟩
      · trivial
  | putModel model version =>
    have hu : Untouched s s' := .configured he fun t a ht ↦ by
      rw [(ConfigTables.putModel_ok ht).2.2]
    exact ⟨hu.sync h, hu.facts hf⟩
  | putSearchPrice price =>
    have hu : Untouched s s' := .configured he fun t a ht ↦ by
      rw [(ConfigTables.putSearchPrice_ok ht).2.2]
    exact ⟨hu.sync h, hu.facts hf⟩

/-! ### The invariant -/

/-- Every task keeps to the monitor. -/
theorem disciplined : kit.Disciplined monitor Through Standing.start where
  keeps := scheme_keeps
  starts := fun job ↦ Prog.Meets.mono (body_ends job) fun a φ h ↦ ⟨h, closes a.1 a.2 φ⟩

/-- The calls that act on the lock, and the table. -/
def locking : Locking kit monitor Standing.start Lock where
  op := Installation.lockOp
  table := Installation.locks
  held := Standing.held
  exec := by
    intro s s' id env c r h
    have hlocks : ∀ (op : LockOp Lock) {u : Unit}, s.locking id op = some (s', u) →
        op.apply s.locks id = some s'.locks := by
      intro op u h
      obtain ⟨locks, hl, he⟩ := Option.map_eq_some_iff.mp h
      cases he
      exact hl
    cases c with
    | lock l => exact hlocks (.acquire l) h
    | unlock l => exact hlocks (.release l) h
    | releaseAll => exact hlocks .releaseAll h
    | createGroup | renameGroup | deleteGroup | putKey | setKeyEnabled | updateStoredKey
    | deleteKey =>
      rcases Installation.administered_cases h with ⟨rfl, -⟩ | ⟨t, a, -, rfl, -⟩
      · rfl
      · rfl
    | settings | saveSettings | putModel | putSearchPrice =>
      rcases Installation.configured_cases h with ⟨rfl, -⟩ | ⟨t, a, -, rfl, -⟩
      · rfl
      · rfl
    | _ =>
      cases h
      rfl
  next := by
    intro φ c r
    cases c with
    | updateKey key =>
      show φ.published.held = φ.held
      unfold Standing.published
      split
      · rfl
      · rfl
    | keys | putKey | setKeyEnabled | updateStoredKey | deleteKey | settings | saveSettings =>
      rcases r with x | a
      · rfl
      · rfl
    | _ => rfl
  starts := fun _ ↦ rfl
  change := by
    intro s a
    cases a with
    | accountGroups accountId ids =>
      show (s.regrouped accountId ids).locks = s.locks
      unfold Installation.regrouped
      split
      · rfl
      · rfl
    | _ => rfl

/-- A new scheduler has the keys that are not deleted. -/
theorem lookup_started {t : AccessTables} (hk : t.Keyed) (id : Uuid) :
    (State.new [] [] t.listed).keys.lookup id = (t.live id).map (·.data) := by
  have hu : ∀ x ∈ t.listed, ∀ y ∈ t.listed, x.id = y.id → x = y := by
    intro x hx y hy he
    have hx := (AccessTables.mem_listed hk x).mp hx
    have hy := (AccessTables.mem_listed hk y).mp hy
    rw [he, hy] at hx
    exact (Option.some.inj hx).symm
  ext key
  refine (lookup_foldl_insert_iff hu ∅ id key).trans ?_
  rw [AList.lookup_empty, AccessTables.mem_listed hk]
  constructor
  · rintro (⟨hl, rfl⟩ | ⟨-, hn⟩)
    · exact hl
    · cases hn
  · intro hl
    obtain ⟨row, hr, rfl⟩ := Option.map_eq_some_iff.mp hl
    have hid : row.data.id = id := hk id row (AccessTables.live_eq_some.mp hr).1
    exact .inl ⟨hid ▸ hl, hid⟩

/-- A process starts in step with the store. -/
theorem Sync.started {access : AccessTables} {config : ConfigTables} (hk : access.Keyed) :
    Sync (Installation.started access config) where
  keyed := hk
  current := by
    intro id key hkey
    have hkey : (State.new [] [] access.listed).keys.lookup id = some key := by
      unfold Installation.usableKey at hkey
      split at hkey
      · cases hkey
      · exact hkey
    exact (lookup_started hk id).symm.trans hkey
  gone := fun id hid ↦ absurd hid (Finset.notMem_empty id)

/-- Changes from outside leave the keys alone, but for a restart. -/
theorem change_untouched (s : Installation) (a : Change) (ha : kit.ends a = false) :
    (s.change a).access.keys = s.access.keys ∧ (s.change a).sched.keys = s.sched.keys ∧
      (s.change a).sched.blockedKeys = s.sched.blockedKeys ∧
      (s.change a).sched.deletedKeys = s.sched.deletedKeys ∧ (s.change a).config = s.config := by
  cases a with
  | restart => cases ha
  | pause => exact ⟨rfl, rfl, rfl, rfl, rfl⟩
  | accountDeleted accountId => exact ⟨rfl, rfl, rfl, rfl, rfl⟩
  | accountGroups accountId ids =>
    have hs : (s.change (.accountGroups accountId ids)) = s.regrouped accountId ids := rfl
    rw [hs]
    unfold Installation.regrouped
    split
    · next t u ht =>
      obtain ⟨-, rfl⟩ := AccessTables.putAccountGroups_ok ht
      exact ⟨rfl, rfl, rfl, rfl, rfl⟩
    · exact ⟨rfl, rfl, rfl, rfl, rfl⟩

namespace World

/-- What is known of a task, if it is there. -/
abbrev standing (w : World) (id : Nat) : Option Standing := Pool.phase monitor Standing.start w id

/-- Every task keeps to its monitor and knows what is so, and the scheduler is in step. -/
structure Consistent (w : World) : Prop where
  kept : Pool.Kept kit monitor Through Standing.start w
  owned : locking.Owned w
  knows : Pool.Knowing monitor Standing.start Facts w
  sync : Sync w.shared

variable {w : World}

/-- The calls of a task. -/
theorem inOrder {φ : Standing} {s : Unit} {c : Call}
    (h : monitor.allowed φ s c ∨ monitor.closing φ s c) : φ.InOrder c ∨ c = .releaseAll := h

/-- What a call of a task makes of what it and the others know. -/
theorem Consistent.called (h : w.Consistent) {id : Nat} {env : Env} {φ : Standing} {c : Call}
    {r : c.Reply} {shared : Installation} (hi : w.standing id = some φ)
    (hin : φ.InOrder c ∨ c = .releaseAll) (he : w.shared.exec id env c = some (shared, r)) :
    Sync shared ∧ Facts shared (φ.next c r) ∧
      ∀ i ψ, i ≠ id → w.standing i = some ψ → Facts shared ψ := by
  by_cases hm : .mutations ∈ φ.held
  · have hothers : ∀ i ψ, i ≠ id → w.standing i = some ψ → Facts shared ψ :=
      fun i ψ hne hψ hm' ↦ absurd (h.owned.unique (l := locking) hψ hm' hi hm) hne
    rcases hin with hin | rfl
    · obtain ⟨hsync, hfacts⟩ := exec_holding h.sync (h.knows id φ hi) hin hm he
      exact ⟨hsync, hfacts, hothers⟩
    · have hu := Untouched.locking he
      exact ⟨hu.sync h.sync, fun hm' ↦ absurd hm' (Finset.notMem_empty _), hothers⟩
  · have hu := exec_free hin hm he
    refine ⟨hu.sync h.sync, ?_, fun i ψ _ hψ ↦ hu.facts (h.knows i ψ hψ)⟩
    rcases hin with hin | rfl
    · cases c with
      | lock l => exact fun _ ↦ trivial
      | consult | groups | putSearchPrice => exact fun hm' ↦ absurd hm' hm
      | unlock l => exact fun hm' ↦ absurd (Finset.mem_of_mem_erase hm') hm
      | releaseAll => exact fun hm' ↦ absurd hm' (Finset.notMem_empty _)
      | _ => exact absurd hin.1 hm
    · exact fun hm' ↦ absurd hm' (Finset.notMem_empty _)

/-- A move keeps the scheduler in step. -/
theorem Consistent.sync_step (h : w.Consistent) {m : Move} {w' : World}
    (ht : Pool.Transition kit monitor Standing.start w m w') : Sync w'.shared := by
  cases ht with
  | idle | spawned | moved => exact h.sync
  | @called id env job t t' c r shared here inOrder performed trace result =>
    refine (h.called (Pool.phase_of_lookup here) ?_ performed).1
    rcases inOrder with ⟨-, s, h⟩ | ⟨-, s, h⟩
    · exact .inl h
    · exact .inr h
  | changed a =>
    cases ha : kit.ends a with
    | true =>
      cases a with
      | restart => exact .started h.sync.keyed
      | _ => cases ha
    | false =>
      obtain ⟨hk, hs, hb, hd, -⟩ := change_untouched w.shared a ha
      exact h.sync.congr hk hs hb hd

/-- Every move keeps an installation consistent. -/
theorem Consistent.step (h : w.Consistent) (m : Move) : (w.step m).Consistent := by
  have hs := Pool.step_transition disciplined h.kept m
  refine ⟨hs.2, h.owned.step hs.1, ?_, ?_⟩
  · refine h.knows.step disciplined h.kept m (fun _ hm ↦ ?_) ?_ ?_
    · exact absurd hm (Finset.notMem_empty _)
    · intro id env φ s c r shared hi _ hin he
      exact (h.called hi (inOrder hin) he).2
    · intro a φ ha hf hm
      obtain ⟨hk, -, hb, -, hc⟩ := change_untouched w.shared a ha
      exact (hf hm).congr hk hb (congrArg ConfigTables.settings hc)
  · exact h.sync_step hs.1

/-- A process starts consistent. -/
theorem Consistent.new {access : AccessTables} {config : ConfigTables} (hk : access.Keyed) :
    (World.new access config).Consistent where
  kept := fun id job t h ↦ nomatch h
  owned := fun key id ↦ by
    constructor
    · intro h
      cases h
    · rintro ⟨φ, h, -⟩
      cases h
  knows := fun id φ h ↦ nomatch h
  sync := .started hk

/-- What some moves lead to from the start of a process is consistent. -/
theorem consistent_run {access : AccessTables} {config : ConfigTables} (hk : access.Keyed)
    (moves : List Move) : (run World.step (.new access config) moves).Consistent :=
  run_invariant (P := Consistent) (fun _ m h ↦ h.step m) moves (.new hk)

end World
end Xxgate.Access

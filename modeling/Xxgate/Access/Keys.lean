import Xxgate.Access.Integrity
import Xxgate.Base.Owing

/-!
# Keys that are dispatched for

The scheduler dispatches only for keys that are stored, enabled and in their group, whatever
becomes of handlers and answers; a deleted key is never accepted again; and while no handler is
at work the scheduler has every key as it is stored, unless a handler was dropped with a key it
had blocked or the answer to a creation was lost.
-/

namespace Xxgate.Access

open Xxgate.Base Xxgate.Base.FiniteMap Xxgate.Core Xxgate.Scheduling Xxgate.Store

variable {s s' : Installation} {φ : Standing}

namespace World

variable {w : World}

/-! ### Authorisation -/

/-- A key that a consistent scheduler accepts is stored, enabled, in the group. -/
theorem Consistent.stored_of_accepted (h : w.Consistent) {id groupId : Uuid}
    (hc : w.shared.sched.checkKey id groupId = .ok ()) :
    w.shared.storedKey id = some ⟨id, groupId, true⟩ := by
  unfold State.checkKey at hc
  split at hc
  · cases hc
  split at hc
  · cases hc
  next hb =>
  split at hc
  · cases hc
  next key hkey =>
  split at hc
  · cases hc
  next hg =>
  obtain ⟨hl, he⟩ := Option.filter_eq_some_iff.mp hkey
  have hu : w.shared.usableKey id = some key := (if_neg hb).trans hl
  have hs := h.sync.current id key hu
  obtain ⟨row, hrow, rfl⟩ := Option.map_eq_some_iff.mp hs
  have hid : row.data.id = id := h.sync.live_id hrow
  rw [hs]
  refine congrArg some ?_
  rw [← hid, ← not_not.mp hg]
  have he : row.data.enabled = true := he
  rw [← he]

end World

/-- **Authorisation follows the store.** Whatever handlers ran, were dropped or lost an answer,
the scheduler accepts a key for a group only while the store has the key, enabled and in that
group. -/
theorem World.accepted_is_stored (access : AccessTables) (config : ConfigTables) (moves : List Move)
    (id groupId : Uuid) (hk : access.Keyed)
    (hc : (run World.step (.new access config) moves).shared.sched.checkKey id groupId = .ok ()) :
    (run World.step (.new access config) moves).shared.storedKey id = some ⟨id, groupId, true⟩ :=
  (World.consistent_run hk moves).stored_of_accepted hc

/-- Key 7 is created, and accepted in its group. -/
theorem World.accepted_is_stored_created :
    (run World.step (.new (.initial id) .initial) Sample.created).shared.storedKey 7 =
      some ⟨7, DEFAULT_GROUP_ID, true⟩ :=
  World.accepted_is_stored (.initial id) .initial Sample.created 7 DEFAULT_GROUP_ID
    (Sound.initial id).keyed (by decide +kernel)

/-- A deleted key authenticates nobody. -/
theorem keyByHash_deleted {t : AccessTables} (hd : DistinctSecrets t) {id : Uuid} {row : KeyRow}
    (hl : t.keys.lookup id = some row) (hdel : row.deleted = true) :
    t.keyByHash row.secretHash = none := by
  unfold AccessTables.keyByHash
  rw [Option.map_eq_none_iff, List.find?_eq_none]
  intro r hr hp
  obtain ⟨j, hj⟩ := (mem_values _ _).mp hr
  simp only [Bool.and_eq_true, decide_eq_true_eq, Bool.not_eq_true'] at hp
  have hij : id = j := hd id j row r hl hj hp.1.1.symm
  subst hij
  cases hl.symm.trans hj
  cases hp.2.symm.trans hdel

/-- **Revocation is final.** Once a key is deleted, in every later state the scheduler accepts it
for no group and its secret authenticates nobody. -/
theorem World.revoked_for_good (access : AccessTables) (config : ConfigTables)
    (moves later : List Move) (id : Uuid) (row : KeyRow) (hs : Sound access)
    (hl : (run World.step (.new access config) moves).shared.access.keys.lookup id = some row)
    (hdel : row.deleted = true) :
    (∀ groupId, (run World.step (.new access config) (moves ++ later)).shared.sched.checkKey
      id groupId ≠ .ok ()) ∧
    (run World.step (.new access config) (moves ++ later)).shared.access.keyByHash
      row.secretHash = none := by
  have hlater : (run World.step (.new access config)
      (moves ++ later)).shared.access.keys.lookup id = some row := by
    rw [run_append]
    exact (World.consistent_run hs.keyed moves).deleted_run hl hdel later
  have hsound : Sound (run World.step (.new access config) (moves ++ later)).shared.access :=
    (World.Consistent.new hs.keyed).sound_run hs _
  refine ⟨fun groupId hc ↦ ?_, keyByHash_deleted hsound.secrets hlater hdel⟩
  have hs := (World.consistent_run hs.keyed (moves ++ later)).stored_of_accepted hc
  obtain ⟨row', hr, -⟩ := Option.map_eq_some_iff.mp hs
  obtain ⟨hr, hn⟩ := AccessTables.live_eq_some.mp hr
  cases hlater.symm.trans hr
  cases hn.symm.trans hdel

/-- Key 7 is deleted, and a task that began before goes on to enable it. -/
theorem World.revoked_for_good_sample :
    (∀ groupId, (run World.step (.new (.initial id) .initial)
      (Sample.deleted ++ Sample.turns 3 .answered 9)).shared.sched.checkKey
      7 groupId ≠ .ok ()) ∧
    (run World.step (.new (.initial id) .initial)
      (Sample.deleted ++ Sample.turns 3 .answered 9)).shared.access.keyByHash
      "secret" = none :=
  World.revoked_for_good (.initial id) .initial Sample.deleted (Sample.turns 3 .answered 9) 7
    ⟨⟨7, DEFAULT_GROUP_ID, false⟩, "seven", "secret", true⟩ (Sound.initial id)
    (by decide +kernel) rfl

/-! ### Agreement with the store -/

namespace Duty

/-- The keys that the scheduler may have otherwise than the store. -/
def named : Duty → List Uuid
  | .blocked id | .deleted id | .doubtful id => [id]
  | .written key => [key.id]
  | .reloaded rest => rest.map (·.id)
  | .clear | .unsettled | .settled _ => []

private theorem Done.named {d : Duty} (h : d.Done) : d.named = [] := by
  cases d with
  | clear => rfl
  | reloaded rest =>
    cases rest with
    | nil => rfl
    | cons key rest => cases h
  | _ => cases h

end Duty

/-- The scheduler has the key as the store has it. -/
def Agree (s : Installation) (id : Uuid) : Prop := s.usableKey id = s.storedKey id

/-- The scheduler has the key as the store has it, or nothing is dispatched at all. -/
def Settled (s : Installation) (id : Uuid) : Prop := s.sched.paused = true ∨ Agree s id

/-- The key is on the task's list. -/
def Owes (φ : Standing) (id : Uuid) : Prop := .mutations ∈ φ.held ∧ id ∈ φ.duty.named

/-- Agreement is about the stored keys and the scheduler's. -/
theorem Agree.congr {id : Uuid} (h : Agree s id) (hk : s'.access.keys = s.access.keys)
    (hs : s'.sched.keys = s.sched.keys) (hb : s'.sched.blockedKeys = s.sched.blockedKeys) :
    Agree s' id := by
  unfold Agree Installation.usableKey Installation.storedKey AccessTables.live at *
  rw [hk, hs, hb]
  exact h

private theorem Untouched.agree {id : Uuid} (hu : Untouched s s') (h : Agree s id) : Agree s' id :=
  h.congr hu.keys (by rw [hu.sched]) (by rw [hu.sched])

/-- Calls do not resume the scheduler. -/
theorem exec_paused {task : Nat} {env : Env} {c : Call} {r : c.Reply}
    (he : s.exec task env c = some (s', r)) (hp : s.sched.paused = true) :
    s'.sched.paused = true := by
  cases c with
  | lock | unlock | releaseAll =>
    rw [(Untouched.locking he).sched]
    exact hp
  | groups | keys =>
    rw [(Installation.queried_cases he).1]
    exact hp
  | createGroup | renameGroup | deleteGroup | putKey | setKeyEnabled | updateStoredKey
  | deleteKey =>
    rcases Installation.administered_cases he with ⟨rfl, -⟩ | ⟨t, a, -, rfl, -⟩
    · exact hp
    · exact hp
  | settings | saveSettings | putModel | putSearchPrice =>
    rcases Installation.configured_cases he with ⟨rfl, -⟩ | ⟨t, a, -, rfl, -⟩
    · exact hp
    · exact hp
  | updateKey key =>
    cases he
    show (s.sched.updateKey key).paused = true
    unfold State.updateKey
    split
    · exact hp
    · exact hp
  | setPaused =>
    cases he
    rfl
  | _ =>
    cases he
    exact hp

/-- The write whose answer no handler waits for again when it is lost. -/
def Call.unrepaired : Call → Bool
  | .putKey .. => true
  | _ => false

/-- Writing the row of another key. -/
theorem Agree.put {id : Uuid} (h : Agree s id) {row : KeyRow} (hne : id ≠ row.data.id) :
    Agree { s with access := s.access.put row } id := by
  unfold Agree
  rw [Installation.storedKey_put, if_neg hne]
  exact h

/-- A write that follows the blocking of a key leaves it to be published, whatever the answer. -/
theorem Agree.rewritten {task : Nat} {env : Env} {c : Call} {r : c.Reply} {id i : Uuid}
    (hs : Sync s) (hc : c.rewrites = some i) (he : s.exec task env c = some (s', r))
    (h : Agree s id ∨ id ∈ (Duty.blocked i).named) :
    Agree s' id ∨ id ∈ (φ.next c r).duty.named := by
  rcases rewriting_cases (φ := φ) hs hc he with ⟨rfl, hduty⟩ | ⟨old, row, -, rfl, hid, hduty⟩
  · rw [hduty]
    exact h
  · have hnamed : (φ.next c r).duty.named = [i] := by
      rcases hduty with hduty | ⟨hduty, -⟩ | ⟨hduty, -⟩
      · rw [hduty]
        rfl
      · rw [hduty, ← hid]
        rfl
      · rw [hduty]
        rfl
    by_cases hkey : id = i
    · rw [hnamed]
      exact .inr (List.mem_singleton.mpr hkey)
    · refine .inl (Agree.put (h.resolve_right fun hm ↦ hkey (List.mem_singleton.mp hm)) ?_)
      rwa [hid]

/-- A transaction on the configuration is none of the keys' business. -/
theorem Agree.configured {α : Type} {outcome : Outcome} {transaction : Result (ConfigTables × α)}
    {r : Result α} {id : Uuid} (h : Agree s id)
    (he : s.configured outcome transaction = some (s', r)) : Agree s' id := by
  rcases Installation.configured_cases he with ⟨rfl, -⟩ | ⟨t, a, -, rfl, -⟩
  · exact h
  · exact h

/-- Publishing a key in order leaves agreement, and takes the key off the task's list. -/
theorem Agree.published {key : GatewayKey} {id : Uuid} (hs : Sync s) (hf : Facts s φ)
    (hm : .mutations ∈ φ.held) (hin : φ.InOrder (.updateKey key))
    (h : Agree s id ∨ id ∈ φ.duty.named) :
    Agree { s with sched := s.sched.updateKey key } id ∨
      id ∈ (φ.next (.updateKey key) ()).duty.named := by
  have hd := hf hm
  -- the key is stored as it is published
  have hpub : s.storedKey key.id = some key ∧ (id ∈ φ.duty.named → id ≠ key.id →
      id ∈ (φ.next (.updateKey key) ()).duty.named) := by
    rcases hin.2 with hw | ⟨rest, hw⟩
    · rw [hw] at hd ⊢
      exact ⟨hd, fun hmem hne ↦ absurd (List.mem_singleton.mp hmem) hne⟩
    · refine ⟨?_, fun hmem hne ↦ ?_⟩
      · rw [hw] at hd
        exact hd key List.mem_cons_self
      · rw [hw] at hmem
        rw [Standing.next, Standing.published, hw]
        exact (List.mem_cons.mp hmem).resolve_left hne
  obtain ⟨hstored, hrest⟩ := hpub
  obtain ⟨row, hl, -⟩ := Option.map_eq_some_iff.mp hstored
  by_cases hid : id = key.id
  · left
    unfold Agree
    rw [Installation.usableKey_updateKey s (hs.not_gone hl), if_pos hid, hid]
    exact hstored.symm
  · refine h.imp (fun h ↦ ?_) fun hmem ↦ hrest hmem hid
    unfold Agree
    rw [Installation.usableKey_updateKey s (hs.not_gone hl), if_neg hid]
    exact h

/-- A reload lists the key in doubt, or the key is gone and blocked. -/
theorem Agree.reloaded {i id : Uuid} (hs : Sync s) (hf : Facts s φ) (hm : .mutations ∈ φ.held)
    (hdoubt : φ.duty = .doubtful i) (h : Agree s id ∨ id ∈ φ.duty.named) :
    Agree s id ∨ id ∈ s.access.listed.map (·.id) := by
  have hd := hf hm
  rw [hdoubt] at hd h
  refine h.elim .inl fun h ↦ ?_
  cases hstored : s.storedKey id with
  | none =>
    left
    unfold Agree
    rw [hstored, List.mem_singleton.mp h]
    exact if_pos hd
  | some key =>
    obtain ⟨row, hl, rfl⟩ := Option.map_eq_some_iff.mp hstored
    have hid : row.data.id = id := hs.live_id hl
    right
    refine List.mem_map.mpr ⟨row.data, ?_, hid⟩
    rw [AccessTables.mem_listed hs.keyed, hid]
    exact hstored

/-- In the critical section every key agrees, or is on the task's list, or nothing is
dispatched. -/
theorem agree_exec {task : Nat} {env : Env} {c : Call} {r : c.Reply} {id : Uuid} (hs : Sync s)
    (hf : Facts s φ) (hm : .mutations ∈ φ.held) (hin : φ.InOrder c)
    (he : s.exec task env c = some (s', r)) (ha : c.unrepaired = true → env.outcome ≠ .lost)
    (h : Agree s id ∨ id ∈ φ.duty.named) :
    (Agree s' id ∨ id ∈ (φ.next c r).duty.named) ∨ s'.sched.paused = true := by
  have hd := hf hm
  have hsame : Untouched s s' → (φ.next c r).duty = φ.duty →
      (Agree s' id ∨ id ∈ (φ.next c r).duty.named) ∨ s'.sched.paused = true := by
    intro hu hduty
    rw [hduty]
    exact .inl (h.imp_left hu.agree)
  cases c with
  | consult q =>
    cases he
    exact .inl h
  | lock l =>
    cases l
    exact absurd hm hin
  | unlock l =>
    refine .inl (.inl ?_)
    have h := h.resolve_right (by rw [hin.2.named]; exact List.not_mem_nil)
    exact (Untouched.locking he).agree h
  | releaseAll => exact False.elim hin
  | setPaused =>
    cases he
    exact .inr rfl
  | publish settings =>
    cases he
    left
    rw [hin.2] at h
    exact h
  | blockKey i =>
    cases he
    left
    rw [hin.2] at h
    by_cases hid : id = i
    · exact .inr (List.mem_singleton.mpr hid)
    · left
      unfold Agree
      rw [Installation.usableKey_blockKey, if_neg hid]
      exact h.resolve_right List.not_mem_nil
  | updateKey key =>
    cases he
    exact .inl (Agree.published hs hf hm hin h)
  | removeKey i =>
    cases he
    left
    left
    rw [hin.2] at hd h
    obtain ⟨-, row, hrow, hdel⟩ := hd
    unfold Agree
    rw [Installation.usableKey_removeKey]
    split
    · next hid =>
      show none = (s.access.live id).map (·.data)
      unfold AccessTables.live
      rw [hid, hrow]
      simp [hdel]
    · next hid => exact h.resolve_right fun hmem ↦ hid (List.mem_singleton.mp hmem)
  | groups =>
    rw [(Installation.queried_cases he).1]
    exact .inl h
  | keys =>
    obtain ⟨rfl, ⟨x, rfl⟩ | rfl⟩ := Installation.queried_cases he
    · exact .inl h
    · obtain ⟨-, i, hdoubt⟩ := hin
      exact .inl (Agree.reloaded hs hf hm hdoubt h)
  | putKey key name hash =>
    rcases Installation.administered_cases he with ⟨rfl, x, rfl⟩ | ⟨t, a, ht, rfl, hr⟩
    · exact .inl h
    · obtain ⟨-, -, -, rfl⟩ := AccessTables.putKey_ok ht
      rcases hr with rfl | ⟨ho, -⟩
      · left
        rw [hin.2] at h
        by_cases hid : id = key.id
        · exact .inr (List.mem_singleton.mpr hid)
        · exact .inl ((h.resolve_right List.not_mem_nil).put hid)
      · exact absurd ho (ha rfl)
  | setKeyEnabled i | updateStoredKey i | deleteKey i =>
    rw [hin.2] at h
    exact .inl (Agree.rewritten hs rfl he h)
  | settings | saveSettings =>
    rw [hin.2] at h
    exact .inl (.inl ((h.resolve_right List.not_mem_nil).configured he))
  | createGroup i name =>
    exact hsame (.administered he fun t a ht ↦ by
      rw [(AccessTables.createGroup_ok ht).2.2.2]) rfl
  | renameGroup i name =>
    exact hsame (.administered he fun t a ht ↦ by
      rw [(AccessTables.renameGroup_ok ht).2.2.2]) rfl
  | deleteGroup i =>
    exact hsame (.administered he fun t a ht ↦ by
      rw [(AccessTables.deleteGroup_ok ht).2.2.2]) rfl
  | putModel model version =>
    exact hsame (.configured he fun t a ht ↦ by rw [(ConfigTables.putModel_ok ht).2.2]) rfl
  | putSearchPrice price =>
    exact hsame (.configured he fun t a ht ↦ by
      rw [(ConfigTables.putSearchPrice_ok ht).2.2]) rfl

namespace World

variable {w : World}

/-- What is known of a task that was not dropped and has not ended. -/
abbrev active (w : World) (id : Nat) : Option Standing := Pool.active monitor Standing.start w id

/-- No creation of a key takes effect without being answered, and no task is dropped while a
key on its list is not as it is stored. -/
structure Heeded (w : World) (m : Move) : Prop where
  answered : ∀ e ∈ m.surroundings, ∀ c ∈ w.calling e.1, c.unrepaired = true → e.2.outcome ≠ .lost
  paid : ∀ task ∈ m.dropped, ∀ φ ∈ w.active task, ∀ id ∈ φ.duty.named, Agree w.shared id

instance (w : World) (m : Move) : Decidable (Heeded w m) :=
  have (s : Installation) (id : Uuid) : Decidable (Agree s id) :=
    inferInstanceAs (Decidable (s.usableKey id = s.storedKey id))
  decidable_of_iff
    ((∀ e ∈ m.surroundings, ∀ c ∈ w.calling e.1, c.unrepaired = true → e.2.outcome ≠ .lost) ∧
      ∀ task ∈ m.dropped, ∀ φ ∈ w.active task, ∀ id ∈ φ.duty.named, Agree w.shared id)
    ⟨fun h ↦ ⟨h.1, h.2⟩, fun h ↦ ⟨h.answered, h.paid⟩⟩

/-- A task that has something on its list keeps the lock over every call. -/
theorem next_held {φ : Standing} {c : Call} {r : c.Reply} {id : Uuid} (hm : .mutations ∈ φ.held)
    (hd : id ∈ (φ.next c r).duty.named) : .mutations ∈ (φ.next c r).held := by
  have hnext := locking.next φ c r
  cases c with
  | lock | unlock | releaseAll => cases hd
  | _ =>
    have hheld : (φ.next _ r).held = φ.held := hnext
    rw [hheld]
    exact hm

/-- Of every key the scheduler and the store agree, or a task at work has it on its list. -/
theorem Consistent.covered (h : w.Consistent) {m : Move} (hm : w.Heeded m) {id : Uuid}
    (hc : w.Covered monitor Standing.start Settled Owes id) :
    (w.step m).Covered monitor Standing.start Settled Owes id := by
  refine hc.step disciplined h.kept m ?_ ?_ ?_ ?_ ?_ ?_
  · rintro task env φ c r shared rfl hφ hcall ⟨_, hin⟩ he hp
    have hin : φ.InOrder c := hin
    by_cases hheld : .mutations ∈ φ.held
    · rcases hp with (hp | hp) | hp
      · exact .inl (.inl (exec_paused he hp))
      · have ha := agree_exec h.sync (h.knows task φ (Pool.phase_of_active hφ)) hheld hin he
          (hm.answered (task, env) rfl c hcall) (.inl hp)
        rcases ha with (ha | ha) | ha
        · exact .inl (.inr ha)
        · exact .inr ⟨next_held hheld ha, ha⟩
        · exact .inl (.inl ha)
      · have ha := agree_exec h.sync (h.knows task φ (Pool.phase_of_active hφ)) hheld hin he
          (hm.answered (task, env) rfl c hcall) (.inr hp.2)
        rcases ha with (ha | ha) | ha
        · exact .inl (.inr ha)
        · exact .inr ⟨next_held hheld ha, ha⟩
        · exact .inl (.inl ha)
    · have hu := exec_free (.inl hin) hheld he
      refine .inl ((hp.resolve_right fun ho ↦ hheld ho.1).imp (fun hp ↦ ?_) hu.agree)
      rw [hu.sched]
      exact hp
  · rintro task env φ s c r shared rfl he hp
    have he : w.shared.locking task .releaseAll = some (shared, r) := he
    have hu := Untouched.locking he
    refine hp.imp (fun hp ↦ ?_) hu.agree
    rw [hu.sched]
    exact hp
  · intro task φ hφ hexit ho
    have hexit : φ.held = ∅ := hexit
    have hheld := ho.1
    rw [hexit] at hheld
    cases hheld
  · rintro task x φ rfl hφ ho
    exact .inr (hm.paid task rfl φ hφ id ho.2)
  · rintro a rfl he
    cases a with
    | restart => exact .inr (lookup_started h.sync.keyed id)
    | _ => cases he
  · rintro a - he hp
    obtain ⟨hk, hs, hb, -, -⟩ := change_untouched w.shared a he
    rcases hp with hp | hp
    · left
      cases a with
      | restart => cases he
      | pause => rfl
      | accountDeleted accountId => exact hp
      | accountGroups accountId ids =>
        show (w.shared.regrouped accountId ids).sched.paused = true
        unfold Installation.regrouped
        split
        · exact hp
        · exact hp
    · exact .inr (hp.congr hk hs hb)

/-- **The scheduler follows the store.** Over any moves in which no creation takes effect
unanswered and no task is dropped that still has a key to publish, whatever becomes of the other
calls: whenever nobody has the lock and dispatch is not paused, the scheduler dispatches for
just the keys of the store, as they were last written. -/
theorem keys_agree {access : AccessTables} {config : ConfigTables} (hk : access.Keyed)
    {moves : List Move} (ha : Along World.step Heeded (.new access config) moves)
    (hfree : (run World.step (.new access config) moves).shared.locks.lookup .mutations = none)
    (hrunning : (run World.step (.new access config) moves).shared.sched.paused = false)
    (id : Uuid) : (run World.step (.new access config) moves).shared.usableKey id =
      (run World.step (.new access config) moves).shared.storedKey id := by
  have hnew : (World.new access config).Covered monitor Standing.start Settled Owes id :=
    .inl (.inr (lookup_started hk id))
  have hinv : (run World.step (.new access config) moves).Consistent ∧
      (run World.step (.new access config) moves).Covered monitor Standing.start Settled Owes id :=
    run_invariant_along (P := fun w : World ↦
        w.Consistent ∧ w.Covered monitor Standing.start Settled Owes id)
      (fun w m h hm ↦ ⟨h.1.step m, h.1.covered hm h.2⟩) ⟨.new hk, hnew⟩ ha
  obtain ⟨h, (hp | hagree) | ⟨task, φ, hφ, hheld, -⟩⟩ := hinv
  · cases hrunning.symm.trans hp
  · exact hagree
  · exact absurd hheld (h.owned.free (l := locking) hfree (Pool.phase_of_active hφ))

/-- Key 7 is disabled, the answer is lost, and reading the keys back makes it good. -/
theorem keys_agree_reloaded :
    (run World.step (.new (.initial id) .initial) Sample.disabled).shared.usableKey 7 =
    (run World.step (.new (.initial id) .initial) Sample.disabled).shared.storedKey 7 :=
  keys_agree (Sound.initial id).keyed (by decide +kernel) (by decide +kernel) (by decide +kernel) 7

end World
end Xxgate.Access

import Xxgate.Scheduling.Spec

/-!
# Accounts and keys under their own ids

The scheduler files an account and a key under the id they carry, and never again once
that id is in a tombstone set. The tombstones only grow, so a deletion is final.
-/

namespace Xxgate.Scheduling

open Xxgate.Base Xxgate.Base.FiniteMap Xxgate.Core

/-- Accounts and keys stand under their own ids, and none under a deleted one. -/
structure Filed (s : State) : Prop where
  account : ∀ {k a}, s.accounts.lookup k = some a → a.id = k
  key : ∀ {k g}, s.keys.lookup k = some g → g.id = k
  deletedAccount : ∀ k ∈ s.deletedAccounts, s.accounts.lookup k = none
  deletedKey : ∀ k ∈ s.deletedKeys, s.keys.lookup k = none

/-- An account that is published and not deleted stands under its id. -/
theorem State.lookup_updateAccount (s : State) (account : Account) (id : Uuid) :
    (s.updateAccount account).accounts.lookup id =
      if id = account.id ∧ account.id ∉ s.deletedAccounts then some account
      else s.accounts.lookup id := by
  unfold State.updateAccount
  by_cases hd : account.id ∈ s.deletedAccounts
  · rw [if_pos hd, if_neg fun h ↦ h.2 hd]
  · rw [if_neg hd, lookup_insert_ite]
    simp only [hd, not_false_eq_true, and_true]

/-- Publishing an account forgets none. -/
theorem State.deletedAccounts_updateAccount (s : State) (account : Account) :
    (s.updateAccount account).deletedAccounts = s.deletedAccounts := by
  unfold State.updateAccount
  split <;> rfl

/-- Records inserted one after another under their ids stand under their ids. -/
theorem lookup_foldl_insert {K V : Type} [DecidableEq K] (key : V → K) (vs : List V)
    {m : FiniteMap K V} (hm : ∀ {k v}, m.lookup k = some v → key v = k) {k : K} {v : V}
    (h : (vs.foldl (fun m v ↦ m.insert (key v) v) m).lookup k = some v) : key v = k := by
  induction vs generalizing m with
  | nil => exact hm h
  | cons x xs ih =>
    refine ih ?_ h
    intro k' v' h'
    rw [lookup_insert_ite] at h'
    split at h'
    · next hk =>
      cases h'
      exact hk.symm
    · exact hm h'

namespace Filed

/-- A new scheduler files what it was given. -/
theorem new (accounts : List Account) (bindings : List Binding) (keys : List GatewayKey) :
    Filed (State.new accounts bindings keys) where
  account := lookup_foldl_insert Account.id accounts (by simp)
  key := lookup_foldl_insert GatewayKey.id keys (by simp)
  deletedAccount := fun k hk ↦ absurd hk (Finset.notMem_empty k)
  deletedKey := fun k hk ↦ absurd hk (Finset.notMem_empty k)

/-- Filing depends on the records and the tombstones only. -/
theorem congr {s s' : State} (h : Filed s) (ha : s'.accounts = s.accounts)
    (hk : s'.keys = s.keys) (hda : s'.deletedAccounts = s.deletedAccounts)
    (hdk : s'.deletedKeys = s.deletedKeys) : Filed s' where
  account := by rw [ha]; exact h.account
  key := by rw [hk]; exact h.key
  deletedAccount := by rw [ha, hda]; exact h.deletedAccount
  deletedKey := by rw [hk, hdk]; exact h.deletedKey

/-- Updating an account files it. -/
theorem updateAccount {s : State} (h : Filed s) (account : Account) :
    Filed (s.updateAccount account) := by
  unfold State.updateAccount
  split
  · exact h
  · next live =>
    refine ⟨fun {k a} hk ↦ ?_, h.key, fun k hk ↦ ?_, h.deletedKey⟩
    · rw [lookup_insert_ite] at hk
      split at hk
      · next he =>
        cases hk
        exact he.symm
      · exact h.account hk
    · rw [lookup_insert_ite, if_neg (ne_of_mem_of_not_mem hk live)]
      exact h.deletedAccount k hk

/-- Removing an account keeps the rest filed. -/
theorem removeAccount {s : State} (h : Filed s) (id : Uuid) : Filed (s.removeAccount id) := by
  refine ⟨fun {k a} hk ↦ ?_, h.key, fun k hk ↦ ?_, h.deletedKey⟩
  · simp only [State.removeAccount, lookup_erase_ite] at hk
    split at hk
    · cases hk
    · exact h.account hk
  · simp only [State.removeAccount, lookup_erase_ite, Finset.mem_insert] at hk ⊢
    split
    · rfl
    · next hne => exact h.deletedAccount k (hk.resolve_left hne)

/-- Every operation keeps accounts and keys under their own undeleted ids. -/
theorem step {s s' : System} {op : Op} (ht : s.Transition op s') (h : Filed s.state) :
    Filed s'.state := by
  cases ht with
  | refused => exact h
  | enqueued | granted | confirmed | confirmedStateless | ticketDropped | accountBlocked
  | keyBlocked | pausedSet | published => exact h.congr rfl rfl rfl rfl
  | begun attempt held authorised =>
    obtain ⟨-, -, -, -, -, rfl⟩ := State.beginAttempt_ok_iff.mp authorised
    exact h.congr rfl rfl rfl rfl
  | @leaseDropped _ lease held =>
    obtain ⟨_, _, _, hd⟩ := s.state.dropLease_frame lease.toDispatchLease
    rw [hd]
    exact h.congr rfl rfl rfl rfl
  | @accountUpdated account live =>
    have hu := h.updateAccount account
    rwa [State.updateAccount, if_neg live] at hu
  | accountRemoved id => exact h.removeAccount id
  | @keyUpdated key live =>
    refine ⟨h.account, fun {k g} hk ↦ ?_, h.deletedAccount, fun k hk ↦ ?_⟩
    · rw [lookup_insert_ite] at hk
      split at hk
      · next he =>
        cases hk
        exact he.symm
      · exact h.key hk
    · rw [lookup_insert_ite, if_neg (ne_of_mem_of_not_mem hk live)]
      exact h.deletedKey k hk
  | keyRemoved id =>
    refine ⟨h.account, fun {k g} hk ↦ ?_, h.deletedAccount, fun k hk ↦ ?_⟩
    · simp only [State.removeKey, lookup_erase_ite] at hk
      split at hk
      · cases hk
      · exact h.key hk
    · simp only [State.removeKey, lookup_erase_ite, Finset.mem_insert] at hk ⊢
      split
      · rfl
      · next hne => exact h.deletedKey k (hk.resolve_left hne)

/-- A chosen account is a present, unblocked row under its own id. -/
theorem chosen {s : State} (h : Filed s) {session : SessionKey} {waiter : Waiter} {a : Account}
    (hc : s.chooseAccount session waiter = some a) :
    s.accounts.lookup a.id = some a ∧ a.id ∉ s.blocked := by
  obtain ⟨hblocked, hrow, -⟩ := State.chooseAccount_some hc
  rcases hrow with hbound | ⟨⟨k, hk⟩, hn⟩
  · obtain ⟨b, hb, hl⟩ := Option.bind_eq_some_iff.mp hbound
    have hid := h.account hl
    exact ⟨by rw [hid, hl], by rw [hid]; exact hblocked b hb⟩
  · exact ⟨by rw [h.account hk, hk], hn⟩

end Filed

namespace System

/-- Records are filed in every reachable state. -/
theorem Reachable.filed {s : System} (h : s.Reachable) : Filed s.state :=
  h.of_transition (P := fun s ↦ Filed s.state) (fun _ ↦ Filed.new) fun _ ↦ Filed.step

/-- A tombstone stays. -/
theorem Transition.tombstones {s s' : System} {op : Op} (ht : s.Transition op s') :
    s.state.deletedAccounts ⊆ s'.state.deletedAccounts ∧
      s.state.deletedKeys ⊆ s'.state.deletedKeys := by
  cases ht with
  | refused | enqueued | granted | confirmed | confirmedStateless | ticketDropped
  | accountUpdated | accountBlocked | keyUpdated | keyBlocked | pausedSet | published =>
    exact ⟨subset_rfl, subset_rfl⟩
  | begun attempt held authorised =>
    obtain ⟨-, -, -, -, -, rfl⟩ := State.beginAttempt_ok_iff.mp authorised
    exact ⟨subset_rfl, subset_rfl⟩
  | @leaseDropped _ lease held =>
    obtain ⟨_, _, _, hd⟩ := s.state.dropLease_frame lease.toDispatchLease
    rw [hd]
    exact ⟨subset_rfl, subset_rfl⟩
  | accountRemoved id => exact ⟨Finset.subset_insert _ _, subset_rfl⟩
  | keyRemoved id => exact ⟨subset_rfl, Finset.subset_insert _ _⟩

/-- A deleted account stays deleted over every run. -/
theorem deletedAccount_run {s : System} (ops : List Op) {k : Uuid}
    (h : k ∈ s.state.deletedAccounts) : k ∈ (run step s ops).state.deletedAccounts :=
  run_invariant (P := fun s ↦ k ∈ s.state.deletedAccounts)
    (fun s op h ↦ (step_transition s op).tombstones.1 h) ops h

/-- A deleted key stays deleted over every run. -/
theorem deletedKey_run {s : System} (ops : List Op) {k : Uuid}
    (h : k ∈ s.state.deletedKeys) : k ∈ (run step s ops).state.deletedKeys :=
  run_invariant (P := fun s ↦ k ∈ s.state.deletedKeys)
    (fun s op h ↦ (step_transition s op).tombstones.2 h) ops h

end System
end Xxgate.Scheduling

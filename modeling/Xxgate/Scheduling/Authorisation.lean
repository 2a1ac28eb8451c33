import Xxgate.Scheduling.Binding

/-!
# Authorising a send

`begin_attempt` passes only for a lease whose key and account are, at that instant, what
the request was accepted for. A deleted account or key is in a tombstone set that no
operation takes it out of, so no late row brings it back to life.
-/

namespace Xxgate.Scheduling

open Xxgate.Base Xxgate.Base.FiniteMap Xxgate.Core

namespace State

/-- The scheduler as it is now lets the lease send. -/
structure Authorises (s : State) (lease : DispatchLease) : Prop where
  unpaused : s.paused = false
  key : ∃ key, s.keys.lookup lease.session.keyId = some key ∧ key.enabled = true ∧
    key.groupId = lease.groupId ∧ lease.session.keyId ∉ s.blockedKeys
  account : ∃ a, s.accounts.lookup lease.account.id = some a ∧ a.enabled = true ∧
    lease.groupId ∈ a.groupIds ∧ a.supports lease.model = true ∧
    a.accepts lease.source = true ∧ lease.account.id ∉ s.blocked
  settled : lease.needsCommit = false

/-- An authorised attempt passed every check. -/
theorem authorises_of_beginAttempt {s s' : State} {lease : DispatchLease}
    {previousAttempts : UInt8} (h : s.beginAttempt lease previousAttempts = .ok s') :
    s.Authorises lease := by
  obtain ⟨hk, hb, ⟨a, ha, hserve⟩, hc, -⟩ := beginAttempt_ok_iff.mp h
  obtain ⟨hp, hbk, key, hkey, hen, hg⟩ := (checkKey_ok_iff ..).mp hk
  obtain ⟨he, hgr, hacc, hsup⟩ := (serves_iff ..).mp hserve
  exact ⟨hp, ⟨key, hkey, hen, hg, hbk⟩, ⟨a, ha, he, hgr, hsup, hacc, hb⟩, hc⟩

end State

namespace System

/-- A grant is on a key and an account that are present. -/
theorem Reachable.grant_present {s : System} (h : s.Reachable) {cfg : RuntimeSettings}
    {now : Nat} {bindingId ns id : Uuid} {state : State} {lease : DispatchLease}
    (hr : s.state.tryReserve cfg now bindingId ns id = .ok (state, some lease)) :
    s.state.accounts.lookup lease.account.id = some lease.account ∧
      ∃ key, s.state.keys.lookup lease.session.keyId = some key := by
  obtain ⟨-, -, -, sel, hsel, -, rfl, -⟩ := State.tryReserve_some_iff.mp hr
  obtain ⟨_, -, hd, -⟩ := State.select_some hsel
  obtain ⟨hready, hc⟩ := State.dispatch_some hd.dispatch
  obtain ⟨-, he, -⟩ := (State.ready_iff ..).mp hready
  obtain ⟨-, -, key, hkey, -⟩ :=
    (State.checkKey_ok_iff ..).mp ((State.checkEligibility_ok_iff ..).mp he).1
  exact ⟨(h.filed.chosen hc).1, key, hkey⟩

/-- Nothing is granted on a deleted account or key, and nothing authorised on one. -/
theorem Reachable.deleted_unused {s : System} (h : s.Reachable) :
    (∀ cfg now bindingId ns id state lease,
      s.state.tryReserve cfg now bindingId ns id = .ok (state, some lease) →
      lease.account.id ∉ s.state.deletedAccounts ∧ lease.session.keyId ∉ s.state.deletedKeys) ∧
    (∀ lease previousAttempts state, s.state.beginAttempt lease previousAttempts = .ok state →
      lease.account.id ∉ s.state.deletedAccounts ∧
        lease.session.keyId ∉ s.state.deletedKeys) := by
  have hgone : ∀ {account key : Uuid}, (∃ a, s.state.accounts.lookup account = some a) →
      (∃ k, s.state.keys.lookup key = some k) →
      account ∉ s.state.deletedAccounts ∧ key ∉ s.state.deletedKeys := by
    rintro account key ⟨a, ha⟩ ⟨k, hk⟩
    refine ⟨fun hd ↦ ?_, fun hd ↦ ?_⟩
    · rw [h.filed.deletedAccount account hd] at ha
      cases ha
    · rw [h.filed.deletedKey key hd] at hk
      cases hk
  constructor
  · intro cfg now bindingId ns id state lease hr
    obtain ⟨ha, hk⟩ := h.grant_present hr
    exact hgone ⟨_, ha⟩ hk
  · intro lease previousAttempts state hb
    obtain ⟨-, ⟨key, hk, -⟩, ⟨a, ha, -⟩, -⟩ := State.authorises_of_beginAttempt hb
    exact hgone ⟨a, ha⟩ ⟨key, hk⟩

/-- The lease map's counter of a live lease is the number of its authorised attempts. -/
theorem Reachable.attempts {s : System} (h : s.Reachable) {id : Uuid} {lease : LiveLease}
    (hl : s.leases.lookup id = some lease) {previousAttempts : UInt8} {state : State}
    (hb : s.state.beginAttempt lease.toDispatchLease previousAttempts = .ok state) :
    lease.attempts = previousAttempts.toNat := by
  obtain ⟨-, -, -, -, hcount, -⟩ := State.beginAttempt_ok_iff.mp hb
  have hi := h.occupied.leases lease.id
  rw [hcount, h.occupied.key hl, hl] at hi
  exact (Option.some.inj hi).symm

/-- Send authorisation is safe, and deletions are final over every later run. -/
theorem authorisation_safe {s : System} (h : s.Reachable) :
    (∀ id lease previousAttempts state, s.leases.lookup id = some lease →
      s.state.beginAttempt lease.toDispatchLease previousAttempts = .ok state →
      s.state.Authorises lease.toDispatchLease ∧ lease.attempts = previousAttempts.toNat) ∧
    (∀ account ops, let s' := run step (s.step (.removeAccount account)) ops
      (∀ now bindingId ns id state lease,
        s'.state.tryReserve s'.settings.toRuntimeSettings now bindingId ns id =
          .ok (state, some lease) → lease.account.id ≠ account) ∧
      (∀ id lease previousAttempts state, s'.leases.lookup id = some lease →
        s'.state.beginAttempt lease.toDispatchLease previousAttempts = .ok state →
        lease.account.id ≠ account)) ∧
    (∀ key ops, let s' := run step (s.step (.removeKey key)) ops
      (∀ now bindingId ns id state lease,
        s'.state.tryReserve s'.settings.toRuntimeSettings now bindingId ns id =
          .ok (state, some lease) → lease.session.keyId ≠ key) ∧
      (∀ id lease previousAttempts state, s'.leases.lookup id = some lease →
        s'.state.beginAttempt lease.toDispatchLease previousAttempts = .ok state →
        lease.session.keyId ≠ key)) := by
  refine ⟨?_, ?_, ?_⟩
  · intro id lease previousAttempts state hl hb
    exact ⟨State.authorises_of_beginAttempt hb, h.attempts hl hb⟩
  · intro account ops s'
    have hd : account ∈ s'.state.deletedAccounts :=
      deletedAccount_run ops (Finset.mem_insert_self _ _)
    obtain ⟨hgrant, hbegin⟩ := ((h.run [.removeAccount account]).run ops).deleted_unused
    refine ⟨fun now bindingId ns id state lease hr he ↦ ?_,
      fun id lease previousAttempts state _ hb he ↦ ?_⟩
    · exact (hgrant _ _ _ _ _ _ _ hr).1 (by rw [he]; exact hd)
    · exact (hbegin _ _ _ hb).1 (by rw [he]; exact hd)
  · intro key ops s'
    have hd : key ∈ s'.state.deletedKeys := deletedKey_run ops (Finset.mem_insert_self _ _)
    obtain ⟨hgrant, hbegin⟩ := ((h.run [.removeKey key]).run ops).deleted_unused
    refine ⟨fun now bindingId ns id state lease hr he ↦ ?_,
      fun id lease previousAttempts state _ hb he ↦ ?_⟩
    · exact (hgrant _ _ _ _ _ _ _ hr).2 (by rw [he]; exact hd)
    · exact (hbegin _ _ _ hb).2 (by rw [he]; exact hd)

/-- A late row of the deleted account does not let its lease send. -/
theorem authorisation_safe_late_row :
    let s := Sample.after [7] [Sample.arrive 1 "a" "t", Sample.poll 1, .confirmBinding 1]
    (∃ state, s.state.beginAttempt ((s.leases.lookup 1).get (by decide)).toDispatchLease 0 =
      .ok state) ∧
    ∀ previousAttempts state, (run step (s.step (.removeAccount 7))
        [.updateAccount (Sample.account 7)]).state.beginAttempt
        ((s.leases.lookup 1).get (by decide)).toDispatchLease previousAttempts ≠ .ok state :=
  ⟨⟨_, rfl⟩, fun previousAttempts state hb ↦
    ((authorisation_safe (Sample.reachable _ _)).2.1 7 [.updateAccount (Sample.account 7)]).2
      1 _ previousAttempts state rfl hb rfl⟩

end System
end Xxgate.Scheduling

import Xxgate.Base.Tally
import Xxgate.Scheduling.Queue

/-!
# Capacity accounting

The counters per account, the lease map and the activity of each session are kept beside
the leases in the callers' hands. They are exact in every reachable state, so a lease takes
one unit when it is granted and gives it back when it is dropped, whatever happened to its
account in between.
-/

namespace Xxgate.Scheduling

open Xxgate.Base Xxgate.Base.FiniteMap Xxgate.Core

namespace State

/-- The lease a session's activity records for a thread. -/
def threadLease (s : State) (session : SessionKey) (thread : String) : Option Uuid :=
  (s.activeSessions.lookup session).bind (·.threads.lookup thread)

/-- Requests a session has in flight. -/
def sessionLoad (s : State) (session : SessionKey) : Nat :=
  (s.activeSessions.lookup session).elim 0 (·.threads.keys.length)

/-- The caps leave room for one more request of the session on the account, as the row
`account` is filed now. -/
structure WithinCaps (s : State) (cfg : RuntimeSettings) (session : SessionKey)
    (account : Account) : Prop where
  total : (s.inflight.values.map UInt32.toNat).sum < cfg.globalMaxInflight.toNat
  session : s.sessionLoad session < cfg.sessionMaxInflight.toNat
  row : s.accounts.lookup account.id = some account
  account : s.load account.id < account.maxInflight

/-! ### Activity after each operation -/

/-- A reservation records its lease for its thread. -/
theorem threadLease_grant (s : State) (sel : Selected) (id : Uuid) (needsCommit : Bool)
    (k : SessionKey) (t : String) :
    (s.grant sel id needsCommit).threadLease k t =
      if k = sel.session ∧ t = sel.waiter.threadId then some id else s.threadLease k t := by
  simp only [threadLease, grant, lookup_insert_ite]
  by_cases hk : k = sel.session
  · subst hk
    rw [if_pos rfl, Option.bind_some, lookup_insert_ite]
    by_cases ht : t = sel.waiter.threadId
    · simp [ht]
    · cases s.activeSessions.lookup sel.session <;> simp [ht, SessionActivity.empty]
  · simp [hk]

/-- Clearing a pending mark keeps every thread. -/
theorem threadLease_clearPending (s : State) (lease : DispatchLease) (k : SessionKey)
    (t : String) : (s.clearPending lease).threadLease k t = s.threadLease k t := by
  simp only [threadLease, clearPending, lookup_modify]
  by_cases hk : k = lease.session
  · subst hk
    rw [if_pos rfl]
    cases s.activeSessions.lookup lease.session with
    | none => rfl
    | some a =>
      rw [Option.map_some, Option.bind_some, Option.bind_some]
      split <;> rfl
  · rw [if_neg hk]

/-- What remains of a session's activity once a lease ends. -/
theorem lookup_activeSessions_dropLease {s : State} {lease : DispatchLease}
    (h : lease.id ∈ s.leases) (k : SessionKey) :
    (s.dropLease lease).activeSessions.lookup k =
      if k = lease.session then
        (s.activeSessions.lookup lease.session).bind (endActivity · lease)
      else s.activeSessions.lookup k := by
  simp only [dropLease, if_pos h]
  cases ha : s.activeSessions.lookup lease.session with
  | none =>
    dsimp only
    by_cases hk : k = lease.session
    · rw [if_pos hk, hk, ha, Option.bind_none]
    · rw [if_neg hk]
  | some a =>
    dsimp only
    rw [Option.bind_some]
    cases he : endActivity a lease with
    | none => exact lookup_erase_ite ..
    | some rest => exact lookup_insert_ite ..

/-- A remaining activity has the threads of the old one but the lease's. -/
theorem endActivity_some {a rest : SessionActivity} {lease : DispatchLease}
    (h : endActivity a lease = some rest) :
    rest.threads = a.threads.erase lease.threadId ∧ rest.threads ≠ ∅ := by
  unfold endActivity at h
  by_cases hempty : (a.threads.erase lease.threadId).keys.isEmpty = true
  · rw [if_pos hempty] at h
    cases h
  · rw [if_neg hempty] at h
    obtain rfl := Option.some.inj h
    refine ⟨rfl, fun he ↦ hempty ?_⟩
    have he : a.threads.erase lease.threadId = ∅ := he
    rw [he]
    rfl

/-- A remaining activity keeps the pending mark of any other lease. -/
theorem bindingPending_endActivity {a rest : SessionActivity} {lease : DispatchLease}
    (h : endActivity a lease = some rest) :
    rest.bindingPending =
      if a.bindingPending = some lease.id then none else a.bindingPending := by
  unfold endActivity at h
  by_cases hempty : (a.threads.erase lease.threadId).keys.isEmpty = true
  · rw [if_pos hempty] at h
    cases h
  · rw [if_neg hempty] at h
    obtain rfl := Option.some.inj h
    rfl

/-- Nothing remains of an activity when the lease's thread was its last. -/
theorem endActivity_none {a : SessionActivity} {lease : DispatchLease}
    (h : endActivity a lease = none) (t : String) :
    (a.threads.erase lease.threadId).lookup t = none := by
  unfold endActivity at h
  by_cases hempty : (a.threads.erase lease.threadId).keys.isEmpty = true
  · rw [AList.lookup_eq_none, AList.mem_keys, List.isEmpty_iff.mp hempty]
    exact List.not_mem_nil
  · rw [if_neg hempty] at h
    cases h

/-- A dropped lease frees its thread. -/
theorem threadLease_dropLease {s : State} {lease : DispatchLease} (h : lease.id ∈ s.leases)
    (k : SessionKey) (t : String) :
    (s.dropLease lease).threadLease k t =
      if k = lease.session ∧ t = lease.threadId then none else s.threadLease k t := by
  simp only [threadLease, lookup_activeSessions_dropLease h]
  by_cases hk : k = lease.session
  · subst hk
    rw [if_pos rfl]
    cases s.activeSessions.lookup lease.session with
    | none => simp
    | some a =>
      rw [Option.bind_some, Option.bind_some]
      have herase : (a.threads.erase lease.threadId).lookup t =
          if lease.session = lease.session ∧ t = lease.threadId then none
          else a.threads.lookup t := by
        rw [lookup_erase_ite]
        simp
      rw [← herase]
      cases he : endActivity a lease with
      | none => rw [Option.bind_none, endActivity_none he]
      | some rest => rw [Option.bind_some, (endActivity_some he).1]
  · simp [hk]

end State

/-- The sum of counters that add up below the word size is their sum. -/
theorem toNat_sum (ns : List UInt32) (h : (ns.map UInt32.toNat).sum < UInt32.size) :
    ns.sum.toNat = (ns.map UInt32.toNat).sum := by
  induction ns with
  | nil => rfl
  | cons n ns ih =>
    rw [List.map_cons, List.sum_cons] at h ⊢
    have hns : (ns.map UInt32.toNat).sum < UInt32.size := by omega
    rw [List.sum_cons, UInt32.toNat_add, ih hns]
    exact Nat.mod_eq_of_lt h

/-! ### The invariant -/

/-- The counters, the lease map and the activity describe the live leases exactly. -/
structure Occupied (s : System) : Prop where
  key : ∀ {i l}, s.leases.lookup i = some l → l.id = i
  leases : ∀ i, (s.state.leases.lookup i).map UInt8.toNat =
    (s.leases.lookup i).map LiveLease.attempts
  attempts : ∀ {i l}, s.leases.lookup i = some l → l.attempts ≤ 2
  tally : Tally s.state.inflight UInt32.toNat (fun l : LiveLease ↦ l.account.id) s.leases
  bounded : s.leases.values.length < UInt32.size
  threads : ∀ {k t i}, s.state.threadLease k t = some i ↔
    ∃ l, s.leases.lookup i = some l ∧ l.session = k ∧ l.threadId = t
  occupied : ∀ {k a}, s.state.activeSessions.lookup k = some a → a.threads ≠ ∅

namespace Occupied

variable {s s' : System}

/-- Live leases and keys of the lease map are the same ids. -/
theorem mem_leases (h : Occupied s) (i : Uuid) :
    i ∈ s.state.leases ↔ ∃ l, s.leases.lookup i = some l := by
  have hi := h.leases i
  rw [mem_iff_lookup]
  constructor
  · rintro ⟨n, hn⟩
    rw [hn] at hi
    obtain ⟨l, hl, -⟩ := Option.map_eq_some_iff.mp hi.symm
    exact ⟨l, hl⟩
  · rintro ⟨l, hl⟩
    rw [hl] at hi
    obtain ⟨n, hn, -⟩ := Option.map_eq_some_iff.mp hi
    exact ⟨n, hn⟩

/-- A session is active exactly while one of its leases lives. -/
theorem active_iff (h : Occupied s) (k : SessionKey) :
    (s.state.activeSessions.lookup k).isSome ↔
      ∃ i l, s.leases.lookup i = some l ∧ l.session = k := by
  constructor
  · intro ha
    obtain ⟨a, ha⟩ := Option.isSome_iff_exists.mp ha
    have hne := h.occupied ha
    obtain ⟨t, ht⟩ : ∃ t, (a.threads.lookup t).isSome := by
      by_contra hall
      refine hne (eq_empty_of_lookup _ fun t ↦ ?_)
      simpa using fun ht ↦ hall ⟨t, ht⟩
    obtain ⟨i, hi⟩ := Option.isSome_iff_exists.mp ht
    have hthread : s.state.threadLease k t = some i := by
      rw [State.threadLease, ha, Option.bind_some, hi]
    obtain ⟨l, hl, hk, -⟩ := h.threads.mp hthread
    exact ⟨i, l, hl, hk⟩
  · rintro ⟨i, l, hl, rfl⟩
    have hthread := h.threads.mpr ⟨l, hl, rfl, rfl⟩
    unfold State.threadLease at hthread
    obtain ⟨a, ha, -⟩ := Option.bind_eq_some_iff.mp hthread
    rw [ha]
    rfl

/-- The total in flight is the number of live leases. -/
theorem total (h : Occupied s) :
    s.state.inflight.values.sum.toNat = s.leases.values.length := by
  rw [← h.tally.total]
  refine toNat_sum _ ?_
  rw [h.tally.total]
  exact h.bounded

/-- A counter reads the number of live leases on its account. -/
theorem load (h : Occupied s) (a : Uuid) :
    (s.state.load a).toNat = s.leases.values.countP (·.account.id = a) := by
  rw [← h.tally.count, State.load]
  cases s.state.inflight.lookup a <;> rfl

/-- A counter never exceeds the total. -/
theorem load_le (h : Occupied s) (a : Uuid) :
    (s.state.load a).toNat ≤ s.leases.values.length := by
  rw [h.load]
  exact List.countP_le_length

/-- The threads a session's activity records are those of its live leases. -/
theorem mem_threads (h : Occupied s) {k : SessionKey} {a : SessionActivity}
    (ha : s.state.activeSessions.lookup k = some a) {t : String} {i : Uuid} :
    a.threads.lookup t = some i ↔
      ∃ l, s.leases.lookup i = some l ∧ l.session = k ∧ l.threadId = t := by
  rw [← h.threads, State.threadLease, ha, Option.bind_some]

/-! ### Steps -/

/-- The accounting depends on the counters, the activity and the leases only. -/
theorem congr (h : Occupied s) (hi : s'.state.inflight = s.state.inflight)
    (ha : s'.state.activeSessions = s.state.activeSessions)
    (hm : s'.state.leases = s.state.leases) (hl : s'.leases = s.leases) : Occupied s' where
  key := by
    rw [hl]
    exact h.key
  leases := by
    rw [hl, hm]
    exact h.leases
  attempts := by
    rw [hl]
    exact h.attempts
  tally := by
    rw [hl, hi]
    exact h.tally
  bounded := by
    rw [hl]
    exact h.bounded
  threads := by
    unfold State.threadLease
    rw [hl, ha]
    exact h.threads
  occupied := by
    rw [ha]
    exact h.occupied

/-- A new scheduler has nothing in flight. -/
theorem new (settings : LiveSettings) (accounts : List Account) (bindings : List Binding)
    (keys : List GatewayKey) : Occupied (System.new settings accounts bindings keys) where
  key := fun hi ↦ absurd hi (by simp [System.new])
  leases := fun _ ↦ rfl
  attempts := fun hi ↦ absurd hi (by simp [System.new])
  tally := Tally.empty
  bounded := Nat.zero_lt_succ _
  threads := by simp [State.threadLease, System.new, State.new]
  occupied := fun ha ↦ absurd ha (by simp [System.new, State.new])

/-- A live lease may change its binding marks, and its attempts with the lease map. -/
theorem update (h : Occupied s) {id : Uuid} {lease lease' : LiveLease}
    (held : s.leases.lookup id = some lease) (hl : s'.leases = s.leases.insert id lease')
    (hid : lease'.id = lease.id) (hsession : lease'.session = lease.session)
    (hthread : lease'.threadId = lease.threadId)
    (haccount : lease'.account = lease.account) (hattempts : lease'.attempts ≤ 2)
    (hm : (s'.state.leases.lookup id).map UInt8.toNat = some lease'.attempts)
    (hm' : ∀ i, i ≠ id → s'.state.leases.lookup i = s.state.leases.lookup i)
    (hi : s'.state.inflight = s.state.inflight)
    (ha : ∀ k t, s'.state.threadLease k t = s.state.threadLease k t)
    (ho : ∀ {k a}, s'.state.activeSessions.lookup k = some a → a.threads ≠ ∅) :
    Occupied s' := by
  have hsame : ∀ {i l'}, s'.leases.lookup i = some l' → ∃ l, s.leases.lookup i = some l ∧
      l'.id = l.id ∧ l'.session = l.session ∧ l'.threadId = l.threadId ∧ l'.attempts ≤ 2 := by
    intro i l' hl'
    rw [hl, lookup_insert_ite] at hl'
    split at hl'
    · next he =>
      cases hl'
      exact ⟨lease, he ▸ held, hid, hsession, hthread, hattempts⟩
    · exact ⟨l', hl', rfl, rfl, rfl, h.attempts hl'⟩
  refine ⟨?_, ?_, ?_, ?_, ?_, ?_, ho⟩
  · intro i l' hl'
    obtain ⟨l, hl, he, -⟩ := hsame hl'
    exact he.trans (h.key hl)
  · intro i
    rw [hl, lookup_insert_ite]
    by_cases he : i = id
    · rw [if_pos he, he, hm, Option.map_some]
    · rw [if_neg he, hm' i he, h.leases]
  · intro i l' hl'
    obtain ⟨l, -, -, -, -, ha⟩ := hsame hl'
    exact ha
  · rw [hl, hi]
    exact h.tally.update held (congrArg Account.id haccount)
  · rw [hl, values_insert, List.length_cons, ← List.length_cons (a := lease),
      ← (values_perm_erase _ held).length_eq]
    exact h.bounded
  · intro k t i
    rw [ha, h.threads, hl, lookup_insert_ite]
    by_cases he : i = id
    · rw [if_pos he, he]
      constructor
      · rintro ⟨l, hl, hk, ht⟩
        cases held.symm.trans hl
        exact ⟨lease', rfl, hsession.trans hk, hthread.trans ht⟩
      · rintro ⟨l, hl, hk, ht⟩
        cases hl
        exact ⟨lease, held, hsession.symm.trans hk, hthread.symm.trans ht⟩
    · rw [if_neg he]

/-- The first dispatchable waiter has a free thread of its session and a free account. -/
theorem free_of_first {st : State} {cfg : RuntimeSettings} {now : Nat} {sel : Selected}
    (hf : st.First cfg now sel) :
    st.threadLease sel.session sel.waiter.threadId = none ∧
      st.load sel.account.id < sel.account.maxInflight := by
  obtain ⟨_, -, hd, -⟩ := hf
  obtain ⟨hr, hc⟩ := State.dispatch_some hd.dispatch
  obtain ⟨hthread, -, -⟩ := (State.ready_iff ..).mp hr
  obtain ⟨-, -, -, hload, -⟩ := State.chooseAccount_some hc
  refine ⟨?_, hload⟩
  unfold State.threadLease
  cases ha : st.activeSessions.lookup sel.session with
  | none => rfl
  | some a => exact AList.lookup_eq_none.mpr (hthread a ha)

/-- A reservation adds one lease to every count. -/
theorem grant (h : Occupied s) {id bindingId ns : Uuid} {sel : Selected} {now : Nat}
    (hfresh : s.leases.lookup id = none)
    (below : s.state.inflight.values.sum < s.settings.globalMaxInflight)
    (first : s.state.First s.settings.toRuntimeSettings now sel)
    (tickets : FiniteMap Uuid LiveTicket) :
    Occupied { s with
      state := s.state.grant sel id (s.state.leaseOf sel id bindingId ns).needsCommit
      tickets := tickets
      leases := s.leases.insert id ⟨s.state.leaseOf sel id bindingId ns, 0⟩ } := by
  have hlt : s.leases.values.length + 1 < UInt32.size := by
    have hb : s.state.inflight.values.sum.toNat < s.settings.globalMaxInflight.toNat := below
    have hmax := s.settings.globalMaxInflight.toNat_lt
    rw [h.total] at hb
    simp only [UInt32.size]
    omega
  have hload :
      (s.state.load sel.account.id + 1).toNat = (s.state.load sel.account.id).toNat + 1 := by
    have hle := h.load_le sel.account.id
    rw [UInt32.toNat_add]
    exact Nat.mod_eq_of_lt (by simp only [UInt32.size] at hlt; simp; omega)
  refine ⟨?_, ?_, ?_, ?_, ?_, ?_, ?_⟩
  · intro i l hl
    simp only [lookup_insert_ite] at hl
    split at hl
    · next he =>
      cases hl
      exact he.symm
    · exact h.key hl
  · intro i
    simp only [State.grant, lookup_insert_ite]
    split
    · rfl
    · exact h.leases i
  · intro i l hl
    simp only [lookup_insert_ite] at hl
    split at hl
    · cases hl
      exact Nat.zero_le 2
    · exact h.attempts hl
  · refine h.tally.insert_fresh (a := ⟨s.state.leaseOf sel id bindingId ns, 0⟩) hfresh ?_
    change (s.state.load sel.account.id + 1).toNat =
      (s.state.inflight.lookup sel.account.id).elim 0 _ + 1
    rw [hload, h.tally.count, h.load]
  · simp only [values_insert, values_erase_of_absent _ hfresh, List.length_cons]
    exact hlt
  · intro k t i
    simp only [State.threadLease_grant, lookup_insert_ite]
    by_cases hkt : k = sel.session ∧ t = sel.waiter.threadId
    · rw [if_pos hkt]
      constructor
      · intro hi
        obtain rfl := Option.some.inj hi
        exact ⟨_, if_pos rfl, hkt.1.symm, hkt.2.symm⟩
      · rintro ⟨l, hl, hk, ht⟩
        split at hl
        · next he => rw [he]
        · have hthread := h.threads.mpr ⟨l, hl, hk, ht⟩
          rw [hkt.1, hkt.2, (free_of_first first).1] at hthread
          cases hthread
    · rw [if_neg hkt, h.threads]
      constructor
      · rintro ⟨l, hl, hk, ht⟩
        have hne : i ≠ id := by
          rintro rfl
          cases hfresh.symm.trans hl
        exact ⟨l, (if_neg hne).trans hl, hk, ht⟩
      · rintro ⟨l, hl, hk, ht⟩
        split at hl
        · cases hl
          exact absurd ⟨hk.symm, ht.symm⟩ hkt
        · exact ⟨l, hl, hk, ht⟩
  · intro k a hka
    simp only [State.grant, lookup_insert_ite] at hka
    split at hka
    · cases hka
      intro he
      have hl := congrArg (AList.lookup sel.waiter.threadId) he
      rw [lookup_insert_ite, if_pos rfl] at hl
      cases hl
    · exact h.occupied hka

/-- A dropped lease is taken out of every count. -/
theorem drop (h : Occupied s) {id : Uuid} {lease : LiveLease}
    (held : s.leases.lookup id = some lease) :
    Occupied { s with
      state := s.state.dropLease lease.toDispatchLease
      leases := s.leases.erase id } := by
  have hid : lease.id = id := h.key held
  have hmem : lease.id ∈ s.state.leases := (h.mem_leases _).mpr ⟨lease, hid ▸ held⟩
  have hsub : ∀ {i l}, AList.lookup i (s.leases.erase id) = some l →
      i ≠ id ∧ s.leases.lookup i = some l := by
    intro i l hl
    rw [lookup_erase_ite] at hl
    split at hl
    · cases hl
    · next hne => exact ⟨hne, hl⟩
  refine ⟨fun hl ↦ h.key (hsub hl).2, ?_, fun hl ↦ h.attempts (hsub hl).2, ?_, ?_, ?_, ?_⟩
  · intro i
    have hleases : (s.state.dropLease lease.toDispatchLease).leases = s.state.leases.erase id := by
      rw [State.dropLease, if_pos hmem, hid]
    rw [hleases, lookup_erase_ite, lookup_erase_ite]
    split
    · rfl
    · exact h.leases i
  · have hinflight : (s.state.dropLease lease.toDispatchLease).inflight =
        s.state.inflight.modify lease.account.id State.saturatingPred := by
      rw [State.dropLease, if_pos hmem]
    have hpos := h.tally.pos held
    rw [hinflight]
    unfold FiniteMap.modify
    cases hc : s.state.inflight.lookup lease.account.id with
    | none => simp [hc] at hpos
    | some n =>
      rw [hc, Option.elim_some] at hpos
      refine h.tally.erase held ?_
      rw [hc, Option.elim_some]
      exact State.toNat_saturatingPred hpos
  · have hlen := (values_perm_erase _ held).length_eq
    have hb := h.bounded
    rw [List.length_cons] at hlen
    change (values (s.leases.erase id)).length < UInt32.size
    omega
  · intro k t i
    rw [State.threadLease_dropLease hmem]
    by_cases hkt : k = lease.session ∧ t = lease.threadId
    · rw [if_pos hkt]
      constructor
      · nofun
      · rintro ⟨l, hl, hk, ht⟩
        obtain ⟨hne, hl⟩ := hsub hl
        have hown := h.threads.mpr ⟨lease, held, hkt.1.symm, hkt.2.symm⟩
        rw [h.threads.mpr ⟨l, hl, hk, ht⟩] at hown
        exact absurd (Option.some.inj hown) hne
    · rw [if_neg hkt, h.threads]
      constructor
      · rintro ⟨l, hl, hk, ht⟩
        refine ⟨l, ?_, hk, ht⟩
        rw [lookup_erase_ite, if_neg]
        · exact hl
        · rintro rfl
          cases held.symm.trans hl
          exact hkt ⟨hk.symm, ht.symm⟩
      · rintro ⟨l, hl, hk, ht⟩
        exact ⟨l, (hsub hl).2, hk, ht⟩
  · intro k a ha
    rw [State.lookup_activeSessions_dropLease hmem] at ha
    split at ha
    · obtain ⟨_, -, he⟩ := Option.bind_eq_some_iff.mp ha
      exact (State.endActivity_some he).2
    · exact h.occupied ha

/-- Clearing a pending mark leaves no activity without threads. -/
theorem occupied_clearPending {st : State} {lease : DispatchLease}
    (h : ∀ {k a}, st.activeSessions.lookup k = some a → a.threads ≠ ∅) {k : SessionKey}
    {a : SessionActivity} (ha : (st.clearPending lease).activeSessions.lookup k = some a) :
    a.threads ≠ ∅ := by
  simp only [State.clearPending, lookup_modify] at ha
  split at ha
  · obtain ⟨b, hb, rfl⟩ := Option.map_eq_some_iff.mp ha
    have hb := h hb
    split <;> exact hb
  · exact h ha

/-- Every operation keeps the accounting exact. -/
theorem step {op : Op} (hq : Ticketed s) (ht : s.Transition op s') (h : Occupied s) :
    Occupied s' := by
  cases ht with
  | refused => exact h
  | enqueued | ticketDropped | accountUpdated | accountRemoved | accountBlocked | keyUpdated
  | keyRemoved | keyBlocked | pausedSet | published => exact h.congr rfl rfl rfl rfl
  | @granted id now bindingId ns sel unpaused below first own =>
    have hw : sel.waiter ∈ s.state.waiting sel.session :=
      List.mem_of_getElem? (Ticketed.waiting_of_first first)
    obtain ⟨t, ht, hg, -⟩ := hq.waiter hw
    exact h.grant (hq.exclusive (own ▸ ht) hg) below first _
  | @confirmed id lease held pending =>
    have hattempts := h.attempts held
    refine h.update held rfl rfl rfl rfl rfl hattempts ?_ (fun _ _ ↦ rfl) rfl
      (State.threadLease_clearPending _ _) (occupied_clearPending h.occupied)
    exact (h.leases id).trans (by rw [held]; rfl)
  | @confirmedStateless id lease held pending _ =>
    have hattempts := h.attempts held
    refine h.update held rfl rfl rfl rfl rfl hattempts ?_ (fun _ _ ↦ rfl) rfl
      (State.threadLease_clearPending _ _) (occupied_clearPending h.occupied)
    exact (h.leases id).trans (by rw [held]; rfl)
  | @begun op id lease previousAttempts state attempt held authorised =>
    obtain ⟨-, -, -, -, hl, rfl⟩ := State.beginAttempt_ok_iff.mp authorised
    have hid : lease.id = id := h.key held
    have hcount : previousAttempts.toNat = lease.attempts := by
      have hi := h.leases id
      rw [← hid, hl, hid, held] at hi
      exact Option.some.inj hi
    have hsmall : previousAttempts.toNat ≤ 1 := by
      rcases attempt with ⟨-, rfl⟩ | ⟨-, rfl⟩ <;> decide
    have hnext : (previousAttempts + 1).toNat = lease.attempts + 1 := by
      rw [UInt8.toNat_add, hcount]
      exact Nat.mod_eq_of_lt (by simp; omega)
    have hattempts : lease.attempts + 1 ≤ 2 := by omega
    refine h.update held rfl rfl rfl rfl rfl hattempts ?_ ?_ rfl
      (fun _ _ ↦ rfl) h.occupied
    · simp only [lookup_insert_ite, hid, if_pos, Option.map_some, hnext]
    · intro i hi
      simp only [lookup_insert_ite, hid, if_neg hi]
  | leaseDropped held => exact h.drop held

end Occupied

namespace System

/-- The accounting is exact in every reachable state. -/
theorem Reachable.occupied {s : System} (h : s.Reachable) : Occupied s :=
  h.of_transition Occupied.new fun hr ↦ Occupied.step hr.ticketed

/-- The caps hold whenever a reservation succeeds. -/
theorem Reachable.withinCaps {s : System} (h : s.Reachable) {now : Nat}
    {bindingId ns id : Uuid} {state : State} {lease : DispatchLease}
    (hr : s.state.tryReserve s.settings.toRuntimeSettings now bindingId ns id =
      .ok (state, some lease)) :
    s.state.WithinCaps s.settings.toRuntimeSettings lease.session lease.account := by
  obtain ⟨-, -, hbelow, sel, hsel, -, rfl, -⟩ := State.tryReserve_some_iff.mp hr
  have hfirst := State.select_some hsel
  obtain ⟨_, -, hd, -⟩ := hfirst
  refine ⟨?_, ?_, (h.filed.chosen (State.dispatch_some hd.dispatch).2).1,
    (Occupied.free_of_first (State.select_some hsel)).2⟩
  · rw [h.occupied.tally.total, ← h.occupied.total]
    exact hbelow
  · have hroom := hd.room
    change s.state.sessionLoad sel.session < _
    unfold State.saturated at hroom
    unfold State.sessionLoad
    cases ha : s.state.activeSessions.lookup sel.session with
    | none => exact s.settings.sessionMaxInflight_pos
    | some a =>
      rw [ha, Option.any_some, Bool.or_eq_false_iff, decide_eq_false_iff_not] at hroom
      exact Nat.lt_of_not_le hroom.1

/-- Capacity accounting is exact: the counters, the lease map and the activity are those of
the live leases, no drop saturates, every grant is within the caps, and everything is back
to zero when no lease lives. -/
theorem capacity_exact {s : System} (h : s.Reachable) :
    (∀ a, (s.state.load a).toNat = s.leases.values.countP (·.account.id = a)) ∧
    (∀ i, i ∈ s.state.leases ↔ ∃ l, s.leases.lookup i = some l ∧ l.id = i) ∧
    (∀ k a, s.state.activeSessions.lookup k = some a → ∀ t i, a.threads.lookup t = some i ↔
      ∃ l, s.leases.lookup i = some l ∧ l.session = k ∧ l.threadId = t) ∧
    (∀ k, s.state.activeSessions.lookup k = none ↔
      ∀ i l, s.leases.lookup i = some l → l.session ≠ k) ∧
    (∀ i l, s.leases.lookup i = some l → ∃ n, s.state.inflight.lookup l.account.id = some n ∧
      (State.saturatingPred n).toNat + 1 = n.toNat) ∧
    (∀ now bindingId ns id state lease,
      s.state.tryReserve s.settings.toRuntimeSettings now bindingId ns id =
        .ok (state, some lease) →
      s.state.WithinCaps s.settings.toRuntimeSettings lease.session lease.account) ∧
    (s.leases = ∅ → (∀ a, s.state.load a = 0) ∧ s.state.activeSessions = ∅ ∧
      s.state.leases = ∅) := by
  have ho := h.occupied
  have hinactive : ∀ k, s.state.activeSessions.lookup k = none ↔
      ∀ i l, s.leases.lookup i = some l → l.session ≠ k := by
    intro k
    rw [← Option.not_isSome_iff_eq_none, ho.active_iff]
    simp
  refine ⟨ho.load, ?_, fun k a ha t i ↦ ho.mem_threads ha, hinactive, ?_, ?_, ?_⟩
  · intro i
    rw [ho.mem_leases]
    exact ⟨fun ⟨l, hl⟩ ↦ ⟨l, hl, ho.key hl⟩, fun ⟨l, hl, _⟩ ↦ ⟨l, hl⟩⟩
  · intro i l hl
    have hpos := ho.tally.pos hl
    cases hn : s.state.inflight.lookup l.account.id with
    | none => simp [hn] at hpos
    | some n =>
      rw [hn, Option.elim_some] at hpos
      exact ⟨n, rfl, State.toNat_saturatingPred hpos⟩
  · exact fun now bindingId ns id state lease hr ↦ h.withinCaps hr
  · intro hempty
    refine ⟨fun a ↦ ?_, eq_empty_of_lookup _ fun k ↦ ?_, eq_empty_of_lookup _ fun i ↦ ?_⟩
    · rw [← UInt32.toNat_inj, ho.load, hempty]
      rfl
    · rw [hinactive, hempty]
      simp
    · have hi := ho.leases i
      rw [hempty, AList.lookup_empty, Option.map_none, Option.map_eq_none_iff] at hi
      exact hi

/-- With one request granted and its account deleted, the account still counts it. -/
theorem capacity_exact_deleted_account :
    let s := Sample.after [7] [Sample.arrive 1 "a" "t", Sample.poll 1, .removeAccount 7]
    s.state.load 7 = 1 ∧ (s.state.load 7).toNat = s.leases.values.countP (·.account.id = 7) :=
  ⟨by decide, (capacity_exact (Sample.reachable _ _)).1 7⟩

end System
end Xxgate.Scheduling

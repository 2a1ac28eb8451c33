import Xxgate.Scheduling.Authorisation

/-!
# Who gets the next reservation

Below the global cap, a reservation goes to the first dispatchable waiter in rotation order
and to nobody else, so progress needs a dispatchable waiter and its owner's poll. An idle
session's eligible waiter is dispatchable unless the session is bound to a blocked account,
and a deleted account can stay blocked for good.
-/

namespace Xxgate.Scheduling

open Xxgate.Base Xxgate.Base.FiniteMap Xxgate.Core

namespace State

variable {s : State} {cfg : RuntimeSettings} {now : Nat}

/-- A session with a dispatchable waiter is in the rotation. -/
theorem Dispatchable.mem_order (hrot : s.Rotating) {sel : Selected}
    (h : s.Dispatchable cfg now sel) : sel.session ∈ s.order := by
  obtain ⟨queue, hq, -⟩ := h.queue
  rw [hrot.mem, hq]
  rfl

/-- At most one selection comes first. -/
theorem First.unique {sel sel' : Selected} (h : s.First cfg now sel)
    (h' : s.First cfg now sel') : sel = sel' := by
  obtain ⟨i, hi, hd, hmin⟩ := h
  obtain ⟨j, hj, hd', hmin'⟩ := h'
  have hij := hmin sel' j hj hd'
  have hji := hmin' sel i hi hd
  have heq : i = j := by omega
  subst heq
  have hsession : sel.session = sel'.session := Option.some.inj (hi.symm.trans hj)
  have hposition : sel.position = sel'.position := by omega
  obtain ⟨queue, hq, hw, -⟩ := hd.queue
  obtain ⟨queue', hq', hw', -⟩ := hd'.queue
  have hqueue : queue = queue' := by
    rw [hsession, hq'] at hq
    exact (Option.some.inj hq).symm
  have hwaiter : sel.waiter = sel'.waiter := by
    rw [hqueue, hposition, hw'] at hw
    exact (Option.some.inj hw).symm
  have haccount : sel.account = sel'.account := by
    have hda := hd.dispatch
    rw [hsession, hwaiter, hd'.dispatch] at hda
    exact (Option.some.inj hda).symm
  cases sel
  cases sel'
  simp only at hsession hposition hwaiter haccount
  rw [hsession, hposition, hwaiter, haccount]

/-- The selection is the dispatchable waiter that comes first. -/
theorem select_eq_some_iff (hrot : s.Rotating) {sel : Selected} :
    s.select cfg now = some sel ↔ s.First cfg now sel := by
  constructor
  · exact select_some
  · intro h
    cases hs : s.select cfg now with
    | none =>
      obtain ⟨_, -, hd, -⟩ := h
      exact absurd hd (select_none hs (hd.mem_order hrot))
    | some sel' => rw [h.unique (select_some hs)]

/-- Something comes first as soon as anything is dispatchable. -/
theorem exists_first (hrot : s.Rotating) {sel : Selected} (h : s.Dispatchable cfg now sel) :
    ∃ first, s.First cfg now first := by
  cases hs : s.select cfg now with
  | none => exact absurd h (select_none hs (h.mem_order hrot))
  | some first => exact ⟨first, select_some hs⟩

end State

namespace System

/-- `try_reserve` of the request returns a lease. -/
def Grants (s : System) (now : Nat) (id : Uuid) : Prop :=
  ∃ bindingId ns state lease,
    s.state.tryReserve s.settings.toRuntimeSettings now bindingId ns id = .ok (state, some lease)

/-- A reservation succeeds exactly for the request that comes first. -/
theorem Reachable.grants_iff {s : System} (h : s.Reachable) (unpaused : s.state.paused = false)
    (below : s.leases.values.length < s.settings.globalMaxInflight.toNat) {now : Nat} {id : Uuid} :
    s.Grants now id ↔
      ∃ first, s.state.First s.settings.toRuntimeSettings now first ∧ first.waiter.id = id := by
  constructor
  · rintro ⟨bindingId, ns, state, lease, hr⟩
    obtain ⟨-, -, -, sel, hsel, hid, -⟩ := State.tryReserve_some_iff.mp hr
    exact ⟨sel, State.select_some hsel, hid⟩
  · rintro ⟨first, hf, hid⟩
    have hw : first.waiter ∈ s.state.waiting first.session :=
      List.mem_of_getElem? (Ticketed.waiting_of_first hf)
    have hfind := h.ticketed.findWaiter hw
    have hsel := (State.select_eq_some_iff h.ticketed.rotating).mpr hf
    obtain ⟨_, -, hd, -⟩ := hf
    obtain ⟨-, he, -⟩ := (State.ready_iff ..).mp (State.dispatch_some hd.dispatch).1
    refine ⟨0, 0, _, _, State.tryReserve_some_iff.mpr ⟨unpaused, ⟨_, _, hid ▸ hfind, he⟩, ?_,
      first, hsel, hid, rfl, rfl⟩⟩
    rw [UInt32.lt_iff_toNat_lt, h.occupied.total]
    exact below

/-! ### Stalled tickets -/

/-- With something dispatchable, a ticket outside `stalled` gets a lease exactly when the
waiter that comes first is not a stalled one: a stalled ticket at the head of the rotation
holds up every other session. -/
theorem dispatch_unstalled_iff {s : System} (h : s.Reachable) {now : Nat} {stalled : Set Uuid}
    (unpaused : s.state.paused = false)
    (below : s.leases.values.length < s.settings.globalMaxInflight.toNat)
    {sel : Selected} (hsel : s.state.Dispatchable s.settings.toRuntimeSettings now sel) :
    (∃ id, id ∉ stalled ∧ s.Grants now id) ↔
      ∀ first, s.state.First s.settings.toRuntimeSettings now first →
        first.waiter.id ∉ stalled := by
  constructor
  · rintro ⟨id, hid, hg⟩ first hf
    obtain ⟨first', hf', rfl⟩ := (h.grants_iff unpaused below).mp hg
    rwa [hf.unique hf']
  · intro hall
    obtain ⟨first, hf⟩ := State.exists_first h.ticketed.rotating hsel
    exact ⟨first.waiter.id, hall first hf, (h.grants_iff unpaused below).mpr ⟨first, hf, rfl⟩⟩

/-- Sessions `a` and `b` each have a dispatchable waiter, in this order. -/
def contended : System :=
  Sample.after [7, 8] [Sample.arrive 1 "a" "t", Sample.arrive 2 "b" "t"]

/-- What is selected for a session of `contended` with one waiter. -/
theorem contended_dispatchable :
    contended.state.Dispatchable Sample.settings.toRuntimeSettings 0
      ⟨⟨50, "b"⟩, ⟨.codex, 2, "t", 1, .codex "gpt", 0⟩, 0, Sample.account 7⟩ :=
  ⟨by decide, ⟨_, rfl, rfl, by simp⟩, by decide⟩

/-- While the first ticket is not stalled, it is served although the second one is. -/
theorem dispatch_unstalled_first : ∃ id, id ∉ ({2} : Set Uuid) ∧ contended.Grants 0 id :=
  (dispatch_unstalled_iff (s := contended) (Sample.reachable _ _) rfl (by decide)
    contended_dispatchable).mpr fun first hf ↦ by
      have hsel := (State.select_eq_some_iff
        (Reachable.ticketed (s := contended) (Sample.reachable _ _)).rotating).mpr hf
      have hid : (contended.state.select Sample.settings.toRuntimeSettings 0).map
          (·.waiter.id) = some 1 := by decide
      have hone : first.waiter.id = 1 := by
        rw [show contended.state.select Sample.settings.toRuntimeSettings 0 = some first from hsel]
          at hid
        exact Option.some.inj hid
      rw [hone]
      simp

/-- With ticket 1 stalled, session `b` has an unstalled dispatchable waiter and gets nothing. -/
theorem stalled_ticket_blocks :
    contended.state.paused = false ∧
      contended.leases.values.length < contended.settings.globalMaxInflight.toNat ∧
      (∃ sel, contended.state.Dispatchable contended.settings.toRuntimeSettings 0 sel ∧
        sel.session = ⟨50, "b"⟩) ∧
      (∀ w ∈ contended.state.waiting ⟨50, "b"⟩, w.id ≠ 1) ∧
      ∀ id, id ≠ 1 → ¬contended.Grants 0 id := by
  refine ⟨rfl, by decide, ⟨_, contended_dispatchable, rfl⟩, by decide, ?_⟩
  rintro id hne ⟨bindingId, ns, state, lease, hr⟩
  obtain ⟨-, -, -, sel, hsel, hid, -⟩ := State.tryReserve_some_iff.mp hr
  have hone : (contended.state.select contended.settings.toRuntimeSettings 0).map
      (·.waiter.id) = some 1 := by decide
  rw [hsel, Option.map_some, hid] at hone
  exact hne (Option.some.inj hone)

/-! ### Stuck sessions -/

/-- The administrators' brackets open after an operation: a block opens one, the update or
removal that follows closes it. -/
def openBracket (opened : Finset Uuid) : Op → Finset Uuid
  | .blockAccount id => insert id opened
  | .updateAccount account => opened.erase account.id
  | .removeAccount id => opened.erase id
  | _ => opened

/-- The brackets still open at the end of a run. -/
def openBrackets (ops : List Op) : Finset Uuid := ops.foldl openBracket ∅

/-- The session is bound to a deleted account that is still in `blocked`. -/
def Stranded (s : System) (session : SessionKey) : Prop :=
  ∃ b, s.state.bindings.lookup session = some b ∧ b.accountId ∈ s.state.deletedAccounts ∧
    b.accountId ∈ s.state.blocked

/-- The session is idle with a waiter that only lacks its turn: capacity is free in all and
on every account that serves it. -/
structure Waits (s : System) (now : Nat) (session : SessionKey) (waiter : Waiter) : Prop where
  unpaused : s.state.paused = false
  below : s.leases.values.length < s.settings.globalMaxInflight.toNat
  idle : ∀ i l, s.leases.lookup i = some l → l.session ≠ session
  earliest : ∃ position, Earliest (s.state.waiting session) position waiter
  eligible : s.state.checkEligibility session waiter.groupId waiter.model waiter.source = .ok ()
  unexpired : now - waiter.since < s.settings.queueTimeoutMs * 1000
  spare : ∀ k a, s.state.accounts.lookup k = some a →
    serves a waiter.groupId waiter.model waiter.source = true → s.state.load a.id < a.maxInflight

/-- A block outlives its bracket only on a deleted account. -/
theorem blocked_step {s s' : System} {op : Op} (ht : s.Transition op s') {opened : Finset Uuid}
    (h : ∀ id ∈ s.state.blocked, id ∈ opened ∨ id ∈ s.state.deletedAccounts) :
    ∀ id ∈ s'.state.blocked, id ∈ openBracket opened op ∨ id ∈ s'.state.deletedAccounts := by
  intro id hid
  cases ht with
  | refused _ refusable =>
    cases op with
    | updateAccount account =>
      by_cases he : id = account.id
      · rw [he]
        exact .inr refusable
      · exact (h id hid).imp_left fun ho ↦ Finset.mem_erase.mpr ⟨he, ho⟩
    | removeAccount | blockAccount => exact refusable.elim
    | _ => exact h id hid
  | enqueued | granted | confirmed | confirmedStateless | ticketDropped | keyUpdated
  | keyRemoved | keyBlocked | pausedSet | published => exact h id hid
  | begun attempt held authorised =>
    obtain ⟨-, -, -, -, -, rfl⟩ := State.beginAttempt_ok_iff.mp authorised
    rcases attempt with ⟨rfl, -⟩ | ⟨rfl, -⟩ <;> exact h id hid
  | @leaseDropped _ lease held =>
    obtain ⟨_, _, _, hd⟩ := s.state.dropLease_frame lease.toDispatchLease
    rw [hd] at hid ⊢
    exact h id hid
  | accountUpdated live =>
    obtain ⟨hne, hid⟩ := Finset.mem_erase.mp hid
    exact (h id hid).imp_left fun ho ↦ Finset.mem_erase.mpr ⟨hne, ho⟩
  | accountRemoved account =>
    by_cases he : id = account
    · rw [he]
      exact .inr (Finset.mem_insert_self _ _)
    · exact (h id hid).imp (fun ho ↦ Finset.mem_erase.mpr ⟨he, ho⟩) Finset.mem_insert_of_mem
  | accountBlocked account =>
    rcases Finset.mem_insert.mp hid with rfl | hid
    · exact .inl (Finset.mem_insert_self _ _)
    · exact (h id hid).imp_left Finset.mem_insert_of_mem

/-- With all brackets closed, only deleted accounts are blocked. -/
theorem blocked_subset_deleted {s : System} {ops : List Op} (hs : s.state.blocked = ∅)
    (hclosed : openBrackets ops = ∅) :
    ∀ id ∈ (run step s ops).state.blocked, id ∈ (run step s ops).state.deletedAccounts := by
  have hrun : ∀ (ops : List Op) (s : System) (opened : Finset Uuid),
      (∀ id ∈ s.state.blocked, id ∈ opened ∨ id ∈ s.state.deletedAccounts) →
      ∀ id ∈ (run step s ops).state.blocked,
        id ∈ ops.foldl openBracket opened ∨ id ∈ (run step s ops).state.deletedAccounts := by
    intro ops
    induction ops with
    | nil => exact fun s opened h ↦ h
    | cons op ops ih => exact fun s opened h ↦ ih _ _ (blocked_step (step_transition s op) h)
  intro id hid
  refine (hrun ops s ∅ (by simp [hs]) id hid).resolve_left fun ho ↦ ?_
  rw [show ops.foldl openBracket ∅ = ∅ from hclosed] at ho
  exact Finset.notMem_empty id ho

/-- An idle session's waiter can be dispatched unless the session's account is blocked. -/
theorem Waits.dispatchable {s : System} (h : s.Reachable) {now : Nat} {session : SessionKey}
    {waiter : Waiter} (hw : s.Waits now session waiter)
    (hfree : ∀ b, s.state.bindings.lookup session = some b → b.accountId ∉ s.state.blocked) :
    ∃ sel, sel.session = session ∧
      s.state.Dispatchable s.settings.toRuntimeSettings now sel := by
  have hidle : s.state.activeSessions.lookup session = none := by
    rw [← Option.not_isSome_iff_eq_none, h.occupied.active_iff]
    rintro ⟨i, l, hl, hk⟩
    exact hw.idle i l hl hk
  have hready : s.state.ready s.settings.toRuntimeSettings now session waiter = true :=
    (State.ready_iff ..).mpr ⟨by simp [hidle], hw.eligible, hw.unexpired⟩
  have hblocked : (s.state.bindings.lookup session).any
      (fun b ↦ decide (b.accountId ∈ s.state.blocked)) = false := by
    cases hb : s.state.bindings.lookup session with
    | none => rfl
    | some b => simpa using hfree b hb
  obtain ⟨a, ha⟩ : ∃ a, s.state.chooseAccount session waiter = some a := by
    simp only [State.chooseAccount, hblocked, hidle]
    cases hbound : (s.state.boundAccount session).filter
        (serves · waiter.groupId waiter.model waiter.source) with
    | some a =>
      -- the session's own account serves the request, and has capacity
      obtain ⟨hrow, hserve⟩ := Option.filter_eq_some_iff.mp hbound
      obtain ⟨b, -, hl⟩ := Option.bind_eq_some_iff.mp hrow
      exact ⟨a, by simp [hw.spare _ _ hl hserve]⟩
    | none =>
      -- any other one that makes the request eligible has capacity too
      obtain ⟨-, -, hsome⟩ := (State.checkEligibility_ok_iff ..).mp hw.eligible
      have hany : s.state.AnyServes waiter.groupId waiter.model waiter.source := by
        refine hsome.resolve_left ?_
        rintro ⟨a, hrow, hserve, -⟩
        rw [hrow, Option.filter_eq_none_iff] at hbound
        exact hbound a rfl hserve
      obtain ⟨k, a, hk, hserve, hnb⟩ := hany
      have hmem : a ∈ s.state.candidates waiter := by
        simp only [State.candidates, List.mem_filter, mem_values]
        exact ⟨⟨k, hk⟩, by simp [hserve, hnb, hw.spare k a hk hserve]⟩
      cases hmin : (s.state.candidates waiter).argmin s.state.rank with
      | none =>
        rw [List.argmin_eq_none.mp hmin] at hmem
        cases hmem
      | some c => exact ⟨c, by simp⟩
  obtain ⟨position, he⟩ := hw.earliest
  have hin : waiter ∈ s.state.waiting session := List.mem_of_getElem? he.1
  refine ⟨⟨session, waiter, position, a⟩, rfl, ?_, ⟨_, State.queue_of_mem_waiting hin, he⟩, ?_⟩
  · simp [State.saturated, hidle]
  · simp only [State.dispatch, hready, if_true, ha]

/-- No waiter of a session with a blocked account can be dispatched. -/
theorem not_dispatchable_of_blocked {s : State} {cfg : RuntimeSettings} {now : Nat}
    {sel : Selected} {b : Binding} (hb : s.bindings.lookup sel.session = some b)
    (hblocked : b.accountId ∈ s.blocked) : ¬s.Dispatchable cfg now sel := fun hd ↦
  (State.chooseAccount_some (State.dispatch_some hd.dispatch).2).1 b hb hblocked

/-- Over runs whose brackets are closed, an idle session with a waiter that only lacks its
turn: some request gets a lease exactly when the session is not stranded on a deleted
account or another session has something to dispatch, and a stranded session itself gets
nothing. -/
theorem no_session_stuck {settings : LiveSettings} {accounts : List Account}
    {bindings : List Binding} {keys : List GatewayKey} {ops : List Op}
    (hclosed : openBrackets ops = ∅) :
    let s := run step (new settings accounts bindings keys) ops
    ∀ {now session waiter}, s.Waits now session waiter →
      ((∃ id, s.Grants now id) ↔ ¬s.Stranded session ∨
        ∃ sel, sel.session ≠ session ∧
          s.state.Dispatchable s.settings.toRuntimeSettings now sel) ∧
      (s.Stranded session → ∀ bindingId ns id state lease,
        s.state.tryReserve s.settings.toRuntimeSettings now bindingId ns id =
          .ok (state, some lease) → lease.session ≠ session) := by
  intro s now session waiter hw
  have h : s.Reachable := ⟨settings, accounts, bindings, keys, ops, rfl⟩
  have hgrant : ∀ {sel}, s.state.Dispatchable s.settings.toRuntimeSettings now sel →
      ∃ id, s.Grants now id := by
    intro sel hd
    obtain ⟨first, hf⟩ := State.exists_first h.ticketed.rotating hd
    exact ⟨_, (h.grants_iff hw.unpaused hw.below).mpr ⟨first, hf, rfl⟩⟩
  refine ⟨⟨?_, ?_⟩, ?_⟩
  · rintro ⟨id, hg⟩
    obtain ⟨first, ⟨_, -, hd, -⟩, -⟩ := (h.grants_iff hw.unpaused hw.below).mp hg
    by_cases hk : first.session = session
    · refine .inl ?_
      rintro ⟨b, hb, -, hblocked⟩
      exact not_dispatchable_of_blocked (hk ▸ hb) hblocked hd
    · exact .inr ⟨first, hk, hd⟩
  · rintro (hns | ⟨sel, -, hd⟩)
    · obtain ⟨sel, -, hd⟩ := hw.dispatchable h fun b hb hblocked ↦
        hns ⟨b, hb, blocked_subset_deleted rfl hclosed _ hblocked, hblocked⟩
      exact hgrant hd
    · exact hgrant hd
  · rintro ⟨b, hb, -, hblocked⟩ bindingId ns id state lease hr hk
    obtain ⟨-, -, -, sel, hsel, -, rfl, -⟩ := State.tryReserve_some_iff.mp hr
    obtain ⟨_, -, hd, -⟩ := State.select_some hsel
    have hk : sel.session = session := hk
    exact not_dispatchable_of_blocked (hk ▸ hb) hblocked hd

/-- Session `a` ran on account 7 and has a new waiter, after `admin` did its work. -/
def revisited (admin : List Op) : List Op :=
  [Sample.arrive 1 "a" "t", Sample.poll 1, .confirmBinding 1, .dropLease 1] ++ admin ++
    [Sample.arrive 2 "a" "t"]

/-- The waiter of `revisited`. -/
def revisitor : Waiter := ⟨.codex, 2, "t", 1, .codex "gpt", 0⟩

/-- The waiter of `revisited` only lacks its turn, whatever `admin` made of account 7. -/
private theorem waits_revisited {s : System} (hp : s.state.paused = false) (hl : s.leases = ∅)
    (hs : s.settings = Sample.settings) (hq : s.state.waiting ⟨50, "a"⟩ = [revisitor])
    (he : s.state.checkEligibility ⟨50, "a"⟩ 1 (.codex "gpt") .codex = .ok ())
    (hspare : ∀ a ∈ s.state.accounts.values, s.state.load a.id < a.maxInflight) :
    s.Waits 0 ⟨50, "a"⟩ revisitor where
  unpaused := hp
  below := by
    rw [hl, hs]
    decide
  idle := by simp [hl]
  earliest := ⟨0, by rw [hq]; rfl, by simp⟩
  eligible := he
  unexpired := by
    rw [hs]
    decide
  spare := fun k a hk _ ↦ hspare a ((mem_values _ a).mpr ⟨k, hk⟩)

/-- An account that was blocked and updated keeps its session going. -/
theorem no_session_stuck_updated :
    ∃ id, (Sample.after [7, 8] (revisited
      [.blockAccount 7, .updateAccount (Sample.account 7)])).Grants 0 id := by
  have hw := waits_revisited (s := Sample.after [7, 8] (revisited
    [.blockAccount 7, .updateAccount (Sample.account 7)])) rfl rfl rfl rfl rfl (by decide)
  refine ((no_session_stuck rfl) hw).1.mpr (.inl ?_)
  rintro ⟨b, -, hd, -⟩
  exact absurd hd (Finset.notMem_empty _)

/-- A session whose account is deleted in its bracket never runs again, although account 8
is free and would serve it. -/
theorem deleted_account_strands :
    let ops := revisited [.blockAccount 7, .removeAccount 7]
    let s := Sample.after [7, 8] ops
    openBrackets ops = ∅ ∧ s.Waits 0 ⟨50, "a"⟩ revisitor ∧ ∀ id, ¬s.Grants 0 id := by
  intro ops s
  refine ⟨rfl, waits_revisited rfl rfl rfl rfl rfl (by decide), ?_⟩
  rintro id ⟨bindingId, ns, state, lease, hr⟩
  obtain ⟨-, -, -, sel, hsel, -⟩ := State.tryReserve_some_iff.mp hr
  have hnone : (s.state.select s.settings.toRuntimeSettings 0).isNone = true := by decide
  rw [hsel] at hnone
  cases hnone

end System
end Xxgate.Scheduling

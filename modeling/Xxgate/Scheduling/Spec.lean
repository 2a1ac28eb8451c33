import Xxgate.Scheduling.System

/-!
# What each scheduler operation does

One inversion lemma for each operation that can fail or choose: when it succeeds, what it
checked and what it left behind. `System.Transition` gathers them into the list of changes
one step can make, from which every invariant is derived.
-/

namespace Xxgate.Scheduling

open Xxgate.Base Xxgate.Base.FiniteMap Xxgate.Core

/-- A successful bind succeeded in both halves. -/
theorem bind_ok {α β : Type} {x : Result α} {f : α → Result β} {r : β}
    (h : (x >>= f) = .ok r) : ∃ a, x = .ok a ∧ f a = .ok r := by
  cases x with
  | error e => cases h
  | ok a => exact ⟨a, rfl, h⟩

/-- A check followed by the rest succeeds only when the check did not throw. -/
theorem check_ok {α : Type} {c : Prop} [Decidable c] {e : Error} {f : Unit → Result α} {r : α}
    (h : (if c then throw e >>= f else f ()) = .ok r) : ¬c ∧ f () = .ok r := by
  by_cases hc : c
  · rw [if_pos hc] at h
    cases h
  · rw [if_neg hc] at h
    exact ⟨hc, h⟩

/-- The four conditions `serves` joins. -/
theorem serves_iff (a : Account) (groupId : Uuid) (model : ModelRef) (source : ClientSource) :
    serves a groupId model source = true ↔
      a.enabled = true ∧ groupId ∈ a.groupIds ∧ a.accepts source = true ∧
        a.supports model = true := by
  simp [serves, and_assoc]

/-- The waiter stands at `position` with no earlier waiter of its thread before it. -/
def Earliest (queue : List Waiter) (position : Nat) (waiter : Waiter) : Prop :=
  queue[position]? = some waiter ∧ ∀ w ∈ queue.take position, w.threadId ≠ waiter.threadId

namespace State

variable {s s' : State} {cfg : RuntimeSettings}

/-! ### Eligibility -/

/-- The key check passes exactly for an unpaused scheduler and a present, enabled,
unblocked key of the group. -/
theorem checkKey_ok_iff (s : State) (id groupId : Uuid) :
    s.checkKey id groupId = .ok () ↔
      s.paused = false ∧ id ∉ s.blockedKeys ∧
        ∃ key, s.keys.lookup id = some key ∧ key.enabled = true ∧ key.groupId = groupId := by
  unfold checkKey
  cases hp : s.paused
  · by_cases hb : id ∈ s.blockedKeys
    · simp [hb]
    · cases hk : s.keys.lookup id with
      | none => simp [hb]
      | some key =>
        cases he : key.enabled
        · simp [hb, Option.filter, he]
        · by_cases hg : key.groupId = groupId <;> simp [hb, Option.filter, he, hg]
  · simp

/-- The bound account serves the request and is not blocked. -/
def BoundServes (s : State) (session : SessionKey) (groupId : Uuid) (model : ModelRef)
    (source : ClientSource) : Prop :=
  ∃ a, s.boundAccount session = some a ∧ serves a groupId model source = true ∧ a.id ∉ s.blocked

/-- Some unblocked account serves the request. -/
def AnyServes (s : State) (groupId : Uuid) (model : ModelRef) (source : ClientSource) : Prop :=
  ∃ k a, s.accounts.lookup k = some a ∧ serves a groupId model source = true ∧ a.id ∉ s.blocked

private theorem boundServes_iff (s : State) (session : SessionKey) (groupId : Uuid)
    (model : ModelRef) (source : ClientSource) :
    ((s.boundAccount session).filter (serves · groupId model source)).any
      (fun a ↦ decide (a.id ∉ s.blocked)) = true ↔
        s.BoundServes session groupId model source := by
  unfold BoundServes
  cases s.boundAccount session with
  | none => simp
  | some a => by_cases h : serves a groupId model source = true <;> simp [Option.filter, h]

private theorem anyServes_iff (s : State) (groupId : Uuid) (model : ModelRef)
    (source : ClientSource) :
    (s.accounts.values.filter (s.eligible groupId model)).any (·.accepts source) = true ↔
      s.AnyServes groupId model source := by
  simp only [AnyServes, List.any_eq_true, List.mem_filter, mem_values, eligible, serves,
    Bool.and_eq_true, Bool.not_eq_true', decide_eq_false_iff_not]
  constructor
  · rintro ⟨a, ⟨⟨k, hk⟩, ⟨⟨he, hb⟩, hg⟩, hs⟩, ha⟩
    exact ⟨k, a, hk, ⟨⟨⟨he, hg⟩, ha⟩, hs⟩, hb⟩
  · rintro ⟨k, a, hk, ⟨⟨⟨he, hg⟩, ha⟩, hs⟩, hb⟩
    exact ⟨a, ⟨⟨k, hk⟩, ⟨⟨he, hb⟩, hg⟩, hs⟩, ha⟩

/-- Eligibility in declarative form: the key check passes, a binding is compatible, and the
bound account or any other one serves the request unblocked. -/
theorem checkEligibility_ok_iff (s : State) (session : SessionKey) (groupId : Uuid)
    (model : ModelRef) (source : ClientSource) :
    s.checkEligibility session groupId model source = .ok () ↔
      s.checkKey session.keyId groupId = .ok () ∧
        (∀ b, s.bindings.lookup session = some b → b.compatible model = true) ∧
        (s.BoundServes session groupId model source ∨ s.AnyServes groupId model source) := by
  rw [← boundServes_iff, ← anyServes_iff]
  have hcompat : (∀ b, s.bindings.lookup session = some b → b.compatible model = true) ↔
      (s.bindings.lookup session).any (!·.compatible model) = false := by
    cases s.bindings.lookup session <;> simp
  rw [hcompat]
  unfold checkEligibility
  cases hk : s.checkKey session.keyId groupId with
  | error e => exact ⟨nofun, fun h ↦ by cases h.1⟩
  | ok u =>
    change (if _ then _ else _ : Result Unit) = _ ↔ _
    cases (s.bindings.lookup session).any (!·.compatible model) with
    | true => exact ⟨nofun, fun h ↦ by cases h.2.1⟩
    | false =>
      rw [if_neg Bool.false_ne_true]
      split
      · next hb => exact ⟨fun _ ↦ ⟨rfl, rfl, .inl hb⟩, fun _ ↦ rfl⟩
      · next hb =>
        split
        · next ha => exact ⟨fun _ ↦ ⟨rfl, rfl, .inr ha⟩, fun _ ↦ rfl⟩
        · next ha =>
          refine ⟨fun h ↦ ?_, fun h ↦ (h.2.2.elim hb ha).elim⟩
          split at h <;> cases h

/-! ### The queue -/

/-- What `enqueue` checks and leaves behind. -/
theorem enqueue_ok {id : Uuid} {thread : ThreadKey} {groupId : Uuid} {model : ModelRef}
    {source : ClientSource} {since : Nat} {ticket : QueueTicket}
    (h : s.enqueue cfg id thread groupId model source since = .ok (s', ticket)) :
    s.checkEligibility thread.session groupId model source = .ok () ∧
      s.queued < cfg.queueCapacity ∧
      s' = s.push thread.session ⟨source, id, thread.clientThreadId, groupId, model, since⟩ ∧
      ticket = ⟨id, thread.session, since⟩ := by
  unfold enqueue at h
  obtain ⟨-, h⟩ := check_ok h
  obtain ⟨⟨⟩, he, h⟩ := bind_ok h
  obtain ⟨hq, h⟩ := check_ok h
  cases h
  exact ⟨he, Nat.lt_of_not_le hq, rfl, rfl⟩

/-! ### Selection -/

/-- What a waiter that may run now has been checked for. -/
theorem ready_iff (s : State) (now : Nat) (session : SessionKey) (waiter : Waiter) :
    s.ready cfg now session waiter = true ↔
      (∀ a, s.activeSessions.lookup session = some a → waiter.threadId ∉ a.threads) ∧
      s.checkEligibility session waiter.groupId waiter.model waiter.source = .ok () ∧
      now - waiter.since < cfg.queueTimeoutMs * 1000 := by
  have hok : (s.checkEligibility session waiter.groupId waiter.model waiter.source).isOk = true ↔
      s.checkEligibility session waiter.groupId waiter.model waiter.source = .ok () := by
    cases s.checkEligibility session waiter.groupId waiter.model waiter.source with
    | error e => simp [Except.isOk, Except.toBool]
    | ok u => simp [Except.isOk, Except.toBool]
  unfold ready
  rw [Bool.and_eq_true, Bool.and_eq_true, hok, decide_eq_true_iff, and_assoc]
  cases s.activeSessions.lookup session <;> simp

/-- A dispatched waiter was ready, and its account was chosen. -/
theorem dispatch_some {now : Nat} {session : SessionKey} {waiter : Waiter} {a : Account}
    (h : s.dispatch cfg now session waiter = some a) :
    s.ready cfg now session waiter = true ∧ s.chooseAccount session waiter = some a := by
  unfold dispatch at h
  split at h
  · next hr => exact ⟨hr, h⟩
  · cases h

/-- What an account was chosen for: the session's own account while it serves the request,
any unblocked one that serves it otherwise; free capacity; and nothing left to drain. -/
theorem chooseAccount_some {session : SessionKey} {waiter : Waiter} {a : Account}
    (h : s.chooseAccount session waiter = some a) :
    (∀ b, s.bindings.lookup session = some b → b.accountId ∉ s.blocked) ∧
      (s.boundAccount session = some a ∨
        (∃ k, s.accounts.lookup k = some a) ∧ a.id ∉ s.blocked) ∧
      serves a waiter.groupId waiter.model waiter.source = true ∧
      s.load a.id < a.maxInflight ∧
      ((s.activeSessions.lookup session).isSome →
        migrates (s.bindings.lookup session) a waiter.groupId = false) := by
  simp only [chooseAccount] at h
  split at h
  · cases h
  · next hblk =>
    obtain ⟨h, hm⟩ := Option.filter_eq_some_iff.mp h
    refine ⟨?_, ?_⟩
    · intro b hb
      simpa [hb] using hblk
    · have hdrain : (s.activeSessions.lookup session).isSome →
          migrates (s.bindings.lookup session) a waiter.groupId = false := by
        intro ha
        simpa [ha] using hm
      split at h
      · next c hbound =>
        obtain ⟨hc, hserve⟩ := Option.filter_eq_some_iff.mp hbound
        split at h
        · next hload =>
          cases h
          exact ⟨.inl hc, hserve, hload, hdrain⟩
        · cases h
      · have hmem := List.argmin_mem h
        simp only [candidates, List.mem_filter, mem_values, Bool.and_eq_true,
          Bool.not_eq_true', decide_eq_false_iff_not, decide_eq_true_eq] at hmem
        obtain ⟨hk, ⟨hserve, hb⟩, hload⟩ := hmem
        exact ⟨.inr ⟨hk, hb⟩, hserve, hload, hdrain⟩

/-- The first earliest-of-its-thread waiter that can be dispatched, if any, for a queue
whose first part `before` was passed over. -/
private theorem selectWaiter_spec (s : State) (now : Nat) (session : SessionKey)
    (before queue : List Waiter) (seen : List String)
    (hseen : ∀ t, t ∈ seen ↔ ∃ w ∈ before, w.threadId = t)
    (hbefore : ∀ p w, Earliest (before ++ queue) p w → p < before.length →
      s.dispatch cfg now session w = none) :
    match s.selectWaiter cfg now session queue seen before.length with
    | some (w, p, a) => Earliest (before ++ queue) p w ∧
        s.dispatch cfg now session w = some a ∧
        ∀ p' w', p' < p → Earliest (before ++ queue) p' w' →
          s.dispatch cfg now session w' = none
    | none => ∀ p w, Earliest (before ++ queue) p w → s.dispatch cfg now session w = none := by
  induction queue generalizing before seen with
  | nil =>
    intro p w he
    refine hbefore p w he ?_
    have := List.getElem?_eq_some_iff.mp he.1
    simpa using this.1
  | cons x rest ih =>
    have hat : (before ++ x :: rest)[before.length]? = some x := by simp
    have htake : (before ++ x :: rest).take before.length = before := by simp
    have happ : before ++ x :: rest = (before ++ [x]) ++ rest := by simp
    have hlen : (before ++ [x]).length = before.length + 1 := by simp
    -- a waiter just past the old part is `x` itself
    have hnext : ∀ seen', (∀ t, t ∈ seen' ↔ ∃ w ∈ before ++ [x], w.threadId = t) →
        (Earliest (before ++ x :: rest) before.length x →
          s.dispatch cfg now session x = none) →
        match s.selectWaiter cfg now session rest seen' (before.length + 1) with
        | some (w, p, a) => Earliest (before ++ x :: rest) p w ∧
            s.dispatch cfg now session w = some a ∧
            ∀ p' w', p' < p → Earliest (before ++ x :: rest) p' w' →
              s.dispatch cfg now session w' = none
        | none => ∀ p w, Earliest (before ++ x :: rest) p w →
            s.dispatch cfg now session w = none := by
      intro seen' hs hx
      rw [happ, ← hlen]
      refine ih (before ++ [x]) seen' hs ?_
      rw [← happ, hlen]
      intro p w he hp
      rcases Nat.lt_succ_iff_lt_or_eq.mp hp with hp | rfl
      · exact hbefore p w he hp
      · obtain rfl : x = w := Option.some.inj (hat.symm.trans he.1)
        exact hx he
    unfold selectWaiter
    by_cases hx : x.threadId ∈ seen
    · rw [if_pos hx]
      refine hnext seen ?_ ?_
      · intro t
        constructor
        · intro ht
          obtain ⟨w, hw, rfl⟩ := (hseen t).mp ht
          exact ⟨w, List.mem_append_left _ hw, rfl⟩
        · rintro ⟨w, hw, rfl⟩
          rcases List.mem_append.mp hw with hw | hw
          · exact (hseen _).mpr ⟨w, hw, rfl⟩
          · rwa [List.mem_singleton.mp hw]
      · intro he
        obtain ⟨w, hw, ht⟩ := (hseen _).mp hx
        exact absurd ht (he.2 w (by rwa [htake]))
    · have he : Earliest (before ++ x :: rest) before.length x :=
        ⟨hat, fun w hw ht ↦ hx ((hseen _).mpr ⟨w, by rwa [htake] at hw, ht⟩)⟩
      rw [if_neg hx]
      cases hd : s.dispatch cfg now session x with
      | some a => exact ⟨he, hd, fun p' w' hp he' ↦ hbefore p' w' he' hp⟩
      | none =>
        refine hnext (x.threadId :: seen) ?_ fun _ ↦ hd
        intro t
        rw [List.mem_cons, hseen]
        constructor
        · rintro (rfl | ⟨w, hw, rfl⟩)
          · exact ⟨x, by simp, rfl⟩
          · exact ⟨w, List.mem_append_left _ hw, rfl⟩
        · rintro ⟨w, hw, rfl⟩
          rcases List.mem_append.mp hw with hw | hw
          · exact .inr ⟨w, hw, rfl⟩
          · exact .inl (by rw [List.mem_singleton.mp hw])

/-- The session has room, and its waiter at `position` is the earliest of its thread and
would be dispatched to the account. -/
structure Dispatchable (s : State) (cfg : RuntimeSettings) (now : Nat) (sel : Selected) :
    Prop where
  room : s.saturated cfg sel.session = false
  queue : ∃ queue, s.queues.lookup sel.session = some queue ∧
    Earliest queue sel.position sel.waiter
  dispatch : s.dispatch cfg now sel.session sel.waiter = some sel.account

/-- Nothing dispatchable comes before `sel` in rotation order and then in queue order. -/
def First (s : State) (cfg : RuntimeSettings) (now : Nat) (sel : Selected) : Prop :=
  ∃ i : Nat, s.order[i]? = some sel.session ∧ s.Dispatchable cfg now sel ∧
    ∀ (sel' : Selected) (j : Nat), s.order[j]? = some sel'.session → s.Dispatchable cfg now sel' →
      i < j ∨ i = j ∧ sel.position ≤ sel'.position

/-- The selection within one session. -/
private theorem pick_spec (s : State) (cfg : RuntimeSettings) (now : Nat) (session : SessionKey) :
    match (if s.saturated cfg session then none
      else (s.queues.lookup session).bind fun queue ↦
        (s.selectWaiter cfg now session queue [] 0).map fun (waiter, position, account) ↦
          ({ session, waiter, position, account } : Selected)) with
    | some sel => sel.session = session ∧ s.Dispatchable cfg now sel ∧
        ∀ sel', sel'.session = session → s.Dispatchable cfg now sel' →
          sel.position ≤ sel'.position
    | none => ∀ sel', sel'.session = session → ¬s.Dispatchable cfg now sel' := by
  cases hsat : s.saturated cfg session with
  | true =>
    rintro sel' rfl h
    exact Bool.false_ne_true (h.room.symm.trans hsat)
  | false =>
    rw [if_neg Bool.false_ne_true]
    cases hq : s.queues.lookup session with
    | none =>
      rintro sel' rfl h
      obtain ⟨queue, hq', -⟩ := h.queue
      rw [hq] at hq'
      cases hq'
    | some queue =>
      have hspec := @selectWaiter_spec cfg s now session [] queue []
        (by simp) (by simp)
      rw [Option.bind_some]
      simp only [List.nil_append, List.length_nil] at hspec
      cases hw : s.selectWaiter cfg now session queue [] 0 with
      | none =>
        rw [hw] at hspec
        rintro sel' rfl h
        obtain ⟨queue', hq', he⟩ := h.queue
        obtain rfl : queue' = queue := Option.some.inj (hq'.symm.trans hq)
        have hd := h.dispatch
        rw [hspec _ _ he] at hd
        cases hd
      | some found =>
        obtain ⟨w, p, a⟩ := found
        rw [hw] at hspec
        obtain ⟨he, hd, hfirst⟩ := hspec
        refine ⟨rfl, ⟨hsat, ⟨queue, hq, he⟩, hd⟩, ?_⟩
        rintro sel' rfl h
        obtain ⟨queue', hq', he'⟩ := h.queue
        obtain rfl : queue' = queue := Option.some.inj (hq'.symm.trans hq)
        by_contra hlt
        have hd' := h.dispatch
        rw [hfirst _ _ (Nat.lt_of_not_le hlt) he'] at hd'
        cases hd'

/-- A selection is the first dispatchable waiter. -/
theorem select_some {now : Nat} {sel : Selected} (h : s.select cfg now = some sel) :
    s.First cfg now sel := by
  obtain ⟨l₁, session, l₂, ho, hf, hbefore⟩ := List.findSome?_eq_some_iff.mp h
  have hspec := pick_spec s cfg now session
  rw [hf] at hspec
  obtain ⟨rfl, hd, hmin⟩ := hspec
  refine ⟨l₁.length, by simp [ho], hd, ?_⟩
  intro sel' j hj hd'
  rcases Nat.lt_trichotomy l₁.length j with hlt | rfl | hgt
  · exact .inl hlt
  · have hs : sel'.session = sel.session := by simpa [ho, eq_comm] using hj
    exact .inr ⟨rfl, hmin sel' hs hd'⟩
  · have hmem : sel'.session ∈ l₁ := by
      rw [ho, List.getElem?_append_left hgt] at hj
      exact List.mem_of_getElem? hj
    have hspec := pick_spec s cfg now sel'.session
    rw [hbefore _ hmem] at hspec
    exact absurd hd' (hspec sel' rfl)

/-- Without a selection nothing in the rotation is dispatchable. -/
theorem select_none {now : Nat} {sel : Selected} (h : s.select cfg now = none)
    (ho : sel.session ∈ s.order) : ¬s.Dispatchable cfg now sel := by
  have hspec := pick_spec s cfg now sel.session
  rw [List.findSome?_eq_none_iff.mp h _ ho] at hspec
  exact hspec sel rfl

/-! ### Reservation -/

/-- A reservation succeeds exactly for an eligible waiter that is the one selected, below
the global cap. -/
theorem tryReserve_some_iff {now : Nat} {bindingId ns id : Uuid} {lease : DispatchLease} :
    s.tryReserve cfg now bindingId ns id = .ok (s', some lease) ↔
      s.paused = false ∧
      (∃ session waiter, s.findWaiter id = some (session, waiter) ∧
        s.checkEligibility session waiter.groupId waiter.model waiter.source = .ok ()) ∧
      s.inflight.values.sum < cfg.globalMaxInflight ∧
      ∃ sel, s.select cfg now = some sel ∧ sel.waiter.id = id ∧
        lease = s.leaseOf sel id bindingId ns ∧ s' = s.grant sel id lease.needsCommit := by
  unfold tryReserve
  constructor
  · intro h
    obtain ⟨hp, h⟩ := check_ok h
    obtain ⟨⟨session, waiter⟩, hw, h⟩ := bind_ok h
    obtain ⟨⟨⟩, he, h⟩ := bind_ok h
    have hfind : s.findWaiter id = some (session, waiter) := by
      cases hf : s.findWaiter id with
      | none => rw [hf] at hw; cases hw
      | some found => rw [hf] at hw; cases hw; rfl
    split at h
    · cases h
    · next hg =>
      split at h
      · cases h
      · next sel hsel =>
        split at h
        · cases h
        · next hid =>
          cases h
          exact ⟨by simpa using hp, ⟨session, waiter, hfind, he⟩,
            UInt32.not_le.mp hg, sel, hsel, not_not.mp hid, rfl, rfl⟩
  · rintro ⟨hp, ⟨session, waiter, hf, he⟩, hg, sel, hsel, rfl, rfl, rfl⟩
    have hbelow : ¬cfg.globalMaxInflight ≤ s.inflight.values.sum := UInt32.not_le.mpr hg
    simp only [hp, hf, Option.elim_some, hsel]
    rw [if_neg Bool.false_ne_true]
    simp only [bind, Except.bind, he, if_neg hbelow]
    rw [if_neg (not_not.mpr rfl)]
    rfl

/-! ### Leases -/

/-- An attempt is authorised exactly when every check passes, and is then counted. -/
theorem beginAttempt_ok_iff {lease : DispatchLease} {previousAttempts : UInt8} :
    s.beginAttempt lease previousAttempts = .ok s' ↔
      s.checkKey lease.session.keyId lease.groupId = .ok () ∧
      lease.account.id ∉ s.blocked ∧
      (∃ a, s.accounts.lookup lease.account.id = some a ∧
        serves a lease.groupId lease.model lease.source = true) ∧
      lease.needsCommit = false ∧
      s.leases.lookup lease.id = some previousAttempts ∧
      s' = { s with
        leases := s.leases.insert lease.id (previousAttempts + 1)
        served := s.served.insert lease.account.id
          ((s.served.lookup lease.account.id).getD 0 + 1) } := by
  unfold beginAttempt
  constructor
  · intro h
    obtain ⟨-, h⟩ := check_ok h
    obtain ⟨⟨⟩, hk, h⟩ := bind_ok h
    obtain ⟨ha, h⟩ := check_ok h
    obtain ⟨hc, h⟩ := check_ok h
    obtain ⟨hl, h⟩ := check_ok h
    cases h
    simp only [Bool.or_eq_true, decide_eq_true_eq, Bool.not_eq_true', not_or,
      Bool.not_eq_false] at ha
    obtain ⟨a, hacc, hserve⟩ := (Option.any_eq_true _ _).mp ha.2
    exact ⟨hk, ha.1, ⟨a, hacc, hserve⟩, by simpa using hc, not_not.mp hl, rfl⟩
  · rintro ⟨hk, hb, ⟨a, ha, hserve⟩, hc, hl, rfl⟩
    have hp : s.paused = false := ((checkKey_ok_iff ..).mp hk).1
    simp [hp, hk, hb, ha, hserve, hc, hl, bind, Except.bind, pure, Except.pure]

/-- Dropping a lease changes the lease map, the counters and the activity only. -/
theorem dropLease_frame (s : State) (lease : DispatchLease) :
    ∃ leases inflight activeSessions, s.dropLease lease = { s with
      leases := leases, inflight := inflight, activeSessions := activeSessions } := by
  unfold dropLease
  split
  · exact ⟨_, _, _, rfl⟩
  · exact ⟨s.leases, s.inflight, s.activeSessions, rfl⟩

/-- A positive counter steps down by exactly one. -/
theorem toNat_saturatingPred {n : UInt32} (h : 0 < n.toNat) :
    (saturatingPred n).toNat + 1 = n.toNat := by
  have hn : n ≠ 0 := fun he ↦ by simp [he] at h
  have hle : 1 ≤ n := UInt32.le_iff_toNat_le.mpr h
  rw [saturatingPred, if_neg hn, UInt32.toNat_sub_of_le n 1 hle]
  exact Nat.sub_add_cancel h

end State

/-! ### Steps -/

namespace System

/-- A holder's operation may be without effect. Of an administrator's, only the row of a
deleted account or key is. -/
def Refusable (s : System) : Op → Prop
  | .updateAccount account => account.id ∈ s.state.deletedAccounts
  | .updateKey key => key.id ∈ s.state.deletedKeys
  | .removeAccount _ | .removeKey _ | .blockAccount _ | .blockKey _ | .setPaused _
  | .publish _ => False
  | _ => True

/-- The changes one operation can make, each with the checks that let it through. -/
inductive Transition (s : System) : Op → System → Prop where
  | refused (op : Op) (refusable : s.Refusable op) : Transition s op s
  | enqueued {id : Uuid} {thread : ThreadKey} {groupId : Uuid} {model : ModelRef}
      {source : ClientSource} {since : Nat}
      (freshTicket : s.tickets.lookup id = none) (freshLease : s.leases.lookup id = none)
      (eligible : s.state.checkEligibility thread.session groupId model source = .ok ())
      (room : s.state.queued < s.settings.queueCapacity) :
      Transition s (.enqueue id thread groupId model source since)
        { s with
          state := s.state.push thread.session
            ⟨source, id, thread.clientThreadId, groupId, model, since⟩
          tickets := s.tickets.insert id ⟨⟨id, thread.session, since⟩, false⟩ }
  | granted {id : Uuid} {now : Nat} {bindingId ns : Uuid} {sel : Selected}
      (unpaused : s.state.paused = false)
      (below : s.state.inflight.values.sum < s.settings.globalMaxInflight)
      (first : s.state.First s.settings.toRuntimeSettings now sel)
      (own : sel.waiter.id = id) :
      Transition s (.tryReserve id now bindingId ns)
        { s with
          state := s.state.grant sel id (s.state.leaseOf sel id bindingId ns).needsCommit
          tickets := s.tickets.modify id fun t ↦ { t with granted := true }
          leases := s.leases.insert id ⟨s.state.leaseOf sel id bindingId ns, 0⟩ }
  | confirmed {id : Uuid} {lease : LiveLease} (held : s.leases.lookup id = some lease)
      (pending : lease.needsCommit = true) :
      Transition s (.confirmBinding id)
        { s with
          state := (s.state.confirmBinding lease.toDispatchLease).1
          leases := s.leases.insert id
            ⟨{ lease.toDispatchLease with needsCommit := false }, lease.attempts⟩ }
  | confirmedStateless {id : Uuid} {lease : LiveLease} (held : s.leases.lookup id = some lease)
      (pending : lease.needsCommit = true) (first : lease.expectedGeneration = 0) :
      Transition s (.confirmStateless id)
        { s with
          state := s.state.clearPending lease.toDispatchLease
          leases := s.leases.insert id
            ⟨{ lease.toDispatchLease with needsCommit := false }, lease.attempts⟩ }
  | begun {op : Op} {id : Uuid} {lease : LiveLease} {previousAttempts : UInt8} {state : State}
      (attempt : op = .beginSend id ∧ previousAttempts = 0 ∨
        op = .beginEncryptedReasoningRecovery id ∧ previousAttempts = 1)
      (held : s.leases.lookup id = some lease)
      (authorised : s.state.beginAttempt lease.toDispatchLease previousAttempts = .ok state) :
      Transition s op
        { s with
          state := state
          leases := s.leases.insert id ⟨lease.toDispatchLease, lease.attempts + 1⟩ }
  | leaseDropped {id : Uuid} {lease : LiveLease} (held : s.leases.lookup id = some lease) :
      Transition s (.dropLease id)
        { s with state := s.state.dropLease lease.toDispatchLease, leases := s.leases.erase id }
  | ticketDropped {id : Uuid} {t : LiveTicket} (held : s.tickets.lookup id = some t) :
      Transition s (.dropTicket id)
        { s with
          state := s.state.removeWaiter t.ticket.id t.ticket.session
          tickets := s.tickets.erase id }
  | accountUpdated {account : Account} (live : account.id ∉ s.state.deletedAccounts) :
      Transition s (.updateAccount account)
        { s with state := { s.state with
            blocked := s.state.blocked.erase account.id
            accounts := s.state.accounts.insert account.id account } }
  | accountRemoved (id : Uuid) :
      Transition s (.removeAccount id) { s with state := s.state.removeAccount id }
  | accountBlocked (id : Uuid) :
      Transition s (.blockAccount id) { s with state := s.state.blockAccount id }
  | keyUpdated {key : GatewayKey} (live : key.id ∉ s.state.deletedKeys) :
      Transition s (.updateKey key)
        { s with state := { s.state with
            blockedKeys := s.state.blockedKeys.erase key.id
            keys := s.state.keys.insert key.id key } }
  | keyRemoved (id : Uuid) :
      Transition s (.removeKey id) { s with state := s.state.removeKey id }
  | keyBlocked (id : Uuid) :
      Transition s (.blockKey id) { s with state := s.state.blockKey id }
  | pausedSet (value : Bool) :
      Transition s (.setPaused value) { s with state := s.state.setPaused value }
  | published (settings : LiveSettings) :
      Transition s (.publish settings) { s with settings := settings }

private theorem begin_transition (s : System) {op : Op} {id : Uuid} {previousAttempts : UInt8}
    (attempt : op = .beginSend id ∧ previousAttempts = 0 ∨
      op = .beginEncryptedReasoningRecovery id ∧ previousAttempts = 1) :
    s.Transition op (s.withLease id (s.beginAttempt previousAttempts)) := by
  unfold withLease
  cases hl : s.leases.lookup id with
  | none => exact .refused op (by rcases attempt with ⟨rfl, -⟩ | ⟨rfl, -⟩ <;> trivial)
  | some lease =>
    rw [Option.bind_some]
    unfold beginAttempt
    cases ha : s.state.beginAttempt lease.toDispatchLease previousAttempts with
    | error e => exact .refused op (by rcases attempt with ⟨rfl, -⟩ | ⟨rfl, -⟩ <;> trivial)
    | ok state => exact .begun attempt hl ha

/-- Every step is one of the listed changes. -/
theorem step_transition (s : System) (op : Op) : s.Transition op (s.step op) := by
  cases op with
  | enqueue id thread groupId model source since =>
    simp only [step]
    split
    · exact .refused _ trivial
    · next hfresh =>
      rw [not_or, mem_iff_lookup, mem_iff_lookup] at hfresh
      split
      · exact .refused _ trivial
      · next state ticket h =>
        obtain ⟨he, hq, rfl, rfl⟩ := State.enqueue_ok h
        exact .enqueued (Option.eq_none_iff_forall_ne_some.mpr (not_exists.mp hfresh.1))
          (Option.eq_none_iff_forall_ne_some.mpr (not_exists.mp hfresh.2)) he hq
  | tryReserve id now bindingId ns =>
    simp only [step]
    split
    · next state lease h =>
      obtain ⟨hp, -, hg, sel, hsel, hid, rfl, rfl⟩ := State.tryReserve_some_iff.mp h
      exact .granted hp hg (State.select_some hsel) hid
    · exact .refused _ trivial
  | confirmBinding id =>
    simp only [step, withLease]
    cases hl : s.leases.lookup id with
    | none => exact .refused _ trivial
    | some lease =>
      rw [Option.bind_some]
      unfold confirmBinding
      cases hc : lease.needsCommit with
      | false => exact .refused _ trivial
      | true => exact .confirmed hl hc
  | confirmStateless id =>
    simp only [step, withLease]
    cases hl : s.leases.lookup id with
    | none => exact .refused _ trivial
    | some lease =>
      rw [Option.bind_some]
      unfold confirmStateless State.confirmStateless
      by_cases hc : (!lease.needsCommit || decide (lease.expectedGeneration ≠ 0)) = true
      · rw [if_pos hc]
        exact .refused _ trivial
      · rw [if_neg hc]
        simp only [Bool.or_eq_true, Bool.not_eq_true', decide_eq_true_eq, not_or,
          Bool.not_eq_false, not_not] at hc
        exact .confirmedStateless hl hc.1 hc.2
  | beginSend id => exact begin_transition s (.inl ⟨rfl, rfl⟩)
  | beginEncryptedReasoningRecovery id => exact begin_transition s (.inr ⟨rfl, rfl⟩)
  | dropLease id =>
    simp only [step]
    cases hl : s.leases.lookup id with
    | none => exact .refused _ trivial
    | some lease => exact .leaseDropped hl
  | dropTicket id =>
    simp only [step]
    cases ht : s.tickets.lookup id with
    | none => exact .refused _ trivial
    | some t => exact .ticketDropped ht
  | updateAccount account =>
    simp only [step, State.updateAccount]
    by_cases h : account.id ∈ s.state.deletedAccounts
    · rw [if_pos h]
      exact .refused _ h
    · rw [if_neg h]
      exact .accountUpdated h
  | removeAccount id => exact .accountRemoved id
  | blockAccount id => exact .accountBlocked id
  | updateKey key =>
    simp only [step, State.updateKey]
    by_cases h : key.id ∈ s.state.deletedKeys
    · rw [if_pos h]
      exact .refused _ h
    · rw [if_neg h]
      exact .keyUpdated h
  | removeKey id => exact .keyRemoved id
  | blockKey id => exact .keyBlocked id
  | setPaused value => exact .pausedSet value
  | publish settings => exact .published settings

/-- What a new scheduler has and every transition of a reachable state keeps, every
reachable state has. -/
theorem Reachable.of_transition {P : System → Prop}
    (hnew : ∀ settings accounts bindings keys, P (new settings accounts bindings keys))
    (hstep : ∀ {s op s'}, s.Reachable → s.Transition op s' → P s → P s') {s : System}
    (h : s.Reachable) : P s :=
  (h.invariant (P := fun s ↦ s.Reachable ∧ P s)
    (fun settings accounts bindings keys ↦
      ⟨⟨settings, accounts, bindings, keys, [], rfl⟩, hnew settings accounts bindings keys⟩)
    fun s op ⟨hr, hi⟩ ↦ ⟨hr.run [op], hstep hr (step_transition s op) hi⟩).2

end System
end Xxgate.Scheduling

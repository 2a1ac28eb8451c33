import Xxgate.Scheduling.Capacity

/-!
# Bindings and generations

A session's requests share one binding at a time. A new binding is handed out only when
nothing of the session is in flight, and nothing else of the session is granted before it
is confirmed, so generations follow one another without a gap.
-/

namespace Xxgate.Scheduling

open Xxgate.Base Xxgate.Base.FiniteMap Xxgate.Core

/-- `confirm_stateless` is the one operation that settles a lease without its binding. -/
def Op.isStateless : Op → Bool
  | .confirmStateless _ => true
  | _ => false

namespace State

/-- The generation a session stands at, zero before its first binding. -/
def generation (s : State) (session : SessionKey) : Int :=
  (s.bindings.lookup session).elim 0 (·.generation)

/-- The lease of a new binding: it goes one generation further, on the same provider. -/
structure Succeeds (s : State) (lease : DispatchLease) : Prop where
  expected : lease.expectedGeneration = s.generation lease.session
  generation : lease.binding.generation = s.generation lease.session + 1
  kind : ∀ b, s.bindings.lookup lease.session = some b →
    b.provider = lease.binding.provider ∧ b.accessKind = lease.binding.accessKind

/-- Succession depends on the session's own binding only. -/
theorem Succeeds.congr {s s' : State} {lease : DispatchLease} (h : s.Succeeds lease)
    (hb : s'.bindings.lookup lease.session = s.bindings.lookup lease.session) :
    s'.Succeeds lease := by
  have hg : s'.generation lease.session = s.generation lease.session := by
    unfold State.generation
    rw [hb]
  exact ⟨hg ▸ h.expected, hg ▸ h.generation, hb ▸ h.kind⟩

variable {s : State} {sel : Selected} {id bindingId ns : Uuid}

/-- A lease needs a commit exactly when the session moves to another account or group. -/
theorem needsCommit_leaseOf :
    (s.leaseOf sel id bindingId ns).needsCommit =
      migrates (s.bindings.lookup sel.session) sel.account sel.waiter.groupId := by
  unfold leaseOf newBinding migrates
  cases s.bindings.lookup sel.session with
  | none => rfl
  | some b =>
    by_cases h : b.accountId ≠ sel.account.id ∨ b.groupId ≠ sel.waiter.groupId
    · have hb : (b.accountId != sel.account.id || b.groupId != sel.waiter.groupId) = true := by
        simpa using h
      simp only [if_pos h, Option.all_some, hb]
    · have hb : (b.accountId != sel.account.id || b.groupId != sel.waiter.groupId) = false := by
        simpa using h
      simp only [if_neg h, Option.all_some, hb]

/-- A lease that needs no commit carries the session's binding. -/
theorem bound_leaseOf (h : (s.leaseOf sel id bindingId ns).needsCommit = false) :
    s.bindings.lookup sel.session = some (s.leaseOf sel id bindingId ns).binding := by
  rw [needsCommit_leaseOf] at h
  unfold leaseOf newBinding
  cases hb : s.bindings.lookup sel.session with
  | none => simp [hb, migrates] at h
  | some b =>
    have hn : ¬(b.accountId ≠ sel.account.id ∨ b.groupId ≠ sel.waiter.groupId) := by
      simpa [hb, migrates] using h
    simp only [if_neg hn]

/-- A lease that needs a commit carries the session's next binding. -/
theorem succeeds_leaseOf (h : (s.leaseOf sel id bindingId ns).needsCommit = true)
    (hc : ∀ b, s.bindings.lookup sel.session = some b → b.compatible sel.waiter.model = true) :
    s.Succeeds (s.leaseOf sel id bindingId ns) := by
  rw [needsCommit_leaseOf] at h
  have hbinding : (s.leaseOf sel id bindingId ns).binding =
      { Binding.new bindingId ns sel.session sel.account.id sel.waiter.model
          (s.generation sel.session + 1) with groupId := sel.waiter.groupId } := by
    unfold leaseOf newBinding generation
    cases hb : s.bindings.lookup sel.session with
    | none => rfl
    | some b =>
      have hm : b.accountId ≠ sel.account.id ∨ b.groupId ≠ sel.waiter.groupId := by
        simpa [hb, migrates] using h
      simp only [if_pos hm]
  have hexpected : (s.leaseOf sel id bindingId ns).expectedGeneration =
      s.generation sel.session := by
    unfold leaseOf newBinding generation
    cases s.bindings.lookup sel.session with
    | none => rfl
    | some b =>
      by_cases hm : b.accountId ≠ sel.account.id ∨ b.groupId ≠ sel.waiter.groupId
      · simp only [if_pos hm]
      · simp only [if_neg hm]
  refine ⟨hexpected, congrArg Binding.generation hbinding, fun b hb ↦ ?_⟩
  have hcb := hc b hb
  rw [hbinding]
  simpa [Binding.compatible, Binding.new] using hcb

/-- What the first dispatchable waiter says about its session. -/
theorem First.session {cfg : RuntimeSettings} {now : Nat} (h : s.First cfg now sel) :
    (∀ a, s.activeSessions.lookup sel.session = some a → a.bindingPending = none) ∧
      (∀ b, s.bindings.lookup sel.session = some b → b.compatible sel.waiter.model = true) ∧
      ((s.activeSessions.lookup sel.session).isSome →
        migrates (s.bindings.lookup sel.session) sel.account sel.waiter.groupId = false) := by
  obtain ⟨_, -, hd, -⟩ := h
  obtain ⟨hr, hc⟩ := State.dispatch_some hd.dispatch
  obtain ⟨-, he, -⟩ := (State.ready_iff ..).mp hr
  obtain ⟨-, -, -, -, hdrain⟩ := State.chooseAccount_some hc
  refine ⟨fun a ha ↦ ?_, ((checkEligibility_ok_iff ..).mp he).2.1, hdrain⟩
  have hroom := hd.room
  rw [saturated, ha, Option.any_some, Bool.or_eq_false_iff] at hroom
  simpa using hroom.2

/-- Clearing a pending mark clears it on the lease's own session, when it is the lease's. -/
theorem lookup_activeSessions_clearPending (s : State) (lease : DispatchLease) (k : SessionKey) :
    (s.clearPending lease).activeSessions.lookup k =
      if k = lease.session then
        (s.activeSessions.lookup lease.session).map fun a ↦
          if a.bindingPending = some lease.id then { a with bindingPending := none } else a
      else s.activeSessions.lookup k := lookup_modify ..

end State

/-! ### The invariant -/

/-- The pending marks are those of the leases with a new binding, each alone in its
session and one generation ahead of it. -/
structure Coherent (s : System) : Prop where
  pending : ∀ {k a}, s.state.activeSessions.lookup k = some a → ∀ i,
    a.bindingPending = some i ↔
      ∃ l, s.leases.lookup i = some l ∧ l.session = k ∧ l.needsCommit = true
  alone : ∀ {i l}, s.leases.lookup i = some l → l.needsCommit = true →
    ∀ {j l'}, s.leases.lookup j = some l' → l'.session = l.session → j = i
  succeeds : ∀ {i l}, s.leases.lookup i = some l → l.needsCommit = true →
    s.state.Succeeds l.toDispatchLease

namespace Coherent

variable {s s' : System}

/-- Coherence depends on the activity, the bindings and the leases only. -/
theorem congr (h : Coherent s) (ha : s'.state.activeSessions = s.state.activeSessions)
    (hb : s'.state.bindings = s.state.bindings) (hl : s'.leases = s.leases) : Coherent s' where
  pending := by
    rw [ha, hl]
    exact h.pending
  alone := by
    rw [hl]
    exact h.alone
  succeeds := by
    rw [hl]
    exact fun hi hc ↦ (h.succeeds hi hc).congr (by rw [hb])

/-- A new scheduler has no leases. -/
theorem new (settings : LiveSettings) (accounts : List Account) (bindings : List Binding)
    (keys : List GatewayKey) : Coherent (System.new settings accounts bindings keys) where
  pending := fun ha ↦ absurd ha (by simp [System.new, State.new])
  alone := fun hl ↦ absurd hl (by simp [System.new])
  succeeds := fun hl ↦ absurd hl (by simp [System.new])

/-- A reservation of a new binding starts alone; any other joins a session without one. -/
theorem grant (h : Coherent s) (ho : Occupied s) {id bindingId ns : Uuid} {sel : Selected}
    {now : Nat} (hfresh : s.leases.lookup id = none)
    (first : s.state.First s.settings.toRuntimeSettings now sel)
    (tickets : FiniteMap Uuid LiveTicket) :
    Coherent { s with
      state := s.state.grant sel id (s.state.leaseOf sel id bindingId ns).needsCommit
      tickets := tickets
      leases := s.leases.insert id ⟨s.state.leaseOf sel id bindingId ns, 0⟩ } := by
  obtain ⟨hnone, hcompat, hdrain⟩ := first.session
  set lease := s.state.leaseOf sel id bindingId ns with hlease
  -- no live lease of the session has a new binding
  have hsettled : ∀ {i l}, s.leases.lookup i = some l → l.session = sel.session →
      l.needsCommit = false := by
    intro i l hl hk
    by_contra hc
    have hactive := (ho.active_iff sel.session).mpr ⟨i, l, hl, hk⟩
    obtain ⟨a, ha⟩ := Option.isSome_iff_exists.mp hactive
    have hp := (h.pending ha i).mpr ⟨l, hl, hk, by simpa using hc⟩
    rw [hnone a ha] at hp
    cases hp
  -- and with a new binding for the request, it has no live lease at all
  have hempty : lease.needsCommit = true → ∀ {i l}, s.leases.lookup i = some l →
      l.session ≠ sel.session := by
    intro hc i l hl hk
    have hactive := (ho.active_iff sel.session).mpr ⟨i, l, hl, hk⟩
    rw [hlease, State.needsCommit_leaseOf, hdrain hactive] at hc
    cases hc
  refine ⟨?_, ?_, ?_⟩
  · intro k a ha i
    simp only [State.grant, lookup_insert_ite] at ha ⊢
    by_cases hk : k = sel.session
    · rw [if_pos hk] at ha
      cases ha
      by_cases hc : lease.needsCommit = true
      · rw [if_pos hc]
        constructor
        · intro hi
          obtain rfl := Option.some.inj hi
          exact ⟨_, if_pos rfl, hk.symm, hc⟩
        · rintro ⟨l, hl, hlk, -⟩
          split at hl
          · next he => rw [he]
          · exact absurd (hlk.trans hk) (hempty hc hl)
      · rw [if_neg hc]
        have hold : ((s.state.activeSessions.lookup sel.session).getD .empty).bindingPending =
            none := by
          cases hs : s.state.activeSessions.lookup sel.session with
          | none => rfl
          | some a => exact hnone a hs
        rw [hold]
        constructor
        · rintro ⟨⟩
        · rintro ⟨l, hl, hlk, hlc⟩
          split at hl
          · cases hl
            exact absurd hlc hc
          · rw [hsettled hl (hlk.trans hk)] at hlc
            cases hlc
    · rw [if_neg hk] at ha
      rw [h.pending ha]
      constructor
      · rintro ⟨l, hl, hlk, hlc⟩
        refine ⟨l, ?_, hlk, hlc⟩
        rw [if_neg, hl]
        rintro rfl
        cases hfresh.symm.trans hl
      · rintro ⟨l, hl, hlk, hlc⟩
        split at hl
        · cases hl
          exact absurd hlk.symm hk
        · exact ⟨l, hl, hlk, hlc⟩
  · intro i l hl hc j l' hl' hs
    simp only [lookup_insert_ite] at hl hl'
    split at hl
    · next hi =>
      cases hl
      split at hl'
      · next hj => rw [hj, hi]
      · exact absurd hs (hempty hc hl')
    · split at hl'
      · cases hl'
        rw [hsettled hl hs.symm] at hc
        cases hc
      · exact h.alone hl hc hl' hs
  · intro i l hl hc
    simp only [lookup_insert_ite] at hl
    split at hl
    · cases hl
      exact (State.succeeds_leaseOf hc hcompat).congr rfl
    · exact (h.succeeds hl hc).congr rfl

/-- A lease settled without or with its binding stops being pending. -/
theorem settle (h : Coherent s) (ho : Occupied s) {id : Uuid} {lease : LiveLease}
    (held : s.leases.lookup id = some lease) (hc : lease.needsCommit = true) {state : State}
    (hactive : state.activeSessions = (s.state.clearPending lease.toDispatchLease).activeSessions)
    (hb : ∀ k, k ≠ lease.session → state.bindings.lookup k = s.state.bindings.lookup k) :
    Coherent { s with
      state := state
      leases := s.leases.insert id
        ⟨{ lease.toDispatchLease with needsCommit := false }, lease.attempts⟩ } := by
  have hid : lease.id = id := ho.key held
  -- the pending leases are the old ones but this
  have hold : ∀ {i l}, (AList.lookup i (s.leases.insert id
      ⟨{ lease.toDispatchLease with needsCommit := false }, lease.attempts⟩)) = some l →
      l.needsCommit = true → i ≠ id ∧ s.leases.lookup i = some l ∧ l.session ≠ lease.session := by
    intro i l hl hlc
    rw [lookup_insert_ite] at hl
    split at hl
    · cases hl
      cases hlc
    · next hi => exact ⟨hi, hl, fun hk ↦ hi (h.alone held hc hl hk)⟩
  refine ⟨?_, ?_, ?_⟩
  · intro k a ha i
    rw [hactive, State.lookup_activeSessions_clearPending] at ha
    by_cases hk : k = lease.session
    · rw [if_pos hk] at ha
      obtain ⟨b, hbk, rfl⟩ := Option.map_eq_some_iff.mp ha
      have hpend := (h.pending hbk id).mpr ⟨lease, held, rfl, hc⟩
      rw [hid, if_pos hpend]
      constructor
      · nofun
      · rintro ⟨l, hl, hlk, hlc⟩
        exact absurd (hlk.trans hk) (hold hl hlc).2.2
    · rw [if_neg hk] at ha
      rw [h.pending ha]
      constructor
      · rintro ⟨l, hl, hlk, hlc⟩
        refine ⟨l, ?_, hlk, hlc⟩
        rw [lookup_insert_ite, if_neg, hl]
        rintro rfl
        cases held.symm.trans hl
        exact hk hlk.symm
      · rintro ⟨l, hl, hlk, hlc⟩
        exact ⟨l, (hold hl hlc).2.1, hlk, hlc⟩
  · intro i l hl hlc j l' hl' hs
    obtain ⟨hi, hl, hne⟩ := hold hl hlc
    rw [lookup_insert_ite] at hl'
    split at hl'
    · cases hl'
      exact absurd hs.symm hne
    · exact h.alone hl hlc hl' hs
  · intro i l hl hlc
    obtain ⟨-, hl, hne⟩ := hold hl hlc
    exact (h.succeeds hl hlc).congr (hb _ hne)

/-- A dropped lease takes its pending mark with it. -/
theorem drop (h : Coherent s) (ho : Occupied s) {id : Uuid} {lease : LiveLease}
    (held : s.leases.lookup id = some lease) :
    Coherent { s with
      state := s.state.dropLease lease.toDispatchLease
      leases := s.leases.erase id } := by
  have hid : lease.id = id := ho.key held
  have hmem : lease.id ∈ s.state.leases := (ho.mem_leases _).mpr ⟨lease, hid ▸ held⟩
  have hsub : ∀ {i l}, AList.lookup i (s.leases.erase id) = some l →
      i ≠ id ∧ s.leases.lookup i = some l := by
    intro i l hl
    rw [lookup_erase_ite] at hl
    split at hl
    · cases hl
    · next hne => exact ⟨hne, hl⟩
  have hkeep : ∀ {i l}, i ≠ id → s.leases.lookup i = some l →
      AList.lookup i (s.leases.erase id) = some l := by
    intro i l hi hl
    rw [lookup_erase_ite, if_neg hi, hl]
  have hframe : (s.state.dropLease lease.toDispatchLease).bindings = s.state.bindings := by
    obtain ⟨_, _, _, hd⟩ := s.state.dropLease_frame lease.toDispatchLease
    rw [hd]
  refine ⟨?_, ?_, ?_⟩
  · intro k a ha i
    rw [State.lookup_activeSessions_dropLease hmem] at ha
    by_cases hk : k = lease.session
    · rw [if_pos hk] at ha
      obtain ⟨b, hb, he⟩ := Option.bind_eq_some_iff.mp ha
      have hbi := h.pending hb i
      rw [State.bindingPending_endActivity he, hid]
      by_cases hp : b.bindingPending = some id
      · rw [if_pos hp]
        obtain ⟨l, hl, hlk, hlc⟩ := (h.pending hb id).mp hp
        constructor
        · nofun
        · rintro ⟨l', hl', hlk', -⟩
          obtain ⟨hne, hl'⟩ := hsub hl'
          exact absurd (h.alone hl hlc hl' (by rw [hlk', hlk, hk])) hne
      · rw [if_neg hp, hbi, hk]
        constructor
        · rintro ⟨l, hl, hlk, hlc⟩
          have hne : i ≠ id := by
            rintro rfl
            exact hp (hbi.mpr ⟨l, hl, hlk, hlc⟩)
          exact ⟨l, hkeep hne hl, hlk, hlc⟩
        · rintro ⟨l, hl, hlk, hlc⟩
          exact ⟨l, (hsub hl).2, hlk, hlc⟩
    · rw [if_neg hk] at ha
      rw [h.pending ha]
      constructor
      · rintro ⟨l, hl, hlk, hlc⟩
        have hne : i ≠ id := by
          rintro rfl
          cases held.symm.trans hl
          exact hk hlk.symm
        exact ⟨l, hkeep hne hl, hlk, hlc⟩
      · rintro ⟨l, hl, hlk, hlc⟩
        exact ⟨l, (hsub hl).2, hlk, hlc⟩
  · intro i l hl hc j l' hl' hs
    exact h.alone (hsub hl).2 hc (hsub hl').2 hs
  · intro i l hl hc
    exact (h.succeeds (hsub hl).2 hc).congr (by rw [hframe])

/-- Every operation keeps bindings coherent. -/
theorem step {op : Op} (hq : Ticketed s) (ho : Occupied s) (ht : s.Transition op s')
    (h : Coherent s) : Coherent s' := by
  cases ht with
  | refused => exact h
  | enqueued | ticketDropped | accountUpdated | accountRemoved | accountBlocked | keyUpdated
  | keyRemoved | keyBlocked | pausedSet | published => exact h.congr rfl rfl rfl
  | @granted id now bindingId ns sel unpaused below first own =>
    have hw : sel.waiter ∈ s.state.waiting sel.session :=
      List.mem_of_getElem? (Ticketed.waiting_of_first first)
    obtain ⟨t, ht, hg, -⟩ := hq.waiter hw
    exact h.grant ho (hq.exclusive (own ▸ ht) hg) first _
  | confirmed held pending =>
    refine h.settle ho held pending rfl fun k hk ↦ ?_
    exact AList.lookup_insert_ne hk
  | confirmedStateless held pending => exact h.settle ho held pending rfl fun _ _ ↦ rfl
  | @begun op id lease previousAttempts state attempt held authorised =>
    obtain ⟨-, -, -, -, -, rfl⟩ := State.beginAttempt_ok_iff.mp authorised
    have hsame : ∀ {i l}, AList.lookup i (s.leases.insert id
        ⟨lease.toDispatchLease, lease.attempts + 1⟩) = some l →
        ∃ l', s.leases.lookup i = some l' ∧ l.toDispatchLease = l'.toDispatchLease := by
      intro i l hl
      rw [lookup_insert_ite] at hl
      split at hl
      · next hi =>
        cases hl
        exact ⟨lease, hi ▸ held, rfl⟩
      · exact ⟨l, hl, rfl⟩
    have hsame' : ∀ {i l'}, s.leases.lookup i = some l' →
        ∃ l, AList.lookup i (s.leases.insert id ⟨lease.toDispatchLease, lease.attempts + 1⟩) =
          some l ∧ l.toDispatchLease = l'.toDispatchLease := by
      intro i l' hl'
      rw [lookup_insert_ite]
      split
      · next hi =>
        cases held.symm.trans (hi ▸ hl')
        exact ⟨_, rfl, rfl⟩
      · exact ⟨l', hl', rfl⟩
    refine ⟨?_, ?_, ?_⟩
    · intro k a ha i
      rw [h.pending ha]
      constructor
      · rintro ⟨l', hl', hk, hc⟩
        obtain ⟨l, hl, he⟩ := hsame' hl'
        exact ⟨l, hl, by rw [he]; exact hk, by rw [he]; exact hc⟩
      · rintro ⟨l, hl, hk, hc⟩
        obtain ⟨l', hl', he⟩ := hsame hl
        exact ⟨l', hl', by rw [← he]; exact hk, by rw [← he]; exact hc⟩
    · intro i l hl hc j l₂ hl₂ hs
      obtain ⟨l', hl', he⟩ := hsame hl
      obtain ⟨l₂', hl₂', he₂⟩ := hsame hl₂
      exact h.alone hl' (by rw [← he]; exact hc) hl₂' (by rw [← he, ← he₂]; exact hs)
    · intro i l hl hc
      obtain ⟨l', hl', he⟩ := hsame hl
      rw [he] at hc ⊢
      exact (h.succeeds hl' hc).congr rfl
  | leaseDropped held => exact h.drop ho held

end Coherent

/-- Bindings are coherent in every reachable state. -/
theorem System.Reachable.coherent {s : System} (h : s.Reachable) : Coherent s :=
  h.of_transition Coherent.new fun hr ↦ Coherent.step hr.ticketed hr.occupied

/-! ### Settled leases -/

/-- A lease that needs no commit carries its session's binding. -/
def Bound (s : System) : Prop :=
  ∀ i l, s.leases.lookup i = some l → l.needsCommit = false →
    s.state.bindings.lookup l.session = some l.binding

/-- Without `confirm_stateless`, every operation keeps settled leases bound. -/
theorem Bound.step {s s' : System} {op : Op} (hr : s.Reachable) (hop : op.isStateless = false)
    (ht : s.Transition op s') (h : Bound s) : Bound s' := by
  cases ht with
  | refused | enqueued | ticketDropped | accountUpdated | accountRemoved | accountBlocked
  | keyUpdated | keyRemoved | keyBlocked | pausedSet | published => exact h
  | granted unpaused below first own =>
    intro i l hl hc
    simp only [lookup_insert_ite] at hl
    split at hl
    · cases hl
      exact State.bound_leaseOf hc
    · exact h i l hl hc
  | @confirmed id lease held pending =>
    intro i l hl hc
    simp only [State.confirmBinding, State.clearPending, lookup_insert_ite] at hl ⊢
    split at hl
    · cases hl
      exact if_pos rfl
    · next hi =>
      rw [if_neg fun hs ↦ hi (hr.coherent.alone held pending hl hs)]
      exact h i l hl hc
  | confirmedStateless => cases hop
  | @begun op id lease previousAttempts state attempt held authorised =>
    obtain ⟨-, -, -, -, -, rfl⟩ := State.beginAttempt_ok_iff.mp authorised
    intro i l hl hc
    simp only [lookup_insert_ite] at hl
    split at hl
    · cases hl
      exact h id lease held hc
    · exact h i l hl hc
  | @leaseDropped id lease held =>
    obtain ⟨_, _, _, hd⟩ := s.state.dropLease_frame lease.toDispatchLease
    intro i l hl hc
    simp only [lookup_erase_ite] at hl
    split at hl
    · cases hl
    · rw [hd]
      exact h i l hl hc

namespace System

/-- Over operations without `confirm_stateless`, settled leases stay bound. -/
theorem bound_run {s : System} (hr : s.Reachable) (hb : Bound s) {ops : List Op}
    (hops : ∀ op ∈ ops, op.isStateless = false) : Bound (run step s ops) := by
  induction ops generalizing s with
  | nil => exact hb
  | cons op ops ih =>
    have hop := hops op List.mem_cons_self
    exact ih (hr.run [op]) (hb.step hr hop (step_transition s op))
      fun op' h' ↦ hops op' (List.mem_cons_of_mem _ h')

/-- A session's binding is replaced only by one of the next generation and the same kind. -/
theorem bindings_step {s : System} (h : s.Reachable) (op : Op) {k : SessionKey} {b : Binding}
    (hb : s.state.bindings.lookup k = some b) :
    ∃ b', (s.step op).state.bindings.lookup k = some b' ∧ b'.provider = b.provider ∧
      b'.accessKind = b.accessKind ∧ (b' = b ∨ b'.generation = b.generation + 1) := by
  generalize hs : s.step op = s'
  have ht := step_transition s op
  rw [hs] at ht
  cases ht with
  | refused | enqueued | granted | ticketDropped | confirmedStateless | accountUpdated
  | accountRemoved | accountBlocked | keyUpdated | keyRemoved | keyBlocked | pausedSet
  | published => exact ⟨b, hb, rfl, rfl, .inl rfl⟩
  | begun attempt held authorised =>
    obtain ⟨-, -, -, -, -, rfl⟩ := State.beginAttempt_ok_iff.mp authorised
    exact ⟨b, hb, rfl, rfl, .inl rfl⟩
  | @leaseDropped _ lease held =>
    obtain ⟨_, _, _, hd⟩ := s.state.dropLease_frame lease.toDispatchLease
    rw [hd]
    exact ⟨b, hb, rfl, rfl, .inl rfl⟩
  | @confirmed id lease held pending =>
    obtain ⟨-, hg, hkind⟩ := h.coherent.succeeds held pending
    simp only [State.confirmBinding, State.clearPending, lookup_insert_ite]
    by_cases hk : k = lease.session
    · rw [if_pos hk]
      subst hk
      obtain ⟨hp, ha⟩ := hkind b hb
      refine ⟨lease.binding, rfl, hp.symm, ha.symm, .inr ?_⟩
      rw [hg, State.generation, hb, Option.elim_some]
    · rw [if_neg hk]
      exact ⟨b, hb, rfl, rfl, .inl rfl⟩

/-- Binding coherence over every run without `confirm_stateless`: threads are exclusive,
settled leases share the session's binding, a new binding is alone and one generation
ahead, and the provider and access kind of a session never change. -/
theorem binding_coherence {settings : LiveSettings} {accounts : List Account}
    {bindings : List Binding} {keys : List GatewayKey} {ops : List Op}
    (hops : ∀ op ∈ ops, op.isStateless = false) :
    let s := run step (new settings accounts bindings keys) ops
    (∀ i j l l', s.leases.lookup i = some l → s.leases.lookup j = some l' →
      l.session = l'.session → l.threadId = l'.threadId → i = j) ∧
    (∀ i l, s.leases.lookup i = some l → l.needsCommit = false →
      s.state.bindings.lookup l.session = some l.binding) ∧
    (∀ i j l l', s.leases.lookup i = some l → l.needsCommit = true →
      s.leases.lookup j = some l' → l'.session = l.session → j = i) ∧
    (∀ now bindingId ns id state lease,
      s.state.tryReserve s.settings.toRuntimeSettings now bindingId ns id =
        .ok (state, some lease) → lease.needsCommit = true →
      (∀ i l, s.leases.lookup i = some l → l.session ≠ lease.session) ∧
      lease.binding.generation =
        (s.state.bindings.lookup lease.session).elim 0 (·.generation) + 1) ∧
    (∀ op k b, s.state.bindings.lookup k = some b →
      ∃ b', (s.step op).state.bindings.lookup k = some b' ∧ b'.provider = b.provider ∧
        b'.accessKind = b.accessKind ∧ (b' = b ∨ b'.generation = b.generation + 1)) := by
  intro s
  have hr : s.Reachable := ⟨settings, accounts, bindings, keys, ops, rfl⟩
  have hnew : (new settings accounts bindings keys).Reachable :=
    ⟨settings, accounts, bindings, keys, [], rfl⟩
  have hbound : Bound s := bound_run hnew (fun i l hl ↦ absurd hl (by simp [new])) hops
  refine ⟨?_, hbound, fun i j l l' hl hc hl' ↦ hr.coherent.alone hl hc hl',
    ?_, fun op k b hb ↦ bindings_step hr op hb⟩
  · intro i j l l' hl hl' hs ht
    have hi := hr.occupied.threads.mpr ⟨l, hl, hs, ht⟩
    rw [hr.occupied.threads.mpr ⟨l', hl', rfl, rfl⟩] at hi
    exact (Option.some.inj hi).symm
  · intro now bindingId ns id state lease hgrant hc
    obtain ⟨-, -, -, sel, hsel, -, rfl, -⟩ := State.tryReserve_some_iff.mp hgrant
    obtain ⟨-, hcompat, hdrain⟩ := (State.select_some hsel).session
    refine ⟨fun i l hl hk ↦ ?_, (State.succeeds_leaseOf hc hcompat).generation⟩
    rw [State.needsCommit_leaseOf, hdrain ((hr.occupied.active_iff _).mpr ⟨i, l, hl, hk⟩)] at hc
    cases hc

/-- Two generations of one session: the account is disabled between the requests. -/
theorem binding_coherence_migration :
    let ops := [Sample.arrive 1 "a" "t", Sample.poll 1, .confirmBinding 1, .beginSend 1,
      .dropLease 1, .updateAccount { Sample.account 7 with enabled := false },
      Sample.arrive 2 "a" "t", Sample.poll 2]
    (∃ l, (Sample.after [7, 8] ops).leases.lookup 2 = some l ∧ l.needsCommit = true ∧
      l.binding.generation = 2) ∧
    ∀ op k b, (Sample.after [7, 8] ops).state.bindings.lookup k = some b →
      ∃ b', ((Sample.after [7, 8] ops).step op).state.bindings.lookup k = some b' ∧
        b'.provider = b.provider ∧ b'.accessKind = b.accessKind ∧
        (b' = b ∨ b'.generation = b.generation + 1) :=
  ⟨⟨_, rfl, by decide, by decide⟩, (binding_coherence (by decide)).2.2.2.2⟩

end System
end Xxgate.Scheduling

import Xxgate.Scheduling.Authorisation
import Xxgate.Scheduling.Holding
import Xxgate.Scheduling.Progress

/-!
# Eligibility, decided three times

The scheduler decides who may run when a request is enqueued, when a reservation picks an
account, and when an attempt begins. The three decisions are one: what is enqueued could be
served, what is reserved serves it, and what is reserved may send as long as no administrator
steps in between.
-/

namespace Xxgate.Scheduling

open Xxgate.Base Xxgate.Base.FiniteMap Xxgate.Core

namespace State

variable {s : State}

/-- The account may serve the request as things stand. -/
structure Accepts (s : State) (groupId : Uuid) (model : ModelRef) (source : ClientSource)
    (a : Account) : Prop where
  present : s.accounts.lookup a.id = some a
  unblocked : a.id ∉ s.blocked
  enabled : a.enabled = true
  group : groupId ∈ a.groupIds
  model : a.supports model = true
  source : a.accepts source = true

/-- The request may be dispatched as things stand. -/
structure Eligible (s : State) (session : SessionKey) (groupId : Uuid) (model : ModelRef)
    (source : ClientSource) : Prop where
  unpaused : s.paused = false
  unblocked : session.keyId ∉ s.blockedKeys
  key : ∃ key, s.keys.lookup session.keyId = some key ∧ key.enabled = true ∧
    key.groupId = groupId
  compatible : ∀ b, s.bindings.lookup session = some b →
    b.provider = model.provider ∧ b.accessKind = model.accessKind
  account : ∃ a, s.Accepts groupId model source a

/-- An account that serves a request unblocked accepts it. -/
theorem accepts_of_serves {groupId : Uuid} {model : ModelRef} {source : ClientSource}
    {a : Account} (ha : s.accounts.lookup a.id = some a) (hb : a.id ∉ s.blocked)
    (h : serves a groupId model source = true) : s.Accepts groupId model source a := by
  obtain ⟨he, hg, hs, hm⟩ := (serves_iff ..).mp h
  exact ⟨ha, hb, he, hg, hm, hs⟩

/-- `check_eligibility` decides eligibility. -/
theorem checkEligibility_ok_iff_eligible (h : Filed s) (session : SessionKey) (groupId : Uuid)
    (model : ModelRef) (source : ClientSource) :
    s.checkEligibility session groupId model source = .ok () ↔
      s.Eligible session groupId model source := by
  rw [checkEligibility_ok_iff, checkKey_ok_iff]
  constructor
  · rintro ⟨⟨hp, hk, hkey⟩, hc, hserve⟩
    refine ⟨hp, hk, hkey, fun b hb ↦ ?_, ?_⟩
    · have hb := hc b hb
      unfold Binding.compatible at hb
      rw [Bool.and_eq_true, beq_iff_eq, beq_iff_eq] at hb
      exact hb
    · rcases hserve with ⟨a, hbound, hs, hn⟩ | ⟨k, a, ha, hs, hn⟩
      · obtain ⟨b, -, hl⟩ := Option.bind_eq_some_iff.mp hbound
        exact ⟨a, accepts_of_serves (by rw [h.account hl, hl]) hn hs⟩
      · exact ⟨a, accepts_of_serves (by rw [h.account ha, ha]) hn hs⟩
  · rintro ⟨hp, hk, hkey, hc, a, ha⟩
    refine ⟨⟨hp, hk, hkey⟩, fun b hb ↦ ?_, .inr ⟨a.id, a, ha.present, ?_, ha.unblocked⟩⟩
    · unfold Binding.compatible
      rw [Bool.and_eq_true, beq_iff_eq, beq_iff_eq]
      exact hc b hb
    · exact (serves_iff ..).mpr ⟨ha.enabled, ha.group, ha.source, ha.model⟩

/-- No eligibility check says that the queue is full. -/
theorem code_of_checkEligibility {session : SessionKey} {groupId : Uuid} {model : ModelRef}
    {source : ClientSource} {e : Error}
    (h : s.checkEligibility session groupId model source = .error e) : e.code ≠ "queue_full" := by
  unfold checkEligibility at h
  cases hk : s.checkKey session.keyId groupId with
  | error x =>
    rw [hk] at h
    cases h
    unfold checkKey at hk
    split at hk
    · cases hk
      decide
    · split at hk
      · cases hk
        decide
      · split at hk
        · cases hk
          decide
        · split at hk
          · cases hk
            decide
          · cases hk
  | ok u =>
    rw [hk] at h
    change (if _ then _ else _ : Result Unit) = _ at h
    split at h
    · cases h
      decide
    · split at h
      · cases h
      · split at h
        · cases h
        · split at h
          · cases h
            decide
          · cases h
            decide

/-- `enqueue` refuses for another reason than a full queue just what is not eligible. -/
theorem enqueue_refused_iff (hf : Filed s) (cfg : RuntimeSettings) (id : Uuid) (thread : ThreadKey)
    (groupId : Uuid) (model : ModelRef) (source : ClientSource) (since : Nat) :
    (∃ e, s.enqueue cfg id thread groupId model source since = .error e ∧
        e.code ≠ "queue_full") ↔
      ¬s.Eligible thread.session groupId model source := by
  rw [← checkEligibility_ok_iff_eligible hf]
  unfold enqueue
  cases hp : s.paused with
  | true =>
    refine ⟨fun _ he ↦ ?_, fun _ ↦ ⟨_, rfl, by decide⟩⟩
    have hpaused := ((checkKey_ok_iff ..).mp ((checkEligibility_ok_iff ..).mp he).1).1
    exact Bool.false_ne_true (hpaused.symm.trans hp)
  | false =>
    rw [if_neg Bool.false_ne_true]
    cases he : s.checkEligibility thread.session groupId model source with
    | error e =>
      refine ⟨(fun _ h ↦ by cases h), fun _ ↦ ⟨e, ?_, code_of_checkEligibility he⟩⟩
      rfl
    | ok u =>
      refine ⟨?_, fun h ↦ absurd rfl h⟩
      rintro ⟨e, h, hcode⟩
      change (if _ then _ else _ : Result _) = _ at h
      split at h
      · cases h
        exact absurd rfl hcode
      · cases h

/-- A reservation is on an account that accepts the request. -/
theorem accepts_of_tryReserve (hf : Filed s) {cfg : RuntimeSettings} {now : Nat}
    {bindingId ns id : Uuid} {state : State} {lease : DispatchLease}
    (h : s.tryReserve cfg now bindingId ns id = .ok (state, some lease)) :
    s.Eligible lease.session lease.groupId lease.model lease.source ∧
      s.Accepts lease.groupId lease.model lease.source lease.account := by
  obtain ⟨-, -, -, sel, hsel, -, rfl, -⟩ := tryReserve_some_iff.mp h
  obtain ⟨_, -, hd, -⟩ := select_some hsel
  obtain ⟨hready, hchosen⟩ := dispatch_some hd.dispatch
  obtain ⟨-, he, -⟩ := (ready_iff ..).mp hready
  obtain ⟨ha, hb⟩ := hf.chosen hchosen
  exact ⟨(checkEligibility_ok_iff_eligible hf ..).mp he,
    accepts_of_serves ha hb (chooseAccount_some hchosen).2.2.1⟩

/-- The lease of a session without a binding expects none. -/
theorem expectedGeneration_leaseOf {sel : Selected} {id bindingId ns : Uuid}
    (h : s.bindings.lookup sel.session = none) :
    (s.leaseOf sel id bindingId ns).expectedGeneration = 0 := by
  unfold leaseOf newBinding
  rw [h]
  rfl

end State

namespace System

variable {s : System}

/-- What an administrator decides: the records, the blocks and the pause. -/
def administered (s : System) :
    Bool × FiniteMap Uuid GatewayKey × Finset Uuid × FiniteMap Uuid Account × Finset Uuid :=
  (s.state.paused, s.state.keys, s.state.blockedKeys, s.state.accounts, s.state.blocked)

/-- No request changes what an administrator decides. -/
theorem administered_step {op : Op} (h : op.holder ≠ none) :
    (s.step op).administered = s.administered := by
  have ht := step_transition s op
  generalize s.step op = s' at ht
  cases ht with
  | refused | enqueued | granted | confirmed | confirmedStateless | ticketDropped => rfl
  | begun attempt held authorised =>
    obtain ⟨-, -, -, -, -, rfl⟩ := State.beginAttempt_ok_iff.mp authorised
    rfl
  | @leaseDropped _ lease held =>
    obtain ⟨_, _, _, hd⟩ := s.state.dropLease_frame lease.toDispatchLease
    simp only [administered, hd]
  | accountUpdated | accountRemoved | accountBlocked | keyUpdated | keyRemoved | keyBlocked
  | pausedSet | published => exact absurd rfl h

/-- An operation of another request. -/
def OfOther (id : Uuid) (op : Op) : Prop := ∃ other, op.holder = some other ∧ other ≠ id

/-- What may come between a grant and the send: operations of other requests, and the drop of
the ticket once it is granted (`QueueTicket::wait` owns it). -/
def LeavesLease (id : Uuid) (op : Op) : Prop := OfOther id op ∨ op = .dropTicket id

/-- How a fresh lease is settled: not at all when its binding is kept, else by confirming the
new binding, or by confirming none for a session that is not bound. -/
def Settles (s : System) (lease : DispatchLease) (ops : List Op) : Prop :=
  if lease.needsCommit then
    ops = [.confirmBinding lease.id] ∨
      ops = [.confirmStateless lease.id] ∧ s.state.bindings.lookup lease.session = none
  else ops = []

/-- The lease a request holds without an attempt, and what the administrators decided. -/
def Pending (id : Uuid) (lease : DispatchLease) (s₀ s : System) : Prop :=
  (s.holding id).2 = some (lease, 0) ∧ s.administered = s₀.administered

/-- Others, and the drop of the ticket, leave a request's lease and the administrators' decisions
alone. -/
theorem Pending.leave {id : Uuid} {lease : DispatchLease} {s₀ : System} {ops : List Op}
    (hops : ∀ op ∈ ops, LeavesLease id op) (h : Pending id lease s₀ s) :
    Pending id lease s₀ (run step s ops) := by
  induction ops generalizing s with
  | nil => exact h
  | cons op ops ih =>
    refine ih (fun op hm ↦ hops op (List.mem_cons_of_mem _ hm)) ?_
    rcases hops op List.mem_cons_self with ⟨other, ho, hne⟩ | rfl
    · constructor
      · rw [holding_others (by rw [ho]; exact fun he ↦ hne (Option.some.inj he))]
        exact h.1
      · rw [administered_step (by rw [ho]; exact Option.some_ne_none _)]
        exact h.2
    · constructor
      · rw [holding_dropTicket]
        exact h.1
      · have hadmin : (s.step (.dropTicket id)).administered = s.administered :=
          administered_step fun ho ↦ by cases ho
        exact hadmin.trans h.2

/-- Settling leaves the lease in need of nothing. -/
theorem Pending.settle {id : Uuid} {lease : DispatchLease} {s₀ : System} {ops : List Op}
    (hid : lease.id = id) (hsettle : s₀.Settles lease ops)
    (hgen : s₀.state.bindings.lookup lease.session = none → lease.expectedGeneration = 0)
    (h : Pending id lease s₀ s) :
    Pending id { lease with needsCommit := false } s₀ (run step s ops) := by
  have hheld : s.holding id = ((s.holding id).1, some (lease, 0)) := Prod.ext rfl h.1
  unfold Settles at hsettle
  split at hsettle
  · next hc =>
    rw [hid] at hsettle
    rcases hsettle with rfl | ⟨rfl, hnone⟩
    · have hadmin : (s.step (.confirmBinding id)).administered = s.administered :=
        administered_step fun ho ↦ by cases ho
      exact ⟨congrArg Prod.snd (holding_confirmBinding hheld hc), hadmin.trans h.2⟩
    · have hok : s.state.confirmStateless lease = .ok (s.state.clearPending lease,
          { lease with needsCommit := false }) := by
        simp [State.confirmStateless, hc, hgen hnone]
      have hadmin : (s.step (.confirmStateless id)).administered = s.administered :=
        administered_step fun ho ↦ by cases ho
      exact ⟨congrArg Prod.snd (holding_confirmStateless hheld hok), hadmin.trans h.2⟩
  · next hc =>
    subst hsettle
    have hsame : { lease with needsCommit := false } = lease := by
      rw [← Bool.eq_false_of_not_eq_true hc]
    rw [hsame]
    exact h

/-- A settled lease without an attempt on an account that accepts its request may send. -/
theorem Pending.beginSend {id : Uuid} {l : DispatchLease} {s₀ : System} (hs : s.Reachable)
    (he : s₀.state.Eligible l.session l.groupId l.model l.source)
    (ha : s₀.state.Accepts l.groupId l.model l.source l.account)
    (hc : l.needsCommit = false) (h : Pending id l s₀ s) :
    ∃ live, s.leases.lookup id = some live ∧
      ∃ state, s.state.beginSend live.toDispatchLease = .ok state := by
  have hheld : s.holding id = ((s.holding id).1, some (l, 0)) := Prod.ext rfl h.1
  have hl := lease_of_holding hheld
  obtain ⟨hpaused, hkeys, hblockedKeys, haccounts, hblocked⟩ :
      s.state.paused = s₀.state.paused ∧ s.state.keys = s₀.state.keys ∧
        s.state.blockedKeys = s₀.state.blockedKeys ∧ s.state.accounts = s₀.state.accounts ∧
        s.state.blocked = s₀.state.blocked := by
    have hsame := h.2
    simp only [administered, Prod.mk.injEq] at hsame
    exact hsame
  have hcount : s.state.leases.lookup l.id = some 0 := by
    have hi := hs.occupied.leases id
    rw [hl] at hi
    obtain ⟨n, hn, hzero⟩ := Option.map_eq_some_iff.mp hi
    have hid : l.id = id := hs.occupied.key hl
    have hn0 : n = 0 := UInt8.toNat_inj.mp hzero
    rw [hid, hn, hn0]
  refine ⟨_, hl, _, State.beginAttempt_ok_iff.mpr ⟨(State.checkKey_ok_iff ..).mpr ⟨?_, ?_, ?_⟩,
    ?_, ⟨l.account, ?_, ?_⟩, hc, hcount, rfl⟩⟩
  · rw [hpaused]
    exact he.unpaused
  · rw [hblockedKeys]
    exact he.unblocked
  · rw [hkeys]
    exact he.key
  · rw [hblocked]
    exact ha.unblocked
  · rw [haccounts]
    exact ha.present
  · exact (serves_iff ..).mpr ⟨ha.enabled, ha.group, ha.source, ha.model⟩

/-- The three eligibility decisions agree. What `enqueue` refuses other than for a full queue
is what is not eligible; what is reserved is eligible, on an account that accepts it; and when
the lease is settled and beside the drop of its ticket only other requests act, its first send is
authorised. -/
theorem eligibility_agrees (h : s.Reachable) :
    (∀ cfg id thread groupId model source since,
      (∃ e, s.state.enqueue cfg id thread groupId model source since = .error e ∧
          e.code ≠ "queue_full") ↔
        ¬s.state.Eligible thread.session groupId model source) ∧
    ∀ now bindingId ns id state lease,
      s.state.tryReserve s.settings.toRuntimeSettings now bindingId ns id =
        .ok (state, some lease) →
      s.state.Accepts lease.groupId lease.model lease.source lease.account ∧
      ∀ before settle after, (∀ op ∈ before ++ after, LeavesLease id op) →
        s.Settles lease settle →
        let s' := run step (s.step (.tryReserve id now bindingId ns)) (before ++ settle ++ after)
        ∃ live, s'.leases.lookup id = some live ∧
          ∃ state, s'.state.beginSend live.toDispatchLease = .ok state := by
  refine ⟨State.enqueue_refused_iff h.filed, ?_⟩
  intro now bindingId ns id state lease hr
  obtain ⟨he, ha⟩ := State.accepts_of_tryReserve h.filed hr
  refine ⟨ha, ?_⟩
  intro before settle after hops hsettle s'
  have hgranted : Pending id lease s (s.step (.tryReserve id now bindingId ns)) :=
    ⟨congrArg Prod.snd (holding_tryReserve hr), administered_step fun ho ↦ by cases ho⟩
  obtain ⟨-, -, -, sel, -, -, hlease, -⟩ := State.tryReserve_some_iff.mp hr
  have hid : lease.id = id := by
    rw [hlease]
    rfl
  have hgen : s.state.bindings.lookup lease.session = none → lease.expectedGeneration = 0 := by
    rw [hlease]
    exact State.expectedGeneration_leaseOf
  have hbefore := hgranted.leave fun op hm ↦ hops op (List.mem_append_left _ hm)
  have hsettled := (hbefore.settle hid hsettle hgen).leave fun op hm ↦
    hops op (List.mem_append_right _ hm)
  rw [← run_append, ← run_append, ← List.append_assoc] at hsettled
  have hs' : s'.Reachable := (h.run [.tryReserve id now bindingId ns]).run _
  exact Pending.beginSend (l := { lease with needsCommit := false }) hs' he ha rfl hsettled

/-- The first request of `contended` has its lease, which it settles while session `b` gets
one and sends. Its ticket is gone by then. -/
def settled : System :=
  run System.step (contended.step (Sample.poll 1))
    ([Sample.poll 2, .dropTicket 1] ++ [.confirmBinding 1] ++ [.confirmBinding 2, .beginSend 2])

/-- In `settled` the first request may send. -/
theorem eligibility_agrees_settled :
    ∃ live, settled.leases.lookup 1 = some live ∧
      ∃ state, settled.state.beginSend live.toDispatchLease = .ok state := by
  have hr : contended.state.tryReserve contended.settings.toRuntimeSettings 0 1001 2001 1 =
      .ok ((contended.step (Sample.poll 1)).state,
        ((contended.step (Sample.poll 1)).leases.lookup 1).map (·.toDispatchLease)) := rfl
  refine ((eligibility_agrees (s := contended) (Sample.reachable _ _)).2 0 1001 2001 1 _ _ hr).2
    [Sample.poll 2, .dropTicket 1] [.confirmBinding 1] [.confirmBinding 2, .beginSend 2] ?_
    (.inl rfl)
  intro op hop
  simp only [List.cons_append, List.nil_append, List.mem_cons, List.not_mem_nil, or_false] at hop
  rcases hop with rfl | rfl | rfl | rfl
  · exact .inl ⟨2, rfl, by decide⟩
  · exact .inr rfl
  · exact .inl ⟨2, rfl, by decide⟩
  · exact .inl ⟨2, rfl, by decide⟩

end System
end Xxgate.Scheduling

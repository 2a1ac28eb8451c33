import Mathlib.Logic.Function.Basic
import Xxgate.Scheduling.Queue

/-!
# How the queues are represented

The queue between the operations on it: requests are enqueued, polled, and leave when their
ticket is dropped. Nothing is asked of the callers but that no two live tickets have one id:
a request may be enqueued again while a lease of its id is out, the leases acted on are any at
all, and the settings an operation works with are any it may have read before it took the lock.
The tickets record what their holders know; which enqueue each came from, and the capacity the
latest one found, are recorded beside them.
-/

namespace Xxgate.Scheduling

open Xxgate.Base Xxgate.Base.FiniteMap Xxgate.Core

/-- The scheduler's state, the live tickets, and what is recorded of the enqueues. -/
structure Queueing where
  state : State
  tickets : FiniteMap Uuid LiveTicket
  /-- How many enqueues had succeeded before the latest one of an id. -/
  turn : Uuid → Nat
  /-- How many enqueues succeeded. -/
  turns : Nat
  /-- The queue capacity the latest of them read, zero before the first. -/
  capacity : Nat

/-- An operation of a request, of the holder of a lease, or of an administrator. -/
inductive QueueOp where
  | enqueue (cfg : RuntimeSettings) (id : Uuid) (thread : ThreadKey) (groupId : Uuid)
      (model : ModelRef) (source : ClientSource) (since : Nat)
  | tryReserve (cfg : RuntimeSettings) (id : Uuid) (now : Nat) (bindingId ns : Uuid)
  | dropTicket (id : Uuid)
  | confirmBinding (lease : DispatchLease)
  | confirmStateless (lease : DispatchLease)
  | beginAttempt (lease : DispatchLease) (previousAttempts : UInt8)
  | dropLease (lease : DispatchLease)
  | updateAccount (account : Account)
  | removeAccount (id : Uuid)
  | blockAccount (id : Uuid)
  | updateKey (key : GatewayKey)
  | removeKey (id : Uuid)
  | blockKey (id : Uuid)
  | setPaused (value : Bool)

namespace State

/-- The length of a session's queue, as it counts among all waiters. -/
theorem length_waiting (s : State) (session : SessionKey) :
    (s.queues.lookup session).elim 0 List.length = (s.waiting session).length := by
  unfold waiting
  cases s.queues.lookup session <;> rfl

/-- A pushed waiter is one more. -/
theorem queued_push (s : State) (session : SessionKey) (waiter : Waiter) :
    (s.push session waiter).queued = s.queued + 1 := by
  have hsum := sum_insert s.queues List.length session (s.waiting session ++ [waiter])
  rw [length_waiting, List.length_append, List.length_singleton] at hsum
  change (values (s.queues.insert session (s.waiting session ++ [waiter])) |>.map _).sum =
    (s.queues.values.map List.length).sum + 1
  omega

/-- Replacing one queue changes the number of waiters by what it changes that queue's length. -/
theorem Requeued.queued {s s' : State} {session : SessionKey} {rest : List Waiter}
    (h : s.Requeued s' session rest) :
    s'.queued + (s.waiting session).length = rest.length + s.queued := by
  unfold State.queued
  rw [← length_waiting]
  cases rest with
  | nil =>
    have hlookup : ∀ k, s'.queues.lookup k = (s.queues.erase session).lookup k := by
      intro k
      rw [h.lookup, lookup_erase_ite]
      rfl
    rw [sum_congr hlookup, sum_erase, List.length_nil, Nat.zero_add]
  | cons w ws =>
    have hlookup : ∀ k, s'.queues.lookup k = (s.queues.insert session (w :: ws)).lookup k := by
      intro k
      rw [h.lookup, lookup_insert_ite]
      rfl
    rw [sum_congr hlookup, sum_insert]

end State

namespace Queueing

/-- Before any request arrives. -/
def new (accounts : List Account) (bindings : List Binding) (keys : List GatewayKey) :
    Queueing where
  state := State.new accounts bindings keys
  tickets := ∅
  turn := fun _ ↦ 0
  turns := 0
  capacity := 0

/-- One operation. An id with a live ticket is not enqueued. -/
def step (q : Queueing) : QueueOp → Queueing
  | .enqueue cfg id thread groupId model source since =>
    if id ∈ q.tickets then q
    else
      match q.state.enqueue cfg id thread groupId model source since with
      | .error _ => q
      | .ok (state, ticket) =>
        { state := state
          tickets := q.tickets.insert id ⟨ticket, false⟩
          turn := Function.update q.turn id q.turns
          turns := q.turns + 1
          capacity := cfg.queueCapacity }
  | .tryReserve cfg id now bindingId ns =>
    match q.state.tryReserve cfg now bindingId ns id with
    | .ok (state, some _) =>
      { q with
        state := state
        tickets := q.tickets.modify id fun t ↦ { t with granted := true } }
    | _ => q
  | .dropTicket id =>
    match q.tickets.lookup id with
    | none => q
    | some t =>
      { q with
        state := q.state.removeWaiter t.ticket.id t.ticket.session
        tickets := q.tickets.erase id }
  | .confirmBinding lease => { q with state := (q.state.confirmBinding lease).1 }
  | .confirmStateless lease =>
    match q.state.confirmStateless lease with
    | .error _ => q
    | .ok (state, _) => { q with state := state }
  | .beginAttempt lease previousAttempts =>
    match q.state.beginAttempt lease previousAttempts with
    | .error _ => q
    | .ok state => { q with state := state }
  | .dropLease lease => { q with state := q.state.dropLease lease }
  | .updateAccount account => { q with state := q.state.updateAccount account }
  | .removeAccount id => { q with state := q.state.removeAccount id }
  | .blockAccount id => { q with state := q.state.blockAccount id }
  | .updateKey key => { q with state := q.state.updateKey key }
  | .removeKey id => { q with state := q.state.removeKey id }
  | .blockKey id => { q with state := q.state.blockKey id }
  | .setPaused value => { q with state := q.state.setPaused value }

/-- The waiter at a place in a session's queue. -/
def waiterAt (q : Queueing) (place : SessionKey × Nat) : Option Waiter :=
  (q.state.queues.lookup place.1).bind (·[place.2]?)

/-- The queues represent the requests that wait, in their order, and no more than the latest
enqueue had room for. -/
structure Represented (q : Queueing) : Prop where
  nodup : q.state.order.Nodup
  keys : ∀ k, k ∈ q.state.order ↔ k ∈ q.state.queues
  nonempty : ∀ k queue, q.state.queues.lookup k = some queue → queue ≠ []
  waiter : ∀ k queue, q.state.queues.lookup k = some queue → ∀ w ∈ queue,
    ∃ t, q.tickets.lookup w.id = some t ∧ t.ticket.id = w.id ∧ t.ticket.session = k ∧
      t.granted = false ∧ ∀ i t', q.tickets.lookup i = some t' → t'.ticket.id = w.id → i = w.id
  ticket : ∀ i t, q.tickets.lookup i = some t → t.granted = false →
    ∃! place, (q.waiterAt place).map (·.id) = some i
  enqueued : ∀ k queue, q.state.queues.lookup k = some queue →
    queue.Pairwise fun w w' ↦ q.turn w.id < q.turn w'.id
  room : q.state.queued ≤ q.capacity

/-! ### The invariant -/

/-- The queues and the tickets, as a system whose leases are out of sight. -/
def system (q : Queueing) (settings : LiveSettings) : System := ⟨q.state, settings, q.tickets, ∅⟩

/-- Waiters and tickets are in step, and the waiters of a session stand in the order of their
enqueues. -/
structure Orderly (q : Queueing) : Prop where
  ticketed : ∀ settings, Ticketed (q.system settings)
  enqueued : ∀ k, (q.state.waiting k).Pairwise fun w w' ↦ q.turn w.id < q.turn w'.id
  past : ∀ {i t}, q.tickets.lookup i = some t → q.turn i < q.turns
  room : q.state.queued ≤ q.capacity

namespace Orderly

variable {q : Queueing}

/-- A new scheduler has neither waiters nor tickets. -/
theorem new (accounts : List Account) (bindings : List Binding) (keys : List GatewayKey) :
    Orderly (Queueing.new accounts bindings keys) where
  ticketed := fun settings ↦ Ticketed.new settings accounts bindings keys
  enqueued := fun _ ↦ List.Pairwise.nil
  past := fun ht ↦ absurd ht (by simp [Queueing.new])
  room := Nat.le_refl 0

/-- An operation that keeps the queues keeps the invariant. -/
theorem frame (h : Orderly q) {state : State} (hq : state.queues = q.state.queues)
    (ho : state.order = q.state.order) : Orderly { q with state := state } where
  ticketed := fun settings ↦ (h.ticketed settings).congr hq ho rfl fun _ ↦ id
  enqueued := by
    simp only [State.waiting, hq]
    exact h.enqueued
  past := h.past
  room := by
    simp only [State.queued, hq]
    exact h.room

/-- Taking waiters out of a queue keeps the order and makes room. -/
theorem requeue (h : Orderly q) {state : State} {tickets : FiniteMap Uuid LiveTicket}
    {session : SessionKey} {rest : List Waiter} (hr : q.state.Requeued state session rest)
    (hrest : rest.Sublist (q.state.waiting session))
    (hticketed : ∀ settings, Ticketed ⟨state, settings, tickets, ∅⟩)
    (hkept : ∀ {i t}, tickets.lookup i = some t → ∃ t', q.tickets.lookup i = some t') :
    Orderly { q with state := state, tickets := tickets } where
  ticketed := hticketed
  enqueued := by
    intro k
    dsimp only
    rw [hr.waiting]
    split
    · exact (h.enqueued session).sublist hrest
    · exact h.enqueued k
  past := fun ht ↦ (hkept ht).elim fun _ ↦ h.past
  room := by
    have hqueued := hr.queued
    have hlength := hrest.length_le
    have hroom := h.room
    dsimp only
    omega

/-- A request that is enqueued stands behind all that were before. -/
theorem enqueue (h : Orderly q) {cfg : RuntimeSettings} {session : SessionKey} {waiter : Waiter}
    {ticket : QueueTicket} (hid : ticket.id = waiter.id) (hsession : ticket.session = session)
    (hfresh : q.tickets.lookup waiter.id = none) (hroom : q.state.queued < cfg.queueCapacity) :
    Orderly {
      state := q.state.push session waiter
      tickets := q.tickets.insert waiter.id ⟨ticket, false⟩
      turn := Function.update q.turn waiter.id q.turns
      turns := q.turns + 1
      capacity := cfg.queueCapacity } where
  ticketed := fun settings ↦ (h.ticketed settings).enqueue hid hsession hfresh rfl
  enqueued := by
    have hearlier : ∀ {k w}, w ∈ q.state.waiting k →
        Function.update q.turn waiter.id q.turns w.id = q.turn w.id ∧ q.turn w.id < q.turns := by
      intro k w hw
      obtain ⟨t, ht, -⟩ := (h.ticketed Sample.settings).waiter hw
      refine ⟨Function.update_of_ne (fun he ↦ ?_) _ _, h.past ht⟩
      rw [he] at ht
      cases hfresh.symm.trans ht
    have hkept : ∀ k, (q.state.waiting k).Pairwise fun w w' ↦
        Function.update q.turn waiter.id q.turns w.id <
          Function.update q.turn waiter.id q.turns w'.id := fun k ↦
      (h.enqueued k).imp_of_mem fun hw hw' hlt ↦ by
        rwa [(hearlier hw).1, (hearlier hw').1]
    intro k
    dsimp only
    rw [State.waiting_push]
    split
    · refine List.pairwise_append.mpr ⟨hkept session, List.pairwise_singleton _ _, ?_⟩
      intro w hw w' hw'
      rw [List.mem_singleton.mp hw', Function.update_self, (hearlier hw).1]
      exact (hearlier hw).2
    · exact hkept k
  past := by
    intro i t ht
    dsimp only at ht ⊢
    rw [lookup_insert_ite] at ht
    by_cases hi : i = waiter.id
    · rw [hi, Function.update_self]
      exact Nat.lt_succ_self _
    · rw [if_neg hi] at ht
      rw [Function.update_of_ne hi]
      exact Nat.lt_succ_of_lt (h.past ht)
  room := by
    dsimp only
    rw [State.queued_push]
    exact hroom

/-- Every operation keeps the waiters in step and in order. -/
theorem step (h : Orderly q) (op : QueueOp) : Orderly (q.step op) := by
  cases op with
  | enqueue cfg id thread groupId model source since =>
    simp only [Queueing.step]
    split
    · exact h
    · next hfresh =>
      split
      · exact h
      · next state ticket hok =>
        obtain ⟨-, hroom, rfl, rfl⟩ := State.enqueue_ok hok
        rw [← AList.lookup_eq_none] at hfresh
        exact h.enqueue rfl rfl hfresh hroom
  | tryReserve cfg id now bindingId ns =>
    simp only [Queueing.step]
    split
    · next state lease hok =>
      obtain ⟨-, -, -, sel, hsel, rfl, rfl, rfl⟩ := State.tryReserve_some_iff.mp hok
      have hp := Ticketed.waiting_of_first (State.select_some hsel)
      refine h.requeue (State.requeued_grant ..) (List.eraseIdx_sublist ..)
        (fun settings ↦ (h.ticketed settings).granted hp _ fun _ hn ↦ hn) fun ht ↦ ?_
      rw [lookup_modify] at ht
      split at ht
      · next hi =>
        obtain ⟨t', ht', -⟩ := Option.map_eq_some_iff.mp ht
        exact ⟨t', hi ▸ ht'⟩
      · exact ⟨_, ht⟩
    · exact h
  | dropTicket id =>
    simp only [Queueing.step]
    cases ht : q.tickets.lookup id with
    | none => exact h
    | some t =>
      have hrotating := (h.ticketed Sample.settings).rotating
      refine h.requeue (State.requeued_removeWaiter hrotating ..) List.filter_sublist
        (fun settings ↦ (h.ticketed settings).dropped ht) fun hi ↦ ?_
      rw [lookup_erase_ite] at hi
      split at hi
      · cases hi
      · exact ⟨_, hi⟩
  | confirmStateless lease =>
    simp only [Queueing.step, State.confirmStateless]
    split
    · exact h
    · next hok =>
      split at hok
      · cases hok
      · cases hok
        exact h.frame rfl rfl
  | beginAttempt lease previousAttempts =>
    simp only [Queueing.step]
    cases hok : q.state.beginAttempt lease previousAttempts with
    | error e => exact h
    | ok state =>
      obtain ⟨-, -, -, -, -, rfl⟩ := State.beginAttempt_ok_iff.mp hok
      exact h.frame rfl rfl
  | dropLease lease =>
    obtain ⟨_, _, _, hd⟩ := q.state.dropLease_frame lease
    simp only [Queueing.step, hd]
    exact h.frame rfl rfl
  | updateAccount account =>
    refine h.frame ?_ ?_ <;> unfold State.updateAccount <;> split <;> rfl
  | updateKey key =>
    refine h.frame ?_ ?_ <;> unfold State.updateKey <;> split <;> rfl
  | confirmBinding | removeAccount | blockAccount | removeKey | blockKey | setPaused =>
    exact h.frame rfl rfl

/-! ### What the queues represent -/

/-- A waiter's place is in the queue that waits. -/
theorem waiterAt_eq (q : Queueing) (place : SessionKey × Nat) :
    q.waiterAt place = (q.state.waiting place.1)[place.2]? := by
  unfold waiterAt State.waiting
  cases q.state.queues.lookup place.1 <;> rfl

/-- A request that waits stands at one place. -/
theorem place (h : Orderly q) {i : Uuid} {t : LiveTicket} (ht : q.tickets.lookup i = some t)
    (hg : t.granted = false) : ∃! place, (q.waiterAt place).map (·.id) = some i := by
  have hticketed := h.ticketed Sample.settings
  obtain ⟨w, hw, rfl⟩ := hticketed.queued ht hg
  obtain ⟨n, hn⟩ := List.mem_iff_getElem?.mp hw
  refine ⟨(t.ticket.session, n), ?_, fun place hplace ↦ ?_⟩
  · dsimp only
    rw [waiterAt_eq]
    exact congrArg _ hn
  · obtain ⟨w', hw', hid⟩ := Option.map_eq_some_iff.mp hplace
    rw [waiterAt_eq] at hw'
    obtain ⟨hk, rfl⟩ := hticketed.unique (List.mem_of_getElem? hw') hw hid
    rw [hk] at hw'
    have hnodup := (hticketed.nodup t.ticket.session).of_map
    have hlt : place.2 < (q.state.waiting t.ticket.session).length :=
      (List.getElem?_eq_some_iff.mp hw').1
    exact Prod.ext hk ((List.getElem?_inj hlt hnodup).mp (hw'.trans hn.symm))

/-- An orderly scheduler represents its waiting requests. -/
theorem represented (h : Orderly q) : Represented q := by
  have hticketed := h.ticketed Sample.settings
  have hwaiting : ∀ {k queue}, q.state.queues.lookup k = some queue →
      q.state.waiting k = queue := fun hq ↦ by rw [State.waiting, hq, Option.getD_some]
  exact {
    nodup := hticketed.rotating.nodup
    keys := fun k ↦ hticketed.rotating.mem.trans AList.lookup_isSome
    nonempty := fun _ _ ↦ hticketed.rotating.nonempty
    waiter := fun k queue hq w hw ↦ by
      obtain ⟨t, ht, hg, hsession⟩ := hticketed.waiter ((hwaiting hq).symm ▸ hw)
      refine ⟨t, ht, hticketed.ticket ht, hsession, hg, fun i t' ht' hid ↦ ?_⟩
      exact (hticketed.ticket ht').symm.trans hid
    ticket := fun _ _ ↦ h.place
    enqueued := fun k queue hq ↦ hwaiting hq ▸ h.enqueued k
    room := h.room }

end Orderly

/-- After any operations on a new scheduler the queues represent the requests that wait: the
rotation lists the sessions with a queue once each, a waiter stands for exactly one live ticket
and a ticket that is not granted for exactly one waiter, in the order of the enqueues, and
there are no more of them than the latest enqueue allowed. -/
theorem run_represented (accounts : List Account) (bindings : List Binding)
    (keys : List GatewayKey) (ops : List QueueOp) :
    Represented (run step (new accounts bindings keys) ops) :=
  (run_invariant (P := Orderly) (fun _ op h ↦ h.step op) ops
    (Orderly.new accounts bindings keys)).represented

end Queueing
end Xxgate.Scheduling

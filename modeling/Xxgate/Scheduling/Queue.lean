import Xxgate.Scheduling.Records

/-!
# The queues and the tickets

The rotation lists exactly the sessions with waiters, once each, and the waiters are
exactly the requests whose ticket is live and not yet granted.
-/

namespace Xxgate.Scheduling

open Xxgate.Base Xxgate.Base.FiniteMap Xxgate.Core

namespace State

/-- The waiters of a session, in arrival order. -/
def waiting (s : State) (session : SessionKey) : List Waiter :=
  (s.queues.lookup session).getD []

/-- The rotation lists the sessions that have a queue, once each, and no queue is empty. -/
structure Rotating (s : State) : Prop where
  nodup : s.order.Nodup
  mem : ∀ {k}, k ∈ s.order ↔ (s.queues.lookup k).isSome
  nonempty : ∀ {k q}, s.queues.lookup k = some q → q ≠ []

/-- In a rotating state the sessions in the rotation are those with waiters. -/
theorem Rotating.mem_iff {s : State} (h : s.Rotating) {k : SessionKey} :
    k ∈ s.order ↔ s.waiting k ≠ [] := by
  rw [h.mem, waiting]
  cases hq : s.queues.lookup k with
  | none => simp
  | some q => simpa using h.nonempty hq

/-- A session with waiters has them as its queue. -/
theorem queue_of_mem_waiting {s : State} {k : SessionKey} {w : Waiter} (h : w ∈ s.waiting k) :
    s.queues.lookup k = some (s.waiting k) := by
  unfold waiting at h ⊢
  cases hq : s.queues.lookup k with
  | none => simp [hq] at h
  | some q => rfl

/-! ### Pushing -/

/-- A pushed waiter stands last in its session's queue. -/
theorem waiting_push (s : State) (session : SessionKey) (waiter : Waiter) (k : SessionKey) :
    (s.push session waiter).waiting k =
      if k = session then s.waiting session ++ [waiter] else s.waiting k := by
  simp only [waiting, push, lookup_insert_ite]
  split <;> rfl

/-- Pushing puts a new session at the end of the rotation. -/
theorem Rotating.push {s : State} (h : s.Rotating) (session : SessionKey) (waiter : Waiter) :
    (s.push session waiter).Rotating := by
  have hm : session ∈ s.queues ↔ session ∈ s.order := by rw [h.mem, AList.lookup_isSome]
  refine ⟨?_, ?_, ?_⟩
  · simp only [State.push]
    split
    · exact h.nodup
    · next hn =>
      rw [hm] at hn
      exact List.nodup_append.mpr ⟨h.nodup, List.nodup_singleton _, fun a ha b hb ↦ by
        rw [List.mem_singleton.mp hb]
        exact ne_of_mem_of_not_mem ha hn⟩
  · intro k
    simp only [State.push, lookup_insert_ite]
    by_cases hk : k = session
    · subst hk
      rw [if_pos rfl]
      split
      · next hq => simpa using hm.mp hq
      · simp
    · rw [if_neg hk, ← h.mem]
      split <;> simp [hk]
  · intro k q hq
    simp only [State.push, lookup_insert_ite] at hq
    split at hq
    · cases hq
      simp
    · exact h.nonempty hq

/-! ### Taking a waiter out -/

/-- `s'` has the queues of `s` with `rest` in the place of the session's queue, which is
gone when nothing is left of it. -/
structure Requeued (s s' : State) (session : SessionKey) (rest : List Waiter) : Prop where
  lookup : ∀ k, s'.queues.lookup k =
    if k = session then (some rest).filter (!·.isEmpty) else s.queues.lookup k
  nodup : s.order.Nodup → s'.order.Nodup
  mem : ∀ k, k ∈ s'.order ↔ if k = session then rest ≠ [] else k ∈ s.order

/-- A replaced queue is what its session waits with. -/
theorem Requeued.waiting {s s' : State} {session : SessionKey} {rest : List Waiter}
    (h : s.Requeued s' session rest) (k : SessionKey) :
    s'.waiting k = if k = session then rest else s.waiting k := by
  unfold State.waiting
  rw [h.lookup]
  by_cases hk : k = session
  · cases rest <;> simp [hk, Option.filter]
  · simp [hk]

/-- Replacing a queue keeps the rotation right. -/
theorem Requeued.rotating {s s' : State} {session : SessionKey} {rest : List Waiter}
    (h : s.Requeued s' session rest) (hs : s.Rotating) : s'.Rotating := by
  refine ⟨h.nodup hs.nodup, ?_, ?_⟩
  · intro k
    rw [h.mem, h.lookup, hs.mem]
    by_cases hk : k = session
    · cases rest <;> simp [hk, Option.filter]
    · simp [hk]
  · intro k q hq
    rw [h.lookup] at hq
    split at hq
    · obtain ⟨he, hne⟩ := Option.filter_eq_some_iff.mp hq
      cases he
      simpa using hne
    · exact hs.nonempty hq

/-- A reservation takes its waiter out and moves the session to the end of the rotation. -/
theorem requeued_grant (s : State) (sel : Selected) (id : Uuid) (needsCommit : Bool) :
    s.Requeued (s.grant sel id needsCommit) sel.session
      ((s.waiting sel.session).eraseIdx sel.position) := by
  refine ⟨?_, ?_, ?_⟩
  · intro k
    simp only [grant, waiting]
    cases ((s.queues.lookup sel.session).getD []).eraseIdx sel.position with
    | nil => simp [lookup_erase_ite, Option.filter]
    | cons w ws => simp [lookup_insert_ite, Option.filter]
  · intro hn
    simp only [grant]
    have hf : (s.order.filter (· ≠ sel.session)).Nodup := hn.filter _
    split
    · exact hf
    · refine List.nodup_append.mpr ⟨hf, List.nodup_singleton _, fun a ha b hb ↦ ?_⟩
      rw [List.mem_singleton.mp hb]
      simpa using (List.mem_filter.mp ha).2
  · intro k
    simp only [grant, waiting]
    cases hr : (((s.queues.lookup sel.session).getD []).eraseIdx sel.position) with
    | nil => by_cases hk : k = sel.session <;> simp [hk]
    | cons w ws => by_cases hk : k = sel.session <;> simp [hk]

/-- Removing a waiter filters it out of its session's queue. -/
theorem requeued_removeWaiter {s : State} (h : s.Rotating) (id : Uuid) (session : SessionKey) :
    s.Requeued (s.removeWaiter id session) session
      ((s.waiting session).filter (·.id ≠ id)) := by
  have hl : (s.queues.modify session (·.filter (·.id ≠ id))).lookup session =
      (s.queues.lookup session).map (·.filter (·.id ≠ id)) := by
    rw [lookup_modify, if_pos rfl]
  refine ⟨?_, ?_, ?_⟩
  · intro k
    simp only [removeWaiter, waiting]
    cases hq : s.queues.lookup session with
    | none => by_cases hk : k = session <;> simp [hq, lookup_modify, hk, Option.filter]
    | some q =>
      rw [hl, hq, Option.map_some, Option.any_some, Option.getD_some]
      cases hr : q.filter (·.id ≠ id) with
      | nil =>
        by_cases hk : k = session <;> simp [lookup_erase_ite, lookup_modify, hk, Option.filter]
      | cons w ws =>
        by_cases hk : k = session
        · simpa [lookup_modify, hk, hq, Option.filter] using hr
        · simp [lookup_modify, hk]
  · intro hn
    simp only [removeWaiter]
    split
    · exact hn.filter _
    · exact hn
  · intro k
    have hmem : session ∈ s.order ↔ (s.queues.lookup session).isSome := h.mem
    simp only [removeWaiter, waiting]
    cases hq : s.queues.lookup session with
    | none =>
      rw [hl, hq]
      by_cases hk : k = session <;> simp [hmem, hq, hk]
    | some q =>
      rw [hl, hq, Option.map_some, Option.any_some, Option.getD_some]
      cases hr : q.filter (·.id ≠ id) with
      | nil => by_cases hk : k = session <;> simp [hk]
      | cons w ws => by_cases hk : k = session <;> simp [hmem, hq, hk]

end State

/-! ### Waiters and tickets -/

/-- Among waiters with distinct ids, erasing one by position is filtering out its id. -/
theorem eraseIdx_eq_filter {queue : List Waiter} (hn : (queue.map (·.id)).Nodup) {p : Nat}
    {w : Waiter} (hp : queue[p]? = some w) : queue.eraseIdx p = queue.filter (·.id ≠ w.id) := by
  induction queue generalizing p with
  | nil => cases hp
  | cons x rest ih =>
    obtain ⟨hx, hn⟩ := List.nodup_cons.mp hn
    cases p with
    | zero =>
      obtain rfl : x = w := Option.some.inj hp
      have hrest : rest.filter (·.id ≠ x.id) = rest := by
        refine List.filter_eq_self.mpr fun y hy ↦ decide_eq_true fun he ↦ hx ?_
        exact List.mem_map.mpr ⟨y, hy, he⟩
      rw [List.eraseIdx_cons_zero, List.filter_cons_of_neg (by simp), hrest]
    | succ p =>
      have hp : rest[p]? = some w := hp
      have hw : w ∈ rest := List.mem_of_getElem? hp
      have hxw : x.id ≠ w.id := fun he ↦ hx (List.mem_map.mpr ⟨w, hw, he.symm⟩)
      rw [List.eraseIdx_cons_succ, ih hn hp, List.filter_cons_of_pos (by simpa using hxw)]

/-- Waiters and ungranted tickets are the same requests, and none of them has a lease. -/
structure Ticketed (s : System) : Prop where
  rotating : s.state.Rotating
  nodup : ∀ k, ((s.state.waiting k).map (·.id)).Nodup
  waiter : ∀ {k w}, w ∈ s.state.waiting k →
    ∃ t, s.tickets.lookup w.id = some t ∧ t.granted = false ∧ t.ticket.session = k
  ticket : ∀ {i t}, s.tickets.lookup i = some t → t.ticket.id = i
  queued : ∀ {i t}, s.tickets.lookup i = some t → t.granted = false →
    ∃ w ∈ s.state.waiting t.ticket.session, w.id = i
  exclusive : ∀ {i t}, s.tickets.lookup i = some t → t.granted = false →
    s.leases.lookup i = none

namespace Ticketed

variable {s s' : System}

/-- Waiters of one id stand in one queue, once. -/
theorem unique (h : Ticketed s) {k k' : SessionKey} {w w' : Waiter}
    (hw : w ∈ s.state.waiting k) (hw' : w' ∈ s.state.waiting k') (hid : w.id = w'.id) :
    k = k' ∧ w = w' := by
  obtain ⟨t, ht, -, rfl⟩ := h.waiter hw
  obtain ⟨t', ht', -, rfl⟩ := h.waiter hw'
  rw [hid, ht'] at ht
  cases ht
  exact ⟨rfl, List.inj_on_of_nodup_map (h.nodup _) hw hw' hid⟩

/-- The waiter a queue position names is found under its id. -/
theorem findWaiter (h : Ticketed s) {k : SessionKey} {w : Waiter} (hw : w ∈ s.state.waiting k) :
    s.state.findWaiter w.id = some (k, w) := by
  have hq := State.queue_of_mem_waiting hw
  have hmem : (⟨k, s.state.waiting k⟩ : Sigma fun _ ↦ List Waiter) ∈ s.state.queues.entries :=
    AList.mem_lookup_iff.mp hq
  cases hf : s.state.findWaiter w.id with
  | none =>
    have hnone := List.findSome?_eq_none_iff.mp hf _ hmem
    rw [Option.map_eq_none_iff, List.find?_eq_none] at hnone
    exact absurd (hnone w hw) (by simp)
  | some found =>
    obtain ⟨⟨k', q'⟩, he, hfound⟩ := List.exists_of_findSome?_eq_some hf
    obtain ⟨w', hw', rfl⟩ := Option.map_eq_some_iff.mp hfound
    have hq' : s.state.waiting k' = q' := by
      rw [State.waiting, AList.mem_lookup_iff.mpr he, Option.getD_some]
    have hmem' : w' ∈ s.state.waiting k' := hq' ▸ List.mem_of_find?_eq_some hw'
    have hid : w'.id = w.id := by simpa using List.find?_some hw'
    obtain ⟨rfl, rfl⟩ := h.unique hmem' hw hid
    rfl

/-- The invariant depends on the queues, the tickets and the absence of leases only. -/
theorem congr (h : Ticketed s) (hq : s'.state.queues = s.state.queues)
    (ho : s'.state.order = s.state.order) (ht : s'.tickets = s.tickets)
    (hl : ∀ i, s.leases.lookup i = none → s'.leases.lookup i = none) : Ticketed s' where
  rotating := by
    refine ⟨ho ▸ h.rotating.nodup, ?_, ?_⟩
    · rw [ho, hq]
      exact h.rotating.mem
    · rw [hq]
      exact h.rotating.nonempty
  nodup := by
    simp only [State.waiting, hq]
    exact h.nodup
  waiter := by
    simp only [State.waiting, hq, ht]
    exact h.waiter
  ticket := by
    rw [ht]
    exact h.ticket
  queued := by
    simp only [State.waiting, hq, ht]
    exact h.queued
  exclusive := by
    rw [ht]
    exact fun hi hg ↦ hl _ (h.exclusive hi hg)

/-- A new scheduler has neither waiters nor tickets. -/
theorem new (settings : LiveSettings) (accounts : List Account) (bindings : List Binding)
    (keys : List GatewayKey) : Ticketed (System.new settings accounts bindings keys) where
  rotating := ⟨List.nodup_nil, by simp [System.new, State.new], by simp [System.new, State.new]⟩
  nodup := fun _ ↦ List.nodup_nil
  waiter := fun hw ↦ absurd hw (by simp [System.new, State.new, State.waiting])
  ticket := fun ht ↦ absurd ht (by simp [System.new])
  queued := fun ht ↦ absurd ht (by simp [System.new])
  exclusive := fun ht ↦ absurd ht (by simp [System.new])

/-- A request enqueued under a fresh id becomes a waiter with a ticket. -/
theorem enqueue (h : Ticketed s) {session : SessionKey} {waiter : Waiter} {ticket : QueueTicket}
    (hid : ticket.id = waiter.id) (hsession : ticket.session = session)
    (ht : s.tickets.lookup waiter.id = none) (hl : s.leases.lookup waiter.id = none) :
    Ticketed { s with
      state := s.state.push session waiter
      tickets := s.tickets.insert waiter.id ⟨ticket, false⟩ } := by
  have hfresh : ∀ {k w}, w ∈ s.state.waiting k → w.id ≠ waiter.id := by
    intro k w hw he
    obtain ⟨t, hw, -⟩ := h.waiter hw
    rw [he, ht] at hw
    cases hw
  refine ⟨h.rotating.push session waiter, ?_, ?_, ?_, ?_, ?_⟩
  · intro k
    simp only [State.waiting_push]
    split
    · rw [List.map_append]
      refine List.nodup_append.mpr ⟨h.nodup session, List.nodup_singleton _, ?_⟩
      intro a ha b hb
      obtain ⟨w, hw, rfl⟩ := List.mem_map.mp ha
      rw [List.mem_singleton.mp hb]
      exact hfresh hw
    · exact h.nodup k
  · intro k w hw
    simp only [State.waiting_push] at hw
    simp only [lookup_insert_ite]
    by_cases he : w.id = waiter.id
    · rw [if_pos he]
      split at hw
      · next hk => exact ⟨_, rfl, rfl, hsession.trans hk.symm⟩
      · exact absurd he (hfresh hw)
    · rw [if_neg he]
      split at hw
      · next hk =>
        rcases List.mem_append.mp hw with hw | hw
        · exact hk ▸ h.waiter hw
        · exact absurd (congrArg Waiter.id (List.mem_singleton.mp hw)) he
      · exact h.waiter hw
  · intro i t hi
    simp only [lookup_insert_ite] at hi
    split at hi
    · next he =>
      cases hi
      exact hid.trans he.symm
    · exact h.ticket hi
  · intro i t hi hg
    simp only [lookup_insert_ite] at hi
    simp only [State.waiting_push]
    split at hi
    · next he =>
      cases hi
      exact ⟨waiter, by simp [hsession], he.symm⟩
    · obtain ⟨w, hw, hwi⟩ := h.queued hi hg
      refine ⟨w, ?_, hwi⟩
      split
      · next hk => exact List.mem_append_left _ (hk ▸ hw)
      · exact hw
  · intro i t hi hg
    simp only [lookup_insert_ite] at hi
    split at hi
    · next he => rw [he, hl]
    · exact h.exclusive hi hg

/-- Taking a request's waiter out, with its ticket granted or dropped, leaves the others. -/
theorem remove (h : Ticketed s) {session : SessionKey} {id : Uuid}
    (hr : s.state.Requeued s'.state session ((s.state.waiting session).filter (·.id ≠ id)))
    (hsession : ∀ {t}, s.tickets.lookup id = some t → t.granted = false →
      t.ticket.session = session)
    (hkeep : ∀ {i}, i ≠ id → s'.tickets.lookup i = s.tickets.lookup i)
    (hgone : ∀ {t}, s'.tickets.lookup id = some t →
      t.granted = true ∧ ∃ t', s.tickets.lookup id = some t' ∧ t.ticket = t'.ticket)
    (hl : ∀ {i}, i ≠ id → s.leases.lookup i = none → s'.leases.lookup i = none) :
    Ticketed s' := by
  have hmem : ∀ {k w}, w ∈ s'.state.waiting k → w ∈ s.state.waiting k ∧ w.id ≠ id := by
    intro k w hw
    rw [hr.waiting] at hw
    split at hw
    · next hk =>
      rw [hk]
      simpa using hw
    · next hk =>
      refine ⟨hw, fun he ↦ hk ?_⟩
      obtain ⟨t, ht, hg, rfl⟩ := h.waiter hw
      exact hsession (he ▸ ht) hg
  refine ⟨hr.rotating h.rotating, ?_, ?_, ?_, ?_, ?_⟩
  · intro k
    rw [hr.waiting]
    split
    · exact (h.nodup session).sublist (List.filter_sublist.map _)
    · exact h.nodup k
  · intro k w hw
    obtain ⟨hw, hne⟩ := hmem hw
    rw [hkeep hne]
    exact h.waiter hw
  · intro i t hi
    by_cases he : i = id
    · subst he
      obtain ⟨-, t', ht', htt⟩ := hgone hi
      rw [htt]
      exact h.ticket ht'
    · rw [hkeep he] at hi
      exact h.ticket hi
  · intro i t hi hg
    by_cases he : i = id
    · subst he
      rw [(hgone hi).1] at hg
      cases hg
    · rw [hkeep he] at hi
      obtain ⟨w, hw, rfl⟩ := h.queued hi hg
      refine ⟨w, ?_, rfl⟩
      rw [hr.waiting]
      split
      · next hk => exact List.mem_filter.mpr ⟨hk ▸ hw, by simpa using he⟩
      · exact hw
  · intro i t hi hg
    by_cases he : i = id
    · subst he
      rw [(hgone hi).1] at hg
      cases hg
    · rw [hkeep he] at hi
      exact hl he (h.exclusive hi hg)

/-- The first dispatchable waiter stands in its session's queue. -/
theorem waiting_of_first {cfg : RuntimeSettings} {now : Nat} {sel : Selected} {st : State}
    (hf : st.First cfg now sel) :
    (st.waiting sel.session)[sel.position]? = some sel.waiter := by
  obtain ⟨_, -, hd, -⟩ := hf
  obtain ⟨queue, hq, he⟩ := hd.queue
  rw [State.waiting, hq]
  exact he.1

/-- A reservation takes the waiter at a queue position and marks its ticket. -/
theorem granted (h : Ticketed s) {sel : Selected}
    (hp : (s.state.waiting sel.session)[sel.position]? = some sel.waiter) (needsCommit : Bool)
    {leases : FiniteMap Uuid LiveLease}
    (hl : ∀ {i}, i ≠ sel.waiter.id → s.leases.lookup i = none → leases.lookup i = none) :
    Ticketed { s with
      state := s.state.grant sel sel.waiter.id needsCommit
      tickets := s.tickets.modify sel.waiter.id fun t ↦ { t with granted := true }
      leases := leases } := by
  have hw : sel.waiter ∈ s.state.waiting sel.session := List.mem_of_getElem? hp
  have hr := s.state.requeued_grant sel sel.waiter.id needsCommit
  rw [eraseIdx_eq_filter (h.nodup _) hp] at hr
  obtain ⟨t, ht, -, hts⟩ := h.waiter hw
  refine h.remove hr ?_ ?_ ?_ hl
  · intro t' ht' _
    cases ht.symm.trans ht'
    exact hts
  · intro i hi
    simp only [lookup_modify, if_neg hi]
  · intro t' ht'
    simp only [lookup_modify, if_pos, ht, Option.map_some] at ht'
    cases ht'
    exact ⟨rfl, t, ht, rfl⟩

/-- A dropped ticket takes its waiter along. -/
theorem dropped (h : Ticketed s) {id : Uuid} {t : LiveTicket}
    (held : s.tickets.lookup id = some t) :
    Ticketed { s with
      state := s.state.removeWaiter t.ticket.id t.ticket.session
      tickets := s.tickets.erase id } := by
  have hid := h.ticket held
  rw [hid]
  refine h.remove (State.requeued_removeWaiter h.rotating id t.ticket.session) ?_ ?_ ?_ ?_
  · intro t' ht' _
    cases held.symm.trans ht'
    rfl
  · intro i hi
    simp only [lookup_erase_ite, if_neg hi]
  · intro t' ht'
    simp only [lookup_erase_ite, if_pos] at ht'
    cases ht'
  · exact fun _ hn ↦ hn

/-- Every operation keeps waiters and tickets in step. -/
theorem step {op : Op} (ht : s.Transition op s') (h : Ticketed s) : Ticketed s' := by
  cases ht with
  | refused => exact h
  | accountUpdated | accountRemoved | accountBlocked | keyUpdated | keyRemoved | keyBlocked
  | pausedSet | published => exact h.congr rfl rfl rfl fun _ ↦ id
  | enqueued freshTicket freshLease _ _ => exact h.enqueue rfl rfl freshTicket freshLease
  | confirmed held | confirmedStateless held =>
    exact h.congr rfl rfl rfl fun _ ↦ lookup_insert_absent held
  | begun attempt held authorised =>
    obtain ⟨-, -, -, -, -, rfl⟩ := State.beginAttempt_ok_iff.mp authorised
    exact h.congr rfl rfl rfl fun _ ↦ lookup_insert_absent held
  | @leaseDropped id lease held =>
    obtain ⟨_, _, _, hd⟩ := s.state.dropLease_frame lease.toDispatchLease
    rw [hd]
    refine h.congr rfl rfl rfl fun i hi ↦ ?_
    rw [lookup_erase_ite, hi, ite_self]
  | @granted id now bindingId ns sel unpaused below first own =>
    obtain rfl := own
    exact h.granted (waiting_of_first first) _ fun hi hn ↦ by
      rw [lookup_insert_ite, if_neg hi, hn]
  | ticketDropped held => exact h.dropped held

end Ticketed

/-- Waiters and tickets are in step in every reachable state. -/
theorem System.Reachable.ticketed {s : System} (h : s.Reachable) : Ticketed s :=
  h.of_transition Ticketed.new fun _ ↦ Ticketed.step

end Xxgate.Scheduling

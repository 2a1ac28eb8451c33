import Xxgate.Base.Rotation
import Xxgate.Scheduling.Progress

/-!
# The order of the reservations

Sessions take turns: a reservation moves its session to the end of the rotation, and the
session that is passed over while it could run stands before it from then on. Within a
session the earliest dispatchable waiter goes first, and within a thread the earliest one.
-/

namespace Xxgate.Scheduling

open Xxgate.Base Xxgate.Base.FiniteMap Xxgate.Base.Rotation Xxgate.Core

namespace System

variable {s s' : System} {session other : SessionKey} {op : Op}

/-- The session an operation makes a reservation for, if it makes one. -/
def reservedFor (s : System) : Op → Option SessionKey
  | .tryReserve id now bindingId ns =>
    match s.state.tryReserve s.settings.toRuntimeSettings now bindingId ns id with
    | .ok (_, some lease) => some lease.session
    | _ => none
  | _ => none

/-- The sessions a run makes reservations for, in order. -/
def reservations (s : System) (ops : List Op) : List SessionKey :=
  outputs step reservedFor s ops

/-- The session keeps a waiter, and when a request polls it has one that meets all conditions
of the selection: eligible, unexpired, its thread idle, the session below its cap and not
draining, and its account with room. -/
def Keeps (session : SessionKey) (s : System) (op : Op) : Prop :=
  s.state.waiting session ≠ [] ∧
    ∀ id now bindingId ns, op = .tryReserve id now bindingId ns →
      ∃ sel, sel.session = session ∧ s.state.Dispatchable s.settings.toRuntimeSettings now sel

/-- A reservation is made for the selection that comes first. -/
theorem reservedFor_eq_some (h : s.reservedFor op = some other) :
    ∃ id now bindingId ns sel needsCommit, op = .tryReserve id now bindingId ns ∧
      s.state.First s.settings.toRuntimeSettings now sel ∧ sel.session = other ∧
      (s.step op).state = s.state.grant sel id needsCommit := by
  cases op with
  | tryReserve id now bindingId ns =>
    simp only [reservedFor] at h
    split at h
    · next state lease hr =>
      cases h
      have hstep : (s.step (.tryReserve id now bindingId ns)).state = state := by
        simp only [step, hr]
      obtain ⟨-, -, -, sel, hsel, -, rfl, rfl⟩ := State.tryReserve_some_iff.mp hr
      exact ⟨id, now, bindingId, ns, sel, _, rfl, State.select_some hsel, rfl, hstep⟩
    · cases h
  | _ => cases h

/-- A poll that gets no reservation changes nothing. -/
theorem step_of_unreserved {id : Uuid} {now : Nat} {bindingId ns : Uuid}
    (h : s.reservedFor (.tryReserve id now bindingId ns) = none) :
    s.step (.tryReserve id now bindingId ns) = s := by
  simp only [reservedFor] at h
  simp only [step]
  cases hr : s.state.tryReserve s.settings.toRuntimeSettings now bindingId ns id with
  | error x => rfl
  | ok answer =>
    obtain ⟨state, lease⟩ := answer
    cases lease with
    | none => rfl
    | some lease =>
      simp only [hr] at h
      cases h

/-- The rotation after a reservation: its session has left or stands at the end. -/
theorem order_grant (s : State) (sel : Selected) (id : Uuid) (needsCommit : Bool) :
    (s.grant sel id needsCommit).order = s.order.filter (· ≠ sel.session) ∨
      (s.grant sel id needsCommit).order =
        s.order.filter (· ≠ sel.session) ++ [sel.session] := by
  simp only [State.grant]
  split
  · exact .inl rfl
  · exact .inr rfl

/-- A session that got a reservation stands behind every other one. -/
theorem behind_of_reserved (hkeeps : session ∈ s.state.order) (hne : session ≠ other)
    (h : s.reservedFor op = some other) : Behind (s.step op).state.order other session := by
  obtain ⟨id, now, bindingId, ns, sel, needsCommit, -, -, rfl, hs⟩ := reservedFor_eq_some h
  rw [hs]
  rcases order_grant s.state sel id needsCommit with ho | ho
  · rw [ho]
    exact behind_of_notMem fun hm ↦ of_decide_eq_true (List.mem_filter.mp hm).2 rfl
  · rw [ho]
    exact behind_turn hkeeps hne

/-- A session stays behind one in the rotation that gets no reservation. -/
theorem behind_step (hmem : session ∈ s.state.order) (h : Behind s.state.order other session)
    (hnone : s.reservedFor op ≠ some session) :
    Behind (s.step op).state.order other session := by
  have ht := step_transition s op
  cases hr : s.reservedFor op with
  | some k =>
    obtain ⟨id, now, bindingId, ns, sel, needsCommit, -, -, rfl, hs⟩ := reservedFor_eq_some hr
    have hne : session ≠ sel.session := fun he ↦ hnone (by rw [hr, he])
    rw [hs]
    rcases order_grant s.state sel id needsCommit with ho | ho
    · rw [ho]
      exact h.leave
    · rw [ho]
      exact h.turn hmem hne
  | none =>
    generalize hs : s.step op = s' at ht
    cases ht with
    | refused | confirmed | confirmedStateless | accountUpdated | accountRemoved | accountBlocked
    | keyUpdated | keyRemoved | keyBlocked | pausedSet | published => exact h
    | begun attempt held authorised =>
      obtain ⟨-, -, -, -, -, rfl⟩ := State.beginAttempt_ok_iff.mp authorised
      exact h
    | @leaseDropped _ lease held =>
      obtain ⟨_, _, _, hd⟩ := s.state.dropLease_frame lease.toDispatchLease
      rw [hd]
      exact h
    | enqueued =>
      simp only [State.push]
      split
      · exact h
      · exact h.enter hmem _
    | ticketDropped =>
      simp only [State.removeWaiter]
      split
      · exact h.leave
      · exact h
    | granted =>
      rw [← hs, step_of_unreserved hr]
      exact h

/-- A session behind one that could run gets no reservation. -/
theorem not_reserved_behind (h : s.Reachable) (hkeeps : Keeps session s op)
    (hmem : session ∈ s.state.order) (hb : Behind s.state.order other session) :
    s.reservedFor op ≠ some other := by
  intro hr
  obtain ⟨id, now, bindingId, ns, sel, -, hop, ⟨i, hi, -, hmin⟩, hs, -⟩ := reservedFor_eq_some hr
  obtain ⟨sel', hs', hd'⟩ := hkeeps.2 id now bindingId ns hop
  rw [hs] at hi
  obtain ⟨j, hj, hy⟩ := hb.exists_before h.ticketed.rotating.nodup hmem hi
  rcases hmin sel' j (hs' ▸ hy) hd' with hlt | ⟨he, -⟩
  · exact absurd hlt (Nat.lt_asymm hj)
  · exact absurd he (Nat.ne_of_gt hj)

/-- Round robin with bounded bypass. From any reachable state, over any operations, while a
session keeps a waiter that could be selected and gets no reservation, every other session gets
one at most. And what a poll reserves is the earliest waiter of its thread in its session's
queue, and the first of the waiters of that session that could be dispatched. -/
theorem round_robin (h : s.Reachable) :
    (∀ session ops, Along step (Keeps session) s ops → session ∉ s.reservations ops →
      ∀ other, other ≠ session → (s.reservations ops).count other ≤ 1) ∧
    ∀ now bindingId ns id state lease,
      s.state.tryReserve s.settings.toRuntimeSettings now bindingId ns id =
        .ok (state, some lease) →
      ∃ sel, sel.session = lease.session ∧ sel.waiter.id = id ∧
        sel.waiter.threadId = lease.threadId ∧
        Earliest (s.state.waiting lease.session) sel.position sel.waiter ∧
        s.state.Dispatchable s.settings.toRuntimeSettings now sel ∧
        ∀ sel', sel'.session = lease.session →
          s.state.Dispatchable s.settings.toRuntimeSettings now sel' →
          sel.position ≤ sel'.position := by
  constructor
  · intro session ops hkeeps hnone other hne
    refine count_outputs_le_one (I := Reachable)
      (P := fun s ↦ Behind s.state.order other session) ?_ ?_ ?_ h (hkeeps.avoids hnone)
    · exact fun s op hs ↦ hs.run [op]
    · intro s op hs hk hr
      exact behind_of_reserved (hs.ticketed.rotating.mem_iff.mpr hk.1.1) hne.symm hr
    · intro s op hs hb hk
      have hmem := hs.ticketed.rotating.mem_iff.mpr hk.1.1
      exact ⟨not_reserved_behind hs hk.1 hmem hb, behind_step hmem hb hk.2⟩
  · intro now bindingId ns id state lease hr
    obtain ⟨-, -, -, sel, hsel, hid, rfl, -⟩ := State.tryReserve_some_iff.mp hr
    obtain ⟨i, hi, hd, hmin⟩ := State.select_some hsel
    obtain ⟨queue, hq, he⟩ := hd.queue
    refine ⟨sel, rfl, hid, rfl, ?_, hd, ?_⟩
    · have hw : s.state.waiting sel.session = queue := by rw [State.waiting, hq, Option.getD_some]
      exact (hw ▸ he : Earliest (s.state.waiting sel.session) _ _)
    · intro sel' hs hd'
      have hs : sel'.session = sel.session := hs
      rcases hmin sel' i (hs ▸ hi) hd' with hlt | ⟨-, hle⟩
      · exact absurd hlt (Nat.lt_irrefl i)
      · exact hle

/-- Session `a` gets its reservation, and its next waiter has to wait for session `b`. -/
theorem round_robin_contended :
    (contended.reservations [Sample.poll 1, Sample.arrive 3 "a" "u", Sample.poll 3]).count
      ⟨50, "a"⟩ ≤ 1 := by
  refine (round_robin (s := contended) (Sample.reachable _ _)).1 ⟨50, "b"⟩ _ ?_ (by decide) _
    (by decide)
  refine ⟨⟨by decide, ?_⟩, ⟨by decide, ?_⟩, ⟨by decide, ?_⟩, trivial⟩
  · rintro _ _ _ _ ⟨⟩
    exact ⟨_, rfl, contended_dispatchable⟩
  · rintro _ _ _ _ ⟨⟩
  · rintro _ _ _ _ ⟨⟩
    exact ⟨⟨⟨50, "b"⟩, ⟨.codex, 2, "t", 1, .codex "gpt", 0⟩, 0, Sample.account 8⟩, rfl,
      by decide, ⟨_, rfl, rfl, by simp⟩, by decide⟩

end System
end Xxgate.Scheduling

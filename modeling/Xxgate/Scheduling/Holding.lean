import Xxgate.Scheduling.Capacity

/-!
# What one request holds

The ticket and the lease that live under a request's id. Only operations of the request
itself change them, and each of those in one way.
-/

namespace Xxgate.Scheduling

open Xxgate.Base Xxgate.Base.FiniteMap Xxgate.Core

/-- The request an operation is by; none for an administrator's. -/
def Op.holder : Op → Option Uuid
  | .enqueue id .. | .tryReserve id .. | .confirmBinding id | .confirmStateless id
  | .beginSend id | .beginEncryptedReasoningRecovery id | .dropLease id | .dropTicket id => some id
  | _ => none

namespace System

/-- The ticket of a request, as whether it was granted, and its lease with the attempts. -/
def holding (s : System) (id : Uuid) : Option Bool × Option (DispatchLease × Nat) :=
  ((s.tickets.lookup id).map (·.granted),
    (s.leases.lookup id).map fun l ↦ (l.toDispatchLease, l.attempts))

/-- A held lease lives. -/
theorem lease_of_holding {s : System} {id : Uuid} {t : Option Bool} {l : DispatchLease} {n : Nat}
    (h : s.holding id = (t, some (l, n))) : s.leases.lookup id = some ⟨l, n⟩ := by
  obtain ⟨live, hl, he⟩ := Option.map_eq_some_iff.mp (congrArg Prod.snd h)
  cases he
  exact hl

/-- An operation leaves what others hold alone. -/
theorem Transition.others {s s' : System} {op : Op} (ht : s.Transition op s') {i : Uuid}
    (hi : op.holder ≠ some i) :
    s'.tickets.lookup i = s.tickets.lookup i ∧ s'.leases.lookup i = s.leases.lookup i := by
  have hne : ∀ {id : Uuid}, some id ≠ some i → i ≠ id := by
    rintro id h rfl
    exact h rfl
  cases ht with
  | refused | accountUpdated | accountRemoved | accountBlocked | keyUpdated | keyRemoved
  | keyBlocked | pausedSet | published => exact ⟨rfl, rfl⟩
  | enqueued => exact ⟨AList.lookup_insert_ne (hne hi), rfl⟩
  | granted =>
    refine ⟨?_, AList.lookup_insert_ne (hne hi)⟩
    rw [lookup_modify, if_neg (hne hi)]
  | confirmed | confirmedStateless => exact ⟨rfl, AList.lookup_insert_ne (hne hi)⟩
  | begun attempt held authorised =>
    rcases attempt with ⟨rfl, -⟩ | ⟨rfl, -⟩
    · exact ⟨rfl, AList.lookup_insert_ne (hne hi)⟩
    · exact ⟨rfl, AList.lookup_insert_ne (hne hi)⟩
  | leaseDropped => exact ⟨rfl, AList.lookup_erase_ne (hne hi)⟩
  | ticketDropped => exact ⟨AList.lookup_erase_ne (hne hi), rfl⟩

/-- What a request holds stays the same over the operations of others. -/
theorem holding_others {s : System} {op : Op} {i : Uuid} (hi : op.holder ≠ some i) :
    (s.step op).holding i = s.holding i := by
  obtain ⟨ht, hl⟩ := (step_transition s op).others hi
  rw [holding, holding, ht, hl]

/-! ### One operation of the request -/

variable {s : System} {id : Uuid}

/-- An accepted request holds a ticket. -/
theorem holding_enqueue {thread : ThreadKey} {groupId : Uuid} {model : ModelRef}
    {source : ClientSource} {since : Nat} {r : State × QueueTicket}
    (h : s.holding id = (none, none))
    (ho : s.state.enqueue s.settings.toRuntimeSettings id thread groupId model source since =
      .ok r) :
    (s.step (.enqueue id thread groupId model source since)).holding id = (some false, none) := by
  have ht : s.tickets.lookup id = none := Option.map_eq_none_iff.mp (congrArg Prod.fst h)
  have hl : s.leases.lookup id = none := Option.map_eq_none_iff.mp (congrArg Prod.snd h)
  have hfresh : ¬(id ∈ s.tickets ∨ id ∈ s.leases) := by
    rw [mem_iff_lookup, mem_iff_lookup, ht, hl]
    simp
  simp only [step, if_neg hfresh, ho, holding, hl, AList.lookup_insert]
  rfl

/-- A granted request holds a lease without attempts. -/
theorem holding_tryReserve {now : Nat} {bindingId ns : Uuid} {state : State}
    {lease : DispatchLease}
    (ho : s.state.tryReserve s.settings.toRuntimeSettings now bindingId ns id =
      .ok (state, some lease)) :
    (s.step (.tryReserve id now bindingId ns)).holding id =
      ((s.tickets.lookup id).map fun _ ↦ true, some (lease, 0)) := by
  simp only [step, ho, holding, lookup_modify, if_pos, AList.lookup_insert, Option.map_map]
  rfl

/-- A dropped ticket is gone. -/
theorem holding_dropTicket : (s.step (.dropTicket id)).holding id = (none, (s.holding id).2) := by
  cases ht : s.tickets.lookup id with
  | none =>
    simp only [step, ht, holding]
    rfl
  | some t =>
    simp only [step, ht, holding, AList.lookup_erase]
    rfl

/-- A dropped lease is gone. -/
theorem holding_dropLease : (s.step (.dropLease id)).holding id = ((s.holding id).1, none) := by
  cases hl : s.leases.lookup id with
  | none =>
    simp only [step, hl, holding]
    rfl
  | some l =>
    simp only [step, hl, holding, AList.lookup_erase]
    rfl

/-- A confirmed lease needs no commit any more. -/
theorem holding_confirmBinding {t : Option Bool} {l : DispatchLease} {n : Nat}
    (h : s.holding id = (t, some (l, n))) (hc : l.needsCommit = true) :
    (s.step (.confirmBinding id)).holding id =
      (t, some ({ l with needsCommit := false }, n)) := by
  have hl := lease_of_holding h
  have ht : (s.tickets.lookup id).map (·.granted) = t := congrArg Prod.fst h
  simp only [step, withLease, hl, Option.bind_some, confirmBinding, hc, if_pos, holding,
    AList.lookup_insert, ht]
  rfl

/-- A lease confirmed without its binding needs no commit any more. -/
theorem holding_confirmStateless {t : Option Bool} {l : DispatchLease} {n : Nat}
    {r : State × DispatchLease} (h : s.holding id = (t, some (l, n)))
    (ho : s.state.confirmStateless l = .ok r) :
    (s.step (.confirmStateless id)).holding id =
      (t, some ({ l with needsCommit := false }, n)) := by
  have hl := lease_of_holding h
  have ht : (s.tickets.lookup id).map (·.granted) = t := congrArg Prod.fst h
  have hr : r.2 = { l with needsCommit := false } := by
    unfold State.confirmStateless at ho
    split at ho
    · cases ho
    · cases ho
      rfl
  simp only [step, withLease, hl, Option.bind_some, confirmStateless, ho, holding,
    AList.lookup_insert, ht, hr]
  rfl

/-- An authorised attempt is counted. -/
theorem holding_beginSend {t : Option Bool} {l : DispatchLease} {n : Nat} {r : State}
    (h : s.holding id = (t, some (l, n))) (ho : s.state.beginSend l = .ok r) :
    (s.step (.beginSend id)).holding id = (t, some (l, n + 1)) := by
  have hl := lease_of_holding h
  have ht : (s.tickets.lookup id).map (·.granted) = t := congrArg Prod.fst h
  have ho' : s.state.beginAttempt l 0 = .ok r := ho
  simp only [step, withLease, hl, Option.bind_some, beginAttempt, ho', holding,
    AList.lookup_insert, ht]
  rfl

/-- An authorised recovery is counted. -/
theorem holding_beginEncryptedReasoningRecovery {t : Option Bool} {l : DispatchLease} {n : Nat}
    {r : State} (h : s.holding id = (t, some (l, n)))
    (ho : s.state.beginEncryptedReasoningRecovery l = .ok r) :
    (s.step (.beginEncryptedReasoningRecovery id)).holding id = (t, some (l, n + 1)) := by
  have hl := lease_of_holding h
  have ht : (s.tickets.lookup id).map (·.granted) = t := congrArg Prod.fst h
  have ho' : s.state.beginAttempt l 1 = .ok r := ho
  simp only [step, withLease, hl, Option.bind_some, beginAttempt, ho', holding,
    AList.lookup_insert, ht]
  rfl

end System
end Xxgate.Scheduling

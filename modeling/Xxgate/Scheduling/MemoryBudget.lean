import Xxgate.Base.FiniteMap
import Xxgate.Core.Types

/-!
# The budget of buffered bytes

`crates/xxgate-core/src/scheduling.rs:710–768`. The total of a budget stands beside the bytes of
its leases. Integers have a fixed width; a build checks its arithmetic for overflow and panics, or
lets it wrap. Each operation is one critical section on the total, and a lease is its caller's own.
-/

namespace Xxgate.Scheduling.MemoryBudget

open Xxgate.Base Xxgate.Base.FiniteMap Xxgate.Core

variable {w : Nat}

/-! ### Integers -/

/-- `a + b`; none is the panic of a build that checks for overflow. -/
def add (checks : Bool) (a b : BitVec w) : Option (BitVec w) :=
  if checks && decide (2 ^ w ≤ a.toNat + b.toNat) then none else some (a + b)

/-- `a - b`, likewise. -/
def sub (checks : Bool) (a b : BitVec w) : Option (BitVec w) :=
  if checks && decide (a.toNat < b.toNat) then none else some (a - b)

/-- `usize::checked_add`. -/
def checkedAdd (a b : BitVec w) : Option (BitVec w) :=
  if a.toNat + b.toNat < 2 ^ w then some (a + b) else none

/-- `usize::saturating_sub`. -/
def saturatingSub (a b : BitVec w) : BitVec w := if a.toNat < b.toNat then 0#w else a - b

/-! ### Leases -/

/-- `scheduling.rs:731`. -/
structure MemoryLease (w : Nat) where
  bytes : BitVec w
  deriving DecidableEq

/-- What an operation on a lease returns, with the total and the lease after it. -/
structure Outcome (w : Nat) where
  result : Result Unit
  used : BitVec w
  lease : MemoryLease w

/-- `scheduling.rs:746`. -/
def grow (checks : Bool) (used : BitVec w) (lease : MemoryLease w) (bytes : BitVec w) :
    Option (Outcome w) :=
  match checkedAdd used bytes with
  | none => some ⟨.error .storage, used, lease⟩
  | some next => (add checks lease.bytes bytes).map fun sum ↦ ⟨.ok (), next, ⟨sum⟩⟩

/-- `scheduling.rs:736`. -/
def resize (checks : Bool) (used : BitVec w) (lease : MemoryLease w) (bytes : BitVec w) :
    Option (Outcome w) :=
  if lease.bytes.toNat ≤ bytes.toNat then
    (sub checks bytes lease.bytes).bind fun more ↦ grow checks used lease more
  else
    (sub checks lease.bytes bytes).bind fun less ↦
      (sub checks used less).map fun rest ↦ ⟨.ok (), rest, ⟨bytes⟩⟩

/-- `scheduling.rs:763`: `Drop for MemoryLease`. -/
def drop (used : BitVec w) (lease : MemoryLease w) : BitVec w := saturatingSub used lease.bytes

/-! ### Leases of one budget -/

/-- A budget and its live leases. -/
structure World (w : Nat) where
  used : BitVec w
  leases : FiniteMap Nat (MemoryLease w)

/-- An operation of the holder of a lease. -/
inductive Op (w : Nat) where
  | lease (id : Nat)
  | grow (id : Nat) (bytes : BitVec w)
  | resize (id : Nat) (bytes : BitVec w)
  | drop (id : Nat)

namespace World

/-- `MemoryBudget::new`. -/
def new : World w := ⟨0#w, ∅⟩

/-- The bytes of the live leases. -/
def total (s : World w) : Nat := (s.leases.values.map fun lease ↦ lease.bytes.toNat).sum

/-- Let the holder of a live lease act on it. -/
def withLease (s : World w) (id : Nat) (f : MemoryLease w → Option (Outcome w)) :
    Option (World w) :=
  match s.leases.lookup id with
  | none => some s
  | some lease => (f lease).map fun o ↦ ⟨o.used, s.leases.insert id o.lease⟩

/-- One operation; a lease that does not live has no holder. -/
def step (checks : Bool) (s : World w) : Op w → Option (World w)
  | .lease id => some (if id ∈ s.leases then s else { s with leases := s.leases.insert id ⟨0#w⟩ })
  | .grow id bytes => s.withLease id fun lease ↦ MemoryBudget.grow checks s.used lease bytes
  | .resize id bytes => s.withLease id fun lease ↦ MemoryBudget.resize checks s.used lease bytes
  | .drop id =>
    match s.leases.lookup id with
    | none => some s
    | some lease => some ⟨MemoryBudget.drop s.used lease, s.leases.erase id⟩

/-- Some operations, one after the other. -/
def run (checks : Bool) (s : World w) (ops : List (Op w)) : Option (World w) :=
  ops.foldlM (step checks) s

end World

/-! ### What an operation does to exact leases -/

private theorem checkedAdd_eq (a b : BitVec w) :
    (a.toNat + b.toNat < 2 ^ w ∧ ∃ c, checkedAdd a b = some c ∧ c.toNat = a.toNat + b.toNat) ∨
      (2 ^ w ≤ a.toNat + b.toNat ∧ checkedAdd a b = none) := by
  unfold checkedAdd
  split
  · next h => exact .inl ⟨h, a + b, rfl, BitVec.toNat_add_of_lt h⟩
  · next h => exact .inr ⟨Nat.le_of_not_lt h, rfl⟩

private theorem add_eq (checks : Bool) {a b : BitVec w} (h : a.toNat + b.toNat < 2 ^ w) :
    ∃ c, add checks a b = some c ∧ c.toNat = a.toNat + b.toNat := by
  refine ⟨a + b, ?_, BitVec.toNat_add_of_lt h⟩
  rw [add, decide_eq_false (Nat.not_le.mpr h), Bool.and_false]
  rfl

private theorem sub_eq (checks : Bool) {a b : BitVec w} (h : b.toNat ≤ a.toNat) :
    ∃ c, sub checks a b = some c ∧ c.toNat = a.toNat - b.toNat := by
  refine ⟨a - b, ?_, BitVec.toNat_sub_of_le h⟩
  rw [sub, decide_eq_false (Nat.not_lt.mpr h), Bool.and_false]
  rfl

/-- An operation on a lease of these bytes that asks for so many leaves the total and the lease
exact, or fails where the total would not fit and leaves both. -/
structure Exact (used : BitVec w) (lease : MemoryLease w) (asked : Nat) (o : Outcome w) :
    Prop where
  ok_iff : o.result = .ok () ↔ used.toNat + asked < 2 ^ w + lease.bytes.toNat
  ok : o.result = .ok () → o.lease.bytes.toNat = asked ∧
    o.used.toNat + lease.bytes.toNat = used.toNat + asked
  error : o.result ≠ .ok () → o.used = used ∧ o.lease = lease

/-- Growing never wraps the bytes of a lease that the total counts. -/
theorem grow_exact (checks : Bool) {used : BitVec w} {lease : MemoryLease w} (bytes : BitVec w)
    (h : lease.bytes.toNat ≤ used.toNat) :
    ∃ o, grow checks used lease bytes = some o ∧
      Exact used lease (lease.bytes.toNat + bytes.toNat) o := by
  unfold grow
  obtain ⟨hfits, next, hnext, hsum⟩ | ⟨hlong, hnone⟩ := checkedAdd_eq used bytes
  · have hlease : lease.bytes.toNat + bytes.toNat < 2 ^ w := by omega
    obtain ⟨sum, hadd, hbytes⟩ := add_eq checks hlease
    rw [hnext, hadd]
    refine ⟨_, rfl, ⟨fun _ ↦ by omega, fun _ ↦ rfl⟩, fun _ ↦ ⟨hbytes, ?_⟩,
      fun hne ↦ absurd rfl hne⟩
    dsimp only
    omega
  · rw [hnone]
    refine ⟨_, rfl, ⟨fun hok ↦ (by cases hok), fun hfits ↦ by omega⟩, fun hok ↦ (by cases hok),
      fun _ ↦ ⟨rfl, rfl⟩⟩

/-- Resizing a lease that the total counts never wraps, and no subtraction of it underflows. -/
theorem resize_exact (checks : Bool) {used : BitVec w} {lease : MemoryLease w} (bytes : BitVec w)
    (h : lease.bytes.toNat ≤ used.toNat) :
    ∃ o, resize checks used lease bytes = some o ∧ Exact used lease bytes.toNat o := by
  unfold resize
  split
  · next hle =>
    obtain ⟨more, hmore, hsub⟩ := sub_eq checks hle
    obtain ⟨o, ho, hexact⟩ := grow_exact checks more h
    have hasked : lease.bytes.toNat + more.toNat = bytes.toNat := by omega
    rw [hmore, Option.bind_some, ho]
    exact ⟨o, rfl, hasked ▸ hexact⟩
  · next hgt =>
    obtain ⟨less, hless, hsub⟩ := sub_eq checks (Nat.le_of_not_le hgt)
    have hcounted : less.toNat ≤ used.toNat := by omega
    obtain ⟨rest, hrest, hused⟩ := sub_eq checks hcounted
    rw [hless, Option.bind_some, hrest]
    have hfits := used.isLt
    refine ⟨_, rfl, ⟨fun _ ↦ by omega, fun _ ↦ rfl⟩, fun _ ↦ ⟨rfl, ?_⟩, fun hne ↦ absurd rfl hne⟩
    dsimp only
    omega

/-- A drop takes off what the total counts. -/
theorem drop_exact {used : BitVec w} {lease : MemoryLease w}
    (h : lease.bytes.toNat ≤ used.toNat) :
    (drop used lease).toNat + lease.bytes.toNat = used.toNat := by
  unfold drop saturatingSub
  rw [if_neg (Nat.not_lt.mpr h), BitVec.toNat_sub_of_le h]
  omega

/-! ### Runs -/

namespace World

/-- The total counts the bytes of the live leases. -/
def Counted (s : World w) : Prop := s.used.toNat = s.total

/-- The bytes of one lease are part of the total. -/
theorem Counted.le {s : World w} (h : s.Counted) {id : Nat} {lease : MemoryLease w}
    (hid : s.leases.lookup id = some lease) : lease.bytes.toNat ≤ s.used.toNat := by
  have hsum := sum_erase s.leases (fun lease ↦ lease.bytes.toNat) id
  rw [hid, Option.elim_some] at hsum
  rw [h, total, ← hsum]
  exact Nat.le_add_left _ _

/-- An exact operation keeps the total exact. -/
theorem Counted.withLease {s : World w} (h : s.Counted) {id : Nat}
    {f : MemoryLease w → Option (Outcome w)}
    (hf : ∀ lease, lease.bytes.toNat ≤ s.used.toNat →
      ∃ o asked, f lease = some o ∧ Exact s.used lease asked o) :
    ∃ s', s.withLease id f = some s' ∧ s'.Counted := by
  unfold World.withLease
  cases hid : s.leases.lookup id with
  | none => exact ⟨s, rfl, h⟩
  | some lease =>
    obtain ⟨o, asked, ho, hexact⟩ := hf lease (h.le hid)
    refine ⟨⟨o.used, s.leases.insert id o.lease⟩, congrArg (Option.map _) ho, ?_⟩
    have hsum := sum_insert s.leases (fun lease ↦ lease.bytes.toNat) id o.lease
    rw [hid, Option.elim_some] at hsum
    have hcounted : s.used.toNat = s.total := h
    change o.used.toNat = ((values (s.leases.insert id o.lease)).map _).sum
    unfold total at hcounted
    by_cases hok : o.result = .ok ()
    · obtain ⟨hbytes, hused⟩ := hexact.ok hok
      omega
    · obtain ⟨hused, hlease⟩ := hexact.error hok
      rw [hused]
      rw [hlease] at hsum ⊢
      omega

/-- No operation panics, and the total stays exact. -/
theorem Counted.step {s : World w} (h : s.Counted) (checks : Bool) (op : Op w) :
    ∃ s', s.step checks op = some s' ∧ s'.Counted := by
  cases op with
  | lease id =>
    refine ⟨_, rfl, ?_⟩
    split
    · exact h
    · next hid =>
      have hnone : s.leases.lookup id = none := AList.lookup_eq_none.mpr hid
      have hsum := sum_insert s.leases (fun lease ↦ lease.bytes.toNat) id ⟨0#w⟩
      rw [hnone, Option.elim_none, Nat.add_zero, BitVec.toNat_zero, Nat.zero_add] at hsum
      exact h.trans hsum.symm
  | grow id bytes =>
    refine h.withLease fun lease hle ↦ ?_
    obtain ⟨o, ho, hexact⟩ := grow_exact checks bytes hle
    exact ⟨o, _, ho, hexact⟩
  | resize id bytes =>
    refine h.withLease fun lease hle ↦ ?_
    obtain ⟨o, ho, hexact⟩ := resize_exact checks bytes hle
    exact ⟨o, _, ho, hexact⟩
  | drop id =>
    unfold World.step
    dsimp only
    cases hid : s.leases.lookup id with
    | none => exact ⟨s, rfl, h⟩
    | some lease =>
      refine ⟨_, rfl, ?_⟩
      have hdrop := drop_exact (h.le hid)
      have hsum := sum_erase s.leases (fun lease ↦ lease.bytes.toNat) id
      rw [hid, Option.elim_some] at hsum
      have hcounted : s.used.toNat = s.total := h
      change (drop s.used lease).toNat = ((values (s.leases.erase id)).map _).sum
      unfold total at hcounted
      omega

private theorem Counted.run {s : World w} (h : s.Counted) (checks : Bool) (ops : List (Op w)) :
    ∃ s', s.run checks ops = some s' ∧ s'.Counted := by
  induction ops generalizing s with
  | nil => exact ⟨s, rfl, h⟩
  | cons op ops ih =>
    obtain ⟨s₁, hs₁, hcounted⟩ := h.step checks op
    obtain ⟨s₂, hs₂, hcounted'⟩ := ih hcounted
    refine ⟨s₂, ?_, hcounted'⟩
    unfold World.run at hs₂ ⊢
    rw [List.foldlM_cons, hs₁]
    exact hs₂

/-- What is conserved: the total counts the bytes of the live leases, a grow or a resize of one of
them fails just where the total would not fit and is exact or without effect, a drop takes off
exactly its bytes, and nothing is left when no lease is. -/
structure Conserved (checks : Bool) (s : World w) : Prop where
  counted : s.Counted
  grow : ∀ id lease, s.leases.lookup id = some lease → ∀ bytes : BitVec w,
    ∃ o, MemoryBudget.grow checks s.used lease bytes = some o ∧
      Exact s.used lease (lease.bytes.toNat + bytes.toNat) o
  resize : ∀ id lease, s.leases.lookup id = some lease → ∀ bytes : BitVec w,
    ∃ o, MemoryBudget.resize checks s.used lease bytes = some o ∧
      Exact s.used lease bytes.toNat o
  drop : ∀ id lease, s.leases.lookup id = some lease →
    (MemoryBudget.drop s.used lease).toNat + lease.bytes.toNat = s.used.toNat
  empty : s.leases = ∅ → s.used = 0#w

/-- Whether a build checks its arithmetic or not, no sequence of operations panics, and buffered
bytes are conserved. -/
theorem buffered_bytes_conserved (checks : Bool) (ops : List (Op w)) :
    ∃ s, run checks new ops = some s ∧ s.Conserved checks := by
  have hnew : (new : World w).Counted := BitVec.toNat_zero
  obtain ⟨s, hs, hcounted⟩ := hnew.run checks ops
  refine ⟨s, hs, hcounted, fun id lease hid bytes ↦ grow_exact checks bytes (hcounted.le hid),
    fun id lease hid bytes ↦ resize_exact checks bytes (hcounted.le hid),
    fun id lease hid ↦ drop_exact (hcounted.le hid), fun hempty ↦ ?_⟩
  apply BitVec.eq_of_toNat_eq
  rw [hcounted, total, hempty, BitVec.toNat_zero]
  rfl

end World

/-- A lease that would overflow a byte keeps what it has. -/
example : ((World.run true World.new
    [.lease 0, .grow 0 200, .lease 1, .grow 1 100, .resize 0 150, .drop 1]).map fun s ↦
      (s.used, (s.leases.lookup 0).map (·.bytes))) = some ((150 : BitVec 8), some 150) := by
  decide

end Xxgate.Scheduling.MemoryBudget

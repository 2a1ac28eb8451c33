import Xxgate.Access.Calls

/-!
# What is known of an administrative task

The calls of a task and their replies tell which lock it has and what it still owes the
scheduler or the settings in force: a key that it blocked, a key that it wrote, a write it
does not know the end of. Every handler pays what it owes before it gives the lock back.
-/

namespace Xxgate.Access

open Xxgate.Base Xxgate.Core Xxgate.Store

/-- What a task owes. -/
inductive Duty where
  | clear
  /-- The key is blocked, and not written yet. -/
  | blocked (id : Uuid)
  /-- The key was written and has to be published. -/
  | written (key : GatewayKey)
  /-- The key was deleted and has to be removed. -/
  | deleted (id : Uuid)
  /-- Nobody knows whether the key was written. -/
  | doubtful (id : Uuid)
  /-- The keys were read back, and these have to be published. -/
  | reloaded (rest : List GatewayKey)
  /-- Nobody knows whether the settings were written. -/
  | unsettled
  /-- The settings were written, or read back, and have to be published. -/
  | settled (settings : Settings)

/-- Nothing is owed. -/
def Duty.Done : Duty → Prop
  | .clear | .reloaded [] => True
  | _ => False

/-- What is known of a task. -/
structure Standing where
  held : Finset Lock
  duty : Duty

namespace Standing

/-- A task begins without the lock. -/
def start (_ : Job) : Standing := ⟨∅, .clear⟩

/-- What a write of a key leaves to do. -/
def wrote (φ : Standing) (id : Uuid) : Result GatewayKey → Standing
  | .ok key => { φ with duty := .written key }
  | .error _ => { φ with duty := .doubtful id }

/-- What publishing a key leaves to do. -/
def published (φ : Standing) : Standing :=
  match φ.duty with
  | .reloaded (_ :: rest) => { φ with duty := .reloaded rest }
  | _ => { φ with duty := .clear }

/-- What is known after a call and its reply. -/
def next (φ : Standing) : (c : Call) → c.Reply → Standing
  | .lock l, _ => ⟨insert l φ.held, .clear⟩
  | .unlock l, _ => ⟨φ.held.erase l, .clear⟩
  | .releaseAll, _ => ⟨∅, .clear⟩
  | .blockKey id, _ => { φ with duty := .blocked id }
  | .updateKey _, _ => φ.published
  | .removeKey _, _ | .setPaused, _ | .publish _, _ => { φ with duty := .clear }
  | .keys, .ok keys => { φ with duty := .reloaded keys }
  | .keys, .error _ => φ
  | .putKey key _ _, .ok _ => { φ with duty := .written key }
  | .putKey .., .error _ => φ
  | .setKeyEnabled id _, r | .updateStoredKey id _ _, r => φ.wrote id r
  | .deleteKey id, .ok _ => { φ with duty := .deleted id }
  | .deleteKey id, .error _ => { φ with duty := .doubtful id }
  | .settings, .ok settings | .saveSettings .., .ok settings =>
    { φ with duty := .settled settings }
  | .settings, .error _ => φ
  | .saveSettings .., .error _ => { φ with duty := .unsettled }
  | .consult _, _ | .groups, _ | .createGroup .., _ | .renameGroup .., _ | .deleteGroup _, _
  | .putModel .., _ | .putSearchPrice _, _ => φ

/-- The calls in order. -/
def InOrder (φ : Standing) : Call → Prop
  | .consult _ | .groups | .putSearchPrice _ => True
  | .lock l => l ∉ φ.held
  | .unlock l => l ∈ φ.held ∧ φ.duty.Done
  | .releaseAll => False
  | .blockKey _ | .createGroup .. | .renameGroup .. | .deleteGroup _ | .putKey ..
  | .saveSettings .. | .putModel .. => .mutations ∈ φ.held ∧ φ.duty = .clear
  | .updateKey key => .mutations ∈ φ.held ∧
      (φ.duty = .written key ∨ ∃ rest, φ.duty = .reloaded (key :: rest))
  | .removeKey id => .mutations ∈ φ.held ∧ φ.duty = .deleted id
  | .setPaused => .mutations ∈ φ.held ∧ ((∃ id, φ.duty = .doubtful id) ∨ φ.duty = .unsettled)
  | .publish settings => .mutations ∈ φ.held ∧ φ.duty = .settled settings
  | .keys => .mutations ∈ φ.held ∧ ∃ id, φ.duty = .doubtful id
  | .setKeyEnabled id _ | .updateStoredKey id _ _ | .deleteKey id =>
    .mutations ∈ φ.held ∧ φ.duty = .blocked id
  | .settings => .mutations ∈ φ.held ∧ φ.duty = .unsettled

end Standing

/-- The monitor of a task. -/
def monitor : Monitor Unit Call Call.Reply Empty Standing where
  next := Standing.next
  allowed := fun φ _ c ↦ φ.InOrder c
  entry := fun _ _ l ↦ l.elim
  exit := fun φ ↦ φ.held = ∅
  closing := fun _ _ c ↦ c = .releaseAll

/-- A task that is through does not have the lock. -/
def Through (_ : Except Error Unit) (_ : Unit) (φ : Standing) : Prop := φ.held = ∅

/-- From anywhere a task that is over gives its lock back. -/
theorem closes (x : Except Error Unit) (s : Unit) (φ : Standing) :
    scheme.Closes monitor Through x s φ := by
  unfold Scheme.Closes scheme
  rw [Coroutine.meets_ask]
  exact ⟨rfl, fun _ ↦ rfl⟩

/-- The scheme keeps to the monitor. -/
theorem scheme_keeps : scheme.Keeps monitor Through where
  block := nofun
  abandon := fun φ s _ _ _ _ ↦ closes _ s φ
  abandonAnswered := fun _ s _ _ _ _ _ ↦ closes _ s _

/-! ### The handlers keep to the monitor -/

open Coroutine

/-- In the critical section with nothing owed. -/
def Inside (φ : Standing) : Prop := φ = ⟨{.mutations}, .clear⟩

/-- In the critical section with everything paid. -/
def Paid (φ : Standing) : Prop := φ.held = {.mutations} ∧ φ.duty.Done

variable {φ : Standing}

/-- A handler that does nothing before it takes the lock and nothing after it gave it back. -/
theorem locked_meets {α : Type} {m : Run α} {Q : Except Error α → Unit → Standing → Prop}
    (h : ∀ ψ, Inside ψ → m.Meets monitor () ψ fun _ _ χ ↦ Paid χ)
    (hq : ∀ x, Q x () ⟨∅, .clear⟩) : (locked m).Meets monitor () ⟨∅, .clear⟩ Q := by
  unfold locked
  simp only [meets_bind, meets_ask, meets_outcome, meets_ok]
  refine ⟨Finset.notMem_empty _, fun _ ↦ (h _ ?_).mono fun x _ χ hp ↦ ?_⟩
  · rfl
  · obtain ⟨hheld, hdone⟩ := hp
    refine ⟨⟨by rw [hheld]; exact Finset.mem_singleton_self _, hdone⟩, fun _ ↦ ?_⟩
    have hnext : monitor.next χ (.unlock .mutations) () = ⟨∅, .clear⟩ := by
      show (⟨χ.held.erase .mutations, .clear⟩ : Standing) = ⟨∅, .clear⟩
      rw [hheld]
      rfl
    rw [hnext]
    exact hq x

/-- Checking a selection of groups only reads. -/
theorem validateSelection_meets {ids : List Uuid}
    {Q : Except Error Unit → Unit → Standing → Prop} (hq : ∀ x, Q x () φ) :
    (validateSelection ids).Meets monitor () φ Q := by
  unfold validateSelection
  simp only [meets_bind, meets_ask, meets_ok]
  refine ⟨trivial, ?_⟩
  rintro (x | groups)
  · exact hq _
  · dsimp only
    split
    · exact hq _
    · split
      · exact hq _
      · exact hq _

/-- Publishing the keys that were read back pays the duty. -/
theorem updateKeys_meets (keys : List GatewayKey) :
    (updateKeys keys).Meets monitor () ⟨{.mutations}, .reloaded keys⟩ fun _ _ χ ↦ Paid χ := by
  induction keys with
  | nil => exact ⟨rfl, trivial⟩
  | cons key rest ih =>
    unfold updateKeys
    simp only [meets_bind, meets_ask]
    exact ⟨⟨Finset.mem_singleton_self _, .inr ⟨rest, rfl⟩⟩, fun _ ↦ ih⟩

/-- Reading the keys back and publishing them, or pausing, pays the duty. -/
theorem reconcileKeys_meets (id : Uuid) :
    reconcileKeys.Meets monitor () ⟨{.mutations}, .doubtful id⟩ fun _ _ χ ↦ Paid χ := by
  unfold reconcileKeys
  simp only [meets_bind, meets_ask]
  refine ⟨⟨Finset.mem_singleton_self _, id, rfl⟩, ?_⟩
  rintro (x | keys)
  · exact ⟨⟨Finset.mem_singleton_self _, .inl ⟨id, rfl⟩⟩, fun _ ↦ ⟨rfl, trivial⟩⟩
  · exact updateKeys_meets keys

/-- Publishing what a write answered, or reading the keys back, pays the duty of the write. -/
theorem publishOrReconcile_meets (id : Uuid) (r : Result GatewayKey) :
    (publishOrReconcile r).Meets monitor () ((⟨{.mutations}, .blocked id⟩ : Standing).wrote id r)
      fun _ _ χ ↦ Paid χ := by
  rcases r with x | key
  · unfold publishOrReconcile
    simp only [meets_bind]
    refine (reconcileKeys_meets id).mono ?_
    rintro (y | u) s χ h
    · exact h
    · exact h
  · exact ⟨⟨Finset.mem_singleton_self _, .inl rfl⟩, fun _ ↦ ⟨rfl, trivial⟩⟩

/-- A task that only makes one call in the critical section, with nothing owed before or after. -/
theorem plain_meets {α : Type} {c : Call} {f : c.Reply → Result α} {φ : Standing}
    (hi : Inside φ) (hc : φ.InOrder c) (hn : ∀ r, φ.next c r = φ) :
    (call c >>= fun r ↦ ok (f r) : Run α).Meets monitor () φ fun _ _ χ ↦ Paid χ := by
  simp only [meets_bind, meets_ask, meets_ok]
  refine ⟨hc, fun r ↦ ?_⟩
  show Paid (φ.next c r)
  rw [hn, hi]
  exact ⟨rfl, trivial⟩

/-- A task that begins as it should ends without the lock. -/
def Ends (m : Run Unit) : Prop := m.Meets monitor () ⟨∅, .clear⟩ fun _ _ χ ↦ χ.held = ∅

/-- A handler is a check and a critical section. -/
theorem checked_ends {check : Result Unit} {m : Run Unit} (h : Ends m) :
    Ends (ok check >>= fun _ ↦ m) := by
  unfold Ends
  simp only [meets_bind, meets_ok]
  split
  · exact h
  · rfl

private theorem locked_ends {m : Run Unit}
    (h : ∀ ψ, Inside ψ → m.Meets monitor () ψ fun _ _ χ ↦ Paid χ) : Ends (locked m) :=
  locked_meets h fun _ ↦ rfl

private theorem createKey_ends (name : String) (groupId : Uuid) :
    Ends (createKey name groupId) := by
  refine checked_ends ?_
  unfold Ends
  simp only [meets_bind, meets_ask]
  refine ⟨trivial, fun hash ↦ ⟨trivial, fun id ↦ locked_meets (fun ψ hi ↦ ?_) fun _ ↦ rfl⟩⟩
  have hpaid : Paid ψ := by
    rw [hi]
    exact ⟨rfl, trivial⟩
  simp only [meets_bind]
  refine validateSelection_meets ?_
  rintro (x | u)
  · exact hpaid
  · simp only [meets_ask, meets_ok]
    rw [hi]
    refine ⟨⟨Finset.mem_singleton_self _, rfl⟩, ?_⟩
    rintro (x | u)
    · exact ⟨rfl, trivial⟩
    · exact ⟨⟨Finset.mem_singleton_self _, .inl rfl⟩, fun _ ↦ ⟨rfl, trivial⟩⟩

private theorem enableKey_ends (id : Uuid) (enabled : Bool) : Ends (enableKey id enabled) := by
  refine locked_ends fun ψ hi ↦ ?_
  rw [hi]
  simp only [meets_bind, meets_ask]
  refine ⟨⟨Finset.mem_singleton_self _, rfl⟩, fun _ ↦ ⟨⟨Finset.mem_singleton_self _, rfl⟩, ?_⟩⟩
  exact publishOrReconcile_meets id

private theorem updateKey_ends (id : Uuid) (name : String) (groupId : Uuid) :
    Ends (updateKey id name groupId) := by
  refine checked_ends (locked_ends fun ψ hi ↦ ?_)
  have hpaid : Paid ψ := by
    rw [hi]
    exact ⟨rfl, trivial⟩
  simp only [meets_bind]
  refine validateSelection_meets ?_
  rintro (x | u)
  · exact hpaid
  · rw [hi]
    simp only [meets_ask]
    refine ⟨⟨Finset.mem_singleton_self _, rfl⟩, fun _ ↦ ⟨⟨Finset.mem_singleton_self _, rfl⟩, ?_⟩⟩
    exact publishOrReconcile_meets id

private theorem deleteKey_ends (id : Uuid) : Ends (deleteKey id) := by
  refine locked_ends fun ψ hi ↦ ?_
  rw [hi]
  simp only [meets_bind, meets_ask]
  refine ⟨⟨Finset.mem_singleton_self _, rfl⟩, fun _ ↦ ⟨⟨Finset.mem_singleton_self _, rfl⟩, ?_⟩⟩
  rintro (x | u)
  · simp only [meets_bind]
    refine (reconcileKeys_meets id).mono ?_
    rintro (y | u) s χ h
    · exact h
    · exact h
  · exact ⟨⟨Finset.mem_singleton_self _, rfl⟩, fun _ ↦ ⟨rfl, trivial⟩⟩

private theorem saveSettings_ends (input : Settings) : Ends (saveSettings input) := by
  refine checked_ends (locked_ends fun ψ hi ↦ ?_)
  rw [hi]
  simp only [meets_bind, meets_ask]
  refine ⟨⟨Finset.mem_singleton_self _, rfl⟩, ?_⟩
  rintro (x | next)
  · simp only [meets_bind, meets_ask]
    refine ⟨⟨Finset.mem_singleton_self _, rfl⟩, ?_⟩
    rintro (y | persisted)
    · exact ⟨⟨Finset.mem_singleton_self _, .inr rfl⟩, fun _ ↦ ⟨rfl, trivial⟩⟩
    · exact ⟨⟨Finset.mem_singleton_self _, rfl⟩, fun _ ↦ ⟨rfl, trivial⟩⟩
  · exact ⟨⟨Finset.mem_singleton_self _, rfl⟩, fun _ ↦ ⟨rfl, trivial⟩⟩

private theorem createGroup_ends (name : String) : Ends (createGroup name) := by
  refine locked_ends fun ψ hi ↦ ?_
  simp only [meets_bind, meets_ask]
  refine ⟨trivial, fun id ↦ ?_⟩
  rw [hi]
  exact ⟨⟨Finset.mem_singleton_self _, rfl⟩, fun _ ↦ ⟨rfl, trivial⟩⟩

/-- Every task keeps to the monitor. -/
theorem body_ends (job : Job) : Ends (body job) := by
  have hinside : ∀ ψ, Inside ψ → .mutations ∈ ψ.held ∧ ψ.duty = .clear := by
    rintro ψ rfl
    exact ⟨Finset.mem_singleton_self _, rfl⟩
  cases job with
  | createKey name groupId => exact createKey_ends name groupId
  | enableKey id enabled => exact enableKey_ends id enabled
  | updateKey id name groupId => exact updateKey_ends id name groupId
  | deleteKey id => exact deleteKey_ends id
  | saveSettings input => exact saveSettings_ends input
  | saveModel model version =>
    refine locked_ends fun ψ hi ↦ ?_
    simp only [meets_bind, meets_ask, meets_ok]
    refine ⟨hinside ψ hi, ?_⟩
    rw [hi]
    rintro (x | row)
    · exact ⟨rfl, trivial⟩
    · exact ⟨rfl, trivial⟩
  | saveSearchPrice price =>
    refine ⟨trivial, ?_⟩
    rintro (x | p)
    · rfl
    · rfl
  | createGroup name => exact createGroup_ends name
  | renameGroup id name =>
    exact locked_ends fun ψ hi ↦ plain_meets hi (hinside ψ hi) fun _ ↦ rfl
  | deleteGroup id =>
    exact locked_ends fun ψ hi ↦ plain_meets hi (hinside ψ hi) fun _ ↦ rfl

end Xxgate.Access

import Xxgate.Base.Knowing
import Xxgate.Base.Run
import Xxgate.Resets.Monitor

/-!
# Redemptions over the life of an installation

The journal, the locks and what was sent upstream, shared by the tasks that collect and redeem
reset credits. A task may be dropped at an await, a store call may fail, take effect, or take
effect and fail to answer, an upstream answer may be lost, and the process may restart at any
moment, which ends every task and frees the locks.
-/

namespace Xxgate.Resets

open Xxgate.Base Xxgate.Base.FiniteMap Xxgate.Core Xxgate.Store

/-- A consume request, with the account it is sent for. -/
structure Sent where
  accountId : Uuid
  redemption : Redemption
  deriving DecidableEq

/-- What the tasks share. -/
structure Installation where
  store : ResetTables
  locks : FiniteMap Uuid Nat
  /-- The consume requests that were sent upstream, newest first. -/
  sent : List Sent

/-- Everything a reply can depend on beside the installation. -/
structure Env where
  outcome : Outcome
  /-- The status of a response, or none when the deadline passed first. -/
  response : Option (Result Nat)
  reply : (q : Consult) → q.Reply

/-- Changes from outside. -/
inductive Change where
  | restart
  | createAccount (id : Uuid)

namespace Installation

/-- What locking calls do. -/
def lockOp : Call → Option (LockOp Uuid)
  | .lock id => some (.acquire id)
  | .unlock id => some (.release id)
  | .releaseAll => some .releaseAll
  | _ => none

/-- A call on the locks. -/
def locking (s : Installation) (task : Nat) (op : LockOp Uuid) : Option (Installation × Unit) :=
  (op.apply s.locks task).map fun locks ↦ ({ s with locks := locks }, ())

/-- A transaction on the store. -/
def wrote (s : Installation) (outcome : Outcome) (transaction : Result (ResetTables × Unit)) :
    Option (Installation × Result Unit) :=
  let result := conclude outcome s.store transaction
  some ({ s with store := result.1 }, result.2)

/-- A consume request that is sent is sent, whatever comes back. -/
def send (s : Installation) (id : Uuid) (request : ControlRequest) : Installation :=
  { s with sent := (request.body.map (⟨id, ·⟩)).toList ++ s.sent }

/-- The installation and the reply after a call, or none while there is no reply. -/
def exec (s : Installation) (task : Nat) (env : Env) :
    (c : Call) → Option (Installation × c.Reply)
  | .consult q => some (s, env.reply q)
  | .lock id => s.locking task (.acquire id)
  | .unlock id => s.locking task (.release id)
  | .releaseAll => s.locking task .releaseAll
  | .saveResetCredits id credits => s.wrote env.outcome (s.store.saveResetCredits id credits)
  | .resetOperation id operation =>
    some (s, match env.outcome with
      | .answered => .ok (s.store.resetOperation id operation)
      | _ => .error .storage)
  | .beginReset operation => s.wrote env.outcome (s.store.beginReset operation)
  | .finishReset operation => s.wrote env.outcome (s.store.finishReset operation)
  | .sendOnce id request => some (s.send id request, env.response)
  | .returned _ => some (s, ())

/-- A change from outside. -/
def change (s : Installation) : Change → Installation
  | .restart => { s with locks := ∅ }
  | .createAccount id => { s with store := { s.store with accounts := id :: s.store.accounts } }

/-- A lock operation changes the locks only. -/
theorem locking_eq {s s' : Installation} {task : Nat} {op : LockOp Uuid} {u : Unit}
    (h : s.locking task op = some (s', u)) : ∃ locks, op.apply s.locks task = some locks ∧
      s' = { s with locks := locks } := by
  obtain ⟨locks, hl, he⟩ := Option.map_eq_some_iff.mp h
  cases he
  exact ⟨locks, hl, rfl⟩

/-- Either nothing happened and the answer is an error, or the transaction took effect. -/
theorem wrote_cases {s s' : Installation} {outcome : Outcome}
    {transaction : Result (ResetTables × Unit)} {r : Result Unit}
    (h : s.wrote outcome transaction = some (s', r)) :
    (s' = s ∧ r.isOk = false) ∨
      ∃ t, transaction = .ok (t, ()) ∧ s' = { s with store := t } := by
  simp only [wrote, Option.some.injEq, Prod.mk.injEq] at h
  obtain ⟨rfl, rfl⟩ := h
  rcases conclude_cases outcome s.store transaction with ⟨x, hx⟩ | ⟨t, a, ht, hx | hx⟩
  · rw [hx]
    exact .inl ⟨rfl, rfl⟩
  · rw [hx.1]
    exact .inr ⟨t, ht, rfl⟩
  · rw [hx.1]
    exact .inr ⟨t, ht, rfl⟩

end Installation

/-- The tasks of an installation. -/
def kit : Kit Installation Env Job Change Unit Call Call.Reply Empty Error Unit where
  scheme := scheme
  body := fun job ↦ body job ()
  exec := Installation.exec
  change := Installation.change
  ends := fun
    | .restart => true
    | _ => false

/-- An installation and its tasks. -/
abbrev World : Type := Pool Installation Job Unit Call Call.Reply Empty Error Unit

/-- One move. -/
abbrev Move : Type := Pool.Move Env Job Change Error

/-- Every task keeps to the monitor. -/
theorem disciplined : kit.Disciplined monitor (fun _ _ _ ↦ True) Standing.start :=
  ⟨scheme_keeps, body_follows⟩

private theorem Standing.next_held (φ : Standing) (c : Call) (r : c.Reply) : (φ.next c r).held =
    (Installation.lockOp c).elim φ.held fun op ↦ op.hold φ.held := by
  cases c with
  | resetOperation id operation =>
    cases operation with
    | none => rfl
    | some operation => cases r <;> rfl
  | _ => rfl

/-- The calls that act on locks, and the table. -/
def locking : Locking kit monitor Standing.start Uuid where
  op := Installation.lockOp
  table := Installation.locks
  held := Standing.held
  exec := by
    intro s s' id env c r h
    have hlocks : ∀ (op : LockOp Uuid) {u : Unit}, s.locking id op = some (s', u) →
        op.apply s.locks id = some s'.locks := by
      intro op u h
      obtain ⟨locks, hl, rfl⟩ := Installation.locking_eq h
      exact hl
    cases c with
    | lock l => exact hlocks (.acquire l) h
    | unlock l => exact hlocks (.release l) h
    | releaseAll => exact hlocks .releaseAll h
    | saveResetCredits | beginReset | finishReset =>
      rcases Installation.wrote_cases h with ⟨rfl, -⟩ | ⟨t, -, rfl⟩
      · rfl
      · rfl
    | _ =>
      cases h
      rfl
  next := Standing.next_held
  starts := fun _ ↦ rfl
  change := by
    intro s a
    cases a <;> rfl

end Xxgate.Resets

import Mathlib.Data.Rat.Defs
import Xxgate.Core.Types

/-!
# Quota windows and extra credits

`crates/xxgate-core/src/quota.rs`: what the upstream reported about an account's limits, and
when that blocks the account. Instants are milliseconds. A finite `f64` is the rational it
denotes; one that is not finite blocks nothing and is none here.
-/

namespace Xxgate.Core

/-- `quota.rs:6`. -/
structure QuotaWindow where
  pool : String
  windowMinutes : Option Int
  usedPercent : Option Rat
  resetsAt : Option Int
  observedAt : Int
  deriving DecidableEq

/-- `quota.rs:40`: a separate credit balance. The text of the balance is kept as the finite
number it parses to, if it does. -/
structure ExtraCredits where
  hasCredits : Option Bool
  unlimited : Option Bool
  balance : Option (Option Rat)
  observedAt : Int
  blocked : Bool
  deriving DecidableEq

namespace QuotaWindow

/-- `quota.rs:16`. -/
def disableReason (w : QuotaWindow) : Option DisableReason :=
  if w.usedPercent.all (· < 100) then none
  else some (match w.windowMinutes with
    | some 300 => .quota5hExhausted
    | some 10080 => .quota7dExhausted
    | _ => .quotaExhausted)

/-- `quota.rs:28`: the exhausted window is still inside its cooldown period. -/
def cooldownActive (w : QuotaWindow) (now : Int) : Bool :=
  w.disableReason.isSome && w.resetsAt.all (now < ·)

end QuotaWindow

/-- `(now - at).num_seconds()`. -/
def secondsBetween (at_ now : Int) : Int := (now - at_).tdiv 1000

/-- `quota.rs:51`. -/
def ExtraCredits.available (c : ExtraCredits) (now : Int) (staleAfterSecs : Nat) : Bool :=
  let age := secondsBetween c.observedAt now
  if c.blocked || age < 0 || staleAfterSecs < age.toNat then false
  else c.unlimited == some true ||
    (c.hasCredits == some true && c.balance.all fun n ↦ n.any (0 < ·))

/-- `quota.rs:69`: extra credits only cover the ordinary subscription windows. -/
def quotaBlocked (window : QuotaWindow) (extraAvailable : Bool) (now : Int) : Bool :=
  window.cooldownActive now &&
    !(extraAvailable && window.pool == "codex" &&
      (window.windowMinutes == some 300 || window.windowMinutes == some 10080))

/-- A window that blocks gives a reason. -/
theorem disableReason_of_quotaBlocked {w : QuotaWindow} {extra : Bool} {now : Int}
    (h : quotaBlocked w extra now = true) : w.disableReason.isSome = true := by
  unfold quotaBlocked QuotaWindow.cooldownActive at h
  simp only [Bool.and_eq_true] at h
  exact h.1.1

end Xxgate.Core

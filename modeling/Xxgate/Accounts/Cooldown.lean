import Xxgate.Accounts.Policy

/-!
# Quota rejections and stored windows

An account that was disabled for a quota error of the upstream is judged by the stored windows
from then on. While one of them blocks it, or none is stored, the reconciliations leave it
disabled; when windows are stored and none blocks, they enable it without any new evidence.
-/

namespace Xxgate.Accounts

open Xxgate.Base Xxgate.Base.FiniteMap Xxgate.Core Xxgate.Scheduling Xxgate.Store

/-- No window is stored, or one of them blocks the account at the instant. -/
def Blocking (windows : List QuotaWindow) (credits : Option ExtraCredits)
    (useExtraCredits : Bool) (now : Int) (stale : Nat) : Prop :=
  windows = [] ∨ ∃ w ∈ windows,
    quotaBlocked w (useExtraCredits && credits.any (·.available now stale)) now = true

/-- What the clock and the settings say tells the stored windows and credits from the instant in
nothing. -/
structure Steady (windows : List QuotaWindow) (credits : Option ExtraCredits) (now : Int)
    (stale : Nat) (t : Int) : Prop where
  windows : ∀ w ∈ windows, w.cooldownActive t = w.cooldownActive now
  credits : ∀ c, credits = some c → c.available t stale = c.available now stale

instance (windows : List QuotaWindow) (credits : Option ExtraCredits) (now : Int) (stale : Nat)
    (t : Int) : Decidable (Steady windows credits now stale t) :=
  decidable_of_iff ((∀ w ∈ windows, w.cooldownActive t = w.cooldownActive now) ∧
      ∀ c ∈ credits, c.available t stale = c.available now stale)
    ⟨fun h ↦ ⟨h.1, h.2⟩, fun h ↦ ⟨h.windows, h.credits⟩⟩

/-- Usable credits can only open a window. -/
theorem quotaBlocked_of_le {w : QuotaWindow} {extra extra' : Bool} {now t : Int}
    (h : quotaBlocked w extra now = true) (hc : w.cooldownActive t = w.cooldownActive now)
    (hle : extra' = true → extra = true) : quotaBlocked w extra' t = true := by
  unfold quotaBlocked at h ⊢
  rw [hc]
  simp only [Bool.and_eq_true, Bool.not_eq_true'] at h ⊢
  refine ⟨h.1, ?_⟩
  cases extra' with
  | false => rfl
  | true =>
    have hx := h.2
    rw [hle rfl] at hx
    exact hx

/-- An administrator's change of an account's state or policy. -/
def Job.administers (id : Uuid) : Job → Bool
  | .setEnabled i _ _ | .updateAccount i _ => i == id
  | _ => false

/-- What is known of the clock and the settings agrees with what they are known to say. -/
structure Clocked (P : Int → Prop) (stale : Nat) (φ : Standing) : Prop where
  now : ∀ t, φ.now = some t → P t
  staleAfter : ∀ n, φ.staleAfter = some n → n = stale

/-- Clock and settings are known from their replies. -/
theorem Clocked.next {P : Int → Prop} {stale : Nat} {φ : Standing} (h : Clocked P stale φ)
    {s s' : Installation} {task : Nat} {env : Env} {c : Call} {r : c.Reply}
    (he : s.exec task env c = some (s', r)) (hnow : P (env.reply .now))
    (hstale : env.reply .staleAfter = stale) : Clocked P stale (φ.next c r) := by
  cases c with
  | consult q =>
    cases he
    cases q with
    | now =>
      show Clocked P stale (if _ then _ else _)
      split
      · refine ⟨fun t ht ↦ ?_, h.staleAfter⟩
        cases ht
        exact hnow
      · exact h
    | staleAfter =>
      show Clocked P stale (if _ then _ else _)
      split
      · refine ⟨h.now, fun n hn ↦ ?_⟩
        cases hn
        exact hstale
      · exact h
    | _ => exact h
  | unlock l =>
    cases l with
    | mutations => exact ⟨(fun _ h ↦ nomatch h), (fun _ h ↦ nomatch h)⟩
    | _ => exact ⟨h.now, h.staleAfter⟩
  | releaseAll => exact ⟨(fun _ h ↦ nomatch h), (fun _ h ↦ nomatch h)⟩
  | account id =>
    show Clocked P stale (φ.lookedUp id r)
    unfold Standing.lookedUp
    split
    · exact ⟨h.now, h.staleAfter⟩
    · split
      · exact ⟨h.now, h.staleAfter⟩
      · exact h
  | storedAccounts =>
    rcases r with x | accounts
    · exact h
    · simp only [Standing.next]
      split
      · exact ⟨h.now, h.staleAfter⟩
      · exact h
  | quotas id | extraCredits id =>
    rcases r with x | a
    · exact ⟨h.now, h.staleAfter⟩
    · show Clocked P stale (if _ then _ else _)
      split
      · exact ⟨h.now, h.staleAfter⟩
      · exact h
  | deleteAccount id =>
    show Clocked P stale (if _ then _ else _)
    split
    · exact ⟨h.now, h.staleAfter⟩
    · exact h
  | post | refresh | validateCredentials =>
    obtain ⟨renewal, refused, hr⟩ := φ.next_renewal rfl r
    rw [hr]
    exact ⟨h.now, h.staleAfter⟩
  | putAccount | updateCredentials | setEnabled | saveModelCatalog =>
    rcases r with x | a
    · exact ⟨h.now, h.staleAfter⟩
    · exact ⟨h.now, h.staleAfter⟩
  | _ => exact ⟨h.now, h.staleAfter⟩

/-- The account is disabled as it was, with the same stored evidence. -/
structure Cooling (id : Uuid) (useExtraCredits : Bool) (windows : List QuotaWindow)
    (credits : Option ExtraCredits) (now : Int) (stale : Nat) (w : World) : Prop where
  rests : Rests (fun a ↦ a.enabled = false ∧ a.useExtraCredits = useExtraCredits) id w.shared
  quotas : w.shared.store.quotasOf id = windows
  extraCredits : w.shared.store.extraCredits.lookup id = credits
  clocked : ∀ task φ, w.standing task = some φ →
    Clocked (Steady windows credits now stale) stale φ

/-- The move brings nothing new for an account: no administrator's change, no window or credits
stored, and no instant at which a window or the credits are judged otherwise. -/
structure Quiet (id : Uuid) (now : Int) (stale : Nat) (w : World) (m : Move) : Prop where
  automatic : ∀ task d job t, m = .drive task d → w.tasks.lookup task = some (job, t) →
    job.administers id = false
  windows : (w.step m).shared.store.quotasOf id = w.shared.store.quotasOf id
  credits : (w.step m).shared.store.extraCredits.lookup id =
    w.shared.store.extraCredits.lookup id
  clock : ∀ task env, m = .drive task (.perform env) → env.reply .staleAfter = stale ∧
    Steady (w.shared.store.quotasOf id) (w.shared.store.extraCredits.lookup id) now stale
      (env.reply .now)

/-- Quiet, as it is checked. -/
theorem quiet_iff {id : Uuid} {now : Int} {stale : Nat} {w : World} {m : Move} :
    Quiet id now stale w m ↔
      (∀ task ∈ m.driven, ∀ e ∈ w.tasks.lookup task, e.1.administers id = false) ∧
      (w.step m).shared.store.quotasOf id = w.shared.store.quotasOf id ∧
      (w.step m).shared.store.extraCredits.lookup id = w.shared.store.extraCredits.lookup id ∧
      ∀ e ∈ m.surroundings, e.2.reply .staleAfter = stale ∧
        Steady (w.shared.store.quotasOf id) (w.shared.store.extraCredits.lookup id) now stale
          (e.2.reply .now) := by
  constructor
  · intro h
    refine ⟨fun task ht e he ↦ ?_, h.windows, h.credits,
      fun e he ↦ h.clock e.1 e.2 (Move.surroundings_eq_some.mp he)⟩
    cases m with
    | drive i d =>
      cases ht
      exact h.automatic task d e.1 e.2 rfl he
    | spawn | change => cases ht
  · rintro ⟨ha, hw, hc, hs⟩
    refine ⟨?_, hw, hc, ?_⟩
    · rintro task d job t rfl hl
      exact ha task rfl (job, t) hl
    · rintro task env rfl
      exact hs (task, env) rfl

instance (id : Uuid) (now : Int) (stale : Nat) (w : World) (m : Move) :
    Decidable (Quiet id now stale w m) :=
  decidable_of_iff _ quiet_iff.symm

section

open World

variable {w : World} {id : Uuid} {useExtraCredits : Bool} {windows : List QuotaWindow}
  {credits : Option ExtraCredits} {now : Int} {stale : Nat}

/-- Automation that finds no window blocking found what does not block. -/
theorem Cooling.not_unblocked (hc : Cooling id useExtraCredits windows credits now stale w)
    (h : w.Consistent) (hblock : Blocking windows credits useExtraCredits now stale) {task : Nat}
    {φ : Standing} (hφ : w.standing task = some φ) {account : Account} (hid : account.id = id)
    (huse : account.useExtraCredits = useExtraCredits) : ¬ φ.Unblocked account := by
  rintro ⟨read, t, hread, ht, hne, hall⟩
  have hf := h.facts task φ hφ
  have hclock := hc.clocked task φ hφ
  have hwin : read = windows := by
    rw [← hf.windows _ _ hread, hid, hc.quotas]
  subst hwin
  rcases hblock with he | ⟨win, hm, hb⟩
  · exact hne he
  have hsteady := hclock.now t ht
  -- extra credits the task could use are usable at the instant too
  have hle : φ.extra account = true →
      (useExtraCredits && credits.any (·.available now stale)) = true := by
    intro hx
    simp only [Standing.extra, ht, Bool.and_eq_true, Option.any_some] at hx
    obtain ⟨hu, hx⟩ := hx
    cases hcr : φ.credits with
    | none =>
      rw [hcr] at hx
      cases hx
    | some p =>
      obtain ⟨i, stored⟩ := p
      rw [hcr] at hx
      simp only [Option.any_some, Bool.and_eq_true, decide_eq_true_eq] at hx
      obtain ⟨rfl, hx⟩ := hx
      have hstored : credits = stored := by
        rw [← hf.credits _ _ hcr, hid, hc.extraCredits]
      subst hstored
      cases hs : φ.staleAfter with
      | none =>
        rw [hs] at hx
        cases credits <;> cases hx
      | some n =>
        rw [hs, hclock.staleAfter n hs] at hx
        cases hcred : credits with
        | none =>
          rw [hcred] at hx
          cases hx
        | some c =>
          rw [hcred] at hx
          rw [← huse, hu, Option.any_some, ← hsteady.credits c hcred]
          exact hx
  have hblocked := quotaBlocked_of_le hb (hsteady.windows win hm) hle
  rw [hall win hm] at hblocked
  cases hblocked

/-- Over a quiet move an account that is blocked by what is stored stays disabled. -/
theorem Cooling.step (hc : Cooling id useExtraCredits windows credits now stale w)
    (h : w.Consistent) (hblock : Blocking windows credits useExtraCredits now stale) {m : Move}
    (hm : Quiet id now stale w m) :
    Cooling id useExtraCredits windows credits now stale (w.step m) := by
  have ht := (h.step m).1
  refine ⟨h.rests ht (fun a ha ↦ ha.1) ?_ hc.rests, hm.windows.trans hc.quotas,
    hm.credits.trans hc.extraCredits, ?_⟩
  · rintro task env φ old new rfl hφ ⟨hoff, huse⟩ hw
    obtain ⟨t, hl⟩ := job_of_standing hφ
    have hjob := hm.automatic task _ _ t rfl hl
    cases hw with
    | kept same =>
      simp only [policy, Prod.mk.injEq] at same
      exact ⟨same.1.trans hoff, same.2.2.trans huse⟩
    | edited input job enabled reason =>
      rw [job] at hjob
      simp [Job.administers] at hjob
    | deleted job => exact ⟨rfl, huse⟩
    | @set account enabled reason actor looked current may =>
      simp only [policy, Prod.mk.injEq] at current
      cases enabled with
      | false => exact ⟨rfl, huse⟩
      | true =>
        rcases may.enable rfl with ⟨reason, job, -⟩ | ⟨-, -, hun, -⟩
        · rw [job] at hjob
          simp [Job.administers] at hjob
        · exact absurd hun (hc.not_unblocked h hblock hφ looked (current.2.2.trans huse))
  · intro task φ hφ
    revert hφ
    have hclock := hm.clock
    generalize w.step m = w' at ht
    cases ht with
    | idle => exact hc.clocked task φ
    | @spawned i job new =>
      intro hφ
      rw [standing_insert] at hφ
      split at hφ
      · cases hφ
        exact ⟨(fun _ h ↦ by cases h), (fun _ h ↦ by cases h)⟩
      · exact hc.clocked task φ hφ
    | @called i env job t t' c r shared here inOrder performed trace result =>
      intro hφ
      rw [standing_insert, phase_cons trace] at hφ
      split at hφ
      · cases hφ
        obtain ⟨hstale, hsteady⟩ := hclock i env rfl
        rw [hc.quotas, hc.extraCredits] at hsteady
        exact (hc.clocked i _ (standing_of_lookup here)).next performed hsteady hstale
      · exact hc.clocked task φ hφ
    | @moved i d job t t' here trace stays leaves =>
      intro hφ
      rw [standing_insert, trace] at hφ
      split at hφ
      · next hi =>
        cases hφ
        exact hc.clocked i _ (standing_of_lookup here)
      · exact hc.clocked task φ hφ
    | changed x =>
      intro hφ
      cases x with
      | restart => cases hφ
      | pause | groups | takeUp => exact hc.clocked task φ hφ

end

namespace World

/-- A quota rejection stands while the stored windows bear it out. In any reachable state with
the `mutations` lock free, an account that is disabled, and has no stored window or one that
blocks it, stays disabled in the store and in the scheduler over all moves that bring nothing
new for it. -/
theorem quota_rejection_stands {w : World} (hw : w.Reachable) {id : Uuid} {row : AccountRow}
    (hfree : w.shared.locks.lookup .mutations = none)
    (hrow : w.shared.store.live id = some row) (hoff : row.data.enabled = false)
    (hidle : ∀ a, w.shared.sched.accounts.lookup id = some a → a.enabled = false) {now : Int}
    {stale : Nat}
    (hblock : Blocking (w.shared.store.quotasOf id) (w.shared.store.extraCredits.lookup id)
      row.data.useExtraCredits now stale)
    {moves : List Move} (ha : Along World.step (Quiet id now stale) w moves) :
    (∀ row', (run World.step w moves).shared.store.live id = some row' →
      row'.data.enabled = false) ∧
    ∀ a, (run World.step w moves).shared.sched.accounts.lookup id = some a →
      a.enabled = false := by
  have h := hw.consistent
  have hstart : Cooling id row.data.useExtraCredits (w.shared.store.quotasOf id)
      (w.shared.store.extraCredits.lookup id) now stale w := by
    refine ⟨⟨⟨row, (AccountTables.live_eq_some.mp hrow).1, hoff, rfl⟩, hidle⟩, rfl, rfl, ?_⟩
    intro task φ hφ
    have hb := h.blank_of_free hfree hφ
    exact ⟨(fun t ht ↦ nomatch hb.now.symm.trans ht),
      (fun n hn ↦ nomatch hb.staleAfter.symm.trans hn)⟩
  obtain ⟨-, hend⟩ := run_invariant_along
    (P := fun v ↦ v.Consistent ∧ Cooling id row.data.useExtraCredits (w.shared.store.quotasOf id)
      (w.shared.store.extraCredits.lookup id) now stale v)
    (fun _ m hv hm ↦ ⟨(hv.1.step m).2, hv.2.step hv.1 hblock hm⟩) ⟨h, hstart⟩ ha
  obtain ⟨⟨row₁, hl₁, hoff₁⟩, hidle₁⟩ := hend.rests
  refine ⟨fun row' hl' ↦ ?_, hidle₁⟩
  cases hl₁.symm.trans (AccountTables.live_eq_some.mp hl').1
  exact hoff₁.1

/-- Account 7 has used up half of its five hours when a request is rejected for the quota. The
rejection disables it, and a look at the quotas at the same instant enables it. -/
theorem quota_rejection_undone :
    ((Sample.after (Sample.store (Sample.account true none) [Sample.window 50 5000])
      (.spawn 1 (.disableObserved 7 1 .quotaExhausted) ::
        Sample.turns 1 (Sample.env .answered 0) 10)).shared.store.live 7).map
      (fun row ↦ (row.data.enabled, row.data.disableReason)) =
      some (false, some .quotaExhausted) ∧
    Along World.step (Quiet 7 0 600)
      (Sample.after (Sample.store (Sample.account true none) [Sample.window 50 5000])
        (.spawn 1 (.disableObserved 7 1 .quotaExhausted) ::
          Sample.turns 1 (Sample.env .answered 0) 10))
      (.spawn 2 .reenableExpiredQuotas :: Sample.turns 2 (Sample.env .answered 0) 11) ∧
    ((run World.step
      (Sample.after (Sample.store (Sample.account true none) [Sample.window 50 5000])
        (.spawn 1 (.disableObserved 7 1 .quotaExhausted) ::
          Sample.turns 1 (Sample.env .answered 0) 10))
      (.spawn 2 .reenableExpiredQuotas ::
        Sample.turns 2 (Sample.env .answered 0) 11)).shared.store.live 7).map
      (·.data.enabled) = some true := by decide +kernel

/-- With all of the five hours used up the rejection stands. -/
theorem quota_rejection_stands_used_up :
    ((run World.step
      (Sample.after (Sample.store (Sample.account true none) [Sample.window 100 5000])
        (.spawn 1 (.disableObserved 7 1 .quotaExhausted) ::
          Sample.turns 1 (Sample.env .answered 0) 10))
      (.spawn 2 .reenableExpiredQuotas ::
        Sample.turns 2 (Sample.env .answered 0) 11)).shared.store.live 7).map
      (·.data.enabled) = some false := by
  have hlive : ((Sample.after (Sample.store (Sample.account true none) [Sample.window 100 5000])
      (.spawn 1 (.disableObserved 7 1 .quotaExhausted) ::
        Sample.turns 1 (Sample.env .answered 0) 10)).shared.store.live 7).map
      (·.data.enabled) = some false := by decide +kernel
  obtain ⟨row, hrow, hoff⟩ := Option.map_eq_some_iff.mp hlive
  have hsched : ∀ a ∈ (Sample.after (Sample.store (Sample.account true none)
      [Sample.window 100 5000]) (.spawn 1 (.disableObserved 7 1 .quotaExhausted) ::
        Sample.turns 1 (Sample.env .answered 0) 10)).shared.sched.accounts.lookup 7,
      a.enabled = false := by decide +kernel
  have hwindow : Sample.window 100 5000 ∈ (Sample.after (Sample.store (Sample.account true none)
      [Sample.window 100 5000]) (.spawn 1 (.disableObserved 7 1 .quotaExhausted) ::
        Sample.turns 1 (Sample.env .answered 0) 10)).shared.store.quotasOf 7 := by
    decide +kernel
  have hcredits : (Sample.after (Sample.store (Sample.account true none)
      [Sample.window 100 5000]) (.spawn 1 (.disableObserved 7 1 .quotaExhausted) ::
        Sample.turns 1 (Sample.env .answered 0) 10)).shared.store.extraCredits.lookup 7 =
      none := by decide +kernel
  have hblock : quotaBlocked (Sample.window 100 5000) false 0 = true := by decide +kernel
  have hquiet : Along World.step (Quiet 7 0 600) (Sample.after (Sample.store
      (Sample.account true none) [Sample.window 100 5000])
      (.spawn 1 (.disableObserved 7 1 .quotaExhausted) ::
        Sample.turns 1 (Sample.env .answered 0) 10))
      (.spawn 2 .reenableExpiredQuotas :: Sample.turns 2 (Sample.env .answered 0) 11) := by
    decide +kernel
  have hsome : ((run World.step
      (Sample.after (Sample.store (Sample.account true none) [Sample.window 100 5000])
        (.spawn 1 (.disableObserved 7 1 .quotaExhausted) ::
          Sample.turns 1 (Sample.env .answered 0) 10))
      (.spawn 2 .reenableExpiredQuotas ::
        Sample.turns 2 (Sample.env .answered 0) 11)).shared.store.live 7).isSome = true := by
    decide +kernel
  obtain ⟨row', hlive⟩ := Option.isSome_iff_exists.mp hsome
  rw [hlive]
  refine congrArg some ((quota_rejection_stands (Sample.reachable rfl _ _) (by decide +kernel) hrow
    hoff hsched (.inr ⟨_, hwindow, ?_⟩) hquiet).1 row' hlive)
  rw [hcredits, Option.any_none, Bool.and_false]
  exact hblock

end World
end Xxgate.Accounts

import Xxgate.Accounts.Consistent

/-!
# Disabled accounts stay disabled

What a call in order makes of an account's row, and what follows for accounts that are not in
use: automation enables only what it disabled for a quota reason, after it read windows that
do not block.
-/

namespace Xxgate.Accounts

open Xxgate.Base Xxgate.Base.FiniteMap Xxgate.Core Xxgate.Scheduling Xxgate.Store

/-- What a call in order can make of the account in a row. -/
inductive Rewrite (φ : Standing) (id : Uuid) (old : Account) : Account → Prop where
  /-- What automation goes by is as it was. -/
  | kept {new : Account} (same : policy new = policy old) : Rewrite φ id old new
  /-- An administrator edited the account, and left it enabled or disabled. -/
  | edited {new : Account} (input : AccountUpdate) (job : φ.job = .updateAccount id input)
      (enabled : new.enabled = old.enabled) (reason : new.disableReason = old.disableReason) :
      Rewrite φ id old new
  | deleted (job : φ.job = .deleteAccount id) : Rewrite φ id old
      { old with
        enabled := false, disableReason := some .adminDisabled, version := old.version + 1 }
  /-- The account was enabled or disabled as it was looked up. -/
  | set {account : Account} {enabled : Bool} {reason : Option DisableReason} {actor : String}
      (looked : account.id = id) (current : policy account = policy old)
      (may : φ.MaySet id enabled reason account actor) : Rewrite φ id old
      { old with
        version := old.version + 1
        enabled := enabled
        disableReason := if enabled then none else reason }

namespace World

variable {w w' : World} {φ : Standing} {task : Nat} {env : Env} {c : Call} {r : c.Reply}
  {shared : Installation}

/-- An account that was looked up is as its row is, when the versions agree. -/
theorem Consistent.policy_seen (h : w.Consistent) (hf : Facts w.shared φ) {q : Uuid}
    {account : Account} {row : AccountRow} (hs : φ.seen = some (q, account))
    (hl : w.shared.store.accounts.lookup q = some row)
    (hv : account.version = row.data.version) : policy account = policy row.data := by
  obtain ⟨row', hl', hp⟩ := h.sync.copies q account (hf.seen q account hs)
  cases hl.symm.trans hl'
  exact hp.policy hv

/-- What a call makes of a row. -/
theorem Made.rewrite (hm : Made w φ task env c r shared) (h : w.Consistent) {id : Uuid}
    {row : AccountRow} (hl : w.shared.store.accounts.lookup id = some row) :
    ∃ row', shared.store.accounts.lookup id = some row' ∧
      Rewrite φ id row.data row'.data := by
  have hsame : ∀ {t : AccountTables}, t.accounts = w.shared.store.accounts →
      ∃ row', t.accounts.lookup id = some row' ∧ Rewrite φ id row.data row'.data :=
    fun ht ↦ ⟨row, ht ▸ hl, .kept rfl⟩
  -- a row is written: of another account, or of this one
  have hput : ∀ {i : Uuid} {old new : AccountRow}, w.shared.store.live i = some old →
      new.data.id = old.data.id → (i = id → old = row → Rewrite φ id row.data new.data) →
      ∃ row', (w.shared.store.put new).accounts.lookup id = some row' ∧
        Rewrite φ id row.data row'.data := by
    intro i old new hold hid hnew
    have hi := live_id h.sync.keyed hold
    rw [AccountTables.lookup_put, hid, hi]
    split
    · next he =>
      subst he
      have hrow : old = row :=
        Option.some.inj ((AccountTables.live_eq_some.mp hold).1.symm.trans hl)
      exact ⟨new, rfl, hnew rfl hrow⟩
    · exact ⟨row, hl, .kept rfl⟩
  have hf := h.facts task φ hm.standing
  cases hc : Installation.reads c with
  | true => exact hsame (congrArg _ (Installation.exec_reads hc hm.performed).2)
  | false =>
    obtain ⟨hin, hmem⟩ := hm.holds hc
    have he := hm.performed
    cases c with
    | blockAccount | updateAccount | removeAccount | setPaused =>
      cases he
      exact hsame rfl
    | putAccount account encrypted expected =>
      rcases Installation.wrote_cases he with ⟨rfl, -⟩ | ⟨t, a, ht, rfl, -⟩
      · exact hsame rfl
      · cases expected with
        | none =>
          obtain ⟨hn, rfl, e, -, rfl⟩ := AccountTables.putAccount_create_ok ht
          refine ⟨row, ?_, .kept rfl⟩
          rw [AccountTables.lookup_put, if_neg, hl]
          rintro rfl
          cases hn.symm.trans hl
        | some expected =>
          obtain ⟨-, -, -, q, previous, hs, -, hid, hv, hen, hre, input, hjob⟩ := hin
          obtain ⟨old, hold, hver, rfl, rfl⟩ := AccountTables.putAccount_update_ok ht
          have hq : account.id = q := hid.trans (h.sync.seen_id hf hs)
          refine hput hold (live_id h.sync.keyed hold).symm fun hi hrow ↦ ?_
          rw [hq] at hi
          subst hi hrow
          have hpol := h.policy_seen hf hs hl (hv.symm.trans hver.symm)
          simp only [policy, Prod.mk.injEq] at hpol
          exact .edited input hjob (hen.trans hpol.1) (hre.trans hpol.2.1)
    | deleteAccount i =>
      obtain ⟨-, -, -, -, hjob⟩ := hin
      rcases Installation.wrote_cases he with ⟨rfl, -⟩ | ⟨t, a, ht, rfl, -⟩
      · exact hsame rfl
      · obtain ⟨old, a', hold, rfl, rfl⟩ := AccountTables.deleteAccount_ok ht
        refine hput hold rfl fun hi hrow ↦ ?_
        subst hi hrow
        exact .deleted hjob
    | updateCredentials i encrypted expiresAt expected =>
      rcases Installation.wrote_cases he with ⟨rfl, -⟩ | ⟨t, a, ht, rfl, -⟩
      · exact hsame rfl
      · obtain ⟨old, hold, -, rfl, rfl⟩ := AccountTables.updateCredentials_ok ht
        refine hput hold rfl fun hi hrow ↦ ?_
        subst hrow
        exact .kept rfl
    | setEnabled i enabled reason expected actor =>
      obtain ⟨-, -, account, hsaw, hv, hmay⟩ := hin
      rcases Installation.wrote_cases he with ⟨rfl, -⟩ | ⟨t, a, ht, rfl, -⟩
      · exact hsame rfl
      · obtain ⟨old, hold, hver, rfl, rfl⟩ := AccountTables.setEnabled_ok ht
        obtain ⟨hid, -⟩ := h.sync.saw hf hsaw
        obtain ⟨q, hs, -⟩ := hsaw
        have hq : q = i := (h.sync.seen_id hf hs).symm.trans hid
        refine hput hold rfl fun hi hrow ↦ ?_
        subst hi hrow hq
        exact .set hid (h.policy_seen hf hs hl (hv.symm.trans hver.symm)) hmay
    | saveModelCatalog i catalog =>
      rcases Installation.wrote_cases he with ⟨rfl, -⟩ | ⟨t, a, ht, rfl, -⟩
      · exact hsame rfl
      · obtain ⟨old, hold, rfl, rfl⟩ := AccountTables.saveModelCatalog_ok ht
        refine hput hold rfl fun hi hrow ↦ ?_
        subst hrow
        exact .kept rfl
    | saveQuotas i windows =>
      rcases Installation.wrote_cases he with ⟨rfl, -⟩ | ⟨t, a, ht, rfl, -⟩
      · exact hsame rfl
      · exact hsame (AccountTables.saveQuotas_ok ht).1
    | saveExtraCredits i credits =>
      rcases Installation.wrote_cases he with ⟨rfl, -⟩ | ⟨t, a, ht, rfl, -⟩
      · exact hsame rfl
      · exact hsame (AccountTables.saveExtraCredits_ok ht).1
    | _ => cases hc

end World

/-! ### Accounts that are not in use -/

namespace Installation

/-- A call gives the scheduler no account but the one it publishes. -/
theorem exec_copy {s s' : Installation} {task : Nat} {env : Env} {c : Call} {r : c.Reply}
    (h : s.exec task env c = some (s', r)) {id : Uuid} {a : Account}
    (ha : s'.sched.accounts.lookup id = some a) :
    s.sched.accounts.lookup id = some a ∨ c = .updateAccount a ∧ a.id = id := by
  by_cases hc : reads c = true
  · rw [(exec_reads hc h).1] at ha
    exact .inl ha
  cases c with
  | blockAccount | setPaused =>
    cases h
    exact .inl ha
  | updateAccount account =>
    cases h
    change (s.sched.updateAccount account).accounts.lookup id = some a at ha
    rw [State.lookup_updateAccount] at ha
    split at ha
    · next hid =>
      cases ha
      exact .inr ⟨rfl, hid.1.symm⟩
    · exact .inl ha
  | removeAccount i =>
    cases h
    change (s.sched.accounts.erase i).lookup id = some a at ha
    rw [lookup_erase_ite] at ha
    split at ha
    · cases ha
    · exact .inl ha
  | putAccount | deleteAccount | updateCredentials | setEnabled | saveModelCatalog | saveQuotas
  | saveExtraCredits =>
    rcases wrote_cases h with ⟨rfl, -⟩ | ⟨t, x, -, rfl, -⟩
    · exact .inl ha
    · exact .inl ha
  | _ => exact absurd rfl hc

end Installation

/-- The account has a row with the property, and the scheduler does not have it enabled. -/
structure Rests (P : Account → Prop) (id : Uuid) (s : Installation) : Prop where
  row : ∃ row, s.store.accounts.lookup id = some row ∧ P row.data
  idle : ∀ a, s.sched.accounts.lookup id = some a → a.enabled = false

/-- Disabled, and not for a reason that quota automation takes back. -/
def Held (a : Account) : Prop := a.enabled = false ∧ a.disableReason.any (·.isQuota) = false

namespace World

variable {w w' : World}

/-- An account stays out of use over a move, when its row keeps a property of disabled
accounts. -/
theorem Consistent.rests (h : w.Consistent) {m : Move} (ht : w.Transition m w')
    {P : Account → Prop} {id : Uuid} (hP : ∀ a, P a → a.enabled = false)
    (hkeep : ∀ task env φ old new, m = .drive task (.perform env) → w.standing task = some φ →
      P old → Rewrite φ id old new → P new)
    (hr : Rests P id w.shared) : Rests P id w'.shared := by
  obtain ⟨⟨row, hl, hrow⟩, hidle⟩ := hr
  cases ht with
  | idle | spawned | moved => exact ⟨⟨row, hl, hrow⟩, hidle⟩
  | @called task env job t t' c r shared here inOrder performed trace result =>
    have hm := Consistent.made here inOrder performed
    obtain ⟨row', hl', hw⟩ := hm.rewrite h hl
    refine ⟨⟨row', hl', hkeep _ _ _ _ _ rfl hm.standing hrow hw⟩, fun a ha ↦ ?_⟩
    rcases Installation.exec_copy performed ha with hold | ⟨rfl, haid⟩
    · exact hidle a hold
    · -- what is published is stored, or was there before
      obtain ⟨hin, -⟩ := hm.holds rfl
      rcases h.sync.publishing (h.facts task _ hm.standing) hin with ⟨row₀, hs, rfl⟩ | hs
      · have hl₀ := (AccountTables.live_eq_some.mp hs).1
        rw [haid] at hl₀
        cases hl.symm.trans hl₀
        exact hP _ hrow
      · exact hidle a (haid ▸ hs)
  | changed a =>
    cases a with
    | restart =>
      refine ⟨⟨row, hl, hrow⟩, fun a ha ↦ ?_⟩
      change (Installation.started w.shared.store).accounts.lookup id = some a at ha
      rw [lookup_started h.sync.keyed] at ha
      obtain ⟨row₀, hs, rfl⟩ := Option.map_eq_some_iff.mp ha
      cases hl.symm.trans (AccountTables.live_eq_some.mp hs).1
      exact hP _ hrow
    | pause | groups | takeUp => exact ⟨⟨row, hl, hrow⟩, hidle⟩

end World

/-- The task may enable the account, or disable it for a quota reason, for an administrator. -/
def Job.Overrides (id : Uuid) (job : Job) : Prop :=
  (∃ reason, job = .setEnabled id true reason) ∨
    ∃ reason, job = .setEnabled id false reason ∧ reason.any (·.isQuota) = true

instance (id : Uuid) (job : Job) : Decidable (job.Overrides id) :=
  match job with
  | .setEnabled i true reason =>
    decidable_of_iff (i = id) ⟨fun h ↦ .inl ⟨reason, h ▸ rfl⟩, by
      rintro (⟨_, h⟩ | ⟨_, h, -⟩)
      · cases h
        rfl
      · cases h⟩
  | .setEnabled i false reason =>
    decidable_of_iff (i = id ∧ reason.any (·.isQuota) = true)
      ⟨fun h ↦ .inr ⟨reason, h.1 ▸ rfl, h.2⟩, by
        rintro (⟨_, h⟩ | ⟨_, h, hq⟩)
        · cases h
        · cases h
          exact ⟨rfl, hq⟩⟩
  | .disableObserved .. | .applyQuotaObservation .. | .reconcileAccountQuotas _
  | .reenableExpiredQuotas | .credentials .. | .collectQuotas _ | .syncModels _
  | .recordCatalog .. | .createAccount _ | .updateAccount .. | .deleteAccount _
  | .saveCredentials .. => .isFalse (by rintro (⟨_, h⟩ | ⟨_, h, -⟩) <;> cases h)

/-- Only an administrator gets an account out of a disablement that is not for a quota
reason. -/
theorem Rewrite.held {φ : Standing} {id : Uuid} {old new : Account} (h : Rewrite φ id old new)
    (ho : Held old) : Held new ∨ φ.job.Overrides id ∧
      (new.enabled = true → ∃ reason, φ.job = .setEnabled id true reason) := by
  obtain ⟨hoff, hreason⟩ := ho
  cases h with
  | kept same =>
    simp only [policy, Prod.mk.injEq] at same
    exact .inl ⟨same.1.trans hoff, by rw [same.2.1]; exact hreason⟩
  | edited input job enabled reason =>
    exact .inl ⟨enabled.trans hoff, by rw [reason]; exact hreason⟩
  | deleted job => exact .inl ⟨rfl, rfl⟩
  | @set account enabled reason actor looked current may =>
    simp only [policy, Prod.mk.injEq] at current
    obtain ⟨hen, hre, -⟩ := current
    cases enabled with
    | true =>
      rcases may.enable rfl with ⟨reason, hjob, -⟩ | ⟨-, hquota, -⟩
      · exact .inr ⟨.inl ⟨reason, hjob⟩, fun _ ↦ ⟨reason, hjob⟩⟩
      · rw [hre, hreason] at hquota
        cases hquota
    | false =>
      rcases may.disable rfl with ⟨-, hjob | hon⟩
      · cases hq : reason.any (·.isQuota) with
        | true => exact .inr ⟨.inr ⟨reason, hjob, hq⟩, fun h ↦ nomatch h⟩
        | false => exact .inl ⟨rfl, hq⟩
      · rw [hen, hoff] at hon
        cases hon

/-- A task keeps its job. -/
theorem Standing.next_job (φ : Standing) (c : Call) (r : c.Reply) :
    (φ.next c r).job = φ.job := by
  cases c with
  | consult q =>
    obtain ⟨now, stale, h⟩ := next_consult φ q r
    exact (congrArg Standing.job h : _)
  | unlock l => cases l <;> rfl
  | account id =>
    show (φ.lookedUp id r).job = φ.job
    unfold lookedUp
    split
    · rfl
    · split <;> rfl
  | storedAccounts =>
    rcases r with x | accounts
    · rfl
    · simp only [next]
      split <;> rfl
  | quotas id | extraCredits id =>
    rcases r with x | a
    · rfl
    · show (if _ then _ else _ : Standing).job = φ.job
      split <;> rfl
  | deleteAccount id =>
    show (if _ then _ else _ : Standing).job = φ.job
    split <;> rfl
  | post | refresh | validateCredentials =>
    obtain ⟨renewal, refused, h⟩ := φ.next_renewal rfl r
    exact (congrArg Standing.job h : _)
  | putAccount | updateCredentials | setEnabled | saveModelCatalog =>
    rcases r with x | a <;> rfl
  | _ => rfl

private theorem phase_job (job : Job) (trace : List (Sigma Call.Reply)) :
    (monitor.phase (.start job) trace).job = job := by
  induction trace with
  | nil => rfl
  | cons e trace ih => exact (Standing.next_job _ _ _).trans ih

namespace World

variable {w w' : World}

/-- The move is one of a task that may override a disablement of the account. -/
def Overriding (w : World) (id : Uuid) (m : Move) : Prop :=
  ∃ task d job t, m = .drive task d ∧ w.tasks.lookup task = some (job, t) ∧ job.Overrides id

instance (w : World) (id : Uuid) (m : Move) : Decidable (w.Overriding id m) :=
  match m with
  | .drive task d =>
    match hl : w.tasks.lookup task with
    | none => .isFalse (by
        rintro ⟨_, _, _, _, h, hl', -⟩
        cases h
        cases hl.symm.trans hl')
    | some e => decidable_of_iff (e.1.Overrides id) ⟨fun ho ↦ ⟨task, d, e.1, e.2, rfl, hl, ho⟩, by
        rintro ⟨_, _, _, _, h, hl', ho⟩
        cases h
        cases hl.symm.trans hl'
        exact ho⟩
  | .spawn .. | .change _ => .isFalse (by
      rintro ⟨task, d, job, t, h, -⟩
      cases h)

/-- The job of a task is known of it. -/
theorem job_of_standing {task : Nat} {φ : Standing} (h : w.standing task = some φ) :
    ∃ t, w.tasks.lookup task = some (φ.job, t) := by
  obtain ⟨⟨job, t⟩, hl, rfl⟩ := Option.map_eq_some_iff.mp h
  exact ⟨t, by rw [hl, phase_job]⟩

/-- An account that is held stays out of use over a move that does not override it. -/
theorem Consistent.held (h : w.Consistent) {m : Move} (ht : w.Transition m w') {id : Uuid}
    (hm : ¬ w.Overriding id m) (hr : Rests Held id w.shared) : Rests Held id w'.shared := by
  refine h.rests ht (fun a ha ↦ ha.1) (fun task env φ old new he hφ hold hw ↦ ?_) hr
  rcases hw.held hold with hnew | ⟨ho, -⟩
  · exact hnew
  · obtain ⟨t, hl⟩ := job_of_standing hφ
    exact absurd ⟨task, _, φ.job, t, he, hl, ho⟩ hm

/-- Over a run without an override a held account stays out of use. -/
theorem Consistent.held_run (h : w.Consistent) {moves : List Move} {id : Uuid}
    (ha : Along World.step (fun w m ↦ ¬ w.Overriding id m) w moves) (hr : Rests Held id w.shared) :
    Rests Held id (run World.step w moves).shared :=
  (run_invariant_along (P := fun w ↦ w.Consistent ∧ Rests Held id w.shared)
    (fun _ m hw hm ↦ ⟨(hw.1.step m).2, hw.1.held (hw.1.step m).1 hm hw.2⟩) ⟨h, hr⟩ ha).2

/-- A row that is enabled by a move was enabled for an administrator, or could be by
automation. -/
theorem Consistent.enabled (h : w.Consistent) {m : Move} (ht : w.Transition m w') {id : Uuid}
    {row row' : AccountRow} (hl : w.shared.store.accounts.lookup id = some row)
    (hh : Held row.data) (hl' : w'.shared.store.accounts.lookup id = some row')
    (hen : row'.data.enabled = true) : ∃ task env reason t, m = .drive task (.perform env) ∧
      w.tasks.lookup task = some (.setEnabled id true reason, t) := by
  have hsame : w'.shared.store.accounts = w.shared.store.accounts → False := by
    intro he
    rw [he] at hl'
    cases hl.symm.trans hl'
    cases hh.1.symm.trans hen
  cases ht with
  | idle | spawned | moved => exact (hsame rfl).elim
  | @called task env job t t' c r shared here inOrder performed trace result =>
    have hm := Consistent.made here inOrder performed
    obtain ⟨row₁, hl₁, hw⟩ := hm.rewrite h hl
    cases hl'.symm.trans hl₁
    rcases hw.held hh with hnew | ⟨-, hjob⟩
    · cases hnew.1.symm.trans hen
    · obtain ⟨reason, hj⟩ := hjob hen
      rw [phase_job] at hj
      exact ⟨task, env, reason, t, rfl, hj ▸ here⟩
  | changed a => cases a <;> exact (hsame rfl).elim

/-- A call made in a stale observing function changes no account, row, window or credits. -/
theorem Consistent.stale (h : w.Consistent) {task : Nat} {d : Drive Env Error} {φ : Standing}
    {o : Observation} (ht : w.Transition (.drive task d) w') (hφ : w.standing task = some φ)
    (ho : φ.span = some o)
    (hs : ∀ a, w.shared.sched.accounts.lookup o.id = some a → a.version ≠ o.version) :
    w'.shared.sched.accounts = w.shared.sched.accounts ∧
      w'.shared.store = w.shared.store := by
  cases ht with
  | idle | moved => exact ⟨rfl, rfl⟩
  | @called task env job t t' c r shared here inOrder performed trace result =>
    have hm := Consistent.made here inOrder performed
    cases (standing_of_lookup here).symm.trans hφ
    have hf := h.facts task _ hφ
    cases hc : Installation.reads c with
    | true =>
      obtain ⟨hsched, hstore⟩ := Installation.exec_reads hc performed
      exact ⟨congrArg _ hsched, hstore⟩
    | false =>
      obtain ⟨hin, -⟩ := hm.holds hc
      -- whoever changes an account is current, or in no observing function
      have hcur : ¬ (monitor.phase (.start job) t.trace).Current := by
        intro hcur
        obtain ⟨account, hsaw, hv⟩ := hcur o ho
        exact hs account (h.sync.saw hf hsaw).2 hv
      have hspan : (monitor.phase (.start job) t.trace).span ≠ none := by
        rw [ho]
        nofun
      cases c with
      | blockAccount | setPaused =>
        cases performed
        exact ⟨rfl, rfl⟩
      | updateAccount => exact absurd hin.2.1 hcur
      | removeAccount | deleteAccount | updateCredentials | saveModelCatalog =>
        exact absurd hin.2.1 hspan
      | putAccount account encrypted expected =>
        cases expected with
        | none => exact absurd hin.2.1 hspan
        | some expected => exact absurd hin.2.1 hspan
      | setEnabled => exact absurd hin.2.1 hcur
      | saveQuotas | saveExtraCredits => exact absurd hin.2.2.1 hcur
      | _ => cases hc

/-- Disabled by an administrator, or for an authorization the upstream rejected. -/
def ManuallyDisabled (a : Account) : Prop :=
  a.enabled = false ∧
    (a.disableReason = some .adminDisabled ∨ a.disableReason = some .oauthInvalid)

private theorem ManuallyDisabled.held {a : Account} (h : ManuallyDisabled a) : Held a := by
  obtain ⟨hoff, hr | hr⟩ := h
  · exact ⟨hoff, by rw [hr]; rfl⟩
  · exact ⟨hoff, by rw [hr]; rfl⟩

/-- Automation does not undo a manual disablement. In every reachable state: a move that
enables the row of a manually disabled account is one of `set_enabled(id, true)`; over any
moves but those that override the disablement the account stays disabled in the store and in
the scheduler; and a move of a task inside a call of `disable_observed` or
`apply_quota_observation` for a version that is not the account's current one leaves every
account, quota window and credit record as it was. -/
theorem manual_disable_sticks {w : World} (hw : w.Reachable) :
    (∀ m id row row', w.shared.store.live id = some row → ManuallyDisabled row.data →
      (w.step m).shared.store.live id = some row' → row'.data.enabled = true →
      ∃ task env reason t, m = .drive task (.perform env) ∧
        w.tasks.lookup task = some (.setEnabled id true reason, t)) ∧
    (∀ moves id row, w.shared.store.live id = some row → ManuallyDisabled row.data →
      (∀ a, w.shared.sched.accounts.lookup id = some a → a.enabled = false) →
      Along World.step (fun w m ↦ ¬ w.Overriding id m) w moves →
      (∀ row', (run World.step w moves).shared.store.live id = some row' →
        row'.data.enabled = false) ∧
      ∀ a, (run World.step w moves).shared.sched.accounts.lookup id = some a →
        a.enabled = false) ∧
    ∀ task d φ o, w.standing task = some φ → φ.span = some o →
      (∀ a, w.shared.sched.accounts.lookup o.id = some a → a.version ≠ o.version) →
      (w.step (.drive task d)).shared.sched.accounts = w.shared.sched.accounts ∧
        (w.step (.drive task d)).shared.store = w.shared.store := by
  have h := hw.consistent
  refine ⟨?_, ?_, ?_⟩
  · intro m id row row' hl hmanual hl' hen
    exact h.enabled (h.step m).1 (AccountTables.live_eq_some.mp hl).1 hmanual.held
      (AccountTables.live_eq_some.mp hl').1 hen
  · intro moves id row hl hmanual hidle ha
    have hr : Rests Held id w.shared :=
      ⟨⟨row, (AccountTables.live_eq_some.mp hl).1, hmanual.held⟩, hidle⟩
    obtain ⟨⟨row₁, hl₁, hheld⟩, hidle'⟩ := h.held_run ha hr
    refine ⟨fun row' hl' ↦ ?_, hidle'⟩
    cases hl₁.symm.trans (AccountTables.live_eq_some.mp hl').1
    exact hheld.1
  · intro task d φ o hφ ho hs
    exact h.stale (h.step _).1 hφ ho hs

/-- Account 7 is in use, and a task that saw a version it never had holds the lock. -/
def outdated : World :=
  Sample.after (Sample.store (Sample.account true none) [])
    (.spawn 1 (.disableObserved 7 5 .oauthInvalid) :: Sample.turns 1 (Sample.env .answered 0) 3)

/-- Account 7 is disabled by an administrator. One enables it; a task that goes by an observation
of its quotas does not; and one that saw a version it never had changes nothing. -/
theorem manual_disable_sticks_enabled :
    (∃ task env reason t,
      (.drive 1 (.perform (Sample.env .answered 0)) : Move) = .drive task (.perform env) ∧
      (Sample.after (Sample.store (Sample.account false (some .adminDisabled)) [])
        (.spawn 1 (.setEnabled 7 true none) ::
          Sample.turns 1 (Sample.env .answered 0) 2)).tasks.lookup task =
        some (.setEnabled 7 true reason, t)) ∧
    (∀ row', (Sample.after (Sample.store (Sample.account false (some .adminDisabled)) [])
      (.spawn 1 (.applyQuotaObservation 7 1 [Sample.window 50 5000] none true) ::
        Sample.turns 1 (Sample.env .answered 0) 8)).shared.store.live 7 = some row' →
      row'.data.enabled = false) ∧
    (outdated.step (.drive 1 (.perform (Sample.env .answered 0)))).shared.sched.accounts =
        outdated.shared.sched.accounts ∧
      (outdated.step (.drive 1 (.perform (Sample.env .answered 0)))).shared.store =
        outdated.shared.store := by
  refine ⟨?_, ?_, ?_⟩
  · exact (manual_disable_sticks (Sample.reachable rfl _ _)).1 _ 7
      ⟨Sample.account false (some .adminDisabled), encrypt 7 (Sample.credentials "first"), false⟩
      ⟨{ Sample.account true none with version := 2 }, encrypt 7 (Sample.credentials "first"),
        false⟩
      (by decide +kernel) ⟨rfl, .inl rfl⟩ (by decide +kernel) rfl
  · refine ((manual_disable_sticks (Sample.reachable rfl
      (a := Sample.account false (some .adminDisabled)) [] [])).2.1 _ 7
      ⟨Sample.account false (some .adminDisabled), encrypt 7 (Sample.credentials "first"), false⟩
      (by decide +kernel) ⟨rfl, .inl rfl⟩ ?_ (by decide +kernel)).1
    intro a ha
    cases (show some (Sample.account false (some .adminDisabled)) = some a from ha)
    rfl
  · have hspan : (outdated.standing 1).map (·.span) = some (some ⟨7, 5, some .oauthInvalid⟩) := by
      decide +kernel
    obtain ⟨φ, hφ, ho⟩ := Option.map_eq_some_iff.mp hspan
    refine (manual_disable_sticks (w := outdated) (Sample.reachable rfl _ _)).2.2 1 _ φ _ hφ ho ?_
    intro a ha
    have hsame : outdated.shared.sched.accounts.lookup 7 = some (Sample.account true none) := by
      decide +kernel
    cases hsame.symm.trans ha
    decide

end World
end Xxgate.Accounts

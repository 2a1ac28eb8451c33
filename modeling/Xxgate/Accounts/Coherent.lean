import Xxgate.Accounts.Consistent
import Xxgate.Base.Owing

/-!
# The scheduler agrees with the store

Of every account the scheduler has what the store has, or a task at work owes it an update.
A write that took effect without an answer is made good by a reload or by a pause, but for
three writes that are taken for failed, and an update is owed for ever by a task that was
dropped.
-/

namespace Xxgate.Accounts

open Xxgate.Base Xxgate.Base.FiniteMap Xxgate.Core Xxgate.Scheduling Xxgate.Store

/-! ### What a duty leaves undone -/

namespace Duty

/-- The accounts that the store may have changed without the scheduler being told. -/
def changed : Duty → List Uuid
  | .written account => [account.id]
  | .doubtful id | .deleted id => [id]
  | .reloaded _ rest => rest.map (·.id)
  | .clear | .blocked _ => []

/-- The accounts that are changed, or blocked to be changed. -/
def named : Duty → List Uuid
  | .blocked id => [id]
  | d => d.changed

/-- A duty that is done names no account. -/
theorem Done.named {d : Duty} (h : d.Done) : d.named = [] := by
  cases d with
  | clear => rfl
  | reloaded id rest =>
    cases h
    rfl
  | _ => cases h

private theorem Done.changed {d : Duty} (h : d.Done) : d.changed = [] := by
  cases d with
  | clear => rfl
  | reloaded id rest =>
    cases h
    rfl
  | _ => cases h

end Duty

/-- What a call that only reads makes of a duty. -/
theorem Standing.next_duty {φ : Standing} {s s' : Installation} {task : Nat} {env : Env} {c : Call}
    {r : c.Reply} (hin : φ.InOrder c) (hc : Installation.reads c = true)
    (he : s.exec task env c = some (s', r)) :
    (φ.next c r).duty = φ.duty ∨ (φ.duty.Done ∧ (φ.next c r).duty = .clear) ∨
      ∃ id, φ.duty = .doubtful id ∧ (φ.next c r).duty = .reloaded id s.store.listed := by
  cases c with
  | consult q =>
    obtain ⟨now, stale, hq⟩ := next_consult φ q r
    exact .inl (congrArg Standing.duty hq : _)
  | unlock l =>
    cases l with
    | mutations => exact .inr (.inl ⟨(hin.2.1 hin.1).2, rfl⟩)
    | _ => exact .inl rfl
  | releaseAll => cases hin
  | account id =>
    refine .inl ?_
    show (φ.lookedUp id r).duty = φ.duty
    unfold lookedUp
    split
    · rfl
    · split <;> rfl
  | storedAccounts =>
    rcases r with x | accounts
    · exact .inl rfl
    · have hlist : accounts = s.store.listed := (Except.ok.inj (Installation.queried_ok he)).symm
      obtain ⟨-, id, hd⟩ := hin
      refine .inr (.inr ⟨id, hd, ?_⟩)
      simp only [next, hd, hlist]
  | quotas id =>
    rcases r with x | windows
    · exact .inl rfl
    · refine .inl ?_
      show (if _ then _ else _ : Standing).duty = φ.duty
      split <;> rfl
  | extraCredits id =>
    rcases r with x | credits
    · exact .inl rfl
    · refine .inl ?_
      show (if _ then _ else _ : Standing).duty = φ.duty
      split <;> rfl
  | post | refresh | validateCredentials =>
    obtain ⟨renewal, refused, h⟩ := φ.next_renewal rfl r
    exact .inl (congrArg duty h : _)
  | lock | enter | leave | accounts | groups | credentials => exact .inl rfl
  | _ => cases hc

/-! ### Agreement on an account -/

section

variable {V : Type} (view : Account → V)

/-- The scheduler and the store have the same of an account, or both have none. -/
def Agree (s : Installation) (id : Uuid) : Prop :=
  (s.sched.accounts.lookup id).map view = (s.store.live id).map fun row ↦ view row.data

instance [DecidableEq V] (s : Installation) (id : Uuid) : Decidable (Agree view s id) :=
  inferInstanceAs (Decidable (_ = _))

/-- Dispatch is paused, or the scheduler and the store agree on the account. -/
def Settled (s : Installation) (id : Uuid) : Prop := s.sched.paused = true ∨ Agree view s id

end

/-- Writes that are taken for failed when their answer is lost. -/
def Call.unrepaired : Call → Bool
  | .putAccount _ _ none | .deleteAccount _ | .updateCredentials .. => true
  | _ => false

/-- A call does not end a pause. -/
theorem Installation.exec_paused {s s' : Installation} {task : Nat} {env : Env} {c : Call}
    {r : c.Reply} (he : s.exec task env c = some (s', r)) (h : s.sched.paused = true) :
    s'.sched.paused = true := by
  by_cases hc : reads c = true
  · rw [(exec_reads hc he).1, h]
  cases c with
  | blockAccount | removeAccount =>
    cases he
    exact h
  | setPaused =>
    cases he
    rfl
  | updateAccount account =>
    cases he
    show (s.sched.updateAccount account).paused = true
    unfold State.updateAccount
    split
    · exact h
    · exact h
  | putAccount | deleteAccount | updateCredentials | setEnabled | saveModelCatalog | saveQuotas
  | saveExtraCredits =>
    rcases wrote_cases he with ⟨rfl, -⟩ | ⟨t, a, -, rfl, -⟩
    · exact h
    · exact h
  | _ => exact absurd rfl hc

section

variable {V : Type} {view : Account → V} {s s' : Installation} {φ : Standing} {id : Uuid}

namespace Agree

/-- Agreement is about the scheduler's accounts and the rows. -/
theorem congr (h : Agree view s id) (ha : s'.sched.accounts = s.sched.accounts)
    (hr : s'.store.accounts = s.store.accounts) : Agree view s' id := by
  unfold Agree AccountTables.live at h ⊢
  rw [ha, hr]
  exact h

/-- A row that is written leaves agreement on the other accounts. -/
theorem put (h : Agree view s id) (row : AccountRow) :
    Agree view { s with store := s.store.put row } id ∨ id = row.data.id := by
  by_cases hid : id = row.data.id
  · exact .inr hid
  · refine .inl ?_
    unfold Agree at h ⊢
    rw [h, AccountTables.live_put, if_neg hid]

/-- A row that is written with the same view leaves all agreement. -/
theorem put_same (h : Agree view s id) (hk : s.store.Keyed) {i : Uuid} {old row : AccountRow}
    (hold : s.store.live i = some old) (hid : row.data.id = old.data.id)
    (hd : row.deleted = false) (hv : view row.data = view old.data) :
    Agree view { s with store := s.store.put row } id := by
  refine (h.put row).elim (fun h ↦ h) fun hrow ↦ ?_
  have hi : id = i := hrow.trans (hid.trans (live_id hk hold))
  unfold Agree at h ⊢
  rw [h, AccountTables.live_put, if_pos hrow, hd, hi, hold]
  simp only [Bool.false_eq_true, if_false, Option.map_some, hv]

/-- An account that is stored is agreed on once it is published. -/
theorem published_self (hs : Sync s) {a : Account} (ha : Stored s.store a) :
    Agree view { s with sched := s.sched.updateAccount a } a.id := by
  obtain ⟨row, hl, hrow⟩ := ha
  have hn : a.id ∉ s.sched.deletedAccounts := by
    intro hg
    obtain ⟨row', hl', hd'⟩ := hs.gone a.id hg
    obtain ⟨hl, hd⟩ := AccountTables.live_eq_some.mp hl
    cases hl.symm.trans hl'
    cases hd.symm.trans hd'
  unfold Agree
  show ((s.sched.updateAccount a).accounts.lookup a.id).map view = _
  rw [State.lookup_updateAccount, if_pos ⟨rfl, hn⟩, hl, Option.map_some, Option.map_some, hrow]

/-- Publishing an account leaves the others alone. -/
theorem published (h : Agree view s id) {a : Account} (hne : id ≠ a.id) :
    Agree view { s with sched := s.sched.updateAccount a } id := by
  unfold Agree at h ⊢
  show ((s.sched.updateAccount a).accounts.lookup id).map view = _
  rw [State.lookup_updateAccount, if_neg fun h ↦ hne h.1, h]

/-- Publishing what the scheduler has already changes nothing. -/
theorem republished (h : Agree view s id) {a : Account}
    (ha : s.sched.accounts.lookup a.id = some a) :
    Agree view { s with sched := s.sched.updateAccount a } id := by
  by_cases hid : id = a.id
  · subst hid
    unfold Agree at h ⊢
    show ((s.sched.updateAccount a).accounts.lookup a.id).map view = _
    rw [State.lookup_updateAccount]
    split
    · rw [← h, ha]
    · exact h
  · exact h.published hid

/-- A deleted account that is forgotten is agreed on. -/
theorem removed_self {row : AccountRow} (hl : s.store.accounts.lookup id = some row)
    (hd : row.deleted = true) : Agree view { s with sched := s.sched.removeAccount id } id := by
  have hlive : s.store.live id = none := by
    rw [AccountTables.live, hl, Option.filter_some, hd]
    rfl
  unfold Agree
  show ((s.sched.accounts.erase id).lookup id).map view = (s.store.live id).map _
  rw [lookup_erase_ite, if_pos rfl, hlive]
  rfl

/-- Forgetting an account leaves the others alone. -/
theorem removed (h : Agree view s id) {i : Uuid} (hne : id ≠ i) :
    Agree view { s with sched := s.sched.removeAccount i } id := by
  unfold Agree at h ⊢
  show ((s.sched.accounts.erase i).lookup id).map view = _
  rw [lookup_erase_ite, if_neg hne, h]

/-- A transaction leaves agreement on the accounts but for one whose row it puts. -/
theorem wrote {α : Type} {outcome : Outcome} {transaction : Result (AccountTables × α)}
    {r : Result α} {named : List Uuid} (h : Agree view s id)
    (he : s.wrote outcome transaction = some (s', r))
    (hrow : ∀ t a, transaction = .ok (t, a) →
      (r = .ok a ∧ outcome = .answered ∨ r = .error .storage ∧ outcome = .lost) →
      ∃ row, t = s.store.put row ∧ row.data.id ∈ named) :
    Agree view s' id ∨ id ∈ named := by
  rcases Installation.wrote_cases he with ⟨rfl, -⟩ | ⟨t, a, ht, rfl, hr⟩
  · exact .inl h
  · obtain ⟨row, rfl, hnamed⟩ := hrow t a ht hr
    rcases h.put row with hput | hid
    · exact .inl hput
    · exact .inr (hid ▸ hnamed)

/-- A transaction that keeps agreement where it takes effect keeps it. -/
theorem kept {α : Type} {outcome : Outcome} {transaction : Result (AccountTables × α)}
    {r : Result α} (h : Agree view s id) (he : s.wrote outcome transaction = some (s', r))
    (hkeep : ∀ t a, transaction = .ok (t, a) → Agree view { s with store := t } id) :
    Agree view s' id := by
  rcases Installation.wrote_cases he with ⟨rfl, -⟩ | ⟨t, a, ht, rfl, -⟩
  · exact h
  · exact hkeep t a ht

/-- Publishing an account in order leaves agreement, and pays what the task owes for it. -/
theorem updated (hs : Sync s) (hf : Facts s φ) {a : Account} (hin : φ.InOrder (.updateAccount a))
    (h : Agree view s id ∨ id ∈ φ.duty.changed) :
    Agree view { s with sched := s.sched.updateAccount a } id ∨
      id ∈ (φ.next (.updateAccount a) ()).duty.changed := by
  have hduty := hf.duty
  obtain ⟨-, -, hd | ⟨-, ⟨i, hd, hseen⟩ | ⟨i, rest, hd⟩⟩⟩ := hin
  · rw [hd] at h hduty
    refine .inl ?_
    by_cases hid : id = a.id
    · exact hid ▸ published_self hs hduty
    · exact (h.resolve_right fun hm ↦ hid (List.mem_singleton.mp hm)).published hid
  · rw [hd] at h
    have hai := hs.seen_id hf hseen
    exact .inl ((h.resolve_right List.not_mem_nil).republished
      (hai.symm ▸ hf.seen i a hseen))
  · rw [hd] at h hduty
    by_cases hid : id = a.id
    · exact .inl (hid ▸ published_self hs (hduty a List.mem_cons_self))
    · refine h.imp (fun h ↦ h.published hid) fun hm ↦ ?_
      show id ∈ φ.duty.published.changed
      rw [hd]
      exact (List.mem_cons.mp hm).resolve_left hid

/-- A call in order that only reads leaves agreement on an account, or the task owes it. -/
theorem read (hs : Sync s) {task : Nat} {env : Env} {c : Call} {r : c.Reply} (hin : φ.InOrder c)
    (hc : Installation.reads c = true) (he : s.exec task env c = some (s', r))
    (hdoubt : ∀ i, φ.duty = .doubtful i → (s.store.live i).isSome = true)
    (h : Agree view s id ∨ id ∈ φ.duty.changed) :
    Agree view s' id ∨ id ∈ (φ.next c r).duty.changed := by
  obtain ⟨hsched, hstore⟩ := Installation.exec_reads hc he
  have hsame : Agree view s id → Agree view s' id := fun h ↦
    h.congr (by rw [hsched]) (by rw [hstore])
  rcases Standing.next_duty hin hc he with hd | ⟨hdone, -⟩ | ⟨i, hd, hd'⟩
  · rw [hd]
    exact h.imp_left hsame
  · rw [hdone.changed] at h
    exact .inl (hsame (h.resolve_right List.not_mem_nil))
  · rw [hd] at h
    rw [hd']
    refine h.imp hsame fun hid ↦ ?_
    obtain rfl := List.mem_singleton.mp hid
    obtain ⟨row, hl⟩ := Option.isSome_iff_exists.mp (hdoubt id hd)
    have hrow := live_id hs.keyed hl
    exact List.mem_map.mpr ⟨row.data,
      (AccountTables.mem_listed hs.keyed _).mpr ⟨row, hrow ▸ hl, rfl⟩, hrow⟩

/-- A call in order that is answered, or whose loss is noticed, leaves agreement on an account,
or the task owes it. -/
theorem exec (hview : ∀ a c, view { a with modelCatalog := c } = view a) (hs : Sync s)
    (hf : Facts s φ) {task : Nat} {env : Env} {c : Call} {r : c.Reply} (hin : φ.InOrder c)
    (he : s.exec task env c = some (s', r)) (hopen : c ≠ .setPaused)
    (hanswered : c.unrepaired = true → env.outcome ≠ .lost)
    (hdoubt : ∀ i, φ.duty = .doubtful i → (s.store.live i).isSome = true)
    (h : Agree view s id ∨ id ∈ φ.duty.changed) :
    Agree view s' id ∨ id ∈ (φ.next c r).duty.changed := by
  cases hc : Installation.reads c with
  | true => exact read hs hin hc he hdoubt h
  | false =>
    -- where nothing is owed there is agreement
    have hagree : φ.duty.changed = [] → Agree view s id := fun hnone ↦
      h.resolve_right (by rw [hnone]; exact List.not_mem_nil)
    cases c with
    | blockAccount i =>
      cases he
      obtain ⟨-, hd, -⟩ := hin
      exact .inl ((hagree (by rw [hd]; rfl)).congr rfl rfl)
    | updateAccount a =>
      cases he
      exact updated hs hf hin h
    | removeAccount i =>
      cases he
      obtain ⟨-, -, hd⟩ := hin
      have hgone := hf.duty
      rw [hd] at h hgone
      obtain ⟨row, hl, hdel⟩ := hgone
      refine .inl ?_
      by_cases hid : id = i
      · subst hid
        exact removed_self hl hdel
      · exact (h.resolve_right fun hm ↦ hid (List.mem_singleton.mp hm)).removed hid
    | setPaused => exact absurd rfl hopen
    | putAccount account encrypted expected =>
      cases expected with
      | none =>
        obtain ⟨-, -, hd, -⟩ := hin
        refine (hagree (by rw [hd]; rfl)).wrote he fun t a ht hr ↦ ?_
        obtain ⟨-, -, e, -, rfl⟩ := AccountTables.putAccount_create_ok ht
        rcases hr with ⟨rfl, -⟩ | ⟨-, hlost⟩
        · exact ⟨⟨a, e, false⟩, rfl, List.mem_singleton_self _⟩
        · exact absurd hlost (hanswered rfl)
      | some expected =>
        obtain ⟨-, -, -, i, previous, -, hd, -⟩ := hin
        refine (hagree (by rw [hd]; rfl)).wrote he fun t a ht hr ↦ ?_
        obtain ⟨row, -, -, ha, rfl⟩ := AccountTables.putAccount_update_ok ht
        refine ⟨⟨a, encrypted.getD row.credentials, false⟩, rfl, ?_⟩
        rcases hr with ⟨rfl, -⟩ | ⟨rfl, -⟩
        · exact List.mem_singleton_self _
        · rw [ha]
          exact List.mem_singleton_self _
    | deleteAccount i =>
      obtain ⟨-, -, hd, -⟩ := hin
      refine (hagree (by rw [hd]; rfl)).wrote he fun t u ht hr ↦ ?_
      obtain ⟨row, a, hl, ha, rfl⟩ := AccountTables.deleteAccount_ok ht
      rcases hr with ⟨rfl, -⟩ | ⟨-, hlost⟩
      · have hai : a.id = i := by rw [ha, live_id hs.keyed hl]
        exact ⟨{ row with data := a, deleted := true }, rfl, List.mem_singleton.mpr hai⟩
      · exact absurd hlost (hanswered rfl)
    | updateCredentials i encrypted expiresAt expected =>
      obtain ⟨-, -, hd, -⟩ := hin
      refine (hagree (by rw [hd]; rfl)).wrote he fun t a ht hr ↦ ?_
      obtain ⟨row, -, -, -, rfl⟩ := AccountTables.updateCredentials_ok ht
      rcases hr with ⟨rfl, -⟩ | ⟨-, hlost⟩
      · exact ⟨{ row with data := a, credentials := encrypted }, rfl, List.mem_singleton_self _⟩
      · exact absurd hlost (hanswered rfl)
    | setEnabled i enabled reason expected actor =>
      obtain ⟨-, -, account, -, -, hmay⟩ := hin
      have hnone : φ.duty.changed = [] := by
        rcases hmay.blocked with hd | hd
        · rw [hd]
          rfl
        · rw [hd]
          rfl
      refine (hagree hnone).wrote he fun t a ht hr ↦ ?_
      obtain ⟨row, hl, -, ha, rfl⟩ := AccountTables.setEnabled_ok ht
      refine ⟨{ row with data := a }, rfl, ?_⟩
      rcases hr with ⟨rfl, -⟩ | ⟨rfl, -⟩
      · exact List.mem_singleton_self _
      · have hai : a.id = i := by rw [ha, live_id hs.keyed hl]
        exact List.mem_singleton.mpr hai
    | saveModelCatalog i catalog =>
      obtain ⟨-, -, hd⟩ := hin
      have hnow := hagree (by rw [hd]; rfl)
      refine .inl (hnow.kept he fun t a ht ↦ ?_)
      obtain ⟨row, hl, rfl, rfl⟩ := AccountTables.saveModelCatalog_ok ht
      exact hnow.put_same hs.keyed hl rfl (AccountTables.live_eq_some.mp hl).2 (hview _ _)
    | saveQuotas i windows =>
      obtain ⟨-, -, -, hd⟩ := hin
      have hnow := hagree (by rw [hd]; rfl)
      exact .inl (hnow.kept he fun t a ht ↦ hnow.congr rfl (AccountTables.saveQuotas_ok ht).1)
    | saveExtraCredits i credits =>
      obtain ⟨-, -, -, hd⟩ := hin
      have hnow := hagree (by rw [hd]; rfl)
      exact .inl (hnow.kept he fun t a ht ↦ hnow.congr rfl (AccountTables.saveExtraCredits_ok ht).1)
    | _ => cases hc

end Agree

/-- Settlement is about the pause, the scheduler's accounts and the rows. -/
theorem Settled.congr (h : Settled view s id) (hp : s'.sched.paused = s.sched.paused)
    (ha : s'.sched.accounts = s.sched.accounts) (hr : s'.store.accounts = s.store.accounts) :
    Settled view s' id :=
  h.imp (hp.trans ·) (·.congr ha hr)

/-- A call in order leaves an account settled, or the task owes it. -/
theorem Settled.exec (hview : ∀ a c, view { a with modelCatalog := c } = view a) (hs : Sync s)
    (hf : Facts s φ) {task : Nat} {env : Env} {c : Call} {r : c.Reply} (hin : φ.InOrder c)
    (he : s.exec task env c = some (s', r))
    (hanswered : c.unrepaired = true → env.outcome ≠ .lost)
    (hdoubt : ∀ i, φ.duty = .doubtful i → s.sched.paused = true ∨ (s.store.live i).isSome = true)
    (h : Settled view s id ∨ id ∈ φ.duty.changed) :
    Settled view s' id ∨ id ∈ (φ.next c r).duty.changed := by
  by_cases hp : s.sched.paused = true
  · exact .inl (.inl (Installation.exec_paused he hp))
  by_cases hc : c = .setPaused
  · subst hc
    cases he
    exact .inl (.inl rfl)
  · refine (Agree.exec hview hs hf hin he hc hanswered (fun i hi ↦ (hdoubt i hi).resolve_left hp)
      (h.imp_left (·.resolve_left hp))).imp_left .inr

/-- A task is in doubt only about accounts that are not deleted. -/
theorem doubtful_exec (hs : Sync s) (hf : Facts s φ) {task : Nat} {env : Env} {c : Call}
    {r : c.Reply} (hin : φ.InOrder c) (he : s.exec task env c = some (s', r))
    (hsettled : ∀ i, Settled view s i ∨ i ∈ φ.duty.changed)
    (hdoubt : ∀ i, φ.duty = .doubtful i → s.sched.paused = true ∨ (s.store.live i).isSome = true)
    (hd : (φ.next c r).duty = .doubtful id) :
    s'.sched.paused = true ∨ (s'.store.live id).isSome = true := by
  by_cases hp : s.sched.paused = true
  · exact .inl (Installation.exec_paused he hp)
  -- what the scheduler has of an account that nothing is owed for is in the store
  have hseen : ∀ {i : Uuid} {a : Account}, s.sched.accounts.lookup i = some a →
      φ.duty.changed = [] → (s.store.live i).isSome = true := by
    intro i a ha hn
    have h := hsettled i
    rw [hn] at h
    have h := (h.resolve_right List.not_mem_nil).resolve_left hp
    rw [Agree, ha] at h
    cases hl : s.store.live i with
    | none =>
      rw [hl] at h
      cases h
    | some row => rfl
  have hput : ∀ {i : Uuid} (row : AccountRow), (s.store.live i).isSome = true →
      row.deleted = false → ((s.store.put row).live i).isSome = true := by
    intro i row hl hdel
    rw [AccountTables.live_put]
    split
    · rw [hdel]
      rfl
    · exact hl
  cases hc : Installation.reads c with
  | true =>
    obtain ⟨hsched, hstore⟩ := Installation.exec_reads hc he
    rw [hsched, hstore]
    rcases Standing.next_duty hin hc he with hd' | ⟨-, hd'⟩ | ⟨i, -, hd'⟩
    · exact hdoubt id (hd'.symm.trans hd)
    · cases hd'.symm.trans hd
    · cases hd'.symm.trans hd
  | false =>
    refine .inr ?_
    cases c with
    | blockAccount | removeAccount | setPaused => cases hd
    | updateAccount a =>
      change φ.duty.published = .doubtful id at hd
      unfold Duty.published at hd
      split at hd
      · cases hd
      · cases hd
    | putAccount account encrypted expected =>
      cases expected with
      | none =>
        obtain ⟨-, -, hclear, -⟩ := hin
        rcases r with x | a
        · cases hclear.symm.trans hd
        · cases hd
      | some expected =>
        obtain ⟨-, -, -, i, previous, hlook, hblock, hid, -⟩ := hin
        have hi : account.id = i := hid.trans (hs.seen_id hf hlook)
        have hlive : (s.store.live account.id).isSome = true :=
          hi ▸ hseen (hf.seen i previous hlook) (by rw [hblock]; rfl)
        rcases r with x | a
        · cases hd
          rcases Installation.wrote_cases he with ⟨rfl, -⟩ | ⟨t, a, ht, rfl, -⟩
          · exact hlive
          · obtain ⟨row, -, -, -, rfl⟩ := AccountTables.putAccount_update_ok ht
            exact hput _ hlive rfl
        · cases hd
    | setEnabled i enabled reason expected actor =>
      obtain ⟨-, -, account, hsaw, -, hmay⟩ := hin
      have hnone : φ.duty.changed = [] := by
        rcases hmay.blocked with hb | hb
        · rw [hb]
          rfl
        · rw [hb]
          rfl
      have hlive := hseen (hs.saw hf hsaw).2 hnone
      rcases r with x | a
      · cases hd
        rcases Installation.wrote_cases he with ⟨rfl, -⟩ | ⟨t, a, ht, rfl, -⟩
        · exact hlive
        · obtain ⟨row, hl, -, -, rfl⟩ := AccountTables.setEnabled_ok ht
          exact hput _ hlive (AccountTables.live_eq_some.mp hl).2
      · cases hd
    | deleteAccount i =>
      obtain ⟨-, -, hblock, -⟩ := hin
      rcases r with x | u
      · cases hblock.symm.trans hd
      · cases hd
    | updateCredentials i encrypted expiresAt expected =>
      obtain ⟨-, -, hclear, -⟩ := hin
      rcases r with x | a
      · cases hclear.symm.trans hd
      · cases hd
    | saveModelCatalog i catalog =>
      obtain ⟨-, -, hclear⟩ := hin
      rcases r with x | a
      · cases hclear.symm.trans hd
      · cases hd
    | saveQuotas i windows =>
      obtain ⟨-, -, -, hclear⟩ := hin
      cases hclear.symm.trans hd
    | saveExtraCredits i credits =>
      obtain ⟨-, -, -, hclear⟩ := hin
      cases hclear.symm.trans hd
    | _ => cases hc

end

/-! ### Agreement over runs -/

namespace World

/-- What is known of a task that was not dropped and has not ended. -/
abbrev active (w : World) (task : Nat) : Option Standing :=
  Pool.active monitor Standing.start w task

section

variable {V : Type} (view : Account → V)

/-- Of every account the scheduler and the store agree, or a task at work owes an update, or
dispatch is paused. -/
structure Coherent (w : World) : Prop where
  settled : ∀ id, w.Covered monitor Standing.start (Settled view)
    (fun φ id ↦ id ∈ φ.duty.changed) id
  doubtful : ∀ task φ id, w.active task = some φ → φ.duty = .doubtful id →
    w.shared.sched.paused = true ∨ (w.shared.store.live id).isSome = true

/-- No creation, deletion or change of credentials takes effect without being answered, and no
task is dropped while it owes the scheduler a change. -/
structure Answered (w : World) (m : Move) : Prop where
  answered : ∀ e ∈ m.surroundings, ∀ c ∈ w.calling e.1, c.unrepaired = true → e.2.outcome ≠ .lost
  paid : ∀ task ∈ m.dropped, ∀ φ ∈ w.active task, ∀ id ∈ φ.duty.changed, Agree view w.shared id

instance [DecidableEq V] (w : World) (m : Move) : Decidable (Answered view w m) :=
  decidable_of_iff
    ((∀ e ∈ m.surroundings, ∀ c ∈ w.calling e.1, c.unrepaired = true → e.2.outcome ≠ .lost) ∧
      ∀ task ∈ m.dropped, ∀ φ ∈ w.active task, ∀ id ∈ φ.duty.changed, Agree view w.shared id)
    ⟨fun h ↦ ⟨h.1, h.2⟩, fun h ↦ ⟨h.answered, h.paid⟩⟩

end

variable {V : Type} {view : Account → V} {w w' : World}

/-- A new process agrees with its store. -/
theorem agree_started {s : Installation} (hk : s.store.Keyed) (id : Uuid) :
    Agree view { s with sched := Installation.started s.store, locks := ∅ } id := by
  unfold Agree
  show ((Installation.started s.store).accounts.lookup id).map view = _
  rw [lookup_started hk, Option.map_map]
  rfl

/-- The task that has the lock is the one that owes what is owed. -/
theorem Coherent.mine (hc : w.Coherent view) (h : w.Consistent) {task : Nat} {φ : Standing}
    (hφ : w.active task = some φ) (hm : .mutations ∈ φ.held) (id : Uuid) :
    Settled view w.shared id ∨ id ∈ φ.duty.changed := by
  refine (hc.settled id).imp_right ?_
  rintro ⟨i, ψ, hψ, ho⟩
  by_cases hi : i = task
  · subst hi
    cases hφ.symm.trans hψ
    exact ho
  · have hb := h.blank (Pool.phase_of_active hφ) hm (Pool.phase_of_active hψ) hi
    rw [hb.duty] at ho
    cases ho

/-- While the lock is free nothing is owed. -/
theorem Coherent.free (hc : w.Coherent view) (h : w.Consistent)
    (hf : w.shared.locks.lookup .mutations = none) (id : Uuid) : Settled view w.shared id := by
  refine (hc.settled id).resolve_right ?_
  rintro ⟨i, ψ, hψ, ho⟩
  rw [(h.blank_of_free hf (Pool.phase_of_active hψ)).duty] at ho
  cases ho

/-- A move that is answered and drops no debtor keeps the scheduler and the store coherent. -/
theorem Coherent.step (hc : w.Coherent view)
    (hview : ∀ a c, view { a with modelCatalog := c } = view a) (h : w.Consistent) {m : Move}
    (hm : w.Answered view m) : (w.step m).Coherent view := by
  refine ⟨fun id ↦ ?_, ?_⟩
  · refine (hc.settled id).step disciplined h.kept m ?_ ?_ ?_ ?_ ?_ ?_
    · rintro task env φ c r shared rfl hφ hcall ⟨_, hin⟩ he hp
      have hf := h.facts task φ (Pool.phase_of_active hφ)
      exact Settled.exec hview h.sync hf hin he (hm.answered (task, env) rfl c hcall)
        (hc.doubtful task φ · hφ) hp
    · rintro task env φ s c r shared rfl he hp
      have he : w.shared.exec task env .releaseAll = some (shared, r) := he
      obtain ⟨hsched, hstore⟩ := Installation.exec_reads rfl he
      exact hp.congr (by rw [hsched]) (by rw [hsched]) (by rw [hstore])
    · rintro task φ hφ ⟨hfree, -⟩ ho
      rw [(h.tidy task φ (Pool.phase_of_active hφ) hfree).duty] at ho
      cases ho
    · rintro task x φ rfl hφ ho
      exact .inr (hm.paid task rfl φ hφ id ho)
    · rintro a rfl he
      cases a with
      | restart => exact .inr (agree_started h.sync.keyed id)
      | pause | groups | takeUp => cases he
    · rintro a - he hp
      cases a with
      | restart => cases he
      | pause => exact .inl rfl
      | groups | takeUp => exact hp.congr rfl rfl rfl
  · have ht := (h.step m).1
    generalize w.step m = w' at ht
    intro task φ id hφ hd
    cases ht with
    | idle => exact hc.doubtful task φ id hφ hd
    | @spawned i job new =>
      rw [active, Pool.active_insert] at hφ
      split at hφ
      · obtain ⟨-, rfl⟩ := hφ
        cases hd
      · exact hc.doubtful task φ id hφ hd
    | @called i env job t t' c r shared here inOrder performed trace result =>
      have hmade := Consistent.made here inOrder performed
      rw [active, Pool.active_insert, phase_cons trace] at hφ
      split at hφ
      · obtain ⟨hres, rfl⟩ := hφ
        rw [result] at hres
        have hself : w.active i = some (monitor.phase (.start job) t.trace) :=
          Pool.active_eq_some.mpr ⟨job, t, here, hres, rfl⟩
        obtain ⟨-, _, hin⟩ := inOrder.resolve_right fun hx ↦ by
          rw [hres] at hx
          cases hx.1
        cases hreads : Installation.reads c with
        | true =>
          obtain ⟨hsched, hstore⟩ := Installation.exec_reads hreads performed
          dsimp only
          rw [hsched, hstore]
          rcases Standing.next_duty hin hreads performed with hd' | ⟨-, hd'⟩ | ⟨j, -, hd'⟩
          · exact hc.doubtful i _ id hself (hd'.symm.trans hd)
          · cases hd'.symm.trans hd
          · cases hd'.symm.trans hd
        | false =>
          exact doubtful_exec h.sync (h.facts i _ hmade.standing) hin performed
            (hc.mine h hself (hmade.holds hreads).2) (hc.doubtful i _ · hself) hd
      · next hne =>
        cases hreads : Installation.reads c with
        | true =>
          obtain ⟨hsched, hstore⟩ := Installation.exec_reads hreads performed
          dsimp only
          rw [hsched, hstore]
          exact hc.doubtful task φ id hφ hd
        | false =>
          have hb := h.blank hmade.standing (hmade.holds hreads).2 (Pool.phase_of_active hφ) hne
          cases hb.duty.symm.trans hd
    | @moved i d job t t' here trace stays leaves =>
      rw [active, Pool.active_insert, trace] at hφ
      split at hφ
      · next hi =>
        obtain ⟨hres, rfl⟩ := hφ
        refine hc.doubtful i _ id (Pool.active_eq_some.mpr ⟨job, t, here, ?_, rfl⟩) hd
        cases ho : t.result with
        | none => rfl
        | some x => cases hres.symm.trans (stays x ho)
      · exact hc.doubtful task φ id hφ hd
    | changed a =>
      cases a with
      | restart => cases hφ
      | pause => exact .inl rfl
      | groups | takeUp => exact hc.doubtful task φ id hφ hd

/-- A process starts coherent. -/
theorem Coherent.new {store : AccountTables} (hs : Sound store) :
    (World.new store).Coherent view where
  settled := fun id ↦ .inl (.inr (agree_started (s := (World.new store).shared) hs.keyed id))
  doubtful := fun _ _ _ hφ ↦ nomatch hφ

/-- Over moves that are answered and drop no debtor a process stays coherent. -/
theorem Coherent.run (hview : ∀ a c, view { a with modelCatalog := c } = view a)
    {store : AccountTables} (hs : Sound store) {moves : List Move}
    (ha : Along World.step (Answered view) (World.new store) moves) :
    (run World.step (World.new store) moves).Consistent ∧
      (run World.step (World.new store) moves).Coherent view :=
  run_invariant_along (P := fun w ↦ w.Consistent ∧ w.Coherent view)
    (fun _ m hw hm ↦ ⟨(hw.1.step m).2, hw.2.step hview hw.1 hm⟩) ⟨.new hs, .new hs⟩ ha

/-- What the mutations of an account change of it. -/
def recorded (a : Account) : Int × Bool × Option DisableReason × Int :=
  (a.version, a.enabled, a.disableReason, a.credentialVersion)

/-- Over any moves in which every creation, deletion and change of credentials that takes effect
is answered, and no task is dropped that owes the scheduler a change, whatever becomes of the
other calls: whenever the `mutations` lock is free and dispatch is not paused, the scheduler
has just the accounts of the store, as they were last written. -/
theorem accounts_agree {store : AccountTables} (hs : Sound store) {moves : List Move}
    (ha : Along World.step (Answered recorded) (World.new store) moves)
    (hfree : (run World.step (World.new store) moves).shared.locks.lookup .mutations = none)
    (hrunning : (run World.step (World.new store) moves).shared.sched.paused = false)
    (id : Uuid) : Agree recorded (run World.step (World.new store) moves).shared id := by
  have hview : ∀ (a : Account) c, recorded { a with modelCatalog := c } = recorded a :=
    fun _ _ ↦ rfl
  obtain ⟨h, hc⟩ := Coherent.run hview hs ha
  refine (hc.free h hfree id).resolve_left ?_
  rw [hrunning]
  exact Bool.false_ne_true

/-- The deletion of account 7 takes effect and the answer is lost: the lock is free, dispatch
goes on, and the scheduler still has the account. -/
theorem deletion_unnoticed :
    (Sample.after (Sample.store (Sample.account true none) []) (.spawn 1 (.deleteAccount 7) ::
      Sample.turns 1 (Sample.env .answered 0) 3 ++ Sample.turns 1 (Sample.env .lost 0) 1 ++
        Sample.turns 1 (Sample.env .answered 0) 9)).shared.locks.lookup .mutations = none ∧
    (Sample.after (Sample.store (Sample.account true none) []) (.spawn 1 (.deleteAccount 7) ::
      Sample.turns 1 (Sample.env .answered 0) 3 ++ Sample.turns 1 (Sample.env .lost 0) 1 ++
        Sample.turns 1 (Sample.env .answered 0) 9)).shared.sched.paused = false ∧
    ¬ Agree recorded (Sample.after (Sample.store (Sample.account true none) [])
      (.spawn 1 (.deleteAccount 7) ::
      Sample.turns 1 (Sample.env .answered 0) 3 ++ Sample.turns 1 (Sample.env .lost 0) 1 ++
        Sample.turns 1 (Sample.env .answered 0) 9)).shared 7 := by decide +kernel

/-- Account 7 is disabled and the answer is lost, and the reload makes it good. -/
theorem accounts_agree_reloaded :
    Agree recorded (Sample.after (Sample.store (Sample.account true none) [])
      (.spawn 1 (.setEnabled 7 false (some .adminDisabled)) ::
        Sample.turns 1 (Sample.env .answered 0) 3 ++ Sample.turns 1 (Sample.env .lost 0) 1 ++
          Sample.turns 1 (Sample.env .answered 0) 9)).shared 7 :=
  accounts_agree (Sample.sound rfl _) (by decide +kernel) (by decide +kernel)
    (by decide +kernel) 7

end World
end Xxgate.Accounts

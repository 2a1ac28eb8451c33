import Xxgate.Accounts.Keeps
import Xxgate.Accounts.World
import Xxgate.Scheduling.Records

/-!
# What the tasks know is so

The `mutations` lock makes one task at a time the only one that touches an account. What that
task looked up and read is still so, the scheduler has copies of what the store had, and a
row is only ever replaced by a later version of itself.
-/

namespace Xxgate.Accounts

open Xxgate.Base Xxgate.Base.FiniteMap Xxgate.Core Xxgate.Scheduling Xxgate.Store

/-! ### Rows and their copies -/

/-- What decides whether automation may enable an account. -/
def policy (a : Account) : Bool × Option DisableReason × Bool :=
  (a.enabled, a.disableReason, a.useExtraCredits)

/-- The account was like this at some time before it became like `b`. -/
structure Precedes (a b : Account) : Prop where
  version : a.version ≤ b.version
  policy : a.version = b.version → policy a = policy b

namespace Precedes

/-- An account precedes itself. -/
theorem refl (a : Account) : Precedes a a := ⟨le_rfl, fun _ ↦ rfl⟩

private theorem trans {a b c : Account} (h : Precedes a b) (h' : Precedes b c) : Precedes a c := by
  have hab := h.version
  have hbc := h'.version
  refine ⟨hab.trans hbc, fun he ↦ ?_⟩
  have hb : a.version = b.version := le_antisymm hab (he ▸ hbc)
  exact (h.policy hb).trans (h'.policy (hb.symm.trans he))

private theorem of_succ {a b : Account} (h : b.version = a.version + 1) : Precedes a b :=
  ⟨by omega, fun he ↦ by omega⟩

end Precedes

/-- A row is written: a new one, or a later version of one that is not deleted. -/
structure Puts (t t' : AccountTables) (row : AccountRow) : Prop where
  eq : t' = t.put row
  before : t.accounts.lookup row.data.id = none ∨
    ∃ old, t.live row.data.id = some old ∧ Precedes old.data row.data

/-- Every row stayed or became a later version of itself, and a deleted one stays deleted. -/
structure Grows (t t' : AccountTables) : Prop where
  rows : ∀ id row, t.accounts.lookup id = some row → ∃ row',
    t'.accounts.lookup id = some row' ∧ Precedes row.data row'.data ∧
      (row.deleted = true → row'.deleted = true)
  keyed : t.Keyed → t'.Keyed

/-- Tables with the same accounts are later ones of each other. -/
theorem Grows.of_accounts {t t' : AccountTables} (h : t'.accounts = t.accounts) : Grows t t' where
  rows := fun _ row hl ↦ ⟨row, h ▸ hl, .refl _, fun hd ↦ hd⟩
  keyed := fun hk id row hl ↦ hk id row (h ▸ hl)

private theorem Puts.grows {t t' : AccountTables} {row : AccountRow} (h : Puts t t' row) :
    Grows t t' := by
  obtain ⟨rfl, hbefore⟩ := h
  refine ⟨fun id old hl ↦ ?_, fun hk ↦ hk.put row⟩
  rw [AccountTables.lookup_put]
  split
  · next hi =>
    subst hi
    refine ⟨row, rfl, ?_⟩
    rcases hbefore with hn | ⟨old', hl', hp⟩
    · cases hn.symm.trans hl
    · obtain ⟨hl', hd⟩ := AccountTables.live_eq_some.mp hl'
      cases hl'.symm.trans hl
      exact ⟨hp, fun ht ↦ nomatch hd.symm.trans ht⟩
  · exact ⟨old, hl, .refl _, fun hd ↦ hd⟩

/-- A row that is not deleted stands under its own id. -/
theorem live_id {t : AccountTables} (hk : t.Keyed) {id : Uuid} {row : AccountRow}
    (h : t.live id = some row) : row.data.id = id :=
  hk id row (AccountTables.live_eq_some.mp h).1

/-- A transaction that changes a row puts a later version of it in its place. -/
theorem puts_of_live {t t' : AccountTables} (hk : t.Keyed) {id : Uuid} {old row : AccountRow}
    (h : t.live id = some old) (ht : t' = t.put row) (hid : row.data.id = old.data.id)
    (hp : Precedes old.data row.data) : Puts t t' row :=
  ⟨ht, .inr ⟨old, by rw [hid, live_id hk h, h], hp⟩⟩

namespace Installation

/-- What a transaction on the store comes to. -/
theorem wrote_cases {α : Type} {s s' : Installation} {outcome : Outcome}
    {transaction : Result (AccountTables × α)} {r : Result α}
    (h : s.wrote outcome transaction = some (s', r)) :
    (s' = s ∧ ∃ x, r = .error x) ∨ ∃ t a, transaction = .ok (t, a) ∧ s' = { s with store := t } ∧
      (r = .ok a ∧ outcome = .answered ∨ r = .error .storage ∧ outcome = .lost) := by
  unfold wrote at h
  rcases conclude_cases outcome s.store transaction with ⟨x, hc⟩ | ⟨t, a, ht, hc⟩
  · rw [hc] at h
    cases h
    exact .inl ⟨rfl, x, rfl⟩
  · refine .inr ⟨t, a, ht, ?_⟩
    rcases hc with ⟨hc, ho⟩ | ⟨hc, ho⟩
    · rw [hc] at h
      cases h
      exact ⟨rfl, .inl ⟨rfl, ho⟩⟩
    · rw [hc] at h
      cases h
      exact ⟨rfl, .inr ⟨rfl, ho⟩⟩

/-- An answer to a query is the value asked for. -/
theorem queried_ok {α : Type} {s s' : Installation} {outcome : Outcome} {value : Result α} {a : α}
    (h : s.queried outcome value = some (s', .ok a)) : value = .ok a := by
  unfold queried at h
  cases outcome with
  | answered =>
    cases h
    rfl
  | _ => cases h

/-- The calls that change neither the scheduler nor the store. -/
def reads : Call → Bool
  | .blockAccount _ | .updateAccount _ | .removeAccount _ | .setPaused | .putAccount ..
  | .deleteAccount _ | .updateCredentials .. | .setEnabled .. | .saveModelCatalog ..
  | .saveQuotas .. | .saveExtraCredits .. => false
  | _ => true

/-- A refresh changes what the endpoint accepts and what is on its way. -/
theorem exec_refresh {s s' : Installation} {task : Nat} {env : Env} {id : Uuid} {account : Account}
    {previous : Credentials} {r : Result Credentials}
    (h : s.exec task env (.refresh id account previous) = some (s', r)) :
    ∃ accepted posted, s' = { s with accepted := accepted, posted := posted } := by
  simp only [exec, refresh, Option.some.injEq] at h
  split at h
  · cases h
    exact ⟨s.accepted, s.posted, rfl⟩
  · split at h
    all_goals
      cases h
      exact ⟨_, _, rfl⟩

/-- A call that only reads changes neither the scheduler nor the store. -/
theorem exec_reads {s s' : Installation} {task : Nat} {env : Env} {c : Call} {r : c.Reply}
    (hc : reads c = true) (h : s.exec task env c = some (s', r)) :
    s'.sched = s.sched ∧ s'.store = s.store := by
  have hlocks : ∀ (op : LockOp Lock) {u : Unit}, s.locking task op = some (s', u) →
      s'.sched = s.sched ∧ s'.store = s.store := by
    intro op u h
    obtain ⟨locks, -, he⟩ := Option.map_eq_some_iff.mp h
    cases he
    exact ⟨rfl, rfl⟩
  cases c with
  | lock l => exact hlocks (.acquire l) h
  | unlock l => exact hlocks (.release l) h
  | releaseAll => exact hlocks .releaseAll h
  | refresh id account previous =>
    obtain ⟨accepted, posted, rfl⟩ := exec_refresh h
    exact ⟨rfl, rfl⟩
  | post | validateCredentials | consult | enter | leave | account | accounts | groups
  | storedAccounts | credentials | quotas | extraCredits =>
    cases h
    exact ⟨rfl, rfl⟩
  | _ => cases hc

/-- The rows after a call: those before, or those with one more written. -/
theorem exec_rows {s s' : Installation} {task : Nat} {env : Env} {c : Call} {r : c.Reply}
    (hk : s.store.Keyed) (h : s.exec task env c = some (s', r)) :
    s'.store.accounts = s.store.accounts ∨ ∃ row, Puts s.store s'.store row := by
  by_cases hc : reads c = true
  · exact .inl (congrArg AccountTables.accounts (exec_reads hc h).2)
  cases c with
  | blockAccount id | updateAccount account | removeAccount id | setPaused =>
    cases h
    exact .inl rfl
  | putAccount account encrypted expected =>
    rcases wrote_cases h with ⟨rfl, -⟩ | ⟨t, a, ht, rfl, -⟩
    · exact .inl rfl
    · cases expected with
      | none =>
        obtain ⟨hn, rfl, e, -, rfl⟩ := AccountTables.putAccount_create_ok ht
        exact .inr ⟨_, rfl, .inl hn⟩
      | some expected =>
        obtain ⟨row, hl, hv, rfl, rfl⟩ := AccountTables.putAccount_update_ok ht
        exact .inr ⟨_, puts_of_live hk hl rfl (live_id hk hl).symm (.of_succ (hv ▸ rfl))⟩
  | deleteAccount id =>
    rcases wrote_cases h with ⟨rfl, -⟩ | ⟨t, a, ht, rfl, -⟩
    · exact .inl rfl
    · obtain ⟨row, a, hl, rfl, rfl⟩ := AccountTables.deleteAccount_ok ht
      exact .inr ⟨_, puts_of_live hk hl rfl rfl (.of_succ rfl)⟩
  | updateCredentials id encrypted expiresAt expected =>
    rcases wrote_cases h with ⟨rfl, -⟩ | ⟨t, a, ht, rfl, -⟩
    · exact .inl rfl
    · obtain ⟨row, hl, -, rfl, rfl⟩ := AccountTables.updateCredentials_ok ht
      exact .inr ⟨_, puts_of_live hk hl rfl rfl ⟨le_rfl, fun _ ↦ rfl⟩⟩
  | setEnabled id enabled reason expected actor =>
    rcases wrote_cases h with ⟨rfl, -⟩ | ⟨t, a, ht, rfl, -⟩
    · exact .inl rfl
    · obtain ⟨row, hl, -, rfl, rfl⟩ := AccountTables.setEnabled_ok ht
      exact .inr ⟨_, puts_of_live hk hl rfl rfl (.of_succ rfl)⟩
  | saveModelCatalog id catalog =>
    rcases wrote_cases h with ⟨rfl, -⟩ | ⟨t, a, ht, rfl, -⟩
    · exact .inl rfl
    · obtain ⟨row, hl, rfl, rfl⟩ := AccountTables.saveModelCatalog_ok ht
      exact .inr ⟨_, puts_of_live hk hl rfl rfl ⟨le_rfl, fun _ ↦ rfl⟩⟩
  | saveQuotas id windows =>
    rcases wrote_cases h with ⟨rfl, -⟩ | ⟨t, a, ht, rfl, -⟩
    · exact .inl rfl
    · exact .inl (AccountTables.saveQuotas_ok ht).1
  | saveExtraCredits id credits =>
    rcases wrote_cases h with ⟨rfl, -⟩ | ⟨t, a, ht, rfl, -⟩
    · exact .inl rfl
    · exact .inl (AccountTables.saveExtraCredits_ok ht).1
  | _ => exact absurd rfl hc

private theorem exec_grows {s s' : Installation} {task : Nat} {env : Env} {c : Call} {r : c.Reply}
    (hk : s.store.Keyed) (h : s.exec task env c = some (s', r)) : Grows s.store s'.store := by
  rcases exec_rows hk h with ha | ⟨row, hp⟩
  · exact .of_accounts ha
  · exact hp.grows

end Installation

/-! ### What a task knows -/

namespace Standing

/-- Nothing is known that the `mutations` lock protects. -/
structure Blank (φ : Standing) : Prop where
  seen : φ.seen = none
  duty : φ.duty = .clear
  windows : φ.windows = none
  credits : φ.credits = none
  now : φ.now = none
  staleAfter : φ.staleAfter = none

/-- Without the lock nothing is known that it protects. -/
def Tidy (φ : Standing) : Prop := .mutations ∉ φ.held → φ.Blank

/-- A task starts tidy. -/
theorem tidy_start (job : Job) : (start job).Tidy := fun _ ↦ ⟨rfl, rfl, rfl, rfl, rfl, rfl⟩

/-- Calls in order that are made without the lock touch neither scheduler nor store. -/
theorem reads_of_free {φ : Standing} {c : Call} (h : φ.InOrder c) (hf : .mutations ∉ φ.held) :
    Installation.reads c = true := by
  cases c with
  | putAccount account encrypted expected =>
    cases expected with
    | none => exact absurd h.1 hf
    | some expected => exact absurd h.1 hf
  | blockAccount | updateAccount | removeAccount | setPaused | deleteAccount | updateCredentials
  | setEnabled | saveModelCatalog | saveQuotas | saveExtraCredits => exact absurd h.1 hf
  | _ => rfl

/-- What a call does to the locks it does to what is known of them. -/
theorem next_held (φ : Standing) (c : Call) (r : c.Reply) : (φ.next c r).held =
    (Installation.lockOp c).elim φ.held fun op ↦ op.hold φ.held := by
  cases c with
  | consult q =>
    obtain ⟨now, stale, h⟩ := next_consult φ q r
    exact (congrArg held h : _)
  | lock l | releaseAll => rfl
  | unlock l => cases l <;> rfl
  | account id =>
    show (φ.lookedUp id r).held = φ.held
    unfold lookedUp
    split
    · rfl
    · split <;> rfl
  | storedAccounts =>
    rcases r with x | accounts
    · rfl
    · simp only [next, Installation.lockOp, Option.elim_none]
      split <;> rfl
  | quotas id =>
    rcases r with x | windows
    · rfl
    · show (if _ then _ else _ : Standing).held = φ.held
      split <;> rfl
  | extraCredits id =>
    rcases r with x | credits
    · rfl
    · show (if _ then _ else _ : Standing).held = φ.held
      split <;> rfl
  | deleteAccount id =>
    show (if _ then _ else _ : Standing).held = φ.held
    split <;> rfl
  | post | refresh | validateCredentials =>
    obtain ⟨renewal, refused, h⟩ := next_renewal φ rfl r
    exact (congrArg held h : _)
  | putAccount | updateCredentials | setEnabled | saveModelCatalog =>
    rcases r with x | a <;> rfl
  | _ => rfl

/-- A call in order, or the giving back of all locks, leaves the task tidy. -/
theorem Tidy.next {φ : Standing} (h : φ.Tidy) {c : Call} (hc : φ.InOrder c ∨ c = .releaseAll)
    (r : c.Reply) : (φ.next c r).Tidy := by
  intro hf'
  rcases hc with hc | rfl
  swap
  · exact ⟨rfl, rfl, rfl, rfl, rfl, rfl⟩
  by_cases hf : .mutations ∈ φ.held
  · -- only giving the lock back takes it away
    rw [next_held] at hf'
    cases c with
    | lock l => exact absurd (Finset.mem_insert_of_mem hf) hf'
    | unlock l =>
      obtain ⟨rfl, -⟩ := hc.2.1 hf
      exact ⟨rfl, rfl, rfl, rfl, rfl, rfl⟩
    | releaseAll => cases hc
    | _ => exact absurd hf hf'
  · have hb := h hf
    cases c with
    | consult q =>
      have hq : φ.next (.consult q) r = φ := next_consult_free hf q r
      rw [hq]
      exact hb
    | unlock l =>
      cases l with
      | mutations => exact ⟨rfl, rfl, rfl, rfl, rfl, rfl⟩
      | _ => exact ⟨hb.seen, hb.duty, hb.windows, hb.credits, hb.now, hb.staleAfter⟩
    | account id =>
      show (φ.lookedUp id r).Blank
      rw [lookedUp, if_neg hf]
      split
      · exact ⟨hb.seen, hb.duty, hb.windows, hb.credits, hb.now, hb.staleAfter⟩
      · exact hb
    | storedAccounts => exact absurd hc.1 hf
    | quotas id =>
      have hq : φ.next (.quotas id) r = φ := by
        rcases r with x | windows
        · rfl
        · exact if_neg hf
      rw [hq]
      exact hb
    | extraCredits id =>
      rcases r with x | credits
      · exact ⟨hb.seen, hb.duty, hb.windows, hb.credits, hb.now, hb.staleAfter⟩
      · have hq : φ.next (.extraCredits id) (.ok credits) = φ := if_neg hf
        rw [hq]
        exact hb
    | post | refresh | validateCredentials =>
      obtain ⟨renewal, refused, hr⟩ := next_renewal φ rfl r
      rw [hr]
      exact ⟨hb.seen, hb.duty, hb.windows, hb.credits, hb.now, hb.staleAfter⟩
    | releaseAll => cases hc
    | lock | enter | leave | accounts | groups | credentials =>
      exact ⟨hb.seen, hb.duty, hb.windows, hb.credits, hb.now, hb.staleAfter⟩
    | _ => cases reads_of_free hc hf

end Standing

/-- The store has the account as it was written or read. -/
def Stored (t : AccountTables) (a : Account) : Prop :=
  ∃ row, t.live a.id = some row ∧ row.data = a

/-- What a duty says of the store is so. -/
def Duty.Holds (t : AccountTables) : Duty → Prop
  | .written a => Stored t a
  | .reloaded _ rest => ∀ a ∈ rest, Stored t a
  | .deleted id => ∃ row, t.accounts.lookup id = some row ∧ row.deleted = true
  | _ => True

/-- What a task knows is so: the account it looked up is the scheduler's, and what it read and
wrote is in the store. -/
structure Facts (s : Installation) (φ : Standing) : Prop where
  seen : ∀ q a, φ.seen = some (q, a) → s.sched.accounts.lookup q = some a
  duty : φ.duty.Holds s.store
  windows : ∀ id windows, φ.windows = some (id, windows) → s.store.quotasOf id = windows
  credits : ∀ id credits, φ.credits = some (id, credits) →
    s.store.extraCredits.lookup id = credits

/-- Duties are about rows only. -/
theorem Duty.Holds.congr {t t' : AccountTables} {d : Duty} (h : d.Holds t)
    (hr : t'.accounts = t.accounts) : d.Holds t' := by
  have hl : t'.live = t.live := by
    funext id
    simp only [AccountTables.live, hr]
  cases d with
  | written a | reloaded id rest =>
    simp only [Holds, Stored, hl]
    exact h
  | deleted id =>
    simp only [Holds, hr]
    exact h
  | _ => trivial

/-- What is left of a duty says less. -/
theorem Duty.Holds.published {t : AccountTables} {d : Duty} (h : d.Holds t) :
    d.published.Holds t := by
  unfold Duty.published
  split
  · exact fun a ha ↦ h a (List.mem_cons_of_mem _ ha)
  · trivial

/-- A row that was written and is not deleted is stored. -/
theorem stored_put (t : AccountTables) {row : AccountRow} (hd : row.deleted = false) :
    Stored (t.put row) row.data :=
  ⟨row, by rw [AccountTables.live_put, if_pos rfl, hd]; rfl, rfl⟩

/-- Where nothing is known nothing can be wrong. -/
theorem Standing.Blank.facts {φ : Standing} (h : φ.Blank) (s : Installation) : Facts s φ where
  seen := fun _ _ hs ↦ nomatch h.seen.symm.trans hs
  duty := by
    rw [h.duty]
    trivial
  windows := fun _ _ hw ↦ nomatch h.windows.symm.trans hw
  credits := fun _ _ hc ↦ nomatch h.credits.symm.trans hc

namespace Facts

variable {s s' : Installation} {φ φ' : Standing}

/-- The facts are about accounts, rows, windows and credits only. -/
theorem congr (h : Facts s φ) (ha : s'.sched.accounts = s.sched.accounts)
    (hr : s'.store.accounts = s.store.accounts) (hq : s'.store.quotas = s.store.quotas)
    (hc : s'.store.extraCredits = s.store.extraCredits) : Facts s' φ := by
  refine ⟨ha ▸ h.seen, h.duty.congr hr, fun id windows hw ↦ ?_, hc ▸ h.credits⟩
  rw [← h.windows id windows hw]
  simp only [AccountTables.quotasOf, hq]

/-- A task that knows the same is right about the same. -/
theorem of_eq (h : Facts s φ) (hs : φ'.seen = φ.seen) (hd : φ'.duty = φ.duty)
    (hw : φ'.windows = φ.windows) (hc : φ'.credits = φ.credits) : Facts s φ' where
  seen := hs ▸ h.seen
  duty := hd ▸ h.duty
  windows := hw ▸ h.windows
  credits := hc ▸ h.credits

/-- A call that only reads tells what is so. -/
theorem reads (h : Facts s φ) (hk : s.store.Keyed) {task : Nat} {env : Env} {c : Call}
    {r : c.Reply} (hc : Installation.reads c = true)
    (he : s.exec task env c = some (s', r)) : Facts s (φ.next c r) := by
  cases c with
  | consult q =>
    obtain ⟨now, stale, hq⟩ := Standing.next_consult φ q r
    have hq : φ.next (.consult q) r = { φ with now := now, staleAfter := stale } := hq
    rw [hq]
    exact h.of_eq rfl rfl rfl rfl
  | lock | enter | leave | accounts | groups | credentials => exact h.of_eq rfl rfl rfl rfl
  | unlock l =>
    cases l with
    | mutations => exact Standing.Blank.facts ⟨rfl, rfl, rfl, rfl, rfl, rfl⟩ s
    | _ => exact h.of_eq rfl rfl rfl rfl
  | releaseAll => exact Standing.Blank.facts ⟨rfl, rfl, rfl, rfl, rfl, rfl⟩ s
  | account id =>
    cases he
    show Facts s (φ.lookedUp id _)
    unfold Standing.lookedUp
    split
    · refine ⟨fun q a hs ↦ ?_, h.duty, h.windows, h.credits⟩
      obtain ⟨a', ha, hp⟩ := Option.map_eq_some_iff.mp hs
      cases hp
      exact ha
    · split
      · exact h.of_eq rfl rfl rfl rfl
      · exact h
  | storedAccounts =>
    rcases r with x | accounts
    · exact h
    · have hlist : accounts = s.store.listed := (Except.ok.inj (Installation.queried_ok he)).symm
      simp only [Standing.next]
      split
      · next id hd =>
        refine ⟨h.seen, fun a ha ↦ ?_, h.windows, h.credits⟩
        exact (AccountTables.mem_listed hk a).mp (hlist ▸ ha)
      · exact h
  | quotas id =>
    rcases r with x | windows
    · exact h
    · show Facts s (if _ then _ else _)
      split
      · refine ⟨h.seen, h.duty, fun i ws hw ↦ ?_, h.credits⟩
        cases hw
        exact Except.ok.inj (Installation.queried_ok he)
      · exact h
  | extraCredits id =>
    rcases r with x | credits
    · exact h.of_eq rfl rfl rfl rfl
    · show Facts s (if _ then _ else _)
      split
      · refine ⟨h.seen, h.duty, h.windows, fun i c hw ↦ ?_⟩
        cases hw
        exact Except.ok.inj (Installation.queried_ok he)
      · exact h
  | post | refresh | validateCredentials =>
    obtain ⟨renewal, refused, hr⟩ := φ.next_renewal rfl r
    rw [hr]
    exact h.of_eq rfl rfl rfl rfl
  | _ => cases hc

/-- The holder of the lock that writes a row knows what it wrote. -/
theorem wrote {t : AccountTables} {row : AccountRow} {failed : Duty} {r : Result Account}
    {outcome : Outcome} (h : Facts s φ) (ht : t = s.store.put row) (hd : row.deleted = false)
    (hf : failed.Holds t)
    (hr : r = .ok row.data ∧ outcome = .answered ∨ r = .error .storage ∧ outcome = .lost) :
    Facts { s with store := t } (φ.wrote failed r) := by
  subst ht
  rcases hr with ⟨rfl, -⟩ | ⟨rfl, -⟩
  · exact ⟨h.seen, stored_put s.store hd, h.windows, h.credits⟩
  · exact ⟨h.seen, hf, h.windows, h.credits⟩

/-- A call in order that changes something tells what it changed. -/
theorem writes (h : Facts s φ) (hk : s.store.Keyed) {task : Nat} {env : Env} {c : Call}
    {r : c.Reply} (hin : φ.InOrder c) (hc : Installation.reads c = false)
    (he : s.exec task env c = some (s', r)) : Facts s' (φ.next c r) := by
  have unseen : ∀ {P : Prop} (q : Uuid) (a : Account),
      (none : Option (Uuid × Account)) = some (q, a) → P := fun _ _ hs ↦ nomatch hs
  cases c with
  | blockAccount id =>
    cases he
    exact ⟨h.seen, trivial, h.windows, h.credits⟩
  | updateAccount account =>
    cases he
    exact ⟨fun q a hs ↦ unseen q a hs, h.duty.published, h.windows, h.credits⟩
  | removeAccount id =>
    cases he
    exact ⟨fun q a hs ↦ unseen q a hs, trivial, h.windows, h.credits⟩
  | setPaused =>
    cases he
    exact ⟨h.seen, trivial, h.windows, h.credits⟩
  | putAccount account encrypted expected =>
    cases expected with
    | none =>
      have hd : φ.duty = .clear := hin.2.2.1
      rcases Installation.wrote_cases he with ⟨rfl, x, rfl⟩ | ⟨t, a, ht, rfl, hr⟩
      · exact ⟨h.seen, h.duty, h.windows, h.credits⟩
      · obtain ⟨-, rfl, e, -, ht⟩ := AccountTables.putAccount_create_ok ht
        refine h.wrote ht rfl ?_ hr
        show Duty.Holds t φ.duty
        rw [hd]
        trivial
    | some expected =>
      rcases Installation.wrote_cases he with ⟨rfl, x, rfl⟩ | ⟨t, a, ht, rfl, hr⟩
      · exact ⟨h.seen, trivial, h.windows, h.credits⟩
      · obtain ⟨row, -, -, rfl, ht⟩ := AccountTables.putAccount_update_ok ht
        exact h.wrote ht rfl trivial hr
  | deleteAccount id =>
    have hd : φ.duty = .blocked id := hin.2.2.1
    rcases Installation.wrote_cases he with ⟨rfl, x, rfl⟩ | ⟨t, a, ht, rfl, hr⟩
    · exact h
    · obtain ⟨row, a', hl, ha, rfl⟩ := AccountTables.deleteAccount_ok ht
      have hid : a'.id = id := by rw [ha, live_id hk hl]
      rcases hr with ⟨rfl, -⟩ | ⟨rfl, -⟩
      · have hput := AccountTables.lookup_put s.store
          { row with data := a', deleted := true } id
        rw [if_pos hid.symm] at hput
        exact ⟨h.seen, ⟨_, hput, rfl⟩, h.windows, h.credits⟩
      · refine ⟨h.seen, ?_, h.windows, h.credits⟩
        show Duty.Holds _ φ.duty
        rw [hd]
        trivial
  | updateCredentials id encrypted expiresAt expected =>
    have hd : φ.duty = .clear := hin.2.2.1
    rcases Installation.wrote_cases he with ⟨rfl, x, rfl⟩ | ⟨t, a, ht, rfl, hr⟩
    · exact h.of_eq rfl rfl rfl rfl
    · obtain ⟨row, hl, -, rfl, rfl⟩ := AccountTables.updateCredentials_ok ht
      rcases hr with ⟨rfl, -⟩ | ⟨rfl, -⟩
      · exact ⟨h.seen, stored_put s.store (AccountTables.live_eq_some.mp hl).2, h.windows,
          h.credits⟩
      · refine ⟨h.seen, ?_, h.windows, h.credits⟩
        show Duty.Holds _ φ.duty
        rw [hd]
        trivial
  | setEnabled id enabled reason expected actor =>
    rcases Installation.wrote_cases he with ⟨rfl, x, rfl⟩ | ⟨t, a, ht, rfl, hr⟩
    · exact ⟨h.seen, trivial, h.windows, h.credits⟩
    · obtain ⟨row, hl, -, rfl, ht⟩ := AccountTables.setEnabled_ok ht
      have hw : Facts { s with store := t } (φ.wrote (.doubtful id) r) :=
        h.wrote ht (AccountTables.live_eq_some.mp hl).2 trivial hr
      exact hw.of_eq rfl rfl rfl rfl
  | saveModelCatalog id catalog =>
    have hd : φ.duty = .clear := hin.2.2
    rcases Installation.wrote_cases he with ⟨rfl, x, rfl⟩ | ⟨t, a, ht, rfl, hr⟩
    · exact h
    · obtain ⟨row, hl, rfl, ht⟩ := AccountTables.saveModelCatalog_ok ht
      refine h.wrote ht (AccountTables.live_eq_some.mp hl).2 ?_ hr
      rw [hd]
      trivial
  | saveQuotas id windows =>
    have hd : φ.duty = .clear := hin.2.2.2
    rcases Installation.wrote_cases he with ⟨rfl, x, rfl⟩ | ⟨t, a, ht, rfl, hr⟩
    · exact ⟨h.seen, h.duty, nofun, h.credits⟩
    · obtain ⟨ha, -, hx⟩ := AccountTables.saveQuotas_ok ht
      exact ⟨h.seen, h.duty.congr ha, nofun, hx ▸ h.credits⟩
  | saveExtraCredits id credits =>
    rcases Installation.wrote_cases he with ⟨rfl, x, rfl⟩ | ⟨t, a, ht, rfl, hr⟩
    · exact ⟨h.seen, h.duty, h.windows, nofun⟩
    · obtain ⟨ha, -, hq⟩ := AccountTables.saveExtraCredits_ok ht
      refine ⟨h.seen, h.duty.congr ha, fun i ws hw ↦ ?_, nofun⟩
      rw [← h.windows i ws hw]
      simp only [AccountTables.quotasOf, hq]
  | _ => cases hc

end Facts

/-! ### The scheduler's copies -/

/-- The scheduler has accounts of the store under their own ids, as the store had them at some
time, and forgot only deleted ones. -/
structure Sync (s : Installation) : Prop where
  keyed : s.store.Keyed
  filed : Filed s.sched
  copies : ∀ id a, s.sched.accounts.lookup id = some a →
    ∃ row, s.store.accounts.lookup id = some row ∧ Precedes a row.data
  gone : ∀ id ∈ s.sched.deletedAccounts,
    ∃ row, s.store.accounts.lookup id = some row ∧ row.deleted = true

namespace Sync

variable {s s' : Installation} {φ : Standing}

/-- A store that grew still has what the scheduler has copies of. -/
theorem grow (h : Sync s) {t : AccountTables} (hg : Grows s.store t) :
    Sync { s with store := t } where
  keyed := hg.keyed h.keyed
  filed := h.filed
  copies := fun id a ha ↦ by
    obtain ⟨row, hl, hp⟩ := h.copies id a ha
    obtain ⟨row', hl', hp', -⟩ := hg.rows id row hl
    exact ⟨row', hl', hp.trans hp'⟩
  gone := fun id hid ↦ by
    obtain ⟨row, hl, hd⟩ := h.gone id hid
    obtain ⟨row', hl', -, hd'⟩ := hg.rows id row hl
    exact ⟨row', hl', hd' hd⟩

/-- A scheduler with the same accounts has the same copies. -/
theorem congr (h : Sync s) {sched : State} (ha : sched.accounts = s.sched.accounts)
    (hk : sched.keys = s.sched.keys) (hd : sched.deletedAccounts = s.sched.deletedAccounts)
    (hdk : sched.deletedKeys = s.sched.deletedKeys) : Sync { s with sched := sched } where
  keyed := h.keyed
  filed := h.filed.congr ha hk hd hdk
  copies := ha ▸ h.copies
  gone := hd ▸ h.gone

/-- What was seen under an id carries it. -/
theorem seen_id (h : Sync s) (hf : Facts s φ) {q : Uuid} {a : Account}
    (hs : φ.seen = some (q, a)) : a.id = q :=
  h.filed.account (hf.seen q a hs)

/-- What was seen under or by an id is the scheduler's account of that id. -/
theorem saw (h : Sync s) (hf : Facts s φ) {id : Uuid} {a : Account} (hs : φ.Saw id a) :
    a.id = id ∧ s.sched.accounts.lookup id = some a := by
  obtain ⟨q, hq, hid⟩ := hs
  have hseen := hf.seen q a hq
  have haid := h.seen_id hf hq
  have hidq : id = q := by
    rcases hid with rfl | rfl
    · rfl
    · exact haid
  exact ⟨haid.trans hidq.symm, hidq ▸ hseen⟩

/-- An account that is published is stored, or the scheduler has it already. -/
theorem publishing (h : Sync s) (hf : Facts s φ) {a : Account}
    (hin : φ.InOrder (.updateAccount a)) :
    Stored s.store a ∨ s.sched.accounts.lookup a.id = some a := by
  have hduty := hf.duty
  obtain ⟨-, -, hd | ⟨-, ⟨id, -, hs⟩ | ⟨id, rest, hd⟩⟩⟩ := hin
  · rw [hd] at hduty
    exact .inl hduty
  · exact .inr ((h.seen_id hf hs).symm ▸ hf.seen id a hs)
  · rw [hd] at hduty
    exact .inl (hduty a List.mem_cons_self)

/-- A call in order keeps the copies right. -/
theorem exec (h : Sync s) (hf : Facts s φ) {task : Nat} {env : Env} {c : Call} {r : c.Reply}
    (hin : φ.InOrder c ∨ c = .releaseAll) (he : s.exec task env c = some (s', r)) : Sync s' := by
  by_cases hc : Installation.reads c = true
  · obtain ⟨hs, ht⟩ := Installation.exec_reads hc he
    exact ⟨ht ▸ h.keyed, hs ▸ h.filed, by rw [hs, ht]; exact h.copies,
      by rw [hs, ht]; exact h.gone⟩
  have hgrow := Installation.exec_grows h.keyed he
  cases c with
  | blockAccount | setPaused =>
    cases he
    exact h.congr rfl rfl rfl rfl
  | updateAccount account =>
    have hpub := h.publishing hf (hin.resolve_right nofun)
    cases he
    refine ⟨h.keyed, h.filed.updateAccount account, fun id a ha ↦ ?_, ?_⟩
    · change (s.sched.updateAccount account).accounts.lookup id = some a at ha
      rw [State.lookup_updateAccount] at ha
      split at ha
      · next hid =>
        cases ha
        rw [hid.1]
        rcases hpub with ⟨row, hl, hr⟩ | ha
        · exact ⟨row, (AccountTables.live_eq_some.mp hl).1, hr ▸ .refl _⟩
        · exact h.copies _ _ ha
      · exact h.copies id a ha
    · show ∀ id ∈ (s.sched.updateAccount account).deletedAccounts, _
      rw [State.deletedAccounts_updateAccount]
      exact h.gone
  | removeAccount id =>
    obtain ⟨-, -, hd⟩ := hin.resolve_right nofun
    have hgone := hf.duty
    rw [hd] at hgone
    cases he
    refine ⟨h.keyed, h.filed.removeAccount id, fun i a ha ↦ ?_, fun i hi ↦ ?_⟩
    · change (s.sched.accounts.erase id).lookup i = some a at ha
      rw [lookup_erase_ite] at ha
      split at ha
      · cases ha
      · exact h.copies i a ha
    · rcases Finset.mem_insert.mp hi with rfl | hi
      · exact hgone
      · exact h.gone i hi
  | putAccount | deleteAccount | updateCredentials | setEnabled | saveModelCatalog | saveQuotas
  | saveExtraCredits =>
    rcases Installation.wrote_cases he with ⟨rfl, -⟩ | ⟨t, a, -, rfl, -⟩
    · exact h
    · exact h.grow hgrow
  | _ => exact absurd rfl hc

end Sync
end Xxgate.Accounts

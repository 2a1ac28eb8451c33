import Xxgate.Accounts.Coherent

/-!
# Rotated refresh tokens

A token endpoint that grants a refresh accepts only the new refresh token from then on. The
refresh lock keeps the account's credentials to one task from the request to the write, and
the token in the store is the accepted one unless that task was dropped in between, or what it
was answered could not be used.
-/

namespace Xxgate.Accounts

open Xxgate.Base Xxgate.Base.FiniteMap Xxgate.Core Xxgate.Scheduling Xxgate.Store

/-- Tasks that neither create nor delete an account nor authorize one again. -/
def Job.refreshesOnly : Job → Bool
  | .createAccount _ | .deleteAccount _ | .saveCredentials .. => false
  | _ => true

/-- A refresh is settled: its answer arrives, and when it grants the refresh, `oauth::refreshed`
takes it for the account; or the request does not reach the endpoint. -/
def Env.settles (env : Env) (account : Account) (previous : Credentials) : Bool :=
  match env.refresh with
  | .answered status body => !decide (200 ≤ status ∧ status < 300) ||
      (Codex.Oauth.refreshed env.codecs (env.reply .now) status body previous account).isOk
  | .unreached _ => true
  | .unanswered _ => false

/-- The surroundings serve a task: the refresh it waits for is settled, and what it was answered
is valid. -/
def Env.serves (env : Env) (φ : Standing) : Bool :=
  match φ.renewal with
  | .idle => true
  | .posted _ previous => φ.base.all fun b ↦ env.settles b.2 previous
  | .answered _ c => (c.validate env.http).isOk

private theorem Env.settles_of_serves {env : Env} {φ : Standing} {id : Uuid} {account : Account}
    {previous : Credentials} (h : env.serves φ = true) (hposted : φ.renewal = .posted id previous)
    (hbase : φ.base = some (id, account)) : env.settles account previous = true := by
  rw [serves, hposted, hbase] at h
  exact h

/-- The refresh token in the store is the one the endpoint accepts. -/
def Usable (s : Installation) (id : Uuid) : Prop :=
  ∀ row, s.store.live id = some row →
    ∃ c, decrypt id row.credentials = .ok c ∧ s.accepted id = some c.refreshToken

/-- What the credentials of a row are. -/
def sealing (row : AccountRow) : Int × Sealed := (row.data.credentialVersion, row.credentials)

/-- A task has to tell the scheduler of new credentials of the account. -/
def Standing.Renewing (φ : Standing) (id : Uuid) : Prop :=
  (∃ a, φ.duty = .written a ∧ a.id = id) ∧ .refresh id ∈ φ.held

/-- What a task knows under a refresh lock is so, and what it was answered it can store. -/
structure Lease (s : Installation) (φ : Standing) : Prop where
  job : φ.job.refreshesOnly = true
  base : ∀ i a, φ.base = some (i, a) → .refresh i ∈ φ.held ∧
    ∃ row, s.store.live i = some row ∧ row.data.credentialVersion = a.credentialVersion
  fresh : ∀ i c, φ.renewal = .answered i c → .refresh i ∈ φ.held ∧
    s.accepted i = some c.refreshToken
  refused : φ.refused = false

namespace Installation

variable {s s' : Installation} {φ : Standing}

/-- Only a refresh changes what the endpoint accepts. -/
theorem exec_accepted {task : Nat} {env : Env} {c : Call} {r : c.Reply}
    (he : s.exec task env c = some (s', r))
    (hc : ∀ id account previous, c ≠ .refresh id account previous) :
    s'.accepted = s.accepted := by
  have hlocks : ∀ (op : LockOp Lock) {u : Unit}, s.locking task op = some (s', u) →
      s'.accepted = s.accepted := by
    intro op u h
    obtain ⟨locks, -, he⟩ := Option.map_eq_some_iff.mp h
    cases he
    rfl
  cases c with
  | lock l => exact hlocks (.acquire l) he
  | unlock l => exact hlocks (.release l) he
  | releaseAll => exact hlocks .releaseAll he
  | refresh id account previous => exact absurd rfl (hc id account previous)
  | putAccount | deleteAccount | updateCredentials | setEnabled | saveModelCatalog | saveQuotas
  | saveExtraCredits =>
    rcases wrote_cases he with ⟨rfl, -⟩ | ⟨t, a, -, rfl, -⟩
    · rfl
    · rfl
  | _ =>
    cases he
    rfl

/-- A refresh that is granted and settled gives the credentials whose token the endpoint accepts;
any other changes nothing that the endpoint accepts. Either way the request is taken up. -/
theorem refresh_cases {task : Nat} {env : Env} {id : Uuid} {account : Account}
    {previous : Credentials} {r : Result Credentials}
    (he : s.exec task env (.refresh id account previous) = some (s', r))
    (hend : env.settles account previous = true) :
    s'.posted = s.posted.erase ⟨task, id, previous.refreshToken⟩ ∧
      ((s'.accepted = s.accepted ∧ ∃ x, r = .error x) ∨
        ∃ c, r = .ok c ∧
          s'.accepted = Function.update s.accepted id (some c.refreshToken)) := by
  simp only [exec, refresh, Option.some.injEq] at he
  split at he
  · next hgone =>
    cases he
    exact ⟨(Finset.erase_eq_of_notMem hgone).symm, .inl ⟨rfl, _, rfl⟩⟩
  · unfold Env.settles at hend
    split at he
    · next status body hr =>
      rw [hr] at hend
      dsimp only at hend
      cases he
      refine ⟨rfl, ?_⟩
      unfold takenUp
      dsimp only
      have hanswered := fun status' c ↦ @Codex.Oauth.refreshed_ok env.codecs (env.reply .now)
        status' body previous c account
      by_cases haccepts : s.accepts ⟨task, id, previous.refreshToken⟩ = true
      · rw [haccepts, Bool.true_and, if_pos rfl]
        cases hfresh : Codex.Oauth.refreshed env.codecs (env.reply .now) status body previous
            account with
        | error x =>
          -- an answer that is not taken has not granted the refresh
          rw [hfresh] at hend
          refine .inl ⟨?_, x, rfl⟩
          rw [if_neg]
          intro hgranted
          rw [hgranted] at hend
          cases hend
        | ok c =>
          obtain ⟨hgranted, htoken⟩ := hanswered status c hfresh
          rw [decide_eq_true hgranted, if_pos rfl, ← htoken]
          exact .inr ⟨c, rfl, rfl⟩
      · rw [Bool.not_eq_true] at haccepts
        rw [haccepts, Bool.false_and]
        refine .inl ⟨rfl, ?_⟩
        rw [if_neg (by decide)]
        cases hfresh : Codex.Oauth.refreshed env.codecs (env.reply .now) 401 body previous
            account with
        | error x => exact ⟨x, rfl⟩
        | ok c => exact absurd (hanswered 401 c hfresh).1.2 (by decide)
    · cases he
      exact ⟨rfl, .inl ⟨rfl, _, rfl⟩⟩
    · next x hr =>
      rw [hr] at hend
      cases hend

/-- A row that is written with its credentials leaves all credentials. -/
theorem sealing_put {t : AccountTables} (hk : t.Keyed) {i : Uuid} {old row : AccountRow}
    (hold : t.live i = some old) (hid : row.data.id = old.data.id) (hd : row.deleted = false)
    (hs : sealing row = sealing old) (id : Uuid) :
    ((t.put row).live id).map sealing = (t.live id).map sealing := by
  rw [AccountTables.live_put]
  split
  · next hrow =>
    rw [hd, hrow, hid, live_id hk hold, hold]
    simp only [Bool.false_eq_true, if_false, Option.map_some, hs]
  · rfl

/-- In a task that does no more than refresh credentials, a call in order that does not write them
leaves the credentials of every account. -/
theorem exec_sealing (hs : Sync s) (hin : φ.InOrder c ∨ c = .releaseAll)
    (hjob : φ.job.refreshesOnly = true) {task : Nat} {env : Env} {r : c.Reply}
    (he : s.exec task env c = some (s', r)) (id : Uuid)
    (hc : ∀ e x v, c ≠ .updateCredentials id e x v) :
    (s'.store.live id).map sealing = (s.store.live id).map sealing := by
  have hsame : s'.store.accounts = s.store.accounts →
      (s'.store.live id).map sealing = (s.store.live id).map sealing := by
    intro ha
    unfold AccountTables.live
    rw [ha]
  cases hr : reads c with
  | true => exact hsame (congrArg AccountTables.accounts (exec_reads hr he).2)
  | false =>
    have hin := hin.resolve_right fun h ↦ by
      rw [h] at hr
      cases hr
    cases c with
    | blockAccount | updateAccount | removeAccount | setPaused =>
      cases he
      rfl
    | putAccount account encrypted expected =>
      cases expected with
      | none =>
        obtain ⟨-, -, -, -, -, ⟨input, hj⟩ | ⟨input, c, hj⟩⟩ := hin
        · rw [hj] at hjob
          cases hjob
        · rw [hj] at hjob
          cases hjob
      | some expected =>
        obtain ⟨-, -, hnone, -⟩ := hin
        rcases wrote_cases he with ⟨rfl, -⟩ | ⟨t, a, ht, rfl, -⟩
        · rfl
        · obtain ⟨row, hl, -, rfl, rfl⟩ := AccountTables.putAccount_update_ok ht
          refine sealing_put hs.keyed hl (live_id hs.keyed hl).symm rfl ?_ id
          simp only [sealing, hnone, Option.isSome_none, Bool.false_eq_true, if_false, add_zero,
            Option.getD_none]
    | deleteAccount i =>
      obtain ⟨-, -, -, -, hj⟩ := hin
      rw [hj] at hjob
      cases hjob
    | updateCredentials i encrypted expiresAt expected =>
      have hne : id ≠ i := by
        rintro rfl
        exact hc _ _ _ rfl
      rcases wrote_cases he with ⟨rfl, -⟩ | ⟨t, a, ht, rfl, -⟩
      · rfl
      · obtain ⟨row, hl, -, rfl, rfl⟩ := AccountTables.updateCredentials_ok ht
        have hid := live_id hs.keyed hl
        dsimp only
        rw [AccountTables.live_put, if_neg]
        exact fun h ↦ hne (h.trans hid)
    | setEnabled i enabled reason expected actor =>
      rcases wrote_cases he with ⟨rfl, -⟩ | ⟨t, a, ht, rfl, -⟩
      · rfl
      · obtain ⟨row, hl, -, rfl, rfl⟩ := AccountTables.setEnabled_ok ht
        have hd := (AccountTables.live_eq_some.mp hl).2
        refine sealing_put hs.keyed hl ?_ ?_ ?_ id
        · rfl
        · exact hd
        · rfl
    | saveModelCatalog i catalog =>
      rcases wrote_cases he with ⟨rfl, -⟩ | ⟨t, a, ht, rfl, -⟩
      · rfl
      · obtain ⟨row, hl, rfl, rfl⟩ := AccountTables.saveModelCatalog_ok ht
        have hd := (AccountTables.live_eq_some.mp hl).2
        refine sealing_put hs.keyed hl ?_ ?_ ?_ id
        · rfl
        · exact hd
        · rfl
    | saveQuotas i windows =>
      rcases wrote_cases he with ⟨rfl, -⟩ | ⟨t, a, ht, rfl, -⟩
      · rfl
      · exact hsame (AccountTables.saveQuotas_ok ht).1
    | saveExtraCredits i credits =>
      rcases wrote_cases he with ⟨rfl, -⟩ | ⟨t, a, ht, rfl, -⟩
      · rfl
      · exact hsame (AccountTables.saveExtraCredits_ok ht).1
    | _ => cases hr

/-- A lease says that the write of the credentials it was answered with succeeds. -/
theorem renew_succeeds (hs : Sync s) (hlease : Lease s φ) {task : Nat} {env : Env} {i : Uuid}
    {e : Sealed} {x : Option Int} {v : Int} {r : Result Account}
    (hin : φ.InOrder (.updateCredentials i e x v)) (houtcome : env.outcome = .answered)
    (he : s.exec task env (.updateCredentials i e x v) = some (s', r)) :
    ∃ c row a, φ.renewal = .answered i c ∧ e = encrypt i c ∧ .refresh i ∈ φ.held ∧
      s.store.live i = some row ∧ r = .ok a ∧ a.id = i ∧
      s' = { s with store := s.store.put { row with data := a, credentials := e } } := by
  obtain ⟨-, -, -, -, ⟨c, account, hfresh, henc, hbase, hv, hheld⟩ | ⟨input, c, hj⟩⟩ := hin
  swap
  · have hjob := hlease.job
    rw [hj] at hjob
    cases hjob
  obtain ⟨-, row, hl, hcv⟩ := hlease.base i account hbase
  have hfind : s.store.find i = .ok row := AccountTables.find_eq_ok.mpr hl
  rcases wrote_cases he with ⟨-, x', hx⟩ | ⟨t, a, ht, rfl, hr⟩
  · -- the row is there at the expected version, so that the write takes effect
    subst hx
    simp only [exec, wrote, houtcome, AccountTables.updateCredentials, hfind, bind, Except.bind,
      hcv, hv, ne_eq, not_true_eq_false, if_false, pure, Except.pure, conclude] at he
    cases he
  · obtain ⟨row', hl', -, ha, rfl⟩ := AccountTables.updateCredentials_ok ht
    cases hl.symm.trans hl'
    rcases hr with ⟨rfl, -⟩ | ⟨-, hlost⟩
    · exact ⟨c, row, a, hfresh, henc, hheld, hl, rfl, by rw [ha, live_id hs.keyed hl], rfl⟩
    · cases houtcome.symm.trans hlost

end Installation

/-! ### The scheduler knows the version of the credentials -/

section

variable {s s' : Installation} {φ : Standing} {id : Uuid}

/-- Agreement on the version of the credentials is about the scheduler and the credentials. -/
theorem Agree.of_sealing (h : Agree (·.credentialVersion) s id)
    (ha : s'.sched.accounts = s.sched.accounts)
    (hs : (s'.store.live id).map sealing = (s.store.live id).map sealing) :
    Agree (·.credentialVersion) s' id := by
  have hfst : ∀ t : AccountTables, ((t.live id).map fun row ↦ row.data.credentialVersion) =
      ((t.live id).map sealing).map Prod.fst := by
    intro t
    rw [Option.map_map]
    rfl
  unfold Agree at h ⊢
  rw [ha, h, hfst, hfst, hs]

/-- A task that wrote an account goes on to publish it. -/
theorem Standing.only_publishes {c : Call} {a : Account} (hin : φ.InOrder c)
    (hc : Installation.reads c = false) (hd : φ.duty = .written a) : c = .updateAccount a := by
  cases c with
  | updateAccount account =>
    obtain ⟨-, -, hd' | ⟨-, ⟨id, hd', -⟩ | ⟨id, rest, hd'⟩⟩⟩ := hin
    · cases hd.symm.trans hd'
      rfl
    · cases hd.symm.trans hd'
    · cases hd.symm.trans hd'
  | blockAccount | removeAccount | setPaused =>
    simp only [InOrder, hd, reduceCtorEq, false_and, and_false, exists_false] at hin
  | putAccount account encrypted expected =>
    cases expected with
    | none => cases hd.symm.trans hin.2.2.1
    | some expected =>
      obtain ⟨-, -, -, id, previous, -, hd', -⟩ := hin
      cases hd.symm.trans hd'
  | deleteAccount | updateCredentials => cases hd.symm.trans hin.2.2.1
  | setEnabled =>
    obtain ⟨-, -, account, -, -, hmay⟩ := hin
    rcases hmay.blocked with hd' | hd'
    · cases hd.symm.trans hd'
    · cases hd.symm.trans hd'
  | saveModelCatalog => cases hd.symm.trans hin.2.2
  | saveQuotas | saveExtraCredits => cases hd.symm.trans hin.2.2.2
  | _ => cases hc

/-- A task that has new credentials to tell of still has to after a call that only reads. -/
theorem Standing.Renewing.reads (h : φ.Renewing id) (ht : φ.Tidy) {task : Nat} {env : Env}
    {c : Call} {r : c.Reply} (hin : φ.InOrder c) (hc : Installation.reads c = true)
    (he : s.exec task env c = some (s', r)) : (φ.next c r).Renewing id := by
  obtain ⟨⟨a, hd, ha⟩, hheld⟩ := h
  have hmem : .mutations ∈ φ.held := by
    by_contra hn
    cases hd.symm.trans (ht hn).duty
  have hnone : Installation.lockOp c = none := by
    cases c with
    | lock l => exact absurd hmem hin.2.1
    | unlock l =>
      have hdone := (hin.2.1 hmem).2
      rw [hd] at hdone
      cases hdone
    | releaseAll => cases hin
    | _ => rfl
  refine ⟨⟨a, ?_, ha⟩, ?_⟩
  · rcases next_duty hin hc he with hn | ⟨hdone, -⟩ | ⟨i, hdoubt, -⟩
    · exact hn.trans hd
    · rw [hd] at hdone
      cases hdone
    · cases hd.symm.trans hdoubt
  · rw [next_held, hnone]
    exact hheld

/-- The scheduler knows the version of an account's credentials, or the task has to tell it. -/
theorem Agree.renewed (hs : Sync s) (hf : Facts s φ) (ht : φ.Tidy) (hlease : Lease s φ)
    {task : Nat} {env : Env} {c : Call} {r : c.Reply} (hin : φ.InOrder c)
    (houtcome : env.outcome = .answered) (he : s.exec task env c = some (s', r))
    (h : Agree (·.credentialVersion) s id ∨ φ.Renewing id) :
    Agree (·.credentialVersion) s' id ∨ (φ.next c r).Renewing id := by
  have hsealing := Installation.exec_sealing hs (.inl hin) hlease.job he id
  cases hc : Installation.reads c with
  | true =>
    obtain ⟨hsched, hstore⟩ := Installation.exec_reads hc he
    exact h.imp (·.congr (by rw [hsched]) (by rw [hstore])) (·.reads ht hin hc he)
  | false =>
    rcases h with h | ⟨⟨a, hd, rfl⟩, -⟩
    · cases c with
      | updateAccount a =>
        have hpub := hs.publishing hf hin
        cases he
        refine .inl ?_
        by_cases hid : id = a.id
        · rcases hpub with hstored | hsame
          · exact hid ▸ published_self hs hstored
          · exact h.republished hsame
        · exact h.published hid
      | removeAccount i =>
        obtain ⟨-, -, hd⟩ := hin
        have hgone := hf.duty
        rw [hd] at hgone
        obtain ⟨row, hl, hdel⟩ := hgone
        cases he
        refine .inl ?_
        by_cases hid : id = i
        · subst hid
          exact removed_self hl hdel
        · exact h.removed hid
      | updateCredentials i encrypted expiresAt expected =>
        obtain ⟨c, row, a, -, -, hheld, -, rfl, ha, rfl⟩ :=
          Installation.renew_succeeds hs hlease hin houtcome he
        by_cases hid : id = i
        · exact .inr ⟨⟨a, rfl, ha.trans hid.symm⟩, hid ▸ hheld⟩
        · refine .inl (h.of_sealing rfl (hsealing ?_))
          rintro e x v heq
          cases heq
          exact hid rfl
      | blockAccount | setPaused =>
        cases he
        exact .inl h
      | putAccount | deleteAccount | setEnabled | saveModelCatalog | saveQuotas
      | saveExtraCredits =>
        have hsched : s'.sched.accounts = s.sched.accounts := by
          rcases Installation.wrote_cases he with ⟨rfl, -⟩ | ⟨t, a, -, rfl, -⟩
          · rfl
          · rfl
        exact .inl (h.of_sealing hsched (hsealing fun _ _ _ ↦ by simp only [ne_eq, reduceCtorEq,
          not_false_eq_true]))
      | _ => cases hc
    · obtain rfl := Standing.only_publishes hin hc hd
      have hstored := hf.duty
      rw [hd] at hstored
      cases he
      exact .inl (published_self hs hstored)

/-! ### What is known under a refresh lock -/

namespace Lease

/-- A lease is about the credentials and the accepted tokens of the accounts it is for. -/
theorem congr (h : Lease s φ) (hs : ∀ i, .refresh i ∈ φ.held →
      (s'.store.live i).map sealing = (s.store.live i).map sealing)
    (ha : ∀ i, .refresh i ∈ φ.held → s'.accepted i = s.accepted i) : Lease s' φ where
  job := h.job
  base := fun i a hb ↦ by
    obtain ⟨hm, row, hl, hv⟩ := h.base i a hb
    have hlive := hs i hm
    rw [hl] at hlive
    obtain ⟨row', hl', hseal⟩ := Option.map_eq_some_iff.mp hlive
    exact ⟨hm, row', hl', (congrArg Prod.fst hseal).trans hv⟩
  fresh := fun i c hf ↦ by
    obtain ⟨hm, hacc⟩ := h.fresh i c hf
    exact ⟨hm, (ha i hm).trans hacc⟩
  refused := h.refused

/-- A task that knows the same under more refresh locks has the same lease. -/
theorem of_eq {ψ : Standing} (h : Lease s φ) (hj : ψ.job = φ.job) (hb : ψ.base = φ.base)
    (hf : ψ.renewal = φ.renewal) (hr : ψ.refused = φ.refused)
    (hh : ∀ i, .refresh i ∈ φ.held → .refresh i ∈ ψ.held) : Lease s ψ where
  job := hj ▸ h.job
  base := fun i a hba ↦ by
    obtain ⟨hm, hrow⟩ := h.base i a (hb ▸ hba)
    exact ⟨hh i hm, hrow⟩
  fresh := fun i c hfc ↦ by
    obtain ⟨hm, hc⟩ := h.fresh i c (hf ▸ hfc)
    exact ⟨hh i hm, hc⟩
  refused := hr.trans h.refused

/-- Without refresh locks there is nothing to know. -/
theorem bare (hj : φ.job.refreshesOnly = true) (hb : φ.base = none) (hf : φ.renewal = .idle)
    (hr : φ.refused = false) : Lease s φ :=
  ⟨hj, (fun _ _ h ↦ by cases hb.symm.trans h), (fun _ _ h ↦ by cases hf.symm.trans h), hr⟩

end Lease

/-- Calls that tell nothing of credentials. -/
theorem Standing.next_lease (φ : Standing) {c : Call} (r : c.Reply)
    (hlock : Installation.lockOp c = none) (hacc : ∀ i, c ≠ .account i)
    (hupd : ∀ i e x v, c ≠ .updateCredentials i e x v) (hnew : c.isRenewal = false) :
    (φ.next c r).job = φ.job ∧ (φ.next c r).base = φ.base ∧ (φ.next c r).renewal = φ.renewal ∧
      (φ.next c r).refused = φ.refused := by
  cases c with
  | consult q =>
    obtain ⟨now, stale, hq⟩ := next_consult φ q r
    have hq : φ.next (.consult q) r = { φ with now := now, staleAfter := stale } := hq
    rw [hq]
    exact ⟨rfl, rfl, rfl, rfl⟩
  | lock | unlock | releaseAll => cases hlock
  | account i => exact absurd rfl (hacc i)
  | updateCredentials i e x v => exact absurd rfl (hupd i e x v)
  | post | refresh | validateCredentials => cases hnew
  | storedAccounts =>
    rcases r with x | accounts
    · exact ⟨rfl, rfl, rfl, rfl⟩
    · simp only [next]
      split
      · exact ⟨rfl, rfl, rfl, rfl⟩
      · exact ⟨rfl, rfl, rfl, rfl⟩
  | quotas id | extraCredits id =>
    rcases r with x | a
    · exact ⟨rfl, rfl, rfl, rfl⟩
    · simp only [next]
      split
      · exact ⟨rfl, rfl, rfl, rfl⟩
      · exact ⟨rfl, rfl, rfl, rfl⟩
  | deleteAccount id =>
    simp only [next]
    split
    · exact ⟨rfl, rfl, rfl, rfl⟩
    · exact ⟨rfl, rfl, rfl, rfl⟩
  | putAccount | setEnabled | saveModelCatalog =>
    rcases r with x | a
    · exact ⟨rfl, rfl, rfl, rfl⟩
    · exact ⟨rfl, rfl, rfl, rfl⟩
  | _ => exact ⟨rfl, rfl, rfl, rfl⟩

/-- A call in order keeps the caller's lease, when an account it looks up under its refresh lock
is at the version of the credentials in the store. -/
theorem Lease.exec (hs : Sync s) (h : Lease s φ) {task : Nat} {env : Env} {c : Call}
    {r : c.Reply} (hin : φ.InOrder c ∨ c = .releaseAll) (houtcome : env.outcome = .answered)
    (hserves : φ.InOrder c → env.serves φ = true) (he : s.exec task env c = some (s', r))
    (hagree : ∀ i, c = .account i → .refresh i ∈ φ.held → Agree (·.credentialVersion) s i) :
    Lease s' (φ.next c r) := by
  have hcongr (hupd : ∀ i e x v, c ≠ .updateCredentials i e x v) (hacc : s'.accepted = s.accepted) :
      Lease s' φ :=
    h.congr (fun i _ ↦ Installation.exec_sealing hs hin h.job he i (hupd i))
      fun i _ ↦ congrFun hacc i
  have hkept (hc : c.isRenewal = false) : s'.accepted = s.accepted := by
    refine Installation.exec_accepted he ?_
    rintro i account previous rfl
    cases hc
  cases c with
  | releaseAll => exact .bare h.job rfl rfl rfl
  | lock l =>
    refine (hcongr (fun _ _ _ _ h ↦ by cases h) (hkept rfl)).of_eq rfl rfl rfl rfl fun i hi ↦ ?_
    exact Finset.mem_insert_of_mem hi
  | unlock l =>
    have hlease : Lease s' φ := hcongr (fun _ _ _ _ h ↦ by cases h) (hkept rfl)
    cases l with
    | mutations =>
      exact hlease.of_eq rfl rfl rfl rfl fun i hi ↦ Finset.mem_erase.mpr ⟨by rintro ⟨⟩, hi⟩
    | modelSync j =>
      exact hlease.of_eq rfl rfl rfl rfl fun i hi ↦ Finset.mem_erase.mpr ⟨by rintro ⟨⟩, hi⟩
    | refresh j => exact .bare h.job rfl rfl rfl
  | account i =>
    have hc : Lease s' φ := hcongr (fun _ _ _ _ h ↦ by cases h) (hkept rfl)
    cases he
    show Lease s (φ.lookedUp i _)
    unfold Standing.lookedUp
    split
    · exact hc.of_eq rfl rfl rfl rfl fun _ hi ↦ hi
    · split
      · next hheld =>
        refine ⟨h.job, fun j a hb ↦ ?_, h.fresh, h.refused⟩
        obtain ⟨a', ha, hp⟩ := Option.map_eq_some_iff.mp hb
        cases hp
        have hag := hagree i rfl hheld
        rw [Agree, ha] at hag
        obtain ⟨row, hl, hv⟩ := Option.map_eq_some_iff.mp hag.symm
        exact ⟨hheld, row, hl, hv⟩
      · exact hc
  | updateCredentials i e x v =>
    obtain ⟨c, row, a, -, -, -, -, rfl, -, -⟩ :=
      Installation.renew_succeeds hs h (hin.resolve_right (by rintro ⟨⟩)) houtcome he
    exact .bare h.job rfl rfl h.refused
  | post i previous =>
    cases he
    exact ⟨h.job, h.base, fun _ _ hf ↦ (by cases hf), h.refused⟩
  | refresh i account previous =>
    obtain ⟨hheld, hfree, hposted, hbase⟩ := hin.resolve_right (by rintro ⟨⟩)
    have hsettles := Env.settles_of_serves (hserves ⟨hheld, hfree, hposted, hbase⟩) hposted hbase
    have hstore : s'.store = s.store := (Installation.exec_reads rfl he).2
    obtain ⟨-, ⟨hacc, x, rfl⟩ | ⟨c, rfl, hacc⟩⟩ := Installation.refresh_cases he hsettles
    · exact ⟨h.job, hstore ▸ h.base, fun _ _ hf ↦ (by cases hf), h.refused⟩
    · refine ⟨h.job, hstore ▸ h.base, fun j c' hf ↦ ?_, h.refused⟩
      cases hf
      exact ⟨hheld, by rw [hacc]; exact Function.update_self _ _ _⟩
  | validateCredentials c =>
    cases he
    -- what it was answered is valid, so that nothing is refused
    have hnext : φ.next (.validateCredentials c) (c.validate env.http) = φ := by
      rcases hin.resolve_right (by rintro ⟨⟩) with ⟨i, hanswered⟩ | ⟨hidle, -⟩
      · have hserves := hserves (.inl ⟨i, hanswered⟩)
        rw [Env.serves, hanswered] at hserves
        dsimp only at hserves
        cases hv : c.validate env.http with
        | ok u => rfl
        | error x =>
          rw [hv] at hserves
          cases hserves
      · cases c.validate env.http with
        | ok u => rfl
        | error x => exact if_pos hidle
    rw [hnext]
    exact h
  | _ =>
    obtain ⟨hj, hb, hf, hr⟩ := φ.next_lease r rfl (fun _ h ↦ by cases h)
      (fun _ _ _ _ h ↦ by cases h) rfl
    have hlease : Lease s' φ := hcongr (fun _ _ _ _ h ↦ by cases h) (hkept rfl)
    refine hlease.of_eq hj hb hf hr fun i hi ↦ ?_
    rw [Standing.next_held]
    exact hi

/-- A call of another task leaves a lease alone. -/
theorem Lease.other (hs : Sync s) {ψ : Standing} (hψ : Lease s ψ) (h : Lease s φ)
    (hne : ∀ i, .refresh i ∈ φ.held → .refresh i ∉ ψ.held) {task : Nat} {env : Env} {c : Call}
    {r : c.Reply} (hin : φ.InOrder c ∨ c = .releaseAll) (houtcome : env.outcome = .answered)
    (hserves : φ.InOrder c → env.serves φ = true) (he : s.exec task env c = some (s', r)) :
    Lease s' ψ := by
  refine hψ.congr (fun i hi ↦ ?_) fun i hi ↦ ?_
  · refine Installation.exec_sealing hs hin h.job he i ?_
    rintro e x v rfl
    obtain ⟨_, _, _, -, -, hheld, -⟩ :=
      Installation.renew_succeeds hs h (hin.resolve_right (by rintro ⟨⟩)) houtcome he
    exact hne i hheld hi
  · by_cases hc : ∃ j account previous, c = .refresh j account previous
    · obtain ⟨j, account, previous, rfl⟩ := hc
      obtain ⟨hheld, hfree, hposted, hbase⟩ := hin.resolve_right (by rintro ⟨⟩)
      have hij : i ≠ j := by
        rintro rfl
        exact hne i hheld hi
      have hsettles := Env.settles_of_serves (hserves ⟨hheld, hfree, hposted, hbase⟩) hposted hbase
      obtain ⟨-, ⟨hacc, -⟩ | ⟨c, -, hacc⟩⟩ := Installation.refresh_cases he hsettles
      · rw [hacc]
      · rw [hacc]
        exact Function.update_of_ne hij _ _
    · refine congrFun (Installation.exec_accepted he fun j account previous hj ↦ ?_) i
      exact hc ⟨j, account, previous, hj⟩

/-! ### The token in the store -/

namespace Usable

/-- The token is as good as it was while the credentials and the accepted token stay. -/
theorem congr (h : Usable s id)
    (hs : (s'.store.live id).map sealing = (s.store.live id).map sealing)
    (ha : s'.accepted id = s.accepted id) : Usable s' id := by
  intro row' hl'
  rw [hl'] at hs
  obtain ⟨row, hl, hseal⟩ := Option.map_eq_some_iff.mp hs.symm
  obtain ⟨c, hd, hacc⟩ := h row hl
  have hcred : row.credentials = row'.credentials := congrArg Prod.snd hseal
  exact ⟨c, hcred ▸ hd, ha.trans hacc⟩

/-- The accepted token is in the store, or the task has it and goes on to store it. -/
theorem exec (hs : Sync s) (hlease : Lease s φ) {task : Nat} {env : Env} {c : Call} {r : c.Reply}
    (hin : φ.InOrder c) (houtcome : env.outcome = .answered) (hserves : env.serves φ = true)
    (he : s.exec task env c = some (s', r))
    (h : Usable s id ∨ ∃ c, φ.renewal = .answered id c) :
    Usable s' id ∨ ∃ c', (φ.next c r).renewal = .answered id c' := by
  have hsealing := Installation.exec_sealing hs (.inl hin) hlease.job he id
  have hcongr (hupd : ∀ e x v, c ≠ .updateCredentials id e x v) (hc : c.isRenewal = false) :
      Usable s id → Usable s' id := by
    refine (·.congr (hsealing hupd) (congrFun (Installation.exec_accepted he ?_) id))
    rintro i account previous rfl
    cases hc
  cases c with
  | lock l => exact h.imp_left (hcongr (fun _ _ _ h ↦ by cases h) rfl)
  | unlock l =>
    have hstays : Usable s id → Usable s' id := hcongr (fun _ _ _ h ↦ by cases h) rfl
    cases l with
    | mutations | modelSync j => exact h.imp_left hstays
    | refresh j =>
      -- what the task was answered it could store, so that it does not give the lock back
      rcases h with h | ⟨c, hf⟩
      · exact .inl (hstays h)
      · rcases hin.2.2 j rfl with hidle | hrefused
        · cases hf.symm.trans hidle
        · cases hlease.refused.symm.trans hrefused
  | releaseAll => cases hin
  | account i =>
    cases he
    refine h.imp_right ?_
    show (∃ c, φ.renewal = .answered id c) → ∃ c', (φ.lookedUp i _).renewal = .answered id c'
    unfold Standing.lookedUp
    split
    · exact fun h ↦ h
    · split
      · exact fun h ↦ h
      · exact fun h ↦ h
  | post i previous =>
    obtain ⟨-, -, hidle, -⟩ := hin
    have h := h.resolve_right fun ⟨c, hf⟩ ↦ by cases hidle.symm.trans hf
    cases he
    exact .inl h
  | refresh i account previous =>
    obtain ⟨-, -, hposted, hbase⟩ := hin
    have h := h.resolve_right fun ⟨c, hf⟩ ↦ by cases hposted.symm.trans hf
    have hsettles := Env.settles_of_serves hserves hposted hbase
    have hlive := hsealing fun _ _ _ h ↦ by cases h
    obtain ⟨-, ⟨hacc, -⟩ | ⟨c, rfl, hacc⟩⟩ := Installation.refresh_cases he hsettles
    · exact .inl (h.congr hlive (congrFun hacc id))
    · by_cases hid : id = i
      · exact .inr ⟨c, hid ▸ rfl⟩
      · exact .inl (h.congr hlive (by rw [hacc]; exact Function.update_of_ne hid _ _))
  | validateCredentials c =>
    cases he
    refine h.imp_right fun ⟨c', hf⟩ ↦ ⟨c', ?_⟩
    cases c.validate env.http with
    | ok u => exact hf
    | error x =>
      have hnext : (φ.next (.validateCredentials c) (.error x)).renewal = φ.renewal := by
        show (if _ then _ else _ : Standing).renewal = φ.renewal
        split <;> rfl
      exact hnext.trans hf
  | updateCredentials i e x v =>
    obtain ⟨c, row, a, hfresh, rfl, -, hl, rfl, ha, rfl⟩ :=
      Installation.renew_succeeds hs hlease hin houtcome he
    refine .inl ?_
    by_cases hid : id = i
    · subst hid
      intro row' hl'
      change (s.store.put _).live id = some row' at hl'
      rw [AccountTables.live_put, if_pos ha.symm, (AccountTables.live_eq_some.mp hl).2] at hl'
      cases hl'
      exact ⟨c, if_pos rfl, (hlease.fresh id c hfresh).2⟩
    · have h := h.resolve_right fun ⟨c', hf⟩ ↦ by
        cases hfresh.symm.trans hf
        exact hid rfl
      refine h.congr (hsealing ?_) rfl
      rintro e' x' v' heq
      cases heq
      exact hid rfl
  | _ =>
    obtain ⟨-, -, hf, -⟩ := φ.next_lease r rfl (fun _ h ↦ by cases h)
      (fun _ _ _ _ h ↦ by cases h) rfl
    rw [hf]
    exact h.imp_left (hcongr (fun _ _ _ h ↦ by cases h) rfl)

end Usable

/-! ### Requests on their way -/

/-- Only a refresh request that a task posts is on its way, until it is taken up. -/
theorem Installation.exec_posted {task : Nat} {env : Env} {c : Call} {r : c.Reply}
    (he : s.exec task env c = some (s', r)) (hpost : ∀ i p, c ≠ .post i p)
    (hrefresh : ∀ i a p, c ≠ .refresh i a p) : s'.posted = s.posted := by
  have hlocks : ∀ (op : LockOp Lock) {u : Unit}, s.locking task op = some (s', u) →
      s'.posted = s.posted := by
    intro op u h
    obtain ⟨locks, -, he⟩ := Option.map_eq_some_iff.mp h
    cases he
    rfl
  cases c with
  | lock l => exact hlocks (.acquire l) he
  | unlock l => exact hlocks (.release l) he
  | releaseAll => exact hlocks .releaseAll he
  | post i p => exact absurd rfl (hpost i p)
  | refresh i a p => exact absurd rfl (hrefresh i a p)
  | putAccount | deleteAccount | updateCredentials | setEnabled | saveModelCatalog | saveQuotas
  | saveExtraCredits =>
    rcases wrote_cases he with ⟨rfl, -⟩ | ⟨t, a, -, rfl, -⟩
    · rfl
    · rfl
  | _ =>
    cases he
    rfl

/-- A task that waits for an answer goes on to wait for it. -/
theorem Standing.next_posted {c : Call} {r : c.Reply} {i : Uuid} {previous : Credentials}
    (hin : φ.InOrder c) (hposted : φ.renewal = .posted i previous) (hlease : Lease s φ)
    (hc : ∀ account, c ≠ .refresh i account previous) :
    (φ.next c r).renewal = .posted i previous := by
  cases c with
  | lock l => exact hposted
  | unlock l =>
    cases l with
    | mutations | modelSync j => exact hposted
    | refresh j =>
      rcases hin.2.2 j rfl with hidle | hrefused
      · cases hposted.symm.trans hidle
      · cases hlease.refused.symm.trans hrefused
  | releaseAll => cases hin
  | account j =>
    show (φ.lookedUp j _).renewal = _
    unfold Standing.lookedUp
    split
    · exact hposted
    · split
      · exact hposted
      · exact hposted
  | post j p => cases hposted.symm.trans hin.2.2.1
  | refresh j account p =>
    cases hposted.symm.trans hin.2.2.1
    exact absurd rfl (hc account)
  | validateCredentials credentials =>
    rcases hin with ⟨j, hanswered⟩ | ⟨hidle, -⟩
    · cases hposted.symm.trans hanswered
    · cases hposted.symm.trans hidle
  | updateCredentials j e x v =>
    obtain ⟨-, -, -, -, ⟨c, account, hanswered, -⟩ | ⟨input, c, hjob⟩⟩ := hin
    · cases hposted.symm.trans hanswered
    · have hrefreshes := hlease.job
      rw [hjob] at hrefreshes
      cases hrefreshes
  | _ =>
    obtain ⟨-, -, hrenewal, -⟩ := φ.next_lease r rfl (fun _ h ↦ by cases h)
      (fun _ _ _ _ h ↦ by cases h) rfl
    exact hrenewal.trans hposted

end

/-! ### Refreshes over runs -/

namespace World

variable {w w' : World}

/-- Requests, refreshes and their disconnects: every store call is answered; every refresh that a
task waits for is settled, with an answer it can use and nowhere else; no task is dropped between
the sending of a refresh request and the publication of the account with the new credentials; and
no process is ended between the sending and the storing of them. -/
structure Unbroken (w : World) (m : Move) : Prop where
  jobs : ∀ job ∈ m.spawned, job.refreshesOnly = true
  answered : ∀ e ∈ m.surroundings, e.2.outcome = .answered ∧
    ∀ φ ∈ w.active e.1, e.2.serves φ = true
  dropped : ∀ task ∈ m.dropped, ∀ φ ∈ w.active task,
    φ.renewal = .idle ∧ ∀ id ∈ φ.duty.changed, Agree (·.credentialVersion) w.shared id
  ended : m.restarts = true → ∀ task ∈ w.tasks.keys, ∀ φ ∈ w.active task, φ.renewal = .idle
  arrives : ∀ request ∈ m.takenUp, ∀ φ ∈ w.active request.task, φ.renewal.waits = false

instance (w : World) (m : Move) : Decidable (Unbroken w m) :=
  decidable_of_iff
    ((∀ job ∈ m.spawned, job.refreshesOnly = true) ∧
      (∀ e ∈ m.surroundings, e.2.outcome = .answered ∧ ∀ φ ∈ w.active e.1, e.2.serves φ = true) ∧
      (∀ task ∈ m.dropped, ∀ φ ∈ w.active task,
        φ.renewal = .idle ∧ ∀ id ∈ φ.duty.changed, Agree (·.credentialVersion) w.shared id) ∧
      (m.restarts = true → ∀ task ∈ w.tasks.keys, ∀ φ ∈ w.active task, φ.renewal = .idle) ∧
      (∀ request ∈ m.takenUp, ∀ φ ∈ w.active request.task, φ.renewal.waits = false))
    ⟨fun h ↦ ⟨h.1, h.2.1, h.2.2.1, h.2.2.2.1, h.2.2.2.2⟩,
      fun h ↦ ⟨h.jobs, h.answered, h.dropped, h.ended, h.arrives⟩⟩

/-- A task waits for the answer to a request. -/
def Awaited (w : World) (request : RefreshRequest) : Prop :=
  ∃ φ previous, w.active request.task = some φ ∧
    φ.renewal = .posted request.accountId previous ∧ previous.refreshToken = request.token

/-- What the tasks know under refresh locks is so, each account's credentials are those the
scheduler knows and the endpoint accepts, or in the hands of a task at work, and every request on
its way is waited for. -/
structure Rotating (w : World) : Prop where
  lease : ∀ task φ, w.standing task = some φ → Lease w.shared φ
  agree : ∀ id, w.Covered monitor Standing.start (Agree (·.credentialVersion)) Standing.Renewing id
  usable : ∀ id, w.Covered monitor Standing.start Usable
    (fun φ id ↦ ∃ c, φ.renewal = .answered id c) id
  awaited : ∀ request ∈ w.shared.posted, w.Awaited request

/-- Under its refresh lock a task sees the version of the credentials. -/
theorem Rotating.seen (hr : w.Rotating) (h : w.Consistent) {task : Nat} {φ : Standing}
    (hφ : w.standing task = some φ) (hclear : φ.duty = .clear) {i : Uuid}
    (hheld : .refresh i ∈ φ.held) : Agree (·.credentialVersion) w.shared i := by
  refine (hr.agree i).resolve_right ?_
  rintro ⟨j, ψ, hψ, ⟨a, hd, -⟩, hm⟩
  have hψ := Pool.phase_of_active hψ
  obtain rfl : j = task := h.owned.unique (l := locking) hψ hm hφ hheld
  cases hφ.symm.trans hψ
  cases hclear.symm.trans hd

/-- The endpoint takes up no request that is not waited for. -/
theorem Rotating.takenUp (hr : w.Rotating) {request : RefreshRequest} {status : Nat}
    {body : Option Json} (hm : w.Unbroken (.change (.takeUp request status body))) :
    (w.shared.takenUp request status body).accepted = w.shared.accepted := by
  have hgone : request ∉ w.shared.posted := by
    intro hposted
    obtain ⟨φ, previous, hφ, hwaits, -⟩ := hr.awaited request hposted
    have hnot := hm.arrives request rfl φ hφ
    rw [hwaits] at hnot
    cases hnot
  refine if_neg ?_
  unfold Installation.accepts
  rw [decide_eq_false hgone, Bool.false_and, Bool.false_and]
  exact Bool.false_ne_true

/-- An unbroken move keeps every lease. -/
theorem Rotating.lease_step (hr : w.Rotating) (h : w.Consistent) {m : Move} (hm : w.Unbroken m)
    (ht : w.Transition m w') : ∀ task φ, w'.standing task = some φ → Lease w'.shared φ := by
  intro task φ hφ
  cases ht with
  | idle => exact hr.lease task φ hφ
  | @spawned i job new =>
    rw [standing_insert] at hφ
    split at hφ
    · cases hφ
      exact .bare (hm.jobs job rfl) rfl rfl rfl
    · exact hr.lease task φ hφ
  | @called i env job t t' c r shared here inOrder performed trace result =>
    have hmade := Consistent.made here inOrder performed
    have hlease := hr.lease i _ hmade.standing
    obtain ⟨houtcome, hserves⟩ := hm.answered (i, env) rfl
    have hserves : (monitor.phase (.start job) t.trace).InOrder c →
        env.serves (monitor.phase (.start job) t.trace) = true := by
      intro hin
      rcases inOrder with ⟨hnone, -⟩ | ⟨-, s, hclosing⟩
      · exact hserves _ (Pool.active_eq_some.mpr ⟨job, t, here, hnone, rfl⟩)
      · cases (hclosing : c = .releaseAll)
        cases hin
    rw [standing_insert, phase_cons trace] at hφ
    split at hφ
    · cases hφ
      refine hlease.exec h.sync hmade.inOrder houtcome hserves performed ?_
      rintro j rfl hheld
      exact hr.seen h hmade.standing (hmade.inOrder.resolve_right (by rintro ⟨⟩)).1 hheld
    · next hne =>
      refine (hr.lease task φ hφ).other h.sync hlease (fun j hj hj' ↦ hne ?_) hmade.inOrder
        houtcome hserves performed
      exact h.owned.unique (l := locking) hφ hj' hmade.standing hj
  | @moved i d job t t' here trace stays leaves =>
    rw [standing_insert, trace] at hφ
    split at hφ
    · cases hφ
      exact hr.lease i _ (standing_of_lookup here)
    · exact hr.lease task φ hφ
  | changed a =>
    cases a with
    | restart => cases hφ
    | pause | groups => exact (hr.lease task φ hφ).congr (fun _ _ ↦ rfl) fun _ _ ↦ rfl
    | takeUp =>
      exact (hr.lease task φ hφ).congr (fun _ _ ↦ rfl) fun i _ ↦ congrFun (hr.takenUp hm) i

/-- What becomes of a task leaves the requests of others waited for. -/
theorem Awaited.insert {request : RefreshRequest} {i : Nat} {job : Job}
    {t : Task Unit Call Call.Reply Empty Error Unit} {shared : Installation}
    (hne : request.task ≠ i) (h : w.Awaited request) :
    Awaited ⟨shared, w.tasks.insert i (job, t)⟩ request := by
  obtain ⟨φ, previous, hφ, hrest⟩ := h
  exact ⟨φ, previous, (Pool.active_insert shared).mpr (by rw [if_neg hne]; exact hφ), hrest⟩

/-- A task that waits for a request has no result. -/
theorem Awaited.at_work {request : RefreshRequest} {job : Job}
    {t : Task Unit Call Call.Reply Empty Error Unit}
    (here : w.tasks.lookup request.task = some (job, t)) (h : w.Awaited request) :
    t.result = none := by
  obtain ⟨φ, previous, hφ, -⟩ := h
  obtain ⟨job', t', here', hnone, -⟩ := Pool.active_eq_some.mp hφ
  cases here.symm.trans here'
  exact hnone

/-- A call of a task at work leaves every request on its way waited for, and posts its own. -/
theorem Rotating.awaited_call (hr : w.Rotating) {i : Nat} {env : Env}
    (hm : w.Unbroken (.drive i (.perform env))) {job : Job}
    {t t' : Task Unit Call Call.Reply Empty Error Unit} {c : Call} {r : c.Reply}
    {shared : Installation} (here : w.tasks.lookup i = some (job, t)) (hnone : t.result = none)
    (hin : (monitor.phase (.start job) t.trace).InOrder c)
    (performed : w.shared.exec i env c = some (shared, r))
    (trace : t'.trace = ⟨c, r⟩ :: t.trace) (result : t'.result = t.result)
    {request : RefreshRequest} (hposted : request ∈ shared.posted) :
    Awaited ⟨shared, w.tasks.insert i (job, t')⟩ request := by
  have hactive : w.active i = some (monitor.phase (.start job) t.trace) :=
    Pool.active_eq_some.mpr ⟨job, t, here, hnone, rfl⟩
  have hlease := hr.lease i _ (Pool.phase_of_active hactive)
  -- the task waits for what is its own
  have hown : ∀ {previous : Credentials},
      ((monitor.phase (.start job) t.trace).next c r).renewal =
        .posted request.accountId previous → previous.refreshToken = request.token →
      request.task = i → Awaited ⟨shared, w.tasks.insert i (job, t')⟩ request := by
    rintro previous hwaits htoken rfl
    refine ⟨_, previous, (Pool.active_insert shared).mpr ?_, hwaits, htoken⟩
    rw [if_pos rfl, phase_cons trace]
    exact ⟨result.trans hnone, rfl⟩
  have hwaits : w.Awaited request → request.task = i → ∃ previous,
      (monitor.phase (.start job) t.trace).renewal = .posted request.accountId previous ∧
        previous.refreshToken = request.token := by
    rintro ⟨φ, previous, hφ, hwaits⟩ htask
    rw [htask] at hφ
    rw [Option.some.inj (hφ.symm.trans hactive)] at hwaits
    exact ⟨previous, hwaits⟩
  by_cases hpost : ∃ j p, c = .post j p
  · obtain ⟨j, p, rfl⟩ := hpost
    cases performed
    rcases Finset.mem_insert.mp hposted with rfl | hold
    · exact hown rfl rfl rfl
    · have hawaited := hr.awaited request hold
      refine hawaited.insert fun htask ↦ ?_
      obtain ⟨previous, hposted, -⟩ := hwaits hawaited htask
      cases hposted.symm.trans hin.2.2.1
  by_cases hrefresh : ∃ j a p, c = .refresh j a p
  · obtain ⟨j, a, p, rfl⟩ := hrefresh
    obtain ⟨-, -, hwaiting, hbase⟩ := hin
    have hserves := (hm.answered (i, env) rfl).2 _ hactive
    obtain ⟨herase, -⟩ := Installation.refresh_cases performed
      (Env.settles_of_serves hserves hwaiting hbase)
    have hold : request ∈ w.shared.posted.erase ⟨i, j, p.refreshToken⟩ := herase ▸ hposted
    obtain ⟨hne, hold⟩ := Finset.mem_erase.mp hold
    have hawaited := hr.awaited request hold
    refine hawaited.insert fun htask ↦ ?_
    obtain ⟨previous, hposted, htoken⟩ := hwaits hawaited htask
    cases hposted.symm.trans hwaiting
    cases request
    cases htask
    cases htoken
    exact hne rfl
  · have hkept : shared.posted = w.shared.posted := by
      refine Installation.exec_posted performed (fun j p h ↦ hpost ⟨j, p, h⟩) ?_
      exact fun j a p h ↦ hrefresh ⟨j, a, p, h⟩
    have hawaited := hr.awaited request (hkept ▸ hposted)
    by_cases htask : request.task = i
    · obtain ⟨previous, hposted, htoken⟩ := hwaits hawaited htask
      refine hown (Standing.next_posted hin hposted hlease fun a h ↦ ?_) htoken htask
      exact hrefresh ⟨_, a, _, h⟩
    · exact hawaited.insert htask

/-- After an unbroken move every request on its way is waited for. -/
theorem Rotating.awaited_step (hr : w.Rotating) {m : Move} (hm : w.Unbroken m)
    (ht : w.Transition m w') : ∀ request ∈ w'.shared.posted, w'.Awaited request := by
  intro request hposted
  cases ht with
  | idle => exact hr.awaited request hposted
  | @spawned i job new =>
    have hawaited := hr.awaited request hposted
    refine hawaited.insert ?_
    rintro rfl
    obtain ⟨φ, previous, hφ, -⟩ := hawaited
    obtain ⟨job', t', here, -⟩ := Pool.active_eq_some.mp hφ
    cases new.symm.trans here
  | @called i env job t t' c r shared here inOrder performed trace result =>
    rcases inOrder with ⟨hnone, _, hin⟩ | ⟨hover, _, hclosing⟩
    · exact hr.awaited_call hm here hnone hin performed trace result hposted
    · -- an epilogue posts nothing, and its task waits for nothing
      cases (hclosing : c = .releaseAll)
      have performed : w.shared.exec i env .releaseAll = some (shared, r) := performed
      have hsame : shared.posted = w.shared.posted :=
        Installation.exec_posted performed (fun _ _ h ↦ by cases h) fun _ _ _ h ↦ by cases h
      have hawaited := hr.awaited request (hsame ▸ hposted)
      refine hawaited.insert ?_
      rintro rfl
      rw [hawaited.at_work here] at hover
      cases hover
  | @moved i d job t t' here trace stays leaves =>
    have hawaited := hr.awaited request hposted
    by_cases htask : request.task = i
    · subst htask
      have hnone := hawaited.at_work here
      obtain ⟨φ, previous, hφ, hwaits, htoken⟩ := hawaited
      refine ⟨φ, previous, (Pool.active_insert _).mpr ?_, hwaits, htoken⟩
      obtain ⟨job', t₁, here', -, hphase⟩ := Pool.active_eq_some.mp hφ
      cases here.symm.trans here'
      rw [if_pos rfl, trace]
      refine ⟨?_, hphase⟩
      -- it neither ends nor is dropped while it waits
      cases hresult : t'.result with
      | none => rfl
      | some x =>
        rcases leaves x hresult with hsome | ⟨y, rfl⟩ | hexit
        · cases hnone.symm.trans hsome
        · cases hwaits.symm.trans (hm.dropped _ rfl φ hφ).1
        · rw [hphase] at hexit
          cases hwaits.symm.trans hexit.2
    · exact hawaited.insert htask
  | changed a =>
    cases a with
    | restart =>
      obtain ⟨φ, previous, hφ, hwaits, -⟩ := hr.awaited request hposted
      obtain ⟨job, t, hl, -⟩ := Pool.active_eq_some.mp hφ
      have hkey : request.task ∈ w.tasks.keys := AList.mem_keys.mpr
        (AList.lookup_isSome.mp (by rw [hl]; rfl))
      cases hwaits.symm.trans (hm.ended rfl _ hkey φ hφ)
    | pause | groups => exact hr.awaited request hposted
    | takeUp => exact hr.awaited request (Finset.mem_of_mem_erase hposted)

/-- An unbroken move keeps the credentials of every account. -/
theorem Rotating.step (hr : w.Rotating) (h : w.Consistent) {m : Move} (hm : w.Unbroken m) :
    (w.step m).Rotating := by
  refine ⟨hr.lease_step h hm (h.step m).1, fun id ↦ ?_, fun id ↦ ?_,
    hr.awaited_step hm (h.step m).1⟩
  · refine (hr.agree id).step disciplined h.kept m ?_ ?_ ?_ ?_ ?_ ?_
    · rintro task env φ c r shared rfl hφ - ⟨_, hin⟩ he hp
      have hφ := Pool.phase_of_active hφ
      exact Agree.renewed h.sync (h.facts task φ hφ) (h.tidy task φ hφ) (hr.lease task φ hφ) hin
        (hm.answered (task, env) rfl).1 he hp
    · rintro task env φ s c r shared rfl he hp
      have he : w.shared.exec task env .releaseAll = some (shared, r) := he
      obtain ⟨hsched, hstore⟩ := Installation.exec_reads rfl he
      exact hp.congr (by rw [hsched]) (by rw [hstore])
    · rintro task φ hφ ⟨hfree, -⟩ ⟨⟨a, hd, -⟩, -⟩
      cases hd.symm.trans (h.tidy task φ (Pool.phase_of_active hφ) hfree).duty
    · rintro task x φ rfl hφ ⟨⟨a, hd, ha⟩, -⟩
      refine (hm.dropped task rfl φ hφ).2 id ?_
      rw [hd, ← ha]
      exact List.mem_singleton_self _
    · rintro a rfl he
      cases a with
      | restart => exact agree_started h.sync.keyed id
      | pause | groups | takeUp => cases he
    · rintro a - he hp
      cases a with
      | restart => cases he
      | pause | groups | takeUp => exact hp.congr rfl rfl
  · refine (hr.usable id).step disciplined h.kept m ?_ ?_ ?_ ?_ ?_ ?_
    · rintro task env φ c r shared rfl hφ - ⟨_, hin⟩ he hp
      obtain ⟨houtcome, hserves⟩ := hm.answered (task, env) rfl
      exact Usable.exec h.sync (hr.lease task φ (Pool.phase_of_active hφ)) hin houtcome
        (hserves φ hφ) he hp
    · rintro task env φ s c r shared rfl he hp
      have he : w.shared.exec task env .releaseAll = some (shared, r) := he
      refine hp.congr ?_ (congrFun (Installation.exec_accepted he fun _ _ _ h ↦ by cases h) id)
      rw [(Installation.exec_reads rfl he).2]
    · rintro task φ hφ ⟨-, hidle⟩ ⟨c, hf⟩
      cases hidle.symm.trans hf
    · rintro task x φ rfl hφ ⟨c, hf⟩
      cases (hm.dropped task rfl φ hφ).1.symm.trans hf
    · rintro a rfl he
      cases a with
      | restart =>
        refine (hr.usable id).elim (·.congr rfl rfl) ?_
        rintro ⟨task, φ, hφ, c, hf⟩
        obtain ⟨job, t, hl, -⟩ := Pool.active_eq_some.mp hφ
        have hkey : task ∈ w.tasks.keys := AList.mem_keys.mpr
          (AList.lookup_isSome.mp (by rw [hl]; rfl))
        cases (hm.ended rfl task hkey φ hφ).symm.trans hf
      | pause | groups | takeUp => cases he
    · rintro a rfl he hp
      cases a with
      | restart => cases he
      | pause | groups => exact hp.congr rfl rfl
      | takeUp => exact hp.congr rfl (congrFun (hr.takenUp hm) id)

/-- A process starts with the credentials the endpoint accepts. -/
theorem Rotating.new {store : AccountTables} (hs : Sound store) : (World.new store).Rotating where
  lease := fun _ _ hφ ↦ (by cases hφ)
  agree := fun id ↦ by
    have hstarted : Agree (·.credentialVersion)
        { (World.new store).shared with sched := Installation.started store } id :=
      agree_started (s := (World.new store).shared) hs.keyed id
    exact .inl hstarted
  usable := fun id ↦ by
    refine .inl fun row hl ↦ ?_
    have hlook : store.accounts.lookup id = some row := (AccountTables.live_eq_some.mp hl).1
    refine ⟨row.credentials.credentials, if_pos (hs.sealed id row hlook), ?_⟩
    show (store.accounts.lookup id).map _ = _
    rw [hlook]
    rfl
  awaited := fun _ h ↦ absurd h (Finset.notMem_empty _)

end World
end Xxgate.Accounts

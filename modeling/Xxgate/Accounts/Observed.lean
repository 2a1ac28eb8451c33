import Xxgate.Accounts.Policy

/-!
# Observed rejections

What a call of `disable_observed` leaves behind. An account that it found in use is out of use
when it returns, and stays so until an administrator enables it; one that was disabled for a
quota reason keeps that reason, and quota automation enables it again.
-/

namespace Xxgate.Accounts

open Xxgate.Base Xxgate.Base.FiniteMap Xxgate.Core Xxgate.Scheduling Xxgate.Store

/-- In a call of an observing function the account was looked up, and nothing was done yet. -/
structure Standing.Found (φ : Standing) (o : Observation) (a : Account) : Prop where
  span : φ.span = some o
  seen : φ.seen = some (o.id, a)
  looked : φ.looked = some a
  duty : φ.duty = .clear
  published : φ.published = none
  faulty : φ.faulty = false

instance (φ : Standing) (o : Observation) (a : Account) : Decidable (φ.Found o a) :=
  decidable_of_iff (φ.span = some o ∧ φ.seen = some (o.id, a) ∧ φ.looked = some a ∧
      φ.duty = .clear ∧ φ.published = none ∧ φ.faulty = false)
    ⟨fun ⟨h₁, h₂, h₃, h₄, h₅, h₆⟩ ↦ ⟨h₁, h₂, h₃, h₄, h₅, h₆⟩,
      fun h ↦ ⟨h.span, h.seen, h.looked, h.duty, h.published, h.faulty⟩⟩

/-- The call goes on: nothing is published, nothing failed, and what it wrote is as observed. -/
structure Pending (s : Installation) (o : Observation) (a : Account)
    (returned : List (Observation × Bool)) (φ : Standing) : Prop where
  span : φ.span = some o
  returned : φ.returned = returned
  looked : φ.looked = some a
  published : φ.published = none
  faulty : φ.faulty = false
  sched : .mutations ∈ φ.held → s.sched.accounts.lookup o.id = some a
  duty : .mutations ∈ φ.held →
    ((φ.duty = .clear ∨ ∃ i, φ.duty = .blocked i) ∧
      ∃ row, s.store.live o.id = some row ∧ row.data.version = o.version) ∨
    ∃ b, φ.duty = .written b ∧ b.id = o.id ∧ Held b

/-- What others do leaves a call that goes on as it is. -/
theorem Pending.congr {s s' : Installation} {o : Observation} {a : Account}
    {returned : List (Observation × Bool)} {φ : Standing} (hp : Pending s o a returned φ)
    (hsame : .mutations ∈ φ.held → s'.sched.accounts = s.sched.accounts ∧
      s'.store.accounts = s.store.accounts) : Pending s' o a returned φ where
  span := hp.span
  returned := hp.returned
  looked := hp.looked
  published := hp.published
  faulty := hp.faulty
  sched := fun hm ↦ by
    rw [(hsame hm).1]
    exact hp.sched hm
  duty := fun hm ↦ by
    have hl : s'.store.live = s.store.live := by
      funext id
      simp only [AccountTables.live, (hsame hm).2]
    rw [hl]
    exact hp.duty hm

/-- A transaction that is answered and succeeds is known to. -/
theorem Installation.wrote_answered {α : Type} {s s' : Installation} {t : AccountTables} {x : α}
    {transaction : Result (AccountTables × α)} {r : Result α}
    (ht : transaction = .ok (t, x)) (h : s.wrote .answered transaction = some (s', r)) :
    s' = { s with store := t } ∧ r = .ok x := by
  subst ht
  cases h
  exact ⟨rfl, rfl⟩

/-- A row that is not deleted and at the expected version can be enabled and disabled. -/
theorem setEnabled_succeeds {t : AccountTables} {id : Uuid} {row : AccountRow} {version : Int}
    (hl : t.live id = some row) (hv : row.data.version = version) (enabled : Bool)
    (reason : Option DisableReason) :
    ∃ t' b, t.setEnabled id enabled reason version = .ok (t', b) ∧ b.id = row.data.id ∧
      b.enabled = enabled ∧ b.disableReason = if enabled then none else reason := by
  subst hv
  have hput : t.setEnabled id enabled reason row.data.version = .ok
      (t.put { row with data := { row.data with
          version := row.data.version + 1
          enabled := enabled
          disableReason := if enabled then none else reason } },
        { row.data with
          version := row.data.version + 1
          enabled := enabled
          disableReason := if enabled then none else reason }) := by
    unfold AccountTables.setEnabled
    rw [AccountTables.find_eq_ok.mpr hl]
    simp only [bind, Except.bind, ne_eq, not_true_eq_false, if_false, pure, Except.pure]
  exact ⟨_, _, hput, rfl, rfl, rfl⟩

/-- The credits of an account that has a row can be saved. -/
theorem saveExtraCredits_succeeds {t : AccountTables} {id : Uuid} {row : AccountRow}
    (c : ExtraCredits) (hl : t.accounts.lookup id = some row) :
    ∃ t', t.saveExtraCredits id c = .ok (t', ()) := by
  have hm : id ∈ t.accounts := (mem_iff_lookup t.accounts id).mpr ⟨row, hl⟩
  unfold AccountTables.saveExtraCredits
  rw [if_neg (not_not_intro hm)]
  split
  · exact ⟨_, rfl⟩
  · exact ⟨_, rfl⟩

/-- One account at a time is looked up. -/
theorem Standing.Saw.unique {φ : Standing} {i j : Uuid} {a b : Account} (h : φ.Saw i a)
    (h' : φ.Saw j b) : a = b := by
  obtain ⟨q, hq, -⟩ := h
  obtain ⟨q', hq', -⟩ := h'
  cases hq.symm.trans hq'
  rfl

namespace World

variable {w w' : World} {task : Nat} {o : Observation} {a : Account}
  {returned : List (Observation × Bool)}

/-- A call of the task that changes something: the account is out of use now, or it is written
as it was observed. -/
theorem Made.pending {φ : Standing} {env : Env} {c : Call} {r : c.Reply} {shared : Installation}
    (hm : Made w φ task env c r shared) (h : w.Consistent)
    (hp : Pending w.shared o a returned φ) (hc : Installation.reads c = false)
    (hreason : o.reason = some .oauthInvalid) (henv : env.outcome = .answered) :
    Rests Held o.id shared ∨ Pending shared o a returned (φ.next c r) := by
  obtain ⟨hin, hmem⟩ := hm.holds hc
  have hf := h.facts task φ hm.standing
  have hspan : φ.span ≠ none := by
    rw [hp.span]
    nofun
  have he := hm.performed
  have hsched := hp.sched hmem
  have hfaulty : ∀ {α : Type} (x : α), (φ.faulty || !(Except.ok x : Result α).isOk) = false := by
    intro α x
    rw [hp.faulty]
    rfl
  cases c with
  | blockAccount i =>
    cases he
    refine .inr ⟨hp.span, hp.returned, hp.looked, hp.published, hp.faulty, hp.sched, fun _ ↦ ?_⟩
    rcases hp.duty hmem with ⟨-, hrow⟩ | ⟨b, hd, -⟩
    · exact .inl ⟨.inr ⟨i, rfl⟩, hrow⟩
    · cases hin.2.1.symm.trans hd
  | updateAccount b =>
    left
    obtain ⟨-, -, hd | ⟨hs, -⟩⟩ := hin
    swap
    · exact absurd hs hspan
    cases he
    have hduty := hf.duty
    rw [hd] at hduty
    obtain ⟨row, hl, hrow⟩ := hduty
    rcases hp.duty hmem with ⟨hd' | ⟨i, hd'⟩, -⟩ | ⟨b', hd', hid, hheld⟩
    · cases hd.symm.trans hd'
    · cases hd.symm.trans hd'
    · cases hd.symm.trans hd'
      rw [hid] at hl
      refine ⟨⟨row, (AccountTables.live_eq_some.mp hl).1, hrow ▸ hheld⟩, fun x hx ↦ ?_⟩
      change (w.shared.sched.updateAccount b).accounts.lookup o.id = some x at hx
      rw [State.lookup_updateAccount, hid] at hx
      split at hx
      · cases hx
        exact hheld.1
      · next hdel =>
        -- an account the scheduler has is not a forgotten one
        have hgone : o.id ∈ w.shared.sched.deletedAccounts := by
          by_contra hn
          exact hdel ⟨rfl, hn⟩
        cases hsched.symm.trans (h.sync.filed.deletedAccount o.id hgone)
  | setPaused =>
    obtain ⟨-, i, hd⟩ := hin
    rcases hp.duty hmem with ⟨hd' | ⟨i, hd'⟩, -⟩ | ⟨b', hd', -⟩
    · cases hd.symm.trans hd'
    · cases hd.symm.trans hd'
    · cases hd.symm.trans hd'
  | setEnabled i enabled reason expected actor =>
    right
    obtain ⟨-, hcur, account, hsaw, hv, hmay⟩ := hin
    -- the account is the observed one, at the observed version
    obtain ⟨account', hsaw', hv'⟩ := hcur o hp.span
    cases hsaw.unique hsaw'
    have hi : i = o.id := (h.sync.saw hf hsaw).1.symm.trans (h.sync.saw hf hsaw').1
    obtain ⟨rfl, rfl⟩ := hmay.observed o _ hp.span hreason
    have hrow : ∃ row, w.shared.store.live o.id = some row ∧ row.data.version = o.version := by
      rcases hp.duty hmem with ⟨-, hrow⟩ | ⟨b, hd, -⟩
      · exact hrow
      · rcases hmay.blocked with hd' | hd'
        · cases hd.symm.trans hd'
        · cases hd.symm.trans hd'
    obtain ⟨row, hl, hver⟩ := hrow
    obtain ⟨t, b, ht, hb, hoff, hre⟩ := setEnabled_succeeds hl (hver.trans (hv'.symm.trans hv.symm))
      false (some .oauthInvalid)
    have he : w.shared.wrote env.outcome _ = some (shared, r) := he
    rw [henv, hi] at he
    obtain ⟨rfl, rfl⟩ := Installation.wrote_answered ht he
    refine ⟨hp.span, hp.returned, hp.looked, hp.published, hfaulty b, hp.sched, fun _ ↦ .inr ?_⟩
    refine ⟨b, rfl, hb.trans (live_id h.sync.keyed hl), hoff, ?_⟩
    rw [hre]
    rfl
  | saveQuotas i windows =>
    right
    rcases Installation.wrote_cases he with ⟨rfl, -⟩ | ⟨t, x, ht, rfl, -⟩
    · exact ⟨hp.span, hp.returned, hp.looked, hp.published, hp.faulty, hp.sched, hp.duty⟩
    · have hl : t.live = w.shared.store.live := by
        funext id
        simp only [AccountTables.live, (AccountTables.saveQuotas_ok ht).1]
      exact ⟨hp.span, hp.returned, hp.looked, hp.published, hp.faulty, hp.sched, hl ▸ hp.duty⟩
  | saveExtraCredits i credits =>
    right
    obtain ⟨-, ⟨o', ho', rfl⟩, -⟩ := hin
    cases hp.span.symm.trans ho'
    obtain ⟨row, hrow, -⟩ := h.sync.copies o.id a hsched
    obtain ⟨t, ht⟩ := saveExtraCredits_succeeds credits hrow
    have he : w.shared.wrote env.outcome _ = some (shared, r) := he
    rw [henv] at he
    obtain ⟨rfl, rfl⟩ := Installation.wrote_answered ht he
    have hl : t.live = w.shared.store.live := by
      funext id
      simp only [AccountTables.live, (AccountTables.saveExtraCredits_ok ht).1]
    exact ⟨hp.span, hp.returned, hp.looked, hp.published, hfaulty (), hp.sched, hl ▸ hp.duty⟩
  | removeAccount | deleteAccount | updateCredentials | saveModelCatalog =>
    exact absurd hin.2.1 hspan
  | putAccount account encrypted expected =>
    cases expected with
    | none => exact absurd hin.2.1 hspan
    | some expected => exact absurd hin.2.1 hspan
  | _ => cases hc

/-- A call of the task that changes nothing: the observing call goes on, and cannot return
without having published the account. -/
theorem Made.pending_reads {φ : Standing} {env : Env} {c : Call} {r : c.Reply}
    {shared : Installation} (hm : Made w φ task env c r shared)
    (hp : Pending w.shared o a returned φ) (hin : φ.InOrder c)
    (hc : Installation.reads c = true) (hreason : o.reason = some .oauthInvalid)
    (henv : env.outcome = .answered) (hon : a.enabled = true) (hver : a.version = o.version) :
    Pending shared o a returned (φ.next c r) := by
  have he := hm.performed
  obtain ⟨hs, ht⟩ := Installation.exec_reads hc he
  have hp' : Pending shared o a returned φ :=
    ⟨hp.span, hp.returned, hp.looked, hp.published, hp.faulty, hs ▸ hp.sched, ht ▸ hp.duty⟩
  clear hs ht
  cases c with
  | consult q =>
    obtain ⟨now, stale, hq⟩ := Standing.next_consult φ q r
    have hq : φ.next (.consult q) r = { φ with now := now, staleAfter := stale } := hq
    rw [hq]
    exact ⟨hp'.span, hp'.returned, hp'.looked, hp'.published, hp'.faulty, hp'.sched, hp'.duty⟩
  | lock l =>
    have hl : .mutations ∈ insert l φ.held → .mutations ∈ φ.held := by
      intro hmem
      rcases Finset.mem_insert.mp hmem with rfl | hmem
      · rcases hin.2.2 rfl with hn | hn
        · cases hp.span.symm.trans hn
        · cases hp.looked.symm.trans hn
      · exact hmem
    exact ⟨hp'.span, hp'.returned, hp'.looked, hp'.published, hp'.faulty,
      fun h ↦ hp'.sched (hl h), fun h ↦ hp'.duty (hl h)⟩
  | unlock l =>
    cases l with
    | mutations =>
      exact ⟨hp'.span, hp'.returned, hp'.looked, hp'.published, hp'.faulty,
        fun h ↦ absurd h (Finset.notMem_erase _ _), fun h ↦ absurd h (Finset.notMem_erase _ _)⟩
    | _ =>
      exact ⟨hp'.span, hp'.returned, hp'.looked, hp'.published, hp'.faulty,
        fun h ↦ hp'.sched (Finset.mem_of_mem_erase h),
        fun h ↦ hp'.duty (Finset.mem_of_mem_erase h)⟩
  | releaseAll => cases hin
  | enter o' => cases hp.span.symm.trans hin.2
  | leave o' ok =>
    -- neither outcome is one the call may return with
    exfalso
    obtain ⟨-, ho, hret⟩ := hin
    cases hp.span.symm.trans ho
    have hret := hret (by rw [hreason]; rfl)
    cases ok with
    | true =>
      obtain ⟨account, hlook, hcase⟩ := hret
      cases hp.looked.symm.trans hlook
      rcases hcase with hoff | hne | hpub
      · cases hon.symm.trans hoff
      · exact hne hver
      · rw [hp.published] at hpub
        cases hpub
    | false =>
      rcases hret with hn | hf
      · cases hp.looked.symm.trans hn
      · cases hp.faulty.symm.trans hf
  | account id =>
    cases he
    show Pending w.shared o a returned (φ.lookedUp id _)
    unfold Standing.lookedUp
    by_cases hmem : .mutations ∈ φ.held
    · obtain rfl := hin.2 hmem o hp.span
      rw [if_pos hmem]
      refine ⟨hp'.span, hp'.returned, ?_, hp'.published, hp'.faulty, hp'.sched, hp'.duty⟩
      show (if φ.span.isSome then _ else _) = some a
      rw [hp.span]
      exact hp.sched hmem
    · rw [if_neg hmem]
      split
      · exact ⟨hp'.span, hp'.returned, hp'.looked, hp'.published, hp'.faulty, hp'.sched, hp'.duty⟩
      · exact hp'
  | storedAccounts =>
    obtain ⟨hmem, i, hd⟩ := hin
    rcases hp.duty hmem with ⟨hd' | ⟨i, hd'⟩, -⟩ | ⟨b', hd', -⟩
    · cases hd.symm.trans hd'
    · cases hd.symm.trans hd'
    · cases hd.symm.trans hd'
  | quotas id =>
    rcases r with x | windows
    · exact hp'
    · show Pending shared o a returned (if _ then _ else _)
      split
      · exact ⟨hp'.span, hp'.returned, hp'.looked, hp'.published, hp'.faulty, hp'.sched, hp'.duty⟩
      · exact hp'
  | extraCredits id =>
    have he : w.shared.queried env.outcome _ = some (shared, r) := he
    rw [henv] at he
    cases he
    show Pending w.shared o a returned (if _ then _ else _)
    split
    · exact ⟨hp'.span, hp'.returned, hp'.looked, hp'.published, hp'.faulty, hp'.sched, hp'.duty⟩
    · exact hp'
  | post | refresh | validateCredentials =>
    obtain ⟨renewal, refused, hr⟩ := φ.next_renewal rfl r
    rw [hr]
    exact ⟨hp'.span, hp'.returned, hp'.looked, hp'.published, hp'.faulty, hp'.sched, hp'.duty⟩
  | accounts | groups | credentials => exact hp'
  | _ => cases hc

/-- The account is out of use, the call goes on, or its task is over without a return. -/
inductive Recording (w : World) (task : Nat) (o : Observation) (a : Account)
    (returned : List (Observation × Bool)) : Prop where
  | held (rests : Rests Held o.id w.shared)
  | pending (φ : Standing) (here : w.standing task = some φ)
      (goes : Pending w.shared o a returned φ)
  | isOver (job : Job) (t : Task Unit Call Call.Reply Empty Error Unit)
      (here : w.tasks.lookup task = some (job, t)) (isOver : t.result.isSome = true)
      (same : (monitor.phase (.start job) t.trace).returned = returned)

/-- The move drops the task, leaves a store call of it without a good answer, or ends all. -/
def disturbs (task : Nat) : Move → Bool
  | .change .restart => true
  | .drive i (.abandon _) => i == task
  | .drive i (.perform env) => i == task && env.outcome != .answered
  | _ => false

/-- The call of the task is not dropped, its store calls are answered, the process goes on, and
no administrator overrides a disablement of the account. -/
def Undisturbed (task : Nat) (id : Uuid) (w : World) (m : Move) : Prop :=
  ¬ w.Overriding id m ∧ disturbs task m = false

instance (task : Nat) (id : Uuid) (w : World) (m : Move) :
    Decidable (Undisturbed task id w m) :=
  inferInstanceAs (Decidable (_ ∧ _))

/-- A move that does not disturb the call keeps it recording. -/
theorem Recording.transition (hr : w.Recording task o a returned) (h : w.Consistent) {m : Move}
    (ht : w.Transition m w') (hm : Undisturbed task o.id w m)
    (hreason : o.reason = some .oauthInvalid) (hon : a.enabled = true)
    (hver : a.version = o.version) : w'.Recording task o a returned := by
  cases hr with
  | held rests => exact .held (h.held ht hm.1 rests)
  | isOver job t here isOver same =>
    cases ht with
    | idle => exact .isOver job t here isOver same
    | @spawned i job' new =>
      refine .isOver job t ?_ isOver same
      rw [lookup_insert_ite, if_neg, here]
      rintro rfl
      cases new.symm.trans here
    | @called i env job' t₁ t' c r shared here' inOrder performed trace result =>
      by_cases hi : task = i
      · subst hi
        cases here.symm.trans here'
        -- a task that is over only gives its locks back
        rcases inOrder with ⟨hn, -⟩ | ⟨-, s, rfl⟩
        · rw [hn] at isOver
          cases isOver
        · refine .isOver job t' (by rw [AList.lookup_insert]) (result ▸ isOver) ?_
          rw [phase_cons trace]
          exact same
      · refine .isOver job t ?_ isOver same
        rw [lookup_insert_ite, if_neg hi, here]
    | @moved i d job' t₁ t' here' trace stays leaves =>
      by_cases hi : task = i
      · subst hi
        cases here.symm.trans here'
        obtain ⟨x, hx⟩ := Option.isSome_iff_exists.mp isOver
        refine .isOver job t' (by rw [AList.lookup_insert]) ?_ (trace ▸ same)
        rw [stays x hx]
        rfl
      · refine .isOver job t ?_ isOver same
        rw [lookup_insert_ite, if_neg hi, here]
    | changed x =>
      refine .isOver job t ?_ isOver same
      cases x with
      | restart => cases hm.2
      | pause | groups | takeUp => exact here
  | pending φ here goes =>
    cases ht with
    | idle => exact .pending φ here goes
    | @spawned i job' new =>
      refine .pending φ ?_ goes
      rw [standing_insert, if_neg, here]
      rintro rfl
      rw [standing, Pool.phase, new] at here
      cases here
    | @called i env job t t' c r shared here' inOrder performed trace result =>
      have hmade := Consistent.made here' inOrder performed
      by_cases hi : task = i
      · subst hi
        cases hmade.standing.symm.trans here
        rcases inOrder with ⟨-, s, hin⟩ | ⟨hover, s, rfl⟩
        · have henv : env.outcome = .answered := by
            have hd := hm.2
            simpa [disturbs] using hd
          have hstanding : World.standing ⟨shared, w.tasks.insert task (job, t')⟩ task =
              some ((monitor.phase (.start job) t.trace).next c r) := by
            rw [standing_insert, if_pos rfl, phase_cons trace]
          cases hc : Installation.reads c with
          | true =>
            exact .pending _ hstanding (hmade.pending_reads goes hin hc hreason henv hon hver)
          | false =>
            rcases hmade.pending h goes hc hreason henv with hrest | hp
            · exact .held hrest
            · exact .pending _ hstanding hp
        · refine .isOver job t' (by rw [AList.lookup_insert]) (result ▸ hover) ?_
          rw [phase_cons trace]
          exact goes.returned
      · refine .pending φ (by rw [standing_insert, if_neg hi, here]) (goes.congr fun hmem ↦ ?_)
        cases hc : Installation.reads c with
        | true =>
          obtain ⟨hs, ht⟩ := Installation.exec_reads hc performed
          exact ⟨congrArg _ hs, congrArg _ ht⟩
        | false =>
          obtain ⟨-, hmem'⟩ := hmade.holds hc
          exact absurd (h.owned.unique (l := locking) here hmem hmade.standing hmem') hi
    | @moved i d job t t' here' trace stays leaves =>
      refine .pending φ ?_ goes
      rw [standing_insert, trace]
      split
      · next hi => rw [← standing_of_lookup here', ← hi, here]
      · exact here
    | changed x =>
      cases x with
      | restart => cases hm.2
      | pause | groups | takeUp => exact .pending φ here (goes.congr fun _ ↦ ⟨rfl, rfl⟩)

/-- Two ends of one list of the same length are one. -/
theorem suffix_cons_irrefl {α : Type} {x : α} {xs : List α} : ¬ (x :: xs) <:+ xs := by
  intro h
  have hle := h.length_le
  rw [List.length_cons] at hle
  omega

/-- A rejection that was observed is remembered. A call of `disable_observed` with the reason
`OauthInvalid` looked the account up at the version it was observed at, which is the version in
the store, and found it not disabled for a quota reason. When the call was not dropped and its
store calls were answered, then after it returned, and over any moves without an administrator's
override of the disablement, the account is disabled in the store and in the scheduler. -/
theorem rejection_remembered {w : World} (hw : w.Reachable) {task : Nat} {φ : Standing}
    {o : Observation} {a : Account} {row : AccountRow} (hφ : w.standing task = some φ)
    (hfound : φ.Found o a) (hreason : o.reason = some .oauthInvalid)
    (hcurrent : a.version = o.version) (hrow : w.shared.store.live o.id = some row)
    (hstored : row.data.version = o.version)
    (hquota : a.enabled = false → a.disableReason.any (·.isQuota) = false)
    {during after : List Move} (hduring : Along World.step (Undisturbed task o.id) w during)
    {φ' : Standing} (hφ' : (run World.step w during).standing task = some φ') {ok : Bool}
    (hreturned : ((o, ok) :: φ.returned) <:+ φ'.returned)
    (hafter : Along World.step (fun w m ↦ ¬ w.Overriding o.id m) (run World.step w during) after) :
    (∀ row', (run World.step w (during ++ after)).shared.store.live o.id = some row' →
      row'.data.enabled = false) ∧
    ∀ a', (run World.step w (during ++ after)).shared.sched.accounts.lookup o.id = some a' →
      a'.enabled = false := by
  have h := hw.consistent
  have hf := h.facts task φ hφ
  have hsched := hf.seen o.id a hfound.seen
  have hl := (AccountTables.live_eq_some.mp hrow).1
  have hpolicy := h.policy_seen hf hfound.seen hl (hcurrent.trans hstored.symm)
  simp only [policy, Prod.mk.injEq] at hpolicy
  -- either the account is held already, or the call goes on and cannot return before it is
  have hend : (run World.step w during).Consistent ∧
      Rests Held o.id (run World.step w during).shared := by
    cases hen : a.enabled with
    | false =>
      have hrests : Rests Held o.id w.shared := by
        refine ⟨⟨row, hl, hpolicy.1.symm.trans hen, ?_⟩, fun a' ha' ↦ ?_⟩
        · rw [← hpolicy.2.1]
          exact hquota hen
        · cases hsched.symm.trans ha'
          exact hen
      exact run_invariant_along (P := fun w ↦ w.Consistent ∧ Rests Held o.id w.shared)
        (fun _ m hw hm ↦ ⟨(hw.1.step m).2, hw.1.held (hw.1.step m).1 hm.1 hw.2⟩)
        ⟨h, hrests⟩ hduring
    | true =>
      have hstart : w.Recording task o a φ.returned :=
        .pending φ hφ ⟨hfound.span, rfl, hfound.looked, hfound.published, hfound.faulty,
          fun _ ↦ hsched, fun _ ↦ .inl ⟨.inl hfound.duty, row, hrow, hstored⟩⟩
      obtain ⟨hcons, hrec⟩ := run_invariant_along
        (P := fun w ↦ w.Consistent ∧ w.Recording task o a φ.returned)
        (fun _ m hw hm ↦ ⟨(hw.1.step m).2,
          hw.2.transition hw.1 (hw.1.step m).1 hm hreason hen hcurrent⟩)
        ⟨h, hstart⟩ hduring
      refine ⟨hcons, ?_⟩
      cases hrec with
      | held rests => exact rests
      | pending ψ here goes =>
        cases here.symm.trans hφ'
        rw [goes.returned] at hreturned
        exact absurd hreturned suffix_cons_irrefl
      | isOver job t here isOver same =>
        cases (standing_of_lookup here).symm.trans hφ'
        rw [same] at hreturned
        exact absurd hreturned suffix_cons_irrefl
  obtain ⟨⟨row₁, hl₁, hheld⟩, hidle⟩ := hend.1.held_run hafter hend.2
  rw [run_append]
  refine ⟨fun row' hl' ↦ ?_, hidle⟩
  cases hl₁.symm.trans (AccountTables.live_eq_some.mp hl').1
  exact hheld.1

/-- Account 7 is disabled for its five hours when its authorization is rejected: the call returns
well, the five hours pass, and a look at the quotas enables the account. -/
theorem rejection_forgotten :
    ((Sample.store (Sample.account false (some .quota5hExhausted))
      [Sample.window 100 5000]).live 7).map (·.data.version) = some 1 ∧
    ((Sample.after (Sample.store (Sample.account false (some .quota5hExhausted))
      [Sample.window 100 5000]) (.spawn 1 (.disableObserved 7 1 .oauthInvalid) ::
        Sample.turns 1 (Sample.env .answered 0) 6)).standing 1).map (·.returned) =
      some [(⟨7, 1, some .oauthInvalid⟩, true)] ∧
    ((Sample.after (Sample.store (Sample.account false (some .quota5hExhausted))
      [Sample.window 100 5000]) (.spawn 1 (.disableObserved 7 1 .oauthInvalid) ::
        Sample.turns 1 (Sample.env .answered 0) 6 ++ .spawn 2 .reenableExpiredQuotas ::
        Sample.turns 2 (Sample.env .answered 9000) 11)).shared.store.live 7).map
      (·.data.enabled) = some true := by decide +kernel

/-- Account 7 is in use, and its rejection is remembered over a look at its quotas. -/
theorem rejection_remembered_in_use :
    ((run World.step (Sample.after (Sample.store (Sample.account true none)
        [Sample.window 100 5000])
        (.spawn 1 (.disableObserved 7 1 .oauthInvalid) ::
          Sample.turns 1 (Sample.env .answered 0) 3))
      (Sample.turns 1 (Sample.env .answered 0) 6 ++ .spawn 2 .reenableExpiredQuotas ::
        Sample.turns 2 (Sample.env .answered 9000) 11)).shared.store.live 7).map
      (·.data.enabled) = some false := by
  -- the call looked the account up
  have hfound : ((Sample.after (Sample.store (Sample.account true none) [Sample.window 100 5000])
      (.spawn 1 (.disableObserved 7 1 .oauthInvalid) ::
        Sample.turns 1 (Sample.env .answered 0) 3)).standing 1).map (fun φ ↦
          (decide (φ.Found ⟨7, 1, some .oauthInvalid⟩ (Sample.account true none)), φ.returned)) =
      some (true, []) := by decide +kernel
  obtain ⟨φ, hφ, hf⟩ := Option.map_eq_some_iff.mp hfound
  obtain ⟨hf, hnone⟩ := Prod.mk.inj hf
  -- it returned
  have hdone : ((run World.step (Sample.after (Sample.store (Sample.account true none)
      [Sample.window 100 5000]) (.spawn 1 (.disableObserved 7 1 .oauthInvalid) ::
        Sample.turns 1 (Sample.env .answered 0) 3))
      (Sample.turns 1 (Sample.env .answered 0) 6)).standing 1).map (·.returned) =
      some [(⟨7, 1, some .oauthInvalid⟩, true)] := by decide +kernel
  obtain ⟨φ', hφ', hret⟩ := Option.map_eq_some_iff.mp hdone
  have hreturned : ((⟨7, 1, some .oauthInvalid⟩, true) :: φ.returned) <:+ φ'.returned := by
    rw [hnone, hret]
  have hrow : (Sample.after (Sample.store (Sample.account true none) [Sample.window 100 5000])
      (.spawn 1 (.disableObserved 7 1 .oauthInvalid) ::
        Sample.turns 1 (Sample.env .answered 0) 3)).shared.store.live 7 =
      some ⟨Sample.account true none, encrypt 7 (Sample.credentials "first"), false⟩ := by
    decide +kernel
  have hsome : ((run World.step (Sample.after (Sample.store (Sample.account true none)
      [Sample.window 100 5000]) (.spawn 1 (.disableObserved 7 1 .oauthInvalid) ::
        Sample.turns 1 (Sample.env .answered 0) 3))
      (Sample.turns 1 (Sample.env .answered 0) 6 ++ .spawn 2 .reenableExpiredQuotas ::
        Sample.turns 2 (Sample.env .answered 9000) 11)).shared.store.live 7).isSome = true := by
    decide +kernel
  obtain ⟨row, hlive⟩ := Option.isSome_iff_exists.mp hsome
  rw [hlive]
  exact congrArg some ((rejection_remembered (Sample.reachable rfl _ _) hφ (of_decide_eq_true hf)
    rfl rfl hrow rfl nofun (by decide +kernel) hφ' hreturned (by decide +kernel)).1 row hlive)

end World
end Xxgate.Accounts

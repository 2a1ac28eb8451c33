import Xxgate.Accounts.Coherent

/-!
# The bracket around a mutation

An account is blocked while it is being changed, and publishing it unblocks it. A blocked
account is one a task at work has named, unless the task was dropped between the two.
-/

namespace Xxgate.Accounts

open Xxgate.Base Xxgate.Base.FiniteMap Xxgate.Core Xxgate.Scheduling Xxgate.Store

/-- The scheduler may choose the account, if it has it. -/
def Unbarred (s : Installation) (id : Uuid) : Prop :=
  id ∈ s.sched.blocked → s.sched.accounts.lookup id = none

instance (s : Installation) (id : Uuid) : Decidable (Unbarred s id) :=
  inferInstanceAs (Decidable (_ → _))

/-- Dispatch is paused, or the account is not blocked. -/
def Closed (s : Installation) (id : Uuid) : Prop := s.sched.paused = true ∨ Unbarred s id

namespace Closed

variable {s s' : Installation} {φ : Standing} {id : Uuid}

/-- The bracket is about the scheduler only. -/
theorem congr (h : Closed s id) (hs : s'.sched = s.sched) : Closed s' id := by
  unfold Closed Unbarred at h ⊢
  rw [hs]
  exact h

/-- An account that is published is not blocked. -/
theorem published_self (hs : Filed s.sched) (a : Account) :
    Closed { s with sched := s.sched.updateAccount a } a.id := by
  refine .inr fun hb ↦ ?_
  change a.id ∈ (s.sched.updateAccount a).blocked at hb
  show (s.sched.updateAccount a).accounts.lookup a.id = none
  unfold State.updateAccount at hb ⊢
  split
  · next hd => exact hs.deletedAccount _ hd
  · next hd =>
    rw [if_neg hd] at hb
    exact absurd rfl (Finset.ne_of_mem_erase hb)

/-- Publishing an account blocks none. -/
theorem published (h : Closed s id) (hs : Filed s.sched) (a : Account) :
    Closed { s with sched := s.sched.updateAccount a } id := by
  by_cases hid : id = a.id
  · exact hid ▸ published_self hs a
  refine h.imp (fun h ↦ ?_) fun h hb ↦ ?_
  · show (s.sched.updateAccount a).paused = true
    unfold State.updateAccount
    split
    · exact h
    · exact h
  · change id ∈ (s.sched.updateAccount a).blocked at hb
    show (s.sched.updateAccount a).accounts.lookup id = none
    rw [State.lookup_updateAccount, if_neg fun h ↦ hid h.1]
    refine h ?_
    unfold State.updateAccount at hb
    split at hb
    · exact hb
    · exact Finset.mem_of_mem_erase hb

/-- A transaction on the store is none of the bracket's business. -/
theorem wrote {α : Type} {outcome : Outcome} {transaction : Result (AccountTables × α)}
    {r : Result α} (h : Closed s id) (he : s.wrote outcome transaction = some (s', r)) :
    Closed s' id := by
  rcases Installation.wrote_cases he with ⟨rfl, -⟩ | ⟨t, a, -, rfl, -⟩
  · exact h
  · exact h

/-- A transaction on the blocked account leaves it the one the task has named. -/
theorem wrote_blocked {α : Type} {outcome : Outcome} {transaction : Result (AccountTables × α)}
    {r : Result α} {i : Uuid} {duty : Duty} (h : Closed s id ∨ id ∈ φ.duty.named)
    (hd : φ.duty = .blocked i) (he : s.wrote outcome transaction = some (s', r))
    (herror : ∀ x, r = .error x → duty.named = [i])
    (hok : ∀ t a, transaction = .ok (t, a) → r = .ok a → duty.named = [i]) :
    Closed s' id ∨ id ∈ duty.named := by
  rw [hd] at h
  refine h.imp (·.wrote he) fun hid ↦ ?_
  have hnamed : duty.named = [i] := by
    rcases Installation.wrote_cases he with ⟨-, x, hx⟩ | ⟨t, a, ht, -, ⟨hr, -⟩ | ⟨hr, -⟩⟩
    · exact herror x hx
    · exact hok t a ht hr
    · exact herror _ hr
  rw [hnamed]
  exact hid

/-- Publishing an account in order closes the bracket around it. -/
theorem updated (hs : Sync s) (hf : Facts s φ) {a : Account} (hin : φ.InOrder (.updateAccount a))
    (h : Closed s id ∨ id ∈ φ.duty.named) :
    Closed { s with sched := s.sched.updateAccount a } id ∨
      id ∈ (φ.next (.updateAccount a) ()).duty.named := by
  obtain ⟨-, -, hd | ⟨-, ⟨i, hd, hseen⟩ | ⟨i, rest, hd⟩⟩⟩ := hin
  · rw [hd] at h
    refine .inl (h.elim (·.published hs.filed a) fun hm ↦ ?_)
    exact List.mem_singleton.mp hm ▸ published_self hs.filed a
  · rw [hd] at h
    refine .inl (h.elim (·.published hs.filed a) fun hm ↦ ?_)
    rw [List.mem_singleton.mp hm, ← hs.seen_id hf hseen]
    exact published_self hs.filed a
  · rw [hd] at h
    by_cases hid : id = a.id
    · exact .inl (hid ▸ published_self hs.filed a)
    · refine h.imp (·.published hs.filed a) fun hm ↦ ?_
      show id ∈ φ.duty.published.named
      rw [hd]
      exact (List.mem_cons.mp hm).resolve_left hid

/-- A call in order that only reads leaves an account unblocked, or the task has named it. -/
theorem read (hs : Sync s) {task : Nat} {env : Env} {c : Call} {r : c.Reply} (hin : φ.InOrder c)
    (hc : Installation.reads c = true) (he : s.exec task env c = some (s', r))
    (hdoubt : ∀ i, φ.duty = .doubtful i → (s.store.live i).isSome = true)
    (h : Closed s id ∨ id ∈ φ.duty.named) : Closed s' id ∨ id ∈ (φ.next c r).duty.named := by
  obtain ⟨hsched, -⟩ := Installation.exec_reads hc he
  rcases Standing.next_duty hin hc he with hd | ⟨hdone, -⟩ | ⟨i, hd, hd'⟩
  · rw [hd]
    exact h.imp_left (·.congr hsched)
  · rw [hdone.named] at h
    exact .inl ((h.resolve_right List.not_mem_nil).congr hsched)
  · rw [hd] at h
    rw [hd']
    refine h.imp (·.congr hsched) fun hid ↦ ?_
    obtain rfl := List.mem_singleton.mp hid
    obtain ⟨row, hl⟩ := Option.isSome_iff_exists.mp (hdoubt id hd)
    have hrow := live_id hs.keyed hl
    exact List.mem_map.mpr ⟨row.data,
      (AccountTables.mem_listed hs.keyed _).mpr ⟨row, hrow ▸ hl, rfl⟩, hrow⟩

/-- A call in order leaves an account unblocked, or the task has named it. -/
theorem exec (hs : Sync s) (hf : Facts s φ) {task : Nat} {env : Env} {c : Call} {r : c.Reply}
    (hin : φ.InOrder c) (he : s.exec task env c = some (s', r))
    (hdoubt : ∀ i, φ.duty = .doubtful i → s.sched.paused = true ∨ (s.store.live i).isSome = true)
    (h : Closed s id ∨ id ∈ φ.duty.named) : Closed s' id ∨ id ∈ (φ.next c r).duty.named := by
  by_cases hp : s.sched.paused = true
  · exact .inl (.inl (Installation.exec_paused he hp))
  cases hc : Installation.reads c with
  | true => exact read hs hin hc he (fun i hd ↦ (hdoubt i hd).resolve_left hp) h
  | false =>
    -- where no account is named the bracket is closed
    have hclear : φ.duty.named = [] → Closed s id := fun hnone ↦
      h.resolve_right (by rw [hnone]; exact List.not_mem_nil)
    cases c with
    | blockAccount i =>
      cases he
      obtain ⟨-, hd, -⟩ := hin
      have hnow := hclear (by rw [hd]; rfl)
      by_cases hid : id = i
      · exact .inr (List.mem_singleton.mpr hid)
      · exact .inl (hnow.imp_right fun h hb ↦ h (Finset.mem_of_mem_insert_of_ne hb hid))
    | updateAccount a =>
      cases he
      exact updated hs hf hin h
    | removeAccount i =>
      cases he
      obtain ⟨-, -, hd⟩ := hin
      rw [hd] at h
      refine .inl ?_
      by_cases hid : id = i
      · refine .inr fun _ ↦ ?_
        show (s.sched.accounts.erase i).lookup id = none
        rw [lookup_erase_ite, if_pos hid]
      · refine (h.resolve_right fun hm ↦ hid (List.mem_singleton.mp hm)).imp_right fun h hb ↦ ?_
        show (s.sched.accounts.erase i).lookup id = none
        rw [lookup_erase_ite, if_neg hid]
        exact h hb
    | setPaused =>
      cases he
      exact .inl (.inl rfl)
    | putAccount account encrypted expected =>
      cases expected with
      | none =>
        obtain ⟨-, -, hd, -⟩ := hin
        exact .inl ((hclear (by rw [hd]; rfl)).wrote he)
      | some expected =>
        obtain ⟨-, -, -, i, previous, hseen, hd, hid, -⟩ := hin
        have hi : account.id = i := hid.trans (hs.seen_id hf hseen)
        refine wrote_blocked h hd he (fun x hx ↦ ?_) fun t a ht hr ↦ ?_
        · subst hx
          exact congrArg (fun j ↦ [j]) hi
        · subst hr
          obtain ⟨row, -, -, rfl, -⟩ := AccountTables.putAccount_update_ok ht
          exact congrArg (fun j ↦ [j]) hi
    | deleteAccount i =>
      obtain ⟨-, -, hd, -⟩ := hin
      refine wrote_blocked h hd he (fun x hx ↦ ?_) fun t u _ hr ↦ ?_
      · subst hx
        show φ.duty.named = [i]
        rw [hd]
        rfl
      · subst hr
        rfl
    | updateCredentials i encrypted expiresAt expected =>
      obtain ⟨-, -, hd, -⟩ := hin
      exact .inl ((hclear (by rw [hd]; rfl)).wrote he)
    | setEnabled i enabled reason expected actor =>
      obtain ⟨-, -, account, -, -, hmay⟩ := hin
      rcases hmay.blocked with hd | hd
      · exact .inl ((hclear (by rw [hd]; rfl)).wrote he)
      · refine wrote_blocked h hd he (fun x hx ↦ ?_) fun t a ht hr ↦ ?_
        · subst hx
          rfl
        · subst hr
          obtain ⟨row, hl, -, rfl, -⟩ := AccountTables.setEnabled_ok ht
          exact congrArg (fun j ↦ [j]) (live_id hs.keyed hl)
    | saveModelCatalog i catalog =>
      obtain ⟨-, -, hd⟩ := hin
      exact .inl ((hclear (by rw [hd]; rfl)).wrote he)
    | saveQuotas i windows =>
      obtain ⟨-, -, -, hd⟩ := hin
      exact .inl ((hclear (by rw [hd]; rfl)).wrote he)
    | saveExtraCredits i credits =>
      obtain ⟨-, -, -, hd⟩ := hin
      exact .inl ((hclear (by rw [hd]; rfl)).wrote he)
    | _ => cases hc

end Closed

namespace World

variable {w : World}

/-- Every store call is answered, and a task is dropped only when the accounts it named are not
blocked and at the version they have in the store. -/
structure Bracketed (w : World) (m : Move) : Prop where
  answered : ∀ e ∈ m.surroundings, e.2.outcome = .answered
  closed : ∀ task ∈ m.dropped, ∀ φ ∈ w.active task, ∀ id ∈ φ.duty.named,
    Agree (·.version) w.shared id ∧ Unbarred w.shared id

instance (w : World) (m : Move) : Decidable (Bracketed w m) :=
  decidable_of_iff
    ((∀ e ∈ m.surroundings, e.2.outcome = .answered) ∧
      ∀ task ∈ m.dropped, ∀ φ ∈ w.active task, ∀ id ∈ φ.duty.named,
        Agree (·.version) w.shared id ∧ Unbarred w.shared id)
    ⟨fun h ↦ ⟨h.1, h.2⟩, fun h ↦ ⟨h.answered, h.closed⟩⟩

/-- Changed accounts are among the named ones. -/
theorem mem_named {d : Duty} {id : Uuid} (h : id ∈ d.changed) : id ∈ d.named := by
  cases d with
  | blocked => cases h
  | _ => exact h

/-- Such moves are answered and drop no debtor. -/
theorem Bracketed.answered' {m : Move} (h : w.Bracketed m) : w.Answered (·.version) m where
  answered := fun e he _ _ _ hlost ↦ nomatch (h.answered e he).symm.trans hlost
  paid := fun task ht φ hφ id hid ↦ (h.closed task ht φ hφ id (mem_named hid)).1

/-- Of every account the bracket is closed, or a task at work has named it. -/
def Guarded (w : World) : Prop :=
  ∀ id, w.Covered monitor Standing.start Closed (fun φ id ↦ id ∈ φ.duty.named) id

/-- Such moves keep every bracket closed or guarded. -/
theorem Guarded.step (hg : w.Guarded) (hc : w.Coherent (·.version)) (h : w.Consistent) {m : Move}
    (hm : w.Bracketed m) : (w.step m).Guarded := by
  intro id
  refine (hg id).step disciplined h.kept m ?_ ?_ ?_ ?_ ?_ ?_
  · rintro task env φ c r shared rfl hφ - ⟨_, hin⟩ he hp
    exact Closed.exec h.sync (h.facts task φ (Pool.phase_of_active hφ)) hin he
      (hc.doubtful task φ · hφ) hp
  · rintro task env φ s c r shared rfl he hp
    have he : w.shared.exec task env .releaseAll = some (shared, r) := he
    exact hp.congr (Installation.exec_reads rfl he).1
  · rintro task φ hφ ⟨hfree, -⟩ ho
    rw [(h.tidy task φ (Pool.phase_of_active hφ) hfree).duty] at ho
    cases ho
  · rintro task x φ rfl hφ ho
    exact .inr (hm.closed task rfl φ hφ id ho).2
  · rintro a rfl he
    cases a with
    | restart => exact .inr fun hb ↦ absurd hb (Finset.notMem_empty id)
    | pause | groups | takeUp => cases he
  · rintro a - he hp
    cases a with
    | restart => cases he
    | pause => exact .inl rfl
    | groups | takeUp => exact hp.congr rfl

/-- Over any moves whose store calls are answered, and that drop a task only when the accounts it
named are not blocked and at the version they have in the store: whenever the `mutations` lock
is free and dispatch is not paused, no account of the scheduler is blocked, and each is at the
version it has in the store. -/
theorem bracket_closed {store : AccountTables} (hs : Sound store) {moves : List Move}
    (ha : Along World.step Bracketed (World.new store) moves)
    (hfree : (run World.step (World.new store) moves).shared.locks.lookup .mutations = none)
    (hrunning : (run World.step (World.new store) moves).shared.sched.paused = false)
    {id : Uuid} {a : Account}
    (hl : (run World.step (World.new store) moves).shared.sched.accounts.lookup id = some a) :
    id ∉ (run World.step (World.new store) moves).shared.sched.blocked ∧
    ∃ row, (run World.step (World.new store) moves).shared.store.live id = some row ∧
      row.data.version = a.version := by
  have hstart : ∀ id, (World.new store).Covered monitor Standing.start Closed
      (fun φ id ↦ id ∈ φ.duty.named) id :=
    fun id ↦ .inl (.inr fun hb ↦ absurd hb (Finset.notMem_empty id))
  obtain ⟨h, hc, hg⟩ := run_invariant_along
    (P := fun w ↦ w.Consistent ∧ w.Coherent (·.version) ∧ w.Guarded)
    (fun _ m hw hm ↦ ⟨(hw.1.step m).2, hw.2.1.step (fun _ _ ↦ rfl) hw.1 hm.answered',
      hw.2.2.step hw.2.1 hw.1 hm⟩) ⟨.new hs, .new hs, hstart⟩ ha
  generalize run World.step (World.new store) moves = w at *
  have hgo : w.shared.sched.paused ≠ true := by
    rw [hrunning]
    exact Bool.false_ne_true
  constructor
  · -- whoever named the account has the lock
    intro hb
    rcases hg id with hclosed | ⟨task, φ, hφ, ho⟩
    · cases hl.symm.trans (hclosed.resolve_left hgo hb)
    · rw [(h.blank_of_free hfree (Pool.phase_of_active hφ)).duty] at ho
      cases ho
  · have hagree := (hc.free h hfree id).resolve_left hgo
    rw [Agree, hl] at hagree
    obtain ⟨row, hrow, hv⟩ := Option.map_eq_some_iff.mp hagree.symm
    exact ⟨row, hrow, hv⟩

/-- A call that disables account 7 is dropped after it blocked it: the lock is free, dispatch goes
on, and the account stays blocked. -/
theorem bracket_left_open :
    (Sample.after (Sample.store (Sample.account true none) [])
      (.spawn 1 (.setEnabled 7 false (some .adminDisabled)) ::
        Sample.dropped 1 (Sample.env .answered 0) 3)).shared.locks.lookup .mutations = none ∧
    (Sample.after (Sample.store (Sample.account true none) [])
      (.spawn 1 (.setEnabled 7 false (some .adminDisabled)) ::
        Sample.dropped 1 (Sample.env .answered 0) 3)).shared.sched.paused = false ∧
    ((Sample.after (Sample.store (Sample.account true none) [])
      (.spawn 1 (.setEnabled 7 false (some .adminDisabled)) ::
        Sample.dropped 1 (Sample.env .answered 0) 3)).shared.sched.accounts.lookup 7).isSome =
      true ∧
    7 ∈ (Sample.after (Sample.store (Sample.account true none) [])
      (.spawn 1 (.setEnabled 7 false (some .adminDisabled)) ::
        Sample.dropped 1 (Sample.env .answered 0) 3)).shared.sched.blocked := by decide +kernel

/-- An observation is dropped under the lock before it names account 7, which is then disabled. -/
theorem bracket_closed_after_drop :
    7 ∉ (Sample.after (Sample.store (Sample.account true none) [])
      (.spawn 1 (.applyQuotaObservation 7 1 [Sample.window 50 5000] none false) ::
        Sample.dropped 1 (Sample.env .answered 0) 3 ++
          .spawn 2 (.setEnabled 7 false (some .adminDisabled)) ::
            Sample.turns 2 (Sample.env .answered 0) 9)).shared.sched.blocked := by
  have hl : ((Sample.after (Sample.store (Sample.account true none) [])
      (.spawn 1 (.applyQuotaObservation 7 1 [Sample.window 50 5000] none false) ::
        Sample.dropped 1 (Sample.env .answered 0) 3 ++
          .spawn 2 (.setEnabled 7 false (some .adminDisabled)) ::
            Sample.turns 2 (Sample.env .answered 0) 9)).shared.sched.accounts.lookup 7).isSome =
      true := by decide +kernel
  obtain ⟨a, hl⟩ := Option.isSome_iff_exists.mp hl
  exact (bracket_closed (Sample.sound rfl _) (by decide +kernel) (by decide +kernel)
    (by decide +kernel) hl).1

end World
end Xxgate.Accounts

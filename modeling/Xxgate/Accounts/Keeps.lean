import Xxgate.Accounts.Monitor

/-!
# Account maintenance keeps to the monitor

One lemma for each function: under every reply it makes only calls that are in order, and
when it returns the task has the locks it had and owes the scheduler nothing.
-/

namespace Xxgate.Accounts

open Xxgate.Base Xxgate.Core Xxgate.Store
open Coroutine

variable {φ ψ χ : Standing}

namespace Standing

/-- A function that was called without the `mutations` lock returned: only what was read and
observed changed. -/
structure Passed (φ ψ : Standing) : Prop where
  job : ψ.job = φ.job
  held : ψ.held = φ.held
  duty : ψ.duty = .clear
  span : ψ.span = φ.span
  base : ψ.base = φ.base
  renewal : ψ.renewal = φ.renewal
  refused : ψ.refused = φ.refused

/-- Between functions a task does not have the `mutations` lock and owes nothing. -/
structure Calm (φ : Standing) : Prop where
  free : .mutations ∉ φ.held
  duty : φ.duty = .clear

/-- The task is in the critical section it entered at `φ`. -/
structure Within (φ ψ : Standing) : Prop where
  job : ψ.job = φ.job
  held : ψ.held = insert .mutations φ.held
  span : ψ.span = φ.span
  base : ψ.base = φ.base
  renewal : ψ.renewal = φ.renewal
  refused : ψ.refused = φ.refused

private theorem Passed.refl (h : φ.Calm) : φ.Passed φ := ⟨rfl, rfl, h.duty, rfl, rfl, rfl, rfl⟩

private theorem Passed.trans (h : φ.Passed ψ) (h' : ψ.Passed χ) : φ.Passed χ :=
  ⟨h'.job.trans h.job, h'.held.trans h.held, h'.duty, h'.span.trans h.span,
    h'.base.trans h.base, h'.renewal.trans h.renewal, h'.refused.trans h.refused⟩

private theorem Passed.calm (h : φ.Passed ψ) (hc : φ.Calm) : ψ.Calm :=
  ⟨fun hm ↦ hc.free (h.held ▸ hm), h.duty⟩

private theorem Within.mem (h : φ.Within ψ) : .mutations ∈ ψ.held := by
  rw [h.held]
  exact Finset.mem_insert_self _ _

/-- Leaving the critical section leaves what was known before. -/
theorem Within.unlocked (h : φ.Within ψ) (hc : φ.Calm) : φ.Passed (ψ.unlocked .mutations) where
  job := h.job
  held := by
    show ψ.held.erase .mutations = φ.held
    rw [h.held, Finset.erase_insert hc.free]
  duty := rfl
  span := h.span
  base := h.base
  renewal := h.renewal
  refused := h.refused

/-- Outside the observing functions there is no version to compare with. -/
theorem current_of_span (h : φ.span = none) : φ.Current := fun _ ho ↦ nomatch h.symm.trans ho

/-- Outside the observing functions any account may be looked up. -/
theorem unobserved (h : φ.span = none) (id : Uuid) : ∀ o, φ.span = some o → id = o.id :=
  fun _ ho ↦ nomatch h.symm.trans ho

private theorem Within.current (h : φ.Within ψ) (hs : φ.span = none) : ψ.Current :=
  current_of_span (h.span.trans hs)

/-- Whether the store failed matters in the observing functions only. -/
theorem Within.faulty (h : φ.Within ψ) (b : Bool) : φ.Within { ψ with faulty := b } :=
  ⟨h.job, h.held, h.span, h.base, h.renewal, h.refused⟩

/-- A write within the critical section stays within it. -/
theorem Within.wrote (h : φ.Within ψ) (failed : Duty) (r : Result Account) :
    φ.Within (ψ.wrote failed r) := by
  cases r with
  | error x => exact ⟨h.job, h.held, h.span, h.base, h.renewal, h.refused⟩
  | ok a => exact ⟨h.job, h.held, h.span, h.base, h.renewal, h.refused⟩

/-- What the clock and the settings say matters under the lock only. -/
theorem next_consult_free (h : .mutations ∉ φ.held) (q : Consult) (r : q.Reply) :
    monitor.next φ (.consult q) r = φ := by
  cases q with
  | now | staleAfter => exact if_neg h
  | _ => rfl

/-- Asking something whose reply is free changes what is known of the clock and the settings. -/
theorem next_consult (φ : Standing) (q : Consult) (r : q.Reply) : ∃ now stale,
    monitor.next φ (.consult q) r = { φ with now := now, staleAfter := stale } := by
  show ∃ now stale, φ.next (.consult q) r = { φ with now := now, staleAfter := stale }
  cases q with
  | now =>
    by_cases h : .mutations ∈ φ.held
    · exact ⟨some r, φ.staleAfter, if_pos h⟩
    · exact ⟨φ.now, φ.staleAfter, if_neg h⟩
  | staleAfter =>
    by_cases h : .mutations ∈ φ.held
    · exact ⟨φ.now, some r, if_pos h⟩
    · exact ⟨φ.now, φ.staleAfter, if_neg h⟩
  | _ => exact ⟨φ.now, φ.staleAfter, rfl⟩

/-- A call of a refresh changes what is known of the refresh. -/
theorem next_renewal (φ : Standing) {c : Call} (hc : c.isRenewal = true) (r : c.Reply) :
    ∃ renewal refused, φ.next c r = { φ with renewal := renewal, refused := refused } := by
  cases c with
  | post id previous => exact ⟨.posted id previous, φ.refused, rfl⟩
  | refresh id account previous =>
    rcases r with x | credentials
    · exact ⟨.idle, φ.refused, rfl⟩
    · exact ⟨.answered id credentials, φ.refused, rfl⟩
  | validateCredentials credentials =>
    rcases r with x | u
    · by_cases h : φ.renewal = .idle
      · exact ⟨φ.renewal, φ.refused, if_pos h⟩
      · exact ⟨φ.renewal, true, if_neg h⟩
    · exact ⟨φ.renewal, φ.refused, rfl⟩
  | _ => cases hc

private theorem Within.consult (hw : φ.Within ψ) (q : Consult) (r : q.Reply) :
    φ.Within (monitor.next ψ (.consult q) r) ∧
      (monitor.next ψ (.consult q) r).duty = ψ.duty := by
  obtain ⟨now, stale, h⟩ := next_consult ψ q r
  rw [h]
  exact ⟨⟨hw.job, hw.held, hw.span, hw.base, hw.renewal, hw.refused⟩, rfl⟩

end Standing

open Standing

/-! ### Building blocks -/

private theorem locked_meets {α : Type} {l : Lock} {m : Run α}
    {Q : Except Error α → Unit → Standing → Prop} (hl : l ∉ φ.held) (hc : .mutations ∉ φ.held)
    (hs : l = .mutations → φ.span = none ∨ φ.looked = none)
    (h : m.Meets monitor () { φ with held := insert l φ.held } fun x _ ψ ↦
      ψ.InOrder (.unlock l) ∧ Q x () (ψ.unlocked l)) :
    (locked l m).Meets monitor () φ Q := by
  unfold locked
  simp only [meets_bind, meets_ask, meets_outcome, meets_ok]
  exact ⟨⟨hl, hc, hs⟩, fun _ ↦ h.mono fun x _ ψ h ↦ ⟨h.1, fun _ ↦ h.2⟩⟩

/-- A critical section: its body has to pay its duty. -/
theorem critical_meets {α : Type} {m : Run α} {Q : Except Error α → Unit → Standing → Prop}
    (hc : φ.Calm) (hs : φ.span = none ∨ φ.looked = none)
    (h : ∀ ψ, φ.Within ψ → ψ.duty = .clear → m.Meets monitor () ψ fun x _ χ ↦
      φ.Within χ ∧ χ.duty.Done ∧ Q x () (χ.unlocked .mutations)) :
    (locked .mutations m).Meets monitor () φ Q := by
  have hw : φ.Within { φ with held := insert .mutations φ.held } :=
    ⟨rfl, rfl, rfl, rfl, rfl, rfl⟩
  refine locked_meets hc.free hc.free (fun _ ↦ hs) ((h _ hw hc.duty).mono fun x _ χ h ↦ ⟨?_, h.2.2⟩)
  exact ⟨h.1.mem, fun _ ↦ ⟨rfl, h.2.1⟩, nofun⟩

/-- Under the lock the account looked up is noted. -/
theorem found_meets {id : Uuid} {Q : Except Error Account → Unit → Standing → Prop}
    (hw : φ.Within ψ) (hd : ψ.duty = .clear) (hs : ∀ o, φ.span = some o → id = o.id)
    (hok : ∀ a χ, φ.Within χ → χ.duty = .clear → χ.seen = some (id, a) →
      (φ.span.isSome = true → χ.looked = some a) → Q (.ok a) () χ)
    (herr : ∀ x χ, φ.Within χ → χ.duty = .clear →
      (φ.span.isSome = true → χ.looked = none) → Q (.error x) () χ) :
    (found id).Meets monitor () ψ Q := by
  unfold found
  simp only [meets_bind, meets_ask, meets_ok]
  refine ⟨⟨hd, fun _ o ho ↦ hs o (hw.span.symm.trans ho)⟩, ?_⟩
  rintro (_ | a)
  · refine herr _ (ψ.lookedUp id none) ?_ ?_ fun hs ↦ ?_
    · rw [lookedUp, if_pos hw.mem]
      exact ⟨hw.job, hw.held, hw.span, hw.base, hw.renewal, hw.refused⟩
    · rw [lookedUp, if_pos hw.mem]
      exact hd
    · rw [lookedUp, if_pos hw.mem]
      exact if_pos (hw.span ▸ hs)
  · refine hok a (ψ.lookedUp id (some a)) ?_ ?_ ?_ fun hs ↦ ?_
    · rw [lookedUp, if_pos hw.mem]
      exact ⟨hw.job, hw.held, hw.span, hw.base, hw.renewal, hw.refused⟩
    · rw [lookedUp, if_pos hw.mem]
      exact hd
    · rw [lookedUp, if_pos hw.mem]
      rfl
    · rw [lookedUp, if_pos hw.mem]
      exact if_pos (hw.span ▸ hs)

/-- Looking an account up without the lock. -/
theorem found_free_meets {id : Uuid} {Q : Except Error Account → Unit → Standing → Prop}
    (hc : φ.Calm) (hq : ∀ x ψ, ψ = φ.lookedUp id x.toOption → Q x () ψ) :
    (found id).Meets monitor () φ Q := by
  unfold found
  simp only [meets_bind, meets_ask, meets_ok]
  refine ⟨⟨hc.duty, fun hm ↦ absurd hm hc.free⟩, ?_⟩
  rintro (_ | a)
  · exact hq _ _ rfl
  · exact hq _ _ rfl

/-- Without its refresh lock nothing is noted of an account. -/
theorem Standing.Calm.lookedUp (hc : φ.Calm) {id : Uuid} (hr : .refresh id ∉ φ.held)
    (a : Option Account) : φ.lookedUp id a = φ := by
  rw [Standing.lookedUp, if_neg hc.free, if_neg hr]

/-- Reading the accounts back and publishing them, or pausing, pays the duty. -/
theorem updateAccounts_meets {rows : List Account} {id : Uuid} (hw : φ.Within ψ)
    (hs : φ.span = none) (hd : ψ.duty = .reloaded id rows) :
    (updateAccounts rows).Meets monitor () ψ fun _ _ χ ↦ φ.Within χ ∧ χ.duty.Done := by
  induction rows generalizing ψ with
  | nil => exact ⟨hw, by rw [hd]; exact rfl⟩
  | cons a rest ih =>
    unfold updateAccounts
    simp only [meets_bind, meets_ask]
    refine ⟨⟨hw.mem, hw.current hs, .inr ⟨hw.span.trans hs, .inr ⟨id, rest, hd⟩⟩⟩,
      fun _ ↦ ih ?_ ?_⟩
    · exact ⟨hw.job, hw.held, hw.span, hw.base, hw.renewal, hw.refused⟩
    · show (ψ.published' a).duty = .reloaded id rest
      rw [published', hd]
      rfl

private theorem reload_meets {id : Uuid} (hw : φ.Within ψ) (hs : φ.span = none)
    (hd : ψ.duty = .doubtful id) :
    reload.Meets monitor () ψ fun _ _ χ ↦ φ.Within χ ∧ χ.duty.Done := by
  unfold reload
  simp only [meets_bind, meets_ask]
  refine ⟨⟨hw.mem, id, hd⟩, ?_⟩
  rintro (x | rows)
  · exact ⟨⟨hw.mem, id, hd⟩, fun _ ↦
      ⟨⟨hw.job, hw.held, hw.span, hw.base, hw.renewal, hw.refused⟩, trivial⟩⟩
  · have hread : (ψ.next .storedAccounts (.ok rows)).duty = .reloaded id rows := by
      simp only [Standing.next, hd]
    refine updateAccounts_meets ?_ hs hread
    show φ.Within (ψ.next .storedAccounts (.ok rows))
    simp only [Standing.next, hd]
    exact ⟨hw.job, hw.held, hw.span, hw.base, hw.renewal, hw.refused⟩

/-- Publishing what was written, or taking the accounts back, pays the duty. -/
theorem publishOrReload_meets {r : Result Account} {id : Uuid} (hw : φ.Within ψ)
    (hs : φ.span = none) (hok : ∀ a, r = .ok a → ψ.duty = .written a)
    (herr : ∀ x, r = .error x → ψ.duty = .doubtful id) :
    (publishOrReload r).Meets monitor () ψ fun _ _ χ ↦ φ.Within χ ∧ χ.duty.Done := by
  cases r with
  | error x =>
    unfold publishOrReload
    simp only [meets_bind, meets_fail]
    refine (reload_meets hw hs (herr x rfl)).mono ?_
    rintro (y | u) _ χ h
    · exact h
    · exact h
  | ok a =>
    unfold publishOrReload
    simp only [meets_bind, meets_ask, meets_pure]
    refine ⟨⟨hw.mem, hw.current hs, .inl (hok a rfl)⟩, fun _ ↦ ⟨?_, ?_⟩⟩
    · exact ⟨hw.job, hw.held, hw.span, hw.base, hw.renewal, hw.refused⟩
    · show (ψ.published' a).duty.Done
      rw [published', hok a rfl]
      trivial

/-! ### Enabling and disabling -/

/-- The account is blocked, the change written, and published, or dispatch is paused. -/
theorem setEnabledOrPause_meets {id : Uuid} {enabled : Bool} {reason : Option DisableReason}
    {account : Account} (hw : φ.Within ψ) (hd : ψ.duty = .clear) (hcur : ψ.Current)
    (hsaw : ψ.Saw id account)
    (hset : { ψ with duty := .blocked id }.MaySet id enabled reason account "upstream") :
    (setEnabledOrPause id enabled reason account.version).Meets monitor () ψ fun x _ χ ↦
      φ.Within χ ∧ χ.duty.Done ∧ χ.looked = ψ.looked ∧
        if x.isOk then φ.span.isSome = true → χ.published.isSome = true
        else χ.faulty = true := by
  unfold setEnabledOrPause
  simp only [meets_bind, meets_ask]
  refine ⟨⟨hw.mem, hd, hcur, account, hsaw⟩, fun _ ↦
    ⟨⟨hw.mem, hcur, account, hsaw, rfl, hset⟩, ?_⟩⟩
  rintro (x | a)
  · simp only [meets_bind, meets_ask, meets_fail]
    exact ⟨⟨hw.mem, id, rfl⟩, fun _ ↦
      ⟨⟨hw.job, hw.held, hw.span, hw.base, hw.renewal, hw.refused⟩, trivial, rfl, Bool.or_true _⟩⟩
  · simp only [meets_ask]
    refine ⟨⟨hw.mem, hcur, .inl rfl⟩, fun _ ↦
      ⟨⟨hw.job, hw.held, hw.span, hw.base, hw.renewal, hw.refused⟩, trivial, rfl, fun hs ↦ ?_⟩⟩
    show (if ψ.span.isSome then some a else ψ.published).isSome = true
    rw [hw.span, if_pos hs]
    rfl

private theorem setEnabled_meets {id : Uuid} {enabled : Bool} {reason : Option DisableReason}
    (hc : φ.Calm) (hs : φ.span = none) (hjob : φ.job = .setEnabled id enabled reason) :
    (setEnabled id enabled reason "admin").Meets monitor () φ fun _ _ ψ ↦ φ.Passed ψ := by
  unfold setEnabled
  refine critical_meets hc (.inl hs) fun ψ hw hd ↦ ?_
  simp only [meets_bind]
  refine found_meets hw hd (unobserved hs id) (fun a ψ hw hd hseen _ ↦ ?_) fun x ψ hw hd _ ↦ ?_
  · have hsaw : ∀ χ : Standing, χ.seen = ψ.seen → χ.Saw id a := fun χ hχ ↦
      ⟨id, hχ.trans hseen, .inl rfl⟩
    -- the write and what follows it, from either duty
    have hwrite : ∀ χ, φ.Within χ → χ.seen = ψ.seen → (χ.duty = .clear ∨ χ.duty = .blocked id) →
        (enabled = false → χ.duty = .blocked id) →
        (do publishOrReload (← call (.setEnabled id enabled reason a.version "admin")) :
          Run Account).Meets monitor () χ fun _ _ χ ↦
            φ.Within χ ∧ χ.duty.Done ∧ φ.Passed (χ.unlocked .mutations) := by
      intro χ hχ hsame hduty hdis
      simp only [meets_bind, meets_ask]
      refine ⟨⟨hχ.mem, hχ.current hs, a, hsaw χ hsame, rfl, ?_⟩, fun r ↦ ?_⟩
      · refine ⟨fun he ↦ .inl ⟨reason, ?_, rfl⟩, fun he ↦ ⟨hdis he, .inl ?_⟩, hduty,
          fun o r ho ↦ ?_⟩
        · rw [← he]
          exact hχ.job.trans hjob
        · rw [← he]
          exact hχ.job.trans hjob
        · cases (hχ.span.trans hs).symm.trans ho
      · have herr : ∀ x, r = .error x → (χ.wrote (.doubtful id) r).duty = .doubtful id := by
          rintro x rfl
          rfl
        refine (publishOrReload_meets ((hχ.wrote _ r).faulty (χ.faulty || !r.isOk)) hs ?_
            herr).mono
          fun _ _ ρ hρ ↦ ⟨hρ.1, hρ.2, hρ.1.unlocked hc⟩
        rintro account rfl
        rfl
    simp only [meets_doWhen]
    cases enabled with
    | true => exact hwrite ψ hw rfl (.inl hd) (by rintro ⟨⟩)
    | false =>
      refine ⟨⟨hw.mem, hd, hw.current hs, a, hsaw ψ rfl⟩, fun _ ↦ ?_⟩
      exact hwrite _ ⟨hw.job, hw.held, hw.span, hw.base, hw.renewal, hw.refused⟩ rfl (.inr rfl)
        fun _ ↦ rfl
  · exact ⟨hw, by rw [hd]; trivial, hw.unlocked hc⟩

/-- A call of an observing function begins and returns outside the lock. -/
theorem observing_meets {α : Type} {o : Observation} {m : Run α} (hc : φ.Calm)
    (hs : φ.span = none)
    (h : ∀ ψ, ψ.Calm → ψ.span = some o → ψ.looked = none → m.Meets monitor () ψ fun x _ χ ↦
        ψ.Passed χ ∧ χ.MayReturn o x.isOk) :
    (observing o m).Meets monitor () φ fun _ _ ψ ↦ φ.Passed ψ := by
  unfold observing
  simp only [meets_bind, meets_ask, meets_outcome, meets_ok]
  refine ⟨⟨hc.free, hs⟩, fun _ ↦ ?_⟩
  refine (h { φ with span := some o, looked := none, published := none, faulty := false }
    ⟨hc.free, hc.duty⟩ rfl rfl).mono fun x _ χ hx ↦ ?_
  obtain ⟨hp, hleave⟩ := hx
  refine ⟨⟨fun hm ↦ hc.free (hp.held ▸ hm), hp.span, hleave⟩, fun _ ↦ ?_⟩
  exact ⟨hp.job, hp.held, hp.duty, hs.symm, hp.base, hp.renewal, hp.refused⟩

/-- Closing the extra credits changes only what was read. -/
theorem blockExtraCredits_meets {id : Uuid} {o : Observation} (hw : φ.Within ψ)
    (hd : ψ.duty = .clear) (hcur : ψ.Current) (hs : φ.span = some o) (hid : id = o.id) :
    (blockExtraCredits id).Meets monitor () ψ fun x _ χ ↦ φ.Within χ ∧ χ.duty = .clear ∧
      χ.seen = ψ.seen ∧ χ.looked = ψ.looked ∧ ∀ e, x = .error e → χ.faulty = true := by
  unfold blockExtraCredits
  simp only [meets_bind, meets_ask, meets_ok]
  refine ⟨trivial, ?_⟩
  rintro (x | credits)
  · exact ⟨⟨hw.job, hw.held, hw.span, hw.base, hw.renewal, hw.refused⟩, hd, rfl, rfl, fun _ _ ↦ rfl⟩
  · have hnext : monitor.next ψ (.extraCredits id) (.ok credits) =
        { ψ with credits := some (id, credits) } := if_pos hw.mem
    rw [hnext]
    cases credits with
    | none =>
      exact ⟨⟨hw.job, hw.held, hw.span, hw.base, hw.renewal, hw.refused⟩, hd, rfl, rfl,
        fun _ h ↦ by cases h⟩
    | some credits =>
      simp only [meets_bind, meets_ask, meets_ok]
      refine ⟨trivial, fun now ↦ ?_⟩
      have hnow : monitor.next { ψ with credits := some (id, some credits) } (.consult .now) now =
          { ψ with credits := some (id, some credits), now := some now } := if_pos hw.mem
      rw [hnow]
      refine ⟨⟨hw.mem, ⟨o, hw.span.trans hs, hid⟩, hcur, hd⟩, fun r ↦ ?_⟩
      refine ⟨⟨hw.job, hw.held, hw.span, hw.base, hw.renewal, hw.refused⟩, hd, rfl, rfl, ?_⟩
      rintro x rfl
      exact Bool.or_true _

private theorem disableObserved_meets {id : Uuid} {version : Int} {reason : DisableReason}
    (hc : φ.Calm) (hs : φ.span = none) :
    (disableObserved id version reason).Meets monitor () φ fun _ _ ψ ↦ φ.Passed ψ := by
  unfold disableObserved
  refine observing_meets hc hs fun φ hc hs hl ↦ critical_meets hc (.inr hl) fun ψ hw hd ↦ ?_
  simp only [meets_bind]
  refine found_meets hw hd (fun o ho ↦ ?_) (fun a ψ hw hd hseen hlooked ↦ ?_)
    fun x ψ hw hd hnone ↦ ?_
  · cases hs.symm.trans ho
    rfl
  · have hlooked : ψ.looked = some a := hlooked (by rw [hs]; rfl)
    dsimp only
    by_cases hstale : (!a.enabled || decide (a.version ≠ version)) = true
    · rw [if_pos hstale]
      refine ⟨hw, by rw [hd]; trivial, hw.unlocked hc, fun _ ↦ ⟨a, hlooked, ?_⟩⟩
      simp only [Bool.or_eq_true, Bool.not_eq_true', decide_eq_true_eq] at hstale
      exact hstale.imp_right .inl
    · rw [if_neg hstale]
      simp only [Bool.or_eq_true, Bool.not_eq_true', decide_eq_true_eq, not_or, ne_eq,
        Decidable.not_not] at hstale
      have hcurrent : ∀ χ, φ.Within χ → χ.seen = ψ.seen → χ.Current := by
        intro χ hχ hsame o ho
        cases (hχ.span.trans hs).symm.trans ho
        exact ⟨a, ⟨id, hsame.trans hseen, .inl rfl⟩, hstale.2⟩
      have hset : ∀ χ, φ.Within χ → χ.duty = .clear → χ.seen = ψ.seen → χ.looked = ψ.looked →
          (setEnabledOrPause id false (some reason) a.version).Meets monitor () χ fun x _ ρ ↦
            φ.Within ρ ∧ ρ.duty.Done ∧ φ.Passed (ρ.unlocked .mutations) ∧
              (ρ.unlocked .mutations).MayReturn ⟨id, version, some reason⟩ x.isOk := by
        intro χ hχ hd hsame hlook
        refine (setEnabledOrPause_meets hχ hd (hcurrent χ hχ hsame)
          ⟨id, hsame.trans hseen, .inl rfl⟩ ?_).mono ?_
        · refine ⟨by rintro ⟨⟩, fun _ ↦ ⟨rfl, .inr ?_⟩, .inr rfl, fun o r ho hr ↦ ?_⟩
          · simpa using hstale.1
          cases (hχ.span.trans hs).symm.trans ho
          exact ⟨rfl, hr⟩
        · rintro x _ ρ ⟨hρ, hdone, hl, hpub⟩
          refine ⟨hρ, hdone, hρ.unlocked hc, fun _ ↦ ?_⟩
          rcases x with x | u
          · exact .inr hpub
          · exact ⟨a, (hl.trans hlook).trans hlooked, .inr (.inr (hpub (by rw [hs]; rfl)))⟩
      simp only [meets_bind, meets_doWhen]
      cases reason.isQuota with
      | false => exact hset ψ hw hd rfl rfl
      | true =>
        rw [if_pos rfl]
        refine (blockExtraCredits_meets hw hd (hcurrent ψ hw rfl) hs rfl).mono ?_
        rintro (x | u) _ χ ⟨hχ, hd, hsame, hlook, hfault⟩
        · exact ⟨hχ, by rw [hd]; trivial, hχ.unlocked hc, fun _ ↦ .inr (hfault x rfl)⟩
        · exact hset χ hχ hd hsame hlook
  · exact ⟨hw, by rw [hd]; trivial, hw.unlocked hc, fun _ ↦ .inl (hnone (by rw [hs]; rfl))⟩

/-- What is found about the extra credits is what was read of them. -/
theorem extraAvailable_meets {account : Account} {q : Uuid} {windows : List QuotaWindow}
    {now : Int} (hw : φ.Within ψ) (hd : ψ.duty = .clear) (hseen : ψ.seen = some (q, account))
    (hwindows : ψ.windows = some (account.id, windows)) (hnow : ψ.now = some now) :
    (extraAvailable account now).Meets monitor () ψ fun x _ χ ↦ φ.Within χ ∧
      χ.duty = .clear ∧ χ.seen = some (q, account) ∧ χ.windows = some (account.id, windows) ∧
        χ.now = some now ∧ ∀ extra, x = .ok extra → χ.extra account = extra := by
  unfold extraAvailable
  split
  · next huse =>
    simp only [meets_bind, meets_ask, meets_ok]
    refine ⟨trivial, ?_⟩
    rintro (x | credits)
    · exact ⟨hw.faulty true, hd, hseen, hwindows, hnow, fun _ h ↦ by cases h⟩
    · have hnext : monitor.next ψ (.extraCredits account.id) (.ok credits) =
          { ψ with credits := some (account.id, credits) } := if_pos hw.mem
      rw [hnext]
      cases credits with
      | none =>
        refine ⟨⟨hw.job, hw.held, hw.span, hw.base, hw.renewal, hw.refused⟩, hd, hseen, hwindows,
          hnow, fun extra he ↦ ?_⟩
        cases he
        simp [Standing.extra]
      | some credits =>
        simp only [meets_bind, meets_ask, meets_pure]
        refine ⟨trivial, fun stale ↦ ?_⟩
        have hstale : monitor.next { ψ with credits := some (account.id, some credits) }
            (.consult .staleAfter) stale =
              { ψ with credits := some (account.id, some credits), staleAfter := some stale } :=
          if_pos hw.mem
        rw [hstale]
        refine ⟨⟨hw.job, hw.held, hw.span, hw.base, hw.renewal, hw.refused⟩, hd, hseen, hwindows,
          hnow, fun extra he ↦ ?_⟩
        cases he
        simp [Standing.extra, huse, hnow]
  · next huse =>
    refine ⟨hw, hd, hseen, hwindows, hnow, fun extra he ↦ ?_⟩
    cases he
    simp only [Bool.not_eq_true] at huse
    simp [Standing.extra, huse]

/-- Without a blocking window there is no reason to disable. -/
theorem unblocked_of_reason {windows : List QuotaWindow} {extra : Bool} {now : Int}
    (h : (windows.find? (quotaBlocked · extra now)).bind (·.disableReason) = none) :
    ∀ w ∈ windows, quotaBlocked w extra now = false := by
  intro w hm
  cases hb : quotaBlocked w extra now with
  | false => rfl
  | true =>
    obtain ⟨w', hf⟩ := Option.isSome_iff_exists.mp
      (List.find?_isSome (p := (quotaBlocked · extra now)).mpr ⟨w, hm, hb⟩)
    rw [hf, Option.bind_some] at h
    have hblocked : quotaBlocked w' extra now = true :=
      List.find?_some (p := (quotaBlocked · extra now)) hf
    have hr := disableReason_of_quotaBlocked hblocked
    rw [h] at hr
    cases hr

private theorem reconcileQuotaLocked_meets {account : Account} {q : Uuid} {allowReenable : Bool}
    (hw : φ.Within ψ) (hd : ψ.duty = .clear) (hseen : ψ.seen = some (q, account))
    (hcur : ψ.Current) (hs : ∀ o, φ.span = some o → o.reason = none) :
    (reconcileQuotaLocked account allowReenable).Meets monitor () ψ fun _ _ χ ↦
      φ.Within χ ∧ χ.duty.Done := by
  have hdone : ∀ χ : Standing, χ.duty = .clear → χ.duty.Done := fun χ h ↦ by rw [h]; trivial
  unfold reconcileQuotaLocked
  dsimp only
  split
  · exact ⟨hw, hdone ψ hd⟩
  · next hgo =>
    simp only [meets_bind, meets_ask, meets_ok]
    refine ⟨trivial, ?_⟩
    rintro (x | windows)
    · exact ⟨hw, hdone ψ hd⟩
    · have hnext : monitor.next ψ (.quotas account.id) (.ok windows) =
          { ψ with windows := some (account.id, windows) } := if_pos hw.mem
      rw [hnext]
      dsimp only
      split
      · exact ⟨⟨hw.job, hw.held, hw.span, hw.base, hw.renewal, hw.refused⟩, hdone _ hd⟩
      · next hne =>
        simp only [meets_bind, meets_ask]
        refine ⟨trivial, fun now ↦ ?_⟩
        have hstep : monitor.next { ψ with windows := some (account.id, windows) }
            (.consult .now) now =
              { ψ with windows := some (account.id, windows), now := some now } := if_pos hw.mem
        rw [hstep]
        have hχ : φ.Within { ψ with windows := some (account.id, windows), now := some now } :=
          ⟨hw.job, hw.held, hw.span, hw.base, hw.renewal, hw.refused⟩
        refine (extraAvailable_meets hχ hd hseen rfl rfl).mono ?_
        rintro (x | extra) _ χ ⟨hχ, hd, hseen', hwin, hnow, hextra⟩
        · exact ⟨hχ, hdone χ hd⟩
        · dsimp only
          split
          · exact ⟨hχ, hdone χ hd⟩
          · next hchange =>
            have hcur' : χ.Current := by
              intro o ho
              obtain ⟨a, ⟨p, hp, hid⟩, hv⟩ := hcur o ((hw.span.trans hχ.span.symm).trans ho)
              exact ⟨a, ⟨p, (hseen'.trans hseen.symm).trans hp, hid⟩, hv⟩
            refine (setEnabledOrPause_meets hχ hd hcur' ⟨q, hseen', .inr rfl⟩ ?_).mono
              fun x _ ρ hρ ↦ ⟨hρ.1, hρ.2.1⟩
            refine ⟨fun he ↦ .inr ?_, fun he ↦ ⟨rfl, .inr ?_⟩, .inr rfl, fun o r ho hr ↦ ?_⟩
            · rw [he] at hchange
              have hoff : account.enabled = false := by
                cases hen : account.enabled with
                | false => rfl
                | true => exact absurd hen.symm (by simpa using hchange)
              refine ⟨hoff, ?_, ⟨windows, now, hwin, hnow, ?_, ?_⟩, rfl⟩
              · rw [hoff] at hgo
                simp only [Bool.not_false, Bool.true_and, Bool.or_eq_true, not_or,
                  Bool.not_eq_true', Bool.not_eq_false] at hgo
                exact hgo.2
              · rintro rfl
                exact hne rfl
              · show ∀ w ∈ windows, quotaBlocked w (χ.extra account) now = false
                rw [hextra extra rfl]
                exact unblocked_of_reason (by simpa using he)
            · cases hen : account.enabled with
              | true => rfl
              | false => exact absurd (he.trans hen.symm) hchange
            · rw [hs o (hχ.span.symm.trans ho)] at hr
              cases hr

private theorem applyQuotaObservation_meets {id : Uuid} {version : Int} {windows : List QuotaWindow}
    {credits : Option ExtraCredits} {allowReenable : Bool} (hc : φ.Calm) (hs : φ.span = none) :
    (applyQuotaObservation id version windows credits allowReenable).Meets monitor () φ
      fun _ _ ψ ↦ φ.Passed ψ := by
  unfold applyQuotaObservation
  split
  · exact .refl hc
  refine observing_meets hc hs fun φ hc hs hl ↦ critical_meets hc (.inr hl) fun ψ hw hd ↦ ?_
  have hend : ∀ χ, φ.Within χ → χ.duty.Done → ∀ x : Except Error Unit,
      φ.Within χ ∧ χ.duty.Done ∧ φ.Passed (χ.unlocked .mutations) ∧
        (χ.unlocked .mutations).MayReturn ⟨id, version, none⟩ x.isOk :=
    fun χ hχ hdone x ↦ ⟨hχ, hdone, hχ.unlocked hc, fun h ↦ nomatch h⟩
  have hdone : ∀ χ : Standing, χ.duty = .clear → χ.duty.Done := fun χ h ↦ by rw [h]; trivial
  simp only [meets_bind]
  refine found_meets hw hd (fun o ho ↦ ?_) (fun a ψ hw hd hseen _ ↦ ?_) fun x ψ hw hd _ ↦ ?_
  · cases hs.symm.trans ho
    rfl
  · dsimp only
    split
    · exact hend ψ hw (hdone ψ hd) (.ok ())
    · next hv =>
      have hcurrent : ∀ χ, φ.Within χ → χ.seen = ψ.seen → χ.Current := by
        intro χ hχ hsame o ho
        cases (hχ.span.trans hs).symm.trans ho
        exact ⟨a, ⟨id, hsame.trans hseen, .inl rfl⟩, Decidable.not_not.mp hv⟩
      have hspan : ∀ χ, φ.Within χ → ∃ o, χ.span = some o ∧ id = o.id := fun χ hχ ↦
        ⟨_, hχ.span.trans hs, rfl⟩
      have hreconcile : ∀ χ, φ.Within χ → χ.duty = .clear → χ.seen = ψ.seen →
          (reconcileQuotaLocked a (allowReenable && a.useExtraCredits)).Meets monitor () χ
            fun x _ ρ ↦ φ.Within ρ ∧ ρ.duty.Done ∧ φ.Passed (ρ.unlocked .mutations) ∧
              (ρ.unlocked .mutations).MayReturn ⟨id, version, none⟩ x.isOk := by
        intro χ hχ hd hsame
        refine (reconcileQuotaLocked_meets hχ hd (hsame.trans hseen) (hcurrent χ hχ hsame)
          fun o ho ↦ ?_).mono fun x _ ρ hρ ↦ hend ρ hρ.1 hρ.2 x
        cases (hs.symm.trans ho)
        rfl
      simp only [meets_bind, meets_ask, meets_ok]
      refine ⟨⟨hw.mem, hspan ψ hw, hcurrent ψ hw rfl, hd⟩, ?_⟩
      have hsaved : φ.Within { ψ with windows := none } :=
        ⟨hw.job, hw.held, hw.span, hw.base, hw.renewal, hw.refused⟩
      rintro (x | u)
      · exact hend _ hsaved (hdone _ hd) (.error x)
      · cases credits with
        | none => exact hreconcile _ hsaved hd rfl
        | some credits =>
          simp only [meets_bind, meets_ask, meets_ok]
          refine ⟨⟨hw.mem, hspan ψ hw, hcurrent _ hsaved rfl, hd⟩, fun r ↦ ?_⟩
          have hsaved : φ.Within { ψ with
              windows := none, credits := none, faulty := ψ.faulty || !r.isOk } :=
            ⟨hw.job, hw.held, hw.span, hw.base, hw.renewal, hw.refused⟩
          rcases r with x | u
          · exact hend _ hsaved (hdone _ hd) (.error x)
          · exact hreconcile _ hsaved hd rfl
  · exact hend ψ hw (hdone ψ hd) (.error x)

private theorem reconcileAccountQuotas_meets {id : Uuid} (hc : φ.Calm) (hs : φ.span = none) :
    (reconcileAccountQuotas id).Meets monitor () φ fun _ _ ψ ↦ φ.Passed ψ := by
  unfold reconcileAccountQuotas
  refine critical_meets hc (.inl hs) fun ψ hw hd ↦ ?_
  simp only [meets_bind]
  refine found_meets hw hd (unobserved hs id) (fun a ψ hw hd hseen _ ↦ ?_) fun x ψ hw hd _ ↦ ?_
  · refine (reconcileQuotaLocked_meets hw hd hseen (hw.current hs) fun o ho ↦ ?_).mono
      fun _ _ ρ hρ ↦ ⟨hρ.1, hρ.2, hρ.1.unlocked hc⟩
    rw [hs] at ho
    cases ho
  · exact ⟨hw, by rw [hd]; trivial, hw.unlocked hc⟩

/-- One function after the other, as long as they succeed. -/
theorem passed_bind {α β : Type} {m : Run α} {f : α → Run β} (hc : φ.Calm)
    (hm : m.Meets monitor () φ fun _ _ ψ ↦ φ.Passed ψ)
    (hf : ∀ a ψ, ψ.Calm → φ.Passed ψ → (f a).Meets monitor () ψ fun _ _ χ ↦ ψ.Passed χ) :
    (m >>= f).Meets monitor () φ fun _ _ ψ ↦ φ.Passed ψ := by
  rw [meets_bind]
  refine hm.mono ?_
  rintro (x | a) _ ψ h
  · exact h
  · exact (hf a ψ (h.calm hc) h).mono fun _ _ χ h' ↦ h.trans h'

/-- Taking an outcome changes nothing. -/
theorem passed_ok {α : Type} (hc : φ.Calm) (x : Except Error α) :
    (ok x : Run α).Meets monitor () φ fun _ _ ψ ↦ φ.Passed ψ := .refl hc

/-- Asking something whose reply is free changes nothing, but for the clock and the settings. -/
theorem passed_consult (hc : φ.Calm) (q : Consult) :
    (consult q).Meets monitor () φ fun _ _ ψ ↦ φ.Passed ψ := by
  refine ⟨trivial, fun r ↦ ?_⟩
  rw [next_consult_free hc.free]
  exact .refl hc

private theorem reenableExpired_meets {accounts : List Account} (hc : φ.Calm) (hs : φ.span = none) :
    (reenableExpired accounts).Meets monitor () φ fun _ _ ψ ↦ φ.Passed ψ := by
  induction accounts generalizing φ with
  | nil => exact .refl hc
  | cons account rest ih =>
    unfold reenableExpired
    refine passed_bind hc ?_ fun _ ψ hψ h ↦ ih hψ (h.span.trans hs)
    rw [meets_doWhen]
    split
    · exact reconcileAccountQuotas_meets hc hs
    · exact .refl hc

/-! ### Credentials -/

/-- The task is under the refresh lock it took at `φ`, with the account it looked up there. -/
structure Refreshing (φ : Standing) (id : Uuid) (account : Account) (ψ : Standing) : Prop where
  job : ψ.job = φ.job
  held : ψ.held = insert (.refresh id) φ.held
  duty : ψ.duty = .clear
  span : ψ.span = none
  base : ψ.base = some (id, account)
  renewal : ψ.renewal = .idle
  refused : ψ.refused = false

/-- Where the section may end: no credentials are left that the store would have taken. -/
structure Refreshed (φ : Standing) (id : Uuid) (ψ : Standing) : Prop where
  job : ψ.job = φ.job
  held : ψ.held = insert (.refresh id) φ.held
  duty : ψ.duty = .clear
  span : ψ.span = none
  renewal : ψ.renewal = .idle ∨ ψ.refused = true

private theorem Refreshing.mem {id : Uuid} {a : Account} (h : Refreshing φ id a ψ) :
    .refresh id ∈ ψ.held := by
  rw [h.held]
  exact Finset.mem_insert_self _ _

/-- Taking a refresh lock does not take the `mutations` lock. -/
theorem notMem_refresh {id : Uuid} (h : .mutations ∉ φ.held) :
    Lock.mutations ∉ insert (.refresh id) φ.held := by
  rw [Finset.mem_insert]
  rintro (hm | hm)
  · cases hm
  · exact h hm

private theorem Refreshing.calm {id : Uuid} {a : Account} (h : Refreshing φ id a ψ) (hc : φ.Calm) :
    ψ.Calm :=
  ⟨by rw [h.held]; exact notMem_refresh hc.free, h.duty⟩

private theorem Refreshing.done {id : Uuid} {a : Account} (h : Refreshing φ id a ψ) :
    Refreshed φ id ψ :=
  ⟨h.job, h.held, h.duty, h.span, .inl h.renewal⟩

/-- Functions called under the refresh lock return under it. -/
theorem Refreshing.passed {id : Uuid} {a : Account} (h : Refreshing φ id a ψ)
    (hp : ψ.Passed χ) : Refreshing φ id a χ :=
  ⟨hp.job.trans h.job, hp.held.trans h.held, hp.duty, hp.span.trans h.span,
    hp.base.trans h.base, hp.renewal.trans h.renewal, hp.refused.trans h.refused⟩

/-- Credentials that were answered are stored, and published when they are. -/
theorem storeRefreshed_meets {id : Uuid} {account : Account} {c : Credentials}
    (hc : φ.Calm) (h : Refreshing φ id account ψ) :
    (storeRefreshed id account c).Meets monitor () { ψ with renewal := .answered id c }
      fun _ _ χ ↦ Refreshed φ id χ := by
  have hψ := h.calm hc
  unfold storeRefreshed
  simp only [meets_bind, meets_ask, meets_ok]
  refine ⟨.inl ⟨id, rfl⟩, ?_⟩
  rintro (x | u)
  · exact ⟨h.job, h.held, h.duty, h.span, .inr rfl⟩
  · have hmem : .mutations ∈ insert Lock.mutations ψ.held := Finset.mem_insert_self _ _
    have hback : (insert Lock.mutations ψ.held).erase .mutations = insert (.refresh id) φ.held :=
      (Finset.erase_insert hψ.free).trans h.held
    refine locked_meets hψ.free hψ.free (fun _ ↦ .inl h.span) ?_
    simp only [meets_bind, meets_ask, meets_ok]
    refine ⟨⟨hmem, h.span, h.duty, rfl, .inl ⟨c, account, rfl, rfl, h.base, rfl,
      Finset.mem_insert_of_mem h.mem⟩⟩, ?_⟩
    rintro (x | updated)
    · refine ⟨⟨hmem, fun _ ↦ ⟨rfl, ?_⟩, (fun _ h ↦ by cases h)⟩, ?_⟩
      · show ψ.duty.Done
        rw [h.duty]
        trivial
      · exact ⟨h.job, hback, rfl, h.span, .inr rfl⟩
    · refine ⟨⟨hmem, current_of_span h.span, .inl rfl⟩, fun _ ↦
        ⟨⟨hmem, fun _ ↦ ⟨rfl, trivial⟩, (fun _ h ↦ by cases h)⟩, ?_⟩⟩
      exact ⟨h.job, hback, rfl, h.span, .inl rfl⟩

private theorem withoutRefresh_meets {id : Uuid} {account : Account} {c : Credentials}
    {force : Bool} (hc : φ.Calm) (h : Refreshing φ id account ψ) :
    (withoutRefresh id account c force).Meets monitor () ψ fun _ _ χ ↦ Refreshed φ id χ := by
  unfold withoutRefresh
  simp only [meets_bind, meets_ask]
  refine ⟨trivial, fun now ↦ ?_⟩
  rw [next_consult_free (h.calm hc).free]
  split
  · rw [meets_bind]
    refine (disableObserved_meets (h.calm hc) h.span).mono ?_
    rintro (x | u) _ χ hχ
    · exact (h.passed hχ).done
    · exact (h.passed hχ).done
  · split
    · exact h.done
    · exact h.done

private theorem refreshCredentials_meets {id : Uuid} {account : Account} {c : Credentials}
    (hc : φ.Calm) (h : Refreshing φ id account ψ) :
    (refreshCredentials id account c).Meets monitor () ψ fun _ _ χ ↦ Refreshed φ id χ := by
  unfold refreshCredentials
  simp only [meets_bind, meets_ask, meets_ok]
  refine ⟨trivial, ?_⟩
  rintro (x | u)
  · exact h.done
  · rw [next_consult_free (h.calm hc).free]
    have hcalm := h.calm hc
    refine ⟨⟨h.mem, hcalm.free, h.renewal, account, h.base⟩, fun _ ↦ ?_⟩
    refine ⟨⟨h.mem, hcalm.free, rfl, h.base⟩, ?_⟩
    rintro (x | fresh)
    · have herror : Refreshing φ id account { ψ with renewal := .idle } :=
        ⟨h.job, h.held, h.duty, h.span, h.base, rfl, h.refused⟩
      simp only [meets_bind, meets_doWhen]
      split
      · refine (disableObserved_meets (herror.calm hc) h.span).mono ?_
        rintro (y | u) _ χ hχ
        · exact (herror.passed hχ).done
        · exact (herror.passed hχ).done
      · exact herror.done
    · have hstore : (storeRefreshed id account fresh).Meets monitor ()
          { ψ with renewal := .answered id fresh } fun _ _ χ ↦ Refreshed φ id χ :=
        storeRefreshed_meets hc h
      exact hstore

/-- A task that asked for credentials has the locks it had. -/
theorem credentials_meets {id : Uuid} {force : Bool} (hc : φ.Calm) (hs : φ.span = none)
    (hr : .refresh id ∉ φ.held) (hb : φ.base = none) (hf : φ.renewal = .idle)
    (href : φ.refused = false) :
    (credentials id force).Meets monitor () φ fun _ _ ψ ↦ φ.Passed ψ := by
  have hmem : Lock.refresh id ∈ insert (.refresh id) φ.held := Finset.mem_insert_self _ _
  have hfree : Lock.mutations ∉ insert (.refresh id) φ.held := notMem_refresh hc.free
  have hend : ∀ ψ, Refreshed φ id ψ →
      ψ.InOrder (.unlock (.refresh id)) ∧ φ.Passed (ψ.unlocked (.refresh id)) := by
    intro ψ h
    refine ⟨⟨h.held ▸ hmem, fun hm ↦ absurd (h.held ▸ hm) hfree, fun _ _ ↦ h.renewal⟩, ?_⟩
    refine ⟨h.job, ?_, h.duty, h.span.trans hs.symm, hb.symm, hf.symm, href.symm⟩
    show ψ.held.erase (.refresh id) = φ.held
    rw [h.held, Finset.erase_insert hr]
  unfold credentials
  refine locked_meets hr hc.free (by rintro ⟨⟩) ?_
  simp only [meets_bind]
  refine found_free_meets ⟨hfree, hc.duty⟩ fun x ψ hψ ↦ ?_
  rw [lookedUp, if_neg hfree, if_pos hmem] at hψ
  subst hψ
  cases x with
  | error x =>
    exact hend _ ⟨rfl, rfl, hc.duty, hs, .inl hf⟩
  | ok account =>
    simp only [meets_ask, meets_ok]
    have hread : Refreshing φ id account
        { φ with held := insert (.refresh id) φ.held, base := some (id, account) } :=
      ⟨rfl, rfl, hc.duty, hs, rfl, hf, href⟩
    refine ⟨trivial, ?_⟩
    rintro (x | encrypted)
    · exact hend _ hread.done
    · dsimp only
      cases decrypt id encrypted with
      | error x => exact hend _ hread.done
      | ok c =>
        refine ⟨trivial, fun now ↦ ?_⟩
        have hnow : ∀ χ : Standing, χ.held = insert (.refresh id) φ.held →
            monitor.next χ (.consult .now) now = χ := fun χ h ↦
          next_consult_free (h ▸ hfree) _ _
        rw [hnow _ rfl]
        split
        · exact hend _ hread.done
        · split
          · exact (withoutRefresh_meets hc hread).mono fun _ _ χ hχ ↦ hend χ hχ
          · exact (refreshCredentials_meets hc hread).mono fun _ _ χ hχ ↦ hend χ hχ

/-! ### Control requests -/

/-- A task between functions that has no refresh lock. -/
structure Idle (φ : Standing) : Prop where
  calm : φ.Calm
  span : φ.span = none
  free : ∀ id, .refresh id ∉ φ.held
  base : φ.base = none
  renewal : φ.renewal = .idle
  refused : φ.refused = false

/-- Credentials that an administrator gives are nobody's refresh. -/
theorem Idle.rejected (h : Idle φ) {c : Credentials} {x : Error} :
    monitor.next φ (.validateCredentials c) (.error x) = φ := if_pos h.renewal

private theorem Idle.passed (h : Idle φ) (hp : φ.Passed ψ) : Idle ψ :=
  ⟨hp.calm h.calm, hp.span.trans h.span, fun id ↦ hp.held ▸ h.free id, hp.base.trans h.base,
    hp.renewal.trans h.renewal, hp.refused.trans h.refused⟩

/-- One function after the other, for a task without a refresh lock. -/
theorem idle_bind {α β : Type} {m : Run α} {f : α → Run β} (hi : Idle φ)
    (hm : m.Meets monitor () φ fun _ _ ψ ↦ φ.Passed ψ)
    (hf : ∀ a ψ, Idle ψ → (f a).Meets monitor () ψ fun _ _ χ ↦ ψ.Passed χ) :
    (m >>= f).Meets monitor () φ fun _ _ ψ ↦ φ.Passed ψ :=
  passed_bind hi.calm hm fun a ψ _ h ↦ hf a ψ (hi.passed h)

private theorem found_idle_meets {id : Uuid} (hi : Idle φ) :
    (found id).Meets monitor () φ fun _ _ ψ ↦ φ.Passed ψ := by
  refine found_free_meets hi.calm fun x ψ hψ ↦ ?_
  rw [hψ, hi.calm.lookedUp (hi.free id)]
  exact .refl hi.calm

private theorem controlExchange_meets {id : Uuid} {account : Account} (hi : Idle φ) :
    (controlExchange id account).Meets monitor () φ fun _ _ ψ ↦ φ.Passed ψ := by
  unfold controlExchange
  refine idle_bind hi (passed_consult hi.calm _) fun r φ hi ↦ ?_
  refine idle_bind hi (passed_ok hi.calm _) fun status φ hi ↦ ?_
  split
  · exact .refl hi.calm
  · refine idle_bind hi (passed_consult hi.calm _) fun r φ hi ↦ ?_
    obtain ⟨error, reason⟩ := r
    cases reason with
    | none => exact .refl hi.calm
    | some reason =>
      exact idle_bind hi (disableObserved_meets hi.calm hi.span) fun _ φ hi ↦ .refl hi.calm

private theorem collectQuotas_meets {id : Uuid} (hi : Idle φ) :
    (collectQuotas id).Meets monitor () φ fun _ _ ψ ↦ φ.Passed ψ := by
  unfold collectQuotas
  refine idle_bind hi (credentials_meets hi.calm hi.span (hi.free id) hi.base hi.renewal hi.refused)
    fun _ φ hi ↦ ?_
  refine idle_bind hi (found_idle_meets hi) fun account φ hi ↦ ?_
  refine idle_bind hi (passed_consult hi.calm _) fun r φ hi ↦ ?_
  refine idle_bind hi (passed_ok hi.calm _) fun _ φ hi ↦ ?_
  refine idle_bind hi (controlExchange_meets hi) fun _ φ hi ↦ ?_
  refine idle_bind hi (passed_consult hi.calm _) fun r φ hi ↦ ?_
  refine idle_bind hi (passed_ok hi.calm _) fun windows φ hi ↦ ?_
  refine idle_bind hi (passed_consult hi.calm _) fun r φ hi ↦ ?_
  refine idle_bind hi (passed_ok hi.calm _) fun credits φ hi ↦ ?_
  exact applyQuotaObservation_meets hi.calm hi.span

/-! ### The model catalogue -/

private theorem discoverModels_meets {id : Uuid} (hi : Idle φ) :
    (discoverModels id).Meets monitor () φ fun _ _ ψ ↦ φ.Passed ψ := by
  unfold discoverModels
  refine idle_bind hi (credentials_meets hi.calm hi.span (hi.free id) hi.base hi.renewal hi.refused)
    fun _ φ hi ↦ ?_
  refine idle_bind hi (found_idle_meets hi) fun account φ hi ↦ ?_
  refine idle_bind hi (passed_consult hi.calm _) fun r φ hi ↦ ?_
  refine idle_bind hi (passed_ok hi.calm _) fun _ φ hi ↦ ?_
  refine idle_bind hi (controlExchange_meets hi) fun _ φ hi ↦ ?_
  refine idle_bind hi (passed_consult hi.calm _) fun r φ hi ↦ ?_
  exact passed_ok hi.calm _

/-- The catalogue is written and published. -/
theorem saveCatalog_meets {id : Uuid} {catalog : AccountModelCatalog} (hs : φ.span = none)
    (hc : φ.Calm) (hw : φ.Within ψ) (hd : ψ.duty = .clear) :
    (saveCatalog id catalog).Meets monitor () ψ fun _ _ χ ↦
      φ.Within χ ∧ χ.duty.Done ∧ φ.Passed (χ.unlocked .mutations) := by
  unfold saveCatalog
  simp only [meets_bind, meets_ask, meets_ok]
  refine ⟨⟨hw.mem, hw.span.trans hs, hd⟩, ?_⟩
  rintro (x | updated)
  · have hχ := hw.wrote ψ.duty (.error x)
    refine ⟨hχ, ?_, hχ.unlocked hc⟩
    show ψ.duty.Done
    rw [hd]
    trivial
  · have hχ := hw.wrote ψ.duty (.ok updated)
    have hρ : φ.Within ((ψ.wrote ψ.duty (.ok updated)).published' updated) :=
      ⟨hχ.job, hχ.held, hχ.span, hχ.base, hχ.renewal, hχ.refused⟩
    refine ⟨⟨hχ.mem, hχ.current hs, .inl rfl⟩, fun _ ↦ ⟨trivial, ?_⟩⟩
    rintro (x | u)
    · exact ⟨hρ, trivial, hρ.unlocked hc⟩
    · exact ⟨hρ, trivial, hρ.unlocked hc⟩

private theorem recordModels_meets {id : Uuid} {result : Result (List String)} (hi : Idle φ) :
    (recordModels id result).Meets monitor () φ fun _ _ ψ ↦ φ.Passed ψ := by
  unfold recordModels
  refine critical_meets hi.calm (.inl hi.span) fun ψ hw hd ↦ ?_
  have hdone : ∀ χ : Standing, χ.duty = .clear → χ.duty.Done := fun χ h ↦ by rw [h]; trivial
  simp only [meets_bind]
  refine found_meets hw hd (unobserved hi.span id) (fun account ψ hw hd hseen _ ↦ ?_)
    fun x ψ hw hd _ ↦ ?_
  · refine ⟨trivial, fun attempted ↦ ?_⟩
    obtain ⟨hw, hd'⟩ := hw.consult .now attempted
    rw [hd] at hd'
    cases result with
    | error x => exact saveCatalog_meets hi.span hi.calm hw hd'
    | ok models =>
      simp only [meets_bind, meets_ask, meets_ok, meets_pure]
      refine ⟨trivial, ?_⟩
      rintro (x | u)
      · exact ⟨hw, hdone _ hd', hw.unlocked hi.calm⟩
      · refine ⟨trivial, fun synced ↦ ?_⟩
        obtain ⟨hw, hd''⟩ := hw.consult .now synced
        exact saveCatalog_meets hi.span hi.calm hw (hd''.trans hd')
  · exact ⟨hw, hdone ψ hd, hw.unlocked hi.calm⟩

/-- A task under its catalogue lock. -/
theorem catalogueLocked_meets {id : Uuid} {m : Run Unit} (hi : Idle φ)
    (hl : .modelSync id ∉ φ.held)
    (h : ∀ ψ, Idle ψ → m.Meets monitor () ψ fun _ _ χ ↦ ψ.Passed χ) :
    (locked (.modelSync id) m).Meets monitor () φ fun _ _ ψ ↦ φ.Passed ψ := by
  have hidle : Idle { φ with held := insert (.modelSync id) φ.held } := by
    refine ⟨⟨?_, hi.calm.duty⟩, hi.span, fun i ↦ ?_, hi.base, hi.renewal, hi.refused⟩
    · rw [Finset.mem_insert]
      rintro (hm | hm)
      · cases hm
      · exact hi.calm.free hm
    · rw [Finset.mem_insert]
      rintro (hm | hm)
      · cases hm
      · exact hi.free i hm
  refine locked_meets hl hi.calm.free nofun ((h _ hidle).mono fun _ _ χ hχ ↦ ⟨⟨?_, ?_, nofun⟩, ?_⟩)
  · rw [hχ.held]
    exact Finset.mem_insert_self _ _
  · exact fun hm ↦ absurd (hχ.held ▸ hm) hidle.calm.free
  · refine ⟨hχ.job, ?_, hχ.duty, hχ.span, hχ.base, hχ.renewal, hχ.refused⟩
    show χ.held.erase (.modelSync id) = φ.held
    rw [hχ.held, Finset.erase_insert hl]

private theorem syncModels_meets {id : Uuid} (hi : Idle φ) (hl : .modelSync id ∉ φ.held) :
    (syncModels id).Meets monitor () φ fun _ _ ψ ↦ φ.Passed ψ := by
  unfold syncModels
  refine catalogueLocked_meets hi hl fun φ hi ↦ ?_
  have hresult : (outcome (discoverModels id) : Run (Result (List String))).Meets monitor () φ
      fun _ _ ψ ↦ φ.Passed ψ := (meets_outcome _).mpr (discoverModels_meets hi)
  refine idle_bind hi hresult fun result φ hi ↦ ?_
  refine idle_bind hi (recordModels_meets hi) fun _ φ hi ↦ ?_
  exact idle_bind hi (passed_ok hi.calm _) fun _ φ hi ↦ .refl hi.calm

/-! ### The account handlers -/

private theorem validateSelection_meets {ids : List Uuid}
    {Q : Except Error Unit → Unit → Standing → Prop} (hq : ∀ x, Q x () φ) :
    (validateSelection ids).Meets monitor () φ Q := by
  unfold validateSelection
  simp only [meets_bind, meets_ask, meets_ok]
  refine ⟨trivial, ?_⟩
  rintro (x | groups)
  · exact hq _
  · dsimp only
    split
    · exact hq _
    · split
      · exact hq _
      · exact hq _

private theorem checkUnmanaged_meets {upstreamId message : String}
    {Q : Except Error Unit → Unit → Standing → Prop} (hq : ∀ x, Q x () φ) :
    (checkUnmanaged upstreamId message).Meets monitor () φ Q := by
  unfold checkUnmanaged
  simp only [meets_bind, meets_ask]
  refine ⟨trivial, fun accounts ↦ ?_⟩
  split
  · exact hq _
  · exact hq _

/-- A new account is written and published. -/
theorem storeNew_meets {account : Account} {c : Credentials} (hc : φ.Calm) (hs : φ.span = none)
    (hw : φ.Within ψ) (hd : ψ.duty = .clear) (hoff : account.enabled = false)
    (hjob : (∃ input, φ.job = .createAccount input) ∨
      ∃ input credentials, φ.job = .saveCredentials input credentials) :
    (storeNew account c).Meets monitor () ψ fun _ _ χ ↦
      φ.Within χ ∧ χ.duty.Done ∧ φ.Passed (χ.unlocked .mutations) := by
  unfold storeNew
  simp only [meets_bind, meets_ask, meets_ok]
  rw [← hw.job] at hjob
  refine ⟨⟨hw.mem, hw.span.trans hs, hd, hoff, ⟨c, rfl⟩, hjob⟩, ?_⟩
  rintro (x | updated)
  · have hχ := hw.wrote ψ.duty (.error x)
    refine ⟨hχ, ?_, hχ.unlocked hc⟩
    show ψ.duty.Done
    rw [hd]
    trivial
  · have hχ := hw.wrote ψ.duty (.ok updated)
    have hρ : φ.Within ((ψ.wrote ψ.duty (.ok updated)).published' updated) :=
      ⟨hχ.job, hχ.held, hχ.span, hχ.base, hχ.renewal, hχ.refused⟩
    exact ⟨⟨hχ.mem, hχ.current hs, .inl rfl⟩, fun _ ↦ ⟨hρ, trivial, hρ.unlocked hc⟩⟩

/-- The account asked for is a disabled one. -/
theorem requestedAccount_meets {input : CreateAccount} (hi : Idle φ)
    (hjob : φ.job = .createAccount input) :
    (requestedAccount input).Meets monitor () φ fun x _ ψ ↦
      φ.Passed ψ ∧ ∀ a, x = .ok a → a.enabled = false := by
  have hnew : ∀ upstreamId, (do
      let id ← consult .newId
      let concurrency ← consult .defaultConcurrency
      return { newAccount id input.groupIds input.name upstreamId
          (input.maxInflight.getD concurrency) input.credentials with
        codexOnly := input.codexOnly
        useExtraCredits := input.useExtraCredits
        models := input.models } : Run Account).Meets monitor () φ fun x _ ψ ↦
          φ.Passed ψ ∧ ∀ a, x = .ok a → a.enabled = false := by
    intro upstreamId
    simp only [meets_bind, meets_ask, meets_pure]
    exact ⟨trivial, fun id ↦ ⟨trivial, fun n ↦ ⟨.refl hi.calm, fun a ha ↦
      (congrArg Account.enabled (Except.ok.inj ha)).symm⟩⟩⟩
  unfold requestedAccount
  have herr : ∀ (x : Error) (a : Account), (.error x : Except Error Account) = .ok a →
      a.enabled = false := fun _ _ h ↦ by cases h
  rw [meets_bind, meets_ask]
  refine ⟨.inr ⟨hi.renewal, .inl ⟨input, hjob⟩⟩, ?_⟩
  rintro (x | u)
  · rw [hi.rejected]
    exact ⟨.refl hi.calm, herr x⟩
  · dsimp only
    rw [meets_bind, meets_ok]
    dsimp only
    cases input.upstreamAccountId with
    | some id =>
      rw [meets_bind, meets_pure]
      exact hnew id
    | none =>
      rw [meets_bind]
      simp only [meets_bind, meets_ask, meets_ok]
      refine ⟨trivial, ?_⟩
      rintro (x | upstreamId)
      · exact ⟨.refl hi.calm, herr x⟩
      · exact hnew upstreamId

private theorem createAccount_meets {input : CreateAccount} (hi : Idle φ)
    (hjob : φ.job = .createAccount input) :
    (createAccount input).Meets monitor () φ fun _ _ ψ ↦ φ.Passed ψ := by
  unfold createAccount
  rw [meets_bind]
  refine (requestedAccount_meets hi hjob).mono ?_
  rintro (x | account) _ ψ ⟨hp, hoff⟩
  · exact hp
  · have hi := hi.passed hp
    have hjob := hp.job.trans hjob
    refine Meets.mono (P := fun _ _ χ ↦ ψ.Passed χ) ?_ fun _ _ _ h ↦ hp.trans h
    refine passed_bind hi.calm (passed_consult hi.calm _) fun r φ hc h ↦ ?_
    have hi := hi.passed h
    refine passed_bind hi.calm (passed_ok hi.calm _) fun _ χ hc h' ↦ ?_
    have hi := hi.passed h'
    have hjob := h'.job.trans (h.job.trans hjob)
    refine critical_meets hc (.inl hi.span) fun ψ hw hd ↦ ?_
    have hdone : ψ.duty.Done := by rw [hd]; trivial
    rw [meets_bind]
    refine validateSelection_meets fun x ↦ ?_
    cases x with
    | error x => exact ⟨hw, hdone, hw.unlocked hc⟩
    | ok u =>
      dsimp only
      rw [meets_bind]
      refine checkUnmanaged_meets fun x ↦ ?_
      cases x with
      | error x => exact ⟨hw, hdone, hw.unlocked hc⟩
      | ok u => exact storeNew_meets hc hi.span hw hd (hoff account rfl) (.inl ⟨input, hjob⟩)

/-- New credentials of an account are written and published. -/
theorem storeAuthorization_meets {id : Uuid} {upstreamId : String} {c : Credentials}
    {input : Start} (hs : φ.span = none) (hf : φ.renewal = .idle) (hw : φ.Within ψ)
    (hd : ψ.duty = .clear) (hjob : φ.job = .saveCredentials input c) :
    (storeAuthorization id upstreamId c).Meets monitor () ψ fun _ _ χ ↦
      χ.held = insert .mutations φ.held ∧ χ.duty.Done ∧ χ.renewal = .idle := by
  have hdone : ∀ χ : Standing, χ.duty = .clear → χ.duty.Done := fun χ h ↦ by rw [h]; trivial
  unfold storeAuthorization
  rw [meets_bind]
  refine found_meets hw hd (unobserved hs id) (fun a ψ hw hd _ _ ↦ ?_)
    fun x ψ hw hd _ ↦ ⟨hw.held, hdone ψ hd, hw.renewal.trans hf⟩
  dsimp only
  split
  · exact ⟨hw.held, hdone ψ hd, hw.renewal.trans hf⟩
  · simp only [meets_bind, meets_ask, meets_ok]
    refine ⟨⟨hw.mem, hw.span.trans hs, hd, rfl, .inr ⟨input, c, hw.job.trans hjob⟩⟩, ?_⟩
    rintro (x | updated)
    · exact ⟨hw.held, hdone ψ hd, hw.renewal.trans hf⟩
    · exact ⟨⟨hw.mem, hw.current hs, .inl rfl⟩, fun _ ↦ ⟨hw.held, trivial, rfl⟩⟩

/-- An account is written and published with its first credentials. -/
theorem storeAuthorized_meets {upstreamId : String} {c : Credentials} {input : Start}
    (hc : φ.Calm) (hs : φ.span = none) (hf : φ.renewal = .idle) (hw : φ.Within ψ)
    (hd : ψ.duty = .clear) (hjob : φ.job = .saveCredentials input c) :
    (storeAuthorized input upstreamId c).Meets monitor () ψ fun _ _ χ ↦
      χ.held = insert .mutations φ.held ∧ χ.duty.Done ∧ χ.renewal = .idle := by
  have hdone : ψ.duty.Done := by rw [hd]; trivial
  unfold storeAuthorized
  rw [meets_bind]
  refine checkUnmanaged_meets fun x ↦ ?_
  cases x with
  | error x => exact ⟨hw.held, hdone, hw.renewal.trans hf⟩
  | ok u =>
    simp only [meets_bind, meets_ask, meets_ok]
    refine ⟨trivial, fun id ↦ ⟨trivial, fun n ↦ ⟨trivial, ?_⟩⟩⟩
    rintro (x | u)
    · exact ⟨hw.held, hdone, hw.renewal.trans hf⟩
    · exact (storeNew_meets hc hs hw hd rfl (.inr ⟨input, c, hjob⟩)).mono
        fun _ _ χ hχ ↦ ⟨hχ.1.held, hχ.2.1, hχ.1.renewal.trans hf⟩

private theorem saveCredentials_meets {input : Start} {c : Credentials} (hi : Idle φ)
    (hjob : φ.job = .saveCredentials input c) :
    (saveCredentials input c).Meets monitor () φ fun _ _ ψ ↦ monitor.exit ψ := by
  unfold saveCredentials
  simp only [meets_bind, meets_ask, meets_ok]
  refine ⟨.inr ⟨hi.renewal, .inr ⟨input, c, hjob⟩⟩, ?_⟩
  rintro (x | u)
  · rw [hi.rejected]
    exact ⟨hi.calm.free, hi.renewal⟩
  · refine ⟨trivial, ?_⟩
    rintro (x | upstreamId)
    · exact ⟨hi.calm.free, hi.renewal⟩
    · have hw : φ.Within { φ with held := insert .mutations φ.held } :=
        ⟨rfl, rfl, rfl, rfl, rfl, rfl⟩
      have hend : ∀ χ : Standing, χ.held = insert .mutations φ.held ∧ χ.duty.Done ∧
          χ.renewal = .idle → χ.InOrder (.unlock .mutations) ∧
            monitor.exit (χ.unlocked .mutations) := by
        rintro χ ⟨hχ, hdone, hfresh⟩
        refine ⟨⟨?_, fun _ ↦ ⟨rfl, hdone⟩, fun _ h ↦ by cases h⟩, Finset.notMem_erase _ _, hfresh⟩
        rw [hχ]
        exact Finset.mem_insert_self _ _
      refine locked_meets hi.calm.free hi.calm.free (fun _ ↦ .inl hi.span) ?_
      cases input.accountId with
      | some id =>
        exact (storeAuthorization_meets hi.span hi.renewal hw hi.calm.duty hjob).mono
          fun _ _ χ hχ ↦ hend χ hχ
      | none =>
        exact (storeAuthorized_meets hi.calm hi.span hi.renewal hw hi.calm.duty hjob).mono
          fun _ _ χ hχ ↦ hend χ hχ

private theorem updateLocked_meets {id : Uuid} {input : AccountUpdate} (hc : φ.Calm)
    (hs : φ.span = none) (hjob : φ.job = .updateAccount id input) :
    (locked .mutations (updateLocked id input)).Meets monitor () φ fun _ _ ψ ↦ φ.Passed ψ := by
  have hdone : ∀ χ : Standing, χ.duty = .clear → χ.duty.Done := fun χ h ↦ by rw [h]; trivial
  unfold updateLocked
  refine critical_meets hc (.inl hs) fun ψ hw hd ↦ ?_
  simp only [meets_bind]
  refine found_meets hw hd (unobserved hs id) (fun a ψ hw hd hseen _ ↦ ?_) fun x ψ hw hd _ ↦ ?_
  · dsimp only
    split
    · exact ⟨hw, hdone ψ hd, hw.unlocked hc⟩
    · next hv =>
      -- from the check of the edited account on
      have hwrite : (do
          ok (← consult (.validate (edited a input)))
          call (.blockAccount id)
          let _ ← publishOrReload
            (← call (.putAccount (edited a input) none (some input.version)))
          return input.useExtraCredits.any (· != a.useExtraCredits) : Run Bool).Meets monitor ()
            ψ fun _ _ χ ↦ φ.Within χ ∧ χ.duty.Done ∧ φ.Passed (χ.unlocked .mutations) := by
        simp only [meets_bind, meets_ask, meets_ok, meets_pure]
        refine ⟨trivial, ?_⟩
        rintro (x | u)
        · exact ⟨hw, hdone ψ hd, hw.unlocked hc⟩
        · have hb : φ.Within { ψ with duty := .blocked id } :=
            ⟨hw.job, hw.held, hw.span, hw.base, hw.renewal, hw.refused⟩
          refine ⟨⟨hw.mem, hd, hw.current hs, a, id, hseen, .inl rfl⟩, fun _ ↦
            ⟨⟨hw.mem, hw.span.trans hs, rfl, id, a, hseen, rfl, rfl,
              (Decidable.not_not.mp hv).symm, rfl, rfl, input, hw.job.trans hjob⟩, fun r ↦ ?_⟩⟩
          have herr : ∀ x, r = .error x → (Standing.wrote { ψ with duty := .blocked id }
              (.doubtful (edited a input).id) r).duty = .doubtful (edited a input).id := by
            rintro x rfl
            rfl
          refine (publishOrReload_meets (hb.wrote (.doubtful (edited a input).id) r) hs ?_
            herr).mono ?_
          · rintro account rfl
            rfl
          · rintro (x | u) _ ρ hρ
            · exact ⟨hρ.1, hρ.2, hρ.1.unlocked hc⟩
            · exact ⟨hρ.1, hρ.2, hρ.1.unlocked hc⟩
      cases input.groupIds with
      | none => exact hwrite
      | some groupIds =>
        rw [meets_bind]
        refine validateSelection_meets fun x ↦ ?_
        cases x with
        | error x => exact ⟨hw, hdone ψ hd, hw.unlocked hc⟩
        | ok u => exact hwrite
  · exact ⟨hw, hdone ψ hd, hw.unlocked hc⟩

private theorem updateAccount_meets {id : Uuid} {input : AccountUpdate} (hi : Idle φ)
    (hjob : φ.job = .updateAccount id input) :
    (updateAccount id input).Meets monitor () φ fun _ _ ψ ↦ φ.Passed ψ := by
  unfold updateAccount
  refine idle_bind hi (updateLocked_meets hi.calm hi.span hjob) fun changed φ hi ↦ ?_
  have hreconcile : (doWhen changed (reconcileAccountQuotas id)).Meets monitor () φ
      fun _ _ ψ ↦ φ.Passed ψ := by
    rw [meets_doWhen]
    split
    · exact reconcileAccountQuotas_meets hi.calm hi.span
    · exact .refl hi.calm
  refine idle_bind hi hreconcile fun _ φ hi ↦ ?_
  exact idle_bind hi (found_idle_meets hi) fun _ φ hi ↦ .refl hi.calm

private theorem deleteAccount_meets {id : Uuid} (hi : Idle φ) (hjob : φ.job = .deleteAccount id) :
    (deleteAccount id).Meets monitor () φ fun _ _ ψ ↦ φ.Passed ψ := by
  unfold deleteAccount
  refine critical_meets hi.calm (.inl hi.span) fun ψ hw hd ↦ ?_
  simp only [meets_bind]
  refine found_meets hw hd (unobserved hi.span id) (fun a ψ hw hd hseen _ ↦ ?_)
    fun x ψ hw hd _ ↦ ?_
  · simp only [meets_ask]
    refine ⟨⟨hw.mem, hd, hw.current hi.span, a, id, hseen, .inl rfl⟩, fun _ ↦
      ⟨⟨hw.mem, hw.span.trans hi.span, rfl, ⟨a, hseen⟩, hw.job.trans hjob⟩, ?_⟩⟩
    rintro (x | u)
    · simp only [meets_bind, meets_ask, meets_fail]
      have hχ : φ.Within ({ ψ with duty := .blocked id }.published' a) :=
        ⟨hw.job, hw.held, hw.span, hw.base, hw.renewal, hw.refused⟩
      exact ⟨⟨hw.mem, hw.current hi.span, .inr ⟨hw.span.trans hi.span, .inl ⟨id, rfl, hseen⟩⟩⟩,
        fun _ ↦ ⟨hχ, trivial, hχ.unlocked hi.calm⟩⟩
    · have hχ : φ.Within { ψ with seen := none, duty := .clear } :=
        ⟨hw.job, hw.held, hw.span, hw.base, hw.renewal, hw.refused⟩
      exact ⟨⟨hw.mem, hw.span.trans hi.span, rfl⟩, fun _ ↦ ⟨hχ, trivial, hχ.unlocked hi.calm⟩⟩
  · exact ⟨hw, by rw [hd]; trivial, hw.unlocked hi.calm⟩

/-! ### Tasks -/

/-- A task starts without a lock. -/
theorem idle_start (job : Job) : Idle (.start job) :=
  ⟨⟨Finset.notMem_empty _, rfl⟩, rfl, fun _ ↦ Finset.notMem_empty _, rfl, rfl, rfl⟩

/-- Every task keeps to the monitor from its start. -/
theorem body_follows (job : Job) :
    Task.Follows scheme monitor Through (.start job) (.running (body job ())) := by
  have hi := idle_start job
  have hpassed : ∀ {m : Run Unit}, m.Meets monitor () (.start job) (fun _ _ ψ ↦
      (Standing.start job).Passed ψ) → m.Meets monitor () (.start job) fun _ _ ψ ↦
        monitor.exit ψ :=
    fun h ↦ h.mono fun _ _ ψ hψ ↦ ⟨(hψ.calm hi.calm).free, hψ.renewal⟩
  have hbody : (body job).Meets monitor () (.start job) fun _ _ ψ ↦ monitor.exit ψ := by
    cases job with
    | setEnabled id enabled reason =>
      exact hpassed (idle_bind hi (setEnabled_meets hi.calm rfl rfl) fun _ _ hi ↦ .refl hi.calm)
    | disableObserved id version reason => exact hpassed (disableObserved_meets hi.calm rfl)
    | applyQuotaObservation id version windows credits allowReenable =>
      exact hpassed (applyQuotaObservation_meets hi.calm rfl)
    | reconcileAccountQuotas id => exact hpassed (reconcileAccountQuotas_meets hi.calm rfl)
    | reenableExpiredQuotas =>
      refine hpassed (idle_bind hi ?_ fun accounts _ hi ↦ reenableExpired_meets hi.calm hi.span)
      exact ⟨trivial, fun _ ↦ .refl hi.calm⟩
    | credentials id force =>
      exact hpassed (idle_bind hi (credentials_meets hi.calm rfl (hi.free id) rfl rfl rfl)
        fun _ _ hi ↦ .refl hi.calm)
    | collectQuotas id => exact hpassed (collectQuotas_meets hi)
    | syncModels id => exact hpassed (syncModels_meets hi (Finset.notMem_empty _))
    | recordCatalog id result =>
      exact hpassed (catalogueLocked_meets hi (Finset.notMem_empty _) fun _ hi ↦
        recordModels_meets hi)
    | createAccount input => exact hpassed (createAccount_meets hi rfl)
    | updateAccount id input => exact hpassed (updateAccount_meets hi rfl)
    | deleteAccount id => exact hpassed (deleteAccount_meets hi rfl)
    | saveCredentials input c => exact saveCredentials_meets hi rfl
  have hend : (body job).Meets monitor () (.start job) fun x s ψ ↦
      monitor.exit ψ ∧ scheme.Closes monitor Through x s ψ :=
    hbody.mono fun x s ψ hψ ↦ ⟨hψ, closes x s ψ⟩
  exact hend

end Xxgate.Accounts

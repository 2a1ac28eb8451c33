import Xxgate.Resets.Consume

/-!
# Following a redemption

What the calls and replies of a task say about its operation, and which call is in order when.
Every task keeps to the monitor whatever the replies are and wherever it is dropped.
-/

namespace Xxgate.Resets

open Xxgate.Base Xxgate.Base.Coroutine Xxgate.Core

/-- What is known of a task from its calls and replies. -/
structure Standing where
  job : Job
  held : Finset Uuid
  /-- The reply to the first look-up of the operation. -/
  first : Option (Result (Option ResetOperation))
  /-- What a look-up of the operation would find. -/
  stored : Option (Option ResetOperation)
  /-- Two look-ups under one lock disagreed. -/
  contradicted : Bool

namespace Standing

/-- Nothing has happened. -/
def start (job : Job) : Standing := ⟨job, ∅, none, none, false⟩

/-- What the reply to a look-up of the operation tells. -/
def lookedUp (φ : Standing) : Result (Option ResetOperation) → Standing
  | .ok v =>
    { φ with
      first := φ.first <|> some (.ok v)
      stored := some v
      contradicted := φ.contradicted || φ.stored.any (· ≠ v) }
  | .error x => { φ with first := φ.first <|> some (.error x) }

/-- What the answer to a write of the operation tells. -/
def wrote (φ : Standing) (operation : ResetOperation) (r : Result Unit) : Standing :=
  { φ with stored := if r.isOk then some (some operation) else none }

/-- What a call and its reply tell. -/
def next (φ : Standing) : (c : Call) → c.Reply → Standing
  | .lock id, _ => { φ with held := insert id φ.held }
  | .unlock id, _ => { φ with held := φ.held.erase id, stored := none }
  | .releaseAll, _ => { φ with held := ∅, stored := none }
  | .resetOperation _ (some _), r => φ.lookedUp r
  | .beginReset operation, r | .finishReset operation, r => φ.wrote operation r
  | _, _ => φ

/-- The operation is in the journal, without a result. -/
def Journalled (φ : Standing) (operation : ResetOperation) : Prop :=
  φ.contradicted = true ∨ φ.stored = some (some operation) ∧ operation.result = none

/-- What `consume_reset` may return after its first look-up: the operation with its result when
it has one and is for the credit, and the error of a look-up that failed. -/
def MayReturn (φ : Standing) (r : Result ResetOperation) : Prop :=
  ∀ id operationId credit, φ.job = .consumeReset id operationId credit →
    Acceptable operationId credit →
    (∃ v, φ.first = some v) ∧ (∀ x, φ.first = some (.error x) → r = .error x) ∧
      ∀ o, φ.first = some (.ok (some o)) → o.creditId = credit → o.result.isSome = true → r = .ok o

/-- The calls in order. -/
def InOrder (φ : Standing) : Call → Prop
  | .consult _ => True
  | .lock _ => φ.held = ∅ ∧ φ.stored = none
  | .unlock id => id ∈ φ.held
  | .releaseAll => False
  | .saveResetCredits .. => True
  | .resetOperation _ none => True
  | .resetOperation id (some operation) => id ∈ φ.held ∧
      ∃ credit, φ.job = .consumeReset id operation credit
  | .beginReset operation => φ.contradicted = true ∨ operation.accountId ∈ φ.held ∧
      operation.result = none ∧ Acceptable operation.id operation.creditId ∧
      ∃ credit, φ.job = .consumeReset operation.accountId operation.id credit
  | .finishReset operation =>
    ∃ before result, φ.Journalled before ∧ operation = { before with result := some result }
  | .sendOnce id request => ∀ redemption, request.body = some redemption →
      (∃ operationId credit, φ.job = .consumeReset id operationId credit) ∧
        ∃ operation, φ.Journalled operation ∧ redemption = ⟨operation.id, operation.creditId⟩
  | .returned r => φ.MayReturn r

end Standing

/-- The monitor of a task. -/
def monitor : Monitor Unit Call Call.Reply Empty Standing where
  next := Standing.next
  allowed := fun φ _ c ↦ φ.InOrder c
  entry := fun _ _ l ↦ l.elim
  exit := fun _ ↦ True
  closing := fun _ _ c ↦ c = .releaseAll

/-- From anywhere a task that is over gives its lock back. -/
theorem closes (x : Except Error Unit) (s : Unit) (φ : Standing) :
    scheme.Closes monitor (fun _ _ _ ↦ True) x s φ := by
  unfold Scheme.Closes scheme
  rw [meets_ask]
  exact ⟨rfl, fun _ ↦ trivial⟩

/-- The scheme keeps to the monitor. -/
theorem scheme_keeps : scheme.Keeps monitor fun _ _ _ ↦ True where
  block := nofun
  abandon := fun φ s _ _ _ _ ↦ closes _ s φ
  abandonAnswered := fun _ s _ _ _ _ _ ↦ closes _ s _

/-! ### The functions -/

section

variable {α : Type} {φ ψ : Standing} {id operationId : Uuid} {credit : String}

/-- A request to list the credits has no body. -/
theorem request_none {a : Account} {quota : Result Unit} {r : ControlRequest}
    (h : request a quota none = .ok r) : r.body = none := by
  unfold request at h
  split at h
  · cases h
  · cases quota with
    | error x => cases h
    | ok u =>
      cases h
      rfl

/-- A request to consume a credit carries the operation. -/
theorem request_some {a : Account} {quota : Result Unit} {operation : ResetOperation}
    {r : ControlRequest} (h : request a quota (some operation) = .ok r) :
    r.body = some ⟨operation.id, operation.creditId⟩ := by
  unfold request at h
  split at h
  · cases h
  · cases quota with
    | error x => cases h
    | ok u =>
      cases h
      rfl

private theorem locked_meets {m : Run α} {Q : Except Error α → Unit → Standing → Prop}
    (hh : φ.held = ∅) (hs : φ.stored = none)
    (h : m.Meets monitor () { φ with held := insert id φ.held } fun x _ ψ ↦
      id ∈ ψ.held ∧ Q x () { ψ with held := ψ.held.erase id, stored := none }) :
    (locked id m).Meets monitor () φ Q := by
  unfold locked
  simp only [meets_bind, meets_ask, meets_outcome, meets_ok]
  exact ⟨⟨hh, hs⟩, fun _ ↦ h.mono fun x _ ψ h ↦ ⟨h.1, fun _ ↦ h.2⟩⟩

private theorem found_meets {Q : Except Error Account → Unit → Standing → Prop}
    (hq : ∀ x, Q x () ψ) : (found id).Meets monitor () ψ Q := by
  unfold found
  simp only [meets_bind, meets_ask, meets_ok]
  exact ⟨trivial, fun r ↦ hq _⟩

/-- A control request tells nothing about the operation. -/
theorem resetControl_meets {request : ControlRequest}
    {Q : Except Error Unit → Unit → Standing → Prop}
    (hsend : ψ.InOrder (.sendOnce id request)) (hq : ∀ x, Q x () ψ) :
    (resetControl id request).Meets monitor () ψ Q := by
  unfold resetControl
  simp only [meets_bind, meets_ask, meets_ok]
  refine ⟨hsend, fun r ↦ ?_⟩
  cases r.getD (.error resetTimeout) with
  | error x => exact hq _
  | ok status =>
    refine ⟨trivial, fun r ↦ ?_⟩
    cases r.getD (.error resetTimeout) with
    | error x => exact hq _
    | ok u =>
      dsimp only
      split
      · exact hq _
      · simp only [meets_bind, meets_ask, meets_fail]
        exact ⟨trivial, fun r ↦ hq _⟩

/-- Listing the credits tells nothing about the operation. -/
theorem fetchResetCredits_meets {Q : Except Error ResetCredits → Unit → Standing → Prop}
    (hq : ∀ x, Q x () ψ) : (fetchResetCredits id).Meets monitor () ψ Q := by
  unfold fetchResetCredits
  simp only [meets_bind, meets_ask, meets_ok]
  refine ⟨trivial, fun r ↦ ?_⟩
  cases r with
  | error x => exact hq _
  | ok u =>
    refine found_meets fun x ↦ ?_
    cases x with
    | error x => exact hq _
    | ok account =>
      refine ⟨trivial, fun r ↦ ?_⟩
      cases hr : request account r none with
      | error x => exact hq _
      | ok request =>
        have hsend : ψ.InOrder (.sendOnce id request) := by
          intro redemption hb
          rw [request_none hr] at hb
          cases hb
        refine resetControl_meets hsend fun x ↦ ?_
        cases x with
        | error x => exact hq _
        | ok u =>
          refine ⟨trivial, fun r ↦ ?_⟩
          cases r with
          | error x => exact hq _
          | ok credits =>
            refine ⟨trivial, fun r ↦ ?_⟩
            cases r with
            | error x => exact hq _
            | ok u => exact hq _

/-- A new operation is for the credit that was asked for, and has no result. -/
theorem newOperation_meets {Q : Except Error ResetOperation → Unit → Standing → Prop}
    (hok : ∀ o : ResetOperation, o.id = operationId → o.accountId = id → o.creditId = credit →
      o.result = none → Q (.ok o) () ψ) (herr : ∀ x, Q (.error x) () ψ) :
    (newOperation id operationId credit).Meets monitor () ψ Q := by
  unfold newOperation
  simp only [meets_bind, meets_ask, meets_ok]
  refine ⟨trivial, fun r ↦ ?_⟩
  cases r with
  | error x => exact herr _
  | ok pending =>
    dsimp only
    split
    · exact herr _
    · simp only [meets_bind, meets_ask]
      refine fetchResetCredits_meets fun x ↦ ?_
      cases x with
      | error x => exact herr _
      | ok credits =>
        refine ⟨trivial, fun now ↦ ?_⟩
        split
        · exact herr _
        · next c hnext =>
          split
          · exact herr _
          · next hid =>
            simp only [meets_bind, meets_ask, meets_pure]
            exact ⟨trivial, fun now ↦ hok _ rfl rfl (not_not.mp hid) rfl⟩

/-- What a task does under the lock keeps the lock, and what was first looked up. -/
structure Within (φ ψ : Standing) : Prop where
  job : ψ.job = φ.job
  held : ψ.held = φ.held
  first : ψ.first = φ.first

private theorem settleReset_meets {operation : ResetOperation} {request : ControlRequest}
    {Q : Except Error ResetOperation → Unit → Standing → Prop}
    (hjob : ψ.job = .consumeReset id operationId credit) (hj : ψ.Journalled operation)
    (hb : request.body = some ⟨operation.id, operation.creditId⟩)
    (hq : ∀ x χ, Within ψ χ → Q x () χ) :
    (settleReset id operation request).Meets monitor () ψ Q := by
  have hsend : ψ.InOrder (.sendOnce id request) := by
    intro redemption h
    cases hb.symm.trans h
    exact ⟨⟨operationId, credit, hjob⟩, operation, hj, rfl⟩
  unfold settleReset
  simp only [meets_bind, meets_outcome, meets_ask, meets_ok]
  have herr : ∀ x, (unconfirmed x).Meets monitor () ψ Q := by
    intro x
    unfold unconfirmed
    simp only [meets_bind, meets_ask, meets_ok, meets_fail]
    refine ⟨trivial, fun r ↦ ?_⟩
    cases r with
    | error y => exact hq _ _ ⟨rfl, rfl, rfl⟩
    | ok u => exact hq _ _ ⟨rfl, rfl, rfl⟩
  refine resetControl_meets hsend fun x ↦ ?_
  cases x with
  | error x => exact herr x
  | ok u =>
    refine ⟨trivial, fun r ↦ ?_⟩
    cases r with
    | error x => exact herr x
    | ok result =>
      simp only [meets_bind, meets_ask, meets_ok, meets_pure]
      refine ⟨⟨operation, result, hj, rfl⟩, fun r ↦ ?_⟩
      cases r with
      | error x => exact hq _ _ ⟨rfl, rfl, rfl⟩
      | ok u => exact hq _ _ ⟨rfl, rfl, rfl⟩

/-- A second look-up keeps what was first looked up. -/
theorem Within.lookedUp (hf : ψ.first.isSome = true) (r : Result (Option ResetOperation)) :
    Within ψ (ψ.lookedUp r) := by
  obtain ⟨v, hv⟩ := Option.isSome_iff_exists.mp hf
  cases r with
  | error x => exact ⟨rfl, rfl, by rw [Standing.lookedUp, hv]; rfl⟩
  | ok o => exact ⟨rfl, rfl, by rw [Standing.lookedUp, hv]; rfl⟩

private theorem Within.trans {χ : Standing} (h : Within φ ψ) (h' : Within ψ χ) : Within φ χ :=
  ⟨h'.job.trans h.job, h'.held.trans h.held, h'.first.trans h.first⟩

/-- What a second look-up finds is what the first one did, or the two disagree. -/
theorem lookedUp_again {v v' : Option ResetOperation} (hs : ψ.stored = some v) (hne : v' ≠ v) :
    (ψ.lookedUp (.ok v')).contradicted = true := by
  simp [Standing.lookedUp, hs, Ne.symm hne]

private theorem redeem_meets {operation : ResetOperation}
    {Q : Except Error ResetOperation → Unit → Standing → Prop} (hheld : id ∈ ψ.held)
    (hjob : ψ.job = .consumeReset id operationId credit) (hres : operation.result = none)
    (hs : ψ.stored = some none ∧ operation.id = operationId ∧ operation.accountId = id ∧
        Acceptable operation.id operation.creditId ∨ ψ.stored = some (some operation))
    (hf : ψ.first.isSome = true) (hq : ∀ x χ, Within ψ χ → Q x () χ) :
    (redeem id operationId operation).Meets monitor () ψ Q := by
  have hsame : ∀ x, Q x () ψ := fun x ↦ hq x ψ ⟨rfl, rfl, rfl⟩
  unfold redeem
  simp only [meets_bind, meets_ask, meets_ok, meets_doWhen]
  refine ⟨trivial, fun r ↦ ?_⟩
  cases r with
  | error x => exact hsame _
  | ok u =>
    refine found_meets fun x ↦ ?_
    cases x with
    | error x => exact hsame _
    | ok account =>
      refine ⟨trivial, fun r ↦ ?_⟩
      cases hr : request account r (some operation) with
      | error x => exact hsame _
      | ok request =>
        have hbody := request_some hr
        refine ⟨⟨hheld, credit, hjob⟩, fun r ↦ ?_⟩
        have hw := Within.lookedUp hf r
        cases r with
        | error x => exact hq _ _ hw
        | ok stored =>
          cases stored with
          | some o =>
            have hj : (ψ.lookedUp (.ok (some o))).Journalled operation := by
              rcases hs with ⟨hs, -⟩ | hs
              · exact .inl (lookedUp_again hs (Option.some_ne_none o))
              · by_cases ho : o = operation
                · exact .inr ⟨by rw [ho]; rfl, hres⟩
                · exact .inl (lookedUp_again hs fun h ↦ ho (Option.some.inj h))
            exact settleReset_meets (hw.job.trans hjob) hj hbody fun x χ h ↦ hq x χ (hw.trans h)
          | none =>
            refine ⟨?_, fun r ↦ ?_⟩
            · rcases hs with ⟨hs, rfl, rfl, hok⟩ | hs
              · exact .inr ⟨hheld, hres, hok, credit, hjob⟩
              · exact .inl (lookedUp_again hs (Option.some_ne_none operation).symm)
            · cases r with
              | error x => exact hq _ _ ⟨rfl, rfl, hw.first⟩
              | ok u =>
                exact settleReset_meets (hw.job.trans hjob) (.inr ⟨rfl, hres⟩) hbody fun x χ h ↦
                  hq x χ (hw.trans ⟨h.job, h.held, h.first⟩)

/-- The first look-up is the one that is kept. -/
theorem first_lookedUp (hf : ψ.first = none) (r : Result (Option ResetOperation)) :
    (ψ.lookedUp r).first = some r := by
  cases r with
  | error x => rw [Standing.lookedUp, hf]; rfl
  | ok v => rw [Standing.lookedUp, hf]; rfl

/-- What `consume_reset` comes to depends on the first look-up as it should. -/
theorem consumeLocked_meets {Q : Except Error ResetOperation → Unit → Standing → Prop}
    (hheld : id ∈ ψ.held) (hjob : ψ.job = .consumeReset id operationId credit)
    (hok : Acceptable operationId credit) (hf : ψ.first = none)
    (hq : ∀ x χ, id ∈ χ.held → χ.MayReturn x → Q x () χ) :
    (consumeLocked id operationId credit).Meets monitor () ψ Q := by
  unfold consumeLocked
  simp only [meets_bind, meets_ask, meets_ok]
  refine ⟨⟨hheld, credit, hjob⟩, fun r ↦ ?_⟩
  have hfirst := first_lookedUp hf r
  cases r with
  | error x =>
    refine hq _ _ hheld fun _ _ _ _ _ ↦ ⟨⟨_, hfirst⟩, ?_, ?_⟩
    · intro y hy
      cases hfirst.symm.trans hy
      rfl
    · intro o ho
      cases hfirst.symm.trans ho
  | ok v =>
    -- from here on all depends on the operation that was found
    have hfree : ∀ x χ, Within (ψ.lookedUp (.ok v)) χ →
        (∀ o, v = some o → o.creditId = credit → o.result.isSome = true → x = .ok o) →
        Q x () χ := by
      intro x χ hw hx
      refine hq x χ (hw.held ▸ hheld) fun id' op' credit' hj _ ↦
        ⟨⟨_, hw.first.trans hfirst⟩, ?_, ?_⟩
      · intro y hy
        cases (hw.first.trans hfirst).symm.trans hy
      · intro o ho hc hr
        cases (hw.first.trans hfirst).symm.trans ho
        cases (hw.job.trans hjob).symm.trans hj
        exact hx o rfl hc hr
    have hrefl : Within (ψ.lookedUp (.ok v)) (ψ.lookedUp (.ok v)) := ⟨rfl, rfl, rfl⟩
    unfold resumeReset
    cases v with
    | some o =>
      dsimp only
      split
      · next hc => exact hfree _ _ hrefl fun o' ho hc' _ ↦ absurd (Option.some.inj ho ▸ hc') hc
      · split
        · exact hfree _ _ hrefl fun o' ho _ _ ↦ by cases ho; rfl
        · next hres =>
          refine redeem_meets hheld hjob ?_ (.inr rfl) ?_ fun x χ hw ↦ hfree x χ hw ?_
          · exact Option.not_isSome_iff_eq_none.mp hres
          · exact congrArg Option.isSome hfirst
          · intro o' ho _ hr
            cases ho
            exact absurd hr hres
    | none =>
      simp only [meets_bind]
      have hnone : ∀ (x : Except Error ResetOperation) (o : ResetOperation),
          (none : Option ResetOperation) = some o → o.creditId = credit →
          o.result.isSome = true → x = .ok o := by
        intro x o ho
        cases ho
      refine newOperation_meets (fun o hid hacc hc hres ↦ ?_) fun x ↦ hfree _ _ hrefl (hnone _)
      refine redeem_meets hheld hjob hres (.inl ⟨rfl, hid, hacc, ?_⟩) ?_ fun x χ hw ↦
        hfree x χ hw (hnone x)
      · rw [hid, hc]
        exact hok
      · exact congrArg Option.isSome hfirst

private theorem consumeReset_meets {Q : Except Error ResetOperation → Unit → Standing → Prop}
    (hq : ∀ x χ, Q x () χ) : (consumeReset id operationId credit).Meets monitor ()
      (.start (.consumeReset id operationId credit)) Q := by
  unfold consumeReset returning
  simp only [meets_bind, meets_outcome, meets_ask, meets_ok]
  split
  · next hbad =>
    refine ⟨fun _ _ _ hj hok ↦ ?_, fun _ ↦ hq _ _⟩
    cases hj
    simp only [Bool.or_eq_true, decide_eq_true_eq] at hbad
    rcases hbad with (h | h) | h
    · exact absurd h hok.1
    · cases h.symm.trans hok.2.1
    · exact absurd h (Nat.not_lt.mpr hok.2.2)
  · next hgood =>
    have hok : Acceptable operationId credit := by
      simp only [Bool.or_eq_true, decide_eq_true_eq, not_or, Bool.not_eq_true, Nat.not_lt] at hgood
      exact ⟨hgood.1.1, hgood.1.2, hgood.2⟩
    refine locked_meets rfl rfl ?_
    refine consumeLocked_meets (Finset.mem_insert_self _ _) rfl hok rfl fun x χ hheld hm ↦
      ⟨hheld, ?_, fun _ ↦ hq _ _⟩
    exact hm

end

/-- Every task keeps to the monitor from its start. -/
theorem body_follows (job : Job) :
    Task.Follows scheme monitor (fun _ _ _ ↦ True) (.start job) (.running (body job ())) := by
  have hend : (body job).Meets monitor () (.start job) fun x s ψ ↦
      monitor.exit ψ ∧ scheme.Closes monitor (fun _ _ _ ↦ True) x s ψ := by
    cases job with
    | collectResetCredits id =>
      simp only [body, meets_bind, meets_pure]
      refine locked_meets rfl rfl (fetchResetCredits_meets fun x ↦ ⟨Finset.mem_insert_self _ _, ?_⟩)
      cases x with
      | error x => exact ⟨trivial, closes _ _ _⟩
      | ok credits => exact ⟨trivial, closes _ _ _⟩
    | consumeReset id operationId credit =>
      simp only [body, meets_bind, meets_pure]
      refine consumeReset_meets fun x χ ↦ ?_
      cases x with
      | error x => exact ⟨trivial, closes _ _ _⟩
      | ok operation => exact ⟨trivial, closes _ _ _⟩
  exact hend

end Xxgate.Resets

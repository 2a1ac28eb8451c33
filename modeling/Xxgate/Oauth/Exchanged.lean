import Mathlib.Algebra.Order.BigOperators.Group.List
import Mathlib.Algebra.Order.Group.Nat
import Xxgate.Base.Knowing
import Xxgate.Base.Stays
import Xxgate.Base.Tokens
import Xxgate.Oauth.World

/-!
# An authorization is exchanged once

Over any moves: an authorization is exchanged no more often than it was begun, there are never
more than sixteen flows, and a flow that shows an exchange has a worker that will end it.
-/

namespace Xxgate.Oauth

open Xxgate.Base Xxgate.Base.FiniteMap Xxgate.Core Xxgate.Codex
open Xxgate.Accounts (Start)

variable {s s' : Installation} {env : Env} {c : Call} {r : c.Reply} {φ : Standing}

/-! ### Where authorizations are -/

/-- Whether a flow has the authorization. -/
def Flow.holds (flow : Flow) (auth : BrowserAuthorization) : Nat :=
  if flow.browser.map (·.2) = some auth then 1 else 0

/-- Whether a worker is to exchange the authorization. -/
def Worker.holds (worker : Worker) (auth : BrowserAuthorization) : Nat :=
  match worker with
  | .poll .. => 0
  | .exchange _ e => if e.auth = auth then 1 else 0

namespace Flows

variable (flows : Flows) (auth : BrowserAuthorization)

/-- The flows that have the authorization. -/
def holding : Nat := (flows.values.map (·.holds auth)).sum

/-- A new flow brings its authorization. -/
theorem holding_insert (id : Uuid) (flow : Flow) :
    holding (flows.insert id flow) auth + (flows.lookup id).elim 0 (·.holds auth) =
      flow.holds auth + holding flows auth :=
  sum_insert flows (·.holds auth) id flow

private theorem holding_erase_le (id : Uuid) :
    holding (flows.erase id) auth ≤ holding flows auth := by
  have hsum := sum_erase flows (·.holds auth) id
  unfold holding
  omega

private theorem holding_modify (id : Uuid) {f : Flow → Flow}
    (hf : ∀ flow, (f flow).browser = flow.browser) :
    holding (flows.modify id f) auth = holding flows auth := by
  unfold FiniteMap.modify
  cases h : flows.lookup id with
  | none => rfl
  | some flow =>
    have hsum := holding_insert flows auth id (f flow)
    have hsame : (f flow).holds auth = flow.holds auth := by
      unfold Flow.holds
      rw [hf]
    rw [h, Option.elim_some, hsame] at hsum
    dsimp only
    omega

private theorem holding_setValue (id : Uuid) (value : Value) :
    holding (flows.setValue id value) auth = holding flows auth :=
  holding_modify flows auth id fun _ ↦ rfl

private theorem holding_finish (now : Nat) (id : Uuid) (value : Value) :
    holding (flows.finish now id value) auth = holding flows auth :=
  holding_modify flows auth id fun _ ↦ rfl

private theorem holding_filter_le (p : Flow → Bool) :
    holding (flows.filter fun _ flow ↦ p flow) auth ≤ holding flows auth := by
  unfold holding
  rw [values_filter]
  exact (List.Sublist.map _ List.filter_sublist).sum_le_sum fun _ _ ↦ Nat.zero_le _

/-- A reservation brings at most its own authorization. -/
theorem holding_reserve (now : Nat) (id : Uuid) (value : Value)
    (browser : Option (Start × BrowserAuthorization)) (tooMany : String) :
    holding (flows.reserve now id value browser tooMany).1 auth ≤ holding flows auth +
      if (flows.reserve now id value browser tooMany).2.isOk && browser.map (·.2) = some auth
        then 1 else 0 := by
  have hkept := holding_filter_le flows auth fun flow ↦ now < flow.expires
  unfold reserve
  dsimp only
  split
  · exact hkept
  · have hsum := holding_insert (flows.filter fun _ flow ↦ now < flow.expires) auth id
      ⟨now + 900 * 1000, value, browser⟩
    have hnew : (⟨now + 900 * 1000, value, browser⟩ : Flow).holds auth =
        if browser.map (·.2) = some auth then 1 else 0 := rfl
    rw [hnew] at hsum
    dsimp only
    simp only [Except.isOk, Except.toBool, Bool.true_and, decide_eq_true_eq]
    omega

/-- Whether a consumption gave the authorization. -/
def given (auth : BrowserAuthorization) : Result Exchange → Nat
  | .ok e => if e.auth = auth then 1 else 0
  | .error _ => 0

/-- What is consumed is taken out. -/
theorem holding_consume (parse : String → Option Url) (now : Nat) (id : Uuid) (callback : String) :
    holding (flows.consume parse now id callback).1 auth +
      given auth (flows.consume parse now id callback).2 ≤ holding flows auth := by
  unfold consume
  split
  · exact le_refl _
  · next flow hflow =>
    split
    · exact le_refl _
    · next input own hbrowser =>
      split
      · exact le_refl _
      · have hsum := holding_insert flows auth id
          { flow with browser := none, value := .exchanging id }
        have hhere := (Option.filter_eq_some_iff.mp hflow).1
        have hgone : ({ flow with browser := none, value := .exchanging id } : Flow).holds auth =
            0 := rfl
        have hheld : flow.holds auth = if own = auth then 1 else 0 := by
          unfold Flow.holds
          rw [hbrowser]
          simp
        rw [hhere, Option.elim_some, hgone, hheld] at hsum
        dsimp only [given]
        omega

private theorem holding_cancel_le (id : Uuid) :
    holding (flows.cancel id).1 auth ≤ holding flows auth := by
  unfold cancel
  split
  · exact le_refl _
  · split
    · exact le_refl _
    · split
      · exact holding_erase_le flows auth id
      · exact le_refl _

end Flows

/-- The authorization whose flow is begun by a call. -/
def begun : Sigma Call.Reply → Option BrowserAuthorization
  | ⟨.reserve _ _ browser _, .ok ()⟩ => browser.map (·.2)
  | _ => none

/-- The exchange that a call sends. -/
def Call.exchange : Call → Option Flows.Exchange
  | .control _ (.exchange e _) => some e
  | _ => none

/-- The authorization that is exchanged by a call. -/
def exchanged (c : Sigma Call.Reply) : Option BrowserAuthorization := c.1.exchange.map (·.auth)

/-- Authorizations that lie in flows and with workers that are not taken up. -/
def Installation.stock (s : Installation) (auth : BrowserAuthorization) : Nat :=
  Flows.holding s.flows auth + (s.spawned.map (·.holds auth)).sum

/-- The authorization a task carries. -/
def Standing.hand (φ : Standing) (auth : BrowserAuthorization) : Nat :=
  if φ.carrying.map (·.auth) = some auth then 1 else 0

/-- A section changes only the flows. -/
theorem stock_section {α : Type} {result : Flows × α} {a : α}
    (h : s.section' result = some (s', a)) (auth : BrowserAuthorization) :
    s'.stock auth + Flows.holding s.flows auth = s.stock auth + Flows.holding result.1 auth := by
  cases h
  unfold Installation.stock
  dsimp only
  omega

/-- A section that brings no authorization, with a call that issues and spends none. -/
theorem section_holding {α : Type} {result : Flows × α} {a : α}
    (h : s.section' result = some (s', a)) (auth : BrowserAuthorization)
    (hless : Flows.holding result.1 auth ≤ Flows.holding s.flows auth) :
    s'.stock auth ≤ s.stock auth := by
  have hstock := stock_section h auth
  omega

/-- No call makes two of one authorization. -/
theorem exec_holding (auth : BrowserAuthorization) (hin : φ.InOrder c)
    (he : s.exec env c = some (s', r)) :
    s'.stock auth + (φ.next c r).hand auth + Pool.count (exchanged ⟨c, r⟩) auth ≤
      s.stock auth + φ.hand auth + Pool.count (begun ⟨c, r⟩) auth := by
  -- a section that brings none, in a call that leaves what is carried
  have hkept : s'.stock auth ≤ s.stock auth → φ.next c r = φ → exchanged ⟨c, r⟩ = none →
      s'.stock auth + (φ.next c r).hand auth + Pool.count (exchanged ⟨c, r⟩) auth ≤
        s.stock auth + φ.hand auth + Pool.count (begun ⟨c, r⟩) auth := by
    intro hstock hnext hnone
    rw [hnext, hnone]
    exact (Nat.add_le_add_right hstock _).trans (Nat.le_add_right _ _)
  cases c with
  | consult q =>
    cases q with
    | _ => cases he; exact le_refl _
  | reserve id value browser tooMany =>
    have hstock := stock_section he auth
    have hless := Flows.holding_reserve s.flows auth s.now id value browser tooMany
    have hnew : (if (s.flows.reserve s.now id value browser tooMany).2.isOk &&
        browser.map (·.2) = some auth then 1 else 0) =
          Pool.count (begun ⟨.reserve id value browser tooMany, r⟩) auth := by
      cases he
      rcases (s.flows.reserve s.now id value browser tooMany).2 with y | ⟨⟩
      · rfl
      · show _ = if browser.map (·.2) = some auth then 1 else 0
        by_cases h : browser.map (·.2) = some auth
        · rw [if_pos h, if_pos (by simp [h, Except.isOk, Except.toBool])]
        · rw [if_neg h, if_neg (by simp [h])]
    show s'.stock auth + φ.hand auth + 0 ≤ _
    omega
  | remove id =>
    exact hkept (section_holding he auth (Flows.holding_erase_le s.flows auth id)) rfl rfl
  | setValue id value =>
    exact hkept (section_holding he auth (Flows.holding_setValue s.flows auth id value).le) rfl rfl
  | finish id value =>
    have hstock := section_holding he auth (Flows.holding_finish s.flows auth s.now id value).le
    exact (Nat.add_le_add_right hstock _).trans (Nat.le_add_right _ _)
  | consume id callback =>
    obtain rfl := hin
    have hstock := stock_section he auth
    have hless := Flows.holding_consume s.flows auth s.parse s.now id callback
    have hgiven : (Standing.next ⟨none, none⟩ (.consume id callback) r).hand auth =
        Flows.given auth (s.flows.consume s.parse s.now id callback).2 := by
      cases he
      rcases (s.flows.consume s.parse s.now id callback).2 with y | e
      · rfl
      · simp [Standing.next, Standing.hand, Flows.given]
    rw [hgiven]
    show _ + 0 ≤ _
    omega
  | cancel id =>
    exact hkept (section_holding he auth (Flows.holding_cancel_le s.flows auth id)) rfl rfl
  | status id => exact hkept (section_holding he auth (le_refl _)) rfl rfl
  | spawn worker =>
    cases he
    have hadd : ((s.spawned ++ [worker]).map (·.holds auth)).sum =
        (s.spawned.map (·.holds auth)).sum + worker.holds auth := by
      simp
    have hheld : worker.holds auth ≤ φ.hand auth := by
      cases worker with
      | poll input code id => exact Nat.zero_le _
      | exchange id e =>
        obtain rfl := hin
        simp [Worker.holds, Standing.hand]
    show Flows.holding s.flows auth + ((s.spawned ++ [worker]).map (·.holds auth)).sum + 0 + 0 ≤
      Flows.holding s.flows auth + (s.spawned.map (·.holds auth)).sum + φ.hand auth + 0
    omega
  | take =>
    obtain rfl := hin
    obtain ⟨parse, now, flows, spawned⟩ := s
    cases spawned with
    | nil => cases he
    | cons worker rest =>
      obtain ⟨rfl, rfl⟩ := Prod.mk.inj (Option.some.inj he)
      have hheld : (Standing.next ⟨none, none⟩ .take worker).hand auth = worker.holds auth := by
        cases worker with
        | poll input code id => rfl
        | exchange id e => simp [Standing.next, Standing.hand, Worker.holds]
      rw [hheld]
      show Flows.holding flows auth + (rest.map (·.holds auth)).sum + worker.holds auth + 0 ≤
        Flows.holding flows auth + (worker.holds auth + (rest.map (·.holds auth)).sum) + 0 + 0
      omega
  | control id request =>
    cases he
    cases request with
    | exchange e form =>
      obtain ⟨rfl, -⟩ := hin
      show s.stock auth + 0 + Pool.count (some e.auth) auth ≤
        s.stock auth + Standing.hand ⟨some e, some id⟩ auth + 0
      exact le_refl _
    | _ => exact le_refl _
  | wait | tokens | saveCredentials =>
    cases he
    exact le_refl _

/-- Authorizations are tokens: reserving a flow issues one, and the request of an exchange
spends it. -/
def authorizations : Pool.Tokens kit monitor Standing.start BrowserAuthorization where
  stock := Installation.stock
  hand := Standing.hand
  issued := begun
  spent := exchanged
  starts := fun _ _ ↦ rfl
  called := fun auth hin he ↦ exec_holding auth (hin.resolve_right id) he
  changed := fun s a auth ↦ by
    cases a with
    | restart => exact Nat.zero_le _
    | tick elapsed => exact le_refl _

namespace World

/-- The authorizations that were begun over some moves. -/
def beginnings (w : World) (moves : List Move) : List BrowserAuthorization :=
  outputs step (fun w m ↦ (Pool.performed kit w m).bind begun) w moves

/-- The authorizations whose exchange was sent over some moves. -/
def exchanges (w : World) (moves : List Move) : List BrowserAuthorization :=
  outputs step (fun w m ↦ (Pool.performed kit w m).bind exchanged) w moves

/-- **An authorization is exchanged once.** Whatever handlers and workers do in whatever order,
and whichever of them are dropped, the exchange of an authorization is sent no more often than
the authorization was begun. -/
theorem exchanged_once (parse : String → Option Url) (now : Nat) (moves : List Move)
    (auth : BrowserAuthorization) :
    (exchanges (.new parse now) moves).count auth ≤
      (beginnings (.new parse now) moves).count auth := by
  have hspent := authorizations.spent_le disciplined (kept_new parse now) moves auth
  have hnone : authorizations.total (World.new parse now) auth = 0 := rfl
  rw [hnone, Nat.zero_add] at hspent
  exact hspent

/-- A callback that comes twice is exchanged the first time. -/
example : exchanges (.new (fun _ ↦ some Sample.url) 0) Sample.twice = [⟨"s", "v"⟩] := by
  decide +kernel

end World

/-! ### Who submits a callback -/

/-- A callback is consumed by the handler that was called with it. -/
def submitMonitor : Monitor Unit Call Call.Reply Polling Job where
  next := fun job _ _ ↦ job
  allowed := fun job _ c ↦ ∀ id callback, c = .consume id callback → job = .complete id callback
  entry := fun _ _ _ ↦ True
  exit := fun _ ↦ True
  closing := fun _ _ _ ↦ False

/-- The call consumes a callback. -/
def Call.isConsume : Call → Bool
  | .consume .. => true
  | _ => false

/-- A part of a task that consumes no callback. -/
abbrev Submits {α : Type} (m : Run α) : Prop := m.Stays submitMonitor fun _ _ ↦ True

private theorem submits_call {c : Call} (h : c.isConsume = false) : Submits (call c) := by
  refine .ask fun _ _ _ ↦ ⟨fun id callback hc ↦ ?_, fun _ ↦ trivial⟩
  rw [hc] at h
  cases h

private theorem submits_consult (q : Consult) : Submits (consult q) := submits_call rfl

private theorem checkStart_submits (message : String) (input : Start) :
    Submits (checkStart message input) := by
  unfold checkStart
  split
  · exact .fail _
  · split
    · exact .bind (submits_consult _) fun _ ↦ .ok _
    · refine .bind (submits_consult _) fun known ↦ ?_
      cases known with
      | true => exact .pure _
      | false => exact .fail _

private theorem startPolling_submits (input : Start) (id : Uuid) (response : OAuthResponse) :
    Submits (startPolling input id response) := by
  unfold startPolling
  split
  · exact .bind (submits_call rfl) fun _ ↦ .fail _
  · refine .bind (submits_consult _) fun code ↦ ?_
    cases code with
    | none => exact .bind (submits_call rfl) fun _ ↦ .fail _
    | some code => exact .bind (submits_call rfl) fun _ ↦ submits_call rfl

private theorem start_submits (input : Start) : Submits (start input) := by
  unfold start
  refine .bind (checkStart_submits _ input) fun _ ↦ .bind (submits_consult _) fun _ ↦
    .bind (submits_call rfl) fun _ ↦ .bind (.ok _) fun _ ↦ .bind (submits_call rfl) ?_
  rintro (y | response)
  · exact .bind (submits_call rfl) fun _ ↦ .fail _
  · exact startPolling_submits input _ response

private theorem startBrowser_submits (input : Start) : Submits (startBrowser input) := by
  unfold startBrowser
  exact .bind (checkStart_submits _ input) fun _ ↦ .bind (submits_consult _) fun _ ↦
    .bind (submits_consult _) fun _ ↦ .bind (submits_consult _) fun _ ↦ .bind (.ok _) fun _ ↦
    .bind (submits_call rfl) fun _ ↦ .ok _

private theorem saveTokens_submits (input : Start) (response : OAuthResponse) :
    Submits (saveTokens input response) := by
  unfold saveTokens
  split
  · exact .fail _
  · exact .bind (submits_call rfl) fun _ ↦ .bind (.ok _) fun _ ↦
      .bind (submits_call rfl) fun _ ↦ .ok _

private theorem pollOnce_submits (p : Polling) : Submits (pollOnce p) := by
  unfold pollOnce
  refine .bind (submits_call rfl) fun wake ↦ ?_
  cases wake with
  | cancelled => exact .fail _
  | expired => exact .fail _
  | ready =>
    refine .bind (submits_call rfl) fun _ ↦ .bind (.ok _) fun response ↦ ?_
    split
    · exact .bind (.ok _) fun _ ↦ .bind (submits_call rfl) fun _ ↦ .bind (.ok _) fun _ ↦
        .bind (saveTokens_submits _ _) fun _ ↦ .pure _
    · split
      · exact .pure _
      · exact .fail _

private theorem poll_submits (p : Polling) : Submits (poll p) := by
  unfold poll finish
  refine .bind (.outcome (pollOnce_submits p)) ?_
  rintro (y | ⟨_ | account⟩)
  · exact submits_call rfl
  · exact .jump fun _ _ _ ↦ trivial
  · exact submits_call rfl

private theorem work_submits : Submits work := by
  unfold work exchange finish
  refine .bind (submits_call rfl) fun worker ↦ ?_
  cases worker with
  | exchange id e =>
    exact .bind (.outcome (.bind (submits_call rfl) fun _ ↦ .bind (.ok _) fun _ ↦
      saveTokens_submits _ _)) fun _ ↦ submits_call rfl
  | poll input code id => exact .bind (submits_consult _) fun _ ↦ .jump fun _ _ _ ↦ trivial

/-- Every task keeps to it. -/
theorem body_submits (job : Job) :
    (body job).Meets submitMonitor () job fun _ _ _ ↦ True := by
  cases job with
  | start input => exact start_submits input _ _ trivial
  | startBrowser input => exact startBrowser_submits input _ _ trivial
  | complete id callback =>
    show (complete id callback).Meets submitMonitor () _ _
    unfold complete
    simp only [Coroutine.meets_bind, Coroutine.meets_ask, Coroutine.meets_ok]
    refine ⟨?_, ?_⟩
    · rintro _ _ ⟨⟩
      rfl
    · rintro (y | e)
      · trivial
      · exact ⟨fun _ _ h ↦ (by cases h), fun _ ↦ trivial⟩
  | cancel id =>
    have h : Submits (body (.cancel id)) := .bind (submits_call rfl) fun _ ↦ .ok _
    exact h _ _ trivial
  | status id =>
    have h : Submits (body (.status id)) :=
      .bind (submits_call rfl) fun _ ↦ .bind (.ok _) fun _ ↦ .pure _
    exact h _ _ trivial
  | worker => exact work_submits _ _ trivial

private theorem submit_disciplined : kit.Disciplined submitMonitor (fun _ _ _ ↦ True) id where
  keeps :=
    { block := fun p s job _ ↦ (poll_submits p s job trivial).mono fun _ _ _ _ ↦ ⟨trivial, trivial⟩
      abandon := fun _ _ _ _ _ _ ↦ trivial
      abandonAnswered := fun _ _ _ _ _ _ _ ↦ trivial }
  starts := fun job ↦ Prog.Meets.mono (body_submits job) fun _ _ _ ↦ ⟨trivial, trivial⟩

/-! ### What is exchanged -/

/-- The code of an exchange is that of a callback of its authorization that its flow was given. -/
def Authentic (parse : String → Option Url) (given : Uuid → String → Prop) (flow : Uuid)
    (e : Flows.Exchange) : Prop :=
  ∃ callback, given flow callback ∧ e.auth.callbackCode parse callback = .ok e.code

section

variable {given : Uuid → String → Prop}

/-- What a task carries is authentic. -/
def Carried (given : Uuid → String → Prop) (s : Installation) (φ : Standing) : Prop :=
  ∀ flow e, φ = ⟨some e, some flow⟩ → Authentic s.parse given flow e

/-- What workers are to exchange is authentic. -/
def Installation.Spawned (s : Installation) (given : Uuid → String → Prop) : Prop :=
  ∀ flow e, .exchange flow e ∈ s.spawned → Authentic s.parse given flow e

/-- A call consumes authentic callbacks only, and hands on what it was given. -/
theorem exec_authentic (hin : φ.InOrder c)
    (hgiven : ∀ flow callback, c = .consume flow callback → given flow callback)
    (he : s.exec env c = some (s', r)) (hs : s.Spawned given) (hc : Carried given s φ) :
    s'.parse = s.parse ∧ s'.Spawned given ∧ Carried given s' (φ.next c r) := by
  cases c with
  | consult q =>
    cases q with
    | _ =>
      cases he
      exact ⟨rfl, hs, hc⟩
  | consume id callback =>
    cases he
    refine ⟨rfl, hs, ?_⟩
    cases hresult : (s.flows.consume s.parse s.now id callback).2 with
    | error y => exact hc
    | ok e =>
      rintro flow e' ⟨⟩
      exact ⟨callback, hgiven _ _ rfl, Flows.consume_code hresult⟩
  | spawn worker =>
    cases he
    refine ⟨rfl, ?_, fun _ _ he ↦ (by cases he)⟩
    intro flow e hm
    rcases List.mem_append.mp hm with hm | hm
    · exact hs flow e hm
    · obtain rfl := List.mem_singleton.mp hm
      exact hc flow e hin
  | take =>
    obtain ⟨parse, now, flows, spawned⟩ := s
    cases spawned with
    | nil => cases he
    | cons worker rest =>
      obtain ⟨rfl, rfl⟩ := Prod.mk.inj (Option.some.inj he)
      refine ⟨rfl, fun flow e hm ↦ hs flow e (List.mem_cons_of_mem _ hm), ?_⟩
      cases worker with
      | poll input code id => exact fun _ _ he ↦ (by cases he)
      | exchange id e =>
        rintro flow e' ⟨⟩
        exact hs _ _ (List.mem_cons_self ..)
  | control id request =>
    cases he
    cases request with
    | exchange e form =>
      refine ⟨rfl, hs, fun flow e' he ↦ ?_⟩
      cases congrArg Standing.carrying he
    | _ => exact ⟨rfl, hs, hc⟩
  | finish id value =>
    cases he
    refine ⟨rfl, hs, fun flow e he ↦ ?_⟩
    cases congrArg Standing.serving he
  | reserve | remove | setValue | cancel | status | wait | tokens | saveCredentials =>
    cases he
    exact ⟨rfl, hs, hc⟩

end

namespace World

/-- The flow was given the callback by one of the moves. -/
def Submitted (moves : List Move) (flow : Uuid) (callback : String) : Prop :=
  ∃ task, .spawn task (.complete flow callback) ∈ moves

/-- Nothing but authentic exchanges is on its way. -/
structure Trusted (parse : String → Option Url) (moves : List Move) (w : World) : Prop where
  kept : Pool.Kept kit monitor Through Standing.start w
  submits : Pool.Kept kit submitMonitor (fun _ _ _ ↦ True) id w
  jobs : ∀ task job t, w.tasks.lookup task = some (job, t) → ∃ i, .spawn i job ∈ moves
  parsed : w.shared.parse = parse
  spawned : w.shared.Spawned (Submitted moves)
  carried : Pool.Knowing monitor Standing.start (Carried (Submitted moves)) w

variable {parse : String → Option Url} {moves : List Move} {w : World}

/-- The calls of a task. -/
theorem inOrder {φ : Standing} {s : Unit} {c : Call}
    (h : monitor.allowed φ s c ∨ monitor.closing φ s c) : φ.InOrder c := h.resolve_right id

/-- What a task consumes was given to the flow. -/
theorem Trusted.given (h : w.Trusted parse moves) {task : Nat} {flow : Uuid} {callback : String}
    (hc : w.calling task = some (.consume flow callback)) : Submitted moves flow callback := by
  obtain ⟨⟨job, t⟩, hl, hat⟩ := Option.bind_eq_some_iff.mp hc
  have hjob : submitMonitor.phase job t.trace = job := by
    induction t.trace with
    | nil => rfl
    | cons e trace ih => exact ih
  rcases (h.submits task job t hl).1.at_call hat with ⟨-, s, hin⟩ | ⟨-, s, hin⟩
  · have hsame : submitMonitor.phase job t.trace = .complete flow callback := hin flow callback rfl
    obtain ⟨i, hi⟩ := h.jobs task job t hl
    exact ⟨i, (hjob.symm.trans hsame) ▸ hi⟩
  · cases hin

/-- What a call of a task leaves. -/
theorem Trusted.called (h : w.Trusted parse moves) {task : Nat} {env : Env} {φ : Standing}
    {c : Call} {r : c.Reply} {shared : Installation} (hc : w.calling task = some c)
    (hφ : Pool.phase monitor Standing.start w task = some φ) (hin : φ.InOrder c)
    (he : w.shared.exec env c = some (shared, r)) :
    shared.parse = w.shared.parse ∧ shared.Spawned (Submitted moves) ∧
      Carried (Submitted moves) shared (φ.next c r) := by
  refine exec_authentic hin (fun flow callback heq ↦ ?_) he h.spawned (h.carried task φ hφ)
  exact h.given (hc.trans (congrArg some heq))

private theorem Trusted.shared_step (h : w.Trusted parse moves) (m : Move) :
    (w.step m).shared.parse = parse ∧ (w.step m).shared.Spawned (Submitted moves) := by
  unfold step
  have hs := (Pool.step_transition disciplined h.kept m).1
  have hat : ∀ {id : Nat} {env : Env} {job : Job} {t t' : Task Unit Call Call.Reply Polling Error
      Unit} {c : Call} {r : c.Reply}, m = .drive id (.perform env) →
      w.tasks.lookup id = some (job, t) →
      (Pool.step kit w m).tasks.lookup id = some (job, t') → t'.trace = ⟨c, r⟩ :: t.trace →
        w.calling id = some c := by
    rintro id env job t t' c r rfl here after trace
    exact Pool.calling_of_step here after trace
  generalize Pool.step kit w m = w' at hs hat
  cases hs with
  | idle | spawned | moved => exact ⟨h.parsed, h.spawned⟩
  | @called id env job t t' c r shared here hin performed trace result =>
    have hin : (monitor.phase (Standing.start job) t.trace).InOrder c := by
      rcases hin with ⟨-, s, hin⟩ | ⟨-, s, hin⟩
      · exact hin
      · cases hin
    have hc := hat rfl here (by dsimp only; rw [lookup_insert_ite, if_pos rfl]) trace
    obtain ⟨hparse, hspawned, -⟩ := h.called hc (Pool.phase_of_lookup here) hin performed
    exact ⟨hparse.trans h.parsed, hspawned⟩
  | changed a =>
    cases a with
    | restart => exact ⟨h.parsed, fun _ _ hm ↦ (by cases hm)⟩
    | tick elapsed => exact ⟨h.parsed, h.spawned⟩

/-- A task that is there was started by a move. -/
theorem Trusted.jobs_step (h : w.Trusted parse moves) {m : Move} (hm : m ∈ moves) (task : Nat)
    (job : Job) (t : Task Unit Call Call.Reply Polling Error Unit)
    (hl : (w.step m).tasks.lookup task = some (job, t)) : ∃ i, .spawn i job ∈ moves := by
  unfold step at hl
  have hs := (Pool.step_transition disciplined h.kept m).1
  generalize Pool.step kit w m = w' at hs hl
  cases hs with
  | idle => exact h.jobs task job t hl
  | @spawned i job' new =>
    rw [lookup_insert_ite] at hl
    split at hl
    · cases hl
      exact ⟨i, hm⟩
    · exact h.jobs task job t hl
  | @called i env job' t₁ t' c r shared here hin performed trace result =>
    rw [lookup_insert_ite] at hl
    split at hl
    · cases hl
      exact h.jobs i _ t₁ here
    · exact h.jobs task job t hl
  | @moved i d job' t₁ t' here trace stays leaves =>
    rw [lookup_insert_ite] at hl
    split at hl
    · cases hl
      exact h.jobs i _ t₁ here
    · exact h.jobs task job t hl
  | changed a =>
    cases a with
    | restart => cases hl
    | tick elapsed => exact h.jobs task job t hl

private theorem Trusted.step (h : w.Trusted parse moves) {m : Move} (hm : m ∈ moves) :
    (w.step m).Trusted parse moves := by
  obtain ⟨hparsed, hspawned⟩ := h.shared_step m
  refine ⟨(Pool.step_transition disciplined h.kept m).2,
    (Pool.step_transition submit_disciplined h.submits m).2, h.jobs_step hm, hparsed, hspawned, ?_⟩
  refine h.carried.step disciplined h.kept m (fun job flow e he ↦ ?_) ?_ ?_
  · cases congrArg Standing.carrying he
  · intro id env φ s c r shared hφ hc hin he
    obtain ⟨hparse, -, hcarried⟩ := h.called hc hφ (inOrder hin) he
    refine ⟨hcarried, fun i ψ _ hψ flow e hcarry ↦ ?_⟩
    have hauth := h.carried i ψ hψ flow e hcarry
    unfold Authentic at hauth ⊢
    rw [hparse]
    exact hauth
  · intro a φ ha hc
    cases a with
    | restart => cases ha
    | tick elapsed => exact hc

end World
end Xxgate.Oauth

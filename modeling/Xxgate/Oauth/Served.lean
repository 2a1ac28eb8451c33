import Xxgate.Base.Owing
import Xxgate.Oauth.World

/-!
# Flows and their workers

Over any moves there are never more than sixteen flows, and a flow that shows an exchange has a
worker that will show what came of it, unless a worker was dropped.
-/

namespace Xxgate.Oauth

open Xxgate.Base Xxgate.Base.FiniteMap Xxgate.Core Xxgate.Codex
open Xxgate.Accounts (Start)

variable {s s' : Installation} {env : Env} {c : Call} {r : c.Reply} {φ : Standing}

/-! ### How many flows there are -/

/-- No call leaves more than sixteen flows. -/
theorem exec_bounded (h : s.flows.values.length ≤ 16) (he : s.exec env c = some (s', r)) :
    s'.flows.values.length ≤ 16 := by
  cases c with
  | consult q =>
    cases q with
    | _ =>
      cases he
      exact h
  | reserve id value browser tooMany =>
    cases he
    exact s.flows.length_reserve h s.now id value browser tooMany
  | remove id =>
    cases he
    exact (s.flows.length_erase_le id).trans h
  | setValue id value =>
    cases he
    exact (s.flows.length_modify id _).trans_le h
  | finish id value =>
    cases he
    exact (s.flows.length_modify id _).trans_le h
  | consume id callback =>
    cases he
    exact (s.flows.length_consume s.parse s.now id callback).trans_le h
  | cancel id =>
    cases he
    exact (s.flows.length_cancel_le id).trans h
  | take =>
    obtain ⟨parse, now, flows, spawned⟩ := s
    cases spawned with
    | nil => cases he
    | cons worker rest =>
      cases he
      exact h
  | status | spawn | control | wait | tokens | saveCredentials =>
    cases he
    exact h

/-! ### Flows that show an exchange -/

namespace Flows

variable {flows : Flows}

/-- The flow shows an exchange. -/
def Exchanging (flows : Flows) (id : Uuid) : Prop :=
  ∃ flow, flows.lookup id = some flow ∧ flow.value.status = "exchanging"

private theorem exchanging_iff {id : Uuid} : flows.Exchanging id ↔
    (flows.lookup id).any fun flow ↦ flow.value.status = "exchanging" := by
  unfold Exchanging
  cases flows.lookup id with
  | none => simp
  | some flow => simp

/-- A flow that is put there shows an exchange if it does. -/
theorem exchanging_insert {i id : Uuid} {flow : Flow} :
    Exchanging (flows.insert i flow) id ↔
      if id = i then flow.value.status = "exchanging" else flows.Exchanging id := by
  unfold Exchanging
  simp only [lookup_insert_ite]
  split
  · simp
  · exact Iff.rfl

private theorem exchanging_erase {i id : Uuid} (h : Exchanging (flows.erase i) id) :
    flows.Exchanging id := by
  obtain ⟨flow, hflow, hstatus⟩ := h
  rw [lookup_erase_ite] at hflow
  split at hflow
  · cases hflow
  · exact ⟨flow, hflow, hstatus⟩

/-- A flow that is changed shows an exchange only if the change lets it. -/
theorem exchanging_modify {i id : Uuid} {f : Flow → Flow}
    (hf : ∀ flow, (f flow).value.status ≠ "exchanging")
    (h : Exchanging (flows.modify i f) id) : id ≠ i ∧ flows.Exchanging id := by
  obtain ⟨flow, hflow, hstatus⟩ := h
  rw [lookup_modify] at hflow
  split at hflow
  · obtain ⟨old, -, rfl⟩ := Option.map_eq_some_iff.mp hflow
    exact absurd hstatus (hf old)
  · next hne => exact ⟨hne, flow, hflow, hstatus⟩

private theorem exchanging_filter {p : Flow → Bool} {id : Uuid}
    (h : Exchanging (flows.filter fun _ flow ↦ p flow) id) : flows.Exchanging id := by
  obtain ⟨flow, hflow, hstatus⟩ := h
  rw [lookup_filter] at hflow
  exact ⟨flow, (Option.filter_eq_some_iff.mp hflow).1, hstatus⟩

private theorem exchanging_reserve {now : Nat} {i id : Uuid} {value : Value}
    {browser : Option (Start × BrowserAuthorization)} {tooMany : String}
    (hv : value.status ≠ "exchanging")
    (h : Exchanging (flows.reserve now i value browser tooMany).1 id) : flows.Exchanging id := by
  unfold reserve at h
  dsimp only at h
  split at h
  · exact exchanging_filter h
  · rw [exchanging_insert] at h
    split at h
    · exact absurd h hv
    · exact exchanging_filter h

/-- Only the flow that is consumed begins to show an exchange. -/
theorem exchanging_consume {parse : String → Option Url} {now : Nat} {i id : Uuid}
    {callback : String} (h : Exchanging (flows.consume parse now i callback).1 id) :
    flows.Exchanging id ∨ id = i ∧ ∃ e, (flows.consume parse now i callback).2 = .ok e := by
  unfold consume at h ⊢
  split at h
  · exact .inl h
  · split at h
    · exact .inl h
    · split at h
      · exact .inl h
      · rw [exchanging_insert] at h
        split at h
        · next he => exact .inr ⟨he, _, rfl⟩
        · exact .inl h

private theorem exchanging_cancel {i id : Uuid} (h : Exchanging (flows.cancel i).1 id) :
    flows.Exchanging id := by
  unfold cancel at h
  split at h
  · exact h
  · split at h
    · exact h
    · split at h
      · exact exchanging_erase h
      · exact h

end Flows

/-- The flow shows no exchange, or a worker that was not taken up yet is to exchange for it. -/
def Installation.Served (s : Installation) (id : Uuid) : Prop :=
  ¬ s.flows.Exchanging id ∨ ∃ e, .exchange id e ∈ s.spawned

/-- A call that lets no flow begin to show an exchange leaves flows served. -/
theorem Installation.Served.mono {id : Uuid} (h : s.Served id)
    (hflows : s'.flows.Exchanging id → s.flows.Exchanging id)
    (hspawned : s'.spawned = s.spawned) : s'.Served id := by
  refine h.imp (mt hflows) ?_
  rintro ⟨e, hm⟩
  exact ⟨e, hspawned ▸ hm⟩

/-- A flow that is served stays so over a call, or the caller serves it. -/
theorem exec_served {id : Uuid} (hin : φ.InOrder c) (he : s.exec env c = some (s', r))
    (h : s.Served id ∨ φ.serving = some id) :
    s'.Served id ∨ (φ.next c r).serving = some id := by
  cases c with
  | consult q =>
    cases q with
    | _ =>
      cases he
      exact h
  | reserve i value browser tooMany =>
    cases he
    exact h.imp_left fun hs ↦ hs.mono (Flows.exchanging_reserve hin.2) rfl
  | remove i =>
    cases he
    exact h.imp_left fun hs ↦ hs.mono Flows.exchanging_erase rfl
  | setValue i value =>
    cases he
    exact h.imp_left fun hs ↦ hs.mono (fun hx ↦ (Flows.exchanging_modify (fun _ ↦ hin.2) hx).2) rfl
  | finish i value =>
    cases he
    left
    rcases h with hs | hserving
    · exact hs.mono (fun hx ↦ (Flows.exchanging_modify (fun _ ↦ hin.2) hx).2) rfl
    · -- what the worker owed is shown now
      cases hin.1.symm.trans hserving
      exact .inl fun hx ↦ (Flows.exchanging_modify (fun _ ↦ hin.2) hx).1 rfl
  | consume i callback =>
    cases he
    obtain rfl := hin
    have hs := h.resolve_right (by simp)
    by_cases hx : Flows.Exchanging (s.flows.consume s.parse s.now i callback).1 id
    · rcases Flows.exchanging_consume hx with hold | ⟨rfl, e, hok⟩
      · exact .inl (hs.mono (fun _ ↦ hold) rfl)
      · right
        show (Standing.next ⟨none, none⟩ (.consume id callback)
          (s.flows.consume s.parse s.now id callback).2).serving = some id
        rw [hok]
        rfl
    · exact .inl (.inl hx)
  | cancel i =>
    cases he
    exact h.imp_left fun hs ↦ hs.mono Flows.exchanging_cancel rfl
  | spawn worker =>
    cases he
    left
    rcases h with hs | hserving
    · refine hs.imp_right ?_
      rintro ⟨e, hm⟩
      exact ⟨e, List.mem_append_left _ hm⟩
    · cases worker with
      | poll input code i =>
        obtain rfl := hin
        cases hserving
      | exchange i e =>
        obtain rfl := hin
        cases hserving
        exact .inr ⟨e, List.mem_append_right _ (List.mem_singleton_self _)⟩
  | take =>
    obtain rfl := hin
    have hs := h.resolve_right (by simp)
    obtain ⟨parse, now, flows, spawned⟩ := s
    cases spawned with
    | nil => cases he
    | cons worker rest =>
      obtain ⟨rfl, rfl⟩ := Prod.mk.inj (Option.some.inj he)
      rcases hs with hx | ⟨e, hm⟩
      · exact .inl (.inl hx)
      · rcases List.mem_cons.mp hm with rfl | hm
        · exact .inr rfl
        · exact .inl (.inr ⟨e, hm⟩)
  | control i request =>
    cases he
    cases request with
    | _ => exact h
  | status | wait | tokens | saveCredentials =>
    cases he
    exact h

namespace World

variable {w : World}

/-- Every move leaves at most sixteen flows. -/
theorem bounded_step (hk : Pool.Kept kit monitor Through Standing.start w)
    (h : w.shared.flows.values.length ≤ 16) (m : Move) :
    (w.step m).shared.flows.values.length ≤ 16 := by
  have hbounded : ∀ w', Pool.Transition kit monitor Standing.start w m w' →
      w'.shared.flows.values.length ≤ 16 := by
    intro w' ht
    cases ht with
    | idle | spawned | moved => exact h
    | called here inOrder performed trace result => exact exec_bounded h performed
    | changed a =>
      cases a with
      | restart => exact Nat.zero_le _
      | tick elapsed => exact h
  exact hbounded _ (Pool.step_transition disciplined hk m).1

/-- **At most sixteen authorizations wait.** Whatever handlers and workers do in whatever order,
there are never more than sixteen flows. -/
theorem flows_bounded (parse : String → Option Url) (now : Nat) (moves : List Move) :
    (run World.step (.new parse now) moves).shared.flows.values.length ≤ 16 := by
  have hinv : Pool.Kept kit monitor Through Standing.start
        (run World.step (World.new parse now) moves) ∧
      (run World.step (.new parse now) moves).shared.flows.values.length ≤ 16 :=
    run_invariant (P := fun w : World ↦ Pool.Kept kit monitor Through Standing.start w ∧
        w.shared.flows.values.length ≤ 16)
      (fun w m h ↦ ⟨(Pool.step_transition disciplined h.1 m).2, bounded_step h.1 h.2 m⟩) moves
      ⟨kept_new parse now, Nat.zero_le _⟩
  exact hinv.2

/-- What is known of a task that was not dropped and has not ended. -/
abbrev active (w : World) (id : Nat) : Option Standing := Pool.active monitor Standing.start w id

/-- No task is dropped while it serves a flow: handlers serve none at their awaits, and workers
are not dropped. -/
def Spared (w : World) (m : Move) : Prop :=
  ∀ task ∈ m.dropped, ∀ φ ∈ w.active task, φ.serving = none

instance (w : World) (m : Move) : Decidable (Spared w m) :=
  inferInstanceAs (Decidable (∀ task ∈ m.dropped, ∀ φ ∈ w.active task, φ.serving = none))

private theorem served_step (hk : Pool.Kept kit monitor Through Standing.start w) {id : Uuid}
    {m : Move} (hm : Spared w m) (h : w.Covered monitor Standing.start Installation.Served
      (fun φ id ↦ φ.serving = some id) id) :
    (w.step m).Covered monitor Standing.start Installation.Served
      (fun φ id ↦ φ.serving = some id) id := by
  refine h.step disciplined hk m ?_ ?_ ?_ ?_ ?_ ?_
  · rintro task env φ c r shared - - - ⟨_, hin⟩ he hs
    exact exec_served hin he hs
  · intro task env φ s c r shared hin
    cases hin
  · intro task φ _ hexit hserving
    cases (show φ.serving = none from hexit).symm.trans hserving
  · rintro task x φ rfl hφ hserving
    cases (hm task rfl φ hφ).symm.trans hserving
  · intro a _ ha
    cases a with
    | restart =>
      left
      rintro ⟨flow, hflow, -⟩
      cases hflow
    | tick elapsed => cases ha
  · intro a _ ha hs
    cases a with
    | restart => cases ha
    | tick elapsed => exact hs

/-- **A flow that shows an exchange is served.** Over any moves that drop no worker, whatever
handlers are dropped: while a flow shows an exchange, a worker that will show what came of it
waits to be taken up or is at work. -/
theorem exchanging_served (parse : String → Option Url) (now : Nat) {moves : List Move}
    (ha : Along World.step Spared (.new parse now) moves) {id : Uuid}
    (hx : (run World.step (.new parse now) moves).shared.flows.Exchanging id) :
    (∃ e, .exchange id e ∈ (run World.step (.new parse now) moves).shared.spawned) ∨
      ∃ task φ, (run World.step (.new parse now) moves).active task = some φ ∧
        φ.serving = some id := by
  have hnew : (World.new parse now).Covered monitor Standing.start Installation.Served
      (fun φ id ↦ φ.serving = some id) id := by
    refine .inl (.inl ?_)
    rintro ⟨flow, hflow, -⟩
    cases hflow
  have hinv := run_invariant_along
    (P := fun w : World ↦ Pool.Kept kit monitor Through Standing.start w ∧
      w.Covered monitor Standing.start Installation.Served (fun φ id ↦ φ.serving = some id) id)
    (fun w m h hm ↦ ⟨(Pool.step_transition disciplined h.1 m).2, served_step h.1 hm h.2⟩)
    ⟨kept_new parse now, hnew⟩ ha
  exact hinv.2.imp_left fun hs ↦ hs.resolve_left (not_not.mpr hx)

/-- Flow 7 shows an exchange while the worker is at it. -/
theorem exchanging_served_twice :
    (∃ e, .exchange 7 e ∈ (run World.step (.new (fun _ ↦ some Sample.url) 0)
      (Sample.twice.take 23)).shared.spawned) ∨
      ∃ task φ, (run World.step (.new (fun _ ↦ some Sample.url) 0)
        (Sample.twice.take 23)).active task = some φ ∧ φ.serving = some 7 :=
  exchanging_served (fun _ ↦ some Sample.url) 0 (by decide +kernel)
    (Flows.exchanging_iff.mpr (by decide +kernel))

end World
end Xxgate.Oauth

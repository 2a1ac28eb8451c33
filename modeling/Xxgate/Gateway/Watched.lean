import Xxgate.Base.Stays
import Xxgate.Gateway.Lives

/-!
# Watching the requests

A further monitor can follow the task of every request, from the state its handler handed
over. Where the task keeps to it, it does so in every reachable installation.
-/

namespace Xxgate.Gateway

open Xxgate.Base Xxgate.Base.FiniteMap Xxgate.Core Xxgate.Scheduling
open Coroutine

/-! ### What a handler hands over -/

/-- The monitor of a handler that may do anything. -/
def unwatched : Monitor Unit Call Call.Reply Empty Unit where
  next _ _ _ := ()
  allowed _ _ _ := True
  entry _ _ l := l.elim
  exit _ := True
  closing _ _ _ := True

/-- A handler hands over a new execution of its own request. -/
def HandsOver (id : Uuid) (key : GatewayKey) (request : GatewayRequest)
    (x : Except Error (Job × Execution)) : Prop :=
  ∀ job execution, x = .ok (job, execution) → ∃ model since level now,
    job = ⟨id, key, request, model, since⟩ ∧
      execution = .new (newRecord id key request model level now)

private theorem start_hands (id : Uuid) (key : GatewayKey) (request : GatewayRequest) :
    (start id key request).Meets unwatched () () fun x _ _ ↦ HandsOver id key request x := by
  have hfail : ∀ x, HandsOver id key request (.error x) := by
    intro x job execution h
    cases h
  have hrest : ∀ model : ModelSpec, (do
      let since ← consult .now
      ok (← call (.enqueue (threadOf key request) key.groupId model.upstream request.source since))
      let level ← consult .logLevel
      let now ← consult .now
      let record := newRecord id key request model level now
      ok (← call (.beginRequest record))
      pure (⟨id, key, request, model, since⟩, .new record) :
      Admission (Job × Execution)).Meets unwatched () () fun x _ _ ↦
        HandsOver id key request x := by
    intro model
    simp only [meets_bind, meets_ask, meets_ok, meets_pure]
    refine ⟨trivial, fun since ↦ ⟨trivial, ?_⟩⟩
    rintro (x | u)
    · exact hfail x
    · refine ⟨trivial, fun level ↦ ⟨trivial, fun now ↦ ⟨trivial, ?_⟩⟩⟩
      rintro (x | u)
      · exact hfail x
      · intro job execution h
        cases h
        exact ⟨model, since, level, now, rfl, rfl⟩
  have hsession : ∀ session, (admitSession session).Meets unwatched () () fun _ _ _ ↦ True :=
    fun session ↦ Prog.meets_of_free (fun _ _ _ ↦ trivial) (fun _ _ l ↦ l.elim) _ _
  unfold start
  simp only [meets_bind (m := consult .models), meets_bind (m := ok _), meets_ask, meets_ok]
  refine ⟨trivial, ?_⟩
  rintro (x | models)
  · exact hfail x
  · dsimp only
    cases models.find? fun m ↦ m.id == request.model && m.enabled with
    | none => exact hfail _
    | some model =>
      simp only [Option.elim_some]
      rw [meets_bind, meets_ask]
      refine ⟨trivial, ?_⟩
      rintro (x | u)
      · exact hfail x
      · dsimp only
        rw [meets_bind, meets_ok]
        dsimp only
        rw [meets_bind, meets_doWhen]
        split
        · apply (hsession _).mono
          rintro (x | u) s φ -
          · exact hfail x
          · exact hrest model
        · exact hrest model

/-- Handlers keep to it whatever they do. -/
theorem startScheme_unwatched (id : Uuid) (key : GatewayKey) (request : GatewayRequest) :
    startScheme.Keeps unwatched fun x _ _ ↦ HandsOver id key request x where
  block := fun l ↦ l.elim
  abandon := by
    intro φ s c x _ _
    refine ⟨trivial, fun _ ↦ ?_⟩
    intro job execution h
    cases h
  abandonAnswered := by
    intro φ s c x r _ _
    refine ⟨trivial, fun _ ↦ ?_⟩
    intro job execution h
    cases h

namespace World

/-! ### What becomes of a request -/

/-- Driving one request on leaves the list of requests alone. -/
theorem advance_tasks {w w' : World} {id : Uuid} {d : Drive Env Error} {life life' : Life}
    (h : w.advance id d life = some (w', life')) : w'.tasks = w.tasks := by
  cases life with
  | starting key request t =>
    obtain ⟨⟨w₁, t'⟩, hn, he⟩ := Option.map_eq_some_iff.mp h
    cases he
    rcases (Task.next_some hn).2 with ⟨env, c, r, -, -, hexec, -, -⟩ | ⟨rfl, -⟩
    · exact (exec_tasks hexec).1
    · rfl
  | running job t =>
    obtain ⟨⟨w₁, t'⟩, hn, he⟩ := Option.map_eq_some_iff.mp h
    cases he
    rcases (Task.next_some hn).2 with ⟨env, c, r, -, -, hexec, -, -⟩ | ⟨rfl, -⟩
    · exact (exec_tasks hexec).1
    · rfl

/-- A request after a move was there before, has just arrived, or was driven on. -/
theorem life_step {w : World} {m : Move} {id : Uuid} {life' : Life}
    (h : (w.step m).tasks.lookup id = some life') :
    w.tasks.lookup id = some life' ∨
      (∃ key request, life' = .starting key request ⟨.running (start id key request ()), []⟩) ∨
      ∃ life d w', m = .drive id d ∧ w.tasks.lookup id = some life ∧
        w.advance id d life = some (w', life') := by
  cases m with
  | arrive i key request =>
    simp only [step] at h
    split at h
    · dsimp only at h
      rw [lookup_insert_ite] at h
      split at h
      · next he =>
        cases h
        exact .inr (.inl ⟨key, request, by rw [he]⟩)
      · exact .inl h
    · exact .inl h
  | drive i d =>
    simp only [step] at h
    split at h
    · exact .inl h
    · next w' life₁ ha =>
      obtain ⟨life, hl, ha⟩ := Option.bind_eq_some_iff.mp ha
      dsimp only at h
      rw [advance_tasks ha, lookup_insert_ite] at h
      split at h
      · next he =>
        cases h
        exact .inr (.inr ⟨life, d, w', by rw [he], he ▸ hl, he ▸ ha⟩)
      · exact .inl h
  | admin op =>
    simp only [step] at h
    split at h
    · exact .inl h
    · exact .inl h
  | cleanup now retentionDays => exact .inl h
  | restart now outcomes settings accounts keys => cases (AList.lookup_empty id).symm.trans h

/-! ### Following every task -/

section Watching

variable {Φ : Type} (M : Job → Monitor Execution Call Call.Reply Label Φ)
  (Ended : Job → Except Error Unit → Execution → Φ → Prop) (φ : Φ)

/-- Every handler hands over what it should; every task keeps to its monitor and did so far. -/
def Watches (id : Uuid) : Life → Prop
  | .starting key request t =>
    Task.Follows startScheme unwatched (fun x _ _ ↦ HandsOver id key request x) () t.stage
  | .running job t =>
    Task.Follows (scheme job) (M job) (Ended job) ((M job).phase φ t.trace) t.stage ∧
      (M job).Lawful φ t.trace

/-- The tasks of all requests keep to the monitor. -/
def Watched (w : World) : Prop :=
  ∀ id life, w.tasks.lookup id = some life → Watches M Ended φ id life

variable {M Ended φ}

/-- A handler that went through leaves a task that begins. -/
theorem watches_admitted
    (hentry : ∀ id key request model since level now,
      (M ⟨id, key, request, model, since⟩).entry φ
        (.new (newRecord id key request model level now)) .select)
    {id : Uuid} {key : GatewayKey} {request : GatewayRequest}
    {t : Task Unit Call Call.Reply Empty Error (Job × Execution)}
    (h : Task.Follows startScheme unwatched (fun x _ _ ↦ HandsOver id key request x) () t.stage) :
    Watches M Ended φ id (admitted key request t) := by
  unfold admitted
  split
  · next job execution s hs =>
    rw [hs] at h
    obtain ⟨model, since, level, now, rfl, rfl⟩ := h job execution rfl
    exact ⟨hentry id key request model since level now, trivial⟩
  · exact h

/-- Where the tasks keep to the monitor from their beginning, every move keeps it so. -/
theorem Watched.step (hk : ∀ job, (Gateway.scheme job).Keeps (M job) (Ended job))
    (hentry : ∀ id key request model since level now,
      (M ⟨id, key, request, model, since⟩).entry φ
        (.new (newRecord id key request model level now)) .select)
    {w : World} (h : w.Watched M Ended φ) (m : Move) : (w.step m).Watched M Ended φ := by
  intro id life' hl
  rcases life_step hl with hl | ⟨key, request, rfl⟩ | ⟨life, d, w', -, hl, ha⟩
  · exact h id life' hl
  · apply Prog.Meets.mono (start_hands id key request)
    intro x φ' hx
    refine ⟨trivial, ?_⟩
    obtain ⟨x, s⟩ := x
    cases x with
    | error x => exact ⟨trivial, fun _ ↦ hx⟩
    | ok a => exact hx
  · have hlife := h id life hl
    cases life with
    | starting key request t =>
      obtain ⟨⟨w₁, t'⟩, hn, he⟩ := Option.map_eq_some_iff.mp ha
      cases he
      apply watches_admitted hentry
      exact Task.Follows.moves (φ := ()) (startScheme_unwatched id key request)
        (Task.next_some hn).1 hlife
    | running job t =>
      obtain ⟨⟨w₁, t'⟩, hn, he⟩ := Option.map_eq_some_iff.mp ha
      cases he
      have hm := (Task.next_some hn).1
      exact ⟨Task.Follows.moves (hk job) hm hlife.1, Task.Follows.lawful hm hlife.1 hlife.2⟩

end Watching

end World
end Xxgate.Gateway

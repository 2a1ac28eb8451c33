import Xxgate.Base.Async

/-!
# Tasks that can be abandoned

A task runs a body whose owner may abandon it at an await, and then an epilogue that runs
to its end. An await answered by somebody else has two instants: the reply is decided, and
the task takes it up; the owner may abandon the task before, between, but not after. An
epilogue starts from the state the body showed when it ended or was abandoned.

A call takes effect when its reply is decided. So a call on its way when its task is abandoned
never takes effect later: a transaction that was sent is either committed by then or rolled back
with its connection. What may arrive later is to be a call of its own that only sends.
-/

namespace Xxgate.Base

variable {S C L Φ ε α : Type} {R : C → Type}

/-- What a kind of task runs, and which of its calls are awaits: ones answered by the task's
own polling, and ones answered elsewhere. -/
structure Scheme (S C : Type) (R : C → Type) (L ε α : Type) where
  block : L → Coroutine S C R L ε α
  close : Except ε α → Coroutine S C R Empty Empty Unit
  isAwait : C → Bool
  isRemote : C → Bool

/-- Where a task stands. -/
inductive Stage (S C : Type) (R : C → Type) (L ε α : Type) where
  | running (p : Prog S C R L (Except ε α × S))
  /-- A reply was decided elsewhere and not taken up yet; `s` is what the owner still sees. -/
  | answered (s : S) (p : Prog S C R L (Except ε α × S))
  | closing (x : Except ε α) (p : Prog S C R Empty (Except Empty Unit × S))
  | ended (x : Except ε α) (s : S)

/-- A task with the calls it made and the replies it got, newest first. -/
structure Task (S C : Type) (R : C → Type) (L ε α : Type) where
  stage : Stage S C R L ε α
  trace : List (Sigma R)

namespace Task

/-- Start closing with the body's outcome and the state it left. -/
def close (scheme : Scheme S C R L ε α) (t : Task S C R L ε α) (x : Except ε α) (s : S) :
    Task S C R L ε α :=
  { t with stage := .closing x (scheme.close x s) }

/-- Take a reply to the call the body is at. -/
def answer (scheme : Scheme S C R L ε α) (t : Task S C R L ε α) (s : S) (c : C)
    (k : R c → Prog S C R L (Except ε α × S)) (r : R c) : Task S C R L ε α where
  stage := if scheme.isRemote c then .answered s (k r) else .running (k r)
  trace := ⟨c, r⟩ :: t.trace

/-- Take a reply to the call the epilogue is at. -/
def answerClosing (t : Task S C R L ε α) (x : Except ε α) (c : C)
    (k : R c → Prog S C R Empty (Except Empty Unit × S)) (r : R c) : Task S C R L ε α where
  stage := .closing x (k r)
  trace := ⟨c, r⟩ :: t.trace

/-- The state the owner sees if it abandons the body now, when it can. -/
def abandonable (scheme : Scheme S C R L ε α) (t : Task S C R L ε α) : Option S :=
  match t.stage with
  | .running (.call s c _) => if scheme.isAwait c then some s else none
  | .answered s _ => some s
  | _ => none

/-- One move of a task. -/
inductive Moves (scheme : Scheme S C R L ε α) : Task S C R L ε α → Task S C R L ε α → Prop where
  | answer {t : Task S C R L ε α} {s : S} {c : C} {k : R c → Prog S C R L (Except ε α × S)}
      (at_call : t.stage = .running (.call s c k)) (r : R c) :
      Moves scheme t (t.answer scheme s c k r)
  | resume {t : Task S C R L ε α} {s : S} {p : Prog S C R L (Except ε α × S)}
      (at_reply : t.stage = .answered s p) : Moves scheme t { t with stage := .running p }
  | enter {t : Task S C R L ε α} {s : S} {l : L} (at_jump : t.stage = .running (.goto s l)) :
      Moves scheme t { t with stage := .running (scheme.block l s) }
  | leave {t : Task S C R L ε α} {x : Except ε α} {s : S}
      (at_end : t.stage = .running (.ret (x, s))) : Moves scheme t (t.close scheme x s)
  | abandon {t : Task S C R L ε α} {s : S} (at_await : t.abandonable scheme = some s) (x : ε) :
      Moves scheme t (t.close scheme (.error x) s)
  | answerClosing {t : Task S C R L ε α} {x : Except ε α} {s : S} {c : C}
      {k : R c → Prog S C R Empty (Except Empty Unit × S)}
      (at_call : t.stage = .closing x (.call s c k)) (r : R c) :
      Moves scheme t (t.answerClosing x c k r)
  | finish {t : Task S C R L ε α} {x : Except ε α} {y : Except Empty Unit} {s : S}
      (at_end : t.stage = .closing x (.ret (y, s))) :
      Moves scheme t { t with stage := .ended x s }

end Task

/-! ### Following a task with a monitor -/

namespace Monitor

/-- What the monitor knows after a trace, newest first. -/
def phase (M : Monitor S C R L Φ) (φ : Φ) : List (Sigma R) → Φ
  | [] => φ
  | ⟨c, r⟩ :: trace => M.next (M.phase φ trace) c r

/-- Every call of the trace was in order when it was made. -/
def Lawful (M : Monitor S C R L Φ) (φ : Φ) : List (Sigma R) → Prop
  | [] => True
  | ⟨c, _⟩ :: trace =>
    (∃ s, M.allowed (M.phase φ trace) s c ∨ M.closing (M.phase φ trace) s c) ∧
      M.Lawful φ trace

/-- The monitor for an epilogue, with the calls allowed there and no blocks. -/
def straight (M : Monitor S C R L Φ) : Monitor S C R Empty Φ where
  next := M.next
  allowed := M.closing
  entry := fun _ _ l ↦ l.elim
  exit := fun _ ↦ True
  closing := M.closing

/-- Every part of a lawful trace was in order. -/
theorem Lawful.at_call {M : Monitor S C R L Φ} {φ : Φ} {newer older : List (Sigma R)} {c : C}
    {r : R c} (h : M.Lawful φ (newer ++ ⟨c, r⟩ :: older)) :
    (∃ s, M.allowed (M.phase φ older) s c ∨ M.closing (M.phase φ older) s c) ∧
      M.Lawful φ older := by
  induction newer with
  | nil => exact h
  | cons e newer ih => exact ih h.2

end Monitor

/-- The epilogue keeps to the monitor from here to `Ended`. -/
def Scheme.Closes (scheme : Scheme S C R L ε α) (M : Monitor S C R L Φ)
    (Ended : Except ε α → S → Φ → Prop) (x : Except ε α) (s : S) (φ : Φ) : Prop :=
  (scheme.close x).Meets M.straight s φ fun _ ↦ Ended x

/-- The scheme keeps to the monitor: every block does when entered where it may be, and the
epilogue does after the body's end and from every await it can be abandoned at. `Ended` is
what holds when the epilogue is through. -/
structure Scheme.Keeps (scheme : Scheme S C R L ε α) (M : Monitor S C R L Φ)
    (Ended : Except ε α → S → Φ → Prop) : Prop where
  block : ∀ l s φ, M.entry φ s l → (scheme.block l).Meets M s φ fun x s φ ↦
    M.exit φ ∧ scheme.Closes M Ended x s φ
  abandon : ∀ φ s c x, M.allowed φ s c → scheme.isAwait c = true →
    scheme.Closes M Ended (.error x) s φ
  abandonAnswered : ∀ φ s c x r, M.allowed φ s c → scheme.isRemote c = true →
    scheme.Closes M Ended (.error x) s (M.next φ c r)

namespace Task

/-- The rest of the task, from where it stands, keeps to the monitor. -/
def Follows (scheme : Scheme S C R L ε α) (M : Monitor S C R L Φ)
    (Ended : Except ε α → S → Φ → Prop) (φ : Φ) : Stage S C R L ε α → Prop
  | .running p => p.Meets M (fun a φ ↦
      M.exit φ ∧ scheme.Closes M Ended a.1 a.2 φ) φ
  | .answered s p => p.Meets M (fun a φ ↦
      M.exit φ ∧ scheme.Closes M Ended a.1 a.2 φ) φ ∧
      ∀ x, scheme.Closes M Ended (.error x) s φ
  | .closing x p => p.Meets M.straight (fun a φ ↦ Ended x a.2 φ) φ
  | .ended x s => Ended x s φ

/-- A task that keeps to the monitor still does after any move. -/
theorem Follows.moves {scheme : Scheme S C R L ε α} {M : Monitor S C R L Φ}
    {Ended : Except ε α → S → Φ → Prop} (hk : scheme.Keeps M Ended) {φ : Φ}
    {t t' : Task S C R L ε α} (hm : Moves scheme t t')
    (h : Follows scheme M Ended (M.phase φ t.trace) t.stage) :
    Follows scheme M Ended (M.phase φ t'.trace) t'.stage := by
  cases hm with
  | @answer s c k at_call r =>
    rw [at_call] at h
    obtain ⟨hallowed, hnext⟩ := h
    unfold Task.answer
    by_cases hr : scheme.isRemote c = true
    · rw [if_pos hr]
      exact ⟨hnext r, fun x ↦ hk.abandonAnswered _ _ _ x r hallowed hr⟩
    · rw [if_neg hr]
      exact hnext r
  | resume at_reply =>
    rw [at_reply] at h
    exact h.1
  | @enter s l at_jump =>
    rw [at_jump] at h
    exact hk.block l s _ h
  | leave at_end =>
    rw [at_end] at h
    exact h.2
  | @abandon s at_await x =>
    unfold Task.abandonable at at_await
    split at at_await
    · next s' c k hs =>
      rw [hs] at h
      split at at_await
      · next ha =>
        cases at_await
        exact hk.abandon _ _ _ x h.1 ha
      · cases at_await
    · next s' p hs =>
      rw [hs] at h
      cases at_await
      exact h.2 x
    · cases at_await
  | @answerClosing x s c k at_call r =>
    rw [at_call] at h
    exact h.2 r
  | finish at_end =>
    rw [at_end] at h
    exact h

/-- The call the task is at was in order, so a lawful trace stays lawful. -/
theorem Follows.lawful {scheme : Scheme S C R L ε α} {M : Monitor S C R L Φ}
    {Ended : Except ε α → S → Φ → Prop} {φ : Φ} {t t' : Task S C R L ε α}
    (hm : Moves scheme t t') (h : Follows scheme M Ended (M.phase φ t.trace) t.stage)
    (hl : M.Lawful φ t.trace) : M.Lawful φ t'.trace := by
  cases hm with
  | @answer s c k at_call r =>
    rw [at_call] at h
    exact ⟨⟨s, .inl h.1⟩, hl⟩
  | @answerClosing x s c k at_call r =>
    rw [at_call] at h
    exact ⟨⟨s, .inr h.1⟩, hl⟩
  | resume | enter | leave | abandon | finish => exact hl

end Task

/-! ### Driving a task -/

/-- What drives a task one move on: a reply to its call, its own next move, or its owner. -/
inductive Drive (E ε : Type) where
  | perform (env : E)
  | proceed
  | abandon (x : ε)

namespace Task

variable {σ : Type}

/-- The call the task is at. -/
def atCall (t : Task S C R L ε α) : Option C :=
  match t.stage with
  | .running (.call _ c _) => some c
  | .closing _ (.call _ c _) => some c
  | _ => none

/-- What the body ended with, once it ended or was abandoned. -/
def result (t : Task S C R L ε α) : Option (Except ε α) :=
  match t.stage with
  | .closing x _ | .ended x _ => some x
  | _ => none

/-- The call a task is at is one of its body or of its epilogue. -/
theorem Follows.at_call {scheme : Scheme S C R L ε α} {M : Monitor S C R L Φ}
    {Ended : Except ε α → S → Φ → Prop} {φ : Φ} {t : Task S C R L ε α} {c : C}
    (h : Follows scheme M Ended φ t.stage) (hc : t.atCall = some c) :
    (t.result = none ∧ ∃ s, M.allowed φ s c) ∨
      (t.result.isSome = true ∧ ∃ s, M.closing φ s c) := by
  unfold atCall at hc
  unfold result
  split at hc
  · next s c' k hs =>
    cases hc
    rw [hs] at h ⊢
    exact .inl ⟨rfl, s, h.1⟩
  · next x s c' k hs =>
    cases hc
    rw [hs] at h ⊢
    exact .inr ⟨rfl, s, h.1⟩
  · cases hc

/-- The task one move on, with the surroundings a reply came from; none when the drive does
not apply. -/
def next {E : Type} (scheme : Scheme S C R L ε α) (exec : E → (c : C) → Option (σ × R c))
    (w : σ) (t : Task S C R L ε α) : Drive E ε → Option (σ × Task S C R L ε α)
  | .perform env =>
    match t.stage with
    | .running (.call s c k) => (exec env c).map fun a ↦ (a.1, t.answer scheme s c k a.2)
    | .closing x (.call _ c k) => (exec env c).map fun a ↦ (a.1, t.answerClosing x c k a.2)
    | _ => none
  | .proceed =>
    match t.stage with
    | .answered _ p => some (w, { t with stage := .running p })
    | .running (.goto s l) => some (w, { t with stage := .running (scheme.block l s) })
    | .running (.ret (x, s)) => some (w, t.close scheme x s)
    | .closing x (.ret (_, s)) => some (w, { t with stage := .ended x s })
    | _ => none
  | .abandon x => (t.abandonable scheme).map fun s ↦ (w, t.close scheme (.error x) s)

/-- A driven task makes one of its moves. Either its call was answered and joins the trace,
or the surroundings and the trace stay, and the body is over only when it was before, when
the owner abandoned it, or when it ended. -/
theorem next_some {E : Type} {scheme : Scheme S C R L ε α}
    {exec : E → (c : C) → Option (σ × R c)} {w w' : σ} {t t' : Task S C R L ε α}
    {d : Drive E ε} (h : t.next scheme exec w d = some (w', t')) :
    Moves scheme t t' ∧
      ((∃ env c r, d = .perform env ∧ t.atCall = some c ∧ exec env c = some (w', r) ∧
          t'.trace = ⟨c, r⟩ :: t.trace ∧ t'.result = t.result) ∨
        (w' = w ∧ t'.trace = t.trace ∧ (∀ x, t.result = some x → t'.result = some x) ∧
          ∀ x, t'.result = some x → t.result = some x ∨ (∃ y, d = .abandon y) ∨
            ∃ s, t.stage = .running (.ret (x, s)))) := by
  cases d with
  | perform env =>
    simp only [next] at h
    split at h
    · next s c k hs =>
      obtain ⟨⟨w₁, r⟩, hr, he⟩ := Option.map_eq_some_iff.mp h
      cases he
      refine ⟨.answer hs r, .inl ⟨env, c, r, rfl, by rw [atCall, hs], hr, rfl, ?_⟩⟩
      unfold result answer
      rw [hs]
      cases scheme.isRemote c
      · rfl
      · rfl
    · next x s c k hs =>
      obtain ⟨⟨w₁, r⟩, hr, he⟩ := Option.map_eq_some_iff.mp h
      cases he
      refine ⟨.answerClosing hs r, .inl ⟨env, c, r, rfl, by rw [atCall, hs], hr, rfl, ?_⟩⟩
      unfold result answerClosing
      rw [hs]
    · cases h
  | proceed =>
    simp only [next] at h
    split at h
    · next s p hs =>
      cases h
      refine ⟨.resume hs, .inr ⟨rfl, rfl, ?_, nofun⟩⟩
      unfold result
      rw [hs]
      nofun
    · next s l hs =>
      cases h
      refine ⟨.enter hs, .inr ⟨rfl, rfl, ?_, nofun⟩⟩
      unfold result
      rw [hs]
      nofun
    · next x s hs =>
      cases h
      refine ⟨.leave hs, .inr ⟨rfl, rfl, ?_, ?_⟩⟩
      · unfold result
        rw [hs]
        nofun
      · intro y hy
        cases hy
        exact .inr (.inr ⟨s, hs⟩)
    · next x y s hs =>
      cases h
      have hr : t.result = some x := by rw [result, hs]
      exact ⟨.finish hs,
        .inr ⟨rfl, rfl, fun y hy ↦ hr.symm.trans hy, fun y hy ↦ .inl (hr.trans hy)⟩⟩
    · cases h
  | abandon x =>
    obtain ⟨s, hs, he⟩ := Option.map_eq_some_iff.mp h
    cases he
    refine ⟨.abandon hs x, .inr ⟨rfl, rfl, ?_, fun _ _ ↦ .inr (.inl ⟨x, rfl⟩)⟩⟩
    unfold abandonable at hs
    unfold result
    split at hs
    · next hstage =>
      rw [hstage]
      nofun
    · next hstage =>
      rw [hstage]
      nofun
    · cases hs

end Task
end Xxgate.Base

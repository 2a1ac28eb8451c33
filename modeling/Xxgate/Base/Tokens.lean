import Xxgate.Base.Owing

/-!
# Tokens that pass from hand to hand

A thing that is issued, lies in the shared state or is in the hands of a task, and is spent:
when no call makes two of one, no more are spent in a run than were issued. What a task holds
is told by its calls and replies, so that a task that is dropped takes it along.
-/

namespace Xxgate.Base

open FiniteMap

variable {σ E J A S C L Φ ε α K : Type} {R : C → Type}

namespace Pool

/-- The call a move performs, with its reply. -/
def performed (k : Kit σ E J A S C R L ε α) (w : Pool σ J S C R L ε α) :
    Move E J A ε → Option (Sigma R)
  | .drive id (.perform env) =>
    (w.calling id).bind fun c ↦ (k.exec w.shared id env c).map fun a ↦ ⟨c, a.2⟩
  | _ => none

variable {k : Kit σ E J A S C R L ε α} {M : Monitor S C R L Φ}
  {Ended : Except ε α → S → Φ → Prop} {begin : J → Φ} {w : Pool σ J S C R L ε α}

/-- A performed call joins the trace of the task that was at it. -/
theorem step_performed {m : Move E J A ε} {e : Sigma R} (h : w.performed k m = some e) :
    ∃ id env job t t' shared, m = .drive id (.perform env) ∧
      w.tasks.lookup id = some (job, t) ∧ t.atCall = some e.1 ∧
      k.exec w.shared id env e.1 = some (shared, e.2) ∧ t'.trace = e :: t.trace ∧
      w.step k m = ⟨shared, w.tasks.insert id (job, t')⟩ := by
  unfold performed at h
  split at h
  swap
  · cases h
  next id env =>
  obtain ⟨c, hc, h⟩ := Option.bind_eq_some_iff.mp h
  obtain ⟨⟨shared, r⟩, he, rfl⟩ := Option.map_eq_some_iff.mp h
  obtain ⟨⟨job, t⟩, hl, hat⟩ := Option.bind_eq_some_iff.mp hc
  have hat : t.atCall = some c := hat
  have hnext : ∃ t', t.next k.scheme (k.exec w.shared id) w.shared (.perform env) =
      some (shared, t') ∧ t'.trace = ⟨c, r⟩ :: t.trace := by
    have hat := hat
    unfold Task.atCall at hat
    unfold Task.next
    split at hat
    · cases hat
      simp only [he, Option.map_some]
      exact ⟨_, rfl, rfl⟩
    · cases hat
      simp only [he, Option.map_some]
      exact ⟨_, rfl, rfl⟩
    · cases hat
  obtain ⟨t', hn, htrace⟩ := hnext
  exact ⟨id, env, job, t, t', shared, rfl, hl, hat, he, htrace, step_drive hl hn⟩

/-- How often a key is the one that is there. -/
def count [DecidableEq K] (o : Option K) (key : K) : Nat := if o = some key then 1 else 0

/-- Where the tokens of a kit are: how many of a kind lie in the shared state and in the hands
of a task, and which calls issue and spend one. -/
structure Tokens (k : Kit σ E J A S C R L ε α) (M : Monitor S C R L Φ) (begin : J → Φ) (K : Type)
    [DecidableEq K] where
  stock : σ → K → Nat
  hand : Φ → K → Nat
  issued : Sigma R → Option K
  spent : Sigma R → Option K
  starts : ∀ job key, hand (begin job) key = 0
  called : ∀ {s s' id env φ st c r} key, (M.allowed φ st c ∨ M.closing φ st c) →
    k.exec s id env c = some (s', r) →
    stock s' key + hand (M.next φ c r) key + count (spent ⟨c, r⟩) key ≤
      stock s key + hand φ key + count (issued ⟨c, r⟩) key
  changed : ∀ s a key, stock (k.change s a) key ≤ stock s key

namespace Tokens

variable [DecidableEq K]

/-- The tokens of a kind, wherever they are. -/
def total (T : Tokens k M begin K) (w : Pool σ J S C R L ε α) (key : K) : Nat :=
  T.stock w.shared key +
    (w.tasks.values.map fun e ↦ T.hand (M.phase (begin e.1) e.2.trace) key).sum

/-- The tokens after one task was replaced. -/
theorem total_insert (T : Tokens k M begin K) (shared : σ) {id : Nat} {job : J}
    {t : Task S C R L ε α} (h : w.tasks.lookup id = some (job, t)) (t' : Task S C R L ε α)
    (key : K) :
    T.total ⟨shared, w.tasks.insert id (job, t')⟩ key + T.stock w.shared key +
        T.hand (M.phase (begin job) t.trace) key =
      T.total w key + T.stock shared key + T.hand (M.phase (begin job) t'.trace) key := by
  have hsum := sum_insert w.tasks (fun e ↦ T.hand (M.phase (begin e.1) e.2.trace) key) id (job, t')
  rw [h] at hsum
  unfold total
  simp only [Option.elim_some] at hsum ⊢
  omega

/-- A move spends no more than it issues or finds. -/
theorem total_step (T : Tokens k M begin K) (hd : k.Disciplined M Ended begin)
    (hk : w.Kept k M Ended begin) (m : Move E J A ε) (key : K) :
    T.total (w.step k m) key + count ((w.performed k m).bind T.spent) key ≤
      T.total w key + count ((w.performed k m).bind T.issued) key := by
  cases hp : w.performed k m with
  | some e =>
    obtain ⟨c, r⟩ := e
    obtain ⟨id, env, job, t, t', shared, rfl, hl, hat, he, htrace, hstep⟩ := step_performed hp
    have hin : ∃ st, M.allowed (M.phase (begin job) t.trace) st c ∨
        M.closing (M.phase (begin job) t.trace) st c := by
      rcases (hk id job t hl).1.at_call hat with ⟨-, st, h⟩ | ⟨-, st, h⟩
      · exact ⟨st, .inl h⟩
      · exact ⟨st, .inr h⟩
    obtain ⟨st, hin⟩ := hin
    have he : k.exec w.shared id env c = some (shared, r) := he
    have hcall := T.called key hin he
    have hphase : M.phase (begin job) t'.trace =
        M.next (M.phase (begin job) t.trace) c r := by
      rw [htrace]
      rfl
    have htotal := T.total_insert shared hl t' key
    rw [hphase] at htotal
    rw [hstep]
    simp only [Option.bind_some]
    omega
  | none =>
    have ht := (step_transition hd hk m).1
    have hle : T.total (w.step k m) key ≤ T.total w key := by
      have hcalled : ∀ {id : Nat} {env : E} {job : J} {t t' : Task S C R L ε α} {c : C} {r : R c}
          {shared : σ}, m = .drive id (.perform env) → w.tasks.lookup id = some (job, t) →
          (w.step k m).tasks.lookup id = some (job, t') → t'.trace = ⟨c, r⟩ :: t.trace →
          k.exec w.shared id env c = some (shared, r) → False := by
        rintro id env job t t' c r shared rfl here after trace he
        have hc := calling_of_step here after trace
        have hp : ((w.calling id).bind fun c ↦
            (k.exec w.shared id env c).map fun a ↦ (⟨c, a.2⟩ : Sigma R)) = none := hp
        rw [hc, Option.bind_some, he] at hp
        cases hp
      generalize w.step k m = w' at ht hcalled
      cases ht with
      | idle => exact le_refl _
      | @spawned id job new =>
        have hsum := sum_insert w.tasks (fun e ↦ T.hand (M.phase (begin e.1) e.2.trace) key) id
          (job, ⟨.running (k.body job), []⟩)
        rw [new] at hsum
        have hzero : T.hand (M.phase (begin job) []) key = 0 := T.starts job key
        simp only [Option.elim_none, hzero] at hsum
        unfold total
        dsimp only
        omega
      | @called id env job t t' c r shared here inOrder performed trace result =>
        refine (hcalled rfl here ?_ trace performed).elim
        dsimp only
        rw [lookup_insert_ite, if_pos rfl]
      | @moved id d job t t' here trace stays leaves =>
        have htotal := T.total_insert w.shared here t' key
        rw [trace] at htotal
        omega
      | changed a =>
        have hchange := T.changed w.shared a key
        unfold total
        dsimp only
        split
        · show T.stock (k.change w.shared a) key + 0 ≤ _
          omega
        · omega
    simpa [count] using hle

/-- **No more is spent than was issued.** Whatever the tasks do in whatever order, and whichever
of them are dropped: the tokens of a kind that were spent are no more than those there were
and those that were issued. -/
theorem spent_le (T : Tokens k M begin K) (hd : k.Disciplined M Ended begin)
    (hk : w.Kept k M Ended begin) (moves : List (Move E J A ε)) (key : K) :
    (outputs (step k) (fun w m ↦ (performed k w m).bind T.spent) w moves).count key ≤
      T.total w key +
        (outputs (step k) (fun w m ↦ (performed k w m).bind T.issued) w moves).count key := by
  have hcount : ∀ o : Option K, o.toList.count key = count o key := by
    intro o
    cases o with
    | none => rfl
    | some a => simp [count, List.count_cons]
  induction moves generalizing w with
  | nil => exact Nat.zero_le _
  | cons m moves ih =>
    have hstep := T.total_step hd hk m key
    have hrest := ih (step_transition hd hk m).2
    simp only [outputs, List.count_append, hcount]
    omega

end Tokens
end Pool
end Xxgate.Base

import Xxgate.Resets.Redeemed

/-!
# Operations with a result

A result is final: its operation is not sent again, and a later call with the operation and its
credit returns it. A call whose look-up fails returns that failure instead.
-/

namespace Xxgate.Resets

open Xxgate.Base Xxgate.Base.FiniteMap Xxgate.Core Xxgate.Store ResetTables

namespace World

variable {w : World}

/-- The consume requests that were sent for an operation. -/
def sentFor (w : World) (operation : Uuid) : List Sent :=
  w.shared.sent.filter (·.redemption.redeemRequestId = operation)

/-- An operation of the account has no result. -/
def Unresolved (w : World) (account operation : Uuid) : Prop :=
  ∃ row, w.shared.store.operations.lookup operation = some row ∧ row.accountId = account ∧
    row.completed = false

/-- The operation has the row, with a result. -/
structure Resolved (operation : Uuid) (row : OperationRow) (w : World) : Prop where
  stored : w.shared.store.operations.lookup operation = some row
  completed : row.completed = true

/-- What a task was started for, and what its calls of `consume_reset` returned. -/
def returned (w : World) (task : Nat) : Option (Job × List (Result ResetOperation)) :=
  (w.tasks.lookup task).map fun e ↦ (e.1, e.2.trace.filterMap fun
    | ⟨.returned r, _⟩ => some r
    | _ => none)

/-- The replies to the look-ups of operations a task made. -/
def lookUps (w : World) (task : Nat) : List (Result (Option ResetOperation)) :=
  (w.tasks.lookup task).elim [] fun e ↦ e.2.trace.filterMap fun
    | ⟨.resetOperation _ (some _), r⟩ => some r
    | _ => none

/-- A result is final, and its operation is not sent again. -/
theorem Resolved.step {operation : Uuid} {row : OperationRow} (h : Resolved operation row w)
    (hc : w.Consistent) (m : Move) : Resolved operation row (w.step m) ∧
      (w.step m).sentFor operation = w.sentFor operation := by
  obtain ⟨hgrows, hsent⟩ := (hc.step m).2
  obtain ⟨row', hl, -, -, hsame⟩ := hgrows _ _ h.stored
  refine ⟨⟨hsame h.completed ▸ hl, h.completed⟩, ?_⟩
  rcases hsent with hs | ⟨e, hs, row'', hl', -, -, hopen⟩
  · rw [sentFor, hs, sentFor]
  · rw [sentFor, hs, sentFor, List.filter_cons_of_neg]
    intro he
    rw [decide_eq_true_eq] at he
    rw [he] at hl'
    cases h.stored.symm.trans hl'
    cases h.completed.symm.trans hopen

private theorem Resolved.run {operation : Uuid} {row : OperationRow} (h : Resolved operation row w)
    (hc : w.Consistent) (moves : List Move) :
    Resolved operation row (Base.run World.step w moves) ∧
      (Base.run World.step w moves).sentFor operation = w.sentFor operation := by
  have hstep : ∀ (w' : World) (m : Move), w'.Consistent ∧ Resolved operation row w' ∧
      w'.sentFor operation = w.sentFor operation → (w'.step m).Consistent ∧
        Resolved operation row (w'.step m) ∧
        (w'.step m).sentFor operation = w.sentFor operation := by
    intro w' m h'
    obtain ⟨hc', hr, hs⟩ := h'
    obtain ⟨hr', hs'⟩ := hr.step hc' m
    exact ⟨(hc'.step m).1, hr', hs'.trans hs⟩
  exact (run_invariant hstep moves ⟨hc, h, rfl⟩).2

/-! ### Later calls -/

private theorem phase_job (job : Job) (trace : List (Sigma Call.Reply)) :
    (monitor.phase (.start job) trace).job = job := by
  induction trace with
  | nil => rfl
  | cons e trace ih =>
    obtain ⟨c, r⟩ := e
    cases c with
    | resetOperation id operation =>
      cases operation with
      | none => exact ih
      | some operation => cases r <;> exact ih
    | _ => exact ih

/-- The first look-up of an operation is in the trace, and is for the operation of the task. -/
theorem first_mem {job : Job} {trace : List (Sigma Call.Reply)} {r : Result (Option ResetOperation)}
    (hl : monitor.Lawful (.start job) trace)
    (h : (monitor.phase (.start job) trace).first = some r) :
    ∃ id operationId credit, job = .consumeReset id operationId credit ∧
      ⟨.resetOperation id (some operationId), r⟩ ∈ trace := by
  induction trace with
  | nil => cases h
  | cons e trace ih =>
    obtain ⟨c, v⟩ := e
    have hrest : (monitor.phase (.start job) trace).first = some r → ∃ id operationId credit,
        job = .consumeReset id operationId credit ∧
          (⟨.resetOperation id (some operationId), r⟩ : Sigma Call.Reply) ∈ ⟨c, v⟩ :: trace := by
      intro h
      obtain ⟨id, operationId, credit, hjob, hm⟩ := ih hl.2 h
      exact ⟨id, operationId, credit, hjob, List.mem_cons_of_mem _ hm⟩
    cases c with
    | resetOperation id operation =>
      cases operation with
      | none => exact hrest h
      | some operationId =>
        cases hf : (monitor.phase (.start job) trace).first with
        | some v' =>
          refine hrest ?_
          have hkept : (monitor.phase (.start job)
              (⟨.resetOperation id (some operationId), v⟩ :: trace)).first = some v' := by
            refine Eq.trans ?_ hf
            exact (Within.lookedUp (by rw [hf]; rfl) v).first
          rw [hf, ← hkept, h]
        | none =>
          cases (first_lookedUp hf v).symm.trans h
          obtain ⟨⟨s, hin⟩, -⟩ := hl
          obtain ⟨-, credit, hjob⟩ := hin.resolve_right nofun
          rw [phase_job] at hjob
          exact ⟨id, operationId, credit, hjob, List.mem_cons_self⟩
    | _ => exact hrest h

/-- A look-up of the operation that is answered finds the row. -/
def Finds (operation : Uuid) (row : OperationRow) (e : Sigma Call.Reply) : Prop :=
  ∀ v, e = ⟨.resetOperation row.accountId (some operation), .ok v⟩ → v = some row.data

private theorem Resolved.finds {operation : Uuid} {row : OperationRow}
    (h : Resolved operation row w)
    {task : Nat} {env : Env} {c : Call} {r : c.Reply} {shared : Installation}
    (he : w.shared.exec task env c = some (shared, r)) : Finds operation row ⟨c, r⟩ := by
  rintro v hv
  cases hv
  unfold Installation.exec at he
  cases ho : env.outcome with
  | answered =>
    rw [ho] at he
    cases he
    exact resetOperation_eq_some.mpr ⟨row, h.stored, rfl, rfl⟩
  | _ =>
    rw [ho] at he
    cases he

/-- A task that looks a resolved operation up returns its row, or the error of the look-up. -/
theorem Resolved.returns {operation : Uuid} {row : OperationRow} (h : Resolved operation row w)
    (hc : w.Consistent) {task : Nat} (hf : Pool.Answered (Finds operation row) task w)
    {results : List (Result ResetOperation)}
    (hr : w.returned task =
      some (.consumeReset row.accountId operation row.data.creditId, results)) :
    ∀ r ∈ results, r = .ok row.data ∨ ∃ x, r = .error x ∧ .error x ∈ w.lookUps task := by
  obtain ⟨⟨job, t⟩, hl, he⟩ := Option.map_eq_some_iff.mp hr
  cases he
  have hrow := hc.sound.rows _ _ h.stored
  intro r hmem
  obtain ⟨e, hmem, he⟩ := List.mem_filterMap.mp hmem
  split at he
  · next r' _ =>
    cases he
    obtain ⟨newer, older, htrace⟩ := List.append_of_mem hmem
    have hlaw := (hc.kept task _ t hl).2
    rw [htrace] at hlaw
    obtain ⟨⟨s, hin⟩, hlaw⟩ := hlaw.at_call
    have hreturn : (monitor.phase (.start _) older).MayReturn r := hin.resolve_right nofun
    obtain ⟨⟨v, hv⟩, herror, hok⟩ := hreturn _ _ _ (phase_job _ _) hrow.acceptable
    obtain ⟨id, operationId, credit, hjob, hfirst⟩ := first_mem hlaw hv
    cases hjob
    have holder : ∀ e ∈ older, e ∈ t.trace := by
      intro e he
      rw [htrace]
      exact List.mem_append_right _ (List.mem_cons_of_mem _ he)
    cases v with
    | error x =>
      refine .inr ⟨x, herror x hv, ?_⟩
      rw [lookUps, hl]
      exact List.mem_filterMap.mpr ⟨_, holder _ hfirst, rfl⟩
    | ok v =>
      cases hf _ t hl _ (holder _ hfirst) v rfl
      exact .inl (hok _ hv rfl (hrow.completed ▸ h.completed))
  · cases he

/-- A later call with the operation and the credit. -/
theorem Resolved.later {operation : Uuid} {row : OperationRow} (h : Resolved operation row w)
    (hc : w.Consistent) {task : Nat} (hnew : task ∉ w.tasks) (moves : List Move)
    {results : List (Result ResetOperation)}
    (hr : (Base.run World.step
        (w.step (.spawn task (.consumeReset row.accountId operation row.data.creditId)))
        moves).returned task =
      some (.consumeReset row.accountId operation row.data.creditId, results)) :
    ∀ r ∈ results, r = .ok row.data ∨ ∃ x, r = .error x ∧ .error x ∈ (Base.run World.step
      (w.step (.spawn task (.consumeReset row.accountId operation row.data.creditId)))
      moves).lookUps task := by
  have hstep : ∀ (w' : World) (m : Move), w'.Consistent ∧ Resolved operation row w' ∧
      Pool.Answered (Finds operation row) task w' → (w'.step m).Consistent ∧
        Resolved operation row (w'.step m) ∧
        Pool.Answered (Finds operation row) task (w'.step m) := by
    intro w' m h'
    obtain ⟨hc', hr', hf⟩ := h'
    refine ⟨(hc'.step m).1, (hr'.step hc' m).1, ?_⟩
    exact hf.step disciplined hc'.kept m fun env c r shared he ↦ hr'.finds he
  have hspawned : Pool.Answered (Finds operation row) task
      (w.step (.spawn task (.consumeReset row.accountId operation row.data.creditId))) := by
    rw [World.step, Pool.step_spawn hnew]
    intro job t hl e he
    rw [lookup_insert_ite, if_pos rfl] at hl
    cases hl
    cases he
  obtain ⟨hc', h', hf⟩ := run_invariant hstep moves
    ⟨(hc.step _).1, (h.step hc _).1, hspawned⟩
  exact h'.returns hc' hf hr

/-- A task goes on by its call. -/
abbrev perform (task : Nat) (env : Env) : Move := .drive task (.perform env)

/-- The moves of a task that finds its operation resolved. -/
def prompt (task : Nat) (env : Env) : List Move :=
  [perform task env, perform task env, .drive task .proceed, perform task env, perform task env]

section

variable {task : Nat} {job : Job} {trace : List (Sigma Call.Reply)}

private theorem step_perform {env : Env} {c : Call} {r : c.Reply} {shared : Installation}
    {k : c.Reply → Prog Unit Call Call.Reply Empty (Except Error Unit × Unit)}
    (h : w.tasks.lookup task = some (job, ⟨.running (.call () c k), trace⟩))
    (he : w.shared.exec task env c = some (shared, r)) :
    (w.step (perform task env)).shared = shared ∧
      (w.step (perform task env)).tasks.lookup task =
        some (job, ⟨if c.isRemote then .answered () (k r) else .running (k r),
          ⟨c, r⟩ :: trace⟩) := by
  have hn : Task.next kit.scheme (kit.exec w.shared task) w.shared
      ⟨.running (.call () c k), trace⟩ (.perform env) = some (shared,
        Task.answer kit.scheme ⟨.running (.call () c k), trace⟩ () c k r) :=
    congrArg (Option.map fun a : Installation × c.Reply ↦
      (a.1, Task.answer kit.scheme ⟨.running (.call () c k), trace⟩ () c k a.2)) he
  rw [perform, World.step, Pool.step_drive h hn, lookup_insert_ite, if_pos rfl]
  exact ⟨rfl, rfl⟩

private theorem step_proceed {p : Prog Unit Call Call.Reply Empty (Except Error Unit × Unit)}
    (h : w.tasks.lookup task = some (job, ⟨.answered () p, trace⟩)) :
    (w.step (.drive task .proceed)).shared = w.shared ∧
      (w.step (.drive task .proceed)).tasks.lookup task = some (job, ⟨.running p, trace⟩) := by
  have hn : Task.next kit.scheme (kit.exec w.shared task) w.shared
      ⟨.answered () p, trace⟩ .proceed = some (w.shared, ⟨.running p, trace⟩) := rfl
  rw [World.step, Pool.step_drive h hn, lookup_insert_ite, if_pos rfl]
  exact ⟨rfl, rfl⟩

end

private theorem body_acceptable {id operationId : Uuid} {credit : String}
    (h : Acceptable operationId credit) : body (.consumeReset id operationId credit) = (do
      let _ ← returning (locked id (consumeLocked id operationId credit))) := by
  obtain ⟨hid, hcredit, hsize⟩ := h
  unfold body consumeReset
  dsimp only
  rw [if_neg]
  simp only [Bool.or_eq_true, decide_eq_true_eq, not_or, Bool.not_eq_true, Nat.not_lt]
  exact ⟨⟨hid, hcredit⟩, hsize⟩

/-- An operation that has a result is not taken up again. -/
theorem resumeReset_resolved {id operationId : Uuid} {operation : ResetOperation}
    (h : operation.result.isSome = true) :
    resumeReset id operationId operation.creditId (some operation) = pure operation := by
  unfold resumeReset
  dsimp only
  rw [if_neg (not_not.mpr rfl), if_pos h]

/-- A later call that gets the lock and an answer returns the row. -/
theorem Resolved.prompt {operation : Uuid} {row : OperationRow} (h : Resolved operation row w)
    (hc : w.Consistent) {task : Nat} (hnew : task ∉ w.tasks)
    (hfree : row.accountId ∉ w.shared.locks) {env : Env} (ha : env.outcome = .answered) :
    (Base.run World.step
        (w.step (.spawn task (.consumeReset row.accountId operation row.data.creditId)))
        (World.prompt task env)).returned task =
      some (.consumeReset row.accountId operation row.data.creditId, [.ok row.data]) := by
  have hrow := hc.sound.rows _ _ h.stored
  have hspawn : (w.step (.spawn task
      (.consumeReset row.accountId operation row.data.creditId))).tasks.lookup task =
      some (.consumeReset row.accountId operation row.data.creditId,
        ⟨.running (body (.consumeReset row.accountId operation row.data.creditId) ()), []⟩) := by
    rw [World.step, Pool.step_spawn hnew, lookup_insert_ite, if_pos rfl]
    rfl
  have hshared : (w.step (.spawn task
      (.consumeReset row.accountId operation row.data.creditId))).shared = w.shared := by
    rw [World.step, Pool.step_spawn hnew]
  rw [World.prompt, run_cons, run_cons, run_cons, run_cons, run_cons, run_nil]
  generalize w.step (.spawn task (.consumeReset row.accountId operation row.data.creditId)) = w₁
    at hspawn hshared ⊢
  rw [body_acceptable hrow.acceptable] at hspawn
  have hlock : w₁.shared.exec task env (.lock row.accountId) =
      some ({ w₁.shared with locks := w₁.shared.locks.insert row.accountId task }, ()) := by
    rw [hshared]
    show Option.map _ (if _ then _ else _) = _
    rw [if_neg hfree]
    rfl
  obtain ⟨hs₂, ht₂⟩ := step_perform hspawn hlock
  generalize w₁.step (perform task env) = w₂ at hs₂ ht₂ ⊢
  have hfind : w₂.shared.exec task env (.resetOperation row.accountId (some operation)) =
      some (w₂.shared, .ok (some row.data)) := by
    have hrow : w₂.shared.store.resetOperation row.accountId (some operation) = some row.data := by
      rw [hs₂, hshared]
      exact resetOperation_eq_some.mpr ⟨row, h.stored, rfl, rfl⟩
    rw [← hrow]
    unfold Installation.exec
    rw [ha]
  obtain ⟨hs₃, ht₃⟩ := step_perform ht₂ hfind
  generalize w₂.step (perform task env) = w₃ at hs₃ ht₃ ⊢
  obtain ⟨hs₄, ht₄⟩ := step_proceed ht₃
  generalize w₃.step (.drive task .proceed) = w₄ at hs₄ ht₄ ⊢
  -- what is left of the program once the operation is found
  let rest : Run ResetOperation → Run Unit := fun m ↦ do
    let _ ← returning do
      let result ← Coroutine.outcome m
      call (.unlock row.accountId)
      Coroutine.ok result
  have hrest : w₄.tasks.lookup task = some (.consumeReset row.accountId operation row.data.creditId,
      ⟨.running (rest (resumeReset row.accountId operation row.data.creditId (some row.data)) ()),
        [⟨.resetOperation row.accountId (some operation), .ok (some row.data)⟩,
          ⟨.lock row.accountId, ()⟩]⟩) := ht₄
  rw [resumeReset_resolved (hrow.completed ▸ h.completed)] at hrest
  have hunlock : ∃ locks, w₄.shared.exec task env (.unlock row.accountId) =
      some ({ w₄.shared with locks := locks }, ()) := ⟨_, rfl⟩
  obtain ⟨locks, hunlock⟩ := hunlock
  obtain ⟨hs₅, ht₅⟩ := step_perform hrest hunlock
  generalize w₄.step (perform task env) = w₅ at hs₅ ht₅ ⊢
  have hreturned : w₅.shared.exec task env (.returned (.ok row.data)) = some (w₅.shared, ()) := rfl
  obtain ⟨hs₆, ht₆⟩ := step_perform ht₅ hreturned
  rw [returned, ht₆]
  rfl

/-! ### Redemption -/

/-- What the journal promises in a state, whatever happens next. -/
structure Redeems (w : World) : Prop where
  /-- At most one operation of an account has no result. -/
  single : ∀ account operation operation', w.Unresolved account operation →
    w.Unresolved account operation' → operation = operation'
  /-- A move sends at most one request, for a stored operation that is the one of its account
  without a result. -/
  sends : ∀ m, (w.step m).shared.sent = w.shared.sent ∨
    ∃ e, (w.step m).shared.sent = e :: w.shared.sent ∧ Authorised w.shared.store e ∧
      ∀ operation, w.Unresolved e.accountId operation ↔
        operation = e.redemption.redeemRequestId
  /-- All requests for an operation are for one credit. -/
  credit : ∀ e ∈ w.shared.sent, ∀ e' ∈ w.shared.sent,
    e.redemption.redeemRequestId = e'.redemption.redeemRequestId →
    e.redemption.creditId = e'.redemption.creditId
  /-- A result is never changed, and its operation never sent again. -/
  final : ∀ operation row, Resolved operation row w → ∀ moves,
    Resolved operation row (Base.run World.step w moves) ∧
      (Base.run World.step w moves).sentFor operation = w.sentFor operation
  /-- A later call with the operation and its credit returns the stored one, or the error of its
  own look-up. -/
  later : ∀ operation row task, Resolved operation row w → task ∉ w.tasks →
    ∀ job, job = .consumeReset row.accountId operation row.data.creditId → ∀ moves w',
    w' = Base.run World.step (w.step (.spawn task job)) moves → ∀ results,
    w'.returned task = some (job, results) →
    ∀ r ∈ results, r = .ok row.data ∨ ∃ x, r = .error x ∧ .error x ∈ w'.lookUps task
  /-- With the lock free and its look-up answered it returns. -/
  returns : ∀ operation row task, Resolved operation row w → task ∉ w.tasks →
    row.accountId ∉ w.shared.locks → ∀ env : Env, env.outcome = .answered →
    ∀ job, job = .consumeReset row.accountId operation row.data.creditId →
    (Base.run World.step (w.step (.spawn task job)) (World.prompt task env)).returned task =
      some (job, [.ok row.data])

/-- In every state of every run, the journal keeps what it promises. -/
theorem redemption_idempotent (accounts : List Uuid) (credits : FiniteMap Uuid ResetCredits)
    (moves : List Move) : Redeems (Base.run World.step (World.new accounts credits) moves) := by
  have hc := Reachable.consistent ⟨accounts, credits, moves, rfl⟩
  generalize Base.run World.step (World.new accounts credits) moves = w at hc
  refine ⟨?_, ?_, ?_, fun _ _ hr moves ↦ hr.run hc moves, ?_, ?_⟩
  · rintro account o o' ⟨row, hl, rfl, hn⟩ ⟨row', hl', ha, hn'⟩
    exact hc.sound.single _ _ _ _ hl hl' ha.symm hn hn'
  · intro m
    refine (hc.step m).2.sent.imp_right ?_
    rintro ⟨e, hs, ha⟩
    refine ⟨e, hs, ha, fun operation ↦ ?_⟩
    obtain ⟨row, hl, hacc, -, hopen⟩ := ha
    constructor
    · rintro ⟨row', hl', ha', hn'⟩
      exact hc.sound.single _ _ _ _ hl' hl (ha'.trans hacc.symm) hn' hopen
    · rintro rfl
      exact ⟨row, hl, hacc, hopen⟩
  · intro e he e' he' hid
    obtain ⟨row, hl, -, hcredit⟩ := hc.logged e he
    obtain ⟨row', hl', -, hcredit'⟩ := hc.logged e' he'
    rw [hid, hl'] at hl
    cases hl
    exact hcredit.symm.trans hcredit'
  · rintro operation row task hr hnew job rfl moves w' rfl results hret
    exact hr.later hc hnew moves hret
  · rintro operation row task hr hnew hfree env ha job rfl
    exact hr.prompt hc hnew hfree ha

/-! ### A look-up that fails -/

namespace Sample

/-- An account that can redeem credits. -/
def account : Account where
  id := 7
  groupIds := [1]
  name := "seven"
  provider := "openai"
  accessKind := "codex_oauth"
  enabled := true
  codexOnly := false
  useExtraCredits := false
  disableReason := none
  maxInflight := 2
  upstreamAccountId := "upstream-7"
  models := []
  modelsRestricted := false
  modelCatalog := none
  profile := ⟨"codex", "native"⟩
  version := 1
  credentialVersion := 1
  credentialExpiresAt := some 0

/-- Replies of a day on which one credit is left and gets redeemed. -/
def reply : (q : Consult) → q.Reply
  | .now => 5
  | .credentials _ => .ok ()
  | .account _ => some account
  | .quotaRequest _ => .ok ()
  | .readLimited => some (.ok ())
  | .httpError _ => ⟨502, "upstream_error", "The upstream failed"⟩
  | .resetCreditsResponse =>
    .ok ⟨1, [⟨"late", "codex_rate_limits", "available", 0, some 9⟩,
      ⟨"early", "codex_rate_limits", "available", 0, some 8⟩], 5⟩
  | .consumeResetResponse => .ok ⟨.reset, 2⟩
  | .appendEvent _ => .ok ()

/-- A task goes on by at most `n` calls. -/
def turns (task : Nat) (outcome : Outcome) (n : Nat) : List Move :=
  (List.replicate n
    [.drive task (.perform ⟨outcome, some (.ok 200), reply⟩), .drive task .proceed]).flatten

/-- An installation of account 7 in which operation 1 redeemed the credit that expires first. -/
def redeemed : World :=
  run World.step (World.new [7] ∅) (.spawn 1 (.consumeReset 7 1 "early") :: turns 1 .answered 24)

end Sample

set_option maxRecDepth 20000 in
/-- A later call whose look-up fails returns the failure and not the stored result. -/
theorem lookup_failed : ∃ row, Resolved 1 row Sample.redeemed ∧ 2 ∉ Sample.redeemed.tasks ∧
    (Base.run World.step (Sample.redeemed.step (.spawn 2 (.consumeReset 7 1 "early")))
      (Sample.turns 2 .failed 5)).returned 2 =
        some (.consumeReset 7 1 "early", [.error .storage]) := by
  refine ⟨⟨7, true, ⟨1, 7, "early", 5, some ⟨.reset, 2⟩⟩⟩, ⟨?_, rfl⟩, ?_, ?_⟩
  · decide +kernel
  · decide +kernel
  · rfl

end World

end Xxgate.Resets

import Xxgate.Gateway.Keeps
import Xxgate.Gateway.World

/-!
# What one move does

Every request of a reachable installation keeps to its monitor. `World.Transition` lists
what a move can change then: the calls a request makes are in order, and everything else
leaves what is known of the requests alone.
-/

namespace Xxgate.Gateway

open Xxgate.Base Xxgate.Base.FiniteMap Xxgate.Core Xxgate.Scheduling Xxgate.Store

/-- What is known after a trace, newest first. -/
def Progress.after (φ : Progress) : List (Sigma Call.Reply) → Progress
  | [] => φ
  | ⟨c, r⟩ :: trace => (φ.after trace).next c r

/-- Monitors that learn from calls and replies know what the trace tells. -/
theorem phase_eq_after {S L : Type} {M : Monitor S Call Call.Reply L Progress}
    (h : M.next = Progress.next) (φ : Progress) (trace : List (Sigma Call.Reply)) :
    M.phase φ trace = φ.after trace := by
  induction trace with
  | nil => rfl
  | cons e trace ih =>
    show M.next (M.phase φ trace) e.1 e.2 = (φ.after trace).next e.1 e.2
    rw [h, ih]

namespace Life

/-- What is known of a request. -/
def progress : Life → Progress
  | .starting _ _ t => Progress.none.after t.trace
  | .running _ t => Progress.admission.after t.trace

/-- The thread a request belongs to. -/
def thread : Life → ThreadKey
  | .starting key request _ => threadOf key request
  | .running job _ => threadOf job.key job.request

/-- The handler failed or was dropped, or the body of the task ended or was dropped. -/
def isOver : Life → Bool
  | .starting _ _ t => t.result.any (!·.isOk)
  | .running _ t => t.result.isSome

/-- The request keeps to its monitor and did so far. -/
def Kept (id : Uuid) : Life → Prop
  | .starting key request t =>
    Task.Follows startScheme (startMonitor id key request) (HandedOver id key request)
        (Progress.none.after t.trace) t.stage ∧
      (startMonitor id key request).Lawful .none t.trace
  | .running job t =>
    job.id = id ∧
      Task.Follows (scheme job) (monitor job) Through (Progress.admission.after t.trace) t.stage ∧
      (monitor job).Lawful .admission t.trace

/-- The call is in order: for the handler, the body of the task, or its epilogue. -/
def MayCall (id : Uuid) (life : Life) (c : Call) : Prop :=
  match life with
  | .starting key request _ =>
    (startMonitor id key request).allowed life.progress () c ∨ c = .dropTicket
  | .running job _ =>
    (life.isOver = false ∧ InOrder job life.progress c ∧
        (life.progress.commit = .done → c = .confirmBinding)) ∨
      (life.isOver = true ∧ InOrderAfter job life.progress c)

/-- The calls of a task with their replies, newest first. -/
def trace : Life → List (Sigma Call.Reply)
  | .starting _ _ _ => []
  | .running _ t => t.trace

end Life

/-! ### Handlers -/

/-- Nothing came of the request yet but a ticket and its row. -/
structure Progress.Fresh (φ : Progress) : Prop where
  lease : φ.lease = .none
  commit : φ.commit = .none
  permits : φ.permits = 0
  attempts : φ.attempts = []
  finished : φ.finished = false
  paused : φ.paused = false

/-- A call of a handler leaves a fresh request fresh. -/
theorem Progress.Fresh.next {id : Uuid} {key : GatewayKey} {request : GatewayRequest}
    {φ : Progress} (h : φ.Fresh) {c : Call} (r : c.Reply)
    (hc : (startMonitor id key request).allowed φ () c ∨ c = .dropTicket) : (φ.next c r).Fresh := by
  cases c with
  | consult q =>
    have hanswer : ∀ f, (φ.answer f).Fresh := by
      intro f
      refine ⟨h.lease, h.commit, h.permits, ?_, h.finished, h.paused⟩
      rw [Progress.answer, h.attempts]
      rfl
    show (φ.consulted q r).Fresh
    unfold Progress.consulted
    split
    · exact hanswer _
    · exact hanswer _
    · exact hanswer _
    · exact ⟨h.lease, h.commit, h.permits, h.attempts, h.finished, h.paused⟩
    · exact h
  | enqueue =>
    cases r with
    | error x => exact ⟨h.lease, h.commit, h.permits, h.attempts, h.finished, h.paused⟩
    | ok u => exact ⟨h.lease, h.commit, h.permits, h.attempts, h.finished, h.paused⟩
  | safetyCheck =>
    cases r with
    | error x => exact ⟨h.lease, h.commit, h.permits, h.attempts, h.finished, h.paused⟩
    | ok u => exact h
  | dropTicket | beginRequest =>
    exact ⟨h.lease, h.commit, h.permits, h.attempts, h.finished, h.paused⟩
  | safetyRestore | safetyRejection => exact h
  | _ => rcases hc with hc | hc <;> cases hc

/-- A request whose handler is at work is fresh. -/
theorem fresh_of_lawful {id : Uuid} {key : GatewayKey} {request : GatewayRequest}
    {trace : List (Sigma Call.Reply)}
    (h : (startMonitor id key request).Lawful .none trace) : (Progress.none.after trace).Fresh := by
  induction trace with
  | nil => exact ⟨rfl, rfl, rfl, rfl, rfl, rfl⟩
  | cons e trace ih =>
    obtain ⟨⟨s, hc⟩, hl⟩ := h
    rw [phase_eq_after rfl] at hc
    exact (ih hl).next e.2 hc

/-- What becomes of a handler after a move: it is still at work, or its task began. -/
theorem admitted_kept {id : Uuid} {key : GatewayKey} {request : GatewayRequest}
    {t : Task Unit Call Call.Reply Empty Error (Job × Execution)}
    (hf : Task.Follows startScheme (startMonitor id key request) (HandedOver id key request)
      (Progress.none.after t.trace) t.stage)
    (hl : (startMonitor id key request).Lawful .none t.trace) :
    (World.admitted key request t).Kept id ∧
      (World.admitted key request t).thread = threadOf key request ∧
      (World.admitted key request t).progress = Progress.none.after t.trace ∧
      (World.admitted key request t).isOver = t.result.any (!·.isOk) := by
  unfold World.admitted
  split
  · next job execution s hs =>
    rw [hs] at hf
    obtain ⟨hφ, hid, rfl, rfl, hentry⟩ := hf
    have hr : t.result = some (.ok (job, execution)) := by rw [Task.result, hs]
    refine ⟨⟨hid, hentry, trivial⟩, rfl, hφ.symm, ?_⟩
    rw [hr]
    rfl
  · exact ⟨⟨hf, hl⟩, rfl, rfl, rfl⟩

namespace World

/-- What a move of a request shows: a call in order with its reply, or nothing new. -/
theorem advance_some {w w' : World} {id : Uuid} {d : Drive Env Error} {life life' : Life}
    (hk : life.Kept id) (h : w.advance id d life = some (w', life')) :
    life'.Kept id ∧ life'.thread = life.thread ∧
      ((∃ env c r, d = .perform env ∧ life.MayCall id c ∧ w.exec id env c = some (w', r) ∧
          life'.progress = life.progress.next c r ∧ life'.isOver = life.isOver) ∨
        (w' = w ∧ life'.progress = life.progress ∧ (life.isOver = true → life'.isOver = true) ∧
          (life'.isOver = true → life.isOver = true ∨ (∃ x, d = .abandon x) ∨
            life.progress.commit ≠ .done))) := by
  cases life with
  | starting key request t =>
    obtain ⟨⟨w₁, t'⟩, hn, he⟩ := Option.map_eq_some_iff.mp h
    cases he
    obtain ⟨hf, hl⟩ := hk
    obtain ⟨hm, hcase⟩ := Task.next_some hn
    rw [← phase_eq_after (M := startMonitor id key request) rfl] at hf
    have hf' := hf.moves (start_keeps id key request) hm
    have hl' := hf.lawful hm hl
    rw [phase_eq_after rfl] at hf hf'
    obtain ⟨hkept, hthread, hprogress, hover⟩ := admitted_kept hf' hl'
    refine ⟨hkept, hthread, ?_⟩
    rw [hprogress, hover]
    rcases hcase with ⟨env, c, r, rfl, hc, hexec, htrace, hres⟩ | ⟨rfl, htrace, hstay, hleave⟩
    · refine .inl ⟨env, c, r, rfl, ?_, hexec, ?_, ?_⟩
      · rcases hf.at_call hc with ⟨-, s, ha⟩ | ⟨-, s, ha⟩
        · exact .inl ha
        · exact .inr ha
      · rw [htrace]
        rfl
      · rw [hres]
        rfl
    · refine .inr ⟨rfl, ?_, ?_, ?_⟩
      · rw [htrace]
        rfl
      · intro ho
        obtain ⟨x, hx, hxo⟩ := Option.any_eq_true _ _ |>.mp ho
        rw [hstay x hx]
        exact hxo
      · intro _
        refine .inr (.inr ?_)
        rw [Life.progress, (fresh_of_lawful hl).commit]
        exact Commit.noConfusion
  | running job t =>
    obtain ⟨⟨w₁, t'⟩, hn, he⟩ := Option.map_eq_some_iff.mp h
    cases he
    obtain ⟨hid, hf, hl⟩ := hk
    obtain ⟨hm, hcase⟩ := Task.next_some hn
    rw [← phase_eq_after (M := monitor job) rfl] at hf
    have hf' := hf.moves (scheme_keeps job) hm
    have hl' := hf.lawful hm hl
    rw [phase_eq_after rfl] at hf hf'
    refine ⟨⟨hid, hf', hl'⟩, rfl, ?_⟩
    rcases hcase with ⟨env, c, r, rfl, hc, hexec, htrace, hres⟩ | ⟨rfl, htrace, hstay, hleave⟩
    · refine .inl ⟨env, c, r, rfl, ?_, hexec, ?_, ?_⟩
      · rcases hf.at_call hc with ⟨ho, s, ha⟩ | ⟨ho, s, ha⟩
        · exact .inl ⟨by rw [Life.isOver, ho]; rfl, ha.2.2.2, ha.2.1⟩
        · exact .inr ⟨ho, ha⟩
      · rw [Life.progress, htrace]
        rfl
      · rw [Life.isOver, hres]
        rfl
    · refine .inr ⟨rfl, ?_, ?_, ?_⟩
      · rw [Life.progress, htrace]
        rfl
      · intro ho
        obtain ⟨x, hx⟩ := Option.isSome_iff_exists.mp ho
        rw [Life.isOver, hstay x hx]
        rfl
      · intro ho
        obtain ⟨x, hx⟩ := Option.isSome_iff_exists.mp ho
        rcases hleave x hx with hr | ha | ⟨s, hs⟩
        · exact .inl (by rw [Life.isOver, hr]; rfl)
        · exact .inr (.inl ha)
        · rw [hs] at hf
          exact .inr (.inr hf.1)

/-! ### Replies -/

/-- A round of waiting: a heartbeat, the end of the ticket, or a lease in its place. -/
theorem wait_some {w w' : World} {env : Env} {id : Uuid} {r : Waited}
    (h : w.wait env id = some (w', r)) :
    (r = .heartbeat ∧ w' = w) ∨
      (∃ x, r = .failed x ∧ w' = w.scheduled [.dropTicket id]) ∨
      ∃ lease state, r = .lease lease ∧
        w.sched.state.tryReserve w.sched.settings.toRuntimeSettings env.now env.bindingId env.ns
          id = .ok (state, some lease) ∧
        w' = w.scheduled [.tryReserve id env.now env.bindingId env.ns, .dropTicket id] := by
  unfold wait at h
  split at h
  · cases h
    exact .inl ⟨rfl, rfl⟩
  · cases h
    exact .inr (.inl ⟨_, rfl, rfl⟩)
  · obtain ⟨live, -, h⟩ := Option.bind_eq_some_iff.mp h
    split at h
    · cases h
      exact .inr (.inl ⟨_, rfl, rfl⟩)
    · split at h
      · cases h
        exact .inr (.inl ⟨_, rfl, rfl⟩)
      · cases h
      · next state lease ho =>
        cases h
        exact .inr (.inr ⟨lease, state, rfl, ho, rfl⟩)

/-- The scheduler grants what the holder of a lease asks for, or nothing happens. -/
theorem onLease_some {w w' : World} {id : Uuid} {op : Op} {α : Type}
    {f : DispatchLease → Result α} {r : Result Unit} (h : w.onLease id op f = some (w', r)) :
    ∃ live, w.sched.leases.lookup id = some live ∧
      ((r = .ok () ∧ (∃ a, f live.toDispatchLease = .ok a) ∧ w' = w.scheduled [op]) ∨
        (∃ x, r = .error x) ∧ w' = w) := by
  obtain ⟨live, hl, he⟩ := Option.map_eq_some_iff.mp h
  refine ⟨live, hl, ?_⟩
  split at he
  · next a ho =>
    cases he
    exact .inl ⟨rfl, ⟨a, ho⟩, rfl⟩
  · cases he
    exact .inr ⟨⟨_, rfl⟩, rfl⟩

/-- A request is enqueued and has arrived, or nothing happens. -/
theorem enqueue_cases (w : World) (id : Uuid) (thread : ThreadKey) (groupId : Uuid)
    (model : ModelRef) (source : ClientSource) (since : Nat) :
    ((∃ a, w.sched.state.enqueue w.sched.settings.toRuntimeSettings id thread groupId model source
          since = .ok a) ∧
        w.enqueue id thread groupId model source since =
          ({ w.scheduled [.enqueue id thread groupId model source since] with
              arrivals := if id ∈ w.arrivals then w.arrivals else w.arrivals ++ [id] },
            .ok ())) ∨
      ∃ x, w.enqueue id thread groupId model source since = (w, .error x) := by
  unfold enqueue
  split
  · next a ho => exact .inl ⟨⟨a, ho⟩, rfl⟩
  · exact .inr ⟨_, rfl⟩

/-- A reply changes no task. -/
theorem exec_tasks {w w' : World} {id : Uuid} {env : Env} {c : Call} {r : c.Reply}
    (h : w.exec id env c = some (w', r)) :
    w'.tasks = w.tasks ∧ w'.issued = w.issued ∧ w'.serving = w.serving := by
  cases c with
  | wait =>
    rcases wait_some h with ⟨-, rfl⟩ | ⟨x, -, rfl⟩ | ⟨lease, state, -, -, rfl⟩
    · exact ⟨rfl, rfl, rfl⟩
    · exact ⟨rfl, rfl, rfl⟩
    · exact ⟨rfl, rfl, rfl⟩
  | confirmStateless | beginSend | beginEncryptedReasoningRecovery =>
    obtain ⟨live, -, ⟨-, -, rfl⟩ | ⟨-, rfl⟩⟩ := onLease_some h
    · exact ⟨rfl, rfl, rfl⟩
    · exact ⟨rfl, rfl, rfl⟩
  | enqueue thread groupId model source since =>
    have he := Option.some.inj h
    rcases w.enqueue_cases id thread groupId model source since with ⟨-, ho⟩ | ⟨x, ho⟩
    · rw [ho] at he
      cases he
      exact ⟨rfl, rfl, rfl⟩
    · rw [ho] at he
      cases he
      exact ⟨rfl, rfl, rfl⟩
  | _ =>
    cases h
    exact ⟨rfl, rfl, rfl⟩

/-! ### Moves -/

/-- What a move can change. -/
inductive Transition (w : World) : Move → World → Prop where
  | idle (m : Move) : Transition w m w
  | arrived {id : Uuid} {key : GatewayKey} {request : GatewayRequest} (new : id ∉ w.issued) :
      Transition w (.arrive id key request)
        { w with
          tasks := w.tasks.insert id
            (.starting key request ⟨.running (start id key request ()), []⟩)
          issued := insert id w.issued }
  | moved {id : Uuid} {d : Drive Env Error} {life life' : Life}
      (here : w.tasks.lookup id = some life) (kept : life'.Kept id)
      (thread : life'.thread = life.thread) (progress : life'.progress = life.progress)
      (stays : life.isOver = true → life'.isOver = true)
      (leaves : life'.isOver = true →
        life.isOver = true ∨ (∃ x, d = .abandon x) ∨ life.progress.commit ≠ .done) :
      Transition w (.drive id d) { w with tasks := w.tasks.insert id life' }
  | called {w' : World} {id : Uuid} {env : Env} {life life' : Life} {c : Call} {r : c.Reply}
      (here : w.tasks.lookup id = some life) (kept : life'.Kept id)
      (thread : life'.thread = life.thread) (inOrder : life.MayCall id c)
      (performed : w.exec id env c = some (w', r))
      (progress : life'.progress = life.progress.next c r) (isOver : life'.isOver = life.isOver) :
      Transition w (.drive id (.perform env)) { w' with tasks := w.tasks.insert id life' }
  | administered {op : Op} (admin : isAdmin op = true) :
      Transition w (.admin op) (w.scheduled [op])
  | cleaned (now retentionDays : Nat) :
      Transition w (.cleanup now retentionDays)
        { w with store := w.store.cleanup now retentionDays }
  | restarted (now : Nat) (outcomes : List Outcome) (settings : LiveSettings)
      (accounts : List Account) (keys : List GatewayKey) :
      Transition w (.restart now outcomes settings accounts keys)
        (w.step (.restart now outcomes settings accounts keys))

/-- Every request keeps to its monitor. -/
def Kept (w : World) : Prop := ∀ id life, w.tasks.lookup id = some life → life.Kept id

/-- While the requests keep to their monitors, every move makes one of the listed changes. -/
theorem step_transition {w : World} (hk : w.Kept) (m : Move) : w.Transition m (w.step m) := by
  cases m with
  | arrive id key request =>
    simp only [step]
    split
    · next h => exact .arrived h.2
    · exact .idle _
  | drive id d =>
    simp only [step]
    split
    · exact .idle _
    · next w' life' h =>
      obtain ⟨life, hl, ha⟩ := Option.bind_eq_some_iff.mp h
      obtain ⟨hkept, hthread, hcase⟩ := advance_some (hk id life hl) ha
      rcases hcase with ⟨env, c, r, rfl, hc, hexec, hprogress, hover⟩ | ⟨rfl, hprogress, hs, hl'⟩
      · rw [(exec_tasks hexec).1]
        exact .called hl hkept hthread hc hexec hprogress hover
      · exact .moved hl hkept hthread hprogress hs hl'
  | admin op =>
    simp only [step]
    split
    · next h => exact .administered h
    · exact .idle _
  | cleanup now retentionDays => exact .cleaned now retentionDays
  | restart now outcomes settings accounts keys =>
    exact .restarted now outcomes settings accounts keys

/-- A changed request that keeps to its monitor leaves the others to theirs. -/
theorem Kept.insert {w : World} (h : w.Kept) {id : Uuid} {life : Life} (hl : life.Kept id) :
    ∀ i life', (w.tasks.insert id life).lookup i = some life' → life'.Kept i := by
  intro i life' hi
  rw [lookup_insert_ite] at hi
  split at hi
  · next he =>
    cases hi
    exact he ▸ hl
  · exact h i life' hi

/-- Over every move the requests keep to their monitors. -/
theorem Kept.step {w : World} (h : w.Kept) (m : Move) : (w.step m).Kept := by
  generalize hw : w.step m = w'
  have ht := step_transition h m
  rw [hw] at ht
  cases ht with
  | idle | administered | cleaned => exact h
  | @arrived id key request new => exact h.insert ⟨start_follows id key request, trivial⟩
  | moved here kept => exact h.insert kept
  | called here kept => exact h.insert kept
  | restarted =>
    intro i life hi
    cases (AList.lookup_empty i).symm.trans hi

end World
end Xxgate.Gateway

import Xxgate.Gateway.Lives
import Xxgate.Scheduling.Holding

/-!
# What requests hold

A request knows from its calls and replies which ticket and lease it has. In every reachable
installation the scheduler's tickets and leases are exactly those, and a lease was
authorised for as many attempts as its request has permits.
-/

namespace Xxgate.Gateway

open Xxgate.Base Xxgate.Base.FiniteMap Xxgate.Core Xxgate.Scheduling Xxgate.Store

/-- The ticket and the lease a request knows of. -/
def Progress.holding (φ : Progress) : Option Bool × Option (DispatchLease × Nat) :=
  (if φ.ticket then some false else .none, φ.lease.map fun l ↦ (l, φ.permits))

/-- A free reply changes what is known of the answer to the newest attempt and of a panic at
most. -/
theorem Progress.consulted_eq (φ : Progress) (q : Consult) (r : q.Reply) :
    ∃ f p, (∀ a : Attempt, (f a).prepared = a.prepared) ∧
      φ.consulted q r = { φ with attempts := φ.attempts.modifyHead f, panicked := p } := by
  unfold Progress.consulted
  split
  · next status => exact ⟨fun a ↦ { a with status := some status }, _, fun _ ↦ rfl, rfl⟩
  · next body => exact ⟨fun a ↦ { a with errorBody := some body }, _, fun _ ↦ rfl, rfl⟩
  · next events =>
    exact ⟨fun a ↦ { a with events := a.events ++ events }, _, fun _ ↦ rfl, rfl⟩
  · exact ⟨id, true, fun _ ↦ rfl, by rw [List.modifyHead_id, id]⟩
  · exact ⟨id, φ.panicked, fun _ ↦ rfl, by rw [List.modifyHead_id, id]⟩

namespace Call

/-- Calls that only the body of a task makes. -/
def isBody : Call → Bool
  | .wait | .confirmStateless | .confirmBinding | .beginSend
  | .beginEncryptedReasoningRecovery | .sendOnce _ | .commitBinding .. => true
  | _ => false

end Call

/-- Such a call in order is in order in the body of a task. -/
theorem Life.MayCall.body {id : Uuid} {life : Life} {c : Call} (h : life.MayCall id c)
    (hc : c.isBody = true) :
    ∃ job t, life = .running job t ∧ life.isOver = false ∧ InOrder job life.progress c ∧
      (life.progress.commit = .done → c = .confirmBinding) := by
  cases life with
  | starting key request t =>
    rcases h with h | rfl
    · cases c with
      | wait | confirmStateless | confirmBinding | beginSend | beginEncryptedReasoningRecovery
      | sendOnce | commitBinding => exact h.elim
      | _ => cases hc
    · cases hc
  | running job t =>
    rcases h with ⟨ho, h, hcommit⟩ | ⟨-, h⟩
    · exact ⟨job, t, rfl, ho, h, hcommit⟩
    · cases c with
      | wait | confirmStateless | confirmBinding | beginSend | beginEncryptedReasoningRecovery
      | sendOnce | commitBinding => exact h.elim
      | _ => cases hc

namespace World

/-- What is known of a request; nothing of one that does not live. -/
def progress (w : World) (id : Uuid) : Progress := (w.tasks.lookup id).elim .none Life.progress

/-- Every ticket and lease is one its request knows of, and the other way round. -/
structure Held (w : World) : Prop where
  sched : w.sched.Reachable
  kept : w.Kept
  issued : ∀ id ∈ w.tasks, id ∈ w.issued
  holding : ∀ id, w.sched.holding id = (w.progress id).holding

/-- Knowledge of one request after its life changed. -/
theorem progress_insert (w : World) (id i : Uuid) (life : Life) {w' : World}
    (h : w'.tasks = w.tasks.insert id life) :
    w'.progress i = if i = id then life.progress else w.progress i := by
  rw [progress, h, lookup_insert_ite]
  split
  · rfl
  · rfl

/-- A reply is one of the scheduler to the request, or has nothing to do with it. -/
theorem exec_sched {w w' : World} {id : Uuid} {env : Env} {c : Call} {r : c.Reply}
    (h : w.exec id env c = some (w', r)) :
    ∃ ops, w'.sched = run System.step w.sched ops ∧
      ∀ op ∈ ops, op.holder = some id ∨ op = .setPaused true := by
  have hone : ∀ op : Op, op.holder = some id ∨ op = .setPaused true →
      ∃ ops, (w.scheduled [op]).sched = run System.step w.sched ops ∧
        ∀ op ∈ ops, op.holder = some id ∨ op = .setPaused true := by
    intro op hop
    exact ⟨[op], rfl, fun op' h' ↦ (List.mem_singleton.mp h') ▸ hop⟩
  have hnone : ∃ ops, w.sched = run System.step w.sched ops ∧
      ∀ op ∈ ops, op.holder = some id ∨ op = .setPaused true :=
    ⟨[], rfl, fun op h' ↦ absurd h' List.not_mem_nil⟩
  cases c with
  | wait =>
    rcases wait_some h with ⟨-, rfl⟩ | ⟨x, -, rfl⟩ | ⟨lease, state, -, -, rfl⟩
    · exact hnone
    · exact hone (.dropTicket id) (.inl rfl)
    · refine ⟨_, rfl, ?_⟩
      intro op hop
      rcases List.mem_cons.mp hop with rfl | hop
      · exact .inl rfl
      · exact .inl ((List.mem_singleton.mp hop) ▸ rfl)
  | confirmStateless | beginSend | beginEncryptedReasoningRecovery =>
    obtain ⟨live, -, ⟨-, -, rfl⟩ | ⟨-, rfl⟩⟩ := onLease_some h
    · exact hone _ (.inl rfl)
    · exact hnone
  | enqueue thread groupId model source since =>
    have he := Option.some.inj h
    rcases w.enqueue_cases id thread groupId model source since with ⟨-, ho⟩ | ⟨x, ho⟩
    · rw [ho] at he
      cases he
      exact hone (.enqueue id thread groupId model source since) (.inl rfl)
    · rw [ho] at he
      cases he
      exact hnone
  | dropTicket =>
    cases h
    exact hone (.dropTicket id) (.inl rfl)
  | dropLease =>
    cases h
    exact hone (.dropLease id) (.inl rfl)
  | confirmBinding =>
    cases h
    exact hone (.confirmBinding id) (.inl rfl)
  | setPaused =>
    cases h
    exact hone (.setPaused true) (.inr rfl)
  | _ =>
    cases h
    exact hnone

/-- Operations by one request leave what others hold alone. -/
theorem holding_run {s : System} {id i : Uuid} (hi : i ≠ id) {ops : List Op}
    (h : ∀ op ∈ ops, op.holder = some id ∨ op = .setPaused true) :
    (run System.step s ops).holding i = s.holding i := by
  induction ops generalizing s with
  | nil => rfl
  | cons op ops ih =>
    have hop : op.holder ≠ some i := by
      rcases h op List.mem_cons_self with ho | rfl
      · rw [ho]
        rintro he
        exact hi (Option.some.inj he).symm
      · exact nofun
    rw [run_cons, ih fun op' h' ↦ h op' (List.mem_cons_of_mem _ h'),
      System.holding_others hop]

/-- The request knows what a live lease of its own is. -/
theorem known_of_live {s : System} {id : Uuid} {φ : Progress} {live : LiveLease}
    (h : s.holding id = φ.holding) (hl : s.leases.lookup id = some live) :
    φ.lease = some live.toDispatchLease ∧ φ.permits = live.attempts := by
  have h2 : (s.leases.lookup id).map (fun l ↦ (l.toDispatchLease, l.attempts)) =
      φ.lease.map fun l ↦ (l, φ.permits) := congrArg Prod.snd h
  rw [hl] at h2
  obtain ⟨l, hlease, he⟩ := Option.map_eq_some_iff.mp h2.symm
  obtain ⟨rfl, hn⟩ := Prod.mk.inj he
  exact ⟨hlease, hn⟩

/-- A request that knows of a lease and no ticket holds just that. -/
theorem holding_of_lease {s : System} {id : Uuid} {φ : Progress} {l : DispatchLease}
    (h : s.holding id = φ.holding) (hl : φ.lease = some l) :
    s.holding id = (φ.holding.1, some (l, φ.permits)) := by
  rw [h, Progress.holding, hl]
  rfl

/-- What a request holds after a call is what it knows from the reply. -/
theorem exec_holding {w w' : World} {id : Uuid} {env : Env} {life : Life} {c : Call}
    {r : c.Reply} (h : w.sched.holding id = life.progress.holding) (hc : life.MayCall id c)
    (he : w.exec id env c = some (w', r)) :
    w'.sched.holding id = (life.progress.next c r).holding := by
  cases c with
  | consult q =>
    cases he
    obtain ⟨f, p, -, hf⟩ := life.progress.consulted_eq q (env.reply q)
    show w.sched.holding id = (life.progress.consulted q (env.reply q)).holding
    rw [hf]
    exact h
  | enqueue thread groupId model source since =>
    have hn : life.progress.ticket = false ∧ life.progress.lease = none := by
      cases life with
      | starting key request t =>
        rcases hc with ⟨hφ, -⟩ | hc
        · rw [hφ]
          exact ⟨rfl, rfl⟩
        · cases hc
      | running job t =>
        rcases hc with ⟨-, ⟨ht, hl, -⟩, -⟩ | ⟨-, hc⟩
        · exact ⟨ht, hl⟩
        · exact hc.elim
    have hempty : w.sched.holding id = (none, none) := by
      rw [h, Progress.holding, hn.1, hn.2]
      rfl
    have he' := Option.some.inj he
    rcases w.enqueue_cases id thread groupId model source since with ⟨⟨a, ha⟩, ho⟩ | ⟨x, ho⟩
    · rw [ho] at he'
      cases he'
      refine (System.holding_enqueue hempty ha).trans ?_
      simp only [Progress.next, Progress.holding, hn.2]
      rfl
    · rw [ho] at he'
      cases he'
      exact h
  | wait =>
    obtain ⟨job, t, rfl, -, ⟨ht, hl, hp⟩, -⟩ := hc.body rfl
    rcases wait_some he with ⟨rfl, rfl⟩ | ⟨x, rfl, rfl⟩ | ⟨lease, state, rfl, ho, rfl⟩
    · exact h
    · refine System.holding_dropTicket.trans ?_
      rw [h]
      rfl
    · refine System.holding_dropTicket.trans ?_
      rw [System.holding_tryReserve ho]
      simp only [Progress.next, Progress.holding, hp]
      rfl
  | dropTicket =>
    cases he
    refine System.holding_dropTicket.trans ?_
    rw [h]
    rfl
  | dropLease =>
    cases he
    refine System.holding_dropLease.trans ?_
    rw [h]
    rfl
  | confirmBinding =>
    obtain ⟨job, t, rfl, -, ⟨⟨l, hl, hn⟩, -⟩, -⟩ := hc.body rfl
    cases he
    refine (System.holding_confirmBinding (holding_of_lease h hl) hn).trans ?_
    simp only [Progress.next, Progress.holding, hl]
    rfl
  | confirmStateless =>
    obtain ⟨live, hlive, ⟨rfl, ⟨a, ha⟩, rfl⟩ | ⟨⟨x, rfl⟩, rfl⟩⟩ := onLease_some he
    · obtain ⟨hl, -⟩ := known_of_live h hlive
      refine (System.holding_confirmStateless (holding_of_lease h hl) ha).trans ?_
      simp only [Progress.next, Progress.holding, hl]
      rfl
    · exact h
  | beginSend =>
    obtain ⟨live, hlive, ⟨rfl, ⟨a, ha⟩, rfl⟩ | ⟨⟨x, rfl⟩, rfl⟩⟩ := onLease_some he
    · obtain ⟨hl, -⟩ := known_of_live h hlive
      refine (System.holding_beginSend (holding_of_lease h hl) ha).trans ?_
      simp only [Progress.next, Progress.holding, hl]
      rfl
    · exact h
  | beginEncryptedReasoningRecovery =>
    obtain ⟨live, hlive, ⟨rfl, ⟨a, ha⟩, rfl⟩ | ⟨⟨x, rfl⟩, rfl⟩⟩ := onLease_some he
    · obtain ⟨hl, -⟩ := known_of_live h hlive
      refine (System.holding_beginEncryptedReasoningRecovery (holding_of_lease h hl) ha).trans ?_
      simp only [Progress.next, Progress.holding, hl]
      rfl
    · exact h
  | setPaused =>
    cases he
    have hop : (Op.setPaused true).holder ≠ some id := (Option.some_ne_none id).symm
    exact (System.holding_others hop).trans h
  | safetyCheck | finishRequest =>
    have hw : w'.sched = w.sched := by
      cases he
      rfl
    rw [hw, h]
    cases r with
    | error x => rfl
    | ok u => rfl
  | _ =>
    cases he
    exact h

/-- A new scheduler holds nothing for anybody. -/
theorem holding_new (settings : LiveSettings) (accounts : List Account) (bindings : List Binding)
    (keys : List GatewayKey) (id : Uuid) :
    (System.new settings accounts bindings keys).holding id = Progress.none.holding := by
  unfold System.holding System.new
  rw [AList.lookup_empty, AList.lookup_empty]
  rfl

/-- Administrators hold nothing. -/
theorem holder_of_isAdmin {op : Op} (h : isAdmin op = true) : op.holder = none := by
  cases op with
  | updateAccount | removeAccount | blockAccount | updateKey | removeKey | blockKey | setPaused
  | publish => rfl
  | _ => cases h

namespace Held

variable {w w' : World}

/-- A new installation holds nothing. -/
theorem new (settings : LiveSettings) (accounts : List Account) (keys : List GatewayKey) :
    (World.new settings accounts keys).Held where
  sched := ⟨settings, accounts, [], keys, [], rfl⟩
  kept := fun id life hl ↦ by cases (AList.lookup_empty id).symm.trans hl
  issued := fun id hid ↦ absurd hid (AList.notMem_empty id)
  holding := holding_new settings accounts [] keys

/-- A live request knows what it holds. -/
theorem known (h : w.Held) {id : Uuid} {life : Life} (hl : w.tasks.lookup id = some life) :
    w.sched.holding id = life.progress.holding := by
  rw [h.holding, progress, hl]
  rfl

/-- Every move keeps requests and scheduler in step. -/
theorem step (h : w.Held) (m : Move) : (w.step m).Held := by
  have hkept := h.kept.step m
  generalize hw : w.step m = w' at hkept
  have ht := step_transition h.kept m
  rw [hw] at ht
  have hissued : ∀ {id life}, w.tasks.lookup id = some life → id ∈ w.issued := fun hl ↦
    h.issued _ ((mem_iff_lookup ..).mpr ⟨_, hl⟩)
  cases ht with
  | idle => exact h
  | @arrived id key request new =>
    refine ⟨h.sched, hkept, ?_, ?_⟩
    · intro i hi
      rcases AList.mem_insert _ |>.mp hi with rfl | hi
      · exact Finset.mem_insert_self _ _
      · exact Finset.mem_insert_of_mem (h.issued i hi)
    · intro i
      rw [progress_insert w id i _ rfl]
      split
      · next he =>
        have hn : w.tasks.lookup id = none := AList.lookup_eq_none.mpr fun hm ↦
          new (h.issued id hm)
        have hp : w.progress id = .none := by rw [progress, hn]; rfl
        exact (h.holding i).trans (by rw [he, hp]; rfl)
      · exact h.holding i
  | @moved id d life life' here kept thread hprogress =>
    refine ⟨h.sched, hkept, ?_, ?_⟩
    · intro i hi
      rcases AList.mem_insert _ |>.mp hi with rfl | hi
      · exact hissued here
      · exact h.issued i hi
    · intro i
      rw [progress_insert w id i _ rfl]
      split
      · next he => rw [hprogress, he, h.known here]
      · exact h.holding i
  | @called w₁ id env life life' c r here kept thread inOrder performed hprogress =>
    obtain ⟨ops, hops, howner⟩ := exec_sched performed
    obtain ⟨-, hiss, -⟩ := exec_tasks performed
    refine ⟨?_, hkept, ?_, ?_⟩
    · show w₁.sched.Reachable
      rw [hops]
      exact h.sched.run ops
    · intro i hi
      show i ∈ w₁.issued
      rw [hiss]
      rcases AList.mem_insert _ |>.mp hi with rfl | hi
      · exact hissued here
      · exact h.issued i hi
    · intro i
      rw [progress_insert w id i _ rfl]
      show w₁.sched.holding i = _
      split
      · next he =>
        rw [he, hprogress]
        exact exec_holding (h.known here) inOrder performed
      · next hne =>
        rw [hops, holding_run hne howner]
        exact h.holding i
  | @administered op admin =>
    refine ⟨h.sched.run [op], hkept, h.issued, ?_⟩
    intro i
    have hop : op.holder ≠ some i := by
      rw [holder_of_isAdmin admin]
      nofun
    exact (System.holding_others hop).trans (h.holding i)
  | cleaned => exact ⟨h.sched, hkept, h.issued, h.holding⟩
  | restarted now outcomes settings accounts keys =>
    refine ⟨⟨settings, accounts, _, keys, [], rfl⟩, hkept, ?_, ?_⟩
    · intro i hi
      exact absurd hi (AList.notMem_empty i)
    · intro i
      have hp : (w.step (.restart now outcomes settings accounts keys)).progress i = .none := by
        unfold progress
        exact congrArg (Option.elim · _ _) (AList.lookup_empty i)
      rw [hp]
      exact holding_new _ _ _ _ i

end Held

/-- Requests and scheduler are in step in every reachable state. -/
theorem Reachable.held {w : World} (h : w.Reachable) : w.Held :=
  h.invariant Held.new fun _ m hw ↦ hw.step m

end World
end Xxgate.Gateway

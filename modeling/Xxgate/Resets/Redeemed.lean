import Xxgate.Resets.World

/-!
# What is sent is in the journal

In every state an installation can reach, what a task knows of its operation is so, the journal
is sound, and every request that was sent is in it. A request is sent only for the operation of
its account that has no result yet.
-/

namespace Xxgate.Resets

open Xxgate.Base Xxgate.Base.FiniteMap Xxgate.Core Xxgate.Store ResetTables

/-! ### What is known of an operation -/

/-- What is known of an operation is so, and its account is locked. -/
structure Facts (s : Installation) (φ : Standing) : Prop where
  agreed : φ.contradicted = false
  stored : ∀ v, φ.stored = some v → ∃ id operationId credit,
    φ.job = .consumeReset id operationId credit ∧ id ∈ φ.held ∧
      s.store.resetOperation id (some operationId) = v

/-- The request is for a stored operation that has no result. -/
def Authorised (t : ResetTables) (e : Sent) : Prop :=
  ∃ row, t.operations.lookup e.redemption.redeemRequestId = some row ∧
    row.accountId = e.accountId ∧ row.data.creditId = e.redemption.creditId ∧
    row.completed = false

/-- The request is for a stored operation. -/
def Logged (t : ResetTables) (e : Sent) : Prop :=
  ∃ row, t.operations.lookup e.redemption.redeemRequestId = some row ∧
    row.accountId = e.accountId ∧ row.data.creditId = e.redemption.creditId

private theorem Authorised.logged {t : ResetTables} {e : Sent} (h : Authorised t e) :
    Logged t e := by
  obtain ⟨row, hl, ha, hc, -⟩ := h
  exact ⟨row, hl, ha, hc⟩

private theorem Logged.grows {t t' : ResetTables} {e : Sent} (h : Logged t e) (hg : Grows t t') :
    Logged t' e := by
  obtain ⟨row, hl, ha, hc⟩ := h
  obtain ⟨row', hl', ha', hc', -⟩ := hg _ _ hl
  exact ⟨row', hl', ha'.trans ha, hc'.trans hc⟩

private theorem facts_start (s : Installation) (job : Job) : Facts s (.start job) := ⟨rfl, nofun⟩

section

variable {s s' : Installation} {φ : Standing} {task : Nat} {env : Env} {c : Call} {r : c.Reply}

/-- An operation without a result that a task knows of is the unresolved one of its account. -/
theorem Facts.journalled (hf : Facts s φ) (hs : Sound s.store) {operation : ResetOperation}
    (hj : φ.Journalled operation) : operation.accountId ∈ φ.held ∧
      ∃ row credit, s.store.operations.lookup operation.id = some row ∧
        row.accountId = operation.accountId ∧ row.data = operation ∧ row.completed = false ∧
        φ.job = .consumeReset operation.accountId operation.id credit := by
  rcases hj with hj | ⟨hst, hres⟩
  · cases hf.agreed.symm.trans hj
  · obtain ⟨id, operationId, credit, hjob, hheld, hfind⟩ := hf.stored _ hst
    obtain ⟨row, hl, rfl, rfl⟩ := resetOperation_eq_some.mp hfind
    have hrow := hs.rows _ _ hl
    refine ⟨hrow.account ▸ hheld, row, credit, hrow.named ▸ hl, hrow.account.symm, rfl, ?_, ?_⟩
    · rw [hrow.completed, hres]
      rfl
    · rw [hrow.account, hrow.named]
      exact hjob

/-- What an operation is begun or finished with. -/
structure Writes (s : Installation) (φ : Standing) (t : ResetTables) (operation : ResetOperation) :
    Prop where
  sound : Sound t
  grows : Grows s.store t
  held : operation.accountId ∈ φ.held
  job : ∃ credit, φ.job = .consumeReset operation.accountId operation.id credit
  stored : t.resetOperation operation.accountId (some operation.id) = some operation
  others : ∀ id operationId, id ≠ operation.accountId →
    t.resetOperation id (some operationId) = s.store.resetOperation id (some operationId)

private theorem Facts.beginReset (hf : Facts s φ) (hs : Sound s.store) {operation : ResetOperation}
    {t : ResetTables} (hin : φ.InOrder (.beginReset operation))
    (h : s.store.beginReset operation = .ok (t, ())) : Writes s φ t operation := by
  rcases hin with hj | ⟨hheld, hres, hok, hjob⟩
  · cases hf.agreed.symm.trans hj
  · obtain ⟨hsound, hgrows⟩ := hs.beginReset h hres hok
    obtain ⟨hnew, -, rfl⟩ := beginReset_eq_ok h
    refine ⟨hsound, hgrows, hheld, hjob, ?_, fun id operationId hne ↦ ?_⟩
    · exact resetOperation_eq_some.mpr ⟨_, by rw [lookup_put, if_pos rfl], rfl, rfl⟩
    · refine resetOperation_put (fun old hold ↦ ?_) hne
      cases hnew.symm.trans hold

private theorem Facts.finishReset (hf : Facts s φ) (hs : Sound s.store) {operation : ResetOperation}
    {t : ResetTables} (hin : φ.InOrder (.finishReset operation))
    (h : s.store.finishReset operation = .ok (t, ())) : Writes s φ t operation := by
  obtain ⟨before, result, hj, rfl⟩ := hin
  obtain ⟨hheld, row, credit, hl, hacc, hdata, hopen, hjob⟩ := hf.journalled hs hj
  obtain ⟨hsound, hgrows⟩ := hs.finishReset h rfl fun row' hl' ↦ by
    cases hl.symm.trans hl'
    rw [hdata]
  obtain ⟨old, hold, hacc', -, rfl⟩ := finishReset_eq_ok h
  refine ⟨hsound, hgrows, hheld, ⟨credit, hjob⟩, ?_, fun id operationId hne ↦ ?_⟩
  · exact resetOperation_eq_some.mpr
      ⟨⟨old.accountId, true, _⟩, by rw [lookup_put, if_pos rfl], hacc', rfl⟩
  · refine resetOperation_put (fun old' hold' ↦ ?_) (hacc' ▸ hne)
    cases hold.symm.trans hold'
    rfl

/-- What a call makes of the tables: they stay sound and only grow, and what they say of an
account the caller did not lock stays. -/
theorem exec_tables (hf : Facts s φ) (hs : Sound s.store) (hin : φ.InOrder c ∨ c = .releaseAll)
    (he : s.exec task env c = some (s', r)) : Sound s'.store ∧ Grows s.store s'.store ∧
      ∀ id operationId, id ∉ φ.held →
        s'.store.resetOperation id (some operationId) =
          s.store.resetOperation id (some operationId) := by
  have hsame : ∀ {t : ResetTables}, t.operations = s.store.operations → Sound t ∧
      Grows s.store t ∧ ∀ id operationId, id ∉ φ.held →
        t.resetOperation id (some operationId) = s.store.resetOperation id (some operationId) :=
    fun h ↦ ⟨hs.of_operations h, .of_operations h, fun _ _ _ ↦
      resetOperation_congr fun _ _ ↦ by rw [h]⟩
  have hwrites : ∀ {t : ResetTables} {operation : ResetOperation}, Writes s φ t operation →
      Sound t ∧ Grows s.store t ∧ ∀ id operationId, id ∉ φ.held →
        t.resetOperation id (some operationId) = s.store.resetOperation id (some operationId) :=
    fun h ↦ ⟨h.sound, h.grows, fun id operationId hn ↦ h.others id operationId fun hid ↦
      hn (hid ▸ h.held)⟩
  cases c with
  | saveResetCredits id credits =>
    rcases Installation.wrote_cases he with ⟨rfl, -⟩ | ⟨t, ht, rfl⟩
    · exact hsame rfl
    · exact hsame (saveResetCredits_eq_ok ht)
  | beginReset operation =>
    rcases Installation.wrote_cases he with ⟨rfl, -⟩ | ⟨t, ht, rfl⟩
    · exact hsame rfl
    · exact hwrites (hf.beginReset hs (hin.resolve_right nofun) ht)
  | finishReset operation =>
    rcases Installation.wrote_cases he with ⟨rfl, -⟩ | ⟨t, ht, rfl⟩
    · exact hsame rfl
    · exact hwrites (hf.finishReset hs (hin.resolve_right nofun) ht)
  | lock | unlock | releaseAll =>
    obtain ⟨locks, -, rfl⟩ := Installation.locking_eq he
    exact hsame rfl
  | consult | resetOperation | sendOnce | returned =>
    cases he
    exact hsame rfl

/-- What is known after a write was answered. -/
theorem Writes.facts {t : ResetTables} {operation : ResetOperation} (h : Writes s φ t operation)
    (hf : Facts s φ) (r : Result Unit) : Facts { s with store := t } (φ.wrote operation r) := by
  refine ⟨hf.agreed, fun v hv ↦ ?_⟩
  cases r with
  | error x => cases hv
  | ok u =>
    cases hv
    obtain ⟨credit, hjob⟩ := h.job
    exact ⟨_, _, credit, hjob, h.held, h.stored⟩

/-- A write that did nothing leaves nothing known. -/
theorem Facts.failed (hf : Facts s φ) (operation : ResetOperation) {r : Result Unit}
    (hr : r.isOk = false) : Facts s (φ.wrote operation r) := by
  refine ⟨hf.agreed, fun v hv ↦ ?_⟩
  cases r with
  | error x => cases hv
  | ok u => cases hr

/-- What a look-up finds is what is stored. -/
theorem Facts.lookedUp (hf : Facts s φ) {id operationId : Uuid} {credit : String}
    (hheld : id ∈ φ.held) (hjob : φ.job = .consumeReset id operationId credit)
    {r : Result (Option ResetOperation)}
    (hr : r = .ok (s.store.resetOperation id (some operationId)) ∨ r = .error .storage) :
    Facts s (φ.lookedUp r) := by
  rcases hr with rfl | rfl
  · refine ⟨?_, fun v hv ↦ ?_⟩
    · cases hst : φ.stored with
      | none => simp [Standing.lookedUp, hst, hf.agreed]
      | some v =>
        obtain ⟨i, op, credit', hjob', -, h⟩ := hf.stored v hst
        cases hjob.symm.trans hjob'
        simp [Standing.lookedUp, hst, hf.agreed, h]
    · cases hv
      exact ⟨id, operationId, credit, hjob, hheld, rfl⟩
  · exact ⟨hf.agreed, hf.stored⟩

/-- A call tells its caller what is so. -/
theorem Facts.own (hf : Facts s φ) (hs : Sound s.store) (hin : φ.InOrder c ∨ c = .releaseAll)
    (he : s.exec task env c = some (s', r)) : Facts s' (φ.next c r) := by
  cases c with
  | consult | returned =>
    cases he
    exact hf
  | sendOnce id request =>
    cases he
    exact ⟨hf.agreed, hf.stored⟩
  | lock id =>
    obtain ⟨locks, -, rfl⟩ := Installation.locking_eq he
    have hnone := (hin.resolve_right nofun).2
    exact ⟨hf.agreed, fun v hv ↦ by cases hnone.symm.trans hv⟩
  | unlock | releaseAll =>
    obtain ⟨locks, -, rfl⟩ := Installation.locking_eq he
    exact ⟨hf.agreed, nofun⟩
  | saveResetCredits id credits =>
    rcases Installation.wrote_cases he with ⟨rfl, -⟩ | ⟨t, ht, rfl⟩
    · exact hf
    · refine ⟨hf.agreed, fun v hv ↦ ?_⟩
      obtain ⟨i, operationId, credit, hjob, hheld, h⟩ := hf.stored v hv
      refine ⟨i, operationId, credit, hjob, hheld, .trans (resetOperation_congr fun _ _ ↦ ?_) h⟩
      rw [saveResetCredits_eq_ok ht]
  | resetOperation id operation =>
    cases he
    cases operation with
    | none => exact hf
    | some operationId =>
      obtain ⟨hheld, credit, hjob⟩ := hin.resolve_right nofun
      refine hf.lookedUp hheld hjob ?_
      cases env.outcome with
      | answered => exact .inl rfl
      | _ => exact .inr rfl
  | beginReset operation =>
    rcases Installation.wrote_cases he with ⟨rfl, hr⟩ | ⟨t, ht, rfl⟩
    · exact hf.failed operation hr
    · exact (hf.beginReset hs (hin.resolve_right nofun) ht).facts hf r
  | finishReset operation =>
    rcases Installation.wrote_cases he with ⟨rfl, hr⟩ | ⟨t, ht, rfl⟩
    · exact hf.failed operation hr
    · exact (hf.finishReset hs (hin.resolve_right nofun) ht).facts hf r

/-- What a call sends is authorised. -/
theorem exec_sent (hf : Facts s φ) (hs : Sound s.store) (hin : φ.InOrder c ∨ c = .releaseAll)
    (he : s.exec task env c = some (s', r)) :
    s'.sent = s.sent ∨ ∃ e, s'.sent = e :: s.sent ∧ Authorised s.store e := by
  cases c with
  | sendOnce id request =>
    cases he
    cases hb : request.body with
    | none =>
      left
      rw [Installation.send, hb]
      rfl
    | some redemption =>
      obtain ⟨⟨operationId, credit, hjob⟩, operation, hj, rfl⟩ := (hin.resolve_right nofun) _ hb
      obtain ⟨-, row, credit', hl, hacc, hdata, hopen, hjob'⟩ := hf.journalled hs hj
      refine .inr ⟨⟨id, _⟩, by rw [Installation.send, hb]; rfl, row, hl, ?_, by rw [hdata], hopen⟩
      cases hjob.symm.trans hjob'
      exact hacc
  | saveResetCredits | beginReset | finishReset =>
    rcases Installation.wrote_cases he with ⟨rfl, -⟩ | ⟨t, -, rfl⟩
    · exact .inl rfl
    · exact .inl rfl
  | lock | unlock | releaseAll =>
    obtain ⟨locks, -, rfl⟩ := Installation.locking_eq he
    exact .inl rfl
  | consult | resetOperation | returned =>
    cases he
    exact .inl rfl

end

namespace World

/-- One move; what does not apply changes nothing. -/
abbrev step (w : World) (m : Move) : World := Pool.step kit w m

/-- The first start of a process, with an empty journal. -/
def new (accounts : List Uuid) (credits : FiniteMap Uuid ResetCredits) : World :=
  ⟨⟨⟨accounts, credits, ∅⟩, ∅, []⟩, ∅⟩

/-- A state some moves lead to from the first start. -/
def Reachable (w : World) : Prop :=
  ∃ accounts credits moves, w = run step (new accounts credits) moves

/-- Every task keeps to its monitor and knows what is so, the journal is sound, and what was sent
is in it. -/
structure Consistent (w : World) : Prop where
  kept : Pool.Kept kit monitor (fun _ _ _ ↦ True) Standing.start w
  owned : locking.Owned w
  facts : Pool.Knowing monitor Standing.start Facts w
  sound : Sound w.shared.store
  logged : ∀ e ∈ w.shared.sent, Logged w.shared.store e

/-- What a move makes of the journal, and what it sends. -/
structure Advances (w w' : World) : Prop where
  grows : Grows w.shared.store w'.shared.store
  sent : w'.shared.sent = w.shared.sent ∨
    ∃ e, w'.shared.sent = e :: w.shared.sent ∧ Authorised w.shared.store e

variable {w w' : World}

private theorem Advances.logged (h : Advances w w')
    (hl : ∀ e ∈ w.shared.sent, Logged w.shared.store e) :
    ∀ e ∈ w'.shared.sent, Logged w'.shared.store e := by
  intro e he
  rcases h.sent with hs | ⟨e', hs, ha⟩
  · rw [hs] at he
    exact (hl e he).grows h.grows
  · rw [hs] at he
    rcases List.mem_cons.mp he with rfl | he
    · exact ha.logged.grows h.grows
    · exact (hl e he).grows h.grows

namespace Consistent

/-- A call in order keeps what every task knows. -/
theorem called (h : w.Consistent) {id : Nat} {env : Env} {φ : Standing} {c : Call} {r : c.Reply}
    {shared : Installation} (hφ : Pool.phase monitor Standing.start w id = some φ)
    (hin : φ.InOrder c ∨ c = .releaseAll) (he : w.shared.exec id env c = some (shared, r)) :
    Facts shared (φ.next c r) ∧
      ∀ i ψ, i ≠ id → Pool.phase monitor Standing.start w i = some ψ → Facts shared ψ := by
  have hf := h.facts id φ hφ
  refine ⟨hf.own h.sound hin he, fun i ψ hne hψ ↦ ⟨(h.facts i ψ hψ).agreed, fun v hv ↦ ?_⟩⟩
  obtain ⟨account, operationId, credit, hjob, hheld, hfind⟩ := (h.facts i ψ hψ).stored v hv
  refine ⟨account, operationId, credit, hjob, hheld, ?_⟩
  rw [(exec_tables hf h.sound hin he).2.2 account operationId, hfind]
  intro hmem
  exact hne (h.owned.unique (l := locking) hψ hheld hφ hmem)

/-- What a move changes is authorised. -/
theorem advances (h : w.Consistent) {m : Move}
    (ht : Pool.Transition kit monitor Standing.start w m w') :
    Advances w w' ∧ Sound w'.shared.store := by
  have hidle : ∀ w' : World, w'.shared = w.shared → Advances w w' ∧ Sound w'.shared.store :=
    fun w' hw ↦ ⟨⟨hw ▸ .refl _, .inl (by rw [hw])⟩, hw ▸ h.sound⟩
  cases ht with
  | idle => exact hidle _ rfl
  | spawned => exact hidle _ rfl
  | moved => exact hidle _ rfl
  | @called id env job t t' c r shared here inOrder performed trace result =>
    have hin : (monitor.phase (.start job) t.trace).InOrder c ∨ c = .releaseAll := by
      rcases inOrder with ⟨-, s, hin⟩ | ⟨-, s, hin⟩
      · exact .inl hin
      · exact .inr hin
    have hf := h.facts id _ (Pool.phase_of_lookup here)
    obtain ⟨hsound, hgrows, -⟩ := exec_tables hf h.sound hin performed
    exact ⟨⟨hgrows, exec_sent hf h.sound hin performed⟩, hsound⟩
  | changed a =>
    cases a with
    | restart => exact ⟨⟨.refl _, .inl rfl⟩, h.sound⟩
    | createAccount id => exact ⟨⟨.of_operations rfl, .inl rfl⟩, h.sound.of_operations rfl⟩

/-- A move keeps an installation consistent, and sends only what is authorised. -/
theorem step (h : w.Consistent) (m : Move) : (w.step m).Consistent ∧ Advances w (w.step m) := by
  obtain ⟨ht, hkept⟩ := Pool.step_transition disciplined h.kept m
  obtain ⟨hadvances, hsound⟩ := h.advances ht
  refine ⟨⟨hkept, h.owned.step ht, ?_, hsound, hadvances.logged h.logged⟩, hadvances⟩
  refine h.facts.step disciplined h.kept m (facts_start _) ?_ ?_
  · intro id env φ s c r shared hφ _ hin he
    exact h.called hφ hin he
  · intro a φ hends hf
    cases a with
    | restart => cases hends
    | createAccount id => exact ⟨hf.agreed, hf.stored⟩

/-- A process starts consistent. -/
theorem new (accounts : List Uuid) (credits : FiniteMap Uuid ResetCredits) :
    (World.new accounts credits).Consistent where
  kept := fun id job t h ↦ by cases h
  owned := fun key id ↦ by
    constructor
    · intro h
      cases h
    · rintro ⟨φ, h, -⟩
      cases h
  facts := fun id φ h ↦ by cases h
  sound := by
    constructor
    · intro id row h
      cases h
    · intro id row id' row' h
      cases h
  logged := fun e he ↦ by cases he

end Consistent

/-- Every reachable state is consistent. -/
theorem Reachable.consistent (h : w.Reachable) : w.Consistent := by
  obtain ⟨accounts, credits, moves, rfl⟩ := h
  exact run_invariant (P := World.Consistent) (fun _ m h ↦ (h.step m).1) moves
    (.new accounts credits)

end World

end Xxgate.Resets

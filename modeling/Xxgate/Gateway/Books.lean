import Xxgate.Codex.Events
import Xxgate.Gateway.Holdings
import Xxgate.Store.Accounting

/-!
# Every request is accounted for once

The store's books stay in order in every reachable installation: whatever is cut off, fails or
loses its answer, a request that was admitted is finished at most once, and a task that went to
its end finished it or paused the dispatch, unless the decoder of its stream panicked.
-/

namespace Xxgate.Gateway

open Xxgate.Base Xxgate.Base.FiniteMap Xxgate.Core Xxgate.Scheduling Xxgate.Store

/-! ### What calls do to the books -/

/-- The books stay in order, their history grows at most, and the same requests are known. -/
structure Carries (s s' : PgStore) : Prop where
  accounted : Accounted s'
  grows : s.billed <+: s'.billed
  knows : ∀ i, Knows s' i ↔ Knows s i

/-- The history grows at most, and what was known still is. -/
structure Extends (s s' : PgStore) : Prop where
  grows : s.billed <+: s'.billed
  knows : ∀ i, Knows s i → Knows s' i

private theorem Extends.refl (s : PgStore) : Extends s s := ⟨List.prefix_refl _, fun _ ↦ id⟩

private theorem Extends.trans {s s' s'' : PgStore} (h : Extends s s') (h' : Extends s' s'') :
    Extends s s'' :=
  ⟨h.grows.trans h'.grows, fun i hi ↦ h'.knows i (h.knows i hi)⟩

private theorem Carries.extends {s s' : PgStore} (h : Carries s s') : Extends s s' :=
  ⟨h.grows, fun i ↦ (h.knows i).mpr⟩

private theorem Carries.refl {s : PgStore} (h : Accounted s) : Carries s s :=
  ⟨h, List.prefix_refl _, fun _ ↦ Iff.rfl⟩

/-- A transaction that carries the books does so under every outcome. -/
theorem Carries.settle {s : PgStore} (h : Accounted s) {outcome : Outcome} {t : Result PgStore}
    (ht : ∀ s', t = .ok s' → Carries s s') : Carries s (settle outcome s t).1 := by
  rcases settle_store outcome s t with he | he
  · rw [he]
    exact .refl h
  · exact ht _ he

/-- A store call that succeeds has taken effect. -/
theorem settle_ok {outcome : Outcome} {s : PgStore} {t : Result PgStore}
    (h : (settle outcome s t).2 = .ok ()) : t = .ok (settle outcome s t).1 := by
  unfold Store.settle at h ⊢
  split at h
  · rfl
  · cases h
  · cases h
  · cases h

private theorem carries_finishRequest {s s' : PgStore} (h : Accounted s) {now : Nat}
    {r : RequestRecord} (hf : s.finishRequest now r = .ok s') : Carries s s' :=
  ⟨h.finishRequest hf, finishRequest_grows hf, finishRequest_knows hf⟩

private theorem carries_commitBinding {s s' : PgStore} (h : Accounted s) {b : Binding}
    {expected : Int} (hc : s.commitBinding b expected = .ok s') : Carries s s' := by
  refine ⟨h.commitBinding hc, ?_, ?_⟩
  · unfold PgStore.commitBinding at hc
    split at hc
    · cases hc
    · split at hc
      · cases hc
      · cases hc
        exact List.prefix_refl _
  · intro i
    unfold PgStore.commitBinding at hc
    split at hc
    · cases hc
    · split at hc
      · cases hc
      · cases hc
        rfl

/-- Rewriting rows touches no history. -/
theorem billed_updateRequest (s : PgStore) (r : RequestRecord) :
    (s.updateRequest r).billed = s.billed := by
  unfold PgStore.updateRequest
  split <;> rfl

private theorem billed_summarizeRequest (s : PgStore) (r : RequestRecord) :
    (s.summarizeRequest r).billed = s.billed := by
  unfold PgStore.summarizeRequest
  split
  · rfl
  · split <;> rfl

private theorem billed_beginRequest {s s' : PgStore} {now : Nat} {r : RequestRecord}
    (h : s.beginRequest now r = .ok s') : s'.billed = s.billed := by
  unfold PgStore.beginRequest at h
  split at h
  · cases h
  · cases h
    rfl

/-- Inserting a row for a request that is not known keeps the books in order. It is known when
the call succeeds, and no other becomes known. -/
theorem settle_beginRequest {s : PgStore} (h : Accounted s) {record : RequestRecord}
    (hnew : ¬ Knows s record.id) (outcome : Outcome) (now : Nat) :
    Accounted (settle outcome s (s.beginRequest now record)).1 ∧
      s.billed <+: (settle outcome s (s.beginRequest now record)).1.billed ∧
      (∀ i, Knows (settle outcome s (s.beginRequest now record)).1 i → i = record.id ∨ Knows s i) ∧
      (∀ i, Knows s i → Knows (settle outcome s (s.beginRequest now record)).1 i) ∧
      ((settle outcome s (s.beginRequest now record)).2 = .ok () →
        Knows (settle outcome s (s.beginRequest now record)).1 record.id) := by
  have hunbilled : ∀ q ∈ s.billed, q.id ≠ record.id := fun q hq hid ↦ hnew (.inr ⟨q, hq, hid⟩)
  refine ⟨?_, ?_, ?_, ?_, fun hok ↦ (beginRequest_knows (settle_ok hok) record.id).mpr (.inl rfl)⟩
  all_goals
    rcases settle_store outcome s (s.beginRequest now record) with hs | hs
  · rw [hs]
    exact h
  · exact h.beginRequest hunbilled hs
  · rw [hs]
  · rw [billed_beginRequest hs]
  · intro i hi
    rw [hs] at hi
    exact .inr hi
  · exact fun i hi ↦ (beginRequest_knows hs i).mp hi
  · intro i hi
    rw [hs]
    exact hi
  · exact fun i hi ↦ (beginRequest_knows hs i).mpr (.inr hi)

namespace World

/-- The books after any call but the insertion of a row. -/
theorem exec_carries {w w' : World} (h : Accounted w.store) {id : Uuid} {env : Env} {c : Call}
    {r : c.Reply} (hc : ∀ record, c ≠ .beginRequest record)
    (he : w.exec id env c = some (w', r)) : Carries w.store w'.store := by
  cases c with
  | beginRequest record => exact absurd rfl (hc record)
  | wait =>
    rcases wait_some he with ⟨-, rfl⟩ | ⟨x, -, rfl⟩ | ⟨lease, state, -, -, rfl⟩
    · exact .refl h
    · exact .refl h
    · exact .refl h
  | confirmStateless | beginSend | beginEncryptedReasoningRecovery =>
    obtain ⟨live, -, ⟨-, -, rfl⟩ | ⟨-, rfl⟩⟩ := onLease_some he
    · exact .refl h
    · exact .refl h
  | enqueue thread groupId model source since =>
    have he' := Option.some.inj he
    rcases w.enqueue_cases id thread groupId model source since with ⟨-, ho⟩ | ⟨x, ho⟩
    · rw [ho] at he'
      cases he'
      exact .refl h
    · rw [ho] at he'
      cases he'
      exact .refl h
  | commitBinding binding expected =>
    cases he
    exact .settle h fun s' hs ↦ carries_commitBinding h hs
  | finishRequest record =>
    cases he
    exact .settle h fun s' hs ↦ carries_finishRequest h hs
  | updateRequest record =>
    cases he
    refine .settle h fun s' hs ↦ ?_
    cases hs
    exact ⟨h.updateRequest record, (billed_updateRequest w.store record).symm ▸ List.prefix_refl _,
      updateRequest_knows w.store record⟩
  | summarizeRequest record =>
    cases he
    refine .settle h fun s' hs ↦ ?_
    cases hs
    exact ⟨h.summarizeRequest record,
      (billed_summarizeRequest w.store record).symm ▸ List.prefix_refl _,
      summarizeRequest_knows w.store record⟩
  | saveSafetyRejection session error =>
    cases he
    refine .settle h fun s' hs ↦ ?_
    cases hs
    exact ⟨h.saveSafetyRejection session error, List.prefix_refl _, fun _ ↦ Iff.rfl⟩
  | appendEvent kind =>
    cases he
    refine .settle h fun s' hs ↦ ?_
    cases hs
    exact ⟨h.appendEvent _, List.prefix_refl _, fun _ ↦ Iff.rfl⟩
  | _ =>
    cases he
    exact .refl h

end World

/-! ### What calls say about the record -/

/-- Only the insertion of its row records or admits a request. -/
theorem Progress.next_admitted (φ : Progress) {c : Call} (r : c.Reply)
    (hc : ∀ record, c ≠ .beginRequest record) :
    (φ.next c r).recorded = φ.recorded ∧ (φ.next c r).admitted = φ.admitted := by
  cases c with
  | beginRequest record => exact absurd rfl (hc record)
  | consult q =>
    obtain ⟨f, p, -, hf⟩ := φ.consulted_eq q r
    show (φ.consulted q r).recorded = _ ∧ (φ.consulted q r).admitted = _
    rw [hf]
    exact ⟨rfl, rfl⟩
  | wait =>
    cases r with
    | lease | failed | heartbeat => exact ⟨rfl, rfl⟩
  | enqueue | confirmStateless | beginSend | beginEncryptedReasoningRecovery | safetyCheck
  | finishRequest =>
    cases r with
    | error | ok => exact ⟨rfl, rfl⟩
  | _ => exact ⟨rfl, rfl⟩

/-- Only finishing its record finishes a request. -/
theorem Progress.next_finished (φ : Progress) {c : Call} (r : c.Reply)
    (hc : ∀ record, c ≠ .finishRequest record) : (φ.next c r).finished = φ.finished := by
  cases c with
  | finishRequest record => exact absurd rfl (hc record)
  | consult q =>
    obtain ⟨f, p, -, hf⟩ := φ.consulted_eq q r
    show (φ.consulted q r).finished = _
    rw [hf]
  | wait =>
    cases r with
    | lease | failed | heartbeat => rfl
  | enqueue | confirmStateless | beginSend | beginEncryptedReasoningRecovery | safetyCheck =>
    cases r with
    | error | ok => rfl
  | _ => rfl

/-- A pause that is known was called for. -/
theorem Progress.after_paused {φ : Progress} {trace : List (Sigma Call.Reply)}
    (h : (φ.after trace).paused = true) (hφ : φ.paused = false) :
    ∃ r, ⟨.setPaused, r⟩ ∈ trace := by
  induction trace with
  | nil => cases hφ.symm.trans h
  | cons e trace ih =>
    obtain ⟨c, r⟩ := e
    have hlater : ((φ.after trace).next c r).paused = (φ.after trace).paused →
        ∃ r', ⟨.setPaused, r'⟩ ∈ (⟨c, r⟩ : Sigma Call.Reply) :: trace := by
      intro he
      obtain ⟨r', hr⟩ := ih (he.symm.trans h)
      exact ⟨r', List.mem_cons_of_mem _ hr⟩
    cases c with
    | setPaused => exact ⟨r, List.mem_cons_self⟩
    | consult q =>
      obtain ⟨f, p, -, hf⟩ := (φ.after trace).consulted_eq q r
      apply hlater
      show ((φ.after trace).consulted q r).paused = _
      rw [hf]
    | wait =>
      cases r with
      | lease | failed | heartbeat => exact hlater rfl
    | enqueue | confirmStateless | beginSend | beginEncryptedReasoningRecovery | safetyCheck
    | finishRequest =>
      cases r with
      | error | ok => exact hlater rfl
    | _ => exact hlater rfl

/-- The decoder panics. -/
def isPanic : Sigma Call.Reply → Bool
  | ⟨.consult .decode, .error .panic⟩ => true
  | _ => false

/-- Only a panic of the decoder makes one known. -/
theorem Progress.next_panicked (φ : Progress) (c : Call) (r : c.Reply) :
    (φ.next c r).panicked = (isPanic ⟨c, r⟩ || φ.panicked) := by
  cases c with
  | consult q =>
    cases q with
    | decode =>
      rcases r with (x | _) | events
      · rfl
      · rfl
      · rfl
    | headers | errorBody =>
      cases r with
      | error | ok => rfl
    | _ => rfl
  | wait =>
    cases r with
    | lease | failed | heartbeat => rfl
  | enqueue | confirmStateless | beginSend | beginEncryptedReasoningRecovery | safetyCheck
  | finishRequest =>
    cases r with
    | error | ok => rfl
  | _ => rfl

/-- A panic is known when there is one in the trace. -/
theorem Progress.after_panicked (trace : List (Sigma Call.Reply)) :
    (admission.after trace).panicked = trace.any isPanic := by
  induction trace with
  | nil => rfl
  | cons e trace ih =>
    show ((admission.after trace).next e.1 e.2).panicked = _
    rw [next_panicked, ih, List.any_cons]

namespace Life

/-- Only a handler that has just enqueued its request inserts a row, and for that request. -/
theorem MayCall.beginRequest {id : Uuid} {life : Life} {record : RequestRecord}
    (h : life.MayCall id (.beginRequest record)) :
    life.progress.recorded = false ∧ record.id = id := by
  cases life with
  | starting key request t =>
    rcases h with ⟨hφ, hid⟩ | h
    · rw [hφ]
      exact ⟨rfl, hid⟩
    · cases h
  | running job t =>
    rcases h with ⟨-, h, -⟩ | ⟨-, h⟩
    · exact h.elim
    · exact h.elim

/-- Only a task finishes a record, and its own. -/
theorem MayCall.finishRequest {id : Uuid} {life : Life} {record : RequestRecord}
    (hk : life.Kept id) (h : life.MayCall id (.finishRequest record)) :
    (∃ job t, life = .running job t) ∧ record.id = id := by
  cases life with
  | starting key request t =>
    rcases h with h | h
    · exact h.elim
    · cases h
  | running job t =>
    refine ⟨⟨job, t, rfl⟩, ?_⟩
    rcases h with ⟨-, h, -⟩ | ⟨-, h⟩
    · exact h.id.trans hk.1
    · exact h.id.trans hk.1

/-- The task of a request runs because the request was admitted. -/
theorem admitted_of_lawful {job : Job} {trace : List (Sigma Call.Reply)}
    (h : (monitor job).Lawful .admission trace) :
    (Progress.admission.after trace).admitted = true := by
  induction trace with
  | nil => rfl
  | cons e trace ih =>
    obtain ⟨⟨s, hc⟩, hl⟩ := h
    refine (Progress.next_admitted _ e.2 ?_).2.trans (ih hl)
    intro record he
    rw [he] at hc
    rcases hc with ⟨-, -, -, hc⟩ | hc
    · exact hc.elim
    · exact hc.elim

end Life

namespace World

/-! ### Every run -/

/-- The books are in order, a request is known from the success of its row's insertion on and
not before that insertion, and billed once it knows that it was finished. -/
structure Booked (w : World) : Prop where
  held : w.Held
  accounted : Accounted w.store
  issued : ∀ id, Knows w.store id → id ∈ w.issued
  absent : ∀ id life, w.tasks.lookup id = some life → life.progress.recorded = false →
    ¬ Knows w.store id
  present : ∀ id life, w.tasks.lookup id = some life → life.progress.admitted = true →
    Knows w.store id
  finished : ∀ id life, w.tasks.lookup id = some life → life.progress.finished = true →
    Billed w.store id

private theorem Booked.new (settings : LiveSettings) (accounts : List Account)
    (keys : List GatewayKey) : (World.new settings accounts keys).Booked where
  held := .new settings accounts keys
  accounted := .empty
  issued := by
    rintro id (hid | ⟨r, hr, -⟩)
    · exact absurd hid (AList.notMem_empty id)
    · cases hr
  absent := fun id life hl ↦ by cases (AList.lookup_empty id).symm.trans hl
  present := fun id life hl ↦ by cases (AList.lookup_empty id).symm.trans hl
  finished := fun id life hl ↦ by cases (AList.lookup_empty id).symm.trans hl

/-- The requests and the books stay in step while the store carries its books. -/
theorem Booked.carried {w w' : World} (h : w.Booked) (hheld : w'.Held)
    (hstore : Carries w.store w'.store) (hissued : w.issued ⊆ w'.issued)
    (hlives : ∀ id life', w'.tasks.lookup id = some life' →
      (¬ Knows w.store id ∧ life'.progress = .none) ∨
        ∃ life, w.tasks.lookup id = some life ∧ life'.progress.recorded = life.progress.recorded ∧
          life'.progress.admitted = life.progress.admitted ∧
          (life'.progress.finished = true → life.progress.finished = true ∨ Billed w'.store id)) :
    w'.Booked := by
  refine ⟨hheld, hstore.accounted, ?_, ?_, ?_, ?_⟩
  · intro id hid
    exact hissued (h.issued id ((hstore.knows id).mp hid))
  · intro id life' hl hrec hk
    have hk' := (hstore.knows id).mp hk
    rcases hlives id life' hl with ⟨hnone, -⟩ | ⟨life, hlife, hr, -, -⟩
    · exact hnone hk'
    · exact h.absent id life hlife (hr.symm.trans hrec) hk'
  · intro id life' hl hadm
    apply (hstore.knows id).mpr
    rcases hlives id life' hl with ⟨-, hp⟩ | ⟨life, hlife, -, ha, -⟩
    · rw [hp] at hadm
      cases hadm
    · exact h.present id life hlife (ha.symm.trans hadm)
  · intro id life' hl hfin
    rcases hlives id life' hl with ⟨-, hp⟩ | ⟨life, hlife, -, -, hf⟩
    · rw [hp] at hfin
      cases hfin
    · rcases hf hfin with hf | hb
      · exact (h.finished id life hlife hf).mono hstore.grows
      · exact hb

/-- A request that knows it was finished after a call knew it before, or is billed by it. -/
theorem Booked.finishes {w w' : World} (h : w.Booked) {id : Uuid} {env : Env} {life : Life}
    {c : Call} {r : c.Reply} (here : w.tasks.lookup id = some life) (inOrder : life.MayCall id c)
    (performed : w.exec id env c = some (w', r)) (hf : (life.progress.next c r).finished = true) :
    life.progress.finished = true ∨ Billed w'.store id := by
  by_cases hc : ∃ record, c = .finishRequest record
  · obtain ⟨record, rfl⟩ := hc
    have hk := h.held.kept id life here
    obtain ⟨⟨job, t, rfl⟩, hid⟩ := inOrder.finishRequest hk
    have hknown : Knows w.store record.id := by
      rw [hid]
      apply h.present id _ here
      exact Life.admitted_of_lawful hk.2.2
    cases r with
    | error x => exact .inl hf
    | ok u =>
      right
      rw [← hid]
      have hw := Option.some.inj performed
      have hstore : (settle env.outcome w.store
          (w.store.finishRequest env.now record)).1 = w'.store := congrArg (fun a ↦ a.1.store) hw
      have hreply : (settle env.outcome w.store
          (w.store.finishRequest env.now record)).2 = .ok u := congrArg Prod.snd hw
      rw [← hstore]
      exact finishRequest_billed h.accounted hknown (settle_ok hreply)
  · left
    rw [life.progress.next_finished r fun record he ↦ hc ⟨record, he⟩] at hf
    exact hf

/-- The insertion of a row by a handler. -/
theorem Booked.begun {w w' : World} (h : w.Booked) {id : Uuid} {env : Env} {life life' : Life}
    {record : RequestRecord} {r : Result Unit} (here : w.tasks.lookup id = some life)
    (hprogress : life'.progress = life.progress.next (.beginRequest record) r)
    (inOrder : life.MayCall id (.beginRequest record))
    (performed : w.exec id env (.beginRequest record) = some (w', r))
    (hheld : World.Held { w' with tasks := w.tasks.insert id life' }) :
    Booked { w' with tasks := w.tasks.insert id life' } ∧ Extends w.store w'.store := by
  obtain ⟨hunrecorded, hid⟩ := inOrder.beginRequest
  have hnew : ¬ Knows w.store record.id := hid ▸ h.absent id life here hunrecorded
  obtain ⟨haccounted, hgrows, honly, hmono, hknown⟩ :=
    settle_beginRequest h.accounted hnew env.outcome env.now
  have hw := Option.some.inj performed
  have hstore : (settle env.outcome w.store (w.store.beginRequest env.now record)).1 = w'.store :=
    congrArg (fun a ↦ a.1.store) hw
  have hreply : (settle env.outcome w.store (w.store.beginRequest env.now record)).2 = r :=
    congrArg Prod.snd hw
  have hissued : w'.issued = w.issued := (exec_tasks performed).2.1
  rw [hstore] at haccounted hgrows honly hmono hknown
  rw [hreply] at hknown
  have hlives : ∀ i life₁, (w.tasks.insert id life').lookup i = some life₁ →
      i = id ∧ life₁ = life' ∨ i ≠ id ∧ w.tasks.lookup i = some life₁ := by
    intro i life₁ hl
    rw [lookup_insert_ite] at hl
    split at hl
    · next he => exact .inl ⟨he, (Option.some.inj hl).symm⟩
    · next hne => exact .inr ⟨hne, hl⟩
  refine ⟨⟨hheld, haccounted, ?_, ?_, ?_, ?_⟩, hgrows, hmono⟩
  · intro i hi
    show i ∈ w'.issued
    rw [hissued]
    rcases honly i hi with rfl | hi
    · rw [hid]
      exact h.held.issued id ((mem_iff_lookup ..).mpr ⟨life, here⟩)
    · exact h.issued i hi
  · intro i life₁ hl hrec hk
    rcases hlives i life₁ hl with ⟨rfl, rfl⟩ | ⟨hne, hl⟩
    · rw [hprogress] at hrec
      cases hrec
    · rcases honly i hk with he | hk
      · exact hne (he.trans hid)
      · exact h.absent i life₁ hl hrec hk
  · intro i life₁ hl hadm
    rcases hlives i life₁ hl with ⟨rfl, rfl⟩ | ⟨hne, hl⟩
    · rw [hprogress] at hadm
      show Knows w'.store i
      cases r with
      | error x => cases hadm
      | ok u => exact hid ▸ hknown rfl
    · exact hmono i (h.present i life₁ hl hadm)
  · intro i life₁ hl hfin
    rcases hlives i life₁ hl with ⟨rfl, rfl⟩ | ⟨hne, hl⟩
    · rw [hprogress] at hfin
      exact (h.finished i life here hfin).mono hgrows
    · exact (h.finished i life₁ hl hfin).mono hgrows

/-- One move keeps the books and extends them at most. -/
theorem Booked.step {w : World} (h : w.Booked) (m : Move) :
    (w.step m).Booked ∧ Extends w.store (w.step m).store := by
  have hheld := h.held.step m
  have ht := step_transition h.held.kept m
  generalize w.step m = w' at hheld ht
  cases ht with
  | idle => exact ⟨h, .refl _⟩
  | administered admin =>
    refine ⟨h.carried hheld (.refl h.accounted) subset_rfl ?_, .refl _⟩
    exact fun id life hl ↦ .inr ⟨life, hl, rfl, rfl, .inl⟩
  | cleaned now retentionDays =>
    have hstore : Carries w.store (w.store.cleanup now retentionDays) :=
      ⟨h.accounted.cleanup now retentionDays, List.prefix_refl _,
        cleanup_knows h.accounted now retentionDays⟩
    refine ⟨h.carried hheld hstore subset_rfl ?_, hstore.extends⟩
    exact fun id life hl ↦ .inr ⟨life, hl, rfl, rfl, .inl⟩
  | restarted now outcomes settings accounts keys =>
    have hstore : Carries w.store (w.store.reconcileInterrupted now outcomes).1 := by
      obtain ⟨haccounted, hgrows⟩ := finishAll_accounted h.accounted _ outcomes
      exact ⟨haccounted, hgrows, finishAll_knows now _ w.store outcomes⟩
    refine ⟨h.carried hheld hstore subset_rfl ?_, hstore.extends⟩
    intro id life hl
    cases (AList.lookup_empty id).symm.trans hl
  | @arrived i key request new =>
    refine ⟨h.carried hheld (.refl h.accounted) (Finset.subset_insert _ _) ?_, .refl _⟩
    intro id life' hl
    dsimp only at hl
    rw [lookup_insert_ite] at hl
    split at hl
    · next he =>
      cases hl
      exact .inl ⟨fun hk ↦ new (he ▸ h.issued id hk), rfl⟩
    · exact .inr ⟨life', hl, rfl, rfl, .inl⟩
  | @moved i d life life' here kept thread hprogress =>
    refine ⟨h.carried hheld (.refl h.accounted) subset_rfl ?_, .refl _⟩
    intro id life₁ hl
    dsimp only at hl
    rw [lookup_insert_ite] at hl
    split at hl
    · next he =>
      cases hl
      exact .inr ⟨life, he ▸ here, by rw [hprogress], by rw [hprogress],
        fun hf ↦ .inl (hprogress ▸ hf)⟩
    · exact .inr ⟨life₁, hl, rfl, rfl, .inl⟩
  | @called w₁ i env life life' c r here kept thread inOrder performed hprogress =>
    obtain ⟨-, hissued, -⟩ := exec_tasks performed
    by_cases hc : ∃ record, c = .beginRequest record
    · obtain ⟨record, rfl⟩ := hc
      exact h.begun here hprogress inOrder performed hheld
    · have hc' : ∀ record, c ≠ .beginRequest record := fun record he ↦ hc ⟨record, he⟩
      have hstore := exec_carries h.accounted hc' performed
      refine ⟨h.carried hheld hstore (by rw [hissued]) ?_, hstore.extends⟩
      intro id life₁ hl
      dsimp only at hl
      rw [lookup_insert_ite] at hl
      split at hl
      · next he =>
        cases hl
        obtain ⟨hrec, hadm⟩ := life.progress.next_admitted r hc'
        refine .inr ⟨life, he ▸ here, by rw [hprogress, hrec], by rw [hprogress, hadm], ?_⟩
        intro hf
        rw [hprogress] at hf
        rw [he]
        have hfinishes := h.finishes here inOrder performed hf
        exact hfinishes
      · exact .inr ⟨life₁, hl, rfl, rfl, .inl⟩

private theorem Reachable.booked {w : World} (h : w.Reachable) : w.Booked :=
  h.invariant Booked.new fun _ m hw ↦ (hw.step m).1

/-- A run keeps the books and extends them at most. -/
theorem Booked.run {w : World} (h : w.Booked) (moves : List Move) :
    (Base.run World.step w moves).Booked ∧
      Extends w.store (Base.run World.step w moves).store := by
  induction moves generalizing w with
  | nil => exact ⟨h, .refl _⟩
  | cons m moves ih =>
    obtain ⟨hstep, hgrows⟩ := h.step m
    obtain ⟨hrun, hgrows'⟩ := ih hstep
    exact ⟨hrun, hgrows.trans hgrows'⟩

end World

/-- How often the request was finished. -/
def finishedTimes (s : PgStore) (id : Uuid) : Nat := s.billed.countP (·.id = id)

/-- The request was finished at most once, just when its row says so, and as its row shows. The
totals are those of the finished records, with each request in them once for each time it was
finished: `request_hourly` for all, the spending tables for those with an account and until
their hour expires. -/
structure AccountedOnce (s : PgStore) (id : Uuid) : Prop where
  once : finishedTimes s id ≤ 1
  there : id ∈ s.rows ∨ finishedTimes s id = 1
  row : ∀ row, s.rows.lookup id = some row → finishedTimes s id = row.finishedAt.isSome.toNat ∧
    ∀ r ∈ s.billed, r.id = id → row.Shows r
  hourly : Rolled PgStore.mergeHourly PgStore.hourlyKey PgStore.hourlyShare (fun _ ↦ True)
    s.hourly s.billed
  charged : ∀ r ∈ s.billed, ∀ e, charge r = some e → s.expired ≤ hourOf e.finishedAt →
    s.entries.lookup r.id = some e
  spending : Rolled PgStore.mergeSpending spendingKey PgStore.spendingShare
    (fun k ↦ s.expired ≤ k.2) s.spending (s.billed.filterMap charge)

/-- A billed request was finished once, any other never. -/
theorem finishedTimes_eq {s : PgStore} (h : Accounted s) (id : Uuid) :
    (Billed s id → finishedTimes s id = 1) ∧ (¬ Billed s id → finishedTimes s id = 0) := by
  have hcount : finishedTimes s id = (s.billed.map (·.id)).count id := by
    unfold finishedTimes
    rw [List.count, List.countP_map]
    exact List.countP_congr fun r _ ↦ by simp
  constructor
  · rintro ⟨r, hr, rfl⟩
    rw [hcount]
    exact List.count_eq_one_of_mem h.once (List.mem_map_of_mem hr)
  · intro hno
    rw [hcount, List.count_eq_zero]
    intro hmem
    obtain ⟨r, hr, hid⟩ := List.mem_map.mp hmem
    exact hno ⟨r, hr, hid⟩

/-- Books that are in order account for every request they know. -/
theorem accountedOnce {s : PgStore} (h : Accounted s) {id : Uuid} (hk : Knows s id) :
    AccountedOnce s id := by
  obtain ⟨hone, hzero⟩ := finishedTimes_eq h id
  refine ⟨?_, hk.imp (fun hrow ↦ hrow) hone, ?_, h.hourly, h.charged, h.spending⟩
  · by_cases hb : Billed s id
    · exact (hone hb).le
    · rw [hzero hb]
      exact Nat.zero_le 1
  · intro row hl
    cases hf : row.finishedAt with
    | none =>
      have hno : ∀ r ∈ s.billed, r.id ≠ id := (h.unfinished id row hl hf).2
      refine ⟨hzero fun hb ↦ ?_, fun r hr hid ↦ absurd hid (hno r hr)⟩
      obtain ⟨r, hr, hid⟩ := hb
      exact hno r hr hid
    | some n =>
      obtain ⟨r, hr, hid, hs⟩ := h.finished id row hl (by rw [hf]; rfl)
      refine ⟨hone ⟨r, hr, hid⟩, ?_⟩
      intro r' hr' hid'
      rw [List.inj_on_of_nodup_map h.once hr' hr (hid'.trans hid.symm)]
      exact hs

namespace World

/-- Exactly-once accounting. Once the insertion of a request's row succeeded, the request is
accounted for once after every further run, restarts included: what a finished row shows never
changes, and a task that went to its end finished the request or paused the dispatch, unless
the decoder panicked over what the upstream sent it. -/
theorem accounted_exactly_once {w : World} (h : w.Reachable) {id : Uuid} {life : Life}
    (hl : w.tasks.lookup id = some life) (hadmitted : life.progress.admitted = true) :
    (∀ moves, AccountedOnce (run step w moves).store id) ∧
    (∀ moves later row row', (run step w moves).store.rows.lookup id = some row →
      row.finishedAt.isSome = true →
      (run step w (moves ++ later)).store.rows.lookup id = some row' →
      row'.state = row.state ∧ row'.finishedAt = row.finishedAt ∧
        row'.accountId = row.accountId ∧ row'.data.usage = row.data.usage ∧
        row'.data.valuation = row.data.valuation) ∧
    ∀ job t x e, life = .running job t → t.stage = .ended x e → t.trace.any isPanic = false →
      (finishedTimes w.store id = 1 ∧
        ∀ row, w.store.rows.lookup id = some row → row.finishedAt.isSome = true) ∨
      ∃ r, ⟨.setPaused, r⟩ ∈ t.trace := by
  have hbooked := h.booked
  have hknown : Knows w.store id := hbooked.present id life hl hadmitted
  refine ⟨?_, ?_, ?_⟩
  · intro moves
    obtain ⟨hrun, hextends⟩ := hbooked.run moves
    exact accountedOnce hrun.accounted (hextends.knows id hknown)
  · intro moves later row row' hrow hf hrow'
    obtain ⟨hrun, -⟩ := hbooked.run moves
    obtain ⟨hlater, hextends⟩ := hrun.run later
    rw [run_append] at hrow'
    exact hrun.accounted.stable hlater.accounted hextends.grows hrow hf hrow'
  · rintro job t x e rfl hstage hcalm
    obtain ⟨-, hfollows, -⟩ := hbooked.held.kept id _ hl
    rw [hstage] at hfollows
    rcases hfollows with hpanicked | hfinished | hpaused
    · rw [Progress.after_panicked, hcalm] at hpanicked
      cases hpanicked
    · left
      have hone := (finishedTimes_eq hbooked.accounted id).1 (hbooked.finished id _ hl hfinished)
      refine ⟨hone, ?_⟩
      intro row hrow
      obtain ⟨hcount, -⟩ := (accountedOnce hbooked.accounted hknown).row row hrow
      cases hf : row.finishedAt with
      | none =>
        rw [hone, hf] at hcount
        cases hcount
      | some n => rfl
    · right
      exact Progress.after_paused hpaused rfl

end World

/-! ### Requests that are through -/

namespace Sample

/-- The dispatch is paused. -/
def isPause : Sigma Call.Reply → Bool
  | ⟨.setPaused, _⟩ => true
  | _ => false

/-- Whether a request was admitted, its decoder panicked and it paused the dispatch, once its
task is through. -/
def ending (life : Life) : Option (Bool × Bool × Bool) :=
  match life with
  | .running _ ⟨.ended _ _, trace⟩ =>
    some (life.progress.admitted, trace.any isPanic, trace.any isPause)
  | _ => none

private theorem of_ending {life : Life} {a b c : Bool} (h : ending life = some (a, b, c)) :
    life.progress.admitted = a ∧ ∃ job t x e, life = .running job t ∧ t.stage = .ended x e ∧
      t.trace.any isPanic = b ∧ t.trace.any isPause = c := by
  cases life with
  | starting key request t => cases h
  | running job t =>
    obtain ⟨stage, trace⟩ := t
    cases stage with
    | ended x e =>
      cases h
      exact ⟨rfl, job, _, x, e, rfl, rfl, rfl, rfl⟩
    | _ => cases h

private theorem not_mem_of_isPause {trace : List (Sigma Call.Reply)} (h : trace.any isPause = false)
    (r : Call.setPaused.Reply) : (⟨.setPaused, r⟩ : Sigma Call.Reply) ∉ trace :=
  fun hr ↦ List.any_eq_false.mp h _ hr rfl

/-- Replies of a quiet day, with an upstream that streams an event the decoder panics over. -/
def panicReply : (q : Consult) → q.Reply
  | .decode => .error .panic
  | .nextChunk => .bytes 1
  | q => reply 200 q

/-- A request whose stream holds such an event. -/
def panickedStream : List Move :=
  arrive true 1 :: (List.replicate 50 [Move.drive 1 .proceed, Move.drive 1
    (.perform ⟨.answered, 0, .poll, 1001, 2001, panicReply⟩)]).flatten

end Sample

namespace World

/-- A rejected request is accounted for once when its task is through. -/
theorem accounted_exactly_once_rejected :
    ∃ job t x e, (Sample.after (Sample.arrive true 1 ::
        Sample.turns .answered 403 1 50)).tasks.lookup 1 = some (.running job t) ∧
      t.stage = .ended x e ∧
      AccountedOnce (Sample.after (Sample.arrive true 1 :: Sample.turns .answered 403 1 50)).store
        1 ∧
      finishedTimes (Sample.after (Sample.arrive true 1 :: Sample.turns .answered 403 1 50)).store
        1 = 1 := by
  have hrun : ((Sample.after (Sample.arrive true 1 :: Sample.turns .answered 403 1 50)).tasks.lookup
      1).bind Sample.ending = some (true, false, false) := by decide +kernel
  obtain ⟨life, hl, hending⟩ := Option.bind_eq_some_iff.mp hrun
  obtain ⟨hadmitted, job, t, x, e, rfl, hstage, hcalm, hrunning⟩ := Sample.of_ending hending
  obtain ⟨hbooks, -, hends⟩ := accounted_exactly_once (Sample.reachable _) hl hadmitted
  have haccounted := hbooks []
  rw [run_nil] at haccounted
  refine ⟨job, t, x, e, hl, hstage, haccounted, ?_⟩
  rcases hends job t x e rfl hstage hcalm with ⟨hone, -⟩ | ⟨r, hpause⟩
  · exact hone
  · exact absurd hpause (Sample.not_mem_of_isPause hrunning r)

/-- The event of a number among the limits makes the decoder panic, and the request is left
unfinished, with its task gone and the dispatch running. -/
theorem panic_unaccounted :
    (∀ (r : Codex.Readings) (d : Codex.Decoding) (data : String),
      r.parse data = some Codex.scalarLimits → Codex.decodeDatum r d data = .error .panic) ∧
    (Sample.after Sample.panickedStream).Reachable ∧
    (∃ life job t x e, (Sample.after Sample.panickedStream).tasks.lookup 1 = some life ∧
      life.progress.admitted = true ∧ life = .running job t ∧ t.stage = .ended x e ∧
      ∀ r, ⟨.setPaused, r⟩ ∉ t.trace) ∧
    finishedTimes (Sample.after Sample.panickedStream).store 1 = 0 ∧
    ((Sample.after Sample.panickedStream).store.rows.lookup 1).map (·.finishedAt) = some none ∧
    (Sample.after Sample.panickedStream).sched.state.paused = false := by
  have hrun : ((Sample.after Sample.panickedStream).tasks.lookup 1).bind Sample.ending =
      some (true, true, false) := by decide +kernel
  obtain ⟨life, hl, hending⟩ := Option.bind_eq_some_iff.mp hrun
  obtain ⟨hadmitted, job, t, x, e, hlife, hstage, -, hrunning⟩ := Sample.of_ending hending
  refine ⟨fun r d data h ↦ Codex.decodeDatum_scalarLimits h d, Sample.reachable _,
    ⟨life, job, t, x, e, hl, hadmitted, hlife, hstage, Sample.not_mem_of_isPause hrunning⟩, ?_⟩
  decide +kernel

end World
end Xxgate.Gateway

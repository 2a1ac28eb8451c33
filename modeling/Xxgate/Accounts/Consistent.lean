import Xxgate.Accounts.Facts

/-!
# Consistent installations

In every state a process can reach, every task keeps to the monitor, the lock table says who
has which lock, what each task knows is so, and the scheduler has copies of the store.
-/

namespace Xxgate.Accounts

open Xxgate.Base Xxgate.Base.FiniteMap Xxgate.Core Xxgate.Scheduling Xxgate.Store

/-- Every task keeps to the monitor. -/
theorem disciplined : kit.Disciplined monitor Through Standing.start :=
  ⟨scheme_keeps, body_follows⟩

/-- The calls that act on locks, and the table. -/
def locking : Locking kit monitor Standing.start Lock where
  op := Installation.lockOp
  table := Installation.locks
  held := Standing.held
  exec := by
    intro s s' id env c r h
    have hlocks : ∀ (op : LockOp Lock) {u : Unit}, s.locking id op = some (s', u) →
        op.apply s.locks id = some s'.locks := by
      intro op u h
      obtain ⟨locks, hl, he⟩ := Option.map_eq_some_iff.mp h
      cases he
      exact hl
    cases c with
    | lock l => exact hlocks (.acquire l) h
    | unlock l => exact hlocks (.release l) h
    | releaseAll => exact hlocks .releaseAll h
    | refresh id account previous =>
      obtain ⟨accepted, posted, rfl⟩ := Installation.exec_refresh h
      rfl
    | putAccount | deleteAccount | updateCredentials | setEnabled | saveModelCatalog | saveQuotas
    | saveExtraCredits =>
      rcases Installation.wrote_cases h with ⟨rfl, -⟩ | ⟨t, a, -, rfl, -⟩
      · rfl
      · rfl
    | _ =>
      cases h
      rfl
  next := Standing.next_held
  starts := fun _ ↦ rfl
  change := by
    intro s a
    cases a <;> rfl

namespace World

/-- What is known of a task, if it is there. -/
abbrev standing (w : World) (id : Nat) : Option Standing := Pool.phase monitor Standing.start w id

end World

/-! ### A new scheduler -/

/-- A new scheduler has the accounts that are not deleted. -/
theorem lookup_started {t : AccountTables} (hk : t.Keyed) (id : Uuid) :
    (Installation.started t).accounts.lookup id = (t.live id).map (·.data) := by
  have hu : ∀ x ∈ t.listed, ∀ y ∈ t.listed, x.id = y.id → x = y := by
    intro x hx y hy he
    obtain ⟨row, hl, rfl⟩ := (AccountTables.mem_listed hk x).mp hx
    obtain ⟨row', hl', rfl⟩ := (AccountTables.mem_listed hk y).mp hy
    rw [he, hl'] at hl
    cases hl
    rfl
  ext a
  have hlookup := lookup_foldl_insert_iff hu ∅ id a
  refine hlookup.trans ?_
  rw [AccountTables.mem_listed hk, AList.lookup_empty]
  constructor
  · rintro (⟨⟨row, hl, rfl⟩, rfl⟩ | ⟨-, hn⟩)
    · rw [hl]
      rfl
    · cases hn
  · intro ha
    obtain ⟨row, hl, rfl⟩ := Option.map_eq_some_iff.mp ha
    have hid := live_id hk hl
    exact .inl ⟨⟨row, hid ▸ hl, rfl⟩, hid⟩

/-- A new scheduler is a copy of the store. -/
theorem sync_started {s : Installation} (hk : s.store.Keyed) :
    Sync { s with sched := Installation.started s.store, locks := ∅ } where
  keyed := hk
  filed := Filed.new _ _ _
  copies := fun id a ha ↦ by
    have ha : (Installation.started s.store).accounts.lookup id = some a := ha
    rw [lookup_started hk] at ha
    obtain ⟨row, hl, rfl⟩ := Option.map_eq_some_iff.mp ha
    exact ⟨row, (AccountTables.live_eq_some.mp hl).1, .refl _⟩
  gone := fun id hid ↦ absurd hid (Finset.notMem_empty id)

namespace World

/-! ### The invariant -/

/-- Every task keeps to its monitor and knows what is so, and the scheduler has copies. -/
structure Consistent (w : World) : Prop where
  kept : Pool.Kept kit monitor Through Standing.start w
  owned : locking.Owned w
  tidy : ∀ id φ, w.standing id = some φ → φ.Tidy
  facts : ∀ id φ, w.standing id = some φ → Facts w.shared φ
  sync : Sync w.shared

variable {w w' : World}

/-- What is known of a task after a task was changed. -/
theorem standing_insert (w : World) (shared : Installation) (id i : Nat) (job : Job)
    (t : Task Unit Call Call.Reply Empty Error Unit) :
    World.standing ⟨shared, w.tasks.insert id (job, t)⟩ i =
      if i = id then some (monitor.phase (.start job) t.trace) else w.standing i := by
  unfold standing Pool.phase
  rw [lookup_insert_ite]
  split <;> rfl

/-- The standing of a task is the phase its calls led to. -/
theorem standing_of_lookup {id : Nat} {job : Job} {t : Task Unit Call Call.Reply Empty Error Unit}
    (h : w.tasks.lookup id = some (job, t)) :
    w.standing id = some (monitor.phase (.start job) t.trace) := by
  unfold standing Pool.phase
  rw [h]
  rfl

namespace Consistent

/-- While a task has the `mutations` lock nothing that it protects is known to another. -/
theorem blank (h : w.Consistent) {i j : Nat} {φ ψ : Standing} (hi : w.standing i = some φ)
    (hm : .mutations ∈ φ.held) (hj : w.standing j = some ψ) (hne : j ≠ i) : ψ.Blank :=
  h.tidy j ψ hj fun hm' ↦ hne (h.owned.unique (l := locking) hj hm' hi hm)

/-- While the lock is free nothing that it protects is known to any task. -/
theorem blank_of_free (h : w.Consistent) (hf : w.shared.locks.lookup .mutations = none) {i : Nat}
    {φ : Standing} (hi : w.standing i = some φ) : φ.Blank :=
  h.tidy i φ hi (h.owned.free (l := locking) hf hi)

end Consistent

/-- What a move can change. -/
abbrev Transition (w : World) (m : Move) (w' : World) : Prop :=
  Pool.Transition kit monitor Standing.start w m w'

/-- What a call that was made meant. -/
structure Made (w : World) (φ : Standing) (task : Nat) (env : Env) (c : Call) (r : c.Reply)
    (shared : Installation) : Prop where
  standing : w.standing task = some φ
  inOrder : φ.InOrder c ∨ c = .releaseAll
  performed : w.shared.exec task env c = some (shared, r)

/-- A call in order that changes something is made by the holder of the lock. -/
theorem Made.holds {φ : Standing} {task : Nat} {env : Env} {c : Call} {r : c.Reply}
    {shared : Installation} (h : Made w φ task env c r shared)
    (hc : Installation.reads c = false) : φ.InOrder c ∧ .mutations ∈ φ.held := by
  have hin : φ.InOrder c := by
    refine h.inOrder.resolve_right ?_
    rintro rfl
    cases hc
  refine ⟨hin, ?_⟩
  by_contra hm
  cases hc.symm.trans (Standing.reads_of_free hin hm)

/-- The phase of a task after a call. -/
theorem phase_cons {job : Job} {t t' : Task Unit Call Call.Reply Empty Error Unit} {c : Call}
    {r : c.Reply} (h : t'.trace = ⟨c, r⟩ :: t.trace) :
    monitor.phase (.start job) t'.trace = (monitor.phase (.start job) t.trace).next c r := by
  rw [h]
  rfl

namespace Consistent

/-- What is known where a task has made a call. -/
theorem made {job : Job} {t : Task Unit Call Call.Reply Empty Error Unit} {id : Nat} {env : Env}
    {c : Call} {r : c.Reply} {shared : Installation} (here : w.tasks.lookup id = some (job, t))
    (inOrder : (t.result = none ∧ ∃ s, monitor.allowed (monitor.phase (.start job) t.trace) s c) ∨
      (t.result.isSome = true ∧ ∃ s, monitor.closing (monitor.phase (.start job) t.trace) s c))
    (performed : kit.exec w.shared id env c = some (shared, r)) :
    Made w (monitor.phase (.start job) t.trace) id env c r shared where
  standing := standing_of_lookup here
  inOrder := by
    rcases inOrder with ⟨-, s, h⟩ | ⟨-, s, h⟩
    · exact .inl h
    · exact .inr h
  performed := performed

/-- Changes from outside leave accounts, rows, windows and credits alone, but for a restart. -/
theorem change_cases (s : Installation) (a : Change) (hk : s.store.Keyed) (hs : Sync s) :
    Sync (s.change a) ∧ (kit.ends a = true ∨ ∀ φ, Facts s φ → Facts (s.change a) φ) := by
  cases a with
  | restart => exact ⟨sync_started hk, .inl rfl⟩
  | pause => exact ⟨hs.congr rfl rfl rfl rfl, .inr fun φ h ↦ h.congr rfl rfl rfl rfl⟩
  | groups ids => exact ⟨hs.grow (.of_accounts rfl), .inr fun φ h ↦ h.congr rfl rfl rfl rfl⟩
  | takeUp request status body =>
    have hsync : Sync (s.takenUp request status body) := ⟨hs.keyed, hs.filed, hs.copies, hs.gone⟩
    exact ⟨hsync, .inr fun φ h ↦ h.congr rfl rfl rfl rfl⟩

/-- What a move changes keeps an installation consistent. -/
theorem of_transition {m : Move} (h : w.Consistent) (ht : w.Transition m w')
    (hkept : Pool.Kept kit monitor Through Standing.start w') : w'.Consistent := by
  have howned := h.owned.step ht
  cases ht with
  | idle => exact h
  | @spawned id job new =>
    refine ⟨hkept, howned, fun i φ hi ↦ ?_, fun i φ hi ↦ ?_, h.sync⟩
    · rw [standing_insert] at hi
      split at hi
      · cases hi
        exact Standing.tidy_start job
      · exact h.tidy i φ hi
    · rw [standing_insert] at hi
      split at hi
      · cases hi
        exact (Standing.tidy_start job (Finset.notMem_empty _)).facts _
      · exact h.facts i φ hi
  | @called id env job t t' c r shared here inOrder performed trace result =>
    have hm := made here inOrder performed
    have hf := h.facts id _ hm.standing
    refine ⟨hkept, howned, fun i φ hi ↦ ?_, fun i φ hi ↦ ?_, h.sync.exec hf hm.inOrder performed⟩
    · rw [standing_insert, phase_cons trace] at hi
      split at hi
      · cases hi
        exact (h.tidy id _ hm.standing).next hm.inOrder r
      · exact h.tidy i φ hi
    · rw [standing_insert, phase_cons trace] at hi
      cases hc : Installation.reads c with
      | true =>
        obtain ⟨hs, ht⟩ := Installation.exec_reads hc performed
        split at hi
        · cases hi
          exact (hf.reads h.sync.keyed hc performed).congr (by rw [hs]) (by rw [ht]) (by rw [ht])
            (by rw [ht])
        · exact (h.facts i φ hi).congr (by rw [hs]) (by rw [ht]) (by rw [ht]) (by rw [ht])
      | false =>
        obtain ⟨hin, hmem⟩ := hm.holds hc
        split at hi
        · cases hi
          exact hf.writes h.sync.keyed hin hc performed
        · next hne => exact (h.blank hm.standing hmem hi hne).facts _
  | @moved id d job t t' here trace stays leaves =>
    have hsame : ∀ i, World.standing { w with tasks := w.tasks.insert id (job, t') } i =
        w.standing i := by
      intro i
      rw [standing_insert, trace]
      split
      · next hi => rw [hi, standing_of_lookup here]
      · rfl
    exact ⟨hkept, howned, fun i φ hi ↦ h.tidy i φ (hsame i ▸ hi),
      fun i φ hi ↦ h.facts i φ (hsame i ▸ hi), h.sync⟩
  | changed a =>
    obtain ⟨hsync, hfacts⟩ := change_cases w.shared a h.sync.keyed h.sync
    refine ⟨hkept, howned, fun i φ hi ↦ ?_, fun i φ hi ↦ ?_, hsync⟩
    · cases he : kit.ends a with
      | true =>
        rw [he] at hi
        cases hi
      | false =>
        rw [he] at hi
        exact h.tidy i φ hi
    · cases he : kit.ends a with
      | true =>
        rw [he] at hi
        cases hi
      | false =>
        rw [he] at hi
        exact hfacts.resolve_left (by rw [he]; nofun) φ (h.facts i φ hi)

/-- A move makes one of the listed changes, and keeps an installation consistent. -/
theorem step (h : w.Consistent) (m : Move) : w.Transition m (w.step m) ∧ (w.step m).Consistent :=
  have hs := Pool.step_transition disciplined h.kept m
  ⟨hs.1, h.of_transition hs.1 hs.2⟩

/-- A process starts consistent. -/
theorem new {store : AccountTables} (hs : Sound store) : (World.new store).Consistent where
  kept := fun id job t h ↦ nomatch h
  owned := fun key id ↦ by
    constructor
    · intro h
      cases h
    · rintro ⟨φ, h, -⟩
      cases h
  tidy := fun id φ h ↦ nomatch h
  facts := fun id φ h ↦ nomatch h
  sync := by
    have h := sync_started (s := (World.new store).shared) hs.keyed
    exact h

end Consistent

/-- What a process can reach is consistent. -/
theorem Reachable.consistent (h : w.Reachable) : w.Consistent := by
  obtain ⟨store, moves, hs, rfl⟩ := h
  exact run_invariant (P := World.Consistent) (fun _ m h ↦ (h.step m).2) moves (.new hs)

end World
end Xxgate.Accounts

import Xxgate.Access.Keys

/-!
# Settings in force and saves that race

The settings in force are valid and never go back to an older version, and they are the stored
ones whenever no handler is at work, unless one was dropped before it published. Of several
saves that were made from one version at most one takes effect, be it of the settings, of a
model or of the search price.
-/

namespace Xxgate.Access

open Xxgate.Base Xxgate.Base.FiniteMap Xxgate.Core Xxgate.Scheduling Xxgate.Store

/-! ### What a step does to the configuration -/

/-- What becomes of the configuration in one step. -/
inductive ConfigStep (t t' : ConfigTables) : Prop where
  | same (eq : t' = t)
  | begun (none : t.settings = none) (eq : t' = { t with settings := some ⟨1, .default⟩ })
  | settings {s next : Settings} {expected : Int}
      (saved : t.saveSettings s expected = .ok (t', next))
  | model {m : ModelSpec} {version : Int} {row : Versioned ModelSpec}
      (saved : t.putModel m version = .ok (t', row))
  | searchPrice {price next : SearchPrice} {skipped : Nat}
      (saved : t.putSearchPrice price skipped = .ok (t', next))

variable {s s' : Installation} {t t' : ConfigTables} {φ : Standing}

/-- A transaction on the configuration makes one of these steps when it succeeds in one. -/
theorem ConfigStep.configured {α : Type} {outcome : Outcome}
    {transaction : Result (ConfigTables × α)} {r : Result α}
    (h : s.configured outcome transaction = some (s', r))
    (hs : ∀ t a, transaction = .ok (t, a) → ConfigStep s.config t) :
    ConfigStep s.config s'.config := by
  rcases Installation.configured_cases h with ⟨rfl, -⟩ | ⟨t, a, ht, rfl, -⟩
  · exact .same rfl
  · exact hs t a ht

/-- A call on the lock does not touch the configuration. -/
theorem ConfigStep.locking {task : Nat} {op : LockOp Lock} {u : Unit}
    (h : s.locking task op = some (s', u)) : ConfigStep s.config s'.config := by
  obtain ⟨locks, -, he⟩ := Option.map_eq_some_iff.mp h
  cases he
  exact .same rfl

/-- Reading the settings makes one of these steps. -/
theorem ConfigStep.read {settings : Settings} (h : t.readSettings = (t', settings)) :
    ConfigStep t t' := by
  rcases ConfigTables.readSettings_cases h with ⟨row, -, rfl, -⟩ | ⟨hn, rfl, -⟩
  · exact .same rfl
  · exact .begun hn rfl

/-- Every call makes one of these steps. -/
theorem exec_configStep {task : Nat} {env : Env} {c : Call} {r : c.Reply}
    (he : s.exec task env c = some (s', r)) : ConfigStep s.config s'.config := by
  cases c with
  | lock | unlock | releaseAll => exact .locking he
  | groups | keys =>
    rw [(Installation.queried_cases he).1]
    exact .same rfl
  | createGroup | renameGroup | deleteGroup | putKey | setKeyEnabled | updateStoredKey
  | deleteKey =>
    rcases Installation.administered_cases he with ⟨rfl, -⟩ | ⟨t, a, -, rfl, -⟩
    · exact .same rfl
    · exact .same rfl
  | settings => exact .configured he fun t a ht ↦ .read (Except.ok.inj ht)
  | saveSettings settings expected => exact .configured he fun t a ht ↦ .settings ht
  | putModel model version => exact .configured he fun t a ht ↦ .model ht
  | putSearchPrice price => exact .configured he fun t a ht ↦ .searchPrice ht
  | _ =>
    cases he
    exact .same rfl

/-- Every change from outside makes one of the listed changes of the configuration. -/
theorem change_configStep (s : Installation) (a : Change) :
    ConfigStep s.config (s.change a).config := by
  cases a with
  | restart => exact .read (Prod.eta _).symm
  | pause | accountDeleted => exact .same rfl
  | accountGroups accountId ids =>
    show ConfigStep s.config (s.regrouped accountId ids).config
    unfold Installation.regrouped
    split
    · exact .same rfl
    · exact .same rfl

/-! ### Configurations as they are written -/

/-- Stored settings are valid and carry their version, and the serial column is ahead of the
search prices. -/
structure Ordered (t : ConfigTables) : Prop where
  valid : ∀ row, t.settings = some row → row.data.validate = .ok ()
  stamped : ∀ row, t.settings = some row → row.data.version = row.version
  serial : (t.searchPrices.map (·.version)).max?.getD 0 ≤ t.serial

/-- The tables of a new database are in order. -/
theorem Ordered.initial : Ordered .initial where
  valid := nofun
  stamped := nofun
  serial := le_refl _

namespace ConfigStep

private theorem ordered (h : ConfigStep t t') (ho : Ordered t) : Ordered t' := by
  cases h with
  | same eq =>
    rw [eq]
    exact ho
  | begun none eq =>
    rw [eq]
    refine ⟨fun row hrow ↦ ?_, fun row hrow ↦ ?_, ho.serial⟩
    · cases hrow
      exact Settings.default_valid
    · cases hrow
      rfl
  | settings saved =>
    obtain ⟨hvalid, -, rfl, rfl⟩ := ConfigTables.saveSettings_ok saved
    refine ⟨fun row hrow ↦ ?_, fun row hrow ↦ ?_, ho.serial⟩
    · cases hrow
      exact hvalid
    · cases hrow
      rfl
  | model saved =>
    obtain ⟨-, -, rfl⟩ := ConfigTables.putModel_ok saved
    exact ⟨ho.valid, ho.stamped, ho.serial⟩
  | searchPrice saved =>
    obtain ⟨-, -, rfl⟩ := ConfigTables.putSearchPrice_ok saved
    refine ⟨ho.valid, ho.stamped, ?_⟩
    have hle := ho.serial
    rw [List.map_cons, List.max?_cons]
    cases hmax : (t.searchPrices.map (·.version)).max? with
    | none => exact le_refl _
    | some v =>
      rw [hmax] at hle
      have hle : v ≤ t.serial := hle
      exact max_le (le_refl _) (by dsimp only; omega)

/-- The stored settings are the same or a later version. -/
theorem later (h : ConfigStep t t') {row : Versioned Settings} (hrow : t.settings = some row) :
    ∃ row', t'.settings = some row' ∧ (row' = row ∨ row.version < row'.version) := by
  cases h with
  | same eq => exact ⟨row, eq ▸ hrow, .inl rfl⟩
  | begun none eq => cases none.symm.trans hrow
  | settings saved =>
    obtain ⟨-, ⟨old, hold, rfl⟩, rfl, rfl⟩ := ConfigTables.saveSettings_ok saved
    cases hold.symm.trans hrow
    exact ⟨_, rfl, .inr (Int.lt_succ _)⟩
  | model saved =>
    obtain ⟨-, -, rfl⟩ := ConfigTables.putModel_ok saved
    exact ⟨row, hrow, .inl rfl⟩
  | searchPrice saved =>
    obtain ⟨-, -, rfl⟩ := ConfigTables.putSearchPrice_ok saved
    exact ⟨row, hrow, .inl rfl⟩

end ConfigStep

/-! ### The settings in force -/

/-- The stored settings are in force. -/
def Current (s : Installation) : Prop := ∃ row, s.config.settings = some row ∧ s.live = row.data

instance (s : Installation) : Decidable (Current s) :=
  decidable_of_iff (s.config.settings.map (·.data) = some s.live) (by
    rw [Option.map_eq_some_iff]
    exact exists_congr fun row ↦ and_congr_right fun _ ↦ eq_comm)

/-- A process starts with the stored settings in force. -/
theorem current_started (access : AccessTables) (config : ConfigTables) :
    Current (.started access config) := by
  rcases ConfigTables.readSettings_cases (Prod.eta config.readSettings).symm with
    ⟨row, hrow, htables, hlive⟩ | ⟨-, htables, hlive⟩
  · exact ⟨row, (congrArg ConfigTables.settings htables).trans hrow, hlive⟩
  · exact ⟨⟨1, .default⟩, congrArg ConfigTables.settings htables, hlive⟩

/-- The settings in force are valid and were stored, and no later ones than the stored ones. -/
def InForce (s : Installation) : Prop :=
  s.live.validate = .ok () ∧ ∃ row, s.config.settings = some row ∧
    (s.live = row.data ∨ s.live.version < row.version)

/-- The stored settings are valid, and none were stored later. -/
theorem Current.inForce (h : Current s) (ho : Ordered s.config) : InForce s := by
  obtain ⟨row, hrow, hl⟩ := h
  exact ⟨by rw [hl]; exact ho.valid row hrow, row, hrow, .inl hl⟩

/-- The stored settings are no earlier ones than those in force. -/
theorem InForce.le (h : InForce s) (ho : Ordered s.config) {row : Versioned Settings}
    (hrow : s.config.settings = some row) : s.live.version ≤ row.data.version := by
  obtain ⟨-, row', hrow', hold⟩ := h
  cases hrow.symm.trans hrow'
  rcases hold with he | hlt
  · rw [he]
  · exact hlt.le.trans (ho.stamped row hrow).ge

/-- A later version leaves those in force behind. -/
theorem InForce.step (h : InForce s) (ho : Ordered s.config) (hl : s'.live = s.live)
    (hc : ConfigStep s.config s'.config) : InForce s' := by
  obtain ⟨hv, row, hrow, hold⟩ := h
  obtain ⟨row', hrow', hnew⟩ := hc.later hrow
  refine ⟨by rw [hl]; exact hv, row', hrow', ?_⟩
  rw [hl]
  rcases hnew with rfl | hlt
  · exact hold
  · refine .inr ?_
    rcases hold with he | hold
    · rw [he, ho.stamped row hrow]
      exact hlt
    · exact hold.trans hlt

/-- Only publishing changes the settings in force. -/
theorem exec_live {task : Nat} {env : Env} {c : Call} {r : c.Reply}
    (he : s.exec task env c = some (s', r)) :
    s'.live = s.live ∨ ∃ settings, c = .publish settings ∧ s' = { s with live := settings } := by
  cases c with
  | lock | unlock | releaseAll =>
    obtain ⟨locks, -, he⟩ := Option.map_eq_some_iff.mp (show s.locking task _ = _ from he)
    cases he
    exact .inl rfl
  | groups | keys =>
    rw [(Installation.queried_cases he).1]
    exact .inl rfl
  | createGroup | renameGroup | deleteGroup | putKey | setKeyEnabled | updateStoredKey
  | deleteKey =>
    rcases Installation.administered_cases he with ⟨rfl, -⟩ | ⟨t, a, -, rfl, -⟩
    · exact .inl rfl
    · exact .inl rfl
  | settings | saveSettings | putModel | putSearchPrice =>
    rcases Installation.configured_cases he with ⟨rfl, -⟩ | ⟨t, a, -, rfl, -⟩
    · exact .inl rfl
    · exact .inl rfl
  | publish settings =>
    cases he
    exact .inr ⟨settings, rfl, rfl⟩
  | _ =>
    cases he
    exact .inl rfl

namespace World

variable {w : World}

/-- Every move makes one of the listed steps. -/
theorem Consistent.configStep (h : w.Consistent) (m : Move) :
    ConfigStep w.shared.config (w.step m).shared.config := by
  have hs : ∀ w', Pool.Transition kit monitor Standing.start w m w' →
      ConfigStep w.shared.config w'.shared.config := by
    intro w' ht
    cases ht with
    | idle | spawned | moved => exact .same rfl
    | called here inOrder performed trace result => exact exec_configStep performed
    | changed a => exact change_configStep w.shared a
  exact hs _ (Pool.step_transition disciplined h.kept m).1

/-- Every move keeps the configuration ordered and the settings in force valid, and does not take
them back. -/
theorem Consistent.inForce (h : w.Consistent) (ho : Ordered w.shared.config)
    (hi : InForce w.shared) (m : Move) : Ordered (w.step m).shared.config ∧
      InForce (w.step m).shared ∧ w.shared.live.version ≤ (w.step m).shared.live.version := by
  have hs : ∀ w', Pool.Transition kit monitor Standing.start w m w' →
      Ordered w'.shared.config ∧ InForce w'.shared ∧
        w.shared.live.version ≤ w'.shared.live.version := by
    intro w' ht
    cases ht with
    | idle | spawned | moved => exact ⟨ho, hi, le_refl _⟩
    | @called id env job t t' c r shared here inOrder performed trace result =>
      have hc := exec_configStep performed
      refine ⟨hc.ordered ho, ?_⟩
      rcases exec_live performed with hl | ⟨settings, rfl, rfl⟩
      · exact ⟨hi.step ho hl hc, hl ▸ le_refl _⟩
      · -- what is published is what is stored
        have hin : (monitor.phase (Standing.start job) t.trace).InOrder (.publish settings) := by
          rcases inOrder with ⟨-, _, hin⟩ | ⟨-, _, hcl⟩
          · exact hin
          · cases hcl
        have hd := h.knows id _ (Pool.phase_of_lookup here) hin.1
        rw [hin.2] at hd
        obtain ⟨row, hrow, rfl⟩ := hd
        exact ⟨Current.inForce ⟨row, hrow, rfl⟩ ho, hi.le ho hrow⟩
    | changed a =>
      have hc := change_configStep w.shared a
      refine ⟨hc.ordered ho, ?_⟩
      cases a with
      | restart =>
        have hcur := current_started w.shared.access w.shared.config
        refine ⟨hcur.inForce (hc.ordered ho), ?_⟩
        obtain ⟨row, hrow, -⟩ := hi.2
        have hread : w.shared.config.readSettings = (w.shared.config, row.data) := by
          unfold ConfigTables.readSettings
          rw [hrow]
        have hlive : (Installation.started w.shared.access w.shared.config).live = row.data :=
          congrArg Prod.snd hread
        exact (hi.le ho hrow).trans (congrArg (·.version) hlive).ge
      | pause | accountDeleted => exact ⟨hi.step ho rfl hc, le_refl _⟩
      | accountGroups accountId ids =>
        have hl : (w.shared.regrouped accountId ids).live = w.shared.live := by
          unfold Installation.regrouped
          split
          · rfl
          · rfl
        exact ⟨hi.step ho hl hc, (congrArg (·.version) hl).ge⟩
  exact hs _ (Pool.step_transition disciplined h.kept m).1

/-- A process starts with the stored settings in force. -/
theorem inForce_new {access : AccessTables} {config : ConfigTables} (ho : Ordered config) :
    Ordered (World.new access config).shared.config ∧
      InForce (World.new access config).shared := by
  have hc : ConfigStep config (World.new access config).shared.config :=
    .read (Prod.eta _).symm
  exact ⟨hc.ordered ho, (current_started access config).inForce (hc.ordered ho)⟩

/-- Everything known of an installation's settings holds after any moves. -/
theorem inForce_run {access : AccessTables} {config : ConfigTables} (hk : access.Keyed)
    (ho : Ordered config) (moves : List Move) :
    (run World.step (.new access config) moves).Consistent ∧
      Ordered (run World.step (.new access config) moves).shared.config ∧
      InForce (run World.step (.new access config) moves).shared :=
  run_invariant
    (P := fun w : World ↦ w.Consistent ∧ Ordered w.shared.config ∧ InForce w.shared)
    (fun _ m h ↦ ⟨h.1.step m, (h.1.inForce h.2.1 h.2.2 m).1, (h.1.inForce h.2.1 h.2.2 m).2.1⟩)
    moves ⟨.new hk, inForce_new ho⟩

/-- **Settings never go back.** Whatever handlers ran, were dropped or lost an answer, and
however often the process was restarted: the settings in force are valid, they are the stored
ones or of an earlier version, and no later state has an earlier version of them in force. -/
theorem settings_in_force {access : AccessTables} {config : ConfigTables} (hk : access.Keyed)
    (ho : Ordered config) (moves later : List Move) :
    InForce (run World.step (.new access config) moves).shared ∧
    (run World.step (.new access config) moves).shared.live.version ≤
      (run World.step (.new access config) (moves ++ later)).shared.live.version := by
  obtain ⟨h, ho, hi⟩ := inForce_run hk ho moves
  refine ⟨hi, ?_⟩
  rw [run_append]
  have hinv : (run World.step (run World.step (.new access config) moves) later).Consistent ∧
      Ordered (run World.step (run World.step (.new access config) moves) later).shared.config ∧
      InForce (run World.step (run World.step (.new access config) moves) later).shared ∧
      (run World.step (.new access config) moves).shared.live.version ≤
        (run World.step (run World.step (.new access config) moves) later).shared.live.version :=
    run_invariant (P := fun w : World ↦ w.Consistent ∧ Ordered w.shared.config ∧
        InForce w.shared ∧ (run World.step (.new access config) moves).shared.live.version ≤
          w.shared.live.version)
      (fun _ m h ↦ by
        obtain ⟨h, ho, hi, hv⟩ := h
        obtain ⟨ho', hi', hv'⟩ := h.inForce ho hi m
        exact ⟨h.step m, ho', hi', hv.trans hv'⟩) later ⟨h, ho, hi, le_refl _⟩
  exact hinv.2.2.2

/-- The settings are saved, and saved again from the version they had. -/
theorem settings_in_force_sample :
    InForce (run World.step (.new (.initial id) .initial) Sample.saved).shared ∧
    (run World.step (.new (.initial id) .initial) Sample.saved).shared.live.version ≤
      (run World.step (.new (.initial id) .initial)
        (Sample.saved ++ [.change .restart])).shared.live.version :=
  settings_in_force (Sound.initial id).keyed .initial Sample.saved [.change .restart]

end World

/-! ### Agreement with the store -/

/-- Settings were or may have been written, and are to be published. -/
def Duty.Unpublished : Duty → Prop
  | .unsettled | .settled _ => True
  | _ => False

instance : (d : Duty) → Decidable d.Unpublished
  | .unsettled | .settled _ => .isTrue trivial
  | .clear | .blocked _ | .written _ | .deleted _ | .doubtful _ | .reloaded _ => .isFalse id

private theorem Duty.Done.published {d : Duty} (h : d.Done) : ¬ d.Unpublished := by
  cases d with
  | clear | reloaded => exact id
  | _ => cases h

/-- In the critical section the stored settings are in force, or the task has them to publish, or
nothing is dispatched. -/
theorem current_exec {task : Nat} {env : Env} {c : Call} {r : c.Reply} (hf : Facts s φ)
    (hm : .mutations ∈ φ.held) (hin : φ.InOrder c) (he : s.exec task env c = some (s', r))
    (h : Current s ∨ φ.duty.Unpublished) :
    (Current s' ∨ (φ.next c r).duty.Unpublished) ∨ s'.sched.paused = true := by
  have hd := hf hm
  -- calls on keys and groups find nothing to publish
  have hclear : ¬ φ.duty.Unpublished → s'.live = s.live →
      s'.config.settings = s.config.settings →
      (Current s' ∨ (φ.next c r).duty.Unpublished) ∨ s'.sched.paused = true := by
    intro hn hl hs
    obtain ⟨row, hrow, hlive⟩ := h.resolve_right hn
    exact .inl (.inl ⟨row, hs.trans hrow, hl.trans hlive⟩)
  have hadministered : ∀ {α : Type} {transaction : Result (AccessTables × α)} {r : Result α},
      s.administered env.outcome transaction = some (s', r) →
      s'.live = s.live ∧ s'.config.settings = s.config.settings := by
    intro α transaction r he
    rcases Installation.administered_cases he with ⟨rfl, -⟩ | ⟨t, a, -, rfl, -⟩
    · exact ⟨rfl, rfl⟩
    · exact ⟨rfl, rfl⟩
  cases c with
  | consult q =>
    cases he
    exact .inl h
  | lock l =>
    cases l
    exact absurd hm hin
  | unlock l =>
    obtain ⟨locks, -, he⟩ := Option.map_eq_some_iff.mp (show s.locking task _ = _ from he)
    cases he
    exact hclear hin.2.published rfl rfl
  | releaseAll => exact False.elim hin
  | setPaused =>
    cases he
    exact .inr rfl
  | publish settings =>
    cases he
    rw [hin.2] at hd
    obtain ⟨row, hrow, rfl⟩ := hd
    exact .inl (.inl ⟨row, hrow, rfl⟩)
  | blockKey i =>
    cases he
    exact hclear (by rw [hin.2]; exact id) rfl rfl
  | updateKey key =>
    cases he
    refine hclear ?_ rfl rfl
    rcases hin.2 with hw | ⟨rest, hw⟩
    · rw [hw]
      exact id
    · rw [hw]
      exact id
  | removeKey i =>
    cases he
    exact hclear (by rw [hin.2]; exact id) rfl rfl
  | groups =>
    rw [(Installation.queried_cases he).1]
    exact .inl h
  | keys =>
    obtain ⟨-, i, hdoubt⟩ := hin
    have hs' := (Installation.queried_cases he).1
    exact hclear (by rw [hdoubt]; exact id) (by rw [hs']) (by rw [hs'])
  | createGroup i name | renameGroup i name | deleteGroup i | putKey key name hash
  | setKeyEnabled i enabled | updateStoredKey i name groupId | deleteKey i =>
    obtain ⟨hl, hs⟩ := hadministered he
    exact hclear (by rw [hin.2]; exact id) hl hs
  | settings =>
    left
    right
    rcases r with x | a
    · show φ.duty.Unpublished
      rw [hin.2]
      trivial
    · trivial
  | saveSettings settings expected =>
    left
    right
    rcases r with x | a
    · trivial
    · trivial
  | putModel model version =>
    rcases Installation.configured_cases he with ⟨rfl, -⟩ | ⟨t, a, ht, rfl, -⟩
    · exact .inl h
    · refine hclear (by rw [hin.2]; exact id) rfl ?_
      rw [(ConfigTables.putModel_ok ht).2.2]
  | putSearchPrice price =>
    rcases Installation.configured_cases he with ⟨rfl, -⟩ | ⟨t, a, ht, rfl, -⟩
    · exact .inl h
    · obtain ⟨-, -, rfl⟩ := ConfigTables.putSearchPrice_ok ht
      exact .inl (h.imp_left fun h ↦ h)

namespace World

variable {w : World}

/-- No task is dropped that has settings to publish, unless they are in force. -/
def Published (w : World) (m : Move) : Prop :=
  ∀ task ∈ m.dropped, ∀ φ ∈ w.active task, φ.duty.Unpublished → Current w.shared

instance (w : World) (m : Move) : Decidable (Published w m) :=
  inferInstanceAs (Decidable
    (∀ task ∈ m.dropped, ∀ φ ∈ w.active task, φ.duty.Unpublished → Current w.shared))

/-- The settings are those of the store, or nothing is dispatched. -/
def Quiet (s : Installation) (_ : Unit) : Prop := s.sched.paused = true ∨ Current s

/-- The task is to publish settings. -/
def Unpublished (φ : Standing) (_ : Unit) : Prop := .mutations ∈ φ.held ∧ φ.duty.Unpublished

/-- A task that has settings to publish keeps the lock over every call. -/
theorem next_held_unpublished {φ : Standing} {c : Call} {r : c.Reply} (hm : .mutations ∈ φ.held)
    (hd : (φ.next c r).duty.Unpublished) : .mutations ∈ (φ.next c r).held := by
  have hnext := locking.next φ c r
  cases c with
  | lock | unlock | releaseAll => exact False.elim hd
  | _ =>
    have hheld : (φ.next _ r).held = φ.held := hnext
    rw [hheld]
    exact hm

/-- The stored settings are in force, or a task at work is to publish them. -/
theorem Consistent.quiet (h : w.Consistent) {m : Move} (hm : w.Published m)
    (hc : w.Covered monitor Standing.start Quiet Unpublished ()) :
    (w.step m).Covered monitor Standing.start Quiet Unpublished () := by
  refine hc.step disciplined h.kept m ?_ ?_ ?_ ?_ ?_ ?_
  · rintro task env φ c r shared rfl hφ hcall ⟨_, hin⟩ he hp
    have hin : φ.InOrder c := hin
    by_cases hheld : .mutations ∈ φ.held
    · have hcur : w.shared.sched.paused = true ∨ Current w.shared ∨ φ.duty.Unpublished := by
        rcases hp with (hp | hp) | hp
        · exact .inl hp
        · exact .inr (.inl hp)
        · exact .inr (.inr hp.2)
      rcases hcur with hp | hcur
      · exact .inl (.inl (exec_paused he hp))
      · rcases current_exec (h.knows task φ (Pool.phase_of_active hφ)) hheld hin he hcur with
          (hc | hd) | hp
        · exact .inl (.inr hc)
        · exact .inr ⟨next_held_unpublished hheld hd, hd⟩
        · exact .inl (.inl hp)
    · have hu := exec_free (.inl hin) hheld he
      refine .inl ((hp.resolve_right fun ho ↦ hheld ho.1).imp (exec_paused he) ?_)
      rintro ⟨row, hrow, hl⟩
      refine ⟨row, hu.settings.trans hrow, ?_⟩
      rcases exec_live he with hlive | ⟨settings, rfl, -⟩
      · exact hlive.trans hl
      · exact absurd hin.1 hheld
  · rintro task env φ s c r shared rfl he hp
    obtain ⟨locks, -, he⟩ := Option.map_eq_some_iff.mp
      (show w.shared.locking task .releaseAll = some (shared, r) from he)
    cases he
    exact hp
  · intro task φ hφ hexit ho
    have hexit : φ.held = ∅ := hexit
    have hheld := ho.1
    rw [hexit] at hheld
    cases hheld
  · rintro task x φ rfl hφ ho
    exact .inr (hm task rfl φ hφ ho.2)
  · rintro a rfl he
    cases a with
    | restart => exact .inr (current_started w.shared.access w.shared.config)
    | _ => cases he
  · rintro a - he hp
    cases a with
    | restart => cases he
    | pause => exact .inl rfl
    | accountDeleted accountId => exact hp
    | accountGroups accountId ids =>
      show Quiet (w.shared.regrouped accountId ids) ()
      unfold Installation.regrouped
      split
      · exact hp
      · exact hp

/-- **The settings follow the store.** Over any moves in which no task is dropped that still has
settings to publish, whatever becomes of the calls: whenever nobody has the lock and dispatch
is not paused, the settings in force are the stored ones. -/
theorem settings_agree {access : AccessTables} {config : ConfigTables} (hk : access.Keyed)
    {moves : List Move}
    (ha : Along World.step Published (.new access config) moves)
    (hfree : (run World.step (.new access config) moves).shared.locks.lookup .mutations = none)
    (hrunning : (run World.step (.new access config) moves).shared.sched.paused = false) :
    Current (run World.step (.new access config) moves).shared := by
  have hnew : (World.new access config).Covered monitor Standing.start Quiet Unpublished () :=
    .inl (.inr (current_started access config))
  have hinv := run_invariant_along
    (P := fun w : World ↦ w.Consistent ∧ w.Covered monitor Standing.start Quiet Unpublished ())
    (fun _ m h hm ↦ ⟨h.1.step m, h.1.quiet hm h.2⟩) ⟨.new hk, hnew⟩ ha
  obtain ⟨h, (hp | hcur) | ⟨task, φ, hφ, hheld, -⟩⟩ := hinv
  · cases hrunning.symm.trans hp
  · exact hcur
  · exact absurd hheld (h.owned.free (l := locking) hfree (Pool.phase_of_active hφ))

/-- The answer to the save is lost and the settings cannot be read back at first. -/
theorem settings_agree_sample :
    Current (run World.step (.new (.initial id) .initial) Sample.doubted).shared :=
  settings_agree (Sound.initial id).keyed (by decide +kernel) (by decide +kernel)
    (by decide +kernel)

end World

/-! ### Saves that race -/

/-- What a save names as what it was made from. -/
inductive Base where
  | settings (version : Int)
  | model (id : String) (version : Int)
  | searchPrice (version : Int)
  deriving DecidableEq

/-- What a save was made from, if the store accepts it. -/
def Call.accepted (t : ConfigTables) (skipped : Nat) : Call → Option Base
  | .saveSettings input expected =>
    if (t.saveSettings input expected).isOk then some (.settings expected) else none
  | .putModel model version =>
    if (t.putModel model version).isOk then some (.model model.id version) else none
  | .putSearchPrice price =>
    if (t.putSearchPrice price skipped).isOk then some (.searchPrice price.version) else none
  | _ => none

/-- Something was saved that was made from a later version. -/
def Past (t : ConfigTables) : Base → Prop
  | .settings v => ∃ row, t.settings = some row ∧ v < row.version
  | .model id v => ∃ row, t.models.lookup id = some row ∧ v < row.version
  | .searchPrice v => ∃ p ∈ t.searchPrices, v < p.version

/-- The newest search price is a newest one. -/
theorem version_le_newest {t : ConfigTables} {p : Versioned SearchPrice}
    (hp : p ∈ t.searchPrices) : p.version ≤ (t.searchPrices.map (·.version)).max?.getD 0 := by
  have hmem : p.version ∈ t.searchPrices.map (·.version) := List.mem_map_of_mem hp
  obtain ⟨v, hv⟩ := Option.isSome_iff_exists.mp (List.isSome_max?_of_mem hmem)
  rw [hv]
  exact (List.max?_le_iff hv).mp (le_refl v) _ hmem

/-- What is past stays past. -/
theorem ConfigStep.past (h : ConfigStep t t') {b : Base} (hp : Past t b) : Past t' b := by
  cases h with
  | same eq => exact eq ▸ hp
  | begun none eq =>
    cases b with
    | settings v =>
      obtain ⟨row, hrow, -⟩ := hp
      cases none.symm.trans hrow
    | model | searchPrice =>
      rw [eq]
      exact hp
  | settings saved =>
    obtain ⟨-, ⟨old, hold, rfl⟩, rfl, rfl⟩ := ConfigTables.saveSettings_ok saved
    cases b with
    | settings v =>
      obtain ⟨row, hrow, hv⟩ := hp
      cases hold.symm.trans hrow
      exact ⟨_, rfl, hv.trans (Int.lt_succ _)⟩
    | model | searchPrice => exact hp
  | @model m version row saved =>
    obtain ⟨hver, rfl, rfl⟩ := ConfigTables.putModel_ok saved
    cases b with
    | model id v =>
      obtain ⟨row, hrow, hv⟩ := hp
      show ∃ row, (t.models.insert m.id _).lookup id = some row ∧ v < row.version
      rw [lookup_insert_ite]
      split
      · next hid =>
        rw [← hid, hrow] at hver
        refine ⟨_, rfl, ?_⟩
        rw [← hver]
        exact hv.trans (Int.lt_succ _)
      · exact ⟨row, hrow, hv⟩
    | settings | searchPrice => exact hp
  | searchPrice saved =>
    obtain ⟨-, -, rfl⟩ := ConfigTables.putSearchPrice_ok saved
    cases b with
    | searchPrice v =>
      obtain ⟨p, hmem, hv⟩ := hp
      exact ⟨p, List.mem_cons_of_mem _ hmem, hv⟩
    | settings | model => exact hp

/-- An accepted save is one whose transaction succeeds. -/
theorem Call.accepted_cases {skipped : Nat} {c : Call} {b : Base}
    (h : c.accepted t skipped = some b) :
    (∃ input expected t' next, c = .saveSettings input expected ∧ b = .settings expected ∧
      t.saveSettings input expected = .ok (t', next)) ∨
    (∃ m version t' row, c = .putModel m version ∧ b = .model m.id version ∧
      t.putModel m version = .ok (t', row)) ∨
    ∃ price t' next, c = .putSearchPrice price ∧ b = .searchPrice price.version ∧
      t.putSearchPrice price skipped = .ok (t', next) := by
  unfold Call.accepted at h
  split at h
  · next input expected =>
    cases hs : t.saveSettings input expected with
    | error x =>
      rw [hs] at h
      cases h
    | ok a =>
      rw [hs] at h
      cases h
      exact .inl ⟨input, expected, a.1, a.2, rfl, rfl, hs⟩
  · next m version =>
    cases hs : t.putModel m version with
    | error x =>
      rw [hs] at h
      cases h
    | ok a =>
      rw [hs] at h
      cases h
      exact .inr (.inl ⟨m, version, a.1, a.2, rfl, rfl, hs⟩)
  · next price =>
    cases hs : t.putSearchPrice price skipped with
    | error x =>
      rw [hs] at h
      cases h
    | ok a =>
      rw [hs] at h
      cases h
      exact .inr (.inr ⟨price, a.1, a.2, rfl, rfl, hs⟩)
  · cases h

/-- What is past is not accepted again. -/
theorem Past.not_accepted {skipped : Nat} {c : Call} {b : Base} (hp : Past t b) :
    c.accepted t skipped ≠ some b := by
  intro ha
  rcases Call.accepted_cases ha with ⟨input, expected, t', next, -, rfl, hs⟩ |
    ⟨m, version, t', row, -, rfl, hs⟩ | ⟨price, t', next, -, rfl, hs⟩
  · obtain ⟨-, ⟨old, hold, hver⟩, -, -⟩ := ConfigTables.saveSettings_ok hs
    obtain ⟨row, hrow, hv⟩ := hp
    cases hold.symm.trans hrow
    exact absurd hver hv.ne'
  · obtain ⟨hver, -, -⟩ := ConfigTables.putModel_ok hs
    obtain ⟨row, hrow, hv⟩ := hp
    rw [hrow] at hver
    exact absurd hver hv.ne'
  · obtain ⟨hver, -, -⟩ := ConfigTables.putSearchPrice_ok hs
    obtain ⟨p, hmem, hv⟩ := hp
    exact absurd (hver ▸ version_le_newest hmem) (not_le.mpr hv)

/-- A transaction that does not fail takes effect, whether it is answered or not. -/
theorem Installation.configured_effect {α : Type} {t : ConfigTables} {a : α} {outcome : Outcome}
    {transaction : Result (ConfigTables × α)} (ht : transaction = .ok (t, a))
    (ho : outcome ≠ .failed) :
    ∃ r, s.configured outcome transaction = some ({ s with config := t }, r) := by
  subst ht
  cases outcome with
  | answered | lost => exact ⟨_, rfl⟩
  | failed => exact absurd rfl ho

namespace World

variable {w : World}

/-- What the save was made from that takes effect in a move. -/
def accepted (w : World) : Move → Option Base
  | .drive id (.perform env) =>
    if env.outcome = .failed then none
    else (w.calling id).bind (Call.accepted w.shared.config env.skipped)
  | _ => none

/-- What a save that takes effect was made from is past. -/
theorem past_of_accepted (ho : Ordered w.shared.config) {m : Move} {b : Base}
    (ha : w.accepted m = some b) : Past (w.step m).shared.config b := by
  unfold accepted at ha
  split at ha
  swap
  · cases ha
  next id env =>
  split at ha
  · cases ha
  next hout =>
  obtain ⟨c, hc, ha⟩ := Option.bind_eq_some_iff.mp ha
  rcases Call.accepted_cases ha with ⟨input, expected, t', next, rfl, rfl, hs⟩ |
    ⟨m, version, t', row, rfl, rfl, hs⟩ | ⟨price, t', next, rfl, rfl, hs⟩
  · obtain ⟨r, hr⟩ := Installation.configured_effect (s := w.shared) hs hout
    rw [Pool.shared_of_calling (k := kit) hc hr]
    obtain ⟨-, -, rfl, rfl⟩ := ConfigTables.saveSettings_ok hs
    exact ⟨_, rfl, Int.lt_succ _⟩
  · obtain ⟨r, hr⟩ := Installation.configured_effect (s := w.shared) hs hout
    rw [Pool.shared_of_calling (k := kit) hc hr]
    obtain ⟨-, rfl, rfl⟩ := ConfigTables.putModel_ok hs
    refine ⟨⟨version + 1, m⟩, ?_, Int.lt_succ _⟩
    exact (lookup_insert_ite _ _ _ _).trans (if_pos rfl)
  · obtain ⟨r, hr⟩ := Installation.configured_effect (s := w.shared) hs hout
    rw [Pool.shared_of_calling (k := kit) hc hr]
    obtain ⟨hver, -, rfl⟩ := ConfigTables.putSearchPrice_ok hs
    refine ⟨_, List.mem_cons_self, ?_⟩
    have hle := ho.serial
    rw [hver] at hle
    show price.version < w.shared.config.serial + env.skipped + 1
    omega

/-- **No update is lost.** Of all the saves that were ever made from one version of the settings,
of a model or of the search price, at most one takes effect, in whatever order the handlers
run and whether or not the store answers them. -/
theorem no_lost_update {access : AccessTables} {config : ConfigTables} (hk : access.Keyed)
    (ho : Ordered config) (moves : List Move) (b : Base) :
    (outputs World.step accepted (.new access config) moves).count b ≤ 1 := by
  refine count_outputs_le_one
    (I := fun w : World ↦ w.Consistent ∧ Ordered w.shared.config)
    (P := fun w : World ↦ Past w.shared.config b) ?_ ?_ ?_ ⟨.new hk, (inForce_new ho).1⟩
    (.always World.step _ moves)
  · exact fun w m h ↦ ⟨h.1.step m, (h.1.configStep m).ordered h.2⟩
  · exact fun w m h _ ha ↦ past_of_accepted h.2 ha
  · intro w m h hp _
    refine ⟨fun ha ↦ ?_, (h.1.configStep m).past hp⟩
    unfold accepted at ha
    split at ha
    · split at ha
      · cases ha
      · obtain ⟨c, -, ha⟩ := Option.bind_eq_some_iff.mp ha
        exact hp.not_accepted ha
    · cases ha

/-- Two handlers save the settings from version 1. -/
theorem no_lost_update_sample :
    (outputs World.step accepted (.new (.initial id) .initial) Sample.saved).count
      (.settings 1) ≤ 1 :=
  no_lost_update (Sound.initial id).keyed .initial Sample.saved (.settings 1)

end World
end Xxgate.Access

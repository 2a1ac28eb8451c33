import Xxgate.Base.StableSort
import Xxgate.Core.Json
import Xxgate.Core.Protocol
import Xxgate.Scheduling.Spec

/-!
# The public catalogue

`crates/xxgate-server/src/http/public_models.rs:37–76`. The models a group's keys are shown,
each with the capabilities one account reports for it, and that a request for a model that is
shown is not turned away from the queue. An account is sorted by the rank of its plan, which is
looked up elsewhere, and by its id.
-/

namespace Xxgate.Scheduling

open Xxgate.Base Xxgate.Core

/-- `providers.rs:6`: a model of an upstream catalogue, with the upstream's own object. -/
structure DiscoveredModel where
  id : String
  raw : Option Json

/-- An account with its whole catalogue, of which its other readers read the ids. -/
structure CatalogAccount extends Account where
  discovered : Option (List DiscoveredModel)
  listed : discovered.map (·.map (·.id)) = modelCatalog.map (·.models)

namespace PublicModels

/-- `public_models.rs:37`. -/
def eligible (account : Account) (groupId : Uuid) (source : ClientSource) : Bool :=
  account.enabled && account.groupIds.contains groupId && account.accepts source

/-- `public_models.rs:41`. -/
def capability (account : CatalogAccount) (model : ModelSpec) : Option Json :=
  if !model.enabled || !account.supports model.upstream then none
  else do
    let models ← account.discovered
    let entry ← models.find? (·.id == model.upstream.model)
    entry.raw.filter (·.isObject)

/-- `public_models.rs:73`: the field of an object is set. -/
def setSlug (raw : Json) (id : String) : Json :=
  match raw with
  | .obj fields => .obj (Json.insert fields "slug" (.str id))
  | other => other

/-- `public_models.rs:62`: what the accounts are sorted by. -/
def sortKey (account : UInt8 × CatalogAccount) : Nat ×ₗ Uuid :=
  toLex (account.1.toNat, account.2.id)

/-- `public_models.rs:65–74`: what is shown of a model, from the accounts in order. -/
def shown (accounts : List (UInt8 × CatalogAccount)) (groupId : Uuid) (source : ClientSource)
    (model : ModelSpec) : Option Json := do
  let raw ← (accounts.filter (eligible ·.2.toAccount groupId source)).findSome? fun account ↦
    capability account.2 model
  return setSlug raw model.id

/-- `public_models.rs:56`. -/
def select (accounts : List (UInt8 × CatalogAccount)) (groupId : Uuid) (source : ClientSource)
    (models : List ModelSpec) : List Json :=
  models.filterMap (shown (sortByKey sortKey accounts) groupId source)

/-! ### What is shown -/

/-- The account can serve the model, and the first entry of its catalogue under the upstream name
is an object. -/
structure Offers (groupId : Uuid) (source : ClientSource) (model : ModelSpec)
    (account : CatalogAccount) (fields : List (String × Json)) : Prop where
  enabled : account.enabled = true
  member : groupId ∈ account.groupIds
  accepts : account.accepts source = true
  supports : account.supports model.upstream = true
  entry : ∃ models entry, account.discovered = some models ∧
    models.find? (·.id == model.upstream.model) = some entry ∧ entry.raw = some (.obj fields)

/-- In this state the account is present and not blocked. -/
def Unblocked (s : State) (account : Account) : Prop :=
  ∃ k, s.accounts.lookup k = some account ∧ account.id ∉ s.blocked

/-- The session is fresh and of a valid key of the group. -/
structure Fresh (s : State) (session : SessionKey) (groupId : Uuid) : Prop where
  unbound : s.bindings.lookup session = none
  unblocked : session.keyId ∉ s.blockedKeys
  key : ∃ key, s.keys.lookup session.keyId = some key ∧ key.enabled = true ∧
    key.groupId = groupId

/-- A request of a fresh session is turned away from the queue only for lack of room. -/
def Admitted (s : State) (groupId : Uuid) (model : ModelRef) (source : ClientSource) : Prop :=
  ∀ thread : ThreadKey, Fresh s thread.session groupId → ∀ cfg id since e,
    s.enqueue cfg id thread groupId model source since = .error e →
      cfg.queueCapacity ≤ s.queued ∧
        e = ⟨429, "queue_full", "The queue has reached its configured capacity"⟩

/-- What is shown of each model: something exactly when the model is enabled and some account
offers it, and then the object of the least such account with its own slug. -/
structure Shows (accounts : List (UInt8 × CatalogAccount)) (groupId : Uuid)
    (source : ClientSource) (entry : ModelSpec → Option Json) : Prop where
  isSome : ∀ model, (entry model).isSome = true ↔
    model.enabled = true ∧ ∃ a ∈ accounts, ∃ fields, Offers groupId source model a.2 fields
  least : ∀ model value, entry model = some value → ∃ a ∈ accounts, ∃ fields,
    Offers groupId source model a.2 fields ∧
    value = .obj (Json.insert fields "slug" (.str model.id)) ∧
    ∀ a' ∈ accounts, (∃ fields', Offers groupId source model a'.2 fields') →
      sortKey a ≤ sortKey a'
  admitted : ∀ model, (entry model).isSome = true → ∀ s : State, s.paused = false →
    (∀ a ∈ accounts, Unblocked s a.2.toAccount) → Admitted s groupId model.upstream source

section

variable {accounts : List (UInt8 × CatalogAccount)} {account : CatalogAccount} {groupId : Uuid}
  {source : ClientSource} {model : ModelSpec}

/-- An account has a capability exactly for an enabled model it supports and has an object for. -/
theorem capability_eq_some {raw : Json} : capability account model = some raw ↔
    model.enabled = true ∧ account.supports model.upstream = true ∧
      ∃ fields, raw = .obj fields ∧ ∃ models entry, account.discovered = some models ∧
        models.find? (·.id == model.upstream.model) = some entry ∧
        entry.raw = some (.obj fields) := by
  unfold capability
  split
  · next hrefused =>
    rw [Bool.or_eq_true, Bool.not_eq_true', Bool.not_eq_true'] at hrefused
    refine iff_of_false nofun fun h ↦ ?_
    rw [h.1, h.2.1] at hrefused
    exact hrefused.elim nofun nofun
  · next hallowed =>
    rw [Bool.or_eq_true, not_or, Bool.not_eq_true', Bool.not_eq_true', Bool.not_eq_false,
      Bool.not_eq_false] at hallowed
    rw [and_iff_right hallowed.1, and_iff_right hallowed.2]
    refine Option.bind_eq_some_iff.trans ?_
    constructor
    · rintro ⟨models, hmodels, h⟩
      obtain ⟨entry, hentry, h⟩ := Option.bind_eq_some_iff.mp h
      obtain ⟨hraw, hobject⟩ := Option.filter_eq_some_iff.mp h
      cases raw with
      | obj fields => exact ⟨fields, rfl, models, entry, hmodels, hentry, hraw⟩
      | _ => cases hobject
    · rintro ⟨fields, rfl, models, entry, hmodels, hentry, hraw⟩
      refine ⟨models, hmodels, Option.bind_eq_some_iff.mpr ⟨entry, hentry, ?_⟩⟩
      exact Option.filter_eq_some_iff.mpr ⟨hraw, rfl⟩

/-- An eligible account with a capability offers the model, and none else does. -/
theorem offers_iff (h : model.enabled = true) {fields : List (String × Json)} :
    Offers groupId source model account fields ↔
      eligible account.toAccount groupId source = true ∧
        capability account model = some (.obj fields) := by
  rw [capability_eq_some, and_iff_right h]
  simp only [eligible, Bool.and_eq_true, List.contains_iff_mem]
  constructor
  · intro ho
    exact ⟨⟨⟨ho.enabled, ho.member⟩, ho.accepts⟩, ho.supports, fields, rfl, ho.entry⟩
  · rintro ⟨⟨⟨henabled, hmember⟩, haccepts⟩, hsupports, fields', heq, hentry⟩
    cases heq
    exact ⟨henabled, hmember, haccepts, hsupports, hentry⟩

/-- Nothing is shown of a disabled model. -/
theorem enabled_of_capability {raw : Json} (h : capability account model = some raw) :
    model.enabled = true := (capability_eq_some.mp h).1

/-- What is shown is the least account's object. -/
theorem shown_some {value : Json}
    (h : shown (sortByKey sortKey accounts) groupId source model = some value) :
    model.enabled = true ∧ ∃ a ∈ accounts, ∃ fields, Offers groupId source model a.2 fields ∧
      value = .obj (Json.insert fields "slug" (.str model.id)) ∧
      ∀ a' ∈ accounts, (∃ fields', Offers groupId source model a'.2 fields') →
        sortKey a ≤ sortKey a' := by
  obtain ⟨raw, hraw, h⟩ := Option.bind_eq_some_iff.mp h
  have hsorted := (sortByKey_pairwise sortKey accounts).filter
    (eligible ·.2.toAccount groupId source)
  obtain ⟨a, ha, hcapability, hleast⟩ := findSome?_of_pairwise hsorted hraw
  have henabled := enabled_of_capability hcapability
  obtain ⟨-, -, fields, rfl, -⟩ := capability_eq_some.mp hcapability
  obtain ⟨hmem, heligible⟩ := List.mem_filter.mp ha
  refine ⟨henabled, a, (sortByKey_perm sortKey accounts).mem_iff.mp hmem, fields,
    (offers_iff henabled).mpr ⟨heligible, hcapability⟩, (Option.some.inj h).symm, ?_⟩
  rintro a' ha' ⟨fields', hoffers⟩
  obtain ⟨heligible', hcapability'⟩ := (offers_iff henabled).mp hoffers
  refine hleast a' (List.mem_filter.mpr ⟨?_, heligible'⟩)
    (Option.isSome_iff_exists.mpr ⟨_, hcapability'⟩)
  exact (sortByKey_perm sortKey accounts).mem_iff.mpr ha'

/-- An offered model is shown. -/
theorem isSome_shown (h : model.enabled = true) {a : UInt8 × CatalogAccount} (ha : a ∈ accounts)
    {fields : List (String × Json)} (hoffers : Offers groupId source model a.2 fields) :
    (shown (sortByKey sortKey accounts) groupId source model).isSome = true := by
  obtain ⟨heligible, hcapability⟩ := (offers_iff h).mp hoffers
  have hmem : a ∈ (sortByKey sortKey accounts).filter (eligible ·.2.toAccount groupId source) :=
    List.mem_filter.mpr ⟨(sortByKey_perm sortKey accounts).mem_iff.mpr ha, heligible⟩
  unfold shown
  cases hfirst : List.findSome? (fun account ↦ capability account.2 model)
      ((sortByKey sortKey accounts).filter (eligible ·.2.toAccount groupId source)) with
  | none =>
    rw [List.findSome?_eq_none_iff.mp hfirst a hmem] at hcapability
    cases hcapability
  | some raw => rfl

/-- With an unblocked account that offers the model the queue is open to fresh sessions. -/
theorem admitted_of_offers {s : State} (hpaused : s.paused = false)
    (hunblocked : Unblocked s account.toAccount) {fields : List (String × Json)}
    (hoffers : Offers groupId source model account fields) :
    Admitted s groupId model.upstream source := by
  intro thread hfresh cfg id since e he
  have hkey : s.checkKey thread.session.keyId groupId = .ok () :=
    (State.checkKey_ok_iff ..).mpr ⟨hpaused, hfresh.unblocked, hfresh.key⟩
  have hserves : serves account.toAccount groupId model.upstream source = true :=
    (serves_iff ..).mpr ⟨hoffers.enabled, hoffers.member, hoffers.accepts, hoffers.supports⟩
  have heligible : s.checkEligibility thread.session groupId model.upstream source = .ok () := by
    refine (State.checkEligibility_ok_iff ..).mpr ⟨hkey, fun b hb ↦ ?_, .inr ?_⟩
    · rw [hfresh.unbound] at hb
      cases hb
    · obtain ⟨k, hk, hblocked⟩ := hunblocked
      exact ⟨k, account.toAccount, hk, hserves, hblocked⟩
  by_cases hroom : cfg.queueCapacity ≤ s.queued
  · simp only [State.enqueue, hpaused, heligible, bind, Except.bind, pure, Except.pure,
      if_pos hroom, Bool.false_eq_true, if_false] at he
    exact ⟨hroom, (Except.error.inj he).symm⟩
  · simp only [State.enqueue, hpaused, heligible, bind, Except.bind, pure, Except.pure,
      if_neg hroom, Bool.false_eq_true, if_false] at he
    cases he

/-- What is shown is what can be dispatched. -/
theorem shows_shown :
    Shows accounts groupId source (shown (sortByKey sortKey accounts) groupId source) where
  isSome := fun model ↦ by
    constructor
    · intro h
      obtain ⟨value, hvalue⟩ := Option.isSome_iff_exists.mp h
      obtain ⟨henabled, a, ha, fields, hoffers, -⟩ := shown_some hvalue
      exact ⟨henabled, a, ha, fields, hoffers⟩
    · rintro ⟨henabled, a, ha, fields, hoffers⟩
      exact isSome_shown henabled ha hoffers
  least := fun model value h ↦ (shown_some h).2
  admitted := fun model h s hpaused haccounts ↦ by
    obtain ⟨value, hvalue⟩ := Option.isSome_iff_exists.mp h
    obtain ⟨-, a, ha, fields, hoffers, -⟩ := shown_some hvalue
    exact admitted_of_offers hpaused (haccounts a ha) hoffers

end

/-- The catalogue does not depend on the order of the accounts, lists the models in their order,
each as the least account that offers it describes it, and shows no model whose requests are
turned away. -/
theorem catalogue_dispatchable (accounts : List (UInt8 × CatalogAccount)) (groupId : Uuid)
    (source : ClientSource) (models : List ModelSpec)
    (hids : (accounts.map (·.2.id)).Nodup) :
    (∀ accounts', accounts'.Perm accounts →
      select accounts' groupId source models = select accounts groupId source models) ∧
    ∃ entry, select accounts groupId source models = models.filterMap entry ∧
      Shows accounts groupId source entry := by
  refine ⟨fun accounts' hperm ↦ ?_, _, rfl, shows_shown⟩
  have hkeys : (accounts.map sortKey).Nodup := by
    refine List.Nodup.of_map (fun key ↦ (ofLex key).2) ?_
    rwa [List.map_map]
  unfold select
  rw [sortByKey_eq_of_perm hperm.symm hkeys]

/-- An account of group 1 with a synced catalogue of these entries. -/
def sampleAccount (id : Uuid) (entries : List DiscoveredModel) : CatalogAccount where
  toAccount := { Sample.account id with
    modelCatalog := some ⟨entries.map (·.id), some 0, none, none⟩ }
  discovered := some entries
  listed := rfl

/-- A model of theirs under another name. -/
def sampleModel (enabled : Bool) : ModelSpec := ⟨"alias", .codex "gpt", enabled⟩

/-- An account that lists the model twice, without an object and with one. -/
def doubledAccount : CatalogAccount := sampleAccount 1 [⟨"gpt", none⟩, ⟨"gpt", some (.obj [])⟩]

/-- Two accounts that offer the model, the one with the greater id on the better plan. -/
def twoAccounts : List (UInt8 × CatalogAccount) :=
  [(3, sampleAccount 1 [⟨"gpt", some (.obj [])⟩]), (0, sampleAccount 2 [⟨"gpt", some (.obj [])⟩])]

/-- Two accounts that offer a model are shown alike in either order. -/
theorem catalogue_dispatchable_two :
    (twoAccounts.map (·.2.id)).Nodup ∧
    (∀ accounts', accounts'.Perm twoAccounts →
      select accounts' 1 .codex [sampleModel true] =
        select twoAccounts 1 .codex [sampleModel true]) ∧
    ∃ entry, select twoAccounts 1 .codex [sampleModel true] = [sampleModel true].filterMap entry ∧
      Shows twoAccounts 1 .codex entry :=
  ⟨by decide, catalogue_dispatchable twoAccounts 1 .codex [sampleModel true] (by decide)⟩

/-- A disabled model is not shown though an account offers it, nor is an enabled one of which the
first of two entries holds no object. -/
theorem offered_models_hidden :
    (Offers 1 .codex (sampleModel false) (sampleAccount 1 [⟨"gpt", some (.obj [])⟩]) [] ∧
      select [(0, sampleAccount 1 [⟨"gpt", some (.obj [])⟩])] 1 .codex [sampleModel false] = []) ∧
    (eligible doubledAccount.toAccount 1 .codex = true ∧
      doubledAccount.supports (sampleModel true).upstream = true ∧
      (∃ models, doubledAccount.discovered = some models ∧ ⟨"gpt", some (.obj [])⟩ ∈ models) ∧
      select [(0, doubledAccount)] 1 .codex [sampleModel true] = []) := by
  refine ⟨⟨⟨rfl, by decide, by decide, by decide, _, _, rfl, rfl, rfl⟩, ?_⟩, by decide, by decide,
    ⟨_, rfl, by simp⟩, ?_⟩
  · rw [select, sortByKey, List.mergeSort_singleton]
    rfl
  · rw [select, sortByKey, List.mergeSort_singleton]
    rfl

end PublicModels
end Xxgate.Scheduling

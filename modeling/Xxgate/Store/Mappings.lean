import Mathlib.Logic.Relation
import Xxgate.Core.Identity
import Xxgate.Store.State

/-!
# Saving identity mappings

`crates/xxgate-postgres/src/bindings.rs:50–80`, and the part of
`crates/xxgate-core/src/application/gateway.rs:406–464` that loads the mappings of a binding,
extends them and saves what is new. Requests of one binding do so at once, each from what it
read of the table; since an identifier is a function of the client's, they never disagree.
-/

namespace Xxgate.Store

open Xxgate.Base Xxgate.Core FiniteMap

/-! ### The table -/

/-- The rows of `identity_mappings` of one binding, by kind and client identifier. -/
abbrev MappingTable := FiniteMap (String × String) String

/-- `bindings.rs:72–77`: the statement for one mapping, and the conflict when it affects no row.
An upstream identifier may occur once in a kind: an index of the table sees to it. -/
def saveMapping (table : MappingTable) (m : IdMapping) : Result MappingTable :=
  match table.lookup (m.kind, m.clientId) with
  | some upstream => if upstream = m.upstreamId then .ok table else .error .conflict
  | none =>
    if table.entries.any fun e ↦ e.1.1 == m.kind && e.2 == m.upstreamId then .error .storage
    else .ok (table.insert (m.kind, m.clientId) m.upstreamId)

/-- `bindings.rs:67`. -/
def saveMappings (table : MappingTable) (mappings : List IdMapping) : Result MappingTable :=
  mappings.foldlM saveMapping table

/-! ### Requests of one binding -/

namespace Mappings

/-- The table and the maps of the requests at work on it. -/
structure State where
  table : MappingTable
  requests : FiniteMap Nat IdentityMap
  /-- History: the identifiers the requests were given. -/
  answers : List (Nat × IdMapping)
  /-- History: the results of saving. -/
  replies : List (Result Unit)
  /-- History: the mappings that were saved. -/
  saved : List IdMapping

namespace State

/-- A binding without mappings and without requests. -/
def empty : State := ⟨∅, ∅, [], [], []⟩

/-- `gateway.rs:454–456`: a request saves what it has not saved yet. -/
def save (s : State) (id : Nat) (ids : IdentityMap) (outcome : Outcome) : State :=
  let s := { s with requests := s.requests.insert id ids.takePending.2 }
  match outcome, saveMappings s.table ids.takePending.1 with
  | .answered, .ok table =>
    { s with
      table := table, replies := s.replies ++ [.ok ()], saved := s.saved ++ ids.takePending.1 }
  | .lost, .ok table =>
    { s with
      table := table, replies := s.replies ++ [.error .storage],
      saved := s.saved ++ ids.takePending.1 }
  | .failed, _ => { s with replies := s.replies ++ [.error .storage] }
  | _, .error x => { s with replies := s.replies ++ [.error x] }

end State

/-- The kinds identifiers are mapped under. -/
def kinds : List String :=
  ["thread", "turn", "window", "context_window", "request", "item", "call", "response"]

/-- What a request of the binding does next: begin with some of the rows, in any order; have an
identifier mapped; save. -/
inductive Step (v5 : Uuid → String → Uuid) (b : Binding) : State → State → Prop
  | load (s : State) (id : Nat) (snapshot : List IdMapping)
      (hrows : ∀ m ∈ snapshot, s.table.lookup (m.kind, m.clientId) = some m.upstreamId) :
      Step v5 b s { s with requests := s.requests.insert id (.new v5 b snapshot) }
  | outbound (s : State) (id : Nat) {ids ids' : IdentityMap} {kind client upstream : String}
      (hids : s.requests.lookup id = some ids) (hkind : kind ∈ kinds)
      (hanswer : ids.outbound v5 kind client = .ok (upstream, ids')) :
      Step v5 b s { s with
        requests := s.requests.insert id ids'
        answers := s.answers ++ [(id, ⟨kind, client, upstream⟩)] }
  | save (s : State) (id : Nat) {ids : IdentityMap} (outcome : Outcome)
      (hids : s.requests.lookup id = some ids) : Step v5 b s (s.save id ids outcome)

/-- The states of some requests of the binding, in any order of their steps. -/
def Reachable (v5 : Uuid → String → Uuid) (b : Binding) (s : State) : Prop :=
  Relation.ReflTransGen (Step v5 b) .empty s

/-! ### Agreement -/

open IdentityMap

private theorem nul_notMem_kinds : ∀ kind ∈ kinds, nul ∉ kind.toList := by decide

/-- The mapping is the hash of its client's identifier. -/
structure Hashed (v5 : Uuid → String → Uuid) (b : Binding) (m : IdMapping) : Prop where
  kind : m.kind ∈ kinds
  upstream : m.upstreamId = upstreamOf v5 b.ns m.kind m.clientId

variable {v5 : Uuid → String → Uuid} {b : Binding}

/-- Two hashes of one client's identifier are the same mapping. -/
theorem Hashed.unique {m m' : IdMapping} (h : Hashed v5 b m) (h' : Hashed v5 b m')
    (hkind : m.kind = m'.kind) (hclient : m.clientId = m'.clientId) : m = m' := by
  have hupstream := h.upstream.trans (hkind ▸ hclient ▸ h'.upstream.symm)
  cases m
  cases m'
  cases hkind
  cases hclient
  cases hupstream
  rfl

/-- Two hashes of one kind with one upstream identifier are of one client's identifier. -/
theorem Hashed.client (hv5 : Function.Injective2 v5) {m m' : IdMapping} (h : Hashed v5 b m)
    (h' : Hashed v5 b m') (hkind : m.kind = m'.kind) (hupstream : m.upstreamId = m'.upstreamId) :
    m.clientId = m'.clientId := by
  have hsame : upstreamOf v5 b.ns m.kind m.clientId = upstreamOf v5 b.ns m.kind m'.clientId := by
    rw [← h.upstream, hupstream, h'.upstream, hkind]
  exact (upstreamOf_inj hv5 (nul_notMem_kinds _ h.kind) hsame).2

/-- The table holds exactly the mappings of the list, and these are hashes. -/
structure Holds (v5 : Uuid → String → Uuid) (b : Binding) (table : MappingTable)
    (mappings : List IdMapping) : Prop where
  rows : ∀ kind client upstream, table.lookup (kind, client) = some upstream ↔
    ⟨kind, client, upstream⟩ ∈ mappings
  hashed : ∀ m ∈ mappings, Hashed v5 b m

namespace Holds

variable {table : MappingTable} {mappings : List IdMapping}

/-- A hash is saved without a conflict. -/
theorem saveMapping (h : Holds v5 b table mappings) (hv5 : Function.Injective2 v5) {m : IdMapping}
    (hm : Hashed v5 b m) :
    ∃ table', saveMapping table m = .ok table' ∧ Holds v5 b table' (mappings ++ [m]) := by
  have hhashed : ∀ q ∈ mappings ++ [m], Hashed v5 b q := by
    intro q hq
    rcases List.mem_append.mp hq with hq | hq
    · exact h.hashed q hq
    · exact List.mem_singleton.mp hq ▸ hm
  unfold Store.saveMapping
  cases hl : table.lookup (m.kind, m.clientId) with
  | some upstream =>
    have hrow := (h.rows _ _ _).mp hl
    have hself := (h.hashed _ hrow).unique hm rfl rfl
    dsimp only
    rw [if_pos (congrArg IdMapping.upstreamId hself)]
    refine ⟨table, rfl, fun kind client upstream' ↦ ?_, hhashed⟩
    rw [h.rows, List.mem_append, List.mem_singleton]
    exact ⟨.inl, fun hq ↦ hq.elim id fun he ↦ he ▸ hself ▸ hrow⟩
  | none =>
    have hfree : table.entries.any (fun e ↦ e.1.1 == m.kind && e.2 == m.upstreamId) = false := by
      rw [List.any_eq_false]
      rintro ⟨⟨kind, client⟩, upstream⟩ he hand
      simp only [Bool.and_eq_true, beq_iff_eq] at hand
      obtain ⟨rfl, rfl⟩ := hand
      have hl' : table.lookup (m.kind, client) = some m.upstreamId := AList.mem_lookup_iff.mpr he
      have hclient : client = m.clientId :=
        (h.hashed _ ((h.rows _ _ _).mp hl')).client hv5 hm rfl rfl
      rw [hclient] at hl'
      cases hl.symm.trans hl'
    dsimp only
    rw [hfree, if_neg Bool.false_ne_true]
    refine ⟨_, rfl, fun kind client upstream ↦ ?_, hhashed⟩
    rw [lookup_insert_ite, List.mem_append, List.mem_singleton]
    split
    · next heq =>
      cases heq
      refine ⟨fun hu ↦ .inr (by rw [← Option.some.inj hu]), fun hq ↦ ?_⟩
      rcases hq with hq | hq
      · exact congrArg some ((h.hashed _ hq).unique hm rfl rfl ▸ rfl)
      · rw [← hq]
    · next hne =>
      rw [h.rows]
      refine ⟨.inl, fun hq ↦ hq.elim id fun he ↦ absurd ?_ hne⟩
      rw [← he]

/-- A list of hashes is saved without a conflict. -/
theorem saveMappings (hv5 : Function.Injective2 v5) (ms : List IdMapping) :
    ∀ {table : MappingTable} {mappings : List IdMapping}, Holds v5 b table mappings →
      (∀ m ∈ ms, Hashed v5 b m) →
      ∃ table', saveMappings table ms = .ok table' ∧ Holds v5 b table' (mappings ++ ms) := by
  induction ms with
  | nil =>
    intro table mappings h _
    exact ⟨table, rfl, (List.append_nil mappings).symm ▸ h⟩
  | cons m ms ih =>
    intro table mappings h hms
    obtain ⟨next, hnext, hholds⟩ := h.saveMapping hv5 (hms m List.mem_cons_self)
    obtain ⟨table', hok, hall⟩ := ih hholds fun q hq ↦ hms q (List.mem_cons_of_mem _ hq)
    refine ⟨table', ?_, ?_⟩
    · unfold Store.saveMappings at hok ⊢
      rw [List.foldlM_cons, hnext]
      exact hok
    · rwa [List.append_assoc, List.singleton_append] at hall

end Holds

/-- Everything is made of hashes: the maps, what they gave out and what was saved. -/
structure Agreed (v5 : Uuid → String → Uuid) (b : Binding) (s : State) : Prop where
  table : Holds v5 b s.table s.saved
  maps : ∀ id ids, s.requests.lookup id = some ids →
    ids.binding = b ∧ Canonical v5 kinds ids ∧ ∀ m ∈ ids.pending, Hashed v5 b m
  answers : ∀ a ∈ s.answers, Hashed v5 b a.2
  replies : .error .conflict ∉ s.replies

/-- A request's map may be replaced by one made of hashes. -/
theorem Agreed.put {s : State} (h : Agreed v5 b s) (id : Nat) (ids : IdentityMap)
    (hids : ids.binding = b ∧ Canonical v5 kinds ids ∧ ∀ m ∈ ids.pending, Hashed v5 b m) :
    Agreed v5 b { s with requests := s.requests.insert id ids } := by
  refine ⟨h.table, fun id' ids' hl ↦ ?_, h.answers, h.replies⟩
  rw [lookup_insert_ite] at hl
  split at hl
  · cases hl
    exact hids
  · exact h.maps id' ids' hl

/-- Saving takes effect as a whole or not at all, and without a conflict. -/
theorem Agreed.save (hv5 : Function.Injective2 v5) {s : State} (h : Agreed v5 b s) {id : Nat}
    {ids : IdentityMap} (hids : s.requests.lookup id = some ids) (outcome : Outcome) :
    Agreed v5 b (s.save id ids outcome) := by
  obtain ⟨hb, hmap, hpending⟩ := h.maps id ids hids
  have hput := h.put id ids.takePending.2
    ⟨hb, hmap.congr_pending [], fun m hm ↦ absurd hm List.not_mem_nil⟩
  obtain ⟨table, hok, htable⟩ := h.table.saveMappings hv5 ids.pending hpending
  have hreplies : ∀ reply : Result Unit, reply ≠ .error .conflict →
      .error .conflict ∉ s.replies ++ [reply] := by
    intro reply hne hmem
    rcases List.mem_append.mp hmem with hmem | hmem
    · exact h.replies hmem
    · exact hne (List.mem_singleton.mp hmem).symm
  have hstorage : (.error .storage : Result Unit) ≠ .error .conflict := by decide
  unfold State.save
  simp only [takePending, hok]
  cases outcome with
  | answered => exact ⟨htable, hput.maps, h.answers, hreplies _ (by simp)⟩
  | lost => exact ⟨htable, hput.maps, h.answers, hreplies _ hstorage⟩
  | failed => exact ⟨h.table, hput.maps, h.answers, hreplies _ hstorage⟩

/-- A step keeps the agreement. -/
theorem Agreed.step (hv5 : Function.Injective2 v5) {s s' : State} (h : Agreed v5 b s)
    (hs : Step v5 b s s') : Agreed v5 b s' := by
  cases hs with
  | load id snapshot hrows =>
    refine h.put id _ ⟨binding_new v5 b snapshot, ?_, ?_⟩
    · refine .new hv5 nul_notMem_kinds b snapshot fun m hm _ ↦ ?_
      exact (h.table.hashed _ ((h.table.rows _ _ _).mp (hrows m hm))).upstream
    · rw [pending_new]
      exact fun m hm ↦ absurd hm List.not_mem_nil
  | @outbound id ids ids' kind client upstream hids hkind hanswer =>
    obtain ⟨hb, hmap, hpending⟩ := h.maps id ids hids
    obtain ⟨hupstream, hmap', heq⟩ := hmap.outbound hv5 nul_notMem_kinds hkind hanswer
    have hnew : Hashed v5 b ⟨kind, client, upstream⟩ := ⟨hkind, hb ▸ hupstream⟩
    have hput := h.put id ids' ⟨?_, hmap', ?_⟩
    · refine ⟨hput.table, hput.maps, fun a ha ↦ ?_, hput.replies⟩
      rcases List.mem_append.mp ha with ha | ha
      · exact h.answers a ha
      · exact List.mem_singleton.mp ha ▸ hnew
    · rcases heq with rfl | rfl <;> exact hb
    · rcases heq with rfl | rfl
      · exact hpending
      · intro m hm
        rcases List.mem_append.mp hm with hm | hm
        · exact hpending m hm
        · exact List.mem_singleton.mp hm ▸ hnew
  | save id outcome hids => exact h.save hv5 hids outcome

/-- Requests that have done anything in any order agree. -/
theorem Reachable.agreed (hv5 : Function.Injective2 v5) {s : State} (h : Reachable v5 b s) :
    Agreed v5 b s := by
  induction h with
  | refl =>
    refine ⟨⟨fun kind client upstream ↦ ?_, fun m hm ↦ absurd hm List.not_mem_nil⟩,
      fun id ids hl ↦ ?_, fun a ha ↦ absurd ha List.not_mem_nil, List.not_mem_nil⟩
    · refine ⟨fun hl ↦ ?_, fun hm ↦ absurd hm List.not_mem_nil⟩
      cases (AList.lookup_empty (kind, client)).symm.trans hl
    · cases (AList.lookup_empty id).symm.trans hl
  | tail _ hs ih => exact ih.step hv5 hs

/-- Whatever the requests of a binding do, and in whatever order: saving meets no conflict, and
would meet none now and put all that is pending into the table; a client has one identifier in
every request; the table is what was saved; and in the table and in every map clients of one kind
have different identifiers, with the two directions inverse to each other. -/
theorem mapping_confluent (hv5 : Function.Injective2 v5) {s : State} (h : Reachable v5 b s) :
    .error .conflict ∉ s.replies ∧
    (∀ id ids, s.requests.lookup id = some ids →
      ∃ table, saveMappings s.table ids.pending = .ok table ∧
        ∀ m ∈ ids.pending, table.lookup (m.kind, m.clientId) = some m.upstreamId) ∧
    (∀ a ∈ s.answers, ∀ a' ∈ s.answers, a.2.kind = a'.2.kind → a.2.clientId = a'.2.clientId →
      a.2.upstreamId = a'.2.upstreamId) ∧
    (∀ kind client upstream, s.table.lookup (kind, client) = some upstream ↔
      ⟨kind, client, upstream⟩ ∈ s.saved) ∧
    (∀ kind client client' upstream, s.table.lookup (kind, client) = some upstream →
      s.table.lookup (kind, client') = some upstream → client = client') ∧
    ∀ id ids, s.requests.lookup id = some ids → ∀ kind ∈ kinds, ∀ client upstream,
      ids.reverse.lookup (kind, upstream) = some client ↔
        ids.forward.lookup (kind, client) = some upstream := by
  have hagreed := h.agreed hv5
  refine ⟨hagreed.replies, fun id ids hids ↦ ?_, fun a ha a' ha' hkind hclient ↦ ?_,
    hagreed.table.rows, fun kind client client' upstream hl hl' ↦ ?_,
    fun id ids hids ↦ (hagreed.maps id ids hids).2.1.reverse⟩
  · obtain ⟨table, hok, hholds⟩ :=
      hagreed.table.saveMappings hv5 ids.pending (hagreed.maps id ids hids).2.2
    exact ⟨table, hok, fun m hm ↦ (hholds.rows _ _ _).mpr (List.mem_append_right _ hm)⟩
  · rw [(hagreed.answers a ha).unique (hagreed.answers a' ha') hkind hclient]
  · have hrow := hagreed.table.hashed _ ((hagreed.table.rows kind client upstream).mp hl)
    have hrow' := hagreed.table.hashed _ ((hagreed.table.rows kind client' upstream).mp hl')
    exact hrow.client hv5 hrow' rfl rfl

/-- The binding of the witness. -/
def exampleBinding : Binding := ⟨1, 2, ⟨3, "s"⟩, 1, 4, 9, "openai", "codex_oauth"⟩

/-- The hash of the witness: what UUIDs of version 5 are for its names. -/
def exampleV5 : Uuid → String → Uuid :=
  Uuid.knownHash [((9, "thread\x00s"), 0x298233e9cfe05eef99fc885bf34e6334),
    ((9, "request\x00s"), 0x724f1ecdbec25cca808b14e756b43224)]

/-- Two requests begin before either has saved, and both map the thread. -/
theorem mapping_confluent_stale : ∃ s : State, Reachable exampleV5 exampleBinding s ∧
    s.answers = [(0, ⟨"thread", "s", "298233e9-cfe0-5eef-99fc-885bf34e6334"⟩),
      (1, ⟨"thread", "s", "298233e9-cfe0-5eef-99fc-885bf34e6334"⟩)] ∧
    s.saved.length = 2 ∧ .error .conflict ∉ s.replies ∧
    s.table.lookup ("thread", "s") = some "298233e9-cfe0-5eef-99fc-885bf34e6334" := by
  have hv5 : Function.Injective2 exampleV5 :=
    Uuid.knownHash_injective (by decide) (by decide)
  have hanswer : (IdentityMap.new exampleV5 exampleBinding []).outbound exampleV5 "thread" "s" =
      .ok ("298233e9-cfe0-5eef-99fc-885bf34e6334",
        (IdentityMap.new exampleV5 exampleBinding []).insert "thread" "s"
          "298233e9-cfe0-5eef-99fc-885bf34e6334") := rfl
  have hload : Reachable exampleV5 exampleBinding _ :=
    (Relation.ReflTransGen.refl.tail (.load _ 0 [] fun m hm ↦ absurd hm List.not_mem_nil)).tail
      (.load _ 1 [] fun m hm ↦ absurd hm List.not_mem_nil)
  have hmapped := (hload.tail (.outbound _ 0 rfl (by decide) hanswer)).tail
    (.outbound _ 1 rfl (by decide) hanswer)
  have hsaved := (hmapped.tail (.save _ 0 .answered rfl)).tail (.save _ 1 .answered rfl)
  obtain ⟨hreplies, -, -, hrows, -, -⟩ := mapping_confluent hv5 hsaved
  exact ⟨_, hsaved, rfl, rfl, hreplies, (hrows _ _ _).mpr List.mem_cons_self⟩

end Mappings
end Xxgate.Store

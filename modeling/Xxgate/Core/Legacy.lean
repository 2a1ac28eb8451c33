import Mathlib.Logic.Relation
import Xxgate.Core.Identity

/-!
# Aliases of older gateways

Older gateways mapped the identifiers of messages, calls and responses in both directions: a
client's identifier was replaced by its hash, and an upstream one by an alias with a random
UUID. `History` follows one session through its generations, and `Traced` says of every
mapping in it which of the two made it. A request of today loads the mappings of all
generations, `crates/xxgate-core/src/application/gateway.rs:406–425`, and resolves exactly
the aliases.
-/

namespace Xxgate.Core

open Xxgate.Base FiniteMap IdentityMap

/-! ### Importing mappings -/

/-- The mapping is one that a client's identifier was hashed for. -/
def IdMapping.IsHash (v5 : Uuid → String → Uuid) (ns : Uuid) (m : IdMapping) : Prop :=
  lastSegment m.upstreamId = (v5 ns (nameOf m.kind m.clientId)).simple

section Import

variable (v5 : Uuid → String → Uuid)

/-- One mapping adds its alias, if it is one and the first. -/
theorem importAlias_cases (ns : Uuid) (aliases : FiniteMap (String × String) String)
    (m : IdMapping) :
    (importAlias v5 ns aliases m = aliases ∧
      (isAliasKind m.kind = true → ¬m.IsHash v5 ns → (m.kind, m.clientId) ∈ aliases)) ∨
    (importAlias v5 ns aliases m = aliases.insert (m.kind, m.clientId) m.upstreamId ∧
      ¬m.IsHash v5 ns ∧ (m.kind, m.clientId) ∉ aliases) := by
  unfold importAlias
  split
  · next hk => exact .inl ⟨rfl, fun hkind ↦ by simp [hkind] at hk⟩
  · split
    · next hhash => exact .inl ⟨rfl, fun _ hnot ↦ absurd hhash hnot⟩
    · next hhash =>
      split
      · next hmem => exact .inl ⟨rfl, fun _ _ ↦ hmem⟩
      · next hmem => exact .inr ⟨rfl, hhash, hmem⟩

/-- What importing some mappings does to the aliases: it keeps those there are, adds mappings that
are no hashes and has one for each of these. -/
structure Imports (ns : Uuid) (mappings : List IdMapping)
    (aliases aliases' : FiniteMap (String × String) String) : Prop where
  keeps : ∀ key upstream, aliases.lookup key = some upstream → aliases'.lookup key = some upstream
  adds : ∀ kind client upstream, aliases'.lookup (kind, client) = some upstream →
    aliases.lookup (kind, client) = some upstream ∨
      (⟨kind, client, upstream⟩ ∈ mappings ∧
        ¬IdMapping.IsHash v5 ns ⟨kind, client, upstream⟩)
  covers : ∀ m ∈ mappings, isAliasKind m.kind = true → ¬m.IsHash v5 ns →
    ∃ upstream, aliases'.lookup (m.kind, m.clientId) = some upstream

private theorem imports_foldl (ns : Uuid) (mappings : List IdMapping)
    (aliases : FiniteMap (String × String) String) :
    Imports v5 ns mappings aliases (mappings.foldl (importAlias v5 ns) aliases) := by
  induction mappings generalizing aliases with
  | nil => exact ⟨fun _ _ h ↦ h, fun _ _ _ h ↦ .inl h, fun _ hm ↦ absurd hm List.not_mem_nil⟩
  | cons m mappings ih =>
    have hrest := ih (importAlias v5 ns aliases m)
    rw [List.foldl_cons]
    rcases importAlias_cases v5 ns aliases m with ⟨hsame, hcovered⟩ | ⟨hnew, hhash, habsent⟩
    · rw [hsame] at hrest ⊢
      refine ⟨hrest.keeps, fun kind client upstream hl ↦ ?_, fun q hq hkind hnot ↦ ?_⟩
      · exact (hrest.adds kind client upstream hl).imp_right fun h ↦
          ⟨List.mem_cons_of_mem _ h.1, h.2⟩
      · rcases List.mem_cons.mp hq with rfl | hq
        · obtain ⟨upstream, hl⟩ := (mem_iff_lookup _ _).mp (hcovered hkind hnot)
          exact ⟨upstream, hrest.keeps _ _ hl⟩
        · exact hrest.covers q hq hkind hnot
    · rw [hnew] at hrest ⊢
      refine ⟨fun key upstream hl ↦ ?_, fun kind client upstream hl ↦ ?_, fun q hq hkind hnot ↦ ?_⟩
      · refine hrest.keeps key upstream ?_
        have hne : key ≠ (m.kind, m.clientId) := by
          rintro rfl
          exact habsent ((mem_iff_lookup _ _).mpr ⟨upstream, hl⟩)
        exact (AList.lookup_insert_ne hne).trans hl
      · rcases hrest.adds kind client upstream hl with hl' | h
        · rw [lookup_insert_ite] at hl'
          split at hl'
          · next heq =>
            cases heq
            cases hl'
            exact .inr ⟨List.mem_cons_self, hhash⟩
          · exact .inl hl'
        · exact .inr ⟨List.mem_cons_of_mem _ h.1, h.2⟩
      · rcases List.mem_cons.mp hq with rfl | hq
        · exact ⟨_, hrest.keeps _ _ (AList.lookup_insert _)⟩
        · exact hrest.covers q hq hkind hnot

end Import

/-- Bindings of one session, provider and access kind. -/
structure Binding.Related (b b' : Binding) : Prop where
  session : b.session = b'.session
  provider : b.provider = b'.provider
  accessKind : b.accessKind = b'.accessKind

/-- Importing leaves everything but the aliases. -/
theorem importLegacyAliases_frame (v5 : Uuid → String → Uuid) (ids : IdentityMap) (b : Binding)
    (mappings : List IdMapping) :
    (ids.importLegacyAliases v5 b mappings).binding = ids.binding ∧
      (ids.importLegacyAliases v5 b mappings).pending = ids.pending := by
  unfold importLegacyAliases
  split <;> exact ⟨rfl, rfl⟩

/-- The aliases of the map are those of the mappings of some generations. -/
structure Knows (v5 : Uuid → String → Uuid) (generations : List (Binding × List IdMapping))
    (ids : IdentityMap) : Prop where
  adds : ∀ kind client upstream, ids.legacyAliases.lookup (kind, client) = some upstream →
    ∃ g ∈ generations, ⟨kind, client, upstream⟩ ∈ g.2 ∧
      ¬IdMapping.IsHash v5 g.1.ns ⟨kind, client, upstream⟩
  covers : ∀ g ∈ generations, ∀ m ∈ g.2, isAliasKind m.kind = true → ¬m.IsHash v5 g.1.ns →
    ∃ upstream, ids.legacyAliases.lookup (m.kind, m.clientId) = some upstream

/-- The mappings of one more generation. -/
theorem Knows.importLegacyAliases {v5 : Uuid → String → Uuid}
    {generations : List (Binding × List IdMapping)} {ids : IdentityMap}
    (h : Knows v5 generations ids) {g : Binding × List IdMapping} (hg : g.1.Related ids.binding) :
    Knows v5 (generations ++ [g]) (ids.importLegacyAliases v5 g.1 g.2) := by
  have himports := imports_foldl v5 g.1.ns g.2 ids.legacyAliases
  have heq : (ids.importLegacyAliases v5 g.1 g.2).legacyAliases =
      g.2.foldl (importAlias v5 g.1.ns) ids.legacyAliases := by
    unfold IdentityMap.importLegacyAliases
    rw [if_neg (by simp [hg.session, hg.provider, hg.accessKind])]
  rw [← heq] at himports
  constructor
  · intro kind client upstream hl
    rcases himports.adds kind client upstream hl with hl | hnew
    · obtain ⟨g', hg', hm⟩ := h.adds kind client upstream hl
      exact ⟨g', List.mem_append_left _ hg', hm⟩
    · exact ⟨g, List.mem_append_right _ (List.mem_singleton_self g), hnew⟩
  · intro g' hg' m hm hkind hnot
    rcases List.mem_append.mp hg' with hg' | hg'
    · obtain ⟨upstream, hl⟩ := h.covers g' hg' m hm hkind hnot
      exact ⟨upstream, himports.keeps _ _ hl⟩
    · cases List.mem_singleton.mp hg'
      exact himports.covers m hm hkind hnot

/-- The mappings of the map's own binding. -/
theorem knows_new (v5 : Uuid → String → Uuid) (b : Binding) (mappings : List IdMapping) :
    Knows v5 [(b, mappings)] (.new v5 b mappings) := by
  have himports := imports_foldl v5 b.ns mappings ∅
  have heq : (IdentityMap.new v5 b mappings).legacyAliases =
      mappings.foldl (importAlias v5 b.ns) ∅ := by
    rw [new_eq]
    exact (foldl_load mappings _).2.1
  rw [← heq] at himports
  constructor
  · intro kind client upstream hl
    rcases himports.adds kind client upstream hl with hl | hnew
    · cases (AList.lookup_empty (kind, client)).symm.trans hl
    · exact ⟨_, List.mem_singleton_self _, hnew⟩
  · intro g hg m hm hkind hnot
    cases List.mem_singleton.mp hg
    exact himports.covers m hm hkind hnot

/-- `gateway.rs:406–425`: the map of a request, from the mappings of its binding and those of the
earlier generations in their order. -/
def loadIdentities (v5 : Uuid → String → Uuid) (binding : Binding) (mappings : List IdMapping)
    (earlier : List (Binding × List IdMapping)) : IdentityMap :=
  earlier.foldl (fun ids previous ↦ ids.importLegacyAliases v5 previous.1 previous.2)
    (.new v5 binding mappings)

/-- A request's map knows the aliases of all generations. -/
theorem knows_loadIdentities (v5 : Uuid → String → Uuid) (b : Binding) (mappings : List IdMapping)
    {earlier : List (Binding × List IdMapping)} (hrelated : ∀ g ∈ earlier, g.1.Related b) :
    Knows v5 ((b, mappings) :: earlier) (loadIdentities v5 b mappings earlier) ∧
      (loadIdentities v5 b mappings earlier).binding = b ∧
      (loadIdentities v5 b mappings earlier).pending = [] := by
  have hfold : ∀ (later before : List (Binding × List IdMapping)) (ids : IdentityMap),
      Knows v5 before ids → ids.binding = b → ids.pending = [] → (∀ g ∈ later, g.1.Related b) →
      let ids' := later.foldl (fun ids g ↦ ids.importLegacyAliases v5 g.1 g.2) ids
      Knows v5 (before ++ later) ids' ∧ ids'.binding = b ∧ ids'.pending = [] := by
    intro later
    induction later with
    | nil => exact fun before ids h hb hp _ ↦ ⟨(List.append_nil before).symm ▸ h, hb, hp⟩
    | cons g later ih =>
      intro before ids h hb hp hall
      obtain ⟨hbinding, hpending⟩ := importLegacyAliases_frame v5 ids g.1 g.2
      have hg : g.1.Related ids.binding := hb ▸ hall g List.mem_cons_self
      have hrest := ih (before ++ [g]) _ (h.importLegacyAliases hg) (hbinding.trans hb)
        (hpending.trans hp) fun q hq ↦ hall q (List.mem_cons_of_mem _ hq)
      rwa [List.append_assoc, List.singleton_append] at hrest
  exact hfold earlier _ _ (knows_new v5 b mappings) (binding_new v5 b mappings)
    (pending_new v5 b mappings) hrelated

/-- A session in one of its generations, under a gateway that mapped message identifiers. -/
structure History where
  /-- The generations before with their mappings, oldest first. -/
  earlier : List (Binding × List IdMapping)
  /-- The mappings of this generation that are stored. -/
  stored : List IdMapping
  /-- The map of the request at work. -/
  ids : IdentityMap
  /-- History: the mappings `inbound` made, from an alias to the upstream identifier. -/
  created : List IdMapping
  /-- History: the mappings `outbound` made. -/
  sent : List IdMapping

namespace History

variable (v5 : Uuid → String → Uuid)

/-- The alias of an upstream identifier is new: no client has it yet. -/
def Fresh (h : History) (kind upstream : String) (drawn : Uuid) : Prop :=
  drawn < 2 ^ 128 ∧ ∀ m ∈ h.created ++ h.sent, m.clientId ≠ aliasOf kind upstream drawn

/-- The upstream identifier is one of the upstream's own, which no hash in the namespace of the
binding ends, or it is an echo of an identifier that was sent. -/
def Genuine (h : History) (upstream : String) : Prop :=
  (∀ name, lastSegment upstream ≠ (v5 h.ids.binding.ns name).simple) ∨
    ∃ m ∈ h.sent, m.upstreamId = upstream

/-- What is recorded of an identifier that is new in the map. -/
def newly (known : Option String) (m : IdMapping) : List IdMapping :=
  if known.isSome then [] else [m]

/-- The next call of a request, the end of the request with the beginning of the next, or the next
generation. Rows may be read in any order. -/
inductive Step : History → History → Prop
  | outbound (h : History) (kind client : String) {upstream : String} {ids' : IdentityMap}
      (hkind : isAliasKind kind = true)
      (hanswer : h.ids.outbound v5 kind client = .ok (upstream, ids')) :
      Step h { h with
        ids := ids', sent := h.sent ++ newly (h.ids.existing kind client) ⟨kind, client, upstream⟩ }
  | inbound (h : History) (kind upstream : String) (drawn : Uuid) {client : String}
      {ids' : IdentityMap} (hkind : isAliasKind kind = true) (hfresh : h.Fresh kind upstream drawn)
      (hgenuine : h.Genuine v5 upstream)
      (hanswer : h.ids.inbound kind upstream drawn = .ok (client, ids')) :
      Step h { h with
        ids := ids'
        created := h.created ++
          newly (h.ids.reverse.lookup (kind, upstream)) ⟨kind, client, upstream⟩ }
  | save (h : History) {rows : List IdMapping} (hrows : rows.Perm (h.stored ++ h.ids.pending)) :
      Step h { h with stored := rows, ids := loadIdentities v5 h.ids.binding rows h.earlier }
  | next (h : History) (binding : Binding) (hsaved : h.ids.pending = [])
      (hrelated : h.ids.binding.Related binding) :
      Step h { h with
        earlier := h.earlier ++ [(h.ids.binding, h.stored)], stored := []
        ids := loadIdentities v5 binding [] (h.earlier ++ [(h.ids.binding, h.stored)]) }

/-- A session with its first binding. -/
def first (binding : Binding) : History := ⟨[], [], .new v5 binding [], [], []⟩

/-- The histories of the session that begins with the binding. -/
def Reachable (binding : Binding) (h : History) : Prop :=
  Relation.ReflTransGen (Step v5) (first v5 binding) h

/-! ### Where the mappings come from -/

/-- A generation with the namespace has the mapping, be it still to be saved. -/
def Holds (h : History) (ns : Uuid) (m : IdMapping) : Prop :=
  (∃ g ∈ h.earlier, g.1.ns = ns ∧ m ∈ g.2) ∨
    (h.ids.binding.ns = ns ∧ m ∈ h.stored ++ h.ids.pending)

/-- Every mapping is a hash or the alias of an upstream identifier, and no alias was made twice. -/
structure Traced (h : History) : Prop where
  related : ∀ g ∈ h.earlier, g.1.Related h.ids.binding
  made : ∀ ns m, h.Holds ns m → m.IsHash v5 ns ∨ m ∈ h.created
  kept : ∀ m ∈ h.created, ∃ ns, h.Holds ns m ∧ ¬m.IsHash v5 ns
  shape : ∀ m ∈ h.created, isAliasKind m.kind = true ∧ m.clientId.utf8ByteSize ≤ 512
  unique : ∀ m ∈ h.created, ∀ m' ∈ h.created, m.clientId = m'.clientId → m = m'
  sent : ∀ m ∈ h.sent, isAliasKind m.kind = true ∧
    ∃ ns, m.upstreamId = upstreamOf v5 ns m.kind m.clientId

variable {v5}

private theorem nul_notMem_aliasKind {kind : String} (hk : isAliasKind kind = true) :
    nul ∉ kind.toList := by
  simp only [isAliasKind, Bool.or_eq_true, beq_iff_eq] at hk
  rcases hk with (rfl | rfl) | rfl <;> decide

/-- A text has at most four bytes for a character. -/
theorem utf8ByteSize_le (s : String) : s.utf8ByteSize ≤ 4 * s.toList.length := by
  have hlist : ∀ l : List Char, (String.ofList l).utf8ByteSize ≤ 4 * l.length := by
    intro l
    induction l with
    | nil => exact Nat.le_refl 0
    | cons c l ih =>
      have hcons : String.ofList (c :: l) = String.singleton c ++ String.ofList l := by
        apply String.toList_inj.mp
        rw [String.toList_append, String.toList_singleton, String.toList_ofList,
          String.toList_ofList, List.singleton_append]
      rw [hcons, String.utf8ByteSize_append, String.utf8ByteSize_singleton, List.length_cons]
      have hc := c.utf8Size_le_four
      omega
  have h := hlist s.toList
  rwa [String.ofList_toList] at h

private theorem length_itemPrefix (id : String) : (itemPrefix id).toList.length ≤ 64 := by
  unfold itemPrefix
  dsimp only
  split
  · next h =>
    rw [String.toList_ofList]
    exact h.2.2.1
  · decide

/-- An alias is a short text. -/
theorem utf8ByteSize_aliasOf {kind upstream : String} {drawn : Uuid} (hdrawn : drawn < 2 ^ 128) :
    (aliasOf kind upstream drawn).utf8ByteSize ≤ 512 := by
  have hsimple : drawn.simple.toList.length = 32 := by
    unfold Uuid.simple Uuid.hexDigits
    rw [String.toList_ofList, List.length_map, List.length_reverse]
    exact Nat.length_digitsAppend (by decide) 32 hdrawn
  have hprefix : ∀ before : String, before.toList.length ≤ 64 →
      (before ++ "_" ++ drawn.simple).utf8ByteSize ≤ 512 := by
    intro before hb
    have hsize := utf8ByteSize_le (before ++ "_" ++ drawn.simple)
    rw [String.toList_append, String.toList_append, List.length_append, List.length_append,
      hsimple] at hsize
    have hone : "_".toList.length = 1 := rfl
    omega
  unfold aliasOf
  refine hprefix _ ?_
  split
  · decide
  · split
    · decide
    · exact length_itemPrefix upstream

/-- The alias of a genuine identifier is no hash: if it echoes one that was sent, then for a
client identifier that is not the alias. -/
theorem Traced.not_isHash {h : History} (ht : h.Traced v5) (hv5 : Function.Injective2 v5)
    {kind upstream : String} {drawn : Uuid} (hkind : isAliasKind kind = true)
    (hfresh : h.Fresh kind upstream drawn) (hgenuine : h.Genuine v5 upstream) :
    ¬IdMapping.IsHash v5 h.ids.binding.ns ⟨kind, aliasOf kind upstream drawn, upstream⟩ := by
  intro hhash
  rcases hgenuine with hown | ⟨m, hm, rfl⟩
  · exact hown _ hhash
  · obtain ⟨hmkind, ns, hupstream⟩ := ht.sent m hm
    unfold IdMapping.IsHash at hhash
    rw [hupstream, lastSegment_upstreamOf v5 hmkind] at hhash
    obtain ⟨-, hname⟩ := hv5 (Uuid.simple_injective hhash)
    obtain ⟨-, hclient⟩ := nameOf_inj (nul_notMem_aliasKind hmkind)
      (nul_notMem_aliasKind hkind) hname
    rw [← hupstream] at hclient
    exact hfresh.2 m (List.mem_append_right _ hm) hclient

/-- A session that begins has no mappings. -/
theorem traced_first (b : Binding) : (first v5 b).Traced v5 where
  related := fun g hg ↦ absurd hg List.not_mem_nil
  made := by
    rintro ns m (⟨g, hg, -⟩ | ⟨-, hm⟩)
    · exact absurd hg List.not_mem_nil
    · change m ∈ [] ++ (IdentityMap.new v5 b []).pending at hm
      rw [pending_new] at hm
      exact absurd hm List.not_mem_nil
  kept := fun m hm ↦ absurd hm List.not_mem_nil
  shape := fun m hm ↦ absurd hm List.not_mem_nil
  unique := fun m hm ↦ absurd hm List.not_mem_nil
  sent := fun m hm ↦ absurd hm List.not_mem_nil

/-- Where mappings are kept does not matter. -/
theorem Traced.move {h h' : History} (ht : h.Traced v5)
    (hrelated : ∀ g ∈ h'.earlier, g.1.Related h'.ids.binding)
    (hholds : ∀ ns m, h'.Holds ns m ↔ h.Holds ns m) (hcreated : h'.created = h.created)
    (hsent : h'.sent = h.sent) : h'.Traced v5 where
  related := hrelated
  made := fun ns m hm ↦ hcreated ▸ ht.made ns m ((hholds ns m).mp hm)
  kept := fun m hm ↦ by
    obtain ⟨ns, hm, hnot⟩ := ht.kept m (hcreated ▸ hm)
    exact ⟨ns, (hholds ns m).mpr hm, hnot⟩
  shape := hcreated ▸ ht.shape
  unique := hcreated ▸ ht.unique
  sent := hsent ▸ ht.sent

/-- A new mapping of the request at work. -/
theorem holds_insert (h : History) (q : IdMapping) (created sent : List IdMapping) (ns : Uuid)
    (m : IdMapping) :
    Holds { h with
      ids := h.ids.insert q.kind q.clientId q.upstreamId, created := created, sent := sent } ns m ↔
      h.Holds ns m ∨ (h.ids.binding.ns = ns ∧ m = q) := by
  change (_ ∨ (_ ∧ m ∈ h.stored ++ (h.ids.pending ++ [q]))) ↔ (_ ∨ _) ∨ _
  rw [← List.append_assoc, List.mem_append (t := [q]), List.mem_singleton, and_or_left, or_assoc]
  exact Iff.rfl

/-- A client's identifier gets a hash. -/
theorem Traced.outbound {h : History} (ht : h.Traced v5) {m : IdMapping}
    (hkind : isAliasKind m.kind = true)
    (hm : m.upstreamId = upstreamOf v5 h.ids.binding.ns m.kind m.clientId) :
    Traced v5 { h with
      ids := h.ids.insert m.kind m.clientId m.upstreamId, sent := h.sent ++ [m] } := by
  have hholds := holds_insert h m h.created (h.sent ++ [m])
  refine ⟨ht.related, fun ns q hq ↦ ?_, fun q hq ↦ ?_, ht.shape, ht.unique, fun q hq ↦ ?_⟩
  · rcases (hholds ns q).mp hq with hq | ⟨rfl, rfl⟩
    · exact ht.made ns q hq
    · left
      unfold IdMapping.IsHash
      rw [hm, lastSegment_upstreamOf v5 hkind]
  · obtain ⟨ns, hq, hnot⟩ := ht.kept q hq
    exact ⟨ns, (hholds ns q).mpr (.inl hq), hnot⟩
  · rcases List.mem_append.mp hq with hq | hq
    · exact ht.sent q hq
    · cases List.mem_singleton.mp hq
      exact ⟨hkind, _, hm⟩

/-- An upstream identifier gets an alias. -/
theorem Traced.inbound {h : History} (ht : h.Traced v5) {m : IdMapping}
    (hkind : isAliasKind m.kind = true) (hnot : ¬m.IsHash v5 h.ids.binding.ns)
    (hshort : m.clientId.utf8ByteSize ≤ 512) (hfresh : ∀ q ∈ h.created, q.clientId ≠ m.clientId) :
    Traced v5 { h with
      ids := h.ids.insert m.kind m.clientId m.upstreamId, created := h.created ++ [m] } := by
  have hholds := holds_insert h m (h.created ++ [m]) h.sent
  refine ⟨ht.related, fun ns q hq ↦ ?_, fun q hq ↦ ?_, fun q hq ↦ ?_, fun q hq q' hq' heq ↦ ?_,
    ht.sent⟩
  · rcases (hholds ns q).mp hq with hq | ⟨rfl, rfl⟩
    · exact (ht.made ns q hq).imp_right (List.mem_append_left _)
    · exact .inr (List.mem_append_right _ (List.mem_singleton_self q))
  · rcases List.mem_append.mp hq with hq | hq
    · obtain ⟨ns, hq, hq'⟩ := ht.kept q hq
      exact ⟨ns, (hholds ns q).mpr (.inl hq), hq'⟩
    · cases List.mem_singleton.mp hq
      exact ⟨_, (hholds _ m).mpr (.inr ⟨rfl, rfl⟩), hnot⟩
  · rcases List.mem_append.mp hq with hq | hq
    · exact ht.shape q hq
    · cases List.mem_singleton.mp hq
      exact ⟨hkind, hshort⟩
  · rcases List.mem_append.mp hq with hq | hq
    · rcases List.mem_append.mp hq' with hq' | hq'
      · exact ht.unique q hq q' hq' heq
      · cases List.mem_singleton.mp hq'
        exact absurd heq (hfresh q hq)
    · cases List.mem_singleton.mp hq
      rcases List.mem_append.mp hq' with hq' | hq'
      · exact absurd heq.symm (hfresh q' hq')
      · exact (List.mem_singleton.mp hq').symm

/-- Every step keeps track of where the mappings come from. -/
theorem Traced.step (hv5 : Function.Injective2 v5) {h h' : History} (ht : h.Traced v5)
    (hs : Step v5 h h') : h'.Traced v5 := by
  cases hs with
  | @outbound kind client upstream ids' hkind hanswer =>
    unfold IdentityMap.outbound at hanswer
    split at hanswer
    · cases hanswer
    · split at hanswer
      · next known hknown =>
        cases hanswer
        rw [hknown]
        exact ht.move ht.related (fun _ _ ↦ Iff.rfl) rfl (List.append_nil _)
      · next hknown =>
        cases hanswer
        rw [hknown]
        exact ht.outbound (m := ⟨kind, client, _⟩) hkind rfl
  | @inbound kind upstream drawn client ids' hkind hfresh hgenuine hanswer =>
    have hnot := ht.not_isHash hv5 hkind hfresh hgenuine
    unfold IdentityMap.inbound at hanswer
    split at hanswer
    · cases hanswer
    · split at hanswer
      · next known hknown =>
        cases hanswer
        rw [hknown]
        exact ht.move ht.related (fun _ _ ↦ Iff.rfl) (List.append_nil _) rfl
      · next hknown =>
        cases hanswer
        rw [hknown]
        exact ht.inbound (m := ⟨kind, _, upstream⟩) hkind hnot (utf8ByteSize_aliasOf hfresh.1)
          fun q hq ↦ hfresh.2 q (List.mem_append_left _ hq)
  | @save rows hrows =>
    obtain ⟨-, hbinding, hpending⟩ := knows_loadIdentities v5 h.ids.binding rows ht.related
    refine ht.move (fun g hg ↦ hbinding.symm ▸ ht.related g hg) (fun ns m ↦ ?_) rfl rfl
    unfold Holds
    dsimp only
    rw [hbinding, hpending, List.append_nil, hrows.mem_iff]
  | next binding hsaved hrelated =>
    have hall : ∀ g ∈ h.earlier ++ [(h.ids.binding, h.stored)], g.1.Related binding := by
      intro g hg
      rcases List.mem_append.mp hg with hg | hg
      · have hg := ht.related g hg
        exact ⟨hg.session.trans hrelated.session, hg.provider.trans hrelated.provider,
          hg.accessKind.trans hrelated.accessKind⟩
      · exact List.mem_singleton.mp hg ▸ hrelated
    obtain ⟨-, hbinding, hpending⟩ := knows_loadIdentities v5 binding [] hall
    refine ht.move (fun g hg ↦ hbinding.symm ▸ hall g hg) (fun ns m ↦ ?_) rfl rfl
    unfold Holds
    dsimp only
    rw [hpending, hsaved, List.append_nil, List.append_nil]
    constructor
    · rintro (⟨g, hg, hns, hm⟩ | ⟨-, hm⟩)
      · rcases List.mem_append.mp hg with hg | hg
        · exact .inl ⟨g, hg, hns, hm⟩
        · cases List.mem_singleton.mp hg
          exact .inr ⟨hns, hm⟩
      · exact absurd hm List.not_mem_nil
    · rintro (⟨g, hg, hns, hm⟩ | ⟨hns, hm⟩)
      · exact .inl ⟨g, List.mem_append_left _ hg, hns, hm⟩
      · exact .inl ⟨_, List.mem_append_right _ (List.mem_singleton_self _), hns, hm⟩

/-- Every history is traced. -/
theorem Reachable.traced (hv5 : Function.Injective2 v5) {b : Binding} {h : History}
    (hr : Reachable v5 b h) : h.Traced v5 := by
  induction hr with
  | refl => exact traced_first b
  | tail _ hs ih => exact ih.step hv5 hs

/-- A request of today resolves the aliases, each to the identifier it was made for, and nothing
else. -/
theorem Reachable.resolves (hv5 : Function.Injective2 v5) {b : Binding} {h : History}
    (hr : Reachable v5 b h) (hsaved : h.ids.pending = []) {rows : List IdMapping}
    (hrows : rows.Perm h.stored) :
    (∀ m ∈ h.created,
      (loadIdentities v5 h.ids.binding rows h.earlier).originalId m.kind m.clientId =
        m.upstreamId) ∧
    ∀ kind id, (∀ m ∈ h.created, m.kind = kind → m.clientId ≠ id) →
      (loadIdentities v5 h.ids.binding rows h.earlier).originalId kind id = id := by
  have ht := hr.traced hv5
  obtain ⟨hknows, -, -⟩ := knows_loadIdentities v5 h.ids.binding rows ht.related
  have hholds : ∀ ns m, h.Holds ns m ↔
      ∃ g ∈ (h.ids.binding, rows) :: h.earlier, g.1.ns = ns ∧ m ∈ g.2 := by
    intro ns m
    unfold Holds
    rw [hsaved, List.append_nil, ← hrows.mem_iff, List.exists_mem_cons_iff]
    exact or_comm
  -- what is resolved is an alias that was made
  have hmade : ∀ kind id upstream,
      (loadIdentities v5 h.ids.binding rows h.earlier).legacyAliases.lookup (kind, id) =
        some upstream → ⟨kind, id, upstream⟩ ∈ h.created := by
    intro kind id upstream hl
    obtain ⟨g, hg, hm, hnot⟩ := hknows.adds kind id upstream hl
    exact (ht.made _ _ ((hholds _ _).mpr ⟨g, hg, rfl, hm⟩)).resolve_left hnot
  constructor
  · intro m hm
    obtain ⟨hkind, hshort⟩ := ht.shape m hm
    obtain ⟨ns, hheld, hnot⟩ := ht.kept m hm
    obtain ⟨g, hg, rfl, hmem⟩ := (hholds ns m).mp hheld
    obtain ⟨upstream, hl⟩ := hknows.covers g hg m hmem hkind hnot
    have hsame := ht.unique _ (hmade _ _ _ hl) m hm rfl
    unfold originalId
    rw [if_neg (Nat.not_lt.mpr hshort), hl, Option.getD_some]
    exact congrArg IdMapping.upstreamId hsame
  · intro kind id hother
    unfold originalId
    split
    · rfl
    · cases hl : (loadIdentities v5 h.ids.binding rows h.earlier).legacyAliases.lookup (kind, id)
        with
      | none => rfl
      | some upstream => exact absurd rfl (hother _ (hmade _ _ _ hl) rfl)

end History
end Xxgate.Core

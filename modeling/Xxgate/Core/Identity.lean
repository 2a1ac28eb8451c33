import Mathlib.Data.Nat.Digits.Lemmas
import Mathlib.Logic.Equiv.List
import Mathlib.Logic.Function.Basic
import Xxgate.Base.FiniteMap
import Xxgate.Core.Types

/-!
# Identity mappings

`crates/xxgate-core/src/identity.rs`: the identifiers of a client and those sent upstream in
their place. UUIDs of version 5 are hashes of a namespace and a name; here they are a
function of both, and what needs them to differ assumes it injective.
-/

namespace Xxgate.Core

open Xxgate.Base FiniteMap

/-! ### The texts of UUIDs -/

namespace Uuid

/-- The hexadecimal digits of a UUID, 32 of them. -/
def hexDigits (u : Uuid) : List Char := (Nat.digitsAppend 16 32 u).reverse.map Nat.digitChar

/-- `Uuid::simple`. -/
def simple (u : Uuid) : String := String.ofList u.hexDigits

/-- `Uuid::to_string`: the digits in groups of 8, 4, 4, 4 and 12. -/
def hyphenated (u : Uuid) : String :=
  let digits := u.hexDigits
  String.ofList (digits.take 8 ++ '-' :: ((digits.drop 8).take 4 ++ '-' ::
    ((digits.drop 12).take 4 ++ '-' :: ((digits.drop 16).take 4 ++ '-' :: digits.drop 20))))

/-- The value of a hexadecimal digit. -/
def digitValue (c : Char) : Nat := if 97 ≤ c.toNat then c.toNat - 87 else c.toNat - 48

private theorem digitValue_digitChar : ∀ d < 16, digitValue (Nat.digitChar d) = d := by decide

private theorem digitChar_ne : ∀ d < 16, Nat.digitChar d ≠ '-' ∧ Nat.digitChar d ≠ '_' := by decide

/-- The digits of a UUID are neither dashes nor underscores. -/
theorem hexDigits_ne (u : Uuid) : ∀ c ∈ u.hexDigits, c ≠ '-' ∧ c ≠ '_' := by
  intro c hc
  obtain ⟨d, hd, rfl⟩ := List.mem_map.mp hc
  exact digitChar_ne d (Nat.lt_of_mem_digitsAppend (by decide) 32 d (List.mem_reverse.mp hd))

/-- The digits spell the UUID. -/
theorem ofDigits_hexDigits (u : Uuid) :
    Nat.ofDigits 16 (u.hexDigits.map digitValue).reverse = u := by
  have hvalues : u.hexDigits.map digitValue = (Nat.digitsAppend 16 32 u).reverse := by
    unfold hexDigits
    rw [List.map_map, List.map_congr_left (g := id), List.map_id]
    intro d hd
    exact digitValue_digitChar d
      (Nat.lt_of_mem_digitsAppend (by decide) 32 d (List.mem_reverse.mp hd))
  rw [hvalues, List.reverse_reverse, Nat.digitsAppend, Nat.ofDigits_append_replicate_zero,
    Nat.ofDigits_digits]

private theorem hexDigits_injective : Function.Injective hexDigits := by
  intro u v h
  rw [← ofDigits_hexDigits u, ← ofDigits_hexDigits v, h]

/-- UUIDs are told apart by their digits. -/
theorem simple_injective : Function.Injective simple := fun _ _ h ↦
  hexDigits_injective (String.ofList_injective h)

/-- A UUID has at least 32 digits. -/
theorem length_simple (u : Uuid) : 32 ≤ u.simple.toList.length := by
  unfold simple hexDigits Nat.digitsAppend
  rw [String.toList_ofList, List.length_map, List.length_reverse, List.length_append,
    List.length_replicate]
  omega

/-- Without its dashes a UUID shows its digits. -/
theorem filter_hyphenated (u : Uuid) :
    u.hyphenated.toList.filter (· ≠ '-') = u.hexDigits := by
  have hself : ∀ l : List Char, l.Sublist u.hexDigits → l.filter (· ≠ '-') = l := by
    intro l hl
    refine List.filter_eq_self.mpr fun c hc ↦ ?_
    exact decide_eq_true (hexDigits_ne u c (hl.subset hc)).1
  unfold hyphenated
  rw [String.toList_ofList]
  simp only [List.filter_append, List.filter_cons, ne_eq, not_true_eq_false, decide_false,
    Bool.false_eq_true, if_false]
  simp only [← ne_eq]
  rw [hself _ (List.take_sublist ..), hself _ ((List.take_sublist ..).trans (List.drop_sublist ..)),
    hself _ ((List.take_sublist ..).trans (List.drop_sublist ..)),
    hself _ ((List.take_sublist ..).trans (List.drop_sublist ..)), hself _ (List.drop_sublist ..)]
  have hjoin : ∀ n m : Nat, (u.hexDigits.drop n).take m ++ u.hexDigits.drop (n + m) =
      u.hexDigits.drop n := fun n m ↦ by
    rw [← List.drop_drop, List.take_append_drop]
  rw [hjoin 16 4, hjoin 12 4, hjoin 8 4, List.take_append_drop]

/-- UUIDs are told apart by their hyphenated text. -/
theorem hyphenated_injective : Function.Injective hyphenated := by
  intro u v h
  apply hexDigits_injective
  rw [← filter_hyphenated u, ← filter_hyphenated v, h]

end Uuid

/-! ### The map of a binding -/

/-- `identity.rs:57`. -/
structure IdMapping where
  kind : String
  clientId : String
  upstreamId : String
  deriving DecidableEq, Repr

/-- `identity.rs:77`; the trace of the rewriting is not kept. -/
structure IdentityMap where
  binding : Binding
  forward : FiniteMap (String × String) String
  reverse : FiniteMap (String × String) String
  legacyAliases : FiniteMap (String × String) String
  pending : List IdMapping

/-- `identity.rs:211`: the prefix of an item identifier, before its first underscore. -/
def itemPrefix (id : String) : String :=
  let chars := id.toList
  let before := chars.takeWhile (· ≠ '_')
  if '_' ∈ chars ∧ before ≠ [] ∧ before.length ≤ 64 ∧ before.all Char.isAlphanum then
    String.ofList before
  else "msg"

/-- `id.rsplit('_').next()`: what follows the last underscore, or everything. -/
def lastSegment (id : String) : String :=
  String.ofList (id.toList.reverse.takeWhile (· ≠ '_')).reverse

namespace IdentityMap

variable (v5 : Uuid → String → Uuid)

/-- What separates the kind from the identifier in a name. -/
def nul : Char := Char.ofNat 0

/-- The name an identifier is hashed under: its kind and the client's identifier. -/
def nameOf (kind client : String) : String := kind ++ String.singleton nul ++ client

/-- `identity.rs:152–165`: the identifier sent upstream for a client's. `Uuid::parse_str` reads
its own text back. -/
def upstreamOf (ns : Uuid) (kind client : String) : String :=
  let id := v5 ns (nameOf kind client)
  if kind = "item" then itemPrefix client ++ "_" ++ id.simple
  else if kind = "call" then "call_" ++ id.simple
  else if kind = "response" then "resp_" ++ id.simple
  else id.hyphenated

/-- The kinds of the aliases that older gateways issued. -/
def isAliasKind (kind : String) : Bool := kind == "item" || kind == "call" || kind == "response"

/-- `identity.rs:112–130`: one mapping of an older generation. One made of a client's identifier
ends in its hash; any other is an alias issued for an upstream identifier, and the first stays. -/
def importAlias (ns : Uuid) (aliases : FiniteMap (String × String) String) (m : IdMapping) :
    FiniteMap (String × String) String :=
  if !isAliasKind m.kind then aliases
  else if lastSegment m.upstreamId = (v5 ns (nameOf m.kind m.clientId)).simple then aliases
  else if (m.kind, m.clientId) ∈ aliases then aliases
  else aliases.insert (m.kind, m.clientId) m.upstreamId

/-- `identity.rs:104`. -/
def importLegacyAliases (ids : IdentityMap) (binding : Binding) (mappings : List IdMapping) :
    IdentityMap :=
  if binding.session ≠ ids.binding.session ∨ binding.provider ≠ ids.binding.provider ∨
      binding.accessKind ≠ ids.binding.accessKind then ids
  else { ids with
    legacyAliases := mappings.foldl (importAlias v5 binding.ns) ids.legacyAliases }

/-- `identity.rs:97–101`: one stored mapping. -/
def load (ids : IdentityMap) (m : IdMapping) : IdentityMap :=
  { ids with
    forward := ids.forward.insert (m.kind, m.clientId) m.upstreamId
    reverse := ids.reverse.insert (m.kind, m.upstreamId) m.clientId }

/-- `identity.rs:87`. -/
def new (binding : Binding) (mappings : List IdMapping) : IdentityMap :=
  let ids : IdentityMap := ⟨binding, ∅, ∅, ∅, []⟩
  mappings.foldl load (ids.importLegacyAliases v5 binding mappings)

/-- `identity.rs:132`. -/
def originalId (ids : IdentityMap) (kind id : String) : String :=
  if 512 < id.utf8ByteSize then id else (ids.legacyAliases.lookup (kind, id)).getD id

/-- `identity.rs:140`. -/
def existing (ids : IdentityMap) (kind client : String) : Option String :=
  ids.forward.lookup (kind, client)

/-- `identity.rs:189`. -/
def insert (ids : IdentityMap) (kind client upstream : String) : IdentityMap :=
  { ids with
    forward := ids.forward.insert (kind, client) upstream
    reverse := ids.reverse.insert (kind, upstream) client
    pending := ids.pending ++ [⟨kind, client, upstream⟩] }

/-- `identity.rs:145`. -/
def outbound (kind client : String) (ids : IdentityMap) : Result (String × IdentityMap) :=
  if client = "" ∨ 512 < client.utf8ByteSize then .error (.invalid "Identity length is invalid")
  else
    match ids.existing kind client with
    | some upstream => .ok (upstream, ids)
    | none =>
      let upstream := upstreamOf v5 ids.binding.ns kind client
      .ok (upstream, ids.insert kind client upstream)

/-- `identity.rs:180–185`: the alias of an upstream identifier; the UUID is drawn by the
caller. -/
def aliasOf (kind upstream : String) (drawn : Uuid) : String :=
  (if kind = "response" then "resp" else if kind = "call" then "call" else itemPrefix upstream) ++
    "_" ++ drawn.simple

/-- `identity.rs:169`. -/
def inbound (kind upstream : String) (drawn : Uuid) (ids : IdentityMap) :
    Result (String × IdentityMap) :=
  if upstream = "" ∨ 512 < upstream.utf8ByteSize then
    .error ⟨502, "invalid_upstream_id", "Upstream identity length is invalid"⟩
  else
    match ids.reverse.lookup (kind, upstream) with
    | some client => .ok (client, ids)
    | none =>
      let client := aliasOf kind upstream drawn
      .ok (client, ids.insert kind client upstream)

/-- `identity.rs:200`. -/
def takePending (ids : IdentityMap) : List IdMapping × IdentityMap :=
  (ids.pending, { ids with pending := [] })

/-! ### What distinguishes identifiers -/

/-- What stands before the first separator. -/
theorem takeWhile_separator {α : Type} [DecidableEq α] {sep : α} {xs : List α} (h : sep ∉ xs)
    (ys : List α) : (xs ++ sep :: ys).takeWhile (· ≠ sep) = xs := by
  rw [List.takeWhile_append_of_pos, List.takeWhile_cons_of_neg, List.append_nil]
  · exact fun hne ↦ of_decide_eq_true hne rfl
  · exact fun x hx ↦ decide_eq_true fun he ↦ h (he ▸ hx)

/-- A name shows its kind, which holds no NUL, and the client's identifier. -/
theorem nameOf_inj {kind kind' client client' : String} (hk : nul ∉ kind.toList)
    (hk' : nul ∉ kind'.toList) (h : nameOf kind client = nameOf kind' client') :
    kind = kind' ∧ client = client' := by
  have hlist : kind.toList ++ nul :: client.toList = kind'.toList ++ nul :: client'.toList := by
    have htexts := congrArg String.toList h
    unfold nameOf at htexts
    rwa [String.toList_append, String.toList_append, String.toList_append, String.toList_append,
      List.append_assoc, List.append_assoc] at htexts
  have hkind := congrArg (List.takeWhile (· ≠ nul)) hlist
  rw [takeWhile_separator hk, takeWhile_separator hk'] at hkind
  rw [hkind] at hlist
  have hclient := List.append_cancel_left hlist
  exact ⟨String.toList_inj.mp hkind, String.toList_inj.mp (List.cons.inj hclient).2⟩

/-- What follows an underscore and has none is the last segment. -/
theorem lastSegment_append (before : String) {rest : String} (h : '_' ∉ rest.toList) :
    lastSegment (before ++ "_" ++ rest) = rest := by
  have hlist : (before ++ "_" ++ rest).toList.reverse =
      rest.toList.reverse ++ '_' :: before.toList.reverse := by
    rw [String.toList_append, String.toList_append, List.reverse_append, List.reverse_append]
    rfl
  unfold lastSegment
  rw [hlist, takeWhile_separator (fun hc ↦ h (List.mem_reverse.mp hc)), List.reverse_reverse,
    String.ofList_toList]

private theorem underscore_notMem_simple (u : Uuid) : '_' ∉ u.simple.toList := by
  unfold Uuid.simple
  rw [String.toList_ofList]
  exact fun h ↦ (u.hexDigits_ne '_' h).2 rfl

/-- An identifier of a message kind ends in the hash it was made of. -/
theorem lastSegment_upstreamOf {kind : String} (hk : isAliasKind kind = true) (ns : Uuid)
    (client : String) :
    lastSegment (upstreamOf v5 ns kind client) = (v5 ns (nameOf kind client)).simple := by
  have hsegment := fun before ↦
    lastSegment_append before (underscore_notMem_simple (v5 ns (nameOf kind client)))
  unfold upstreamOf
  split
  · exact hsegment _
  · split
    · exact hsegment "call"
    · split
      · exact hsegment "resp"
      · next h1 h2 h3 => simp [isAliasKind, h1, h2, h3] at hk

/-- Identifiers of one kind are as different as the hashes they are made of. -/
theorem hash_of_upstreamOf {kind client client' : String} {ns ns' : Uuid}
    (h : upstreamOf v5 ns kind client = upstreamOf v5 ns' kind client') :
    v5 ns (nameOf kind client) = v5 ns' (nameOf kind client') := by
  cases hk : isAliasKind kind with
  | true =>
    have hseg := congrArg lastSegment h
    rw [lastSegment_upstreamOf v5 hk, lastSegment_upstreamOf v5 hk] at hseg
    exact Uuid.simple_injective hseg
  | false =>
    simp only [isAliasKind, Bool.or_eq_false_iff, beq_eq_false_iff_ne] at hk
    obtain ⟨⟨h1, h2⟩, h3⟩ := hk
    unfold upstreamOf at h
    rw [if_neg h1, if_neg h2, if_neg h3, if_neg h1, if_neg h2, if_neg h3] at h
    exact Uuid.hyphenated_injective h

/-- A new map knows the aliases of its own binding. -/
theorem new_eq (binding : Binding) (mappings : List IdMapping) :
    new v5 binding mappings = mappings.foldl load
      ⟨binding, ∅, ∅, mappings.foldl (importAlias v5 binding.ns) ∅, []⟩ := by
  have hown : ¬(binding.session ≠ binding.session ∨ binding.provider ≠ binding.provider ∨
      binding.accessKind ≠ binding.accessKind) := by
    simp
  exact congrArg (mappings.foldl load) (if_neg hown)

/-- Loading mappings leaves the binding, the aliases and what is still to be saved. -/
theorem foldl_load (mappings : List IdMapping) (ids : IdentityMap) :
    (mappings.foldl load ids).binding = ids.binding ∧
      (mappings.foldl load ids).legacyAliases = ids.legacyAliases ∧
      (mappings.foldl load ids).pending = ids.pending := by
  induction mappings generalizing ids with
  | nil => exact ⟨rfl, rfl, rfl⟩
  | cons m mappings ih => exact ih (ids.load m)

@[simp] theorem binding_new (binding : Binding) (mappings : List IdMapping) :
    (new v5 binding mappings).binding = binding := by
  rw [new_eq]
  exact (foldl_load mappings _).1

@[simp] theorem pending_new (binding : Binding) (mappings : List IdMapping) :
    (new v5 binding mappings).pending = [] := by
  rw [new_eq]
  exact (foldl_load mappings _).2.2

/-- What a new map has for an identifier was stored. -/
theorem existing_new {binding : Binding} {mappings : List IdMapping} {kind client upstream : String}
    (h : (new v5 binding mappings).existing kind client = some upstream) :
    ⟨kind, client, upstream⟩ ∈ mappings := by
  have hload : ∀ (mappings : List IdMapping) (ids : IdentityMap),
      (mappings.foldl load ids).existing kind client = some upstream →
        ⟨kind, client, upstream⟩ ∈ mappings ∨ ids.existing kind client = some upstream := by
    intro mappings
    induction mappings with
    | nil => exact fun _ h ↦ .inr h
    | cons m mappings ih =>
      intro ids h
      rcases ih (ids.load m) h with hmem | hlookup
      · exact .inl (List.mem_cons_of_mem _ hmem)
      · change (ids.forward.insert (m.kind, m.clientId) m.upstreamId).lookup _ = _ at hlookup
        rw [lookup_insert_ite] at hlookup
        split at hlookup
        · next heq =>
          cases heq
          cases hlookup
          exact .inl List.mem_cons_self
        · exact .inr hlookup
  rw [new_eq] at h
  rcases hload mappings _ h with hmem | hempty
  · exact hmem
  · cases (AList.lookup_empty (kind, client)).symm.trans hempty

/-! ### Maps made of hashes -/

/-- The mappings of some kinds are those of their clients' identifiers, in both directions. -/
structure Canonical (kinds : List String) (ids : IdentityMap) : Prop where
  forward : ∀ kind ∈ kinds, ∀ client upstream,
    ids.forward.lookup (kind, client) = some upstream →
      upstream = upstreamOf v5 ids.binding.ns kind client
  reverse : ∀ kind ∈ kinds, ∀ client upstream,
    ids.reverse.lookup (kind, upstream) = some client ↔
      ids.forward.lookup (kind, client) = some upstream

variable {v5}

/-- Clients of one kind have different identifiers upstream. -/
theorem upstreamOf_inj (hv5 : Function.Injective2 v5) {kind client client' : String} {ns ns' : Uuid}
    (hk : nul ∉ kind.toList) (h : upstreamOf v5 ns kind client = upstreamOf v5 ns' kind client') :
    ns = ns' ∧ client = client' := by
  obtain ⟨hns, hname⟩ := hv5 (hash_of_upstreamOf v5 h)
  exact ⟨hns, (nameOf_inj hk hk hname).2⟩

namespace Canonical

variable {kinds : List String} {ids : IdentityMap}

/-- A map with nothing in it. -/
theorem empty (binding : Binding) (aliases : FiniteMap (String × String) String) :
    Canonical v5 kinds ⟨binding, ∅, ∅, aliases, []⟩ where
  forward := fun kind _ client _ h ↦ by cases (AList.lookup_empty (kind, client)).symm.trans h
  reverse := fun kind _ client upstream ↦ by
    constructor
    · exact fun h ↦ by cases (AList.lookup_empty (kind, upstream)).symm.trans h
    · exact fun h ↦ by cases (AList.lookup_empty (kind, client)).symm.trans h

/-- One more mapping made of the client's identifier. -/
theorem load (h : Canonical v5 kinds ids) (hv5 : Function.Injective2 v5)
    (hkinds : ∀ kind ∈ kinds, nul ∉ kind.toList) (m : IdMapping)
    (hm : m.kind ∈ kinds → m.upstreamId = upstreamOf v5 ids.binding.ns m.kind m.clientId) :
    Canonical v5 kinds (ids.load m) := by
  have hforward : ∀ kind ∈ kinds, ∀ client upstream,
      (ids.load m).forward.lookup (kind, client) = some upstream →
        upstream = upstreamOf v5 ids.binding.ns kind client := by
    intro kind hk client upstream hl
    change (ids.forward.insert (m.kind, m.clientId) m.upstreamId).lookup _ = _ at hl
    rw [lookup_insert_ite] at hl
    split at hl
    · next heq =>
      cases heq
      exact (Option.some.inj hl).symm.trans (hm hk)
    · exact h.forward kind hk client upstream hl
  refine ⟨hforward, fun kind hk client upstream ↦ ?_⟩
  change (ids.reverse.insert (m.kind, m.upstreamId) m.clientId).lookup _ = _ ↔
    (ids.forward.insert (m.kind, m.clientId) m.upstreamId).lookup _ = _
  rw [lookup_insert_ite, lookup_insert_ite]
  by_cases hkind : kind = m.kind
  · subst hkind
    by_cases hc : client = m.clientId
    · subst hc
      by_cases hu : upstream = m.upstreamId
      · rw [hu, if_pos rfl, if_pos rfl]
        exact ⟨fun _ ↦ rfl, fun _ ↦ rfl⟩
      · -- the identifier of this client is the one of the mapping
        rw [if_neg (by simp [hu]), if_pos rfl, h.reverse _ hk]
        refine ⟨fun hl ↦ absurd ?_ hu, fun hl ↦ absurd (Option.some.inj hl).symm hu⟩
        exact (h.forward _ hk _ _ hl).trans (hm hk).symm
    · rw [if_neg (c := (m.kind, client) = _) (by simp [hc])]
      by_cases hu : upstream = m.upstreamId
      · -- no other client has the identifier of the mapping
        rw [hu, if_pos rfl]
        refine ⟨fun hl ↦ absurd (Option.some.inj hl).symm hc, fun hl ↦ absurd ?_ hc⟩
        have hsame := (h.forward _ hk _ _ hl).symm.trans (hm hk)
        exact (upstreamOf_inj hv5 (hkinds _ hk) hsame).2
      · rw [if_neg (by simp [hu])]
        exact h.reverse _ hk client upstream
  · rw [if_neg (by simp [hkind]), if_neg (by simp [hkind])]
    exact h.reverse kind hk client upstream

/-- What is still to be saved does not matter. -/
theorem congr_pending (h : Canonical v5 kinds ids) (pending : List IdMapping) :
    Canonical v5 kinds { ids with pending := pending } :=
  ⟨h.forward, h.reverse⟩

/-- A map loaded from mappings made of the clients' identifiers. -/
theorem new (hv5 : Function.Injective2 v5) (hkinds : ∀ kind ∈ kinds, nul ∉ kind.toList)
    (binding : Binding) (mappings : List IdMapping)
    (hm : ∀ m ∈ mappings, m.kind ∈ kinds →
      m.upstreamId = upstreamOf v5 binding.ns m.kind m.clientId) :
    Canonical v5 kinds (IdentityMap.new v5 binding mappings) := by
  have hloads : ∀ (ms : List IdMapping) (ids : IdentityMap), ids.binding = binding →
      (∀ m ∈ ms, m.kind ∈ kinds → m.upstreamId = upstreamOf v5 binding.ns m.kind m.clientId) →
      Canonical v5 kinds ids → Canonical v5 kinds (ms.foldl IdentityMap.load ids) := by
    intro ms
    induction ms with
    | nil => exact fun _ _ _ h ↦ h
    | cons m ms ih =>
      intro ids hb hms h
      refine ih (ids.load m) hb (fun q hq ↦ hms q (List.mem_cons_of_mem _ hq)) ?_
      exact h.load hv5 hkinds m (hb ▸ hms m List.mem_cons_self)
  rw [new_eq]
  exact hloads mappings _ rfl hm (empty binding _)

/-- The identifier of a client is its hash, and the map stays made of hashes. -/
theorem outbound (h : Canonical v5 kinds ids) (hv5 : Function.Injective2 v5)
    (hkinds : ∀ kind ∈ kinds, nul ∉ kind.toList) {kind client upstream : String}
    {ids' : IdentityMap} (hk : kind ∈ kinds)
    (ho : IdentityMap.outbound v5 kind client ids = .ok (upstream, ids')) :
    upstream = upstreamOf v5 ids.binding.ns kind client ∧ Canonical v5 kinds ids' ∧
      (ids' = ids ∨ ids' = ids.insert kind client upstream) := by
  unfold IdentityMap.outbound at ho
  split at ho
  · cases ho
  · split at ho
    · next found hfound =>
      cases ho
      exact ⟨h.forward kind hk client _ hfound, h, .inl rfl⟩
    · cases ho
      exact ⟨rfl, (h.load hv5 hkinds ⟨kind, client, _⟩ fun _ ↦ rfl).congr_pending _, .inr rfl⟩

end Canonical
end IdentityMap

/-! ### A hash to evaluate -/

namespace Uuid

/-- Hashes that are known, and beyond the range of UUIDs a different one for every other name:
an injective function to evaluate examples with. -/
def knownHash (known : List ((Uuid × String) × Uuid)) (ns : Uuid) (name : String) : Uuid :=
  match known.find? (·.1 = (ns, name)) with
  | some e => e.2
  | none => 2 ^ 128 + Nat.pair ns (Encodable.encode (name.toList.map Char.toNat))

/-- Known hashes that differ make an injective function. -/
theorem knownHash_injective {known : List ((Uuid × String) × Uuid)}
    (hn : (known.map Prod.snd).Nodup) (hlt : ∀ e ∈ known, e.2 < 2 ^ 128) :
    Function.Injective2 (knownHash known) := by
  intro ns ns' name name' h
  have hkey : ∀ ns name e, known.find? (·.1 = (ns, name)) = some e → e.1 = (ns, name) := by
    intro ns name e he
    have hfound := List.find?_some he
    exact of_decide_eq_true hfound
  have hrange : ∀ e ∈ known, ∀ n, e.2 ≠ 2 ^ 128 + n := fun e he n ↦
    Nat.ne_of_lt (Nat.lt_of_lt_of_le (hlt e he) (Nat.le_add_right _ n))
  unfold knownHash at h
  split at h
  · next e he =>
    split at h
    · next e' he' =>
      have hsame := List.inj_on_of_nodup_map hn (List.mem_of_find?_eq_some he)
        (List.mem_of_find?_eq_some he') h
      exact Prod.mk.inj ((hkey _ _ _ he).symm.trans (hsame ▸ hkey _ _ _ he'))
    · exact absurd h (hrange e (List.mem_of_find?_eq_some he) _)
  · split at h
    · next e' he' => exact absurd h.symm (hrange e' (List.mem_of_find?_eq_some he') _)
    · obtain ⟨hns, hcode⟩ := Nat.pair_eq_pair.mp (Nat.add_left_cancel h)
      have hchars := List.map_injective_iff.mpr (fun a b hab ↦ Char.ext (UInt32.toNat_inj.mp hab))
        (Encodable.encode_injective hcode)
      exact ⟨hns, String.toList_inj.mp hchars⟩

end Uuid
end Xxgate.Core

import Xxgate.Codex.Prepared

/-!
# Identities under two bindings

`crates/xxgate-codex/src/provider/request.rs:152–408`. Two requests prepared under bindings of
different namespaces share no identity and, unless gateway key, installation and cache key are
the same, no cache key: wherever a client may put an identity it is hashed, and so is what the
gateway adds. Only a value that is no text passes as it is.
-/

namespace Xxgate.Codex

open Xxgate.Core Xxgate.Base Fallible Json

/-- A kind that identities are hashed under. -/
def IsKind (kind : String) : Prop := ∃ name, identityKind name = some kind

/-- A text the client sends where identities stand: in a header, or as a field of its metadata. -/
inductive ClientText (t : JsonText) (r : IngressRequest) (text : String) : Prop
  | header {entry : String × HeaderValue} (h : entry ∈ r.identityHeaders)
    (htext : entry.2.toStr = some text)
  | metadata {m : Json} {name : String}
    (h : m ∈ metadataObjects t r.identityHeaders r.document)
    (htext : m.get name = some (.str text))
  | client {level : Nat} {name : String}
    (h : received t r (.client level name) = some (.str text))
  | turn {level : Nat} {name : String} (h : received t r (.turn level name) = some (.str text))

/-- The cache key a request is sent with. -/
def sentCacheKey (q : PreparedUpstream) : Option Json := q.body.bind (·.get "prompt_cache_key")

/-- A header of a stateless request that its cache key stands in for. -/
def IsCacheHeader (r : IngressRequest) (p : Place) : Prop :=
  r.stateless = true ∧ r.kind = .responses ∧
    (p = .header "session_id" ∨ p = .header "conversation_id")

/-- Every identity is sent as the image of a text of the client, every installation as the
account's, and the cache headers as the cache key. -/
structure Converted {http : HeaderText} {v5 : Uuid → String → Uuid} {t : JsonText}
    (x : Prepared http v5 t) : Prop where
  identity : ∀ p v, (identityKind p.name).isSome = true → ¬ IsCacheHeader x.request p →
    sent t x.upstream p = some v → isFilled v = true →
      ∃ kind text, IsKind kind ∧ ClientText t x.request text ∧ v = .str (x.image kind (trim text))
  installation : ∀ p v, isInstallation p.name = true → sent t x.upstream p = some v →
    isFilled v = true → v = .str x.account.installationId.hyphenated
  cache : ∀ p v, IsCacheHeader x.request p → sent t x.upstream p = some v →
    sentCacheKey x.upstream = some v

/-- No identity of one request is one of the other, unless both are cache keys; and no cache key
is, unless the gateway key, the account's installation and the client's cache key are the same. -/
structure Apart {http : HeaderText} {v5 : Uuid → String → Uuid} {t : JsonText}
    (x y : Prepared http v5 t) : Prop where
  identity : ∀ p p' v, (identityKind p.name).isSome = true → (identityKind p'.name).isSome = true →
    sent t x.upstream p = some v → sent t y.upstream p' = some v → isFilled v = true →
      IsCacheHeader x.request p ∧ IsCacheHeader y.request p'
  cache : ∀ v, sentCacheKey x.upstream = some v → sentCacheKey y.upstream = some v →
    x.binding.session.keyId = y.binding.session.keyId ∧
      x.account.installationId = y.account.installationId ∧ cacheKey x.request = cacheKey y.request

/-- What the client has filled in where identities stand are texts. -/
def Textual (t : JsonText) (r : IngressRequest) : Prop :=
  ∀ p v, isIdentity p.name = true → received t r p = some v → isFilled v = true →
    ∃ text, v = .str text

section

variable {v5 : Uuid → String → Uuid} {t : JsonText} {r : IngressRequest}
  {image : String → String → String} {installationId : Uuid}

/-- What a signal says is a text of the client, unless it is the body's own. -/
theorem clientText_of_agreed {s : Signal} (hbody : s.inBody r.document r.kind = none) {v : String}
    (h : agreed (occurrences t r.identityHeaders r.document r.kind s) = some v) :
    ∃ text, ClientText t r text ∧ v = trim text := by
  obtain ⟨o, ho, hvalue⟩ := List.exists_of_findSome?_eq_some h
  have hread : ∃ text, o.read = some (.str text) ∧ v = trim text := by
    unfold Occurrence.value at hvalue
    split at hvalue
    · next text hread =>
      split at hvalue
      · cases hvalue
      · exact ⟨text, hread, (Option.some.inj hvalue).symm⟩
    · cases hvalue
  obtain ⟨text, hread, rfl⟩ := hread
  refine ⟨text, ?_, rfl⟩
  unfold occurrences at ho
  rw [hbody, Option.toList_none, List.map_nil, List.append_nil] at ho
  rcases List.mem_append.mp ho with ho | ho
  · obtain ⟨value, hheader, rfl⟩ := List.mem_map.mp ho
    obtain ⟨name, -, hheader⟩ := List.mem_flatMap.mp hheader
    obtain ⟨entry, hentry, rfl⟩ := List.mem_map.mp hheader
    obtain ⟨text', htext, heq⟩ := Option.map_eq_some_iff.mp hread
    cases heq
    exact .header (List.mem_of_mem_filter hentry) htext
  · obtain ⟨value, hfield, rfl⟩ := List.mem_map.mp ho
    obtain ⟨m, hm, hfield⟩ := List.mem_flatMap.mp hfield
    obtain ⟨name, -, hget⟩ := List.mem_filterMap.mp hfield
    exact .metadata hm (hget.trans hread)

/-- The resolved identity is texts of the client. -/
theorem identity_clientText {headers : Headers} {body : Json} {kind : RequestKind} {drawn : Uuid}
    (h : parse t headers body kind drawn = .ok r) (hstateful : r.stateless = false)
    (hkind : kind ≠ .search) :
    (∃ text, ClientText t r text ∧ r.identity.sessionId = trim text) ∧
      ∃ text, ClientText t r text ∧ r.identity.threadId = trim text := by
  obtain ⟨hsame, -, hresolved⟩ := parse_identity h hstateful
  have hsearch : agreed (occurrences t r.identityHeaders r.document r.kind .search) = none := by
    unfold occurrences
    simp [Signal.aliases, Signal.inBody, hsame, hkind, agreed]
  have hor : ∀ {a b : Option String},
      (∀ v, a = some v → ∃ text, ClientText t r text ∧ v = trim text) →
      (∀ v, b = some v → ∃ text, ClientText t r text ∧ v = trim text) →
      ∀ v, a.or b = some v → ∃ text, ClientText t r text ∧ v = trim text := by
    intro a b ha hb v hv
    cases a with
    | none => exact hb v hv
    | some w => exact ha v hv
  have hsignal : ∀ s : Signal, s.inBody r.document r.kind = none → ∀ v,
      agreed (occurrences t r.identityHeaders r.document r.kind s) = some v →
        ∃ text, ClientText t r text ∧ v = trim text :=
    fun s hbody v hv ↦ clientText_of_agreed hbody hv
  rw [hsearch, resolvedFrom, Option.or_none] at hresolved
  obtain ⟨sessionId, hsession, hidentity⟩ := Option.map_eq_some_iff.mp hresolved
  have htext := hor (hor (hsignal .session rfl) (hsignal .conversation rfl)) (hsignal .thread rfl)
    sessionId hsession
  rw [← hidentity]
  refine ⟨htext, ?_⟩
  dsimp only
  cases hthread : (agreed (occurrences t r.identityHeaders r.document r.kind .thread)).or
      (agreed (occurrences t r.identityHeaders r.document r.kind .conversation)) with
  | none => exact htext
  | some threadId => exact hor (hsignal .thread rfl) (hsignal .conversation rfl) threadId hthread

/-- A text that is received is the client's. -/
theorem clientText_of_received {p : Place} {text : String}
    (h : received t r p = some (.str text)) : ClientText t r text := by
  cases p with
  | header name =>
    obtain ⟨text', hcarried, heq⟩ := Option.map_eq_some_iff.mp h
    cases heq
    obtain ⟨entry, hentry, -, -, htext, -⟩ := carried_some hcarried
    exact .header hentry htext
  | client level name => exact .client h
  | turn level name => exact .turn h

/-- A projected field is the image of a text of the client, or the installation. -/
theorem projects_image (hstructure : Structural t r.identityHeaders r.document)
    {sources : List Json} (hsources : metadata t r.document r.identityHeaders = .ok sources)
    {f : String × Option String} {mapped : String}
    (h : Projects image installationId r.identityHeaders sources f mapped) :
    (isInstallation f.1 = true → mapped = installationId.hyphenated) ∧
      ∀ kind, identityKind f.1 = some kind →
        ∃ text, ClientText t r text ∧ mapped = image kind (trim text) := by
  obtain ⟨value, hcoherent, hmapped⟩ := h
  refine ⟨fun hinstallation ↦ ?_, fun kind hkind ↦ ⟨value, ?_, ?_⟩⟩
  · rw [mappedIdentity, if_pos hinstallation] at hmapped
    exact (Except.ok.inj hmapped).symm
  · rcases (coherent_supplies hstructure hsources hcoherent value).mp rfl with
      ⟨name, -, v, hv, htext⟩ | ⟨m, hm, name, -, hget⟩
    · obtain ⟨entry, hentry, rfl⟩ := List.mem_map.mp hv
      exact .header (List.mem_of_mem_filter hentry) htext
    · exact .metadata hm hget
  · have hinstallation : ¬ isInstallation f.1 = true := by
      intro hinstallation
      rw [identityKind_of_isInstallation hinstallation] at hkind
      cases hkind
    rw [mappedIdentity, if_neg hinstallation, hkind] at hmapped
    exact imageOutbound_ok hmapped

/-- A projected field is the installation or an identity, and so is its header. -/
theorem projected_kinds : ∀ f ∈ projectedFields,
    (isInstallation f.1 = true ∨ (identityKind f.1).isSome = true) ∧
    ∀ header, f.2 = some header → isInstallation header = isInstallation f.1 ∧
      (identityKind header).isSome = (identityKind f.1).isSome := by
  intro f hf
  simp only [projectedFields, List.mem_cons, List.not_mem_nil, or_false] at hf
  obtain rfl | rfl | rfl | rfl | rfl | rfl | rfl | rfl := hf <;>
    refine ⟨by decide, fun header hheader ↦ ?_⟩ <;> cases hheader <;> decide

/-- What is added at a place is the image of a text of the client, the installation, or the cache
key. -/
theorem adds_image {keyId : Uuid} (hstructure : Structural t r.identityHeaders r.document)
    (hidentity : r.stateless = false →
      (∃ text, ClientText t r text ∧ r.identity.sessionId = trim text) ∧
        ∃ text, ClientText t r text ∧ r.identity.threadId = trim text)
    {p : Place} {mapped : String} (h : Adds v5 t image installationId keyId r p mapped) :
    (isInstallation p.name = true → mapped = installationId.hyphenated) ∧
    ((identityKind p.name).isSome = true →
      (IsCacheHeader r p ∧ MapsCacheKey v5 image installationId keyId r (some mapped)) ∨
      (¬ IsCacheHeader r p ∧
        ∃ kind text, IsKind kind ∧ ClientText t r text ∧ mapped = image kind (trim text))) := by
  have hthread : IsKind "thread" := ⟨"thread_id", rfl⟩
  have hresolved : r.stateless = false → ∀ id, (id = r.identity.sessionId ∨
      id = r.identity.threadId) → ∃ kind text, IsKind kind ∧ ClientText t r text ∧
        image "thread" id = image kind (trim text) := by
    intro hstateful id hid
    obtain ⟨⟨session, hsession, hsessionId⟩, thread, hthreadText, hthreadId⟩ := hidentity hstateful
    rcases hid with rfl | rfl
    · exact ⟨"thread", session, hthread, hsession, congrArg _ hsessionId⟩
    · exact ⟨"thread", thread, hthread, hthreadText, congrArg _ hthreadId⟩
  have hprojects : ∀ {sources : List Json} {f : String × Option String},
      metadata t r.document r.identityHeaders = .ok sources → f ∈ projectedFields →
      Projects image installationId r.identityHeaders sources f mapped →
      (isInstallation f.1 = true → mapped = installationId.hyphenated) ∧
      ((identityKind f.1).isSome = true →
        ∃ kind text, IsKind kind ∧ ClientText t r text ∧ mapped = image kind (trim text)) := by
    intro sources f hsources hf hprojects
    obtain ⟨hinstallation, himage⟩ := projects_image hstructure hsources hprojects
    refine ⟨hinstallation, fun hsome ↦ ?_⟩
    obtain ⟨kind, hkind⟩ := Option.isSome_iff_exists.mp hsome
    obtain ⟨text, htext, hmapped⟩ := himage kind hkind
    exact ⟨kind, text, ⟨f.1, hkind⟩, htext, hmapped⟩
  cases h with
  | @resolvedHeader name value h =>
    unfold resolvedHeader at h
    split at h
    · cases h
    · next hstateless =>
      have hstateful : r.stateless = false := Bool.not_eq_true _ ▸ hstateless
      have hcache : ¬ IsCacheHeader r (.header name) := fun hcache ↦ hstateless hcache.1
      split at h
      · next hname =>
        subst hname
        cases h
        exact ⟨nofun, fun _ ↦ .inr ⟨hcache, hresolved hstateful _ (.inl rfl)⟩⟩
      · split at h
        · next hname =>
          cases h
          refine ⟨fun hinstallation ↦ ?_,
            fun _ ↦ .inr ⟨hcache, hresolved hstateful _ (.inr rfl)⟩⟩
          simp only [Bool.or_eq_true, decide_eq_true_eq] at hname
          rcases hname with rfl | rfl <;> cases hinstallation
        · cases h
  | @resolvedField name value h =>
    have hcache : ¬ IsCacheHeader r (.turn 0 name) := fun hcache ↦ by
      rcases hcache.2.2 with h | h <;> cases h
    unfold resolvedField at h
    split at h
    · cases h
    · next hstateless =>
      have hstateful : r.stateless = false := Bool.not_eq_true _ ▸ hstateless
      split at h
      · next hname =>
        subst hname
        cases h
        exact ⟨nofun, fun _ ↦ .inr ⟨hcache, hresolved hstateful _ (.inl rfl)⟩⟩
      · split at h
        · next hname =>
          subst hname
          cases h
          exact ⟨nofun, fun _ ↦ .inr ⟨hcache, hresolved hstateful _ (.inr rfl)⟩⟩
        · cases h
  | @projectedHeader sources f header mapped hsources hf hheader h =>
    obtain ⟨hinstallation, hkind⟩ := (projected_kinds f hf).2 header hheader
    obtain ⟨hown, himage⟩ := hprojects hsources hf h
    refine ⟨fun hname ↦ hown (hinstallation ▸ hname), fun hname ↦ .inr ⟨fun hcache ↦ ?_,
      himage (hkind ▸ hname)⟩⟩
    have hnot : ∀ f ∈ projectedFields, f.2 ≠ some "session_id" ∧ f.2 ≠ some "conversation_id" := by
      decide
    rcases hcache.2.2 with heq | heq <;> cases heq
    · exact (hnot f hf).1 hheader
    · exact (hnot f hf).2 hheader
  | @projectedField sources f mapped hsources hf h =>
    obtain ⟨hown, himage⟩ := hprojects hsources hf h
    refine ⟨hown, fun hname ↦ .inr ⟨fun hcache ↦ ?_, himage hname⟩⟩
    rcases hcache.2.2 with heq | heq <;> cases heq
  | @cacheHeader name mapped hstateless hkind hname h =>
    refine ⟨fun hinstallation ↦ ?_, fun _ ↦ .inl ⟨⟨hstateless, hkind, ?_⟩, h⟩⟩
    · rcases hname with rfl | rfl <;> cases hinstallation
    · exact hname.imp (congrArg _) (congrArg _)

end

/-! ### Cache keys -/

section

variable {v5 : Uuid → String → Uuid} {t : JsonText} {r : IngressRequest}
  {image : String → String → String} {installationId keyId : Uuid}

/-- A cache key is sent as the thread it names, or as the hash of its partition. -/
theorem MapsCacheKey.cases {key : String}
    (h : MapsCacheKey v5 image installationId keyId r (some key)) :
    ∃ cache, cacheKey r = some cache ∧ (r.stateless = false ∧ key = image "thread" cache ∨
      key = (v5 installationId (cacheName keyId cache)).hyphenated) := by
  rcases h with ⟨-, hnone⟩ | ⟨cache, mapped, hcache, hmapped, h⟩
  · cases hnone
  · cases hmapped
    refine ⟨cache, hcache, ?_⟩
    unfold mappedCacheKey at h
    split at h
    · next hnamed =>
      rw [Bool.and_eq_true, Bool.not_eq_true'] at hnamed
      exact .inl ⟨hnamed.1, imageOutbound_ok h⟩
    · exact .inr (Except.ok.inj h).symm

/-- A cache key is sent as one thing. -/
theorem MapsCacheKey.unique {key key' : Option String}
    (h : MapsCacheKey v5 image installationId keyId r key)
    (h' : MapsCacheKey v5 image installationId keyId r key') : key = key' := by
  rcases h with ⟨hcache, rfl⟩ | ⟨cache, mapped, hcache, rfl, h⟩ <;>
    rcases h' with ⟨hcache', rfl⟩ | ⟨cache', mapped', hcache', rfl, h'⟩
  · rfl
  · cases hcache.symm.trans hcache'
  · cases hcache.symm.trans hcache'
  · cases hcache.symm.trans hcache'
    rw [Except.ok.inj (h.symm.trans h')]

/-- A partition is named as an identity of no kind. -/
theorem cacheName_eq (keyId : Uuid) (cache : String) : cacheName keyId cache =
    IdentityMap.nameOf "prompt_cache" (IdentityMap.nameOf keyId.hyphenated cache) := by
  unfold cacheName IdentityMap.nameOf
  simp only [String.append_assoc]

private theorem nul_notMem_hyphenated (u : Uuid) : IdentityMap.nul ∉ u.hyphenated.toList := by
  intro h
  exact absurd (List.all_eq_true.mp (isVisible_hyphenated u) _ h) (by decide)

/-- Partitions of one name are of one gateway key and one cache key. -/
theorem cacheName_inj {keyId keyId' : Uuid} {cache cache' : String}
    (h : cacheName keyId cache = cacheName keyId' cache') : keyId = keyId' ∧ cache = cache' := by
  rw [cacheName_eq, cacheName_eq] at h
  obtain ⟨-, h⟩ := IdentityMap.nameOf_inj (by decide) (by decide) h
  obtain ⟨hkey, hcache⟩ := IdentityMap.nameOf_inj (nul_notMem_hyphenated keyId)
    (nul_notMem_hyphenated keyId') h
  exact ⟨Uuid.hyphenated_injective hkey, hcache⟩

/-- No identity has the kind of a partition. -/
theorem isKind_ne {kind : String} (h : IsKind kind) : kind ≠ "prompt_cache" := by
  obtain ⟨name, h⟩ := h
  unfold identityKind at h
  rintro rfl
  repeat' split at h
  all_goals first
    | exact absurd (Option.some.inj h) (by decide)
    | cases h

/-- A value that is not filled is sent as it is. -/
theorem isFilled_of_forwardedValue {name : String} {v : Json}
    (h : isFilled (forwardedValue image installationId name v) = true) : isFilled v = true := by
  by_contra hblank
  rw [forwardedValue_other] at h
  · exact hblank h
  · rintro text rfl
    by_contra hne
    exact hblank (decide_eq_true hne)

/-- What is sent is filled only where the client has filled it. -/
theorem Forwards.filled {q : PreparedUpstream} {p : Place} {v w : Json}
    (h : Forwards v5 t image installationId keyId r q p) (hreceived : received t r p = some w)
    (hsent : sent t q p = some v) (hfilled : isFilled v = true) : isFilled w = true := by
  obtain ⟨v', hsame, hrounded⟩ := h.kept w hreceived
  rw [hsent] at hsame
  cases hsame
  rw [isFilled_of_rounded hrounded] at hfilled
  exact isFilled_of_forwardedValue hfilled

/-- An installation is sent as the account's. -/
theorem forwardedValue_installation {name text : String} (hname : isInstallation name = true)
    (hblank : trim text ≠ "") :
    forwardedValue image installationId name (.str text) = .str installationId.hyphenated := by
  simp [forwardedValue, asStr, Option.filter_some, hblank, hname]

end

namespace Prepared

variable {http : HeaderText} {v5 : Uuid → String → Uuid} {t : JsonText} (x y : Prepared http v5 t)

/-- An identity is hashed with its kind in the namespace of the binding. -/
theorem image_eq {kind : String} (h : IsKind kind) (client : String) :
    x.image kind client = (v5 x.binding.ns (IdentityMap.nameOf kind client)).hyphenated := by
  obtain ⟨name, hname⟩ := h
  rw [image, imageOf_new fun m hm hsame ↦ x.stored m hm ⟨name, hsame ▸ hname⟩,
    upstreamOf_hyphenated hname]

/-- No identity is sent as a partition is. -/
theorem image_ne_partition (hv5 : Function.Injective2 v5) {kind : String} (h : IsKind kind)
    (client : String) (installationId keyId : Uuid) (cache : String) :
    x.image kind client ≠ (v5 installationId (cacheName keyId cache)).hyphenated := by
  rw [x.image_eq h, cacheName_eq]
  intro heq
  obtain ⟨name, hname⟩ := h
  have hnames := (hv5 (Uuid.hyphenated_injective heq)).2
  exact isKind_ne ⟨name, hname⟩
    (IdentityMap.nameOf_inj (nul_notMem_identityKind hname) (by decide) hnames).1

/-- The key in the body is the client's, mapped. -/
theorem sentCacheKey_maps : ∃ key,
    MapsCacheKey v5 x.image x.account.installationId x.binding.session.keyId x.request key ∧
      sentCacheKey x.upstream = key.map .str := by
  obtain ⟨body, auth, s, cache, hbody, -, -, hcache, -, hqbody⟩ :=
    prepareRequest_ok x.images x.prepared
  refine ⟨cache.2, (forwardCacheKey_ok hcache).1, ?_⟩
  have hnone : field (insertSome body "client_metadata" s.2) "prompt_cache_key" = none := by
    rw [field_insertSome (by decide)]
    exact field_prepareBody hbody (by decide)
  unfold sentCacheKey
  rw [hqbody, Option.bind_some]
  change field (insertSome _ _ _) _ = _
  cases cache.2 with
  | none => exact hnone
  | some key => exact (field_insert ..).trans (if_pos rfl)

private theorem adds {p : Place} {mapped : String}
    (h : Adds v5 t x.image x.account.installationId x.binding.session.keyId x.request p mapped) :
    (isInstallation p.name = true → mapped = x.account.installationId.hyphenated) ∧
    ((identityKind p.name).isSome = true →
      (IsCacheHeader x.request p ∧ MapsCacheKey v5 x.image x.account.installationId
        x.binding.session.keyId x.request (some mapped)) ∨
      (¬ IsCacheHeader x.request p ∧ ∃ kind text, IsKind kind ∧ ClientText t x.request text ∧
        mapped = x.image kind (trim text))) :=
  adds_image (parse_accepted x.accepted).structural
    (fun hstateful ↦ identity_clientText x.accepted hstateful x.served) h

/-- The client's headers of a stateless request do not stand where its cache key is sent. -/
theorem received_cacheHeader {r : IngressRequest} {p : Place} (h : IsCacheHeader r p) :
    received t r p = none ∧ (identityKind p.name).isSome = true := by
  have hname : ∀ name, name = "session_id" ∨ name = "conversation_id" →
      received t r (.header name) = none := by
    intro name hname
    cases hcarried : carried r.identityHeaders name with
    | none =>
      rw [received, hcarried]
      rfl
    | some text =>
      obtain ⟨entry, -, hcanonical, -⟩ := carried_some hcarried
      have hne : ∀ n, canonicalHeader n ≠ "session_id" ∧ canonicalHeader n ≠ "conversation_id" := by
        intro n
        unfold canonicalHeader
        split
        · decide
        · next hn =>
          simp only [Bool.or_eq_true, decide_eq_true_eq, not_or] at hn
          split
          · decide
          · exact ⟨hn.1.1, hn.1.2⟩
      rcases hname with rfl | rfl
      · exact absurd hcanonical (hne _).1
      · exact absurd hcanonical (hne _).2
  rcases h.2.2 with rfl | rfl
  · exact ⟨hname _ (.inl rfl), rfl⟩
  · exact ⟨hname _ (.inr rfl), rfl⟩

end Prepared

/-! ### Isolation -/

section

variable {http : HeaderText} {v5 : Uuid → String → Uuid} {t : JsonText} {x y : Prepared http v5 t}

/-- What the client has filled in with texts is converted. -/
theorem converted_of_textual (ht : t.Faithful) (h : Textual t x.request) : Converted x where
  identity := fun p v hname hcache hsent hfilled ↦ by
    obtain ⟨kind, hkind⟩ := Option.isSome_iff_exists.mp hname
    have hidentity : isIdentity p.name = true := by
      rw [isIdentity, hname]
      rfl
    have hforwards := x.forwards ht hidentity
    cases hreceived : received t x.request p with
    | some w =>
      have hw : isFilled w = true := hforwards.filled hreceived hsent hfilled
      obtain ⟨text, rfl⟩ := h p w hidentity hreceived hw
      rw [hforwards.kept_text hreceived (forwardedValue_text hkind (of_decide_eq_true hw))] at hsent
      exact ⟨kind, text, ⟨p.name, hkind⟩, clientText_of_received hreceived,
        (Option.some.inj hsent).symm⟩
    | none =>
      rcases hforwards.added hreceived with ⟨hnone, -⟩ | ⟨mapped, hmapped, hadds, -⟩
      · cases hnone.symm.trans hsent
      · rw [hmapped] at hsent
        obtain rfl := Option.some.inj hsent
        rcases (x.adds hadds).2 hname with ⟨hkey, -⟩ | ⟨-, kind', text, hkind', htext, rfl⟩
        · exact absurd hkey hcache
        · exact ⟨kind', text, hkind', htext, rfl⟩
  installation := fun p v hname hsent hfilled ↦ by
    have hidentity : isIdentity p.name = true := by
      rw [isIdentity, hname, Bool.or_true]
    have hforwards := x.forwards ht hidentity
    cases hreceived : received t x.request p with
    | some w =>
      have hw : isFilled w = true := hforwards.filled hreceived hsent hfilled
      obtain ⟨text, rfl⟩ := h p w hidentity hreceived hw
      rw [hforwards.kept_text hreceived
        (forwardedValue_installation hname (of_decide_eq_true hw))] at hsent
      exact (Option.some.inj hsent).symm
    | none =>
      rcases hforwards.added hreceived with ⟨hnone, -⟩ | ⟨mapped, hmapped, hadds, -⟩
      · cases hnone.symm.trans hsent
      · rw [hmapped] at hsent
        obtain rfl := Option.some.inj hsent
        rw [(x.adds hadds).1 hname]
  cache := fun p v hcache hsent ↦ by
    obtain ⟨hreceived, hname⟩ := @Prepared.received_cacheHeader t _ _ hcache
    have hidentity : isIdentity p.name = true := by
      rw [isIdentity, hname]
      rfl
    have hforwards := x.forwards ht hidentity
    rcases hforwards.added hreceived with ⟨hnone, -⟩ | ⟨mapped, hmapped, hadds, -⟩
    · cases hnone.symm.trans hsent
    · rw [hmapped] at hsent
      obtain rfl := Option.some.inj hsent
      rcases (x.adds hadds).2 hname with ⟨-, hkey⟩ | ⟨hnot, -⟩
      · obtain ⟨key, hkey', hsentKey⟩ := x.sentCacheKey_maps
        rw [hsentKey, ← hkey.unique hkey']
        rfl
      · exact absurd hcache hnot

/-- Only what the client has filled in with texts is. -/
theorem textual_of_converted (ht : t.Faithful) (h : Converted x) : Textual t x.request := by
  intro p v hidentity hreceived hfilled
  by_contra hother
  obtain ⟨v', hsent, hrounded⟩ := (x.forwards ht hidentity).kept v hreceived
  rw [forwardedValue_other fun text hv ↦ absurd ⟨text, hv⟩ hother] at hrounded
  rw [← isFilled_of_rounded hrounded] at hfilled
  have htext : ∀ text, v' ≠ .str text := by
    rintro text rfl
    exact hother ⟨text, rounded_eq_str.mp hrounded.symm⟩
  rw [isIdentity, Bool.or_eq_true] at hidentity
  rcases hidentity with hname | hname
  · have hcache : ¬ IsCacheHeader x.request p := fun hcache ↦ by
      rw [(Prepared.received_cacheHeader hcache).1] at hreceived
      cases hreceived
    obtain ⟨kind, text, -, -, hv⟩ := h.identity p v' hname hcache hsent hfilled
    exact htext _ hv
  · exact htext _ (h.installation p v' hname hsent hfilled)

/-- Requests under bindings of different namespaces share no converted identity. -/
theorem apart_of_converted (hv5 : Function.Injective2 v5) (hns : x.binding.ns ≠ y.binding.ns)
    (hx : Converted x) (hy : Converted y) : Apart x y := by
  have hpartition : ∀ (z : Prepared http v5 t), z.request.stateless = true → ∀ v,
      sentCacheKey z.upstream = some v → ∃ cache, v = .str
        (v5 z.account.installationId (cacheName z.binding.session.keyId cache)).hyphenated := by
    intro z hstateless v hv
    obtain ⟨key, hmaps, hkey⟩ := z.sentCacheKey_maps
    rw [hkey] at hv
    obtain ⟨key, rfl, rfl⟩ := Option.map_eq_some_iff.mp hv
    obtain ⟨cache, -, ⟨hstateful, -⟩ | rfl⟩ := hmaps.cases
    · cases hstateless.symm.trans hstateful
    · exact ⟨cache, rfl⟩
  have himages : ∀ {kind kind' : String}, IsKind kind → IsKind kind' → ∀ client client',
      x.image kind client ≠ y.image kind' client' := by
    rintro kind kind' ⟨name, hkind⟩ ⟨name', hkind'⟩ client client' heq
    exact hns (x.image_inj y hv5 hkind hkind' heq).1
  refine ⟨fun p p' v hp hp' hsent hsent' hfilled ↦ ?_, fun v hkey hkey' ↦ ?_⟩
  · by_cases hcache : IsCacheHeader x.request p
    · by_cases hcache' : IsCacheHeader y.request p'
      · exact ⟨hcache, hcache'⟩
      · obtain ⟨kind, text, hkind, -, rfl⟩ := hy.identity p' v hp' hcache' hsent' hfilled
        obtain ⟨cache, heq⟩ := hpartition x hcache.1 _ (hx.cache p _ hcache hsent)
        exact absurd (Json.str.inj heq) (y.image_ne_partition hv5 hkind _ _ _ _)
    · obtain ⟨kind, text, hkind, -, rfl⟩ := hx.identity p v hp hcache hsent hfilled
      by_cases hcache' : IsCacheHeader y.request p'
      · obtain ⟨cache, heq⟩ := hpartition y hcache'.1 _ (hy.cache p' _ hcache' hsent')
        exact absurd (Json.str.inj heq) (x.image_ne_partition hv5 hkind _ _ _ _)
      · obtain ⟨kind', text', hkind', -, heq⟩ := hy.identity p' _ hp' hcache' hsent' hfilled
        exact absurd (Json.str.inj heq) (himages hkind hkind' _ _)
  · have hthread : IsKind "thread" := ⟨"thread_id", rfl⟩
    obtain ⟨key, hmaps, hsent⟩ := x.sentCacheKey_maps
    obtain ⟨key', hmaps', hsent'⟩ := y.sentCacheKey_maps
    rw [hsent] at hkey
    rw [hsent'] at hkey'
    obtain ⟨key, rfl, rfl⟩ := Option.map_eq_some_iff.mp hkey
    obtain ⟨key', rfl, heq⟩ := Option.map_eq_some_iff.mp hkey'
    obtain rfl := Json.str.inj heq
    obtain ⟨cache, hcache, ⟨-, hthreaded⟩ | hpart⟩ := hmaps.cases <;>
      obtain ⟨cache', hcache', ⟨-, hthreaded'⟩ | hpart'⟩ := hmaps'.cases
    · exact absurd (hthreaded.symm.trans hthreaded') (himages hthread hthread _ _)
    · exact absurd (hthreaded.symm.trans hpart') (x.image_ne_partition hv5 hthread _ _ _ _)
    · exact absurd (hthreaded'.symm.trans hpart) (y.image_ne_partition hv5 hthread _ _ _ _)
    · obtain ⟨hinstallation, hname⟩ := hv5 (Uuid.hyphenated_injective (hpart.symm.trans hpart'))
      obtain ⟨hkeyId, rfl⟩ := cacheName_inj hname
      exact ⟨hkeyId, hinstallation, hcache.trans hcache'.symm⟩

end

/-- Two requests under bindings of different namespaces are isolated just where all that their
clients have filled in for identities are texts. -/
theorem isolated_iff {http : HeaderText} {v5 : Uuid → String → Uuid} {t : JsonText}
    (ht : t.Faithful) (hv5 : Function.Injective2 v5) (x y : Prepared http v5 t)
    (hns : x.binding.ns ≠ y.binding.ns) :
    (Converted x ∧ Converted y ∧ Apart x y) ↔ (Textual t x.request ∧ Textual t y.request) := by
  constructor
  · rintro ⟨hx, hy, -⟩
    exact ⟨textual_of_converted ht hx, textual_of_converted ht hy⟩
  · rintro ⟨hx, hy⟩
    have hx := converted_of_textual ht hx
    have hy := converted_of_textual ht hy
    exact ⟨hx, hy, apart_of_converted hv5 hns hx hy⟩

/-- The hashes of a session in the namespaces of two bindings. -/
def isolatedV5 : Uuid → String → Uuid :=
  Uuid.knownHash [((9, "thread\x00s"), 0x298233e9cfe05eef99fc885bf34e6334),
    ((10, "thread\x00s"), 0x8367c826a60a51bbba4800abd72d3837)]

/-- A body whose request identifier is a number. -/
def numberBody : Json :=
  .obj [("client_metadata", .obj [("session_id", .str "s"), ("x-client-request-id", .int 5)]),
    ("input", .str "hi"), ("model", .str "gpt-5")]

/-- The number is sent as it is, under either binding. -/
theorem number_shared : ∃ x y : Prepared .ascii isolatedV5 writer,
    x.body = numberBody ∧ y.body = numberBody ∧ x.binding.ns ≠ y.binding.ns ∧
      sent writer x.upstream (.client 0 "x-client-request-id") = some (.int 5) ∧
      sent writer y.upstream (.client 0 "x-client-request-id") = some (.int 5) ∧
      ¬ Converted x ∧ ¬ Apart x y := by
  have haccepted : parse writer [] numberBody .responses 0 =
      .ok { sessionRequest [] "s" with document := numberBody } := rfl
  obtain ⟨x, hxbody, hx, hxb⟩ := exists_prepared .ascii isolatedV5 (exampleBinding 1 9 1)
    (by decide) haccepted exampleModel exampleAccount exampleCredentials (by decide +kernel)
  obtain ⟨y, hybody, hy, hyb⟩ := exists_prepared .ascii isolatedV5 (exampleBinding 2 10 1)
    (by decide) haccepted exampleModel exampleAccount exampleCredentials (by decide +kernel)
  have hsent : ∀ z : Prepared .ascii isolatedV5 writer,
      z.request = { sessionRequest [] "s" with document := numberBody } →
        sent writer z.upstream (.client 0 "x-client-request-id") = some (.int 5) := by
    intro z hz
    have hforwards : Forwards isolatedV5 writer z.image z.account.installationId
        z.binding.session.keyId z.request z.upstream (.client 0 "x-client-request-id") :=
      z.forwards writer_faithful rfl
    obtain ⟨v, hsent, hrounded⟩ := hforwards.kept (.int 5) (by rw [hz]; rfl)
    rw [forwardedValue_other fun _ h ↦ by cases h] at hrounded
    rw [hsent]
    cases v with
    | int n =>
      cases hrounded
      rfl
    | _ => cases hrounded
  refine ⟨x, y, hxbody, hybody, by rw [hxb, hyb]; decide, hsent x hx, hsent y hy,
    fun h ↦ ?_, fun h ↦ ?_⟩
  · obtain ⟨kind, text, -, -, heq⟩ := h.identity (.client 0 "x-client-request-id") _ rfl
      (fun hcache ↦ by rcases hcache.2.2 with h | h <;> cases h) (hsent x hx) rfl
    cases heq
  · obtain ⟨hcache, -⟩ := h.identity (.client 0 "x-client-request-id")
      (.client 0 "x-client-request-id") _ rfl rfl (hsent x hx) (hsent y hy) rfl
    rcases hcache.2.2 with h | h <;> cases h

/-- A session of texts is isolated. -/
theorem isolated_session : ∃ x y : Prepared .ascii isolatedV5 writer,
    x.body = sessionBody ∧ y.body = sessionBody ∧ Function.Injective2 isolatedV5 ∧
      x.binding.ns ≠ y.binding.ns ∧ ((Converted x ∧ Converted y ∧ Apart x y) ↔
        (Textual writer x.request ∧ Textual writer y.request)) := by
  have haccepted : parse writer [] sessionBody .responses 0 = .ok (sessionRequest [] "s") := rfl
  obtain ⟨x, hxbody, -, hxb⟩ := exists_prepared .ascii isolatedV5 (exampleBinding 1 9 1)
    (by decide) haccepted exampleModel exampleAccount exampleCredentials (by decide +kernel)
  obtain ⟨y, hybody, -, hyb⟩ := exists_prepared .ascii isolatedV5 (exampleBinding 2 10 1)
    (by decide) haccepted exampleModel exampleAccount exampleCredentials (by decide +kernel)
  have hv5 : Function.Injective2 isolatedV5 :=
    Uuid.knownHash_injective (by decide) (by decide)
  have hns : x.binding.ns ≠ y.binding.ns := by
    rw [hxb, hyb]
    decide
  exact ⟨x, y, hxbody, hybody, hv5, hns, isolated_iff writer_faithful hv5 x y hns⟩

end Xxgate.Codex

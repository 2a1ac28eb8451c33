import Xxgate.Codex.Forwarding

/-!
# Where identities stand

The places of a request that hold identities: its headers, the fields of its client metadata
and those of the turn metadata header, with the turn metadata nested in both. A prepared
request sends at each place what the client sent there, mapped, and adds to the places the
client left empty.
-/

namespace Xxgate.Codex

open Xxgate.Core Xxgate.Base Fallible Json

/-- A place in a request: a header, or a field so many levels deep in the client metadata or in
the turn metadata header. -/
inductive Place where
  | header (name : String)
  | client (level : Nat) (name : String)
  | turn (level : Nat) (name : String)
  deriving DecidableEq, Repr

/-- The name that stands at a place. -/
def Place.name : Place → String
  | .header name | .client _ name | .turn _ name => name

/-- The names of identities. -/
def isIdentity (name : String) : Bool := (identityKind name).isSome || isInstallation name

/-- What a client sends at a place: of the headers that are forwarded under a name, the last. -/
def received (t : JsonText) (r : IngressRequest) : Place → Option Json
  | .header name => (carried r.identityHeaders name).map .str
  | .client level name =>
    (r.document.get "client_metadata").bind fun metadata ↦
      JsonText.valueAt t.parse level metadata name
  | .turn level name =>
    ((carried r.identityHeaders "x-codex-turn-metadata").bind t.parse).bind fun metadata ↦
      JsonText.valueAt t.parse level metadata name

/-- What a prepared request holds at a place, as it is read upstream. -/
def sent (t : JsonText) (q : PreparedUpstream) : Place → Option Json
  | .header name => (q.headers.get name).join.map .str
  | .client level name =>
    (q.body.bind (·.get "client_metadata")).bind fun metadata ↦
      JsonText.valueAt t.read level metadata name
  | .turn level name =>
    (turnObject t q.headers).bind fun metadata ↦ JsonText.valueAt t.read level metadata name

section

variable {http : HeaderText} {v5 : Uuid → String → Uuid} {t : JsonText}
  {image : String → String → String}

/-! ### The body -/

/-- The fields a prepared body may have before its identities. -/
def bodyKeys : List String :=
  forwardedKeys ++ ["model", "store", "stream", "service_tier"]

/-- An optional field leaves the others as they are. -/
theorem field_insertSome {body : List (String × Json)} {key name : String} {value : Option Json}
    (h : key ≠ name) : field (insertSome body key value) name = field body name := by
  cases value with
  | none => rfl
  | some value => exact (field_insert ..).trans (if_neg (Ne.symm h))

private theorem field_ensureDeclaration {body : List (String × Json)} {name : String}
    (htools : "tools" ≠ name) (hchoice : "tool_choice" ≠ name) :
    field (ensureDeclaration body) name = field body name := by
  unfold ensureDeclaration
  split
  · rfl
  · dsimp only
    split
    · rfl
    · split
      · rfl
      · split
        · rfl
        · split
          · rw [field_insert, if_neg (Ne.symm hchoice), field_insert, if_neg (Ne.symm htools)]
          · rw [field_insert, if_neg (Ne.symm htools)]

private theorem field_forwardedBody {r : IngressRequest} {ids : IdentityMap}
    {body : List (String × Json)}
    (h : forwardedBody r ids = .ok body) {name : String} (hname : name ∉ forwardedKeys) :
    field body name = none := by
  have hfold : ∀ (keys : List String) (body : List (String × Json)), name ∉ keys →
      field (keys.foldl (fun body key ↦ insertSome body key (r.document.get key)) body) name =
        field body name := by
    intro keys
    induction keys with
    | nil => exact fun _ _ ↦ rfl
    | cons key keys ih =>
      intro body hkeys
      rw [List.mem_cons, not_or] at hkeys
      rw [List.foldl_cons, ih _ hkeys.2, field_insertSome (Ne.symm hkeys.1)]
  unfold forwardedBody at h
  dsimp only at h
  split at h
  · obtain ⟨input, -, h⟩ := bind_ok.mp h
    cases h
    rw [field_insert, if_neg fun heq ↦ hname (by rw [heq]; decide)]
    exact hfold forwardedKeys [] hname
  · cases h
    exact hfold forwardedKeys [] hname

private theorem field_completeBody (r : IngressRequest) (model : ModelSpec)
    {body : List (String × Json)} {name : String} (hname : name ∉ bodyKeys) :
    field (completeBody r model body) name = field body name := by
  have hne : ∀ key ∈ bodyKeys, name ≠ key := fun key hkey heq ↦ hname (heq ▸ hkey)
  unfold completeBody
  dsimp only
  rw [field_insertSome (hne "service_tier" (by decide)).symm]
  have hstored : ∀ body, field (if r.kind = .compact then body else
      insert (insert body "store" (.bool false)) "stream" (.bool true)) name = field body name := by
    intro body
    split
    · rfl
    · rw [field_insert, if_neg (hne "stream" (by decide)), field_insert,
        if_neg (hne "store" (by decide))]
  have hinstructions : field (if (field body "instructions").isSome then body
      else insert body "instructions" (.str "")) name = field body name := by
    split
    · rfl
    · rw [field_insert, if_neg (hne "instructions" (by decide))]
  rw [hstored, field_insert, if_neg (hne "model" (by decide))]
  split
  · rw [field_ensureDeclaration (hne "tools" (by decide)).symm (hne "tool_choice" (by decide)).symm]
    exact hinstructions
  · exact hinstructions

/-- The body has no other fields before its identities are added. -/
theorem field_prepareBody {r : IngressRequest} {model : ModelSpec} {ids : IdentityMap}
    {body : List (String × Json)} (h : prepareBody r model ids = .ok body) {name : String}
    (hname : name ∉ bodyKeys) : field body name = none := by
  obtain ⟨body₁, hbody₁, h⟩ := bind_ok.mp h
  cases h
  rw [field_completeBody r model hname]
  exact field_forwardedBody hbody₁ fun hmem ↦ hname (List.mem_append_left _ hmem)

/-! ### The headers of the account -/

/-- The headers that carry no identity. -/
def plainHeaders : List String :=
  ["authorization", "chatgpt-account-id", "originator", "user-agent", "content-type", "accept"]

/-- The base headers have none but the plain names. -/
theorem get_baseHeaders {a : UpstreamAccount} {c : Credentials} {auth : Headers}
    (h : authHeaders http a c = .ok auth) {name : String} (hname : name ∉ plainHeaders) :
    (baseHeaders auth).get name = none := by
  have hne : ∀ key ∈ plainHeaders, name ≠ key := fun key hkey heq ↦ hname (heq ▸ hkey)
  unfold authHeaders at h
  dsimp only at h
  split at h
  · cases h
    unfold baseHeaders
    simp only [List.foldl_cons, List.foldl_nil]
    rw [Headers.get_insert_ne _ (hne "accept" (by decide)),
      Headers.get_insert_ne _ (hne "content-type" (by decide)),
      Headers.get_insert_ne _ (hne "user-agent" (by decide)),
      Headers.get_insert_ne _ (hne "originator" (by decide)),
      Headers.get_insert_ne _ (hne "chatgpt-account-id" (by decide)),
      Headers.get_insert_ne _ (hne "authorization" (by decide))]
    rfl
  · cases h

private theorem get_acceptHeaders (kind : RequestKind) (headers : Headers) {name : String}
    (hname : name ∉ plainHeaders) : (acceptHeaders kind headers).get name = headers.get name := by
  unfold acceptHeaders
  split
  · exact Headers.get_insert_ne _ (fun heq ↦ hname (by rw [heq]; decide)) _
  · rfl

/-- The names of identities are none of the gateway's own. -/
theorem isIdentity_ne {name : String} (h : isIdentity name = true) :
    name ∉ plainHeaders ∧ name ≠ "x-codex-turn-metadata" ∧ name ≠ "compaction" ∧
      name ≠ "request_kind" := by
  refine ⟨fun hmem ↦ ?_, ?_, ?_, ?_⟩
  · unfold plainHeaders at hmem
    simp only [List.mem_cons, List.not_mem_nil, or_false] at hmem
    obtain rfl | rfl | rfl | rfl | rfl | rfl := hmem <;> exact absurd h (by decide)
  all_goals
    rintro rfl
    exact absurd h (by decide)

/-! ### What is added -/

/-- The field of the resolved identity in the turn metadata. -/
def resolvedField (image : String → String → String) (r : IngressRequest) (name : String) :
    Option String :=
  if r.stateless then none
  else if name = "session_id" then some (image "thread" r.identity.sessionId)
  else if name = "thread_id" then some (image "thread" r.identity.threadId)
  else none

/-- What the gateway adds at a place where the client has sent nothing. -/
inductive Adds (v5 : Uuid → String → Uuid) (t : JsonText) (image : String → String → String)
    (installationId keyId : Uuid) (r : IngressRequest) : Place → String → Prop
  | resolvedHeader {name value : String} (h : resolvedHeader image r name = some value) :
    Adds v5 t image installationId keyId r (.header name) value
  | resolvedField {name value : String} (h : resolvedField image r name = some value) :
    Adds v5 t image installationId keyId r (.turn 0 name) value
  | projectedHeader {sources : List Json} {f : String × Option String} {header mapped : String}
    (hsources : metadata t r.document r.identityHeaders = .ok sources) (hf : f ∈ projectedFields)
    (hheader : f.2 = some header)
    (h : Projects image installationId r.identityHeaders sources f mapped) :
    Adds v5 t image installationId keyId r (.header header) mapped
  | projectedField {sources : List Json} {f : String × Option String} {mapped : String}
    (hsources : metadata t r.document r.identityHeaders = .ok sources) (hf : f ∈ projectedFields)
    (h : Projects image installationId r.identityHeaders sources f mapped) :
    Adds v5 t image installationId keyId r (.turn 0 f.1) mapped
  | cacheHeader {name mapped : String} (hstateless : r.stateless = true)
    (hkind : r.kind = .responses) (hname : name = "session_id" ∨ name = "conversation_id")
    (h : MapsCacheKey v5 image installationId keyId r (some mapped)) :
    Adds v5 t image installationId keyId r (.header name) mapped

/-- The turn metadata of the resolved identity. -/
theorem identityTurn_ok {r : IngressRequest} {turn : List (String × Json)}
    (h : identityTurn (imageOutbound image) r = .ok turn) (name : String) :
    field turn name = (resolvedField image r name).map .str := by
  unfold identityTurn at h
  unfold resolvedField
  split at h
  · next hstateless =>
    cases h
    rw [if_pos hstateless]
    rfl
  · next hstateful =>
    obtain ⟨session, hsession, h⟩ := bind_ok.mp h
    obtain ⟨thread, hthread, h⟩ := bind_ok.mp h
    cases h
    rw [if_neg hstateful, field, field, field, imageOutbound_ok hsession, imageOutbound_ok hthread]
    by_cases hs : name = "session_id"
    · rw [if_pos hs, if_pos hs.symm]
      rfl
    · rw [if_neg hs, if_neg (Ne.symm hs)]
      by_cases htid : name = "thread_id"
      · rw [if_pos htid, if_pos htid.symm]
        rfl
      · rw [if_neg htid, if_neg (Ne.symm htid)]
        rfl

/-- The header or field of the resolved identity at a place. -/
def resolved (image : String → String → String) (r : IngressRequest) : Place → Option String
  | .header name => resolvedHeader image r name
  | .turn 0 name => resolvedField image r name
  | _ => none

/-- No projected field is one of the resolved identity. -/
theorem resolved_projected {r : IngressRequest} :
    ∀ f ∈ projectedFields, resolvedField image r f.1 = none ∧ f.1 ≠ "x-codex-turn-metadata" ∧
      ∀ header, f.2 = some header → resolvedHeader image r header = none ∧
        header ≠ "x-codex-turn-metadata" := by
  intro f hf
  simp only [projectedFields, List.mem_cons, List.not_mem_nil, or_false] at hf
  obtain rfl | rfl | rfl | rfl | rfl | rfl | rfl | rfl := hf <;>
    simp [resolvedField, resolvedHeader]

/-! ### Prepared requests -/

/-- At a place, what the client has sent is sent as its name says, but for the digits of numbers.
Where it has sent nothing, the resolved identity is added, or what the gateway adds there
otherwise. -/
structure Forwards (v5 : Uuid → String → Uuid) (t : JsonText) (image : String → String → String)
    (installationId keyId : Uuid) (r : IngressRequest) (q : PreparedUpstream) (p : Place) :
    Prop where
  kept : ∀ v, received t r p = some v → ∃ v', sent t q p = some v' ∧
    v'.rounded = (forwardedValue image installationId p.name v).rounded
  added : received t r p = none → (sent t q p = none ∧ resolved image r p = none) ∨
    ∃ mapped, sent t q p = some (.str mapped) ∧ Adds v5 t image installationId keyId r p mapped ∧
      ∀ v, resolved image r p = some v → mapped = v

variable {installationId : Uuid} {r : IngressRequest}

/-- What is sent for a text is its image. -/
theorem Forwards.kept_text {keyId : Uuid} {q : PreparedUpstream} {p : Place} {v : Json}
    {text : String} (h : Forwards v5 t image installationId keyId r q p)
    (hreceived : received t r p = some v)
    (htext : forwardedValue image installationId p.name v = .str text) :
    sent t q p = some (.str text) := by
  obtain ⟨v', hsent, hrounded⟩ := h.kept v hreceived
  rw [htext] at hrounded
  have hstr : v' = .str text := rounded_eq_str.mp hrounded
  rw [hsent, hstr]

/-- The turn metadata header after the client's headers are forwarded. -/
theorem turnObject_forwarded (ht : t.Faithful) {base headers : Headers}
    (hbase : base.get "x-codex-turn-metadata" = none)
    (h : Carries t image installationId "x-codex-turn-metadata"
      (carried r.identityHeaders "x-codex-turn-metadata") (base.get "x-codex-turn-metadata")
      (headers.get "x-codex-turn-metadata")) (level : Nat) {name : String}
    (hname : name ≠ "x-codex-turn-metadata") :
    (turnObject t headers).bind (JsonText.valueAt t.read level · name) =
      (received t r (.turn level name)).map (forwardedValue image installationId name) := by
  unfold turnObject received
  obtain ⟨hnone, hget⟩ | ⟨text, mapped, htext, hget, hsends⟩ := h
  · rw [hget, hbase, hnone]
    rfl
  · unfold Sends at hsends
    rw [if_pos rfl] at hsends
    obtain ⟨metadata, metadata', hparse, hnormal, rfl⟩ := hsends
    rw [hget, htext, Option.join_some, Option.bind_some, Option.bind_some, ht.reads, hparse]
    exact valueAt_normalized ht level hname hnormal

/-- The turn metadata header of a prepared request: what is nested in it comes from the client,
and its own fields are those of the client, with the turn's added. -/
theorem turnObject_projected (ht : t.Faithful) {sources : List Json} {headers headers' : Headers}
    {turn : List (String × Json)} {s : Headers × List (String × Json)}
    {compaction : List (String × Json)}
    (hturn : ∀ name, field turn name = (resolvedField image r name).map .str)
    (hprojected : Projected image installationId r.identityHeaders sources projectedFields
      (headers, turn) s)
    (hcompaction : compactionMetadata sources = .ok compaction)
    (hprinted : PrintedTurn t headers)
    (h : (projectTurn http t s.1 (compaction.foldl (fun turn f ↦ insert turn f.1 f.2) s.2) :
      Result Headers) = .ok headers') :
    (∀ level name, (turnObject t headers').bind (JsonText.valueAt t.read (level + 1) · name) =
      (turnObject t headers).bind (JsonText.valueAt t.read (level + 1) · name)) ∧
    ∀ name, isIdentity name = true →
      ((turnObject t headers').bind (·.get name)).map rounded =
        (((turnObject t headers).bind (·.get name)).or (field s.2 name)).map rounded := by
  have hresolved : ∀ f ∈ projectedFields, resolvedField image r f.1 = none ∧
      f.1 ≠ "x-codex-turn-metadata" ∧ ∀ header, f.2 = some header →
        resolvedHeader image r header = none ∧ header ≠ "x-codex-turn-metadata" :=
    resolved_projected
  have hget : s.1.get "x-codex-turn-metadata" = headers.get "x-codex-turn-metadata" := by
    obtain hget | ⟨f, hf, hheader, -⟩ := hprojected.headers "x-codex-turn-metadata"
    · exact hget
    · exact absurd rfl ((hresolved f hf).2.2 _ hheader).2
  have hsame : turnObject t s.1 = turnObject t headers := by
    rw [turnObject, hget, turnObject]
  have hprinted' : PrintedTurn t s.1 := by
    rw [PrintedTurn, hget]
    exact hprinted
  have hkeys := compactionMetadata_ok hcompaction
  have hmerged : ∀ name, name ≠ "compaction" → _ := fun name hname ↦
    projectTurn_ok ht hprinted' h hname
  rw [hsame] at hmerged
  refine ⟨fun level name ↦ ?_, fun name hname ↦ ?_⟩
  · have hnested := hmerged "x-codex-turn-metadata" (by decide)
    have hfield : field s.2 "x-codex-turn-metadata" = none := by
      obtain hget | ⟨f, hf, hname, -⟩ := hprojected.turn "x-codex-turn-metadata"
      · rw [hget, hturn]
        unfold resolvedField
        split <;> rfl
      · exact absurd hname (hresolved f hf).2.1
    rw [field_foldl_insert fun f hf heq ↦ by
      obtain hc | hk := hkeys f hf
      · exact absurd (hc.symm.trans heq) (by decide)
      · exact absurd (hk.symm.trans heq) (by decide), hfield, Option.or_none] at hnested
    have htext : ∀ o : Option Json, o.bind Json.asStr = (o.map rounded).bind Json.asStr := by
      intro o
      cases o with
      | none => rfl
      | some v => exact (asStr_rounded v).symm
    have hvalue : ∀ o : Option Json, o.bind (JsonText.valueAt t.read (level + 1) · name) =
        ((((o.bind (·.get "x-codex-turn-metadata")).map rounded).bind Json.asStr).bind
          t.read).bind (JsonText.valueAt t.read level · name) := by
      intro o
      rw [← htext]
      cases o with
      | none => rfl
      | some metadata => exact JsonText.valueAt_succ t.read level metadata name
    rw [hvalue, hvalue, hnested]
  · obtain ⟨-, -, hcompact, hkind⟩ := isIdentity_ne hname
    rw [hmerged name hcompact, field_foldl_insert fun f hf heq ↦ by
      obtain hc | hk := hkeys f hf
      · exact hcompact (heq.symm.trans hc)
      · exact hkind (heq.symm.trans hk)]

variable {b : Binding} {model : ModelSpec} {a : UpstreamAccount} {c : Credentials}
  {ids ids' : IdentityMap} {q : PreparedUpstream}

/-- A header: the client's, or the resolved identity's, or a projected one, or the cache key. -/
theorem forwards_header {keyId : Uuid} {sources : List Json} {name : String}
    {forwarded withIdentity projected : Option HeaderValue} {cache : Option String}
    (hsources : metadata t r.document r.identityHeaders = .ok sources)
    (hturn : name ≠ "x-codex-turn-metadata")
    (hcarries : Carries t image installationId name (carried r.identityHeaders name) none forwarded)
    (hresolved : withIdentity = forwarded.or ((resolvedHeader image r name).map some))
    (hprojected : projected = withIdentity ∨ ∃ f ∈ projectedFields, f.2 = some name ∧ ∃ mapped,
      withIdentity = none ∧ projected = some (some mapped) ∧
        Projects image installationId r.identityHeaders sources f mapped)
    (hcache : MapsCacheKey v5 image installationId keyId r cache)
    (hsent : q.headers.get name = projected.or
      (if r.stateless ∧ r.kind = .responses ∧ (name = "session_id" ∨ name = "conversation_id") then
        cache.map some
      else none)) :
    Forwards v5 t image installationId keyId r q (.header name) := by
  obtain ⟨hnone, rfl⟩ | ⟨text, mapped, htext, rfl, hsends⟩ := hcarries
  · refine ⟨fun v hv ↦ ?_, fun _ ↦ ?_⟩
    · rw [received, hnone] at hv
      cases hv
    rw [Option.none_or] at hresolved
    unfold sent resolved
    dsimp only
    rw [hsent]
    cases hadded : resolvedHeader image r name with
    | some value =>
      rw [hadded] at hresolved
      obtain rfl | ⟨f, -, -, mapped, habsent, -⟩ := hprojected
      · rw [hresolved]
        exact .inr ⟨value, rfl, .resolvedHeader hadded, fun v hv ↦ Option.some.inj hv⟩
      · rw [hresolved] at habsent
        cases habsent
    | none =>
      rw [hadded] at hresolved
      obtain rfl | ⟨f, hf, hheader, mapped, -, rfl, hprojects⟩ := hprojected
      · rw [hresolved, Option.map_none, Option.none_or]
        split
        · next hcond =>
          cases cache with
          | none => exact .inl ⟨rfl, rfl⟩
          | some mapped =>
            refine .inr ⟨mapped, rfl, ?_, fun v hv ↦ by cases hv⟩
            exact .cacheHeader hcond.1 hcond.2.1 hcond.2.2 hcache
        · exact .inl ⟨rfl, rfl⟩
      · refine .inr ⟨mapped, rfl, ?_, fun v hv ↦ by cases hv⟩
        exact .projectedHeader hsources hf hheader hprojects
  · refine ⟨fun v hv ↦ ?_, fun habsent ↦ ?_⟩
    · rw [received, htext] at hv
      cases hv
      rw [Option.some_or] at hresolved
      obtain rfl | ⟨f, -, -, mapped', habsent, -⟩ := hprojected
      · rw [sent, hsent, hresolved]
        rw [Sends, if_neg hturn] at hsends
        exact ⟨_, rfl, congrArg rounded hsends⟩
      · rw [hresolved] at habsent
        cases habsent
    · rw [received, htext] at habsent
      cases habsent

/-- A field of the turn metadata header: the client's, and what is added to its own fields. -/
theorem forwards_turn {keyId : Uuid} {sources : List Json} {turn fields : List (String × Json)}
    {level : Nat} {name : String} {forwarded : Option Json} (hname : isIdentity name = true)
    (hsources : metadata t r.document r.identityHeaders = .ok sources)
    (hforwarded : ∀ level, forwarded.bind (JsonText.valueAt t.read level · name) =
      (received t r (.turn level name)).map (forwardedValue image installationId name))
    (hturn : ∀ name, field turn name = (resolvedField image r name).map .str)
    (hprojected : field fields name = field turn name ∨
      ∃ f ∈ projectedFields, f.1 = name ∧ ∃ mapped, field fields name = some (.str mapped) ∧
        Projects image installationId r.identityHeaders sources f mapped)
    (hdeep : ∀ level, (turnObject t q.headers).bind (JsonText.valueAt t.read (level + 1) · name) =
      forwarded.bind (JsonText.valueAt t.read (level + 1) · name))
    (hflat : ((turnObject t q.headers).bind (·.get name)).map rounded =
      ((forwarded.bind (·.get name)).or (field fields name)).map rounded) :
    Forwards v5 t image installationId keyId r q (.turn level name) := by
  cases level with
  | succ level =>
    have hsent : sent t q (.turn (level + 1) name) =
        (received t r (.turn (level + 1) name)).map (forwardedValue image installationId name) :=
      (hdeep level).trans (hforwarded (level + 1))
    refine ⟨fun v hv ↦ ⟨_, by rw [hsent, hv]; rfl, rfl⟩, fun habsent ↦ .inl ⟨?_, rfl⟩⟩
    rw [hsent, habsent]
    rfl
  | zero =>
    have hsent : (sent t q (.turn 0 name)).map rounded =
        (((received t r (.turn 0 name)).map (forwardedValue image installationId name)).or
          (field fields name)).map rounded := by
      rw [← hforwarded 0]
      exact hflat
    refine ⟨fun v hv ↦ ?_, fun habsent ↦ ?_⟩
    · rw [hv] at hsent
      exact Option.map_eq_some_iff.mp hsent
    rw [habsent, Option.map_none, Option.none_or] at hsent
    have htext : ∀ mapped, field fields name = some (.str mapped) →
        sent t q (.turn 0 name) = some (.str mapped) := by
      intro mapped hmapped
      rw [hmapped] at hsent
      obtain ⟨v, hv, hrounded⟩ := Option.map_eq_some_iff.mp hsent
      have hstr : v = .str mapped := rounded_eq_str.mp hrounded
      rw [hv, hstr]
    obtain hsame | ⟨f, hf, rfl, mapped, hmapped, hprojects⟩ := hprojected
    · rw [hturn] at hsame
      change _ ∨ ∃ mapped, _ ∧ _ ∧ ∀ v, resolvedField image r name = some v → _
      cases hadded : resolvedField image r name with
      | none =>
        rw [hsame, hadded] at hsent
        exact .inl ⟨Option.map_eq_none_iff.mp hsent, hadded⟩
      | some value =>
        rw [hadded] at hsame
        exact .inr ⟨value, htext value hsame, .resolvedField hadded, fun v hv ↦ Option.some.inj hv⟩
    · refine .inr ⟨mapped, htext mapped hmapped, .projectedField hsources hf hprojects,
        fun v hv ↦ ?_⟩
      have hnone : resolvedField image r f.1 = none := (resolved_projected f hf).1
      cases hnone.symm.trans hv

/-- What a prepared request forwards at each place of an identity. -/
theorem prepareRequest_forwards (ht : t.Faithful) (hids : Images v5 image b ids)
    (hpresent : r.clientMetadataPresent = (r.document.get "client_metadata").isSome)
    (h : prepareRequest http v5 t r model a c ids = .ok (q, ids')) {p : Place}
    (hname : isIdentity p.name = true) :
    Forwards v5 t image a.installationId b.session.keyId r q p := by
  obtain ⟨body, auth, s, cache, hbody, hauth, hs, hcache, hq, hqbody⟩ := prepareRequest_ok hids h
  obtain ⟨headers₁, h₁, hs⟩ := bind_ok.mp hs
  obtain ⟨clientMetadata, hclient, hs⟩ := bind_ok.mp hs
  obtain ⟨headers₂, h₂, hs⟩ := bind_ok.mp hs
  obtain ⟨sources, hsources, hs⟩ := bind_ok.mp hs
  obtain ⟨turn, hturn, hs⟩ := bind_ok.mp hs
  obtain ⟨s₃, h₃, hs⟩ := bind_ok.mp hs
  obtain ⟨compaction, hcompaction, hs⟩ := bind_ok.mp hs
  obtain ⟨headers₄, h₄, hs⟩ := bind_ok.mp hs
  cases hs
  have hsources := ofResult_ok hsources
  have hprojected := projectFields_ok h₃
  obtain ⟨hkey, hlast⟩ := forwardCacheKey_ok hcache
  have hbase : (baseHeaders auth).get "x-codex-turn-metadata" = none :=
    get_baseHeaders hauth (by decide)
  -- nothing between touches the turn metadata header
  have hget : headers₂.get "x-codex-turn-metadata" = headers₁.get "x-codex-turn-metadata" := by
    have hnone : resolvedHeader image r "x-codex-turn-metadata" = none := by
      unfold resolvedHeader
      split <;> rfl
    rw [identityHeaders_ok h₂, hnone, Option.map_none, Option.or_none]
  have hprinted : PrintedTurn t headers₂ := by
    rw [PrintedTurn, hget]
    exact printedTurn_of_carries ht hbase (forwardHeaders_ok h₁ _)
  cases p with
  | header name =>
    obtain ⟨hplain, hturnName, -, -⟩ := isIdentity_ne (show isIdentity name = true from hname)
    have hcarries := forwardHeaders_ok h₁ name
    rw [get_baseHeaders hauth hplain] at hcarries
    refine forwards_header hsources hturnName hcarries (identityHeaders_ok h₂ name)
      (hprojected.headers name) hkey ?_
    rw [hq, hlast, get_acceptHeaders _ _ hplain, projectTurn_get h₄ hturnName]
  | client level name =>
    obtain ⟨-, hturnName, -, -⟩ := isIdentity_ne (show isIdentity name = true from hname)
    have hmetadata : q.body.bind (·.get "client_metadata") = clientMetadata := by
      have hfield : field body "client_metadata" = none := field_prepareBody hbody (by decide)
      rw [hqbody, Option.bind_some]
      change field (insertSome _ _ _) _ = _
      rw [field_insertSome (by decide)]
      cases clientMetadata with
      | none => exact hfield
      | some metadata => exact (field_insert ..).trans (if_pos rfl)
    have hsent : sent t q (.client level name) =
        (received t r (.client level name)).map
          (forwardedValue image a.installationId name) := by
      unfold sent received
      dsimp only
      rw [hmetadata]
      unfold normalizedClientMetadata at hclient
      rw [hpresent] at hclient
      cases hdocument : r.document.get "client_metadata" with
      | none =>
        rw [hdocument] at hclient
        cases hclient
        rfl
      | some metadata =>
        rw [hdocument] at hclient
        obtain ⟨metadata', hnormal, hclient⟩ := bind_ok.mp hclient
        cases hclient
        exact valueAt_normalized ht level hturnName hnormal
    refine ⟨fun v hv ↦ ⟨_, by rw [hsent, hv]; rfl, rfl⟩, fun habsent ↦ .inl ⟨?_, rfl⟩⟩
    rw [hsent, habsent]
    rfl
  | turn level name =>
    obtain ⟨-, hturnName, -, -⟩ := isIdentity_ne (show isIdentity name = true from hname)
    have hsame : turnObject t headers₂ = turnObject t headers₁ := by
      rw [turnObject, hget, turnObject]
    have hfinal : turnObject t q.headers = turnObject t headers₄ := by
      unfold turnObject
      rw [hq, hlast, if_neg fun hcond ↦ absurd hcond.2.2 (by decide), Option.or_none,
        get_acceptHeaders _ _ (by decide)]
    obtain ⟨hdeep, hflat⟩ := turnObject_projected ht (identityTurn_ok hturn) hprojected
      (ofResult_ok hcompaction) hprinted h₄
    refine forwards_turn hname hsources
      (fun level ↦ turnObject_forwarded ht hbase (forwardHeaders_ok h₁ _) level hturnName)
      (identityTurn_ok hturn) (hprojected.turn name) (fun level ↦ ?_) ?_
    · rw [hfinal, hdeep, hsame]
    · rw [hfinal, hflat name hname, hsame]

end

end Xxgate.Codex

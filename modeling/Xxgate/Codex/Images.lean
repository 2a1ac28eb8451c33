import Xxgate.Base.Erase
import Xxgate.Base.Fallible
import Xxgate.Codex.Request

/-!
# Preparing without the map

The identity map only remembers what it has mapped: a request is prepared as if every
identifier had a fixed image from the start. So what `prepareRequest` gives is what the same
code gives in `Result`, with `imageOutbound` in the place of `IdentityMap::outbound`.
-/

namespace Xxgate.Codex

open Xxgate.Core Xxgate.Base Fallible Json

/-- What the map sends upstream for an identifier, whether it is stored or not. -/
def imageOf (v5 : Uuid → String → Uuid) (ids : IdentityMap) (kind client : String) : String :=
  (ids.existing kind client).getD (IdentityMap.upstreamOf v5 ids.binding.ns kind client)

/-- `IdentityMap::outbound` with a fixed image of each identifier. -/
def imageOutbound (image : String → String → String) (kind client : String) : Result String :=
  if client = "" ∨ 512 < client.utf8ByteSize then .error (.invalid "Identity length is invalid")
  else .ok (image kind client)

/-- The maps of a binding with the same image of each identifier. -/
def Images (v5 : Uuid → String → Uuid) (image : String → String → String) (b : Binding)
    (ids : IdentityMap) : Prop :=
  ids.binding = b ∧ ∀ kind client, imageOf v5 ids kind client = image kind client

/-- `IdentityMap::outbound` as a computation on the map. -/
def mapOutbound (v5 : Uuid → String → Uuid) (kind client : String) :
    StateT IdentityMap Result String :=
  IdentityMap.outbound v5 kind client

section

variable {v5 : Uuid → String → Uuid} {image : String → String → String} {b : Binding}

/-- Mapping an identifier leaves the image of every other. -/
theorem erases_outbound (kind client : String) :
    Erases (Images v5 image b) (mapOutbound v5 kind client) (imageOutbound image kind client) := by
  intro ids hids
  have himage := hids.2 kind client
  unfold imageOutbound mapOutbound
  by_cases hlength : client = "" ∨ 512 < client.utf8ByteSize
  · exact .inl ⟨_, by rw [IdentityMap.outbound, if_pos hlength], by rw [if_pos hlength]⟩
  · rw [if_neg hlength]
    right
    cases hexisting : ids.existing kind client with
    | some upstream =>
      rw [imageOf, hexisting, Option.getD_some] at himage
      refine ⟨image kind client, ids, ?_, rfl, hids⟩
      rw [IdentityMap.outbound, if_neg hlength, hexisting, himage]
    | none =>
      rw [imageOf, hexisting, Option.getD_none] at himage
      refine ⟨image kind client, ids.insert kind client (image kind client), ?_, rfl, hids.1, ?_⟩
      · rw [IdentityMap.outbound, if_neg hlength, hexisting]
        simp only [himage]
      · -- only this identifier is stored, as its image
        intro kind' client'
        rw [← hids.2 kind' client']
        unfold imageOf IdentityMap.existing IdentityMap.insert
        simp only
        rw [FiniteMap.lookup_insert_ite]
        split
        · next heq =>
          cases heq
          rw [IdentityMap.existing] at hexisting
          rw [hexisting, Option.getD_some, Option.getD_none, himage]
        · rfl

variable {http : HeaderText} {t : JsonText} {installationId : Uuid}

private theorem erases_ofResult {α : Type} (r : Result α) :
    Erases (Images v5 image b) (ofResult r : StateT IdentityMap Result α) (ofResult r) := by
  cases r with
  | ok x => exact .pure x
  | error e => exact .throw e

private theorem erases_mappedIdentity (name value : String) :
    Erases (Images v5 image b) (mappedIdentity (mapOutbound v5) installationId name value)
      (mappedIdentity (imageOutbound image) installationId name value) := by
  unfold mappedIdentity
  refine .ite _ (fun _ ↦ .pure _) fun _ ↦ ?_
  cases identityKind name with
  | some kind => exact erases_outbound kind _
  | none => exact .pure _

private theorem erases_normalizedField (name : String) (item : Json) :
    Erases (Images v5 image b) (normalizedField (mapOutbound v5) installationId name item)
      (normalizedField (imageOutbound image) installationId name item) := by
  unfold normalizedField
  refine .ite _ (fun _ ↦ ?_) fun _ ↦ .pure _
  cases item.asStr.filter (trim · ≠ "") with
  | some text => exact (erases_mappedIdentity name text).bind fun _ ↦ .pure _
  | none => exact .pure _

private theorem erases_normalizedMetadata (depth : Nat) (value : Json) :
    Erases (Images v5 image b)
      (normalizedMetadata t (mapOutbound v5) installationId depth value)
      (normalizedMetadata t (imageOutbound image) installationId depth value) := by
  induction depth generalizing value with
  | zero => exact .throw _
  | succ depth ih =>
    cases value with
    | obj fields =>
      unfold normalizedMetadata
      refine .bind (.mapM (fun f ↦ ?_) fields) fun _ ↦ .pure _
      refine .ite _ (fun _ ↦ ?_) fun _ ↦ (erases_normalizedField f.1 f.2).bind fun _ ↦ .pure _
      cases f.2.asStr.bind t.parse with
      | some nested => exact (ih nested).bind fun _ ↦ .pure _
      | none => exact .throw _
    | _ => exact .throw _

private theorem erases_insertMissingHeader (headers : Headers) (name value : String) :
    Erases (Images v5 image b)
      (insertMissingHeader http headers name value : StateT IdentityMap Result Headers)
      (insertMissingHeader http headers name value) := by
  unfold insertMissingHeader
  exact .ite _ (fun _ ↦ .pure _) fun _ ↦ .ite _ (fun _ ↦ .pure _) fun _ ↦ .throw _

private theorem erases_mappedHeader (name text : String) :
    Erases (Images v5 image b) (mappedHeader t (mapOutbound v5) installationId name text)
      (mappedHeader t (imageOutbound image) installationId name text) := by
  unfold mappedHeader
  refine .ite _ (fun _ ↦ ?_) fun _ ↦ erases_mappedIdentity name text
  cases t.parse text with
  | some metadata => exact (erases_normalizedMetadata _ metadata).bind fun _ ↦ .pure _
  | none => exact .throw _

private theorem erases_forwardHeader (identityHeaders headers : Headers)
    (entry : String × HeaderValue) : Erases (Images v5 image b)
      (forwardHeader http t (mapOutbound v5) installationId identityHeaders headers entry)
      (forwardHeader http t (imageOutbound image) installationId identityHeaders headers
        entry) := by
  unfold forwardHeader
  cases entry.2.toStr with
  | none => exact .throw _
  | some text =>
    refine .ite _ (fun _ ↦ .pure _) fun _ ↦ (erases_mappedHeader entry.1 text).bind fun mapped ↦ ?_
    exact .ite _ (fun _ ↦ .pure _) fun _ ↦ .ite _ (fun _ ↦ .pure _) fun _ ↦ .throw _

private theorem erases_projectField (identityHeaders : Headers) (sources : List Json)
    (s : Headers × List (String × Json)) (f : String × Option String) :
    Erases (Images v5 image b)
      (projectField http (mapOutbound v5) installationId identityHeaders sources s f)
      (projectField http (imageOutbound image) installationId identityHeaders sources s f) := by
  unfold projectField
  refine (erases_ofResult _).bind fun value ↦ ?_
  cases value with
  | none => exact .pure _
  | some value =>
    refine (erases_mappedIdentity f.1 value).bind fun mapped ↦ ?_
    cases f.2 with
    | none => exact (Erases.pure _).bind fun _ ↦ .pure _
    | some header => exact (erases_insertMissingHeader s.1 header mapped).bind fun _ ↦ .pure _

private theorem erases_projectTurn (headers : Headers) (turn : List (String × Json)) :
    Erases (Images v5 image b)
      (projectTurn http t headers turn : StateT IdentityMap Result Headers)
      (projectTurn http t headers turn) := by
  unfold projectTurn
  refine .ite _ (fun _ ↦ .pure _) fun _ ↦ ?_
  cases headers.get "x-codex-turn-metadata" with
  | none => exact erases_insertMissingHeader headers _ _
  | some existing =>
    dsimp only
    cases existing.bind t.parse with
    | none => exact .throw _
    | some value =>
      cases value with
      | obj fields => exact .ite _ (fun _ ↦ .pure _) fun _ ↦ .throw _
      | _ => exact .throw _

private theorem erases_identityHeaders (r : IngressRequest) (headers : Headers) :
    Erases (Images v5 image b) (identityHeaders http (mapOutbound v5) r headers)
      (identityHeaders http (imageOutbound image) r headers) := by
  unfold identityHeaders
  refine .ite _ (fun _ ↦ .pure _) fun _ ↦ ?_
  refine (erases_outbound _ _).bind fun session ↦ (erases_outbound _ _).bind fun thread ↦ ?_
  refine (erases_insertMissingHeader headers _ session).bind fun headers ↦ ?_
  refine (erases_insertMissingHeader headers _ thread).bind fun headers ↦ ?_
  exact erases_insertMissingHeader headers _ thread

private theorem erases_identityTurn (r : IngressRequest) :
    Erases (Images v5 image b) (identityTurn (mapOutbound v5) r)
      (identityTurn (imageOutbound image) r) := by
  unfold identityTurn
  refine .ite _ (fun _ ↦ .pure _) fun _ ↦ ?_
  exact (erases_outbound _ _).bind fun session ↦ (erases_outbound _ _).bind fun thread ↦ .pure _

private theorem erases_normalizedClientMetadata (r : IngressRequest) :
    Erases (Images v5 image b) (normalizedClientMetadata t (mapOutbound v5) installationId r)
      (normalizedClientMetadata t (imageOutbound image) installationId r) := by
  unfold normalizedClientMetadata
  exact .ite _ (fun _ ↦ (erases_normalizedMetadata _ _).bind fun _ ↦ .pure _) fun _ ↦ .pure _

/-- The headers are made with the images of the identities. -/
theorem erases_normalizedHeaders (r : IngressRequest) (base : Headers) :
    Erases (Images v5 image b) (normalizedHeaders http t (mapOutbound v5) installationId r base)
      (normalizedHeaders http t (imageOutbound image) installationId r base) := by
  unfold normalizedHeaders
  refine (Erases.foldlM (erases_forwardHeader r.identityHeaders) _ _).bind fun headers ↦ ?_
  refine (erases_normalizedClientMetadata r).bind fun clientMetadata ↦ ?_
  refine (erases_identityHeaders r headers).bind fun headers ↦ ?_
  refine (erases_ofResult _).bind fun sources ↦ (erases_identityTurn r).bind fun turn ↦ ?_
  refine (Erases.foldlM (erases_projectField r.identityHeaders sources) _ _).bind fun s ↦ ?_
  refine (erases_ofResult _).bind fun compaction ↦ ?_
  exact (erases_projectTurn s.1 _).bind fun _ ↦ .pure _

private theorem erases_forwardCacheKey (keyId : Uuid) (r : IngressRequest) (headers : Headers) :
    Erases (Images v5 image b)
      (forwardCacheKey http (mapOutbound v5) installationId v5 keyId r headers)
      (forwardCacheKey http (imageOutbound image) installationId v5 keyId r headers) := by
  unfold forwardCacheKey
  cases cacheKey r with
  | none => exact .pure _
  | some cache =>
    have hcache : Erases (Images v5 image b)
        (mappedCacheKey (mapOutbound v5) installationId v5 keyId r cache)
        (mappedCacheKey (imageOutbound image) installationId v5 keyId r cache) := by
      unfold mappedCacheKey
      exact .ite _ (fun _ ↦ erases_outbound _ _) fun _ ↦ .pure _
    refine hcache.bind fun mapped ↦ .ite _ (fun _ ↦ ?_) fun _ ↦ .pure _
    refine (erases_insertMissingHeader headers _ mapped).bind fun headers ↦ ?_
    exact (erases_insertMissingHeader headers _ mapped).bind fun _ ↦ .pure _

/-- A result taken over is the same result. -/
theorem ofResult_ok {α : Type} {r : Result α} {x : α} (h : (ofResult r : Result α) = .ok x) :
    r = .ok x := by
  cases r with
  | ok y =>
    cases h
    rfl
  | error e => cases h

/-- The headers a request starts from: those of the account. -/
def baseHeaders (auth : Headers) : Headers :=
  (auth.insert "content-type" (some "application/json")).insert "accept" (some "text/event-stream")

/-- The headers of the request, before those of the cache key. -/
def acceptHeaders (kind : RequestKind) (headers : Headers) : Headers :=
  if kind = .compact then headers.insert "accept" (some "application/json") else headers

/-- `prepareRequest` without the map: the body before the identities is a parameter. -/
def prepareImages (http : HeaderText) (v5 : Uuid → String → Uuid) (t : JsonText)
    (image : String → String → String)
    (keyId : Uuid) (r : IngressRequest) (a : UpstreamAccount) (c : Credentials)
    (body : Result (List (String × Json))) : Result PreparedUpstream := do
  let body ← ofResult body
  let auth ← ofResult (authHeaders http a c)
  let s ← normalizedHeaders http t (imageOutbound image) a.installationId r (baseHeaders auth)
  let cache ← forwardCacheKey http (imageOutbound image) a.installationId v5 keyId r
    (acceptHeaders r.kind s.1)
  return {
    url := trimSlashes a.upstreamBaseUrl ++ "/responses" ++
      (if r.kind = .compact then "/compact" else "")
    body := some (.obj (insertSome (insertSome body "client_metadata" s.2) "prompt_cache_key"
      (cache.2.map .str)))
    headers := cache.1 }

/-- A request is prepared with the map as without it. -/
theorem erases_prepareRequest (http : HeaderText) (t : JsonText) (r : IngressRequest)
    (model : ModelSpec) (a : UpstreamAccount) (c : Credentials) {ids : IdentityMap}
    (hids : Images v5 image b ids) : ∃ m : StateT IdentityMap Result PreparedUpstream,
      prepareRequest http v5 t r model a c ids = m ids ∧
        Erases (Images v5 image b) m
          (prepareImages http v5 t image b.session.keyId r a c (prepareBody r model ids)) := by
  refine ⟨do
    let body ← ofResult (prepareBody r model ids)
    let auth ← ofResult (authHeaders http a c)
    let s ← normalizedHeaders http t (mapOutbound v5) a.installationId r (baseHeaders auth)
    let cache ← forwardCacheKey http (mapOutbound v5) a.installationId v5
      ids.binding.session.keyId r (acceptHeaders r.kind s.1)
    return {
      url := trimSlashes a.upstreamBaseUrl ++ "/responses" ++
        (if r.kind = .compact then "/compact" else "")
      body := some (.obj (insertSome (insertSome body "client_metadata" s.2)
        "prompt_cache_key" (cache.2.map .str)))
      headers := cache.1 }, rfl, ?_⟩
  rw [hids.1]
  exact (erases_ofResult _).bind fun body ↦ (erases_ofResult _).bind fun auth ↦
    (erases_normalizedHeaders r (baseHeaders auth)).bind fun s ↦
      (erases_forwardCacheKey b.session.keyId r (acceptHeaders r.kind s.1)).bind fun cache ↦
        .pure _

/-- A request is prepared from what its parts give without the map. -/
theorem prepareRequest_ok {r : IngressRequest} {model : ModelSpec} {a : UpstreamAccount}
    {c : Credentials} {ids ids' : IdentityMap} {q : PreparedUpstream} (hids : Images v5 image b ids)
    (h : prepareRequest http v5 t r model a c ids = .ok (q, ids')) :
    ∃ body auth s cache,
      prepareBody r model ids = .ok body ∧
      authHeaders http a c = .ok auth ∧
      normalizedHeaders http t (imageOutbound image) a.installationId r (baseHeaders auth) = .ok s ∧
      forwardCacheKey http (imageOutbound image) a.installationId v5 b.session.keyId r
        (acceptHeaders r.kind s.1) = .ok cache ∧
      q.headers = cache.1 ∧
      q.body = some (.obj (insertSome (insertSome body "client_metadata" s.2) "prompt_cache_key"
        (cache.2.map .str))) := by
  obtain ⟨m, hm, herases⟩ := erases_prepareRequest http t r model a c hids
  obtain ⟨body, hbody, hrest⟩ := bind_ok.mp (herases.ok hids (hm.symm.trans h)).1
  obtain ⟨auth, hauth, hrest⟩ := bind_ok.mp hrest
  obtain ⟨s, hs, hrest⟩ := bind_ok.mp hrest
  obtain ⟨cache, hcache, hrest⟩ := bind_ok.mp hrest
  cases hrest
  exact ⟨body, auth, s, cache, ofResult_ok hbody, ofResult_ok hauth, hs, hcache, rfl, rfl⟩

/-- A request is prepared where its parts are. -/
theorem prepareRequest_of_ok {r : IngressRequest} {model : ModelSpec} {a : UpstreamAccount}
    {c : Credentials} {ids : IdentityMap} (hids : Images v5 image b ids)
    {body : List (String × Json)} {auth : Headers} {s : Headers × Option Json}
    {cache : Headers × Option String} (hbody : prepareBody r model ids = .ok body)
    (hauth : authHeaders http a c = .ok auth)
    (hs : normalizedHeaders http t (imageOutbound image) a.installationId r (baseHeaders auth) =
      .ok s)
    (hcache : forwardCacheKey http (imageOutbound image) a.installationId v5 b.session.keyId r
      (acceptHeaders r.kind s.1) = .ok cache) :
    ∃ q ids', prepareRequest http v5 t r model a c ids = .ok (q, ids') := by
  obtain ⟨m, hm, herases⟩ := erases_prepareRequest http t r model a c hids
  rw [hbody, prepareImages, hauth] at herases
  obtain ⟨ids', hrun⟩ := herases.run hids
    (bind_ok.mpr ⟨body, rfl, bind_ok.mpr ⟨auth, rfl, bind_ok.mpr ⟨s, hs,
      bind_ok.mpr ⟨cache, hcache, rfl⟩⟩⟩⟩)
  exact ⟨_, ids', hm.trans hrun⟩

end

end Xxgate.Codex

import Xxgate.Codex.Projections

/-!
# Equal identities of a request

`crates/xxgate-codex/src/provider/request.rs:216–339`. A request that is accepted and prepared
under a binding sends an identity as the hash of its kind and itself in the binding's namespace,
so two are sent as the same text just where all three are the same.
-/

namespace Xxgate.Codex

open Xxgate.Core Xxgate.Base Fallible Json

/-- A request that was accepted, and prepared under a binding whose identities were stored by
`IdentityMap::outbound`. -/
structure Prepared (http : HeaderText) (v5 : Uuid → String → Uuid) (t : JsonText) where
  headers : Headers
  body : Json
  kind : RequestKind
  drawn : Uuid
  request : IngressRequest
  model : ModelSpec
  account : UpstreamAccount
  credentials : Credentials
  binding : Binding
  mappings : List IdMapping
  upstream : PreparedUpstream
  after : IdentityMap
  served : kind ≠ .search
  accepted : parse t headers body kind drawn = .ok request
  stored : ∀ m ∈ mappings, (∃ name, identityKind name = some m.kind) →
    m.upstreamId = IdentityMap.upstreamOf v5 binding.ns m.kind m.clientId
  prepared : prepareRequest http v5 t request model account credentials
    (IdentityMap.new v5 binding mappings) = .ok (upstream, after)

/-- The identifier a client sends at a place: a text that is not blank, trimmed. -/
def supplied (t : JsonText) (r : IngressRequest) (p : Place) : Option String :=
  (((received t r p).bind asStr).map trim).filter (· ≠ "")

namespace Prepared

variable {http : HeaderText} {v5 : Uuid → String → Uuid} {t : JsonText} (x y : Prepared http v5 t)

/-- What its binding sends for an identifier. -/
def image (kind client : String) : String :=
  imageOf v5 (IdentityMap.new v5 x.binding x.mappings) kind client

/-- The identity map of the binding sends the images. -/
theorem images : Images v5 x.image x.binding (IdentityMap.new v5 x.binding x.mappings) :=
  ⟨IdentityMap.binding_new v5 x.binding x.mappings, fun _ _ ↦ rfl⟩

/-- Every identity of the request is forwarded as its image. -/
theorem forwards (ht : t.Faithful) {p : Place} (hp : isIdentity p.name = true) :
    Forwards v5 t x.image x.account.installationId x.binding.session.keyId x.request x.upstream p :=
  prepareRequest_forwards ht x.images (parse_accepted x.accepted).present x.prepared hp

/-- Identities are sent as the same text only if they are the same. -/
theorem image_inj (hv5 : Function.Injective2 v5) {name name' kind kind' : String}
    (hkind : identityKind name = some kind) (hkind' : identityKind name' = some kind')
    {client client' : String} (h : x.image kind client = y.image kind' client') :
    x.binding.ns = y.binding.ns ∧ kind = kind' ∧ client = client' := by
  refine imageOf_inj hv5 hkind hkind' (fun m hm hsame ↦ ?_) (fun m hm hsame ↦ ?_) h
  · exact x.stored m hm ⟨name, hsame ▸ hkind⟩
  · exact y.stored m hm ⟨name', hsame ▸ hkind'⟩

/-- A text that is supplied is sent as its image. -/
theorem sent_supplied (ht : t.Faithful) {p : Place} {kind client : String}
    (hkind : identityKind p.name = some kind) (h : supplied t x.request p = some client) :
    sent t x.upstream p = some (.str (x.image kind client)) := by
  obtain ⟨htrim, hblank⟩ := Option.filter_eq_some_iff.mp h
  obtain ⟨text, htext, rfl⟩ := Option.map_eq_some_iff.mp htrim
  obtain ⟨v, hv, hstr⟩ := Option.bind_eq_some_iff.mp htext
  cases v with
  | str s =>
    cases hstr
    have hidentity : isIdentity p.name = true := by
      rw [isIdentity, hkind]
      rfl
    exact (x.forwards ht hidentity).kept_text hv
      (forwardedValue_text hkind (of_decide_eq_true hblank))
  | _ => cases hstr

end Prepared

/-- An accepted request that can be prepared under a binding without stored mappings. -/
theorem exists_prepared (http : HeaderText) (v5 : Uuid → String → Uuid) {t : JsonText} (b : Binding)
    {headers : Headers} {body : Json} {kind : RequestKind} {drawn : Uuid} {r : IngressRequest}
    (hkind : kind ≠ .search) (haccepted : parse t headers body kind drawn = .ok r)
    (model : ModelSpec) (a : UpstreamAccount) (c : Credentials)
    (hok : Except.toBool (prepareRequest http v5 t r model a c (IdentityMap.new v5 b [])) = true) :
    ∃ x : Prepared http v5 t, x.body = body ∧ x.request = r ∧ x.binding = b := by
  cases hprepared : prepareRequest http v5 t r model a c (IdentityMap.new v5 b []) with
  | error e =>
    rw [hprepared] at hok
    cases hok
  | ok p =>
    obtain ⟨q, ids'⟩ := p
    let x : Prepared http v5 t := {
      headers := headers
      body := body
      kind := kind
      drawn := drawn
      request := r
      model := model
      account := a
      credentials := c
      binding := b
      mappings := []
      upstream := q
      after := ids'
      served := hkind
      accepted := haccepted
      stored := fun _ hm ↦ absurd hm List.not_mem_nil
      prepared := hprepared }
    exact ⟨x, rfl, rfl, rfl⟩

/-! ### Equal identities -/

/-- The names of identities that stand in a relation: sessions, threads, conversations, parents
and forks, and the identifiers of requests. -/
def IsRelated (name : String) : Prop :=
  identityKind name = some "thread" ∨ identityKind name = some "request"

/-- Related identities are sent as equal ones where they are equal and as different ones where
they are not, and a request that is named after its thread is sent as named after its thread. -/
structure KeepsPattern (t : JsonText) (r : IngressRequest) (q : PreparedUpstream) : Prop where
  places : ∀ p p' client client', IsRelated p.name → IsRelated p'.name →
    supplied t r p = some client → supplied t r p' = some client' →
      (sent t q p = sent t q p' ↔ client = client')
  request : ∀ p, identityKind p.name = some "request" →
    supplied t r p = some r.identity.threadId → sent t q p = sent t q (.header "thread-id")

/-- No request is named as a session or thread is, nor after the resolved thread. -/
structure NamesApart (t : JsonText) (r : IngressRequest) : Prop where
  places : ∀ p p' client, identityKind p.name = some "request" →
    identityKind p'.name = some "thread" → supplied t r p = some client →
      supplied t r p' ≠ some client
  request : ∀ p, identityKind p.name = some "request" →
    supplied t r p ≠ some r.identity.threadId

/-- The pattern is kept just where a client names no request after a thread. -/
theorem pattern_kept_iff {http : HeaderText} {v5 : Uuid → String → Uuid} {t : JsonText}
    (ht : t.Faithful) (hv5 : Function.Injective2 v5) (x : Prepared http v5 t)
    (hstateful : x.request.stateless = false) :
    KeepsPattern t x.request x.upstream ↔ NamesApart t x.request := by
  have hthread : identityKind "thread_id" = some "thread" := rfl
  have hrequest : identityKind (Place.header "x-client-request-id").name = some "request" := rfl
  have happart : ∀ client client', x.image "request" client ≠ x.image "thread" client' := by
    intro client client' h
    exact absurd (x.image_inj x hv5 hrequest hthread h).2.1 (by decide)
  have hheader := sent_thread (x.forwards ht rfl) hstateful (parse_resolves x.accepted hstateful)
  constructor
  · intro h
    refine ⟨fun p p' client hp hp' hclient hclient' ↦ ?_, fun p hp hclient ↦ ?_⟩
    · have hsame := (h.places p p' client client (.inr hp) (.inl hp') hclient hclient').mpr rfl
      rw [x.sent_supplied ht hp hclient, x.sent_supplied ht hp' hclient'] at hsame
      exact happart _ _ (Json.str.inj (Option.some.inj hsame))
    · have hsame := h.request p hp hclient
      rw [hheader, x.sent_supplied ht hp hclient] at hsame
      exact happart _ _ (Json.str.inj (Option.some.inj hsame))
  · intro h
    refine ⟨fun p p' client client' hp hp' hclient hclient' ↦ ?_,
      fun p hp hclient ↦ absurd hclient (h.request p hp)⟩
    have hsame : ∀ kind, identityKind p.name = some kind → identityKind p'.name = some kind →
        (sent t x.upstream p = sent t x.upstream p' ↔ client = client') := by
      intro kind hp hp'
      rw [x.sent_supplied ht hp hclient, x.sent_supplied ht hp' hclient', Option.some.injEq,
        Json.str.injEq]
      exact ⟨fun heq ↦ (x.image_inj x hv5 hp hp' heq).2.2, congrArg _⟩
    rcases hp with hp | hp <;> rcases hp' with hp' | hp'
    · exact hsame _ hp hp'
    · rw [x.sent_supplied ht hp hclient, x.sent_supplied ht hp' hclient', Option.some.injEq,
        Json.str.injEq]
      refine ⟨fun heq ↦ absurd heq.symm (happart _ _), ?_⟩
      rintro rfl
      exact absurd hclient (h.places p' p client hp' hp hclient')
    · rw [x.sent_supplied ht hp hclient, x.sent_supplied ht hp' hclient', Option.some.injEq,
        Json.str.injEq]
      refine ⟨fun heq ↦ absurd heq (happart _ _), ?_⟩
      rintro rfl
      exact absurd hclient' (h.places p p' client hp hp' hclient)
    · exact hsame _ hp hp'

/-- The hashes of a thread, a session and two requests, in the namespace of a binding. -/
def relatedV5 : Uuid → String → Uuid :=
  Uuid.knownHash [((9, "thread\x00c"), 0xd1980e46d73c5e0b9a342d8f526faf92),
    ((9, "thread\x00s"), 0x298233e9cfe05eef99fc885bf34e6334),
    ((9, "request\x00c"), 0x421ae4b773a65d349284962b17496b11),
    ((9, "request\x00r"), 0xf4270aab58ba52dda35faa7e00d5edb1)]

/-- A thread and a request, by their headers. -/
def relatedHeaders (request : String) : Headers :=
  [("thread-id", some "c"), ("x-client-request-id", some request)]

/-- A request that is named after its thread is sent under another name. -/
theorem request_renamed :
    parse writer (relatedHeaders "c") sessionBody .responses 0 =
        .ok (sessionRequest (relatedHeaders "c") "c") ∧
      ∃ q ids', prepareRequest .ascii relatedV5 writer
          (sessionRequest (relatedHeaders "c") "c") exampleModel exampleAccount exampleCredentials
          (IdentityMap.new relatedV5 (exampleBinding 1 9 1) []) = .ok (q, ids') ∧
        sent writer q (.header "thread-id") =
          some (.str "d1980e46-d73c-5e0b-9a34-2d8f526faf92") ∧
        sent writer q (.header "x-client-request-id") =
          some (.str "421ae4b7-73a6-5d34-9284-962b17496b11") ∧
        ¬ KeepsPattern writer (sessionRequest (relatedHeaders "c") "c") q := by
  have hsent : (prepareRequest .ascii relatedV5 writer
      (sessionRequest (relatedHeaders "c") "c") exampleModel exampleAccount exampleCredentials
      (IdentityMap.new relatedV5 (exampleBinding 1 9 1) [])).toOption.map
        (fun p ↦ (p.1.headers.get "thread-id", p.1.headers.get "x-client-request-id")) =
      some (some (some "d1980e46-d73c-5e0b-9a34-2d8f526faf92"),
        some (some "421ae4b7-73a6-5d34-9284-962b17496b11")) := by decide +kernel
  refine ⟨rfl, ?_⟩
  cases hprepared : prepareRequest .ascii relatedV5 writer
      (sessionRequest (relatedHeaders "c") "c") exampleModel exampleAccount exampleCredentials
      (IdentityMap.new relatedV5 (exampleBinding 1 9 1) []) with
  | error e =>
    rw [hprepared] at hsent
    cases hsent
  | ok p =>
    obtain ⟨q, ids'⟩ := p
    rw [hprepared] at hsent
    obtain ⟨hthread, hrequest⟩ := Prod.mk.inj (Option.some.inj hsent)
    have hthread : sent writer q (.header "thread-id") =
        some (.str "d1980e46-d73c-5e0b-9a34-2d8f526faf92") := by
      rw [sent, hthread]
      rfl
    have hrequest : sent writer q (.header "x-client-request-id") =
        some (.str "421ae4b7-73a6-5d34-9284-962b17496b11") := by
      rw [sent, hrequest]
      rfl
    refine ⟨q, ids', rfl, hthread, hrequest, fun h ↦ ?_⟩
    have hsame := h.request (.header "x-client-request-id") rfl rfl
    rw [hthread, hrequest] at hsame
    exact absurd (Json.str.inj (Option.some.inj hsame)) (by decide)

/-- A request under a name of its own. -/
theorem pattern_kept_named : ∃ x : Prepared .ascii relatedV5 writer,
    x.request = sessionRequest (relatedHeaders "r") "c" ∧ Function.Injective2 relatedV5 ∧
      (KeepsPattern writer x.request x.upstream ↔ NamesApart writer x.request) := by
  have hok : Except.toBool (prepareRequest .ascii relatedV5 writer
      (sessionRequest (relatedHeaders "r") "c") exampleModel exampleAccount
      exampleCredentials (IdentityMap.new relatedV5 (exampleBinding 1 9 1) [])) = true := by
    decide +kernel
  have haccepted : parse writer (relatedHeaders "r") sessionBody .responses 0 =
      .ok (sessionRequest (relatedHeaders "r") "c") := rfl
  have hv5 : Function.Injective2 relatedV5 :=
    Uuid.knownHash_injective (by decide) (by decide)
  obtain ⟨x, -, hx, -⟩ := exists_prepared .ascii relatedV5 (exampleBinding 1 9 1) (by decide)
    haccepted exampleModel exampleAccount exampleCredentials hok
  refine ⟨x, hx, hv5, pattern_kept_iff writer_faithful hv5 x ?_⟩
  rw [hx]
  rfl

end Xxgate.Codex

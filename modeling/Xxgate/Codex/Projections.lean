import Xxgate.Codex.Places
import Xxgate.Codex.Preparable

/-!
# The projections of an identity

What a prepared request shows of the resolved session and thread. Both are added where a client
has sent nothing, `crates/xxgate-codex/src/provider/request.rs:329–348`; what it has sent is
mapped as it stands, and resolution has looked at some of it only.
-/

namespace Xxgate.Codex

open Xxgate.Core Xxgate.Base Fallible Json

/-- The fields of a resolved identity. -/
def identityFields (identity : ClientIdentity) : List (String × String) :=
  [("session_id", identity.sessionId), ("thread_id", identity.threadId)]

/-- A request shows a resolved identity: in its headers, in the turn metadata header, and wherever
it says a session or a thread in its client metadata or in what is nested there. -/
structure Shows (t : JsonText) (map : String → String) (identity : ClientIdentity)
    (q : PreparedUpstream) : Prop where
  session : sent t q (.header "session-id") = some (.str (map identity.sessionId))
  thread : sent t q (.header "thread-id") = some (.str (map identity.threadId))
  turn : ∀ f ∈ identityFields identity, sent t q (.turn 0 f.1) = some (.str (map f.2))
  client : ∀ f ∈ identityFields identity, ∀ level v, sent t q (.client level f.1) = some v →
    isFilled v = true → v = .str (map f.2)

/-- What a client has to send for its request to show its identity: without a session header, a
conversation header says the resolved session; the turn metadata header leaves no session or
thread empty; and the turn metadata that resolution does not look at say the resolved ones. -/
structure Coincides (t : JsonText) (r : IngressRequest) : Prop where
  conversation : r.identityHeaders.containsKey "session-id" = false →
    r.identityHeaders.containsKey "session_id" = false →
      ∀ name ∈ Signal.conversation.aliases, ∀ value ∈ r.identityHeaders.getAll name,
        ∀ text, value.toStr = some text → trim text ≠ "" → trim text = r.identity.sessionId
  turn : ∀ f ∈ identityFields r.identity, ∀ v, received t r (.turn 0 f.1) = some v →
    isFilled v = true
  nested : ∀ f ∈ identityFields r.identity, ∀ level v,
    received t r (.client (level + 2) f.1) = some v → isFilled v = true →
      ∃ text, v = .str text ∧ trim text = f.2

/-! ### What resolution has looked at -/

/-- The selected headers hold all that is looked at. -/
theorem occurrences_selectHeaders (t : JsonText) (headers : Headers) (body : Json)
    (kind : RequestKind) (s : Signal) :
    occurrences t (selectHeaders headers) body kind s = occurrences t headers body kind s := by
  have hnames : ∀ name ∈ s.aliases, name ∈ identityHeaderNames := by
    cases s <;> decide
  unfold occurrences
  rw [metadataObjects_selectHeaders,
    List.flatMap_congr fun name hname ↦ getAll_selectHeaders headers (hnames name hname)]

/-- A resolved identity is what each place says. -/
structure Resolves (t : JsonText) (r : IngressRequest) : Prop where
  clean : Clean t r.identityHeaders r.document r.kind
  session : ∀ o ∈ occurrences t r.identityHeaders r.document r.kind .session,
    ∀ v, o.value = some v → v = r.identity.sessionId
  thread : ∀ o ∈ occurrences t r.identityHeaders r.document r.kind .thread,
    ∀ v, o.value = some v → v = r.identity.threadId

/-- What an accepted request is resolved from is in the headers that are kept. -/
theorem parse_identity {t : JsonText} {headers : Headers} {body : Json} {kind : RequestKind}
    {drawn : Uuid} {r : IngressRequest} (h : parse t headers body kind drawn = .ok r)
    (hstateful : r.stateless = false) :
    r.kind = kind ∧ Clean t r.identityHeaders r.document r.kind ∧
      resolvedFrom (agreed (occurrences t r.identityHeaders r.document r.kind .session))
        (agreed (occurrences t r.identityHeaders r.document r.kind .thread))
        (agreed (occurrences t r.identityHeaders r.document r.kind .conversation))
        (agreed (occurrences t r.identityHeaders r.document r.kind .search)) =
      some r.identity := by
  obtain ⟨_, -, h⟩ := bind_ok.mp h
  obtain ⟨_, -, h⟩ := bind_ok.mp h
  obtain ⟨_, -, h⟩ := bind_ok.mp h
  obtain ⟨identity, hidentity, h⟩ := bind_ok.mp h
  obtain ⟨_, -, h⟩ := bind_ok.mp h
  obtain ⟨_, -, h⟩ := bind_ok.mp h
  obtain ⟨_, -, h⟩ := bind_ok.mp h
  cases h
  have hstructure := structural_of_inspect hidentity
  have hclean := clean_of_inspect hstructure hidentity
  cases identity with
  | none => cases hstateful
  | some identity =>
    rw [inspect_of_clean hstructure hclean] at hidentity
    refine ⟨rfl, ⟨fun s ↦ ?_, fun s ↦ ?_⟩, ?_⟩
    · rw [occurrences_selectHeaders]
      exact hclean.faultless s
    · rw [occurrences_selectHeaders]
      exact hclean.coherent s
    · simp only [occurrences_selectHeaders]
      exact Except.ok.inj hidentity

/-- A stateful request that is parsed has its identities resolved. -/
theorem parse_resolves {t : JsonText} {headers : Headers} {body : Json} {kind : RequestKind}
    {drawn : Uuid} {r : IngressRequest} (h : parse t headers body kind drawn = .ok r)
    (hstateful : r.stateless = false) : Resolves t r := by
  obtain ⟨-, hclean, hresolved⟩ := parse_identity h hstateful
  obtain ⟨sessionId, hsession, hidentity⟩ := Option.map_eq_some_iff.mp hresolved
  have hagreed : ∀ s, ∀ o ∈ occurrences t r.identityHeaders r.document r.kind s, ∀ v,
      o.value = some v → agreed (occurrences t r.identityHeaders r.document r.kind s) = some v :=
    fun s o ho v hv ↦ (agreed_eq_some_iff (hclean.coherent s)).mpr ⟨o, ho, hv⟩
  refine ⟨hclean, fun o ho v hv ↦ ?_, fun o ho v hv ↦ ?_⟩
  · rw [hagreed .session o ho v hv] at hsession
    rw [← hidentity]
    exact Option.some.inj hsession
  · rw [← hidentity, hagreed .thread o ho v hv]
    rfl

section

variable {http : HeaderText} {t : JsonText} {r : IngressRequest}

/-- Resolution looks at a header. -/
theorem header_occurs {s : Signal} {name : String} (hname : name ∈ s.aliases) {value : HeaderValue}
    (hvalue : value ∈ r.identityHeaders.getAll name) :
    .header value ∈ occurrences t r.identityHeaders r.document r.kind s := by
  unfold occurrences
  refine List.mem_append_left _ (List.mem_append_left _ (List.mem_map_of_mem ?_))
  exact List.mem_flatMap.mpr ⟨name, hname, hvalue⟩

/-- Resolution looks at a field of a metadata object. -/
theorem metadata_occurs {s : Signal} {name : String} (hname : name ∈ s.aliases) {m v : Json}
    (hm : m ∈ metadataObjects t r.identityHeaders r.document) (hv : m.get name = some v) :
    .json v ∈ occurrences t r.identityHeaders r.document r.kind s := by
  unfold occurrences
  refine List.mem_append_left _ (List.mem_append_right _ (List.mem_map_of_mem ?_))
  exact List.mem_flatMap.mpr ⟨m, hm, List.mem_filterMap.mpr ⟨name, hname, hv⟩⟩

/-- Resolution looks at the client metadata and the turn metadata nested in them. -/
theorem client_occurs {s : Signal} {name : String} (hname : name ∈ s.aliases) {level : Nat}
    (hlevel : level < 2) {v : Json} (hv : received t r (.client level name) = some v) :
    .json v ∈ occurrences t r.identityHeaders r.document r.kind s := by
  obtain ⟨metadata, hmetadata, hvalue⟩ := Option.bind_eq_some_iff.mp hv
  obtain ⟨m, hm, hget⟩ := Option.bind_eq_some_iff.mp hvalue
  refine metadata_occurs hname (List.mem_append_left _ ?_) hget
  rw [hmetadata]
  obtain rfl | rfl : level = 0 ∨ level = 1 := by omega
  · cases hm
    exact List.mem_append_left _ List.mem_cons_self
  · refine List.mem_append_right _ (Option.mem_toList.mpr ?_)
    obtain ⟨nested, hnested, hsame⟩ := Option.bind_eq_some_iff.mp hm
    cases hsame
    exact hnested

/-- The turn metadata header that is forwarded is the one that was looked at. -/
theorem turn_of_carried (h : Structural t r.identityHeaders r.document) {text : String}
    (htext : carried r.identityHeaders "x-codex-turn-metadata" = some text) :
    (r.identityHeaders.get "x-codex-turn-metadata").bind HeaderValue.toStr = some text := by
  have hlast := List.mem_of_getLast? htext
  rw [carried_turn] at hlast
  obtain ⟨value, hvalue, hfilter⟩ := List.mem_filterMap.mp hlast
  obtain ⟨first, hget⟩ : ∃ first, r.identityHeaders.get "x-codex-turn-metadata" = some first :=
    ⟨_, List.head?_eq_some_head (List.ne_nil_of_mem hvalue)⟩
  obtain ⟨v, hv⟩ := List.length_eq_one_iff.mp (h.turn first hget).1
  rw [Headers.get, hv] at hget ⊢
  rw [hv] at hvalue
  rw [List.mem_singleton.mp hvalue] at hfilter
  exact (Option.filter_eq_some_iff.mp hfilter).1

/-- Resolution looks at the turn metadata header. -/
theorem turn_occurs (h : Structural t r.identityHeaders r.document) {s : Signal} {name : String}
    (hname : name ∈ s.aliases) {v : Json} (hv : received t r (.turn 0 name) = some v) :
    .json v ∈ occurrences t r.identityHeaders r.document r.kind s := by
  obtain ⟨metadata, hmetadata, hvalue⟩ := Option.bind_eq_some_iff.mp hv
  obtain ⟨text, htext, hparse⟩ := Option.bind_eq_some_iff.mp hmetadata
  obtain ⟨m, hm, hget⟩ := Option.bind_eq_some_iff.mp hvalue
  cases hm
  refine metadata_occurs hname (List.mem_append_right _ (Option.mem_toList.mpr ?_)) hget
  rw [turn_of_carried h htext]
  exact hparse

/-- A filled value that was looked at is a text that says the resolved identity. -/
theorem Resolves.field (h : Resolves t r) {f : String × String} (hf : f ∈ identityFields r.identity)
    {v : Json} (ho : ∀ s : Signal, f.1 ∈ s.aliases →
      .json v ∈ occurrences t r.identityHeaders r.document r.kind s) (hfilled : isFilled v = true) :
    ∃ text, v = .str text ∧ trim text = f.2 ∧ trim text ≠ "" := by
  have htext : ∀ s : Signal, f.1 ∈ s.aliases → ∃ text, v = .str text ∧ trim text ≠ "" ∧
      (Occurrence.json v).value = some (trim text) := by
    intro s hs
    have hfaultless : (Occurrence.json v).faulty = false :=
      Bool.not_eq_true _ ▸ fun hfaulty ↦ h.clean.faultless s ⟨_, ho s hs, hfaulty⟩
    cases v with
    | str text =>
      have hblank : trim text ≠ "" := of_decide_eq_true hfilled
      exact ⟨text, rfl, hblank, if_neg hblank⟩
    | null => cases hfilled
    | _ => cases hfaultless
  simp only [identityFields, List.mem_cons, List.not_mem_nil, or_false] at hf
  rcases hf with rfl | rfl
  · have hs : "session_id" ∈ Signal.session.aliases := List.mem_cons_self
    obtain ⟨text, rfl, hblank, hvalue⟩ := htext .session hs
    exact ⟨text, rfl, h.session _ (ho .session hs) _ hvalue, hblank⟩
  · have hs : "thread_id" ∈ Signal.thread.aliases := List.mem_cons_self
    obtain ⟨text, rfl, hblank, hvalue⟩ := htext .thread hs
    exact ⟨text, rfl, h.thread _ (ho .thread hs) _ hvalue, hblank⟩

/-! ### Headers under one name -/

/-- What is sent under a name is a header of the client that is sent as it. -/
theorem carried_some {headers : Headers} {name text : String}
    (h : carried headers name = some text) :
    ∃ entry ∈ headers, canonicalHeader entry.1 = name ∧ isSuperseded headers entry.1 = false ∧
      entry.2.toStr = some text ∧ trim text ≠ "" := by
  obtain ⟨entry, hentry, htext⟩ := List.mem_filterMap.mp (List.mem_of_getLast? h)
  unfold carriedText at htext
  split at htext
  · next hname =>
    simp only [Bool.and_eq_true, decide_eq_true_eq, Bool.not_eq_true'] at hname
    obtain ⟨hvisible, hblank⟩ := Option.filter_eq_some_iff.mp htext
    exact ⟨entry, hentry, hname.1, hname.2, hvisible, of_decide_eq_true hblank⟩
  · cases htext

/-- Such a header makes that something is sent. -/
theorem carried_isSome {headers : Headers} {name text : String} {entry : String × HeaderValue}
    (hentry : entry ∈ headers) (hname : canonicalHeader entry.1 = name)
    (hsuperseded : isSuperseded headers entry.1 = false) (htext : entry.2.toStr = some text)
    (hblank : trim text ≠ "") : ∃ text', carried headers name = some text' := by
  have hmem : text ∈ headers.filterMap (carriedText headers name) := by
    refine List.mem_filterMap.mpr ⟨entry, hentry, ?_⟩
    unfold carriedText
    rw [if_pos (by simp [hname, hsuperseded]), htext, Option.filter_some,
      if_pos (decide_eq_true hblank)]
  exact ⟨_, List.getLast?_eq_some_getLast (List.ne_nil_of_mem hmem)⟩

private theorem mem_getAll {headers : Headers} {entry : String × HeaderValue}
    (h : entry ∈ headers) : entry.2 ∈ headers.getAll entry.1 :=
  List.mem_map_of_mem (List.mem_filter.mpr ⟨h, decide_eq_true rfl⟩)

/-- The names that are sent as a session or as a thread. -/
theorem canonicalHeader_alias {name : String} :
    (canonicalHeader name = "session-id" →
      name ∈ Signal.session.aliases ∨ name ∈ Signal.conversation.aliases) ∧
    (canonicalHeader name = "thread-id" → name ∈ Signal.thread.aliases) := by
  unfold canonicalHeader
  split
  · next h =>
    simp only [Bool.or_eq_true, decide_eq_true_eq] at h
    rcases h with (rfl | rfl) | rfl <;> decide
  · split
    · next h =>
      subst h
      decide
    · refine ⟨?_, ?_⟩
      · rintro rfl
        decide
      · rintro rfl
        decide

/-- Without a session header no conversation header is superseded. -/
theorem isSuperseded_conversation {headers : Headers} {name : String}
    (h : name ∈ Signal.conversation.aliases) :
    isSuperseded headers name = false ↔
      headers.containsKey "session-id" = false ∧ headers.containsKey "session_id" = false := by
  have hname : (name == "conversation_id" || name == "conversation-id") = true := by
    revert name
    decide
  unfold isSuperseded
  rw [hname, Bool.true_and, Bool.or_eq_false_iff]

/-! ### What is sent for a session and a thread -/

variable {v5 : Uuid → String → Uuid} {image : String → String → String}
  {installationId keyId : Uuid} {q : PreparedUpstream}

/-- A text that is not blank is sent as its image. -/
theorem forwardedValue_text {name kind text : String} (hkind : identityKind name = some kind)
    (hblank : trim text ≠ "") :
    forwardedValue image installationId name (.str text) = .str (image kind (trim text)) := by
  have hinstallation : ¬ isInstallation name = true := by
    intro h
    rw [identityKind_of_isInstallation h] at hkind
    cases hkind
  simp [forwardedValue, asStr, Option.filter_some, hblank, hinstallation, hkind]

/-- Any other value is sent as it is. -/
theorem forwardedValue_other {name : String} {v : Json}
    (h : ∀ text, v = .str text → trim text = "") :
    forwardedValue image installationId name v = v := by
  have hfilter : v.asStr.filter (trim · ≠ "") = none := by
    cases v with
    | str text => simp [asStr, h text rfl]
    | _ => rfl
  rw [forwardedValue, hfilter]

/-- What the resolved identity adds is sent where the client has sent nothing. -/
theorem Forwards.of_resolved {p : Place} {value : String}
    (h : Forwards v5 t image installationId keyId r q p) (hnone : received t r p = none)
    (hresolved : resolved image r p = some value) : sent t q p = some (.str value) := by
  rcases h.added hnone with ⟨-, hnot⟩ | ⟨mapped, hsent, -, hsame⟩
  · rw [hnot] at hresolved
    cases hresolved
  · rw [hsent, hsame value hresolved]

/-- The thread header is the resolved thread. -/
theorem sent_thread (hforwards : Forwards v5 t image installationId keyId r q (.header "thread-id"))
    (hstateful : r.stateless = false) (h : Resolves t r) :
    sent t q (.header "thread-id") = some (.str (image "thread" r.identity.threadId)) := by
  cases hcarried : carried r.identityHeaders "thread-id" with
  | none =>
    refine hforwards.of_resolved (by rw [received, hcarried]; rfl) ?_
    simp [resolved, resolvedHeader, hstateful]
  | some text =>
    obtain ⟨entry, hentry, hname, -, htext, hblank⟩ := carried_some hcarried
    have hvalue : (Occurrence.header entry.2).value = some (trim text) := by
      simp [Occurrence.value, Occurrence.read, htext, hblank]
    have hsame : trim text = r.identity.threadId :=
      h.thread _ (header_occurs (canonicalHeader_alias.2 hname) (mem_getAll hentry)) _ hvalue
    rw [← hsame]
    exact hforwards.kept_text (by rw [received, hcarried]; rfl) (forwardedValue_text rfl hblank)

/-- The session header is the resolved session where the conversation headers say it. -/
theorem sent_session
    (hforwards : Forwards v5 t image installationId keyId r q (.header "session-id"))
    (hstateful : r.stateless = false) (h : Resolves t r) (hcoincides : Coincides t r) :
    sent t q (.header "session-id") = some (.str (image "thread" r.identity.sessionId)) := by
  cases hcarried : carried r.identityHeaders "session-id" with
  | none =>
    refine hforwards.of_resolved (by rw [received, hcarried]; rfl) ?_
    simp [resolved, resolvedHeader, hstateful]
  | some text =>
    obtain ⟨entry, hentry, hname, hsuperseded, htext, hblank⟩ := carried_some hcarried
    have hvalue : (Occurrence.header entry.2).value = some (trim text) := by
      simp [Occurrence.value, Occurrence.read, htext, hblank]
    have hsame : trim text = r.identity.sessionId := by
      rcases canonicalHeader_alias.1 hname with hsession | hconversation
      · exact h.session _ (header_occurs hsession (mem_getAll hentry)) _ hvalue
      · obtain ⟨hdash, hunderscore⟩ := (isSuperseded_conversation hconversation).mp hsuperseded
        exact hcoincides.conversation hdash hunderscore _ hconversation _ (mem_getAll hentry) text
          htext hblank
    rw [← hsame]
    exact hforwards.kept_text (by rw [received, hcarried]; rfl) (forwardedValue_text rfl hblank)

private theorem identityKind_field {f : String × String} (hf : f ∈ identityFields r.identity) :
    identityKind f.1 = some "thread" := by
  simp only [identityFields, List.mem_cons, List.not_mem_nil, or_false] at hf
  rcases hf with rfl | rfl <;> rfl

/-- A filled session or thread that was looked at is sent as the resolved one. -/
theorem Resolves.forwarded (h : Resolves t r) {f : String × String}
    (hf : f ∈ identityFields r.identity) {v : Json} (ho : ∀ s : Signal, f.1 ∈ s.aliases →
      .json v ∈ occurrences t r.identityHeaders r.document r.kind s) (hfilled : isFilled v = true) :
    forwardedValue image installationId f.1 v = .str (image "thread" f.2) := by
  obtain ⟨text, rfl, hsame, hblank⟩ := h.field hf ho hfilled
  rw [forwardedValue_text (identityKind_field hf) hblank, hsame]

/-- What is sent is filled whatever its digits. -/
theorem isFilled_of_rounded {v v' : Json} (h : v'.rounded = v.rounded) :
    isFilled v' = isFilled v := by
  have hfilled : ∀ v : Json, isFilled v.rounded = isFilled v := by
    intro v
    cases v <;> rfl
  rw [← hfilled, h, hfilled]

/-- What is forwarded is filled where what was received is. -/
theorem isFilled_forwarded (hfilled : ∀ client, trim (image "thread" client) ≠ "") {name : String}
    (hkind : identityKind name = some "thread") (v : Json) :
    isFilled (forwardedValue image installationId name v) = isFilled v := by
  by_cases htext : ∃ text, v = .str text ∧ trim text ≠ ""
  · obtain ⟨text, rfl, hblank⟩ := htext
    rw [forwardedValue_text hkind hblank]
    simp [isFilled, hblank, hfilled]
  · rw [forwardedValue_other fun text hv ↦ by
      by_contra hblank
      exact htext ⟨text, hv, hblank⟩]

/-- A request whose places coincide shows its identity. -/
theorem shows_of_coincides (hforwards : ∀ p : Place, isIdentity p.name = true →
      Forwards v5 t image installationId keyId r q p)
    (hstructure : Structural t r.identityHeaders r.document) (hstateful : r.stateless = false)
    (h : Resolves t r) (hcoincides : Coincides t r) : Shows t (image "thread") r.identity q := by
  have hidentity : ∀ f ∈ identityFields r.identity, isIdentity f.1 = true := by
    intro f hf
    rw [isIdentity, identityKind_field hf]
    rfl
  refine ⟨sent_session (hforwards _ rfl) hstateful h hcoincides,
    sent_thread (hforwards _ rfl) hstateful h, fun f hf ↦ ?_, fun f hf level v hv hfilled ↦ ?_⟩
  · have hplace := hforwards (.turn 0 f.1) (hidentity f hf)
    cases hreceived : received t r (.turn 0 f.1) with
    | none =>
      refine hplace.of_resolved hreceived ?_
      simp only [identityFields, List.mem_cons, List.not_mem_nil, or_false] at hf
      rcases hf with rfl | rfl <;> simp [resolved, resolvedField, hstateful]
    | some v =>
      exact hplace.kept_text hreceived (h.forwarded hf
        (fun s hs ↦ turn_occurs hstructure hs hreceived) (hcoincides.turn f hf v hreceived))
  · have hplace := hforwards (.client level f.1) (hidentity f hf)
    cases hreceived : received t r (.client level f.1) with
    | none =>
      -- nothing is added to the client metadata
      rcases hplace.added hreceived with ⟨hnone, -⟩ | ⟨mapped, -, hadds, -⟩
      · rw [hnone] at hv
        cases hv
      · cases hadds
    | some w =>
      have hw : isFilled w = true := by
        obtain ⟨v', hsent, hrounded⟩ := hplace.kept w hreceived
        rw [hv] at hsent
        cases hsent
        rw [isFilled_of_rounded hrounded] at hfilled
        by_contra hw
        rw [forwardedValue_other] at hfilled
        · exact hw hfilled
        · rintro text rfl
          by_contra hblank
          exact hw (decide_eq_true hblank)
      have himage : forwardedValue image installationId f.1 w = .str (image "thread" f.2) := by
        by_cases hlevel : level < 2
        · exact h.forwarded hf (fun s hs ↦ client_occurs hs hlevel hreceived) hw
        · obtain ⟨deep, rfl⟩ : ∃ deep, level = deep + 2 := ⟨level - 2, by omega⟩
          obtain ⟨text, rfl, hsame⟩ := hcoincides.nested f hf deep w hreceived hw
          rw [forwardedValue_text (identityKind_field hf) (of_decide_eq_true hw), hsame]
      rw [hplace.kept_text hreceived himage] at hv
      exact (Option.some.inj hv).symm

/-- Where identifiers have different images, which are not blank, only such a request does. -/
theorem coincides_of_shows (hforwards : ∀ p : Place, isIdentity p.name = true →
      Forwards v5 t image installationId keyId r q p)
    (hinjective : Function.Injective (image "thread"))
    (hfilled : ∀ client, trim (image "thread" client) ≠ "") (h : Resolves t r)
    (hshows : Shows t (image "thread") r.identity q) : Coincides t r := by
  have hidentity : ∀ f ∈ identityFields r.identity, isIdentity f.1 = true := by
    intro f hf
    rw [isIdentity, identityKind_field hf]
    rfl
  refine ⟨fun hdash hunderscore name hname value hvalue text htext hblank ↦ ?_,
    fun f hf v hv ↦ ?_, fun f hf level v hv hfull ↦ ?_⟩
  · -- the last conversation header is sent, and says what this one says
    have hentry : (name, value) ∈ r.identityHeaders := by
      obtain ⟨entry, hentry, rfl⟩ := List.mem_map.mp hvalue
      obtain ⟨hentry, hsame⟩ := List.mem_filter.mp hentry
      exact of_decide_eq_true hsame ▸ hentry
    have hcanonical : canonicalHeader name = "session-id" := by
      clear hvalue hentry
      revert name
      decide
    obtain ⟨last, hlast⟩ := carried_isSome hentry hcanonical
      ((isSuperseded_conversation hname).mpr ⟨hdash, hunderscore⟩) htext hblank
    obtain ⟨entry, hentry', hname', hsuperseded, htext', hblank'⟩ := carried_some hlast
    have hconversation : entry.1 ∈ Signal.conversation.aliases := by
      rcases canonicalHeader_alias.1 hname' with hsession | hconversation
      · have hkey : r.identityHeaders.containsKey entry.1 = true :=
          List.any_eq_true.mpr ⟨entry, hentry', decide_eq_true rfl⟩
        simp only [Signal.aliases, List.mem_cons, List.not_mem_nil, or_false] at hsession
        rcases hsession with heq | heq
        · rw [heq, hunderscore] at hkey
          cases hkey
        · rw [heq, hdash] at hkey
          cases hkey
      · exact hconversation
    have hsame : trim last = trim text := by
      by_contra hne
      refine h.clean.coherent .conversation ⟨_, header_occurs hconversation (mem_getAll hentry'), _,
        header_occurs hname hvalue, trim last, trim text, ?_, ?_, hne⟩
      · simp [Occurrence.value, Occurrence.read, htext', hblank']
      · simp [Occurrence.value, Occurrence.read, htext, hblank]
    have hsent := (hforwards (.header "session-id") rfl).kept_text
      (by rw [received, hlast]; rfl) (forwardedValue_text rfl hblank')
    rw [hshows.session] at hsent
    rw [← hsame]
    exact (hinjective (Json.str.inj (Option.some.inj hsent))).symm
  · obtain ⟨v', hsent, hrounded⟩ := (hforwards (.turn 0 f.1) (hidentity f hf)).kept v hv
    have hfull : isFilled v' = isFilled v :=
      (isFilled_of_rounded hrounded).trans (isFilled_forwarded hfilled (identityKind_field hf) v)
    rw [hshows.turn f hf] at hsent
    rw [← hfull, ← Option.some.inj hsent]
    exact decide_eq_true (hfilled f.2)
  · obtain ⟨v', hsent, hrounded⟩ := (hforwards (.client (level + 2) f.1) (hidentity f hf)).kept v hv
    have hfull' : isFilled v' = isFilled v :=
      (isFilled_of_rounded hrounded).trans (isFilled_forwarded hfilled (identityKind_field hf) v)
    have hsame : v' = .str (image "thread" f.2) :=
      hshows.client f hf (level + 2) v' hsent (hfull'.trans hfull)
    rw [hsame] at hrounded
    have himage : forwardedValue image installationId f.1 v = .str (image "thread" f.2) :=
      rounded_eq_str.mp hrounded.symm
    by_cases htext : ∃ text, v = .str text ∧ trim text ≠ ""
    · obtain ⟨text, rfl, hblank⟩ := htext
      rw [forwardedValue_text (identityKind_field hf) hblank] at himage
      exact ⟨text, rfl, hinjective (Json.str.inj himage)⟩
    · have hother : ∀ text, v = .str text → trim text = "" := by
        intro text hv
        by_contra hblank
        exact htext ⟨text, hv, hblank⟩
      rw [forwardedValue_other hother] at himage
      rw [himage] at hother hfull
      exact absurd (hother _ rfl) (of_decide_eq_true hfull)

/-! ### Images -/

/-- A kind of identities is a word. -/
theorem nul_notMem_identityKind {name kind : String} (h : identityKind name = some kind) :
    IdentityMap.nul ∉ kind.toList := by
  unfold identityKind at h
  repeat' split at h
  all_goals
    cases h
    try decide

/-- Identities are sent as different texts under different bindings, of different kinds, and for
different identifiers. -/
theorem imageOf_inj (hv5 : Function.Injective2 v5) {b b' : Binding}
    {mappings mappings' : List IdMapping} {name name' kind kind' : String}
    (hkind : identityKind name = some kind) (hkind' : identityKind name' = some kind')
    (hstored : ∀ m ∈ mappings, m.kind = kind →
      m.upstreamId = IdentityMap.upstreamOf v5 b.ns m.kind m.clientId)
    (hstored' : ∀ m ∈ mappings', m.kind = kind' →
      m.upstreamId = IdentityMap.upstreamOf v5 b'.ns m.kind m.clientId) {client client' : String}
    (h : imageOf v5 (IdentityMap.new v5 b mappings) kind client =
      imageOf v5 (IdentityMap.new v5 b' mappings') kind' client') :
    b.ns = b'.ns ∧ kind = kind' ∧ client = client' := by
  rw [imageOf_new hstored, imageOf_new hstored', upstreamOf_hyphenated hkind,
    upstreamOf_hyphenated hkind'] at h
  obtain ⟨hns, hname⟩ := hv5 (Uuid.hyphenated_injective h)
  exact ⟨hns, IdentityMap.nameOf_inj (nul_notMem_identityKind hkind)
    (nul_notMem_identityKind hkind') hname⟩

/-- The text of a UUID is not blank. -/
theorem trim_hyphenated (u : Uuid) : trim u.hyphenated ≠ "" := by
  refine trim_ne_empty (c := '-') ?_ rfl
  unfold Uuid.hyphenated
  rw [String.toList_ofList]
  exact List.mem_append_right _ List.mem_cons_self

/-! ### Prepared requests -/

/-- A prepared request shows the resolved identity if its places coincide, and only then where
mappings are genuine. -/
theorem projections_agree_iff (ht : t.Faithful) {headers : Headers} {body : Json}
    {kind : RequestKind} {drawn : Uuid} (haccepted : parse t headers body kind drawn = .ok r)
    (hstateful : r.stateless = false) {model : ModelSpec} {a : UpstreamAccount} {c : Credentials}
    {b : Binding} {mappings : List IdMapping} {ids' : IdentityMap}
    (hprepared :
      prepareRequest http v5 t r model a c (IdentityMap.new v5 b mappings) = .ok (q, ids')) :
    (Coincides t r → Shows t (imageOf v5 (IdentityMap.new v5 b mappings) "thread") r.identity q) ∧
    (Function.Injective2 v5 →
      (∀ m ∈ mappings, m.kind = "thread" →
        m.upstreamId = IdentityMap.upstreamOf v5 b.ns m.kind m.clientId) →
      (Shows t (imageOf v5 (IdentityMap.new v5 b mappings) "thread") r.identity q ↔
        Coincides t r)) := by
  have hacc := parse_accepted haccepted
  have hresolves := parse_resolves haccepted hstateful
  have hids : Images v5 (imageOf v5 (IdentityMap.new v5 b mappings)) b
      (IdentityMap.new v5 b mappings) := ⟨IdentityMap.binding_new v5 b mappings, fun _ _ ↦ rfl⟩
  have hforwards : ∀ p : Place, isIdentity p.name = true → Forwards v5 t
      (imageOf v5 (IdentityMap.new v5 b mappings)) a.installationId b.session.keyId r q p :=
    fun p hp ↦ prepareRequest_forwards ht hids hacc.present hprepared hp
  have hshows := shows_of_coincides hforwards hacc.structural hstateful hresolves
  refine ⟨hshows, fun hv5 hstored ↦ ⟨fun h ↦ ?_, hshows⟩⟩
  have hthread : identityKind "thread_id" = some "thread" := rfl
  refine coincides_of_shows hforwards (fun x y hxy ↦ ?_) (fun client ↦ ?_) hresolves h
  · exact (imageOf_inj hv5 hthread hthread hstored hstored hxy).2.2
  · rw [imageOf_new hstored, upstreamOf_hyphenated hthread]
    exact trim_hyphenated _

end

/-! ### Examples -/

/-- UUIDs of version 5, under the namespace of the examples. -/
def threadV5 : Uuid → String → Uuid :=
  Uuid.knownHash [((9, "thread\x00c"), 0xd1980e46d73c5e0b9a342d8f526faf92),
    ((9, "thread\x00s"), 0x298233e9cfe05eef99fc885bf34e6334)]

/-- A body with a session in its metadata. -/
def sessionBody : Json :=
  .obj [("client_metadata", .obj [("session_id", .str "s")]), ("input", .str "hi"),
    ("model", .str "gpt-5")]

/-- What is parsed of it with the headers, of a session and a thread. -/
def sessionRequest (headers : Headers) (thread : String) : IngressRequest where
  kind := .responses
  stateless := false
  identity := ⟨"s", thread⟩
  turnId := none
  clientMetadataPresent := true
  identityHeaders := headers
  compaction := none
  model := "gpt-5"
  stream := false
  requestedTier := none
  document := sessionBody

/-- A conversation header beside the session is accepted, and sent as the session header. -/
theorem projections_disagree :
    parse writer [("conversation-id", some "c")] sessionBody .responses 0 =
        .ok (sessionRequest [("conversation-id", some "c")] "c") ∧
      ∃ q ids', prepareRequest .ascii threadV5 writer
          (sessionRequest [("conversation-id", some "c")] "c") exampleModel exampleAccount
          exampleCredentials
          (IdentityMap.new threadV5 (exampleBinding 1 9 1) []) = .ok (q, ids') ∧
        ¬ Shows writer (imageOf threadV5 (IdentityMap.new threadV5 (exampleBinding 1 9 1) [])
          "thread") ⟨"s", "c"⟩ q := by
  have hsent : (prepareRequest .ascii threadV5 writer
      (sessionRequest [("conversation-id", some "c")] "c") exampleModel exampleAccount
      exampleCredentials
      (IdentityMap.new threadV5 (exampleBinding 1 9 1) [])).toOption.map
        (·.1.headers.get "session-id") =
      some (some (some "d1980e46-d73c-5e0b-9a34-2d8f526faf92")) := by decide +kernel
  have himage : imageOf threadV5 (IdentityMap.new threadV5 (exampleBinding 1 9 1) []) "thread" "s" =
      "298233e9-cfe0-5eef-99fc-885bf34e6334" := by decide +kernel
  refine ⟨rfl, ?_⟩
  cases hprepared : prepareRequest .ascii threadV5 writer
      (sessionRequest [("conversation-id", some "c")] "c") exampleModel exampleAccount
      exampleCredentials (IdentityMap.new threadV5 (exampleBinding 1 9 1) []) with
  | error e =>
    rw [hprepared] at hsent
    cases hsent
  | ok p =>
    obtain ⟨q, ids'⟩ := p
    refine ⟨q, ids', rfl, fun h ↦ ?_⟩
    rw [hprepared] at hsent
    have hheader : q.headers.get "session-id" =
        some (some "d1980e46-d73c-5e0b-9a34-2d8f526faf92") := Option.some.inj hsent
    have hsession := h.session
    rw [himage, sent, hheader] at hsession
    exact absurd (Json.str.inj (Option.some.inj hsession)) (by decide)

/-- A session header that says what the metadata say is sent as it is everywhere. -/
theorem projections_agree_session : ∃ q ids',
    prepareRequest .ascii threadV5 writer (sessionRequest [("session-id", some " s ")] "s")
        exampleModel exampleAccount exampleCredentials
        (IdentityMap.new threadV5 (exampleBinding 1 9 1) []) =
      .ok (q, ids') ∧
    Shows writer (imageOf threadV5 (IdentityMap.new threadV5 (exampleBinding 1 9 1) []) "thread")
      ⟨"s", "s"⟩ q := by
  have hok : Except.toBool (prepareRequest .ascii threadV5 writer
      (sessionRequest [("session-id", some " s ")] "s") exampleModel exampleAccount
      exampleCredentials (IdentityMap.new threadV5 (exampleBinding 1 9 1) [])) = true := by
    decide +kernel
  have haccepted : parse writer [("session-id", some " s ")] sessionBody .responses 0 =
      .ok (sessionRequest [("session-id", some " s ")] "s") := rfl
  cases hprepared : prepareRequest .ascii threadV5 writer
      (sessionRequest [("session-id", some " s ")] "s") exampleModel exampleAccount
      exampleCredentials (IdentityMap.new threadV5 (exampleBinding 1 9 1) []) with
  | error e =>
    rw [hprepared] at hok
    cases hok
  | ok p =>
    obtain ⟨q, ids'⟩ := p
    refine ⟨q, ids', rfl, (projections_agree_iff writer_faithful haccepted rfl
      hprepared).1 ⟨fun hkey ↦ (by cases hkey), fun f hf v hv ↦ ?_, fun f hf level v hv ↦ ?_⟩⟩
    · cases hv
    · cases hv

end Xxgate.Codex

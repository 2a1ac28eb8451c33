import Xxgate.Codex.Printing
import Xxgate.Codex.Resolution
import Xxgate.Codex.Forwarding

/-!
# What acceptance says

What `parse` has checked of a request it lets through, in the terms of what `prepareRequest`
reads of it: the selected headers and the document.
-/

namespace Xxgate.Codex

open Xxgate.Core Xxgate.Base Fallible Json

/-! ### The structure of the metadata -/

private theorem headerCandidates_ok {headers : Headers} {field : String} {names : List String}
    {cs : List Candidate} (h : headerCandidates headers field names = .ok cs) :
    ∀ name ∈ names, (headers.getAll name).length ≤ 4 := by
  induction names generalizing cs with
  | nil => exact fun name hname ↦ absurd hname List.not_mem_nil
  | cons name names ih =>
    unfold headerCandidates at h
    split at h
    · cases h
    · next hfew =>
      obtain ⟨rest, hrest, -⟩ := bind_ok.mp h
      exact List.forall_mem_cons.mpr ⟨Nat.le_of_not_lt hfew, ih hrest⟩

private theorem metadataCandidates_ok {m : Json} {source : String} {cs : List Candidate}
    (h : metadataCandidates m source = .ok cs) : m.isObject = true := by
  unfold metadataCandidates at h
  split at h
  · assumption
  · cases h

/-- Collected turn metadata are an object within the size limit. -/
theorem objectText_of_candidates {t : JsonText} {text source : String} {cs : List Candidate}
    (h : (parseMetadata t text source >>= fun value ↦ metadataCandidates value source) = .ok cs) :
    ObjectText t text := by
  obtain ⟨value, hvalue, h⟩ := bind_ok.mp h
  unfold parseMetadata at hvalue
  split at hvalue
  · cases hvalue
  · next hsize =>
    split at hvalue
    · next hparse =>
      cases hvalue
      exact ⟨Nat.le_of_not_lt hsize, _, hparse, metadataCandidates_ok h⟩
    · cases hvalue

/-- What is resolved has the structure that the collection asks for. -/
theorem structural_of_inspect {t : JsonText} {headers : Headers} {body : Json} {kind : RequestKind}
    {r : Option ClientIdentity} (h : inspect t headers body kind = .ok r) :
    Structural t headers body := by
  obtain ⟨candidates, hcollect, -⟩ := bind_ok.mp h
  obtain ⟨sessions, hsessions, hcollect⟩ := bind_ok.mp hcollect
  obtain ⟨threads, hthreads, hcollect⟩ := bind_ok.mp hcollect
  obtain ⟨conversations, hconversations, hcollect⟩ := bind_ok.mp hcollect
  obtain ⟨windows, hwindows, hcollect⟩ := bind_ok.mp hcollect
  obtain ⟨installations, hinstallations, hcollect⟩ := bind_ok.mp hcollect
  obtain ⟨parents, hparents, hcollect⟩ := bind_ok.mp hcollect
  obtain ⟨client, hclient, hcollect⟩ := bind_ok.mp hcollect
  obtain ⟨turn, hturn, -⟩ := bind_ok.mp hcollect
  refine ⟨?_, fun m hm ↦ ?_, fun value hvalue ↦ ?_⟩
  · have hsession := headerCandidates_ok hsessions
    have hthread := headerCandidates_ok hthreads
    have hconversation := headerCandidates_ok hconversations
    have hwindow := headerCandidates_ok hwindows
    have hinstallation := headerCandidates_ok hinstallations
    have hparent := headerCandidates_ok hparents
    simp only [List.mem_cons, List.not_mem_nil, or_false, forall_eq_or_imp, forall_eq] at *
    exact ⟨hsession.1, hsession.2, hthread.1, hthread.2, hconversation.1, hconversation.2, hwindow,
      hinstallation, hparent⟩
  · unfold clientCandidates at hclient
    rw [hm] at hclient
    obtain ⟨flat, hflat, hclient⟩ := bind_ok.mp hclient
    refine ⟨metadataCandidates_ok hflat, fun nested hnested ↦ ?_⟩
    rw [hnested] at hclient
    dsimp only at hclient
    cases nested with
    | str text =>
      refine ⟨text, rfl, ?_⟩
      obtain ⟨value, hvalue, hclient⟩ := bind_ok.mp hclient
      obtain ⟨deep, hdeep, -⟩ := bind_ok.mp hclient
      exact objectText_of_candidates (bind_ok.mpr ⟨value, hvalue, hdeep⟩)
    | _ => cases hclient
  · unfold turnCandidates at hturn
    rw [hvalue] at hturn
    dsimp only at hturn
    split at hturn
    · cases hturn
    · next hone =>
      refine ⟨not_not.mp hone, ?_⟩
      cases htext : value.toStr with
      | none =>
        rw [htext] at hturn
        cases hturn
      | some text =>
        rw [htext] at hturn
        exact ⟨text, rfl, objectText_of_candidates hturn⟩

/-! ### Selected headers -/

private theorem Headers.getAll_append (headers headers' : Headers) (name : String) :
    Headers.getAll (headers ++ headers') name = headers.getAll name ++ headers'.getAll name := by
  unfold Headers.getAll
  rw [List.filter_append, List.map_append]

private theorem Headers.getAll_pairs (values : List HeaderValue) (n name : String) :
    Headers.getAll (values.map (n, ·)) name = if n = name then values else [] := by
  unfold Headers.getAll
  induction values with
  | nil => simp
  | cons v values ih =>
    rw [List.map_cons, List.filter_cons]
    by_cases hn : n = name
    · rw [if_pos hn] at ih ⊢
      rw [if_pos (decide_eq_true hn), List.map_cons, ih]
    · rw [if_neg hn] at ih ⊢
      rw [if_neg (by simp [hn]), ih]

/-- The selected headers have the values they had. -/
theorem getAll_selectHeaders (headers : Headers) {name : String}
    (hname : name ∈ identityHeaderNames) :
    (selectHeaders headers).getAll name = headers.getAll name := by
  have hnames : ∀ names : List String, names.Nodup →
      Headers.getAll (names.flatMap fun n ↦ (headers.getAll n).map (n, ·)) name =
        if name ∈ names then headers.getAll name else [] := by
    intro names hnodup
    induction names with
    | nil => rfl
    | cons n names ih =>
      obtain ⟨hn, hrest⟩ := List.nodup_cons.mp hnodup
      rw [List.flatMap_cons, Headers.getAll_append, Headers.getAll_pairs, ih hrest]
      by_cases heq : n = name
      · rw [if_pos heq, heq, if_neg (heq ▸ hn), if_pos List.mem_cons_self, List.append_nil]
      · rw [if_neg heq, List.nil_append]
        simp [Ne.symm heq]
  rw [selectHeaders, hnames identityHeaderNames (by decide), if_pos hname]

private theorem get_selectHeaders (headers : Headers) {name : String}
    (hname : name ∈ identityHeaderNames) :
    (selectHeaders headers).get name = headers.get name := by
  rw [Headers.get, Headers.get, getAll_selectHeaders headers hname]

/-- A selected header is one of the client's, of those that are selected. -/
theorem mem_selectHeaders {headers : Headers} {entry : String × HeaderValue}
    (h : entry ∈ selectHeaders headers) :
    entry.1 ∈ identityHeaderNames ∧ entry.2 ∈ (selectHeaders headers).getAll entry.1 := by
  constructor
  · obtain ⟨name, hname, hentry⟩ := List.mem_flatMap.mp h
    obtain ⟨value, -, rfl⟩ := List.mem_map.mp hentry
    exact hname
  · exact List.mem_map_of_mem (List.mem_filter.mpr ⟨h, decide_eq_true rfl⟩)

/-! ### Sources -/

/-- The metadata objects are read the same from the selected headers. -/
theorem metadata_selectHeaders (t : JsonText) (body : Json) (headers : Headers) :
    metadata t body (selectHeaders headers) = metadata t body headers := by
  have hturn : "x-codex-turn-metadata" ∈ identityHeaderNames := by decide
  unfold metadata headerMetadata
  rw [get_selectHeaders headers hturn, getAll_selectHeaders headers hturn]

/-- The metadata objects are the same in the selected headers. -/
theorem metadataObjects_selectHeaders (t : JsonText) (body : Json) (headers : Headers) :
    metadataObjects t (selectHeaders headers) body = metadataObjects t headers body := by
  unfold metadataObjects
  rw [get_selectHeaders headers (by decide)]

/-- The sources of projected fields are the metadata objects, and their aliases. -/
theorem metadata_ok {t : JsonText} {headers : Headers} {body : Json} {sources : List Json}
    (hstructure : Structural t headers body) (h : metadata t body headers = .ok sources) :
    sources = metadataObjects t headers body ++
      (metadataObjects t headers body).flatMap aliasSources := by
  obtain ⟨client, hclient, h⟩ := bind_ok.mp h
  obtain ⟨turn, hturn, h⟩ := bind_ok.mp h
  have hclients : client = (body.get "client_metadata").toList ++
      ((body.get "client_metadata").bind (JsonText.turnMetadata t.parse)).toList := by
    unfold clientMetadata at hclient
    cases hm : body.get "client_metadata" with
    | none =>
      rw [hm] at hclient
      cases hclient
      rfl
    | some m =>
      obtain ⟨hobject, hnested⟩ := hstructure.client m hm
      rw [hm] at hclient
      dsimp only at hclient
      rw [hobject] at hclient
      unfold JsonText.turnMetadata
      cases hvalue : m.get "x-codex-turn-metadata" with
      | none =>
        rw [hvalue] at hclient
        cases hclient
        simp [hvalue]
      | some nested =>
        obtain ⟨text, rfl, hsize, value, hparse, -⟩ := hnested nested hvalue
        rw [hvalue] at hclient
        simp only [Bool.not_true, Bool.false_eq_true, if_false, asStr, Nat.not_lt.mpr hsize,
          hparse] at hclient
        cases hclient
        simp [hvalue, asStr, hparse]
  have hturns : turn = (((headers.get "x-codex-turn-metadata").bind HeaderValue.toStr).bind
      t.parse).toList := by
    unfold headerMetadata at hturn
    cases hvalue : headers.get "x-codex-turn-metadata" with
    | none =>
      rw [hvalue] at hturn
      cases hturn
      rfl
    | some value =>
      obtain ⟨hone, text, htext, -, m, hparse, -⟩ := hstructure.turn value hvalue
      have hspelt : value = some text := (Option.filter_eq_some_iff.mp htext).1
      rw [hvalue, hspelt] at hturn
      simp only [hone, ne_eq, not_true_eq_false, if_false, Option.bind_some, hparse] at hturn
      cases hturn
      simp [htext, hparse]
  have hresult : client ++ turn = metadataObjects t headers body := by
    rw [hclients, hturns, metadataObjects]
  rw [hresult] at h
  dsimp only at h
  split at h
  · cases h
  · cases h
    rfl

/-! ### Agreed fields -/

private theorem headerTexts_ok {values : List HeaderValue} {texts : List String}
    (h : headerTexts values = .ok texts) :
    (∀ value ∈ values, ∃ text ∈ texts, value.toStr = some text) ∧
      ∀ text ∈ texts, ∃ value ∈ values, value.toStr = some text := by
  obtain ⟨hvalues, htexts⟩ := mem_of_mapM h
  constructor
  · intro value hvalue
    obtain ⟨text, hmem, hok⟩ := hvalues value hvalue
    split at hok
    · next htext =>
      cases hok
      exact ⟨_, hmem, htext⟩
    · cases hok
  · intro text hmem
    obtain ⟨value, hvalue, hok⟩ := htexts text hmem
    split at hok
    · next htext =>
      cases hok
      exact ⟨value, hvalue, htext⟩
    · cases hok

private theorem fieldTexts_ok {sources : List Json} {field : String} {texts : List String}
    (h : fieldTexts sources field = .ok texts) (text : String) :
    text ∈ texts ↔ ∃ source ∈ sources, source.get field = some (.str text) := by
  obtain ⟨hvalues, htexts⟩ := mem_of_mapM h
  constructor
  · intro hmem
    obtain ⟨value, hvalue, hok⟩ := htexts text hmem
    obtain ⟨source, hsource, hget⟩ := List.mem_filterMap.mp hvalue
    have hget := (Option.filter_eq_some_iff.mp hget).1
    cases value with
    | str s =>
      cases hok
      exact ⟨source, hsource, hget⟩
    | _ => cases hok
  · rintro ⟨source, hsource, hget⟩
    obtain ⟨text', hmem, hok⟩ := hvalues (.str text)
      (List.mem_filterMap.mpr ⟨source, hsource, by rw [hget]; rfl⟩)
    cases hok
    exact hmem

/-- A field that is coherent has the value of each of its copies. -/
theorem coherent_ok {headers : Headers} {header : Option String} {sources : List Json}
    {field : String} {v : Option String} (h : coherent headers header sources field = .ok v) :
    (∀ name, header = some name → ∀ value ∈ headers.getAll name,
      ∃ text, value.toStr = some text ∧ text.utf8ByteSize ≤ 512) ∧
    (∀ text, v = some text → text.utf8ByteSize ≤ 512) ∧
    ∀ text, v = some text ↔
      (∃ name, header = some name ∧ ∃ value ∈ headers.getAll name, value.toStr = some text) ∨
        ∃ source ∈ sources, source.get field = some (.str text) := by
  obtain ⟨fromHeader, hheader, h⟩ := bind_ok.mp h
  obtain ⟨fromMetadata, hmetadata, h⟩ := bind_ok.mp h
  have hvalues : (∀ name, header = some name → ∀ value ∈ headers.getAll name,
      ∃ text ∈ fromHeader ++ fromMetadata, value.toStr = some text) ∧
      ∀ text, text ∈ fromHeader ++ fromMetadata ↔
        (∃ name, header = some name ∧ ∃ value ∈ headers.getAll name, value.toStr = some text) ∨
          ∃ source ∈ sources, source.get field = some (.str text) := by
    obtain ⟨hall, htexts⟩ := headerTexts_ok hheader
    cases header with
    | none =>
      refine ⟨fun name hname ↦ (by cases hname), fun text ↦ ?_⟩
      rw [List.mem_append, fieldTexts_ok hmetadata]
      refine or_congr_left ⟨fun hmem ↦ ?_, ?_⟩
      · obtain ⟨value, hvalue, -⟩ := htexts text hmem
        exact absurd hvalue List.not_mem_nil
      · rintro ⟨name, hname, -⟩
        cases hname
    | some name =>
      refine ⟨?_, fun text ↦ ?_⟩
      · rintro _ ⟨⟩ value hvalue
        obtain ⟨text, hmem, htext⟩ := hall value hvalue
        exact ⟨text, List.mem_append_left _ hmem, htext⟩
      · rw [List.mem_append, fieldTexts_ok hmetadata]
        refine or_congr_left ⟨fun hmem ↦ ⟨name, rfl, htexts text hmem⟩, ?_⟩
        rintro ⟨_, ⟨⟩, value, hvalue, htext⟩
        obtain ⟨text', hmem, htext'⟩ := hall value hvalue
        rw [htext] at htext'
        exact Option.some.inj htext' ▸ hmem
  dsimp only at h
  split at h
  · cases h
  · next hfit =>
    have hsize : ∀ text ∈ fromHeader ++ fromMetadata, text.utf8ByteSize ≤ 512 := by
      intro text hmem
      by_contra hlong
      refine hfit (List.any_eq_true.mpr ⟨text, hmem, ?_⟩)
      simp [Nat.lt_of_not_le hlong]
    have hagree : ∀ text, v = some text ↔ text ∈ fromHeader ++ fromMetadata := by
      intro text
      cases hlist : fromHeader ++ fromMetadata with
      | nil =>
        rw [hlist] at h
        cases h
        simp
      | cons first rest =>
        rw [hlist] at h
        dsimp only at h
        split at h
        · cases h
        · next hsame =>
          cases h
          rw [Option.some.injEq]
          constructor
          · rintro rfl
            exact List.mem_cons_self
          · intro hmem
            by_contra hne
            exact hsame (List.any_eq_true.mpr ⟨text, hmem, decide_eq_true (Ne.symm hne)⟩)
    refine ⟨fun name hname value hvalue ↦ ?_, fun text htext ↦ hsize text ((hagree text).mp htext),
      fun text ↦ (hagree text).trans (hvalues.2 text)⟩
    obtain ⟨text, hmem, htext⟩ := hvalues.1 name hname value hvalue
    exact ⟨text, htext, hsize text hmem⟩

/-- A field is as coherent in the selected headers. -/
theorem coherent_selectHeaders (headers : Headers) {header : Option String}
    (h : ∀ name, header = some name → name ∈ identityHeaderNames) (sources : List Json)
    (field : String) :
    coherent (selectHeaders headers) header sources field =
      coherent headers header sources field := by
  unfold coherent
  cases header with
  | none => rfl
  | some name =>
    dsimp only
    rw [getAll_selectHeaders headers (h name rfl)]

/-- The names a field has in a metadata object: its own and its alias. -/
def namesOf (field : String) : List String :=
  field :: (flatAliases.filter (·.2 = field)).map (·.1)

/-- A request has a text for a field, in the header that carries it or in its metadata. -/
def Supplies (t : JsonText) (headers : Headers) (body : Json) (f : String × Option String)
    (text : String) : Prop :=
  (∃ name, f.2 = some name ∧ ∃ value ∈ headers.getAll name, value.toStr = some text) ∨
    ∃ m ∈ metadataObjects t headers body, ∃ name ∈ namesOf f.1, m.get name = some (.str text)

/-- A field of an alias source is an alias of the metadata object. -/
theorem get_aliasSources {m : Json} {field : String} {value : Json} :
    (∃ source ∈ aliasSources m, source.get field = some value) ↔
      ∃ a ∈ flatAliases, a.2 = field ∧ m.get a.1 = some value := by
  unfold aliasSources
  constructor
  · rintro ⟨source, hsource, hget⟩
    obtain ⟨a, ha, hsource⟩ := List.mem_filterMap.mp hsource
    obtain ⟨v, hv, rfl⟩ := Option.map_eq_some_iff.mp hsource
    rw [Json.get, Json.field] at hget
    split at hget
    · next hfield =>
      cases hget
      exact ⟨a, ha, hfield, hv⟩
    · cases hget
  · rintro ⟨a, ha, rfl, hget⟩
    refine ⟨.obj [(a.2, value)], List.mem_filterMap.mpr ⟨a, ha, by rw [hget]; rfl⟩, ?_⟩
    rw [Json.get, Json.field, if_pos rfl]

/-- A coherent field has the text that is supplied for it. -/
theorem coherent_supplies {t : JsonText} {headers : Headers} {body : Json} {sources : List Json}
    (hstructure : Structural t headers body) (hsources : metadata t body headers = .ok sources)
    {f : String × Option String} {v : Option String}
    (h : coherent headers f.2 sources f.1 = .ok v) (text : String) :
    v = some text ↔ Supplies t headers body f text := by
  rw [(coherent_ok h).2.2, metadata_ok hstructure hsources]
  refine or_congr_right ⟨?_, ?_⟩
  · rintro ⟨source, hsource, hget⟩
    rcases List.mem_append.mp hsource with hm | halias
    · exact ⟨source, hm, f.1, List.mem_cons_self, hget⟩
    · obtain ⟨m, hm, hsource⟩ := List.mem_flatMap.mp halias
      obtain ⟨a, ha, hfield, hvalue⟩ := get_aliasSources.mp ⟨source, hsource, hget⟩
      refine ⟨m, hm, a.1, List.mem_cons_of_mem _ (List.mem_map_of_mem ?_), hvalue⟩
      exact List.mem_filter.mpr ⟨ha, decide_eq_true hfield⟩
  · rintro ⟨m, hm, name, hname, hget⟩
    rcases List.mem_cons.mp hname with rfl | halias
    · exact ⟨m, List.mem_append_left _ hm, hget⟩
    · obtain ⟨a, ha, rfl⟩ := List.mem_map.mp halias
      obtain ⟨ha, hfield⟩ := List.mem_filter.mp ha
      obtain ⟨source, hsource, hvalue⟩ := get_aliasSources.mpr
        ⟨a, ha, of_decide_eq_true hfield, hget⟩
      exact ⟨source, List.mem_append_right _ (List.mem_flatMap.mpr ⟨m, hm, hsource⟩), hvalue⟩

/-! ### Accepted requests -/

/-- An identifier that the map takes. -/
def IsMapped (id : String) : Prop := id ≠ "" ∧ id.utf8ByteSize ≤ 512

/-- What a value of faultless places is. -/
theorem agreed_mapped {os : List Occurrence} (h : ¬ Faulty os) {v : String}
    (hv : agreed os = some v) : IsMapped v := by
  obtain ⟨o, ho, hvalue⟩ := List.exists_of_findSome?_eq_some hv
  have hfaultless : o.faulty = false := Bool.not_eq_true _ ▸ fun hf ↦ h ⟨o, ho, hf⟩
  unfold Occurrence.value at hvalue
  unfold Occurrence.faulty at hfaultless
  split at hvalue
  · next text hread =>
    rw [hread] at hfaultless
    split at hvalue
    · cases hvalue
    · next hblank =>
      cases hvalue
      simp only [Bool.or_eq_false_iff, decide_eq_false_iff_not, Nat.not_lt] at hfaultless
      exact ⟨hblank, (utf8ByteSize_trim_le text).trans hfaultless.1⟩
  · cases hvalue

/-- The headers that are checked when a request is accepted. -/
def checkedHeaders : List String :=
  ["session-id", "session_id", "conversation-id", "conversation_id", "thread-id", "thread_id",
    "x-codex-installation-id", "x-codex-window-id", "x-codex-parent-thread-id"]

/-- What `parse` has checked of a request. -/
structure Accepted (t : JsonText) (r : IngressRequest) : Prop where
  structural : Structural t r.identityHeaders r.document
  present : r.clientMetadataPresent = (r.document.get "client_metadata").isSome
  selected : ∀ entry ∈ r.identityHeaders, entry.1 ∈ identityHeaderNames
  headers : ∀ name ∈ checkedHeaders, ∀ value ∈ r.identityHeaders.getAll name,
    ∃ text, value.toStr = some text ∧ text.utf8ByteSize ≤ 512
  identity : r.stateless = false → IsMapped r.identity.sessionId ∧ IsMapped r.identity.threadId
  sources : ∃ sources, metadata t r.document r.identityHeaders = .ok sources ∧
    (∃ compaction, compactionMetadata sources = .ok compaction) ∧
    ∀ f ∈ projectedFields, ∃ v, coherent r.identityHeaders f.2 sources f.1 = .ok v

/-- The resolved identity can be mapped. -/
theorem resolved_mapped {t : JsonText} {headers : Headers} {body : Json} {kind : RequestKind}
    {identity : ClientIdentity} (h : inspect t headers body kind = .ok (some identity)) :
    IsMapped identity.sessionId ∧ IsMapped identity.threadId := by
  have hstructure := structural_of_inspect h
  have hclean := clean_of_inspect hstructure h
  have hagreed : ∀ s v, agreed (occurrences t headers body kind s) = some v → IsMapped v :=
    fun s v ↦ agreed_mapped (hclean.faultless s)
  rw [inspect_of_clean hstructure hclean] at h
  have hor : ∀ {x y : Option String}, (∀ v, x = some v → IsMapped v) →
      (∀ v, y = some v → IsMapped v) → ∀ v, x.or y = some v → IsMapped v := by
    intro x y hx hy v hv
    cases x with
    | none => exact hy v hv
    | some w => exact hx v hv
  obtain ⟨sessionId, hsession, rfl⟩ := Option.map_eq_some_iff.mp (Except.ok.inj h)
  have hmapped := hor (hor (hor (hagreed .session) (hagreed .conversation)) (hagreed .thread))
    (hagreed .search) sessionId hsession
  refine ⟨hmapped, ?_⟩
  cases hthread : (agreed (occurrences t headers body kind .thread)).or
      (agreed (occurrences t headers body kind .conversation)) with
  | none => exact hmapped
  | some threadId => exact hor (hagreed .thread) (hagreed .conversation) threadId hthread

/-- The selected headers have the structure of all. -/
theorem structural_selectHeaders {t : JsonText} {headers : Headers} {body : Json}
    (h : Structural t headers body) : Structural t (selectHeaders headers) body where
  few name hname := by
    rw [getAll_selectHeaders headers (by
      revert name
      decide)]
    exact h.few name hname
  client := h.client
  turn value hvalue := by
    rw [get_selectHeaders headers (by decide)] at hvalue
    rw [getAll_selectHeaders headers (by decide)]
    exact h.turn value hvalue

/-- A header that is checked for a resolved identity. -/
theorem header_of_clean {t : JsonText} {headers : Headers} {body : Json} {kind : RequestKind}
    (h : Clean t headers body kind) (s : Signal) {name : String} (hname : name ∈ s.aliases)
    {value : HeaderValue} (hvalue : value ∈ headers.getAll name) :
    ∃ text, value.toStr = some text ∧ text.utf8ByteSize ≤ 512 := by
  have ho : Occurrence.header value ∈ occurrences t headers body kind s := by
    unfold occurrences
    refine List.mem_append_left _ (List.mem_append_left _ (List.mem_map_of_mem ?_))
    exact List.mem_flatMap.mpr ⟨name, hname, hvalue⟩
  have hfaultless : (Occurrence.header value).faulty = false :=
    Bool.not_eq_true _ ▸ fun hf ↦ h.faultless s ⟨_, ho, hf⟩
  have hread : (Occurrence.header value).read = value.toStr.map .str := rfl
  unfold Occurrence.faulty at hfaultless
  rw [hread] at hfaultless
  cases htext : HeaderValue.toStr value with
  | none =>
    rw [htext] at hfaultless
    cases hfaultless
  | some text =>
    rw [htext] at hfaultless
    simp only [Option.map_some, Bool.or_eq_false_iff, decide_eq_false_iff_not,
      Nat.not_lt] at hfaultless
    exact ⟨text, rfl, hfaultless.1⟩

/-- A request the ingress parses is an accepted one. -/
theorem parse_accepted {t : JsonText} {headers : Headers} {body : Json} {kind : RequestKind}
    {drawn : Uuid} {r : IngressRequest} (h : parse t headers body kind drawn = .ok r) :
    Accepted t r := by
  obtain ⟨model, hmodel, h⟩ := bind_ok.mp h
  obtain ⟨sources, hsources, h⟩ := bind_ok.mp h
  obtain ⟨compaction, hcompaction, h⟩ := bind_ok.mp h
  obtain ⟨resolved, hresolved, h⟩ := bind_ok.mp h
  obtain ⟨turnId, hturn, h⟩ := bind_ok.mp h
  obtain ⟨_, hfields, h⟩ := bind_ok.mp h
  obtain ⟨tier, htier, h⟩ := bind_ok.mp h
  cases h
  have hstructure := structural_of_inspect hresolved
  have hclean := clean_of_inspect hstructure hresolved
  have hcoherent : ∀ f ∈ coherentFields, ∃ v, coherent headers f.2 sources f.1 = .ok v := by
    intro f hf
    obtain ⟨v, hv, -⟩ := bind_ok.mp (forM_ok hfields f hf)
    exact ⟨v, hv⟩
  have hheader : ∀ f ∈ coherentFields, ∀ name, f.2 = some name → ∀ value ∈ headers.getAll name,
      ∃ text, value.toStr = some text ∧ text.utf8ByteSize ≤ 512 := by
    intro f hf name hname
    obtain ⟨v, hv⟩ := hcoherent f hf
    exact (coherent_ok hv).1 name hname
  have hchecked : ∀ name ∈ checkedHeaders, name ∈ identityHeaderNames := by decide
  refine ⟨structural_selectHeaders hstructure, rfl, fun entry hentry ↦ (mem_selectHeaders hentry).1,
    fun name hname value hvalue ↦ ?_, fun hstateless ↦ ?_, sources, ?_, ?_, fun f hf ↦ ?_⟩
  · rw [getAll_selectHeaders headers (hchecked name hname)] at hvalue
    simp only [checkedHeaders, List.mem_cons, List.not_mem_nil, or_false] at hname
    rcases hname with rfl | rfl | rfl | rfl | rfl | rfl | rfl | rfl | rfl
    · exact header_of_clean hclean .session (by decide) hvalue
    · exact header_of_clean hclean .session (by decide) hvalue
    · exact header_of_clean hclean .conversation (by decide) hvalue
    · exact header_of_clean hclean .conversation (by decide) hvalue
    · exact header_of_clean hclean .thread (by decide) hvalue
    · exact header_of_clean hclean .thread (by decide) hvalue
    · exact hheader ("installation_id", some "x-codex-installation-id") (by decide) _ rfl _ hvalue
    · exact hheader ("window_id", some "x-codex-window-id") (by decide) _ rfl _ hvalue
    · exact hheader ("parent_thread_id", some "x-codex-parent-thread-id") (by decide) _ rfl _ hvalue
  · cases resolved with
    | none => cases hstateless
    | some identity => exact resolved_mapped hresolved
  · rw [metadata_selectHeaders]
    exact hsources
  · obtain ⟨m, hm, -⟩ := bind_ok.mp hcompaction
    exact ⟨m, hm⟩
  · have hprojected : ∀ f ∈ projectedFields, (f = ("turn_id", none) ∨ f ∈ coherentFields) ∧
        ∀ name, f.2 = some name → name ∈ identityHeaderNames := by
      decide
    obtain ⟨hfield, hname⟩ := hprojected f hf
    rw [coherent_selectHeaders headers hname]
    rcases hfield with rfl | hf
    · exact ⟨turnId, hturn⟩
    · exact hcoherent f hf

/-- A request keeps the selected headers and the body. -/
theorem parse_keeps {t : JsonText} {headers : Headers} {body : Json} {kind : RequestKind}
    {drawn : Uuid} {r : IngressRequest} (h : parse t headers body kind drawn = .ok r) :
    r.identityHeaders = selectHeaders headers ∧ r.document = body := by
  obtain ⟨_, -, h⟩ := bind_ok.mp h
  obtain ⟨_, -, h⟩ := bind_ok.mp h
  obtain ⟨_, -, h⟩ := bind_ok.mp h
  obtain ⟨_, -, h⟩ := bind_ok.mp h
  obtain ⟨_, -, h⟩ := bind_ok.mp h
  obtain ⟨_, -, h⟩ := bind_ok.mp h
  obtain ⟨_, -, h⟩ := bind_ok.mp h
  cases h
  exact ⟨rfl, rfl⟩

end Xxgate.Codex

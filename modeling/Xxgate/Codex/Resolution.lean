import Xxgate.Base.Fallible
import Xxgate.Codex.Ingress

/-!
# What a resolved identity says

The session and the thread of an accepted request are resolved from the copies a client sends
of them. The copies that resolution looks at agree: those in the headers, in the client
metadata, in the turn metadata nested in it and in the turn metadata header. Deeper turn
metadata it does not look at.
-/

namespace Xxgate.Codex

open Xxgate.Core Xxgate.Base Fallible

/-- A value that is neither null nor a blank text. -/
def isFilled : Json → Bool
  | .null => false
  | .str text => trim text ≠ ""
  | _ => true

/-! ### Candidates -/

@[simp] theorem candidate_field (field source : String) (value : Json) :
    (candidate field source value).field = field := by
  unfold candidate
  split
  · rfl
  · split
    · rfl
    · split
      · rfl
      · split <;> rfl
  · rfl

/-- The candidates of a field that pass have no fault and agree on its value. -/
theorem coherentCandidates_ok {candidates : List Candidate} {field : String}
    {value : Option String} (h : coherentCandidates candidates field = .ok value) :
    (∀ c ∈ candidates, c.field = field → (c.status = .valid ∨ c.status = .empty) ∧
      ∀ v, c.value = some v → value = some v) ∧
    ∀ v, value = some v → ∃ c ∈ candidates, c.field = field ∧ c.value = some v := by
  unfold coherentCandidates at h
  dsimp only at h
  split at h
  · cases h
  · next hfault =>
    have hstatus : ∀ c ∈ candidates, c.field = field → c.status = .valid ∨ c.status = .empty := by
      intro c hc hfield
      have hok := List.find?_eq_none.mp hfault c
        (List.mem_filter.mpr ⟨hc, decide_eq_true hfield⟩)
      simp only [ne_eq, Bool.and_eq_true, decide_eq_true_eq, not_and_or, not_not] at hok
      exact hok
    split at h
    · next hvalid =>
      cases h
      refine ⟨fun c hc hfield ↦ ⟨hstatus c hc hfield, fun v hv ↦ ?_⟩, fun v hv ↦ by cases hv⟩
      have hnot := List.filter_eq_nil_iff.mp hvalid c
        (List.mem_filter.mpr ⟨hc, decide_eq_true hfield⟩)
      rw [hv] at hnot
      exact absurd rfl hnot
    · next first rest hvalid =>
      split at h
      · cases h
      · next hsame =>
        cases h
        have hmem : ∀ c, c ∈ first :: rest ↔ (c ∈ candidates ∧ c.field = field) ∧
            c.value.isSome = true := by
          intro c
          rw [← hvalid, List.mem_filter, List.mem_filter, decide_eq_true_eq]
        refine ⟨fun c hc hfield ↦ ⟨hstatus c hc hfield, fun v hv ↦ ?_⟩, fun v hv ↦ ?_⟩
        · by_contra hne
          refine hsame (List.any_eq_true.mpr ⟨c, hvalid ▸ (hmem c).mpr ⟨⟨hc, hfield⟩, ?_⟩, ?_⟩)
          · rw [hv]
            rfl
          · rw [hv]
            exact decide_eq_true fun heq ↦ hne heq.symm
        · obtain ⟨⟨hc, hfield⟩, -⟩ := (hmem first).mp List.mem_cons_self
          exact ⟨first, hc, hfield, hv⟩

/-! ### Occurrences -/

/-- The signals an identity is resolved from. -/
inductive Signal where
  | session
  | thread
  | conversation
  | cacheKey
  | search
  deriving DecidableEq

namespace Signal

/-- The field of its candidates. -/
def field : Signal → String
  | session => "session_id"
  | thread => "thread_id"
  | conversation => "conversation_id"
  | cacheKey => "prompt_cache_key"
  | search => "search_id"

/-- The names of its headers and of its fields in metadata. -/
def aliases : Signal → List String
  | session => ["session_id", "session-id"]
  | thread => ["thread_id", "thread-id"]
  | conversation => ["conversation_id", "conversation-id"]
  | _ => []

/-- The value of a signal in the body itself. -/
def inBody (body : Json) (kind : RequestKind) : Signal → Option Json
  | cacheKey => body.get "prompt_cache_key"
  | search => if kind = .search then body.get "id" else none
  | _ => none

end Signal

/-- A place where a signal is found: a header, or a value in JSON. -/
inductive Occurrence where
  | header (value : HeaderValue)
  | json (value : Json)

namespace Occurrence

/-- What is found there; a header that is not visible ASCII has nothing to be read. -/
def read : Occurrence → Option Json
  | header value => value.toStr.map .str
  | json value => some value

/-- An occurrence that is neither a text nor null, is too long, cannot be read or has control
characters. -/
def faulty (o : Occurrence) : Bool :=
  match o.read with
  | some .null => false
  | some (.str text) => 512 < text.utf8ByteSize || text.toList.any isControl
  | _ => true

/-- The text that is found, trimmed, if it is not blank. -/
def value (o : Occurrence) : Option String :=
  match o.read with
  | some (.str text) => if trim text = "" then none else some (trim text)
  | _ => none

end Occurrence

/-- The metadata objects of a request: of the client, nested in it, and in the turn header. -/
def metadataObjects (t : JsonText) (headers : Headers) (body : Json) : List Json :=
  (body.get "client_metadata").toList ++
    ((body.get "client_metadata").bind (JsonText.turnMetadata t.parse)).toList ++
    ((((headers.get "x-codex-turn-metadata").bind HeaderValue.toStr).bind t.parse)).toList

/-- Every place where a signal is found. -/
def occurrences (t : JsonText) (headers : Headers) (body : Json) (kind : RequestKind)
    (s : Signal) : List Occurrence :=
  (s.aliases.flatMap headers.getAll).map .header ++
    ((metadataObjects t headers body).flatMap fun m ↦ s.aliases.filterMap m.get).map .json ++
    ((s.inBody body kind).toList).map .json

/-- A place with a fault. -/
def Faulty (os : List Occurrence) : Prop := ∃ o ∈ os, o.faulty = true

/-- Two places that differ. -/
def Conflict (os : List Occurrence) : Prop :=
  ∃ o ∈ os, ∃ o' ∈ os, ∃ v v', o.value = some v ∧ o'.value = some v' ∧ v ≠ v'

/-- The value of a signal, if it is present. -/
def agreed (os : List Occurrence) : Option String := os.findSome? Occurrence.value

/-- Some metadata are an object within the size limit. -/
def ObjectText (t : JsonText) (text : String) : Prop :=
  text.utf8ByteSize ≤ 128 * 1024 ∧ ∃ m, t.parse text = some m ∧ m.isObject = true

/-- The structure that the collection asks for. -/
structure Structural (t : JsonText) (headers : Headers) (body : Json) : Prop where
  few : ∀ name ∈ ["session-id", "session_id", "thread-id", "thread_id", "conversation-id",
    "conversation_id", "x-codex-window-id", "x-codex-installation-id",
    "x-codex-parent-thread-id"], (headers.getAll name).length ≤ 4
  client : ∀ m, body.get "client_metadata" = some m → m.isObject = true ∧
    ∀ nested, m.get "x-codex-turn-metadata" = some nested →
      ∃ text, nested = .str text ∧ ObjectText t text
  turn : ∀ value, headers.get "x-codex-turn-metadata" = some value →
    (headers.getAll "x-codex-turn-metadata").length = 1 ∧
      ∃ text, value.toStr = some text ∧ ObjectText t text

/-! ### Candidates of occurrences -/

/-- The candidates of a field are what is found in some places. -/
structure Matches (candidates : List Candidate) (field : String) (os : List Occurrence) : Prop where
  sound : ∀ c ∈ candidates, c.field = field → ∃ o ∈ os,
    (o.faulty = true ↔ c.status ≠ .valid ∧ c.status ≠ .empty) ∧
      (o.faulty = false → c.value = o.value)
  complete : ∀ o ∈ os, ∃ c ∈ candidates, c.field = field ∧
    (o.faulty = true ↔ c.status ≠ .valid ∧ c.status ≠ .empty) ∧
      (o.faulty = false → c.value = o.value)

private theorem Matches.append {cs cs' : List Candidate} {field : String} {os os' : List Occurrence}
    (h : Matches cs field os) (h' : Matches cs' field os') :
    Matches (cs ++ cs') field (os ++ os') where
  sound c hc hfield := by
    rcases List.mem_append.mp hc with hc | hc
    · obtain ⟨o, ho, hsame⟩ := h.sound c hc hfield
      exact ⟨o, List.mem_append_left _ ho, hsame⟩
    · obtain ⟨o, ho, hsame⟩ := h'.sound c hc hfield
      exact ⟨o, List.mem_append_right _ ho, hsame⟩
  complete o ho := by
    rcases List.mem_append.mp ho with ho | ho
    · obtain ⟨c, hc, hsame⟩ := h.complete o ho
      exact ⟨c, List.mem_append_left _ hc, hsame⟩
    · obtain ⟨c, hc, hsame⟩ := h'.complete o ho
      exact ⟨c, List.mem_append_right _ hc, hsame⟩

/-- Candidates of other fields are of no place. -/
theorem Matches.of_ne {cs : List Candidate} {field : String} (h : ∀ c ∈ cs, c.field ≠ field) :
    Matches cs field [] :=
  ⟨fun c hc hfield ↦ absurd hfield (h c hc), fun _ ho ↦ absurd ho List.not_mem_nil⟩

/-- The order of the places makes no difference. -/
theorem Matches.of_mem {cs : List Candidate} {field : String} {os os' : List Occurrence}
    (h : Matches cs field os) (hmem : ∀ o, o ∈ os ↔ o ∈ os') : Matches cs field os' where
  sound c hc hfield := by
    obtain ⟨o, ho, hsame⟩ := h.sound c hc hfield
    exact ⟨o, (hmem o).mp ho, hsame⟩
  complete o ho := h.complete o ((hmem o).mpr ho)

/-- A candidate of what is found in a place is as the place is. -/
theorem candidate_matches {o : Occurrence} {value : Json} (h : o.read = some value)
    (field source : String) :
    (o.faulty = true ↔ (candidate field source value).status ≠ .valid ∧
      (candidate field source value).status ≠ .empty) ∧
      (o.faulty = false → (candidate field source value).value = o.value) := by
  unfold Occurrence.faulty Occurrence.value
  rw [h]
  cases value with
  | str text =>
    unfold candidate
    dsimp only
    split
    · next hlong => simp [hlong]
    · next hlong =>
      split
      · next hcontrol => simp [hcontrol]
      · next hcontrol =>
        split
        · next hblank => simp [hlong, hcontrol]
        · next hblank => simp [hlong, hcontrol]
  | _ => simp [candidate]

/-- The candidate of a header is as the header is. -/
theorem headerCandidate_matches (value : HeaderValue) (field name : String) (index : Nat) :
    ((Occurrence.header value).faulty = true ↔
      (headerCandidate field name index value).status ≠ .valid ∧
        (headerCandidate field name index value).status ≠ .empty) ∧
      ((Occurrence.header value).faulty = false →
        (headerCandidate field name index value).value = (Occurrence.header value).value) := by
  unfold headerCandidate
  dsimp only
  cases htext : HeaderValue.toStr value with
  | some text =>
    refine candidate_matches ?_ field _
    rw [Occurrence.read, htext]
    rfl
  | none => simp [Occurrence.faulty, Occurrence.read, htext]

@[simp] theorem headerCandidate_field (value : HeaderValue) (field name : String) (index : Nat) :
    (headerCandidate field name index value).field = field := by
  unfold headerCandidate
  dsimp only
  split
  · exact candidate_field _ _ _
  · rfl

/-- The candidates of some headers. -/
theorem headerCandidates_matches {headers : Headers} (field : String) {names : List String}
    (hfew : ∀ name ∈ names, (headers.getAll name).length ≤ 4) :
    ∃ cs, headerCandidates headers field names = .ok cs ∧ (∀ c ∈ cs, c.field = field) ∧
      Matches cs field ((names.flatMap headers.getAll).map .header) := by
  induction names with
  | nil => exact ⟨[], rfl, fun _ h ↦ absurd h List.not_mem_nil, Matches.of_ne (by simp)⟩
  | cons name names ih =>
    obtain ⟨cs, hcs, hfield, hmatches⟩ := ih fun n hn ↦ hfew n (List.mem_cons_of_mem _ hn)
    have hname := hfew name List.mem_cons_self
    have hown :
        ∀ c ∈ (headers.getAll name).mapIdx (headerCandidate field name), c.field = field := by
      intro c hc
      obtain ⟨i, hi, rfl⟩ := List.mem_mapIdx.mp hc
      exact headerCandidate_field _ _ _ _
    refine ⟨(headers.getAll name).mapIdx (headerCandidate field name) ++ cs, ?_, ?_, ?_⟩
    · unfold headerCandidates
      rw [if_neg (not_lt.mpr hname), hcs]
      rfl
    · intro c hc
      rcases List.mem_append.mp hc with hc | hc
      · exact hown c hc
      · exact hfield c hc
    · rw [List.flatMap_cons, List.map_append]
      refine Matches.append ⟨fun c hc _ ↦ ?_, fun o ho ↦ ?_⟩ hmatches
      · obtain ⟨i, hi, rfl⟩ := List.mem_mapIdx.mp hc
        exact ⟨_, List.mem_map_of_mem (List.getElem_mem hi), headerCandidate_matches _ _ _ _⟩
      · obtain ⟨value, hvalue, rfl⟩ := List.mem_map.mp ho
        obtain ⟨i, hi, rfl⟩ := List.getElem_of_mem hvalue
        exact ⟨_, List.mem_mapIdx.mpr ⟨i, hi, rfl⟩, headerCandidate_field _ _ _ _,
          headerCandidate_matches _ _ _ _⟩

/-- The candidates of one field of some metadata, under some names. -/
theorem fieldCandidates_matches (m : Json) (source field : String) (names : List String) :
    Matches (names.filterMap (fieldCandidate m source field)) field
      ((names.filterMap m.get).map .json) where
  sound c hc _ := by
    obtain ⟨name, hname, hc⟩ := List.mem_filterMap.mp hc
    obtain ⟨value, hvalue, rfl⟩ := Option.map_eq_some_iff.mp hc
    exact ⟨.json value, List.mem_map_of_mem (List.mem_filterMap.mpr ⟨name, hname, hvalue⟩),
      candidate_matches rfl _ _⟩
  complete o ho := by
    obtain ⟨value, hvalue, rfl⟩ := List.mem_map.mp ho
    obtain ⟨name, hname, hvalue⟩ := List.mem_filterMap.mp hvalue
    refine ⟨candidate field (source ++ "." ++ name) value, ?_, candidate_field _ _ _,
      candidate_matches rfl _ _⟩
    exact List.mem_filterMap.mpr ⟨name, hname, by rw [fieldCandidate, hvalue]; rfl⟩

private theorem fieldCandidate_field {m : Json} {source field name : String} {c : Candidate}
    (h : fieldCandidate m source field name = some c) : c.field = field := by
  obtain ⟨value, -, rfl⟩ := Option.map_eq_some_iff.mp h
  exact candidate_field _ _ _

/-- Candidates collected in parts are of the places of the parts. -/
theorem Matches.flatMap {α : Type} {field : String} {f : α → List Candidate}
    {g : α → List Occurrence} (l : List α) (h : ∀ a ∈ l, Matches (f a) field (g a)) :
    Matches (l.flatMap f) field (l.flatMap g) := by
  induction l with
  | nil => exact Matches.of_ne fun _ hc ↦ absurd hc List.not_mem_nil
  | cons a l ih =>
    rw [List.flatMap_cons, List.flatMap_cons]
    exact (h a List.mem_cons_self).append (ih fun b hb ↦ h b (List.mem_cons_of_mem _ hb))

/-- The candidates of some metadata. -/
theorem metadataCandidates_matches {m : Json} (hm : m.isObject = true) (source : String)
    (s : Signal) : ∃ cs, metadataCandidates m source = .ok cs ∧
      Matches cs s.field ((s.aliases.filterMap m.get).map .json) := by
  refine ⟨_, if_pos hm, ?_⟩
  have hother : Matches (otherFields.filterMap fun field ↦ fieldCandidate m source field field)
      s.field [] := by
    refine Matches.of_ne fun c hc ↦ ?_
    obtain ⟨name, hname, hc⟩ := List.mem_filterMap.mp hc
    rw [fieldCandidate_field hc]
    rintro rfl
    revert hname
    cases s <;> decide
  have hparts : Matches
      (resolvedAliases.flatMap fun a ↦ a.2.filterMap (fieldCandidate m source a.1)) s.field
      (resolvedAliases.flatMap fun a ↦
        if a.1 = s.field then (a.2.filterMap m.get).map Occurrence.json else []) := by
    refine Matches.flatMap resolvedAliases fun a _ ↦ ?_
    by_cases ha : a.1 = s.field
    · rw [if_pos ha, ← ha]
      exact fieldCandidates_matches m source a.1 a.2
    · rw [if_neg ha]
      refine Matches.of_ne fun c hc ↦ ?_
      obtain ⟨name, -, hc⟩ := List.mem_filterMap.mp hc
      rwa [fieldCandidate_field hc]
  have hplaces : (resolvedAliases.flatMap fun a ↦
      if a.1 = s.field then (a.2.filterMap m.get).map Occurrence.json else []) =
      (s.aliases.filterMap m.get).map .json := by
    cases s <;> simp [resolvedAliases, Signal.field, Signal.aliases]
  rw [hplaces] at hparts
  rw [← List.append_nil ((s.aliases.filterMap m.get).map Occurrence.json)]
  exact hparts.append hother

/-- The metadata under a text of an object. -/
theorem parseMetadata_ok {t : JsonText} {text : String} (h : ObjectText t text) (source : String) :
    ∃ m, t.parse text = some m ∧ m.isObject = true ∧ parseMetadata t text source = .ok m := by
  obtain ⟨hsize, m, hm, hobject⟩ := h
  refine ⟨m, hm, hobject, ?_⟩
  unfold parseMetadata
  rw [if_neg (not_lt.mpr hsize), hm]

/-- The candidates of the client metadata. -/
theorem clientCandidates_matches {t : JsonText} {headers : Headers} {body : Json}
    (h : Structural t headers body) (s : Signal) :
    ∃ cs, clientCandidates t body = .ok cs ∧ Matches cs s.field
      ((((body.get "client_metadata").toList ++
        ((body.get "client_metadata").bind (JsonText.turnMetadata t.parse)).toList).flatMap
          fun m ↦ s.aliases.filterMap m.get).map .json) := by
  unfold clientCandidates
  cases hclient : body.get "client_metadata" with
  | none => exact ⟨[], rfl, Matches.of_ne fun _ hc ↦ absurd hc List.not_mem_nil⟩
  | some m =>
    obtain ⟨hm, hnested⟩ := h.client m hclient
    obtain ⟨flat, hflat, hmatches⟩ := metadataCandidates_matches hm "body.client_metadata" s
    dsimp only
    rw [hflat]
    cases hturn : m.get "x-codex-turn-metadata" with
    | none =>
      refine ⟨flat, rfl, ?_⟩
      simpa [JsonText.turnMetadata, hturn] using hmatches
    | some nested =>
      obtain ⟨text, rfl, htext⟩ := hnested nested hturn
      obtain ⟨value, hparse, hvalue, hmetadata⟩ :=
        parseMetadata_ok htext "body.client_metadata.x-codex-turn-metadata"
      obtain ⟨deep, hdeep, hmatches'⟩ :=
        metadataCandidates_matches hvalue "body.client_metadata.x-codex-turn-metadata" s
      refine ⟨flat ++ deep, ?_, ?_⟩
      · show (parseMetadata t text _ >>= fun value ↦ _) = _
        rw [hmetadata]
        show (metadataCandidates value _ >>= fun deep ↦ _) = _
        rw [hdeep]
        rfl
      · have hplaces : JsonText.turnMetadata t.parse m = some value := by
          rw [JsonText.turnMetadata, hturn]
          exact hparse
        rw [Option.bind_some, hplaces]
        simpa using hmatches.append hmatches'

/-- The candidates of the turn metadata header. -/
theorem turnCandidates_matches {t : JsonText} {headers : Headers} {body : Json}
    (h : Structural t headers body) (s : Signal) :
    ∃ cs, turnCandidates t headers = .ok cs ∧ Matches cs s.field
      (((((headers.get "x-codex-turn-metadata").bind HeaderValue.toStr).bind t.parse).toList.flatMap
        fun m ↦ s.aliases.filterMap m.get).map .json) := by
  unfold turnCandidates
  cases hturn : headers.get "x-codex-turn-metadata" with
  | none => exact ⟨[], rfl, Matches.of_ne fun _ hc ↦ absurd hc List.not_mem_nil⟩
  | some value =>
    obtain ⟨hone, text, hstr, htext⟩ := h.turn value hturn
    obtain ⟨m, hparse, hm, hmetadata⟩ := parseMetadata_ok htext "headers.x-codex-turn-metadata"
    obtain ⟨cs, hcs, hmatches⟩ := metadataCandidates_matches hm "headers.x-codex-turn-metadata" s
    refine ⟨cs, ?_, ?_⟩
    · dsimp only
      rw [if_neg (not_not.mpr hone), hstr]
      show (parseMetadata t text _ >>= fun value ↦ _) = _
      rw [hmetadata]
      exact hcs
    · rw [Option.bind_some, hstr, Option.bind_some, hparse]
      simpa using hmatches

/-- The candidates of the body itself. -/
theorem bodyCandidates_matches (body : Json) (kind : RequestKind) (s : Signal) :
    Matches (bodyCandidates body kind) s.field ((s.inBody body kind).toList.map .json) := by
  have hone : ∀ (value : Option Json) (field source : String),
      Matches (value.map (candidate field source)).toList field (value.toList.map .json) := by
    intro value field source
    cases value with
    | none => exact Matches.of_ne fun _ hc ↦ absurd hc List.not_mem_nil
    | some value =>
      refine ⟨fun c hc _ ↦ ?_, fun o ho ↦ ?_⟩
      · rw [Option.map_some, Option.toList_some, List.mem_singleton] at hc
        subst hc
        exact ⟨.json value, List.mem_cons_self, candidate_matches rfl _ _⟩
      · rw [Option.toList_some, List.map_singleton, List.mem_singleton] at ho
        subst ho
        exact ⟨_, List.mem_cons_self, candidate_field _ _ _, candidate_matches rfl _ _⟩
  have hnone : ∀ (value : Option Json) {field : String} (source : String), field ≠ s.field →
      Matches (value.map (candidate field source)).toList s.field [] := by
    intro value field source hne
    refine Matches.of_ne fun c hc ↦ ?_
    cases value with
    | none => cases hc
    | some value =>
      rw [Option.map_some, Option.toList_some, List.mem_singleton] at hc
      rwa [hc, candidate_field]
  have hnil : Matches [] s.field [] := Matches.of_ne fun _ hc ↦ absurd hc List.not_mem_nil
  unfold bodyCandidates
  cases s with
  | cacheKey =>
    rw [← List.append_nil (((Signal.cacheKey.inBody body kind).toList).map Occurrence.json)]
    refine Matches.append (hone _ _ _) ?_
    split
    · exact hnone _ _ (by decide)
    · exact hnil
  | search =>
    show Matches _ _ ([] ++ _)
    refine Matches.append (hnone _ _ (by decide)) ?_
    unfold Signal.inBody
    split
    · exact hone _ _ _
    · exact hnil
  | session =>
    show Matches _ _ ([] ++ _)
    refine Matches.append (hnone _ _ (by decide)) ?_
    split
    · exact hnone _ _ (by decide)
    · exact hnil
  | thread =>
    show Matches _ _ ([] ++ _)
    refine Matches.append (hnone _ _ (by decide)) ?_
    split
    · exact hnone _ _ (by decide)
    · exact hnil
  | conversation =>
    show Matches _ _ ([] ++ _)
    refine Matches.append (hnone _ _ (by decide)) ?_
    split
    · exact hnone _ _ (by decide)
    · exact hnil

/-- The candidates of the headers of some field, for any signal. -/
theorem headerCandidates_signal {headers : Headers} (field : String) {names : List String}
    (hfew : ∀ name ∈ names, (headers.getAll name).length ≤ 4) :
    ∃ cs, headerCandidates headers field names = .ok cs ∧ ∀ s : Signal, Matches cs s.field
      (if field = s.field then (names.flatMap headers.getAll).map .header else []) := by
  obtain ⟨cs, hcs, hfield, hmatches⟩ := headerCandidates_matches field hfew
  refine ⟨cs, hcs, fun s ↦ ?_⟩
  split
  · next hs => exact hs ▸ hmatches
  · next hs => exact Matches.of_ne fun c hc ↦ (hfield c hc).symm ▸ hs

/-- Under the structure that is asked for, the candidates are of all places. -/
theorem collectCandidates_matches {t : JsonText} {headers : Headers} {body : Json}
    (kind : RequestKind) (h : Structural t headers body) :
    ∃ cs, collectCandidates t headers body kind = .ok cs ∧
      ∀ s : Signal, Matches cs s.field (occurrences t headers body kind s) := by
  have hfew : ∀ names : List String, names ⊆ ["session-id", "session_id", "thread-id",
      "thread_id", "conversation-id", "conversation_id", "x-codex-window-id",
      "x-codex-installation-id", "x-codex-parent-thread-id"] →
        ∀ name ∈ names, (headers.getAll name).length ≤ 4 := fun _ hsub n hn ↦ h.few n (hsub hn)
  obtain ⟨sessions, hsessions, msessions⟩ :=
    headerCandidates_signal "session_id" (hfew ["session-id", "session_id"] (by simp))
  obtain ⟨threads, hthreads, mthreads⟩ :=
    headerCandidates_signal "thread_id" (hfew ["thread-id", "thread_id"] (by simp))
  obtain ⟨conversations, hconversations, mconversations⟩ :=
    headerCandidates_signal "conversation_id"
      (hfew ["conversation-id", "conversation_id"] (by simp))
  obtain ⟨windows, hwindows, mwindows⟩ :=
    headerCandidates_signal "window_id" (hfew ["x-codex-window-id"] (by simp))
  obtain ⟨installations, hinstallations, minstallations⟩ :=
    headerCandidates_signal "installation_id" (hfew ["x-codex-installation-id"] (by simp))
  obtain ⟨parents, hparents, mparents⟩ :=
    headerCandidates_signal "parent_thread_id" (hfew ["x-codex-parent-thread-id"] (by simp))
  have hclient := clientCandidates_matches h
  have hturn := turnCandidates_matches h
  obtain ⟨client, hclient', -⟩ := hclient .session
  obtain ⟨turn, hturn', -⟩ := hturn .session
  refine ⟨sessions ++ threads ++ conversations ++ windows ++ installations ++ parents ++ client ++
    turn ++ bodyCandidates body kind, ?_, fun s ↦ ?_⟩
  · unfold collectCandidates
    rw [hsessions, hthreads, hconversations, hwindows, hinstallations, hparents, hclient', hturn']
    rfl
  · obtain ⟨client', hc, mclient⟩ := hclient s
    obtain ⟨turn', ht, mturn⟩ := hturn s
    obtain rfl : client = client' := Except.ok.inj (hclient'.symm.trans hc)
    obtain rfl : turn = turn' := Except.ok.inj (hturn'.symm.trans ht)
    refine (((((((((msessions s).append (mthreads s)).append (mconversations s)).append
      (mwindows s)).append (minstallations s)).append (mparents s)).append mclient).append
        mturn).append (bodyCandidates_matches body kind s)).of_mem fun o ↦ ?_
    have hplaces : occurrences t headers body kind s =
        (s.aliases.flatMap headers.getAll).map .header ++
          ((((body.get "client_metadata").toList ++
            ((body.get "client_metadata").bind (JsonText.turnMetadata t.parse)).toList).flatMap
              fun m ↦ s.aliases.filterMap m.get).map .json) ++
          (((((headers.get "x-codex-turn-metadata").bind HeaderValue.toStr).bind
            t.parse).toList.flatMap fun m ↦ s.aliases.filterMap m.get).map .json) ++
          ((s.inBody body kind).toList).map .json := by
      simp only [occurrences, metadataObjects, List.flatMap_append, List.map_append,
        List.append_assoc]
    rw [hplaces]
    simp only [List.mem_append]
    refine or_congr_left (or_congr_left (or_congr_left ?_))
    cases s with
    | session => simp [Signal.field, Signal.aliases, or_comm]
    | thread => simp [Signal.field, Signal.aliases, or_comm]
    | conversation => simp [Signal.field, Signal.aliases, or_comm]
    | cacheKey => simp [Signal.field, Signal.aliases]
    | search => simp [Signal.field, Signal.aliases]

/-! ### What is resolved -/

/-- A signal fails where a place is faulty or two places differ. -/
theorem coherentCandidates_error {candidates : List Candidate} {field : String}
    {os : List Occurrence} (h : Matches candidates field os) {e : Error}
    (herror : coherentCandidates candidates field = .error e) : Faulty os ∨ Conflict os := by
  by_contra hnone
  rw [not_or] at hnone
  have hsound : ∀ c ∈ candidates, c.field = field → ∃ o ∈ os, o.faulty = false ∧
      (c.status = .valid ∨ c.status = .empty) ∧ c.value = o.value := by
    intro c hc hfield
    obtain ⟨o, ho, hstatus, hvalue⟩ := h.sound c hc hfield
    have hgood : o.faulty = false := Bool.eq_false_iff.mpr fun hbad ↦ hnone.1 ⟨o, ho, hbad⟩
    refine ⟨o, ho, hgood, ?_, hvalue hgood⟩
    by_contra hbad
    rw [not_or] at hbad
    exact hnone.1 ⟨o, ho, hstatus.mpr hbad⟩
  unfold coherentCandidates at herror
  dsimp only at herror
  split at herror
  · next c hfind =>
    obtain ⟨hmem, hbad⟩ := And.intro (List.mem_of_find?_eq_some hfind) (List.find?_some hfind)
    obtain ⟨hc, hfield⟩ := List.mem_filter.mp hmem
    obtain ⟨-, -, -, hstatus, -⟩ := hsound c hc (of_decide_eq_true hfield)
    rcases hstatus with hstatus | hstatus
    · simp [hstatus] at hbad
    · simp [hstatus] at hbad
  · split at herror
    · cases herror
    · next first rest hvalid =>
      split at herror
      · next hany =>
        obtain ⟨c, hc, hne⟩ := List.any_eq_true.mp hany
        have hplace : ∀ c ∈ first :: rest, ∃ o ∈ os, c.value = o.value ∧ c.value.isSome = true := by
          intro c hc
          rw [← hvalid] at hc
          obtain ⟨hc, hsome⟩ := List.mem_filter.mp hc
          obtain ⟨hc, hfield⟩ := List.mem_filter.mp hc
          obtain ⟨o, ho, -, -, hvalue⟩ := hsound c hc (of_decide_eq_true hfield)
          exact ⟨o, ho, hvalue, hsome⟩
        obtain ⟨o, ho, hvalue, hsome⟩ := hplace c (hvalid ▸ hc)
        obtain ⟨o', ho', hvalue', hsome'⟩ := hplace first List.mem_cons_self
        obtain ⟨v, hv⟩ := Option.isSome_iff_exists.mp hsome
        obtain ⟨v', hv'⟩ := Option.isSome_iff_exists.mp hsome'
        refine hnone.2 ⟨o, ho, o', ho', v, v', hvalue ▸ hv, hvalue' ▸ hv', ?_⟩
        rintro rfl
        exact of_decide_eq_true hne (hv.trans hv'.symm)
      · cases herror

/-- A signal that does not fail has the value of its places. -/
theorem coherentCandidates_value {candidates : List Candidate} {field : String}
    {os : List Occurrence} (h : Matches candidates field os) {value : Option String}
    (hok : coherentCandidates candidates field = .ok value) :
    ¬ Faulty os ∧ ¬ Conflict os ∧ value = agreed os := by
  obtain ⟨hall, hvalue⟩ := coherentCandidates_ok hok
  have hgood : ∀ o ∈ os, o.faulty = false := by
    intro o ho
    obtain ⟨c, hc, hfield, hstatus, -⟩ := h.complete o ho
    rw [Bool.eq_false_iff]
    intro hbad
    obtain ⟨hvalid, hempty⟩ := hstatus.mp hbad
    exact (hall c hc hfield).1.elim hvalid hempty
  have hsame : ∀ o ∈ os, ∀ v, o.value = some v → value = some v := by
    intro o ho v hv
    obtain ⟨c, hc, hfield, -, hc'⟩ := h.complete o ho
    exact (hall c hc hfield).2 v ((hc' (hgood o ho)).trans hv)
  refine ⟨?_, ?_, ?_⟩
  · rintro ⟨o, ho, hbad⟩
    rw [hgood o ho] at hbad
    cases hbad
  · rintro ⟨o, ho, o', ho', v, v', hv, hv', hne⟩
    exact hne (Option.some.inj ((hsame o ho v hv).symm.trans (hsame o' ho' v' hv')))
  · cases hagreed : agreed os with
    | none =>
      cases hv : value with
      | none => rfl
      | some v =>
        obtain ⟨c, hc, hfield, hcv⟩ := hvalue v hv
        obtain ⟨o, ho, -, hov⟩ := h.sound c hc hfield
        have hnone := List.findSome?_eq_none_iff.mp hagreed o ho
        rw [← hov (hgood o ho), hcv] at hnone
        cases hnone
    | some v =>
      obtain ⟨o, ho, hov⟩ := List.exists_of_findSome?_eq_some hagreed
      exact hsame o ho v hov

/-- The identity that the values of the signals stand for. -/
def resolvedFrom (session thread conversation search : Option String) : Option ClientIdentity :=
  (((session.or conversation).or thread).or search).map fun sessionId ↦
    ⟨sessionId, (thread.or conversation).getD sessionId⟩

/-- What a request has to say of each signal. -/
structure Clean (t : JsonText) (headers : Headers) (body : Json) (kind : RequestKind) : Prop where
  faultless : ∀ s, ¬ Faulty (occurrences t headers body kind s)
  coherent : ∀ s, ¬ Conflict (occurrences t headers body kind s)

/-- A clean request resolves to what its places say. -/
theorem inspect_of_clean {t : JsonText} {headers : Headers} {body : Json} {kind : RequestKind}
    (h : Structural t headers body) (hclean : Clean t headers body kind) :
    inspect t headers body kind = .ok (resolvedFrom
      (agreed (occurrences t headers body kind .session))
      (agreed (occurrences t headers body kind .thread))
      (agreed (occurrences t headers body kind .conversation))
      (agreed (occurrences t headers body kind .search))) := by
  obtain ⟨cs, hcollect, hmatches⟩ := collectCandidates_matches kind h
  have hvalue : ∀ s : Signal, coherentCandidates cs s.field =
      .ok (agreed (occurrences t headers body kind s)) := by
    intro s
    cases hs : coherentCandidates cs s.field with
    | error e =>
      rcases coherentCandidates_error (hmatches s) hs with hbad | hbad
      · exact absurd hbad (hclean.faultless s)
      · exact absurd hbad (hclean.coherent s)
    | ok value => rw [(coherentCandidates_value (hmatches s) hs).2.2]
  refine bind_ok.mpr ⟨cs, hcollect, bind_ok.mpr ⟨_, hvalue .session, bind_ok.mpr ⟨_,
    hvalue .thread, bind_ok.mpr ⟨_, hvalue .conversation, bind_ok.mpr ⟨_, hvalue .cacheKey,
      bind_ok.mpr ⟨_, hvalue .search, ?_⟩⟩⟩⟩⟩⟩
  unfold resolvedFrom
  cases (((agreed (occurrences t headers body kind .session)).or
    (agreed (occurrences t headers body kind .conversation))).or
      (agreed (occurrences t headers body kind .thread))).or
        (agreed (occurrences t headers body kind .search)) with
  | none => rfl
  | some sessionId => rfl

/-- Only a clean request is resolved. -/
theorem clean_of_inspect {t : JsonText} {headers : Headers} {body : Json} {kind : RequestKind}
    (h : Structural t headers body) {r : Option ClientIdentity}
    (hok : inspect t headers body kind = .ok r) : Clean t headers body kind := by
  obtain ⟨cs, hcollect, hmatches⟩ := collectCandidates_matches kind h
  unfold inspect at hok
  rw [hcollect] at hok
  obtain ⟨candidates, hcs, hok⟩ := bind_ok.mp hok
  cases hcs
  obtain ⟨session, hsession, hok⟩ := bind_ok.mp hok
  obtain ⟨thread, hthread, hok⟩ := bind_ok.mp hok
  obtain ⟨conversation, hconversation, hok⟩ := bind_ok.mp hok
  obtain ⟨cache, hcache, hok⟩ := bind_ok.mp hok
  obtain ⟨search, hsearch, -⟩ := bind_ok.mp hok
  have hall : ∀ s : Signal, ∃ value, coherentCandidates cs s.field = .ok value := by
    intro s
    cases s with
    | session => exact ⟨session, hsession⟩
    | thread => exact ⟨thread, hthread⟩
    | conversation => exact ⟨conversation, hconversation⟩
    | cacheKey => exact ⟨cache, hcache⟩
    | search => exact ⟨search, hsearch⟩
  constructor
  · intro s
    obtain ⟨value, hvalue⟩ := hall s
    exact (coherentCandidates_value (hmatches s) hvalue).1
  · intro s
    obtain ⟨value, hvalue⟩ := hall s
    exact (coherentCandidates_value (hmatches s) hvalue).2.1

/-- Where no two places differ, any of them gives the value. -/
theorem agreed_eq_some_iff {os : List Occurrence} (h : ¬ Conflict os) {v : String} :
    agreed os = some v ↔ ∃ o ∈ os, o.value = some v := by
  constructor
  · exact List.exists_of_findSome?_eq_some
  · rintro ⟨o, ho, hv⟩
    cases hagreed : agreed os with
    | none =>
      rw [List.findSome?_eq_none_iff.mp hagreed o ho] at hv
      cases hv
    | some v' =>
      obtain ⟨o', ho', hv'⟩ := List.exists_of_findSome?_eq_some hagreed
      by_contra hne
      exact h ⟨o, ho, o', ho', v, v', hv, hv', fun heq ↦ hne (congrArg some heq.symm)⟩

/-- The cache key has one place. -/
theorem not_conflict_cacheKey (t : JsonText) (headers : Headers) (body : Json)
    (kind : RequestKind) : ¬ Conflict (occurrences t headers body kind .cacheKey) := by
  rintro ⟨o, ho, o', ho', v, v', hv, hv', hne⟩
  have hplaces : ∀ o ∈ occurrences t headers body kind .cacheKey,
      ∃ value, body.get "prompt_cache_key" = some value ∧ o = .json value := by
    intro o ho
    simp only [occurrences, Signal.aliases, Signal.inBody, List.flatMap_nil, List.map_nil,
      List.filterMap_nil, List.nil_append, List.mem_map, Option.mem_toList, List.mem_append] at ho
    rcases ho with ho | ⟨value, hvalue, rfl⟩
    · simp at ho
    · exact ⟨value, hvalue, rfl⟩
  obtain ⟨value, hvalue, rfl⟩ := hplaces o ho
  obtain ⟨value', hvalue', rfl⟩ := hplaces o' ho'
  rw [hvalue] at hvalue'
  cases hvalue'
  exact hne (Option.some.inj (hv.symm.trans hv'))

/-- Resolution is exact, and what is resolved depends on the values alone. -/
theorem inspect_exact {t : JsonText} {headers : Headers} {body : Json} (kind : RequestKind)
    (h : Structural t headers body) :
    ((∃ e, inspect t headers body kind = .error e) ↔
      ∃ s, Faulty (occurrences t headers body kind s) ∨
        Conflict (occurrences t headers body kind s)) ∧
    (∀ r, inspect t headers body kind = .ok r → r = resolvedFrom
      (agreed (occurrences t headers body kind .session))
      (agreed (occurrences t headers body kind .thread))
      (agreed (occurrences t headers body kind .conversation))
      (agreed (occurrences t headers body kind .search))) ∧
    (∀ r, inspect t headers body kind = .ok r → (r.isSome = true ↔
      ∃ s ≠ .cacheKey, ∃ o ∈ occurrences t headers body kind s, o.value.isSome = true)) ∧
    ∀ headers' body', Structural t headers' body' →
      (∀ s, ¬ Faulty (occurrences t headers' body' kind s)) →
      (∀ s ≠ .cacheKey, ∀ v, (∃ o ∈ occurrences t headers body kind s, o.value = some v) ↔
        ∃ o ∈ occurrences t headers' body' kind s, o.value = some v) →
      ∀ r, inspect t headers body kind = .ok r → inspect t headers' body' kind = .ok r := by
  have herror : (∃ e, inspect t headers body kind = .error e) ↔
      ∃ s, Faulty (occurrences t headers body kind s) ∨
        Conflict (occurrences t headers body kind s) := by
    constructor
    · rintro ⟨e, he⟩
      by_contra hnone
      have hclean : Clean t headers body kind :=
        ⟨fun s hs ↦ hnone ⟨s, .inl hs⟩, fun s hs ↦ hnone ⟨s, .inr hs⟩⟩
      rw [inspect_of_clean h hclean] at he
      cases he
    · rintro ⟨s, hs⟩
      cases hinspect : inspect t headers body kind with
      | error e => exact ⟨e, rfl⟩
      | ok r =>
        have hclean := clean_of_inspect h hinspect
        exact (hs.elim (hclean.faultless s) (hclean.coherent s)).elim
  refine ⟨herror, fun r hr ↦ ?_, fun r hr ↦ ?_, fun headers' body' h' hfaultless hsame r hr ↦ ?_⟩
  · rw [inspect_of_clean h (clean_of_inspect h hr)] at hr
    exact (Except.ok.inj hr).symm
  · have hclean := clean_of_inspect h hr
    rw [inspect_of_clean h hclean] at hr
    cases hr
    have hpresent : ∀ s, (agreed (occurrences t headers body kind s)).isSome = true ↔
        ∃ o ∈ occurrences t headers body kind s, o.value.isSome = true :=
      fun s ↦ List.findSome?_isSome_iff
    rw [resolvedFrom, Option.isSome_map, Option.isSome_or, Option.isSome_or, Option.isSome_or,
      Bool.or_eq_true, Bool.or_eq_true, Bool.or_eq_true, hpresent, hpresent, hpresent, hpresent]
    constructor
    · rintro (((ho | ho) | ho) | ho)
      · exact ⟨.session, by decide, ho⟩
      · exact ⟨.conversation, by decide, ho⟩
      · exact ⟨.thread, by decide, ho⟩
      · exact ⟨.search, by decide, ho⟩
    · rintro ⟨s, hs, ho⟩
      cases s with
      | session => exact .inl (.inl (.inl ho))
      | conversation => exact .inl (.inl (.inr ho))
      | thread => exact .inl (.inr ho)
      | search => exact .inr ho
      | cacheKey => exact absurd rfl hs
  · have hclean := clean_of_inspect h hr
    have hclean' : Clean t headers' body' kind := by
      refine ⟨hfaultless, fun s ↦ ?_⟩
      by_cases hs : s = .cacheKey
      · rw [hs]
        exact not_conflict_cacheKey t headers' body' kind
      · rintro ⟨o, ho, o', ho', v, v', hv, hv', hne⟩
        obtain ⟨p, hp, hpv⟩ := (hsame s hs v).mpr ⟨o, ho, hv⟩
        obtain ⟨p', hp', hpv'⟩ := (hsame s hs v').mpr ⟨o', ho', hv'⟩
        exact hclean.coherent s ⟨p, hp, p', hp', v, v', hpv, hpv', hne⟩
    have hagreed : ∀ s ≠ .cacheKey, agreed (occurrences t headers' body' kind s) =
        agreed (occurrences t headers body kind s) := by
      intro s hs
      refine Option.ext fun v ↦ ?_
      rw [agreed_eq_some_iff (hclean'.coherent s), agreed_eq_some_iff (hclean.coherent s)]
      exact (hsame s hs v).symm
    rw [inspect_of_clean h hclean] at hr
    rw [inspect_of_clean h' hclean', hagreed .session (by decide), hagreed .thread (by decide),
      hagreed .conversation (by decide), hagreed .search (by decide)]
    exact hr

/-- A session in a header and a thread in the turn metadata. -/
def spreadHeaders : Headers :=
  [("session-id", some " s "),
    ("x-codex-turn-metadata", some "\x7b\"thread_id\":\"t\"\x7d")]

/-- The session again, in the client metadata. -/
def spreadBody : Json := .obj [("client_metadata", .obj [("session_id", .str "s")])]

def spreadText : JsonText where
  parse text :=
    if text = "\x7b\"thread_id\":\"t\"\x7d" then some (.obj [("thread_id", .str "t")]) else none
  print _ := ""
  read _ := none

private theorem spread_structural : Structural spreadText spreadHeaders spreadBody where
  few name hname := by
    revert name
    decide +kernel
  client m hm := by
    obtain rfl : (.obj [("session_id", .str "s")] : Json) = m := Option.some.inj hm
    refine ⟨rfl, fun nested hnested ↦ ?_⟩
    cases hnested
  turn value hvalue := by
    obtain rfl : some "\x7b\"thread_id\":\"t\"\x7d" = value := Option.some.inj hvalue
    refine ⟨by decide +kernel, "\x7b\"thread_id\":\"t\"\x7d", by decide +kernel,
      by decide +kernel, .obj [("thread_id", .str "t")], ?_, rfl⟩
    rfl

/-- Both in the client metadata. -/
def gatheredBody : Json :=
  .obj [("client_metadata", .obj [("session_id", .str "s"), ("thread_id", .str " t")])]

private theorem gathered_structural : Structural spreadText [] gatheredBody where
  few name hname := by
    revert name
    decide +kernel
  client m hm := by
    obtain rfl : (.obj [("session_id", .str "s"), ("thread_id", .str " t")] : Json) = m :=
      Option.some.inj hm
    refine ⟨rfl, fun nested hnested ↦ ?_⟩
    cases hnested
  turn value hvalue := by cases hvalue

/-- The identity is resolved from either, and from the second as it is from the first. -/
theorem inspect_exact_spread :
    ((∃ e, inspect spreadText spreadHeaders spreadBody .responses = .error e) ↔
      ∃ s, Faulty (occurrences spreadText spreadHeaders spreadBody .responses s) ∨
        Conflict (occurrences spreadText spreadHeaders spreadBody .responses s)) ∧
    inspect spreadText spreadHeaders spreadBody .responses = .ok (some ⟨"s", "t"⟩) ∧
    some ⟨"s", "t"⟩ = resolvedFrom
      (agreed (occurrences spreadText spreadHeaders spreadBody .responses .session))
      (agreed (occurrences spreadText spreadHeaders spreadBody .responses .thread))
      (agreed (occurrences spreadText spreadHeaders spreadBody .responses .conversation))
      (agreed (occurrences spreadText spreadHeaders spreadBody .responses .search)) ∧
    (∃ s ≠ .cacheKey, ∃ o ∈ occurrences spreadText spreadHeaders spreadBody .responses s,
      o.value.isSome = true) ∧
    inspect spreadText [] gatheredBody .responses = .ok (some ⟨"s", "t"⟩) := by
  obtain ⟨hfails, hresolved, hpresent, hsame⟩ := inspect_exact .responses spread_structural
  have hok : inspect spreadText spreadHeaders spreadBody .responses = .ok (some ⟨"s", "t"⟩) := by
    rfl
  refine ⟨hfails, hok, hresolved _ hok, (hpresent _ hok).mp rfl, ?_⟩
  have hvalues : ∀ s : Signal, s ≠ .cacheKey →
      (∀ v ∈ (occurrences spreadText spreadHeaders spreadBody .responses s).filterMap
        Occurrence.value, v ∈ (occurrences spreadText [] gatheredBody .responses s).filterMap
          Occurrence.value) ∧
      ∀ v ∈ (occurrences spreadText [] gatheredBody .responses s).filterMap Occurrence.value,
        v ∈ (occurrences spreadText spreadHeaders spreadBody .responses s).filterMap
          Occurrence.value := by
    intro s hs
    cases s <;> decide +kernel
  refine hsame [] gatheredBody gathered_structural (fun s ↦ ?_) (fun s hs v ↦ ?_) _ hok
  · rintro ⟨o, ho, hfaulty⟩
    have hnone : (occurrences spreadText [] gatheredBody .responses s).all (!·.faulty) = true := by
      cases s <;> decide +kernel
    have hfaultless := List.all_eq_true.mp hnone o ho
    rw [hfaulty] at hfaultless
    cases hfaultless
  · rw [← List.mem_filterMap, ← List.mem_filterMap]
    exact ⟨(hvalues s hs).1 v, (hvalues s hs).2 v⟩

end Xxgate.Codex

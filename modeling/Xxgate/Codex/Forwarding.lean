import Xxgate.Codex.Images
import Xxgate.Codex.Printing

/-!
# What is forwarded

Which of a client's values each header and each metadata field of a prepared request comes
from. A value in an identity field is sent as its image and any other as it is; the headers
of the resolved identity and the fields projected from the metadata are added where the
client has not sent them.
-/

namespace Xxgate.Codex

open Xxgate.Core Xxgate.Base Fallible Json

/-- What is sent for a value under a name. -/
def forwardedValue (image : String → String → String) (installationId : Uuid) (name : String)
    (value : Json) : Json :=
  match value.asStr.filter (trim · ≠ "") with
  | some text =>
    if isInstallation name then .str installationId.hyphenated
    else
      match identityKind name with
      | some kind => .str (image kind (trim text))
      | none => value
  | none => value

section

variable {http : HeaderText} {t : JsonText} {image : String → String → String}
  {installationId : Uuid}

/-! ### Metadata -/

/-- An outbound identity is the image of the client's. -/
theorem imageOutbound_ok {kind client upstream : String}
    (h : imageOutbound image kind client = .ok upstream) : upstream = image kind client := by
  unfold imageOutbound at h
  split at h
  · cases h
  · cases h
    rfl

/-- A text that is not blank is mapped as `forwardedValue` says. -/
theorem mappedIdentity_ok {name text mapped : String} (hblank : trim text ≠ "")
    (h : mappedIdentity (imageOutbound image) installationId name text = .ok mapped) :
    Json.str mapped = forwardedValue image installationId name (.str text) := by
  have hfilter : (asStr (.str text)).filter (trim · ≠ "") = some text := by
    simp [asStr, hblank]
  unfold mappedIdentity at h
  unfold forwardedValue
  rw [hfilter]
  simp only
  by_cases hinstallation : isInstallation name = true
  · rw [if_pos hinstallation] at h ⊢
    cases h
    rfl
  · rw [if_neg hinstallation] at h ⊢
    cases hkind : identityKind name with
    | none =>
      rw [hkind] at h
      cases h
      rfl
    | some kind =>
      rw [hkind] at h
      rw [imageOutbound_ok h]

private theorem normalizedField_ok {name : String} {item item' : Json}
    (h : normalizedField (imageOutbound image) installationId name item = .ok item') :
    item' = forwardedValue image installationId name item := by
  unfold normalizedField at h
  cases htext : item.asStr.filter (trim · ≠ "") with
  | none =>
    rw [htext, ite_self] at h
    cases h
    rw [forwardedValue, htext]
  | some text =>
    obtain ⟨hstr, hblank⟩ := Option.filter_eq_some_iff.mp htext
    have hitem : item = .str text := by
      cases item with
      | str s => rw [Option.some.inj hstr]
      | _ => cases hstr
    subst hitem
    rw [htext] at h
    split at h
    · obtain ⟨mapped, hmapped, h⟩ := bind_ok.mp h
      cases h
      exact mappedIdentity_ok (of_decide_eq_true hblank) hmapped
    · next hname =>
      cases h
      rw [Bool.or_eq_true, not_or, Option.isSome_iff_ne_none, not_not] at hname
      rw [forwardedValue, htext]
      simp [hname.1, hname.2]

/-- A relation between the fields of two objects with the same names, one after the other, holds
of the first field of each name. -/
theorem field_forall₂ {R : String → Json → Json → Prop} {fields fields' : List (String × Json)}
    (h : List.Forall₂ (fun f g ↦ g.1 = f.1 ∧ R f.1 f.2 g.2) fields fields') (name : String) :
    (field fields name = none ∧ field fields' name = none) ∨
      ∃ v v', field fields name = some v ∧ field fields' name = some v' ∧ R name v v' := by
  induction h with
  | nil => exact .inl ⟨rfl, rfl⟩
  | cons hfirst _ ih =>
    unfold field
    rw [hfirst.1]
    split
    · next hname => exact .inr ⟨_, _, rfl, rfl, hname ▸ hfirst.2⟩
    · exact ih

/-- What becomes of a field of the metadata, with this depth left for what is nested in it. -/
def Normalizes (t : JsonText) (image : String → String → String) (installationId : Uuid)
    (depth : Nat) (name : String) (value value' : Json) : Prop :=
  if name = "x-codex-turn-metadata" then
    ∃ nested nested', value.asStr.bind t.parse = some nested ∧
      normalizedMetadata t (imageOutbound image) installationId depth nested = .ok nested' ∧
      value' = .str (t.print nested')
  else value' = forwardedValue image installationId name value

/-- The metadata is an object, and keeps its fields in their order. -/
theorem normalizedMetadata_fields {depth : Nat} {metadata metadata' : Json}
    (h : normalizedMetadata t (imageOutbound image) installationId depth metadata = .ok metadata') :
    ∃ d fields fields', depth = d + 1 ∧ metadata = .obj fields ∧ metadata' = .obj fields' ∧
      List.Forall₂ (fun f g ↦ g.1 = f.1 ∧ Normalizes t image installationId d f.1 f.2 g.2)
        fields fields' := by
  cases depth with
  | zero => cases h
  | succ depth =>
    cases metadata with
    | obj fields =>
      unfold normalizedMetadata at h
      obtain ⟨fields', hfields, h⟩ := bind_ok.mp h
      cases h
      refine ⟨depth, fields, fields', rfl, rfl, rfl, ?_⟩
      refine (forall₂_of_mapM hfields).imp fun f g hfield ↦ ?_
      unfold Normalizes
      split at hfield
      · next hname =>
        rw [if_pos hname]
        cases hnested : f.2.asStr.bind t.parse with
        | none =>
          rw [hnested] at hfield
          cases hfield
        | some nested =>
          rw [hnested] at hfield
          obtain ⟨nested', hnormal, hfield⟩ := bind_ok.mp hfield
          cases hfield
          exact ⟨rfl, nested, nested', rfl, hnormal, rfl⟩
      · next hname =>
        rw [if_neg hname]
        obtain ⟨item', hitem, hfield⟩ := bind_ok.mp hfield
        cases hfield
        exact ⟨rfl, normalizedField_ok hitem⟩
    | _ => cases h

/-- Normalized metadata have the fields of the metadata, each normalized. -/
theorem normalizedMetadata_ok {depth : Nat} {metadata metadata' : Json}
    (h : normalizedMetadata t (imageOutbound image) installationId depth metadata = .ok metadata') :
    ∃ d, ∀ name, (metadata.get name = none ∧ metadata'.get name = none) ∨
      ∃ v v', metadata.get name = some v ∧ metadata'.get name = some v' ∧
        Normalizes t image installationId d name v v' := by
  obtain ⟨d, fields, fields', -, rfl, rfl, hfields⟩ := normalizedMetadata_fields h
  exact ⟨d, field_forall₂ hfields⟩

/-- A text is sent for a text. -/
theorem shape_forwardedValue (name : String) (value : Json) :
    (forwardedValue image installationId name value).shape = value.shape := by
  unfold forwardedValue
  split
  · next text htext =>
    obtain ⟨hstr, -⟩ := Option.filter_eq_some_iff.mp htext
    have hvalue : value.shape = .str "" := by
      cases value with
      | str s => rfl
      | _ => cases hstr
    split
    · exact hvalue.symm
    · split
      · exact hvalue.symm
      · rfl
  · rfl

/-- Normalized metadata are of the same shape. -/
theorem normalizedMetadata_shape {depth : Nat} {metadata metadata' : Json}
    (h : normalizedMetadata t (imageOutbound image) installationId depth metadata = .ok metadata') :
    metadata'.shape = metadata.shape := by
  obtain ⟨d, fields, fields', -, rfl, rfl, hfields⟩ := normalizedMetadata_fields h
  have hshapes : relabelFields (fun _ ↦ "") fields' = relabelFields (fun _ ↦ "") fields := by
    clear h
    induction hfields with
    | nil => rfl
    | @cons f g fields fields' hfirst _ ih =>
      obtain ⟨hname, hnormal⟩ := hfirst
      have hvalue : g.2.shape = f.2.shape := by
        unfold Normalizes at hnormal
        split at hnormal
        · obtain ⟨nested, nested', hparse, -, hg⟩ := hnormal
          rw [hg]
          cases hf : f.2 with
          | str s => rfl
          | _ =>
            rw [hf] at hparse
            cases hparse
        · rw [hnormal]
          exact shape_forwardedValue _ _
      rw [relabelFields, relabelFields, hname]
      exact congrArg₂ (fun v rest ↦ (f.1, v) :: rest) hvalue ih
  exact congrArg Json.obj hshapes

/-- The turn metadata nested in the metadata is normalized too. -/
theorem turnMetadata_normalized (ht : t.Faithful) {depth : Nat} {metadata metadata' : Json}
    (h : normalizedMetadata t (imageOutbound image) installationId depth metadata = .ok metadata') :
    (JsonText.turnMetadata t.parse metadata = none ∧
      JsonText.turnMetadata t.read metadata' = none) ∨
      ∃ d nested nested', JsonText.turnMetadata t.parse metadata = some nested ∧
        JsonText.turnMetadata t.read metadata' = some nested' ∧
        normalizedMetadata t (imageOutbound image) installationId d nested = .ok nested' := by
  obtain ⟨d, hfields⟩ := normalizedMetadata_ok h
  unfold JsonText.turnMetadata
  obtain ⟨hnone, hnone'⟩ | ⟨v, v', hv, hv', hnormal⟩ := hfields "x-codex-turn-metadata"
  · rw [hnone, hnone']
    exact .inl ⟨rfl, rfl⟩
  · unfold Normalizes at hnormal
    rw [if_pos rfl] at hnormal
    obtain ⟨nested, nested', hparse, hnested, rfl⟩ := hnormal
    rw [hv, hv']
    exact .inr ⟨d, nested, nested', hparse, ht.reads nested', hnested⟩

/-- Turn metadata nested at any level are normalized. -/
theorem nested_normalized (ht : t.Faithful) (level : Nat) {depth : Nat}
    {metadata metadata' : Json}
    (h : normalizedMetadata t (imageOutbound image) installationId depth metadata = .ok metadata') :
    (JsonText.nested t.parse level metadata = none ∧
      JsonText.nested t.read level metadata' = none) ∨
      ∃ d nested nested', JsonText.nested t.parse level metadata = some nested ∧
        JsonText.nested t.read level metadata' = some nested' ∧
        normalizedMetadata t (imageOutbound image) installationId d nested = .ok nested' := by
  induction level generalizing depth metadata metadata' with
  | zero => exact .inr ⟨depth, metadata, metadata', rfl, rfl, h⟩
  | succ level ih =>
    unfold JsonText.nested
    obtain ⟨hnone, hnone'⟩ | ⟨d, nested, nested', hn, hn', hnormal⟩ := turnMetadata_normalized ht h
    · rw [hnone, hnone']
      exact .inl ⟨rfl, rfl⟩
    · rw [hn, hn']
      exact ih hnormal

/-- Every field at every level is forwarded as its name says. -/
theorem valueAt_normalized (ht : t.Faithful) (level : Nat) {depth : Nat}
    {metadata metadata' : Json} {name : String} (hname : name ≠ "x-codex-turn-metadata")
    (h : normalizedMetadata t (imageOutbound image) installationId depth metadata = .ok metadata') :
    JsonText.valueAt t.read level metadata' name =
      (JsonText.valueAt t.parse level metadata name).map
        (forwardedValue image installationId name) := by
  unfold JsonText.valueAt
  obtain ⟨hnone, hnone'⟩ | ⟨d, nested, nested', hn, hn', hnormal⟩ := nested_normalized ht level h
  · rw [hnone, hnone']
    rfl
  · rw [hn, hn', Option.bind_some, Option.bind_some]
    obtain ⟨d', hfields⟩ := normalizedMetadata_ok hnormal
    obtain ⟨hv, hv'⟩ | ⟨v, v', hv, hv', hvalue⟩ := hfields name
    · rw [hv, hv']
      rfl
    · rw [Normalizes, if_neg hname] at hvalue
      rw [hv, hv', hvalue]
      rfl

/-! ### Headers -/

/-- The text of a header that is sent under a name: it is not blank, and no alias that an
explicit session header takes precedence over. -/
def carriedText (headers : Headers) (name : String) (entry : String × HeaderValue) :
    Option String :=
  if canonicalHeader entry.1 = name && !isSuperseded headers entry.1 then
    entry.2.toStr.filter (trim · ≠ "")
  else none

/-- The text sent under a name: of several headers the last. -/
def carried (headers : Headers) (name : String) : Option String :=
  (headers.filterMap (carriedText headers name)).getLast?

/-- What becomes of a header's text. -/
def Sends (t : JsonText) (image : String → String → String) (installationId : Uuid)
    (name text mapped : String) : Prop :=
  if name = "x-codex-turn-metadata" then
    ∃ metadata metadata', t.parse text = some metadata ∧
      normalizedMetadata t (imageOutbound image) installationId (text.utf8ByteSize + 1) metadata =
        .ok metadata' ∧
      mapped = t.print metadata'
  else Json.str mapped = forwardedValue image installationId name (.str text)

/-- Only the turn metadata has its own header as the canonical one. -/
theorem canonicalHeader_eq_turn {name : String} :
    canonicalHeader name = "x-codex-turn-metadata" ↔ name = "x-codex-turn-metadata" := by
  unfold canonicalHeader
  split
  · next h =>
    simp only [Bool.or_eq_true, decide_eq_true_eq] at h
    obtain (rfl | rfl) | rfl := h <;> decide
  · split
    · next h =>
      subst h
      decide
    · rfl

/-- An alias is of the kind of the header it is sent as. -/
theorem forwardedValue_canonicalHeader (name : String) (value : Json) :
    forwardedValue image installationId (canonicalHeader name) value =
      forwardedValue image installationId name value := by
  have hkind : identityKind (canonicalHeader name) = identityKind name ∧
      isInstallation (canonicalHeader name) = isInstallation name := by
    unfold canonicalHeader
    split
    · next h =>
      simp only [Bool.or_eq_true, decide_eq_true_eq] at h
      obtain (rfl | rfl) | rfl := h <;> exact ⟨rfl, rfl⟩
    · split
      · next h =>
        subst h
        exact ⟨rfl, rfl⟩
      · exact ⟨rfl, rfl⟩
  unfold forwardedValue
  rw [hkind.1, hkind.2]

private theorem mappedHeader_ok {name text mapped : String} (hblank : trim text ≠ "")
    (h : mappedHeader t (imageOutbound image) installationId name text = .ok mapped) :
    Sends t image installationId (canonicalHeader name) text mapped := by
  unfold mappedHeader at h
  unfold Sends
  rw [forwardedValue_canonicalHeader]
  split at h
  · next hname =>
    rw [if_pos (canonicalHeader_eq_turn.mpr hname)]
    cases hparse : t.parse text with
    | none =>
      rw [hparse] at h
      cases h
    | some metadata =>
      rw [hparse] at h
      obtain ⟨metadata', hmetadata, h⟩ := bind_ok.mp h
      cases h
      exact ⟨metadata, metadata', rfl, hmetadata, rfl⟩
  · next hname =>
    rw [if_neg fun heq ↦ hname (canonicalHeader_eq_turn.mp heq)]
    exact mappedIdentity_ok hblank h

/-- What is sent under a name after the client's text for it, or what was before. -/
def Carries (t : JsonText) (image : String → String → String) (installationId : Uuid)
    (name : String) (text : Option String) (before after : Option HeaderValue) : Prop :=
  (text = none ∧ after = before) ∨
    ∃ s mapped, text = some s ∧ after = some (some mapped) ∧
      Sends t image installationId name s mapped

/-- One header of the client replaces what was sent under its name. -/
theorem forwardHeader_ok {identityHeaders headers headers' : Headers}
    {entry : String × HeaderValue}
    (h : forwardHeader http t (imageOutbound image) installationId identityHeaders headers entry =
      .ok headers') (name : String) :
    Carries t image installationId name (carriedText identityHeaders name entry)
      (headers.get name) (headers'.get name) := by
  unfold forwardHeader at h
  unfold carriedText
  cases htext : entry.2.toStr with
  | none =>
    rw [htext] at h
    cases h
  | some text =>
    rw [htext] at h
    dsimp only at h
    by_cases hblank : trim text = ""
    · rw [if_pos hblank] at h
      cases h
      exact .inl ⟨by simp [Option.filter_some, hblank], rfl⟩
    · rw [if_neg hblank] at h
      obtain ⟨mapped, hmapped, h⟩ := bind_ok.mp h
      by_cases hsuperseded : isSuperseded identityHeaders entry.1 = true
      · rw [if_pos hsuperseded] at h
        cases h
        exact .inl ⟨by simp [hsuperseded], rfl⟩
      · rw [if_neg hsuperseded] at h
        split at h
        · cases h
          by_cases hname : canonicalHeader entry.1 = name
          · subst hname
            refine .inr ⟨text, mapped, ?_, Headers.get_insert .., mappedHeader_ok hblank hmapped⟩
            simp [hsuperseded, Option.filter_some, hblank]
          · refine .inl ⟨by simp [hname], Headers.get_insert_ne _ (Ne.symm hname) _⟩
        · cases h

/-- What the client's identity headers are sent as. -/
theorem forwardHeaders_ok {identityHeaders base headers : Headers}
    (h : identityHeaders.foldlM (forwardHeader http t (imageOutbound image) installationId
      identityHeaders) base = .ok headers) (name : String) :
    Carries t image installationId name (carried identityHeaders name) (base.get name)
      (headers.get name) := by
  refine foldlM_ok (fun passed headers ↦ Carries t image installationId name
    (passed.filterMap (carriedText identityHeaders name)).getLast? (base.get name)
    (Headers.get headers name)) ?_ (.inl ⟨rfl, rfl⟩) h
  intro passed entry headers headers' _ hpassed hentry
  rw [List.filterMap_append, List.getLast?_append]
  obtain ⟨htext, hsame⟩ | ⟨text, mapped, htext, hget, hsends⟩ := forwardHeader_ok hentry name
  · rw [List.filterMap_cons_none htext, List.filterMap_nil, List.getLast?_nil, Option.none_or,
      hsame]
    exact hpassed
  · rw [List.filterMap_cons_some htext, List.filterMap_nil, List.getLast?_singleton,
      Option.some_or]
    exact .inr ⟨text, mapped, rfl, hget, hsends⟩

private theorem insertMissingHeader_ok {headers headers' : Headers} {name value : String}
    (h : (insertMissingHeader http headers name value : Result Headers) = .ok headers')
    (other : String) :
    headers'.get other =
      (headers.get other).or (if other = name then some (some value) else none) := by
  unfold insertMissingHeader at h
  rw [Headers.containsKey_eq] at h
  by_cases hother : other = name
  · subst hother
    rw [if_pos rfl]
    cases hget : headers.get other with
    | some existing =>
      rw [hget] at h
      cases h
      exact hget
    | none =>
      rw [hget] at h
      dsimp only [Option.isSome_none] at h
      rw [if_neg Bool.false_ne_true] at h
      split at h
      · cases h
        exact Headers.get_insert ..
      · cases h
  · rw [if_neg hother, Option.or_none]
    split at h
    · cases h
      rfl
    · split at h
      · cases h
        exact Headers.get_insert_ne _ hother _
      · cases h

/-- The header of the resolved identity that is sent where the client has sent none. -/
def resolvedHeader (image : String → String → String) (r : IngressRequest) (name : String) :
    Option String :=
  if r.stateless then none
  else if name = "session-id" then some (image "thread" r.identity.sessionId)
  else if name = "thread-id" || name = "x-client-request-id" then
    some (image "thread" r.identity.threadId)
  else none

/-- The resolved identities fill the headers that are missing. -/
theorem identityHeaders_ok {r : IngressRequest} {headers headers' : Headers}
    (h : identityHeaders http (imageOutbound image) r headers = .ok headers') (name : String) :
    headers'.get name = (headers.get name).or ((resolvedHeader image r name).map some) := by
  unfold identityHeaders at h
  unfold resolvedHeader
  split at h
  · next hstateless =>
    cases h
    rw [if_pos hstateless]
    simp
  · next hstateful =>
    rw [if_neg hstateful]
    obtain ⟨session, hsession, h⟩ := bind_ok.mp h
    obtain ⟨thread, hthread, h⟩ := bind_ok.mp h
    obtain ⟨headers₁, h₁, h⟩ := bind_ok.mp h
    obtain ⟨headers₂, h₂, h⟩ := bind_ok.mp h
    rw [insertMissingHeader_ok h, insertMissingHeader_ok h₂, insertMissingHeader_ok h₁,
      Option.or_assoc, Option.or_assoc, imageOutbound_ok hsession, imageOutbound_ok hthread]
    congr 1
    by_cases hs : name = "session-id"
    · simp [hs]
    · by_cases ht : name = "thread-id"
      · simp [ht]
      · by_cases hr : name = "x-client-request-id" <;> simp [hs, ht, hr]

/-! ### Projected fields -/

/-- What a field of the metadata is projected as. -/
def Projects (image : String → String → String) (installationId : Uuid) (identityHeaders : Headers)
    (sources : List Json) (f : String × Option String) (mapped : String) : Prop :=
  ∃ value, coherent identityHeaders f.2 sources f.1 = .ok (some value) ∧
    mappedIdentity (imageOutbound image) installationId f.1 value = .ok mapped

/-- One projected field fills its header and stands in the turn metadata. -/
theorem projectField_ok {identityHeaders : Headers} {sources : List Json}
    {s s' : Headers × List (String × Json)} {f : String × Option String}
    (h : projectField http (imageOutbound image) installationId identityHeaders sources s f =
      .ok s') :
    s' = s ∨ ∃ mapped, Projects image installationId identityHeaders sources f mapped ∧
      (∀ name, s'.1.get name =
        (s.1.get name).or (if f.2 = some name then some (some mapped) else none)) ∧
      s'.2 = insert s.2 f.1 (.str mapped) := by
  unfold projectField at h
  obtain ⟨value, hcoherent, h⟩ := bind_ok.mp h
  cases value with
  | none =>
    cases h
    exact .inl rfl
  | some value =>
    obtain ⟨mapped, hmapped, h⟩ := bind_ok.mp h
    have hprojects : Projects image installationId identityHeaders sources f mapped :=
      ⟨value, ofResult_ok hcoherent, hmapped⟩
    cases hf : f.2 with
    | none =>
      rw [hf] at h
      cases h
      exact .inr ⟨mapped, hprojects, fun name ↦ by simp, rfl⟩
    | some header =>
      rw [hf] at h
      obtain ⟨headers, hheaders, h⟩ := bind_ok.mp h
      cases h
      refine .inr ⟨mapped, hprojects, fun name ↦ ?_, rfl⟩
      rw [insertMissingHeader_ok hheaders name]
      simp [eq_comm]

/-- What the projection adds to the headers and to the turn metadata, and what it leaves. -/
structure Projected (image : String → String → String) (installationId : Uuid)
    (identityHeaders : Headers) (sources : List Json) (fields : List (String × Option String))
    (s s' : Headers × List (String × Json)) : Prop where
  headers : ∀ name, s'.1.get name = s.1.get name ∨
    ∃ f ∈ fields, f.2 = some name ∧ ∃ mapped, s.1.get name = none ∧
      s'.1.get name = some (some mapped) ∧
      Projects image installationId identityHeaders sources f mapped
  turn : ∀ name, field s'.2 name = field s.2 name ∨
    ∃ f ∈ fields, f.1 = name ∧ ∃ mapped, field s'.2 name = some (.str mapped) ∧
      Projects image installationId identityHeaders sources f mapped

/-- The projection of all the fields. -/
theorem projectFields_ok {identityHeaders : Headers} {sources : List Json}
    {s s' : Headers × List (String × Json)}
    (h : projectedFields.foldlM
      (projectField http (imageOutbound image) installationId identityHeaders sources) s = .ok s') :
    Projected image installationId identityHeaders sources projectedFields s s' := by
  refine foldlM_ok (Projected image installationId identityHeaders sources · s) ?_
    ⟨fun _ ↦ .inl rfl, fun _ ↦ .inl rfl⟩ h
  intro passed f s₁ s₂ _ hpassed hfield
  have hlast : f ∈ passed ++ [f] := List.mem_append_right _ List.mem_cons_self
  obtain rfl | ⟨mapped, hprojects, hheaders, hturn⟩ := projectField_ok hfield
  · -- the client has not sent the field
    refine ⟨fun name ↦ (hpassed.headers name).imp_right ?_,
      fun name ↦ (hpassed.turn name).imp_right ?_⟩
    · rintro ⟨g, hg, hrest⟩
      exact ⟨g, List.mem_append_left _ hg, hrest⟩
    · rintro ⟨g, hg, hrest⟩
      exact ⟨g, List.mem_append_left _ hg, hrest⟩
  · refine ⟨fun name ↦ ?_, fun name ↦ ?_⟩
    · rw [hheaders name]
      obtain hsame | ⟨g, hg, hname, mapped', hbefore, hafter, hprojects'⟩ := hpassed.headers name
      · rw [hsame]
        by_cases hname : f.2 = some name
        · rw [if_pos hname]
          cases hget : Headers.get s.1 name with
          | some existing => exact .inl rfl
          | none => exact .inr ⟨f, hlast, hname, mapped, rfl, rfl, hprojects⟩
        · rw [if_neg hname, Option.or_none]
          exact .inl rfl
      · rw [hafter]
        exact .inr ⟨g, List.mem_append_left _ hg, hname, mapped', hbefore, rfl, hprojects'⟩
    · rw [hturn, field_insert]
      by_cases hname : name = f.1
      · rw [if_pos hname]
        exact .inr ⟨f, hlast, hname.symm, mapped, rfl, hprojects⟩
      · rw [if_neg hname]
        refine (hpassed.turn name).imp_right ?_
        rintro ⟨g, hg, hrest⟩
        exact ⟨g, List.mem_append_left _ hg, hrest⟩

/-! ### The turn metadata header -/

/-- The turn metadata in the header that carries it, as it is read upstream. -/
def turnObject (t : JsonText) (headers : Headers) : Option Json :=
  (headers.get "x-codex-turn-metadata").join.bind t.read

/-- The turn metadata header is absent, or the print of a value that hides no raw value. -/
def PrintedTurn (t : JsonText) (headers : Headers) : Prop :=
  headers.get "x-codex-turn-metadata" = none ∨ ∃ value : Json, value.hidesRaw = false ∧
    headers.get "x-codex-turn-metadata" = some (some (t.print value))

/-- The header that is forwarded for the client's is such a print. -/
theorem printedTurn_of_carries (ht : t.Faithful) {base headers : Headers}
    {text : Option String} (hbase : base.get "x-codex-turn-metadata" = none)
    (h : Carries t image installationId "x-codex-turn-metadata" text
      (base.get "x-codex-turn-metadata") (headers.get "x-codex-turn-metadata")) :
    PrintedTurn t headers := by
  obtain ⟨-, hget⟩ | ⟨s, mapped, -, hget, hsends⟩ := h
  · exact .inl (hget.trans hbase)
  · unfold Sends at hsends
    rw [if_pos rfl] at hsends
    obtain ⟨metadata, metadata', hparse, hnormal, rfl⟩ := hsends
    refine .inr ⟨metadata', ?_, hget⟩
    rw [hidesRaw_of_shape (normalizedMetadata_shape hnormal)]
    exact ht.parsed s metadata hparse

/-- A field of the turn is added where the client's turn metadata has none. -/
theorem field_addTurnField (fields : List (String × Json)) (f : String × Json) {name : String}
    (hname : name ≠ "compaction") :
    field (addTurnField fields f) name =
      (field fields name).or (if name = f.1 then some f.2 else none) := by
  unfold addTurnField
  dsimp only
  split
  · next hkey _ _ =>
    rw [beq_iff_eq] at hkey
    rw [if_neg fun h ↦ hname (h.trans hkey), Option.or_none, hkey]
    exact field_replace_ne _ hname _
  · by_cases hf : name = f.1
    · subst hf
      rw [if_pos rfl]
      cases hfield : field fields f.1 with
      | some value => exact hfield
      | none => exact (field_insert _ _ _ _).trans (if_pos rfl)
    · rw [if_neg hf, Option.or_none]
      split
      · rfl
      · rw [field_insert, if_neg hf]

/-- Of the turn fields only missing ones are added. -/
theorem field_foldl_addTurnField (turn fields : List (String × Json)) {name : String}
    (hname : name ≠ "compaction") :
    field (turn.foldl addTurnField fields) name = (field fields name).or (field turn name) := by
  induction turn generalizing fields with
  | nil => exact (Option.or_none).symm
  | cons f turn ih =>
    rw [List.foldl_cons, ih, field_addTurnField fields f hname, Option.or_assoc, field]
    congr 1
    by_cases hf : name = f.1
    · rw [if_pos hf, if_pos hf.symm, Option.some_or]
    · rw [if_neg hf, if_neg (Ne.symm hf), Option.none_or]

/-- The other headers are left as they are. -/
theorem projectTurn_get {headers headers' : Headers} {turn : List (String × Json)}
    (h : (projectTurn http t headers turn : Result Headers) = .ok headers') {name : String}
    (hname : name ≠ "x-codex-turn-metadata") : headers'.get name = headers.get name := by
  unfold projectTurn at h
  split at h
  · cases h
    rfl
  · split at h
    · split at h
      · dsimp only at h
        split at h
        · cases h
          exact Headers.get_insert_ne _ hname _
        · cases h
      · cases h
    · rw [insertMissingHeader_ok h name, if_neg hname, Option.or_none]

/-- The fields of the turn are added to those the client's turn metadata have, which stay but for
the digits of their numbers. -/
theorem projectTurn_ok (ht : t.Faithful) {headers headers' : Headers}
    {turn : List (String × Json)} (hprinted : PrintedTurn t headers)
    (h : (projectTurn http t headers turn : Result Headers) = .ok headers') {name : String}
    (hname : name ≠ "compaction") :
    ((turnObject t headers').bind (·.get name)).map rounded =
      (((turnObject t headers).bind (·.get name)).or (field turn name)).map rounded := by
  have hobject : ∀ (headers : Headers) (value : Json),
      headers.get "x-codex-turn-metadata" = some (some (t.print value)) →
        turnObject t headers = some value := by
    intro headers value hget
    rw [turnObject, hget]
    exact ht.reads _
  unfold projectTurn at h
  cases turn with
  | nil =>
    cases h
    exact congrArg _ Option.or_none.symm
  | cons f turn =>
    dsimp only [List.isEmpty_cons] at h
    rw [if_neg Bool.false_ne_true] at h
    rcases hprinted with hget | ⟨value, hraw, hget⟩
    · rw [hget] at h
      have hnew := insertMissingHeader_ok h "x-codex-turn-metadata"
      rw [hget, Option.none_or, if_pos rfl] at hnew
      rw [hobject _ _ hnew, turnObject, hget]
      rfl
    · rw [hget] at h
      dsimp only at h
      rw [Option.bind_some] at h
      cases hparse : t.parse (t.print value) with
      | none =>
        rw [hparse] at h
        cases h
      | some value' =>
        rw [hparse] at h
        have hrounded := ht.reread hraw hparse
        cases value' with
        | obj fields =>
          obtain ⟨fields', rfl, hfields⟩ := rounded_eq_obj hrounded.symm
          dsimp only at h
          split at h
          · cases h
            rw [hobject _ _ (Headers.get_insert ..), hobject _ _ hget]
            change (field ((f :: turn).foldl addTurnField fields) name).map rounded =
              ((field fields' name).or (field (f :: turn) name)).map rounded
            rw [field_foldl_addTurnField (f :: turn) fields hname, Option.map_or, Option.map_or,
              hfields]
          · cases h
        | _ => cases h

/-- The compaction metadata is of two fields. -/
theorem compactionMetadata_ok {sources : List Json} {compaction : List (String × Json)}
    (h : compactionMetadata sources = .ok compaction) :
    ∀ f ∈ compaction, f.1 = "compaction" ∨ f.1 = "request_kind" := by
  unfold compactionMetadata at h
  obtain ⟨kind, -, h⟩ := bind_ok.mp h
  obtain ⟨fields, -, h⟩ := bind_ok.mp h
  cases h
  intro f hf
  rw [List.mem_append] at hf
  obtain hf | hf := hf
  · split at hf
    · cases hf
    · exact .inl (congrArg Prod.fst (List.mem_singleton.mp hf))
  · obtain ⟨value, -, rfl⟩ := Option.map_eq_some_iff.mp (Option.mem_toList.mp hf)
    exact .inr rfl

/-- Inserting other fields leaves a field as it is. -/
theorem field_foldl_insert {fields turn : List (String × Json)} {name : String}
    (h : ∀ f ∈ fields, f.1 ≠ name) :
    field (fields.foldl (fun turn f ↦ insert turn f.1 f.2) turn) name = field turn name := by
  induction fields generalizing turn with
  | nil => rfl
  | cons f fields ih =>
    rw [List.foldl_cons, ih fun g hg ↦ h g (List.mem_cons_of_mem _ hg), field_insert,
      if_neg (Ne.symm (h f List.mem_cons_self))]

/-! ### The cache key -/

/-- What a client's cache key is sent as. -/
def MapsCacheKey (v5 : Uuid → String → Uuid) (image : String → String → String)
    (installationId keyId : Uuid) (r : IngressRequest) (mapped : Option String) : Prop :=
  (cacheKey r = none ∧ mapped = none) ∨
    ∃ cache key, cacheKey r = some cache ∧ mapped = some key ∧
      mappedCacheKey (imageOutbound image) installationId v5 keyId r cache = .ok key

/-- The cache key that is sent, and the headers a stateless request gets with it. -/
theorem forwardCacheKey_ok {v5 : Uuid → String → Uuid} {keyId : Uuid} {r : IngressRequest}
    {headers : Headers} {cache : Headers × Option String}
    (h : forwardCacheKey http (imageOutbound image) installationId v5 keyId r headers = .ok cache) :
    MapsCacheKey v5 image installationId keyId r cache.2 ∧
      ∀ name, cache.1.get name = (headers.get name).or
        (if r.stateless ∧ r.kind = .responses ∧
            (name = "session_id" ∨ name = "conversation_id") then
          cache.2.map some
        else none) := by
  unfold forwardCacheKey at h
  cases hcache : cacheKey r with
  | none =>
    rw [hcache] at h
    cases h
    exact ⟨.inl ⟨hcache, rfl⟩, fun name ↦ by simp⟩
  | some key =>
    rw [hcache] at h
    obtain ⟨mapped, hmapped, h⟩ := bind_ok.mp h
    split at h
    · next hstateless =>
      obtain ⟨headers₁, h₁, h⟩ := bind_ok.mp h
      obtain ⟨headers₂, h₂, h⟩ := bind_ok.mp h
      cases h
      refine ⟨.inr ⟨key, mapped, hcache, rfl, hmapped⟩, fun name ↦ ?_⟩
      simp only [Bool.and_eq_true, beq_iff_eq] at hstateless
      dsimp only
      rw [insertMissingHeader_ok h₂, insertMissingHeader_ok h₁, Option.or_assoc]
      congr 1
      by_cases hs : name = "session_id"
      · simp [hs, hstateless]
      · by_cases hc : name = "conversation_id" <;> simp [hs, hc, hstateless]
    · next hstateful =>
      cases h
      refine ⟨.inr ⟨key, mapped, hcache, rfl, hmapped⟩, fun name ↦ ?_⟩
      simp only [Bool.and_eq_true, beq_iff_eq] at hstateful
      rw [if_neg fun hall ↦ hstateful ⟨hall.1, hall.2.1⟩, Option.or_none]

end

end Xxgate.Codex

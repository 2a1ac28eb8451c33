import Xxgate.Codex.Accepted
import Xxgate.Codex.Places

/-!
# Which accepted requests can be prepared

`crates/xxgate-codex/src/provider/request.rs:235–419` maps identities under rules of its own:
what it maps is trimmed and has to be there, in nested turn metadata too, and what it prints has
to be a header. `ingress.rs:14–228` checks other places and does not trim.
-/

namespace Xxgate.Codex

open Xxgate.Core Xxgate.Base Fallible Json

/-! ### Nested turn metadata -/

/-- The fields of some metadata have a property, and those of the turn metadata nested in them,
which are texts of objects. -/
inductive Everywhere (t : JsonText) (P : String → Json → Prop) : Json → Prop
  | obj {fields : List (String × Json)}
    (own : ∀ f ∈ fields, f.1 ≠ "x-codex-turn-metadata" → P f.1 f.2)
    (text : ∀ f ∈ fields, f.1 = "x-codex-turn-metadata" →
      ∃ nested, f.2.asStr.bind t.parse = some nested)
    (deep : ∀ f ∈ fields, f.1 = "x-codex-turn-metadata" → ∀ nested,
      f.2.asStr.bind t.parse = some nested → Everywhere t P nested) : Everywhere t P (.obj fields)

/-- An identity is short enough to be mapped. -/
def Fits (name : String) (value : Json) : Prop :=
  ∀ kind text, identityKind name = some kind → value = .str text → (trim text).utf8ByteSize ≤ 512

/-- A header can hold what is sent for a field: an identity in its place, or its own plain texts. -/
def Sendable (http : HeaderText) (name : String) (value : Json) : Prop :=
  plainText http name = true ∧
    ((isIdentity name = true ∧ ∃ text, value = .str text ∧ trim text ≠ "") ∨
      value.plain http = true)

/-! ### Texts of identifiers -/

/-- A text of visible ASCII and spaces. -/
def isVisible (text : String) : Bool :=
  text.toList.all fun c ↦ decide (32 ≤ c.toNat) && decide (c.toNat < 127)

/-- A hyphenated UUID is visible text. -/
theorem isVisible_hyphenated (u : Uuid) : isVisible u.hyphenated = true := by
  have hdigit : ∀ d < 16, 32 ≤ (Nat.digitChar d).toNat ∧ (Nat.digitChar d).toNat < 127 := by decide
  have hdigits : ∀ c ∈ u.hexDigits, 32 ≤ c.toNat ∧ c.toNat < 127 := by
    intro c hc
    obtain ⟨d, hd, rfl⟩ := List.mem_map.mp hc
    exact hdigit d (Nat.lt_of_mem_digitsAppend (by decide) 32 d (List.mem_reverse.mp hd))
  unfold isVisible Uuid.hyphenated
  rw [String.toList_ofList, List.all_eq_true]
  intro c hc
  have hchar : c = '-' ∨ c ∈ u.hexDigits := by
    simp only [List.mem_append, List.mem_cons] at hc
    rcases hc with hc | rfl | hc | rfl | hc | rfl | hc | rfl | hc
    · exact .inr (List.mem_of_mem_take hc)
    · exact .inl rfl
    · exact .inr (List.mem_of_mem_drop (List.mem_of_mem_take hc))
    · exact .inl rfl
    · exact .inr (List.mem_of_mem_drop (List.mem_of_mem_take hc))
    · exact .inl rfl
    · exact .inr (List.mem_of_mem_drop (List.mem_of_mem_take hc))
    · exact .inl rfl
    · exact .inr (List.mem_of_mem_drop hc)
  rcases hchar with rfl | hmem
  · decide
  · obtain ⟨hlow, hhigh⟩ := hdigits c hmem
    simp [hlow, hhigh]

/-- Any header can hold visible text. -/
theorem fits_of_isVisible (http : HeaderText) {text : String} (h : isVisible text = true) :
    http.fits text = true := by
  refine List.all_eq_true.mpr fun c hc ↦ ?_
  have hchar := List.all_eq_true.mp h c hc
  simp only [Bool.and_eq_true, decide_eq_true_eq] at hchar
  exact http.visible c hchar.1 hchar.2

/-- What a header can hold is plain. -/
theorem plainText_of_fits {http : HeaderText} {text : String} (h : http.fits text = true) :
    plainText http text = true := by
  refine List.all_eq_true.mpr fun c hc ↦ ?_
  rw [List.all_eq_true.mp h c hc, Bool.or_true]

private theorem plainText_of_isVisible (http : HeaderText) {text : String}
    (h : isVisible text = true) : plainText http text = true :=
  plainText_of_fits (fits_of_isVisible http h)

private theorem fits_hyphenated (http : HeaderText) (u : Uuid) : http.fits u.hyphenated = true :=
  fits_of_isVisible http (isVisible_hyphenated u)

section

variable {http : HeaderText} {t : JsonText} {image : String → String → String}
  {installationId : Uuid}

/-! ### Mapping -/

private theorem imageOutbound_isOk {kind client : String} :
    (∃ upstream, imageOutbound image kind client = .ok upstream) ↔ IsMapped client := by
  unfold imageOutbound IsMapped
  split
  · next h =>
    constructor
    · rintro ⟨_, h'⟩
      cases h'
    · intro h'
      rcases h with h | h
      · exact absurd h h'.1
      · exact absurd h (Nat.not_lt.mpr h'.2)
  · next h =>
    rw [not_or, Nat.not_lt] at h
    exact ⟨fun _ ↦ h, fun _ ↦ ⟨_, rfl⟩⟩

/-- The installation has no identity kind. -/
theorem identityKind_of_isInstallation {name : String} (h : isInstallation name = true) :
    identityKind name = none := by
  unfold isInstallation at h
  simp only [Bool.or_eq_true, beq_iff_eq] at h
  rcases h with rfl | rfl <;> rfl

private theorem mappedIdentity_isOk {name text : String} :
    (∃ mapped, mappedIdentity (imageOutbound image) installationId name text = .ok mapped) ↔
      ∀ kind, identityKind name = some kind → IsMapped (trim text) := by
  unfold mappedIdentity
  by_cases hinstallation : isInstallation name = true
  · rw [if_pos hinstallation, identityKind_of_isInstallation hinstallation]
    exact ⟨fun _ kind hkind ↦ (by cases hkind), fun _ ↦ ⟨_, rfl⟩⟩
  · rw [if_neg hinstallation]
    cases identityKind name with
    | none => exact ⟨fun _ kind hkind ↦ (by cases hkind), fun _ ↦ ⟨_, rfl⟩⟩
    | some kind =>
      rw [imageOutbound_isOk]
      exact ⟨fun h _ _ ↦ h, fun h ↦ h kind rfl⟩

private theorem normalizedField_isOk {name : String} {item : Json} :
    (∃ item', normalizedField (imageOutbound image) installationId name item = .ok item') ↔
      Fits name item := by
  unfold normalizedField Fits
  split
  · cases htext : item.asStr.filter (trim · ≠ "") with
    | none =>
      refine ⟨fun _ kind text _ hitem ↦ ?_, fun _ ↦ ⟨item, rfl⟩⟩
      subst hitem
      have hblank : trim text = "" := by
        by_contra hblank
        simp [asStr, hblank] at htext
      rw [hblank]
      exact Nat.zero_le _
    | some text =>
      obtain ⟨hstr, hblank⟩ := Option.filter_eq_some_iff.mp htext
      have hitem : item = .str text := by
        cases item with
        | str s => rw [Option.some.inj hstr]
        | _ => cases hstr
      subst hitem
      constructor
      · intro h kind text' hkind hitem
        obtain ⟨mapped, hmapped, -⟩ := bind_isOk.mp h
        cases hitem
        exact (mappedIdentity_isOk.mp ⟨mapped, hmapped⟩ kind hkind).2
      · intro h
        have hmapped : ∃ mapped,
            mappedIdentity (imageOutbound image) installationId name text = .ok mapped :=
          mappedIdentity_isOk.mpr fun kind hkind ↦
            ⟨of_decide_eq_true hblank, h kind text hkind rfl⟩
        obtain ⟨mapped, hmapped⟩ := hmapped
        exact ⟨_, bind_ok.mpr ⟨mapped, hmapped, rfl⟩⟩
  · next hname =>
    rw [Bool.or_eq_true, not_or, Option.isSome_iff_ne_none, not_not] at hname
    rw [hname.1]
    exact ⟨fun _ kind text hkind ↦ (by cases hkind), fun _ ↦ ⟨item, rfl⟩⟩

/-! ### Metadata -/

/-- The depth is enough for what is nested in some metadata. -/
def Bounded (depth : Nat) (metadata : Json) : Prop :=
  0 < depth ∧ ∀ fields, metadata = .obj fields → ∀ f ∈ fields, ∀ s, f.2 = .str s →
    s.utf8ByteSize + 1 < depth

/-- Metadata that fit are normalized. -/
theorem normalizedMetadata_of_fits (ht : t.Faithful) {metadata : Json}
    (h : Everywhere t Fits metadata) {depth : Nat} (hdepth : Bounded depth metadata) :
    ∃ metadata', normalizedMetadata t (imageOutbound image) installationId depth metadata =
      .ok metadata' := by
  induction h generalizing depth with
  | @obj fields own text deep ih =>
    obtain ⟨hpos, hbound⟩ := hdepth
    obtain ⟨d, rfl⟩ : ∃ d, depth = d + 1 := ⟨depth - 1, by omega⟩
    unfold normalizedMetadata
    refine bind_isOk.mpr (Exists.imp (fun fields' h ↦ ⟨h, _, rfl⟩) (mapM_isOk.mpr ?_))
    intro f hf
    split
    · next hname =>
      obtain ⟨nested, hnested⟩ := text f hf hname
      obtain ⟨s, hs, hparse⟩ := Option.bind_eq_some_iff.mp hnested
      have hvalue : f.2 = .str s := by
        cases hf2 : f.2 with
        | str s' =>
          rw [hf2] at hs
          rw [Option.some.inj hs]
        | _ =>
          rw [hf2] at hs
          cases hs
      have hsize := hbound fields rfl f hf s hvalue
      have hdeep : Bounded d nested := by
        refine ⟨by omega, fun fields' hfields' f' hf' s' hs' ↦ ?_⟩
        subst hfields'
        have hshorter := ht.shorter s fields' hparse f' hf' s' hs'
        omega
      obtain ⟨nested', hok⟩ := ih f hf hname nested hnested hdeep
      rw [hnested]
      exact ⟨_, bind_ok.mpr ⟨nested', hok, rfl⟩⟩
    · next hname =>
      obtain ⟨item', hok⟩ := normalizedField_isOk.mpr (own f hf hname)
      exact ⟨_, bind_ok.mpr ⟨item', hok, rfl⟩⟩

/-- Metadata that are normalized fit. -/
theorem fits_of_normalizedMetadata {depth : Nat} {metadata metadata' : Json}
    (h : normalizedMetadata t (imageOutbound image) installationId depth metadata = .ok metadata') :
    Everywhere t Fits metadata := by
  induction depth generalizing metadata metadata' with
  | zero => cases h
  | succ depth ih =>
    cases metadata with
    | obj fields =>
      unfold normalizedMetadata at h
      obtain ⟨fields', hfields, -⟩ := bind_ok.mp h
      have hall := (mem_of_mapM hfields).1
      refine .obj (fun f hf hname ↦ ?_) (fun f hf hname ↦ ?_) fun f hf hname nested hnested ↦ ?_
      all_goals obtain ⟨g, -, hok⟩ := hall f hf
      · rw [if_neg hname] at hok
        obtain ⟨item', hitem, -⟩ := bind_ok.mp hok
        exact normalizedField_isOk.mp ⟨item', hitem⟩
      · rw [if_pos hname] at hok
        cases hnested : f.2.asStr.bind t.parse with
        | none =>
          rw [hnested] at hok
          cases hok
        | some nested => exact ⟨nested, rfl⟩
      · rw [if_pos hname, hnested] at hok
        obtain ⟨nested', hnested', -⟩ := bind_ok.mp hok
        exact ih hnested'
    | _ => cases h

/-- Images that a header can hold. -/
def LegalImages (http : HeaderText) (image : String → String → String) : Prop :=
  ∀ name kind client, identityKind name = some kind → http.fits (image kind client) = true

/-- What is sent for a field is plain if a header can hold it. -/
theorem forwardedValue_plain (hlegal : LegalImages http image) {name : String} {value : Json} :
    (plainText http name = true ∧
      (forwardedValue image installationId name value).plain http = true) ↔
      Sendable http name value := by
  unfold Sendable
  refine and_congr_right fun _ ↦ ?_
  unfold forwardedValue isIdentity
  cases htext : value.asStr.filter (trim · ≠ "") with
  | none =>
    refine ⟨.inr, ?_⟩
    rintro (⟨-, text, rfl, hblank⟩ | hplain)
    · simp [asStr, hblank] at htext
    · exact hplain
  | some text =>
    obtain ⟨hstr, hblank⟩ := Option.filter_eq_some_iff.mp htext
    have hvalue : value = .str text := by
      cases value with
      | str s => rw [Option.some.inj hstr]
      | _ => cases hstr
    have hidentity : ∃ s, value = .str s ∧ trim s ≠ "" := ⟨text, hvalue, of_decide_eq_true hblank⟩
    dsimp only
    by_cases hinstallation : isInstallation name = true
    · rw [if_pos hinstallation, hinstallation, Bool.or_true]
      refine ⟨fun _ ↦ .inl ⟨rfl, hidentity⟩, fun _ ↦ ?_⟩
      exact plainText_of_fits (fits_hyphenated http _)
    · rw [if_neg hinstallation]
      cases hkind : identityKind name with
      | some kind =>
        refine ⟨fun _ ↦ .inl ⟨by simp, hidentity⟩, fun _ ↦ ?_⟩
        exact plainText_of_fits (hlegal name kind _ hkind)
      | none =>
        refine ⟨.inr, ?_⟩
        rintro (⟨hname, -⟩ | hplain)
        · simp [hinstallation] at hname
        · exact hplain

/-- A printed value is a plain text if a header can hold it: no control character stands in it. -/
theorem plainText_print (ht : t.Faithful) (value : Json) :
    plainText http (t.print value) = http.fits (t.print value) := by
  have hvisible : (HeaderText.mk (fun c ↦ decide (32 ≤ c.toNat)) fun c hc _ ↦
      decide_eq_true hc).fits (t.print value) = true := by
    rw [ht.plain]
    exact plain_of_takes (fun c ↦ by simp [Nat.lt_or_ge]) value
  unfold plainText HeaderText.fits
  rw [Bool.eq_iff_iff, List.all_eq_true, List.all_eq_true]
  refine forall₂_congr fun c hc ↦ ?_
  have hc := of_decide_eq_true (List.all_eq_true.mp hvisible c hc)
  rw [decide_eq_false (Nat.not_lt.mpr hc), Bool.false_or]

/-- Normalized metadata are plain if a header can hold what is sent for each field. -/
theorem normalizedMetadata_plain (ht : t.Faithful) (hlegal : LegalImages http image) {depth : Nat}
    {metadata metadata' : Json}
    (h : normalizedMetadata t (imageOutbound image) installationId depth metadata = .ok metadata') :
    metadata'.plain http = true ↔ Everywhere t (Sendable http) metadata := by
  induction depth generalizing metadata metadata' with
  | zero => cases h
  | succ depth ih =>
    obtain ⟨d, fields, fields', hd, rfl, rfl, hall⟩ := normalizedMetadata_fields h
    cases hd
    have heach : (∀ g ∈ fields', plainText http g.1 = true ∧ g.2.plain http = true) ↔
        ∀ f ∈ fields, (f.1 ≠ "x-codex-turn-metadata" → Sendable http f.1 f.2) ∧
          (f.1 = "x-codex-turn-metadata" → ∃ nested, f.2.asStr.bind t.parse = some nested ∧
            Everywhere t (Sendable http) nested) := by
      refine forall_mem_iff_of_forall₂ (hall.imp fun f g hfield ↦ ?_)
      obtain ⟨hname, hnormal⟩ := hfield
      unfold Normalizes at hnormal
      rw [hname]
      split at hnormal
      · next hturn =>
        obtain ⟨nested, nested', hparse, hnested, hvalue⟩ := hnormal
        have hkey : plainText http f.1 = true := by
          rw [hturn]
          exact plainText_of_isVisible http (by decide)
        have hprint : g.2.plain http = nested'.plain http := by
          rw [hvalue, ← ht.plain http nested']
          exact plainText_print ht nested'
        rw [hprint, ih hnested, hparse]
        constructor
        · exact fun h ↦ ⟨fun hname ↦ absurd hturn hname, fun _ ↦ ⟨nested, rfl, h.2⟩⟩
        · intro h
          obtain ⟨nested', hsame, hdeep⟩ := h.2 hturn
          cases hsame
          exact ⟨hkey, hdeep⟩
      · next hturn =>
        rw [hnormal]
        refine (forwardedValue_plain hlegal).trans ⟨fun h ↦ ⟨fun _ ↦ h, fun h' ↦ ?_⟩, ?_⟩
        · exact absurd h' hturn
        · exact fun h ↦ h.1 hturn
    rw [plain, plainFields_iff, heach]
    constructor
    · intro h
      refine .obj (fun f hf ↦ (h f hf).1) (fun f hf hname ↦ ?_) fun f hf hname nested hnested ↦ ?_
      · obtain ⟨nested, hnested, -⟩ := (h f hf).2 hname
        exact ⟨nested, hnested⟩
      · obtain ⟨nested', hnested', hdeep⟩ := (h f hf).2 hname
        rw [hnested] at hnested'
        cases hnested'
        exact hdeep
    · intro h
      cases h with
      | obj own text deep =>
        intro f hf
        refine ⟨own f hf, fun hname ↦ ?_⟩
        obtain ⟨nested, hnested⟩ := text f hf hname
        exact ⟨nested, hnested, deep f hf hname nested hnested⟩

/-! ### Headers -/

/-- A header of the client can be forwarded. -/
def HeaderFits (http : HeaderText) (t : JsonText) (entry : String × HeaderValue) : Prop :=
  ∃ text, entry.2.toStr = some text ∧ (trim text ≠ "" →
    if entry.1 = "x-codex-turn-metadata" then
      ∃ metadata, t.parse text = some metadata ∧ Everywhere t Fits metadata ∧
        Everywhere t (Sendable http) metadata
    else ∀ kind, identityKind entry.1 = some kind → IsMapped (trim text))

/-- What is mapped under the name of an identity, a header can hold. -/
theorem mappedIdentity_legal (hlegal : LegalImages http image) {name text mapped : String}
    (hname : isIdentity name = true)
    (h : mappedIdentity (imageOutbound image) installationId name text = .ok mapped) :
    http.fits mapped = true := by
  unfold mappedIdentity at h
  by_cases hinstallation : isInstallation name = true
  · rw [if_pos hinstallation] at h
    cases h
    exact fits_hyphenated http _
  · rw [if_neg hinstallation] at h
    cases hkind : identityKind name with
    | none =>
      rw [isIdentity, hkind] at hname
      exact absurd hname hinstallation
    | some kind =>
      rw [hkind] at h
      rw [imageOutbound_ok h]
      exact hlegal name kind _ hkind

private theorem bounded_of_parse (ht : t.Faithful) {text : String} {metadata : Json}
    (h : t.parse text = some metadata) : Bounded (text.utf8ByteSize + 1) metadata := by
  refine ⟨Nat.succ_pos _, fun fields hfields f hf s hs ↦ ?_⟩
  have hshorter := ht.shorter text fields (hfields ▸ h) f hf s hs
  omega

/-- The turn metadata header is mapped to a header where it fits and can be sent. -/
theorem turnHeader_isOk (ht : t.Faithful) (hlegal : LegalImages http image) {text : String} :
    (∃ mapped, mappedHeader t (imageOutbound image) installationId "x-codex-turn-metadata" text =
      .ok mapped ∧ http.fits mapped = true) ↔
    ∃ metadata, t.parse text = some metadata ∧ Everywhere t Fits metadata ∧
      Everywhere t (Sendable http) metadata := by
  unfold mappedHeader
  rw [if_pos rfl]
  cases hparse : t.parse text with
  | none =>
    constructor
    · rintro ⟨_, h, -⟩
      cases h
    · rintro ⟨_, h, -⟩
      cases h
  | some metadata =>
    dsimp only
    constructor
    · rintro ⟨mapped, h, hheader⟩
      obtain ⟨metadata', hnormal, h⟩ := bind_ok.mp h
      cases h
      rw [ht.plain] at hheader
      exact ⟨metadata, rfl, fits_of_normalizedMetadata hnormal,
        (normalizedMetadata_plain ht hlegal hnormal).mp hheader⟩
    · rintro ⟨_, hsame, hfits, hsendable⟩
      cases hsame
      have hnormal : ∃ metadata', normalizedMetadata t (imageOutbound image) installationId
          (text.utf8ByteSize + 1) metadata = .ok metadata' :=
        normalizedMetadata_of_fits ht hfits (bounded_of_parse ht hparse)
      obtain ⟨metadata', hnormal⟩ := hnormal
      refine ⟨t.print metadata', bind_ok.mpr ⟨metadata', hnormal, rfl⟩, ?_⟩
      rw [ht.plain]
      exact (normalizedMetadata_plain ht hlegal hnormal).mpr hsendable

/-- A header is forwarded where it fits. -/
theorem forwardHeader_isOk (ht : t.Faithful) (hlegal : LegalImages http image)
    {entry : String × HeaderValue} (hname : entry.1 ∈ identityHeaderNames)
    (identityHeaders headers : Headers) :
    (∃ headers', forwardHeader http t (imageOutbound image) installationId identityHeaders headers
      entry = .ok headers') ↔ HeaderFits http t entry := by
  have hnames : ∀ name ∈ identityHeaderNames, name ≠ "x-codex-turn-metadata" →
      isIdentity name = true := by
    decide
  unfold forwardHeader HeaderFits
  cases htext : entry.2.toStr with
  | none =>
    constructor
    · rintro ⟨_, h⟩
      cases h
    · rintro ⟨_, h, -⟩
      cases h
  | some text =>
    dsimp only
    by_cases hblank : trim text = ""
    · rw [if_pos hblank]
      exact ⟨fun _ ↦ ⟨text, rfl, fun h ↦ absurd hblank h⟩, fun _ ↦ ⟨headers, rfl⟩⟩
    · rw [if_neg hblank, bind_isOk]
      by_cases hturn : entry.1 = "x-codex-turn-metadata"
      · have hsuperseded : isSuperseded identityHeaders entry.1 = false := by
          rw [hturn]
          rfl
        have hheader : (∃ mapped, mappedHeader t (imageOutbound image) installationId entry.1 text =
            .ok mapped ∧ http.fits mapped = true) ↔ _ := hturn ▸ turnHeader_isOk ht hlegal
        constructor
        · rintro ⟨mapped, hok, headers', hrest⟩
          refine ⟨text, rfl, fun _ ↦ ?_⟩
          rw [if_pos hturn]
          refine hheader.mp ⟨mapped, hok, ?_⟩
          rw [hsuperseded, if_neg Bool.false_ne_true] at hrest
          split at hrest
          · assumption
          · cases hrest
        · rintro ⟨_, hsame, hfits⟩
          cases hsame
          rw [if_pos hturn] at hfits
          obtain ⟨mapped, hok, hvalue⟩ := hheader.mpr (hfits hblank)
          refine ⟨mapped, hok, ?_⟩
          rw [hsuperseded, if_neg Bool.false_ne_true, if_pos hvalue]
          exact ⟨_, rfl⟩
      · have hmapped : mappedHeader t (imageOutbound image) installationId entry.1 text =
            mappedIdentity (imageOutbound image) installationId entry.1 text := if_neg hturn
        rw [hmapped]
        constructor
        · rintro ⟨mapped, hok, -⟩
          refine ⟨text, rfl, fun _ ↦ ?_⟩
          rw [if_neg hturn]
          exact mappedIdentity_isOk.mp ⟨mapped, hok⟩
        · rintro ⟨_, hsame, hfits⟩
          cases hsame
          rw [if_neg hturn] at hfits
          have hok : ∃ mapped, mappedIdentity (imageOutbound image) installationId entry.1 text =
              .ok mapped := mappedIdentity_isOk.mpr (hfits hblank)
          obtain ⟨mapped, hok⟩ := hok
          refine ⟨mapped, hok, ?_⟩
          have hheader := mappedIdentity_legal hlegal (hnames entry.1 hname hturn) hok
          rw [if_pos hheader]
          split <;> exact ⟨_, rfl⟩

private theorem insertMissingHeader_isOk (headers : Headers) (name : String) {value : String}
    (h : http.fits value = true) :
    ∃ headers', (insertMissingHeader http headers name value : Result Headers) = .ok headers' := by
  unfold insertMissingHeader
  rw [if_pos h]
  split <;> exact ⟨_, rfl⟩

/-- The headers and the turn fields of a resolved identity. -/
theorem identity_isOk (hlegal : LegalImages http image) {r : IngressRequest}
    (h : r.stateless = false → IsMapped r.identity.sessionId ∧ IsMapped r.identity.threadId)
    (headers : Headers) :
    (∃ headers', identityHeaders http (imageOutbound image) r headers = .ok headers') ∧
      ∃ turn, identityTurn (imageOutbound image) r = .ok turn ∧
        ∀ f ∈ turn, f.1 ≠ "request_kind" ∧ plainText http f.1 = true ∧ f.2.plain http = true := by
  unfold identityHeaders identityTurn
  cases hstateless : r.stateless with
  | true => exact ⟨⟨headers, rfl⟩, [], rfl, fun f hf ↦ absurd hf List.not_mem_nil⟩
  | false =>
    obtain ⟨hs, hthread⟩ := h hstateless
    have houtbound : ∀ {client : String}, IsMapped client →
        imageOutbound image "thread" client = .ok (image "thread" client) := by
      intro client hclient
      have hok : ∃ upstream, imageOutbound image "thread" client = .ok upstream :=
        imageOutbound_isOk.mpr hclient
      obtain ⟨upstream, hok⟩ := hok
      rw [hok, imageOutbound_ok hok]
    have hvalue : ∀ client, http.fits (image "thread" client) = true := fun client ↦
      hlegal "session-id" "thread" client rfl
    rw [if_neg Bool.false_ne_true, if_neg Bool.false_ne_true]
    constructor
    · obtain ⟨headers₁, h₁⟩ := insertMissingHeader_isOk headers "session-id"
        (hvalue r.identity.sessionId)
      obtain ⟨headers₂, h₂⟩ := insertMissingHeader_isOk headers₁ "thread-id"
        (hvalue r.identity.threadId)
      obtain ⟨headers₃, h₃⟩ := insertMissingHeader_isOk headers₂ "x-client-request-id"
        (hvalue r.identity.threadId)
      exact ⟨headers₃, bind_ok.mpr ⟨_, houtbound hs, bind_ok.mpr ⟨_, houtbound hthread,
        bind_ok.mpr ⟨headers₁, h₁, bind_ok.mpr ⟨headers₂, h₂, h₃⟩⟩⟩⟩⟩
    · refine ⟨_, bind_ok.mpr ⟨_, houtbound hs, bind_ok.mpr ⟨_, houtbound hthread, rfl⟩⟩, ?_⟩
      have hnames : ("session_id" ≠ "request_kind" ∧ isVisible "session_id" = true) ∧
          "thread_id" ≠ "request_kind" ∧ isVisible "thread_id" = true := by
        decide
      intro f hf
      simp only [List.mem_cons, List.not_mem_nil, or_false] at hf
      rcases hf with rfl | rfl
      · exact ⟨hnames.1.1, plainText_of_isVisible http hnames.1.2, plainText_of_fits (hvalue _)⟩
      · exact ⟨hnames.2.1, plainText_of_isVisible http hnames.2.2, plainText_of_fits (hvalue _)⟩

/-! ### Projected fields -/

/-- A projected field that can be mapped: one of the account, or one that is not blank. -/
def Projectable (f : String × Option String) (value : Option String) : Prop :=
  f.1 = "installation_id" ∨ ∀ text, value = some text → trim text ≠ ""

private theorem mem_projectedFields : ∀ f ∈ projectedFields, isIdentity f.1 = true ∧
    f.1 ≠ "request_kind" ∧ isVisible f.1 = true ∧
    (f.1 = "installation_id" ∧ identityKind f.1 = none ∨
      f.1 ≠ "installation_id" ∧ (identityKind f.1).isSome) := by
  decide

private theorem projectField_isOk (hlegal : LegalImages http image) {identityHeaders : Headers}
    {sources : List Json} {f : String × Option String} (hf : f ∈ projectedFields)
    {value : Option String} (h : coherent identityHeaders f.2 sources f.1 = .ok value)
    (s : Headers × List (String × Json)) :
    (∃ s', projectField http (imageOutbound image) installationId identityHeaders sources s f =
      .ok s') ↔
      Projectable f value := by
  obtain ⟨hname, -, -, hkind⟩ := mem_projectedFields f hf
  unfold projectField Projectable
  rw [h]
  cases value with
  | none => exact ⟨fun _ ↦ .inr fun text htext ↦ (by cases htext), fun _ ↦ ⟨s, rfl⟩⟩
  | some text =>
    have hsize := (coherent_ok h).2.1 text rfl
    have hmapped : (∃ mapped, mappedIdentity (imageOutbound image) installationId f.1 text =
        .ok mapped) ↔
          f.1 = "installation_id" ∨ ∀ text', some text = some text' → trim text' ≠ "" := by
      rw [mappedIdentity_isOk]
      rcases hkind with ⟨hinstallation, hnone⟩ | ⟨hinstallation, hsome⟩
      · rw [hnone]
        exact ⟨fun _ ↦ .inl hinstallation, fun _ kind hkind ↦ (by cases hkind)⟩
      · obtain ⟨kind, hkind⟩ := Option.isSome_iff_exists.mp hsome
        constructor
        · rintro hall
          right
          rintro _ ⟨⟩
          exact (hall kind hkind).1
        · rintro (hfield | hblank)
          · exact absurd hfield hinstallation
          · exact fun _ _ ↦ ⟨hblank text rfl, (utf8ByteSize_trim_le text).trans hsize⟩
    rw [← hmapped]
    constructor
    · rintro ⟨s', hok⟩
      obtain ⟨_, hvalue, hok⟩ := bind_ok.mp hok
      cases hvalue
      obtain ⟨mapped, hok, -⟩ := bind_ok.mp hok
      exact ⟨mapped, hok⟩
    · rintro ⟨mapped, hok⟩
      refine bind_isOk.mpr ⟨some text, rfl, bind_isOk.mpr ⟨mapped, hok, ?_⟩⟩
      cases f.2 with
      | none => exact ⟨_, rfl⟩
      | some header =>
        obtain ⟨headers, hheaders⟩ := insertMissingHeader_isOk s.1 header
          (mappedIdentity_legal hlegal hname hok)
        exact ⟨_, bind_ok.mpr ⟨headers, hheaders, rfl⟩⟩

/-- The fields of a turn that a header can hold, whatever the client sends. -/
def PlainTurn (http : HeaderText) (turn : List (String × Json)) : Prop :=
  ∀ f ∈ turn, f.1 ≠ "request_kind" ∧ plainText http f.1 = true ∧ f.2.plain http = true

private theorem PlainTurn.insert {turn : List (String × Json)} (h : PlainTurn http turn)
    {name : String}
    {value : Json} (hname : name ≠ "request_kind") (hkey : plainText http name = true)
    (hvalue : value.plain http = true) : PlainTurn http (Json.insert turn name value) := by
  intro f hf
  rcases mem_insert.2 f hf with rfl | hf
  · exact ⟨hname, hkey, hvalue⟩
  · exact h f hf

/-- The fields are projected where each can be mapped. -/
theorem projectFields_isOk (hlegal : LegalImages http image) {identityHeaders : Headers}
    {sources : List Json}
    (hcoherent : ∀ f ∈ projectedFields, ∃ v, coherent identityHeaders f.2 sources f.1 = .ok v)
    (s : Headers × List (String × Json)) :
    (∃ s', projectedFields.foldlM
      (projectField http (imageOutbound image) installationId identityHeaders sources) s = .ok s') ↔
      ∀ f ∈ projectedFields, ∀ v, coherent identityHeaders f.2 sources f.1 = .ok v →
        Projectable f v := by
  refine foldlM_isOk (fun f hf s ↦ ?_) s
  obtain ⟨v, hv⟩ := hcoherent f hf
  rw [projectField_isOk hlegal hf hv]
  refine ⟨fun h v' hv' ↦ ?_, fun h ↦ h v hv⟩
  rw [hv] at hv'
  cases hv'
  exact h

/-- What is projected, a header can hold. -/
theorem plainTurn_projected (hlegal : LegalImages http image) {identityHeaders : Headers}
    {sources : List Json} {s s' : Headers × List (String × Json)} (h : PlainTurn http s.2)
    (hs : projectedFields.foldlM
      (projectField http (imageOutbound image) installationId identityHeaders sources) s = .ok s') :
    PlainTurn http s'.2 := by
  refine foldlM_ok (fun _ s ↦ PlainTurn http s.2) (fun _ f s₁ s₂ hf h₁ hfield ↦ ?_) h hs
  obtain ⟨hname, hkind, hkey, -⟩ := mem_projectedFields f hf
  obtain rfl | ⟨mapped, ⟨value, -, hmapped⟩, -, hturn⟩ := projectField_ok hfield
  · exact h₁
  · rw [hturn]
    exact h₁.insert hkind (plainText_of_isVisible http hkey)
      (plainText_of_fits (mappedIdentity_legal hlegal hname hmapped))

/-! ### The compaction -/

private theorem plainText_compactionText {value : Json} {text : String}
    (h : compactionText value = some text) : plainText http text = true := by
  refine plainText_of_isVisible http ?_
  have hchars := (Option.filter_eq_some_iff.mp h).2
  simp only [Bool.and_eq_true] at hchars
  unfold isVisible
  rw [List.all_eq_true] at hchars ⊢
  intro c hc
  have hchar := hchars.2 c hc
  simp only [Bool.or_eq_true, beq_iff_eq] at hchar
  rcases hchar with halnum | rfl
  · rw [Bool.and_eq_true, decide_eq_true_eq, decide_eq_true_eq]
    delta Char.isAlphanum Char.isAlpha Char.isUpper Char.isLower Char.isDigit at halnum
    simp only [Bool.or_eq_true, Bool.and_eq_true, decide_eq_true_eq, ge_iff_le,
      UInt32.le_iff_toNat_le] at halnum
    change 32 ≤ c.val.toNat ∧ c.val.toNat < 127
    have hbounds : ('A'.val.toNat = 65 ∧ 'a'.val.toNat = 97 ∧ '0'.val.toNat = 48) ∧
        'Z'.val.toNat = 90 ∧ 'z'.val.toNat = 122 ∧ '9'.val.toNat = 57 := by decide
    omega
  · decide

private theorem plainFields_insert {fields : List (String × Json)} {name : String} {value : Json}
    (h : plainFields http fields = true) (hkey : plainText http name = true)
    (hvalue : value.plain http = true) :
    plainFields http (Json.insert fields name value) = true := by
  refine plainFields_iff.mpr fun f hf ↦ ?_
  rcases mem_insert.2 f hf with rfl | hf
  · exact ⟨hkey, hvalue⟩
  · exact plainFields_iff.mp h f hf

/-- The compaction of a turn is plain. -/
theorem addCompaction_plain {sources : List Json} {compaction : List (String × Json)}
    (h : sources.foldlM addCompaction [] = .ok compaction) :
    plainFields http compaction = true := by
  have hkeys : ∀ field ∈ compactionFields, isVisible field = true := by decide
  refine foldlM_ok (fun _ fields ↦ plainFields http fields = true) ?_ rfl h
  intro _ source fields fields' _ hplain h
  unfold addCompaction at h
  split at h
  · refine foldlM_ok (fun _ fields ↦ plainFields http fields = true) ?_ hplain h
    intro _ field fields fields' hfield hplain h
    unfold addCompactionField at h
    split at h
    · cases h
      exact hplain
    · split at h
      · cases h
      · next htext =>
        split at h
        · cases h
        · cases h
          exact plainFields_insert hplain (plainText_of_isVisible http (hkeys field hfield))
            (plainText_compactionText htext)
  · cases h
    exact hplain

/-- What the compaction metadata add to a turn: plain fields, and the kind of the request. -/
structure TurnFields (http : HeaderText) (turn : List (String × Json))
    (requestKind : Option String) : Prop where
  fields : ∀ f ∈ turn,
    (f.1 ≠ "request_kind" ∧ plainText http f.1 = true ∧ f.2.plain http = true) ∨
      ∃ kind, requestKind = some kind ∧ f = ("request_kind", .str kind)
  kind : ∀ kind, requestKind = some kind → ("request_kind", .str kind) ∈ turn

private theorem turnFields_of_compaction {sources : List Json}
    {turn compaction : List (String × Json)}
    (h : PlainTurn http turn) (hcompaction : compactionMetadata sources = .ok compaction) :
    ∃ requestKind, coherent [] none sources "request_kind" = .ok requestKind ∧
      TurnFields http (compaction.foldl (fun turn f ↦ insert turn f.1 f.2) turn) requestKind := by
  obtain ⟨requestKind, hkind, hcompaction⟩ := bind_ok.mp hcompaction
  obtain ⟨fields, hfields, hcompaction⟩ := bind_ok.mp hcompaction
  cases hcompaction
  refine ⟨requestKind, hkind, ?_⟩
  have hname : "compaction" ≠ "request_kind" ∧ isVisible "compaction" = true := by decide
  have hplain : PlainTurn http ((if fields.isEmpty then []
      else [("compaction", Json.obj fields)]).foldl (fun turn f ↦ insert turn f.1 f.2) turn) := by
    split
    · exact h
    · exact h.insert hname.1 (plainText_of_isVisible http hname.2) (addCompaction_plain hfields)
  rw [List.foldl_append]
  cases requestKind with
  | none => exact ⟨fun f hf ↦ .inl (hplain f hf), fun kind hkind ↦ (by cases hkind)⟩
  | some kind =>
    refine ⟨fun f hf ↦ ?_, ?_⟩
    · rcases mem_insert.2 f hf with rfl | hf
      · exact .inr ⟨kind, rfl, rfl⟩
      · exact .inl (hplain f hf)
    · rintro _ ⟨⟩
      exact mem_insert.1

/-! ### The turn metadata header -/

/-- A plain field that is added where there is none. -/
theorem addMissing_plain {fields : List (String × Json)} {f : String × Json}
    (h : plainFields http fields = true) (hkey : plainText http f.1 = true)
    (hvalue : f.2.plain http = true) :
    plainFields http (if (field fields f.1).isSome then fields else insert fields f.1 f.2) =
      true := by
  split
  · exact h
  · exact plainFields_insert h hkey hvalue

/-- Turn metadata stay plain with a field that is plain, or that they have. -/
theorem addTurnField_plain {fields : List (String × Json)} {f : String × Json}
    (h : plainFields http fields = true)
    (hf : (f.1 = "request_kind" ∧ (field fields f.1).isSome = true) ∨
      (plainText http f.1 = true ∧ f.2.plain http = true)) :
    plainFields http (addTurnField fields f) = true := by
  unfold addTurnField
  dsimp only
  split
  · next previous added hkey hprevious hadded =>
    rcases hf with ⟨hkind, -⟩ | ⟨hname, hvalue⟩
    · exact absurd ((eq_of_beq hkey).symm.trans hkind) (by decide)
    · rw [hadded, plain, plainFields_iff] at hvalue
      have hafter : ∀ fields, plainFields http fields = true →
          plainFields http (added.foldl (fun fields f ↦
          if (field fields f.1).isSome then fields else insert fields f.1 f.2) fields) = true := by
        clear hadded
        induction added with
        | nil => exact fun _ h ↦ h
        | cons g added ih =>
          intro fields h
          obtain ⟨hg, hrest⟩ := List.forall_mem_cons.mp hvalue
          exact ih hrest _ (addMissing_plain h hg.1 hg.2)
      refine plainFields_iff.mpr fun g hg ↦ ?_
      rcases mem_replace hg with rfl | hg
      · exact ⟨hname, hafter previous (plainFields_iff.mp h _ (mem_of_field hprevious)).2⟩
      · exact plainFields_iff.mp h g hg
  · rcases hf with ⟨-, hsome⟩ | ⟨hname, hvalue⟩
    · rw [if_pos hsome]
      exact h
    · exact addMissing_plain h hname hvalue

/-- With all fields of a turn the fields are plain, where the kind of the request is plain or
there. -/
theorem addTurnFields_plain {requestKind : Option String} {turn fields : List (String × Json)}
    (hturn : ∀ f ∈ turn,
      (f.1 ≠ "request_kind" ∧ plainText http f.1 = true ∧ f.2.plain http = true) ∨
      ∃ kind, requestKind = some kind ∧ f = ("request_kind", .str kind))
    (h : plainFields http fields = true)
    (hkind : field fields "request_kind" = none →
      ∀ kind, requestKind = some kind → plainText http kind = true) :
    plainFields http (turn.foldl addTurnField fields) = true := by
  have hkey : plainText http "request_kind" = true := plainText_of_isVisible http (by decide)
  induction turn generalizing fields with
  | nil => exact h
  | cons f turn ih =>
    obtain ⟨hf, hrest⟩ := List.forall_mem_cons.mp hturn
    refine ih hrest (addTurnField_plain h ?_) fun hnone ↦ hkind ?_
    · rcases hf with ⟨-, hplain⟩ | ⟨kind, hsome, rfl⟩
      · exact .inr hplain
      · by_cases hfield : field fields "request_kind" = none
        · exact .inr ⟨hkey, hkind hfield kind hsome⟩
        · exact .inl ⟨rfl, Option.isSome_iff_ne_none.mpr hfield⟩
    · rw [field_addTurnField fields f (by decide), Option.or_eq_none_iff] at hnone
      exact hnone.1

/-- The turn metadata header is sent where the client's can be read back, if anything is added, and
where the kind of the request can be sent, or need not be added. -/
theorem projectTurn_isOk (ht : t.Faithful) {headers : Headers} {turn : List (String × Json)}
    {requestKind : Option String} (hturn : TurnFields http turn requestKind)
    (hheader : headers.get "x-codex-turn-metadata" = none ∨ ∃ fields,
      headers.get "x-codex-turn-metadata" = some (some (t.print (.obj fields))) ∧
        (Json.obj fields).hidesRaw = false ∧ plainFields http fields = true) :
    (∃ headers', (projectTurn http t headers turn : Result Headers) = .ok headers') ↔
      (turn ≠ [] → ∀ value, turnObject t headers = some value → value.readable 127 = true) ∧
      ((turnObject t headers).bind (·.get "request_kind") = none →
        ∀ kind, requestKind = some kind → plainText http kind = true) := by
  have hkey : plainText http "request_kind" = true := plainText_of_isVisible http (by decide)
  unfold projectTurn
  cases turn with
  | nil =>
    refine ⟨fun _ ↦ ⟨fun h ↦ absurd rfl h, fun _ kind hsome ↦ ?_⟩, fun _ ↦ ⟨_, rfl⟩⟩
    exact absurd (hturn.kind kind hsome) List.not_mem_nil
  | cons f turn =>
    dsimp only [List.isEmpty_cons]
    rw [if_neg Bool.false_ne_true]
    rcases hheader with hnone | ⟨fields, hsome, hraw, hplain⟩
    · have hobject : turnObject t headers = none := by
        rw [turnObject, hnone]
        rfl
      rw [hnone, hobject]
      dsimp only
      unfold insertMissingHeader
      rw [Headers.containsKey_eq, hnone, Option.isSome_none, if_neg Bool.false_ne_true,
        ht.plain, plain]
      constructor
      · rintro ⟨headers', h⟩
        refine ⟨fun _ value hvalue ↦ (by cases hvalue), fun _ kind hkind ↦ ?_⟩
        split at h
        · next hplain => exact (plainFields_iff.mp hplain _ (hturn.kind kind hkind)).2
        · cases h
      · rintro ⟨-, h⟩
        have hplain : plainFields http (f :: turn) = true := by
          refine plainFields_iff.mpr fun g hg ↦ ?_
          rcases hturn.fields g hg with ⟨-, hplain⟩ | ⟨kind, hkind, rfl⟩
          · exact hplain
          · exact ⟨hkey, h rfl kind hkind⟩
        rw [if_pos hplain]
        exact ⟨_, rfl⟩
    · have hobject : turnObject t headers = some (.obj fields) := by
        rw [turnObject, hsome]
        exact ht.reads _
      rw [hsome, hobject]
      dsimp only
      rw [Option.bind_some]
      cases hreadable : (Json.obj fields).readable 127 with
      | false =>
        rw [ht.refuses _ hraw hreadable]
        constructor
        · rintro ⟨headers', h⟩
          cases h
        · rintro ⟨h, -⟩
          have hread := h (List.cons_ne_nil f turn) _ rfl
          rw [hreadable] at hread
          cases hread
      | true =>
        -- what is read back is the client's metadata but for the digits of numbers
        obtain ⟨value, hparse, hrounded⟩ := ht.rereads _ hraw hreadable
        obtain ⟨fields', rfl, hfields⟩ := rounded_eq_obj hrounded
        have hplain' : plainFields http fields' = true := by
          have hsame : (Json.obj fields').plain http = (Json.obj fields).plain http := by
            rw [← plain_rounded, hrounded, plain_rounded]
          exact hsame.trans hplain
        have hmissing : field fields' "request_kind" = none ↔
            field fields "request_kind" = none := by
          have hnone : ∀ o : Option Json, o.map rounded = none ↔ o = none :=
            fun _ ↦ Option.map_eq_none_iff
          rw [← hnone, hfields, hnone]
        rw [hparse]
        dsimp only
        rw [ht.plain, plain]
        constructor
        · rintro ⟨headers', h⟩
          refine ⟨fun _ value hvalue ↦ ?_, fun hnone kind hkind ↦ ?_⟩
          · cases hvalue
            exact hreadable
          split at h
          · next hmerged =>
            have hmem := hturn.kind kind hkind
            obtain ⟨value, hvalue⟩ := Option.isSome_iff_exists.mp (field_isSome_of_mem hmem)
            have hfield := field_foldl_addTurnField (f :: turn) fields'
              (show "request_kind" ≠ "compaction" by decide)
            rw [hmissing.mpr hnone, Option.none_or] at hfield
            have hplainValue :=
              (plainFields_iff.mp hmerged _ (mem_of_field (hfield.trans hvalue))).2
            rcases hturn.fields _ (mem_of_field hvalue) with ⟨hne, -⟩ | ⟨kind', hkind', heq⟩
            · exact absurd rfl hne
            · rw [hkind] at hkind'
              cases hkind'
              cases heq
              exact hplainValue
          · cases h
        · rintro ⟨-, h⟩
          rw [if_pos (addTurnFields_plain hturn.fields hplain' fun hnone ↦ h (hmissing.mp hnone))]
          exact ⟨_, rfl⟩

/-! ### What is added to a turn -/

private theorem insert_ne_nil (fields : List (String × Json)) (key : String) (value : Json) :
    Json.insert fields key value ≠ [] := by
  intro h
  have hmem : (key, value) ∈ Json.insert fields key value := mem_insert.1
  rw [h] at hmem
  cases hmem

/-- Nothing is projected where the client has nothing to project. -/
theorem projectFields_nil {identityHeaders : Headers} {sources : List Json}
    {s s' : Headers × List (String × Json)}
    (h : projectedFields.foldlM
      (projectField http (imageOutbound image) installationId identityHeaders sources) s = .ok s') :
    s'.2 = [] ↔
      s.2 = [] ∧ ∀ f ∈ projectedFields, coherent identityHeaders f.2 sources f.1 = .ok none := by
  refine foldlM_ok (fun passed s' ↦ s'.2 = [] ↔
    s.2 = [] ∧ ∀ f ∈ passed, coherent identityHeaders f.2 sources f.1 = .ok none) ?_ (by simp) h
  intro passed f s₁ s₂ _ hpassed hfield
  obtain ⟨value, hcoherent, hrest⟩ := bind_ok.mp hfield
  have hcoherent := ofResult_ok hcoherent
  rw [List.forall_mem_append, List.forall_mem_singleton, ← and_assoc, ← hpassed, hcoherent]
  cases value with
  | none =>
    cases hrest
    exact (and_iff_left rfl).symm
  | some value =>
    have hne : s₂.2 ≠ [] := by
      obtain ⟨mapped, -, hrest⟩ := bind_ok.mp hrest
      cases hf : f.2 with
      | none =>
        rw [hf] at hrest
        cases hrest
        exact insert_ne_nil _ _ _
      | some header =>
        rw [hf] at hrest
        obtain ⟨headers, -, hrest⟩ := bind_ok.mp hrest
        cases hrest
        exact insert_ne_nil _ _ _
    exact ⟨fun hnil ↦ absurd hnil hne, fun hnone ↦ (by cases hnone.2)⟩

/-- The compaction is empty where no source has a field of it. -/
theorem addCompaction_nil {sources : List Json} {compaction : List (String × Json)}
    (h : sources.foldlM addCompaction [] = .ok compaction) :
    compaction = [] ↔ ∀ source ∈ sources, ∀ field ∈ compactionFields,
      (source.get "compaction").bind (·.get field) = none := by
  have hsource : ∀ {fields fields' : List (String × Json)} {source : Json},
      addCompaction fields source = .ok fields' → (fields' = [] ↔ fields = [] ∧
        ∀ field ∈ compactionFields, (source.get "compaction").bind (·.get field) = none) := by
    intro fields fields' source h
    unfold addCompaction at h
    split at h
    · next object hobject =>
      rw [hobject]
      refine foldlM_ok (fun passed fields' ↦ fields' = [] ↔ fields = [] ∧
        ∀ field ∈ passed, (some (Json.obj object)).bind (·.get field) = none) ?_ (by simp) h
      intro passed field fields₁ fields₂ _ hpassed hfield
      rw [List.forall_mem_append, List.forall_mem_singleton, ← and_assoc, ← hpassed,
        Option.bind_some]
      unfold addCompactionField at hfield
      cases hvalue : (Json.obj object).get field with
      | none =>
        rw [hvalue] at hfield
        cases hfield
        exact (and_iff_left rfl).symm
      | some value =>
        rw [hvalue] at hfield
        have hne : fields₂ ≠ [] := by
          dsimp only at hfield
          split at hfield
          · cases hfield
          · split at hfield
            · cases hfield
            · cases hfield
              exact insert_ne_nil _ _ _
        exact ⟨fun hnil ↦ absurd hnil hne, fun hnone ↦ (by cases hnone.2)⟩
    · next hother =>
      cases h
      refine (and_iff_left fun field _ ↦ ?_).symm
      cases hcompaction : source.get "compaction" with
      | none => rfl
      | some value =>
        cases value with
        | obj object => exact absurd hcompaction (hother object)
        | _ => rfl
  refine foldlM_ok (fun passed fields ↦ fields = [] ↔ ∀ source ∈ passed, ∀ field ∈ compactionFields,
    (source.get "compaction").bind (·.get field) = none) ?_ (by simp) h
  intro passed source fields fields' _ hpassed h
  rw [hsource h, hpassed, List.forall_mem_append, List.forall_mem_singleton]

/-- The gateway has something to say of a turn: the identity of a session, a field it projects, or
the kind of the request or a field of its compaction. -/
def HasTurn (t : JsonText) (stateless : Bool) (headers : Headers) (body : Json) : Prop :=
  stateless = false ∨
    (∃ f ∈ projectedFields, ∃ text, Supplies t headers body f text) ∨
    ∃ m ∈ metadataObjects t headers body, (∃ kind, m.get "request_kind" = some (.str kind)) ∨
      ∃ field ∈ compactionFields, ∃ value, (m.get "compaction").bind (·.get field) = some value

/-! ### Requests -/

/-- What preparing a request needs beyond what is checked when it is accepted. -/
structure Preparable (http : HeaderText) (t : JsonText) (stateless : Bool) (headers : Headers)
    (body : Json) : Prop where
  requestId : ∀ value ∈ headers.getAll "x-client-request-id", ∃ text, value.toStr = some text ∧
    (trim text).utf8ByteSize ≤ 512
  turn : ∀ text, carried headers "x-codex-turn-metadata" = some text →
    ∀ metadata, t.parse text = some metadata →
      Everywhere t Fits metadata ∧ Everywhere t (Sendable http) metadata
  reread : HasTurn t stateless headers body →
    ∀ text, carried headers "x-codex-turn-metadata" = some text →
      ∀ metadata, t.parse text = some metadata → metadata.readable 127 = true
  client : ∀ metadata, body.get "client_metadata" = some metadata → Everywhere t Fits metadata
  fields : ∀ f ∈ projectedFields, f.1 ≠ "installation_id" → ∀ text, Supplies t headers body f text →
    trim text ≠ ""
  requestKind : ((carried headers "x-codex-turn-metadata").bind t.parse).bind
      (·.get "request_kind") = none →
    ∀ metadata ∈ metadataObjects t headers body, ∀ kind,
      metadata.get "request_kind" = some (.str kind) → plainText http kind = true

/-- The turn metadata header is sent if it is not blank. -/
theorem carried_turn (headers : Headers) :
    headers.filterMap (carriedText headers "x-codex-turn-metadata") =
      (headers.getAll "x-codex-turn-metadata").filterMap fun value ↦
        value.toStr.filter (trim · ≠ "") := by
  unfold Headers.getAll
  rw [List.filterMap_map, List.filterMap_filter]
  refine List.filterMap_congr fun entry _ ↦ ?_
  unfold carriedText
  by_cases hname : entry.1 = "x-codex-turn-metadata"
  · have hcanonical := canonicalHeader_eq_turn.mpr hname
    have hsuperseded : isSuperseded headers entry.1 = false := by
      rw [hname]
      rfl
    rw [if_pos (by simp [hcanonical, hsuperseded]), if_pos (decide_eq_true hname)]
    rfl
  · have hcanonical : canonicalHeader entry.1 ≠ "x-codex-turn-metadata" := fun h ↦
      hname (canonicalHeader_eq_turn.mp h)
    simp [hname, hcanonical]

variable {r : IngressRequest}

/-- The headers of an accepted request can be forwarded where those can that are not checked. -/
theorem headerFits_iff (h : Accepted t r) :
    (∀ entry ∈ r.identityHeaders, HeaderFits http t entry) ↔
      (∀ value ∈ r.identityHeaders.getAll "x-client-request-id", ∃ text, value.toStr = some text ∧
        (trim text).utf8ByteSize ≤ 512) ∧
      ∀ text, carried r.identityHeaders "x-codex-turn-metadata" = some text →
        ∀ metadata, t.parse text = some metadata →
          Everywhere t Fits metadata ∧ Everywhere t (Sendable http) metadata := by
  have hmem : ∀ name value, value ∈ r.identityHeaders.getAll name →
      (name, value) ∈ r.identityHeaders := by
    intro name value hvalue
    obtain ⟨entry, hentry, rfl⟩ := List.mem_map.mp hvalue
    obtain ⟨hentry, hname⟩ := List.mem_filter.mp hentry
    exact of_decide_eq_true hname ▸ hentry
  constructor
  · intro hall
    refine ⟨fun value hvalue ↦ ?_, fun text htext metadata hparse ↦ ?_⟩
    · obtain ⟨text, htext, hfits⟩ := hall _ (hmem _ _ hvalue)
      refine ⟨text, htext, ?_⟩
      by_cases hblank : trim text = ""
      · rw [hblank]
        exact Nat.zero_le _
      · exact (hfits hblank "request" rfl).2
    · have hlast := List.mem_of_getLast? htext
      rw [carried_turn] at hlast
      obtain ⟨value, hvalue, hfilter⟩ := List.mem_filterMap.mp hlast
      obtain ⟨hvisible, hblank⟩ := Option.filter_eq_some_iff.mp hfilter
      obtain ⟨text', htext', hfits⟩ := hall _ (hmem _ _ hvalue)
      rw [hvisible] at htext'
      cases htext'
      rw [if_pos rfl] at hfits
      obtain ⟨metadata', hparse', hgood⟩ := hfits (of_decide_eq_true hblank)
      rw [hparse] at hparse'
      cases hparse'
      exact hgood
  · rintro ⟨hrequest, hturn⟩ entry hentry
    have hvalue : entry.2 ∈ r.identityHeaders.getAll entry.1 :=
      List.mem_map_of_mem (List.mem_filter.mpr ⟨hentry, decide_eq_true rfl⟩)
    have hnames : ∀ name ∈ identityHeaderNames, name = "x-codex-turn-metadata" ∨
        name = "x-client-request-id" ∨ name ∈ checkedHeaders := by
      decide
    have hshort : entry.1 ≠ "x-codex-turn-metadata" →
        (∃ text, entry.2.toStr = some text ∧ (trim text).utf8ByteSize ≤ 512) →
          HeaderFits http t entry := by
      rintro hname ⟨text, htext, hsize⟩
      refine ⟨text, htext, fun hblank ↦ ?_⟩
      rw [if_neg hname]
      exact fun _ _ ↦ ⟨hblank, hsize⟩
    rcases hnames entry.1 (h.selected entry hentry) with hname | hname | hname
    · rw [hname] at hvalue
      have hget : ∃ value, r.identityHeaders.get "x-codex-turn-metadata" = some value :=
        ⟨_, List.head?_eq_some_head (List.ne_nil_of_mem hvalue)⟩
      obtain ⟨value, hget⟩ := hget
      obtain ⟨hone, text, htext, -, metadata, hparse, -⟩ := h.structural.turn value hget
      have hall : r.identityHeaders.getAll "x-codex-turn-metadata" = [value] := by
        obtain ⟨v, hv⟩ := List.length_eq_one_iff.mp hone
        rw [Headers.get, hv] at hget
        rw [hv, Option.some.inj hget]
      rw [hall] at hvalue
      refine ⟨text, (List.mem_singleton.mp hvalue).symm ▸ htext, fun hblank ↦ ?_⟩
      rw [if_pos hname]
      refine ⟨metadata, hparse, hturn text ?_ metadata hparse⟩
      rw [carried, carried_turn, hall]
      simp [htext, Option.filter_some, hblank]
    · refine hshort (by rw [hname]; decide) (hrequest entry.2 (hname ▸ hvalue))
    · refine hshort ?_ ?_
      · rintro heq
        rw [heq] at hname
        exact absurd hname (by decide)
      · obtain ⟨text, htext, hsize⟩ := h.headers entry.1 hname entry.2 hvalue
        exact ⟨text, htext, (utf8ByteSize_trim_le text).trans hsize⟩

private theorem bounded_nestingBound (metadata : Json) :
    Bounded (nestingBound metadata) metadata := by
  have hmax : ∀ (fields : List (String × Json)), ∀ f ∈ fields, ∀ s, f.2 = .str s →
      s.utf8ByteSize ≤
        (fields.map fun f ↦ (f.2.asStr.getD "").utf8ByteSize).foldr max 0 := by
    intro fields
    induction fields with
    | nil => exact fun f hf ↦ absurd hf List.not_mem_nil
    | cons g fields ih =>
      intro f hf s hs
      rw [List.map_cons, List.foldr_cons]
      rcases List.mem_cons.mp hf with rfl | hf
      · rw [hs]
        exact Nat.le_max_left _ _
      · exact (ih f hf s hs).trans (Nat.le_max_right _ _)
  cases metadata with
  | obj fields =>
    refine ⟨Nat.succ_pos _, ?_⟩
    rintro _ ⟨⟩ f hf s hs
    have hs := hmax fields f hf s hs
    rw [nestingBound]
    omega
  | _ => exact ⟨Nat.one_pos, fun fields hfields ↦ (by cases hfields)⟩

/-- The client metadata are forwarded where they fit. -/
theorem normalizedClientMetadata_isOk (ht : t.Faithful) (h : Accepted t r) :
    (∃ metadata, normalizedClientMetadata t (imageOutbound image) installationId r =
      .ok metadata) ↔ ∀ metadata, r.document.get "client_metadata" = some metadata →
        Everywhere t Fits metadata := by
  unfold normalizedClientMetadata
  rw [h.present]
  cases hmetadata : r.document.get "client_metadata" with
  | none => exact ⟨fun _ metadata hm ↦ (by cases hm), fun _ ↦ ⟨none, rfl⟩⟩
  | some metadata =>
    dsimp only [Option.isSome_some, Option.getD_some]
    rw [if_pos rfl]
    constructor
    · rintro ⟨_, hok⟩ _ ⟨⟩
      obtain ⟨metadata', hnormal, -⟩ := bind_ok.mp hok
      exact fits_of_normalizedMetadata hnormal
    · intro hfits
      have hnormal : ∃ metadata', normalizedMetadata t (imageOutbound image) installationId
          (nestingBound metadata) metadata = .ok metadata' :=
        normalizedMetadata_of_fits ht (hfits metadata rfl) (bounded_nestingBound metadata)
      obtain ⟨metadata', hnormal⟩ := hnormal
      exact ⟨some metadata', bind_ok.mpr ⟨metadata', hnormal, rfl⟩⟩

/-- The kind of a request is in one of the metadata objects. -/
theorem requestKind_iff {headers : Headers} {body : Json} {sources : List Json}
    {requestKind : Option String} (hstructure : Structural t headers body)
    (hsources : metadata t body headers = .ok sources)
    (h : coherent [] none sources "request_kind" = .ok requestKind) (kind : String) :
    requestKind = some kind ↔
      ∃ m ∈ metadataObjects t headers body, m.get "request_kind" = some (.str kind) := by
  rw [(coherent_ok h).2.2, metadata_ok hstructure hsources]
  constructor
  · rintro (⟨_, hnone, -⟩ | ⟨source, hsource, hget⟩)
    · cases hnone
    · rcases List.mem_append.mp hsource with hm | halias
      · exact ⟨source, hm, hget⟩
      · obtain ⟨m, -, hsource⟩ := List.mem_flatMap.mp halias
        obtain ⟨a, ha, hkind, -⟩ := get_aliasSources.mp ⟨source, hsource, hget⟩
        have hnone : ∀ a ∈ flatAliases, a.2 ≠ "request_kind" := by decide
        exact absurd hkind (hnone a ha)
  · rintro ⟨m, hm, hget⟩
    exact .inr ⟨m, List.mem_append_left _ hm, hget⟩

/-- Something is added to a turn where there is something to say of it. -/
theorem turn_ne_nil_iff (h : Accepted t r) {sources : List Json}
    {turn compaction : List (String × Json)} {headers : Headers}
    {s : Headers × List (String × Json)}
    (hsources : metadata t r.document r.identityHeaders = .ok sources)
    (hcompaction : compactionMetadata sources = .ok compaction)
    (hturn : identityTurn (imageOutbound image) r = .ok turn)
    (hs : projectedFields.foldlM (projectField http (imageOutbound image) installationId
      r.identityHeaders sources) (headers, turn) = .ok s) :
    compaction.foldl (fun turn f ↦ insert turn f.1 f.2) s.2 ≠ [] ↔
      HasTurn t r.stateless r.identityHeaders r.document := by
  have hidentity : turn = [] ↔ r.stateless = true := by
    unfold identityTurn at hturn
    split at hturn
    · next hstateless =>
      cases hturn
      exact ⟨fun _ ↦ hstateless, fun _ ↦ rfl⟩
    · next hstateful =>
      obtain ⟨session, -, hturn⟩ := bind_ok.mp hturn
      obtain ⟨thread, -, hturn⟩ := bind_ok.mp hturn
      cases hturn
      exact ⟨fun hnil ↦ (by cases hnil), fun hstateless ↦ absurd hstateless hstateful⟩
  have hfields : (∀ f ∈ projectedFields, coherent r.identityHeaders f.2 sources f.1 = .ok none) ↔
      ¬ ∃ f ∈ projectedFields, ∃ text, Supplies t r.identityHeaders r.document f text := by
    obtain ⟨sources', hsources', -, hcoherent⟩ := h.sources
    obtain rfl : sources = sources' := Except.ok.inj (hsources.symm.trans hsources')
    simp only [not_exists, not_and]
    refine forall₂_congr fun f hf ↦ ?_
    obtain ⟨v, hv⟩ := hcoherent f hf
    rw [hv]
    constructor
    · rintro ⟨⟩ text htext
      exact absurd ((coherent_supplies h.structural hsources hv text).mpr htext) (by simp)
    · intro hnone
      cases v with
      | none => rfl
      | some text =>
        exact absurd ((coherent_supplies h.structural hsources hv text).mp rfl) (hnone text)
  obtain ⟨requestKind, hkind, hrest⟩ := bind_ok.mp hcompaction
  obtain ⟨fields, hadded, hrest⟩ := bind_ok.mp hrest
  have hcompactionNil : compaction = [] ↔ fields = [] ∧ requestKind = none := by
    cases hrest
    rw [List.append_eq_nil_iff]
    refine and_congr ?_ (by cases requestKind <;> simp)
    cases fields <;> simp
  have hkinds : requestKind = none ↔ ¬ ∃ m ∈ metadataObjects t r.identityHeaders r.document,
      ∃ kind, m.get "request_kind" = some (.str kind) := by
    constructor
    · rintro rfl ⟨m, hm, kind, hget⟩
      cases (requestKind_iff h.structural hsources hkind kind).mpr ⟨m, hm, hget⟩
    · intro hnone
      cases requestKind with
      | none => rfl
      | some kind =>
        obtain ⟨m, hm, hget⟩ := (requestKind_iff h.structural hsources hkind kind).mp rfl
        exact absurd ⟨m, hm, kind, hget⟩ hnone
  have hcompactions : fields = [] ↔ ¬ ∃ m ∈ metadataObjects t r.identityHeaders r.document,
      ∃ field ∈ compactionFields, ∃ value,
        (m.get "compaction").bind (·.get field) = some value := by
    rw [addCompaction_nil hadded, metadata_ok h.structural hsources]
    have halias : ∀ source ∈ (metadataObjects t r.identityHeaders r.document).flatMap aliasSources,
        source.get "compaction" = none := by
      intro source hsource
      obtain ⟨m, -, hsource⟩ := List.mem_flatMap.mp hsource
      cases hget : source.get "compaction" with
      | none => rfl
      | some value =>
        obtain ⟨a, ha, hname, -⟩ := get_aliasSources.mp ⟨source, hsource, hget⟩
        have hnone : ∀ a ∈ flatAliases, a.2 ≠ "compaction" := by decide
        exact absurd hname (hnone a ha)
    rw [List.forall_mem_append, and_iff_left fun source hsource field _ ↦ by
      rw [halias source hsource]
      rfl]
    simp only [not_exists, not_and, ← Option.eq_none_iff_forall_ne_some]
  have hfold : ∀ (compaction turn : List (String × Json)),
      compaction.foldl (fun turn f ↦ insert turn f.1 f.2) turn = [] ↔
        turn = [] ∧ compaction = [] := by
    intro compaction
    induction compaction with
    | nil => exact fun turn ↦ (and_iff_left rfl).symm
    | cons f compaction ih =>
      intro turn
      rw [List.foldl_cons, ih]
      exact ⟨fun hnil ↦ absurd hnil.1 (insert_ne_nil _ _ _), fun hnil ↦ (by cases hnil.2)⟩
  rw [Ne, hfold, projectFields_nil hs, hidentity, hfields, hcompactionNil, hcompactions, hkinds,
    not_and_or, not_and_or, not_and_or, not_not, not_not, not_not, Bool.not_eq_true, or_assoc]
  refine or_congr_right (or_congr_right ⟨?_, ?_⟩)
  · rintro (⟨m, hm, hfield⟩ | ⟨m, hm, hkind⟩)
    · exact ⟨m, hm, .inr hfield⟩
    · exact ⟨m, hm, .inl hkind⟩
  · rintro ⟨m, hm, hkind | hfield⟩
    · exact .inr ⟨m, hm, hkind⟩
    · exact .inl ⟨m, hm, hfield⟩

/-- The turn metadata header after the client's headers: none, or plain metadata with the kind of
the request if the client's have one. -/
theorem turnHeader_forwarded (ht : t.Faithful) (hlegal : LegalImages http image)
    {base headers : Headers}
    (hbase : base.get "x-codex-turn-metadata" = none)
    (hturn : ∀ text, carried r.identityHeaders "x-codex-turn-metadata" = some text →
      ∀ metadata, t.parse text = some metadata → Everywhere t (Sendable http) metadata)
    (h : Carries t image installationId "x-codex-turn-metadata"
      (carried r.identityHeaders "x-codex-turn-metadata") (base.get "x-codex-turn-metadata")
      (headers.get "x-codex-turn-metadata")) :
    (headers.get "x-codex-turn-metadata" = none ∨ ∃ fields,
      headers.get "x-codex-turn-metadata" = some (some (t.print (.obj fields))) ∧
        (Json.obj fields).hidesRaw = false ∧ plainFields http fields = true) ∧
      ((∀ value, turnObject t headers = some value → value.readable 127 = true) ↔
        ∀ text, carried r.identityHeaders "x-codex-turn-metadata" = some text →
          ∀ metadata, t.parse text = some metadata → metadata.readable 127 = true) ∧
      ((turnObject t headers).bind (·.get "request_kind") = none ↔
        ((carried r.identityHeaders "x-codex-turn-metadata").bind t.parse).bind
          (·.get "request_kind") = none) := by
  obtain ⟨hnone, hget⟩ | ⟨text, mapped, htext, hget, hsends⟩ := h
  · rw [hbase] at hget
    refine ⟨.inl hget, ?_⟩
    rw [turnObject, hget, hnone]
    exact ⟨⟨fun _ text htext ↦ (by cases htext), fun _ value hvalue ↦ (by cases hvalue)⟩, Iff.rfl⟩
  · unfold Sends at hsends
    rw [if_pos rfl] at hsends
    obtain ⟨metadata, metadata', hparse, hnormal, rfl⟩ := hsends
    have hshape := normalizedMetadata_shape hnormal
    obtain ⟨d, fields, fields', -, rfl, rfl, hfields⟩ := normalizedMetadata_fields hnormal
    have hplain := (normalizedMetadata_plain ht hlegal hnormal).mpr (hturn text htext _ hparse)
    have hraw : (Json.obj fields').hidesRaw = false :=
      (hidesRaw_of_shape hshape).trans (ht.parsed text _ hparse)
    refine ⟨.inr ⟨fields', hget, hraw, hplain⟩, ?_⟩
    have hobject : turnObject t headers = some (.obj fields') := by
      rw [turnObject, hget]
      exact ht.reads _
    rw [hobject, htext, Option.bind_some, Option.bind_some, hparse, Option.bind_some]
    refine ⟨⟨fun h _ htext' _ hparse' ↦ ?_, fun h _ hvalue ↦ ?_⟩, ?_⟩
    · cases htext'
      rw [hparse] at hparse'
      cases hparse'
      exact (readable_of_shape hshape 127).symm.trans (h _ rfl)
    · cases hvalue
      exact (readable_of_shape hshape 127).trans (h text rfl _ hparse)
    change field fields' "request_kind" = none ↔ field fields "request_kind" = none
    obtain ⟨hnone, hnone'⟩ | ⟨v, v', hv, hv', -⟩ := field_forall₂ hfields "request_kind"
    · rw [hnone, hnone']
    · rw [hv, hv']
      simp

/-- The turn metadata header is sent last: where the kind of the request can be, or is there. -/
theorem projectedTurn_isOk (ht : t.Faithful) (hlegal : LegalImages http image) (h : Accepted t r)
    {base headers₁ headers₂ : Headers} {sources : List Json}
    {turn compaction : List (String × Json)} {s : Headers × List (String × Json)}
    (hbase : base.get "x-codex-turn-metadata" = none)
    (hsendable : ∀ text, carried r.identityHeaders "x-codex-turn-metadata" = some text →
      ∀ metadata, t.parse text = some metadata → Everywhere t (Sendable http) metadata)
    (hsources : metadata t r.document r.identityHeaders = .ok sources)
    (hcompaction : compactionMetadata sources = .ok compaction)
    (h₁ : r.identityHeaders.foldlM (forwardHeader http t (imageOutbound image) installationId
      r.identityHeaders) base = .ok headers₁)
    (h₂ : identityHeaders http (imageOutbound image) r headers₁ = .ok headers₂)
    (hturn : identityTurn (imageOutbound image) r = .ok turn)
    (hs : projectedFields.foldlM (projectField http (imageOutbound image) installationId
      r.identityHeaders sources) (headers₂, turn) = .ok s) :
    (∃ headers', (projectTurn http t s.1 (compaction.foldl (fun turn f ↦ insert turn f.1 f.2) s.2) :
      Result Headers) = .ok headers') ↔
      (HasTurn t r.stateless r.identityHeaders r.document →
        ∀ text, carried r.identityHeaders "x-codex-turn-metadata" = some text →
          ∀ metadata, t.parse text = some metadata → metadata.readable 127 = true) ∧
      (((carried r.identityHeaders "x-codex-turn-metadata").bind t.parse).bind
        (·.get "request_kind") = none →
      ∀ metadata ∈ metadataObjects t r.identityHeaders r.document, ∀ kind,
        metadata.get "request_kind" = some (.str kind) → plainText http kind = true) := by
  have hplain : PlainTurn http turn := by
    obtain ⟨-, turn', hturn', hplain⟩ := identity_isOk hlegal h.identity headers₁
    rw [hturn] at hturn'
    cases hturn'
    exact hplain
  obtain ⟨requestKind, hkind, hfields⟩ := turnFields_of_compaction
    (plainTurn_projected hlegal hplain hs) hcompaction
  -- nothing between touches the turn metadata header
  have hget : s.1.get "x-codex-turn-metadata" = headers₁.get "x-codex-turn-metadata" := by
    have hnone : resolvedHeader image r "x-codex-turn-metadata" = none := by
      unfold resolvedHeader
      split <;> rfl
    obtain hsame | ⟨f, hf, hname, -⟩ := (projectFields_ok hs).headers "x-codex-turn-metadata"
    · rw [hsame, identityHeaders_ok h₂, hnone, Option.map_none, Option.or_none]
    · have hresolved : resolvedField image r f.1 = none ∧ _ := resolved_projected f hf
      exact absurd rfl (hresolved.2.2 _ hname).2
  obtain ⟨hheader, hread, hobject⟩ := turnHeader_forwarded ht hlegal hbase hsendable
    (forwardHeaders_ok h₁ "x-codex-turn-metadata")
  rw [projectTurn_isOk ht hfields (hget ▸ hheader), turn_ne_nil_iff h hsources hcompaction hturn hs,
    turnObject, hget, ← turnObject, hobject, hread]
  refine and_congr_right fun _ ↦ forall_congr' fun _ ↦
    ⟨fun hall m hm kind hvalue ↦ hall kind ?_, fun hall kind hsome ↦ ?_⟩
  · exact (requestKind_iff h.structural hsources hkind kind).mpr ⟨m, hm, hvalue⟩
  · obtain ⟨m, hm, hvalue⟩ := (requestKind_iff h.structural hsources hkind kind).mp hsome
    exact hall m hm kind hvalue

/-- The headers and the client metadata of an accepted request are normalized where they can be. -/
theorem normalizedHeaders_isOk (ht : t.Faithful) (hlegal : LegalImages http image)
    (h : Accepted t r)
    {base : Headers} (hbase : base.get "x-codex-turn-metadata" = none) :
    (∃ s, normalizedHeaders http t (imageOutbound image) installationId r base = .ok s) ↔
      Preparable http t r.stateless r.identityHeaders r.document := by
  obtain ⟨sources, hsources, ⟨compaction, hcompaction⟩, hcoherent⟩ := h.sources
  have hforward : (∃ headers, r.identityHeaders.foldlM (forwardHeader http t (imageOutbound image)
      installationId r.identityHeaders) base = .ok headers) ↔ _ :=
    (foldlM_isOk (fun entry hentry headers ↦ forwardHeader_isOk ht hlegal
      (h.selected entry hentry) r.identityHeaders headers) base).trans (headerFits_iff h)
  have hclient : (∃ metadata, normalizedClientMetadata t (imageOutbound image) installationId r =
      .ok metadata) ↔ _ := normalizedClientMetadata_isOk ht h
  have hproject : ∀ s : Headers × List (String × Json), (∃ s', projectedFields.foldlM
      (projectField http (imageOutbound image) installationId r.identityHeaders sources) s =
        .ok s') ↔
        ∀ f ∈ projectedFields, f.1 ≠ "installation_id" → ∀ text,
          Supplies t r.identityHeaders r.document f text → trim text ≠ "" := by
    intro s
    rw [projectFields_isOk hlegal hcoherent s]
    refine forall₂_congr fun f hf ↦ ?_
    obtain ⟨v, hv⟩ := hcoherent f hf
    have hsupplies := coherent_supplies h.structural hsources hv
    constructor
    · intro hall hname text htext
      exact (hall v hv).resolve_left hname text ((hsupplies text).mpr htext)
    · intro hall v' hv'
      rw [hv] at hv'
      cases hv'
      by_cases hname : f.1 = "installation_id"
      · exact .inl hname
      · exact .inr fun text htext ↦ hall hname text ((hsupplies text).mp htext)
  constructor
  · rintro ⟨s, hs⟩
    obtain ⟨headers₁, h₁, hs⟩ := bind_ok.mp hs
    obtain ⟨clientMetadata, hmetadata, hs⟩ := bind_ok.mp hs
    obtain ⟨headers₂, h₂, hs⟩ := bind_ok.mp hs
    obtain ⟨sources', hsources', hs⟩ := bind_ok.mp hs
    obtain ⟨turn, hturn, hs⟩ := bind_ok.mp hs
    obtain ⟨s₃, h₃, hs⟩ := bind_ok.mp hs
    obtain ⟨compaction', hcompaction', hs⟩ := bind_ok.mp hs
    obtain ⟨headers₄, h₄, -⟩ := bind_ok.mp hs
    have hsame := (ofResult_ok hsources').symm.trans hsources
    cases hsame
    obtain ⟨hrequest, hcarried⟩ := hforward.mp ⟨headers₁, h₁⟩
    obtain ⟨hreread, hkind⟩ := (projectedTurn_isOk ht hlegal h hbase
      (fun text htext m hm ↦ (hcarried text htext m hm).2) hsources (ofResult_ok hcompaction') h₁ h₂
      hturn h₃).mp ⟨headers₄, h₄⟩
    exact ⟨hrequest, hcarried, hreread, hclient.mp ⟨clientMetadata, hmetadata⟩,
      (hproject _).mp ⟨s₃, h₃⟩, hkind⟩
  · intro hprep
    obtain ⟨headers₁, h₁⟩ := hforward.mpr ⟨hprep.requestId, hprep.turn⟩
    obtain ⟨clientMetadata, hmetadata⟩ := hclient.mpr hprep.client
    obtain ⟨⟨headers₂, h₂⟩, turn, hturn, -⟩ := identity_isOk hlegal h.identity headers₁
    obtain ⟨s₃, h₃⟩ := (hproject (headers₂, turn)).mpr hprep.fields
    obtain ⟨headers₄, h₄⟩ := (projectedTurn_isOk ht hlegal h hbase
      (fun text htext m hm ↦ (hprep.turn text htext m hm).2) hsources hcompaction h₁ h₂ hturn
      h₃).mpr ⟨hprep.reread, hprep.requestKind⟩
    refine ⟨(headers₄, clientMetadata), bind_ok.mpr ⟨headers₁, h₁, bind_ok.mpr ⟨clientMetadata,
      hmetadata, bind_ok.mpr ⟨headers₂, h₂, bind_ok.mpr ⟨sources, ?_, bind_ok.mpr ⟨turn, hturn,
        bind_ok.mpr ⟨s₃, h₃, bind_ok.mpr ⟨compaction, ?_, bind_ok.mpr ⟨headers₄, h₄, rfl⟩⟩⟩⟩⟩⟩⟩⟩⟩
    · rw [hsources]
      rfl
    · rw [hcompaction]
      rfl

/-- The cache key of an accepted request can be mapped. -/
theorem forwardCacheKey_isOk (hlegal : LegalImages http image) (h : Accepted t r)
    (v5 : Uuid → String → Uuid) (keyId : Uuid) (headers : Headers) :
    ∃ cache, forwardCacheKey http (imageOutbound image) installationId v5 keyId r headers =
      .ok cache := by
  unfold forwardCacheKey
  cases cacheKey r with
  | none => exact ⟨_, rfl⟩
  | some cache =>
    have hmapped : ∃ mapped, mappedCacheKey (imageOutbound image) installationId v5 keyId r cache =
        .ok mapped ∧ http.fits mapped = true := by
      unfold mappedCacheKey
      split
      · next hidentity =>
        simp only [Bool.and_eq_true, Bool.not_eq_true', Bool.or_eq_true,
          decide_eq_true_eq] at hidentity
        obtain ⟨hsession, hthread⟩ := h.identity hidentity.1
        have hcache : IsMapped cache := by
          rcases hidentity.2 with rfl | rfl
          · exact hsession
          · exact hthread
        have hok : ∃ mapped, imageOutbound image "thread" cache = .ok mapped :=
          imageOutbound_isOk.mpr hcache
        obtain ⟨mapped, hok⟩ := hok
        exact ⟨mapped, hok, imageOutbound_ok hok ▸ hlegal "session-id" "thread" cache rfl⟩
      · exact ⟨_, rfl, fits_hyphenated http _⟩
    obtain ⟨mapped, hok, hvalue⟩ := hmapped
    refine bind_isOk.mpr ⟨mapped, hok, ?_⟩
    split
    · obtain ⟨headers₁, h₁⟩ := insertMissingHeader_isOk headers "session_id" hvalue
      obtain ⟨headers₂, h₂⟩ := insertMissingHeader_isOk headers₁ "conversation_id" hvalue
      exact ⟨_, bind_ok.mpr ⟨headers₁, h₁, bind_ok.mpr ⟨headers₂, h₂, rfl⟩⟩⟩
    · exact ⟨_, rfl⟩

end

/-! ### References -/

/-- The input refers to no stored item and to no file of the account. -/
def Referenceless (body : Json) : Prop :=
  ∀ items, body.get "input" = some (.arr items) → ∀ item ∈ items,
    item.hasType "item_reference" = false ∧
      (((item.get "content").bind asArray).getD []).any hasFileReference = false

private theorem rewriteItem_isOk {item : Json} (htype : item.hasType "item_reference" = false)
    (hfiles : (((item.get "content").bind asArray).getD []).any hasFileReference = false)
    (ids : IdentityMap) : ∃ after, rewriteItem ids item = .ok after := by
  unfold rewriteItem
  rw [htype, hfiles]
  exact ⟨_, rfl⟩

/-- The role of a message says nothing about its references. -/
theorem get_developerRole (item : Json) {name : String} (hname : name ≠ "role") :
    (developerRole item).get name = item.get name := by
  unfold developerRole
  split
  · cases item with
    | obj fields => exact field_replace_ne fields hname _
    | _ => rfl
  · rfl

/-- The body of a request without references can be prepared. -/
theorem prepareBody_isOk {r : IngressRequest} (h : Referenceless r.document) (model : ModelSpec)
    (ids : IdentityMap) : ∃ body, prepareBody r model ids = .ok body := by
  have hfold : ∀ (keys : List String) (body : List (String × Json)) (input : Json),
      field (keys.foldl (fun body key ↦ insertSome body key (r.document.get key)) body) "input" =
        some input →
      field body "input" = some input ∨ r.document.get "input" = some input := by
    intro keys
    induction keys with
    | nil => exact fun _ _ h ↦ .inl h
    | cons key keys ih =>
      intro body input h
      rcases ih _ input h with hbody | hdocument
      · dsimp only at hbody
        cases hvalue : r.document.get key with
        | none =>
          rw [hvalue] at hbody
          exact .inl hbody
        | some value =>
          rw [hvalue] at hbody
          change field (insert body key value) "input" = some input at hbody
          rw [field_insert] at hbody
          split at hbody
          · next hkey =>
            rw [hkey, hvalue]
            exact .inr hbody
          · exact .inl hbody
      · exact .inr hdocument
  have hforwarded : ∃ body, forwardedBody r ids = .ok body := by
    unfold forwardedBody
    dsimp only
    split
    · next input hinput =>
      rcases hfold forwardedKeys [] input hinput with hempty | hdocument
      · cases hempty
      · refine bind_isOk.mpr ?_
        cases input with
        | str text =>
          refine ⟨_, rfl, _, rfl⟩
        | arr items =>
          have hitems : ∃ items',
              (items.map developerRole).mapM (rewriteItem ids) = .ok items' := by
            refine mapM_isOk.mpr fun item hitem ↦ ?_
            obtain ⟨item, hmem, rfl⟩ := List.mem_map.mp hitem
            obtain ⟨htype, hfiles⟩ := h items hdocument item hmem
            refine rewriteItem_isOk ?_ ?_ ids
            · rw [hasType, get_developerRole item (by decide)]
              exact htype
            · rw [get_developerRole item (by decide)]
              exact hfiles
          obtain ⟨items', hitems'⟩ := hitems
          refine ⟨.arr items', ?_, _, rfl⟩
          rw [messageInput, rewriteInput, hitems']
          rfl
        | _ => exact ⟨_, rfl, _, rfl⟩
    · exact ⟨_, rfl⟩
  obtain ⟨body, hbody⟩ := hforwarded
  exact ⟨_, bind_ok.mpr ⟨body, hbody, rfl⟩⟩

/-! ### Images -/

/-- Stored or not, what is sent for an identifier is its hash. -/
theorem imageOf_new {v5 : Uuid → String → Uuid} {b : Binding} {mappings : List IdMapping}
    {kind : String} (h : ∀ m ∈ mappings, m.kind = kind →
      m.upstreamId = IdentityMap.upstreamOf v5 b.ns m.kind m.clientId) (client : String) :
    imageOf v5 (IdentityMap.new v5 b mappings) kind client =
      IdentityMap.upstreamOf v5 b.ns kind client := by
  unfold imageOf
  cases hexisting : (IdentityMap.new v5 b mappings).existing kind client with
  | none => rw [Option.getD_none, IdentityMap.binding_new]
  | some upstream => exact h _ (IdentityMap.existing_new v5 hexisting) rfl

/-- The identifiers of a request are sent as texts of UUIDs. -/
theorem upstreamOf_hyphenated {name kind : String} (h : identityKind name = some kind)
    (v5 : Uuid → String → Uuid) (ns : Uuid) (client : String) :
    IdentityMap.upstreamOf v5 ns kind client =
      (v5 ns (IdentityMap.nameOf kind client)).hyphenated := by
  have hkind : kind ≠ "item" ∧ kind ≠ "call" ∧ kind ≠ "response" := by
    unfold identityKind at h
    repeat' split at h
    all_goals
      cases h
      try decide
  unfold IdentityMap.upstreamOf
  rw [if_neg hkind.1, if_neg hkind.2.1, if_neg hkind.2.2]

/-- Identifiers that stand for those of requests are texts of UUIDs. -/
theorem legalImages_new {v5 : Uuid → String → Uuid} {b : Binding} {mappings : List IdMapping}
    (h : ∀ m ∈ mappings, m.upstreamId = IdentityMap.upstreamOf v5 b.ns m.kind m.clientId) :
    LegalImages http (imageOf v5 (IdentityMap.new v5 b mappings)) := by
  intro name kind client hkind
  rw [imageOf_new fun m hm _ ↦ h m hm, upstreamOf_hyphenated hkind]
  exact fits_hyphenated http _

/-- Valid credentials and a valid profile make headers, with an account whose identifier does. -/
theorem authHeaders_isOk {a : UpstreamAccount} {c : Credentials}
    (hcredentials : c.validate http = .ok ()) (hagent : http.fits a.profile.userAgent = true) :
    (∃ auth, authHeaders http a c = .ok auth) ↔ http.fits a.upstreamAccountId = true := by
  have htoken : http.fits ("Bearer " ++ c.accessToken) = true := by
    unfold Credentials.validate at hcredentials
    split at hcredentials
    · cases hcredentials
    · split at hcredentials
      · cases hcredentials
      · next htoken => simpa using htoken
  have horiginator : http.fits "codex_cli_rs" = true := fits_of_isVisible http (by decide)
  unfold authHeaders
  simp only [List.all_cons, List.all_nil, htoken, hagent, horiginator, Bool.true_and, Bool.and_true]
  constructor
  · rintro ⟨auth, h⟩
    split at h
    · assumption
    · cases h
  · intro h
    rw [if_pos h]
    exact ⟨_, rfl⟩

/-- An accepted request can be prepared, under any binding, just where it can be by what preparing
asks beyond acceptance, and the account's identifier can be a header. -/
theorem prepare_exact {v5 : Uuid → String → Uuid} {t : JsonText} (ht : t.Faithful)
    {headers : Headers} {body : Json} {kind : RequestKind} {drawn : Uuid} {r : IngressRequest}
    (haccepted : parse t headers body kind drawn = .ok r) (hinput : Referenceless body)
    {a : UpstreamAccount} {c : Credentials} (hcredentials : c.validate http = .ok ())
    (hagent : http.fits a.profile.userAgent = true) {b : Binding} {mappings : List IdMapping}
    (hstored : ∀ m ∈ mappings, m.upstreamId = IdentityMap.upstreamOf v5 b.ns m.kind m.clientId)
    (model : ModelSpec) :
    ((∃ auth s, authHeaders http a c = .ok auth ∧
        normalizedHeaders http t (mapOutbound v5) a.installationId r (baseHeaders auth)
          (IdentityMap.new v5 b mappings) = .ok s) ∧
      ∃ q, prepareRequest http v5 t r model a c (IdentityMap.new v5 b mappings) = .ok q) ↔
    http.fits a.upstreamAccountId = true ∧
      Preparable http t r.stateless (selectHeaders headers) body := by
  have hacc := parse_accepted haccepted
  have hlegal : LegalImages http _ := legalImages_new hstored
  obtain ⟨hheaders, hdocument⟩ := parse_keeps haccepted
  have hids : Images v5 (imageOf v5 (IdentityMap.new v5 b mappings)) b
      (IdentityMap.new v5 b mappings) := ⟨IdentityMap.binding_new v5 b mappings, fun _ _ ↦ rfl⟩
  rw [← authHeaders_isOk hcredentials hagent, ← hheaders, ← hdocument]
  constructor
  · rintro ⟨-, ⟨q, ids'⟩, hq⟩
    obtain ⟨-, auth, s, -, -, hauth, hs, -⟩ := prepareRequest_ok hids hq
    exact ⟨⟨auth, hauth⟩, (normalizedHeaders_isOk ht hlegal hacc
      (get_baseHeaders hauth (by decide))).mp ⟨s, hs⟩⟩
  · rintro ⟨⟨auth, hauth⟩, hprep⟩
    obtain ⟨s, hs⟩ := (normalizedHeaders_isOk ht hlegal hacc
      (get_baseHeaders hauth (by decide))).mpr hprep
    obtain ⟨requestBody, hbody⟩ := prepareBody_isOk (hdocument ▸ hinput) model
      (IdentityMap.new v5 b mappings)
    obtain ⟨cache, hcache⟩ := forwardCacheKey_isOk hlegal hacc v5 b.session.keyId
      (acceptHeaders r.kind s.1)
    obtain ⟨ids', hnormal⟩ := (erases_normalizedHeaders r (baseHeaders auth)).run hids hs
    obtain ⟨q, ids'', hq⟩ := prepareRequest_of_ok hids hbody hauth hs hcache
    exact ⟨⟨auth, (s, ids'), hauth, hnormal⟩, (q, ids''), hq⟩

/-- A request without a session, with a window. -/
def exampleBody (window : String) : Json :=
  .obj [("client_metadata", .obj [("window_id", .str window)]), ("input", .str "hi"),
    ("model", .str "gpt-5")]

/-- An account, and its credentials. -/
def exampleAccount : UpstreamAccount where
  id := 4
  groupIds := [1]
  name := "account"
  provider := "openai"
  accessKind := "codex_oauth"
  enabled := true
  codexOnly := false
  useExtraCredits := false
  disableReason := none
  maxInflight := 1
  upstreamAccountId := "account-4"
  models := []
  modelsRestricted := false
  modelCatalog := none
  profile := ⟨"codex_cli_rs/0.153.4", "rustls"⟩
  version := 1
  credentialVersion := 1
  credentialExpiresAt := none
  installationId := 5
  upstreamBaseUrl := "https://chatgpt.com/backend-api/codex"

def exampleCredentials : Credentials := ⟨"token", "", "", none⟩

def exampleModel : ModelSpec := ⟨"gpt-5", .codex "gpt-5", true⟩

/-- What is parsed of the body with a window. -/
def exampleRequest (window : String) : IngressRequest where
  kind := .responses
  stateless := true
  identity := ⟨Uuid.hyphenated 0, Uuid.hyphenated 0⟩
  turnId := none
  clientMetadataPresent := true
  identityHeaders := []
  compaction := none
  model := "gpt-5"
  stream := false
  requestedTier := none
  document := exampleBody window

private theorem example_referenceless (window : String) : Referenceless (exampleBody window) := by
  intro items hitems
  cases hitems

/-- A blank window is accepted, and no request is prepared with it. -/
theorem prepare_fails_blank :
    parse writer [] (exampleBody " ") .responses 0 =
        .ok (exampleRequest " ") ∧
      Referenceless (exampleBody " ") ∧ exampleCredentials.validate .ascii = .ok () ∧
      HeaderText.ascii.fits exampleAccount.profile.userAgent = true ∧
      HeaderText.ascii.fits exampleAccount.upstreamAccountId = true ∧
      prepareRequest .ascii exampleV5 writer (exampleRequest " ") exampleModel exampleAccount
        exampleCredentials (IdentityMap.new exampleV5 (exampleBinding 1 9 1) []) =
          .error (.invalid "Identity length is invalid") :=
  ⟨rfl, example_referenceless " ", rfl, by decide, by decide, rfl⟩

/-- A request with a window that is not blank is prepared. -/
theorem prepare_exact_window : ∃ q,
    prepareRequest .ascii exampleV5 writer (exampleRequest "w") exampleModel exampleAccount
      exampleCredentials (IdentityMap.new exampleV5 (exampleBinding 1 9 1) []) = .ok q := by
  have haccepted : parse writer [] (exampleBody "w") .responses 0 =
      .ok (exampleRequest "w") := rfl
  have hcredentials : exampleCredentials.validate .ascii = .ok () := rfl
  have hagent : HeaderText.ascii.fits exampleAccount.profile.userAgent = true := by decide
  have hobjects : metadataObjects writer (selectHeaders []) (exampleBody "w") =
      [.obj [("window_id", .str "w")]] := rfl
  have hprep : Preparable .ascii writer true (selectHeaders []) (exampleBody "w") := by
    refine ⟨fun value hvalue ↦ ?_, fun text htext ↦ ?_, fun _ text htext ↦ ?_, fun metadata hm ↦ ?_,
      fun f hf hname text htext ↦ ?_, fun _ m hm kind hkind ↦ ?_⟩
    · cases hvalue
    · cases htext
    · cases htext
    · cases hm
      refine .obj (fun f hf _ kind text hkind hvalue ↦ ?_) (fun f hf hname ↦ ?_) fun f hf hname ↦ ?_
      all_goals rw [List.mem_singleton.mp hf] at *
      · cases hvalue
        decide
      · exact absurd hname (by decide)
      · exact absurd hname (by decide)
    · rcases htext with ⟨name, -, value, hvalue, -⟩ | ⟨m, hm, name, -, hvalue⟩
      · cases hvalue
      · rw [hobjects] at hm
        rw [List.mem_singleton.mp hm, Json.get, field] at hvalue
        split at hvalue
        · cases hvalue
          decide
        · cases hvalue
    · rw [hobjects] at hm
      rw [List.mem_singleton.mp hm] at hkind
      cases hkind
  exact ((prepare_exact writer_faithful haccepted (example_referenceless "w") hcredentials hagent
    (fun m hm ↦ absurd hm List.not_mem_nil) exampleModel).mpr ⟨by decide, hprep⟩).2

end Xxgate.Codex

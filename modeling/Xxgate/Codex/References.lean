import Xxgate.Base.Fallible
import Xxgate.Core.Json
import Xxgate.Core.Legacy

/-!
# References in the input

`crates/xxgate-codex/src/provider/references.rs`. The items of an input keep the identifiers
the upstream gave them, except that aliases of older gateways are put back to the identifiers
they stand for.
-/

namespace Xxgate.Codex

open Xxgate.Core Json

/-! ### Rewriting the input -/

/-- `object[field] = value` for a field the object has. -/
def setField (object : Json) (field : String) (value : Json) : Json :=
  match object with
  | .obj fields => .obj (replace fields field value)
  | other => other

/-- `references.rs:4`. -/
def restoreReference (object : Json) (field kind : String) (ids : IdentityMap) : Json :=
  match (object.get field).bind asStr with
  | none => object
  | some value =>
    if ids.originalId kind value ≠ value then
      setField object field (.str (ids.originalId kind value))
    else object

/-- A part of a message that refers to a file of the account. -/
def hasFileReference (part : Json) : Bool :=
  (part.get "file_id").isSome || (part.get "image_id").isSome

/-- `references.rs:18–36`. -/
def rewriteItem (ids : IdentityMap) (item : Json) : Result Json :=
  if item.hasType "item_reference" then
    .error ⟨409, "context_reference_unsupported",
      "Explicit item content is required instead of stored item references"⟩
  else if (((item.get "content").bind asArray).getD []).any hasFileReference then
    .error ⟨409, "image_reference_unsupported",
      "Provide image bytes or an image URL instead of an account-scoped file reference"⟩
  else .ok (restoreReference (restoreReference item "id" "item" ids) "call_id" "call" ids)

/-- `references.rs:13`. -/
def rewriteInput (value : Json) (ids : IdentityMap) : Result Json :=
  match value with
  | .arr items => (items.mapM (rewriteItem ids)).map .arr
  | other => .ok other

/-! ### What it changes -/

/-- The names of the fields of an object, in their order. -/
def keys : Json → List String
  | .obj fields => fields.map (·.1)
  | _ => []

private theorem keys_replace (fields : List (String × Json)) (key : String) (value : Json) :
    (replace fields key value).map (·.1) = fields.map (·.1) := by
  induction fields with
  | nil => rfl
  | cons f rest ih =>
    unfold replace
    split
    · next heq => rw [List.map_cons, List.map_cons, heq]
    · rw [List.map_cons, List.map_cons, ih]

/-- A text with what an identifier of the kind in it stands for. -/
def restored (ids : IdentityMap) (kind : String) : Json → Json
  | .str value => .str (ids.originalId kind value)
  | other => other

/-- Restoring a field restores the text in it, and no other field. -/
theorem restoreReference_spec (object : Json) (field kind : String) (ids : IdentityMap) :
    let after := restoreReference object field kind ids
    after.get field = (object.get field).map (restored ids kind) ∧
      (∀ key, key ≠ field → after.get key = object.get key) ∧
      keys after = keys object ∧ (object.isObject = false → after = object) := by
  unfold restoreReference
  cases hv : (object.get field).bind asStr with
  | none =>
    refine ⟨?_, fun _ _ ↦ rfl, rfl, fun _ ↦ rfl⟩
    cases hg : object.get field with
    | none => rfl
    | some value =>
      rw [hg, Option.bind_some] at hv
      cases value with
      | str text => cases hv
      | _ => rfl
  | some text =>
    obtain ⟨value, hg, hstr⟩ := Option.bind_eq_some_iff.mp hv
    have hvalue : value = .str text := by
      cases value with
      | str text' => exact congrArg Json.str (Option.some.inj hstr)
      | _ => cases hstr
    subst hvalue
    dsimp only
    rw [hg, Option.map_some]
    split
    · cases object with
      | obj fields =>
        refine ⟨field_replace hg, fun key hk ↦ field_replace_ne fields hk _, keys_replace .., ?_⟩
        exact fun h ↦ by cases h
      | _ => cases hg
    · next hsame =>
      refine ⟨?_, fun _ _ ↦ rfl, rfl, fun _ ↦ rfl⟩
      rw [hg, restored, of_not_not hsame]

/-- What becomes of an item: its identifier and its call identifier are restored. -/
structure Restores (ids : IdentityMap) (item after : Json) : Prop where
  id : after.get "id" = (item.get "id").map (restored ids "item")
  callId : after.get "call_id" = (item.get "call_id").map (restored ids "call")
  others : ∀ key, key ≠ "id" → key ≠ "call_id" → after.get key = item.get key
  keys : keys after = keys item
  plain : item.isObject = false → after = item

private theorem rewriteItem_ok {ids : IdentityMap} {item after : Json}
    (h : rewriteItem ids item = .ok after) : Restores ids item after := by
  unfold rewriteItem at h
  split at h
  · cases h
  · split at h
    · cases h
    · cases h
      obtain ⟨hid, hother, hkeys, hplain⟩ := restoreReference_spec item "id" "item" ids
      obtain ⟨hcall, hothers, hkeysAfter, hplains⟩ := restoreReference_spec
        (restoreReference item "id" "item" ids) "call_id" "call" ids
      constructor
      · rw [hothers "id" (by decide), hid]
      · rw [hcall, hother "call_id" (by decide)]
      · exact fun key h1 h2 ↦ (hothers key h2).trans (hother key h1)
      · exact hkeysAfter.trans hkeys
      · intro hi
        have hfirst := hplain hi
        rw [hfirst] at hplains ⊢
        exact hplains hi

/-- An input that is rewritten has every item restored. -/
theorem rewriteInput_ok {ids : IdentityMap} {items : List Json} {value : Json}
    (h : rewriteInput (.arr items) ids = .ok value) :
    ∃ items', value = .arr items' ∧ List.Forall₂ (Restores ids) items items' := by
  change (items.mapM (rewriteItem ids)).map .arr = .ok value at h
  cases hm : items.mapM (rewriteItem ids) with
  | error e =>
    rw [hm] at h
    cases h
  | ok items' =>
    rw [hm] at h
    cases h
    exact ⟨items', rfl, (Base.Fallible.forall₂_of_mapM hm).imp fun _ _ ↦ rewriteItem_ok⟩

/-- After any history of a session under older gateways, the request of today restores exactly
their aliases: `original_id` gives an alias the identifier it was made for and leaves every
other identifier, a rewritten input differs from the input in the identifiers and call
identifiers of its items alone, these are restored alike wherever they stand, and the mappings
of another session, provider or access kind are ignored. -/
theorem aliases_restored {v5 : Uuid → String → Uuid} (hv5 : Function.Injective2 v5) {b : Binding}
    {h : History} (hr : h.Reachable v5 b) (hsaved : h.ids.pending = []) {rows : List IdMapping}
    (hrows : rows.Perm h.stored) {ids : IdentityMap}
    (hids : ids = loadIdentities v5 h.ids.binding rows h.earlier) :
    (∀ m ∈ h.created, ids.originalId m.kind m.clientId = m.upstreamId) ∧
    (∀ kind id, (∀ m ∈ h.created, m.kind = kind → m.clientId ≠ id) →
      ids.originalId kind id = id) ∧
    (∀ items value, rewriteInput (.arr items) ids = .ok value →
      ∃ items', value = .arr items' ∧ List.Forall₂ (Restores ids) items items' ∧
        ∀ x ∈ items.zip items', ∀ y ∈ items.zip items',
          x.1.get "call_id" = y.1.get "call_id" → x.2.get "call_id" = y.2.get "call_id") ∧
    (∀ value, value.asArray = none → rewriteInput value ids = .ok value) ∧
    ∀ binding mappings, ¬binding.Related ids.binding →
      ids.importLegacyAliases v5 binding mappings = ids := by
  obtain ⟨haliases, hothers⟩ := hr.resolves hv5 hsaved hrows
  subst hids
  refine ⟨haliases, hothers, fun items value hv ↦ ?_, fun value hv ↦ ?_, fun binding ms hnot ↦ ?_⟩
  · obtain ⟨items', rfl, hall⟩ := rewriteInput_ok hv
    refine ⟨items', rfl, hall, fun x hx y hy hcall ↦ ?_⟩
    have hx' := (List.forall₂_iff_zip.mp hall).2 hx
    have hy' := (List.forall₂_iff_zip.mp hall).2 hy
    rw [hx'.callId, hy'.callId, hcall]
  · cases value with
    | arr items => cases hv
    | _ => rfl
  · refine if_pos ?_
    by_contra hsame
    simp only [not_or, not_not] at hsame
    exact hnot ⟨hsame.1, hsame.2.1, hsame.2.2⟩

/-- A binding of the witness. -/
def exampleBinding (id ns : Uuid) (generation : Int) : Binding :=
  ⟨id, 2, ⟨3, "s"⟩, generation, 4, ns, "openai", "codex_oauth"⟩

/-- The hash of the witness: what UUIDs of version 5 are for its names. -/
def exampleV5 : Uuid → String → Uuid :=
  Uuid.knownHash [((9, "item\x00rs_11111111111141118111111111111111"),
      0xdafbe6115873574bb8bc2196a465f592),
    ((10, "item\x00rs_11111111111141118111111111111111"),
      0x70994f6eb0b35190850f1d90dc750bdf)]

/-- An alias that was itself sent upstream in the next generation still stands for the identifier
it was made for. -/
theorem aliases_restored_chained : ∃ ids : IdentityMap,
    ids.originalId "item" "rs_11111111111141118111111111111111" = "rs_upstream" ∧
    ids.originalId "item" "rs_other" = "rs_other" := by
  have hv5 : Function.Injective2 exampleV5 :=
    Uuid.knownHash_injective (by decide) (by decide)
  have hgenuine : ∀ name, lastSegment "rs_upstream" ≠ (exampleV5 9 name).simple := by
    intro name heq
    have hlength := Uuid.length_simple (exampleV5 9 name)
    rw [← heq] at hlength
    exact absurd hlength (by decide)
  have hfirst : History.Reachable exampleV5 (exampleBinding 1 9 1) _ :=
    ((Relation.ReflTransGen.refl.tail (.inbound _ "item" "rs_upstream"
      0x11111111111141118111111111111111 rfl ⟨by decide, fun m hm ↦ absurd hm List.not_mem_nil⟩
      (.inl hgenuine) rfl)).tail (.save _ (List.Perm.refl _))).tail
      (.next _ (exampleBinding 5 10 2) rfl ⟨rfl, rfl, rfl⟩)
  have hsecond := (hfirst.tail (.outbound _ "item" "rs_11111111111141118111111111111111"
    rfl rfl)).tail (.save _ (List.Perm.refl _))
  obtain ⟨haliases, hothers, -⟩ := aliases_restored hv5 hsecond rfl (List.Perm.refl _) rfl
  exact ⟨_, haliases _ List.mem_cons_self, hothers _ _ (by decide)⟩

end Xxgate.Codex

import Mathlib.Tactic.TypeStar

/-!
# JSON values

The values `serde_json` parses request bodies and upstream events into. An object is the
list of its fields, one for each key; the readers are those of `serde_json::Value`.
-/

namespace Xxgate.Core

/-- A JSON value. A number is an integer of at most 64 bits or anything else by its text. -/
inductive Json where
  | null
  | bool (value : Bool)
  | int (value : Int)
  | float (text : String)
  | str (value : String)
  | arr (items : List Json)
  | obj (fields : List (String × Json))

/-- The key under which `serde_json` hides the text of a raw value. -/
def RAW_VALUE : String := "$serde_json::private::RawValue"

namespace Json

/-- The value of the first field under a key. -/
def field : List (String × Json) → String → Option Json
  | [], _ => none
  | (k, v) :: rest, key => if k = key then some v else field rest key

/-- `Value::get` with a key. -/
def get : Json → String → Option Json
  | .obj fields, key => field fields key
  | _, _ => none

/-- `Value::as_str`. -/
def asStr : Json → Option String
  | .str value => some value
  | _ => none

/-- `Value::as_array`. -/
def asArray : Json → Option (List Json)
  | .arr items => some items
  | _ => none

/-- `Value::is_object`. -/
def isObject : Json → Bool
  | .obj _ => true
  | _ => false

/-- `Value::is_null`. -/
def isNull : Json → Bool
  | .null => true
  | _ => false

/-- `value["type"] == kind`. -/
def hasType (value : Json) (kind : String) : Bool :=
  (value.get "type").bind asStr == some kind

/-- `value.pointer("/a/b")` for keys that are no array index. -/
def pointer (value : Json) (a b : String) : Option Json := (value.get a).bind (·.get b)

/-- `Map::remove`. -/
def remove (fields : List (String × Json)) (key : String) : List (String × Json) :=
  fields.filter (·.1 ≠ key)

/-- Write a value through `get_mut`: the field keeps its place. -/
def replace : List (String × Json) → String → Json → List (String × Json)
  | [], _, _ => []
  | (k, v) :: rest, key, value =>
    if k = key then (k, value) :: rest else (k, v) :: replace rest key value

/-- `Map::insert`: the keys of an object are in order. -/
def insert : List (String × Json) → String → Json → List (String × Json)
  | [], key, value => [(key, value)]
  | (k, v) :: rest, key, value =>
    if key = k then (key, value) :: rest
    else if key < k then (key, value) :: (k, v) :: rest
    else (k, v) :: insert rest key value

/-- `Value::as_u64`. -/
def asU64 : Json → Option Nat
  | .int n => if 0 ≤ n then some n.toNat else none
  | _ => none

/-- A removed key is absent. -/
theorem field_remove (fields : List (String × Json)) (key : String) :
    field (remove fields key) key = none := by
  induction fields with
  | nil => rfl
  | cons f rest ih =>
    unfold remove
    by_cases hk : f.1 = key
    · rw [List.filter_cons_of_neg (by simp [hk])]
      exact ih
    · rw [List.filter_cons_of_pos (by simp [hk]), field, if_neg hk]
      exact ih

/-- Removing one key leaves the others. -/
theorem field_remove_ne (fields : List (String × Json)) {key k : String} (hk : k ≠ key) :
    field (remove fields key) k = field fields k := by
  induction fields with
  | nil => rfl
  | cons f rest ih =>
    unfold remove
    by_cases hf : f.1 = key
    · rw [List.filter_cons_of_neg (by simp [hf]), field, if_neg (hf ▸ hk.symm)]
      exact ih
    · rw [List.filter_cons_of_pos (by simp [hf]), field, field]
      exact congrArg _ ih

/-- A present field reads the value written to it. -/
theorem field_replace {fields : List (String × Json)} {key : String} {old value : Json}
    (h : field fields key = some old) : field (replace fields key value) key = some value := by
  induction fields with
  | nil => cases h
  | cons f rest ih =>
    unfold replace
    unfold field at h
    by_cases hf : f.1 = key
    · rw [if_pos hf, field, if_pos hf]
    · rw [if_neg hf] at h
      rw [if_neg hf, field, if_neg hf, ih h]

/-- Writing one field leaves the others. -/
theorem field_replace_ne (fields : List (String × Json)) {key k : String} (hk : k ≠ key)
    (value : Json) : field (replace fields key value) k = field fields k := by
  induction fields with
  | nil => rfl
  | cons f rest ih =>
    unfold replace
    by_cases hf : f.1 = key
    · rw [if_pos hf, field, field, if_neg (hf ▸ hk.symm), if_neg (hf ▸ hk.symm)]
    · rw [if_neg hf, field, field]
      exact congrArg _ ih

/-- Writing the value a field has changes nothing. -/
theorem replace_self {fields : List (String × Json)} {key : String} {value : Json}
    (h : field fields key = some value) : replace fields key value = fields := by
  induction fields with
  | nil => rfl
  | cons f rest ih =>
    unfold replace
    unfold field at h
    by_cases hf : f.1 = key
    · rw [if_pos hf] at h ⊢
      rw [← Option.some.inj h]
    · rw [if_neg hf] at h ⊢
      rw [ih h]

/-- Writing a field keeps the keys. -/
theorem keys_replace (fields : List (String × Json)) (key : String) (value : Json) :
    (replace fields key value).map (·.1) = fields.map (·.1) := by
  induction fields with
  | nil => rfl
  | cons f rest ih =>
    unfold replace
    split
    · rfl
    · rw [List.map_cons, List.map_cons, ih]

/-- What inserting a field makes of the others and of itself. -/
theorem field_insert (fields : List (String × Json)) (key : String) (value : Json) (k : String) :
    field (insert fields key value) k = if k = key then some value else field fields k := by
  induction fields with
  | nil =>
    unfold insert
    rw [field]
    exact ite_congr (propext eq_comm) (fun _ ↦ rfl) fun _ ↦ rfl
  | cons f rest ih =>
    unfold insert
    by_cases hname : key = f.1
    · rw [if_pos hname, field, field, ← hname]
      by_cases hk : k = key
      · rw [if_pos hk, if_pos hk.symm]
      · rw [if_neg hk, if_neg (Ne.symm hk), if_neg (Ne.symm hk)]
    · rw [if_neg hname]
      by_cases hk : k = key
      · rw [if_pos hk]
        split
        · rw [field, if_pos hk.symm]
        · rw [field, if_neg (hk ▸ Ne.symm hname), ih, if_pos hk]
      · rw [if_neg hk]
        split
        · rw [field, if_neg (Ne.symm hk)]
        · rw [field, field, ih, if_neg hk]

/-- The fields after one is inserted: it, and fields that were there. -/
theorem mem_insert {fields : List (String × Json)} {key : String} {value : Json} :
    (key, value) ∈ insert fields key value ∧
      ∀ f ∈ insert fields key value, f = (key, value) ∨ f ∈ fields := by
  induction fields with
  | nil => simp [insert]
  | cons f rest ih =>
    unfold insert
    split
    · refine ⟨List.mem_cons_self, fun g hg ↦ ?_⟩
      exact (List.mem_cons.mp hg).imp_right (List.mem_cons_of_mem _)
    · split
      · exact ⟨List.mem_cons_self, fun g hg ↦ List.mem_cons.mp hg⟩
      · refine ⟨List.mem_cons_of_mem _ ih.1, fun g hg ↦ ?_⟩
        rcases List.mem_cons.mp hg with rfl | hg
        · exact .inr List.mem_cons_self
        · exact (ih.2 g hg).imp_right (List.mem_cons_of_mem _)

/-- A field after a replacement is the new one or was there. -/
theorem mem_replace {fields : List (String × Json)} {key : String} {value : Json}
    {f : String × Json} (h : f ∈ replace fields key value) : f = (key, value) ∨ f ∈ fields := by
  induction fields with
  | nil => cases h
  | cons g rest ih =>
    unfold replace at h
    split at h
    · next hkey =>
      rw [hkey] at h
      exact (List.mem_cons.mp h).imp_right (List.mem_cons_of_mem _)
    · rcases List.mem_cons.mp h with rfl | h
      · exact .inr List.mem_cons_self
      · exact (ih h).imp_right (List.mem_cons_of_mem _)

/-- A field that is read is one of the fields. -/
theorem mem_of_field {fields : List (String × Json)} {key : String} {value : Json}
    (h : field fields key = some value) : (key, value) ∈ fields := by
  induction fields with
  | nil => cases h
  | cons f rest ih =>
    unfold field at h
    split at h
    · next hkey =>
      cases h
      exact hkey ▸ List.mem_cons_self
    · exact List.mem_cons_of_mem _ (ih h)

/-- The name of a field can be read. -/
theorem field_isSome_of_mem {fields : List (String × Json)} {f : String × Json} (h : f ∈ fields) :
    (field fields f.1).isSome = true := by
  induction fields with
  | nil => cases h
  | cons g rest ih =>
    unfold field
    split
    · rfl
    · next hkey =>
      rcases List.mem_cons.mp h with rfl | h
      · exact absurd rfl hkey
      · exact ih h

/-- Writing a field an object has: its keys are in order, so it is written where it stands. -/
theorem replace_eq_insert {fields : List (String × Json)} {key : String} {value : Json}
    (hordered : fields.Pairwise (·.1 < ·.1)) (h : (field fields key).isSome = true) :
    replace fields key value = insert fields key value := by
  induction fields with
  | nil => cases h
  | cons f rest ih =>
    rw [List.pairwise_cons] at hordered
    unfold replace insert
    by_cases hf : f.1 = key
    · rw [if_pos hf, if_pos hf.symm, hf]
    · rw [field, if_neg hf] at h
      obtain ⟨old, hold⟩ := Option.isSome_iff_exists.mp h
      have hlt : f.1 < key := hordered.1 _ (mem_of_field hold)
      rw [if_neg hf, if_neg (Ne.symm hf), if_neg (String.lt_asymm hlt), ih hordered.2 h]

/-- Inserting a field keeps the keys in order. -/
theorem pairwise_insert {fields : List (String × Json)} (h : fields.Pairwise (·.1 < ·.1))
    (key : String) (value : Json) : (insert fields key value).Pairwise (·.1 < ·.1) := by
  induction fields with
  | nil => exact List.pairwise_singleton _ _
  | cons f rest ih =>
    rw [List.pairwise_cons] at h
    unfold insert
    split
    · next hkey =>
      rw [List.pairwise_cons, hkey]
      exact h
    · next hne =>
      split
      · next hlt =>
        rw [List.pairwise_cons, List.pairwise_cons]
        refine ⟨fun g hg ↦ ?_, h⟩
        rcases List.mem_cons.mp hg with rfl | hg
        · exact hlt
        · exact String.lt_trans hlt (h.1 g hg)
      · next hnot =>
        rw [List.pairwise_cons]
        refine ⟨fun g hg ↦ ?_, ih h.2⟩
        rcases mem_insert.2 g hg with hkey | hg
        · rw [hkey]
          refine Decidable.byContradiction fun hno ↦ ?_
          exact hne (String.le_antisymm (String.not_lt.mp hno) (String.not_lt.mp hnot))
        · exact h.1 g hg

/-- Writing a field that was just inserted. -/
theorem replace_insert (fields : List (String × Json)) (key : String) (old value : Json) :
    replace (insert fields key old) key value = insert fields key value := by
  induction fields with
  | nil => exact if_pos rfl
  | cons f rest ih =>
    unfold insert
    by_cases hf : key = f.1
    · rw [if_pos hf, if_pos hf, replace, if_pos rfl]
    · rw [if_neg hf, if_neg hf]
      by_cases hlt : key < f.1
      · rw [if_pos hlt, if_pos hlt, replace, if_pos rfl]
      · rw [if_neg hlt, if_neg hlt, replace, if_neg (Ne.symm hf), ih]

end Json

/-! ### Trimming -/

/-- The characters with the Unicode property White_Space, which `str::trim` strips. -/
def isWhitespace (c : Char) : Bool :=
  let n := c.toNat
  (9 ≤ n && n ≤ 13) || n == 0x20 || n == 0x85 || n == 0xA0 || n == 0x1680 ||
    (0x2000 ≤ n && n ≤ 0x200A) || n == 0x2028 || n == 0x2029 || n == 0x202F || n == 0x205F ||
    n == 0x3000

/-- `str::trim`. -/
def trim (s : String) : String :=
  String.ofList (((s.toList.dropWhile isWhitespace).reverse.dropWhile isWhitespace).reverse)

/-- `str::strip_prefix`. -/
def stripLeading (lead s : String) : Option String :=
  if lead.toList <+: s.toList then some (String.ofList (s.toList.drop lead.toList.length)) else none

/-- What is left follows what was stripped. -/
theorem stripLeading_eq_some {lead s rest : String} (h : stripLeading lead s = some rest) :
    s = lead ++ rest := by
  unfold stripLeading at h
  split at h
  · next hlead =>
    cases h
    obtain ⟨tail, htail⟩ := hlead
    apply String.toList_injective
    rw [String.toList_append, String.toList_ofList, ← htail, List.drop_left]
  · cases h

end Xxgate.Core

import Mathlib.Data.List.TakeWhile
import Xxgate.Codex.Headers

/-!
# Printed JSON

What is relied on of `serde_json::to_string` and `serde_json::from_str`: a printed value is
parsed back up to the digits of its numbers, unless it is nested too deep or an object in it begins
with the key of a raw value; control characters are escaped and all others stand for themselves,
so that it depends on the texts in a value alone whether a header can hold it. A printer with these
properties is there to evaluate examples with.
-/

namespace Xxgate.Core

/-! ### Sizes of texts -/

private theorem utf8ByteSize_cons (c : Char) (l : List Char) :
    (String.ofList (c :: l)).utf8ByteSize = c.utf8Size + (String.ofList l).utf8ByteSize := by
  have hcons : String.ofList (c :: l) = String.singleton c ++ String.ofList l := by
    apply String.toList_inj.mp
    rw [String.toList_append, String.toList_singleton, String.toList_ofList,
      String.toList_ofList, List.singleton_append]
  rw [hcons, String.utf8ByteSize_append, String.utf8ByteSize_singleton]

private theorem utf8ByteSize_append (l l' : List Char) :
    (String.ofList (l ++ l')).utf8ByteSize =
      (String.ofList l).utf8ByteSize + (String.ofList l').utf8ByteSize := by
  rw [String.ofList_append, String.utf8ByteSize_append]

/-- A part of a text is no longer. -/
theorem utf8ByteSize_le_of_sublist {l l' : List Char} (h : l.Sublist l') :
    (String.ofList l).utf8ByteSize ≤ (String.ofList l').utf8ByteSize := by
  induction h with
  | slnil => exact Nat.le_refl _
  | cons c _ ih =>
    rw [utf8ByteSize_cons]
    omega
  | cons_cons c _ ih =>
    rw [utf8ByteSize_cons, utf8ByteSize_cons]
    omega

/-- Trimming a text makes it no longer. -/
theorem utf8ByteSize_trim_le (s : String) : (trim s).utf8ByteSize ≤ s.utf8ByteSize := by
  have hpart : (((s.toList.dropWhile isWhitespace).reverse.dropWhile isWhitespace).reverse).Sublist
      s.toList := by
    refine List.Sublist.trans ?_ (List.dropWhile_sublist isWhitespace)
    rw [← List.reverse_reverse (s.toList.dropWhile isWhitespace)]
    exact List.reverse_sublist.mpr (by
      rw [List.reverse_reverse]
      exact List.dropWhile_sublist isWhitespace)
  have h := utf8ByteSize_le_of_sublist hpart
  rwa [String.ofList_toList] at h

/-- A text of more than white space is not blank. -/
theorem trim_ne_empty {s : String} {c : Char} (hc : c ∈ s.toList) (h : isWhitespace c = false) :
    trim s ≠ "" := by
  intro hblank
  have hall : ∀ d ∈ s.toList.dropWhile isWhitespace, isWhitespace d = true := by
    have hnil := congrArg (List.reverse ∘ String.toList) hblank
    rw [Function.comp, trim, String.toList_ofList, List.reverse_reverse] at hnil
    intro d hd
    exact List.dropWhile_eq_nil_iff.mp hnil d (List.mem_reverse.mpr hd)
  have hnone : s.toList.dropWhile isWhitespace = [] := by
    by_contra hne
    have hhead := List.head_dropWhile_not isWhitespace hne
    rw [hall _ (List.head_mem hne)] at hhead
    cases hhead
  rw [List.dropWhile_eq_nil_iff.mp hnone c hc] at h
  cases h

/-! ### Plain texts -/

namespace Json

/-- Induction over a value, its items and its fields. -/
theorem induct {P : Json → Prop} {Q : List Json → Prop} {R : List (String × Json) → Prop}
    (null : P .null) (bool : ∀ b, P (.bool b)) (int : ∀ n, P (.int n)) (float : ∀ s, P (.float s))
    (str : ∀ s, P (.str s)) (arr : ∀ items, Q items → P (.arr items))
    (obj : ∀ fields, R fields → P (.obj fields)) (noItems : Q [])
    (item : ∀ v items, P v → Q items → Q (v :: items)) (noFields : R [])
    (field : ∀ f fields, P f.2 → R fields → R (f :: fields)) (value : Json) : P value :=
  @Json.rec P Q R (fun f ↦ P f.2) null bool int float str arr obj noItems item noFields field
    (fun _ _ h ↦ h) value

/-- A text a header can hold once its control characters are escaped. -/
def plainText (http : HeaderText) (text : String) : Bool :=
  text.toList.all fun c ↦ decide (c.toNat < 32) || http.takes c

mutual

/-- Every text in a value is plain, and so is the name of every field. -/
def plain (http : HeaderText) : Json → Bool
  | .str text => plainText http text
  | .arr items => plainItems http items
  | .obj fields => plainFields http fields
  | _ => true

def plainItems (http : HeaderText) : List Json → Bool
  | [] => true
  | item :: items => plain http item && plainItems http items

def plainFields (http : HeaderText) : List (String × Json) → Bool
  | [] => true
  | (name, value) :: fields => plainText http name && plain http value && plainFields http fields

end

/-- Fields are plain when every name and every value is. -/
theorem plainFields_iff {http : HeaderText} {fields : List (String × Json)} :
    plainFields http fields = true ↔
      ∀ f ∈ fields, plainText http f.1 = true ∧ f.2.plain http = true := by
  induction fields with
  | nil => simp [plainFields]
  | cons f fields ih => simp [plainFields, ih]

/-- Every text is plain for a header that can hold what need not be escaped. -/
theorem plain_of_takes {http : HeaderText}
    (h : ∀ c : Char, (decide (c.toNat < 32) || http.takes c) = true) (v : Json) :
    v.plain http = true := by
  have htext : ∀ text, plainText http text = true := fun text ↦
    List.all_eq_true.mpr fun c _ ↦ h c
  induction v using Json.induct
      (Q := fun items ↦ plainItems http items = true)
      (R := fun fields ↦ plainFields http fields = true) with
  | str text => exact htext text
  | arr items ih => exact ih
  | obj fields ih => exact ih
  | item v items ihv ih => rw [plainItems, ihv, ih, Bool.and_true]
  | field f fields ihv ih => rw [plainFields, htext, ihv, ih, Bool.and_true, Bool.and_true]
  | _ => rfl

/-! ### Values that are read back -/

mutual

/-- `serde_json` reads the printed value back: it is nested so many levels deep at most, and no
object in it begins with the key of a raw value. -/
def readable : Json → Nat → Bool
  | .arr items, levels => decide (0 < levels) && readableItems items (levels - 1)
  | .obj fields, levels =>
    decide (0 < levels) && (fields.map Prod.fst).head? != some RAW_VALUE &&
      readableFields fields (levels - 1)
  | _, _ => true

def readableItems : List Json → Nat → Bool
  | [], _ => true
  | item :: items, levels => readable item levels && readableItems items levels

def readableFields : List (String × Json) → Nat → Bool
  | [], _ => true
  | (_, value) :: fields, levels => readable value levels && readableFields fields levels

end

mutual

/-- An object in the value has the key of a raw value and no other. -/
def hidesRaw : Json → Bool
  | .arr items => hidesRawItems items
  | .obj fields => fields.map Prod.fst == [RAW_VALUE] || hidesRawFields fields
  | _ => false

def hidesRawItems : List Json → Bool
  | [] => false
  | item :: items => hidesRaw item || hidesRawItems items

def hidesRawFields : List (String × Json) → Bool
  | [] => false
  | (_, value) :: fields => hidesRaw value || hidesRawFields fields

end

/-- An object that is read back hides no raw value. -/
theorem hidesRaw_of_readable (v : Json) :
    ∀ levels, v.readable levels = true → v.hidesRaw = false := by
  induction v using Json.induct
      (Q := fun items ↦ ∀ levels, readableItems items levels = true → hidesRawItems items = false)
      (R := fun fields ↦
        ∀ levels, readableFields fields levels = true → hidesRawFields fields = false) with
  | arr items ih =>
    intro levels h
    rw [readable, Bool.and_eq_true] at h
    exact ih _ h.2
  | obj fields ih =>
    intro levels h
    rw [readable, Bool.and_eq_true, Bool.and_eq_true, bne_iff_ne] at h
    rw [hidesRaw, ih _ h.2, Bool.or_false, beq_eq_false_iff_ne]
    intro hkeys
    rw [hkeys] at h
    exact h.1.2 rfl
  | item v items ihv ih levels h =>
    rw [readableItems, Bool.and_eq_true] at h
    rw [hidesRawItems, ihv _ h.1, ih _ h.2, Bool.or_false]
  | field f fields ihv ih levels h =>
    rw [readableFields, Bool.and_eq_true] at h
    rw [hidesRawFields, ihv _ h.1, ih _ h.2, Bool.or_false]
  | noItems | noFields => rfl
  | _ => exact fun _ _ ↦ rfl

mutual

/-- The value with other texts, and without the digits of its numbers that are no integers. -/
def relabel (texts : String → String) : Json → Json
  | .float _ => .float ""
  | .str text => .str (texts text)
  | .arr items => .arr (relabelItems texts items)
  | .obj fields => .obj (relabelFields texts fields)
  | value => value

def relabelItems (texts : String → String) : List Json → List Json
  | [] => []
  | item :: items => relabel texts item :: relabelItems texts items

def relabelFields (texts : String → String) : List (String × Json) → List (String × Json)
  | [] => []
  | (name, value) :: fields => (name, relabel texts value) :: relabelFields texts fields

end

/-- The value up to the digits of its numbers. -/
def rounded (v : Json) : Json := v.relabel id

/-- The value up to its texts and numbers. -/
def shape (v : Json) : Json := v.relabel fun _ ↦ ""

section

variable {texts : String → String}

private theorem relabelFields_eq (fields : List (String × Json)) :
    relabelFields texts fields = fields.map fun f ↦ (f.1, f.2.relabel texts) := by
  induction fields with
  | nil => rfl
  | cons f fields ih => rw [relabelFields, ih, List.map_cons]

private theorem field_relabelFields (fields : List (String × Json)) (name : String) :
    field (relabelFields texts fields) name = (field fields name).map (relabel texts) := by
  induction fields with
  | nil => rfl
  | cons f fields ih =>
    rw [relabelFields, field, field]
    split
    · rfl
    · exact ih

/-- What is read back of a value depends on its shape only. -/
theorem readable_relabel (v : Json) :
    ∀ levels, (v.relabel texts).readable levels = v.readable levels := by
  induction v using Json.induct
      (Q := fun items ↦
        ∀ levels, readableItems (relabelItems texts items) levels = readableItems items levels)
      (R := fun fields ↦
        ∀ levels, readableFields (relabelFields texts fields) levels =
          readableFields fields levels) with
  | arr items ih =>
    intro levels
    rw [relabel, readable, readable, ih]
  | obj fields ih =>
    intro levels
    rw [relabel, readable, readable, ih, relabelFields_eq, List.map_map]
    rfl
  | item v items ihv ih levels =>
    rw [relabelItems, readableItems, readableItems, ihv, ih]
  | field f fields ihv ih levels =>
    rw [relabelFields, readableFields, readableFields, ihv, ih]
  | noItems | noFields => rfl
  | _ => exact fun _ ↦ rfl

private theorem hidesRaw_relabel (v : Json) : (v.relabel texts).hidesRaw = v.hidesRaw := by
  induction v using Json.induct
      (Q := fun items ↦ hidesRawItems (relabelItems texts items) = hidesRawItems items)
      (R := fun fields ↦ hidesRawFields (relabelFields texts fields) = hidesRawFields fields) with
  | arr items ih => rw [relabel, hidesRaw, hidesRaw, ih]
  | obj fields ih =>
    rw [relabel, hidesRaw, hidesRaw, ih, relabelFields_eq, List.map_map]
    rfl
  | item v items ihv ih => rw [relabelItems, hidesRawItems, hidesRawItems, ihv, ih]
  | field f fields ihv ih => rw [relabelFields, hidesRawFields, hidesRawFields, ihv, ih]
  | _ => rfl

end

/-- Values of one shape are read back alike. -/
theorem readable_of_shape {v v' : Json} (h : v.shape = v'.shape) (levels : Nat) :
    v.readable levels = v'.readable levels := by
  calc v.readable levels = v.shape.readable levels := (readable_relabel v levels).symm
    _ = v'.shape.readable levels := by rw [h]
    _ = v'.readable levels := readable_relabel v' levels

/-- Values of one shape hide a raw value alike. -/
theorem hidesRaw_of_shape {v v' : Json} (h : v.shape = v'.shape) : v.hidesRaw = v'.hidesRaw := by
  calc v.hidesRaw = v.shape.hidesRaw := (hidesRaw_relabel v).symm
    _ = v'.shape.hidesRaw := by rw [h]
    _ = v'.hidesRaw := hidesRaw_relabel v'

/-- Digits are no part of a text. -/
theorem asStr_rounded (v : Json) : v.rounded.asStr = v.asStr := by
  cases v <;> rfl

/-- Digits are plain. -/
theorem plain_rounded (http : HeaderText) (v : Json) : v.rounded.plain http = v.plain http := by
  unfold rounded
  induction v using Json.induct
      (Q := fun items ↦ plainItems http (relabelItems id items) = plainItems http items)
      (R := fun fields ↦ plainFields http (relabelFields id fields) = plainFields http fields) with
  | arr items ih => exact ih
  | obj fields ih => exact ih
  | item v items ihv ih => rw [relabelItems, plainItems, plainItems, ihv, ih]
  | field f fields ihv ih => rw [relabelFields, plainFields, plainFields, ihv, ih]
  | _ => rfl

/-- A text is a text of these characters whatever its digits. -/
theorem rounded_eq_str {v : Json} {text : String} : v.rounded = .str text ↔ v = .str text := by
  cases v with
  | str text' => exact Iff.rfl
  | _ => exact ⟨fun h ↦ (by cases h), fun h ↦ (by cases h)⟩

/-- An object is one whatever its digits. -/
theorem rounded_eq_obj {v : Json} {fields : List (String × Json)}
    (h : v.rounded = (Json.obj fields).rounded) :
    ∃ fields', v = .obj fields' ∧ ∀ name,
      (field fields' name).map rounded = (field fields name).map rounded := by
  cases v with
  | obj fields' =>
    refine ⟨fields', rfl, fun name ↦ ?_⟩
    have hfields : relabelFields id fields' = relabelFields id fields := Json.obj.inj h
    exact (field_relabelFields fields' name).symm.trans
      ((congrArg (field · name) hfields).trans (field_relabelFields fields name))
  | _ => cases h

end Json
end Xxgate.Core

namespace Xxgate.Codex

open Xxgate.Core Json

/-- What is relied on of printed JSON. -/
structure JsonText.Faithful (t : JsonText) : Prop where
  /-- A reader reads what was printed. -/
  reads : ∀ value, t.read (t.print value) = some value
  /-- `serde_json` reads it back up to the last digits of its numbers, at most 127 levels deep. -/
  rereads : ∀ value, value.hidesRaw = false → value.readable 127 = true →
    ∃ value', t.parse (t.print value) = some value' ∧ value'.rounded = value.rounded
  /-- It refuses what is nested deeper, and an object that begins with the key of a raw value and
  holds more. -/
  refuses : ∀ value, value.hidesRaw = false → value.readable 127 = false →
    t.parse (t.print value) = none
  /-- An object with the key of a raw value alone is read as the raw value. -/
  parsed : ∀ text value, t.parse text = some value → value.hidesRaw = false
  /-- Control characters are escaped, no others are, and numbers are visible. -/
  plain : ∀ (http : HeaderText) value, http.fits (t.print value) = value.plain http
  /-- A text stands in quotes in what it is parsed from. -/
  shorter : ∀ text fields, t.parse text = some (.obj fields) → ∀ f ∈ fields, ∀ s, f.2 = .str s →
    s.utf8ByteSize < text.utf8ByteSize

/-- What is read back of a printed value. -/
theorem JsonText.Faithful.reread {t : JsonText} (ht : t.Faithful) {value value' : Json}
    (hraw : value.hidesRaw = false) (h : t.parse (t.print value) = some value') :
    value'.rounded = value.rounded := by
  cases hreadable : value.readable 127 with
  | false =>
    rw [ht.refuses value hraw hreadable] at h
    cases h
  | true =>
    obtain ⟨value'', hparse, hrounded⟩ := ht.rereads value hraw hreadable
    rw [h] at hparse
    cases hparse
    exact hrounded

/-! ### A printer -/

/-- A character in quotes. -/
def escape (c : Char) : List Char :=
  if c = '"' ∨ c = '\\' then ['\\', c]
  else if c.toNat < 32 then
    ['\\', 'u', '0', '0', Nat.digitChar (c.toNat / 16), Nat.digitChar (c.toNat % 16)]
  else [c]

/-- A character of a number that is no integer. -/
def stroke (c : Char) : List Char := List.replicate c.toNat '1' ++ [',']

/-- A text in quotes. -/
def quoted (text : String) : List Char := '"' :: (text.toList.flatMap escape ++ ['"'])

mutual

/-- A printed value; a number is not written as it is in JSON. -/
def written : Json → List Char
  | .null => ['n', 'u', 'l', 'l']
  | .bool true => ['t', 'r', 'u', 'e']
  | .bool false => ['f', 'a', 'l', 's', 'e']
  | .int n => '#' :: (if n < 0 then '-' else '+') :: (List.replicate n.natAbs '1' ++ ['.'])
  | .float text => '~' :: (text.toList.flatMap stroke ++ ['.'])
  | .str text => quoted text
  | .arr [] => ['[', ']']
  | .arr (item :: items) => '[' :: (written item ++ writtenItems items)
  | .obj [] => ['{', '}']
  | .obj ((name, value) :: fields) =>
    '{' :: (quoted name ++ ':' :: (written value ++ writtenFields fields))

def writtenItems : List Json → List Char
  | [] => [']']
  | item :: items => ',' :: (written item ++ writtenItems items)

def writtenFields : List (String × Json) → List Char
  | [] => ['}']
  | (name, value) :: fields =>
    ',' :: (quoted name ++ ':' :: (written value ++ writtenFields fields))

end

/-- What stands for a character is not a closing quote. -/
theorem escape_ne_quote (c : Char) : ∃ first rest, escape c = first :: rest ∧ first ≠ '"' := by
  unfold escape
  split
  · exact ⟨_, _, rfl, by decide⟩
  · next hquote =>
    split
    · exact ⟨_, _, rfl, by decide⟩
    · exact ⟨_, _, rfl, fun h ↦ hquote (.inl h)⟩

private theorem digitChar_inj :
    ∀ d < 16, ∀ d' < 16, Nat.digitChar d = Nat.digitChar d' → d = d' := by
  decide

/-- What stands for a character can be read off the front of a text. -/
theorem escape_append_inj {c c' : Char} {r r' : List Char} (h : escape c ++ r = escape c' ++ r') :
    c = c' ∧ r = r' := by
  have hu : ∀ {c : Char}, c = '"' ∨ c = '\\' → c ≠ 'u' := by
    rintro c (rfl | rfl) <;> decide
  unfold escape at h
  by_cases hc : c = '"' ∨ c = '\\'
  · rw [if_pos hc] at h
    by_cases hc' : c' = '"' ∨ c' = '\\'
    · rw [if_pos hc'] at h
      simpa using h
    · rw [if_neg hc'] at h
      split at h
      · simp [hu hc] at h
      · simp only [List.cons_append, List.nil_append, List.cons.injEq] at h
        exact absurd (.inr h.1.symm) hc'
  · rw [if_neg hc] at h
    by_cases hcontrol : c.toNat < 32
    · rw [if_pos hcontrol] at h
      by_cases hc' : c' = '"' ∨ c' = '\\'
      · rw [if_pos hc'] at h
        simp [Ne.symm (hu hc')] at h
      · rw [if_neg hc'] at h
        by_cases hcontrol' : c'.toNat < 32
        · rw [if_pos hcontrol'] at h
          simp only [List.cons_append, List.nil_append, List.cons.injEq, true_and] at h
          have hhigh := digitChar_inj _ (by omega) _ (by omega) h.1
          have hlow := digitChar_inj _ (by omega) _ (by omega) h.2.1
          exact ⟨Char.ext (UInt32.toNat_inj.mp (show c.toNat = c'.toNat by omega)), h.2.2⟩
        · rw [if_neg hcontrol'] at h
          simp only [List.cons_append, List.nil_append, List.cons.injEq] at h
          exact absurd (.inr h.1.symm) hc'
    · rw [if_neg hcontrol] at h
      by_cases hc' : c' = '"' ∨ c' = '\\'
      · rw [if_pos hc'] at h
        simp only [List.cons_append, List.nil_append, List.cons.injEq] at h
        exact absurd (.inr h.1) hc
      · rw [if_neg hc'] at h
        split at h
        · simp only [List.cons_append, List.nil_append, List.cons.injEq] at h
          exact absurd (.inr h.1) hc
        · simpa using h

/-- A text in quotes can be read off the front of a text. -/
theorem quoted_append_inj {s s' : String} {r r' : List Char}
    (h : quoted s ++ r = quoted s' ++ r') : s = s' ∧ r = r' := by
  have hlists : ∀ l l' : List Char, l.flatMap escape ++ '"' :: r = l'.flatMap escape ++ '"' :: r' →
      l = l' ∧ r = r' := by
    intro l
    induction l with
    | nil =>
      intro l' h
      cases l' with
      | nil => simpa using h
      | cons c' l' =>
        obtain ⟨first, rest, hescape, hfirst⟩ := escape_ne_quote c'
        rw [List.flatMap_cons, hescape] at h
        exact absurd (List.cons.inj h).1.symm hfirst
    | cons c l ih =>
      intro l' h
      cases l' with
      | nil =>
        obtain ⟨first, rest, hescape, hfirst⟩ := escape_ne_quote c
        rw [List.flatMap_cons, hescape] at h
        exact absurd (List.cons.inj h).1 hfirst
      | cons c' l' =>
        rw [List.flatMap_cons, List.flatMap_cons, List.append_assoc, List.append_assoc] at h
        obtain ⟨rfl, hrest⟩ := escape_append_inj h
        obtain ⟨rfl, hr⟩ := ih l' hrest
        exact ⟨rfl, hr⟩
  unfold quoted at h
  simp only [List.cons_append, List.append_assoc, List.cons.injEq, true_and] at h
  obtain ⟨hs, hr⟩ := hlists _ _ h
  exact ⟨String.toList_inj.mp hs, hr⟩

/-- A number that is no integer can be read off the front of a text. -/
theorem strokes_append_inj {s s' : String} {r r' : List Char}
    (h : s.toList.flatMap stroke ++ '.' :: r = s'.toList.flatMap stroke ++ '.' :: r') :
    s = s' ∧ r = r' := by
  have hstroke : ∀ (k k' : Nat) (a a' : List Char),
      List.replicate k '1' ++ ',' :: a = List.replicate k' '1' ++ ',' :: a' → k = k' ∧ a = a' := by
    intro k
    induction k with
    | zero =>
      intro k' a a' h
      cases k' with
      | zero => simpa using h
      | succ k' => simp [List.replicate_succ] at h
    | succ k ih =>
      intro k' a a' h
      cases k' with
      | zero => simp [List.replicate_succ] at h
      | succ k' =>
        rw [List.replicate_succ, List.replicate_succ] at h
        obtain ⟨rfl, ha⟩ := ih k' a a' (List.cons.inj h).2
        exact ⟨rfl, ha⟩
  have hdot : ∀ (c : Char) (a b : List Char), '.' :: a ≠ stroke c ++ b := by
    intro c a b h
    unfold stroke at h
    cases hc : c.toNat with
    | zero => simp [hc] at h
    | succ n => simp [hc, List.replicate_succ] at h
  have hlists : ∀ l l' : List Char, l.flatMap stroke ++ '.' :: r = l'.flatMap stroke ++ '.' :: r' →
      l = l' ∧ r = r' := by
    intro l
    induction l with
    | nil =>
      intro l' h
      cases l' with
      | nil => simpa using h
      | cons c' l' =>
        rw [List.flatMap_nil, List.nil_append, List.flatMap_cons, List.append_assoc] at h
        exact absurd h (hdot _ _ _)
    | cons c l ih =>
      intro l' h
      cases l' with
      | nil =>
        rw [List.flatMap_nil, List.nil_append, List.flatMap_cons, List.append_assoc] at h
        exact absurd h.symm (hdot _ _ _)
      | cons c' l' =>
        simp only [List.flatMap_cons, stroke, List.append_assoc, List.singleton_append] at h
        obtain ⟨hc, hrest⟩ := hstroke _ _ _ _ h
        obtain ⟨rfl, hr⟩ := ih l' hrest
        exact ⟨congrArg (· :: l) (Char.ext (UInt32.toNat_inj.mp hc)), hr⟩
  obtain ⟨hs, hr⟩ := hlists _ _ h
  exact ⟨String.toList_inj.mp hs, hr⟩

/-- An integer can be read off the front of a text. -/
theorem writtenInt_append_inj {n n' : Int} {r r' : List Char}
    (h : written (.int n) ++ r = written (.int n') ++ r') : n = n' ∧ r = r' := by
  have hlists : ∀ k k' : Nat, List.replicate k '1' ++ '.' :: r =
      List.replicate k' '1' ++ '.' :: r' → k = k' ∧ r = r' := by
    intro k
    induction k with
    | zero =>
      intro k' h
      cases k' with
      | zero => simpa using h
      | succ k' => simp [List.replicate_succ] at h
    | succ k ih =>
      intro k' h
      cases k' with
      | zero => simp [List.replicate_succ] at h
      | succ k' =>
        rw [List.replicate_succ, List.replicate_succ] at h
        obtain ⟨rfl, hr⟩ := ih k' (List.cons.inj h).2
        exact ⟨rfl, hr⟩
  simp only [written, List.cons_append, List.append_assoc, List.nil_append, List.cons.injEq,
    true_and] at h
  obtain ⟨habs, hr⟩ := hlists _ _ h.2
  refine ⟨?_, hr⟩
  have hsign := h.1
  split at hsign
  · split at hsign
    · omega
    · cases hsign
  · split at hsign
    · cases hsign
    · omega

/-- The character a printed value begins with. -/
def first : Json → Char
  | .null => 'n'
  | .bool true => 't'
  | .bool false => 'f'
  | .int _ => '#'
  | .float _ => '~'
  | .str _ => '"'
  | .arr _ => '['
  | .obj _ => '{'

private theorem head?_written_append (v : Json) (r : List Char) :
    (written v ++ r).head? = some (first v) := by
  cases v with
  | bool b => cases b <;> simp [written, first]
  | arr items => cases items <;> simp [written, first]
  | obj fields => cases fields <;> simp [written, first]
  | _ => simp [written, quoted, first]

private theorem first_ne_bracket (v : Json) : first v ≠ ']' := by
  cases v with
  | bool b => cases b <;> decide
  | _ => exact ne_of_beq_false rfl

/-- Values that begin alike are of one kind. -/
theorem first_eq {v v' : Json} {r r' : List Char} (h : written v ++ r = written v' ++ r') :
    first v = first v' := by
  have hhead := congrArg List.head? h
  rwa [head?_written_append, head?_written_append, Option.some.injEq] at hhead

/-- The items of an array follow its bracket as they follow a comma, but for the comma. -/
theorem writtenItems_of_arr {items items' : List Json} {r r' : List Char}
    (h : written (.arr items) ++ r = written (.arr items') ++ r') :
    writtenItems items ++ r = writtenItems items' ++ r' := by
  cases items with
  | nil =>
    cases items' with
    | nil => simpa [written, writtenItems] using h
    | cons v' items' =>
      have hhead := congrArg List.head? (List.cons.inj h).2
      change some ']' = (written v' ++ writtenItems items' ++ r').head? at hhead
      rw [List.append_assoc, head?_written_append] at hhead
      exact absurd (Option.some.inj hhead).symm (first_ne_bracket v')
  | cons v items =>
    cases items' with
    | nil =>
      have hhead := congrArg List.head? (List.cons.inj h).2
      change (written v ++ writtenItems items ++ r).head? = some ']' at hhead
      rw [List.append_assoc, head?_written_append] at hhead
      exact absurd (Option.some.inj hhead) (first_ne_bracket v)
    | cons v' items' => simpa [written, writtenItems] using h

/-- The fields of an object follow its brace as they follow a comma, but for the comma. -/
theorem writtenFields_of_obj {fields fields' : List (String × Json)} {r r' : List Char}
    (h : written (.obj fields) ++ r = written (.obj fields') ++ r') :
    writtenFields fields ++ r = writtenFields fields' ++ r' := by
  cases fields with
  | nil =>
    cases fields' with
    | nil => simpa [written, writtenFields] using h
    | cons f' fields' => simp [written, quoted] at h
  | cons f fields =>
    cases fields' with
    | nil => simp [written, quoted] at h
    | cons f' fields' => simpa [written, writtenFields] using h

/-- A printed value can be read off the front of a text. -/
theorem written_append_inj (v : Json) : ∀ v' r r', written v ++ r = written v' ++ r' →
    v = v' ∧ r = r' := by
  induction v using Json.induct
      (Q := fun items ↦ ∀ items' r r', writtenItems items ++ r = writtenItems items' ++ r' →
        items = items' ∧ r = r')
      (R := fun fields ↦ ∀ fields' r r', writtenFields fields ++ r = writtenFields fields' ++ r' →
        fields = fields' ∧ r = r') with
  | null =>
    intro v' r r' h
    cases v' with
    | null => simpa [written] using h
    | bool b => cases b <;> exact absurd (first_eq h) (by decide)
    | _ => exact absurd (first_eq h) (by simp [first])
  | bool b =>
    intro v' r r' h
    cases v' with
    | bool b' => cases b <;> cases b' <;> simp_all [written]
    | _ => cases b <;> exact absurd (first_eq h) (by simp [first])
  | int n =>
    intro v' r r' h
    cases v' with
    | int n' =>
      obtain ⟨rfl, hr⟩ := writtenInt_append_inj h
      exact ⟨rfl, hr⟩
    | bool b => cases b <;> exact absurd (first_eq h) (by simp [first])
    | _ => exact absurd (first_eq h) (by simp [first])
  | float s =>
    intro v' r r' h
    cases v' with
    | float s' =>
      simp only [written, List.cons_append, List.append_assoc, List.nil_append, List.cons.injEq,
        true_and] at h
      obtain ⟨rfl, hr⟩ := strokes_append_inj h
      exact ⟨rfl, hr⟩
    | bool b => cases b <;> exact absurd (first_eq h) (by simp [first])
    | _ => exact absurd (first_eq h) (by simp [first])
  | str s =>
    intro v' r r' h
    cases v' with
    | str s' =>
      obtain ⟨rfl, hr⟩ := quoted_append_inj h
      exact ⟨rfl, hr⟩
    | bool b => cases b <;> exact absurd (first_eq h) (by simp [first])
    | _ => exact absurd (first_eq h) (by simp [first])
  | arr items ih =>
    intro v' r r' h
    cases v' with
    | arr items' =>
      obtain ⟨rfl, hr⟩ := ih items' r r' (writtenItems_of_arr h)
      exact ⟨rfl, hr⟩
    | bool b => cases b <;> exact absurd (first_eq h) (by simp [first])
    | _ => exact absurd (first_eq h) (by simp [first])
  | obj fields ih =>
    intro v' r r' h
    cases v' with
    | obj fields' =>
      obtain ⟨rfl, hr⟩ := ih fields' r r' (writtenFields_of_obj h)
      exact ⟨rfl, hr⟩
    | bool b => cases b <;> exact absurd (first_eq h) (by simp [first])
    | _ => exact absurd (first_eq h) (by simp [first])
  | noItems items' r r' h =>
    cases items' with
    | nil => simpa [writtenItems] using h
    | cons v' items' => simp [writtenItems] at h
  | item v items ihv ih items' r r' h =>
    cases items' with
    | nil => simp [writtenItems] at h
    | cons v' items' =>
      simp only [writtenItems, List.cons_append, List.append_assoc, List.cons.injEq, true_and] at h
      obtain ⟨rfl, hrest⟩ := ihv v' _ _ h
      obtain ⟨rfl, hr⟩ := ih items' r r' hrest
      exact ⟨rfl, hr⟩
  | noFields fields' r r' h =>
    cases fields' with
    | nil => simpa [writtenFields] using h
    | cons f' fields' => simp [writtenFields] at h
  | field f fields ihv ih fields' r r' h =>
    cases fields' with
    | nil => simp [writtenFields] at h
    | cons f' fields' =>
      simp only [writtenFields, List.cons_append, List.append_assoc, List.cons.injEq, true_and] at h
      obtain ⟨hname, hvalue⟩ := quoted_append_inj h
      obtain ⟨hv, hrest⟩ := ihv f'.2 _ _ (List.cons.inj hvalue).2
      obtain ⟨rfl, hr⟩ := ih fields' r r' hrest
      exact ⟨congrArg (· :: fields) (Prod.ext hname hv), hr⟩

/-- A text of characters from this list, which are all visible. -/
theorem all_takes (http : HeaderText) {l : List Char}
    (h : ∀ c ∈ l, 32 ≤ c.toNat ∧ c.toNat < 127) : l.all http.takes = true :=
  List.all_eq_true.mpr fun c hc ↦ http.visible c (h c hc).1 (h c hc).2

private theorem visible_takes (http : HeaderText) {l : List Char}
    (h : (l.all fun c ↦ decide (32 ≤ c.toNat ∧ c.toNat < 127)) = true) :
    l.all http.takes = true :=
  all_takes http fun c hc ↦ of_decide_eq_true (List.all_eq_true.mp h c hc)

/-- A header can hold what stands for a character if it can hold the character or need not. -/
theorem escape_takes (http : HeaderText) (c : Char) :
    (escape c).all http.takes = (decide (c.toNat < 32) || http.takes c) := by
  unfold escape
  split
  · next hquote =>
    have hvisible : 32 ≤ c.toNat ∧ c.toNat < 127 := by
      rcases hquote with rfl | rfl <;> decide
    rw [all_takes http (List.forall_mem_cons.mpr ⟨by decide, by simpa using hvisible⟩),
      http.visible c hvisible.1 hvisible.2, Bool.or_true]
  · split
    · next hcontrol =>
      have hdigit : ∀ d < 16, 32 ≤ (Nat.digitChar d).toNat ∧ (Nat.digitChar d).toNat < 127 := by
        decide
      have hall : ∀ c' ∈ ['\\', 'u', '0', '0', Nat.digitChar (c.toNat / 16),
          Nat.digitChar (c.toNat % 16)], 32 ≤ c'.toNat ∧ c'.toNat < 127 := by
        simp only [List.forall_mem_cons, List.not_mem_nil, false_implies, implies_true, and_true]
        exact ⟨by decide, by decide, by decide, by decide, hdigit _ (by omega),
          hdigit _ (by omega)⟩
      rw [all_takes http hall, decide_eq_true hcontrol, Bool.true_or]
    · next hvisible => simp [hvisible]

private theorem quoted_takes (http : HeaderText) (s : String) :
    (quoted s).all http.takes = plainText http s := by
  have hquote : http.takes '"' = true := http.visible '"' (by decide) (by decide)
  unfold quoted plainText
  simp only [List.all_cons, List.all_append, List.all_flatMap, List.all_nil, escape_takes, hquote,
    Bool.true_and, Bool.and_true]

/-- A header can hold a printed value if its texts are plain. -/
theorem written_takes (http : HeaderText) (v : Json) :
    (written v).all http.takes = v.plain http := by
  have hchar : ∀ c : Char, 32 ≤ c.toNat → c.toNat < 127 → http.takes c = true := http.visible
  have hcomma : http.takes ',' = true := hchar ',' (by decide) (by decide)
  have hcolon : http.takes ':' = true := hchar ':' (by decide) (by decide)
  induction v using Json.induct
      (Q := fun items ↦ (writtenItems items).all http.takes = plainItems http items)
      (R := fun fields ↦ (writtenFields fields).all http.takes = plainFields http fields) with
  | null => exact visible_takes http (by decide)
  | bool b => cases b <;> exact visible_takes http (by decide)
  | int n =>
    rw [written]
    refine all_takes http fun c hc ↦ ?_
    simp only [List.mem_cons, List.mem_append, List.mem_replicate, List.not_mem_nil,
      or_false] at hc
    rcases hc with rfl | rfl | ⟨-, rfl⟩ | rfl
    · decide
    · split <;> decide
    · decide
    · decide
  | float s =>
    rw [written]
    refine all_takes http fun c hc ↦ ?_
    simp only [stroke, List.mem_cons, List.mem_append, List.mem_flatMap, List.mem_replicate,
      List.not_mem_nil, or_false] at hc
    rcases hc with rfl | ⟨_, -, ⟨-, rfl⟩ | rfl⟩ | rfl <;> decide
  | str s => exact quoted_takes http s
  | arr items ih =>
    cases items with
    | nil => exact visible_takes http (by decide)
    | cons v items =>
      rw [writtenItems, List.all_cons, hcomma, Bool.true_and] at ih
      rw [written, List.all_cons, hchar '[' (by decide) (by decide), Bool.true_and]
      exact ih
  | obj fields ih =>
    cases fields with
    | nil => exact visible_takes http (by decide)
    | cons f fields =>
      rw [writtenFields, List.all_cons, hcomma, Bool.true_and] at ih
      rw [written, List.all_cons, hchar '{' (by decide) (by decide), Bool.true_and]
      exact ih
  | noItems => exact visible_takes http (by decide)
  | item v items ihv ih =>
    rw [writtenItems, List.all_cons, List.all_append, hcomma, ihv, ih]
    rfl
  | noFields => exact visible_takes http (by decide)
  | field f fields ihv ih =>
    rw [writtenFields, List.all_cons, List.all_append, List.all_cons, List.all_append, hcomma,
      hcolon, quoted_takes, ihv, ih, plainFields, Bool.true_and, Bool.true_and, Bool.and_assoc]

open Classical in
/-- The printer, with a reader of what it prints and nothing else, and a parser that reads back
what `serde_json` does. -/
noncomputable def writer : JsonText where
  print v := String.ofList (written v)
  read text := if h : ∃ v, text = String.ofList (written v) then some h.choose else none
  parse text := (if h : ∃ v, text = String.ofList (written v) then some h.choose else none).filter
    (·.readable 127)

private theorem writer_read {text : String} {v : Json} :
    writer.read text = some v ↔ text = writer.print v := by
  have hsame : ∀ {v v' : Json}, writer.print v = writer.print v' → v = v' := by
    intro v v' h
    have hlists : written v ++ [] = written v' ++ [] := by
      rw [List.append_nil, List.append_nil]
      exact String.ofList_injective h
    exact (written_append_inj v v' [] [] hlists).1
  unfold writer
  dsimp only
  split
  · next h =>
    rw [Option.some.injEq]
    exact ⟨fun heq ↦ heq ▸ h.choose_spec, fun heq ↦ hsame (h.choose_spec.symm.trans heq)⟩
  · next h =>
    constructor
    · intro hv
      cases hv
    · exact fun heq ↦ absurd ⟨v, heq⟩ h

private theorem writer_parse {text : String} {v : Json} :
    writer.parse text = some v ↔ text = writer.print v ∧ v.readable 127 = true := by
  rw [← writer_read]
  exact Option.filter_eq_some_iff

/-- A text in quotes is longer. -/
theorem utf8ByteSize_quoted (s : String) :
    s.utf8ByteSize < (String.ofList (quoted s)).utf8ByteSize := by
  have hescape : ∀ c : Char, c.utf8Size ≤ (String.ofList (escape c)).utf8ByteSize := by
    intro c
    unfold escape
    split
    · rw [utf8ByteSize_cons, utf8ByteSize_cons]
      omega
    · split
      · next hcontrol =>
        have hone : c.utf8Size = 1 := by
          have hone : c.val ≤ 0x7F := UInt32.le_iff_toNat_le.mpr (by
            change c.toNat ≤ 127
            omega)
          exact if_pos hone
        have hslash : '\\'.utf8Size = 1 := by decide
        rw [utf8ByteSize_cons, hone, hslash]
        omega
      · rw [utf8ByteSize_cons]
        omega
  have hlist : ∀ l : List Char,
      (String.ofList l).utf8ByteSize ≤ (String.ofList (l.flatMap escape)).utf8ByteSize := by
    intro l
    induction l with
    | nil => exact Nat.le_refl _
    | cons c l ih =>
      have hc := hescape c
      rw [List.flatMap_cons, utf8ByteSize_append, utf8ByteSize_cons]
      omega
  have hs := hlist s.toList
  have hquote : '"'.utf8Size = 1 := by decide
  rw [String.ofList_toList] at hs
  rw [quoted, utf8ByteSize_cons, utf8ByteSize_append, hquote]
  omega

/-- The value of a field stands in what is written for the object. -/
theorem written_sublist {fields : List (String × Json)} {f : String × Json} (hf : f ∈ fields) :
    (written f.2).Sublist (written (.obj fields)) := by
  have htail : ∀ {fields : List (String × Json)}, f ∈ fields →
      (written f.2).Sublist (writtenFields fields) := by
    intro fields hf
    induction fields with
    | nil => cases hf
    | cons first fields ih =>
      rw [writtenFields]
      refine .cons _ ((List.Sublist.cons _ ?_).trans (List.sublist_append_right _ _))
      rcases List.mem_cons.mp hf with rfl | hf
      · exact List.sublist_append_left _ _
      · exact (ih hf).trans (List.sublist_append_right _ _)
  cases fields with
  | nil => cases hf
  | cons first fields =>
    rw [written]
    refine .cons _ ((List.Sublist.cons _ ?_).trans (List.sublist_append_right _ _))
    rcases List.mem_cons.mp hf with rfl | hf
    · exact List.sublist_append_left _ _
    · exact (htail hf).trans (List.sublist_append_right _ _)

/-- The printer is as it is relied on. -/
theorem writer_faithful : writer.Faithful where
  reads v := writer_read.mpr rfl
  rereads v _ hreadable := ⟨v, writer_parse.mpr ⟨rfl, hreadable⟩, rfl⟩
  refuses v _ hunread := by
    refine Option.eq_none_iff_forall_ne_some.mpr fun v' hv' ↦ ?_
    obtain ⟨hprint, hreadable⟩ := writer_parse.mp hv'
    have hsame := (writer_read.mpr rfl).symm.trans (writer_read.mpr hprint)
    cases hsame
    rw [hunread] at hreadable
    cases hreadable
  parsed text v hparse := hidesRaw_of_readable v 127 (writer_parse.mp hparse).2
  plain http v := by
    rw [← written_takes, HeaderText.fits]
    unfold writer
    rw [String.toList_ofList]
  shorter text fields hparse f hf s hs := by
    rw [(writer_parse.mp hparse).1]
    have hpart := written_sublist hf
    rw [hs, written] at hpart
    exact Nat.lt_of_lt_of_le (utf8ByteSize_quoted s) (utf8ByteSize_le_of_sublist hpart)

end Xxgate.Codex

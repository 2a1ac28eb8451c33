import Mathlib.Data.List.Basic
import Mathlib.Algebra.GroupWithZero.Nat

/-!
# Capturing turn states

`crates/xxgate-core/src/turn_state.rs:1–74`. A header value is any bytes. What a panic would be
is none, and the Base64 encoder is a parameter.
-/

namespace Xxgate.Core.TurnState

/-- `turn_state.rs:7`. -/
def MAX_BYTES : Nat := 64 * 1024

/-- `turn_state.rs:8`. -/
def MAX_VALUES : Nat := 8

/-- `turn_state.rs:21`. -/
structure TurnStateValue where
  /-- UTF-8 text as received, or Base64 for non-UTF-8 header bytes. -/
  value : String
  encoding : String
  bytes : Nat
  truncated : Bool
  deriving DecidableEq

/-- `turn_state.rs:13`. -/
structure TurnStateHeader where
  present : Bool
  totalValues : Nat
  omittedValues : Nat
  values : List TurnStateValue
  deriving DecidableEq

/-! ### Texts -/

/-- `str::is_char_boundary`. -/
def isCharBoundary (text : String) (length : Nat) : Bool := (⟨length⟩ : String.Pos.Raw).isValid text

/-- `&text[..length]`, which panics off a boundary. -/
def slice (text : String) (length : Nat) : Option String :=
  if isCharBoundary text length then String.fromUTF8? (text.toByteArray.extract 0 length) else none

/-- `turn_state.rs:51–53`: the loop panics at zero, when that is no boundary. -/
def walkBack (text : String) : Nat → Option Nat
  | 0 => if isCharBoundary text 0 then some 0 else none
  | length + 1 =>
    if isCharBoundary text (length + 1) then some (length + 1) else walkBack text length

/-! ### Capturing -/

variable (encode : ByteArray → String)

/-- `turn_state.rs:48–58`: the value and its encoding, with the length of what is captured. -/
def encodeValue (raw : ByteArray) (length : Nat) : Option (String × String × Nat) :=
  match String.fromUTF8? raw with
  | some text => do
    let length ← walkBack text length
    let value ← slice text length
    return (value, "utf8", length)
  | none =>
    if length ≤ raw.size then some (encode (raw.extract 0 length), "base64", length) else none

/-- `turn_state.rs:46–65`: one value, with the budget that is left after it. -/
def captureValue (budget : Nat) (raw : ByteArray) : Option (TurnStateValue × Nat) := do
  let (value, encoding, length) ← encodeValue encode raw (min raw.size budget)
  if length ≤ budget then
    return ({ value, encoding, bytes := raw.size, truncated := length < raw.size },
      budget - length)
  else none

/-- `turn_state.rs:43–66`: the loop. -/
def captureValues : Nat → List ByteArray → Option (List TurnStateValue)
  | _, [] => some []
  | budget, raw :: rest =>
    if budget = 0 then some []
    else do
      let (value, budget) ← captureValue encode budget raw
      return value :: (← captureValues budget rest)

/-- `turn_state.rs:40`, of the values of the header. -/
def capture (raws : List ByteArray) : Option TurnStateHeader := do
  let values ← captureValues encode MAX_BYTES (raws.take MAX_VALUES)
  if values.length ≤ raws.length then
    return { present := raws.length ≠ 0, totalValues := raws.length,
             omittedValues := raws.length - values.length, values }
  else none

/-! ### What one value is captured as -/

/-- An entry shows so many bytes at the start of a value, with a budget for them: of a text the
longest part that ends between two characters, of anything else all that fit. -/
structure Shows (budget : Nat) (raw : ByteArray) (v : TurnStateValue) (length : Nat) : Prop where
  bytes : v.bytes = raw.size
  truncated : v.truncated = true ↔ length < raw.size
  within : length ≤ raw.size ∧ length ≤ budget
  text : ∀ text : String, text.toByteArray = raw → v.encoding = "utf8" ∧
    (∃ rest, text = v.value ++ rest ∧ v.value.utf8ByteSize = length) ∧
    ∀ part rest, text = part ++ rest → part.utf8ByteSize ≤ budget → part.utf8ByteSize ≤ length
  binary : ¬ raw.IsValidUTF8 → v.encoding = "base64" ∧ v.value = encode (raw.extract 0 length) ∧
    length = min raw.size budget

/-- A boundary divides a text. -/
theorem isCharBoundary_iff {text : String} {length : Nat} :
    isCharBoundary text length = true ↔
      ∃ part rest, text = part ++ rest ∧ part.utf8ByteSize = length := by
  unfold isCharBoundary
  rw [String.Pos.Raw.isValid_eq_true_iff, String.Pos.Raw.isValid_iff_exists_append]
  constructor
  · rintro ⟨part, rest, htext, hpos⟩
    exact ⟨part, rest, htext, (congrArg String.Pos.Raw.byteIdx hpos).symm⟩
  · rintro ⟨part, rest, htext, rfl⟩
    exact ⟨part, rest, htext, rfl⟩

/-- The loop stops at the last boundary, at the latest before the first character. -/
theorem walkBack_eq (text : String) (length : Nat) :
    ∃ n, walkBack text length = some n ∧ n ≤ length ∧ isCharBoundary text n = true ∧
      ∀ m, n < m → m ≤ length → isCharBoundary text m = false := by
  induction length with
  | zero =>
    have hzero : isCharBoundary text 0 = true :=
      isCharBoundary_iff.mpr ⟨"", text, by simp, rfl⟩
    exact ⟨0, if_pos hzero, Nat.le_refl _, hzero, fun m hm hle ↦ by omega⟩
  | succ length ih =>
    unfold walkBack
    by_cases hboundary : isCharBoundary text (length + 1) = true
    · rw [if_pos hboundary]
      exact ⟨_, rfl, Nat.le_refl _, hboundary, fun m hm hle ↦ by omega⟩
    · rw [if_neg hboundary]
      obtain ⟨n, hn, hle, hat, hlast⟩ := ih
      refine ⟨n, hn, Nat.le_succ_of_le hle, hat, fun m hm hm' ↦ ?_⟩
      by_cases hsame : m = length + 1
      · rw [hsame]
        exact Bool.eq_false_iff.mpr hboundary
      · exact hlast m hm (by omega)

/-- Sliced at a boundary, a text gives the part before it. -/
theorem slice_eq {text part rest : String} (h : text = part ++ rest) :
    slice text part.utf8ByteSize = some part := by
  have hbytes : text.toByteArray.extract 0 part.utf8ByteSize = part.toByteArray := by
    rw [h, String.toByteArray_append]
    exact ByteArray.extract_append_eq_left String.size_toByteArray.symm
  unfold slice
  rw [if_pos (isCharBoundary_iff.mpr ⟨part, rest, h, rfl⟩), hbytes, String.fromUTF8?,
    dif_pos part.isValidUTF8]
  rfl

private theorem captureValue_eq (budget : Nat) (raw : ByteArray) :
    ∃ v length, captureValue encode budget raw = some (v, budget - length) ∧
      Shows encode budget raw v length := by
  unfold captureValue encodeValue
  by_cases hvalid : raw.IsValidUTF8
  · have htext : String.fromUTF8? raw = some (String.fromUTF8 raw hvalid) := dif_pos hvalid
    have hsize : (String.fromUTF8 raw hvalid).utf8ByteSize = raw.size := rfl
    obtain ⟨n, hn, hle, hat, hlast⟩ :=
      walkBack_eq (String.fromUTF8 raw hvalid) (min raw.size budget)
    obtain ⟨part, rest, hpart, rfl⟩ := isCharBoundary_iff.mp hat
    have hbudget : part.utf8ByteSize ≤ budget := Nat.le_trans hle (Nat.min_le_right _ _)
    rw [htext]
    dsimp only
    rw [hn, Option.bind_eq_bind, Option.bind_eq_bind, Option.bind_some, slice_eq hpart]
    refine ⟨_, part.utf8ByteSize, if_pos hbudget, rfl, decide_eq_true_iff,
      ⟨Nat.le_trans hle (Nat.min_le_left _ _), hbudget⟩, fun text hbytes ↦ ?_,
      fun h ↦ absurd hvalid h⟩
    have hsame : text = String.fromUTF8 raw hvalid := String.toByteArray_inj.mp hbytes
    rw [hsame]
    refine ⟨rfl, ⟨rest, hpart, rfl⟩, fun part' rest' hpart' hfits ↦ ?_⟩
    by_contra hlonger
    have hshort : part'.utf8ByteSize ≤ min raw.size budget := by
      refine Nat.le_min.mpr ⟨?_, hfits⟩
      rw [← hsize, hpart', String.utf8ByteSize_append]
      exact Nat.le_add_right _ _
    have hno := hlast _ (Nat.lt_of_not_le hlonger) hshort
    rw [isCharBoundary_iff.mpr ⟨part', rest', hpart', rfl⟩] at hno
    cases hno
  · have htext : String.fromUTF8? raw = none := dif_neg hvalid
    rw [htext]
    dsimp only
    rw [if_pos (Nat.min_le_left _ _)]
    refine ⟨_, min raw.size budget, if_pos (Nat.min_le_right _ _), rfl, decide_eq_true_iff,
      ⟨Nat.min_le_left _ _, Nat.min_le_right _ _⟩, fun text hbytes ↦ ?_, fun _ ↦ ⟨rfl, rfl, rfl⟩⟩
    exact absurd (hbytes ▸ text.isValidUTF8) hvalid

/-! ### What the loop captures -/

/-- Entries show the first of some values, each with the budget that those before it leave, and
all of them where the budget is not used up. -/
structure Captured (budget : Nat) (raws : List ByteArray) (values : List TurnStateValue)
    (lengths : List Nat) : Prop where
  each : lengths.length = values.length
  first : values.length ≤ raws.length
  entry : ∀ (i : Nat) raw v length, raws[i]? = some raw → values[i]? = some v →
    lengths[i]? = some length → Shows encode (budget - (lengths.take i).sum) raw v length
  bounded : lengths.sum ≤ budget
  early : values.length < raws.length → lengths.sum = budget

private theorem captureValues_eq (raws : List ByteArray) (budget : Nat) :
    ∃ values lengths, captureValues encode budget raws = some values ∧
      Captured encode budget raws values lengths := by
  induction raws generalizing budget with
  | nil =>
    refine ⟨[], [], rfl, rfl, Nat.le_refl _, fun i raw v length h ↦ ?_, Nat.zero_le _, ?_⟩
    · cases h
    · exact fun h ↦ absurd h (Nat.lt_irrefl _)
  | cons raw rest ih =>
    unfold captureValues
    by_cases hbudget : budget = 0
    · rw [if_pos hbudget]
      refine ⟨[], [], rfl, rfl, Nat.zero_le _, fun i raw v length _ h ↦ ?_, Nat.zero_le _,
        fun _ ↦ hbudget.symm⟩
      cases h
    · rw [if_neg hbudget]
      obtain ⟨v, length, hv, hshows⟩ := captureValue_eq encode budget raw
      obtain ⟨values, lengths, hvalues, hrest⟩ := ih (budget - length)
      have hwithin := hshows.within.2
      have hbounded := hrest.bounded
      have hearly := hrest.early
      refine ⟨v :: values, length :: lengths, ?_, congrArg (· + 1) hrest.each,
        Nat.succ_le_succ hrest.first, fun i raw' v' length' hraw hvalue hlength ↦ ?_, ?_, ?_⟩
      · rw [hv, Option.bind_eq_bind, Option.bind_some]
        dsimp only
        rw [hvalues]
        rfl
      · cases i with
        | zero =>
          cases hraw
          cases hvalue
          cases hlength
          exact hshows
        | succ i =>
          rw [List.take_succ_cons, List.sum_cons, ← Nat.sub_sub]
          exact hrest.entry i raw' v' length' hraw hvalue hlength
      · rw [List.sum_cons]
        omega
      · rw [List.length_cons, List.length_cons, List.sum_cons]
        omega

/-- A capture is faithful: at most eight entries for the first values, as many as the budget lets
in, with the numbers of all values and of those left out. -/
structure Faithful (raws : List ByteArray) (header : TurnStateHeader) (lengths : List Nat) :
    Prop where
  present : header.present = true ↔ raws ≠ []
  total : header.totalValues = raws.length
  omitted : header.omittedValues = raws.length - header.values.length
  count : header.values.length ≤ min MAX_VALUES raws.length
  early : header.values.length < min MAX_VALUES raws.length → lengths.sum = MAX_BYTES
  bounded : lengths.sum ≤ MAX_BYTES
  each : lengths.length = header.values.length
  entry : ∀ (i : Nat) raw v length, raws[i]? = some raw → header.values[i]? = some v →
    lengths[i]? = some length → Shows encode (MAX_BYTES - (lengths.take i).sum) raw v length

/-- Any values are captured without a panic, faithfully. -/
theorem capture_faithful (raws : List ByteArray) :
    ∃ header lengths, capture encode raws = some header ∧
      Faithful encode raws header lengths := by
  obtain ⟨values, lengths, hvalues, hcaptured⟩ :=
    captureValues_eq encode (raws.take MAX_VALUES) MAX_BYTES
  have hfirst : values.length ≤ min MAX_VALUES raws.length := by
    rw [← List.length_take]
    exact hcaptured.first
  have hall : values.length ≤ raws.length := Nat.le_trans hfirst (Nat.min_le_right _ _)
  refine ⟨⟨decide (raws.length ≠ 0), raws.length, raws.length - values.length, values⟩, lengths,
    ?_, ?_, rfl, rfl, hfirst, fun hless ↦ ?_, hcaptured.bounded, hcaptured.each,
    fun i raw v length hraw hvalue hlength ↦ ?_⟩
  · unfold capture
    rw [hvalues, Option.bind_eq_bind, Option.bind_some, if_pos hall]
    rfl
  · rw [decide_eq_true_iff, ne_eq, List.length_eq_zero_iff]
  · refine hcaptured.early ?_
    rw [List.length_take]
    exact hless
  · refine hcaptured.entry i raw v length ?_ hvalue hlength
    have hi : i < values.length := (List.getElem?_eq_some_iff.mp hvalue).1
    rw [List.getElem?_take_of_lt (by omega), hraw]

end Xxgate.Core.TurnState

import Xxgate.Core.Json
import Xxgate.Core.Types

/-!
# Header maps and JSON texts

The parts of `http::HeaderMap` and `serde_json` the adapter uses. A header map is the list
of its entries, in the order in which an iteration yields them. Parsing, printing and reading
JSON are parameters.
-/

namespace Xxgate.Codex

open Xxgate.Core

/-! ### Headers -/

/-- The value of a header: the text its bytes spell, none where they are no UTF-8. -/
abbrev HeaderValue := Option String

/-- A text of visible ASCII, spaces and tabs. -/
def visibleText (text : String) : Bool :=
  text.toList.all fun c ↦ c == '\t' || (32 ≤ c.toNat && c.toNat < 127)

/-- `HeaderValue::to_str`: only visible ASCII is text. -/
def HeaderValue.toStr (value : HeaderValue) : Option String := value.filter visibleText

/-- `http::HeaderMap`. -/
abbrev Headers := List (String × HeaderValue)

namespace Headers

/-- `HeaderMap::get_all`. -/
def getAll (headers : Headers) (name : String) : List HeaderValue :=
  (headers.filter (·.1 = name)).map (·.2)

/-- `HeaderMap::get`: the first value. -/
def get (headers : Headers) (name : String) : Option HeaderValue := (headers.getAll name).head?

/-- `HeaderMap::contains_key`. -/
def containsKey (headers : Headers) (name : String) : Bool := headers.any (·.1 = name)

/-- `HeaderMap::insert`: one value in the place of all others. -/
def insert : Headers → String → HeaderValue → Headers
  | [], name, value => [(name, value)]
  | (n, v) :: rest, name, value =>
    if n = name then (name, value) :: rest.filter (·.1 ≠ name) else (n, v) :: insert rest name value

/-- A name is contained when it has a value. -/
theorem containsKey_eq (headers : Headers) (name : String) :
    headers.containsKey name = (headers.get name).isSome := by
  unfold containsKey get getAll
  induction headers with
  | nil => rfl
  | cons entry rest ih =>
    rw [List.any_cons, List.filter_cons, ih]
    by_cases h : entry.1 = name <;> simp [h]

/-- An inserted header reads its value. -/
@[simp] theorem get_insert (headers : Headers) (name : String) (value : HeaderValue) :
    (headers.insert name value).get name = some value := by
  unfold get getAll
  induction headers with
  | nil => simp [insert]
  | cons entry rest ih =>
    unfold insert
    by_cases h : entry.1 = name
    · rw [if_pos h]
      simp
    · rw [if_neg h, List.filter_cons_of_neg (by simp [h])]
      exact ih

/-- Inserting one header leaves the others. -/
theorem get_insert_ne (headers : Headers) {name other : String} (h : other ≠ name)
    (value : HeaderValue) : (headers.insert name value).get other = headers.get other := by
  unfold get getAll
  induction headers with
  | nil => simp [insert, Ne.symm h]
  | cons entry rest ih =>
    unfold insert
    by_cases hn : entry.1 = name
    · rw [if_pos hn, List.filter_cons_of_neg (by simp [Ne.symm h]),
        List.filter_cons_of_neg (by simp [hn, Ne.symm h]), List.filter_filter]
      congr 2
      refine List.filter_congr fun x _ ↦ ?_
      by_cases hx : x.1 = other <;> simp [hx, h]
    · rw [if_neg hn, List.filter_cons, List.filter_cons]
      by_cases ho : entry.1 = other
      · simp [ho]
      · simpa [ho] using ih

end Headers

/-! ### JSON texts -/

/-- `serde_json::from_str` and `serde_json::to_string`, and what an upstream reads of a text. -/
structure JsonText where
  parse : String → Option Json
  print : Json → String
  read : String → Option Json

namespace JsonText

variable (parse : String → Option Json)

/-- The turn metadata a metadata object carries as a JSON text. -/
def turnMetadata (metadata : Json) : Option Json :=
  ((metadata.get "x-codex-turn-metadata").bind Json.asStr).bind parse

/-- The turn metadata nested so many levels deep. -/
def nested : Nat → Json → Option Json
  | 0, metadata => some metadata
  | depth + 1, metadata => (turnMetadata parse metadata).bind (nested depth)

/-- The value of a field, so many levels deep. -/
def valueAt (depth : Nat) (metadata : Json) (name : String) : Option Json :=
  (nested parse depth metadata).bind (·.get name)

/-- A value one level deeper stands in the turn metadata. -/
theorem valueAt_succ (depth : Nat) (metadata : Json) (name : String) :
    valueAt parse (depth + 1) metadata name =
      (turnMetadata parse metadata).bind (valueAt parse depth · name) := by
  unfold valueAt
  rw [nested, Option.bind_assoc]

end JsonText
end Xxgate.Codex

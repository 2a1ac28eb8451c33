import Mathlib.Data.List.Basic

/-!
# Server-sent events

What the specification of event streams makes of a text: its lines end with LF, CR or CRLF,
a line that starts with a colon is a comment, `data` fields collect, and a blank line
dispatches what they collected. Only the data of an event is kept here.
-/

namespace Xxgate.Base.Sse

/-! ### Text and bytes -/

/-- The UTF-8 bytes of a text. -/
def utf8 (text : List Char) : List UInt8 := text.flatMap String.utf8EncodeChar

@[simp] theorem utf8_nil : utf8 [] = [] := rfl

@[simp] theorem utf8_cons (c : Char) (text : List Char) :
    utf8 (c :: text) = String.utf8EncodeChar c ++ utf8 text := rfl

@[simp] theorem utf8_append (a b : List Char) : utf8 (a ++ b) = utf8 a ++ utf8 b :=
  List.flatMap_append

/-- A byte below 128 is a character of its own. -/
theorem mem_utf8EncodeChar {c : Char} {b : UInt8} (hb : b ∈ String.utf8EncodeChar c)
    (h : b.toNat < 128) : b = UInt8.ofNat c.val.toNat ∧ c.val.toNat < 128 := by
  unfold String.utf8EncodeChar at hb
  simp only at hb
  split_ifs at hb with h₁ h₂ h₃
  · simp only [List.mem_cons, List.not_mem_nil, or_false] at hb
    exact ⟨hb, by omega⟩
  all_goals
    simp only [List.mem_cons, List.not_mem_nil, or_false] at hb
    rcases hb with rfl | rfl | rfl | rfl <;> simp only [UInt8.toNat_ofNat'] at h <;> omega

/-- A character below 128 is found among the bytes only where it stands in the text. -/
theorem mem_of_mem_utf8 {text : List Char} {b : UInt8} (hb : b ∈ utf8 text)
    (h : b.toNat < 128) : Char.ofNat b.toNat ∈ text := by
  obtain ⟨c, hc, hbc⟩ := List.mem_flatMap.mp hb
  obtain ⟨rfl, hlt⟩ := mem_utf8EncodeChar hbc h
  have hn : (UInt8.ofNat c.val.toNat).toNat = c.val.toNat := by
    simp only [UInt8.toNat_ofNat']
    omega
  rw [hn]
  simpa using hc

/-! ### Reading a stream -/

/-- The complete lines of a text, after the part of a line read so far. A LF right after a
CR belongs to the line ending it started. -/
def lines : Bool → List Char → List Char → List (List Char)
  | _, _, [] => []
  | afterCr, line, c :: rest =>
    if c = '\r' then line :: lines true [] rest
    else if c = '\n' then
      if afterCr then lines false line rest else line :: lines false [] rest
    else lines false (line ++ [c]) rest

/-- The value of a field is what follows the colon and one space. -/
def fieldValue (line : List Char) : List Char :=
  match line.dropWhile (· ≠ ':') with
  | ':' :: ' ' :: value => value
  | ':' :: value => value
  | _ => []

/-- What a line adds to the data collected for an event. -/
def readField (data line : List Char) : List Char :=
  if line.takeWhile (· ≠ ':') = ['d', 'a', 't', 'a'] then data ++ fieldValue line ++ ['\n']
  else data

/-- The data of the events some lines dispatch. -/
def interpret : List Char → List (List Char) → List (List Char)
  | _, [] => []
  | data, [] :: rest =>
    if data = [] then interpret [] rest else data.dropLast :: interpret [] rest
  | data, (c :: line) :: rest =>
    if c = ':' then interpret data rest else interpret (readField data (c :: line)) rest

/-- The data of the events of a stream. -/
def events (text : List Char) : List (List Char) := interpret [] (lines false [] text)

/-! ### What is read of one line -/

/-- A text without a line ending. -/
def Plain (text : List Char) : Prop := ∀ c ∈ text, c ≠ '\r' ∧ c ≠ '\n'

instance (text : List Char) : Decidable (Plain text) :=
  List.decidableBAll (fun c ↦ c ≠ '\r' ∧ c ≠ '\n') text

/-- Plain texts in a row are plain. -/
theorem Plain.append {a b : List Char} (ha : Plain a) (hb : Plain b) : Plain (a ++ b) :=
  fun c hc ↦ (List.mem_append.mp hc).elim (ha c) (hb c)

/-- A line that has no line ending in it is read up to the one that follows. -/
theorem lines_append {line text rest : List Char} (h : Plain text) :
    lines false line (text ++ '\n' :: rest) = (line ++ text) :: lines false [] rest := by
  induction text generalizing line with
  | nil => simp [lines]
  | cons c text ih =>
    obtain ⟨hcr, hlf⟩ := h c List.mem_cons_self
    rw [List.cons_append, lines, if_neg hcr, if_neg hlf,
      ih fun x hx ↦ h x (List.mem_cons_of_mem _ hx), List.append_assoc, List.singleton_append]

/-- A field with another name than `data` adds nothing. -/
theorem readField_of_ne (data : List Char) {name : List Char} (hcolon : ':' ∉ name)
    (hname : name ≠ ['d', 'a', 't', 'a']) (value : List Char) :
    readField data (name ++ ':' :: value) = data := by
  have htake : (name ++ ':' :: value).takeWhile (· ≠ ':') = name := by
    rw [List.takeWhile_append_of_pos (by simpa using fun c hc (heq : c = ':') ↦ hcolon (heq ▸ hc))]
    simp
  rw [readField, htake, if_neg hname]

/-- A `data` field adds its value and a line ending. -/
theorem readField_data (data value : List Char) :
    readField data ("data: ".toList ++ value) = data ++ value ++ ['\n'] := by
  simp [readField, fieldValue]

/-! ### Blocks -/

/-- A comment dispatches nothing. -/
theorem events_comment {text : List Char} (h : Plain text) :
    events (':' :: text ++ ['\n', '\n']) = [] := by
  have hline : Plain (':' :: text) := Plain.append (a := [':']) (by decide) h
  rw [events, lines_append hline, List.nil_append, interpret, if_pos rfl]
  simp [lines, interpret]

/-- A named message dispatches its data. -/
theorem events_message {kind data : List Char} (hkind : Plain kind) (hdata : Plain data) :
    events ("event: ".toList ++ kind ++ '\n' :: ("data: ".toList ++ data ++ ['\n', '\n'])) =
      [data] := by
  have hfirst : Plain ("event: ".toList ++ kind) := Plain.append (by decide) hkind
  have hsecond : Plain ("data: ".toList ++ data) := Plain.append (by decide) hdata
  have hevent : readField [] ("event: ".toList ++ kind) = [] :=
    readField_of_ne [] (by decide : ':' ∉ ['e', 'v', 'e', 'n', 't']) (by decide) (' ' :: kind)
  have hblank : lines false [] ['\n'] = [[]] := by decide
  rw [events, lines_append hfirst, lines_append hsecond, hblank, List.nil_append,
    List.nil_append]
  -- The event field is read over, the data field collects, the blank line dispatches.
  change interpret (readField [] ("event: ".toList ++ kind)) _ = _
  rw [hevent]
  change interpret (readField [] ("data: ".toList ++ data)) _ = _
  rw [readField_data]
  simp [interpret]

end Xxgate.Base.Sse

import Mathlib.Data.List.Forall2
import Xxgate.Codex.Wire

/-!
# Frames and their decoding

`crates/xxgate-codex/src/wire.rs:100–119`, the frames the gateway makes of JSON values, and
the round trip through `SseDecoder`: whatever line ending stands for LF, with or without a
byte order mark, with comments between the frames, and in any chunks.
-/

namespace Xxgate.Codex

open Xxgate.Core Xxgate.Base

/-! ### Frames -/

/-- A byte of `b.is_ascii_alphanumeric() || b"._-".contains(&b)`. -/
def isKindByte (b : UInt8) : Bool :=
  (48 ≤ b && b ≤ 57) || (65 ≤ b && b ≤ 90) || (97 ≤ b && b ≤ 122) || [46, 95, 45].contains b

/-- `wire.rs:100`: the text of a frame, whose bytes are its UTF-8. `print` is
`serde_json::to_string`, which never fails on a value. -/
def frame (print : Json → String) (value : Json) : Result (List Char) :=
  match (value.get "type").bind Json.asStr with
  | none => .error ⟨502, "invalid_sse_event", "SSE event has no type"⟩
  | some kind =>
    if 128 < (Sse.utf8 kind.toList).length || !(Sse.utf8 kind.toList).all isKindByte then
      .error ⟨502, "invalid_sse_event", "SSE event type is invalid"⟩
    else .ok ("event: ".toList ++ kind.toList ++
      '\n' :: ("data: ".toList ++ (print value).toList ++ ['\n', '\n']))

/-- What the compact texts of `serde_json` are: without line endings, and with a brace in
front where the value is an object. -/
structure CompactPrinter (print : Json → String) : Prop where
  plain : ∀ value, Sse.Plain (print value).toList
  object : ∀ fields, (print (.obj fields)).toList.head? = some '\x7b'

/-! ### Streams -/

/-- What a stream is made of. -/
inductive Piece where
  | event (value : Json)
  | comment (text : List Char) (plain : Sse.Plain text)

namespace Piece

/-- The text of a piece. -/
def text (print : Json → String) : Piece → Result (List Char)
  | .event value => frame print value
  | .comment text _ => .ok (':' :: ' ' :: text ++ ['\n', '\n'])

/-- The JSON text a piece carries. -/
def data (print : Json → String) : Piece → Option String
  | .event value => some (print value)
  | .comment _ _ => none

end Piece

/-- What can end a line. -/
inductive LineEnding where
  | lf
  | cr
  | crlf
  deriving DecidableEq

/-- The characters of a line ending. -/
def LineEnding.chars : LineEnding → List Char
  | .lf => ['\n']
  | .cr => ['\r']
  | .crlf => ['\r', '\n']

/-- A text with another line ending. -/
def withEnding (ending : LineEnding) (text : List Char) : List Char :=
  text.flatMap fun c ↦ if c = '\n' then ending.chars else [c]

/-- The bytes of a stream. -/
def streamBytes (marked : Bool) (ending : LineEnding) (texts : List (List Char)) : List UInt8 :=
  (if marked then byteOrderMark else []) ++ Sse.utf8 (withEnding ending texts.flatten)

/-! ### What is relied on of the parser -/

/-- A block: some lines and the blank line that ends it. -/
def IsBlock (text : List Char) : Prop :=
  ∃ lines : List (List Char), (∀ line ∈ lines, line ≠ [] ∧ Sse.Plain line) ∧
    text = lines.flatMap (· ++ ['\n']) ++ ['\n'] ∧ text.head? ≠ some (Char.ofNat 0xFEFF)

/-- The parser follows the specification of event streams: fed block after block, it answers
each with the events the specification dispatches for it. -/
def EventParser.Conforms (p : EventParser) : Prop :=
  ∀ (before : List (List Char)) (block : List Char), (∀ b ∈ before, IsBlock b) → IsBlock block →
    (p.feed (before.foldl (fun s b ↦ (p.feed s (Sse.utf8 b)).2) p.initial) (Sse.utf8 block)).1 =
      (Sse.events block).map fun data ↦ .ok (String.ofList data)

/-- A stream pushed chunk by chunk. -/
def SseDecoder.pushAll {p : EventParser} (limit : Nat) (d : SseDecoder p) :
    List (List UInt8) → Result (List String × SseDecoder p)
  | [] => .ok ([], d)
  | chunk :: chunks =>
    match d.push limit chunk with
    | .error e => .error e
    | .ok (data, d) =>
      match pushAll limit d chunks with
      | .error e => .error e
      | .ok (rest, d) => .ok (data ++ rest, d)

/-! ### Pushing in chunks -/

namespace SseDecoder

variable {p : EventParser} {limit : Nat}

private theorem push_append (d : SseDecoder p) (xs ys : List UInt8) :
    d.push limit (xs ++ ys) =
      match d.push limit xs with
      | .error e => .error e
      | .ok (data, d') =>
        match d'.push limit ys with
        | .error e => .error e
        | .ok (rest, d'') => .ok (data ++ rest, d'') := by
  induction xs generalizing d with
  | nil =>
    simp only [List.nil_append, push]
    cases d.push limit ys <;> rfl
  | cons x xs ih =>
    simp only [List.cons_append, push]
    cases d.step limit x with
    | error e => rfl
    | ok r =>
      obtain ⟨data, d'⟩ := r
      simp only [ih]
      cases d'.push limit xs with
      | error e => rfl
      | ok r =>
        obtain ⟨data', d''⟩ := r
        simp only
        cases d''.push limit ys with
        | error e => rfl
        | ok r => simp only [List.append_assoc]

/-- Chunks are pushed as their concatenation. -/
theorem pushAll_eq_push (d : SseDecoder p) (chunks : List (List UInt8)) :
    d.pushAll limit chunks = d.push limit chunks.flatten := by
  induction chunks generalizing d with
  | nil => rfl
  | cons chunk chunks ih =>
    rw [List.flatten_cons, push_append, pushAll]
    simp only [ih]

/-- What is left in a decoder that tracks its block. -/
theorem push_ok {d d' : SseDecoder p} (hd : d.Tracks limit) {bs : List UInt8}
    {data : List String} (h : d.push limit bs = .ok (data, d')) :
    d'.Tracks limit ∧ d'.buffer = (blocks d.buffer (normalise d.skipLf bs)).2 := by
  induction bs generalizing d data with
  | nil =>
    rw [push, Except.ok.injEq, Prod.mk.injEq] at h
    obtain ⟨rfl, rfl⟩ := h
    exact ⟨hd, rfl⟩
  | cons b bs ih =>
    have hstep : d.step limit b = d.byte limit b := by rw [step, if_pos hd.started]
    rw [push, hstep] at h
    cases hbyte : d.byte limit b with
    | error e => rw [hbyte] at h; cases h
    | ok r =>
      obtain ⟨data', d₁⟩ := r
      simp only [hbyte] at h
      cases hpush : d₁.push limit bs with
      | error e => rw [hpush] at h; cases h
      | ok r =>
        obtain ⟨rest, d₂⟩ := r
        simp only [hpush, Except.ok.injEq, Prod.mk.injEq] at h
        obtain ⟨-, rfl⟩ := h
        obtain ⟨hd₁, ⟨-, -, hblocks⟩ | ⟨block, -, -, -, hblocks⟩⟩ := byte_ok hd hbyte
        · rw [hblocks]
          exact ih hd₁ hpush
        · rw [hblocks]
          exact ih hd₁ hpush

end SseDecoder

/-! ### Line endings -/

/-- The bytes of a text without line endings. -/
theorem bytes_of_plain {text : List Char} (h : Sse.Plain text) {b : UInt8}
    (hb : b ∈ Sse.utf8 text) : b ≠ cr ∧ b ≠ lf := by
  constructor
  · rintro rfl
    exact (h _ (Sse.mem_of_mem_utf8 hb (by decide))).1 rfl
  · rintro rfl
    exact (h _ (Sse.mem_of_mem_utf8 hb (by decide))).2 rfl

/-- Bytes that are no line ending stay as they are. -/
theorem normalise_append {bs : List UInt8} (h : ∀ b ∈ bs, b ≠ cr ∧ b ≠ lf) (hne : bs ≠ [])
    (afterCr : Bool) (rest : List UInt8) :
    normalise afterCr (bs ++ rest) = bs ++ normalise false rest := by
  induction bs generalizing afterCr with
  | nil => exact absurd rfl hne
  | cons b bs ih =>
    obtain ⟨hcr, hlf⟩ := h b List.mem_cons_self
    have hcr' : (b == cr) = false := by simpa using hcr
    rw [List.cons_append, normalise, if_neg (by simp [hlf]), hcr', if_neg (by simp),
      List.cons_append]
    cases bs with
    | nil => rfl
    | cons c bs =>
      rw [ih (fun x hx ↦ h x (List.mem_cons_of_mem _ hx)) (by simp)]

/-- Whatever line ending stands for LF, the text is the same. Only a CR alone leaves open
whether a LF follows. -/
theorem normalise_withEnding (ending : LineEnding) {text : List Char} (h : '\r' ∉ text)
    (afterCr : Bool) (hafter : afterCr = true → ending = .cr) :
    normalise afterCr (Sse.utf8 (withEnding ending text)) = Sse.utf8 text := by
  induction text generalizing afterCr with
  | nil => rfl
  | cons c text ih =>
    rw [List.mem_cons, not_or] at h
    obtain ⟨hc, htext⟩ := h
    have hsplit : withEnding ending (c :: text) =
        (if c = '\n' then ending.chars else [c]) ++ withEnding ending text := rfl
    rw [hsplit, Sse.utf8_append, Sse.utf8_cons]
    by_cases hlf : c = '\n'
    · subst hlf
      rw [if_pos rfl]
      cases ending with
      | lf =>
        have hfalse : afterCr = false := by
          cases afterCr with
          | false => rfl
          | true => cases hafter rfl
        subst hfalse
        exact congrArg (lf :: ·) (ih htext _ (fun h ↦ absurd h (by decide)))
      | cr =>
        cases afterCr <;> exact congrArg (lf :: ·) (ih htext _ (fun _ ↦ rfl))
      | crlf =>
        have hfalse : afterCr = false := by
          cases afterCr with
          | false => rfl
          | true => cases hafter rfl
        subst hfalse
        exact congrArg (lf :: ·) (ih htext _ (by simp))
    · have hplain : Sse.Plain [c] := by
        intro x hx
        obtain rfl := List.mem_singleton.mp hx
        exact ⟨Ne.symm hc, hlf⟩
      have hbytes : Sse.utf8 [c] = String.utf8EncodeChar c := by simp
      rw [if_neg hlf, hbytes, normalise_append (fun b hb ↦ bytes_of_plain hplain (hbytes ▸ hb))
        String.utf8EncodeChar_ne_nil, ih htext _ (by simp)]

/-! ### Blocks -/

/-- Bytes that are no LF belong to the block. -/
theorem blocks_append {bs : List UInt8} (h : lf ∉ bs) (block rest : List UInt8) :
    blocks block (bs ++ rest) = blocks (block ++ bs) rest := by
  induction bs generalizing block with
  | nil => simp
  | cons b bs ih =>
    rw [List.mem_cons, not_or] at h
    rw [List.cons_append, blocks_inside (fun hb ↦ h.1 hb.1.symm), ih h.2, List.append_assoc,
      List.singleton_append]

/-- A line that is not blank belongs to the block with its line ending. -/
theorem blocks_line {bs : List UInt8} (h : lf ∉ bs) (hne : bs ≠ []) (block rest : List UInt8) :
    blocks block (bs ++ lf :: rest) = blocks (block ++ (bs ++ [lf])) rest := by
  have hstart : atLineStart (block ++ bs) = false := by
    rw [atLineStart, List.getLast?_append_of_ne_nil _ hne, List.getLast?_eq_some_getLast hne]
    have hlast := List.getLast_mem hne
    simp only [Option.all_some, beq_eq_false_iff_ne, ne_eq]
    intro heq
    exact h (heq ▸ hlast)
  rw [blocks_append h, blocks_inside (by simp [hstart]), List.append_assoc]

/-- Some lines and the blank line after them are one block. -/
theorem blocks_lines {lines : List (List Char)} (h : ∀ line ∈ lines, line ≠ [] ∧ Sse.Plain line)
    {block : List UInt8} (hblock : atLineStart block = true) (rest : List UInt8) :
    blocks block (Sse.utf8 (lines.flatMap (· ++ ['\n']) ++ ['\n']) ++ rest) =
      ((block ++ Sse.utf8 (lines.flatMap (· ++ ['\n']) ++ ['\n'])) :: (blocks [] rest).1,
        (blocks [] rest).2) := by
  have hlf : String.utf8EncodeChar '\n' = [lf] := by decide
  induction lines generalizing block with
  | nil => exact blocks_blank hblock rest
  | cons line lines ih =>
    obtain ⟨hne, hplain⟩ := h line List.mem_cons_self
    have hmem : lf ∉ Sse.utf8 line := fun hb ↦ (bytes_of_plain hplain hb).2 rfl
    have hne' : Sse.utf8 line ≠ [] := by
      obtain ⟨c, line, rfl⟩ := List.exists_cons_of_ne_nil hne
      simp [String.utf8EncodeChar_ne_nil]
    have hsplit : Sse.utf8 ((line :: lines).flatMap (· ++ ['\n']) ++ ['\n']) =
        Sse.utf8 line ++ lf :: Sse.utf8 (lines.flatMap (· ++ ['\n']) ++ ['\n']) := by
      simp [hlf]
    rw [hsplit, List.append_assoc, List.cons_append, blocks_line hmem hne',
      ih (fun l hl ↦ h l (List.mem_cons_of_mem _ hl)) (by simp [atLineStart])]
    simp

/-- A text made of blocks is taken apart into them. -/
theorem blocks_flatten {texts : List (List Char)} (h : ∀ text ∈ texts, IsBlock text) :
    blocks [] (Sse.utf8 texts.flatten) = (texts.map Sse.utf8, []) := by
  induction texts with
  | nil => rfl
  | cons text texts ih =>
    obtain ⟨lines, hlines, htext, -⟩ := h text List.mem_cons_self
    rw [List.flatten_cons, Sse.utf8_append, htext, blocks_lines hlines rfl,
      ih (fun t ht ↦ h t (List.mem_cons_of_mem _ ht))]
    rfl

/-! ### What the pieces decode to -/

/-- The data of events without an error, `[DONE]` apart. -/
theorem collect_ok (data : List String) :
    collect (data.map .ok) = .ok (data.filter (· ≠ "[DONE]")) := by
  induction data with
  | nil => rfl
  | cons d data ih =>
    rw [List.map_cons, collect, ih, List.filter_cons]
    by_cases h : d = "[DONE]" <;> simp [h]

/-- What is known of the text of a piece. -/
structure Piece.Reads (print : Json → String) (piece : Piece) (text : List Char) : Prop where
  block : IsBlock text
  noCr : '\r' ∉ text
  events : (Sse.events text).map String.ofList = (piece.data print).toList
  notDone : piece.data print ≠ some "[DONE]"
  start : ∃ c rest, text = c :: rest ∧ (c = 'e' ∨ c = ':')

/-- The kind of a frame has no line ending in it. -/
theorem plain_of_kind {kind : List Char} (h : (Sse.utf8 kind).all isKindByte = true) :
    Sse.Plain kind := by
  intro c hc
  have hbytes : ∀ b ∈ String.utf8EncodeChar c, isKindByte b = true := fun b hb ↦
    List.all_eq_true.mp h b (List.mem_flatMap.mpr ⟨c, hc, hb⟩)
  constructor
  · rintro rfl
    exact absurd (hbytes 13 (by decide)) (by decide)
  · rintro rfl
    exact absurd (hbytes 10 (by decide)) (by decide)

/-- The lines of a text and a blank line are a block. -/
theorem isBlock_of_lines (lines : List (List Char))
    (h : ∀ line ∈ lines, line ≠ [] ∧ Sse.Plain line)
    (hmark : (lines.flatMap (· ++ ['\n']) ++ ['\n']).head? ≠ some (Char.ofNat 0xFEFF)) :
    IsBlock (lines.flatMap (· ++ ['\n']) ++ ['\n']) ∧
      '\r' ∉ lines.flatMap (· ++ ['\n']) ++ ['\n'] := by
  refine ⟨⟨lines, h, rfl, hmark⟩, ?_⟩
  simp only [List.mem_append, List.mem_flatMap, List.mem_singleton, Char.reduceEq, or_false,
    not_exists, not_and]
  intro line hline hcr
  exact ((h line hline).2 _ hcr).1 rfl

private theorem Piece.reads {print : Json → String} (hprint : CompactPrinter print) {piece : Piece}
    {text : List Char} (h : piece.text print = .ok text) : piece.Reads print text := by
  cases piece with
  | comment comment hplain =>
    obtain rfl := Except.ok.inj h
    have hspace : Sse.Plain (' ' :: comment) := Sse.Plain.append (a := [' ']) (by decide) hplain
    have hline : Sse.Plain (':' :: ' ' :: comment) :=
      Sse.Plain.append (a := [':']) (by decide) hspace
    obtain ⟨hblock, hcr⟩ := isBlock_of_lines [':' :: ' ' :: comment]
      (by simpa using hline) (by simp)
    simp only [List.flatMap_cons, List.flatMap_nil, List.append_nil, List.append_assoc,
      List.singleton_append] at hblock hcr
    exact ⟨hblock, hcr, by rw [Sse.events_comment hspace]; rfl, by simp [data],
      ':', _, rfl, .inr rfl⟩
  | event value =>
    simp only [Piece.text, frame] at h
    cases hkind : (value.get "type").bind Json.asStr with
    | none => rw [hkind] at h; cases h
    | some kind =>
      simp only [hkind] at h
      split_ifs at h with hvalid
      · obtain rfl := Except.ok.inj h
        simp only [Bool.or_eq_true, Bool.not_eq_true', not_or, Bool.not_eq_false] at hvalid
        have hplain := plain_of_kind hvalid.2
        have hdata := hprint.plain value
        have hname : Sse.Plain ("event: ".toList ++ kind.toList) :=
          Sse.Plain.append (by decide) hplain
        have hfield : Sse.Plain ("data: ".toList ++ (print value).toList) :=
          Sse.Plain.append (by decide) hdata
        have hlines : ∀ line ∈ ["event: ".toList ++ kind.toList,
            "data: ".toList ++ (print value).toList], line ≠ [] ∧ Sse.Plain line := by
          simp only [List.mem_cons, List.not_mem_nil, or_false]
          rintro line (rfl | rfl)
          · exact ⟨by simp, hname⟩
          · exact ⟨by simp, hfield⟩
        have htext : ["event: ".toList ++ kind.toList,
              "data: ".toList ++ (print value).toList].flatMap (· ++ ['\n']) ++ ['\n'] =
            "event: ".toList ++ kind.toList ++
              '\n' :: ("data: ".toList ++ (print value).toList ++ ['\n', '\n']) := by simp
        obtain ⟨hblock, hcr⟩ := isBlock_of_lines _ hlines (by simp)
        rw [htext] at hblock hcr
        have hobject : ∃ fields, value = .obj fields := by
          cases value with
          | obj fields => exact ⟨fields, rfl⟩
          | _ => cases hkind
        obtain ⟨fields, rfl⟩ := hobject
        refine ⟨hblock, hcr, ?_, ?_, 'e', _, rfl, .inl rfl⟩
        · rw [Sse.events_message hplain hdata]
          simp [data]
        · intro hdone
          have hhead := hprint.object fields
          rw [Option.some.inj hdone] at hhead
          revert hhead
          decide

/-- What the blocks of some pieces decode to, after blocks that came before. -/
theorem decoded_pieces {p : EventParser} (hp : p.Conforms) {print : Json → String}
    {limit : Nat} {pieces : List Piece} {texts : List (List Char)}
    (h : List.Forall₂ (fun piece text ↦
      piece.Reads print text ∧ (Sse.utf8 text).length ≤ limit) pieces texts)
    (before : List (List Char)) (hbefore : ∀ b ∈ before, IsBlock b) {parser : p.State}
    (hparser : before.foldl (fun s b ↦ (p.feed s (Sse.utf8 b)).2) p.initial = parser) :
    (decoded p limit [] parser (texts.map Sse.utf8)).2 = none ∧
      (decoded p limit [] parser (texts.map Sse.utf8)).1.flatten =
        pieces.filterMap (·.data print) := by
  induction h generalizing before parser with
  | nil => exact ⟨rfl, rfl⟩
  | @cons piece text pieces texts hpiece hrest ih =>
    obtain ⟨hreads, hlen⟩ := hpiece
    have hfeed := hp before text hbefore hreads.block
    rw [hparser] at hfeed
    have hbefore' : ∀ b ∈ before ++ [text], IsBlock b := by
      intro b hb
      obtain hb | hb := List.mem_append.mp hb
      · exact hbefore b hb
      · exact List.mem_singleton.mp hb ▸ hreads.block
    have hparser' : (before ++ [text]).foldl (fun s b ↦ (p.feed s (Sse.utf8 b)).2) p.initial =
        (p.feed parser (Sse.utf8 text)).2 := by
      rw [List.foldl_append, hparser]
      rfl
    obtain ⟨hnone, hflat⟩ := ih (before ++ [text]) hbefore' hparser'
    have hcollect : collect (p.feed parser (Sse.utf8 text)).1 =
        .ok (piece.data print).toList := by
      have hmap :
          (Sse.events text).map (fun data ↦ (.ok (String.ofList data) : Except Unit String)) =
            ((piece.data print).toList).map .ok := by
        rw [← hreads.events, List.map_map]
        rfl
      rw [hfeed, hmap, collect_ok]
      cases hdata : piece.data print with
      | none => rfl
      | some data =>
        have hdone : data ≠ "[DONE]" := fun heq ↦ hreads.notDone (hdata.trans (heq ▸ rfl))
        simp [hdone]
    rw [List.map_cons, decoded, if_neg (by omega), hcollect]
    cases hdata : piece.data print with
    | none =>
      rw [List.filterMap_cons_none hdata]
      exact ⟨hnone, hflat⟩
    | some data =>
      rw [List.filterMap_cons_some hdata]
      exact ⟨hnone, by simp [hflat]⟩

/-! ### The round trip -/

namespace SseDecoder

variable {p : EventParser} {limit : Nat}

/-- The bytes of a byte order mark are dropped. -/
theorem push_marked (bs : List UInt8) :
    ({} : SseDecoder p).push limit (byteOrderMark ++ bs) =
      ({ started := true } : SseDecoder p).push limit bs := by
  have hmark : ({} : SseDecoder p).push limit byteOrderMark =
      .ok ([], { started := true }) := rfl
  rw [push_append, hmark]
  simp only [List.nil_append]
  cases ({ started := true } : SseDecoder p).push limit bs <;> rfl

/-- A stream that starts otherwise is read from its first byte. -/
theorem push_unmarked {b : UInt8} (h : b ≠ 0xef) (bs : List UInt8) :
    ({} : SseDecoder p).push limit (b :: bs) =
      ({ started := true } : SseDecoder p).push limit (b :: bs) := by
  have hmark : [b].isPrefixOf byteOrderMark = false := by
    simp [byteOrderMark, List.isPrefixOf, h]
  have hstep : ({} : SseDecoder p).step limit b =
      ({ started := true } : SseDecoder p).step limit b := by
    simp only [step, Bool.false_eq_true, if_false, if_true, List.nil_append, hmark, bytes]
    cases ({ started := true } : SseDecoder p).byte limit b with
    | error e => rfl
    | ok r => simp only [List.append_nil]
  rw [push, push, hstep]

/-- The block stays within the limit. -/
theorem byte_bounded {d d' : SseDecoder p} {b : UInt8} {data : List String}
    (h : d.byte limit b = .ok (data, d')) (hd : d.buffer.length ≤ limit) :
    d'.buffer.length ≤ limit ∧ d'.lead = d.lead := by
  unfold byte at h
  generalize (if b == cr then lf else b) = c at h
  simp only at h
  split_ifs at h with hskip hlimit hinside hline
  · obtain ⟨-, rfl⟩ := Prod.mk.inj (Except.ok.inj h)
    exact ⟨hd, rfl⟩
  · obtain ⟨-, rfl⟩ := Prod.mk.inj (Except.ok.inj h)
    exact ⟨Nat.not_lt.mp hlimit, rfl⟩
  · obtain ⟨-, rfl⟩ := Prod.mk.inj (Except.ok.inj h)
    exact ⟨Nat.not_lt.mp hlimit, rfl⟩
  · cases hc : collect (p.feed d.parser (d.buffer ++ [c])).1 with
    | error e => rw [hc] at h; cases h
    | ok data' =>
      simp only [hc, Except.ok.injEq, Prod.mk.injEq] at h
      obtain ⟨-, rfl⟩ := h
      exact ⟨Nat.zero_le _, rfl⟩

private theorem bytes_bounded {d d' : SseDecoder p} {bs : List UInt8} {data : List String}
    (h : d.bytes limit bs = .ok (data, d')) (hd : d.buffer.length ≤ limit) :
    d'.buffer.length ≤ limit ∧ d'.lead = d.lead := by
  induction bs generalizing d data with
  | nil =>
    obtain ⟨-, rfl⟩ := Prod.mk.inj (Except.ok.inj h)
    exact ⟨hd, rfl⟩
  | cons b bs ih =>
    unfold bytes at h
    cases hb : d.byte limit b with
    | error e => rw [hb] at h; cases h
    | ok r =>
      obtain ⟨data₁, d₁⟩ := r
      obtain ⟨hd₁, hlead₁⟩ := byte_bounded hb hd
      simp only [hb] at h
      cases hr : bytes limit d₁ bs with
      | error e => rw [hr] at h; cases h
      | ok r =>
        obtain ⟨data₂, d₂⟩ := r
        simp only [hr, Except.ok.injEq, Prod.mk.injEq] at h
        obtain ⟨-, rfl⟩ := h
        obtain ⟨hd₂, hlead₂⟩ := ih hr hd₁
        exact ⟨hd₂, hlead₂.trans hlead₁⟩

/-- One byte leaves the block within the limit, and at most two bytes undecided. -/
theorem step_bounded {d d' : SseDecoder p} {b : UInt8} {data : List String}
    (h : d.step limit b = .ok (data, d')) (hd : d.buffer.length ≤ limit)
    (hlead : d.lead.length ≤ 2) : d'.buffer.length ≤ limit ∧ d'.lead.length ≤ 2 := by
  unfold step at h
  simp only at h
  split_ifs at h with hstarted hmark hlen
  · obtain ⟨hd', hlead'⟩ := byte_bounded h hd
    exact ⟨hd', hlead' ▸ hlead⟩
  · obtain ⟨-, rfl⟩ := Prod.mk.inj (Except.ok.inj h)
    exact ⟨hd, Nat.zero_le _⟩
  · obtain ⟨-, rfl⟩ := Prod.mk.inj (Except.ok.inj h)
    refine ⟨hd, ?_⟩
    have hle : (d.lead ++ [b]).length ≤ 3 := by
      rw [List.length_append, List.length_singleton]
      omega
    exact Nat.le_of_lt_succ (Nat.lt_of_le_of_ne hle hlen)
  · obtain ⟨hd', hlead'⟩ := bytes_bounded h hd
    exact ⟨hd', by rw [hlead']; exact Nat.zero_le _⟩

/-- A push leaves the block within the limit, and at most two bytes undecided. -/
theorem push_bounded {d d' : SseDecoder p} {bs : List UInt8} {data : List String}
    (h : d.push limit bs = .ok (data, d')) (hd : d.buffer.length ≤ limit)
    (hlead : d.lead.length ≤ 2) : d'.buffer.length ≤ limit ∧ d'.lead.length ≤ 2 := by
  induction bs generalizing d data with
  | nil =>
    obtain ⟨-, rfl⟩ := Prod.mk.inj (Except.ok.inj h)
    exact ⟨hd, hlead⟩
  | cons b bs ih =>
    unfold push at h
    cases hb : d.step limit b with
    | error e => rw [hb] at h; cases h
    | ok r =>
      obtain ⟨data₁, d₁⟩ := r
      obtain ⟨hd₁, hlead₁⟩ := step_bounded hb hd hlead
      simp only [hb] at h
      cases hr : push limit d₁ bs with
      | error e => rw [hr] at h; cases h
      | ok r =>
        simp only [hr, Except.ok.injEq, Prod.mk.injEq] at h
        exact ih (hr.trans (by rw [← h.2])) hd₁ hlead₁

end SseDecoder

/-- A stream of pieces is read as the data of its events, and nothing is left of it. -/
theorem push_stream {p : EventParser} (hp : p.Conforms) {print : Json → String} {limit : Nat}
    {pieces : List Piece} {texts : List (List Char)}
    (h : List.Forall₂ (fun piece text ↦
      piece.Reads print text ∧ (Sse.utf8 text).length ≤ limit) pieces texts)
    (marked : Bool) (ending : LineEnding) :
    ∃ d, ({} : SseDecoder p).push limit (streamBytes marked ending texts) =
      .ok (pieces.filterMap (·.data print), d) ∧ d.bufferedBytes = 0 := by
  have hblocks : ∀ text ∈ texts, IsBlock text ∧ '\r' ∉ text := by
    clear hp
    induction h with
    | nil => simp
    | cons hpiece hrest ih =>
      rw [List.forall_mem_cons]
      exact ⟨⟨hpiece.1.block, hpiece.1.noCr⟩, ih⟩
  have hcr : '\r' ∉ texts.flatten := by
    intro hmem
    obtain ⟨text, htext, hc⟩ := List.mem_flatten.mp hmem
    exact (hblocks text htext).2 hc
  -- Behind the mark, the stream is read as the blocks it is made of.
  have hstarted : ∃ d, ({ started := true } : SseDecoder p).push limit
      (Sse.utf8 (withEnding ending texts.flatten)) =
        .ok (pieces.filterMap (·.data print), d) ∧ d.bufferedBytes = 0 := by
    have hnew : ({ started := true } : SseDecoder p).Tracks limit :=
      ⟨rfl, rfl, by simp [atLineStart], Nat.zero_le _⟩
    let m : Chunks.Stages (SseDecoder p) UInt8 String Unit Unit Error :=
      { cut := SseDecoder.step limit, handle := fun _ _ ↦ .ok ((), ()), isFinal := fun _ ↦ false }
    have htext := normalise_withEnding ending hcr false (by simp)
    have hsplit := blocks_flatten fun text htext ↦ (hblocks text htext).1
    have hcuts := SseDecoder.cuts_of_tracks m rfl hnew
      (Sse.utf8 (withEnding ending texts.flatten))
    simp only [htext, hsplit] at hcuts
    obtain ⟨hnone, hflat⟩ := decoded_pieces hp h [] (by simp) (rfl : _ = p.initial)
    obtain ⟨d, hd⟩ := Chunks.Stages.cutAll_of_cuts (hcuts ▸ hnone)
    rw [← SseDecoder.push_eq_cutAll m rfl, hcuts, hflat] at hd
    obtain ⟨htracks, hbuffer⟩ := SseDecoder.push_ok hnew hd
    rw [htext, hsplit] at hbuffer
    exact ⟨d, hd, by rw [SseDecoder.bufferedBytes, hbuffer, htracks.lead]; rfl⟩
  cases marked with
  | true => rwa [streamBytes, if_pos rfl, SseDecoder.push_marked]
  | false =>
    rw [streamBytes, if_neg (by simp), List.nil_append]
    cases h with
    | nil => exact ⟨{}, rfl, rfl⟩
    | @cons _ _ _ texts hpiece hrest =>
      obtain ⟨c, rest, rfl, hc⟩ := hpiece.1.start
      have hbytes : ∃ b bs, Sse.utf8 (withEnding ending ((c :: rest) :: texts).flatten) =
          b :: bs ∧ b ≠ 0xef := by
        obtain rfl | rfl := hc
        · exact ⟨101, _, rfl, by decide⟩
        · exact ⟨58, _, rfl, by decide⟩
      obtain ⟨b, bs, hb, hne⟩ := hbytes
      rw [hb] at hstarted ⊢
      rwa [SseDecoder.push_unmarked hne]

/-- Frames of accepted values come back as their JSON texts and nothing is left buffered,
whatever the line ending, with or without a byte order mark, with comments between them and
in any chunks. No push retains more than the limit and two undecided bytes. -/
theorem framing_round_trip {p : EventParser} (hp : p.Conforms) {print : Json → String}
    (hprint : CompactPrinter print) (limit : Nat) :
    (∀ (pieces : List Piece) (texts : List (List Char)) (marked : Bool) (ending : LineEnding)
      (chunks : List (List UInt8)),
      List.Forall₂ (fun piece text ↦
        piece.text print = .ok text ∧ (Sse.utf8 text).length ≤ limit) pieces texts →
      chunks.flatten = streamBytes marked ending texts →
      ∃ d, ({} : SseDecoder p).pushAll limit chunks =
        .ok (pieces.filterMap (·.data print), d) ∧ d.bufferedBytes = 0) ∧
    ∀ (chunks : List (List UInt8)) (data : List String) (d : SseDecoder p),
      ({} : SseDecoder p).pushAll limit chunks = .ok (data, d) →
      d.buffer.length ≤ limit ∧ d.lead.length ≤ 2 := by
  constructor
  · intro pieces texts marked ending chunks htexts hchunks
    rw [SseDecoder.pushAll_eq_push, hchunks]
    exact push_stream hp (htexts.imp fun _ _ h ↦ ⟨Piece.reads hprint h.1, h.2⟩) marked ending
  · intro chunks data d h
    rw [SseDecoder.pushAll_eq_push] at h
    exact SseDecoder.push_bounded h (Nat.zero_le _) (Nat.zero_le _)

/-- A parser that decodes each block and reads it as the specification does. -/
def blockParser : EventParser where
  State := Unit
  initial := ()
  feed _ block :=
    (match block.toByteArray.utf8Decode? with
      | none => [.error ()]
      | some text => (Sse.events text.toList).map fun data ↦ .ok (String.ofList data), ())

private theorem blockParser_conforms : blockParser.Conforms := by
  intro before block _ _
  have hdecode : (Sse.utf8 block).toByteArray.utf8Decode? = some block.toArray :=
    List.utf8Decode?_utf8Encode
  simp only [blockParser, hdecode]

/-- The texts of an event `ping` and of empty objects. -/
def pingPrint (value : Json) : String :=
  if value.hasType "ping" then "\x7b\"type\":\"ping\"\x7d" else "\x7b\x7d"

private theorem pingPrint_compact : CompactPrinter pingPrint := by
  constructor
  · intro value
    unfold pingPrint
    split <;> decide
  · intro fields
    unfold pingPrint
    split <;> rfl

/-- A comment and an event with CRLF line endings behind a byte order mark, in two chunks. -/
theorem framing_round_trip_ping : ∃ d,
    ({} : SseDecoder blockParser).pushAll 64
      [(streamBytes true .crlf [": hi\n\n".toList,
        "event: ping\ndata: \x7b\"type\":\"ping\"\x7d\n\n".toList]).take 10,
      (streamBytes true .crlf [": hi\n\n".toList,
        "event: ping\ndata: \x7b\"type\":\"ping\"\x7d\n\n".toList]).drop 10] =
      .ok (["\x7b\"type\":\"ping\"\x7d"], d) ∧ d.bufferedBytes = 0 :=
  (framing_round_trip blockParser_conforms pingPrint_compact 64).1
    [.comment ['h', 'i'] (by decide), .event (.obj [("type", .str "ping")])] _ true .crlf _
    (.cons ⟨rfl, by decide⟩ (.cons ⟨by rfl, by decide⟩ .nil))
    (by rw [List.flatten_cons, List.flatten_cons, List.flatten_nil, List.append_nil,
      List.take_append_drop]; rfl)

end Xxgate.Codex

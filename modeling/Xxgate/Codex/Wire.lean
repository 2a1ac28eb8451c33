import Xxgate.Base.Chunks
import Xxgate.Base.Sse
import Xxgate.Core.Json
import Xxgate.Core.Types

/-!
# The wire format of events

`crates/xxgate-codex/src/wire.rs`. `SseDecoder` takes bytes apart at the blank lines and
hands each block to the parser of the `eventsource_stream` package, which is a parameter.
`blocks` and `decoded` say of a whole input, without the decoder, what its blocks are and
what they decode to.
-/

namespace Xxgate.Codex

open Xxgate.Core Xxgate.Base

/-- The package's parser: what it makes of the bytes handed to it, each item an event's data
or an error. The source polls the parser until it is pending, inside one poll of its own task;
that it then has read every byte it was handed is assumed. So the budget after which the
runtime lets a channel report pending must not run out inside a push. -/
structure EventParser where
  State : Type
  initial : State
  feed : State → List UInt8 → List (Except Unit String) × State

/-- `b'\\r'`. -/
def cr : UInt8 := 13

/-- `b'\\n'`. -/
def lf : UInt8 := 10

/-- The bytes of a leading byte order mark. -/
def byteOrderMark : List UInt8 := [0xef, 0xbb, 0xbf]

/-- `wire.rs:66`. -/
def eventTooLarge : Error :=
  ⟨502, "sse_event_too_large", "Upstream SSE event exceeds the configured limit"⟩

/-- `wire.rs:84`. -/
def invalidSse : Error := ⟨502, "invalid_sse", "Upstream returned invalid SSE"⟩

/-- The two errors of the wire. -/
def IsWireError (e : Error) : Prop := e = eventTooLarge ∨ e = invalidSse

/-- `wire.rs:10`: the parser with the channel that feeds it, and the bytes of the block that
is not complete yet. -/
structure SseDecoder (p : EventParser) where
  parser : p.State := p.initial
  buffer : List UInt8 := []
  lineBytes : Nat := 0
  skipLf : Bool := false
  /-- The source's `prefix`: bytes that may still turn out to be the byte order mark. -/
  lead : List UInt8 := []
  started : Bool := false

/-- `wire.rs:82–90`: the data of the parser's items, up to an error. -/
def collect : List (Except Unit String) → Result (List String)
  | [] => .ok []
  | .error _ :: _ => .error invalidSse
  | .ok data :: items =>
    match collect items with
    | .error e => .error e
    | .ok rest => .ok (if data = "[DONE]" then rest else data :: rest)

namespace SseDecoder

variable {p : EventParser}

/-- `wire.rs:57`. The parser holds its end of the channel, so a send never fails. -/
def byte (limit : Nat) (d : SseDecoder p) (b : UInt8) : Result (List String × SseDecoder p) :=
  if d.skipLf && b == lf then .ok ([], { d with skipLf := false })
  else
    let d := { d with skipLf := b == cr, buffer := d.buffer ++ [if b == cr then lf else b] }
    if limit < d.buffer.length then .error eventTooLarge
    else if b != cr && b != lf then .ok ([], { d with lineBytes := d.lineBytes + 1 })
    else if 0 < d.lineBytes then .ok ([], { d with lineBytes := 0 })
    else
      let (items, parser) := p.feed d.parser d.buffer
      match collect items with
      | .error e => .error e
      | .ok data => .ok (data, { d with parser := parser, buffer := [], lineBytes := 0 })

/-- `wire.rs:50`: the bytes that were no byte order mark after all. -/
def bytes (limit : Nat) (d : SseDecoder p) : List UInt8 → Result (List String × SseDecoder p)
  | [] => .ok ([], d)
  | b :: bs =>
    match byte limit d b with
    | .error e => .error e
    | .ok (data, d) =>
      match bytes limit d bs with
      | .error e => .error e
      | .ok (rest, d) => .ok (data ++ rest, d)

/-- `wire.rs:38–54`: one byte of the stream. -/
def step (limit : Nat) (d : SseDecoder p) (b : UInt8) : Result (List String × SseDecoder p) :=
  if d.started then byte limit d b
  else
    let lead := d.lead ++ [b]
    if lead.isPrefixOf byteOrderMark then
      if lead.length = 3 then .ok ([], { d with lead := [], started := true })
      else .ok ([], { d with lead := lead })
    else bytes limit { d with lead := [], started := true } lead

/-- `wire.rs:36`. -/
def push (limit : Nat) (d : SseDecoder p) : List UInt8 → Result (List String × SseDecoder p)
  | [] => .ok ([], d)
  | b :: bs =>
    match step limit d b with
    | .error e => .error e
    | .ok (data, d) =>
      match push limit d bs with
      | .error e => .error e
      | .ok (rest, d) => .ok (data ++ rest, d)

/-- `wire.rs:95`. -/
def bufferedBytes (d : SseDecoder p) : Nat := d.buffer.length + d.lead.length

end SseDecoder

/-! ### What an input decodes to -/

/-- The input without its leading byte order mark; a part of one alone is no input yet. -/
def stripMark (input : List UInt8) : List UInt8 :=
  if byteOrderMark.isPrefixOf input then input.drop 3
  else if input.isPrefixOf byteOrderMark then []
  else input

/-- The input with every line ending a LF. A LF right after a CR belongs to it. -/
def normalise : Bool → List UInt8 → List UInt8
  | _, [] => []
  | afterCr, b :: bs =>
    if afterCr && b == lf then normalise false bs
    else (if b == cr then lf else b) :: normalise (b == cr) bs

/-- Nothing stands between here and the last line ending. -/
def atLineStart (block : List UInt8) : Bool := block.getLast?.all (· == lf)

/-- The blocks a text is made of, each up to a blank line, and the bytes after the last. -/
def blocks : List UInt8 → List UInt8 → List (List UInt8) × List UInt8
  | block, [] => ([], block)
  | block, b :: bs =>
    if b = lf ∧ atLineStart block then
      ((block ++ [b]) :: (blocks [] bs).1, (blocks [] bs).2)
    else blocks (block ++ [b]) bs

/-- The data of the blocks, one group for each block with some, and the first failure: a
block over the limit or one that is no valid SSE. -/
def decoded (p : EventParser) (limit : Nat) (rest : List UInt8) :
    p.State → List (List UInt8) → List (List String) × Option Error
  | _, [] => ([], if limit < rest.length then some eventTooLarge else none)
  | parser, block :: more =>
    if limit < block.length then ([], some eventTooLarge)
    else
      match collect (p.feed parser block).1 with
      | .error e => ([], some e)
      | .ok [] => decoded p limit rest (p.feed parser block).2 more
      | .ok (d :: ds) =>
        ((d :: ds) :: (decoded p limit rest (p.feed parser block).2 more).1,
          (decoded p limit rest (p.feed parser block).2 more).2)

/-- What a whole input decodes to. -/
def decodedInput (p : EventParser) (limit : Nat) (input : List UInt8) :
    List (List String) × Option Error :=
  let (complete, rest) := blocks [] (normalise false (stripMark input))
  decoded p limit rest p.initial complete

/-! ### The decoder decodes what the input does -/

/-- What the decoder knows of a block that is not complete yet. -/
structure SseDecoder.Tracks (limit : Nat) {p : EventParser} (d : SseDecoder p) : Prop where
  started : d.started = true
  lead : d.lead = []
  lineBytes : d.lineBytes = 0 ↔ atLineStart d.buffer = true
  length_le : d.buffer.length ≤ limit

private theorem atLineStart_append (block : List UInt8) (b : UInt8) :
    atLineStart (block ++ [b]) = (b == lf) := by simp [atLineStart]

/-- A blank line ends a block. -/
theorem blocks_blank {block : List UInt8} (h : atLineStart block = true) (text : List UInt8) :
    blocks block (lf :: text) = ((block ++ [lf]) :: (blocks [] text).1, (blocks [] text).2) := by
  rw [blocks, if_pos ⟨rfl, h⟩]

/-- Any other byte belongs to the block. -/
theorem blocks_inside {block : List UInt8} {b : UInt8}
    (h : ¬ (b = lf ∧ atLineStart block = true)) (text : List UInt8) :
    blocks block (b :: text) = blocks (block ++ [b]) text := by
  rw [blocks, if_neg h]

/-- A block that is over the limit already is refused when it is complete or the input ends. -/
theorem decoded_too_large {p : EventParser} {limit : Nat} (parser : p.State)
    {block : List UInt8} (h : limit < block.length) (text : List UInt8) :
    decoded p limit (blocks block text).2 parser (blocks block text).1 =
      ([], some eventTooLarge) := by
  induction text generalizing block with
  | nil => simp [blocks, decoded, h]
  | cons b text ih =>
    have hlen : limit < (block ++ [b]).length := by
      rw [List.length_append]
      omega
    by_cases hb : b = lf ∧ atLineStart block = true
    · obtain ⟨rfl, hstart⟩ := hb
      rw [blocks_blank hstart, decoded, if_pos hlen]
    · rw [blocks_inside hb]
      exact ih hlen

namespace SseDecoder

variable {p : EventParser} {limit : Nat} {d : SseDecoder p}

/-- The LF of a CRLF is read over. -/
theorem byte_skip (h : d.skipLf = true) :
    d.byte limit lf = .ok ([], { d with skipLf := false }) := by
  simp [byte, h]

/-- A byte that would put the block over the limit is refused. -/
theorem byte_too_large {b : UInt8} (hskip : ¬ (d.skipLf = true ∧ b = lf))
    (h : limit < d.buffer.length + 1) : d.byte limit b = .error eventTooLarge := by
  have hskip' : (d.skipLf && b == lf) = false := by simpa using hskip
  simp [byte, hskip', h]

/-- A byte inside a line is kept. -/
theorem byte_inside {b : UInt8} (h : d.buffer.length + 1 ≤ limit) (hcr : b ≠ cr)
    (hlf : b ≠ lf) :
    d.byte limit b = .ok ([], { d with
      skipLf := false, buffer := d.buffer ++ [b], lineBytes := d.lineBytes + 1 }) := by
  have hlimit : ¬ limit < d.buffer.length + 1 := by omega
  simp [byte, hcr, hlf, hlimit]

/-- The line ending of a line that is not blank is kept. -/
theorem byte_line_end {b : UInt8} (hskip : ¬ (d.skipLf = true ∧ b = lf))
    (h : d.buffer.length + 1 ≤ limit) (hb : b = cr ∨ b = lf) (hline : d.lineBytes ≠ 0) :
    d.byte limit b = .ok ([], { d with
      skipLf := b == cr, buffer := d.buffer ++ [lf], lineBytes := 0 }) := by
  have hlimit : ¬ limit < d.buffer.length + 1 := by omega
  have hskip' : (d.skipLf && b == lf) = false := by simpa using hskip
  have hpos : 0 < d.lineBytes := Nat.pos_of_ne_zero hline
  obtain rfl | rfl := hb
  · simp [byte, hskip', hlimit, hpos]
  · have hs : d.skipLf = false := by simpa using hskip
    simp [byte, hs, hlimit, hpos, show (lf == cr) = false from rfl]

/-- A blank line ends the block. -/
theorem byte_blank {b : UInt8} (hskip : ¬ (d.skipLf = true ∧ b = lf))
    (h : d.buffer.length + 1 ≤ limit) (hb : b = cr ∨ b = lf) (hline : d.lineBytes = 0) :
    d.byte limit b =
      match collect (p.feed d.parser (d.buffer ++ [lf])).1 with
      | .error e => .error e
      | .ok data => .ok (data, { d with
          parser := (p.feed d.parser (d.buffer ++ [lf])).2, buffer := [], lineBytes := 0,
          skipLf := b == cr }) := by
  have hlimit : ¬ limit < d.buffer.length + 1 := by omega
  have hskip' : (d.skipLf && b == lf) = false := by simpa using hskip
  obtain rfl | rfl := hb
  · simp [byte, hskip', hlimit, hline]
  · have hs : d.skipLf = false := by simpa using hskip
    simp [byte, hs, hlimit, hline, show (lf == cr) = false from rfl]

/-- A byte that is read belongs to the block, or ends it with a blank line. -/
theorem byte_ok (hd : d.Tracks limit) {b : UInt8} {data : List String} {d' : SseDecoder p}
    (h : d.byte limit b = .ok (data, d')) :
    d'.Tracks limit ∧
    ((data = [] ∧ d'.parser = d.parser ∧ ∀ bs, blocks d.buffer (normalise d.skipLf (b :: bs)) =
        blocks d'.buffer (normalise d'.skipLf bs)) ∨
      ∃ block, block.length ≤ limit ∧ collect (p.feed d.parser block).1 = .ok data ∧
        d'.parser = (p.feed d.parser block).2 ∧
        ∀ bs, blocks d.buffer (normalise d.skipLf (b :: bs)) =
          (block :: (blocks d'.buffer (normalise d'.skipLf bs)).1,
            (blocks d'.buffer (normalise d'.skipLf bs)).2)) := by
  by_cases hskip : d.skipLf = true ∧ b = lf
  · obtain ⟨hs, rfl⟩ := hskip
    rw [byte_skip hs, Except.ok.injEq, Prod.mk.injEq] at h
    obtain ⟨rfl, rfl⟩ := h
    refine ⟨⟨hd.started, hd.lead, hd.lineBytes, hd.length_le⟩, .inl ⟨rfl, rfl, fun bs ↦ ?_⟩⟩
    rw [normalise, hs]
    rfl
  · have hnorm : ∀ bs, normalise d.skipLf (b :: bs) =
        (if b == cr then lf else b) :: normalise (b == cr) bs := by
      intro bs
      rw [normalise, if_neg (by simpa using hskip)]
    by_cases hlimit : limit < d.buffer.length + 1
    · rw [byte_too_large hskip hlimit] at h
      cases h
    · have hle : d.buffer.length + 1 ≤ limit := by omega
      by_cases hb : b = cr ∨ b = lf
      · have hlf : (if b == cr then lf else b) = lf := by
          obtain rfl | rfl := hb <;> rfl
        rw [hlf] at hnorm
        by_cases hline : d.lineBytes = 0
        · -- The blank line: the block goes to the parser.
          have hstart := hd.lineBytes.mp hline
          rw [byte_blank hskip hle hb hline] at h
          cases hc : collect (p.feed d.parser (d.buffer ++ [lf])).1 with
          | error e => rw [hc] at h; cases h
          | ok data' =>
            simp only [hc, Except.ok.injEq, Prod.mk.injEq] at h
            obtain ⟨rfl, rfl⟩ := h
            refine ⟨⟨hd.started, hd.lead, by simp [atLineStart], Nat.zero_le _⟩,
              .inr ⟨d.buffer ++ [lf], by simpa using hle, hc, rfl, fun bs ↦ ?_⟩⟩
            rw [hnorm, blocks_blank hstart]
        · rw [byte_line_end hskip hle hb hline, Except.ok.injEq, Prod.mk.injEq] at h
          obtain ⟨rfl, rfl⟩ := h
          refine ⟨⟨hd.started, hd.lead, by simp [atLineStart_append], by simpa using hle⟩,
            .inl ⟨rfl, rfl, fun bs ↦ ?_⟩⟩
          rw [hnorm, blocks_inside (fun h ↦ hline (hd.lineBytes.mpr h.2))]
      · rw [not_or] at hb
        rw [byte_inside hle hb.1 hb.2, Except.ok.injEq, Prod.mk.injEq] at h
        obtain ⟨rfl, rfl⟩ := h
        have hcr : (b == cr) = false := by simpa using hb.1
        refine ⟨⟨hd.started, hd.lead, by simp [atLineStart_append, hb.2], by simpa using hle⟩,
          .inl ⟨rfl, rfl, fun bs ↦ ?_⟩⟩
        rw [hnorm, hcr]
        exact blocks_inside (fun h ↦ hb.2 h.1) _

/-- A byte that is refused puts the block over the limit, or ends one that is no valid SSE. -/
theorem decoded_of_byte_error (hd : d.Tracks limit) {b : UInt8} {e : Error}
    (h : d.byte limit b = .error e) (bs : List UInt8) :
    decoded p limit (blocks d.buffer (normalise d.skipLf (b :: bs))).2 d.parser
      (blocks d.buffer (normalise d.skipLf (b :: bs))).1 = ([], some e) := by
  by_cases hskip : d.skipLf = true ∧ b = lf
  · obtain ⟨hs, rfl⟩ := hskip
    rw [byte_skip hs] at h
    cases h
  · rw [normalise, if_neg (by simpa using hskip)]
    generalize hc : (if b == cr then lf else b) = c
    by_cases hlimit : limit < d.buffer.length + 1
    · rw [byte_too_large hskip hlimit, Except.error.injEq] at h
      subst h
      by_cases hblank : c = lf ∧ atLineStart d.buffer = true
      · obtain ⟨rfl, hstart⟩ := hblank
        rw [blocks_blank hstart, decoded, if_pos (by simpa using hlimit)]
      · rw [blocks_inside hblank, decoded_too_large _ (by simpa using hlimit)]
    · have hle : d.buffer.length + 1 ≤ limit := by omega
      by_cases hb : b = cr ∨ b = lf
      · have hlf : c = lf := by
          obtain rfl | rfl := hb
          · exact hc.symm
          · exact hc.symm
        subst hlf
        by_cases hline : d.lineBytes = 0
        · rw [byte_blank hskip hle hb hline] at h
          rw [blocks_blank (hd.lineBytes.mp hline), decoded, if_neg (by simpa using hle)]
          cases hcollect : collect (p.feed d.parser (d.buffer ++ [lf])).1 with
          | error e' =>
            simp only [hcollect, Except.error.injEq] at h
            rw [h]
          | ok data => rw [hcollect] at h; cases h
        · rw [byte_line_end hskip hle hb hline] at h
          cases h
      · rw [not_or] at hb
        rw [byte_inside hle hb.1 hb.2] at h
        cases h

variable {T O : Type}

/-- A push cuts out the data of all its bytes. -/
theorem push_eq_cutAll (m : Chunks.Stages (SseDecoder p) UInt8 String T O Error)
    (hm : m.cut = SseDecoder.step limit) (d : SseDecoder p) (bs : List UInt8) :
    d.push limit bs = m.cutAll d bs := by
  induction bs generalizing d with
  | nil => rfl
  | cons b bs ih =>
    unfold push Chunks.Stages.cutAll
    rw [hm]
    cases SseDecoder.step limit d b with
    | error e => rfl
    | ok x =>
      obtain ⟨data, d'⟩ := x
      simp only [ih]
      cases m.cutAll d' bs <;> rfl

/-- A decoder that tracks its block cuts out what the bytes decode to. -/
theorem cuts_of_tracks (m : Chunks.Stages (SseDecoder p) UInt8 String T O Error)
    (hm : m.cut = SseDecoder.step limit) (hd : d.Tracks limit) (bs : List UInt8) :
    m.cuts d bs = decoded p limit (blocks d.buffer (normalise d.skipLf bs)).2 d.parser
      (blocks d.buffer (normalise d.skipLf bs)).1 := by
  induction bs generalizing d with
  | nil => simp [Chunks.Stages.cuts, normalise, blocks, decoded, Nat.not_lt.mpr hd.length_le]
  | cons b bs ih =>
    have hstep : m.cut d b = d.byte limit b := by rw [hm, step, if_pos hd.started]
    rw [Chunks.Stages.cuts, hstep]
    cases hbyte : d.byte limit b with
    | error e => rw [decoded_of_byte_error hd hbyte]
    | ok r =>
      obtain ⟨data, d'⟩ := r
      obtain ⟨hd', ⟨rfl, hparser, hblocks⟩ | ⟨block, hle, hcollect, hparser, hblocks⟩⟩ :=
        byte_ok hd hbyte
      · rw [hblocks, ← hparser]
        exact ih hd'
      · rw [hblocks, decoded, if_neg (by omega), hcollect, ← hparser]
        cases data <;> simp only [ih hd']

/-- Bytes held back as a possible byte order mark are read again as any others. -/
theorem cuts_replay (m : Chunks.Stages (SseDecoder p) UInt8 String T O Error)
    (hm : m.cut = SseDecoder.step limit) {s : SseDecoder p} (hd : d.started = true)
    {lead : List UInt8} (hlead : ∀ c ∈ lead, c ≠ cr ∧ c ≠ lf) {b : UInt8}
    (hcut : m.cut s b = d.bytes limit (lead ++ [b])) (rest : List UInt8) :
    m.cuts s (b :: rest) = m.cuts d (lead ++ b :: rest) := by
  induction lead generalizing d with
  | nil =>
    have hstep : m.cut d b = d.byte limit b := by rw [hm, step, if_pos hd]
    rw [List.nil_append, Chunks.Stages.cuts, Chunks.Stages.cuts, hcut, hstep, List.nil_append,
      bytes]
    cases d.byte limit b with
    | error e => rfl
    | ok r =>
      obtain ⟨data, d'⟩ := r
      simp only [bytes, List.append_nil]
  | cons c lead ih =>
    obtain ⟨hcr, hlf⟩ := hlead c List.mem_cons_self
    have hstep : m.cut d c = d.byte limit c := by rw [hm, step, if_pos hd]
    rw [List.cons_append] at hcut ⊢
    rw [Chunks.Stages.cuts.eq_2 m d c, hstep]
    rw [bytes] at hcut
    by_cases hlimit : limit < d.buffer.length + 1
    · rw [byte_too_large (fun h ↦ hlf h.2) hlimit] at hcut ⊢
      rw [Chunks.Stages.cuts, hcut]
    · rw [byte_inside (by omega) hcr hlf] at hcut ⊢
      refine ih hd (fun x hx ↦ hlead x (List.mem_cons_of_mem _ hx)) ?_
      rw [hcut]
      simp only [List.nil_append]
      generalize bytes limit _ (lead ++ [b]) = r
      cases r <;> rfl

/-- A byte that cannot continue the byte order mark starts the stream, with the bytes held
back before it. -/
theorem cuts_unmarked (m : Chunks.Stages (SseDecoder p) UInt8 String T O Error)
    (hm : m.cut = SseDecoder.step limit) {lead : List UInt8} {b : UInt8}
    (hlead : ∀ c ∈ lead, c ≠ cr ∧ c ≠ lf)
    (hmark : (lead ++ [b]).isPrefixOf byteOrderMark = false) (rest : List UInt8)
    (hstrip : stripMark (lead ++ b :: rest) = lead ++ b :: rest) :
    m.cuts { lead := lead } (b :: rest) = decodedInput p limit (lead ++ b :: rest) := by
  have hnew : ({ started := true } : SseDecoder p).Tracks limit :=
    ⟨rfl, rfl, by simp [atLineStart], Nat.zero_le _⟩
  have hcut : m.cut { lead := lead } b =
      ({ started := true } : SseDecoder p).bytes limit (lead ++ [b]) := by
    rw [hm, step]
    simp only [Bool.false_eq_true, if_false, hmark]
  rw [cuts_replay m hm rfl hlead hcut rest, cuts_of_tracks m hm hnew, decodedInput, hstrip]

/-- A byte that continues the byte order mark is held back. -/
theorem cuts_lead (m : Chunks.Stages (SseDecoder p) UInt8 String T O Error)
    (hm : m.cut = SseDecoder.step limit) {lead : List UInt8} {b : UInt8}
    (hmark : (lead ++ [b]).isPrefixOf byteOrderMark = true) (hlen : (lead ++ [b]).length ≠ 3)
    (rest : List UInt8) :
    m.cuts { lead := lead } (b :: rest) = m.cuts { lead := lead ++ [b] } rest := by
  have hcut : m.cut { lead := lead } b = .ok ([], { lead := lead ++ [b] }) := by
    rw [hm, step]
    simp only [Bool.false_eq_true, if_false, hmark, if_true, if_neg hlen]
  rw [Chunks.Stages.cuts, hcut]

/-- A new decoder cuts out what the input decodes to. -/
theorem cuts_new (m : Chunks.Stages (SseDecoder p) UInt8 String T O Error)
    (hm : m.cut = SseDecoder.step limit) (input : List UInt8) :
    m.cuts {} input = decodedInput p limit input := by
  cases input with
  | nil => rfl
  | cons a input =>
    by_cases ha : a = 0xef
    · subst ha
      rw [cuts_lead m hm (by decide) (by decide), List.nil_append]
      cases input with
      | nil => rfl
      | cons b input =>
        by_cases hb : b = 0xbb
        · subst hb
          rw [cuts_lead m hm (by decide) (by decide)]
          cases input with
          | nil => rfl
          | cons c input =>
            by_cases hc : c = 0xbf
            · subst hc
              -- The whole mark: it is dropped, and the stream starts behind it.
              have hcut : m.cut { lead := [0xef] ++ [0xbb] } 0xbf =
                  .ok ([], ({ started := true } : SseDecoder p)) := by rw [hm]; rfl
              have hnew : ({ started := true } : SseDecoder p).Tracks limit :=
                ⟨rfl, rfl, by simp [atLineStart], Nat.zero_le _⟩
              rw [Chunks.Stages.cuts, hcut]
              exact cuts_of_tracks m hm hnew input
            · have hmark : ([0xef, 0xbb] ++ [c]).isPrefixOf byteOrderMark = false := by
                simp [byteOrderMark, List.isPrefixOf, hc]
              exact cuts_unmarked m hm (by simp [cr, lf]) hmark input
                (by simp [stripMark, byteOrderMark, Ne.symm hc, hc])
        · have hmark : ([0xef] ++ [b]).isPrefixOf byteOrderMark = false := by
            simp [byteOrderMark, List.isPrefixOf, hb]
          exact cuts_unmarked m hm (by simp [cr, lf]) hmark input
            (by simp [stripMark, byteOrderMark, Ne.symm hb, hb])
    · have hmark : ([] ++ [a]).isPrefixOf byteOrderMark = false := by
        simp [byteOrderMark, List.isPrefixOf, ha]
      exact cuts_unmarked m hm (by simp [cr, lf]) hmark input
        (by simp [stripMark, byteOrderMark, Ne.symm ha, ha])

/-! ### How the decoder fails -/

private theorem collect_error {items : List (Except Unit String)} {e : Error}
    (h : collect items = .error e) : e = invalidSse := by
  induction items with
  | nil => cases h
  | cons item items ih =>
    cases item with
    | error _ => exact (Except.error.inj h).symm
    | ok data =>
      unfold collect at h
      cases hc : collect items with
      | error e' =>
        simp only [hc, Except.error.injEq] at h
        exact ih (h ▸ hc)
      | ok rest => rw [hc] at h; cases h

private theorem byte_error {b : UInt8} {e : Error} (h : d.byte limit b = .error e) :
    IsWireError e := by
  unfold byte at h
  generalize (if b == cr then lf else b) = c at h
  simp only at h
  split_ifs at h
  · exact .inl (Except.error.inj h).symm
  · cases hc : collect (p.feed d.parser (d.buffer ++ [c])).1 with
    | error e' =>
      simp only [hc, Except.error.injEq] at h
      exact .inr (collect_error (h ▸ hc))
    | ok data => rw [hc] at h; cases h

private theorem bytes_error {bs : List UInt8} {e : Error} (h : d.bytes limit bs = .error e) :
    IsWireError e := by
  induction bs generalizing d with
  | nil => cases h
  | cons b bs ih =>
    unfold bytes at h
    cases hb : d.byte limit b with
    | error e' =>
      simp only [hb, Except.error.injEq] at h
      exact byte_error (h ▸ hb)
    | ok r =>
      obtain ⟨data, d'⟩ := r
      simp only [hb] at h
      cases hr : bytes limit d' bs with
      | error e' =>
        simp only [hr, Except.error.injEq] at h
        exact ih (h ▸ hr)
      | ok r => rw [hr] at h; cases h

/-- A byte fails with an error of the wire only. -/
theorem step_error {b : UInt8} {e : Error} (h : d.step limit b = .error e) : IsWireError e := by
  unfold step at h
  simp only at h
  split_ifs at h
  · exact byte_error h
  · exact bytes_error h

end SseDecoder
end Xxgate.Codex

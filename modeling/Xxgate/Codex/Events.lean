import Xxgate.Codex.Quota
import Xxgate.Codex.Recovery
import Xxgate.Codex.References
import Xxgate.Codex.Wire
import Xxgate.Core.Protocol

/-!
# Decoding the events of a stream

`crates/xxgate-codex/src/provider/events.rs`: the decoder of upstream streams. The JSON parser
and what reads numbers, dates, credits and errors are the parameters of `Readings`. Reading the
limits of an event can panic, which ends a push without events and without an error. `deliver`
feeds the decoder as `gateway.rs:639–663` does, and the theorem at the end says for which inputs
the chunks they arrive in make no difference.
-/

namespace Xxgate.Codex

open Xxgate.Core Xxgate.Base Json

/-- What is read of an event elsewhere. -/
structure Readings where
  /-- `serde_json::from_str`. -/
  parse : String → Option Json
  /-- `Value::as_f64`. -/
  asF64 : Json → Option Rat
  /-- `DateTime::from_timestamp`. -/
  fromTimestamp : Int → Option Int
  /-- `Utc::now`. -/
  now : Int
  /-- `quota.rs:153` with the source `rate_limit_event`. -/
  credits : Json → ExtraCredits
  /-- `mod.rs:201` with status 502: the error, its message for the client, and the reason to
  disable the account. -/
  classifyError : Json → Error × String × Option DisableReason

/-- `quota.rs:78` with the source `sse`; a panic is none. -/
def Readings.windows (r : Readings) (value : Json) : Option (List QuotaWindow) :=
  Quota.windows r.asF64 r.fromTimestamp r.now value

/-- `protocol.rs:122`. The raw usage stands beside the usage it is reported with. -/
structure Observation where
  recoveryPreamble : Bool
  encryptedRejection : Option EncryptedContentError
  responseModel : Option String
  compactionOutput : Option Bool
  usage : Usage
  rawUsage : Json
  quotas : List QuotaWindow
  extraCredits : Option ExtraCredits
  terminal : Bool
  error : Option Error
  disableReason : Option DisableReason
  content : Bool

/-- `protocol.rs:139`: the document for the client and what was observed in the event. -/
structure DecodedEvent where
  document : Json
  observation : Observation

/-- What `CodexDecoder` remembers from event to event, `events.rs:12`. -/
structure Decoding where
  terminal : Bool := false
  usage : Usage := {}
  rawUsage : Json := .null
  imageIds : List String := []
  compactionOutput : Bool := false

/-! ### Reading one event -/

/-- `events.rs:316`: a name that may be kept of a response's model. -/
def responseModel (response : Json) : Option String :=
  ((response.get "model").bind asStr).filter fun name ↦
    name ≠ "" && (Sse.utf8 name.toList).length ≤ 160 && (Sse.utf8 name.toList).all fun c ↦
      (48 ≤ c && c ≤ 57) || (65 ≤ c && c ≤ 90) || (97 ≤ c && c ≤ 122) ||
        [45, 46, 95, 58, 47].contains c

/-- `events.rs:340`: a key of usage facts that may be kept. -/
def usageKey (key : String) : Bool :=
  (Sse.utf8 key.toList).length ≤ 80 && (Sse.utf8 key.toList).all fun c ↦
    (48 ≤ c && c ≤ 57) || (65 ≤ c && c ≤ 90) || (97 ≤ c && c ≤ 122) || c == 95

/-- `events.rs:331`: the numeric facts of a usage object, down to as many levels. -/
def numericUsage : Nat → Json → Option Json
  | 0, _ => none
  | _ + 1, .int n => some (.int n)
  | _ + 1, .float text => some (.float text)
  | _ + 1, .bool b => some (.bool b)
  | depth + 1, .obj fields =>
    some (.obj (((fields.take 64).filter fun f ↦ usageKey f.1).filterMap fun f ↦
      (numericUsage depth f.2).map fun v ↦ (f.1, v)))
  | _ + 1, _ => none

/-- `u64::saturating_add`. -/
def saturatingAdd (a b : Nat) : Nat := min (a + b) (2 ^ 64 - 1)

namespace Decoding

/-- `events.rs:254`. -/
def observeUsage (d : Decoding) (value : Json) : Decoding :=
  { d with
    rawUsage := (numericUsage 7 value).getD .null
    usage := { d.usage with
      inputTokens := ((value.get "input_tokens").bind asU64).or d.usage.inputTokens
      outputTokens := ((value.get "output_tokens").bind asU64).or d.usage.outputTokens
      cachedInputTokens := ((value.pointer "input_tokens_details" "cached_tokens").bind
        asU64).or d.usage.cachedInputTokens
      reasoningOutputTokens := ((value.pointer "output_tokens_details" "reasoning_tokens").bind
        asU64).or d.usage.reasoningOutputTokens
      source := "upstream_response" } }

/-- The tokens an image adds to those of the images before it. -/
def addTokens (before : Option Nat) (usage : Json) (field : String) : Option Nat :=
  match (usage.get field).bind asU64 with
  | none => before
  | some n => some (saturatingAdd (before.getD 0) n)

/-- `events.rs:277`: an image with a result counts once. -/
def observeItem (d : Decoding) (item : Json) : Decoding :=
  if !item.hasType "image_generation_call" then d
  else if (((item.get "result").bind asStr).getD "") = "" then d
  else
    match (item.get "id").bind asStr with
    | none => d
    | some id =>
      if d.imageIds.contains id then d
      else
        let d := { d with imageIds := id :: d.imageIds }
        match item.get "usage" with
        | none => d
        | some usage =>
          { d with usage := { d.usage with
              imageToolUsageReported := true
              imageInputTokens := addTokens d.usage.imageInputTokens usage "input_tokens"
              imageOutputTokens := addTokens d.usage.imageOutputTokens usage "output_tokens" } }

/-- `compaction.rs:103`. -/
def hasOutput (items : List Json) : Bool := items.any (·.hasType "compaction")

/-- `events.rs:132–153`: what the response of an event reports, its model apart. -/
def observeResponse (d : Decoding) (response : Json) : Decoding :=
  let items := ((response.get "output").bind asArray).getD []
  let d := items.foldl observeItem
    { d with compactionOutput := d.compactionOutput || hasOutput items }
  let d := match (response.get "service_tier").bind asStr with
    | some tier =>
      if ["default", "priority", "fast"].contains tier then
        { d with usage := { d.usage with serviceTier := some tier } }
      else d
    | none => d
  match (response.get "usage").filter isObject with
  | some usage => d.observeUsage usage
  | none => d

/-- `events.rs:116–153`: everything an event adds to what is remembered. -/
def observe (d : Decoding) (kind : String) (value : Json) : Decoding :=
  let d := if kind = "response.output_item.done" &&
      (value.get "item").any (·.hasType "compaction") then
    { d with compactionOutput := true } else d
  let d := match value.get "item" with
    | some item => d.observeItem item
    | none => d
  match value.get "response" with
  | some response => d.observeResponse response
  | none => d

end Decoding

/-! ### The document for the client -/

/-- `references.rs:46`: a header of an event that may be passed on. -/
def keptHeader (name : String) : Bool :=
  ["openai-model", "x-reasoning-included"].contains (name.map Char.toLower)

/-- The headers of an object, without those that may not be passed on. -/
def retainHeaders (object : Json) : Json :=
  match object.get "headers" with
  | some (.obj headers) => setField object "headers" (.obj (headers.filter (keptHeader ·.1)))
  | _ => object

/-- `references.rs:42`. -/
def filterEventHeaders (event : Json) : Json :=
  let event := match event.get "response" with
    | some response => setField event "response" (retainHeaders response)
    | none => event
  retainHeaders event

/-- `events.rs:187–195`: what the client is told of a stream that ended in an error. -/
def failureDocument (kind : String) (value : Json) (error : Error) (message : String) : Json :=
  let value := if kind = "error" then
    .obj [("response", .obj [("id", .str "upstream_error"), ("output", .arr []),
      ("status", .str "failed")]), ("type", .str "response.failed")] else value
  match value.get "response" with
  | some (.obj fields) =>
    setField value "response" (.obj (insert fields "error" (.obj [("code", .str error.code),
      ("message", .str message), ("type", .str "upstream_error")])))
  | _ => value

/-! ### The decoder -/

/-- `events.rs:74`. -/
def notJson : Error :=
  ⟨502, "invalid_upstream_event", "Upstream SSE event is not valid JSON"⟩

/-- `events.rs:79`. -/
def noType : Error := ⟨502, "invalid_upstream_event", "Upstream event has no type"⟩

/-- The kinds of `events.rs:136`. -/
def namesModel (kind : String) : Bool :=
  ["response.created", "response.queued", "response.in_progress", "response.completed",
    "response.failed", "response.incomplete"].contains kind

/-- The kinds of `events.rs:155`. -/
def carriesContent (kind : String) : Bool :=
  ["response.output_text.delta", "response.reasoning_text.delta",
    "response.reasoning_summary_text.delta", "response.function_call_arguments.delta",
    "response.custom_tool_call_input.delta",
    "response.image_generation_call.partial_image"].contains kind

/-- A field with a text that is not empty. -/
def hasText (value : Json) (key : String) : Bool :=
  ((value.get key).bind asStr).any (· ≠ "")

/-- `events.rs:105`: extra credits are read of the limits of `codex` alone. -/
def readsCredits (kind : String) (value : Json) : Bool :=
  kind = "codex.rate_limits" && (value.get "credits").isSome &&
    ["metered_limit_name", "limit_id", "limit_name"].all fun key ↦
      ((value.get key).bind asStr).all (· = "codex")

/-- `events.rs:115`: the windows of an event, or none where reading them panics. -/
def Readings.quotas (r : Readings) (kind : String) (value : Json) : Option (List QuotaWindow) :=
  if kind = "codex.rate_limits" then r.windows value else some []

/-- `events.rs:80–212`: an event of a known type, with its windows. -/
def decodeEvent (r : Readings) (d : Decoding) (kind : String) (value : Json)
    (quotas : List QuotaWindow) : DecodedEvent × Decoding :=
  let d := d.observe kind value
  let d := if isTerminal value then
    { d with
      terminal := true
      usage := { d.usage with
        complete := d.usage.inputTokens.isSome && d.usage.outputTokens.isSome } } else d
  let d := { d with usage := { d.usage with imageCount := d.imageIds.length % 2 ^ 32 } }
  let failed := isTerminal value && kind != "response.completed"
  let (error, message, reason) := r.classifyError ((value.get "response").getD value)
  let document := if failed then failureDocument kind value error message else value
  ({ document := filterEventHeaders document
     observation :=
      { recoveryPreamble := recoveryPreamble value
        encryptedRejection := encryptedRejection value
        responseModel := if namesModel kind then (value.get "response").bind responseModel
          else none
        compactionOutput := if d.compactionOutput then some true
          else if kind = "response.completed" then some false else none
        usage := d.usage
        rawUsage := d.rawUsage
        quotas := quotas
        extraCredits := if readsCredits kind value then some (r.credits value) else none
        terminal := isTerminal value
        error := if failed then some error else none
        disableReason := if failed then reason else none
        content := carriesContent kind &&
          (hasText value "delta" || hasText value "partial_image_b64") } }, d)

/-- `events.rs:68–212`: one round of the loop over the data of a push. -/
def decodeDatum (r : Readings) (d : Decoding) (data : String) :
    Except Failure (DecodedEvent × Decoding) :=
  match r.parse data with
  | none => .error (.error notJson)
  | some value =>
    match (value.get "type").bind asStr with
    | none => .error (.error noType)
    | some kind =>
      match r.quotas kind value with
      | none => .error .panic
      | some quotas => .ok (decodeEvent r d kind value quotas)

/-- An event with a limit that is a number: `quota.rs:145` indexes it as an object. -/
def scalarLimits : Json :=
  .obj [("additional_rate_limits", .obj [("x", .int 5)]), ("type", .str "codex.rate_limits")]

/-- Decoding it panics. -/
theorem decodeDatum_scalarLimits {r : Readings} {data : String}
    (h : r.parse data = some scalarLimits) (d : Decoding) :
    decodeDatum r d data = .error .panic := by
  have hkind : (scalarLimits.get "type").bind asStr = some "codex.rate_limits" := by
    decide +kernel
  have hnested : Quota.nested scalarLimits = none := by rfl
  have hquotas : r.quotas "codex.rate_limits" scalarLimits = none := by
    unfold Readings.quotas Readings.windows
    rw [if_pos rfl, Quota.windows_eq, hnested]
    rfl
  unfold decodeDatum
  simp only [h, hkind, hquotas]

/-- `events.rs:12`. -/
structure CodexDecoder (p : EventParser) where
  sse : SseDecoder p := {}
  decoding : Decoding := {}

/-- `events.rs:68–215`: the loop, up to a terminal event. -/
def decodeData (r : Readings) :
    Decoding → List String → Except Failure (List DecodedEvent × Decoding)
  | d, [] => .ok ([], d)
  | d, data :: rest =>
    match decodeDatum r d data with
    | .error e => .error e
    | .ok (event, d) =>
      if d.terminal then .ok ([event], d)
      else
        match decodeData r d rest with
        | .error e => .error e
        | .ok (events, d) => .ok (event :: events, d)

namespace CodexDecoder

variable {p : EventParser}

/-- `events.rs:57`. -/
def push (r : Readings) (limit : Nat) (c : CodexDecoder p) (bytes : List UInt8) :
    Except Failure (List DecodedEvent × CodexDecoder p) :=
  if c.decoding.terminal then .ok ([], c)
  else
    match c.sse.push limit bytes with
    | .error e => .error (.error e)
    | .ok (data, sse) =>
      match decodeData r c.decoding data with
      | .error e => .error e
      | .ok (events, decoding) => .ok (events, { sse := sse, decoding := decoding })

/-- `gateway.rs:639–663`: the events of a stream, up to a terminal one or the first failure. -/
def deliver (r : Readings) (limit : Nat) :
    CodexDecoder p → List (List UInt8) → List DecodedEvent × Chunks.Ending Failure
  | _, [] => ([], .waiting)
  | c, chunk :: chunks =>
    match c.push r limit chunk with
    | .error e => ([], .failed e)
    | .ok (events, c) =>
      if c.decoding.terminal then (events, .final)
      else (events ++ (deliver r limit c chunks).1, (deliver r limit c chunks).2)

end CodexDecoder

/-! ### The decoder as two stages -/

/-- The SSE decoder by itself. -/
def wireStage (p : EventParser) (limit : Nat) :
    Chunks.Stages (SseDecoder p) UInt8 String Unit Unit Error where
  cut := SseDecoder.step limit
  handle := fun _ _ ↦ .ok ((), ())
  isFinal := fun _ ↦ false

/-- The SSE decoder cuts the data out, and each datum is an event. -/
def stages (p : EventParser) (r : Readings) (limit : Nat) :
    Chunks.Stages (SseDecoder p) UInt8 String Decoding DecodedEvent Failure where
  cut := fun s b ↦ (SseDecoder.step limit s b).mapError .error
  handle := decodeDatum r
  isFinal := Decoding.terminal

section

variable {p : EventParser} {r : Readings} {limit : Nat}

private theorem decodeData_eq_handleAll (p : EventParser) (limit : Nat) (d : Decoding)
    (data : List String) : decodeData r d data = (stages p r limit).handleAll d data := by
  induction data generalizing d with
  | nil => rfl
  | cons x data ih =>
    have hhandle : (stages p r limit).handle d x = decodeDatum r d x := rfl
    unfold decodeData Chunks.Stages.handleAll
    rw [hhandle]
    cases decodeDatum r d x with
    | error e => rfl
    | ok y =>
      obtain ⟨event, d'⟩ := y
      simp only [ih]
      cases (stages p r limit).handleAll d' data <;> rfl

private theorem push_eq_push (c : CodexDecoder p) (chunk : List UInt8) :
    c.push r limit chunk = ((stages p r limit).push c.sse c.decoding chunk).map
      fun x ↦ (x.1, { sse := x.2.1, decoding := x.2.2 }) := by
  unfold CodexDecoder.push Chunks.Stages.push
  rw [SseDecoder.push_eq_cutAll (wireStage p limit) rfl,
    Chunks.Stages.cutAll_mapError (m := wireStage p limit) (n := stages p r limit)
      fun _ _ ↦ rfl]
  by_cases hfinal : c.decoding.terminal = true
  · have hfinal' : (stages p r limit).isFinal c.decoding = true := hfinal
    rw [if_pos hfinal, if_pos hfinal']
    rfl
  · have hfinal' : ¬ (stages p r limit).isFinal c.decoding = true := hfinal
    rw [if_neg hfinal, if_neg hfinal']
    cases (wireStage p limit).cutAll c.sse chunk with
    | error e => rfl
    | ok x =>
      obtain ⟨data, sse⟩ := x
      simp only [decodeData_eq_handleAll p limit, Chunks.Stages.mapError_ok]
      cases (stages p r limit).handleAll c.decoding data <;> rfl

/-- The decoder delivers what its stages deliver. -/
theorem deliver_eq_deliver (c : CodexDecoder p) (chunks : List (List UInt8)) :
    c.deliver r limit chunks = (stages p r limit).deliver c.sse c.decoding chunks := by
  induction chunks generalizing c with
  | nil => rfl
  | cons chunk chunks ih =>
    unfold CodexDecoder.deliver Chunks.Stages.deliver
    rw [push_eq_push]
    cases (stages p r limit).push c.sse c.decoding chunk with
    | error e => rfl
    | ok x =>
      obtain ⟨events, sse, decoding⟩ := x
      simp only [Except.map, ih]
      rfl

end

/-! ### When the chunks make no difference -/

/-- How the data of an event is refused: it is no JSON, has no type, or reports limits that
cannot be read without a panic. -/
def refused (r : Readings) (data : String) : Option Failure :=
  match r.parse data with
  | none => some (.error notJson)
  | some value =>
    match (value.get "type").bind asStr with
    | none => some (.error noType)
    | some kind => if (r.quotas kind value).isNone then some .panic else none

/-- The data of a terminal event. -/
def ends (r : Readings) (data : String) : Bool := (r.parse data).any isTerminal

/-- The failure of the first refused event, unless a terminal one comes before it. -/
def refusal (r : Readings) : List String → Option Failure
  | [] => none
  | data :: rest =>
    match refused r data with
    | some e => some e
    | none => if ends r data then none else refusal r rest

/-- No event of the input is lost to a failure: there is none, or the first event is the one
refused, or the wire fails before there is an event. -/
def Undisturbed (p : EventParser) (r : Readings) (limit : Nat) (input : List UInt8) : Prop :=
  match decodedInput p limit input with
  | (events, some _) => events = []
  | (events, none) => refusal r events.flatten = none ∨
      ∃ first rest, events = first :: rest ∧ refusal r first ≠ none

section

variable {p : EventParser} {r : Readings} {limit : Nat}

private theorem Decoding.observeItem_terminal (d : Decoding) (item : Json) :
    (d.observeItem item).terminal = d.terminal := by
  unfold Decoding.observeItem
  repeat' split
  all_goals rfl

private theorem Decoding.observeItems_terminal (d : Decoding) (items : List Json) :
    (items.foldl Decoding.observeItem d).terminal = d.terminal := by
  induction items generalizing d with
  | nil => rfl
  | cons item items ih => rw [List.foldl_cons, ih, observeItem_terminal]

private theorem Decoding.observeResponse_terminal (d : Decoding) (response : Json) :
    (d.observeResponse response).terminal = d.terminal := by
  unfold Decoding.observeResponse
  simp only
  repeat' split
  all_goals exact observeItems_terminal _ _

/-- What an event reports does not end the stream. -/
theorem Decoding.observe_terminal (d : Decoding) (kind : String) (value : Json) :
    (d.observe kind value).terminal = d.terminal := by
  unfold Decoding.observe
  simp only
  repeat' split
  all_goals simp only [observeResponse_terminal, observeItem_terminal]

/-- The kind of an event decides whether it ends the stream. -/
theorem decodeEvent_terminal {d : Decoding} (hd : d.terminal = false) (kind : String)
    (value : Json) (quotas : List QuotaWindow) :
    (decodeEvent r d kind value quotas).2.terminal = isTerminal value := by
  unfold decodeEvent
  cases isTerminal value <;> simp [Decoding.observe_terminal, hd]

/-- The second stage fails with the first refused event. -/
theorem handleAll_error_iff {d : Decoding} (hd : d.terminal = false) (data : List String)
    (e : Failure) : (stages p r limit).handleAll d data = .error e ↔ refusal r data = some e := by
  rw [← decodeData_eq_handleAll]
  induction data generalizing d with
  | nil => simp [decodeData, refusal]
  | cons x data ih =>
    unfold decodeData refusal decodeDatum refused ends
    cases hx : r.parse x with
    | none => simp
    | some value =>
      cases hk : (value.get "type").bind asStr with
      | none => simp [hk]
      | some kind =>
        cases hq : r.quotas kind value with
        | none => simp [hk, hq]
        | some quotas =>
          have hterminal := decodeEvent_terminal (r := r) hd kind value quotas
          simp only [hk, hq, Option.isNone_some, Bool.false_eq_true, if_false, Option.any_some]
          by_cases ht : isTerminal value = true
          · rw [ht] at hterminal
            simp only [hterminal, ht, if_true, reduceCtorEq]
          · rw [Bool.not_eq_true] at ht
            rw [ht] at hterminal
            simp only [hterminal, ht, Bool.false_eq_true, if_false, ← ih hterminal]
            cases decodeData r (decodeEvent r d kind value quotas).2 data <;> simp

/-- The stages fail with different errors. -/
theorem stages_disjoint (s : SseDecoder p) (b : UInt8) (d : Decoding) (data : String)
    (e : Failure) (hcut : (stages p r limit).cut s b = .error e) :
    (stages p r limit).handle d data ≠ .error e := by
  have hwire : ∃ error, e = .error error ∧ IsWireError error := by
    change (SseDecoder.step limit s b).mapError Failure.error = .error e at hcut
    cases hstep : SseDecoder.step limit s b with
    | ok x =>
      rw [hstep] at hcut
      cases hcut
    | error error =>
      rw [hstep] at hcut
      cases hcut
      exact ⟨error, rfl, SseDecoder.step_error hstep⟩
  obtain ⟨error, rfl, hwire⟩ := hwire
  intro hhandle
  have hevent : error.code = "invalid_upstream_event" := by
    change decodeDatum r d data = .error (.error error) at hhandle
    unfold decodeDatum at hhandle
    repeat' split at hhandle
    all_goals cases hhandle
    all_goals rfl
  obtain rfl | rfl := hwire
  · exact absurd hevent (by decide)
  · exact absurd hevent (by decide)

/-- The chunks an input arrives in make no difference exactly when no event is lost to a
failure in its own chunk. -/
theorem chunks_agree_iff (p : EventParser) (r : Readings) (limit : Nat) (input : List UInt8) :
    (∀ c₁ c₂ : List (List UInt8), c₁.flatten = input → c₂.flatten = input →
      ({} : CodexDecoder p).deliver r limit c₁ = ({} : CodexDecoder p).deliver r limit c₂) ↔
    Undisturbed p r limit input := by
  have hiff := Chunks.Stages.deliver_eq_iff (m := stages p r limit) stages_disjoint
    (s := {}) (t := {}) rfl input
  simp only [deliver_eq_deliver]
  rw [hiff, Chunks.Stages.cuts_mapError (m := wireStage p limit) (n := stages p r limit)
    fun _ _ ↦ rfl, SseDecoder.cuts_new (wireStage p limit) rfl]
  unfold Undisturbed
  obtain ⟨events, failure⟩ := decodedInput p limit input
  cases failure with
  | some e => rfl
  | none =>
    have herror : ∀ data, (∃ e, (stages p r limit).handleAll {} data = .error e) ↔
        refusal r data ≠ none := by
      intro data
      rw [Option.ne_none_iff_exists']
      exact exists_congr fun e ↦ handleAll_error_iff rfl data e
    have hok : (∃ x, (stages p r limit).handleAll {} events.flatten = .ok x) ↔
        refusal r events.flatten = none := by
      rw [← not_iff_not, ← ne_eq, ← herror]
      cases (stages p r limit).handleAll {} events.flatten <;> simp
    simp only [Chunks.Stages.Calm, hok, ← herror]
    refine or_congr_right (exists_congr fun first ↦ exists_congr fun rest ↦ ?_)
    rw [exists_and_left]

/-- A parser that reads each block as the specification does, for ASCII input. -/
def asciiParser : EventParser where
  State := Unit
  initial := ()
  feed _ block :=
    ((Sse.events (block.map fun b ↦ Char.ofNat b.toNat)).map fun data ↦ .ok (String.ofList data),
      ())

/-- Readings of a stream whose only event is a completed response. -/
def exampleReadings : Readings where
  parse text := if text = "\x7b\"type\":\"response.completed\"\x7d" then
    some (.obj [("type", .str "response.completed")]) else none
  asF64 _ := none
  fromTimestamp _ := none
  now := 0
  credits _ := ⟨none, none, none, 0, false⟩
  classifyError _ := (⟨502, "upstream_error", "The upstream could not complete this request"⟩,
    "The upstream could not complete this request", none)

/-- The frame of a completed response. -/
def completedFrame : List UInt8 :=
  Sse.utf8 "data: \x7b\"type\":\"response.completed\"\x7d\n\n".toList

/-- A completed response followed by a block over the limit: in a chunk of its own the
response is delivered, together with that block it is lost. -/
theorem chunks_disagree : ¬ ∀ (limit : Nat) (c₁ c₂ : List (List UInt8)),
    c₁.flatten = c₂.flatten →
    ({} : CodexDecoder asciiParser).deliver exampleReadings limit c₁ =
      ({} : CodexDecoder asciiParser).deliver exampleReadings limit c₂ := by
  intro h
  have hflat : [completedFrame, List.replicate 65 97].flatten =
      [completedFrame ++ List.replicate 65 97].flatten := by decide +kernel
  have hend := congrArg Prod.snd (h 64 _ _ hflat)
  have hsplit : (({} : CodexDecoder asciiParser).deliver exampleReadings 64
      [completedFrame, List.replicate 65 97]).2 = .final := by decide +kernel
  have hwhole : (({} : CodexDecoder asciiParser).deliver exampleReadings 64
      [completedFrame ++ List.replicate 65 97]).2 = .failed (.error eventTooLarge) := by
    decide +kernel
  rw [hsplit, hwhole] at hend
  cases hend

end

end Xxgate.Codex

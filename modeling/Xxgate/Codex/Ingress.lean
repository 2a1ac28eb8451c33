import Xxgate.Codex.IdentityInput
import Xxgate.Core.Identity

/-!
# Parsing requests

`crates/xxgate-codex/src/ingress.rs:14–293`, with the compaction metadata of
`compaction.rs:27–101` and the selection of headers of `identity_trace.rs:97`. What only
serves the record of a request is not kept: the detected client, the turn state, the
reasoning effort and the trace of identifiers.
-/

namespace Xxgate.Codex

open Xxgate.Core

/-- `ingress.rs:16–41`: the client metadata with the turn metadata nested in it. -/
def clientMetadata (t : JsonText) (body : Json) : Result (List Json) :=
  match body.get "client_metadata" with
  | none => .ok []
  | some metadata =>
    if !metadata.isObject then .error (.invalid "client_metadata must be an object")
    else
      match metadata.get "x-codex-turn-metadata" with
      | none => .ok [metadata]
      | some nested =>
        match nested.asStr with
        | none => .error (.invalid "Codex turn metadata must be a JSON string")
        | some text =>
          if 128 * 1024 < text.utf8ByteSize then
            .error (.invalid "Codex turn metadata is too large")
          else
            match t.parse text with
            | none => .error (.invalid "Codex turn metadata is invalid JSON")
            | some value => .ok [metadata, value]

/-- `ingress.rs:42–50`: the turn metadata header. -/
def headerMetadata (t : JsonText) (headers : Headers) : Result (List Json) :=
  match headers.get "x-codex-turn-metadata" with
  | none => .ok []
  | some value =>
    if (headers.getAll "x-codex-turn-metadata").length ≠ 1 then
      .error (.invalid "Duplicate Codex metadata headers")
    else
      match value.bind t.parse with
      | none => .error (.invalid "Codex metadata header is invalid JSON")
      | some value => .ok [value]

/-- `ingress.rs:58–62`: the flat aliases and the fields they stand for. -/
def flatAliases : List (String × String) :=
  [("x-codex-window-id", "window_id"), ("x-codex-parent-thread-id", "parent_thread_id"),
    ("x-codex-installation-id", "installation_id")]

/-- `ingress.rs:64–66`: the aliases of one source, each as a source of its own. -/
def aliasSources (source : Json) : List Json :=
  flatAliases.filterMap fun a ↦ (source.get a.1).map fun value ↦ .obj [(a.2, value)]

/-- `ingress.rs:14`. -/
def metadata (t : JsonText) (body : Json) (headers : Headers) : Result (List Json) := do
  let client ← clientMetadata t body
  let turn ← headerMetadata t headers
  let result := client ++ turn
  if result.any (!·.isObject) then throw (.invalid "Codex metadata must be a JSON object")
  return result ++ result.flatMap aliasSources

/-- `ingress.rs:80–86`: the values of a header. -/
def headerTexts (values : List HeaderValue) : Result (List String) :=
  values.mapM fun value ↦
    match value.toStr with
    | some text => .ok text
    | none => .error (.invalid "Invalid identity header")

/-- `ingress.rs:87–97`: the values of a field of the metadata. -/
def fieldTexts (sources : List Json) (field : String) : Result (List String) :=
  (sources.filterMap fun source ↦ (source.get field).filter (!·.isNull)).mapM fun value ↦
    match value.asStr with
    | some text => .ok text
    | none => .error (.invalid "Identity fields must be strings")

/-- `ingress.rs:72`: the value all copies of a field agree on. -/
def coherent (headers : Headers) (header : Option String) (sources : List Json)
    (field : String) : Result (Option String) := do
  let fromHeader ← headerTexts (match header with
    | some name => headers.getAll name
    | none => [])
  let fromMetadata ← fieldTexts sources field
  let values := fromHeader ++ fromMetadata
  if values.any fun v ↦ v = "" || 512 < v.utf8ByteSize || v.toList.any isControl then
    throw (.invalid "Invalid identity field length or characters")
  match values with
  | [] => return none
  | first :: _ =>
    if values.any (· ≠ first) then
      throw ⟨400, "identity_conflict",
        "Identity fields disagree between headers and request metadata"⟩
    return some first

/-! ### Compaction metadata -/

/-- `compaction.rs:76`. -/
def compactionFields : List String := ["trigger", "reason", "implementation", "phase", "strategy"]

/-- `compaction.rs:80–87`: a text a field of the compaction metadata may have. -/
def compactionText (value : Json) : Option String :=
  value.asStr.filter fun s ↦ s ≠ "" && s.utf8ByteSize ≤ 128 &&
    s.toList.all fun c ↦ (c.isAlphanum || c == '_')

/-- `compaction.rs:75–95`: one field of one source. -/
def addCompactionField (object : Json) (compaction : List (String × Json)) (field : String) :
    Result (List (String × Json)) :=
  match object.get field with
  | none => .ok compaction
  | some value =>
    match compactionText value with
    | none => .error (.invalid "Invalid compaction metadata")
    | some text =>
      if (Json.field compaction field).any fun previous ↦ previous.asStr ≠ some text then
        .error ⟨400, "compaction_metadata_conflict", "Compaction metadata fields disagree"⟩
      else .ok (Json.insert compaction field (.str text))

/-- `compaction.rs:67–96`: one source. A value that is no object is read over. -/
def addCompaction (compaction : List (String × Json)) (source : Json) :
    Result (List (String × Json)) :=
  match source.get "compaction" with
  | some (.obj fields) => compactionFields.foldlM (addCompactionField (.obj fields)) compaction
  | _ => .ok compaction

/-- `compaction.rs:59`. -/
def compactionMetadata (sources : List Json) : Result (List (String × Json)) := do
  let requestKind ← coherent [] none sources "request_kind"
  let compaction ← sources.foldlM addCompaction []
  return (if compaction.isEmpty then [] else [("compaction", .obj compaction)]) ++
    (requestKind.map fun kind ↦ ("request_kind", .str kind)).toList

/-- `protocol.rs:51`: how a request compacts its history. -/
inductive CompactionMethod where
  | compact
  | remoteV2
  deriving DecidableEq, Repr

/-- `compaction.rs:20`. -/
def compactionOperation (body : Json) (sources : List Json) (kind : RequestKind) :
    Result (Option CompactionMethod) := do
  let metadata := Json.obj (← compactionMetadata sources)
  if kind = .compact then return some .compact
  else if kind = .responses &&
      ((((body.get "input").bind Json.asArray).getD []).any (·.hasType "compaction_trigger") ||
        ((metadata.get "request_kind").bind Json.asStr == some "compaction" &&
          ((metadata.get "compaction").bind (·.get "implementation")).bind Json.asStr ==
            some "responses_compaction_v2")) then
    return some .remoteV2
  else return none

/-! ### Requests -/

/-- `identity_trace.rs:22`, and the turn metadata header after them. -/
def identityHeaderNames : List String :=
  ["session-id", "session_id", "conversation-id", "conversation_id", "thread-id", "thread_id",
    "x-client-request-id", "x-codex-installation-id", "x-codex-window-id",
    "x-codex-parent-thread-id", "x-codex-turn-metadata"]

/-- `identity_trace.rs:97`. -/
def selectHeaders (headers : Headers) : Headers :=
  identityHeaderNames.flatMap fun name ↦ (headers.getAll name).map (name, ·)

/-- `protocol.rs:62`: the parts of a request its adapter reads. -/
structure IngressRequest where
  kind : RequestKind
  stateless : Bool
  identity : ClientIdentity
  turnId : Option String
  clientMetadataPresent : Bool
  identityHeaders : Headers
  compaction : Option CompactionMethod
  model : String
  stream : Bool
  requestedTier : Option String
  document : Json

/-- The parameters of `ingress.rs:121–160`. -/
def allowedParameters (kind : RequestKind) : List String :=
  if kind = .compact then
    ["model", "input", "instructions", "tools", "parallel_tool_calls", "reasoning",
      "service_tier", "prompt_cache_key", "text", "client_metadata", "access_programs", "stream"]
  else
    ["model", "input", "instructions", "tools", "tool_choice", "parallel_tool_calls",
      "reasoning", "store", "stream", "stream_options", "include", "service_tier",
      "prompt_cache_key", "text", "client_metadata", "max_output_tokens", "temperature", "top_p",
      "truncation", "previous_response_id", "background", "metadata"]

/-- The names of an object's fields. -/
def fieldNames : Json → List String
  | .obj fields => fields.map (·.1)
  | _ => []

/-- A field that is `true`. -/
def isTrue (body : Json) (name : String) : Bool :=
  match body.get name with
  | some (.bool value) => value
  | _ => false

/-- `ingress.rs:118–203`: the checks of the parameters; the model of the request. -/
def checkParameters (body : Json) (kind : RequestKind) : Result String := do
  if !body.isObject then throw (.invalid "Request body must be an object")
  if (fieldNames body).any fun k ↦ !(allowedParameters kind).contains k then
    throw ⟨400, "unsupported_parameter",
      "The request contains a parameter this gateway does not support"⟩
  if isTrue body "background" then
    throw ⟨400, "unsupported_background", "Background responses are not supported"⟩
  if (body.get "previous_response_id").any (!·.isNull) then
    throw ⟨400, "unsupported_reference",
      "This HTTP gateway requires explicit conversation history instead of previous_response_id"⟩
  let model ← match ((body.get "model").bind Json.asStr).filter
      fun s ↦ s ≠ "" && s.utf8ByteSize ≤ 160 with
    | some model => pure model
    | none => throw (.invalid "A model name is required")
  if !(body.get "input").any fun v ↦ (v.asArray.isSome || v.asStr.isSome) then
    throw (.invalid "input must be a string or an array")
  if (body.get "stream").any fun v ↦ (match v with | .bool _ => false | _ => true) then
    throw (.invalid "stream must be a boolean")
  if kind = .compact && isTrue body "stream" then
    throw (.invalid "Compact returns a single JSON response; streaming is not supported")
  return model

/-- `ingress.rs:217–227`: the fields that have to agree, with the header that carries them. -/
def coherentFields : List (String × Option String) :=
  [("window_id", some "x-codex-window-id"), ("installation_id", some "x-codex-installation-id"),
    ("parent_thread_id", some "x-codex-parent-thread-id"), ("context_window_id", none),
    ("forked_from_thread_id", none), ("parent_turn_id", none), ("root_turn_id", none)]

/-- `ingress.rs:229–245`. -/
def requestedTier (body : Json) : Result (Option String) := do
  let tier ← match (body.get "service_tier").filter (!·.isNull) with
    | none => pure none
    | some value =>
      match value.asStr with
      | some tier => pure (some tier)
      | none => throw (.invalid "Invalid service_tier")
  if tier.any fun v ↦ !(["default", "auto", "fast", "priority"].contains v) then
    throw (.invalid "Unsupported service_tier")
  return tier

/-- `ingress.rs:116`. The identity of a request without one is drawn by the caller. -/
def parse (t : JsonText) (headers : Headers) (body : Json) (kind : RequestKind) (drawn : Uuid) :
    Result IngressRequest := do
  let model ← checkParameters body kind
  let sources ← metadata t body headers
  let compaction ← compactionOperation body sources kind
  let resolved ← inspect t headers body kind
  let turnId ← coherent headers none sources "turn_id"
  coherentFields.forM fun f ↦ do
    let _ ← coherent headers f.2 sources f.1
  let tier ← requestedTier body
  return {
    kind := kind
    stateless := resolved.isNone
    identity := resolved.getD ⟨drawn.hyphenated, drawn.hyphenated⟩
    turnId := turnId
    clientMetadataPresent := (body.get "client_metadata").isSome
    identityHeaders := selectHeaders headers
    compaction := compaction
    model := model
    stream := isTrue body "stream"
    requestedTier := tier
    document := body }

end Xxgate.Codex

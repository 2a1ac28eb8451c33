import Xxgate.Codex.Headers
import Xxgate.Core.Protocol

/-!
# Resolving a client's identity

`crates/xxgate-codex/src/identity_input.rs:29–262`: the identity signals of a request are
collected from its headers and metadata, the copies of one field have to agree, and the
session and the thread are resolved from what is left. The report for diagnostics is not
kept.
-/

namespace Xxgate.Codex

open Xxgate.Core

/-! ### Candidates -/

/-- The statuses of `identity_input.rs:30–39` and `:63`. -/
inductive Status where
  | valid
  | empty
  | tooLong
  | invalidCharacters
  | invalidType
  | invalidEncoding
  deriving DecidableEq, Repr

/-- The text of a status in an error. -/
def Status.text : Status → String
  | .valid => "valid"
  | .empty => "empty"
  | .tooLong => "too_long"
  | .invalidCharacters => "invalid_characters"
  | .invalidType => "invalid_type"
  | .invalidEncoding => "invalid_encoding"

/-- `identity_input.rs:16`. -/
structure Candidate where
  field : String
  source : String
  status : Status
  value : Option String
  deriving DecidableEq

/-- `char::is_control`. -/
def isControl (c : Char) : Bool := c.toNat < 0x20 || (0x7F ≤ c.toNat && c.toNat < 0xA0)

/-- `identity_input.rs:29`. -/
def candidate (field source : String) (value : Json) : Candidate :=
  match value with
  | .null => ⟨field, source, .empty, none⟩
  | .str s =>
    if 512 < s.utf8ByteSize then ⟨field, source, .tooLong, none⟩
    else if s.toList.any isControl then ⟨field, source, .invalidCharacters, none⟩
    else if trim s = "" then ⟨field, source, .empty, none⟩
    else ⟨field, source, .valid, some (trim s)⟩
  | _ => ⟨field, source, .invalidType, none⟩

/-- `identity_input.rs:60–69`. -/
def headerCandidate (field name : String) (index : Nat) (value : HeaderValue) : Candidate :=
  let source := "headers." ++ name ++ "[" ++ toString index ++ "]"
  match value.toStr with
  | some text => candidate field source (.str text)
  | none => ⟨field, source, .invalidEncoding, none⟩

/-- `identity_input.rs:49`. -/
def headerCandidates (headers : Headers) (field : String) :
    List String → Result (List Candidate)
  | [] => .ok []
  | name :: names => do
    if 4 < (headers.getAll name).length then
      throw (.invalid ("Too many occurrences of " ++ name))
    let rest ← headerCandidates headers field names
    return (headers.getAll name).mapIdx (headerCandidate field name) ++ rest

/-- The aliases of the resolved fields, `identity_input.rs:79–83`. -/
def resolvedAliases : List (String × List String) :=
  [("session_id", ["session_id", "session-id"]), ("thread_id", ["thread_id", "thread-id"]),
    ("conversation_id", ["conversation_id", "conversation-id"])]

/-- The other fields of `identity_input.rs:90–102`. -/
def otherFields : List String :=
  ["turn_id", "parent_thread_id", "forked_from_thread_id", "parent_turn_id", "root_turn_id",
    "window_id", "context_window_id", "installation_id", "x-codex-window-id",
    "x-codex-installation-id", "x-codex-parent-thread-id"]

/-- The candidate of one field of a metadata object, if it has the field. -/
def fieldCandidate (metadata : Json) (source field name : String) : Option Candidate :=
  (metadata.get name).map (candidate field (source ++ "." ++ name))

/-- `identity_input.rs:75`. -/
def metadataCandidates (metadata : Json) (source : String) : Result (List Candidate) :=
  if metadata.isObject then
    .ok (resolvedAliases.flatMap (fun a ↦ a.2.filterMap (fieldCandidate metadata source a.1)) ++
      otherFields.filterMap fun field ↦ fieldCandidate metadata source field field)
  else .error (.invalid (source ++ " must be a JSON object"))

/-- `identity_input.rs:111`. -/
def parseMetadata (t : JsonText) (text source : String) : Result Json :=
  if 128 * 1024 < text.utf8ByteSize then .error (.invalid (source ++ " exceeds 128 KiB"))
  else
    match t.parse text with
    | some value => .ok value
    | none => .error (.invalid (source ++ " is not valid JSON"))

/-- `identity_input.rs:139–148`: the candidates of the client metadata and of the turn metadata
nested in it. -/
def clientCandidates (t : JsonText) (body : Json) : Result (List Candidate) :=
  match body.get "client_metadata" with
  | none => .ok []
  | some metadata => do
    let flat ← metadataCandidates metadata "body.client_metadata"
    match metadata.get "x-codex-turn-metadata" with
    | none => return flat
    | some nested =>
      let source := "body.client_metadata.x-codex-turn-metadata"
      match nested.asStr with
      | none => throw (.invalid (source ++ " must be a JSON string"))
      | some text =>
        let value ← parseMetadata t text source
        let deep ← metadataCandidates value source
        return flat ++ deep

/-- `identity_input.rs:149–158`: the candidates of the turn metadata header. -/
def turnCandidates (t : JsonText) (headers : Headers) : Result (List Candidate) :=
  match headers.get "x-codex-turn-metadata" with
  | none => .ok []
  | some value =>
    let source := "headers.x-codex-turn-metadata"
    if (headers.getAll "x-codex-turn-metadata").length ≠ 1 then
      .error (.invalid "Duplicate x-codex-turn-metadata headers")
    else
      match value.toStr with
      | none => .error (.invalid "Invalid x-codex-turn-metadata encoding")
      | some text => do
        let value ← parseMetadata t text source
        metadataCandidates value source

/-- `identity_input.rs:159–170`. -/
def bodyCandidates (body : Json) (kind : RequestKind) : List Candidate :=
  ((body.get "prompt_cache_key").map
    (candidate "prompt_cache_key" "body.prompt_cache_key")).toList ++
  if kind = .search then ((body.get "id").map (candidate "search_id" "body.id")).toList else []

/-- `identity_input.rs:118`. -/
def collectCandidates (t : JsonText) (headers : Headers) (body : Json) (kind : RequestKind) :
    Result (List Candidate) := do
  let sessions ← headerCandidates headers "session_id" ["session-id", "session_id"]
  let threads ← headerCandidates headers "thread_id" ["thread-id", "thread_id"]
  let conversations ←
    headerCandidates headers "conversation_id" ["conversation-id", "conversation_id"]
  let windows ← headerCandidates headers "window_id" ["x-codex-window-id"]
  let installations ← headerCandidates headers "installation_id" ["x-codex-installation-id"]
  let parents ← headerCandidates headers "parent_thread_id" ["x-codex-parent-thread-id"]
  let client ← clientCandidates t body
  let turn ← turnCandidates t headers
  return sessions ++ threads ++ conversations ++ windows ++ installations ++ parents ++ client ++
    turn ++ bodyCandidates body kind

/-! ### Resolution -/

/-- `identity_input.rs:175`: the value the valid candidates of a field agree on. -/
def coherentCandidates (candidates : List Candidate) (field : String) :
    Result (Option String) :=
  let values := candidates.filter (·.field = field)
  match values.find? fun c ↦ c.status ≠ .valid && c.status ≠ .empty with
  | some c => .error (.invalid ("Invalid identity at " ++ c.source ++ " (" ++ c.status.text ++ ")"))
  | none =>
    let valid := values.filter (·.value.isSome)
    match valid with
    | [] => .ok none
    | first :: _ =>
      if valid.any (·.value ≠ first.value) then
        .error ⟨400, "identity_conflict", "Conflicting " ++ field ++ " values in " ++
          ", ".intercalate (valid.map (·.source))⟩
      else .ok first.value

/-- `identity_input.rs:208`: the resolved session and thread, none where the request is
stateless. -/
def inspect (t : JsonText) (headers : Headers) (body : Json) (kind : RequestKind) :
    Result (Option ClientIdentity) := do
  let candidates ← collectCandidates t headers body kind
  let session ← coherentCandidates candidates "session_id"
  let thread ← coherentCandidates candidates "thread_id"
  let conversation ← coherentCandidates candidates "conversation_id"
  let _ ← coherentCandidates candidates "prompt_cache_key"
  let search ← coherentCandidates candidates "search_id"
  match ((session.or conversation).or thread).or search with
  | none => return none
  | some sessionId =>
    return some ⟨sessionId, (thread.or conversation).getD sessionId⟩

end Xxgate.Codex

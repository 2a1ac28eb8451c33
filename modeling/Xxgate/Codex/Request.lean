import Xxgate.Codex.Ingress
import Xxgate.Codex.References

/-!
# Preparing requests

`crates/xxgate-codex/src/provider/request.rs:76–419`: the request sent upstream in place of
a client's. The identities in its headers and metadata are mapped through the binding's
`IdentityMap`; what maps them is a parameter of the functions between, so that the same code
can be read with the map and without it. The trace of the rewriting is not kept.
-/

namespace Xxgate.Codex

open Xxgate.Core Json

/-- `accounts.rs:43`, with what only the adapter reads of an account and its profile. -/
structure UpstreamAccount extends Account where
  installationId : Uuid
  upstreamBaseUrl : String

/-! ### Identities -/

/-- `request.rs:216`. -/
def identityKind (name : String) : Option String :=
  if ["session-id", "session_id", "conversation-id", "conversation_id", "thread-id", "thread_id",
      "parent_thread_id", "forked_from_thread_id", "x-codex-parent-thread-id"].contains name then
    some "thread"
  else if ["turn_id", "parent_turn_id", "root_turn_id", "x-codex-image-turn-id"].contains name then
    some "turn"
  else if ["window_id", "x-codex-window-id"].contains name then some "window"
  else if name = "context_window_id" then some "context_window"
  else if name = "x-client-request-id" then some "request"
  else none

/-- The names of the installation identifier. -/
def isInstallation (name : String) : Bool :=
  name == "installation_id" || name == "x-codex-installation-id"

section

variable {m : Type → Type} [Monad m] [MonadExceptOf Error m] (http : HeaderText) (t : JsonText)
  (outbound : String → String → m String) (installationId : Uuid)

/-- An error of a step that maps nothing. -/
def ofResult {α : Type} (r : Result α) : m α :=
  match r with
  | .ok x => pure x
  | .error e => throw e

/-- `request.rs:235`. -/
def mappedIdentity (name value : String) : m String :=
  if isInstallation name then pure installationId.hyphenated
  else
    match identityKind name with
    | some kind => outbound kind (trim value)
    | none => pure value

/-- `request.rs:264–270`: a field of the metadata that is no turn metadata. -/
def normalizedField (name : String) (item : Json) : m Json :=
  if (identityKind name).isSome || isInstallation name then
    match item.asStr.filter (trim · ≠ "") with
    | some text => do return .str (← mappedIdentity outbound installationId name text)
    | none => pure item
  else pure item

/-- `request.rs:250`. The depth bounds the recursion into nested texts. -/
def normalizedMetadata : Nat → Json → m Json
  | depth + 1, .obj fields => do
    let fields ← fields.mapM fun f ↦
      if f.1 = "x-codex-turn-metadata" then
        match f.2.asStr.bind t.parse with
        | some nested => do return (f.1, .str (t.print (← normalizedMetadata depth nested)))
        | none => throw (.invalid "Invalid turn metadata")
      else do return (f.1, ← normalizedField outbound installationId f.1 f.2)
    return .obj fields
  | _, _ => throw (.invalid "Client metadata must be an object")

/-- A bound for the levels of nested turn metadata: each is a part of the text of the one
before. -/
def nestingBound : Json → Nat
  | .obj fields => (fields.map fun f ↦ (f.2.asStr.getD "").utf8ByteSize).foldr max 0 + 2
  | _ => 1

/-! ### Headers -/

/-- `request.rs:297–302`: the name an identity header is sent under. -/
def canonicalHeader (name : String) : String :=
  if name = "session_id" || name = "conversation_id" || name = "conversation-id" then "session-id"
  else if name = "thread_id" then "thread-id"
  else name

/-- `request.rs:303–309`: an alias that an explicit session header takes precedence over. -/
def isSuperseded (headers : Headers) (name : String) : Bool :=
  (name == "conversation_id" || name == "conversation-id") &&
    (headers.containsKey "session-id" || headers.containsKey "session_id")

/-- `request.rs:409`. -/
def insertMissingHeader (headers : Headers) (name value : String) : m Headers :=
  if headers.containsKey name then pure headers
  else if http.fits value then pure (headers.insert name (some value))
  else throw (.invalid "Invalid normalized header")

/-- `request.rs:287–296`: the value an identity header is sent with. -/
def mappedHeader (name text : String) : m String :=
  if name = "x-codex-turn-metadata" then
    match t.parse text with
    | some metadata => do
      return t.print
        (← normalizedMetadata t outbound installationId (text.utf8ByteSize + 1) metadata)
    | none => throw (.invalid "Invalid turn metadata")
  else mappedIdentity outbound installationId name text

/-- `request.rs:280–318`: one identity header of the client. -/
def forwardHeader (identityHeaders headers : Headers) (entry : String × HeaderValue) : m Headers :=
  match entry.2.toStr with
  | none => throw (.invalid "Invalid identity header")
  | some text =>
    if trim text = "" then pure headers
    else do
      let mapped ← mappedHeader t outbound installationId entry.1 text
      if isSuperseded identityHeaders entry.1 then return headers
      if http.fits mapped then
        return headers.insert (canonicalHeader entry.1) (some mapped)
      else throw (.invalid "Invalid normalized header")

/-- `request.rs:349–358`: the fields projected into the headers. -/
def projectedFields : List (String × Option String) :=
  [("installation_id", some "x-codex-installation-id"), ("window_id", some "x-codex-window-id"),
    ("parent_thread_id", some "x-codex-parent-thread-id"), ("turn_id", none),
    ("context_window_id", none), ("forked_from_thread_id", none), ("parent_turn_id", none),
    ("root_turn_id", none)]

/-- `request.rs:359–366`: one projected field. -/
def projectField (identityHeaders : Headers) (sources : List Json)
    (s : Headers × List (String × Json)) (f : String × Option String) :
    m (Headers × List (String × Json)) := do
  match ← ofResult (coherent identityHeaders f.2 sources f.1) with
  | none => return s
  | some value =>
    let mapped ← mappedIdentity outbound installationId f.1 value
    let headers ← match f.2 with
      | some header => insertMissingHeader http s.1 header mapped
      | none => pure s.1
    return (headers, insert s.2 f.1 (.str mapped))

/-- `request.rs:380–390`: a field is added to the client's turn metadata where it is missing,
and so is each field of its compaction. -/
def addTurnField (fields : List (String × Json)) (f : String × Json) : List (String × Json) :=
  let missing := fun (fields : List (String × Json)) (f : String × Json) ↦
    if (field fields f.1).isSome then fields else insert fields f.1 f.2
  match f.1 == "compaction", field fields f.1, f.2 with
  | true, some (.obj previous), .obj added =>
    replace fields f.1 (.obj (added.foldl missing previous))
  | _, _, _ => missing fields f

/-- `request.rs:368–404`: the turn metadata header with what the gateway knows of the turn. -/
def projectTurn (headers : Headers) (turn : List (String × Json)) : m Headers :=
  if turn.isEmpty then pure headers
  else
    match headers.get "x-codex-turn-metadata" with
    | some existing =>
      match existing.bind t.parse with
      | some (.obj fields) => do
        let text := t.print (.obj (turn.foldl addTurnField fields))
        if http.fits text then return headers.insert "x-codex-turn-metadata" (some text)
        else throw (.invalid "Invalid turn metadata")
      | _ => throw (.invalid "Invalid turn metadata")
    | none => insertMissingHeader http headers "x-codex-turn-metadata" (t.print (.obj turn))

/-- `request.rs:329–335`: the headers of the resolved identity. -/
def identityHeaders (r : IngressRequest) (headers : Headers) : m Headers :=
  if r.stateless then pure headers
  else do
    let session ← outbound "thread" r.identity.sessionId
    let thread ← outbound "thread" r.identity.threadId
    let headers ← insertMissingHeader http headers "session-id" session
    let headers ← insertMissingHeader http headers "thread-id" thread
    insertMissingHeader http headers "x-client-request-id" thread

/-- `request.rs:340–348`: the resolved identity in the turn metadata. -/
def identityTurn (r : IngressRequest) : m (List (String × Json)) :=
  if r.stateless then pure []
  else do
    let session ← outbound "thread" r.identity.sessionId
    let thread ← outbound "thread" r.identity.threadId
    return [("session_id", .str session), ("thread_id", .str thread)]

/-- `request.rs:319–328`: the client metadata. -/
def normalizedClientMetadata (r : IngressRequest) : m (Option Json) :=
  if r.clientMetadataPresent then do
    let metadata := (r.document.get "client_metadata").getD .null
    return some (← normalizedMetadata t outbound installationId (nestingBound metadata) metadata)
  else pure none

/-- `request.rs:272`, after the headers of the account. -/
def normalizedHeaders (r : IngressRequest) (base : Headers) : m (Headers × Option Json) := do
  let headers ← r.identityHeaders.foldlM
    (forwardHeader http t outbound installationId r.identityHeaders) base
  let clientMetadata ← normalizedClientMetadata t outbound installationId r
  let headers ← identityHeaders http outbound r headers
  let sources ← ofResult (metadata t r.document r.identityHeaders)
  let turn ← identityTurn outbound r
  let s ← projectedFields.foldlM
    (projectField http outbound installationId r.identityHeaders sources) (headers, turn)
  let compaction ← ofResult (compactionMetadata sources)
  let headers ← projectTurn http t s.1 (compaction.foldl (fun turn f ↦ insert turn f.1 f.2) s.2)
  return (headers, clientMetadata)

/-! ### The cache key -/

/-- `request.rs:176–180`: what a cache partition is hashed under. -/
def cacheName (keyId : Uuid) (cache : String) : String :=
  "prompt_cache" ++ String.singleton IdentityMap.nul ++ keyId.hyphenated ++
    String.singleton IdentityMap.nul ++ cache

/-- `request.rs:155–159`: the client's cache key. -/
def cacheKey (r : IngressRequest) : Option String :=
  (((r.document.get "prompt_cache_key").bind asStr).map trim).filter (· ≠ "")

/-- `request.rs:163–183`: the key sent for a client's: a session key keeps its mapping, any other
is scoped by the gateway key and the account. -/
def mappedCacheKey (v5 : Uuid → String → Uuid) (keyId : Uuid) (r : IngressRequest)
    (cache : String) : m String :=
  if !r.stateless && (cache = r.identity.sessionId || cache = r.identity.threadId) then
    outbound "thread" cache
  else pure (v5 installationId (cacheName keyId cache)).hyphenated

/-- `request.rs:155–195`: the headers with the cache key of a stateless request, and the key. -/
def forwardCacheKey (v5 : Uuid → String → Uuid) (keyId : Uuid) (r : IngressRequest)
    (headers : Headers) : m (Headers × Option String) :=
  match cacheKey r with
  | none => pure (headers, none)
  | some cache => do
    let mapped ← mappedCacheKey outbound installationId v5 keyId r cache
    if r.stateless && r.kind == .responses then
      let headers ← insertMissingHeader http headers "session_id" mapped
      let headers ← insertMissingHeader http headers "conversation_id" mapped
      return (headers, some mapped)
    else return (headers, some mapped)

end

/-! ### The request -/

/-- `request.rs:76`. -/
def authHeaders (http : HeaderText) (a : UpstreamAccount) (c : Credentials) : Result Headers :=
  let entries := [("authorization", "Bearer " ++ c.accessToken),
    ("chatgpt-account-id", a.upstreamAccountId), ("originator", "codex_cli_rs"),
    ("user-agent", a.profile.userAgent)]
  if entries.all fun e ↦ http.fits e.2 then
    .ok (entries.foldl (fun headers e ↦ headers.insert e.1 (some e.2)) [])
  else .error (.invalid "Invalid account header")

/-- `request.rs:107–121`. -/
def forwardedKeys : List String :=
  ["input", "instructions", "tools", "tool_choice", "parallel_tool_calls", "reasoning",
    "stream_options", "include", "text", "temperature", "top_p", "truncation", "access_programs"]

/-- `request.rs:132–136`. -/
def developerRole (item : Json) : Json :=
  if (item.get "role").bind asStr = some "system" then setField item "role" (.str "developer")
  else item

/-- `request.rs:129–138`: the input as a list of messages. -/
def messageInput (input : Json) : Json :=
  match input with
  | .str text => .arr [.obj [("content", .str text), ("role", .str "user")]]
  | .arr items => .arr (items.map developerRole)
  | other => other

/-- `search_history.rs:24–28`. -/
def isSearchTool (tool : Json) : Bool :=
  ((tool.get "type").bind asStr).any fun kind ↦
    kind == "web_search" || "web_search_preview".isPrefixOf kind

/-- `search_history.rs:6`: a search tool is declared where the history holds a search. -/
def ensureDeclaration (body : List (String × Json)) : List (String × Json) :=
  match (field body "input").bind asArray with
  | none => body
  | some input =>
    let tools := ((field body "tools").bind asArray).getD []
    let additional := (input.filter (·.hasType "additional_tools")).flatMap fun item ↦
      ((item.get "tools").bind asArray).getD []
    let declared := tools ++ additional
    if !input.any (·.hasType "web_search_call") then body
    else if declared.any isSearchTool then body
    else if (field body "tools").any fun v ↦ v.asArray.isNone && !v.isNull then body
    else
      let tool := Json.obj [("external_web_access", .bool false), ("type", .str "web_search")]
      let declaring := insert body "tools" (.arr (tools ++ [tool]))
      if declared.isEmpty && (field body "tool_choice").all fun choice ↦
          choice.asStr == some "auto" || choice.asStr == some "none" then
        insert declaring "tool_choice" (.str "none")
      else declaring

/-- `protocol.rs:85`. -/
structure PreparedUpstream extends PreparedRequest where
  headers : Headers

/-- A field that is set where there is something to set. -/
def insertSome (body : List (String × Json)) (key : String) (value : Option Json) :
    List (String × Json) :=
  match value with
  | some value => insert body key value
  | none => body

/-- `request.rs:102–139`: the fields that are forwarded, with the references of the input put
back. -/
def forwardedBody (r : IngressRequest) (ids : IdentityMap) : Result (List (String × Json)) :=
  let body := forwardedKeys.foldl (fun body key ↦ insertSome body key (r.document.get key)) []
  match field body "input" with
  | some input => do return insert body "input" (← rewriteInput (messageInput input) ids)
  | none => .ok body

/-- `request.rs:140–151`: the fields the gateway sets. -/
def completeBody (r : IngressRequest) (model : ModelSpec) (body : List (String × Json)) :
    List (String × Json) :=
  let body := if (field body "instructions").isSome then body
    else insert body "instructions" (.str "")
  let body := if r.kind = .responses then ensureDeclaration body else body
  let body := insert body "model" (.str model.upstream.model)
  let body := if r.kind = .compact then body
    else insert (insert body "store" (.bool false)) "stream" (.bool true)
  insertSome body "service_tier" ((r.requestedTier.filter (· ≠ "auto")).map .str)

/-- `request.rs:95–151`: the body, before the identities. -/
def prepareBody (r : IngressRequest) (model : ModelSpec) (ids : IdentityMap) :
    Result (List (String × Json)) := do
  return completeBody r model (← forwardedBody r ids)

/-- `trim_end_matches('/')`. -/
def trimSlashes (url : String) : String :=
  String.ofList ((url.toList.reverse.dropWhile (· == '/')).reverse)

/-- `request.rs:95`. -/
def prepareRequest (http : HeaderText) (v5 : Uuid → String → Uuid) (t : JsonText)
    (r : IngressRequest) (model : ModelSpec) (a : UpstreamAccount) (c : Credentials) :
    StateT IdentityMap Result PreparedUpstream := do
  let ids ← get
  let outbound := fun kind client ↦ (IdentityMap.outbound v5 kind client : StateT _ Result _)
  let body ← ofResult (prepareBody r model ids)
  let base ← ofResult (authHeaders http a c)
  let base := (base.insert "content-type" (some "application/json")).insert "accept"
    (some "text/event-stream")
  let s ← normalizedHeaders http t outbound a.installationId r base
  let headers := if r.kind = .compact then s.1.insert "accept" (some "application/json") else s.1
  let body := insertSome body "client_metadata" s.2
  let cache ← forwardCacheKey http outbound a.installationId v5 ids.binding.session.keyId r headers
  let body := insertSome body "prompt_cache_key" (cache.2.map .str)
  return {
    url := trimSlashes a.upstreamBaseUrl ++ "/responses" ++
      (if r.kind = .compact then "/compact" else "")
    body := some (.obj body)
    headers := cache.1 }

end Xxgate.Codex

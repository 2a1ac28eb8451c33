import Xxgate.Codex.Events

/-!
# Errors of the upstream

`crates/xxgate-codex/src/provider/mod.rs` from line 168 on and `error_diagnostics.rs`: what an
answer that is an error is reported and stored as, and whether the account is disabled for it.
Upstream text may quote the request; of the body nothing is looked at but listed scalar fields.
-/

namespace Xxgate.Codex

open Xxgate.Core Xxgate.Base Json

/-- `types.rs:31`. -/
structure OriginalUpstreamError where
  source : String
  fields : List (String × Json)
  truncated : Bool

/-- `types.rs:22`. -/
structure UpstreamError where
  code : Option String
  reason : Option String
  param : Option String
  original : Option OriginalUpstreamError

/-- `types.rs:8`: an error with what only its caller and its stored record are told. -/
structure ReportedError where
  error : Error
  upstream : UpstreamError
  clientText : Option String

/-- The body of an answer: its JSON value, if it is one, and otherwise the text of its first
16 KiB and whether it is longer. -/
structure ErrorBody where
  parsed : Option Json
  text : String
  long : Bool

/-- `types.rs:66`. -/
def withClientMessage (text : Option String) : Option String :=
  (text.filter (trim · ≠ "")).map fun text ↦ String.ofList (text.toList.take 4096)

/-- `types.rs:72`. -/
def ReportedError.clientMessage (r : ReportedError) : String := r.clientText.getD r.error.message

/-! ### What it says -/

/-- `mod.rs:193`. -/
def upstreamMessage (value : Json) : Option String :=
  (value.pointer "error" "message").bind asStr <|> (value.get "detail").bind asStr <|>
    (value.get "message").bind asStr

/-- `mod.rs:175–183`. -/
def policyCode (value : Json) : Option String :=
  (value.pointer "error" "code").bind asStr <|> (value.pointer "error" "type").bind asStr <|>
    (value.get "code").bind asStr

/-- `mod.rs:170`. -/
def contentPolicyReason (value : Json) : Option String :=
  if "This content was flagged for possible cybersecurity risk.".toList <+:
      ((upstreamMessage value).getD "").toList then some "cybersecurity_risk"
  else if policyCode value = some "cyber_policy" then some "cybersecurity_risk"
  else if policyCode value ∈ [some "content_policy_violation", some "content_filter",
      some "content_policy_error"] then some "content_policy_violation"
  else none

/-- `mod.rs:226–234` and `313–317`: the first of the three that is there, if it is a text. -/
def errorCode (value : Json) : Option String :=
  (value.pointer "error" "code" <|> value.pointer "error" "type" <|> value.get "code").bind asStr

/-- `mod.rs:259–281`: the code and text of an error that says nothing of the account. -/
def statusError (status : Nat) : String × String :=
  if status = 429 then
    ("upstream_rate_limited", "The upstream temporarily rate-limited this request")
  else if status = 400 || status = 422 then
    ("upstream_invalid_request", "The upstream rejected the request parameters or context")
  else if status = 403 then
    ("upstream_forbidden", "The upstream account cannot access this capability")
  else if status = 404 then
    ("upstream_not_found", "The upstream model or endpoint was not found")
  else ("upstream_error", "The upstream could not complete this request")

/-- `mod.rs:222`: the error, the text for the client, and the reason to disable the account. -/
def classifyParsedError (status : Nat) (parsed : Option Json) :
    Error × Option String × Option DisableReason :=
  let code := (parsed.bind errorCode).getD ""
  if status = 401 ||
      ["invalid_grant", "token_revoked", "account_deactivated", "invalid_token"].contains code then
    (⟨502, "oauth_invalid", "The upstream account authorization is invalid"⟩, none,
      some .oauthInvalid)
  else if ["insufficient_quota", "usage_limit_reached", "quota_exhausted"].contains code then
    (⟨429, "upstream_quota_exhausted", "The upstream account quota is exhausted"⟩, none,
      some .quotaExhausted)
  else
    (⟨if 400 ≤ status && status < 500 then status else 502, (statusError status).1,
        (statusError status).2⟩,
      withClientMessage (parsed.bind upstreamMessage), none)

/-! ### What is stored of it -/

/-- The codes of `mod.rs:318–338`. -/
def knownCodes : List String :=
  ["unsupported_parameter", "unknown_parameter", "invalid_value", "invalid_request_error",
    "invalid_encrypted_content", "context_length_exceeded", "rate_limit_exceeded",
    "insufficient_quota", "usage_limit_reached", "invalid_token", "token_revoked",
    "account_deactivated", "server_error", "content_policy_violation", "content_policy_error",
    "content_filter", "cyber_policy"]

/-- The parameters of `mod.rs:354–379`. -/
def knownParams : List String :=
  ["model", "input", "instructions", "tools", "tool_choice", "parallel_tool_calls",
    "max_output_tokens", "max_completion_tokens", "temperature", "top_p", "stream_options",
    "service_tier", "reasoning", "text", "store", "stream", "previous_response_id", "background",
    "client_metadata", "prompt_cache_key", "context_management", "truncation"]

/-- `str::trim_matches` of quotes and dots. -/
def trimQuotes (s : String) : String :=
  let quote := fun c : Char ↦ c = '\'' || c = '"' || c = '.'
  String.ofList (((s.toList.dropWhile quote).reverse.dropWhile quote).reverse)

/-- `mod.rs:339–344`. -/
def factMessage (value : Json) : String :=
  ((value.pointer "error" "message" <|> value.get "detail" <|> value.get "message").bind
    asStr).getD ""

/-- `mod.rs:345–347`. -/
def unsupportedParam (value : Json) : Option String :=
  stripLeading "Unsupported parameter: " (factMessage value) <|>
    stripLeading "Unknown parameter: " (factMessage value)

/-- `mod.rs:380–401`. -/
def factReason (value : Json) (code : Option String) : Option String :=
  if (contentPolicyReason value).isSome then contentPolicyReason value
  else if factMessage value = "Our servers are currently overloaded. Please try again later." then
    some "upstream_overloaded"
  else if code = some "invalid_encrypted_content" && factMessage value =
      "Encrypted function output content could not be decrypted or decoded." then
    some "invalid_encrypted_tool_output"
  else if (unsupportedParam value).isSome || code = some "unsupported_parameter" ||
      code = some "unknown_parameter" then some "unsupported_parameter"
  else if code ∈ [some "invalid_encrypted_content", some "context_length_exceeded",
      some "rate_limit_exceeded"] then code
  else none

/-- `mod.rs:311`. -/
def errorFacts (value : Json) : UpstreamError :=
  let code := (errorCode value).filter (· ∈ knownCodes)
  { code := code
    reason := factReason value code
    param := (((value.pointer "error" "param").bind asStr <|> unsupportedParam value).map
      fun p ↦ trimQuotes (trim p)).filter (· ∈ knownParams)
    original := none }

/-- The diagnostics as they grow. -/
structure Capture where
  fields : List (String × Json) := []
  truncated : Bool := false

/-- `error_diagnostics.rs:46–49`. -/
def captureLimit (name : String) : Nat :=
  if name = "message" || name = "detail" || name = "body" then 4096 else 256

/-- `error_diagnostics.rs:43`. -/
def Capture.insert (c : Capture) (name : String) : Json → Capture
  | .str text =>
    { fields := Json.insert c.fields name
        (.str (String.ofList (text.toList.take (captureLimit name))))
      truncated := c.truncated || captureLimit name < text.toList.length }
  | .arr _ | .obj _ => c
  | value => { c with fields := Json.insert c.fields name value }

/-- Insert what is there. -/
def Capture.insertSome (c : Capture) (name : String) (value : Option Json) : Capture :=
  value.elim c (c.insert name)

/-- The fields that are looked at, of the error and of the answer around it. -/
def diagnosticNames : List String := ["code", "type", "message", "param", "detail"]

/-- `error_diagnostics.rs:11–12`. -/
def diagnosticField (value : Json) (name : String) : Option Json :=
  ((value.pointer "error" name).filter (!·.isNull)) <|> value.get name

/-- `error_diagnostics.rs:9–21`. -/
def captureParsed (value : Json) : Capture :=
  let c := diagnosticNames.foldl
    (fun (c : Capture) name ↦ c.insertSome name (diagnosticField value name)) {}
  let c := c.insertSome "incomplete_reason" (value.pointer "incomplete_details" "reason")
  c.insertSome "message" ((value.get "error").filter (·.asStr.isSome))

/-- `error_diagnostics.rs:6`. -/
def capture (body : ErrorBody) : OriginalUpstreamError :=
  let c := match body.parsed with
    | some value => captureParsed value
    | none => Capture.insert { truncated := body.long } "body" (.str body.text)
  ⟨"http", c.fields, c.truncated⟩

/-- `mod.rs:204–208`. -/
def policyText (reason : String) : String :=
  if reason = "cybersecurity_risk" then
    "The upstream rejected this request because its content was flagged for possible " ++
      "cybersecurity risk"
  else "The upstream rejected this request under its content safety policy"

/-- `mod.rs:203–216`. -/
def classifiedError (status : Nat) (parsed : Option Json) :
    Error × Option String × Option DisableReason :=
  match parsed.bind contentPolicyReason with
  | some reason =>
    (⟨403, "upstream_content_policy_violation", policyText reason⟩,
      withClientMessage (parsed.bind upstreamMessage), none)
  | none => classifyParsedError status parsed

/-- `mod.rs:217`: facts that are none of all are the default. -/
def factsOf (parsed : Option Json) : UpstreamError :=
  parsed.elim ⟨none, none, none, none⟩ errorFacts

/-- `mod.rs:201`. -/
def classifyError (status : Nat) (body : ErrorBody) : ReportedError × Option DisableReason :=
  let (error, clientText, disable) := classifiedError status body.parsed
  (⟨error, { factsOf body.parsed with original := some (capture body) }, clientText⟩, disable)

/-- `events.rs:177–195`: what the decoder of a stream reads of the body of an error event, which
it prints and reads again: `reread` is `serde_json::to_vec` and what an answer of these bytes
says. -/
def readEventError (reread : Json → ErrorBody) (body : Json) :
    Error × String × Option DisableReason :=
  let (r, disable) := classifyError 502 (reread body)
  (r.error, r.clientMessage, disable)

/-! ### Nothing else is looked at -/

/-- A scalar; of anything else only that it is none. -/
def scalar : Json → Json
  | .arr _ | .obj _ => .arr []
  | value => value

/-- The scalars under some names. -/
def pick (value : Json) (names : List String) : List (String × Json) :=
  names.filterMap fun name ↦ (value.get name).map fun v ↦ (name, scalar v)

/-- What is looked at of the error in an answer. -/
def redactError : Json → Json
  | .str text => .str text
  | error => .obj (pick error diagnosticNames)

/-- An answer without all that is not looked at. -/
def redact (value : Json) : Json :=
  .obj (pick value diagnosticNames ++
    ((value.get "error").map fun e ↦ ("error", redactError e)).toList ++
    ((value.get "incomplete_details").map fun d ↦
      ("incomplete_details", .obj (pick d ["reason"]))).toList)

private theorem asStr_scalar (value : Json) : (scalar value).asStr = value.asStr := by
  cases value with
  | null | bool | int | float | str | arr | obj => rfl

private theorem isNull_scalar (value : Json) : (scalar value).isNull = value.isNull := by
  cases value with
  | null | bool | int | float | str | arr | obj => rfl

private theorem insert_scalar (c : Capture) (name : String) (value : Json) :
    c.insert name (scalar value) = c.insert name value := by
  cases value with
  | null | bool | int | float | str | arr | obj => rfl

/-- What is kept of a value has the text of the value, where there is one. -/
theorem bind_asStr_scalar (value : Option Json) :
    (value.map scalar).bind asStr = value.bind asStr := by
  cases value with
  | none => rfl
  | some v => exact asStr_scalar v

private theorem insertSome_scalar (c : Capture) (name : String) (value : Option Json) :
    c.insertSome name (value.map scalar) = c.insertSome name value := by
  cases value with
  | none => rfl
  | some v => exact insert_scalar c name v

/-- The first of two that is there. -/
theorem orElse_scalar (a b : Option Json) :
    (a.map scalar <|> b.map scalar) = (a <|> b).map scalar := by
  cases a with
  | none => rfl
  | some v => rfl

private theorem filter_scalar (value : Option Json) :
    (value.map scalar).filter (!·.isNull) = (value.filter (!·.isNull)).map scalar := by
  cases value with
  | none => rfl
  | some v =>
    rw [Option.map_some, Option.filter_some, Option.filter_some, isNull_scalar]
    split
    · rfl
    · rfl

/-- A key of two lists of fields is looked up in the first, then in the second. -/
theorem field_append (a b : List (String × Json)) (key : String) :
    field (a ++ b) key = (field a key <|> field b key) := by
  induction a with
  | nil => rfl
  | cons f rest ih =>
    rw [List.cons_append, field, field]
    split
    · rfl
    · exact ih

private theorem field_pick (value : Json) (names : List String) (key : String) :
    field (pick value names) key =
      if key ∈ names then (value.get key).map scalar else none := by
  induction names with
  | nil => rfl
  | cons name rest ih =>
    unfold pick at ih ⊢
    rw [List.filterMap_cons]
    cases hv : value.get name with
    | none =>
      rw [Option.map_none]
      dsimp only
      rw [ih]
      by_cases hk : key = name
      · rw [hk, hv, if_pos (List.mem_cons_self ..)]
        exact ite_self none
      · simp only [List.mem_cons, hk, false_or]
    | some v =>
      rw [Option.map_some]
      dsimp only
      rw [field]
      by_cases hk : key = name
      · rw [if_pos hk.symm, hk, if_pos (List.mem_cons_self ..), hv, Option.map_some]
      · rw [if_neg (Ne.symm hk), ih]
        simp only [List.mem_cons, hk, false_or]

/-- A field of one name, if it is there. -/
theorem field_toList (name key : String) (value : Option Json) :
    field ((value.map fun v ↦ (name, v)).toList) key = if key = name then value else none := by
  cases value with
  | none => exact (ite_self none).symm
  | some v =>
    rw [Option.map_some, Option.toList_some, field]
    by_cases hk : key = name
    · rw [if_pos hk.symm, if_pos hk]
    · rw [if_neg (Ne.symm hk), if_neg hk]
      rfl

section Redact

variable (value : Json)

private theorem get_redact (key : String) :
    (redact value).get key = (field (pick value diagnosticNames) key <|>
      (if key = "error" then (value.get "error").map redactError else none) <|>
      if key = "incomplete_details" then
        (value.get "incomplete_details").map fun d ↦ .obj (pick d ["reason"]) else none) := by
  have herror := field_toList "error" key ((value.get "error").map redactError)
  have hdetails := field_toList "incomplete_details" key
    ((value.get "incomplete_details").map fun d ↦ .obj (pick d ["reason"]))
  rw [Option.map_map] at herror hdetails
  rw [← herror, ← hdetails]
  show field (_ ++ _ ++ _) key = _
  rw [field_append, field_append]
  cases field (pick value diagnosticNames) key with
  | none => rfl
  | some v => rfl

private theorem get_redact_name {key : String} (hk : key ∈ diagnosticNames) :
    (redact value).get key = (value.get key).map scalar := by
  have herror : key ≠ "error" := by
    rintro rfl
    exact absurd hk (by decide)
  have hdetails : key ≠ "incomplete_details" := by
    rintro rfl
    exact absurd hk (by decide)
  rw [get_redact, field_pick, if_pos hk, if_neg herror, if_neg hdetails]
  cases value.get key with
  | none => rfl
  | some v => rfl

private theorem get_redact_error :
    (redact value).get "error" = (value.get "error").map redactError := by
  rw [get_redact, field_pick, if_neg (by decide), if_pos rfl, if_neg (by decide)]
  cases value.get "error" with
  | none => rfl
  | some e => rfl

private theorem pointer_redact {key : String} (hk : key ∈ diagnosticNames) :
    (redact value).pointer "error" key = (value.pointer "error" key).map scalar := by
  unfold pointer
  rw [get_redact_error]
  cases value.get "error" with
  | none => rfl
  | some e =>
    have hfields : ((Json.obj (pick e diagnosticNames)).get key) = (e.get key).map scalar := by
      show field (pick e diagnosticNames) key = _
      rw [field_pick, if_pos hk]
    cases e with
    | str text => rfl
    | null | bool | int | float | arr | obj => exact hfields

private theorem reason_redact : (redact value).pointer "incomplete_details" "reason" =
    (value.pointer "incomplete_details" "reason").map scalar := by
  unfold pointer
  rw [get_redact, field_pick, if_neg (by decide), if_neg (by decide), if_pos rfl]
  cases value.get "incomplete_details" with
  | none => rfl
  | some d => exact (field_pick d ["reason"] "reason").trans (if_pos (by decide))

private theorem upstreamMessage_redact :
    upstreamMessage (redact value) = upstreamMessage value := by
  unfold upstreamMessage
  rw [pointer_redact value (by decide), get_redact_name value (by decide),
    get_redact_name value (by decide), bind_asStr_scalar, bind_asStr_scalar, bind_asStr_scalar]

private theorem policyCode_redact : policyCode (redact value) = policyCode value := by
  unfold policyCode
  rw [pointer_redact value (by decide), pointer_redact value (by decide),
    get_redact_name value (by decide), bind_asStr_scalar, bind_asStr_scalar, bind_asStr_scalar]

private theorem contentPolicyReason_redact :
    contentPolicyReason (redact value) = contentPolicyReason value := by
  unfold contentPolicyReason
  rw [upstreamMessage_redact, policyCode_redact]

private theorem errorCode_redact : errorCode (redact value) = errorCode value := by
  unfold errorCode
  rw [pointer_redact value (by decide), pointer_redact value (by decide),
    get_redact_name value (by decide), orElse_scalar, orElse_scalar, bind_asStr_scalar]

private theorem factMessage_redact : factMessage (redact value) = factMessage value := by
  unfold factMessage
  rw [pointer_redact value (by decide), get_redact_name value (by decide),
    get_redact_name value (by decide), orElse_scalar, orElse_scalar, bind_asStr_scalar]

private theorem errorFacts_redact : errorFacts (redact value) = errorFacts value := by
  unfold errorFacts factReason unsupportedParam
  rw [errorCode_redact, factMessage_redact, contentPolicyReason_redact,
    pointer_redact value (by decide), bind_asStr_scalar]

private theorem diagnosticField_redact {name : String} (hn : name ∈ diagnosticNames) :
    diagnosticField (redact value) name = (diagnosticField value name).map scalar := by
  unfold diagnosticField
  rw [pointer_redact value hn, get_redact_name value hn, filter_scalar, orElse_scalar]

private theorem captureParsed_redact : captureParsed (redact value) = captureParsed value := by
  have hfold : ∀ (names : List String) (c : Capture), (∀ n ∈ names, n ∈ diagnosticNames) →
      names.foldl (fun (c : Capture) n ↦ c.insertSome n (diagnosticField (redact value) n)) c =
        names.foldl (fun (c : Capture) n ↦ c.insertSome n (diagnosticField value n)) c := by
    intro names
    induction names with
    | nil => exact fun _ _ ↦ rfl
    | cons n rest ih =>
      intro c hnames
      rw [List.foldl_cons, List.foldl_cons,
        diagnosticField_redact value (hnames n (List.mem_cons_self ..)), insertSome_scalar]
      exact ih _ fun m hm ↦ hnames m (List.mem_cons_of_mem _ hm)
  have hmessage : ((redact value).get "error").filter (·.asStr.isSome) =
      (value.get "error").filter (·.asStr.isSome) := by
    rw [get_redact_error]
    cases value.get "error" with
    | none => rfl
    | some e =>
      cases e with
      | null | bool | int | float | str | arr | obj => rfl
  unfold captureParsed
  dsimp only
  rw [hfold _ _ fun _ h ↦ h, reason_redact, insertSome_scalar, hmessage]

end Redact

/-- **Nothing but the listed scalar fields of an answer is looked at.** Take everything else out
of the body of an error and its class, its text for the client, what is stored of it and the
reason to disable the account are the same: no input, output or other field of the answer can
come to a client, a record or an administrator through them. -/
theorem classifyError_redact (status : Nat) (value : Json) (text text' : String)
    (long long' : Bool) : classifyError status ⟨some (redact value), text, long⟩ =
      classifyError status ⟨some value, text', long'⟩ := by
  unfold classifyError classifiedError classifyParsedError factsOf capture
  simp only [Option.bind_some, Option.elim_some, contentPolicyReason_redact,
    upstreamMessage_redact, errorCode_redact, errorFacts_redact, captureParsed_redact]

/-! ### What is stored is bounded -/

/-- The names a diagnostic value is stored under. -/
def captureNames : List String := "body" :: "incomplete_reason" :: diagnosticNames

/-- Scalars, and of texts those that are no longer than the limit of the name. -/
def Kept (name : String) : Json → Prop
  | .str text => text.toList.length ≤ captureLimit name
  | .arr _ | .obj _ => False
  | _ => True

/-- Such values under some of the names, each name once. -/
structure Capture.Bounded (c : Capture) : Prop where
  ordered : c.fields.Pairwise (·.1 < ·.1)
  kept : ∀ f ∈ c.fields, f.1 ∈ captureNames ∧ Kept f.1 f.2

private theorem Capture.Bounded.put {c : Capture} (h : c.Bounded) {name : String} {value : Json}
    (hname : name ∈ captureNames) (hvalue : Kept name value) (truncated : Bool) :
    Capture.Bounded ⟨Json.insert c.fields name value, truncated⟩ where
  ordered := pairwise_insert h.ordered name value
  kept := by
    intro f hf
    rcases mem_insert.2 f hf with rfl | hf
    · exact ⟨hname, hvalue⟩
    · exact h.kept f hf

/-- Whatever comes to be inserted. -/
theorem Capture.Bounded.insert {c : Capture} (h : c.Bounded) {name : String}
    (hname : name ∈ captureNames) (value : Json) : (c.insert name value).Bounded := by
  cases value with
  | str text =>
    refine h.put hname ?_ _
    show (String.ofList (text.toList.take (captureLimit name))).toList.length ≤ _
    rw [String.toList_ofList]
    exact List.length_take_le ..
  | arr | obj => exact h
  | null => exact h.put hname (show Kept name .null from trivial) _
  | bool b => exact h.put hname (show Kept name (.bool b) from trivial) _
  | int n => exact h.put hname (show Kept name (.int n) from trivial) _
  | float text => exact h.put hname (show Kept name (.float text) from trivial) _

private theorem Capture.Bounded.insertSome {c : Capture} (h : c.Bounded) {name : String}
    (hname : name ∈ captureNames) (value : Option Json) : (c.insertSome name value).Bounded := by
  cases value with
  | none => exact h
  | some v => exact h.insert hname v

private theorem captureParsed_bounded (value : Json) : (captureParsed value).Bounded := by
  have hfold : ∀ (names : List String) (c : Capture), (∀ n ∈ names, n ∈ captureNames) →
      c.Bounded → (names.foldl (fun (c : Capture) n ↦
        c.insertSome n (diagnosticField value n)) c).Bounded := by
    intro names
    induction names with
    | nil => exact fun _ _ h ↦ h
    | cons n rest ih =>
      intro c hnames h
      exact ih _ (fun m hm ↦ hnames m (List.mem_cons_of_mem _ hm))
        (h.insertSome (hnames n (List.mem_cons_self ..)) _)
  have hnames : ∀ n ∈ diagnosticNames, n ∈ captureNames := fun n hn ↦
    List.mem_cons_of_mem _ (List.mem_cons_of_mem _ hn)
  have hempty : Capture.Bounded {} := ⟨List.Pairwise.nil, fun f hf ↦ absurd hf (by simp)⟩
  unfold captureParsed
  exact ((hfold _ _ hnames hempty).insertSome (by decide) _).insertSome (by decide) _

private theorem capture_bounded (body : ErrorBody) :
    Capture.Bounded ⟨(capture body).fields, (capture body).truncated⟩ := by
  unfold capture
  cases body.parsed with
  | some value => exact captureParsed_bounded value
  | none =>
    have hempty : Capture.Bounded { truncated := body.long } :=
      ⟨List.Pairwise.nil, fun f hf ↦ absurd hf (by simp)⟩
    have hbody : "body" ∈ captureNames := List.mem_cons_self ..
    exact hempty.insert hbody (.str body.text)

/-- The codes of `classify_error` with their texts. -/
def errorTexts : List (String × String) :=
  [("upstream_content_policy_violation", policyText "cybersecurity_risk"),
    ("upstream_content_policy_violation", policyText "content_policy_violation"),
    ("oauth_invalid", "The upstream account authorization is invalid"),
    ("upstream_quota_exhausted", "The upstream account quota is exhausted"),
    statusError 429, statusError 400, statusError 403, statusError 404, statusError 502]

/-- The reasons of `error_facts`. -/
def policyReasons : List String := ["cybersecurity_risk", "content_policy_violation"]

def otherReasons : List String :=
  ["upstream_overloaded", "invalid_encrypted_tool_output", "unsupported_parameter",
    "invalid_encrypted_content", "context_length_exceeded", "rate_limit_exceeded"]

private theorem contentPolicyReason_mem {value : Json} {reason : String}
    (h : contentPolicyReason value = some reason) : reason ∈ policyReasons := by
  unfold contentPolicyReason at h
  split at h
  · cases h
    decide
  · split at h
    · cases h
      decide
    · split at h
      · cases h
        decide
      · cases h

/-- What is stored as the reason. -/
theorem factReason_cases (value : Json) (code : Option String) :
    (∃ reason, contentPolicyReason value = some reason ∧ factReason value code = some reason) ∨
      (contentPolicyReason value = none ∧ ∀ x, factReason value code = some x →
        x ∈ otherReasons) := by
  unfold factReason
  cases hpolicy : contentPolicyReason value with
  | some reason => exact .inl ⟨reason, rfl, rfl⟩
  | none =>
    refine .inr ⟨rfl, ?_⟩
    rw [Option.isSome_none, if_neg Bool.false_ne_true]
    intro x hx
    split at hx
    · cases hx
      decide
    · split at hx
      · cases hx
        decide
      · split at hx
        · cases hx
          decide
        · split at hx
          · next hcode =>
            rw [hx] at hcode
            have hlisted : x ∈ ["invalid_encrypted_content", "context_length_exceeded",
                "rate_limit_exceeded"] := by simpa using hcode
            exact List.mem_of_mem_drop (i := 3) hlisted
          · cases hx

/-- What an error is classified as. -/
theorem classifiedError_cases (status : Nat) (parsed : Option Json) :
    (∃ reason, parsed.bind contentPolicyReason = some reason ∧
      classifiedError status parsed =
        (⟨403, "upstream_content_policy_violation", policyText reason⟩,
          withClientMessage (parsed.bind upstreamMessage), none)) ∨
      parsed.bind contentPolicyReason = none ∧
        (classifiedError status parsed = (⟨502, "oauth_invalid",
            "The upstream account authorization is invalid"⟩, none, some .oauthInvalid) ∨
          classifiedError status parsed = (⟨429, "upstream_quota_exhausted",
            "The upstream account quota is exhausted"⟩, none, some .quotaExhausted) ∨
          classifiedError status parsed =
            (⟨if 400 ≤ status && status < 500 then status else 502, (statusError status).1,
              (statusError status).2⟩, withClientMessage (parsed.bind upstreamMessage), none)) := by
  unfold classifiedError
  cases hpolicy : parsed.bind contentPolicyReason with
  | some reason => exact .inl ⟨reason, rfl, rfl⟩
  | none =>
    refine .inr ⟨rfl, ?_⟩
    dsimp only
    unfold classifyParsedError
    dsimp only
    split
    · exact .inl rfl
    · split
      · exact .inr (.inl rfl)
      · exact .inr (.inr rfl)

private theorem statusError_mem (status : Nat) : statusError status ∈ errorTexts.drop 4 := by
  unfold statusError
  split
  · decide
  · split
    · decide
    · split
      · decide
      · split
        · decide
        · decide

private theorem length_withClientMessage {message : Option String} {text : String}
    (h : withClientMessage message = some text) : text.toList.length ≤ 4096 := by
  unfold withClientMessage at h
  obtain ⟨whole, -, rfl⟩ := Option.map_eq_some_iff.mp h
  rw [String.toList_ofList]
  exact List.length_take_le ..

/-- The class of an error, its text for the client and the reason to disable the account go
together. -/
structure Classified (error : Error) (clientText : Option String)
    (disable : Option DisableReason) : Prop where
  status : error.status = 502 ∨ 400 ≤ error.status ∧ error.status < 500
  message : (error.code, error.message) ∈ errorTexts
  clientText : ∀ text, clientText = some text → text.toList.length ≤ 4096 ∧ disable = none
  oauth : disable = some .oauthInvalid ↔ error.code = "oauth_invalid"
  quota : disable = some .quotaExhausted ↔ error.code = "upstream_quota_exhausted"
  others : disable = none ∨ disable = some .oauthInvalid ∨ disable = some .quotaExhausted

private theorem classified_of_policy {reason : String} (h : reason ∈ policyReasons)
    (message : Option String) :
    Classified ⟨403, "upstream_content_policy_violation", policyText reason⟩
      (withClientMessage message) none where
  status := .inr (show 400 ≤ 403 ∧ 403 < 500 by decide)
  message := by
    rcases List.mem_pair.mp h with rfl | rfl
    · decide
    · decide
  clientText := fun _ ht ↦ ⟨length_withClientMessage ht, rfl⟩
  oauth := by
    have hcode : "upstream_content_policy_violation" ≠ "oauth_invalid" := by decide
    exact ⟨fun h ↦ (by cases h), fun h ↦ absurd h hcode⟩
  quota := by
    have hcode : "upstream_content_policy_violation" ≠ "upstream_quota_exhausted" := by decide
    exact ⟨fun h ↦ (by cases h), fun h ↦ absurd h hcode⟩
  others := .inl rfl

private theorem classified_of_status (status : Nat) (message : Option String) :
    Classified ⟨if 400 ≤ status && status < 500 then status else 502, (statusError status).1,
      (statusError status).2⟩ (withClientMessage message) none where
  status := by
    dsimp only
    split
    · next h => exact .inr (by simpa using h)
    · exact .inl rfl
  message := List.mem_of_mem_drop (statusError_mem status)
  clientText := fun _ ht ↦ ⟨length_withClientMessage ht, rfl⟩
  oauth := by
    have hcode : ∀ e ∈ errorTexts.drop 4, e.1 ≠ "oauth_invalid" := by decide
    exact ⟨fun h ↦ (by cases h), fun h ↦ absurd h (hcode _ (statusError_mem status))⟩
  quota := by
    have hcode : ∀ e ∈ errorTexts.drop 4, e.1 ≠ "upstream_quota_exhausted" := by decide
    exact ⟨fun h ↦ (by cases h), fun h ↦ absurd h (hcode _ (statusError_mem status))⟩
  others := .inl rfl

private theorem classifiedError_classified (status : Nat) (parsed : Option Json) :
    Classified (classifiedError status parsed).1 (classifiedError status parsed).2.1
      (classifiedError status parsed).2.2 := by
  obtain ⟨reason, hpolicy, heq⟩ | ⟨-, heq | heq | heq⟩ := classifiedError_cases status parsed
  · rw [heq]
    obtain ⟨value, -, hreason⟩ := Option.bind_eq_some_iff.mp hpolicy
    exact classified_of_policy (contentPolicyReason_mem hreason) _
  · rw [heq]
    exact ⟨.inl rfl, by decide, fun _ ht ↦ (by cases ht), by decide, by decide, by decide⟩
  · rw [heq]
    exact ⟨.inr (by decide), by decide, fun _ ht ↦ (by cases ht), by decide, by decide, by decide⟩
  · rw [heq]
    exact classified_of_status status _

/-- An error is of the content policy exactly where the answer says so. -/
theorem classifiedError_policy (status : Nat) (parsed : Option Json) :
    (classifiedError status parsed).1.code = "upstream_content_policy_violation" ↔
      (parsed.bind contentPolicyReason).isSome = true := by
  obtain ⟨reason, hpolicy, heq⟩ | ⟨hpolicy, heq | heq | heq⟩ :=
    classifiedError_cases status parsed
  · rw [heq, hpolicy]
    exact ⟨fun _ ↦ rfl, fun _ ↦ rfl⟩
  · rw [heq, hpolicy]
    decide
  · rw [heq, hpolicy]
    decide
  · have hcode : ∀ e ∈ errorTexts.drop 4, e.1 ≠ "upstream_content_policy_violation" := by decide
    rw [heq, hpolicy]
    exact ⟨fun h ↦ absurd h (hcode _ (statusError_mem status)), fun h ↦ (by cases h)⟩

/-- The facts of an answer are of the fixed lists. -/
structure Listed (u : UpstreamError) : Prop where
  code : ∀ x, u.code = some x → x ∈ knownCodes
  param : ∀ x, u.param = some x → x ∈ knownParams
  reason : ∀ x, u.reason = some x → x ∈ policyReasons ++ otherReasons

private theorem factsOf_listed (parsed : Option Json) : Listed (factsOf parsed) := by
  cases parsed with
  | none => exact ⟨fun _ h ↦ (by cases h), fun _ h ↦ (by cases h), fun _ h ↦ (by cases h)⟩
  | some value =>
    refine ⟨fun x hx ↦ ?_, fun x hx ↦ ?_, fun x hx ↦ ?_⟩
    · exact of_decide_eq_true (Option.filter_eq_some_iff.mp hx).2
    · exact of_decide_eq_true (Option.filter_eq_some_iff.mp hx).2
    · rcases factReason_cases value ((errorCode value).filter (· ∈ knownCodes)) with
        ⟨reason, hpolicy, hreason⟩ | ⟨-, hother⟩
      · cases hreason.symm.trans hx
        exact List.mem_append_left _ (contentPolicyReason_mem hpolicy)
      · exact List.mem_append_right _ (hother x hx)

private theorem factsOf_policy (parsed : Option Json) :
    (parsed.bind contentPolicyReason).isSome = true ↔
      ∃ x ∈ policyReasons, (factsOf parsed).reason = some x := by
  cases parsed with
  | none => exact ⟨fun h ↦ (by cases h), fun ⟨_, _, h⟩ ↦ (by cases h)⟩
  | some value =>
    rcases factReason_cases value ((errorCode value).filter (· ∈ knownCodes)) with
      ⟨reason, hpolicy, hreason⟩ | ⟨hpolicy, hother⟩
    · rw [Option.bind_some, hpolicy]
      exact ⟨fun _ ↦ ⟨reason, contentPolicyReason_mem hpolicy, hreason⟩, fun _ ↦ rfl⟩
    · rw [Option.bind_some, hpolicy]
      refine ⟨fun h ↦ (by cases h), ?_⟩
      rintro ⟨x, hx, hreason⟩
      have hdisjoint : ∀ x ∈ policyReasons, x ∉ otherReasons := by decide
      exact absurd (hother x hreason) (hdisjoint x hx)

/-- What leaves the classification of an error. -/
structure Recorded (r : ReportedError) (disable : Option DisableReason) : Prop where
  classified : Classified r.error r.clientText disable
  listed : Listed r.upstream
  policy : r.error.code = "upstream_content_policy_violation" ↔
    ∃ x ∈ policyReasons, r.upstream.reason = some x
  original : ∃ o, r.upstream.original = some o ∧ Capture.Bounded ⟨o.fields, o.truncated⟩

/-- **What an error of the upstream leaves behind is bounded.** Whatever the answer says: the
client is told one of nine fixed texts or at most 4096 characters, and none where the account is
disabled; the account is disabled for the two codes that say so and no other; of the answer
itself there are stored a code, a parameter and a reason from fixed lists, the reason being one
of the content policy exactly for that code, and under each of seven names at most one scalar of
at most 4096 characters. -/
theorem classifyError_recorded (status : Nat) (body : ErrorBody) :
    Recorded (classifyError status body).1 (classifyError status body).2 where
  classified := classifiedError_classified status body.parsed
  listed := ⟨(factsOf_listed body.parsed).code, (factsOf_listed body.parsed).param,
    (factsOf_listed body.parsed).reason⟩
  policy := (classifiedError_policy status body.parsed).trans (factsOf_policy body.parsed)
  original := ⟨capture body, rfl, capture_bounded body⟩

/-! ### Error events of a stream -/

/-- An event that says nothing of an error. -/
def Untroubled (event : DecodedEvent) : Prop :=
  event.observation.terminal = false ∧ event.observation.error = none ∧
    event.observation.disableReason = none

/-- A terminal event: a completed response, or a classified error. -/
def Concludes (event : DecodedEvent) : Prop :=
  event.observation.terminal = true ∧
    (event.observation.error = none ∧ event.observation.disableReason = none ∨
      ∃ error clientText, event.observation.error = some error ∧
        Classified error clientText event.observation.disableReason)

/-- What one event observes, by whether it ends the stream. -/
theorem decodeEvent_concludes (reread : Json → ErrorBody) (r : Readings) {d : Decoding}
    (hd : d.terminal = false) (kind : String) (value : Json) (quotas : List QuotaWindow) :
    let decoded :=
      decodeEvent { r with classifyError := readEventError reread } d kind value quotas
    if decoded.2.terminal then Concludes decoded.1 else Untroubled decoded.1 := by
  dsimp only
  rw [decodeEvent_terminal hd]
  cases hterminal : isTerminal value with
  | false =>
    refine ⟨hterminal, ?_, ?_⟩
    · simp only [decodeEvent, hterminal, Bool.false_and, Bool.false_eq_true, if_false]
    · simp only [decodeEvent, hterminal, Bool.false_and, Bool.false_eq_true, if_false]
  | true =>
    refine ⟨hterminal, ?_⟩
    simp only [decodeEvent, hterminal, Bool.true_and]
    by_cases hkind : (kind != "response.completed") = true
    · rw [if_pos hkind, if_pos hkind]
      exact .inr ⟨_, _, rfl, classifiedError_classified 502 _⟩
    · rw [if_neg hkind, if_neg hkind]
      exact .inl ⟨rfl, rfl⟩

/-- **Only the last event of a stream tells of an error.** Whatever the upstream sends, in
whatever chunks: all events before a terminal one leave the account and the request alone, and of
the terminal one, after which nothing is delivered, the error is classified and disables the
account only where its class says so. -/
theorem stream_concludes {p : EventParser} (reread : Json → ErrorBody) (r : Readings)
    (limit : Nat) (chunks : List (List UInt8)) :
    let delivered :=
      ({} : CodexDecoder p).deliver { r with classifyError := readEventError reread } limit chunks
    Chunks.Stages.Ends Untroubled Concludes delivered.1 (delivered.2 = .final) := by
  dsimp only
  rw [deliver_eq_deliver]
  refine Chunks.Stages.deliver_ends (fun d data event d' hd h ↦ ?_) rfl _ chunks
  change decodeDatum { r with classifyError := readEventError reread } d data = .ok (event, d') at h
  unfold decodeDatum at h
  split at h
  · cases h
  · next value hvalue =>
    split at h
    · cases h
    · next kind hkind =>
      split at h
      · cases h
      · next quotas hquotas =>
        obtain ⟨rfl, rfl⟩ := Prod.mk.inj (Except.ok.inj h)
        exact decodeEvent_concludes reread r hd kind value quotas

end Xxgate.Codex

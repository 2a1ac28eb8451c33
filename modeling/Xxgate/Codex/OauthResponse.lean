import Xxgate.Codex.Headers

/-!
# Answers of the authorization server

`crates/xxgate-codex/src/provider/oauth_response.rs`: what is taken of an answer, when it asks
to be polled again, and the error it is reported as. The body holds codes and tokens; the
diagnostics and the error are made of the status, listed error codes and checked headers only.
-/

namespace Xxgate.Codex

open Xxgate.Core

/-- `oauth_response.rs:9`. -/
structure OAuthDiagnostics where
  upstreamStatus : Nat
  upstreamErrorCode : Option String
  upstreamRequestId : Option String
  cfRay : Option String
  contentKind : String
  challenge : Bool
  deriving DecidableEq

/-- `oauth_response.rs:18`. -/
structure OAuthResponse where
  body : Json
  diagnostics : OAuthDiagnostics

namespace OAuthResponse

/-- The error codes that are reported as they are. -/
def knownCodes : List String :=
  ["unsupported_country_region_territory", "device_authentication_disabled",
    "device_auth_disabled", "authorization_pending", "slow_down", "access_denied",
    "expired_token", "invalid_client", "invalid_grant", "rate_limit_exceeded"]

/-- `oauth_response.rs:26–31`. -/
def rawCode (body : Json) : Option String :=
  (body.pointer "error" "code" <|> body.pointer "error" "type" <|>
    (body.get "error").filter (·.asStr.isSome) <|> body.get "code").bind Json.asStr

/-- A character that a reported header may have. -/
def plainCharacter (c : Char) : Bool := c.isAlphanum || c ∈ ['-', '_', '.', ':']

/-- `oauth_response.rs:50–60`. -/
def header (headers : Headers) (name : String) : Option String :=
  ((headers.get name).bind HeaderValue.toStr).filter fun s ↦
    !s.isEmpty && s.utf8ByteSize ≤ 256 && s.toList.all plainCharacter

/-- `oauth_response.rs:24`; the body comes parsed, if it could be. -/
def decode (status : Nat) (headers : Headers) (parsed : Option Json) : OAuthResponse :=
  let body := parsed.getD .null
  let json := body.isObject || body.asArray.isSome
  let html := ((headers.get "content-type").bind HeaderValue.toStr).any (·.startsWith "text/html")
  { body := body
    diagnostics :=
      { upstreamStatus := status
        upstreamErrorCode := (rawCode body).map fun code ↦
          if code ∈ knownCodes then code else "unrecognized"
        upstreamRequestId := header headers "x-request-id"
        cfRay := header headers "cf-ray"
        contentKind := if json then "json" else if html then "html" else "other"
        challenge := (headers.get "cf-mitigated").bind HeaderValue.toStr = some "challenge" } }

/-- `oauth_response.rs:86`. -/
def status (r : OAuthResponse) : Nat := r.diagnostics.upstreamStatus

/-- `oauth_response.rs:89`. -/
def pending (r : OAuthResponse) : Bool :=
  if r.diagnostics.challenge || r.diagnostics.contentKind != "json" then false
  else (r.status = 403 || r.status = 404) &&
    (r.diagnostics.upstreamErrorCode = none ||
      r.diagnostics.upstreamErrorCode = some "authorization_pending")

/-- `oauth_response.rs:100–136`: the code and the text of the error. -/
def failure (d : OAuthDiagnostics) : String × String :=
  if d.upstreamErrorCode = some "unsupported_country_region_territory" then
    ("oauth_region_unsupported", "OpenAI 拒绝了当前网络出口所在地区的授权请求" ++
      "（unsupported_country_region_territory）。这不是账户未开启设备授权。")
  else if d.challenge || d.contentKind = "html" && d.upstreamStatus = 403 then
    ("oauth_network_challenge", "OpenAI 授权接口返回了网络安全验证页面，网关无法继续设备授权。")
  else if d.upstreamErrorCode = some "device_authentication_disabled" ||
      d.upstreamErrorCode = some "device_auth_disabled" then
    ("oauth_device_disabled", "OpenAI 明确报告设备授权未开启，请检查账户或工作区的设备授权设置。")
  else if d.upstreamStatus = 429 then
    ("oauth_rate_limited", "OpenAI 授权接口暂时限流，请稍后再试。")
  else if d.upstreamStatus = 200 then
    ("invalid_oauth_response", "OpenAI 授权接口返回了无法识别的响应。")
  else
    ("oauth_upstream_rejected", "OpenAI 授权接口拒绝了请求。可在操作审计中查看脱敏诊断信息。")

/-- `oauth_response.rs:99`. -/
def error (r : OAuthResponse) : Error :=
  let (code, message) := failure r.diagnostics
  ⟨502, code, message ++ "（HTTP " ++ toString r.status ++ "）"⟩

end OAuthResponse
end Xxgate.Codex

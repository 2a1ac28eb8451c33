import Xxgate.Base.Fallible
import Xxgate.Core.Json
import Xxgate.Core.Types

/-!
# Authorizations in a browser

`crates/xxgate-codex/src/provider/oauth_browser.rs`: an authorization that was begun, the code
that a callback of it carries, and the request that exchanges the code. Parsing a URL is a
parameter; a callback counts only for the authorization whose state it repeats.
-/

namespace Xxgate.Codex

open Xxgate.Base.Fallible Xxgate.Core

/-- `url::Url`, as far as it is looked at. -/
structure Url where
  /-- Scheme, host and port; none for an origin that equals no other. -/
  origin : Option (String × String × Nat)
  path : String
  username : String
  password : Option String
  fragment : Option String
  queryPairs : List (String × String)

/-- `oauth_browser.rs:8`. -/
def REDIRECT_URI : String := "http://localhost:1455/auth/callback"

/-- `oauth_browser.rs:11`. The verifier stays in server memory. -/
structure BrowserAuthorization where
  state : String
  verifier : String
  deriving DecidableEq

namespace BrowserAuthorization

/-- `char::is_control`. -/
def isControl (c : Char) : Bool := c.toNat < 0x20 || (0x7F ≤ c.toNat && c.toNat < 0xA0)

/-- `oauth_browser.rs:69`: the value of a parameter that comes once. -/
def unique (pairs : List (String × String)) (key : String) : Result (Option String) :=
  let values := pairs.filter (·.1 = key)
  if 1 < values.length then .error (.invalid "回调链接包含重复的授权参数。")
  else .ok (values.head?.map (·.2))

/-- The parsed callback goes where the authorization was to be sent. -/
def Expected (url : Url) : Prop :=
  url.origin = some ("http", "localhost", 1455) ∧ url.path = "/auth/callback" ∧
    url.username = "" ∧ url.password = none ∧ url.fragment = none

instance (url : Url) : Decidable (Expected url) := inferInstanceAs (Decidable (_ ∧ _))

/-- `oauth_browser.rs:76–106`: the code among the parameters. -/
def codeOf (auth : BrowserAuthorization) (pairs : List (String × String)) : Result String := do
  let some state ← unique pairs "state"
    | throw ⟨400, "oauth_state_missing", "回调链接缺少 state，请复制完整链接。"⟩
  if state ≠ auth.state then
    throw ⟨400, "oauth_state_mismatch", "此回调链接不属于本次授权，请使用当前生成的授权链接。"⟩
  else
    match ← unique pairs "error" with
    | some _ =>
      throw ⟨400, "oauth_authorization_denied", "OpenAI 未完成授权，请重新生成链接并完成授权。"⟩
    | none =>
      match (← unique pairs "code").filter fun c ↦
          !c.isEmpty && c.utf8ByteSize ≤ 8192 && !c.toList.any isControl with
      | some code => return code
      | none =>
        throw ⟨400, "oauth_code_missing", "回调链接缺少有效的 code，请完成授权后复制完整链接。"⟩

/-- `oauth_browser.rs:47`. -/
def callbackCode (parse : String → Option Url) (auth : BrowserAuthorization) (callback : String) :
    Result String :=
  let callback := trim callback
  if 16384 < callback.utf8ByteSize then
    .error (.invalid "回调链接过长，请粘贴浏览器地址栏中的完整链接。")
  else
    match parse callback with
    | none => .error (.invalid "请粘贴完整的回调链接。")
    | some url =>
      if ¬ Expected url then
        .error (.invalid ("回调地址不匹配，应为 " ++ REDIRECT_URI ++ " 开头的完整链接。"))
      else auth.codeOf url.queryPairs

/-- The parameters of `oauth_browser.rs:108`, in order. -/
def exchangeForm (auth : BrowserAuthorization) (code : String) : List (String × String) :=
  [("grant_type", "authorization_code"), ("code", code), ("redirect_uri", REDIRECT_URI),
    ("client_id", "app_EMoamEEZ73f0CkXaXp7hrann"), ("code_verifier", auth.verifier)]

end BrowserAuthorization
end Xxgate.Codex

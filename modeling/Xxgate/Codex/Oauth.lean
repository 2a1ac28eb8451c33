import Xxgate.Base.Fallible
import Xxgate.Codex.Quota

/-!
# Tokens and what they say of an account

`crates/xxgate-codex/src/provider/oauth.rs`: credentials from an answer of the authorization
server, and the account, plan and subscription that the claims of their tokens name. Decoding a
token segment, timestamps and dates are parameters.
-/

namespace Xxgate.Codex.Oauth

open Xxgate.Base.Fallible Xxgate.Core

/-- What the functions below need of other libraries. -/
structure Codecs where
  /-- `URL_SAFE_NO_PAD.decode` and `serde_json::from_slice`. -/
  decode : String → Option Json
  /-- `DateTime::from_timestamp`. -/
  fromTimestamp : Int → Option Int
  /-- `DateTime::parse_from_rfc3339`. -/
  parseDate : String → Option Int

variable (x : Codecs)

/-- `oauth.rs:129`: the claims of a token. -/
def jwt (value : String) : Option Json :=
  (value.toList.splitOn '.')[1]?.bind fun segment ↦ x.decode (String.ofList segment)

/-- `oauth.rs:89`. -/
def tokens (now : Int) (value : Json) (previous : Option Credentials) : Result Credentials := do
  let accessToken ← match ((value.get "access_token").bind Json.asStr).filter (!·.isEmpty) with
    | some token => pure token
    | none => throw ⟨502, "invalid_oauth_response", "OAuth response omitted access_token"⟩
  let expiresIn := ((value.get "expires_in").bind Quota.asI64).filter fun n ↦ 0 < n && n < 31536000
  return {
    accessToken := accessToken
    refreshToken := (((value.get "refresh_token").bind Json.asStr).or
      (previous.map (·.refreshToken))).getD ""
    idToken := (((value.get "id_token").bind Json.asStr).or (previous.map (·.idToken))).getD ""
    expiresAt := (expiresIn.map fun n ↦ now + 1000 * n).or
      ((((jwt x accessToken).bind (·.get "exp")).bind Quota.asI64).bind x.fromTimestamp) }

/-- `oauth.rs:143`. -/
structure SubscriptionDetails where
  activeUntil : Option Int
  lastCheckedAt : Option Int
  deriving DecidableEq

/-- `oauth.rs:134`. -/
structure AccountDetails where
  accountId : String
  email : Option String
  planType : Option String
  subscription : Option SubscriptionDetails
  deriving DecidableEq

/-- `oauth.rs:148`. -/
def authClaim (claims : Json) (name : String) : Option Json :=
  (claims.pointer "https://api.openai.com/auth" name).or (claims.get name)

/-- `oauth.rs:213`. -/
def claimAccountId (value : Json) : Option String :=
  (((value.pointer "https://api.openai.com/auth" "chatgpt_account_id").or
    (value.get "chatgpt_account_id")).bind Json.asStr).filter (!·.isEmpty)

/-- `str::to_ascii_lowercase`. -/
def toAsciiLowercase (s : String) : String := String.ofList (s.toList.map Char.toLower)

/-- The plan a token names. -/
def claimPlan (claims : Json) : Option String :=
  (authClaim claims "chatgpt_plan_type").bind Json.asStr

/-- The claims are of the plan and say something about when it ends. -/
def isSnapshot (plan : String) (claims : Json) : Bool :=
  (claimPlan claims).any (toAsciiLowercase · = toAsciiLowercase plan) &&
    (authClaim claims "chatgpt_subscription_active_until").isSome

/-- The date a claim gives. -/
def claimDate (claims : Json) (name : String) : Option Int :=
  ((authClaim claims name).bind Json.asStr).bind x.parseDate

/-- `oauth.rs:155`. Newer explicit nulls invalidate old subscription dates. -/
def subscriptionDetails (claims : List Json) (plan : Option String) :
    Option SubscriptionDetails := do
  let plan ← plan.filter (· ≠ "free")
  let snapshot ← claims.reverse.find? (isSnapshot plan)
  return ⟨claimDate x snapshot "chatgpt_subscription_active_until",
    claimDate x snapshot "chatgpt_subscription_last_checked"⟩

/-- The plans that are shown. -/
def plans : List String :=
  ["free", "plus", "pro", "go", "team", "business", "enterprise", "edu"]

/-- `oauth.rs:182–210`: the details that claims give, older tokens first. -/
def details (claims : List Json) : Result AccountDetails :=
  match claims.findSome? claimAccountId with
  | none => .error (.invalid "Credential claims do not contain a ChatGPT account ID")
  | some accountId =>
    let matching := claims.filter (claimAccountId · = some accountId)
    let planType := ((matching.reverse.findSome? claimPlan).map toAsciiLowercase).filter (· ∈ plans)
    .ok ⟨accountId, matching.findSome? fun v ↦ (v.get "email").bind Json.asStr, planType,
      subscriptionDetails x matching planType⟩

/-- `oauth.rs:176`. -/
def accountDetails (c : Credentials) : Result AccountDetails :=
  details x ([c.idToken, c.accessToken].filterMap (jwt x))

/-- The code of a rejected refresh. -/
def refreshCode (value : Json) : String :=
  ((((value.pointer "error" "code").or (value.get "error")).or (value.get "code")).bind
    Json.asStr).getD ""

/-- `oauth.rs:42`; the body comes parsed, if it could be. -/
def refreshed (now : Int) (status : Nat) (parsed : Option Json) (previous : Credentials)
    (account : Account) : Result Credentials :=
  let value := parsed.getD .null
  if ¬(200 ≤ status ∧ status < 300) then
    if status = 401 ∨ refreshCode value ∈ ["invalid_grant", "refresh_token_expired",
        "refresh_token_reused", "refresh_token_invalidated"] then
      .error ⟨401, "oauth_invalid", "OAuth refresh authorization is no longer valid"⟩
    else .error ⟨502, "oauth_refresh_failed", "OAuth refresh failed temporarily"⟩
  else do
    let credentials ← tokens x now value (some previous)
    let details ← accountDetails x credentials
    if details.accountId ≠ account.upstreamAccountId then
      throw ⟨401, "oauth_invalid", "Refreshed credentials belong to a different upstream account"⟩
    return credentials

/-- The refresh token that an answer leaves valid when a refresh was made with the token. -/
def issued (parsed : Option Json) (token : String) : String :=
  (((parsed.getD .null).get "refresh_token").bind Json.asStr).getD token

/-- Only an answer that grants the refresh gives credentials, and they have its token. -/
theorem refreshed_ok {x : Codecs} {now : Int} {status : Nat} {parsed : Option Json}
    {previous c : Credentials} {account : Account}
    (h : refreshed x now status parsed previous account = .ok c) :
    (200 ≤ status ∧ status < 300) ∧ c.refreshToken = issued parsed previous.refreshToken := by
  unfold refreshed at h
  dsimp only at h
  split at h
  · split at h
    · cases h
    · cases h
  · next hgranted =>
    obtain ⟨credentials, htokens, h⟩ := bind_ok.mp h
    obtain ⟨details, -, h⟩ := bind_ok.mp h
    split at h
    · cases h
    · cases h
      refine ⟨not_not.mp hgranted, ?_⟩
      unfold tokens at htokens
      unfold issued
      split at htokens
      · cases htokens
        cases ((parsed.getD .null).get "refresh_token").bind Json.asStr with
        | none => rfl
        | some token => rfl
      · cases htokens

/-! ### Device authorization -/

/-- `u64::from_str`. -/
def parseU64 (s : String) : Option Nat :=
  let digits := match s.toList with
    | '+' :: rest => rest
    | digits => digits
  let value := digits.foldl (fun n c ↦ 10 * n + (c.toNat - '0'.toNat)) 0
  if digits.isEmpty || !digits.all Char.isDigit || 0xFFFFFFFFFFFFFFFF < value then none
  else some value

/-- `oauth.rs:353`. -/
structure DeviceCode where
  deviceAuthId : String
  userCode : String
  interval : Json

/-- `oauth.rs:366`. -/
def DeviceCode.pollSeconds (code : DeviceCode) : Nat :=
  max 3 (min 60 ((code.interval.asU64.or (code.interval.asStr.bind parseU64)).getD 5))

/-- `oauth.rs:387`: the parameters of the request that exchanges an approved code. -/
def exchangeDevice (value : Json) : Result (List (String × String)) := do
  let code ← match (value.get "authorization_code").bind Json.asStr with
    | some code => pure code
    | none => throw ⟨502, "invalid_oauth_response",
        "Device authorization omitted authorization code"⟩
  let verifier ← match (value.get "code_verifier").bind Json.asStr with
    | some verifier => pure verifier
    | none => throw ⟨502, "invalid_oauth_response", "Device authorization omitted PKCE verifier"⟩
  return [("grant_type", "authorization_code"), ("code", code),
    ("redirect_uri", "https://auth.openai.com/deviceauth/callback"),
    ("client_id", "app_EMoamEEZ73f0CkXaXp7hrann"), ("code_verifier", verifier)]

/-! ### What the claims say -/

variable {x : Codecs} {d : AccountDetails} {claims : List Json}

/-- The account is the one that the first claims with an account name. -/
theorem details_eq_ok :
    details x claims = .ok d ↔
      claims.findSome? claimAccountId = some d.accountId ∧ d = ⟨d.accountId,
      (claims.filter (claimAccountId · = some d.accountId)).findSome? fun v ↦
        (v.get "email").bind Json.asStr,
      (((claims.filter (claimAccountId · = some d.accountId)).reverse.findSome? claimPlan).map
        toAsciiLowercase).filter (· ∈ plans),
      subscriptionDetails x (claims.filter (claimAccountId · = some d.accountId)) d.planType⟩ := by
  unfold details
  cases h : claims.findSome? claimAccountId with
  | none =>
    constructor
    · intro he
      cases he
    · rintro ⟨he, -⟩
      cases he
  | some accountId =>
    dsimp only
    constructor
    · intro he
      cases he
      exact ⟨rfl, rfl⟩
    · rintro ⟨he, hd⟩
      cases he
      refine congrArg Except.ok ?_
      refine Eq.trans ?_ hd.symm
      rw [hd]

/-- The first claims that name an account are not dropped with those of other accounts. -/
theorem findSome_own {accountId : String} (h : claims.findSome? claimAccountId = some accountId) :
    (claims.filter (claimAccountId · = some accountId)).findSome? claimAccountId =
      some accountId := by
  obtain ⟨before, v, after, rfl, hv, hnone⟩ := List.findSome?_eq_some_iff.mp h
  have hbefore : before.filter (claimAccountId · = some accountId) = [] := by
    rw [List.filter_eq_nil_iff]
    intro u hu
    rw [hnone u hu]
    simp
  rw [List.filter_append, hbefore, List.nil_append, List.filter_cons_of_pos (by simpa using hv),
    List.findSome?_cons, hv]

/-- The claims of other accounts add nothing. -/
theorem details_own (h : details x claims = .ok d) :
    details x (claims.filter (claimAccountId · = some d.accountId)) = .ok d := by
  rw [details_eq_ok] at h ⊢
  rw [List.filter_filter]
  simp only [Bool.and_self]
  exact ⟨findSome_own h.1, h.2⟩

/-- A date of a subscription is from the newest claims of the plan that say anything of it. -/
theorem subscriptionDetails_newest {plan : Option String} {s : SubscriptionDetails}
    (h : subscriptionDetails x claims plan = some s) :
    ∃ p older snapshot newer, plan = some p ∧ p ≠ "free" ∧
      claims = older ++ snapshot :: newer ∧ isSnapshot p snapshot = true ∧
      (∀ v ∈ newer, isSnapshot p v = false) ∧
      s.activeUntil = claimDate x snapshot "chatgpt_subscription_active_until" ∧
      s.lastCheckedAt = claimDate x snapshot "chatgpt_subscription_last_checked" := by
  unfold subscriptionDetails at h
  obtain ⟨p, hp, h⟩ := Option.bind_eq_some_iff.mp h
  obtain ⟨snapshot, hs, h⟩ := Option.bind_eq_some_iff.mp h
  cases h
  obtain ⟨hplan, hfree⟩ := Option.filter_eq_some_iff.mp hp
  obtain ⟨hsnap, newer, older, he, hnewer⟩ := List.find?_eq_some_iff_append.mp hs
  refine ⟨p, older.reverse, snapshot, newer.reverse, hplan, by simpa using hfree, ?_, hsnap,
    fun v hv ↦ ?_, rfl, rfl⟩
  · rw [← List.reverse_reverse claims, he]
    simp
  · simpa using hnewer v (List.mem_reverse.mp hv)

/-- **Nothing is borrowed.** Whatever tokens the credentials hold, the details are those of one
account alone: they come out the same without the claims of any other account. An end of a
subscription is shown for the plan that is shown, and is from the newest of the account's
claims of this plan that speak of it; newer ones without a date invalidate older dates. -/
theorem account_details_own {c : Credentials} (h : accountDetails x c = .ok d) :
    details x (([c.idToken, c.accessToken].filterMap (jwt x)).filter
      (claimAccountId · = some d.accountId)) = .ok d ∧
    ∀ s, d.subscription = some s → ∃ p older snapshot newer, d.planType = some p ∧ p ≠ "free" ∧
      ([c.idToken, c.accessToken].filterMap (jwt x)).filter
        (claimAccountId · = some d.accountId) = older ++ snapshot :: newer ∧
      isSnapshot p snapshot = true ∧ (∀ v ∈ newer, isSnapshot p v = false) ∧
      s.activeUntil = claimDate x snapshot "chatgpt_subscription_active_until" ∧
      s.lastCheckedAt = claimDate x snapshot "chatgpt_subscription_last_checked" := by
  refine ⟨details_own h, fun s hs ↦ subscriptionDetails_newest ?_⟩
  rw [← hs]
  exact (congrArg AccountDetails.subscription (details_eq_ok.mp h).2).symm

/-! ### Sample data -/

namespace Sample

/-- The segments of three tokens: of account `a`, of account `b`, and of account 7. -/
def segments : List (String × Json) :=
  [("eyJjaGF0Z3B0X2FjY291bnRfaWQiOiJhIiwiY2hhdGdwdF9wbGFuX3R5cGUiOiJQcm8iLCJjaGF0Z3B0X3N1YnNj" ++
      "cmlwdGlvbl9hY3RpdmVfdW50aWwiOiIyMDI2LTAxLTAyVDAwOjAwOjAwWiJ9",
      .obj [("chatgpt_account_id", .str "a"), ("chatgpt_plan_type", .str "Pro"),
        ("chatgpt_subscription_active_until", .str "2026-01-02T00:00:00Z")]),
    ("eyJjaGF0Z3B0X2FjY291bnRfaWQiOiJiIiwiY2hhdGdwdF9wbGFuX3R5cGUiOiJwbHVzIn0",
      .obj [("chatgpt_account_id", .str "b"), ("chatgpt_plan_type", .str "plus")]),
    ("eyJjaGF0Z3B0X2FjY291bnRfaWQiOiJ1cHN0cmVhbS03In0",
      .obj [("chatgpt_account_id", .str "upstream-7")])]

/-- The decoding of the segments, and the date in the first, in milliseconds. -/
def codecs : Codecs where
  decode segment := (segments.find? (·.1 = segment)).map (·.2)
  fromTimestamp seconds := some (1000 * seconds)
  parseDate
    | "2026-01-02T00:00:00Z" => some 1767312000000
    | _ => none

/-- A token that is not signed, with a segment. -/
def token (n : Nat) : String :=
  "eyJhbGciOiJub25lIn0." ++ ((segments[n]?.map (·.1)).getD "") ++ "."

/-- An access token of account `b` beside an identity token of account `a`. -/
def mixed : Credentials := ⟨token 1, "refresh", token 0, none⟩

/-- What they say. -/
def mixedDetails : AccountDetails := ⟨"a", none, some "pro", some ⟨some 1767312000000, none⟩⟩

end Sample

/-- The access token is of another account. -/
theorem account_details_mixed :
    details Sample.codecs (([Sample.mixed.idToken, Sample.mixed.accessToken].filterMap
      (jwt Sample.codecs)).filter (claimAccountId · = some "a")) = .ok Sample.mixedDetails :=
  (account_details_own (x := Sample.codecs) (d := Sample.mixedDetails) (c := Sample.mixed)
    (by decide +kernel)).1

end Xxgate.Codex.Oauth

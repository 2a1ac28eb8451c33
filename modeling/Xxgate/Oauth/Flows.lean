import Xxgate.Accounts.Calls
import Xxgate.Codex.OauthBrowser

/-!
# Pending authorizations

The map of `crates/xxgate-server/src/http/oauth.rs` and `oauth_browser.rs` in which pending
authorizations wait, with the sections in which the handlers hold its mutex. No section waits
for anything, so each is one change of the map.
-/

namespace Xxgate.Oauth

open Xxgate.Base Xxgate.Base.FiniteMap Xxgate.Core Xxgate.Codex Xxgate.Accounts

/-- What a flow shows. -/
inductive Value where
  | starting
  | device (id : Uuid) (userCode : String)
  | browser (id : Uuid) (authorizationUrl : String)
  | exchanging (id : Uuid)
  | completed (id : Uuid) (accountId : Uuid)
  | failed (id : Uuid) (code message : String)

/-- Its `"status"`. -/
def Value.status : Value → String
  | .starting => "starting"
  | .device .. | .browser .. => "pending"
  | .exchanging _ => "exchanging"
  | .completed .. => "completed"
  | .failed .. => "failed"

/-- `oauth.rs:21`. -/
structure Flow where
  expires : Nat
  value : Value
  browser : Option (Start × BrowserAuthorization)

/-- The flows by id. -/
abbrev Flows := FiniteMap Uuid Flow

namespace Flows

/-- `oauth.rs:98–116` and `oauth_browser.rs:35–52`: a new flow, unless there are too many; flows
that expired go in any case. -/
def reserve (flows : Flows) (now : Nat) (id : Uuid) (value : Value)
    (browser : Option (Start × BrowserAuthorization)) (tooMany : String) : Flows × Result Unit :=
  let kept := flows.filter fun _ flow ↦ now < flow.expires
  if 16 ≤ kept.values.length then (kept, .error ⟨429, "too_many_oauth_flows", tooMany⟩)
  else (kept.insert id ⟨now + 900 * 1000, value, browser⟩, .ok ())

/-- `oauth.rs:138`. -/
def setValue (flows : Flows) (id : Uuid) (value : Value) : Flows :=
  flows.modify id fun flow ↦ { flow with value := value }

/-- `oauth.rs:144–148` and `oauth_browser.rs:93–101`. -/
def finish (flows : Flows) (now : Nat) (id : Uuid) (value : Value) : Flows :=
  flows.modify id fun flow ↦ { flow with value := value, expires := now + 300 * 1000 }

deriving instance DecidableEq for Start

/-- The request an exchange sends, with what it is for. -/
structure Exchange where
  input : Start
  auth : BrowserAuthorization
  code : String
  deriving DecidableEq

/-- `oauth_browser.rs:64–89`: the authorization is taken out of its flow before anything is
awaited, so that it cannot be taken twice. -/
def consume (flows : Flows) (parse : String → Option Url) (now : Nat) (id : Uuid)
    (callback : String) : Flows × Result Exchange :=
  match (flows.lookup id).filter fun flow ↦ now < flow.expires with
  | none => (flows, .error ⟨410, "oauth_flow_expired",
      "授权已过期或服务已重启，请重新生成授权链接。"⟩)
  | some flow =>
    match flow.browser with
    | none => (flows, .error ⟨409, "oauth_flow_consumed",
        "本次授权已提交，请等待结果；失败后需重新生成链接。"⟩)
    | some (input, auth) =>
      match auth.callbackCode parse callback with
      | .error error => (flows, .error error)
      | .ok code => (flows.insert id { flow with browser := none, value := .exchanging id },
          .ok ⟨input, auth, code⟩)

/-- What is consumed is a code that a callback of the authorization carried. -/
theorem consume_code {flows : Flows} {parse : String → Option Url} {now : Nat} {id : Uuid}
    {callback : String} {e : Exchange} (h : (flows.consume parse now id callback).2 = .ok e) :
    e.auth.callbackCode parse callback = .ok e.code := by
  unfold consume at h
  split at h
  · cases h
  · split at h
    · cases h
    · split at h
      · cases h
      · next hcode =>
        cases h
        exact hcode

/-- `oauth_browser.rs:117`. -/
def cancel (flows : Flows) (id : Uuid) : Flows × Result Unit :=
  match flows.lookup id with
  | none => (flows, .ok ())
  | some flow =>
    if flow.value.status = "exchanging" then
      (flows, .error ⟨409, "oauth_exchange_in_progress", "正在兑换凭证，请等待结果。"⟩)
    else if flow.browser.isSome then (flows.erase id, .ok ())
    else (flows, .ok ())

/-- `oauth.rs:264`. -/
def status (flows : Flows) (now : Nat) (id : Uuid) : Result Value :=
  ((flows.lookup id).filter fun flow ↦ now < flow.expires).elim (.error .notFound)
    fun flow ↦ .ok flow.value

/-! ### How many there are -/

variable (flows : Flows)

/-- Counting is a sum over the flows. -/
theorem length_values : flows.values.length = (flows.values.map fun _ ↦ 1).sum := by
  simp

/-- Modifying a flow keeps their number. -/
theorem length_modify (id : Uuid) (f : Flow → Flow) :
    (flows.modify id f).values.length = flows.values.length := by
  unfold FiniteMap.modify
  cases h : flows.lookup id with
  | none => rfl
  | some flow =>
    have hsum := sum_insert flows (fun _ ↦ 1) id (f flow)
    rw [h, ← length_values, ← length_values] at hsum
    simp only [Option.elim_some] at hsum ⊢
    omega

/-- Erasing a flow adds none. -/
theorem length_erase_le (id : Uuid) : (values (flows.erase id)).length ≤ flows.values.length := by
  have hsum := sum_erase flows (fun _ ↦ 1) id
  rw [← length_values, ← length_values] at hsum
  omega

/-- A flow is reserved only where there are at most fifteen others. -/
theorem length_reserve (h : flows.values.length ≤ 16) (now : Nat) (id : Uuid) (value : Value)
    (browser : Option (Start × BrowserAuthorization)) (tooMany : String) :
    (flows.reserve now id value browser tooMany).1.values.length ≤ 16 := by
  have hkept : (flows.filter fun _ flow ↦ now < flow.expires).values.length ≤
      flows.values.length := by
    rw [values_filter]
    exact List.length_filter_le _ _
  unfold reserve
  dsimp only
  split
  · exact hkept.trans h
  · next hlt =>
    have hsum := sum_insert (flows.filter fun _ flow ↦ now < flow.expires) (fun _ ↦ 1) id
      ⟨now + 900 * 1000, value, browser⟩
    rw [← length_values, ← length_values] at hsum
    dsimp only
    omega

/-- Consuming a callback keeps the number of flows. -/
theorem length_consume (parse : String → Option Url) (now : Nat) (id : Uuid) (callback : String) :
    (flows.consume parse now id callback).1.values.length = flows.values.length := by
  unfold consume
  split
  · rfl
  · next flow hflow =>
    split
    · rfl
    · split
      · rfl
      · have hsum := sum_insert flows (fun _ ↦ 1) id
          { flow with browser := none, value := .exchanging id }
        rw [(Option.filter_eq_some_iff.mp hflow).1, ← length_values, ← length_values] at hsum
        simp only [Option.elim_some] at hsum
        dsimp only
        omega

/-- Cancelling a flow adds none. -/
theorem length_cancel_le (id : Uuid) : (flows.cancel id).1.values.length ≤ flows.values.length := by
  unfold cancel
  split
  · exact le_refl _
  · split
    · exact le_refl _
    · split
      · exact flows.length_erase_le id
      · exact le_refl _

end Flows
end Xxgate.Oauth

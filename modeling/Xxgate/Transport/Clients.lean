import Xxgate.Base.FiniteMap
import Xxgate.Base.Run
import Xxgate.Core.Identity

/-!
# Clients of the transport

`crates/xxgate-transport/src/client_pool.rs`: which HTTP client sends a request. A client has the
connections and the cookies of what it sent, so that the pool keeps one for each account, origin,
backend and version of the account's profile. Parsing a URL is a parameter, and so is whether a
client can be built.
-/

namespace Xxgate.Transport

open Xxgate.Base Xxgate.Base.FiniteMap Xxgate.Core

/-- `url::Url`, as far as the transport looks at it. -/
structure Target where
  scheme : String
  username : String
  password : Option String
  /-- `url.origin().ascii_serialization()`. -/
  origin : String
  path : String
  deriving DecidableEq

/-- `protocol.rs:85`, as far as the transport looks at it. -/
structure PreparedRequest where
  method : String
  url : String
  accountId : Option Uuid
  profileVersion : Int
  tlsBackend : String
  deriving DecidableEq

/-- `reqwest::Client`: the number tells what was built apart, and clones of it have the same. -/
structure Client where
  number : Nat
  cookieStore : Bool
  rustls : Bool
  deriving DecidableEq

/-- `client_pool.rs:13`, with the number of clients that were built. -/
structure HttpTransport where
  allowHttp : Bool
  clients : FiniteMap String (Int × Client)
  built : Nat

/-- What a request is sent with. -/
inductive Sender where
  | pooled (client : Client)
  /-- A browser profile of its own, without cookies. -/
  | browser
  deriving DecidableEq

/-- `client_pool.rs:30–34`. -/
def Target.supported (allowHttp : Bool) (url : Target) : Bool :=
  url.username = "" && url.password.isNone &&
    (url.scheme = "https" || allowHttp && url.scheme = "http")

/-- `client_pool.rs:35–43`. -/
def PreparedRequest.key (request : PreparedRequest) (url : Target) : String :=
  (request.accountId.map Uuid.hyphenated).getD "control" ++ ":" ++ url.origin ++ ":" ++
    request.tlsBackend

/-- `client_pool.rs:127–138`. -/
def subscriptionEndpoint (request : PreparedRequest) (url : Target) : Bool :=
  request.method = "GET" && url.origin = "https://chatgpt.com" && url.username = "" &&
    url.password.isNone &&
    (url.path = "/backend-api/subscriptions" ||
      url.path = "/backend-api/accounts/check/v4-2023-04-27")

namespace HttpTransport

variable (parse : String → Option Target)

/-- `client_pool.rs:54–68`. -/
def build (t : HttpTransport) (request : PreparedRequest) (key : String) :
    HttpTransport × Result Client :=
  let client := ⟨t.built, request.accountId.isSome, request.tlsBackend = "rustls"⟩
  ({ t with
    clients := t.clients.insert key (request.profileVersion, client), built := t.built + 1 },
    .ok client)

/-- `client_pool.rs:27`. -/
def client (t : HttpTransport) (buildable : Bool) (request : PreparedRequest) :
    HttpTransport × Result Client :=
  match parse request.url with
  | none => (t, .error (.invalid "Invalid upstream URL"))
  | some url =>
    if !url.supported t.allowHttp then (t, .error (.invalid "Unsupported upstream URL"))
    else
      match (t.clients.lookup (request.key url)).filter (·.1 = request.profileVersion) with
      | some (_, client) => (t, .ok client)
      | none =>
        if buildable then t.build request (request.key url)
        else (t, .error ⟨500, "client_initialization_failed",
          "Unable to initialize upstream HTTP client"⟩)

/-- `client_pool.rs:123`: the two read-only endpoints a browser profile is for. -/
def browserSubscription (buildable : Bool) (request : PreparedRequest) : Result Sender :=
  match parse request.url with
  | none => .error (.invalid "Invalid subscription URL")
  | some url =>
    if !subscriptionEndpoint request url then
      .error (.invalid "Unsupported subscription endpoint")
    else if buildable then .ok .browser
    else .error ⟨500, "subscription_client_failed", "无法初始化套餐查询客户端"⟩

/-- `client_pool.rs:91`, as far as what the request is sent with. -/
def sendOnce (t : HttpTransport) (buildable : Bool) (request : PreparedRequest) :
    HttpTransport × Result Sender :=
  if request.tlsBackend = "subscription_browser" then
    (t, browserSubscription parse buildable request)
  else
    match t.client parse buildable request with
    | (t, .ok client) => (t, .ok (.pooled client))
    | (t, .error error) => (t, .error error)

/-- A transport without clients. -/
def new (allowHttp : Bool) : HttpTransport := ⟨allowHttp, ∅, 0⟩

/-- One request, and whether a client could be built for it. -/
abbrev step (t : HttpTransport) (e : PreparedRequest × Bool) : HttpTransport :=
  (t.sendOnce parse e.2 e.1).1

/-- The client of the pool that sends the request, if one does. -/
def sent (t : HttpTransport) (e : PreparedRequest × Bool) : Option (PreparedRequest × Client) :=
  match (t.sendOnce parse e.2 e.1).2 with
  | .ok (.pooled client) => some (e.1, client)
  | _ => none

end HttpTransport

/-! ### Keys -/

/-- What stands before the first of a separator. -/
theorem append_cons_inj {c : Char} {s t x y : List Char} (hs : c ∉ s) (ht : c ∉ t)
    (h : s ++ c :: x = t ++ c :: y) : s = t ∧ x = y := by
  induction s generalizing t with
  | nil =>
    cases t with
    | nil =>
      cases h
      exact ⟨rfl, rfl⟩
    | cons b t =>
      cases h
      exact absurd (List.mem_cons_self ..) ht
  | cons a s ih =>
    cases t with
    | nil =>
      cases h
      exact absurd (List.mem_cons_self ..) hs
    | cons b t =>
      rw [List.cons_append, List.cons_append] at h
      obtain ⟨rfl, hrest⟩ := List.cons.inj h
      obtain ⟨rfl, rfl⟩ := ih (fun hm ↦ hs (List.mem_cons_of_mem _ hm))
        (fun hm ↦ ht (List.mem_cons_of_mem _ hm)) hrest
      exact ⟨rfl, rfl⟩

/-- The characters of a UUID are digits and dashes. -/
theorem mem_hyphenated {u : Uuid} {c : Char} (h : c ∈ u.hyphenated.toList) :
    c = '-' ∨ ∃ d < 16, c = Nat.digitChar d := by
  by_cases hc : c = '-'
  · exact .inl hc
  · have hm : c ∈ u.hexDigits := by
      rw [← Uuid.filter_hyphenated]
      exact List.mem_filter.mpr ⟨h, decide_eq_true hc⟩
    obtain ⟨d, hd, rfl⟩ := List.mem_map.mp hm
    exact .inr ⟨d, Nat.lt_of_mem_digitsAppend (by decide) 32 d (List.mem_reverse.mp hd), rfl⟩

/-- An account's part of a key. -/
def owner (accountId : Option Uuid) : String := (accountId.map Uuid.hyphenated).getD "control"

private theorem colon_notMem_owner (accountId : Option Uuid) : ':' ∉ (owner accountId).toList := by
  cases accountId with
  | none => decide
  | some id =>
    intro h
    rcases mem_hyphenated (show ':' ∈ id.hyphenated.toList from h) with h | ⟨d, hd, h⟩
    · cases h
    · have hne : ∀ d < 16, ':' ≠ Nat.digitChar d := by decide
      exact hne d hd h

private theorem owner_injective : Function.Injective owner := by
  have hcontrol : ∀ id : Uuid, id.hyphenated ≠ "control" := by
    intro id he
    have hm : 'o' ∈ id.hyphenated.toList := by
      rw [he]
      decide
    rcases mem_hyphenated hm with h | ⟨d, hd, h⟩
    · cases h
    · have hne : ∀ d < 16, 'o' ≠ Nat.digitChar d := by decide
      exact hne d hd h
  intro a b h
  cases a with
  | none =>
    cases b with
    | none => rfl
    | some b => exact absurd h.symm (hcontrol b)
  | some a =>
    cases b with
    | none => exact absurd h (hcontrol a)
    | some b => exact congrArg some (Uuid.hyphenated_injective h)

/-- Different accounts, origins and backends have different keys. -/
theorem key_inj {r r' : PreparedRequest} {url url' : Target} (hb : ':' ∉ r.tlsBackend.toList)
    (hb' : ':' ∉ r'.tlsBackend.toList) (h : r.key url = r'.key url') :
    r.accountId = r'.accountId ∧ url.origin = url'.origin ∧ r.tlsBackend = r'.tlsBackend := by
  have hchars : (owner r.accountId).toList ++ ':' :: (url.origin.toList ++ ':' ::
        r.tlsBackend.toList) = (owner r'.accountId).toList ++ ':' :: (url'.origin.toList ++ ':' ::
        r'.tlsBackend.toList) := by
    have hlist := congrArg String.toList h
    simpa [PreparedRequest.key, owner, String.toList_append] using hlist
  obtain ⟨howner, hrest⟩ :=
    append_cons_inj (colon_notMem_owner _) (colon_notMem_owner _) hchars
  -- the backend is what stands after the last separator
  have hreversed := congrArg List.reverse hrest
  simp only [List.reverse_append, List.reverse_cons, List.append_assoc, List.singleton_append]
    at hreversed
  obtain ⟨hbackend, horigin⟩ := append_cons_inj (by simpa using hb) (by simpa using hb') hreversed
  exact ⟨owner_injective (String.toList_injective howner),
    String.toList_injective (List.reverse_injective horigin),
    String.toList_injective (List.reverse_injective hbackend)⟩

/-! ### What a client sends -/

namespace HttpTransport

variable {parse : String → Option Target} {t : HttpTransport} {e : PreparedRequest × Bool}

/-- What a request finds in the pool, or what is built for it. -/
inductive Took (parse : String → Option Target) (t : HttpTransport) (request : PreparedRequest)
    (client : Client) : HttpTransport → Prop where
  | found {url : Target} (target : parse request.url = some url)
      (supported : url.supported t.allowHttp = true)
      (pooled : t.clients.lookup (request.key url) = some (request.profileVersion, client)) :
      Took parse t request client t
  | built {url : Target} (target : parse request.url = some url)
      (supported : url.supported t.allowHttp = true)
      (new : client = ⟨t.built, request.accountId.isSome, request.tlsBackend = "rustls"⟩) :
      Took parse t request client
        { t with
          clients := t.clients.insert (request.key url) (request.profileVersion, client)
          built := t.built + 1 }

/-- What the pool answers. -/
theorem client_cases (parse : String → Option Target) (t : HttpTransport) (buildable : Bool)
    (request : PreparedRequest) :
    (∃ x, t.client parse buildable request = (t, .error x)) ∨
      ∃ client t', t.client parse buildable request = (t', .ok client) ∧
        Took parse t request client t' := by
  unfold client
  split
  · exact .inl ⟨_, rfl⟩
  · next url hurl =>
    split
    · exact .inl ⟨_, rfl⟩
    · next hsupported =>
      have hsupported : url.supported t.allowHttp = true := by simpa using hsupported
      split
      · next version client hfound =>
        obtain ⟨hl, hversion⟩ := Option.filter_eq_some_iff.mp hfound
        obtain rfl := of_decide_eq_true hversion
        exact .inr ⟨client, t, rfl, .found hurl hsupported hl⟩
      · split
        · exact .inr ⟨_, _, rfl, .built hurl hsupported rfl⟩
        · exact .inl ⟨_, rfl⟩

/-- What a request comes to. -/
theorem sendOnce_cases (parse : String → Option Target) (t : HttpTransport)
    (e : PreparedRequest × Bool) :
    (t.step parse e = t ∧ t.sent parse e = none) ∨
      (e.1.tlsBackend ≠ "subscription_browser" ∧
        ∃ client, t.sent parse e = some (e.1, client) ∧
          Took parse t e.1 client (t.step parse e)) := by
  unfold step sent sendOnce
  split
  · left
    refine ⟨rfl, ?_⟩
    unfold browserSubscription
    cases parse e.1.url with
    | none => rfl
    | some url =>
      dsimp only
      by_cases hs : subscriptionEndpoint e.1 url = true
      · by_cases hb : e.2 = true
        · simp [hs, hb]
        · simp [hs, hb]
      · simp [hs]
  · next hbackend =>
    rcases client_cases parse t e.2 e.1 with ⟨x, hx⟩ | ⟨client, t', hc, htook⟩
    · rw [hx]
      exact .inl ⟨rfl, rfl⟩
    · rw [hc]
      exact .inr ⟨hbackend, client, rfl, htook⟩

/-- A key, a version and a client that are in the pool or sent a request. -/
def Known (parse : String → Option Target) (t : HttpTransport)
    (log : List (PreparedRequest × Client)) (x : String × Int × Client) : Prop :=
  t.clients.lookup x.1 = some x.2 ∨
    ∃ a ∈ log, ∃ url, parse a.1.url = some url ∧ x = (a.1.key url, a.1.profileVersion, a.2)

/-- A client is as it was built for a request with the key. -/
def Fits (x : String × Int × Client) : Prop :=
  ∃ (request : PreparedRequest) (url : Target), ':' ∉ request.tlsBackend.toList ∧
    x.1 = request.key url ∧ x.2.2.cookieStore = request.accountId.isSome ∧
    x.2.2.rustls = decide (request.tlsBackend = "rustls")

/-- A request was sent where it may be, and its client fits it. -/
structure Proper (parse : String → Option Target) (allowHttp : Bool)
    (a : PreparedRequest × Client) : Prop where
  target : ∃ url, parse a.1.url = some url ∧ url.supported allowHttp = true
  cookies : a.2.cookieStore = a.1.accountId.isSome
  rustls : a.2.rustls = decide (a.1.tlsBackend = "rustls")
  backend : ':' ∉ a.1.tlsBackend.toList

/-- A client is known under one key and version. -/
structure Apart (parse : String → Option Target) (t : HttpTransport)
    (log : List (PreparedRequest × Client)) : Prop where
  built : ∀ x, Known parse t log x → x.2.2.number < t.built
  apart : ∀ x y, Known parse t log x → Known parse t log y → x.2.2.number = y.2.2.number → x = y
  fits : ∀ key entry, t.clients.lookup key = some entry → Fits (key, entry)
  proper : ∀ a ∈ log, Proper parse t.allowHttp a

private theorem Apart.new (parse : String → Option Target) (allowHttp : Bool) :
    Apart parse (.new allowHttp) [] where
  built := by
    rintro x (hl | ⟨a, ha, -⟩)
    · cases hl
    · cases ha
  apart := by
    rintro x y (hl | ⟨a, ha, -⟩)
    · cases hl
    · cases ha
  fits := fun key entry hl ↦ (by cases hl)
  proper := fun a ha ↦ (by cases ha)

variable {log : List (PreparedRequest × Client)}

/-- A request that found its client adds nothing to what is known. -/
theorem Known.found {request : PreparedRequest} {url : Target} {client : Client}
    (hurl : parse request.url = some url)
    (hl : t.clients.lookup (request.key url) = some (request.profileVersion, client))
    {x : String × Int × Client} (h : Known parse t (log ++ [(request, client)]) x) :
    Known parse t log x := by
  rcases h with hx | ⟨a, ha, url', hurl', rfl⟩
  · exact .inl hx
  · rcases List.mem_append.mp ha with ha | ha
    · exact .inr ⟨a, ha, url', hurl', rfl⟩
    · obtain rfl := List.mem_singleton.mp ha
      cases hurl.symm.trans hurl'
      exact .inl hl

/-- A client that was built adds itself to what is known. -/
theorem Known.built {request : PreparedRequest} {url : Target} {client : Client}
    (hurl : parse request.url = some url) {x : String × Int × Client}
    (h : Known parse
      { t with
        clients := t.clients.insert (request.key url) (request.profileVersion, client)
        built := t.built + 1 } (log ++ [(request, client)]) x) :
    Known parse t log x ∨ x = (request.key url, request.profileVersion, client) := by
  rcases h with hx | ⟨a, ha, url', hurl', rfl⟩
  · dsimp only at hx
    rw [lookup_insert_ite] at hx
    split at hx
    · next hkey => exact .inr (Prod.ext hkey (Option.some.inj hx).symm)
    · exact .inl (.inl hx)
  · rcases List.mem_append.mp ha with ha | ha
    · exact .inl (.inr ⟨a, ha, url', hurl', rfl⟩)
    · obtain rfl := List.mem_singleton.mp ha
      cases hurl.symm.trans hurl'
      exact .inr rfl

/-- A request keeps clients apart. -/
theorem Apart.took {request : PreparedRequest} {client : Client} {t' : HttpTransport}
    (h : Apart parse t log) (hb : ':' ∉ request.tlsBackend.toList)
    (htook : Took parse t request client t') : Apart parse t' (log ++ [(request, client)]) := by
  cases htook with
  | @found url hurl supported pooled =>
    refine ⟨fun x hx ↦ h.built x (hx.found hurl pooled), fun x y hx hy ↦
      h.apart x y (hx.found hurl pooled) (hy.found hurl pooled), h.fits, ?_⟩
    intro a ha
    rcases List.mem_append.mp ha with ha | ha
    · exact h.proper a ha
    · obtain rfl := List.mem_singleton.mp ha
      obtain ⟨request', url', hb', hkey, hcookies, hrustls⟩ := h.fits _ _ pooled
      obtain ⟨haccount, -, hbackend⟩ := key_inj hb hb' hkey
      refine ⟨⟨url, hurl, supported⟩, ?_, ?_, hb⟩
      · rw [haccount]
        exact hcookies
      · rw [hbackend]
        exact hrustls
  | @built url hurl supported new =>
    have hnumber : client.number = t.built := congrArg Client.number new
    constructor
    · intro x hx
      rcases hx.built hurl with hx | rfl
      · exact Nat.lt_succ_of_lt (h.built x hx)
      · exact Nat.lt_succ_of_le hnumber.le
    · intro x y hx hy he
      rcases hx.built hurl with hx | rfl
      · rcases hy.built hurl with hy | rfl
        · exact h.apart x y hx hy he
        · exact absurd (he.trans hnumber) (h.built x hx).ne
      · rcases hy.built hurl with hy | rfl
        · exact absurd (he.symm.trans hnumber) (h.built y hy).ne
        · rfl
    · intro key entry hl
      dsimp only at hl
      rw [lookup_insert_ite] at hl
      split at hl
      · next hkey =>
        cases hl
        exact ⟨request, url, hb, hkey, congrArg Client.cookieStore new,
          congrArg Client.rustls new⟩
      · exact h.fits key entry hl
    · intro a ha
      rcases List.mem_append.mp ha with ha | ha
      · exact h.proper a ha
      · obtain rfl := List.mem_singleton.mp ha
        exact ⟨⟨url, hurl, supported⟩, congrArg Client.cookieStore new,
          congrArg Client.rustls new, hb⟩

/-- The backends that requests have: those that `Account::validate` lets a profile have
(`accounts.rs:135`), and that of the subscription requests (`subscriptions.rs:55`). -/
def backends : List String := ["native", "rustls", "subscription_browser"]

/-- A request with a listed backend keeps clients apart. -/
theorem Apart.step (h : Apart parse t log) (hb : e.1.tlsBackend ∈ backends) :
    Apart parse (t.step parse e) (log ++ (t.sent parse e).toList) := by
  rcases sendOnce_cases parse t e with ⟨hstep, hsent⟩ | ⟨-, client, hsent, htook⟩
  · rw [hstep, hsent]
    simpa using h
  · rw [hsent]
    refine h.took ?_ htook
    have hplain : ∀ backend ∈ backends, ':' ∉ backend.toList := by decide
    exact hplain _ hb

/-- Requests with listed backends keep clients apart. -/
theorem Apart.all (h : Apart parse t log) (requests : List (PreparedRequest × Bool))
    (hb : ∀ e ∈ requests, e.1.tlsBackend ∈ backends) :
    Apart parse (run (HttpTransport.step parse) t requests)
      (log ++ outputs (HttpTransport.step parse) (sent parse) t requests) := by
  induction requests generalizing t log with
  | nil =>
    rw [outputs, List.append_nil]
    exact h
  | cons e requests ih =>
    have hrest := ih (h.step (hb e (List.mem_cons_self ..)))
      fun e' he ↦ hb e' (List.mem_cons_of_mem _ he)
    rw [List.append_assoc] at hrest
    exact hrest

/-- Whether plain HTTP is allowed never changes. -/
theorem allowHttp_run (parse : String → Option Target) (t : HttpTransport)
    (requests : List (PreparedRequest × Bool)) :
    (run (step parse) t requests).allowHttp = t.allowHttp := by
  refine run_invariant (P := fun t' : HttpTransport ↦ t'.allowHttp = t.allowHttp) ?_ requests rfl
  intro t' e h
  rcases sendOnce_cases parse t' e with ⟨hstep, -⟩ | ⟨-, client, -, htook⟩
  · rw [hstep]
    exact h
  · generalize t'.step parse e = t'' at htook
    cases htook with
    | found => exact h
    | built => exact h

/-- A browser profile sends only what reads one of the two endpoints it is for. -/
theorem browser_endpoint {buildable : Bool} {request : PreparedRequest}
    (h : (t.sendOnce parse buildable request).2 = .ok .browser) :
    ∃ url, parse request.url = some url ∧ subscriptionEndpoint request url = true := by
  unfold sendOnce at h
  split at h
  · dsimp only at h
    unfold browserSubscription at h
    cases hurl : parse request.url with
    | none =>
      rw [hurl] at h
      cases h
    | some url =>
      rw [hurl] at h
      dsimp only at h
      by_cases hs : subscriptionEndpoint request url = true
      · exact ⟨url, rfl, hs⟩
      · rw [Bool.not_eq_true] at hs
        rw [hs] at h
        cases h
  · split at h
    · cases h
    · cases h

/-- **Accounts share no client.** Whatever requests are sent in whatever order: two that were sent
with one client were for one account, one origin, one backend and one version of the profile, so
that no cookie or connection of an account serves another; a client has cookies for an account
only, and a request goes where the transport may send it, with a browser profile only to the two
endpoints that are read with one. -/
theorem clients_apart (parse : String → Option Target) (allowHttp : Bool)
    (requests : List (PreparedRequest × Bool)) (hb : ∀ e ∈ requests, e.1.tlsBackend ∈ backends)
    {a b : PreparedRequest × Client}
    (ha : a ∈ outputs (step parse) (sent parse) (.new allowHttp) requests)
    (hb' : b ∈ outputs (step parse) (sent parse) (.new allowHttp) requests) :
    (∃ url, parse a.1.url = some url ∧ url.supported allowHttp = true) ∧
    a.2.cookieStore = a.1.accountId.isSome ∧
    (a.2.number = b.2.number → a.2 = b.2 ∧ a.1.accountId = b.1.accountId ∧
      (parse a.1.url).map Target.origin = (parse b.1.url).map Target.origin ∧
      a.1.tlsBackend = b.1.tlsBackend ∧ a.1.profileVersion = b.1.profileVersion) ∧
    ∀ (t : HttpTransport) (e : PreparedRequest × Bool),
      (t.sendOnce parse e.2 e.1).2 = .ok .browser →
        ∃ url, parse e.1.url = some url ∧ subscriptionEndpoint e.1 url = true := by
  have h := (Apart.new parse allowHttp).all requests hb
  rw [List.nil_append] at h
  have hallowed := allowHttp_run parse (.new allowHttp) requests
  obtain ⟨⟨url, hurl, hsupported⟩, hcookies, -, hcolon⟩ := h.proper a ha
  obtain ⟨⟨url', hurl', -⟩, -, -, hcolon'⟩ := h.proper b hb'
  rw [hallowed] at hsupported
  refine ⟨⟨url, hurl, hsupported⟩, hcookies, fun hnumber ↦ ?_, fun _ _ ↦ browser_endpoint⟩
  have hsame := h.apart _ _ (.inr ⟨a, ha, url, hurl, rfl⟩) (.inr ⟨b, hb', url', hurl', rfl⟩) hnumber
  obtain ⟨hkey, hrest⟩ := Prod.mk.inj hsame
  obtain ⟨hversion, hclient⟩ := Prod.mk.inj hrest
  obtain ⟨haccount, horigin, hbackend⟩ := key_inj hcolon hcolon' hkey
  rw [hurl, hurl']
  exact ⟨hclient, haccount, congrArg some horigin, hbackend, hversion⟩

namespace Sample

/-- Two URLs are parsed. -/
def parseTwo (url : String) : Option Target :=
  if url = "https://chatgpt.com/backend-api/codex/responses" then
    some ⟨"https", "", none, "https://chatgpt.com", "/backend-api/codex/responses"⟩
  else if url = "https://chatgpt.com/backend-api/subscriptions" then
    some ⟨"https", "", none, "https://chatgpt.com", "/backend-api/subscriptions"⟩
  else none

/-- A request of an account. -/
def request (method : String) (id : Uuid) : PreparedRequest :=
  ⟨method, "https://chatgpt.com/backend-api/codex/responses", some id, 1, "rustls"⟩

/-- A request that reads the subscriptions of an account. -/
def subscriptions (id : Uuid) : PreparedRequest :=
  ⟨"GET", "https://chatgpt.com/backend-api/subscriptions", some id, 1, "subscription_browser"⟩

/-- Two accounts send by turns. -/
def turns : List (PreparedRequest × Bool) :=
  [(request "POST" 1, true), (request "POST" 2, true), (request "GET" 1, true)]

end Sample

/-- The first account has its client again after the second one sent with another, and reads its
subscriptions with a browser profile. -/
theorem clients_apart_turns :
    (∃ url, Sample.parseTwo (Sample.request "POST" 1).url = some url ∧
      url.supported false = true) ∧
    true = (Sample.request "POST" 1).accountId.isSome ∧
    (0 = 0 → (⟨0, true, true⟩ : Client) = ⟨0, true, true⟩ ∧
      (Sample.request "POST" 1).accountId = (Sample.request "GET" 1).accountId ∧
      (Sample.parseTwo (Sample.request "POST" 1).url).map Target.origin =
        (Sample.parseTwo (Sample.request "GET" 1).url).map Target.origin ∧
      (Sample.request "POST" 1).tlsBackend = (Sample.request "GET" 1).tlsBackend ∧
      (Sample.request "POST" 1).profileVersion = (Sample.request "GET" 1).profileVersion) ∧
    ∃ url, Sample.parseTwo (Sample.subscriptions 1).url = some url ∧
      subscriptionEndpoint (Sample.subscriptions 1) url = true := by
  obtain ⟨hurl, hcookies, hsame, hbrowser⟩ :=
    clients_apart Sample.parseTwo false Sample.turns
      (a := (Sample.request "POST" 1, ⟨0, true, true⟩))
      (b := (Sample.request "GET" 1, ⟨0, true, true⟩))
      (by decide) (by decide +kernel) (by decide +kernel)
  exact ⟨hurl, hcookies, hsame, hbrowser (.new false) (Sample.subscriptions 1, true)
    (by decide +kernel)⟩

end HttpTransport
end Xxgate.Transport

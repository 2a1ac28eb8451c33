import Mathlib.Tactic.TypeStar

/-!
# Shared types

`crates/xxgate-core/src/types.rs`, `clients.rs`, `identity.rs`, `accounts.rs`,
`access.rs`, `providers.rs` and `settings.rs`: the records the scheduler and the gateway
read, with the fields their modelled functions use.
-/

namespace Xxgate.Core

/-- A UUID, by the number its bytes spell. Only equality and order are ever used. -/
abbrev Uuid := Nat

/-- `types.rs:7`: the classified error a request can end with. -/
structure Error where
  status : Nat
  code : String
  message : String
  deriving DecidableEq, Repr

/-- `types.rs:3`. -/
abbrev Result := Except Error

namespace Error

/-- `types.rs:75`. -/
def invalid (message : String) : Error := ⟨400, "invalid_request", message⟩

/-- `types.rs:78`. -/
def storage : Error := ⟨503, "storage_unavailable", "Persistent storage is unavailable"⟩

/-- `types.rs:85`. -/
def cancelled : Error := ⟨499, "client_cancelled", "The client disconnected"⟩

/-- `types.rs:91`. -/
def notFound : Error := ⟨404, "not_found", "The requested resource was not found"⟩

/-- `types.rs:94`. -/
def conflict : Error :=
  ⟨409, "version_conflict", "The resource changed; reload and try again"⟩

end Error

/-- `types.rs:104`: a model of a provider, reached through one access kind. -/
structure ModelRef where
  provider : String
  accessKind : String
  model : String
  deriving DecidableEq, Repr

/-- `types.rs:111`. -/
def ModelRef.codex (model : String) : ModelRef := ⟨"openai", "codex_oauth", model⟩

/-- `clients.rs:6`: the inbound software classification. -/
inductive ClientSource where
  | codex
  | unknown
  deriving DecidableEq, Repr

/-- `identity.rs:7`. -/
structure SessionKey where
  keyId : Uuid
  clientSessionId : String
  deriving DecidableEq, Repr

/-- `identity.rs:13`. -/
structure ThreadKey where
  session : SessionKey
  clientThreadId : String
  deriving DecidableEq, Repr

/-- `identity.rs:26`: the account and upstream namespace a session is bound to. -/
structure Binding where
  id : Uuid
  groupId : Uuid
  session : SessionKey
  generation : Int
  accountId : Uuid
  ns : Uuid
  provider : String
  accessKind : String
  deriving DecidableEq, Repr

/-- `groups.rs:6`. -/
def DEFAULT_GROUP_ID : Uuid := 1

/-- `identity.rs:39`; the two `Uuid::new_v4` values are drawn by the caller. -/
def Binding.new (id ns : Uuid) (session : SessionKey) (accountId : Uuid) (model : ModelRef)
    (generation : Int) : Binding where
  id := id
  groupId := DEFAULT_GROUP_ID
  session := session
  generation := generation
  accountId := accountId
  ns := ns
  provider := model.provider
  accessKind := model.accessKind

/-- `identity.rs:51`. -/
def Binding.compatible (b : Binding) (model : ModelRef) : Bool :=
  b.provider == model.provider && b.accessKind == model.accessKind

/-- `providers.rs:17`: the model identifiers of the last catalogue, when it was synced, and how
the last attempt went. -/
structure AccountModelCatalog where
  models : List String
  syncedAt : Option Int
  attemptedAt : Option Int
  error : Option Error
  deriving DecidableEq, Repr

/-- `AccountModelCatalog::default`. -/
def AccountModelCatalog.empty : AccountModelCatalog := ⟨[], none, none, none⟩

/-- `providers.rs:71`. -/
def isCodexImageModel (model : ModelRef) : Bool :=
  model.provider == "openai" && model.accessKind == "codex_oauth" &&
    model.model == "gpt-image-2"

/-- `accounts.rs:7`. -/
inductive DisableReason where
  | adminDisabled
  | quota5hExhausted
  | quota7dExhausted
  | quotaExhausted
  | oauthInvalid
  deriving DecidableEq, Repr

/-- The reasons quota automation gives and takes back: the `matches!` of `gateway.rs:1012` and
`gateway.rs:1083`. -/
def DisableReason.isQuota : DisableReason → Bool
  | .quota5hExhausted | .quota7dExhausted | .quotaExhausted => true
  | .adminDisabled | .oauthInvalid => false

/-- `accounts.rs:17`: what an administrator can change of it. -/
structure ClientProfile where
  userAgent : String
  tlsBackend : String
  deriving DecidableEq, Repr

/-- `accounts.rs:42`: an upstream account. -/
structure Account where
  id : Uuid
  groupIds : List Uuid
  name : String
  provider : String
  accessKind : String
  enabled : Bool
  codexOnly : Bool
  useExtraCredits : Bool
  disableReason : Option DisableReason
  maxInflight : UInt32
  upstreamAccountId : String
  models : List String
  modelsRestricted : Bool
  modelCatalog : Option AccountModelCatalog
  profile : ClientProfile
  version : Int
  credentialVersion : Int
  credentialExpiresAt : Option Int
  deriving DecidableEq

namespace Account

/-- `accounts.rs:72`. -/
def accepts (a : Account) (source : ClientSource) : Bool :=
  !a.codexOnly || source == .codex

/-- `accounts.rs:75`. -/
def supports (a : Account) (model : ModelRef) : Bool :=
  a.provider == model.provider && a.accessKind == model.accessKind &&
    ((!a.modelsRestricted && a.models.isEmpty) || a.models.contains model.model) &&
    (isCodexImageModel model ||
      ((a.modelCatalog.filter (·.syncedAt.isSome)).all
        fun c ↦ c.models.any (· == model.model)))

end Account

/-- `accounts.rs:146`. -/
structure Credentials where
  accessToken : String
  refreshToken : String
  idToken : String
  expiresAt : Option Int
  deriving DecidableEq, Repr

/-- The characters of the texts `http::HeaderValue::from_str` takes: visible ASCII and spaces,
and what else it may take. -/
structure HeaderText where
  takes : Char → Bool
  visible : ∀ c : Char, 32 ≤ c.toNat → c.toNat < 127 → takes c = true

/-- `http::HeaderValue::from_str(value).is_ok()`. -/
def HeaderText.fits (http : HeaderText) (value : String) : Bool := value.toList.all http.takes

/-- Headers that hold visible ASCII, spaces and tabs. -/
def HeaderText.ascii : HeaderText where
  takes c := c == '\t' || decide (32 ≤ c.toNat) && decide (c.toNat < 127)
  visible c hlow hhigh := by simp [hlow, hhigh]

/-- `accounts.rs:161`. -/
def Credentials.validate (c : Credentials) (http : HeaderText) : Result Unit :=
  if c.accessToken.isEmpty || 32768 < c.accessToken.utf8ByteSize ||
      32768 < c.refreshToken.utf8ByteSize || 32768 < c.idToken.utf8ByteSize then
    .error (.invalid "Invalid credential length")
  else if !http.fits ("Bearer " ++ c.accessToken) then
    .error (.invalid "Invalid access token")
  else .ok ()

/-- `access.rs:93`. -/
structure GatewayKey where
  id : Uuid
  groupId : Uuid
  enabled : Bool
  deriving DecidableEq, Repr

/-- `settings.rs:29`: the limits the scheduler and the gateway's timers read. -/
structure RuntimeSettings where
  version : Int
  queueTimeoutMs : Nat
  heartbeatIntervalMs : Nat
  sseIdleTimeoutMs : Nat
  queueCapacity : Nat
  sseEventLimitBytes : Nat
  globalMaxInflight : UInt32
  sessionMaxInflight : UInt32
  deriving DecidableEq

/-- `settings.rs:81`: the checks on the modelled limits, with their messages. -/
def RuntimeSettings.validate (s : RuntimeSettings) : Result Unit :=
  if ¬(100 ≤ s.queueTimeoutMs ∧ s.queueTimeoutMs ≤ 86400000) then
    .error (.invalid "queue_timeout_ms must be between 100 and 86400000")
  else if ¬(100 ≤ s.sseIdleTimeoutMs ∧ s.sseIdleTimeoutMs ≤ 86400000) then
    .error (.invalid "sse_idle_timeout_ms must be between 100 and 86400000")
  else if ¬(50 ≤ s.heartbeatIntervalMs ∧ s.heartbeatIntervalMs ≤ 60000) then
    .error (.invalid "Heartbeat interval must be between 50 and 60000 ms")
  else if s.queueCapacity = 0 ∨ 100000 < s.queueCapacity ∨
      s.globalMaxInflight = 0 ∨ 10000 < s.globalMaxInflight ∨
      s.sessionMaxInflight = 0 ∨ 1000 < s.sessionMaxInflight then
    .error (.invalid "Invalid concurrency or queue capacity")
  else if s.sseEventLimitBytes < 1024 ∨ 268435456 < s.sseEventLimitBytes then
    .error (.invalid "Invalid request, event or queue memory limit")
  else .ok ()

/-- Settings in force. `settings.rs:159` publishes what `save_settings` validated or what
was stored by it, so a published value has passed `validate`. -/
structure LiveSettings extends RuntimeSettings where
  valid : toRuntimeSettings.validate = .ok ()

/-- Valid settings let a session have at least one request in flight. -/
theorem LiveSettings.sessionMaxInflight_pos (s : LiveSettings) :
    0 < s.sessionMaxInflight.toNat := by
  have h := s.valid
  unfold RuntimeSettings.validate at h
  split at h
  · cases h
  split at h
  · cases h
  split at h
  · cases h
  split at h
  · cases h
  · next hn =>
    have hz : s.sessionMaxInflight ≠ 0 := fun hz ↦ hn (by simp [hz])
    exact Nat.pos_of_ne_zero fun h0 ↦ hz (UInt32.toNat_inj.mp h0)

end Xxgate.Core

import Xxgate.Base.Fallible
import Xxgate.Core.Audit

/-!
# Runtime settings in full

`crates/xxgate-core/src/settings.rs`: every setting with its default, and the checks in the
order the source makes them. The limits the scheduler and the gateway read are the part of
them that `RuntimeSettings` is.
-/

namespace Xxgate.Core

open Xxgate.Base.Fallible

/-- `settings.rs:29`. -/
structure Settings extends RuntimeSettings where
  logLevel : LogLevel
  connectTimeoutMs : Nat
  /-- Legacy configuration, retained for old clients. -/
  queueMemoryBytes : Nat
  memoryRejectPercent : Nat
  memoryResumePercent : Nat
  requestReadConcurrency : Nat
  requestBodyLimitBytes : Nat
  defaultAccountConcurrency : UInt32
  quotaPollIntervalSecs : Nat
  quotaStaleAfterSecs : Nat
  requestRetentionDays : Nat
  auditRetentionDays : Nat
  deriving DecidableEq

namespace Settings

/-- `settings.rs:53`: `RuntimeSettings::default`. -/
def default : Settings where
  version := 1
  logLevel := .info
  queueTimeoutMs := 300000
  heartbeatIntervalMs := 10000
  connectTimeoutMs := 15000
  sseIdleTimeoutMs := 300000
  queueCapacity := 2000
  queueMemoryBytes := 512 * 1024 * 1024
  memoryRejectPercent := 85
  memoryResumePercent := 75
  requestReadConcurrency := 4
  requestBodyLimitBytes := 32 * 1024 * 1024
  sseEventLimitBytes := 64 * 1024 * 1024
  globalMaxInflight := 200
  sessionMaxInflight := 2
  defaultAccountConcurrency := 2
  quotaPollIntervalSecs := 300
  quotaStaleAfterSecs := 900
  requestRetentionDays := 30
  auditRetentionDays := 180

/-- A bound on a timeout, with the message that names it. -/
def checkTimeout (name : String) (value : Nat) : Result Unit :=
  if 100 ≤ value ∧ value ≤ 86400000 then .ok ()
  else .error (.invalid (name ++ " must be between 100 and 86400000"))

/-- `settings.rs:82–90`. -/
def checkMemory (s : Settings) : Result Unit :=
  if ¬(50 ≤ s.memoryRejectPercent ∧ s.memoryRejectPercent ≤ 95) ∨ s.memoryResumePercent < 10 ∨
      s.memoryRejectPercent ≤ s.memoryResumePercent ∨
      ¬(1 ≤ s.requestReadConcurrency ∧ s.requestReadConcurrency ≤ 64) then
    .error (.invalid ("Memory rejection must be 50–95%, recovery 10% to below rejection, " ++
      "and body reader concurrency 1–64"))
  else .ok ()

/-- `settings.rs:102–117`. -/
def checkConcurrency (s : Settings) : Result Unit :=
  if ¬(50 ≤ s.heartbeatIntervalMs ∧ s.heartbeatIntervalMs ≤ 60000) then
    .error (.invalid "Heartbeat interval must be between 50 and 60000 ms")
  else if s.queueCapacity = 0 ∨ 100000 < s.queueCapacity ∨
      s.globalMaxInflight = 0 ∨ 10000 < s.globalMaxInflight ∨
      s.sessionMaxInflight = 0 ∨ 1000 < s.sessionMaxInflight ∨
      s.defaultAccountConcurrency = 0 ∨ 1000 < s.defaultAccountConcurrency then
    .error (.invalid "Invalid concurrency or queue capacity")
  else .ok ()

/-- `settings.rs:118–141`. -/
def checkLimits (s : Settings) : Result Unit :=
  if s.requestBodyLimitBytes < 1024 ∨ 256 * 1024 * 1024 < s.requestBodyLimitBytes ∨
      s.sseEventLimitBytes < 1024 ∨ 256 * 1024 * 1024 < s.sseEventLimitBytes ∨
      s.queueMemoryBytes < 1024 * 1024 ∨ 16 * 1024 * 1024 * 1024 < s.queueMemoryBytes then
    .error (.invalid "Invalid request, event or queue memory limit")
  else if ¬(30 ≤ s.quotaPollIntervalSecs ∧ s.quotaPollIntervalSecs ≤ 86400) ∨
      s.quotaStaleAfterSecs < s.quotaPollIntervalSecs ∨ 604800 < s.quotaStaleAfterSecs then
    .error (.invalid "Invalid quota collection interval")
  else if s.requestRetentionDays = 0 ∨ s.auditRetentionDays = 0 ∨
      3650 < s.requestRetentionDays ∨ 3650 < s.auditRetentionDays then
    .error (.invalid "Retention must be between 1 and 3650 days")
  else .ok ()

/-- `settings.rs:81`. -/
def validate (s : Settings) : Result Unit := do
  s.checkMemory
  checkTimeout "queue_timeout_ms" s.queueTimeoutMs
  checkTimeout "connect_timeout_ms" s.connectTimeoutMs
  checkTimeout "sse_idle_timeout_ms" s.sseIdleTimeoutMs
  s.checkConcurrency
  s.checkLimits

/-- The default settings pass their own checks. -/
theorem default_valid : default.validate = .ok () := rfl

end Settings
end Xxgate.Core

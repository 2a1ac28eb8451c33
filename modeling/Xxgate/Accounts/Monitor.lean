import Xxgate.Accounts.Mutations

/-!
# Following a task

What the calls and replies of a task say about it: the locks it has, the account it looked
up under the `mutations` lock, and what it still owes the scheduler for a change it made. The
monitor says which call is in order when, and every task keeps to it whatever the replies
are and wherever the task is dropped.
-/

namespace Xxgate.Accounts

open Xxgate.Base Xxgate.Base.Coroutine Xxgate.Core Xxgate.Store

/-- What a task that changes an account owes the scheduler. -/
inductive Duty where
  | clear
  /-- The account is blocked and nothing is written. -/
  | blocked (id : Uuid)
  /-- The store has the account so, and the scheduler was not told. -/
  | written (account : Account)
  /-- A write failed to answer well: the account is as it was, or changed. -/
  | doubtful (id : Uuid)
  /-- The store has deleted the account, and the scheduler was not told. -/
  | deleted (id : Uuid)
  /-- Accounts read from the store for an account in doubt, and not published yet. -/
  | reloaded (id : Uuid) (rest : List Account)
  deriving DecidableEq

/-- Nothing is owed any more. -/
def Duty.Done : Duty → Prop
  | .clear => True
  | .reloaded _ rest => rest = []
  | _ => False

/-- What is left of a duty when an account was published. -/
def Duty.published : Duty → Duty
  | .reloaded id (_ :: rest) => .reloaded id rest
  | _ => .clear

/-- How far a refresh has come. -/
inductive Renewal where
  | idle
  /-- The request is on its way. -/
  | posted (id : Uuid) (previous : Credentials)
  /-- Credentials were answered and are not stored. -/
  | answered (id : Uuid) (credentials : Credentials)
  deriving DecidableEq

/-- The task waits for the endpoint. -/
def Renewal.waits : Renewal → Bool
  | .posted .. => true
  | _ => false

/-- What is known of a task from its calls and replies. -/
structure Standing where
  job : Job
  held : Finset Lock
  /-- The account looked up under the `mutations` lock, with the id it was looked up by. -/
  seen : Option (Uuid × Account)
  duty : Duty
  /-- What was read under the lock to decide about quotas. -/
  windows : Option (Uuid × List QuotaWindow)
  credits : Option (Uuid × Option ExtraCredits)
  now : Option Int
  staleAfter : Option Nat
  /-- The call of an observing function the task is in, with what it looked up and published,
  and whether the store failed it. -/
  span : Option Observation
  looked : Option Account
  published : Option Account
  faulty : Bool
  /-- The calls of observing functions that returned, newest first. -/
  returned : List (Observation × Bool)
  /-- The account looked up under its refresh lock. -/
  base : Option (Uuid × Account)
  renewal : Renewal
  /-- The credentials were not valid, or the store did not take them. -/
  refused : Bool

namespace Standing

/-- Nothing has happened. -/
def start (job : Job) : Standing :=
  ⟨job, ∅, none, .clear, none, none, none, none, none, none, none, false, [], none, .idle, false⟩

/-- The `mutations` lock is given back. -/
def released (φ : Standing) : Standing :=
  { φ with
    seen := none, duty := .clear, windows := none, credits := none, now := none,
    staleAfter := none }

/-- What giving a lock back means for what is known. -/
def unlocked (φ : Standing) : Lock → Standing
  | .mutations => { φ.released with held := φ.held.erase .mutations }
  | .refresh id =>
    { φ with held := φ.held.erase (.refresh id), base := none, renewal := .idle, refused := false }
  | .modelSync id => { φ with held := φ.held.erase (.modelSync id) }

/-- What a look at an account tells, by the lock it was taken under. -/
def lookedUp (φ : Standing) (id : Uuid) (account : Option Account) : Standing :=
  if .mutations ∈ φ.held then
    { φ with seen := account.map (id, ·), looked := if φ.span.isSome then account else φ.looked }
  else if .refresh id ∈ φ.held then { φ with base := account.map (id, ·) }
  else φ

/-- The next duty after an account was published. -/
def published' (φ : Standing) (account : Account) : Standing :=
  { φ with
    seen := none
    published := if φ.span.isSome then some account else φ.published
    duty := φ.duty.published }

/-- What the answer to a write of an account tells; `failed` is the duty when it is no good. -/
def wrote (φ : Standing) (failed : Duty) : Result Account → Standing
  | .ok account => { φ with duty := .written account }
  | .error _ => { φ with duty := failed }

/-- What a call and its reply tell. -/
def next (φ : Standing) : (c : Call) → c.Reply → Standing
  | .consult .now, r => if .mutations ∈ φ.held then { φ with now := some r } else φ
  | .consult .staleAfter, r => if .mutations ∈ φ.held then { φ with staleAfter := some r } else φ
  | .consult _, _ => φ
  | .lock l, _ => { φ with held := insert l φ.held }
  | .unlock l, _ => φ.unlocked l
  | .releaseAll, _ =>
    { φ.released with held := ∅, span := none, base := none, renewal := .idle, refused := false }
  | .enter o, _ => { φ with span := some o, looked := none, published := none, faulty := false }
  | .leave o ok, _ => { φ with span := none, returned := (o, ok) :: φ.returned }
  | .account id, r => φ.lookedUp id r
  | .accounts, _ => φ
  | .blockAccount id, _ => { φ with duty := .blocked id }
  | .updateAccount account, _ => φ.published' account
  | .removeAccount _, _ => { φ with seen := none, duty := .clear }
  | .setPaused, _ => { φ with duty := .clear }
  | .groups, _ => φ
  | .storedAccounts, .ok accounts =>
    match φ.duty with
    | .doubtful id => { φ with duty := .reloaded id accounts }
    | _ => φ
  | .storedAccounts, .error _ => φ
  | .putAccount account _ expected, r =>
    φ.wrote (if expected.isSome then .doubtful account.id else φ.duty) r
  | .deleteAccount id, r => if r.isOk then { φ with duty := .deleted id } else φ
  | .credentials _, _ => φ
  | .updateCredentials .., .ok account =>
    { φ with duty := .written account, base := none, renewal := .idle }
  | .updateCredentials .., .error _ => { φ with refused := true }
  | .setEnabled id .., r => { φ.wrote (.doubtful id) r with faulty := φ.faulty || !r.isOk }
  | .saveModelCatalog .., r => φ.wrote φ.duty r
  | .quotas id, .ok windows =>
    if .mutations ∈ φ.held then { φ with windows := some (id, windows) } else φ
  | .quotas _, .error _ => φ
  | .saveQuotas .., _ => { φ with windows := none }
  | .extraCredits id, .ok credits =>
    if .mutations ∈ φ.held then { φ with credits := some (id, credits) } else φ
  | .extraCredits _, .error _ => { φ with faulty := true }
  | .saveExtraCredits .., r => { φ with credits := none, faulty := φ.faulty || !r.isOk }
  | .post id previous, _ => { φ with renewal := .posted id previous }
  | .refresh id .., .ok credentials => { φ with renewal := .answered id credentials }
  | .refresh .., .error _ => { φ with renewal := .idle }
  | .validateCredentials _, .ok _ => φ
  | .validateCredentials _, .error _ =>
    if φ.renewal = .idle then φ else { φ with refused := true }

/-- The account was looked up under the lock, by the id or under it. -/
def Saw (φ : Standing) (id : Uuid) (account : Account) : Prop :=
  ∃ q, φ.seen = some (q, account) ∧ (id = q ∨ id = account.id)

/-- In a call of an observing function, the account is at the version it was observed at. -/
def Current (φ : Standing) : Prop :=
  ∀ o, φ.span = some o → ∃ account, φ.Saw o.id account ∧ account.version = o.version

/-- The extra credits read for an account can be used. -/
def extra (φ : Standing) (account : Account) : Bool :=
  account.useExtraCredits && φ.credits.any fun c ↦ decide (c.1 = account.id) &&
    c.2.any fun credits ↦ φ.now.any fun now ↦ φ.staleAfter.any (credits.available now ·)

/-- Quota windows were read for an account, and none of them blocks it. -/
def Unblocked (φ : Standing) (account : Account) : Prop :=
  ∃ windows now, φ.windows = some (account.id, windows) ∧ φ.now = some now ∧ windows ≠ [] ∧
    ∀ w ∈ windows, quotaBlocked w (φ.extra account) now = false

/-- A call that observed a rejection returns well when the account was out of use, at another
version, or was published as it should be, and fails when there was none or the store failed. -/
def MayReturn (φ : Standing) (o : Observation) (ok : Bool) : Prop :=
  o.reason.isSome = true →
    if ok then ∃ account, φ.looked = some account ∧
      (account.enabled = false ∨ account.version ≠ o.version ∨ φ.published.isSome = true)
    else φ.looked = none ∨ φ.faulty = true

/-- When an account may be enabled or disabled. -/
structure MaySet (φ : Standing) (id : Uuid) (enabled : Bool) (reason : Option DisableReason)
    (account : Account) (actor : String) : Prop where
  /-- Only an administrator, or automation for an account it disabled, enables one. -/
  enable : enabled = true → (∃ reason, φ.job = .setEnabled id true reason ∧ actor = "admin") ∨
    account.enabled = false ∧ account.disableReason.any (·.isQuota) = true ∧
      φ.Unblocked account ∧ φ.duty = .blocked id
  /-- Automation disables only what is enabled. -/
  disable : enabled = false → φ.duty = .blocked id ∧
    (φ.job = .setEnabled id false reason ∨ account.enabled = true)
  blocked : φ.duty = .clear ∨ φ.duty = .blocked id
  /-- An observed rejection is written as it was observed. -/
  observed : ∀ o r, φ.span = some o → o.reason = some r → enabled = false ∧ reason = some r

/-- The calls in order. -/
def InOrder (φ : Standing) : Call → Prop
  | .consult _ => True
  | .lock l => l ∉ φ.held ∧ .mutations ∉ φ.held ∧
      (l = .mutations → φ.span = none ∨ φ.looked = none)
  | .unlock l => l ∈ φ.held ∧ (.mutations ∈ φ.held → l = .mutations ∧ φ.duty.Done) ∧
      ∀ id, l = .refresh id → φ.renewal = .idle ∨ φ.refused = true
  | .releaseAll => False
  | .enter _ => .mutations ∉ φ.held ∧ φ.span = none
  | .leave o ok => .mutations ∉ φ.held ∧ φ.span = some o ∧ φ.MayReturn o ok
  | .account id => φ.duty = .clear ∧
      (.mutations ∈ φ.held → ∀ o, φ.span = some o → id = o.id)
  | .accounts | .groups | .credentials _ | .quotas _ | .extraCredits _ => True
  | .blockAccount id =>
    .mutations ∈ φ.held ∧ φ.duty = .clear ∧ φ.Current ∧ ∃ account, φ.Saw id account
  | .updateAccount account => .mutations ∈ φ.held ∧ φ.Current ∧
      (φ.duty = .written account ∨ φ.span = none ∧
        ((∃ id, φ.duty = .blocked id ∧ φ.seen = some (id, account)) ∨
          ∃ id rest, φ.duty = .reloaded id (account :: rest)))
  | .removeAccount id => .mutations ∈ φ.held ∧ φ.span = none ∧ φ.duty = .deleted id
  | .setPaused => .mutations ∈ φ.held ∧ ∃ id, φ.duty = .doubtful id
  | .storedAccounts => .mutations ∈ φ.held ∧ ∃ id, φ.duty = .doubtful id
  | .putAccount account encrypted (some expected) => .mutations ∈ φ.held ∧ φ.span = none ∧
      encrypted = none ∧ ∃ id previous, φ.seen = some (id, previous) ∧ φ.duty = .blocked id ∧
        account.id = previous.id ∧ expected = previous.version ∧
        account.enabled = previous.enabled ∧ account.disableReason = previous.disableReason ∧
        ∃ input, φ.job = .updateAccount id input
  | .putAccount account encrypted none => .mutations ∈ φ.held ∧ φ.span = none ∧
      φ.duty = .clear ∧ account.enabled = false ∧
      (∃ credentials, encrypted = some (encrypt account.id credentials)) ∧
      ((∃ input, φ.job = .createAccount input) ∨
        ∃ input credentials, φ.job = .saveCredentials input credentials)
  | .deleteAccount id => .mutations ∈ φ.held ∧ φ.span = none ∧ φ.duty = .blocked id ∧
      (∃ account, φ.seen = some (id, account)) ∧ φ.job = .deleteAccount id
  | .updateCredentials id encrypted _ expected => .mutations ∈ φ.held ∧ φ.span = none ∧
      φ.duty = .clear ∧ encrypted.accountId = id ∧
      ((∃ credentials account, φ.renewal = .answered id credentials ∧
          encrypted = encrypt id credentials ∧ φ.base = some (id, account) ∧
          expected = account.credentialVersion ∧ .refresh id ∈ φ.held) ∨
        ∃ input credentials, φ.job = .saveCredentials input credentials)
  | .setEnabled id enabled reason expected actor => .mutations ∈ φ.held ∧ φ.Current ∧
      ∃ account, φ.Saw id account ∧ expected = account.version ∧
        φ.MaySet id enabled reason account actor
  | .saveModelCatalog _ _ => .mutations ∈ φ.held ∧ φ.span = none ∧ φ.duty = .clear
  | .saveQuotas id _ | .saveExtraCredits id _ => .mutations ∈ φ.held ∧
      (∃ o, φ.span = some o ∧ id = o.id) ∧ φ.Current ∧ φ.duty = .clear
  | .post id _ => .refresh id ∈ φ.held ∧ .mutations ∉ φ.held ∧ φ.renewal = .idle ∧
      ∃ account, φ.base = some (id, account)
  | .refresh id account previous => .refresh id ∈ φ.held ∧ .mutations ∉ φ.held ∧
      φ.renewal = .posted id previous ∧ φ.base = some (id, account)
  | .validateCredentials credentials => (∃ id, φ.renewal = .answered id credentials) ∨
      φ.renewal = .idle ∧ ((∃ input, φ.job = .createAccount input) ∨
        ∃ input credentials, φ.job = .saveCredentials input credentials)

end Standing

/-- The monitor of a task. -/
def monitor : Monitor Unit Call Call.Reply Empty Standing where
  next := Standing.next
  allowed := fun φ _ c ↦ φ.InOrder c
  entry := fun _ _ l ↦ l.elim
  exit := fun φ ↦ .mutations ∉ φ.held ∧ φ.renewal = .idle
  closing := fun _ _ c ↦ c = .releaseAll

/-- A task that is through has no lock. -/
def Through (_ : Except Error Unit) (_ : Unit) (φ : Standing) : Prop := φ.held = ∅

/-- From anywhere a task that is over gives its locks back. -/
theorem closes (x : Except Error Unit) (s : Unit) (φ : Standing) :
    scheme.Closes monitor Through x s φ := by
  unfold Scheme.Closes scheme
  rw [meets_ask]
  exact ⟨rfl, fun _ ↦ rfl⟩

/-- The scheme keeps to the monitor. -/
theorem scheme_keeps : scheme.Keeps monitor Through where
  block := nofun
  abandon := fun φ s _ _ _ _ ↦ closes _ s φ
  abandonAnswered := fun _ s _ _ _ _ _ ↦ closes _ s _

end Xxgate.Accounts

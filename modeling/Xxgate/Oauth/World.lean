import Xxgate.Base.Run
import Xxgate.Base.Pool
import Xxgate.Oauth.Calls

/-!
# Authorizations of an installation

The flows, the workers that were started and not yet taken up, and a clock that goes forward,
shared by the handlers and the workers.
-/

namespace Xxgate.Oauth

open Xxgate.Base Xxgate.Base.FiniteMap Xxgate.Core Xxgate.Codex
open Xxgate.Accounts (Start)

/-- What the tasks share. -/
structure Installation where
  /-- `Url::parse`. -/
  parse : String → Option Url
  now : Nat
  flows : Flows
  spawned : List Worker

/-- An answer of the authorization server; the body comes parsed, if it could be. -/
structure Answer where
  status : Nat
  headers : Headers
  body : Option Json

/-- What is taken of an answer. -/
def Answer.decoded (a : Answer) : OAuthResponse := OAuthResponse.decode a.status a.headers a.body

/-- Everything a reply can depend on beside the installation. -/
structure Env where
  control : Result Answer
  codecs : Codex.Oauth.Codecs
  /-- `Utc::now`. -/
  date : Int
  wake : Wake
  saved : Result Uuid
  reply : (q : Consult) → q.Reply

/-- Changes from outside. -/
inductive Change where
  | restart
  | tick (elapsed : Nat)

namespace Installation

/-- A section that answers. -/
def section' {α : Type} (s : Installation) (result : Flows × α) : Option (Installation × α) :=
  some ({ s with flows := result.1 }, result.2)

/-- The installation and the reply after a call, or none while there is no reply. -/
def exec (s : Installation) (env : Env) : (c : Call) → Option (Installation × c.Reply)
  | .consult .instant => some (s, s.now)
  | .consult q => some (s, env.reply q)
  | .reserve id value browser tooMany =>
    s.section' (s.flows.reserve s.now id value browser tooMany)
  | .remove id => s.section' (s.flows.erase id, ())
  | .setValue id value => s.section' (s.flows.setValue id value, ())
  | .finish id value => s.section' (s.flows.finish s.now id value, ())
  | .consume id callback => s.section' (s.flows.consume s.parse s.now id callback)
  | .cancel id => s.section' (s.flows.cancel id)
  | .status id => s.section' (s.flows, s.flows.status s.now id)
  | .spawn worker => some ({ s with spawned := s.spawned ++ [worker] }, ())
  | .take =>
    match s.spawned with
    | [] => none
    | worker :: rest => some ({ s with spawned := rest }, worker)
  | .control .. => some (s, env.control.map Answer.decoded)
  | .wait .. => some (s, env.wake)
  | .tokens body => some (s, Codex.Oauth.tokens env.codecs env.date body none)
  | .saveCredentials .. => some (s, env.saved)

/-- What a process starts with. -/
def fresh (parse : String → Option Url) (now : Nat) : Installation := ⟨parse, now, ∅, []⟩

/-- A change from outside; a process that starts knows no flows. -/
def change (s : Installation) : Change → Installation
  | .restart => fresh s.parse s.now
  | .tick elapsed => { s with now := s.now + elapsed }

end Installation

/-- The tasks of an installation. -/
def kit : Kit Installation Env Job Change Unit Call Call.Reply Polling Error Unit where
  scheme := scheme
  body := fun job ↦ body job ()
  exec := fun s _ env c ↦ s.exec env c
  change := Installation.change
  ends := fun
    | .restart => true
    | .tick _ => false

/-- An installation and its tasks. -/
abbrev World : Type := Pool Installation Job Unit Call Call.Reply Polling Error Unit

/-- One move. -/
abbrev Move : Type := Pool.Move Env Job Change Error

/-- The task a move drops. -/
def Move.dropped : Move → Option Nat
  | .drive task (.abandon _) => some task
  | _ => none

namespace World

/-- One move; what does not apply changes nothing. -/
abbrev step (w : World) (m : Move) : World := Pool.step kit w m

/-- A process starts. -/
def new (parse : String → Option Url) (now : Nat) : World := ⟨.fresh parse now, ∅⟩

end World

namespace Sample

/-- The callback of the authorization with state `"s"`. -/
def url : Url where
  origin := some ("http", "localhost", 1455)
  path := "/auth/callback"
  username := ""
  password := none
  fragment := none
  queryPairs := [("state", "s"), ("code", "c")]

/-- Flow 7 gets the authorization with state `"s"`; the server refuses what it is sent. -/
def env : Env where
  control := .ok ⟨400, [], none⟩
  codecs := Codex.Oauth.Sample.codecs
  date := 0
  wake := .ready
  saved := .error .storage
  reply := fun
    | .newId => 7
    | .newAuthorization => ⟨"s", "v"⟩
    | .authorizationUrl _ => .ok REDIRECT_URI
    | .instant => 0
    | .accountKnown _ => true
    | .validateSelection _ => .ok ()
    | .deviceCode _ => none

/-- A task goes on by at most `n` calls. -/
def turns (task n : Nat) : List Move :=
  (List.replicate n [.drive task (.perform env), .drive task .proceed]).flatten

/-- What the code of the callback is exchanged with. -/
def form : List (String × String) :=
  [("grant_type", "authorization_code"), ("code", "c"), ("redirect_uri", REDIRECT_URI),
    ("client_id", "app_EMoamEEZ73f0CkXaXp7hrann"), ("code_verifier", "v")]

/-- An authorization in a browser whose callback comes twice, and a worker. -/
def twice : List Move :=
  .spawn 1 (.startBrowser ⟨"name", none, []⟩) :: .spawn 2 (.complete 7 REDIRECT_URI) ::
    .spawn 3 (.complete 7 REDIRECT_URI) :: .spawn 4 .worker ::
    turns 1 5 ++ turns 2 2 ++ turns 3 2 ++ turns 4 2

end Sample

/-! ### Monitor -/

/-- What is known of a task: the exchange it has to send, and the flow it serves. -/
structure Standing where
  carrying : Option Flows.Exchange
  serving : Option Uuid

namespace Standing

/-- A task begins with nothing. -/
def start (_ : Job) : Standing := ⟨none, none⟩

/-- What is known after a call and its reply. -/
def next (φ : Standing) : (c : Call) → c.Reply → Standing
  | .consume id _, .ok e => ⟨some e, some id⟩
  | .spawn _, _ => ⟨none, none⟩
  | .take, .exchange id e => ⟨some e, some id⟩
  | .take, .poll _ _ id => ⟨none, some id⟩
  | .control _ (.exchange ..), _ => { φ with carrying := none }
  | .finish _ _, _ => { φ with serving := none }
  | _, _ => φ

/-- The calls in order. -/
def InOrder (φ : Standing) : Call → Prop
  | .reserve _ value _ _ => φ = ⟨none, none⟩ ∧ value.status ≠ "exchanging"
  | .setValue _ value => φ = ⟨none, none⟩ ∧ value.status ≠ "exchanging"
  | .consume .. | .take => φ = ⟨none, none⟩
  | .spawn (.exchange id e) => φ = ⟨some e, some id⟩
  | .spawn (.poll ..) => φ = ⟨none, none⟩
  | .control id (.exchange e form) =>
    φ = ⟨some e, some id⟩ ∧ form = e.auth.exchangeForm e.code
  | .finish id value => φ.serving = some id ∧ value.status ≠ "exchanging"
  | _ => True

end Standing

/-- The monitor of a task. -/
def monitor : Monitor Unit Call Call.Reply Polling Standing where
  next := Standing.next
  allowed := fun φ _ c ↦ φ.InOrder c
  entry := fun φ _ p ↦ φ = ⟨none, some p.id⟩
  exit := fun φ ↦ φ.serving = none
  closing := fun _ _ _ ↦ False

/-- Nothing is asked of a task that is through. -/
def Through (_ : Except Error Unit) (_ : Unit) (_ : Standing) : Prop := True

/-- From anywhere a task that is over does nothing more. -/
theorem closes (y : Except Error Unit) (s : Unit) (φ : Standing) :
    scheme.Closes monitor Through y s φ := trivial

/-! ### The handlers and workers keep to the monitor -/

open Coroutine

/-- A part of a task that ends with nothing to serve. -/
structure Ends (m : Run Unit) (φ : Standing) : Prop where
  meets : m.Meets monitor () φ fun _ _ χ ↦ χ.serving = none

/-- Checking what a flow is started with only reads. -/
theorem checkStart_meets (message : String) (input : Start) {φ : Standing}
    {Q : Except Error Unit → Unit → Standing → Prop} (hq : ∀ y, Q y () φ) :
    (checkStart message input).Meets monitor () φ Q := by
  unfold checkStart
  split
  · exact hq _
  · split
    · simp only [meets_bind, meets_ask, meets_ok]
      exact ⟨trivial, fun r ↦ hq r⟩
    · simp only [meets_bind, meets_ask]
      refine ⟨trivial, fun known ↦ ?_⟩
      cases known with
      | true => exact hq _
      | false => exact hq _

/-- A device authorization that was answered is polled for, or given up. -/
theorem startPolling_ends (input : Start) (id : Uuid) (response : OAuthResponse) :
    Ends (startPolling input id response) ⟨none, none⟩ := by
  refine ⟨?_⟩
  unfold startPolling
  split
  · simp only [meets_bind, meets_ask, meets_fail]
    exact ⟨trivial, fun _ ↦ rfl⟩
  · simp only [meets_bind, meets_ask]
    refine ⟨trivial, fun code ↦ ?_⟩
    cases code with
    | none =>
      simp only [meets_bind, meets_ask, meets_fail]
      exact ⟨trivial, fun _ ↦ rfl⟩
    | some code =>
      simp only [meets_bind, meets_ask]
      refine ⟨⟨rfl, ?_⟩, fun _ ↦ ⟨rfl, fun _ ↦ rfl⟩⟩
      show "pending" ≠ "exchanging"
      decide

private theorem start_ends (input : Start) : Ends (start input) ⟨none, none⟩ := by
  refine ⟨?_⟩
  unfold start
  simp only [meets_bind]
  refine checkStart_meets _ input ?_
  rintro (y | u)
  · rfl
  · simp only [meets_ask, meets_ok]
    refine ⟨trivial, fun id ↦ ⟨⟨rfl, by decide⟩, ?_⟩⟩
    rintro (y | u)
    · rfl
    · refine ⟨trivial, ?_⟩
      rintro (y | response)
      · simp only [meets_bind, meets_ask, meets_fail]
        exact ⟨trivial, fun _ ↦ rfl⟩
      · exact (startPolling_ends input id response).meets

private theorem startBrowser_ends (input : Start) : Ends (startBrowser input) ⟨none, none⟩ := by
  refine ⟨?_⟩
  unfold startBrowser
  simp only [meets_bind]
  refine checkStart_meets _ input ?_
  rintro (y | u)
  · rfl
  · simp only [meets_ask, meets_ok]
    refine ⟨trivial, fun auth ↦ ⟨trivial, fun id ↦ ⟨trivial, ?_⟩⟩⟩
    rintro (y | url)
    · rfl
    · refine ⟨⟨rfl, ?_⟩, ?_⟩
      · show "pending" ≠ "exchanging"
        decide
      · rintro (y | u)
        · rfl
        · rfl

private theorem complete_ends (id : Uuid) (callback : String) :
    Ends (complete id callback) ⟨none, none⟩ := by
  refine ⟨?_⟩
  unfold complete
  simp only [meets_bind, meets_ask, meets_ok]
  refine ⟨rfl, ?_⟩
  rintro (y | e)
  · rfl
  · exact ⟨rfl, fun _ ↦ rfl⟩

/-- A worker that shows what came of its flow is through with it. -/
theorem finish_ends (id : Uuid) (result : Except Error Uuid) {φ : Standing}
    (h : φ.serving = some id) : Ends (finish id result) φ := by
  refine ⟨?_⟩
  unfold finish
  rw [meets_ask]
  refine ⟨⟨h, ?_⟩, fun _ ↦ rfl⟩
  rcases result with y | account
  · show "failed" ≠ "exchanging"
    decide
  · show "completed" ≠ "exchanging"
    decide

/-- Saving credentials changes nothing of what is known. -/
theorem saveTokens_meets (input : Start) (response : OAuthResponse) {φ : Standing}
    {Q : Except Error Uuid → Unit → Standing → Prop} (hq : ∀ y, Q y () φ) :
    (saveTokens input response).Meets monitor () φ Q := by
  unfold saveTokens
  split
  · exact hq _
  · simp only [meets_bind, meets_ask, meets_ok]
    refine ⟨trivial, ?_⟩
    rintro (y | credentials)
    · exact hq _
    · exact ⟨trivial, fun r ↦ hq r⟩

/-- A round of the loop changes nothing of what is known. -/
theorem pollOnce_meets (p : Polling) {Q : Except Error (Option Uuid) → Unit → Standing → Prop}
    (hq : ∀ y, Q y () ⟨none, some p.id⟩) :
    (pollOnce p).Meets monitor () ⟨none, some p.id⟩ Q := by
  unfold pollOnce
  simp only [meets_bind, meets_ask]
  refine ⟨trivial, fun wake ↦ ?_⟩
  cases wake with
  | cancelled => exact hq _
  | expired => exact hq _
  | ready =>
    simp only [meets_bind, meets_ask, meets_ok]
    refine ⟨trivial, ?_⟩
    rintro (y | response)
    · exact hq _
    · dsimp only
      split
      · simp only [meets_bind, meets_ask, meets_ok]
        cases Codex.Oauth.exchangeDevice response.body with
        | error y => exact hq _
        | ok form =>
          refine ⟨trivial, ?_⟩
          rintro (y | tokens)
          · exact hq _
          · refine saveTokens_meets _ _ ?_
            rintro (y | account)
            · exact hq _
            · exact hq _
      · split
        · exact hq _
        · exact hq _

private theorem poll_ends (p : Polling) : Ends (poll p) ⟨none, some p.id⟩ := by
  refine ⟨?_⟩
  unfold poll
  simp only [meets_bind, meets_outcome]
  refine pollOnce_meets p ?_
  rintro (y | ⟨_ | account⟩)
  · exact (finish_ends p.id (.error y) rfl).meets
  · exact rfl
  · exact (finish_ends p.id (.ok account) rfl).meets

/-- An exchange uses up what is carried. -/
theorem exchange_meets (id : Uuid) (e : Flows.Exchange)
    {Q : Except Error Uuid → Unit → Standing → Prop} (hq : ∀ y, Q y () ⟨none, some id⟩) :
    (exchange id e).Meets monitor () ⟨some e, some id⟩ Q := by
  unfold exchange
  simp only [meets_bind, meets_ask, meets_ok]
  refine ⟨⟨rfl, rfl⟩, ?_⟩
  rintro (y | response)
  · exact hq _
  · exact saveTokens_meets _ _ hq

private theorem work_ends : Ends work ⟨none, none⟩ := by
  refine ⟨?_⟩
  unfold work
  simp only [meets_bind, meets_ask]
  refine ⟨rfl, fun worker ↦ ?_⟩
  cases worker with
  | exchange id e =>
    simp only [meets_bind, meets_outcome]
    exact exchange_meets id e fun result ↦ (finish_ends id result rfl).meets
  | poll input code id =>
    simp only [meets_bind, meets_ask, meets_jump]
    exact ⟨trivial, fun now ↦ rfl⟩

/-- Every task keeps to the monitor. -/
theorem body_ends (job : Job) : Ends (body job) ⟨none, none⟩ := by
  cases job with
  | start input => exact start_ends input
  | startBrowser input => exact startBrowser_ends input
  | complete id callback => exact complete_ends id callback
  | cancel id =>
    refine ⟨?_⟩
    unfold body
    simp only [meets_bind, meets_ask, meets_ok]
    exact ⟨trivial, fun _ ↦ rfl⟩
  | status id =>
    refine ⟨?_⟩
    unfold body
    simp only [meets_bind, meets_ask, meets_ok]
    refine ⟨trivial, ?_⟩
    rintro (y | value)
    · rfl
    · rfl
  | worker => exact work_ends

/-- The scheme keeps to the monitor. -/
theorem scheme_keeps : scheme.Keeps monitor Through where
  block := by
    rintro p s φ rfl
    exact (poll_ends p).meets.mono fun y s χ h ↦ ⟨h, closes y s χ⟩
  abandon := fun φ s _ _ _ _ ↦ closes _ s φ
  abandonAnswered := fun _ s _ _ _ _ _ ↦ closes _ s _

/-- Every task keeps to the monitor from its start. -/
theorem disciplined : kit.Disciplined monitor Through Standing.start where
  keeps := scheme_keeps
  starts := fun job ↦ Prog.Meets.mono (body_ends job).meets fun a φ h ↦ ⟨h, closes a.1 a.2 φ⟩

/-- A process that starts has no tasks. -/
theorem World.kept_new (parse : String → Option Url) (now : Nat) :
    Pool.Kept kit monitor Through Standing.start (World.new parse now) := by
  intro id job t h
  cases h

end Xxgate.Oauth

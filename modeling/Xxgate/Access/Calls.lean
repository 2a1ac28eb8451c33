import Xxgate.Base.Locks
import Xxgate.Store.Access
import Xxgate.Store.Settings

/-!
# Administration of keys, groups and settings

The handlers of `crates/xxgate-server/src/http/admin.rs` and `groups.rs` that change the
gateway keys, the routing groups, the settings, the models and the search price. They run as
tasks that may be dropped at an await; here are their calls with the replies they get, and
what each of them does.
-/

namespace Xxgate.Access

open Xxgate.Base Xxgate.Base.Coroutine Xxgate.Core Xxgate.Store

/-- The mutex the handlers take. -/
inductive Lock where
  | mutations
  deriving DecidableEq

/-- Calls whose replies are free. -/
inductive Consult where
  /-- `Uuid::new_v4`. -/
  | newId
  /-- `secret_hash` of a secret that `random_secret` drew. -/
  | newSecret

/-- The type of the reply. -/
@[reducible] def Consult.Reply : Consult → Type
  | .newId => Uuid
  | .newSecret => String

/-- The calls of a task. -/
inductive Call where
  | consult (q : Consult)
  -- the lock
  | lock (l : Lock)
  | unlock (l : Lock)
  | releaseAll
  -- the scheduler and the settings in force
  | blockKey (id : Uuid)
  | updateKey (key : GatewayKey)
  | removeKey (id : Uuid)
  | setPaused
  | publish (settings : Settings)
  -- the store
  | groups
  | createGroup (id : Uuid) (name : String)
  | renameGroup (id : Uuid) (name : String)
  | deleteGroup (id : Uuid)
  | keys
  | putKey (key : GatewayKey) (name hash : String)
  | setKeyEnabled (id : Uuid) (enabled : Bool)
  | updateStoredKey (id : Uuid) (name : String) (groupId : Uuid)
  | deleteKey (id : Uuid)
  | settings
  | saveSettings (settings : Settings) (expectedVersion : Int)
  | putModel (model : ModelSpec) (version : Int)
  | putSearchPrice (price : SearchPrice)

/-- The type of the reply. -/
@[reducible] def Call.Reply : Call → Type
  | .consult q => q.Reply
  | .lock _ | .unlock _ | .releaseAll => Unit
  | .blockKey _ | .updateKey _ | .removeKey _ | .setPaused | .publish _ => Unit
  | .groups => Result (List Uuid)
  | .createGroup .. | .renameGroup .. | .deleteGroup _ => Result Unit
  | .keys => Result (List GatewayKey)
  | .putKey .. => Result Unit
  | .setKeyEnabled .. | .updateStoredKey .. => Result GatewayKey
  | .deleteKey _ => Result Unit
  | .settings | .saveSettings .. => Result Settings
  | .putModel .. => Result (Versioned ModelSpec)
  | .putSearchPrice _ => Result SearchPrice

/-- Calls answered elsewhere, so that the reply can be lost with the task. -/
def Call.isRemote : Call → Bool
  | .consult _ | .lock _ | .unlock _ | .releaseAll | .blockKey _ | .updateKey _ | .removeKey _
  | .setPaused | .publish _ => false
  | _ => true

/-- Calls the task waits for. -/
def Call.isAwait : Call → Bool
  | .lock _ => true
  | c => c.isRemote

/-- A part of a task. -/
abbrev Run (α : Type) : Type := Coroutine Unit Call Call.Reply Empty Error α

/-- Make a call. -/
abbrev call (c : Call) : Run c.Reply := Coroutine.ask c

/-- Make a call whose reply is free. -/
abbrev consult (q : Consult) : Run q.Reply := Coroutine.ask (Call.consult q)

/-! ### Handlers -/

/-- Do something holding the lock. -/
def locked {α : Type} (body : Run α) : Run α := do
  call (.lock .mutations)
  let result ← outcome body
  call (.unlock .mutations)
  ok result

/-- `groups.rs:14`. -/
def validateSelection (ids : List Uuid) : Run Unit := do
  let groups ← ok (← call .groups)
  if 64 < ids.length ∨ ¬ ids.Nodup then
    fail (.invalid "Choose at most 64 distinct account groups")
  else if ids.any (· ∉ groups) then
    fail ⟨400, "group_not_found", "One or more selected groups do not exist"⟩
  else pure ()

/-- `for key in keys { scheduler.update_key(key) }`. -/
def updateKeys : List GatewayKey → Run Unit
  | [] => pure ()
  | key :: rest => do
    call (.updateKey key)
    updateKeys rest

/-- `admin.rs:445`. -/
def reconcileKeys : Run Unit := do
  match ← call .keys with
  | .ok keys => updateKeys keys
  | .error _ => call .setPaused

/-- `admin.rs:405` and `admin.rs:434`: publish the key as it was written, or take all of them
back from the store. -/
def publishOrReconcile : Result GatewayKey → Run Unit
  | .ok key => call (.updateKey key)
  | .error error => do
    reconcileKeys
    fail error

/-- The names `admin.rs:377` and `admin.rs:423` accept. -/
@[irreducible] def checkName (name : String) : Result Unit :=
  if (trim name).isEmpty || 128 < name.utf8ByteSize then
    .error (.invalid "Key name must contain 1 to 128 bytes")
  else .ok ()

/-- `admin.rs:373`. -/
def createKey (name : String) (groupId : Uuid) : Run Unit := do
  ok (checkName name)
  let hash ← consult .newSecret
  let id ← consult .newId
  let key := ⟨id, groupId, true⟩
  locked do
    validateSelection [groupId]
    ok (← call (.putKey key name hash))
    call (.updateKey key)

/-- `admin.rs:396`. -/
def enableKey (id : Uuid) (enabled : Bool) : Run Unit :=
  locked do
    call (.blockKey id)
    publishOrReconcile (← call (.setKeyEnabled id enabled))

/-- `admin.rs:418`. -/
def updateKey (id : Uuid) (name : String) (groupId : Uuid) : Run Unit := do
  ok (checkName name)
  locked do
    validateSelection [groupId]
    call (.blockKey id)
    publishOrReconcile (← call (.updateStoredKey id name groupId))

/-- `admin.rs:80`. -/
def deleteKey (id : Uuid) : Run Unit :=
  locked do
    call (.blockKey id)
    match ← call (.deleteKey id) with
    | .ok () => call (.removeKey id)
    | .error error =>
      reconcileKeys
      fail error

/-- `admin.rs:464`. A commit can succeed even if its acknowledgement was lost. -/
def saveSettings (input : Settings) : Run Unit := do
  ok input.validate
  locked do
    match ← call (.saveSettings input input.version) with
    | .ok next => call (.publish next)
    | .error error =>
      match ← call .settings with
      | .ok persisted => call (.publish persisted)
      | .error _ => call .setPaused
      fail error

/-- `admin.rs:493`, and `catalog.rs:68` of the core for a model that is not configured. -/
def saveModel (model : ModelSpec) (version : Int) : Run Unit :=
  locked do
    let _ ← ok (← call (.putModel model version))

/-- `admin.rs:360`, which takes no lock. -/
def saveSearchPrice (price : SearchPrice) : Run Unit := do
  let _ ← ok (← call (.putSearchPrice price))

/-- `groups.rs:46`; the id is drawn by the store. -/
def createGroup (name : String) : Run Unit :=
  locked do
    let id ← consult .newId
    ok (← call (.createGroup id name))

/-- `groups.rs:50`. -/
def renameGroup (id : Uuid) (name : String) : Run Unit :=
  locked do
    ok (← call (.renameGroup id name))

/-- `groups.rs:58`. -/
def deleteGroup (id : Uuid) : Run Unit :=
  locked do
    ok (← call (.deleteGroup id))

/-! ### Tasks -/

/-- What tasks are started for. -/
inductive Job where
  | createKey (name : String) (groupId : Uuid)
  | enableKey (id : Uuid) (enabled : Bool)
  | updateKey (id : Uuid) (name : String) (groupId : Uuid)
  | deleteKey (id : Uuid)
  | saveSettings (input : Settings)
  | saveModel (model : ModelSpec) (version : Int)
  | saveSearchPrice (price : SearchPrice)
  | createGroup (name : String)
  | renameGroup (id : Uuid) (name : String)
  | deleteGroup (id : Uuid)

/-- What a task runs. -/
def body : Job → Run Unit
  | .createKey name groupId => createKey name groupId
  | .enableKey id enabled => enableKey id enabled
  | .updateKey id name groupId => updateKey id name groupId
  | .deleteKey id => deleteKey id
  | .saveSettings input => saveSettings input
  | .saveModel model version => saveModel model version
  | .saveSearchPrice price => saveSearchPrice price
  | .createGroup name => createGroup name
  | .renameGroup id name => renameGroup id name
  | .deleteGroup id => deleteGroup id

/-- A task is one body, and gives its lock back when it ends or is dropped. -/
def scheme : Scheme Unit Call Call.Reply Empty Error Unit where
  block := nofun
  close := fun _ ↦ Coroutine.ask Call.releaseAll
  isAwait := Call.isAwait
  isRemote := Call.isRemote

end Xxgate.Access

import Xxgate.Access.Calls
import Xxgate.Base.Run
import Xxgate.Scheduling.State

/-!
# The administration of an installation

The scheduler's keys, the settings in force and the tables behind them, shared by the tasks
that change them. A task may be dropped at an await, a store call may fail, take effect, or
take effect and fail to answer, and the process may restart at any moment, which ends every
task and builds the scheduler and the settings anew from the store.
-/

namespace Xxgate.Access

open Xxgate.Base Xxgate.Core Xxgate.Scheduling Xxgate.Store

/-- What the tasks share. The accounts and bindings of the scheduler are not part of it. -/
structure Installation where
  sched : State
  /-- The settings in force. -/
  live : Settings
  access : AccessTables
  config : ConfigTables
  locks : FiniteMap Lock Nat

/-- Everything a reply can depend on beside the installation. -/
structure Env where
  outcome : Outcome
  /-- The values of the serial column that failed transactions drew before. -/
  skipped : Nat
  reply : (q : Consult) → q.Reply

/-- Changes from outside. -/
inductive Change where
  | restart
  /-- `set_paused(true)` by other parts of the gateway. -/
  | pause
  /-- An account is put in groups. -/
  | accountGroups (accountId : Uuid) (ids : List Uuid)
  /-- An account is deleted. -/
  | accountDeleted (accountId : Uuid)

namespace Installation

/-- What locking calls do. -/
def lockOp : Call → Option (LockOp Lock)
  | .lock l => some (.acquire l)
  | .unlock l => some (.release l)
  | .releaseAll => some .releaseAll
  | _ => none

/-- A call on the lock. -/
def locking (s : Installation) (task : Nat) (op : LockOp Lock) : Option (Installation × Unit) :=
  (op.apply s.locks task).map fun locks ↦ ({ s with locks := locks }, ())

/-- A call on the scheduler. -/
def scheduled (s : Installation) (f : State → State) : Option (Installation × Unit) :=
  some ({ s with sched := f s.sched }, ())

/-- A transaction on the keys and groups. -/
def administered {α : Type} (s : Installation) (outcome : Outcome)
    (transaction : Result (AccessTables × α)) : Option (Installation × Result α) :=
  let (access, answer) := conclude outcome s.access transaction
  some ({ s with access := access }, answer)

/-- A transaction on the configuration. -/
def configured {α : Type} (s : Installation) (outcome : Outcome)
    (transaction : Result (ConfigTables × α)) : Option (Installation × Result α) :=
  let (config, answer) := conclude outcome s.config transaction
  some ({ s with config := config }, answer)

/-- The store is read. -/
def queried {α : Type} (s : Installation) (outcome : Outcome) (value : α) :
    Option (Installation × Result α) :=
  some (s, match outcome with
    | .answered => .ok value
    | _ => .error .storage)

/-- The installation and the reply after a call, or none while there is no reply. -/
def exec (s : Installation) (task : Nat) (env : Env) :
    (c : Call) → Option (Installation × c.Reply)
  | .consult q => some (s, env.reply q)
  | .lock l => s.locking task (.acquire l)
  | .unlock l => s.locking task (.release l)
  | .releaseAll => s.locking task .releaseAll
  | .blockKey id => s.scheduled (·.blockKey id)
  | .updateKey key => s.scheduled (·.updateKey key)
  | .removeKey id => s.scheduled (·.removeKey id)
  | .setPaused => s.scheduled (·.setPaused true)
  | .publish settings => some ({ s with live := settings }, ())
  | .groups => s.queried env.outcome s.access.groups.keys
  | .createGroup id name => s.administered env.outcome (s.access.createGroup id name)
  | .renameGroup id name => s.administered env.outcome (s.access.renameGroup id name)
  | .deleteGroup id => s.administered env.outcome (s.access.deleteGroup id)
  | .keys => s.queried env.outcome s.access.listed
  | .putKey key name hash => s.administered env.outcome (s.access.putKey key name hash)
  | .setKeyEnabled id enabled => s.administered env.outcome (s.access.setKeyEnabled id enabled)
  | .updateStoredKey id name groupId =>
    s.administered env.outcome (s.access.updateKey id name groupId)
  | .deleteKey id => s.administered env.outcome (s.access.deleteKey id)
  | .settings => s.configured env.outcome (.ok s.config.readSettings)
  | .saveSettings settings expected =>
    s.configured env.outcome (s.config.saveSettings settings expected)
  | .putModel model version => s.configured env.outcome (s.config.putModel model version)
  | .putSearchPrice price =>
    s.configured env.outcome (s.config.putSearchPrice price env.skipped)

/-- `gateway.rs:91–98`: the installation a process starts with. -/
def started (access : AccessTables) (config : ConfigTables) : Installation :=
  let (config, settings) := config.readSettings
  ⟨State.new [] [] access.listed, settings, access, config, ∅⟩

/-- The groups of an account are written, if they can be. -/
def regrouped (s : Installation) (accountId : Uuid) (ids : List Uuid) : Installation :=
  match s.access.putAccountGroups accountId ids with
  | .ok (access, _) => { s with access := access }
  | .error _ => s

/-- A change from outside. -/
def change (s : Installation) : Change → Installation
  | .restart => started s.access s.config
  | .pause => { s with sched := s.sched.setPaused true }
  | .accountGroups accountId ids => s.regrouped accountId ids
  | .accountDeleted accountId => { s with access := s.access.deleteAccountGroups accountId }

end Installation

/-- The tasks of an installation. -/
def kit : Kit Installation Env Job Change Unit Call Call.Reply Empty Error Unit where
  scheme := scheme
  body := fun job ↦ body job ()
  exec := Installation.exec
  change := Installation.change
  ends := fun
    | .restart => true
    | _ => false

/-- An installation and its tasks. -/
abbrev World : Type := Pool Installation Job Unit Call Call.Reply Empty Error Unit

/-- One move. -/
abbrev Move : Type := Pool.Move Env Job Change Error

namespace Move

/-- The task that performs a call, with its surroundings. -/
def surroundings : Move → Option (Nat × Env)
  | .drive task (.perform env) => some (task, env)
  | _ => none

/-- The task a move drops. -/
def dropped : Move → Option Nat
  | .drive task (.abandon _) => some task
  | _ => none

end Move

namespace World

/-- One move; what does not apply changes nothing. -/
abbrev step (w : World) (m : Move) : World := Pool.step kit w m

/-- A process starts on a database. -/
def new (access : AccessTables) (config : ConfigTables) : World :=
  ⟨.started access config, ∅⟩

end World

/-! ### Sample data -/

namespace Sample

/-- The surroundings of a store call with this outcome, in which key 7 is drawn. -/
def env (outcome : Outcome) : Env where
  outcome := outcome
  skipped := 0
  reply
    | .newId => 7
    | .newSecret => "secret"

/-- A task goes on by at most `n` calls. -/
def turns (task : Nat) (outcome : Outcome) (n : Nat) : List Move :=
  (List.replicate n [.drive task (.perform (env outcome)), .drive task .proceed]).flatten

/-- Key 7 is created in the default group. -/
def created : List Move :=
  .spawn 1 (.createKey "seven" DEFAULT_GROUP_ID) :: turns 1 .answered 9

/-- Key 7 is created and deleted, and another task waits to enable it. -/
def deleted : List Move :=
  created ++ .spawn 2 (.deleteKey 7) :: .spawn 3 (.enableKey 7 true) :: turns 2 .answered 9

/-- Key 7 is created and disabled, and the answer of the store is lost. -/
def disabled : List Move :=
  created ++ .spawn 2 (.enableKey 7 false) :: turns 2 .answered 2 ++ turns 2 .lost 1 ++
    turns 2 .answered 9

/-- The default settings are saved, and saved again from the version they had. -/
def saved : List Move :=
  .spawn 1 (.saveSettings .default) :: .spawn 2 (.saveSettings .default) ::
    turns 1 .answered 9 ++ turns 2 .answered 9

/-- The settings are saved, the answer is lost, and they are read back. -/
def doubted : List Move :=
  .spawn 1 (.saveSettings .default) :: turns 1 .answered 1 ++ turns 1 .lost 1 ++
    turns 1 .answered 9

end Sample
end Xxgate.Access

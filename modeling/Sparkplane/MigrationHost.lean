import Sparkplane.Migration

/-!
# The host of a migration

`migration/host.rs` and `migration/fence.rs`, and from `dispatch` in `migration/cli.rs` the branches of
`--yes`, from where it opens the journal, and of `--recover`. The fence, its guards and the permit are
modelled by their files and commands; what the other steps do to services, containers and data is a call
each.
-/

namespace Sparkplane.Migration

/-! ## Guards -/

/-- `UNITS`. -/
inductive UnitName where
  | syAgent
  | syExecutor
  | agent
  | executor
  deriving DecidableEq

def units : List UnitName := [.syAgent, .syExecutor, .agent, .executor]

/-- `unit.ends_with("-agent")`. -/
def UnitName.isAgent : UnitName → Bool
  | .syAgent | .agent => true
  | .syExecutor | .executor => false

inductive GuardFile where
  /-- `90-sparkplane-migration.conf` -/
  | condition (unit : UnitName)
  /-- `91-sparkplane-migration-startup.conf` -/
  | startup (unit : UnitName)
  deriving DecidableEq

def GuardFile.unit : GuardFile → UnitName
  | .condition unit | .startup unit => unit

def GuardFile.expected : GuardFile → String
  | .condition _ => "[Unit]\nConditionPathExists=/run/sparkplane-migration-permit\n"
  | .startup _ => "[Service]\nTimeoutStartSec=1900s\n"

def guards : List GuardFile :=
  units.flatMap fun unit => .condition unit :: if unit.isAgent then [.startup unit] else []

/-! ## Effects -/

/-- Those of `commands::Action` that change or start something; `ListTables` and `Connections` are effects of
their own. -/
inductive HostAction where
  | fence
  | sealTraffic
  | unfence
  | reloadUnits
  | stopOld
  | startOld
  | stopNew
  | startNew
  | enableNew
  | disableOld
  | confineAgent
  | confineExecutor
  deriving DecidableEq

/-- What the migration does besides; each may fail. -/
inductive PlatformCall where
  | privateBase
  | lockBase
  | privateWork
  | applyApproval
  | writeReceipt
  | retireWork
  | syncBase
  | writeOpened
  | healthy (legacy : Bool)
  | qualify (legacy : Bool)
  | writeBaseline
  | writeEvidence
  | compareEvidence
  | verifySources
  | verifyConfigurations
  | createSnapshot
  | prepareStorage
  | writeStorage
  | syncWork
  | stopEngines
  | restoreEngines
  | activateStorage
  | restoreStorage
  | renameIdentity (restore : Bool)
  | activatePublication
  | restorePublication
  | fallback
  | removeLegacy
  | removeCurrent
  deriving DecidableEq

inductive HostPath where
  | guard (g : GuardFile)
  /-- `run/sparkplane-migration-permit` -/
  | permit
  deriving DecidableEq

inductive Found where
  | absent
  | file (text : String)
  | link (dangling : Bool)
  | other
  deriving DecidableEq

/-- `Plan`, as far as the journal and the fence use it. -/
structure Plan where
  schema : String
  host : String
  release : String
  executable : String

inductive HostOp where
  | action (a : HostAction)
  /-- `ListTables`: the lines, trimmed. -/
  | listTables
  | connections
  | beforeDeadline
  | readRecord
  | selfDigest
  | hostIdentity
  /-- `recovery_approval`: whether there is one; it is verified. -/
  | approval
  | call (c : PlatformCall)
  /-- The drop-in directory of the unit is a link. -/
  | linkedDir (unit : UnitName)
  | createDir (unit : UnitName)
  | look (path : HostPath)
  | stageFile
  /-- The staged file gets its name, which must be free. -/
  | place (path : HostPath) (text : String)
  | syncParent
  | unlink (path : HostPath)

def HostOp.Reply : HostOp → Type
  | .listTables => Except MigrationError (List String)
  | .connections | .selfDigest | .hostIdentity => Except MigrationError String
  | .readRecord => Except MigrationError Plan
  | .approval => Except MigrationError Bool
  | .beforeDeadline | .linkedDir _ => Bool
  | .look _ => Except MigrationError Found
  | .action _ | .call _ | .createDir _ | .stageFile | .place _ _ | .syncParent | .unlink _ => Except MigrationError Unit

abbrev Host (α : Type) := Mig HostOp HostOp.Reply α

def action (a : HostAction) : Host Unit := do orThrow (← performHost (HostOp.action a))

def actionIf (b : Bool) (a : HostAction) : Host Unit := if b then action a else pure ()

def call (c : PlatformCall) : Host Unit := do orThrow (← performHost (HostOp.call c))

def look (path : HostPath) : Host Found := do orThrow (← performHost (HostOp.look path))

def syncParent : Host Unit := do orThrow (← performHost HostOp.syncParent)

def unlink (path : HostPath) : Host Unit := do orThrow (← performHost (HostOp.unlink path))

def linkedDir (unit : UnitName) : Host Bool := performHost (HostOp.linkedDir unit)

def createDir (unit : UnitName) : Host Unit := do orThrow (← performHost (HostOp.createDir unit))

def writePrivate (path : HostPath) (text : String) : Host Unit := do
  orThrow (← performHost HostOp.stageFile)
  orThrow (← performHost (HostOp.place path text))
  syncParent

/-! ## The fence -/

def check (g : GuardFile) : Host Bool := do
  ensure (!(← linkedDir g.unit)) "unit drop-in directory must not be a symlink"
  match ← look (.guard g) with
  | .absent => return false
  | .link _ => throw (.ensure "migration guard must not be a symlink")
  | .file text =>
    ensure (text = g.expected) "migration guard conflicts with an existing file"
    return true
  | .other => throw (.ensure "migration guard conflicts with an existing file")

def checkAll : List GuardFile → Host Unit
  | [] => pure ()
  | g :: gs => do
    let _ ← check g
    checkAll gs

def placeUnless (present : Bool) (g : GuardFile) : Host Unit :=
  if present then pure () else writePrivate (.guard g) g.expected

def installGuard (g : GuardFile) : Host Unit := do
  ensure (!(← linkedDir g.unit)) "unit drop-in directory must not be a symlink"
  createDir g.unit
  let present ← check g
  placeUnless present g
  syncParent
  syncParent

def installEach : List GuardFile → Host Unit
  | [] => pure ()
  | g :: gs => do
    installGuard g
    installEach gs

def installGuards : Host Unit := do
  checkAll guards
  installEach guards

def removeGuard (g : GuardFile) : Host Unit := do
  let present ← check g
  if present then do
    unlink (.guard g)
    syncParent
  else pure ()

def removeEach : List GuardFile → Host Unit
  | [] => pure ()
  | g :: gs => do
    removeGuard g
    removeEach gs

def removeGuards : Host Unit := do
  checkAll guards
  removeEach guards

def fenceTable : String := "table inet sparkplane_migration"

def fencePresent : Host Bool := do
  let tables ← orThrow (← performHost HostOp.listTables)
  return tables.any (· = fenceTable)

def permit (plan : Plan) : Host Unit := do
  match ← look .permit with
  -- a link that leads nowhere does not exist, but its name is not free
  | .absent | .link true => writePrivate .permit plan.release
  | .file text =>
    ensure (text.utf8ByteSize ≤ 128) "migration input exceeds size limit"
    ensure (text = plan.release) "migration permit identity changed"
  | .link false => throw .system
  | .other => throw (.ensure "migration input must be a regular file")

def restoreFence (plan : Plan) : Host Unit := do
  installGuards
  action .reloadUnits
  let present ← fencePresent
  actionIf (!present) .fence
  action .sealTraffic
  permit plan

def releaseFence : Host Unit := do
  let present ← fencePresent
  actionIf present .unfence
  removeGuards
  action .reloadUnits
  match ← look .permit with
  | .absent | .link true => pure ()
  | _ => do
    unlink .permit
    syncParent

/-! ## The steps -/

/-- The loop of `Drain`: 300 seconds hold at most 601 turns of 500 milliseconds. -/
def drain : Nat → Host Unit
  | 0 => throw (.ensure "active client connections did not drain")
  | n + 1 => do
    let established ← orThrow (← performHost HostOp.connections)
    if established.isEmpty then pure () else do
      ensure (← performHost HostOp.beforeDeadline) "active client connections did not drain"
      drain n

def apply (plan : Plan) : Step → Host Unit
  | .fenceTraffic => do
    let present ← fencePresent
    ensure (!present) "traffic fence already exists"
    installGuards
    action .reloadUnits
    action .fence
    permit plan
  | .drain => do
    drain 601
    action .sealTraffic
    call (.healthy true)
    call (.qualify true)
    call .writeBaseline
  | .stopLegacyServices => do
    call .verifySources
    call .verifyConfigurations
    action .stopOld
  | .snapshot => do
    call .verifySources
    call .createSnapshot
    call .prepareStorage
    call .writeStorage
    call .syncWork
  | .stopLegacyEngine => call .stopEngines
  | .relocate => do
    call .activateStorage
    call (.renameIdentity false)
    call .activatePublication
  | .activate => do
    call .fallback
    action .confineAgent
    action .confineExecutor
    action .reloadUnits
    action .startNew
  | .qualify => do
    call (.healthy false)
    call (.qualify false)
    call .writeEvidence
    call .compareEvidence
    call .removeLegacy
    call (.healthy false)

def undo : Step → Host Unit
  | .qualify | .snapshot | .drain => pure ()
  | .activate => do
    action .stopNew
    call .removeCurrent
  | .relocate => do
    call .restorePublication
    call (.renameIdentity true)
    call .restoreStorage
    action .reloadUnits
  | .stopLegacyEngine => call .restoreEngines
  | .stopLegacyServices => do
    action .startOld
    call (.healthy true)
  | .fenceTraffic => do
    call (.healthy true)
    releaseFence

def openTraffic : Host Unit := do
  action .disableOld
  action .enableNew
  call (.healthy false)
  releaseFence

def appliance (plan : Plan) : Actions HostOp HostOp.Reply := ⟨apply plan, undo, openTraffic⟩

/-! ## `dispatch` -/

def Journal.restoredCheckpoint : Host Bool := do
  let j ← get
  return !j.poisoned && !j.state.committed && j.state.rollingBack && j.state.pending.isNone && j.state.completed.length ≤ 3

/-- `--yes`, from where it opens the journal. -/
def dispatchYes (plan : Plan) : Host Unit := do
  Journal.openAt plan.host plan.release
  runMigration (appliance plan)
  call .writeOpened

/-- The checks of `--recover` on the stored transaction. -/
def storedPlan : Host (Plan × Bool) := do
  call .privateBase
  call .lockBase
  call .privateWork
  let plan ← orThrow (← performHost HostOp.readRecord)
  let executable ← orThrow (← performHost HostOp.selfDigest)
  ensure (plan.schema = "sparkplane.appliance-migration/v1") "recovery requires the original approved host and schema"
  let host ← orThrow (← performHost HostOp.hostIdentity)
  ensure (plan.host = host) "recovery requires the original approved host and schema"
  let approved ← orThrow (← performHost HostOp.approval)
  ensure (approved || plan.executable = executable) "recovery requires the original executable or signed handoff"
  return (plan, approved)

def handOff (approved : Bool) : Host Unit :=
  if approved then do
    ensure (← Journal.restoredCheckpoint) "recovery handoff requires restored pre-commit state"
    call .applyApproval
    call .writeReceipt
  else pure ()

def dispatchRecover : Host Unit := do
  let (plan, approved) ← storedPlan
  Journal.openAt plan.host plan.release
  handOff approved
  ensure (!(← Journal.committed)) "migration committed; use --resume, never restore pre-commit state"
  restoreFence plan
  recoverMigration (appliance plan)
  call .retireWork
  call .syncBase

end Sparkplane.Migration

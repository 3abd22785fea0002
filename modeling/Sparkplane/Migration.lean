import Sparkplane.Wire
import Sparkplane.Crash

/-!
# The migration journal

`migration/journal.rs` and `migration/runner.rs`: the record of an appliance migration, which is saved
before and after each step, and the two procedures that follow it. A save writes a staged file, renames
it over the journal and syncs the directory; the journal file is kept as the state it holds. What the
procedures do to the host is left to `Actions`.
-/

namespace Sparkplane.Migration

inductive Step where
  | fenceTraffic
  | drain
  | stopLegacyServices
  | snapshot
  | stopLegacyEngine
  | relocate
  | activate
  | qualify
  deriving DecidableEq

def steps : List Step :=
  [.fenceTraffic, .drain, .stopLegacyServices, .snapshot, .stopLegacyEngine, .relocate, .activate, .qualify]

def Step.debug : Step → String
  | .fenceTraffic => "FenceTraffic"
  | .drain => "Drain"
  | .stopLegacyServices => "StopLegacyServices"
  | .snapshot => "Snapshot"
  | .stopLegacyEngine => "StopLegacyEngine"
  | .relocate => "Relocate"
  | .activate => "Activate"
  | .qualify => "Qualify"

structure State where
  schema : String
  host : String
  release : String
  completed : List Step
  pending : Option Step
  committed : Bool
  rollingBack : Bool
  deriving DecidableEq

/-- The handle; one that is not open, or whose last save failed, is poisoned. -/
structure Journal where
  state : State
  poisoned : Bool

inductive MigrationError where
  | ensure (message : String)
  /-- An error of the system or of a decoder. -/
  | system
  | context (message : String) (cause : MigrationError)
  deriving DecidableEq

/-! ## Effects -/

/-- What the procedures do, with the effects `η` on the host. -/
inductive JournalOp (η : Type) where
  /-- The checks on the directory: it is absolute, owned and not shared-writable. -/
  | directory
  | lock
  | load
  | stage (state : State)
  | rename (state : State)
  | syncDir
  | host (h : η)

def JournalOp.Reply {η : Type} (ρ : η → Type) : JournalOp η → Type
  | .directory => Except MigrationError Bool
  | .load => Except MigrationError (Option State)
  | .host h => ρ h
  | _ => Bool

section
variable {η : Type} {ρ : η → Type}

abbrev Mig (η : Type) (ρ : η → Type) (α : Type) := Proc (JournalOp η) (JournalOp.Reply ρ) Journal MigrationError α

def ensure (b : Bool) (message : String) : Mig η ρ Unit := if b then pure () else throw (.ensure message)

def performHost (h : η) : Mig η ρ (ρ h) := Proc.perform (JournalOp.host h)

/-- An effect on the directory that has to succeed. -/
def must (b : Mig η ρ Bool) : Mig η ρ Unit := do
  if ← b then pure () else throw .system

def orThrow {α : Type} (r : Except MigrationError α) : Mig η ρ α :=
  match r with
  | .ok a => pure a
  | .error e => throw e

def directory : Mig η ρ (Except MigrationError Bool) := Proc.perform JournalOp.directory

def lock : Mig η ρ Bool := Proc.perform JournalOp.lock

def load : Mig η ρ (Except MigrationError (Option State)) := Proc.perform JournalOp.load

def stage (state : State) : Mig η ρ Bool := Proc.perform (JournalOp.stage state)

def renameStage (state : State) : Mig η ρ Bool := Proc.perform (JournalOp.rename state)

def syncDir : Mig η ρ Bool := Proc.perform JournalOp.syncDir

/-! ## The journal -/

namespace Journal

def schema : String := "sparkplane.migration-journal/v1"

def requireDurable : Mig η ρ Unit := do
  let journal ← get
  ensure (!journal.poisoned) "journal persistence failed; reopen the durable journal before recovery"

def save : Mig η ρ Unit := do
  modify fun j => { j with poisoned := true }
  let journal ← get
  must (stage journal.state)
  must (renameStage journal.state)
  must syncDir
  modify fun j => { j with poisoned := false }

def update (f : State → State) : Mig η ρ Unit := do
  modify fun j => { j with state := f j.state }
  save

/-- The checks of `open` on an identity: 64 hexadecimal digits. -/
def isIdentity (s : String) : Bool := s.utf8ByteSize = 64 && s.toList.all isAsciiHexdigit

def fresh (host release : String) : State := ⟨schema, host, release, [], none, false, false⟩

def validHistory (s : State) : Bool :=
  s.completed.isPrefixOf steps &&
  (s.pending.all fun step => steps[s.completed.length]? = some step) &&
  (!s.committed || (s.completed = steps && s.pending.isNone && !s.rollingBack))

def openAt (host release : String) : Mig η ρ Unit := do
  ensure (isIdentity host && isIdentity release) "invalid migration identity"
  let owned ← orThrow (← directory)
  ensure owned "migration journal directory must be owned and not shared-writable"
  must lock
  let found ← orThrow (← load)
  let state := found.getD (fresh host release)
  ensure (state.schema = schema && state.host = host && state.release = release) "migration journal identity mismatch"
  ensure (validHistory state) "migration journal contains an invalid action history"
  set (⟨state, false⟩ : Journal)
  save

def committed : Mig η ρ Bool := do
  requireDurable
  return (← get).state.committed

def next : Mig η ρ (Option Step) := do
  requireDurable
  let state := (← get).state
  ensure (state.pending.isNone && !state.rollingBack) "recover interrupted migration before continuing"
  return steps[state.completed.length]?

def commit : Mig η ρ Unit := do
  requireDurable
  let state := (← get).state
  ensure (state.completed = steps && state.pending.isNone && !state.rollingBack)
    "migration must pass every acceptance step before commit"
  update fun s => { s with committed := true }

def start (step : Step) : Mig η ρ Unit := do
  requireDurable
  let state := (← get).state
  ensure (!state.committed && !state.rollingBack && state.pending.isNone) "recover pending migration before continuing"
  ensure (steps[state.completed.length]? = some step) "migration actions must follow the fixed sequence"
  update fun s => { s with pending := some step }

def finish (step : Step) : Mig η ρ Unit := do
  requireDurable
  let state := (← get).state
  ensure (!state.rollingBack && state.pending = some step) "cannot finish an action without its durable intent"
  update fun s => { s with completed := s.completed ++ [step], pending := none }

/-- The loop of `recover`; it is called with the number of completed steps. -/
def undoCompleted (undo : Step → Mig η ρ Unit) : Nat → Mig η ρ Unit
  | 0 => pure ()
  | n + 1 => do
    match (← get).state.completed.getLast? with
    | none => pure ()
    | some step =>
      undo step
      update fun s => { s with completed := s.completed.dropLast }
      undoCompleted undo n

def undoPending (undo : Step → Mig η ρ Unit) : Mig η ρ Unit := do
  match (← get).state.pending with
  | none => pure ()
  | some step =>
    undo step
    update fun s => { s with pending := none }

def recover (undo : Step → Mig η ρ Unit) : Mig η ρ Unit := do
  requireDurable
  ensure (!(← get).state.committed) "committed migrations cannot restore stale state"
  update fun s => { s with rollingBack := true }
  undoPending undo
  undoCompleted undo (← get).state.completed.length
  update fun s => { s with rollingBack := false }

end Journal

def closed (j : Journal) : Journal := { j with poisoned := true }

theorem save_eq (j : Journal) : (Journal.save : Mig η ρ Unit) j =
    .op (.stage j.state) fun (staged : Bool) =>
      bif staged then .op (.rename j.state) fun (renamed : Bool) =>
        bif renamed then .op .syncDir fun (synced : Bool) =>
          .ret (bif synced then (.ok (), ⟨j.state, false⟩) else (.error .system, closed j))
        else .ret (.error .system, closed j)
      else .ret (.error .system, closed j) := by
  refine congrArg (Prog.op _) (funext fun staged => ?_)
  cases staged with
  | false => rfl
  | true =>
    refine congrArg (Prog.op _) (funext fun renamed => ?_)
    cases renamed with
    | false => rfl
    | true =>
      refine congrArg (Prog.op _) (funext fun synced => ?_)
      cases synced <;> rfl

/-! ## The runner -/

structure Actions (η : Type) (ρ : η → Type) where
  apply : Step → Mig η ρ Unit
  undo : Step → Mig η ρ Unit
  openTraffic : Mig η ρ Unit

def withContext (message : String) (x : Mig η ρ Unit) : Mig η ρ Unit :=
  tryCatch x fun e => throw (.context message e)

/-- The loop of `run`; it is called with the number of steps that are left. -/
def runSteps (host : Actions η ρ) : Nat → Mig η ρ Unit
  | 0 => do
    let _ ← Journal.next
  | n + 1 => do
    match ← Journal.next with
    | none => pure ()
    | some step =>
      Journal.start step
      withContext ("migration " ++ step.debug ++ " failed; traffic remains fenced, use recovery") (host.apply step)
      Journal.finish step
      runSteps host n

def runMigration (host : Actions η ρ) : Mig η ρ Unit := do
  unless ← Journal.committed do
    runSteps host (steps.length - (← get).state.completed.length)
    Journal.commit
  withContext "migration committed; retry opening traffic, never restore old state" host.openTraffic

def recoverMigration (host : Actions η ρ) : Mig η ρ Unit := Journal.recover host.undo

end

end Sparkplane.Migration

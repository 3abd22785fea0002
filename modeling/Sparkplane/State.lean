import Mathlib.Data.List.Sort
import Sparkplane.Table
import Sparkplane.Batch
import Sparkplane.Wire

/-!
# The database: tables and the operation log

`state.rs`: the tables of the migrations, and the commands that write the
operation log. The actor runs one command at a time; a command is one or more
transactions, each of them a `Sql` block under `commit`. The audit table and
the columns no command reads are left out.
-/

namespace Sparkplane

inductive StateError where
  | overloaded
  | conflict (message : String)
  | notFound
  | invalid (message : String)
  | unavailable (message : String)
  deriving DecidableEq

/-- `state_sql` of a constraint that failed. -/
def sqlConstraint : StateError := .unavailable "database failure: constraint failed"

/-- What one command draws from outside: the clock, `Ulid::new` for an
operation and for a token, and the random secret. -/
structure Draw where
  now : Timestamp := 0
  operationId : String := ""
  tokenId : String := ""
  secret : String := ""

/-! ## Tables -/

structure IdempotencyRow where
  requestSha256 : String
  operationId : String
  deriving DecidableEq

structure TokenRow where
  name : String
  verifier : String
  scopes : List TokenScope
  allowedCidrs : List String
  expiresAt : Option String
  maxConcurrentInference : Nat
  createdAt : Timestamp
  lastUsedAt : Option Timestamp
  revokedAt : Option Timestamp

structure SessionRow where
  tokenId : String
  requestHash : String
  inst : String
  model : String
  integration : String
  ecoMode : String
  startedAt : Timestamp
  finishedAt : Option Timestamp

structure ModelRow where
  repository : String
  commitSha : String
  metadata : ModelDocument

structure InstanceRow where
  name : String
  modelId : String
  generation : Nat
  desiredState : InstanceDesiredState
  observedState : InstanceObservedState
  metadata : InstanceDocument

structure ResourceRow where
  coldStartPeakBytes : Nat
  steadyPeakBytes : Nat
  incrementalStartPeakBytes : Nat
  restartSuppressed : Bool
  suppressionCause : Option String

structure EmergencyDecision where
  instanceId : String
  generation : Nat
  cause : String
  deriving DecidableEq

structure EmergencyRecord where
  schema : String
  eventId : String
  decision : EmergencyDecision

structure QuarantineEvidence where
  containerId : String
  instanceId : Option String
  generation : Option Nat
  cause : String
  deriving DecidableEq

structure QuarantineRow where
  instanceId : Option String
  generation : Option Nat
  cause : String
  observedAt : Timestamp
  resolvedAt : Option Timestamp

/-- Keys: an event by operation and sequence, an idempotency row by token,
operation kind and key, a restart failure by instance, generation and second. -/
structure Db where
  operations : Table String OperationRow := .empty
  events : Table (String × Nat) EventRow := .empty
  idempotency : Table (String × String × String) IdempotencyRow := .empty
  tokens : Table String TokenRow := .empty
  panelTokenScopes : Table String Unit := .empty
  sessions : Table String SessionRow := .empty
  models : Table String ModelRow := .empty
  aliases : Table String String := .empty
  instances : Table String InstanceRow := .empty
  instanceResources : Table String ResourceRow := .empty
  emergencyRecords : Table String EmergencyRecord := .empty
  restartFailures : Table (String × Nat × Nat) Unit := .empty
  quarantineEvidence : Table String QuarantineRow := .empty

abbrev Sql (α : Type) := Tx Db StateError α

abbrev Cmd (α : Type) := Batch Db StateError α

/-! ## The operation log -/

def Db.readOperation (db : Db) (id : String) : Except StateError OperationDocument :=
  match db.operations.get? id with
  | some row => .ok { row with id := id }
  | none => .error .notFound

/-- The events of one operation, in the order they were appended. -/
def Db.eventsOf (db : Db) (id : String) : List ((String × Nat) × EventRow) :=
  db.events.select fun k _ => k.1 = id

def Db.nextSequence (db : Db) (id : String) : Nat :=
  match ((db.eventsOf id).map fun e => e.1.2).max? with
  | some n => n + 1
  | none => 1

def Db.readEvents (db : Db) (id : String) (after : Nat) : Except StateError (List OperationEvent) := do
  let _ ← db.readOperation id
  if !fitsI64 after then throw (.invalid "event cursor is out of range")
  let rows := ((db.eventsOf id).filter fun e => after < e.1.2).insertionSort fun a b => a.1.2 ≤ b.1.2
  return (rows.take 1024).map fun e => { e.2 with id := e.1.2, operationId := id }

def OperationState.debug : OperationState → String
  | .accepted => "Accepted"
  | .running => "Running"
  | .succeeded => "Succeeded"
  | .failed => "Failed"
  | .cancelled => "Cancelled"

def legalOperationTransition : OperationState → OperationState → Bool
  | .accepted, .running => true
  | .running, .running => true
  | .accepted, .cancelled => true
  | .running, .succeeded => true
  | .running, .failed => true
  | .running, .cancelled => true
  | _, _ => false

def Db.activeRecoveries (db : Db) : List String :=
  (db.operations.select fun _ row => row.kind = "instance.recover" && !row.state.isTerminal).map Prod.fst

namespace Database

def appendEvent (operationId : String) (state : OperationState) (progress : OperationProgress)
    (occurredAt : Timestamp) : Sql Unit :=
  Tx.execute sqlConstraint fun db =>
    (db.events.insert (operationId, db.nextSequence operationId) ⟨state, progress, occurredAt⟩).map
      fun t => { db with events := t }

structure AcceptedOperation where
  operation : OperationDocument
  reused : Bool

def acceptedProgress : OperationProgress where
  stage := "accepted"
  current := none
  total := none
  unit := none
  message := "operation durably accepted"

def reusedKey : StateError := .conflict "idempotency key was reused with a changed request"

def acceptOperation (d : Draw) (tokenId kind key requestSha256 : String) (target : Option String) :
    Sql AcceptedOperation := do
  let prior ← Tx.query fun db => .ok (db.idempotency.get? (tokenId, kind, key))
  match prior with
  | some prior =>
    Tx.require (prior.requestSha256 = requestSha256) reusedKey
    let operation ← Tx.query (·.readOperation prior.operationId)
    return ⟨operation, true⟩
  | none =>
    let id := d.operationId
    Tx.execute sqlConstraint fun db =>
      (db.operations.insert id ⟨kind, tokenId, target, .accepted, acceptedProgress, d.now, d.now, none, none⟩).map
        fun t => { db with operations := t }
    Tx.execute sqlConstraint fun db =>
      (db.idempotency.insert (tokenId, kind, key) ⟨requestSha256, id⟩).map
        fun t => { db with idempotency := t }
    appendEvent id .accepted acceptedProgress d.now
    let operation ← Tx.query (·.readOperation id)
    return ⟨operation, false⟩

def illegalTransition (current next : OperationState) : StateError :=
  .conflict ("illegal operation transition from " ++ current.debug ++ " to " ++ next.debug)

def transition (d : Draw) (id : String) (next : OperationState) (progress : OperationProgress)
    (result : Option Json) (problem : Option ProblemDocument) : Sql OperationDocument := do
  let current ← Tx.query (·.readOperation id)
  if current.state = next ∧ current.state.isTerminal then return current
  Tx.require (legalOperationTransition current.state next) (illegalTransition current.state next)
  modify fun db => { db with
    operations := db.operations.modify id fun row =>
      { row with state := next, progress, updatedAt := d.now, result, problem } }
  appendEvent id next progress d.now
  Tx.query (·.readOperation id)

def cancelledProgress : OperationProgress where
  stage := "cancelled"
  current := none
  total := none
  unit := none
  message := "cancellation committed"

def terminalImmutable : StateError :=
  .conflict "terminal operations are immutable; use the domain stop command when applicable"

def cancelOperation (d : Draw) (id : String) : Cmd OperationDocument := do
  let current ← Batch.query (·.readOperation id)
  if current.state = .cancelled then return current
  Batch.require (!current.state.isTerminal) terminalImmutable
  (transition d id .cancelled cancelledProgress none none).commit

/-- `Accepted` first goes to `Running`, then both go to `Failed`: the two loops
that close operations from outside share this body. -/
def closeOperation (d : Draw) (id : String) (running failed : OperationProgress)
    (problem : ProblemDocument) : Cmd Unit := do
  let current ← Batch.query (·.readOperation id)
  if current.state = .accepted then
    let _ ← (transition d id .running running none none).commit
  let _ ← (transition d id .failed failed none (some problem)).commit

def interruptedProgress : OperationProgress where
  stage := "interrupted"
  current := none
  total := none
  unit := none
  message := "Recovery sequence interrupted by an agent restart"

def interruptedProblem (id : String) : ProblemDocument where
  schema := problemSchema
  type := "about:blank"
  code := "spark.instance.recovery-interrupted"
  status := 409
  detail := "The agent restarted during managed recovery. " ++
    "Child lifecycle operations reconcile independently."
  remediation := ["Inspect the instance and child operations before starting a new recovery."]
  operationId := some id

/-- One turn of the loop for each unit of fuel. -/
def interruptLoop (d : Draw) : Nat → Cmd Unit
  | 0 => pure ()
  | fuel + 1 => do
    let ids ← Batch.query fun db => .ok (db.activeRecoveries.take 256)
    if ids.isEmpty then return ()
    Batch.each (fun id => closeOperation d id interruptedProgress interruptedProgress (interruptedProblem id)) ids
    interruptLoop d fuel

/-- Every turn closes at least one recovery, so there are at most as many turns
as operations. -/
def interruptPanelRecoveries (d : Draw) : Cmd Unit := do
  let n ← Batch.query fun db => .ok db.operations.rows.length
  interruptLoop d (n + 1)

end Database

end Sparkplane

import Sparkplane.State
import Sparkplane.Resources

/-!
# The database: models, instances and emergencies

The model and instance commands of `state.rs`. An instance row keeps its
document next to the columns that queries filter on; `persistInstance` writes
both and refuses a row of another generation.
-/

namespace Sparkplane

/-! ## Reads -/

def sortByName {α : Type} (name : α → String) (l : List α) : List α :=
  l.insertionSort fun a b => ¬ name b < name a

def Db.readModelRow (db : Db) (id : String) : Except StateError ModelDocument :=
  match db.models.get? id with
  | none => .error .notFound
  | some row => .ok { row.metadata with
      aliases := sortByName (fun x => x) ((db.aliases.select fun _ m => m = id).map Prod.fst)
      activeInstances := sortByName (fun x => x)
        ((db.instances.select fun _ i => i.modelId = id && i.desiredState = .running).map
          fun r => r.2.name) }

def Db.readModel (db : Db) (reference : String) : Except StateError ModelDocument :=
  match db.aliases.get? reference with
  | some id => db.readModelRow id
  | none =>
    match db.models.select fun id m =>
      id = reference || m.metadata.canonical = reference || m.repository = reference with
    | [m] => db.readModelRow m.1
    | [] => .error .notFound
    | _ => .error (.conflict "model reference is ambiguous; use an alias or canonical identity")

def Db.named (db : Db) (reference : String) : List (String × InstanceRow) :=
  db.instances.select fun id row => id = reference || row.name = reference

def Db.listInstances (db : Db) : List InstanceDocument :=
  ((sortByName (fun r : String × InstanceRow => r.2.name) db.instances.rows).take 256).map
    fun r => r.2.metadata

def Db.readInstance (db : Db) (reference : String) : Except StateError InstanceDocument :=
  match db.named reference with
  | [r] => .ok r.2.metadata
  | [] => .error .notFound
  | _ => .error (.conflict "instance reference is ambiguous")

/-- The read inside a transaction takes the first row. -/
def Db.readInstanceTx (db : Db) (reference : String) : Except StateError InstanceDocument :=
  match db.named reference with
  | r :: _ => .ok r.2.metadata
  | [] => .error .notFound

def Db.desiredResourceEnvelopes (db : Db) : List DeclaredEnvelope :=
  sortByName DeclaredEnvelope.instanceId <| db.instanceResources.rows.filterMap fun r =>
    match db.instances.get? r.1 with
    | some i => if i.desiredState = .running then some ⟨r.1, i.name, r.2.coldStartPeakBytes⟩ else none
    | none => none

def Db.activeTargeting (db : Db) (target : String) : List String :=
  ((db.operations.select fun _ row => row.target = some target && !row.state.isTerminal).insertionSort
    fun a b => a.2.createdAt ≤ b.2.createdAt).map Prod.fst

/-! ## Validation -/

def containsStr (needle s : String) : Bool := s.toList.tails.any (needle.toList.isPrefixOf ·)

def validId (id : String) : Bool :=
  id.utf8ByteSize = 34 &&
    match stripPre "i_" id with
    | some rest => rest.toList.all fun c => isAsciiHexdigit c && !isAsciiUppercase c
    | none => false

def validName (name : String) : Bool :=
  !name.isEmpty && name.utf8ByteSize ≤ 63 &&
    name.toList.all fun c => isAsciiLowercase c || isAsciiDigit c || c = '-' || c = '.'

def validEngineFingerprint (fingerprint : String) : Bool :=
  match stripPre "sha256:" fingerprint with
  | some value => value.utf8ByteSize = 64 && value.toList.all isAsciiHexdigit
  | none => false

def validateInstance (E : Env) (i : InstanceDocument) : Except StateError Unit :=
  if i.schema ≠ instanceSchema || !validId i.id || !validName i.name || i.modelId.isEmpty ||
      i.modelCommit.utf8ByteSize ≠ 40 || i.engineId.isEmpty || i.contextWindow < 1024 ||
      i.defaultReasoningEffort.any (· ∉ ["low", "medium", "high", "max"]) ||
      !validEngineFingerprint i.engineFingerprint ||
      artifactFingerprint E i.artifacts ≠ some i.artifactFingerprint ||
      i.objective ∉ ["agent", "inference", "interactive", "throughput", "long-context"] then
    .error (.invalid "instance intent is invalid")
  else .ok ()

def validateQuarantineEvidence (e : QuarantineEvidence) : Except StateError Unit :=
  if e.containerId.utf8ByteSize ≠ 64 || !e.containerId.toList.all isAsciiHexdigit ||
      e.instanceId.any (128 < ·.utf8ByteSize) || e.cause.isEmpty || 128 < e.cause.utf8ByteSize then
    .error (.invalid "quarantine evidence is invalid")
  else .ok ()

def restartFailureLimit : Nat := 5

def restartWindowSeconds : Nat := 10 * 60

namespace Database

variable (E : Env) (d : Draw)

/-! ## Models -/

def aliasTaken (name : String) : StateError :=
  .conflict ("alias \"" ++ name ++ "\" already points to another immutable model; use --update-alias")

def promoteModel (model : ModelDocument) (updateAlias : Bool) : Sql ModelDocument := do
  Tx.each (fun name => do
    let prior ← Tx.query fun db => .ok (db.aliases.get? name)
    Tx.require (updateAlias || !prior.any (· ≠ model.id)) (aliasTaken name)) model.aliases
  modify fun db => { db with
    models := (db.models.insert model.id ⟨model.repository, model.commit, { model with aliases := [] }⟩).getD
      (db.models.modify model.id fun row => { row with metadata := { model with aliases := [] } }) }
  Tx.each (fun name => modify fun db => { db with aliases := db.aliases.upsert name model.id }) model.aliases
  Tx.query (·.readModelRow model.id)

def modelReferenced : StateError := .conflict "model is referenced by an instance"

def removeModel (id : String) : Sql Unit := do
  let active ← Tx.query fun db => .ok (db.instances.select fun _ i => i.modelId = id).length
  Tx.require (active = 0) modelReferenced
  modify fun db => { db with aliases := db.aliases.delete fun _ m => m = id }
  let row ← Tx.query fun db => .ok (db.models.get? id)
  Tx.require row.isSome .notFound
  modify fun db => { db with models := db.models.delete fun k _ => k = id }

/-! ## Instances -/

structure AcceptedInstance where
  inst : InstanceDocument
  reused : Bool

def sameServeIdentity (left right : InstanceDocument) : Bool :=
  left.modelId = right.modelId && left.modelCommit = right.modelCommit &&
    left.engineId = right.engineId && left.engineFingerprint = right.engineFingerprint &&
    left.artifacts = right.artifacts && left.artifactFingerprint = right.artifactFingerprint &&
    left.objective = right.objective && left.contextWindow = right.contextWindow &&
    left.defaultReasoningEffort = right.defaultReasoningEffort

def differentIntent (name : String) : StateError :=
  .conflict ("instance " ++ name ++ " already has different running intent; stop it or choose another name")

def generationRange : StateError := .invalid "instance generation is out of range"

/-- The upsert by name. A new row must not reuse another row's id, and its
model must exist. -/
def upsertInstance (i : InstanceDocument) (db : Db) : Option Db :=
  if (db.models.get? i.modelId).isNone then none
  else
    let row : InstanceRow := ⟨i.name, i.modelId, i.generation, .running, .creating, i⟩
    match db.instances.rows.find? fun r => r.2.name = i.name with
    | some r => some { db with instances := db.instances.modify r.1 fun _ => row }
    | none => (db.instances.insert i.id row).map fun t => { db with instances := t }

def upsertResources (i : InstanceDocument) (db : Db) : Option Db :=
  let row : ResourceRow :=
    ⟨i.resources.startupPeakBytes, i.resources.steadyPeakBytes, i.resources.startupPeakBytes, false, none⟩
  if (db.instances.get? i.id).isNone then none
  else some { db with instanceResources := db.instanceResources.upsert i.id row }

/-- The intent `begin_serve` writes for a requested document. -/
def servingIntent (requested : InstanceDocument) : InstanceDocument :=
  { requested with
    desired := .running
    observed := .creating
    endpoint := none
    healthy := false
    startedAt := none
    lastFailure := none }

def storeServe (requested : InstanceDocument) : Sql AcceptedInstance := do
  let intent := servingIntent requested
  Tx.require (fitsI64 intent.generation) generationRange
  Tx.execute sqlConstraint (upsertInstance intent)
  Tx.require (fitsI64 intent.resources.startupPeakBytes) (.invalid "startup resource envelope is out of range")
  Tx.require (fitsI64 intent.resources.steadyPeakBytes) (.invalid "steady resource envelope is out of range")
  Tx.execute sqlConstraint (upsertResources intent)
  return ⟨intent, false⟩

def beginServe (requested : InstanceDocument) : Sql AcceptedInstance := do
  Tx.query fun _ => validateInstance E requested
  let prior ← Tx.query fun db => .ok (db.instances.rows.find? fun r => r.2.name = requested.name)
  match prior with
  | some prior =>
    let current := prior.2.metadata
    if current.desired = .running ∧ !current.restartSuppressed then
      Tx.require (sameServeIdentity current requested) (differentIntent requested.name)
      return ⟨current, true⟩
    Tx.require (current.generation + 1 < 2 ^ 64) (.conflict "instance generation is exhausted")
    storeServe { requested with id := current.id, generation := current.generation + 1 }
  | none => storeServe { requested with generation := 1 }

def persistInstance (i : InstanceDocument) : Sql Unit := do
  Tx.require (fitsI64 i.generation) generationRange
  Tx.execute .notFound fun db =>
    match db.instances.get? i.id with
    | some row =>
      if row.generation = i.generation then
        some { db with instances := db.instances.modify i.id fun row =>
          { row with desiredState := i.desired, observedState := i.observed, metadata := i } }
      else none
    | none => none

def staleGeneration : StateError := .conflict "stale instance generation"

/-- Read the instance inside the transaction and refuse another generation. -/
def currentInstance (id : String) (generation : Nat) : Sql InstanceDocument := do
  let i ← Tx.query (·.readInstanceTx id)
  Tx.require (i.generation = generation) staleGeneration
  return i

def validEndpoint (endpoint : Option String) : Bool :=
  !endpoint.any fun value => 256 < value.utf8ByteSize || containsStr "://" value || containsStr "172." value

/-- The document `set_instance_observed` writes. -/
def observe (now : Timestamp) (observed : InstanceObservedState) (endpoint failure : Option String)
    (startupMilliseconds : Option Nat) (i : InstanceDocument) : InstanceDocument :=
  { i with
    observed := observed
    healthy := observed = .healthy
    endpoint := endpoint
    lastFailure := failure
    startupMilliseconds := startupMilliseconds.or i.startupMilliseconds
    startedAt := if observed = .healthy then i.startedAt.or (some now) else i.startedAt
    restartFailures := if observed = .healthy then 0 else i.restartFailures
    restartSuppressed := if observed = .healthy then false else i.restartSuppressed }

def suppress (db : Db) (id : String) (suppressed : Bool) (cause : Option String) : Db :=
  { db with instanceResources := db.instanceResources.modify id fun r =>
    { r with restartSuppressed := suppressed, suppressionCause := cause } }

def setInstanceObserved (id : String) (generation : Nat) (observed : InstanceObservedState)
    (endpoint failure : Option String) (startupMilliseconds : Option Nat) : Sql InstanceDocument := do
  let i ← currentInstance id generation
  Tx.require (validEndpoint endpoint) (.invalid "published endpoint is invalid")
  let i := observe d.now observed endpoint failure startupMilliseconds i
  if observed = .healthy then
    Tx.require (fitsI64 generation) generationRange
    modify fun db => { db with
      restartFailures := db.restartFailures.delete fun k _ => k.1 = id && k.2.1 = generation }
    modify (suppress · id false none)
  persistInstance i
  return i

/-- The document `begin_stop` writes. -/
def stoppingIntent (i : InstanceDocument) : InstanceDocument :=
  { i with
    desired := .stopped
    endpoint := none
    healthy := false
    observed := if i.observed = .absent then .absent else .stopping }

def beginStop (reference : String) : Sql InstanceDocument := do
  let i ← Tx.query (·.readInstanceTx reference)
  persistInstance (stoppingIntent i)
  return stoppingIntent i

/-- The document `record_restart_failure` writes. -/
def restartFailed (failures : Nat) (i : InstanceDocument) : InstanceDocument :=
  let suppressed : Bool := restartFailureLimit ≤ failures
  { i with
    restartFailures := failures
    restartSuppressed := suppressed
    observed := if suppressed then .failed else .degraded
    healthy := false
    endpoint := none
    lastFailure := some "managed engine restart failed" }

def recordRestartFailure (id : String) (generation failedAtUnixSeconds : Nat) : Sql InstanceDocument := do
  let i ← currentInstance id generation
  Tx.require (fitsI64 generation) generationRange
  Tx.require (fitsI64 failedAtUnixSeconds) (.invalid "restart failure time is out of range")
  let windowStart := failedAtUnixSeconds - restartWindowSeconds
  Tx.execute sqlConstraint fun db =>
    if (db.instances.get? id).isNone then none
    else some { db with restartFailures := db.restartFailures.upsert (id, generation, failedAtUnixSeconds) () }
  modify fun db => { db with
    restartFailures := db.restartFailures.delete fun k _ =>
      k.1 = id && k.2.1 = generation && k.2.2 < windowStart }
  let failures ← Tx.query fun db =>
    .ok (db.restartFailures.select fun k _ => k.1 = id && k.2.1 = generation).length
  let i := restartFailed failures i
  persistInstance i
  modify (suppress · id i.restartSuppressed (if i.restartSuppressed then some "restart-failure-budget" else none))
  return i

/-- The document `mark_quarantine` writes. -/
def quarantined (cause : String) (i : InstanceDocument) : InstanceDocument :=
  { i with quarantine := some cause, observed := .failed, healthy := false, endpoint := none }

def markQuarantine (id : String) (generation : Nat) (cause : String) : Sql InstanceDocument := do
  Tx.require (!cause.isEmpty && cause.utf8ByteSize ≤ 128) (.invalid "quarantine cause is invalid")
  let i ← currentInstance id generation
  persistInstance (quarantined cause i)
  return quarantined cause i

def storeEvidence (e : QuarantineEvidence) : Sql Unit := do
  Tx.require (!e.generation.any (!fitsI64 ·)) (.invalid "quarantine generation is out of range")
  let row : QuarantineRow := ⟨e.instanceId, e.generation, e.cause, d.now, none⟩
  modify fun db => { db with quarantineEvidence := db.quarantineEvidence.upsert e.containerId row }

def reconcileQuarantine (evidence : List QuarantineEvidence) : Sql Unit := do
  Tx.each (fun e => Tx.query fun _ => validateQuarantineEvidence e) evidence
  let active := evidence.filterMap fun e => e.instanceId.bind fun id => e.generation.map (id, ·)
  modify fun db => { db with quarantineEvidence := db.quarantineEvidence.update fun _ row =>
    { row with resolvedAt := row.resolvedAt.or (some d.now) } }
  Tx.each (storeEvidence d) evidence
  let instances ← Tx.query fun db => .ok db.listInstances
  Tx.each (fun i =>
    if i.quarantine.isSome ∧ (i.id, i.generation) ∉ active then persistInstance { i with quarantine := none }
    else pure ()) instances

/-! ## Emergencies -/

def emergencyRunning : OperationProgress :=
  ⟨"emergency", none, none, none, "root memory guard suppressed restart"⟩

def emergencyFailed : OperationProgress :=
  ⟨"failed", none, none, none, "instance stopped by the root memory guard"⟩

def emergencyProblem (record : EmergencyRecord) (operationId : String) : ProblemDocument where
  schema := problemSchema
  type := "https://sparkplane.local/problems/spark-memory-emergency"
  code := "spark.memory.emergency-shed"
  status := 503
  detail := record.decision.cause
  remediation := ["restore memory headroom before serving again"]
  operationId := some operationId

inductive EmergencyOutcome where
  | duplicate
  | stale
  | suppressed
  deriving DecidableEq

/-- The document `import_emergency` writes. -/
def shed (cause : String) (i : InstanceDocument) : InstanceDocument :=
  { i with
    observed := .failed
    healthy := false
    endpoint := none
    restartSuppressed := true
    lastFailure := some cause }

/-- The transaction of `import_emergency`; a record imported before is left as
it is. -/
def recordEmergency (record : EmergencyRecord) : Sql EmergencyOutcome := do
  let known ← Tx.query fun db => .ok (db.emergencyRecords.get? record.eventId)
  if known.isSome then return .duplicate
  modify fun db => { db with emergencyRecords := db.emergencyRecords.upsert record.eventId record }
  let i ← Tx.query (·.readInstanceTx record.decision.instanceId)
  if i.generation ≠ record.decision.generation then return .stale
  modify (suppress · record.decision.instanceId true (some record.decision.cause))
  persistInstance (shed record.decision.cause i)
  return .suppressed

def emergencyInvalid : StateError := .invalid "emergency record is invalid"

def importEmergency (record : EmergencyRecord) : Cmd Bool := do
  Batch.require (record.schema = "sparkplane.emergency-record/v1" && E.parseUlid record.eventId &&
    !record.decision.instanceId.isEmpty && !record.decision.cause.isEmpty) emergencyInvalid
  Batch.require (fitsI64 record.decision.generation) (.invalid "emergency generation is out of range")
  match ← (recordEmergency record).commit with
  | .duplicate => return false
  | .stale => return true
  | .suppressed =>
    let active ← Batch.query fun db => .ok (db.activeTargeting record.decision.instanceId)
    Batch.each (fun id => closeOperation d id emergencyRunning emergencyFailed (emergencyProblem record id)) active
    return true

end Database

end Sparkplane

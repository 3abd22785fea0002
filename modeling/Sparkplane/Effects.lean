import Sparkplane.Actor
import Sparkplane.Prog

/-!
# What the agent's tasks do

The handlers and background tasks of `agent.rs` are programs over the effects
below, each of them one atomic step: a database command or read, a route
operation, the transition lease, the published token snapshot, the model cache,
a call to something outside the process, or the start of a further task. The
agent is fully configured and the database queue is never full.
-/

namespace Sparkplane

/-! ## Documents of the executor -/

structure ExecutorSnapshot where
  resourcePolicy : ResourcePolicy
  resources : HostResourceSnapshot
  guardHeartbeat : Bool
  eventHeartbeat : Bool

structure CandidateStorageInput where
  instanceId : String
  modelCommit : String
  modelRepository : String
  engineId : String
  engineFingerprint : String
  artifacts : ModelArtifactsDocument
  artifactFingerprint : String
  deriving DecidableEq

structure CandidateStorage where
  imagePresent : Bool
  compileCacheAllocatedBytes : Nat
  compileCacheNamespace : String

structure ReconcileExpectation where
  instanceId : String
  generation : Nat
  modelCommit : String
  modelRepository : String
  engineId : String
  engineFingerprint : String
  artifacts : ModelArtifactsDocument
  artifactFingerprint : String
  deriving DecidableEq

structure StartInstanceInput extends ReconcileExpectation where
  operationId : String
  deriving DecidableEq

structure PreparedStart where
  input : StartInstanceInput
  deadlineSeconds : Nat
  deriving DecidableEq

structure StopInstanceInput where
  instanceId : String
  generation : Nat
  graceSeconds : Nat
  deriving DecidableEq

structure LogInput where
  instanceId : String
  generation : Nat
  cursor : Nat
  limit : Nat
  deriving DecidableEq

/-- Without the fields only the probes read. -/
structure ObservedEngine where
  instanceId : String
  generation : Nat
  address : String
  port : Nat
  running : Bool
  restartPolicy : String
  servedModel : String
  initPid : Nat
  pidStartTimeTicks : Nat
  deriving DecidableEq

structure ReconcileScan where
  matched : List ObservedEngine
  quarantined : List QuarantineEvidence

/-! ## Routes -/

structure ObservedRoute where
  instanceId : String
  generation : Nat
  processIdentity : Nat × Nat
  deriving DecidableEq

structure HealthyRoute where
  generation : Nat
  publicModel : String
  servedModel : String
  upstream : ObservedRoute
  deriving DecidableEq

inductive RouteState where
  | warming (generation : Nat)
  | healthy (route : HealthyRoute)
  deriving DecidableEq

def RouteState.generation : RouteState → Nat
  | .warming g => g
  | .healthy r => r.generation

inductive RouteLookup where
  | missing
  | warming
  | healthy (route : HealthyRoute)
  deriving DecidableEq

abbrev RouteRegistry := Table String RouteState

namespace RouteRegistry

def markWarming (r : RouteRegistry) (name : String) (generation : Nat) : RouteRegistry :=
  r.upsert name (.warming generation)

def publish (r : RouteRegistry) (name : String) (publicModel servedModel : String)
    (upstream : ObservedRoute) : RouteRegistry :=
  r.upsert name (.healthy ⟨upstream.generation, publicModel, servedModel, upstream⟩)

def drain (r : RouteRegistry) (name : String) (generation : Nat) : RouteRegistry :=
  r.delete fun k state => k = name && state.generation = generation

def lookup (r : RouteRegistry) (name : String) : RouteLookup :=
  match r.get? name with
  | none => .missing
  | some (.warming _) => .warming
  | some (.healthy route) => .healthy route

end RouteRegistry

/-! ## The model cache -/

def repositoryCacheName (repository : String) : String :=
  "models--" ++ String.ofList (repository.toList.flatMap fun c => if c = '/' then ['-', '-'] else [c])

/-- A snapshot directory: each file is a link to a blob of the same repository directory. -/
structure CachedSnapshot where
  directory : String
  commit : String
  links : List (String × String)
  deriving DecidableEq

def CachedSnapshot.blobs (s : CachedSnapshot) : List String := s.links.map Prod.snd

structure CachedBlob where
  directory : String
  name : String
  bytes : Nat
  deriving DecidableEq

/-- The snapshot directories, and the blob files with their sizes. -/
structure ModelCache where
  snapshots : List CachedSnapshot := []
  blobs : List CachedBlob := []

structure RemovalPlan where
  directory : String
  commit : String
  removableBlobs : List String
  reclaimableBytes : Nat
  deriving DecidableEq

namespace ModelCache

def find (c : ModelCache) (repository commit : String) : Option CachedSnapshot :=
  c.snapshots.find? fun s => s.directory = repositoryCacheName repository && s.commit = commit

def blob (c : ModelCache) (directory name : String) : Option CachedBlob :=
  c.blobs.find? fun b => b.directory = directory && b.name = name

def resolves (c : ModelCache) (s : CachedSnapshot) : Bool := s.blobs.all fun b => (c.blob s.directory b).isSome

def planRemoval (c : ModelCache) (repository commit : String) (active : Bool) : Option RemovalPlan :=
  if active then none
  else
    let directory := repositoryCacheName repository
    match c.find repository commit with
    | none => none
    | some snapshot =>
      let inventory := c.snapshots.filter (·.directory = directory)
      if inventory.any (!c.resolves ·) then none
      else
        let retained := (inventory.filter (·.commit ≠ commit)).flatMap CachedSnapshot.blobs
        let removable := snapshot.blobs.dedup.filter (· ∉ retained)
        let sizes := removable.filterMap fun b => (c.blob directory b).map CachedBlob.bytes
        (checkedSum 0 sizes).map fun n => ⟨directory, commit, removable, n⟩

/-- The blob files go first, then the snapshot with its links. `ioFailure` is how many of them
were gone when the file system failed. -/
def executeRemoval (c : ModelCache) (plan : RemovalPlan) (ioFailure : Option Nat) : Bool × ModelCache :=
  match ioFailure with
  | some n => (false, {
      blobs := c.blobs.filter fun b => !(b.directory = plan.directory && b.name ∈ plan.removableBlobs.take n)
      snapshots := c.snapshots.map fun s =>
        if s.directory = plan.directory && s.commit = plan.commit then
          { s with links := s.links.drop (n - plan.removableBlobs.length) }
        else s })
  | none => (true, {
      blobs := c.blobs.filter fun b => !(b.directory = plan.directory && b.name ∈ plan.removableBlobs)
      snapshots := c.snapshots.filter fun s => !(s.directory = plan.directory && s.commit = plan.commit) })

end ModelCache

inductive TransferFailure where
  | xetTransport
  | xetIntegrity
  | noProgress
  | authentication
  | notFound
  | policy
  | diskReserve
  | cancelled
  | other
  deriving DecidableEq

structure AcquisitionError where
  failure : TransferFailure
  detail : String

structure ArtifactSelection where
  primary : String
  auxiliary : List ModelArtifactSelectorDocument
  configured : Option ModelArtifactsDocument
  automatic : Bool
  deriving DecidableEq

structure AcquisitionPlan where
  repository : String
  commit : String
  logicalBytes : Nat
  uniqueBytes : Nat
  temporaryBytes : Nat
  artifacts : ModelArtifactsDocument
  deriving DecidableEq

structure ProgressUpdate where
  currentBytes : Nat
  totalBytes : Option Nat
  file : Option String

structure DownloadTarget where
  repository : String
  revision : String
  aliasName : Option String
  selection : ArtifactSelection
  deriving DecidableEq

structure DownloadJob extends DownloadTarget where
  operationId : String
  updateAlias : Bool
  deriving DecidableEq

/-! ## Calls out of the process -/

inductive Slots where
  | start
  | download
  deriving DecidableEq

inductive ErrorCode where
  | badRequest
  | overloaded
  | policyDenied
  | timeout
  | cancelled
  | other
  deriving DecidableEq

/-- `polls` is how often a loop turns before its deadline or its end. -/
inductive Outside where
  | snapshot
  | candidateStorage (input : CandidateStorageInput)
  | prepareInstance (input : StartInstanceInput)
  | startPrepared (prepared : PreparedStart)
  | promoteRestart (input : StopInstanceInput)
  | disableRestart (input : StopInstanceInput)
  | inspectInstance (input : StopInstanceInput)
  | stopInstance (input : StopInstanceInput)
  | logs (input : LogInput)
  | reconcileScan (expected : List ReconcileExpectation)
  | cancelQualification (operationId : String)
  | healthReady (route : ObservedRoute)
  | semanticProbe (route : ObservedRoute) (observed : ObservedEngine)
  | unixMillis
  | elapsedMillis
  | polls
  | acquireOwned (slots : Slots)
  | resolveSelected (repository revision : String) (selection : ArtifactSelection)
  | acquire (plan : AcquisitionPlan) (aliasName : Option String)
  | receiveProgress
  deriving DecidableEq

@[reducible] def Outside.Reply : Outside → Type
  | .snapshot => Except Unit ExecutorSnapshot
  | .candidateStorage _ => Except Unit CandidateStorage
  | .prepareInstance _ => Except Unit PreparedStart
  | .startPrepared _ | .promoteRestart _ | .disableRestart _ => Except Unit ObservedEngine
  | .inspectInstance _ => Except Unit (Option Bool)
  | .stopInstance _ => Except Unit Unit
  | .logs _ => Except Unit (List String)
  | .reconcileScan _ => Except Unit ReconcileScan
  | .cancelQualification _ => Except ErrorCode Bool
  | .healthReady _ => Bool
  | .semanticProbe .. => Except String Unit
  | .unixMillis | .elapsedMillis | .polls => Nat
  | .acquireOwned _ => Bool
  | .resolveSelected .. => Except AcquisitionError AcquisitionPlan
  | .acquire .. => Except AcquisitionError ModelDocument
  | .receiveProgress => ProgressUpdate

/-! ## Database reads -/

/-- `list_operation_summaries`: the newest 256 operations, without results. -/
def Db.operationSummaries (db : Db) : List OperationDocument :=
  let newer (a b : String × OperationRow) : Prop :=
    b.2.createdAt < a.2.createdAt ∨ (a.2.createdAt = b.2.createdAt ∧ ¬ a.1 < b.1)
  (((db.operations.rows.insertionSort newer).take 256).map fun r =>
    { r.2 with id := r.1, result := none })

inductive Query where
  | operation (id : String)
  | model (reference : String)
  | inst (reference : String)
  | listInstances
  | desiredResourceEnvelopes
  | operationSummaries
  | authSnapshot
  | launchSession (id : String)
  deriving DecidableEq

@[reducible] def Query.Reply : Query → Type
  | .operation _ => OperationDocument
  | .model _ => ModelDocument
  | .inst _ => InstanceDocument
  | .listInstances => List InstanceDocument
  | .desiredResourceEnvelopes => List DeclaredEnvelope
  | .operationSummaries => List OperationDocument
  | .authSnapshot => AuthSnapshot
  | .launchSession _ => LaunchSessionDocument

def Query.answer (E : Env) (now : Timestamp) (db : Db) : (q : Query) → Except StateError q.Reply
  | .operation id => db.readOperation id
  | .model reference => db.readModel reference
  | .inst reference => db.readInstance reference
  | .listInstances => .ok db.listInstances
  | .desiredResourceEnvelopes => .ok db.desiredResourceEnvelopes
  | .operationSummaries => .ok db.operationSummaries
  | .authSnapshot => .ok (db.loadSnapshot E now)
  | .launchSession id => db.readSession id

/-! ## Tasks -/

/-- Who sent a request: the authenticated token and the `Idempotency-Key`
header, if it is text. -/
structure Caller where
  id : String
  idempotencyKey : Option String
  deriving DecidableEq

/-- The handlers, and the tasks they start. A clean-up carries the operation it
belongs to, which its code does not use. -/
inductive Job where
  | createToken (caller : Caller) (body : TokenCreateRequest)
  | revokeToken (caller : Caller) (id : String)
  | createLaunchSession (body : LaunchSessionRequest)
  | finishLaunchSession (id : String)
  | serveInstance (caller : Caller) (body : ServeRequest)
  | runServe (operationId : String) (inst : InstanceDocument)
  | stopInstance (caller : Caller) (id : String) (body : StopRequest)
  | runStop (operationId : String) (inst : InstanceDocument) (timeoutSeconds : Nat)
  | cancelOperation (caller : Caller) (id : String)
  | cancelPrehealthServe (operationId : String) (inst : InstanceDocument)
  | reconcile
  | downloadModel (caller : Caller) (body : DownloadRequest)
  | runDownload (job : DownloadJob)
  | forwardProgress (operationId : String)
  | removeModel (caller : Caller) (id : String) (body : RemoveModelRequest)
  deriving DecidableEq

structure AdmissionSelection where
  engineId : String
  selectionKind : String
  engine : String
  image : String
  fingerprint : String
  artifacts : ModelArtifactsDocument
  artifactFingerprint : String
  compileCacheNamespace : String

structure DownloadPlanDocument where
  schema : String
  repository : String
  commit : String
  artifacts : Option ModelArtifactsDocument
  logicalBytes : Nat
  uniqueBytes : Nat
  temporaryBytes : Nat
  diskReserveBytes : Nat

structure RemovalPlanDocument where
  schema : String
  modelId : String
  snapshotBytes : Nat
  reclaimableBytes : Nat
  sharedBytes : Nat
  activeInstances : List String
  aliases : List String
  requiresConfirmation : Bool

/-- What a task ends with; a background task just finishes. -/
inductive Response where
  | problem (status : Nat) (code detail : String)
  | accepted (operation : OperationDocument)
  | tokenCreated (created : Database.CreatedToken)
  | launchSessionCreated (created : Database.LaunchSessionCreated)
  | launchSession (session : LaunchSessionDocument)
  | admission (report : AdmissionReport) (selection : AdmissionSelection)
  | inst (inst : InstanceDocument)
  | downloadPlan (plan : DownloadPlanDocument)
  | removalPlan (plan : RemovalPlanDocument)
  | finished

/-! ## Effects -/

/-- `begin_serve` has its own effect: the operation it is called for is
recorded, though not part of the command. -/
inductive Eff where
  | command (c : Command)
  | beginServe (operationId : String) (inst : InstanceDocument)
  | query (q : Query)
  | outside (c : Outside)
  | markWarming (name : String) (generation : Nat)
  | publish (name publicModel servedModel : String) (upstream : ObservedRoute)
  | drain (name : String) (generation : Nat)
  | lookup (name : String)
  | tryAcquire (leaseId : String)
  | release (leaseId : String)
  | storeAuth (snapshot : AuthSnapshot)
  | planRemoval (repository commit : String) (active : Bool)
  | executeRemoval (plan : RemovalPlan)
  | spawn (job : Job)

@[reducible] def Eff.Reply : Eff → Type
  | .command c => Except StateError c.Reply
  | .beginServe .. => Except StateError Database.AcceptedInstance
  | .query q => Except StateError q.Reply
  | .outside c => c.Reply
  | .lookup _ => RouteLookup
  | .tryAcquire _ => Bool
  | .planRemoval .. => Option RemovalPlan
  | .executeRemoval _ => Bool
  | .markWarming .. | .publish .. | .drain .. | .release _ | .storeAuth _ | .spawn _ => Unit

abbrev Act (α : Type) := Prog Eff Eff.Reply α

def perform (e : Eff) : Act e.Reply := Prog.perform e

def command (c : Command) : Act (Except StateError c.Reply) := perform (.command c)

def query (q : Query) : Act (Except StateError q.Reply) := perform (.query q)

def outside (c : Outside) : Act c.Reply := perform (.outside c)

end Sparkplane

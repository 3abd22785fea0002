import Sparkplane.Effects

/-!
# Serving, stopping and reconciling

The programs of `agent.rs` that start and stop engines: `serve_instance` and its
`run_serve` task, `stop_instance` and `run_stop`, `cancel_operation`, and the
reconciliation pass. A guard that Rust drops at the end of its scope is an
explicit `release`.
-/

namespace Sparkplane

/-! ## Configuration -/

structure EngineProfile where
  contextWindow : Nat
  defaultReasoningEffort : Option String

/-- An engine, with its answers for the artifacts it was selected for. -/
structure EnginePolicy where
  id : String
  family : String
  image : String
  fingerprint : String
  resourcesFor : Except String RecipeResourceEnvelopeDocument
  profileFor : Except String EngineProfile

/-- What the handlers are configured with: the bootstrap token, the engine and
model catalogs, the checks of `ObservedRoute::new` on addresses and allow-lists,
and `serde_json::to_value` of the documents that end up in operations. -/
structure Site where
  env : Env
  token : String
  select : ModelArtifactsDocument → Except String EnginePolicy
  resolveDownloadTarget : DownloadRequest → Except (String × String) DownloadTarget
  diskReserveBytes : Nat
  parseAddress : String → Bool
  validRoute : ObservedEngine → Bool
  encodeError : String
  instanceValue : InstanceDocument → Option Json
  modelValue : ModelDocument → Option Json
  removalValue : RemovalPlanDocument → Option Json

/-! ## Answers -/

def databaseUnavailable : Response :=
  .problem 503 "spark.database.unavailable" "durable Spark state is unavailable"

def executorUnavailable : Response :=
  .problem 503 "spark.executor.unavailable" "the managed Spark executor operation is unavailable"

def missingIdempotency : Response :=
  .problem 400 "spark.idempotency.required" "Idempotency-Key is required"

def transitionBusy : Response :=
  .problem 409 "spark.memory.transition-busy" "another high-memory transition owns the admission lease"

def invalidInstanceName : Response :=
  .problem 400 "spark.instance.invalid-name" "instance name is invalid"

def stateProblem : StateError → Response
  | .overloaded => .problem 503 "spark.state.overloaded" "durable state queue is saturated"
  | .conflict detail => .problem 409 "spark.idempotency.conflict" detail
  | .notFound => .problem 404 "spark.resource.not-found" "resource was not found"
  | .invalid detail => .problem 400 "spark.request.invalid" detail
  | .unavailable _ => databaseUnavailable

def lifecycleProgress (stage message : String) : OperationProgress := ⟨stage, none, none, none, message⟩

/-! ## Shared steps -/

def requireExecutorForMutation : Act (Option Response) := do
  match ← outside .snapshot with
  | .ok snapshot =>
    if snapshot.guardHeartbeat && snapshot.eventHeartbeat then return none else return some unavailable
  | .error _ => return some unavailable
where
  unavailable : Response := .problem 503 "spark.executor.unavailable"
    "the privileged executor is unavailable; authenticated reads remain available"

def requiredIdempotency (caller : Caller) : Option String :=
  caller.idempotencyKey.filter fun value => !value.isEmpty && value.utf8ByteSize ≤ 128

def acceptOperation (tokenId kind key requestSha256 : String) (target : Option String) :
    Act (Except StateError Database.AcceptedOperation) :=
  match validateIdempotency key requestSha256 with
  | .error e => return .error e
  | .ok _ => command (.accept tokenId kind key requestSha256 target)

def transition (operationId : String) (state : OperationState) (progress : OperationProgress)
    (result : Option Json) (problem : Option ProblemDocument) : Act Unit := do
  let _ ← command (.transition operationId state progress result problem)
  return ()

def withLease {α : Type} (leaseId : String) (busy : α) (body : Act α) : Act α := do
  if ← perform (.tryAcquire leaseId) then
    let a ← body
    perform (.release leaseId)
    return a
  else return busy

def trim (E : Env) (s : String) : List Char :=
  ((s.toList.dropWhile E.isWhitespace).reverse.dropWhile E.isWhitespace).reverse

def normalizeInstanceName (E : Env) (value : String) : Option String :=
  let name := (trim E value).map fun c =>
    let c := c.toLower
    if isAsciiLowercase c || isAsciiUppercase c || isAsciiDigit c || c = '-' || c = '.' then c else '-'
  if !name.isEmpty && name.length ≤ 63 && name.head? ≠ some '-' && name.getLast? ≠ some '-' then
    some (String.ofList name)
  else none

def instanceId (E : Env) (name : String) : String :=
  String.ofList (("i_" ++ E.sha256 name).toList.take 34)

def requestedName (name : Option String) (model : ModelDocument) : String :=
  (name.or model.aliases.head?).getD model.id

def requiredDiskGrowth (resources : RecipeResourceEnvelopeDocument) (storage : CandidateStorage) : Nat :=
  let image := if storage.imagePresent then 0 else resources.imageBytes
  let cache := (checkedSub resources.compileCacheBytes storage.compileCacheAllocatedBytes).getD
    resources.compileCacheBytes
  min (image + cache) (2 ^ 64 - 1)

def candidateStorage (S : Site) (policy : EnginePolicy) (model : ModelDocument)
    (artifacts : ModelArtifactsDocument) (artifactFingerprint name : String) :
    Act (Except Unit CandidateStorage) :=
  outside (.candidateStorage ⟨instanceId S.env name, model.commit, model.repository, policy.id,
    policy.fingerprint, artifacts, artifactFingerprint⟩)

def admissionRequest (snapshot : ExecutorSnapshot) (desired : List DeclaredEnvelope) (name : String)
    (resources : RecipeResourceEnvelopeDocument) (storage : CandidateStorage) : AdmissionRequest where
  desired := desired
  candidate := ⟨name, resources.startupPeakBytes, resources.startupPeakBytes,
    requiredDiskGrowth resources storage⟩
  compatibilityVerified := true
  guardHealthy := snapshot.guardHeartbeat

/-! ## `serve_instance` -/

structure Candidate where
  artifacts : ModelArtifactsDocument
  policy : EnginePolicy
  artifactFingerprint : String

def selectCandidate (S : Site) (model : ModelDocument) : Except Response Candidate :=
  match model.artifacts with
  | none => .error (.problem 409 "spark.engine.artifacts-required"
      "model has no verified artifact traits for engine selection")
  | some artifacts =>
    match S.select artifacts with
    | .error e => .error (.problem 409 "spark.engine.unsupported" e)
    | .ok policy =>
      match Sparkplane.artifactFingerprint S.env artifacts with
      | none => .error (.problem 409 "spark.engine.artifacts-invalid"
          ("encode Spark artifact identity: " ++ S.encodeError))
      | some fingerprint => .ok ⟨artifacts, policy, fingerprint⟩

def profileInvalid (error : String) : Response := .problem 409 "spark.engine.profile-invalid" error

def previewAdmission (S : Site) (model : ModelDocument) (name : Option String) : Act Response := do
  match selectCandidate S model with
  | .error response => return response
  | .ok candidate =>
  match ← outside .snapshot with
  | .error _ => return executorUnavailable
  | .ok snapshot =>
  match candidate.policy.resourcesFor with
  | .error e => return profileInvalid e
  | .ok resources =>
  match ← query .desiredResourceEnvelopes with
  | .error e => return stateProblem e
  | .ok desired =>
  match normalizeInstanceName S.env (requestedName name model) with
  | none => return invalidInstanceName
  | some name =>
  match ← candidateStorage S candidate.policy model candidate.artifacts candidate.artifactFingerprint name with
  | .error _ => return executorUnavailable
  | .ok storage =>
  let now ← outside .unixMillis
  let report := evaluateAdmission snapshot.resourcePolicy snapshot.resources
    (admissionRequest snapshot desired name resources storage) now
  return .admission report ⟨candidate.policy.id, "configured_engine", candidate.policy.family,
    candidate.policy.image, candidate.policy.fingerprint, candidate.artifacts,
    candidate.artifactFingerprint, storage.compileCacheNamespace⟩

def admission (S : Site) (model : String) (name : Option String) (dryRun : Bool) : Act Response := do
  match ← requireExecutorForMutation with
  | some response => return response
  | none =>
  if !dryRun then
    return .problem 400 "spark.request.dry-run-required" "resource admission preview requires dry_run=true"
  else
  match ← query (.model model) with
  | .error e => return stateProblem e
  | .ok model => withLease ("admission:" ++ model.id) transitionBusy (previewAdmission S model name)

def requestedInstance (S : Site) (model : ModelDocument) (candidate : Candidate)
    (resources : RecipeResourceEnvelopeDocument) (profile : EngineProfile) (name : String) :
    InstanceDocument where
  schema := instanceSchema
  id := instanceId S.env name
  name := name
  modelId := model.id
  model := model.canonical
  modelCommit := model.commit
  engineId := candidate.policy.id
  engineFingerprint := candidate.policy.fingerprint
  artifacts := candidate.artifacts
  artifactFingerprint := candidate.artifactFingerprint
  objective := "inference"
  resources := resources
  contextWindow := profile.contextWindow
  defaultReasoningEffort := profile.defaultReasoningEffort
  generation := 0
  desired := .running
  observed := .creating
  endpoint := none
  healthy := false
  startedAt := none
  startupMilliseconds := none
  lastFailure := none
  restartFailures := 0
  restartSuppressed := false
  quarantine := none

def completeReusedServe (S : Site) (operationId : String) (inst : InstanceDocument) : Act Unit := do
  transition operationId .running (lifecycleProgress "existing" "matching instance already exists") none none
  transition operationId .succeeded (lifecycleProgress "complete" "matching instance reused")
    (S.instanceValue inst) none

def beginServe (S : Site) (operationId : String) (inst : InstanceDocument) :
    Act (Except StateError Database.AcceptedInstance) :=
  match validateInstance S.env inst with
  | .error e => return .error e
  | .ok _ => perform (.beginServe operationId inst)

def serveLease (name : String) : String := "serve:" ++ name

def releasing (leaseId : String) (response : Response) : Act Response := do
  perform (.release leaseId)
  return response

/-- The part of `serve_instance` that holds the lease; `run_serve` takes it
over. -/
def serveUnderLease (S : Site) (caller : Caller) (body : ServeRequest) (requested : InstanceDocument) :
    Act Response := do
  let name := requested.name
  match requiredIdempotency caller with
  | none => releasing (serveLease name) missingIdempotency
  | some key =>
  match canonicalRequestSha256 S.env body.toJson with
  | none =>
    releasing (serveLease name) (.problem 400 "spark.request.invalid" "serve request cannot be canonicalized")
  | some hash =>
  match ← acceptOperation caller.id "instance.serve" key hash (some name) with
  | .error e => releasing (serveLease name) (stateProblem e)
  | .ok accepted =>
  if accepted.reused then releasing (serveLease name) (.accepted accepted.operation)
  else
  match ← beginServe S accepted.operation.id requested with
  | .error e => releasing (serveLease name) (stateProblem e)
  | .ok begun =>
  if begun.reused then
    completeReusedServe S accepted.operation.id begun.inst
    releasing (serveLease name) (.accepted accepted.operation)
  else
    perform (.markWarming begun.inst.name begun.inst.generation)
    perform (.spawn (.runServe accepted.operation.id begun.inst))
    return .accepted accepted.operation

def admitServe (S : Site) (caller : Caller) (body : ServeRequest) (model : ModelDocument)
    (candidate : Candidate) (resources : RecipeResourceEnvelopeDocument) (profile : EngineProfile)
    (snapshot : ExecutorSnapshot) : Act Response := do
  match ← query .desiredResourceEnvelopes with
  | .error e => return stateProblem e
  | .ok desired =>
  match normalizeInstanceName S.env (requestedName body.name model) with
  | none => return invalidInstanceName
  | some name =>
  match ← candidateStorage S candidate.policy model candidate.artifacts candidate.artifactFingerprint name with
  | .error _ => return executorUnavailable
  | .ok storage =>
  let now ← outside .unixMillis
  let report := evaluateAdmission snapshot.resourcePolicy snapshot.resources
    (admissionRequest snapshot desired name resources storage) now
  if !report.admitted then
    return .problem 409 "spark.memory.admission-rejected" "aggregate resource admission rejected the instance"
  else
  if ← perform (.tryAcquire (serveLease name)) then
    serveUnderLease S caller body (requestedInstance S model candidate resources profile name)
  else return transitionBusy

def serveInstance (S : Site) (caller : Caller) (body : ServeRequest) : Act Response := do
  if body.dryRun then admission S body.model body.name true
  else
  match ← requireExecutorForMutation with
  | some response => return response
  | none =>
  match ← query (.model body.model) with
  | .error e => return stateProblem e
  | .ok model =>
  match selectCandidate S model with
  | .error response => return response
  | .ok candidate =>
  match candidate.policy.resourcesFor, candidate.policy.profileFor with
  | .error e, _ => return profileInvalid e
  | .ok _, .error e => return profileInvalid e
  | .ok resources, .ok profile =>
  match ← outside .snapshot with
  | .error _ => return executorUnavailable
  | .ok snapshot => admitServe S caller body model candidate resources profile snapshot

/-! ## `run_serve` -/

def serveCancelled (operationId : String) : Act Bool := do
  match ← query (.operation operationId) with
  | .ok operation => return operation.state = .cancelled
  | .error _ => return false

def instanceStopped (id : String) : Act Bool := do
  match ← query (.inst id) with
  | .ok inst => return inst.desired = .stopped
  | .error _ => return false

def cancelPrehealthServe (inst : InstanceDocument) : Act Unit := do
  let _ ← command (.beginStop inst.id)
  let _ ← outside (.stopInstance ⟨inst.id, inst.generation, 5⟩)
  let _ ← command (.setInstanceObserved inst.id inst.generation .absent none none none)
  return ()

def failureDetailWithLogs (detail : String) (lines : List String) : String :=
  let result := if lines.isEmpty then detail
    else detail ++ "; final engine log: " ++ " | ".intercalate lines
  String.ofList (result.toList.take 2048)

def startFailed (operationId detail : String) : ProblemDocument where
  schema := problemSchema
  type := "https://sparkplane.local/problems/spark-engine-start"
  code := "spark.instance.start-failed"
  status := 503
  detail := detail
  remediation := ["inspect the instance last_failure diagnostic before serving again"]
  operationId := some operationId

def failServe (operationId : String) (inst : InstanceDocument) (detail : String) : Act Unit := do
  perform (.drain inst.name inst.generation)
  let logs ← outside (.logs ⟨inst.id, inst.generation, 0, 12⟩)
  let failure := match logs with
    | .ok lines => failureDetailWithLogs detail lines
    | .error _ => detail
  let _ ← outside (.stopInstance ⟨inst.id, inst.generation, 5⟩)
  let _ ← command (.beginStop inst.id)
  let _ ← command (.setInstanceObserved inst.id inst.generation .failed none (some failure) none)
  transition operationId .failed (lifecycleProgress "failed" failure) none (some (startFailed operationId failure))

def readinessTriggered (operationId : String) (inst : InstanceDocument) : Act Bool := do
  if ← serveCancelled operationId then return true
  else if ← instanceStopped inst.id then return true
  else
  match ← outside (.inspectInstance ⟨inst.id, inst.generation, 0⟩) with
  | .ok running => return running ≠ some true
  | .error _ => return false

/-- One turn now, and as many more as fit before the deadline. -/
def waitUntilEngineReady (route : ObservedRoute) (interrupt : Act Bool) : Nat → Act Bool
  | 0 => do
    if ← interrupt then return false else outside (.healthReady route)
  | n + 1 => do
    if ← interrupt then return false
    else if ← outside (.healthReady route) then return true
    else waitUntilEngineReady route interrupt n

def observedRoute (S : Site) (o : ObservedEngine) : Option ObservedRoute :=
  if o.instanceId.isEmpty || 96 < o.instanceId.utf8ByteSize || o.generation = 0 || o.port = 0 ||
      !S.validRoute o then none
  else some ⟨o.instanceId, o.generation, (o.initPid, o.pidStartTimeTicks)⟩

/-- The repository part of a canonical model name. -/
def modelRepository (model : String) : String :=
  (((stripPre "huggingface:" model).bind (splitOnce '@')).map Prod.fst).getD ""

def expectation (inst : InstanceDocument) : ReconcileExpectation where
  instanceId := inst.id
  generation := inst.generation
  modelCommit := inst.modelCommit
  modelRepository := modelRepository inst.model
  engineId := inst.engineId
  engineFingerprint := inst.engineFingerprint
  artifacts := inst.artifacts
  artifactFingerprint := inst.artifactFingerprint

def startInput (inst : InstanceDocument) (operationId : String) : StartInstanceInput :=
  { expectation inst with operationId }

def stopInput (inst : InstanceDocument) (graceSeconds : Nat) : StopInstanceInput :=
  ⟨inst.id, inst.generation, graceSeconds⟩

def semanticFailureDetail (reason : String) : String :=
  "engine semantic capability contract failed: " ++ reason

def probeReadiness (S : Site) (operationId : String) (inst : InstanceDocument) (observed : ObservedEngine) :
    Act (Option ObservedRoute) :=
  match observedRoute S observed with
  | none => return none
  | some route => do
    let n ← outside .polls
    if ← waitUntilEngineReady route (readinessTriggered operationId inst) n then return some route
    else return none

def probeSemantics (observed : ObservedEngine) : Option ObservedRoute → Act (Option String)
  | none => return none
  | some route => do
    match ← outside (.semanticProbe route observed) with
    | .ok _ => return none
    | .error reason => return some reason

/-- From the started engine to the last look at the cancellation; none when
`run_serve` returns on the way. -/
def awaitReady (S : Site) (operationId : String) (inst : InstanceDocument) (observed : ObservedEngine) :
    Act (Option ObservedRoute) := do
  let ready ← probeReadiness S operationId inst observed
  if ← instanceStopped inst.id then return none
  else if ← serveCancelled operationId then
    cancelPrehealthServe inst
    return none
  else
  let failure ← probeSemantics observed ready
  match ready, failure with
  | some route, none =>
    if ← serveCancelled operationId then
      cancelPrehealthServe inst
      return none
    else return some route
  | _, failure =>
    perform (.drain inst.name inst.generation)
    failServe operationId inst ((failure.map semanticFailureDetail).getD "engine health check failed")
    return none

def createEngine (S : Site) (operationId : String) (inst : InstanceDocument) : Act (Option ObservedEngine) := do
  if ← serveCancelled operationId then
    cancelPrehealthServe inst
    return none
  else
  match ← outside (.prepareInstance (startInput inst operationId)) with
  | .error _ =>
    failServe operationId inst "exact image or network preparation failed"
    return none
  | .ok prepared =>
  if ← serveCancelled operationId then
    cancelPrehealthServe inst
    return none
  else
  match ← command (.transition operationId .running (lifecycleProgress "creating"
    "creating isolated engine generation") none none) with
  | .error _ => return none
  | .ok _ =>
  match ← outside (.startPrepared prepared) with
  | .error _ =>
    failServe operationId inst "engine creation failed"
    return none
  | .ok observed =>
  if ← serveCancelled operationId then
    cancelPrehealthServe inst
    return none
  else if !S.parseAddress observed.address then
    failServe operationId inst "executor returned an invalid bridge address"
    return none
  else return some observed

def startEngine (S : Site) (operationId : String) (inst : InstanceDocument) : Act (Option ObservedEngine) := do
  if ← outside (.acquireOwned .start) then
    match ← command (.transition operationId .running (lifecycleProgress "pulling-image"
      "ensuring exact digest image and managed network") none none) with
    | .error _ => return none
    | .ok _ => createEngine S operationId inst
  else
    failServe operationId inst "start queue unavailable"
    return none

def projectRouteHealth (inst : InstanceDocument) : Act InstanceDocument := do
  if !inst.healthy then return inst
  else
  match ← perform (.lookup inst.name) with
  | .healthy route =>
    if route.generation = inst.generation then return inst else return degraded
  | _ => return degraded
where
  degraded : InstanceDocument := { inst with observed := .degraded, healthy := false, endpoint := none }

def endpointOf (inst : InstanceDocument) : String := "/openai/" ++ inst.name ++ "/v1"

/-! ## Reconciliation -/

inductive ValidatedObservation where
  | missing
  | exactHealthy
  | exactUnhealthy
  | ambiguous

inductive ReconcileAction where
  | publishExact
  | restartExact
  | disableAndRecordFailure
  | stopExact
  | markAbsent
  | keepSuppressed
  | quarantine

def ReconcileAction.decide : InstanceDesiredState → ValidatedObservation → Bool → ReconcileAction
  | _, .ambiguous, _ => .quarantine
  | .stopped, .missing, _ => .markAbsent
  | .stopped, _, _ => .stopExact
  | .running, .missing, true => .keepSuppressed
  | .running, .missing, false => .restartExact
  | .running, .exactHealthy, false => .publishExact
  | .running, .exactHealthy, true => .stopExact
  | .running, .exactUnhealthy, true => .stopExact
  | .running, .exactUnhealthy, false => .disableAndRecordFailure

/-- None when the snapshot or the read fails. -/
def persistentRestartAllowed : Act (Option Bool) := do
  match ← outside .snapshot with
  | .error _ => return none
  | .ok snapshot =>
  match ← query .desiredResourceEnvelopes with
  | .error _ => return none
  | .ok desired =>
  if !snapshot.guardHeartbeat then return some false
  else
  let now ← outside .unixMillis
  return some (persistentSetFitsRebootEnvelope snapshot.resourcePolicy snapshot.resources desired now)

def exactRouteIsPublished (inst : InstanceDocument) (observed : ObservedEngine) : Act Bool := do
  match ← perform (.lookup inst.name) with
  | .healthy route => return route.generation = inst.generation &&
      route.upstream.processIdentity = (observed.initPid, observed.pidStartTimeTicks)
  | _ => return false

/-- `disable_restart`, then the failure; false when recording it fails. -/
def disableAndRecord (inst : InstanceDocument) : Act Bool := do
  let _ ← outside (.disableRestart (stopInput inst 0))
  let now ← outside .unixMillis
  match ← command (.recordRestartFailure inst.id inst.generation (now / 1000)) with
  | .ok _ => return true
  | .error _ => return false

def engineAnswers (route : ObservedRoute) (observed : ObservedEngine) : Act Bool := do
  let n ← outside .polls
  if ← waitUntilEngineReady route (pure false) n then
    match ← outside (.semanticProbe route observed) with
    | .ok _ => return true
    | .error _ => return false
  else return false

def promoteIfNeeded (inst : InstanceDocument) (observed : ObservedEngine) : Act Bool := do
  if observed.restartPolicy = "unless-stopped" then return true
  else
  match ← outside (.promoteRestart (stopInput inst 0)) with
  | .ok _ => return true
  | .error _ => return false

def publishEngine (inst : InstanceDocument) (observed : ObservedEngine) (route : ObservedRoute) :
    Act Bool := do
  match ← command (.setInstanceObserved inst.id inst.generation .healthy (some (endpointOf inst)) none none) with
  | .error _ => return false
  | .ok _ =>
    perform (.publish inst.name inst.model observed.servedModel route)
    return true

def isPublished (inst : InstanceDocument) (observed : ObservedEngine) : Act Bool :=
  if observed.running && observed.restartPolicy = "unless-stopped" then exactRouteIsPublished inst observed
  else return false

/-- False when the pass ends with an error. -/
def reconcileRunningEngine (S : Site) (inst : InstanceDocument) (observed : ObservedEngine) : Act Bool := do
  if ← isPublished inst observed then return true
  else
  perform (.markWarming inst.name inst.generation)
  if !observed.running then disableAndRecord inst
  else
  match ← persistentRestartAllowed with
  | none => return false
  | some false =>
    if observed.restartPolicy = "no" then return true
    else
      let _ ← outside (.disableRestart (stopInput inst 0))
      return true
  | some true =>
  if !S.parseAddress observed.address then return false
  else
  match observedRoute S observed with
  | none => return false
  | some route =>
  if !(← engineAnswers route observed) then disableAndRecord inst
  else if ← promoteIfNeeded inst observed then publishEngine inst observed route
  else return false

def recoveredServe (current : InstanceDocument) (ready : RouteLookup) : Bool :=
  current.desired = .running && current.observed = .healthy && current.healthy && current.endpoint.isSome &&
    match ready with
    | .healthy route => route.generation = current.generation
    | _ => false

def recoveredStop (current : InstanceDocument) (absent : RouteLookup) : Bool :=
  current.desired = .stopped && current.observed = .absent && !current.healthy && current.endpoint.isNone &&
    absent = .missing

inductive Recovered where
  | serve
  | stop
  deriving DecidableEq

def Recovered.kind : Recovered → String
  | .serve => "instance.serve"
  | .stop => "instance.stop"

def Recovered.target (inst : InstanceDocument) : Recovered → String
  | .serve => inst.name
  | .stop => inst.id

def Recovered.holds (current : InstanceDocument) (ready absent : RouteLookup) : Recovered → Bool
  | .serve => recoveredServe current ready
  | .stop => recoveredStop current absent

def recoverable (operations : List OperationDocument) (inst : InstanceDocument) (kind : Recovered) :
    Option OperationDocument :=
  operations.find? fun o =>
    o.kind = kind.kind && o.target = some (kind.target inst) && !o.state.isTerminal

def resumeOperation (operation : OperationDocument) : Act Unit :=
  if operation.state = .accepted then
    transition operation.id .running (lifecycleProgress "recovering" "resuming durable operation") none none
  else return ()

def completeRecoveredOperation (S : Site) (operations : List OperationDocument) (inst : InstanceDocument)
    (kind : Recovered) : Act Unit := do
  match recoverable operations inst kind with
  | none => return ()
  | some operation =>
  match ← query (.inst inst.id) with
  | .error _ => return ()
  | .ok current =>
  let ready ← perform (.lookup current.name)
  let absent ← perform (.lookup current.name)
  if !kind.holds current ready absent then return ()
  else
  let current ← projectRouteHealth current
  resumeOperation operation
  transition operation.id .succeeded
    (lifecycleProgress "complete" "operation recovered by exact reconciliation") (S.instanceValue current) none

def validatedObservation : Option ObservedEngine → ValidatedObservation
  | some engine => if engine.running then .exactHealthy else .exactUnhealthy
  | none => .missing

/-- The instance should not run: remove what is left of it. -/
def settleStopped (S : Site) (operations : List OperationDocument) (inst : InstanceDocument) : Act Bool := do
  match ← command (.setInstanceObserved inst.id inst.generation .absent none none none) with
  | .error _ => return false
  | .ok _ =>
    perform (.drain inst.name inst.generation)
    completeRecoveredOperation S operations inst .stop
    return true

def restartEngine (S : Site) (operations : List OperationDocument) (inst failed : InstanceDocument) :
    Act Bool := do
  if failed.restartSuppressed || failed.quarantine.isSome then return true
  else
  match operations.find? fun o => o.kind = "instance.serve" && o.target = some inst.name with
  | none => return true
  | some operation =>
  match ← outside (.prepareInstance (startInput inst operation.id)) with
  | .error _ => return true
  | .ok prepared =>
  match ← outside (.startPrepared prepared) with
  | .error _ => return true
  | .ok engine =>
  if ← reconcileRunningEngine S failed engine then
    completeRecoveredOperation S operations inst .serve
    return true
  else return false

def removeExited (inst : InstanceDocument) : Option ObservedEngine → Act Bool
  | none => return true
  | some _ => do
    match ← outside (.stopInstance (stopInput inst 0)) with
    | .ok _ => return true
    | .error _ => return false

def restartMissing (S : Site) (operations : List OperationDocument) (inst : InstanceDocument)
    (observed : Option ObservedEngine) : Act Bool := do
  perform (.markWarming inst.name inst.generation)
  match ← persistentRestartAllowed with
  | none => return false
  | some false => return true
  | some true =>
  if ← removeExited inst observed then
    let now ← outside .unixMillis
    match ← command (.recordRestartFailure inst.id inst.generation (now / 1000)) with
    | .error _ => return false
    | .ok failed => restartEngine S operations inst failed
  else return false

/-- One instance of the pass, under the lease; false when the pass ends with an
error. -/
def reconcileInstance (S : Site) (observed : Option ObservedEngine) (operations : List OperationDocument)
    (inst : InstanceDocument) : Act Bool := do
  match ReconcileAction.decide inst.desired (validatedObservation observed) inst.restartSuppressed with
  | .stopExact =>
    match ← outside (.stopInstance (stopInput inst 5)) with
    | .ok _ => settleStopped S operations inst
    | .error _ => return false
  | .markAbsent => settleStopped S operations inst
  | .keepSuppressed => return true
  | _ =>
    match observed.filter (·.running) with
    | some engine =>
      if ← reconcileRunningEngine S inst engine then
        completeRecoveredOperation S operations inst .serve
        return true
      else return false
    | none => restartMissing S operations inst observed

def matchedEngine (engines : List ObservedEngine) (inst : InstanceDocument) : Option ObservedEngine :=
  (engines.filter fun e => e.instanceId = inst.id && e.generation = inst.generation).getLast?

def reconcileLease (inst : InstanceDocument) : String :=
  "reconcile:" ++ inst.id ++ ":" ++ toString inst.generation

def reconcileInstances (S : Site) (engines : List ObservedEngine) (operations : List OperationDocument) :
    List InstanceDocument → Act Unit
  | [] => return ()
  | inst :: rest => do
    if ← withLease (reconcileLease inst) true (reconcileInstance S (matchedEngine engines inst) operations inst) then
      reconcileInstances S engines operations rest
    else return ()

def markQuarantined (q : QuarantineEvidence) : Act Unit :=
  match q.instanceId, q.generation with
  | some id, some generation => do
    let _ ← command (.markQuarantine id generation q.cause)
    return ()
  | _, _ => return ()

def markAllQuarantined : List QuarantineEvidence → Act Unit
  | [] => return ()
  | q :: rest => do
    withLease ("reconcile-quarantine:" ++ q.containerId) () (markQuarantined q)
    markAllQuarantined rest

/-- The instances of the pass, with the operations as they are now. -/
def reconcileListed (S : Site) (engines : List ObservedEngine) (instances : List InstanceDocument) :
    Act Unit := do
  match ← query .operationSummaries with
  | .error _ => return ()
  | .ok operations => reconcileInstances S engines operations instances

/-- The callers drop the result of the pass. -/
def reconcileOnce (S : Site) : Act Unit := do
  match ← query .listInstances with
  | .error _ => return ()
  | .ok instances =>
  let expected := (instances.filter fun i => i.desired = .running).map expectation
  match ← outside (.reconcileScan expected) with
  | .error _ => return ()
  | .ok scan =>
  match ← command (.reconcileQuarantine scan.quarantined) with
  | .error _ => return ()
  | .ok _ =>
  markAllQuarantined scan.quarantined
  reconcileListed S scan.matched instances

/-! ## The end of `run_serve` -/

def finishServe (S : Site) (operationId : String) (inst : InstanceDocument) (observed : ObservedEngine)
    (route : ObservedRoute) : Act Unit := do
  match ← outside (.promoteRestart (stopInput inst 0)) with
  | .error _ => failServe operationId inst "restart policy promotion failed"
  | .ok _ =>
  let startup ← outside .elapsedMillis
  match ← command (.setInstanceObserved inst.id inst.generation .healthy (some (endpointOf inst)) none
    (some startup)) with
  | .error _ => failServe operationId inst "healthy state persistence failed"
  | .ok healthy =>
  perform (.publish inst.name inst.model observed.servedModel route)
  let healthy ← projectRouteHealth healthy
  transition operationId .succeeded (lifecycleProgress "complete" "engine is healthy and durable")
    (S.instanceValue healthy) none
  reconcileOnce S

def serveEngine (S : Site) (operationId : String) (inst : InstanceDocument) : Act Unit := do
  match ← startEngine S operationId inst with
  | none => return ()
  | some observed =>
  match ← awaitReady S operationId inst observed with
  | none => return ()
  | some route => finishServe S operationId inst observed route

def runServe (S : Site) (operationId : String) (inst : InstanceDocument) : Act Response := do
  serveEngine S operationId inst
  releasing (serveLease inst.name) .finished

/-! ## `stop_instance` -/

/-- The engine was still there: ask once more, and stop it if it has exited. -/
def removeStopped (input : StopInstanceInput) : Act Bool := do
  match ← outside (.stopInstance input) with
  | .ok _ => return true
  | .error _ =>
    match ← outside (.inspectInstance input) with
    | .ok none => return true
    | _ => return false

def stopPolling (input : StopInstanceInput) : Nat → Act Bool
  | 0 => do
    match ← outside (.inspectInstance input) with
    | .ok none => return true
    | .ok (some false) => removeStopped input
    | _ => return false
  | n + 1 => do
    match ← outside (.inspectInstance input) with
    | .ok none => return true
    | .ok (some false) => removeStopped input
    | .ok (some true) => stopPolling input n
    | .error _ => return false

def stopExactGeneration (input : StopInstanceInput) : Act Bool := do
  match ← outside (.stopInstance input) with
  | .ok _ => return true
  | .error _ =>
    let n ← outside .polls
    stopPolling input n

def stopFailed (operationId : String) : ProblemDocument where
  schema := problemSchema
  type := "https://sparkplane.local/problems/spark-engine-stop"
  code := "spark.instance.stop-failed"
  status := 503
  detail := "exact managed generation could not be stopped"
  remediation := ["retry stop with the same instance identity"]
  operationId := some operationId

def runStop (S : Site) (operationId : String) (inst : InstanceDocument) (timeoutSeconds : Nat) :
    Act Response := do
  perform (.drain inst.name inst.generation)
  transition operationId .running (lifecycleProgress "stopping" "restart disabled; draining exact generation") none none
  if ← stopExactGeneration (stopInput inst timeoutSeconds) then
    let stopped ← command (.setInstanceObserved inst.id inst.generation .absent none none none)
    transition operationId .succeeded (lifecycleProgress "complete" "instance stopped; model and cache retained")
      (match stopped with
       | .ok inst => S.instanceValue inst
       | .error _ => none) none
    return .finished
  else
    transition operationId .failed (lifecycleProgress "failed" (stopFailed operationId).detail) none
      (some (stopFailed operationId))
    return .finished

def completeAbsentStop (S : Site) (operationId : String) (inst : InstanceDocument) : Act Unit := do
  transition operationId .running (lifecycleProgress "stopping" "exact generation is already absent") none none
  transition operationId .succeeded (lifecycleProgress "complete" "instance already stopped; model and cache retained")
    (S.instanceValue inst) none

/-- What an accepted stop does before it answers. -/
def startStop (S : Site) (operation : OperationDocument) (id : String) (timeoutSeconds : Nat) :
    Act Response := do
  match ← command (.beginStop id) with
  | .error e => return stateProblem e
  | .ok stopping =>
  if stopping.observed = .absent && stopping.quarantine.isNone then
    perform (.drain stopping.name stopping.generation)
    completeAbsentStop S operation.id stopping
    return .accepted operation
  else
    perform (.spawn (.runStop operation.id stopping timeoutSeconds))
    return .accepted operation

def stopInstance (S : Site) (caller : Caller) (id : String) (body : StopRequest) : Act Response := do
  if 300 < body.timeoutSeconds then
    return .problem 400 "spark.instance.invalid-timeout" "stop timeout must be at most 300 seconds"
  else
  match ← query (.inst id) with
  | .error e => return stateProblem e
  | .ok inst =>
  if body.dryRun then return .inst inst
  else
  match ← requireExecutorForMutation with
  | some response => return response
  | none =>
  match requiredIdempotency caller with
  | none => return missingIdempotency
  | some key =>
  match canonicalRequestSha256 S.env body.toJson with
  | none => return .problem 400 "spark.request.invalid" "stop request cannot be canonicalized"
  | some hash =>
  match ← acceptOperation caller.id "instance.stop" key hash (some inst.id) with
  | .error e => return stateProblem e
  | .ok accepted =>
  if accepted.reused then return .accepted accepted.operation
  else startStop S accepted.operation inst.id body.timeoutSeconds

/-! ## `cancel_operation` -/

def qualificationExecutorProblem : ErrorCode → Response
  | .badRequest => .problem 400 "spark.qualification.rejected"
      "executor rejected the signed qualification manifest"
  | .overloaded => .problem 409 "spark.qualification.busy"
      "another qualification job owns the GPU qualification slot"
  | .policyDenied => .problem 422 "spark.qualification.output-limit"
      "qualification output exceeded its signed transport limit"
  | .timeout => .problem 504 "spark.qualification.timeout" "qualification exceeded its signed deadline"
  | .cancelled => .problem 409 "spark.qualification.cancelled" "qualification was cancelled"
  | .other => .problem 503 "spark.qualification.executor-unavailable"
      "qualification executor is unavailable"

def cancelQualification (operationId : String) : Nat → Act (Except ErrorCode Bool)
  | 0 => return .ok false
  | n + 1 => do
    match ← outside (.cancelQualification operationId) with
    | .ok true => return .ok true
    | .ok false => cancelQualification operationId n
    | .error code => return .error code

/-- A running qualification must first acknowledge the cancellation. -/
def acknowledgeCancel (S : Site) (current : OperationDocument) : Act (Option Response) := do
  if current.kind = "qualification.run" && current.state = .running then
    if !S.env.parseUlid current.id then
      return some (.problem 503 "spark.qualification.operation-invalid"
        "durable qualification operation identity is invalid")
    else
    match ← cancelQualification current.id 32 with
    | .error code => return some (qualificationExecutorProblem code)
    | .ok true => return none
    | .ok false => return some (.problem 409 "spark.qualification.not-active"
        "executor did not acknowledge an active qualification request")
  else return none

/-- After the cancellation is committed: stop an engine that is not healthy yet. -/
def cleanUpServe (operation : OperationDocument) : Act Unit := do
  if operation.kind = "instance.serve" then
    match operation.target with
    | none => return ()
    | some target =>
    match ← query (.inst target) with
    | .error _ => return ()
    | .ok inst =>
    if inst.observed = .healthy then return ()
    else
      perform (.drain inst.name inst.generation)
      perform (.spawn (.cancelPrehealthServe operation.id inst))
  else return ()

def cancelOperation (S : Site) (caller : Caller) (id : String) : Act Response := do
  match ← requireExecutorForMutation with
  | some response => return response
  | none =>
  if (requiredIdempotency caller).isNone then return missingIdempotency
  else
  match ← query (.operation id) with
  | .error e => return stateProblem e
  | .ok current =>
  if caller.id ≠ "bootstrap-admin" ∧ caller.id ≠ current.actorTokenId then
    return .problem 403 "spark.operation.owner-required"
      "only the operation owner or bootstrap administrator may cancel it"
  else if current.state.isTerminal then
    return .problem 409 "spark.operation.terminal" "terminal operations are immutable"
  else
  match ← acknowledgeCancel S current with
  | some response => return response
  | none =>
  match ← command (.cancel id) with
  | .error e => return stateProblem e
  | .ok operation =>
    cleanUpServe operation
    return .accepted operation

end Sparkplane

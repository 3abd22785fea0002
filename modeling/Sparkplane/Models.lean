import Sparkplane.Serving

/-!
# Downloading and removing models

`download_model` with its `run_download` task and the task that forwards
progress, and `remove_model`.
-/

namespace Sparkplane

/-! ## Downloads -/

def stateProblemDocument (error : StateError) : ProblemDocument :=
  let (status, code, detail) := match error with
    | .overloaded => (503, "spark.state.overloaded", "durable state queue is saturated")
    | .conflict detail => (409, "spark.state.conflict", detail)
    | .notFound => (404, "spark.resource.not-found", "resource was not found")
    | .invalid detail => (400, "spark.request.invalid", detail)
    | .unavailable _ => (503, "spark.database.unavailable", "durable Spark state is unavailable")
  ⟨problemSchema, "https://sparkplane.local/problems/" ++ code, code, status, detail, [], none⟩

def acquisitionProblemDocument (error : AcquisitionError) : ProblemDocument :=
  let (status, code) := match error.failure with
    | .authentication => (403, "spark.hub.authentication")
    | .notFound => (404, "spark.hub.not-found")
    | .diskReserve => (409, "spark.disk.reserve")
    | .policy => (409, "spark.model.policy")
    | .cancelled => (409, "spark.operation.cancelled")
    | .xetTransport | .xetIntegrity | .noProgress | .other => (500, "spark.model.download-failed")
  ⟨problemSchema, "https://sparkplane.local/problems/" ++ code, code, status, error.detail, [], none⟩

def acquisitionProblem (error : AcquisitionError) : Response :=
  let document := acquisitionProblemDocument error
  .problem document.status document.code document.detail

/-- `fail_download` and `fail_state_download`. -/
def failDownload (operationId : String) (problem : ProblemDocument) : Act Unit :=
  transition operationId .failed (lifecycleProgress "failed" problem.detail) none (some problem)

def bytesProgress (stage : String) (current : Nat) (total : Option Nat) (message : String) : OperationProgress :=
  ⟨stage, some current, total, some "bytes", message⟩

def planValue (plan : AcquisitionPlan) : Json :=
  .object [("repository", .string plan.repository), ("commit", .string plan.commit),
    ("logical_bytes", .number plan.logicalBytes), ("unique_bytes", .number plan.uniqueBytes)]

def forwardUpdates (operationId : String) : Nat → Act Response
  | 0 => return .finished
  | n + 1 => do
    let update ← outside .receiveProgress
    transition operationId .running (bytesProgress "transferring" update.currentBytes update.totalBytes
      ((update.file.map ("transferring " ++ ·)).getD "transferring immutable snapshot")) none none
    forwardUpdates operationId n

/-- The loop ends when the transfer drops its end of the channel. -/
def forwardProgress (operationId : String) : Act Response := do
  let n ← outside .polls
  forwardUpdates operationId n

/-- Look for a cancellation while the transfer runs; true when there was one. -/
def watchCancellation (operationId : String) : Nat → Act Bool
  | 0 => return false
  | n + 1 => do
    if ← serveCancelled operationId then return true else watchCancellation operationId n

def promoteDownload (S : Site) (job : DownloadJob) (model : ModelDocument) : Act Unit := do
  match ← command (.promoteModel model job.updateAlias) with
  | .ok model =>
    transition job.operationId .succeeded (bytesProgress "complete" model.logicalBytes (some model.logicalBytes)
        "immutable snapshot verified and promoted") (S.modelValue model) none
  | .error e => failDownload job.operationId (stateProblemDocument e)

def transferModel (S : Site) (job : DownloadJob) (plan : AcquisitionPlan) : Act Unit := do
  perform (.spawn (.forwardProgress job.operationId))
  let n ← outside .polls
  if ← watchCancellation job.operationId n then return ()
  else
  match ← outside (.acquire plan job.aliasName) with
  | .ok model => promoteDownload S job model
  | .error e => failDownload job.operationId (acquisitionProblemDocument e)

def downloadOnce (S : Site) (job : DownloadJob) : Act Unit := do
  if ← outside (.acquireOwned .download) then
    match ← outside (.resolveSelected job.repository job.revision job.selection) with
    | .error e => failDownload job.operationId (acquisitionProblemDocument e)
    | .ok plan =>
    match ← command (.transition job.operationId .running (bytesProgress "transferring" 0
      (some plan.logicalBytes) "resolved immutable commit; starting Rust Hub transfer")
      (some (planValue plan)) none) with
    | .error _ => return ()
    | .ok _ => transferModel S job plan
  else return ()

def runDownload (S : Site) (job : DownloadJob) : Act Response := do
  downloadOnce S job
  return .finished

def downloadModel (S : Site) (caller : Caller) (body : DownloadRequest) : Act Response := do
  match S.resolveDownloadTarget body with
  | .error (code, detail) => return .problem 400 code detail
  | .ok target =>
  if body.dryRun then
    match ← outside (.resolveSelected target.repository target.revision target.selection) with
    | .ok plan => return .downloadPlan ⟨"sparkplane.download-plan/v1", plan.repository, plan.commit,
        some plan.artifacts, plan.logicalBytes, plan.uniqueBytes, plan.temporaryBytes, S.diskReserveBytes⟩
    | .error e => return acquisitionProblem e
  else
  match requiredIdempotency caller with
  | none => return missingIdempotency
  | some key =>
  match canonicalRequestSha256 S.env body.toJson with
  | none => return .problem 400 "spark.request.invalid" "download request cannot be canonicalized"
  | some hash =>
  match ← acceptOperation caller.id "model.download" key hash (some body.repository) with
  | .error e => return stateProblem e
  | .ok accepted =>
  if accepted.reused then return .accepted accepted.operation
  else
    perform (.spawn (.runDownload { target with
      operationId := accepted.operation.id, updateAlias := body.updateAlias }))
    return .accepted accepted.operation

/-! ## Removal -/

def validComponent (value : List Char) : Bool :=
  !value.isEmpty && value ≠ ['.'] && value ≠ ['.', '.'] && value.length ≤ 128 &&
    value.all fun c => isAsciiLowercase c || isAsciiUppercase c || isAsciiDigit c || c ∈ ['.', '_', '-']

/-- `Repository::parse`: one owner and one name. -/
def parseRepository (value : String) : Bool :=
  match value.toList.splitOn '/' with
  | [owner, name] => validComponent owner && validComponent name
  | _ => false

def parseCommit (value : String) : Bool :=
  value.utf8ByteSize = 40 && value.toList.all fun c => isAsciiHexdigit c && !isAsciiUppercase c

def stateInvalid : Response :=
  .problem 500 "spark.model.state-invalid" "stored model identity is invalid"

def removeFailed : Response :=
  .problem 500 "spark.model.remove-failed" "model removal failed closed"

def removalDocument (model : ModelDocument) (plan : RemovalPlan) : RemovalPlanDocument where
  schema := "sparkplane.removal-plan/v1"
  modelId := model.id
  snapshotBytes := model.logicalBytes
  reclaimableBytes := plan.reclaimableBytes
  sharedBytes := model.logicalBytes - plan.reclaimableBytes
  activeInstances := model.activeInstances
  aliases := model.aliases
  requiresConfirmation := 0 < plan.reclaimableBytes

/-- What an accepted removal does; false when one of its steps fails. -/
def performRemoval (S : Site) (operationId modelId : String) (plan : RemovalPlan)
    (document : RemovalPlanDocument) : Act Bool := do
  match ← command (.transition operationId .running (bytesProgress "removing" 0
    (some plan.reclaimableBytes) "removing only unreferenced native-cache data") none none) with
  | .error _ => return false
  | .ok _ =>
  if !(← perform (.executeRemoval plan)) then return false
  else
  match ← command (.removeModel modelId) with
  | .error _ => return false
  | .ok _ =>
    transition operationId .succeeded (bytesProgress "complete" plan.reclaimableBytes
      (some plan.reclaimableBytes) "unreferenced model data removed") (S.removalValue document) none
    return true

def answerOperation (operationId : String) : Act Response := do
  match ← query (.operation operationId) with
  | .ok operation => return .accepted operation
  | .error e => return stateProblem e

def removeModel (S : Site) (caller : Caller) (id : String) (body : RemoveModelRequest) : Act Response := do
  match ← query (.model id) with
  | .error e => return stateProblem e
  | .ok model =>
  if !parseRepository model.repository || !parseCommit model.commit then return stateInvalid
  else
  match ← perform (.planRemoval model.repository model.commit (!model.activeInstances.isEmpty)) with
  | none => return .problem 409 "spark.model.active" "active model data cannot be removed"
  | some plan =>
  let document := removalDocument model plan
  if body.dryRun then return .removalPlan document
  else if document.requiresConfirmation && !body.confirmed then
    return .problem 400 "spark.confirmation.required" "model removal requires explicit confirmation"
  else
  match requiredIdempotency caller with
  | none => return missingIdempotency
  | some key =>
  match canonicalRequestSha256 S.env body.toJson with
  | none => return .problem 400 "spark.request.invalid" "removal request cannot be canonicalized"
  | some hash =>
  match ← acceptOperation caller.id "model.remove" key hash (some model.id) with
  | .error e => return stateProblem e
  | .ok accepted =>
  if accepted.reused then answerOperation accepted.operation.id
  else if ← performRemoval S accepted.operation.id model.id plan document then
    answerOperation accepted.operation.id
  else return removeFailed

end Sparkplane

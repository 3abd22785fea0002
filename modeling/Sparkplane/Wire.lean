import Mathlib.Algebra.GroupWithZero.Nat
import Mathlib.Data.List.Basic

/-!
# Wire documents

The documents of `wire.rs` that the database and the agent read and write.
Times are milliseconds: `now` renders a fixed-width UTC text whose order is the
order of time. A machine integer is a `Nat`; the conversions that can fail are
where the code has them.
-/

namespace Sparkplane

abbrev Timestamp := Nat

inductive Json where
  | null
  | bool (b : Bool)
  | number (n : Int)
  | string (s : String)
  | array (l : List Json)
  | object (l : List (String × Json))

namespace Json

/-- `Value::get` with a string index. -/
def get (key : String) : Json → Option Json
  | .object l => (l.find? fun p => p.1 = key).map Prod.snd
  | _ => none

def asStr : Json → Option String
  | .string s => some s
  | _ => none

def ofOption {α : Type} (f : α → Json) : Option α → Json
  | some a => f a
  | none => .null

end Json

/-- What the code takes from its crates and its configuration: `sha2`, `hmac`
(key, then message), `serde_json`, `ulid`, the standard parsers, `chrono`, and
the token pepper. -/
structure Env where
  sha256 : String → String
  hmac : String → String → String
  toVec : Json → Option String
  parseUlid : String → Bool
  parseIpAddrIsIpv4 : String → Option Bool
  parseU8 : String → Option Nat
  isWhitespace : Char → Bool
  parseRfc3339 : String → Option Timestamp
  /-- The time SQLite reads in a text, none for NULL. -/
  julianday : String → Option Timestamp
  toRfc3339 : Timestamp → String
  pepper : String

def isAsciiHexdigit (c : Char) : Bool :=
  ('0' ≤ c && c ≤ '9') || ('a' ≤ c && c ≤ 'f') || ('A' ≤ c && c ≤ 'F')

def isAsciiLowercase (c : Char) : Bool := 'a' ≤ c && c ≤ 'z'

def isAsciiUppercase (c : Char) : Bool := 'A' ≤ c && c ≤ 'Z'

def isAsciiDigit (c : Char) : Bool := '0' ≤ c && c ≤ '9'

def isAsciiGraphic (c : Char) : Bool := '!' ≤ c && c ≤ '~'

/-- `str::strip_prefix`. -/
def stripPre (pre s : String) : Option String :=
  if pre.toList.isPrefixOf s.toList then some (String.ofList (s.toList.drop pre.length)) else none

theorem stripPre_append (pre s : String) : stripPre pre (pre ++ s) = some s := by
  unfold stripPre
  rw [String.toList_append, if_pos (List.isPrefixOf_iff_prefix.mpr (List.prefix_append _ _)), ← String.length_toList,
    List.drop_left, String.ofList_toList]

/-- `i64::try_from` of an unsigned value. -/
def fitsI64 (n : Nat) : Bool := n < 2 ^ 63

/-! ## Operations -/

inductive OperationState where
  | accepted
  | running
  | succeeded
  | failed
  | cancelled
  deriving DecidableEq

def OperationState.isTerminal : OperationState → Bool
  | .succeeded | .failed | .cancelled => true
  | _ => false

structure OperationProgress where
  stage : String
  current : Option Nat
  total : Option Nat
  unit : Option String
  message : String
  deriving DecidableEq

structure ProblemDocument where
  schema : String
  type : String
  code : String
  status : Nat
  detail : String
  remediation : List String
  operationId : Option String

def problemSchema : String := "sparkplane.problem/v1"

/-- The columns of an operation; the document adds its id. -/
structure OperationRow where
  kind : String
  actorTokenId : String
  target : Option String
  state : OperationState
  progress : OperationProgress
  createdAt : Timestamp
  updatedAt : Timestamp
  result : Option Json
  problem : Option ProblemDocument

structure OperationDocument extends OperationRow where
  id : String

structure EventRow where
  state : OperationState
  progress : OperationProgress
  occurredAt : Timestamp
  deriving DecidableEq

structure OperationEvent extends EventRow where
  id : Nat
  operationId : String

/-! ## Models and instances -/

inductive ModelArtifactFormat where
  | gguf
  | safetensors
  deriving DecidableEq

inductive ModelArtifactRole where
  | projector
  | weightShard
  | custom (s : String)
  deriving DecidableEq

def ModelArtifactRole.asStr : ModelArtifactRole → String
  | .projector => "projector"
  | .weightShard => "weight_shard"
  | .custom s => s

structure ModelArtifactFileDocument where
  path : String
  bytes : Nat
  sha256 : Option String
  deriving DecidableEq

structure ModelAuxiliaryArtifactDocument where
  role : ModelArtifactRole
  path : String
  bytes : Nat
  sha256 : Option String
  deriving DecidableEq

structure ModelArtifactSelectorDocument where
  role : ModelArtifactRole
  path : String
  deriving DecidableEq

structure ModelArtifactsDocument where
  schema : String
  format : ModelArtifactFormat
  primary : ModelArtifactFileDocument
  auxiliary : List ModelAuxiliaryArtifactDocument
  quantization : Option String
  capabilities : List String
  configuredAlias : Option String
  engineProfile : Option String
  deriving DecidableEq

namespace ModelArtifactsDocument

def toJson (a : ModelArtifactsDocument) : Json :=
  let sha : Option String → Json := .ofOption .string
  .object <| [ ("schema", .string a.schema),
    ("format", .string (match a.format with | .gguf => "gguf" | .safetensors => "safetensors")),
    ("primary", .object [("path", .string a.primary.path), ("bytes", .number a.primary.bytes),
      ("sha256", sha a.primary.sha256)]),
    ("auxiliary", .array (a.auxiliary.map fun x => .object [("role", .string x.role.asStr),
      ("path", .string x.path), ("bytes", .number x.bytes), ("sha256", sha x.sha256)])),
    ("quantization", .ofOption .string a.quantization),
    ("capabilities", .array (a.capabilities.map .string)),
    ("configured_alias", .ofOption .string a.configuredAlias)] ++
    match a.engineProfile with
    | some p => [("engine_profile", .string p)]
    | none => []

end ModelArtifactsDocument

def artifactFingerprint (E : Env) (a : ModelArtifactsDocument) : Option String :=
  (E.toVec a.toJson).map fun encoded => "sha256:" ++ E.sha256 encoded

structure RecipeResourceEnvelopeDocument where
  imageBytes : Nat
  startupPeakBytes : Nat
  steadyPeakBytes : Nat
  compileCacheBytes : Nat
  deriving DecidableEq

inductive InstanceDesiredState where
  | running
  | stopped
  deriving DecidableEq

inductive InstanceObservedState where
  | absent
  | creating
  | warming
  | healthy
  | degraded
  | stopping
  | failed
  deriving DecidableEq

def instanceSchema : String := "sparkplane.instance/v2"

structure InstanceDocument where
  schema : String
  id : String
  name : String
  modelId : String
  model : String
  modelCommit : String
  engineId : String
  engineFingerprint : String
  artifacts : ModelArtifactsDocument
  artifactFingerprint : String
  objective : String
  resources : RecipeResourceEnvelopeDocument
  contextWindow : Nat
  defaultReasoningEffort : Option String
  generation : Nat
  desired : InstanceDesiredState
  observed : InstanceObservedState
  endpoint : Option String
  healthy : Bool
  startedAt : Option Timestamp
  startupMilliseconds : Option Nat
  lastFailure : Option String
  restartFailures : Nat
  restartSuppressed : Bool
  quarantine : Option String
  deriving DecidableEq

structure ModelDocument where
  schema : String
  id : String
  canonical : String
  repository : String
  commit : String
  snapshot : String
  artifacts : Option ModelArtifactsDocument
  logicalBytes : Nat
  uniqueBytes : Nat
  aliases : List String
  activeInstances : List String
  transport : String
  verifiedAt : Timestamp
  gated : Bool
  license : Option String
  deriving DecidableEq

/-! ## Requests -/

structure ServeRequest where
  model : String
  name : Option String
  dryRun : Bool
  deriving DecidableEq

structure StopRequest where
  timeoutSeconds : Nat
  dryRun : Bool
  deriving DecidableEq

structure RemoveModelRequest where
  dryRun : Bool
  confirmed : Bool
  deriving DecidableEq

structure DownloadRequest where
  repository : String
  revision : String
  aliasName : Option String
  artifact : Option String
  auxiliary : List ModelArtifactSelectorDocument
  updateAlias : Bool
  dryRun : Bool
  deriving DecidableEq

def ServeRequest.toJson (r : ServeRequest) : Json :=
  .object [("model", .string r.model), ("name", .ofOption .string r.name), ("dry_run", .bool r.dryRun)]

def StopRequest.toJson (r : StopRequest) : Json :=
  .object [("timeout_seconds", .number r.timeoutSeconds), ("dry_run", .bool r.dryRun)]

def RemoveModelRequest.toJson (r : RemoveModelRequest) : Json :=
  .object [("dry_run", .bool r.dryRun), ("confirmed", .bool r.confirmed)]

def DownloadRequest.toJson (r : DownloadRequest) : Json :=
  .object <| [("repository", .string r.repository), ("revision", .string r.revision),
      ("alias", .ofOption .string r.aliasName)] ++
    (match r.artifact with
     | some a => [("artifact", .string a)]
     | none => []) ++
    (if r.auxiliary.isEmpty then []
     else [("auxiliary", .array (r.auxiliary.map fun x =>
       .object [("role", .string x.role.asStr), ("path", .string x.path)]))]) ++
    [("update_alias", .bool r.updateAlias), ("dry_run", .bool r.dryRun)]

inductive TokenScope where
  | analyticsRead
  | modelsRead
  | modelsWrite
  | instancesRead
  | instancesWrite
  | inference
  | logsRead
  | operationsRead
  | operationsCancel
  | benchmarksRead
  | benchmarksWrite
  | admin
  deriving DecidableEq

def TokenScope.asStr : TokenScope → String
  | .analyticsRead => "analytics:read"
  | .modelsRead => "models:read"
  | .modelsWrite => "models:write"
  | .instancesRead => "instances:read"
  | .instancesWrite => "instances:write"
  | .inference => "inference"
  | .logsRead => "logs:read"
  | .operationsRead => "operations:read"
  | .operationsCancel => "operations:cancel"
  | .benchmarksRead => "benchmarks:read"
  | .benchmarksWrite => "benchmarks:write"
  | .admin => "admin"

structure TokenCreateRequest where
  name : String
  scopes : List TokenScope
  allowedCidrs : List String
  expiresAt : Option String
  maxConcurrentInference : Nat
  deriving DecidableEq

def TokenCreateRequest.toJson (r : TokenCreateRequest) : Json :=
  .object [("name", .string r.name), ("scopes", .array (r.scopes.map fun s => .string s.asStr)),
    ("allowed_cidrs", .array (r.allowedCidrs.map .string)),
    ("expires_at", .ofOption .string r.expiresAt),
    ("max_concurrent_inference", .number r.maxConcurrentInference)]

structure TokenDocument where
  id : String
  name : String
  scopes : List TokenScope
  allowedCidrs : List String
  expiresAt : Option String
  maxConcurrentInference : Nat
  createdAt : Timestamp
  lastUsedAt : Option Timestamp
  revokedAt : Option Timestamp
  deriving DecidableEq

structure LaunchSessionRequest where
  id : String
  inst : String
  integration : String
  ecoMode : String
  deriving DecidableEq

def LaunchSessionRequest.toJson (r : LaunchSessionRequest) : Json :=
  .object [("id", .string r.id), ("instance", .string r.inst), ("integration", .string r.integration),
    ("eco_mode", .string r.ecoMode)]

structure LaunchSessionDocument where
  id : String
  inst : String
  model : String
  integration : String
  ecoMode : String
  startedAt : Timestamp
  finishedAt : Option Timestamp

def canonicalRequestSha256 (E : Env) (request : Json) : Option String :=
  (E.toVec request).map E.sha256

/-! ## A concrete environment -/

def escapeChar (c : Char) : List Char :=
  if c = '"' then ['\\', '"'] else if c = '\\' then ['\\', '\\'] else [c]

def quote (s : String) : String := "\"" ++ String.ofList (s.toList.flatMap escapeChar) ++ "\""

mutual

/-- Compact JSON, as `serde_json` writes it for texts without control characters. -/
def Json.render : Json → String
  | .null => "null"
  | .bool b => if b then "true" else "false"
  | .number n => toString n
  | .string s => quote s
  | .array l => "[" ++ ",".intercalate (renderItems l) ++ "]"
  | .object l => "\x7b" ++ ",".intercalate (renderFields l) ++ "\x7d"

def renderItems : List Json → List String
  | [] => []
  | j :: l => j.render :: renderItems l

def renderFields : List (String × Json) → List String
  | [] => []
  | f :: l => renderField f :: renderFields l

def renderField : String × Json → String
  | (k, v) => quote k ++ ":" ++ v.render

end

def exampleArtifacts : ModelArtifactsDocument where
  schema := "sparkplane.model-artifacts/v2"
  format := .safetensors
  primary := ⟨"model.safetensors", 8, none⟩
  auxiliary := []
  quantization := some "FP8"
  capabilities := ["text_generation"]
  configuredAlias := none
  engineProfile := none

def exampleTokenRequest : TokenCreateRequest := ⟨"ci", [.inference], [], none, 1⟩

def exampleServe (name : String) : ServeRequest := ⟨"m_1", some name, false⟩

def exampleStop : StopRequest := ⟨30, false⟩

def exampleRemoval : RemoveModelRequest := ⟨false, true⟩

def exampleDigests : List (String × String) :=
  [(exampleArtifacts.toJson.render, "12502fe575efbe3c7b917cc9dcc3cc02300c81a5552b8ee5607562a746432bcb"),
   (exampleTokenRequest.toJson.render, "8b4ee0bb7135136f942e8cc19bb2df181a7552982b933e530c2ac144e9674a2f"),
   ((exampleServe "m").toJson.render, "299f138924ad954791de59f2cfdf258b9ba042b9f20e9ccc5d27a92b2817df23"),
   ((exampleServe "n").toJson.render, "aa1cf34f9f31b60cfd1a0ae57960fb9a2e84b98d7c9de91baff73a6e1be85e1e"),
   (exampleStop.toJson.render, "c3c4a327394e70b9478179cae83ff7331b3bce413eb2a2fa2708b5f35d7821ab"),
   (exampleRemoval.toJson.render, "b45d8ab482fd5e8a88ad2fa8e35d5cd4a98b9121f599c5eeea94ba45fa6fb9fe"),
   ("01JAAAAAAAAAAAAAAAAAAAAAAA", "bf3463deb595f44a2d428bf5e8600db134e6851dcfc88de588e25fe7299ed45e"),
   ("m", "62c66a7a5dd70c3146618063c344e531e6d4b59e379808443ce962b3abd63c5a"),
   ("n", "1b16b1df538ba12dc3f97edbb85caa7050d46c148134290feba80f8236c83db9")]

def exampleEnv : Env where
  sha256 s := ((exampleDigests.find? fun p => p.1 = s).map Prod.snd).getD
    "e3b0c44298fc1c149afbf4c8996fb92427ae41e4649b934ca495991b7852b855"
  hmac key message := key ++ message
  toVec j := some j.render
  parseUlid s := s.utf8ByteSize = 26
  parseIpAddrIsIpv4 _ := none
  parseU8 _ := none
  isWhitespace c := c = ' '
  parseRfc3339 _ := none
  julianday _ := none
  toRfc3339 _ := ""
  pepper := "pepper"

end Sparkplane

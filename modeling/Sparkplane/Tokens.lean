import Sparkplane.Instances

/-!
# The database: tokens and launch sessions

The token commands of `state.rs` and the session commands of `sessions.rs`. A
launch session owns one token; finishing the session revokes it. Usage metering
is left out.
-/

namespace Sparkplane

/-! ## Reads -/

/-- No comparison with NULL holds. -/
def TokenRow.active (E : Env) (now : Timestamp) (t : TokenRow) : Bool :=
  t.revokedAt.isNone &&
    match t.expiresAt with
    | none => true
    | some e => (E.julianday e).any (now < ·)

def Db.tokenScopes (db : Db) (id : String) (legacy : List TokenScope) : List TokenScope :=
  if (db.panelTokenScopes.get? id).isSome then legacy ++ [.analyticsRead] else legacy

def Db.tokenDocument (db : Db) (id : String) (t : TokenRow) : TokenDocument where
  id := id
  name := t.name
  scopes := db.tokenScopes id t.scopes
  allowedCidrs := t.allowedCidrs
  expiresAt := t.expiresAt
  maxConcurrentInference := t.maxConcurrentInference
  createdAt := t.createdAt
  lastUsedAt := t.lastUsedAt
  revokedAt := t.revokedAt

def Db.readToken (db : Db) (id : String) : Except StateError TokenDocument :=
  match db.tokens.get? id with
  | some t => .ok (db.tokenDocument id t)
  | none => .error .notFound

structure TokenVerifier where
  token : TokenDocument
  verifier : String
  deriving DecidableEq

def TokenVerifier.verify (E : Env) (v : TokenVerifier) (secret : String) : Bool :=
  E.hmac E.pepper (v.token.id ++ secret) = v.verifier

structure AuthSnapshot where
  tokens : List (String × TokenVerifier) := []
  deriving DecidableEq

def AuthSnapshot.get? (s : AuthSnapshot) (id : String) : Option TokenVerifier :=
  (s.tokens.find? fun t => t.1 = id).map Prod.snd

def Db.loadSnapshot (E : Env) (now : Timestamp) (db : Db) : AuthSnapshot where
  tokens := ((db.tokens.select fun _ t => t.active E now).take 1024).map fun t =>
    (t.1, ⟨db.tokenDocument t.1 t.2, t.2.verifier⟩)

def Db.readSession (db : Db) (id : String) : Except StateError LaunchSessionDocument :=
  match db.sessions.get? id with
  | some s => .ok ⟨id, s.inst, s.model, s.integration, s.ecoMode, s.startedAt, s.finishedAt⟩
  | none => .error .notFound

/-! ## Validation -/

def validateIdempotency (key hash : String) : Except StateError Unit := do
  if key.isEmpty || 128 < key.utf8ByteSize || !key.toList.all isAsciiGraphic then
    throw (.invalid "Idempotency-Key must contain 1..128 visible ASCII bytes")
  if hash.utf8ByteSize ≠ 64 || !hash.toList.all isAsciiHexdigit then
    throw (.invalid "canonical request hash is invalid")

def splitOnce (c : Char) (s : String) : Option (String × String) :=
  let l := s.toList
  if c ∈ l then
    some (String.ofList (l.takeWhile (· ≠ c)), String.ofList ((l.dropWhile (· ≠ c)).drop 1))
  else none

def validCidr (E : Env) (value : String) : Bool :=
  value.utf8ByteSize ≤ 64 &&
    match splitOnce '/' value with
    | none => false
    | some (address, suffix) =>
      match E.parseIpAddrIsIpv4 address, E.parseU8 suffix with
      | some v4, some n => n ≤ if v4 then 32 else 128
      | _, _ => false

def validateTokenRequest (E : Env) (now : Timestamp) (r : TokenCreateRequest) :
    Except StateError Unit := do
  if r.name.toList.all E.isWhitespace || 80 < r.name.utf8ByteSize then
    throw (.invalid "token name must contain 1..80 bytes")
  if r.scopes.isEmpty || 12 < r.scopes.length then throw (.invalid "token must contain 1..12 scopes")
  if 16 < r.allowedCidrs.length || r.allowedCidrs.any (!validCidr E ·) then
    throw (.invalid "token CIDR policy is invalid")
  if r.maxConcurrentInference = 0 || 64 < r.maxConcurrentInference then
    throw (.invalid "token inference concurrency must be in 1..64")
  match r.expiresAt with
  | none => pure ()
  | some expiry =>
    match E.parseRfc3339 expiry with
    | none => throw (.invalid "token expiry must be RFC 3339")
    | some t => if t ≤ now then throw (.invalid "token expiry must be in the future")

namespace Database

variable (E : Env) (d : Draw)

/-! ## Token commands -/

structure CreatedToken where
  operation : OperationDocument
  token : TokenDocument
  bearerToken : Option String

def tokenProgress (stage : String) (current : Nat) (message : String) : OperationProgress :=
  ⟨stage, some current, some 1, some "token", message⟩

def maxActiveTokens : Nat := 1024

def atCapacity (db : Db) : Bool :=
  maxActiveTokens ≤ (db.tokens.select fun _ t => t.active E d.now).length

def bearer (d : Draw) : String := "sparkplane_" ++ d.tokenId ++ "_" ++ d.secret

def secretGone : StateError :=
  .conflict "created token secret is no longer retrievable; use a new idempotency key"

/-- `Running`, then `Succeeded` with the token's id. -/
def completeToken (operationId tokenId : String) (running done : OperationProgress) :
    Cmd OperationDocument := do
  let running ← (transition d operationId .running running none none).commit
  (transition d running.id .succeeded done (some (.object [("token_id", .string tokenId)])) none).commit

def insertToken (id : String) (row : TokenRow) : Sql Unit :=
  Tx.execute sqlConstraint fun db => (db.tokens.insert id row).map fun t => { db with tokens := t }

def encodeRequest (request : Json) (message : String) : Except StateError String :=
  match canonicalRequestSha256 E request with
  | some hash => .ok hash
  | none => .error (.invalid message)

def newToken (request : TokenCreateRequest) : TokenRow where
  name := request.name
  verifier := E.hmac E.pepper (d.tokenId ++ d.secret)
  scopes := request.scopes.filter (· ≠ .analyticsRead)
  allowedCidrs := request.allowedCidrs
  expiresAt := request.expiresAt
  maxConcurrentInference := request.maxConcurrentInference
  createdAt := d.now
  lastUsedAt := none
  revokedAt := none

def publishToken (operationId : String) : Cmd CreatedToken := do
  let operation ← completeToken d operationId d.tokenId (tokenProgress "publishing" 0 "publishing token policy")
    (tokenProgress "complete" 1 "token policy published")
  let token ← Batch.query (·.readToken d.tokenId)
  return ⟨operation, token, some (bearer d)⟩

/-- What `create_token` does for an operation that is new. -/
def storeToken (request : TokenCreateRequest) (operationId : String) : Cmd CreatedToken := do
  let full ← Batch.query fun db => .ok (atCapacity E d db)
  Batch.require (!full) .overloaded
  (insertToken d.tokenId (newToken E d request)).commit
  if .analyticsRead ∈ request.scopes then
    Tx.commit <| Tx.execute sqlConstraint fun db =>
      (db.panelTokenScopes.insert d.tokenId ()).map fun t => { db with panelTokenScopes := t }
  publishToken d operationId

def createToken (actor key : String) (request : TokenCreateRequest) : Cmd CreatedToken := do
  let requestHash ← Batch.query fun _ => encodeRequest E request.toJson "encode token request"
  let accepted ← (acceptOperation d actor "token.create" key requestHash none).commit
  if accepted.reused then
    match (accepted.operation.result.bind (·.get "token_id")).bind (·.asStr) with
    | none => throw secretGone
    | some tokenId =>
      let token ← Batch.query (·.readToken tokenId)
      return ⟨accepted.operation, token, none⟩
  else storeToken E d request accepted.operation.id

def revokeToken (actor key tokenId : String) : Cmd OperationDocument := do
  let accepted ← (acceptOperation d actor "token.revoke" key (E.sha256 tokenId) (some tokenId)).commit
  if accepted.reused then return accepted.operation
  let token ← Batch.query (·.readToken tokenId)
  if token.revokedAt.isNone then
    Tx.commit <| modify fun db => { db with
      tokens := db.tokens.modify tokenId fun t => { t with revokedAt := some d.now } }
  completeToken d accepted.operation.id tokenId (tokenProgress "revoking" 0 "committing revocation")
    (tokenProgress "complete" 1 "revocation published")

/-! ## Launch sessions -/

structure LaunchSessionCreated where
  session : LaunchSessionDocument
  bearerToken : Option String

def days (n : Nat) : Timestamp := n * 24 * 60 * 60 * 1000

def validSession (r : LaunchSessionRequest) : Bool :=
  E.parseUlid r.id && r.integration ∈ ["codex", "claude", "opencode"] && r.ecoMode ∈ ["max", "none"]

/-- The transaction that stores the session and its token. -/
def insertSession (r : LaunchSessionRequest) (hash : String) (inst : InstanceDocument) : Sql Unit := do
  modify fun db => { db with sessions := db.sessions.delete fun _ s => s.startedAt + days 90 < d.now }
  insertToken d.tokenId {
    name := "sparkplane-session@" ++ r.id
    verifier := E.hmac E.pepper (d.tokenId ++ d.secret)
    scopes := [.inference]
    allowedCidrs := []
    expiresAt := some (E.toRfc3339 (d.now + days 7))
    maxConcurrentInference := 8
    createdAt := d.now
    lastUsedAt := none
    revokedAt := none }
  Tx.execute sqlConstraint fun db =>
    if db.sessions.rows.any fun s => s.2.tokenId = d.tokenId then none
    else (db.sessions.insert r.id ⟨d.tokenId, hash, inst.name, inst.model, r.integration, r.ecoMode,
      d.now, none⟩).map fun t => { db with sessions := t }

def createLaunchSession (r : LaunchSessionRequest) : Cmd LaunchSessionCreated := do
  Batch.require (validSession E r) (.invalid "invalid launch session")
  let hash ← Batch.query fun _ => encodeRequest E r.toJson "invalid session request"
  match ← Batch.query fun db => .ok (db.sessions.get? r.id) with
  | some existing =>
    Batch.require (existing.requestHash = hash) (.conflict "session identity conflict")
    let session ← Batch.query (·.readSession r.id)
    return ⟨session, none⟩
  | none =>
    let inst ← Batch.query (·.readInstance r.inst)
    let full ← Batch.query fun db => .ok (atCapacity E d db)
    Batch.require (!full) .overloaded
    (insertSession E d r hash inst).commit
    let session ← Batch.query (·.readSession r.id)
    return ⟨session, some (bearer d)⟩

def finishSession (id : String) : Cmd Unit := do
  let token ← Batch.query fun db =>
    match db.sessions.get? id with
    | some s => .ok s.tokenId
    | none => .error .notFound
  Tx.commit <| modify fun db => { db with
    sessions := db.sessions.modify id fun s => { s with finishedAt := s.finishedAt.or (some d.now) }
    tokens := db.tokens.modify token fun t => { t with revokedAt := t.revokedAt.or (some d.now) } }

/-- `Get` with `finish` set. -/
def finishLaunchSession (id : String) : Cmd LaunchSessionDocument := do
  finishSession d id
  Batch.query (·.readSession id)

end Database

end Sparkplane

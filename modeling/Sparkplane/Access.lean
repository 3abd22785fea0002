import Sparkplane.Serving

/-!
# Tokens, launch sessions and authentication

The handlers that change who may call the agent, each a database command, a
read of the token snapshot and its publication, and the part of `authenticate`
that looks a presented token up in the published snapshot.
-/

namespace Sparkplane

/-! ## Handlers -/

def publishSnapshot (response : Response) : Act Response := do
  match ← query .authSnapshot with
  | .error e => return stateProblem e
  | .ok snapshot =>
    perform (.storeAuth snapshot)
    return response

/-- `DbActor::create_token` checks the request before it submits it. -/
def submitCreateToken (S : Site) (actor key : String) (request : TokenCreateRequest) :
    Act (Except StateError Database.CreatedToken) := do
  match canonicalRequestSha256 S.env request.toJson with
  | none => return .error (.invalid ("encode token request: " ++ S.encodeError))
  | some hash =>
  match validateIdempotency key hash with
  | .error e => return .error e
  | .ok _ =>
  let now ← outside .unixMillis
  match validateTokenRequest S.env now request with
  | .error e => return .error e
  | .ok _ => command (.createToken actor key request)

def createToken (S : Site) (caller : Caller) (body : TokenCreateRequest) : Act Response := do
  match ← requireExecutorForMutation with
  | some response => return response
  | none =>
  match requiredIdempotency caller with
  | none => return missingIdempotency
  | some key =>
  match ← submitCreateToken S caller.id key body with
  | .error e => return stateProblem e
  | .ok created => publishSnapshot (.tokenCreated created)

def submitRevokeToken (S : Site) (actor key tokenId : String) : Act (Except StateError OperationDocument) :=
  match validateIdempotency key (S.env.sha256 tokenId) with
  | .error e => return .error e
  | .ok _ => command (.revokeToken actor key tokenId)

def revokeToken (S : Site) (caller : Caller) (id : String) : Act Response := do
  match ← requireExecutorForMutation with
  | some response => return response
  | none =>
  match requiredIdempotency caller with
  | none => return missingIdempotency
  | some key =>
  match ← submitRevokeToken S caller.id key id with
  | .error e => return stateProblem e
  | .ok operation => publishSnapshot (.accepted operation)

def createLaunchSession (body : LaunchSessionRequest) : Act Response := do
  match ← requireExecutorForMutation with
  | some response => return response
  | none =>
  match ← command (.createLaunchSession body) with
  | .error e => return stateProblem e
  | .ok created => publishSnapshot (.launchSessionCreated created)

/-- Poll until no request of the session is pending; only the number of polls
is kept of the usage counts. -/
def pollSession (id : String) (session : LaunchSessionDocument) : Nat → Act Response
  | 0 => return .launchSession session
  | n + 1 => do
    match ← query (.launchSession id) with
    | .ok value => pollSession id value n
    | .error _ => return .launchSession session

def finishLaunchSession (S : Site) (id : String) : Act Response := do
  if !S.env.parseUlid id then return stateProblem (.invalid "invalid session id")
  else
  match ← command (.finishLaunchSession id) with
  | .error e => return stateProblem e
  | .ok session =>
  match ← query .authSnapshot with
  | .error e => return stateProblem e
  | .ok snapshot =>
    perform (.storeAuth snapshot)
    let n ← outside .polls
    pollSession id session n

/-! ## Authentication -/

structure AuthenticatedToken where
  id : String
  scopes : List TokenScope
  maxConcurrentInference : Nat
  deriving DecidableEq

def AuthenticatedToken.admin : AuthenticatedToken := ⟨"bootstrap-admin", [.admin], 64⟩

def parseBearer (value : String) : Option (String × String) :=
  match ((stripPre "sparkplane_" value).or (stripPre "sy_" value)).bind (splitOnce '_') with
  | some (id, secret) =>
    if id.utf8ByteSize = 26 && secret.utf8ByteSize = 64 && secret.toList.all isAsciiHexdigit then
      some (id, secret)
    else none
  | none => none

def tokenMatches (E : Env) (expected presented : String) : Bool :=
  E.hmac expected presented = E.hmac expected expected

def TokenDocument.usable (E : Env) (now : Timestamp) (t : TokenDocument) : Bool :=
  t.revokedAt.isNone &&
    match t.expiresAt with
    | none => true
    | some expiry => (E.parseRfc3339 expiry).any (now < ·)

def TokenDocument.identity (id : String) (t : TokenDocument) : AuthenticatedToken :=
  ⟨id, t.scopes, t.maxConcurrentInference⟩

/-- A presented bearer or API key. `peer` tells which address ranges hold the
client, if its address is known. -/
def authenticateBearer (S : Site) (auth : AuthSnapshot) (now : Timestamp) (peer : Option (String → Bool))
    (presented : String) : Option AuthenticatedToken :=
  if tokenMatches S.env S.token presented then some .admin
  else
    match parseBearer presented with
    | none => none
    | some (id, secret) =>
      match auth.get? id with
      | none => none
      | some verifier =>
        if verifier.token.usable S.env now && verifier.verify S.env secret &&
            (verifier.token.allowedCidrs.isEmpty || peer.all fun holds => verifier.token.allowedCidrs.any holds)
        then some (verifier.token.identity id)
        else none

def tokenIdentity (S : Site) (auth : AuthSnapshot) (now : Timestamp) (peer : Option (String → Bool))
    (id : String) : Option AuthenticatedToken :=
  if id = "bootstrap-admin" then some .admin
  else
    match auth.get? id with
    | none => none
    | some verifier =>
      if verifier.token.usable S.env now &&
          (verifier.token.allowedCidrs.isEmpty || peer.any fun holds => verifier.token.allowedCidrs.any holds)
      then some (verifier.token.identity id)
      else none

end Sparkplane

import Sparkplane.Access

/-!
# Browser sessions

`web.rs`: the login of a browser in four steps (`begin`, `approve`, `finish`, and the cookie of the
session), `logout`, and the part of `authenticate` around them. A handler that takes the lock of the
flows or the sessions does not wait while it holds it, so each is one step; it reads the clock once.
The secrets it draws are arguments. `secure`, which adds headers to every answer, is left out.
-/

namespace Sparkplane

/-! ## Requests -/

inductive Method where
  | get
  | head
  | post
  | put
  | patch
  | delete
  | options
  | other (name : String)
  deriving DecidableEq

/-- Headers in the order of the request; a value that is not visible text is `none`. -/
abbrev HeaderMap := List (String × Option String)

def HeaderMap.value (headers : HeaderMap) (name : String) : Option (Option String) :=
  (headers.find? fun h => h.1 = name).map Prod.snd

/-- `HeaderMap::get` and `to_str`. -/
def HeaderMap.text (headers : HeaderMap) (name : String) : Option String := (headers.value name).join

structure WebRequest where
  method : Method
  path : String
  headers : HeaderMap
  peer : Option (String → Bool)

structure Url where
  username : String
  password : Option String
  path : String
  query : Option String
  fragment : Option String
  host : Option String
  origin : String

structure PanelConfig where
  enabled : Bool
  origin : Option String

/-- The parts of `AgentState` that do not change, and `reqwest::Url::parse`. -/
structure Panel where
  site : Site
  config : PanelConfig
  allowedClients : List String
  dnsSans : List String
  ipSans : List String
  parseUrl : String → Option Url

def validSecret (value : String) : Bool := value.utf8ByteSize = 64 && value.toList.all isAsciiHexdigit

/-- `str::trim` of a part and `split_once`. -/
def cookiePair (E : Env) (part : List Char) : Option (String × String) :=
  splitOnce '=' (String.ofList (trim E (String.ofList part)))

def cookie (E : Env) (headers : HeaderMap) (name : String) : Option String :=
  (headers.text "cookie").bind fun value =>
    (((value.toList.splitOn ';').filterMap (cookiePair E)).find? fun pair => pair.1 = name).map Prod.snd

def eqIgnoreAsciiCase (a b : String) : Bool := a.toList.map Char.toLower = b.toList.map Char.toLower

/-- `trim_matches(['[', ']'])`. -/
def trimBrackets (s : String) : String :=
  let bracket := fun c => c = '[' || c = ']'
  String.ofList ((s.toList.dropWhile bracket).reverse.dropWhile bracket).reverse

namespace Panel

variable (P : Panel)

def peerAllowed (peer : Option (String → Bool)) : Bool := peer.all fun holds => P.allowedClients.any holds

def origin (headers : HeaderMap) : Option String := do
  let host ← headers.text "host"
  let url ← P.parseUrl ("https://" ++ host)
  if !url.username.isEmpty || url.password.isSome || url.path ≠ "/" || url.query.isSome || url.fragment.isSome then none
  else
  let hostname := trimBrackets (← url.host)
  if !(P.dnsSans ++ P.ipSans).any (eqIgnoreAsciiCase · hostname) then none
  else if P.config.origin.any (· ≠ url.origin) then none
  else some url.origin

end Panel

/-! ## State -/

/-- `std::time::Instant`, in nanoseconds. -/
abbrev Instant := Nat

def secs (n : Nat) : Nat := n * 10 ^ 9

def Instant.elapsed (created now : Instant) : Nat := now - created

structure LoginFlow where
  intent : String
  browserHash : String
  origin : String
  created : Instant
  approval : Option (String × String × Instant)
  consumed : Bool

structure WebSession where
  tokenId : String
  origin : String
  csrf : String
  created : Instant
  touched : Instant

structure WebState where
  flows : Table String LoginFlow := .empty
  sessions : Table String WebSession := .empty

inductive WebReply where
  | problem (status : Nat) (code detail : String)
  | redirect (location : String) (cookies : List String)
  | code (code : String)
  | complete (consumed : Bool)
  | page (cookies : List String)
  | noContent (cookies : List String)
  deriving DecidableEq

def denied : WebReply := .problem 401 "spark.auth.failed" "authentication failed"

def flowSeconds : Nat := 600

def approvalSeconds : Nat := 60

def WebSession.live (now : Instant) (s : WebSession) : Bool :=
  s.created.elapsed now < secs (8 * 3600) && s.touched.elapsed now < secs 1800

/-! ## Handlers -/

namespace WebState

variable (P : Panel) (w : WebState) (now : Instant)

def beginLogin (headers : HeaderMap) (intent : String) (peer : Option (String → Bool)) (id browser : String) :
    WebReply × WebState :=
  if !P.config.enabled || !validSecret intent || !P.peerAllowed peer then (denied, w)
  else
  match P.origin headers with
  | none => (denied, w)
  | some origin =>
  let flows := w.flows.delete fun _ flow => !(flow.created.elapsed now < secs flowSeconds : Bool)
  if 128 ≤ flows.rows.length then
    (.problem 429 "spark.web.busy" "too many pending logins", { w with flows })
  else
    (.redirect ("http://127.0.0.1:9844/auth/approve?flow=" ++ id ++ "&intent=" ++ intent)
      ["sparkplane_web_pending=" ++ browser ++ "; Path=/panel/auth; HttpOnly; Secure; SameSite=Lax; Max-Age=600"],
     { w with flows := flows.upsert id ⟨intent, P.site.env.sha256 browser, origin, now, none, false⟩ })

def approve (auth : AuthenticatedToken) (flow intent code : String) : WebReply × WebState :=
  if !P.config.enabled then (denied, w)
  else
  match w.flows.get? flow with
  | none => (denied, w)
  | some f =>
  if secs flowSeconds ≤ f.created.elapsed now || f.consumed || f.approval.isSome ||
      !tokenMatches P.site.env f.intent intent then (denied, w)
  else
    (.code code, { w with
      flows := w.flows.modify flow fun f => { f with approval := some (auth.id, P.site.env.sha256 code, now) } })

def flowStatus (auth : AuthenticatedToken) (id : String) : WebReply :=
  match w.flows.get? id with
  | some f =>
    if f.created.elapsed now < secs flowSeconds && f.approval.any fun a => a.1 = auth.id then .complete f.consumed
    else denied
  | none => denied

/-- The checks of `finish` on the flow. -/
def finishes (snapshot : AuthSnapshot) (utc : Timestamp) (peer : Option (String → Bool)) (origin browser code : String)
    (f : LoginFlow) (approval : String × String × Instant) : Bool :=
  !(f.consumed || f.origin ≠ origin || secs approvalSeconds ≤ approval.2.2.elapsed now ||
    secs flowSeconds ≤ f.created.elapsed now ||
    !tokenMatches P.site.env f.browserHash (P.site.env.sha256 browser) ||
    !tokenMatches P.site.env approval.2.1 (P.site.env.sha256 code) ||
    (tokenIdentity P.site snapshot utc peer approval.1).isNone)

def finish (snapshot : AuthSnapshot) (utc : Timestamp) (headers : HeaderMap) (flow code : String)
    (peer : Option (String → Bool)) (session csrf : String) : WebReply × WebState :=
  if !P.config.enabled || !P.peerAllowed peer then (denied, w)
  else
  match P.origin headers with
  | none => (denied, w)
  | some origin =>
  match cookie P.site.env headers "sparkplane_web_pending" with
  | none => (denied, w)
  | some browser =>
  match w.flows.get? flow with
  | none => (denied, w)
  | some f =>
  match f.approval with
  | none => (denied, w)
  | some approval =>
  if !finishes P now snapshot utc peer origin browser code f approval then (denied, w)
  else
  let sessions := w.sessions.delete fun _ s => !s.live now
  if 1024 ≤ sessions.rows.length then (denied, { w with sessions })
  else
    (.page ["sparkplane_web=" ++ session ++ "; Path=/; HttpOnly; Secure; SameSite=Strict; Max-Age=28800",
       "sparkplane_web_pending=; Path=/panel/auth; HttpOnly; Secure; SameSite=Lax; Max-Age=0"],
     { flows := w.flows.modify flow fun f => { f with consumed := true }
       sessions := sessions.upsert (P.site.env.sha256 session) ⟨approval.1, origin, csrf, now, now⟩ })

def logout (headers : HeaderMap) : WebReply × WebState :=
  (.noContent ["sparkplane_web=; Path=/; HttpOnly; Secure; SameSite=Strict; Max-Age=0"],
   match cookie P.site.env headers "sparkplane_web" with
   | some value => { w with sessions := w.sessions.delete fun key _ => key = P.site.env.sha256 value }
   | none => w)

end WebState

/-! ## Authentication -/

def apiBase : String := "/api/sparkplane/v1"

def startsWith (pre s : String) : Bool := pre.toList.isPrefixOf s.toList

def endsWith (suffix s : String) : Bool := suffix.toList.isSuffixOf s.toList

/-- What a request with a method other than `GET` and `HEAD` has to carry. -/
def carriesCsrf (E : Env) (headers : HeaderMap) (origin : String) (s : WebSession) : Bool :=
  headers.text "origin" = some origin && (headers.text "x-sparkplane-csrf").any (tokenMatches E s.csrf)

/-- The checks of `authenticate_cookie` on the session. -/
def WebSession.admits (E : Env) (now : Instant) (request : WebRequest) (origin : String) (s : WebSession) : Bool :=
  !(s.origin ≠ origin || !s.live now) && !(request.method ∉ [.get, .head] && !carriesCsrf E request.headers origin s) &&
    !(request.headers.value "origin").any (· ≠ some origin)

def authenticateCookie (P : Panel) (w : WebState) (snapshot : AuthSnapshot) (now : Instant) (utc : Timestamp)
    (request : WebRequest) : Option AuthenticatedToken × WebState :=
  if !P.config.enabled || !startsWith apiBase request.path || startsWith (apiBase ++ "/web-auth") request.path ||
      (request.headers.value "authorization").isSome then (none, w)
  else
  match cookie P.site.env request.headers "sparkplane_web", P.origin request.headers with
  | some value, some origin =>
    if (request.headers.value "sec-fetch-site").any fun v => v ≠ some "same-origin" && v ≠ some "none" then (none, w)
    else
    match w.sessions.get? (P.site.env.sha256 value) with
    | none => (none, w)
    | some s =>
    if !s.admits P.site.env now request origin then (none, w)
    else
    match tokenIdentity P.site snapshot utc request.peer s.tokenId with
    | none => (none, w)
    | some auth =>
      (some auth, { w with
        sessions := w.sessions.modify (P.site.env.sha256 value) fun s => { s with touched := now } })
  | _, _ => (none, w)

def requiredScope (method : Method) (path : String) : Option TokenScope :=
  if startsWith (apiBase ++ "/analytics") path || startsWith (apiBase ++ "/health") path then some .analyticsRead
  else if path = apiBase ++ "/audit" then some .admin
  else if startsWith "/openai/" path || startsWith "/anthropic/" path then some .inference
  else if path = apiBase ++ "/status" then some .instancesRead
  else if path = apiBase ++ "/metrics" then some .admin
  else if startsWith (apiBase ++ "/operations") path then
    some (if method = .delete then .operationsCancel else .operationsRead)
  else if startsWith (apiBase ++ "/instances/") path && endsWith "/logs" path then some .logsRead
  else if path = apiBase ++ "/instances" || startsWith (apiBase ++ "/instances/") path then
    some (if method = .get then .instancesRead else .instancesWrite)
  else if startsWith (apiBase ++ "/launch-sessions") path || startsWith (apiBase ++ "/tokens") path ||
      path = apiBase ++ "/doctor" || startsWith (apiBase ++ "/certificates") path then some .admin
  else if startsWith (apiBase ++ "/models") path then
    some (if method = .delete then .modelsWrite else .modelsRead)
  else if path = apiBase ++ "/downloads" then some .modelsWrite
  else if path = apiBase ++ "/admission" then some .instancesWrite
  else if path = apiBase ++ "/qualifications" then some .benchmarksWrite
  else none

def AuthenticatedToken.permits (auth : AuthenticatedToken) (scope : TokenScope) : Bool :=
  .admin ∈ auth.scopes || scope ∈ auth.scopes

/-- The answer to a request that is turned away; `/anthropic/` has its own form. -/
inductive LayerError where
  | problem (status : Nat) (code detail : String)
  | anthropic (status : Nat) (errorType message : String)
  deriving DecidableEq

def authenticationLayerError (path : String) (status : Nat) (code message : String) : LayerError :=
  if startsWith "/anthropic/" path then
    .anthropic status (match status with
      | 401 => "authentication_error"
      | 403 => "permission_error"
      | 429 => "rate_limit_error"
      | _ => "invalid_request_error") message
  else .problem status code message

def authFailed (path : String) : LayerError :=
  authenticationLayerError path 401 "spark.auth.failed" "authentication failed"

/-- The bearer or the API key, but not both. -/
def WebRequest.presented (request : WebRequest) : Option String :=
  let bearer := (request.headers.text "authorization").bind (stripPre "Bearer ")
  let apiKey := if startsWith "/anthropic/" request.path then request.headers.text "x-api-key" else none
  match bearer, apiKey with
  | some token, none | none, some token => some token
  | _, _ => none

/-- `limited` is the answer of the rate limiter. -/
def authenticate (P : Panel) (w : WebState) (snapshot : AuthSnapshot) (now : Instant) (utc : Timestamp)
    (request : WebRequest) (limited : Bool) : Except LayerError AuthenticatedToken × WebState :=
  let (cookieAuth, w) := authenticateCookie P w snapshot now utc request
  if (request.headers.value "origin").isSome && cookieAuth.isNone then
    (.error (authenticationLayerError request.path 403 "spark.http.cors-rejected"
      "cross-origin requests are not permitted"), w)
  else if !P.peerAllowed request.peer then
    (.error (authenticationLayerError request.path 403 "spark.network.source-rejected"
      "client source is outside the configured CIDR policy"), w)
  else
  match cookieAuth.or (request.presented.bind (authenticateBearer P.site snapshot utc request.peer)) with
  | none => (.error (authFailed request.path), w)
  | some auth =>
  if (requiredScope request.method request.path).any fun scope => !auth.permits scope then
    (.error (if cookieAuth.isSome then
      .problem 403 "spark.auth.scope-required" "token does not permit this action"
      else authFailed request.path), w)
  else if limited then
    (.error (authenticationLayerError request.path 429 "spark.rate.exceeded" "request rate exceeded"), w)
  else (.ok auth, w)

/-! ## Runs -/

def approvePath : String := apiBase ++ "/web-auth/approve"

/-- `AgentState` as far as the panel goes. `approvals` are the requests to `approve` that
`authenticate` has let through and that the handler has not yet taken. -/
structure PanelState where
  web : WebState := {}
  auth : AuthSnapshot := {}
  now : Instant := 0
  approvals : List AuthenticatedToken := []

/-- Handlers store snapshots of the tokens at any time; time passes. -/
inductive PanelEvent where
  | pass (nanoseconds : Nat)
  | storeAuth (snapshot : AuthSnapshot)
  | beginLogin (headers : HeaderMap) (intent : String) (peer : Option (String → Bool)) (id browser : String)
  | authenticate (utc : Timestamp) (request : WebRequest) (limited : Bool)
  | approve (auth : AuthenticatedToken) (flow intent code : String)
  | finish (utc : Timestamp) (headers : HeaderMap) (flow code : String) (peer : Option (String → Bool))
      (session csrf : String)
  | logout (headers : HeaderMap)

def PanelEvent.secrets : PanelEvent → List String
  | .beginLogin _ _ _ id browser => [id, browser]
  | .approve _ _ _ code => [code]
  | .finish _ _ _ _ _ session csrf => [session, csrf]
  | _ => []

namespace PanelState

variable (P : Panel)

def step (s : PanelState) : PanelEvent → PanelState
  | .pass d => { s with now := s.now + d }
  | .storeAuth snapshot => { s with auth := snapshot }
  | .beginLogin headers intent peer id browser =>
    { s with web := (s.web.beginLogin P s.now headers intent peer id browser).2 }
  | .authenticate utc request limited =>
    let (auth, web) := Sparkplane.authenticate P s.web s.auth s.now utc request limited
    { s with
      web := web
      approvals := match auth with
        | .ok auth => if request.method = .post ∧ request.path = approvePath then auth :: s.approvals else s.approvals
        | .error _ => s.approvals }
  | .approve auth flow intent code =>
    if auth ∈ s.approvals then
      { s with web := (s.web.approve P s.now auth flow intent code).2, approvals := s.approvals.erase auth }
    else s
  | .finish utc headers flow code peer session csrf =>
    { s with web := (s.web.finish P s.now s.auth utc headers flow code peer session csrf).2 }
  | .logout headers => { s with web := (s.web.logout P headers).2 }

def run (events : List PanelEvent) : PanelState := events.foldl (step P) {}

end PanelState

end Sparkplane

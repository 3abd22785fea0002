import Mathlib.Data.List.Induction
import Sparkplane.Agent
import Sparkplane.Web

/-!
# Where a browser session comes from

`session_approved`: a request that a session cookie authenticates goes back to a `finish` with the
browser's own cookie, to an approval of that login within its ten minutes, and to a bearer that was
active then; its token is active now. A login gives at most one session, and both stores stay
within their limits. `HEAD` is exempt from the check of the `Origin` and of the CSRF value as `GET`
is.
-/

namespace Sparkplane

open PanelState (run)

/-! ## Earlier events -/

def Precedes {ε : Type} (pre : List ε) (e : ε) (events : List ε) : Prop := ∃ post, events = pre ++ e :: post

namespace Precedes

variable {ε : Type} {pre pre' events : List ε} {e e' : ε}

theorem snoc (h : Precedes pre e events) (e' : ε) : Precedes pre e (events ++ [e']) := by
  obtain ⟨post, rfl⟩ := h
  exact ⟨post ++ [e'], by simp⟩

theorem last (events : List ε) (e : ε) : Precedes events e (events ++ [e]) := ⟨[], rfl⟩

theorem mem (h : Precedes pre e events) : e ∈ events := by
  obtain ⟨post, rfl⟩ := h
  simp

theorem cases_snoc (h : Precedes pre e (events ++ [e'])) : (pre = events ∧ e = e') ∨ Precedes pre e events := by
  obtain ⟨post, h⟩ := h
  rcases List.eq_nil_or_concat post with rfl | ⟨post, x, rfl⟩
  · obtain ⟨rfl, he⟩ := List.append_inj' h rfl
    exact .inl ⟨rfl, (List.cons.inj he).1.symm⟩
  · refine .inr ⟨post, ?_⟩
    rw [List.concat_eq_append, ← List.cons_append, ← List.append_assoc] at h
    exact (List.append_inj' h rfl).1

theorem total (h : Precedes pre e events) (h' : Precedes pre' e' events) :
    pre = pre' ∨ Precedes pre e pre' ∨ Precedes pre' e' pre := by
  obtain ⟨post, rfl⟩ := h
  obtain ⟨post', h'⟩ := h'
  rcases List.append_eq_append_iff.mp h' with ⟨as, rfl, has⟩ | ⟨as, rfl, has⟩
  · cases as with
    | nil => exact .inl (by simp)
    | cons a as =>
      obtain ⟨rfl, _⟩ := List.cons.inj has
      exact .inr (.inl ⟨as, rfl⟩)
  · cases as with
    | nil => exact .inl (by simp)
    | cons a as =>
      obtain ⟨rfl, _⟩ := List.cons.inj has
      exact .inr (.inr ⟨as, rfl⟩)

end Precedes

/-! ## What each handler does -/

section
variable (P : Panel) (w : WebState) (now : Instant) (headers : HeaderMap) (peer : Option (String → Bool))

theorem beginLogin_cases (intent id browser : String) : ((w.beginLogin P now headers intent peer id browser).2 = w ∨
      ∃ p, (w.beginLogin P now headers intent peer id browser).2 = { w with flows := w.flows.delete p }) ∨
    ∃ location cookies origin p, (w.flows.delete p).rows.length < 128 ∧
      w.beginLogin P now headers intent peer id browser = (.redirect location cookies,
          ⟨(w.flows.delete p).upsert id ⟨intent, P.site.env.sha256 browser, origin, now, none, false⟩,
            w.sessions⟩) := by
  unfold WebState.beginLogin
  split
  · exact .inl (.inl rfl)
  · split
    · exact .inl (.inl rfl)
    · rename_i origin _
      dsimp only
      split
      · exact .inl (.inr ⟨_, rfl⟩)
      · rename_i hlength
        exact .inr ⟨_, _, origin, _, Nat.lt_of_not_le hlength, rfl⟩

theorem approve_cases (auth : AuthenticatedToken) (flow intent code : String) :
    (w.approve P now auth flow intent code = (denied, w)) ∨
    ∃ f, w.flows.get? flow = some f ∧ f.created.elapsed now < secs flowSeconds ∧ f.consumed = false ∧
      w.approve P now auth flow intent code = (.code code, { w with
        flows := w.flows.modify flow fun f => { f with approval := some (auth.id, P.site.env.sha256 code, now) } }) := by
  unfold WebState.approve
  split
  · exact .inl rfl
  · split
    · exact .inl rfl
    · rename_i f hf
      split
      · exact .inl rfl
      · rename_i hchecks
        simp only [Bool.or_eq_true, decide_eq_true_eq, not_or, Bool.not_eq_true] at hchecks
        exact .inr ⟨f, hf, by omega, hchecks.1.1.2, rfl⟩

structure Opens (P : Panel) (w : WebState) (now : Instant) (snapshot : AuthSnapshot) (utc : Timestamp)
    (headers : HeaderMap) (flow code : String) (peer : Option (String → Bool)) (session csrf : String)
    (origin browser : String) (f : LoginFlow) (approval : String × String × Instant) (p : String → WebSession → Bool) :
    Prop where
  atOrigin : P.origin headers = some origin
  presents : cookie P.site.env headers "sparkplane_web_pending" = some browser
  found : w.flows.get? flow = some f
  approved : f.approval = some approval
  passes : WebState.finishes P now snapshot utc peer origin browser code f approval = true
  room : (w.sessions.delete p).rows.length < 1024
  result : (w.finish P now snapshot utc headers flow code peer session csrf).2 =
    { flows := w.flows.modify flow fun f => { f with consumed := true }
      sessions := (w.sessions.delete p).upsert (P.site.env.sha256 session) ⟨approval.1, origin, csrf, now, now⟩ }

theorem finish_cases (snapshot : AuthSnapshot) (utc : Timestamp) (flow code session csrf : String) :
    ((∀ cookies, (w.finish P now snapshot utc headers flow code peer session csrf).1 ≠ .page cookies) ∧
      ((w.finish P now snapshot utc headers flow code peer session csrf).2 = w ∨
        ∃ p, (w.finish P now snapshot utc headers flow code peer session csrf).2 =
          { w with sessions := w.sessions.delete p })) ∨
    (∃ cookies, (w.finish P now snapshot utc headers flow code peer session csrf).1 = .page cookies) ∧
      ∃ origin browser f approval p,
        Opens P w now snapshot utc headers flow code peer session csrf origin browser f approval p := by
  have hdenied : ∀ cookies, denied ≠ .page cookies := fun _ h => nomatch h
  by_cases h1 : (!P.config.enabled || !P.peerAllowed peer) = true
  · left
    simp only [WebState.finish, h1, if_pos]
    exact ⟨hdenied, .inl trivial⟩
  cases h2 : P.origin headers with
  | none =>
    left
    simp only [WebState.finish, h1, h2]
    exact ⟨hdenied, .inl rfl⟩
  | some origin =>
  cases h3 : cookie P.site.env headers "sparkplane_web_pending" with
  | none =>
    left
    simp only [WebState.finish, h1, h2, h3]
    exact ⟨hdenied, .inl rfl⟩
  | some browser =>
  cases h4 : w.flows.get? flow with
  | none =>
    left
    simp only [WebState.finish, h1, h2, h3, h4]
    exact ⟨hdenied, .inl rfl⟩
  | some f =>
  cases h5 : f.approval with
  | none =>
    left
    simp only [WebState.finish, h1, h2, h3, h4, h5]
    exact ⟨hdenied, .inl rfl⟩
  | some approval =>
  cases h6 : WebState.finishes P now snapshot utc peer origin browser code f approval with
  | false =>
    left
    simp only [WebState.finish, h1, h2, h3, h4, h5, h6]
    exact ⟨hdenied, .inl rfl⟩
  | true =>
  by_cases h7 : 1024 ≤ (w.sessions.delete fun _ s => !s.live now).rows.length
  · left
    simp only [WebState.finish, h1, h2, h3, h4, h5, h6, h7]
    exact ⟨hdenied, .inr ⟨_, rfl⟩⟩
  · right
    refine ⟨?_, origin, browser, f, approval, _, h2, h3, h4, h5, h6, Nat.lt_of_not_le h7, ?_⟩
    · simp [WebState.finish, h1, h2, h3, h4, h5, h6, h7]
    · simp [WebState.finish, h1, h2, h3, h4, h5, h6, h7]

structure CookieAuth (P : Panel) (w : WebState) (snapshot : AuthSnapshot) (now : Instant) (utc : Timestamp)
    (request : WebRequest) (auth : AuthenticatedToken) (value origin : String) (s : WebSession) : Prop where
  api : startsWith (apiBase ++ "/web-auth") request.path = false
  presents : cookie P.site.env request.headers "sparkplane_web" = some value
  atOrigin : P.origin request.headers = some origin
  found : w.sessions.get? (P.site.env.sha256 value) = some s
  admits : s.admits P.site.env now request origin = true
  identity : tokenIdentity P.site snapshot utc request.peer s.tokenId = some auth

theorem authenticateCookie_cases (snapshot : AuthSnapshot) (utc : Timestamp) (request : WebRequest) :
    authenticateCookie P w snapshot now utc request = (none, w) ∨
    ∃ auth value origin s, CookieAuth P w snapshot now utc request auth value origin s ∧
      authenticateCookie P w snapshot now utc request = (some auth, { w with
        sessions := w.sessions.modify (P.site.env.sha256 value) fun s => { s with touched := now } }) := by
  unfold authenticateCookie
  split
  · exact .inl rfl
  · rename_i hpath
    split
    · rename_i value origin hvalue horigin
      split
      · exact .inl rfl
      · split
        · exact .inl rfl
        · rename_i s hs
          split
          · exact .inl rfl
          · rename_i hadmits
            split
            · exact .inl rfl
            · rename_i auth hauth
              simp only [Bool.or_eq_true, not_or, Bool.not_eq_true] at hpath
              rw [Bool.not_eq_true, Bool.not_eq_false'] at hadmits
              exact .inr ⟨auth, value, origin, s, ⟨hpath.1.2, hvalue, horigin, hs, hadmits, hauth⟩, rfl⟩
    · exact .inl rfl

end

section
variable {P : Panel} {w : WebState} {now : Instant}

theorem authenticate_web (snapshot : AuthSnapshot) (utc : Timestamp) (request : WebRequest) (limited : Bool) :
    (authenticate P w snapshot now utc request limited).2 = (authenticateCookie P w snapshot now utc request).2 := by
  unfold authenticate
  dsimp only
  split
  · rfl
  · split
    · rfl
    · split
      · rfl
      · split
        · rfl
        · split <;> rfl

theorem authenticate_approval {snapshot : AuthSnapshot} {utc : Timestamp} {request : WebRequest} {limited : Bool}
    {auth : AuthenticatedToken} (hpath : request.path = approvePath)
    (h : (authenticate P w snapshot now utc request limited).1 = .ok auth) :
    ∃ presented, request.presented = some presented ∧
      authenticateBearer P.site snapshot utc request.peer presented = some auth := by
  have hcookie : authenticateCookie P w snapshot now utc request = (none, w) := by
    rcases authenticateCookie_cases P w now snapshot utc request with h | ⟨_, _, _, _, h, _⟩
    · exact h
    · have := h.api
      rw [hpath] at this
      exact absurd this (by decide)
  unfold authenticate at h
  rw [hcookie] at h
  dsimp only at h
  split at h
  · cases h
  · split at h
    · cases h
    · split at h
      · cases h
      · rename_i found hfound
        have hauth : found = auth := by
          split at h
          · cases h
          · split at h
            · cases h
            · exact Except.ok.inj h
        subst hauth
        exact Option.bind_eq_some_iff.mp hfound

end

/-! ## Active tokens -/

/-- The token is one that `authenticate` accepts, wherever the client is. -/
def AuthSnapshot.Active (snapshot : AuthSnapshot) (E : Env) (utc : Timestamp) (id : String) : Prop :=
  id = "bootstrap-admin" ∨ ∃ v, snapshot.get? id = some v ∧ v.token.usable E utc = true

section
variable {S : Site} {snapshot : AuthSnapshot} {utc : Timestamp} {auth : AuthenticatedToken}
  {peer : Option (String → Bool)}

theorem authenticateBearer_active {presented : String}
    (h : authenticateBearer S snapshot utc peer presented = some auth) : snapshot.Active S.env utc auth.id := by
  unfold authenticateBearer at h
  split at h
  · cases h
    exact .inl rfl
  · split at h
    · cases h
    · rename_i id secret _
      split at h
      · cases h
      · rename_i v hv
        split at h
        · rename_i hchecks
          cases h
          simp only [Bool.and_eq_true] at hchecks
          exact .inr ⟨v, hv, hchecks.1.1⟩
        · cases h

theorem tokenIdentity_active {id : String} (h : tokenIdentity S snapshot utc peer id = some auth) :
    auth.id = id ∧ snapshot.Active S.env utc id := by
  unfold tokenIdentity at h
  split at h
  · rename_i hid
    cases h
    exact ⟨hid.symm, .inl hid⟩
  · split at h
    · cases h
    · rename_i v hv
      split at h
      · rename_i hchecks
        cases h
        simp only [Bool.and_eq_true] at hchecks
        exact ⟨rfl, .inr ⟨v, hv, hchecks.1⟩⟩
      · cases h

end

/-! ## Provenance -/

section
variable (P : Panel)

/-- A bearer of the token, active then, was let through to `approve`. -/
def Bore (events : List PanelEvent) (id : String) : Prop :=
  ∃ pre utc request limited presented auth, Precedes pre (.authenticate utc request limited) events ∧
    request.path = approvePath ∧ request.presented = some presented ∧
    authenticateBearer P.site (run P pre).auth utc request.peer presented = some auth ∧ auth.id = id ∧
    (run P pre).auth.Active P.site.env utc id

def Began (events : List PanelEvent) (flow browser : String) (start : Instant) : Prop :=
  ∃ pre headers intent peer location cookies,
    Precedes pre (.beginLogin headers intent peer flow browser) events ∧ (run P pre).now = start ∧
    ((run P pre).web.beginLogin P start headers intent peer flow browser).1 = .redirect location cookies

/-- A bearer of the token approved the login that was begun at `start`, before it expired. -/
def Approved (events : List PanelEvent) (flow id : String) (start : Instant) : Prop :=
  ∃ pre auth intent code, Precedes pre (.approve auth flow intent code) events ∧ auth.id = id ∧
    ((run P pre).web.approve P (run P pre).now auth flow intent code).1 = .code code ∧
    start.elapsed (run P pre).now < secs flowSeconds ∧ Bore P pre id

/-- The event is a `finish` of the login that opens a session. -/
def FinishesAt (pre : List PanelEvent) (flow : String) : PanelEvent → Prop
  | .finish utc headers flow' code peer session csrf => flow' = flow ∧ ∃ cookies,
      ((run P pre).web.finish P (run P pre).now (run P pre).auth utc headers flow' code
        peer session csrf).1 = .page cookies
  | _ => False

/-- The session was opened by a `finish` with the cookie of the browser that began the login, after
a bearer of the token had approved it. -/
def Opened (events : List PanelEvent) (flow session csrf origin id : String) : Prop :=
  ∃ pre utc headers code peer browser start, Precedes pre (.finish utc headers flow code peer session csrf) events ∧
    FinishesAt P pre flow (.finish utc headers flow code peer session csrf) ∧
    P.origin headers = some origin ∧ cookie P.site.env headers "sparkplane_web_pending" = some browser ∧
    Began P pre flow browser start ∧ Approved P pre flow id start

end

section
variable {P : Panel} {events : List PanelEvent} {flow browser session csrf origin id : String} {start : Instant}

theorem PanelState.run_snoc (events : List PanelEvent) (e : PanelEvent) :
    run P (events ++ [e]) = (run P events).step P e := by
  simp [run]

theorem Bore.snoc (h : Bore P events id) (e : PanelEvent) : Bore P (events ++ [e]) id := by
  obtain ⟨pre, utc, request, limited, presented, auth, hpre, h⟩ := h
  exact ⟨pre, utc, request, limited, presented, auth, hpre.snoc e, h⟩

theorem Began.snoc (h : Began P events flow browser start) (e : PanelEvent) :
    Began P (events ++ [e]) flow browser start := by
  obtain ⟨pre, headers, intent, peer, location, cookies, hpre, h⟩ := h
  exact ⟨pre, headers, intent, peer, location, cookies, hpre.snoc e, h⟩

theorem Approved.snoc (h : Approved P events flow id start) (e : PanelEvent) :
    Approved P (events ++ [e]) flow id start := by
  obtain ⟨pre, auth, intent, code, hpre, h⟩ := h
  exact ⟨pre, auth, intent, code, hpre.snoc e, h⟩

theorem Opened.snoc (h : Opened P events flow session csrf origin id) (e : PanelEvent) :
    Opened P (events ++ [e]) flow session csrf origin id := by
  obtain ⟨pre, utc, headers, code, peer, browser, start, hpre, h⟩ := h
  exact ⟨pre, utc, headers, code, peer, browser, start, hpre.snoc e, h⟩

theorem Began.drawn (h : Began P events flow browser start) :
    flow ∈ events.flatMap PanelEvent.secrets ∧ browser ∈ events.flatMap PanelEvent.secrets := by
  obtain ⟨pre, headers, intent, peer, _, _, hpre, _⟩ := h
  exact ⟨List.mem_flatMap.mpr ⟨_, hpre.mem, by simp [PanelEvent.secrets]⟩,
    List.mem_flatMap.mpr ⟨_, hpre.mem, by simp [PanelEvent.secrets]⟩⟩

theorem Opened.drawn (h : Opened P events flow session csrf origin id) : csrf ∈ events.flatMap PanelEvent.secrets := by
  obtain ⟨pre, utc, headers, code, peer, _, _, hpre, _⟩ := h
  exact List.mem_flatMap.mpr ⟨_, hpre.mem, by simp [PanelEvent.secrets]⟩

end

def PanelEvent.headers : PanelEvent → HeaderMap
  | .authenticate _ request _ => request.headers
  | .beginLogin headers .. | .finish _ headers .. | .logout headers => headers
  | _ => []

/-- No presented value passes for a drawn secret unless it is that secret. -/
structure Unmistaken (P : Panel) (events : List PanelEvent) : Prop where
  browser : ∀ drawn ∈ events.flatMap PanelEvent.secrets, ∀ e ∈ events, ∀ value,
    cookie P.site.env e.headers "sparkplane_web_pending" = some value →
    tokenMatches P.site.env (P.site.env.sha256 drawn) (P.site.env.sha256 value) = true → value = drawn
  csrf : ∀ drawn ∈ events.flatMap PanelEvent.secrets, ∀ e ∈ events, ∀ value,
    e.headers.text "x-sparkplane-csrf" = some value → tokenMatches P.site.env drawn value = true → value = drawn

theorem Unmistaken.prefix_of {P : Panel} {events rest : List PanelEvent} (h : Unmistaken P (events ++ rest)) :
    Unmistaken P events where
  browser drawn hd e he := h.browser drawn (by rw [List.flatMap_append]; exact List.mem_append_left _ hd) e
    (List.mem_append_left _ he)
  csrf drawn hd e he := h.csrf drawn (by rw [List.flatMap_append]; exact List.mem_append_left _ hd) e
    (List.mem_append_left _ he)

/-! ## The invariant -/

section
variable (P : Panel) (events : List PanelEvent)

def FlowsTraced (flows : Table String LoginFlow) : Prop :=
  ∀ id f, flows.get? id = some f →
    (∃ browser, f.browserHash = P.site.env.sha256 browser ∧ Began P events id browser f.created) ∧
      ∀ a, f.approval = some a → Approved P events id a.1 f.created

def SessionsTraced (sessions : Table String WebSession) : Prop :=
  ∀ key s, sessions.get? key = some s → ∃ flow session, key = P.site.env.sha256 session ∧
    Opened P events flow session s.csrf s.origin s.tokenId

structure Traced (s : PanelState) : Prop where
  flows : FlowsTraced P events s.web.flows
  sessions : SessionsTraced P events s.web.sessions
  approvals : ∀ auth ∈ s.approvals, Bore P events auth.id
  flowsLimit : s.web.flows.rows.length ≤ 128
  sessionsLimit : s.web.sessions.rows.length ≤ 1024

end

section
variable {P : Panel} {events : List PanelEvent} {e : PanelEvent} {s : PanelState}

variable {flows : Table String LoginFlow} {sessions : Table String WebSession}

theorem FlowsTraced.snoc (h : FlowsTraced P events flows) (e : PanelEvent) : FlowsTraced P (events ++ [e]) flows := by
  intro id f hf
  obtain ⟨⟨browser, hhash, hbegan⟩, happroved⟩ := h id f hf
  exact ⟨⟨browser, hhash, hbegan.snoc e⟩, fun a ha => (happroved a ha).snoc e⟩

theorem SessionsTraced.snoc (h : SessionsTraced P events sessions)
    (e : PanelEvent) : SessionsTraced P (events ++ [e]) sessions := by
  intro key s hs
  obtain ⟨flow, session, hkey, hopened⟩ := h key s hs
  exact ⟨flow, session, hkey, hopened.snoc e⟩

theorem FlowsTraced.delete (h : FlowsTraced P events flows)
    (p : String → LoginFlow → Bool) : FlowsTraced P events (flows.delete p) :=
  fun id f hf => h id f (Table.get?_of_delete hf)

theorem SessionsTraced.delete (h : SessionsTraced P events sessions)
    (p : String → WebSession → Bool) : SessionsTraced P events (sessions.delete p) :=
  fun key s hs => h key s (Table.get?_of_delete hs)

theorem FlowsTraced.modify (h : FlowsTraced P events flows) (id : String)
    {g : LoginFlow → LoginFlow} (hg : ∀ f, (g f).browserHash = f.browserHash ∧ (g f).created = f.created)
    (happroval : ∀ f a, flows.get? id = some f → (g f).approval = some a → Approved P events id a.1 f.created) :
    FlowsTraced P events (flows.modify id g) := by
  intro id' f hf
  rw [Table.get?_modify] at hf
  by_cases hid : id' = id
  · subst hid
    rw [if_pos rfl] at hf
    obtain ⟨f0, hf0, rfl⟩ := Option.map_eq_some_iff.mp hf
    rw [(hg f0).1, (hg f0).2]
    exact ⟨(h id' f0 hf0).1, fun a ha => happroval f0 a hf0 ha⟩
  · rw [if_neg hid] at hf
    exact h id' f hf

theorem SessionsTraced.touch (h : SessionsTraced P events sessions) (key : String)
    (now : Instant) : SessionsTraced P events (sessions.modify key fun s => { s with touched := now }) := by
  intro key' s hs
  rw [Table.get?_modify] at hs
  by_cases hkey : key' = key
  · subst hkey
    rw [if_pos rfl] at hs
    obtain ⟨s0, hs0, rfl⟩ := Option.map_eq_some_iff.mp hs
    exact h key' s0 hs0
  · rw [if_neg hkey] at hs
    exact h key' s hs

theorem traced_beginLogin {intent : String} {headers : HeaderMap} {flow browser : String} {peer : Option (String → Bool)}
    (h : Traced P events (run P events)) :
    Traced P (events ++ [.beginLogin headers intent peer flow browser])
      ((run P events).step P (.beginLogin headers intent peer flow browser)) := by
  have hflows := h.flows.snoc (.beginLogin headers intent peer flow browser)
  have hsessions := h.sessions.snoc (.beginLogin headers intent peer flow browser)
  have happrovals := fun auth ha => (h.approvals auth ha).snoc (.beginLogin headers intent peer flow browser)
  dsimp only [PanelState.step]
  rcases beginLogin_cases P (run P events).web (run P events).now
    headers peer intent flow browser with (hw | ⟨p, hw⟩) | ⟨location, cookies, origin, p, hroom, hw⟩
  · rw [hw]
    exact ⟨hflows, hsessions, happrovals, h.flowsLimit, h.sessionsLimit⟩
  · rw [hw]
    exact ⟨hflows.delete p, hsessions, happrovals, (Table.length_delete_le _ p).trans h.flowsLimit, h.sessionsLimit⟩
  · have hbegan : Began P (events ++ [.beginLogin headers intent peer flow browser]) flow browser (run P events).now :=
      ⟨events, headers, intent, peer, location, cookies, .last _ _, rfl, congrArg Prod.fst hw⟩
    rw [hw]
    refine ⟨fun id f hf => ?_, hsessions, happrovals, ?_, h.sessionsLimit⟩
    · rw [Table.get?_upsert] at hf
      by_cases hid : id = flow
      · subst hid
        rw [if_pos rfl] at hf
        cases hf
        exact ⟨⟨browser, rfl, hbegan⟩, fun a ha => nomatch ha⟩
      · rw [if_neg hid] at hf
        exact hflows.delete p id f hf
    · exact (Table.length_upsert_le _ _ _).trans hroom

theorem traced_authenticate {utc : Timestamp} {request : WebRequest} {limited : Bool}
    (h : Traced P events (run P events)) :
    Traced P (events ++ [.authenticate utc request limited])
      ((run P events).step P (.authenticate utc request limited)) := by
  have hflows := h.flows.snoc (.authenticate utc request limited)
  have hsessions := h.sessions.snoc (.authenticate utc request limited)
  have happrovals := fun auth ha => (h.approvals auth ha).snoc (.authenticate utc request limited)
  have hweb : ((run P events).step P (.authenticate utc request limited)).web = _ :=
    authenticate_web _ utc request limited
  have hnew : ∀ auth ∈ ((run P events).step P (.authenticate utc request limited)).approvals,
      Bore P (events ++ [.authenticate utc request limited]) auth.id := by
    intro auth ha
    dsimp only [PanelState.step] at ha
    split at ha
    · rename_i found hfound
      split at ha
      · rename_i hroute
        rcases List.mem_cons.mp ha with rfl | ha
        · obtain ⟨presented, hpresented, hbearer⟩ := authenticate_approval hroute.2 hfound
          exact ⟨events, utc, request, limited, presented, auth, .last _ _, hroute.2, hpresented, hbearer, rfl,
            authenticateBearer_active hbearer⟩
        · exact happrovals auth ha
      · exact happrovals auth ha
    · exact happrovals auth ha
  rcases authenticateCookie_cases P (run P events).web (run P events).now
    (run P events).auth utc request with hcookie | ⟨auth, value, origin, s, _, hcookie⟩
  · rw [hcookie] at hweb
    refine ⟨?_, ?_, hnew, ?_, ?_⟩ <;> rw [hweb]
    · exact hflows
    · exact hsessions
    · exact h.flowsLimit
    · exact h.sessionsLimit
  · rw [hcookie] at hweb
    refine ⟨?_, ?_, hnew, ?_, ?_⟩ <;> rw [hweb]
    · exact hflows
    · exact hsessions.touch _ _
    · exact h.flowsLimit
    · show (Table.modify _ _ _).rows.length ≤ 1024
      rw [Table.length_modify]
      exact h.sessionsLimit

theorem traced_approve {auth : AuthenticatedToken} {flow intent code : String} (h : Traced P events (run P events)) :
    Traced P (events ++ [.approve auth flow intent code]) ((run P events).step P (.approve auth flow intent code)) := by
  have hflows := h.flows.snoc (.approve auth flow intent code)
  have hsessions := h.sessions.snoc (.approve auth flow intent code)
  have happrovals := fun auth' ha => (h.approvals auth' ha).snoc (.approve auth flow intent code)
  dsimp only [PanelState.step]
  by_cases hpending : auth ∈ (run P events).approvals
  · rw [if_pos hpending]
    have hleft : ∀ auth' ∈ (run P events).approvals.erase auth, Bore P _ auth'.id :=
      fun auth' ha => happrovals auth' (List.mem_of_mem_erase ha)
    rcases approve_cases P (run P events).web (run P events).now auth flow intent code with hw | ⟨f, hf, hfresh, _, hw⟩
    · rw [hw]
      exact ⟨hflows, hsessions, hleft, h.flowsLimit, h.sessionsLimit⟩
    · have hreply := congrArg Prod.fst hw
      rw [hw]
      refine ⟨hflows.modify flow (fun _ => ⟨rfl, rfl⟩) fun f' a hf' ha => ?_, hsessions, hleft, ?_, h.sessionsLimit⟩
      · cases hf.symm.trans hf'
        cases ha
        exact ⟨events, auth, intent, code, .last _ _, rfl, hreply, hfresh, h.approvals auth hpending⟩
      · show (Table.modify _ _ _).rows.length ≤ 128
        rw [Table.length_modify]
        exact h.flowsLimit
  · rw [if_neg hpending]
    exact ⟨hflows, hsessions, happrovals, h.flowsLimit, h.sessionsLimit⟩

theorem traced_finish {utc : Timestamp} {headers : HeaderMap} {flow code session csrf : String}
    {peer : Option (String → Bool)} (hu : Unmistaken P (events ++ [.finish utc headers flow code peer session csrf]))
    (h : Traced P events (run P events)) :
    Traced P (events ++ [.finish utc headers flow code peer session csrf])
      ((run P events).step P (.finish utc headers flow code peer session csrf)) := by
  have hflows := h.flows.snoc (.finish utc headers flow code peer session csrf)
  have hsessions := h.sessions.snoc (.finish utc headers flow code peer session csrf)
  have happrovals := fun auth ha => (h.approvals auth ha).snoc (.finish utc headers flow code peer session csrf)
  dsimp only [PanelState.step]
  rcases finish_cases P (run P events).web (run P events).now
    headers peer (run P events).auth utc flow code session csrf with
    ⟨_, hw | ⟨p, hw⟩⟩ | ⟨hpage, origin, browser, f, approval, p, hopens⟩
  · rw [hw]
    exact ⟨hflows, hsessions, happrovals, h.flowsLimit, h.sessionsLimit⟩
  · rw [hw]
    exact ⟨hflows, hsessions.delete p, happrovals, h.flowsLimit, (Table.length_delete_le _ p).trans h.sessionsLimit⟩
  · obtain ⟨⟨browser', hhash, hbegan⟩, happroved⟩ := h.flows flow f hopens.found
    -- the cookie is the one the browser was given when it began the login
    have hbrowser : browser = browser' := by
      have hmatches : tokenMatches P.site.env f.browserHash (P.site.env.sha256 browser) = true := by
        have := hopens.passes
        unfold WebState.finishes at this
        simp only [Bool.not_eq_true', Bool.or_eq_false_iff, Bool.not_eq_false'] at this
        exact this.1.1.2
      rw [hhash] at hmatches
      refine hu.browser browser' ?_ (.finish utc headers flow code peer session csrf) (by simp) browser
        hopens.presents hmatches
      exact (hbegan.snoc _).drawn.2
    have hopened : Opened P (events ++ [.finish utc headers flow code peer session csrf]) flow session csrf origin
        approval.1 :=
      ⟨events, utc, headers, code, peer, browser, f.created, .last _ _, ⟨rfl, hpage⟩, hopens.atOrigin,
        hopens.presents, hbrowser ▸ hbegan, happroved approval hopens.approved⟩
    rw [hopens.result]
    refine ⟨hflows.modify flow (fun _ => ⟨rfl, rfl⟩) fun f' a hf' ha => (hflows flow f' hf').2 a ha, fun key s hs => ?_,
      happrovals, ?_, ?_⟩
    · rw [Table.get?_upsert] at hs
      by_cases hkey : key = P.site.env.sha256 session
      · rw [if_pos hkey] at hs
        cases hs
        exact ⟨flow, session, hkey, hopened⟩
      · rw [if_neg hkey] at hs
        exact hsessions.delete p key s hs
    · show (Table.modify _ _ _).rows.length ≤ 128
      rw [Table.length_modify]
      exact h.flowsLimit
    · exact (Table.length_upsert_le _ _ _).trans hopens.room

theorem traced_step (hu : Unmistaken P (events ++ [e])) (h : Traced P events (run P events)) :
    Traced P (events ++ [e]) (run P (events ++ [e])) := by
  rw [PanelState.run_snoc]
  cases e with
  | pass d => exact ⟨h.flows.snoc _, h.sessions.snoc _, fun auth ha => (h.approvals auth ha).snoc _, h.flowsLimit, h.sessionsLimit⟩
  | storeAuth snapshot =>
    exact ⟨h.flows.snoc _, h.sessions.snoc _, fun auth ha => (h.approvals auth ha).snoc _, h.flowsLimit, h.sessionsLimit⟩
  | beginLogin headers intent peer flow browser => exact traced_beginLogin h
  | authenticate utc request limited => exact traced_authenticate h
  | approve auth flow intent code => exact traced_approve h
  | finish utc headers flow code peer session csrf => exact traced_finish hu h
  | logout headers =>
    refine ⟨?_, ?_, fun auth ha => (h.approvals auth ha).snoc _, ?_, ?_⟩ <;>
      dsimp only [PanelState.step, WebState.logout] <;> split
    · exact h.flows.snoc _
    · exact h.flows.snoc _
    · exact (h.sessions.snoc _).delete _
    · exact h.sessions.snoc _
    · exact h.flowsLimit
    · exact h.flowsLimit
    · exact (Table.length_delete_le _ _).trans h.sessionsLimit
    · exact h.sessionsLimit

theorem traced_run (hu : Unmistaken P events) : Traced P events (run P events) := by
  induction events using List.reverseRecOn with
  | nil => exact ⟨(fun _ _ h => nomatch h), (fun _ _ h => nomatch h), (fun _ h => nomatch h), Nat.zero_le _, Nat.zero_le _⟩
  | append_singleton events e ih => exact traced_step hu (ih hu.prefix_of)

/-! ## One session for each login -/

theorem step_flow {flow : String} {f : LoginFlow} (h : (s.step P e).web.flows.get? flow = some f) :
    (∃ f0, s.web.flows.get? flow = some f0 ∧ (f0.consumed = true → f.consumed = true)) ∨ flow ∈ e.secrets := by
  have hsame : ∀ {flows : Table String LoginFlow}, flows = s.web.flows → flows.get? flow = some f →
      (∃ f0, s.web.flows.get? flow = some f0 ∧ (f0.consumed = true → f.consumed = true)) ∨ flow ∈ e.secrets := by
    rintro flows rfl h
    exact .inl ⟨f, h, fun h => h⟩
  have hmodify : ∀ {id : String} {g : LoginFlow → LoginFlow}, (∀ f, f.consumed = true → (g f).consumed = true) →
      (s.web.flows.modify id g).get? flow = some f →
      (∃ f0, s.web.flows.get? flow = some f0 ∧ (f0.consumed = true → f.consumed = true)) ∨ flow ∈ e.secrets := by
    intro id g hg h
    rw [Table.get?_modify] at h
    by_cases hid : flow = id
    · rw [if_pos hid] at h
      obtain ⟨f0, hf0, rfl⟩ := Option.map_eq_some_iff.mp h
      exact .inl ⟨f0, hid ▸ hf0, hg f0⟩
    · rw [if_neg hid] at h
      exact .inl ⟨f, h, fun h => h⟩
  cases e with
  | pass d => exact hsame rfl h
  | storeAuth snapshot => exact hsame rfl h
  | beginLogin headers intent peer id browser =>
    dsimp only [PanelState.step] at h
    rcases beginLogin_cases P s.web s.now headers peer intent id browser
      with (hw | ⟨p, hw⟩) | ⟨_, _, _, p, _, hw⟩ <;> rw [hw] at h
    · exact hsame rfl h
    · exact hsame rfl (Table.get?_of_delete h)
    · rw [Table.get?_upsert] at h
      by_cases hid : flow = id
      · exact .inr (by simp [PanelEvent.secrets, hid])
      · rw [if_neg hid] at h
        exact hsame rfl (Table.get?_of_delete h)
  | authenticate utc request limited =>
    have hweb : (s.step P (.authenticate utc request limited)).web = _ := authenticate_web s.auth utc request limited
    rw [hweb] at h
    rcases authenticateCookie_cases P s.web s.now s.auth utc request with
      hw | ⟨_, _, _, _, _, hw⟩ <;> rw [hw] at h
    · exact hsame rfl h
    · exact hsame rfl h
  | approve auth id intent code =>
    dsimp only [PanelState.step] at h
    split at h
    · rcases approve_cases P s.web s.now auth id intent code with hw | ⟨_, _, _, _, hw⟩ <;>
        rw [hw] at h
      · exact hsame rfl h
      · refine hmodify ?_ h
        exact fun _ hf => hf
    · exact hsame rfl h
  | finish utc headers id code peer session csrf =>
    dsimp only [PanelState.step] at h
    rcases finish_cases P s.web s.now headers peer s.auth utc id code session
      csrf with ⟨_, hw | ⟨p, hw⟩⟩ | ⟨_, _, _, _, _, _, hopens⟩
    · rw [hw] at h
      exact hsame rfl h
    · rw [hw] at h
      exact hsame rfl h
    · rw [hopens.result] at h
      exact hmodify (fun _ _ => rfl) h
  | logout headers =>
    dsimp only [PanelState.step, WebState.logout] at h
    split at h <;> exact hsame rfl h

theorem FinishesAt.flow {flow : String} (h : FinishesAt P events flow e) :
    (∃ f, (run P events).web.flows.get? flow = some f ∧ f.consumed = false) ∧
      ∀ f, (run P (events ++ [e])).web.flows.get? flow = some f → f.consumed = true := by
  cases e with
  | finish utc headers id code peer session csrf =>
    obtain ⟨rfl, cookies, hpage⟩ := h
    rcases finish_cases P (run P events).web (run P events).now
      headers peer (run P events).auth utc id code session csrf with
      ⟨hno, _⟩ | ⟨_, origin, browser, f, approval, p, hopens⟩
    · exact absurd hpage (hno cookies)
    · have hunused : f.consumed = false := by
        have := hopens.passes
        unfold WebState.finishes at this
        simp only [Bool.not_eq_true', Bool.or_eq_false_iff] at this
        exact this.1.1.1.1.1.1
      refine ⟨⟨f, hopens.found, hunused⟩, fun f' hf' => ?_⟩
      rw [PanelState.run_snoc] at hf'
      dsimp only [PanelState.step] at hf'
      rw [hopens.result, Table.get?_modify_self, hopens.found] at hf'
      cases hf'
      rfl
  | _ => exact absurd h id

theorem used_up (hu : Unmistaken P events) (hdistinct : (events.flatMap PanelEvent.secrets).Nodup)
    {pre : List PanelEvent} {flow : String} (hpre : Precedes pre e events) (h : FinishesAt P pre flow e) :
    ∀ f, (run P events).web.flows.get? flow = some f → f.consumed = true := by
  induction events using List.reverseRecOn with
  | nil => exact absurd hpre.mem (by simp)
  | append_singleton events e' ih =>
    rw [List.flatMap_append] at hdistinct
    rcases hpre.cases_snoc with ⟨rfl, rfl⟩ | hearlier
    · exact h.flow.2
    · intro f hf
      have hspent := ih hu.prefix_of (List.nodup_append.mp hdistinct).1 hearlier
      rw [PanelState.run_snoc] at hf
      rcases step_flow hf with ⟨f0, hf0, hkeeps⟩ | hagain
      · exact hkeeps (hspent f0 hf0)
      · -- the login had begun before, so its identifier is not drawn again
        obtain ⟨post, rfl⟩ := hearlier
        obtain ⟨f1, hf1, _⟩ := h.flow.1
        obtain ⟨⟨browser, _, hbegan⟩, _⟩ := (traced_run hu.prefix_of.prefix_of).flows flow f1 hf1
        have hfirst : flow ∈ (pre ++ e :: post).flatMap PanelEvent.secrets := by
          rw [List.flatMap_append]
          exact List.mem_append_left _ hbegan.drawn.1
        exact absurd rfl ((List.nodup_append.mp hdistinct).2.2 flow hfirst flow (by simpa using hagain))

theorem WebSession.admits_csrf {request : WebRequest} {E : Env} {now : Instant} {origin : String} {t : WebSession}
    (h : t.admits E now request origin = true) : t.origin = origin ∧
      (request.method ≠ .get → request.method ≠ .head → request.headers.text "origin" = some origin ∧
        ∃ value, request.headers.text "x-sparkplane-csrf" = some value ∧ tokenMatches E t.csrf value = true) := by
  unfold WebSession.admits at h
  simp only [Bool.and_eq_true, Bool.not_eq_true', Bool.or_eq_false_iff, decide_eq_false_iff_not, ne_eq, not_not] at h
  obtain ⟨⟨⟨horigin, _⟩, hcsrf⟩, _⟩ := h
  refine ⟨horigin, fun hget hhead => ?_⟩
  have hmethod : request.method ∉ [Method.get, Method.head] := by simp [hget, hhead]
  rw [decide_eq_true hmethod, Bool.true_and, Bool.not_eq_false'] at hcsrf
  unfold carriesCsrf at hcsrf
  rw [Bool.and_eq_true, decide_eq_true_eq, Option.any_eq_true] at hcsrf
  exact hcsrf

theorem Panel.origin_configured {headers : HeaderMap} {origin configured : String} (h : P.origin headers = some origin)
    (hconfigured : P.config.origin = some configured) : origin = configured := by
  unfold Panel.origin at h
  simp only [Option.bind_eq_bind, Option.bind_eq_some_iff] at h
  obtain ⟨host, _, url, _, h⟩ := h
  split at h
  · cases h
  · obtain ⟨name, _, h⟩ := Option.bind_eq_some_iff.mp h
    split at h
    · cases h
    · split at h
      · cases h
      · rename_i hany
        cases h
        rw [hconfigured] at hany
        simpa using Eq.symm (by simpa using hany)

end

/-- The request at this point of the run is authenticated by a session cookie, as the token. -/
def CookieRequest (P : Panel) (pre : List PanelEvent) (utc : Timestamp) (request : WebRequest)
    (auth : AuthenticatedToken) : Prop :=
  (authenticateCookie P (run P pre).web (run P pre).auth (run P pre).now utc request).1 = some auth

/-- What a request that a session cookie authenticates goes back to, and what it carries. -/
structure ApprovedRequest (P : Panel) (pre : List PanelEvent) (utc : Timestamp) (request : WebRequest)
    (auth : AuthenticatedToken) (value flow session csrf origin : String) : Prop where
  presents : cookie P.site.env request.headers "sparkplane_web" = some value
  resolves : P.site.env.sha256 value = P.site.env.sha256 session
  opened : Opened P pre flow session csrf origin auth.id
  active : (run P pre).auth.Active P.site.env utc auth.id
  configured : ∀ configured, P.config.origin = some configured → origin = configured
  carries : request.method ≠ .get → request.method ≠ .head →
    request.headers.text "origin" = some origin ∧ request.headers.text "x-sparkplane-csrf" = some csrf

theorem session_approved (P : Panel) (events : List PanelEvent)
    (hdistinct : (events.flatMap PanelEvent.secrets).Nodup) (hu : Unmistaken P events) :
    (∀ pre utc request limited auth, Precedes pre (.authenticate utc request limited) events →
      CookieRequest P pre utc request auth →
      ∃ value flow session csrf origin, ApprovedRequest P pre utc request auth value flow session csrf origin) ∧
    (∀ pre pre' e e' flow, Precedes pre e events → Precedes pre' e' events → FinishesAt P pre flow e →
      FinishesAt P pre' flow e' → pre = pre') ∧
    (run P events).web.flows.rows.length ≤ 128 ∧
    (run P events).web.sessions.rows.length ≤ 1024 := by
  refine ⟨fun pre utc request limited auth hpre hauth => ?_, fun pre pre' e e' flow hpre hpre' h h' => ?_,
    (traced_run hu).flowsLimit, (traced_run hu).sessionsLimit⟩
  · have hmem := hpre.mem
    obtain ⟨post, rfl⟩ := hpre
    have htraced := traced_run hu.prefix_of
    unfold CookieRequest at hauth
    rcases authenticateCookie_cases P (run P pre).web (run P pre).now
      (run P pre).auth utc request with hno | ⟨found, value, origin, t, hcookie, hfound⟩
    · rw [hno] at hauth
      cases hauth
    · rw [hfound] at hauth
      cases hauth
      obtain ⟨flow, session, hkey, hopened⟩ := htraced.sessions _ t hcookie.found
      obtain ⟨hid, hactive⟩ := tokenIdentity_active hcookie.identity
      obtain ⟨horigin, hcarries⟩ := WebSession.admits_csrf hcookie.admits
      refine ⟨value, flow, session, t.csrf, t.origin, hcookie.presents, hkey, hid ▸ hopened, hid ▸ hactive,
        fun configured hc => horigin.trans (Panel.origin_configured hcookie.atOrigin hc), fun hget hhead => ?_⟩
      obtain ⟨hheader, csrf, hcsrf, hmatches⟩ := hcarries hget hhead
      have hdrawn : t.csrf ∈ (pre ++ .authenticate utc request limited :: post).flatMap PanelEvent.secrets := by
        rw [List.flatMap_append]
        exact List.mem_append_left _ hopened.drawn
      rw [hcsrf, hu.csrf t.csrf hdrawn _ hmem csrf hcsrf hmatches, horigin]
      exact ⟨hheader, rfl⟩
  · -- the login of the earlier one is used up when the later one comes
    rcases hpre.total hpre' with hsame | hbefore | hafter
    · exact hsame
    · obtain ⟨post', rfl⟩ := hpre'
      rw [List.flatMap_append] at hdistinct
      obtain ⟨f, hf, hunused⟩ := h'.flow.1
      rw [used_up hu.prefix_of (List.nodup_append.mp hdistinct).1 hbefore h f hf] at hunused
      cases hunused
    · obtain ⟨post, rfl⟩ := hpre
      rw [List.flatMap_append] at hdistinct
      obtain ⟨f, hf, hunused⟩ := h.flow.1
      rw [used_up hu.prefix_of (List.nodup_append.mp hdistinct).1 hafter h' f hf] at hunused
      cases hunused

/-! ## Two requests of one session -/

def sameDigits (c : Char) : String := String.ofList (List.replicate 64 c)

def webDigests : List (String × String) :=
  [(sameDigits '2', "4f2e8d65483c641648cdb374ae9d8abd368d269e4ddffe092a8237b8162cddd6"),
   (sameDigits '3', "79bd7d7fd684b399857c582b1b7172ddf277d4fe1b027ec52b28da3ae381e675"),
   (sameDigits '4', "f435f2420b50c70ec80865cf8e20b169874165fb8576b48633caf2a8176d2e4a")]

def examplePanel : Panel where
  site := { exampleSite with
    env := { exampleEnv with
      sha256 := fun s => ((webDigests.find? fun p => p.1 = s).map Prod.snd).getD (exampleEnv.sha256 s) } }
  config := ⟨true, some "https://localhost"⟩
  allowedClients := []
  dnsSans := ["localhost"]
  ipSans := []
  parseUrl s := if s = "https://localhost" then
    some ⟨"", none, "/", none, none, some "localhost", "https://localhost"⟩ else none

def localhost : String × Option String := ("host", some "localhost")

def loggedIn : List PanelEvent :=
  [.beginLogin [localhost] (sameDigits '0') none (sameDigits '1') (sameDigits '2'),
   .authenticate 0 ⟨.post, approvePath, [localhost, ("authorization", some "Bearer bootstrap")], none⟩ false,
   .approve .admin (sameDigits '1') (sameDigits '0') (sameDigits '3'),
   .finish 0 [localhost, ("cookie", some ("sparkplane_web_pending=" ++ sameDigits '2'))] (sameDigits '1') (sameDigits '3')
     none (sameDigits '4') (sameDigits '5')]

def sessionCookie : String × Option String := ("cookie", some ("sparkplane_web=" ++ sameDigits '4'))

def downloadRequest : WebRequest :=
  ⟨.post, apiBase ++ "/downloads", [localhost, sessionCookie, ("origin", some "https://localhost"),
    ("x-sparkplane-csrf", some (sameDigits '5'))], none⟩

def headRequest : WebRequest := ⟨.head, apiBase ++ "/instances", [localhost, sessionCookie], none⟩

def withRequest (request : WebRequest) : List PanelEvent := loggedIn ++ [.authenticate 0 request false]

def unmistakenCheck (P : Panel) (events : List PanelEvent) : Bool :=
  (events.flatMap PanelEvent.secrets).all fun drawn => events.all fun e =>
    ((cookie P.site.env e.headers "sparkplane_web_pending").all fun value =>
      !tokenMatches P.site.env (P.site.env.sha256 drawn) (P.site.env.sha256 value) || value = drawn) &&
    (e.headers.text "x-sparkplane-csrf").all fun value => !tokenMatches P.site.env drawn value || value = drawn

theorem unmistaken_of_check {P : Panel} {events : List PanelEvent} (h : unmistakenCheck P events = true) :
    Unmistaken P events := by
  have hcheck : ∀ drawn ∈ events.flatMap PanelEvent.secrets, ∀ e ∈ events, _ := fun drawn hd e he =>
    Bool.and_eq_true _ _ ▸ List.all_eq_true.mp (List.all_eq_true.mp h drawn hd) e he
  refine ⟨fun drawn hd e he value hvalue hm => ?_, fun drawn hd e he value hvalue hm => ?_⟩
  · have := (hcheck drawn hd e he).1
    rw [hvalue] at this
    simpa [hm] using this
  · have := (hcheck drawn hd e he).2
    rw [hvalue] at this
    simpa [hm] using this

theorem download_from_approved_session : CookieRequest examplePanel loggedIn 0 downloadRequest .admin ∧
    ∃ value flow session csrf origin,
      ApprovedRequest examplePanel loggedIn 0 downloadRequest .admin value flow session csrf origin := by
  have hfacts : ((withRequest downloadRequest).flatMap PanelEvent.secrets).Nodup ∧
      unmistakenCheck examplePanel (withRequest downloadRequest) = true ∧
      (authenticateCookie examplePanel (run examplePanel loggedIn).web
        (run examplePanel loggedIn).auth (run examplePanel loggedIn).now 0 downloadRequest).1 =
          some .admin := by decide +kernel
  obtain ⟨hdistinct, hcheck, hauth⟩ := hfacts
  exact ⟨hauth, (session_approved examplePanel (withRequest downloadRequest) hdistinct (unmistaken_of_check hcheck)).1
    loggedIn 0 downloadRequest false .admin (.last _ _) hauth⟩

/-- A method other than `GET` that carries neither the `Origin` nor the CSRF value. -/
theorem head_needs_no_csrf :
    ((withRequest headRequest).flatMap PanelEvent.secrets).Nodup ∧ Unmistaken examplePanel (withRequest headRequest) ∧
    CookieRequest examplePanel loggedIn 0 headRequest .admin ∧ headRequest.method ≠ .get ∧
    headRequest.headers.text "origin" = none ∧ headRequest.headers.text "x-sparkplane-csrf" = none := by
  have hfacts : ((withRequest headRequest).flatMap PanelEvent.secrets).Nodup ∧
      unmistakenCheck examplePanel (withRequest headRequest) = true ∧
      (authenticateCookie examplePanel (run examplePanel loggedIn).web
        (run examplePanel loggedIn).auth (run examplePanel loggedIn).now 0 headRequest).1 =
          some .admin := by decide +kernel
  exact ⟨hfacts.1, unmistaken_of_check hfacts.2.1, hfacts.2.2, by decide, by decide, by decide⟩

/-! ## What a bearer learns of a login -/

/-- Only the token that approved the login gets an answer, and "incomplete" only while no session is open. -/
theorem flowStatus_truthful (P : Panel) (events : List PanelEvent)
    (hdistinct : (events.flatMap PanelEvent.secrets).Nodup) (hu : Unmistaken P events) (auth : AuthenticatedToken)
    (flow : String) (complete : Bool)
    (h : (run P events).web.flowStatus (run P events).now auth flow = .complete complete) :
    (∃ browser start, Began P events flow browser start ∧ Approved P events flow auth.id start ∧
      start.elapsed (run P events).now < secs flowSeconds) ∧
    (complete = false → ∀ pre e, Precedes pre e events → ¬ FinishesAt P pre flow e) := by
  unfold WebState.flowStatus at h
  split at h
  next f hf =>
    split at h
    next hok =>
      cases h
      simp only [Bool.and_eq_true, decide_eq_true_eq, Option.any_eq_true] at hok
      obtain ⟨hfresh, a, ha, hid⟩ := hok
      obtain ⟨⟨browser, _, hbegan⟩, happroved⟩ := (traced_run hu).flows flow f hf
      refine ⟨⟨browser, f.created, hbegan, hid ▸ happroved a ha, hfresh⟩, ?_⟩
      intro hunused pre e hpre hfinish
      rw [used_up hu hdistinct hpre hfinish f hf] at hunused
      cases hunused
    next => cases h
  next => cases h

theorem flowStatus_waits : (run examplePanel (loggedIn.take 3)).web.flowStatus (run examplePanel (loggedIn.take 3)).now
      .admin (sameDigits '1') = .complete false ∧
    ∀ pre e, Precedes pre e (loggedIn.take 3) → ¬ FinishesAt examplePanel pre (sameDigits '1') e := by
  have hfacts : ((loggedIn.take 3).flatMap PanelEvent.secrets).Nodup ∧
      unmistakenCheck examplePanel (loggedIn.take 3) = true ∧
      (run examplePanel (loggedIn.take 3)).web.flowStatus (run examplePanel (loggedIn.take 3)).now .admin
        (sameDigits '1') = .complete false := by decide +kernel
  exact ⟨hfacts.2.2,
    (flowStatus_truthful examplePanel _ hfacts.1 (unmistaken_of_check hfacts.2.1) .admin _ _ hfacts.2.2).2 rfl⟩

end Sparkplane

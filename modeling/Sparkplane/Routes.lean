import Sparkplane.Routing
import Sparkplane.WebSound
import Sparkplane.AuthSound

/-!
# Routes and scopes

`router` of `agent.rs` with `api_routes` of `web.rs`, and `public_routes`, which `authenticate` does
not guard. The router takes a path by its segments; `required_scope` looks at the text of the path.
`handler_scoped_iff` compares the two.
-/

namespace Sparkplane

open Routing

/-! ## The router -/

inductive Handler where
  | status | doctor | createLaunchSession | getLaunchSession | finishLaunchSession | metrics | certificateStatus
  | listOperations | qualification | listModels | downloadModel | admission | listInstances | serveInstance
  | stopInstance | instanceLogs | getModel | removeModel | getOperation | cancelOperation | operationEvents
  | listTokens | createToken | revokeToken
  | gatewayModels | gatewayCompletions | gatewayChatCompletions | gatewayResponses | gatewayEmbeddings
  | openaiNotFound | gatewayAnthropicMessages | gatewayAnthropicCountTokens | anthropicNotFound
  | approve | flowStatus | me | logout | analyticsSummary | analyticsRequests | analyticsSessions | audit
  | health | healthHistory | sessionCompression | recover
  | panelRedirect | asset | beginLogin | finishLogin | completeScript
  deriving DecidableEq

structure Endpoint where
  on : List (Method × Handler)
  any : Option Handler := none

/-- A `get` route serves `HEAD` as well. -/
def Endpoint.serve (e : Endpoint) (method : Method) : Option Handler :=
  (((e.on.find? fun p => p.1 = method).or
    (if method = .head then e.on.find? fun p => p.1 = .get else none)).map Prod.snd).or e.any

def route (pattern : String) (on : List (Method × Handler)) : Route Endpoint := ⟨parse pattern, { on }⟩

def routeAny (pattern : String) (handler : Handler) : Route Endpoint :=
  ⟨parse pattern, { on := [], any := some handler }⟩

def agentRoutes : List (Route Endpoint) :=
  [route (apiBase ++ "/status") [(.get, .status)], route (apiBase ++ "/doctor") [(.get, .doctor)],
   route (apiBase ++ "/launch-sessions") [(.post, .createLaunchSession)],
   route (apiBase ++ "/launch-sessions/\x7bid\x7d") [(.get, .getLaunchSession)],
   route (apiBase ++ "/launch-sessions/\x7bid\x7d/finish") [(.post, .finishLaunchSession)],
   route (apiBase ++ "/metrics") [(.get, .metrics)],
   route (apiBase ++ "/certificates/status") [(.get, .certificateStatus)],
   route (apiBase ++ "/operations") [(.get, .listOperations)],
   route (apiBase ++ "/qualifications") [(.post, .qualification)],
   route (apiBase ++ "/models") [(.get, .listModels)],
   route (apiBase ++ "/downloads") [(.post, .downloadModel)],
   route (apiBase ++ "/admission") [(.post, .admission)],
   route (apiBase ++ "/instances") [(.get, .listInstances), (.post, .serveInstance)],
   route (apiBase ++ "/instances/\x7bid\x7d") [(.delete, .stopInstance)],
   route (apiBase ++ "/instances/\x7bid\x7d/logs") [(.get, .instanceLogs)],
   route (apiBase ++ "/models/\x7bid\x7d") [(.get, .getModel), (.delete, .removeModel)],
   route (apiBase ++ "/operations/\x7bid\x7d") [(.get, .getOperation), (.delete, .cancelOperation)],
   route (apiBase ++ "/operations/\x7bid\x7d/events") [(.get, .operationEvents)],
   route (apiBase ++ "/tokens") [(.get, .listTokens), (.post, .createToken)],
   route (apiBase ++ "/tokens/\x7bid\x7d") [(.delete, .revokeToken)]]

def apiRoutes : List (Route Endpoint) :=
  [route (apiBase ++ "/web-auth/approve") [(.post, .approve)],
   route (apiBase ++ "/web-auth/flows/\x7bid\x7d") [(.get, .flowStatus)],
   route (apiBase ++ "/web-session") [(.get, .me), (.delete, .logout)],
   route (apiBase ++ "/analytics") [(.get, .analyticsSummary)],
   route (apiBase ++ "/analytics/requests") [(.get, .analyticsRequests)],
   route (apiBase ++ "/analytics/sessions") [(.get, .analyticsSessions)],
   route (apiBase ++ "/audit") [(.get, .audit)],
   route (apiBase ++ "/health") [(.get, .health)],
   route (apiBase ++ "/health/history") [(.get, .healthHistory)],
   route (apiBase ++ "/launch-sessions/\x7bid\x7d/compression") [(.post, .sessionCompression)],
   route (apiBase ++ "/instances/\x7bid\x7d/recover") [(.post, .recover)]]

def inferenceRoutes : List (Route Endpoint) :=
  [route "/openai/\x7binstance\x7d/v1/models" [(.get, .gatewayModels)],
   route "/openai/\x7binstance\x7d/v1/completions" [(.post, .gatewayCompletions)],
   route "/openai/\x7binstance\x7d/v1/chat/completions" [(.post, .gatewayChatCompletions)],
   route "/openai/\x7binstance\x7d/v1/responses" [(.post, .gatewayResponses)],
   route "/openai/\x7binstance\x7d/v1/embeddings" [(.post, .gatewayEmbeddings)],
   routeAny "/openai/\x7binstance\x7d/v1/\x7b*path\x7d" .openaiNotFound,
   route "/anthropic/\x7binstance\x7d/v1/messages" [(.post, .gatewayAnthropicMessages)],
   route "/anthropic/\x7binstance\x7d/v1/messages/count_tokens" [(.post, .gatewayAnthropicCountTokens)],
   routeAny "/anthropic/\x7binstance\x7d/\x7b*path\x7d" .anthropicNotFound]

def publicRoutes : List (Route Endpoint) :=
  [route "/panel" [(.get, .panelRedirect)], route "/panel/" [(.get, .asset)],
   route "/panel/auth/begin" [(.get, .beginLogin)],
   route "/panel/auth/finish" [(.get, .finishLogin)],
   route "/panel/auth/complete.js" [(.get, .completeScript)],
   route "/panel/\x7b*path\x7d" [(.get, .asset)]]

def router : List (Route Endpoint) := agentRoutes ++ apiRoutes ++ inferenceRoutes ++ publicRoutes

/-- The handler of a request; without one the answer is 404 or 405. -/
def dispatch (method : Method) (path : String) : Option Handler :=
  (resolve router path).bind (·.serve method)

/-! ## Scopes -/

/-- What a handler does, as a scope: those that change something and those of the launch sessions
and the logs. -/
def Handler.scope : Handler → Option TokenScope
  | .serveInstance | .stopInstance | .recover => some .instancesWrite
  | .instanceLogs => some .logsRead
  | .downloadModel | .removeModel => some .modelsWrite
  | .cancelOperation => some .operationsCancel
  | .qualification => some .benchmarksWrite
  | .createToken | .revokeToken | .createLaunchSession | .getLaunchSession | .finishLaunchSession
  | .sessionCompression => some .admin
  | _ => none

def StopsLogs (method : Method) (path : String) : Prop := method = .delete ∧ path = apiBase ++ "/instances/logs"

def Agrees (r : Route Endpoint) : Prop :=
  ∀ path method handler scope, admits r.pattern (segments path) = true → r.endpoint.serve method = some handler →
    handler.scope = some scope → ¬ StopsLogs method path → requiredScope method path = some scope

variable {handler : Handler} {method : Method} {on : List (Method × Handler)} {pattern : String}
variable {scope : TokenScope}

theorem Endpoint.serve_cases (h : Endpoint.serve ⟨on, none⟩ method = some handler) :
    (method, handler) ∈ on ∨ method = .head ∧ (.get, handler) ∈ on := by
  unfold Endpoint.serve at h
  rw [Option.or_none, Option.map_eq_some_iff] at h
  obtain ⟨⟨m, k⟩, hfind, rfl⟩ := h
  rcases Option.or_eq_some_iff.mp hfind with hfound | ⟨-, hhead⟩
  · have hm : m = method := by simpa using List.find?_some hfound
    exact .inl (hm ▸ List.mem_of_find?_eq_some hfound)
  · split at hhead
    · next hmethod =>
      have hm : m = .get := by simpa using List.find?_some hhead
      exact .inr ⟨hmethod, hm ▸ List.mem_of_find?_eq_some hhead⟩
    · cases hhead

def reaching (on : List (Method × Handler)) : List (Method × Handler) :=
  on ++ (on.filter fun p => p.1 = .get).map fun p => (.head, p.2)

theorem mem_reaching (h : Endpoint.serve ⟨on, none⟩ method = some handler) : (method, handler) ∈ reaching on := by
  rcases Endpoint.serve_cases h with hon | ⟨rfl, hget⟩
  · exact List.mem_append_left _ hon
  · exact List.mem_append_right _ (List.mem_map.mpr ⟨(.get, handler), List.mem_filter.mpr ⟨hget, rfl⟩, rfl⟩)

theorem agrees_free (h : ∀ p ∈ reaching on, p.2.scope = none) : Agrees (route pattern on) := by
  intro path method handler scope _ hserve hscope
  have hnone : handler.scope = none := h _ (mem_reaching hserve)
  rw [hnone] at hscope
  cases hscope

theorem agrees_any (h : handler.scope = none) : Agrees (routeAny pattern handler) := by
  intro path method k scope _ hserve hscope
  have hk : k = handler := by
    simpa [routeAny, Endpoint.serve] using hserve.symm
  rw [hk, h] at hscope
  cases hscope

theorem agrees_fixed (hpattern : parse pattern = (segments pattern).map .lit)
    (h : ∀ p ∈ reaching on, p.2.scope.all fun scope => requiredScope p.1 pattern = some scope) :
    Agrees (route pattern on) := by
  intro path method handler scope hpath hserve hscope _
  rw [show (route pattern on).pattern = _ from hpattern] at hpath
  rw [eq_of_segments (admits_lits hpath)]
  have hagree := h _ (mem_reaching hserve)
  rw [hscope] at hagree
  simpa using hagree

def Around (pattern before after : String) : Prop :=
  parse pattern = (segments before).dropLast.map .lit ++ .param :: (segments after).tail.map .lit ∧
  (segments before).dropLast.flatMap (· ++ ['/']) = before.toList ∧
  (segments after).tail.flatMap ('/' :: ·) = after.toList

instance (pattern before after : String) : Decidable (Around pattern before after) :=
  inferInstanceAs (Decidable (_ ∧ _ ∧ _))

theorem agrees_item (before after : String) (hpattern : Around pattern (apiBase ++ before) after)
    (h : ∀ id : String, '/' ∉ id.toList → ∀ p ∈ reaching on, ∀ scope, p.2.scope = some scope →
      ¬ StopsLogs p.1 (apiBase ++ (before ++ (id ++ after))) →
      requiredScope p.1 (apiBase ++ (before ++ (id ++ after))) = some scope) : Agrees (route pattern on) := by
  obtain ⟨hparse, hbefore, hafter⟩ := hpattern
  intro path method handler scope hpath hserve hscope hstops
  rw [show (route pattern on).pattern = _ from hparse] at hpath
  obtain ⟨id, hid, hlist⟩ := eq_of_admits_one hpath
  obtain rfl : path = apiBase ++ (before ++ (String.ofList id ++ after)) := by
    refine String.toList_inj.mp (hlist.trans ?_)
    rw [hbefore, hafter]
    simp only [String.toList_append, String.toList_ofList, List.append_assoc]
  exact h (String.ofList id) (String.toList_ofList ▸ hid) _ (mem_reaching hserve) scope hscope hstops

/-! ## The routes with a parameter -/

theorem startsWith_append (pre s t : String) : startsWith (pre ++ s) (pre ++ t) = startsWith s t := by
  rw [Bool.eq_iff_iff, startsWith, startsWith, List.isPrefixOf_iff_prefix, List.isPrefixOf_iff_prefix,
    String.toList_append, String.toList_append, List.prefix_append_right_inj]

theorem append_eq_append (pre s t : String) : pre ++ s = pre ++ t ↔ s = t := by
  rw [← String.toList_inj, String.toList_append, String.toList_append, List.append_right_inj, String.toList_inj]

theorem requiredScope_api (method : Method) (t : String) : requiredScope method (apiBase ++ t) =
      if startsWith "/analytics" t || startsWith "/health" t then some .analyticsRead
      else if t = "/audit" then some .admin
      else if t = "/status" then some .instancesRead
      else if t = "/metrics" then some .admin
      else if startsWith "/operations" t then some (if method = .delete then .operationsCancel else .operationsRead)
      else if startsWith "/instances/" t && endsWith "/logs" (apiBase ++ t) then some .logsRead
      else if t = "/instances" || startsWith "/instances/" t then
        some (if method = .get then .instancesRead else .instancesWrite)
      else if startsWith "/launch-sessions" t || startsWith "/tokens" t || t = "/doctor" ||
          startsWith "/certificates" t then some .admin
      else if startsWith "/models" t then some (if method = .delete then .modelsWrite else .modelsRead)
      else if t = "/downloads" then some .modelsWrite
      else if t = "/admission" then some .instancesWrite
      else if t = "/qualifications" then some .benchmarksWrite
      else none := by
  have hopenai : startsWith "/openai/" (apiBase ++ t) = false := by
    rw [startsWith, String.toList_append]
    rfl
  have hanthropic : startsWith "/anthropic/" (apiBase ++ t) = false := by
    rw [startsWith, String.toList_append]
    rfl
  simp only [requiredScope, startsWith_append, append_eq_append, hopenai, hanthropic, Bool.or_self, Bool.false_eq_true,
    if_false]

theorem requiredScope_tokens (method : Method) (rest : String) :
    requiredScope method (apiBase ++ ("/tokens/" ++ rest)) = some .admin := by
  simp only [requiredScope_api, startsWith, ← String.toList_inj, String.toList_append]
  rfl

theorem requiredScope_sessions (method : Method) (rest : String) :
    requiredScope method (apiBase ++ ("/launch-sessions/" ++ rest)) = some .admin := by
  simp only [requiredScope_api, startsWith, ← String.toList_inj, String.toList_append]
  rfl

theorem requiredScope_models (rest : String) :
    requiredScope .delete (apiBase ++ ("/models/" ++ rest)) = some .modelsWrite := by
  simp only [requiredScope_api, startsWith, ← String.toList_inj, String.toList_append]
  rfl

theorem requiredScope_operations (rest : String) :
    requiredScope .delete (apiBase ++ ("/operations/" ++ rest)) = some .operationsCancel := by
  simp only [requiredScope_api, startsWith, ← String.toList_inj, String.toList_append]
  rfl

theorem requiredScope_instances (method : Method) (rest : String) :
    requiredScope method (apiBase ++ ("/instances/" ++ rest)) =
      if endsWith "/logs" (apiBase ++ ("/instances/" ++ rest)) then some .logsRead
      else some (if method = .get then .instancesRead else .instancesWrite) := by
  simp only [requiredScope_api, startsWith, ← String.toList_inj, String.toList_append]
  rfl

theorem agrees_stop : Agrees (route (apiBase ++ "/instances/\x7bid\x7d") [(.delete, .stopInstance)]) := by
  refine agrees_item "/instances/" "" (by decide +kernel) fun id hid p hp scope hscope hstops => ?_
  obtain rfl : p = (.delete, .stopInstance) := by simpa [reaching] using hp
  cases hscope
  rw [String.append_empty] at hstops ⊢
  rw [requiredScope_instances, if_neg]
  · rfl
  · intro hsuffix
    rw [endsWith, List.isSuffixOf_iff_suffix, String.toList_append, String.toList_append] at hsuffix
    have hlogs : "logs".toList = id.toList :=
      eq_of_suffix_after (l := apiBase.toList ++ "/instances".toList) (by decide) hid
        (by rw [List.append_assoc]; exact hsuffix)
    rw [← String.toList_inj.mp hlogs] at hstops
    exact hstops ⟨rfl, rfl⟩

theorem agrees_logs : Agrees (route (apiBase ++ "/instances/\x7bid\x7d/logs") [(.get, .instanceLogs)]) := by
  refine agrees_item "/instances/" "/logs" (by decide +kernel) fun id hid p hp scope hscope hstops => ?_
  have hlogs : p.2 = .instanceLogs := by
    rcases List.mem_cons.mp hp with rfl | hp
    · rfl
    · exact List.mem_singleton.mp hp ▸ rfl
  rw [hlogs] at hscope
  cases hscope
  rw [requiredScope_instances, if_pos]
  rw [endsWith, List.isSuffixOf_iff_suffix, ← String.append_assoc, ← String.append_assoc, String.toList_append]
  exact List.suffix_append _ _

theorem agrees_recover : Agrees (route (apiBase ++ "/instances/\x7bid\x7d/recover") [(.post, .recover)]) := by
  refine agrees_item "/instances/" "/recover" (by decide +kernel) fun id hid p hp scope hscope hstops => ?_
  obtain rfl : p = (.post, .recover) := by simpa [reaching] using hp
  cases hscope
  rw [requiredScope_instances, if_neg]
  · rfl
  · rw [endsWith, ← String.append_assoc, ← String.append_assoc, String.toList_append, List.isSuffixOf,
      List.reverse_append]
    exact Bool.false_ne_true

theorem agrees_session (after : String) (hpattern : Around pattern (apiBase ++ "/launch-sessions/") after)
    (h : ∀ p ∈ reaching on, p.2.scope = some .admin) : Agrees (route pattern on) := by
  refine agrees_item _ _ hpattern fun id _ p hp scope hscope _ => ?_
  rw [← hscope, h p hp]
  exact requiredScope_sessions p.1 _

theorem agrees_token : Agrees (route (apiBase ++ "/tokens/\x7bid\x7d") [(.delete, .revokeToken)]) := by
  refine agrees_item "/tokens/" "" (by decide +kernel) fun id _ p hp scope hscope _ => ?_
  obtain rfl : p = (.delete, .revokeToken) := by simpa [reaching] using hp
  cases hscope
  exact requiredScope_tokens .delete _

theorem agrees_delete {read remove : Handler} (before : String)
    (hpattern : Around pattern (apiBase ++ before) "") (hread : read.scope = none)
    (hremove : remove.scope = some scope)
    (h : ∀ rest, requiredScope .delete (apiBase ++ (before ++ rest)) = some scope) :
    Agrees (route pattern [(.get, read), (.delete, remove)]) := by
  refine agrees_item before "" hpattern fun id _ p hp scope' hscope _ => ?_
  have hcases : p = (.get, read) ∨ p = (.delete, remove) ∨ p = (.head, read) := by simpa [reaching] using hp
  rcases hcases with rfl | rfl | rfl
  · exact nomatch hread.symm.trans hscope
  · rw [← hscope, hremove]
    exact h _
  · exact nomatch hread.symm.trans hscope

theorem agentRoutes_agree : ∀ r ∈ agentRoutes, Agrees r := by
  simp only [agentRoutes, List.forall_mem_cons]
  exact ⟨agrees_free (by decide), agrees_free (by decide), agrees_fixed (by decide +kernel) (by decide +kernel),
    agrees_session "" (by decide +kernel) (by decide), agrees_session "/finish" (by decide +kernel) (by decide),
    agrees_free (by decide), agrees_free (by decide), agrees_free (by decide),
    agrees_fixed (by decide +kernel) (by decide +kernel), agrees_free (by decide),
    agrees_fixed (by decide +kernel) (by decide +kernel), agrees_free (by decide),
    agrees_fixed (by decide +kernel) (by decide +kernel), agrees_stop, agrees_logs,
    agrees_delete "/models/" (by decide +kernel) rfl rfl requiredScope_models,
    agrees_delete "/operations/" (by decide +kernel) rfl rfl requiredScope_operations,
    agrees_free (by decide), agrees_fixed (by decide +kernel) (by decide +kernel), agrees_token, fun _ h => nomatch h⟩

theorem apiRoutes_agree : ∀ r ∈ apiRoutes, Agrees r := by
  simp only [apiRoutes, List.forall_mem_cons]
  exact ⟨agrees_free (by decide), agrees_free (by decide), agrees_free (by decide), agrees_free (by decide),
    agrees_free (by decide), agrees_free (by decide), agrees_free (by decide), agrees_free (by decide),
    agrees_free (by decide), agrees_session "/compression" (by decide +kernel) (by decide), agrees_recover,
    fun _ h => nomatch h⟩

theorem inferenceRoutes_agree : ∀ r ∈ inferenceRoutes, Agrees r := by
  simp only [inferenceRoutes, List.forall_mem_cons]
  exact ⟨agrees_free (by decide), agrees_free (by decide), agrees_free (by decide), agrees_free (by decide),
    agrees_free (by decide), agrees_any rfl, agrees_free (by decide), agrees_free (by decide), agrees_any rfl,
    fun _ h => nomatch h⟩

theorem publicRoutes_agree : ∀ r ∈ publicRoutes, Agrees r := by
  simp only [publicRoutes, List.forall_mem_cons]
  exact ⟨agrees_free (by decide), agrees_free (by decide), agrees_free (by decide), agrees_free (by decide),
    agrees_free (by decide), agrees_free (by decide), fun _ h => nomatch h⟩

theorem dispatch_scope {path : String} (h : dispatch method path = some handler)
    (hscope : handler.scope = some scope) (hstops : ¬ StopsLogs method path) :
    requiredScope method path = some scope := by
  obtain ⟨endpoint, hresolve, hserve⟩ := Option.bind_eq_some_iff.mp h
  obtain ⟨r, hr, hadmits, rfl⟩ := resolve_mem hresolve
  have hagree : Agrees r := by
    simp only [router, List.mem_append] at hr
    rcases hr with ((hr | hr) | hr) | hr
    · exact agentRoutes_agree r hr
    · exact apiRoutes_agree r hr
    · exact inferenceRoutes_agree r hr
    · exact publicRoutes_agree r hr
  exact hagree path method handler scope hadmits hserve hscope hstops

/-! ## Requests that `authenticate` lets through -/

theorem authenticate_permits {P : Panel} {w : WebState} {snapshot : AuthSnapshot} {now : Instant}
    {utc : Timestamp} {request : WebRequest} {limited : Bool} {auth : AuthenticatedToken}
    (h : (authenticate P w snapshot now utc request limited).1 = .ok auth)
    (hscope : requiredScope request.method request.path = some scope) : auth.permits scope = true := by
  unfold authenticate at h
  dsimp only at h
  split at h
  · cases h
  split at h
  · cases h
  split at h
  · cases h
  · next found hfound =>
    rw [hscope, Option.any_some] at h
    split at h
    · cases h
    · next hpermits =>
      split at h
      · cases h
      · cases h
        simpa using hpermits

/-- Every token that `authenticate` accepts for the method and the path holds the scope of the handler
that the router then calls. -/
def Gated (method : Method) (path : String) : Prop :=
  ∀ (P : Panel) (w : WebState) (snapshot : AuthSnapshot) (now : Instant) (utc : Timestamp) (request : WebRequest)
    (limited : Bool) (auth : AuthenticatedToken) (handler : Handler) (scope : TokenScope),
    request.method = method → request.path = path →
    (authenticate P w snapshot now utc request limited).1 = .ok auth →
    dispatch method path = some handler → handler.scope = some scope → auth.permits scope = true

def logsToken : TokenVerifier :=
  ⟨⟨exampleToken, "logs", [.logsRead], [], none, 1, 0, none, none⟩, "pepper" ++ exampleToken ++ exampleSecret⟩

def stopLogsRequest : WebRequest :=
  ⟨.delete, apiBase ++ "/instances/logs", [("authorization", some ("Bearer " ++ exampleBearer))], none⟩

theorem logsToken_accepted : (authenticate examplePanel {} ⟨[(exampleToken, logsToken)]⟩ 0 0 stopLogsRequest false).1 =
      .ok ⟨exampleToken, [.logsRead], 1⟩ := by
  decide +kernel

theorem dispatch_stopLogs : dispatch .delete (apiBase ++ "/instances/logs") = some .stopInstance := by decide +kernel

theorem handler_scoped_iff (method : Method) (path : String) : Gated method path ↔ ¬ StopsLogs method path := by
  constructor
  · rintro h ⟨rfl, rfl⟩
    have hpermits := h examplePanel {} _ 0 0 stopLogsRequest false _ .stopInstance .instancesWrite rfl rfl
      logsToken_accepted dispatch_stopLogs rfl
    exact absurd hpermits (by decide)
  · rintro hstops P w snapshot now utc request limited auth handler scope rfl rfl hauth hdispatch hscope
    exact authenticate_permits hauth (dispatch_scope hdispatch hscope hstops)

/-- The instance `logs` is stopped with a token that reads logs. -/
theorem logs_token_stops_instance :
    (authenticate examplePanel {} ⟨[(exampleToken, logsToken)]⟩ 0 0 stopLogsRequest false).1 =
        .ok ⟨exampleToken, [.logsRead], 1⟩ ∧
    dispatch stopLogsRequest.method stopLogsRequest.path = some .stopInstance ∧
    (⟨exampleToken, [.logsRead], 1⟩ : AuthenticatedToken).permits .instancesWrite = false :=
  ⟨logsToken_accepted, dispatch_stopLogs, by decide⟩

end Sparkplane

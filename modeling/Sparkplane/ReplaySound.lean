import Sparkplane.IdempotencySound
import Sparkplane.Path

/-!
# A serve request sent again

`serve_instance` looks the model up, selects the engine, evaluates admission and takes the lease
before it looks the key up, so a request that was accepted can be refused when it is sent again.
`serveGate` is that first part. `serve_replayed`: the second request is answered with the operation
of the first one exactly if it passes the gate, and it writes nothing.
-/

namespace Sparkplane

variable {response : Response} {id leaseId : String} {db : Db} {c₀ : Pool}

/-! ## The gate before the key -/

def serveGate (S : Site) (body : ServeRequest) : Act (Except Response InstanceDocument) := do
  match ← requireExecutorForMutation with
  | some response => return .error response
  | none =>
  match ← query (.model body.model) with
  | .error e => return .error (stateProblem e)
  | .ok model =>
  match selectCandidate S model with
  | .error response => return .error response
  | .ok candidate =>
  match candidate.policy.resourcesFor, candidate.policy.profileFor with
  | .error e, _ => return .error (profileInvalid e)
  | .ok _, .error e => return .error (profileInvalid e)
  | .ok resources, .ok profile =>
  match ← outside .snapshot with
  | .error _ => return .error executorUnavailable
  | .ok snapshot =>
  match ← query .desiredResourceEnvelopes with
  | .error e => return .error (stateProblem e)
  | .ok desired =>
  match normalizeInstanceName S.env (requestedName body.name model) with
  | none => return .error invalidInstanceName
  | some name =>
  match ← candidateStorage S candidate.policy model candidate.artifacts candidate.artifactFingerprint name with
  | .error _ => return .error executorUnavailable
  | .ok storage =>
  let now ← outside .unixMillis
  let report := evaluateAdmission snapshot.resourcePolicy snapshot.resources
    (admissionRequest snapshot desired name resources storage) now
  if !report.admitted then
    return .error (.problem 409 "spark.memory.admission-rejected" "aggregate resource admission rejected the instance")
  else
  if ← perform (.tryAcquire (serveLease name)) then
    return .ok (requestedInstance S model candidate resources profile name)
  else return .error transitionBusy

def afterGate (S : Site) (caller : Caller) (body : ServeRequest) : Except Response InstanceDocument → Act Response
  | .error response => .ret response
  | .ok requested => serveUnderLease S caller body requested

variable {S : Site} {caller : Caller} {body : ServeRequest}

theorem serveInstance_gate (hdry : body.dryRun = false) :
    serveInstance S caller body = (serveGate S body).bind (afterGate S caller body) := by
  unfold serveInstance serveGate
  rw [hdry, if_neg Bool.false_ne_true]
  refine Eq.trans ?_ (Prog.bind_assoc requireExecutorForMutation).symm
  refine congrArg (Prog.bind requireExecutorForMutation) (funext fun unavailable => ?_)
  cases unavailable with
  | some response => rfl
  | none =>
    refine congrArg (Prog.op _) (funext fun reply => ?_)
    cases reply with
    | error e => rfl
    | ok model =>
      dsimp only [Prog.ret_bind]
      cases selectCandidate S model with
      | error response => rfl
      | ok candidate =>
        dsimp only
        cases candidate.policy.resourcesFor with
        | error e => rfl
        | ok resources =>
          cases candidate.policy.profileFor with
          | error e => rfl
          | ok profile =>
            refine congrArg (Prog.op _) (funext fun reply => ?_)
            cases reply with
            | error e => rfl
            | ok snapshot =>
              refine congrArg (Prog.op _) (funext fun reply => ?_)
              cases reply with
              | error e => rfl
              | ok desired =>
                dsimp only [Prog.ret_bind]
                cases normalizeInstanceName S.env (requestedName body.name model) with
                | none => rfl
                | some name =>
                  refine congrArg (Prog.op _) (funext fun reply => ?_)
                  cases reply with
                  | error e => rfl
                  | ok storage =>
                    refine congrArg (Prog.op _) (funext fun now => ?_)
                    dsimp only [Prog.ret_bind]
                    split
                    · rfl
                    · refine congrArg (Prog.op _) (funext fun acquired => ?_)
                      cases acquired <;> rfl

/-! ## What the gate does -/

structure Gates (p : Act (Except Response InstanceDocument)) : Prop where
  uses : p.Uses (·.writes = none)
  refuses : p.Returns fun x => ∀ response, x = .error response → response.acceptedId = none

theorem Gates.op {e : Eff} {k : e.Reply → Act (Except Response InstanceDocument)} (he : e.writes = none)
    (hk : ∀ r, Gates (k r)) : Gates (.op e k) :=
  ⟨⟨he, fun r => (hk r).uses⟩, fun r => (hk r).refuses⟩

theorem Gates.error (h : response.acceptedId = none) : Gates (.ret (.error response)) :=
  ⟨trivial, fun _ e => by cases e; exact h⟩

theorem Gates.ok {requested : InstanceDocument} : Gates (.ret (.ok requested)) :=
  ⟨trivial, fun _ h => nomatch h⟩

theorem Gates.executor {f : Option Response → Act (Except Response InstanceDocument)} (hf : Gates (f none))
    (hdown : Gates (f (some requireExecutorForMutation.unavailable))) :
    Gates (requireExecutorForMutation.bind f) := by
  refine .op rfl fun reply => ?_
  cases reply with
  | error e => exact hdown
  | ok snapshot =>
    dsimp only [Prog.ret_bind]
    split
    · exact hf
    · exact hdown

theorem stateProblem_unaccepted (e : StateError) : (stateProblem e).acceptedId = none := by
  cases e <;> rfl

theorem unanswered_unaccepted {a : Response} (h : a.answersKey = false) : a.acceptedId = none := by
  cases a <;> first | rfl | cases h

theorem serveGate_gates : Gates (serveGate S body) := by
  refine .executor ?_ (.error rfl)
  refine .op rfl fun reply => ?_
  cases reply with
  | error e => exact .error (stateProblem_unaccepted e)
  | ok model =>
    dsimp only [Prog.ret_bind]
    cases hselect : selectCandidate S model with
    | error response => exact .error (unanswered_unaccepted (selectCandidate_unanswered hselect))
    | ok candidate =>
      dsimp only
      cases candidate.policy.resourcesFor with
      | error e => exact .error rfl
      | ok resources =>
        cases candidate.policy.profileFor with
        | error e => exact .error rfl
        | ok profile =>
          refine .op rfl fun reply => ?_
          cases reply with
          | error e => exact .error rfl
          | ok snapshot =>
            refine .op rfl fun reply => ?_
            cases reply with
            | error e => exact .error (stateProblem_unaccepted e)
            | ok desired =>
              dsimp only [Prog.ret_bind]
              cases normalizeInstanceName S.env (requestedName body.name model) with
              | none => exact .error rfl
              | some name =>
                refine .op rfl fun reply => ?_
                cases reply with
                | error e => exact .error rfl
                | ok storage =>
                  refine .op rfl fun now => ?_
                  dsimp only [Prog.ret_bind]
                  split
                  · exact .error rfl
                  · refine .op rfl fun acquired => ?_
                    cases acquired with
                    | false => exact .error rfl
                    | true => exact .ok

def Passes (S : Site) (body : ServeRequest) (es : List (Machine.Step World Eff Oracle)) : Prop :=
  ∃ requested pre rest, es = pre ++ rest ∧ (agent S).Follows (serveGate S body) pre (.ret (.ok requested))

/-! ## What follows the gate -/

structure Bound (S : Site) (caller : Caller) (body : ServeRequest) (id : String) (db : Db) : Prop where
  row : ∃ key hash, requiredIdempotency caller = some key ∧ canonicalRequestSha256 S.env body.toJson = some hash ∧
    (∃ u, validateIdempotency key hash = .ok u) ∧
    db.idempotency.get? (caller.id, "instance.serve", key) = some ⟨hash, id⟩
  operation : ∃ row, db.operations.get? id = some row

theorem Bound.kept {db' : Db} (h : Bound S caller body id db) (hkept : Kept db db') : Bound S caller body id db' := by
  obtain ⟨key, hash, hkey, hhash, hvalid, hrow⟩ := h.row
  obtain ⟨row, hop⟩ := h.operation
  obtain ⟨row', hop', _⟩ := hkept.log id row hop
  exact ⟨⟨key, hash, hkey, hhash, hvalid, hkept.keys _ _ hrow⟩, row', hop'⟩

theorem acceptOperation_row {d : Draw} {tokenId kind key hash : String} {target : Option String} {db1 : Db}
    {accepted : Database.AcceptedOperation}
    (h : Database.acceptOperation d tokenId kind key hash target db = .ok (accepted, db1)) :
    db1.idempotency.get? (tokenId, kind, key) = some ⟨hash, accepted.operation.id⟩ ∧
      ∃ row, db1.operations.get? accepted.operation.id = some row := by
  rw [Database.acceptOperation_run] at h
  cases hp : db.idempotency.get? (tokenId, kind, key) with
  | some prior =>
    rw [hp] at h
    dsimp only at h
    by_cases hsame : prior.requestSha256 = hash
    · rw [if_pos hsame] at h
      split at h
      · rename_i row hrow
        cases h
        subst hsame
        exact ⟨hp, row, hrow⟩
      · cases h
    · rw [if_neg hsame] at h
      cases h
  | none =>
    rw [hp] at h
    dsimp only at h
    split at h
    · cases h
    · cases h
      exact ⟨(Table.get?_upsert _ _ _ _).trans (if_pos rfl), _, (Table.get?_upsert _ _ _ _).trans (if_pos rfl)⟩

section
variable {requested : InstanceDocument} {a : Response} {es : List (Machine.Step World Eff Oracle)}

theorem releasing_follows (h : (agent S).Follows (releasing leaseId response) es (.ret a)) :
    a = response ∧ ∀ x ∈ es, (x.after (agent S)).db = x.world.db := by
  obtain ⟨t, w, es, rfl, hrest⟩ := Machine.Follows.of_op h
  obtain ⟨rfl, rfl⟩ := hrest.of_ret
  refine ⟨rfl, fun x hx => ?_⟩
  rw [List.mem_singleton.mp hx]
  rfl

def afterAccept (S : Site) (requested : InstanceDocument) (accepted : Database.AcceptedOperation) : Act Response := do
  match ← beginServe S accepted.operation.id requested with
  | .error e => releasing (serveLease requested.name) (stateProblem e)
  | .ok begun =>
  if begun.reused then
    completeReusedServe S accepted.operation.id begun.inst
    releasing (serveLease requested.name) (.accepted accepted.operation)
  else
    perform (.markWarming begun.inst.name begun.inst.generation)
    perform (.spawn (.runServe accepted.operation.id begun.inst))
    return .accepted accepted.operation

theorem afterAccept_returns (accepted : Database.AcceptedOperation) :
    (afterAccept S requested accepted).Returns fun a => ∀ op, a = .accepted op → op = accepted.operation := by
  have hproblem : ∀ e op, stateProblem e = .accepted op → op = accepted.operation := by
    intro e op h
    cases e <;> cases h
  unfold afterAccept beginServe
  cases validateInstance S.env requested with
  | error e => exact fun _ => hproblem e
  | ok _ =>
    intro begun
    cases begun with
    | error e => exact fun _ => hproblem e
    | ok begun =>
      dsimp only [Prog.ret_bind]
      split
      · exact fun _ _ _ op h => (Response.accepted.inj h).symm
      · exact fun _ _ op h => (Response.accepted.inj h).symm

structure LooksUp (S : Site) (caller : Caller) (body : ServeRequest) (requested : InstanceDocument) (a : Response)
    (x : Machine.Step World Eff Oracle) (rest : List (Machine.Step World Eff Oracle)) (key hash : String) : Prop where
  keyed : requiredIdempotency caller = some key
  hashed : canonicalRequestSha256 S.env body.toJson = some hash
  valid : ∃ u, validateIdempotency key hash = .ok u
  eff : x.eff = .command (.accept caller.id "instance.serve" key hash (some requested.name))
  answer : match Database.acceptOperation x.turn.oracle.draw caller.id "instance.serve" key hash (some requested.name)
      x.world.db with
    | .error e => (agent S).Follows (releasing (serveLease requested.name) (stateProblem e)) rest (.ret a)
    | .ok (accepted, db) => (x.after (agent S)).db = db ∧ (agent S).Follows
        (if accepted.reused then releasing (serveLease requested.name) (.accepted accepted.operation)
          else afterAccept S requested accepted) rest (.ret a)

theorem serveUnderLease_follows (h : (agent S).Follows (serveUnderLease S caller body requested) es (.ret a)) :
    (∃ response, response.acceptedId = none ∧
      (requiredIdempotency caller = none ∨ canonicalRequestSha256 S.env body.toJson = none ∨
        ∃ key hash e, requiredIdempotency caller = some key ∧ canonicalRequestSha256 S.env body.toJson = some hash ∧
          validateIdempotency key hash = .error e) ∧
      (agent S).Follows (releasing (serveLease requested.name) response) es (.ret a)) ∨
    ∃ x rest key hash, es = x :: rest ∧ LooksUp S caller body requested a x rest key hash := by
  unfold serveUnderLease at h
  cases hkey : requiredIdempotency caller with
  | none =>
    rw [hkey] at h
    exact .inl ⟨_, rfl, .inl rfl, h⟩
  | some key =>
    rw [hkey] at h
    dsimp only at h
    cases hhash : canonicalRequestSha256 S.env body.toJson with
    | none =>
      rw [hhash] at h
      exact .inl ⟨_, rfl, .inr (.inl rfl), h⟩
    | some hash =>
      rw [hhash] at h
      dsimp only [acceptOperation] at h
      cases hvalid : validateIdempotency key hash with
      | error e =>
        rw [hvalid] at h
        exact .inl ⟨_, stateProblem_unaccepted e, .inr (.inr ⟨key, hash, e, rfl, rfl, hvalid⟩), h⟩
      | ok u =>
        rw [hvalid] at h
        obtain ⟨t, w, rest, rfl, hrest⟩ := Machine.Follows.of_op h
        refine .inr ⟨_, rest, key, hash, rfl, hkey, hhash, ⟨u, hvalid⟩, rfl, ?_⟩
        rcases (Database.acceptOperation t.oracle.draw caller.id "instance.serve" key hash
          (some requested.name)).commit_cases w.db with ⟨accepted, db, hrun, hcommit⟩ | ⟨err, hrun, hcommit⟩
        · rw [hrun]
          rw [show ((agent S).exec t (.command (.accept caller.id "instance.serve" key hash (some requested.name)))
            w).1 = .ok accepted from congrArg Prod.fst hcommit] at hrest
          exact ⟨congrArg Prod.snd hcommit, hrest⟩
        · rw [hrun]
          rw [show ((agent S).exec t (.command (.accept caller.id "instance.serve" key hash (some requested.name)))
            w).1 = .error err from congrArg Prod.fst hcommit] at hrest
          exact hrest

theorem releasing_unaccepted {op : OperationDocument} (hresponse : response.acceptedId = none) :
    ¬ (agent S).Follows (releasing leaseId response) es (.ret (.accepted op)) := by
  intro h
  have := congrArg Response.acceptedId (releasing_follows h).1
  rw [hresponse] at this
  cases this

theorem serveUnderLease_binds {op : OperationDocument}
    (h : (agent S).Follows (serveUnderLease S caller body requested) es (.ret (.accepted op))) :
    ∃ x ∈ es, Bound S caller body op.id (x.after (agent S)).db := by
  rcases serveUnderLease_follows h with ⟨response, hresponse, _, h⟩ | ⟨x, rest, key, hash, rfl, hlook⟩
  · exact absurd h (releasing_unaccepted hresponse)
  · have hanswer := hlook.answer
    split at hanswer
    · exact absurd hanswer (releasing_unaccepted (stateProblem_unaccepted _))
    · rename_i accepted db hrun
      obtain ⟨hdb, hrest⟩ := hanswer
      have hop : op = accepted.operation := by
        by_cases hreused : accepted.reused = true
        · rw [if_pos hreused] at hrest
          exact Response.accepted.inj (releasing_follows hrest).1
        · rw [if_neg hreused] at hrest
          exact hrest.returns (afterAccept_returns accepted) op rfl
      obtain ⟨hrow, row, hoperation⟩ := acceptOperation_row hrun
      refine ⟨x, List.mem_cons_self, ?_⟩
      rw [hdb, hop]
      exact ⟨⟨key, hash, hlook.keyed, hlook.hashed, hlook.valid, hrow⟩, row, hoperation⟩

theorem serveUnderLease_replays (hbound : ∀ x ∈ es, Bound S caller body id x.world.db)
    (h : (agent S).Follows (serveUnderLease S caller body requested) es (.ret a))
    (hdb : Bound S caller body id db) :
    a.acceptedId = some id ∧ ∀ x ∈ es, (x.after (agent S)).db = x.world.db := by
  rcases serveUnderLease_follows h with ⟨response, _, hrefused, _⟩ | ⟨x, rest, key, hash, rfl, hlook⟩
  · -- the first request had the same key and body
    obtain ⟨key, hash, hkey, hhash, ⟨u, hvalid⟩, _⟩ := hdb.row
    rcases hrefused with h | h | ⟨key', hash', e, h1, h2, h3⟩
    · cases hkey.symm.trans h
    · cases hhash.symm.trans h
    · cases hkey.symm.trans h1
      cases hhash.symm.trans h2
      cases hvalid.symm.trans h3
  · have hx := hbound x List.mem_cons_self
    obtain ⟨key', hash', hkey, hhash, _, hrow⟩ := hx.row
    obtain ⟨row, hop⟩ := hx.operation
    cases hkey.symm.trans hlook.keyed
    cases hhash.symm.trans hlook.hashed
    have hanswer := hlook.answer
    rw [Database.acceptOperation_run, hrow] at hanswer
    dsimp only at hanswer
    rw [if_pos rfl, hop] at hanswer
    obtain ⟨hafter, hrest⟩ := hanswer
    obtain ⟨ha, hes⟩ := releasing_follows hrest
    refine ⟨by rw [ha]; rfl, fun y hy => ?_⟩
    rcases List.mem_cons.mp hy with rfl | hy
    · exact hafter
    · exact hes y hy

end

/-! ## Two requests -/

section
variable {es : List (Machine.Step World Eff Oracle)} {a : Response}

theorem serveInstance_follows (hdry : body.dryRun = false)
    (h : (agent S).Follows (program S (.serveInstance caller body)) es (.ret a)) :
    ∃ x pre rest, es = pre ++ rest ∧ (agent S).Follows (serveGate S body) pre (.ret x) ∧
      (agent S).Follows (afterGate S caller body x) rest (.ret a) := by
  have h : (agent S).Follows (serveInstance S caller body) es (.ret a) := h
  rw [serveInstance_gate hdry] at h
  exact h.of_bind

theorem serveInstance_binds {K : Rules World Job Eff Oracle} {c : Pool} {i : Nat} {op : OperationDocument}
    (hdry : body.dryRun = false) (h : (agent S).Runs K c₀ c)
    (hi : c₀.tasks[i]? = some (.serveInstance caller body, program S (.serveInstance caller body)))
    (hop : c.returned i = some (.accepted op)) : Bound S caller body op.id c.world.db := by
  obtain ⟨es, hpath⟩ := h.path i
  obtain ⟨x, pre, rest, rfl, hgate, hrest⟩ := serveInstance_follows hdry (hpath.returns hi hop)
  cases x with
  | error response =>
    obtain ⟨rfl, _⟩ := hrest.of_ret
    cases hgate.returns serveGate_gates.refuses _ rfl
  | ok requested =>
    obtain ⟨x, hx, hbound⟩ := serveUnderLease_binds hrest
    exact hbound.kept (hpath.between (P := KeptIn) exec_kept x (List.mem_append_right pre hx)).2

end

/-- The first request was answered with `op`. The second one, sent after that, is answered with
`op` exactly if it gets past the gate; none of its steps writes to the database, so there is no
further operation and no further generation. -/
theorem serve_replayed (S : Site) (K : Rules World Job Eff Oracle) {caller : Caller} {body : ServeRequest}
    (hdry : body.dryRun = false) {c₀ c₁ c₂ : Pool} {i₁ i₂ : Nat} {es : List (Machine.Step World Eff Oracle)}
    {op : OperationDocument} {a : Response} (h₁ : (agent S).Runs K c₀ c₁)
    (hi₁ : c₀.tasks[i₁]? = some (.serveInstance caller body, program S (.serveInstance caller body)))
    (hop : c₁.returned i₁ = some (.accepted op)) (h₂ : (agent S).Path K i₂ c₁ c₂ es)
    (hi₂ : c₁.tasks[i₂]? = some (.serveInstance caller body, program S (.serveInstance caller body)))
    (ha : c₂.returned i₂ = some a) :
    (a.acceptedId = some op.id ↔ Passes S body es) ∧ ∀ x ∈ es, (x.after (agent S)).db = x.world.db := by
  have hbound := serveInstance_binds hdry h₁ hi₁ hop
  have hmet : ∀ x ∈ es, Bound S caller body op.id x.world.db := fun x hx =>
    hbound.kept (h₂.between (P := KeptIn) exec_kept x hx).1
  obtain ⟨x, pre, rest, rfl, hgate, hrest⟩ := serveInstance_follows hdry (h₂.returns hi₂ ha)
  have hquiet : ∀ x ∈ pre, (x.after (agent S)).db = x.world.db := by
    intro x hx
    show x.eff.onDb S.env x.turn.oracle.draw x.world.db = x.world.db
    unfold Eff.onDb
    rw [hgate.uses serveGate_gates.uses x hx]
  cases x with
  | error response =>
    obtain ⟨rfl, rfl⟩ := hrest.of_ret
    refine ⟨⟨fun h => ?_, fun hpasses => ?_⟩, fun x hx => hquiet x (by simpa using hx)⟩
    · rw [hgate.returns serveGate_gates.refuses _ rfl] at h
      cases h
    · obtain ⟨requested, pre', rest', he, hpass⟩ := hpasses
      cases (hgate.ret_unique hpass he).1
  | ok requested =>
    obtain ⟨hid, hrestquiet⟩ := serveUnderLease_replays (fun x hx => hmet x (List.mem_append_right pre hx)) hrest hbound
    refine ⟨⟨fun _ => ⟨requested, pre, rest, rfl, hgate⟩, fun _ => hid⟩, fun x hx => ?_⟩
    rcases List.mem_append.mp hx with hx | hx
    · exact hquiet x hx
    · exact hrestquiet x hx

/-! ## The same request twice -/

def sameServe : Job := .serveInstance keyedCaller (exampleServe "m")

def servedTwice : Pool :=
  starting exampleSite { db := actorLoop exampleEnv {} [({}, .promoteModel exampleModel false)] } [sameServe, sameServe]

def secondAnswer (s : List (Nat × Oracle)) (p : OperationDocument → Response → Bool) : Bool :=
  ((agent exampleSite).run .free servedTwice (List.replicate 11 (serveTurn 0 "op1"))).any fun c₁ =>
    ((agent exampleSite).run .free c₁ s).any fun c₂ =>
      match c₁.returned 0, c₂.returned 1 with
      | some (.accepted op), some a => p op a
      | _, _ => false

theorem secondAnswer_runs {s : List (Nat × Oracle)} {p : OperationDocument → Response → Bool}
    (h : secondAnswer s p = true) :
    ∃ c1 c2 op a, (agent exampleSite).Runs .free servedTwice c1 ∧ c1.returned 0 = some (.accepted op) ∧
      c1.tasks[1]? = some (sameServe, program exampleSite sameServe) ∧ (agent exampleSite).Runs .free c1 c2 ∧
      c2.returned 1 = some a ∧ p op a = true := by
  obtain ⟨c1, h1, h⟩ := (Option.any_eq_true _ _).mp h
  obtain ⟨c2, h2, h⟩ := (Option.any_eq_true _ _).mp h
  split at h
  · rename_i op a hop ha
    refine ⟨c1, c2, op, a, Machine.runs_of_run .start h1, hop, ?_, Machine.runs_of_run .start h2, ha, h⟩
    refine Machine.run_waits (fun x hx => ?_) h1 rfl
    rw [List.eq_of_mem_replicate hx]
    exact Nat.zero_ne_one
  · cases h

theorem replayed_once_ready : ∃ c₁ c₂ op a es, (agent exampleSite).Runs .free servedTwice c₁ ∧
    c₁.returned 0 = some (.accepted op) ∧ (agent exampleSite).Path .free 1 c₁ c₂ es ∧ c₂.returned 1 = some a ∧
    a.acceptedId = some op.id ∧ Passes exampleSite (exampleServe "m") es ∧
    ∀ x ∈ es, (x.after (agent exampleSite)).db = x.world.db := by
  have h : secondAnswer (List.replicate 29 (serveTurn 2 "") ++ List.replicate 9 (serveTurn 1 "op2"))
      (fun op a => a.acceptedId = some op.id) = true := by
    decide +kernel
  obtain ⟨c₁, c₂, op, a, hrun₁, hop, hwaits, hrun₂, ha, hid⟩ := secondAnswer_runs h
  have hid : a.acceptedId = some op.id := of_decide_eq_true hid
  obtain ⟨es, hpath⟩ := hrun₂.path 1
  have hreplayed := serve_replayed exampleSite .free rfl hrun₁ rfl hop hpath hwaits ha
  exact ⟨c₁, c₂, op, a, es, hrun₁, hop, hpath, ha, hid, hreplayed.1.mp hid, hreplayed.2⟩

/-- Sent again while the engine of the first request is still starting, the request meets its own
lease. -/
theorem replay_meets_own_lease : ∃ c₁ c₂ op a, (agent exampleSite).Runs .free servedTwice c₁ ∧
    c₁.returned 0 = some (.accepted op) ∧ c₁.tasks[1]? = some (sameServe, program exampleSite sameServe) ∧
    (agent exampleSite).Runs .free c₁ c₂ ∧ c₂.returned 1 = some a ∧ ∃ detail,
      a = .problem 409 "spark.memory.transition-busy" detail := by
  have h : secondAnswer (List.replicate 7 (serveTurn 1 "op2"))
      (fun _ a => a.reports 409 "spark.memory.transition-busy") = true := by
    decide +kernel
  obtain ⟨c₁, c₂, op, a, hrun₁, hop, hwaits, hrun₂, ha, hbusy⟩ := secondAnswer_runs h
  exact ⟨c₁, c₂, op, a, hrun₁, hop, hwaits, hrun₂, ha, Response.reports_iff.mp hbusy⟩

end Sparkplane

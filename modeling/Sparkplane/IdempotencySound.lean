import Sparkplane.Alone
import Sparkplane.Footprint

/-!
# Idempotency keys and targets

A key is bound to the hash that a handler passes to `accept_operation`. For
`stop_instance` and `remove_model` that is the hash of the body, which does not
name the resource; for `serve_instance` a body without a name leaves the choice
to the model's aliases. `key_binds_target` says exactly when a repeated key is
answered as it should be.
-/

namespace Sparkplane

open Database

variable {db' : Db} {i n : Nat} {w' : World} {es : List (Eff × Oracle)} {a response : Response}
variable {leaseId reference : String} {d : Draw} {body : ServeRequest} {model : ModelDocument}

/-! ## Keys stay -/

structure Kept (db db' : Db) : Prop where
  keys : ∀ k row, db.idempotency.get? k = some row → db'.idempotency.get? k = some row
  log : OpStep db db'

instance : Std.Refl Kept := ⟨fun _ => ⟨fun _ _ h => h, Std.Refl.refl _⟩⟩

instance : IsTrans Db Kept where
  trans _ _ _ h1 h2 := ⟨fun k row h => h2.keys k row (h1.keys k row h), IsTrans.trans _ _ _ h1.log h2.log⟩

theorem Kept.of_touches {F : List Area} (hF : Area.log ∉ F) {db : Db} (h : Touches F db db') : Kept db db' := by
  refine ⟨fun k row hr => ?_, .of_touches hF h⟩
  rw [(h .log hF).2.2]
  exact hr

theorem acceptOperation_kept (d : Draw) (tokenId kind key hash : String) (target : Option String) :
    (Database.acceptOperation d tokenId kind key hash target).Keeps Kept := by
  intro db a db' h
  refine ⟨fun k row hr => ?_, acceptOperation_opStep d tokenId kind key hash target db a db' h⟩
  rw [acceptOperation_run] at h
  cases hp : db.idempotency.get? (tokenId, kind, key) with
  | some prior =>
    rw [hp] at h
    dsimp only at h
    split at h
    · split at h <;> cases h
      exact hr
    · cases h
  | none =>
    rw [hp] at h
    dsimp only at h
    split at h
    · cases h
    · cases h
      show (db.idempotency.upsert _ _).get? k = some row
      rw [Table.get?_upsert]
      by_cases e : k = (tokenId, kind, key)
      · rw [e, hp] at hr
        cases hr
      · rw [if_neg e]
        exact hr

theorem transition_kept (d : Draw) (id : String) (next : OperationState) (p : OperationProgress)
    (result : Option Json) (problem : Option ProblemDocument) :
    (Database.transition d id next p result problem).Keeps Kept := by
  intro db a db' h
  refine ⟨fun k row hr => ?_, transition_opStep d id next p result problem db a db' h⟩
  rw [transition_run] at h
  split at h
  · cases h
  · split at h
    · cases h; exact hr
    · split at h
      · cases h; exact hr
      · cases h

theorem Command.run_kept (E : Env) (d : Draw) (c : Command) (db : Db) : Kept db (c.run E d db) :=
  c.run_keeps (acceptOperation_kept d) (transition_kept d) (fun _ _ => .of_touches (by simp))
    (fun _ _ => (promoteModel_touches _ _).mono fun _ _ => .of_touches (by simp))
    (fun _ => (removeModel_touches _).mono fun _ _ => .of_touches (by simp))
    (fun _ _ => .of_touches (by simp)) db

theorem actorLoop_kept (E : Env) (l : List (Draw × Command)) (db : Db) : Kept db (actorLoop E db l) :=
  actorLoop_keeps (fun d c db => c.run_kept E d db) l db

def KeptIn (w w' : World) : Prop := Kept w.db w'.db

instance : Std.Refl KeptIn := ⟨fun _ => Std.Refl.refl (r := Kept) _⟩

instance : IsTrans World KeptIn := ⟨fun _ _ _ h1 h2 => IsTrans.trans (r := Kept) _ _ _ h1 h2⟩

/-! ## Requests -/

inductive Mutation where
  | serve (body : ServeRequest)
  | stop (id : String) (body : StopRequest)
  | remove (id : String) (body : RemoveModelRequest)
  | download (body : DownloadRequest)
  | revoke (id : String)

namespace Mutation

def job (caller : Caller) : Mutation → Job
  | serve body => .serveInstance caller body
  | stop id body => .stopInstance caller id body
  | remove id body => .removeModel caller id body
  | download body => .downloadModel caller body
  | revoke id => .revokeToken caller id

def dryRun : Mutation → Bool
  | serve body => body.dryRun
  | stop _ body => body.dryRun
  | remove _ body => body.dryRun
  | download body => body.dryRun
  | revoke _ => false

def kind : Mutation → String
  | serve _ => "instance.serve"
  | stop .. => "instance.stop"
  | remove .. => "model.remove"
  | download _ => "model.download"
  | revoke _ => "token.revoke"

inductive Content where
  | serve (body : ServeRequest)
  | stop (body : StopRequest)
  | remove (body : RemoveModelRequest)
  | download (body : DownloadRequest)
  | token (id : String)

def content : Mutation → Content
  | serve body => .serve body
  | stop _ body => .stop body
  | remove _ body => .remove body
  | download body => .download body
  | revoke id => .token id

def Content.hash (E : Env) : Content → Option String
  | .serve body => canonicalRequestSha256 E body.toJson
  | .stop body => canonicalRequestSha256 E body.toJson
  | .remove body => canonicalRequestSha256 E body.toJson
  | .download body => canonicalRequestSha256 E body.toJson
  | .token id => some (E.sha256 id)

def target (S : Site) (db : Db) : Mutation → Option String
  | serve body => (db.readModel body.model).toOption.bind fun model =>
      normalizeInstanceName S.env (requestedName body.name model)
  | stop id _ => (db.readInstance id).toOption.map InstanceDocument.id
  | remove id _ => (db.readModel id).toOption.map ModelDocument.id
  | download body => some body.repository
  | revoke id => some id

end Mutation

def Eff.submits : Eff → Bool
  | .command (.accept ..) | .command (.revokeToken ..) => true
  | _ => false

def Response.answersKey : Response → Bool
  | .problem status code detail => status = 409 && code = "spark.idempotency.conflict" &&
      detail = "idempotency key was reused with a changed request"
  | .accepted _ => true
  | _ => false

structure Refused (db : Db) (a : Response) (db' : Db) (es : List (Eff × Oracle)) : Prop where
  unasked : ∀ x ∈ es, x.1.submits = false
  unanswered : a.answersKey = false
  same : db' = db

structure Asked (S : Site) (caller : Caller) (r : Mutation) (db : Db) (a : Response) (db' : Db)
    (es : List (Eff × Oracle)) (d : Draw) (key hash t : String) : Prop where
  asked : ∃ x ∈ es, x.1.submits = true
  keyed : requiredIdempotency caller = some key
  hashed : r.content.hash S.env = some hash
  named : r.target S db = some t
  answer : match Database.acceptOperation d caller.id r.kind key hash (some t) db with
    | .error e => a = stateProblem e ∧ db' = db
    | .ok (accepted, db₁) => (accepted.reused = true → ∃ op, a = .accepted op ∧ op.id = accepted.operation.id) ∧
        Kept db₁ db'

def Handles (S : Site) (caller : Caller) (r : Mutation) (w : World) (p : Act Response) : Prop :=
  ∀ i n a w' es, (agent S).Evals i n p w a w' es →
    Refused w.db a w'.db es ∨ ∃ d key hash t, Asked S caller r w.db a w'.db es d key hash t

section
variable {S : Site} {caller : Caller} {r : Mutation} {w : World} {e : Eff} {α : Type}

theorem Eff.submits_reads (h : e.reads = true) : e.submits = false := by
  cases e <;> first | rfl | cases h

theorem evals_op {k : e.Reply → Act α} {b : α}
    (h : (agent S).Evals i n (.op e k) w b w' es) : ∃ t n' es', es = (e, t.oracle) :: es' ∧
      (agent S).Evals i n' (k (e.answer S t w)) (e.after S t w) b w' es' := h.of_op

theorem exec_kept (t : Turn Oracle) (e : Eff) (w : World) : KeptIn w ((agent S).exec t e w).2 := by
  show Kept w.db (e.onDb S.env t.oracle.draw w.db)
  unfold Eff.onDb
  cases e.writes with
  | none => exact Std.Refl.refl _
  | some c => exact c.run_kept S.env _ _

theorem evals_kept {p : Act α} {b : α} (h : (agent S).Evals i n p w b w' es) : Kept w.db w'.db :=
  h.keeps (P := KeptIn) exec_kept

/-! ## Rules for handlers -/

theorem Handles.ret (ha : a.answersKey = false) : Handles S caller r w (.ret a) := by
  intro i n a' w' es h
  cases h
  exact .inl ⟨(fun e he => nomatch he), ha, rfl⟩

theorem Handles.op {k : e.Reply → Act Response} (he : e.submits = false)
    (hk : ∀ t, (e.after S t w).db = w.db ∧ Handles S caller r (e.after S t w) (k (e.answer S t w))) :
    Handles S caller r w (.op e k) := by
  intro i n a w' es h
  cases h with
  | @op _ _ _ _ _ _ es o h =>
    obtain ⟨hdb, hk⟩ := hk ⟨i, n, o⟩
    rw [← hdb]
    rcases hk i _ a w' es h with h | ⟨d, key, hash, t, h⟩
    · refine .inl ⟨fun x hx => ?_, h.unanswered, h.same⟩
      cases hx with
      | head => exact he
      | tail _ hx => exact h.unasked x hx
    · obtain ⟨x, hx, hs⟩ := h.asked
      exact .inr ⟨d, key, hash, t, ⟨⟨x, List.mem_cons_of_mem _ hx, hs⟩, h.keyed, h.hashed, h.named, h.answer⟩⟩

theorem Handles.looks {P : α → Prop} {f : α → Act Response} : ∀ {p : Act α}, p.Uses (·.reads = true) →
    p.Returns P → (∀ b, P b → Handles S caller r w (f b)) → Handles S caller r w (p.bind f)
  | .ret b, _, hret, hf => hf b hret
  | .op e k, hp, hret, hf => by
    refine .op (Eff.submits_reads hp.1) fun t => ?_
    rw [Eff.after_reads hp.1]
    exact ⟨rfl, looks (hp.2 _) (hret _) hf⟩

theorem Handles.query {q : Query} {f : Except StateError q.Reply → Act Response}
    (hf : ∀ now reply, q.answer S.env now w.db = reply → Handles S caller r w (f reply)) :
    Handles S caller r w ((query q).bind f) := by
  refine .op rfl fun t => ?_
  rw [Eff.after_reads rfl]
  exact ⟨rfl, hf t.oracle.draw.now _ rfl⟩

theorem Handles.executor {f : Option Response → Act Response} (hf : Handles S caller r w (f none))
    (hdown : f (some requireExecutorForMutation.unavailable) = .ret requireExecutorForMutation.unavailable) :
    Handles S caller r w (requireExecutorForMutation.bind f) := by
  refine .op rfl fun t => ?_
  rw [Eff.after_reads rfl]
  refine ⟨rfl, ?_⟩
  have hunavailable : Handles S caller r w (f (some requireExecutorForMutation.unavailable)) := by
    rw [hdown]
    exact .ret (by decide)
  generalize (Eff.outside .snapshot).answer S t w = reply
  cases reply with
  | error e => exact hunavailable
  | ok snapshot =>
    dsimp only [Prog.ret_bind]
    split
    · exact hf
    · exact hunavailable

theorem releasing_handles (ha : a.answersKey = false) : Handles S caller r w (releasing leaseId a) :=
  .op rfl fun _ => ⟨rfl, .ret ha⟩

variable {db : Db} {err : StateError} {hash key id : String}

theorem readInstance_unanswered (h : db.readInstance reference = .error err) :
    (stateProblem err).answersKey = false := by
  unfold Db.readInstance at h
  split at h <;> cases h <;> decide

theorem readModel_unanswered (h : db.readModel reference = .error err) : (stateProblem err).answersKey = false := by
  have hrow : ∀ id, db.readModelRow id = .error err → (stateProblem err).answersKey = false := by
    intro id h
    unfold Db.readModelRow at h
    split at h <;> cases h
    decide
  unfold Db.readModel at h
  split at h
  · exact hrow _ h
  · split at h
    · exact hrow _ h
    · cases h; decide
    · cases h; decide

theorem validateIdempotency_invalid (h : validateIdempotency key hash = .error err) :
    ∃ detail, err = .invalid detail := by
  unfold validateIdempotency at h
  by_cases h1 : (key.isEmpty || 128 < key.utf8ByteSize || !key.toList.all isAsciiGraphic) = true
  · rw [if_pos h1] at h
    exact ⟨_, (Except.error.inj h).symm⟩
  · rw [if_neg h1] at h
    have h : (if _ then _ else _ : Except StateError Unit) = .error err := h
    by_cases h2 : (hash.utf8ByteSize ≠ 64 || !hash.toList.all isAsciiHexdigit) = true
    · rw [if_pos h2] at h
      exact ⟨_, (Except.error.inj h).symm⟩
    · rw [if_neg h2] at h
      cases h

theorem reused_operation {tokenId kind : String} {target : Option String} {db1 : Db}
    {accepted : AcceptedOperation}
    (h : Database.acceptOperation d tokenId kind key hash target db = .ok (accepted, db1))
    (hreused : accepted.reused = true) : ∃ row, db1.operations.get? accepted.operation.id = some row := by
  rw [acceptOperation_run] at h
  split at h
  · split at h
    · split at h
      · rename_i row hrow
        cases h
        exact ⟨row, hrow⟩
      · cases h
    · cases h
  · split at h
    · cases h
    · cases h
      cases hreused

def Answers (S : Site) (w : World) (p : Act Response) (a : Response) : Prop :=
  ∀ i n a' w' es, (agent S).Evals i n p w a' w' es → a' = a ∧ w'.db = w.db ∧ ∀ x ∈ es, x.1.submits = false

theorem Answers.ret : Answers S w (.ret a) a := by
  intro i n a' w' es h
  cases h
  exact ⟨rfl, rfl, fun e he => nomatch he⟩

theorem Answers.releasing : Answers S w (releasing leaseId a) a := by
  intro i n a' w' es h
  cases h with
  | op o h =>
    cases h
    refine ⟨rfl, rfl, fun e he => ?_⟩
    cases he with
    | head => rfl
    | tail _ he => cases he

theorem Handles.accept {t : String} {f : Except StateError AcceptedOperation → Act Response}
    (hkey : requiredIdempotency caller = some key) (hhash : r.content.hash S.env = some hash)
    (htarget : r.target S w.db = some t) (herr : ∀ w err, Answers S w (f (.error err)) (stateProblem err))
    (hreused : ∀ w accepted, accepted.reused = true → (∃ row, w.db.operations.get? accepted.operation.id = some row) →
      ∃ op, Answers S w (f (.ok accepted)) (.accepted op) ∧ op.id = accepted.operation.id) :
    Handles S caller r w ((acceptOperation caller.id r.kind key hash (some t)).bind f) := by
  intro i n a w' es h
  unfold acceptOperation at h
  cases hv : validateIdempotency key hash with
  | error err =>
    rw [hv] at h
    obtain ⟨ha, hw, hes⟩ := herr w err i n a w' es h
    obtain ⟨detail, rfl⟩ := validateIdempotency_invalid hv
    exact .inl ⟨hes, by rw [ha]; rfl, hw⟩
  | ok _ =>
    rw [hv] at h
    cases h with
    | @op _ _ _ _ _ _ es o h =>
      refine .inr ⟨o.draw, key, hash, t, ⟨⟨_, List.mem_cons_self, rfl⟩, hkey, hhash, htarget, ?_⟩⟩
      rcases (Database.acceptOperation o.draw caller.id r.kind key hash (some t)).commit_cases w.db with
        ⟨accepted, db, hrun, hcommit⟩ | ⟨err, hrun, hcommit⟩
      · have hans : ((agent S).exec ⟨i, n, o⟩ (.command (.accept caller.id r.kind key hash (some t))) w).1 =
          .ok accepted := congrArg Prod.fst hcommit
        have hdb : ((agent S).exec ⟨i, n, o⟩ (.command (.accept caller.id r.kind key hash (some t))) w).2.db = db :=
          congrArg Prod.snd hcommit
        rw [hans] at h
        rw [hrun]
        refine ⟨fun hr => ?_, hdb ▸ evals_kept h⟩
        obtain ⟨op, hanswers, hid⟩ := hreused _ accepted hr (hdb ▸ reused_operation hrun hr)
        exact ⟨op, (hanswers _ _ _ _ _ h).1, hid⟩
      · have hans : ((agent S).exec ⟨i, n, o⟩ (.command (.accept caller.id r.kind key hash (some t))) w).1 =
          .error err := congrArg Prod.fst hcommit
        have hdb : ((agent S).exec ⟨i, n, o⟩ (.command (.accept caller.id r.kind key hash (some t))) w).2.db = w.db :=
          congrArg Prod.snd hcommit
        rw [hans] at h
        rw [hrun]
        obtain ⟨ha, hw, _⟩ := herr _ err _ _ _ _ _ h
        exact ⟨ha, hw.trans hdb⟩

/-! ## The handlers -/

theorem stop_handles {body : StopRequest} (hdry : body.dryRun = false) :
    Handles S caller (.stop id body) w (stopInstance S caller id body) := by
  unfold stopInstance
  split
  · exact .ret rfl
  refine .query fun _ reply hread => ?_
  have hread : w.db.readInstance id = reply := hread
  cases reply with
  | error err => exact .ret (readInstance_unanswered hread)
  | ok inst =>
    dsimp only
    rw [hdry]
    refine .executor ?_ rfl
    dsimp only
    cases hkey : requiredIdempotency caller with
    | none => exact .ret (by decide)
    | some key =>
      dsimp only
      cases hhash : canonicalRequestSha256 S.env body.toJson with
      | none => exact .ret (by decide)
      | some hash =>
        refine .accept (r := .stop id body) (t := inst.id) hkey hhash ?_ (fun _ _ => .ret) fun w accepted hr _ => ?_
        · simp [Mutation.target, hread, Except.toOption]
        · dsimp only
          rw [if_pos hr]
          exact ⟨_, .ret, rfl⟩

theorem download_handles {body : DownloadRequest} (hdry : body.dryRun = false) :
    Handles S caller (.download body) w (downloadModel S caller body) := by
  unfold downloadModel
  cases S.resolveDownloadTarget body with
  | error problem => exact .ret rfl
  | ok target =>
    dsimp only
    rw [hdry]
    cases hkey : requiredIdempotency caller with
    | none => exact .ret (by decide)
    | some key =>
      dsimp only
      cases hhash : canonicalRequestSha256 S.env body.toJson with
      | none => exact .ret (by decide)
      | some hash =>
        refine .accept (r := .download body) (t := body.repository) hkey hhash rfl (fun _ _ => .ret)
          fun w accepted hr _ => ?_
        dsimp only
        rw [if_pos hr]
        exact ⟨_, .ret, rfl⟩

theorem answerOperation_answers {row : OperationRow} (h : w.db.operations.get? id = some row) :
    Answers S w (answerOperation id) (.accepted ⟨row, id⟩) := by
  intro i n a w' es hev
  cases hev with
  | op o hev =>
    have hans : ((agent S).exec ⟨i, n, o⟩ (.query (.operation id)) w).1 = .ok ⟨row, id⟩ := by
      show w.db.readOperation id = _
      rw [Db.readOperation, h]
    rw [hans] at hev
    cases hev
    refine ⟨rfl, rfl, fun e he => ?_⟩
    cases he with
    | head => rfl
    | tail _ he => cases he

theorem remove_handles {body : RemoveModelRequest} (hdry : body.dryRun = false) :
    Handles S caller (.remove id body) w (removeModel S caller id body) := by
  unfold removeModel
  refine .query fun _ reply hread => ?_
  have hread : w.db.readModel id = reply := hread
  cases reply with
  | error err => exact .ret (readModel_unanswered hread)
  | ok model =>
    dsimp only
    split
    · exact .ret (by decide)
    refine .op rfl fun t => ?_
    rw [Eff.after_reads rfl]
    refine ⟨rfl, ?_⟩
    generalize (Eff.planRemoval ..).answer S t w = plan
    cases plan with
    | none => exact .ret (by decide)
    | some plan =>
      dsimp only [Prog.ret_bind]
      simp only [hdry, Bool.false_eq_true, ite_false]
      split
      · exact .ret (by decide)
      cases hkey : requiredIdempotency caller with
      | none => exact .ret (by decide)
      | some key =>
        dsimp only
        cases hhash : canonicalRequestSha256 S.env body.toJson with
        | none => exact .ret (by decide)
        | some hash =>
          refine .accept (r := .remove id body) (t := model.id) hkey hhash ?_ (fun _ _ => .ret)
            fun w accepted hr hrow => ?_
          · simp [Mutation.target, hread, Except.toOption]
          · obtain ⟨row, hrow⟩ := hrow
            dsimp only
            rw [if_pos hr]
            exact ⟨_, answerOperation_answers hrow, rfl⟩

theorem selectCandidate_unanswered (h : selectCandidate S model = .error response) : response.answersKey = false := by
  unfold selectCandidate at h
  split at h
  · cases h; decide
  · split at h
    · cases h; rfl
    · split at h
      · cases h; rfl
      · cases h

theorem serveUnderLease_handles {requested : InstanceDocument}
    (htarget : (Mutation.serve body).target S w.db = some requested.name) :
    Handles S caller (.serve body) w (serveUnderLease S caller body requested) := by
  unfold serveUnderLease
  cases hkey : requiredIdempotency caller with
  | none => exact releasing_handles (by decide)
  | some key =>
    dsimp only
    cases hhash : canonicalRequestSha256 S.env body.toJson with
    | none => exact releasing_handles (by decide)
    | some hash =>
      refine .accept (r := .serve body) (t := requested.name) hkey hhash htarget (fun _ _ => .releasing)
        fun w accepted hr _ => ?_
      dsimp only
      rw [if_pos hr]
      exact ⟨_, .releasing, rfl⟩

theorem admitServe_handles {candidate : Candidate}
    {resources : RecipeResourceEnvelopeDocument} {profile : EngineProfile} {snapshot : ExecutorSnapshot}
    (hread : w.db.readModel body.model = .ok model) :
    Handles S caller (.serve body) w (admitServe S caller body model candidate resources profile snapshot) := by
  refine .query fun _ reply hdesired => ?_
  cases reply with
  | error e => cases hdesired
  | ok desired =>
    dsimp only
    cases hname : normalizeInstanceName S.env (requestedName body.name model) with
    | none => exact .ret (by decide)
    | some name =>
      refine .looks (P := fun _ => True) ⟨rfl, fun _ => trivial⟩ (fun _ => trivial) fun storage _ => ?_
      cases storage with
      | error e => exact .ret (by decide)
      | ok storage =>
        refine .looks (p := outside .unixMillis) (P := fun _ => True) ⟨rfl, fun _ => trivial⟩ (fun _ => trivial)
          fun now _ => ?_
        split
        · exact .ret (by decide)
        · refine .op rfl fun t => ⟨rfl, ?_⟩
          generalize (Eff.tryAcquire _).answer S t w = acquired
          cases acquired with
          | false => exact .ret (by decide)
          | true =>
            refine serveUnderLease_handles ?_
            show (w.db.readModel body.model).toOption.bind _ = some name
            rw [hread]
            exact hname

theorem serve_handles (hdry : body.dryRun = false) :
    Handles S caller (.serve body) w (serveInstance S caller body) := by
  unfold serveInstance
  rw [hdry]
  refine .executor ?_ rfl
  refine .query fun _ reply hread => ?_
  have hread : w.db.readModel body.model = reply := hread
  cases reply with
  | error err => exact .ret (readModel_unanswered hread)
  | ok model =>
    dsimp only
    cases hselect : selectCandidate S model with
    | error response => exact .ret (selectCandidate_unanswered hselect)
    | ok candidate =>
      dsimp only
      cases candidate.policy.resourcesFor with
      | error e => exact .ret rfl
      | ok resources =>
        cases candidate.policy.profileFor with
        | error e => exact .ret rfl
        | ok profile =>
          refine .looks (p := outside .snapshot) (P := fun _ => True) ⟨rfl, fun _ => trivial⟩ (fun _ => trivial)
            fun snapshot _ => ?_
          cases snapshot with
          | error e => exact .ret (by decide)
          | ok snapshot => exact admitServe_handles hread

theorem publishSnapshot_answers : Answers S w (publishSnapshot response) response := by
  intro i n a w' es h
  cases h with
  | op o h =>
    cases h with
    | op o h =>
      cases h
      refine ⟨rfl, rfl, fun e he => ?_⟩
      rcases List.mem_cons.mp he with rfl | he
      · rfl
      · rw [List.mem_singleton.mp he]; rfl

theorem revokeToken_accept (E : Env) (d : Draw) (actor key id : String) (db : Db) :
    match Database.acceptOperation d actor "token.revoke" key (E.sha256 id) (some id) db with
    | .error e => Database.revokeToken E d actor key id db = (.error e, db)
    | .ok (accepted, db1) => (accepted.reused = true →
          (Database.revokeToken E d actor key id db).1 = .ok accepted.operation) ∧
        Kept db1 (Database.revokeToken E d actor key id db).2 := by
  unfold Database.revokeToken
  rw [Batch.bind_run, Batch.commit_run]
  cases Database.acceptOperation d actor "token.revoke" key (E.sha256 id) (some id) db with
  | error e => rfl
  | ok out =>
    obtain ⟨accepted, db1⟩ := out
    refine ⟨fun hr => by dsimp only; rw [if_pos hr]; rfl, ?_⟩
    refine Batch.Keeps.ite (.pure _) (.bind (.query _) fun _ => .ite (.bind (.commit (.modify fun _ => ?_)) fun _ =>
      completeToken_keeps (transition_kept d) _ _ _ _) (completeToken_keeps (transition_kept d) _ _ _ _)) db1
    exact .of_touches (F := [.access]) (by simp) touches_access

theorem revoke_handles : Handles S caller (.revoke id) w (revokeToken S caller id) := by
  refine .executor ?_ rfl
  dsimp only
  cases hkey : requiredIdempotency caller with
  | none => exact .ret (by decide)
  | some key =>
    intro i n a w' es h
    dsimp only at h
    unfold submitRevokeToken at h
    cases hv : validateIdempotency key (S.env.sha256 id) with
    | error err =>
      rw [hv] at h
      obtain ⟨detail, rfl⟩ := validateIdempotency_invalid hv
      cases h
      exact .inl ⟨(fun e he => nomatch he), rfl, rfl⟩
    | ok _ =>
      rw [hv] at h
      cases h with
      | @op _ _ _ _ _ _ es o h =>
        refine .inr ⟨o.draw, key, S.env.sha256 id, id, ⟨⟨_, List.mem_cons_self, rfl⟩, hkey, rfl, rfl, ?_⟩⟩
        have hspec := revokeToken_accept S.env o.draw caller.id key id w.db
        have hkept := evals_kept h
        show match Database.acceptOperation o.draw caller.id "token.revoke" key (S.env.sha256 id) (some id) w.db with
          | .error e => _
          | .ok (accepted, db1) => _
        split at hspec
        · rename_i err hrun
          have hans : ((agent S).exec ⟨i, n, o⟩ (.command (.revokeToken caller.id key id)) w).1 = .error err :=
            congrArg Prod.fst hspec
          rw [hans] at h
          cases h
          exact ⟨rfl, congrArg Prod.snd hspec⟩
        · rename_i accepted db1 hrun
          refine ⟨fun hr => ?_, IsTrans.trans (r := Kept) _ _ _ hspec.2 hkept⟩
          have hans : ((agent S).exec ⟨i, n, o⟩ (.command (.revokeToken caller.id key id)) w).1 =
            .ok accepted.operation := hspec.1 hr
          rw [hans] at h
          exact ⟨_, (publishSnapshot_answers _ _ _ _ _ h).1, rfl⟩

theorem Mutation.handles (hdry : r.dryRun = false) : Handles S caller r w (program S (r.job caller)) := by
  cases r with
  | serve body => exact serve_handles hdry
  | stop id body => exact stop_handles hdry
  | remove id body => exact remove_handles hdry
  | download body => exact download_handles hdry
  | revoke id => exact revoke_handles

end

/-! ## Two requests with one key -/

def Response.acceptedId : Response → Option String
  | .accepted op => some op.id
  | _ => none

/-- The second request is answered with the operation `o` of the first one only
if they agree, and otherwise with the conflict. -/
def Binds (S : Site) (r₁ r₂ : Mutation) (db₁ db₂ : Db) (o : String) (a : Response) : Prop :=
  (a.acceptedId = some o → r₁.target S db₁ = r₂.target S db₂ ∧ r₁.content = r₂.content) ∧
    (a.acceptedId ≠ some o → a = stateProblem reusedKey)

theorem asked_row {S : Site} {caller : Caller} {r : Mutation} {db : Db}
    {key hash t : String} {row : IdempotencyRow} (h : Asked S caller r db a db' es d key hash t)
    (hfresh : db.idempotency.get? (caller.id, r.kind, key) = none)
    (hrow : db'.idempotency.get? (caller.id, r.kind, key) = some row) :
    row.requestSha256 = hash ∧ ∃ op, db'.operations.get? row.operationId = some op := by
  have hanswer := h.answer
  rw [acceptOperation_run, hfresh] at hanswer
  dsimp only at hanswer
  by_cases ho : (db.operations.get? d.operationId).isSome = true
  · rw [if_pos ho] at hanswer
    rw [hanswer.2, hfresh] at hrow
    cases hrow
  · rw [if_neg ho] at hanswer
    have hkept := hanswer.2
    have hkey := hkept.keys (caller.id, r.kind, key) ⟨hash, d.operationId⟩
      ((Table.get?_upsert _ _ _ _).trans (if_pos rfl))
    rw [hrow] at hkey
    cases hkey
    obtain ⟨op, hop, _⟩ := hkept.log d.operationId _ ((Table.get?_upsert _ _ _ _).trans (if_pos rfl))
    exact ⟨rfl, op, hop⟩

theorem conflict_unaccepted (o : String) : (stateProblem reusedKey).acceptedId ≠ some o := nofun

theorem key_binds_target (S : Site) (caller : Caller) (key : String) (r₁ r₂ : Mutation) (hkind : r₁.kind = r₂.kind)
    (hdry₁ : r₁.dryRun = false) (hdry₂ : r₂.dryRun = false)
    (hcollision : r₁.content.hash S.env = r₂.content.hash S.env → r₁.content = r₂.content)
    (hkey : requiredIdempotency caller = some key) {w₁ w₁' w₂ w₂' : World} {a₁ a₂ : Response} {es₁ es₂ : List (Eff × Oracle)}
    {i₁ n₁ i₂ n₂ : Nat} {row : IdempotencyRow} (between : List (Draw × Command))
    (h₁ : (agent S).Evals i₁ n₁ (program S (r₁.job caller)) w₁ a₁ w₁' es₁)
    (hfresh : w₁.db.idempotency.get? (caller.id, r₁.kind, key) = none)
    (hrow : w₁'.db.idempotency.get? (caller.id, r₁.kind, key) = some row)
    (hbetween : w₂.db = actorLoop S.env w₁'.db between)
    (h₂ : (agent S).Evals i₂ n₂ (program S (r₂.job caller)) w₂ a₂ w₂' es₂) :
    Binds S r₁ r₂ w₁.db w₂.db row.operationId a₂ ↔ (∃ x ∈ es₂, x.1.submits = true) ∧
      (r₁.content = r₂.content → r₁.target S w₁.db = r₂.target S w₂.db) := by
  -- the first request has asked, and its row is still there for the second one
  obtain ⟨hash₁, hhash₁, hrowhash, op, hop⟩ : ∃ hash : String,
      r₁.content.hash S.env = some hash ∧ row.requestSha256 = hash ∧
        ∃ op, w₁'.db.operations.get? row.operationId = some op := by
    rcases Mutation.handles hdry₁ i₁ n₁ a₁ w₁' es₁ h₁ with h | ⟨d, key', hash, t, h⟩
    · rw [h.same, hfresh] at hrow
      cases hrow
    · have hk : key' = key := Option.some.inj (h.keyed.symm.trans hkey)
      subst hk
      exact ⟨hash, h.hashed, asked_row h hfresh hrow⟩
  have hkept := actorLoop_kept S.env between w₁'.db
  rw [← hbetween] at hkept
  have hrow₂ := hkept.keys _ _ hrow
  obtain ⟨op₂, hop₂, _⟩ := hkept.log _ _ hop
  rcases Mutation.handles hdry₂ i₂ n₂ a₂ w₂' es₂ h₂ with h | ⟨d, key', hash, t, h⟩
  · -- turned away: neither answer
    refine ⟨fun hbinds => ?_, fun hasked => ?_⟩
    · have hnot : a₂.acceptedId ≠ some row.operationId := by
        intro ha
        have := h.unanswered
        cases a₂ <;> first | cases ha | cases this
      have := h.unanswered
      rw [hbinds.2 hnot] at this
      cases this
    · obtain ⟨⟨e, he, hs⟩, _⟩ := hasked
      rw [h.unasked e he] at hs
      cases hs
  · have hk : key' = key := Option.some.inj (h.keyed.symm.trans hkey)
    subst hk
    have hanswer := h.answer
    rw [acceptOperation_run, ← hkind, hrow₂] at hanswer
    dsimp only at hanswer
    by_cases hsame : row.requestSha256 = hash
    · have hcontent : r₁.content = r₂.content := by
        apply hcollision
        rw [hhash₁, h.hashed, ← hrowhash, hsame]
      rw [if_pos hsame, hop₂] at hanswer
      obtain ⟨op', ha, hid⟩ := hanswer.1 rfl
      have haccepted : a₂.acceptedId = some row.operationId := by
        rw [ha]
        exact congrArg some hid
      exact ⟨fun hbinds => ⟨h.asked, fun _ => (hbinds.1 haccepted).1⟩,
        fun hcond => ⟨fun _ => ⟨hcond.2 hcontent, hcontent⟩, fun hne => absurd haccepted hne⟩⟩
    · rw [if_neg hsame] at hanswer
      have hcontent : r₁.content ≠ r₂.content := by
        intro he
        rw [he, h.hashed] at hhash₁
        exact hsame (hrowhash.trans (Option.some.inj hhash₁).symm)
      refine ⟨fun _ => ⟨h.asked, fun he => absurd he hcontent⟩, fun _ => ⟨fun ha => ?_, fun _ => hanswer.1⟩⟩
      rw [hanswer.1] at ha
      exact absurd ha (conflict_unaccepted _)

/-! ## Two stops with one key -/

def secondInstance : InstanceDocument := { exampleInstance with id := instanceId exampleEnv "n", name := "n" }

def twoInstances : World where
  db := actorLoop exampleEnv {} [({}, .promoteModel exampleModel false), ({}, .beginServe exampleInstance),
    ({}, .beginServe secondInstance)]

def keyedCaller : Caller := ⟨"bootstrap-admin", some "k1"⟩

def stopEval (w : World) (name operationId : String) : Response × World × List (Eff × Oracle) :=
  (agent exampleSite).eval 0 (exampleTurn { operationId }) 1
    (program exampleSite ((Mutation.stop name exampleStop).job keyedCaller)) w

def afterStop : World := (stopEval twoInstances "m" "op1").2.1

theorem key_binds_target_replayed : Binds exampleSite (.stop "m" exampleStop) (.stop "m" exampleStop)
    twoInstances.db afterStop.db "op1" (stopEval afterStop "m" "op2").1 := by
  have h₁ : (agent exampleSite).Evals 0 1 (program exampleSite ((Mutation.stop "m" exampleStop).job keyedCaller))
    twoInstances (stopEval twoInstances "m" "op1").1 afterStop (stopEval twoInstances "m" "op1").2.2 :=
    Machine.evals_eval _ _ _ _
  have hfacts : twoInstances.db.idempotency.get? (keyedCaller.id, (Mutation.stop "m" exampleStop).kind, "k1") = none ∧
      afterStop.db.idempotency.get? (keyedCaller.id, (Mutation.stop "m" exampleStop).kind, "k1") =
        some ⟨"c3c4a327394e70b9478179cae83ff7331b3bce413eb2a2fa2708b5f35d7821ab", "op1"⟩ ∧
      (stopEval afterStop "m" "op2").2.2.any (fun x => x.1.submits) = true ∧
      (Mutation.stop "m" exampleStop).target exampleSite twoInstances.db =
        (Mutation.stop "m" exampleStop).target exampleSite afterStop.db := by decide +kernel
  obtain ⟨hfresh, hrow, hasked, htarget⟩ := hfacts
  exact (key_binds_target exampleSite keyedCaller "k1" (.stop "m" exampleStop) (.stop "m" exampleStop) rfl rfl rfl
    (fun _ => rfl) (by decide +kernel) [] h₁ hfresh hrow rfl (Machine.evals_eval _ _ _ _)).mpr
    ⟨List.any_eq_true.mp hasked, fun _ => htarget⟩

/-- A stop of another instance with the same key is answered with the operation
of the first stop, and the second instance is not stopped. -/
theorem stop_key_crosses_instances :
    (agent exampleSite).Evals 0 1 (program exampleSite (.stopInstance keyedCaller "m" exampleStop)) twoInstances
      (stopEval twoInstances "m" "op1").1 afterStop (stopEval twoInstances "m" "op1").2.2 ∧
    (agent exampleSite).Evals 0 1 (program exampleSite (.stopInstance keyedCaller "n" exampleStop)) afterStop
      (stopEval afterStop "n" "op2").1 (stopEval afterStop "n" "op2").2.1 (stopEval afterStop "n" "op2").2.2 ∧
    (stopEval twoInstances "m" "op1").1.acceptedId = some "op1" ∧
    (stopEval afterStop "n" "op2").1.acceptedId = some "op1" ∧
    (Mutation.stop "m" exampleStop).target exampleSite twoInstances.db ≠
      (Mutation.stop "n" exampleStop).target exampleSite afterStop.db ∧
    ((stopEval afterStop "n" "op2").2.1.db.instances.get? secondInstance.id).any
      (fun row => row.desiredState = .running) = true := by
  refine ⟨Machine.evals_eval _ _ _ _, Machine.evals_eval _ _ _ _, ?_⟩
  decide +kernel

end Sparkplane

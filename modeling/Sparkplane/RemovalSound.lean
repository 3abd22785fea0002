import Sparkplane.IdempotencySound

/-!
# Removing a model

The handler refuses a model with a running instance, deletes the files, and
then asks the database, which refuses a model with any instance. Two models of
one commit share a snapshot. `removal_consistent` says exactly when files and
rows agree afterwards.
-/

namespace Sparkplane

open Database

variable {db : Db} {id : String} {model : ModelDocument} {op : OperationRow} {b : Bool} {a : Response}
variable {caller : Caller} {body : RemoveModelRequest}

/-! ## The catalog -/

def Keyed (db : Db) : Prop := ∀ k row, db.models.get? k = some row → row.metadata.id = k

def KeyedStep (db db' : Db) : Prop := Keyed db → Keyed db'

instance : Std.Refl KeyedStep := ⟨fun _ h => h⟩

instance : IsTrans Db KeyedStep := ⟨fun _ _ _ h1 h2 h => h2 (h1 h)⟩

theorem KeyedStep.of_touches {F : List Area} (hF : Area.catalog ∉ F) {db' : Db} (h : Touches F db db') :
    KeyedStep db db' := by
  intro hk k row hr
  rw [(h .catalog hF).1] at hr
  exact hk k row hr

theorem keyed_aliases {t : Table String String} : KeyedStep db { db with aliases := t } := fun h => h

theorem promoteModel_keyed (model : ModelDocument) (updateAlias : Bool) :
    (promoteModel model updateAlias).Keeps KeyedStep := by
  refine .bind (.each (fun _ => .bind (.query _) fun _ => .require _ _) _) fun _ =>
    .bind (.modify fun db hk k row hr => ?_) fun _ =>
    .bind (.each (R := KeyedStep) (fun _ => .modify fun _ => keyed_aliases) _) fun _ => .query _
  change ((db.models.insert model.id _).getD _).get? k = some row at hr
  cases hi : db.models.insert model.id ⟨model.repository, model.commit, { model with aliases := [] }⟩ with
  | some t =>
    rw [hi] at hr
    change t.get? k = some row at hr
    rw [Table.get?_insert hi] at hr
    by_cases e : k = model.id
    · rw [if_pos e] at hr
      cases hr
      exact e.symm
    · rw [if_neg e] at hr
      exact hk k row hr
  | none =>
    rw [hi] at hr
    change (db.models.modify model.id _).get? k = some row at hr
    rw [Table.get?_modify] at hr
    by_cases e : k = model.id
    · rw [if_pos e] at hr
      obtain ⟨_, _, rfl⟩ := Option.map_eq_some_iff.mp hr
      exact e.symm
    · rw [if_neg e] at hr
      exact hk k row hr

theorem removeModel_keyed (id : String) : (Database.removeModel id).Keeps KeyedStep := by
  refine .bind (.query _) fun _ => .bind (.require _ _) fun _ => .bind (.modify fun _ => keyed_aliases) fun _ =>
    .bind (.query _) fun _ => .bind (.require _ _) fun _ => .modify fun db hk k row hr => ?_
  change (db.models.delete _).get? k = some row at hr
  rw [Table.get?_delete, Option.filter_eq_some_iff] at hr
  exact hk k row hr.1

theorem keyed_actorLoop (E : Env) (cmds : List (Draw × Command)) : Keyed (actorLoop E {} cmds) := by
  refine actorLoop_keeps (R := KeyedStep) (fun d c db => ?_) cmds {} fun _ _ h => by cases h
  exact c.run_keeps (fun _ _ _ _ _ => (acceptOperation_touches d _ _ _ _ _).mono fun _ _ => .of_touches (by simp))
    (fun _ _ _ _ _ => (transition_touches d _ _ _ _ _).mono fun _ _ => .of_touches (by simp))
    (fun _ _ => .of_touches (by simp)) promoteModel_keyed removeModel_keyed (fun _ _ => .of_touches (by simp)) db

theorem readModelRow_ok (h : db.readModelRow id = .ok model) :
    ∃ row, db.models.get? id = some row ∧ model.id = row.metadata.id ∧
      model.repository = row.metadata.repository ∧ model.commit = row.metadata.commit := by
  unfold Db.readModelRow at h
  split at h
  · cases h
  · rename_i row hrow
    cases h
    exact ⟨row, hrow, rfl, rfl, rfl⟩

theorem readModel_ok {reference : String} (hk : Keyed db) (h : db.readModel reference = .ok model) :
    ∃ row, db.models.get? model.id = some row ∧ model.repository = row.metadata.repository ∧
      model.commit = row.metadata.commit := by
  have hrow : ∀ id, db.readModelRow id = .ok model → ∃ row, db.models.get? model.id = some row ∧
      model.repository = row.metadata.repository ∧ model.commit = row.metadata.commit := by
    intro id h
    obtain ⟨row, hr, hid, hrest⟩ := readModelRow_ok h
    rw [hid, hk id row hr]
    exact ⟨row, hr, hrest⟩
  unfold Db.readModel at h
  split at h
  · exact hrow _ h
  · split at h
    · exact hrow _ h
    · cases h
    · cases h

theorem removeModel_run (id : String) (db : Db) : Database.removeModel id db =
      if (db.instances.select fun _ i => i.modelId = id).length = 0 then
        if (db.models.get? id).isSome then
          .ok ((), { db with aliases := db.aliases.delete fun _ m => m = id,
                             models := db.models.delete fun k _ => k = id })
        else .error .notFound
      else .error modelReferenced := by
  unfold Database.removeModel
  rw [Tx.bind_run, Tx.query_run]
  by_cases h : (db.instances.select fun _ i => i.modelId = id).length = 0
  · simp only [Tx.bind_run, Tx.require_run, h, Tx.modify_run, Tx.query_run]
    by_cases hr : (db.models.get? id).isSome
    · simp [hr]
    · simp [hr]
  · simp [Tx.bind_run, Tx.require_run, h]

/-! ## The handler -/

def Eff.removes : Eff → Bool
  | .executeRemoval _ => true
  | _ => false

def Unreferenced (m : String) (db : Db) : Prop := ∀ k i, db.instances.get? k = some i → i.modelId ≠ m

theorem unreferenced_iff {m : String} :
    (db.instances.select fun _ i => i.modelId = m).length = 0 ↔ Unreferenced m db := by
  rw [List.length_eq_zero_iff]
  constructor
  · intro h k i hi hm
    have hmem : (k, i) ∈ db.instances.select fun _ i => i.modelId = m :=
      List.mem_filter.mpr ⟨Table.get?_eq_some.mp hi, by simpa using hm⟩
    rw [h] at hmem
    cases hmem
  · intro h
    refine List.eq_nil_iff_forall_not_mem.mpr fun x hx => ?_
    obtain ⟨hx, hm⟩ := List.mem_filter.mp hx
    exact h x.1 x.2 (Table.get?_eq_some.mpr hx) (by simpa using hm)

section
variable {S : Site} {i n : Nat} {w w' : World} {es : List (Eff × Oracle)} {o m : String} {plan : RemovalPlan}

theorem transition_after (next : OperationState) (p : OperationProgress) (result : Option Json)
    (problem : Option ProblemDocument) (hop : w.db.operations.get? o = some op)
    (hlegal : legalOperationTransition op.state next = true) (t : Turn Oracle) :
    (∃ a, (Eff.command (.transition o next p result problem)).answer S t w = .ok a) ∧
      (∃ op', ((Eff.command (.transition o next p result problem)).after S t w).db.operations.get? o = some op' ∧
        op'.state = next) ∧
      Touches [.log] w.db ((Eff.command (.transition o next p result problem)).after S t w).db := by
  have hrun := transition_run t.oracle.draw o next p result problem w.db
  rw [hop] at hrun
  dsimp only at hrun
  have hopen : ¬ (op.state = next ∧ op.state.isTerminal = true) := by
    intro h
    rw [not_legal_of_terminal h.2] at hlegal
    cases hlegal
  rw [if_neg hopen, if_pos hlegal] at hrun
  have hcommit := Tx.commit_ok hrun
  have hans : (Eff.command (.transition o next p result problem)).answer S t w = .ok _ := congrArg Prod.fst hcommit
  refine ⟨⟨_, hans⟩, transition_ok hans, ?_⟩
  exact Batch.Keeps.commit (transition_touches t.oracle.draw o next p result problem) w.db

theorem removeRows_evals {p : OperationProgress} {result : Option Json}
    (hop : w.db.operations.get? o = some op) (hstate : op.state = .running) (hrow : (w.db.models.get? m).isSome)
    (h : (agent S).Evals i n (do
      match ← command (.removeModel m) with
      | .error _ => return false
      | .ok _ =>
        transition o .succeeded p result none
        return true) w b w' es) :
    w'.cache = w.cache ∧ (Unreferenced m w.db ∧ b = true ∧ w'.db.models = (w.db.models.delete fun k _ => k = m) ∧
          w'.db.aliases = (w.db.aliases.delete fun _ id => id = m) ∧ w'.operation o = some .succeeded ∨
        ¬ Unreferenced m w.db ∧ b = false ∧ w'.db.models = w.db.models ∧ w'.operation o = some .running) := by
  obtain ⟨t1, n1, es1, _, h1⟩ := evals_op (e := .command (.removeModel m)) h
  have hrun := removeModel_run m w.db
  by_cases hun : Unreferenced m w.db
  · rw [if_pos (unreferenced_iff.mpr hun), if_pos hrow] at hrun
    have hcommit := Tx.commit_ok hrun
    have hans : (Eff.command (.removeModel m)).answer S t1 w = .ok () := congrArg Prod.fst hcommit
    have hdb : ((Eff.command (.removeModel m)).after S t1 w).db = _ := congrArg Prod.snd hcommit
    have hcache : ((Eff.command (.removeModel m)).after S t1 w).cache = w.cache := rfl
    rw [hans] at h1
    generalize ((Eff.command (.removeModel m)).after S t1 w) = w1 at h1 hdb hcache
    have hop1 : w1.db.operations.get? o = some op := by rw [hdb]; exact hop
    obtain ⟨t2, n2, es2, _, h2⟩ := evals_op (e := .command (.transition o .succeeded p result none)) h1
    obtain ⟨_, ⟨op2, hop2, hstate2⟩, htouch⟩ := transition_after (S := S) .succeeded p result none hop1
      (by rw [hstate]; decide) t2
    cases h2
    refine ⟨hcache, .inl ⟨hun, rfl, ?_, ?_, Option.map_eq_some_iff.mpr ⟨op2, hop2, hstate2⟩⟩⟩
    · exact (htouch .catalog (by simp)).1.trans (by rw [hdb])
    · exact (htouch .catalog (by simp)).2.trans (by rw [hdb])
  · rw [if_neg fun h => hun (unreferenced_iff.mp h)] at hrun
    have hcommit := Tx.commit_error hrun
    have hans : (Eff.command (.removeModel m)).answer S t1 w = .error _ := congrArg Prod.fst hcommit
    have hdb : ((Eff.command (.removeModel m)).after S t1 w).db = w.db := congrArg Prod.snd hcommit
    rw [hans] at h1
    cases h1
    refine ⟨rfl, .inr ⟨hun, rfl, by rw [hdb], ?_⟩⟩
    unfold World.operation
    rw [hdb, hop]
    exact congrArg some hstate

theorem performRemoval_evals {document : RemovalPlanDocument}
    (hop : w.db.operations.get? o = some op) (hstate : op.state = .accepted) (hrow : (w.db.models.get? m).isSome)
    (hio : ∀ x ∈ es, x.1.removes = true → x.2.io = none)
    (h : (agent S).Evals i n (performRemoval S o m plan document) w b w' es) :
    w'.cache = (w.cache.executeRemoval plan none).2 ∧
      (Unreferenced m w.db ∧ b = true ∧ w'.db.models = (w.db.models.delete fun k _ => k = m) ∧
          w'.db.aliases = (w.db.aliases.delete fun _ id => id = m) ∧ w'.operation o = some .succeeded ∨
        ¬ Unreferenced m w.db ∧ b = false ∧ w'.db.models = w.db.models ∧ w'.operation o = some .running) := by
  unfold performRemoval at h
  generalize bytesProgress "removing" 0 (some plan.reclaimableBytes)
    "removing only unreferenced native-cache data" = p at h
  obtain ⟨t1, n1, es1, rfl, h1⟩ := evals_op (e := .command (.transition o .running p none none)) h
  obtain ⟨⟨_, hans⟩, ⟨op1, hop1, hstate1⟩, htouch⟩ := transition_after (S := S) .running p none none hop
    (by rw [hstate]; decide) t1
  have hcache1 : ((Eff.command (.transition o .running p none none)).after S t1 w).cache = w.cache := rfl
  rw [hans] at h1
  generalize (Eff.command (.transition o .running p none none)).after S t1 w = w1 at h1 hcache1 hop1 htouch
  obtain ⟨t2, n2, es2, rfl, h2⟩ := evals_op (e := .executeRemoval plan) h1
  have hio2 : t2.oracle.io = none := hio _ (List.mem_cons_of_mem _ List.mem_cons_self) rfl
  have hans2 : (Eff.executeRemoval plan).answer S t2 w1 = true := by
    show (w1.cache.executeRemoval plan t2.oracle.io).1 = true
    rw [hio2]; rfl
  have hcache2 : ((Eff.executeRemoval plan).after S t2 w1).cache = (w.cache.executeRemoval plan none).2 := by
    show (w1.cache.executeRemoval plan t2.oracle.io).2 = _
    rw [hio2, hcache1]
  have hdb2 : ((Eff.executeRemoval plan).after S t2 w1).db = w1.db := rfl
  rw [hans2] at h2
  generalize (Eff.executeRemoval plan).after S t2 w1 = w2 at h2 hcache2 hdb2
  obtain ⟨hmodels, haliases⟩ := htouch .catalog (by simp)
  have hrefs : Unreferenced m w2.db ↔ Unreferenced m w.db := by
    unfold Unreferenced
    rw [hdb2, (htouch .fleet (by simp)).1]
  obtain ⟨hcache, hrows⟩ := removeRows_evals (by rw [hdb2]; exact hop1) hstate1 (by rw [hdb2, hmodels]; exact hrow) h2
  rw [hdb2, hmodels, haliases, ← hdb2, hrefs] at hrows
  exact ⟨hcache.trans hcache2, hrows⟩

theorem executed_tail {e : Eff} {t : Oracle} (he : e.removes = false)
    (h : ∃ x ∈ (e, t) :: es, x.1.removes = true) : ∃ x ∈ es, x.1.removes = true := by
  obtain ⟨x, hx, hr⟩ := h
  cases hx with
  | head => rw [he] at hr; cases hr
  | tail _ hx => exact ⟨x, hx, hr⟩

theorem not_executed {a' : Response} (h : (agent S).Evals i n (.ret a') w a w' es) :
    ¬ ∃ x ∈ es, x.1.removes = true := by
  cases h
  rintro ⟨x, hx, _⟩
  cases hx

theorem answered_evals (h : (agent S).Evals i n (if b then answerOperation o else .ret removeFailed) w a w' es) :
    w' = w ∧ ¬ ∃ x ∈ es, x.1.removes = true := by
  cases b with
  | false => exact ⟨by cases h; rfl, not_executed h⟩
  | true =>
    obtain ⟨t, n', es', rfl, h1⟩ := evals_op (e := .query (.operation o)) h
    rw [Eff.after_reads rfl] at h1
    generalize (Eff.query (.operation o)).answer S t w = r at h1
    refine ⟨by cases r <;> cases h1 <;> rfl, fun hexec => ?_⟩
    have hexec := executed_tail rfl hexec
    cases r <;> exact not_executed h1 hexec

theorem removeModel_performs (hmodel : w.db.readModel id = .ok model) (hexec : ∃ x ∈ es, x.1.removes = true)
    (h : (agent S).Evals i n (removeModel S caller id body) w a w' es) :
    ∃ (key hash : String) (plan : RemovalPlan) (d : Draw) (accepted : AcceptedOperation) (b : Bool) (n1 : Nat)
      (w1 : World) (es1 : List (Eff × Oracle)),
      requiredIdempotency caller = some key ∧
      w.cache.planRemoval model.repository model.commit (!model.activeInstances.isEmpty) = some plan ∧
      w1.cache = w.cache ∧
      Database.acceptOperation d caller.id "model.remove" key hash (some model.id) w.db = .ok (accepted, w1.db) ∧
      accepted.reused = false ∧ (∀ x ∈ es1, x ∈ es) ∧ (∃ x ∈ es1, x.1.removes = true) ∧
      (agent S).Evals i n1 (performRemoval S accepted.operation.id model.id plan (removalDocument model plan)) w1 b w'
        es1 := by
  unfold removeModel at h
  obtain ⟨t1, n1, es1, rfl, h1⟩ := evals_op (e := .query (.model id)) h
  have hans1 : (Eff.query (.model id)).answer S t1 w = .ok model := hmodel
  rw [hans1, Eff.after_reads rfl] at h1
  dsimp only [Prog.ret_bind] at h1
  have hexec1 := executed_tail rfl hexec
  split at h1
  · exact absurd hexec1 (not_executed h1)
  obtain ⟨t2, n2, es2, rfl, h2⟩ := evals_op (e := .planRemoval ..) h1
  have hexec2 := executed_tail rfl hexec1
  rw [Eff.after_reads rfl] at h2
  cases hans2 : (Eff.planRemoval model.repository model.commit (!model.activeInstances.isEmpty)).answer S t2 w with
  | none => rw [hans2] at h2; exact absurd hexec2 (not_executed h2)
  | some plan =>
    have hplan : w.cache.planRemoval model.repository model.commit (!model.activeInstances.isEmpty) = some plan := by
      have hans2 : (if _ then _ else _) = some plan := hans2
      split at hans2
      · cases hans2
      · exact hans2
    rw [hans2] at h2
    dsimp only [Prog.ret_bind] at h2
    split at h2
    · exact absurd hexec2 (not_executed h2)
    split at h2
    · exact absurd hexec2 (not_executed h2)
    cases hkey : requiredIdempotency caller with
    | none => rw [hkey] at h2; exact absurd hexec2 (not_executed h2)
    | some key =>
      rw [hkey] at h2
      dsimp only at h2
      cases hhash : canonicalRequestSha256 S.env body.toJson with
      | none => rw [hhash] at h2; exact absurd hexec2 (not_executed h2)
      | some hash =>
        rw [hhash] at h2
        dsimp only at h2
        unfold acceptOperation at h2
        cases hv : validateIdempotency key hash with
        | error e => rw [hv] at h2; exact absurd hexec2 (not_executed h2)
        | ok _ =>
          rw [hv] at h2
          obtain ⟨t3, n3, es3, rfl, h3⟩ :=
            evals_op (e := .command (.accept caller.id "model.remove" key hash (some model.id))) h2
          have hexec3 := executed_tail rfl hexec2
          rcases (Database.acceptOperation t3.oracle.draw caller.id "model.remove" key hash
            (some model.id)).commit_cases w.db with ⟨accepted, db1, hrun, hcommit⟩ | ⟨e, _, hcommit⟩
          · have hans3 : (Eff.command (.accept caller.id "model.remove" key hash (some model.id))).answer S t3 w =
              .ok accepted := congrArg Prod.fst hcommit
            have hdb3 : ((Eff.command (.accept caller.id "model.remove" key hash (some model.id))).after S t3 w).db =
              db1 := congrArg Prod.snd hcommit
            rw [hans3] at h3
            dsimp only [Prog.ret_bind] at h3
            by_cases hreused : accepted.reused = true
            · rw [if_pos hreused] at h3
              obtain ⟨t4, n4, es4, rfl, h4⟩ := evals_op (e := .query (.operation accepted.operation.id)) h3
              have hexec4 := executed_tail rfl hexec3
              generalize (Eff.query (.operation accepted.operation.id)).answer S t4 _ = r at h4
              cases r <;> exact absurd hexec4 (not_executed h4)
            · rw [if_neg hreused] at h3
              obtain ⟨b, w4, n4, es4, es5, h4, h5, rfl⟩ := Machine.Evals.of_bind
                (p := performRemoval S accepted.operation.id model.id plan (removalDocument model plan)) h3
              obtain ⟨rfl, hquiet⟩ := answered_evals h5
              refine ⟨key, hash, plan, t3.oracle.draw, accepted, b, n3, (Eff.command (.accept ..)).after S t3 w, es4,
                rfl, hplan, rfl, hdb3 ▸ hrun, Bool.eq_false_iff.mpr hreused, fun x hx => by simp [hx], ?_, h4⟩
              obtain ⟨x, hx, hr⟩ := hexec3
              rcases List.mem_append.mp hx with hx | hx
              · exact ⟨x, hx, hr⟩
              · exact absurd ⟨x, hx, hr⟩ hquiet
          · have hans3 : (Eff.command (.accept caller.id "model.remove" key hash (some model.id))).answer S t3 w =
              .error e := congrArg Prod.fst hcommit
            rw [hans3] at h3
            exact absurd hexec3 (not_executed h3)

theorem removeModel_evals {key : String} (hkey : requiredIdempotency caller = some key)
    (hfresh : w.db.idempotency.get? (caller.id, "model.remove", key) = none)
    (hmodel : w.db.readModel id = .ok model) (hexec : ∃ x ∈ es, x.1.removes = true)
    (h : (agent S).Evals i n (removeModel S caller id body) w a w' es) :
    ∃ (plan : RemovalPlan) (d : Draw) (hash : String) (b : Bool) (n1 : Nat) (w1 : World) (es1 : List (Eff × Oracle)),
      w.cache.planRemoval model.repository model.commit (!model.activeInstances.isEmpty) = some plan ∧
      w1.cache = w.cache ∧ w1.db = w.db.accepted d caller.id "model.remove" key hash (some model.id) ∧
      (∀ x ∈ es1, x ∈ es) ∧
      (agent S).Evals i n1 (performRemoval S d.operationId model.id plan (removalDocument model plan)) w1 b w' es1 := by
  obtain ⟨key', hash, plan, d, accepted, b, n1, w1, es1, hkey', hplan, hcache, hrun, _, hsub, _, h1⟩ :=
    removeModel_performs hmodel hexec h
  cases hkey.symm.trans hkey'
  rw [acceptOperation_run, hfresh] at hrun
  dsimp only at hrun
  split at hrun
  · cases hrun
  · obtain ⟨rfl, hdb⟩ := Prod.mk.inj (Except.ok.inj hrun)
    exact ⟨plan, d, hash, b, n1, w1, es1, hplan, hcache, hdb.symm, hsub, h1⟩

end

/-! ## Files and rows -/

namespace ModelCache

structure Planned (c : ModelCache) (repository commit : String) (plan : RemovalPlan) : Prop where
  directory : plan.directory = repositoryCacheName repository
  found : (c.find repository commit).isSome = true
  commit : plan.commit = commit
  resolves : ∀ s ∈ c.snapshots, s.directory = plan.directory → c.resolves s = true
  retains : ∀ s ∈ c.snapshots, s.directory = plan.directory → s.commit ≠ plan.commit →
    ∀ b ∈ s.blobs, b ∉ plan.removableBlobs

theorem planRemoval_some {c : ModelCache} {repository commit : String} {active : Bool} {plan : RemovalPlan}
    (h : c.planRemoval repository commit active = some plan) : Planned c repository commit plan := by
  unfold planRemoval at h
  split at h
  · cases h
  · dsimp only at h
    split at h
    · cases h
    · rename_i snapshot hfind
      split at h
      · cases h
      · rename_i hall
        obtain ⟨n, _, rfl⟩ := Option.map_eq_some_iff.mp h
        refine ⟨rfl, by rw [hfind]; rfl, rfl, fun s hs hd => ?_, fun s hs hd hc b hb hremovable => ?_⟩
        · by_contra hbroken
          refine hall (List.any_eq_true.mpr ⟨s, List.mem_filter.mpr ⟨hs, decide_eq_true hd⟩, ?_⟩)
          rw [Bool.eq_false_iff.mpr hbroken]
          rfl
        · have hnot := of_decide_eq_true (List.mem_filter.mp hremovable).2
          refine hnot (List.mem_flatMap.mpr ⟨s, ?_, hb⟩)
          exact List.mem_filter.mpr ⟨List.mem_filter.mpr ⟨hs, decide_eq_true hd⟩, decide_eq_true hc⟩

theorem find_executeRemoval (c : ModelCache) (plan : RemovalPlan) (repository commit : String) :
    (c.executeRemoval plan none).2.find repository commit =
      if repositoryCacheName repository = plan.directory ∧ commit = plan.commit then none
      else c.find repository commit := by
  show (c.snapshots.filter _).find? _ = _
  rw [List.find?_filter]
  by_cases h : repositoryCacheName repository = plan.directory ∧ commit = plan.commit
  · rw [if_pos h, List.find?_eq_none]
    intro s _
    simp only [h.1, h.2, Bool.not_and, Bool.and_eq_true, Bool.or_eq_true, Bool.not_eq_true', decide_eq_false_iff_not,
      decide_eq_true_eq, not_and]
    intro hne hr hc
    rcases hne with hne | hne
    · exact hne hr
    · exact hne hc
  · rw [if_neg h]
    unfold find
    congr 1
    funext s
    rw [Bool.eq_iff_iff]
    simp only [Bool.not_and, Bool.and_eq_true, Bool.or_eq_true, Bool.not_eq_true', decide_eq_false_iff_not,
      decide_eq_true_eq, and_iff_right_iff_imp]
    rintro ⟨hd, rfl⟩
    rw [hd]
    exact Decidable.not_and_iff_or_not.mp h

end ModelCache

/-- The removal of model `m` by operation `o` took the world from `w` to `w'`. -/
structure Consistent (m o : String) (w w' : World) : Prop where
  outcome : w'.db.models.get? m = none ∧ (∀ name id, w'.db.aliases.get? name = some id → id ≠ m) ∧
      w'.operation o = some .succeeded ∨ w'.cache = w.cache
  kept : ∀ k row, w'.db.models.get? k = some row →
    (w.cache.find row.metadata.repository row.metadata.commit).isSome = true →
    (w'.cache.find row.metadata.repository row.metadata.commit).isSome = true
  ended : Ended o w'

def Unshared (m : String) (db : Db) : Prop :=
  ∀ row k row', db.models.get? m = some row → db.models.get? k = some row' →
    repositoryCacheName row'.metadata.repository = repositoryCacheName row.metadata.repository →
    row'.metadata.commit = row.metadata.commit → k = m

theorem removal_consistent (S : Site) (before : List (Draw × Command)) (caller : Caller) (key id : String)
    (body : RemoveModelRequest) {w w' : World} (hdb : w.db = actorLoop S.env {} before) (_hdry : body.dryRun = false)
    (hkey : requiredIdempotency caller = some key)
    (hfresh : w.db.idempotency.get? (caller.id, "model.remove", key) = none) {model : ModelDocument}
    (hmodel : w.db.readModel id = .ok model) {i n : Nat} {a : Response} {es : List (Eff × Oracle)}
    (h : (agent S).Evals i n (removeModel S caller id body) w a w' es) (hexec : ∃ x ∈ es, x.1.removes = true)
    (hio : ∀ x ∈ es, x.1.removes = true → x.2.io = none) {taken : IdempotencyRow}
    (htaken : w'.db.idempotency.get? (caller.id, "model.remove", key) = some taken) :
    Consistent model.id taken.operationId w w' ↔ Unreferenced model.id w.db ∧ Unshared model.id w.db := by
  have hkeyed : Keyed w.db := by rw [hdb]; exact keyed_actorLoop S.env before
  obtain ⟨row, hrow, hrepository, hcommit⟩ := readModel_ok hkeyed hmodel
  obtain ⟨plan, d, hash, b, n₁, w₁, es₁, hplan, hcache₁, hdb₁, hsub, h₁⟩ :=
    removeModel_evals hkey hfresh hmodel hexec h
  obtain ⟨hr, hfound, hc, -⟩ := ModelCache.planRemoval_some hplan
  -- the operation is the one the key was taken for
  have hop : w₁.db.operations.get? d.operationId =
      some ⟨"model.remove", caller.id, some model.id, .accepted, acceptedProgress, d.now, d.now, none, none⟩ := by
    rw [hdb₁]
    exact (Table.get?_upsert _ _ _ _).trans (if_pos rfl)
  have hid : taken.operationId = d.operationId := by
    have hkept := (evals_kept h₁).keys (caller.id, "model.remove", key) ⟨hash, d.operationId⟩
      (by rw [hdb₁]; exact (Table.get?_upsert _ _ _ _).trans (if_pos rfl))
    rw [htaken] at hkept
    cases hkept
    rfl
  have hmodels₁ : w₁.db.models = w.db.models := by rw [hdb₁]; rfl
  have hunref : Unreferenced model.id w₁.db ↔ Unreferenced model.id w.db := by
    unfold Unreferenced
    rw [hdb₁]
    rfl
  obtain ⟨hcache, hrows⟩ := performRemoval_evals hop rfl (by rw [hmodels₁, hrow]; rfl)
    (fun x hx => hio x (hsub x hx)) h₁
  rw [hcache₁] at hcache
  have hfind : ∀ repository commit, w'.cache.find repository commit =
      if repositoryCacheName repository = repositoryCacheName model.repository ∧ commit = model.commit then none
      else w.cache.find repository commit := by
    intro repository commit
    rw [hcache, ModelCache.find_executeRemoval, hr, hc]
  rw [hid]
  constructor
  · intro hcons
    have hgone : w'.db.models.get? model.id = none := by
      rcases hcons.outcome with h | h
      · exact h.1
      · have hnone := hfind model.repository model.commit
        rw [if_pos ⟨rfl, rfl⟩, h] at hnone
        rw [hnone] at hfound
        cases hfound
    rcases hrows with ⟨hun, _, hmodels, _⟩ | ⟨_, _, hmodels, _⟩
    · refine ⟨hunref.mp hun, fun row₀ k row' h₀ hk hsame₁ hsame₂ => ?_⟩
      rw [hrow] at h₀
      cases h₀
      by_contra hne
      have hstill : w'.db.models.get? k = some row' := by
        rw [hmodels, hmodels₁, Table.get?_delete, hk]
        simp [hne]
      have hkept := hcons.kept k row' hstill
      have hlost := hfind row'.metadata.repository row'.metadata.commit
      rw [if_pos ⟨by rw [hsame₁, hrepository], by rw [hsame₂, hcommit]⟩] at hlost
      have hheld : (w.cache.find row'.metadata.repository row'.metadata.commit).isSome = true := by
        unfold ModelCache.find at hfound ⊢
        rw [hsame₁, hsame₂, ← hrepository, ← hcommit]
        exact hfound
      rw [hlost] at hkept
      cases hkept hheld
    · rw [hmodels, hmodels₁, hrow] at hgone
      cases hgone
  · rintro ⟨hun, hunshared⟩
    rcases hrows with ⟨_, _, hmodels, haliases, hdone⟩ | ⟨hnot, _⟩
    · refine ⟨.inl ⟨?_, fun name id hname => ?_, hdone⟩, fun k row' hk hbefore => ?_, ?_⟩
      · rw [hmodels, Table.get?_delete]
        cases w₁.db.models.get? model.id <;> simp
      · rw [haliases, Table.get?_delete, Option.filter_eq_some_iff] at hname
        simpa using hname.2
      · rw [hmodels, hmodels₁, Table.get?_delete, Option.filter_eq_some_iff] at hk
        have hne : k ≠ model.id := by simpa using hk.2
        rw [hfind, if_neg fun hsame => hne (hunshared row k row' hrow hk.1 (by rw [hsame.1, hrepository])
          (hsame.2.trans hcommit))]
        exact hbefore
      · obtain ⟨op, hop, hs⟩ := Option.map_eq_some_iff.mp hdone
        exact ⟨op, hop, by rw [hs]; rfl⟩
    · exact absurd (hunref.mpr hun) hnot

/-! ## Two removals -/

def cachedModel : ModelCache where
  snapshots := [⟨"models--org--m", "aaaaaaaaaaaaaaaaaaaaaaaaaaaaaaaaaaaaaaaa", [("model.safetensors", "b")]⟩]
  blobs := [⟨"models--org--m", "b", 8⟩]

def unservedModel : World := { db := actorLoop exampleEnv {} modelExists, cache := cachedModel }

def stoppedModel : World where
  db := actorLoop exampleEnv {} [({}, .promoteModel exampleModel false), ({}, .beginServe exampleInstance),
    ({}, .beginStop "m")]
  cache := cachedModel

def removalEval (w : World) : Response × World × List (Eff × Oracle) :=
  (agent exampleSite).eval 0 (exampleTurn { operationId := "op1" }) 1
    (removeModel exampleSite keyedCaller "m_1" exampleRemoval) w

theorem removal_consistent_unserved : Consistent "m_1" "op1" unservedModel (removalEval unservedModel).2.1 := by
  have hmodel : (unservedModel.db.readModel "m_1").toOption.any (fun model => model.id = "m_1") = true := by
    decide +kernel
  obtain ⟨model, hread, hid⟩ := (Option.any_eq_true _ _).mp hmodel
  have hread : unservedModel.db.readModel "m_1" = .ok model := by
    cases h : unservedModel.db.readModel "m_1" with
    | error e => rw [h] at hread; cases hread
    | ok model' => rw [h] at hread; cases hread; rfl
  have hid : model.id = "m_1" := of_decide_eq_true hid
  have hkeys : unservedModel.db.models.keys = ["m_1"] := by decide +kernel
  have hexec : (removalEval unservedModel).2.2.any (fun x => x.1.removes) = true := by decide +kernel
  have hio : (removalEval unservedModel).2.2.all (fun x => !x.1.removes || x.2.io.isNone) = true := by decide +kernel
  have htaken : (removalEval unservedModel).2.1.db.idempotency.get? (keyedCaller.id, "model.remove", "k1") =
      some ⟨"b45d8ab482fd5e8a88ad2fa8e35d5cd4a98b9121f599c5eeea94ba45fa6fb9fe", "op1"⟩ := by decide +kernel
  have hfresh : unservedModel.db.idempotency.get? (keyedCaller.id, "model.remove", "k1") = none := by decide +kernel
  rw [← hid]
  refine (removal_consistent exampleSite modelExists keyedCaller "k1" "m_1" exampleRemoval rfl rfl (by decide +kernel)
    hfresh hread (Machine.evals_eval _ _ _ _) (List.any_eq_true.mp hexec) (fun x hx hr => ?_) htaken).mpr ⟨?_, ?_⟩
  · have := List.all_eq_true.mp hio x hx
    simpa [hr] using this
  · rw [hid]
    exact unreferenced_iff.mp (by decide +kernel)
  · rw [hid]
    intro row k row' _ hk _ _
    have hmem := Table.mem_keys_iff.mpr ⟨row', Table.get?_eq_some.mp hk⟩
    rw [hkeys] at hmem
    exact List.mem_singleton.mp hmem

/-- The files are gone, the row is still there, and the operation is left
running. -/
theorem removal_strands_model : ∃ c, (agent exampleSite).Runs .free
      (starting exampleSite stoppedModel [.removeModel keyedCaller "m_1" exampleRemoval]) c ∧
    (∃ a, c.tasks[0]? = some (.removeModel keyedCaller "m_1" exampleRemoval, .ret a)) ∧
    (c.world.db.models.get? "m_1").isSome = true ∧
    (stoppedModel.cache.find "org/m" "aaaaaaaaaaaaaaaaaaaaaaaaaaaaaaaaaaaaaaaa").isSome = true ∧
    c.world.cache.find "org/m" "aaaaaaaaaaaaaaaaaaaaaaaaaaaaaaaaaaaaaaaa" = none ∧
    c.world.operation "op1" = some .running := by
  have heval : (agent exampleSite).Evals 0 1 (program exampleSite (.removeModel keyedCaller "m_1" exampleRemoval))
    stoppedModel (removalEval stoppedModel).1 (removalEval stoppedModel).2.1 (removalEval stoppedModel).2.2 :=
    Machine.evals_eval _ _ _ _
  obtain ⟨c, hrun, hw, hc⟩ := heval.runs (c := starting exampleSite stoppedModel [.removeModel keyedCaller "m_1" exampleRemoval])
    rfl rfl rfl
  refine ⟨c, hrun, ⟨_, hc⟩, ?_⟩
  rw [hw]
  refine ⟨?_, ?_, ?_, ?_⟩ <;> decide +kernel

end Sparkplane

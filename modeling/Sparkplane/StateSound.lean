import Sparkplane.Tokens

/-!
# What one database command does

For each command of the operation log an equation that gives its result in
every case, and for every command the areas of the database it can touch. The
invariants are derived from these and never unfold a command.
-/

namespace Sparkplane

variable {tokenId o id : String} {row : OperationRow} {next : OperationState} {result : Option Json}
variable {problem : Option ProblemDocument}

/-! ## Events -/

def Db.pushEvent (db : Db) (id : String) (state : OperationState) (progress : OperationProgress)
    (now : Timestamp) : Db :=
  { db with events := db.events.upsert (id, db.nextSequence id) ⟨state, progress, now⟩ }

theorem Db.nextSequence_fresh (db : Db) (id : String) : (id, db.nextSequence id) ∉ db.events.keys := by
  intro hk
  obtain ⟨r, hr⟩ := Table.mem_keys_iff.mp hk
  have hmem : db.nextSequence id ∈ (db.eventsOf id).map fun e => e.1.2 :=
    List.mem_map.mpr ⟨_, List.mem_filter.mpr ⟨hr, by simp⟩, rfl⟩
  unfold nextSequence at hmem
  cases hm : ((db.eventsOf id).map fun e => e.1.2).max? with
  | none => rw [hm, List.max?_eq_none_iff.mp hm] at hmem; cases hmem
  | some n =>
    rw [hm] at hmem
    exact Nat.not_succ_le_self n ((List.max?_le_iff hm).mp (Nat.le_refl n) _ hmem)

theorem Db.eventsOf_pushEvent (db : Db) (id : String) (s : OperationState) (p : OperationProgress)
    (now : Timestamp) (id' : String) :
    (db.pushEvent id s p now).eventsOf id' =
      if id' = id then db.eventsOf id ++ [((id, db.nextSequence id), ⟨s, p, now⟩)]
      else db.eventsOf id' := by
  unfold eventsOf Table.select pushEvent
  rw [Table.upsert_rows (db.nextSequence_fresh id), List.filter_append]
  by_cases e : id' = id
  · subst e; simp
  · simp [e, Ne.symm e]

theorem Db.eventsOf_congr {db db' : Db} (h : db'.events = db.events) (id : String) :
    db'.eventsOf id = db.eventsOf id := by
  unfold eventsOf; rw [h]

def Db.accepted (db : Db) (d : Draw) (tokenId kind key requestSha256 : String) (target : Option String) : Db :=
  let row : OperationRow :=
    ⟨kind, tokenId, target, .accepted, Database.acceptedProgress, d.now, d.now, none, none⟩
  { db with
    operations := db.operations.upsert d.operationId row
    idempotency := db.idempotency.upsert (tokenId, kind, key) ⟨requestSha256, d.operationId⟩
  }.pushEvent d.operationId .accepted Database.acceptedProgress d.now

def OperationRow.advance (row : OperationRow) (now : Timestamp) (next : OperationState)
    (progress : OperationProgress) (result : Option Json) (problem : Option ProblemDocument) :
    OperationRow :=
  { row with state := next, progress, updatedAt := now, result, problem }

def Db.advanced (db : Db) (now : Timestamp) (id : String) (next : OperationState)
    (progress : OperationProgress) (result : Option Json) (problem : Option ProblemDocument) : Db :=
  { db with operations := db.operations.modify id (·.advance now next progress result problem)
  }.pushEvent id next progress now

namespace Database

variable {db db' : Db}

theorem appendEvent_run (id : String) (s : OperationState) (p : OperationProgress) (now : Timestamp)
    (db : Db) : appendEvent id s p now db = .ok ((), db.pushEvent id s p now) := by
  unfold appendEvent Db.pushEvent
  rw [Tx.execute_run, Table.insert_eq_upsert (Table.get?_eq_none.mpr (db.nextSequence_fresh id))]
  rfl

theorem acceptOperation_run (d : Draw) (tokenId kind key requestSha256 : String) (target : Option String) (db : Db) :
    acceptOperation d tokenId kind key requestSha256 target db =
      match db.idempotency.get? (tokenId, kind, key) with
      | some prior =>
        if prior.requestSha256 = requestSha256 then
          match db.operations.get? prior.operationId with
          | some row => .ok (⟨⟨row, prior.operationId⟩, true⟩, db)
          | none => .error .notFound
        else .error reusedKey
      | none =>
        if (db.operations.get? d.operationId).isSome then .error sqlConstraint
        else .ok (⟨⟨⟨kind, tokenId, target, .accepted, acceptedProgress, d.now, d.now, none, none⟩,
          d.operationId⟩, false⟩, db.accepted d tokenId kind key requestSha256 target) := by
  unfold acceptOperation
  rw [Tx.bind_run, Tx.query_run]
  cases hp : db.idempotency.get? (tokenId, kind, key) with
  | some prior =>
    simp only [Tx.bind_run, Tx.require_run]
    by_cases hh : prior.requestSha256 = requestSha256
    · cases ho : db.operations.get? prior.operationId with
      | some row => simp [hh, Tx.query_run, Db.readOperation, ho]
      | none => simp [hh, Tx.query_run, Db.readOperation, ho]
    · simp [hh]
  | none =>
    simp only [Tx.bind_run, Tx.execute_run]
    cases ho : db.operations.get? d.operationId with
    | some row => simp [Table.insert_isNone (r := _) (by rw [ho]; rfl)]
    | none =>
      simp only [Table.insert_eq_upsert ho, Table.insert_eq_upsert hp, Option.map_some, appendEvent_run,
        Tx.query_run, Db.readOperation]
      simp [Db.accepted, Db.pushEvent, Table.get?_upsert]

theorem acceptOperation_new {d : Draw} {kind key hash : String} {target : Option String} {a : AcceptedOperation}
    (h : ((acceptOperation d tokenId kind key hash target).commit db).1 = .ok a) (hr : a.reused = false) :
    ((acceptOperation d tokenId kind key hash target).commit db).2.operations.get? a.operation.id =
      some ⟨kind, tokenId, target, .accepted, acceptedProgress, d.now, d.now, none, none⟩ := by
  rcases (acceptOperation d tokenId kind key hash target).commit_cases db with
    ⟨a', db', hrun, hc⟩ | ⟨e, _, hc⟩
  · rw [hc] at h ⊢
    cases h
    rw [acceptOperation_run] at hrun
    split at hrun
    · split at hrun
      · split at hrun <;> cases hrun
        cases hr
      · cases hrun
    · split at hrun <;> cases hrun
      show (db.operations.upsert d.operationId _).get? d.operationId = _
      rw [Table.get?_upsert, if_pos rfl]
  · rw [hc] at h; cases h

theorem transition_run (d : Draw) (id : String) (next : OperationState) (progress : OperationProgress)
    (result : Option Json) (problem : Option ProblemDocument) (db : Db) :
    transition d id next progress result problem db =
      match db.operations.get? id with
      | none => .error .notFound
      | some row =>
        if row.state = next ∧ row.state.isTerminal then .ok (⟨row, id⟩, db)
        else if legalOperationTransition row.state next then
          .ok (⟨row.advance d.now next progress result problem, id⟩, db.advanced d.now id next progress result problem)
        else .error (illegalTransition row.state next) := by
  unfold transition
  rw [Tx.bind_run, Tx.query_run, Db.readOperation]
  cases ho : db.operations.get? id with
  | none => rfl
  | some row =>
    by_cases hs : row.state = next ∧ row.state.isTerminal
    · simp only [if_pos hs, Tx.pure_run]
    · by_cases hl : legalOperationTransition row.state next
      · simp only [hs, ite_false, Tx.bind_run, Tx.require_run, hl, ite_true, Tx.modify_run,
          appendEvent_run, Tx.query_run, Db.readOperation]
        simp [Db.advanced, Db.pushEvent, ho, OperationRow.advance]
      · simp [hs, hl, Tx.require_run]

theorem transition_legal {d : Draw} {p : OperationProgress} (hop : db.operations.get? o = some row)
    (hlegal : legalOperationTransition row.state next = true) :
    transition d o next p result problem db =
      .ok (⟨row.advance d.now next p result problem, o⟩, db.advanced d.now o next p result problem) := by
  rw [transition_run, hop]
  dsimp only
  have hopen : ¬ row.state.isTerminal = true := by
    revert hlegal
    cases row.state <;> cases next <;> decide
  rw [if_neg fun h => hopen h.2, if_pos hlegal]

theorem advanced_get? (hop : db.operations.get? o = some row)
    (now : Timestamp) (next : OperationState) (p : OperationProgress) (result : Option Json)
    (problem : Option ProblemDocument) :
    (db.advanced now o next p result problem).operations.get? o =
      some (row.advance now next p result problem) := by
  show (db.operations.modify o _).get? o = _
  rw [Table.get?_modify_self, hop]
  rfl

theorem accepted_get? (db : Db) (d : Draw) (actor kind key hash : String) (target : Option String) :
    (db.accepted d actor kind key hash target).operations.get? d.operationId =
      some ⟨kind, actor, target, .accepted, acceptedProgress, d.now, d.now, none, none⟩ := by
  show (db.operations.upsert d.operationId _).get? d.operationId = _
  rw [Table.get?_upsert, if_pos rfl]

theorem transition_ok {d : Draw} {progress : OperationProgress} {a : OperationDocument}
    (h : ((transition d id next progress result problem).commit db).1 = .ok a) :
    ∃ row, ((transition d id next progress result problem).commit db).2.operations.get? id = some row ∧
      row.state = next := by
  rcases (transition d id next progress result problem).commit_cases db with ⟨a', db', hrun, hc⟩ | ⟨e, _, hc⟩
  · rw [hc]
    rw [transition_run] at hrun
    split at hrun
    · cases hrun
    · rename_i row hrow
      split at hrun
      · rename_i hs
        cases hrun
        exact ⟨row, hrow, hs.1⟩
      · split at hrun <;> cases hrun
        refine ⟨row.advance d.now next progress result problem, ?_, rfl⟩
        show (db.operations.modify id _).get? id = _
        rw [Table.get?_modify, if_pos rfl, hrow]
        rfl
  · rw [hc] at h; cases h

theorem closeOperation_run {d : Draw} (hrow : db.operations.get? id = some row)
    (hs : row.state.isTerminal = false) (running failed : OperationProgress) (problem : ProblemDocument) :
    closeOperation d id running failed problem db = (.ok (),
      (if row.state = .accepted then db.advanced d.now id .running running none none else db).advanced
        d.now id .failed failed none (some problem)) := by
  have hread : db.readOperation id = .ok ⟨row, id⟩ := by rw [Db.readOperation, hrow]
  unfold closeOperation
  rw [Batch.bind_run, Batch.query_run, hread]
  dsimp only
  by_cases ha : row.state = .accepted
  · have hrow1 := advanced_get? hrow d.now .running running none none
    rw [if_pos ha, if_pos ha, Batch.bind_run, Batch.commit_run, transition_legal hrow (by rw [ha]; rfl)]
    dsimp only
    rw [Batch.bind_run, Batch.commit_run, transition_legal hrow1 rfl]
    rfl
  · have hr : row.state = .running := by
      revert ha hs; cases row.state <;> decide
    rw [if_neg ha, if_neg ha, Batch.bind_run, Batch.commit_run, transition_legal hrow (by rw [hr]; rfl)]
    rfl

theorem cancelOperation_run (d : Draw) (id : String) (db : Db) : cancelOperation d id db =
      match db.operations.get? id with
      | none => (.error .notFound, db)
      | some row =>
        if row.state = .cancelled then (.ok ⟨row, id⟩, db)
        else if row.state.isTerminal then (.error terminalImmutable, db)
        else (.ok ⟨row.advance d.now .cancelled cancelledProgress none none, id⟩,
          db.advanced d.now id .cancelled cancelledProgress none none) := by
  unfold cancelOperation
  rw [Batch.bind_run, Batch.query_run, Db.readOperation]
  cases ho : db.operations.get? id with
  | none => rfl
  | some row =>
    have ht := transition_run d id .cancelled cancelledProgress none none db
    rw [ho] at ht
    by_cases hc : row.state = .cancelled
    · simp only [if_pos hc, Batch.pure_run]
    · by_cases hf : row.state.isTerminal
      · simp [hc, hf]
      · have hl : legalOperationTransition row.state .cancelled = true := by
          revert hc hf; cases row.state <;> decide
        simp only [hc, false_and, ite_false, hl, ite_true] at ht
        simp [hc, hf, ht]

end Database

/-! ## Which areas a command touches -/

inductive Area where
  | log
  | access
  | catalog
  | fleet

def Db.Agree (db db' : Db) : Area → Prop
  | .log => db'.operations = db.operations ∧ db'.events = db.events ∧ db'.idempotency = db.idempotency
  | .access => db'.tokens = db.tokens ∧ db'.panelTokenScopes = db.panelTokenScopes ∧
      db'.sessions = db.sessions
  | .catalog => db'.models = db.models ∧ db'.aliases = db.aliases
  | .fleet => db'.instances = db.instances ∧ db'.instanceResources = db.instanceResources ∧
      db'.emergencyRecords = db.emergencyRecords ∧ db'.restartFailures = db.restartFailures ∧
      db'.quarantineEvidence = db.quarantineEvidence

def Touches (F : List Area) (db db' : Db) : Prop := ∀ a, a ∉ F → db.Agree db' a

section
variable {F : List Area}

instance : Std.Refl (Touches F) where
  refl db a _ := by cases a <;> simp [Db.Agree]

instance : IsTrans Db (Touches F) where
  trans db₁ db₂ db₃ h1 h2 a ha := by
    have := h1 a ha
    have := h2 a ha
    cases a <;> simp_all [Db.Agree]

variable {db : Db}

theorem Touches.mono {G : List Area} (h : ∀ a, a ∈ F → a ∈ G) {db' : Db} (ht : Touches F db db') :
    Touches G db db' := fun a ha => ht a fun hF => ha (h a hF)

theorem touches_log {o : Table String OperationRow} {e : Table (String × Nat) EventRow}
    {i : Table (String × String × String) IdempotencyRow} :
    Touches [.log] db { db with operations := o, events := e, idempotency := i } := by
  intro a ha; cases a <;> simp_all [Db.Agree]

theorem touches_access {t : Table String TokenRow} {p : Table String Unit} {s : Table String SessionRow} :
    Touches [.access] db { db with tokens := t, panelTokenScopes := p, sessions := s } := by
  intro a ha; cases a <;> simp_all [Db.Agree]

theorem touches_catalog {m : Table String ModelRow} {n : Table String String} :
    Touches [.catalog] db { db with models := m, aliases := n } := by
  intro a ha; cases a <;> simp_all [Db.Agree]

theorem touches_fleet {i : Table String InstanceRow} {r : Table String ResourceRow}
    {e : Table String EmergencyRecord} {f : Table (String × Nat × Nat) Unit} {q : Table String QuarantineRow} :
    Touches [.fleet] db { db with
      instances := i, instanceResources := r, emergencyRecords := e, restartFailures := f
      quarantineEvidence := q } := by
  intro a ha; cases a <;> simp_all [Db.Agree]

end

namespace Database

variable (E : Env) (d : Draw)

theorem acceptOperation_touches (tokenId kind key hash : String) (target : Option String) :
    (acceptOperation d tokenId kind key hash target).Keeps (Touches [.log]) := by
  intro db a db' h
  rw [acceptOperation_run] at h
  cases hp : db.idempotency.get? (tokenId, kind, key) with
  | some prior =>
    rw [hp] at h
    dsimp only at h
    split at h
    · split at h <;> cases h
      exact Std.Refl.refl db
    · cases h
  | none =>
    rw [hp] at h
    dsimp only at h
    split at h
    · cases h
    · cases h; exact touches_log

theorem transition_touches (id : String) (next : OperationState) (p : OperationProgress)
    (result : Option Json) (problem : Option ProblemDocument) :
    (transition d id next p result problem).Keeps (Touches [.log]) := by
  intro db a db' h
  rw [transition_run] at h
  split at h
  · cases h
  · split at h
    · cases h; exact Std.Refl.refl db
    · split at h
      · cases h; exact touches_log
      · cases h

theorem promoteModel_touches (model : ModelDocument) (updateAlias : Bool) :
    (promoteModel model updateAlias).Keeps (Touches [.catalog]) :=
  .bind (.each (fun _ => .bind (.query _) fun _ => .require _ _) _) fun _ =>
    .bind (.modify fun _ => touches_catalog) fun _ =>
    .bind (.each (R := Touches [.catalog]) (fun _ => .modify fun _ => touches_catalog) _) fun _ => .query _

theorem removeModel_touches (id : String) : (removeModel id).Keeps (Touches [.catalog]) :=
  .bind (.query _) fun _ => .bind (.require _ _) fun _ => .bind (.modify fun _ => touches_catalog) fun _ =>
    .bind (.query _) fun _ => .bind (.require _ _) fun _ => .modify fun _ => touches_catalog

theorem storeServe_touches (i : InstanceDocument) : (storeServe i).Keeps (Touches [.fleet]) := by
  refine .bind (.require _ _) fun _ => .bind (.execute fun db db' h => ?_) fun _ =>
    .bind (.require _ _) fun _ => .bind (.require _ _) fun _ =>
    .bind (.execute fun db db' h => ?_) fun _ => .pure _
  · unfold upsertInstance at h
    split at h
    · cases h
    · dsimp only at h
      split at h
      · cases h; exact touches_fleet
      · obtain ⟨t, _, rfl⟩ := Option.map_eq_some_iff.mp h
        exact touches_fleet
  · unfold upsertResources at h
    split at h
    · cases h
    · cases h; exact touches_fleet

theorem beginServe_touches (i : InstanceDocument) : (beginServe E i).Keeps (Touches [.fleet]) := by
  refine .bind (.query _) fun _ => .bind (.query _) fun prior => ?_
  cases prior with
  | none => exact storeServe_touches _
  | some prior =>
    exact .ite (.bind (.require _ _) fun _ => .pure _) (.bind (.require _ _) fun _ => storeServe_touches _)

theorem persistInstance_touches (i : InstanceDocument) : (persistInstance i).Keeps (Touches [.fleet]) := by
  refine .bind (.require _ _) fun _ => .execute fun db db' h => ?_
  split at h
  · split at h
    · cases h; exact touches_fleet
    · cases h
  · cases h

theorem currentInstance_touches (id : String) (generation : Nat) {F : List Area} :
    (currentInstance id generation).Keeps (Touches F) :=
  .bind (.query _) fun _ => .bind (.require _ _) fun _ => .pure _

theorem setInstanceObserved_touches (id : String) (generation : Nat) (observed : InstanceObservedState)
    (endpoint failure : Option String) (startup : Option Nat) :
    (setInstanceObserved d id generation observed endpoint failure startup).Keeps (Touches [.fleet]) :=
  .bind (currentInstance_touches _ _) fun _ => .bind (.require _ _) fun _ => .ite
    (.bind (.require _ _) fun _ => .bind (.modify fun _ => touches_fleet) fun _ =>
      .bind (.modify fun _ => touches_fleet) fun _ => .bind (persistInstance_touches _) fun _ => .pure _)
    (.bind (persistInstance_touches _) fun _ => .pure _)

theorem beginStop_touches (reference : String) : (beginStop reference).Keeps (Touches [.fleet]) :=
  .bind (.query _) fun _ => .bind (persistInstance_touches _) fun _ => .pure _

theorem recordRestartFailure_touches (id : String) (generation second : Nat) :
    (recordRestartFailure id generation second).Keeps (Touches [.fleet]) := by
  refine .bind (currentInstance_touches _ _) fun _ => .bind (.require _ _) fun _ =>
    .bind (.require _ _) fun _ => .bind (.execute fun db db' h => ?_) fun _ =>
    .bind (.modify fun _ => touches_fleet) fun _ => .bind (.query _) fun _ =>
    .bind (persistInstance_touches _) fun _ => .bind (.modify fun _ => touches_fleet) fun _ => .pure _
  split at h
  · cases h
  · cases h; exact touches_fleet

theorem markQuarantine_touches (id : String) (generation : Nat) (cause : String) :
    (markQuarantine id generation cause).Keeps (Touches [.fleet]) :=
  .bind (.require _ _) fun _ => .bind (currentInstance_touches _ _) fun _ =>
    .bind (persistInstance_touches _) fun _ => .pure _

theorem reconcileQuarantine_touches (evidence : List QuarantineEvidence) :
    (reconcileQuarantine d evidence).Keeps (Touches [.fleet]) :=
  .bind (.each (fun _ => .query _) _) fun _ => .bind (.modify fun _ => touches_fleet) fun _ =>
    .bind (.each (R := Touches [.fleet])
      (fun _ => .bind (.require _ _) fun _ => .modify fun _ => touches_fleet) _) fun _ =>
    .bind (.query _) fun _ => .each (fun _ => .ite (persistInstance_touches _) (.pure _)) _

theorem recordEmergency_touches (record : EmergencyRecord) : (recordEmergency record).Keeps (Touches [.fleet]) :=
  .bind (.query _) fun _ => .ite (.pure _) <| .bind (.modify fun _ => touches_fleet) fun _ =>
    .bind (.query _) fun _ => .ite (.pure _) <| .bind (.modify fun _ => touches_fleet) fun _ =>
    .bind (persistInstance_touches _) fun _ => .pure _

/-! ## Commands of several transactions

Each keeps what its transactions keep. -/

section
variable {R : Db → Db → Prop} [Std.Refl R] [IsTrans Db R] {E d}
  (htransition : ∀ id next p result problem, (transition d id next p result problem).Keeps R)

include htransition

theorem cancelOperation_keeps (id : String) : (cancelOperation d id).Keeps R :=
  .bind (.query _) fun _ => .ite (.pure _) <|
    .bind (.require _ _) fun _ => .commit (htransition _ _ _ _ _)

theorem closeOperation_keeps (id : String) (running failed : OperationProgress)
    (problem : ProblemDocument) : (closeOperation d id running failed problem).Keeps R := by
  have hfailed : Batch.Keeps R (do
      let _ ← (transition d id .failed failed none (some problem)).commit) :=
    .bind (.commit (htransition _ _ _ _ _)) fun _ => .pure _
  exact .bind (.query _) fun _ =>
    .ite (.bind (.commit (htransition _ _ _ _ _)) fun _ => hfailed) hfailed

theorem interruptLoop_keeps : ∀ fuel, (interruptLoop d fuel).Keeps R
  | 0 => .pure _
  | fuel + 1 => .bind (.query _) fun _ => .ite (.pure _) <|
    .bind (.each (fun _ => closeOperation_keeps htransition _ _ _ _) _) fun _ => interruptLoop_keeps fuel

theorem interruptPanelRecoveries_keeps : (interruptPanelRecoveries d).Keeps R :=
  .bind (.query _) fun _ => interruptLoop_keeps htransition _

theorem importEmergency_keeps {record : EmergencyRecord} (hrecord : (recordEmergency record).Keeps R) :
    (importEmergency E d record).Keeps R := by
  refine .bind (.require _ _) fun _ => .bind (.require _ _) fun _ =>
    .bind (.commit hrecord) fun outcome => ?_
  cases outcome with
  | duplicate => exact .pure _
  | stale => exact .pure _
  | suppressed =>
    exact .bind (.query _) fun _ =>
      .bind (.each (fun _ => closeOperation_keeps htransition _ _ _ _) _) fun _ => .pure _

theorem completeToken_keeps (operationId tokenId : String) (running done : OperationProgress) :
    (completeToken d operationId tokenId running done).Keeps R :=
  .bind (.commit (htransition _ _ _ _ _)) fun _ => .commit (htransition _ _ _ _ _)

theorem createToken_keeps
    (haccept : ∀ tokenId key hash, (acceptOperation d tokenId "token.create" key hash none).Keeps R)
    (hinsert : ∀ row, row.revokedAt = none → (insertToken d.tokenId row).Keeps R)
    (hscope : ∀ db p, R db { db with panelTokenScopes := p }) (actor key : String)
    (request : TokenCreateRequest) : (createToken E d actor key request).Keeps R := by
  have hend : ∀ operationId, (publishToken d operationId).Keeps R := fun _ =>
    .bind (completeToken_keeps htransition _ _ _ _) fun _ => .bind (.query _) fun _ => .pure _
  refine .bind (.query _) fun _ => .bind (.commit (haccept _ _ _)) fun accepted => .ite ?_ <|
    .bind (.query _) fun _ => .bind (.require _ _) fun _ => .bind (.commit (hinsert _ rfl)) fun _ =>
    .ite (.bind (.commit ?_) fun _ => hend _) (hend _)
  · split
    · exact .throw _
    · exact .bind (.query _) fun _ => .pure _
  · refine .execute fun db db' h => ?_
    obtain ⟨t, _, rfl⟩ := Option.map_eq_some_iff.mp h
    exact hscope db t

theorem revokeToken_keeps (haccept : ∀ actor key hash,
      (acceptOperation d actor "token.revoke" key hash (some tokenId)).Keeps R)
    (hrevoke : ∀ db : Db, R db { db with
      tokens := db.tokens.modify tokenId fun t => { t with revokedAt := some d.now } })
    (actor key : String) : (revokeToken E d actor key tokenId).Keeps R :=
  .bind (.commit (haccept _ _ _)) fun _ => .ite (.pure _) <| .bind (.query _) fun _ => .ite
    (.bind (.commit (.modify hrevoke)) fun _ => completeToken_keeps htransition _ _ _ _)
    (completeToken_keeps htransition _ _ _ _)

end

section
variable {R : Db → Db → Prop} [Std.Refl R] [IsTrans Db R] {E d}

theorem createLaunchSession_keeps {request : LaunchSessionRequest}
    (hinsert : ∀ hash inst, (insertSession E d request hash inst).Keeps R) :
    (createLaunchSession E d request).Keeps R := by
  refine .bind (.require _ _) fun _ => .bind (.query _) fun _ => .bind (.query _) fun existing => ?_
  cases existing with
  | some existing =>
    exact .bind (.require _ _) fun _ => .bind (.query _) fun _ => .pure _
  | none =>
    exact .bind (.query _) fun _ => .bind (.query _) fun _ => .bind (.require _ _) fun _ =>
      .bind (.commit (hinsert _ _)) fun _ => .bind (.query _) fun _ => .pure _

theorem finishLaunchSession_keeps
    (hfinish : ∀ (db : Db) token, R db { db with
      sessions := db.sessions.modify id fun s => { s with finishedAt := s.finishedAt.or (some d.now) }
      tokens := db.tokens.modify token fun t => { t with revokedAt := t.revokedAt.or (some d.now) } }) :
    (finishLaunchSession d id).Keeps R :=
  .bind (.bind (.query _) fun _ => .commit (.modify fun db => hfinish db _)) fun _ => .query _

end

theorem insertToken_touches (id : String) (row : TokenRow) : (insertToken id row).Keeps (Touches [.access]) := by
  refine .execute fun db db' h => ?_
  obtain ⟨t, _, rfl⟩ := Option.map_eq_some_iff.mp h
  exact touches_access

theorem insertSession_touches (request : LaunchSessionRequest) (hash : String) (inst : InstanceDocument) :
    (insertSession E d request hash inst).Keeps (Touches [.access]) := by
  refine .bind (.modify fun _ => touches_access) fun _ => .bind (insertToken_touches _ _) fun _ =>
    .execute fun db db' h => ?_
  split at h
  · cases h
  · obtain ⟨t, _, rfl⟩ := Option.map_eq_some_iff.mp h
    exact touches_access

end Database

end Sparkplane

import Sparkplane.AdmissionSound

/-!
# Emergencies

What `import_emergency` writes, and three properties of it: the suppression it
sets stays (`emergency_sticky`), it closes the operations of the instance
(`emergency_closes`), and a crash between its steps does no harm
(`emergency_crash_equivalent`). Each holds under a condition only.
-/

namespace Sparkplane

open Database

variable {row : InstanceRow} {r : String × InstanceRow} {reference : String} {c : Command} {g : Nat}

/-! ## Closing operations -/

/-- What the other tables and the handlers look at. -/
structure Brief where
  kind : String
  target : Option String
  state : OperationState
  deriving DecidableEq

open Brief

def OperationRow.brief (row : OperationRow) : Brief := ⟨row.kind, row.target, row.state⟩

def Db.brief (db : Db) (id : String) : Option Brief := (db.operations.get? id).map OperationRow.brief

def Brief.close (b : Brief) : Brief := if b.state.isTerminal then b else { b with state := .failed }

def Brief.closeIf (p : Brief → Bool) (b : Brief) : Brief := if p b then b.close else b

theorem brief_advanced (db : Db) (now : Timestamp) (id : String) (next : OperationState) (p : OperationProgress)
    (result : Option Json) (problem : Option ProblemDocument) (k : String) :
    (db.advanced now id next p result problem).brief k =
      if k = id then (db.brief k).map fun b => { b with state := next } else db.brief k := by
  show ((db.operations.modify id _).get? k).map _ = _
  rw [Table.get?_modify]
  by_cases e : k = id
  · subst e
    rw [if_pos rfl, if_pos rfl, Db.brief, Option.map_map, Option.map_map]
    rfl
  · rw [if_neg e, if_neg e]; rfl

namespace Database

variable (d : Draw)

theorem closeOperation_brief {db : Db} {id : String} {row : OperationRow}
    (hrow : db.operations.get? id = some row) (hs : row.state.isTerminal = false)
    (running failed : OperationProgress) (problem : ProblemDocument) :
    ∃ db', closeOperation d id running failed problem db = (.ok (), db') ∧ Touches [.log] db db' ∧
      ∀ k, db'.brief k = if k = id then (db.brief k).map close else db.brief k := by
  have hbrief : db.brief id = some row.brief := congrArg _ hrow
  have hclose : row.brief.close = { row.brief with state := .failed } := by
    rw [close, if_neg (by rw [show row.brief.state = row.state from rfl, hs]; nofun)]
  refine ⟨_, closeOperation_run hrow hs running failed problem, ?_, fun k => ?_⟩
  · split
    · exact IsTrans.trans _ _ _ touches_log touches_log
    · exact touches_log
  · rw [brief_advanced]
    by_cases e : k = id
    · subst e
      rw [if_pos rfl, if_pos rfl, hbrief, Option.map_some, hclose]
      split
      · rw [brief_advanced, if_pos rfl, hbrief]; rfl
      · rw [hbrief]; rfl
    · rw [if_neg e, if_neg e]
      split
      · rw [brief_advanced, if_neg e]
      · rfl

theorem each_close_brief (running failed : OperationProgress) (problem : String → ProblemDocument) :
    ∀ (ids : List String) (db : Db), ids.Nodup →
    (∀ id ∈ ids, ∃ row, db.operations.get? id = some row ∧ row.state.isTerminal = false) →
    ∃ db', Batch.each (fun id => closeOperation d id running failed (problem id)) ids db = (.ok (), db') ∧
      Touches [.log] db db' ∧
      ∀ k, db'.brief k = if k ∈ ids then (db.brief k).map close else db.brief k
  | [], db, _, _ => ⟨db, rfl, Std.Refl.refl _, fun k => by simp⟩
  | id :: ids, db, hn, hids => by
    rw [List.nodup_cons] at hn
    obtain ⟨row, hrow, hs⟩ := hids id (List.mem_cons_self ..)
    obtain ⟨db1, h1, ht1, hb1⟩ := closeOperation_brief d hrow hs running failed (problem id)
    obtain ⟨db2, h2, ht2, hb2⟩ := each_close_brief running failed problem ids db1 hn.2 fun i hi => by
      have hne : i ≠ id := fun e => hn.1 (e ▸ hi)
      obtain ⟨row', hrow', hs'⟩ := hids i (List.mem_cons_of_mem _ hi)
      have hb : db1.brief i = some row'.brief := by
        rw [hb1, if_neg hne, Db.brief, hrow']
        rfl
      obtain ⟨row'', hrow'', he⟩ := Option.map_eq_some_iff.mp hb
      exact ⟨row'', hrow'', by rw [show row''.state = row'.state from congrArg state he, hs']⟩
    refine ⟨db2, ?_, IsTrans.trans _ _ _ ht1 ht2, fun k => ?_⟩
    · unfold Batch.each
      rw [Batch.bind_run, h1]
      exact h2
    · rw [hb2, hb1]
      by_cases e : k = id
      · subst e
        rw [if_neg hn.1, if_pos rfl, if_pos (List.mem_cons_self ..)]
      · simp only [List.mem_cons, e, false_or, ite_false]

theorem mem_activeTargeting {db : Db} {target id : String} :
    id ∈ db.activeTargeting target ↔ ∃ row, db.operations.get? id = some row ∧
      row.target = some target ∧ row.state.isTerminal = false := by
  unfold Db.activeTargeting
  rw [((List.perm_insertionSort _ _).map Prod.fst).mem_iff]
  simp only [Table.select, List.mem_map, List.mem_filter, Prod.exists, exists_and_right, exists_eq_right,
    Table.get?_eq_some]
  exact exists_congr fun row => by simp

theorem activeTargeting_nodup (db : Db) (target : String) : (db.activeTargeting target).Nodup := by
  unfold Db.activeTargeting
  rw [((List.perm_insertionSort _ _).map Prod.fst).nodup_iff]
  exact (List.filter_sublist.map Prod.fst).nodup db.operations.nodup

/-! ## One import -/

end Database

def EmergencyRecord.valid (E : Env) (record : EmergencyRecord) : Bool :=
  (record.schema = "sparkplane.emergency-record/v1" && E.parseUlid record.eventId &&
    !record.decision.instanceId.isEmpty && !record.decision.cause.isEmpty) && fitsI64 record.decision.generation

def Db.noted (db : Db) (record : EmergencyRecord) : Db :=
  { db with emergencyRecords := db.emergencyRecords.upsert record.eventId record }

def Db.shedding (db : Db) (record : EmergencyRecord) (i : InstanceDocument) : Db :=
  (suppress (db.noted record) record.decision.instanceId true (some record.decision.cause)).put
    (shed record.decision.cause i)

def Brief.on (target : String) (b : Brief) : Bool := b.target = some target

namespace Database

variable {E : Env} {d : Draw} {db : Db} {record : EmergencyRecord}

theorem recordEmergency_run (hc : Coherent db) (record : EmergencyRecord) : recordEmergency record db =
      if (db.emergencyRecords.get? record.eventId).isSome then .ok (.duplicate, db)
      else match db.lookup record.decision.instanceId with
        | none => .error .notFound
        | some r =>
          if r.2.metadata.generation ≠ record.decision.generation then .ok (.stale, db.noted record)
          else .ok (.suppressed, db.shedding record r.2.metadata) := by
  unfold recordEmergency
  rw [Tx.bind_run, Tx.query_run]
  dsimp only
  by_cases hk : (db.emergencyRecords.get? record.eventId).isSome = true
  · rw [if_pos hk, if_pos hk]; rfl
  · have hnote : (modify fun db => { db with
        emergencyRecords := db.emergencyRecords.upsert record.eventId record } : Sql Unit) db =
        .ok ((), db.noted record) := rfl
    rw [if_neg hk, if_neg hk, Tx.bind_run, hnote]
    dsimp only
    rw [Tx.bind_run, Tx.query_run, Db.readInstanceTx_eq,
      show (db.noted record).lookup record.decision.instanceId = db.lookup record.decision.instanceId from rfl]
    cases hr : db.lookup record.decision.instanceId with
    | none => rfl
    | some r =>
      dsimp only
      by_cases hg : r.2.metadata.generation ≠ record.decision.generation
      · rw [if_pos hg, if_pos hg]; rfl
      · rw [if_neg hg, if_neg hg, Tx.bind_run, Tx.modify_run]
        dsimp only
        have hc' : Coherent (suppress (db.noted record) record.decision.instanceId true
          (some record.decision.cause)) := hc.congr (show _ = db.instances from rfl)
        rw [Tx.bind_run, persistInstance_run (i := shed record.decision.cause r.2.metadata) hc'
          (Db.lookup_some hr).1 ⟨rfl, rfl, rfl, rfl⟩]
        rfl

variable (d db) in
theorem importEmergency_invalid (hv : record.valid E = false) :
    ∃ e, importEmergency E d record db = (.error e, db) := by
  rw [EmergencyRecord.valid, Bool.and_eq_false_iff] at hv
  unfold importEmergency
  rw [Batch.bind_run, Batch.require_run]
  rcases hv with hv | hv
  · rw [hv]
    exact ⟨_, rfl⟩
  · by_cases hfirst : (record.schema = "sparkplane.emergency-record/v1" && E.parseUlid record.eventId &&
        !record.decision.instanceId.isEmpty && !record.decision.cause.isEmpty) = true
    · rw [if_pos hfirst]
      dsimp only
      rw [Batch.bind_run, Batch.require_run, hv]
      exact ⟨_, rfl⟩
    · rw [if_neg hfirst]
      exact ⟨_, rfl⟩

theorem importEmergency_valid (hv : record.valid E = true) : importEmergency E d record db =
      match recordEmergency record db with
      | .error e => (.error e, db)
      | .ok (.duplicate, db1) => (.ok false, db1)
      | .ok (.stale, db1) => (.ok true, db1)
      | .ok (.suppressed, db1) => (do
          Batch.each (fun id => closeOperation d id emergencyRunning emergencyFailed
            (emergencyProblem record id)) (db1.activeTargeting record.decision.instanceId)
          return true : Cmd Bool) db1 := by
  rw [EmergencyRecord.valid, Bool.and_eq_true] at hv
  unfold importEmergency
  rw [Batch.bind_run, Batch.require_run, if_pos hv.1]
  dsimp only
  rw [Batch.bind_run, Batch.require_run, if_pos hv.2]
  dsimp only
  rw [Batch.bind_run, Batch.commit_run]
  cases recordEmergency record db with
  | error e => rfl
  | ok out =>
    obtain ⟨outcome, db1⟩ := out
    cases outcome <;> rfl

theorem importEmergency_current (hc : Coherent db) (hv : record.valid E = true)
    (hnew : db.emergencyRecords.get? record.eventId = none)
    (hr : db.lookup record.decision.instanceId = some r)
    (hg : r.2.metadata.generation = record.decision.generation) :
    ∃ db', importEmergency E d record db = (.ok true, db') ∧ Touches [.log] (db.shedding record r.2.metadata) db' ∧
      ∀ k, db'.brief k = (db.brief k).map (closeIf (on record.decision.instanceId)) := by
  have hrec := recordEmergency_run hc record
  rw [if_neg (by rw [hnew]; nofun), hr] at hrec
  dsimp only at hrec
  rw [if_neg (not_not_intro hg)] at hrec
  rw [importEmergency_valid hv, hrec]
  dsimp only
  obtain ⟨db', hrun, ht, hb⟩ := each_close_brief d emergencyRunning emergencyFailed (emergencyProblem record) _
    (db.shedding record r.2.metadata) (activeTargeting_nodup _ _) fun id hid => by
      obtain ⟨row, hrow, _, hs⟩ := mem_activeTargeting.mp hid
      exact ⟨row, hrow, hs⟩
  refine ⟨db', ?_, ht, fun k => ?_⟩
  · rw [Batch.bind_run, hrun]
    rfl
  · rw [hb]
    show (if k ∈ (db.shedding record r.2.metadata).activeTargeting _ then (db.brief k).map _ else db.brief k) = _
    cases hk : db.brief k with
    | none => simp
    | some b =>
      obtain ⟨row, hrow, rfl⟩ := Option.map_eq_some_iff.mp hk
      have hmem : k ∈ (db.shedding record r.2.metadata).activeTargeting record.decision.instanceId ↔
          row.target = some record.decision.instanceId ∧ row.state.isTerminal = false := by
        rw [mem_activeTargeting]
        constructor
        · rintro ⟨row', hrow', h⟩
          cases hrow.symm.trans hrow'
          exact h
        · exact fun h => ⟨row, hrow, h⟩
      by_cases ht : row.target = some record.decision.instanceId
      · by_cases hs : row.state.isTerminal = false
        · simp [hmem, ht, hs, closeIf, on, OperationRow.brief]
        · simp [hmem, ht, hs, closeIf, on, OperationRow.brief, close]
      · simp [hmem, ht, closeIf, on, OperationRow.brief]

end Database

theorem Database.importEmergency_cases (E : Env) (d : Draw) {db : Db} (hc : Coherent db) (record : EmergencyRecord) :
    (∃ e, importEmergency E d record db = (.error e, db)) ∨
    (importEmergency E d record db = (.ok false, db) ∧ (db.emergencyRecords.get? record.eventId).isSome = true) ∨
    (∃ r, db.lookup record.decision.instanceId = some r ∧ r.2.metadata.generation ≠ record.decision.generation ∧
      importEmergency E d record db = (.ok true, db.noted record)) ∨
    (record.valid E = true ∧ db.emergencyRecords.get? record.eventId = none ∧
      ∃ r, db.lookup record.decision.instanceId = some r ∧ r.2.metadata.generation = record.decision.generation) := by
  cases hv : record.valid E with
  | false => exact .inl (importEmergency_invalid d db hv)
  | true =>
    rw [importEmergency_valid hv, recordEmergency_run hc]
    by_cases hk : (db.emergencyRecords.get? record.eventId).isSome = true
    · rw [if_pos hk]
      exact .inr (.inl ⟨rfl, hk⟩)
    · rw [if_neg hk]
      cases hr : db.lookup record.decision.instanceId with
      | none => exact .inl ⟨_, rfl⟩
      | some r =>
        dsimp only
        by_cases hg : r.2.metadata.generation ≠ record.decision.generation
        · rw [if_pos hg]
          exact .inr (.inr (.inl ⟨r, rfl, hg, rfl⟩))
        · exact .inr (.inr (.inr ⟨rfl, Option.not_isSome_iff_eq_none.mp hk, r, rfl, not_not.mp hg⟩))

/-! ## Suppression stays -/

def Suppressed (id : String) (generation : Nat) (db : Db) : Prop :=
  (∃ row, db.instances.get? id = some row ∧ row.metadata.generation = generation ∧
    row.metadata.restartSuppressed = true) ∧
  ∃ r, db.instanceResources.get? id = some r ∧ r.restartSuppressed = true

def Enveloped (db : Db) : Prop :=
  ∀ id row, db.instances.get? id = some row → (db.instanceResources.get? id).isSome = true

theorem Command.run_enveloped (E : Env) (d : Draw) (c : Command) {db : Db} (hc : Coherent db)
    (h : Enveloped db) : Enveloped (c.run E d db) := by
  intro id row hrow
  by_cases hserve : ∃ inst, c = .beginServe inst
  · obtain ⟨inst, rfl⟩ := hserve
    rcases beginServe_commit E inst hc with hsame | ⟨i, hs⟩
    · have hsame : Command.run E d db (.beginServe inst) = db := hsame
      rw [hsame] at hrow ⊢
      exact h id row hrow
    · have hrow' := (hs.instances id).symm.trans hrow
      show (((Database.beginServe E inst).commit db).2.instanceResources.get? id).isSome = true
      rw [hs.resources]
      by_cases e : id = i.id
      · rw [if_pos e]; rfl
      · rw [if_neg e] at hrow' ⊢
        exact h id row hrow'
  · have hserve : ∀ inst, c ≠ .beginServe inst := fun inst e => hserve ⟨inst, e⟩
    obtain ⟨row0, hrow0, _⟩ := (c.run_calm E d hserve db).doc hc hrow
    have hbytes := c.run_sameBytes E d hserve db id
    rw [← Option.isSome_map (f := ResourceRow.coldStartPeakBytes), hbytes, Option.isSome_map]
    exact h id row0 hrow0

theorem enveloped_actorLoop (E : Env) (cmds : List (Draw × Command)) : Enveloped (actorLoop E {} cmds) :=
  (actorLoop_keeps (R := Preserves fun db => Coherent db ∧ Enveloped db)
    (fun d c _ h => ⟨c.run_coherent E d h.1, c.run_enveloped E d h.1 h.2⟩) cmds {}
    ⟨coherent_empty, fun _ _ h => nomatch h⟩).2

namespace Suppressed

variable {db db' : Db} {id : String} {generation : Nat}

theorem congr (h : Suppressed id generation db) (hi : db'.instances = db.instances)
    (hr : db'.instanceResources = db.instanceResources) : Suppressed id generation db' := by
  unfold Suppressed
  rw [hi, hr]
  exact h

theorem put (hc : Coherent db) (h : Suppressed id generation db)
    (hr : db.lookup reference = some r) {i : InstanceDocument}
    (hput : db'.instances = (db.put i).instances) (hi : r.2.metadata.SameIdentity i)
    (hflag : r.1 = id → i.restartSuppressed = true)
    (hres : db'.instanceResources = db.instanceResources ∨ ∃ b cause,
      db'.instanceResources = (suppress db reference b cause).instanceResources ∧
        (reference = id → b = true)) : Suppressed id generation db' := by
  obtain ⟨⟨row, hrow, hg, hs⟩, q, hq, hqs⟩ := h
  have hfound := (Db.lookup_some hr).1
  have hid : i.id = r.1 := hi.id.trans (hc.rows _ _ hfound).id_eq
  refine ⟨?_, ?_⟩
  · rw [hput, Db.get?_put (hid ▸ hfound)]
    by_cases e : id = i.id
    · rw [if_pos e]
      have hrid : r.1 = id := (e.trans hid).symm
      rw [hrid, hrow] at hfound
      cases hfound
      exact ⟨_, rfl, hi.generation.trans hg, hflag hrid⟩
    · rw [if_neg e]; exact ⟨row, hrow, hg, hs⟩
  · rcases hres with hres | ⟨b, cause, hres, hb⟩
    · rw [hres]; exact ⟨q, hq, hqs⟩
    · rw [hres]
      show ∃ r, (db.instanceResources.modify reference _).get? id = some r ∧ _
      rw [Table.get?_modify]
      by_cases e : id = reference
      · rw [if_pos e, ← e, hq]
        exact ⟨_, rfl, hb e.symm⟩
      · rw [if_neg e]; exact ⟨q, hq, hqs⟩

end Suppressed

/-- No healthy observation of the generation, and no later generation. -/
def undisturbed (E : Env) (id : String) (generation : Nat) (d : Draw) (db : Db) : Command → Bool
  | .setInstanceObserved reference g .healthy _ _ _ =>
    match db.lookup reference with
    | some r => r.1 ≠ id || g ≠ generation
    | none => true
  | .beginServe inst => ((Command.run E d db (.beginServe inst)).instances.get? id).all
      fun row => row.metadata.generation = generation
  | _ => true

/-- A restart failure of the generation is recorded only when its budget is
spent with it. -/
def budgetSpent (id : String) (generation : Nat) (db : Db) : Command → Bool
  | .recordRestartFailure reference g second =>
    !(reference = id && g = generation) || restartFailureLimit ≤ failuresAt db id generation second
  | _ => true

theorem Command.run_elsewhere_fleet (E : Env) (d : Draw) (h : c.elsewhere = true) (db : Db) :
    db.Agree (c.run E d db) .fleet :=
  c.run_elsewhere (R := Touches [.log, .access, .catalog])
    (fun _ _ _ _ _ => (acceptOperation_touches d _ _ _ _ _).mono fun _ _ => Touches.mono (by simp))
    (fun _ _ _ _ _ => (transition_touches d _ _ _ _ _).mono fun _ _ => Touches.mono (by simp))
    (fun _ _ => Touches.mono (by simp))
    (fun _ _ => (promoteModel_touches _ _).mono fun _ _ => Touches.mono (by simp))
    (fun _ => (removeModel_touches _).mono fun _ _ => Touches.mono (by simp)) h db .fleet (by simp)

structure Marked (i j : InstanceDocument) : Prop where
  generation : j.generation = i.generation
  suppressed : i.restartSuppressed = true → j.restartSuppressed = true

instance : Std.Refl Marked := ⟨fun _ => ⟨rfl, fun h => h⟩⟩

def SameResources (db db' : Db) : Prop := db'.instanceResources = db.instanceResources

instance : Std.Refl SameResources := ⟨fun _ => rfl⟩

instance : IsTrans Db SameResources := ⟨fun _ _ _ h1 h2 => Eq.trans h2 h1⟩

namespace Database

theorem persistInstance_sameResources (i : InstanceDocument) : (persistInstance i).Keeps SameResources :=
  fun _ _ _ => persistInstance_resources

theorem beginStop_sameResources (reference : String) : (beginStop reference).Keeps SameResources :=
  .bind (.query _) fun _ => .bind (persistInstance_sameResources _) fun _ => .pure _

theorem markQuarantine_sameResources (id : String) (generation : Nat) (cause : String) :
    (markQuarantine id generation cause).Keeps SameResources :=
  .bind (.require _ _) fun _ => .bind (.bind (.query _) fun _ => .bind (.require _ _) fun _ => .pure _) fun _ =>
    .bind (persistInstance_sameResources _) fun _ => .pure _

theorem storeEvidence_sameResources (d : Draw) (e : QuarantineEvidence) : (storeEvidence d e).Keeps SameResources :=
  .bind (.require _ _) fun _ => .modify fun _ => rfl

theorem reconcileQuarantine_sameResources (d : Draw) (evidence : List QuarantineEvidence) :
    (reconcileQuarantine d evidence).Keeps SameResources :=
  .bind (.each (fun _ => .query _) _) fun _ => .bind (.modify fun _ => rfl) fun _ =>
    .bind (.each (storeEvidence_sameResources d) _) fun _ =>
    .bind (.query _) fun _ => .each (fun _ => .ite (persistInstance_sameResources _) (.pure _)) _

end Database

section
variable {E : Env} {d : Draw} {db : Db} {id : String} {generation : Nat} (hc : Coherent db)
  (h : Suppressed id generation db)
include hc h

theorem beginServe_suppressed {inst : InstanceDocument}
    (hu : undisturbed E id generation d db (.beginServe inst) = true) :
    Suppressed id generation (Command.run E d db (.beginServe inst)) := by
  rcases beginServe_commit E inst hc with hsame | ⟨i, hs⟩
  · have hsame : Command.run E d db (.beginServe inst) = db := hsame
    rw [hsame]; exact h
  · obtain ⟨⟨row, hrow, hg, hsup⟩, q, hq, hqs⟩ := h
    have hne : id ≠ i.id := by
      rintro rfl
      have hgen := (hs.prior row hrow).2
      have hnew : (Command.run E d db (.beginServe inst)).instances.get? i.id = some (servedRow i) :=
        (hs.instances i.id).trans (if_pos rfl)
      have hu : ((Command.run E d db (.beginServe inst)).instances.get? i.id).all
        (fun row => decide (row.metadata.generation = generation)) = true := hu
      rw [hnew] at hu
      have hsame : i.generation = generation := of_decide_eq_true hu
      omega
    exact ⟨⟨row, ((hs.instances id).trans (if_neg hne)).trans hrow, hg, hsup⟩, q,
      ((hs.resources id).trans (if_neg hne)).trans hq, hqs⟩

theorem setInstanceObserved_suppressed {observed : InstanceObservedState}
    {endpoint failure : Option String} {startup : Option Nat}
    (hu : undisturbed E id generation d db
      (.setInstanceObserved reference g observed endpoint failure startup) = true) :
    Suppressed id generation
      (Command.run E d db (.setInstanceObserved reference g observed endpoint failure startup)) := by
  show Suppressed id generation ((setInstanceObserved d reference g observed endpoint failure startup).commit db).2
  rcases (setInstanceObserved d reference g observed endpoint failure startup).commit_cases db with
    ⟨i, db', hrun, hcommit⟩ | ⟨e, _, hcommit⟩
  · rw [hcommit]
    obtain ⟨r, hr, hg, rfl, hput⟩ := setInstanceObserved_inv hrun
    have hres := setInstanceObserved_resources hrun
    by_cases ho : observed = .healthy
    · subst ho
      -- it is another instance: the reference of this one would have been found
      have hother : r.1 ≠ id := by
        rintro rfl
        obtain ⟨⟨row, hrow, hgen, _⟩, _⟩ := h
        cases (Db.lookup_some hr).1.symm.trans hrow
        simp [undisturbed, hr, ← hg, hgen] at hu
      have hreference : reference ≠ id := by
        rintro rfl
        obtain ⟨⟨row, hrow, _⟩, _⟩ := h
        cases hr.symm.trans (hc.lookup_of_id hrow)
        exact hother rfl
      exact h.put hc hr (hput hc) ⟨rfl, rfl, rfl, rfl⟩ (fun e => absurd e hother)
        (.inr ⟨false, none, hres, fun e => absurd e hreference⟩)
    · rw [if_neg ho] at hres
      refine h.put hc hr (hput hc) ⟨rfl, rfl, rfl, rfl⟩ (fun e => ?_) (.inl hres)
      obtain ⟨⟨row, hrow, _, hs⟩, _⟩ := h
      have hfound := (Db.lookup_some hr).1
      rw [e, hrow] at hfound
      cases hfound
      exact (if_neg ho).trans hs
  · rw [hcommit]; exact h

theorem recordRestartFailure_suppressed {second : Nat}
    (hb : budgetSpent id generation db (.recordRestartFailure reference g second) = true) :
    Suppressed id generation (Command.run E d db (.recordRestartFailure reference g second)) := by
  show Suppressed id generation ((recordRestartFailure reference g second).commit db).2
  rcases (recordRestartFailure reference g second).commit_cases db with
    ⟨i, db', hrun, hcommit⟩ | ⟨e, _, hcommit⟩
  · rw [hcommit]
    obtain ⟨r, hr, hg, hexists, rfl, hput, hres⟩ := recordRestartFailure_inv hrun
    -- failures are recorded under the id, so the reference is one
    obtain ⟨row0, hrow0⟩ := Option.isSome_iff_exists.mp hexists
    have hid : r = (reference, row0) := Option.some.inj (hr.symm.trans (hc.lookup_of_id hrow0))
    have hflag : reference = id → (restartFailureLimit ≤ failuresAt db reference g second) := by
      rintro rfl
      obtain ⟨⟨row, hrow, hgen, _⟩, _⟩ := h
      cases hrow0.symm.trans hrow
      have hgg : g = generation := hg.symm.trans ((congrArg (·.2.metadata.generation) hid).trans hgen)
      subst hgg
      simpa [budgetSpent] using hb
    exact h.put hc hr (hput hc) ⟨rfl, rfl, rfl, rfl⟩
      (fun e => decide_eq_true (hflag ((congrArg Prod.fst hid).symm.trans e)))
      (.inr ⟨_, _, hres, fun e => decide_eq_true (hflag e)⟩)
  · rw [hcommit]; exact h

theorem marked_step {db' : Db} (hstep : FleetStep Marked db db')
    (hres : db'.instanceResources = db.instanceResources) : Suppressed id generation db' := by
  obtain ⟨⟨row, hrow, hg, hs⟩, hcolumn⟩ := h
  obtain ⟨row', hrow', hm⟩ := hstep.kept hc hrow
  exact ⟨⟨row', hrow', hm.generation.trans hg, hm.suppressed hs⟩, by rw [hres]; exact hcolumn⟩

theorem importEmergency_suppresses (record : EmergencyRecord) :
    Suppressed id generation (Command.run E d db (.importEmergency record)) := by
  show Suppressed id generation (importEmergency E d record db).2
  rcases importEmergency_cases E d hc record with ⟨e, hrun⟩ | ⟨hrun, _⟩ | ⟨r, _, _, hrun⟩ | ⟨hv, hnew, r, hr, hg⟩
  · rw [hrun]; exact h
  · rw [hrun]; exact h
  · rw [hrun]; exact h.congr rfl rfl
  · obtain ⟨db', hrun, ht, _⟩ := importEmergency_current (d := d) hc hv hnew hr hg
    obtain ⟨hi, hres, _⟩ := ht .fleet (by simp)
    rw [hrun]
    exact h.put hc hr (i := shed record.decision.cause r.2.metadata) hi ⟨rfl, rfl, rfl, rfl⟩
      (fun _ => rfl) (.inr ⟨true, _, hres, fun _ => rfl⟩)

theorem Command.run_suppressed (hu : undisturbed E id generation d db c = true)
    (hb : budgetSpent id generation db c = true) : Suppressed id generation (c.run E d db) := by
  cases hel : c.elsewhere with
  | true =>
    obtain ⟨hi, hr, _⟩ := c.run_elsewhere_fleet E d hel db
    exact h.congr hi hr
  | false =>
    cases c <;> try (cases hel; done)
    case beginServe => exact beginServe_suppressed hc h hu
    case setInstanceObserved => exact setInstanceObserved_suppressed hc h hu
    case recordRestartFailure => exact recordRestartFailure_suppressed hc h hb
    case importEmergency => exact importEmergency_suppresses hc h _
    case beginStop reference =>
      exact marked_step hc h ((commit_step (beginStop_step reference) db).mono fun i j hs => by
        rcases hs with rfl | rfl <;> exact ⟨rfl, fun h => h⟩)
        (Batch.Keeps.commit (beginStop_sameResources reference) db)
    case markQuarantine reference g cause =>
      exact marked_step hc h (commit_step (markQuarantine_fleet reference g fun _ => ⟨rfl, fun h => h⟩) db)
        (Batch.Keeps.commit (markQuarantine_sameResources reference g cause) db)
    case reconcileQuarantine evidence =>
      exact marked_step hc h (commit_step (reconcileQuarantine_fleet (fun _ => ⟨rfl, fun h => h⟩) evidence) db)
        (Batch.Keeps.commit (reconcileQuarantine_sameResources d evidence) db)

end

theorem importEmergency_sets {E : Env} {d : Draw} {db : Db} {record : EmergencyRecord}
    (hc : Coherent db) (he : Enveloped db)
    (hrow : db.instances.get? record.decision.instanceId = some row)
    (hgen : row.metadata.generation = record.decision.generation)
    (hok : (importEmergency E d record db).1 = .ok true) :
    Suppressed record.decision.instanceId record.decision.generation (importEmergency E d record db).2 := by
  have hlookup := hc.lookup_of_id hrow
  rcases importEmergency_cases E d hc record with ⟨e, hrun⟩ | ⟨hrun, _⟩ | ⟨r, hr, hg, hrun⟩ | ⟨hv, hnew, r, hr, hg⟩
  · rw [hrun] at hok; cases hok
  · rw [hrun] at hok; cases hok
  · cases hlookup.symm.trans hr
    exact absurd hgen hg
  · cases hlookup.symm.trans hr
    obtain ⟨db', hrun, ht, _⟩ := importEmergency_current (d := d) hc hv hnew hr hg
    obtain ⟨hi, hres, _⟩ := ht .fleet (by simp)
    obtain ⟨q, hq⟩ := Option.isSome_iff_exists.mp (he _ _ hrow)
    have hid : row.metadata.id = record.decision.instanceId := (hc.rows _ _ hrow).id_eq
    rw [hrun]
    refine ⟨⟨row.put (shed record.decision.cause row.metadata), ?_, hgen, rfl⟩,
      { q with restartSuppressed := true, suppressionCause := some record.decision.cause }, ?_, rfl⟩
    · show db'.instances.get? _ = _
      rw [hi]
      refine (Db.get?_put (i := shed record.decision.cause row.metadata)
        (hid.symm ▸ hrow) record.decision.instanceId).trans (if_pos hid.symm)
    · show db'.instanceResources.get? _ = _
      rw [hres]
      show (db.instanceResources.modify record.decision.instanceId _).get? record.decision.instanceId = _
      rw [Table.get?_modify_self, hq]
      rfl

theorem emergency_sticky (E : Env) (before after : List (Draw × Command)) (d : Draw) (record : EmergencyRecord)
    {row : InstanceRow}
    (hrow : (actorLoop E {} before).instances.get? record.decision.instanceId = some row)
    (hgen : row.metadata.generation = record.decision.generation)
    (hok : (importEmergency E d record (actorLoop E {} before)).1 = .ok true)
    (hafter : eachStep E (fun d db c =>
        undisturbed E record.decision.instanceId record.decision.generation d db c &&
          budgetSpent record.decision.instanceId record.decision.generation db c)
      (Command.run E d (actorLoop E {} before) (.importEmergency record)) after = true) :
    Suppressed record.decision.instanceId record.decision.generation
      (actorLoop E {} (before ++ (d, .importEmergency record) :: after)) := by
  have hc := coherent_actorLoop E before
  rw [actorLoop_append]
  refine (actorLoop_inv (I := fun db => Coherent db ∧
    Suppressed record.decision.instanceId record.decision.generation db) (fun d c db hp hI => ?_) after _ hafter
    ⟨Command.run_coherent E d (.importEmergency record) hc,
      importEmergency_sets hc (enveloped_actorLoop E before) hrow hgen hok⟩).2
  rw [Bool.and_eq_true] at hp
  exact ⟨c.run_coherent E d hI.1, c.run_suppressed hI.1 hI.2 hp.1 hp.2⟩

def exampleEmergency : EmergencyRecord :=
  ⟨"sparkplane.emergency-record/v1", "01JAAAAAAAAAAAAAAAAAAAAAAA", ⟨exampleInstance.id, 1, "memory"⟩⟩

def imported : Draw × Command := ({}, .importEmergency exampleEmergency)

def restartFailedAt (second : Nat) : Draw × Command := ({}, .recordRestartFailure exampleInstance.id 1 second)

def Db.flags (db : Db) (id : String) : Option (Nat × Bool × Bool) :=
  match db.instances.get? id, db.instanceResources.get? id with
  | some row, some r => some (row.metadata.generation, row.metadata.restartSuppressed, r.restartSuppressed)
  | _, _ => none

def fourFailures : List (Draw × Command) := served ++ [1, 2, 3, 4].map restartFailedAt

theorem emergency_sticky_spent : Suppressed exampleInstance.id 1
    (actorLoop exampleEnv {} (fourFailures ++ imported :: [restartFailedAt 5, stopped])) := by
  have h : ((actorLoop exampleEnv {} fourFailures).instances.get? exampleInstance.id).any
        (·.metadata.generation = 1) = true ∧
      (importEmergency exampleEnv {} exampleEmergency (actorLoop exampleEnv {} fourFailures)).1 = .ok true ∧
      eachStep exampleEnv (fun d db c => undisturbed exampleEnv exampleInstance.id 1 d db c &&
          budgetSpent exampleInstance.id 1 db c)
        (Command.run exampleEnv {} (actorLoop exampleEnv {} fourFailures) (.importEmergency exampleEmergency))
        [restartFailedAt 5, stopped] = true := by
    decide +kernel
  obtain ⟨row, hrow, hgen⟩ := (Option.any_eq_true _ _).mp h.1
  exact emergency_sticky exampleEnv _ _ {} exampleEmergency hrow (of_decide_eq_true hgen) h.2.1 h.2.2

/-- A reconcile pass that started before the emergency reports the restart that
failed: nothing is suppressed any more. -/
theorem restart_failure_lifts_suppression : (actorLoop exampleEnv {} (served ++ [imported])).flags exampleInstance.id =
      some (1, true, true) ∧
    eachStep exampleEnv (undisturbed exampleEnv exampleInstance.id 1)
      (actorLoop exampleEnv {} (served ++ [imported])) [restartFailedAt 1] = true ∧
    (actorLoop exampleEnv {} (served ++ [imported, restartFailedAt 1])).flags
      exampleInstance.id = some (1, false, false) := by
  decide +kernel

/-! ## Closing what it killed -/

/-- An operation on the instance, as `serve_instance` and `stop_instance` write
the target. -/
def Brief.concerns (i : InstanceDocument) (b : Brief) : Bool :=
  (b.kind = "instance.serve" && b.target = some i.name) || (b.kind = "instance.stop" && b.target = some i.id)

theorem closeIf_concerns (p : Brief → Bool) (i : InstanceDocument) (b : Brief) :
    (b.closeIf p).concerns i = b.concerns i := by
  unfold closeIf close
  split
  · split <;> rfl
  · rfl

theorem closeIf_terminal (p : Brief → Bool) (b : Brief) :
    (b.closeIf p).state.isTerminal = (b.state.isTerminal || p b) := by
  unfold closeIf close
  cases hp : p b with
  | false => simp
  | true =>
    cases ht : b.state.isTerminal with
    | true => simp [ht]
    | false => rfl

theorem emergency_closes (E : Env) (cmds : List (Draw × Command)) (d : Draw) (record : EmergencyRecord)
    {r : String × InstanceRow}
    (hr : (actorLoop E {} cmds).lookup record.decision.instanceId = some r)
    (hgen : r.2.metadata.generation = record.decision.generation)
    (hok : (importEmergency E d record (actorLoop E {} cmds)).1 = .ok true) :
    (∀ k b, (importEmergency E d record (actorLoop E {} cmds)).2.brief k = some b →
      b.concerns r.2.metadata = true → b.state.isTerminal = true) ↔
    ∀ k b, (actorLoop E {} cmds).brief k = some b → b.concerns r.2.metadata = true →
      b.state.isTerminal = false → b.target = some record.decision.instanceId := by
  have hc := coherent_actorLoop E cmds
  have hbrief : ∀ k, (importEmergency E d record (actorLoop E {} cmds)).2.brief k =
      ((actorLoop E {} cmds).brief k).map (closeIf (on record.decision.instanceId)) := by
    rcases importEmergency_cases E d hc record with ⟨e, hrun⟩ | ⟨hrun, _⟩ | ⟨r', hr', hg', _⟩ | ⟨hv, hnew, _⟩
    · rw [hrun] at hok; cases hok
    · rw [hrun] at hok; cases hok
    · cases hr.symm.trans hr'
      exact absurd hgen hg'
    · obtain ⟨db', hrun, _, hb⟩ := importEmergency_current (d := d) hc hv hnew hr hgen
      rw [hrun]
      exact hb
  constructor
  · intro h k b hb hconcerns hs
    have hafter := h k _ ((hbrief k).trans (congrArg _ hb)) ((closeIf_concerns _ _ _).trans hconcerns)
    rw [closeIf_terminal, hs, Bool.false_or] at hafter
    exact of_decide_eq_true hafter
  · intro h k b' hb' hconcerns
    obtain ⟨b, hb, rfl⟩ := Option.map_eq_some_iff.mp ((hbrief k).symm.trans hb')
    rw [closeIf_concerns] at hconcerns
    rw [closeIf_terminal]
    cases hs : b.state.isTerminal with
    | true => rfl
    | false => exact decide_eq_true (h k b hb hconcerns hs)

theorem brief_of_rows {db : Db} {p : Brief → Bool} (h : db.operations.rows.all (fun r => p r.2.brief) = true)
    {k : String} {b : Brief} (hb : db.brief k = some b) : p b = true := by
  obtain ⟨row, hrow, rfl⟩ := Option.map_eq_some_iff.mp hb
  exact List.all_eq_true.mp h (k, row) (Table.get?_eq_some.mp hrow)

def stopAccepted : List (Draw × Command) :=
  served ++ [({ operationId := "op1" },
    .accept "bootstrap-admin" "instance.stop" "k1" (exampleEnv.sha256 "m") (some exampleInstance.id))]

theorem emergency_closes_stop : ∃ b,
    (importEmergency exampleEnv {} exampleEmergency (actorLoop exampleEnv {} stopAccepted)).2.brief
      "op1" = some b ∧ b.kind = "instance.stop" ∧ b.state.isTerminal = true := by
  have h : ((actorLoop exampleEnv {} stopAccepted).lookup exampleInstance.id).any
        (fun r => r.2.metadata.generation = 1 && r.2.metadata.id = exampleInstance.id) = true ∧
      (importEmergency exampleEnv {} exampleEmergency (actorLoop exampleEnv {} stopAccepted)).1 = .ok true ∧
      (actorLoop exampleEnv {} stopAccepted).operations.rows.all (fun r => on exampleInstance.id r.2.brief) = true ∧
      ((importEmergency exampleEnv {} exampleEmergency (actorLoop exampleEnv {} stopAccepted)).2.brief
        "op1").any (fun b => b.kind = "instance.stop" && on exampleInstance.id b) = true := by
    decide +kernel
  obtain ⟨r, hr, hrow⟩ := (Option.any_eq_true _ _).mp h.1
  obtain ⟨b, hb, hkind⟩ := (Option.any_eq_true _ _).mp h.2.2.2
  simp only [Bool.and_eq_true, decide_eq_true_eq] at hrow hkind
  refine ⟨b, hb, hkind.1, (emergency_closes exampleEnv stopAccepted {} exampleEmergency hr hrow.1 h.2.1).mpr
    (fun k b hb _ _ => of_decide_eq_true (brief_of_rows h.2.2.1 hb)) "op1" b hb ?_⟩
  have htarget : b.target = some exampleInstance.id := of_decide_eq_true hkind.2
  simp [concerns, hkind.1, htarget, hrow.2]

/-- The serve request of the handler is under way, and its operation survives
the import. -/
theorem emergency_leaves_serve : ∃ c, (agent exampleSite).Runs .free
      (starting exampleSite { db := actorLoop exampleSite.env {} modelExists }
        [.serveInstance ⟨"bootstrap-admin", some "k1"⟩ (exampleServe "m")]) c ∧
    (importEmergency exampleSite.env {} exampleEmergency c.world.db).1 = .ok true ∧
    (c.world.db.lookup exampleInstance.id).any (·.2.metadata.generation = 1) = true ∧
    (importEmergency exampleSite.env {} exampleEmergency c.world.db).2.brief "op1" =
      some ⟨"instance.serve", some "m", .running⟩ :=
  Machine.exists_of_run (List.replicate 11 (serveTurn 0 "op1") ++ List.replicate 7 (serveTurn 1 "")) (by decide +kernel)

end Sparkplane

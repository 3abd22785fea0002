import Sparkplane.EmergencySound

/-!
# The columns of an instance follow its document

Seven commands write an instance, each its own columns in its own statements. When the commands
that carry a generation address instances by id, the columns and the document stay equal, a name
keeps its id, and only a new generation changes the generation.
-/

namespace Sparkplane

open Database

/-! ## Documents by name -/

/-- `SELECT metadata_json FROM instances WHERE name=?`. -/
def Db.document (db : Db) (name : String) : Option InstanceDocument :=
  (db.instances.rows.find? fun r => r.2.name = name).map (·.2.metadata)

def Db.generationOf (db : Db) (name : String) : Nat := ((db.document name).map (·.generation)).getD 0

def Command.serves (E : Env) (db : Db) (name : String) : Command → Bool
  | .beginServe inst => inst.name = name &&
    match ((Database.beginServe E inst).commit db).1 with
    | .ok a => !a.reused
    | .error _ => false
  | _ => false

def Command.carries : Command → Option (String × Nat)
  | .setInstanceObserved id generation .. | .recordRestartFailure id generation _
  | .markQuarantine id generation _ => some (id, generation)
  | .importEmergency record => some (record.decision.instanceId, record.decision.generation)
  | _ => none

/-- A command with a generation names its instance by id, and a served document is not suppressed,
as `serve_instance` builds it. -/
def Command.addressed (db : Db) (c : Command) : Bool :=
  (match c with
    | .beginServe inst => !inst.restartSuppressed
    | _ => true) &&
  c.carries.all fun r => db.instances.rows.all fun row => row.2.name ≠ r.1

section
variable {db : Db} (hc : Coherent db)
include hc

theorem Coherent.document_of_get {id : String} {row : InstanceRow} (h : db.instances.get? id = some row) :
    db.document row.name = some row.metadata := by
  unfold Db.document
  cases hf : db.instances.rows.find? fun r => r.2.name = row.name with
  | none =>
    have := List.find?_eq_none.mp hf (id, row) (Table.get?_eq_some.mp h)
    exact (this (decide_eq_true rfl)).elim
  | some r =>
    have hr := Table.get?_eq_some.mpr (List.mem_of_find?_eq_some hf)
    have hn : r.2.name = row.name := by simpa using List.find?_some hf
    have hid : r.1 = id := hc.names _ _ _ _ hr h hn
    rw [hid, h] at hr
    rw [Option.map_some, Option.some.inj hr]

omit hc in
theorem Db.get_of_document {name : String} {i : InstanceDocument} (h : db.document name = some i) :
    ∃ id row, db.instances.get? id = some row ∧ row.name = name ∧ row.metadata = i := by
  obtain ⟨r, hf, rfl⟩ := Option.map_eq_some_iff.mp h
  exact ⟨r.1, r.2, Table.get?_eq_some.mpr (List.mem_of_find?_eq_some hf),
    by simpa using List.find?_some hf, rfl⟩

omit hc in
theorem Db.document_none {name : String} (h : ∀ id row, db.instances.get? id = some row → row.name ≠ name) :
    db.document name = none := by
  cases hd : db.document name with
  | none => rfl
  | some i =>
    obtain ⟨id, row, hrow, hname, _⟩ := Db.get_of_document hd
    exact absurd hname (h id row hrow)

theorem FleetStep.document {P : InstanceDocument → InstanceDocument → Prop} {db' : Db}
    (hP : ∀ i j, P i j → i.SameIdentity j) (h : FleetStep P db db') (name : String) :
    (db'.document name).map (fun i => (i.id, i.generation)) = (db.document name).map fun i => (i.id, i.generation) := by
  have hc' := (h hc).1
  cases hd : db.document name with
  | some i =>
    obtain ⟨id, row, hrow, rfl, rfl⟩ := Db.get_of_document hd
    obtain ⟨row', hrow', hp⟩ := h.kept hc hrow
    have hsame := hP _ _ hp
    have hname : row'.name = row.name := by
      rw [← (hc'.rows _ _ hrow').name_eq, ← (hc.rows _ _ hrow).name_eq, hsame.name]
    rw [← hname, hc'.document_of_get hrow', Option.map_some, Option.map_some, hsame.id, hsame.generation]
  | none =>
    rw [Db.document_none fun id row' hrow' hname => ?_]
    obtain ⟨row, hrow, hp⟩ := h.doc hc hrow'
    have hname' : row.name = name := by
      rw [← hname, ← (hc'.rows _ _ hrow').name_eq, ← (hc.rows _ _ hrow).name_eq, (hP _ _ hp).name]
    have := hc.document_of_get hrow
    rw [hname', hd] at this
    cases this

end

/-! ## What `begin_serve` stores -/

variable {E : Env} {db : Db} {d : Draw} {generation : Nat} {id : String}

theorem Database.beginServe_stored {db' : Db} {requested : InstanceDocument} {a : AcceptedInstance}
    (h : Database.beginServe E requested db = .ok (a, db')) (hnew : a.reused = false) :
    a.inst.restartSuppressed = requested.restartSuppressed ∧
      a.inst.generation = db.generationOf requested.name + 1 := by
  unfold Database.beginServe at h
  obtain ⟨_, _, h1⟩ := Tx.query_bind h
  obtain ⟨prior, hprior, h2⟩ := Tx.query_bind h1
  have hfind := Except.ok.inj hprior
  unfold Db.generationOf Db.document
  rw [hfind]
  cases prior with
  | some r =>
    dsimp only at h2
    split at h2
    · obtain ⟨_, h3⟩ := Tx.require_bind h2
      cases h3
      cases hnew
    · obtain ⟨_, h3⟩ := Tx.require_bind h2
      obtain ⟨rfl, _⟩ := storeServe_inv h3
      exact ⟨rfl, rfl⟩
  | none =>
    obtain ⟨rfl, _⟩ := storeServe_inv h2
    exact ⟨rfl, rfl⟩

theorem Command.run_served_or (hc : Coherent db) (c : Command) :
    (∃ inst i, c = .beginServe inst ∧ Served inst i db (c.run E d db) ∧
      c.serves E db inst.name = true ∧ i.restartSuppressed = inst.restartSuppressed ∧
      i.generation = db.generationOf inst.name + 1) ∨
    ((∀ name, c.serves E db name = false) ∧ (c.run E d db = db ∨ ∀ inst, c ≠ .beginServe inst)) := by
  by_cases hserve : ∃ inst, c = .beginServe inst
  · obtain ⟨inst, rfl⟩ := hserve
    rcases (Database.beginServe E inst).commit_cases db with ⟨a, db', hrun, hcommit⟩ | ⟨e, _, hcommit⟩
    · have hdb : Command.run E d db (.beginServe inst) = db' := congrArg Prod.snd hcommit
      rcases beginServe_inv hc hrun with ⟨hr, hdb', _⟩ | ⟨i, rfl, hs⟩
      · refine .inr ⟨fun name => ?_, .inl (hdb.trans hdb')⟩
        simp only [Command.serves, hcommit, hr, Bool.not_true, Bool.and_false]
      · obtain ⟨hflag, hgen⟩ := beginServe_stored hrun rfl
        refine .inl ⟨inst, i, rfl, hdb ▸ hs, ?_, hflag, hgen⟩
        simp only [Command.serves, hcommit, decide_true, Bool.not_false, Bool.and_true]
    · refine .inr ⟨fun name => ?_, .inl (congrArg Prod.snd hcommit)⟩
      simp only [Command.serves, hcommit, Bool.and_false]
  · refine .inr ⟨fun name => ?_, .inr fun inst e => hserve ⟨inst, e⟩⟩
    cases c <;> try rfl
    exact absurd ⟨_, rfl⟩ hserve

section
variable {E : Env} {d : Draw} {db : Db} (hc : Coherent db) (c : Command)
include hc

theorem Command.run_generationOf (name : String) : (c.run E d db).generationOf name =
    db.generationOf name + if c.serves E db name = true then 1 else 0 := by
  rcases c.run_served_or (E := E) (d := d) hc with ⟨inst, i, rfl, hs, hserves, _, hgen⟩ | ⟨hserves, hrun⟩
  · by_cases hname : inst.name = name
    · subst hname
      have hdoc := (hs.coherent hc).document_of_get ((hs.instances i.id).trans (if_pos rfl))
      have hdoc : (Command.run E d db (.beginServe inst)).document inst.name = some (servingIntent i) :=
        hs.name ▸ hdoc
      rw [if_pos hserves, ← hgen, Db.generationOf, hdoc]
      rfl
    · have hkeep : (Command.run E d db (.beginServe inst)).document name = db.document name := by
        cases hd : db.document name with
        | some j =>
          obtain ⟨id, row, hrow, rfl, rfl⟩ := Db.get_of_document hd
          have hne : id ≠ i.id := by
            rintro rfl
            exact hname (hs.name.symm.trans (hs.prior row hrow).1.symm)
          exact (hs.coherent hc).document_of_get (((hs.instances id).trans (if_neg hne)).trans hrow)
        | none =>
          refine Db.document_none fun id row hrow hrow' => ?_
          rw [hs.instances] at hrow
          by_cases e : id = i.id
          · rw [if_pos e] at hrow
            cases hrow
            exact hname (hs.name.symm.trans hrow')
          · rw [if_neg e] at hrow
            have := hc.document_of_get hrow
            rw [hrow', hd] at this
            cases this
      have hno : Command.serves E db name (.beginServe inst) = false := by
        simp only [Command.serves, hname, decide_false, Bool.false_and]
      rw [if_neg (by rw [hno]; nofun), Db.generationOf, hkeep]
      rfl
  · rw [if_neg (by rw [hserves]; nofun)]
    rcases hrun with hrun | hserve
    · rw [hrun]; rfl
    · have hdoc := (c.run_calm E d hserve db).document hc (fun _ _ h => h.toSameIdentity) name
      have hgen := congrArg (fun o => (o.map Prod.snd).getD 0) hdoc
      simpa [Db.generationOf, Option.map_map, Function.comp_def] using hgen

theorem Command.run_document_id {name id : String} (h : (db.document name).map (·.id) = some id) :
    ((c.run E d db).document name).map (·.id) = some id := by
  rcases c.run_served_or (E := E) (d := d) hc with ⟨inst, i, rfl, hs, _⟩ | ⟨_, hrun | hserve⟩
  · obtain ⟨j, hj, rfl⟩ := Option.map_eq_some_iff.mp h
    obtain ⟨id, row, hrow, rfl, rfl⟩ := Db.get_of_document hj
    have hid := (hc.rows _ _ hrow).id_eq
    by_cases e : id = i.id
    · have hnew := (hs.instances i.id).trans (if_pos rfl)
      have hname : row.name = i.name := (hs.prior row (e ▸ hrow)).1
      rw [hname, show i.name = (servedRow i).name from rfl, (hs.coherent hc).document_of_get hnew, hid, e]
      rfl
    · rw [(hs.coherent hc).document_of_get (((hs.instances id).trans (if_neg e)).trans hrow), Option.map_some]
  · rw [hrun]; exact h
  · have hdoc := (c.run_calm E d hserve db).document hc (fun _ _ h => h.toSameIdentity) name
    have hids := congrArg (fun o => o.map Prod.fst) hdoc
    simp only [Option.map_map, Function.comp_def] at hids
    exact hids.trans h

end

/-! ## The column of the resource table -/

def Mirrored (db : Db) : Prop :=
  ∀ id row r, db.instances.get? id = some row → db.instanceResources.get? id = some r →
    r.restartSuppressed = row.metadata.restartSuppressed

def SameFlag (i j : InstanceDocument) : Prop := j.restartSuppressed = i.restartSuppressed

instance : Std.Refl SameFlag := ⟨fun _ => rfl⟩

theorem Command.addressed_lookup {c : Command} (h : c.addressed db = true)
    (hcarries : c.carries = some (id, generation)) {r : String × InstanceRow} (hr : db.lookup id = some r) :
    r.1 = id := by
  obtain ⟨hrow, hid | hname⟩ := Db.lookup_some hr
  · exact hid
  · have hall := (Bool.and_eq_true _ _ |>.mp h).2
    rw [hcarries, Option.all_some] at hall
    have hne := List.all_eq_true.mp hall r (Table.get?_eq_some.mp hrow)
    exact absurd hname (of_decide_eq_true hne)

section
variable {E : Env} {d : Draw} {db db' : Db} (hc : Coherent db) (h : Mirrored db)
include hc h

theorem FleetStep.mirrored (hstep : FleetStep SameFlag db db')
    (hres : db'.instanceResources = db.instanceResources) : Mirrored db' := by
  intro id row' r hrow' hr
  obtain ⟨row, hrow, hflag⟩ := hstep.doc hc hrow'
  rw [hres] at hr
  exact (h id row r hrow hr).trans hflag.symm

theorem Mirrored.put {r : String × InstanceRow} {id : String} (hr : db.lookup id = some r) (hid : r.1 = id)
    {i : InstanceDocument} (hput : db'.instances = (db.put i).instances) (hi : r.2.metadata.SameIdentity i)
    {cause : Option String}
    (hres : db'.instanceResources = (suppress db id i.restartSuppressed cause).instanceResources) :
    Mirrored db' := by
  have hfound := (Db.lookup_some hr).1
  have hiid : i.id = r.1 := hi.id.trans (hc.rows _ _ hfound).id_eq
  intro k row q hrow hq
  rw [hput, Db.get?_put (hiid ▸ hfound)] at hrow
  rw [hres] at hq
  have hq : (db.instanceResources.modify id _).get? k = some q := hq
  rw [Table.get?_modify] at hq
  by_cases e : k = id
  · rw [if_pos (e.trans (hid.symm.trans hiid.symm))] at hrow
    rw [if_pos e] at hq
    obtain ⟨q0, _, rfl⟩ := Option.map_eq_some_iff.mp hq
    cases hrow
    rfl
  · rw [if_neg fun hk => e (hk.trans (hiid.trans hid))] at hrow
    rw [if_neg e] at hq
    exact h k row q hrow hq

theorem setInstanceObserved_mirrored {id : String} {generation : Nat} {observed : InstanceObservedState}
    {endpoint failure : Option String} {startup : Option Nat} {i : InstanceDocument}
    (hid : ∀ r, db.lookup id = some r → r.1 = id)
    (hrun : setInstanceObserved d id generation observed endpoint failure startup db = .ok (i, db')) :
    Mirrored db' := by
  obtain ⟨r, hr, _, rfl, hput⟩ := setInstanceObserved_inv hrun
  have hres := setInstanceObserved_resources hrun
  by_cases ho : observed = .healthy
  · subst ho
    exact h.put hc hr (hid r hr) (hput hc) ⟨rfl, rfl, rfl, rfl⟩ hres
  · rw [if_neg ho] at hres
    exact FleetStep.mirrored hc h
      (FleetStep.of_put (Db.lookup_some hr).1 (hput hc) ⟨rfl, rfl, rfl, rfl⟩ (if_neg ho)) hres

theorem importEmergency_mirrored {record : EmergencyRecord}
    (hid : ∀ r, db.lookup record.decision.instanceId = some r → r.1 = record.decision.instanceId) :
    Mirrored (Command.run E d db (.importEmergency record)) := by
  show Mirrored (importEmergency E d record db).2
  rcases importEmergency_cases E d hc record with ⟨e, hrun⟩ | ⟨hrun, _⟩ | ⟨r, _, _, hrun⟩ | ⟨hv, hnew, r, hr, hg⟩
  · rw [hrun]; exact h
  · rw [hrun]; exact h
  · rw [hrun]; exact h
  · obtain ⟨db', hrun, ht, _⟩ := importEmergency_current (d := d) hc hv hnew hr hg
    obtain ⟨hi, hres, _⟩ := ht .fleet (by simp)
    rw [hrun]
    exact h.put hc hr (hid r hr) (i := shed record.decision.cause r.2.metadata) hi ⟨rfl, rfl, rfl, rfl⟩ hres

theorem Command.run_mirrored {c : Command} (ha : c.addressed db = true) : Mirrored (c.run E d db) := by
  cases hel : c.elsewhere with
  | true =>
    obtain ⟨hi, hr, _⟩ := c.run_elsewhere_fleet E d hel db
    exact FleetStep.mirrored hc h (FleetStep.of_instances_eq hi) hr
  | false =>
    cases c <;> try (cases hel; done)
    case beginServe inst =>
      rcases Command.run_served_or (E := E) (d := d) hc (.beginServe inst) with
        ⟨_, i, hinst, hs, _, hflag, _⟩ | ⟨_, hrun | hserve⟩
      · cases hinst
        intro id row r hrow hr
        rw [hs.instances] at hrow
        rw [hs.resources] at hr
        by_cases e : id = i.id
        · rw [if_pos e] at hrow hr
          cases hrow
          cases hr
          have hclear : inst.restartSuppressed = false := by simpa [Command.addressed, Command.carries] using ha
          exact (hflag.trans hclear).symm
        · rw [if_neg e] at hrow hr
          exact h id row r hrow hr
      · rw [hrun]; exact h
      · exact absurd rfl (hserve inst)
    case setInstanceObserved id generation observed endpoint failure startup =>
      show Mirrored ((Database.setInstanceObserved d id generation observed endpoint failure startup).commit db).2
      rcases (Database.setInstanceObserved d id generation observed endpoint failure startup).commit_cases db with
        ⟨i, db', hrun, hcommit⟩ | ⟨e, _, hcommit⟩ <;> rw [hcommit]
      · exact setInstanceObserved_mirrored hc h (fun r hr => Command.addressed_lookup ha rfl hr) hrun
      · exact h
    case recordRestartFailure id generation second =>
      show Mirrored ((Database.recordRestartFailure id generation second).commit db).2
      rcases (Database.recordRestartFailure id generation second).commit_cases db with
        ⟨i, db', hrun, hcommit⟩ | ⟨e, _, hcommit⟩ <;> rw [hcommit]
      · obtain ⟨r, hr, _, _, rfl, hput, hres⟩ := recordRestartFailure_inv hrun
        exact h.put hc hr (Command.addressed_lookup ha rfl hr) (hput hc) ⟨rfl, rfl, rfl, rfl⟩ hres
      · exact h
    case importEmergency => exact importEmergency_mirrored hc h fun r hr => Command.addressed_lookup ha rfl hr
    case beginStop reference =>
      exact FleetStep.mirrored hc h (commit_step (beginStop_fleet (P := SameFlag) reference fun _ => rfl) db)
        (Batch.Keeps.commit (beginStop_sameResources reference) db)
    case markQuarantine id generation cause =>
      exact FleetStep.mirrored hc h (commit_step (markQuarantine_fleet (P := SameFlag) id generation fun _ => rfl) db)
        (Batch.Keeps.commit (markQuarantine_sameResources id generation cause) db)
    case reconcileQuarantine evidence =>
      exact FleetStep.mirrored hc h (commit_step (reconcileQuarantine_fleet (P := SameFlag) (fun _ => rfl) evidence) db)
        (Batch.Keeps.commit (reconcileQuarantine_sameResources d evidence) db)

end

/-! ## Commands for another generation -/

theorem Database.currentInstance_stale (h : ∀ r, db.lookup id = some r → r.2.metadata.generation ≠ generation) :
    ∃ e, currentInstance id generation db = .error e := by
  rw [currentInstance_run]
  split
  · rename_i r hr
    rw [if_neg (h r hr)]
    exact ⟨_, rfl⟩
  · exact ⟨_, rfl⟩

theorem Command.run_stale (hc : Coherent db) {c : Command} (hcarries : c.carries = some (id, generation))
    (hother : ∀ r, db.lookup id = some r → r.2.metadata.generation ≠ generation) :
    (c.run E d db).instances = db.instances ∧ (c.run E d db).instanceResources = db.instanceResources := by
  obtain ⟨e, hstale⟩ := currentInstance_stale hother
  -- the transactions that begin with the read fail with it
  have hfirst : ∀ {α : Type} {f : InstanceDocument → Sql α},
      ((currentInstance id generation >>= f).commit db).2 = db := by
    intro α f
    rw [Tx.commit_error (e := e) (by rw [Tx.bind_run, hstale])]
  cases c <;> try (cases hcarries; done)
  case setInstanceObserved observed endpoint failure startup =>
    cases hcarries
    have hrun : Command.run E d db (.setInstanceObserved id generation observed endpoint failure startup) = db :=
      hfirst
    rw [hrun]
    exact ⟨rfl, rfl⟩
  case recordRestartFailure second =>
    cases hcarries
    have hrun : Command.run E d db (.recordRestartFailure id generation second) = db := hfirst
    rw [hrun]
    exact ⟨rfl, rfl⟩
  case markQuarantine reference g cause =>
    cases hcarries
    show ((Database.markQuarantine id generation cause).commit db).2.instances = _ ∧
      ((Database.markQuarantine id generation cause).commit db).2.instanceResources = _
    rcases (Database.markQuarantine id generation cause).commit_cases db with
      ⟨i, db', hrun, _⟩ | ⟨e, _, hcommit⟩
    · obtain ⟨_, hrun⟩ := Tx.require_bind hrun
      obtain ⟨i, db1, hcurrent, _⟩ := Tx.bind_ok hrun
      cases hstale.symm.trans hcurrent
    · rw [hcommit]
      exact ⟨rfl, rfl⟩
  case importEmergency record =>
    cases hcarries
    show (Database.importEmergency E d record db).2.instances = _ ∧
      (Database.importEmergency E d record db).2.instanceResources = _
    rcases importEmergency_cases E d hc record with ⟨e, hrun⟩ | ⟨hrun, _⟩ | ⟨r, _, _, hrun⟩ | ⟨_, _, r, hr, hg⟩
    · rw [hrun]; exact ⟨rfl, rfl⟩
    · rw [hrun]; exact ⟨rfl, rfl⟩
    · rw [hrun]; exact ⟨rfl, rfl⟩
    · exact absurd hg (hother r hr)

theorem Command.run_evidence_stale (hc : Coherent db) {evidence : List QuarantineEvidence} {row : InstanceRow}
    (hrow : db.instances.get? id = some row)
    (hother : ∀ e ∈ evidence, e.instanceId = some id → e.generation ≠ some row.metadata.generation) :
    (Command.run E d db (.reconcileQuarantine evidence)).instances.get? id = some row ∨
    (Command.run E d db (.reconcileQuarantine evidence)).instances.get? id =
      (Command.run E d db (.reconcileQuarantine [])).instances.get? id := by
  have hnot : (row.metadata.id, row.metadata.generation) ∉ evidenced evidence := by
    rw [(hc.rows _ _ hrow).id_eq]
    intro hm
    obtain ⟨e, he, hpair⟩ := List.mem_filterMap.mp hm
    obtain ⟨i, hi, hpair⟩ := Option.bind_eq_some_iff.mp hpair
    obtain ⟨g, hg, hpair⟩ := Option.map_eq_some_iff.mp hpair
    cases hpair
    exact hother e he hi hg
  have hcleared : cleared (evidenced evidence) row = cleared [] row := by
    unfold cleared
    simp only [hnot, List.not_mem_nil, not_false_eq_true]
  have hafter : ∀ (evidence : List QuarantineEvidence) {db' : Db},
      Database.reconcileQuarantine d evidence db = .ok ((), db') →
      Command.run E d db (.reconcileQuarantine evidence) = db' := fun _ _ h =>
    congrArg Prod.snd (Tx.commit_ok h)
  rcases (Database.reconcileQuarantine d evidence).commit_cases db with ⟨_, db', hrun, _⟩ | ⟨_, _, hcommit⟩
  · rcases (Database.reconcileQuarantine d []).commit_cases db with ⟨_, db'', hnone, _⟩ | ⟨e, hnone, _⟩
    · refine .inr ?_
      rw [hafter _ hrun, hafter _ hnone, Database.reconcileQuarantine_inv hc hrun,
        Database.reconcileQuarantine_inv hc hnone, hrow, Option.map_some, Option.map_some, hcleared]
      rfl
    · -- without evidence nothing is checked, and every row is written
      obtain ⟨db'', hclear⟩ := reconcileQuarantine_nil hc d
      cases hnone.symm.trans hclear
  · have hsame : Command.run E d db (.reconcileQuarantine evidence) = db := congrArg Prod.snd hcommit
    rw [hsame]
    exact .inl hrow

/-! ## Every run -/

theorem mirrored_actorLoop {cmds : List (Draw × Command)}
    (h : eachStep E (fun _ db c => c.addressed db) {} cmds = true) : Mirrored (actorLoop E {} cmds) :=
  (actorLoop_inv (I := fun db => Coherent db ∧ Mirrored db)
    (fun d c _ ha hI => ⟨c.run_coherent E d hI.1, Command.run_mirrored hI.1 hI.2 ha⟩) cmds {} h
    ⟨coherent_empty, fun _ _ _ h => nomatch h⟩).2

theorem document_id_actorLoop {name : String} (later : List (Draw × Command)) (hc : Coherent db)
    (h : (db.document name).map (·.id) = some id) :
    ((actorLoop E db later).document name).map (·.id) = some id :=
  (actorLoop_keeps (R := Preserves fun db => Coherent db ∧ (db.document name).map (·.id) = some id)
    (fun d c _ h => ⟨c.run_coherent E d h.1, c.run_document_id h.1 h.2⟩) later db ⟨hc, h⟩).2

theorem instance_rows_follow_documents (E : Env) (cmds : List (Draw × Command))
    (h : eachStep E (fun _ db c => c.addressed db) {} cmds = true) :
    (∀ id row, (actorLoop E {} cmds).instances.get? id = some row →
      row.name = row.metadata.name ∧ row.modelId = row.metadata.modelId ∧
      row.desiredState = row.metadata.desired ∧ row.observedState = row.metadata.observed ∧
      row.generation = row.metadata.generation ∧
      ∃ r, (actorLoop E {} cmds).instanceResources.get? id = some r ∧
        r.restartSuppressed = row.metadata.restartSuppressed) ∧
    (∀ name id, ((actorLoop E {} cmds).document name).map (·.id) = some id →
      ∀ later, ((actorLoop E (actorLoop E {} cmds) later).document name).map (·.id) = some id) ∧
    (∀ d c name, (Command.run E d (actorLoop E {} cmds) c).generationOf name =
      (actorLoop E {} cmds).generationOf name + if c.serves E (actorLoop E {} cmds) name = true then 1 else 0) ∧
    (∀ d c id generation, c.carries = some (id, generation) →
      (∀ r, (actorLoop E {} cmds).lookup id = some r → r.2.generation ≠ generation) →
      (Command.run E d (actorLoop E {} cmds) c).instances = (actorLoop E {} cmds).instances ∧
      (Command.run E d (actorLoop E {} cmds) c).instanceResources = (actorLoop E {} cmds).instanceResources) ∧
    (∀ d evidence id row, (actorLoop E {} cmds).instances.get? id = some row →
      (∀ e ∈ evidence, e.instanceId = some id → e.generation ≠ some row.generation) →
      (Command.run E d (actorLoop E {} cmds) (.reconcileQuarantine evidence)).instances.get? id = some row ∨
      (Command.run E d (actorLoop E {} cmds) (.reconcileQuarantine evidence)).instances.get? id =
        (Command.run E d (actorLoop E {} cmds) (.reconcileQuarantine [])).instances.get? id) := by
  have hc := coherent_actorLoop E cmds
  refine ⟨fun id row hrow => ?_, fun name id hid later => document_id_actorLoop later hc hid,
    fun d c name => c.run_generationOf hc name, fun d c id generation hcarries hother => ?_,
    fun d evidence id row hrow hother => ?_⟩
  · have hcolumns := hc.rows id row hrow
    obtain ⟨r, hr⟩ := Option.isSome_iff_exists.mp (enveloped_actorLoop E cmds id row hrow)
    exact ⟨hcolumns.name_eq.symm, hcolumns.model_eq.symm, hcolumns.desired_eq.symm, hcolumns.observed_eq.symm,
      hcolumns.generation_eq.symm, r, hr, mirrored_actorLoop h id row r hrow hr⟩
  · refine Command.run_stale hc hcarries fun r hr => ?_
    rw [(hc.rows _ _ (Db.lookup_some hr).1).generation_eq]
    exact hother r hr
  · refine Command.run_evidence_stale hc hrow fun e he hi => ?_
    rw [(hc.rows _ _ hrow).generation_eq]
    exact hother e he hi

theorem shed_row_follows : ∃ row r,
    (actorLoop exampleEnv {} (served ++ [observedHealthy, imported])).instances.get? exampleInstance.id = some row ∧
    (actorLoop exampleEnv {} (served ++ [observedHealthy, imported])).instanceResources.get? exampleInstance.id =
      some r ∧
    row.metadata.restartSuppressed = true ∧ r.restartSuppressed = row.metadata.restartSuppressed := by
  have hrow : ((actorLoop exampleEnv {} (served ++ [observedHealthy, imported])).instances.get?
      exampleInstance.id).any (·.metadata.restartSuppressed) = true := by decide +kernel
  obtain ⟨row, hrow, hs⟩ := (Option.any_eq_true _ _).mp hrow
  obtain ⟨_, _, _, _, _, r, hr, hflag⟩ := (instance_rows_follow_documents exampleEnv
    (served ++ [observedHealthy, imported]) (by decide +kernel)).1 _ row hrow
  exact ⟨row, r, hrow, hr, hs, hflag⟩

end Sparkplane

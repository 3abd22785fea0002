import Mathlib.Data.List.Perm.Subperm
import Mathlib.Data.String.Basic
import Sparkplane.IntentSound

/-!
# The quarantine projection

`reconcile_quarantine` stores the evidence of a scan and clears the quarantine
of instances without evidence. It clears only instances that `list_instances`
lists, which are at most 256; `quarantine_projection` says what that costs.
-/

namespace Sparkplane

open Database

variable {u : Unit} {id : String} {cs : List Char} {n m : Nat}

def evidencePairs (evidence : List QuarantineEvidence) : List (String × Nat) :=
  evidence.filterMap fun e => e.instanceId.bind fun id => e.generation.map (id, ·)

def Db.unresolved (db : Db) (container : String) : Option QuarantineEvidence :=
  ((db.quarantineEvidence.get? container).filter fun row => row.resolvedAt.isNone).map
    fun row => ⟨container, row.instanceId, row.generation, row.cause⟩

structure Projected (evidence : List QuarantineEvidence) (db : Db) : Prop where
  rows : ∀ container, db.unresolved container = evidence.reverse.find? fun e => e.containerId = container
  backed : ∀ id row, db.instances.get? id = some row → row.metadata.quarantine.isSome = true →
    (id, row.metadata.generation) ∈ evidencePairs evidence

section
variable {d : Draw} {db db' : Db} {evidence : List QuarantineEvidence}

theorem validate_each : ∀ (l : List QuarantineEvidence) (db : Db),
    (Tx.each (fun e => Tx.query fun _ => validateQuarantineEvidence e) l db = .ok ((), db) ∧
      ∀ e ∈ l, validateQuarantineEvidence e = .ok ()) ∨
    ∃ err, Tx.each (fun e => Tx.query fun _ => validateQuarantineEvidence e) l db = .error err
  | [], _ => .inl ⟨rfl, nofun⟩
  | e :: l, db => by
    unfold Tx.each
    rw [Tx.bind_run, Tx.query_run]
    cases he : validateQuarantineEvidence e with
    | error err => exact .inr ⟨err, rfl⟩
    | ok _ =>
      rcases validate_each l db with ⟨hrun, hall⟩ | ⟨err, hrun⟩
      · refine .inl ⟨hrun, fun e' he' => ?_⟩
        rcases List.mem_cons.mp he' with rfl | he'
        · exact he
        · exact hall e' he'
      · exact .inr ⟨err, hrun⟩

theorem storeEvidence_each : ∀ (l : List QuarantineEvidence) {db db' : Db} {u : Unit},
    Tx.each (storeEvidence d) l db = .ok (u, db') →
    ∀ c, db'.unresolved c = (l.reverse.find? fun e => e.containerId = c).or (db.unresolved c)
  | [], _, _, _, h, c => by cases h; rfl
  | e :: l, db, db', u, h, c => by
    obtain ⟨_, db1, h1, h2⟩ := Tx.bind_ok h
    unfold storeEvidence at h1
    obtain ⟨_, h1⟩ := Tx.require_bind h1
    cases h1
    rw [storeEvidence_each l h2 c, List.reverse_cons, List.find?_append, Option.or_assoc]
    congr 1
    show ((((db.quarantineEvidence.upsert e.containerId _).get? c).filter _).map _) = _
    rw [Table.get?_upsert]
    by_cases hc : c = e.containerId
    · subst hc
      simp
    · rw [if_neg hc, List.find?_singleton, if_neg (by simpa using fun h => hc h.symm)]
      rfl

theorem unresolved_resolved (c : String) :
    Db.unresolved { db with quarantineEvidence := db.quarantineEvidence.update fun _ row =>
      { row with resolvedAt := row.resolvedAt.or (some d.now) } } c = none := by
  show ((((db.quarantineEvidence.update _).get? c).filter _).map _) = _
  rw [Table.get?_update]
  cases db.quarantineEvidence.get? c with
  | none => rfl
  | some row => cases hr : row.resolvedAt <;> simp [hr]

theorem reconcileQuarantine_inv (hc : Coherent db) (h : reconcileQuarantine d evidence db = .ok (u, db')) :
    (∀ c, db'.unresolved c = evidence.reverse.find? fun e => e.containerId = c) ∧
    ∀ k, db'.instances.get? k = (db.instances.get? k).map fun row =>
      if k ∈ db.listInstances.map (·.id) then cleared (evidencePairs evidence) row else row := by
  unfold reconcileQuarantine at h
  obtain ⟨_, db1, he1, h1⟩ := Tx.bind_ok h
  have hsame : db1 = db := by
    rcases validate_each evidence db with ⟨hrun, _⟩ | ⟨err, hrun⟩ <;> cases hrun.symm.trans he1
    rfl
  subst hsame
  obtain ⟨_, db2, hm, h2⟩ := Tx.bind_ok h1
  cases hm
  obtain ⟨_, db3, he3, h3⟩ := Tx.bind_ok h2
  have hi3 := (each_instances storeEvidence_instances _ he3).trans (show _ = db1.instances from rfl)
  obtain ⟨l, hl, h4⟩ := Tx.query_bind h3
  cases hl
  have hc3 : Coherent db3 := hc.congr hi3
  have hlist : db3.listInstances = db1.listInstances := by unfold Db.listInstances; rw [hi3]
  obtain ⟨db4, hrun, hdb4, hget⟩ := clearQuarantine_run (evidencePairs evidence) _ hc3 (listInstances_ids hc3)
    fun i hi => mem_listInstances hc3 hi
  cases h4.symm.trans hrun
  refine ⟨fun c => ?_, fun k => ?_⟩
  · have hrow : db'.unresolved c = db3.unresolved c := by rw [hdb4]; rfl
    rw [hrow, storeEvidence_each _ he3 c, unresolved_resolved, Option.or_none]
  · rw [hget, hi3, hlist]

theorem reconcileQuarantine_invalid (h : ∃ e ∈ evidence, validateQuarantineEvidence e ≠ .ok ()) :
    ∃ err, (reconcileQuarantine d evidence).commit db = (.error err, db) := by
  obtain ⟨e, he, hbad⟩ := h
  rcases validate_each evidence db with ⟨_, hall⟩ | ⟨err, hrun⟩
  · exact absurd (hall e he) hbad
  · refine ⟨err, Tx.commit_error ?_⟩
    unfold reconcileQuarantine
    rw [Tx.bind_run, hrun]

theorem projected_iff (hc : Coherent db) (h : reconcileQuarantine d evidence db = .ok (u, db')) :
    Projected evidence db' ↔ ∀ id row, db.instances.get? id = some row →
      id ∉ db.listInstances.map (·.id) → row.metadata.quarantine.isSome = true →
      (id, row.metadata.generation) ∈ evidencePairs evidence := by
  obtain ⟨hrows, hget⟩ := reconcileQuarantine_inv hc h
  constructor
  · intro hp id row hrow hunlisted hq
    refine hp.backed id row ?_ hq
    rw [hget, hrow, Option.map_some, if_neg hunlisted]
  · refine fun hunlisted => ⟨hrows, fun id row' hrow' hq => ?_⟩
    rw [hget] at hrow'
    obtain ⟨row, hrow, rfl⟩ := Option.map_eq_some_iff.mp hrow'
    by_cases hl : id ∈ db.listInstances.map (·.id)
    · rw [if_pos hl] at hq ⊢
      unfold cleared at hq ⊢
      split at hq
      · cases hq
      · rename_i hkeep
        rw [if_neg hkeep]
        have hid := (hc.rows id row hrow).id_eq
        exact hid ▸ not_not.mp fun hn => hkeep ⟨hq, hn⟩
    · rw [if_neg hl] at hq ⊢
      exact hunlisted id row hrow hl hq

end

theorem quarantine_projection (E : Env) (cmds : List (Draw × Command)) (d : Draw) (evidence : List QuarantineEvidence) :
    (∀ db', reconcileQuarantine d evidence (actorLoop E {} cmds) = .ok ((), db') →
      (Projected evidence db' ↔ ∀ id row, (actorLoop E {} cmds).instances.get? id = some row →
        id ∉ (actorLoop E {} cmds).listInstances.map (·.id) → row.metadata.quarantine.isSome = true →
        (id, row.metadata.generation) ∈ evidencePairs evidence)) ∧
    ((∃ e ∈ evidence, validateQuarantineEvidence e ≠ .ok ()) →
      ∃ err, (reconcileQuarantine d evidence).commit (actorLoop E {} cmds) = (.error err, actorLoop E {} cmds)) :=
  ⟨fun _ h => projected_iff (coherent_actorLoop E cmds) h, reconcileQuarantine_invalid⟩

/-! ## More instances than the listing holds -/

namespace Database

section
variable {E : Env} {db : Db} {i : InstanceDocument} (hmodel : (db.models.get? i.modelId).isSome = true)
  (hname : ∀ id row, db.instances.get? id = some row → row.name ≠ i.name)
  (hid : db.instances.get? i.id = none) (hstartup : fitsI64 i.resources.startupPeakBytes = true)
  (hsteady : fitsI64 i.resources.steadyPeakBytes = true)

include hname in
theorem find?_name_new : db.instances.rows.find? (fun r => r.2.name = i.name) = none :=
  List.find?_eq_none.mpr fun r hr => by simpa using hname r.1 r.2 (Table.get?_eq_some.mpr hr)

include hmodel hname hid in
theorem upsertInstance_new : ∃ t, upsertInstance (servingIntent i) db = some { db with instances := t } ∧
    ∀ k, t.get? k = if k = i.id then some (servedRow i) else db.instances.get? k := by
  obtain ⟨t, ht⟩ : ∃ t, db.instances.insert i.id (servedRow i) = some t := ⟨_, Table.insert_eq_upsert hid _⟩
  refine ⟨t, ?_, Table.get?_insert ht⟩
  have hsome : (db.models.get? (servingIntent i).modelId).isNone = false := Option.isNone_eq_false_iff.mpr hmodel
  have hfind : db.instances.rows.find? (fun r => r.2.name = (servingIntent i).name) = none := find?_name_new hname
  unfold upsertInstance
  rw [hsome, hfind]
  exact congrArg (Option.map _) ht

include hmodel hname hid hstartup hsteady in
theorem storeServe_new (hgeneration : fitsI64 i.generation = true) :
    ∃ a db', storeServe i db = .ok (a, db') ∧ db'.models = db.models ∧
      ∀ k, db'.instances.get? k = if k = i.id then some (servedRow i) else db.instances.get? k := by
  obtain ⟨t, hinstance, hget⟩ := upsertInstance_new hmodel hname hid
  have hrow : (t.get? i.id).isNone ≠ true := by rw [hget, if_pos rfl]; nofun
  have hresources : upsertResources (servingIntent i) { db with instances := t } =
      some { db with
        instances := t
        instanceResources := db.instanceResources.upsert i.id (servedEnvelope i) } := if_neg hrow
  refine ⟨⟨servingIntent i, false⟩, { db with
    instances := t
    instanceResources := db.instanceResources.upsert i.id (servedEnvelope i) }, ?_, rfl, hget⟩
  unfold storeServe
  rw [Tx.bind_run, Tx.require_run, if_pos (show fitsI64 (servingIntent i).generation = true from hgeneration)]
  dsimp only
  rw [Tx.bind_run, Tx.execute_run, hinstance]
  dsimp only
  rw [Tx.bind_run, Tx.require_run, if_pos (show fitsI64 (servingIntent i).resources.startupPeakBytes = true from hstartup)]
  dsimp only
  rw [Tx.bind_run, Tx.require_run, if_pos (show fitsI64 (servingIntent i).resources.steadyPeakBytes = true from hsteady)]
  dsimp only
  rw [Tx.bind_run, Tx.execute_run, hresources]
  rfl

include hmodel hname hid hstartup hsteady in
theorem beginServe_new (hvalid : validateInstance E i = .ok ()) :
    ∃ a db', beginServe E i db = .ok (a, db') ∧ db'.models = db.models ∧ ∀ k, db'.instances.get? k =
      if k = i.id then some (servedRow { i with generation := 1 }) else db.instances.get? k := by
  obtain ⟨a, db', hrun, h⟩ := storeServe_new (i := { i with generation := 1 }) hmodel hname hid hstartup hsteady
    rfl
  refine ⟨a, db', ?_, h⟩
  unfold beginServe
  rw [Tx.bind_run, Tx.query_run, hvalid]
  dsimp only
  rw [Tx.bind_run, Tx.query_run, find?_name_new hname]
  exact hrun

end

theorem markQuarantine_run {db : Db} (hc : Coherent db) {row : InstanceRow}
    (hrow : db.instances.get? id = some row) (cause : String)
    (hcause : (!cause.isEmpty && decide (cause.utf8ByteSize ≤ 128)) = true) :
    markQuarantine id row.metadata.generation cause db =
      .ok (quarantined cause row.metadata, db.put (quarantined cause row.metadata)) := by
  unfold markQuarantine
  rw [Tx.bind_run, Tx.require_run, if_pos hcause]
  dsimp only
  rw [Tx.bind_run, currentInstance_run, hc.lookup_of_id hrow]
  dsimp only
  rw [if_pos rfl]
  dsimp only
  rw [Tx.bind_run, persistInstance_run hc hrow (i := quarantined cause row.metadata) ⟨rfl, rfl, rfl, rfl⟩]
  rfl

end Database

theorem validId_ofList (hsize : String.utf8Len cs = 32)
    (hall : cs.all (fun c => isAsciiHexdigit c && !isAsciiUppercase c) = true) :
    validId (String.ofList ('i' :: '_' :: cs)) = true := by
  have hpre : stripPre "i_" (String.ofList ('i' :: '_' :: cs)) = some (String.ofList cs) := by
    unfold stripPre
    simp only [String.toList_ofList]
    rfl
  unfold validId
  rw [hpre, String.utf8ByteSize_ofList]
  dsimp only
  rw [String.toList_ofList, hall, String.utf8Len_cons, String.utf8Len_cons, hsize]
  decide

theorem validName_ofList {c : Char} (hsize : String.utf8Len (c :: cs) ≤ 63)
    (hall : (c :: cs).all (fun c => isAsciiLowercase c || isAsciiDigit c || c = '-' || c = '.') = true) :
    validName (String.ofList (c :: cs)) = true := by
  unfold validName
  rw [String.toList_ofList, hall, String.utf8ByteSize_ofList, decide_eq_true hsize]
  simp

theorem validateInstance_renamed {E : Env} {i : InstanceDocument} (h : validateInstance E i = .ok ())
    {name : String} (hid : validId id = true) (hname : validName name = true) :
    validateInstance E { i with id := id, name := name } = .ok () := by
  obtain ⟨hi, hn⟩ := validateInstance_ok h
  unfold validateInstance at h ⊢
  rw [hi, hn] at h
  dsimp only
  rw [hid, hname]
  exact h

def numeral (n : Nat) : List Char := [n / 100, n / 10 % 10, n % 10].map Nat.digitChar

def numbered (n : Nat) : InstanceDocument :=
  { exampleInstance with
    id := String.ofList ('i' :: '_' :: (List.replicate 29 '0' ++ numeral n))
    name := String.ofList ('m' :: numeral n) }

theorem numeral_value : ∀ n < 257, (numeral n).foldl (fun v c => 10 * v + (c.toNat - 48)) 0 = n := by
  decide +kernel

theorem numbered_valid (hn : n < 257) : validateInstance exampleEnv (numbered n) = .ok () := by
  have hid : ∀ n < 257, String.utf8Len (List.replicate 29 '0' ++ numeral n) = 32 ∧
      (List.replicate 29 '0' ++ numeral n).all (fun c => isAsciiHexdigit c && !isAsciiUppercase c) = true := by
    decide +kernel
  have hname : ∀ n < 257, String.utf8Len ('m' :: numeral n) ≤ 63 ∧ ('m' :: numeral n).all
      (fun c => isAsciiLowercase c || isAsciiDigit c || c = '-' || c = '.') = true := by
    decide +kernel
  exact validateInstance_renamed (by decide +kernel) (validId_ofList (hid n hn).1 (hid n hn).2)
    (validName_ofList (hname n hn).1 (hname n hn).2)

theorem numeral_injective (hm : m < 257) (hn : n < 257) (h : numeral m = numeral n) : m = n := by
  rw [← numeral_value m hm, ← numeral_value n hn, h]

structure Filled (n : Nat) (db : Db) : Prop where
  model : (db.models.get? exampleInstance.modelId).isSome = true
  quarantined : ∀ m < n, ∃ row, db.instances.get? (numbered m).id = some row ∧
    row.metadata.quarantine.isSome = true
  only : ∀ id row, db.instances.get? id = some row → ∃ m < n, id = (numbered m).id ∧ row.name = (numbered m).name

def quarantineCause : String := "duplicate-managed-generation"

def fill (n : Nat) : List (Draw × Command) :=
  [({}, .beginServe (numbered n)), ({}, .markQuarantine (numbered n).id 1 quarantineCause)]

theorem numbered_name (hm : m < 257) (hn : n < 257) (h : (numbered m).name = (numbered n).name) : m = n :=
  numeral_injective hm hn (List.cons_inj_right _ |>.mp (String.ofList_injective h))

theorem numbered_id (hm : m < 257) (hn : n < 257) (h : (numbered m).id = (numbered n).id) : m = n := by
  have h := List.cons_inj_right _ |>.mp (List.cons_inj_right _ |>.mp (String.ofList_injective h))
  exact numeral_injective hm hn (List.append_cancel_left h)

theorem Filled.step {db : Db} (hc : Coherent db) (h : Filled n db) (hn : n < 257) :
    Filled (n + 1) (actorLoop exampleEnv db (fill n)) := by
  have hother : ∀ m < n, (numbered m).id ≠ (numbered n).id := fun m hm he => by
    have := numbered_id (hm.trans hn) hn he
    omega
  obtain ⟨a, db1, hserve, hmodels, hget⟩ := Database.beginServe_new (E := exampleEnv) (i := numbered n) h.model
    (fun id row hrow he => by
      obtain ⟨m, hm, _, hname⟩ := h.only id row hrow
      have := numbered_name (hm.trans hn) hn (hname.symm.trans he)
      omega)
    (by
      cases hrow : db.instances.get? (numbered n).id with
      | none => rfl
      | some row =>
        obtain ⟨m, hm, hid, _⟩ := h.only _ row hrow
        exact absurd hid.symm (hother m hm))
    rfl rfl (numbered_valid hn)
  generalize hnew : servedRow { numbered n with generation := 1 } = row at hget
  have hserved : Command.run exampleEnv {} db (.beginServe (numbered n)) = db1 :=
    congrArg Prod.snd (Tx.commit_ok hserve)
  have hc1 : Coherent db1 := hserved ▸ Command.run_coherent exampleEnv {} _ hc
  have hrow : db1.instances.get? (numbered n).id = some row := (hget _).trans (if_pos rfl)
  have hid : row.metadata.id = (numbered n).id := hnew ▸ rfl
  have hgeneration : row.metadata.generation = 1 := hnew ▸ rfl
  have hmark := Database.markQuarantine_run hc1 hrow quarantineCause (by decide +kernel)
  have hrun : actorLoop exampleEnv db (fill n) = db1.put (Database.quarantined quarantineCause row.metadata) := by
    show Command.run exampleEnv {} (Command.run exampleEnv {} db (.beginServe (numbered n))) _ = _
    rw [hserved]
    exact congrArg Prod.snd (Tx.commit_ok (hgeneration ▸ hmark))
  have hget' : ∀ k, (actorLoop exampleEnv db (fill n)).instances.get? k = if k = (numbered n).id then
      some (row.put (Database.quarantined quarantineCause row.metadata)) else db.instances.get? k := fun k => by
    rw [hrun, Db.get?_put (hid ▸ hrow), hget,
      show (Database.quarantined quarantineCause row.metadata).id = (numbered n).id from hid]
    split <;> rfl
  refine ⟨?_, fun m hm => ?_, fun id row' hrow' => ?_⟩
  · rw [hrun]
    exact (congrArg (fun t => (Table.get? t exampleInstance.modelId).isSome) hmodels).trans h.model
  · rcases Nat.lt_succ_iff_lt_or_eq.mp hm with hm | rfl
    · rw [hget', if_neg (hother m hm)]
      exact h.quarantined m hm
    · exact ⟨_, (hget' _).trans (if_pos rfl), rfl⟩
  · rw [hget'] at hrow'
    by_cases e : id = (numbered n).id
    · rw [if_pos e] at hrow'
      cases hrow'
      exact ⟨n, Nat.lt_succ_self n, e, hnew ▸ rfl⟩
    · rw [if_neg e] at hrow'
      obtain ⟨m, hm, hrest⟩ := h.only id row' hrow'
      exact ⟨m, hm.trans (Nat.lt_succ_self n), hrest⟩

theorem filled : ∀ n ≤ 257, ∃ cmds, Filled n (actorLoop exampleEnv {} cmds)
  | 0, _ => by
    have h : ((actorLoop exampleEnv {} modelExists).models.get? exampleInstance.modelId).isSome = true ∧
      (actorLoop exampleEnv {} modelExists).instances.rows = [] := by decide +kernel
    refine ⟨modelExists, h.1, nofun, fun id row hrow => ?_⟩
    have hmem := Table.get?_eq_some.mp hrow
    rw [h.2] at hmem
    cases hmem
  | n + 1, hn => by
    obtain ⟨cmds, h⟩ := filled n (by omega)
    refine ⟨cmds ++ fill n, ?_⟩
    rw [actorLoop_append]
    exact h.step (coherent_actorLoop exampleEnv cmds) hn

theorem Filled.unlisted {db : Db} (h : Filled 257 db) : ∃ id row, db.instances.get? id = some row ∧
    id ∉ db.listInstances.map (·.id) ∧ row.metadata.quarantine.isSome = true := by
  have hnodup : ((List.range 257).map fun n => (numbered n).id).Nodup :=
    List.Nodup.map_on (fun m hm n hn => numbered_id (List.mem_range.mp hm) (List.mem_range.mp hn)) List.nodup_range
  have hlong : (db.listInstances.map (·.id)).length ≤ 256 := by
    unfold Db.listInstances
    rw [List.length_map, List.length_map]
    exact List.length_take_le _ _
  obtain ⟨id, hid, hunlisted⟩ : ∃ id ∈ (List.range 257).map fun n => (numbered n).id,
      id ∉ db.listInstances.map (·.id) := by
    by_contra hall
    have hall : ((List.range 257).map fun n => (numbered n).id) ⊆ db.listInstances.map (·.id) :=
      fun id hid => not_not.mp fun hn => hall ⟨id, hid, hn⟩
    have hle := (List.subperm_of_subset hnodup hall).length_le
    rw [List.length_map, List.length_range] at hle
    omega
  obtain ⟨n, hn, rfl⟩ := List.mem_map.mp hid
  obtain ⟨row, hrow, hq⟩ := h.quarantined n (List.mem_range.mp hn)
  exact ⟨_, row, hrow, hunlisted, hq⟩

/-- With no evidence at all, one of 257 quarantined instances stays so. -/
theorem unlisted_quarantine_survives : ∃ cmds db',
    reconcileQuarantine {} [] (actorLoop exampleEnv {} cmds) = .ok ((), db') ∧
    ∃ id row, db'.instances.get? id = some row ∧ row.metadata.quarantine.isSome = true ∧
      (id, row.metadata.generation) ∉ evidencePairs [] := by
  obtain ⟨cmds, hfilled⟩ := filled 257 le_rfl
  have hc := coherent_actorLoop exampleEnv cmds
  obtain ⟨db', hrun⟩ := reconcileQuarantine_nil hc {}
  obtain ⟨id, row, hrow, hunlisted, hq⟩ := hfilled.unlisted
  refine ⟨cmds, db', hrun, id, row, ?_, hq, nofun⟩
  rw [(reconcileQuarantine_inv hc hrun).2, hrow, Option.map_some, if_neg hunlisted]

end Sparkplane

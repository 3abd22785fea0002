import Sparkplane.EmergencySound
import Sparkplane.MonitorSound

/-!
# Emergency records at startup

The executor appends a record before it stops an engine and never removes one.
The agent imports all of them when it starts, and a record that can not be
imported keeps it from starting. In between an upgrade may delete the instance:
`quarantine_incompatible_state` of `install.rs` drops what the new release can
not read. `startup_imports_iff` says when the import goes through.

Not in the model: the benchmarks and the audit of the quarantine, which no import
reads.
-/

namespace Sparkplane

namespace Install

inductive InstallErrorKind where
  | configuration
  | unreachable
  deriving DecidableEq

structure InstallError where
  kind : InstallErrorKind
  message : String

def configurationError (message : String) : InstallError := ⟨.configuration, message⟩

end Install

open Install (InstallError configurationError)

/-! ## State that a release can not read -/

/-- What the wire types of the release to be installed deserialize. -/
structure Release where
  readsInstance : InstanceDocument → Bool
  readsModel : ModelDocument → Bool

structure StateQuarantineEvidence where
  quarantinedInstances : List String
  quarantinedModels : List String

def incompatibleInstanceIds (r : Release) : List (String × InstanceRow) → Except InstallError (List String)
  | [] => .ok []
  | (id, row) :: rest =>
    if r.readsInstance row.metadata then incompatibleInstanceIds r rest
    else if row.desiredState = .running then
      throw (configurationError s!"incompatible running instance {id} must be stopped before authoritative replacement")
    else do
      let ids ← incompatibleInstanceIds r rest
      return id :: ids

def incompatibleModelIds (r : Release) (instances : List (String × InstanceRow)) (quarantined : List String) :
    List (String × ModelRow) → Except InstallError (List String)
  | [] => .ok []
  | (id, row) :: rest =>
    if r.readsModel row.metadata then incompatibleModelIds r instances quarantined rest
    else if instances.any fun i => i.2.modelId = id && !quarantined.contains i.1 then
      throw (configurationError s!"incompatible model {id} is referenced by current state")
    else do
      let ids ← incompatibleModelIds r instances quarantined rest
      return id :: ids

def applyStateQuarantine (q : StateQuarantineEvidence) (db : Db) : Db :=
  { db with
    instanceResources := db.instanceResources.delete fun id _ => q.quarantinedInstances.contains id
    restartFailures := db.restartFailures.delete fun k _ => q.quarantinedInstances.contains k.1
    instances := db.instances.delete fun id _ => q.quarantinedInstances.contains id
    aliases := db.aliases.delete fun _ model => q.quarantinedModels.contains model
    models := db.models.delete fun id _ => q.quarantinedModels.contains id }

/-- `backup` is how `backup_incompatible_state` ends. -/
def quarantineIncompatibleState (r : Release) (backup : Except InstallError Unit) (db : Db) :
    Except InstallError (StateQuarantineEvidence × Db) := do
  let instances ← incompatibleInstanceIds r (db.instances.rows.insertionSort fun a b => a.1 ≤ b.1)
  let models ← incompatibleModelIds r db.instances.rows instances (db.models.rows.insertionSort fun a b => a.1 ≤ b.1)
  if instances.isEmpty && models.isEmpty then return (⟨instances, models⟩, db)
  backup
  return (⟨instances, models⟩, applyStateQuarantine ⟨instances, models⟩ db)

/-- The database after an upgrade, which leaves it alone if it is refused. -/
def Db.upgraded (db : Db) (r : Release) (backup : Except InstallError Unit) : Db :=
  match quarantineIncompatibleState r backup db with
  | .ok (_, db') => db'
  | .error _ => db

/-! ## The import -/

def importRecords (E : Env) : List (Draw × EmergencyRecord) → Cmd Unit
  | [] => pure ()
  | (d, record) :: rest => do
    let _ ← Database.importEmergency E d record
    importRecords E rest

/-- Without an answer from the executor the agent starts without one. -/
def startupImport (E : Env) : Option (List (Draw × EmergencyRecord)) → Cmd Bool
  | none => return false
  | some records => do
    importRecords E records
    return true

/-! ## Histories -/

/-- `seen` is every generation of an instance that the database has had. -/
structure Appliance where
  db : Db
  sampler : Sampler
  seen : List (String × Nat)

namespace Appliance

def journal (a : Appliance) : List EmergencyRecord := a.sampler.monitor.journal

def onDb (a : Appliance) (db : Db) : Appliance :=
  { a with db, seen := db.instances.rows.map (fun r => (r.1, r.2.metadata.generation)) ++ a.seen }

/-- The executor starts what the agent has read from the database, and `Ulid::new` gives an id that parses. -/
def Admits (E : Env) (a : Appliance) : SamplerEvent → Prop
  | .observe _ observed _ => (observed.instanceId, observed.generation) ∈ a.seen
  | .forget .. => True
  | .loop answers => E.parseUlid answers.eventId = true

/-- Commands of the agent, the imports at its starts among them, upgrades, and the executor's work. -/
inductive Reached (E : Env) : Appliance → Prop
  | new (policy : ResourcePolicy) : Reached E ⟨{}, .start policy [], []⟩
  | command {a : Appliance} (d : Draw) (c : Command) : Reached E a → Reached E (a.onDb (c.run E d a.db))
  | upgrade {a : Appliance} (r : Release) (backup : Except InstallError Unit) :
      Reached E a → Reached E (a.onDb (a.db.upgraded r backup))
  | executor {a : Appliance} {ev : SamplerEvent} :
      Reached E a → a.Admits E ev → Reached E { a with sampler := a.sampler.step ev }
  | restart {a : Appliance} (policy : ResourcePolicy) :
      Reached E a → Reached E { a with sampler := .start policy a.journal }

end Appliance

/-! ## What an upgrade and an import leave -/

theorem Db.upgraded_instances {db : Db} {id : String} {row : InstanceRow} (r : Release) (backup : Except InstallError Unit)
    (h : (db.upgraded r backup).instances.get? id = some row) :
    db.instances.get? id = some row := by
  unfold Db.upgraded at h
  split at h
  · next q db' hrun =>
    unfold quarantineIncompatibleState at hrun
    cases hi : incompatibleInstanceIds r (db.instances.rows.insertionSort fun a b => a.1 ≤ b.1) with
    | error e => rw [hi] at hrun; cases hrun
    | ok instances =>
      rw [hi] at hrun
      cases hm : incompatibleModelIds r db.instances.rows instances
          (db.models.rows.insertionSort fun a b => a.1 ≤ b.1) with
      | error e => simp only [bind, Except.bind, hm] at hrun; cases hrun
      | ok models =>
        simp only [bind, Except.bind, hm] at hrun
        split at hrun
        · cases hrun
          exact h
        · cases backup with
          | error e => cases hrun
          | ok =>
            cases hrun
            exact Table.get?_of_delete h
  · exact h

theorem Coherent.upgraded {db : Db} (hc : Coherent db) (r : Release) (backup : Except InstallError Unit) :
    Coherent (db.upgraded r backup) where
  rows _ _ h := hc.rows _ _ (Db.upgraded_instances r backup h)
  names _ _ _ _ h h' := hc.names _ _ _ _ (Db.upgraded_instances r backup h) (Db.upgraded_instances r backup h')

section
variable {E : Env} {d : Draw} {db db' : Db} {record : EmergencyRecord}

structure Imported (db : Db) (record : EmergencyRecord) (db' : Db) : Prop where
  coherent : Coherent db'
  present : ∀ id, (db'.instances.get? id).isSome = (db.instances.get? id).isSome
  known : ∀ k, (db'.emergencyRecords.get? k).isSome = ((db.emergencyRecords.get? k).isSome || k = record.eventId)

theorem Coherent.lookup_validId {id : String} (hc : Coherent db) (hid : validId id = true) :
    db.lookup id = (db.instances.get? id).map fun row => (id, row) := by
  cases hrow : db.instances.get? id with
  | some row => exact hc.lookup_of_id hrow
  | none =>
    cases hl : db.lookup id with
    | none => rfl
    | some r =>
      obtain ⟨hr, hname⟩ := Db.lookup_some hl
      rcases hname with heq | hname
      · rw [heq, hrow] at hr
        cases hr
      · have hvalid := (hc.rows _ _ hr).valid_name
        rw [hname, not_validName_of_validId hid] at hvalid
        cases hvalid

theorem Imported.noted (hc : Coherent db) : Imported db record (db.noted record) where
  coherent := Coherent.congr (show (db.noted record).instances = db.instances from rfl) hc
  present _ := rfl
  known k := by
    show ((db.emergencyRecords.upsert record.eventId record).get? k).isSome = _
    rw [Table.get?_upsert]
    split
    · next h => simp [h]
    · next h => simp [h]

theorem Imported.shedding {row : InstanceRow} (hc : Coherent db)
    (hrow : db.instances.get? record.decision.instanceId = some row) (hc' : Coherent db')
    (ht : Touches [.log] (db.shedding record row.metadata) db') : Imported db record db' := by
  obtain ⟨hi, -, he, -⟩ := ht .fleet (by simp)
  refine ⟨hc', fun id => ?_, fun k => ?_⟩
  · have hid : row.metadata.id = record.decision.instanceId := (hc.rows _ _ hrow).id_eq
    have hput : (db.shedding record row.metadata).instances.get? id = if id = row.metadata.id then _ else _ :=
      Db.get?_put (i := Database.shed record.decision.cause row.metadata) (hid.symm ▸ hrow) id
    rw [hi, hput]
    split
    · next h => rw [h.trans hid, hrow]; rfl
    · rfl
  · rw [he]
    exact (Imported.noted hc).known k

theorem import_step (hc : Coherent db) (hv : record.valid E = true) (hid : validId record.decision.instanceId = true) :
    ((∃ e, Database.importEmergency E d record db = (.error e, db)) ∧
      db.emergencyRecords.get? record.eventId = none ∧ db.instances.get? record.decision.instanceId = none) ∨
    (∃ b db', Database.importEmergency E d record db = (.ok b, db') ∧ Imported db record db' ∧
      (db.emergencyRecords.get? record.eventId = none →
        (db.instances.get? record.decision.instanceId).isSome = true)) := by
  have hc' : Coherent (Database.importEmergency E d record db).2 := Command.run_coherent E d (.importEmergency record) hc
  have hlookup := hc.lookup_validId hid
  by_cases hk : (db.emergencyRecords.get? record.eventId).isSome = true
  · right
    refine ⟨false, db, ?_, ⟨hc, fun _ => rfl, fun k => ?_⟩, fun h => ?_⟩
    · rw [Database.importEmergency_valid hv, Database.recordEmergency_run hc, if_pos hk]
    · by_cases h : k = record.eventId
      · simp [h, hk]
      · simp [h]
    · rw [h] at hk
      cases hk
  · have hnew := Option.not_isSome_iff_eq_none.mp hk
    cases hrow : db.instances.get? record.decision.instanceId with
    | none =>
      refine .inl ⟨⟨.notFound, ?_⟩, hnew, rfl⟩
      rw [Database.importEmergency_valid hv, Database.recordEmergency_run hc, if_neg hk, hlookup, hrow]
      rfl
    | some row =>
      right
      rw [hrow] at hlookup
      by_cases hg : row.metadata.generation = record.decision.generation
      · obtain ⟨db', hrun, ht, -⟩ := Database.importEmergency_current (d := d) hc hv hnew hlookup hg
        rw [hrun] at hc'
        exact ⟨true, db', hrun, .shedding hc hrow hc' ht, fun _ => rfl⟩
      · refine ⟨true, db.noted record, ?_, .noted hc, fun _ => rfl⟩
        rw [Database.importEmergency_valid hv, Database.recordEmergency_run hc, if_neg hk, hlookup]
        dsimp only [Option.map_some]
        rw [if_pos hg]

/-- Each record that is the first with its id and not known yet names an instance that is there. -/
def Importable (db : Db) (records : List EmergencyRecord) : Prop :=
  ∀ pre r post, records = pre ++ r :: post → (∀ r' ∈ pre, r'.eventId ≠ r.eventId) →
    db.emergencyRecords.get? r.eventId = none → (db.instances.get? r.decision.instanceId).isSome = true

theorem Imported.importable_iff (h : Imported db record db') (rest : List EmergencyRecord)
    (hrecord : db.emergencyRecords.get? record.eventId = none →
      (db.instances.get? record.decision.instanceId).isSome = true) :
    Importable db (record :: rest) ↔ Importable db' rest := by
  constructor
  · intro hall pre r post hrest hpre hnew
    have hknown := h.known r.eventId
    rw [hnew, Option.isSome_none, eq_comm, Bool.or_eq_false_iff, decide_eq_false_iff_not] at hknown
    have hnew' := Option.isNone_iff_eq_none.mp (Option.isSome_eq_false_iff.mp hknown.1)
    rw [h.present]
    refine hall (record :: pre) r post (congrArg _ hrest) (fun r' hr' => ?_) hnew'
    rcases List.mem_cons.mp hr' with rfl | hr'
    · exact fun heq => hknown.2 heq.symm
    · exact hpre r' hr'
  · intro hall pre r post hrest hpre hnew
    cases pre with
    | nil =>
      obtain ⟨rfl, -⟩ := List.cons.inj hrest
      exact hrecord hnew
    | cons r0 pre =>
      obtain ⟨rfl, htail⟩ := List.cons.inj hrest
      rw [← h.present]
      refine hall pre r post htail (fun r' hr' => hpre r' (List.mem_cons_of_mem _ hr')) ?_
      have hknown := h.known r.eventId
      rw [hnew, Option.isSome_none, Bool.false_or, decide_eq_false (hpre _ List.mem_cons_self).symm] at hknown
      exact Option.isNone_iff_eq_none.mp (Option.isSome_eq_false_iff.mp hknown)

theorem importRecords_iff : ∀ (records : List (Draw × EmergencyRecord)) {db : Db}, Coherent db →
    (∀ r ∈ records.map Prod.snd, r.valid E = true ∧ validId r.decision.instanceId = true) →
    ((importRecords E records db).1 = .ok () ↔ Importable db (records.map Prod.snd))
  | [], db, hc, _ => by
    refine ⟨fun _ pre r post h => ?_, fun _ => rfl⟩
    exact absurd h.symm (by simp)
  | (d, record) :: rest, db, hc, hvalid => by
    obtain ⟨hv, hid⟩ := hvalid record (by simp)
    have hrest : ∀ r ∈ rest.map Prod.snd, r.valid E = true ∧ validId r.decision.instanceId = true :=
      fun r hr => hvalid r (by simp [hr])
    have hrun : importRecords E ((d, record) :: rest) db =
        (Database.importEmergency E d record >>= fun _ => importRecords E rest) db := rfl
    rw [hrun, Batch.bind_run]
    rcases import_step (d := d) hc hv hid with ⟨⟨e, herror⟩, hnew, hnone⟩ | ⟨b, db', hok, himported, hrecord⟩
    · rw [herror]
      refine ⟨(fun h => nomatch h), fun h => ?_⟩
      have hsome := h [] record (rest.map Prod.snd) rfl (fun _ hr => nomatch hr) hnew
      rw [hnone] at hsome
      cases hsome
    · rw [hok]
      dsimp only
      rw [importRecords_iff rest himported.coherent hrest]
      exact (himported.importable_iff (rest.map Prod.snd) hrecord).symm

end

/-! ## Where the records come from -/

namespace Sampler

variable {s : Sampler} {ev : SamplerEvent} {r : EmergencyRecord}

theorem step_journal (h : r ∈ (s.step ev).monitor.journal) :
    r ∈ s.monitor.journal ∨ ∃ a d, ev = .loop a ∧ r = .fromDecision a.eventId d ∧
      (∃ e ∈ s.monitor.managed, e.key = d.key) ∧ d.cause.isEmpty = false := by
  cases ev with
  | observe memory observed phase => exact .inl h
  | forget instanceId generation => exact .inl h
  | loop a =>
    simp only [step] at h
    split at h
    · rcases ResourceMonitor.sampleOnce_records s.monitor a.memory a.sample a.eventId a.append with
        ⟨hsame, -⟩ | ⟨d, hmanaged, -, hcause, happend, -⟩
      · exact .inl (hsame ▸ h)
      · rw [happend] at h
        rcases List.mem_append.mp h with h | h
        · exact .inl h
        · exact .inr ⟨a, d, rfl, List.mem_singleton.mp h, hmanaged, hcause⟩
    all_goals split at h <;> exact .inl h

end Sampler

theorem nonempty_of_validId {id : String} (h : validId id = true) : id.isEmpty = false := by
  by_contra hne
  rw [Bool.not_eq_false, String.isEmpty_iff] at hne
  subst hne
  revert h
  decide

namespace Appliance

variable {E : Env} {a : Appliance}

structure Sound (E : Env) (a : Appliance) : Prop where
  coherent : Coherent a.db
  seen : ∀ k ∈ a.seen, validId k.1 = true ∧ fitsI64 k.2 = true
  managed : ∀ e ∈ a.sampler.monitor.managed, e.key ∈ a.seen
  journal : ∀ r ∈ a.journal, r.valid E = true ∧ validId r.decision.instanceId = true

theorem Sound.onDb (h : a.Sound E) {db : Db} (hc : Coherent db) : (a.onDb db).Sound E where
  coherent := hc
  seen k hk := by
    rcases List.mem_append.mp hk with hk | hk
    · obtain ⟨r, hr, rfl⟩ := List.mem_map.mp hk
      have hrow := hc.rows r.1 r.2 (Table.get?_eq_some.mpr hr)
      exact ⟨hrow.valid_id, hrow.generation_eq ▸ hrow.generation_fits⟩
    · exact h.seen k hk
  managed e he := List.mem_append_right _ (h.managed e he)
  journal := h.journal

theorem Sound.executor (h : a.Sound E) {ev : SamplerEvent} (hev : a.Admits E ev) :
    Sound E { a with sampler := a.sampler.step ev } where
  coherent := h.coherent
  seen := h.seen
  managed e he := by
    rcases Sampler.step_managed he with ⟨e0, he0, hkey⟩ | ⟨memory, observed, phase, rfl, hkey⟩
    · exact hkey ▸ h.managed e0 he0
    · exact hkey ▸ hev
  journal r hr := by
    rcases Sampler.step_journal hr with hr | ⟨answers, d, rfl, rfl, ⟨e, he, hkey⟩, hcause⟩
    · exact h.journal r hr
    · obtain ⟨hid, hfits⟩ := h.seen _ (h.managed e he)
      rw [hkey] at hid hfits
      refine ⟨?_, hid⟩
      have hulid : E.parseUlid answers.eventId = true := hev
      have hnonempty : d.instanceId.isEmpty = false := nonempty_of_validId hid
      have hfits' : fitsI64 d.generation = true := hfits
      simp [EmergencyRecord.valid, EmergencyRecord.fromDecision, hulid, hnonempty, hcause, hfits']

theorem Reached.sound (h : Reached E a) : a.Sound E := by
  induction h with
  | new policy => exact ⟨coherent_empty, (fun _ h => nomatch h), (fun _ h => nomatch h), fun _ h => nomatch h⟩
  | command d c _ ih => exact ih.onDb (c.run_coherent E d ih.coherent)
  | upgrade r backup _ ih => exact ih.onDb (ih.coherent.upgraded r backup)
  | executor _ hev ih => exact ih.executor hev
  | restart policy _ ih => exact ⟨ih.coherent, ih.seen, (fun _ h => nomatch h), ih.journal⟩

theorem startup_imports_iff (h : Reached E a) {records : List (Draw × EmergencyRecord)}
    (hrecords : records.map Prod.snd = a.journal) :
    (startupImport E (some records) a.db).1 = .ok true ↔ Importable a.db a.journal := by
  have hsound := h.sound
  rw [← hrecords, ← importRecords_iff records hsound.coherent (hrecords ▸ hsound.journal)]
  have hrun : startupImport E (some records) a.db =
      (importRecords E records >>= fun _ => (pure true : Cmd Bool)) a.db := rfl
  rw [hrun, Batch.bind_run]
  cases hi : importRecords E records a.db with
  | mk result db' =>
    cases result with
    | error e => simp
    | ok u => exact ⟨fun _ => rfl, fun _ => rfl⟩

/-! ## An instance that is gone -/

def exampleObserved : InspectedEngine := Sampler.engineOf exampleInstance.id 1 'a'

def exampleAnswers : LoopAnswers := { Sampler.onlyWaiting with eventId := "01JAAAAAAAAAAAAAAAAAAAAAAA" }

def servedAppliance : Appliance :=
  served.foldl (fun a c => a.onDb (c.2.run exampleEnv c.1 a.db)) ⟨{}, .start Sampler.pressedPolicy [], []⟩

def recordedAppliance : Appliance :=
  { servedAppliance with
    sampler := (servedAppliance.sampler.step (.observe (fun _ => none) exampleObserved .starting)).step
      (.loop exampleAnswers) }

def upgradedAppliance : Appliance :=
  let a := recordedAppliance.onDb (Command.run exampleEnv stopped.1 recordedAppliance.db stopped.2)
  a.onDb (a.db.upgraded ⟨fun _ => false, fun _ => true⟩ (.ok ()))

theorem Reached.commands : ∀ (cmds : List (Draw × Command)) {a : Appliance}, Reached E a →
    Reached E (cmds.foldl (fun a c => a.onDb (c.2.run E c.1 a.db)) a)
  | [], _, h => h
  | c :: rest, _, h => Reached.commands rest (.command c.1 c.2 h)

theorem Reached.sampled (h : Reached E a) {memory : String → Option Nat} {observed : InspectedEngine} {phase : EnginePhase}
    {answers : LoopAnswers} (hseen : (observed.instanceId, observed.generation) ∈ a.seen)
    (hulid : E.parseUlid answers.eventId = true) :
    Reached E { a with sampler := (a.sampler.step (.observe memory observed phase)).step (.loop answers) } := by
  have hobserved : Reached E { a with sampler := a.sampler.step (.observe memory observed phase) } := h.executor hseen
  exact hobserved.executor hulid

theorem recorded_reached : Reached exampleEnv recordedAppliance := by
  have hserved : Reached exampleEnv servedAppliance := Reached.commands served (.new _)
  exact hserved.sampled (by decide +kernel) (by decide +kernel)

theorem upgraded_reached : Reached exampleEnv upgradedAppliance :=
  (recorded_reached.command stopped.1 stopped.2).upgrade _ _

def drawn (a : Appliance) : List (Draw × EmergencyRecord) := a.journal.map fun r => ({}, r)

theorem drawn_records (a : Appliance) : (drawn a).map Prod.snd = a.journal := by
  simp [drawn, Function.comp_def]

theorem recorded_startup : recordedAppliance.journal.length = 1 ∧
    (startupImport exampleEnv (some (drawn recordedAppliance)) recordedAppliance.db).1 = .ok true := by
  refine ⟨by decide +kernel, (startup_imports_iff recorded_reached (drawn_records _)).mpr ?_⟩
  have hrow : (recordedAppliance.db.instances.get? exampleInstance.id).isSome = true ∧
      recordedAppliance.journal.all (fun r => r.decision.instanceId = exampleInstance.id) = true := by
    decide +kernel
  intro pre r post hjournal _ _
  have hr := List.all_eq_true.mp hrow.2 r (hjournal ▸ List.mem_append_right _ List.mem_cons_self)
  rw [of_decide_eq_true hr]
  exact hrow.1

theorem upgraded_startup_fails : Reached exampleEnv upgradedAppliance ∧
    (drawn upgradedAppliance).map Prod.snd = upgradedAppliance.journal ∧
    (startupImport exampleEnv (some (drawn upgradedAppliance)) upgradedAppliance.db).1 = .error .notFound :=
  ⟨upgraded_reached, drawn_records _, by decide +kernel⟩

end Appliance

end Sparkplane

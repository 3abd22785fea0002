import Sparkplane.FleetSound

/-!
# Stopped instances

Every command keeps the instance table coherent. `stopped_settled`: a stopped
instance is unhealthy and has no endpoint in every run in which healthy
observations are applied only to instances that should run. The stale-generation
check alone does not give this: a stop keeps the generation, so an observation
that was on its way still applies.
-/

namespace Sparkplane

open Database

variable {P : InstanceDocument → InstanceDocument → Prop} {E : Env} {d : Draw} {c : Command} {db db' : Db}
variable {i j : InstanceDocument}

/-! ## Coherence of every run -/

theorem Command.run_fleetStep [Std.Refl P] [IsTrans _ P] (h : c.elsewhere = true) (db : Db) :
    FleetStep P db (c.run E d db) :=
  c.run_elsewhere (fun _ _ _ _ _ => (acceptOperation_touches d _ _ _ _ _).mono
      fun _ _ => FleetStep.of_touches (by simp))
    (fun _ _ _ _ _ => (transition_touches d _ _ _ _ _).mono
      fun _ _ => FleetStep.of_touches (by simp))
    (fun _ _ => FleetStep.of_touches (by simp))
    (fun _ _ => (promoteModel_touches _ _).mono fun _ _ => FleetStep.of_touches (by simp))
    (fun _ => (removeModel_touches _).mono fun _ _ => FleetStep.of_touches (by simp)) h db

theorem importEmergency_fleet [Std.Refl P] [IsTrans _ P] (record : EmergencyRecord)
    (hP : ∀ i, P i (shed record.decision.cause i)) :
    (importEmergency E d record).Keeps (FleetStep P) :=
  importEmergency_keeps (R := FleetStep P) (fun _ _ _ _ _ => (transition_touches d _ _ _ _ _).mono
      fun _ _ => FleetStep.of_touches (by simp))
    (recordEmergency_fleet record hP)

theorem importEmergency_step (record : EmergencyRecord) : (importEmergency E d record).Keeps (FleetStep Quiet) :=
  importEmergency_fleet record fun _ => ⟨⟨⟨rfl, rfl, rfl, rfl⟩, rfl⟩, nofun, .inl rfl⟩

theorem commit_step [Std.Refl P] {α : Type}
    {t : Sql α} (h : t.Keeps (FleetStep P)) (db : Db) : FleetStep P db (t.commit db).2 :=
  Batch.Keeps.commit h db

theorem beginServe_commit (E : Env) (requested : InstanceDocument) (hc : Coherent db) :
    ((Database.beginServe E requested).commit db).2 = db ∨
      ∃ i, Served requested i db ((Database.beginServe E requested).commit db).2 := by
  rcases (Database.beginServe E requested).commit_cases db with ⟨a, db', h, hcommit⟩ | ⟨e, _, hcommit⟩
  · rw [hcommit]
    rcases beginServe_inv hc h with ⟨_, rfl, _⟩ | ⟨i, _, hs⟩
    · exact .inl rfl
    · exact .inr ⟨i, hs⟩
  · rw [hcommit]; exact .inl rfl

theorem beginServe_named {requested : InstanceDocument} {a : AcceptedInstance}
    (hc : Coherent db) (h : ((Database.beginServe E requested).commit db).1 = .ok a) :
    a.inst.name = requested.name := by
  rcases (Database.beginServe E requested).commit_cases db with ⟨a', db', hrun, hcommit⟩ | ⟨e, _, hcommit⟩
  · rw [hcommit] at h
    cases h
    rcases beginServe_inv hc hrun with ⟨_, _, id, row, hrow, hname, ha, _⟩ | ⟨i, rfl, hs⟩
    · rw [ha, (hc.rows _ _ hrow).name_eq, hname]
    · exact hs.name
  · rw [hcommit] at h; cases h

structure Calm (i j : InstanceDocument) : Prop extends i.SameIdentity j where
  desired : j.desired = .running → i.desired = .running

instance : Std.Refl Calm := ⟨fun _ => ⟨⟨rfl, rfl, rfl, rfl⟩, fun h => h⟩⟩

instance : IsTrans _ Calm where
  trans _ _ _ h1 h2 := ⟨⟨h2.id.trans h1.id, h2.name.trans h1.name, h2.modelId.trans h1.modelId,
    h2.generation.trans h1.generation⟩, fun h => h1.desired (h2.desired h)⟩

theorem SameIntent.calm (h : SameIntent i j) : Calm i j :=
  ⟨h.toSameIdentity, fun hr => h.desired ▸ hr⟩

theorem Stops.calm (h : Database.Stops i j) : Calm i j := by
  rcases h with rfl | rfl
  · exact Std.Refl.refl _
  · exact ⟨⟨rfl, rfl, rfl, rfl⟩, nofun⟩

/-- `P` relates a document to each one written over it, except by `begin_serve` and
`reconcile_quarantine`. -/
structure Writes (P : InstanceDocument → InstanceDocument → Prop) : Prop where
  observe : ∀ now observed endpoint failure startup i, P i (observe now observed endpoint failure startup i)
  stop : ∀ i, P i (stoppingIntent i)
  restart : ∀ failures i, P i (restartFailed failures i)
  quarantine : ∀ cause i, P i (quarantined cause i)
  shed : ∀ cause i, P i (shed cause i)

theorem Command.run_writes [Std.Refl P] [IsTrans _ P]
    (hP : Writes P) (E : Env) (d : Draw) (hserve : ∀ inst, c ≠ .beginServe inst)
    (hreconcile : ∀ evidence, c ≠ .reconcileQuarantine evidence) (db : Db) :
    FleetStep P db (c.run E d db) := by
  cases hel : c.elsewhere with
  | true => exact c.run_fleetStep hel db
  | false =>
    cases c <;> try (cases hel; done)
    case beginServe inst => exact absurd rfl (hserve inst)
    case reconcileQuarantine evidence => exact absurd rfl (hreconcile evidence)
    case setInstanceObserved =>
      exact commit_step (setInstanceObserved_fleet _ _ _ _ _ _ (hP.observe _ _ _ _ _)) db
    case beginStop => exact commit_step (beginStop_fleet _ hP.stop) db
    case recordRestartFailure => exact commit_step (recordRestartFailure_fleet _ _ _ hP.restart) db
    case markQuarantine => exact commit_step (markQuarantine_fleet _ _ (hP.quarantine _)) db
    case importEmergency => exact importEmergency_fleet _ (hP.shed _) db

theorem writes_calm : Writes Calm where
  observe _ _ _ _ _ _ := ⟨⟨rfl, rfl, rfl, rfl⟩, fun h => h⟩
  stop _ := ⟨⟨rfl, rfl, rfl, rfl⟩, nofun⟩
  restart _ _ := ⟨⟨rfl, rfl, rfl, rfl⟩, fun h => h⟩
  quarantine _ _ := ⟨⟨rfl, rfl, rfl, rfl⟩, fun h => h⟩
  shed _ _ := ⟨⟨rfl, rfl, rfl, rfl⟩, fun h => h⟩

theorem Command.run_calm (E : Env) (d : Draw) (hc : ∀ inst, c ≠ .beginServe inst) (db : Db) :
    FleetStep Calm db (c.run E d db) := by
  by_cases hq : ∃ evidence, c = .reconcileQuarantine evidence
  · obtain ⟨evidence, rfl⟩ := hq
    exact (commit_step (reconcileQuarantine_step evidence) db).mono fun _ _ h => h.toSameIntent.calm
  · exact Command.run_writes writes_calm E d hc (fun evidence e => hq ⟨evidence, e⟩) db

theorem Command.run_coherent (E : Env) (d : Draw) (c : Command) (hdb : Coherent db) : Coherent (c.run E d db) := by
  by_cases hc : ∃ inst, c = .beginServe inst
  · obtain ⟨inst, rfl⟩ := hc
    have hrun : Command.run E d db (.beginServe inst) = ((Database.beginServe E inst).commit db).2 := rfl
    rcases beginServe_commit E inst hdb with h | ⟨i, h⟩
    · rw [hrun, h]; exact hdb
    · rw [hrun]; exact h.coherent hdb
  · exact (c.run_calm E d (fun inst e => hc ⟨inst, e⟩) db hdb).1

theorem coherent_empty : Coherent {} where
  rows _ _ h := nomatch h
  names _ _ _ _ h := nomatch h

theorem coherent_actorLoop (E : Env) (cmds : List (Draw × Command)) : Coherent (actorLoop E {} cmds) :=
  actorLoop_keeps (R := Preserves Coherent) (fun d c _ => c.run_coherent E d) cmds {} coherent_empty

/-! ## Stopped means settled -/

def InstanceDocument.Settled (i : InstanceDocument) : Prop :=
  i.desired = .stopped → i.healthy = false ∧ i.endpoint = none

def Settled (db : Db) : Prop := ∀ id row, db.instances.get? id = some row → row.metadata.Settled

theorem Quiet.settled (h : Quiet i j) (hi : i.Settled) : j.Settled := by
  intro hs
  obtain ⟨hh, he⟩ := hi (h.desired ▸ hs)
  refine ⟨?_, ?_⟩
  · cases hj : j.healthy with
    | false => rfl
    | true => rw [h.healthy hj] at hh; cases hh
  · rcases h.endpoint with e | e
    · exact e
    · rw [e, he]

theorem Stops.settled (h : Database.Stops i j) (hi : i.Settled) : j.Settled := by
  rcases h with rfl | rfl
  · exact hi
  · exact fun _ => ⟨rfl, rfl⟩

theorem FleetStep.settled (h : FleetStep P db db') (hP : ∀ {i j}, P i j → i.Settled → j.Settled) (hc : Coherent db)
    (hs : Settled db) : Settled db' := by
  intro id row' hr'
  obtain ⟨row, hr, hp⟩ := h.doc hc hr'
  exact hP hp (hs id row hr)

def observedWhileRunning (db : Db) : Command → Bool
  | .setInstanceObserved id generation .healthy _ _ _ =>
    match db.readInstanceTx id with
    | .ok i => i.generation ≠ generation || i.desired = .running
    | .error _ => true
  | _ => true

/-- The callers of `set_instance_observed` pass an endpoint with `Healthy` and
with nothing else. -/
def endpointWhenHealthy : Command → Bool
  | .setInstanceObserved _ _ observed endpoint _ _ => decide (observed = .healthy) == endpoint.isSome
  | _ => true

theorem observed_settled {id : String} {generation : Nat}
    {observed : InstanceObservedState} {endpoint failure : Option String} {startup : Option Nat}
    (hc : Coherent db) (hs : Settled db)
    (hcaller : endpointWhenHealthy (.setInstanceObserved id generation observed endpoint failure startup))
    (hrun : observedWhileRunning db (.setInstanceObserved id generation observed endpoint failure startup))
    (h : setInstanceObserved d id generation observed endpoint failure startup db = .ok (i, db')) :
    Settled db' := by
  obtain ⟨r, hr, hg, rfl, hput⟩ := setInstanceObserved_inv h
  have hread : db.readInstanceTx id = .ok r.2.metadata := by rw [Db.readInstanceTx_eq, hr]
  have hfound := (Db.lookup_some hr).1
  have hrow : db.instances.get? (observe d.now observed endpoint failure startup r.2.metadata).id =
      some r.2 := (hc.rows _ _ hfound).id_eq ▸ hfound
  intro id' row' hr'
  rw [hput hc, Db.get?_put hrow] at hr'
  by_cases e : id' = (observe d.now observed endpoint failure startup r.2.metadata).id
  · rw [if_pos e] at hr'
    cases hr'
    intro hstop
    by_cases ho : observed = .healthy
    · subst ho
      have hrunning : r.2.metadata.desired = .running := by
        simpa [observedWhileRunning, hread, hg] using hrun
      have hstopped : r.2.metadata.desired = .stopped := hstop
      rw [hrunning] at hstopped
      cases hstopped
    · have hend : endpoint = none := by
        cases endpoint with
        | none => rfl
        | some e => simp [endpointWhenHealthy, ho] at hcaller
      exact ⟨decide_eq_false ho, hend⟩
  · rw [if_neg e] at hr'; exact hs id' row' hr'

theorem Command.run_settled (E : Env) (d : Draw) (hcaller : endpointWhenHealthy c)
    (hrun : observedWhileRunning db c) (hc : Coherent db) (hs : Settled db) :
    Coherent (c.run E d db) ∧ Settled (c.run E d db) := by
  have quiet : ∀ {db'}, FleetStep Quiet db db' → Coherent db' ∧ Settled db' :=
    fun h => ⟨(h hc).1, h.settled Quiet.settled hc hs⟩
  cases hel : c.elsewhere with
  | true => exact quiet (c.run_fleetStep hel db)
  | false =>
    cases c <;> try (cases hel; done)
    case beginServe requested =>
      rcases beginServe_commit E requested hc with h | ⟨i, h⟩
      · have : Command.run E d db (.beginServe requested) = db := h
        rw [this]; exact ⟨hc, hs⟩
      · refine ⟨h.coherent hc, fun id row hr => ?_⟩
        have hr' := hr
        rw [show Command.run E d db (.beginServe requested) =
          ((Database.beginServe E requested).commit db).2 from rfl, h.instances] at hr'
        by_cases e : id = i.id
        · rw [if_pos e] at hr'
          cases hr'
          exact nofun
        · rw [if_neg e] at hr'; exact hs id row hr'
    case setInstanceObserved id generation observed endpoint failure startup =>
      refine ⟨(commit_step (setInstanceObserved_step _ _ _ _ _ _) db hc).1, ?_⟩
      rcases (Database.setInstanceObserved d id generation observed endpoint failure startup).commit_cases db
        with ⟨i, db', h, hcommit⟩ | ⟨e, _, hcommit⟩
      · show Settled ((Database.setInstanceObserved _ _ _ _ _ _ _).commit db).2
        rw [hcommit]; exact observed_settled hc hs hcaller hrun h
      · show Settled ((Database.setInstanceObserved _ _ _ _ _ _ _).commit db).2
        rw [hcommit]; exact hs
    case beginStop reference =>
      have h := commit_step (beginStop_step reference) db
      exact ⟨(h hc).1, h.settled Stops.settled hc hs⟩
    case recordRestartFailure => exact quiet (commit_step (recordRestartFailure_step _ _ _) db)
    case markQuarantine => exact quiet (commit_step (markQuarantine_step _ _ _) db)
    case reconcileQuarantine => exact quiet (commit_step (reconcileQuarantine_step _) db)
    case importEmergency => exact quiet (importEmergency_step _ db)

theorem settled_run (E : Env) : ∀ (cmds : List (Draw × Command)) (db : Db),
    (∀ x ∈ cmds, endpointWhenHealthy x.2) → eachStep E (fun _ => observedWhileRunning) db cmds →
    Coherent db → Settled db → Settled (actorLoop E db cmds)
  | [], _, _, _, _, hs => hs
  | (d, c) :: rest, db, hcaller, hrun, hc, hs => by
    have hrun : (observedWhileRunning db c &&
        eachStep E (fun _ => observedWhileRunning) (c.run E d db) rest) = true := hrun
    rw [Bool.and_eq_true] at hrun
    obtain ⟨hc', hs'⟩ := c.run_settled E d (hcaller _ (List.mem_cons_self ..)) hrun.1 hc hs
    exact settled_run E rest _ (fun x hx => hcaller x (List.mem_cons_of_mem _ hx)) hrun.2 hc' hs'

theorem stopped_settled (E : Env) (cmds : List (Draw × Command))
    (hcaller : ∀ x ∈ cmds, endpointWhenHealthy x.2) (hrun : eachStep E (fun _ => observedWhileRunning) {} cmds) :
    Settled (actorLoop E {} cmds) :=
  settled_run E cmds {} hcaller hrun coherent_empty fun _ _ h => nomatch h

/-! ## Two runs of one instance -/

def exampleModel : ModelDocument where
  schema := "sparkplane.model/v1"
  id := "m_1"
  canonical := "huggingface:org/m@aaaaaaaaaaaaaaaaaaaaaaaaaaaaaaaaaaaaaaaa"
  repository := "org/m"
  commit := "aaaaaaaaaaaaaaaaaaaaaaaaaaaaaaaaaaaaaaaa"
  snapshot := "models--org--m/snapshots/aaaaaaaaaaaaaaaaaaaaaaaaaaaaaaaaaaaaaaaa"
  artifacts := some exampleArtifacts
  logicalBytes := 8
  uniqueBytes := 8
  aliases := ["m"]
  activeInstances := []
  transport := "fixture"
  verifiedAt := 0
  gated := false
  license := none

def modelExists : List (Draw × Command) := [({}, .promoteModel exampleModel false)]

def exampleInstance : InstanceDocument where
  schema := instanceSchema
  id := "i_62c66a7a5dd70c3146618063c344e531"
  name := "m"
  modelId := "m_1"
  model := "org/m"
  modelCommit := "aaaaaaaaaaaaaaaaaaaaaaaaaaaaaaaaaaaaaaaa"
  engineId := "engine"
  engineFingerprint := "sha256:e3b0c44298fc1c149afbf4c8996fb92427ae41e4649b934ca495991b7852b855"
  artifacts := exampleArtifacts
  artifactFingerprint := "sha256:12502fe575efbe3c7b917cc9dcc3cc02300c81a5552b8ee5607562a746432bcb"
  objective := "agent"
  resources := ⟨0, 8, 8, 0⟩
  contextWindow := 4096
  defaultReasoningEffort := none
  generation := 0
  desired := .running
  observed := .absent
  endpoint := none
  healthy := false
  startedAt := none
  startupMilliseconds := none
  lastFailure := none
  restartFailures := 0
  restartSuppressed := false
  quarantine := none

def served : List (Draw × Command) :=
  [({ now := 1 }, .promoteModel exampleModel false), ({ now := 2 }, .beginServe exampleInstance)]

def observedHealthy : Draw × Command :=
  ({ now := 3 }, .setInstanceObserved exampleInstance.id 1 .healthy (some "/openai/m/v1") none none)

def stopped : Draw × Command := ({ now := 4 }, .beginStop "m")

theorem stopped_settled_in_order : Settled (actorLoop exampleEnv {} (served ++ [observedHealthy, stopped])) :=
  stopped_settled exampleEnv _ (by decide +kernel) (by decide +kernel)

/-- The engine's last report arrives after the stop. -/
theorem late_observation_unsettles : (∀ x ∈ served ++ [stopped, observedHealthy], endpointWhenHealthy x.2) ∧
    ∃ row, (actorLoop exampleEnv {} (served ++ [stopped, observedHealthy])).instances.get?
        exampleInstance.id = some row ∧
      row.metadata.desired = .stopped ∧ row.metadata.healthy = true ∧
      row.metadata.endpoint = some "/openai/m/v1" := by
  have h : ((actorLoop exampleEnv {} (served ++ [stopped, observedHealthy])).instances.get?
      exampleInstance.id).any (fun row => row.metadata.desired = .stopped && row.metadata.healthy &&
        row.metadata.endpoint = some "/openai/m/v1") = true := by decide +kernel
  obtain ⟨row, hrow, hp⟩ := (Option.any_eq_true _ _).mp h
  simp only [Bool.and_eq_true, decide_eq_true_eq] at hp
  exact ⟨by decide +kernel, row, hrow, hp.1.1, hp.1.2, hp.2⟩

end Sparkplane

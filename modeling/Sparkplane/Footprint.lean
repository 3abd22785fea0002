import Sparkplane.LogSound
import Sparkplane.IntentSound
import Sparkplane.Agent

/-!
# What each task can do

Which effects `run_serve` and a reconciliation pass perform, whatever they are
answered. The lemmas are about any property `G` of programs that sequences
keep, so that they serve a plain list of effects as well as a specification.
-/

namespace Sparkplane

variable {e : Eff} {leaseId : String}

def Eff.beginsServe (e : Eff) : Bool :=
  match e.writes with
  | some (.beginServe _) => true
  | _ => false

theorem Eff.calm {S : Site} (h : e.beginsServe = false) (t : Turn Oracle) (w : World) :
    FleetStep Calm w.db (e.after S t w).db := by
  show FleetStep Calm w.db (e.onDb S.env t.oracle.draw w.db)
  unfold Eff.onDb
  cases hw : e.writes with
  | none => exact Std.Refl.refl _
  | some c =>
    have hne : ∀ inst, c ≠ .beginServe inst := by
      rintro inst rfl
      simp [Eff.beginsServe, hw] at h
    exact c.run_calm S.env t.oracle.draw hne w.db

def World.operation (o : String) (w : World) : Option OperationState :=
  (w.db.operations.get? o).map OperationRow.state

def Ended (o : String) (w : World) : Prop :=
  ∃ op, w.db.operations.get? o = some op ∧ op.state.isTerminal = true

theorem Eff.opStep (S : Site) (t : Turn Oracle) (e : Eff) (w : World) : OpStep w.db (e.after S t w).db := by
  show OpStep w.db (e.onDb S.env t.oracle.draw w.db)
  unfold Eff.onDb
  cases e.writes with
  | none => exact Std.Refl.refl _
  | some c => exact c.run_opStep S.env t.oracle.draw w.db

def Started (o : String) (w : World) : Prop := ∃ s, w.operation o = some s ∧ s ≠ .accepted

section
variable {S : Site} {o : String} {w w' : World}

theorem Ended.log (h : OpStep w.db w'.db) (hw : Ended o w) : Ended o w' := by
  obtain ⟨op, hop, ht⟩ := hw
  obtain ⟨op', hop', hf⟩ := h o op hop
  rw [hf.terminal ht] at hop'
  exact ⟨op, hop', ht⟩

theorem Started.log (h : OpStep w.db w'.db) (hw : Started o w) : Started o w' := by
  obtain ⟨s, hs, hne⟩ := hw
  obtain ⟨op, hop, rfl⟩ := Option.map_eq_some_iff.mp hs
  obtain ⟨op', hop', hf⟩ := h o op hop
  exact ⟨op'.state, Option.map_eq_some_iff.mpr ⟨op', hop', rfl⟩, hf.started hne⟩

theorem started_transition {progress : OperationProgress} {result : Option Json}
    {problem : Option ProblemDocument} {turn : Turn Oracle} {a : OperationDocument}
    (h : (Eff.command (.transition o .running progress result problem)).answer S turn w = .ok a) :
    Started o ((Eff.command (.transition o .running progress result problem)).after S turn w) := by
  obtain ⟨row, hrow, hs⟩ := Database.transition_ok h
  refine ⟨row.state, Option.map_eq_some_iff.mpr ⟨row, hrow, rfl⟩, ?_⟩
  rw [hs]
  nofun

end

def Eff.single (e : Eff) : Bool := e.writes.all Command.single

def Eff.moves (e : Eff) : Option (String × OperationState) := e.writes.bind Command.moves

theorem Eff.operation {S : Site} (h : e.single = true) (t : Turn Oracle) (w : World) (o : String) :
    (e.after S t w).db.operations.get? o = w.db.operations.get? o ∨ ∃ c, e.writes = some c ∧
        OpChange c o (w.db.operations.get? o) ((e.after S t w).db.operations.get? o) := by
  show (e.onDb S.env t.oracle.draw w.db).operations.get? o = _ ∨
    ∃ c, _ ∧ OpChange c o _ ((e.onDb S.env t.oracle.draw w.db).operations.get? o)
  unfold Eff.onDb
  cases hw : e.writes with
  | none => exact .inl rfl
  | some c =>
    refine .inr ⟨c, rfl, c.run_operation S.env t.oracle.draw ?_ o w.db⟩
    simpa [Eff.single, hw] using h

def serveEff (operationId : String) (inst : InstanceDocument) : Eff → Prop
  | .query _ | .lookup _ => True
  | .outside (.stopInstance input) => input.instanceId = inst.id ∧ input.generation = inst.generation
  | .outside _ => True
  | .command (.transition id ..) => id = operationId
  | .command (.beginStop reference) => reference = inst.id
  | .command (.setInstanceObserved id generation ..) => id = inst.id ∧ generation = inst.generation
  | .publish name .. => name = inst.name
  | .drain name generation => name = inst.name ∧ generation = inst.generation
  | _ => False

def prehealthEff (operationId : String) (inst : InstanceDocument) : Eff → Prop
  | .query _ => True
  | .outside (.stopInstance input) => input.instanceId = inst.id ∧ input.generation = inst.generation
  | .outside (.promoteRestart _) | .outside .elapsedMillis => False
  | .outside _ => True
  | .command (.transition id next ..) => id = operationId ∧ (next = .running ∨ next = .failed)
  | .command (.beginStop reference) => reference = inst.id
  | .command (.setInstanceObserved id generation observed ..) =>
    (id = inst.id ∧ generation = inst.generation) ∧ observed ≠ .healthy
  | .drain name generation => name = inst.name ∧ generation = inst.generation
  | _ => False

theorem prehealthEff.serve {operationId : String} {inst : InstanceDocument}
    (h : prehealthEff operationId inst e) : serveEff operationId inst e := by
  cases e with
  | outside c => cases c <;> trivial
  | command c => cases c <;> first | exact h.1 | exact h
  | _ => first | exact h | cases h

def reconcileLeaseId (leaseId : String) : Prop :=
  (∃ inst, leaseId = reconcileLease inst) ∨ ∃ container, leaseId = "reconcile-quarantine:" ++ container

def reconcileEff : Eff → Prop
  | .query _ | .lookup _ | .outside _ => True
  | .command (.setInstanceObserved ..) | .command (.recordRestartFailure ..)
  | .command (.markQuarantine ..) | .command (.reconcileQuarantine _) => True
  | .markWarming .. | .publish .. | .drain .. => True
  | .tryAcquire leaseId | .release leaseId => reconcileLeaseId leaseId
  | _ => False

def reconcileBase : Eff → Prop
  | .outside (.startPrepared _) | .publish .. => False
  | e => reconcileEff e

def reconcileCalm : Eff → Prop
  | .command (.recordRestartFailure ..) | .command (.setInstanceObserved _ _ .healthy _ _ _) => False
  | e => reconcileBase e

theorem reconcileCalm.base (he : reconcileCalm e) : reconcileBase e := by
  unfold reconcileCalm at he
  split at he
  · cases he
  · cases he
  · exact he

theorem reconcileBase.eff (he : reconcileBase e) : reconcileEff e := by
  unfold reconcileBase at he
  split at he
  · cases he
  · cases he
  · exact he

theorem reconcileCalm.eff (he : reconcileCalm e) : reconcileEff e := he.base.eff

theorem reconcileEff.plain (he : reconcileEff e) :
    (e.beginsServe = false ∧ e.single = true ∧ e.starts = none) ∧ e.moves = none := by
  cases e with
  | command c => cases c <;> first | exact ⟨⟨rfl, rfl, rfl⟩, rfl⟩ | cases he
  | _ => first | exact ⟨⟨rfl, rfl, rfl⟩, rfl⟩ | cases he

section
variable {G : (α : Type) → Act α → Prop} (hG : Prog.Closed G) {S : Site} {operationId : String}
  {inst : InstanceDocument}

include hG

theorem withLease_closed {α : Type} {busy : α} {body : Act α}
    (hacquire : G _ (perform (.tryAcquire leaseId))) (hrelease : G _ (perform (.release leaseId)))
    (hbody : G _ body) : G _ (withLease leaseId busy body) := by
  refine hG.bind hacquire fun held => ?_
  split
  · exact hG.bind hbody fun _ => hG.bind hrelease fun _ => hG.ret _
  · exact hG.ret _

theorem waitUntilEngineReady_closed {route : ObservedRoute} {interrupt : Act Bool}
    (hinterrupt : G _ interrupt) (hready : G _ (outside (.healthReady route))) :
    ∀ n, G _ (waitUntilEngineReady route interrupt n)
  | 0 => by
    refine hG.bind hinterrupt fun stop => ?_
    split
    · exact hG.ret _
    · exact hready
  | n + 1 => by
    refine hG.bind hinterrupt fun stop => ?_
    split
    · exact hG.ret _
    · refine hG.bind hready fun ready => ?_
      split
      · exact hG.ret _
      · exact waitUntilEngineReady_closed hinterrupt hready n

theorem projectRouteHealth_closed (hlook : ∀ name, G _ (perform (.lookup name))) : G _ (projectRouteHealth inst) := by
  unfold projectRouteHealth
  split
  · exact hG.ret _
  · refine hG.bind (hlook _) fun found => ?_
    cases found with
    | healthy route => dsimp only; split <;> exact hG.ret _
    | missing => exact hG.ret _
    | warming => exact hG.ret _

/-! ## `run_serve` -/

section
variable (heff : ∀ e, prehealthEff operationId inst e → G _ (perform e))
include heff

theorem serveCancelled_closed : G _ (serveCancelled operationId) := by
  refine hG.bind (heff (.query _) trivial) fun r => ?_
  cases r <;> exact hG.ret _

theorem instanceStopped_closed (id : String) : G _ (instanceStopped id) := by
  refine hG.bind (heff (.query _) trivial) fun r => ?_
  cases r <;> exact hG.ret _

theorem cancelPrehealthServe_closed : G _ (cancelPrehealthServe inst) :=
  hG.bind (heff (.command (.beginStop inst.id)) rfl) fun _ =>
    hG.bind (heff (.outside (.stopInstance _)) ⟨rfl, rfl⟩) fun _ =>
    hG.bind (heff (.command (.setInstanceObserved ..)) ⟨⟨rfl, rfl⟩, nofun⟩) fun _ => hG.ret _

theorem failServe_closed (detail : String) : G _ (failServe operationId inst detail) :=
  hG.bind (heff (.drain ..) ⟨rfl, rfl⟩) fun _ =>
    hG.bind (heff (.outside (.logs _)) trivial) fun _ =>
    hG.bind (heff (.outside (.stopInstance _)) ⟨rfl, rfl⟩) fun _ =>
    hG.bind (heff (.command (.beginStop _)) rfl) fun _ =>
    hG.bind (heff (.command (.setInstanceObserved ..)) ⟨⟨rfl, rfl⟩, nofun⟩) fun _ =>
    hG.bind (heff (.command (.transition ..)) ⟨rfl, .inr rfl⟩) fun _ => hG.ret _

theorem readinessTriggered_closed : G _ (readinessTriggered operationId inst) := by
  refine hG.bind (serveCancelled_closed hG heff) fun cancelled => ?_
  split
  · exact hG.ret _
  · refine hG.bind (instanceStopped_closed hG heff _) fun stopped => ?_
    split
    · exact hG.ret _
    · refine hG.bind (heff (.outside (.inspectInstance _)) trivial) fun r => ?_
      cases r <;> exact hG.ret _

theorem probeReadiness_closed (observed : ObservedEngine) : G _ (probeReadiness S operationId inst observed) := by
  unfold probeReadiness
  cases observedRoute S observed with
  | none => exact hG.ret _
  | some route =>
    refine hG.bind (heff (.outside .polls) trivial) fun n => ?_
    refine hG.bind (waitUntilEngineReady_closed hG (readinessTriggered_closed hG heff)
      (heff (.outside (.healthReady _)) trivial) n) fun ready => ?_
    split <;> exact hG.ret _

theorem probeSemantics_closed (observed : ObservedEngine) (ready : Option ObservedRoute) :
    G _ (probeSemantics observed ready) := by
  cases ready with
  | none => exact hG.ret _
  | some route =>
    refine hG.bind (heff (.outside (.semanticProbe ..)) trivial) fun r => ?_
    cases r <;> exact hG.ret _

theorem cancelAndReturn_closed {α : Type} (a : α) :
    G _ (do cancelPrehealthServe inst; return a : Act α) :=
  hG.bind (cancelPrehealthServe_closed hG heff) fun _ => hG.ret _

theorem unlessCancelled_closed {α : Type} {a : α} {k : Act α} (hk : G _ k) :
    G _ (do if ← serveCancelled operationId then cancelPrehealthServe inst; return a else k) := by
  refine hG.bind (serveCancelled_closed hG heff) fun cancelled => ?_
  split
  · exact cancelAndReturn_closed hG heff _
  · exact hk

theorem failAndReturn_closed {α : Type} (detail : String) (a : α) :
    G _ (do failServe operationId inst detail; return a : Act α) :=
  hG.bind (failServe_closed hG heff detail) fun _ => hG.ret _

theorem awaitReady_closed (observed : ObservedEngine) : G _ (awaitReady S operationId inst observed) := by
  refine hG.bind (probeReadiness_closed hG heff observed) fun ready => ?_
  refine hG.bind (instanceStopped_closed hG heff _) fun stopped => ?_
  split
  · exact hG.ret _
  refine unlessCancelled_closed hG heff ?_
  refine hG.bind (probeSemantics_closed hG heff observed ready) fun failure => ?_
  split
  · exact unlessCancelled_closed hG heff (hG.ret _)
  · exact hG.bind (heff (.drain ..) ⟨rfl, rfl⟩) fun _ => failAndReturn_closed hG heff _ _

theorem createEngine_closed : G _ (createEngine S operationId inst) := by
  refine unlessCancelled_closed hG heff ?_
  refine hG.bind (heff (.outside (.prepareInstance _)) trivial) fun r => ?_
  cases r with
  | error e => exact failAndReturn_closed hG heff _ _
  | ok prepared =>
    refine unlessCancelled_closed hG heff ?_
    refine hG.bind (heff (.command (.transition ..)) ⟨rfl, .inl rfl⟩) fun r => ?_
    cases r with
    | error e => exact hG.ret _
    | ok _ =>
      refine hG.bind (heff (.outside (.startPrepared _)) trivial) fun r => ?_
      cases r with
      | error e => exact failAndReturn_closed hG heff _ _
      | ok observed =>
        refine unlessCancelled_closed hG heff ?_
        split
        · exact failAndReturn_closed hG heff _ _
        · exact hG.ret _

theorem startEngine_closed : G _ (startEngine S operationId inst) := by
  refine hG.bind (heff (.outside (.acquireOwned _)) trivial) fun slot => ?_
  split
  · refine hG.bind (heff (.command (.transition ..)) ⟨rfl, .inl rfl⟩) fun r => ?_
    cases r with
    | error e => exact hG.ret _
    | ok _ => exact createEngine_closed hG heff
  · exact failAndReturn_closed hG heff _ _

end

section
variable (heff : ∀ e, serveEff operationId inst e → G _ (perform e))
include heff

theorem finishServe_closed (hreconcile : G _ (reconcileOnce S)) (observed : ObservedEngine)
    (route : ObservedRoute) : G _ (finishServe S operationId inst observed route) := by
  refine hG.bind (heff (.outside (.promoteRestart _)) trivial) fun r => ?_
  cases r with
  | error e => exact failServe_closed hG (fun e he => heff e he.serve) _
  | ok _ =>
    refine hG.bind (heff (.outside .elapsedMillis) trivial) fun startup => ?_
    refine hG.bind (heff (.command (.setInstanceObserved ..)) ⟨rfl, rfl⟩) fun r => ?_
    cases r with
    | error e => exact failServe_closed hG (fun e he => heff e he.serve) _
    | ok healthy =>
      refine hG.bind (heff (.publish ..) rfl) fun _ => ?_
      refine hG.bind (projectRouteHealth_closed hG fun _ => heff (.lookup _) trivial) fun healthy => ?_
      exact hG.bind (hG.bind (heff (.command (.transition ..)) rfl) fun _ => hG.ret _) fun _ => hreconcile

theorem serveEngine_closed (hreconcile : G _ (reconcileOnce S)) : G _ (serveEngine S operationId inst) := by
  refine hG.bind (startEngine_closed hG fun e he => heff e he.serve) fun started => ?_
  cases started with
  | none => exact hG.ret _
  | some observed =>
    refine hG.bind (awaitReady_closed hG (fun e he => heff e he.serve) observed) fun ready => ?_
    cases ready with
    | none => exact hG.ret _
    | some route => exact finishServe_closed hG heff hreconcile observed route

end

/-! ## Reconciliation -/

def recordAndRestart (S : Site) (operations : List OperationDocument) (inst : InstanceDocument) : Act Bool := do
  let now ← outside .unixMillis
  match ← command (.recordRestartFailure inst.id inst.generation (now / 1000)) with
  | .error _ => return false
  | .ok failed => restartEngine S operations inst failed

section
variable (hcalm : ∀ e, reconcileCalm e → G _ (perform e))
include hcalm

theorem persistentRestartAllowed_closed : G _ persistentRestartAllowed := by
  refine hG.bind (hcalm (.outside .snapshot) trivial) fun r => ?_
  cases r with
  | error e => exact hG.ret _
  | ok snapshot =>
    refine hG.bind (hcalm (.query .desiredResourceEnvelopes) trivial) fun r => ?_
    cases r with
    | error e => exact hG.ret _
    | ok desired =>
      dsimp only
      split
      · exact hG.ret _
      · exact hG.bind (hcalm (.outside .unixMillis) trivial) fun _ => hG.ret _

theorem disableAndRecord_closed
    (hfailure : ∀ second, G _ (perform (.command (.recordRestartFailure inst.id inst.generation second)))) :
    G _ (disableAndRecord inst) := by
  refine hG.bind (hcalm (.outside (.disableRestart _)) trivial) fun _ => ?_
  refine hG.bind (hcalm (.outside .unixMillis) trivial) fun now => ?_
  refine hG.bind (hfailure _) fun r => ?_
  cases r <;> exact hG.ret _

theorem engineAnswers_closed (route : ObservedRoute) (observed : ObservedEngine) :
    G _ (engineAnswers route observed) := by
  refine hG.bind (hcalm (.outside .polls) trivial) fun n => ?_
  refine hG.bind (waitUntilEngineReady_closed hG (hG.ret _) (hcalm (.outside (.healthReady _)) trivial) n)
    fun ready => ?_
  split
  · refine hG.bind (hcalm (.outside (.semanticProbe ..)) trivial) fun r => ?_
    cases r <;> exact hG.ret _
  · exact hG.ret _

theorem promoteIfNeeded_closed (inst : InstanceDocument) (observed : ObservedEngine) :
    G _ (promoteIfNeeded inst observed) := by
  unfold promoteIfNeeded
  split
  · exact hG.ret _
  · refine hG.bind (hcalm (.outside (.promoteRestart _)) trivial) fun r => ?_
    cases r <;> exact hG.ret _

theorem isPublished_closed (inst : InstanceDocument) (observed : ObservedEngine) : G _ (isPublished inst observed) := by
  unfold isPublished
  split
  · refine hG.bind (hcalm (.lookup _) trivial) fun found => ?_
    cases found <;> exact hG.ret _
  · exact hG.ret _

theorem reconcileRunningEngine_of {observed : ObservedEngine}
    (hfailure : ∀ second, G _ (perform (.command (.recordRestartFailure inst.id inst.generation second))))
    (hpublish : ∀ route, observedRoute S observed = some route → G _ (publishEngine inst observed route)) :
    G _ (reconcileRunningEngine S inst observed) := by
  refine hG.bind (isPublished_closed hG hcalm inst observed) fun published => ?_
  split
  · exact hG.ret _
  refine hG.bind (hcalm (.markWarming ..) trivial) fun _ => ?_
  split
  · exact disableAndRecord_closed hG hcalm hfailure
  refine hG.bind (persistentRestartAllowed_closed hG hcalm) fun allowed => ?_
  match allowed with
  | none => exact hG.ret _
  | some false =>
    dsimp only
    split
    · exact hG.ret _
    · exact hG.bind (hcalm (.outside (.disableRestart _)) trivial) fun _ => hG.ret _
  | some true =>
    dsimp only
    split
    · exact hG.ret _
    cases hroute : observedRoute S observed with
    | none => exact hG.ret _
    | some route =>
      refine hG.bind (engineAnswers_closed hG hcalm route observed) fun answers => ?_
      split
      · exact disableAndRecord_closed hG hcalm hfailure
      refine hG.bind (promoteIfNeeded_closed hG hcalm inst observed) fun promoted => ?_
      split
      · exact hpublish route hroute
      · exact hG.ret _

theorem restartMissing_of {operations : List OperationDocument} (observed : Option ObservedEngine)
    (hrecord : G _ (recordAndRestart S operations inst)) : G _ (restartMissing S operations inst observed) := by
  refine hG.bind (hcalm (.markWarming ..) trivial) fun _ => ?_
  refine hG.bind (persistentRestartAllowed_closed hG hcalm) fun allowed => ?_
  match allowed with
  | none => exact hG.ret _
  | some false => exact hG.ret _
  | some true =>
    have hexited : G _ (removeExited inst observed) := by
      cases observed with
      | none => exact hG.ret _
      | some engine =>
        refine hG.bind (hcalm (.outside (.stopInstance _)) trivial) fun r => ?_
        cases r <;> exact hG.ret _
    refine hG.bind hexited fun removed => ?_
    split
    · exact hrecord
    · exact hG.ret _

theorem reconcileInstances_of {operations : List OperationDocument} (engines : List ObservedEngine) :
    ∀ instances : List InstanceDocument,
    (∀ inst ∈ instances, G _ (reconcileInstance S (matchedEngine engines inst) operations inst)) →
    G _ (reconcileInstances S engines operations instances)
  | [], _ => hG.ret _
  | inst :: rest, hinst => by
    have hlease : reconcileLeaseId (reconcileLease inst) := .inl ⟨inst, rfl⟩
    refine hG.bind (withLease_closed hG (hcalm (.tryAcquire _) hlease) (hcalm (.release _) hlease)
      (hinst inst (List.mem_cons_self ..))) fun go => ?_
    split
    · exact reconcileInstances_of engines rest fun i hi => hinst i (List.mem_cons_of_mem _ hi)
    · exact hG.ret _

variable {operations : List OperationDocument}
  (hcomplete : ∀ inst kind, G _ (completeRecoveredOperation S operations inst kind))
include hcomplete

theorem settleStopped_closed (inst : InstanceDocument) : G _ (settleStopped S operations inst) := by
  refine hG.bind (hcalm (.command (.setInstanceObserved ..)) trivial) fun r => ?_
  cases r with
  | error e => exact hG.ret _
  | ok _ =>
    exact hG.bind (hcalm (.drain ..) trivial) fun _ => hG.bind (hcomplete _ _) fun _ => hG.ret _

omit hG hcalm hcomplete in
theorem decide_stopped (observed : Option ObservedEngine) (suppressed : Bool) :
    ReconcileAction.decide .stopped (validatedObservation observed) suppressed = .stopExact ∨
      ReconcileAction.decide .stopped (validatedObservation observed) suppressed = .markAbsent := by
  cases observed with
  | none => exact .inr rfl
  | some engine =>
    unfold validatedObservation
    dsimp only
    split <;> exact .inl rfl

omit hG hcalm hcomplete in
theorem decide_suppressed (observed : Option ObservedEngine) :
    ReconcileAction.decide .running (validatedObservation observed) true = .stopExact ∨
      ReconcileAction.decide .running (validatedObservation observed) true = .keepSuppressed := by
  cases observed with
  | none => exact .inr rfl
  | some engine =>
    unfold validatedObservation
    dsimp only
    split <;> exact .inl rfl

theorem reconcileInstance_of (observed : Option ObservedEngine)
    (hrunning : inst.desired = .running → inst.restartSuppressed = false → ∀ engine, observed = some engine →
      G _ (reconcileRunningEngine S inst engine))
    (hrecord : inst.desired = .running → inst.restartSuppressed = false →
      G _ (recordAndRestart S operations inst)) : G _ (reconcileInstance S observed operations inst) := by
  unfold reconcileInstance
  split
  · refine hG.bind (hcalm (.outside (.stopInstance _)) trivial) fun r => ?_
    cases r with
    | ok _ => exact settleStopped_closed hG hcalm hcomplete inst
    | error e => exact hG.ret _
  · exact settleStopped_closed hG hcalm hcomplete inst
  · exact hG.ret _
  · rename_i hstop habsent hkeep
    have hdesired : inst.desired = .running := by
      cases hd : inst.desired with
      | running => rfl
      | stopped =>
        rcases decide_stopped observed inst.restartSuppressed with h | h
        · exact (hstop (hd ▸ h)).elim
        · exact (habsent (hd ▸ h)).elim
    have hlive : inst.restartSuppressed = false := by
      cases hs : inst.restartSuppressed with
      | false => rfl
      | true =>
        rw [hdesired, hs] at hstop hkeep
        rcases decide_suppressed observed with h | h
        · exact (hstop h).elim
        · exact (hkeep h).elim
    split
    · rename_i engine he
      have hengine : observed = some engine := by
        cases observed with
        | none => cases he
        | some o =>
          rw [Option.filter_some] at he
          split at he
          · exact he
          · cases he
      refine hG.bind (hrunning hdesired hlive engine hengine) fun done => ?_
      split
      · exact hG.bind (hcomplete _ _) fun _ => hG.ret _
      · exact hG.ret _
    · exact restartMissing_of hG hcalm observed (hrecord hdesired hlive)

omit hcomplete in
theorem markAllQuarantined_closed : ∀ evidence, G _ (markAllQuarantined evidence)
  | [] => hG.ret _
  | q :: rest => by
    have hlease : reconcileLeaseId ("reconcile-quarantine:" ++ q.containerId) := .inr ⟨_, rfl⟩
    have hmark : G _ (markQuarantined q) := by
      unfold markQuarantined
      split
      · exact hG.bind (hcalm (.command (.markQuarantine ..)) trivial) fun _ => hG.ret _
      · exact hG.ret _
    exact hG.bind (withLease_closed hG (hcalm (.tryAcquire _) hlease) (hcalm (.release _) hlease) hmark)
      fun _ => markAllQuarantined_closed rest

end

section
variable (heff : ∀ e, reconcileEff e → G _ (perform e))
include heff

theorem reconcileRunningEngine_closed (inst : InstanceDocument) (observed : ObservedEngine) :
    G _ (reconcileRunningEngine S inst observed) := by
  refine reconcileRunningEngine_of hG (fun e he => heff e he.eff)
    (fun _ => heff (.command (.recordRestartFailure ..)) trivial) fun route _ => ?_
  refine hG.bind (heff (.command (.setInstanceObserved ..)) trivial) fun r => ?_
  cases r with
  | error e => exact hG.ret _
  | ok _ => exact hG.bind (heff (.publish ..) trivial) fun _ => hG.ret _

variable {operations : List OperationDocument}
  (hcomplete : ∀ inst kind, G _ (completeRecoveredOperation S operations inst kind))
include hcomplete

theorem restartEngine_closed (inst failed : InstanceDocument) : G _ (restartEngine S operations inst failed) := by
  unfold restartEngine
  split
  · exact hG.ret _
  cases operations.find? fun o => o.kind = "instance.serve" && o.target = some inst.name with
  | none => exact hG.ret _
  | some operation =>
    refine hG.bind (heff (.outside (.prepareInstance _)) trivial) fun r => ?_
    cases r with
    | error e => exact hG.ret _
    | ok prepared =>
      refine hG.bind (heff (.outside (.startPrepared _)) trivial) fun r => ?_
      cases r with
      | error e => exact hG.ret _
      | ok engine =>
        refine hG.bind (reconcileRunningEngine_closed hG heff failed engine) fun done => ?_
        split
        · exact hG.bind (hcomplete _ _) fun _ => hG.ret _
        · exact hG.ret _

theorem recordAndRestart_closed (inst : InstanceDocument) : G _ (recordAndRestart S operations inst) := by
  refine hG.bind (heff (.outside .unixMillis) trivial) fun now => ?_
  refine hG.bind (heff (.command (.recordRestartFailure ..)) trivial) fun r => ?_
  cases r with
  | error e => exact hG.ret _
  | ok failed => exact restartEngine_closed hG heff hcomplete inst failed

theorem reconcileInstances_closed (engines : List ObservedEngine) (instances : List InstanceDocument) :
    G _ (reconcileInstances S engines operations instances) := by
  refine reconcileInstances_of hG (fun e he => heff e he.eff) engines instances fun inst _ => ?_
  refine reconcileInstance_of hG (fun e he => heff e he.eff) hcomplete _
    (fun _ _ engine _ => reconcileRunningEngine_closed hG heff inst engine) fun _ _ => ?_
  exact recordAndRestart_closed hG heff hcomplete inst

omit hcomplete in
theorem reconcileListed_closed
    (hcomplete : ∀ operations inst kind, G _ (completeRecoveredOperation S operations inst kind))
    (engines : List ObservedEngine) (instances : List InstanceDocument) :
    G _ (reconcileListed S engines instances) := by
  refine hG.bind (heff (.query .operationSummaries) trivial) fun r => ?_
  cases r with
  | error e => exact hG.ret _
  | ok operations => exact reconcileInstances_closed hG heff (hcomplete operations) _ instances

omit hcomplete in
theorem reconcileOnce_closed (hlisted : ∀ engines instances, G _ (reconcileListed S engines instances)) :
    G _ (reconcileOnce S) := by
  refine hG.bind (heff (.query .listInstances) trivial) fun r => ?_
  cases r with
  | error e => exact hG.ret _
  | ok instances =>
    refine hG.bind (heff (.outside (.reconcileScan _)) trivial) fun r => ?_
    cases r with
    | error e => exact hG.ret _
    | ok scan =>
      refine hG.bind (heff (.command (.reconcileQuarantine _)) trivial) fun r => ?_
      cases r with
      | error e => exact hG.ret _
      | ok _ => exact hG.bind (markAllQuarantined_closed hG (fun e he => heff e he.eff) _) fun _ => hlisted _ _

end

/-! ## Stopping the engine -/

theorem removeStopped_closed (hout : ∀ c, G _ (outside c)) (input : StopInstanceInput) : G _ (removeStopped input) := by
  refine hG.bind (hout (.stopInstance input)) fun r => ?_
  cases r with
  | ok _ => exact hG.ret _
  | error _ =>
    refine hG.bind (hout (.inspectInstance input)) fun r => ?_
    split <;> exact hG.ret _

theorem stopPolling_closed (hout : ∀ c, G _ (outside c)) (input : StopInstanceInput) : ∀ n, G _ (stopPolling input n)
  | 0 => by
    refine hG.bind (hout (.inspectInstance input)) fun r => ?_
    split
    · exact hG.ret _
    · exact removeStopped_closed hG hout input
    · exact hG.ret _
  | n + 1 => by
    refine hG.bind (hout (.inspectInstance input)) fun r => ?_
    split
    · exact hG.ret _
    · exact removeStopped_closed hG hout input
    · exact stopPolling_closed hout input n
    · exact hG.ret _

theorem stopExactGeneration_closed (hout : ∀ c, G _ (outside c)) (input : StopInstanceInput) :
    G _ (stopExactGeneration input) := by
  refine hG.bind (hout (.stopInstance input)) fun r => ?_
  cases r with
  | ok _ => exact hG.ret _
  | error _ => exact hG.bind (hout .polls) fun n => stopPolling_closed hG hout input n

theorem completeRecoveredOperation_closed (hcalm : ∀ e, reconcileCalm e → G _ (perform e))
    (htransition : ∀ id next progress result problem, next = .running ∨ next = .succeeded →
      G _ (transition id next progress result problem))
    (operations : List OperationDocument) (inst : InstanceDocument) (kind : Recovered) :
    G _ (completeRecoveredOperation S operations inst kind) := by
  unfold completeRecoveredOperation
  split
  · exact hG.ret _
  · refine hG.bind (hcalm (.query (.inst _)) trivial) fun r => ?_
    cases r with
    | error e => exact hG.ret _
    | ok current =>
      refine hG.bind (hcalm (.lookup _) trivial) fun ready => ?_
      refine hG.bind (hcalm (.lookup _) trivial) fun absent => ?_
      split
      · exact hG.ret _
      refine hG.bind (projectRouteHealth_closed hG fun _ => hcalm (.lookup _) trivial) fun current => ?_
      refine hG.bind ?_ fun _ => htransition _ _ _ _ _ (.inr rfl)
      unfold resumeOperation
      split
      · exact htransition _ _ _ _ _ (.inl rfl)
      · exact hG.ret _

end

/-! ## As lists of effects -/

section
variable {S : Site} {operationId : String} {inst : InstanceDocument} {P : Eff → Prop}
  (hreconcile : ∀ e, reconcileEff e → P e)
  (htransition : ∀ id state progress result problem, P (.command (.transition id state progress result problem)))

include hreconcile htransition

theorem reconcileOnce_uses : (reconcileOnce S).Uses P := by
  have heff : ∀ e, reconcileEff e → (perform e).Uses P := fun e he => ⟨hreconcile e he, fun _ => trivial⟩
  exact reconcileOnce_closed (Prog.uses_closed P) heff (reconcileListed_closed (Prog.uses_closed P) heff
    (completeRecoveredOperation_closed (Prog.uses_closed P) (fun e he => heff e he.eff) fun _ _ _ _ _ _ =>
      ⟨htransition _ _ _ _ _, fun _ => trivial⟩))

theorem serveEngine_uses (hserve : ∀ e, serveEff operationId inst e → P e) : (serveEngine S operationId inst).Uses P :=
  serveEngine_closed (Prog.uses_closed P) (fun e he => ⟨hserve e he, fun _ => trivial⟩)
    (reconcileOnce_uses hreconcile htransition)

end

theorem serveLease_ne {name : String} (h : reconcileLeaseId leaseId) : leaseId ≠ serveLease name := by
  intro e
  have hhead : (serveLease name).toList.head? = some 's' := by
    unfold serveLease
    rw [String.toList_append]; rfl
  have hother : leaseId.toList.head? = some 'r' := by
    rcases h with ⟨inst, rfl⟩ | ⟨container, rfl⟩
    · unfold reconcileLease
      rw [String.toList_append, String.toList_append, String.toList_append]; rfl
    · rw [String.toList_append]; rfl
  rw [e, hhead] at hother
  cases hother

end Sparkplane

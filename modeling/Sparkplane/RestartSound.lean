import Mathlib.Data.Fintype.EquivFin
import Sparkplane.Alone
import Sparkplane.ReconcileSound

/-!
# Restarting a missing engine

A pass that finds no container for an instance charges the restart to the
failure budget and then looks for the operation that served the instance among
the newest 256 operations. `restart_attempted` says when a start follows the
charge. `crowded_out`: 256 later operations of any kind, and the instance is
charged and never started.
-/

namespace Sparkplane

open Database

variable {α : Type} {o₁ o₂ : Oracle}

/-! ## A pass comes to an instance -/

inductive Turns (S : Site) (i n : Nat) (engines : List ObservedEngine) (operations : List OperationDocument) :
    List InstanceDocument → World → World → List (Eff × Oracle) → Prop
  | nil {w : World} : Turns S i n engines operations [] w w []
  | cons {inst : InstanceDocument} {rest : List InstanceDocument} {w w₁ w₂ : World}
      {es es' : List (Eff × Oracle)} :
      (agent S).Leads i n (withLease (reconcileLease inst) true
        (reconcileInstance S (matchedEngine engines inst) operations inst)) w (.ret true) w₁ es →
      Turns S i n engines operations rest w₁ w₂ es' →
      Turns S i n engines operations (inst :: rest) w w₂ (es ++ es')

def expected (instances : List InstanceDocument) : List ReconcileExpectation :=
  (instances.filter fun i => i.desired = .running).map expectation

/-- A pass that started in `w` has scanned, has listed the operations, and has
come to `inst` in `w₁`. -/
def Comes (S : Site) (i n : Nat) (w : World) (scan : ReconcileScan) (operations : List OperationDocument)
    (inst : InstanceDocument) (post : List InstanceDocument) (w₁ : World) (es : List (Eff × Oracle)) : Prop :=
  ∃ (pre : List InstanceDocument) (o₁ o₂ o₃ o₄ : Oracle) (w₂ : World) (es₁ es₂ : List (Eff × Oracle)),
    w.db.listInstances = pre ++ inst :: post ∧
    o₂.reply (.reconcileScan (expected (pre ++ inst :: post))) = .ok scan ∧
    (Eff.command (.reconcileQuarantine scan.quarantined)).answer S ⟨i, n, o₃⟩ w = .ok () ∧
    (agent S).Leads i n (markAllQuarantined scan.quarantined)
      ((Eff.command (.reconcileQuarantine scan.quarantined)).after S ⟨i, n, o₃⟩ w) (.ret ()) w₂ es₁ ∧
    operations = w₂.db.operationSummaries ∧ Turns S i n scan.matched operations pre w₂ w₁ es₂ ∧
    es = (.query .listInstances, o₁) :: (.outside (.reconcileScan (expected (pre ++ inst :: post))), o₂) ::
      (.command (.reconcileQuarantine scan.quarantined), o₃) :: (es₁ ++ (.query .operationSummaries, o₄) :: es₂)

section
variable {S : Site} {i n : Nat} {engines : List ObservedEngine} {operations : List OperationDocument}
  {inst : InstanceDocument} {pre post : List InstanceDocument} {scan : ReconcileScan} {w w₁ w₂ : World}
  {es : List (Eff × Oracle)}

theorem Turns.leads (h : Turns S i n engines operations pre w w₁ es) :
    (agent S).Leads i n (reconcileInstances S engines operations (pre ++ post)) w
      (reconcileInstances S engines operations post) w₁ es := by
  induction h with
  | nil => exact .here
  | cons hturn _ ih => exact (hturn.bind _).trans ih

theorem Comes.leads (h : Comes S i n w scan operations inst post w₁ es) : (agent S).Leads i n (reconcileOnce S) w
      (reconcileInstances S scan.matched operations (inst :: post)) w₁ es := by
  obtain ⟨pre, o₁, o₂, o3, o4, w₂, es1, es2, hlist, hscan, hok, hmark, rfl, hturns, rfl⟩ := h
  have hlist : ((agent S).exec ⟨i, n, o₁⟩ (.query .listInstances) w).1 = .ok (pre ++ inst :: post) :=
    congrArg Except.ok hlist
  have hscan : ((agent S).exec ⟨i, n, o₂⟩ (.outside (.reconcileScan (expected (pre ++ inst :: post)))) w).1 =
    .ok scan := hscan
  have hok : ((agent S).exec ⟨i, n, o3⟩ (.command (.reconcileQuarantine scan.quarantined)) w).1 = .ok () := hok
  refine .op o₁ rfl ?_
  rw [hlist]
  refine .op o₂ rfl ?_
  erw [hscan]
  refine .op o3 rfl ?_
  erw [hok]
  exact (hmark.bind _).trans (.op o4 rfl hturns.leads)

theorem reconcileEff.touches {e : Eff} (he : reconcileEff e) (t : Turn Oracle) (w : World) :
    Touches [.fleet] w.db (e.after S t w).db := by
  cases e with
  | command c =>
    cases c <;> try (cases he; done)
    case setInstanceObserved =>
      exact Batch.Keeps.commit (setInstanceObserved_touches t.oracle.draw _ _ _ _ _ _) w.db
    case recordRestartFailure => exact Batch.Keeps.commit (recordRestartFailure_touches _ _ _) w.db
    case markQuarantine => exact Batch.Keeps.commit (markQuarantine_touches _ _ _) w.db
    case reconcileQuarantine =>
      exact Batch.Keeps.commit (reconcileQuarantine_touches t.oracle.draw _) w.db
  | _ => first | exact Std.Refl.refl _ | cases he

theorem Comes.summaries (h : Comes S i n w scan operations inst post w₁ es) : operations = w.db.operationSummaries := by
  obtain ⟨pre, o₁, o₂, o3, o4, w₂, es1, es2, _, _, _, hmark, rfl, _, _⟩ := h
  have hrefl : Std.Refl fun w w' : World => Touches [.fleet] w.db w'.db := ⟨fun _ => Std.Refl.refl _⟩
  have htrans : IsTrans World fun w w' => Touches [.fleet] w.db w'.db :=
    ⟨fun _ _ _ h1 h2 => IsTrans.trans _ _ _ h1 h2⟩
  have huses : (markAllQuarantined scan.quarantined).Uses reconcileEff :=
    markAllQuarantined_closed (Prog.uses_closed reconcileEff) (fun e he => ⟨he.eff, fun _ => trivial⟩) _
  have hmarked := hmark.keeps (P := fun w w' : World => Touches [.fleet] w.db w'.db)
    (fun t _ w he => he.touches t w) huses
  have hcleared : Touches [.fleet] w.db _ :=
    reconcileEff.touches (S := S) (e := .command (.reconcileQuarantine scan.quarantined)) trivial ⟨i, n, o3⟩ w
  have hlog := (IsTrans.trans _ _ _ hcleared hmarked : Touches [.fleet] w.db w₂.db) .log (by simp)
  unfold Db.operationSummaries
  rw [hlog.1]

variable {p q : Act α} {row : InstanceRow}

theorem calm_leads (h : (agent S).Leads i n p w q w₁ es) (hp : p.Uses (·.beginsServe = false)) :
    FleetStep Calm w.db w₁.db := by
  have hrefl : Std.Refl fun w w' : World => FleetStep Calm w.db w'.db := ⟨fun _ => Std.Refl.refl _⟩
  have htrans : IsTrans World fun w w' => FleetStep Calm w.db w'.db :=
    ⟨fun _ _ _ h1 h2 => IsTrans.trans _ _ _ h1 h2⟩
  exact h.keeps (P := fun w w' : World => FleetStep Calm w.db w'.db) (fun t _ w he => Eff.calm he t w) hp

theorem Turns.calm (h : Turns S i n engines operations pre w w₁ es) : FleetStep Calm w.db w₁.db := by
  have hclosed := Prog.uses_closed (R := Eff.Reply) (·.beginsServe = false)
  have heff : ∀ e, reconcileEff e → (perform e).Uses (·.beginsServe = false) :=
    fun e he => ⟨he.plain.1.1, fun _ => trivial⟩
  have hcomplete := completeRecoveredOperation_closed (S := S) hclosed (fun e he => heff e he.eff)
    (fun _ _ _ _ _ _ => ⟨rfl, fun _ => trivial⟩) operations
  induction h with
  | nil => exact Std.Refl.refl _
  | @cons inst _ w _ _ _ _ hturn _ ih =>
    refine IsTrans.trans _ _ _ (calm_leads hturn ?_) ih
    refine withLease_closed hclosed ⟨rfl, fun _ => trivial⟩ ⟨rfl, fun _ => trivial⟩ ?_
    exact reconcileInstance_of hclosed (fun e he => heff e he.eff) hcomplete _
      (fun _ _ engine _ => reconcileRunningEngine_closed hclosed heff inst engine)
      fun _ _ => recordAndRestart_closed hclosed heff hcomplete inst

theorem Comes.current (h : Comes S i n w scan operations inst post w₁ es) (hc : Coherent w.db) :
    Coherent w₁.db ∧ ∃ row, w₁.db.instances.get? inst.id = some row ∧ row.metadata.generation = inst.generation := by
  obtain ⟨pre, o₁, o₂, o3, o4, w₂, es1, es2, hlist, _, _, hmark, rfl, hturns, _⟩ := h
  have hcleared : FleetStep Calm w.db _ := Eff.calm (S := S)
    (e := .command (.reconcileQuarantine scan.quarantined)) rfl ⟨i, n, o3⟩ w
  have hmarked := calm_leads hmark (markAllQuarantined_closed (Prog.uses_closed _)
    (fun e he => ⟨he.eff.plain.1.1, fun _ => trivial⟩) _)
  have hcalm : FleetStep Calm w.db w₁.db :=
    IsTrans.trans _ _ _ hcleared (IsTrans.trans _ _ _ hmarked hturns.calm)
  obtain ⟨row, hrow, rfl⟩ : ∃ row, w.db.instances.get? inst.id = some row ∧ row.metadata = inst :=
    mem_listInstances hc (hlist ▸ List.mem_append_right _ (List.mem_cons_self ..))
  obtain ⟨row', hrow', hsame⟩ := hcalm.kept hc hrow
  exact ⟨(hcalm hc).1, row', hrow', hsame.generation⟩

/-! ## Its turn -/

theorem recordRestartFailure_run {db : Db} (hc : Coherent db) {id : String}
    (hrow : db.instances.get? id = some row) {second : Nat} (hsecond : fitsI64 second = true) :
    ∃ db', recordRestartFailure id row.metadata.generation second db =
      .ok (restartFailed (failuresAt db id row.metadata.generation second) row.metadata, db') := by
  have hfits : fitsI64 row.metadata.generation = true := by
    rw [(hc.rows id row hrow).generation_eq]
    exact (hc.rows id row hrow).generation_fits
  have hpersist : ∀ failures t, persistInstance (restartFailed failures row.metadata)
      { db with restartFailures := t } =
      .ok ((), Db.put { db with restartFailures := t } (restartFailed failures row.metadata)) :=
    fun failures t => by
      have hc' : Coherent { db with restartFailures := t } := hc.congr (show _ = db.instances from rfl)
      exact persistInstance_run (i := restartFailed failures row.metadata) hc' hrow ⟨rfl, rfl, rfl, rfl⟩
  unfold recordRestartFailure
  rw [Tx.bind_run, currentInstance_run, hc.lookup_of_id hrow]
  dsimp only
  rw [if_pos rfl]
  dsimp only
  rw [Tx.bind_run, Tx.require_run, if_pos hfits]
  dsimp only
  rw [Tx.bind_run, Tx.require_run, if_pos hsecond]
  dsimp only
  rw [Tx.bind_run, Tx.execute_run, hrow, if_neg (by simp)]
  dsimp only
  rw [Tx.bind_run, Tx.modify_run]
  dsimp only
  rw [Tx.bind_run, Tx.query_run]
  dsimp only
  rw [Tx.bind_run, hpersist]
  exact ⟨_, rfl⟩

theorem persistentRestartAllowed_reads : persistentRestartAllowed.Uses (·.reads = true) := by
  refine ⟨rfl, fun r => ?_⟩
  cases r with
  | error e => trivial
  | ok snapshot =>
    refine ⟨rfl, fun r => ?_⟩
    cases r with
    | error e => trivial
    | ok desired =>
      dsimp only [Prog.ret_bind]
      split
      · trivial
      · exact ⟨rfl, fun _ => trivial⟩

theorem leads_reads (h : (agent S).Leads i n p w q w₁ es) (hp : p.Uses (·.reads = true)) : w₁ = w := by
  have hrefl : Std.Refl fun w w' : World => w' = w := ⟨fun _ => rfl⟩
  have htrans : IsTrans World fun w w' => w' = w := ⟨fun _ _ _ h1 h2 => h2.trans h1⟩
  exact h.keeps (P := fun w w' : World => w' = w) (fun t _ w he => Eff.after_reads he) hp

/-- The steps up to the charge: `o0` and `o₁` are what the lease and the route
meet, `es` is the question whether restarts are allowed. -/
def charge (inst : InstanceDocument) (o₀ o₁ o₂ o₃ : Oracle) (es : List (Eff × Oracle)) : List (Eff × Oracle) :=
  (.tryAcquire (reconcileLease inst), o₀) :: (.markWarming inst.name inst.generation, o₁) ::
    (es ++ [(.outside .unixMillis, o₂),
      (.command (.recordRestartFailure inst.id inst.generation (o₂.reply .unixMillis / 1000)), o₃)])

theorem reconcileInstance_missing (hrunning : inst.desired = .running)
    (hunsuppressed : inst.restartSuppressed = false) :
    reconcileInstance S none operations inst = restartMissing S operations inst none := by
  unfold reconcileInstance
  rw [hrunning, hunsuppressed]
  rfl

variable (operations) in
theorem restartMissing_leads (o3 : Oracle) (hc : Coherent w.db) (hrow : w.db.instances.get? inst.id = some row)
    (hgeneration : row.metadata.generation = inst.generation)
    (hallowed : (agent S).Leads i n persistentRestartAllowed
      ((Eff.markWarming inst.name inst.generation).after S ⟨i, n, o₁⟩ w) (.ret (some true)) w₁ es)
    (hclock : fitsI64 (o₂.reply .unixMillis / 1000) = true) :
    ∃ w₂, (agent S).Leads i n (restartMissing S operations inst none) w (restartEngine S operations inst (restartFailed
        (failuresAt w.db inst.id inst.generation (o₂.reply .unixMillis / 1000)) row.metadata)) w₂
      ((.markWarming inst.name inst.generation, o₁) :: (es ++ [(.outside .unixMillis, o₂),
        (.command (.recordRestartFailure inst.id inst.generation (o₂.reply .unixMillis / 1000)), o3)])) := by
  have hw1 := leads_reads hallowed persistentRestartAllowed_reads
  obtain ⟨db', hrun⟩ := recordRestartFailure_run hc hrow hclock
  rw [hgeneration] at hrun
  have hans : ((agent S).exec ⟨i, n, o3⟩
      (.command (.recordRestartFailure inst.id inst.generation (o₂.reply .unixMillis / 1000))) w₁).1 =
      .ok (restartFailed (failuresAt w.db inst.id inst.generation (o₂.reply .unixMillis / 1000)) row.metadata) := by
    rw [hw1]
    exact congrArg Prod.fst (Tx.commit_ok hrun)
  refine ⟨((agent S).exec ⟨i, n, o3⟩ (.command (.recordRestartFailure inst.id inst.generation
    (o₂.reply .unixMillis / 1000))) w₁).2, .op o₁ rfl ((hallowed.bind _).trans (.op o₂ rfl (.op o3 rfl ?_)))⟩
  erw [hans]
  exact .here

def inTurn (S : Site) (engines : List ObservedEngine) (operations : List OperationDocument)
    (inst : InstanceDocument) (post : List InstanceDocument) (p : Act Bool) : Act Unit :=
  (p.bind fun go => (perform (.release (reconcileLease inst))).bind fun _ => .ret go).bind fun go =>
    if go then reconcileInstances S engines operations post else return ()

variable (operations inst post) in
theorem turn_charged {o0 : Oracle} (o3 : Oracle) (hc : Coherent w.db) (hrunning : inst.desired = .running)
    (hunsuppressed : inst.restartSuppressed = false) (hmissing : matchedEngine engines inst = none)
    (hfree : w.admission.holder = none) (hrow : w.db.instances.get? inst.id = some row)
    (hgeneration : row.metadata.generation = inst.generation)
    (hallowed : (agent S).Leads i n persistentRestartAllowed
      ((Eff.markWarming inst.name inst.generation).after S ⟨i, n, o₁⟩
        ((Eff.tryAcquire (reconcileLease inst)).after S ⟨i, n, o0⟩ w)) (.ret (some true)) w₁ es)
    (hclock : fitsI64 (o₂.reply .unixMillis / 1000) = true) :
    ∃ w₂, (agent S).Leads i n (reconcileInstances S engines operations (inst :: post)) w
      (inTurn S engines operations inst post (restartEngine S operations inst (restartFailed
        (failuresAt w.db inst.id inst.generation (o₂.reply .unixMillis / 1000)) row.metadata))) w₂
      (charge inst o0 o₁ o₂ o3 es) := by
  obtain ⟨w₂, hmiss⟩ := restartMissing_leads operations o3
    (w := (Eff.tryAcquire (reconcileLease inst)).after S ⟨i, n, o0⟩ w) hc hrow hgeneration hallowed hclock
  have hheld : ((agent S).exec ⟨i, n, o0⟩ (.tryAcquire (reconcileLease inst)) w).1 = true := by
    show (w.admission.tryAcquire (reconcileLease inst)).isSome = true
    unfold TransitionCoordinator.tryAcquire
    rw [hfree]
    rfl
  refine ⟨w₂, .op o0 rfl ?_⟩
  rw [hheld, hmissing, reconcileInstance_missing hrunning hunsuppressed]
  exact (hmiss.bind _).bind _

theorem restartEngine_next {failed : InstanceDocument} {operationId : String}
    (h : (inTurn S engines operations inst post (restartEngine S operations inst failed)).next =
      some (.outside (.prepareInstance (startInput inst operationId)))) :
    failed.restartSuppressed = false ∧ ∃ op ∈ operations, op.kind = "instance.serve" ∧ op.target = some inst.name := by
  unfold restartEngine at h
  split at h
  · cases h
  rename_i hgo
  simp only [Bool.or_eq_true, not_or, Bool.not_eq_true] at hgo
  refine ⟨hgo.1, ?_⟩
  split at h
  · cases h
  rename_i op hfind
  have hserve := List.find?_some hfind
  simp only [Bool.and_eq_true, decide_eq_true_eq] at hserve
  exact ⟨op, List.mem_of_find?_eq_some hfind, hserve.1, hserve.2⟩

variable (S engines inst post) in
theorem restartEngine_starts (failed : InstanceDocument) (hunsuppressed : failed.restartSuppressed = false)
    (hclear : failed.quarantine = none) {op : OperationDocument} (hop : op ∈ operations)
    (hserve : op.kind = "instance.serve" ∧ op.target = some inst.name) :
    ∃ operationId k, inTurn S engines operations inst post (restartEngine S operations inst failed) =
      .op (.outside (.prepareInstance (startInput inst operationId))) k := by
  unfold restartEngine
  rw [hunsuppressed, hclear]
  cases hfind : operations.find? fun o => o.kind = "instance.serve" && o.target = some inst.name with
  | none =>
    have hnot := List.find?_eq_none.mp hfind op hop
    simp [hserve.1, hserve.2] at hnot
  | some found => exact ⟨found.id, _, rfl⟩

end

/-- The database has been built by any commands, the pass runs alone and has
come to an instance that should run, is not suppressed, is not in quarantine
and has no container, and restarts are allowed. Then the charge is made, and a
start follows it exactly if the charge does not spend the budget and an
operation that served the name is among the newest 256. -/
theorem restart_attempted (S : Site) (before : List (Draw × Command)) {w w₁ w₂ : World}
    (hdb : w.db = actorLoop S.env {} before) {i n : Nat} {scan : ReconcileScan}
    {operations : List OperationDocument} {inst : InstanceDocument} {post : List InstanceDocument}
    {es es' : List (Eff × Oracle)} (hcome : Comes S i n w scan operations inst post w₁ es)
    (hrunning : inst.desired = .running) (hunsuppressed : inst.restartSuppressed = false)
    (hclear : ∀ row, w₁.db.instances.get? inst.id = some row → row.metadata.quarantine = none)
    (hmissing : matchedEngine scan.matched inst = none) (hfree : w₁.admission.holder = none)
    (o₀ o₁ o₂ o₃ : Oracle)
    (hallowed : (agent S).Leads i n persistentRestartAllowed
      ((Eff.markWarming inst.name inst.generation).after S ⟨i, n, o₁⟩
        ((Eff.tryAcquire (reconcileLease inst)).after S ⟨i, n, o₀⟩ w₁)) (.ret (some true)) w₂ es')
    (hclock : fitsI64 (o₂.reply .unixMillis / 1000) = true) :
    ∃ p w₃, (agent S).Leads i n (reconcileOnce S) w p w₃ (es ++ charge inst o₀ o₁ o₂ o₃ es') ∧
      ((∃ operationId, p.next = some (.outside (.prepareInstance (startInput inst operationId)))) ↔
        failuresAt w₁.db inst.id inst.generation (o₂.reply .unixMillis / 1000) < restartFailureLimit ∧
          ∃ op ∈ w.db.operationSummaries, op.kind = "instance.serve" ∧ op.target = some inst.name) := by
  obtain ⟨hc, row, hrow, hgeneration⟩ := hcome.current (hdb ▸ coherent_actorLoop S.env before)
  obtain ⟨w₃, hturn⟩ := turn_charged operations inst post o₃ hc hrunning
    hunsuppressed hmissing hfree hrow hgeneration hallowed hclock
  refine ⟨_, w₃, hcome.leads.trans hturn, ?_⟩
  rw [← hcome.summaries]
  constructor
  · rintro ⟨operationId, hnext⟩
    obtain ⟨hunspent, hserve⟩ := restartEngine_next hnext
    exact ⟨Nat.lt_of_not_le (of_decide_eq_false hunspent), hserve⟩
  · rintro ⟨hunspent, op, hop, hserve⟩
    obtain ⟨operationId, k, hp⟩ := restartEngine_starts S scan.matched inst post
      (restartFailed (failuresAt w₁.db inst.id inst.generation (o₂.reply .unixMillis / 1000)) row.metadata)
      (decide_eq_false (Nat.not_le_of_lt hunspent)) (hclear row hrow) hop hserve
    exact ⟨operationId, by rw [hp]; rfl⟩

/-! ## Two histories -/

theorem allowed_leads {S : Site} {i n : Nat} {w : World} {o : Oracle} (snapshot : ExecutorSnapshot)
    (hsnapshot : o.reply .snapshot = .ok snapshot) (hguard : snapshot.guardHeartbeat = true)
    (hfits : persistentSetFitsRebootEnvelope snapshot.resourcePolicy snapshot.resources
      w.db.desiredResourceEnvelopes (o.reply .unixMillis) = true) :
    (agent S).Leads i n persistentRestartAllowed w (.ret (some true)) w
      [(.outside .snapshot, o), (.query .desiredResourceEnvelopes, o), (.outside .unixMillis, o)] := by
  have hsnapshot : ((agent S).exec ⟨i, n, o⟩ (.outside .snapshot) w).1 = .ok snapshot := hsnapshot
  refine .op o rfl ?_
  rw [hsnapshot]
  refine .op o rfl ?_
  show (agent S).Leads i n (if !snapshot.guardHeartbeat then _ else _) w _ _ _
  rw [hguard]
  refine .op o rfl ?_
  show (agent S).Leads i n (.ret (some (persistentSetFitsRebootEnvelope snapshot.resourcePolicy snapshot.resources
    w.db.desiredResourceEnvelopes (o.reply .unixMillis)))) w _ _ _
  rw [hfits]
  exact .here

theorem reconcileQuarantine_quiet {d : Draw} {db : Db} {inst : InstanceDocument}
    (hlist : db.listInstances = [inst]) (hclear : inst.quarantine = none) :
    reconcileQuarantine d [] db = .ok ((), { db with
      quarantineEvidence := db.quarantineEvidence.update fun _ row =>
        { row with resolvedAt := row.resolvedAt.or (some d.now) } }) := by
  show Tx.each _ db.listInstances _ = _
  rw [hlist]
  unfold Tx.each
  rw [hclear]
  rfl

def LostEngine (db : Db) : Prop := Touches [.log] (actorLoop exampleSite.env {} serveBegun) db

def quietOracle : Oracle := exampleTurn {}

section
variable {db : Db} (h : LostEngine db)
include h

theorem LostEngine.listed : db.listInstances = [begunInstance] := by
  have hbegun : (actorLoop exampleSite.env {} serveBegun).listInstances = [begunInstance] := by decide +kernel
  unfold Db.listInstances at hbegun ⊢
  rw [(h .fleet (by simp)).1]
  exact hbegun

theorem LostEngine.row : ∃ row, db.instances.get? begunInstance.id = some row ∧ row.metadata = begunInstance := by
  have hbegun : ((actorLoop exampleSite.env {} serveBegun).instances.get? begunInstance.id).any
      (fun row => row.metadata = begunInstance) = true := by decide +kernel
  obtain ⟨row, hrow, hmeta⟩ := (Option.any_eq_true _ _).mp hbegun
  rw [← (h .fleet (by simp)).1] at hrow
  exact ⟨row, hrow, of_decide_eq_true hmeta⟩

theorem LostEngine.unspent : failuresAt db begunInstance.id 1 0 < restartFailureLimit := by
  have hbegun : failuresAt (actorLoop exampleSite.env {} serveBegun) begunInstance.id 1 0 <
      restartFailureLimit := by decide +kernel
  unfold failuresAt at hbegun ⊢
  rw [(h .fleet (by simp)).2.2.2.1]
  exact hbegun

theorem LostEngine.fits : persistentSetFitsRebootEnvelope exampleHost.resourcePolicy exampleHost.resources
    db.desiredResourceEnvelopes 0 = true := by
  have hbegun : persistentSetFitsRebootEnvelope exampleHost.resourcePolicy exampleHost.resources
    (actorLoop exampleSite.env {} serveBegun).desiredResourceEnvelopes 0 = true := by decide +kernel
  unfold Db.desiredResourceEnvelopes at hbegun ⊢
  rw [(h .fleet (by simp)).1, (h .fleet (by simp)).2.1]
  exact hbegun

theorem LostEngine.cleared (d : Draw) : reconcileQuarantine d [] db = .ok ((), db) := by
  have hempty : db.quarantineEvidence.rows = [] := by
    have hbegun : (actorLoop exampleSite.env {} serveBegun).quarantineEvidence.rows = [] := by decide +kernel
    rw [(h .fleet (by simp)).2.2.2.2]
    exact hbegun
  rw [reconcileQuarantine_quiet h.listed rfl]
  congr 3
  refine Table.ext ?_
  show List.map _ db.quarantineEvidence.rows = db.quarantineEvidence.rows
  rw [hempty]
  rfl

def begunSteps : List (Eff × Oracle) :=
  [(.query .listInstances, quietOracle), (.outside (.reconcileScan (expected [begunInstance])), quietOracle),
   (.command (.reconcileQuarantine []), quietOracle), (.query .operationSummaries, quietOracle)]

theorem LostEngine.comes : ∃ w₁, w₁.db = db ∧ w₁.admission.holder = none ∧
    Comes exampleSite 0 1 { db } ⟨[], []⟩ db.operationSummaries begunInstance [] w₁ begunSteps := by
  have hrun := Tx.commit_ok (h.cleared {})
  have hdb : ((Eff.command (.reconcileQuarantine [])).after exampleSite ⟨0, 1, quietOracle⟩ { db }).db = db :=
    congrArg Prod.snd hrun
  refine ⟨_, hdb, rfl, [], quietOracle, quietOracle, quietOracle, quietOracle, _, [], [], h.listed, rfl,
    congrArg Prod.fst hrun, .here, ?_, .nil, rfl⟩
  rw [hdb]

theorem LostEngine.allowed {w : World} (hw : w.db = db) : (agent exampleSite).Leads 0 1 persistentRestartAllowed w
    (.ret (some true)) w [(.outside .snapshot, quietOracle), (.query .desiredResourceEnvelopes, quietOracle),
      (.outside .unixMillis, quietOracle)] :=
  allowed_leads exampleHost rfl rfl (hw ▸ h.fits)

end

theorem restart_attempted_after_serve : ∃ p w₃, (agent exampleSite).Leads 0 1 (reconcileOnce exampleSite) begunWorld
      p w₃ (begunSteps ++ charge begunInstance quietOracle quietOracle quietOracle quietOracle
        [(.outside .snapshot, quietOracle), (.query .desiredResourceEnvelopes, quietOracle),
          (.outside .unixMillis, quietOracle)]) ∧
    ∃ operationId, p.next = some (.outside (.prepareInstance (startInput begunInstance operationId))) := by
  obtain ⟨db, hbegun⟩ : ∃ db, db = actorLoop exampleSite.env {} serveBegun := ⟨_, rfl⟩
  have hworld : begunWorld = { db } := by
    unfold begunWorld
    rw [hbegun]
  have hlost : LostEngine db := hbegun ▸ Std.Refl.refl _
  have hserve : ∃ op ∈ db.operationSummaries, op.kind = "instance.serve" ∧ op.target = some begunInstance.name := by
    rw [hbegun]
    decide +kernel
  obtain ⟨w₁, hdb, hfree, hcome⟩ := hlost.comes
  obtain ⟨row, hrow, hmeta⟩ := hlost.row
  have hclear : ∀ row', w₁.db.instances.get? begunInstance.id = some row' → row'.metadata.quarantine = none := by
    intro row' hrow'
    rw [hdb, hrow] at hrow'
    cases hrow'
    rw [hmeta]
    rfl
  obtain ⟨p, w₃, hleads, hiff⟩ := restart_attempted exampleSite serveBegun hbegun hcome rfl rfl hclear
    rfl hfree quietOracle quietOracle quietOracle quietOracle (hlost.allowed hdb) rfl
  rw [hworld]
  exact ⟨p, w₃, hleads, hiff.mpr ⟨hdb ▸ hlost.unspent, hserve⟩⟩

structure Crowded (n : Nat) (db : Db) : Prop where
  served : ∀ id op, db.operations.get? id = some op → op.kind = "instance.serve" → op.createdAt = 0
  later : ∃ ids : List String, ids.Nodup ∧ ids.length = n ∧
    ∀ id ∈ ids, ∃ op, db.operations.get? id = some op ∧ 0 < op.createdAt

theorem exists_not_mem (l : List String) : ∃ s, s ∉ l := by
  obtain ⟨s, hs⟩ := Infinite.exists_notMem_finset l.toFinset
  exact ⟨s, by simpa using hs⟩

theorem exists_free {κ ρ : Type} [DecidableEq κ] (t : Table κ ρ) (f : String → κ) (g : κ → String)
    (hg : ∀ s, g (f s) = s) : ∃ s, t.get? (f s) = none := by
  obtain ⟨s, hs⟩ := exists_not_mem (t.keys.map g)
  refine ⟨s, ?_⟩
  by_contra hsome
  obtain ⟨row, hrow⟩ := Option.ne_none_iff_exists'.mp hsome
  exact hs (List.mem_map.mpr ⟨f s, Table.mem_keys_iff.mpr ⟨row, Table.get?_eq_some.mp hrow⟩, hg s⟩)

theorem Crowded.step {n : Nat} {db : Db} (E : Env) (h : Crowded n db) : ∃ (d : Draw) (c : Command),
    Crowded (n + 1) (c.run E d db) ∧ Touches [.log] db (c.run E d db) := by
  obtain ⟨id, hid⟩ := exists_free db.operations (fun s => s) (fun s => s) fun _ => rfl
  obtain ⟨key, hkey⟩ := exists_free db.idempotency (fun s => ("bootstrap-admin", "model.download", s))
    (fun k => k.2.2) fun _ => rfl
  have hrun := acceptOperation_run { now := 1, operationId := id } "bootstrap-admin" "model.download" key "" none db
  rw [hkey] at hrun
  dsimp only at hrun
  rw [hid, if_neg (by simp)] at hrun
  have hcommit := Tx.commit_ok hrun
  have hget : ∀ k, ((Command.accept "bootstrap-admin" "model.download" key "" none).run E
      { now := 1, operationId := id } db).operations.get? k = if k = id then
      some ⟨"model.download", "bootstrap-admin", none, .accepted, acceptedProgress, 1, 1, none, none⟩
      else db.operations.get? k := fun k => by
    show ((Database.acceptOperation _ _ _ _ _ _).commit db).2.operations.get? k = _
    rw [hcommit]
    exact Table.get?_upsert ..
  refine ⟨{ now := 1, operationId := id }, .accept "bootstrap-admin" "model.download" key "" none, ⟨?_, ?_⟩,
    Batch.Keeps.commit (acceptOperation_touches _ _ _ _ _ _) db⟩
  · intro k op hop hserve
    rw [hget] at hop
    split at hop
    · cases hop
      exact absurd hserve (by decide)
    · exact h.served k op hop hserve
  · obtain ⟨ids, hnodup, hlength, hids⟩ := h.later
    refine ⟨id :: ids, List.nodup_cons.mpr ⟨fun hmem => ?_, hnodup⟩, by rw [List.length_cons, hlength], ?_⟩
    · obtain ⟨op, hop, _⟩ := hids id hmem
      rw [hid] at hop
      cases hop
    · intro k hk
      rw [hget]
      split
      · exact ⟨_, rfl, Nat.one_pos⟩
      · rename_i hne
        exact hids k ((List.mem_cons.mp hk).resolve_left hne)

theorem crowded (n : Nat) : ∃ cmds, Crowded n (actorLoop exampleSite.env {} cmds) ∧
    LostEngine (actorLoop exampleSite.env {} cmds) := by
  induction n with
  | zero =>
    have hbegun : ∀ r ∈ (actorLoop exampleSite.env {} serveBegun).operations.rows, r.2.createdAt = 0 := by
      decide +kernel
    refine ⟨serveBegun, ⟨fun id op hop _ => hbegun _ (Table.get?_eq_some.mp hop), [], List.nodup_nil, rfl, nofun⟩,
      Std.Refl.refl _⟩
  | succ n ih =>
    obtain ⟨cmds, hcrowded, hlost⟩ := ih
    obtain ⟨d, c, hstep, htouches⟩ := hcrowded.step exampleSite.env
    refine ⟨cmds ++ [(d, c)], ?_⟩
    rw [actorLoop_append]
    exact ⟨hstep, IsTrans.trans _ _ _ hlost htouches⟩

def newer (a b : String × OperationRow) : Prop :=
  b.2.createdAt < a.2.createdAt ∨ (a.2.createdAt = b.2.createdAt ∧ ¬ a.1 < b.1)

instance : DecidableRel newer := fun _ _ => inferInstanceAs (Decidable (_ ∨ _))

instance : Std.Total newer where
  total a b := by
    unfold newer
    rcases lt_trichotomy a.2.createdAt b.2.createdAt with h | h | h
    · exact .inr (.inl h)
    · rcases lt_or_ge a.1 b.1 with hlt | hge
      · exact .inr (.inr ⟨h.symm, not_lt_of_gt hlt⟩)
      · exact .inl (.inr ⟨h, not_lt_of_ge hge⟩)
    · exact .inl (.inl h)

instance : IsTrans _ newer where
  trans a b c h1 h2 := by
    unfold newer at h1 h2 ⊢
    rcases h1 with h1 | ⟨e₁, n₁⟩ <;> rcases h2 with h2 | ⟨e₂, n₂⟩
    · exact .inl (h2.trans h1)
    · exact .inl (e₂ ▸ h1)
    · exact .inl (e₁ ▸ h2)
    · exact .inr ⟨e₁.trans e₂, not_lt_of_ge ((not_lt.mp n₂).trans (not_lt.mp n₁))⟩

theorem Crowded.unlisted {db : Db} (h : Crowded 256 db) : ∀ op ∈ db.operationSummaries, op.kind ≠ "instance.serve" := by
  intro op hop hserve
  obtain ⟨r, hr, rfl⟩ := List.mem_map.mp hop
  have hr : r ∈ (db.operations.rows.insertionSort newer).take 256 := hr
  obtain ⟨front, back, hsplit⟩ := List.append_of_mem hr
  have hrows := List.perm_insertionSort newer db.operations.rows
  have hold : r.2.createdAt = 0 :=
    h.served r.1 r.2 (Table.get?_eq_some.mpr (hrows.mem_iff.mp (List.mem_of_mem_take hr))) hserve
  -- everything newer comes before the row
  have hsorted := List.pairwise_insertionSort newer db.operations.rows
  have hall : db.operations.rows.insertionSort newer =
      front ++ r :: (back ++ (db.operations.rows.insertionSort newer).drop 256) := by
    conv_lhs => rw [← List.take_append_drop 256 (db.operations.rows.insertionSort newer), hsplit]
    simp
  obtain ⟨ids, hnodup, hlength, hids⟩ := h.later
  have hsubset : ids ⊆ front.map Prod.fst := by
    intro id hid
    obtain ⟨row, hrow, hpos⟩ := hids id hid
    have hmem : (id, row) ∈ db.operations.rows.insertionSort newer :=
      hrows.mem_iff.mpr (Table.get?_eq_some.mp hrow)
    rw [hall] at hmem hsorted
    rcases List.mem_append.mp hmem with hfront | hrest
    · exact List.mem_map.mpr ⟨_, hfront, rfl⟩
    · exfalso
      rcases List.mem_cons.mp hrest with rfl | hback
      · exact absurd hold (Nat.ne_of_gt hpos)
      · have hnewer := (List.pairwise_cons.mp (List.pairwise_append.mp hsorted).2.1).1 _ hback
        rw [newer, hold] at hnewer
        rcases hnewer with hlt | ⟨heq, _⟩
        · exact absurd hlt (Nat.not_lt_zero _)
        · exact absurd heq.symm (Nat.ne_of_gt hpos)
  have hle := (List.subperm_of_subset hnodup hsubset).length_le
  have hshort : (front ++ r :: back).length ≤ 256 := hsplit ▸ List.length_take_le _ _
  rw [hlength, List.length_map] at hle
  rw [List.length_append, List.length_cons] at hshort
  omega

theorem crowded_out : ∃ cmds row w', let db := actorLoop exampleSite.env {} cmds
    db.instances.get? begunInstance.id = some row ∧ row.metadata = begunInstance ∧
    failuresAt db begunInstance.id 1 0 < restartFailureLimit ∧
    (agent exampleSite).Evals 0 1 (reconcileOnce exampleSite) { db } () w'
      (begunSteps ++ charge begunInstance quietOracle quietOracle quietOracle quietOracle
        [(.outside .snapshot, quietOracle), (.query .desiredResourceEnvelopes, quietOracle),
          (.outside .unixMillis, quietOracle)] ++ [(.release (reconcileLease begunInstance), quietOracle)]) := by
  obtain ⟨cmds, hcrowded, hlost⟩ := crowded 256
  have hc := coherent_actorLoop exampleSite.env cmds
  refine ⟨cmds, ?_⟩
  generalize actorLoop exampleSite.env {} cmds = db at hcrowded hlost hc
  obtain ⟨w₁, hdb, hfree, hcome⟩ := hlost.comes
  obtain ⟨row, hrow, hmeta⟩ := hlost.row
  obtain ⟨w₂, hturn⟩ := turn_charged db.operationSummaries begunInstance [] quietOracle (hdb ▸ hc) rfl rfl
    (show matchedEngine [] begunInstance = none from rfl) hfree (hdb ▸ hrow) (by rw [hmeta]) (hlost.allowed hdb)
    (show fitsI64 (quietOracle.reply .unixMillis / 1000) = true from rfl)
  have hnone : restartEngine exampleSite db.operationSummaries begunInstance (restartFailed
      (failuresAt w₁.db begunInstance.id begunInstance.generation (quietOracle.reply .unixMillis / 1000))
      row.metadata) = .ret true := by
    have hfind : db.operationSummaries.find? (fun o => o.kind = "instance.serve" &&
        o.target = some begunInstance.name) = none :=
      List.find?_eq_none.mpr fun op hop => by simp [hcrowded.unlisted op hop]
    unfold restartEngine
    rw [hfind]
    split <;> rfl
  rw [hnone] at hturn
  have hend := (hcome.leads.trans hturn).trans (.op quietOracle rfl .here)
  exact ⟨row, _, hrow, hmeta, hlost.unspent, hend.evals⟩

end Sparkplane

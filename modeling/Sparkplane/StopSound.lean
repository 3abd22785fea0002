import Sparkplane.Footprint

/-!
# A stopped instance and its route

`stop_instance` drains the route and ends the operation without the transition
lease, and `run_serve` and the reconciliation pass publish some steps after
their last look at the intent. `stop_final`: once a stop has succeeded, its
instance's generation has no healthy route, in every run in which no route is
published for an instance that should be stopped. `late_publish_revives`: a
publication that was on its way puts the route back.
-/

namespace Sparkplane

open Machine

variable {t name kind : String} {generation : Nat} {target : Option String} {route : HealthyRoute}
variable {current : InstanceDocument} {turn : Turn Oracle}

/-! ## Stopped and drained -/

/-- A route is published only while no instance of that name should be
stopped. -/
def stopRules : Rules World Job Eff Oracle where
  allow _ e _ w := match e with
    | .publish name .. =>
      !w.db.instances.rows.any fun r => r.2.metadata.name = name && r.2.metadata.desired = .stopped
    | _ => true
  apart _ _ _ _ := true

def Halted (t name : String) (generation : Nat) (w : World) : Prop :=
  ∀ row, w.db.instances.get? t = some row →
    row.metadata.desired = .stopped ∧ row.metadata.name = name ∧ row.metadata.generation = generation

def Drained (t : String) (w : World) : Prop :=
  ∀ row, w.db.instances.get? t = some row → row.metadata.desired = .stopped ∧
    ∀ route, w.routes.get? row.metadata.name = some (.healthy route) → route.generation ≠ row.metadata.generation

def OpIs (o kind : String) (target : Option String) (w : World) : Prop :=
  ∃ op, w.db.operations.get? o = some op ∧ op.kind = kind ∧ op.target = target

def Justified (o : String) (w : World) : Prop :=
  ∀ op t, w.db.operations.get? o = some op → op.kind = "instance.stop" → op.target = some t → Drained t w

structure StopInv (old : String → Prop) (w : World) : Prop where
  coherent : Coherent w.db
  drained : ∀ o op, w.db.operations.get? o = some op → op.state = .succeeded → old o ∨ Justified o w

structure StopStep (w w' : World) : Prop where
  log : OpStep w.db w'.db
  fleet : ∀ id row', w'.db.instances.get? id = some row' →
    ∃ row, w.db.instances.get? id = some row ∧ Calm row.metadata row'.metadata
  drained : ∀ t, Drained t w → Drained t w'

theorem StopStep.refl (w : World) : StopStep w w :=
  ⟨Std.Refl.refl _, fun _ row h => ⟨row, h, Std.Refl.refl _⟩, fun _ h => h⟩

theorem StopStep.trans {w1 w2 w3 : World} (h1 : StopStep w1 w2) (h2 : StopStep w2 w3) : StopStep w1 w3 where
  log := IsTrans.trans _ _ _ h1.log h2.log
  fleet id row3 hr3 := by
    obtain ⟨row2, hr2, c2⟩ := h2.fleet id row3 hr3
    obtain ⟨row1, hr1, c1⟩ := h1.fleet id row2 hr2
    exact ⟨row1, hr1, IsTrans.trans _ _ _ c1 c2⟩
  drained t h := h2.drained t (h1.drained t h)

theorem Calm.stopped {i j : InstanceDocument} (h : Calm i j) (hi : i.desired = .stopped) : j.desired = .stopped := by
  cases hj : j.desired with
  | stopped => rfl
  | running => rw [h.desired hj] at hi; cases hi

variable {w w' : World}

theorem Halted.step (h : StopStep w w') (hw : Halted t name generation w) : Halted t name generation w' := by
  intro row' hr'
  obtain ⟨row, hr, hcalm⟩ := h.fleet t row' hr'
  obtain ⟨hs, hn, hg⟩ := hw row hr
  exact ⟨hcalm.stopped hs, hcalm.name.trans hn, hcalm.generation.trans hg⟩

theorem OpIs.step {o : String} (h : StopStep w w') (hw : OpIs o kind target w) : OpIs o kind target w' := by
  obtain ⟨op, ho, hk, ht⟩ := hw
  obtain ⟨op', ho', hf⟩ := h.log o op ho
  exact ⟨op', ho', hf.kind.trans hk, hf.target.trans ht⟩

theorem OpIs.justified {o : String} (h : OpIs o kind target w)
    (hd : ∀ t, kind = "instance.stop" → target = some t → Drained t w) : Justified o w := by
  intro op t ho hk ht
  obtain ⟨op', ho', hk', ht'⟩ := h
  rw [ho] at ho'
  cases ho'
  exact hd t (hk'.symm.trans hk) (ht'.symm.trans ht)

/-! ## One step -/

theorem RouteRegistry.get?_drain (r : RouteRegistry) (name : String) (generation : Nat) (k : String) :
    (r.drain name generation).get? k = (r.get? k).filter fun state => !(k = name && state.generation = generation) :=
  Table.get?_delete _ _ _

theorem Eff.onRoutes_healthy {e : Eff} {routes : RouteRegistry}
    (h : (e.onRoutes routes).get? name = some (.healthy route)) :
    routes.get? name = some (.healthy route) ∨ ∃ p m u, e = .publish name p m u := by
  cases e with
  | markWarming name' generation =>
    have h : (routes.upsert name' (.warming generation)).get? name = some (.healthy route) := h
    rw [Table.get?_upsert] at h
    split at h
    · cases h
    · exact .inl h
  | publish name' p m u =>
    have h : (routes.upsert name' _).get? name = some (.healthy route) := h
    rw [Table.get?_upsert] at h
    split at h
    · rename_i e; exact .inr ⟨p, m, u, by rw [e]⟩
    · exact .inl h
  | drain name' generation =>
    have h : (routes.drain name' generation).get? name = some (.healthy route) := h
    rw [RouteRegistry.get?_drain] at h
    exact .inl (Option.filter_eq_some_iff.mp h).1
  | _ => exact .inl h

theorem RouteRegistry.drain_healthy {r : RouteRegistry}
    (h : (r.drain name generation).get? name = some (.healthy route)) :
    route.generation ≠ generation := by
  rw [RouteRegistry.get?_drain] at h
  have hp := (Option.filter_eq_some_iff.mp h).2
  intro e
  simp [RouteState.generation, e] at hp

section
variable {S : Site} {old : String → Prop} {l : Job} {i n : Nat} {o : Oracle} {e : Eff} {w w' : World}

theorem Drained.after (hb : e.beginsServe = false) (hallow : stopRules.allow l e o w = true)
    (hc : Coherent w.db) (h : Drained t w) (turn : Turn Oracle) : Drained t (e.after S turn w) := by
  intro row' hr'
  obtain ⟨row, hr, hcalm⟩ := (Eff.calm hb turn w).doc hc hr'
  obtain ⟨hstop, hroute⟩ := h row hr
  refine ⟨hcalm.stopped hstop, fun route hhealthy => ?_⟩
  rw [hcalm.name] at hhealthy
  rw [hcalm.generation]
  rcases Eff.onRoutes_healthy hhealthy with hbefore | ⟨p, m, u, rfl⟩
  · exact hroute route hbefore
  · have hnone : ¬ (w.db.instances.rows.any fun r =>
        r.2.metadata.name = row.metadata.name && r.2.metadata.desired = .stopped) = true := by
      simpa [stopRules] using hallow
    exact absurd (List.any_eq_true.mpr ⟨_, Table.get?_eq_some.mp hr, by simp [hstop]⟩) hnone

theorem stop_step (hb : e.beginsServe = false) (hs : e.single = true)
    (hallow : stopRules.allow l e o w = true) (hi : StopInv old w)
    (hdone : ∀ id, e.moves = some (id, .succeeded) → Justified id w) (turn : Turn Oracle) :
    StopInv old (e.after S turn w) ∧ StopStep w (e.after S turn w) := by
  have hdrained : ∀ t, Drained t w → Drained t (e.after S turn w) :=
    fun t h => h.after hb hallow hi.coherent turn
  have hjustified : ∀ id, Justified id w → (∃ op, w.db.operations.get? id = some op) →
      Justified id (e.after S turn w) := by
    rintro id h ⟨op, hop⟩ op' t hop' hk ht
    obtain ⟨op'', hop'', hf⟩ := Eff.opStep S turn e w id op hop
    rw [hop'] at hop''
    cases hop''
    exact hdrained t (h op t hop (hf.kind.symm.trans hk) (hf.target.symm.trans ht))
  refine ⟨⟨(Eff.calm hb turn w hi.coherent).1, fun id op' hop' hsucc => ?_⟩,
    ⟨Eff.opStep S turn e w, fun _ _ h => (Eff.calm hb turn w).doc hi.coherent h, hdrained⟩⟩
  have before : ∀ op, w.db.operations.get? id = some op → op.state = .succeeded →
      old id ∨ Justified id (e.after S turn w) :=
    fun op hop hs => (hi.drained id op hop hs).imp_right fun h => hjustified id h ⟨op, hop⟩
  rcases Eff.operation (S := S) hs turn w id with h | ⟨c, hc, h⟩
  · exact before op' (h.symm.trans hop') hsucc
  · rw [hop'] at h
    cases hrow : w.db.operations.get? id with
    | none =>
      rw [hrow] at h
      cases h
      cases hsucc
    | some op =>
      rw [hrow] at h
      cases h with
      | same => exact before op' hrow hsucc
      | moved now p result problem hmoves _ =>
        have hmoves : e.moves = some (id, .succeeded) := by
          rw [Eff.moves, hc, ← hsucc]
          exact hmoves
        exact .inr (hjustified id (hdone id hmoves) ⟨op, hrow⟩)

/-! ## The contract -/

def Job.mayStop (w : World) : Job → Prop
  | .runServe operationId _ => ∃ target, OpIs operationId "instance.serve" target w
  | .runStop operationId inst _ =>
    ∃ t, OpIs operationId "instance.stop" (some t) w ∧ Halted t inst.name inst.generation w
  | .stopInstance .. | .reconcile => True
  | _ => False

def stopContract (S : Site) (old : String → Prop) : Contract (agent S) where
  rules := stopRules
  inv := StopInv old
  rely _ _ _ := StopStep
  guar _ _ _ := StopStep
  born l _ w := l.mayStop w

def Stable (F : World → Prop) : Prop := ∀ w w', StopStep w w' → F w → F w'

variable {F : World → Prop} {α β : Type} {Q : α → World → Prop} {k : e.Reply → Act α}

theorem stop_op (hF : Stable F) (hb : e.beginsServe = false) (hs : e.single = true) (hstarts : e.starts = none)
    (hw : F w) (hdone : ∀ w, F w → ∀ id, e.moves = some (id, .succeeded) → Justified id w)
    (hk : ∀ w turn, F w → StopInv old w → F (e.after S turn w) →
      wp (stopContract S old) l i Q (k (e.answer S turn w)) (e.after S turn w)) :
    wp (stopContract S old) l i Q (.op e k) w := by
  intro w1 hr hi
  have hw1 : F w1 := hF w w1 hr hw
  refine ⟨trivial, fun n o _ hallow _ => ?_⟩
  obtain ⟨hi', hstep⟩ := stop_step (S := S) hb hs hallow hi (hdone w1 hw1) ⟨i, n, o⟩
  exact ⟨.alone hstarts hi' hstep, hk w1 ⟨i, n, o⟩ hw1 hi (hF _ _ hstep hw1)⟩

theorem stop_perform (hF : Stable F) (hb : e.beginsServe = false) (hs : e.single = true) (hstarts : e.starts = none)
    (hdone : ∀ w, F w → ∀ id, e.moves = some (id, .succeeded) → Justified id w) (w : World) (hw : F w) :
    wp (stopContract S old) l i (fun _ => F) (perform e) w :=
  stop_op hF hb hs hstarts hw hdone fun _ _ _ _ h => h

theorem Eff.reads_writes (h : e.reads = true) : e.writes = none := by
  cases e <;> first | rfl | cases h

theorem stop_read (hF : Stable F) (he : e.reads = true) (hw : F w) (hk : ∀ w turn, F w → StopInv old w →
      wp (stopContract S old) l i Q (k (e.answer S turn w)) w) :
    wp (stopContract S old) l i Q (.op e k) w := by
  have hnone := Eff.reads_writes he
  refine stop_op hF (by simp [Eff.beginsServe, hnone]) (by simp [Eff.single, hnone]) (Eff.starts_reads he) hw
    (fun _ _ id h => by simp [Eff.moves, hnone] at h) fun w1 turn hw1 hi _ => ?_
  rw [Eff.after_reads he]
  exact hk w1 turn hw1 hi

/-! ## `run_serve` and the reconciliation pass -/

theorem serveEff_stop {operationId : String} {inst : InstanceDocument}
    (he : serveEff operationId inst e) (w : World) (hw : OpIs operationId "instance.serve" target w) :
    wp (stopContract S old) l i (fun _ => OpIs operationId "instance.serve" target) (perform e) w := by
  have hplain : e.beginsServe = false ∧ e.single = true ∧ e.starts = none := by
    cases e with
    | command c => cases c <;> first | exact ⟨rfl, rfl, rfl⟩ | cases he
    | _ => first | exact ⟨rfl, rfl, rfl⟩ | cases he
  have hmoves : ∀ id, e.moves = some (id, .succeeded) → id = operationId := by
    intro id h
    cases e with
    | command c =>
      cases c with
      | transition => cases h; exact he
      | cancel => cases he
      | _ => cases h
    | _ => cases h
  obtain ⟨hb, hs, hstarts⟩ := hplain
  refine stop_perform (fun _ _ h => OpIs.step h) hb hs hstarts (fun w hw id h => ?_) w hw
  rw [hmoves id h]
  exact hw.justified fun _ h => absurd h (by decide)

theorem reconcileEff_stop (hF : Stable F) (he : reconcileEff e) (w : World) (hw : F w) :
    wp (stopContract S old) l i (fun _ => F) (perform e) w := by
  obtain ⟨⟨hb, hs, hstarts⟩, hmoves⟩ := he.plain
  refine stop_perform hF hb hs hstarts (fun w hw id h => ?_) w hw
  rw [hmoves] at h
  cases h

def Known (operations : List OperationDocument) (w : World) : Prop :=
  ∀ d ∈ operations, OpIs d.id d.kind d.target w

theorem known_operationSummaries (w : World) : Known w.db.operationSummaries w := by
  intro d hd
  obtain ⟨r, hr, rfl⟩ := List.mem_map.mp hd
  have hr : r ∈ w.db.operations.rows :=
    (List.perm_insertionSort _ w.db.operations.rows).mem_iff.mp (List.mem_of_mem_take hr)
  exact ⟨r.2, Table.get?_eq_some.mpr hr, rfl, rfl⟩

def ReadAs (t : String) (current : InstanceDocument) (w : World) : Prop :=
  ∀ row, w.db.instances.get? t = some row → Calm current row.metadata

theorem ReadAs.step (h : StopStep w w') (hw : ReadAs t current w) : ReadAs t current w' := by
  intro row' hr'
  obtain ⟨row, hr, hcalm⟩ := h.fleet t row' hr'
  exact IsTrans.trans _ _ _ (hw row hr) hcalm

theorem readAs_read (hc : Coherent w.db) (h : w.db.readInstance t = .ok current) : ReadAs t current w := by
  intro row hr
  rw [hc.readInstance_eq, hc.lookup_of_id hr] at h
  cases h
  exact Std.Refl.refl _

theorem ReadAs.drained (hw : ReadAs t current w)
    (h : recoveredStop current (w.routes.lookup current.name) = true) : Drained t w := by
  simp only [recoveredStop, Bool.and_eq_true, decide_eq_true_eq] at h
  intro row hr
  have hcalm := hw row hr
  refine ⟨hcalm.stopped h.1.1.1.1, fun route hroute => ?_⟩
  rw [hcalm.name] at hroute
  have hmissing := h.2
  unfold RouteRegistry.lookup at hmissing
  rw [hroute] at hmissing
  cases hmissing

variable {operations : List OperationDocument}

theorem transition_stop (hF : Stable F) {id : String} {next : OperationState} {progress : OperationProgress}
    {result : Option Json} {problem : Option ProblemDocument}
    (hdone : next = .succeeded → ∀ w, F w → Justified id w) (w : World) (hw : F w) :
    wp (stopContract S old) l i (fun _ => F) (transition id next progress result problem) w := by
  refine wp_bind (stop_perform (e := .command (.transition ..)) hF rfl rfl rfl (fun w hw id' h => ?_) w hw)
  cases h
  exact hdone rfl w hw

theorem completeRecovered_stop (hF : Stable F) (hknown : ∀ w, F w → Known operations w)
    (inst : InstanceDocument) (kind : Recovered) (w : World) (hw : F w) :
    wp (stopContract S old) l i (fun _ => F) (completeRecoveredOperation S operations inst kind) w := by
  unfold completeRecoveredOperation
  cases hrec : recoverable operations inst kind with
  | none => exact hw
  | some operation =>
    have hmem : operation ∈ operations := List.mem_of_find?_eq_some hrec
    have hp := List.find?_some hrec
    simp only [Bool.and_eq_true, decide_eq_true_eq] at hp
    obtain ⟨⟨hkind, htarget⟩, _⟩ := hp
    refine stop_read (e := .query (.inst inst.id)) hF rfl hw fun w1 t1 hw1 hi1 => ?_
    generalize hans : (Eff.query (.inst inst.id)).answer S t1 w1 = r
    cases r with
    | error e => exact hw1
    | ok current =>
      have hread : Stable fun w => F w ∧ ReadAs inst.id current w :=
        fun w w' h hw => ⟨hF w w' h hw.1, hw.2.step h⟩
      refine stop_read (e := .lookup current.name) hread rfl ⟨hw1, readAs_read hi1.coherent hans⟩
        fun w2 t2 hw2 _ => ?_
      refine stop_read (e := .lookup current.name) hread rfl hw2 fun w3 t3 hw3 _ => ?_
      generalize (Eff.lookup current.name).answer S t2 w2 = ready
      dsimp only [Prog.ret_bind]
      split
      · exact hw3.1
      rename_i hholds
      simp only [Bool.not_eq_true', Bool.not_eq_false] at hholds
      let F' : World → Prop := fun w => F w ∧ (kind = .stop → Drained inst.id w)
      have hF' : Stable F' := fun w w' h hw => ⟨hF w w' h hw.1, fun hk => h.drained _ (hw.2 hk)⟩
      have hw' : F' w3 := ⟨hw3.1, fun hk => by subst hk; exact hw3.2.drained hholds⟩
      have hclosed := safe_closed (stopContract S old) l i F'
      refine wp_mono (fun _ _ h => h.1) ((hclosed.bind (projectRouteHealth_closed hclosed
        fun name => reconcileEff_stop (e := .lookup name) hF' trivial) fun current' =>
        hclosed.bind ?_ fun _ => transition_stop hF' fun _ w hw => ?_) w3 hw')
      · unfold resumeOperation
        split
        · exact transition_stop hF' nofun
        · exact hclosed.ret _
      · refine (hknown w hw.1 operation hmem).justified fun t hk ht => ?_
        have hstop : kind = .stop := by
          cases kind with
          | stop => rfl
          | serve => rw [hkind] at hk; exact absurd hk (by decide)
        subst hstop
        rw [htarget] at ht
        cases ht
        exact hw.2 rfl

theorem reconcileOnce_stop (hF : Stable F) (w : World) (hw : F w) :
    wp (stopContract S old) l i (fun _ => F) (reconcileOnce S) w := by
  refine reconcileOnce_closed (safe_closed (stopContract S old) l i F)
    (fun e he => reconcileEff_stop hF he) (fun engines instances w hw => ?_) w hw
  refine stop_read (e := .query .operationSummaries) hF rfl hw fun w1 t1 hw1 _ => ?_
  let F' : World → Prop := fun w => F w ∧ Known w1.db.operationSummaries w
  have hF' : Stable F' := fun w w' h hw => ⟨hF w w' h hw.1, fun d hd => (hw.2 d hd).step h⟩
  exact wp_mono (fun _ _ h => h.1) (reconcileInstances_closed (safe_closed (stopContract S old) l i F')
      (fun e he => reconcileEff_stop hF' he) (fun inst kind => completeRecovered_stop hF' (fun _ h => h.2) inst kind)
      engines instances w1 ⟨hw1, known_operationSummaries w1⟩)

theorem runServe_stop (operationId : String) (inst : InstanceDocument)
    (hw : OpIs operationId "instance.serve" target w) :
    wp (stopContract S old) l i (fun _ _ => True) (runServe S operationId inst) w := by
  have hF : Stable (OpIs operationId "instance.serve" target) := fun _ _ h => OpIs.step h
  have hclosed := safe_closed (stopContract S old) l i (OpIs operationId "instance.serve" target)
  refine wp_mono (fun _ _ _ => trivial) (hclosed.bind (serveEngine_closed hclosed
    (fun e he => serveEff_stop he) (reconcileOnce_stop hF)) (fun _ => hclosed.bind ?_ fun _ => hclosed.ret _) w hw)
  exact stop_perform (e := .release _) hF rfl rfl rfl fun _ _ _ h => by cases h

/-! ## `stop_instance` and `run_stop` -/

theorem Halted.drain (h : Halted t name generation w) (turn : Turn Oracle) :
    Drained t ((Eff.drain name generation).after S turn w) := by
  intro row hr
  obtain ⟨hs, hn, hg⟩ := h row hr
  refine ⟨hs, fun route hroute => ?_⟩
  rw [hn] at hroute
  rw [hg]
  exact RouteRegistry.drain_healthy hroute

theorem halted_beginStop {stopping : InstanceDocument} (hc : Coherent w.db)
    (h : (Eff.command (.beginStop t)).answer S turn w = .ok stopping) :
    Halted t stopping.name stopping.generation ((Eff.command (.beginStop t)).after S turn w) := by
  intro row' hr'
  have h : ((Database.beginStop t).commit w.db).1 = .ok stopping := h
  have hr' : ((Database.beginStop t).commit w.db).2.instances.get? t = some row' := hr'
  have hrun := Database.beginStop_run hc t
  cases hl : w.db.lookup t with
  | none =>
    rw [hl] at hrun
    rw [Tx.commit_error hrun] at h
    cases h
  | some r =>
    rw [hl] at hrun
    rw [Tx.commit_ok hrun] at h hr'
    cases h
    have hrow := (Db.lookup_some hl).1
    have hid : r.2.metadata.id = r.1 := (hc.rows _ _ hrow).id_eq
    have hrow' : w.db.instances.get? (Database.stoppingIntent r.2.metadata).id = some r.2 := hid ▸ hrow
    rw [Db.get?_put hrow'] at hr'
    by_cases e : t = (Database.stoppingIntent r.2.metadata).id
    · rw [if_pos e] at hr'
      cases hr'
      exact ⟨rfl, rfl, rfl⟩
    · -- another instance of that id would have been the one that is stopped
      rw [if_neg e] at hr'
      rw [hc.lookup_of_id hr'] at hl
      cases hl
      exact absurd hid.symm e

theorem opIs_accept {tokenId key hash : String}
    {a : Database.AcceptedOperation}
    (h : (Eff.command (.accept tokenId kind key hash target)).answer S turn w = .ok a) (hr : a.reused = false) :
    OpIs a.operation.id kind target ((Eff.command (.accept tokenId kind key hash target)).after S turn w) :=
  ⟨_, Database.acceptOperation_new h hr, rfl, rfl⟩

def Stopped (o t : String) (w : World) : Prop := OpIs o "instance.stop" (some t) w ∧ Drained t w

theorem Stopped.justified {o : String} (h : Stopped o t w) : Justified o w :=
  h.1.justified fun _ _ ht => Option.some.inj ht ▸ h.2

theorem stable_stopped (o t : String) : Stable (Stopped o t) :=
  fun _ _ h hw => ⟨hw.1.step h, h.drained t hw.2⟩

theorem stable_halted (o t name : String) (generation : Nat) :
    Stable fun w => OpIs o "instance.stop" (some t) w ∧ Halted t name generation w :=
  fun _ _ h hw => ⟨hw.1.step h, hw.2.step h⟩

theorem drain_stop {o : String} {k : Unit → Act α} (hw : OpIs o "instance.stop" (some t) w ∧ Halted t name generation w)
    (hk : ∀ w, Stopped o t w → wp (stopContract S old) l i Q (k ()) w) :
    wp (stopContract S old) l i Q (.op (.drain name generation) k) w :=
  stop_op (stable_halted o t name generation) rfl rfl rfl hw (fun _ _ _ h => by cases h)
    fun _ turn hw _ hafter => hk _ ⟨hafter.1, hw.2.drain turn⟩

theorem runStop_stop (operationId : String) (inst : InstanceDocument) (timeoutSeconds : Nat)
    (hop : OpIs operationId "instance.stop" (some t) w) (hh : Halted t inst.name inst.generation w) :
    wp (stopContract S old) l i (fun _ _ => True) (runStop S operationId inst timeoutSeconds) w := by
  refine drain_stop ⟨hop, hh⟩ fun w hw => ?_
  refine wp_mono (Q := fun _ => Stopped operationId t) (fun _ _ _ => trivial) ?_
  have hF := stable_stopped operationId t
  have hclosed := safe_closed (stopContract S old) l i (Stopped operationId t)
  refine hclosed.bind (transition_stop hF fun h => by cases h) (fun _ => hclosed.bind (stopExactGeneration_closed hclosed
    (fun c => reconcileEff_stop (e := .outside c) hF trivial) _) fun removed => ?_) w hw
  split
  · refine hclosed.bind (reconcileEff_stop (e := .command (.setInstanceObserved ..)) hF trivial) fun _ => ?_
    exact hclosed.bind (transition_stop hF fun _ _ h => h.justified) fun _ => hclosed.ret _
  · exact hclosed.bind (transition_stop hF fun h => by cases h) fun _ => hclosed.ret _

theorem startStop_stop (operation : OperationDocument) (t : String) (timeoutSeconds : Nat)
    (hop : OpIs operation.id "instance.stop" (some t) w) :
    wp (stopContract S old) l i (fun _ _ => True) (startStop S operation t timeoutSeconds) w := by
  refine stop_op (e := .command (.beginStop t)) (fun _ _ h => OpIs.step h) rfl rfl rfl hop
    (fun _ _ _ h => by cases h) fun w1 turn _ hi hop' => ?_
  generalize hans : (Eff.command (.beginStop t)).answer S turn w1 = r
  cases r with
  | error e => trivial
  | ok stopping =>
    have hh := halted_beginStop hi.coherent hans
    generalize (Eff.command (.beginStop t)).after S turn w1 = w2 at hop' hh
    dsimp only [Prog.ret_bind]
    split
    · refine drain_stop ⟨hop', hh⟩ fun w hw => ?_
      refine wp_mono (Q := fun _ => Stopped operation.id t) (fun _ _ _ => trivial) ?_
      have hF := stable_stopped operation.id t
      have hclosed := safe_closed (stopContract S old) l i (Stopped operation.id t)
      exact hclosed.bind (hclosed.bind (transition_stop hF fun h => by cases h) fun _ =>
        transition_stop hF fun _ _ h => h.justified) (fun _ => hclosed.ret _) w hw
    · intro w3 hr hi3
      obtain ⟨hop3, hh3⟩ := stable_halted operation.id t _ _ _ _ hr ⟨hop', hh⟩
      refine ⟨trivial, fun n o _ hallow _ => ⟨?_, trivial⟩⟩
      obtain ⟨hi', hstep⟩ := stop_step (S := S) (e := .spawn _) rfl rfl hallow hi3 (fun _ h => by cases h) ⟨i, n, o⟩
      refine ⟨hi', hstep, fun l' hl' => ?_⟩
      cases hl'
      exact ⟨t, hop3, hh3⟩

theorem stopInstance_stop (caller : Caller) (id : String) (body : StopRequest) :
    wp (stopContract S old) l i (fun _ _ => True) (stopInstance S caller id body) w := by
  have hF : Stable fun _ => True := fun _ _ _ _ => trivial
  unfold stopInstance
  split
  · trivial
  refine stop_read (e := .query (.inst id)) hF rfl trivial fun w1 t1 _ _ => ?_
  generalize (Eff.query (.inst id)).answer S t1 w1 = r
  cases r with
  | error e => trivial
  | ok inst =>
    dsimp only [Prog.ret_bind]
    split
    · trivial
    have hmutation : wp (stopContract S old) l i (fun _ _ => True) requireExecutorForMutation w1 :=
      wp_reads (fun _ _ _ _ _ h => h) (fun _ _ _ _ _ => trivial) (fun _ _ _ _ => StopStep.refl _)
        requireExecutorForMutation_reads trivial
    refine hmutation.bind fun r w _ => ?_
    cases r with
    | some response => trivial
    | none =>
      dsimp only
      cases requiredIdempotency caller with
      | none => trivial
      | some key =>
        dsimp only
        cases canonicalRequestSha256 S.env body.toJson with
        | none => trivial
        | some hash =>
          dsimp only [acceptOperation]
          cases validateIdempotency key hash with
          | error e => trivial
          | ok _ =>
            refine stop_op (e := .command (.accept caller.id "instance.stop" key hash (some inst.id))) hF rfl rfl
              rfl trivial (fun _ _ _ h => by cases h) fun w2 t2 _ _ _ => ?_
            generalize hans : (Eff.command (.accept ..)).answer S t2 w2 = r
            cases r with
            | error e => trivial
            | ok accepted =>
              dsimp only [Prog.ret_bind]
              split
              · trivial
              · rename_i hreused
                exact startStop_stop _ _ _ (opIs_accept hans (by simpa using hreused))

theorem stopContract_sound : (stopContract S old).Sound fun _ _ _ _ => True where
  refl _ _ _ := StopStep.refl
  trans _ _ _ _ _ _ := StopStep.trans
  compat _ _ _ _ _ _ _ _ _ _ _ h := h
  stable _ _ _ _ _ _ h := h
  start l i w hborn _ := by
    cases l <;> try (cases hborn; done)
    case runServe =>
      obtain ⟨target, hop⟩ := hborn
      exact runServe_stop _ _ hop
    case stopInstance => exact stopInstance_stop _ _ _
    case runStop =>
      obtain ⟨t, hop, hh⟩ := hborn
      exact runStop_stop _ _ _ hop hh
    case reconcile =>
      exact (reconcileOnce_stop (F := fun _ => True) (fun _ _ _ _ => trivial) w trivial).bind fun _ _ h => h

end

/-! ## Whole runs -/

/-- The tasks that stop, serve or reconcile. A `run_serve` task works for an
operation that `serve_instance` accepted. -/
def Job.stopsOrServes (db : Db) : Job → Bool
  | .runServe operationId _ => (db.operations.get? operationId).any fun op => op.kind = "instance.serve"
  | .stopInstance .. | .reconcile => true
  | _ => false

theorem stop_final (S : Site) (before : List (Draw × Command)) (w : World) (jobs : List Job)
    (hjobs : ∀ j ∈ jobs, j.stopsOrServes (actorLoop S.env {} before) = true) {c : Pool}
    (hrun : (agent S).Runs stopRules (starting S { w with db := actorLoop S.env {} before } jobs) c)
    {o t : String} {op : OperationRow} {row : InstanceRow} (hop : c.world.db.operations.get? o = some op)
    (hkind : op.kind = "instance.stop") (htarget : op.target = some t) (hdone : op.state = .succeeded)
    (hnew : ∀ op₀, (actorLoop S.env {} before).operations.get? o = some op₀ → op₀.state ≠ .succeeded)
    (hrow : c.world.db.instances.get? t = some row) {route : HealthyRoute}
    (hroute : c.world.routes.lookup row.name = .healthy route) : route.generation ≠ row.generation := by
  let old : String → Prop := fun o =>
    ∃ op, (actorLoop S.env {} before).operations.get? o = some op ∧ op.state = .succeeded
  have hstart : (stopContract S old).Verified (fun _ _ _ _ => True)
      (starting S { w with db := actorLoop S.env {} before } jobs) := by
    refine .start stopContract_sound
      ⟨coherent_actorLoop S.env before, fun o op hop hs => .inl ⟨op, hop, hs⟩⟩ fun i l hl => ?_
    have hl := hjobs l (List.mem_of_getElem? hl)
    cases l with
    | runServe operationId inst =>
      obtain ⟨op, hop, hk⟩ := (Option.any_eq_true _ _).mp hl
      exact ⟨op.target, op, hop, of_decide_eq_true hk, rfl⟩
    | stopInstance => trivial
    | reconcile => trivial
    | _ => cases hl
  have hinv : StopInv old c.world := (Runs.verified stopContract_sound hstart (fun _ _ _ _ _ _ _ _ _ => trivial) hrun).1
  have hdrained : Drained t c.world := by
    rcases hinv.drained o op hop hdone with ⟨op₀, hop₀, hs₀⟩ | h
    · exact absurd hs₀ (hnew op₀ hop₀)
    · exact h op t hop hkind htarget
  obtain ⟨_, hnone⟩ := hdrained row hrow
  have hcoherent := hinv.coherent.rows t row hrow
  rw [← hcoherent.generation_eq]
  refine hnone route ?_
  rw [hcoherent.name_eq]
  unfold RouteRegistry.lookup at hroute
  split at hroute <;> cases hroute
  assumption

/-! ## Two runs -/

def serveBegun : List (Draw × Command) :=
  [({}, .promoteModel exampleModel false), ({ operationId := "op1" }, .accept "bootstrap-admin" "instance.serve" "k1"
      "299f138924ad954791de59f2cfdf258b9ba042b9f20e9ccc5d27a92b2817df23" (some "m")),
   ({}, .beginServe exampleInstance)]

def begunInstance : InstanceDocument := { exampleInstance with generation := 1, observed := .creating }

def servingWorld : World where
  db := actorLoop exampleSite.env {} serveBegun
  routes := RouteRegistry.markWarming .empty "m" 1
  admission := ⟨some "serve:m"⟩

def serveAndStop : List Job :=
  [.runServe "op1" begunInstance, .stopInstance ⟨"bootstrap-admin", some "k2"⟩ begunInstance.id exampleStop]

def stopEnded (c : Pool) (p : RouteLookup → Bool) : Bool :=
  (c.world.db.operations.get? "op2").any (fun op => op.kind = "instance.stop" &&
    op.target = some begunInstance.id && op.state = .succeeded) &&
  (c.world.db.instances.get? begunInstance.id).any (fun row => row.name = "m" && row.generation = 1) &&
  answeredOk c 0 && answeredOk c 1 && answeredOk c 2 && p (c.world.routes.lookup "m")

theorem stop_final_in_order : ∃ c row, (agent exampleSite).Runs stopRules
      (starting exampleSite servingWorld serveAndStop) c ∧
    c.world.db.instances.get? begunInstance.id = some row ∧
    ∀ route, c.world.routes.lookup row.name = .healthy route → route.generation ≠ row.generation := by
  have h : ((agent exampleSite).run stopRules (starting exampleSite servingWorld serveAndStop)
      (List.replicate 29 (serveTurn 0 "") ++ List.replicate 5 (serveTurn 1 "op2") ++
        List.replicate 5 (serveTurn 2 ""))).any (stopEnded · fun _ => true) = true := by
    decide +kernel
  obtain ⟨c, hrun, hp⟩ := reaches_of_run h
  simp only [stopEnded, Bool.and_eq_true] at hp
  obtain ⟨op, hop, hdone⟩ := (Option.any_eq_true _ _).mp hp.1.1.1.1.1
  obtain ⟨row, hrow, _⟩ := (Option.any_eq_true _ _).mp hp.1.1.1.1.2
  simp only [Bool.and_eq_true, decide_eq_true_eq] at hdone
  refine ⟨c, row, hrun, hrow, fun route => stop_final exampleSite serveBegun servingWorld serveAndStop
    (by decide +kernel) hrun hop hdone.1.1 hdone.1.2 hdone.2 (fun op₀ h₀ => ?_) hrow⟩
  have hnone : (actorLoop exampleSite.env {} serveBegun).operations.get? "op2" = none := by decide +kernel
  rw [hnone] at h₀
  cases h₀

theorem late_publish_revives : ∃ c route, (agent exampleSite).Runs .free
      (starting exampleSite servingWorld serveAndStop) c ∧
    stopEnded c (· = .healthy route) = true ∧ route.generation = 1 := by
  have h : ((agent exampleSite).run .free (starting exampleSite servingWorld serveAndStop)
      (List.replicate 19 (serveTurn 0 "") ++ List.replicate 5 (serveTurn 1 "op2") ++
        List.replicate 5 (serveTurn 2 "") ++ List.replicate 10 (serveTurn 0 ""))).any
      (stopEnded · (· = .healthy ⟨1, "org/m", "m", ⟨begunInstance.id, 1, (7, 7)⟩⟩)) = true := by
    decide +kernel
  obtain ⟨c, hrun, hp⟩ := reaches_of_run h
  exact ⟨c, _, hrun, hp, rfl⟩

end Sparkplane

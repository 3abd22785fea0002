import Sparkplane.LeaseSound
import Sparkplane.CancelSound

/-!
# A cancellation and the generations of others

The handler of `cancel_operation` finds the instance by its name after the
cancellation is committed, and the clean-up calls `begin_stop`, which takes no
generation. `cancellation_confined`: what a cancelled serve stops and drains was
created by its own `begin_serve`, in every run in which the cancellation is
committed while the name belongs to that generation, and no serve begins until
the clean-up has stopped it. `cleanup_stops_later_generation`: a delayed
clean-up stops the next generation instead.
-/

namespace Sparkplane

open Machine

variable {next : Option Eff} {α : Type} {response : Response} {requested : InstanceDocument} {caller : Caller}
variable {body : ServeRequest} {operation : OperationDocument} {id reference : String} {timeoutSeconds j : Nat}
variable {c : Pool}

/-! ## The rules -/

def Job.cleaning : Job → Option Eff → Bool
  | .cancelOperation .., some (.query (.inst _)) | .cancelOperation .., some (.drain ..)
  | .cancelOperation .., some (.spawn _) => true
  | .cancelPrehealthServe .., some (.command (.beginStop _)) => true
  | _, _ => false

def ownTarget (o : String) (w : World) : Bool :=
  match w.db.operations.get? o with
  | some op =>
    op.kind ≠ "instance.serve" || op.target.all fun t =>
      match w.db.readInstance t with
      | .ok i => (o, i.id, i.generation) ∈ w.history.created
      | .error _ => true
  | none => true

def confineRules : Rules World Job Eff Oracle where
  allow _ e _ w := match e with
    | .command (.cancel o) => ownTarget o w
    | _ => true
  apart _ e l next := !(e.beginsServe && l.cleaning next)

def Job.serves : Job → Option String
  | .runServe o _ | .cancelOperation _ o | .cancelPrehealthServe o _ => some o
  | _ => none

def Confined (o : String) (w : World) : Eff → Prop
  | .command (.beginStop reference) =>
    ∀ i, w.db.readInstanceTx reference = .ok i → (o, i.id, i.generation) ∈ w.history.created
  | .outside (.stopInstance input) => (o, input.instanceId, input.generation) ∈ w.history.created
  | .drain name generation => ∃ id row, w.db.instances.get? id = some row ∧ row.name = name ∧
      (o, id, generation) ∈ w.history.created
  | _ => True

/-! ## The contract -/

structure CalmRows (w w' : World) : Prop where
  kept : ∀ id row, w.db.instances.get? id = some row →
    ∃ row', w'.db.instances.get? id = some row' ∧ Calm row.metadata row'.metadata
  doc : ∀ id row', w'.db.instances.get? id = some row' →
    ∃ row, w.db.instances.get? id = some row ∧ Calm row.metadata row'.metadata

def Grows (w w' : World) : Prop := ∀ x ∈ w.history.created, x ∈ w'.history.created

structure ConfineInv (w : World) : Prop where
  coherent : Coherent w.db
  lease : LeaseOk w

structure ConfineRely (l : Job) (i : Nat) (next : Option Eff) (w w' : World) : Prop where
  grows : Grows w w'
  calm : l.cleaning next = true ∨ w.history.owner = some i → CalmRows w w'
  owner : w.history.owner = some i → w'.history.owner = some i ∧ w'.admission = w.admission

structure ConfineGuar (i : Nat) (e : Eff) (w w' : World) : Prop where
  grows : Grows w w'
  calm : e.beginsServe = false → CalmRows w w'
  holds : e.beginsServe = true → w.history.owner = some i
  leaves : Leaves i w w'

def Own (o : String) (inst : InstanceDocument) (w : World) : Prop :=
  (o, inst.id, inst.generation) ∈ w.history.created ∧
    ∃ row, w.db.instances.get? inst.id = some row ∧ inst.SameIdentity row.metadata

def Job.confineBorn (i : Nat) (w : World) : Job → Prop
  | .serveInstance .. | .stopInstance .. | .runStop .. | .cancelOperation .. => True
  | .runServe o inst => Holding i (serveLease inst.name) w ∧ Own o inst w
  | .cancelPrehealthServe o inst => Own o inst w
  | _ => False

def confineContract (S : Site) : Contract (agent S) where
  rules := confineRules
  inv := ConfineInv
  rely := ConfineRely
  guar _ := ConfineGuar
  born l i w := l.confineBorn i w
  stands l _ e w := ∀ o, l.serves = some o → Confined o w e

theorem CalmRows.refl (w : World) : CalmRows w w :=
  ⟨fun _ row h => ⟨row, h, Std.Refl.refl _⟩, fun _ row h => ⟨row, h, Std.Refl.refl _⟩⟩

theorem CalmRows.trans {w1 w2 w3 : World} (h1 : CalmRows w1 w2) (h2 : CalmRows w2 w3) : CalmRows w1 w3 := by
  refine ⟨fun id row1 hr1 => ?_, fun id row3 hr3 => ?_⟩
  · obtain ⟨row2, hr2, c1⟩ := h1.kept id row1 hr1
    obtain ⟨row3, hr3, c2⟩ := h2.kept id row2 hr2
    exact ⟨row3, hr3, IsTrans.trans _ _ _ c1 c2⟩
  · obtain ⟨row2, hr2, c2⟩ := h2.doc id row3 hr3
    obtain ⟨row1, hr1, c1⟩ := h1.doc id row2 hr2
    exact ⟨row1, hr1, IsTrans.trans _ _ _ c1 c2⟩

theorem CalmRows.after {S : Site} {e : Eff} {w : World} (hb : e.beginsServe = false) (hc : Coherent w.db)
    (turn : Turn Oracle) : CalmRows w (e.after S turn w) :=
  ⟨fun _ _ hr => (Eff.calm hb turn w).kept hc hr, fun _ _ hr => (Eff.calm hb turn w).doc hc hr⟩

theorem Own.step {o : String} {inst : InstanceDocument} {w w' : World} (hg : Grows w w') (hc : CalmRows w w')
    (hw : Own o inst w) : Own o inst w' := by
  obtain ⟨hmem, row, hr, hsame⟩ := hw
  obtain ⟨row', hr', hcalm⟩ := hc.kept _ row hr
  exact ⟨hg _ hmem, row', hr', ⟨hcalm.id.trans hsame.id, hcalm.name.trans hsame.name,
    hcalm.modelId.trans hsame.modelId, hcalm.generation.trans hsame.generation⟩⟩

section
variable {S : Site} {l : Job} {i n : Nat} {o : String} {inst : InstanceDocument} {e : Eff} {w w' : World}
  {t : Oracle} {leaseId : String}

/-! ## What the effects of a serve stop and drain -/

theorem Own.confined_drain (hc : Coherent w.db) (hw : Own o inst w) :
    Confined o w (.drain inst.name inst.generation) := by
  obtain ⟨hmem, row, hr, hsame⟩ := hw
  exact ⟨inst.id, row, hr, (hc.rows _ _ hr).name_eq.symm.trans hsame.name, hmem⟩

theorem Own.confined_beginStop (hc : Coherent w.db) (hw : Own o inst w) :
    Confined o w (.command (.beginStop inst.id)) := by
  obtain ⟨hmem, row, hr, hsame⟩ := hw
  intro i hi
  rw [Db.readInstanceTx_eq, hc.lookup_of_id hr] at hi
  cases hi
  rw [hsame.id, hsame.generation]
  exact hmem

theorem serveEff.confined (hc : Coherent w.db) (hw : Own o inst w) (he : serveEff o inst e) : Confined o w e := by
  cases e with
  | command c =>
    cases c with
    | beginStop reference =>
      have he : reference = inst.id := he
      subst he
      exact hw.confined_beginStop hc
    | _ => trivial
  | outside c =>
    cases c with
    | stopInstance input =>
      obtain ⟨hid, hgen⟩ : input.instanceId = inst.id ∧ input.generation = inst.generation := he
      show (o, input.instanceId, input.generation) ∈ _
      rw [hid, hgen]
      exact hw.1
    | _ => trivial
  | drain name generation =>
    obtain ⟨hname, hgen⟩ : name = inst.name ∧ generation = inst.generation := he
    subst hname hgen
    exact hw.confined_drain hc
  | _ => trivial

/-! ## One step -/

theorem grows_after (turn : Turn Oracle) (e : Eff) (w : World) : Grows w (e.after S turn w) := by
  intro x hx
  cases e <;> first | exact hx | exact List.mem_append_left _ hx

theorem confine_step (hb : e.beginsServe = false) (hi : ConfineInv w)
    (hrelease : ∀ id, e = .release id → w.admission.holder = some id → w.history.owner = some i) :
    ConfineInv (e.after S ⟨i, n, t⟩ w) ∧ ConfineGuar i e w (e.after S ⟨i, n, t⟩ w) := by
  obtain ⟨hlease, hleaves⟩ := lease_after (S := S) (n := n) (o := t) hi.lease hrelease
  have hcalm := Eff.calm (S := S) hb ⟨i, n, t⟩ w
  refine ⟨⟨(hcalm hi.coherent).1, hlease⟩, ⟨grows_after _ e w, fun _ => .after hb hi.coherent _,
    fun h => ?_, hleaves⟩⟩
  rw [hb] at h
  cases h

theorem confine_pays (hb : e.beginsServe = false) (hstarts : e.starts = none) (hi : ConfineInv w)
    (hrelease : ∀ id, e = .release id → w.admission.holder = some id → w.history.owner = some i) :
    (confineContract S).Pays l i n e w ((agent S).exec ⟨i, n, t⟩ e w).2 := by
  obtain ⟨hi', hg⟩ := confine_step (S := S) (n := n) (t := t) hb hi hrelease
  exact .alone hstarts hi' hg

theorem plain_pays (hp : e.plain = true) (hi : ConfineInv w) :
    (confineContract S).Pays l i n e w ((agent S).exec ⟨i, n, t⟩ e w).2 :=
  confine_pays (Eff.plain_beginsServe hp) (Eff.starts_plain hp) hi fun id h => by rw [h] at hp; cases hp

theorem Holding.confine (h : ConfineRely l i next w w') (hw : Holding i leaseId w) : Holding i leaseId w' := by
  obtain ⟨ho, ha⟩ := h.owner hw.1
  exact ⟨ho, ha.trans hw.2⟩

/-! ## `run_serve` -/

def Serving (i : Nat) (o : String) (inst : InstanceDocument) (w : World) : Prop :=
  Holding i (serveLease inst.name) w ∧ Own o inst w

theorem Serving.rely (h : ConfineRely l i next w w') (hw : Serving i o inst w) : Serving i o inst w' :=
  ⟨hw.1.confine h, hw.2.step h.grows (h.calm (.inr hw.1.1))⟩

theorem Own.after (hb : e.beginsServe = false) (hc : Coherent w.db) (hw : Own o inst w) (turn : Turn Oracle) :
    Own o inst (e.after S turn w) :=
  hw.step (grows_after turn e w) (.after hb hc turn)

theorem serving_perform (hp : e.plain = true)
    (hconfined : ∀ w, Coherent w.db → Own o inst w → ∀ o', l.serves = some o' → Confined o' w e) (w : World)
    (hw : Serving i o inst w) :
    wp (confineContract S) l i (fun _ => Serving i o inst) (perform e) w := by
  intro w1 hr hi
  have hi : ConfineInv w1 := hi
  have hw1 : Serving i o inst w1 := hw.rely hr
  exact ⟨hconfined w1 hi.coherent hw1.2, fun n turn _ _ _ => ⟨plain_pays hp hi, hw1.1.plain hp _,
    hw1.2.after (Eff.plain_beginsServe hp) hi.coherent _⟩⟩

theorem withLease_serving {leaseId' : String} {busy : α} {body : Act α} (w : World) (hw : Serving i o inst w) :
    wp (confineContract S) l i (fun r w => r = busy ∧ Serving i o inst w) (withLease leaseId' busy body) w := by
  intro w1 hr hi
  have hi : ConfineInv w1 := hi
  have hw1 : Serving i o inst w1 := hw.rely hr
  refine ⟨fun _ _ => trivial, fun n turn _ _ _ => ⟨confine_pays rfl rfl hi (fun _ h => by cases h), ?_⟩⟩
  obtain ⟨hans, hheld⟩ := hw1.1.tryAcquire (S := S) ⟨i, n, turn⟩
  have hans : ((agent S).exec ⟨i, n, turn⟩ (.tryAcquire leaseId') w1).1 = false := hans
  rw [hans]
  exact ⟨rfl, hheld, hw1.2.after rfl hi.coherent _⟩

theorem markAllQuarantined_serving : ∀ (evidence : List QuarantineEvidence) (w : World), Serving i o inst w →
    wp (confineContract S) l i (fun _ => Serving i o inst) (markAllQuarantined evidence) w
  | [], _, hw => hw
  | _ :: rest, w, hw => (withLease_serving w hw).bind fun _ w hw => markAllQuarantined_serving rest w hw.2

theorem reconcileInstances_serving (engines : List ObservedEngine) (operations : List OperationDocument) :
    ∀ (instances : List InstanceDocument) (w : World), Serving i o inst w →
    wp (confineContract S) l i (fun _ => Serving i o inst) (reconcileInstances S engines operations instances) w
  | [], _, hw => hw
  | _ :: rest, w, hw => by
    refine (withLease_serving w hw).bind fun go w hw => ?_
    obtain ⟨rfl, hw⟩ := hw
    exact reconcileInstances_serving engines operations rest w hw

theorem reconcileOnce_serving (w : World) (hw : Serving i o inst w) :
    wp (confineContract S) l i (fun _ => Serving i o inst) (reconcileOnce S) w := by
  refine (serving_perform (e := .query .listInstances) rfl (fun _ _ _ _ _ => trivial) w hw).bind fun r w hw => ?_
  cases r with
  | error e => exact hw
  | ok instances =>
    refine (serving_perform (e := .outside (.reconcileScan _)) rfl (fun _ _ _ _ _ => trivial) w hw).bind
      fun r w hw => ?_
    cases r with
    | error e => exact hw
    | ok scan =>
      refine (serving_perform (e := .command (.reconcileQuarantine _)) rfl (fun _ _ _ _ _ => trivial) w hw).bind
        fun r w hw => ?_
      cases r with
      | error e => exact hw
      | ok _ =>
        refine (markAllQuarantined_serving _ w hw).bind fun _ w hw => ?_
        refine (serving_perform (e := .query .operationSummaries) rfl (fun _ _ _ _ _ => trivial) w hw).bind
          fun r w hw => ?_
        cases r with
        | error e => exact hw
        | ok operations => exact reconcileInstances_serving _ _ _ w hw

theorem releasing_confine (hw : Holding i leaseId w) :
    wp (confineContract S) l i (fun _ _ => True) (releasing leaseId response) w := by
  intro w1 hr hi
  refine ⟨fun _ _ => trivial, fun n turn _ _ _ => ⟨confine_pays rfl rfl hi fun _ _ _ => ?_, trivial⟩⟩
  exact (hw.confine hr).1

theorem runServe_confine (hl : l.serves = some o) (hw : Serving i o inst w) :
    wp (confineContract S) l i (fun _ _ => True) (runServe S o inst) w := by
  refine wp_bind (wp_mono (fun _ w hw => releasing_confine hw.1)
    (serveEngine_closed (safe_closed (confineContract S) l i (Serving i o inst))
      (fun e he => serving_perform he.plain fun w hc hw o' ho' => by
        rw [hl] at ho'
        cases ho'
        exact serveEff.confined hc hw he)
      reconcileOnce_serving w hw))

/-! ## `serve_instance` -/

variable {p : Act α}

theorem confine_plain {F : World → Prop}
    (hp : p.Uses fun e => e.plain = true ∧ ∀ o w, l.serves = some o → Confined o w e)
    (hrely : ∀ next w w', ConfineRely l i next w w' → F w → F w')
    (hstep : ∀ e w t, e.plain = true → F w → F (Eff.after S t e w)) (hw : F w) :
    wp (confineContract S) l i (fun _ => F) p w :=
  wp_uses (fun e w w' _ h => hrely (some e) w w' h) (fun e w he hi hF => ⟨fun o => he.2 o w,
      fun _ _ _ _ _ => ⟨plain_pays he.1 hi, hstep e w _ he.1 hF⟩⟩) hp hw

theorem unserving (hl : l.serves = none) (hp : p.Uses (·.plain = true)) :
    p.Uses fun e => e.plain = true ∧ ∀ o w, l.serves = some o → Confined o w e :=
  hp.mono fun _ he => ⟨he, fun _ _ ho => by rw [hl] at ho; cases ho⟩

theorem confine_holding (hl : l.serves = none) (hp : p.Uses (·.plain = true)) (hw : Holding i leaseId w) :
    wp (confineContract S) l i (fun _ => Holding i leaseId) p w :=
  confine_plain (unserving hl hp) (fun _ _ _ h => Holding.confine h) (fun _ _ t he h => h.plain he t) hw

theorem confine_any (hl : l.serves = none) (hp : p.Uses (·.plain = true)) :
    wp (confineContract S) l i (fun _ _ => True) p w :=
  confine_plain (unserving hl hp) (fun _ _ _ _ h => h) (fun _ _ _ _ h => h) trivial

theorem tryAcquire_confine {k : Bool → Act α} {Q : α → World → Prop}
    (hheld : ∀ w, Holding i leaseId w → wp (confineContract S) l i Q (k true) w)
    (hbusy : ∀ w, wp (confineContract S) l i Q (k false) w) :
    wp (confineContract S) l i Q (.op (.tryAcquire leaseId) k) w := by
  intro w1 _ hi
  refine ⟨fun _ _ => trivial, fun n turn _ _ _ => ⟨confine_pays rfl rfl hi (fun _ h => by cases h), ?_⟩⟩
  rcases tryAcquire_cases (S := S) leaseId ⟨i, n, turn⟩ w1 with ⟨hans, _⟩ | ⟨hans, _, hw⟩
  · have hans : ((agent S).exec ⟨i, n, turn⟩ (.tryAcquire leaseId) w1).1 = false := hans
    rw [hans]
    exact hbusy _
  · have hans : ((agent S).exec ⟨i, n, turn⟩ (.tryAcquire leaseId) w1).1 = true := hans
    rw [hans]
    exact hheld _ hw

theorem own_beginServe {begun : Database.AcceptedInstance} {turn : Turn Oracle}
    (hc : Coherent w.db) (hans : (Eff.beginServe o requested).answer S turn w = .ok begun)
    (hnew : begun.reused = false) : Own o begun.inst ((Eff.beginServe o requested).after S turn w) := by
  have hans : ((Database.beginServe S.env requested).commit w.db).1 = .ok begun := hans
  refine ⟨?_, ?_⟩
  · refine List.mem_append_right _ ?_
    show _ ∈ createdBy o ((Database.beginServe S.env requested).commit w.db).1
    rw [hans, createdBy, hnew]
    exact List.mem_singleton.mpr rfl
  · show ∃ row, ((Database.beginServe S.env requested).commit w.db).2.instances.get? begun.inst.id = some row ∧ _
    rcases (Database.beginServe S.env requested).commit_cases w.db with ⟨a, db', hrun, hcommit⟩ | ⟨e, _, hcommit⟩
    · rw [hcommit] at hans ⊢
      cases hans
      rcases Database.beginServe_inv hc hrun with ⟨hreused, _⟩ | ⟨inst, rfl, hs⟩
      · rw [hnew] at hreused; cases hreused
      · exact ⟨Database.servedRow inst, (hs.instances _).trans (if_pos rfl), ⟨rfl, rfl, rfl, rfl⟩⟩
    · rw [hcommit] at hans; cases hans

theorem spawnServe_confine (hw : Serving i o inst w) : wp (confineContract S) l i (fun _ _ => True)
      ((perform (.spawn (.runServe o inst))).bind fun _ => .ret response) w := by
  intro w1 hr hi
  have hi : ConfineInv w1 := hi
  have hw1 : Serving i o inst w1 := hw.rely hr
  refine ⟨fun _ _ => trivial, fun n turn _ _ _ => ⟨?_, trivial⟩⟩
  obtain ⟨hi', hg⟩ := confine_step (S := S) (n := n) (t := turn) (e := .spawn (.runServe o inst)) rfl hi
    (fun _ h => by cases h)
  refine ⟨hi', hg, fun l' hl' => ?_⟩
  cases hl'
  exact ⟨⟨if_pos hw1.1.1, hw1.1.2⟩, hw1.2⟩

theorem beginServe_pays (hi : ConfineInv w) (hown : w.history.owner = some i) :
    (confineContract S).Pays l i n (.beginServe o requested) w
      ((agent S).exec ⟨i, n, t⟩ (.beginServe o requested) w).2 := by
  obtain ⟨hlease, hleaves⟩ := lease_after (S := S) (n := n) (o := t) (e := .beginServe o requested)
    (i := i) hi.lease (fun _ h => by cases h)
  refine .alone rfl ⟨?_, hlease⟩ ⟨grows_after _ _ _, (fun h => by cases h), fun _ => hown, hleaves⟩
  show Coherent ((Database.beginServe S.env requested).commit w.db).2
  rcases beginServe_commit S.env requested hi.coherent with h | ⟨inst, h⟩
  · rw [h]; exact hi.coherent
  · exact h.coherent hi.coherent

theorem serveUnderLease_confine (hl : l.serves = none) (hw : Holding i (serveLease requested.name) w) :
    wp (confineContract S) l i (fun _ _ => True) (serveUnderLease S caller body requested) w := by
  unfold serveUnderLease
  cases requiredIdempotency caller with
  | none => exact releasing_confine hw
  | some key =>
    dsimp only
    cases canonicalRequestSha256 S.env body.toJson with
    | none => exact releasing_confine hw
    | some hash =>
      refine (confine_holding hl (acceptOperation_plain _ _ _ _ _) hw).bind fun r w hw => ?_
      cases r with
      | error e => exact releasing_confine hw
      | ok accepted =>
        dsimp only
        split
        · exact releasing_confine hw
        unfold beginServe
        cases validateInstance S.env requested with
        | error e => exact releasing_confine hw
        | ok _ =>
          intro w1 hr hi
          have hi : ConfineInv w1 := hi
          have hheld := hw.confine hr
          refine ⟨fun _ _ => trivial, fun n turn _ _ _ => ⟨beginServe_pays hi hheld.1, ?_⟩⟩
          generalize hans : ((agent S).exec ⟨i, n, turn⟩ (.beginServe accepted.operation.id requested) w1).1 = r
          have hlater : Holding i (serveLease requested.name)
            ((agent S).exec ⟨i, n, turn⟩ (.beginServe accepted.operation.id requested) w1).2 := hheld
          cases r with
          | error e => exact releasing_confine hlater
          | ok begun =>
            have hname : begun.inst.name = requested.name := beginServe_named hi.coherent hans
            dsimp only [Prog.ret_bind]
            split
            · exact (confine_holding hl (completeReusedServe_plain _ _) hlater).bind fun _ w hw => releasing_confine hw
            · rename_i hnew
              have hown := own_beginServe hi.coherent hans (Bool.eq_false_iff.mpr hnew)
              rw [← hname] at hlater
              refine (serving_perform (e := .markWarming ..) rfl (fun _ _ _ _ _ => trivial) _ ⟨hlater, hown⟩).bind
                fun _ w hw => spawnServe_confine hw

theorem admitServe_confine {model : ModelDocument} {candidate : Candidate}
    {resources : RecipeResourceEnvelopeDocument} {profile : EngineProfile} {snapshot : ExecutorSnapshot}
    (hl : l.serves = none) :
    wp (confineContract S) l i (fun _ _ => True)
      (admitServe S caller body model candidate resources profile snapshot) w := by
  refine (confine_any (p := query .desiredResourceEnvelopes) hl ⟨rfl, fun _ => trivial⟩).bind fun r w _ => ?_
  cases r with
  | error e => trivial
  | ok desired =>
    dsimp only
    cases normalizeInstanceName S.env (requestedName body.name model) with
    | none => trivial
    | some name =>
      refine (confine_any (p := candidateStorage ..) hl ⟨rfl, fun _ => trivial⟩).bind fun r w _ => ?_
      cases r with
      | error e => trivial
      | ok storage =>
        refine (confine_any (p := outside .unixMillis) hl ⟨rfl, fun _ => trivial⟩).bind fun now w _ => ?_
        split
        · trivial
        · exact tryAcquire_confine (fun w hw => serveUnderLease_confine hl hw) fun _ => trivial

theorem admission_confine {model : String} {name : Option String} {dryRun : Bool} (hl : l.serves = none) :
    wp (confineContract S) l i (fun _ _ => True) (admission S model name dryRun) w := by
  refine (confine_any hl (requireExecutorForMutation_uses rfl)).bind fun r w _ => ?_
  cases r with
  | some response => trivial
  | none =>
    dsimp only
    split
    · trivial
    refine (confine_any (p := query (.model model)) hl ⟨rfl, fun _ => trivial⟩).bind fun r w _ => ?_
    cases r with
    | error e => trivial
    | ok model =>
      refine tryAcquire_confine (fun w hw => ?_) fun _ => trivial
      dsimp only [Prog.ret_bind]
      rw [if_pos rfl]
      exact (confine_holding hl ((previewAdmission_reads model name).mono fun _ => Eff.plain_reads) hw).bind
        fun response w hw => releasing_confine hw

theorem serveInstance_confine (hl : l.serves = none) :
    wp (confineContract S) l i (fun _ _ => True) (serveInstance S caller body) w := by
  unfold serveInstance
  split
  · exact admission_confine hl
  refine (confine_any hl (requireExecutorForMutation_uses rfl)).bind fun r w _ => ?_
  cases r with
  | some response => trivial
  | none =>
    refine (confine_any (p := query (.model body.model)) hl ⟨rfl, fun _ => trivial⟩).bind fun r w _ => ?_
    cases r with
    | error e => trivial
    | ok model =>
      dsimp only
      cases selectCandidate S model with
      | error response => trivial
      | ok candidate =>
        dsimp only
        cases candidate.policy.resourcesFor with
        | error e => trivial
        | ok resources =>
          cases candidate.policy.profileFor with
          | error e => trivial
          | ok profile =>
            refine (confine_any (p := outside .snapshot) hl ⟨rfl, fun _ => trivial⟩).bind fun r w _ => ?_
            cases r with
            | error e => trivial
            | ok snapshot => exact admitServe_confine hl

/-! ## `stop_instance` -/

theorem startStop_confine (hl : l.serves = none) :
    wp (confineContract S) l i (fun _ _ => True) (startStop S operation id timeoutSeconds) w := by
  refine (confine_any (p := command (.beginStop id)) hl ⟨rfl, fun _ => trivial⟩).bind fun r w _ => ?_
  cases r with
  | error e => trivial
  | ok stopping =>
    dsimp only
    split
    · refine confine_any hl ⟨rfl, fun _ => ⟨rfl, fun _ => ⟨rfl, fun _ => trivial⟩⟩⟩
    · intro w1 _ hi
      refine ⟨fun _ _ => trivial, fun n turn _ _ _ => ⟨?_, trivial⟩⟩
      obtain ⟨hi', hg⟩ := confine_step (S := S) (i := i) (n := n) (t := turn)
        (e := .spawn (.runStop operation.id stopping timeoutSeconds)) rfl hi (fun _ h => by cases h)
      refine ⟨hi', hg, fun l' hl' => ?_⟩
      cases hl'
      trivial

theorem stopInstance_confine {body : StopRequest} (hl : l.serves = none) :
    wp (confineContract S) l i (fun _ _ => True) (stopInstance S caller id body) w := by
  unfold stopInstance
  split
  · trivial
  refine (confine_any (p := query (.inst id)) hl ⟨rfl, fun _ => trivial⟩).bind fun r w _ => ?_
  cases r with
  | error e => trivial
  | ok inst =>
    dsimp only
    split
    · trivial
    refine (confine_any hl (requireExecutorForMutation_uses rfl)).bind fun r w _ => ?_
    cases r with
    | some response => trivial
    | none =>
      dsimp only
      cases requiredIdempotency caller with
      | none => trivial
      | some key =>
        dsimp only
        cases canonicalRequestSha256 S.env body.toJson with
        | none => trivial
        | some hash =>
          refine (confine_any hl (acceptOperation_plain _ _ _ _ _)).bind fun r w _ => ?_
          cases r with
          | error e => trivial
          | ok accepted =>
            dsimp only
            split
            · trivial
            · exact startStop_confine hl

theorem runStop_confine {operationId : String} (hl : l.serves = none) :
    wp (confineContract S) l i (fun _ _ => True) (runStop S operationId inst timeoutSeconds) w := by
  have hclosed := Prog.uses_closed (R := Eff.Reply) fun e : Eff => e.plain = true
  have hplain : ∀ e : Eff, e.plain = true → (perform e).Uses (·.plain = true) := fun e he => ⟨he, fun _ => trivial⟩
  have htransition : ∀ next progress result problem,
      (transition operationId next progress result problem).Uses (·.plain = true) :=
    fun _ _ _ _ => ⟨rfl, fun _ => trivial⟩
  refine confine_any hl ?_
  refine hclosed.bind (hplain _ rfl) fun _ => hclosed.bind (htransition ..) fun _ =>
    hclosed.bind (stopExactGeneration_closed hclosed (fun _ => hplain _ rfl) _) fun stopped => ?_
  split
  · exact hclosed.bind (hplain _ rfl) fun _ => hclosed.bind (htransition ..) fun _ => trivial
  · exact hclosed.bind (htransition ..) fun _ => trivial

/-! ## `cancel_operation` -/

def Mine (o reference : String) (w : World) : Prop :=
  ∀ id row, w.db.instances.get? id = some row → id = reference ∨ row.metadata.name = reference →
    (o, id, row.metadata.generation) ∈ w.history.created

theorem Mine.step (hg : Grows w w') (hcalm : CalmRows w w') (hw : Mine o reference w) : Mine o reference w' := by
  intro id row' hr' hmeans
  obtain ⟨row, hr, hsame⟩ := hcalm.doc id row' hr'
  rw [hsame.generation]
  exact hg _ (hw id row hr (hmeans.imp_right fun h => hsame.name.symm.trans h))

theorem Mine.own (hc : Coherent w.db) (hw : Mine o reference w)
    (h : w.db.readInstance reference = .ok inst) : Own o inst w := by
  rw [hc.readInstance_eq] at h
  cases hl : w.db.lookup reference with
  | none => rw [hl] at h; cases h
  | some r =>
    rw [hl] at h
    cases h
    obtain ⟨hr, hmeans⟩ := Db.lookup_some hl
    have hrow := hc.rows _ _ hr
    refine ⟨?_, r.2, ?_, ⟨rfl, rfl, rfl, rfl⟩⟩
    · rw [hrow.id_eq]
      exact hw _ _ hr (hmeans.imp_right fun h => hrow.name_eq.trans h)
    · rw [hrow.id_eq]
      exact hr

theorem mine_of_ownTarget {op : OperationRow} (hc : Coherent w.db)
    (hown : ownTarget o w = true) (hop : w.db.operations.get? o = some op) (hkind : op.kind = "instance.serve")
    (htarget : op.target = some reference) : Mine o reference w := by
  intro id row hr hmeans
  have hrow := hc.rows _ _ hr
  have hlookup : w.db.lookup reference = some (id, row) := by
    rcases hmeans with rfl | hname
    · exact hc.lookup_of_id hr
    · rw [← hname, hrow.name_eq]
      exact hc.lookup_of_name hr
  have hread : w.db.readInstance reference = .ok row.metadata := by
    rw [hc.readInstance_eq, hlookup]
  simp only [ownTarget, hop, hkind, htarget, hread, Option.all_some, hrow.id_eq] at hown
  simpa using hown

theorem cancelled_document {d : Draw} {db : Db} (h : (Database.cancelOperation d o db).1 = .ok operation) :
    ∃ op, db.operations.get? o = some op ∧ operation.kind = op.kind ∧ operation.target = op.target ∧
      operation.id = o := by
  rw [Database.cancelOperation_run] at h
  cases hop : db.operations.get? o with
  | none => rw [hop] at h; cases h
  | some op =>
    rw [hop] at h
    dsimp only at h
    refine ⟨op, rfl, ?_⟩
    split at h
    · cases h; exact ⟨rfl, rfl, rfl⟩
    · split at h
      · cases h
      · cases h; exact ⟨rfl, rfl, rfl⟩

theorem cleanUpServe_confine (hid : operation.id = o)
    (hmine : operation.kind = "instance.serve" → ∀ t, operation.target = some t → Mine o t w) :
    wp (confineContract S) (.cancelOperation caller o) i (fun _ _ => True) (cleanUpServe operation) w := by
  unfold cleanUpServe
  by_cases hkind : operation.kind = "instance.serve"
  · rw [if_pos hkind]
    cases ht : operation.target with
    | none => trivial
    | some target =>
      intro w1 h1 hi1
      have hi1 : ConfineInv w1 := hi1
      have hmine1 : Mine o target w1 := (hmine hkind target ht).step h1.grows (h1.calm (.inl rfl))
      refine ⟨fun _ _ => trivial, fun n1 t1 _ _ _ => ⟨plain_pays rfl hi1, ?_⟩⟩
      have hans : ((agent S).exec ⟨i, n1, t1⟩ (.query (.inst target)) w1).1 = w1.db.readInstance target := rfl
      rw [hans, show ((agent S).exec ⟨i, n1, t1⟩ (.query (.inst target)) w1).2 = w1 from Eff.after_reads rfl]
      cases hread : w1.db.readInstance target with
      | error e => trivial
      | ok inst =>
        have hown1 : Own o inst w1 := hmine1.own hi1.coherent hread
        dsimp only [Prog.ret_bind]
        split
        · trivial
        intro w2 h2 hi2
        have hi2 : ConfineInv w2 := hi2
        have hown2 : Own o inst w2 := hown1.step h2.grows (h2.calm (.inl rfl))
        refine ⟨fun o' ho' => ?_, fun n2 t2 _ _ _ => ⟨plain_pays rfl hi2, ?_⟩⟩
        · cases ho'
          exact hown2.confined_drain hi2.coherent
        have hown₂' := hown2.after (S := S) (e := .drain inst.name inst.generation) rfl hi2.coherent ⟨i, n2, t2⟩
        intro w3 h3 hi3
        have hown3 : Own o inst w3 := hown₂'.step h3.grows (h3.calm (.inl rfl))
        refine ⟨fun _ _ => trivial, fun n3 t3 _ _ _ => ⟨?_, trivial⟩⟩
        obtain ⟨hi', hg⟩ := confine_step (S := S) (i := i) (n := n3) (t := t3)
          (e := .spawn (.cancelPrehealthServe operation.id inst)) rfl hi3 (fun _ h => by cases h)
        refine ⟨hi', hg, fun l' hl' => ?_⟩
        cases hl'
        rw [hid]
        exact hown3
  · rw [if_neg hkind]
    trivial

theorem cancelOperation_confine : wp (confineContract S) (.cancelOperation caller o) i (fun _ _ => True)
      (cancelOperation S caller o) w := by
  have look : ∀ {α : Type} {p : Act α} (w : World),
      (p.Uses fun e => e.plain = true ∧ ∀ o' w, (Job.cancelOperation caller o).serves = some o' → Confined o' w e) →
      wp (confineContract S) (.cancelOperation caller o) i (fun _ _ => True) p w :=
    fun w hp => confine_plain hp (fun _ _ _ _ h => h) (fun _ _ _ _ h => h) trivial
  refine (look w (requireExecutorForMutation_uses ⟨rfl, fun _ _ _ => trivial⟩)).bind fun r w _ => ?_
  cases r with
  | some response => trivial
  | none =>
    dsimp only
    split
    · trivial
    refine (look w (p := query (.operation o)) ⟨⟨rfl, fun _ _ _ => trivial⟩, fun _ => trivial⟩).bind fun r w _ => ?_
    cases r with
    | error e => trivial
    | ok current =>
      dsimp only
      split
      · trivial
      split
      · trivial
      refine (look w (acknowledgeCancel_uses (fun _ => ⟨rfl, fun _ _ _ => trivial⟩) current)).bind fun r w _ => ?_
      cases r with
      | some response => trivial
      | none =>
        intro w1 _ hi
        have hi : ConfineInv w1 := hi
        refine ⟨fun _ _ => trivial, fun n turn _ hallow _ => ⟨plain_pays rfl hi, ?_⟩⟩
        have hown : ownTarget o w1 = true := hallow
        generalize hans : ((agent S).exec ⟨i, n, turn⟩ (.command (.cancel o)) w1).1 = r
        cases r with
        | error e => trivial
        | ok operation =>
          obtain ⟨op, hop, hkind, htarget, hid⟩ := cancelled_document hans
          dsimp only [Prog.ret_bind]
          refine (cleanUpServe_confine hid fun hserve t ht => ?_).bind fun _ _ h => h
          have hmine := mine_of_ownTarget hi.coherent hown hop (hkind.symm.trans hserve) (htarget.symm.trans ht)
          exact hmine.step (grows_after _ _ _) (.after rfl hi.coherent _)

theorem cleanUp_confine (hw : Own o inst w) : wp (confineContract S) (.cancelPrehealthServe o inst) i (fun _ _ => True)
      (do cancelPrehealthServe inst; return .finished : Act Response) w := by
  refine wp_bind ?_
  intro w1 h1 hi1
  have hi1 : ConfineInv w1 := hi1
  have hown1 : Own o inst w1 := hw.step h1.grows (h1.calm (.inl rfl))
  refine ⟨fun o' ho' => ?_, fun n1 t1 _ _ _ => ⟨plain_pays rfl hi1, ?_⟩⟩
  · cases ho'
    exact hown1.confined_beginStop hi1.coherent
  intro w2 h2 hi2
  refine ⟨fun o' ho' => ?_, fun n2 t2 _ _ _ => ⟨plain_pays rfl hi2, ?_⟩⟩
  · cases ho'
    exact h2.grows _ (grows_after _ _ _ _ hown1.1)
  intro w3 _ hi3
  exact ⟨fun _ _ => trivial, fun n3 t3 _ _ _ => ⟨plain_pays rfl hi3, trivial⟩⟩

theorem confineContract_sound : (confineContract S).Sound fun _ _ _ _ => True where
  refl _ _ _ w := ⟨fun _ h => h, fun _ => CalmRows.refl w, fun h => ⟨h, rfl⟩⟩
  trans _ _ _ _ _ _ h1 h2 := by
    refine ⟨fun x hx => h2.grows x (h1.grows x hx), fun h => ?_, fun h => ?_⟩
    · exact (h1.calm h).trans (h2.calm (h.imp_right fun h => (h1.owner h).1))
    · obtain ⟨ho, ha⟩ := h1.owner h
      obtain ⟨ho', ha'⟩ := h2.owner ho
      exact ⟨ho', ha'.trans ha⟩
  compat _ i e _ _ l' j next hij hapart _ hg := by
    refine ⟨hg.grows, fun h => hg.calm ?_, hg.leaves j (Ne.symm hij)⟩
    have hapart : (!(e.beginsServe && l'.cleaning next)) = true := hapart
    cases hb : e.beginsServe with
    | false => rfl
    | true =>
      rcases h with hd | ho
      · rw [hb, hd] at hapart; cases hapart
      · exact absurd (Option.some.inj ((hg.holds hb).symm.trans ho)) hij
  stable _ _ _ _ _ _ h := h
  start l i w hborn _ := by
    cases l <;> try (cases hborn; done)
    case serveInstance => exact serveInstance_confine rfl
    case runServe => exact runServe_confine rfl hborn
    case stopInstance => exact stopInstance_confine rfl
    case runStop => exact runStop_confine rfl
    case cancelOperation => exact cancelOperation_confine
    case cancelPrehealthServe => exact cleanUp_confine hborn

end

/-! ## Whole runs -/

def Job.lifecycle : Job → Bool
  | .serveInstance .. | .stopInstance .. | .cancelOperation .. => true
  | _ => false

theorem cancellation_confined (S : Site) (before : List (Draw × Command)) (w : World)
    (created : List (String × String × Nat)) (jobs : List Job) (hjobs : ∀ j ∈ jobs, j.lifecycle = true) {c : Pool}
    (hrun : (agent S).Runs confineRules (starting S { w with
      db := actorLoop S.env {} before, admission := {}, history := { created } } jobs) c)
    {j : Nat} {l : Job} {p : Act Response} {e : Eff} {o : String} (hj : c.tasks[j]? = some (l, p))
    (hnext : p.next = some e) (hl : l.serves = some o) : Confined o c.world e := by
  have hstart : (confineContract S).Verified (fun _ _ _ _ => True) (starting S { w with
      db := actorLoop S.env {} before, admission := {}, history := { created } } jobs) := by
    refine .start confineContract_sound ⟨coherent_actorLoop S.env before, rfl⟩ fun i l hl => ?_
    have hl := hjobs l (List.mem_of_getElem? hl)
    cases l <;> trivial
  have hverified := Runs.verified confineContract_sound hstart (fun _ _ _ _ _ _ _ _ _ => trivial) hrun
  have hshows := hverified.shows confineContract_sound hj
  cases p with
  | ret r => cases hnext
  | op e' k =>
    cases hnext
    exact hshows o hl

/-! ## Two runs -/

def confineWorld : World :=
  { db := actorLoop exampleSite.env {} modelExists }

def serveThenCancel : List Job :=
  [.serveInstance ⟨"bootstrap-admin", some "k1"⟩ (exampleServe "m"),
   .cancelOperation ⟨"bootstrap-admin", some "k2"⟩ "op1"]

def aboutToStop (c : Pool) (j : Nat) (o id : String) : Bool :=
  (c.tasks[j]?).any fun t => t.1.serves = some o && match t.2.next with
    | some (.command (.beginStop reference)) => reference = id
    | _ => false

theorem next_of_aboutToStop {o : String} (h : aboutToStop c j o id = true) :
    ∃ l p, c.tasks[j]? = some (l, p) ∧ l.serves = some o ∧ p.next = some (.command (.beginStop id)) := by
  obtain ⟨⟨l, p⟩, hj, h⟩ := (Option.any_eq_true _ _).mp h
  simp only [Bool.and_eq_true, decide_eq_true_eq] at h
  refine ⟨l, p, hj, h.1, ?_⟩
  have hnext := h.2
  split at hnext
  · rename_i reference heq
    rw [heq, of_decide_eq_true hnext]
  · cases hnext

def intentOf (c : Pool) (id : String) : Option (Nat × InstanceDesiredState) :=
  (c.world.db.instances.get? id).map fun row => (row.generation, row.desiredState)

theorem cancellation_confined_in_time : ∃ c, (agent exampleSite).Runs confineRules
      (starting exampleSite confineWorld serveThenCancel) c ∧
    aboutToStop c 3 "op1" exampleInstance.id = true ∧
    Confined "op1" c.world (.command (.beginStop exampleInstance.id)) := by
  have h : ((agent exampleSite).run confineRules (starting exampleSite confineWorld serveThenCancel)
      (List.replicate 11 (serveTurn 0 "op1") ++ List.replicate 7 (serveTurn 2 "") ++
        List.replicate 6 (serveTurn 1 ""))).any (aboutToStop · 3 "op1" exampleInstance.id) = true := by
    decide +kernel
  obtain ⟨c, hrun, habout⟩ := reaches_of_run h
  obtain ⟨l, p, hj, hl, hnext⟩ := next_of_aboutToStop habout
  exact ⟨c, hrun, habout, cancellation_confined exampleSite modelExists confineWorld [] serveThenCancel
    (by decide) hrun hj hnext hl⟩

theorem cleanup_stops_later_generation : ∃ c c', (agent exampleSite).Runs .free
      (starting exampleSite confineWorld (serveThenCancel ++
        [.serveInstance ⟨"bootstrap-admin", some "k3"⟩ (exampleServe "m")])) c ∧
    (agent exampleSite).Runs .free c c' ∧ aboutToStop c 4 "op1" exampleInstance.id = true ∧
    ("op1", exampleInstance.id, 2) ∉ c.world.history.created ∧
    intentOf c exampleInstance.id = some (2, .running) ∧ intentOf c' exampleInstance.id = some (2, .stopped) := by
  have h : ((agent exampleSite).run .free (starting exampleSite confineWorld (serveThenCancel ++
        [.serveInstance ⟨"bootstrap-admin", some "k3"⟩ (exampleServe "m")]))
      (List.replicate 11 (serveTurn 0 "op1") ++ List.replicate 7 (serveTurn 3 "") ++
        List.replicate 6 (serveTurn 1 "") ++ List.replicate 5 (serveTurn 3 "") ++
        List.replicate 11 (serveTurn 2 "op3") ++ List.replicate 29 (serveTurn 5 ""))).any (fun c =>
      (aboutToStop c 4 "op1" exampleInstance.id &&
        decide (("op1", exampleInstance.id, 2) ∉ c.world.history.created) &&
        intentOf c exampleInstance.id = some (2, .running)) &&
      ((agent exampleSite).run .free c [serveTurn 4 ""]).any
        (fun c' => intentOf c' exampleInstance.id = some (2, .stopped))) = true := by
    decide +kernel
  obtain ⟨c, hrun, hp⟩ := reaches_of_run h
  rw [Bool.and_eq_true] at hp
  obtain ⟨c', hrun', hp'⟩ := reaches_of_run hp.2
  simp only [Bool.and_eq_true, decide_eq_true_eq] at hp hp'
  exact ⟨c, c', hrun, hrun', hp.1.1.1, hp.1.1.2, hp.1.2, hp'⟩

end Sparkplane

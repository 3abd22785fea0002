import Mathlib.Data.List.Perm.Subperm
import Mathlib.Algebra.Order.BigOperators.Group.List
import Mathlib.Algebra.Order.Group.Nat
import Sparkplane.LeaseSound

/-!
# Memory admission and the transition lease

`serve_instance` decides on a list of running engines that it read before it
takes the lease. `admission_sound`: if no other request begins a serve between
that read and the lease, the engines that should run never need more than the
memory the policy leaves. `stale_admission_oversubscribes` is a run without
that rule.
-/

namespace Sparkplane

open Database
open Machine

variable {db db' : Db} {α : Type} {c : Command} {requested : InstanceDocument} {response : Response}
variable {caller : Caller} {body : ServeRequest}

/-! ## What the running engines need -/

def Db.committedBytes (db : Db) : Nat := (db.desiredResourceEnvelopes.map (·.coldStartPeakBytes)).sum

def Db.envelope (db : Db) (id : String) : Option DeclaredEnvelope :=
  match db.instanceResources.get? id, db.instances.get? id with
  | some r, some i => if i.desiredState = .running then some ⟨id, i.name, r.coldStartPeakBytes⟩ else none
  | _, _ => none

theorem Db.envelope_some {id : String} {e : DeclaredEnvelope} (h : db.envelope id = some e) :
    ∃ r i, db.instanceResources.get? id = some r ∧ db.instances.get? id = some i ∧
      i.desiredState = .running ∧ e = ⟨id, i.name, r.coldStartPeakBytes⟩ := by
  unfold envelope at h
  split at h
  · rename_i r i hr hi
    split at h
    · rename_i hrun
      exact ⟨r, i, hr, hi, hrun, (Option.some.inj h).symm⟩
    · cases h
  · cases h

theorem Db.mem_desired {e : DeclaredEnvelope} :
    e ∈ db.desiredResourceEnvelopes ↔ db.envelope e.instanceId = some e := by
  unfold desiredResourceEnvelopes sortByName
  rw [(List.perm_insertionSort _ _).mem_iff, List.mem_filterMap]
  constructor
  · rintro ⟨⟨id, r⟩, hr, h⟩
    have hg : db.instanceResources.get? id = some r := Table.get?_eq_some.mpr hr
    cases hi : db.instances.get? id with
    | none => simp [hi] at h
    | some i =>
      simp only [hi] at h
      split at h
      · rename_i hrun
        cases h
        simp [envelope, hg, hi, hrun]
      · cases h
  · intro h
    obtain ⟨r, i, hr, hi, hrun, he⟩ := envelope_some h
    refine ⟨(e.instanceId, r), Table.get?_eq_some.mp hr, ?_⟩
    simp only [hi, hrun, ite_true]
    exact congrArg some he.symm

theorem Db.desired_nodup (db : Db) : db.desiredResourceEnvelopes.Nodup := by
  unfold desiredResourceEnvelopes sortByName
  rw [(List.perm_insertionSort _ _).nodup_iff]
  refine List.Pairwise.filterMap _ ?_ (List.pairwise_map.mp db.instanceResources.nodup)
  intro x y hxy e he e' he' heq
  split at he
  · split at he
    · split at he'
      · split at he'
        · cases he
          cases he'
          exact hxy (congrArg DeclaredEnvelope.instanceId heq)
        · cases he'
      · cases he'
    · cases he
  · cases he

theorem sum_le_of_subset {f : α → Nat} {l l' : List α} (hn : l.Nodup) (h : l ⊆ l') :
    (l.map f).sum ≤ (l'.map f).sum := by
  obtain ⟨m, hperm, hsub⟩ := List.Nodup.subperm hn h
  rw [← (hperm.map f).sum_eq]
  exact (hsub.map f).sum_le_sum fun _ _ => Nat.zero_le _

def Shrinks (db db' : Db) : Prop := db'.desiredResourceEnvelopes ⊆ db.desiredResourceEnvelopes

theorem Shrinks.committed (h : Shrinks db db') : db'.committedBytes ≤ db.committedBytes :=
  sum_le_of_subset db'.desired_nodup h

/-! ## Commands and what engines need -/

def SameBytes (db db' : Db) : Prop := ∀ id, (db'.instanceResources.get? id).map ResourceRow.coldStartPeakBytes =
    (db.instanceResources.get? id).map ResourceRow.coldStartPeakBytes

instance : Std.Refl SameBytes := ⟨fun _ _ => rfl⟩

instance : IsTrans Db SameBytes := ⟨fun _ _ _ h1 h2 id => (h2 id).trans (h1 id)⟩

theorem SameBytes.of_eq (h : db'.instanceResources = db.instanceResources) : SameBytes db db' := fun id => by rw [h]

theorem SameBytes.of_touches {F : List Area} (hF : Area.fleet ∉ F) (h : Touches F db db') :
    SameBytes db db' := .of_eq (h .fleet hF).2.1

namespace Database

variable (d : Draw)

theorem suppress_sameBytes (db : Db) (id : String) (suppressed : Bool) (cause : Option String) :
    SameBytes db (suppress db id suppressed cause) := by
  intro id'
  show ((db.instanceResources.modify id _).get? id').map _ = _
  rw [Table.get?_modify]
  by_cases e : id' = id
  · subst e
    rw [if_pos rfl, Option.map_map]
    rfl
  · rw [if_neg e]

theorem persistInstance_sameBytes (i : InstanceDocument) : (persistInstance i).Keeps SameBytes := by
  refine .bind (.require _ _) fun _ => .execute fun db db' h => ?_
  split at h
  · split at h
    · cases h; exact .of_eq rfl
    · cases h
  · cases h

theorem currentInstance_sameBytes (id : String) (generation : Nat) : (currentInstance id generation).Keeps SameBytes :=
  .bind (.query _) fun _ => .bind (.require _ _) fun _ => .pure _

theorem setInstanceObserved_sameBytes (id : String) (generation : Nat) (observed : InstanceObservedState)
    (endpoint failure : Option String) (startup : Option Nat) :
    (setInstanceObserved d id generation observed endpoint failure startup).Keeps SameBytes :=
  .bind (currentInstance_sameBytes _ _) fun _ => .bind (.require _ _) fun _ => .ite
    (.bind (.require _ _) fun _ => .bind (.modify fun _ => .of_eq rfl) fun _ =>
      .bind (.modify fun db => suppress_sameBytes db _ _ _) fun _ =>
      .bind (persistInstance_sameBytes _) fun _ => .pure _)
    (.bind (persistInstance_sameBytes _) fun _ => .pure _)

theorem recordRestartFailure_sameBytes (id : String) (generation second : Nat) :
    (recordRestartFailure id generation second).Keeps SameBytes := by
  refine .bind (currentInstance_sameBytes _ _) fun _ => .bind (.require _ _) fun _ =>
    .bind (.require _ _) fun _ => .bind (.execute fun db db' h => ?_) fun _ =>
    .bind (.modify fun _ => .of_eq rfl) fun _ => .bind (.query _) fun _ =>
    .bind (persistInstance_sameBytes _) fun _ =>
    .bind (.modify fun db => suppress_sameBytes db _ _ _) fun _ => .pure _
  split at h
  · cases h
  · cases h; exact .of_eq rfl

theorem storeEvidence_sameBytes (e : QuarantineEvidence) : (storeEvidence d e).Keeps SameBytes :=
  .bind (.require _ _) fun _ => .modify fun _ => .of_eq rfl

theorem reconcileQuarantine_sameBytes (evidence : List QuarantineEvidence) :
    (reconcileQuarantine d evidence).Keeps SameBytes :=
  .bind (.each (fun _ => .query _) _) fun _ => .bind (.modify fun _ => .of_eq rfl) fun _ =>
    .bind (.each (storeEvidence_sameBytes d) _) fun _ =>
    .bind (.query _) fun _ => .each (fun _ => .ite (persistInstance_sameBytes _) (.pure _)) _

theorem recordEmergency_sameBytes (record : EmergencyRecord) : (recordEmergency record).Keeps SameBytes :=
  .bind (.query _) fun _ => .ite (.pure _) <| .bind (.modify fun _ => .of_eq rfl) fun _ =>
    .bind (.query _) fun _ => .ite (.pure _) <|
    .bind (.modify fun db => suppress_sameBytes db _ _ _) fun _ =>
    .bind (persistInstance_sameBytes _) fun _ => .pure _

end Database

theorem Command.run_sameBytes (E : Env) (d : Draw) (hc : ∀ inst, c ≠ .beginServe inst)
    (db : Db) : SameBytes db (c.run E d db) := by
  have haccept : ∀ tokenId kind key hash target,
      (Database.acceptOperation d tokenId kind key hash target).Keeps SameBytes :=
    fun _ _ _ _ _ => (acceptOperation_touches d _ _ _ _ _).mono fun _ _ => .of_touches (by simp)
  have htransition : ∀ id next p result problem, (Database.transition d id next p result problem).Keeps SameBytes :=
    fun _ _ _ _ _ => (transition_touches d _ _ _ _ _).mono fun _ _ => .of_touches (by simp)
  cases hel : c.elsewhere with
  | true =>
    exact c.run_elsewhere haccept htransition (fun _ _ => .of_touches (by simp))
      (fun _ _ => (promoteModel_touches _ _).mono fun _ _ => .of_touches (by simp))
      (fun _ => (removeModel_touches _).mono fun _ _ => .of_touches (by simp)) hel db
  | false =>
    cases c <;> try (cases hel; done)
    case beginServe inst => exact absurd rfl (hc inst)
    case setInstanceObserved =>
      exact Batch.Keeps.commit (setInstanceObserved_sameBytes d _ _ _ _ _ _) db
    case beginStop =>
      exact Batch.Keeps.commit (.bind (.query _) fun _ =>
        .bind (persistInstance_sameBytes _) fun _ => .pure _) db
    case recordRestartFailure =>
      exact Batch.Keeps.commit (recordRestartFailure_sameBytes _ _ _) db
    case markQuarantine =>
      exact Batch.Keeps.commit (.bind (.require _ _) fun _ =>
        .bind (currentInstance_sameBytes _ _) fun _ =>
        .bind (persistInstance_sameBytes _) fun _ => .pure _) db
    case reconcileQuarantine =>
      exact Batch.Keeps.commit (reconcileQuarantine_sameBytes d _) db
    case importEmergency =>
      exact importEmergency_keeps htransition (recordEmergency_sameBytes _) db

theorem Command.run_shrinks (E : Env) (d : Draw) (hc : ∀ inst, c ≠ .beginServe inst)
    (hdb : Coherent db) : Shrinks db (c.run E d db) := by
  intro e he
  rw [Db.mem_desired] at he ⊢
  obtain ⟨r', i', hr', hi', hrun', heq⟩ := Db.envelope_some he
  obtain ⟨i, hi, hcalm⟩ := (c.run_calm E d hc db).doc hdb hi'
  have hc' := ((c.run_calm E d hc db) hdb).1
  have hname : i'.name = i.name := by
    rw [← (hc'.rows _ _ hi').name_eq, hcalm.name, (hdb.rows _ _ hi).name_eq]
  have hrun : i.desiredState = .running := by
    rw [← (hdb.rows _ _ hi).desired_eq]
    exact hcalm.desired ((hc'.rows _ _ hi').desired_eq.trans hrun')
  have hbytes := c.run_sameBytes E d hc db
  obtain ⟨r, hr, hb⟩ := Option.map_eq_some_iff.mp ((hbytes _).symm.trans (congrArg _ hr'))
  simp only [Db.envelope, hr, hi, hrun, ite_true]
  rw [hb, ← hname, ← heq]

theorem served_envelopes {i : InstanceDocument} (h : Served requested i db db') :
    db'.desiredResourceEnvelopes ⊆ ⟨i.id, i.name, i.resources.startupPeakBytes⟩ ::
      db.desiredResourceEnvelopes.filter (·.instanceName ≠ i.name) := by
  intro e he
  rw [Db.mem_desired] at he
  obtain ⟨r, row, hr, hi, hrun, heq⟩ := Db.envelope_some he
  rw [h.resources] at hr
  rw [h.instances] at hi
  by_cases hid : e.instanceId = i.id
  · rw [if_pos hid] at hr hi
    cases hr
    cases hi
    rw [heq, hid]
    exact List.mem_cons_self
  · rw [if_neg hid] at hr hi
    refine List.mem_cons_of_mem _ (List.mem_filter.mpr ⟨?_, ?_⟩)
    · rw [Db.mem_desired]
      simp only [Db.envelope, hr, hi, hrun, ite_true]
      exact congrArg some heq.symm
    · rw [heq]
      have hne : row.name ≠ i.name := fun e => hid (h.only _ _ hi e)
      simpa using hne

theorem beginServe_committed (E : Env) {capacity : Nat}
    {desired : List DeclaredEnvelope} (hc : Coherent db) (hwithin : db.desiredResourceEnvelopes ⊆ desired)
    (hcap : db.committedBytes ≤ capacity)
    (hfits : requested.resources.startupPeakBytes + ((desired.filter fun e => e.instanceName ≠ requested.name).map
        DeclaredEnvelope.coldStartPeakBytes).sum ≤ capacity) :
    ((Database.beginServe E requested).commit db).2.committedBytes ≤ capacity := by
  rcases beginServe_commit E requested hc with h | ⟨i, h⟩
  · rw [h]; exact hcap
  · have hsub := served_envelopes h
    rw [h.name, h.envelope] at hsub
    calc _ ≤ _ := sum_le_of_subset (Db.desired_nodup _) hsub
      _ = requested.resources.startupPeakBytes +
          ((db.desiredResourceEnvelopes.filter fun e => e.instanceName ≠ requested.name).map
            DeclaredEnvelope.coldStartPeakBytes).sum := by rw [List.map_cons, List.sum_cons]
      _ ≤ _ := Nat.add_le_add_left (sum_le_of_subset ((Db.desired_nodup db).filter _)
          fun e he => List.mem_filter.mpr ⟨hwithin (List.mem_filter.mp he).1, (List.mem_filter.mp he).2⟩) _
      _ ≤ capacity := hfits

/-! ## The contract of serve requests -/

/-- The request has read which engines run and not taken the lease. -/
def Job.deciding : Job → Option Eff → Bool
  | .serveInstance .., some (.outside (.candidateStorage _)) => true
  | .serveInstance .., some (.outside .unixMillis) => true
  | .serveInstance .., some (.tryAcquire _) => true
  | _, _ => false

/-- The executor reports one memory size and one policy, and no request begins
a serve while another one is deciding. -/
def admissionRules (total : Nat) (policy : ResourcePolicy) : Rules World Job Eff Oracle where
  allow _ e o _ := match e with
    | .outside .snapshot =>
      match o.reply .snapshot with
      | .ok s => s.resourcePolicy = policy && s.resources.memTotalBytes.all (· = total)
      | .error _ => true
    | _ => true
  apart _ e l next := !(e.beginsServe && l.deciding next)

structure AdmissionInv (capacity : Nat) (w : World) : Prop where
  coherent : Coherent w.db
  fits : w.db.committedBytes ≤ capacity
  held : w.history.owner.isSome = w.admission.holder.isSome

structure AdmissionRely (l : Job) (i : Nat) (next : Option Eff) (w w' : World) : Prop where
  shrinks : l.deciding next = true ∨ w.history.owner = some i → Shrinks w.db w'.db
  owner : w.history.owner = some i → w'.history.owner = some i ∧ w'.admission = w.admission

structure AdmissionGuar (i : Nat) (e : Eff) (w w' : World) : Prop where
  shrinks : e.beginsServe = false → Shrinks w.db w'.db
  holds : e.beginsServe = true → w.history.owner = some i
  owner : ∀ j, j ≠ i → w.history.owner = some j →
    w'.history.owner = some j ∧ w'.admission = w.admission

def Job.entitled (i : Nat) (w : World) : Job → Prop
  | .serveInstance _ body => body.dryRun = false
  | .runServe _ inst => Holding i (serveLease inst.name) w
  | _ => False

def admissionContract (S : Site) (total : Nat) (policy : ResourcePolicy) : Contract (agent S) where
  rules := admissionRules total policy
  inv := AdmissionInv (total - policy.systemReserveBytes)
  rely := AdmissionRely
  guar _ := AdmissionGuar
  born l i w := l.entitled i w

section
variable {S : Site} {total : Nat} {policy : ResourcePolicy} {capacity : Nat} {l : Job} {i n : Nat} {o : Oracle}
  {e : Eff} {w w' : World} {leaseId : String} {desired : List DeclaredEnvelope}

theorem Eff.shrinks (h : e.beginsServe = false) (hc : Coherent w.db) (t : Turn Oracle) :
    Shrinks w.db (e.after S t w).db := by
  show Shrinks w.db (e.onDb S.env t.oracle.draw w.db)
  unfold Eff.onDb
  cases hw : e.writes with
  | none => exact fun _ h => h
  | some c =>
    refine c.run_shrinks S.env t.oracle.draw ?_ hc
    rintro inst rfl
    simp [Eff.beginsServe, hw] at h

theorem admission_idle (hb : e.beginsServe = false) (hs : e.starts = none)
    (hlease : (e.after S ⟨i, n, o⟩ w).history.owner = w.history.owner ∧ (e.after S ⟨i, n, o⟩ w).admission = w.admission)
    (hi : AdmissionInv (total - policy.systemReserveBytes) w) :
    (admissionContract S total policy).Pays l i n e w ((agent S).exec ⟨i, n, o⟩ e w).2 := by
  obtain ⟨ho, ha⟩ := hlease
  have hc : Coherent (e.after S ⟨i, n, o⟩ w).db := (Eff.calm hb _ w hi.coherent).1
  have hshrinks := Eff.shrinks (S := S) hb hi.coherent ⟨i, n, o⟩
  refine .alone hs ⟨hc, hshrinks.committed.trans hi.fits, ?_⟩ ⟨fun _ => hshrinks, fun h => ?_,
    fun j _ hj => ⟨ho.trans hj, ha⟩⟩
  · show (e.after S ⟨i, n, o⟩ w).history.owner.isSome = (e.after S ⟨i, n, o⟩ w).admission.holder.isSome
    rw [ho, ha]
    exact hi.held
  · rw [hb] at h; cases h

theorem admission_plain (h : e.plain = true) (hi : AdmissionInv (total - policy.systemReserveBytes) w) :
    (admissionContract S total policy).Pays l i n e w ((agent S).exec ⟨i, n, o⟩ e w).2 :=
  admission_idle (Eff.plain_beginsServe h) (Eff.starts_plain h) (Eff.plain_lease h _) hi

theorem Holding.rely {next : Option Eff} (h : AdmissionRely l i next w w') (hw : Holding i leaseId w) :
    Holding i leaseId w' := by
  obtain ⟨ho, ha⟩ := h.owner hw.1
  exact ⟨ho, ha.trans hw.2⟩

variable {p : Act α}

theorem wp_plain (hp : p.Uses (·.plain = true)) {F : World → Prop}
    (hrely : ∀ next w w', AdmissionRely l i next w w' → F w → F w')
    (hstep : ∀ e w t, e.plain = true → Coherent w.db → F w → F (Eff.after S t e w)) (hw : F w) :
    wp (admissionContract S total policy) l i (fun _ => F) p w :=
  wp_uses (fun e w w' _ h => hrely (some e) w w' h)
    (fun e w he hi hF => ⟨trivial, fun _ _ _ _ _ =>
      ⟨admission_plain he hi, hstep e w _ he (AdmissionInv.coherent hi) hF⟩⟩) hp hw

theorem wp_holding (hp : p.Uses (·.plain = true)) (hw : Holding i leaseId w) :
    wp (admissionContract S total policy) l i (fun _ => Holding i leaseId) p w :=
  wp_plain hp (fun _ _ _ h => Holding.rely h) (fun _ _ t he _ h => h.plain he t) hw

theorem releasing_wp (hw : Holding i leaseId w) :
    wp (admissionContract S total policy) l i (fun _ _ => True) (releasing leaseId response) w := by
  intro w' hr hi
  have hi : AdmissionInv (total - policy.systemReserveBytes) w' := hi
  obtain ⟨ho, ha⟩ := Holding.rely hr hw
  refine ⟨trivial, fun n o _ _ _ => ⟨.alone rfl ⟨hi.coherent, hi.fits, ?_⟩
    ⟨fun _ _ h => h, nofun, fun j hj hown => ?_⟩, trivial⟩⟩
  · show (if w'.admission.holder = some leaseId then none else w'.history.owner).isSome =
      (w'.admission.release leaseId).holder.isSome
    rw [ha]
    simp [TransitionCoordinator.release]
  · rw [ho] at hown
    exact absurd (Option.some.inj hown).symm hj

theorem runServe_wp (operationId : String) (inst : InstanceDocument) (hw : Holding i (serveLease inst.name) w) :
    wp (admissionContract S total policy) l i (fun _ _ => True) (runServe S operationId inst) w := by
  let P : Eff → Prop := fun e => e.plain = true ∨ (∃ id, e = .tryAcquire id) ∨
    ∃ id, reconcileLeaseId id ∧ e = .release id
  have huses : (serveEngine S operationId inst).Uses P := by
    refine serveEngine_uses (fun e he => ?_) (fun _ _ _ _ _ => .inl rfl) (fun e he => ?_)
    · cases e with
      | tryAcquire id => exact .inr (.inl ⟨id, rfl⟩)
      | release id => exact .inr (.inr ⟨id, he, rfl⟩)
      | command c => cases c <;> first | exact .inl rfl | cases he
      | _ => first | exact .inl rfl | cases he
    · cases e with
      | command c => cases c <;> first | exact .inl rfl | cases he
      | _ => first | exact .inl rfl | cases he
  refine (wp_uses (F := Holding i (serveLease inst.name)) (fun e w w' _ h => Holding.rely h)
    (fun e w he hi hF => ⟨trivial, fun n o _ _ _ => ?_⟩) huses hw).bind fun _ w hw => releasing_wp hw
  have idle : ∀ (hlease : (e.after S ⟨i, n, o⟩ w).history.owner = w.history.owner ∧
      (e.after S ⟨i, n, o⟩ w).admission = w.admission),
      Holding i (serveLease inst.name) (e.after S ⟨i, n, o⟩ w) := fun h => ⟨h.1.trans hF.1, h.2.trans hF.2⟩
  rcases he with he | ⟨id, rfl⟩ | ⟨id, hid, rfl⟩
  · exact ⟨admission_plain he hi, hF.plain he _⟩
  · have hlease : ((Eff.tryAcquire id).after S ⟨i, n, o⟩ w).history.owner = w.history.owner ∧
        ((Eff.tryAcquire id).after S ⟨i, n, o⟩ w).admission = w.admission := by
      obtain ⟨ho, ha⟩ := hF
      refine ⟨?_, ?_⟩
      · show (if (w.admission.tryAcquire id).isSome then some i else w.history.owner) = w.history.owner
        rw [ha]; rfl
      · show (w.admission.tryAcquire id).getD w.admission = w.admission
        rw [ha]; rfl
    exact ⟨admission_idle rfl rfl hlease hi, idle hlease⟩
  · have hlease : ((Eff.release id).after S ⟨i, n, o⟩ w).history.owner = w.history.owner ∧
        ((Eff.release id).after S ⟨i, n, o⟩ w).admission = w.admission := by
      obtain ⟨ho, ha⟩ := hF
      have hne : ¬ (some (serveLease inst.name) = some id) :=
        fun e => serveLease_ne hid (Option.some.inj e).symm
      refine ⟨?_, ?_⟩
      · show (if w.admission.holder = some id then none else w.history.owner) = w.history.owner
        rw [ha, if_neg hne]
      · show (if w.admission.holder = some id then ⟨none⟩ else w.admission) = w.admission
        rw [ha, if_neg hne]
    exact ⟨admission_idle rfl rfl hlease hi, idle hlease⟩

/-! ## `serve_instance` -/

def Within (desired : List DeclaredEnvelope) (w : World) : Prop := w.db.desiredResourceEnvelopes ⊆ desired

theorem wp_admitted (hp : p.Uses (·.plain = true)) (hw : Holding i leaseId w) (hwithin : Within desired w) :
    wp (admissionContract S total policy) l i (fun _ w => Holding i leaseId w ∧ Within desired w) p w := by
  refine wp_plain hp (fun _ w w' h hw => ?_) (fun e w t he hc hw => ?_) ⟨hw, hwithin⟩
  · exact ⟨hw.1.rely h, fun x hx => hw.2 (h.shrinks (.inr hw.1.1) hx)⟩
  · exact ⟨hw.1.plain he t, fun x hx => hw.2 (Eff.shrinks (Eff.plain_beginsServe he) hc t hx)⟩

theorem spawnServe_wp {operationId : String} {inst : InstanceDocument} (hw : Holding i (serveLease inst.name) w) :
    wp (admissionContract S total policy) l i (fun _ _ => True)
      ((perform (.spawn (.runServe operationId inst))).bind fun _ => .ret response) w := by
  intro w' hr hi
  have hi : AdmissionInv (total - policy.systemReserveBytes) w' := hi
  obtain ⟨ho, ha⟩ := hw.rely hr
  have howner : ∀ n o, ((Eff.spawn (.runServe operationId inst)).after S ⟨i, n, o⟩ w').history.owner =
      some n := fun n o => if_pos ho
  refine ⟨trivial, fun n o _ _ _ => ⟨⟨⟨hi.coherent, hi.fits, ?_⟩, ⟨fun _ _ h => h, nofun, fun j hj hj' => ?_⟩,
    fun l' hl' => ?_⟩, trivial⟩⟩
  · show ((Eff.spawn (.runServe operationId inst)).after S ⟨i, n, o⟩ w').history.owner.isSome =
      w'.admission.holder.isSome
    rw [howner, ha]
    rfl
  · exact absurd (Option.some.inj (ho.symm.trans hj')).symm hj
  · cases hl'
    exact ⟨howner n o, ha⟩

theorem serveUnderLease_wp (hw : Holding i (serveLease requested.name) w) (hwithin : Within desired w)
    (hfits : requested.resources.startupPeakBytes + ((desired.filter fun e => e.instanceName ≠ requested.name).map
        DeclaredEnvelope.coldStartPeakBytes).sum ≤ total - policy.systemReserveBytes) :
    wp (admissionContract S total policy) l i (fun _ _ => True) (serveUnderLease S caller body requested) w := by
  unfold serveUnderLease
  cases requiredIdempotency caller with
  | none => exact releasing_wp hw
  | some key =>
    dsimp only
    cases canonicalRequestSha256 S.env body.toJson with
    | none => exact releasing_wp hw
    | some hash =>
      refine (wp_admitted (acceptOperation_plain _ _ _ _ _) hw hwithin).bind fun r w hw => ?_
      obtain ⟨hw, hwithin⟩ := hw
      cases r with
      | error e => exact releasing_wp hw
      | ok accepted =>
        dsimp only
        split
        · exact releasing_wp hw
        unfold beginServe
        cases validateInstance S.env requested with
        | error e => exact releasing_wp hw
        | ok _ =>
          intro w' hr hi
          have hi : AdmissionInv (total - policy.systemReserveBytes) w' := hi
          have hown := hw.rely hr
          have hwithin' : Within desired w' := fun x hx => hwithin (hr.shrinks (.inr hw.1) hx)
          refine ⟨trivial, fun n o _ _ _ => ⟨.alone rfl ⟨?_, ?_, hi.held⟩ ⟨nofun, fun _ => hown.1,
            fun j hj hj' => absurd (Option.some.inj (hown.1.symm.trans hj')).symm hj⟩, ?_⟩⟩
          · show Coherent ((Database.beginServe S.env requested).commit w'.db).2
            rcases beginServe_commit S.env requested hi.coherent with h | ⟨inst, h⟩
            · rw [h]; exact hi.coherent
            · exact h.coherent hi.coherent
          · exact beginServe_committed S.env hi.coherent hwithin' hi.fits hfits
          · generalize hans : ((agent S).exec ⟨i, n, o⟩ (.beginServe accepted.operation.id requested) w').1 = r
            have hlater : Holding i (serveLease requested.name)
              ((agent S).exec ⟨i, n, o⟩ (.beginServe accepted.operation.id requested) w').2 := hown
            cases r with
            | error e => exact releasing_wp hlater
            | ok begun =>
              have hname : begun.inst.name = requested.name := beginServe_named hi.coherent hans
              dsimp only [Prog.ret_bind]
              split
              · exact (wp_holding (completeReusedServe_plain _ _) hlater).bind fun _ w hw => releasing_wp hw
              · rw [← hname] at hlater
                exact wp.bind (wp_holding ⟨rfl, fun _ => trivial⟩ hlater) fun _ w hw => spawnServe_wp hw

theorem wp_any (hp : p.Uses (·.plain = true)) : wp (admissionContract S total policy) l i (fun _ _ => True) p w :=
  wp_plain hp (fun _ _ _ _ h => h) (fun _ _ _ _ _ h => h) trivial

theorem decide_wp (requested : InstanceDocument) (hwithin : Within desired w)
    (hfits : requested.resources.startupPeakBytes + ((desired.filter fun e => e.instanceName ≠ requested.name).map
        DeclaredEnvelope.coldStartPeakBytes).sum ≤ total - policy.systemReserveBytes) :
    wp (admissionContract S total policy) (.serveInstance caller body) i (fun _ _ => True)
      ((perform (.tryAcquire (serveLease requested.name))).bind fun acquired =>
        if acquired then serveUnderLease S caller body requested else .ret transitionBusy) w := by
  intro w' hr hi
  have hi : AdmissionInv (total - policy.systemReserveBytes) w' := hi
  have hwithin' : Within desired w' := fun x hx => hwithin (hr.shrinks (.inl rfl) hx)
  refine ⟨trivial, fun n o _ _ _ => ?_⟩
  cases hh : w'.admission.holder with
  | some holder =>
    have hbusy : w'.admission.tryAcquire (serveLease requested.name) = none := by
      unfold TransitionCoordinator.tryAcquire
      rw [hh]
    refine ⟨admission_idle rfl rfl ⟨?_, ?_⟩ hi, ?_⟩
    · show (if (w'.admission.tryAcquire (serveLease requested.name)).isSome then some i
        else w'.history.owner) = w'.history.owner
      rw [hbusy]; rfl
    · show (w'.admission.tryAcquire (serveLease requested.name)).getD w'.admission = w'.admission
      rw [hbusy]; rfl
    · have hans : ((agent S).exec ⟨i, n, o⟩ (.tryAcquire (serveLease requested.name)) w').1 = false := by
        show (w'.admission.tryAcquire (serveLease requested.name)).isSome = false
        rw [hbusy]; rfl
      rw [hans]
      trivial
  | none =>
    have hfree : w'.admission.tryAcquire (serveLease requested.name) =
        some ⟨some (serveLease requested.name)⟩ := by
      unfold TransitionCoordinator.tryAcquire
      rw [hh]
    have hheld : Holding i (serveLease requested.name)
        ((agent S).exec ⟨i, n, o⟩ (.tryAcquire (serveLease requested.name)) w').2 := by
      refine ⟨?_, ?_⟩
      · show (if (w'.admission.tryAcquire (serveLease requested.name)).isSome then some i
          else w'.history.owner) = some i
        rw [hfree]; rfl
      · show (w'.admission.tryAcquire (serveLease requested.name)).getD w'.admission = _
        rw [hfree]; rfl
    have hnone : w'.history.owner = none := by
      have := hi.held
      rw [hh] at this
      simpa using this
    refine ⟨.alone rfl ⟨hi.coherent, hi.fits, ?_⟩ ⟨fun _ _ h => h, nofun, fun j _ hj => ?_⟩, ?_⟩
    · rw [hheld.1, hheld.2]; rfl
    · rw [hnone] at hj; cases hj
    · have hans : ((agent S).exec ⟨i, n, o⟩ (.tryAcquire (serveLease requested.name)) w').1 = true := by
        show (w'.admission.tryAcquire (serveLease requested.name)).isSome = true
        rw [hfree]; rfl
      rw [hans]
      exact serveUnderLease_wp hheld hwithin' hfits

theorem admitServe_wp {model : ModelDocument} {candidate : Candidate}
    {resources : RecipeResourceEnvelopeDocument} {profile : EngineProfile} {snapshot : ExecutorSnapshot}
    (hpolicy : snapshot.resourcePolicy = policy)
    (htotal : ∀ t, snapshot.resources.memTotalBytes = some t → t = total) :
    wp (admissionContract S total policy) (.serveInstance caller body) i (fun _ _ => True)
      (admitServe S caller body model candidate resources profile snapshot) w := by
  intro w1 _ hi1
  refine ⟨trivial, fun n1 o1 _ _ _ => ⟨admission_plain rfl hi1, ?_⟩⟩
  have hans : ((agent S).exec ⟨i, n1, o1⟩ (.query .desiredResourceEnvelopes) w1).1 =
      .ok w1.db.desiredResourceEnvelopes := rfl
  rw [hans]
  dsimp only [Prog.ret_bind]
  cases normalizeInstanceName S.env (requestedName body.name model) with
  | none => trivial
  | some name =>
    intro w2 h2 hi2
    have hwithin2 : Within w1.db.desiredResourceEnvelopes w2 := h2.shrinks (.inl rfl)
    refine ⟨trivial, fun n2 o2 _ _ _ => ⟨admission_plain rfl hi2, ?_⟩⟩
    generalize ((agent S).exec ⟨i, n2, o2⟩ (.outside (.candidateStorage _)) w2).1 = r
    cases r with
    | error e => trivial
    | ok storage =>
      intro w3 h3 hi3
      have hwithin3 : Within w1.db.desiredResourceEnvelopes w3 :=
        fun x hx => hwithin2 (h3.shrinks (.inl rfl) hx)
      refine ⟨trivial, fun n3 o3 _ _ _ => ⟨admission_plain rfl hi3, ?_⟩⟩
      generalize ((agent S).exec ⟨i, n3, o3⟩ (.outside .unixMillis) w3).1 = now
      dsimp only [Prog.ret_bind]
      split
      · trivial
      · rename_i hadmitted
        simp only [Bool.not_eq_true', Bool.not_eq_false] at hadmitted
        obtain ⟨t, ht, hle, hfits⟩ := admitted_fits hadmitted
        rw [htotal t ht, hpolicy] at hfits
        exact decide_wp (requestedInstance S model candidate resources profile name) hwithin3 hfits

theorem serveInstance_wp (hdry : body.dryRun = false) :
    wp (admissionContract S total policy) (.serveInstance caller body) i (fun _ _ => True)
      (serveInstance S caller body) w := by
  unfold serveInstance
  rw [hdry]
  refine (wp_any (requireExecutorForMutation_reads.mono fun _ => Eff.plain_reads)).bind fun r w _ => ?_
  cases r with
  | some response => trivial
  | none =>
    refine wp.bind (wp_any ⟨rfl, fun _ => trivial⟩) fun r w _ => ?_
    cases r with
    | error e => trivial
    | ok model =>
      dsimp only
      cases selectCandidate S model with
      | error response => trivial
      | ok candidate =>
        dsimp only
        cases candidate.policy.resourcesFor with
        | error e => trivial
        | ok resources =>
          cases candidate.policy.profileFor with
          | error e => trivial
          | ok profile =>
            intro w1 _ hi1
            refine ⟨trivial, fun n o _ hallow _ => ⟨admission_plain rfl hi1, ?_⟩⟩
            generalize hs : ((agent S).exec ⟨i, n, o⟩ (.outside .snapshot) w1).1 = r
            cases r with
            | error e => trivial
            | ok snapshot =>
              have hs : o.reply .snapshot = .ok snapshot := hs
              have hfixed : snapshot.resourcePolicy = policy ∧
                  ∀ t, snapshot.resources.memTotalBytes = some t → t = total := by
                simp only [admissionContract, admissionRules, hs, Bool.and_eq_true, decide_eq_true_eq] at hallow
                refine ⟨hallow.1, fun t ht => ?_⟩
                simpa [ht] using hallow.2
              exact admitServe_wp hfixed.1 hfixed.2

theorem admissionContract_sound : (admissionContract S total policy).Sound fun _ _ _ _ => True where
  refl _ _ _ w := ⟨fun _ _ h => h, fun h => ⟨h, rfl⟩⟩
  trans _ _ _ _ _ _ h1 h2 := by
    refine ⟨fun h x hx => ?_, fun h => ?_⟩
    · exact h1.shrinks h (h2.shrinks (h.imp_right fun h => (h1.owner h).1) hx)
    · obtain ⟨ho, ha⟩ := h1.owner h
      obtain ⟨ho', ha'⟩ := h2.owner ho
      exact ⟨ho', ha'.trans ha⟩
  compat _ i e _ _ l' j next hij hapart _ hg := by
    refine ⟨fun h => hg.shrinks ?_, hg.owner j (Ne.symm hij)⟩
    have hapart : (!(e.beginsServe && l'.deciding next)) = true := hapart
    cases hb : e.beginsServe with
    | false => rfl
    | true =>
      rcases h with hd | ho
      · rw [hb, hd] at hapart; cases hapart
      · exact absurd (Option.some.inj ((hg.holds hb).symm.trans ho)) hij
  stable _ _ _ _ _ _ h := h
  start l i w hborn _ := by
    cases l <;> try (cases hborn; done)
    case serveInstance => exact serveInstance_wp hborn
    case runServe => exact runServe_wp _ _ hborn

end

/-! ## Whole runs -/

def Job.requestsServe : Job → Bool
  | .serveInstance _ body => !body.dryRun
  | _ => false

theorem admission_sound (S : Site) (total : Nat) (policy : ResourcePolicy) (before : List (Draw × Command))
    (hbefore : (actorLoop S.env {} before).committedBytes ≤ total - policy.systemReserveBytes) (w : World)
    (jobs : List Job) (hjobs : ∀ j ∈ jobs, j.requestsServe = true) {c : Pool}
    (hrun : (agent S).Runs (admissionRules total policy)
      (starting S { w with db := actorLoop S.env {} before, admission := {}, history := {} } jobs) c) :
    c.world.db.committedBytes ≤ total - policy.systemReserveBytes := by
  have hstart : (admissionContract S total policy).Verified (fun _ _ _ _ => True)
      (starting S { w with db := actorLoop S.env {} before, admission := {}, history := {} } jobs) := by
    refine .start admissionContract_sound ⟨coherent_actorLoop S.env before, hbefore, rfl⟩ fun i l hl => ?_
    have hl := hjobs l (List.mem_of_getElem? hl)
    cases l with
    | serveInstance caller body => exact (Bool.not_eq_true' _).mp hl
    | _ => cases hl
  have hverified := Runs.verified admissionContract_sound hstart (fun _ _ _ _ _ _ _ _ _ => trivial) hrun
  exact AdmissionInv.fits hverified.1

/-! ## Two runs -/

def twoServes : List Job :=
  [.serveInstance ⟨"bootstrap-admin", some "k1"⟩ (exampleServe "m"),
   .serveInstance ⟨"bootstrap-admin", some "k2"⟩ (exampleServe "n")]

def admissionWorld : World := { db := actorLoop exampleSite.env {} modelExists }

theorem admission_sound_in_order : ∃ c, (agent exampleSite).Runs (admissionRules (8 * gibBytes + 10) .capacityFirst)
      (starting exampleSite admissionWorld twoServes) c ∧
    answeredOk c 0 = true ∧ c.world.db.committedBytes ≤ 10 := by
  have h : ((agent exampleSite).run (admissionRules (8 * gibBytes + 10) .capacityFirst)
      (starting exampleSite admissionWorld twoServes)
      (List.replicate 11 (serveTurn 0 "op1") ++ List.replicate 6 (serveTurn 1 "op2"))).any
        (fun c => answeredOk c 0) = true := by
    decide +kernel
  obtain ⟨c, hrun, hans⟩ := reaches_of_run h
  have hle := admission_sound exampleSite (8 * gibBytes + 10) .capacityFirst modelExists (by decide +kernel) {}
    twoServes (by decide) hrun
  exact ⟨c, hrun, hans, hle.trans (by decide)⟩

theorem stale_admission_oversubscribes : ∃ c, (agent exampleSite).Runs
      { admissionRules (8 * gibBytes + 10) .capacityFirst with apart := fun _ _ _ _ => true }
      (starting exampleSite admissionWorld twoServes) c ∧
    answeredOk c 0 = true ∧ answeredOk c 1 = true ∧ c.world.db.committedBytes = 16 :=
  Machine.exists_of_run (List.replicate 6 (serveTurn 1 "op2") ++ List.replicate 11 (serveTurn 0 "op1") ++
    List.replicate 29 (serveTurn 2 "") ++ List.replicate 5 (serveTurn 1 "op2")) (by decide +kernel)

end Sparkplane

import Sparkplane.QuarantineSound
import Sparkplane.StopSound

/-!
# What a reconciliation pass may start

A pass works from a list of instances read at its start. `quarantine_barred`:
it does not start an engine that its own scan put in quarantine, in every run
in which it gets the lease to record the quarantine; a busy lease skips the
record, and the second loop restarts the engine (`busy_quarantine_restarts`).
`restart_current`: it starts and publishes only what should run, in every run
in which nobody changes the intent meanwhile; a stop takes no lease, so its
change goes unseen (`stopped_engine_restarts`).
-/

namespace Sparkplane

open Database
open Machine

variable {e : Eff} {inst failed : InstanceDocument} {c : Pool} {row : InstanceRow} {d : Draw}
variable {evidence rest : List QuarantineEvidence} {u : Unit} {q : QuarantineEvidence} {second : Nat}

/-! ## A pass among other tasks -/

structure Steady (S : Site) (rules : Rules World Job Eff Oracle) (R : World → World → Prop) : Prop where
  refl : ∀ w, R w w
  trans : ∀ w₁ w₂ w₃, R w₁ w₂ → R w₂ w₃ → R w₁ w₃
  step : ∀ l e (t : Turn Oracle) w, Coherent w.db → rules.allow l e t.oracle w = true → R w (e.after S t w)

def passContract (S : Site) (rules : Rules World Job Eff Oracle) (R : World → World → Prop)
    (P : Eff → World → Prop) : Contract (agent S) where
  rules := rules
  inv w := Coherent w.db
  rely _ _ _ := R
  guar _ _ _ := R
  born _ _ _ := True
  stands l _ e w := l = .reconcile → P e w

def startPrepared (S : Site) (operations : List OperationDocument) (inst failed : InstanceDocument)
    (prepared : PreparedStart) : Act Bool := do
  match ← outside (.startPrepared prepared) with
  | .error _ => return true
  | .ok engine =>
  if ← reconcileRunningEngine S failed engine then
    completeRecoveredOperation S operations inst .serve
    return true
  else return false

/-- `prepare_instance` answers with its input. -/
def echoes (o : Oracle) (input : StartInstanceInput) : Bool :=
  match o.reply (.prepareInstance input) with
  | .ok prepared => prepared.input = input
  | .error _ => true

theorem Eff.after_coherent {S : Site} (t : Turn Oracle) (e : Eff) {w : World} (hc : Coherent w.db) :
    Coherent (e.after S t w).db := by
  show Coherent (e.onDb S.env t.oracle.draw w.db)
  unfold Eff.onDb
  cases e.writes with
  | none => exact hc
  | some c => exact c.run_coherent S.env t.oracle.draw hc

theorem uses_any {α : Type} : ∀ p : Act α, p.Uses fun _ => True
  | .ret _ => trivial
  | .op _ k => ⟨trivial, fun r => uses_any (k r)⟩

section
variable {S : Site} {rules : Rules World Job Eff Oracle} {R : World → World → Prop}
  {P : Eff → World → Prop} {F : World → Prop} {l : Job} {i : Nat} {w : World} {α : Type}

theorem Steady.pays (hR : Steady S rules R) {n : Nat} {o : Oracle} (hi : Coherent w.db)
    (hallow : rules.allow l e o w = true) :
    (passContract S rules R P).Pays l i n e w (e.after S ⟨i, n, o⟩ w) :=
  ⟨Eff.after_coherent _ e hi, hR.step l e ⟨i, n, o⟩ w hi hallow, fun _ _ => trivial⟩

theorem Steady.op (hR : Steady S rules R) (hF : ∀ w w', R w w' → F w → F w')
    {k : e.Reply → Act α} {Q : α → World → Prop} (hP : ∀ w, Coherent w.db → F w → P e w) (hw : F w)
    (hk : ∀ (t : Turn Oracle) (w : World), Coherent w.db → rules.allow l e t.oracle w = true → F w → F (e.after S t w) →
      wp (passContract S rules R P) l i Q (k (e.answer S t w)) (e.after S t w)) :
    wp (passContract S rules R P) l i Q (.op e k) w := by
  intro w1 hr hi
  have hw1 := hF w w1 hr hw
  refine ⟨fun _ => hP w1 hi hw1, fun n o _ hallow _ => ⟨hR.pays hi hallow, ?_⟩⟩
  exact hk ⟨i, n, o⟩ w1 hi hallow hw1 (hF _ _ (hR.step l e ⟨i, n, o⟩ w1 hi hallow) hw1)

theorem Steady.perform (hR : Steady S rules R) (hF : ∀ w w', R w w' → F w → F w')
    (hP : ∀ w, Coherent w.db → F w → P e w) (w : World) (hw : F w) :
    wp (passContract S rules R P) l i (fun _ => F) (perform e) w :=
  hR.op hF hP hw fun _ _ _ _ _ h => h

theorem Steady.other (hR : Steady S rules R) (hl : l ≠ .reconcile) (p : Act α) :
    wp (passContract S rules R P) l i (fun _ _ => True) p w :=
  wp_uses (P := fun _ => True) (fun _ _ _ _ _ _ => trivial)
    (fun _ _ _ hi _ => ⟨fun h => absurd h hl, fun _ _ _ hallow _ => ⟨hR.pays hi hallow, trivial⟩⟩)
    (uses_any p) trivial

theorem Steady.sound (hR : Steady S rules R)
    (hpass : ∀ i w, wp (passContract S rules R P) .reconcile i (fun _ _ => True) (reconcileOnce S) w) :
    (passContract S rules R P).Sound fun _ _ _ _ => True where
  refl _ _ _ := hR.refl
  trans _ _ _ := hR.trans
  compat _ _ _ _ _ _ _ _ _ _ _ h := h
  stable _ _ _ _ _ _ h := h
  start l i w _ _ := by
    by_cases hl : l = .reconcile
    · subst hl
      exact (hpass i w).bind fun _ _ _ => trivial
    · exact hR.other hl _

theorem Steady.restartEngine (hR : Steady S rules R) (hF : ∀ w w', R w w' → F w → F w')
    {operations : List OperationDocument}
    (hprepare : ∀ w input, P (.outside (.prepareInstance input)) w)
    (hecho : ∀ o w input, rules.allow .reconcile (.outside (.prepareInstance input)) o w = true → echoes o input = true)
    (hstart : failed.quarantine = none → ∀ operationId prepared, prepared.input = startInput inst operationId →
      ∀ w, F w → wp (passContract S rules R P) .reconcile i (fun _ => F)
        (startPrepared S operations inst failed prepared) w) (w : World) (hw : F w) :
    wp (passContract S rules R P) .reconcile i (fun _ => F) (restartEngine S operations inst failed) w := by
  unfold Sparkplane.restartEngine
  split
  · exact hw
  rename_i hgo
  have hclear : failed.quarantine = none := by
    simp only [Bool.or_eq_true, not_or, Bool.not_eq_true, Option.isSome_eq_false_iff, Option.isNone_iff_eq_none] at hgo
    exact hgo.2
  split
  · exact hw
  rename_i operation _
  refine hR.op (e := .outside (.prepareInstance (startInput inst operation.id))) hF
    (fun w _ _ => hprepare w _) hw fun t w1 _ hallow _ hw1 => ?_
  have hinput := hecho t.oracle w1 _ hallow
  unfold echoes at hinput
  simp only [Eff.answer, Prog.ret_bind]
  split
  · exact hw1
  · rename_i prepared hprepared
    rw [hprepared] at hinput
    exact hstart hclear operation.id prepared (of_decide_eq_true hinput) _ hw1

theorem Steady.shows (hR : Steady S rules R)
    (hpass : ∀ i w, wp (passContract S rules R P) .reconcile i (fun _ _ => True) (reconcileOnce S) w)
    {c0 : Pool} (hc0 : Coherent c0.world.db)
    (htasks : ∀ t ∈ c0.tasks, t.1 = .reconcile → t.2 = program S .reconcile)
    (hrun : (agent S).Runs rules c0 c) {k : e.Reply → Act Response}
    (hi : c.tasks[i]? = some (.reconcile, .op e k)) : P e c.world := by
  have hsound := hR.sound hpass
  have hstart : (passContract S rules R P).Verified (fun _ _ _ _ => True) c0 := by
    refine ⟨hc0, fun i t ht => ?_⟩
    by_cases hl : t.1 = .reconcile
    · rw [htasks t (List.mem_of_getElem? ht) hl, hl]
      exact hsound.start .reconcile i c0.world trivial hc0
    · exact hR.other hl _
  have hverified := Runs.verified hsound hstart (fun _ _ _ _ _ _ _ _ _ => trivial) hrun
  exact hverified.shows hsound hi rfl

end

/-! ## Quarantined generations -/

def Names (id : String) (generation : Nat) (q : QuarantineEvidence) : Bool :=
  q.instanceId = some id && q.generation = some generation

section

attribute [local instance] Database.lawful_pair

/-- The scan of the pass reports `reported`, the pass gets the lease for the
evidence that names the pair, and no pass meanwhile takes that evidence back. -/
def quarantineRules (reported : List QuarantineEvidence) (id : String) (generation : Nat) :
    Rules World Job Eff Oracle where
  allow l e o w := match l, e with
    | _, .command (.reconcileQuarantine evidence) => (id, generation) ∈ evidencePairs evidence
    | .reconcile, .outside (.reconcileScan expected) =>
      match o.reply (.reconcileScan expected) with
      | .ok scan => scan.quarantined = reported
      | .error _ => true
    | .reconcile, .outside (.prepareInstance input) => echoes o input
    | .reconcile, .tryAcquire leaseId =>
      w.admission.holder.isNone ||
        !reported.any fun q => Names id generation q && leaseId = "reconcile-quarantine:" ++ q.containerId
    | _, _ => true
  apart _ _ _ _ := true

end

def Present (id : String) (generation : Nat) (db : Db) : Prop :=
  ∃ row, db.instances.get? id = some row ∧ generation ≤ row.metadata.generation

def Barred (id : String) (generation : Nat) (db : Db) : Prop :=
  ∃ row, db.instances.get? id = some row ∧ generation ≤ row.metadata.generation ∧
    (row.metadata.generation = generation → row.metadata.quarantine.isSome = true)

structure BarredStep (id : String) (generation : Nat) (db db' : Db) : Prop where
  present : Present id generation db → Present id generation db'
  barred : Barred id generation db → Barred id generation db'

structure Confirms (i j : InstanceDocument) : Prop where
  generation : j.generation = i.generation
  quarantine : i.quarantine.isSome = true → j.quarantine.isSome = true

instance : Std.Refl Confirms := ⟨fun _ => ⟨rfl, fun h => h⟩⟩

instance : IsTrans _ Confirms where
  trans _ _ _ h1 h2 := ⟨h2.generation.trans h1.generation, fun h => h2.quarantine (h1.quarantine h)⟩

theorem writes_confirms : Writes Confirms where
  observe _ _ _ _ _ _ := ⟨rfl, fun h => h⟩
  stop _ := ⟨rfl, fun h => h⟩
  restart _ _ := ⟨rfl, fun h => h⟩
  quarantine _ _ := ⟨rfl, fun _ => rfl⟩
  shed _ _ := ⟨rfl, fun h => h⟩

section
variable {id : String} {generation : Nat} {db db' : Db}

theorem Barred.present (h : Barred id generation db) : Present id generation db := by
  obtain ⟨row, hrow, hle, _⟩ := h
  exact ⟨row, hrow, hle⟩

theorem BarredStep.refl (db : Db) : BarredStep id generation db db := ⟨fun h => h, fun h => h⟩

theorem BarredStep.trans {db1 db2 db3 : Db} (h1 : BarredStep id generation db1 db2)
    (h2 : BarredStep id generation db2 db3) : BarredStep id generation db1 db3 :=
  ⟨fun h => h2.present (h1.present h), fun h => h2.barred (h1.barred h)⟩

theorem BarredStep.of_row (h : ∀ row, db.instances.get? id = some row → ∃ row', db'.instances.get? id = some row' ∧
      (row.metadata.generation < row'.metadata.generation ∨
        (row'.metadata.generation = row.metadata.generation ∧ (row.metadata.generation = generation →
          row.metadata.quarantine.isSome = true → row'.metadata.quarantine.isSome = true)))) :
    BarredStep id generation db db' := by
  refine ⟨fun ⟨row, hrow, hle⟩ => ?_, fun ⟨row, hrow, hle, hq⟩ => ?_⟩
  · obtain ⟨row', hrow', hlt | ⟨heq, _⟩⟩ := h row hrow
    · exact ⟨row', hrow', by omega⟩
    · exact ⟨row', hrow', by omega⟩
  · obtain ⟨row', hrow', hlt | ⟨heq, hkeep⟩⟩ := h row hrow
    · exact ⟨row', hrow', by omega, fun e => by omega⟩
    · exact ⟨row', hrow', by omega, fun e => hkeep (heq ▸ e) (hq (heq ▸ e))⟩

theorem BarredStep.of_fleet (h : FleetStep Confirms db db') (hc : Coherent db) : BarredStep id generation db db' := by
  refine .of_row fun row hrow => ?_
  obtain ⟨row', hrow', hconf⟩ := h.kept hc hrow
  exact ⟨row', hrow', .inr ⟨hconf.generation, fun _ => hconf.quarantine⟩⟩

theorem BarredStep.of_served {requested i : InstanceDocument}
    (h : Served requested i db db') : BarredStep id generation db db' := by
  refine .of_row fun row hrow => ?_
  by_cases hid : id = i.id
  · subst hid
    refine ⟨servedRow i, (h.instances _).trans (if_pos rfl), .inl ?_⟩
    have hnext : i.generation = row.metadata.generation + 1 := (h.prior row hrow).2
    show row.metadata.generation < i.generation
    omega
  · refine ⟨row, ?_, .inr ⟨rfl, fun _ hq => hq⟩⟩
    rw [h.instances, if_neg hid, hrow]

theorem cleared_generation (active : List (String × Nat)) (row : InstanceRow) :
    (cleared active row).metadata.generation = row.metadata.generation := by
  unfold cleared
  split <;> rfl

theorem cleared_active {active : List (String × Nat)}
    (h : (row.metadata.id, row.metadata.generation) ∈ active) : cleared active row = row :=
  if_neg fun hcleared => hcleared.2 h

theorem BarredStep.of_reconcile (hc : Coherent db) (hpair : (id, generation) ∈ evidencePairs evidence)
    (h : reconcileQuarantine d evidence db = .ok (u, db')) : BarredStep id generation db db' := by
  refine .of_row fun row hrow => ?_
  have hget := (reconcileQuarantine_inv hc h).2 id
  rw [hrow, Option.map_some] at hget
  refine ⟨_, hget, .inr ?_⟩
  split
  · refine ⟨cleared_generation _ row, fun hg hq => ?_⟩
    rw [cleared_active]
    · exact hq
    · rw [(hc.rows id row hrow).id_eq, hg]
      exact hpair
  · exact ⟨rfl, fun _ hq => hq⟩

theorem Command.run_barred (E : Env) (d : Draw) {c : Command} (hc : Coherent db)
    (hpair : ∀ evidence, c = .reconcileQuarantine evidence → (id, generation) ∈ evidencePairs evidence) :
    BarredStep id generation db (c.run E d db) := by
  by_cases hserve : ∃ inst, c = .beginServe inst
  · obtain ⟨inst, rfl⟩ := hserve
    show BarredStep id generation db ((Database.beginServe E inst).commit db).2
    rcases beginServe_commit E inst hc with h | ⟨served, h⟩
    · rw [h]
      exact .refl db
    · exact .of_served h
  by_cases hreconcile : ∃ evidence, c = .reconcileQuarantine evidence
  · obtain ⟨evidence, rfl⟩ := hreconcile
    show BarredStep id generation db ((Database.reconcileQuarantine d evidence).commit db).2
    rcases (Database.reconcileQuarantine d evidence).commit_cases db with ⟨u, db', hrun, hcommit⟩ | ⟨err, _, hcommit⟩
    · rw [hcommit]
      exact .of_reconcile hc (hpair evidence rfl) hrun
    · rw [hcommit]
      exact .refl db
  · exact .of_fleet (Command.run_writes writes_confirms E d (fun inst h => hserve ⟨inst, h⟩)
      (fun evidence h => hreconcile ⟨evidence, h⟩) db) hc

variable (id generation) in
theorem barred_steady (S : Site) (reported : List QuarantineEvidence) :
    Steady S (quarantineRules reported id generation) fun w w' => BarredStep id generation w.db w'.db where
  refl w := .refl w.db
  trans _ _ _ := .trans
  step l e t w hc hallow := by
    show BarredStep id generation w.db (e.onDb S.env t.oracle.draw w.db)
    unfold Eff.onDb
    cases hw : e.writes with
    | none => exact .refl w.db
    | some c =>
      refine c.run_barred S.env t.oracle.draw hc fun evidence hreconcile => ?_
      subst hreconcile
      have he : e = .command (.reconcileQuarantine evidence) := by
        cases e <;> cases hw
        rfl
      subst he
      cases l <;> exact of_decide_eq_true hallow

theorem mem_evidencePairs : (id, generation) ∈ evidencePairs (q :: rest) ↔
      Names id generation q = true ∨ (id, generation) ∈ evidencePairs rest := by
  unfold evidencePairs Names
  rw [List.filterMap_cons]
  cases q.instanceId <;> cases q.generation <;> simp [eq_comm (a := id), eq_comm (a := generation)]

theorem markQuarantine_barred (E : Env) (d : Draw) {cause : String} (hc : Coherent db)
    (hcause : (!cause.isEmpty && decide (cause.utf8ByteSize ≤ 128)) = true) (h : Present id generation db) :
    Barred id generation ((Command.markQuarantine id generation cause).run E d db) := by
  obtain ⟨row, hrow, hle⟩ := h
  by_cases hg : row.metadata.generation = generation
  · have hput := markQuarantine_run hc hrow cause hcause
    rw [hg] at hput
    have hrun : (Command.markQuarantine id generation cause).run E d db =
        db.put (quarantined cause row.metadata) := congrArg Prod.snd (Tx.commit_ok hput)
    have hid : (quarantined cause row.metadata).id = id := (hc.rows id row hrow).id_eq
    refine ⟨row.put (quarantined cause row.metadata), ?_, hle, fun _ => rfl⟩
    rw [hrun, Db.get?_put (hid.symm ▸ hrow), if_pos hid.symm]
  · refine (Command.run_barred E d hc fun _ h => by cases h).barred ⟨row, hrow, hle, fun e => absurd e hg⟩

theorem cause_of_valid (h : validateQuarantineEvidence q = .ok ()) :
    (!q.cause.isEmpty && decide (q.cause.utf8ByteSize ≤ 128)) = true := by
  unfold validateQuarantineEvidence at h
  split at h
  · cases h
  · rename_i hvalid
    simp only [Bool.or_eq_true, not_or, decide_eq_true_eq, Bool.not_eq_true, not_lt] at hvalid
    simp [hvalid.1.2, hvalid.2]

/-! ### The pass -/

def OtherPair (id : String) (generation : Nat) : Eff → World → Prop
  | .outside (.startPrepared prepared), _ =>
    (prepared.input.instanceId, prepared.input.generation) ≠ (id, generation)
  | _, _ => True

abbrev quarantinePass (S : Site) (reported : List QuarantineEvidence) (id : String) (generation : Nat) :
    Contract (agent S) :=
  passContract S (quarantineRules reported id generation) (fun w w' => BarredStep id generation w.db w'.db)
    (OtherPair id generation)

def Listed (id : String) (generation : Nat) (instances : List InstanceDocument) : Prop :=
  ∃ inst ∈ instances, inst.id = id ∧ inst.generation = generation

def Marking (id : String) (generation : Nat) (instances : List InstanceDocument)
    (rest : List QuarantineEvidence) (w : World) : Prop :=
  Listed id generation instances → Present id generation w.db ∧
    ((id, generation) ∈ evidencePairs rest ∨ Barred id generation w.db)

variable {S : Site} {reported : List QuarantineEvidence} {i : Nat} {instances : List InstanceDocument}

theorem otherPair_base (he : reconcileBase e) (w : World) : OtherPair id generation e w := by
  cases e with
  | outside c => cases c <;> trivial
  | _ => trivial

theorem Marking.step (w w' : World)
    (h : BarredStep id generation w.db w'.db) (hw : Marking id generation instances rest w) :
    Marking id generation instances rest w' :=
  fun hl => ⟨h.present (hw hl).1, (hw hl).2.imp_right h.barred⟩

theorem markQuarantined_pass (w : World)
    (hq : q ∈ reported) (hvalid : validateQuarantineEvidence q = .ok ()) (hnames : Names id generation q = true)
    (hw : Marking id generation instances (q :: rest) w) :
    wp (quarantinePass S reported id generation) .reconcile i (fun _ => Marking id generation instances rest)
      (withLease ("reconcile-quarantine:" ++ q.containerId) () (markQuarantined q)) w := by
  have hR := barred_steady id generation S reported
  refine hR.op (e := .tryAcquire _) Marking.step (fun _ _ _ => trivial) hw fun t w1 _ hallow _ hw1 => ?_
  -- the lease was free, so the mark is made
  have hfree : w1.admission.holder.isNone = true := by
    have hnamed : (reported.any fun q' => Names id generation q' &&
        ("reconcile-quarantine:" ++ q.containerId) = "reconcile-quarantine:" ++ q'.containerId) = true :=
      List.any_eq_true.mpr ⟨q, hq, by rw [hnames]; simp⟩
    have hallow : (w1.admission.holder.isNone || !reported.any fun q' => Names id generation q' &&
        ("reconcile-quarantine:" ++ q.containerId) = "reconcile-quarantine:" ++ q'.containerId) = true := hallow
    rw [hnamed] at hallow
    simpa using hallow
  have hans : (Eff.tryAcquire ("reconcile-quarantine:" ++ q.containerId)).answer S t w1 = true := by
    show (w1.admission.tryAcquire _).isSome = true
    unfold TransitionCoordinator.tryAcquire
    rw [Option.isNone_iff_eq_none.mp hfree]
    rfl
  rw [hans]
  simp only [Names, Bool.and_eq_true, decide_eq_true_eq] at hnames
  unfold markQuarantined
  rw [hnames.1, hnames.2]
  refine hR.op (e := .command (.markQuarantine id generation q.cause))
    (F := fun w => Listed id generation instances → Present id generation w.db)
    (fun _ _ h hw hl => h.present (hw hl)) (fun _ _ _ => trivial) (fun hl => (hw1 hl).1)
    fun t w2 hc _ hw2 _ => ?_
  have hbarred : Marking id generation instances rest
      ((Eff.command (.markQuarantine id generation q.cause)).after S t w2) := fun hl => by
    have hb := markQuarantine_barred S.env t.oracle.draw hc (cause_of_valid hvalid) (hw2 hl)
    exact ⟨hb.present, .inr hb⟩
  exact hR.op (e := .release _) Marking.step (fun _ _ _ => trivial) hbarred fun _ _ _ _ _ h => h

theorem markAllQuarantined_pass : ∀ (rest : List QuarantineEvidence) (w : World),
    (∀ q ∈ rest, q ∈ reported ∧ validateQuarantineEvidence q = .ok ()) →
    Marking id generation instances rest w →
    wp (quarantinePass S reported id generation) .reconcile i
      (fun _ => Marking id generation instances []) (markAllQuarantined rest) w
  | [], _, _, hw => hw
  | q :: rest, w, hrest, hw => by
    have hR := barred_steady id generation S reported
    refine wp_bind (wp_mono (fun _ w' hw' => markAllQuarantined_pass rest w'
      (fun q' hq' => hrest q' (List.mem_cons_of_mem _ hq')) hw') ?_)
    by_cases hnames : Names id generation q = true
    · obtain ⟨hq, hvalid⟩ := hrest q (List.mem_cons_self ..)
      exact markQuarantined_pass w hq hvalid hnames hw
    · have hw : Marking id generation instances rest w := fun hl =>
        ⟨(hw hl).1, (hw hl).2.imp_left fun hmem => (mem_evidencePairs.mp hmem).resolve_left hnames⟩
      have hclosed := safe_closed (quarantinePass S reported id generation) .reconcile i
        (Marking id generation instances rest)
      have hmark : ∀ w, Marking id generation instances rest w →
          wp (quarantinePass S reported id generation) .reconcile i
            (fun _ => Marking id generation instances rest) (markQuarantined q) w := by
        unfold markQuarantined
        split
        · exact hclosed.bind (hR.perform (e := .command (.markQuarantine ..)) Marking.step
            fun _ _ _ => trivial) fun _ => hclosed.ret _
        · exact hclosed.ret _
      exact withLease_closed hclosed (hR.perform (e := .tryAcquire _) Marking.step fun _ _ _ => trivial)
        (hR.perform (e := .release _) Marking.step fun _ _ _ => trivial) hmark w hw

theorem recordRestartFailure_barred (E : Env) (d : Draw) (hc : Coherent db) (h : Barred id generation db)
    (hok : ((Command.recordRestartFailure id generation second).exec E d db).1 = .ok failed) :
    failed.quarantine.isSome = true := by
  rcases (recordRestartFailure id generation second).commit_cases db with
    ⟨a, db', hrun, hcommit⟩ | ⟨err, _, hcommit⟩
  · have hok : ((recordRestartFailure id generation second).commit db).1 = .ok failed := hok
    rw [hcommit] at hok
    cases hok
    obtain ⟨r, hr, hg, hsome, rfl, _⟩ := recordRestartFailure_inv hrun
    obtain ⟨row, hrow, _, hq⟩ := h
    rw [hc.lookup_of_id hrow] at hr
    cases hr
    exact hq hg
  · have hok : ((recordRestartFailure id generation second).commit db).1 = .ok failed := hok
    rw [hcommit] at hok
    cases hok

theorem reconcileInstances_barred (engines : List ObservedEngine) (operations : List OperationDocument)
    (w : World) (hw : Listed id generation instances → Barred id generation w.db) :
    wp (quarantinePass S reported id generation) .reconcile i
      (fun _ w => Listed id generation instances → Barred id generation w.db)
      (reconcileInstances S engines operations instances) w := by
  have hR := barred_steady id generation S reported
  have hF : ∀ w w' : World, BarredStep id generation w.db w'.db →
      (Listed id generation instances → Barred id generation w.db) →
      Listed id generation instances → Barred id generation w'.db := fun _ _ h hw hl => h.barred (hw hl)
  have hclosed := safe_closed (quarantinePass S reported id generation) .reconcile i
    (fun w => Listed id generation instances → Barred id generation w.db)
  have hbase := fun e (he : reconcileBase e) =>
    hR.perform (P := OtherPair id generation) (l := .reconcile) (i := i) hF (e := e)
      fun w _ _ => otherPair_base he w
  have hcomplete := completeRecoveredOperation_closed (S := S) hclosed (fun e he => hbase e he.base)
    (fun _ _ _ _ _ _ => hclosed.bind (hR.perform (e := .command (.transition ..)) hF fun _ _ _ => trivial)
      fun _ => hclosed.ret _) operations
  have hrunning : ∀ inst engine, ∀ w, (Listed id generation instances → Barred id generation w.db) →
      wp (quarantinePass S reported id generation) .reconcile i
        (fun _ w => Listed id generation instances → Barred id generation w.db)
        (reconcileRunningEngine S inst engine) w := fun inst engine =>
    reconcileRunningEngine_of hclosed (fun e he => hbase e he.base)
      (fun _ => hbase (.command (.recordRestartFailure ..)) trivial) fun route _ =>
      hclosed.bind (hbase (.command (.setInstanceObserved ..)) trivial) fun r => by
        cases r with
        | error e => exact hclosed.ret _
        | ok _ => exact hclosed.bind (hR.perform (e := .publish ..) hF fun _ _ _ => trivial) fun _ => hclosed.ret _
  refine reconcileInstances_of hclosed (fun e he => hbase e he.base) engines instances (fun inst hinst => ?_) w hw
  refine reconcileInstance_of hclosed (fun e he => hbase e he.base) hcomplete _
    (fun _ _ engine _ => hrunning inst engine) fun _ _ => ?_
  refine hclosed.bind (hbase (.outside .unixMillis) trivial) fun now w hw => ?_
  refine hR.op (e := .command (.recordRestartFailure ..)) hF (fun _ _ _ => trivial) hw
    fun t w1 hc _ hw1 hw2 => ?_
  generalize hans : (Eff.command (.recordRestartFailure ..)).answer S t w1 = r
  cases r with
  | error e => exact hw2
  | ok failed =>
    refine hR.restartEngine hF (fun _ _ => trivial) (fun _ _ _ h => h)
      (fun hclear operationId prepared hinput w hw => ?_) _ hw2
    have hne : (prepared.input.instanceId, prepared.input.generation) ≠ (id, generation) := by
      rw [hinput]
      intro he
      obtain ⟨rfl, rfl⟩ := Prod.mk.injEq .. ▸ he
      have hbarred := hw1 ⟨inst, hinst, rfl, rfl⟩
      have hq := recordRestartFailure_barred S.env t.oracle.draw hc hbarred hans
      rw [hclear] at hq
      cases hq
    refine hR.op (e := .outside (.startPrepared prepared)) hF (fun _ _ _ => hne) hw fun t w3 _ _ _ hw3 => ?_
    generalize (Eff.outside (.startPrepared prepared)).answer S t w3 = r
    cases r with
    | error e => exact hw3
    | ok engine =>
      refine hclosed.bind (hrunning failed engine) (fun done => ?_) _ hw3
      split
      · exact hclosed.bind (hcomplete _ _) fun _ => hclosed.ret _
      · exact hclosed.ret _

theorem evidence_valid (h : ((reconcileQuarantine d evidence).commit db).1 = .ok u) :
    ∀ q ∈ evidence, validateQuarantineEvidence q = .ok () := by
  intro q hq
  by_contra hbad
  obtain ⟨err, herr⟩ : ∃ err, (reconcileQuarantine d evidence).commit db = (.error err, db) :=
    reconcileQuarantine_invalid ⟨q, hq, hbad⟩
  rw [herr] at h
  cases h

theorem reconcileOnce_barred (hpair : (id, generation) ∈ evidencePairs reported) (i : Nat) (w : World) :
    wp (quarantinePass S reported id generation) .reconcile i (fun _ _ => True) (reconcileOnce S) w := by
  have hR := barred_steady id generation S reported
  refine hR.op (e := .query .listInstances) (F := fun _ => True) (fun _ _ _ _ => trivial) (fun _ _ _ => trivial)
    trivial fun t w1 hc _ _ _ => ?_
  show wp _ _ _ _ (Prog.op (Eff.outside (.reconcileScan _)) _) w1
  generalize hlist : w1.db.listInstances = instances
  have hpresent : Listed id generation instances → Present id generation w1.db := by
    rintro ⟨inst, hinst, rfl, rfl⟩
    obtain ⟨row, hrow, rfl⟩ := mem_listInstances hc (hlist.symm ▸ hinst)
    exact ⟨row, hrow, le_rfl⟩
  have hF : ∀ w w' : World, BarredStep id generation w.db w'.db →
      (Listed id generation instances → Present id generation w.db) →
      Listed id generation instances → Present id generation w'.db := fun _ _ h hw hl => h.present (hw hl)
  refine hR.op hF (fun _ _ _ => trivial) hpresent fun t w2 _ hallow _ hw2 => ?_
  have hscan : ∀ scan, (Eff.outside (.reconcileScan ((instances.filter fun i => i.desired = .running).map
      expectation))).answer S t w2 = .ok scan → scan.quarantined = reported := fun scan hans => by
    have hreply : t.oracle.reply (.reconcileScan ((instances.filter fun i => i.desired = .running).map
      expectation)) = .ok scan := hans
    simp only [quarantineRules, hreply] at hallow
    exact of_decide_eq_true hallow
  generalize (Eff.outside (.reconcileScan ((instances.filter fun i => i.desired = .running).map
    expectation))).answer S t w2 = r at hscan
  cases r with
  | error e => trivial
  | ok scan =>
    dsimp only [Prog.ret_bind]
    rw [hscan scan rfl]
    refine hR.op (e := .command (.reconcileQuarantine reported)) hF (fun _ _ _ => trivial) hw2
      fun t w3 _ _ _ hw3 => ?_
    generalize hans : (Eff.command (.reconcileQuarantine reported)).answer S t w3 = r
    cases r with
    | error e => trivial
    | ok _ =>
      dsimp only [Prog.ret_bind]
      have hvalid := evidence_valid hans
      have hmarking : Marking id generation instances reported
          ((Eff.command (.reconcileQuarantine reported)).after S t w3) := fun hl => ⟨hw3 hl, .inl hpair⟩
      refine (markAllQuarantined_pass reported _ (fun q hq => ⟨hq, hvalid q hq⟩) hmarking).bind fun _ w4 hw4 => ?_
      have hw4 : Listed id generation instances → Barred id generation w4.db := fun hl =>
        (hw4 hl).2.resolve_left nofun
      refine hR.op (e := .query .operationSummaries) (fun _ _ h hw hl => h.barred (hw hl))
        (fun _ _ _ => trivial) hw4 fun t w5 _ _ _ hw5 => ?_
      exact wp_mono (fun _ _ _ => trivial) (reconcileInstances_barred _ _ _ hw5)

end

theorem quarantine_barred (S : Site) (before : List (Draw × Command)) (c₀ : Pool)
    (hdb : c₀.world.db = actorLoop S.env {} before)
    (htasks : ∀ t ∈ c₀.tasks, t.1 = .reconcile → t.2 = program S .reconcile)
    (reported : List QuarantineEvidence) {id : String} {generation : Nat}
    (hpair : (id, generation) ∈ evidencePairs reported) {c : Pool}
    (hrun : (agent S).Runs (quarantineRules reported id generation) c₀ c) {i : Nat} {prepared : PreparedStart}
    {k : Except Unit ObservedEngine → Act Response}
    (hi : c.tasks[i]? = some (.reconcile, .op (.outside (.startPrepared prepared)) k)) :
    (prepared.input.instanceId, prepared.input.generation) ≠ (id, generation) :=
  (barred_steady id generation S reported).shows (P := OtherPair id generation) (reconcileOnce_barred hpair)
    (hdb ▸ coherent_actorLoop S.env before) htasks hrun hi

def scanRules (reported : List QuarantineEvidence) : Rules World Job Eff Oracle where
  allow l e o _ := match l, e with
    | .reconcile, .outside (.reconcileScan expected) =>
      match o.reply (.reconcileScan expected) with
      | .ok scan => scan.quarantined = reported
      | .error _ => true
    | _, _ => true
  apart _ _ _ _ := true

def quarantineReport (generation : Nat) : List QuarantineEvidence :=
  [⟨"e3b0c44298fc1c149afbf4c8996fb92427ae41e4649b934ca495991b7852b855", some begunInstance.id, some generation,
    quarantineCause⟩]

def quarantineTurn (task generation : Nat) : Nat × Oracle :=
  (task, { reply := fun
    | .reconcileScan _ => .ok ⟨[], quarantineReport generation⟩
    | c => exampleReply c })

def begunWorld : World := { db := actorLoop exampleSite.env {} serveBegun }

theorem begunWorld_db : begunWorld.db = actorLoop exampleSite.env {} serveBegun := by
  unfold begunWorld
  dsimp only

theorem starting_pass (S : Site) (w : World) (jobs : List Job) :
    ∀ t ∈ (starting S w jobs).tasks, t.1 = .reconcile → t.2 = program S .reconcile := by
  intro t ht hl
  obtain ⟨job, _, rfl⟩ := List.mem_map.mp ht
  exact congrArg (program S) hl

def aboutToStart (c : Pool) (id : String) (generation : Nat) : Bool :=
  (c.tasks[0]?).any fun t => t.1 = .reconcile && match t.2.next with
    | some (.outside (.startPrepared prepared)) =>
      prepared.input.instanceId = id && prepared.input.generation = generation
    | _ => false

theorem next_of_aboutToStart {id : String} {generation : Nat} (h : aboutToStart c id generation = true) :
    ∃ prepared k, c.tasks[0]? = some (.reconcile, .op (.outside (.startPrepared prepared)) k) ∧
      (prepared.input.instanceId, prepared.input.generation) = (id, generation) := by
  obtain ⟨⟨l, p⟩, hi, h⟩ := (Option.any_eq_true _ _).mp h
  simp only [Bool.and_eq_true, decide_eq_true_eq] at h
  obtain ⟨rfl, hnext⟩ := h
  split at hnext
  · rename_i prepared heq
    simp only [Bool.and_eq_true, decide_eq_true_eq] at hnext
    cases p with
    | ret a => cases heq
    | op e k =>
      cases heq
      exact ⟨prepared, k, hi, by rw [hnext.1, hnext.2]⟩
  · cases hnext

theorem quarantine_barred_in_run : ∃ c prepared k,
    (agent exampleSite).Runs (quarantineRules (quarantineReport 2) begunInstance.id 2)
      (starting exampleSite begunWorld [.reconcile]) c ∧
    c.tasks[0]? = some (.reconcile, .op (.outside (.startPrepared prepared)) k) ∧
    (prepared.input.instanceId, prepared.input.generation) ≠ (begunInstance.id, 2) := by
  have h : ((agent exampleSite).run (quarantineRules (quarantineReport 2) begunInstance.id 2)
      (starting exampleSite begunWorld [.reconcile]) (List.replicate 15 (quarantineTurn 0 2))).any
      (aboutToStart · begunInstance.id 1) = true := by
    decide +kernel
  obtain ⟨c, hrun, hp⟩ := reaches_of_run h
  obtain ⟨prepared, k, hi, _⟩ := next_of_aboutToStart hp
  have hpair : (begunInstance.id, 2) ∈ evidencePairs (quarantineReport 2) := List.mem_singleton_self _
  exact ⟨c, prepared, k, hrun, hi, quarantine_barred exampleSite serveBegun
    (starting exampleSite begunWorld [.reconcile]) begunWorld_db (starting_pass exampleSite begunWorld _) (quarantineReport 2) hpair hrun hi⟩

theorem busy_quarantine_restarts : ∃ c prepared k,
    (agent exampleSite).Runs (scanRules (quarantineReport 1)) (starting exampleSite begunWorld
      [.reconcile, .serveInstance ⟨"bootstrap-admin", none⟩ { exampleServe "m" with dryRun := true }]) c ∧
    c.tasks[0]? = some (.reconcile, .op (.outside (.startPrepared prepared)) k) ∧
    (prepared.input.instanceId, prepared.input.generation) ∈ evidencePairs (quarantineReport 1) := by
  have h : ((agent exampleSite).run (scanRules (quarantineReport 1)) (starting exampleSite begunWorld
      [.reconcile, .serveInstance ⟨"bootstrap-admin", none⟩ { exampleServe "m" with dryRun := true }])
      (List.replicate 3 (quarantineTurn 1 1) ++ List.replicate 5 (quarantineTurn 0 1) ++
        List.replicate 5 (quarantineTurn 1 1) ++ List.replicate 8 (quarantineTurn 0 1))).any
      (aboutToStart · begunInstance.id 1) = true := by
    decide +kernel
  obtain ⟨c, hrun, hp⟩ := reaches_of_run h
  obtain ⟨prepared, k, hi, hpair⟩ := next_of_aboutToStart hp
  exact ⟨c, prepared, k, hrun, hi, hpair ▸ List.mem_singleton_self _⟩

/-! ## Current intent -/

def Db.intent (db : Db) (id : String) : Option (InstanceDesiredState × Nat) :=
  (db.instances.get? id).map fun row => (row.metadata.desired, row.metadata.generation)

/-- Nobody changes the intent of the instance, and the executor starts what it
is asked to start. -/
def intentRules (S : Site) (id : String) : Rules World Job Eff Oracle where
  allow l e o w :=
    ((w.db.intent id).isNone || (e.onDb S.env o.draw w.db).intent id = w.db.intent id) &&
    match l, e with
    | .reconcile, .outside (.prepareInstance input) => echoes o input
    | .reconcile, .outside (.startPrepared prepared) =>
      match o.reply (.startPrepared prepared) with
      | .ok engine => engine.instanceId = prepared.input.instanceId &&
          engine.generation = prepared.input.generation
      | .error _ => true
    | _, _ => true
  apart _ _ _ _ := true

def IntentStep (id : String) (db db' : Db) : Prop :=
  ∀ row, db.instances.get? id = some row → ∃ row', db'.instances.get? id = some row' ∧
    row'.metadata.name = row.metadata.name ∧ row'.metadata.desired = row.metadata.desired ∧
    row'.metadata.generation = row.metadata.generation

def Wanted (row : InstanceRow) (generation : Nat) : Prop :=
  row.metadata.desired = .running ∧ row.metadata.generation = generation

def StartsWanted (id : String) : Eff → World → Prop
  | .outside (.startPrepared prepared), w =>
    prepared.input.instanceId = id → ∃ row, w.db.instances.get? id = some row ∧ Wanted row prepared.input.generation
  | .publish name _ _ upstream, w => upstream.instanceId = id →
      ∃ row, w.db.instances.get? id = some row ∧ row.metadata.name = name ∧ Wanted row upstream.generation
  | _, _ => True

abbrev intentPass (S : Site) (id : String) : Contract (agent S) :=
  passContract S (intentRules S id) (fun w w' => IntentStep id w.db w'.db) (StartsWanted id)

def ListedAs (id : String) (instances : List InstanceDocument) (w : World) : Prop :=
  ∀ inst ∈ instances, inst.id = id → ∃ row, w.db.instances.get? id = some row ∧
    row.metadata.name = inst.name ∧ row.metadata.desired = inst.desired ∧
    row.metadata.generation = inst.generation

section
variable {S : Site} {id : String} {i : Nat} {instances : List InstanceDocument}

theorem Command.run_name (E : Env) (d : Draw) (c : Command) {db : Db} (hc : Coherent db)
    (hrow : db.instances.get? id = some row) :
    ∃ row', (c.run E d db).instances.get? id = some row' ∧ row'.metadata.name = row.metadata.name := by
  by_cases hserve : ∃ inst, c = .beginServe inst
  · obtain ⟨inst, rfl⟩ := hserve
    show ∃ row', ((Database.beginServe E inst).commit db).2.instances.get? id = some row' ∧ _
    rcases beginServe_commit E inst hc with h | ⟨served, h⟩
    · rw [h]
      exact ⟨row, hrow, rfl⟩
    · rw [h.instances]
      split
      · rename_i hid
        subst hid
        refine ⟨_, rfl, ?_⟩
        show served.name = row.metadata.name
        rw [(hc.rows _ row hrow).name_eq, (h.prior row hrow).1]
      · exact ⟨row, hrow, rfl⟩
  · obtain ⟨row', hrow', hcalm⟩ := (c.run_calm E d (fun inst h => hserve ⟨inst, h⟩) db).kept hc hrow
    exact ⟨row', hrow', hcalm.name⟩

theorem intent_steady (S : Site) (id : String) :
    Steady S (intentRules S id) fun w w' => IntentStep id w.db w'.db where
  refl _ := fun row hrow => ⟨row, hrow, rfl, rfl, rfl⟩
  trans _ _ _ h1 h2 := fun row hrow => by
    obtain ⟨row1, hrow1, hn1, hd1, hg1⟩ := h1 row hrow
    obtain ⟨row2, hrow2, hn2, hd2, hg2⟩ := h2 row1 hrow1
    exact ⟨row2, hrow2, hn2.trans hn1, hd2.trans hd1, hg2.trans hg1⟩
  step l e t w hc hallow := by
    intro row hrow
    have hintent : (e.after S t w).db.intent id = w.db.intent id := by
      have hsome : (w.db.intent id).isNone = false := by
        unfold Db.intent
        rw [hrow]
        rfl
      have hsame := (Bool.and_eq_true_iff.mp hallow).1
      rw [hsome, Bool.false_or] at hsame
      exact of_decide_eq_true hsame
    obtain ⟨row', hrow', hname⟩ : ∃ row', (e.after S t w).db.instances.get? id = some row' ∧
        row'.metadata.name = row.metadata.name := by
      show ∃ row', (e.onDb S.env t.oracle.draw w.db).instances.get? id = some row' ∧ _
      unfold Eff.onDb
      cases e.writes with
      | none => exact ⟨row, hrow, rfl⟩
      | some c => exact c.run_name S.env t.oracle.draw hc hrow
    unfold Db.intent at hintent
    rw [hrow, hrow', Option.map_some, Option.map_some, Option.some_inj, Prod.mk.injEq] at hintent
    exact ⟨row', hrow', hname, hintent.1, hintent.2⟩

theorem ListedAs.step (w w' : World) (h : IntentStep id w.db w'.db) (hw : ListedAs id instances w) :
    ListedAs id instances w' := by
  intro inst hinst hid
  obtain ⟨row, hrow, hn, hd, hg⟩ := hw inst hinst hid
  obtain ⟨row', hrow', hn', hd', hg'⟩ := h row hrow
  exact ⟨row', hrow', hn'.trans hn, hd'.trans hd, hg'.trans hg⟩

theorem ListedAs.wanted {w : World} (hw : ListedAs id instances w)
    (hinst : inst ∈ instances) (hrunning : inst.desired = .running) (hid : inst.id = id) :
    ∃ row, w.db.instances.get? id = some row ∧ row.metadata.name = inst.name ∧ Wanted row inst.generation := by
  obtain ⟨row, hrow, hn, hd, hg⟩ := hw inst hinst hid
  exact ⟨row, hrow, hn, hd.trans hrunning, hg⟩

theorem startsWanted_base (he : reconcileBase e) (w : World) : StartsWanted id e w := by
  cases e with
  | outside c => cases c <;> trivial
  | _ => trivial

theorem perform_listed (he : reconcileBase e) (w : World) (hw : ListedAs id instances w) :
    wp (intentPass S id) .reconcile i (fun _ => ListedAs id instances) (perform e) w :=
  (intent_steady S id).perform ListedAs.step (fun w _ _ => startsWanted_base he w) w hw

theorem reconcileRunningEngine_wanted {shown : InstanceDocument} {engine : ObservedEngine}
    (hinst : inst ∈ instances) (hrunning : inst.desired = .running)
    (hengine : engine.instanceId = inst.id ∧ engine.generation = inst.generation)
    (hname : inst.id = id → shown.name = inst.name) (w : World) (hw : ListedAs id instances w) :
    wp (intentPass S id) .reconcile i (fun _ => ListedAs id instances) (reconcileRunningEngine S shown engine) w := by
  have hR := intent_steady S id
  have hclosed := safe_closed (intentPass S id) .reconcile i (ListedAs id instances)
  refine reconcileRunningEngine_of hclosed (fun _ he => perform_listed he.base)
    (fun _ => perform_listed (e := .command (.recordRestartFailure ..)) trivial) (fun route hroute => ?_) w hw
  have hupstream : route.instanceId = inst.id ∧ route.generation = inst.generation := by
    unfold observedRoute at hroute
    split at hroute <;> cases hroute
    exact hengine
  refine hclosed.bind (perform_listed (e := .command (.setInstanceObserved ..)) trivial) fun r => ?_
  cases r with
  | error e => exact hclosed.ret _
  | ok _ =>
    refine hclosed.bind (hR.perform (e := .publish ..) ListedAs.step fun w _ hw hid => ?_) fun _ => hclosed.ret _
    have hid : inst.id = id := hupstream.1.symm.trans hid
    obtain ⟨row, hrow, hn, hwanted⟩ := hw.wanted hinst hrunning hid
    exact ⟨row, hrow, hn.trans (hname hid).symm, hupstream.2.symm ▸ hwanted⟩

theorem recordRestartFailure_listed (E : Env) (d : Draw) {w : World}
    (hc : Coherent w.db) (hw : ListedAs id instances w) (hinst : inst ∈ instances) (hid : inst.id = id)
    (hok : ((Command.recordRestartFailure inst.id inst.generation second).exec E d w.db).1 = .ok failed) :
    failed.name = inst.name := by
  have hok : ((recordRestartFailure inst.id inst.generation second).commit w.db).1 = .ok failed := hok
  rcases (recordRestartFailure inst.id inst.generation second).commit_cases w.db with
    ⟨a, db', hrun, hcommit⟩ | ⟨err, _, hcommit⟩
  · rw [hcommit] at hok
    cases hok
    obtain ⟨r, hr, _, _, rfl, _⟩ := recordRestartFailure_inv hrun
    obtain ⟨row, hrow, hn, _⟩ := hw inst hinst hid
    rw [hid, hc.lookup_of_id hrow] at hr
    cases hr
    exact hn
  · rw [hcommit] at hok
    cases hok

theorem reconcileInstances_wanted (engines : List ObservedEngine) (operations : List OperationDocument)
    (w : World) (hw : ListedAs id instances w) :
    wp (intentPass S id) .reconcile i (fun _ => ListedAs id instances)
      (reconcileInstances S engines operations instances) w := by
  have hR := intent_steady S id
  have hclosed := safe_closed (intentPass S id) .reconcile i (ListedAs id instances)
  have hcomplete := completeRecoveredOperation_closed (S := S) hclosed (fun _ he => perform_listed he.base)
    (fun _ _ _ _ _ _ => hclosed.bind (hR.perform (e := .command (.transition ..)) ListedAs.step
      fun _ _ _ => trivial) fun _ => hclosed.ret _) operations
  refine reconcileInstances_of hclosed (fun _ he => perform_listed he.base) engines instances (fun inst hinst => ?_) w hw
  refine reconcileInstance_of hclosed (fun _ he => perform_listed he.base) hcomplete _
    (fun hrunning _ engine hmatched => ?_) fun hrunning _ => ?_
  · have hengine : engine.instanceId = inst.id ∧ engine.generation = inst.generation := by
      have hmem := List.mem_of_getLast? hmatched
      simpa using (List.mem_filter.mp hmem).2
    exact reconcileRunningEngine_wanted hinst hrunning hengine fun _ => rfl
  refine hclosed.bind (perform_listed (e := .outside .unixMillis) trivial) fun now w hw => ?_
  refine hR.op (e := .command (.recordRestartFailure ..)) ListedAs.step (fun _ _ _ => trivial) hw
    fun t w1 hc _ hw1 hw2 => ?_
  generalize hans : (Eff.command (.recordRestartFailure ..)).answer S t w1 = r
  cases r with
  | error e => exact hw2
  | ok failed =>
    have hname : inst.id = id → failed.name = inst.name := fun hid =>
      recordRestartFailure_listed S.env t.oracle.draw hc hw1 hinst hid hans
    refine hR.restartEngine ListedAs.step (fun _ _ => trivial)
      (fun _ _ _ h => (Bool.and_eq_true_iff.mp h).2) (fun _ operationId prepared hinput w hw => ?_) _ hw2
    refine hR.op (e := .outside (.startPrepared prepared)) ListedAs.step (fun w _ hw hid => ?_) hw
      fun t w3 _ hallow _ hw3 => ?_
    · rw [hinput] at hid ⊢
      obtain ⟨row, hrow, _, hwanted⟩ := hw.wanted hinst hrunning hid
      exact ⟨row, hrow, hwanted⟩
    have hstarted := (Bool.and_eq_true_iff.mp hallow).2
    show wp _ _ _ _ (match t.oracle.reply (.startPrepared prepared) with
      | .error _ => _ | .ok engine => _) _
    dsimp only at hstarted
    cases hreply : t.oracle.reply (.startPrepared prepared) with
    | error e => exact hw3
    | ok engine =>
      rw [hreply] at hstarted
      simp only [Bool.and_eq_true, decide_eq_true_eq, hinput] at hstarted
      refine hclosed.bind (reconcileRunningEngine_wanted hinst hrunning hstarted hname) (fun done => ?_) _ hw3
      split
      · exact hclosed.bind (hcomplete _ _) fun _ => hclosed.ret _
      · exact hclosed.ret _

theorem reconcileOnce_wanted (i : Nat) (w : World) :
    wp (intentPass S id) .reconcile i (fun _ _ => True) (reconcileOnce S) w := by
  have hR := intent_steady S id
  refine hR.op (e := .query .listInstances) (F := fun _ => True) (fun _ _ _ _ => trivial) (fun _ _ _ => trivial)
    trivial fun t w1 hc _ _ _ => ?_
  show wp _ _ _ _ (Prog.op (Eff.outside (.reconcileScan _)) _) w1
  have hlisted : ListedAs id w1.db.listInstances w1 := by
    rintro inst hinst rfl
    obtain ⟨row, hrow, rfl⟩ := mem_listInstances hc hinst
    exact ⟨row, hrow, rfl, rfl, rfl⟩
  generalize w1.db.listInstances = instances at hlisted
  have hclosed := safe_closed (intentPass S id) .reconcile i (ListedAs id instances)
  refine wp_mono (fun _ _ _ => trivial) (hclosed.bind (p := perform (.outside (.reconcileScan _)))
    (perform_listed trivial) (fun r => ?_) w1 hlisted)
  cases r with
  | error e => exact hclosed.ret _
  | ok scan =>
    refine hclosed.bind (perform_listed (e := .command (.reconcileQuarantine _)) trivial) fun r => ?_
    cases r with
    | error e => exact hclosed.ret _
    | ok _ =>
      refine hclosed.bind (markAllQuarantined_closed hclosed (fun _ he => perform_listed he.base) _) fun _ => ?_
      refine hclosed.bind (perform_listed (e := .query .operationSummaries) trivial) fun r => ?_
      cases r with
      | error e => exact hclosed.ret _
      | ok operations => exact reconcileInstances_wanted _ _

end

theorem restart_current (S : Site) (before : List (Draw × Command)) (c₀ : Pool)
    (hdb : c₀.world.db = actorLoop S.env {} before)
    (htasks : ∀ t ∈ c₀.tasks, t.1 = .reconcile → t.2 = program S .reconcile) (id : String) {c : Pool}
    (hrun : (agent S).Runs (intentRules S id) c₀ c) {i : Nat} {e : Eff} {k : e.Reply → Act Response}
    (hi : c.tasks[i]? = some (.reconcile, .op e k)) : StartsWanted id e c.world :=
  (intent_steady S id).shows reconcileOnce_wanted (hdb ▸ coherent_actorLoop S.env before) htasks hrun hi

theorem restart_current_in_run : ∃ c prepared row k, (agent exampleSite).Runs (intentRules exampleSite begunInstance.id)
      (starting exampleSite begunWorld [.reconcile]) c ∧
    c.tasks[0]? = some (.reconcile, .op (.outside (.startPrepared prepared)) k) ∧
    c.world.db.instances.get? begunInstance.id = some row ∧ Wanted row prepared.input.generation := by
  have h : ((agent exampleSite).run (intentRules exampleSite begunInstance.id)
      (starting exampleSite begunWorld [.reconcile]) (List.replicate 12 (serveTurn 0 ""))).any
      (aboutToStart · begunInstance.id 1) = true := by
    decide +kernel
  obtain ⟨c, hrun, hp⟩ := reaches_of_run h
  obtain ⟨prepared, k, hi, hpair⟩ := next_of_aboutToStart hp
  obtain ⟨row, hrow, hwanted⟩ := restart_current exampleSite serveBegun
    (starting exampleSite begunWorld [.reconcile]) begunWorld_db (starting_pass exampleSite begunWorld _) begunInstance.id hrun hi (Prod.mk.inj hpair).1
  exact ⟨c, prepared, row, k, hrun, hi, hrow, hwanted⟩

theorem stopped_engine_restarts : ∃ c prepared row k, (agent exampleSite).Runs .free (starting exampleSite begunWorld
      [.reconcile, .stopInstance ⟨"bootstrap-admin", some "k2"⟩ begunInstance.id exampleStop]) c ∧
    c.tasks[0]? = some (.reconcile, .op (.outside (.startPrepared prepared)) k) ∧
    prepared.input.instanceId = begunInstance.id ∧
    c.world.db.instances.get? begunInstance.id = some row ∧ row.metadata.desired = .stopped := by
  have h : ((agent exampleSite).run .free (starting exampleSite begunWorld
      [.reconcile, .stopInstance ⟨"bootstrap-admin", some "k2"⟩ begunInstance.id exampleStop])
      (List.replicate 4 (serveTurn 0 "") ++ List.replicate 4 (serveTurn 1 "op2") ++
        List.replicate 8 (serveTurn 0 ""))).any
      (fun c => aboutToStart c begunInstance.id 1 && (c.world.db.instances.get? begunInstance.id).any
        fun row => row.metadata.desired = .stopped) = true := by
    decide +kernel
  obtain ⟨c, hrun, hp⟩ := reaches_of_run h
  rw [Bool.and_eq_true] at hp
  obtain ⟨prepared, k, hi, hpair⟩ := next_of_aboutToStart hp.1
  obtain ⟨row, hrow, hstopped⟩ := (Option.any_eq_true _ _).mp hp.2
  exact ⟨c, prepared, row, k, hrun, hi, (Prod.mk.inj hpair).1, hrow, of_decide_eq_true hstopped⟩

end Sparkplane

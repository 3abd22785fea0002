import Sparkplane.EmergencySound
import Sparkplane.Script

/-!
# Crashes during an import

`import_emergency` commits the record first and then closes operations one
transition at a time. `emergency_crash_equivalent` says when a crash between
these commits, a restart and a second import give what one import gives.
-/

namespace Sparkplane

open Database
open Script
open Brief
open Batch

variable {p : Brief → Bool} {b : Brief} {id : String}

/-! ## The import as a script -/

def closeScript (d : Draw) (id : String) (running failed : OperationProgress) (problem : ProblemDocument) :
    Script Db StateError Unit :=
  .read fun db => match db.readOperation id with
    | .error e => .done (.error e)
    | .ok current =>
      let failing := .commit (Database.transition d id .failed failed none (some problem)) fun _ => .done (.ok ())
      if current.state = .accepted then
        .commit (Database.transition d id .running running none none) fun _ => failing
      else failing

def importScript (E : Env) (d : Draw) (record : EmergencyRecord) : Script Db StateError Bool :=
  if !(record.schema = "sparkplane.emergency-record/v1" && E.parseUlid record.eventId &&
      !record.decision.instanceId.isEmpty && !record.decision.cause.isEmpty) then
    .done (.error emergencyInvalid)
  else if !fitsI64 record.decision.generation then
    .done (.error (.invalid "emergency generation is out of range"))
  else .commit (recordEmergency record) fun
    | .duplicate => .done (.ok false)
    | .stale => .done (.ok true)
    | .suppressed => .read fun db =>
      (each (fun id => closeScript d id emergencyRunning emergencyFailed (emergencyProblem record id))
        (db.activeTargeting record.decision.instanceId)).bind fun _ => .done (.ok true)

theorem closeScript_run (d : Draw) (id : String) (running failed : OperationProgress)
    (problem : ProblemDocument) (db : Db) :
    (closeScript d id running failed problem).run db = closeOperation d id running failed problem db := by
  unfold closeScript closeOperation
  simp only [run, bind_run, query_run]
  cases db.readOperation id with
  | error e => rfl
  | ok current =>
    have hfail : ∀ db1, (commit (Database.transition d id .failed failed none (some problem))
        fun _ => .done (.ok ())).run db1 =
          ((Database.transition d id .failed failed none (some problem)).commit >>= fun _ =>
            (pure () : Cmd Unit)) db1 := by
      intro db1
      rw [run_commit, bind_run, commit_run]
      cases Database.transition d id .failed failed none (some problem) db1 <;> rfl
    dsimp only
    split
    · rw [run_commit, bind_run, commit_run]
      cases Database.transition d id .running running none none db with
      | error e => rfl
      | ok out => exact hfail out.2
    · exact hfail db

theorem importScript_run (E : Env) (d : Draw) (record : EmergencyRecord) (db : Db) :
    (importScript E d record).run db = importEmergency E d record db := by
  unfold importScript importEmergency
  rw [bind_run, require_run]
  cases record.schema = "sparkplane.emergency-record/v1" && E.parseUlid record.eventId &&
      !record.decision.instanceId.isEmpty && !record.decision.cause.isEmpty with
  | false => rfl
  | true =>
    rw [if_neg (by decide), if_pos rfl]
    dsimp only
    rw [bind_run, require_run]
    cases fitsI64 record.decision.generation with
    | false => rfl
    | true =>
      rw [if_neg (by decide), if_pos rfl, run_commit]
      dsimp only
      rw [bind_run, commit_run]
      cases recordEmergency record db with
      | error e => rfl
      | ok out =>
        obtain ⟨outcome, db1⟩ := out
        cases outcome with
        | duplicate => rfl
        | stale => rfl
        | suppressed =>
          dsimp only
          rw [run]
          dsimp only
          rw [run_bind, bind_run, bind_run, query_run]
          dsimp only
          rw [bind_run, run_each (closeScript_run d · _ _ _)]
          rfl

/-! ## The restart pass -/

def Brief.recovers (b : Brief) : Bool := b.kind = "instance.recover"

theorem closeIf_close (p : Brief → Bool) (b : Brief) : (b.close).closeIf p = b.close := by
  have hclosed : b.close.close = b.close := by
    unfold close
    cases hs : b.state.isTerminal with
    | true => simp [hs]
    | false => rfl
  unfold closeIf
  split
  · exact hclosed
  · rfl

theorem closeIf_of_terminal (h : p b = true → b.state.isTerminal = true) : b.closeIf p = b := by
  unfold closeIf close
  split
  · rename_i hp; rw [if_pos (h hp)]
  · rfl

theorem mem_activeRecoveries_brief {db : Db} {k : String} :
    k ∈ db.activeRecoveries ↔ ∃ b, db.brief k = some b ∧ b.recovers = true ∧ b.state.isTerminal = false := by
  rw [mem_activeRecoveries]
  constructor
  · rintro ⟨row, hrow, hk, hs⟩
    exact ⟨row.brief, congrArg _ hrow, decide_eq_true hk, hs⟩
  · rintro ⟨b, hb, hk, hs⟩
    obtain ⟨row, hrow, rfl⟩ := Option.map_eq_some_iff.mp hb
    exact ⟨row, hrow, of_decide_eq_true hk, hs⟩

theorem interruptLoop_brief (d : Draw) : ∀ (fuel : Nat) (db : Db), db.activeRecoveries.length < fuel →
    Touches [.log] db (interruptLoop d fuel db).2 ∧
      ∀ k, (interruptLoop d fuel db).2.brief k = (db.brief k).map (closeIf recovers)
  | fuel + 1, db, hlt => by
    unfold interruptLoop
    rw [bind_run, query_run]
    dsimp only
    have hn : db.activeRecoveries.Nodup := (List.filter_sublist.map Prod.fst).nodup db.operations.nodup
    cases hids : db.activeRecoveries.take 256 with
    | nil =>
      have hnone : db.activeRecoveries = [] := by simpa using List.take_eq_nil_iff.mp hids
      refine ⟨Std.Refl.refl _, fun k => ?_⟩
      show db.brief k = _
      cases hb : db.brief k with
      | none => rfl
      | some b =>
        refine congrArg some (closeIf_of_terminal fun hr => ?_).symm
        by_contra hs
        have hk := mem_activeRecoveries_brief.mpr ⟨b, hb, hr, Bool.eq_false_iff.mpr hs⟩
        rw [hnone] at hk
        cases hk
    | cons id ids =>
      obtain ⟨db1, h1, ha1⟩ := each_closeOperation d (db.activeRecoveries.take 256) db
        ((List.take_sublist _ _).nodup hn) fun i hi => List.mem_of_mem_take hi
      obtain ⟨db2, h2, ht, hb⟩ := each_close_brief d interruptedProgress interruptedProgress interruptedProblem
        (db.activeRecoveries.take 256) db ((List.take_sublist _ _).nodup hn) fun i hi => by
          obtain ⟨row, hrow, _, hs⟩ := mem_activeRecoveries.mp (List.mem_of_mem_take hi)
          exact ⟨row, hrow, hs⟩
      cases h1.symm.trans h2
      have hid : id ∈ db.activeRecoveries := List.mem_of_mem_take (hids ▸ List.mem_cons_self ..)
      have hdec : db1.activeRecoveries.length < db.activeRecoveries.length := by
        rw [ha1]
        exact List.length_filter_lt_length_iff_exists.mpr ⟨id, hid, by simp [hids]⟩
      obtain ⟨ht', hb'⟩ := interruptLoop_brief d fuel db1 (by omega)
      rw [hids] at h1
      simp only [List.isEmpty_cons, Bool.false_eq_true, ite_false, bind_run, h1]
      refine ⟨IsTrans.trans _ _ _ ht ht', fun k => ?_⟩
      rw [hb', hb]
      split
      · rename_i hk
        obtain ⟨b, hbk, hr, _⟩ := mem_activeRecoveries_brief.mp (List.mem_of_mem_take hk)
        rw [hbk, Option.map_some, Option.map_some, Option.map_some, closeIf_close, closeIf, if_pos hr]
      · rfl

theorem restart_brief (E : Env) (d : Draw) (db : Db) : Touches [.log] db (Command.run E d db .restart) ∧
      ∀ k, (Command.run E d db .restart).brief k = (db.brief k).map (closeIf recovers) := by
  have hrun : Command.run E d db .restart = (interruptLoop d (db.operations.rows.length + 1) db).2 := rfl
  rw [hrun]
  refine interruptLoop_brief d _ db (Nat.lt_succ_of_le ?_)
  unfold Db.activeRecoveries
  rw [List.length_map]
  exact List.length_filter_le _ _

/-! ## What an import does, and does again -/

def Db.suppresses (E : Env) (record : EmergencyRecord) (db : Db) : Bool :=
  record.valid E && (db.emergencyRecords.get? record.eventId).isNone &&
    (db.lookup record.decision.instanceId).any (·.2.metadata.generation = record.decision.generation)

def Db.kills (E : Env) (record : EmergencyRecord) (db : Db) (b : Brief) : Bool :=
  db.suppresses E record && b.on record.decision.instanceId

def Db.recorded (E : Env) (record : EmergencyRecord) (db : Db) : Db :=
  if record.valid E && (db.emergencyRecords.get? record.eventId).isNone then
    match db.lookup record.decision.instanceId with
    | none => db
    | some r =>
      if r.2.metadata.generation = record.decision.generation then db.shedding record r.2.metadata
      else db.noted record
  else db

section
variable {E : Env} {d : Draw} {record : EmergencyRecord} {db db' : Db}

theorem recordEmergency_recorded (hc : Coherent db) (hv : record.valid E = true) :
    ((recordEmergency record).commit db).2 = db.recorded E record := by
  rw [commit_run, recordEmergency_run hc, Db.recorded, hv, Bool.true_and]
  cases db.emergencyRecords.get? record.eventId with
  | some known => rfl
  | none =>
    rw [Option.isSome_none, if_neg Bool.false_ne_true, Option.isNone_none, if_pos rfl]
    cases db.lookup record.decision.instanceId with
    | none => rfl
    | some r =>
      dsimp only
      by_cases hg : r.2.metadata.generation = record.decision.generation
      · rw [if_neg (not_not_intro hg), if_pos hg]
      · rw [if_pos hg, if_neg hg]

variable (E d record) in
theorem importEmergency_recorded (hc : Coherent db) :
    Touches [.log] (db.recorded E record) (importEmergency E d record db).2 ∧
      ∀ k, (importEmergency E d record db).2.brief k = (db.brief k).map (closeIf (db.kills E record)) := by
  unfold Db.kills
  cases hsup : db.suppresses E record with
  | true =>
    rw [Db.suppresses, Bool.and_eq_true, Bool.and_eq_true] at hsup
    obtain ⟨⟨hv, hnew⟩, hr⟩ := hsup
    obtain ⟨r, hr, hg⟩ := (Option.any_eq_true _ _).mp hr
    have hg := of_decide_eq_true hg
    obtain ⟨db', hrun, ht, hb⟩ := importEmergency_current (d := d) hc hv (Option.isNone_iff_eq_none.mp hnew) hr hg
    rw [hrun, Db.recorded, hv, hnew, hr]
    refine ⟨?_, hb⟩
    dsimp only
    rw [Bool.true_and, if_pos rfl, if_pos hg]
    exact ht
  | false =>
    have hmap : ∀ o : Option Brief, o.map (closeIf fun b =>
        false && b.on record.decision.instanceId) = o := fun o => by cases o <;> rfl
    suffices himport : (importEmergency E d record db).2 = db.recorded E record ∧
        (db.recorded E record).operations = db.operations by
      rw [himport.1]
      exact ⟨Std.Refl.refl _, fun k => by rw [hmap, Db.brief, himport.2]; rfl⟩
    cases hv : record.valid E with
    | false =>
      obtain ⟨e, hrun⟩ := importEmergency_invalid d db hv
      rw [hrun, Db.recorded, hv]
      exact ⟨rfl, rfl⟩
    | true =>
      rw [importEmergency_valid hv, recordEmergency_run hc, Db.recorded, hv, Bool.true_and]
      rw [Db.suppresses, hv, Bool.true_and] at hsup
      cases hnew : db.emergencyRecords.get? record.eventId with
      | some known => exact ⟨rfl, rfl⟩
      | none =>
        rw [hnew, Option.isNone_none, Bool.true_and] at hsup
        rw [Option.isSome_none, if_neg Bool.false_ne_true, Option.isNone_none, if_pos rfl]
        cases hr : db.lookup record.decision.instanceId with
        | none => exact ⟨rfl, rfl⟩
        | some r =>
          rw [hr] at hsup
          have hg : ¬ r.2.metadata.generation = record.decision.generation := of_decide_eq_false hsup
          dsimp only
          rw [if_pos hg, if_neg hg]
          exact ⟨rfl, rfl⟩

theorem recorded_known (h : (db.emergencyRecords.get? record.eventId).isSome = true) :
    db.recorded E record = db ∧ db.suppresses E record = false := by
  obtain ⟨known, hk⟩ := Option.isSome_iff_exists.mp h
  rw [Db.recorded, Db.suppresses, hk]
  simp

theorem recorded_twice : (db.recorded E record).recorded E record = db.recorded E record ∧
    (db.recorded E record).suppresses E record = false := by
  by_cases h : (record.valid E && (db.emergencyRecords.get? record.eventId).isNone) = true
  · cases hr : db.lookup record.decision.instanceId with
    | none =>
      have hsame : db.recorded E record = db := by rw [Db.recorded, if_pos h, hr]
      rw [hsame, hsame, Db.suppresses, hr]
      simp
    | some r =>
      refine recorded_known ?_
      rw [Db.recorded, if_pos h, hr]
      have hput : ∀ t : Table String EmergencyRecord, (t.upsert record.eventId record).get? record.eventId =
          some record := fun t => by rw [Table.get?_upsert, if_pos rfl]
      dsimp only
      split
      · show ((db.emergencyRecords.upsert _ _).get? _).isSome = true
        rw [hput]; rfl
      · show ((db.emergencyRecords.upsert _ _).get? _).isSome = true
        rw [hput]; rfl
  · have hsame : db.recorded E record = db := by rw [Db.recorded, if_neg h]
    rw [hsame, hsame, Db.suppresses, Bool.eq_false_iff.mpr h]
    exact ⟨rfl, rfl⟩

variable (E record) in
theorem recorded_congr (h : db.Agree db' .fleet) : (db.recorded E record).Agree (db'.recorded E record) .fleet ∧
      db'.suppresses E record = db.suppresses E record := by
  obtain ⟨hi, hres, hem, hf, hq⟩ := h
  have hl : db'.lookup record.decision.instanceId = db.lookup record.decision.instanceId := by
    rw [Db.lookup, Db.lookup, Db.named, Db.named, hi]
  refine ⟨?_, by rw [Db.suppresses, Db.suppresses, hl, hem]⟩
  rw [Db.recorded, Db.recorded, hem, hl]
  split
  · split
    · exact ⟨hi, hres, hem, hf, hq⟩
    · split
      · simp [Db.Agree, Db.shedding, Db.noted, suppress, Db.put, hi, hres, hem, hf, hq]
      · simp [Db.Agree, Db.noted, hi, hres, hem, hf, hq]
  · exact ⟨hi, hres, hem, hf, hq⟩

theorem recorded_brief (k : String) : (db.recorded E record).brief k = db.brief k := by
  unfold Db.recorded
  split
  · split
    · rfl
    · split <;> rfl
  · rfl

end

/-! ## The cuts -/

def Brief.Closing (p : Brief → Bool) (b b' : Brief) : Prop :=
  b' = b ∨ p b = true ∧ b.state.isTerminal = false ∧
    (b' = { b with state := .running } ∨ b' = { b with state := .failed })

structure Partway (E : Env) (record : EmergencyRecord) (db s : Db) : Prop where
  touches : Touches [.log] (db.recorded E record) s
  briefs : ∀ k, Option.Rel (Closing (db.kills E record)) (db.brief k) (s.brief k)

section
variable {E : Env} {d : Draw} {record : EmergencyRecord} {db s s' : Db}

theorem partway_recorded : Partway E record db (db.recorded E record) := by
  refine ⟨Std.Refl.refl _, fun k => ?_⟩
  rw [recorded_brief]
  cases db.brief k with
  | none => exact .none
  | some b => exact .some (.inl rfl)

theorem transition_partway {next : OperationState} {p : OperationProgress}
    {result : Option Json} {problem : Option ProblemDocument} {a : OperationDocument}
    (hsup : db.suppresses E record = true) (hb : db.brief id = some b)
    (hon : b.on record.decision.instanceId = true) (hs : b.state.isTerminal = false)
    (hnext : next = .running ∨ next = .failed) (h : Partway E record db s)
    (hrun : Database.transition d id next p result problem s = .ok (a, s')) : Partway E record db s' := by
  rw [transition_run] at hrun
  split at hrun
  · cases hrun
  · split at hrun
    · cases hrun; exact h
    · split at hrun
      · cases hrun
        refine ⟨IsTrans.trans _ _ _ h.touches touches_log, fun k => ?_⟩
        have hk := h.briefs k
        rw [brief_advanced]
        by_cases e : k = id
        · subst e
          rw [hb] at hk ⊢
          rw [if_pos rfl]
          revert hk
          generalize s.brief k = o
          intro hk
          cases hk with
          | some hk =>
            refine .some (.inr ⟨by simp [Db.kills, hsup, hon], hs, ?_⟩)
            rcases hk with rfl | ⟨_, _, rfl | rfl⟩ <;> rcases hnext with rfl | rfl <;> simp
        · rw [if_neg e]; exact hk
      · cases hrun

theorem closeScript_partway (hsup : db.suppresses E record = true)
    (hb : db.brief id = some b) (hon : b.on record.decision.instanceId = true)
    (hs : b.state.isTerminal = false) (running failed : OperationProgress) (problem : ProblemDocument) :
    (closeScript d id running failed problem).Keeps (Partway E record db) := by
  have hfail : (commit (Database.transition d id .failed failed none (some problem))
      fun _ => done (.ok ())).Keeps (Partway E record db) :=
    fun s a s' h hrun => ⟨transition_partway hsup hb hon hs (.inr rfl) h hrun, trivial⟩
  intro s hpart
  dsimp only
  cases s.readOperation id with
  | error e => trivial
  | ok current =>
    dsimp only
    split
    · exact fun s a s' h hrun => ⟨transition_partway hsup hb hon hs (.inl rfl) h hrun, hfail⟩
    · exact hfail

theorem suppresses_of_suppressed (hc : Coherent db) (hv : record.valid E = true)
    (h : recordEmergency record db = .ok (.suppressed, s)) : db.suppresses E record = true := by
  rw [recordEmergency_run hc] at h
  split at h
  · cases h
  · rename_i hk
    split at h
    · cases h
    · rename_i r hr
      split at h
      · cases h
      · rename_i hg
        rw [Db.suppresses, hv, hr, Option.isNone_iff_eq_none.mpr (Option.not_isSome_iff_eq_none.mp hk)]
        exact decide_eq_true (not_not.mp hg)

theorem cuts_importScript (hc : Coherent db) (h : s ∈ (importScript E d record).cuts db) :
    s = db ∨ Partway E record db s := by
  unfold importScript at h
  split at h
  · exact .inl (List.mem_singleton.mp h)
  split at h
  · exact .inl (List.mem_singleton.mp h)
  rename_i hfirst hfits
  have hv : record.valid E = true := by
    simp only [Bool.not_eq_true', Bool.not_eq_false] at hfirst hfits
    rw [EmergencyRecord.valid, hfirst, hfits]
    rfl
  have hrec := recordEmergency_recorded hc hv
  rw [commit_run] at hrec
  rw [cuts] at h
  rcases List.mem_cons.mp h with rfl | h
  · exact .inl rfl
  right
  cases hout : recordEmergency record db with
  | error e => rw [hout] at h; cases h
  | ok out =>
    obtain ⟨outcome, db1⟩ := out
    rw [hout] at h hrec
    have hrec : db1 = db.recorded E record := hrec
    subst hrec
    cases outcome with
    | duplicate => exact List.mem_singleton.mp h ▸ partway_recorded
    | stale => exact List.mem_singleton.mp h ▸ partway_recorded
    | suppressed =>
      have hsup := suppresses_of_suppressed hc hv hout
      have hloop : (each (fun id => closeScript d id emergencyRunning emergencyFailed
          (emergencyProblem record id)) ((db.recorded E record).activeTargeting record.decision.instanceId)).Keeps
          (Partway E record db) := .each fun id hid => by
        obtain ⟨row, hrow, htarget, hs⟩ := mem_activeTargeting.mp hid
        refine closeScript_partway hsup (b := row.brief) ?_ (decide_eq_true htarget) hs _ _ _
        rw [← recorded_brief (E := E), Db.brief, hrow]
        rfl
      have hend : ((each (fun id => closeScript d id emergencyRunning emergencyFailed
          (emergencyProblem record id)) ((db.recorded E record).activeTargeting record.decision.instanceId)).bind
          fun _ => done (.ok true)).Keeps (Partway E record db) :=
        Keeps.bind (fun _ => by trivial) hloop
      exact hend.cuts partway_recorded s h

theorem recorded_mem_cuts (hc : Coherent db) (hsup : db.suppresses E record = true) :
    db.recorded E record ∈ (importScript E d record).cuts db := by
  have hv : record.valid E = true := by
    rw [Db.suppresses, Bool.and_eq_true, Bool.and_eq_true] at hsup
    exact hsup.1.1
  have hrec := recordEmergency_recorded hc hv
  have hv' := hv
  rw [EmergencyRecord.valid, Bool.and_eq_true] at hv'
  unfold importScript
  rw [hv'.1, hv'.2, if_neg (by decide), if_neg (by decide), cuts]
  rw [commit_run] at hrec
  cases hout : recordEmergency record db with
  | error e =>
    rw [hout] at hrec
    exact hrec ▸ List.mem_cons_self
  | ok out =>
    rw [hout] at hrec
    exact List.mem_cons_of_mem _ (hrec ▸ mem_cuts _ _)

theorem recorded_coherent (hc : Coherent db) : Coherent (db.recorded E record) := by
  cases hv : record.valid E with
  | false => rw [Db.recorded, hv]; exact hc
  | true =>
    rw [← recordEmergency_recorded hc hv]
    exact (commit_step (recordEmergency_step record) db hc).1

theorem Partway.coherent (hc : Coherent db) (h : Partway E record db s) : Coherent s :=
  (recorded_coherent hc).congr (h.touches .fleet (by simp)).1

end

/-! ## Crash and restart -/

def reimported (E : Env) (d₁ d₂ : Draw) (record : EmergencyRecord) (s : Db) : Db :=
  actorLoop E s [(d₁, .restart), (d₂, .importEmergency record)]

def uninterrupted (E : Env) (d₁ d₂ : Draw) (record : EmergencyRecord) (db : Db) : Db :=
  actorLoop E db [(d₁, .importEmergency record), (d₂, .restart)]

/-- The same instances, suppression flags and operations. -/
structure SameOutcome (db db' : Db) : Prop where
  instances : db'.instances = db.instances
  suppression : ∀ id, (db'.instanceResources.get? id).map ResourceRow.restartSuppressed =
    (db.instanceResources.get? id).map ResourceRow.restartSuppressed
  operations : ∀ k, db'.brief k = db.brief k

def CrashEquivalent (E : Env) (d : Draw) (record : EmergencyRecord) (db : Db) : Prop :=
  ∀ s ∈ (importScript E d record).cuts db, ∀ d₁ d₂ d₃,
    SameOutcome (uninterrupted E d d₃ record db) (reimported E d₁ d₂ record s)

section
variable {E : Env} {d d₁ d₂ d₃ : Draw} {record : EmergencyRecord} {db s : Db}

theorem agree_fleet_trans {a b c : Db} (h : a.Agree b .fleet) (g : b.Agree c .fleet) : a.Agree c .fleet :=
  ⟨g.1.trans h.1, g.2.1.trans h.2.1, g.2.2.1.trans h.2.2.1, g.2.2.2.1.trans h.2.2.2.1, g.2.2.2.2.trans h.2.2.2.2⟩

variable (E d₁ d₂ record) in
theorem uninterrupted_spec (hc : Coherent db) : (db.recorded E record).Agree (uninterrupted E d₁ d₂ record db) .fleet ∧
      ∀ k, (uninterrupted E d₁ d₂ record db).brief k =
        (db.brief k).map fun b => (b.closeIf (db.kills E record)).closeIf recovers := by
  obtain ⟨ht, hb⟩ := importEmergency_recorded E d₁ record hc
  obtain ⟨ht', hb'⟩ := restart_brief E d₂ (importEmergency E d₁ record db).2
  refine ⟨IsTrans.trans (r := Touches [.log]) _ _ _ ht ht' .fleet (by simp), fun k => ?_⟩
  show (Command.run E d₂ (importEmergency E d₁ record db).2 .restart).brief k = _
  rw [hb', hb, Option.map_map]
  rfl

variable (E d₁ d₂ record) in
theorem reimported_spec (hc : Coherent s) : (s.recorded E record).Agree (reimported E d₁ d₂ record s) .fleet ∧
      ∀ k, (reimported E d₁ d₂ record s).brief k =
        (s.brief k).map fun b => (b.closeIf recovers).closeIf (s.kills E record) := by
  obtain ⟨ht, hb⟩ := restart_brief E d₁ s
  have hagree := ht .fleet (by simp)
  obtain ⟨hrec, hsup⟩ := recorded_congr E record hagree
  obtain ⟨ht', hb'⟩ := importEmergency_recorded E d₂ record (Command.run_coherent E d₁ .restart hc)
  have hfleet := ht' .fleet (by simp)
  refine ⟨?_, fun k => ?_⟩
  · exact agree_fleet_trans hrec hfleet
  · have hkills : (Command.run E d₁ s .restart).kills E record = s.kills E record := by
      funext b
      rw [Db.kills, Db.kills, hsup]
    show (importEmergency E d₂ record (Command.run E d₁ s .restart)).2.brief k = _
    rw [hb', hb, Option.map_map, hkills]
    rfl

theorem close_eq (h : b.state.isTerminal = false) : b.close = { b with state := .failed } :=
  if_neg (by rw [h]; nofun)

theorem recovers_close (b : Brief) : b.close.recovers = b.recovers := by
  unfold close
  split <;> rfl

theorem kills_close (b : Brief) : db.kills E record b.close = db.kills E record b := by
  unfold close
  split <;> rfl

theorem closeIf_comm {q : Brief → Bool} (hp : p b.close = p b) (hq : q b.close = q b) :
    (b.closeIf p).closeIf q = (b.closeIf q).closeIf p := by
  cases hpb : p b <;> cases hqb : q b <;> simp [closeIf, hpb, hqb, hp, hq]

theorem closing_settles {b' : Brief}
    (hrec : p b = true → b.state.isTerminal = false → b.recovers = true) (h : b.Closing p b') :
    b'.closeIf recovers = (b.closeIf p).closeIf recovers := by
  have hright : p b = true → b.state.isTerminal = false →
      (b.closeIf p).closeIf recovers = { b with state := .failed } := fun hp hs => by
    rw [closeIf.eq_def p, if_pos hp, closeIf_close, close_eq hs]
  rcases h with rfl | ⟨hp, hs, rfl | rfl⟩
  · cases hp : p b' with
    | false => rw [closeIf.eq_def p, if_neg (by rw [hp]; nofun)]
    | true =>
      cases hs : b'.state.isTerminal with
      | true => rw [closeIf_of_terminal (p := p) fun _ => hs]
      | false => rw [hright hp hs, closeIf, if_pos (hrec hp hs), close_eq hs]
  · have hrunning : ({ b with state := .running } : Brief).recovers = true := hrec hp hs
    rw [hright hp hs, closeIf, if_pos hrunning]
    rfl
  · rw [hright hp hs]
    exact closeIf_of_terminal fun _ => rfl

theorem sameOutcome_of {db0 u v : Db} (hu : db0.Agree u .fleet) (hv : db0.Agree v .fleet)
    (hb : ∀ k, v.brief k = u.brief k) : SameOutcome u v :=
  ⟨hv.1.trans hu.1.symm, fun id => by rw [hv.2.1, hu.2.1], hb⟩

theorem crashEquivalent_iff (hc : Coherent db) : CrashEquivalent E d record db ↔
    ∀ k b, db.brief k = some b → db.kills E record b = true → b.state.isTerminal = false → b.recovers = true := by
  constructor
  · intro h k b hb hkill hs
    have hsup : db.suppresses E record = true := (Bool.and_eq_true _ _ ▸ hkill).1
    have hsame := (h _ (recorded_mem_cuts hc hsup) {} {} {}).operations k
    rw [(reimported_spec _ _ _ _ (recorded_coherent hc)).2, (uninterrupted_spec _ _ _ _ hc).2, recorded_brief, hb,
      Option.map_some, Option.map_some] at hsame
    have hsame := Option.some.inj hsame
    -- the second import is no help, so only the restart pass can have closed it
    have hidle : ∀ b : Brief, b.closeIf ((db.recorded E record).kills E record) = b := fun b =>
      closeIf_of_terminal fun hk => by
        rw [Db.kills, recorded_twice.2] at hk
        cases hk
    rw [hidle, closeIf.eq_def (db.kills E record), if_pos hkill, closeIf_close, close_eq hs] at hsame
    by_contra hrec
    rw [closeIf, if_neg hrec] at hsame
    rw [hsame] at hs
    cases hs
  · intro h s hs d₁ d₂ d₃
    obtain ⟨hu, hbu⟩ := uninterrupted_spec E d d₃ record hc
    rcases cuts_importScript hc hs with rfl | hpart
    · obtain ⟨hr, hbr⟩ := reimported_spec E d₁ d₂ record hc
      refine sameOutcome_of hu hr fun k => ?_
      rw [hbu, hbr]
      congr 1
      funext b
      exact closeIf_comm (recovers_close b) (kills_close b)
    · obtain ⟨hr, hbr⟩ := reimported_spec E d₁ d₂ record (hpart.coherent hc)
      obtain ⟨hcongr, hsup⟩ := recorded_congr E record (hpart.touches .fleet (by simp))
      rw [recorded_twice.2] at hsup
      rw [recorded_twice.1] at hcongr
      refine sameOutcome_of hu ?_ fun k => ?_
      · exact agree_fleet_trans hcongr hr
      · rw [hbu, hbr]
        have hidle : ∀ b : Brief, b.closeIf (s.kills E record) = b := fun b =>
          closeIf_of_terminal fun hk => by
            rw [Db.kills, hsup] at hk
            cases hk
        have hk := hpart.briefs k
        cases hb : db.brief k with
        | none =>
          rw [hb] at hk
          cases hs : s.brief k with
          | none => rfl
          | some b' => rw [hs] at hk; cases hk
        | some b =>
          rw [hb] at hk
          cases hs : s.brief k with
          | none => rw [hs] at hk; cases hk
          | some b' =>
            rw [hs] at hk
            cases hk with
            | some hk =>
              rw [Option.map_some, Option.map_some, hidle, closing_settles (h k b hb) hk]

theorem importEmergency_replayed (hc : Coherent db) {b : Bool}
    (hok : (importEmergency E d record db).1 = .ok b) (d' : Draw) :
    importEmergency E d' record (importEmergency E d record db).2 = (.ok false, (importEmergency E d record db).2) := by
  have hv : record.valid E = true := by
    cases hv : record.valid E with
    | true => rfl
    | false =>
      obtain ⟨e, hrun⟩ := importEmergency_invalid d db hv
      rw [hrun] at hok
      cases hok
  have hnote : ∀ t : Table String EmergencyRecord,
      ((t.upsert record.eventId record).get? record.eventId).isSome = true := fun t => by
    rw [Table.get?_upsert, if_pos rfl]
    rfl
  have hknown : ((importEmergency E d record db).2.emergencyRecords.get? record.eventId).isSome = true := by
    rcases importEmergency_cases E d hc record with ⟨e, hrun⟩ | ⟨hrun, hk⟩ | ⟨r, _, _, hrun⟩ | ⟨_, hnew, r, hr, hg⟩
    · rw [hrun] at hok; cases hok
    · rw [hrun]; exact hk
    · rw [hrun]; exact hnote _
    · obtain ⟨db', hrun, ht, _⟩ := importEmergency_current (d := d) hc hv hnew hr hg
      rw [hrun, (ht .fleet (by simp)).2.2.1]
      exact hnote _
  have hc' : Coherent (importEmergency E d record db).2 := Command.run_coherent E d (.importEmergency record) hc
  rw [importEmergency_valid hv, recordEmergency_run hc', if_pos hknown]

end

theorem emergency_crash_equivalent (E : Env) (cmds : List (Draw × Command)) (d : Draw) (record : EmergencyRecord) :
    (CrashEquivalent E d record (actorLoop E {} cmds) ↔
      ∀ k b, (actorLoop E {} cmds).brief k = some b → (actorLoop E {} cmds).kills E record b = true →
        b.state.isTerminal = false → b.recovers = true) ∧
    ∀ b, (importEmergency E d record (actorLoop E {} cmds)).1 = .ok b → ∀ d',
      importEmergency E d' record (importEmergency E d record (actorLoop E {} cmds)).2 =
        (.ok false, (importEmergency E d record (actorLoop E {} cmds)).2) :=
  ⟨crashEquivalent_iff (coherent_actorLoop E cmds), fun _ hok =>
    importEmergency_replayed (coherent_actorLoop E cmds) hok⟩

/-- A crash after the first transaction: the stop operation is never closed. -/
theorem crash_loses_closing :
    (((importScript exampleEnv {} exampleEmergency).cuts (actorLoop exampleEnv {} stopAccepted))[1]?).any
      (fun s => (reimported exampleEnv {} {} exampleEmergency s).brief "op1" =
        some ⟨"instance.stop", some exampleInstance.id, .accepted⟩) = true ∧
    (uninterrupted exampleEnv {} {} exampleEmergency (actorLoop exampleEnv {} stopAccepted)).brief "op1" =
      some ⟨"instance.stop", some exampleInstance.id, .failed⟩ := by
  decide +kernel

end Sparkplane

import Sparkplane.Ending
import Sparkplane.ReplaySound

/-!
# Accepted serves end

An accepted `instance.serve` operation is left open by `serve_instance` when `begin_serve` fails,
and by `run_serve` when the start slots are closed (`Accepted` to `Failed` is not legal) and when
the instance is stopped while its engine becomes ready. `accepted_serve_ends`: with these cases
aside, the operation has ended once the handler and its task have returned.
-/

namespace Sparkplane

open Machine

variable {l : Job} {detail : String} {α : Type} {observed : ObservedEngine} {c₀ c : Pool}
variable {x : Step World Eff Oracle} {w' : World}

/-- `begin_serve` succeeds, the start slots are open, and `run_serve` does not find its instance
stopped while the operation is open. -/
def servingRules (S : Site) : Rules World Job Eff Oracle where
  allow l e t w := match l, e with
    | .serveInstance .., .beginServe _ inst => ((Command.beginServe inst).exec S.env t.draw w.db).1.isOk
    | .runServe .., .outside (.acquireOwned slot) => t.reply (.acquireOwned slot)
    | .runServe o _, .query (.inst id) =>
      match w.db.readInstance id with
      | .ok inst => inst.desired ≠ .stopped || (w.operation o).any OperationState.isTerminal
      | .error _ => true
    | _, _ => true
  apart _ _ _ _ := true

def servingContract (S : Site) (o : String) : Contract (agent S) where
  rules := servingRules S
  inv w := (w.db.operations.get? o).isSome = true
  rely _ _ _ w w' := OpStep w.db w'.db
  guar _ _ _ w w' := OpStep w.db w'.db
  born _ _ _ := True

section
variable {S : Site} {o : String} {inst : InstanceDocument} {i : Nat} {w : World}

theorem servingContract_advances : Advances (servingContract S o) o where
  known h := h
  rely h := h
  stands _ _ _ _ := trivial
  pays _ i n e w t hi :=
    have hstep : OpStep w.db ((agent S).exec ⟨i, n, t⟩ e w).2.db := Eff.opStep S _ e w
    ⟨known_log hstep hi, hstep, fun _ _ => trivial⟩

def Onward {α : Type} (o : String) : Option α → World → Prop
  | none => Ended o
  | some _ => Started o

theorem failServe_ends (hw : Started o w) :
    wp (servingContract S o) l i (fun _ => Ended o) (failServe o inst detail) w := by
  refine servingContract_advances.through hw fun _ _ hw => ?_
  refine servingContract_advances.through hw fun logs _ hw => ?_
  refine servingContract_advances.through hw fun _ _ hw => ?_
  refine servingContract_advances.through hw fun _ _ hw => ?_
  refine servingContract_advances.through hw fun _ _ hw => ?_
  exact servingContract_advances.transition_ends (.inr rfl) hw

theorem failed_onward (hw : Started o w) :
    wp (servingContract S o) l i (Onward (α := α) o) ((failServe o inst detail).bind fun _ => .ret none) w :=
  (failServe_ends hw).bind fun _ _ h => h

theorem cancelled_onward (hw : Ended o w) :
    wp (servingContract S o) l i (Onward (α := α) o) ((cancelPrehealthServe inst).bind fun _ => .ret none) w :=
  (servingContract_advances.ended hw).bind fun _ _ h => h

theorem createEngine_onward (hw : Started o w) : wp (servingContract S o) l i (Onward o) (createEngine S o inst) w := by
  refine servingContract_advances.unlessCancelled hw (fun w hw => ?_) fun _ => cancelled_onward
  refine servingContract_advances.through hw fun prepared w hw => ?_
  cases prepared with
  | error e => exact failed_onward hw
  | ok prepared =>
    refine servingContract_advances.unlessCancelled hw (fun w hw => ?_) fun _ => cancelled_onward
    refine servingContract_advances.running (fun _ w hw => ?_) fun _ _ h => h
    refine servingContract_advances.through hw fun observed w hw => ?_
    cases observed with
    | error e => exact failed_onward hw
    | ok observed =>
      refine servingContract_advances.unlessCancelled hw (fun w hw => ?_) fun _ => cancelled_onward
      show wp _ l i (Onward o) (if (!S.parseAddress observed.address) = true then _ else _) w
      split
      · exact failed_onward hw
      · exact hw

theorem startEngine_onward : wp (servingContract S o) (.runServe o inst) i (Onward o) (startEngine S o inst) w := by
  refine servingContract_advances.op fun w1 n t _ _ hopen => ?_
  rw [show (Eff.outside (.acquireOwned .start)).answer S ⟨i, n, t⟩ w1 = true from hopen]
  exact servingContract_advances.running (fun _ _ => createEngine_onward) fun _ _ h => h

theorem instanceStopped_onward {f : Bool → Act α} {Q : α → World → Prop} (hw : Started o w)
    (hgo : ∀ w1, Started o w1 → wp (servingContract S o) (.runServe o inst) i Q (f false) w1)
    (hstop : ∀ w1, Ended o w1 → wp (servingContract S o) (.runServe o inst) i Q (f true) w1) :
    wp (servingContract S o) (.runServe o inst) i Q ((instanceStopped inst.id).bind f) w := by
  refine servingContract_advances.op fun w1 n t hr _ hallow => ?_
  have hallow : (match w1.db.readInstance inst.id with
      | .ok inst => inst.desired ≠ .stopped || (w1.operation o).any OperationState.isTerminal
      | .error _ => true) = true := hallow
  rw [Eff.after_reads rfl, show (Eff.query (.inst inst.id)).answer S ⟨i, n, t⟩ w1 = w1.db.readInstance inst.id from rfl]
  cases hread : w1.db.readInstance inst.id with
  | error e => exact hgo _ (hw.log hr)
  | ok current =>
    rw [hread] at hallow
    by_cases hs : current.desired = .stopped
    · have hended : Ended o w1 := by
        simp only [hs, ne_eq, not_true_eq_false, decide_false, Bool.false_or] at hallow
        obtain ⟨s, hs, ht⟩ := (Option.any_eq_true _ _).mp hallow
        obtain ⟨op, hop, rfl⟩ := Option.map_eq_some_iff.mp hs
        exact ⟨op, hop, ht⟩
      simp only [hs, decide_true, Prog.ret_bind, Prog.pure_def]
      exact hstop _ hended
    · simp only [hs, decide_false, Prog.ret_bind, Prog.pure_def]
      exact hgo _ (hw.log hr)

theorem awaitReady_onward (hw : Started o w) :
    wp (servingContract S o) (.runServe o inst) i (Onward o) (awaitReady S o inst observed) w := by
  refine servingContract_advances.through hw fun ready w hw => ?_
  refine instanceStopped_onward hw (fun w hw => ?_) fun _ h => h
  refine servingContract_advances.unlessCancelled hw (fun w hw => ?_) fun _ => cancelled_onward
  refine servingContract_advances.through hw fun failure w hw => ?_
  have hfail : ∀ failure : Option String, wp (servingContract S o) (.runServe o inst) i (Onward o)
      (do
        perform (.drain inst.name inst.generation)
        failServe o inst ((failure.map semanticFailureDetail).getD "engine health check failed")
        return (none : Option ObservedRoute)) w := fun failure =>
    servingContract_advances.through hw fun _ _ hw => failed_onward hw
  cases ready with
  | none => exact hfail failure
  | some route =>
    cases failure with
    | some reason => exact hfail (some reason)
    | none => exact servingContract_advances.unlessCancelled hw (fun _ h => h) fun _ => cancelled_onward

theorem finishServe_ends {route : ObservedRoute} (hw : Started o w) :
    wp (servingContract S o) l i (fun _ => Ended o) (finishServe S o inst observed route) w := by
  refine servingContract_advances.through hw fun promoted w hw => ?_
  cases promoted with
  | error e => exact failServe_ends hw
  | ok _ =>
    refine servingContract_advances.through hw fun startup w hw => ?_
    refine servingContract_advances.through hw fun healthy w hw => ?_
    cases healthy with
    | error e => exact failServe_ends hw
    | ok healthy =>
      refine servingContract_advances.through hw fun _ w hw => ?_
      refine servingContract_advances.through hw fun healthy w hw => ?_
      exact (servingContract_advances.transition_ends (.inl rfl) hw).bind fun _ _ h => servingContract_advances.ended h

theorem runServe_ends : wp (servingContract S o) (.runServe o inst) i (fun _ => Ended o) (runServe S o inst) w := by
  have hengine : wp (servingContract S o) (.runServe o inst) i (fun _ => Ended o) (serveEngine S o inst) w := by
    refine startEngine_onward.bind fun observed w h => ?_
    cases observed with
    | none => exact h
    | some observed =>
      refine (awaitReady_onward h).bind fun route w h => ?_
      cases route with
      | none => exact h
      | some route => exact finishServe_ends h
  exact hengine.bind fun _ _ h => servingContract_advances.ended h

theorem runServe_ended {j : Nat} (hrun : (agent S).Runs (servingRules S) c₀ c)
    (hj : c₀.tasks[j]? = some (.runServe o inst, program S (.runServe o inst)))
    (hknown : (c₀.world.db.operations.get? o).isSome = true) (hret : (c.returned j).isSome = true) :
    Ended o c.world := by
  obtain ⟨_, q, hq, hwp⟩ := Runs.single (C := servingContract S o) (Q := fun _ => Ended o)
    (fun _ w => (Std.Refl.refl w.db : OpStep w.db w.db)) (fun _ _ _ _ h1 h2 => (IsTrans.trans _ _ _ h1 h2 : OpStep _ _))
    (fun _ t e w => Eff.opStep S t e w) (fun t e w => known_log (Eff.opStep S t e w)) (fun _ _ => trivial)
    (fun _ t e w => Ended.log (Eff.opStep S t e w)) hrun hj hknown runServe_ends
  cases q with
  | ret a => exact hwp
  | op e k =>
    unfold Config.returned at hret
    rw [hq] at hret
    cases hret

end

/-! ## The handler -/

def Accepts (x : Step World Eff Oracle) (o : String) : Prop :=
  ∃ tokenId key hash target accepted db, x.eff = .command (.accept tokenId "instance.serve" key hash target) ∧
    Database.acceptOperation x.turn.oracle.draw tokenId "instance.serve" key hash target x.world.db =
      .ok (accepted, db) ∧ accepted.reused = false ∧ accepted.operation.id = o

def RequestsValid (S : Site) (body : ServeRequest) (es : List (Step World Eff Oracle)) : Prop :=
  ∀ requested pre rest, es = pre ++ rest → (agent S).Follows (serveGate S body) pre (.ret (.ok requested)) →
    validateInstance S.env requested = .ok ()

section
variable {S : Site} {caller : Caller} {body : ServeRequest} {requested : InstanceDocument} {a : Response}
  {es : List (Step World Eff Oracle)}

theorem Accepts.submits {o : String} (h : Accepts x o) : x.eff.submits = true := by
  obtain ⟨_, _, _, _, _, _, he, _⟩ := h
  rw [he]
  rfl

theorem releasing_uses {leaseId : String} {response : Response} :
    (releasing leaseId response).Uses (·.submits = false) := ⟨rfl, fun _ => trivial⟩

theorem afterAccept_uses (accepted : Database.AcceptedOperation) :
    (afterAccept S requested accepted).Uses (·.submits = false) := by
  unfold afterAccept beginServe
  cases validateInstance S.env requested with
  | error e => exact releasing_uses
  | ok _ =>
    refine ⟨rfl, fun begun => ?_⟩
    cases begun with
    | error e => exact releasing_uses
    | ok begun =>
      dsimp only [Prog.ret_bind]
      split
      · exact ⟨rfl, fun _ => ⟨rfl, fun _ => releasing_uses⟩⟩
      · exact ⟨rfl, fun _ => ⟨rfl, fun _ => trivial⟩⟩

theorem serveInstance_accepts (hdry : body.dryRun = false)
    (h : (agent S).Follows (program S (.serveInstance caller body)) es (.ret a))
    (hx : x ∈ es) {o : String} (ho : Accepts x o) :
    ∃ pre rest requested accepted, es = pre ++ x :: rest ∧
      (agent S).Follows (serveGate S body) pre (.ret (.ok requested)) ∧ accepted.operation.id = o ∧
      ((x.after (agent S)).db.operations.get? o).isSome = true ∧
      (agent S).Follows (afterAccept S requested accepted) rest (.ret a) := by
  obtain ⟨gate, pre, rest, rfl, hgate, hrest⟩ := serveInstance_follows hdry h
  have hpre : x ∉ pre := by
    intro hx
    have hw := hgate.uses serveGate_gates.uses x hx
    obtain ⟨_, _, _, _, _, _, he, _⟩ := ho
    rw [he] at hw
    cases hw
  have hx : x ∈ rest := (List.mem_append.mp hx).resolve_left hpre
  cases gate with
  | error response =>
    obtain ⟨_, rfl⟩ := hrest.of_ret
    cases hx
  | ok requested =>
    have hsubmits := ho.submits
    rcases serveUnderLease_follows hrest with ⟨response, _, _, h⟩ | ⟨y, rest, key, hash, rfl, hlook⟩
    · rw [h.uses releasing_uses x hx] at hsubmits
      cases hsubmits
    · have hanswer := hlook.answer
      rcases List.mem_cons.mp hx with rfl | hx
      · obtain ⟨tokenId, key', hash', target, accepted, db, he, hrun, hnew, rfl⟩ := ho
        cases hlook.eff.symm.trans he
        rw [hrun] at hanswer
        obtain ⟨hdb, hrest⟩ := hanswer
        rw [hnew] at hrest
        obtain ⟨_, row, hrow⟩ := acceptOperation_row hrun
        exact ⟨pre, rest, requested, accepted, rfl, hgate, rfl, by rw [hdb, hrow]; rfl, hrest⟩
      · -- nothing after the first step takes an operation
        exfalso
        split at hanswer
        · rw [hanswer.uses releasing_uses x hx] at hsubmits
          cases hsubmits
        · have hquiet := hanswer.2
          split at hquiet
          · rw [hquiet.uses releasing_uses x hx] at hsubmits
            cases hsubmits
          · rw [hquiet.uses (afterAccept_uses _) x hx] at hsubmits
            cases hsubmits

theorem completeReusedServe_ends {o : String} {inst : InstanceDocument} {w : World}
    {f : Unit → Act Response} (h : (agent S).Follows ((completeReusedServe S o inst).bind f) es (.ret a))
    (hlinked : (agent S).Linked KeptIn w es w') (hknown : (w.db.operations.get? o).isSome = true) :
    ∃ x ∈ es, Ended o (x.after (agent S)) := by
  obtain ⟨t1, w1, rest, rfl, hsucceed⟩ := Follows.of_op h
  obtain ⟨t2, w2, rest, rfl, _⟩ := Follows.of_op hsucceed
  obtain ⟨h1, h2, _⟩ := hlinked
  have hstarted : Started o ((Eff.command (.transition o .running
      (lifecycleProgress "existing" "matching instance already exists") none none)).after S t1 w1) := by
    cases hans : (Eff.command (.transition o .running
        (lifecycleProgress "existing" "matching instance already exists") none none)).answer S t1 w1 with
    | ok op => exact started_transition hans
    | error e => exact (running_ended (known_log h1.log hknown) hans).started
  refine ⟨_, List.mem_cons_of_mem _ List.mem_cons_self, ?_⟩
  exact ended_transition (.inl rfl) (hstarted.log h2.log) t2

theorem afterAccept_follows {accepted : Database.AcceptedOperation} {w : World}
    (hvalid : validateInstance S.env requested = .ok ())
    (hbegin : ∀ x ∈ es, x.eff = .beginServe accepted.operation.id requested →
      ((Command.beginServe requested).exec S.env x.turn.oracle.draw x.world.db).1.isOk = true)
    (hlinked : (agent S).Linked KeptIn w es w')
    (hknown : (w.db.operations.get? accepted.operation.id).isSome = true)
    (h : (agent S).Follows (afterAccept S requested accepted) es (.ret a)) :
    (∃ x ∈ es, Ended accepted.operation.id (x.after (agent S))) ∨
      ∃ x ∈ es, ∃ inst, x.eff = .spawn (.runServe accepted.operation.id inst) := by
  unfold afterAccept beginServe at h
  rw [hvalid] at h
  obtain ⟨t, w1, rest, rfl, hrest⟩ := Follows.of_op h
  obtain ⟨hbefore, hlinked⟩ := hlinked
  have hok := hbegin _ List.mem_cons_self rfl
  cases hans : ((Command.beginServe requested).exec S.env t.oracle.draw w1.db).1 with
  | error e =>
    rw [hans] at hok
    cases hok
  | ok begun =>
    rw [show ((agent S).exec t (.beginServe accepted.operation.id requested) w1).1 = .ok begun from hans] at hrest
    dsimp only [Prog.ret_bind] at hrest
    split at hrest
    · refine .inl ?_
      have hknown := known_log (Eff.opStep S t (.beginServe accepted.operation.id requested) w1)
        (known_log hbefore.log hknown)
      obtain ⟨x, hx, hended⟩ := completeReusedServe_ends hrest hlinked hknown
      exact ⟨x, List.mem_cons_of_mem _ hx, hended⟩
    · obtain ⟨t1, w2, rest, rfl, hspawn⟩ := Follows.of_op hrest
      obtain ⟨t2, w3, rest, rfl, _⟩ := Follows.of_op hspawn
      exact .inr ⟨⟨.spawn (.runServe accepted.operation.id begun.inst), t2, w3⟩, by simp, begun.inst, rfl⟩

end

theorem accepted_serve_ends (S : Site) {caller : Caller} {body : ServeRequest} (hdry : body.dryRun = false)
    {c₀ c : Pool} {i : Nat} {es : List (Step World Eff Oracle)} {a : Response}
    (h : (agent S).Path (servingRules S) i c₀ c es)
    (hi : c₀.tasks[i]? = some (.serveInstance caller body, program S (.serveInstance caller body)))
    (ha : c.returned i = some a) (hvalid : RequestsValid S body es) {x : Step World Eff Oracle} (hx : x ∈ es)
    {o : String} (ho : Accepts x o)
    (hdone : ∀ y ∈ es, ∀ inst, y.eff = .spawn (.runServe o inst) → (c.returned y.turn.fresh).isSome = true) :
    Ended o c.world := by
  obtain ⟨pre, rest, requested, accepted, rfl, hgate, rfl, hknown, hrest⟩ :=
    serveInstance_accepts hdry (h.returns hi ha) hx ho
  obtain ⟨w₀, _, _, hlinked⟩ := (h.linked (P := KeptIn) exec_kept).append exec_kept
  have hmem : ∀ y ∈ rest, y ∈ pre ++ x :: rest := fun y hy =>
    List.mem_append_right pre (List.mem_cons_of_mem _ hy)
  have hbegin : ∀ y ∈ rest, y.eff = .beginServe accepted.operation.id requested →
      ((Command.beginServe requested).exec S.env y.turn.oracle.draw y.world.db).1.isOk = true := by
    intro y hy he
    have hallow := h.allowed hi (hmem y hy)
    rw [he] at hallow
    exact hallow
  rcases afterAccept_follows (hvalid requested pre _ rfl hgate) hbegin hlinked hknown hrest with
    ⟨y, hy, hended⟩ | ⟨y, hy, inst, he⟩
  · exact hended.log (h.between (P := KeptIn) exec_kept y (hmem y hy)).2.log
  · obtain ⟨c₁, hborn, hworld, hrun⟩ := h.born (hmem y hy) (l := .runServe accepted.operation.id inst) (by rw [he]; rfl)
    refine runServe_ended hrun hborn ?_ (hdone y (hmem y hy) inst he)
    rw [hworld]
    exact known_log (Eff.opStep S y.turn y.eff y.world) (known_log (hlinked.reaches exec_kept y hy).log hknown)

/-! ## Two requests -/

theorem requestsValid_of_answer {S : Site} {caller : Caller} {body : ServeRequest} {op : OperationDocument}
    {es : List (Step World Eff Oracle)} (hdry : body.dryRun = false)
    (h : (agent S).Follows (program S (.serveInstance caller body)) es (.ret (.accepted op)))
    (hx : x ∈ es) {o : String} (ho : Accepts x o) : RequestsValid S body es := by
  obtain ⟨pre, rest, requested, accepted, rfl, hgate, _, _, hrest⟩ := serveInstance_accepts hdry h hx ho
  intro requested' pre' rest' he hgate'
  obtain ⟨hsame, _⟩ := hgate.ret_unique hgate' he
  cases hsame
  unfold afterAccept beginServe at hrest
  cases hvalid : validateInstance S.env requested with
  | ok _ => rfl
  | error e =>
    rw [hvalid] at hrest
    exact absurd hrest (releasing_unaccepted (stateProblem_unaccepted e))

def makes (o : String) (x : Step World Eff Oracle) : Bool :=
  match x.eff with
  | .command (.accept tokenId kind key hash target) =>
    kind = "instance.serve" && match Database.acceptOperation x.turn.oracle.draw tokenId kind key hash target x.world.db with
      | .ok (accepted, _) => !accepted.reused && accepted.operation.id = o
      | .error _ => false
  | _ => false

theorem accepts_of_makes {o : String} (h : makes o x = true) : Accepts x o := by
  unfold makes at h
  split at h
  · rename_i tokenId kind key hash target he
    obtain ⟨hkind, h⟩ := Bool.and_eq_true _ _ ▸ h
    cases of_decide_eq_true hkind
    split at h
    · rename_i accepted db hrun
      obtain ⟨hnew, hid⟩ := Bool.and_eq_true _ _ ▸ h
      exact ⟨tokenId, key, hash, target, accepted, db, he, hrun, (Bool.not_eq_true' _).mp hnew, of_decide_eq_true hid⟩
    · cases h
  · cases h

def serveOnce (db : Db) : Pool := starting exampleSite { db } [.serveInstance keyedCaller (exampleServe "m")]

def startedReturned (c : Pool) (x : Step World Eff Oracle) : Bool :=
  match x.eff with
  | .spawn _ => (c.returned x.turn.fresh).isSome
  | _ => true

theorem ready_serve_ends : ∃ c es x a, (agent exampleSite).Path (servingRules exampleSite) 0
      (serveOnce (actorLoop exampleEnv {} modelExists)) c es ∧
    c.returned 0 = some a ∧ x ∈ es ∧ Accepts x "op1" ∧ (c.returned 1).isSome = true ∧ Ended "op1" c.world := by
  have h : (((agent exampleSite).trace (servingRules exampleSite) 0 (serveOnce (actorLoop exampleEnv {} modelExists))
      (List.replicate 11 (serveTurn 0 "op1") ++ List.replicate 29 (serveTurn 1 ""))).any fun out =>
        (out.1.returned 0).any (·.acceptedId.isSome) && out.2.any (makes "op1") &&
        out.2.all (startedReturned out.1) && (out.1.returned 1).isSome) = true := by
    decide +kernel
  obtain ⟨⟨c, es⟩, htrace, h⟩ := (Option.any_eq_true _ _).mp h
  simp only [Bool.and_eq_true] at h
  obtain ⟨⟨⟨ha, hmakes⟩, hreturned⟩, hdone⟩ := h
  have hpath := path_of_trace .start htrace
  obtain ⟨x, hx, hmakes⟩ := List.any_eq_true.mp hmakes
  have hx : x ∈ [] ++ es := hx
  obtain ⟨a, ha, hop⟩ := (Option.any_eq_true _ _).mp ha
  cases a with
  | accepted op =>
    refine ⟨c, _, x, _, hpath, ha, hx, accepts_of_makes hmakes, hdone, ?_⟩
    have hvalid := requestsValid_of_answer rfl (hpath.returns rfl ha) hx (accepts_of_makes hmakes)
    refine accepted_serve_ends exampleSite rfl hpath rfl ha hvalid hx (accepts_of_makes hmakes) fun y hy inst he => ?_
    have := List.all_eq_true.mp hreturned y hy
    unfold startedReturned at this
    rw [he] at this
    exact this
  | _ => cases hop

def olderEngine : List (Draw × Command) :=
  modelExists ++ [(({} : Draw), .beginServe { exampleInstance with engineId := "older" })]

/-- The name has a running instance of another engine: the request is answered with the conflict,
nothing is started, and its operation stays accepted. -/
theorem conflicting_serve_stays_accepted : ∃ db c, (agent exampleSite).Runs .free (serveOnce db) c ∧
    (∃ detail, c.returned 0 = some (.problem 409 "spark.idempotency.conflict" detail)) ∧ c.tasks.length = 1 ∧
    db.operations.get? "op1" = none ∧ c.world.operation "op1" = some .accepted := by
  have h : ((agent exampleSite).run .free (serveOnce (actorLoop exampleEnv {} olderEngine))
      (List.replicate 10 (serveTurn 0 "op1"))).any (fun c =>
        (c.returned 0).any (·.reports 409 "spark.idempotency.conflict") && c.tasks.length = 1 &&
        c.world.operation "op1" = some .accepted) = true := by
    decide +kernel
  obtain ⟨c, hrun, h⟩ := reaches_of_run h
  simp only [Bool.and_eq_true, decide_eq_true_eq] at h
  obtain ⟨⟨hret, hlength⟩, hstate⟩ := h
  refine ⟨_, c, hrun, ?_, hlength, by decide +kernel, hstate⟩
  obtain ⟨a, ha, hcode⟩ := (Option.any_eq_true _ _).mp hret
  obtain ⟨detail, rfl⟩ := Response.reports_iff.mp hcode
  exact ⟨detail, ha⟩

end Sparkplane

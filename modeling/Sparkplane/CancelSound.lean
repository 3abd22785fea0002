import Sparkplane.StopSound

/-!
# A cancelled serve and its instance

`cancel_operation` commits the cancellation and then starts a clean-up, unless
the instance is already healthy; `run_serve` looks at the cancellation five
times, the last time some steps before it publishes. `cancelled_stopped`: a
serve that ends cancelled leaves its instance stopped and without a healthy
route, in every run in which the cancellation is not committed between that
last look and the end of the operation. `late_cancel_keeps_serving`: in between
it is committed, the clean-up is skipped and the engine stays.
-/

namespace Sparkplane

open Database
open Machine

variable {c : Pool} {α : Type} {progress : OperationProgress} {result : Option Json}
variable {problem : Option ProblemDocument} {P : Eff → Prop} {p : Act Response}

/-! ## Nothing becomes healthy -/

structure Unhealed (i j : InstanceDocument) : Prop extends Calm i j where
  observed : j.observed = .healthy → i.observed = .healthy

instance : Std.Refl Unhealed := ⟨fun _ => ⟨Std.Refl.refl _, fun h => h⟩⟩

instance : IsTrans _ Unhealed where
  trans _ _ _ h1 h2 := ⟨IsTrans.trans _ _ _ h1.toCalm h2.toCalm, fun h => h1.observed (h2.observed h)⟩

theorem Stops.unhealed {i j : InstanceDocument} (h : Database.Stops i j) : Unhealed i j := by
  refine ⟨Stops.calm h, fun ho => ?_⟩
  rcases h with rfl | rfl
  · exact ho
  · simp only [stoppingIntent] at ho
    split at ho <;> cases ho

def Command.unhealing : Command → Bool
  | .beginStop _ => true
  | .setInstanceObserved _ _ observed .. => observed ≠ .healthy
  | c => c.elsewhere

theorem Command.run_unhealed (E : Env) (d : Draw) {c : Command} (hc : c.unhealing = true) (db : Db) :
    FleetStep Unhealed db (c.run E d db) := by
  cases hel : c.elsewhere with
  | true => exact c.run_fleetStep hel db
  | false =>
    cases c <;> try (cases hel; done)
    case beginStop => exact (commit_step (beginStop_step _) db).mono fun _ _ => Stops.unhealed
    case setInstanceObserved id generation observed endpoint failure startup =>
      have hne : observed ≠ .healthy := by simpa [Command.unhealing] using hc
      have hkeeps : (Database.setInstanceObserved d id generation observed endpoint failure startup).Keeps
          (FleetStep Unhealed) := by
        intro db i db' h hdb
        obtain ⟨r, hr, _, rfl, hput⟩ := setInstanceObserved_inv h
        exact FleetStep.of_put (Db.lookup_some hr).1 (hput hdb) ⟨rfl, rfl, rfl, rfl⟩
          ⟨⟨⟨rfl, rfl, rfl, rfl⟩, fun h => h⟩, fun h => absurd h hne⟩ hdb
      exact commit_step hkeeps db
    all_goals cases hc

def Unready (inst : InstanceDocument) (w : World) : Prop :=
  (∀ row, w.db.instances.get? inst.id = some row → row.metadata.observed ≠ .healthy) ∧
    ∀ route, w.routes.get? inst.name = some (.healthy route) → route.generation ≠ inst.generation

def Eff.unhealing : Eff → Bool
  | .publish .. => false
  | e => e.writes.all Command.unhealing

variable {e : Eff} {inst : InstanceDocument}

theorem Eff.unhealing_calm (h : e.unhealing = true) : e.beginsServe = false := by
  cases e with
  | command c => cases c <;> first | rfl | cases h
  | _ => first | rfl | cases h

theorem Unready.after {w : World} {S : Site} (he : e.unhealing = true) (hc : Coherent w.db) (h : Unready inst w)
    (turn : Turn Oracle) : Unready inst (e.after S turn w) := by
  have hfleet : FleetStep Unhealed w.db (e.after S turn w).db := by
    show FleetStep Unhealed w.db (e.onDb S.env turn.oracle.draw w.db)
    unfold Eff.onDb
    cases hw : e.writes with
    | none => exact Std.Refl.refl _
    | some c =>
      refine c.run_unhealed S.env turn.oracle.draw ?_ w.db
      cases e <;> cases hw <;> exact he
  refine ⟨fun row' hr' ho => ?_, fun route hroute => ?_⟩
  · obtain ⟨row, hr, hstep⟩ := hfleet.doc hc hr'
    exact h.1 row hr (hstep.observed ho)
  · rcases Eff.onRoutes_healthy hroute with hbefore | ⟨p, m, u, rfl⟩
    · exact h.2 route hbefore
    · cases he

/-! ## The contract -/

/-- The steps of `run_serve` between its last look at the cancellation and the
end of the operation. -/
def Eff.finishing : Eff → Bool
  | .outside (.promoteRestart _) | .outside .elapsedMillis => true
  | .command (.setInstanceObserved _ _ .healthy ..) => true
  | .publish .. | .lookup _ => true
  | .command (.transition _ .succeeded ..) => true
  | _ => false

def Eff.cancels : Eff → Bool
  | .command (.cancel _) => true
  | _ => false

/-- No cancellation is committed while `run_serve` is finishing. -/
def cancelRules : Rules World Job Eff Oracle where
  allow _ _ _ _ := true
  apart _ e _ next := !(e.cancels && next.any Eff.finishing)

section
variable (o : String) (inst : InstanceDocument)

structure CancelInv (w : World) : Prop where
  coherent : Coherent w.db
  row : ∃ row, w.db.instances.get? inst.id = some row ∧ inst.SameIdentity row.metadata
  serves : OpIs o "instance.serve" (some inst.name) w
  unready : w.operation o = some .cancelled → Unready inst w

structure CancelStep (w w' : World) : Prop where
  log : OpStep w.db w'.db
  fleet : ∀ id row, w.db.instances.get? id = some row →
    ∃ row', w'.db.instances.get? id = some row' ∧ Calm row.metadata row'.metadata
  spawned : ∀ j ∈ w.history.spawned, j ∈ w'.history.spawned

structure CancelRely (i : Nat) (next : Option Eff) (w w' : World) : Prop extends CancelStep w w' where
  unready : i = 0 → Unready inst w → Unready inst w'
  finishing : i = 0 → next.any Eff.finishing = true → w'.operation o = w.operation o
  uncancelled : i = 1 → w.operation o ≠ some .cancelled → w'.operation o ≠ some .cancelled

structure CancelGuar (i : Nat) (e : Eff) (w w' : World) : Prop extends CancelStep w w' where
  unready : i ≠ 0 → Unready inst w → Unready inst w'
  operation : i ≠ 0 → e.cancels = false → w'.operation o = w.operation o
  uncancelled : i ≠ 1 → w.operation o ≠ some .cancelled → w'.operation o ≠ some .cancelled

def Job.cancelBorn (i : Nat) (w : World) : Job → Prop
  | .runServe o' inst' => i = 0 ∧ o' = o ∧ inst' = inst ∧ Unready inst w
  | .cancelOperation _ o' => i = 1 ∧ o' = o ∧ w.operation o ≠ some .cancelled
  | .cancelPrehealthServe _ inst' => 2 ≤ i ∧ inst'.id = inst.id
  | _ => False

def Cancellable (w : World) : Prop := Unready inst w ∨ Ended o w

def cancelContract (S : Site) : Contract (agent S) where
  rules := cancelRules
  inv := CancelInv o inst
  rely _ i := CancelRely o inst i
  guar _ i := CancelGuar o inst i
  born l i w := l.cancelBorn o inst i w
  stands _ i e w := i = 0 → e.finishing = false → Cancellable o inst w
  given _ _ e w := e.cancels = true → Cancellable o inst w

def cancelPost (i : Nat) (w : World) : Prop :=
  match i with
  | 0 => Cancellable o inst w
  | 1 => w.operation o = some .cancelled → ∃ inst', .cancelPrehealthServe o inst' ∈ w.history.spawned
  | _ + 2 => ∃ row, w.db.instances.get? inst.id = some row ∧ row.metadata.desired = .stopped

end

theorem CancelStep.refl (w : World) : CancelStep w w :=
  ⟨Std.Refl.refl _, fun _ row h => ⟨row, h, Std.Refl.refl _⟩, fun _ h => h⟩

theorem CancelStep.trans {w1 w2 w3 : World} (h1 : CancelStep w1 w2) (h2 : CancelStep w2 w3) :
    CancelStep w1 w3 where
  log := IsTrans.trans _ _ _ h1.log h2.log
  fleet id row1 hr1 := by
    obtain ⟨row2, hr2, c1⟩ := h1.fleet id row1 hr1
    obtain ⟨row3, hr3, c2⟩ := h2.fleet id row2 hr2
    exact ⟨row3, hr3, IsTrans.trans _ _ _ c1 c2⟩
  spawned j h := h2.spawned j (h1.spawned j h)

section
variable {o : String} {inst : InstanceDocument} {S : Site} {l : Job} {i n : Nat} {e : Eff} {w w' : World}

theorem Ended.step (h : CancelStep w w') (hw : Ended o w) : Ended o w' := hw.log h.log

theorem operation_cancelled (h : CancelStep w w') (hw : w.operation o = some .cancelled) :
    w'.operation o = some .cancelled := by
  obtain ⟨op, hop, hs⟩ := Option.map_eq_some_iff.mp hw
  obtain ⟨op', hop', hf⟩ := h.log o op hop
  rw [hf.terminal (by rw [hs]; rfl)] at hop'
  exact Option.map_eq_some_iff.mpr ⟨op, hop', hs⟩

theorem cancelPost_stable {next : Option Eff} (h : CancelRely o inst i next w w')
    (hw : cancelPost o inst i w) : cancelPost o inst i w' := by
  match i, hw with
  | 0, hw => exact hw.imp (h.unready rfl) (Ended.step h.toCancelStep)
  | 1, hw =>
    intro hc
    by_cases hbefore : w.operation o = some .cancelled
    · obtain ⟨inst', hs⟩ := hw hbefore
      exact ⟨inst', h.spawned _ hs⟩
    · exact absurd hc (h.uncancelled rfl hbefore)
  | j + 2, hw =>
    obtain ⟨row, hr, hs⟩ := hw
    obtain ⟨row', hr', hcalm⟩ := h.fleet _ row hr
    exact ⟨row', hr', hcalm.stopped hs⟩

/-! ## One step -/

theorem cancelStep_after (hb : e.beginsServe = false) (hc : Coherent w.db) (turn : Turn Oracle) :
    CancelStep w (e.after S turn w) := by
  refine ⟨Eff.opStep S turn e w, fun id row hr => (Eff.calm hb turn w).kept hc hr, fun j hj => ?_⟩
  cases e <;> first | exact hj | exact List.mem_append_left _ hj

theorem operation_after (hs : e.single = true) (hmoves : ∀ next, e.moves ≠ some (o, next))
    (hop : (w.db.operations.get? o).isSome) (turn : Turn Oracle) :
    (e.after S turn w).operation o = w.operation o := by
  unfold World.operation
  rcases Eff.operation (S := S) hs turn w o with h | ⟨c, hc, h⟩
  · rw [h]
  · obtain ⟨op, hop⟩ := Option.isSome_iff_exists.mp hop
    rw [hop] at h ⊢
    generalize (e.after S turn w).db.operations.get? o = r at h
    cases h with
    | same => rfl
    | moved now p result problem hm _ =>
      exact absurd (show e.moves = some (o, _) by rw [Eff.moves, hc]; exact hm) (hmoves _)

theorem uncancelled_after (hs : e.single = true) (hmoves : e.moves ≠ some (o, .cancelled))
    (hw : w.operation o ≠ some .cancelled) (turn : Turn Oracle) :
    (e.after S turn w).operation o ≠ some .cancelled := by
  unfold World.operation at hw ⊢
  rcases Eff.operation (S := S) hs turn w o with h | ⟨c, hc, h⟩
  · rw [h]; exact hw
  · generalize w.db.operations.get? o = before, (e.after S turn w).db.operations.get? o = after at h hw
    cases h with
    | same => exact hw
    | accepted => nofun
    | moved now p result problem hm _ =>
      intro heq
      have hnext := Option.some.inj heq
      refine hmoves ?_
      rw [Eff.moves, hc, ← hnext]
      exact hm

theorem CancelInv.after (hb : e.beginsServe = false) (hi : CancelInv o inst w) (turn : Turn Oracle)
    (hready : (e.after S turn w).operation o = some .cancelled → Unready inst (e.after S turn w)) :
    CancelInv o inst (e.after S turn w) := by
  have hstep := cancelStep_after (S := S) hb hi.coherent turn
  refine ⟨(Eff.calm hb turn w hi.coherent).1, ?_, ?_, hready⟩
  · obtain ⟨row, hr, hsame⟩ := hi.row
    obtain ⟨row', hr', hcalm⟩ := hstep.fleet _ row hr
    exact ⟨row', hr', ⟨hcalm.id.trans hsame.id, hcalm.name.trans hsame.name,
      hcalm.modelId.trans hsame.modelId, hcalm.generation.trans hsame.generation⟩⟩
  · obtain ⟨op, hop, hk, ht⟩ := hi.serves
    obtain ⟨op', hop', hf⟩ := hstep.log o op hop
    exact ⟨op', hop', hf.kind.trans hk, hf.target.trans ht⟩

theorem CancelInv.operation_isSome (hi : CancelInv o inst w) : (w.db.operations.get? o).isSome := by
  obtain ⟨op, hop, _⟩ := hi.serves
  rw [hop]; rfl

theorem serve_pays (hb : e.beginsServe = false) (hs : e.single = true) (hstarts : e.starts = none)
    (hmoves : ∀ id, e.moves ≠ some (id, .cancelled)) (hi : CancelInv o inst w) {turn : Oracle}
    (hready : (e.after S ⟨0, n, turn⟩ w).operation o = some .cancelled → Unready inst (e.after S ⟨0, n, turn⟩ w)) :
    (cancelContract o inst S).Pays l 0 n e w ((agent S).exec ⟨0, n, turn⟩ e w).2 :=
  .alone hstarts (hi.after hb _ hready) ⟨cancelStep_after hb hi.coherent _, fun h => absurd rfl h,
    fun h => absurd rfl h, fun _ hw => uncancelled_after hs (hmoves o) hw _⟩

theorem other_step (he : e.unhealing = true) (hs : e.single = true) (hmoves : e.moves = none)
    (hi : CancelInv o inst w) (turn : Turn Oracle) :
    CancelInv o inst (e.after S turn w) ∧ CancelGuar o inst i e w (e.after S turn w) := by
  have hb := Eff.unhealing_calm he
  have hop : (e.after S turn w).operation o = w.operation o :=
    operation_after hs (fun _ h => by rw [hmoves] at h; cases h) hi.operation_isSome turn
  refine ⟨hi.after hb turn fun h => (hi.unready (hop.symm.trans h)).after he hi.coherent turn,
    ⟨cancelStep_after hb hi.coherent turn, fun _ h => h.after he hi.coherent turn, fun _ _ => hop, fun _ h => ?_⟩⟩
  rw [hop]; exact h

/-! ## `run_serve` -/

def Live (o : String) (w : World) : Prop := ∃ s, w.operation o = some s ∧ s ≠ .accepted ∧ s ≠ .cancelled

def Done (o : String) (w : World) : Prop :=
  ∃ s, w.operation o = some s ∧ s.isTerminal = true ∧ s ≠ .cancelled

theorem Started.step (h : CancelStep w w') (hw : Started o w) : Started o w' := hw.log h.log

theorem Done.step (h : CancelStep w w') (hw : Done o w) : Done o w' := by
  obtain ⟨s, hs, ht, hne⟩ := hw
  obtain ⟨op, hop, rfl⟩ := Option.map_eq_some_iff.mp hs
  obtain ⟨op', hop', hf⟩ := h.log o op hop
  rw [hf.terminal ht] at hop'
  exact ⟨op.state, Option.map_eq_some_iff.mpr ⟨op, hop', rfl⟩, ht, hne⟩

theorem Done.ended (h : Done o w) : Ended o w := by
  obtain ⟨s, hs, ht, _⟩ := h
  obtain ⟨op, hop, rfl⟩ := Option.map_eq_some_iff.mp hs
  exact ⟨op, hop, ht⟩

theorem prehealthEff.plain (he : prehealthEff o inst e) :
    e.unhealing = true ∧ e.single = true ∧ e.starts = none ∧ ∀ id, e.moves ≠ some (id, .cancelled) := by
  cases e with
  | command c =>
    cases c <;> try (cases he; done)
    case transition id next p result problem =>
      refine ⟨rfl, rfl, rfl, fun id' h => ?_⟩
      cases h
      rcases he.2 with h | h <;> cases h
    case beginStop => exact ⟨rfl, rfl, rfl, fun _ h => by cases h⟩
    case setInstanceObserved =>
      exact ⟨decide_eq_true he.2, rfl, rfl, fun _ h => by cases h⟩
  | _ => first | exact ⟨rfl, rfl, rfl, fun _ h => by cases h⟩ | cases he

theorem prehealth_perform {T : World → Prop} (hT : ∀ w w', CancelStep w w' → T w → T w')
    (he : prehealthEff o inst e) (w : World) (hw : Unready inst w ∧ T w) :
    wp (cancelContract o inst S) l 0 (fun _ w => Unready inst w ∧ T w) (perform e) w := by
  obtain ⟨hun, hs, hstarts, hmoves⟩ := he.plain
  intro w1 hr hi
  have hready : Unready inst w1 := hr.unready rfl hw.1
  have hb := Eff.unhealing_calm hun
  refine ⟨fun _ _ => .inl hready, fun n turn _ _ _ => ?_⟩
  have hafter : Unready inst (e.after S ⟨0, n, turn⟩ w1) := hready.after hun hi.coherent _
  exact ⟨serve_pays hb hs hstarts hmoves hi fun _ => hafter,
    hafter, hT _ _ (cancelStep_after hb hi.coherent _) (hT _ _ hr.toCancelStep hw.2)⟩

theorem done_perform (hb : e.beginsServe = false) (hs : e.single = true) (hstarts : e.starts = none)
    (hmoves : ∀ id, e.moves ≠ some (id, .cancelled)) (w : World) (hw : Done o w) :
    wp (cancelContract o inst S) l 0 (fun _ => Done o) (perform e) w := by
  intro w1 hr hi
  have hw1 : Done o w1 := hw.step hr.toCancelStep
  refine ⟨fun _ _ => .inr hw1.ended, fun n turn _ _ _ => ?_⟩
  have hafter : Done o (e.after S ⟨0, n, turn⟩ w1) := hw1.step (cancelStep_after hb hi.coherent _)
  refine ⟨serve_pays hb hs hstarts hmoves hi fun h => ?_, hafter⟩
  obtain ⟨s, hstate, _, hne⟩ := hafter
  exact absurd (Option.some.inj (hstate.symm.trans h)) hne

theorem finishing_op {k : e.Reply → Act α} {Q : α → World → Prop} (he : e.finishing = true)
    (hb : e.beginsServe = false) (hs : e.single = true) (hstarts : e.starts = none) (hmoves : e.moves = none)
    (hw : Live o w) (hk : ∀ w1 turn, CancelInv o inst w1 → (Unready inst w → Unready inst w1) →
      Live o (e.after S turn w1) →
      wp (cancelContract o inst S) l 0 Q (k (e.answer S turn w1)) (e.after S turn w1)) :
    wp (cancelContract o inst S) l 0 Q (.op e k) w := by
  intro w1 hr hi
  refine ⟨fun _ h => absurd (he.symm.trans h) nofun, fun n turn _ _ _ => ?_⟩
  have hop : (e.after S ⟨0, n, turn⟩ w1).operation o = w.operation o :=
    (operation_after hs (fun _ h => by rw [hmoves] at h; cases h) (CancelInv.operation_isSome hi) _).trans
      (hr.finishing rfl he)
  have hafter : Live o (e.after S ⟨0, n, turn⟩ w1) := by
    obtain ⟨s, h⟩ := hw
    exact ⟨s, hop.trans h.1, h.2⟩
  refine ⟨serve_pays hb hs hstarts (fun _ h => by rw [hmoves] at h; cases h) hi fun h => ?_,
    hk w1 _ hi (hr.unready rfl) hafter⟩
  obtain ⟨s, hstate, _, hne⟩ := hafter
  exact absurd (Option.some.inj (hstate.symm.trans h)) hne

theorem reconcileOnce_cancel (w : World) (hw : Done o w) :
    wp (cancelContract o inst S) l 0 (fun _ => Done o) (reconcileOnce S) w := by
  have hclosed := safe_closed (cancelContract o inst S) l 0 (Done o)
  have heff : ∀ e, reconcileEff e → ∀ w, Done o w →
      wp (cancelContract o inst S) l 0 (fun _ => Done o) (perform e) w := by
    intro e he
    obtain ⟨⟨hb, hs, hstarts⟩, hmoves⟩ := he.plain
    exact done_perform hb hs hstarts fun id h => by rw [hmoves] at h; cases h
  refine reconcileOnce_closed hclosed heff (reconcileListed_closed hclosed heff
    (completeRecoveredOperation_closed hclosed (fun e he => heff e he.eff) fun id next progress result problem hnext => ?_)) w hw
  refine hclosed.bind (done_perform (e := .command (.transition ..)) rfl rfl rfl fun id' h => ?_)
    fun _ => hclosed.ret _
  cases h
  rcases hnext with h | h <;> cases h

theorem startEngine_cancel (hw : Unready inst w) :
    wp (cancelContract o inst S) l 0 (fun r w => Unready inst w ∧ (r.isSome → Started o w))
      (startEngine S o inst) w := by
  have hready := fun {e} (he : prehealthEff o inst e) => prehealth_perform (S := S) (l := l)
    (T := fun _ => True) (fun _ _ _ h => h) he
  have hclosed := safe_closed (cancelContract o inst S) l 0 fun w => Unready inst w ∧ True
  refine (hready (e := .outside (.acquireOwned .start)) trivial w ⟨hw, trivial⟩).bind fun slot w hw => ?_
  split
  · intro w1 hr hi
    have hun : Unready inst w1 := hr.unready rfl hw.1
    refine ⟨fun _ _ => .inl hun, fun n turn _ _ _ => ?_⟩
    have hafter : Unready inst ((Eff.command (.transition o .running
        (lifecycleProgress "pulling-image" "ensuring exact digest image and managed network") none none)).after S
        ⟨0, n, turn⟩ w1) := hun.after rfl hi.coherent _
    refine ⟨serve_pays rfl rfl rfl (fun _ h => by cases h) hi fun _ => hafter, ?_⟩
    generalize hans : ((agent S).exec ⟨0, n, turn⟩ (.command (.transition o .running
      (lifecycleProgress "pulling-image" "ensuring exact digest image and managed network") none none)) w1).1 = r
    cases r with
    | error e => exact ⟨hafter, nofun⟩
    | ok _ =>
      refine wp_mono (fun r w hw => ⟨hw.1, fun _ => hw.2⟩) (createEngine_closed
        (safe_closed (cancelContract o inst S) l 0 fun w => Unready inst w ∧ Started o w)
        (fun e he => prehealth_perform (fun _ _ => Started.step) he) _ ⟨hafter, started_transition hans⟩)
  · refine (failServe_closed hclosed (fun e he => hready he) _ w hw).bind fun _ w hw => ⟨hw.1, nofun⟩

theorem serveCancelled_cancel (hw : Unready inst w ∧ Started o w) : wp (cancelContract o inst S) l 0
      (fun cancelled w => (Unready inst w ∧ Started o w) ∧ (cancelled = false → w.operation o ≠ some .cancelled))
      (serveCancelled o) w := by
  intro w1 hr hi
  have hun : Unready inst w1 := hr.unready rfl hw.1
  have hstarted : Started o w1 := hw.2.step hr.toCancelStep
  refine ⟨fun _ _ => .inl hun, fun n turn _ _ _ => ⟨serve_pays rfl rfl rfl (fun _ h => by cases h) hi
    fun _ => hun, ?_⟩⟩
  obtain ⟨op, hop, _⟩ := CancelInv.serves hi
  have hans : ((agent S).exec ⟨0, n, turn⟩ (.query (.operation o)) w1).1 = .ok ⟨op, o⟩ := by
    show w1.db.readOperation o = _
    rw [Db.readOperation, hop]
  rw [hans]
  refine ⟨⟨hun, hstarted⟩, fun hfalse hc => ?_⟩
  obtain ⟨op', hop', hs⟩ := Option.map_eq_some_iff.mp hc
  have hop' : w1.db.operations.get? o = some op' := hop'
  rw [hop] at hop'
  cases hop'
  exact of_decide_eq_false hfalse hs

theorem awaitReady_cancel (observed : ObservedEngine) (hw : Unready inst w ∧ Started o w) :
    wp (cancelContract o inst S) l 0
      (fun r w => Unready inst w ∧ (r.isSome → Live o w)) (awaitReady S o inst observed) w := by
  have hclosed := safe_closed (cancelContract o inst S) l 0 fun w => Unready inst w ∧ Started o w
  have heff : ∀ e, prehealthEff o inst e → ∀ w, Unready inst w ∧ Started o w → wp
      (cancelContract o inst S) l 0 (fun _ w => Unready inst w ∧ Started o w) (perform e) w :=
    fun e he => prehealth_perform (fun _ _ => Started.step) he
  have hcancel : ∀ w, Unready inst w ∧ Started o w → wp (cancelContract o inst S) l 0
      (fun r w => Unready inst w ∧ (r.isSome → Live o w))
      (do cancelPrehealthServe inst; return none : Act (Option ObservedRoute)) w := fun w hw =>
    (cancelPrehealthServe_closed hclosed heff w hw).bind fun _ w hw => ⟨hw.1, nofun⟩
  refine (probeReadiness_closed hclosed heff observed w hw).bind fun ready w hw => ?_
  refine (instanceStopped_closed hclosed heff inst.id w hw).bind fun stopped w hw => ?_
  split
  · exact ⟨hw.1, nofun⟩
  refine (serveCancelled_closed hclosed heff w hw).bind fun cancelled w hw => ?_
  split
  · exact hcancel w hw
  refine (probeSemantics_closed hclosed heff observed ready w hw).bind fun failure w hw => ?_
  split
  · refine (serveCancelled_cancel hw).bind fun cancelled w hw => ?_
    split
    · exact hcancel w hw.1
    · rename_i hfalse
      refine ⟨hw.1.1, fun _ => ?_⟩
      obtain ⟨s, hs, hne⟩ := hw.1.2
      exact ⟨s, hs, hne, fun h => hw.2 (by simpa using hfalse) (hs.trans (congrArg some h))⟩
  · refine (heff (.drain inst.name inst.generation) ⟨rfl, rfl⟩ w hw).bind fun _ w hw => ?_
    exact (failServe_closed hclosed heff _ w hw).bind fun _ w hw => ⟨hw.1, nofun⟩

theorem done_transition (hc : Coherent w.db) (hw : Live o w) (turn : Turn Oracle) :
    Done o ((Eff.command (.transition o .succeeded progress result problem)).after S turn w) := by
  obtain ⟨s, hs, hstarted, hne⟩ := hw
  by_cases ht : s.isTerminal = true
  · exact Done.step (cancelStep_after rfl hc turn) ⟨s, hs, ht, hne⟩
  · obtain ⟨op, hop, rfl⟩ := Option.map_eq_some_iff.mp hs
    have hl : legalOperationTransition op.state .succeeded = true := by
      cases hstate : op.state <;> first | rfl | simp_all [OperationState.isTerminal]
    have hrun := transition_run turn.oracle.draw o .succeeded progress result problem w.db
    rw [hop] at hrun
    dsimp only at hrun
    rw [if_neg fun h => ht h.2, if_pos hl] at hrun
    obtain ⟨row, hrow, hsucc⟩ := transition_ok (congrArg Prod.fst (Tx.commit_ok hrun))
    exact ⟨row.state, Option.map_eq_some_iff.mpr ⟨row, hrow, rfl⟩, by rw [hsucc]; rfl, by rw [hsucc]; decide⟩

theorem succeed_cancel (hw : Live o w) : wp (cancelContract o inst S) l 0 (fun _ => Done o)
      (transition o .succeeded progress result problem) w := by
  intro w1 hr hi
  have hi : CancelInv o inst w1 := hi
  have hlive : Live o w1 := by
    obtain ⟨s, hs, hrest⟩ := hw
    exact ⟨s, (hr.finishing rfl rfl).trans hs, hrest⟩
  refine ⟨fun _ h => (by cases h), fun n turn _ _ _ => ?_⟩
  have hdone : Done o ((Eff.command (.transition o .succeeded progress result problem)).after S
    ⟨0, n, turn⟩ w1) := done_transition hi.coherent hlive _
  refine ⟨serve_pays rfl rfl rfl (fun _ h => by cases h) hi fun h => ?_, hdone⟩
  obtain ⟨s, hs, _, hne⟩ := hdone
  exact absurd (Option.some.inj (hs.symm.trans h)) hne

theorem unready_refused {id : String} {generation : Nat} {observed : InstanceObservedState}
    {endpoint failure : Option String} {startup : Option Nat} {turn : Turn Oracle} {error : StateError}
    (h : (Eff.command (.setInstanceObserved id generation observed endpoint failure startup)).answer S turn w =
      .error error) (hw : Unready inst w) :
    Unready inst
      ((Eff.command (.setInstanceObserved id generation observed endpoint failure startup)).after S turn w) := by
  have h : ((setInstanceObserved turn.oracle.draw id generation observed endpoint failure
    startup).commit w.db).1 = .error error := h
  have hdb : ((setInstanceObserved turn.oracle.draw id generation observed endpoint failure
      startup).commit w.db).2 = w.db := by
    rcases Tx.commit_cases (setInstanceObserved turn.oracle.draw id generation observed endpoint
      failure startup) w.db with ⟨a, db', _, hc⟩ | ⟨e, _, hc⟩
    · rw [hc] at h; cases h
    · rw [hc]
  refine ⟨fun row hr => hw.1 row ?_, hw.2⟩
  rw [← hdb]
  exact hr

theorem finishServe_cancel (observed : ObservedEngine) (route : ObservedRoute) (hun : Unready inst w)
    (hlive : Live o w) :
    wp (cancelContract o inst S) l 0 (fun _ => Cancellable o inst) (finishServe S o inst observed route) w := by
  have hfail : ∀ detail w, Unready inst w → wp (cancelContract o inst S) l 0
      (fun _ => Cancellable o inst) (failServe o inst detail) w := fun detail w hw =>
    wp_mono (fun _ _ h => .inl h.1) (failServe_closed
      (safe_closed (cancelContract o inst S) l 0 fun w => Unready inst w ∧ True)
      (fun e he => prehealth_perform (fun _ _ _ h => h) he) detail w ⟨hw, trivial⟩)
  refine finishing_op (e := .outside (.promoteRestart _)) rfl rfl rfl rfl rfl hlive
    fun w1 t1 _ hun1 hlive1 => ?_
  rw [Eff.after_reads rfl] at hlive1 ⊢
  generalize (Eff.outside (.promoteRestart (stopInput inst 0))).answer S t1 w1 = r
  cases r with
  | error e => exact hfail _ w1 (hun1 hun)
  | ok _ =>
    refine finishing_op (e := .outside .elapsedMillis) rfl rfl rfl rfl rfl hlive1
      fun w2 t2 _ hun2 hlive2 => ?_
    rw [Eff.after_reads rfl] at hlive2 ⊢
    refine finishing_op (e := .command (.setInstanceObserved ..)) rfl rfl rfl rfl rfl hlive2
      fun w3 t3 _ hun3 hlive3 => ?_
    generalize hans : (Eff.command (.setInstanceObserved ..)).answer S t3 w3 = r
    cases r with
    | error e => exact hfail _ _ (unready_refused hans (hun3 (hun2 (hun1 hun))))
    | ok healthy =>
      refine finishing_op (e := .publish ..) rfl rfl rfl rfl rfl hlive3 fun w4 t4 _ _ hlive4 => ?_
      have hlook : ∀ name w, Live o w → wp (cancelContract o inst S) l 0 (fun _ => Live o) (perform (.lookup name)) w :=
        fun name w hw => finishing_op (e := .lookup name) rfl rfl rfl rfl rfl hw fun _ _ _ _ h => h
      dsimp only [Prog.ret_bind]
      refine (projectRouteHealth_closed (safe_closed (cancelContract o inst S) l 0 (Live o)) hlook _
        hlive4).bind fun healthy w hw => ?_
      refine (succeed_cancel hw).bind fun _ w hw => ?_
      exact wp_mono (fun _ _ h => .inr h.ended) (reconcileOnce_cancel w hw)

theorem serveEngine_cancel (hw : Unready inst w) :
    wp (cancelContract o inst S) l 0 (fun _ => Cancellable o inst) (serveEngine S o inst) w := by
  refine (startEngine_cancel hw).bind fun started w hw => ?_
  cases started with
  | none => exact .inl hw.1
  | some observed =>
    refine (awaitReady_cancel observed ⟨hw.1, hw.2 rfl⟩).bind fun ready w hw => ?_
    cases ready with
    | none => exact .inl hw.1
    | some route => exact finishServe_cancel observed route hw.1 (hw.2 rfl)

theorem runServe_cancel (hw : Unready inst w) :
    wp (cancelContract o inst S) l 0 (fun _ => Cancellable o inst) (runServe S o inst) w := by
  refine (serveEngine_cancel hw).bind fun _ w hw => ?_
  intro w1 hr hi
  have hi : CancelInv o inst w1 := hi
  have hw1 : Cancellable o inst w1 := hw.imp (hr.unready rfl) (Ended.step hr.toCancelStep)
  refine ⟨fun _ _ => hw1, fun n turn _ _ _ => ⟨serve_pays rfl rfl rfl (fun _ h => by cases h) hi hi.unready, ?_⟩⟩
  exact hw1

/-! ## The handler and the clean-up -/

theorem other_op {k : e.Reply → Act α} {Q : α → World → Prop} {F : World → Prop} (h0 : i ≠ 0)
    (he : e.unhealing = true) (hs : e.single = true) (hmoves : e.moves = none) (hstarts : e.starts = none)
    (hF : ∀ next w w', CancelRely o inst i next w w' → F w → F w') (hw : F w)
    (hk : ∀ w1 turn, CancelInv o inst w1 → CancelInv o inst (e.after S turn w1) →
      CancelStep w1 (e.after S turn w1) → F w1 →
      wp (cancelContract o inst S) l i Q (k (e.answer S turn w1)) (e.after S turn w1)) :
    wp (cancelContract o inst S) l i Q (.op e k) w := by
  intro w1 hr hi
  refine ⟨fun h => absurd h h0, fun n turn _ _ _ => ?_⟩
  obtain ⟨hi', hg⟩ := other_step (S := S) (i := i) he hs hmoves hi ⟨i, n, turn⟩
  exact ⟨.alone hstarts hi' hg, hk w1 _ hi hi' hg.toCancelStep (hF _ _ _ hr hw)⟩

theorem CancelGuar.refl (w : World) : CancelGuar o inst i e w w :=
  ⟨CancelStep.refl w, fun _ h => h, fun _ _ => rfl, fun _ h => h⟩

theorem uncancelled_reads {p : Act α} (hp : p.Uses (·.reads = true)) (hw : w.operation o ≠ some .cancelled) :
    wp (cancelContract o inst S) l 1 (fun _ w => w.operation o ≠ some .cancelled) p w :=
  wp_reads (K := cancelContract o inst S) (fun _ _ _ _ hr h => hr.uncancelled rfl h) (fun _ _ _ _ _ h => absurd h nofun)
    (fun _ _ _ _ => CancelGuar.refl _) hp hw

theorem cancelQualification_uses (h : ∀ id, P (.outside (.cancelQualification id))) (id : String) :
    ∀ n, (cancelQualification id n).Uses P
  | 0 => trivial
  | n + 1 => by
    refine ⟨h id, fun r => ?_⟩
    match r with
    | .ok true => trivial
    | .ok false => exact cancelQualification_uses h id n
    | .error _ => trivial

theorem acknowledgeCancel_uses (h : ∀ id, P (.outside (.cancelQualification id)))
    (current : OperationDocument) : (acknowledgeCancel S current).Uses P := by
  unfold acknowledgeCancel
  split
  · split
    · trivial
    · refine (cancelQualification_uses h _ _).bind fun r => ?_
      match r with
      | .ok true => trivial
      | .ok false => trivial
      | .error _ => trivial
  · trivial

theorem CancelInv.readInstance (hi : CancelInv o inst w) :
    ∃ row, w.db.instances.get? inst.id = some row ∧ inst.SameIdentity row.metadata ∧
      w.db.readInstance inst.name = .ok row.metadata := by
  obtain ⟨row, hr, hsame⟩ := hi.row
  refine ⟨row, hr, hsame, ?_⟩
  have hname : row.name = inst.name := ((hi.coherent.rows _ _ hr).name_eq.symm).trans hsame.name
  rw [hi.coherent.readInstance_eq, ← hname, hi.coherent.lookup_of_name hr]

theorem cleanUpServe_cancel {operation : OperationDocument} (hkind : operation.kind = "instance.serve")
    (htarget : operation.target = some inst.name) (hid : operation.id = o)
    (hw : w.operation o = some .cancelled) :
    wp (cancelContract o inst S) l 1 (fun _ => cancelPost o inst 1) (cleanUpServe operation) w := by
  unfold cleanUpServe
  rw [if_pos hkind, htarget]
  have hF : ∀ next w w', CancelRely o inst 1 next w w' → w.operation o = some .cancelled →
    w'.operation o = some .cancelled := fun _ _ _ hr h => operation_cancelled hr.toCancelStep h
  refine other_op (e := .query (.inst inst.name)) nofun rfl rfl rfl rfl hF hw fun w1 t1 hi1 _ _ hw1 => ?_
  obtain ⟨row, hr, hsame, hread⟩ := hi1.readInstance
  have hans : (Eff.query (.inst inst.name)).answer S t1 w1 = .ok row.metadata := hread
  rw [hans, Eff.after_reads rfl]
  dsimp only [Prog.ret_bind]
  rw [if_neg ((hi1.unready hw1).1 row hr)]
  refine other_op (e := .drain ..) nofun rfl rfl rfl rfl hF hw1 fun w2 t2 _ _ hstep hw2 => ?_
  have hw₂' := operation_cancelled hstep hw2
  intro w3 _ hi3
  refine ⟨fun h => absurd h nofun, fun n turn hn _ _ => ?_⟩
  obtain ⟨hi', hg⟩ := other_step (S := S) (i := 1) (e := .spawn _) rfl rfl rfl hi3 ⟨1, n, turn⟩
  refine ⟨⟨hi', hg, fun l' hl' => ?_⟩, fun _ => ⟨row.metadata, ?_⟩⟩
  · cases hl'
    exact ⟨hn, hsame.id⟩
  · rw [← hid]
    exact List.mem_append_right _ (List.mem_singleton_self _)

theorem cancelCommand_cancel {k : Except StateError OperationDocument → Act Response}
    (hw : w.operation o ≠ some .cancelled)
    (hrefused : ∀ e w, w.operation o ≠ some .cancelled →
      wp (cancelContract o inst S) l 1 (fun _ => cancelPost o inst 1) (k (.error e)) w)
    (hdone : ∀ operation w, operation.kind = "instance.serve" → operation.target = some inst.name →
      operation.id = o → w.operation o = some .cancelled →
      wp (cancelContract o inst S) l 1 (fun _ => cancelPost o inst 1) (k (.ok operation)) w) :
    wp (cancelContract o inst S) l 1 (fun _ => cancelPost o inst 1) (.op (.command (.cancel o)) k) w := by
  intro w1 hr hi
  have hi : CancelInv o inst w1 := hi
  have hw1 : w1.operation o ≠ some .cancelled := hr.uncancelled rfl hw
  refine ⟨fun h => absurd h nofun, fun n turn _ _ hgiven => ?_⟩
  obtain ⟨op, hop, hkind, htarget⟩ := hi.serves
  have hstate : op.state ≠ .cancelled :=
    fun h => hw1 (Option.map_eq_some_iff.mpr ⟨op, hop, h⟩)
  have hrun := cancelOperation_run turn.draw o w1.db
  rw [hop] at hrun
  dsimp only at hrun
  rw [if_neg hstate] at hrun
  have hguar : Unready inst w1 → CancelGuar o inst 1 (.command (.cancel o)) w1
      ((Eff.command (.cancel o)).after S ⟨1, n, turn⟩ w1) := fun hun =>
    ⟨cancelStep_after rfl hi.coherent _, fun _ _ => hun.after rfl hi.coherent _,
      fun _ h => absurd h nofun, fun h => absurd rfl h⟩
  by_cases ht : op.state.isTerminal = true
  · -- the operation had ended: the command is refused
    rw [if_pos ht] at hrun
    have hans : ((agent S).exec ⟨1, n, turn⟩ (.command (.cancel o)) w1).1 = .error terminalImmutable :=
      congrArg Prod.fst hrun
    have hsame : ((Eff.command (.cancel o)).after S ⟨1, n, turn⟩ w1).db = w1.db := congrArg Prod.snd hrun
    have hafter : ((Eff.command (.cancel o)).after S ⟨1, n, turn⟩ w1).operation o = w1.operation o := by
      unfold World.operation
      rw [hsame]
    have hstep : CancelStep w1 ((Eff.command (.cancel o)).after S ⟨1, n, turn⟩ w1) :=
      cancelStep_after rfl hi.coherent _
    refine ⟨.alone rfl (hi.after rfl _ fun h => absurd (hafter.symm.trans h) hw1) ⟨hstep,
      fun _ h => h.after rfl hi.coherent _, fun _ h => absurd h nofun, fun h => absurd rfl h⟩, ?_⟩
    rw [hans]
    exact hrefused _ _ (hafter ▸ hw1)
  · rw [if_neg ht] at hrun
    have hun : Unready inst w1 := by
      rcases hgiven rfl with h | ⟨op', hop', ht'⟩
      · exact h
      · rw [hop] at hop'
        cases hop'
        exact absurd ht' ht
    refine ⟨.alone rfl (hi.after rfl _ fun _ => hun.after rfl hi.coherent _) (hguar hun), ?_⟩
    have hans : ((agent S).exec ⟨1, n, turn⟩ (.command (.cancel o)) w1).1 =
      .ok ⟨op.advance turn.draw.now .cancelled cancelledProgress none none, o⟩ := congrArg Prod.fst hrun
    rw [hans]
    refine hdone _ _ hkind htarget rfl ?_
    have hdb : ((Eff.command (.cancel o)).after S ⟨1, n, turn⟩ w1).db =
      w1.db.advanced turn.draw.now o .cancelled cancelledProgress none none := congrArg Prod.snd hrun
    show ((((Eff.command (.cancel o)).after S ⟨1, n, turn⟩ w1).db).operations.get? o).map _ = _
    rw [hdb]
    show ((w1.db.operations.modify o _).get? o).map _ = _
    rw [Table.get?_modify, if_pos rfl, hop]
    rfl

theorem cancelOperation_cancel (caller : Caller) (hw : w.operation o ≠ some .cancelled) :
    wp (cancelContract o inst S) l 1 (fun _ => cancelPost o inst 1) (cancelOperation S caller o) w := by
  have hpost : ∀ w : World, w.operation o ≠ some .cancelled → cancelPost o inst 1 w := fun _ h hc => absurd hc h
  refine (uncancelled_reads requireExecutorForMutation_reads hw).bind fun r w hw => ?_
  cases r with
  | some response => exact hpost w hw
  | none =>
    dsimp only
    split
    · exact hpost w hw
    refine (uncancelled_reads (p := query (.operation o)) ⟨rfl, fun _ => trivial⟩ hw).bind fun r w hw => ?_
    cases r with
    | error e => exact hpost w hw
    | ok current =>
      dsimp only
      split
      · exact hpost w hw
      split
      · exact hpost w hw
      refine (uncancelled_reads (acknowledgeCancel_uses (fun _ => rfl) current) hw).bind fun r w hw => ?_
      cases r with
      | some response => exact hpost w hw
      | none =>
        refine cancelCommand_cancel hw (fun e w hw => hpost w hw) fun operation w hkind htarget hid hw => ?_
        dsimp only [Prog.ret_bind]
        exact (cleanUpServe_cancel hkind htarget hid hw).bind fun _ _ h => h

theorem stopped_beginStop (hi : CancelInv o inst w) (turn : Turn Oracle)
    (hi' : CancelInv o inst ((Eff.command (.beginStop inst.id)).after S turn w)) :
    ∃ row, ((Eff.command (.beginStop inst.id)).after S turn w).db.instances.get? inst.id = some row ∧
      row.metadata.desired = .stopped := by
  obtain ⟨row, hr, _⟩ := hi.row
  have hrun := beginStop_run hi.coherent inst.id
  rw [hi.coherent.lookup_of_id hr] at hrun
  have hans : (Eff.command (.beginStop inst.id)).answer S turn w = .ok (stoppingIntent row.metadata) :=
    congrArg Prod.fst (Tx.commit_ok hrun)
  obtain ⟨row', hr', _⟩ := hi'.row
  exact ⟨row', hr', (halted_beginStop hi.coherent hans row' hr').1⟩

theorem cleanUp_cancel {inst' : InstanceDocument} (hi2 : 2 ≤ i) (hid : inst'.id = inst.id) :
    wp (cancelContract o inst S) l i (fun _ => cancelPost o inst i)
      (do cancelPrehealthServe inst'; return .finished : Act Response) w := by
  obtain ⟨j, rfl⟩ : ∃ j, i = j + 2 := ⟨i - 2, by omega⟩
  have hF := fun next w w' (h : CancelRely o inst (j + 2) next w w') (hw : cancelPost o inst (j + 2) w) =>
    cancelPost_stable h hw
  refine wp_bind (other_op (e := .command (.beginStop inst'.id)) (F := fun _ => True) nofun rfl rfl rfl rfl
    (fun _ _ _ _ h => h) trivial fun w1 t1 hi1 hi₁' _ _ => ?_)
  rw [hid] at hi₁' ⊢
  have hstopped := stopped_beginStop hi1 t1 hi₁'
  refine other_op (e := .outside (.stopInstance _)) nofun rfl rfl rfl rfl hF hstopped
    fun w2 t2 _ _ hstep hw2 => ?_
  rw [Eff.after_reads rfl]
  refine other_op (e := .command (.setInstanceObserved ..)) nofun rfl rfl rfl rfl hF hw2
    fun w3 t3 _ _ hstep hw3 => ?_
  obtain ⟨row, hr, hs⟩ := hw3
  obtain ⟨row', hr', hcalm⟩ := hstep.fleet _ row hr
  exact ⟨row', hr', hcalm.stopped hs⟩

theorem cancelContract_sound :
    (cancelContract o inst S).Sound fun _ i _ => cancelPost o inst i where
  refl _ _ _ w := ⟨CancelStep.refl w, fun _ h => h, fun _ _ => rfl, fun _ h => h⟩
  trans _ _ _ _ _ _ h1 h2 :=
    ⟨h1.toCancelStep.trans h2.toCancelStep, fun h hw => h2.unready h (h1.unready h hw),
      fun h hn => (h2.finishing h hn).trans (h1.finishing h hn),
      fun h hw => h2.uncancelled h (h1.uncancelled h hw)⟩
  compat _ i e _ _ _ j next hij hapart _ hg := by
    refine ⟨hg.toCancelStep, fun h => hg.unready (h ▸ hij), fun h hn => hg.operation (h ▸ hij) ?_,
      fun h => hg.uncancelled (h ▸ hij)⟩
    have hapart : (!(e.cancels && next.any Eff.finishing)) = true := hapart
    rw [hn] at hapart
    simpa using hapart
  stable _ _ _ _ _ hr h := cancelPost_stable hr h
  start l i w hborn _ := by
    cases l <;> try (cases hborn; done)
    case runServe =>
      obtain ⟨rfl, rfl, rfl, hun⟩ := hborn
      exact runServe_cancel hun
    case cancelOperation =>
      obtain ⟨rfl, rfl, hw⟩ := hborn
      exact cancelOperation_cancel _ hw
    case cancelPrehealthServe =>
      obtain ⟨hi2, hid⟩ := hborn
      exact cleanUp_cancel hi2 hid

end

/-! ## Whole runs -/

def Pool.ended (c : Pool) : Bool := c.tasks.all fun t => t.2.next.isNone

theorem Pool.ended_ret (h : c.ended = true) {j : Nat} {l : Job} (hj : c.tasks[j]? = some (l, p)) : ∃ r, p = .ret r := by
  have hnext := List.all_eq_true.mp h _ (List.mem_of_getElem? hj)
  cases p with
  | ret r => exact ⟨r, rfl⟩
  | op e k => cases hnext

theorem cancel_given {S : Site} {o : String} {i : Nat} {l : Job} {k : e.Reply → Act Response}
    (h0 : c.tasks[0]? = some (.runServe o inst, p))
    (hshows : ∀ (j : Nat) (t : Job × Act Response), c.tasks[j]? = some t →
      (cancelContract o inst S).Shows (fun _ i _ => cancelPost o inst i) t j c.world)
    (hi : c.tasks[i]? = some (l, .op e k))
    (hapart : ∀ (j : Nat) (t : Job × Act Response), j ≠ i → c.tasks[j]? = some t →
      cancelRules.apart l e t.1 t.2.next = true) (hcancels : e.cancels = true) : Cancellable o inst c.world := by
  have hshow := hshows 0 _ h0
  cases p with
  | ret r => exact hshow
  | op e' k' =>
    refine hshow rfl ?_
    by_cases hi0 : i = 0
    · -- `run_serve` itself is about to cancel, so it is not finishing
      subst hi0
      rw [h0] at hi
      cases hi
      cases e with
      | command c => cases c <;> first | rfl | cases hcancels
      | _ => cases hcancels
    · have hap : (!(e.cancels && (some e').any Eff.finishing)) = true := hapart 0 _ (Ne.symm hi0) h0
      rw [hcancels] at hap
      simpa using hap

/-- The operation has been accepted and its generation begun, and no one has
looked at it yet. When all tasks have ended with the operation cancelled, the
instance is stopped, so that no later pass starts or publishes it, and the
generation has no healthy route. -/
theorem cancelled_stopped (S : Site) (before : List (Draw × Command)) (w : World) (o : String)
    (inst : InstanceDocument) (caller : Caller) {op : OperationRow} {row : InstanceRow}
    (hop : (actorLoop S.env {} before).operations.get? o = some op) (hkind : op.kind = "instance.serve")
    (htarget : op.target = some inst.name) (hstate : op.state = .accepted)
    (hrow : (actorLoop S.env {} before).instances.get? inst.id = some row) (hinst : row.metadata = inst)
    (hobserved : inst.observed ≠ .healthy)
    (hroute : ∀ route, w.routes.lookup inst.name = .healthy route → route.generation ≠ inst.generation)
    {c : Pool} (hrun : (agent S).Runs cancelRules (starting S { w with db := actorLoop S.env {} before, history := {} }
        [.runServe o inst, .cancelOperation caller o]) c)
    (hended : c.ended = true) (hcancelled : c.world.operation o = some .cancelled) :
    (∃ row', c.world.db.instances.get? inst.id = some row' ∧ row'.generation = inst.generation ∧
      row'.desiredState = .stopped ∧ ∀ observation suppressed,
        ReconcileAction.decide row'.desiredState observation suppressed ≠ .restartExact ∧
        ReconcileAction.decide row'.desiredState observation suppressed ≠ .publishExact) ∧
    ∀ route, c.world.routes.lookup inst.name = .healthy route → route.generation ≠ inst.generation := by
  have hlookup : ∀ (r : RouteRegistry) (name : String) (route : HealthyRoute),
      r.get? name = some (.healthy route) ↔ r.lookup name = .healthy route := by
    intro r name route
    unfold RouteRegistry.lookup
    split <;> simp_all
  have hunready : Unready inst { w with db := actorLoop S.env {} before, history := {} } := by
    refine ⟨fun row' hr' => ?_, fun route h => hroute route ((hlookup _ _ _).mp h)⟩
    have hr' : (actorLoop S.env {} before).instances.get? inst.id = some row' := hr'
    rw [hrow] at hr'
    cases hr'
    rw [hinst]
    exact hobserved
  have hopen : ({ w with db := actorLoop S.env {} before, history := {} } : World).operation o ≠
      some .cancelled := by
    show ((actorLoop S.env {} before).operations.get? o).map _ ≠ _
    rw [hop, Option.map_some, hstate]
    decide
  have hstart : (cancelContract o inst S).Verified (fun _ i _ => cancelPost o inst i)
      (starting S { w with db := actorLoop S.env {} before, history := {} }
        [.runServe o inst, .cancelOperation caller o]) := by
    refine .start cancelContract_sound ⟨coherent_actorLoop S.env before, ⟨row, hrow, ?_⟩,
      ⟨op, hop, hkind, htarget⟩, fun _ => hunready⟩ fun i l hl => ?_
    · rw [hinst]; exact ⟨rfl, rfl, rfl, rfl⟩
    · rcases i with _ | _ | i
      · cases hl; exact ⟨rfl, rfl, rfl, hunready⟩
      · cases hl; exact ⟨rfl, rfl, hopen⟩
      · cases hl
  have hverified := Runs.verified cancelContract_sound hstart
    (fun c i l e k hc hshows hi hapart hcancels => by
      obtain ⟨p, hp⟩ := hc.label (j := 0) rfl
      exact cancel_given hp hshows hi hapart hcancels) hrun
  have hinv : CancelInv o inst c.world := hverified.1
  -- the handler has returned, so a clean-up was started, and it has returned too
  obtain ⟨p₁, hp₁⟩ := hrun.label (j := 1) rfl
  obtain ⟨r₁, rfl⟩ := Pool.ended_ret hended hp₁
  obtain ⟨inst', hspawned⟩ : ∃ inst', .cancelPrehealthServe o inst' ∈ c.world.history.spawned :=
    hverified.shows cancelContract_sound hp₁ hcancelled
  obtain ⟨j, p, hj⟩ := hrun.remembered (m := fun w l => l ∈ w.history.spawned) (fun t e w l hl => by
    cases e <;> first
      | exact .inl hl
      | exact (List.mem_append.mp hl).imp_right fun h => congrArg some (List.mem_singleton.mp h).symm)
    (fun l hl => absurd hl List.not_mem_nil) _ hspawned
  obtain ⟨r, rfl⟩ := Pool.ended_ret hended hj
  have hpost : cancelPost o inst j c.world := hverified.shows cancelContract_sound hj
  obtain ⟨p₀, hp₀⟩ := hrun.label (j := 0) rfl
  rcases j with _ | _ | m
  · rw [hp₀] at hj; cases hj
  · rw [hp₁] at hj; cases hj
  · obtain ⟨row', hr', hstopped⟩ := hpost
    have hcoherent := hinv.coherent.rows _ _ hr'
    obtain ⟨row'', hr'', hsame⟩ := hinv.row
    rw [hr'] at hr''
    cases hr''
    have hdesired : row'.desiredState = .stopped := hcoherent.desired_eq.symm.trans hstopped
    refine ⟨⟨row', hr', hcoherent.generation_eq.symm.trans hsame.generation, hdesired, fun observation suppressed => ?_⟩,
      fun route h => (hinv.unready hcancelled).2 route ((hlookup _ _ _).mpr h)⟩
    rw [hdesired]
    cases observation <;> exact ⟨(fun h => by cases h), fun h => by cases h⟩

/-! ## Two runs -/

def serveAndCancel : List Job :=
  [.runServe "op1" begunInstance, .cancelOperation ⟨"bootstrap-admin", some "k2"⟩ "op1"]

def cancelEnded (c : Pool) : Bool := c.ended && c.world.operation "op1" = some .cancelled

theorem cancelled_stopped_in_time : ∃ c, (agent exampleSite).Runs cancelRules
      (starting exampleSite servingWorld serveAndCancel) c ∧ cancelEnded c = true ∧
    (∃ row', c.world.db.instances.get? begunInstance.id = some row' ∧ row'.desiredState = .stopped) ∧
    ∀ route, c.world.routes.lookup "m" = .healthy route → route.generation ≠ 1 := by
  have h : ((agent exampleSite).run cancelRules (starting exampleSite servingWorld serveAndCancel)
      (List.replicate 7 (serveTurn 0 "") ++ List.replicate 6 (serveTurn 1 "") ++
        List.replicate 3 (serveTurn 2 "") ++ List.replicate 5 (serveTurn 0 ""))).any cancelEnded = true := by
    decide +kernel
  have hop : ((actorLoop exampleSite.env {} serveBegun).operations.get? "op1").any (fun op =>
      op.kind = "instance.serve" && op.target = some "m" && op.state = .accepted) = true := by decide +kernel
  have hrow : ((actorLoop exampleSite.env {} serveBegun).instances.get? begunInstance.id).any (fun row =>
      row.metadata = begunInstance) = true := by decide +kernel
  obtain ⟨c, hrun, hp⟩ := reaches_of_run h
  obtain ⟨op, hop, hfacts⟩ := (Option.any_eq_true _ _).mp hop
  obtain ⟨row, hrow, hinst⟩ := (Option.any_eq_true _ _).mp hrow
  have hended := hp
  simp only [cancelEnded, Bool.and_eq_true, decide_eq_true_eq] at hended
  simp only [Bool.and_eq_true, decide_eq_true_eq] at hfacts hinst
  obtain ⟨⟨row', hr', _, hstopped, _⟩, hroute⟩ := cancelled_stopped exampleSite serveBegun servingWorld "op1"
    begunInstance ⟨"bootstrap-admin", some "k2"⟩ hop hfacts.1.1 hfacts.1.2 hfacts.2 hrow hinst nofun
    (fun route h => by cases h) hrun hended.1 hended.2
  exact ⟨c, hrun, hp, ⟨row', hr', hstopped⟩, hroute⟩

theorem late_cancel_keeps_serving : ∃ c, (agent exampleSite).Runs .free
      (starting exampleSite servingWorld serveAndCancel) c ∧ cancelEnded c = true ∧
    (∃ row, c.world.db.instances.get? begunInstance.id = some row ∧ row.desiredState = .running) ∧
    ∃ route, c.world.routes.lookup "m" = .healthy route ∧ route.generation = 1 := by
  have h : ((agent exampleSite).run .free (starting exampleSite servingWorld serveAndCancel)
      (List.replicate 20 (serveTurn 0 "") ++ List.replicate 4 (serveTurn 1 "") ++
        List.replicate 9 (serveTurn 0 ""))).any (fun c => cancelEnded c &&
      (c.world.db.instances.get? begunInstance.id).any (fun row => row.desiredState = .running) &&
      c.world.routes.lookup "m" = .healthy ⟨1, "org/m", "m", ⟨begunInstance.id, 1, (7, 7)⟩⟩) = true := by
    decide +kernel
  obtain ⟨c, hrun, hp⟩ := reaches_of_run h
  simp only [Bool.and_eq_true, decide_eq_true_eq] at hp
  obtain ⟨row, hr, hrunning⟩ := (Option.any_eq_true _ _).mp hp.1.2
  exact ⟨c, hrun, hp.1.1, ⟨row, hr, of_decide_eq_true hrunning⟩, _, hp.2, rfl⟩

end Sparkplane

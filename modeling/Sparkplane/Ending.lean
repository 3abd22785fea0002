import Sparkplane.Footprint

/-!
# Tasks that end an operation

What `run_serve` and `run_download` share: a task moves its operation on while every other task at
most advances it. A fact about the operation that advances keep is kept by whatever the task does
next, so a proof only follows the transitions.
-/

namespace Sparkplane

open Machine

variable {next : OperationState}

structure Advances {S : Site} (K : Contract (agent S)) (o : String) : Prop where
  known : ∀ {w : World}, K.inv w → (w.db.operations.get? o).isSome = true
  rely : ∀ {l : Job} {i : Nat} {n : Option Eff} {w w' : World}, K.rely l i n w w' → OpStep w.db w'.db
  stands : ∀ l i e w, K.stands l i e w
  pays : ∀ l i n e w t, K.inv w → K.Pays l i n e w ((agent S).exec ⟨i, n, t⟩ e w).2

theorem known_log {o : String} {db db' : Db} (h : OpStep db db') (hdb : (db.operations.get? o).isSome = true) :
    (db'.operations.get? o).isSome = true := by
  obtain ⟨op, hop⟩ := Option.isSome_iff_exists.mp hdb
  obtain ⟨op', hop', _⟩ := h _ op hop
  rw [hop']
  rfl

section
variable {S : Site} {o : String} {w : World} {turn : Turn Oracle} {p : OperationProgress} {result : Option Json}
  {problem : Option ProblemDocument}

theorem ended_transition (hnext : next = .succeeded ∨ next = .failed) (hw : Started o w)
    (turn : Turn Oracle) : Ended o ((Eff.command (.transition o next p result problem)).after S turn w) := by
  obtain ⟨s, hs, hne⟩ := hw
  obtain ⟨op, hop, rfl⟩ := Option.map_eq_some_iff.mp hs
  by_cases ht : op.state.isTerminal = true
  · exact Ended.log (Eff.opStep S turn _ w) ⟨op, hop, ht⟩
  · have hlegal : legalOperationTransition op.state next = true := by
      revert hne ht
      rcases hnext with rfl | rfl <;> cases op.state <;> decide
    have hans : (Eff.command (.transition o next p result problem)).answer S turn w = .ok _ :=
      congrArg Prod.fst (Tx.commit_ok (Database.transition_legal hop hlegal))
    obtain ⟨op', hop', hs'⟩ := Database.transition_ok hans
    refine ⟨op', hop', ?_⟩
    rw [hs']
    rcases hnext with rfl | rfl <;> rfl

theorem running_ended {err : StateError} (hw : (w.db.operations.get? o).isSome = true)
    (h : (Eff.command (.transition o .running p result problem)).answer S turn w = .error err) :
    Ended o ((Eff.command (.transition o .running p result problem)).after S turn w) := by
  obtain ⟨op, hop⟩ := Option.isSome_iff_exists.mp hw
  refine Ended.log (Eff.opStep S turn _ w) ⟨op, hop, ?_⟩
  by_contra ht
  have hlegal : legalOperationTransition op.state .running = true := by
    revert ht
    cases op.state <;> decide
  have hans : (Eff.command (.transition o .running p result problem)).answer S turn w = .ok _ :=
    congrArg Prod.fst (Tx.commit_ok (Database.transition_legal hop hlegal))
  cases h.symm.trans hans

end

theorem Ended.started {o : String} {w : World} (h : Ended o w) : Started o w := by
  obtain ⟨op, hop, ht⟩ := h
  refine ⟨op.state, congrArg (Option.map _) hop, fun he => ?_⟩
  rw [he] at ht
  cases ht

namespace Advances

variable {S : Site} {K : Contract (agent S)} {o : String} (hK : Advances K o) {l : Job} {i : Nat} {w : World}
  {α : Type}

include hK

variable {Q : α → World → Prop} {p : OperationProgress} {problem : Option ProblemDocument}
variable {result : Option Json}

theorem op {e : Eff} {k : e.Reply → Act α}
    (h : ∀ w1 n t, OpStep w.db w1.db → (w1.db.operations.get? o).isSome = true → K.rules.allow l e t w1 = true →
      wp K l i Q (k (e.answer S ⟨i, n, t⟩ w1)) (e.after S ⟨i, n, t⟩ w1)) :
    wp K l i Q (.op e k) w := by
  intro w1 hr hi
  refine ⟨hK.stands _ _ _ _, fun n t _ hallow _ => ⟨hK.pays _ _ _ _ _ _ hi, ?_⟩⟩
  exact h w1 n t (hK.rely hr) (hK.known hi) hallow

theorem keeps {F : World → Prop} (hF : ∀ w w' : World, OpStep w.db w'.db → F w → F w') :
    ∀ {p : Act α} {w : World}, F w → wp K l i (fun _ => F) p w
  | .ret _, _, hw => hw
  | .op e _, w, hw => hK.op fun w1 n t hr _ _ => keeps hF (hF w1 _ (Eff.opStep S ⟨i, n, t⟩ e w1) (hF w w1 hr hw))

theorem ended {p : Act α} (hw : Ended o w) : wp K l i (fun _ => Ended o) p w :=
  hK.keeps (fun _ _ h => Ended.log h) hw

theorem started {p : Act α} (hw : Started o w) : wp K l i (fun _ => Started o) p w :=
  hK.keeps (fun _ _ h => Started.log h) hw

theorem through {β : Type} {p : Act β} {f : β → Act α} (hw : Started o w)
    (h : ∀ b w1, Started o w1 → wp K l i Q (f b) w1) : wp K l i Q (p.bind f) w :=
  (hK.started hw).bind fun b w1 hw1 => h b w1 hw1

theorem transition_ends (hnext : next = .succeeded ∨ next = .failed) (hw : Started o w) :
    wp K l i (fun _ => Ended o) (transition o next p result problem) w :=
  hK.op fun _ _ _ hr _ _ => ended_transition hnext (hw.log hr) _

theorem running {k : Except StateError OperationDocument → Act α}
    (hok : ∀ a w1, Started o w1 → wp K l i Q (k (.ok a)) w1)
    (herr : ∀ e w1, Ended o w1 → wp K l i Q (k (.error e)) w1) :
    wp K l i Q ((command (.transition o .running p result problem)).bind k) w := by
  refine hK.op fun w1 n t _ hknown _ => ?_
  cases h : (Eff.command (.transition o .running p result problem)).answer S ⟨i, n, t⟩ w1 with
  | ok a => exact hok a _ (started_transition h)
  | error e => exact herr e _ (running_ended hknown h)

theorem cancelled (hw : Started o w) :
    wp K l i (fun cancelled w => Started o w ∧ (cancelled = true → Ended o w)) (serveCancelled o) w := by
  refine hK.op fun w1 n t hr hknown _ => ?_
  obtain ⟨op, hop⟩ := Option.isSome_iff_exists.mp hknown
  have hans : (Eff.query (.operation o)).answer S ⟨i, n, t⟩ w1 = .ok ⟨op, o⟩ := by
    show w1.db.readOperation _ = _
    rw [Db.readOperation, hop]
  rw [hans]
  refine ⟨hw.log hr, fun hc => ⟨op, hop, ?_⟩⟩
  rw [show op.state = .cancelled from of_decide_eq_true hc]
  rfl

theorem unlessCancelled {f : Bool → Act α} (hw : Started o w) (hgo : ∀ w1, Started o w1 → wp K l i Q (f false) w1)
    (hcancel : ∀ w1, Ended o w1 → wp K l i Q (f true) w1) :
    wp K l i Q ((serveCancelled o).bind f) w := by
  refine (hK.cancelled hw).bind fun cancelled w1 hc => ?_
  cases cancelled with
  | false => exact hgo w1 hc.1
  | true => exact hcancel w1 (hc.2 rfl)

end Advances

end Sparkplane

import Sparkplane.Footprint

/-!
# The transition lease

One task at a time holds it. Whoever takes a step leaves it with its holder,
unless the holder is that task itself: `lease_after`.
-/

namespace Sparkplane

def Holding (i : Nat) (leaseId : String) (w : World) : Prop :=
  w.history.owner = some i ∧ w.admission = ⟨some leaseId⟩

def Eff.plain : Eff → Bool
  | .beginServe .. | .command (.beginServe _) | .tryAcquire _ | .release _ | .spawn _ => false
  | _ => true

def LeaseOk (w : World) : Prop := w.history.owner.isSome = w.admission.holder.isSome

def Leaves (i : Nat) (w w' : World) : Prop :=
  ∀ j, j ≠ i → w.history.owner = some j → w'.history.owner = some j ∧ w'.admission = w.admission

section
variable {S : Site} {i n : Nat} {o : Oracle} {e : Eff} {w w' : World} {leaseId : String}

theorem Eff.plain_lease (h : e.plain = true) (t : Turn Oracle) :
    (e.after S t w).history.owner = w.history.owner ∧ (e.after S t w).admission = w.admission := by
  cases e <;> first | exact ⟨rfl, rfl⟩ | cases h

theorem Eff.plain_beginsServe (h : e.plain = true) : e.beginsServe = false := by
  cases e with
  | command c => cases c <;> first | rfl | cases h
  | _ => first | rfl | cases h

theorem Eff.starts_plain (h : e.plain = true) : e.starts = none := by
  cases e <;> first | rfl | cases h

theorem Eff.plain_reads (h : e.reads = true) : e.plain = true := by
  cases e <;> first | rfl | cases h

theorem Holding.plain (h : e.plain = true) (hw : Holding i leaseId w) (t : Turn Oracle) :
    Holding i leaseId (e.after S t w) := by
  obtain ⟨ho, ha⟩ := Eff.plain_lease (S := S) (w := w) h t
  exact ⟨ho.trans hw.1, ha.trans hw.2⟩

theorem Leaves.of_eq (h : w'.history.owner = w.history.owner ∧ w'.admission = w.admission) : Leaves i w w' :=
  fun _ _ hj => ⟨h.1.trans hj, h.2⟩

theorem LeaseOk.of_eq (h : w'.history.owner = w.history.owner ∧ w'.admission = w.admission) (hw : LeaseOk w) :
    LeaseOk w' := by
  unfold LeaseOk
  rw [h.1, h.2]
  exact hw

theorem LeaseOk.free (hw : LeaseOk w) (h : w.admission.holder = none) : w.history.owner = none := by
  unfold LeaseOk at hw
  rw [h] at hw
  simpa using hw

theorem tryAcquire_cases (leaseId : String) (turn : Turn Oracle) (w : World) :
    ((Eff.tryAcquire leaseId).answer S turn w = false ∧
      ((Eff.tryAcquire leaseId).after S turn w).history.owner = w.history.owner ∧
      ((Eff.tryAcquire leaseId).after S turn w).admission = w.admission) ∨
    ((Eff.tryAcquire leaseId).answer S turn w = true ∧ w.admission.holder = none ∧
      Holding turn.self leaseId ((Eff.tryAcquire leaseId).after S turn w)) := by
  cases hh : w.admission.holder with
  | some holder =>
    have hbusy : w.admission.tryAcquire leaseId = none := by
      unfold TransitionCoordinator.tryAcquire; rw [hh]
    refine .inl ⟨?_, ?_, ?_⟩
    · show (w.admission.tryAcquire leaseId).isSome = false
      rw [hbusy]; rfl
    · show (if (w.admission.tryAcquire leaseId).isSome then some turn.self else w.history.owner) = _
      rw [hbusy]; rfl
    · show (w.admission.tryAcquire leaseId).getD w.admission = _
      rw [hbusy]; rfl
  | none =>
    have hfree : w.admission.tryAcquire leaseId = some ⟨some leaseId⟩ := by
      unfold TransitionCoordinator.tryAcquire; rw [hh]
    refine .inr ⟨?_, rfl, ?_, ?_⟩
    · show (w.admission.tryAcquire leaseId).isSome = true
      rw [hfree]; rfl
    · show (if (w.admission.tryAcquire leaseId).isSome then some turn.self else w.history.owner) = _
      rw [hfree]; rfl
    · show (w.admission.tryAcquire leaseId).getD w.admission = _
      rw [hfree]; rfl

theorem release_eq (turn : Turn Oracle) (h : w.admission.holder ≠ some leaseId) :
    ((Eff.release leaseId).after S turn w).history.owner = w.history.owner ∧
      ((Eff.release leaseId).after S turn w).admission = w.admission :=
  ⟨if_neg h, if_neg h⟩

theorem release_free (turn : Turn Oracle) (h : w.admission.holder = some leaseId) :
    ((Eff.release leaseId).after S turn w).history.owner = none ∧
      ((Eff.release leaseId).after S turn w).admission = ⟨none⟩ :=
  ⟨if_pos h, if_pos h⟩

theorem lease_after (hw : LeaseOk w)
    (hrelease : ∀ id, e = .release id → w.admission.holder = some id → w.history.owner = some i) :
    LeaseOk (e.after S ⟨i, n, o⟩ w) ∧ Leaves i w (e.after S ⟨i, n, o⟩ w) := by
  have same : (e.after S ⟨i, n, o⟩ w).history.owner = w.history.owner ∧
      (e.after S ⟨i, n, o⟩ w).admission = w.admission →
      LeaseOk (e.after S ⟨i, n, o⟩ w) ∧ Leaves i w (e.after S ⟨i, n, o⟩ w) :=
    fun h => ⟨hw.of_eq h, .of_eq h⟩
  have own : w.history.owner = some i → ∀ w' : World, Leaves i w w' :=
    fun h _ j hj hj' => absurd (Option.some.inj (h.symm.trans hj')).symm hj
  cases e with
  | tryAcquire id =>
    rcases tryAcquire_cases (S := S) id ⟨i, n, o⟩ w with ⟨_, h⟩ | ⟨_, hfree, hheld⟩
    · exact same h
    · refine ⟨?_, fun j _ hj => ?_⟩
      · unfold LeaseOk
        rw [hheld.1, hheld.2]; rfl
      · rw [hw.free hfree] at hj; cases hj
  | release id =>
    by_cases hh : w.admission.holder = some id
    · obtain ⟨ho, ha⟩ := release_free (S := S) ⟨i, n, o⟩ hh
      refine ⟨?_, own (hrelease id rfl hh) _⟩
      unfold LeaseOk
      rw [ho, ha]; rfl
    · exact same (release_eq ⟨i, n, o⟩ hh)
  | spawn job =>
    cases job with
    | runServe operationId inst =>
      by_cases hh : w.history.owner = some i
      · refine ⟨?_, own hh _⟩
        have ho : ((Eff.spawn (.runServe operationId inst)).after S ⟨i, n, o⟩ w).history.owner = some n := if_pos hh
        unfold LeaseOk at hw ⊢
        rw [ho]
        rw [hh] at hw
        exact hw
      · exact same ⟨if_neg hh, rfl⟩
    | _ => exact same ⟨rfl, rfl⟩
  | _ => exact same ⟨rfl, rfl⟩

theorem Holding.tryAcquire {id : String} {j : Nat} (hw : Holding j leaseId w) (turn : Turn Oracle) :
    (Eff.tryAcquire id).answer S turn w = false ∧ Holding j leaseId ((Eff.tryAcquire id).after S turn w) := by
  rcases tryAcquire_cases (S := S) id turn w with ⟨hans, ho, ha⟩ | ⟨_, hfree, _⟩
  · exact ⟨hans, ho.trans hw.1, ha.trans hw.2⟩
  · rw [hw.2] at hfree; cases hfree

theorem acceptOperation_plain (tokenId kind key hash : String) (target : Option String) :
    (acceptOperation tokenId kind key hash target).Uses (·.plain = true) := by
  unfold acceptOperation
  split
  · trivial
  · exact ⟨rfl, fun _ => trivial⟩

theorem completeReusedServe_plain (operationId : String) (inst : InstanceDocument) :
    (completeReusedServe S operationId inst).Uses (·.plain = true) :=
  ⟨rfl, fun _ => ⟨rfl, fun _ => trivial⟩⟩

theorem serveEff.plain {operationId : String} {inst : InstanceDocument} (he : serveEff operationId inst e) :
    e.plain = true := by
  cases e with
  | command c => cases c <;> first | rfl | cases he
  | _ => first | rfl | cases he

theorem previewAdmission_reads (model : ModelDocument) (name : Option String) :
    (previewAdmission S model name).Uses (·.reads = true) := by
  unfold previewAdmission
  cases selectCandidate S model with
  | error response => trivial
  | ok candidate =>
    refine ⟨rfl, fun r => ?_⟩
    cases r with
    | error e => trivial
    | ok snapshot =>
      dsimp only [Prog.ret_bind]
      cases candidate.policy.resourcesFor with
      | error e => trivial
      | ok resources =>
        refine ⟨rfl, fun r => ?_⟩
        cases r with
        | error e => trivial
        | ok desired =>
          dsimp only [Prog.ret_bind]
          cases normalizeInstanceName S.env (requestedName name model) with
          | none => trivial
          | some name =>
            refine ⟨rfl, fun r => ?_⟩
            cases r with
            | error e => trivial
            | ok storage => exact ⟨rfl, fun _ => trivial⟩

end

end Sparkplane

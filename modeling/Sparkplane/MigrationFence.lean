import Sparkplane.MigrationHost
import Sparkplane.MigrationSound

/-!
# Recovery and the fence

`--recover` puts the fence up again and relies on the journal to have it taken down. `recovery_reopens_iff`
says from which states a recovery that reports success has taken it down.
-/

namespace Sparkplane.Migration

open Proc
open Migration.Journal

structure HostWorld where
  /-- The work directory with its stored plan. -/
  work : Option Plan
  journal : Option State
  fenced : Bool
  linked : UnitName → Bool
  found : HostPath → Found

namespace HostWorld

def put (w : HostWorld) (path : HostPath) (found : Found) : HostWorld :=
  { w with found := Function.update w.found path found }

def keep (w : HostWorld) (state : State) : HostWorld := { w with journal := some state }

/-- No fence table, no guard, no permit. -/
def Reopened (w : HostWorld) : Prop :=
  w.fenced = false ∧ (∀ g ∈ guards, w.found (.guard g) = .absent) ∧ w.found .permit = .absent

end HostWorld

/-- Done, or failed and perhaps done all the same. -/
def Does (w w₁ : HostWorld) (r : Except MigrationError Unit) (w' : HostWorld) : Prop := w' = w₁ ∨ r.isOk = false ∧ w' = w

def hostEffect : (op : HostOp) → HostWorld → op.Reply → HostWorld → Prop
  | .action a, w, r, w' => match a with
    | .fence => Does w { w with fenced := true } r w'
    | .unfence => Does w { w with fenced := false } r w'
    | _ => w' = w
  | .listTables, w, r, w' => w' = w ∧ ∀ tables, r = .ok tables → (fenceTable ∈ tables ↔ w.fenced = true)
  | .readRecord, w, r, w' => w' = w ∧ ∀ plan, r = .ok plan → w.work = some plan
  | .call c, w, (r : Except MigrationError Unit), w' => match c with
    | .privateWork => w' = w ∧ (r.isOk → w.work.isSome)
    | .retireWork => Does w { w with work := none, journal := none } r w'
    | _ => w' = w
  | .linkedDir unit, w, (b : Bool), w' => w' = w ∧ b = w.linked unit
  | .look path, w, r, w' => w' = w ∧ ∀ found, r = .ok found → found = w.found path
  | .place path text, w, (r : Except MigrationError Unit), w' =>
    (w.found path = .absent ∧ w' = w.put path (.file text)) ∨ r.isOk = false ∧ w' = w
  | .unlink path, w, r, w' => Does w (w.put path .absent) r w'
  | .connections, w, _, w' | .beforeDeadline, w, _, w' | .selfDigest, w, _, w' | .hostIdentity, w, _, w'
  | .approval, w, _, w' | .createDir _, w, _, w' | .stageFile, w, _, w' | .syncParent, w, _, w' => w' = w

def stepEffect : (op : JournalOp HostOp) → HostWorld → op.Reply HostOp.Reply → HostWorld → Prop
  | .directory, w, _, w' => w' = w
  | .lock, w, _, w' => w' = w
  | .load, w, r, w' => w' = w ∧ ∀ file, r = .ok file → file = w.journal
  | .stage _, w, _, w' => w' = w
  | .rename state, w, (ok : Bool), w' => w' = w.keep state ∨ ok = false ∧ w' = w
  | .syncDir, w, _, w' => w' = w
  | .host op, w, r, w' => hostEffect op w r w'

/-! ## What `--recover` finds -/

def State.listed (s : State) : List Step := s.completed ++ s.pending.toList

def HostWorld.listed (w : HostWorld) : List Step := (w.journal.map State.listed).getD []

def HostWorld.Free (w : HostWorld) (g : GuardFile) : Prop :=
  w.linked g.unit = false ∧ ∃ present : Bool, w.found (.guard g) = if present then .file g.expected else .absent

def HostWorld.Permits (w : HostWorld) (plan : Plan) : Prop :=
  w.found .permit = .absent ∨ w.found .permit = .file plan.release ∧ plan.release.utf8ByteSize ≤ 128

def HostWorld.Opens (w : HostWorld) (plan : Plan) : Prop :=
  (isIdentity plan.host && isIdentity plan.release) = true ∧
  let state := w.journal.getD (fresh plan.host plan.release)
  (state.schema = schema && state.host = plan.host && state.release = plan.release) = true ∧
  validHistory state = true

/-- `--recover` gets as far as the fence: the stored plan and the journal are accepted, and nothing is in the way
of the guards and the permit. -/
structure HostWorld.Admits (w : HostWorld) (plan : Plan) : Prop where
  work : w.work = some plan
  schema : plan.schema = "sparkplane.appliance-migration/v1"
  opens : w.Opens plan
  uncommitted : (w.journal.getD (fresh plan.host plan.release)).committed = false
  guards : ∀ g ∈ guards, w.Free g
  permits : w.Permits plan

/-! ## What is true after a success -/

section
variable {α β : Type} {j : Journal} {w : HostWorld}
  {a : HostAction} {c : PlatformCall} {b : Bool} {message text : String} {path : HostPath} {unit : UnitName}
  {g : GuardFile} {gs : List GuardFile} {s : Step} {f : State → State} {plan : Plan}

abbrev Gives (P : α → Journal → HostWorld → Prop) (x : Host α) (j : Journal) (w : HostWorld) : Prop :=
  Proc.Gives stepEffect P x j w

abbrev Exactly (j : Journal) (w : HostWorld) (_ : α) (j' : Journal) (w' : HostWorld) : Prop := j' = j ∧ w' = w

abbrev Tells (P : α → Prop) (x : Host α) (j : Journal) (w : HostWorld) : Prop :=
  Gives (fun a j' w' => j' = j ∧ w' = w ∧ P a) x j w

def HostAction.after (w : HostWorld) : HostAction → HostWorld
  | .fence => { w with fenced := true }
  | .unfence => { w with fenced := false }
  | _ => w

theorem orThrow_gives {r : Except MigrationError α} {P : α → Journal → HostWorld → Prop} (h : ∀ a, r = .ok a → P a j w) :
    Gives P (orThrow r) j w := by
  cases r with
  | ok a => exact gives_pure (h a rfl)
  | error e => exact gives_throw

theorem Does.ok {w1 w' : HostWorld} {u : Unit} (h : Does w w1 (.ok u) w') : w' = w1 := h.resolve_right fun h => nomatch h.1

theorem action_gives : Gives (Exactly j (a.after w)) (action a) j w := by
  refine gives_perform_bind fun r w' h => orThrow_gives ?_
  rintro u rfl
  refine ⟨rfl, ?_⟩
  cases a with
  | fence => exact Does.ok h
  | unfence => exact Does.ok h
  | _ => exact h

theorem call_gives (hc : c ≠ .retireWork) : Tells (fun _ => True) (call c) j w := by
  refine gives_perform_bind fun r w' h => orThrow_gives fun u hu => ⟨rfl, ?_, trivial⟩
  cases c with
  | retireWork => exact absurd rfl hc
  | privateWork => exact h.1
  | _ => exact h

theorem ensure_gives : Tells (fun _ => b = true) (ensure b message) j w := by
  cases b with
  | true => exact gives_pure ⟨rfl, rfl, rfl⟩
  | false => exact gives_throw

theorem look_gives : Tells (· = w.found path) (look path) j w := by
  refine gives_perform_bind fun r w' h => orThrow_gives fun found hfound => ?_
  exact ⟨rfl, h.1, h.2 found hfound⟩

theorem syncParent_gives : Tells (fun _ => True) syncParent j w :=
  gives_perform_bind fun _ _ h => orThrow_gives fun _ _ => ⟨rfl, h, trivial⟩

theorem linkedDir_gives : Tells (· = w.linked unit) (linkedDir unit) j w := by
  refine ⟨trivial, fun (b : Bool) w' h => ⟨trivial, fun _ hb => ?_⟩⟩
  cases hb
  exact ⟨rfl, h.1, h.2⟩

theorem unlink_gives : Gives (Exactly j (w.put path .absent)) (unlink path) j w := by
  refine gives_perform_bind fun r w' h => orThrow_gives ?_
  rintro u rfl
  exact ⟨rfl, Does.ok h⟩

theorem writePrivate_gives :
    Gives (fun _ j' w' => j' = j ∧ w.found path = .absent ∧ w' = w.put path (.file text)) (writePrivate path text) j w := by
  have hstage : Tells (fun _ => True) (do orThrow (← performHost HostOp.stageFile) : Host Unit) j w :=
    gives_perform_bind fun _ _ h => orThrow_gives fun _ _ => ⟨rfl, h, trivial⟩
  have hplace : Gives (fun _ j' w' => j' = j ∧ w.found path = .absent ∧ w' = w.put path (.file text))
      (do orThrow (← performHost (HostOp.place path text)) : Host Unit) j w := by
    refine gives_perform_bind fun r w' h => orThrow_gives ?_
    rintro u rfl
    exact ⟨rfl, h.resolve_right fun h => nomatch h.1⟩
  refine hstage.bind ?_
  rintro - j1 w1 ⟨rfl, rfl, -⟩
  refine hplace.bind ?_
  rintro - j1 w1 ⟨rfl, habsent, rfl⟩
  exact syncParent_gives.mono fun _ _ _ h => ⟨h.1, habsent, h.2.1⟩

/-! ### Guards -/

theorem check_gives :
    Tells (fun present => w.linked g.unit = false ∧ w.found (.guard g) = if present then .file g.expected else .absent)
      (check g) j w := by
  refine linkedDir_gives.bind ?_
  rintro _ j1 w1 ⟨rfl, rfl, rfl⟩
  refine ensure_gives.bind ?_
  rintro - j1 w1 ⟨rfl, rfl, hlinked⟩
  have hlinked : w1.linked g.unit = false := by simpa using hlinked
  refine look_gives.bind ?_
  rintro found j1 w1 ⟨rfl, rfl, hfound⟩
  cases found with
  | absent => exact gives_pure ⟨rfl, rfl, hlinked, hfound.symm⟩
  | link dangling => exact gives_throw
  | other => exact gives_throw
  | file text =>
    refine ensure_gives.bind ?_
    rintro - j1 w1 ⟨rfl, rfl, htext⟩
    exact gives_pure ⟨rfl, rfl, hlinked, of_decide_eq_true htext ▸ hfound.symm⟩

theorem checkAll_gives : Tells (fun _ => ∀ g ∈ gs, w.Free g) (checkAll gs) j w := by
  induction gs with
  | nil => exact gives_pure ⟨rfl, rfl, (fun _ hg => nomatch hg)⟩
  | cons g gs ih =>
    refine check_gives.bind ?_
    rintro present j1 w1 ⟨rfl, rfl, hlinked, hfound⟩
    refine ih.mono ?_
    rintro - j2 w2 ⟨rfl, rfl, hfree⟩
    exact ⟨rfl, rfl, List.forall_mem_cons.mpr ⟨⟨hlinked, present, hfound⟩, hfree⟩⟩

def HostWorld.clear (w : HostWorld) (gs : List GuardFile) : HostWorld :=
  { w with
    found := fun
      | .guard g => if g ∈ gs then .absent else w.found (.guard g)
      | .permit => w.found .permit }

theorem put_absent_clear (w : HostWorld) (g : GuardFile) (gs : List GuardFile) :
    (w.put (.guard g) .absent).clear gs = w.clear (g :: gs) := by
  simp only [HostWorld.clear, HostWorld.put, HostWorld.mk.injEq, true_and]
  funext path
  cases path with
  | permit => rfl
  | guard g' =>
    by_cases h : g' = g
    · simp [h]
    · simp [h]

theorem removeGuard_gives : Gives (Exactly j (w.put (.guard g) .absent)) (removeGuard g) j w := by
  refine check_gives.bind ?_
  rintro present j1 w1 ⟨rfl, rfl, -, hfound⟩
  cases present with
  | true =>
    refine unlink_gives.bind ?_
    rintro - j1 w1 ⟨rfl, rfl⟩
    exact syncParent_gives.mono fun _ _ _ h => ⟨h.1, h.2.1⟩
  | false =>
    have habsent : w1.found (.guard g) = .absent := hfound
    refine gives_pure ⟨rfl, ?_⟩
    rw [HostWorld.put, ← habsent, Function.update_eq_self]

theorem clear_nil (w : HostWorld) : w.clear [] = w := by
  have hfound : (w.clear []).found = w.found := by
    funext path
    cases path <;> simp [HostWorld.clear]
  exact congrArg (fun found => { w with found := found }) hfound

theorem removeEach_gives : Gives (Exactly j (w.clear gs)) (removeEach gs) j w := by
  induction gs generalizing w with
  | nil => exact gives_pure ⟨rfl, (clear_nil w).symm⟩
  | cons g gs ih =>
    refine removeGuard_gives.bind ?_
    rintro - j1 w1 ⟨rfl, rfl⟩
    rw [← put_absent_clear]
    exact ih

theorem removeGuards_gives : Gives (Exactly j (w.clear guards)) removeGuards j w := by
  refine checkAll_gives.bind ?_
  rintro - j1 w1 ⟨rfl, rfl, -⟩
  exact removeEach_gives

theorem fencePresent_gives : Tells (· = w.fenced) fencePresent j w := by
  refine gives_perform_bind fun r w' h => ?_
  refine (orThrow_gives (P := fun tables j' w' => j' = j ∧ w' = w ∧ (fenceTable ∈ tables ↔ w.fenced = true))
    fun tables htables => ⟨rfl, h.1, h.2 tables htables⟩).bind ?_
  rintro tables j1 w1 ⟨rfl, rfl, htables⟩
  refine gives_pure ⟨rfl, rfl, ?_⟩
  show (tables.any fun table => decide (table = fenceTable)) = w1.fenced
  rw [Bool.eq_iff_iff, ← htables]
  simp

/-! ### Taking the fence down -/

theorem releaseFence_gives (hpermit : w.found .permit ≠ .link true) :
    Gives (fun _ j' w' => j' = j ∧ w'.Reopened) releaseFence j w := by
  refine fencePresent_gives.bind ?_
  rintro present j1 w1 ⟨rfl, rfl, hpresent⟩
  have hunfence : Gives (Exactly j1 { w1 with fenced := false }) (actionIf present .unfence) j1 w1 := by
    cases present with
    | true => exact action_gives
    | false =>
      refine gives_pure ⟨rfl, ?_⟩
      rw [hpresent]
  refine hunfence.bind ?_
  rintro - j2 w2 ⟨rfl, rfl⟩
  refine removeGuards_gives.bind ?_
  rintro - j2 w2 ⟨rfl, rfl⟩
  refine action_gives.bind ?_
  rintro - j2 w2 ⟨rfl, rfl⟩
  refine look_gives.bind ?_
  rintro found j2 w2 ⟨rfl, rfl, hfound⟩
  have hfound : found = w1.found .permit := hfound
  have hguards : ∀ g ∈ guards, ({ w1 with fenced := false }.clear guards).found (.guard g) = .absent :=
    fun g hg => if_pos hg
  have hunlink : Gives (fun _ j' w' => j' = j2 ∧ w'.Reopened) (do unlink .permit; syncParent) j2
      (HostAction.after ({ w1 with fenced := false }.clear guards) .reloadUnits) := by
    refine unlink_gives.bind ?_
    rintro - j3 w3 ⟨rfl, rfl⟩
    refine syncParent_gives.mono ?_
    rintro - j4 w4 ⟨rfl, rfl, -⟩
    exact ⟨rfl, rfl, hguards, rfl⟩
  match found, hfound with
  | .absent, hfound => exact gives_pure ⟨rfl, rfl, hguards, hfound.symm⟩
  | .link true, hfound => exact absurd hfound.symm hpermit
  | .link false, _ => exact hunlink
  | .file _, _ => exact hunlink
  | .other, _ => exact hunlink

theorem undo_gives (hs : s ≠ .fenceTraffic) : Tells (fun _ => True) (undo s) j w := by
  have hcall : ∀ {c : PlatformCall}, c ≠ .retireWork → Tells (fun _ => True) (call c) j w := fun hc => call_gives hc
  have haction : ∀ {a : HostAction}, a.after w = w → Tells (fun _ => True) (action a) j w :=
    fun ha => action_gives.mono fun _ _ _ h => ⟨h.1, h.2.trans ha, trivial⟩
  have hthen : ∀ {x y : Host Unit}, Tells (fun _ => True) x j w → Tells (fun _ => True) y j w →
      Tells (fun _ => True) (do x; y) j w := by
    intro x y hx hy
    refine hx.bind ?_
    rintro - j1 w1 ⟨rfl, rfl, -⟩
    exact hy
  cases s with
  | fenceTraffic => exact absurd rfl hs
  | drain => exact gives_pure ⟨rfl, rfl, trivial⟩
  | stopLegacyServices => exact hthen (haction rfl) (hcall nofun)
  | snapshot => exact gives_pure ⟨rfl, rfl, trivial⟩
  | stopLegacyEngine => exact hcall nofun
  | relocate => exact hthen (hcall nofun) (hthen (hcall nofun) (hthen (hcall nofun) (haction rfl)))
  | activate => exact hthen (haction rfl) (hcall nofun)
  | qualify => exact gives_pure ⟨rfl, rfl, trivial⟩

theorem undo_fence_gives (hpermit : w.found .permit ≠ .link true) :
    Gives (fun _ j' w' => j' = j ∧ w'.Reopened) (undo .fenceTraffic) j w := by
  refine (call_gives (c := .healthy true) nofun).bind ?_
  rintro - j1 w1 ⟨rfl, rfl, -⟩
  exact releaseFence_gives hpermit

/-! ### The journal -/

theorem save_gives : Gives (fun _ j' w' => j' = ⟨j.state, false⟩ ∧ w' = w.keep j.state) save j w := by
  unfold Gives Proc.Gives Safe
  rw [save_eq]
  refine ⟨trivial, fun (staged : Bool) w1 hstage => ?_⟩
  obtain rfl : w1 = w := hstage
  cases staged with
  | false => exact ⟨trivial, nofun⟩
  | true =>
    refine ⟨trivial, fun (renamed : Bool) w2 hrename => ?_⟩
    cases renamed with
    | false => exact ⟨trivial, nofun⟩
    | true =>
      obtain rfl : w2 = w1.keep j.state := hrename.resolve_right fun h => nomatch h.1
      refine ⟨trivial, fun (synced : Bool) w3 hsync => ?_⟩
      cases synced with
      | false => exact ⟨trivial, nofun⟩
      | true => exact ⟨trivial, fun _ _ => ⟨rfl, hsync⟩⟩

theorem update_gives : Gives (fun _ j' w' => j' = ⟨f j.state, false⟩ ∧ w' = w.keep (f j.state)) (update f) j w :=
  save_gives (j := { j with state := f j.state })

structure Retreat (j : Journal) (w : HostWorld) : Prop where
  completed : j.state.completed <+: steps
  permit : w.found .permit ≠ .link true
  reopened : j.state.completed = [] → w.Reopened

theorem HostWorld.Reopened.permit (h : w.Reopened) : w.found .permit ≠ .link true := by
  rw [h.2.2]
  exact nofun

theorem undo_listed_gives {before : List Step} (hs : before ++ [s] <+: steps) (hpermit : w.found .permit ≠ .link true) :
    Gives (fun _ j' w' => j' = j ∧ w'.found .permit ≠ .link true ∧ (before = [] → w'.Reopened)) (undo s) j w := by
  by_cases hfence : s = .fenceTraffic
  · subst hfence
    exact (undo_fence_gives hpermit).mono fun _ _ _ h => ⟨h.1, h.2.permit, fun _ => h.2⟩
  · refine (undo_gives hfence).mono ?_
    rintro - j1 w1 ⟨rfl, rfl, -⟩
    refine ⟨rfl, hpermit, ?_⟩
    rintro rfl
    exact absurd (List.cons_prefix_cons.mp hs).1 hfence

theorem undoCompleted_gives {n : Nat} : ∀ {j : Journal} {w : HostWorld}, Retreat j w → j.state.completed.length = n →
    Gives (fun _ _ w' => w'.Reopened) (undoCompleted undo n) j w := by
  induction n with
  | zero =>
    intro j w hr hn
    exact gives_pure (hr.reopened (List.length_eq_zero_iff.mp hn))
  | succ n ih =>
    intro j w hr hn
    obtain ⟨before, s, hcompleted⟩ : ∃ before s, j.state.completed = before ++ [s] :=
      (List.eq_nil_or_concat' _).resolve_left fun h => by simp [h] at hn
    refine gives_get_bind ?_
    rw [hcompleted, List.getLast?_concat]
    have hlisted : before ++ [s] <+: steps := hcompleted ▸ hr.completed
    refine (undo_listed_gives hlisted hr.permit).bind ?_
    rintro - j1 w1 ⟨rfl, hpermit, hreopened⟩
    refine update_gives.bind ?_
    rintro - j2 w2 ⟨rfl, rfl⟩
    have hbefore : j1.state.completed.dropLast = before := by rw [hcompleted, List.dropLast_concat]
    refine ih ⟨?_, hpermit, fun h => hreopened (hbefore.symm.trans h)⟩ ?_
    · exact hbefore ▸ (List.prefix_append before [s]).trans hlisted
    · simp only [hbefore]
      simpa [hcompleted] using hn

theorem undoPending_gives (hcompleted : j.state.completed <+: steps)
    (hpending : ∀ s, j.state.pending = some s → j.state.completed ++ [s] <+: steps)
    (hlisted : j.state.completed = [] → j.state.pending ≠ none) (hpermit : w.found .permit ≠ .link true) :
    Gives (fun _ j' w' => Retreat j' w') (undoPending undo) j w := by
  refine gives_get_bind ?_
  cases hp : j.state.pending with
  | none => exact gives_pure ⟨hcompleted, hpermit, fun h => absurd hp (hlisted h)⟩
  | some s =>
    refine (undo_listed_gives (hpending s hp) hpermit).bind ?_
    rintro - j1 w1 ⟨rfl, hpermit1, hreopened⟩
    refine update_gives.mono ?_
    rintro - j2 w2 ⟨rfl, rfl⟩
    exact ⟨hcompleted, hpermit1, hreopened⟩

theorem requireDurable_gives : Tells (fun _ => j.poisoned = false) requireDurable j w :=
  gives_get_bind (ensure_gives.mono fun _ _ _ h => ⟨h.1, h.2.1, by simpa using h.2.2⟩)

theorem committed_gives : Tells (· = j.state.committed) committed j w := by
  refine requireDurable_gives.bind ?_
  rintro - j1 w1 ⟨rfl, rfl, -⟩
  exact gives_get_bind (gives_pure ⟨rfl, rfl, rfl⟩)

theorem validHistory_prefix {s : State} (h : validHistory s = true) : s.completed <+: steps ∧
    ∀ step, s.pending = some step → s.completed ++ [step] <+: steps := by
  simp only [validHistory, Bool.and_eq_true, List.isPrefixOf_iff_prefix] at h
  refine ⟨h.1.1, fun step hstep => Saga.prefix_snoc h.1.1 ?_⟩
  simpa [hstep] using h.1.2

theorem recover_gives (hvalid : validHistory j.state = true) (hlisted : j.state.listed ≠ [])
    (hpermit : w.found .permit ≠ .link true) : Gives (fun _ _ w' => w'.Reopened) (recover undo) j w := by
  obtain ⟨hcompleted, hpending⟩ := validHistory_prefix hvalid
  refine requireDurable_gives.bind ?_
  rintro - j1 w1 ⟨rfl, rfl, -⟩
  refine gives_get_bind (ensure_gives.bind ?_)
  rintro - j2 w2 ⟨rfl, rfl, -⟩
  refine update_gives.bind ?_
  rintro - j3 w3 ⟨rfl, rfl⟩
  have hnonempty : j2.state.completed = [] → j2.state.pending ≠ none := by
    intro hempty hnone
    exact hlisted (by rw [State.listed, hempty, hnone]; rfl)
  refine (undoPending_gives (j := ⟨{ j2.state with rollingBack := true }, false⟩) (w := w2.keep _) hcompleted hpending
    hnonempty hpermit).bind fun _ j4 w4 hr => ?_
  refine gives_get_bind ((undoCompleted_gives hr rfl).bind fun _ j5 w5 hreopened => ?_)
  refine update_gives.mono ?_
  rintro - j6 w6 ⟨rfl, rfl⟩
  exact hreopened

/-! ### `--recover` -/

theorem permit_gives :
    Gives (fun _ j' w' => j' = j ∧ w.Permits plan ∧ w'.found .permit ≠ .link true) (permit plan) j w := by
  refine look_gives.bind ?_
  rintro found j1 w1 ⟨rfl, rfl, hfound⟩
  have hwrite : Gives (fun _ j' w' => j' = j1 ∧ w1.Permits plan ∧ w'.found .permit ≠ .link true)
      (writePrivate .permit plan.release) j1 w1 := by
    refine writePrivate_gives.mono ?_
    rintro - j2 w2 ⟨rfl, habsent, rfl⟩
    exact ⟨rfl, .inl habsent, nofun⟩
  match found, hfound with
  | .absent, _ => exact hwrite
  | .link true, _ => exact hwrite
  | .link false, _ => exact gives_throw
  | .other, _ => exact gives_throw
  | .file text, hfound =>
    refine ensure_gives.bind ?_
    rintro - j2 w2 ⟨rfl, rfl, hsize⟩
    refine ensure_gives.mono ?_
    rintro - j3 w3 ⟨rfl, rfl, hsame⟩
    obtain rfl : text = plan.release := of_decide_eq_true hsame
    exact ⟨rfl, .inr ⟨hfound.symm, of_decide_eq_true hsize⟩, fun h => nomatch hfound.trans h⟩

def Aside (x : Host α) : Prop := ∀ j w, Gives (fun _ j' w' => j' = j ∧ w'.found .permit = w.found .permit) x j w

theorem Aside.bind {x : Host α} {f : α → Host β} (hx : Aside x) (hf : ∀ a, Aside (f a)) : Aside (x >>= f) := by
  refine fun j w => (hx j w).bind ?_
  rintro a j1 w1 ⟨rfl, h1⟩
  exact (hf a j1 w1).mono fun _ _ _ h => ⟨h.1, h.2.trans h1⟩

theorem aside_of_tells {x : Host α} {P : α → HostWorld → Prop} (h : ∀ j w, Tells (P · w) x j w) : Aside x := by
  refine fun j w => (h j w).mono ?_
  rintro a j1 w1 ⟨rfl, rfl, -⟩
  exact ⟨rfl, rfl⟩

theorem aside_action (a : HostAction) : Aside (action a) := by
  refine fun j w => action_gives.mono ?_
  rintro - j1 w1 ⟨rfl, rfl⟩
  cases a <;> exact ⟨rfl, rfl⟩

theorem aside_actionIf (b : Bool) (a : HostAction) : Aside (actionIf b a) := by
  cases b with
  | true => exact aside_action a
  | false => exact fun _ _ => gives_pure ⟨rfl, rfl⟩

theorem aside_installGuard (g : GuardFile) : Aside (installGuard g) := by
  have hplace : ∀ present, Aside (placeUnless present g) := by
    rintro (_ | _) j w
    · refine writePrivate_gives.mono ?_
      rintro - j1 w1 ⟨rfl, -, rfl⟩
      exact ⟨rfl, rfl⟩
    · exact gives_pure ⟨rfl, rfl⟩
  have hsync : Aside syncParent := aside_of_tells fun _ _ => syncParent_gives
  have hcreate : Aside (createDir g.unit) := fun _ _ =>
    gives_perform_bind fun _ w' h => orThrow_gives fun _ _ => ⟨rfl, congrArg (HostWorld.found · .permit) h⟩
  exact (aside_of_tells fun _ _ => linkedDir_gives).bind fun _ => (aside_of_tells fun _ _ => ensure_gives).bind fun _ =>
    hcreate.bind fun _ => (aside_of_tells fun _ _ => check_gives).bind fun _ => (hplace _).bind fun _ =>
    hsync.bind fun _ => hsync

theorem aside_installEach (gs : List GuardFile) : Aside (installEach gs) := by
  induction gs with
  | nil => exact fun _ _ => gives_pure ⟨rfl, rfl⟩
  | cons g gs ih => exact (aside_installGuard g).bind fun _ => ih

theorem restoreFence_gives :
    Gives (fun _ j' w' => j' = j ∧ (∀ g ∈ guards, w.Free g) ∧ w.Permits plan ∧ w'.found .permit ≠ .link true)
      (restoreFence plan) j w := by
  have hinstall : Gives (fun _ j' w' => j' = j ∧ (∀ g ∈ guards, w.Free g) ∧ w'.found .permit = w.found .permit)
      installGuards j w := by
    refine checkAll_gives.bind ?_
    rintro - j1 w1 ⟨rfl, rfl, hfree⟩
    exact (aside_installEach guards j1 w1).mono fun _ _ _ h => ⟨h.1, hfree, h.2⟩
  refine hinstall.bind ?_
  rintro - j1 w1 ⟨rfl, hfree, hsame⟩
  refine (aside_action .reloadUnits j1 w1).bind ?_
  rintro - j2 w2 ⟨rfl, hsame2⟩
  refine fencePresent_gives.bind ?_
  rintro present j3 w3 ⟨rfl, rfl, -⟩
  refine (aside_actionIf (!present) .fence j3 w3).bind ?_
  rintro - j4 w4 ⟨rfl, hsame4⟩
  refine (aside_action .sealTraffic j4 w4).bind ?_
  rintro - j5 w5 ⟨rfl, hsame5⟩
  refine permit_gives.mono ?_
  rintro - j6 w6 ⟨rfl, hpermits, hpermit⟩
  have hfound : w5.found .permit = w.found .permit := hsame5.trans (hsame4.trans (hsame2.trans hsame))
  rw [HostWorld.Permits, hfound] at hpermits
  exact ⟨rfl, hfree, hpermits, hpermit⟩

theorem orThrow_tells {r : Except MigrationError α} {P : α → Prop} (h : ∀ a, r = .ok a → P a) : Tells P (orThrow r) j w :=
  orThrow_gives fun a ha => ⟨rfl, rfl, h a ha⟩

theorem lock_tells : Tells (fun _ => True) (must lock) j w := by
  refine ⟨trivial, fun (locked : Bool) w1 hlock => ?_⟩
  cases locked with
  | true => exact ⟨trivial, fun _ _ => ⟨rfl, hlock, trivial⟩⟩
  | false => exact ⟨trivial, nofun⟩

theorem openAt_gives : Gives (fun _ j' w' => j'.state = w.journal.getD (fresh plan.host plan.release) ∧ w.Opens plan ∧
      w' = w.keep j'.state) (openAt plan.host plan.release) j w := by
  refine ensure_gives.bind ?_
  rintro - j1 w1 ⟨rfl, rfl, hidentity⟩
  refine gives_perform_bind fun r w2 hdir => ?_
  obtain rfl : w2 = w1 := hdir
  refine (orThrow_tells (P := fun _ => True) fun _ _ => trivial).bind ?_
  rintro owned j2 w3 ⟨rfl, rfl, -⟩
  refine ensure_gives.bind ?_
  rintro - j3 w4 ⟨rfl, rfl, -⟩
  refine lock_tells.bind ?_
  rintro - j4 w5 ⟨rfl, rfl, -⟩
  refine gives_perform_bind fun r w6 hload => ?_
  obtain ⟨rfl, hload⟩ := hload
  refine (orThrow_tells hload).bind ?_
  rintro found j5 w7 ⟨rfl, rfl, rfl⟩
  refine ensure_gives.bind ?_
  rintro - j6 w8 ⟨rfl, rfl, hsame⟩
  refine ensure_gives.bind ?_
  rintro - j7 w9 ⟨rfl, rfl, hvalid⟩
  refine safe_set_bind (save_gives.mono ?_)
  rintro - j8 w' ⟨rfl, rfl⟩
  exact ⟨rfl, ⟨hidentity, hsame, hvalid⟩, rfl⟩

theorem storedPlan_gives :
    Tells (fun p => w.work = some p.1 ∧ p.1.schema = "sparkplane.appliance-migration/v1") storedPlan j w := by
  refine (call_gives (c := .privateBase) nofun).bind ?_
  rintro - j1 w1 ⟨rfl, rfl, -⟩
  refine (call_gives (c := .lockBase) nofun).bind ?_
  rintro - j2 w2 ⟨rfl, rfl, -⟩
  refine (call_gives (c := .privateWork) nofun).bind ?_
  rintro - j3 w3 ⟨rfl, rfl, -⟩
  refine gives_perform_bind fun record w4 hrecord => ?_
  obtain ⟨rfl, hrecord⟩ := hrecord
  refine (orThrow_tells hrecord).bind ?_
  rintro plan j4 w5 ⟨rfl, rfl, hplan⟩
  refine gives_perform_bind fun digest w6 hdigest => ?_
  obtain rfl : w6 = w5 := hdigest
  refine (orThrow_tells (P := fun _ => True) fun _ _ => trivial).bind ?_
  rintro executable j5 w7 ⟨rfl, rfl, -⟩
  refine ensure_gives.bind ?_
  rintro - j6 w8 ⟨rfl, rfl, hschema⟩
  refine gives_perform_bind fun identity w9 hidentity => ?_
  obtain rfl : w9 = w8 := hidentity
  refine (orThrow_tells (P := fun _ => True) fun _ _ => trivial).bind ?_
  rintro host j7 w₁₀ ⟨rfl, rfl, -⟩
  refine ensure_gives.bind ?_
  rintro - j8 w₁₁ ⟨rfl, rfl, -⟩
  refine gives_perform_bind fun approval w₁₂ happroval => ?_
  obtain rfl : w₁₂ = w₁₁ := happroval
  refine (orThrow_tells (P := fun _ => True) fun _ _ => trivial).bind ?_
  rintro approved j9 w₁₃ ⟨rfl, rfl, -⟩
  refine ensure_gives.bind ?_
  rintro - j₁₀ w₁₄ ⟨rfl, rfl, -⟩
  exact gives_pure ⟨rfl, rfl, hplan, of_decide_eq_true hschema⟩

theorem handOff_gives {approved : Bool} : Tells (fun _ => True) (handOff approved) j w := by
  cases approved with
  | false => exact gives_pure ⟨rfl, rfl, trivial⟩
  | true =>
    refine Proc.Gives.bind (P := fun _ j' w' => j' = j ∧ w' = w) (gives_get_bind (gives_pure ⟨rfl, rfl⟩)) ?_
    rintro ready j1 w1 ⟨rfl, rfl⟩
    refine ensure_gives.bind ?_
    rintro - j2 w2 ⟨rfl, rfl, -⟩
    refine (call_gives (c := .applyApproval) nofun).bind ?_
    rintro - j3 w3 ⟨rfl, rfl, -⟩
    exact call_gives nofun

theorem retireWork_gives (h : w.Reopened) : Gives (fun _ _ w' => w'.Reopened) (call .retireWork) j w := by
  refine gives_perform_bind fun r w' hretire => orThrow_gives ?_
  rintro u rfl
  rw [Does.ok hretire]
  exact h

theorem listed_of_opened (h : j.state = w.journal.getD (fresh plan.host plan.release)) : w.listed = j.state.listed := by
  rw [h, HostWorld.listed]
  cases w.journal <;> rfl

theorem dispatchRecover_gives :
    Gives (fun _ _ w' => (∃ plan, w.Admits plan) ∧ (w.listed ≠ [] → w'.Reopened)) dispatchRecover j w := by
  refine storedPlan_gives.bind ?_
  rintro ⟨plan, approved⟩ j1 w1 ⟨rfl, rfl, hwork, hschema⟩
  refine openAt_gives.bind ?_
  rintro - j2 w2 ⟨hstate, hopens, rfl⟩
  refine handOff_gives.bind ?_
  rintro - j3 w3 ⟨rfl, rfl, -⟩
  refine committed_gives.bind ?_
  rintro _ j4 w4 ⟨rfl, rfl, rfl⟩
  refine ensure_gives.bind ?_
  rintro - j5 w5 ⟨rfl, rfl, hcommitted⟩
  refine restoreFence_gives.bind ?_
  rintro - j6 w6 ⟨rfl, hfree, hpermits, hpermit⟩
  have hadmits : w1.Admits plan := ⟨hwork, hschema, hopens, by simpa [← hstate] using hcommitted, hfree, hpermits⟩
  have hvalid : validHistory j6.state = true := hstate ▸ hopens.2.2
  by_cases hlisted : w1.listed = []
  · exact gives_of_forall fun _ _ _ => ⟨⟨plan, hadmits⟩, absurd hlisted⟩
  · refine (recover_gives hvalid (listed_of_opened hstate ▸ hlisted) hpermit).bind fun _ j7 w7 hreopened => ?_
    refine (retireWork_gives hreopened).bind fun _ j8 w8 hreopened => ?_
    exact (call_gives (c := .syncBase) nofun).mono fun _ _ _ h => ⟨⟨plan, hadmits⟩, fun _ => h.2.1 ▸ hreopened⟩

end

/-! ## Successes that leave the fence up -/

section
variable {α : Type} {j : Journal} {w : HostWorld}
  {a : HostAction} {c : PlatformCall} {b : Bool} {message text : String} {path : HostPath} {unit : UnitName}
  {g : GuardFile} {gs : List GuardFile} {f : State → State} {plan : Plan}

abbrev Can (P : α → Journal → HostWorld → Prop) (x : Host α) (j : Journal) (w : HostWorld) : Prop :=
  Proc.Can stepEffect P x j w

theorem can_action : Can (Exactly j (a.after w)) (action a) j w := by
  have heffect : stepEffect (.host (.action a)) w (.ok () : Except MigrationError Unit) (a.after w) := by
    cases a with
    | fence => exact .inl rfl
    | unfence => exact .inl rfl
    | _ => rfl
  exact can_perform_bind heffect (can_pure ⟨rfl, rfl⟩)

theorem can_fence : Can (Exactly j { w with fenced := true }) (actionIf (!w.fenced) .fence) j w := by
  cases h : w.fenced with
  | false => exact can_action
  | true => exact can_pure ⟨rfl, by rw [← h]⟩

theorem can_call (hc : c ≠ .retireWork) (hw : c = .privateWork → w.work.isSome) : Can (Exactly j w) (call c) j w := by
  have heffect : stepEffect (.host (.call c)) w (.ok () : Except MigrationError Unit) w := by
    cases c with
    | retireWork => exact absurd rfl hc
    | privateWork => exact ⟨rfl, fun _ => hw rfl⟩
    | _ => rfl
  exact can_perform_bind heffect (can_pure ⟨rfl, rfl⟩)

theorem can_retireWork : Can (fun _ _ w' => w'.fenced = w.fenced) (call .retireWork) j w :=
  can_perform_bind (r := .ok ()) (.inl rfl) (can_pure rfl)

theorem can_orThrow {a : α} : Can (fun b j' w' => j' = j ∧ w' = w ∧ b = a) (orThrow (.ok a)) j w :=
  can_pure ⟨rfl, rfl, rfl⟩

theorem can_ensure (h : b = true) : Can (Exactly j w) (ensure b message) j w := by
  subst h
  exact can_pure ⟨rfl, rfl⟩

theorem can_look : Can (fun found j' w' => j' = j ∧ w' = w ∧ found = w.found path) (look path) j w :=
  can_perform_bind (r := .ok (w.found path)) ⟨rfl, fun _ h => (Except.ok.inj h).symm⟩ (can_pure ⟨rfl, rfl, rfl⟩)

theorem can_syncParent : Can (Exactly j w) syncParent j w :=
  can_perform_bind (r := .ok ()) rfl (can_pure ⟨rfl, rfl⟩)

theorem can_createDir : Can (Exactly j w) (createDir unit) j w :=
  can_perform_bind (r := .ok ()) rfl (can_pure ⟨rfl, rfl⟩)

theorem can_linkedDir (h : w.linked unit = false) :
    Can (fun linked j' w' => j' = j ∧ w' = w ∧ linked = false) (linkedDir unit) j w :=
  ⟨false, w, ⟨rfl, h.symm⟩, false, rfl, rfl, rfl, rfl⟩

theorem can_writePrivate (h : w.found path = .absent) :
    Can (Exactly j (w.put path (.file text))) (writePrivate path text) j w := by
  have hstage : Can (Exactly j w) (do orThrow (← performHost HostOp.stageFile) : Host Unit) j w :=
    can_perform_bind (r := .ok ()) rfl (can_pure ⟨rfl, rfl⟩)
  have hplace : Can (Exactly j (w.put path (.file text)))
      (do orThrow (← performHost (HostOp.place path text)) : Host Unit) j w :=
    can_perform_bind (r := .ok ()) (.inl ⟨h, rfl⟩) (can_pure ⟨rfl, rfl⟩)
  refine hstage.bind ?_
  rintro - j1 w1 ⟨rfl, rfl⟩
  refine hplace.bind ?_
  rintro - j1 w1 ⟨rfl, rfl⟩
  exact can_syncParent

/-! ### Guards -/

theorem can_check {present : Bool} (hlinked : w.linked g.unit = false)
    (hfound : w.found (.guard g) = if present then .file g.expected else .absent) :
    Can (fun b j' w' => j' = j ∧ w' = w ∧ b = present) (check g) j w := by
  refine (can_linkedDir hlinked).bind ?_
  rintro _ j1 w1 ⟨rfl, rfl, rfl⟩
  refine (can_ensure rfl).bind ?_
  rintro - j2 w2 ⟨rfl, rfl⟩
  refine can_look.bind ?_
  rintro found j3 w3 ⟨rfl, rfl, hlook⟩
  rw [hfound] at hlook
  subst hlook
  cases present with
  | false => exact can_pure ⟨rfl, rfl, rfl⟩
  | true =>
    refine (can_ensure (decide_eq_true rfl)).bind ?_
    rintro - j4 w4 ⟨rfl, rfl⟩
    exact can_pure ⟨rfl, rfl, rfl⟩

theorem can_checkAll (h : ∀ g ∈ gs, w.Free g) : Can (Exactly j w) (checkAll gs) j w := by
  induction gs with
  | nil => exact can_pure ⟨rfl, rfl⟩
  | cons g gs ih =>
    obtain ⟨hlinked, present, hfound⟩ := h g (.head _)
    refine (can_check hlinked hfound).bind ?_
    rintro _ j1 w1 ⟨rfl, rfl, -⟩
    exact ih fun g' hg' => h g' (.tail _ hg')

theorem can_installGuard (h : w.Free g) :
    Can (Exactly j (w.put (.guard g) (.file g.expected))) (installGuard g) j w := by
  obtain ⟨hlinked, present, hfound⟩ := h
  refine (can_linkedDir hlinked).bind ?_
  rintro _ j1 w1 ⟨rfl, rfl, rfl⟩
  refine (can_ensure rfl).bind ?_
  rintro - j2 w2 ⟨rfl, rfl⟩
  refine can_createDir.bind ?_
  rintro - j3 w3 ⟨rfl, rfl⟩
  refine (can_check hlinked hfound).bind ?_
  rintro present j4 w4 ⟨rfl, rfl, rfl⟩
  have hplace : Can (Exactly j4 (w4.put (.guard g) (.file g.expected))) (placeUnless present g) j4 w4 := by
    cases present with
    | false => exact can_writePrivate hfound
    | true =>
      have hpresent : w4.found (.guard g) = .file g.expected := hfound
      refine can_pure ⟨rfl, ?_⟩
      rw [HostWorld.put, ← hpresent, Function.update_eq_self]
  refine hplace.bind ?_
  rintro - j5 w5 ⟨rfl, rfl⟩
  refine can_syncParent.bind ?_
  rintro - j6 w6 ⟨rfl, rfl⟩
  exact can_syncParent

theorem HostWorld.Free.put {g' : GuardFile} (h : w.Free g) : (w.put (.guard g') (.file g'.expected)).Free g := by
  refine ⟨h.1, ?_⟩
  by_cases hg : g = g'
  · subst hg
    exact ⟨true, by simp [HostWorld.put]⟩
  · obtain ⟨present, hfound⟩ := h.2
    exact ⟨present, by simpa [HostWorld.put, hg] using hfound⟩

theorem can_installEach (h : ∀ g ∈ gs, w.Free g) :
    Can (fun _ j' w' => j' = j ∧ w'.found .permit = w.found .permit) (installEach gs) j w := by
  induction gs generalizing w with
  | nil => exact can_pure ⟨rfl, rfl⟩
  | cons g gs ih =>
    refine (can_installGuard (h g (.head _))).bind ?_
    rintro - j1 w1 ⟨rfl, rfl⟩
    exact ih fun g' hg' => (h g' (.tail _ hg')).put

theorem can_installGuards (h : ∀ g ∈ guards, w.Free g) :
    Can (fun _ j' w' => j' = j ∧ w'.found .permit = w.found .permit) installGuards j w := by
  refine (can_checkAll h).bind ?_
  rintro - j1 w1 ⟨rfl, rfl⟩
  exact can_installEach h

/-! ### The fence -/

theorem can_fencePresent : Can (fun present j' w' => j' = j ∧ w' = w ∧ present = w.fenced) fencePresent j w := by
  have heffect : stepEffect (.host .listTables) w
      (.ok (if w.fenced then [fenceTable] else []) : Except MigrationError (List String)) w := by
    refine ⟨rfl, ?_⟩
    rintro _ ⟨⟩
    cases w.fenced <;> simp
  refine can_perform_bind heffect (can_pure ⟨rfl, rfl, ?_⟩)
  cases w.fenced <;> simp

theorem can_permit (h : w.Permits plan) : Can (fun _ j' w' => j' = j ∧ w'.fenced = w.fenced) (permit plan) j w := by
  refine can_look.bind ?_
  rintro found j1 w1 ⟨rfl, rfl, hlook⟩
  rcases h with habsent | ⟨hfile, hsize⟩
  · rw [habsent] at hlook
    subst hlook
    refine (can_writePrivate habsent).mono ?_
    rintro - j2 w2 ⟨rfl, rfl⟩
    exact ⟨rfl, rfl⟩
  · rw [hfile] at hlook
    subst hlook
    refine (can_ensure (decide_eq_true hsize)).bind ?_
    rintro - j2 w2 ⟨rfl, rfl⟩
    refine (can_ensure (decide_eq_true rfl)).mono ?_
    rintro - j3 w3 ⟨rfl, rfl⟩
    exact ⟨rfl, rfl⟩

theorem can_restoreFence (hguards : ∀ g ∈ guards, w.Free g) (hpermit : w.Permits plan) :
    Can (fun _ j' w' => j' = j ∧ w'.fenced = true) (restoreFence plan) j w := by
  refine (can_installGuards hguards).bind ?_
  rintro - j1 w1 ⟨rfl, hsame⟩
  refine can_action.bind ?_
  rintro - j2 w2 ⟨rfl, rfl⟩
  refine can_fencePresent.bind ?_
  rintro present j3 w3 ⟨rfl, rfl, rfl⟩
  refine can_fence.bind ?_
  rintro - j4 w4 ⟨rfl, rfl⟩
  refine can_action.bind ?_
  rintro - j5 w5 ⟨rfl, rfl⟩
  have hpermit1 : { w3 with fenced := true }.Permits plan := by
    unfold HostWorld.Permits
    rw [hsame]
    exact hpermit
  exact can_permit hpermit1

/-! ### The journal -/

theorem can_save : Can (fun _ j' w' => j' = ⟨j.state, false⟩ ∧ w' = w.keep j.state) save j w := by
  unfold Can Proc.Can
  rw [save_eq]
  exact ⟨true, w, rfl, true, w.keep j.state, .inl rfl, true, _, rfl, (), rfl, rfl, rfl⟩

theorem can_update : Can (fun _ j' w' => j' = ⟨f j.state, false⟩ ∧ w' = w.keep (f j.state)) (update f) j w :=
  can_save (j := { j with state := f j.state })

theorem can_requireDurable (h : j.poisoned = false) : Can (Exactly j w) requireDurable j w :=
  can_get_bind (can_ensure (by rw [h]; rfl))

theorem can_committed (h : j.poisoned = false) :
    Can (fun committed j' w' => j' = j ∧ w' = w ∧ committed = j.state.committed) committed j w := by
  refine (can_requireDurable h).bind ?_
  rintro - j1 w1 ⟨rfl, rfl⟩
  exact can_get_bind (can_pure ⟨rfl, rfl, rfl⟩)

theorem can_undoPending (h : j.state.pending = none) : Can (Exactly j w) (undoPending undo) j w := by
  refine can_get_bind ?_
  rw [h]
  exact can_pure ⟨rfl, rfl⟩

theorem can_undoCompleted (h : j.state.completed = []) :
    Can (Exactly j w) (undoCompleted undo j.state.completed.length) j w := by
  rw [h]
  exact can_pure ⟨rfl, rfl⟩

theorem can_recover (hp : j.poisoned = false) (hcommitted : j.state.committed = false) (hlisted : j.state.listed = []) :
    Can (fun _ _ w' => w'.fenced = w.fenced) (recover undo) j w := by
  obtain ⟨hcompleted, hpending⟩ := List.append_eq_nil_iff.mp hlisted
  refine (can_requireDurable hp).bind ?_
  rintro - j1 w1 ⟨rfl, rfl⟩
  refine can_get_bind ((can_ensure (by rw [hcommitted]; rfl)).bind ?_)
  rintro - j2 w2 ⟨rfl, rfl⟩
  refine can_update.bind fun _ j3 w3 h3 => ?_
  have hcompleted3 : j3.state.completed = [] := h3.1 ▸ hcompleted
  have hpending3 : j3.state.pending = none := h3.1 ▸ Option.toList_eq_nil_iff.mp hpending
  refine (can_undoPending hpending3).bind ?_
  rintro - j4 w4 ⟨rfl, rfl⟩
  refine can_get_bind ((can_undoCompleted hcompleted3).bind ?_)
  rintro - j5 w5 ⟨rfl, rfl⟩
  refine can_update.mono ?_
  rintro - j6 w6 ⟨rfl, rfl⟩
  rw [h3.2]
  rfl

/-! ### `--recover` -/

theorem can_openAt (h : w.Opens plan) :
    Can (fun _ j' w' => j' = ⟨w.journal.getD (fresh plan.host plan.release), false⟩ ∧ w' = w.keep j'.state)
      (openAt plan.host plan.release) j w := by
  obtain ⟨hidentity, hsame, hvalid⟩ := h
  refine (can_ensure hidentity).bind ?_
  rintro - j1 w1 ⟨rfl, rfl⟩
  refine can_perform_bind (r := .ok true) rfl (can_orThrow.bind ?_)
  rintro _ j2 w2 ⟨rfl, rfl, rfl⟩
  refine (can_ensure rfl).bind ?_
  rintro - j2 w2 ⟨rfl, rfl⟩
  have hlock : Can (Exactly j2 w2) (must lock) j2 w2 := ⟨true, w2, rfl, (), rfl, rfl, rfl⟩
  refine hlock.bind ?_
  rintro - j3 w3 ⟨rfl, rfl⟩
  refine can_perform_bind (r := .ok w3.journal) ⟨rfl, fun _ h => (Except.ok.inj h).symm⟩ (can_orThrow.bind ?_)
  rintro _ j4 w4 ⟨rfl, rfl, rfl⟩
  refine (can_ensure hsame).bind ?_
  rintro - j4 w4 ⟨rfl, rfl⟩
  refine (can_ensure hvalid).bind ?_
  rintro - j5 w5 ⟨rfl, rfl⟩
  refine can_set_bind (can_save.mono ?_)
  rintro - j6 w6 ⟨rfl, rfl⟩
  exact ⟨rfl, rfl⟩

theorem can_storedPlan (hwork : w.work = some plan) (hschema : plan.schema = "sparkplane.appliance-migration/v1") :
    Can (fun p j' w' => j' = j ∧ w' = w ∧ p = (plan, false)) storedPlan j w := by
  have hsome : w.work.isSome := by rw [hwork]; rfl
  refine (can_call (c := .privateBase) nofun nofun).bind ?_
  rintro - j1 w1 ⟨rfl, rfl⟩
  refine (can_call (c := .lockBase) nofun nofun).bind ?_
  rintro - j2 w2 ⟨rfl, rfl⟩
  refine (can_call (c := .privateWork) nofun fun _ => hsome).bind ?_
  rintro - j3 w3 ⟨rfl, rfl⟩
  refine can_perform_bind (r := .ok plan) ⟨rfl, fun _ h => hwork.trans (congrArg some (Except.ok.inj h))⟩ ?_
  refine can_perform_bind (r := .ok plan.executable) rfl ?_
  refine (can_ensure (decide_eq_true hschema)).bind ?_
  rintro - j4 w4 ⟨rfl, rfl⟩
  refine can_perform_bind (r := .ok plan.host) rfl ?_
  refine (can_ensure (decide_eq_true rfl)).bind ?_
  rintro - j5 w5 ⟨rfl, rfl⟩
  refine can_perform_bind (r := .ok false) rfl ?_
  refine (can_ensure (decide_eq_true rfl)).bind ?_
  rintro - j6 w6 ⟨rfl, rfl⟩
  exact can_pure ⟨rfl, rfl, rfl⟩

theorem can_dispatchRecover (h : w.Admits plan) (hlisted : w.listed = []) :
    Can (fun _ _ w' => w'.fenced = true) dispatchRecover j w := by
  refine (can_storedPlan h.work h.schema).bind ?_
  rintro _ j1 w1 ⟨rfl, rfl, rfl⟩
  refine (can_openAt h.opens).bind fun _ j2 w2 h2 => ?_
  obtain ⟨hj2, rfl⟩ := h2
  have hlisted2 : j2.state.listed = [] := (listed_of_opened (congrArg state hj2)).symm.trans hlisted
  have hcommitted : j2.state.committed = false := hj2 ▸ h.uncommitted
  have hpoisoned : j2.poisoned = false := hj2 ▸ rfl
  have hhandOff : Can (Exactly j2 (w1.keep j2.state)) (handOff false) j2 (w1.keep j2.state) :=
    can_pure ⟨rfl, rfl⟩
  refine hhandOff.bind ?_
  rintro - j3 w3 ⟨rfl, rfl⟩
  refine (can_committed hpoisoned).bind ?_
  rintro _ j4 w4 ⟨rfl, rfl, rfl⟩
  refine (can_ensure (by rw [hcommitted]; rfl)).bind ?_
  rintro - j5 w5 ⟨rfl, rfl⟩
  refine (can_restoreFence (w := w1.keep j5.state) h.guards h.permits).bind ?_
  rintro - j6 w6 ⟨rfl, hfenced⟩
  refine (can_recover hpoisoned hcommitted hlisted2).bind fun _ j7 w7 h7 => ?_
  refine can_retireWork.bind fun _ j8 w8 hsame => ?_
  refine (can_call (c := .syncBase) nofun nofun).mono ?_
  rintro - j9 w9 ⟨rfl, rfl⟩
  exact hsame.trans (h7.trans hfenced)

/-! ## Recoveries that report success -/

theorem recovery_reopens_iff (j : Journal) (w : HostWorld) :
    (∀ j' w', Prog.Ends stepEffect (dispatchRecover j) w (.ok (), j') w' → w'.Reopened) ↔
      (w.listed ≠ [] ∨ ∀ plan, ¬ w.Admits plan) := by
  constructor
  · intro hreopens
    by_contra hnot
    push Not at hnot
    obtain ⟨hlisted, plan, hadmits⟩ := hnot
    obtain ⟨_, j', w', hends, hfenced⟩ := (can_dispatchRecover (j := j) hadmits hlisted).ends
    exact absurd ((hreopens j' w' hends).1.symm.trans hfenced) (by decide)
  · intro hcondition j' w' hends
    obtain ⟨⟨plan, hadmits⟩, hreopened⟩ := dispatchRecover_gives.ends hends
    exact hreopened (hcondition.resolve_right fun h => h plan hadmits)

end

/-! ## A migration that is killed before its first step -/

def hostSucceeds : (op : HostOp) → HostWorld → op.Reply × HostWorld
  | .action a, w => (.ok (), a.after w)
  | .listTables, w => (.ok (if w.fenced then [fenceTable] else []), w)
  | .connections, w => (.ok "", w)
  | .beforeDeadline, w => (true, w)
  | .readRecord, w => (w.work.elim (.error .system) .ok, w)
  | .selfDigest, w => (.ok ((w.work.map Plan.executable).getD ""), w)
  | .hostIdentity, w => (.ok ((w.work.map Plan.host).getD ""), w)
  | .approval, w => (.ok false, w)
  | .call .privateWork, w => (if w.work.isSome then .ok () else .error .system, w)
  | .call .retireWork, w => (.ok (), { w with work := none, journal := none })
  | .call _, w => (.ok (), w)
  | .linkedDir unit, w => (w.linked unit, w)
  | .createDir _, w => (.ok (), w)
  | .look path, w => (.ok (w.found path), w)
  | .stageFile, w => (.ok (), w)
  | .place path text, w => if w.found path = .absent then (.ok (), w.put path (.file text)) else (.error .system, w)
  | .syncParent, w => (.ok (), w)
  | .unlink path, w => (.ok (), w.put path .absent)

def stepSucceeds : (op : JournalOp HostOp) → HostWorld → op.Reply HostOp.Reply × HostWorld
  | .directory, w => (.ok true, w)
  | .lock, w => (true, w)
  | .load, w => (.ok w.journal, w)
  | .stage _, w => (true, w)
  | .rename state, w => (true, w.keep state)
  | .syncDir, w => (true, w)
  | .host op, w => hostSucceeds op w

theorem hostSucceeds_effect (op : HostOp) (w : HostWorld) :
    hostEffect op w (hostSucceeds op w).1 (hostSucceeds op w).2 := by
  cases op with
  | action a =>
    cases a with
    | fence => exact .inl rfl
    | unfence => exact .inl rfl
    | _ => rfl
  | listTables =>
    refine ⟨rfl, ?_⟩
    rintro _ ⟨⟩
    cases w.fenced <;> simp
  | readRecord =>
    refine ⟨rfl, fun plan hplan => ?_⟩
    cases hwork : w.work with
    | none =>
      rw [hostSucceeds, hwork] at hplan
      cases hplan
    | some stored =>
      rw [hostSucceeds, hwork] at hplan
      exact congrArg some (Except.ok.inj hplan)
  | call c =>
    cases c with
    | privateWork =>
      refine ⟨rfl, fun hok => ?_⟩
      cases hwork : w.work with
      | none =>
        rw [hostSucceeds, hwork] at hok
        cases hok
      | some stored => rfl
    | retireWork => exact .inl rfl
    | _ => rfl
  | linkedDir unit => exact ⟨rfl, rfl⟩
  | look path => exact ⟨rfl, fun _ h => (Except.ok.inj h).symm⟩
  | place path text =>
    by_cases h : w.found path = .absent
    · simp only [hostSucceeds, if_pos h]
      exact .inl ⟨h, rfl⟩
    · simp only [hostSucceeds, if_neg h]
      exact .inr ⟨rfl, rfl⟩
  | unlink path => exact .inl rfl
  | _ => rfl

theorem stepSucceeds_effect (op : JournalOp HostOp) (w : HostWorld) :
    stepEffect op w (stepSucceeds op w).1 (stepSucceeds op w).2 := by
  cases op with
  | load => exact ⟨rfl, fun _ h => (Except.ok.inj h).symm⟩
  | rename state => exact .inl rfl
  | host op => exact hostSucceeds_effect op w
  | _ => rfl

def examplePlan : Plan := ⟨"sparkplane.appliance-migration/v1", exampleIdentity, exampleIdentity, exampleIdentity⟩

def staged : HostWorld := ⟨some examplePlan, none, false, fun _ => false, fun _ => .absent⟩

def opened : HostWorld := Prog.runFor stepSucceeds 6 (dispatchYes examplePlan noJournal) staged

theorem recovered_opened : (Prog.run stepSucceeds (dispatchRecover noJournal) opened).1.1 = .ok () ∧
    (Prog.run stepSucceeds (dispatchRecover noJournal) opened).2.fenced = true ∧
    (∀ g ∈ guards, (Prog.run stepSucceeds (dispatchRecover noJournal) opened).2.found (.guard g) = .file g.expected) ∧
    (Prog.run stepSucceeds (dispatchRecover noJournal) opened).2.found .permit = .file exampleIdentity := by
  decide +kernel

/-- It is recovered with success, and the fence, its guards and the permit are there to stay. -/
theorem recovery_leaves_fence : ∃ w j w', Prog.Cut stepEffect (dispatchYes examplePlan noJournal) staged w ∧
      Prog.Ends stepEffect (dispatchRecover noJournal) w (.ok (), j) w' ∧
      w'.fenced = true ∧ (∀ g ∈ guards, w'.found (.guard g) = .file g.expected) ∧
      w'.found .permit = .file examplePlan.release := by
  have hends := Prog.ends_run stepSucceeds_effect (dispatchRecover noJournal) opened
  obtain ⟨hok, hleft⟩ := recovered_opened
  refine ⟨opened, (Prog.run stepSucceeds (dispatchRecover noJournal) opened).1.2, _,
    Prog.cut_runFor stepSucceeds_effect 6 _ _, ?_, hleft⟩
  rw [← hok]
  exact hends

end Sparkplane.Migration

import Sparkplane.Migration
import Sparkplane.Saga

/-!
# The migration as a saga

The host is three calls, each of which may fail. The journal file has a copy that processes see and one
that survives a loss of power; a rename changes the first, a sync of the directory, or the system on its
own, makes it the second. A history is any sequence of calls on one journal directory, each of which may
be cut off. `migration_sound`: its trace is one of a saga.
-/

namespace Sparkplane.Migration

open Saga (Trace Moves durable last)
open Migration.Journal
open Proc

inductive HostCall where
  | apply (step : Step)
  | undo (step : Step)
  | openTraffic

def HostCall.Answer (_ : HostCall) : Type := Except MigrationError Unit

def hostCall (c : HostCall) : Mig HostCall HostCall.Answer Unit := do orThrow (← performHost c)

def hostCalls : Actions HostCall HostCall.Answer := ⟨fun s => hostCall (.apply s), fun s => hostCall (.undo s), hostCall .openTraffic⟩

def State.record (s : State) : Saga.Record Step := ⟨s.completed, s.pending, s.committed, s.rollingBack⟩

/-- No journal file is a journal in which nothing has happened. -/
def recordOf (file : Option State) : Saga.Record Step := (file.map State.record).getD {}

structure World where
  visible : Option State := none
  durable : Option State := none
  trace : List (Saga.Event Step) := []

def World.flushed (w : World) : World :=
  { w with durable := w.visible, trace := .saved (recordOf w.visible) :: w.trace }

def World.shows (w : World) (state : State) : World := { w with visible := some state }

def World.logs (w : World) (events : List (Saga.Event Step)) : World := { w with trace := events ++ w.trace }

def HostCall.events (ok : Bool) : HostCall → List (Saga.Event Step)
  | .apply s => [.apply s]
  | .undo s => if ok then [.undone s, .undo s] else [.undo s]
  | .openTraffic => [.opened]

/-- An effect that fails may have been performed, a load apart. -/
def effect : (op : JournalOp HostCall) → World → op.Reply HostCall.Answer → World → Prop
  | .directory, w, _, w' => w' = w
  | .lock, w, _, w' => w' = w
  | .load, w, r, w' => w' = w ∧ ∀ file, r = .ok file → file = w.visible
  | .stage _, w, _, w' => w' = w
  | .rename state, w, (ok : Bool), w' => w' = w.shows state ∨ ok = false ∧ w' = w
  | .syncDir, w, (ok : Bool), w' => w' = w.flushed ∨ ok = false ∧ w' = w
  | .host c, w, (r : Except MigrationError Unit), w' => w' = w.logs (c.events r.isOk)

/-- A process with its handle on the journal; without one the handle is poisoned. -/
structure Machine where
  world : World := {}
  journal : Journal

inductive Procedure where
  | openAt (host release : String)
  | run
  | recover

def Procedure.code : Procedure → Mig HostCall HostCall.Answer Unit
  | .openAt host release => Journal.openAt host release
  | .run => runMigration hostCalls
  | .recover => recoverMigration hostCalls

inductive History (j₀ : Journal) : Machine → Prop
  | start : History j₀ ⟨{}, closed j₀⟩
  | call {m : Machine} {p : Procedure} {r : Except MigrationError Unit} {j : Journal} {w : World} : History j₀ m →
      Prog.Ends effect (p.code m.journal) m.world (r, j) w → History j₀ ⟨w, j⟩
  | crash {m : Machine} {p : Procedure} {w : World} : History j₀ m →
      Prog.Cut effect (p.code m.journal) m.world w → History j₀ ⟨w, closed m.journal⟩
  | flush {m : Machine} : History j₀ m → History j₀ { m with world := m.world.flushed }
  | powerLoss {m : Machine} : History j₀ m →
      History j₀ ⟨{ m.world with visible := m.world.durable }, closed m.journal⟩

/-! ## The invariant -/

structure Inv (w : World) : Prop where
  trace : Trace steps w.trace
  durable : durable w.trace = recordOf w.durable
  visible : Moves steps (last w.trace) (recordOf w.durable) (recordOf w.visible)

def Held (j : Journal) (w : World) : Prop :=
  j.poisoned = false → w.visible = some j.state ∧ w.durable = some j.state

def Leaves {α : Type} (P : α → Journal → World → Prop) (r : Except MigrationError α) (j : Journal) (w : World) : Prop :=
  Held j w ∧ ∀ a, r = .ok a → P a j w

theorem Inv.flushed {w : World} (h : Inv w) : Inv w.flushed :=
  ⟨.saved h.trace (h.durable ▸ h.visible), rfl, .same⟩

theorem Inv.shows {w : World} (h : Inv w) {state : State}
    (hm : Moves steps (last w.trace) (recordOf w.durable) state.record) : Inv (w.shows state) :=
  ⟨h.trace, h.durable, hm⟩

section
variable {α β : Type} {w : World} {j : Journal} {P : α → Journal → World → Prop} {P' : β → Journal → World → Prop}

theorem Leaves.ok {a : α} (hj : Held j w) (h : P a j w) : Leaves P (.ok a) j w :=
  ⟨hj, fun _ hr => Except.ok.inj hr ▸ h⟩

theorem Leaves.error {e : MigrationError} (hj : Held j w) : Leaves P (.error e) j w := ⟨hj, (fun _ hr => nomatch hr)⟩

theorem Held.closed : Held (closed j) w := fun h => nomatch h

theorem Held.record (hj : Held j w) (hp : j.poisoned = false) : recordOf w.durable = j.state.record := by
  rw [(hj hp).2]
  rfl

abbrev Ends (P : α → Journal → World → Prop) (x : Mig HostCall HostCall.Answer α) (j : Journal) (w : World) : Prop :=
  Safe effect Inv (Leaves P) x j w

theorem safe_return {a : α} (hI : Inv w) (hj : Held j w) (h : P a j w) : Ends P (pure a) j w :=
  safe_pure hI (.ok hj h)

theorem safe_seq {x : Mig HostCall HostCall.Answer α} {f : α → Mig HostCall HostCall.Answer β} (hx : Ends P x j w)
    (hf : ∀ a j' w', Inv w' → Held j' w' → P a j' w' → Ends P' (f a) j' w') :
    Ends P' (x >>= f) j w := by
  refine (hx.mono fun r j' w' hI hq => And.intro hI hq).bind (fun a j' w' hq => ?_) fun e j' w' hI hq => .error hq.2.1
  exact hf a j' w' hq.1 hq.2.1 (hq.2.2 a rfl)

variable {message : String} {f : Unit → Mig HostCall HostCall.Answer β} {s : Step}

theorem safe_ensure {b : Bool} {P : Unit → Journal → World → Prop} (hI : Inv w) (hj : Held j w)
    (h : b = true → P () j w) :
    Ends P (ensure b message) j w := by
  cases b with
  | true => exact safe_return hI hj (h rfl)
  | false => exact safe_throw hI (.error hj)

theorem safe_ensure_bind {b : Bool} (hI : Inv w) (hj : Held j w) (hf : b = true → Ends P' (f ()) j w) :
    Ends P' (ensure b message >>= f) j w := by
  cases b with
  | true => exact hf rfl
  | false => exact safe_throw hI (.error hj)

theorem safe_requireDurable_bind (hI : Inv w) (hj : Held j w) (hf : j.poisoned = false → Ends P' (f ()) j w) :
    Ends P' (requireDurable >>= f) j w := by
  have hcheck : Ends (fun _ j' w' => j' = j ∧ w' = w ∧ j.poisoned = false) requireDurable j w := by
    refine safe_get_bind (safe_ensure hI hj fun h => ⟨rfl, rfl, by simpa using h⟩)
  refine safe_seq hcheck ?_
  rintro - j' w' - - ⟨rfl, rfl, hp⟩
  exact hf hp

/-! ## Saves -/

def Saved (state : State) (action : Option (Saga.Event Step)) (_ : Unit) (j : Journal) (w : World) : Prop :=
  j = ⟨state, false⟩ ∧ last w.trace = action

theorem save_safe (hI : Inv w) (hm : Moves steps (last w.trace) (recordOf w.durable) j.state.record) :
    Ends (Saved j.state (last w.trace)) save j w := by
  unfold Ends Safe
  rw [save_eq]
  refine ⟨hI, fun (staged : Bool) w1 hstage => ?_⟩
  obtain rfl : w1 = w := hstage
  cases staged with
  | false => exact ⟨hI, .error .closed⟩
  | true =>
    refine ⟨hI, fun (renamed : Bool) w2 hrename => ?_⟩
    have hI2 : Inv w2 := by
      rcases hrename with rfl | ⟨_, rfl⟩
      · exact hI.shows hm
      · exact hI
    cases renamed with
    | false => exact ⟨hI2, .error .closed⟩
    | true =>
      obtain rfl : w2 = w1.shows j.state := hrename.resolve_right fun h => nomatch h.1
      refine ⟨hI2, fun (synced : Bool) w3 hsync => ?_⟩
      have hI3 : Inv w3 := by
        rcases hsync with rfl | ⟨_, rfl⟩
        · exact hI2.flushed
        · exact hI2
      cases synced with
      | false => exact ⟨hI3, .error .closed⟩
      | true =>
        obtain rfl : w3 = (w1.shows j.state).flushed := hsync.resolve_right fun h => nomatch h.1
        exact ⟨hI3, .ok (fun _ => ⟨rfl, rfl⟩) ⟨rfl, rfl⟩⟩

theorem update_safe {f : State → State} (hI : Inv w)
    (hm : Moves steps (last w.trace) (recordOf w.durable) (f j.state).record) :
    Ends (Saved (f j.state) (last w.trace)) (update f) j w :=
  safe_modify_bind (save_safe hI hm)

/-! ## Calls to the host -/

theorem hostCall_safe {c : HostCall} {P : Unit → Journal → World → Prop} (hI : Inv w) (hj : Held j w)
    (htrace : ∀ ok, Trace steps (c.events ok ++ w.trace))
    (hdurable : ∀ ok, durable (c.events ok ++ w.trace) = durable w.trace)
    (hsame : w.visible = w.durable)
    (hP : P () j (w.logs (c.events true))) : Ends P (hostCall c) j w := by
  refine safe_perform_bind hI fun r w' hcall => ?_
  obtain rfl : w' = w.logs (c.events (Except.isOk r)) := hcall
  have hI' : Inv (w.logs (c.events (Except.isOk r))) :=
    ⟨htrace _, (hdurable _).trans hI.durable, by
      show Moves steps _ (recordOf w.durable) (recordOf w.visible)
      rw [hsame]
      exact .same⟩
  cases r with
  | ok u => exact safe_return hI' hj hP
  | error e => exact safe_throw hI' (.error hj)

theorem apply_safe (hI : Inv w) (hj : Held j w) (hp : j.poisoned = false) (hpending : j.state.pending = some s)
    (hback : j.state.rollingBack = false) :
    Ends (fun _ j' w' => j' = j ∧ last w'.trace = some (.apply s)) (hostCalls.apply s) j w := by
  have hrecord : durable w.trace = j.state.record := hI.durable.trans (hj.record hp)
  have htrace : Trace steps (.apply s :: w.trace) :=
    .apply hI.trace (by rw [hrecord]; exact hpending) (by rw [hrecord]; exact hback)
  exact hostCall_safe hI hj (fun _ => htrace) (fun _ => rfl) ((hj hp).1.trans (hj hp).2.symm) ⟨rfl, rfl⟩

theorem undo_safe (hI : Inv w) (hj : Held j w) (hp : j.poisoned = false) (hback : j.state.rollingBack = true)
    (hcommitted : j.state.committed = false) (hlast : j.state.record.listed.getLast? = some s) :
    Ends (fun _ j' w' => j' = j ∧ last w'.trace = some (.undone s)) (hostCalls.undo s) j w := by
  have hrecord : durable w.trace = j.state.record := hI.durable.trans (hj.record hp)
  have htrace : Trace steps (.undo s :: w.trace) :=
    .undo hI.trace (by rw [hrecord]; exact hback) (by rw [hrecord]; exact hcommitted) (by rw [hrecord]; exact hlast)
  refine hostCall_safe hI hj (fun ok => ?_) (fun ok => ?_) ((hj hp).1.trans (hj hp).2.symm) ⟨rfl, rfl⟩
  · cases ok with
    | true => exact .undone htrace
    | false => exact htrace
  · cases ok <;> rfl

theorem openTraffic_safe (hI : Inv w) (hj : Held j w) (hp : j.poisoned = false) (hcommitted : j.state.committed = true) :
    Ends (fun _ _ _ => True) hostCalls.openTraffic j w := by
  have hrecord : durable w.trace = j.state.record := hI.durable.trans (hj.record hp)
  have htrace : Trace steps (.opened :: w.trace) := .opened hI.trace (by rw [hrecord]; exact hcommitted)
  exact hostCall_safe hI hj (fun _ => htrace) (fun _ => rfl) ((hj hp).1.trans (hj hp).2.symm) trivial

theorem withContext_safe {x : Mig HostCall HostCall.Answer Unit} {P : Unit → Journal → World → Prop}
    (hx : Ends P x j w) :
    Ends P (withContext message x) j w := by
  refine Prog.Safe.bind (Prog.Safe.mono (fun r w hI h => And.intro hI h) hx) ?_
  rintro ⟨r, j'⟩ w' ⟨hI, hq⟩
  cases r with
  | ok a => exact ⟨hI, hq⟩
  | error e => exact ⟨hI, .error hq.1⟩

/-! ## The procedures -/

variable (hI : Inv w) (hj : Held j w)
include hI hj

theorem next_safe : Ends (fun next j' w' => j' = j ∧ w' = w ∧ j.poisoned = false ∧
      next = steps[j.state.completed.length]?) next j w := by
  refine safe_requireDurable_bind hI hj fun hp => safe_get_bind (safe_ensure_bind hI hj fun _ => ?_)
  exact safe_return hI hj ⟨rfl, rfl, hp, rfl⟩

theorem start_safe : Ends (fun _ j' _ => j'.poisoned = false ∧ j'.state.pending = some s ∧
      j'.state.rollingBack = false) (start s) j w := by
  refine safe_requireDurable_bind hI hj fun hp => safe_get_bind (safe_ensure_bind hI hj fun hguard =>
    safe_ensure_bind hI hj fun hnext => ?_)
  simp only [Bool.and_eq_true, Bool.not_eq_true', Option.isNone_iff_eq_none, decide_eq_true_eq] at hguard hnext
  have hmoves : Moves steps (last w.trace) (recordOf w.durable) { j.state with pending := some s }.record := by
    rw [hj.record hp]
    exact .start hguard.1.1 hguard.1.2 hguard.2 hnext
  refine (update_safe hI hmoves).mono fun r j' w' _ h => ⟨h.1, fun a hr => ?_⟩
  obtain ⟨rfl, -⟩ := h.2 a hr
  exact ⟨rfl, rfl, hguard.1.2⟩

theorem finish_safe (haction : last w.trace = some (.apply s)) : Ends (fun _ _ _ => True) (finish s) j w := by
  refine safe_requireDurable_bind hI hj fun hp => safe_get_bind (safe_ensure_bind hI hj fun hguard => ?_)
  simp only [Bool.and_eq_true, Bool.not_eq_true', decide_eq_true_eq] at hguard
  have hmoves : Moves steps (last w.trace) (recordOf w.durable)
      { j.state with completed := j.state.completed ++ [s], pending := none }.record := by
    rw [hj.record hp]
    exact .finish hguard.1 hguard.2 haction
  exact (update_safe hI hmoves).mono fun r j' w' _ h => ⟨h.1, fun _ _ => trivial⟩

theorem commit_safe : Ends (fun _ j' _ => j'.poisoned = false ∧ j'.state.committed = true) commit j w := by
  refine safe_requireDurable_bind hI hj fun hp => safe_get_bind (safe_ensure_bind hI hj fun hguard => ?_)
  simp only [Bool.and_eq_true, Bool.not_eq_true', Option.isNone_iff_eq_none, decide_eq_true_eq] at hguard
  have hmoves : Moves steps (last w.trace) (recordOf w.durable) { j.state with committed := true }.record := by
    rw [hj.record hp]
    exact .commit hguard.1.1 hguard.1.2 hguard.2
  refine (update_safe hI hmoves).mono fun r j' w' _ h => ⟨h.1, fun a hr => ?_⟩
  obtain ⟨rfl, -⟩ := h.2 a hr
  exact ⟨rfl, rfl⟩

omit hI hj in
theorem runSteps_safe {n : Nat} : ∀ {j : Journal} {w : World}, Inv w → Held j w →
    Ends (fun _ _ _ => True) (runSteps hostCalls n) j w := by
  induction n with
  | zero =>
    intro j w hI hj
    exact safe_seq (next_safe hI hj) fun _ j' w' hI' hj' _ => safe_return hI' hj' trivial
  | succ n ih =>
    intro j w hI hj
    refine safe_seq (next_safe hI hj) fun next j' w' hI' hj' _ => ?_
    cases next with
    | none => exact safe_return hI' hj' trivial
    | some s =>
      refine safe_seq (start_safe hI' hj') fun _ j1 w1 hI1 hj1 hstart => ?_
      refine safe_seq (withContext_safe (apply_safe hI1 hj1 hstart.1 hstart.2.1 hstart.2.2))
        fun _ j2 w2 hI2 hj2 happly => ?_
      exact safe_seq (finish_safe hI2 hj2 happly.2) fun _ j3 w3 hI3 hj3 _ => ih hI3 hj3

theorem committed_safe : Ends (fun committed j' w' => j' = j ∧ w' = w ∧ j.poisoned = false ∧
      committed = j.state.committed) committed j w := by
  refine safe_requireDurable_bind hI hj fun hp => safe_get_bind ?_
  exact safe_return hI hj ⟨rfl, rfl, hp, rfl⟩

theorem run_safe : Ends (fun _ _ _ => True) (runMigration hostCalls) j w := by
  refine safe_seq (committed_safe hI hj) fun committed j' w' hI' hj' hc => ?_
  obtain ⟨rfl, rfl, hp, rfl⟩ := hc
  cases hcommitted : j'.state.committed with
  | true => exact withContext_safe (openTraffic_safe hI' hj' hp hcommitted)
  | false =>
    refine safe_get_bind (safe_seq (runSteps_safe hI' hj') fun _ j1 w1 hI1 hj1 _ => ?_)
    exact safe_seq (commit_safe hI1 hj1) fun _ j2 w2 hI2 hj2 h => withContext_safe (openTraffic_safe hI2 hj2 h.1 h.2)

structure Rolling (j : Journal) : Prop where
  durable : j.poisoned = false
  back : j.state.rollingBack = true
  committed : j.state.committed = false

theorem undoPending_safe (hr : Rolling j) : Ends (fun _ j' _ => Rolling j' ∧ j'.state.pending = none)
      (undoPending hostCalls.undo) j w := by
  refine safe_get_bind ?_
  cases hpending : j.state.pending with
  | none => exact safe_return hI hj ⟨hr, hpending⟩
  | some s =>
    have hlast : j.state.record.listed.getLast? = some s := by simp [State.record, Saga.Record.listed, hpending]
    refine safe_seq (undo_safe hI hj hr.durable hr.back hr.committed hlast) fun _ j1 w1 hI1 hj1 hundo => ?_
    obtain ⟨rfl, haction⟩ := hundo
    have hmoves : Moves steps (last w1.trace) (recordOf w1.durable) { j1.state with pending := none }.record := by
      rw [hj1.record hr.durable]
      exact .dropPending hr.back hpending haction
    refine (update_safe hI1 hmoves).mono fun r j' w' _ h => ⟨h.1, fun a ha => ?_⟩
    obtain ⟨rfl, -⟩ := h.2 a ha
    exact ⟨⟨rfl, hr.back, hr.committed⟩, rfl⟩

omit hI hj in
theorem undoCompleted_safe {n : Nat} : ∀ {j : Journal} {w : World}, Inv w → Held j w → Rolling j →
    j.state.pending = none → j.state.completed.length = n →
    Ends (fun _ j' _ => Rolling j' ∧ j'.state.pending = none ∧ j'.state.completed = [])
      (undoCompleted hostCalls.undo n) j w := by
  induction n with
  | zero =>
    intro j w hI hj hr hpending hlength
    exact safe_return hI hj ⟨hr, hpending, List.length_eq_zero_iff.mp hlength⟩
  | succ n ih =>
    intro j w hI hj hr hpending hlength
    obtain ⟨before, s, hcompleted⟩ : ∃ before s, j.state.completed = before ++ [s] :=
      (List.eq_nil_or_concat' _).resolve_left fun h => by simp [h] at hlength
    refine safe_get_bind ?_
    rw [hcompleted, List.getLast?_concat]
    have hlast : j.state.record.listed.getLast? = some s := by
      simp [State.record, Saga.Record.listed, hpending, hcompleted]
    refine safe_seq (undo_safe hI hj hr.durable hr.back hr.committed hlast) fun _ j1 w1 hI1 hj1 hundo => ?_
    obtain ⟨rfl, haction⟩ := hundo
    have hmoves : Moves steps (last w1.trace) (recordOf w1.durable)
        { j1.state with completed := j1.state.completed.dropLast }.record := by
      rw [hj1.record hr.durable]
      refine .dropLast hr.back hpending ?_ haction
      rw [hcompleted, List.dropLast_concat]
      exact hcompleted
    refine safe_seq (update_safe hI1 hmoves) fun _ j2 w2 hI2 hj2 h => ?_
    obtain ⟨rfl, -⟩ := h
    refine ih hI2 hj2 ⟨rfl, hr.back, hr.committed⟩ hpending ?_
    simp [hcompleted] at hlength ⊢
    exact hlength

theorem recover_safe : Ends (fun _ _ _ => True) (recoverMigration hostCalls) j w := by
  refine safe_requireDurable_bind hI hj fun hp => safe_get_bind (safe_ensure_bind hI hj fun hguard => ?_)
  have hcommitted : j.state.committed = false := by simpa using hguard
  have hturn : Moves steps (last w.trace) (recordOf w.durable) { j.state with rollingBack := true }.record := by
    rw [hj.record hp]
    exact .turn hcommitted
  refine safe_seq (update_safe hI hturn) fun _ j1 w1 hI1 hj1 h1 => ?_
  obtain ⟨rfl, -⟩ := h1
  refine safe_seq (undoPending_safe hI1 hj1 ⟨rfl, rfl, hcommitted⟩) fun _ j2 w2 hI2 hj2 h2 => ?_
  refine safe_get_bind (safe_seq (undoCompleted_safe hI2 hj2 h2.1 h2.2 rfl) fun _ j3 w3 hI3 hj3 h3 => ?_)
  have hturned : Moves steps (last w3.trace) (recordOf w3.durable) { j3.state with rollingBack := false }.record := by
    rw [hj3.record h3.1.durable]
    exact .turned h3.1.back h3.2.2 h3.2.1
  exact (update_safe hI3 hturned).mono fun r j' w' _ h => ⟨h.1, fun _ _ => trivial⟩

theorem lock_safe : Ends (fun _ j' w' => j' = j ∧ w' = w) (must lock) j w := by
  refine safe_perform_bind hI fun locked w' heffect => ?_
  obtain rfl : w' = w := heffect
  cases locked with
  | true => exact safe_return hI hj ⟨rfl, rfl⟩
  | false => exact safe_throw hI (.error hj)

theorem openAt_safe {host release : String} : Ends (fun _ _ _ => True) (openAt host release) j w := by
  refine safe_ensure_bind hI hj fun _ => safe_perform_bind hI fun owned w1 hdir => ?_
  obtain rfl : w1 = w := hdir
  cases owned with
  | error e => exact safe_throw hI (.error hj)
  | ok owned =>
    refine safe_ensure_bind hI hj fun _ => safe_seq (lock_safe hI hj) ?_
    rintro - j' w' - - ⟨rfl, rfl⟩
    refine safe_perform_bind hI fun found w2 hload => ?_
    obtain ⟨rfl, hfound⟩ := hload
    cases found with
    | error e => exact safe_throw hI (.error hj)
    | ok file =>
      refine safe_ensure_bind hI hj fun _ => safe_ensure_bind hI hj fun _ => safe_set_bind ?_
      have hstate : (file.getD (fresh host release)).record = recordOf w2.visible := by
        rw [← hfound file rfl]
        cases file <;> rfl
      exact (save_safe hI (hstate ▸ hI.visible)).mono fun r j3 w3 _ h => ⟨h.1, fun _ _ => trivial⟩

theorem code_safe (p : Procedure) : Ends (fun _ _ _ => True) p.code j w := by
  cases p with
  | openAt host release => exact openAt_safe hI hj
  | run => exact run_safe hI hj
  | recover => exact recover_safe hI hj

end

/-! ## Histories -/

variable {j₀ : Journal} {m : Machine}

theorem History.inv (h : History j₀ m) : Inv m.world ∧ Held m.journal m.world := by
  induction h with
  | start => exact ⟨⟨.nil, rfl, .same⟩, .closed⟩
  | @call m p _ _ _ _ hends ih =>
    have hsafe : Prog.Safe effect Inv (fun r w => Inv w ∧ Held r.2 w) (p.code m.journal) m.world :=
      Prog.Safe.mono (fun _ _ hI h => ⟨hI, h.1⟩) (code_safe ih.1 ih.2 p)
    exact hsafe.ends hends
  | crash _ hcut ih => exact ⟨Prog.Safe.cut (code_safe ih.1 ih.2 _) hcut, .closed⟩
  | flush _ ih => exact ⟨ih.1.flushed, fun hp => ⟨(ih.2 hp).1, (ih.2 hp).1⟩⟩
  | powerLoss _ ih => exact ⟨⟨ih.1.trace, ih.1.durable, .same⟩, .closed⟩

theorem migration_sound (j₀ : Journal) (m : Machine) (h : History j₀ m) :
    Saga.Sound steps m.world.trace ∧ durable m.world.trace = recordOf m.world.durable :=
  ⟨h.inv.1.trace.sound (by decide), h.inv.1.durable⟩

def succeeds : (op : JournalOp HostCall) → World → op.Reply HostCall.Answer × World
  | .directory, w => (.ok true, w)
  | .lock, w => (true, w)
  | .load, w => (.ok w.visible, w)
  | .stage _, w => (true, w)
  | .rename state, w => (true, w.shows state)
  | .syncDir, w => (true, w.flushed)
  | .host c, w => (.ok (), w.logs (c.events true))

theorem succeeds_effect (op : JournalOp HostCall) (w : World) : effect op w (succeeds op w).1 (succeeds op w).2 := by
  cases op with
  | load => exact ⟨rfl, fun _ h => (Except.ok.inj h).symm⟩
  | rename state => exact .inl rfl
  | syncDir => exact .inl rfl
  | _ => rfl

def exampleIdentity : String := String.ofList (List.replicate 64 '0')

def noJournal : Journal := ⟨fresh exampleIdentity exampleIdentity, true⟩

def callsIn (m : Machine) (p : Procedure) : Machine :=
  let out := (p.code m.journal).run succeeds m.world
  ⟨out.2, out.1.2⟩

def diesIn (m : Machine) (n : Nat) (p : Procedure) : Machine :=
  ⟨(p.code m.journal).runFor succeeds n m.world, closed m.journal⟩

theorem History.calls (h : History j₀ m) (p : Procedure) : History j₀ (callsIn m p) :=
  .call (p := p) h (Prog.ends_run succeeds_effect _ _)

theorem History.dies (h : History j₀ m) (n : Nat) (p : Procedure) : History j₀ (diesIn m n p) :=
  .crash (p := p) h (Prog.cut_runFor succeeds_effect n _ _)

def opens : Procedure := .openAt exampleIdentity exampleIdentity

def rolledBack : Machine :=
  callsIn (callsIn (diesIn (callsIn ⟨{}, noJournal⟩ opens) 4 .run) opens) .recover

theorem rolledBack_sound : History noJournal rolledBack ∧ .undone .fenceTraffic ∈ rolledBack.world.trace ∧
    (Saga.Sound steps rolledBack.world.trace ∧ durable rolledBack.world.trace = recordOf rolledBack.world.durable) :=
  have h : History noJournal rolledBack := (((History.start.calls opens).dies 4 .run).calls opens).calls .recover
  ⟨h, by decide +kernel, migration_sound noJournal rolledBack h⟩

end Sparkplane.Migration

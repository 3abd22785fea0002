import Mathlib.Logic.Function.Basic
import Sparkplane.StateSound

/-!
# Managed recovery

The task that `recover` spawns, one step for each time it touches the database or calls a
handler, between cancellations of the parent operation and moves of its two children. The
queue of the database is never full: no step meets `StateError::Overloaded`.
-/

namespace Sparkplane

/-! ## Operation states -/

def OperationState.moved (s next : OperationState) : Option OperationState :=
  if s = next ∧ s.isTerminal then some s
  else if legalOperationTransition s next then some next
  else none

theorem Database.transition_moved (d : Draw) {id : String} (next : OperationState) (progress : OperationProgress)
    (result : Option Json) (problem : Option ProblemDocument) {db : Db} {row : OperationRow}
    (h : db.operations.get? id = some row) :
    (((transition d id next progress result problem).commit db).2.operations.get? id).map (·.state) =
      some ((row.state.moved next).getD row.state) := by
  unfold Tx.commit
  rw [transition_run, h]
  dsimp only
  unfold OperationState.moved
  by_cases hsame : row.state = next ∧ row.state.isTerminal
  · rw [if_pos hsame, if_pos hsame]
    simp [h]
  · by_cases hlegal : legalOperationTransition row.state next = true
    · simp [hsame, hlegal, advanced_get? h, OperationRow.advance]
    · simp [hsame, hlegal, h]

theorem Database.cancelOperation_moved (d : Draw) {id : String} {db : Db} {row : OperationRow}
    (h : db.operations.get? id = some row) :
    ((cancelOperation d id db).2.operations.get? id).map (·.state) =
      some ((row.state.moved .cancelled).getD row.state) := by
  rw [cancelOperation_run, h]
  cases hstate : row.state <;>
    simp [hstate, h, OperationState.isTerminal, OperationState.moved, legalOperationTransition, advanced_get? h,
      OperationRow.advance]

/-! ## The task -/

namespace Recovery

inductive Phase where
  | stop
  | serve
  deriving DecidableEq

inductive Place where
  | begin
  | settings (phase : Phase)
  | check (phase : Phase)
  | progress (phase : Phase)
  | call (phase : Phase)
  | poll (phase : Phase)
  | watch (phase : Phase)
  | finish (succeeded : Bool)
  | ended
  deriving DecidableEq

/-- The states of the parent and of the children that were accepted for it. -/
structure State where
  parent : OperationState := .accepted
  child : Phase → Option OperationState := fun _ => none
  place : Place := .begin

inductive Event where
  /-- The task's next step. `good` says that the settings still hold, that the handler answers with
  success, or that the deadline has not passed; `found` is the state of a child the handler accepts. -/
  | task (good : Bool) (found : Option OperationState)
  | cancel
  | child (phase : Phase) (next : OperationState)

def State.transition (s : State) (next : OperationState) : State :=
  { s with parent := (s.parent.moved next).getD s.parent }

def Phase.after : Phase → Place
  | .stop => .settings .serve
  | .serve => .finish true

def State.task (s : State) (good : Bool) (found : Option OperationState) : State :=
  match s.place with
  | .begin =>
    if (s.parent.moved .running).isSome then { s.transition .running with place := .settings .stop }
    else { s with place := .finish false }
  | .settings phase => { s with place := if good then .check phase else .finish false }
  | .check phase => { s with place := if s.parent.isTerminal then .finish false else .progress phase }
  -- the result of this transition is not looked at
  | .progress phase => { s.transition .running with place := .call phase }
  -- the handlers can fail after they have accepted the child
  | .call phase =>
    { s with
      child := Function.update s.child phase found
      place := if good && found.isSome then .poll phase else .finish false }
  | .poll phase =>
    match s.child phase with
    | some state =>
      if state.isTerminal then { s with place := if state = .succeeded then phase.after else .finish false }
      else { s with place := if good then .watch phase else .finish false }
    | none => { s with place := .finish false }
  | .watch phase => { s with place := if s.parent.isTerminal then .finish false else .poll phase }
  | .finish succeeded => { s.transition (if succeeded then .succeeded else .failed) with place := .ended }
  | .ended => s

def step (s : State) : Event → State
  | .task good found => s.task good found
  | .cancel => s.transition .cancelled
  | .child phase next =>
    { s with child := Function.update s.child phase ((s.child phase).map fun state => (state.moved next).getD state) }

def run (events : List Event) : State := events.foldl step {}

def State.accepted (s : State) (phase : Phase) : Bool := (s.child phase).isSome

def Place.committed : Place → Bool
  | .progress _ | .call _ => true
  | _ => false

structure Truthful (s : State) : Prop where
  order : s.accepted .serve = true → s.child .stop = some .succeeded
  success : s.parent = .succeeded → s.child .stop = some .succeeded ∧ s.child .serve = some .succeeded
  ended : s.place = .ended → s.parent.isTerminal = true

/-! ## Every interleaving -/

def Place.Children : Place → (Phase → Option OperationState) → Prop
  | .begin, child => child .stop = none ∧ child .serve = none
  | .settings .stop, child | .check .stop, child | .progress .stop, child | .call .stop, child =>
    child .stop = none ∧ child .serve = none
  | .settings .serve, child | .check .serve, child | .progress .serve, child | .call .serve, child =>
    child .stop = some .succeeded ∧ child .serve = none
  | .poll .stop, child | .watch .stop, child => child .serve = none
  | .poll .serve, child | .watch .serve, child => child .stop = some .succeeded
  | .finish true, child => child .stop = some .succeeded ∧ child .serve = some .succeeded
  | .finish false, child | .ended, child => child .serve ≠ none → child .stop = some .succeeded

structure Inv (s : State) : Prop where
  children : s.place.Children s.child
  started : s.place ≠ .begin → s.parent ≠ .accepted
  success : s.parent = .succeeded → s.place = .ended ∧ s.child .stop = some .succeeded ∧
    s.child .serve = some .succeeded
  ended : s.place = .ended → s.parent.isTerminal = true

section
variable {s : State} {child child' : Phase → Option OperationState}

theorem moved_terminal (state next : OperationState) (h : state.isTerminal = true) :
    (state.moved next).getD state = state := by
  revert h
  cases state <;> cases next <;> decide

theorem moved_cancelled (state : OperationState) :
    (state.moved .cancelled).getD state = if state.isTerminal then state else .cancelled := by
  cases state <;> rfl

structure Onward (child child' : Phase → Option OperationState) : Prop where
  accepted : ∀ phase, (child' phase).isSome = (child phase).isSome
  succeeded : ∀ phase, child phase = some .succeeded → child' phase = some .succeeded

theorem Onward.none (h : Onward child child') {phase : Phase} : child' phase = none ↔ child phase = none := by
  rw [← Option.not_isSome_iff_eq_none, ← Option.not_isSome_iff_eq_none, h.accepted phase]

theorem Place.Children.onward (h : Onward child child') {place : Place} (hc : place.Children child) :
    place.Children child' := by
  have hstop := h.succeeded .stop
  have hserve := h.succeeded .serve
  rcases place with _ | _ | _ | _ | _ | _ | _ | _ | _ <;> (try rename_i phase; cases phase) <;>
    simp_all [Place.Children, h.none]

theorem onward_child (child : Phase → Option OperationState) (phase : Phase) (next : OperationState) :
    Onward child (Function.update child phase ((child phase).map fun state => (state.moved next).getD state)) := by
  constructor
  · intro phase'
    by_cases h : phase' = phase
    · subst h
      simp
    · simp [h]
  · intro phase' hsucceeded
    by_cases h : phase' = phase
    · subst h
      simp [hsucceeded, moved_terminal .succeeded next rfl]
    · simp [h, hsucceeded]

theorem Inv.cancel (h : Inv s) : Inv (s.transition .cancelled) := by
  obtain ⟨hchildren, hstarted, hsuccess, hended⟩ := h
  simp only [State.transition, moved_cancelled]
  by_cases hterminal : s.parent.isTerminal = true
  · simp only [hterminal, if_true]
    exact ⟨hchildren, hstarted, hsuccess, hended⟩
  · simp only [hterminal]
    exact ⟨hchildren, fun _ => nofun, nofun, fun _ => rfl⟩

theorem Inv.childMoved (h : Inv s) (phase : Phase) (next : OperationState) : Inv (step s (.child phase next)) := by
  have honward := onward_child s.child phase next
  refine ⟨h.children.onward honward, h.started, fun hparent => ?_, h.ended⟩
  obtain ⟨hended, hstop, hserve⟩ := h.success hparent
  exact ⟨hended, honward.succeeded .stop hstop, honward.succeeded .serve hserve⟩

theorem Inv.of_active {parent : OperationState} {place : Place} (hchildren : place.Children child)
    (haccepted : parent ≠ .accepted) (hsucceeded : parent ≠ .succeeded) (hplace : place ≠ .ended) :
    Inv ⟨parent, child, place⟩ :=
  ⟨hchildren, fun _ => haccepted, fun h => absurd h hsucceeded, fun h => absurd h hplace⟩

theorem Inv.task (h : Inv s) (good : Bool) (found : Option OperationState) : Inv (s.task good found) := by
  obtain ⟨parent, child, place⟩ := s
  have hchildren := h.children
  by_cases hended : place = .ended
  · subst hended
    exact h
  have hsucceeded : parent ≠ .succeeded := fun hparent => hended (h.success hparent).1
  by_cases hbegin : place = .begin
  · subst hbegin
    have hrefused : Place.Children (.finish false) child := fun hserve => absurd hchildren.2 hserve
    cases parent with
    | accepted => exact .of_active hchildren nofun nofun nofun
    | running => exact .of_active hchildren nofun nofun nofun
    | succeeded => exact absurd rfl hsucceeded
    | failed => exact .of_active hrefused nofun nofun nofun
    | cancelled => exact .of_active hrefused nofun nofun nofun
  have haccepted : parent ≠ .accepted := h.started hbegin
  cases place with
  | begin => exact absurd rfl hbegin
  | settings phase =>
    refine .of_active ?_ haccepted hsucceeded ?_ <;> cases good <;> cases phase <;> simp_all [Place.Children]
  | check phase =>
    refine .of_active ?_ haccepted hsucceeded ?_ <;> split <;> cases phase <;> simp_all [Place.Children]
  | progress phase =>
    refine .of_active ?_ ?_ ?_ nofun
    · cases phase <;> exact hchildren
    · cases parent <;> simp_all [State.transition, OperationState.moved, legalOperationTransition]
    · cases parent <;> simp_all [State.transition, OperationState.moved, legalOperationTransition]
  | call phase =>
    refine .of_active ?_ haccepted hsucceeded ?_ <;> split <;> cases phase <;> simp_all [Place.Children]
  | poll phase =>
    simp only [State.task]
    split
    · next state hstate =>
      split
      · refine .of_active ?_ haccepted hsucceeded ?_ <;> split <;> cases phase <;> simp_all [Place.Children, Phase.after]
      · refine .of_active ?_ haccepted hsucceeded ?_ <;> split <;> cases phase <;> simp_all [Place.Children]
    · refine .of_active ?_ haccepted hsucceeded nofun
      cases phase <;> simp_all [Place.Children]
  | watch phase =>
    refine .of_active ?_ haccepted hsucceeded ?_ <;> split <;> cases phase <;> simp_all [Place.Children]
  | finish succeeded =>
    have hchildren' : Place.Children .ended child := by
      cases succeeded <;> simp_all [Place.Children]
    cases parent with
    | accepted => exact absurd rfl haccepted
    | succeeded => exact absurd rfl hsucceeded
    | running =>
      cases succeeded with
      | false => exact ⟨hchildren', nofun, nofun, fun _ => rfl⟩
      | true => exact ⟨hchildren', nofun, fun _ => ⟨rfl, hchildren⟩, fun _ => rfl⟩
    | failed => cases succeeded <;> exact ⟨hchildren', nofun, nofun, fun _ => rfl⟩
    | cancelled => cases succeeded <;> exact ⟨hchildren', nofun, nofun, fun _ => rfl⟩
  | ended => exact absurd rfl hended

theorem inv_run (events : List Event) : Inv (run events) := by
  have hrun : ∀ s, Inv s → Inv (events.foldl step s) := by
    induction events with
    | nil => exact fun _ h => h
    | cons event rest ih =>
      intro s h
      cases event with
      | task good found => exact ih _ (h.task good found)
      | cancel => exact ih _ h.cancel
      | child phase next => exact ih _ (h.childMoved phase next)
  exact hrun {} ⟨⟨rfl, rfl⟩, fun h => absurd rfl h, nofun, nofun⟩

theorem Inv.truthful (h : Inv s) : Truthful s := by
  refine ⟨fun hserve => ?_, fun hparent => (h.success hparent).2, h.ended⟩
  have hchildren := h.children
  obtain ⟨parent, child, place⟩ := s
  rcases place with _ | _ | _ | _ | _ | _ | _ | _ | _ <;> (try rename_i phase; cases phase) <;>
    simp_all [Place.Children, State.accepted, Option.isSome_iff_ne_none]

/-! ## After a cancellation -/

structure Halted (accepted : Phase → Bool) (s : State) : Prop where
  parent : s.parent = .cancelled
  place : s.place.committed = false
  children : s.accepted = accepted

theorem Halted.task {accepted : Phase → Bool} (h : Halted accepted s) (good : Bool) (found : Option OperationState) :
    Halted accepted (s.task good found) := by
  obtain ⟨parent, child, place⟩ := s
  obtain ⟨rfl, hplace, hchildren⟩ := h
  cases place with
  | begin => exact ⟨rfl, rfl, hchildren⟩
  | settings phase => cases good <;> exact ⟨rfl, rfl, hchildren⟩
  | check phase => exact ⟨rfl, rfl, hchildren⟩
  | progress phase => cases hplace
  | call phase => cases hplace
  | poll phase =>
    simp only [State.task]
    split
    · split
      · split
        · cases phase <;> exact ⟨rfl, rfl, hchildren⟩
        · exact ⟨rfl, rfl, hchildren⟩
      · cases good <;> exact ⟨rfl, rfl, hchildren⟩
    · exact ⟨rfl, rfl, hchildren⟩
  | watch phase => exact ⟨rfl, rfl, hchildren⟩
  | finish succeeded => cases succeeded <;> exact ⟨rfl, rfl, hchildren⟩
  | ended => exact ⟨rfl, rfl, hchildren⟩

theorem Halted.run {accepted : Phase → Bool} (h : Halted accepted s) (events : List Event) :
    Halted accepted (events.foldl step s) := by
  induction events generalizing s with
  | nil => exact h
  | cons event rest ih =>
    cases event with
    | task good found => exact ih (h.task good found)
    | cancel => exact ih ⟨by simp [step, State.transition, h.parent, moved_cancelled, OperationState.isTerminal],
        h.place, h.children⟩
    | child phase next =>
      refine ih ⟨h.parent, h.place, ?_⟩
      rw [← h.children]
      exact funext (onward_child s.child phase next).accepted

theorem accepted_of_committed (h : Inv s) (hplace : s.place.committed = true) :
    ∃ events : List Event, (events.foldl step (s.transition .cancelled)).accepted ≠ s.accepted := by
  have hchildren := h.children
  obtain ⟨parent, child, place⟩ := s
  cases place with
  | progress phase =>
    refine ⟨[.task true (some .accepted), .task true (some .accepted)], fun heq => ?_⟩
    have := congrFun heq phase
    cases phase <;> simp_all [step, State.task, State.transition, State.accepted, Place.Children]
  | call phase =>
    refine ⟨[.task true (some .accepted)], fun heq => ?_⟩
    have := congrFun heq phase
    cases phase <;> simp_all [step, State.task, State.transition, State.accepted, Place.Children]
  | _ => cases hplace

theorem recovery_obeys_iff (events : List Event) :
    (∀ later, Truthful (run (events ++ later)) ∧ ((run events).parent.isTerminal = false →
        (run (events ++ .cancel :: later)).accepted = (run events).accepted)) ↔
      ((run events).parent.isTerminal = false → (run events).place.committed = false) := by
  have hinv := inv_run events
  have hcancel : ∀ later, run (events ++ .cancel :: later) = later.foldl step ((run events).transition .cancelled) :=
    fun later => List.foldl_append
  constructor
  · intro h hactive
    by_contra hplace
    obtain ⟨later, hne⟩ := accepted_of_committed hinv (Bool.not_eq_false _ ▸ hplace)
    exact hne (hcancel later ▸ (h later).2 hactive)
  · intro h later
    refine ⟨(inv_run _).truthful, fun hactive => ?_⟩
    rw [hcancel]
    have hhalted : Halted (run events).accepted ((run events).transition .cancelled) :=
      ⟨by simp [State.transition, moved_cancelled, hactive], h hactive, rfl⟩
    exact (hhalted.run later).children

end

/-- The cancellation comes right after the task has looked. -/
theorem stop_accepted_after_cancel : (run (List.replicate 3 (.task true none) ++ [.cancel])).parent = .cancelled ∧
    (run (List.replicate 3 (.task true none) ++ [.cancel])).accepted .stop = false ∧
    (run (List.replicate 3 (.task true none) ++ [.cancel, .task true none, .task true (some .accepted)])).accepted .stop =
      true := by
  decide

end Recovery

end Sparkplane

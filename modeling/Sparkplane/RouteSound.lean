import Mathlib.Data.List.FinRange
import Mathlib.Data.List.Permutation
import Sparkplane.Cell
import Sparkplane.Agent

/-!
# Concurrent route updates

Each call of the route registry copies the whole map between one load and one
store. `routes_linearize` says when calls on one registry take effect one after
another; `drained_route_returns` is the run of two calls that do not.
-/

namespace Sparkplane

abbrev RouteMap := String → Option RouteState

inductive RouteCall where
  | markWarming (name : String) (generation : Nat)
  | publish (name publicModel servedModel : String) (upstream : ObservedRoute)
  | drain (name : String) (generation : Nat)
  deriving DecidableEq

namespace RouteCall

/-- `update`: the copy with one entry replaced is stored. -/
def update (name : String) (state : RouteState) (snapshot : RouteMap) : Option RouteMap :=
  some (Function.update snapshot name (some state))

def next : RouteCall → RouteMap → Option RouteMap
  | .markWarming name generation, snapshot => update name (.warming generation) snapshot
  | .publish name publicModel servedModel upstream, snapshot =>
    update name (.healthy ⟨upstream.generation, publicModel, servedModel, upstream⟩) snapshot
  | .drain name generation, snapshot =>
    if (snapshot name).any (·.generation = generation) then some (Function.update snapshot name none)
    else none

def on (routes : RouteMap) (call : RouteCall) : RouteMap := (call.next routes).getD routes

def adds (name : String) : RouteCall → Bool
  | .markWarming name' _ => name' = name
  | .publish name' _ _ _ => name' = name
  | .drain _ _ => false

theorem on_drain (routes : RouteMap) (name : String) (generation : Nat) (k : String) :
    on routes (.drain name generation) k =
      if k = name then (routes k).filter (fun state => !decide (state.generation = generation)) else routes k := by
  show (ite _ _ _ : Option RouteMap).getD routes k = _
  by_cases hm : (routes name).any (·.generation = generation) = true
  · rw [if_pos hm, Option.getD_some, Function.update_apply]
    by_cases e : k = name
    · subst e
      obtain ⟨state, hs, hg⟩ := (Option.any_eq_true _ _).mp hm
      simp [hs, hg, Option.filter_some]
    · rw [if_neg e, if_neg e]
  · rw [if_neg hm, Option.getD_none]
    by_cases e : k = name
    · subst e
      cases hs : routes k with
      | none => simp
      | some state => simp [Option.filter_some, show state.generation ≠ generation by simpa [hs] using hm]
    · rw [if_neg e]

theorem on_absent {name : String} {call : RouteCall} (h : call.adds name = false) {routes : RouteMap}
    (hr : routes name = none) : call.on routes name = none := by
  cases call with
  | markWarming name' generation =>
    have hne : name ≠ name' := fun e => of_decide_eq_false h e.symm
    exact (Function.update_of_ne hne _ _).trans hr
  | publish name' publicModel servedModel upstream =>
    have hne : name ≠ name' := fun e => of_decide_eq_false h e.symm
    exact (Function.update_of_ne hne _ _).trans hr
  | drain name' generation => rw [on_drain, hr, Option.filter_none, ite_self]

end RouteCall

section
variable {n : Nat} (calls : Fin n → RouteCall)

abbrev raced (c : Cell (Fin n) RouteMap) (schedule : List (Fin n)) : Cell (Fin n) RouteMap :=
  c.run (fun i => (calls i).next) schedule

theorem routes_linearize (routes : RouteMap) (schedule : List (Fin n))
    (hfresh : Cell.FreshRun (fun i => (calls i).next) (.start routes) schedule) :
    (∃ order : List (Fin n), order.Nodup ∧
      (∀ i, i ∈ order ↔ (raced calls (.start routes) schedule).phase i = .finished) ∧
      (raced calls (.start routes) schedule).value = (order.map calls).foldl RouteCall.on routes) ∧
    ((∀ i, (raced calls (.start routes) schedule).phase i = .finished) →
      ∃ l : List RouteCall, l.Perm (List.ofFn calls) ∧
        (raced calls (.start routes) schedule).value = l.foldl RouteCall.on routes) ∧
    ∀ (name : String) (later : List (Fin n)),
      Cell.FreshRun (fun i => (calls i).next) (raced calls (.start routes) schedule) later →
      (∀ i ∈ later, (calls i).adds name = false) →
      (raced calls (.start routes) schedule).value name = none →
      (raced calls (raced calls (.start routes) schedule) later).value name = none := by
  have hlin := Cell.linear_run schedule (Cell.linear_start (v := routes)) hfresh
  have hvalue : (raced calls (.start routes) schedule).value =
      ((raced calls (.start routes) schedule).order.map calls).foldl RouteCall.on routes := by
    rw [List.foldl_map]
    exact hlin.value
  refine ⟨⟨_, hlin.nodup, hlin.finished, hvalue⟩, fun hall => ⟨_, ?_, hvalue⟩, fun name later hlater hadds => ?_⟩
  · rw [List.ofFn_eq_map]
    refine List.Perm.map calls ((List.perm_ext_iff_of_nodup hlin.nodup (List.nodup_finRange n)).mpr fun i => ?_)
    exact iff_of_true ((hlin.finished i).mpr (hall i)) (List.mem_finRange i)
  · exact Cell.keeps_run (P := fun routes => routes name = none) (A := fun i => (calls i).adds name = false)
      (fun i hi _ hv => RouteCall.on_absent hi hv) later hadds hlater

end

/-! ## Two calls at once -/

def drainAndWarm : Fin 2 → RouteCall
  | 0 => .drain "a" 1
  | 1 => .markWarming "b" 1

def warmA : RouteMap := fun name => if name = "a" then some (.warming 1) else none

theorem routes_linearize_in_turn : ∃ l : List RouteCall, l.Perm (List.ofFn drainAndWarm) ∧
      (raced drainAndWarm (.start warmA) [0, 0, 1, 1]).value = l.foldl RouteCall.on warmA :=
  (routes_linearize drainAndWarm warmA [0, 0, 1, 1] ⟨trivial, rfl, trivial, rfl, trivial⟩).2.1
    fun | 0 => rfl | 1 => rfl

theorem drained_route_returns : (∀ i, (raced drainAndWarm (.start warmA) [1, 0, 0, 1]).phase i = .finished) ∧
    (raced drainAndWarm (.start warmA) [1, 0, 0]).value "a" = none ∧
    (raced drainAndWarm (.start warmA) [1, 0, 0, 1]).value "a" = some (.warming 1) ∧
    ∀ l : List RouteCall, l.Perm (List.ofFn drainAndWarm) → l.foldl RouteCall.on warmA "a" = none := by
  refine ⟨fun | 0 => rfl | 1 => rfl, rfl, rfl, fun l hl => ?_⟩
  have hl := List.mem_permutations'.mpr hl
  have h : ∀ l ∈ (List.ofFn drainAndWarm).permutations', l.foldl RouteCall.on warmA "a" = none := by decide +kernel
  exact h l hl

end Sparkplane

import Mathlib.Data.List.Nodup
import Mathlib.Logic.Function.Basic

/-!
# A cell that is loaded, copied and stored

Calls share one cell. A call loads the value, computes the next one from what it
loaded, and stores it in a second step; between the two other calls may take
steps of theirs. `next i v` is what call `i` stores after loading `v`, and
`none` if it then ends without a store. Under `Fresh` stores the calls take
effect one after another (`linear_run`).
-/

namespace Sparkplane

inductive Phase (σ : Type) where
  | waiting
  | loaded (snapshot : σ)
  | finished

/-- The cell, the calls on it, and the order in which calls took effect. -/
structure Cell (ι σ : Type) where
  value : σ
  phase : ι → Phase σ
  order : List ι

namespace Cell

variable {ι σ : Type} [DecidableEq ι] (next : ι → σ → Option σ)

def start (v : σ) : Cell ι σ := ⟨v, fun _ => .waiting, []⟩

def step (c : Cell ι σ) (i : ι) : Cell ι σ :=
  match c.phase i with
  | .waiting =>
    match next i c.value with
    | some _ => { c with phase := Function.update c.phase i (.loaded c.value) }
    | none => ⟨c.value, Function.update c.phase i .finished, c.order ++ [i]⟩
  | .loaded snapshot =>
    ⟨(next i snapshot).getD c.value, Function.update c.phase i .finished, c.order ++ [i]⟩
  | .finished => c

def run (c : Cell ι σ) (schedule : List ι) : Cell ι σ := schedule.foldl (step next) c

/-- The call would store the same if it loaded the cell now. -/
def Fresh (c : Cell ι σ) (i : ι) : Prop :=
  match c.phase i with
  | .loaded snapshot => next i snapshot = next i c.value
  | _ => True

/-- Every step of the schedule is taken in a state where it is fresh. -/
def FreshRun : Cell ι σ → List ι → Prop
  | _, [] => True
  | c, i :: rest => Fresh next c i ∧ FreshRun (step next c i) rest

def atomically (v : σ) (i : ι) : σ := (next i v).getD v

structure Linear (v : σ) (c : Cell ι σ) : Prop where
  value : c.value = c.order.foldl (atomically next) v
  nodup : c.order.Nodup
  finished : ∀ i, i ∈ c.order ↔ c.phase i = .finished

variable {next} {v : σ} {c : Cell ι σ} {i : ι}

omit [DecidableEq ι] in
theorem linear_start : Linear next v (start v) := ⟨rfl, .nil, fun _ => ⟨nofun, nofun⟩⟩

theorem Linear.finish (h : Linear next v c) (hopen : c.phase i ≠ .finished) :
    Linear next v ⟨atomically next c.value i, Function.update c.phase i .finished, c.order ++ [i]⟩ := by
  refine ⟨?_, ?_, fun j => ?_⟩
  · rw [List.foldl_append, ← h.value]
    rfl
  · have hi : i ∉ c.order := fun hm => hopen ((h.finished i).mp hm)
    refine List.nodup_append.mpr ⟨h.nodup, List.nodup_singleton i, fun a ha b hb e => ?_⟩
    rw [List.mem_singleton.mp hb] at e
    exact hi (e ▸ ha)
  · by_cases e : j = i
    · subst e
      simp
    · simp [h.finished j, e]

theorem Linear.step (h : Linear next v c) (hf : Fresh next c i) : Linear next v (step next c i) := by
  unfold Cell.step
  unfold Fresh at hf
  cases hp : c.phase i with
  | waiting =>
    have hopen : c.phase i ≠ .finished := by rw [hp]; nofun
    dsimp only
    cases hn : next i c.value with
    | none =>
      have hsame : atomically next c.value i = c.value := by rw [atomically, hn]; rfl
      exact hsame ▸ h.finish hopen
    | some _ =>
      refine ⟨h.value, h.nodup, fun j => ?_⟩
      by_cases e : j = i
      · subst e
        rw [h.finished, hp]
        simp
      · rw [h.finished j]
        dsimp only
        rw [Function.update_of_ne e]
  | loaded snapshot =>
    rw [hp] at hf
    dsimp only at hf ⊢
    rw [hf]
    exact h.finish (by rw [hp]; nofun)
  | finished => exact h

theorem linear_run : ∀ (schedule : List ι) {c : Cell ι σ}, Linear next v c → FreshRun next c schedule →
    Linear next v (run next c schedule)
  | [], _, h, _ => h
  | _ :: rest, _, h, hf => linear_run rest (h.step hf.1) hf.2

theorem keeps_run {P : σ → Prop} {A : ι → Prop} (hkeep : ∀ i, A i → ∀ v, P v → P (atomically next v i)) :
    ∀ (schedule : List ι) {c : Cell ι σ}, (∀ i ∈ schedule, A i) → FreshRun next c schedule →
      P c.value → P (run next c schedule).value
  | [], _, _, _, h => h
  | i :: rest, c, hall, hf, h => by
    refine keeps_run hkeep rest (fun j hj => hall j (List.mem_cons_of_mem _ hj)) hf.2 ?_
    have hnow := hkeep i (hall i (List.mem_cons_self ..)) c.value h
    have hfresh := hf.1
    unfold Fresh at hfresh
    unfold Cell.step
    cases hp : c.phase i with
    | waiting => dsimp only; cases next i c.value <;> exact h
    | loaded snapshot =>
      rw [hp] at hfresh
      dsimp only at hfresh ⊢
      rw [hfresh]
      exact hnow
    | finished => exact h

end Cell

end Sparkplane

import Mathlib.Data.List.Basic

/-!
# Interleaved programs

A program is a tree of effects over a shared world; each effect is one atomic
step. A pool runs any number of programs in any order, and an effect may start
a further task, which joins at the end of the pool, so a task keeps its index.
`Rules` restricts which steps a run may take. `Runs.verified` is the proof
rule: each task is verified alone against a `rely` that the others' `guar`
implies.
-/

inductive Prog (E : Type) (R : E → Type) (A : Type) : Type where
  | ret (a : A)
  | op (e : E) (k : R e → Prog E R A)

namespace Prog

variable {E : Type} {R : E → Type} {A B : Type}

def bind : Prog E R A → (A → Prog E R B) → Prog E R B
  | .ret a, f => f a
  | .op e k, f => .op e fun r => (k r).bind f

instance : Monad (Prog E R) where
  pure := .ret
  bind := bind

def perform (e : E) : Prog E R (R e) := .op e .ret

/-- The effect the program is about to perform, none when it has returned. -/
def next : Prog E R A → Option E
  | .ret _ => none
  | .op e _ => some e

def Uses (P : E → Prop) : Prog E R A → Prop
  | .ret _ => True
  | .op e k => P e ∧ ∀ r, (k r).Uses P

structure Closed (G : (A : Type) → Prog E R A → Prop) : Prop where
  ret : ∀ {A : Type} (a : A), G A (.ret a)
  bind : ∀ {A B : Type} {p : Prog E R A} {f : A → Prog E R B}, G A p → (∀ a, G B (f a)) → G B (p.bind f)

def Returns (P : A → Prop) : Prog E R A → Prop
  | .ret a => P a
  | .op _ k => ∀ r, (k r).Returns P

@[simp] theorem pure_def (a : A) : (Pure.pure a : Prog E R A) = .ret a := rfl

@[simp] theorem bind_def (p : Prog E R A) (f : A → Prog E R B) : (p >>= f) = p.bind f := rfl

@[simp] theorem ret_bind (a : A) (f : A → Prog E R B) : (ret a : Prog E R A).bind f = f a := rfl

@[simp] theorem op_bind (e : E) (k : R e → Prog E R A) (f : A → Prog E R B) :
    (op e k).bind f = op e fun r => (k r).bind f := rfl

@[simp] theorem perform_bind (e : E) (f : R e → Prog E R A) : (perform e).bind f = op e f := rfl

@[simp] theorem uses_ret (P : E → Prop) (a : A) : (ret a : Prog E R A).Uses P := trivial

@[simp] theorem uses_op (P : E → Prop) (e : E) (k : R e → Prog E R A) :
    (op e k).Uses P ↔ P e ∧ ∀ r, (k r).Uses P := Iff.rfl

@[simp] theorem uses_perform (P : E → Prop) (e : E) : (perform (R := R) e).Uses P ↔ P e := by
  simp [perform]

theorem Uses.bind {P : E → Prop} {f : A → Prog E R B} :
    ∀ {p : Prog E R A}, p.Uses P → (∀ a, (f a).Uses P) → (p.bind f).Uses P
  | .ret a, _, hf => hf a
  | .op _ _, hp, hf => ⟨hp.1, fun r => Uses.bind (hp.2 r) hf⟩

theorem uses_closed (P : E → Prop) : Closed fun _ p => Uses (R := R) P p :=
  ⟨fun _ => trivial, Uses.bind⟩

theorem Uses.mono {P Q : E → Prop} (h : ∀ e, P e → Q e) : ∀ {p : Prog E R A}, p.Uses P → p.Uses Q
  | .ret _, _ => trivial
  | .op _ _, hp => ⟨h _ hp.1, fun r => Uses.mono h (hp.2 r)⟩

end Prog

/-- Who takes the step, the index a started task gets, and what the outside
world answers. -/
structure Turn (O : Type) where
  self : Nat
  fresh : Nat
  oracle : O

structure Machine (W L E : Type) (R : E → Type) (O A : Type) where
  exec : Turn O → (e : E) → W → R e × W
  starts : E → Option L
  code : L → Prog E R A

structure Config (W L E : Type) (R : E → Type) (A : Type) where
  world : W
  tasks : List (L × Prog E R A)

/-- Which steps a run may take: `allow` looks at the world, `apart` at where
each other task stands. -/
structure Rules (W L E O : Type) where
  allow : L → E → O → W → Bool
  apart : L → E → L → Option E → Bool

def Rules.free {W L E O : Type} : Rules W L E O := ⟨fun _ _ _ _ => true, fun _ _ _ _ => true⟩

namespace Machine

variable {W L E : Type} {R : E → Type} {O A : Type} (M : Machine W L E R O A)

def started (e : E) : List (L × Prog E R A) :=
  match M.starts e with
  | some l => [(l, M.code l)]
  | none => []

/-- Task `i` performs its next effect, if the rules let it. -/
def fire (C : Rules W L E O) (c : Config W L E R A) (i : Nat) (o : O) : Option (Config W L E R A) :=
  match c.tasks[i]? with
  | some (l, .op e k) =>
    if C.allow l e o c.world && (c.tasks.eraseIdx i).all fun t => C.apart l e t.1 t.2.next then
      let out := M.exec ⟨i, c.tasks.length, o⟩ e c.world
      some ⟨out.2, c.tasks.set i (l, k out.1) ++ M.started e⟩
    else none
  | _ => none

/-- The configurations that runs from `c₀` within the rules reach. -/
inductive Runs (C : Rules W L E O) (c₀ : Config W L E R A) : Config W L E R A → Prop
  | start : Runs C c₀ c₀
  | step {c c' : Config W L E R A} {i : Nat} {o : O} :
      Runs C c₀ c → M.fire C c i o = some c' → Runs C c₀ c'

def run (C : Rules W L E O) : Config W L E R A → List (Nat × O) → Option (Config W L E R A)
  | c, [] => some c
  | c, (i, o) :: rest => (M.fire C c i o).bind (run C · rest)

variable {M} {C : Rules W L E O} {c₀ c c' : Config W L E R A}

theorem fire_some {i : Nat} {o : O} (h : M.fire C c i o = some c') :
    ∃ l e k, c.tasks[i]? = some (l, .op e k) ∧ C.allow l e o c.world = true ∧
      (∀ (j : Nat) (t : L × Prog E R A), j ≠ i → c.tasks[j]? = some t → C.apart l e t.1 t.2.next = true) ∧
      c' = ⟨(M.exec ⟨i, c.tasks.length, o⟩ e c.world).2,
        c.tasks.set i (l, k (M.exec ⟨i, c.tasks.length, o⟩ e c.world).1) ++ M.started e⟩ := by
  unfold fire at h
  split at h
  · rename_i l e k hi
    split at h
    · rename_i hC
      cases h
      rw [Bool.and_eq_true, List.all_eq_true] at hC
      refine ⟨l, e, k, hi, hC.1, fun j t hj ht => ?_, rfl⟩
      exact hC.2 t (List.mem_eraseIdx_iff_getElem?.mpr ⟨j, hj, ht⟩)
    · cases h
  · cases h

theorem runs_of_run : ∀ {s : List (Nat × O)} {c c' : Config W L E R A},
    M.Runs C c₀ c → M.run C c s = some c' → M.Runs C c₀ c'
  | [], _, _, hc, h => by cases h; exact hc
  | (i, o) :: s, c, c', hc, h => by
    obtain ⟨c1, h1, h2⟩ := Option.bind_eq_some_iff.mp h
    exact runs_of_run (.step hc h1) h2

theorem reaches_of_run {s : List (Nat × O)} {p : Config W L E R A → Bool}
    (h : (M.run C c₀ s).any p = true) : ∃ c, M.Runs C c₀ c ∧ p c = true := by
  obtain ⟨c, hr, hp⟩ := (Option.any_eq_true _ _).mp h
  exact ⟨c, runs_of_run .start hr, hp⟩

theorem exists_of_run (s : List (Nat × O)) {P : Config W L E R A → Prop} [DecidablePred P]
    (h : (M.run C c₀ s).any (fun c => decide (P c)) = true) : ∃ c, M.Runs C c₀ c ∧ P c := by
  obtain ⟨c, hr, hp⟩ := reaches_of_run h
  exact ⟨c, hr, of_decide_eq_true hp⟩

theorem tasks_after {i : Nat} {t : L × Prog E R A} {e : E} {j : Nat} {x : L × Prog E R A}
    (h : (c.tasks.set i t ++ M.started e)[j]? = some x) :
    (j = i ∧ x = t) ∨ (j ≠ i ∧ c.tasks[j]? = some x) ∨
      (j = c.tasks.length ∧ ∃ l, M.starts e = some l ∧ x = (l, M.code l)) := by
  rcases Nat.lt_or_ge j c.tasks.length with hj | hj
  · rw [List.getElem?_append_left (by simpa using hj), List.getElem?_set] at h
    by_cases e' : i = j
    · subst e'; simp [hj] at h; exact .inl ⟨rfl, h.symm⟩
    · simp [e'] at h; exact .inr (.inl ⟨fun x => e' x.symm, h⟩)
  · rw [List.getElem?_append_right (by simpa using hj), List.length_set] at h
    refine .inr (.inr ?_)
    unfold started at h
    cases hs : M.starts e with
    | none => simp [hs] at h
    | some l =>
      rw [hs] at h
      obtain ⟨h0, rfl⟩ := List.getElem?_eq_some_iff.mp h
      simp only [List.length_cons, List.length_nil] at h0
      have : j = c.tasks.length := by omega
      subst this
      exact ⟨rfl, l, rfl, by simp⟩

theorem Runs.label (h : M.Runs C c₀ c) {j : Nat} {l : L} {p : Prog E R A}
    (hj : c₀.tasks[j]? = some (l, p)) : ∃ p', c.tasks[j]? = some (l, p') := by
  induction h with
  | start => exact ⟨p, hj⟩
  | @step c c' i o _ hf ih =>
    obtain ⟨p', hp'⟩ := ih
    obtain ⟨l', e, k, hi, _, _, rfl⟩ := fire_some hf
    have hlt : j < c.tasks.length := (List.getElem?_eq_some_iff.mp hp').1
    rw [List.getElem?_append_left (by simpa using hlt), List.getElem?_set]
    by_cases e' : i = j
    · subst e'
      rw [hi] at hp'
      cases hp'
      exact ⟨_, by rw [if_pos rfl, if_pos hlt]⟩
    · exact ⟨p', by simp [e', hp']⟩

theorem Runs.remembered {m : W → L → Prop} (h : M.Runs C c₀ c)
    (hexec : ∀ t e w l, m (M.exec t e w).2 l → m w l ∨ M.starts e = some l)
    (h0 : ∀ l, m c₀.world l → ∃ (j : Nat) (p : Prog E R A), c₀.tasks[j]? = some (l, p)) :
    ∀ l, m c.world l → ∃ (j : Nat) (p : Prog E R A), c.tasks[j]? = some (l, p) := by
  induction h with
  | start => exact h0
  | @step c c' i o hc hf ih =>
    intro l hl
    obtain ⟨l', e, k, hi, _, _, rfl⟩ := fire_some hf
    rcases hexec _ e _ l hl with hl | hl
    · obtain ⟨j, p, hj⟩ := ih l hl
      obtain ⟨p', hp'⟩ := (Runs.step .start hf).label hj
      exact ⟨j, p', hp'⟩
    · refine ⟨c.tasks.length, M.code l, ?_⟩
      show (c.tasks.set i _ ++ M.started e)[_]? = _
      rw [List.getElem?_append_right (by simp)]
      simp [started, hl]

/-! ## Verifying one task at a time -/

/-- How a task labelled `l` at index `i` and the others deal with each other.
The world keeps `inv`. A task relies on `rely` between its own steps, which
depends on the effect it is about to perform, and promises `guar` for its own;
`born` is what it owes to a task it starts. `stands` is a fact that holds
wherever the task is about to perform an effect; from these facts of all tasks
follows `given`, which a step may use. -/
structure Contract (M : Machine W L E R O A) where
  rules : Rules W L E O
  inv : W → Prop
  rely : L → Nat → Option E → W → W → Prop
  guar : L → Nat → E → W → W → Prop
  born : L → Nat → W → Prop
  stands : L → Nat → E → W → Prop := fun _ _ _ _ => True
  given : L → Nat → E → W → Prop := fun _ _ _ _ => True

structure Contract.Pays (K : Contract M) (l : L) (i n : Nat) (e : E) (w w' : W) : Prop where
  inv : K.inv w'
  guar : K.guar l i e w w'
  born : ∀ l', M.starts e = some l' → K.born l' n w'

theorem Contract.Pays.alone {K : Contract M} {l : L} {i n : Nat} {e : E} {w w' : W}
    (hs : M.starts e = none) (hinv : K.inv w') (hguar : K.guar l i e w w') : K.Pays l i n e w w' :=
  ⟨hinv, hguar, fun l' h => by rw [hs] at h; cases h⟩

def wp (K : Contract M) (l : L) (i : Nat) {B : Type} (Q : B → W → Prop) : Prog E R B → W → Prop
  | .ret a, w => Q a w
  | .op e k, w => ∀ w', K.rely l i (some e) w w' → K.inv w' → K.stands l i e w' ∧
      ∀ n o, i < n → K.rules.allow l e o w' = true → K.given l i e w' → K.Pays l i n e w' (M.exec ⟨i, n, o⟩ e w').2 ∧
        wp K l i Q (k (M.exec ⟨i, n, o⟩ e w').1) (M.exec ⟨i, n, o⟩ e w').2

section
variable {K : Contract M} {l : L} {i : Nat} {B D : Type}

theorem wp_mono {Q Q' : B → W → Prop} (h : ∀ a w, Q a w → Q' a w) :
    ∀ {p : Prog E R B} {w : W}, wp K l i Q p w → wp K l i Q' p w
  | .ret _, _, hp => h _ _ hp
  | .op _ _, _, hp => fun w' hr hi =>
    ⟨(hp w' hr hi).1, fun n o hn ha hg =>
      have := (hp w' hr hi).2 n o hn ha hg
      ⟨this.1, wp_mono h this.2⟩⟩

theorem wp_bind {Q : D → W → Prop} {f : B → Prog E R D} :
    ∀ {p : Prog E R B} {w : W}, wp K l i (fun a => wp K l i Q (f a)) p w → wp K l i Q (p.bind f) w
  | .ret _, _, hp => hp
  | .op _ _, _, hp => fun w' hr hi =>
    ⟨(hp w' hr hi).1, fun n o hn ha hg =>
      have := (hp w' hr hi).2 n o hn ha hg
      ⟨this.1, wp_bind this.2⟩⟩

theorem wp.bind {Q : B → W → Prop} {Q' : D → W → Prop} {p : Prog E R B} {f : B → Prog E R D} {w : W}
    (hp : wp K l i Q p w) (hf : ∀ a w, Q a w → wp K l i Q' (f a) w) : wp K l i Q' (p.bind f) w :=
  wp_bind (wp_mono hf hp)

theorem wp_returns {Q : B → W → Prop} {P : B → Prop} :
    ∀ {p : Prog E R B} {w : W}, p.Returns P → wp K l i Q p w → wp K l i (fun a w => P a ∧ Q a w) p w
  | .ret _, _, hP, hp => ⟨hP, hp⟩
  | .op _ _, _, hP, hp => fun w' hr hi =>
    ⟨(hp w' hr hi).1, fun n o hn ha hg =>
      have := (hp w' hr hi).2 n o hn ha hg
      ⟨this.1, wp_returns (hP _) this.2⟩⟩

theorem safe_closed (K : Contract M) (l : L) (i : Nat) (F : W → Prop) :
    Prog.Closed fun _ (p : Prog E R _) => ∀ w, F w → wp K l i (fun _ => F) p w :=
  ⟨fun _ _ h => h, fun hp hf w h => (hp w h).bind hf⟩

theorem wp_uses {P : E → Prop} {F : W → Prop} (hrely : ∀ e w w', P e → K.rely l i (some e) w w' → F w → F w')
    (hstep : ∀ e w, P e → K.inv w → F w → K.stands l i e w ∧
      ∀ n o, i < n → K.rules.allow l e o w = true → K.given l i e w →
        K.Pays l i n e w (M.exec ⟨i, n, o⟩ e w).2 ∧ F (M.exec ⟨i, n, o⟩ e w).2) :
    ∀ {p : Prog E R B} {w : W}, p.Uses P → F w → wp K l i (fun _ => F) p w
  | .ret _, _, _, hw => hw
  | .op _ _, _, hp, hw => fun w' hr hi =>
    have hs := hstep _ w' hp.1 hi (hrely _ _ _ hp.1 hr hw)
    ⟨hs.1, fun n o hn ha hg =>
      have := hs.2 n o hn ha hg
      ⟨this.1, wp_uses hrely hstep (hp.2 _) this.2⟩⟩

end

def Contract.Shows (K : Contract M) (Q : L → Nat → A → W → Prop) (t : L × Prog E R A) (i : Nat) (w : W) : Prop :=
  match t.2 with
  | .ret a => Q t.1 i a w
  | .op e _ => K.stands t.1 i e w

structure Contract.Sound (K : Contract M) (Q : L → Nat → A → W → Prop) : Prop where
  refl : ∀ l i n w, K.rely l i n w w
  trans : ∀ l i n w₁ w₂ w₃, K.rely l i n w₁ w₂ → K.rely l i n w₂ w₃ → K.rely l i n w₁ w₃
  compat : ∀ l i e w w' l' j n, i ≠ j → K.rules.apart l e l' n = true → K.inv w → K.guar l i e w w' →
    K.rely l' j n w w'
  stable : ∀ l i a w w', K.rely l i none w w' → Q l i a w → Q l i a w'
  start : ∀ l i w, K.born l i w → K.inv w → wp K l i (Q l i) (M.code l) w

def Contract.Verified (K : Contract M) (Q : L → Nat → A → W → Prop) (c : Config W L E R A) : Prop :=
  K.inv c.world ∧ ∀ (i : Nat) (t : L × Prog E R A), c.tasks[i]? = some t → wp K t.1 i (Q t.1 i) t.2 c.world

section
variable {K : Contract M} {Q : L → Nat → A → W → Prop}

theorem wp_rely (hK : K.Sound Q) {l : L} {i : Nat} {w w' : W} {p : Prog E R A}
    (hr : K.rely l i p.next w w') (hp : wp K l i (Q l i) p w) : wp K l i (Q l i) p w' := by
  cases p with
  | ret a => exact hK.stable l i a w w' hr hp
  | op e k => exact fun w'' h => hp w'' (hK.trans _ _ _ _ _ _ hr h)

theorem Contract.Verified.shows (hK : K.Sound Q) (h : K.Verified Q c) {i : Nat} {t : L × Prog E R A}
    (ht : c.tasks[i]? = some t) : K.Shows Q t i c.world := by
  obtain ⟨l, p⟩ := t
  have := h.2 i _ ht
  cases p with
  | ret a => exact this
  | op e k => exact (this c.world (hK.refl _ _ _ _) h.1).1

theorem Contract.Verified.start (hK : K.Sound Q) {w : W} {ls : List L} (hinv : K.inv w)
    (hborn : ∀ (i : Nat) (l : L), ls[i]? = some l → K.born l i w) :
    K.Verified Q ⟨w, ls.map fun l => (l, M.code l)⟩ := by
  refine ⟨hinv, fun i t ht => ?_⟩
  rw [List.getElem?_map] at ht
  obtain ⟨l, hl, rfl⟩ := Option.map_eq_some_iff.mp ht
  exact hK.start l i w (hborn i l hl) hinv

theorem Runs.verified (hK : K.Sound Q) (h0 : K.Verified Q c₀) (hgiven : ∀ c i l e k, M.Runs K.rules c₀ c →
      (∀ (j : Nat) (t : L × Prog E R A), c.tasks[j]? = some t → K.Shows Q t j c.world) →
      c.tasks[i]? = some (l, .op e k) →
      (∀ (j : Nat) (t : L × Prog E R A), j ≠ i → c.tasks[j]? = some t →
        K.rules.apart l e t.1 t.2.next = true) → K.given l i e c.world)
    (h : M.Runs K.rules c₀ c) : K.Verified Q c := by
  induction h with
  | start => exact h0
  | @step c c' i o hc hf ih =>
    obtain ⟨l, e, k, hi, hallow, hapart, rfl⟩ := fire_some hf
    have hlt : i < c.tasks.length := (List.getElem?_eq_some_iff.mp hi).1
    have hg := hgiven c i l e k hc (fun j t ht => ih.shows hK ht) hi hapart
    obtain ⟨hpay, hw⟩ := (ih.2 i _ hi c.world (hK.refl _ _ _ _) ih.1).2 c.tasks.length o hlt hallow hg
    refine ⟨hpay.inv, fun j t hj => ?_⟩
    rcases tasks_after hj with ⟨rfl, rfl⟩ | ⟨hne, hj⟩ | ⟨rfl, l', hl', rfl⟩
    · exact hw
    · exact wp_rely hK (hK.compat l i e _ _ t.1 j _ (Ne.symm hne) (hapart j t hne hj) ih.1 hpay.guar) (ih.2 j _ hj)
    · exact hK.start l' _ _ (hpay.born l' hl') hpay.inv

end

end Machine

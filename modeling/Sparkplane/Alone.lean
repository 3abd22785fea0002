import Sparkplane.Prog

/-!
# A program alone

`Evals`: one task of a pool runs to its end while the others wait; the effects
it performs and the answers they meet are kept in order. `Evals.runs` finds such a run in the pool.
`Leads` is the same up to some point of the program, for a program that starts
no tasks.
-/

namespace Machine

variable {W L E : Type} {R : E → Type} {O A B C : Type} (M : Machine W L E R O A)

/-- Task `i` of a pool of `n` tasks goes from `w` to `w'` and returns `b`. -/
inductive Evals (i : Nat) : Nat → Prog E R B → W → B → W → List (E × O) → Prop
  | ret {n : Nat} {b : B} {w : W} : Evals i n (.ret b) w b w []
  | op {n : Nat} {e : E} {k : R e → Prog E R B} {w w' : W} {b : B} {es : List (E × O)} (o : O) :
      Evals i (n + (M.started e).length) (k (M.exec ⟨i, n, o⟩ e w).1) (M.exec ⟨i, n, o⟩ e w).2 b w' es →
      Evals i n (.op e k) w b w' ((e, o) :: es)

variable {M} {i : Nat} {es : List (E × O)} {n : Nat} {w w' : W}

theorem Evals.of_op {e : E} {k : R e → Prog E R B} {b : B} (h : M.Evals i n (.op e k) w b w' es) :
    ∃ t n' es', es = (e, t.oracle) :: es' ∧ M.Evals i n' (k (M.exec t e w).1) (M.exec t e w).2 b w' es' := by
  cases h with
  | op o h => exact ⟨⟨i, n, o⟩, _, _, rfl, h⟩

theorem Evals.of_bind {f : B → Prog E R C} {c : C} {w'' : W} : ∀ {p : Prog E R B} {n : Nat} {w : W} {es : List (E × O)},
    M.Evals i n (p.bind f) w c w'' es → ∃ b w' n' es1 es2, M.Evals i n p w b w' es1 ∧
      M.Evals i n' (f b) w' c w'' es2 ∧ es = es1 ++ es2
  | .ret b, n, w, es, h => ⟨b, w, n, [], es, .ret, h, rfl⟩
  | .op e k, n, w, _, .op o h => by
    obtain ⟨b, w', n', es1, es2, h1, h2, rfl⟩ := of_bind h
    exact ⟨b, w', n', (e, o) :: es1, es2, .op o h1, h2, rfl⟩

theorem Evals.keeps {P : W → W → Prop} [Std.Refl P] [IsTrans W P] {p : Prog E R B} {b : B}
    (hstep : ∀ t e w, P w (M.exec t e w).2) (h : M.Evals i n p w b w' es) : P w w' := by
  induction h with
  | ret => exact Std.Refl.refl _
  | op o _ ih => exact IsTrans.trans _ _ _ (hstep _ _ _) ih

theorem Runs.trans {K : Rules W L E O} {c0 c c' : Config W L E R A} (h : M.Runs K c0 c) (h' : M.Runs K c c') :
    M.Runs K c0 c' := by
  induction h' with
  | start => exact h
  | step _ hf ih => exact .step ih hf

theorem Evals.runs {l : L} {p : Prog E R A} {a : A} (h : M.Evals i n p w a w' es) :
    ∀ {c : Config W L E R A}, c.world = w → c.tasks.length = n →
    c.tasks[i]? = some (l, p) →
    ∃ c', M.Runs .free c c' ∧ c'.world = w' ∧ c'.tasks[i]? = some (l, .ret a) := by
  induction h with
  | ret => intro c hw _ hi; exact ⟨c, .start, hw, hi⟩
  | @op n e k w w' b es o _ ih =>
    intro c hw hn hi
    subst hw hn
    have hlt : i < c.tasks.length := (List.getElem?_eq_some_iff.mp hi).1
    let c1 : Config W L E R A := ⟨(M.exec ⟨i, c.tasks.length, o⟩ e c.world).2,
      c.tasks.set i (l, k (M.exec ⟨i, c.tasks.length, o⟩ e c.world).1) ++ M.started e⟩
    have hfire : M.fire .free c i o = some c1 := by
      unfold fire
      simp [hi, Rules.free, c1]
    obtain ⟨c', hrun, hw', hi'⟩ := ih (c := c1) rfl (by simp [c1]) (by
      rw [List.getElem?_append_left (by simpa using hlt), List.getElem?_set]
      simp [hlt])
    exact ⟨c', Runs.trans (.step .start hfire) hrun, hw', hi'⟩

def eval (M : Machine W L E R O A) (i : Nat) (o : O) : Nat → Prog E R B → W → B × W × List (E × O)
  | _, .ret b, w => (b, w, [])
  | n, .op e k, w =>
    let out := M.exec ⟨i, n, o⟩ e w
    let rest := M.eval i o (n + (M.started e).length) (k out.1) out.2
    (rest.1, rest.2.1, (e, o) :: rest.2.2)

theorem evals_eval (o : O) : ∀ (p : Prog E R B) (n : Nat) (w : W),
    M.Evals i n p w (M.eval i o n p w).1 (M.eval i o n p w).2.1 (M.eval i o n p w).2.2
  | .ret _, _, _ => .ret
  | .op _ _, _, _ => .op o (evals_eval o _ _ _)

/-- Task `i` of a pool of `n` tasks performs `es` and is then at `q`. -/
inductive Leads (M : Machine W L E R O A) (i n : Nat) :
    Prog E R B → W → Prog E R B → W → List (E × O) → Prop
  | here {p : Prog E R B} {w : W} : Leads M i n p w p w []
  | op {e : E} {k : R e → Prog E R B} {w w' : W} {q : Prog E R B} {es : List (E × O)} (o : O)
      (hs : M.starts e = none) :
      Leads M i n (k (M.exec ⟨i, n, o⟩ e w).1) (M.exec ⟨i, n, o⟩ e w).2 q w' es →
      Leads M i n (.op e k) w q w' ((e, o) :: es)

section
variable {n : Nat} {p q r : Prog E R B} {w w₁ w₂ : W} {es es' : List (E × O)}

theorem Leads.trans (h : M.Leads i n p w q w₁ es) (h' : M.Leads i n q w₁ r w₂ es') :
    M.Leads i n p w r w₂ (es ++ es') := by
  induction h with
  | here => exact h'
  | op o hs _ ih => exact .op o hs (ih h')

theorem Leads.bind (h : M.Leads i n p w q w₁ es) (f : B → Prog E R C) : M.Leads i n (p.bind f) w (q.bind f) w₁ es := by
  induction h with
  | here => exact .here
  | op o hs _ ih => exact .op o hs ih

theorem Leads.keeps {P : W → W → Prop} [Std.Refl P] [IsTrans W P] {U : E → Prop} (h : M.Leads i n p w q w₁ es)
    (hstep : ∀ t e w, U e → P w (M.exec t e w).2) (hp : p.Uses U) : P w w₁ := by
  induction h with
  | here => exact Std.Refl.refl _
  | op o hs _ ih => exact IsTrans.trans _ _ _ (hstep _ _ _ hp.1) (ih (hp.2 _))

theorem Leads.evals {b : B} (h : M.Leads i n p w (.ret b) w₁ es) : M.Evals i n p w b w₁ es := by
  generalize hq : Prog.ret b = q at h
  induction h with
  | here => subst hq; exact .ret
  | @op e k w w' q es o hs _ ih =>
    refine .op o ?_
    have hstarted : M.started e = [] := by
      unfold started
      rw [hs]
    rw [hstarted]
    exact ih hq

end

end Machine

import Sparkplane.Alone

/-!
# The path of one task

`Path`: what one task of the pool did itself in a run, while the others took any steps between.
`Follows` is the same seen from its program: each effect with the turn and the world it met. What
every step of every task keeps holds between all points of a path.
-/

namespace Prog

variable {E : Type} {R : E → Type} {A B C : Type}

theorem bind_assoc {f : A → Prog E R B} {g : B → Prog E R C} :
    ∀ p : Prog E R A, (p.bind f).bind g = p.bind fun a => (f a).bind g
  | .ret _ => rfl
  | .op e k => congrArg (op e) (funext fun r => bind_assoc (k r))

end Prog

def Config.returned {W L E : Type} {R : E → Type} {A : Type} (c : Config W L E R A) (i : Nat) : Option A :=
  match c.tasks[i]? with
  | some (_, .ret a) => some a
  | _ => none

namespace Machine

variable {W L E : Type} {R : E → Type} {O A B C : Type} {M : Machine W L E R O A}

/-- One step of a task: the effect, the turn, and the world before it. -/
structure Step (W E O : Type) where
  eff : E
  turn : Turn O
  world : W

def Step.after (M : Machine W L E R O A) (x : Step W E O) : W := (M.exec x.turn x.eff x.world).2

inductive Follows (M : Machine W L E R O A) : Prog E R B → List (Step W E O) → Prog E R B → Prop
  | here {p : Prog E R B} : Follows M p [] p
  | op {e : E} {k : R e → Prog E R B} {q : Prog E R B} {es : List (Step W E O)} (t : Turn O) (w : W) :
      Follows M (k (M.exec t e w).1) es q → Follows M (.op e k) (⟨e, t, w⟩ :: es) q

section
variable {p q : Prog E R B} {es : List (Step W E O)}

theorem Follows.snoc {e : E} {k : R e → Prog E R B} (h : M.Follows p es (.op e k)) (t : Turn O) (w : W) :
    M.Follows p (es ++ [⟨e, t, w⟩]) (k (M.exec t e w).1) := by
  generalize hq : Prog.op e k = q at h
  induction h with
  | here => subst hq; exact .op t w .here
  | op t' w' _ ih => exact .op t' w' (ih hq)

theorem Follows.of_op {e : E} {k : R e → Prog E R B} {b : B} (h : M.Follows (.op e k) es (.ret b)) :
    ∃ t w es', es = ⟨e, t, w⟩ :: es' ∧ M.Follows (k (M.exec t e w).1) es' (.ret b) := by
  cases h with
  | op t w h => exact ⟨t, w, _, rfl, h⟩

theorem Follows.of_ret {a b : B} (h : M.Follows (.ret a) es (.ret b)) : a = b ∧ es = [] := by
  cases h
  exact ⟨rfl, rfl⟩

theorem Follows.of_bind {f : B → Prog E R C} {c : C} : ∀ {p : Prog E R B} {es : List (Step W E O)},
    M.Follows (p.bind f) es (.ret c) →
    ∃ b es1 es2, es = es1 ++ es2 ∧ M.Follows p es1 (.ret b) ∧ M.Follows (f b) es2 (.ret c)
  | .ret b, es, h => ⟨b, [], es, rfl, .here, h⟩
  | .op e k, _, .op t w h => by
    obtain ⟨b, es1, es2, rfl, h1, h2⟩ := of_bind h
    exact ⟨b, ⟨e, t, w⟩ :: es1, es2, rfl, .op t w h1, h2⟩

theorem Follows.ret_unique {b b' : B} {es' : List (Step W E O)} (h : M.Follows p es (.ret b))
    (h' : M.Follows p es' (.ret b')) {rest rest' : List (Step W E O)} (he : es ++ rest = es' ++ rest') :
    b = b' ∧ es = es' := by
  induction es generalizing p es' with
  | nil =>
    cases h
    cases h'
    exact ⟨rfl, rfl⟩
  | cons x es ih =>
    cases h with
    | op t w h =>
      cases h' with
      | op t' w' h' =>
        obtain ⟨hx, hrest⟩ := List.cons.inj he
        cases hx
        obtain ⟨hb, hes⟩ := ih h h' hrest
        exact ⟨hb, by rw [hes]⟩

theorem Follows.uses {P : E → Prop} (h : M.Follows p es q) (hp : p.Uses P) : ∀ x ∈ es, P x.eff := by
  induction h with
  | here => nofun
  | op t w _ ih =>
    intro x hx
    rcases List.mem_cons.mp hx with rfl | hx
    · exact hp.1
    · exact ih (hp.2 _) x hx

theorem Follows.returns {P : B → Prop} {b : B} (h : M.Follows p es (.ret b)) (hp : p.Returns P) : P b := by
  generalize hq : Prog.ret b = q at h
  induction h with
  | here => subst hq; exact hp
  | op t w _ ih => exact ih (hp _) hq

end

/-- The runs from `c₀` with the steps that task `i` took in them. -/
inductive Path (M : Machine W L E R O A) (K : Rules W L E O) (i : Nat) (c₀ : Config W L E R A) :
    Config W L E R A → List (Step W E O) → Prop
  | start : Path M K i c₀ c₀ []
  | other {c c' : Config W L E R A} {es : List (Step W E O)} {j : Nat} {o : O} :
      Path M K i c₀ c es → j ≠ i → M.fire K c j o = some c' → Path M K i c₀ c' es
  | own {c c' : Config W L E R A} {es : List (Step W E O)} {l : L} {e : E} {k : R e → Prog E R A} {o : O} :
      Path M K i c₀ c es → c.tasks[i]? = some (l, .op e k) → M.fire K c i o = some c' →
      Path M K i c₀ c' (es ++ [⟨e, ⟨i, c.tasks.length, o⟩, c.world⟩])

section
variable {K : Rules W L E O} {i : Nat} {c₀ c : Config W L E R A} {es : List (Step W E O)}

theorem Path.runs (h : M.Path K i c₀ c es) : M.Runs K c₀ c := by
  induction h with
  | start => exact .start
  | other _ _ hf ih => exact .step ih hf
  | own _ _ hf ih => exact .step ih hf

theorem Runs.path (h : M.Runs K c₀ c) (i : Nat) : ∃ es, M.Path K i c₀ c es := by
  induction h with
  | start => exact ⟨[], .start⟩
  | @step c c' j o _ hf ih =>
    obtain ⟨es, ih⟩ := ih
    by_cases e : j = i
    · subst e
      obtain ⟨l, e, k, hj, _⟩ := fire_some hf
      exact ⟨_, .own ih hj hf⟩
    · exact ⟨es, .other ih e hf⟩

variable {l : L} {p : Prog E R A} {P : W → W → Prop} {x : Step W E O}

theorem Path.follows (h : M.Path K i c₀ c es) (hi : c₀.tasks[i]? = some (l, p)) :
    ∃ q, c.tasks[i]? = some (l, q) ∧ M.Follows p es q := by
  induction h with
  | start => exact ⟨p, hi, .here⟩
  | @other c c' es j o _ hj hf ih =>
    obtain ⟨q, hq, hfollows⟩ := ih
    obtain ⟨l', e, k, hj', _, _, rfl⟩ := fire_some hf
    refine ⟨q, ?_, hfollows⟩
    have hlt : i < c.tasks.length := (List.getElem?_eq_some_iff.mp hq).1
    show (c.tasks.set j _ ++ M.started e)[i]? = _
    rw [List.getElem?_append_left (by simpa using hlt), List.getElem?_set_ne hj]
    exact hq
  | @own c c' es l' e k o _ hi' hf ih =>
    obtain ⟨q, hq, hfollows⟩ := ih
    cases hi'.symm.trans hq
    obtain ⟨l'', e', k', hi'', _, _, rfl⟩ := fire_some hf
    cases hi'.symm.trans hi''
    have hlt : i < c.tasks.length := (List.getElem?_eq_some_iff.mp hq).1
    refine ⟨_, ?_, hfollows.snoc ⟨i, c.tasks.length, o⟩ c.world⟩
    show (c.tasks.set i _ ++ M.started e)[i]? = _
    rw [List.getElem?_append_left (by simpa using hlt), List.getElem?_set_self hlt]

theorem Path.returns (h : M.Path K i c₀ c es) (hi : c₀.tasks[i]? = some (l, p)) {a : A}
    (ha : c.returned i = some a) : M.Follows p es (.ret a) := by
  obtain ⟨q, hq, hfollows⟩ := h.follows hi
  unfold Config.returned at ha
  rw [hq] at ha
  cases q with
  | ret b => cases ha; exact hfollows
  | op e k => cases ha

theorem run_waits {t : L × Prog E R A} : ∀ {s : List (Nat × O)} {c c' : Config W L E R A}, (∀ x ∈ s, x.1 ≠ i) →
    M.run K c s = some c' → c.tasks[i]? = some t → c'.tasks[i]? = some t
  | [], _, _, _, h, hi => by cases h; exact hi
  | (j, o) :: s, c, c', hs, h, hi => by
    obtain ⟨c1, h1, h2⟩ := Option.bind_eq_some_iff.mp h
    refine run_waits (fun x hx => hs x (List.mem_cons_of_mem _ hx)) h2 ?_
    obtain ⟨l, e, k, _, _, _, rfl⟩ := fire_some h1
    have hlt : i < c.tasks.length := (List.getElem?_eq_some_iff.mp hi).1
    show (c.tasks.set j _ ++ M.started e)[i]? = _
    rw [List.getElem?_append_left (by simpa using hlt), List.getElem?_set_ne (hs _ List.mem_cons_self)]
    exact hi

theorem Runs.keeps [Std.Refl P] [IsTrans W P] (hstep : ∀ t e w, P w (M.exec t e w).2) (h : M.Runs K c₀ c) :
    P c₀.world c.world := by
  induction h with
  | start => exact Std.Refl.refl _
  | step _ hf ih =>
    obtain ⟨l, e, k, _, _, _, rfl⟩ := fire_some hf
    exact IsTrans.trans _ _ _ ih (hstep _ _ _)

theorem Path.between [Std.Refl P] [IsTrans W P] (hstep : ∀ t e w, P w (M.exec t e w).2) (h : M.Path K i c₀ c es) :
    ∀ x ∈ es, P c₀.world x.world ∧ P (x.after M) c.world := by
  induction h with
  | start => nofun
  | @other c c' es j o _ hj hf ih =>
    intro x hx
    obtain ⟨l, e, k, _, _, _, rfl⟩ := fire_some hf
    exact ⟨(ih x hx).1, IsTrans.trans _ _ _ (ih x hx).2 (hstep _ _ _)⟩
  | @own c c' es l e k o hpath hi hf ih =>
    intro x hx
    obtain ⟨l', e', k', hi', _, _, rfl⟩ := fire_some hf
    cases hi.symm.trans hi'
    rcases List.mem_append.mp hx with hx | hx
    · exact ⟨(ih x hx).1, IsTrans.trans _ _ _ (ih x hx).2 (hstep _ _ _)⟩
    · cases List.mem_singleton.mp hx
      exact ⟨hpath.runs.keeps hstep, Std.Refl.refl _⟩

def Linked (M : Machine W L E R O A) (P : W → W → Prop) : W → List (Step W E O) → W → Prop
  | w, [], w' => P w w'
  | w, x :: es, w' => P w x.world ∧ Linked M P (x.after M) es w'

theorem Linked.last [IsTrans W P] {w2 : W} : ∀ {es : List (Step W E O)} {w w1 : W},
    M.Linked P w es w1 → P w1 w2 → M.Linked P w es w2
  | [], _, _, h, h' => IsTrans.trans (r := P) _ _ _ h h'
  | _ :: _, _, _, h, h' => ⟨h.1, h.2.last h'⟩

theorem Linked.snoc [Std.Refl P] : ∀ {es : List (Step W E O)} {w : W},
    M.Linked P w es x.world → M.Linked P w (es ++ [x]) (x.after M)
  | [], _, h => ⟨h, Std.Refl.refl _⟩
  | _ :: _, _, h => ⟨h.1, h.2.snoc⟩

theorem Linked.append [Std.Refl P] [IsTrans W P] (hstep : ∀ t e w, P w (M.exec t e w).2) {w' : W}
    {es' : List (Step W E O)} :
    ∀ {es : List (Step W E O)} {w : W}, M.Linked P w (es ++ es') w' → ∃ w1, P w w1 ∧ M.Linked P w1 es' w'
  | [], w, h => ⟨w, Std.Refl.refl _, h⟩
  | x :: _, _, h => by
    obtain ⟨w1, h1, h2⟩ := h.2.append hstep
    have hx : P x.world w1 := IsTrans.trans (r := P) _ _ _ (hstep x.turn x.eff x.world) h1
    exact ⟨w1, IsTrans.trans (r := P) _ _ _ h.1 hx, h2⟩

theorem Linked.reaches [IsTrans W P] (hstep : ∀ t e w, P w (M.exec t e w).2) {w' : W} :
    ∀ {es : List (Step W E O)} {w : W}, M.Linked P w es w' → ∀ x ∈ es, P w x.world
  | x :: es, w, h, y, hy => by
    rcases List.mem_cons.mp hy with rfl | hy
    · exact h.1
    · have hx : P w (x.after M) := IsTrans.trans (r := P) _ _ _ h.1 (hstep x.turn x.eff x.world)
      exact IsTrans.trans (r := P) _ _ _ hx (h.2.reaches hstep y hy)

theorem Path.linked [Std.Refl P] [IsTrans W P] (hstep : ∀ t e w, P w (M.exec t e w).2) (h : M.Path K i c₀ c es) :
    M.Linked P c₀.world es c.world := by
  induction h with
  | start => exact Std.Refl.refl _
  | other _ _ hf ih =>
    obtain ⟨l, e, k, _, _, _, rfl⟩ := fire_some hf
    exact ih.last (hstep _ _ _)
  | own _ hi hf ih =>
    obtain ⟨l', e', k', hi', _, _, rfl⟩ := fire_some hf
    cases hi.symm.trans hi'
    exact ih.snoc

theorem Path.around (h : M.Path K i c₀ c es) (hx : x ∈ es) :
    ∃ c1 c2 l k, M.Runs K c₀ c1 ∧ c1.tasks[i]? = some (l, .op x.eff k) ∧ M.fire K c1 i x.turn.oracle = some c2 ∧
      x.turn = ⟨i, c1.tasks.length, x.turn.oracle⟩ ∧ x.world = c1.world ∧ M.Runs K c2 c := by
  induction h with
  | start => cases hx
  | other _ _ hf ih =>
    obtain ⟨c1, c2, l, k, hbefore, hi, hfire, ht, hw, hrun⟩ := ih hx
    exact ⟨c1, c2, l, k, hbefore, hi, hfire, ht, hw, .step hrun hf⟩
  | own hpath hi hf ih =>
    rcases List.mem_append.mp hx with hx | hx
    · obtain ⟨c1, c2, l, k, hbefore, hi, hfire, ht, hw, hrun⟩ := ih hx
      exact ⟨c1, c2, l, k, hbefore, hi, hfire, ht, hw, .step hrun hf⟩
    · cases List.mem_singleton.mp hx
      exact ⟨_, _, _, _, hpath.runs, hi, hf, rfl, rfl, .start⟩

theorem Path.allowed (h : M.Path K i c₀ c es) (hi : c₀.tasks[i]? = some (l, p)) (hx : x ∈ es) :
    K.allow l x.eff x.turn.oracle x.world = true := by
  obtain ⟨c1, c2, l', k, hbefore, hi1, hfire, _, hworld, _⟩ := h.around hx
  obtain ⟨p', hp'⟩ := hbefore.label hi
  obtain ⟨l'', e, k', hi2, hallow, _⟩ := fire_some hfire
  cases hi1.symm.trans hp'
  cases hi1.symm.trans hi2
  rw [hworld]
  exact hallow

theorem Path.born (h : M.Path K i c₀ c es) (hx : x ∈ es) (hl : M.starts x.eff = some l) :
    ∃ c1, c1.tasks[x.turn.fresh]? = some (l, M.code l) ∧ c1.world = x.after M ∧ M.Runs K c1 c := by
  obtain ⟨c1, c2, l', k, _, hi, hfire, hturn, hworld, hrun⟩ := h.around hx
  obtain ⟨l'', e, k', hi', _, _, rfl⟩ := fire_some hfire
  cases hi.symm.trans hi'
  refine ⟨_, ?_, ?_, hrun⟩
  · rw [congrArg Turn.fresh hturn]
    show (c1.tasks.set i _ ++ M.started x.eff)[c1.tasks.length]? = _
    rw [List.getElem?_append_right (by simp)]
    simp [started, hl]
  · show (M.exec ⟨i, c1.tasks.length, x.turn.oracle⟩ x.eff c1.world).2 = (M.exec x.turn x.eff x.world).2
    rw [← hturn, hworld]

end

def taken (i : Nat) (c : Config W L E R A) (j : Nat) (o : O) : List (Step W E O) :=
  match c.tasks[i]? with
  | some (_, .op e _) => if j = i then [⟨e, ⟨i, c.tasks.length, o⟩, c.world⟩] else []
  | _ => []

def trace (M : Machine W L E R O A) (K : Rules W L E O) (i : Nat) : Config W L E R A → List (Nat × O) →
    Option (Config W L E R A × List (Step W E O))
  | c, [] => some (c, [])
  | c, (j, o) :: s => (M.fire K c j o).bind fun c' => (trace M K i c' s).map fun out => (out.1, taken i c j o ++ out.2)

theorem path_of_trace {K : Rules W L E O} {i : Nat} {c₀ : Config W L E R A} : ∀ {s : List (Nat × O)}
    {c c' : Config W L E R A} {es es' : List (Step W E O)}, M.Path K i c₀ c es → M.trace K i c s = some (c', es') →
    M.Path K i c₀ c' (es ++ es')
  | [], _, _, es, _, hpath, h => by
    cases h
    rw [List.append_nil]
    exact hpath
  | (j, o) :: s, c, c', es, es', hpath, h => by
    obtain ⟨c1, hf, h⟩ := Option.bind_eq_some_iff.mp h
    obtain ⟨⟨c2, es2⟩, h2, he⟩ := Option.map_eq_some_iff.mp h
    cases he
    rw [← List.append_assoc]
    refine path_of_trace ?_ h2
    by_cases hj : j = i
    · subst hj
      obtain ⟨l, e, k, hj, _⟩ := fire_some hf
      have htaken : taken j c j o = [⟨e, ⟨j, c.tasks.length, o⟩, c.world⟩] := by
        simp [taken, hj]
      rw [htaken]
      exact .own hpath hj hf
    · have htaken : taken i c j o = [] := by
        unfold taken
        split
        · rw [if_neg hj]
        · rfl
      rw [htaken, List.append_nil]
      exact .other hpath hj hf

theorem Runs.single {C : Contract M} {Q : A → W → Prop} {l : L} {j : Nat} (hrefl : ∀ n w, C.rely l j n w w)
    (htrans : ∀ n w1 w2 w3, C.rely l j n w1 w2 → C.rely l j n w2 w3 → C.rely l j n w1 w3)
    (hstep : ∀ n t e w, C.rely l j n w (M.exec t e w).2) (hinv : ∀ t e w, C.inv w → C.inv (M.exec t e w).2)
    (hgiven : ∀ e w, C.given l j e w) (hstable : ∀ a t e w, Q a w → Q a (M.exec t e w).2)
    {c₀ c : Config W L E R A} (hrun : M.Runs C.rules c₀ c) {p : Prog E R A} (hj : c₀.tasks[j]? = some (l, p))
    (h0 : C.inv c₀.world) (hwp : wp C l j Q p c₀.world) :
    C.inv c.world ∧ ∃ q, c.tasks[j]? = some (l, q) ∧ wp C l j Q q c.world := by
  induction hrun with
  | start => exact ⟨h0, p, hj, hwp⟩
  | @step c c' i o hc hf ih =>
    obtain ⟨hi, q, hq, hwp⟩ := ih
    obtain ⟨l', e, k, hi', hallow, _, rfl⟩ := fire_some hf
    have hlt : j < c.tasks.length := (List.getElem?_eq_some_iff.mp hq).1
    refine ⟨hinv _ _ _ hi, ?_⟩
    show ∃ q', (c.tasks.set i _ ++ M.started e)[j]? = _ ∧ _
    rw [List.getElem?_append_left (by simpa using hlt)]
    by_cases hij : i = j
    · subst hij
      cases hi'.symm.trans hq
      rw [List.getElem?_set_self hlt]
      exact ⟨_, rfl, ((hwp c.world (hrefl _ _) hi).2 c.tasks.length o hlt hallow (hgiven _ _)).2⟩
    · rw [List.getElem?_set_ne hij]
      refine ⟨q, hq, ?_⟩
      cases q with
      | ret a => exact hstable a _ _ _ hwp
      | op e' k' => exact fun w' hr => hwp w' (htrans _ _ _ _ (hstep _ _ _ _) hr)

end Machine

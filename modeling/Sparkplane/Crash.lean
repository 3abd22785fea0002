import Sparkplane.Prog

/-!
# Programs that can be cut off

`Ends` is a run of a program to its end, `Cut` a run that a crash cuts off between two effects, over
worlds that each effect may change in several ways. `Safe` is the proof rule: an invariant holds
whenever the program can be cut off, and what is wanted of its result at the end.
-/

namespace Prog

variable {E : Type} {R : E → Type} {A B W : Type} {step : (e : E) → W → R e → W → Prop}

/-! ## Runs that nothing interrupts -/

def run (exec : (e : E) → W → R e × W) : Prog E R A → W → A × W
  | .ret a, w => (a, w)
  | .op e k, w => (k (exec e w).1).run exec (exec e w).2

/-! ## Runs that a crash can cut off -/

inductive Ends (step : (e : E) → W → R e → W → Prop) : Prog E R A → W → A → W → Prop
  | ret {a : A} {w : W} : Ends step (.ret a) w a w
  | op {e : E} {k : R e → Prog E R A} {w w₁ w₂ : W} {r : R e} {a : A} : step e w r w₁ → Ends step (k r) w₁ a w₂ →
      Ends step (.op e k) w a w₂

inductive Cut (step : (e : E) → W → R e → W → Prop) : Prog E R A → W → W → Prop
  | here {p : Prog E R A} {w : W} : Cut step p w w
  | op {e : E} {k : R e → Prog E R A} {w w₁ w₂ : W} {r : R e} : step e w r w₁ → Cut step (k r) w₁ w₂ →
      Cut step (.op e k) w w₂

def Safe (step : (e : E) → W → R e → W → Prop) (I : W → Prop) (Q : A → W → Prop) : Prog E R A → W → Prop
  | .ret a, w => I w ∧ Q a w
  | .op e k, w => I w ∧ ∀ r w', step e w r w' → (k r).Safe step I Q w'

def runFor (answer : (e : E) → W → R e × W) : Nat → Prog E R A → W → W
  | 0, _, w => w
  | _ + 1, .ret _, w => w
  | n + 1, .op e k, w => (k (answer e w).1).runFor answer n (answer e w).2

variable {I : W → Prop} {Q : A → W → Prop}

theorem Safe.inv : ∀ {p : Prog E R A} {w : W}, p.Safe step I Q w → I w
  | .ret _, _, h => h.1
  | .op _ _, _, h => h.1

variable {p : Prog E R A} {w w' : W} {f : A → Prog E R B} {Q' : A → W → Prop}

theorem Safe.cut (h : p.Safe step I Q w) (hc : Cut step p w w') : I w' := by
  induction hc with
  | here => exact h.inv
  | op hstep _ ih => exact ih (h.2 _ _ hstep)

theorem Safe.ends {a : A} (h : p.Safe step I Q w) (he : Ends step p w a w') : Q a w' := by
  induction he with
  | ret => exact h.2
  | op hstep _ ih => exact ih (h.2 _ _ hstep)

theorem Safe.inv_ends {a : A} (h : p.Safe step I Q w) (he : Ends step p w a w') : I w' := by
  induction he with
  | ret => exact h.1
  | op hstep _ ih => exact ih (h.2 _ _ hstep)

theorem Safe.bind {Q' : B → W → Prop} : ∀ {p : Prog E R A} {w : W}, p.Safe step I Q w →
    (∀ a w', Q a w' → (f a).Safe step I Q' w') → (p.bind f).Safe step I Q' w
  | .ret a, w, h, hf => hf a w h.2
  | .op _ _, _, h, hf => ⟨h.1, fun r w' hs => (h.2 r w' hs).bind hf⟩

theorem safe_of_forall (hI : ∀ w, I w) (hQ : ∀ a w, Q a w) : ∀ (p : Prog E R A) (w : W), p.Safe step I Q w
  | .ret a, w => ⟨hI w, hQ a w⟩
  | .op _ k, w => ⟨hI w, fun r w' _ => safe_of_forall hI hQ (k r) w'⟩

theorem Safe.weaken {I' : W → Prop} (hI : ∀ w, I w → I' w) (hQ : ∀ a w, I w → Q a w → Q' a w) :
    ∀ {p : Prog E R A} {w : W}, p.Safe step I Q w → p.Safe step I' Q' w
  | .ret a, w, h => ⟨hI w h.1, hQ a w h.1 h.2⟩
  | .op _ _, w, h => ⟨hI w h.1, fun r w' hs => (h.2 r w' hs).weaken hI hQ⟩

theorem Safe.mono (hQ : ∀ a w, I w → Q a w → Q' a w) (h : p.Safe step I Q w) : p.Safe step I Q' w :=
  h.weaken (fun _ hI => hI) hQ

def May (step : (e : E) → W → R e → W → Prop) (Q : A → W → Prop) : Prog E R A → W → Prop
  | .ret a, w => Q a w
  | .op e k, w => ∃ r w', step e w r w' ∧ (k r).May step Q w'

theorem May.ends : ∀ {p : Prog E R A} {w : W}, p.May step Q w → ∃ a w', Ends step p w a w' ∧ Q a w'
  | .ret a, w, h => ⟨a, w, .ret, h⟩
  | .op _ _, _, ⟨_, _, hstep, h⟩ =>
    have ⟨a, w', hends, hQ⟩ := h.ends
    ⟨a, w', .op hstep hends, hQ⟩

theorem May.bind {Q' : B → W → Prop} : ∀ {p : Prog E R A} {w : W}, p.May step Q w →
    (∀ a w', Q a w' → (f a).May step Q' w') → (p.bind f).May step Q' w
  | .ret a, w, h, hf => hf a w h
  | .op _ _, _, ⟨r, w', hstep, h⟩, hf => ⟨r, w', hstep, h.bind hf⟩

theorem May.mono (hQ : ∀ a w, Q a w → Q' a w) : ∀ {p : Prog E R A} {w : W}, p.May step Q w → p.May step Q' w
  | .ret a, w, h => hQ a w h
  | .op _ _, _, ⟨r, w', hstep, h⟩ => ⟨r, w', hstep, h.mono hQ⟩

/-! ## Runs of a world that answers -/

section
variable {answer : (e : E) → W → R e × W} (h : ∀ e w, step e w (answer e w).1 (answer e w).2)
include h

theorem ends_run : ∀ (p : Prog E R A) (w : W), Ends step p w (p.run answer w).1 (p.run answer w).2
  | .ret _, _ => .ret
  | .op e k, w => .op (h e w) (ends_run (k (answer e w).1) (answer e w).2)

theorem cut_runFor : ∀ (n : Nat) (p : Prog E R A) (w : W), Cut step p w (p.runFor answer n w)
  | 0, _, _ => .here
  | _ + 1, .ret _, _ => .here
  | n + 1, .op e k, w => .op (h e w) (cut_runFor n (k (answer e w).1) (answer e w).2)

end

/-! ## Stretches that leave the world alone -/

inductive Leads (answer : (e : E) → W → R e × W) (w : W) : Nat → Prog E R A → Prog E R A → Prop
  | refl {p : Prog E R A} : Leads answer w 0 p p
  | op {e : E} {k : R e → Prog E R A} {n : Nat} {q : Prog E R A} : (answer e w).2 = w →
      Leads answer w n (k (answer e w).1) q → Leads answer w (n + 1) (.op e k) q

section
variable {answer : (e : E) → W → R e × W} {w : W} {n m : Nat} {p q r : Prog E R A}

theorem Leads.trans (h : Leads answer w n p q) (h' : Leads answer w m q r) : Leads answer w (m + n) p r := by
  induction h with
  | refl => exact h'
  | op hw _ ih => exact .op hw (ih h')

theorem Leads.bind {f : A → Prog E R B} (h : Leads answer w n p q) : Leads answer w n (p.bind f) (q.bind f) := by
  induction h with
  | refl => exact .refl
  | op hw _ ih => exact .op hw ih

theorem Leads.run (h : Leads answer w n p q) : p.run answer w = q.run answer w := by
  induction h with
  | refl => rfl
  | op hw _ ih => rw [Prog.run, hw, ih]

theorem Leads.runFor (h : Leads answer w n p q) (m : Nat) :
    p.runFor answer m w = if m < n then w else q.runFor answer (m - n) w := by
  induction h generalizing m with
  | refl => simp
  | op hw _ ih =>
    cases m with
    | zero => simp [Prog.runFor]
    | succ m => simp [Prog.runFor, hw, ih m]

end

end Prog

/-! ## Programs that can fail -/

namespace Prog

variable {E : Type} {R : E → Type} {ε α β W : Type} {step : (e : E) → W → R e → W → Prop}

def SafeOk (step : (e : E) → W → R e → W → Prop) (I : W → Prop) (P : α → W → Prop) (x : ExceptT ε (Prog E R) α)
    (w : W) : Prop :=
  Safe step I (fun r w => ∀ a, r = .ok a → P a w) (x : Prog E R (Except ε α)) w

variable {I : W → Prop} {P : α → W → Prop} {P' : β → W → Prop} {w : W}

theorem safeOk_pure {a : α} (hI : I w) (h : P a w) : SafeOk step I P (pure a : ExceptT ε (Prog E R) α) w :=
  ⟨hI, fun _ hr => Except.ok.inj hr ▸ h⟩

theorem safeOk_throw {e : ε} (hI : I w) : SafeOk step I P (throw e : ExceptT ε (Prog E R) α) w :=
  ⟨hI, (fun _ hr => nomatch hr)⟩

theorem SafeOk.bind {x : ExceptT ε (Prog E R) α} {f : α → ExceptT ε (Prog E R) β} (hx : SafeOk step I P x w)
    (hf : ∀ a w', I w' → P a w' → SafeOk step I P' (f a) w') : SafeOk step I P' (x >>= f) w := by
  have hx' : Safe step I (fun r w => I w ∧ ∀ a, r = .ok a → P a w) (x : Prog E R (Except ε α)) w :=
    Safe.mono (fun _ _ hI h => ⟨hI, h⟩) hx
  refine Safe.bind hx' ?_
  rintro r w' ⟨hI, hr⟩
  cases r with
  | ok a => exact hf a w' hI (hr a rfl)
  | error e => exact ⟨hI, (fun _ h => nomatch h)⟩

theorem safeOk_ask_bind {e : E} {f : R e → ExceptT ε (Prog E R) β} (hI : I w)
    (h : ∀ r w', step e w r w' → SafeOk step I P' (f r) w') :
    SafeOk step I P' (ExceptT.lift (perform e) >>= f) w := ⟨hI, h⟩

theorem SafeOk.mono {P₂ : α → W → Prop} {x : ExceptT ε (Prog E R) α} (hx : SafeOk step I P x w)
    (h : ∀ a w', I w' → P a w' → P₂ a w') : SafeOk step I P₂ x w :=
  Safe.mono (fun _ w' hI hr a ha => h a w' hI (hr a ha)) hx

end Prog

/-! ## Programs with a state of their own that can fail -/

/-- What a failing program has made of its state stays. -/
abbrev Proc (E : Type) (R : E → Type) (σ ε α : Type) := ExceptT ε (StateT σ (Prog E R)) α

namespace Proc

variable {E : Type} {R : E → Type} {σ ε α β W : Type} {step : (e : E) → W → R e → W → Prop}

def perform (e : E) : Proc E R σ ε (R e) := ExceptT.lift (StateT.lift (Prog.perform e))

def Safe (step : (e : E) → W → R e → W → Prop) (I : W → Prop) (Q : Except ε α → σ → W → Prop) (x : Proc E R σ ε α)
    (s : σ) (w : W) : Prop :=
  Prog.Safe step I (fun r w => Q r.1 r.2 w) (x s) w

variable {I : W → Prop} {Q : Except ε α → σ → W → Prop} {s : σ} {w : W} {a : α} {x : Proc E R σ ε α}
variable {f : PUnit → Proc E R σ ε α} {s' : σ} {P₂ : α → σ → W → Prop}

theorem safe_pure (hI : I w) (h : Q (.ok a) s w) : Safe step I Q (pure a) s w := ⟨hI, h⟩

theorem safe_throw {e : ε} (hI : I w) (h : Q (.error e) s w) : Safe step I Q (throw e) s w := ⟨hI, h⟩

theorem Safe.bind {f : α → Proc E R σ ε β} {Q' : Except ε β → σ → W → Prop} (hx : Safe step I Q x s w)
    (hok : ∀ a s' w', Q (.ok a) s' w' → Safe step I Q' (f a) s' w')
    (herr : ∀ e s' w', I w' → Q (.error e) s' w' → Q' (.error e) s' w') : Safe step I Q' (x >>= f) s w := by
  have hx' : Prog.Safe step I (fun r w => I w ∧ Q r.1 r.2 w) (x s) w := Prog.Safe.mono (fun _ _ hI h => ⟨hI, h⟩) hx
  refine Prog.Safe.bind hx' ?_
  rintro ⟨r, s'⟩ w' ⟨hI, hq⟩
  cases r with
  | ok a => exact hok a s' w' hq
  | error e => exact ⟨hI, herr e s' w' hI hq⟩

theorem Safe.mono {Q' : Except ε α → σ → W → Prop} (hx : Safe step I Q x s w)
    (h : ∀ r s' w', I w' → Q r s' w' → Q' r s' w') : Safe step I Q' x s w :=
  Prog.Safe.mono (fun r w hI hq => h r.1 r.2 w hI hq) hx

theorem safe_get_bind {f : σ → Proc E R σ ε α} (h : Safe step I Q (f s) s w) : Safe step I Q (get >>= f) s w := h

theorem safe_modify_bind {g : σ → σ} (h : Safe step I Q (f ⟨⟩) (g s) w) : Safe step I Q (modify g >>= f) s w := h

theorem safe_set_bind (h : Safe step I Q (f ⟨⟩) s' w) : Safe step I Q (set s' >>= f) s w := h

theorem safe_perform_bind {e : E} {f : R e → Proc E R σ ε α} (hI : I w)
    (h : ∀ r w', step e w r w' → Safe step I Q (f r) s w') : Safe step I Q (perform e >>= f) s w := ⟨hI, h⟩

/-! ### What is true after a success -/

def Gives (step : (e : E) → W → R e → W → Prop) (P : α → σ → W → Prop) (x : Proc E R σ ε α) (s : σ) (w : W) : Prop :=
  Safe step (fun _ => True) (fun r s' w' => ∀ a, r = .ok a → P a s' w') x s w

variable {P : α → σ → W → Prop} {P' : β → σ → W → Prop}

theorem gives_pure (h : P a s w) : Gives step P (pure a : Proc E R σ ε α) s w :=
  safe_pure trivial fun _ ha => Except.ok.inj ha ▸ h

theorem gives_throw {e : ε} : Gives step P (throw e : Proc E R σ ε α) s w := safe_throw trivial nofun

theorem Gives.bind {f : α → Proc E R σ ε β} (hx : Gives step P x s w)
    (hf : ∀ a s' w', P a s' w' → Gives step P' (f a) s' w') : Gives step P' (x >>= f) s w :=
  Safe.bind hx (fun a s' w' h => hf a s' w' (h a rfl)) fun _ _ _ _ _ => nofun

theorem Gives.mono (hx : Gives step P x s w) (h : ∀ a s' w', P a s' w' → P₂ a s' w') : Gives step P₂ x s w :=
  Safe.mono hx fun _ s' w' _ hq a ha => h a s' w' (hq a ha)

theorem gives_of_forall (h : ∀ a s w, P a s w) : Gives step P x s w :=
  Prog.safe_of_forall (fun _ => trivial) (fun _ _ a _ => h a _ _) _ _

theorem Gives.ends {w' : W} (hx : Gives step P x s w) (hends : Prog.Ends step (x s) w (.ok a, s') w') :
    P a s' w' := Prog.Safe.ends hx hends a rfl

theorem gives_get_bind {f : σ → Proc E R σ ε α} (h : Gives step P (f s) s w) : Gives step P (get >>= f) s w := h

theorem gives_perform_bind {e : E} {f : R e → Proc E R σ ε α} (h : ∀ r w', step e w r w' → Gives step P (f r) s w') :
    Gives step P (perform e >>= f) s w := safe_perform_bind trivial h

/-! ### Successes that can happen -/

def Can (step : (e : E) → W → R e → W → Prop) (P : α → σ → W → Prop) (x : Proc E R σ ε α) (s : σ) (w : W) : Prop :=
  Prog.May step (fun r w' => ∃ a, r.1 = .ok a ∧ P a r.2 w') (x s) w

theorem can_pure (h : P a s w) : Can step P (pure a : Proc E R σ ε α) s w := ⟨a, rfl, h⟩

theorem Can.bind {f : α → Proc E R σ ε β} (hx : Can step P x s w)
    (hf : ∀ a s' w', P a s' w' → Can step P' (f a) s' w') : Can step P' (x >>= f) s w := by
  refine Prog.May.bind hx ?_
  rintro ⟨_, s'⟩ w' ⟨a, rfl, h⟩
  exact hf a s' w' h

theorem Can.mono (hx : Can step P x s w) (h : ∀ a s' w', P a s' w' → P₂ a s' w') : Can step P₂ x s w :=
  Prog.May.mono (fun _ _ ⟨a, ha, hP⟩ => ⟨a, ha, h a _ _ hP⟩) hx

theorem can_get_bind {f : σ → Proc E R σ ε α} (h : Can step P (f s) s w) : Can step P (get >>= f) s w := h

theorem can_set_bind (h : Can step P (f ⟨⟩) s' w) : Can step P (set s' >>= f) s w := h

theorem can_perform_bind {e : E} {f : R e → Proc E R σ ε α} {r : R e} {w' : W} (hstep : step e w r w')
    (h : Can step P (f r) s w') : Can step P (perform e >>= f) s w := ⟨r, w', hstep, h⟩

theorem Can.ends (h : Can step P x s w) : ∃ a s' w', Prog.Ends step (x s) w (.ok a, s') w' ∧ P a s' w' := by
  obtain ⟨⟨_, s'⟩, w', hends, a, rfl, hP⟩ := Prog.May.ends h
  exact ⟨a, s', w', hends, hP⟩

end Proc

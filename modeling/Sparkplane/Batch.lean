import Mathlib.Order.Defs.Unbundled

/-!
# Transactions and commands over a state

A transaction (`Tx`) loses its changes when it fails. A `Batch` is
a sequence of transactions, each committed on its own, so a later failure
keeps what was committed before it. `Keeps R` is the rule both share: the
state after is related to the state before, whatever the outcome.
-/

abbrev Tx (σ ε α : Type) := StateT σ (Except ε) α

abbrev Batch (σ ε α : Type) := ExceptT ε (StateM σ) α

def Preserves {σ : Type} (P : σ → Prop) (s s' : σ) : Prop := P s → P s'

instance {σ : Type} {P : σ → Prop} : Std.Refl (Preserves P) := ⟨fun _ h => h⟩

instance {σ : Type} {P : σ → Prop} : IsTrans σ (Preserves P) := ⟨fun _ _ _ h1 h2 h => h2 (h1 h)⟩

variable {σ ε α β : Type}

namespace Tx

variable {c : Prop}

def Keeps (R : σ → σ → Prop) (t : Tx σ ε α) : Prop :=
  ∀ s a s', t s = .ok (a, s') → R s s'

def query (f : σ → Except ε α) : Tx σ ε α := fun s =>
  match f s with
  | .ok a => .ok (a, s)
  | .error e => .error e

def execute (e : ε) (f : σ → Option σ) : Tx σ ε Unit := fun s =>
  match f s with
  | some s' => .ok ((), s')
  | none => .error e

def require (b : Bool) (e : ε) : Tx σ ε Unit := if b then pure () else throw e

def each (f : α → Tx σ ε Unit) : List α → Tx σ ε Unit
  | [] => pure ()
  | a :: l => do f a; each f l

/-- Commit on success, roll back on failure. -/
def commit (t : Tx σ ε α) : Batch σ ε α := fun s =>
  match t s with
  | .ok (a, s') => (.ok a, s')
  | .error e => (.error e, s)

@[simp] theorem pure_run (a : α) (s : σ) : (pure a : Tx σ ε α) s = .ok (a, s) := rfl

@[simp] theorem throw_run (e : ε) (s : σ) : (throw e : Tx σ ε α) s = .error e := rfl

@[simp] theorem modify_run (f : σ → σ) (s : σ) : (modify f : Tx σ ε Unit) s = .ok ((), f s) := rfl

@[simp] theorem bind_run (t : Tx σ ε α) (f : α → Tx σ ε β) (s : σ) :
    (t >>= f) s = match t s with
      | .ok (a, s') => f a s'
      | .error e => .error e := by
  show Except.bind (t s) _ = _
  cases t s <;> rfl

theorem query_run (f : σ → Except ε α) (s : σ) :
    query f s = match f s with
      | .ok a => .ok (a, s)
      | .error e => .error e := rfl

theorem execute_run (e : ε) (f : σ → Option σ) (s : σ) :
    execute e f s = match f s with
      | some s' => .ok ((), s')
      | none => .error e := rfl

theorem require_run (b : Bool) (e : ε) (s : σ) :
    (require b e : Tx σ ε Unit) s = if b then .ok ((), s) else .error e := by
  cases b <;> rfl

variable {s : σ} {t : Tx σ ε α}

theorem bind_ok {f : α → Tx σ ε β} {s'' : σ} {b : β} (h : (t >>= f) s = .ok (b, s'')) :
    ∃ a s', t s = .ok (a, s') ∧ f a s' = .ok (b, s'') := by
  rw [bind_run] at h
  match hs : t s with
  | .ok (a, s') => rw [hs] at h; exact ⟨a, s', rfl, h⟩
  | .error e => rw [hs] at h; cases h

section
variable {s s' : σ} {b : β}

theorem query_bind {q : σ → Except ε α} {f : α → Tx σ ε β} (h : (query q >>= f) s = .ok (b, s')) :
    ∃ a, q s = .ok a ∧ f a s = .ok (b, s') := by
  rw [bind_run, query_run] at h
  match hq : q s with
  | .ok a => rw [hq] at h; exact ⟨a, rfl, h⟩
  | .error e => rw [hq] at h; cases h

theorem require_bind {c : Bool} {e : ε} {f : Unit → Tx σ ε β} (h : (require c e >>= f) s = .ok (b, s')) :
    c = true ∧ f () s = .ok (b, s') := by
  cases c with
  | true => exact ⟨rfl, h⟩
  | false => cases h

theorem execute_bind {e : ε} {g : σ → Option σ} {f : Unit → Tx σ ε β}
    (h : (execute e g >>= f) s = .ok (b, s')) : ∃ s1, g s = some s1 ∧ f () s1 = .ok (b, s') := by
  rw [bind_run, execute_run] at h
  match hg : g s with
  | some s1 => rw [hg] at h; exact ⟨s1, rfl, h⟩
  | none => rw [hg] at h; cases h

end

section
variable {R : σ → σ → Prop}

theorem Keeps.pure [Std.Refl R] (a : α) : Keeps R (Pure.pure a : Tx σ ε α) := by
  intro s b s' h; cases h; exact Std.Refl.refl s

theorem Keeps.throw (e : ε) : Keeps R (throw e : Tx σ ε α) := by
  intro s b s' h; cases h

theorem Keeps.query [Std.Refl R] (f : σ → Except ε α) : Keeps R (query f) := by
  intro s b s' h
  rw [query_run] at h
  split at h <;> cases h
  exact Std.Refl.refl s

theorem Keeps.require [Std.Refl R] (b : Bool) (e : ε) : Keeps R (require b e : Tx σ ε Unit) := by
  cases b with
  | true => exact Keeps.pure ()
  | false => exact Keeps.throw e

theorem Keeps.mono {R' : σ → σ → Prop} (h : ∀ s s', R s s' → R' s s') {t : Tx σ ε α} (ht : Keeps R t) :
    Keeps R' t := fun s a s' hs => h s s' (ht s a s' hs)

theorem Keeps.modify {f : σ → σ} (h : ∀ s, R s (f s)) : Keeps R (modify f : Tx σ ε Unit) := by
  intro s b s' hs; cases hs; exact h s

theorem Keeps.execute {e : ε} {f : σ → Option σ} (h : ∀ s s', f s = some s' → R s s') : Keeps R (execute e f) := by
  intro s b s' hs
  rw [execute_run] at hs
  match hf : f s with
  | some s1 => rw [hf] at hs; cases hs; exact h s _ hf
  | none => rw [hf] at hs; cases hs

theorem Keeps.bind [IsTrans σ R] {t : Tx σ ε α} {f : α → Tx σ ε β} (ht : Keeps R t)
    (hf : ∀ a, Keeps R (f a)) : Keeps R (t >>= f) := by
  intro s b s'' h
  rw [bind_run] at h
  match hs : t s with
  | .ok (a, s') => rw [hs] at h; exact IsTrans.trans _ _ _ (ht s a s' hs) (hf a s' b s'' h)
  | .error e => rw [hs] at h; cases h

theorem Keeps.ite {c : Prop} [Decidable c] {t u : Tx σ ε α} (ht : Keeps R t) (hu : Keeps R u) :
    Keeps R (if c then t else u) := by
  split
  · exact ht
  · exact hu

theorem Keeps.each [Std.Refl R] [IsTrans σ R] {f : α → Tx σ ε Unit} (h : ∀ a, Keeps R (f a)) : ∀ l, Keeps R (each f l)
  | [] => Keeps.pure ()
  | a :: l => (h a).bind fun _ => Keeps.each h l

end

theorem commit_ok {s' : σ} {a : α} (h : t s = .ok (a, s')) : t.commit s = (.ok a, s') := by
  unfold commit; rw [h]

theorem commit_error {e : ε} (h : t s = .error e) : t.commit s = (.error e, s) := by
  unfold commit; rw [h]

theorem commit_cases (t : Tx σ ε α) (s : σ) : (∃ a s', t s = .ok (a, s') ∧ t.commit s = (.ok a, s')) ∨
      ∃ e, t s = .error e ∧ t.commit s = (.error e, s) := by
  cases h : t s with
  | ok x => exact .inl ⟨x.1, x.2, rfl, commit_ok h⟩
  | error e => exact .inr ⟨e, rfl, commit_error h⟩

end Tx

namespace Batch

def query (f : σ → Except ε α) : Batch σ ε α := fun s => (f s, s)

def require (b : Bool) (e : ε) : Batch σ ε Unit := if b then pure () else throw e

/-- A loop that runs one command for each element and stops at a failure. -/
def each (f : α → Batch σ ε Unit) : List α → Batch σ ε Unit
  | [] => pure ()
  | a :: l => do f a; each f l

def Keeps (R : σ → σ → Prop) (m : Batch σ ε α) : Prop := ∀ s, R s (m s).2

section
variable {R : σ → σ → Prop}

theorem Keeps.pure [Std.Refl R] (a : α) : Keeps R (Pure.pure a : Batch σ ε α) :=
  fun s => Std.Refl.refl s

theorem Keeps.throw [Std.Refl R] (e : ε) : Keeps R (throw e : Batch σ ε α) :=
  fun s => Std.Refl.refl s

theorem Keeps.query [Std.Refl R] (f : σ → Except ε α) : Keeps R (query f) := fun s => Std.Refl.refl s

@[simp] theorem pure_run (a : α) (s : σ) : (pure a : Batch σ ε α) s = (.ok a, s) := rfl

@[simp] theorem throw_run (e : ε) (s : σ) : (throw e : Batch σ ε α) s = (.error e, s) := rfl

@[simp] theorem query_run (f : σ → Except ε α) (s : σ) : query f s = (f s, s) := rfl

@[simp] theorem require_run (b : Bool) (e : ε) (s : σ) :
    (require b e : Batch σ ε Unit) s = if b then (.ok (), s) else (.error e, s) := by
  cases b <;> rfl

@[simp] theorem commit_run (t : Tx σ ε α) (s : σ) :
    t.commit s = match t s with
      | .ok (a, s') => (.ok a, s')
      | .error e => (.error e, s) := rfl

@[simp] theorem bind_run (m : Batch σ ε α) (f : α → Batch σ ε β) (s : σ) :
    (m >>= f) s = match m s with
      | (.ok a, s') => f a s'
      | (.error e, s') => (.error e, s') := by
  show ExceptT.bindCont f (m s).1 (m s).2 = _
  rcases m s with ⟨r, s'⟩
  cases r <;> rfl

theorem Keeps.bind [IsTrans σ R] {m : Batch σ ε α} {f : α → Batch σ ε β} (hm : Keeps R m)
    (hf : ∀ a, Keeps R (f a)) : Keeps R (m >>= f) := by
  intro s
  rw [bind_run]
  have h := hm s
  match hs : m s with
  | (.ok a, s') => rw [hs] at h; exact IsTrans.trans _ _ _ h (hf a s')
  | (.error e, s') => rw [hs] at h; exact h

theorem Keeps.require [Std.Refl R] (b : Bool) (e : ε) : Keeps R (require b e : Batch σ ε Unit) := by
  cases b with
  | true => exact Keeps.pure ()
  | false => exact Keeps.throw e

theorem Keeps.ite {c : Prop} [Decidable c] {m n : Batch σ ε α} (hm : Keeps R m) (hn : Keeps R n) :
    Keeps R (if c then m else n) := by
  split
  · exact hm
  · exact hn

theorem Keeps.commit [Std.Refl R] {t : Tx σ ε α} (h : t.Keeps R) : Keeps R t.commit := by
  intro s
  rcases t.commit_cases s with ⟨a, s', ht, hc⟩ | ⟨e, _, hc⟩
  · rw [hc]; exact h s a s' ht
  · rw [hc]; exact Std.Refl.refl s

theorem Keeps.each [Std.Refl R] [IsTrans σ R] {f : α → Batch σ ε Unit} (h : ∀ a, Keeps R (f a)) :
    ∀ l, Keeps R (each f l)
  | [] => Keeps.pure ()
  | a :: l => (h a).bind fun _ => Keeps.each h l

end

end Batch

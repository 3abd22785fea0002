import Sparkplane.Batch

/-!
# Commands as scripts

A command is a sequence of transactions, each committed on its own. Written as
a script its commits can be seen: `run` is the command, and `cuts` are the
states that a crash can leave behind.
-/

inductive Script (σ ε α : Type) : Type 1 where
  | done (r : Except ε α)
  | read (k : σ → Script σ ε α)
  | commit {β : Type} (t : Tx σ ε β) (k : β → Script σ ε α)

namespace Script

variable {σ ε α β : Type}

def run : Script σ ε α → Batch σ ε α
  | done r => fun s => (r, s)
  | read k => fun s => (k s).run s
  | commit t k => fun s =>
    match t s with
    | .ok (b, s') => (k b).run s'
    | .error e => (.error e, s)

/-- A transaction that a crash interrupts is rolled back. -/
def cuts : Script σ ε α → σ → List σ
  | done _, s => [s]
  | read k, s => (k s).cuts s
  | commit t k, s => s ::
    match t s with
    | .ok (b, s') => (k b).cuts s'
    | .error _ => []

def bind : Script σ ε α → (α → Script σ ε β) → Script σ ε β
  | done (.ok a), f => f a
  | done (.error e), _ => done (.error e)
  | read k, f => read fun s => (k s).bind f
  | commit t k, f => commit t fun b => (k b).bind f

def each (f : α → Script σ ε Unit) : List α → Script σ ε Unit
  | [] => done (.ok ())
  | a :: l => (f a).bind fun _ => each f l

theorem run_commit (t : Tx σ ε β) (k : β → Script σ ε α) (s : σ) : (commit t k).run s =
      match t s with
      | .ok (b, s') => (k b).run s'
      | .error e => (.error e, s) := by
  rw [run]

theorem run_bind (f : α → Script σ ε β) :
    ∀ (x : Script σ ε α) (s : σ), (x.bind f).run s = (x.run >>= fun a => (f a).run) s
  | done (.ok a), s => rfl
  | done (.error e), s => rfl
  | read k, s => run_bind f (k s) s
  | commit t k, s => by
    rw [Batch.bind_run, bind, run_commit, run_commit]
    cases t s with
    | error e => rfl
    | ok out => exact (run_bind f (k out.1) out.2).trans (Batch.bind_run _ _ _)

variable {f : α → Script σ ε Unit} {I : σ → Prop}

theorem run_each {g : α → Batch σ ε Unit} (h : ∀ a s, (f a).run s = g a s) :
    ∀ (l : List α) (s : σ), (each f l).run s = Batch.each g l s
  | [], _ => rfl
  | a :: l, s => by
    unfold each Batch.each
    rw [run_bind, Batch.bind_run, Batch.bind_run, h]
    cases hg : g a s with
    | mk r s' =>
      cases r with
      | error e => rfl
      | ok u => exact run_each h l s'

theorem mem_cuts : ∀ (x : Script σ ε α) (s : σ), s ∈ x.cuts s
  | done _, s => List.mem_singleton.mpr rfl
  | read k, s => mem_cuts (k s) s
  | commit t k, s => by
    rw [cuts]
    exact List.mem_cons_self

def Keeps (I : σ → Prop) : Script σ ε α → Prop
  | done _ => True
  | read k => ∀ s, I s → (k s).Keeps I
  | commit t k => ∀ s b s', I s → t s = .ok (b, s') → I s' ∧ (k b).Keeps I

theorem Keeps.bind {f : α → Script σ ε β} (hf : ∀ a, (f a).Keeps I) :
    ∀ {x : Script σ ε α}, x.Keeps I → (x.bind f).Keeps I
  | done (.ok a), _ => hf a
  | done (.error _), _ => trivial
  | read _, h => fun s hs => (h s hs).bind hf
  | commit _ _, h => fun s b s' hs ht => ⟨(h s b s' hs ht).1, (h s b s' hs ht).2.bind hf⟩

theorem Keeps.each : ∀ {l : List α}, (∀ a ∈ l, (f a).Keeps I) → (Script.each f l).Keeps I
  | [], _ => trivial
  | _ :: _, h => (h _ (List.mem_cons_self ..)).bind fun _ =>
    Keeps.each fun a ha => h a (List.mem_cons_of_mem _ ha)

theorem Keeps.cuts : ∀ {x : Script σ ε α} {s : σ}, x.Keeps I → I s → ∀ s' ∈ x.cuts s, I s'
  | done _, s, _, hs, s', h => List.mem_singleton.mp h ▸ hs
  | read k, s, hx, hs, s', h => (hx s hs).cuts hs s' h
  | commit t k, s, hx, hs, s', h => by
    rw [Script.cuts] at h
    rcases List.mem_cons.mp h with rfl | h
    · exact hs
    · match ht : t s with
      | .ok (b, s1) =>
        rw [ht] at h
        exact (hx s b s1 hs ht).2.cuts (hx s b s1 hs ht).1 s' h
      | .error _ => rw [ht] at h; cases h

end Script

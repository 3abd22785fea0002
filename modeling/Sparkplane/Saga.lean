import Mathlib.Data.List.Infix
import Mathlib.Data.List.Nodup

/-!
# Sagas

A fixed list of steps is applied in order, under a record that is saved before and after each step;
until it is committed it can be rolled back, from the last step to the first. A trace holds what was
saved and which actions were called, the newest event first. `Trace` says which events may follow
which; `Trace.sound` says what holds of every such trace.
-/

namespace Saga

variable {n : Nat}

variable {σ : Type}

structure Record (σ : Type) where
  completed : List σ := []
  pending : Option σ := none
  committed : Bool := false
  rollingBack : Bool := false
  deriving DecidableEq

/-- The steps that may have left something behind, in their order. -/
def Record.listed (r : Record σ) : List σ := r.completed ++ r.pending.toList

inductive Event (σ : Type) where
  | saved (r : Record σ)
  | apply (s : σ)
  | undo (s : σ)
  /-- The undo just called has succeeded. -/
  | undone (s : σ)
  | opened
  deriving DecidableEq

def durable : List (Event σ) → Record σ
  | [] => {}
  | .saved r :: _ => r
  | _ :: t => durable t

def last : List (Event σ) → Option (Event σ)
  | [] => none
  | .saved _ :: t => last t
  | e :: _ => some e

/-- The step was applied and has not been undone since. -/
def Live (s : σ) : List (Event σ) → Prop
  | [] => False
  | .apply s' :: t => s' = s ∨ Live s t
  | .undone s' :: t => s' ≠ s ∧ Live s t
  | _ :: t => Live s t

inductive Moves (steps : List σ) (action : Option (Event σ)) (r : Record σ) : Record σ → Prop
  | same : Moves steps action r r
  | start {s : σ} : r.committed = false → r.rollingBack = false → r.pending = none →
      steps[r.completed.length]? = some s → Moves steps action r { r with pending := some s }
  | finish {s : σ} : r.rollingBack = false → r.pending = some s → action = some (.apply s) →
      Moves steps action r { r with completed := r.completed ++ [s], pending := none }
  | commit : r.completed = steps → r.pending = none → r.rollingBack = false →
      Moves steps action r { r with committed := true }
  | turn : r.committed = false → Moves steps action r { r with rollingBack := true }
  | dropPending {s : σ} : r.rollingBack = true → r.pending = some s → action = some (.undone s) →
      Moves steps action r { r with pending := none }
  | dropLast {s : σ} {before : List σ} : r.rollingBack = true → r.pending = none → r.completed = before ++ [s] →
      action = some (.undone s) → Moves steps action r { r with completed := before }
  | turned : r.rollingBack = true → r.completed = [] → r.pending = none →
      Moves steps action r { r with rollingBack := false }

inductive Trace (steps : List σ) : List (Event σ) → Prop
  | nil : Trace steps []
  | saved {t : List (Event σ)} {r : Record σ} : Trace steps t → Moves steps (last t) (durable t) r →
      Trace steps (.saved r :: t)
  | apply {t : List (Event σ)} {s : σ} : Trace steps t → (durable t).pending = some s →
      (durable t).rollingBack = false → Trace steps (.apply s :: t)
  | undo {t : List (Event σ)} {s : σ} : Trace steps t → (durable t).rollingBack = true →
      (durable t).committed = false → (durable t).listed.getLast? = some s → Trace steps (.undo s :: t)
  | undone {t : List (Event σ)} {s : σ} : Trace steps (.undo s :: t) → Trace steps (.undone s :: .undo s :: t)
  | opened {t : List (Event σ)} : Trace steps t → (durable t).committed = true → Trace steps (.opened :: t)

/-- What a saga promises. A split of the trace names a moment: what stands after the event of the
split happened before it. -/
structure Sound (steps : List σ) (t : List (Event σ)) : Prop where
  listed : ∀ s, Live s t → s ∈ (durable t).listed
  ordered : (durable t).listed <+: steps
  /-- An undo is called for the last step that the durable record lists, -/
  undo_last : ∀ post s pre, t = post ++ .undo s :: pre → (durable pre).listed.getLast? = some s
  /-- and the next one, unless a step is applied in between, for the same step or the one before it. -/
  undo_next : ∀ post s₂ mid s₁ pre, t = post ++ .undo s₂ :: mid ++ .undo s₁ :: pre →
    (∀ s, .apply s ∉ mid) → (∀ s, .undo s ∉ mid) →
    s₂ = s₁ ∨ ∃ i, steps[i]? = some s₂ ∧ steps[i + 1]? = some s₁
  /-- A step is applied after a rollback began only if the rollback came to its end. -/
  apply_after : ∀ post s mid r pre, t = post ++ .apply s :: mid ++ .saved r :: pre → r.rollingBack = true →
    ∃ r', .saved r' ∈ mid ∧ r'.rollingBack = false ∧ r'.listed = []
  opened_committed : ∀ post pre, t = post ++ .opened :: pre → (durable pre).committed = true
  committed_final : ∀ post s mid r pre, t = post ++ .undo s :: mid ++ .saved r :: pre → r.committed = false

/-! ## The durable record -/

structure Record.Valid (steps : List σ) (r : Record σ) : Prop where
  listed : r.listed <+: steps
  committed : r.committed = true → r.completed = steps ∧ r.pending = none ∧ r.rollingBack = false

section
variable {steps : List σ} {t : List (Event σ)} {r r' : Record σ} {action : Option (Event σ)} {s : σ}
variable {l : List σ} {mid pre : List (Event σ)}

theorem prefix_snoc (hl : l <+: steps) (hs : steps[l.length]? = some s) : l ++ [s] <+: steps := by
  obtain ⟨rest, rfl⟩ := hl
  cases rest with
  | nil => simp at hs
  | cons a rest =>
    rw [List.getElem?_append_right (Nat.le_refl _), Nat.sub_self] at hs
    cases hs
    exact ⟨rest, by simp⟩

theorem Moves.valid (hm : Moves steps action r r') (hr : r.Valid steps) : r'.Valid steps := by
  cases hm with
  | same => exact hr
  | @start s hc hb hp hs =>
    have hl : r.completed <+: steps := by simpa [Record.listed, hp] using hr.listed
    exact ⟨prefix_snoc hl hs, fun h => absurd (hc.symm.trans h) Bool.false_ne_true⟩
  | @finish s hb hp _ =>
    refine ⟨by simpa [Record.listed, hp] using hr.listed, fun h => ?_⟩
    have hnone := (hr.committed h).2.1
    rw [hp] at hnone
    cases hnone
  | commit hc hp hb => exact ⟨by simpa [Record.listed] using hr.listed, fun _ => ⟨hc, hp, hb⟩⟩
  | turn hc => exact ⟨hr.listed, fun h => absurd (hc.symm.trans h) Bool.false_ne_true⟩
  | dropPending hb hp _ =>
    have hl : r.completed <+: steps := (List.prefix_append _ _).trans hr.listed
    refine ⟨by simpa [Record.listed] using hl, fun h => ?_⟩
    have := (hr.committed h).2.2
    rw [hb] at this
    cases this
  | @dropLast s before hb hp hc _ =>
    have hl : before <+: steps := by
      have := hr.listed
      simp only [Record.listed, hp, hc, Option.toList_none, List.append_nil] at this
      exact (List.prefix_append _ _).trans this
    refine ⟨by simpa [Record.listed, hp] using hl, fun h => ?_⟩
    have := (hr.committed h).2.2
    rw [hb] at this
    cases this
  | turned hb hc hp => exact ⟨hr.listed, fun h => absurd (hb.symm.trans (hr.committed h).2.2) (by simp)⟩

theorem Trace.valid (h : Trace steps t) : (durable t).Valid steps := by
  induction h with
  | nil => exact ⟨List.nil_prefix, fun h => nomatch h⟩
  | saved _ hm ih => exact hm.valid ih
  | apply _ _ _ ih => exact ih
  | undo _ _ _ _ ih => exact ih
  | undone _ ih => exact ih
  | opened _ _ ih => exact ih

theorem Trace.suffix {t0 : List (Event σ)} (h : Trace steps t) (ht : t0 <:+ t) : Trace steps t0 := by
  induction h with
  | nil =>
    rw [List.suffix_nil.mp ht]
    exact .nil
  | saved hprev hm ih =>
    rcases List.suffix_cons_iff.mp ht with rfl | hs
    · exact .saved hprev hm
    · exact ih hs
  | apply hprev hp hb ih =>
    rcases List.suffix_cons_iff.mp ht with rfl | hs
    · exact .apply hprev hp hb
    · exact ih hs
  | undo hprev hb hc hl ih =>
    rcases List.suffix_cons_iff.mp ht with rfl | hs
    · exact .undo hprev hb hc hl
    · exact ih hs
  | undone hprev ih =>
    rcases List.suffix_cons_iff.mp ht with rfl | hs
    · exact .undone hprev
    · exact ih hs
  | opened hprev hc ih =>
    rcases List.suffix_cons_iff.mp ht with rfl | hs
    · exact .opened hprev hc
    · exact ih hs

/-! ## Steps that are listed -/

theorem not_live_of_undone (h : last t = some (.undone s)) : ¬ Live s t := by
  induction t with
  | nil => exact fun hl => hl
  | cons e t ih =>
    cases e with
    | saved r => exact ih h
    | undone s' =>
      cases h
      exact fun hl => hl.1 rfl
    | _ => cases h

theorem Moves.keeps (hm : Moves steps action r r') {x : σ} (hx : x ∈ r.listed)
    (hgone : action ≠ some (.undone x)) : x ∈ r'.listed := by
  cases hm with
  | start _ _ hp _ =>
    simp only [Record.listed, hp, Option.toList_none, List.append_nil] at hx
    exact List.mem_append_left _ hx
  | finish _ hp _ => simpa [Record.listed, hp] using hx
  | dropPending _ hp ha =>
    simp only [Record.listed, hp, Option.toList_some, List.mem_append, List.mem_singleton] at hx
    rcases hx with hx | rfl
    · simpa [Record.listed] using hx
    · exact absurd ha hgone
  | dropLast _ hp hc ha =>
    simp only [Record.listed, hp, hc, Option.toList_none, List.append_nil, List.mem_append, List.mem_singleton] at hx
    rcases hx with hx | rfl
    · simpa [Record.listed, hp] using hx
    · exact absurd ha hgone
  | _ => exact hx

theorem Trace.live_listed (h : Trace steps t) {x : σ} (hx : Live x t) : x ∈ (durable t).listed := by
  induction h with
  | nil => exact hx.elim
  | saved _ hm ih => exact hm.keeps (ih hx) fun hu => not_live_of_undone hu hx
  | apply _ hp _ ih =>
    rcases hx with rfl | hx
    · refine List.mem_append_right _ ?_
      simp [durable, hp]
    · exact ih hx
  | undo _ _ _ _ ih => exact ih hx
  | undone _ ih => exact ih hx.2
  | opened _ _ ih => exact ih hx

/-! ## The end of a rollback, and the commit -/

theorem Moves.completes (hm : Moves steps action r r') (hb : r.rollingBack = true) (hb' : r'.rollingBack = false) :
    r'.listed = [] := by
  cases hm with
  | turned _ hc hp => simp [Record.listed, hc, hp]
  | same => exact absurd (hb.symm.trans hb') (by simp)
  | start _ h _ _ => exact absurd (hb.symm.trans h) (by simp)
  | finish h _ _ => exact absurd (hb.symm.trans h) (by simp)
  | commit _ _ h => exact absurd (hb.symm.trans h) (by simp)
  | turn _ => cases hb'
  | dropPending _ _ _ => exact absurd (hb.symm.trans hb') (by simp)
  | dropLast _ _ _ _ => exact absurd (hb.symm.trans hb') (by simp)

theorem Trace.rollback_ended (h : Trace steps t) (ht : t = mid ++ .saved r :: pre) (hr : r.rollingBack = true)
    (hb : (durable t).rollingBack = false) :
    ∃ r', .saved r' ∈ mid ∧ r'.rollingBack = false ∧ r'.listed = [] := by
  induction mid generalizing t with
  | nil =>
    rw [ht] at hb
    exact absurd (hr.symm.trans hb) (by simp)
  | cons e mid ih =>
    have hrest : Trace steps (mid ++ .saved r :: pre) := h.suffix (by rw [ht]; exact List.suffix_cons _ _)
    have hdone : (durable (mid ++ .saved r :: pre)).rollingBack = false →
        ∃ r', .saved r' ∈ e :: mid ∧ r'.rollingBack = false ∧ r'.listed = [] := fun hfalse => by
      obtain ⟨r', hmem, hr'⟩ := ih hrest rfl hfalse
      exact ⟨r', List.mem_cons_of_mem _ hmem, hr'⟩
    cases e with
    | saved r' =>
      by_cases hprev : (durable (mid ++ .saved r :: pre)).rollingBack = false
      · exact hdone hprev
      · rw [ht] at h hb
        cases h with
        | saved _ hm =>
          exact ⟨r', List.mem_cons_self, hb, hm.completes (by simpa using hprev) hb⟩
    | _ =>
      rw [ht] at hb
      exact hdone hb

theorem Moves.committed (hm : Moves steps action r r') (hr : r.committed = true) : r'.committed = true := by
  cases hm <;> first | exact hr | rfl

theorem Trace.committed_stays (h : Trace steps t) (hmem : .saved r ∈ t) (hr : r.committed = true) :
    (durable t).committed = true := by
  induction h with
  | nil => cases hmem
  | saved _ hm ih =>
    rcases List.mem_cons.mp hmem with heq | hmem
    · cases heq
      exact hr
    · exact hm.committed (ih hmem)
  | apply _ _ _ ih => exact ih (by simpa using hmem)
  | undo _ _ _ _ ih => exact ih (by simpa using hmem)
  | undone _ ih => exact ih (by simpa using hmem)
  | opened _ _ ih => exact ih (by simpa using hmem)

/-! ## The order of the undos -/

/-- Where the record stands after an undo of step `n`, until the next call: the step is listed, or it is
the first one that is not. -/
structure After (n : Nat) (r : Record σ) : Prop where
  length : r.listed.length = n ∨ r.listed.length = n + 1
  turning : r.rollingBack = true ∨ n = 0 ∧ r.completed = []

theorem getLast?_prefix (hl : l <+: steps) (hs : l.getLast? = some s) : l ≠ [] ∧ steps[l.length - 1]? = some s := by
  obtain ⟨rest, rfl⟩ := hl
  have hne : l ≠ [] := by
    rintro rfl
    cases hs
  refine ⟨hne, ?_⟩
  rw [List.getElem?_append_left (Nat.sub_lt (List.length_pos_iff.mpr hne) Nat.one_pos), ← List.getLast?_eq_getElem?, hs]

theorem length_of_last (hd : steps.Nodup) (hl : l <+: steps) (hn : steps[n]? = some s)
    (hs : l.getLast? = some s) : l.length = n + 1 := by
  obtain ⟨hne, hlast⟩ := getLast?_prefix hl hs
  have hlt : n < steps.length := (List.getElem?_eq_some_iff.mp hn).1
  have : n = l.length - 1 := (List.getElem?_inj hlt hd).mp (hn.trans hlast.symm)
  have := List.length_pos_iff.mpr hne
  omega

theorem Moves.after (hd : steps.Nodup) (hv : r.Valid steps) (hn : steps[n]? = some s)
    (ha : action = some (.undo s) ∨ action = some (.undone s)) (hm : Moves steps action r r') (h : After n r) :
    After n r' := by
  cases hm with
  | same => exact h
  | start _ hb hp _ =>
    rcases h.turning with ht | ⟨rfl, hc⟩
    · exact absurd (ht.symm.trans hb) (by simp)
    · exact ⟨.inr (by simp [Record.listed, hc]), .inr ⟨rfl, hc⟩⟩
  | finish _ _ hact => rcases ha with ha | ha <;> exact absurd (ha.symm.trans hact) (by simp)
  | commit _ _ _ => exact ⟨h.length, h.turning⟩
  | turn _ => exact ⟨h.length, .inl rfl⟩
  | turned _ hc hp =>
    refine ⟨h.length, .inr ⟨?_, hc⟩⟩
    have hempty : r.listed = [] := by simp [Record.listed, hc, hp]
    have := h.length
    rw [hempty] at this
    simp at this
    omega
  | @dropPending s' hb hp hact =>
    have hs : s' = s := by
      rcases ha with ha | ha <;> simpa using hact.symm.trans ha
    have hlength := length_of_last hd hv.listed hn (by simp [Record.listed, hp, hs])
    exact ⟨.inl (by simpa [Record.listed, hp] using hlength), .inl hb⟩
  | @dropLast s' before hb hp hc hact =>
    have hs : s' = s := by
      rcases ha with ha | ha <;> simpa using hact.symm.trans ha
    have hlength := length_of_last hd hv.listed hn (by simp [Record.listed, hp, hc, hs])
    exact ⟨.inl (by simpa [Record.listed, hp, hc] using hlength), .inl hb⟩

theorem last_append_undo (h : Trace steps (mid ++ .undo s :: pre)) (happly : ∀ x, .apply x ∉ mid)
    (hundo : ∀ x, .undo x ∉ mid) (hopened : .opened ∉ mid) :
    last (mid ++ .undo s :: pre) = some (.undo s) ∨ last (mid ++ .undo s :: pre) = some (.undone s) := by
  induction mid with
  | nil => exact .inl rfl
  | cons e mid ih =>
    have hrest := ih (h.suffix (List.suffix_cons _ _)) (fun x hx => happly x (List.mem_cons_of_mem _ hx))
      (fun x hx => hundo x (List.mem_cons_of_mem _ hx)) (fun hx => hopened (List.mem_cons_of_mem _ hx))
    cases e with
    | saved r => exact hrest
    | apply x => exact absurd List.mem_cons_self (happly x)
    | undo x => exact absurd List.mem_cons_self (hundo x)
    | opened => exact absurd List.mem_cons_self hopened
    | undone x =>
      cases mid with
      | nil =>
        cases h with
        | undone h => exact .inr rfl
      | cons e mid =>
        cases h with
        | undone h => exact absurd (List.mem_cons_of_mem _ List.mem_cons_self) (hundo x)

theorem Trace.after (hd : steps.Nodup) (hn : steps[n]? = some s) (h : Trace steps (mid ++ .undo s :: pre))
    (happly : ∀ x, .apply x ∉ mid) (hundo : ∀ x, .undo x ∉ mid) (hopened : .opened ∉ mid) :
    After n (durable (mid ++ .undo s :: pre)) := by
  induction mid with
  | nil =>
    cases h with
    | undo hprev hb _ hlast => exact ⟨.inr (length_of_last hd hprev.valid.listed hn hlast), .inl hb⟩
  | cons e mid ih =>
    have hprev := h.suffix (List.suffix_cons _ _)
    have happly' : ∀ x, .apply x ∉ mid := fun x hx => happly x (List.mem_cons_of_mem _ hx)
    have hundo' : ∀ x, .undo x ∉ mid := fun x hx => hundo x (List.mem_cons_of_mem _ hx)
    have hopened' : .opened ∉ mid := fun hx => hopened (List.mem_cons_of_mem _ hx)
    have hrest := ih hprev happly' hundo' hopened'
    cases e with
    | saved r =>
      cases h with
      | saved _ hm => exact hm.after hd hprev.valid hn (last_append_undo hprev happly' hundo' hopened') hrest
    | apply x => exact hrest
    | undo x => exact hrest
    | undone x => exact hrest
    | opened => exact hrest

theorem Trace.opened_committed (h : Trace steps t) (hmem : .opened ∈ t) : (durable t).committed = true := by
  induction h with
  | nil => cases hmem
  | saved _ hm ih => exact hm.committed (ih (by simpa using hmem))
  | apply _ _ _ ih => exact ih (by simpa using hmem)
  | undo _ _ _ _ ih => exact ih (by simpa using hmem)
  | undone _ ih => exact ih (by simpa using hmem)
  | opened _ hc _ => exact hc

theorem Trace.undo_next {s1 s2 : σ} (hd : steps.Nodup) (h : Trace steps (.undo s2 :: mid ++ .undo s1 :: pre))
    (happly : ∀ x, .apply x ∉ mid) (hundo : ∀ x, .undo x ∉ mid) :
    s2 = s1 ∨ ∃ i, steps[i]? = some s2 ∧ steps[i + 1]? = some s1 := by
  have hfirst : Trace steps (.undo s1 :: pre) := h.suffix (List.suffix_append _ _)
  cases h with
  | undo hprev _ hcommitted hlast =>
    have hopened : .opened ∉ mid := fun hmem =>
      absurd (hcommitted.symm.trans (hprev.opened_committed (List.mem_append_left _ hmem))) (by simp)
    cases hfirst with
    | undo hpre _ _ hlast1 =>
      obtain ⟨hne1, hn⟩ := getLast?_prefix hpre.valid.listed hlast1
      obtain ⟨hne, hlast2⟩ := getLast?_prefix hprev.valid.listed hlast
      have hpos := List.length_pos_iff.mpr hne
      rcases (hprev.after hd hn happly hundo hopened).length with hlength | hlength
      · refine .inr ⟨_, hlast2, ?_⟩
        rw [Nat.sub_add_cancel hpos]
        exact hlength ▸ hn
      · refine .inl (Option.some.inj (hlast2.symm.trans (Eq.trans ?_ hn)))
        have hpre : 0 < (durable pre).listed.length := List.length_pos_iff.mpr hne1
        exact congrArg (fun n => steps[n - 1]?) (hlength.trans (Nat.sub_add_cancel hpre))

theorem Trace.sound (hd : steps.Nodup) (h : Trace steps t) : Sound steps t where
  listed _ hs := h.live_listed hs
  ordered := h.valid.listed
  undo_last post s pre ht := by
    have hsplit : Trace steps (.undo s :: pre) := h.suffix (ht ▸ List.suffix_append _ _)
    cases hsplit with
    | undo _ _ _ hlast => exact hlast
  undo_next post s2 mid s1 pre ht happly hundo := by
    rw [List.append_assoc] at ht
    exact (h.suffix (ht ▸ List.suffix_append _ _)).undo_next hd happly hundo
  apply_after post s mid r pre ht hr := by
    rw [List.append_assoc] at ht
    have hsplit : Trace steps (.apply s :: (mid ++ .saved r :: pre)) := h.suffix (ht ▸ List.suffix_append _ _)
    cases hsplit with
    | apply hprev _ hb => exact hprev.rollback_ended rfl hr hb
  opened_committed post pre ht := by
    have hsplit : Trace steps (.opened :: pre) := h.suffix (ht ▸ List.suffix_append _ _)
    cases hsplit with
    | opened _ hc => exact hc
  committed_final post s mid r pre ht := by
    rw [List.append_assoc] at ht
    have hsplit : Trace steps (.undo s :: (mid ++ .saved r :: pre)) := h.suffix (ht ▸ List.suffix_append _ _)
    cases hsplit with
    | undo hprev _ hc _ =>
      cases hr : r.committed with
      | false => rfl
      | true =>
        exact (hprev.committed_stays (List.mem_append_right _ List.mem_cons_self) hr).symm.trans hc

end

end Saga

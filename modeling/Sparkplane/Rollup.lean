import Sparkplane.Table
import Mathlib.Algebra.BigOperators.Group.Finset.Piecewise
import Mathlib.Algebra.BigOperators.Group.Finset.Sigma

/-!
# Totals kept by increments

A table of totals grouped by a key can be computed from the rows it sums up,
or kept beside them: a new row adds its own contribution to its group, and a
row that changes inside its group adds the difference. `RollsUp` says that the
kept totals are the computed ones, and that no row is without its group.
-/

namespace Table

variable {κ ι ρ ρ' A : Type}

/-- `INSERT ... ON CONFLICT DO UPDATE`, where the update reads the old row. -/
def upsertWith [DecidableEq κ] (t : Table κ ρ) (k : κ) (r : ρ) (f : ρ → ρ) : Table κ ρ :=
  (t.insert k r).getD (t.modify k f)

/-- `SELECT SUM(m) ... WHERE p`. -/
def total [AddCommMonoid A] (t : Table κ ρ) (p : κ → ρ → Bool) (m : ρ → A) : A :=
  ((t.select p).map fun r => m r.2).sum

section
variable [DecidableEq κ]

theorem get?_upsertWith (t : Table κ ρ) (k : κ) (r : ρ) (f : ρ → ρ) (k' : κ) :
    (t.upsertWith k r f).get? k' = if k' = k then some (((t.get? k).map f).getD r) else t.get? k' := by
  unfold upsertWith
  cases h : t.insert k r with
  | some t' => simp [get?_insert h, insert_fresh h]
  | none =>
    obtain ⟨x, hx⟩ := mem_keys_iff.mp (insert_eq_none.mp h)
    simp [get?_modify, get?_eq_some.mpr hx]

variable {k : κ} {r : ρ} {t : Table κ ρ} {m : ρ → A} {p : κ → ρ → Bool}

theorem mem_keys_of_get? (h : t.get? k = some r) : k ∈ t.keys :=
  mem_keys_iff.mpr ⟨r, get?_eq_some.mp h⟩

theorem modify_eq_self {f : ρ → ρ} (h : ∀ r, t.get? k = some r → f r = r) : t.modify k f = t := by
  apply ext
  refine (List.map_congr_left fun r hr => ?_).trans (List.map_id _)
  by_cases e : r.1 = k
  · have hf := h r.2 (get?_eq_some.mpr (e ▸ hr))
    simp only [e, if_true, hf, id_eq]
    exact Prod.ext e.symm rfl
  · simp only [e, if_false, id_eq]

variable [AddCommMonoid A]

def share (p : κ → ρ → Bool) (m : ρ → A) (k : κ) : Option ρ → A
  | some r => if p k r then m r else 0
  | none => 0

theorem total_eq_sum (t : Table κ ρ) (p : κ → ρ → Bool) (m : ρ → A) :
    t.total p m = ∑ k ∈ t.keys.toFinset, share p m k (t.get? k) := by
  have hrow : ∀ r ∈ t.rows, share p m r.1 (t.get? r.1) = if p r.1 r.2 then m r.2 else 0 := by
    intro r hr
    rw [get?_eq_some.mpr hr]
    rfl
  rw [keys, List.sum_toFinset _ t.nodup, List.map_map, total, select]
  rw [show List.map ((fun k => share p m k (t.get? k)) ∘ Prod.fst) t.rows =
    t.rows.map fun r => if p r.1 r.2 then m r.2 else 0 from List.map_congr_left hrow]
  induction t.rows with
  | nil => rfl
  | cons r rows ih => by_cases h : p r.1 r.2 <;> simp [h, ih]

theorem total_congr {t' : Table κ ρ'} {p' : κ → ρ' → Bool} {m' : ρ' → A}
    (h : ∀ k, share p m k (t.get? k) = share p' m' k (t'.get? k)) : t.total p m = t'.total p' m' := by
  have hout : ∀ {ρ : Type} (t : Table κ ρ) (p : κ → ρ → Bool) (m : ρ → A) (k : κ),
      k ∉ t.keys.toFinset → share p m k (t.get? k) = 0 := by
    intro ρ t p m k hk
    rw [get?_eq_none.mpr (fun h => hk (List.mem_toFinset.mpr h))]
    rfl
  rw [total_eq_sum, total_eq_sum]
  calc ∑ k ∈ t.keys.toFinset, share p m k (t.get? k)
      = ∑ k ∈ t.keys.toFinset ∪ t'.keys.toFinset, share p m k (t.get? k) :=
        Finset.sum_subset Finset.subset_union_left fun k _ hk => hout t p m k hk
    _ = ∑ k ∈ t.keys.toFinset ∪ t'.keys.toFinset, share p' m' k (t'.get? k) :=
        Finset.sum_congr rfl fun k _ => h k
    _ = ∑ k ∈ t'.keys.toFinset, share p' m' k (t'.get? k) :=
        (Finset.sum_subset Finset.subset_union_right fun k _ hk => hout t' p' m' k hk).symm

theorem total_insert {t' : Table κ ρ} (h : t.insert k r = some t') (p : κ → ρ → Bool) (m : ρ → A) :
    t'.total p m = t.total p m + if p k r then m r else 0 := by
  unfold total select
  rw [insert_rows h, List.filter_append, List.map_append, List.sum_append]
  by_cases hp : p k r <;> simp [hp]

theorem total_modify (hr : t.get? k = some r) {f : ρ → ρ} {δ : A} (hp : p k (f r) = p k r)
    (hm : m (f r) = m r + δ) : (t.modify k f).total p m = t.total p m + if p k r then δ else 0 := by
  have hshare : ∀ k', share p m k' ((t.modify k f).get? k') =
      share p m k' (t.get? k') + if k' = k then (if p k r then δ else 0) else 0 := by
    intro k'
    by_cases e : k' = k
    · subst e
      rw [get?_modify_self, hr]
      by_cases h : p k' r <;> simp [share, hp, hm, h]
    · simp [get?_modify, e]
  have hk : k ∈ t.keys.toFinset := List.mem_toFinset.mpr (mem_keys_of_get? hr)
  rw [total_eq_sum, total_eq_sum, keys_modify, Finset.sum_congr rfl fun k' _ => hshare k',
    Finset.sum_add_distrib, Finset.sum_ite_eq', if_pos hk]

theorem total_update_hom (t : Table κ ρ) {f : κ → ρ → ρ} (g : A →+ A)
    (hp : ∀ k r, t.get? k = some r → p k (f k r) = p k r) (hm : ∀ k r, t.get? k = some r → m (f k r) = g (m r)) :
    (t.update f).total p m = g (t.total p m) := by
  rw [total_eq_sum, total_eq_sum, map_sum, keys_update]
  apply Finset.sum_congr rfl
  intro k _
  rw [get?_update]
  cases h : t.get? k with
  | none => exact (map_zero g).symm
  | some r =>
    by_cases h' : p k r <;> simp [share, hp k r h, hm k r h, h']

end

end Table

structure RollsUp {ι κ ρ A : Type} [DecidableEq ι] [DecidableEq κ] [AddCommMonoid A] (key : ρ → κ)
    (m : ρ → A) (t : Table ι ρ) (d : Table κ A) : Prop where
  sums : ∀ k a, d.get? k = some a → a = t.total (fun _ r => key r = k) m
  grouped : ∀ i r, t.get? i = some r → key r ∈ d.keys

namespace RollsUp

variable {ι κ ρ A : Type} [DecidableEq ι] [DecidableEq κ] [AddCommMonoid A] {key : ρ → κ} {m : ρ → A}
  {t : Table ι ρ} {d : Table κ A}

variable (key m) in
theorem empty : RollsUp key m (.empty : Table ι ρ) (.empty : Table κ A) := by
  constructor
  · intro k a h
    cases h
  · intro i r h
    cases h

theorem total_of_not_mem (h : RollsUp key m t d) {k : κ} (hk : k ∉ d.keys) : t.total (fun _ r => key r = k) m = 0 := by
  rw [Table.total_eq_sum]
  apply Finset.sum_eq_zero
  intro i _
  cases hi : t.get? i with
  | none => rfl
  | some r =>
    have : key r ≠ k := fun e => hk (e ▸ h.grouped i r hi)
    simp [Table.share, this]

theorem insert (h : RollsUp key m t d) {t' : Table ι ρ} {i : ι} {r : ρ} (hi : t.insert i r = some t')
    {add : A → A} (hadd : ∀ a, add a = a + m r) :
    RollsUp key m t' (d.upsertWith (key r) (m r) add) := by
  have hnew : ∀ k, t'.total (fun _ r => key r = k) m =
      t.total (fun _ r => key r = k) m + if key r = k then m r else 0 := by
    intro k
    simpa using Table.total_insert hi (fun _ r => key r = k) m
  constructor
  · intro k a hk
    rw [Table.get?_upsertWith] at hk
    by_cases e : k = key r
    · subst e
      rw [if_pos rfl] at hk
      rw [hnew, if_pos rfl, ← Option.some.inj hk]
      cases hd : d.get? (key r) with
      | none => simp [h.total_of_not_mem (Table.get?_eq_none.mp hd)]
      | some a0 => simp [hadd, h.sums _ _ hd]
    · rw [if_neg e] at hk
      rw [hnew, if_neg (Ne.symm e), add_zero]
      exact h.sums k a hk
  · intro j r' hj
    by_contra hn
    have hd := Table.get?_eq_none.mpr hn
    rw [Table.get?_upsertWith] at hd
    split at hd
    · cases hd
    next e =>
      rw [Table.get?_insert hi] at hj
      split at hj
      · exact e (by rw [Option.some.inj hj])
      · exact Table.get?_eq_none.mp hd (h.grouped j r' hj)

theorem modify (h : RollsUp key m t d) {i : ι} {r : ρ} (hi : t.get? i = some r) {f : ρ → ρ} {add : A → A}
    {δ : A} (hkey : key (f r) = key r) (hm : m (f r) = m r + δ) (hadd : ∀ a, add a = a + δ) :
    RollsUp key m (t.modify i f) (d.modify (key r) add) := by
  have hnew : ∀ k, (t.modify i f).total (fun _ r => key r = k) m =
      t.total (fun _ r => key r = k) m + if key r = k then δ else 0 := by
    intro k
    simpa using Table.total_modify hi (p := fun _ r => decide (key r = k)) (by rw [hkey]) hm
  constructor
  · intro k a hk
    rw [Table.get?_modify] at hk
    rw [hnew]
    by_cases e : k = key r
    · subst e
      rw [if_pos rfl] at hk ⊢
      obtain ⟨a0, ha0, rfl⟩ := Option.map_eq_some_iff.mp hk
      rw [hadd, h.sums _ _ ha0]
    · rw [if_neg e] at hk
      rw [if_neg (Ne.symm e), add_zero]
      exact h.sums k a hk
  · intro j r' hj
    rw [Table.keys_modify]
    rw [Table.get?_modify] at hj
    split at hj
    · rw [hi] at hj
      rw [← Option.some.inj hj, hkey]
      exact h.grouped i r hi
    · exact h.grouped j r' hj

theorem update (h : RollsUp key m t d) {f : ι → ρ → ρ} {f' : κ → A → A} (g : A →+ A)
    (hkey : ∀ i r, t.get? i = some r → key (f i r) = key r)
    (hm : ∀ i r, t.get? i = some r → m (f i r) = g (m r))
    (hf' : ∀ k a, d.get? k = some a → f' k a = g a) : RollsUp key m (t.update f) (d.update f') := by
  constructor
  · intro k a hk
    rw [Table.get?_update] at hk
    obtain ⟨a0, ha0, rfl⟩ := Option.map_eq_some_iff.mp hk
    rw [Table.total_update_hom t g (fun i r hi => by rw [hkey i r hi]) hm, hf' k a0 ha0, h.sums k a0 ha0]
  · intro i r hi
    rw [Table.get?_update] at hi
    obtain ⟨r0, hr0, rfl⟩ := Option.map_eq_some_iff.mp hi
    rw [Table.keys_update, hkey i r0 hr0]
    exact h.grouped i r0 hr0

theorem total_groups (h : RollsUp key m t d) (q : κ → Bool) :
    d.total (fun k _ => q k) id = t.total (fun _ r => q (key r)) m := by
  have hgroup : ∀ k ∈ d.keys.toFinset, Table.share (fun k _ => q k) id k (d.get? k) = ∑ i ∈ t.keys.toFinset,
        if q k then Table.share (fun _ r => decide (key r = k)) m i (t.get? i) else 0 := by
    intro k hk
    obtain ⟨a, ha⟩ := Table.mem_keys_iff.mp (List.mem_toFinset.mp hk)
    have ha := Table.get?_eq_some.mpr ha
    rw [ha, h.sums k a ha, Table.total_eq_sum]
    by_cases hq : q k <;> simp [Table.share, hq]
  rw [Table.total_eq_sum, Finset.sum_congr rfl hgroup, Finset.sum_comm, Table.total_eq_sum]
  apply Finset.sum_congr rfl
  intro i _
  cases hi : t.get? i with
  | none => simp [Table.share]
  | some r =>
    have hmem : key r ∈ d.keys.toFinset := List.mem_toFinset.mpr (h.grouped i r hi)
    -- only the row's own group has a share of it
    rw [Finset.sum_eq_single_of_mem _ hmem]
    · by_cases hq : q (key r) <;> simp [Table.share, hq]
    · intro k _ hk
      simp [Table.share, Ne.symm hk]

end RollsUp

import Sparkplane.Rollup
import Mathlib.Data.List.Sort

/-!
# Views of a table

A table that holds, under other keys, a part of what the rows of a larger table
hold, in the same order. A row written in one is written in the other. Also the
rows of a table in the order of their keys, as an ordered map lists them.
-/

namespace Table

variable {κ κ' ρ ρ' A : Type} [DecidableEq κ] [DecidableEq κ']

theorem upsert_rows_of_mem {t : Table κ ρ} {k : κ} (h : k ∈ t.keys) (r : ρ) :
    (t.upsert k r).rows = t.rows.map fun x => (x.1, if x.1 = k then r else x.2) := by
  unfold upsert
  rw [insert_eq_none.mpr h]
  rfl

theorem length_upsert (t : Table κ ρ) (k : κ) (r : ρ) :
    (t.upsert k r).rows.length = if k ∈ t.keys then t.rows.length else t.rows.length + 1 := by
  by_cases h : k ∈ t.keys
  · rw [upsert_rows_of_mem h, if_pos h, List.length_map]
  · rw [upsert_rows h, if_neg h, List.length_append, List.length_singleton]

theorem total_upsert [AddCommMonoid A] (t : Table κ ρ) (k : κ) {r : ρ} {m : ρ → A} {δ : A}
    (hnew : t.get? k = none → m r = δ) (hold : ∀ r0, t.get? k = some r0 → m r = m r0 + δ) :
    (t.upsert k r).total (fun _ _ => true) m = t.total (fun _ _ => true) m + δ := by
  cases h : t.get? k with
  | none =>
    rw [total_insert (insert_eq_upsert h r), hnew h]
    rfl
  | some r0 =>
    have hk : t.upsert k r = t.modify k fun _ => r := by
      unfold upsert
      rw [insert_eq_none.mpr (mem_keys_of_get? h)]
      rfl
    rw [hk, total_modify h rfl (hold r0 h)]
    rfl

def Projects (φ : κ → Option κ') (v : ρ → ρ') (t : Table κ ρ) (t' : Table κ' ρ') : Prop :=
  t'.rows = t.rows.filterMap fun r => (φ r.1).map fun k => (k, v r.2)

section
variable {φ : κ → Option κ'} {v : ρ → ρ'} {t : Table κ ρ} {t' : Table κ' ρ'}

theorem Projects.get? (h : Projects φ v t t') (hφ : ∀ {k1 k2 k'}, φ k1 = some k' → φ k2 = some k' → k1 = k2)
    {k : κ} {k' : κ'} (hk : φ k = some k') : t'.get? k' = (t.get? k).map v := by
  cases hr : t.get? k with
  | none =>
    rw [Option.map_none, get?_eq_none, mem_keys_iff]
    rintro ⟨r', hr'⟩
    rw [h, List.mem_filterMap] at hr'
    obtain ⟨x, hx, he⟩ := hr'
    obtain ⟨k1, hk1, he⟩ := Option.map_eq_some_iff.mp he
    obtain rfl : k1 = k' := congrArg Prod.fst he
    obtain rfl := hφ hk1 hk
    rw [get?_eq_none] at hr
    exact hr (mem_keys_iff.mpr ⟨x.2, hx⟩)
  | some r =>
    rw [Option.map_some, get?_eq_some, h, List.mem_filterMap]
    exact ⟨(k, r), get?_eq_some.mp hr, by simp [hk]⟩

theorem Projects.mem_keys (h : Projects φ v t t') (hφ : ∀ {k1 k2 k'}, φ k1 = some k' → φ k2 = some k' → k1 = k2)
    {k : κ} {k' : κ'} (hk : φ k = some k') : k' ∈ t'.keys ↔ k ∈ t.keys := by
  have hget := h.get? hφ hk
  rw [← not_iff_not, ← get?_eq_none, ← get?_eq_none, hget, Option.map_eq_none_iff]

theorem Projects.upsert (h : Projects φ v t t') (hφ : ∀ {k1 k2 k'}, φ k1 = some k' → φ k2 = some k' → k1 = k2)
    {k : κ} {k' : κ'} (hk : φ k = some k') (r : ρ) : Projects φ v (t.upsert k r) (t'.upsert k' (v r)) := by
  have hmem := h.mem_keys hφ hk
  unfold Projects at h ⊢
  by_cases hin : k ∈ t.keys
  · rw [upsert_rows_of_mem hin, upsert_rows_of_mem (hmem.mpr hin), h, List.filterMap_map, List.map_filterMap]
    congr 1
    funext x
    cases hx : φ x.1 with
    | none => simp [hx]
    | some k1 =>
      by_cases e : x.1 = k
      · rw [e, hk] at hx
        cases hx
        simp [e, hk]
      · have hne : k1 ≠ k' := fun e' => e (hφ (e' ▸ hx) hk)
        simp [hx, e, hne]
  · rw [upsert_rows hin, upsert_rows (fun hin' => hin (hmem.mp hin')), h, List.filterMap_append]
    simp [hk]

omit [DecidableEq κ'] in
theorem Projects.upsert_none (h : Projects φ v t t') {k : κ} (hk : φ k = none) (r : ρ) :
    Projects φ v (t.upsert k r) t' := by
  unfold Projects at h ⊢
  by_cases hin : k ∈ t.keys
  · rw [upsert_rows_of_mem hin, h, List.filterMap_map]
    congr 1
    funext x
    by_cases e : x.1 = k
    · simp [e, hk]
    · simp [e]
  · rw [upsert_rows hin, h, List.filterMap_append]
    simp [hk]

omit [DecidableEq κ] [DecidableEq κ'] in
theorem Projects.update (h : Projects φ v t t') {f : κ → ρ → ρ} (hf : ∀ k r, v (f k r) = v r) :
    Projects φ v (t.update f) t' := by
  unfold Projects at h ⊢
  rw [h]
  show _ = List.filterMap _ (t.rows.map _)
  rw [List.filterMap_map]
  congr 1
  funext x
  simp [hf]

end

def Rekeys (ix : ρ → κ') (v : κ → ρ → ρ') (t : Table κ ρ) (t' : Table κ' ρ') : Prop :=
  t'.rows = t.rows.map fun r => (ix r.2, v r.1 r.2)

section
variable {ix : ρ → κ'} {v : κ → ρ → ρ'} {t : Table κ ρ} {t' : Table κ' ρ'}

omit [DecidableEq κ] [DecidableEq κ'] in
theorem Rekeys.mem_keys (h : Rekeys ix v t t') {i : κ'} : i ∈ t'.keys ↔ ∃ r ∈ t.rows, ix r.2 = i := by
  unfold keys
  rw [h, List.map_map, List.mem_map]
  rfl

omit [DecidableEq κ] [DecidableEq κ'] in
theorem Rekeys.key_inj (h : Rekeys ix v t t') {k1 k2 : κ} {r1 r2 : ρ} (h1 : (k1, r1) ∈ t.rows) (h2 : (k2, r2) ∈ t.rows)
    (hi : ix r1 = ix r2) : k1 = k2 := by
  have hn : (t.rows.map fun r => ix r.2).Nodup := by
    have := t'.nodup
    rw [h, List.map_map] at this
    exact this
  exact congrArg Prod.fst (List.inj_on_of_nodup_map hn h1 h2 hi)

theorem Rekeys.add (h : Rekeys ix v t t') {k : κ} {r : ρ} (hk : k ∉ t.keys) (hi : ix r ∉ t'.keys) :
    Rekeys ix v (t.upsert k r) (t'.upsert (ix r) (v k r)) := by
  unfold Rekeys at h ⊢
  rw [upsert_rows hk, upsert_rows hi, h, List.map_append]
  rfl

theorem Rekeys.write (h : Rekeys ix v t t') {k : κ} {r0 r : ρ} (hr0 : t.get? k = some r0) (hi : ix r = ix r0)
    {f : ρ' → ρ'} (hf : f (v k r0) = v k r) : Rekeys ix v (t.upsert k r) (t'.modify (ix r0) f) := by
  have hmem := get?_eq_some.mp hr0
  unfold Rekeys
  rw [upsert_rows_of_mem (mem_keys_of_get? hr0)]
  show t'.rows.map _ = _
  rw [h, List.map_map, List.map_map]
  refine List.map_congr_left fun x hx => ?_
  by_cases e : x.1 = k
  · have hx0 : x.2 = r0 := Option.some.inj ((get?_eq_some.mpr (e ▸ hx)).symm.trans hr0)
    simp [e, hx0, hi, hf]
  · have hne : ix x.2 ≠ ix r0 := fun hi => e (h.key_inj hx hmem hi)
    simp [e, hne]

end

theorem modify_upsert {t : Table κ ρ} {k : κ} (h : k ∉ t.keys) (r : ρ) (f : ρ → ρ) :
    (t.upsert k r).modify k f = t.upsert k (f r) := by
  apply Table.ext
  show (t.upsert k r).rows.map _ = _
  rw [upsert_rows h, upsert_rows h, List.map_append]
  congr 1
  · refine (List.map_congr_left fun x hx => ?_).trans (List.map_id _)
    have hne : x.1 ≠ k := fun e => h (e ▸ List.mem_map_of_mem hx)
    simp [hne]
  · simp

theorem modify_modify (t : Table κ ρ) (k : κ) (f g : ρ → ρ) : (t.modify k f).modify k g = t.modify k (g ∘ f) := by
  apply Table.ext
  show (t.rows.map _).map _ = t.rows.map _
  rw [List.map_map]
  refine List.map_congr_left fun x _ => ?_
  by_cases e : x.1 = k <;> simp [e]

def sorted (t : Table κ ρ) (rank : κ → Nat) : List (κ × ρ) := t.rows.insertionSort fun a b => rank a.1 ≤ rank b.1

omit [DecidableEq κ] in
theorem sorted_perm (t : Table κ ρ) (rank : κ → Nat) : (t.sorted rank).Perm t.rows := List.perm_insertionSort _ _

theorem filter_rows_eq (t : Table κ ρ) (k : κ) :
    (t.rows.filter fun r => r.1 = k) = ((t.get? k).map fun r => (k, r)).toList := by
  have hnone : ∀ rows : List (κ × ρ), k ∉ rows.map Prod.fst → (rows.filter fun r => r.1 = k) = [] := by
    intro rows hk
    rw [List.filter_eq_nil_iff]
    intro r hr e
    exact hk (List.mem_map.mpr ⟨r, hr, by simpa using e⟩)
  have hall : ∀ rows : List (κ × ρ), (rows.map Prod.fst).Nodup →
      (rows.filter fun r => r.1 = k) = (((rows.find? fun r => r.1 = k).map Prod.snd).map fun r => (k, r)).toList := by
    intro rows hn
    induction rows with
    | nil => rfl
    | cons r rows ih =>
      rw [List.map_cons, List.nodup_cons] at hn
      by_cases e : r.1 = k
      · subst e
        rw [List.filter_cons_of_pos (by simp), hnone rows hn.1, List.find?_cons_of_pos (by simp)]
        rfl
      · rw [List.filter_cons_of_neg (by simp [e]), ih hn.2, List.find?_cons_of_neg (by simp [e])]
  exact hall t.rows t.nodup

end Table

theorem List.insertionSort_eq_of_perm {α : Type} {f : α → Nat} {l l' : List α} (h : l.Perm l')
    (hs : l'.Pairwise fun a b => f a < f b) : l.insertionSort (fun a b => f a ≤ f b) = l' := by
  have hl : (l.insertionSort fun a b => f a ≤ f b).Pairwise fun a b => f a ≤ f b := by
    have : Std.Total fun a b : α => f a ≤ f b := ⟨fun a b => Nat.le_total _ _⟩
    have : IsTrans α fun a b => f a ≤ f b := ⟨fun a b c => Nat.le_trans⟩
    exact List.pairwise_insertionSort _ l
  have hl' : l'.Pairwise fun a b => f a ≤ f b := hs.imp Nat.le_of_lt
  refine List.Perm.eq_of_pairwise ?_ hl hl' ((List.perm_insertionSort _ l).trans h)
  intro a b ha hb hab hba
  have ha : a ∈ l' := (h.mem_iff.mp ((List.perm_insertionSort _ l).mem_iff.mp ha))
  by_contra hne
  have hdistinct : l'.Pairwise fun a b => f a ≠ f b := hs.imp Nat.ne_of_lt
  have : Std.Symm fun a b : α => f a ≠ f b := ⟨fun _ _ h => h.symm⟩
  exact hdistinct.forall ha hb hne (Nat.le_antisymm hab hba)

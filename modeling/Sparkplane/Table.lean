import Mathlib.Data.List.Nodup

/-!
# Keyed tables

A table is a list of rows in insertion order, each under its primary key. The
key's uniqueness is a field, so no operation can build a table with two rows
under one key; `insert` refuses instead.
-/

structure Table (κ ρ : Type) where
  rows : List (κ × ρ)
  nodup : (rows.map Prod.fst).Nodup

namespace Table

variable {κ ρ : Type}

def empty : Table κ ρ := ⟨[], List.nodup_nil⟩

def keys (t : Table κ ρ) : List κ := t.rows.map Prod.fst

theorem ext {t t' : Table κ ρ} (h : t.rows = t'.rows) : t = t' := by
  cases t; cases t'; simp at h; subst h; rfl

/-- `UPDATE`: every row is rewritten under its own key. -/
def update (t : Table κ ρ) (f : κ → ρ → ρ) : Table κ ρ :=
  ⟨t.rows.map fun r => (r.1, f r.1 r.2), by
    have : (Prod.fst ∘ fun r : κ × ρ => (r.1, f r.1 r.2)) = Prod.fst := rfl
    rw [List.map_map, this]
    exact t.nodup⟩

/-- `DELETE`: rows for which `p` holds are dropped. -/
def delete (t : Table κ ρ) (p : κ → ρ → Bool) : Table κ ρ :=
  ⟨t.rows.filter fun r => !p r.1 r.2, (List.filter_sublist.map Prod.fst).nodup t.nodup⟩

/-- `SELECT ... WHERE p`, in insertion order. -/
def select (t : Table κ ρ) (p : κ → ρ → Bool) : List (κ × ρ) :=
  t.rows.filter fun r => p r.1 r.2

theorem length_delete_le (t : Table κ ρ) (p : κ → ρ → Bool) : (t.delete p).rows.length ≤ t.rows.length :=
  List.length_filter_le _ _

theorem mem_keys_iff {t : Table κ ρ} {k : κ} : k ∈ t.keys ↔ ∃ r, (k, r) ∈ t.rows := by
  simp [keys]

theorem keys_update (t : Table κ ρ) (f : κ → ρ → ρ) : (t.update f).keys = t.keys := by
  unfold keys update
  rw [List.map_map]
  rfl

section
variable [DecidableEq κ]

def get? (t : Table κ ρ) (k : κ) : Option ρ := (t.rows.find? fun r => r.1 = k).map Prod.snd

/-- `INSERT`: `none` when the primary key is taken. -/
def insert (t : Table κ ρ) (k : κ) (r : ρ) : Option (Table κ ρ) :=
  if h : k ∈ t.keys then none
  else some ⟨t.rows ++ [(k, r)], by
    rw [List.map_append, List.nodup_append]
    refine ⟨t.nodup, List.nodup_singleton _, ?_⟩
    intro a ha b hb
    simp only [List.map_cons, List.map_nil, List.mem_singleton] at hb
    subst hb
    exact fun e => h (e ▸ ha)⟩

/-- `UPDATE ... WHERE key = k`. -/
def modify (t : Table κ ρ) (k : κ) (f : ρ → ρ) : Table κ ρ :=
  t.update fun k' r => if k' = k then f r else r

/-- `INSERT ... ON CONFLICT(key) DO UPDATE`. -/
def upsert (t : Table κ ρ) (k : κ) (r : ρ) : Table κ ρ :=
  (t.insert k r).getD (t.modify k fun _ => r)

variable {k : κ} {r : ρ} {t t' : Table κ ρ}

theorem find?_rows {rows : List (κ × ρ)} (hn : (rows.map Prod.fst).Nodup) (h : (k, r) ∈ rows) :
    rows.find? (fun x => x.1 = k) = some (k, r) := by
  induction rows with
  | nil => cases h
  | cons x rows ih =>
    rw [List.map_cons, List.nodup_cons] at hn
    rcases List.mem_cons.mp h with h | h
    · subst h; simp
    · have : x.1 ≠ k := fun e => hn.1 (e ▸ List.mem_map_of_mem (f := Prod.fst) h)
      simp [this, ih hn.2 h]

theorem get?_eq_some : t.get? k = some r ↔ (k, r) ∈ t.rows := by
  unfold get?
  constructor
  · intro h
    obtain ⟨x, hx, hr⟩ := Option.map_eq_some_iff.mp h
    have hk := List.find?_some hx
    simp only [decide_eq_true_eq] at hk
    have hm := List.mem_of_find?_eq_some hx
    rwa [← hk, ← hr]
  · intro h
    rw [find?_rows t.nodup h]; rfl

theorem get?_eq_none : t.get? k = none ↔ k ∉ t.keys := by
  rw [mem_keys_iff, Option.eq_none_iff_forall_ne_some]
  simp only [ne_eq, get?_eq_some, not_exists]

@[simp] theorem get?_empty (k : κ) : (empty : Table κ ρ).get? k = none := rfl

theorem insert_eq_none : t.insert k r = none ↔ k ∈ t.keys := by
  unfold insert; split <;> simp [*]

theorem insert_rows (h : t.insert k r = some t') : t'.rows = t.rows ++ [(k, r)] := by
  unfold insert at h
  split at h
  · cases h
  · cases h; rfl

theorem insert_fresh (h : t.insert k r = some t') : t.get? k = none := by
  rw [get?_eq_none]; intro hk
  rw [insert_eq_none.mpr hk] at h; cases h

theorem get?_insert (h : t.insert k r = some t') (k' : κ) : t'.get? k' = if k' = k then some r else t.get? k' := by
  have hf := insert_fresh h
  unfold get? at hf ⊢
  rw [insert_rows h, List.find?_append]
  by_cases e : k' = k
  · subst e
    simp [Option.map_eq_none_iff.mp hf]
  · simp [e, Ne.symm e]

theorem get?_update (t : Table κ ρ) (f : κ → ρ → ρ) (k : κ) : (t.update f).get? k = (t.get? k).map (f k) := by
  unfold get? update
  rw [List.find?_map, Option.map_map, Option.map_map]
  have : ((fun r : κ × ρ => decide (r.1 = k)) ∘ fun r : κ × ρ => (r.1, f r.1 r.2)) =
      fun r => decide (r.1 = k) := rfl
  rw [this]
  cases h : t.rows.find? fun r => decide (r.1 = k) with
  | none => rfl
  | some x =>
    have hk := List.find?_some h
    simp only [decide_eq_true_eq] at hk
    simp [hk]

theorem get?_modify (t : Table κ ρ) (k : κ) (f : ρ → ρ) (k' : κ) :
    (t.modify k f).get? k' = if k' = k then (t.get? k).map f else t.get? k' := by
  unfold modify
  rw [get?_update]
  by_cases e : k' = k
  · subst e; simp
  · simp [e]

@[simp] theorem get?_modify_self (t : Table κ ρ) (k : κ) (f : ρ → ρ) :
    (t.modify k f).get? k = (t.get? k).map f := by simp [get?_modify]

theorem get?_modify_of_ne (t : Table κ ρ) {k' : κ} (f : ρ → ρ) (h : k' ≠ k) :
    (t.modify k f).get? k' = t.get? k' := by simp [get?_modify, h]

@[simp] theorem keys_modify (t : Table κ ρ) (k : κ) (f : ρ → ρ) : (t.modify k f).keys = t.keys :=
  t.keys_update _

theorem length_select (t : Table κ ρ) (p : κ → ρ → Bool) :
    (t.select p).length = t.keys.countP fun k => (t.get? k).any (p k) := by
  have hrow : ∀ r ∈ t.rows, (t.get? r.1).any (p r.1) = p r.1 r.2 := fun r hr => by
    rw [get?_eq_some.mpr hr, Option.any_some]
  unfold select keys
  rw [← List.countP_eq_length_filter, List.countP_map]
  exact List.countP_congr fun r hr => by rw [Function.comp, hrow r hr]

theorem find?_select (t : Table κ ρ) (p : κ → ρ → Bool) (k : κ) :
    (t.select p).find? (fun r => r.1 = k) = ((t.get? k).filter (p k)).map (k, ·) := by
  have hrow : ∀ x ∈ t.select p, x.1 = k → t.get? k = some x.2 ∧ p k x.2 = true := by
    rintro ⟨k', r⟩ hx rfl
    obtain ⟨hm, hp⟩ := List.mem_filter.mp hx
    exact ⟨get?_eq_some.mpr hm, hp⟩
  cases hg : (t.get? k).filter (p k) with
  | none =>
    refine List.find?_eq_none.mpr fun x hx e => ?_
    obtain ⟨hx', hp⟩ := hrow x hx (of_decide_eq_true e)
    rw [hx', Option.filter_some, if_pos hp] at hg
    cases hg
  | some r =>
    obtain ⟨hr, hp⟩ := Option.filter_eq_some_iff.mp hg
    exact find?_rows ((List.filter_sublist.map _).nodup t.nodup) (List.mem_filter.mpr ⟨get?_eq_some.mp hr, hp⟩)

theorem get?_upsert (t : Table κ ρ) (k : κ) (r : ρ) (k' : κ) :
    (t.upsert k r).get? k' = if k' = k then some r else t.get? k' := by
  unfold upsert
  cases h : t.insert k r with
  | some t' => simp [get?_insert h]
  | none =>
    obtain ⟨x, hx⟩ := mem_keys_iff.mp (insert_eq_none.mp h)
    simp [get?_modify, get?_eq_some.mpr hx]

theorem upsert_rows (h : k ∉ t.keys) (r : ρ) : (t.upsert k r).rows = t.rows ++ [(k, r)] := by
  unfold upsert
  cases hi : t.insert k r with
  | some t' => exact insert_rows hi
  | none => exact absurd (insert_eq_none.mp hi) h

theorem insert_eq_upsert (h : t.get? k = none) (r : ρ) : t.insert k r = some (t.upsert k r) := by
  unfold upsert
  cases hi : t.insert k r with
  | some t' => rfl
  | none => exact absurd (insert_eq_none.mp hi) (get?_eq_none.mp h)

theorem insert_isNone (h : (t.get? k).isSome) (r : ρ) : t.insert k r = none := by
  rw [insert_eq_none]
  by_contra hk
  rw [get?_eq_none.mpr hk] at h
  cases h

theorem get?_delete (t : Table κ ρ) (p : κ → ρ → Bool) (k : κ) :
    (t.delete p).get? k = (t.get? k).filter fun r => !p k r := by
  cases h : t.get? k with
  | none =>
    rw [get?_eq_none, mem_keys_iff] at h
    rw [Option.filter_none, get?_eq_none, mem_keys_iff]
    rintro ⟨r, hr⟩
    exact h ⟨r, (List.mem_filter.mp hr).1⟩
  | some r =>
    have hm := get?_eq_some.mp h
    by_cases hp : p k r = true
    · simp only [hp, Option.filter_some, Bool.not_true, Bool.false_eq_true, ite_false]
      rw [get?_eq_none, mem_keys_iff]
      rintro ⟨r', hr'⟩
      obtain ⟨hr', hp'⟩ := List.mem_filter.mp hr'
      have : r = r' := Option.some.inj (h ▸ get?_eq_some.mpr hr')
      subst this
      simp [hp] at hp'
    · simp only [hp, Option.filter_some, Bool.not_false, ite_true]
      exact get?_eq_some.mpr (List.mem_filter.mpr ⟨hm, by simp [hp]⟩)

theorem length_modify (t : Table κ ρ) (k : κ) (f : ρ → ρ) : (t.modify k f).rows.length = t.rows.length := by
  unfold modify update
  simp

theorem length_upsert_le (t : Table κ ρ) (k : κ) (r : ρ) : (t.upsert k r).rows.length ≤ t.rows.length + 1 := by
  by_cases h : k ∈ t.keys
  · unfold upsert
    rw [insert_eq_none.mpr h]
    show (t.modify k _).rows.length ≤ _
    rw [length_modify]
    omega
  · rw [upsert_rows h]
    simp

theorem get?_of_delete {p : κ → ρ → Bool} (h : (t.delete p).get? k = some r) : t.get? k = some r := by
  rw [get?_delete] at h
  exact (Option.filter_eq_some_iff.mp h).1

end

end Table

import Sparkplane.Table

/-!
# Semaphores by key

A pool keeps one semaphore for each key. A semaphore that is dropped from the pool lives on in the
handles that were given out, with the permits taken through them. `KeyedPool.Sound` says that no key has
two semaphores in use; then the permits of a key are bounded by the capacity of one.
-/

/-- `slots` are the semaphores that are given out now, with the maximum each was made for;
`capacities` are all semaphores ever made, by number. -/
structure KeyedPool (κ : Type) where
  slots : Table κ (Nat × Nat) := .empty
  capacities : List Nat := []
  handles : List (κ × Nat) := []
  permits : List (κ × Nat) := []

namespace KeyedPool

variable {m n : Nat}

variable {κ : Type} [DecidableEq κ]

def create (p : KeyedPool κ) (k : κ) (maximum : Nat) : KeyedPool κ :=
  { p with
    slots := p.slots.upsert k (maximum, p.capacities.length)
    capacities := p.capacities ++ [maximum] }

def creates (p : KeyedPool κ) (k : κ) (maximum : Nat) : Bool := (p.slots.get? k).all (·.1 ≠ maximum)

/-- The semaphore of the key; one for another maximum is replaced. -/
def slot (p : KeyedPool κ) (k : κ) (maximum : Nat) : Nat × KeyedPool κ :=
  match p.slots.get? k with
  | some (m, n) => if m ≠ maximum then (p.capacities.length, p.create k maximum) else (n, p)
  | none => (p.capacities.length, p.create k maximum)

def lookup (p : KeyedPool κ) (k : κ) (maximum : Nat) : KeyedPool κ :=
  let (n, p) := p.slot k maximum
  { p with handles := (k, n) :: p.handles }

def retain (p : KeyedPool κ) (keep : κ → Bool) : KeyedPool κ := { p with slots := p.slots.delete fun k _ => !keep k }

def taken (p : KeyedPool κ) (n : Nat) : Nat := p.permits.countP fun h => h.2 = n

/-- A permit through a handle, if its semaphore has one left. -/
def acquire (p : KeyedPool κ) (h : κ × Nat) : Option (KeyedPool κ) :=
  if h ∈ p.handles ∧ p.taken h.2 < p.capacities.getD h.2 0 then some { p with permits := h :: p.permits } else none

def release (p : KeyedPool κ) (h : κ × Nat) : KeyedPool κ := { p with permits := p.permits.erase h }

def forget (p : KeyedPool κ) (h : κ × Nat) : KeyedPool κ := { p with handles := p.handles.erase h }

def live (p : KeyedPool κ) (k : κ) : Nat := p.permits.countP fun h => h.1 = k

def uses (p : KeyedPool κ) : List (κ × Nat) := p.handles ++ p.permits

def idle (p : KeyedPool κ) (k : κ) : Bool := p.uses.all fun h => h.1 ≠ k

structure Sound (limit : κ → Nat → Prop) (p : KeyedPool κ) : Prop where
  bounded : ∀ n, p.taken n ≤ p.capacities.getD n 0
  single : ∀ h ∈ p.uses, ∀ h' ∈ p.uses, h.1 = h'.1 → h.2 = h'.2
  current : ∀ h ∈ p.uses, ∀ e, p.slots.get? h.1 = some e → e.2 = h.2
  made : ∀ k e, p.slots.get? k = some e → p.capacities[e.2]? = some e.1
  limited : ∀ h ∈ p.uses, ∃ m, p.capacities[h.2]? = some m ∧ limit h.1 m

namespace Sound

variable {limit : κ → Nat → Prop} {p : KeyedPool κ}

theorem empty : Sound limit ({} : KeyedPool κ) :=
  ⟨fun _ => Nat.le_refl 0, nofun, nofun, nofun, nofun⟩

theorem mono {limit' : κ → Nat → Prop} (hl : ∀ k m, limit k m → limit' k m) (h : Sound limit p) :
    Sound limit' p where
  bounded := h.bounded
  single := h.single
  current := h.current
  made := h.made
  limited x hx := by
    obtain ⟨m, hm, hlimit⟩ := h.limited x hx
    exact ⟨m, hm, hl _ _ hlimit⟩

theorem shrink {p' : KeyedPool κ} (h : Sound limit p) (hcap : p'.capacities = p.capacities)
    (huses : ∀ x ∈ p'.uses, x ∈ p.uses) (htaken : ∀ n, p'.taken n ≤ p.taken n)
    (hslots : ∀ k e, p'.slots.get? k = some e → p.slots.get? k = some e) : Sound limit p' where
  bounded n := by rw [hcap]; exact Nat.le_trans (htaken n) (h.bounded n)
  single x hx x' hx' := h.single x (huses x hx) x' (huses x' hx')
  current x hx e he := h.current x (huses x hx) e (hslots _ _ he)
  made k e he := by rw [hcap]; exact h.made k e (hslots k e he)
  limited x hx := by rw [hcap]; exact h.limited x (huses x hx)

theorem retain (h : Sound limit p) (keep : κ → Bool) : Sound limit (p.retain keep) := by
  refine h.shrink rfl (fun _ hx => hx) (fun _ => Nat.le_refl _) fun k e he => ?_
  have he : (p.slots.delete fun k _ => !keep k).get? k = some e := he
  rw [Table.get?_delete] at he
  exact (Option.filter_eq_some_iff.mp he).1

theorem release (h : Sound limit p) (x : κ × Nat) : Sound limit (p.release x) := by
  refine h.shrink rfl (fun y hy => ?_) (fun n => List.erase_sublist.countP_le) fun _ _ he => he
  rcases List.mem_append.mp hy with hy | hy
  · exact List.mem_append_left _ hy
  · exact List.mem_append_right _ (List.mem_of_mem_erase hy)

theorem forget (h : Sound limit p) (x : κ × Nat) : Sound limit (p.forget x) := by
  refine h.shrink rfl (fun y hy => ?_) (fun n => Nat.le_refl _) fun _ _ he => he
  rcases List.mem_append.mp hy with hy | hy
  · exact List.mem_append_left _ (List.mem_of_mem_erase hy)
  · exact List.mem_append_right _ hy

theorem acquire (h : Sound limit p) {x : κ × Nat} {p' : KeyedPool κ} (hp : p.acquire x = some p') : Sound limit p' := by
  unfold KeyedPool.acquire at hp
  split at hp
  · rename_i hx
    cases hp
    have huses : ∀ y ∈ p.handles ++ x :: p.permits, y ∈ p.uses := fun y hy => by
      rcases List.mem_append.mp hy with hy | hy
      · exact List.mem_append_left _ hy
      · rcases List.mem_cons.mp hy with rfl | hy
        · exact List.mem_append_left _ hx.1
        · exact List.mem_append_right _ hy
    refine ⟨fun n => ?_, fun y hy y' hy' => h.single y (huses y hy) y' (huses y' hy'),
      fun y hy => h.current y (huses y hy), h.made, fun y hy => h.limited y (huses y hy)⟩
    show (x :: p.permits).countP _ ≤ _
    rw [List.countP_cons]
    by_cases e : x.2 = n
    · subst e
      rw [if_pos (decide_eq_true rfl)]
      exact hx.2
    · rw [if_neg (by simpa using e)]
      exact h.bounded n
  · cases hp

theorem lookup_same (h : Sound limit p) {k : κ} (hslot : p.slots.get? k = some (m, n))
    (hlimit : limit k m) : Sound limit { p with handles := (k, n) :: p.handles } := by
  have hcur : ∀ y ∈ p.uses, y.1 = k → y.2 = n := fun y hy e =>
    (h.current y hy (m, n) (e ▸ hslot)).symm
  have hcases : ∀ y ∈ (k, n) :: p.handles ++ p.permits, y = (k, n) ∨ y ∈ p.uses := fun y hy =>
    List.mem_cons.mp hy
  refine ⟨h.bounded, fun y hy y' hy' e => ?_, fun y hy e he => ?_, h.made, fun y hy => ?_⟩
  · rcases hcases y hy with rfl | hy <;> rcases hcases y' hy' with rfl | hy'
    · rfl
    · exact (hcur y' hy' e.symm).symm
    · exact hcur y hy e
    · exact h.single y hy y' hy' e
  · rcases hcases y hy with rfl | hy
    · cases hslot.symm.trans he
      rfl
    · exact h.current y hy e he
  · rcases hcases y hy with rfl | hy
    · exact ⟨m, h.made k (m, n) hslot, hlimit⟩
    · exact h.limited y hy

theorem getD_append_lt {l : List Nat} (hn : n < l.length) : (l ++ [m]).getD n 0 = l.getD n 0 := by
  rw [List.getD_eq_getElem?_getD, List.getD_eq_getElem?_getD, List.getElem?_append_left hn]

theorem lookup_new (h : Sound limit p) {k : κ} (hidle : p.idle k = true) (hlimit : limit k m) :
    Sound limit { p.create k m with handles := (k, p.capacities.length) :: p.handles } := by
  have hne : ∀ y ∈ p.uses, y.1 ≠ k := fun y hy => of_decide_eq_true (List.all_eq_true.mp hidle y hy)
  have hlt : ∀ {n c : Nat}, p.capacities[n]? = some c → (p.capacities ++ [m])[n]? = some c := fun hc =>
    List.getElem?_append_left (List.getElem?_eq_some_iff.mp hc).1 ▸ hc
  have hcases : ∀ y ∈ (k, p.capacities.length) :: p.handles ++ p.permits,
      y = (k, p.capacities.length) ∨ y ∈ p.uses := fun y hy => List.mem_cons.mp hy
  have hget : ∀ k', (p.slots.upsert k (m, p.capacities.length)).get? k' =
      if k' = k then some (m, p.capacities.length) else p.slots.get? k' := fun k' => Table.get?_upsert _ _ _ _
  refine ⟨fun n => ?_, fun y hy y' hy' e => ?_, fun y hy e he => ?_, fun k' e he => ?_, fun y hy => ?_⟩
  · show p.taken n ≤ (p.capacities ++ [m]).getD n 0
    have hb := h.bounded n
    by_cases hn : n < p.capacities.length
    · rw [getD_append_lt hn]
      exact hb
    · rw [List.getD_eq_getElem?_getD, List.getElem?_eq_none (Nat.le_of_not_lt hn)] at hb
      exact Nat.le_trans hb (Nat.zero_le _)
  · rcases hcases y hy with rfl | hy <;> rcases hcases y' hy' with rfl | hy'
    · rfl
    · exact absurd e.symm (hne y' hy')
    · exact absurd e (hne y hy)
    · exact h.single y hy y' hy' e
  · have he := (hget y.1).symm.trans he
    rcases hcases y hy with rfl | hy
    · rw [if_pos rfl] at he
      cases he
      rfl
    · rw [if_neg (hne y hy)] at he
      exact h.current y hy e he
  · have he := (hget k').symm.trans he
    show (p.capacities ++ [m])[e.2]? = some e.1
    by_cases ek : k' = k
    · rw [if_pos ek] at he
      cases he
      exact List.getElem?_concat_length
    · rw [if_neg ek] at he
      exact hlt (h.made k' e he)
  · rcases hcases y hy with rfl | hy
    · exact ⟨m, List.getElem?_concat_length, hlimit⟩
    · obtain ⟨c, hc, hl⟩ := h.limited y hy
      exact ⟨c, hlt hc, hl⟩

theorem lookup (h : Sound limit p) {k : κ} (hidle : p.creates k m = true → p.idle k = true)
    (hlimit : limit k m) : Sound limit (p.lookup k m) := by
  unfold KeyedPool.creates at hidle
  unfold KeyedPool.lookup KeyedPool.slot
  cases hslot : p.slots.get? k with
  | none =>
    rw [hslot] at hidle
    exact h.lookup_new (hidle rfl) hlimit
  | some e =>
    obtain ⟨m', n⟩ := e
    rw [hslot] at hidle
    dsimp only
    by_cases hm : m' = m
    · subst hm
      rw [if_neg (not_not_intro rfl)]
      exact h.lookup_same hslot hlimit
    · rw [if_pos hm]
      exact h.lookup_new (hidle (decide_eq_true hm)) hlimit

theorem live_le (h : Sound limit p) {k : κ} (hm : ∀ c, limit k c → c = m) : p.live k ≤ m := by
  by_cases hk : ∃ x ∈ p.permits, x.1 = k
  · obtain ⟨x, hx, rfl⟩ := hk
    obtain ⟨c, hc, hl⟩ := h.limited x (List.mem_append_right _ hx)
    cases hm c hl
    have hone : p.live x.1 ≤ p.taken x.2 := by
      refine List.countP_mono_left fun y hy e => decide_eq_true ?_
      exact h.single y (List.mem_append_right _ hy) x (List.mem_append_right _ hx) (of_decide_eq_true e)
    have hcap := h.bounded x.2
    rw [List.getD_eq_getElem?_getD, hc] at hcap
    exact Nat.le_trans hone hcap
  · have hnone : p.live k = 0 := List.countP_eq_zero.mpr fun x hx e => hk ⟨x, hx, of_decide_eq_true e⟩
    omega

end Sound

end KeyedPool

import Mathlib.Data.List.Basic

/-!
# Matching paths by segments

A router that takes the segments of a path one by one. A pattern has literal segments, parameters,
which take one segment that is not empty, and at its end a parameter for the rest of the path. Where
several patterns match, the one that is literal at the first segment where they differ is taken, and
a parameter before the rest of the path.
-/

namespace Routing

inductive Seg where
  | lit (text : List Char)
  | param
  | rest
  deriving DecidableEq

def segments (path : String) : List (List Char) := path.toList.splitOn '/'

def Seg.parse (s : List Char) : Seg :=
  if ['{', '*'].isPrefixOf s then .rest else if ['{'].isPrefixOf s then .param else .lit s

/-- A pattern as it is written, with `{name}` and `{*name}` for the parameters. -/
def parse (pattern : String) : List Seg := (segments pattern).map Seg.parse

def admits : List Seg → List (List Char) → Bool
  | [], [] => true
  | .lit s :: p, t :: ts => s = t && admits p ts
  | .param :: p, t :: ts => !t.isEmpty && admits p ts
  | .rest :: _, ts => ts ≠ [] && ts ≠ [[]]
  | _, _ => false

def Seg.rank : Seg → Nat
  | .lit _ => 0
  | .param => 1
  | .rest => 2

def rank (p : List Seg) : List Nat := p.map Seg.rank

structure Route (ε : Type) where
  pattern : List Seg
  endpoint : ε

section
variable {ε : Type} {path : String}

/-- The route of the better pattern; the older one if neither is. -/
def prefer (best : Option (Route ε)) (r : Route ε) : Option (Route ε) :=
  match best with
  | none => some r
  | some b => if rank r.pattern < rank b.pattern then some r else some b

def resolve (table : List (Route ε)) (path : String) : Option ε :=
  ((table.filter fun r => admits r.pattern (segments path)).foldl prefer none).map Route.endpoint

theorem foldl_prefer_mem : ∀ (l : List (Route ε)) (best : Option (Route ε)) {r : Route ε},
    l.foldl prefer best = some r → r ∈ l ∨ best = some r
  | [], _, _, h => .inr h
  | a :: l, best, r, h => by
    rcases foldl_prefer_mem l (prefer best a) h with hr | hr
    · exact .inl (List.mem_cons_of_mem _ hr)
    · cases best with
      | none =>
        cases hr
        exact .inl List.mem_cons_self
      | some b =>
        simp only [prefer] at hr
        split at hr
        · cases hr
          exact .inl List.mem_cons_self
        · exact .inr hr

theorem resolve_mem {table : List (Route ε)} {e : ε} (h : resolve table path = some e) :
    ∃ r ∈ table, admits r.pattern (segments path) = true ∧ r.endpoint = e := by
  obtain ⟨r, hr, rfl⟩ := Option.map_eq_some_iff.mp h
  rcases foldl_prefer_mem _ _ hr with hmem | hnone
  · exact ⟨r, (List.mem_filter.mp hmem).1, (List.mem_filter.mp hmem).2, rfl⟩
  · cases hnone

end

/-! ## What a path that matches looks like -/

section
variable {α : Type}

theorem sep_notMem_splitOn [BEq α] [LawfulBEq α] (a : α) : ∀ (l : List α), ∀ s ∈ l.splitOn a, a ∉ s
  | [], s, hs => by
    rw [List.splitOn_nil, List.mem_singleton] at hs
    exact hs ▸ List.not_mem_nil
  | x :: xs, s, hs => by
    have ih := sep_notMem_splitOn a xs
    rw [List.splitOn_cons_eq_if_modifyHead] at hs
    split at hs
    · rcases List.mem_cons.mp hs with rfl | hs
      · exact List.not_mem_nil
      · exact ih s hs
    · next hne =>
      have hx : a ≠ x := fun h => hne (by rw [h, beq_self_eq_true])
      cases hsplit : xs.splitOn a with
      | nil => exact absurd hsplit (List.splitOn_ne_nil a xs)
      | cons first others =>
        rw [hsplit] at hs ih
        rcases List.mem_cons.mp hs with rfl | hs
        · exact List.not_mem_cons_of_ne_of_not_mem hx (ih first List.mem_cons_self)
        · exact ih s (List.mem_cons_of_mem _ hs)

theorem eq_of_suffix_after [DecidableEq α] {a : α} {u v l : List α} (hu : a ∉ u) (hv : a ∉ v)
    (h : a :: u <:+ l ++ a :: v) : u = v := by
  have hlast : ∀ x w : List α, a ∉ w → (x ++ a :: w).reverse.takeWhile (· ≠ a) = w.reverse := by
    intro x w hw
    rw [List.reverse_append, List.reverse_cons, List.append_assoc,
      List.takeWhile_append_of_pos (fun c hc => by
        have : c ≠ a := fun he => hw (he ▸ List.mem_reverse.mp hc)
        simpa using this)]
    simp
  obtain ⟨x, hx⟩ := h
  have hback := hlast x u hu
  rw [hx, hlast l v hv] at hback
  exact (List.reverse_injective hback).symm

theorem intercalate_append_cons (a : α) (ss : List (List α)) (t : List α) (zs : List (List α)) :
    [a].intercalate (ss ++ t :: zs) = ss.flatMap (· ++ [a]) ++ t ++ zs.flatMap (a :: ·) := by
  induction ss with
  | nil =>
    induction zs generalizing t with
    | nil => simp [List.intercalate]
    | cons z zs ih =>
      have := ih z
      simp only [List.intercalate, List.nil_append, List.flatMap_nil] at this
      simp [List.intercalate, this]
  | cons s ss ih =>
    obtain ⟨u, us, hu⟩ := List.exists_cons_of_ne_nil (l := ss ++ t :: zs) (by simp)
    simp only [List.intercalate, hu] at ih
    simp [List.intercalate, hu, ih]

end

variable {path : String} {p : List Seg} {ts ss zs : List (List Char)}

theorem admits_lit {s : List Char} (h : admits (.lit s :: p) ts = true) : ∃ us, ts = s :: us ∧ admits p us = true := by
  cases ts with
  | nil => cases h
  | cons t us =>
    simp only [admits, Bool.and_eq_true, decide_eq_true_eq] at h
    exact ⟨us, h.1 ▸ rfl, h.2⟩

theorem admits_param (h : admits (.param :: p) ts = true) : ∃ t us, ts = t :: us ∧ admits p us = true := by
  cases ts with
  | nil => cases h
  | cons t us =>
    simp only [admits, Bool.and_eq_true] at h
    exact ⟨t, us, rfl, h.2⟩

theorem admits_nil (h : admits [] ts = true) : ts = [] := by
  cases ts with
  | nil => rfl
  | cons t us => cases h

theorem admits_lits : ∀ {ss : List (List Char)} {ts : List (List Char)}, admits (ss.map .lit) ts = true → ts = ss
  | [], _, h => admits_nil h
  | s :: ss, ts, h => by
    obtain ⟨us, rfl, hus⟩ := admits_lit h
    rw [admits_lits hus]

theorem admits_one (h : admits (ss.map .lit ++ .param :: zs.map .lit) ts = true) : ∃ t, ts = ss ++ t :: zs := by
  induction ss generalizing ts with
  | nil =>
    obtain ⟨t, us, rfl, hus⟩ := admits_param h
    exact ⟨t, by rw [admits_lits hus]; rfl⟩
  | cons s ss ih =>
    obtain ⟨us, rfl, hus⟩ := admits_lit h
    obtain ⟨t, rfl⟩ := ih hus
    exact ⟨t, rfl⟩

theorem eq_of_segments {path' : String} (h : segments path = segments path') : path = path' := by
  refine String.toList_inj.mp ?_
  exact (List.intercalate_splitOn '/').symm.trans ((congrArg _ h).trans (List.intercalate_splitOn '/'))

theorem eq_of_admits_one (h : admits (ss.map .lit ++ .param :: zs.map .lit) (segments path) = true) :
    ∃ t, '/' ∉ t ∧ path.toList = ss.flatMap (· ++ ['/']) ++ t ++ zs.flatMap ('/' :: ·) := by
  obtain ⟨t, ht⟩ := admits_one h
  refine ⟨t, sep_notMem_splitOn '/' path.toList t ?_, ?_⟩
  · rw [show path.toList.splitOn '/' = ss ++ t :: zs from ht]
    exact List.mem_append_right _ List.mem_cons_self
  · rw [← intercalate_append_cons, ← ht]
    exact (List.intercalate_splitOn '/').symm

end Routing

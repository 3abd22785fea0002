import Sparkplane.SharedSnapshotSound

/-!
# Cache directories

`repository_cache_name` writes `--` for the slash, and owners and names may
themselves have dashes.
-/

namespace Sparkplane

/-- Dashes at the end of one owner stand at the start of the other's name. -/
def Shifts (owner name owner' name' : List Char) : Prop :=
  (owner' = owner ++ ['-'] ∧ name = '-' :: name') ∨
    ∃ middle, owner' = owner ++ '-' :: '-' :: middle ∧ name = middle ++ '-' :: '-' :: name'

def ownerOf (repository : String) : List Char := repository.toList.takeWhile (· ≠ '/')

def nameOf (repository : String) : List Char := (repository.toList.dropWhile (· ≠ '/')).tail

def Shifted (r r' : String) : Prop := Shifts (ownerOf r) (nameOf r) (ownerOf r') (nameOf r')

theorem shifts_of_longer {o n o' n' t : List Char} (ho : o' = o ++ t) (ht : '-' :: '-' :: n = t ++ '-' :: '-' :: n') :
    (o = o' ∧ n = n') ∨ Shifts o n o' n' := by
  cases t with
  | nil => simp_all
  | cons a t =>
    cases t with
    | nil =>
      simp only [List.cons_append, List.nil_append, List.cons.injEq] at ht
      exact .inr (.inl ⟨by rw [ho, ← ht.1], ht.2.2⟩)
    | cons b t =>
      simp only [List.cons_append, List.cons.injEq] at ht
      exact .inr (.inr ⟨t, by rw [ho, ← ht.1, ← ht.2.1], ht.2.2⟩)

theorem joined_iff {o n o' n' : List Char} : o ++ '-' :: '-' :: n = o' ++ '-' :: '-' :: n' ↔
    (o = o' ∧ n = n') ∨ Shifts o n o' n' ∨ Shifts o' n' o n := by
  constructor
  · intro h
    rcases List.append_eq_append_iff.mp h with ⟨t, ho, ht⟩ | ⟨t, ho, ht⟩
    · exact (shifts_of_longer ho ht).imp_right .inl
    · rcases shifts_of_longer ho ht with h | h
      · exact .inl ⟨h.1.symm, h.2.symm⟩
      · exact .inr (.inr h)
  · intro h
    rcases h with ⟨rfl, rfl⟩ | (⟨rfl, rfl⟩ | ⟨m, rfl, rfl⟩) | (⟨rfl, rfl⟩ | ⟨m, rfl, rfl⟩) <;> simp

theorem validComponent_plain {l : List Char} (h : validComponent l = true) : ∀ c ∈ l, c ≠ '/' := by
  intro c hc hslash
  simp only [validComponent, Bool.and_eq_true, List.all_eq_true] at h
  have := h.2 c hc
  subst hslash
  revert this
  decide

section
variable {r r' : String}

theorem toList_of_parse (h : parseRepository r = true) : r.toList = ownerOf r ++ '/' :: nameOf r ∧
    repositoryCacheName r = "models--" ++ String.ofList (ownerOf r ++ '-' :: '-' :: nameOf r) := by
  unfold parseRepository at h
  split at h
  · rename_i o n hsplit
    simp only [Bool.and_eq_true] at h
    have ho := validComponent_plain h.1
    have hn := validComponent_plain h.2
    have hr : r.toList = o ++ '/' :: n := by
      have hjoin : ['/'].intercalate (r.toList.splitOn '/') = r.toList := List.intercalate_splitOn '/'
      rw [← hjoin, hsplit]
      simp
    have howner : ownerOf r = o := by
      rw [ownerOf, hr, List.takeWhile_append_of_pos (by simpa using ho)]
      simp
    have hname : nameOf r = n := by
      rw [nameOf, hr, List.dropWhile_append_of_pos (by simpa using ho)]
      simp
    have hkeep : ∀ l : List Char, (∀ c ∈ l, c ≠ '/') → l.flatMap (fun c => if c = '/' then ['-', '-'] else [c]) = l := by
      intro l hl
      induction l with
      | nil => rfl
      | cons c l ih => simp [hl c, ih fun c hc => hl c (.tail _ hc)]
    refine ⟨by rw [hr, howner, hname], ?_⟩
    rw [repositoryCacheName, hr, howner, hname, List.flatMap_append, hkeep o ho, List.flatMap_cons, hkeep n hn]
    simp
  · cases h

theorem cacheName_eq_iff (h : parseRepository r = true) (h' : parseRepository r' = true) :
    repositoryCacheName r = repositoryCacheName r' ↔ r = r' ∨ Shifted r r' ∨ Shifted r' r := by
  obtain ⟨hr, hname⟩ := toList_of_parse h
  obtain ⟨hr', hname'⟩ := toList_of_parse h'
  have hsame : r = r' ↔ ownerOf r = ownerOf r' ∧ nameOf r = nameOf r' := by
    constructor
    · intro he
      rw [he]
      exact ⟨rfl, rfl⟩
    · intro he
      rw [← String.toList_inj, hr, hr', he.1, he.2]
  rw [hname, hname', hsame, Shifted, Shifted, ← joined_iff, ← String.toList_inj]
  simp

/-- The directories differ, and a removal of the one leaves what is in the other. -/
structure Apart (r r' : String) : Prop where
  directories : repositoryCacheName r ≠ repositoryCacheName r'
  removal : ∀ (c : ModelCache) commit active plan io, c.planRemoval r commit active = some plan →
    (∀ commit', (c.executeRemoval plan io).2.find r' commit' = c.find r' commit') ∧
    ∀ name, (c.executeRemoval plan io).2.blob (repositoryCacheName r') name = c.blob (repositoryCacheName r') name

theorem apart_of_ne (h : repositoryCacheName r ≠ repositoryCacheName r') : Apart r r' := by
  refine ⟨h, fun c commit active plan io hplan => ?_⟩
  have hne : repositoryCacheName r' ≠ plan.directory := by
    rw [(ModelCache.planRemoval_some hplan).directory]
    exact h.symm
  refine ⟨fun commit' => ModelCache.find_executeRemoval_elsewhere ?_, fun name => ModelCache.blob_executeRemoval ?_⟩
  · exact fun he => hne he.1
  · exact fun he => absurd he hne

theorem ne_of_shifted (h : Shifted r r') : r ≠ r' := by
  intro he
  subst he
  rcases h with h | ⟨m, h, _⟩
  · simpa using h.1
  · simp at h

end

theorem repositories_apart_iff (r r' : String) (h : parseRepository r = true) (h' : parseRepository r' = true) :
    (r ≠ r' → Apart r r') ↔ ¬Shifted r r' ∧ ¬Shifted r' r := by
  have hname := cacheName_eq_iff h h'
  constructor
  · intro hapart
    refine ⟨fun hs => ?_, fun hs => ?_⟩
    · exact (hapart (ne_of_shifted hs)).directories (hname.mpr (.inr (.inl hs)))
    · exact (hapart (ne_of_shifted hs).symm).directories (hname.mpr (.inr (.inr hs)))
  · intro hs hne
    apply apart_of_ne
    intro he
    rcases hname.mp he with h | h | h
    · exact hne h
    · exact hs.1 h
    · exact hs.2 h

theorem plain_repositories_apart : parseRepository "a/b" = true ∧ parseRepository "a/c" = true ∧ Apart "a/b" "a/c" := by
  refine ⟨by decide, by decide, (repositories_apart_iff "a/b" "a/c" (by decide) (by decide)).mpr ?_ (by decide)⟩
  simp [Shifted, Shifts, ownerOf, nameOf]

/-- Removing the snapshot of `a--b/c` takes the one of `a/b--c` and its blob. -/
theorem dashed_repositories_share : parseRepository "a--b/c" = true ∧ parseRepository "a/b--c" = true ∧
    ∃ (commit : String) (c : ModelCache) (plan : RemovalPlan), parseCommit commit = true ∧
      c.planRemoval "a--b/c" commit false = some plan ∧ (c.find "a/b--c" commit).isSome = true ∧
      (c.blob (repositoryCacheName "a/b--c") "w").isSome = true ∧
      (c.executeRemoval plan none).2.find "a/b--c" commit = none ∧
      (c.executeRemoval plan none).2.blob (repositoryCacheName "a/b--c") "w" = none := by
  refine ⟨by decide, by decide, "dddddddddddddddddddddddddddddddddddddddd",
    ⟨[⟨"models--a--b--c", "dddddddddddddddddddddddddddddddddddddddd", [("model.safetensors", "w")]⟩],
      [⟨"models--a--b--c", "w", 8⟩]⟩,
    ⟨"models--a--b--c", "dddddddddddddddddddddddddddddddddddddddd", ["w"], 8⟩, ?_⟩
  decide +kernel

end Sparkplane

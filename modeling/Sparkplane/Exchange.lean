import Mathlib.Data.List.Nodup
import Mathlib.Data.List.Perm.Basic

/-!
# Calls and their answers

A row of messages, some of which make calls and some of which answer one call.
`Tracks` is the bookkeeping of the calls that wait: nothing is called twice at
a time, and only what waits is answered. Under it, answers stand next to their
calls exactly when nothing but an answer comes while a call waits.
-/

structure Exchange (M I : Type) where
  calls : M → List I
  /-- The call a message answers. -/
  answer : M → Option I

namespace Exchange

variable {M I : Type} (E : Exchange M I)

def Near (ms : List M) : Prop :=
  ∀ (front : List M) (m : M) (back : List M) (i : I), ms = front ++ m :: back → E.answer m = some i →
    ∃ front' a between, front = front' ++ a :: between ∧ E.answer a = none ∧ i ∈ E.calls a ∧
      ∀ b ∈ between, E.answer b ≠ none

def lastCalls (c : List I) : List M → List I
  | [] => c
  | m :: ms => lastCalls (if E.answer m = none then E.calls m else c) ms

inductive Follows : List I → List M → Prop
  | nil (c : List I) : Follows c []
  | answers {c : List I} {m : M} {ms : List M} {i : I} (ha : E.answer m = some i) (hi : i ∈ c) (h : Follows c ms) :
      Follows c (m :: ms)
  | calls {c : List I} {m : M} {ms : List M} (ha : E.answer m = none) (h : Follows (E.calls m) ms) :
      Follows c (m :: ms)

variable {E}

theorem follows_iff {c : List I} {ms : List M} :
    E.Follows c ms ↔ ∀ front m back i, ms = front ++ m :: back → E.answer m = some i → i ∈ E.lastCalls c front := by
  induction ms generalizing c with
  | nil => exact ⟨fun _ front m back i h => by simp at h, fun _ => .nil c⟩
  | cons a ms ih =>
    constructor
    · intro hf front m back i he ha
      cases front with
      | nil =>
        cases he
        cases hf with
        | answers ha' hi => rw [ha] at ha'; cases ha'; exact hi
        | calls ha' => rw [ha] at ha'; cases ha'
      | cons b front =>
        cases he
        cases hf with
        | answers ha' _ hf => simpa [lastCalls, ha'] using ih.mp hf front m back i rfl ha
        | calls ha' hf => simpa [lastCalls, ha'] using ih.mp hf front m back i rfl ha
    · intro h
      have hrest : ∀ front m back i, ms = front ++ m :: back → E.answer m = some i →
          i ∈ E.lastCalls (if E.answer a = none then E.calls a else c) front :=
        fun front m back i he ha => h (a :: front) m back i (by rw [he]; rfl) ha
      cases ha : E.answer a with
      | none => exact .calls ha (ih.mpr (by simpa [ha] using hrest))
      | some i => exact .answers ha (h [] a ms i rfl ha) (ih.mpr (by simpa [ha] using hrest))

theorem mem_lastCalls {i : I} {front : List M} : i ∈ E.lastCalls [] front ↔
    ∃ front' a between, front = front' ++ a :: between ∧ E.answer a = none ∧ i ∈ E.calls a ∧
      ∀ b ∈ between, E.answer b ≠ none := by
  have key : ∀ {c : List I} {front : List M}, i ∈ E.lastCalls c front ↔
      (i ∈ c ∧ ∀ b ∈ front, E.answer b ≠ none) ∨ ∃ front' a between, front = front' ++ a :: between ∧
        E.answer a = none ∧ i ∈ E.calls a ∧ ∀ b ∈ between, E.answer b ≠ none := by
    intro c front
    induction front generalizing c with
    | nil => simp [lastCalls]
    | cons m ms ih =>
      rw [lastCalls, ih]
      constructor
      · rintro (⟨hi, hb⟩ | ⟨front', a, between, rfl, h⟩)
        · by_cases hm : E.answer m = none
          · rw [if_pos hm] at hi
            exact .inr ⟨[], m, ms, rfl, hm, hi, hb⟩
          · rw [if_neg hm] at hi
            exact .inl ⟨hi, by simpa [hm] using hb⟩
        · exact .inr ⟨m :: front', a, between, rfl, h⟩
      · rintro (⟨hi, hb⟩ | ⟨front', a, between, he, ha, hi, hb⟩)
        · rw [if_neg (hb m List.mem_cons_self)]
          exact .inl ⟨hi, fun b h => hb b (List.mem_cons_of_mem _ h)⟩
        · cases front' with
          | nil =>
            cases he
            rw [if_pos ha]
            exact .inl ⟨hi, hb⟩
          | cons m' front' =>
            cases he
            exact .inr ⟨front', a, between, rfl, ha, hi, hb⟩
  simpa using @key [] front

theorem near_iff_follows {ms : List M} : E.Near ms ↔ E.Follows [] ms := by
  rw [follows_iff]
  exact ⟨fun h front m back i he ha => mem_lastCalls.mpr (h front m back i he ha),
    fun h front m back i he ha => mem_lastCalls.mp (h front m back i he ha)⟩

section
variable [DecidableEq I]

variable (E) in
inductive Tracks : List I → List M → List I → Prop
  | nil (p : List I) : Tracks p [] p
  | answers {p q : List I} {m : M} {ms : List M} {i : I} (ha : E.answer m = some i) (hc : E.calls m = [])
      (hi : i ∈ p) (h : Tracks (p.erase i) ms q) : Tracks p (m :: ms) q
  | calls {p q : List I} {m : M} {ms : List M} (ha : E.answer m = none) (hc : (p ++ E.calls m).Nodup)
      (h : Tracks (p ++ E.calls m) ms q) : Tracks p (m :: ms) q

variable (E) in
inductive Prompt : List I → List M → Prop
  | nil (p : List I) : Prompt p []
  | answers {p : List I} {m : M} {ms : List M} {i : I} (ha : E.answer m = some i) (h : Prompt (p.erase i) ms) :
      Prompt p (m :: ms)
  | calls {m : M} {ms : List M} (ha : E.answer m = none) (h : Prompt (E.calls m) ms) : Prompt [] (m :: ms)

variable {p q c : List I} {ms : List M}

theorem tracks_nil : E.Tracks p [] q ↔ q = p :=
  ⟨fun h => by cases h; rfl, fun h => by rw [h]; exact .nil p⟩

theorem tracks_cons {m : M} (ha : E.answer m = none) :
    E.Tracks p (m :: ms) q ↔ (p ++ E.calls m).Nodup ∧ E.Tracks (p ++ E.calls m) ms q := by
  constructor
  · intro h
    cases h with
    | answers ha' => rw [ha] at ha'; cases ha'
    | calls _ hc h => exact ⟨hc, h⟩
  · rintro ⟨hc, h⟩
    exact .calls ha hc h

theorem Tracks.append {r : List I} {ms' : List M} (h : E.Tracks p ms q) (h' : E.Tracks q ms' r) :
    E.Tracks p (ms ++ ms') r := by
  induction h with
  | nil p => exact h'
  | answers ha hc hi _ ih => exact .answers ha hc hi (ih h')
  | calls ha hc _ ih => exact .calls ha hc (ih h')

theorem Tracks.filter {keep : M → Bool} (h : E.Tracks p ms q)
    (hkeep : ∀ m ∈ ms, keep m = false → E.answer m = none ∧ E.calls m = []) : E.Tracks p (ms.filter keep) q := by
  induction h with
  | nil p => exact .nil p
  | @answers p q m ms i ha hc hi _ ih =>
    have ih := ih fun m' hm' => hkeep m' (List.mem_cons_of_mem _ hm')
    cases hm : keep m with
    | true => rw [List.filter_cons_of_pos hm]; exact .answers ha hc hi ih
    | false => exact absurd (hkeep m List.mem_cons_self hm).1 (by simp [ha])
  | @calls p q m ms ha hc _ ih =>
    have ih := ih fun m' hm' => hkeep m' (List.mem_cons_of_mem _ hm')
    cases hm : keep m with
    | true => rw [List.filter_cons_of_pos hm]; exact .calls ha hc ih
    | false =>
      rw [List.filter_cons_of_neg (by simp [hm])]
      simpa [(hkeep m List.mem_cons_self hm).2] using ih

theorem Tracks.nodup (h : E.Tracks p ms q) (hp : p.Nodup) : q.Nodup := by
  induction h with
  | nil p => exact hp
  | answers _ _ _ _ ih => exact ih (hp.erase _)
  | calls _ hc _ ih => exact ih hc

theorem prompt_cons {m : M} (ha : E.answer m = none) : E.Prompt p (m :: ms) ↔ p = [] ∧ E.Prompt (E.calls m) ms := by
  constructor
  · intro h
    cases h with
    | answers ha' => rw [ha] at ha'; cases ha'
    | calls _ h => exact ⟨rfl, h⟩
  · rintro ⟨rfl, h⟩
    exact .calls ha h

theorem Tracks.prompt_append {rest : List M} (h : E.Tracks p ms q) (hms : ∀ m ∈ ms, E.answer m ≠ none) :
    E.Prompt p (ms ++ rest) ↔ E.Prompt q rest := by
  induction h with
  | nil p => exact Iff.rfl
  | @answers p q m ms i ha _ _ _ ih =>
    rw [← ih fun m' hm' => hms m' (List.mem_cons_of_mem _ hm')]
    constructor
    · intro h
      cases h with
      | answers ha' h => rw [ha] at ha'; cases ha'; exact h
      | calls ha' => rw [ha] at ha'; cases ha'
    · exact .answers ha
  | calls ha => exact absurd ha (hms _ List.mem_cons_self)

section
variable {lead : List M} (hlead : ∀ m ∈ lead, E.answer m = none ∧ E.calls m = [])
include hlead

theorem tracks_lead {p : List I} (hp : p.Nodup) : E.Tracks p lead p := by
  induction lead with
  | nil => exact .nil p
  | cons m lead ih =>
    obtain ⟨ha, hc⟩ := hlead m List.mem_cons_self
    rw [tracks_cons ha, hc, List.append_nil]
    exact ⟨hp, ih fun m' hm' => hlead m' (List.mem_cons_of_mem _ hm')⟩

theorem prompt_lead {rest : List M} : E.Prompt [] (lead ++ rest) ↔ E.Prompt [] rest := by
  induction lead with
  | nil => exact Iff.rfl
  | cons m lead ih =>
    obtain ⟨ha, hc⟩ := hlead m List.mem_cons_self
    rw [List.cons_append, prompt_cons ha, hc, ih fun m' hm' => hlead m' (List.mem_cons_of_mem _ hm')]
    simp

end

theorem Tracks.perm (h : E.Tracks p ms []) : (p ++ ms.flatMap E.calls).Perm (ms.filterMap E.answer) := by
  generalize hq : ([] : List I) = q at h
  induction h with
  | nil p => subst hq; exact .refl _
  | @answers p q m ms i ha hc hi _ ih =>
    rw [List.filterMap_cons_some ha, List.flatMap_cons, hc, List.nil_append]
    exact ((List.perm_cons_erase hi).append_right _).trans ((ih hq).cons i)
  | @calls p q m ms ha hc _ ih =>
    rw [List.filterMap_cons_none ha, List.flatMap_cons, ← List.append_assoc]
    exact ih hq

theorem Tracks.not_follows (h : E.Tracks p ms []) {i : I} (hi : i ∈ p) (hc : i ∉ c) : ¬ E.Follows c ms := by
  generalize hq : ([] : List I) = q at h
  induction h generalizing c with
  | nil p => subst hq; cases hi
  | @answers p q m ms j ha _ _ _ ih =>
    intro hf
    cases hf with
    | answers ha' hj hf =>
      rw [ha] at ha'
      cases ha'
      have hne : i ≠ j := fun e => hc (e ▸ hj)
      exact ih ((List.mem_erase_of_ne hne).mpr hi) hc hq hf
    | calls ha' => rw [ha] at ha'; cases ha'
  | @calls p q m ms ha hn _ ih =>
    intro hf
    cases hf with
    | answers ha' => rw [ha] at ha'; cases ha'
    | calls _ hf =>
      have hm : i ∉ E.calls m := fun hm => (List.nodup_append.mp hn).2.2 i hi i hm rfl
      exact ih (List.mem_append_left _ hi) hm hq hf

theorem Tracks.prompt (h : E.Tracks p ms []) (hf : E.Follows c ms) : E.Prompt p ms := by
  generalize hq : ([] : List I) = q at h
  induction h generalizing c with
  | nil p => exact .nil p
  | answers ha _ _ _ ih =>
    cases hf with
    | answers _ _ hf => exact .answers ha (ih hf hq)
    | calls ha' => rw [ha] at ha'; cases ha'
  | @calls p q m ms ha hn h ih =>
    cases hf with
    | answers ha' => rw [ha] at ha'; cases ha'
    | calls _ hf =>
      have hp : p = [] := by
        by_contra hne
        obtain ⟨i, hi⟩ := List.exists_mem_of_ne_nil p hne
        have hm : i ∉ E.calls m := fun hm => (List.nodup_append.mp hn).2.2 i hi i hm rfl
        subst hq
        exact h.not_follows (List.mem_append_left _ hi) hm hf
      subst hp
      exact .calls ha (ih hf hq)

theorem Tracks.follows (h : E.Tracks p ms q) (hp : E.Prompt p ms) (hc : p ⊆ c) : E.Follows c ms := by
  induction h generalizing c with
  | nil p => exact .nil c
  | answers ha _ hi _ ih =>
    cases hp with
    | answers ha' hp =>
      rw [ha] at ha'
      cases ha'
      exact .answers ha (hc hi) (ih hp fun j hj => hc (List.mem_of_mem_erase hj))
    | calls ha' => rw [ha] at ha'; cases ha'
  | calls ha _ _ ih =>
    cases hp with
    | answers ha' => rw [ha] at ha'; cases ha'
    | calls _ hp => exact .calls ha (ih hp (List.Subset.refl _))

theorem Tracks.near_iff (h : E.Tracks [] ms []) : E.Near ms ↔ E.Prompt [] ms :=
  near_iff_follows.trans ⟨h.prompt, fun hp => h.follows hp (List.Subset.refl _)⟩

end

end Exchange

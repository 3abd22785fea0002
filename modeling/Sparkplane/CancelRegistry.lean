import Sparkplane.Table

/-!
# The cancellation registry

`CancelRegistry` maps a request id to the token of its last registration, and a
guard removes the entry when it is dropped if the entry's epoch is its own. The
epoch is counted from the entry that is there, so it starts again at 0 once the
entry is gone, whatever guards are still held. `cancel_reaches_iff` says for
which sequences of calls that does no harm.
-/

namespace Sparkplane

abbrev Ulid := BitVec 128

structure RegEntry where
  token : Nat
  epoch : UInt64

structure CancelGuard where
  id : Ulid
  epoch : UInt64
  token : Nat
  deriving DecidableEq

/-- The registry with the guards held on it. Tokens are numbered as they are
created; `latest` has the token of the last registration of each id. -/
structure CancelRegistry where
  inner : Table Ulid RegEntry := .empty
  guards : List CancelGuard := []
  tokens : Nat := 0
  cancelled : List Nat := []
  latest : Table Ulid Nat := .empty

namespace CancelRegistry

/-- `wrapping_add` of the current entry's epoch. -/
def nextEpoch (s : CancelRegistry) (id : Ulid) : UInt64 :=
  ((s.inner.get? id).map fun e => e.epoch + 1).getD 0

def register (s : CancelRegistry) (id : Ulid) : CancelRegistry where
  inner := s.inner.upsert id ⟨s.tokens, s.nextEpoch id⟩
  guards := s.guards ++ [⟨id, s.nextEpoch id, s.tokens⟩]
  tokens := s.tokens + 1
  cancelled := s.cancelled
  latest := s.latest.upsert id s.tokens

def cancel (s : CancelRegistry) (id : Ulid) : Bool × CancelRegistry :=
  match s.inner.get? id with
  | some e => (true, { s with cancelled := e.token :: s.cancelled })
  | none => (false, s)

def drop (s : CancelRegistry) (token : Nat) : CancelRegistry :=
  match s.guards.find? fun g => g.token = token with
  | none => s
  | some g => { s with
    guards := s.guards.filter fun g' => g'.token ≠ token
    inner := if (s.inner.get? g.id).any (·.epoch = g.epoch) then s.inner.delete fun k _ => k = g.id
      else s.inner }

inductive Call where
  | register (id : Ulid)
  | drop (token : Nat)
  | cancel (id : Ulid)

def step (s : CancelRegistry) : Call → CancelRegistry
  | .register id => s.register id
  | .drop token => s.drop token
  | .cancel id => (s.cancel id).2

def run (s : CancelRegistry) (calls : List Call) : CancelRegistry := calls.foldl step s

/-- Cancellation reaches the last registration while its guard is held. -/
structure Reaches (s : CancelRegistry) : Prop where
  live : ∀ g ∈ s.guards, s.latest.get? g.id = some g.token →
    s.cancel g.id = (true, { s with cancelled := g.token :: s.cancelled })
  older : ∀ g ∈ s.guards, s.latest.get? g.id ≠ some g.token →
    (s.drop g.token).inner.get? g.id = s.inner.get? g.id
  unheld : ∀ id, (∀ g ∈ s.guards, g.id ≠ id) → s.cancel id = (false, s)

/-- A registration does not get the epoch of a guard of the same id that is still held. -/
def unclaimed (s : CancelRegistry) : Call → Bool
  | .register id => s.guards.all fun g => !(g.id = id && g.epoch = s.nextEpoch id)
  | _ => true

def eachUnclaimed : CancelRegistry → List Call → Bool
  | _, [] => true
  | s, c :: rest => s.unclaimed c && eachUnclaimed (s.step c) rest

/-! ## What holds in every run -/

structure Owned (s : CancelRegistry) : Prop where
  fresh : ∀ g ∈ s.guards, g.token < s.tokens
  known : ∀ id token, s.latest.get? id = some token → token < s.tokens
  tokens : ∀ g ∈ s.guards, ∀ g' ∈ s.guards, g.token = g'.token → g = g'
  owner : ∀ id e, s.inner.get? id = some e → ∃ g ∈ s.guards, g.id = id ∧
    s.latest.get? id = some g.token ∧ e = ⟨g.token, g.epoch⟩

variable {s s' : CancelRegistry} {g : CancelGuard} {id : Ulid} {c : Call}

theorem Owned.find (h : Owned s) (hg : g ∈ s.guards) : s.guards.find? (fun g' => g'.token = g.token) = some g := by
  cases hf : s.guards.find? (fun g' => g'.token = g.token) with
  | none => exact absurd (List.find?_eq_none.mp hf g hg) (by simp)
  | some g' =>
    have ht : g'.token = g.token := by simpa using List.find?_some hf
    rw [h.tokens g' (List.mem_of_find?_eq_some hf) g hg ht]

theorem Owned.drop_eq (h : Owned s) (hg : g ∈ s.guards) : s.drop g.token = { s with
    guards := s.guards.filter fun g' => g'.token ≠ g.token
    inner := if (s.inner.get? g.id).any (·.epoch = g.epoch) then s.inner.delete fun k _ => k = g.id
      else s.inner } := by
  rw [drop, h.find hg]

theorem drop_cases (s : CancelRegistry) (token : Nat) : s.drop token = s ∨ ∃ g ∈ s.guards, g.token = token := by
  unfold drop
  cases hf : s.guards.find? (fun g => g.token = token) with
  | none => exact .inl rfl
  | some g => exact .inr ⟨g, List.mem_of_find?_eq_some hf, by simpa using List.find?_some hf⟩

theorem Owned.drop_inner (h : Owned s) (hg : g ∈ s.guards) (id : Ulid) : (s.drop g.token).inner.get? id =
      if id = g.id ∧ (s.inner.get? g.id).any (·.epoch = g.epoch) = true then none else s.inner.get? id := by
  rw [h.drop_eq hg]
  dsimp only
  by_cases hm : (s.inner.get? g.id).any (·.epoch = g.epoch) = true
  · rw [if_pos hm, Table.get?_delete]
    by_cases e : id = g.id
    · subst e
      rw [if_pos ⟨rfl, hm⟩]
      cases s.inner.get? g.id <;> simp
    · rw [if_neg fun h => e h.1]
      cases s.inner.get? id <;> simp [e]
  · rw [if_neg hm, if_neg fun h => hm h.2]

theorem Owned.drop_guards (h : Owned s) (hg : g ∈ s.guards) (g' : CancelGuard) :
    g' ∈ (s.drop g.token).guards ↔ g' ∈ s.guards ∧ g' ≠ g := by
  rw [h.drop_eq hg]
  simp only [List.mem_filter, decide_eq_true_eq]
  exact and_congr_right fun hg' => not_congr ⟨h.tokens g' hg' g hg, fun e => e ▸ rfl⟩

theorem Owned.drop_rest (h : Owned s) (hg : g ∈ s.guards) :
    (s.drop g.token).tokens = s.tokens ∧ (s.drop g.token).latest = s.latest := by
  rw [h.drop_eq hg]
  exact ⟨rfl, rfl⟩

theorem register_inner (s : CancelRegistry) (id k : Ulid) : (s.register id).inner.get? k =
    if k = id then some ⟨s.tokens, s.nextEpoch id⟩ else s.inner.get? k :=
  Table.get?_upsert s.inner id _ k

theorem register_latest (s : CancelRegistry) (id k : Ulid) : (s.register id).latest.get? k =
    if k = id then some s.tokens else s.latest.get? k :=
  Table.get?_upsert s.latest id _ k

theorem mem_register : g ∈ (s.register id).guards ↔ g ∈ s.guards ∨ g = ⟨id, s.nextEpoch id, s.tokens⟩ := by
  simp [register]

theorem cancel_same (s : CancelRegistry) (id : Ulid) :
    (s.cancel id).2.inner = s.inner ∧ (s.cancel id).2.guards = s.guards ∧
      (s.cancel id).2.tokens = s.tokens ∧ (s.cancel id).2.latest = s.latest := by
  unfold cancel
  split <;> exact ⟨rfl, rfl, rfl, rfl⟩

theorem Owned.register (h : Owned s) (id : Ulid) : Owned (s.register id) := by
  refine ⟨fun g hg => ?_, fun k token hk => ?_, fun g hg g' hg' e => ?_, fun k e hk => ?_⟩
  · rcases mem_register.mp hg with hg | rfl
    · exact Nat.lt_succ_of_lt (h.fresh g hg)
    · exact Nat.lt_succ_self _
  · rw [register_latest] at hk
    split at hk
    · cases hk
      exact Nat.lt_succ_self _
    · exact Nat.lt_succ_of_lt (h.known k token hk)
  · rcases mem_register.mp hg with hg | rfl <;> rcases mem_register.mp hg' with hg' | rfl
    · exact h.tokens g hg g' hg' e
    · exact absurd e (Nat.ne_of_lt (h.fresh g hg))
    · exact absurd e.symm (Nat.ne_of_lt (h.fresh g' hg'))
    · rfl
  · rw [register_inner] at hk
    rw [register_latest]
    by_cases e' : k = id
    · rw [if_pos e'] at hk ⊢
      cases hk
      exact ⟨_, mem_register.mpr (.inr rfl), e'.symm, rfl, rfl⟩
    · rw [if_neg e'] at hk ⊢
      obtain ⟨g, hg, hrest⟩ := h.owner k e hk
      exact ⟨g, mem_register.mpr (.inl hg), hrest⟩

theorem Owned.drop (h : Owned s) (token : Nat) : Owned (s.drop token) := by
  rcases drop_cases s token with hsame | ⟨g, hg, rfl⟩
  · rwa [hsame]
  have hguards := h.drop_guards hg
  obtain ⟨ht, hl⟩ := h.drop_rest hg
  refine ⟨fun g' hg' => ?_, fun k token hk => ?_, fun a ha b hb e => ?_, fun k e hk => ?_⟩
  · rw [ht]
    exact h.fresh g' ((hguards g').mp hg').1
  · rw [hl] at hk
    rw [ht]
    exact h.known k token hk
  · exact h.tokens a ((hguards a).mp ha).1 b ((hguards b).mp hb).1 e
  · rw [h.drop_inner hg] at hk
    split at hk
    · cases hk
    · rename_i hkeep
      obtain ⟨g', hg', hid, hlast, rfl⟩ := h.owner k e hk
      refine ⟨g', (hguards g').mpr ⟨hg', fun e => hkeep ?_⟩, hid, hl ▸ hlast, rfl⟩
      -- the guard that is dropped owns the entry, so its epoch matches
      subst e
      subst hid
      exact ⟨rfl, by rw [hk]; simp⟩

theorem Owned.congr (h : Owned s) (hi : s'.inner = s.inner) (hg : s'.guards = s.guards)
    (ht : s'.tokens = s.tokens) (hl : s'.latest = s.latest) : Owned s' :=
  ⟨by rw [hg, ht]; exact h.fresh, by rw [hl, ht]; exact h.known, by rw [hg]; exact h.tokens,
    by rw [hi, hg, hl]; exact h.owner⟩

theorem Owned.step (h : Owned s) (c : Call) : Owned (s.step c) := by
  cases c with
  | register id => exact h.register id
  | drop token => exact h.drop token
  | cancel id =>
    obtain ⟨hi, hg, ht, hl⟩ := cancel_same s id
    exact h.congr hi hg ht hl

theorem owned_empty : Owned {} := ⟨nofun, nofun, nofun, nofun⟩

/-! ## What holds while no epoch is claimed twice -/

structure Distinct (s : CancelRegistry) : Prop extends Owned s where
  epochs : ∀ g ∈ s.guards, ∀ g' ∈ s.guards, g.id = g'.id → g.epoch = g'.epoch → g = g'
  kept : ∀ g ∈ s.guards, s.latest.get? g.id = some g.token → s.inner.get? g.id = some ⟨g.token, g.epoch⟩

theorem distinct_empty : Distinct {} := ⟨owned_empty, nofun, nofun⟩

theorem Distinct.register (h : Distinct s) (hu : s.unclaimed (.register id) = true) : Distinct (s.register id) := by
  have hother : ∀ g ∈ s.guards, g.id = id → g.epoch ≠ s.nextEpoch id := fun g hg hid he => by
    simpa [hid, he] using List.all_eq_true.mp hu g hg
  refine ⟨h.toOwned.register id, fun g hg g' hg' hid he => ?_, fun g hg hl => ?_⟩
  · rcases mem_register.mp hg with hg | rfl <;> rcases mem_register.mp hg' with hg' | rfl
    · exact h.epochs g hg g' hg' hid he
    · exact absurd he (hother g hg hid)
    · exact absurd he.symm (hother g' hg' hid.symm)
    · rfl
  · rw [register_inner]
    rw [register_latest] at hl
    by_cases e : g.id = id
    · rw [if_pos e] at hl ⊢
      rcases mem_register.mp hg with hg | rfl
      · exact absurd (Option.some.inj hl).symm (Nat.ne_of_lt (h.fresh g hg))
      · rfl
    · rw [if_neg e] at hl ⊢
      rcases mem_register.mp hg with hg | rfl
      · exact h.kept g hg hl
      · exact absurd rfl e

theorem Distinct.drop_older (h : Distinct s) (hg : g ∈ s.guards)
    (hold : s.latest.get? g.id ≠ some g.token) : (s.inner.get? g.id).any (·.epoch = g.epoch) = false := by
  cases he : s.inner.get? g.id with
  | none => rfl
  | some e =>
    obtain ⟨g', hg', hid, hl, rfl⟩ := h.owner g.id e he
    refine decide_eq_false fun hsame => hold ?_
    rwa [h.epochs g' hg' g hg hid hsame] at hl

theorem Distinct.drop (h : Distinct s) (token : Nat) : Distinct (s.drop token) := by
  have howned := h.toOwned.drop token
  rcases drop_cases s token with hsame | ⟨g, hg, rfl⟩
  · rwa [hsame]
  have hguards := h.toOwned.drop_guards hg
  refine ⟨howned, fun a ha b hb => ?_, fun g' hg' hl => ?_⟩
  · exact h.epochs a ((hguards a).mp ha).1 b ((hguards b).mp hb).1
  · obtain ⟨hg', hne⟩ := (hguards g').mp hg'
    rw [(h.toOwned.drop_rest hg).2] at hl
    rw [h.toOwned.drop_inner hg, if_neg, h.kept g' hg' hl]
    rintro ⟨hid, hmatch⟩
    refine hne (h.tokens g' hg' g hg ?_)
    by_contra hold
    have hold : s.latest.get? g.id ≠ some g.token := by
      rw [← hid, hl]
      exact fun e => hold (Option.some.inj e)
    rw [h.drop_older hg hold] at hmatch
    cases hmatch

theorem Distinct.congr (h : Distinct s) (hi : s'.inner = s.inner)
    (hg : s'.guards = s.guards) (ht : s'.tokens = s.tokens) (hl : s'.latest = s.latest) : Distinct s' :=
  ⟨h.toOwned.congr hi hg ht hl, by rw [hg]; exact h.epochs, by rw [hg, hl, hi]; exact h.kept⟩

theorem Distinct.step (h : Distinct s) (hu : s.unclaimed c = true) : Distinct (s.step c) := by
  cases c with
  | register id => exact h.register hu
  | drop token => exact h.drop token
  | cancel id =>
    obtain ⟨hi, hg, ht, hl⟩ := cancel_same s id
    exact h.congr hi hg ht hl

theorem Distinct.reaches (h : Distinct s) : Reaches s := by
  refine ⟨fun g hg hl => ?_, fun g hg hold => ?_, fun id hid => ?_⟩
  · rw [cancel, h.kept g hg hl]
  · rw [h.toOwned.drop_inner hg, h.drop_older hg hold, if_neg (by simp)]
  · cases he : s.inner.get? id with
    | none => rw [cancel, he]
    | some e =>
      obtain ⟨g, hg, hgid, _⟩ := h.owner id e he
      exact absurd hgid (hid g hg)

theorem Distinct.run : ∀ (calls : List Call) {s : CancelRegistry}, Distinct s →
    s.eachUnclaimed calls = true → Distinct (s.run calls)
  | [], _, h, _ => h
  | c :: rest, s, h, hu => by
    have hu : (s.unclaimed c && (s.step c).eachUnclaimed rest) = true := hu
    rw [Bool.and_eq_true] at hu
    exact Distinct.run rest (h.step hu.1) hu.2

theorem eachUnclaimed_prefix : ∀ {p calls : List Call} {s : CancelRegistry}, p <+: calls →
    s.eachUnclaimed calls = true → s.eachUnclaimed p = true
  | [], _, _, _, _ => rfl
  | c :: p, [], _, hp, _ => by cases List.prefix_nil.mp hp
  | c :: p, c' :: calls, s, hp, hu => by
    obtain ⟨rfl, hp'⟩ := List.cons_prefix_cons.mp hp
    have hu : (s.unclaimed c && (s.step c).eachUnclaimed calls) = true := hu
    rw [Bool.and_eq_true] at hu
    show (s.unclaimed c && (s.step c).eachUnclaimed p) = true
    rw [hu.1, eachUnclaimed_prefix hp' hu.2]
    rfl

theorem Owned.unclaimed (h : Owned s) (hr : Reaches (s.step c)) : s.unclaimed c = true := by
  cases c with
  | drop token => rfl
  | cancel id => rfl
  | register id =>
    refine List.all_eq_true.mpr fun g hg => ?_
    by_contra hclaimed
    simp only [Bool.not_eq_true', Bool.not_eq_false, Bool.and_eq_true, decide_eq_true_eq] at hclaimed
    obtain ⟨rfl, he⟩ := hclaimed
    have hg' : g ∈ (s.register g.id).guards := mem_register.mpr (.inl hg)
    have hold : (s.register g.id).latest.get? g.id ≠ some g.token := by
      rw [register_latest, if_pos rfl]
      exact fun e => Nat.ne_of_lt (h.fresh g hg) (Option.some.inj e).symm
    have hkeep := hr.older g hg' hold
    have hinner : (s.register g.id).inner.get? g.id = some ⟨s.tokens, g.epoch⟩ := by
      rw [register_inner, if_pos rfl, he]
    have hgone := (h.register g.id).drop_inner hg' g.id
    rw [if_pos ⟨rfl, by rw [hinner]; simp⟩] at hgone
    cases hgone.symm.trans (hkeep.trans hinner)

theorem unclaimed_of_reaches : ∀ (calls : List Call) {s : CancelRegistry}, Owned s →
    (∀ p, p <+: calls → Reaches (s.run p)) → s.eachUnclaimed calls = true
  | [], _, _, _ => rfl
  | c :: rest, s, h, hr => by
    have hfirst := h.unclaimed (hr [c] (List.prefix_append [c] rest))
    have hrest := unclaimed_of_reaches rest (h.step c) fun p hp => hr (c :: p) (List.cons_prefix_cons.mpr ⟨rfl, hp⟩)
    show (s.unclaimed c && (s.step c).eachUnclaimed rest) = true
    rw [hfirst, hrest]
    rfl

end CancelRegistry

theorem cancel_reaches_iff (calls : List CancelRegistry.Call) :
    (∀ p, p <+: calls → CancelRegistry.Reaches (CancelRegistry.run {} p)) ↔
      CancelRegistry.eachUnclaimed {} calls = true := by
  refine ⟨CancelRegistry.unclaimed_of_reaches calls CancelRegistry.owned_empty, fun hu p hp => ?_⟩
  exact (CancelRegistry.distinct_empty.run p (CancelRegistry.eachUnclaimed_prefix hp hu)).reaches

/-- The second of two guards goes first, and the third gets the epoch of the first. -/
theorem older_drop_silences_newer :
    let s := CancelRegistry.run {} [.register 1, .register 1, .drop 1, .register 1, .drop 0]
    s.guards = [⟨1, 0, 2⟩] ∧ s.latest.get? 1 = some 2 ∧ (s.cancel 1).1 = false := by
  decide +kernel

end Sparkplane

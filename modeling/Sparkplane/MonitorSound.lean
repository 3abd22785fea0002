import Sparkplane.Monitor

/-!
# Whom the emergency guard reaches

The victim is always the highest in rank of the starting engines that have not
been stopped, and only a stop that succeeds takes an engine out of the choice.
`guard_reaches_iff`: an engine's turn comes exactly when, at a sample that calls
for a victim, nobody above it is left. An engine whose container has exited can
not be stopped, so it stays the choice of every sample (`exited_engine_shields`).
-/

namespace Sparkplane

open ResourceMonitor hiding new
open EmergencyGuard hiding new

variable {d : EmergencyDecision} {rivals : List (String × Nat)}

section
variable {α κ : Type} [LinearOrder κ] {key : α → κ}

theorem le_laterMax (best y : α) : key best ≤ key (laterMax key best y) ∧ key y ≤ key (laterMax key best y) := by
  unfold laterMax
  split
  · next h => exact ⟨le_rfl, h.le⟩
  · next h => exact ⟨not_lt.mp h, le_rfl⟩

theorem foldl_laterMax : ∀ (xs : List α) (x : α), xs.foldl (laterMax key) x ∈ x :: xs ∧
    ∀ y ∈ x :: xs, key y ≤ key (xs.foldl (laterMax key) x)
  | [], x => ⟨List.mem_cons_self, fun y hy => (List.mem_singleton.mp hy) ▸ le_rfl⟩
  | y :: ys, x => by
    rw [List.foldl_cons]
    obtain ⟨hmem, hall⟩ := foldl_laterMax ys (laterMax key x y)
    have htop := hall _ List.mem_cons_self
    refine ⟨?_, fun z hz => ?_⟩
    · rcases List.mem_cons.mp hmem with h | h
      · rw [h, laterMax]
        split <;> simp
      · exact List.mem_cons_of_mem _ (List.mem_cons_of_mem _ h)
    · rcases List.mem_cons.mp hz with rfl | hz
      · exact (le_laterMax z y).1.trans htop
      · rcases List.mem_cons.mp hz with rfl | hz
        · exact (le_laterMax x z).2.trans htop
        · exact hall z (List.mem_cons_of_mem _ hz)

theorem maxByKey_spec {l : List α} {m : α} (h : maxByKey key l = some m) : m ∈ l ∧ ∀ x ∈ l, key x ≤ key m := by
  cases l with
  | nil => cases h
  | cons x xs =>
    cases h
    exact foldl_laterMax xs x

variable (key) in
theorem maxByKey_isSome {l : List α} {x : α} (h : x ∈ l) : ∃ m, maxByKey key l = some m := by
  cases l with
  | nil => cases h
  | cons y ys => exact ⟨_, rfl⟩

end

/-! ## The rank of an engine -/

def rankOf (k : String × Nat) : Nat ×ₗ String := toLex (k.2, k.1)

theorem rankOf_injective {k k' : String × Nat} (h : rankOf k = rankOf k') : k = k' := by
  have h' : (k.2, k.1) = (k'.2, k'.1) := toLex.injective h
  exact Prod.ext (Prod.mk.inj h').2 (Prod.mk.inj h').1

def EmergencyDecision.key (d : EmergencyDecision) : String × Nat := (d.instanceId, d.generation)

def ResourceMonitor.Candidate (m : ResourceMonitor) (e : ManagedEngine) : Prop :=
  e ∈ m.managed ∧ e.phase.transitional = true ∧ e.key ∉ m.guard.suppressed

def ResourceMonitor.Clear (m : ResourceMonitor) (k : String × Nat) : Prop :=
  ∀ e, m.Candidate e → ¬ rankOf k < rankOf e.key

def ResourceMonitor.Sequenced (m : ResourceMonitor) : Prop := ∀ e ∈ m.managed, e.startedSequence = e.generation

section
variable {m : ResourceMonitor} {k : String × Nat} {victim e : ManagedEngine}

theorem mem_candidates : e ∈ (m.managed.filter fun e => !m.guard.suppressed.contains e.key).filter
    (fun e => e.phase.transitional) ↔ m.Candidate e := by
  simp only [List.mem_filter, ResourceMonitor.Candidate, List.contains_eq_mem, Bool.not_eq_true',
    decide_eq_false_iff_not]
  exact ⟨fun ⟨⟨h1, h2⟩, h3⟩ => ⟨h1, h3, h2⟩, fun ⟨h1, h2, h3⟩ => ⟨⟨h1, h3⟩, h2⟩⟩

theorem ResourceMonitor.Sequenced.rank (hseq : m.Sequenced) (he : e ∈ m.managed) : e.rank = rankOf e.key := by
  show toLex (e.startedSequence, e.instanceId) = toLex (e.generation, e.instanceId)
  rw [hseq e he]

theorem selectVictim_candidate (hseq : m.Sequenced) (he : m.Candidate e) :
    ∃ victim, selectVictim m.managed m.guard.suppressed = some victim ∧ m.Candidate victim ∧
      ∀ e, m.Candidate e → rankOf e.key ≤ rankOf victim.key := by
  obtain ⟨victim, hvictim⟩ := maxByKey_isSome ManagedEngine.rank (mem_candidates.mpr he)
  obtain ⟨hmem, hall⟩ := maxByKey_spec hvictim
  have hcandidate := mem_candidates.mp hmem
  refine ⟨victim, ?_, hcandidate, fun e he => ?_⟩
  · show (maxByKey ManagedEngine.rank _).or _ = some victim
    rw [hvictim, Option.some_or]
  · have hle := hall e (mem_candidates.mpr he)
    rwa [hseq.rank he.1, hseq.rank hcandidate.1] at hle

theorem selectVictim_clear (hseq : m.Sequenced) (h : selectVictim m.managed m.guard.suppressed = some victim) :
    m.Clear victim.key := by
  intro e he hlt
  obtain ⟨top, htop, -, hall⟩ := selectVictim_candidate hseq he
  obtain rfl := Option.some.inj (htop.symm.trans h)
  exact absurd (hall e he) (not_le.mpr hlt)

theorem selectVictim_mem {engines : List ManagedEngine} {suppressed : List (String × Nat)}
    (h : selectVictim engines suppressed = some victim) : victim ∈ engines ∧ victim.key ∉ suppressed := by
  have hlive : victim ∈ engines.filter fun e => !suppressed.contains e.key := by
    rcases Option.or_eq_some_iff.mp h with h | ⟨-, h⟩
    · exact (List.mem_filter.mp (maxByKey_spec h).1).1
    · exact (List.mem_filter.mp (maxByKey_spec h).1).1
  simpa using List.mem_filter.mp hlive

end

/-! ## A sample -/

namespace EmergencyGuard

def due (g : EmergencyGuard) (s : HostResourceSnapshot) : Bool :=
  match s.memAvailableBytes, s.memoryFullPsiAvg10Percent with
  | some available, some psi =>
    g.psiBreach psi || g.policy.emergencyConsecutiveSamples ≤ g.breaches available
  | _, _ => false

def breached (g : EmergencyGuard) (s : HostResourceSnapshot) : Bool :=
  s.isComplete && match s.memAvailableBytes, s.memoryFullPsiAvg10Percent with
  | some available, some psi => g.psiBreach psi || g.belowFloor available
  | _, _ => false

variable {g : EmergencyGuard} {s : HostResourceSnapshot} (engines : List ManagedEngine)

theorem observe_suppressed : (g.observe s engines).2.suppressed = g.suppressed := by
  unfold observe
  split
  · dsimp only
    split <;> rfl
  · rfl

theorem observe_policy : (g.observe s engines).2.policy = g.policy := by
  unfold observe
  split
  · dsimp only
    split <;> rfl
  · rfl

variable (g s) in
theorem observe_key : (g.observe s engines).1.map EmergencyDecision.key =
    if g.due s then (selectVictim engines g.suppressed).map ManagedEngine.key else none := by
  unfold observe due
  cases s.memAvailableBytes with
  | none => rfl
  | some available =>
  cases s.memoryFullPsiAvg10Percent with
  | none => rfl
  | some psi =>
    dsimp only
    have hnot : (!g.psiBreach psi && decide (g.breaches available < g.policy.emergencyConsecutiveSamples)) =
        !(g.psiBreach psi || decide (g.policy.emergencyConsecutiveSamples ≤ g.breaches available)) := by
      rw [Bool.not_or, ← decide_not]
      simp only [not_le]
    by_cases h : (g.psiBreach psi || decide (g.policy.emergencyConsecutiveSamples ≤ g.breaches available)) = true
    · rw [if_neg (by rw [hnot, h]; exact Bool.false_ne_true), if_pos h]
      exact Option.map_map ..
    · rw [if_pos (by rw [hnot, Bool.eq_false_iff.mpr h]; rfl), if_neg h]
      rfl

theorem observe_counts (hbreached : g.breached s = true) (hdue : g.due s = false)
    (hu32 : g.policy.emergencyConsecutiveSamples < 2 ^ 32) :
    (g.observe s engines).2.consecutiveFloorBreaches = g.consecutiveFloorBreaches + 1 ∧
      g.consecutiveFloorBreaches + 1 < g.policy.emergencyConsecutiveSamples := by
  unfold breached at hbreached
  unfold due at hdue
  unfold observe
  split
  · next available psi ha hp =>
    rw [ha, hp] at hbreached hdue
    simp only [Bool.or_eq_false_iff, decide_eq_false_iff_not, not_le] at hdue
    simp only [hdue.1, Bool.false_or, Bool.and_eq_true] at hbreached
    dsimp only
    rw [if_pos (by simp [hdue.1, hdue.2])]
    show g.breaches available = _ ∧ _
    have hlt := hdue.2
    unfold breaches at hlt ⊢
    rw [if_pos hbreached.2] at hlt ⊢
    omega
  · next hnone =>
    exfalso
    split at hbreached
    · next ha hp => exact hnone _ _ ha hp
    · simp at hbreached

theorem observe_some {engines : List ManagedEngine} {d : EmergencyDecision} (h : (g.observe s engines).1 = some d) :
    (∃ e ∈ engines, e.key = d.key) ∧ d.key ∉ g.suppressed ∧ d.cause.isEmpty = false := by
  unfold observe at h
  split at h
  · dsimp only at h
    split at h
    · cases h
    · obtain ⟨victim, hvictim, rfl⟩ := Option.map_eq_some_iff.mp h
      obtain ⟨hmem, hlive⟩ := selectVictim_mem hvictim
      refine ⟨⟨victim, hmem, rfl⟩, hlive, ?_⟩
      dsimp only
      split <;> decide
  · cases h

end EmergencyGuard

namespace ResourceMonitor

variable {m : ResourceMonitor} (memory : String → Option Nat) {k : String × Nat} {e : ManagedEngine}

variable {memory} in
theorem mem_refresh (h : e ∈ (m.refreshManagedMemory memory).managed) :
    ∃ e0 ∈ m.managed, e0.key = e.key ∧ e0.phase = e.phase ∧ e0.startedSequence = e.startedSequence := by
  obtain ⟨e0, he0, rfl⟩ := List.mem_map.mp h
  refine ⟨e0, he0, ?_⟩
  split <;> exact ⟨rfl, rfl, rfl⟩

theorem refresh_mem (h : e ∈ m.managed) :
    ∃ e' ∈ (m.refreshManagedMemory memory).managed, e'.key = e.key ∧ e'.phase = e.phase := by
  refine ⟨_, List.mem_map.mpr ⟨e, h, rfl⟩, ?_⟩
  split <;> exact ⟨rfl, rfl⟩

theorem Sequenced.refresh (h : m.Sequenced) : (m.refreshManagedMemory memory).Sequenced := by
  intro e he
  obtain ⟨e0, he0, hkey, -, hseq⟩ := mem_refresh he
  rw [← hseq, h e0 he0]
  exact (Prod.mk.inj hkey).2

theorem Candidate.refresh (h : m.Candidate e) :
    ∃ e', (m.refreshManagedMemory memory).Candidate e' ∧ e'.key = e.key := by
  obtain ⟨e', he', hkey, hphase⟩ := refresh_mem memory h.1
  exact ⟨e', ⟨he', hphase ▸ h.2.1, hkey ▸ h.2.2⟩, hkey⟩

variable {memory} in
theorem Candidate.of_refresh (h : (m.refreshManagedMemory memory).Candidate e) :
    ∃ e0, m.Candidate e0 ∧ e0.key = e.key := by
  obtain ⟨e0, he0, hkey, hphase, -⟩ := mem_refresh h.1
  exact ⟨e0, ⟨he0, hphase ▸ h.2.1, hkey ▸ h.2.2⟩, hkey⟩

theorem clear_refresh : (m.refreshManagedMemory memory).Clear k ↔ m.Clear k := by
  constructor
  · intro h e he
    obtain ⟨e', he', hkey⟩ := Candidate.refresh memory he
    exact hkey ▸ h e' he'
  · intro h e he
    obtain ⟨e0, he0, hkey⟩ := Candidate.of_refresh he
    exact hkey ▸ h e0 he0

section
variable {s : HostResourceSnapshot} (eventId : String)

theorem sampleOnce_done (hs : s.isComplete = true) : ∃ latest journal, m.sampleOnce memory (some s) eventId .done =
      { m.refreshManagedMemory memory with
        latest, journal
        guard := (m.guard.observe s (m.refreshManagedMemory memory).managed).2
        pendingEmergency := (m.guard.observe s (m.refreshManagedMemory memory).managed).1.or m.pendingEmergency } := by
  unfold sampleOnce
  rw [Option.filter_some, if_pos hs]
  dsimp only
  rw [show (m.refreshManagedMemory memory).guard = m.guard from rfl]
  cases (m.guard.observe s (m.refreshManagedMemory memory).managed).1 with
  | none => exact ⟨_, _, rfl⟩
  | some decision => exact ⟨_, _, rfl⟩

structure Sampled (m : ResourceMonitor) (s : HostResourceSnapshot) (m' : ResourceMonitor) : Prop where
  suppressed : m'.guard.suppressed = m.guard.suppressed
  policy : m'.guard.policy = m.guard.policy
  counts : m.guard.breached s = true → m.guard.due s = false →
    m.guard.policy.emergencyConsecutiveSamples < 2 ^ 32 →
    m'.guard.consecutiveFloorBreaches = m.guard.consecutiveFloorBreaches + 1 ∧
      m.guard.consecutiveFloorBreaches + 1 < m.guard.policy.emergencyConsecutiveSamples
  idle : m.guard.due s = false → m'.pendingEmergency = none
  takes : ∀ e, m.guard.due s = true → m.Candidate e → ∃ d c, m'.pendingEmergency = some d ∧ m.Candidate c ∧
    c.key = d.key ∧ ∀ e, m.Candidate e → rankOf e.key ≤ rankOf d.key
  taken : ∀ d, m'.pendingEmergency = some d → m.guard.due s = true ∧ m.Clear d.key

theorem sampleOnce_sampled (hs : s.isComplete = true) (hseq : m.Sequenced) (hpending : m.pendingEmergency = none) :
    m.Sampled s (m.sampleOnce memory (some s) eventId .done) := by
  obtain ⟨latest, journal, heq⟩ := sampleOnce_done (m := m) memory eventId hs
  rw [heq, hpending]
  have hkey := m.guard.observe_key s (m.refreshManagedMemory memory).managed
  refine ⟨observe_suppressed _, observe_policy _, observe_counts _,
    fun hdue => ?_, fun e hdue he => ?_, fun d hd => ?_⟩
  · rw [if_neg (Bool.eq_false_iff.mp hdue), Option.map_eq_none_iff] at hkey
    show Option.or _ _ = none
    rw [hkey]
    rfl
  · obtain ⟨e', he', -⟩ := Candidate.refresh memory he
    obtain ⟨victim, hvictim, hcandidate, hall⟩ := selectVictim_candidate (hseq.refresh memory) he'
    rw [if_pos hdue] at hkey
    rw [show m.guard.suppressed = (m.refreshManagedMemory memory).guard.suppressed from rfl, hvictim] at hkey
    obtain ⟨d, hd, hdkey⟩ := Option.map_eq_some_iff.mp hkey
    obtain ⟨c, hc, hckey⟩ := hcandidate.of_refresh
    refine ⟨d, c, ?_, hc, hckey.trans hdkey.symm, fun e he => ?_⟩
    · show Option.or _ _ = some d
      rw [hd, Option.some_or]
    · obtain ⟨e', he', hekey⟩ := Candidate.refresh memory he
      rw [← hekey, hdkey]
      exact hall e' he'
  · have hd' : (m.guard.observe s (m.refreshManagedMemory memory).managed).1 = some d :=
      (Option.or_none ..).symm.trans hd
    rw [hd'] at hkey
    by_cases hdue : m.guard.due s = true
    · rw [if_pos hdue] at hkey
      obtain ⟨victim, hvictim, hvkey⟩ := Option.map_eq_some_iff.mp hkey.symm
      refine ⟨hdue, (clear_refresh memory).mp (hvkey ▸ selectVictim_clear (hseq.refresh memory) hvictim)⟩
    · rw [if_neg hdue] at hkey
      cases hkey

end

end ResourceMonitor

/-! ## The loop among the handlers -/

/-- An endless run of the executor: `s k` is the state before event `k`, and the loop always goes on. -/
structure Sampler.Run (policy : ResourcePolicy) (σ : Nat → SamplerEvent) (s : Nat → Sampler) : Prop where
  init : ∃ journal, s 0 = start policy journal
  next : ∀ k, s (k + 1) = (s k).step (σ k)
  goes_on : ∀ k, ∃ j ≥ k, ∃ a, σ j = .loop a

structure Sampler.Tidy (s : Sampler) : Prop where
  sequenced : s.monitor.Sequenced
  idle : s.loop ≠ .taking → s.monitor.pendingEmergency = none

structure Sampler.Aside (s s' : Sampler) : Prop where
  loop : s'.loop = s.loop
  guard : s'.monitor.guard = s.monitor.guard
  pending : s'.monitor.pendingEmergency = s.monitor.pendingEmergency

namespace ResourceMonitor

variable {m : ResourceMonitor}

theorem Sequenced.observeEngine (h : m.Sequenced) (memory : String → Option Nat) (observed : InspectedEngine)
    (phase : EnginePhase) : (m.observeEngine memory observed phase).Sequenced := by
  refine Sequenced.refresh memory fun e he => ?_
  rcases List.mem_append.mp he with he | he
  · exact h e (List.mem_filter.mp he).1
  · rw [List.mem_singleton.mp he]

theorem Sequenced.forgetEngine (h : m.Sequenced) (instanceId : String) (generation : Nat) :
    (m.forgetEngine instanceId generation).Sequenced :=
  fun e he => h e (List.mem_filter.mp he).1

theorem sampleOnce_keeps (memory : String → Option Nat) (sample : Option HostResourceSnapshot) (eventId : String)
    (append : Appended) :
    (m.sampleOnce memory sample eventId append).managed = (m.refreshManagedMemory memory).managed ∧
    (m.sampleOnce memory sample eventId append).guard.policy = m.guard.policy ∧
    (m.sampleOnce memory sample eventId append).guard.suppressed = m.guard.suppressed ∧
    (m.sampleOnce memory sample eventId append).identities = m.identities := by
  unfold sampleOnce
  dsimp only
  split
  · exact ⟨rfl, rfl, rfl, rfl⟩
  · split
    · exact ⟨rfl, observe_policy _, observe_suppressed _, rfl⟩
    · cases append <;> exact ⟨rfl, observe_policy _, observe_suppressed _, rfl⟩

/-- A record is of an engine that is managed and not suppressed. -/
theorem sampleOnce_records (m : ResourceMonitor) (memory : String → Option Nat) (sample : Option HostResourceSnapshot)
    (eventId : String) (append : Appended) :
    ((m.sampleOnce memory sample eventId append).journal = m.journal ∧
      (m.sampleOnce memory sample eventId append).pendingEmergency = m.pendingEmergency) ∨
    ∃ d, (∃ e ∈ m.managed, e.key = d.key) ∧ d.key ∉ m.guard.suppressed ∧ d.cause.isEmpty = false ∧
      (m.sampleOnce memory sample eventId append).journal = m.journal ++ [.fromDecision eventId d] ∧
      (append ≠ .unsynced → (m.sampleOnce memory sample eventId append).pendingEmergency = some d) := by
  unfold sampleOnce
  dsimp only
  split
  · exact .inl ⟨rfl, rfl⟩
  · split
    · exact .inl ⟨rfl, rfl⟩
    · next d hd =>
      obtain ⟨⟨e, he, hkey⟩, hlive, hcause⟩ := observe_some hd
      obtain ⟨e₀, he₀, hkey₀, -⟩ := mem_refresh he
      have hmanaged : ∃ e ∈ m.managed, e.key = d.key := ⟨e₀, he₀, hkey₀.trans hkey⟩
      cases append with
      | done => exact .inr ⟨d, hmanaged, hlive, hcause, rfl, fun _ => rfl⟩
      | unsynced => exact .inr ⟨d, hmanaged, hlive, hcause, rfl, fun h => absurd rfl h⟩
      | failed => exact .inl ⟨rfl, rfl⟩

end ResourceMonitor

namespace Sampler

variable {s : Sampler}

theorem step_managed {ev : SamplerEvent} {e : ManagedEngine} (h : e ∈ (s.step ev).monitor.managed) :
    (∃ e0 ∈ s.monitor.managed, e0.key = e.key) ∨
    ∃ memory observed phase, ev = .observe memory observed phase ∧ e.key = (observed.instanceId, observed.generation) := by
  cases ev with
  | observe memory observed phase =>
    obtain ⟨e0, he0, hkey, -⟩ := mem_refresh h
    rcases List.mem_append.mp he0 with he0 | he0
    · exact .inl ⟨e0, (List.mem_filter.mp he0).1, hkey⟩
    · rw [← hkey, List.mem_singleton.mp he0]
      exact .inr ⟨memory, observed, phase, rfl, rfl⟩
  | forget instanceId generation => exact .inl ⟨e, (List.mem_filter.mp h).1, rfl⟩
  | loop a =>
    left
    simp only [step] at h
    split at h
    · rw [(sampleOnce_keeps ..).1] at h
      obtain ⟨e0, he0, hkey, -⟩ := mem_refresh h
      exact ⟨e0, he0, hkey⟩
    all_goals split at h <;> exact ⟨e, h, rfl⟩

theorem step_policy (s : Sampler) (ev : SamplerEvent) : (s.step ev).monitor.guard.policy = s.monitor.guard.policy := by
  cases ev with
  | observe => rfl
  | forget => rfl
  | loop a =>
    simp only [step]
    split
    · exact (sampleOnce_keeps ..).2.1
    · split <;> rfl
    · split <;> rfl
    · split <;> rfl

theorem Tidy.step (h : s.Tidy) (ev : SamplerEvent) : (s.step ev).Tidy := by
  cases ev with
  | observe memory observed phase => exact ⟨h.sequenced.observeEngine memory observed phase, h.idle⟩
  | forget instanceId generation => exact ⟨h.sequenced.forgetEngine instanceId generation, h.idle⟩
  | loop a =>
    obtain ⟨monitor, loop⟩ := s
    cases loop with
    | sampling =>
      refine ⟨?_, fun hne => absurd rfl hne⟩
      show ∀ e ∈ (monitor.sampleOnce a.memory a.sample a.eventId a.append).managed, _
      rw [(sampleOnce_keeps ..).1]
      exact Sequenced.refresh a.memory h.sequenced
    | taking =>
      simp only [Sampler.step]
      split
      · rename_i hp
        exact ⟨h.sequenced, fun _ => hp⟩
      · exact ⟨h.sequenced, fun _ => rfl⟩
    | actuating decision =>
      have hp := h.idle fun hs => by cases hs
      simp only [Sampler.step]
      split
      · exact ⟨h.sequenced, fun _ => hp⟩
      · exact ⟨h.sequenced, fun _ => hp⟩
    | disabling decision expected =>
      have hp := h.idle fun hs => by cases hs
      show Tidy (if actuated a decision expected = true then ⟨monitor.suppress decision, .sampling⟩
        else ⟨monitor, .sampling⟩)
      split
      · exact ⟨h.sequenced, fun _ => hp⟩
      · exact ⟨h.sequenced, fun _ => hp⟩

variable {policy : ResourcePolicy} {σ : Nat → SamplerEvent} {k : Nat}

theorem Run.tidy {s : Nat → Sampler} (h : Run policy σ s) : ∀ k, (s k).Tidy
  | 0 => by
    obtain ⟨journal, hinit⟩ := h.init
    rw [hinit]
    exact ⟨(fun _ h => nomatch h), fun _ => rfl⟩
  | k + 1 => h.next k ▸ (h.tidy k).step (σ k)

theorem Run.policy_eq {s : Nat → Sampler} (h : Run policy σ s) : ∀ k, (s k).monitor.guard.policy = policy
  | 0 => by
    obtain ⟨journal, hinit⟩ := h.init
    rw [hinit]
    rfl
  | k + 1 => by rw [h.next k, step_policy, h.policy_eq k]

theorem Aside.refl (s : Sampler) : s.Aside s := ⟨rfl, rfl, rfl⟩

theorem Aside.trans {s1 s2 : Sampler} (h : s.Aside s1) (h' : s1.Aside s2) : s.Aside s2 :=
  ⟨h'.loop.trans h.loop, h'.guard.trans h.guard, h'.pending.trans h.pending⟩

theorem step_aside {ev : SamplerEvent} (h : ∀ a, ev ≠ .loop a) : s.Aside (s.step ev) := by
  cases ev with
  | observe => exact ⟨rfl, rfl, rfl⟩
  | forget => exact ⟨rfl, rfl, rfl⟩
  | loop a => exact absurd rfl (h a)

theorem Run.next_loop {s : Nat → Sampler} (h : Run policy σ s) (k : Nat) :
    ∃ j ≥ k, ∃ a, σ j = .loop a ∧ (s k).Aside (s j) := by
  have hwalk : ∀ d k, (∃ a, σ (k + d) = .loop a) → ∃ j ≥ k, ∃ a, σ j = .loop a ∧ (s k).Aside (s j) := by
    intro d
    induction d with
    | zero => exact fun k ⟨a, ha⟩ => ⟨k, le_rfl, a, ha, .refl _⟩
    | succ d ih =>
      intro k hk
      by_cases hloop : ∃ a, σ k = .loop a
      · obtain ⟨a, ha⟩ := hloop
        exact ⟨k, le_rfl, a, ha, .refl _⟩
      · obtain ⟨j, hj, a, ha, haside⟩ := ih (k + 1) (by rwa [Nat.add_right_comm])
        have hstep : (s k).Aside (s (k + 1)) := h.next k ▸ step_aside fun a ha => hloop ⟨a, ha⟩
        exact ⟨j, Nat.le_of_succ_le hj, a, ha, hstep.trans haside⟩
  obtain ⟨j, hj, a, ha⟩ := h.goes_on k
  exact hwalk (j - k) k ⟨a, by rwa [Nat.add_sub_cancel' hj]⟩

/-! ## Under lasting pressure -/

def Calls (s : Sampler) (ev : SamplerEvent) (k : String × Nat) : Prop :=
  s.loop = .taking ∧ (∃ a, ev = .loop a) ∧ ∃ d, s.monitor.pendingEmergency = some d ∧ d.key = k

def SamplesDue (s : Sampler) (ev : SamplerEvent) : Prop :=
  s.loop = .sampling ∧ ∃ a snapshot, ev = .loop a ∧ a.sample = some snapshot ∧ s.monitor.guard.due snapshot = true

section
variable (policy : ResourcePolicy) (σ : Nat → SamplerEvent) (s : Nat → Sampler) (n : Nat)

/-- From `n` on every sample is complete and beyond a threshold, and every record is appended. The count of samples
is a `u32`. -/
structure Pressed : Prop extends Run policy σ s where
  sampling : (s n).loop = .sampling
  breached : ∀ k ≥ n, ∀ a, σ k = .loop a → (s k).loop = .sampling →
    ∃ snapshot, a.sample = some snapshot ∧ (s k).monitor.guard.breached snapshot = true
  appended : ∀ k ≥ n, ∀ a, σ k = .loop a → a.append = .done
  u32 : policy.emergencyConsecutiveSamples < 2 ^ 32

/-- Until its turn comes the engine is starting and has not been stopped, and a stop would succeed. -/
structure Waiting (e : String × Nat) : Prop where
  candidate : ∀ k ≥ n, (∀ j ≥ n, j < k → ¬ Calls (s j) (σ j) e) → ∃ c, (s k).monitor.Candidate c ∧ c.key = e
  stoppable : ∀ k ≥ n, ∀ a d, σ k = .loop a → d.key = e →
    ∃ x, (s k).monitor.identity d = some x ∧ actuated a d x = true

end

section
variable {policy : ResourcePolicy} {σ : Nat → SamplerEvent} {s : Nat → Sampler} {n : Nat} {e : String × Nat}

theorem breached_complete {g : EmergencyGuard} {snapshot : HostResourceSnapshot} (h : g.breached snapshot = true) :
    snapshot.isComplete = true := by
  unfold breached at h
  exact (Bool.and_eq_true_iff.mp h).1

variable {k : Nat}

theorem Pressed.sampled (h : Pressed policy σ s n) (hk : n ≤ k) {a : LoopAnswers} (ha : σ k = .loop a)
    (hloop : (s k).loop = .sampling) :
    ∃ snapshot, a.sample = some snapshot ∧ (s k).monitor.guard.breached snapshot = true ∧
      (s (k + 1)).loop = .taking ∧ (s k).monitor.Sampled snapshot (s (k + 1)).monitor := by
  obtain ⟨snapshot, hsample, hbreached⟩ := h.breached k hk a ha hloop
  have htidy := h.tidy k
  have hidle := htidy.idle (by rw [hloop]; nofun)
  have hstep : s (k + 1) = ⟨(s k).monitor.sampleOnce a.memory (some snapshot) a.eventId .done, .taking⟩ := by
    rw [h.next k, ha, ← hsample, ← h.appended k hk a ha]
    simp only [step, hloop]
  rw [hstep]
  exact ⟨snapshot, hsample, hbreached, rfl,
    sampleOnce_sampled a.memory a.eventId (breached_complete hbreached) htidy.sequenced hidle⟩

theorem Run.called (h : Run policy σ s) (hloop : (s k).loop = .taking) (hd : (s k).monitor.pendingEmergency = some d) :
    ∃ j ≥ k, Calls (s j) (σ j) d.key ∧ (s (j + 1)).loop = .actuating d ∧
      (s (j + 1)).monitor.guard = (s k).monitor.guard := by
  obtain ⟨j, hj, a, ha, haside⟩ := h.next_loop k
  have hloop' := haside.loop.trans hloop
  have hd' := haside.pending.trans hd
  have hstep : s (j + 1) = ⟨{ (s j).monitor with pendingEmergency := none }, .actuating d⟩ := by
    rw [h.next j, ha]
    simp only [step, hloop', hd']
  refine ⟨j, hj, ⟨hloop', ⟨a, ha⟩, d, hd', rfl⟩, ?_, ?_⟩
  · rw [hstep]
  · rw [hstep]
    exact haside.guard

theorem Run.back (h : Run policy σ s) (hloop : (s k).loop = .taking) (hd : (s k).monitor.pendingEmergency = none) :
    ∃ j ≥ k, (s j).loop = .sampling ∧ (s j).monitor.guard = (s k).monitor.guard := by
  obtain ⟨j, hj, a, ha, haside⟩ := h.next_loop k
  have hloop' := haside.loop.trans hloop
  have hd' := haside.pending.trans hd
  have hstep : s (j + 1) = { s j with loop := .sampling } := by
    rw [h.next j, ha]
    simp only [step, hloop', hd']
  refine ⟨j + 1, Nat.le_succ_of_le hj, ?_, ?_⟩
  · rw [hstep]
  · rw [hstep]
    exact haside.guard

theorem Pressed.due_or_counted (h : Pressed policy σ s n) (hk : n ≤ k) (hloop : (s k).loop = .sampling) :
    (∃ j ≥ k, SamplesDue (s j) (σ j) ∧ (s j).monitor.guard.suppressed = (s k).monitor.guard.suppressed) ∨
    ∃ j ≥ k, (s j).loop = .sampling ∧ (s j).monitor.guard.suppressed = (s k).monitor.guard.suppressed ∧
      (s j).monitor.guard.consecutiveFloorBreaches = (s k).monitor.guard.consecutiveFloorBreaches + 1 ∧
      (s k).monitor.guard.consecutiveFloorBreaches + 1 < policy.emergencyConsecutiveSamples := by
  obtain ⟨j, hj, a, ha, haside⟩ := h.next_loop k
  have hloop' := haside.loop.trans hloop
  obtain ⟨snapshot, hsample, hbreached, htaking, hsampled⟩ := h.sampled (hk.trans hj) ha hloop'
  cases hdue : (s j).monitor.guard.due snapshot with
  | true => exact .inl ⟨j, hj, ⟨hloop', a, snapshot, ha, hsample, hdue⟩, congrArg _ haside.guard⟩
  | false =>
    right
    have hcount := hsampled.counts hbreached hdue (h.policy_eq j ▸ h.u32)
    rw [h.policy_eq j, haside.guard] at hcount
    obtain ⟨i, hi, hsampling, hguard⟩ := h.back htaking (hsampled.idle hdue)
    refine ⟨i, hj.trans (Nat.le_of_succ_le hi), hsampling, ?_, hguard ▸ hcount.1, hcount.2⟩
    rw [hguard, hsampled.suppressed, haside.guard]

theorem Pressed.next_due (h : Pressed policy σ s n) : ∀ (c : Nat) {k : Nat}, n ≤ k → (s k).loop = .sampling →
    policy.emergencyConsecutiveSamples ≤ (s k).monitor.guard.consecutiveFloorBreaches + c →
    ∃ j ≥ k, SamplesDue (s j) (σ j) ∧ (s j).monitor.guard.suppressed = (s k).monitor.guard.suppressed
  | c, k, hk, hloop, hc => by
    rcases h.due_or_counted hk hloop with hdue | ⟨j, hj, hsampling, hsuppressed, hcount, hlt⟩
    · exact hdue
    · cases c with
      | zero => omega
      | succ c =>
        obtain ⟨i, hi, hdue, hsame⟩ := h.next_due c (hk.trans hj) hsampling (by omega)
        exact ⟨i, hj.trans hi, hdue, hsame.trans hsuppressed⟩

theorem Pressed.turn (h : Pressed policy σ s n) (hwait : Waiting σ s n e) (hk : n ≤ k) (hdue : SamplesDue (s k) (σ k)) :
    (∃ j ≥ n, Calls (s j) (σ j) e) ∨ ∃ c d j, k < j ∧ (s k).monitor.Candidate c ∧ rankOf e < rankOf c.key ∧
      c.key = d.key ∧ (s (j + 1)).loop = .actuating d ∧
      (s (j + 1)).monitor.guard.suppressed = (s k).monitor.guard.suppressed := by
  by_cases hcalled : ∃ j ≥ n, Calls (s j) (σ j) e
  · exact .inl hcalled
  obtain ⟨w, hw, hwkey⟩ := hwait.candidate k hk fun j hj _ hcall => hcalled ⟨j, hj, hcall⟩
  obtain ⟨hloop, a, snapshot, ha, hsample, hdue⟩ := hdue
  obtain ⟨snapshot', hsample', -, htaking, hsampled⟩ := h.sampled hk ha hloop
  obtain rfl := Option.some.inj (hsample.symm.trans hsample')
  obtain ⟨d, c, hd, hc, hkey, hall⟩ := hsampled.takes w hdue hw
  obtain ⟨j, hj, hcalls, hacting, hguard⟩ := h.called htaking hd
  right
  refine ⟨c, d, j, hj, hc, ?_, hkey, hacting, by rw [hguard, hsampled.suppressed]⟩
  have hle := hall w hw
  rw [hwkey] at hle
  rw [hkey]
  refine lt_of_le_of_ne hle fun heq => hcalled ⟨j, (hk.trans (Nat.le_of_succ_le hj)), ?_⟩
  rwa [rankOf_injective heq]

theorem step_taking {s : Sampler} {a : LoopAnswers} (h : (s.step (.loop a)).loop = .taking) : s.loop = .sampling := by
  obtain ⟨monitor, loop⟩ := s
  cases loop with
  | sampling => rfl
  | taking | actuating | disabling =>
    simp only [step] at h
    split at h <;> cases h

theorem Pressed.chosen (h : Pressed policy σ s n) (hk : n ≤ k) (hloop : (s k).loop = .taking)
    (hd : (s k).monitor.pendingEmergency = some d) :
    ∃ j ≥ n, SamplesDue (s j) (σ j) ∧ (s j).monitor.Clear d.key := by
  induction k, hk using Nat.le_induction with
  | base => rw [h.sampling] at hloop; cases hloop
  | succ k hk ih =>
    by_cases hhandler : ∀ a, σ k ≠ .loop a
    · have haside : (s k).Aside (s (k + 1)) := h.next k ▸ step_aside hhandler
      exact ih (haside.loop.symm.trans hloop) (haside.pending.symm.trans hd)
    · push Not at hhandler
      obtain ⟨a, ha⟩ := hhandler
      rw [h.next k, ha] at hloop
      have hsampling := step_taking hloop
      obtain ⟨snapshot, hsample, -, -, hsampled⟩ := h.sampled hk ha hsampling
      obtain ⟨hdue, hclear⟩ := hsampled.taken d hd
      exact ⟨k, hk, ⟨hsampling, a, snapshot, ha, hsample, hdue⟩, hclear⟩

/-- Only the engines in `rivals` ever come before `e`, and each of them can be stopped. -/
structure Yielding (σ : Nat → SamplerEvent) (s : Nat → Sampler) (n : Nat) (e : String × Nat)
    (rivals : List (String × Nat)) : Prop where
  rivals : ∀ k ≥ n, ∀ c, (s k).monitor.Candidate c → rankOf e < rankOf c.key → c.key ∈ rivals
  known : ∀ k ≥ n, ∀ d, rankOf e < rankOf d.key → (s k).loop = .actuating d → (s k).monitor.identity d ≠ none
  stopped : ∀ k ≥ n, ∀ a d x, σ k = .loop a → rankOf e < rankOf d.key → (s k).loop = .disabling d x →
    actuated a d x = true

theorem Yielding.suppresses (h : Run policy σ s) (hy : Yielding σ s n e rivals) (hk : n ≤ k)
    (hlt : rankOf e < rankOf d.key) (hloop : (s k).loop = .actuating d) :
    ∃ j ≥ n, (s j).loop = .sampling ∧ (s j).monitor.guard.suppressed = d.key :: (s k).monitor.guard.suppressed := by
  obtain ⟨j, hj, a, ha, haside⟩ := h.next_loop k
  have hloop' := haside.loop.trans hloop
  obtain ⟨x, hx⟩ := Option.ne_none_iff_exists'.mp (hy.known j (hk.trans hj) d hlt hloop')
  have hstep : s (j + 1) = { s j with loop := .disabling d x } := by
    rw [h.next j, ha]
    simp only [step, hloop', hx]
  obtain ⟨i, hi, b, hb, haside'⟩ := h.next_loop (j + 1)
  have hloop'' : (s i).loop = .disabling d x := by rw [haside'.loop, hstep]
  have hni : n ≤ i := hk.trans (hj.trans (Nat.le_of_succ_le hi))
  have hstep' : s (i + 1) = ⟨(s i).monitor.suppress d, .sampling⟩ := by
    rw [h.next i, hb]
    simp only [step, hloop'', hy.stopped i hni b d x hb hlt hloop'', if_true]
  refine ⟨i + 1, Nat.le_succ_of_le hni, by rw [hstep'], ?_⟩
  rw [hstep']
  show d.key :: (s i).monitor.guard.suppressed = _
  rw [haside'.guard, hstep, haside.guard]

theorem Yielding.calls (h : Pressed policy σ s n) (hwait : Waiting σ s n e)
    (hy : Yielding σ s n e rivals) : ∀ (c : Nat) {k : Nat}, n ≤ k → (s k).loop = .sampling →
    (rivals.filter fun r => r ∉ (s k).monitor.guard.suppressed).length ≤ c → ∃ j ≥ n, Calls (s j) (σ j) e
  | c, k, hk, hloop, hc => by
    obtain ⟨j, hj, hdue, hsame⟩ := h.next_due policy.emergencyConsecutiveSamples hk hloop (Nat.le_add_left ..)
    rcases h.turn hwait (hk.trans hj) hdue with hcalls | ⟨r, d, i, hi, hr, hlt, hkey, hacting, hsame'⟩
    · exact hcalls
    · have hrival := hy.rivals j (hk.trans hj) r hr hlt
      rw [hkey] at hlt
      obtain ⟨k', hk', hsampling, hsuppressed⟩ :=
        hy.suppresses h.toRun (hk.trans (hj.trans (hi.le.trans (Nat.le_succ i)))) hlt hacting
      have hless : (rivals.filter fun r => r ∉ (s k').monitor.guard.suppressed).length <
          (rivals.filter fun r => r ∉ (s k).monitor.guard.suppressed).length := by
        have hfilter : (rivals.filter fun r => r ∉ (s k').monitor.guard.suppressed) =
            (rivals.filter fun r => r ∉ (s k).monitor.guard.suppressed).filter (· ≠ d.key) := by
          rw [List.filter_filter, hsuppressed, hsame', hsame]
          refine List.filter_congr fun r _ => ?_
          simp [List.mem_cons, not_or]
        rw [hfilter, List.length_filter_lt_length_iff_exists]
        refine ⟨r.key, List.mem_filter.mpr ⟨hrival, ?_⟩, by simp [hkey]⟩
        have hlive := hr.2.2
        rw [hsame] at hlive
        exact decide_eq_true hlive
      cases c with
      | zero => omega
      | succ c => exact Yielding.calls h hwait hy c hk' hsampling (by omega)

theorem guard_reaches_iff (h : Pressed policy σ s n) (hwait : Waiting σ s n e) :
    ((∃ k ≥ n, Calls (s k) (σ k) e) ↔ ∃ k ≥ n, SamplesDue (s k) (σ k) ∧ (s k).monitor.Clear e) ∧
    ∀ rivals, Yielding σ s n e rivals → ∃ k ≥ n, Calls (s k) (σ k) e := by
  refine ⟨⟨?_, ?_⟩, fun rivals hy => hy.calls h hwait _ le_rfl h.sampling le_rfl⟩
  · rintro ⟨k, hk, hloop, -, d, hd, rfl⟩
    exact h.chosen hk hloop hd
  · rintro ⟨k, hk, hdue, hclear⟩
    rcases h.turn hwait hk hdue with hcalls | ⟨c, -, -, -, hc, hlt, -⟩
    · exact hcalls
    · exact absurd hlt (hclear c hc)

end

/-! ## An engine that can not be stopped -/

def pressing (before : List SamplerEvent) (a : LoopAnswers) (k : Nat) : SamplerEvent := before.getD k (.loop a)

def states (policy : ResourcePolicy) (σ : Nat → SamplerEvent) : Nat → Sampler
  | 0 => start policy []
  | k + 1 => (states policy σ k).step (σ k)

def pressedPolicy : ResourcePolicy := .capacityFirst

def pressedSample : HostResourceSnapshot := ⟨0, some (128 * gibBytes), some (16 * gibBytes), some (.finite 20), some 0, some (700 * gibBytes)⟩

section
variable {before : List SamplerEvent} {a : LoopAnswers}

theorem pressing_of_le {k : Nat} (hk : before.length ≤ k) : pressing before a k = .loop a := by
  unfold pressing
  rw [List.getD_eq_getElem?_getD, List.getElem?_eq_none hk]
  rfl

variable (before a) in
theorem pressing_pressed (hsample : a.sample = some pressedSample) (happend : a.append = .done)
    (hloop : (states pressedPolicy (pressing before a) before.length).loop = .sampling) :
    Pressed pressedPolicy (pressing before a) (states pressedPolicy (pressing before a)) before.length := by
  have hrun : Run pressedPolicy (pressing before a) (states pressedPolicy (pressing before a)) :=
    ⟨⟨[], rfl⟩, fun _ => rfl, fun k => ⟨max k before.length, le_max_left .., a, pressing_of_le (le_max_right ..)⟩⟩
  have hanswers : ∀ k ≥ before.length, ∀ b, pressing before a k = .loop b → b = a := fun k hk b hb =>
    (SamplerEvent.loop.inj ((pressing_of_le hk).symm.trans hb)).symm
  refine { toRun := hrun, sampling := hloop, u32 := by decide, breached := ?_, appended := ?_ }
  · intro k hk b hb _
    refine ⟨pressedSample, hanswers k hk b hb ▸ hsample, ?_⟩
    unfold breached psiBreach
    rw [hrun.policy_eq k]
    rfl
  · intro k hk b hb
    exact hanswers k hk b hb ▸ happend

end

def containerOf (c : Char) : String := String.ofList (List.replicate 64 c)

def engineOf (id : String) (generation : Nat) (c : Char) : InspectedEngine where
  instanceId := id
  generation := generation
  address := "172.17.0.2"
  port := 8000
  running := true
  restartPolicy := "no"
  servedModel := "model"
  initPid := 7
  pidStartTimeTicks := 9
  containerId := containerOf c
  cgroupPath := "system.slice/docker-" ++ containerOf c ++ ".scope"

def exitedEngine : InspectedEngine := engineOf "i_a" 2 'a'

def waitingEngine : InspectedEngine := engineOf "i_b" 1 'b'

def onlyWaiting : LoopAnswers where
  memory _ := none
  sample := some pressedSample
  eventId := "01J00000000000000000000000"
  append := .done
  disableRestart input := if input.instanceId = "i_b" then some waitingEngine else none
  cgroup _ := .ok ()

theorem waiting_killed : (killManagedCgroup (.ok ()) waitingEngine.identity waitingEngine.identity).isOk = true := by
  decide +kernel

theorem step_identities (s : Sampler) (a : LoopAnswers) :
    (s.step (.loop a)).monitor.identities = s.monitor.identities := by
  simp only [step]
  split
  · exact (sampleOnce_keeps ..).2.2.2
  · split <;> rfl
  · split <;> rfl
  · split <;> rfl

theorem pressing_identities {before : List SamplerEvent} {a : LoopAnswers} (hk : before.length ≤ k) :
    (states pressedPolicy (pressing before a) k).monitor.identities =
      (states pressedPolicy (pressing before a) before.length).monitor.identities := by
  induction k, hk using Nat.le_induction with
  | base => rfl
  | succ k hk ih =>
    rw [states, pressing_of_le hk, step_identities, ih]

theorem pressing_stoppable (before : List SamplerEvent)
    (hknown : (states pressedPolicy (pressing before onlyWaiting) before.length).monitor.identities.get? ("i_b", 1) =
      some waitingEngine.identity) (hk : before.length ≤ k) {a : LoopAnswers}
    (ha : pressing before onlyWaiting k = .loop a) (hd : d.key = ("i_b", 1)) :
    ∃ x, (states pressedPolicy (pressing before onlyWaiting) k).monitor.identity d = some x ∧ actuated a d x = true := by
  obtain rfl := SamplerEvent.loop.inj ((pressing_of_le hk).symm.trans ha)
  obtain ⟨id, generation, cause⟩ := d
  obtain ⟨rfl, rfl⟩ := Prod.mk.inj hd
  refine ⟨waitingEngine.identity, ?_, waiting_killed⟩
  unfold identity
  rw [pressing_identities hk]
  exact hknown

def lone : List SamplerEvent := [.observe (fun _ => none) waitingEngine .starting]

def both : List SamplerEvent := .observe (fun _ => none) exitedEngine .starting :: lone

def waitingManaged : ManagedEngine := ⟨"i_b", 1, .starting, 1, 0, 0⟩

def exitedManaged : ManagedEngine := ⟨"i_a", 2, .starting, 2, 0, 0⟩

theorem lone_called : Calls (states pressedPolicy (pressing lone onlyWaiting) 2) (pressing lone onlyWaiting 2)
    ("i_b", 1) :=
  ⟨by decide +kernel, ⟨_, rfl⟩, ⟨"i_b", 1, "memory-full-psi"⟩, by decide +kernel, rfl⟩

theorem lone_candidate (k : Nat) (hk : k = 1 ∨ k = 2) :
    (states pressedPolicy (pressing lone onlyWaiting) k).monitor.Candidate waitingManaged := by
  rcases hk with rfl | rfl
  · exact ⟨by decide +kernel, rfl, by decide +kernel⟩
  · exact ⟨by decide +kernel, rfl, by decide +kernel⟩

theorem lone_waiting :
    Waiting (pressing lone onlyWaiting) (states pressedPolicy (pressing lone onlyWaiting)) 1 ("i_b", 1) where
  candidate k hk hcalls := by
    refine ⟨waitingManaged, lone_candidate k ?_, rfl⟩
    by_contra hne
    exact hcalls 2 (by decide) (by omega) lone_called
  stoppable k hk a d := pressing_stoppable lone (by decide +kernel) hk

theorem lone_engine_reached : ∃ k ≥ 1, Calls (states pressedPolicy (pressing lone onlyWaiting) k)
    (pressing lone onlyWaiting k) ("i_b", 1) := by
  have hpressed : Pressed _ _ _ 1 := pressing_pressed lone onlyWaiting rfl rfl rfl
  refine (guard_reaches_iff hpressed lone_waiting).1.mpr ⟨1, le_rfl, ⟨rfl, _, _, rfl, rfl, by decide +kernel⟩, ?_⟩
  intro c hc hlt
  have hmanaged : (states pressedPolicy (pressing lone onlyWaiting) 1).monitor.managed = [waitingManaged] := by
    decide +kernel
  obtain rfl := List.mem_singleton.mp (hmanaged ▸ hc.1)
  exact lt_irrefl _ hlt

def exitedDecision : EmergencyDecision := ⟨"i_a", 2, "memory-full-psi"⟩

structure Shielded (s : Sampler) : Prop where
  managed : s.monitor.managed = [exitedManaged, waitingManaged]
  guard : s.monitor.guard = .new pressedPolicy
  loop : (s.loop = .sampling ∧ s.monitor.pendingEmergency = none) ∨
    (s.loop = .taking ∧ s.monitor.pendingEmergency = some exitedDecision) ∨
    (s.loop = .actuating exitedDecision ∧ s.monitor.pendingEmergency = none) ∨
    ∃ x, s.loop = .disabling exitedDecision x ∧ s.monitor.pendingEmergency = none

theorem refresh_none (m : ResourceMonitor) : m.refreshManagedMemory (fun _ => none) = m := by
  unfold refreshManagedMemory
  simp

theorem observe_shielded : (EmergencyGuard.new pressedPolicy).observe pressedSample [exitedManaged, waitingManaged] =
    (some exitedDecision, EmergencyGuard.new pressedPolicy) := by
  decide +kernel

theorem Shielded.step (h : Shielded s) : Shielded (s.step (.loop onlyWaiting)) := by
  obtain ⟨⟨latest, guard, managed, identities, pending, journal⟩, loop⟩ := s
  obtain ⟨hmanaged, hguard, hloop⟩ := h
  dsimp only at hmanaged hguard hloop
  subst hmanaged hguard
  rcases hloop with ⟨rfl, rfl⟩ | ⟨rfl, rfl⟩ | ⟨rfl, rfl⟩ | ⟨x, rfl, rfl⟩
  · have hsample : ∃ journal', Sampler.step ⟨⟨latest, .new pressedPolicy, [exitedManaged, waitingManaged], identities, none,
        journal⟩, .sampling⟩ (.loop onlyWaiting) = ⟨⟨some pressedSample, .new pressedPolicy,
          [exitedManaged, waitingManaged], identities, some exitedDecision, journal'⟩, .taking⟩ := by
      simp only [Sampler.step, onlyWaiting, sampleOnce, refresh_none, Option.filter_some]
      rw [if_pos (show pressedSample.isComplete = true from rfl)]
      dsimp only
      rw [observe_shielded]
      exact ⟨_, rfl⟩
    obtain ⟨journal', hsample⟩ := hsample
    rw [hsample]
    exact ⟨rfl, rfl, .inr (.inl ⟨rfl, rfl⟩)⟩
  · exact ⟨rfl, rfl, .inr (.inr (.inl ⟨rfl, rfl⟩))⟩
  · simp only [Sampler.step]
    split
    · exact ⟨rfl, rfl, .inl ⟨rfl, rfl⟩⟩
    · exact ⟨rfl, rfl, .inr (.inr (.inr ⟨_, rfl, rfl⟩))⟩
  · exact ⟨rfl, rfl, .inl ⟨rfl, rfl⟩⟩

theorem both_shielded (hk : 2 ≤ k) : Shielded (states pressedPolicy (pressing both onlyWaiting) k) := by
  induction k, hk using Nat.le_induction with
  | base => exact ⟨by decide +kernel, by decide +kernel, .inl ⟨rfl, rfl⟩⟩
  | succ k hk ih =>
    rw [states, pressing_of_le hk]
    exact ih.step

theorem both_waiting :
    Waiting (pressing both onlyWaiting) (states pressedPolicy (pressing both onlyWaiting)) 2 ("i_b", 1) where
  candidate k hk _ := by
    have h := both_shielded hk
    refine ⟨waitingManaged, ⟨?_, rfl, ?_⟩, rfl⟩
    · rw [h.managed]
      simp
    · rw [h.guard]
      exact List.not_mem_nil
  stoppable k hk a d := pressing_stoppable both (by decide +kernel) hk

theorem exited_engine_shields : ∃ σ s, Pressed pressedPolicy σ s 2 ∧ Waiting σ s 2 ("i_b", 1) ∧
    ∀ k ≥ 2, ¬ Calls (s k) (σ k) ("i_b", 1) := by
  refine ⟨pressing both onlyWaiting, states pressedPolicy (pressing both onlyWaiting),
    pressing_pressed both onlyWaiting rfl rfl rfl, both_waiting, fun k hk => ?_⟩
  rintro ⟨hloop, -, d, hd, hkey⟩
  rcases (both_shielded hk).loop with ⟨-, hnone⟩ | ⟨-, hsome⟩ | ⟨-, hnone⟩ | ⟨-, -, hnone⟩
  · cases hnone.symm.trans hd
  · obtain rfl := Option.some.inj (hsome.symm.trans hd)
    exact absurd hkey (by decide)
  · cases hnone.symm.trans hd
  · cases hnone.symm.trans hd

end Sampler

end Sparkplane

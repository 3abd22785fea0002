import Mathlib.Data.List.Induction
import Sparkplane.MonitorSound

/-!
# What the emergency guard decides

The guard against its calls: it decides on a sustained breach, and names the
engine of the greatest generation. That is the engine that was started last
only where no older engine has a greater generation. The journal gets a record
for each decision, so one engine that is decided on twice has two.
-/

namespace Sparkplane

open EmergencyGuard hiding new suppress
open Sampler

/-! ## The calls of a guard -/

inductive GuardCall where
  | observe (snapshot : HostResourceSnapshot) (engines : List ManagedEngine)
  | suppress (decision : EmergencyDecision)

namespace EmergencyGuard

-- The calls are listed from the last one back.
def after (policy : ResourcePolicy) : List GuardCall → EmergencyGuard
  | [] => new policy
  | .observe snapshot engines :: calls => ((after policy calls).observe snapshot engines).2
  | .suppress decision :: calls => (after policy calls).suppress decision

end EmergencyGuard

def samples : List GuardCall → List HostResourceSnapshot
  | [] => []
  | .observe snapshot _ :: calls => snapshot :: samples calls
  | .suppress _ :: calls => samples calls

def suppressions : List GuardCall → List (String × Nat)
  | [] => []
  | .observe _ _ :: calls => suppressions calls
  | .suppress decision :: calls => decision.key :: suppressions calls

def underFloor (policy : ResourcePolicy) (s : HostResourceSnapshot) : Bool :=
  s.memAvailableBytes.any (· < policy.emergencyAvailableFloorBytes)

def Sustained (policy : ResourcePolicy) (l : List HostResourceSnapshot) : Prop :=
  policy.emergencyConsecutiveSamples ≤ l.length ∧
    ∀ s ∈ l.take policy.emergencyConsecutiveSamples, underFloor policy s = true

theorem le_length_takeWhile {α : Type} (p : α → Bool) (l : List α) (k : Nat) :
    k ≤ (l.takeWhile p).length ↔ k ≤ l.length ∧ ∀ x ∈ l.take k, p x = true := by
  induction l generalizing k with
  | nil => simp
  | cons a l ih =>
    cases k with
    | zero => simp
    | succ k =>
      by_cases h : p a = true
      · simp [h, ih]
      · simp [h]

section
variable {policy : ResourcePolicy} {calls : List GuardCall} {snapshot : HostResourceSnapshot}
  {engines : List ManagedEngine}

theorem after_counted (policy : ResourcePolicy) (calls : List GuardCall) (engines : List ManagedEngine)
    (h : snapshot.isComplete = true) : ∃ available, snapshot.memAvailableBytes = some available ∧
      (after policy (.observe snapshot engines :: calls)).consecutiveFloorBreaches =
        (after policy calls).breaches available := by
  simp only [HostResourceSnapshot.isComplete, Bool.and_eq_true, Option.isSome_iff_exists] at h
  obtain ⟨⟨⟨⟨_, available, havailable⟩, psi, hpsi⟩, _⟩, _⟩ := h
  refine ⟨available, havailable, ?_⟩
  simp only [after, observe, havailable, hpsi]
  split <;> rfl

theorem after_spec (policy : ResourcePolicy) (hcomplete : ∀ s ∈ samples calls, s.isComplete = true) :
    (after policy calls).policy = policy ∧
    (after policy calls).suppressed = suppressions calls ∧
    (after policy calls).consecutiveFloorBreaches =
      min ((samples calls).takeWhile (underFloor policy)).length (2 ^ 32 - 1) := by
  induction calls with
  | nil => exact ⟨rfl, rfl, by simp [samples, after, EmergencyGuard.new]⟩
  | cons call calls ih =>
    cases call with
    | suppress decision =>
      obtain ⟨hpolicy, hsuppressed, hcount⟩ := ih hcomplete
      refine ⟨hpolicy, ?_, hcount⟩
      simp [after, EmergencyGuard.suppress, suppressions, EmergencyDecision.key, hsuppressed]
    | observe snapshot engines =>
      obtain ⟨hsnapshot, hrest⟩ := List.forall_mem_cons.mp hcomplete
      obtain ⟨hpolicy, hsuppressed, hcount⟩ := ih hrest
      refine ⟨(observe_policy engines).trans hpolicy, (observe_suppressed engines).trans hsuppressed, ?_⟩
      obtain ⟨available, havailable, hbreaches⟩ := after_counted policy calls engines hsnapshot
      rw [hbreaches, breaches, belowFloor, hpolicy, hcount, samples]
      by_cases h : available < policy.emergencyAvailableFloorBytes
      · have hunder : underFloor policy snapshot = true := by simp [underFloor, havailable, h]
        simp only [h, decide_true, if_true, List.takeWhile_cons, hunder, List.length_cons]
        omega
      · have hunder : underFloor policy snapshot = false := by simp [underFloor, havailable, h]
        simp [h, hunder]

theorem due_iff (engines : List ManagedEngine) (hu32 : policy.emergencyConsecutiveSamples < 2 ^ 32)
    (hcomplete : ∀ s ∈ samples (.observe snapshot engines :: calls), s.isComplete = true) {psi : Rat}
    (hpsi : snapshot.memoryFullPsiAvg10Percent = some (.finite psi)) :
    (after policy calls).due snapshot = true ↔
      policy.memoryFullPsiAvg10Percent ≤ psi ∨ Sustained policy (snapshot :: samples calls) := by
  have hnext := (after_spec policy hcomplete).2.2
  obtain ⟨hsnapshot, hrest⟩ := List.forall_mem_cons.mp hcomplete
  obtain ⟨hpolicy, _, _⟩ := after_spec policy hrest
  obtain ⟨available, havailable, hbreaches⟩ := after_counted policy calls engines hsnapshot
  rw [hbreaches, samples] at hnext
  unfold Sustained
  rw [← le_length_takeWhile]
  simp only [due, havailable, hpsi, psiBreach, hpolicy, hnext, Bool.or_eq_true, decide_eq_true_eq]
  exact or_congr Iff.rfl (by omega)

/-! ## The engine that is named -/

def ManagedEngine.growing (e : ManagedEngine) : Bool := e.phase = .healthy && e.previousMemoryBytes < e.memoryBytes

def Greatest (suppressed : List (String × Nat)) (engines : List ManagedEngine) (among : ManagedEngine → Bool)
    (e : ManagedEngine) : Prop :=
  e ∈ engines ∧ e.key ∉ suppressed ∧ among e = true ∧
    ∀ e' ∈ engines, e'.key ∉ suppressed → among e' = true → e'.rank ≤ e.rank

def Unsuppressed (suppressed : List (String × Nat)) (engines : List ManagedEngine) (among : ManagedEngine → Bool) :
    Prop :=
  ∃ e ∈ engines, e.key ∉ suppressed ∧ among e = true

variable {suppressed : List (String × Nat)} {among : ManagedEngine → Bool} {e : ManagedEngine}

theorem mem_live : e ∈ (engines.filter fun e => !suppressed.contains e.key).filter among ↔
    e ∈ engines ∧ e.key ∉ suppressed ∧ among e = true := by
  rw [List.mem_filter, List.mem_filter]
  simp [and_assoc]

theorem maxByKey_greatest (h : maxByKey ManagedEngine.rank
    ((engines.filter fun e => !suppressed.contains e.key).filter among) = some e) :
    Greatest suppressed engines among e := by
  obtain ⟨hmem, hall⟩ := maxByKey_spec h
  obtain ⟨hengine, hkey, hamong⟩ := mem_live.mp hmem
  exact ⟨hengine, hkey, hamong, fun e' he' hkey' hamong' => hall e' (mem_live.mpr ⟨he', hkey', hamong'⟩)⟩

theorem maxByKey_none : maxByKey ManagedEngine.rank
    ((engines.filter fun e => !suppressed.contains e.key).filter among) = none ↔
      ¬ Unsuppressed suppressed engines among := by
  constructor
  · rintro h ⟨e, he⟩
    obtain ⟨top, htop⟩ := maxByKey_isSome ManagedEngine.rank (mem_live.mpr he)
    rw [h] at htop
    cases htop
  · intro h
    cases hmax : maxByKey ManagedEngine.rank ((engines.filter fun e => !suppressed.contains e.key).filter among) with
    | none => rfl
    | some e =>
      obtain ⟨hengine, hkey, hamong, _⟩ := maxByKey_greatest hmax
      exact absurd ⟨e, hengine, hkey, hamong⟩ h

theorem selectVictim_spec (engines : List ManagedEngine) (suppressed : List (String × Nat)) :
    (∀ e, selectVictim engines suppressed = some e → Greatest suppressed engines (·.phase.transitional) e ∨
        ¬ Unsuppressed suppressed engines (·.phase.transitional) ∧ Greatest suppressed engines (·.growing) e) ∧
    ((selectVictim engines suppressed).isSome = true ↔ Unsuppressed suppressed engines (·.phase.transitional) ∨
      Unsuppressed suppressed engines (·.growing)) := by
  unfold selectVictim
  dsimp only
  cases hfirst : maxByKey ManagedEngine.rank ((engines.filter fun e => !suppressed.contains e.key).filter
      fun e => e.phase.transitional) with
  | some e =>
    have hgreatest := maxByKey_greatest hfirst
    refine ⟨?_, ?_⟩
    · intro e' he'
      cases he'
      exact .inl hgreatest
    · simp only [Option.some_or, Option.isSome_some, true_iff]
      exact .inl ⟨e, hgreatest.1, hgreatest.2.1, hgreatest.2.2.1⟩
  | none =>
    have hnone := maxByKey_none.mp hfirst
    rw [Option.none_or]
    refine ⟨fun e he => .inr ⟨hnone, maxByKey_greatest he⟩, ?_⟩
    rw [Option.isSome_iff_ne_none, ne_eq, or_iff_right hnone]
    exact (not_congr maxByKey_none).trans not_not

theorem guard_decides (policy : ResourcePolicy) (hu32 : policy.emergencyConsecutiveSamples < 2 ^ 32)
    (calls : List GuardCall) (snapshot : HostResourceSnapshot) (engines : List ManagedEngine)
    (hcomplete : ∀ s ∈ snapshot :: samples calls, s.isComplete = true) {psi : Rat}
    (hpsi : snapshot.memoryFullPsiAvg10Percent = some (.finite psi)) :
    (((after policy calls).observe snapshot engines).1.isSome = true ↔
      (policy.memoryFullPsiAvg10Percent ≤ psi ∨ Sustained policy (snapshot :: samples calls)) ∧
      (Unsuppressed (suppressions calls) engines (·.phase.transitional) ∨
        Unsuppressed (suppressions calls) engines (·.growing))) ∧
    ∀ decision, ((after policy calls).observe snapshot engines).1 = some decision →
      ∃ e, e.key = decision.key ∧ (Greatest (suppressions calls) engines (·.phase.transitional) e ∨
        ¬ Unsuppressed (suppressions calls) engines (·.phase.transitional) ∧
          Greatest (suppressions calls) engines (·.growing) e) := by
  have hdue := due_iff engines hu32 hcomplete hpsi
  obtain ⟨_, hsuppressed, _⟩ := after_spec policy (List.forall_mem_cons.mp hcomplete).2
  have hkey := observe_key (after policy calls) snapshot engines
  obtain ⟨hvictim, hsome⟩ := selectVictim_spec engines (suppressions calls)
  rw [hsuppressed] at hkey
  generalize ((after policy calls).observe snapshot engines).1 = decided at hkey ⊢
  by_cases h : (after policy calls).due snapshot = true
  · rw [if_pos h] at hkey
    constructor
    · rw [← hdue, ← hsome, ← Option.isSome_map (f := EmergencyDecision.key), hkey, Option.isSome_map]
      simp [h]
    · intro decision hdecision
      rw [hdecision] at hkey
      obtain ⟨e, he, hkey⟩ := Option.map_eq_some_iff.mp hkey.symm
      exact ⟨e, hkey, hvictim e he⟩
  · rw [if_neg h, Option.map_eq_none_iff] at hkey
    subst hkey
    rw [hdue] at h
    simp [h]

end

def lowSample : HostResourceSnapshot := ⟨0, some (128 * gibBytes), some (4 * gibBytes), some (.finite 0), some 0, some (700 * gibBytes)⟩

theorem third_low_sample_decides : ∃ decision,
    ((after pressedPolicy [.observe lowSample [], .observe lowSample []]).observe lowSample
      [waitingManaged]).1 = some decision := by
  have hcomplete : ∀ s ∈ lowSample :: samples [.observe lowSample [], .observe lowSample []], s.isComplete = true := by
    decide +kernel
  apply Option.isSome_iff_exists.mp
  apply (guard_decides pressedPolicy (by decide) _ lowSample [waitingManaged] hcomplete rfl).1.mpr
  exact ⟨.inr ⟨by decide, by decide +kernel⟩, .inl ⟨waitingManaged, by simp, by decide, rfl⟩⟩

/-! ## The engine that was started last -/

/-- `StartInstance` has started these engines; the last one is first. -/
def started (events : List SamplerEvent) : List (String × Nat) :=
  events.foldl (fun l ev => match ev with
    | .observe _ observed phase => if phase.transitional then (observed.instanceId, observed.generation) :: l else l
    | _ => l) []

def Sampler.after (policy : ResourcePolicy) (journal : List EmergencyRecord) (events : List SamplerEvent) : Sampler :=
  events.foldl step (.start policy journal)

def ResourceMonitor.starting (m : ResourceMonitor) : List (String × Nat) :=
  ((m.managed.filter (·.phase.transitional)).map ManagedEngine.key).reverse

theorem started_append (events : List SamplerEvent) (ev : SamplerEvent) : started (events ++ [ev]) =
    match ev with
    | .observe _ observed phase =>
      if phase.transitional then (observed.instanceId, observed.generation) :: started events else started events
    | _ => started events := by
  simp only [started, List.foldl_append, List.foldl_cons, List.foldl_nil]

theorem Sampler.after_append (policy : ResourcePolicy) (journal : List EmergencyRecord) (events : List SamplerEvent)
    (ev : SamplerEvent) : after policy journal (events ++ [ev]) = (after policy journal events).step ev := by
  simp only [after, List.foldl_append, List.foldl_cons, List.foldl_nil]

def InOrder (starts starting : List (String × Nat)) : Prop :=
  ∀ p : String × Nat → Bool, starts.find? (fun k => starting.contains k && p k) = starting.find? p

section
variable {starts starting : List (String × Nat)} {m : ResourceMonitor}

theorem InOrder.filter (h : InOrder starts starting) (q : String × Nat → Bool) : InOrder starts (starting.filter q) := by
  intro p
  rw [List.find?_filter, ← h]
  congr 1
  funext k
  by_cases hk : k ∈ starting <;> by_cases hq : q k = true <;> simp [hk, hq]

theorem InOrder.start (h : InOrder starts starting) (k : String × Nat) : InOrder (k :: starts) (k :: starting) := by
  intro p
  by_cases hk : p k = true
  · simp [hk]
  · have hrest : (fun k' => (k :: starting).contains k' && p k') = fun k' => starting.contains k' && p k' := by
      funext k'
      by_cases heq : k' = k
      · simp [heq, hk]
      · simp [heq]
    rw [hrest]
    simpa [hk] using h p

theorem starting_refresh (memory : String → Option Nat) : (m.refreshManagedMemory memory).starting = m.starting := by
  unfold ResourceMonitor.starting ResourceMonitor.refreshManagedMemory
  rw [List.filter_map, List.map_map]
  congr 2
  · funext e
    simp only [Function.comp]
    split <;> rfl
  · congr 1
    funext e
    simp only [Function.comp]
    split <;> rfl

theorem starting_filter (q : String × Nat → Bool) :
    ((m.managed.filter fun e => q e.key).filter (·.phase.transitional)).map ManagedEngine.key =
      ((m.managed.filter (·.phase.transitional)).map ManagedEngine.key).filter q := by
  rw [List.filter_map, List.filter_filter, List.filter_filter]
  congr 2
  funext e
  exact Bool.and_comm _ _

theorem starting_observe (memory : String → Option Nat) (observed : InspectedEngine) (phase : EnginePhase) :
    (m.observeEngine memory observed phase).starting =
      (if phase.transitional then [(observed.instanceId, observed.generation)] else []) ++
        m.starting.filter (·.1 ≠ observed.instanceId) := by
  unfold ResourceMonitor.observeEngine
  rw [starting_refresh]
  have hfilter := starting_filter (m := m) (·.1 ≠ observed.instanceId)
  simp only [ResourceMonitor.starting, List.filter_append, List.map_append, List.reverse_append, List.filter_reverse]
  rw [← hfilter]
  cases phase <;> rfl

theorem starting_forget (id : String) (generation : Nat) :
    (m.forgetEngine id generation).starting = m.starting.filter fun k => k.1 ≠ id || k.2 ≠ generation := by
  have hfilter := starting_filter (m := m) fun k => k.1 ≠ id || k.2 ≠ generation
  unfold ResourceMonitor.starting
  rw [List.filter_reverse, ← hfilter]
  rfl

theorem step_loop_starting (s : Sampler) (a : LoopAnswers) : (s.step (.loop a)).monitor.starting = s.monitor.starting := by
  obtain ⟨monitor, loop⟩ := s
  cases loop with
  | sampling =>
    have hmanaged := (ResourceMonitor.sampleOnce_keeps (m := monitor) a.memory a.sample a.eventId a.append).1
    have hrefresh := starting_refresh (m := monitor) a.memory
    unfold ResourceMonitor.starting at hrefresh ⊢
    rw [← hrefresh, ← hmanaged]
    rfl
  | taking =>
    unfold step
    dsimp only
    split <;> rfl
  | actuating decision =>
    unfold step
    dsimp only
    split <;> rfl
  | disabling decision expected =>
    unfold step
    dsimp only
    split <;> rfl

theorem inOrder_after (policy : ResourcePolicy) (journal : List EmergencyRecord) (events : List SamplerEvent) :
    InOrder (started events) (after policy journal events).monitor.starting ∧ (after policy journal events).Tidy := by
  induction events using List.reverseRecOn with
  | nil => exact ⟨fun p => rfl, (fun _ h => nomatch h), fun _ => rfl⟩
  | append_singleton events ev ih =>
    obtain ⟨horder, htidy⟩ := ih
    rw [started_append, after_append]
    refine ⟨?_, htidy.step ev⟩
    cases ev with
    | observe memory observed phase =>
      have hfilter := horder.filter (·.1 ≠ observed.instanceId)
      show InOrder _ (ResourceMonitor.observeEngine memory observed phase _).starting
      rw [starting_observe]
      by_cases h : phase.transitional = true
      · simpa [h] using hfilter.start (observed.instanceId, observed.generation)
      · simpa [h] using hfilter
    | forget id generation =>
      show InOrder _ (ResourceMonitor.forgetEngine id generation _).starting
      rw [starting_forget]
      exact horder.filter _
    | loop a =>
      rw [step_loop_starting]
      exact horder

end

def ResourceMonitor.candidateKeys (m : ResourceMonitor) : List (String × Nat) :=
  m.starting.filter fun k => !m.guard.suppressed.contains k

theorem mem_candidateKeys {m : ResourceMonitor} {k : String × Nat} :
    k ∈ m.candidateKeys ↔ ∃ e, m.Candidate e ∧ e.key = k := by
  simp only [ResourceMonitor.candidateKeys, ResourceMonitor.starting, List.mem_filter, List.mem_reverse, List.mem_map,
    ResourceMonitor.Candidate, List.contains_eq_mem, Bool.not_eq_true', decide_eq_false_iff_not]
  constructor
  · rintro ⟨⟨e, ⟨he, hphase⟩, rfl⟩, hkey⟩
    exact ⟨e, ⟨he, hphase, hkey⟩, rfl⟩
  · rintro ⟨e, ⟨he, hphase, hkey⟩, rfl⟩
    exact ⟨⟨e, ⟨he, hphase⟩, rfl⟩, hkey⟩

theorem victim_started_last_iff (policy : ResourcePolicy) (journal : List EmergencyRecord) (events : List SamplerEvent)
    (memory : String → Option Nat) (snapshot : HostResourceSnapshot) {decision : EmergencyDecision} :
    let m := (after policy journal events).monitor.refreshManagedMemory memory
    (m.guard.observe snapshot m.managed).1 = some decision → m.candidateKeys ≠ [] →
    ∃ last, (started events).find? (m.candidateKeys.contains ·) = some last ∧
      (decision.key = last ↔ ∀ k ∈ m.candidateKeys, rankOf k ≤ rankOf last) := by
  intro m hdecision hne
  obtain ⟨horder, htidy⟩ := inOrder_after policy journal events
  have hseq : m.Sequenced := htidy.sequenced.refresh memory
  have horder : InOrder (started events) m.starting := by
    rw [starting_refresh]
    exact horder
  obtain ⟨last, hlast⟩ : ∃ last, m.candidateKeys.head? = some last := by
    cases h : m.candidateKeys with
    | nil => exact absurd h hne
    | cons k ks => exact ⟨k, rfl⟩
  have hfind : (started events).find? (m.candidateKeys.contains ·) = some last := by
    rw [← hlast, ResourceMonitor.candidateKeys, List.head?_filter, ← horder]
    congr 1
    funext k
    by_cases hk : k ∈ m.starting <;> by_cases hs : k ∈ m.guard.suppressed <;> simp [hk, hs]
  obtain ⟨e, he, hkey⟩ := mem_candidateKeys.mp (List.mem_of_head? hlast)
  obtain ⟨victim, hvictim, hcandidate, hall⟩ := selectVictim_candidate hseq he
  have hdecided : decision.key = victim.key := by
    have h := observe_key m.guard snapshot m.managed
    rw [hdecision, hvictim] at h
    split at h
    · exact Option.some.inj h
    · cases h
  refine ⟨last, hfind, ?_⟩
  rw [hdecided]
  constructor
  · intro heq k hk
    obtain ⟨e', he', rfl⟩ := mem_candidateKeys.mp hk
    exact heq ▸ hall e' he'
  · intro hmax
    have hle := hall e he
    rw [hkey] at hle
    exact rankOf_injective (le_antisymm (hmax _ (mem_candidateKeys.mpr ⟨victim, hcandidate, rfl⟩)) hle)

def sampledMonitor (events : List SamplerEvent) : ResourceMonitor :=
  (after pressedPolicy [] events).monitor.refreshManagedMemory fun _ => none

def ascending : List SamplerEvent := lone ++ [.observe (fun _ => none) exitedEngine .starting]

theorem newest_engine_taken : (sampledMonitor ascending).candidateKeys.length = 2 ∧
    ∃ last, (started ascending).find? ((sampledMonitor ascending).candidateKeys.contains ·) = some last ∧ ("i_a", 2) = last := by
  have hdecision : ((sampledMonitor ascending).guard.observe pressedSample (sampledMonitor ascending).managed).1 =
    some exitedDecision := by decide +kernel
  obtain ⟨last, hlast, hiff⟩ := victim_started_last_iff pressedPolicy [] ascending (fun _ => none)
    pressedSample hdecision (by decide +kernel)
  have heq : last = ("i_a", 2) := Option.some.inj (hlast.symm.trans (by decide +kernel))
  refine ⟨by decide +kernel, last, hlast, hiff.mpr ?_⟩
  rw [heq]
  decide +kernel

/-- `i_a` was started in its second generation, and then `i_b` in its first: the guard takes `i_a`. -/
theorem older_engine_taken : ((sampledMonitor both).guard.observe pressedSample
      (sampledMonitor both).managed).1 = some exitedDecision ∧
    (started both).find? ((sampledMonitor both).candidateKeys.contains ·) = some ("i_b", 1) ∧
    exitedDecision.key = ("i_a", 2) := by
  decide +kernel

/-! ## The records of the journal -/

def managedEver (events : List SamplerEvent) : List (String × Nat) :=
  events.filterMap fun ev => match ev with
    | .observe _ observed _ => some (observed.instanceId, observed.generation)
    | _ => none

namespace Sampler

def recorded (old : Nat) (s : Sampler) : List (String × Nat) := (s.monitor.journal.drop old).map (·.decision.key)

/-- The generation that is recorded and not yet stopped. -/
def inHand (s : Sampler) : Option (String × Nat) :=
  match s.loop with
  | .sampling => none
  | .taking => s.monitor.pendingEmergency.map EmergencyDecision.key
  | .actuating decision => some decision.key
  | .disabling decision _ => some decision.key

/-- An append that writes its line syncs it, and the actuation, which looks the victim up and then stops it,
succeeds. -/
def settles (s : Sampler) : SamplerEvent → Bool
  | .loop a =>
    match s.loop with
    | .sampling => a.append ≠ .unsynced
    | .taking => true
    | .actuating decision => (s.monitor.identity decision).isSome
    | .disabling decision expected => actuated a decision expected
  | _ => true

def settled (s : Sampler) : List SamplerEvent → Bool
  | [] => true
  | ev :: events => s.settles ev && (s.step ev).settled events

theorem settled_append (events : List SamplerEvent) (ev : SamplerEvent) (s : Sampler) :
    s.settled (events ++ [ev]) = (s.settled events && (events.foldl step s).settles ev) := by
  induction events generalizing s with
  | nil => simp [settled]
  | cons ev' events ih => simp only [List.cons_append, settled, ih, List.foldl_cons, Bool.and_assoc]

section
variable {s : Sampler} {old : Nat}

/-- Every record is of a generation that is suppressed or in hand. -/
structure Accounted (old : Nat) (s : Sampler) : Prop where
  length : old ≤ s.monitor.journal.length
  once : (s.recorded old).Nodup
  handled : ∀ k ∈ s.recorded old, k ∈ s.monitor.guard.suppressed ∨ s.inHand = some k

theorem recorded_congr {s' : Sampler} (h : s'.monitor.journal = s.monitor.journal) (old : Nat) :
    s'.recorded old = s.recorded old := by
  rw [recorded, h, recorded]

theorem Accounted.same {s' : Sampler} (h : s.Accounted old) (hjournal : s'.monitor.journal = s.monitor.journal)
    (hkept : ∀ k, k ∈ s.monitor.guard.suppressed ∨ s.inHand = some k →
      k ∈ s'.monitor.guard.suppressed ∨ s'.inHand = some k) : s'.Accounted old := by
  have hrecorded := recorded_congr hjournal old
  refine ⟨hjournal ▸ h.length, hrecorded ▸ h.once, fun k hk => hkept k (h.handled k ?_)⟩
  rwa [← hrecorded]

theorem sample_accounts {m : ResourceMonitor} (h : (Sampler.mk m .sampling).Accounted old) {a : LoopAnswers}
    (ha : a.append ≠ .unsynced) : ((Sampler.mk m .sampling).step (.loop a)).Accounted old ∧
      ∀ k ∈ ((Sampler.mk m .sampling).step (.loop a)).recorded old,
        k ∈ (Sampler.mk m .sampling).recorded old ∨ ∃ e ∈ m.managed, e.key = k := by
  have hsuppressed : ((Sampler.mk m .sampling).step (.loop a)).monitor.guard.suppressed = m.guard.suppressed :=
    (ResourceMonitor.sampleOnce_keeps ..).2.2.1
  -- between two turns of the loop nothing is in hand
  have hidle : ∀ k ∈ (Sampler.mk m .sampling).recorded old, k ∈ m.guard.suppressed := fun k hk =>
    (h.handled k hk).elim (fun hs => hs) fun hnone => by cases hnone
  rcases m.sampleOnce_records a.memory a.sample a.eventId a.append with
    ⟨hjournal, -⟩ | ⟨d, hmanaged, hlive, -, hjournal, hpending⟩
  · have hrecorded : ((Sampler.mk m .sampling).step (.loop a)).recorded old = _ :=
      recorded_congr (s := ⟨m, .sampling⟩) hjournal old
    refine ⟨h.same hjournal fun k hk => .inl ?_, fun k hk => .inl (hrecorded ▸ hk)⟩
    rw [hsuppressed]
    exact hk.elim (fun hs => hs) fun hnone => by cases hnone
  · have hrecorded : ((Sampler.mk m .sampling).step (.loop a)).recorded old =
        (Sampler.mk m .sampling).recorded old ++ [d.key] := by
      show ((m.sampleOnce a.memory a.sample a.eventId a.append).journal.drop old).map _ = _
      rw [hjournal, List.drop_append_of_le_length h.length, List.map_append, List.map_singleton]
      rfl
    refine ⟨⟨?_, ?_, fun k hk => ?_⟩, fun k hk => ?_⟩
    · show old ≤ (m.sampleOnce a.memory a.sample a.eventId a.append).journal.length
      rw [hjournal, List.length_append]
      exact Nat.le_add_right_of_le h.length
    · rw [hrecorded, List.nodup_append]
      refine ⟨h.once, List.nodup_singleton _, fun k hk k' hk' => ?_⟩
      rw [List.mem_singleton.mp hk']
      exact fun heq => hlive (heq ▸ hidle k hk)
    · rw [hrecorded] at hk
      rcases List.mem_append.mp hk with hk | hk
      · exact .inl (hsuppressed ▸ hidle k hk)
      · rw [List.mem_singleton.mp hk]
        exact .inr (congrArg (Option.map EmergencyDecision.key) (hpending ha))
    · rw [hrecorded] at hk
      rcases List.mem_append.mp hk with hk | hk
      · exact .inl hk
      · exact .inr (List.mem_singleton.mp hk ▸ hmanaged)

theorem step_accounts (h : s.Accounted old) {ev : SamplerEvent} (hev : s.settles ev = true) :
    (s.step ev).Accounted old ∧
      ∀ k ∈ (s.step ev).recorded old, k ∈ s.recorded old ∨ ∃ e ∈ s.monitor.managed, e.key = k := by
  cases ev with
  | observe memory observed phase => exact ⟨h.same rfl fun k hk => hk, fun k hk => .inl hk⟩
  | forget id generation => exact ⟨h.same rfl fun k hk => hk, fun k hk => .inl hk⟩
  | loop a =>
    obtain ⟨m, loop⟩ := s
    cases loop with
    | sampling => exact sample_accounts h (of_decide_eq_true hev)
    | taking =>
      unfold step
      dsimp only
      split
      · next hpending =>
        refine ⟨h.same rfl fun k hk => ?_, fun k hk => .inl hk⟩
        simpa [inHand, hpending] using hk
      · next decision hpending =>
        refine ⟨h.same rfl fun k hk => ?_, fun k hk => .inl hk⟩
        simpa [inHand, hpending] using hk
    | actuating decision =>
      obtain ⟨expected, hexpected⟩ := Option.isSome_iff_exists.mp hev
      unfold step
      dsimp only
      rw [hexpected]
      exact ⟨h.same rfl fun k hk => hk, fun k hk => .inl hk⟩
    | disabling decision expected =>
      have hdone : actuated a decision expected = true := hev
      unfold step
      dsimp only
      rw [if_pos hdone]
      refine ⟨h.same rfl fun k hk => .inl ?_, fun k hk => .inl hk⟩
      rcases hk with hk | hk
      · exact List.mem_cons_of_mem _ hk
      · obtain rfl := Option.some.inj hk
        exact List.mem_cons_self

end

theorem after_managed (policy : ResourcePolicy) (journal : List EmergencyRecord) (events : List SamplerEvent) :
    ∀ e ∈ (after policy journal events).monitor.managed, e.key ∈ managedEver events := by
  induction events using List.reverseRecOn with
  | nil => simp [after, start, ResourceMonitor.new]
  | append_singleton events ev ih =>
    intro e he
    rw [after_append] at he
    rw [managedEver, List.filterMap_append]
    rcases step_managed he with ⟨e', he', hkey⟩ | ⟨memory, observed, phase, rfl, hkey⟩
    · exact List.mem_append_left _ (hkey ▸ ih e' he')
    · exact List.mem_append_right _ (List.mem_singleton.mpr hkey)

theorem after_accounts {policy : ResourcePolicy} {journal : List EmergencyRecord} {events : List SamplerEvent}
    (h : (start policy journal).settled events = true) : (after policy journal events).Accounted journal.length ∧
      ∀ k ∈ (after policy journal events).recorded journal.length, k ∈ managedEver events := by
  induction events using List.reverseRecOn with
  | nil =>
    have hnone : (start policy journal).recorded journal.length = [] := by
      rw [recorded, start, ResourceMonitor.new, List.drop_length, List.map_nil]
    refine ⟨⟨le_rfl, ?_, ?_⟩, ?_⟩
    all_goals
      show _
      simp [after, hnone]
  | append_singleton events ev ih =>
    rw [settled_append, Bool.and_eq_true] at h
    obtain ⟨haccounted, hever⟩ := ih h.1
    obtain ⟨hnext, hmore⟩ := step_accounts haccounted h.2
    rw [after_append]
    refine ⟨hnext, fun k hk => ?_⟩
    rw [managedEver, List.filterMap_append]
    rcases hmore k hk with hk | ⟨e, he, rfl⟩
    · exact List.mem_append_left _ (hever k hk)
    · exact List.mem_append_left _ (after_managed policy journal events e he)

theorem journalled_once (policy : ResourcePolicy) (journal : List EmergencyRecord) (events : List SamplerEvent)
    (h : (start policy journal).settled events = true) :
    ((after policy journal events).recorded journal.length).Nodup ∧
      ∀ k ∈ (after policy journal events).recorded journal.length, k ∈ managedEver events := by
  obtain ⟨haccounted, hever⟩ := after_accounts h
  exact ⟨haccounted.once, hever⟩

def unstoppable : LoopAnswers where
  memory := fun _ => none
  sample := some pressedSample
  eventId := "e"
  append := .done
  disableRestart := fun _ => none
  cgroup := fun _ => .ok ()

def stopping : LoopAnswers :=
  { unstoppable with
    disableRestart := fun input => if input.instanceId = "i_b" then some waitingEngine else some exitedEngine }

/-- `i_a` is recorded and stopped, and the next breaching sample records `i_b`. -/
theorem two_records_once : (start pressedPolicy []).settled (both ++ List.replicate 5 (.loop stopping)) = true ∧
    (after pressedPolicy [] (both ++ List.replicate 5 (.loop stopping))).recorded 0 = [("i_a", 2), ("i_b", 1)] ∧
    ((after pressedPolicy [] (both ++ List.replicate 5 (.loop stopping))).recorded 0).Nodup := by
  have hsettled : (start pressedPolicy []).settled (both ++ List.replicate 5 (.loop stopping)) = true := by
    decide +kernel
  exact ⟨hsettled, by decide +kernel, (journalled_once pressedPolicy [] _ hsettled).1⟩

theorem record_repeated : (after pressedPolicy [] (lone ++ List.replicate 5 (.loop unstoppable))).recorded 0 =
    [("i_b", 1), ("i_b", 1)] := by
  decide +kernel

end Sampler

end Sparkplane

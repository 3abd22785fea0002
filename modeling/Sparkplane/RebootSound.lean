import Mathlib.Data.List.Nodup
import Sparkplane.Resources

/-!
# Admission is exact

`evaluate_admission` against what it is to decide, and against the check that
reconciliation makes of the same set after a reboot.
-/

namespace Sparkplane

section
variable (policy : ResourcePolicy) (snapshot : HostResourceSnapshot) (request : AdmissionRequest) (now : Nat)

def envelopeBytes (envelopes : List DeclaredEnvelope) : Nat := (envelopes.map (·.coldStartPeakBytes)).sum

def AdmissionRequest.rebootBytes : Nat :=
  request.candidate.coldStartPeakBytes +
    envelopeBytes (request.desired.filter fun i => i.instanceName ≠ request.candidate.instanceName)

def AdmissionRequest.startBytes : Nat :=
  request.candidate.incrementalStartPeakBytes -
    envelopeBytes (request.desired.filter fun i => i.instanceName = request.candidate.instanceName)

def Admissible : Prop :=
  snapshot.isComplete = true ∧
  (snapshot.observedAtUnixMs ≤ now ∧ now - snapshot.observedAtUnixMs ≤ policy.maxSnapshotAgeMs) ∧
  (∃ total, snapshot.memTotalBytes = some total ∧ request.rebootBytes < 2 ^ 64 ∧ policy.systemReserveBytes ≤ total ∧
    request.rebootBytes ≤ total - policy.systemReserveBytes) ∧
  (∃ available, snapshot.memAvailableBytes = some available ∧ request.startBytes ≤ available ∧
    policy.systemReserveBytes ≤ available - request.startBytes) ∧
  (∃ disk, snapshot.diskAvailableBytes = some disk ∧ request.candidate.requiredDiskBytes ≤ disk ∧
    policy.diskReserveBytes ≤ disk - request.candidate.requiredDiskBytes) ∧
  snapshot.calm policy = true ∧ request.compatibilityVerified = true ∧ request.guardHealthy = true

end

def putEnvelope (e : DeclaredEnvelope) (desired : List DeclaredEnvelope) : List DeclaredEnvelope :=
  if desired.any fun i => i.instanceName = e.instanceName then
    desired.map fun i => if i.instanceName = e.instanceName then e else i
  else desired ++ [e]

section
variable {policy : ResourcePolicy} {snapshot : HostResourceSnapshot} {request : AdmissionRequest} {now : Nat}
  {desired : List DeclaredEnvelope} {name : String}

theorem filter_same_of_notMem (h : name ∉ desired.map (·.instanceName)) :
    desired.filter (fun i => i.instanceName = name) = [] ∧ desired.filter (fun i => i.instanceName ≠ name) = desired := by
  have hne : ∀ i ∈ desired, i.instanceName ≠ name := fun i hi e => h (List.mem_map.mpr ⟨i, hi, e⟩)
  simp only [List.filter_eq_nil_iff, List.filter_eq_self, decide_eq_true_eq]
  exact ⟨hne, hne⟩

theorem replacedBytes_of_nodup (h : (request.desired.map (·.instanceName)).Nodup) : request.replacedBytes =
    envelopeBytes (request.desired.filter fun i => i.instanceName = request.candidate.instanceName) := by
  unfold AdmissionRequest.replacedBytes
  generalize request.desired = desired at h ⊢
  induction desired with
  | nil => rfl
  | cons i desired ih =>
    rw [List.map_cons, List.nodup_cons] at h
    by_cases hi : i.instanceName = request.candidate.instanceName
    · rw [hi] at h
      simp [hi, envelopeBytes, (filter_same_of_notMem h.1).1]
    · simpa [hi] using ih h.2

theorem envelopeBytes_put (h : (desired.map (·.instanceName)).Nodup) (e : DeclaredEnvelope) :
    envelopeBytes (putEnvelope e desired) =
      e.coldStartPeakBytes + envelopeBytes (desired.filter fun i => i.instanceName ≠ e.instanceName) := by
  induction desired with
  | nil => simp [putEnvelope, envelopeBytes]
  | cons i desired ih =>
    rw [List.map_cons, List.nodup_cons] at h
    by_cases hi : i.instanceName = e.instanceName
    · have hrest : ∀ j ∈ desired, j.instanceName ≠ e.instanceName :=
        fun j hj he => h.1 (List.mem_map.mpr ⟨j, hj, he.trans hi.symm⟩)
      have hmap : desired.map (fun j => if j.instanceName = e.instanceName then e else j) = desired := by
        rw [List.map_congr_left fun j hj => if_neg (hrest j hj), List.map_id']
      have hfilter : desired.filter (fun j => !decide (j.instanceName = e.instanceName)) = desired := by simpa using hrest
      simp [putEnvelope, hi, hmap, hfilter, envelopeBytes]
    · have ih := ih h.2
      by_cases hany : desired.any (fun j => j.instanceName = e.instanceName) = true
      all_goals
        simp only [putEnvelope, hany, List.any_cons, hi, decide_false, Bool.false_or, if_true, if_false,
          envelopeBytes, List.map_cons, List.sum_cons, List.cons_append, Bool.false_eq_true] at ih ⊢
        rw [List.filter_cons_of_pos (by simpa using hi), List.map_cons, List.sum_cons, ih]
        omega

theorem admitted_iff_admissible (hnames : (request.desired.map (·.instanceName)).Nodup)
    (hpeak : request.candidate.coldStartPeakBytes < 2 ^ 64) :
    (evaluateAdmission policy snapshot request now).admitted = true ↔ Admissible policy snapshot request now := by
  have hfresh : snapshot.stale policy now = false ↔ snapshot.observedAtUnixMs ≤ now ∧
      now - snapshot.observedAtUnixMs ≤ policy.maxSnapshotAgeMs := by
    simp [HostResourceSnapshot.stale]
  have hreboot : (∃ used capacity, request.aggregate = some used ∧ snapshot.rebootCapacity policy = some capacity ∧
      used ≤ capacity) ↔ ∃ total, snapshot.memTotalBytes = some total ∧ request.rebootBytes < 2 ^ 64 ∧
        policy.systemReserveBytes ≤ total ∧ request.rebootBytes ≤ total - policy.systemReserveBytes := by
    constructor
    · rintro ⟨used, capacity, hused, hcapacity, hle⟩
      obtain ⟨total, htotal, hcapacity⟩ := Option.bind_eq_some_iff.mp hcapacity
      obtain ⟨hreserve, rfl⟩ := checkedSub_eq_some.mp hcapacity
      have hsum := checkedSum_eq hused
      have hlt := checkedSum_lt hpeak hused
      rw [hsum] at hlt hle
      exact ⟨total, htotal, hlt, hreserve, hle⟩
    · rintro ⟨total, htotal, hlt, hreserve, hle⟩
      refine ⟨_, _, checkedSum_of_lt hlt, ?_, hle⟩
      simp [HostResourceSnapshot.rebootCapacity, htotal, checkedSub, hreserve]
  have hleft : ∀ (o : Option Nat) (need reserve : Nat), (∃ left, o.bind (checkedSub · need) = some left ∧
      reserve ≤ left) ↔ ∃ available, o = some available ∧ need ≤ available ∧ reserve ≤ available - need := by
    intro o need reserve
    cases o with
    | none => simp
    | some available => simp [checkedSub_eq_some, and_assoc]
  rw [admitted_iff, hfresh, hreboot, hleft, hleft, replacedBytes_of_nodup hnames]
  unfold Admissible AdmissionRequest.startBytes
  tauto

theorem persistentSet_fits {total : Nat} (hcomplete : snapshot.isComplete = true)
    (hfresh : snapshot.stale policy now = false) (htotal : snapshot.memTotalBytes = some total)
    (hreserve : policy.systemReserveBytes ≤ total) (hlt : envelopeBytes desired < 2 ^ 64)
    (hle : envelopeBytes desired ≤ total - policy.systemReserveBytes) (hcalm : snapshot.calm policy = true) :
    persistentSetFitsRebootEnvelope policy snapshot desired now = true := by
  have hsum : checkedSum 0 (desired.map DeclaredEnvelope.coldStartPeakBytes) = some (envelopeBytes desired) := by
    rw [checkedSum_of_lt (by simpa [envelopeBytes] using hlt), Nat.zero_add]
    rfl
  simp [persistentSetFitsRebootEnvelope, hcomplete, hfresh, hsum, HostResourceSnapshot.rebootCapacity, htotal,
    checkedSub, hreserve, hle, hcalm]

theorem admission_exact (policy : ResourcePolicy) (snapshot : HostResourceSnapshot) (request : AdmissionRequest)
    (now : Nat) (hnames : (request.desired.map (·.instanceName)).Nodup)
    (hpeak : request.candidate.coldStartPeakBytes < 2 ^ 64) :
    ((evaluateAdmission policy snapshot request now).admitted = true ↔ Admissible policy snapshot request now) ∧
    ((evaluateAdmission policy snapshot request now).admitted = true → ∀ id, persistentSetFitsRebootEnvelope policy
      snapshot (putEnvelope ⟨id, request.candidate.instanceName, request.candidate.coldStartPeakBytes⟩ request.desired)
      now = true) := by
  refine ⟨admitted_iff_admissible hnames hpeak, ?_⟩
  intro hadmitted id
  obtain ⟨hcomplete, _, ⟨total, htotal, hlt, hreserve, hle⟩, _, _, hcalm, _⟩ :=
    (admitted_iff_admissible hnames hpeak).mp hadmitted
  have hbytes := envelopeBytes_put hnames ⟨id, request.candidate.instanceName, request.candidate.coldStartPeakBytes⟩
  exact persistentSet_fits hcomplete (admitted_iff.mp hadmitted).1 htotal hreserve (by rw [hbytes]; exact hlt)
    (by rw [hbytes]; exact hle) hcalm

def secondStart : AdmissionRequest :=
  ⟨[⟨"i_a", "a", 4⟩, ⟨"i_b", "b", 2⟩], ⟨"a", 4, 4, 1⟩, true, true⟩

theorem second_start_exact : let policy : ResourcePolicy := .capacityFirst
    let snapshot : HostResourceSnapshot :=
      ⟨0, some (8 * gibBytes + 6), some (8 * gibBytes), some (.finite 0), some 0, some (100 * gibBytes + 1)⟩
    Admissible policy snapshot secondStart 0 ∧
      persistentSetFitsRebootEnvelope policy snapshot [⟨"i_a", "a", 4⟩, ⟨"i_b", "b", 2⟩] 0 = true := by
  intro policy snapshot
  have hadmitted : (evaluateAdmission policy snapshot secondStart 0).admitted = true := by decide +kernel
  obtain ⟨hiff, hfits⟩ := admission_exact policy snapshot secondStart 0 (by decide) (by decide)
  exact ⟨hiff.mp hadmitted, hfits hadmitted "i_a"⟩

end

end Sparkplane

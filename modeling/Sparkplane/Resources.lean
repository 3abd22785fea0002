import Mathlib.Algebra.GroupWithZero.Nat
import Mathlib.Data.List.Basic

/-!
# Memory admission

`resources.rs`: the admission decision for one more engine, the reboot check
that reconciliation repeats, and the process-wide transition lease. Byte counts
are `u64` in the code: sums are checked against `2 ^ 64` where it checks them.
-/

namespace Sparkplane

/-- A pressure reading, an `f64`. -/
inductive Psi where
  | finite (percent : Rat)
  | infinite (positive : Bool)
  | nan
  deriving DecidableEq

/-- The threshold is finite: `policy` refuses every other one. -/
structure ResourcePolicy where
  systemReserveBytes : Nat
  emergencyAvailableFloorBytes : Nat
  diskReserveBytes : Nat
  startupGuardIntervalMs : Nat
  steadyGuardIntervalMs : Nat
  emergencyConsecutiveSamples : Nat
  memoryFullPsiAvg10Percent : Rat
  deriving DecidableEq

def gibBytes : Nat := 1073741824

def ResourcePolicy.capacityFirst : ResourcePolicy := ⟨8 * gibBytes, 8 * gibBytes, 100 * gibBytes, 500, 2000, 3, 2⟩

structure HostResourceSnapshot where
  observedAtUnixMs : Nat
  memTotalBytes : Option Nat
  memAvailableBytes : Option Nat
  memoryFullPsiAvg10Percent : Option Psi
  swapInPagesDelta : Option Nat
  diskAvailableBytes : Option Nat
  deriving DecidableEq

structure DeclaredEnvelope where
  instanceId : String
  instanceName : String
  coldStartPeakBytes : Nat
  deriving DecidableEq

structure CandidateEnvelope where
  instanceName : String
  coldStartPeakBytes : Nat
  incrementalStartPeakBytes : Nat
  requiredDiskBytes : Nat
  deriving DecidableEq

structure AdmissionRequest where
  desired : List DeclaredEnvelope
  candidate : CandidateEnvelope
  compatibilityVerified : Bool
  guardHealthy : Bool

structure AdmissionReport where
  admitted : Bool
  problemCodes : List String
  aggregateColdStartBytes : Option Nat
  rebootCapacityBytes : Option Nat
  liveAvailableAfterStartBytes : Option Nat
  diskAvailableAfterStartBytes : Option Nat

/-! ## Checked arithmetic -/

def checkedAdd (a b : Nat) : Option Nat := if a + b < 2 ^ 64 then some (a + b) else none

def checkedSub (a b : Nat) : Option Nat := if b ≤ a then some (a - b) else none

def saturatingMul (a b : Nat) : Nat := min (a * b) (2 ^ 64 - 1)

/-- `try_fold` with `checked_add`. -/
def checkedSum (start : Nat) : List Nat → Option Nat
  | [] => some start
  | n :: l => (checkedAdd start n).bind (checkedSum · l)

theorem checkedSum_eq {start total : Nat} : ∀ {l : List Nat}, checkedSum start l = some total → total = start + l.sum
  | [], h => by simpa [checkedSum, eq_comm] using h
  | n :: l, h => by
    obtain ⟨s, hs, hl⟩ := Option.bind_eq_some_iff.mp h
    unfold checkedAdd at hs
    split at hs
    · cases hs
      rw [checkedSum_eq hl, List.sum_cons, Nat.add_assoc]
    · cases hs

theorem checkedSum_lt {start total : Nat} : ∀ {l : List Nat}, start < 2 ^ 64 → checkedSum start l = some total →
    total < 2 ^ 64
  | [], hs, h => Option.some.inj h ▸ hs
  | n :: l, _, h => by
    obtain ⟨s, hs, hl⟩ := Option.bind_eq_some_iff.mp h
    unfold checkedAdd at hs
    split at hs
    · next hlt => exact checkedSum_lt (Option.some.inj hs ▸ hlt) hl
    · cases hs

theorem checkedSum_of_lt {start : Nat} : ∀ {l : List Nat}, start + l.sum < 2 ^ 64 →
    checkedSum start l = some (start + l.sum)
  | [], _ => rfl
  | n :: l, h => by
    rw [List.sum_cons, ← Nat.add_assoc] at h ⊢
    have hn : start + n < 2 ^ 64 := by omega
    rw [checkedSum, checkedAdd, if_pos hn]
    exact checkedSum_of_lt h

theorem checkedSub_eq_some {a b c : Nat} : checkedSub a b = some c ↔ b ≤ a ∧ c = a - b := by
  unfold checkedSub
  by_cases h : b ≤ a
  · simp [h, eq_comm]
  · simp [h]

/-! ## Admission -/

def ResourcePolicy.maxSnapshotAgeMs (p : ResourcePolicy) : Nat := saturatingMul p.steadyGuardIntervalMs 2

namespace HostResourceSnapshot

def isComplete (s : HostResourceSnapshot) : Bool :=
  s.memTotalBytes.isSome && s.memAvailableBytes.isSome && s.memoryFullPsiAvg10Percent.isSome &&
    s.swapInPagesDelta.isSome && s.diskAvailableBytes.isSome

def stale (s : HostResourceSnapshot) (p : ResourcePolicy) (now : Nat) : Bool :=
  now < s.observedAtUnixMs || p.maxSnapshotAgeMs < now - s.observedAtUnixMs

def rebootCapacity (s : HostResourceSnapshot) (p : ResourcePolicy) : Option Nat :=
  s.memTotalBytes.bind (checkedSub · p.systemReserveBytes)

/-- Below the pressure threshold and not swapping in. -/
def calm (s : HostResourceSnapshot) (p : ResourcePolicy) : Bool :=
  (match s.memoryFullPsiAvg10Percent with
   | some (.finite psi) => psi < p.memoryFullPsiAvg10Percent
   | _ => false) &&
    s.swapInPagesDelta = some 0

end HostResourceSnapshot

def AdmissionRequest.replacedBytes (r : AdmissionRequest) : Nat :=
  match r.desired.find? fun i => i.instanceName = r.candidate.instanceName with
  | some i => i.coldStartPeakBytes
  | none => 0

def AdmissionRequest.aggregate (r : AdmissionRequest) : Option Nat :=
  checkedSum r.candidate.coldStartPeakBytes ((r.desired.filter fun i => i.instanceName ≠ r.candidate.instanceName).map
      DeclaredEnvelope.coldStartPeakBytes)

def isNoneOr {α : Type} (o : Option α) (p : α → Bool) : Bool :=
  match o with
  | some a => p a
  | none => true

def evaluateAdmission (policy : ResourcePolicy) (snapshot : HostResourceSnapshot)
    (request : AdmissionRequest) (now : Nat) : AdmissionReport :=
  let aggregate := request.aggregate
  let rebootCapacity := snapshot.rebootCapacity policy
  let liveAfter := snapshot.memAvailableBytes.bind
    (checkedSub · (request.candidate.incrementalStartPeakBytes - request.replacedBytes))
  let diskAfter := snapshot.diskAvailableBytes.bind (checkedSub · request.candidate.requiredDiskBytes)
  let problems :=
    (if snapshot.stale policy now then ["spark.resources.telemetry-stale"] else []) ++
    (if !snapshot.isComplete then ["spark.resources.telemetry-missing"] else []) ++
    (if isNoneOr (aggregate.bind fun used => rebootCapacity.map (used, ·)) (fun x => x.2 < x.1) ||
        isNoneOr liveAfter (· < policy.systemReserveBytes)
      then ["spark.memory.admission-rejected"] else []) ++
    (if isNoneOr diskAfter (· < policy.diskReserveBytes) then ["spark.disk.reserve"] else []) ++
    (if !snapshot.calm policy then ["spark.resources.pressure"] else []) ++
    (if !request.compatibilityVerified then ["spark.engine.unsupported"] else []) ++
    (if !request.guardHealthy then ["spark.executor.guard-unhealthy"] else [])
  { admitted := problems.isEmpty
    problemCodes := problems
    aggregateColdStartBytes := aggregate
    rebootCapacityBytes := rebootCapacity
    liveAvailableAfterStartBytes := liveAfter
    diskAvailableAfterStartBytes := diskAfter }

def persistentSetFitsRebootEnvelope (policy : ResourcePolicy) (snapshot : HostResourceSnapshot)
    (desired : List DeclaredEnvelope) (now : Nat) : Bool :=
  snapshot.isComplete && !snapshot.stale policy now &&
    (match checkedSum 0 (desired.map DeclaredEnvelope.coldStartPeakBytes), snapshot.rebootCapacity policy with
     | some used, some capacity => used ≤ capacity
     | _, _ => false) &&
    snapshot.calm policy

theorem isNoneOr_eq_false {α : Type} {o : Option α} {p : α → Bool} :
    isNoneOr o p = false ↔ ∃ a, o = some a ∧ p a = false := by
  cases o <;> simp [isNoneOr]

section
variable {policy : ResourcePolicy} {snapshot : HostResourceSnapshot} {request : AdmissionRequest} {now : Nat}

theorem admitted_iff : (evaluateAdmission policy snapshot request now).admitted = true ↔
    snapshot.stale policy now = false ∧ snapshot.isComplete = true ∧
      (∃ used capacity, request.aggregate = some used ∧ snapshot.rebootCapacity policy = some capacity ∧
        used ≤ capacity) ∧
      (∃ left, snapshot.memAvailableBytes.bind
        (checkedSub · (request.candidate.incrementalStartPeakBytes - request.replacedBytes)) = some left ∧
        policy.systemReserveBytes ≤ left) ∧
      (∃ left, snapshot.diskAvailableBytes.bind (checkedSub · request.candidate.requiredDiskBytes) = some left ∧
        policy.diskReserveBytes ≤ left) ∧
      snapshot.calm policy = true ∧ request.compatibilityVerified = true ∧ request.guardHealthy = true := by
  have hnil : ∀ (b : Bool) (s : String), (if b then [s] else []) = [] ↔ b = false := by simp
  simp only [evaluateAdmission, List.isEmpty_iff, List.append_eq_nil_iff, hnil, Bool.or_eq_false_iff,
    isNoneOr_eq_false, Bool.not_eq_false', decide_eq_false_iff_not, Nat.not_lt]
  constructor
  · rintro ⟨⟨⟨⟨⟨⟨h1, h2⟩, ⟨x, hx, hle⟩, h4⟩, h5⟩, h6⟩, h7⟩, h8⟩
    obtain ⟨used, hu, hx⟩ := Option.bind_eq_some_iff.mp hx
    obtain ⟨capacity, hc, rfl⟩ := Option.map_eq_some_iff.mp hx
    exact ⟨h1, h2, ⟨used, capacity, hu, hc, hle⟩, h4, h5, h6, h7, h8⟩
  · rintro ⟨h1, h2, ⟨used, capacity, hu, hc, hle⟩, h4, h5, h6, h7, h8⟩
    exact ⟨⟨⟨⟨⟨⟨h1, h2⟩, ⟨(used, capacity), by simp [hu, hc], hle⟩, h4⟩, h5⟩, h6⟩, h7⟩, h8⟩

theorem admitted_fits (h : (evaluateAdmission policy snapshot request now).admitted = true) :
    ∃ total, snapshot.memTotalBytes = some total ∧ policy.systemReserveBytes ≤ total ∧
      request.candidate.coldStartPeakBytes +
        ((request.desired.filter fun i => i.instanceName ≠ request.candidate.instanceName).map
          DeclaredEnvelope.coldStartPeakBytes).sum ≤ total - policy.systemReserveBytes := by
  obtain ⟨_, _, ⟨used, capacity, hused, hcapacity, hle⟩, _⟩ := admitted_iff.mp h
  obtain ⟨total, htotal, hcapacity⟩ := Option.bind_eq_some_iff.mp hcapacity
  obtain ⟨hreserve, rfl⟩ := checkedSub_eq_some.mp hcapacity
  exact ⟨total, htotal, hreserve, checkedSum_eq hused ▸ hle⟩

end

/-! ## The transition lease -/

/-- One high-memory transition at a time; the holder is named. -/
structure TransitionCoordinator where
  holder : Option String := none

namespace TransitionCoordinator

/-- None when another transition holds the lease. -/
def tryAcquire (c : TransitionCoordinator) (leaseId : String) : Option TransitionCoordinator :=
  match c.holder with
  | some _ => none
  | none => some ⟨some leaseId⟩

/-- `TransitionLease::drop`. -/
def release (c : TransitionCoordinator) (leaseId : String) : TransitionCoordinator :=
  if c.holder = some leaseId then ⟨none⟩ else c

end TransitionCoordinator

end Sparkplane

import Mathlib.Data.Prod.Lex
import Mathlib.Data.String.Basic
import Sparkplane.Effects
import Sparkplane.Resources

/-!
# The executor's emergency guard

`ResourceMonitor` and `resource_sampling_loop` of `executor.rs`, `EmergencyGuard`
and `kill_managed_cgroup` of `resources.rs`. One task takes a sample, asks the
guard for a victim, and stops it; the handlers of the socket add and remove
engines meanwhile, between any two of its steps.

The locks are never poisoned: nothing panics while it holds one. The sleep
between two samples and the heartbeat are left out.
-/

namespace Sparkplane

inductive EnginePhase where
  | starting
  | tuning
  | healthy
  | stopping
  | failed
  deriving DecidableEq

def EnginePhase.transitional : EnginePhase → Bool
  | .starting | .tuning => true
  | _ => false

structure ManagedEngine where
  instanceId : String
  generation : Nat
  phase : EnginePhase
  startedSequence : Nat
  memoryBytes : Nat
  previousMemoryBytes : Nat
  deriving DecidableEq

structure ManagedCgroupIdentity where
  managedLabel : Bool
  engineRole : String
  instanceId : String
  generation : Nat
  containerId : String
  initPid : Nat
  pidStartTimeTicks : Nat
  cgroupPath : String
  deriving DecidableEq

/-- `ObservedEngine` with the two fields that only the executor reads. -/
structure InspectedEngine extends ObservedEngine where
  containerId : String
  cgroupPath : String

def InspectedEngine.identity (o : InspectedEngine) : ManagedCgroupIdentity where
  managedLabel := true
  engineRole := "engine"
  instanceId := o.instanceId
  generation := o.generation
  containerId := o.containerId
  initPid := o.initPid
  pidStartTimeTicks := o.pidStartTimeTicks
  cgroupPath := o.cgroupPath

/-! ## Choosing a victim -/

section
variable {α κ : Type} [LinearOrder κ] (key : α → κ)

def laterMax (best y : α) : α := if key y < key best then best else y

/-- `Iterator::max_by_key`: the last of the greatest. -/
def maxByKey : List α → Option α
  | [] => none
  | x :: xs => some (xs.foldl (laterMax key) x)

end

namespace ManagedEngine

def key (e : ManagedEngine) : String × Nat := (e.instanceId, e.generation)

def rank (e : ManagedEngine) : Nat ×ₗ String := toLex (e.startedSequence, e.instanceId)

end ManagedEngine

structure EmergencyGuard where
  policy : ResourcePolicy
  consecutiveFloorBreaches : Nat
  suppressed : List (String × Nat)
  deriving DecidableEq

def selectVictim (engines : List ManagedEngine) (suppressed : List (String × Nat)) : Option ManagedEngine :=
  let live := engines.filter fun e => !suppressed.contains e.key
  (maxByKey ManagedEngine.rank (live.filter fun e => e.phase.transitional)).or (maxByKey ManagedEngine.rank
      (live.filter fun e => e.phase = .healthy && e.previousMemoryBytes < e.memoryBytes))

namespace EmergencyGuard

def new (policy : ResourcePolicy) : EmergencyGuard := ⟨policy, 0, []⟩

def belowFloor (g : EmergencyGuard) (available : Nat) : Bool := available < g.policy.emergencyAvailableFloorBytes

def psiBreach (g : EmergencyGuard) : Psi → Bool
  | .finite psi => g.policy.memoryFullPsiAvg10Percent ≤ psi
  | .infinite positive => positive
  | .nan => false

/-- `u32::saturating_add`, or back to none. -/
def breaches (g : EmergencyGuard) (available : Nat) : Nat :=
  if g.belowFloor available then min (g.consecutiveFloorBreaches + 1) (2 ^ 32 - 1) else 0

def observe (g : EmergencyGuard) (snapshot : HostResourceSnapshot) (engines : List ManagedEngine) :
    Option EmergencyDecision × EmergencyGuard :=
  match snapshot.memAvailableBytes, snapshot.memoryFullPsiAvg10Percent with
  | some available, some psi =>
    let g' := { g with consecutiveFloorBreaches := g.breaches available }
    if !g.psiBreach psi && g'.consecutiveFloorBreaches < g.policy.emergencyConsecutiveSamples then (none, g')
    else
      ((selectVictim engines g.suppressed).map fun victim =>
        ⟨victim.instanceId, victim.generation,
          if g.psiBreach psi then "memory-full-psi" else "memory-available-floor"⟩, g')
  | _, _ => (none, g)

def suppress (g : EmergencyGuard) (decision : EmergencyDecision) : EmergencyGuard :=
  { g with suppressed := (decision.instanceId, decision.generation) :: g.suppressed }

end EmergencyGuard

def EmergencyRecord.fromDecision (eventId : String) (decision : EmergencyDecision) : EmergencyRecord :=
  ⟨"sparkplane.emergency-record/v1", eventId, decision⟩

/-! ## The monitor -/

/-- How `append_emergency_record` ended: `unsynced` is an error after the line was written. -/
inductive Appended where
  | done
  | unsynced
  | failed
  deriving DecidableEq

structure ResourceMonitor where
  latest : Option HostResourceSnapshot
  guard : EmergencyGuard
  managed : List ManagedEngine
  identities : Table (String × Nat) ManagedCgroupIdentity
  pendingEmergency : Option EmergencyDecision
  journal : List EmergencyRecord

namespace ResourceMonitor

/-- The journal is a file: it is there before the executor starts. -/
def new (policy : ResourcePolicy) (journal : List EmergencyRecord) : ResourceMonitor :=
  ⟨none, .new policy, [], .empty, none, journal⟩

/-- `memory` is what `cgroup_memory_current` reads. -/
def refreshManagedMemory (memory : String → Option Nat) (m : ResourceMonitor) : ResourceMonitor :=
  { m with managed := m.managed.map fun e =>
      match (m.identities.get? e.key).bind fun identity => memory identity.cgroupPath with
      | some current => { e with previousMemoryBytes := e.memoryBytes, memoryBytes := current }
      | none => e }

def observeEngine (memory : String → Option Nat) (observed : InspectedEngine) (phase : EnginePhase)
    (m : ResourceMonitor) : ResourceMonitor :=
  refreshManagedMemory memory
    { m with
      managed := m.managed.filter (fun e => e.instanceId ≠ observed.instanceId) ++
        [⟨observed.instanceId, observed.generation, phase, observed.generation, 0, 0⟩]
      identities := m.identities.upsert (observed.instanceId, observed.generation) observed.identity }

def forgetEngine (instanceId : String) (generation : Nat) (m : ResourceMonitor) : ResourceMonitor :=
  { m with
    managed := m.managed.filter fun e => e.instanceId ≠ instanceId || e.generation ≠ generation
    identities := m.identities.delete fun k _ => k = (instanceId, generation) }

def appendRecord (record : EmergencyRecord) (append : Appended) (m : ResourceMonitor) : ResourceMonitor :=
  match append with
  | .done => { m with journal := m.journal ++ [record], pendingEmergency := some record.decision }
  | .unsynced => { m with journal := m.journal ++ [record] }
  | .failed => m

def sampleOnce (memory : String → Option Nat) (sample : Option HostResourceSnapshot) (eventId : String)
    (append : Appended) (m : ResourceMonitor) : ResourceMonitor :=
  let m := m.refreshManagedMemory memory
  match sample.filter HostResourceSnapshot.isComplete with
  | none => m
  | some snapshot =>
    let observed := m.guard.observe snapshot m.managed
    let m := { m with latest := some snapshot, guard := observed.2 }
    match observed.1 with
    | none => m
    | some decision => m.appendRecord (.fromDecision eventId decision) append

def identity (decision : EmergencyDecision) (m : ResourceMonitor) : Option ManagedCgroupIdentity :=
  m.identities.get? (decision.instanceId, decision.generation)

def suppress (decision : EmergencyDecision) (m : ResourceMonitor) : ResourceMonitor :=
  { m with guard := m.guard.suppress decision }

end ResourceMonitor

/-! ## Stopping the victim -/

inductive CgroupKillError where
  | identityMismatch
  | unsafePath
  | io

/-- The components of a relative path that has plain names only. -/
def normalComponents (path : String) : Option (List String) :=
  match path.toList.splitOn '/' with
  | [] => some []
  | first :: rest =>
    let parts := first :: rest.filter fun part => part ≠ [] && part ≠ ['.']
    if (first = [] && rest ≠ []) || first = ['.'] || parts.contains ['.', '.'] then none
    else some ((parts.filter (· ≠ [])).map String.ofList)

def plainContainerId (id : String) : Bool :=
  id.utf8ByteSize = 64 && id.toList.all fun c => isAsciiDigit c || ('a' ≤ c && c ≤ 'f')

/-- `cgroup` is how the part that works on the file system ends. -/
def killManagedCgroup (cgroup : Except CgroupKillError Unit) (expected observed : ManagedCgroupIdentity) :
    Except CgroupKillError Unit :=
  if expected ≠ observed || !expected.managedLabel || expected.engineRole ≠ "engine" ||
      !plainContainerId expected.containerId then
    throw .identityMismatch
  else if normalComponents expected.cgroupPath ≠ some ["system.slice", s!"docker-{expected.containerId}.scope"] then
    throw .unsafePath
  else cgroup

/-! ## The sampling loop -/

inductive LoopState where
  | sampling
  | taking
  /-- In `actuate_emergency`, before the identity is looked up. -/
  | actuating (decision : EmergencyDecision)
  /-- Waiting for `disable_restart`. -/
  | disabling (decision : EmergencyDecision) (expected : ManagedCgroupIdentity)
  deriving DecidableEq

structure Sampler where
  monitor : ResourceMonitor
  loop : LoopState

structure LoopAnswers where
  memory : String → Option Nat
  sample : Option HostResourceSnapshot
  eventId : String
  append : Appended
  disableRestart : StopInstanceInput → Option InspectedEngine
  cgroup : ManagedCgroupIdentity → Except CgroupKillError Unit

inductive SamplerEvent where
  /-- `StartInstance` and `PromoteRestartPolicy` have a running engine. -/
  | observe (memory : String → Option Nat) (observed : InspectedEngine) (phase : EnginePhase)
  /-- `StopInstance` has removed an engine. -/
  | forget (instanceId : String) (generation : Nat)
  /-- The loop goes on; `answers` is what it finds if it asks. -/
  | loop (answers : LoopAnswers)

/-- The end of `actuate_emergency_at`, once the identity is known. -/
def actuated (answers : LoopAnswers) (decision : EmergencyDecision) (expected : ManagedCgroupIdentity) : Bool :=
  (answers.disableRestart ⟨decision.instanceId, decision.generation, 0⟩).any fun observed =>
    (killManagedCgroup (answers.cgroup expected) expected observed.identity).isOk

namespace Sampler

def start (policy : ResourcePolicy) (journal : List EmergencyRecord) : Sampler := ⟨.new policy journal, .sampling⟩

def step (s : Sampler) : SamplerEvent → Sampler
  | .observe memory observed phase => { s with monitor := s.monitor.observeEngine memory observed phase }
  | .forget instanceId generation => { s with monitor := s.monitor.forgetEngine instanceId generation }
  | .loop answers =>
    match s.loop with
    | .sampling =>
      ⟨s.monitor.sampleOnce answers.memory answers.sample answers.eventId answers.append, .taking⟩
    | .taking =>
      match s.monitor.pendingEmergency with
      | none => { s with loop := .sampling }
      | some decision => ⟨{ s.monitor with pendingEmergency := none }, .actuating decision⟩
    | .actuating decision =>
      match s.monitor.identity decision with
      | none => { s with loop := .sampling }
      | some expected => { s with loop := .disabling decision expected }
    | .disabling decision expected =>
      if actuated answers decision expected then ⟨s.monitor.suppress decision, .sampling⟩
      else { s with loop := .sampling }

end Sampler

end Sparkplane

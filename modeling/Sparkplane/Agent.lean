import Sparkplane.Access
import Sparkplane.Models

/-!
# The agent as a machine

The shared state of the process, what each effect does to it, and the program
of each task. The history is not part of the agent: no program reads it. It
remembers who holds the lease, which tasks were started, which operation's
`begin_serve` created which generation, and which token each task was asked to
revoke.
-/

namespace Sparkplane

structure History where
  owner : Option Nat := none
  spawned : List Job := []
  created : List (String × String × Nat) := []
  revocations : List (Nat × String) := []

structure World where
  db : Db := {}
  auth : AuthSnapshot := {}
  routes : RouteRegistry := .empty
  admission : TransitionCoordinator := {}
  cache : ModelCache := {}
  history : History := {}

/-- What one step meets: the values a command draws, how far the file system
gets before it fails, and the answers from outside. -/
structure Oracle where
  draw : Draw := {}
  io : Option Nat := none
  reply : (c : Outside) → c.Reply

/-! ## Effects on each part of the world -/

def Eff.writes : Eff → Option Command
  | .command c => some c
  | .beginServe _ inst => some (.beginServe inst)
  | _ => none

def Eff.onDb (E : Env) (d : Draw) (db : Db) (e : Eff) : Db :=
  match e.writes with
  | some c => c.run E d db
  | none => db

def Eff.onAuth (auth : AuthSnapshot) : Eff → AuthSnapshot
  | .storeAuth snapshot => snapshot
  | _ => auth

def Eff.onRoutes (routes : RouteRegistry) : Eff → RouteRegistry
  | .markWarming name generation => routes.markWarming name generation
  | .publish name publicModel servedModel upstream => routes.publish name publicModel servedModel upstream
  | .drain name generation => routes.drain name generation
  | _ => routes

def Eff.onAdmission (c : TransitionCoordinator) : Eff → TransitionCoordinator
  | .tryAcquire leaseId => (c.tryAcquire leaseId).getD c
  | .release leaseId => c.release leaseId
  | _ => c

def Eff.onCache (io : Option Nat) (cache : ModelCache) : Eff → ModelCache
  | .executeRemoval plan => (cache.executeRemoval plan io).2
  | _ => cache

def Eff.onOwner (t : Turn Oracle) (w : World) : Eff → Option Nat
  | .tryAcquire leaseId => if (w.admission.tryAcquire leaseId).isSome then some t.self else w.history.owner
  | .release leaseId => if w.admission.holder = some leaseId then none else w.history.owner
  | .spawn (.runServe ..) => if w.history.owner = some t.self then some t.fresh else w.history.owner
  | _ => w.history.owner

def Command.revokes (db : Db) : Command → Option String
  | .revokeToken _ _ tokenId => some tokenId
  | .finishLaunchSession id => (db.sessions.get? id).map SessionRow.tokenId
  | _ => none

def createdBy (operationId : String) : Except StateError Database.AcceptedInstance → List (String × String × Nat)
  | .ok a => if a.reused then [] else [(operationId, a.inst.id, a.inst.generation)]
  | .error _ => []

def Eff.onHistory (S : Site) (t : Turn Oracle) (w : World) (e : Eff) : History where
  owner := e.onOwner t w
  spawned := match e with
    | .spawn job => w.history.spawned ++ [job]
    | _ => w.history.spawned
  created := match e with
    | .beginServe operationId inst => w.history.created ++
        createdBy operationId (((Command.beginServe inst).exec S.env t.oracle.draw w.db).1)
    | _ => w.history.created
  revocations := match e.writes.bind (Command.revokes w.db) with
    | some token => w.history.revocations ++ [(t.self, token)]
    | none => w.history.revocations

/-! ## Steps -/

def Eff.after (S : Site) (t : Turn Oracle) (e : Eff) (w : World) : World where
  db := e.onDb S.env t.oracle.draw w.db
  auth := e.onAuth w.auth
  routes := e.onRoutes w.routes
  admission := e.onAdmission w.admission
  cache := e.onCache t.oracle.io w.cache
  history := e.onHistory S t w

def Eff.answer (S : Site) (t : Turn Oracle) (w : World) : (e : Eff) → e.Reply
  | .command c => (c.exec S.env t.oracle.draw w.db).1
  | .beginServe _ inst => ((Command.beginServe inst).exec S.env t.oracle.draw w.db).1
  | .query q => q.answer S.env t.oracle.draw.now w.db
  | .outside c => t.oracle.reply c
  | .lookup name => w.routes.lookup name
  | .tryAcquire leaseId => (w.admission.tryAcquire leaseId).isSome
  | .planRemoval repository commit active =>
    if t.oracle.io.isSome then none else w.cache.planRemoval repository commit active
  | .executeRemoval plan => (w.cache.executeRemoval plan t.oracle.io).1
  | .markWarming .. | .publish .. | .drain .. | .release _ | .storeAuth _ | .spawn _ => ()

def program (S : Site) : Job → Act Response
  | .createToken caller body => createToken S caller body
  | .revokeToken caller id => revokeToken S caller id
  | .createLaunchSession body => createLaunchSession body
  | .finishLaunchSession id => finishLaunchSession S id
  | .serveInstance caller body => serveInstance S caller body
  | .runServe operationId inst => runServe S operationId inst
  | .stopInstance caller id body => stopInstance S caller id body
  | .runStop operationId inst timeoutSeconds => runStop S operationId inst timeoutSeconds
  | .cancelOperation caller id => cancelOperation S caller id
  | .cancelPrehealthServe _ inst => do
    cancelPrehealthServe inst
    return .finished
  | .reconcile => do
    reconcileOnce S
    return .finished
  | .downloadModel caller body => downloadModel S caller body
  | .runDownload job => runDownload S job
  | .forwardProgress operationId => forwardProgress operationId
  | .removeModel caller id body => removeModel S caller id body

def Eff.starts : Eff → Option Job
  | .spawn job => some job
  | _ => none

abbrev Pool := Config World Job Eff Eff.Reply Response

def agent (S : Site) : Machine World Job Eff Eff.Reply Oracle Response where
  exec t e w := (e.answer S t w, e.after S t w)
  starts := Eff.starts
  code := program S

def starting (S : Site) (w : World) (jobs : List Job) : Pool := ⟨w, jobs.map fun j => (j, program S j)⟩

def Response.ok : Response → Bool
  | .problem .. => false
  | _ => true

def Response.reports (status : Nat) (code : String) : Response → Bool
  | .problem s c _ => s = status && c = code
  | _ => false

theorem Response.reports_iff {r : Response} {status : Nat} {code : String} :
    r.reports status code = true ↔ ∃ detail, r = .problem status code detail := by
  cases r <;> simp [reports]

def answeredOk (c : Pool) (i : Nat) : Bool :=
  match c.tasks[i]? with
  | some (_, .ret r) => r.ok
  | _ => false

section
variable {S : Site} {i : Nat} {w : World} {e : Eff}

theorem answeredOk_label {C : Rules World Job Eff Oracle} {c0 c : Pool}
    (hrun : (agent S).Runs C c0 c) {job : Job} {p : Act Response}
    (hi : c0.tasks[i]? = some (job, p)) (h : answeredOk c i = true) :
    ∃ r, c.tasks[i]? = some (job, .ret r) ∧ r.ok = true := by
  obtain ⟨p', hp'⟩ := hrun.label hi
  unfold answeredOk at h
  rw [hp'] at h
  cases p' with
  | ret r => exact ⟨r, hp', h⟩
  | op e k => cases h

/-! ## Effects that only look -/

def Eff.reads : Eff → Bool
  | .query _ | .outside _ | .lookup _ | .planRemoval .. => true
  | _ => false

theorem Eff.after_reads {t : Turn Oracle} (h : e.reads = true) : e.after S t w = w := by
  cases e <;> first | rfl | cases h

theorem Eff.starts_reads (h : e.reads = true) : e.starts = none := by
  cases e <;> first | rfl | cases h

theorem wp_reads {K : Machine.Contract (agent S)} {l : Job} {α : Type}
    {F : World → Prop}
    (hrely : ∀ e w w', e.reads = true → K.rely l i (some e) w w' → F w → F w')
    (hstands : ∀ e w, e.reads = true → K.inv w → F w → K.stands l i e w)
    (hguar : ∀ e w, e.reads = true → K.inv w → K.guar l i e w w)
    {p : Act α} (hp : p.Uses (·.reads = true)) (hw : F w) :
    Machine.wp K l i (fun _ => F) p w := by
  refine Machine.wp_uses hrely (fun e w he hi hF => ⟨hstands e w he hi hF, fun n o _ _ _ => ?_⟩) hp hw
  have hafter : ((agent S).exec ⟨i, n, o⟩ e w).2 = w := Eff.after_reads he
  rw [hafter]
  exact ⟨.alone (Eff.starts_reads he) hi (hguar e w he hi), hF⟩

theorem stateProblem_ok (e : StateError) : (stateProblem e).ok = false := by
  cases e <;> rfl

theorem requireExecutorForMutation_returns :
    requireExecutorForMutation.Returns fun r => ∀ response, r = some response → response.ok = false := by
  have problem : ∀ response, some requireExecutorForMutation.unavailable = some response →
      response.ok = false := fun _ h => Option.some.inj h ▸ rfl
  intro r
  cases r with
  | error e => exact problem
  | ok snapshot =>
    dsimp only [Prog.ret_bind]
    split
    · intro response h
      cases h
    · exact problem

theorem requireExecutorForMutation_uses {P : Eff → Prop} (h : P (.outside .snapshot)) :
    requireExecutorForMutation.Uses P := by
  refine ⟨h, fun r => ?_⟩
  dsimp only [Prog.ret_bind]
  cases r with
  | error e => trivial
  | ok snapshot =>
    dsimp only
    split <;> trivial

theorem requireExecutorForMutation_reads : requireExecutorForMutation.Uses (·.reads = true) :=
  requireExecutorForMutation_uses rfl

end

/-! ## A concrete site -/

def exampleSite : Site where
  env := exampleEnv
  token := "bootstrap"
  select _ := .ok ⟨"engine", "vllm", "image", "sha256:e3b0c44298fc1c149afbf4c8996fb92427ae41e4649b934ca495991b7852b855",
    .ok ⟨0, 8, 8, 0⟩, .ok ⟨4096, none⟩⟩
  resolveDownloadTarget r := .ok ⟨r.repository, r.revision, r.aliasName, ⟨"model.safetensors", [], none, true⟩⟩
  diskReserveBytes := 0
  parseAddress _ := true
  validRoute _ := true
  encodeError := ""
  instanceValue _ := none
  modelValue _ := none
  removalValue _ := none

def exampleHost : ExecutorSnapshot where
  resourcePolicy := .capacityFirst
  resources := ⟨0, some (8 * gibBytes + 10), some (8 * gibBytes + 10), some (.finite 0), some 0, some (100 * gibBytes)⟩
  guardHeartbeat := true
  eventHeartbeat := true

def exampleEngine (id : String) (generation : Nat) : ObservedEngine :=
  ⟨id, generation, "172.18.0.2", 8000, true, "unless-stopped", "m", 7, 7⟩

def exampleReply : (c : Outside) → c.Reply
  | .snapshot => .ok exampleHost
  | .candidateStorage _ => .ok ⟨true, 0, ""⟩
  | .prepareInstance input => .ok ⟨input, 60⟩
  | .startPrepared prepared => .ok (exampleEngine prepared.input.instanceId prepared.input.generation)
  | .promoteRestart input | .disableRestart input => .ok (exampleEngine input.instanceId input.generation)
  | .inspectInstance _ => .ok (some true)
  | .stopInstance _ => .ok ()
  | .logs _ => .ok []
  | .reconcileScan _ => .ok ⟨[], []⟩
  | .cancelQualification _ => .ok true
  | .healthReady _ => true
  | .semanticProbe .. => .ok ()
  | .unixMillis | .elapsedMillis | .polls => 0
  | .acquireOwned _ => true
  | .resolveSelected .. => .error ⟨.notFound, ""⟩
  | .acquire .. => .error ⟨.notFound, ""⟩
  | .receiveProgress => ⟨0, none, none⟩

def exampleTurn (d : Draw) : Oracle := { draw := d, reply := exampleReply }

def serveTurn (task : Nat) (operationId : String) : Nat × Oracle := (task, exampleTurn { operationId })

end Sparkplane

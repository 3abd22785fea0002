import Sparkplane.Ending

/-!
# Downloads end

`run_download` reports a failed resolution while its operation is still
`Accepted`, and `Accepted` to `Failed` is not a legal transition.
`download_ends`: with that case aside, the operation has ended when the task
has returned, whatever else the pool does.
-/

namespace Sparkplane

/-- The semaphore is open, and `fail_download` does not meet an operation that
is still accepted. -/
def downloadRules : Rules World Job Eff Oracle where
  allow l e o w := match l, e with
    | .runDownload _, .outside (.acquireOwned slot) => o.reply (.acquireOwned slot)
    | .runDownload _, .command (.transition id .failed ..) => w.operation id ≠ some .accepted
    | _, _ => true
  apart _ _ _ _ := true

section
variable (job : DownloadJob)

def downloadContract (S : Site) : Machine.Contract (agent S) where
  rules := downloadRules
  inv w := (w.db.operations.get? job.operationId).isSome = true
  rely _ _ _ w w' := OpStep w.db w'.db
  guar _ _ _ w w' := OpStep w.db w'.db
  born _ _ _ := True

def downloadPost (l : Job) (w : World) : Prop := l = .runDownload job → Ended job.operationId w

end

section
variable {job : DownloadJob} {S : Site} {l : Job} {i n : Nat} {e : Eff} {o : String} {w w' : World} {t : Oracle}

theorem downloadContract_advances : Advances (downloadContract job S) job.operationId where
  known h := h
  rely h := h
  stands _ _ _ _ := trivial
  pays _ i n e w t hi :=
    have hstep : OpStep w.db ((agent S).exec ⟨i, n, t⟩ e w).2.db := Eff.opStep S _ e w
    ⟨known_log hstep hi, hstep, fun _ _ => trivial⟩

theorem other_wp (hl : l ≠ .runDownload job) {p : Act Response} :
    Machine.wp (downloadContract job S) l i (fun _ => downloadPost job l) p w :=
  downloadContract_advances.keeps (F := downloadPost job l) (fun _ _ _ _ h => absurd h hl) fun h => absurd h hl

theorem fail_unresolved {problem : ProblemDocument} :
    Machine.wp (downloadContract job S) (.runDownload job) i (fun _ => Ended job.operationId)
      (failDownload job.operationId problem) w := by
  refine downloadContract_advances.op fun w1 n t _ hknown hallow => ?_
  obtain ⟨op, hop⟩ := Option.isSome_iff_exists.mp hknown
  have hop' : w1.operation job.operationId = some op.state := congrArg (Option.map _) hop
  have hne : w1.operation job.operationId ≠ some .accepted := of_decide_eq_true hallow
  exact ended_transition (.inr rfl) ⟨op.state, hop', fun h => hne (h ▸ hop')⟩ _

theorem promoteDownload_wp {model : ModelDocument} (hw : Started job.operationId w) :
    Machine.wp (downloadContract job S) l i (fun _ => Ended job.operationId) (promoteDownload S job model) w := by
  refine downloadContract_advances.through hw fun promoted w1 hw1 => ?_
  cases promoted with
  | ok model => exact downloadContract_advances.transition_ends (.inl rfl) hw1
  | error e => exact downloadContract_advances.transition_ends (.inr rfl) hw1

theorem watchCancellation_wp : ∀ (n : Nat) {w : World}, Started job.operationId w →
    Machine.wp (downloadContract job S) l i
      (fun cancelled w => Started job.operationId w ∧ (cancelled = true → Ended job.operationId w))
      (watchCancellation job.operationId n) w
  | 0, _, hw => ⟨hw, nofun⟩
  | n + 1, _, hw => downloadContract_advances.unlessCancelled hw (fun _ => watchCancellation_wp n)
      fun _ h => ⟨h.started, fun _ => h⟩

theorem transferModel_wp {plan : AcquisitionPlan} (hw : Started job.operationId w) :
    Machine.wp (downloadContract job S) l i (fun _ => Ended job.operationId) (transferModel S job plan) w := by
  refine downloadContract_advances.through hw fun _ w1 hw1 => downloadContract_advances.through hw1 fun n w2 hw2 => ?_
  refine (watchCancellation_wp _ hw2).bind fun cancelled w hc => ?_
  cases cancelled with
  | true => exact hc.2 rfl
  | false =>
    refine downloadContract_advances.through hc.1 fun acquired w3 hw3 => ?_
    cases acquired with
    | ok model => exact promoteDownload_wp hw3
    | error e => exact downloadContract_advances.transition_ends (.inr rfl) hw3

theorem downloadOnce_wp :
    Machine.wp (downloadContract job S) (.runDownload job) i (fun _ => Ended job.operationId) (downloadOnce S job) w := by
  refine downloadContract_advances.op fun w1 n t _ _ hopen => ?_
  rw [show (Eff.outside (.acquireOwned .download)).answer S ⟨i, n, t⟩ w1 = true from hopen]
  refine downloadContract_advances.op fun w2 n2 t2 _ _ _ => ?_
  dsimp only [Prog.ret_bind]
  split
  · exact fail_unresolved
  · exact downloadContract_advances.running (fun _ _ => transferModel_wp) fun _ _ h => h

theorem downloadContract_sound : (downloadContract job S).Sound fun l _ _ => downloadPost job l where
  refl _ _ _ w := (Std.Refl.refl w.db : OpStep w.db w.db)
  trans _ _ _ _ _ _ h1 h2 := (IsTrans.trans _ _ _ h1 h2 : OpStep _ _)
  compat _ _ _ _ _ _ _ _ _ _ _ h := h
  stable _ _ _ _ _ hr h hl := (h hl).log hr
  start l i w _ _ := by
    by_cases hl : l = .runDownload job
    · subst hl
      exact downloadOnce_wp.bind fun _ _ h _ => h
    · exact other_wp hl

end

theorem download_ends (S : Site) (job : DownloadJob) {c₀ c : Pool}
    (hop : (c₀.world.operation job.operationId).isSome = true)
    (hnew : ∀ t ∈ c₀.tasks, t.1 = .runDownload job → t.2 = program S (.runDownload job))
    (hrun : (agent S).Runs downloadRules c₀ c) {i : Nat} {r : Response}
    (hended : c.tasks[i]? = some (.runDownload job, .ret r)) : Ended job.operationId c.world := by
  have hinv : (downloadContract job S).inv c₀.world := by
    simpa [downloadContract, World.operation] using hop
  have hstart : (downloadContract job S).Verified (fun l _ _ => downloadPost job l) c₀ := by
    refine ⟨hinv, fun i t ht => ?_⟩
    by_cases hl : t.1 = .runDownload job
    · rw [hnew t (List.mem_of_getElem? ht) hl, hl]
      exact downloadContract_sound.start _ i _ trivial hinv
    · exact other_wp hl
  have hverified := Machine.Runs.verified downloadContract_sound hstart (fun _ _ _ _ _ _ _ _ _ => trivial) hrun
  exact hverified.shows downloadContract_sound hended rfl

def exampleDownload : DownloadJob :=
  ⟨⟨"org/m", "main", some "m", ⟨"model.safetensors", [], none, true⟩⟩, "op1", false⟩

def downloadWorld : World :=
  { db := actorLoop exampleSite.env {}
      [({ operationId := "op1" }, .accept "bootstrap-admin" "model.download" "k1" "hash" (some "org/m"))] }

def hubReply : (c : Outside) → c.Reply
  | .resolveSelected .. => .ok ⟨"org/m", exampleModel.commit, 8, 8, 8, exampleArtifacts⟩
  | .acquire .. => .ok exampleModel
  | c => exampleReply c

def returnedWith (c : Pool) (state : OperationState) : Bool :=
  ((c.tasks[0]?).any fun t => t.2.next.isNone) && c.world.operation "op1" = some state

theorem download_ends_transferred : ∃ c, (agent exampleSite).Runs downloadRules
      (starting exampleSite downloadWorld [.runDownload exampleDownload]) c ∧
    returnedWith c .succeeded = true ∧ Ended "op1" c.world := by
  have h : ((agent exampleSite).run downloadRules (starting exampleSite downloadWorld [.runDownload exampleDownload])
      (List.replicate 8 (0, { draw := {}, reply := hubReply }))).any (returnedWith · .succeeded) = true := by
    decide +kernel
  obtain ⟨c, hrun, hret⟩ := Machine.reaches_of_run h
  obtain ⟨p, hp⟩ := hrun.label (j := 0) rfl
  have hnext := (Bool.and_eq_true _ _ ▸ hret).1
  rw [hp] at hnext
  cases p with
  | ret r => exact ⟨c, hrun, hret, download_ends exampleSite exampleDownload (by decide +kernel)
      (fun t ht _ => by cases List.mem_singleton.mp ht; rfl) hrun hp⟩
  | op e k => cases hnext

/-- The Hub does not know the revision: the task returns, and its operation
stays accepted. -/
theorem unresolved_download_stays_accepted : ∃ c, (agent exampleSite).Runs .free
      (starting exampleSite downloadWorld [.runDownload exampleDownload]) c ∧
    returnedWith c .accepted = true ∧ ¬ Ended "op1" c.world := by
  have h : ((agent exampleSite).run .free (starting exampleSite downloadWorld [.runDownload exampleDownload])
      (List.replicate 3 (serveTurn 0 ""))).any (returnedWith · .accepted) = true := by
    decide +kernel
  obtain ⟨c, hrun, hret⟩ := Machine.reaches_of_run h
  refine ⟨c, hrun, hret, fun ⟨op, hop, ht⟩ => ?_⟩
  have hstate := of_decide_eq_true (Bool.and_eq_true _ _ ▸ hret).2
  rw [World.operation, hop] at hstate
  rw [Option.some.inj hstate] at ht
  cases ht

end Sparkplane

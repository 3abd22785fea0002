import Sparkplane.RemovalSound

/-!
# Removing a model and the data of the others

A model is named by its repository, commit and selected artifacts, but its snapshot directory only by
the cache name of the repository and the commit. `removal_spares_others` says exactly when a removal
leaves every other model and every running instance its files.
-/

namespace Sparkplane

open ModelCache

variable {active : Bool} {b : String} {model : ModelDocument}

/-! ## Files of a model -/

def ModelArtifactsDocument.files (a : ModelArtifactsDocument) : List (String × Nat) :=
  (a.primary.path, a.primary.bytes) :: a.auxiliary.map fun x => (x.path, x.bytes)

namespace ModelCache

def hasFile (c : ModelCache) (s : CachedSnapshot) (file : String × Nat) : Bool :=
  (s.links.find? fun l => l.1 = file.1).any fun l => (c.blob s.directory l.2).any (·.bytes = file.2)

/-- Every file of the artifact document is in the snapshot directory, as `verify_snapshot` checks it. -/
def holds (c : ModelCache) (model : ModelDocument) : Bool :=
  model.artifacts.all fun a => (c.find model.repository model.commit).any fun s => a.files.all (c.hasFile s)

def mounted (c : ModelCache) (inst : InstanceDocument) : Option CachedSnapshot :=
  (c.find (modelRepository inst.model) inst.modelCommit).filter c.resolves

def Elsewhere (plan : RemovalPlan) (repository commit : String) : Prop :=
  ¬ (repositoryCacheName repository = plan.directory ∧ commit = plan.commit)

section
variable {c : ModelCache} {repository commit : String} {plan : RemovalPlan} {s : CachedSnapshot} {io : Option Nat}

theorem find_some (h : c.find repository commit = some s) :
    s ∈ c.snapshots ∧ s.directory = repositoryCacheName repository ∧ s.commit = commit := by
  have hp := List.find?_some h
  simp only [Bool.and_eq_true, decide_eq_true_eq] at hp
  exact ⟨List.mem_of_find?_eq_some h, hp⟩

theorem find_executeRemoval_elsewhere (h : Elsewhere plan repository commit) :
    (c.executeRemoval plan io).2.find repository commit = c.find repository commit := by
  cases io with
  | none => rw [find_executeRemoval, if_neg h]
  | some n =>
    -- the links go from the planned snapshot only
    have hkey : ∀ s : CachedSnapshot, (if s.directory = plan.directory && s.commit = plan.commit then
          { s with links := s.links.drop (n - plan.removableBlobs.length) } else s : CachedSnapshot).directory =
            s.directory ∧
        (if s.directory = plan.directory && s.commit = plan.commit then
          { s with links := s.links.drop (n - plan.removableBlobs.length) } else s : CachedSnapshot).commit =
            s.commit := fun s => by split <;> exact ⟨rfl, rfl⟩
    show (c.snapshots.map _).find? _ = c.snapshots.find? _
    rw [List.find?_map]
    have hpred : ((fun s : CachedSnapshot => decide (s.directory = repositoryCacheName repository) &&
        decide (s.commit = commit)) ∘ fun s => if s.directory = plan.directory && s.commit = plan.commit then
          { s with links := s.links.drop (n - plan.removableBlobs.length) } else s) =
        fun s => decide (s.directory = repositoryCacheName repository) && decide (s.commit = commit) := by
      funext s
      rw [Function.comp, (hkey s).1, (hkey s).2]
    rw [hpred]
    cases hfind : c.snapshots.find? fun s => decide (s.directory = repositoryCacheName repository) &&
        decide (s.commit = commit) with
    | none => rfl
    | some s =>
      obtain ⟨_, hd, hc⟩ := find_some hfind
      rw [Option.map_some, if_neg]
      intro hplan
      simp only [Bool.and_eq_true, decide_eq_true_eq] at hplan
      exact h ⟨hd.symm.trans hplan.1, hc.symm.trans hplan.2⟩

theorem blob_executeRemoval {directory name : String} (h : directory = plan.directory → name ∉ plan.removableBlobs) :
    (c.executeRemoval plan io).2.blob directory name = c.blob directory name := by
  have hkeep : ∀ removed : List String, (∀ b ∈ removed, b ∈ plan.removableBlobs) →
      (c.blobs.filter fun b => !(b.directory = plan.directory && b.name ∈ removed)).find?
        (fun b => b.directory = directory && b.name = name) =
      c.blobs.find? fun b => b.directory = directory && b.name = name := by
    intro removed hsub
    rw [List.find?_filter]
    congr 1
    funext b
    rw [Bool.eq_iff_iff]
    simp only [Bool.and_eq_true, Bool.not_eq_true', Bool.and_eq_false_iff, decide_eq_true_eq,
      decide_eq_false_iff_not, and_iff_right_iff_imp]
    rintro ⟨rfl, rfl⟩
    by_cases hd : b.directory = plan.directory
    · exact .inr fun hb => h hd (hsub _ hb)
    · exact .inl hd
  cases io with
  | none => exact hkeep _ fun _ hb => hb
  | some n => exact hkeep _ fun _ hb => List.mem_of_mem_take hb

theorem blob_of_elsewhere {repository' commit' : String}
    (hplan : c.planRemoval repository commit active = some plan) (h : Elsewhere plan repository' commit')
    (hs : c.find repository' commit' = some s) (hb : b ∈ s.blobs) :
    (c.executeRemoval plan io).2.blob s.directory b = c.blob s.directory b := by
  obtain ⟨hmem, hd, hc⟩ := find_some hs
  refine blob_executeRemoval fun hdir => (planRemoval_some hplan).retains s hmem hdir (fun hcommit => ?_) _ hb
  exact h ⟨hd.symm.trans hdir, hc.symm.trans hcommit⟩

theorem holds_executeRemoval (hplan : c.planRemoval repository commit active = some plan)
    (h : Elsewhere plan model.repository model.commit) (hheld : c.holds model = true) :
    (c.executeRemoval plan io).2.holds model = true := by
  unfold holds at hheld ⊢
  cases ha : model.artifacts with
  | none => rfl
  | some a =>
    rw [ha, Option.all_some] at hheld
    rw [Option.all_some, find_executeRemoval_elsewhere h]
    obtain ⟨s, hs, hfiles⟩ := (Option.any_eq_true _ _).mp hheld
    refine (Option.any_eq_true _ _).mpr ⟨s, hs, List.all_eq_true.mpr fun file hfile => ?_⟩
    have hfile := List.all_eq_true.mp hfiles file hfile
    unfold hasFile at hfile ⊢
    obtain ⟨l, hl, hblob⟩ := (Option.any_eq_true _ _).mp hfile
    refine (Option.any_eq_true _ _).mpr ⟨l, hl, ?_⟩
    rw [blob_of_elsewhere hplan h hs (List.mem_map_of_mem (List.mem_of_find?_eq_some hl))]
    exact hblob

theorem mounted_executeRemoval (hplan : c.planRemoval repository commit active = some plan)
    {inst : InstanceDocument} (h : Elsewhere plan (modelRepository inst.model) inst.modelCommit)
    (hm : c.mounted inst = some s) : (c.executeRemoval plan io).2.mounted inst = some s := by
  obtain ⟨hs, hresolves⟩ := Option.filter_eq_some_iff.mp hm
  unfold mounted
  rw [find_executeRemoval_elsewhere h]
  refine Option.filter_eq_some_iff.mpr ⟨hs, List.all_eq_true.mpr fun b hb => ?_⟩
  rw [blob_of_elsewhere hplan h hs hb]
  exact List.all_eq_true.mp hresolves b hb

end

end ModelCache

/-! ## The handler -/

section
variable {S : Site} {i n : Nat} {w w' : World} {es : List (Eff × Oracle)}

theorem performRemoval_cache {o m : String} {plan : RemovalPlan} {document : RemovalPlanDocument} {b : Bool}
    (hexec : ∃ x ∈ es, x.1.removes = true)
    (h : (agent S).Evals i n (performRemoval S o m plan document) w b w' es) :
    ∃ x ∈ es, x.1.removes = true ∧ w'.cache = (w.cache.executeRemoval plan x.2.io).2 := by
  unfold performRemoval at h
  generalize bytesProgress "removing" 0 (some plan.reclaimableBytes)
    "removing only unreferenced native-cache data" = p at h
  obtain ⟨t1, n1, es1, rfl, h1⟩ := evals_op (e := .command (.transition o .running p none none)) h
  have hexec1 := executed_tail rfl hexec
  have hcache1 : ((Eff.command (.transition o .running p none none)).after S t1 w).cache = w.cache := rfl
  generalize (Eff.command (.transition o .running p none none)).after S t1 w = w1 at h1 hcache1
  generalize (Eff.command (.transition o .running p none none)).answer S t1 w = r1 at h1
  cases r1 with
  | error e => exact absurd hexec1 fun hx => by cases h1; obtain ⟨x, hx, _⟩ := hx; cases hx
  | ok op =>
    obtain ⟨t2, n2, es2, rfl, h2⟩ := evals_op (e := .executeRemoval plan) h1
    have hcache2 : ((Eff.executeRemoval plan).after S t2 w1).cache = (w.cache.executeRemoval plan t2.oracle.io).2 :=
      congrArg (fun c : ModelCache => (c.executeRemoval plan t2.oracle.io).2) hcache1
    refine ⟨(.executeRemoval plan, t2.oracle), by simp, rfl, Eq.trans ?_ hcache2⟩
    generalize (Eff.executeRemoval plan).after S t2 w1 = w2 at h2
    generalize (Eff.executeRemoval plan).answer S t2 w1 = r2 at h2
    cases r2 with
    | false => cases h2; rfl
    | true =>
      obtain ⟨t3, n3, es3, _, h3⟩ := evals_op (e := .command (.removeModel m)) h2
      generalize (Eff.command (.removeModel m)).answer S t3 w2 = r3 at h3
      cases r3 with
      | error e => cases h3; rfl
      | ok _ =>
        obtain ⟨t4, n4, es4, _, h4⟩ := evals_op (e := .command (.transition ..)) h3
        cases h4
        rfl

/-- Every other registered model keeps its files, and every instance with running intent the snapshot
it mounts. -/
structure Spares (m : String) (w w' : World) : Prop where
  models : ∀ k row, k ≠ m → w.db.models.get? k = some row → w.cache.holds row.metadata = true →
    w'.cache.holds row.metadata = true
  mounts : ∀ id row s, w.db.instances.get? id = some row → row.desiredState = .running →
    w.cache.mounted row.metadata = some s → w'.cache.mounted row.metadata = some s

/-- No other model that has its files, and no instance with running intent, uses the snapshot directory
of the model. -/
structure Alone (model : ModelDocument) (w : World) : Prop where
  models : ∀ k row, k ≠ model.id → w.db.models.get? k = some row → row.metadata.artifacts.isSome = true →
    w.cache.holds row.metadata = true →
    ¬ (repositoryCacheName row.metadata.repository = repositoryCacheName model.repository ∧
      row.metadata.commit = model.commit)
  mounts : ∀ id row, w.db.instances.get? id = some row → row.desiredState = .running →
    ¬ (repositoryCacheName (modelRepository row.metadata.model) = repositoryCacheName model.repository ∧
      row.metadata.modelCommit = model.commit)

theorem removal_spares_others (S : Site) (caller : Caller) (id : String) (body : RemoveModelRequest) {w w' : World}
    {model : ModelDocument} (hmodel : w.db.readModel id = .ok model) {i n : Nat} {a : Response}
    {es : List (Eff × Oracle)} (h : (agent S).Evals i n (removeModel S caller id body) w a w' es)
    (hexec : ∃ x ∈ es, x.1.removes = true) :
    (Alone model w → Spares model.id w w') ∧
    ((∀ x ∈ es, x.1.removes = true → x.2.io = none) → (Spares model.id w w' ↔ Alone model w)) := by
  obtain ⟨key, hash, plan, d, accepted, b, n₁, w₁, es₁, _, hplan, hcache₁, _, _, hsub, hexec₁, h₁⟩ :=
    removeModel_performs hmodel hexec h
  obtain ⟨x, hx, hremoves, hcache⟩ := performRemoval_cache hexec₁ h₁
  rw [hcache₁] at hcache
  obtain ⟨hd, hfound, hc, hresolves, -⟩ := planRemoval_some hplan
  have hspares : Alone model w → Spares model.id w w' := by
    intro halone
    refine ⟨fun k row hk hrow hheld => ?_, fun k row s hrow hrunning hm => ?_⟩
    · rw [hcache]
      cases ha : row.metadata.artifacts with
      | none =>
        unfold holds
        rw [ha]
        rfl
      | some artifacts =>
        refine holds_executeRemoval hplan (fun hsame => ?_) hheld
        rw [hd, hc] at hsame
        exact halone.models k row hk hrow (by rw [ha]; rfl) hheld hsame
    · rw [hcache]
      refine mounted_executeRemoval hplan (fun hsame => ?_) hm
      rw [hd, hc] at hsame
      exact halone.mounts k row hrow hrunning hsame
  refine ⟨hspares, fun hio => ⟨fun hsp => ⟨fun k row hk hrow ha hheld hsame => ?_,
    fun k row hrow hrunning hsame => ?_⟩, hspares⟩⟩
  all_goals
    rw [hio x (hsub x hx) hremoves] at hcache
  · -- the snapshot of the other model is gone
    have hlost := hsp.models k row hk hrow hheld
    obtain ⟨artifacts, ha⟩ := Option.isSome_iff_exists.mp ha
    unfold holds at hlost
    rw [ha, Option.all_some, hcache, find_executeRemoval, hd, hc, if_pos hsame] at hlost
    cases hlost
  · obtain ⟨s, hs⟩ := Option.isSome_iff_exists.mp hfound
    obtain ⟨hmem, hdir, _⟩ := find_some hs
    have hmounted : w.cache.mounted row.metadata = some s := by
      unfold mounted find
      rw [hsame.1, hsame.2]
      exact Option.filter_eq_some_iff.mpr ⟨hs, hresolves _ hmem (hdir.trans hd.symm)⟩
    have hlost := hsp.mounts k row s hrow hrunning hmounted
    unfold mounted at hlost
    rw [hcache, find_executeRemoval, hd, hc, if_pos hsame] at hlost
    cases hlost

end

/-! ## Two removals -/

def otherArtifacts : ModelArtifactsDocument :=
  { exampleArtifacts with primary := ⟨"other.safetensors", 4, none⟩ }

def otherModel : ModelDocument :=
  { exampleModel with id := "m_2", canonical := exampleModel.canonical ++ "#other", artifacts := some otherArtifacts,
                      aliases := ["other"] }

def otherInstance : InstanceDocument :=
  { exampleInstance with modelId := "m_2", model := otherModel.canonical }

def twoSelections : ModelCache where
  snapshots := [⟨"models--org--m", "aaaaaaaaaaaaaaaaaaaaaaaaaaaaaaaaaaaaaaaa",
    [("model.safetensors", "b"), ("other.safetensors", "c")]⟩]
  blobs := [⟨"models--org--m", "b", 8⟩, ⟨"models--org--m", "c", 4⟩]

def bothRegistered : World where
  db := actorLoop exampleEnv {} [({}, .promoteModel exampleModel false), ({}, .promoteModel otherModel false),
    ({}, .beginServe otherInstance)]
  cache := twoSelections

theorem removal_takes_shared_snapshot : (removalEval bothRegistered).2.2.any (fun x => x.1.removes) = true ∧
    ((bothRegistered.db.models.get? "m_2").map fun row => bothRegistered.cache.holds row.metadata) = some true ∧
    ((bothRegistered.db.models.get? "m_2").map fun row => (removalEval bothRegistered).2.1.cache.holds row.metadata) =
      some false ∧
    ((bothRegistered.db.instances.get? otherInstance.id).map fun row =>
      (decide (row.desiredState = .running), (bothRegistered.cache.mounted row.metadata).isSome,
        ((removalEval bothRegistered).2.1.cache.mounted row.metadata).isSome)) = some (true, true, false) := by
  refine ⟨?_, ?_, ?_, ?_⟩ <;> decide +kernel

def laterModel : ModelDocument :=
  { otherModel with commit := "bbbbbbbbbbbbbbbbbbbbbbbbbbbbbbbbbbbbbbbb" }

def sharedBlob : ModelCache where
  snapshots := [⟨"models--org--m", "aaaaaaaaaaaaaaaaaaaaaaaaaaaaaaaaaaaaaaaa",
      [("model.safetensors", "b"), ("config.json", "c")]⟩,
    ⟨"models--org--m", "bbbbbbbbbbbbbbbbbbbbbbbbbbbbbbbbbbbbbbbb", [("other.safetensors", "c")]⟩]
  blobs := [⟨"models--org--m", "b", 8⟩, ⟨"models--org--m", "c", 4⟩]

def laterRegistered : World where
  db := actorLoop exampleEnv {} [({}, .promoteModel exampleModel false), ({}, .promoteModel laterModel false)]
  cache := sharedBlob

theorem later_model_spared : Spares "m_1" laterRegistered (removalEval laterRegistered).2.1 := by
  have hmodel : (laterRegistered.db.readModel "m_1").toOption.any (fun model => model.id = "m_1" &&
      model.repository = "org/m" && model.commit = "aaaaaaaaaaaaaaaaaaaaaaaaaaaaaaaaaaaaaaaa") = true := by
    decide +kernel
  obtain ⟨model, hread, hid⟩ := (Option.any_eq_true _ _).mp hmodel
  have hread : laterRegistered.db.readModel "m_1" = .ok model := by
    cases h : laterRegistered.db.readModel "m_1" with
    | error e => rw [h] at hread; cases hread
    | ok model' => rw [h] at hread; cases hread; rfl
  simp only [Bool.and_eq_true, decide_eq_true_eq] at hid
  have hexec : (removalEval laterRegistered).2.2.any (fun x => x.1.removes) = true := by decide +kernel
  have hmodels : laterRegistered.db.models.rows.all (fun r => r.1 = "m_1" ||
      r.2.metadata.commit ≠ "aaaaaaaaaaaaaaaaaaaaaaaaaaaaaaaaaaaaaaaa") = true := by decide +kernel
  have hinstances : laterRegistered.db.instances.rows = [] := by decide +kernel
  rw [← hid.1.1]
  refine (removal_spares_others exampleSite keyedCaller "m_1" exampleRemoval hread
    (Machine.evals_eval _ _ _ _) (List.any_eq_true.mp hexec)).1 ⟨fun k row hk hrow _ _ hsame => ?_,
      fun k row hrow => ?_⟩
  · have hall := List.all_eq_true.mp hmodels (k, row) (Table.get?_eq_some.mp hrow)
    simp only [Bool.or_eq_true, decide_eq_true_eq] at hall
    rcases hall with rfl | hne
    · exact hk hid.1.1.symm
    · exact hne (hsame.2.trans hid.2)
  · have hmem := Table.get?_eq_some.mp hrow
    rw [hinstances] at hmem
    cases hmem

end Sparkplane

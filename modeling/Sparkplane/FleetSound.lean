import Sparkplane.Actor

/-!
# Instances: coherence and intent

An instance row repeats fields of its document as columns, and a reference may
be an id or a name. `Coherent` says that the two copies agree and that a
reference means at most one row; every command keeps it. Under it the commands
that update one instance have simple equations.
-/

namespace Sparkplane

open Tx

variable {reference id : String} {r : String × InstanceRow} {row : InstanceRow} {i requested : InstanceDocument}
variable {generation : Nat} {db₁ db₂ : Db} {u : Unit} {observed : InstanceObservedState}
variable {endpoint failure : Option String} {startup : Option Nat} {E : Env} {a : Database.AcceptedInstance}

/-! ## Coherent rows -/

structure InstanceRow.Coherent (id : String) (row : InstanceRow) : Prop where
  id_eq : row.metadata.id = id
  name_eq : row.metadata.name = row.name
  model_eq : row.metadata.modelId = row.modelId
  generation_eq : row.metadata.generation = row.generation
  desired_eq : row.metadata.desired = row.desiredState
  observed_eq : row.metadata.observed = row.observedState
  valid_id : validId id = true
  valid_name : validName row.name = true
  generation_fits : fitsI64 row.generation = true

structure Coherent (db : Db) : Prop where
  rows : ∀ id row, db.instances.get? id = some row → row.Coherent id
  names : ∀ id id' row row', db.instances.get? id = some row → db.instances.get? id' = some row' →
    row.name = row'.name → id = id'

theorem not_validName_of_validId {s : String} (hi : validId s = true) : validName s = false := by
  unfold validId stripPre at hi
  simp only [Bool.and_eq_true] at hi
  obtain ⟨_, hi⟩ := hi
  split at hi
  · rename_i rest hr
    split at hr
    · rename_i hp
      obtain ⟨t, ht⟩ := List.isPrefixOf_iff_prefix.mp hp
      unfold validName
      rw [← ht]
      have : "i_".toList = ['i', '_'] := by decide
      rw [this]
      simp [isAsciiLowercase, isAsciiDigit]
    · cases hr
  · cases hi

def Db.lookup (db : Db) (reference : String) : Option (String × InstanceRow) := (db.named reference).head?

variable {db : Db}

theorem Db.lookup_some (h : db.lookup reference = some r) :
    db.instances.get? r.1 = some r.2 ∧ (r.1 = reference ∨ r.2.name = reference) := by
  have hm := List.mem_of_mem_head? h
  obtain ⟨hr, hp⟩ := List.mem_filter.mp hm
  simp only [Bool.or_eq_true, decide_eq_true_eq] at hp
  exact ⟨Table.get?_eq_some.mpr hr, hp⟩

namespace Coherent

variable {db : Db} (hc : Coherent db)
include hc

theorem unique {r' : String × InstanceRow} (h : r ∈ db.named reference) (h' : r' ∈ db.named reference) : r = r' := by
  obtain ⟨hr, hp⟩ := List.mem_filter.mp h
  obtain ⟨hr', hp'⟩ := List.mem_filter.mp h'
  have hg := Table.get?_eq_some.mpr hr
  have hg' := Table.get?_eq_some.mpr hr'
  simp only [Bool.or_eq_true, decide_eq_true_eq] at hp hp'
  have clash : ∀ {x y : String × InstanceRow}, db.instances.get? x.1 = some x.2 →
      db.instances.get? y.1 = some y.2 → x.1 = reference → y.2.name = reference → False := by
    intro x y hx hy ex ey
    have := not_validName_of_validId (hc.rows _ _ hx).valid_id
    rw [ex, ← ey, (hc.rows _ _ hy).valid_name] at this
    cases this
  have hid : r.1 = r'.1 := by
    rcases hp with hp | hp <;> rcases hp' with hp' | hp'
    · exact hp.trans hp'.symm
    · exact (clash hg hg' hp hp').elim
    · exact (clash hg' hg hp' hp).elim
    · exact hc.names _ _ _ _ hg hg' (hp.trans hp'.symm)
  rw [hid, hg'] at hg
  exact Prod.ext hid (Option.some.inj hg.symm)

theorem lookup_of_mem (hm : r ∈ db.named reference) : db.lookup reference = some r := by
  unfold Db.lookup
  cases hn : db.named reference with
  | nil => rw [hn] at hm; cases hm
  | cons r' l =>
    have : r' = r := hc.unique (hn ▸ List.mem_cons_self ..) hm
    rw [List.head?_cons, this]

theorem lookup_of_name (h : db.instances.get? id = some row) : db.lookup row.name = some (id, row) :=
  hc.lookup_of_mem (List.mem_filter.mpr ⟨Table.get?_eq_some.mp h, by simp⟩)

theorem lookup_of_id (h : db.instances.get? id = some row) : db.lookup id = some (id, row) :=
  hc.lookup_of_mem (List.mem_filter.mpr ⟨Table.get?_eq_some.mp h, by simp⟩)

end Coherent

theorem Db.readInstanceTx_eq (db : Db) (reference : String) : db.readInstanceTx reference =
      match db.lookup reference with
      | some r => .ok r.2.metadata
      | none => .error .notFound := by
  unfold readInstanceTx lookup
  cases db.named reference <;> rfl

theorem Coherent.readInstance_eq (hc : Coherent db) (reference : String) : db.readInstance reference =
      match db.lookup reference with
      | some r => .ok r.2.metadata
      | none => .error .notFound := by
  have hu : ∀ r r', r ∈ db.named reference → r' ∈ db.named reference → r = r' :=
    fun _ _ h h' => hc.unique h h'
  have hn : (db.named reference).Nodup :=
    (List.filter_sublist.nodup (List.Nodup.of_map _ db.instances.nodup))
  unfold Db.readInstance Db.lookup
  match hl : db.named reference with
  | [] => rfl
  | [r] => rfl
  | r :: r' :: l =>
    rw [hl] at hu hn
    have := hu r r' (by simp) (by simp)
    subst this
    simp at hn

/-! ## Writing one document -/

def InstanceRow.put (row : InstanceRow) (i : InstanceDocument) : InstanceRow :=
  { row with desiredState := i.desired, observedState := i.observed, metadata := i }

def Db.put (db : Db) (i : InstanceDocument) : Db :=
  { db with instances := db.instances.modify i.id (·.put i) }

structure InstanceDocument.SameIdentity (i j : InstanceDocument) : Prop where
  id : j.id = i.id
  name : j.name = i.name
  modelId : j.modelId = i.modelId
  generation : j.generation = i.generation

theorem InstanceRow.Coherent.put (h : row.Coherent id)
    (hi : row.metadata.SameIdentity i) : (row.put i).Coherent id where
  id_eq := hi.id.trans h.id_eq
  name_eq := hi.name.trans h.name_eq
  model_eq := hi.modelId.trans h.model_eq
  generation_eq := hi.generation.trans h.generation_eq
  desired_eq := rfl
  observed_eq := rfl
  valid_id := h.valid_id
  valid_name := h.valid_name
  generation_fits := h.generation_fits

theorem Db.get?_put (h : db.instances.get? i.id = some row) (id : String) :
    (db.put i).instances.get? id = if id = i.id then some (row.put i) else db.instances.get? id := by
  show (db.instances.modify i.id _).get? id = _
  rw [Table.get?_modify, h]; rfl

theorem Coherent.put (hc : Coherent db) (h : db.instances.get? id = some row) (hi : row.metadata.SameIdentity i) :
    Coherent (db.put i) := by
  have hid : i.id = id := hi.id.trans (hc.rows id row h).id_eq
  subst hid
  have hname : ∀ id' row', (db.put i).instances.get? id' = some row' →
      ∃ row0, db.instances.get? id' = some row0 ∧ row0.name = row'.name := by
    intro id' row' h'
    rw [Db.get?_put h] at h'
    by_cases e : id' = i.id
    · rw [if_pos e] at h'
      cases h'
      exact ⟨row, e ▸ h, rfl⟩
    · rw [if_neg e] at h'; exact ⟨row', h', rfl⟩
  refine ⟨fun id' row' h' => ?_, fun id1 id2 row1 row2 h1 h2 hn => ?_⟩
  · rw [Db.get?_put h] at h'
    by_cases e : id' = i.id
    · rw [if_pos e] at h'
      cases h'
      exact e ▸ (hc.rows _ _ h).put hi
    · rw [if_neg e] at h'; exact hc.rows id' row' h'
  · obtain ⟨r1, g1, n1⟩ := hname _ _ h1
    obtain ⟨r2, g2, n2⟩ := hname _ _ h2
    exact hc.names _ _ _ _ g1 g2 (n1.trans (hn.trans n2.symm))

namespace Database

variable {db : Db}

theorem persistInstance_run (hc : Coherent db)
    (h : db.instances.get? id = some row) (hi : row.metadata.SameIdentity i) :
    persistInstance i db = .ok ((), db.put i) := by
  have hrow := hc.rows id row h
  have hid : i.id = id := hi.id.trans hrow.id_eq
  have hg : i.generation = row.generation := hi.generation.trans hrow.generation_eq
  unfold persistInstance
  simp only [bind_run, require_run, hg, hrow.generation_fits, ite_true, execute_run, hid, h]
  unfold Db.put InstanceRow.put
  rw [hid]

theorem currentInstance_run (id : String) (generation : Nat) (db : Db) : currentInstance id generation db =
      match db.lookup id with
      | some r => if r.2.metadata.generation = generation then .ok (r.2.metadata, db)
        else .error staleGeneration
      | none => .error .notFound := by
  unfold currentInstance
  rw [bind_run, query_run, Db.readInstanceTx_eq]
  cases db.lookup id with
  | none => rfl
  | some r =>
    by_cases hg : r.2.metadata.generation = generation
    · simp [require_run, hg]
    · simp [require_run, hg]

theorem beginStop_run (hc : Coherent db) (reference : String) : beginStop reference db =
      match db.lookup reference with
      | some r => .ok (stoppingIntent r.2.metadata, db.put (stoppingIntent r.2.metadata))
      | none => .error .notFound := by
  unfold beginStop
  rw [bind_run, query_run, Db.readInstanceTx_eq]
  cases hl : db.lookup reference with
  | none => rfl
  | some r =>
    have hp := persistInstance_run hc (Db.lookup_some hl).1 (i := stoppingIntent r.2.metadata) ⟨rfl, rfl, rfl, rfl⟩
    simp only [bind_run, hp, pure_run]

end Database

/-! ## What a command does to the documents -/

theorem Coherent.congr {db' : Db} (h : db'.instances = db.instances) (hc : Coherent db) : Coherent db' := by
  refine ⟨fun id row hr => ?_, fun id id' row row' hr hr' => ?_⟩
  · rw [h] at hr; exact hc.rows id row hr
  · rw [h] at hr hr'; exact hc.names id id' row row' hr hr'

def FleetStep (P : InstanceDocument → InstanceDocument → Prop) (db db' : Db) : Prop :=
  Coherent db → Coherent db' ∧ ∀ id, Option.Rel (fun row row' => P row.metadata row'.metadata)
    (db.instances.get? id) (db'.instances.get? id)

namespace FleetStep

variable {P : InstanceDocument → InstanceDocument → Prop} {db db' : Db}

theorem rel_refl [Std.Refl P] : ∀ o : Option InstanceRow, Option.Rel (fun row row' => P row.metadata row'.metadata) o o
  | none => .none
  | some _ => .some (Std.Refl.refl _)

theorem of_instances_eq [Std.Refl P] (h : db'.instances = db.instances) : FleetStep P db db' :=
  fun hc => ⟨hc.congr h, fun _ => h ▸ rel_refl _⟩

theorem of_touches [Std.Refl P] {F : List Area} (hF : Area.fleet ∉ F) (h : Touches F db db') :
    FleetStep P db db' := of_instances_eq (h .fleet hF).1

theorem of_put [Std.Refl P] (hrow : db.instances.get? id = some row) (h : db'.instances = (db.put i).instances)
    (hi : row.metadata.SameIdentity i) (hP : P row.metadata i) : FleetStep P db db' := by
  refine fun hc => ⟨(hc.put hrow hi).congr h, fun id' => ?_⟩
  have hid : i.id = id := hi.id.trans (hc.rows id row hrow).id_eq
  rw [h, Db.get?_put (hid ▸ hrow)]
  by_cases e : id' = i.id
  · rw [if_pos e, e, hid, hrow]; exact .some hP
  · rw [if_neg e]; exact rel_refl _

theorem of_map [Std.Refl P] {f : String → InstanceRow → InstanceRow}
    (hget : ∀ k, db'.instances.get? k = (db.instances.get? k).map (f k))
    (hf : ∀ k row, f k row = row ∨ ∃ i, f k row = row.put i ∧ row.metadata.SameIdentity i ∧ P row.metadata i) :
    FleetStep P db db' := by
  intro hc
  have hname : ∀ k row, (f k row).name = row.name := fun k row => by
    rcases hf k row with e | ⟨i, e, _⟩ <;> rw [e]
    rfl
  refine ⟨⟨fun k row hr => ?_, fun k k' row row' hr hr' hn => ?_⟩, fun k => ?_⟩
  · rw [hget] at hr
    obtain ⟨row0, hr0, rfl⟩ := Option.map_eq_some_iff.mp hr
    rcases hf k row0 with e | ⟨i, e, hi, _⟩
    · rw [e]; exact hc.rows k row0 hr0
    · rw [e]; exact (hc.rows k row0 hr0).put hi
  · rw [hget] at hr hr'
    obtain ⟨row0, hr0, rfl⟩ := Option.map_eq_some_iff.mp hr
    obtain ⟨row1, hr1, rfl⟩ := Option.map_eq_some_iff.mp hr'
    rw [hname, hname] at hn
    exact hc.names k k' row0 row1 hr0 hr1 hn
  · rw [hget]
    cases db.instances.get? k with
    | none => exact .none
    | some row =>
      refine .some ?_
      rcases hf k row with e | ⟨i, e, _, hi⟩ <;> rw [e]
      · exact Std.Refl.refl _
      · exact hi

theorem mono {Q : InstanceDocument → InstanceDocument → Prop} (hPQ : ∀ i j, P i j → Q i j)
    (h : FleetStep P db db') : FleetStep Q db db' := by
  refine fun hc => ⟨(h hc).1, fun id => ?_⟩
  have hp := (h hc).2 id
  revert hp
  generalize db.instances.get? id = a, db'.instances.get? id = b
  rintro (⟨hp⟩ | _)
  · exact .some (hPQ _ _ hp)
  · exact .none

instance [Std.Refl P] : Std.Refl (FleetStep P) := ⟨fun _ => of_instances_eq rfl⟩

instance [IsTrans _ P] : IsTrans Db (FleetStep P) where
  trans db₁ db₂ db₃ h1 h2 hc := by
    obtain ⟨hc2, hp1⟩ := h1 hc
    obtain ⟨hc3, hp2⟩ := h2 hc2
    refine ⟨hc3, fun id => ?_⟩
    have p₁ := hp1 id
    have p₂ := hp2 id
    revert p₁ p₂
    generalize db₁.instances.get? id = a, db₂.instances.get? id = b, db₃.instances.get? id = c
    rintro (⟨p₁⟩ | _) p₂
    · obtain ⟨p₂⟩ := p₂
      exact .some (IsTrans.trans _ _ _ p₁ p₂)
    · cases p₂; exact .none

theorem doc (h : FleetStep P db db') (hc : Coherent db) {row' : InstanceRow} (h' : db'.instances.get? id = some row') :
    ∃ row, db.instances.get? id = some row ∧ P row.metadata row'.metadata := by
  have := (h hc).2 id
  rw [h'] at this
  cases hr : db.instances.get? id with
  | none => rw [hr] at this; cases this
  | some row => rw [hr] at this; obtain ⟨hp⟩ := this; exact ⟨row, rfl, hp⟩

theorem kept (h : FleetStep P db db') (hc : Coherent db) (hr : db.instances.get? id = some row) :
    ∃ row', db'.instances.get? id = some row' ∧ P row.metadata row'.metadata := by
  have := (h hc).2 id
  rw [hr] at this
  cases hr' : db'.instances.get? id with
  | none => rw [hr'] at this; cases this
  | some row' =>
    rw [hr'] at this
    cases this with
    | some hp => exact ⟨row', rfl, hp⟩

end FleetStep

structure SameIntent (i j : InstanceDocument) : Prop extends i.SameIdentity j where
  desired : j.desired = i.desired

structure Quiet (i j : InstanceDocument) : Prop extends SameIntent i j where
  healthy : j.healthy = true → i.healthy = true
  endpoint : j.endpoint = none ∨ j.endpoint = i.endpoint

instance : Std.Refl SameIntent := ⟨fun _ => ⟨⟨rfl, rfl, rfl, rfl⟩, rfl⟩⟩

instance : Std.Refl Quiet := ⟨fun _ => ⟨⟨⟨rfl, rfl, rfl, rfl⟩, rfl⟩, fun h => h, .inr rfl⟩⟩

instance : IsTrans _ SameIntent where
  trans _ _ _ h1 h2 := ⟨⟨h2.id.trans h1.id, h2.name.trans h1.name, h2.modelId.trans h1.modelId,
    h2.generation.trans h1.generation⟩, h2.desired.trans h1.desired⟩

instance : IsTrans _ Quiet where
  trans _ _ _ h1 h2 := ⟨IsTrans.trans _ _ _ h1.toSameIntent h2.toSameIntent,
    fun h => h1.healthy (h2.healthy h),
    h2.endpoint.elim .inl fun e => h1.endpoint.elim (fun e' => .inl (e.trans e')) fun e' => .inr (e.trans e')⟩

namespace Database

variable {d : Draw} {db db' : Db} {P : InstanceDocument → InstanceDocument → Prop}

theorem currentInstance_inv (h : currentInstance id generation db = .ok (i, db')) :
    db' = db ∧ i.generation = generation ∧ ∃ r, db.lookup id = some r ∧ r.2.metadata = i := by
  rw [currentInstance_run] at h
  split at h
  · rename_i r hr
    split at h
    · rename_i hg
      cases h
      exact ⟨rfl, hg, r, hr, rfl⟩
    · cases h
  · cases h

theorem persistInstance_put (hr : db.lookup reference = some r) (h : persistInstance i db₁ = .ok (u, db₂))
    (h1 : db₁.instances = db.instances) (hi : r.2.metadata.SameIdentity i) (hc : Coherent db) :
    db₂.instances = (db.put i).instances := by
  rw [persistInstance_run (hc.congr h1) (by rw [h1]; exact (Db.lookup_some hr).1) hi] at h
  cases h
  unfold Db.put
  rw [h1]

theorem persistInstance_step [Std.Refl P] (hr : db.lookup reference = some r)
    (h : persistInstance i db₁ = .ok (u, db₂)) (h1 : db₁.instances = db.instances)
    (hi : r.2.metadata.SameIdentity i) (hP : P r.2.metadata i) : FleetStep P db db₂ := fun hc =>
  FleetStep.of_put (Db.lookup_some hr).1 (persistInstance_put hr h h1 hi hc) hi hP hc

theorem persistInstance_frame (h : persistInstance i db = .ok (u, db')) :
    ∃ instances, db' = { db with instances := instances } := by
  unfold persistInstance at h
  obtain ⟨_, h1⟩ := require_bind h
  rw [execute_run] at h1
  split at h1
  · rename_i db₁ hex
    cases h1
    split at hex
    · split at hex <;> cases hex
      exact ⟨_, rfl⟩
    · cases hex
  · cases h1

theorem persistInstance_resources (h : persistInstance i db = .ok (u, db')) :
    db'.instanceResources = db.instanceResources := by
  obtain ⟨_, rfl⟩ := persistInstance_frame h
  rfl

def Stops (i j : InstanceDocument) : Prop := j = i ∨ j = stoppingIntent i

instance : Std.Refl Stops := ⟨fun _ => .inl rfl⟩

section
variable {P : InstanceDocument → InstanceDocument → Prop} [Std.Refl P]

theorem beginStop_fleet (reference : String) (hP : ∀ i, P i (stoppingIntent i)) :
    (beginStop reference).Keeps (FleetStep P) := by
  intro db a db' h hc
  rw [beginStop_run hc] at h
  split at h
  · rename_i r hr
    cases h
    exact FleetStep.of_put (Db.lookup_some hr).1 rfl ⟨rfl, rfl, rfl, rfl⟩ (hP _) hc
  · cases h

theorem markQuarantine_fleet (id : String) (generation : Nat) {cause : String} (hP : ∀ i, P i (quarantined cause i)) :
    (markQuarantine id generation cause).Keeps (FleetStep P) := by
  intro db a db' h
  unfold markQuarantine at h
  obtain ⟨_, h1⟩ := require_bind h
  obtain ⟨i, db₁, hi, h2⟩ := bind_ok h1
  obtain ⟨rfl, _, r, hr, rfl⟩ := currentInstance_inv hi
  obtain ⟨_, db₂, hp, h3⟩ := bind_ok h2
  cases h3
  exact persistInstance_step hr hp rfl ⟨rfl, rfl, rfl, rfl⟩ (hP _)

end

theorem beginStop_step (reference : String) : (beginStop reference).Keeps (FleetStep Stops) :=
  beginStop_fleet reference fun _ => .inr rfl

theorem markQuarantine_step (id : String) (generation : Nat) (cause : String) :
    (markQuarantine id generation cause).Keeps (FleetStep Quiet) :=
  markQuarantine_fleet id generation
    fun _ => ⟨⟨⟨rfl, rfl, rfl, rfl⟩, rfl⟩, nofun, .inl rfl⟩

def failuresAt (db : Db) (id : String) (generation second : Nat) : Nat :=
  (((db.restartFailures.upsert (id, generation, second) ()).delete fun k _ =>
    k.1 = id && k.2.1 = generation && k.2.2 < second - restartWindowSeconds).select fun k _ =>
    k.1 = id && k.2.1 = generation).length

theorem recordRestartFailure_inv {second : Nat} (h : recordRestartFailure id generation second db = .ok (i, db')) :
    ∃ r, db.lookup id = some r ∧ r.2.metadata.generation = generation ∧ (db.instances.get? id).isSome = true ∧
      i = restartFailed (failuresAt db id generation second) r.2.metadata ∧
      (Coherent db → db'.instances = (db.put i).instances) ∧
      db'.instanceResources = (suppress db id i.restartSuppressed
        (if i.restartSuppressed then some "restart-failure-budget" else none)).instanceResources := by
  unfold recordRestartFailure at h
  obtain ⟨i0, db₁, hi, h1⟩ := bind_ok h
  obtain ⟨rfl, hg, r, hr, rfl⟩ := currentInstance_inv hi
  obtain ⟨_, h2⟩ := require_bind h1
  obtain ⟨_, h3⟩ := require_bind h2
  obtain ⟨db₂, he, h4⟩ := execute_bind h3
  split at he
  · cases he
  · rename_i hrow
    cases he
    obtain ⟨_, db3, hm, h5⟩ := bind_ok h4
    cases hm
    obtain ⟨failures, hf, h6⟩ := query_bind h5
    cases hf
    obtain ⟨_, db4, hp, h7⟩ := bind_ok h6
    cases h7
    have hres : db4.instanceResources = db₁.instanceResources :=
      (persistInstance_resources hp : db4.instanceResources = _)
    refine ⟨r, hr, hg, by simpa [Option.isSome_iff_ne_none] using hrow, rfl, fun hc => ?_, ?_⟩
    · have hput := persistInstance_put hr hp rfl ⟨rfl, rfl, rfl, rfl⟩ hc
      exact hput
    · show (suppress db4 _ _ _).instanceResources = _
      unfold suppress
      rw [hres]

section
variable {P : InstanceDocument → InstanceDocument → Prop} [Std.Refl P]

theorem recordRestartFailure_fleet (id : String) (generation second : Nat)
    (hP : ∀ failures i, P i (restartFailed failures i)) :
    (recordRestartFailure id generation second).Keeps (FleetStep P) := by
  intro db i db' h hc
  obtain ⟨r, hr, _, _, rfl, hput, _⟩ := recordRestartFailure_inv h
  exact FleetStep.of_put (Db.lookup_some hr).1 (hput hc) ⟨rfl, rfl, rfl, rfl⟩ (hP _ _) hc

theorem recordEmergency_fleet (record : EmergencyRecord) (hP : ∀ i, P i (shed record.decision.cause i)) :
    (recordEmergency record).Keeps (FleetStep P) := by
  intro db a db' h
  unfold recordEmergency at h
  obtain ⟨known, _, h1⟩ := query_bind h
  split at h1
  · cases h1; exact Std.Refl.refl _
  · obtain ⟨_, db₁, hm, h2⟩ := bind_ok h1
    cases hm
    obtain ⟨i, hi, h3⟩ := query_bind h2
    split at h3
    · cases h3; exact FleetStep.of_instances_eq rfl
    · obtain ⟨_, db₂, hm, h4⟩ := bind_ok h3
      cases hm
      obtain ⟨_, db3, hp, h5⟩ := bind_ok h4
      cases h5
      rw [Db.readInstanceTx_eq] at hi
      split at hi
      · rename_i r hr
        cases hi
        have hr' : db.lookup record.decision.instanceId = some r := hr
        exact persistInstance_step hr' hp rfl ⟨rfl, rfl, rfl, rfl⟩ (hP _)
      · cases hi

end

theorem recordRestartFailure_step (id : String) (generation second : Nat) :
    (recordRestartFailure id generation second).Keeps (FleetStep Quiet) :=
  recordRestartFailure_fleet id generation second fun _ _ => ⟨⟨⟨rfl, rfl, rfl, rfl⟩, rfl⟩, nofun, .inl rfl⟩

theorem recordEmergency_step (record : EmergencyRecord) : (recordEmergency record).Keeps (FleetStep Quiet) :=
  recordEmergency_fleet record fun _ => ⟨⟨⟨rfl, rfl, rfl, rfl⟩, rfl⟩, nofun, .inl rfl⟩

theorem setInstanceObserved_inv
    (h : setInstanceObserved d id generation observed endpoint failure startup db = .ok (i, db')) :
    ∃ r, db.lookup id = some r ∧ r.2.metadata.generation = generation ∧
      i = observe d.now observed endpoint failure startup r.2.metadata ∧
      (Coherent db → db'.instances = (db.put i).instances) := by
  unfold setInstanceObserved at h
  obtain ⟨i0, db₁, hi, h1⟩ := bind_ok h
  obtain ⟨rfl, hg, r, hr, rfl⟩ := currentInstance_inv hi
  obtain ⟨_, h2⟩ := require_bind h1
  have hrow := (Db.lookup_some hr).1
  have fin : ∀ db₂ : Db, (do
      persistInstance (observe d.now observed endpoint failure startup r.2.metadata)
      pure (observe d.now observed endpoint failure startup r.2.metadata) : Sql InstanceDocument) db₂ =
        .ok (i, db') → db₂.instances = db₁.instances →
      i = observe d.now observed endpoint failure startup r.2.metadata ∧
      (Coherent db₁ → db'.instances = (db₁.put i).instances) := by
    intro db₂ hend he
    obtain ⟨_, db3, hp, h3⟩ := bind_ok hend
    cases h3
    exact ⟨rfl, persistInstance_put hr hp he ⟨rfl, rfl, rfl, rfl⟩⟩
  refine ⟨r, hr, hg, ?_⟩
  split at h2
  · obtain ⟨_, h3⟩ := require_bind h2
    obtain ⟨_, db₂, hm, h4⟩ := bind_ok h3
    cases hm
    obtain ⟨_, db3, hm, h5⟩ := bind_ok h4
    cases hm
    exact fin _ h5 rfl
  · exact fin _ h2 rfl

theorem setInstanceObserved_resources
    (h : setInstanceObserved d id generation observed endpoint failure startup db = .ok (i, db')) :
    db'.instanceResources = (if observed = .healthy then suppress db id false none else db).instanceResources := by
  unfold setInstanceObserved at h
  obtain ⟨i0, db₁, hi, h1⟩ := bind_ok h
  obtain ⟨rfl, _⟩ := currentInstance_inv hi
  obtain ⟨_, h2⟩ := require_bind h1
  split at h2
  · rename_i ho
    obtain ⟨_, h3⟩ := require_bind h2
    obtain ⟨_, db₂, hm, h4⟩ := bind_ok h3
    cases hm
    obtain ⟨_, db3, hm, h5⟩ := bind_ok h4
    cases hm
    obtain ⟨_, db4, hp, h6⟩ := bind_ok h5
    cases h6
    rw [if_pos ho, persistInstance_resources hp]
    rfl
  · rename_i ho
    obtain ⟨_, db₂, hp, h3⟩ := bind_ok h2
    cases h3
    rw [if_neg ho, persistInstance_resources hp]

theorem setInstanceObserved_fleet [Std.Refl P] (id : String) (generation : Nat)
    (observed : InstanceObservedState) (endpoint failure : Option String) (startup : Option Nat)
    (hP : ∀ i, P i (observe d.now observed endpoint failure startup i)) :
    (setInstanceObserved d id generation observed endpoint failure startup).Keeps (FleetStep P) := by
  intro db i db' h hc
  obtain ⟨r, hr, _, rfl, hput⟩ := setInstanceObserved_inv h
  exact FleetStep.of_put (Db.lookup_some hr).1 (hput hc) ⟨rfl, rfl, rfl, rfl⟩ (hP _) hc

theorem setInstanceObserved_step (id : String) (generation : Nat) (observed : InstanceObservedState)
    (endpoint failure : Option String) (startup : Option Nat) :
    (setInstanceObserved d id generation observed endpoint failure startup).Keeps (FleetStep SameIntent) :=
  setInstanceObserved_fleet id generation observed endpoint failure startup
    fun _ => ⟨⟨rfl, rfl, rfl, rfl⟩, rfl⟩

theorem listInstances_ids (hc : Coherent db) : (db.listInstances.map (·.id)).Nodup := by
  have hp := List.perm_insertionSort (fun a b : String × InstanceRow => ¬ b.2.name < a.2.name) db.instances.rows
  have hn : ((sortByName (fun r : String × InstanceRow => r.2.name) db.instances.rows).map Prod.fst).Nodup :=
    (hp.map Prod.fst).nodup_iff.mpr db.instances.nodup
  have hids : db.listInstances.map (·.id) =
      ((sortByName (fun r : String × InstanceRow => r.2.name) db.instances.rows).take 256).map Prod.fst := by
    unfold Db.listInstances
    rw [List.map_map]
    refine List.map_congr_left fun r hr => ?_
    have hr' : r ∈ db.instances.rows := hp.mem_iff.mp (List.mem_of_mem_take hr)
    exact (hc.rows _ _ (Table.get?_eq_some.mpr hr')).id_eq
  rw [hids]
  exact ((List.take_sublist _ _).map _).nodup hn

theorem mem_listInstances (hc : Coherent db) (h : i ∈ db.listInstances) :
    ∃ row, db.instances.get? i.id = some row ∧ row.metadata = i := by
  obtain ⟨r, hr, rfl⟩ := List.mem_map.mp h
  have hr' : r ∈ db.instances.rows :=
    (List.perm_insertionSort _ db.instances.rows).mem_iff.mp (List.mem_of_mem_take hr)
  have hg := Table.get?_eq_some.mpr hr'
  exact ⟨r.2, (hc.rows _ _ hg).id_eq ▸ hg, rfl⟩

theorem lawful_pair : LawfulBEq (String × Nat) := inferInstance

section

attribute [local instance] lawful_pair

def cleared (active : List (String × Nat)) (row : InstanceRow) : InstanceRow :=
  if row.metadata.quarantine.isSome ∧ (row.metadata.id, row.metadata.generation) ∉ active then
    row.put { row.metadata with quarantine := none }
  else row

end

theorem clearQuarantine_run (active : List (String × Nat)) : ∀ (l : List InstanceDocument) {db : Db},
    Coherent db → (l.map (·.id)).Nodup →
    (∀ i ∈ l, ∃ row, db.instances.get? i.id = some row ∧ row.metadata = i) →
    ∃ db', each (fun i : InstanceDocument =>
      if i.quarantine.isSome ∧ (i.id, i.generation) ∉ active then
        persistInstance { i with quarantine := none }
      else pure ()) l db = .ok ((), db') ∧
      db' = { db with instances := db'.instances } ∧
      ∀ k, db'.instances.get? k =
        (db.instances.get? k).map fun row => if k ∈ l.map (·.id) then cleared active row else row
  | [], db, _, _, _ => ⟨db, rfl, rfl, fun k => by simp⟩
  | i :: l, db, hc, hn, hl => by
    rw [List.map_cons, List.nodup_cons] at hn
    obtain ⟨row, hrow, rfl⟩ := hl i (List.mem_cons_self ..)
    obtain ⟨db₁, h1, hc1, hsame, hget⟩ : ∃ db₁, (if row.metadata.quarantine.isSome ∧
        (row.metadata.id, row.metadata.generation) ∉ active then
          persistInstance { row.metadata with quarantine := none } else pure () : Sql Unit) db = .ok ((), db₁) ∧
        Coherent db₁ ∧ db₁ = { db with instances := db₁.instances } ∧
        ∀ k, db₁.instances.get? k =
          if k = row.metadata.id then some (cleared active row) else db.instances.get? k := by
      by_cases hq : row.metadata.quarantine.isSome ∧ (row.metadata.id, row.metadata.generation) ∉ active
      · have hsame : row.metadata.SameIdentity { row.metadata with quarantine := none } := ⟨rfl, rfl, rfl, rfl⟩
        rw [if_pos hq]
        refine ⟨_, persistInstance_run hc hrow hsame, hc.put hrow hsame, rfl, fun k => ?_⟩
        rw [Db.get?_put (i := { row.metadata with quarantine := none }) hrow, cleared, if_pos hq]
      · rw [if_neg hq]
        refine ⟨db, rfl, hc, rfl, fun k => ?_⟩
        by_cases e : k = row.metadata.id
        · rw [if_pos e, e, hrow, cleared, if_neg hq]
        · rw [if_neg e]
    obtain ⟨db₂, h2, hsame2, hget2⟩ := clearQuarantine_run active l hc1 hn.2 fun j hj => by
      obtain ⟨row', hrow', hmeta'⟩ := hl j (List.mem_cons_of_mem _ hj)
      have hne : j.id ≠ row.metadata.id := fun e => hn.1 (e ▸ List.mem_map_of_mem hj)
      rw [hget, if_neg hne]
      exact ⟨row', hrow', hmeta'⟩
    refine ⟨db₂, ?_, by rw [hsame2, hsame], fun k => ?_⟩
    · unfold each
      rw [bind_run, h1]
      exact h2
    · rw [hget2, hget]
      by_cases e : k = row.metadata.id
      · subst e
        rw [if_pos rfl, hrow, Option.map_some, Option.map_some, if_neg hn.1, if_pos (by simp)]
      · rw [if_neg e]
        simp only [List.map_cons, List.mem_cons, e, false_or]

theorem each_instances {α : Type} {f : α → Sql Unit} (hf : ∀ a db u db', f a db = .ok (u, db') →
    db'.instances = db.instances) : ∀ (l : List α) {db db' : Db} {u : Unit},
    each f l db = .ok (u, db') → db'.instances = db.instances
  | [], _, _, _, h => by cases h; rfl
  | a :: l, db, db', u, h => by
    obtain ⟨_, db₁, h1, h2⟩ := bind_ok h
    exact (each_instances hf l h2).trans (hf a db _ db₁ h1)

theorem storeEvidence_instances (e : QuarantineEvidence) (db : Db) (u : Unit) (db' : Db)
    (h : storeEvidence d e db = .ok (u, db')) : db'.instances = db.instances := by
  obtain ⟨_, h1⟩ := require_bind h
  cases h1
  rfl

def evidenced (evidence : List QuarantineEvidence) : List (String × Nat) :=
  evidence.filterMap fun e => e.instanceId.bind fun id => e.generation.map (id, ·)

theorem reconcileQuarantine_inv {evidence : List QuarantineEvidence} (hc : Coherent db)
    (h : reconcileQuarantine d evidence db = .ok (u, db')) (k : String) :
    db'.instances.get? k = (db.instances.get? k).map fun row =>
      if k ∈ db.listInstances.map (·.id) then cleared (evidenced evidence) row else row := by
  unfold reconcileQuarantine at h
  obtain ⟨_, db₁, he1, h1⟩ := bind_ok h
  have hi1 : db₁.instances = db.instances :=
    each_instances (fun e db u db' hq => by rw [query_run] at hq; split at hq <;> cases hq; rfl) _ he1
  obtain ⟨_, db₂, hm, h2⟩ := bind_ok h1
  cases hm
  obtain ⟨_, db3, he3, h3⟩ := bind_ok h2
  have hi3 := (each_instances storeEvidence_instances _ he3).trans hi1
  obtain ⟨l, hl, h4⟩ := query_bind h3
  cases hl
  have hc3 : Coherent db3 := hc.congr hi3
  obtain ⟨db4, hrun, _, hget⟩ := clearQuarantine_run _ _ hc3 (listInstances_ids hc3)
    fun i hi => mem_listInstances hc3 hi
  cases h4.symm.trans hrun
  have hlist : db3.listInstances = db.listInstances := by
    unfold Db.listInstances
    rw [hi3]
  rw [hget, hi3, hlist]
  rfl

theorem reconcileQuarantine_nil (hc : Coherent db) (d : Draw) : ∃ db', reconcileQuarantine d [] db = .ok ((), db') := by
  have hc1 : Coherent { db with quarantineEvidence := db.quarantineEvidence.update fun _ row =>
      { row with resolvedAt := row.resolvedAt.or (some d.now) } } := hc.congr (show _ = db.instances from rfl)
  obtain ⟨db', hrun, _⟩ := clearQuarantine_run [] _ hc1 (listInstances_ids hc1) fun i hi => mem_listInstances hc1 hi
  exact ⟨db', hrun⟩

theorem reconcileQuarantine_fleet [Std.Refl P] (hP : ∀ i : InstanceDocument, P i { i with quarantine := none })
    (evidence : List QuarantineEvidence) : (reconcileQuarantine d evidence).Keeps (FleetStep P) := by
  intro db a db' h hc
  refine FleetStep.of_map (reconcileQuarantine_inv hc h) (fun k row => ?_) hc
  by_cases hk : k ∈ db.listInstances.map (·.id)
  · rw [if_pos hk, cleared]
    split
    · exact .inr ⟨_, rfl, ⟨rfl, rfl, rfl, rfl⟩, hP _⟩
    · exact .inl rfl
  · rw [if_neg hk]; exact .inl rfl

theorem reconcileQuarantine_step (evidence : List QuarantineEvidence) :
    (reconcileQuarantine d evidence).Keeps (FleetStep Quiet) :=
  reconcileQuarantine_fleet (fun _ => ⟨⟨⟨rfl, rfl, rfl, rfl⟩, rfl⟩, fun h => h, .inr rfl⟩) evidence

/-! ## New generations -/

theorem validateInstance_ok (h : validateInstance E i = .ok ()) : validId i.id = true ∧ validName i.name = true := by
  unfold validateInstance at h
  split at h
  · cases h
  · rename_i hv
    simp only [Bool.or_eq_true, not_or, Bool.not_eq_true'] at hv
    exact ⟨by simpa using hv.1.1.1.1.1.1.1.1.1.2, by simpa using hv.1.1.1.1.1.1.1.1.2⟩

def servedRow (i : InstanceDocument) : InstanceRow :=
  ⟨i.name, i.modelId, i.generation, .running, .creating, servingIntent i⟩

def servedEnvelope (i : InstanceDocument) : ResourceRow :=
  ⟨i.resources.startupPeakBytes, i.resources.steadyPeakBytes, i.resources.startupPeakBytes, false, none⟩

/-- What `begin_serve` wrote when it did not find the request already running:
`i` is the requested document under the id and generation it got. -/
structure Served (requested i : InstanceDocument) (db db' : Db) : Prop where
  name : i.name = requested.name
  envelope : i.resources = requested.resources
  instances : ∀ k, db'.instances.get? k = if k = i.id then some (servedRow i) else db.instances.get? k
  resources : ∀ k, db'.instanceResources.get? k =
    if k = i.id then some (servedEnvelope i) else db.instanceResources.get? k
  only : ∀ k row, db.instances.get? k = some row → row.name = i.name → k = i.id
  prior : ∀ row, db.instances.get? i.id = some row →
    row.name = i.name ∧ i.generation = row.metadata.generation + 1
  valid_id : validId i.id = true
  valid_name : validName i.name = true
  generation_fits : fitsI64 i.generation = true
  startup_fits : fitsI64 i.resources.startupPeakBytes = true

theorem Served.coherent (h : Served requested i db db') (hc : Coherent db) : Coherent db' := by
  refine ⟨fun k row hr => ?_, fun k k' row row' hr hr' hn => ?_⟩
  · rw [h.instances] at hr
    by_cases e : k = i.id
    · rw [if_pos e] at hr
      cases hr
      exact ⟨e.symm, rfl, rfl, rfl, rfl, rfl, e ▸ h.valid_id, h.valid_name, h.generation_fits⟩
    · rw [if_neg e] at hr; exact hc.rows k row hr
  · rw [h.instances] at hr hr'
    by_cases e : k = i.id <;> by_cases e' : k' = i.id
    · exact e.trans e'.symm
    · rw [if_pos e] at hr
      rw [if_neg e'] at hr'
      cases hr
      exact (e' (h.only k' row' hr' hn.symm)).elim
    · rw [if_neg e] at hr
      rw [if_pos e'] at hr'
      cases hr'
      exact (e (h.only k row hr hn)).elim
    · rw [if_neg e] at hr
      rw [if_neg e'] at hr'
      exact hc.names k k' row row' hr hr' hn

theorem storeServe_inv (h : storeServe i db = .ok (a, db')) :
    a = ⟨servingIntent i, false⟩ ∧ (fitsI64 i.generation = true ∧ fitsI64 i.resources.startupPeakBytes = true) ∧
      ∃ db₁, upsertInstance (servingIntent i) db = some db₁ ∧ upsertResources (servingIntent i) db₁ = some db' := by
  unfold storeServe at h
  obtain ⟨hf, h1⟩ := require_bind h
  obtain ⟨db₁, hi, h2⟩ := execute_bind h1
  obtain ⟨hs, h3⟩ := require_bind h2
  obtain ⟨_, h4⟩ := require_bind h3
  obtain ⟨db₂, hr, h5⟩ := execute_bind h4
  cases h5
  exact ⟨rfl, ⟨hf, hs⟩, db₁, hi, hr⟩

theorem upsertResources_inv (h : upsertResources (servingIntent i) db = some db') :
    db'.instances = db.instances ∧ ∀ k, db'.instanceResources.get? k =
      if k = i.id then some (servedEnvelope i) else db.instanceResources.get? k := by
  unfold upsertResources at h
  dsimp only at h
  split at h
  · cases h
  · cases h
    exact ⟨rfl, fun k => Table.get?_upsert _ _ _ _⟩

theorem storeServe_served (hc : Coherent db) (h : storeServe i db = .ok (a, db'))
    (hname : i.name = requested.name) (henv : i.resources = requested.resources) (hid : validId i.id = true)
    (hvn : validName i.name = true)
    (hprior : ∀ r, db.instances.rows.find? (fun r => r.2.name = i.name) = some r →
      r.1 = i.id ∧ i.generation = r.2.metadata.generation + 1) :
    a = ⟨servingIntent i, false⟩ ∧ Served requested i db db' := by
  obtain ⟨ha, hf, db₁, hi, hr⟩ := storeServe_inv h
  obtain ⟨hinst, hres⟩ := upsertResources_inv hr
  have hupsert : db₁.instanceResources = db.instanceResources ∧
      (∀ k, db₁.instances.get? k = if k = i.id then some (servedRow i) else db.instances.get? k) ∧
      (∀ k row, db.instances.get? k = some row → row.name = i.name → k = i.id) ∧
      (∀ row, db.instances.get? i.id = some row → row.name = i.name ∧ i.generation = row.metadata.generation + 1) := by
    unfold upsertInstance at hi
    dsimp only at hi
    split at hi
    · cases hi
    · split at hi
      · rename_i r hfind
        cases hi
        obtain ⟨hrid, hgen⟩ := hprior r hfind
        have hmem := Table.get?_eq_some.mpr (List.mem_of_find?_eq_some hfind)
        have hfound := List.find?_some hfind
        have hrn : r.2.name = i.name := of_decide_eq_true hfound
        refine ⟨rfl, fun k => ?_, fun k row hk hn => ?_, fun row hk => ?_⟩
        · show (db.instances.modify r.1 _).get? k = _
          rw [Table.get?_modify, hmem, hrid]; rfl
        · exact (hc.names _ _ _ _ hk hmem (hn.trans hrn.symm)).trans hrid
        · rw [← hrid, hmem] at hk
          cases hk
          exact ⟨hrn, hgen⟩
      · rename_i hfind
        obtain ⟨t, ht, rfl⟩ := Option.map_eq_some_iff.mp hi
        refine ⟨rfl, fun k => Table.get?_insert ht k, fun k row hk hn => ?_, fun row hk => ?_⟩
        · have := List.find?_eq_none.mp hfind (k, row) (Table.get?_eq_some.mp hk)
          exact (this (decide_eq_true hn)).elim
        · have hnone : db.instances.get? i.id = none := Table.insert_fresh ht
          rw [hnone] at hk; cases hk
  obtain ⟨hr1, hi1, honly, hpr⟩ := hupsert
  exact ⟨ha, hname, henv, fun k => by rw [hinst]; exact hi1 k, fun k => by rw [hres, hr1], honly, hpr, hid,
    hvn, hf.1, hf.2⟩

theorem beginServe_inv (hc : Coherent db) (h : beginServe E requested db = .ok (a, db')) :
    (a.reused = true ∧ db' = db ∧ ∃ id row, db.instances.get? id = some row ∧
      row.name = requested.name ∧ a.inst = row.metadata ∧ row.metadata.desired = .running) ∨
    (∃ i, a = ⟨servingIntent i, false⟩ ∧ Served requested i db db') := by
  unfold beginServe at h
  obtain ⟨_, hvalid, h1⟩ := query_bind h
  obtain ⟨hid, hname⟩ := validateInstance_ok hvalid
  obtain ⟨prior, hprior, h2⟩ := query_bind h1
  have hfind := Except.ok.inj hprior
  cases prior with
  | some r =>
    have hmem := Table.get?_eq_some.mpr (List.mem_of_find?_eq_some hfind)
    have hrn : r.2.name = requested.name := by simpa using List.find?_some hfind
    have hrow := hc.rows _ _ hmem
    dsimp only at h2
    split at h2
    · rename_i hrun
      obtain ⟨_, h3⟩ := require_bind h2
      cases h3
      exact .inl ⟨rfl, rfl, r.1, r.2, hmem, hrn, rfl, hrun.1⟩
    · obtain ⟨_, h3⟩ := require_bind h2
      refine .inr ⟨_, storeServe_served hc h3 rfl rfl ?_ hname fun r' hr' => ?_⟩
      · exact hrow.id_eq ▸ hrow.valid_id
      · have : r' = r := Option.some.inj (hr'.symm.trans hfind)
        subst this
        exact ⟨hrow.id_eq.symm, rfl⟩
  | none =>
    refine .inr ⟨_, storeServe_served hc h2 rfl rfl hid hname fun r' hr' => ?_⟩
    cases hr'.symm.trans hfind

end Database

end Sparkplane

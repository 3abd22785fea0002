import Sparkplane.EmergencySound

/-!
# What admission takes for free

`evaluate_admission` counts the envelope of an instance that should run as
memory a new generation of it can have. An instance that is suppressed after an
emergency should still run, and has no engine. `admission_covered_iff`: the
memory is there exactly where no envelope is counted so.
-/

namespace Sparkplane

def ServeAdmits (db : Db) (requested : InstanceDocument) (snapshot : ExecutorSnapshot) (storage : CandidateStorage)
    (now : Nat) : Prop :=
  (evaluateAdmission snapshot.resourcePolicy snapshot.resources (admissionRequest snapshot
    db.desiredResourceEnvelopes requested.name requested.resources storage) now).admitted = true

def Covered (requested : InstanceDocument) (snapshot : ExecutorSnapshot) : Prop :=
  ∃ available, snapshot.resources.memAvailableBytes = some available ∧
    requested.resources.startupPeakBytes + snapshot.resourcePolicy.systemReserveBytes ≤ available

def Db.othersBytes (db : Db) (name : String) : Nat :=
  ((db.desiredResourceEnvelopes.filter fun e => e.instanceName ≠ name).map (·.coldStartPeakBytes)).sum

def Db.credit (db : Db) (name : String) : Nat :=
  match db.desiredResourceEnvelopes.find? fun e => e.instanceName = name with
  | some e => e.coldStartPeakBytes
  | none => 0

section
variable {db : Db} {requested : InstanceDocument} {snapshot : ExecutorSnapshot} {storage : CandidateStorage} {now : Nat}

theorem replacedBytes_eq : (admissionRequest snapshot db.desiredResourceEnvelopes requested.name requested.resources
    storage).replacedBytes = db.credit requested.name := rfl

theorem ServeAdmits.available (h : ServeAdmits db requested snapshot storage now) : ∃ available,
    snapshot.resources.memAvailableBytes = some available ∧ requested.resources.startupPeakBytes -
      db.credit requested.name + snapshot.resourcePolicy.systemReserveBytes ≤ available := by
  obtain ⟨_, _, _, ⟨left, hleft, hle⟩, _⟩ := admitted_iff.mp h
  obtain ⟨available, havailable, hleft⟩ := Option.bind_eq_some_iff.mp hleft
  obtain ⟨hsub, rfl⟩ := checkedSub_eq_some.mp hleft
  rw [replacedBytes_eq] at hsub hle
  exact ⟨available, havailable, by rw [Nat.add_comm]; exact Nat.add_le_of_le_sub hsub hle⟩

theorem ServeAdmits.fits (h : ServeAdmits db requested snapshot storage now)
    (hpeak : requested.resources.startupPeakBytes < 2 ^ 64) :
    requested.resources.startupPeakBytes + db.othersBytes requested.name < 2 ^ 64 := by
  obtain ⟨_, _, ⟨used, _, hused, _⟩, _⟩ := admitted_iff.mp h
  have hlt := checkedSum_lt hpeak hused
  rwa [checkedSum_eq hused] at hlt

def barelyEnough (policy : ResourcePolicy) (db : Db) (requested : InstanceDocument) (storage : CandidateStorage) :
    ExecutorSnapshot where
  resourcePolicy := policy
  resources :=
    { observedAtUnixMs := 0
      memTotalBytes := some (requested.resources.startupPeakBytes + db.othersBytes requested.name +
        policy.systemReserveBytes)
      memAvailableBytes := some (requested.resources.startupPeakBytes - db.credit requested.name +
        policy.systemReserveBytes)
      memoryFullPsiAvg10Percent := some (.finite 0)
      swapInPagesDelta := some 0
      diskAvailableBytes := some (requiredDiskGrowth requested.resources storage + policy.diskReserveBytes) }
  guardHeartbeat := true
  eventHeartbeat := true

theorem barelyEnough_admits {policy : ResourcePolicy} (hpolicy : 0 < policy.memoryFullPsiAvg10Percent)
    (storage : CandidateStorage)
    (hfits : requested.resources.startupPeakBytes + db.othersBytes requested.name < 2 ^ 64) :
    ServeAdmits db requested (barelyEnough policy db requested storage) storage 0 := by
  have hfresh : (barelyEnough policy db requested storage).resources.stale policy 0 = false := by
    simp [HostResourceSnapshot.stale, barelyEnough]
  refine admitted_iff.mpr ⟨hfresh, rfl, ⟨_, _, checkedSum_of_lt hfits, ?_, Nat.le_refl _⟩,
    ⟨policy.systemReserveBytes, ?_, Nat.le_refl _⟩, ⟨policy.diskReserveBytes, ?_, Nat.le_refl _⟩, ?_, rfl, rfl⟩
  · simp [HostResourceSnapshot.rebootCapacity, barelyEnough, checkedSub, Db.othersBytes, admissionRequest]
  · rw [replacedBytes_eq]
    exact checkedSub_eq_some.mpr ⟨Nat.le_add_right _ _, (Nat.add_sub_cancel_left ..).symm⟩
  · simp [barelyEnough, checkedSub, admissionRequest]
  · simp [HostResourceSnapshot.calm, barelyEnough, hpolicy]

theorem capacityFirst_psi : 0 < ResourcePolicy.capacityFirst.memoryFullPsiAvg10Percent := by decide

theorem credit_eq (hc : Coherent db) {id : String} {row : InstanceRow} {r : ResourceRow}
    (hrow : db.instances.get? id = some row) (hr : db.instanceResources.get? id = some r)
    (hrun : row.desiredState = .running) : db.credit row.name = r.coldStartPeakBytes := by
  have hmem : ⟨id, row.name, r.coldStartPeakBytes⟩ ∈ db.desiredResourceEnvelopes :=
    Db.mem_desired.mpr (by simp [Db.envelope, hrow, hr, hrun])
  unfold Db.credit
  cases hfind : db.desiredResourceEnvelopes.find? fun e => e.instanceName = row.name with
  | none =>
    have hnot := List.find?_eq_none.mp hfind _ hmem
    simp at hnot
  | some e =>
    obtain ⟨r', row', hr', hrow', _, he⟩ := Db.envelope_some (Db.mem_desired.mp (List.mem_of_find?_eq_some hfind))
    have hname : e.instanceName = row.name := by simpa using List.find?_some hfind
    rw [he] at hname
    rw [hc.names _ _ _ _ hrow' hrow hname, hr] at hr'
    cases hr'
    exact congrArg DeclaredEnvelope.coldStartPeakBytes he

theorem credit_cases (db : Db) (name : String) : db.credit name = 0 ∨ ∃ id row r,
    db.instances.get? id = some row ∧ db.instanceResources.get? id = some r ∧ row.name = name ∧
      row.desiredState = .running := by
  unfold Db.credit
  split
  · next e hfind =>
    obtain ⟨r, row, hr, hrow, hrun, he⟩ := Db.envelope_some (Db.mem_desired.mp (List.mem_of_find?_eq_some hfind))
    refine .inr ⟨e.instanceId, row, r, hrow, hr, ?_, hrun⟩
    have hname := List.find?_some hfind
    rw [he] at hname
    simpa using hname
  · exact .inl rfl

end

/-- `running` is any set of running containers without an older generation of the instance; the code does not
look at them, and they play no part. -/
theorem admission_covered_iff (E : Env) (cmds : List (Draw × Command)) (requested : InstanceDocument)
    {a : Database.AcceptedInstance} {db' : Db} (hserve : Database.beginServe E requested (actorLoop E {} cmds) = .ok (a, db'))
    (hnew : a.reused = false) (running : List (String × Nat))
    (_hidle : ∀ g < a.inst.generation, (a.inst.id, g) ∉ running) :
    (∀ snapshot storage now, ServeAdmits (actorLoop E {} cmds) requested snapshot storage now →
      Covered requested snapshot) ↔
    ∀ id row r, (actorLoop E {} cmds).instances.get? id = some row →
      (actorLoop E {} cmds).instanceResources.get? id = some r → row.name = requested.name →
      row.desiredState = .running → r.coldStartPeakBytes = 0 ∨ requested.resources.startupPeakBytes = 0 ∨
        2 ^ 64 ≤ requested.resources.startupPeakBytes + (actorLoop E {} cmds).othersBytes requested.name := by
  have hc := coherent_actorLoop E cmds
  have hpeak : requested.resources.startupPeakBytes < 2 ^ 64 := by
    rcases Database.beginServe_inv hc hserve with ⟨hreused, _⟩ | ⟨i, _, hserved⟩
    · rw [hnew] at hreused
      cases hreused
    · have hfits := of_decide_eq_true hserved.startup_fits
      rw [hserved.envelope] at hfits
      omega
  constructor
  · intro h id row r hrow hr hname hrun
    by_contra hnot
    simp only [not_or, not_le] at hnot
    obtain ⟨hbytes, hzero, hfits⟩ := hnot
    obtain ⟨available, havailable, hle⟩ := h _ _ _ (barelyEnough_admits capacityFirst_psi ⟨true, 0, ""⟩ hfits)
    have hcredit := credit_eq hc hrow hr hrun
    rw [hname] at hcredit
    cases havailable
    dsimp only [barelyEnough] at hle
    omega
  · intro h snapshot storage now hadmits
    obtain ⟨available, havailable, hle⟩ := hadmits.available
    refine ⟨available, havailable, ?_⟩
    rcases credit_cases (actorLoop E {} cmds) requested.name with hzero | ⟨id, row, r, hrow, hr, hname, hrun⟩
    · omega
    · have hcredit := credit_eq hc hrow hr hrun
      rw [hname] at hcredit
      rcases h id row r hrow hr hname hrun with hbytes | hzero | hover
      · omega
      · omega
      · have hlt := hadmits.fits hpeak
        omega

def beginsNew (db : Db) (requested : InstanceDocument) : Bool :=
  match Database.beginServe exampleEnv requested db with
  | .ok (a, _) => !a.reused
  | .error _ => false

theorem beginsNew_ok {db : Db} {requested : InstanceDocument} (h : beginsNew db requested = true) :
    ∃ a db', Database.beginServe exampleEnv requested db = .ok (a, db') ∧ a.reused = false := by
  unfold beginsNew at h
  split at h
  · next a db' hserve => exact ⟨a, db', hserve, by simpa using h⟩
  · cases h

theorem stopped_serve_covered : beginsNew (actorLoop exampleEnv {} (served ++ [stopped])) exampleInstance = true ∧
    ∀ snapshot storage now, ServeAdmits (actorLoop exampleEnv {} (served ++ [stopped])) exampleInstance snapshot
      storage now → Covered exampleInstance snapshot := by
  have hstopped : ∀ x ∈ (actorLoop exampleEnv {} (served ++ [stopped])).instances.rows, x.2.desiredState ≠ .running := by
    decide +kernel
  have hbegins : beginsNew (actorLoop exampleEnv {} (served ++ [stopped])) exampleInstance = true := by decide +kernel
  obtain ⟨a, db', hserve, hnew⟩ := beginsNew_ok hbegins
  refine ⟨hbegins, (admission_covered_iff exampleEnv _ exampleInstance hserve hnew [] (by simp)).mpr ?_⟩
  intro id row r hrow _ _ hrunning
  exact absurd hrunning (hstopped _ (Table.get?_eq_some.mp hrow))

/-- The engine of the instance was killed in an emergency, and no more than the reserve is available: the next
serve is admitted. -/
theorem killed_engine_credited : ∃ a db' snapshot storage now,
    Database.beginServe exampleEnv exampleInstance (actorLoop exampleEnv {} (served ++ [imported])) = .ok (a, db') ∧
    a.reused = false ∧ (∀ g < a.inst.generation, (a.inst.id, g) ∉ ([] : List (String × Nat))) ∧
    ServeAdmits (actorLoop exampleEnv {} (served ++ [imported])) exampleInstance snapshot storage now ∧
    snapshot.resources.memAvailableBytes = some (8 * gibBytes) ∧ ¬ Covered exampleInstance snapshot := by
  have hbegins : beginsNew (actorLoop exampleEnv {} (served ++ [imported])) exampleInstance = true := by
    decide +kernel
  obtain ⟨a, db', hserve, hnew⟩ := beginsNew_ok hbegins
  have havailable : (barelyEnough .capacityFirst (actorLoop exampleEnv {} (served ++ [imported])) exampleInstance
    ⟨true, 0, ""⟩).resources.memAvailableBytes = some (8 * gibBytes) := by decide +kernel
  refine ⟨a, db', _, _, _, hserve, hnew, by simp, barelyEnough_admits capacityFirst_psi ⟨true, 0, ""⟩ (by decide +kernel), havailable, ?_⟩
  rintro ⟨available, h, hle⟩
  cases havailable.symm.trans h
  have hmore : ¬ exampleInstance.resources.startupPeakBytes + 8 * gibBytes ≤ 8 * gibBytes := by decide
  exact hmore hle

end Sparkplane

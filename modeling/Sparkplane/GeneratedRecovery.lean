import Sparkplane.GeneratedSound

/-!
# Publications that are interrupted

When the process dies inside `publish`, and foreign lines are then added to the profile, the next
`publish` and `remove` go by the receipt that the dead process left. `interrupted_publish_iff` says for
which moments and edits they are not refused.
-/

namespace Sparkplane.Generated

variable {name : GenFile} {slot edited : Slot} {profile catalog bytes : ByteArray} {α β : Type} {e : GenError}

section
variable {δ : Type} [DecidableEq δ] (K : Kit δ) {w : World δ}

/-! ## `remove` -/

def releasable (slot : Slot) (name : GenFile) (hashes : List δ) : Bool :=
  match slot with
  | .absent => true
  | .file bytes => bytes.size ≤ maxBytes && stillOwned K name bytes hashes
  | _ => false

def removable (h : Home δ) : Bool :=
  h.theReceipt.valid && releasable K (h.slot .profile) .profile (h.theReceipt.owned .profile) &&
  releasable K (h.slot .catalog) .catalog (h.theReceipt.owned .catalog)

variable {r : Receipt δ} {hashes : List δ} {f : α → Gen δ β} {w' : World δ}

theorem release_reads (h : releasable K (w.home.slot name) name (r.owned name) = true) :
    ∃ present, Reads w 1 (release K r name) (.ok present) := by
  have hread := read_reads (w := w) name
  cases hslot : w.home.slot name with
  | absent =>
    rw [hslot] at hread
    exact ⟨false, hread.then (m := 0) .refl⟩
  | link =>
    rw [hslot] at h
    cases h
  | foreign =>
    rw [hslot] at h
    cases h
  | file bytes =>
    rw [hslot] at h hread
    simp only [releasable, Bool.and_eq_true, decide_eq_true_eq] at h
    rw [readResult, if_neg (Nat.not_lt.mpr h.1)] at hread
    exact ⟨true, hread.then (m := 0) ((refuse_passes _ (congrArg not h.2)).then (m := 0) .refl)⟩

theorem release_fails (h : releasable K (w.home.slot name) name (r.owned name) = false) :
    ∃ e, Reads w 1 (release K r name) (.error e) := by
  refine read_fails (fun hslot => ?_) fun bytes hslot hsize => ?_
  · rw [hslot] at h
    cases h
  · rw [hslot] at h
    simp only [releasable, decide_eq_true hsize, Bool.true_and] at h
    exact ⟨_, (refuse_fails _ (congrArg not h)).fails⟩

theorem inspect_reads (h : removable K w.home = true) : ∃ n present, Reads w n (inspect K) (.ok present) := by
  simp only [removable, Bool.and_eq_true] at h
  have hreceipt := receipt_reads (w := w)
  rw [h.1.1, if_pos rfl] at hreceipt
  obtain ⟨profile, hprofile⟩ := release_reads K h.1.2
  obtain ⟨catalog, hcatalog⟩ := release_reads K h.2
  exact ⟨_, (profile, catalog), lock_reads.then (hreceipt.then (hprofile.then (hcatalog.then .refl)))⟩

theorem inspect_fails (h : removable K w.home = false) : ∃ n e, Reads w n (inspect K) (.error e) := by
  have hreceipt := receipt_reads (w := w)
  cases hvalid : w.home.theReceipt.valid with
  | false =>
    rw [hvalid, if_neg Bool.false_ne_true] at hreceipt
    exact ⟨_, _, lock_reads.then hreceipt.fails⟩
  | true =>
    rw [hvalid, if_pos rfl] at hreceipt
    cases hprofile : releasable K (w.home.slot .profile) .profile (w.home.theReceipt.owned .profile) with
    | false =>
      obtain ⟨e, hfails⟩ := release_fails K hprofile
      exact ⟨_, e, lock_reads.then (hreceipt.then hfails.fails)⟩
    | true =>
      simp only [removable, hvalid, hprofile, Bool.true_and] at h
      obtain ⟨present, hreads⟩ := release_reads K hprofile
      obtain ⟨e, hfails⟩ := release_fails K h
      exact ⟨_, e, lock_reads.then (hreceipt.then (hreads.then hfails.fails))⟩

theorem remove_ok_iff : (runs (remove K) w).1 = .ok () ↔ removable K w.home = true := by
  constructor
  · intro hok
    cases h : removable K w.home with
    | true => rfl
    | false =>
      obtain ⟨_, e, hfails⟩ := inspect_fails K h
      have hrun : runs (remove K) w = (.error e, w) := hfails.fails.run
      rw [hrun] at hok
      cases hok
  · intro h
    obtain ⟨_, present, hreads⟩ := inspect_reads K h
    have hrun : runs (remove K) w = _ := (hreads.then .refl).run
    rw [hrun]
    obtain ⟨profile, catalog⟩ := present
    cases profile <;> cases catalog <;> rfl

/-! ## The worlds that a dying `publish` leaves -/

theorem claimable_of_releasable (bytes : ByteArray) (h : releasable K slot name hashes = true) :
    claimable K slot name bytes hashes = true := by
  cases slot with
  | absent => rfl
  | file current =>
    simp only [releasable, Bool.and_eq_true] at h
    simp only [claimable, h.1, h.2, Bool.or_true, Bool.and_self]
  | link => cases h
  | foreign => cases h

theorem publish_no_conflict (h : removable K w.home = true) (profile catalog : ByteArray) (name : GenFile) (action : String) :
    (runs (publish K profile catalog) w).1 ≠ .error (.conflict name action) := by
  simp only [removable, Bool.and_eq_true] at h
  cases hsize : (decide (profile.size > maxBytes) || decide (catalog.size > maxBytes)) with
  | true =>
    have hfails : Reads w 0 (publish K profile catalog) (.error .payloadSize) := (refuse_fails _ hsize).fails.fails
    have hrun : runs (publish K profile catalog) w = (.error .payloadSize, w) := hfails.run
    rw [hrun]
    intro hc
    cases hc
  | false =>
    simp only [Bool.or_eq_false_iff, decide_eq_false_iff_not, Nat.not_lt] at hsize
    have hp : publishable K w.home profile catalog = true := by
      simp only [publishable, hsize.1, hsize.2, h.1.1, claimable_of_releasable K _ h.1.2, claimable_of_releasable K _ h.2,
        decide_true, Bool.and_self]
    rw [publish_runs K hp]
    intro hc
    cases hc

theorem publish_dies (h : publishable K w.home profile catalog = true) (n : Nat) :
    diesAfter (publish K profile catalog) n w =
      if n < 7 then w
      else if n < 10 then w.setReceipt (pendingOf K w.home profile catalog)
      else if n < 13 then (w.setReceipt (pendingOf K w.home profile catalog)).replace .profile (.file profile)
      else if n < 16 then ((w.setReceipt (pendingOf K w.home profile catalog)).replace .profile (.file profile)).replace
        .catalog (.file catalog)
      else w.published K profile catalog := by
  have hleads : Prog.Leads succeeds w 5 (publish K profile catalog) _ := (prepare_reads K h).then (m := 0) .refl
  rw [diesAfter, hleads.runFor]
  rcases Nat.lt_or_ge n 5 with hn | hn
  · rw [if_pos hn, if_pos (by omega)]
  · obtain ⟨m, rfl⟩ := Nat.exists_eq_add_of_le hn
    rw [if_neg (by omega), Nat.add_sub_cancel_left]
    match m with
    | 0 | 1 => rfl
    | 2 | 3 | 4 => rfl
    | 5 | 6 | 7 => rfl
    | 8 | 9 | 10 => rfl
    | 11 => rfl
    | 12 => rfl
    | m + 13 =>
      rw [if_neg (by omega), if_neg (by omega), if_neg (by omega), if_neg (by omega)]
      rfl

theorem publish_dies_refused (h : publishable K w.home profile catalog = false) (n : Nat) :
    diesAfter (publish K profile catalog) n w = w := by
  obtain ⟨k, e, hfails⟩ := prepare_fails K h
  have hleads : Prog.Leads succeeds w k (publish K profile catalog) (.ret (.error e)) := hfails.fails
  rw [diesAfter, hleads.runFor]
  split
  · rfl
  · cases n - k <;> rfl

/-! ## Foreign lines added to the profile -/

omit [DecidableEq δ] in
theorem withoutForeign_grown {x y : ByteArray} (h : Relation.ReflTransGen (AddsLine K) x y) :
    withoutForeignAssignments K y = withoutForeignAssignments K x := by
  induction h with
  | refl => rfl
  | tail _ hadds ih => exact hadds.without.trans ih

/-- Foreign lines are added to what is there, any number of times. -/
def Grown (slot edited : Slot) : Prop :=
  match slot with
  | .file bytes => ∃ bytes', edited = .file bytes' ∧ Relation.ReflTransGen (AddsLine K) bytes bytes'
  | _ => edited = slot

def Fits (slot : Slot) : Prop := ∀ bytes, slot = .file bytes → bytes.size ≤ maxBytes

/-- The hashes name the file as it is now, or what it was without its foreign lines. -/
def GrownOwned (slot edited : Slot) (hashes : List δ) : Prop :=
  match slot, edited with
  | .absent, _ => True
  | .file bytes, .file bytes' => K.sha256 bytes' ∈ hashes ∨ K.sha256 (withoutForeignAssignments K bytes) ∈ hashes
  | _, _ => False

theorem releasable_grown (h : Grown K slot edited) :
    releasable K edited .profile hashes = true ↔ Fits edited ∧ GrownOwned K slot edited hashes := by
  cases slot with
  | absent =>
    obtain rfl : edited = .absent := h
    exact ⟨fun _ => ⟨(fun _ hfile => nomatch hfile), trivial⟩, fun _ => rfl⟩
  | link =>
    obtain rfl : edited = .link := h
    exact ⟨(fun h => nomatch h), fun h => h.2.elim⟩
  | foreign =>
    obtain rfl : edited = .foreign := h
    exact ⟨(fun h => nomatch h), fun h => h.2.elim⟩
  | file bytes =>
    obtain ⟨bytes', rfl, hgrown⟩ := h
    have hfits : Fits (.file bytes') ↔ bytes'.size ≤ maxBytes :=
      ⟨fun hfits => hfits _ rfl, fun hsize _ hfile => Slot.file.inj hfile ▸ hsize⟩
    simp [releasable, stillOwned, ownedDigest, GrownOwned, hfits, withoutForeign_grown K hgrown]

theorem removable_put (h : Home δ) (edited : Slot) : removable K (h.put .profile edited) = true ↔
    h.theReceipt.valid = true ∧ releasable K edited .profile (h.theReceipt.owned .profile) = true ∧
      releasable K (h.slot .catalog) .catalog (h.theReceipt.owned .catalog) = true := by
  have hreceipt : (h.put .profile edited).theReceipt = h.theReceipt := rfl
  have hprofile : (h.put .profile edited).slot .profile = edited := rfl
  have hcatalog : (h.put .profile edited).slot .catalog = h.slot .catalog := rfl
  rw [removable, hreceipt, hprofile, hcatalog, Bool.and_eq_true, Bool.and_eq_true, and_assoc]

/-! ## The two receipts -/

theorem mem_noted (slot : Slot) (bytes : ByteArray) : K.sha256 bytes ∈ noted K slot bytes := by
  unfold noted
  split
  · split <;> exact .head _
  · exact .head _

theorem mem_noted_file {current : ByteArray} {hash : δ} :
    hash ∈ noted K (.file current) bytes ↔ hash = K.sha256 bytes ∨ hash = K.sha256 current := by
  simp only [noted]
  split
  · simp
  · rename_i h
    simp [not_not.mp h]

theorem pendingOf_valid {h : Home δ} (hvalid : h.theReceipt.valid = true) :
    (pendingOf K h profile catalog).valid = true := by
  have hnoted : ∀ slot bytes, (!(noted K slot bytes).isEmpty && decide ((noted K slot bytes).length ≤ 2)) = true := by
    intro slot bytes
    unfold noted
    split
    · split <;> rfl
    · rfl
  simp only [Receipt.valid, Bool.and_eq_true] at hvalid ⊢
  refine ⟨hvalid.1, List.all_eq_true.mpr fun name _ => ?_⟩
  cases name <;> exact hnoted _ _

theorem releasable_noted (h : claimable K slot name bytes hashes = true) :
    releasable K slot name (noted K slot bytes) = true := by
  cases slot with
  | absent => rfl
  | file current =>
    simp only [claimable, Bool.and_eq_true] at h
    simp [releasable, stillOwned, ownedDigest, of_decide_eq_true h.1, mem_noted_file]
  | link => cases h
  | foreign => cases h

omit K in
theorem releasable_payload {K : Kit δ} (hsize : bytes.size ≤ maxBytes) (hmem : K.sha256 bytes ∈ hashes) :
    releasable K (.file bytes) name hashes = true := by
  simp [releasable, stillOwned, ownedDigest, hsize, hmem]

/-! ## Recovery -/

def interrupted (w : World δ) (profile catalog : ByteArray) (n : Nat) (edited : Slot) : World δ :=
  let left := diesAfter (publish K profile catalog) n w
  { left with home := left.home.put .profile edited }

/-- Up to the first receipt everything goes by the receipt from before the call. From there until the profile is
replaced the receipt names the old profile as it was found, with its foreign lines, so that it is lost with the
next foreign line unless it had none or is the new profile apart from them. -/
def Survives (h : Home δ) (profile catalog : ByteArray) (n : Nat) (edited : Slot) : Prop :=
  Fits edited ∧
  if n < 7 ∨ publishable K h profile catalog = false then
    h.theReceipt.valid = true ∧ GrownOwned K (h.slot .profile) edited (h.theReceipt.owned .profile) ∧
      releasable K (h.slot .catalog) .catalog (h.theReceipt.owned .catalog) = true
  else n < 10 → ∀ current, h.slot .profile = .file current →
    edited = .file current ∨ withoutForeignAssignments K current = current ∨ withoutForeignAssignments K current = profile

theorem grownOwned_noted (hsha : Function.Injective K.sha256) (hmanaged : withoutForeignAssignments K profile = profile)
    (hclaim : claimable K slot .profile profile hashes = true) (hedit : Grown K slot edited) :
    GrownOwned K slot edited (noted K slot profile) ↔ ∀ current, slot = .file current →
      edited = .file current ∨ withoutForeignAssignments K current = current ∨ withoutForeignAssignments K current = profile := by
  cases slot with
  | absent => exact ⟨(fun _ _ h => nomatch h), fun _ => trivial⟩
  | link => cases hclaim
  | foreign => cases hclaim
  | file current =>
    obtain ⟨bytes, rfl, hgrown⟩ := hedit
    have hwithout := withoutForeign_grown K hgrown
    simp only [GrownOwned, mem_noted_file, hsha.eq_iff]
    constructor
    · rintro hor _ ⟨⟩
      rcases hor with (rfl | rfl) | (h | h)
      · exact .inr (.inr (hwithout.symm.trans hmanaged))
      · exact .inl rfl
      · exact .inr (.inr h)
      · exact .inr (.inl h)
    · intro hor
      rcases hor current rfl with h | h | h
      · exact .inl (.inr (Slot.file.inj h))
      · exact .inr (.inr h)
      · exact .inr (.inl h)

theorem replaced_removable (hmanaged : withoutForeignAssignments K profile = profile) (hvalid : r.valid = true)
    (hmem : K.sha256 profile ∈ r.owned .profile)
    (hcatalog : releasable K slot .catalog (r.owned .catalog) = true) (hedit : Grown K (.file profile) edited) :
    (r.valid = true ∧ releasable K edited .profile (r.owned .profile) = true ∧
      releasable K slot .catalog (r.owned .catalog) = true) ↔ Fits edited := by
  rw [releasable_grown K hedit]
  obtain ⟨bytes, rfl, -⟩ := hedit
  exact ⟨fun h => h.2.1.1, fun h => ⟨hvalid, ⟨h, .inr (hmanaged.symm ▸ hmem)⟩, hcatalog⟩⟩

theorem interrupted_removable (hsha : Function.Injective K.sha256)
    (hmanaged : withoutForeignAssignments K profile = profile) {n : Nat}
    (hedit : Grown K ((diesAfter (publish K profile catalog) n w).home.slot .profile) edited) :
    removable K (interrupted K w profile catalog n edited).home = true ↔ Survives K w.home profile catalog n edited := by
  rw [interrupted, removable_put]
  cases hp : publishable K w.home profile catalog with
  | false =>
    rw [publish_dies_refused K hp] at hedit ⊢
    rw [Survives, if_pos (.inr hp), releasable_grown K hedit]
    tauto
  | true =>
    rw [publish_dies K hp] at hedit ⊢
    have hchecks := hp
    simp only [publishable, Bool.and_eq_true, decide_eq_true_eq] at hchecks
    obtain ⟨⟨⟨⟨hprofile, hcatalog⟩, hvalid⟩, hclaim1⟩, hclaim2⟩ := hchecks
    have hpending : (pendingOf K w.home profile catalog).valid = true := pendingOf_valid K hvalid
    by_cases h7 : n < 7
    · rw [if_pos h7] at hedit ⊢
      rw [Survives, if_pos (.inl h7), releasable_grown K hedit]
      tauto
    rw [if_neg h7] at hedit ⊢
    have hlater : ¬(n < 7 ∨ publishable K w.home profile catalog = false) := by
      rw [hp]
      exact not_or.mpr ⟨h7, Bool.noConfusion⟩
    rw [Survives, if_neg hlater]
    by_cases h10 : n < 10
    · rw [if_pos h10] at hedit ⊢
      have hgrown := (releasable_grown K hedit).trans (and_congr_right' (grownOwned_noted K hsha hmanaged hclaim1 hedit))
      exact ⟨fun h => ⟨(hgrown.mp h.2.1).1, fun _ => (hgrown.mp h.2.1).2⟩,
        fun h => ⟨hpending, hgrown.mpr ⟨h.1, h.2 h10⟩, releasable_noted K hclaim2⟩⟩
    rw [if_neg h10] at hedit ⊢
    rw [and_iff_left (fun h => absurd h h10)]
    by_cases h13 : n < 13
    · rw [if_pos h13] at hedit ⊢
      exact replaced_removable K hmanaged hpending (mem_noted K _ _) (releasable_noted K hclaim2) hedit
    rw [if_neg h13] at hedit ⊢
    by_cases h16 : n < 16
    · rw [if_pos h16] at hedit ⊢
      exact replaced_removable K hmanaged hpending (mem_noted K _ _) (releasable_payload hcatalog (mem_noted K _ _)) hedit
    · rw [if_neg h16] at hedit ⊢
      exact replaced_removable K hmanaged rfl (.head _) (releasable_payload hcatalog (.head _)) hedit

/-! ## Complete and refused calls -/

def SystemOnly {α : Type} (x : Gen δ α) : Prop :=
  ∀ w, Prog.Safe effect (fun _ => True) (fun r _ => ∀ e, r = .error e → e = .system) x w

omit [DecidableEq δ] in
theorem SystemOnly.bind {x : Gen δ α} (hx : SystemOnly x) (hf : ∀ a, SystemOnly (f a)) : SystemOnly (x >>= f) := by
  refine fun w => Prog.Safe.bind (hx w) fun r w' hr => ?_
  cases r with
  | ok a => exact hf a w'
  | error e => exact ⟨trivial, fun e' he => hr e' (congrArg _ (Except.error.inj he))⟩

omit [DecidableEq δ] in
theorem systemOnly_orSystem (r : Except Unit α) : SystemOnly (orSystem r : Gen δ α) := by
  intro w
  cases r with
  | ok a => exact ⟨trivial, (fun _ h => nomatch h)⟩
  | error e => exact ⟨trivial, fun _ h => (Except.error.inj h).symm⟩

omit [DecidableEq δ] in
theorem systemOnly_ask {op : HomeOp δ} {f : op.Reply → Gen δ α} (h : ∀ r, SystemOnly (f r)) :
    SystemOnly (ExceptT.lift (Prog.perform op) >>= f) := fun _ => ⟨trivial, fun r w' _ => h r w'⟩

omit [DecidableEq δ] in
theorem systemOnly_atomicReceipt (r : Receipt δ) : SystemOnly (atomicReceipt r) :=
  .bind (systemOnly_ask systemOnly_orSystem) fun _ => .bind (systemOnly_ask systemOnly_orSystem) fun _ =>
    systemOnly_ask systemOnly_orSystem

omit [DecidableEq δ] in
theorem systemOnly_atomic (name : GenFile) (bytes : ByteArray) : SystemOnly (atomic name bytes : Gen δ Unit) :=
  .bind (systemOnly_ask systemOnly_orSystem) fun _ => .bind (systemOnly_ask systemOnly_orSystem) fun _ =>
    systemOnly_ask systemOnly_orSystem

omit [DecidableEq δ] in
theorem systemOnly_unlinkIf (present : Bool) (name : GenFile) : SystemOnly (unlinkIf present name : Gen δ Unit) := by
  cases present with
  | true => exact systemOnly_ask systemOnly_orSystem
  | false => exact fun _ => ⟨trivial, (fun _ h => nomatch h)⟩

omit [DecidableEq δ] in
theorem refused_unchanged {x : Gen δ α} {P : α → World δ → Prop} (hx : Prog.SafeOk effect (· = w) P x w)
    (hf : ∀ a, SystemOnly (f a)) (he : e ≠ .system)
    (hends : Prog.Ends effect (x >>= f : Gen δ β) w (.error e) w') : w' = w := by
  have hsafe : Prog.Safe effect (fun _ => True) (fun r w' => ∀ e, r = .error e → e ≠ .system → w' = w)
      (x >>= f : Gen δ β) w := by
    refine Prog.Safe.bind (hx.weaken (fun _ _ => trivial) fun _ _ hw _ => hw) ?_
    rintro r w1 rfl
    cases r with
    | ok a => exact (hf a w1).mono fun _ _ _ hr e he hsystem => absurd (hr e he) hsystem
    | error e => exact ⟨trivial, fun _ _ _ => rfl⟩
  exact hsafe.ends hends e rfl he

theorem publish_refused_unchanged (he : e ≠ .system)
    (hends : Prog.Ends effect (publish K profile catalog) w (.error e) w') : w' = w :=
  refused_unchanged (prepare_safe K rfl) (fun _ => .bind (systemOnly_atomicReceipt _) fun _ =>
    .bind (systemOnly_atomic _ _) fun _ => .bind (systemOnly_atomic _ _) fun _ => systemOnly_atomicReceipt _) he hends

theorem remove_refused_unchanged (he : e ≠ .system) (hends : Prog.Ends effect (remove K) w (.error e) w') : w' = w :=
  refused_unchanged (inspect_safe K rfl) (fun _ => .bind (systemOnly_unlinkIf _ _) fun _ =>
    .bind (systemOnly_unlinkIf _ _) fun _ => systemOnly_atomicReceipt _) he hends

theorem publish_completed (hends : Prog.Ends effect (publish K profile catalog) w (.ok ()) w') :
    w'.home.slot .profile = .file profile ∧ w'.home.slot .catalog = .file catalog ∧
    w'.home.receipt = some (receiptOf K profile catalog) := by
  have hsafe : Prog.SafeOk effect (fun _ => True) (fun _ w' => w'.home.slot .profile = .file profile ∧
      w'.home.slot .catalog = .file catalog ∧ w'.home.receipt = some (receiptOf K profile catalog))
      (publish K profile catalog) w := by
    refine (prepare_safe K trivial).bind fun pending w1 _ _ => ?_
    refine (atomicReceipt_safe trivial trivial).bind fun _ w2 _ _ => ?_
    refine (atomic_safe trivial trivial).bind ?_
    rintro - w3 - rfl
    refine (atomic_safe trivial trivial).bind ?_
    rintro - w4 - rfl
    refine (atomicReceipt_safe trivial trivial).mono ?_
    rintro - w5 - rfl
    exact ⟨rfl, rfl, rfl⟩
  exact hsafe.ends hends () rfl

/-! ## Recoverable files -/

theorem interrupted_publish_iff (hsha : Function.Injective K.sha256) {profile : ByteArray}
    (hmanaged : withoutForeignAssignments K profile = profile) (catalog : ByteArray) (w : World δ) :
    (∀ n edited, Grown K ((diesAfter (publish K profile catalog) n w).home.slot .profile) edited →
      (((∀ profile' catalog' name action,
          (runs (publish K profile' catalog') (interrupted K w profile catalog n edited)).1 ≠ .error (.conflict name action)) ∧
        (runs (remove K) (interrupted K w profile catalog n edited)).1 = .ok ()) ↔
      Survives K w.home profile catalog n edited)) ∧
    (∀ w', Prog.Ends effect (publish K profile catalog) w (.ok ()) w' →
      w'.home.slot .profile = .file profile ∧ w'.home.slot .catalog = .file catalog ∧
      w'.home.receipt = some (receiptOf K profile catalog)) ∧
    (∀ e w', e ≠ .system → Prog.Ends effect (publish K profile catalog) w (.error e) w' → w' = w) ∧
    (∀ e w', e ≠ .system → Prog.Ends effect (remove K) w (.error e) w' → w' = w) := by
  refine ⟨fun n edited hedit => ?_, fun _ => publish_completed K, fun _ _ => publish_refused_unchanged K,
    fun _ _ => remove_refused_unchanged K⟩
  have hremovable := interrupted_removable K hsha hmanaged hedit
  constructor
  · rintro ⟨-, hremove⟩
    exact hremovable.mp ((remove_ok_iff K).mp hremove)
  · intro hsurvives
    have hr := hremovable.mpr hsurvives
    exact ⟨publish_no_conflict K hr, (remove_ok_iff K).mpr hr⟩

end

theorem managed_example : withoutForeignAssignments exampleKit "model=2\n".toUTF8 = "model=2\n".toUTF8 := by
  have hkept : keptText exampleKit "model=2\n" = "model=2\n" := by decide +kernel
  rw [withoutForeignAssignments, fromUTF8?_toUTF8]
  exact congrArg String.toUTF8 hkept

theorem addsLine_end {text line : String} (htext : Ended text.toList)
    (hforeign : foreignAssignment exampleKit line.toList = true)
    (hline : ∃ body, '\n' ∉ body ∧ line.toList = body ++ ['\n']) :
    AddsLine exampleKit text.toUTF8 (text ++ line).toUTF8 := by
  have hadds := AddsLine.intro (K := exampleKit) (b := []) htext hforeign (.inl hline)
  simpa [← String.toList_append] using hadds

theorem late_interruption_removable :
    (runs (remove exampleKit) (interrupted exampleKit emptyHome "model=2\n".toUTF8 "[]".toUTF8 13
      (.file ("model=2\n" ++ "x=1\n").toUTF8))).1 = .ok () := by
  have hp : publishable exampleKit emptyHome.home "model=2\n".toUTF8 "[]".toUTF8 = true := by decide +kernel
  have hadds : AddsLine exampleKit "model=2\n".toUTF8 ("model=2\n" ++ "x=1\n").toUTF8 :=
    addsLine_end (.inr ⟨"model=2".toList, by decide⟩) (by decide +kernel) ⟨"x=1".toList, by decide, by decide⟩
  have hrecovers := (interrupted_publish_iff exampleKit (fun _ _ h => h) managed_example "[]".toUTF8 emptyHome).1 13
    (.file ("model=2\n" ++ "x=1\n").toUTF8)
  rw [publish_dies exampleKit hp] at hrecovers
  refine ((hrecovers ⟨_, rfl, .single hadds⟩).mpr ⟨?_, ?_⟩).2
  · rintro _ ⟨⟩
    decide +kernel
  · rw [if_neg (by rw [hp]; decide)]
    exact fun h => absurd h (by decide)

def profileInUse : World ByteArray :=
  { published emptyHome "model=1\n" with
    home := (published emptyHome "model=1\n").home.put .profile (.file ("model=1\n" ++ "x=1\n").toUTF8) }

/-- Killed after the first receipt of the next publication. One more foreign line, and both calls are refused. -/
theorem second_foreign_line_refused : ∃ w, History exampleKit w ∧
    withoutForeignAssignments exampleKit "model=2\n".toUTF8 = "model=2\n".toUTF8 ∧
    ∃ edited, Grown exampleKit ((diesAfter (publish exampleKit "model=2\n".toUTF8 "[]".toUTF8) 7 w).home.slot .profile) edited ∧
      (runs (publish exampleKit "model=2\n".toUTF8 "[]".toUTF8)
        (interrupted exampleKit w "model=2\n".toUTF8 "[]".toUTF8 7 edited)).1 = .error (.conflict .profile "overwrite") ∧
      (runs (remove exampleKit) (interrupted exampleKit w "model=2\n".toUTF8 "[]".toUTF8 7 edited)).1 =
        .error (.conflict .profile "remove") := by
  have hp : publishable exampleKit profileInUse.home "model=2\n".toUTF8 "[]".toUTF8 = true := by decide +kernel
  have hadds : AddsLine exampleKit ("model=1\n" ++ "x=1\n").toUTF8 (("model=1\n" ++ "x=1\n") ++ "y=1\n").toUTF8 :=
    addsLine_end (.inr ⟨"model=1\nx=1".toList, by decide⟩) (by decide +kernel) ⟨"y=1".toList, by decide, by decide⟩
  refine ⟨profileInUse, .edit (history_published .start (by decide +kernel)), managed_example,
    .file (("model=1\n" ++ "x=1\n") ++ "y=1\n").toUTF8, ?_, ?_⟩
  · rw [publish_dies exampleKit hp]
    exact ⟨_, rfl, .single hadds⟩
  · decide +kernel

end Sparkplane.Generated

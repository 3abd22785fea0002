import Mathlib.Data.List.Basic
import Mathlib.Logic.Function.Basic

/-!
# Certificate rotation

`rotate_certificate` of `install.rs` replaces the CA, the chain and the leaf key
file by file, and a later call signs with the CA key and appends the CA
certificate that it finds. It never asks whether the two belong together.
-/

namespace Sparkplane.Rotation

abbrev Key := Nat

structure Cert where
  subject : Key
  signer : Key
  serial : Nat
  deriving DecidableEq

inductive Pem where
  | cert (c : Cert)
  | key (k : Key)
  | chain (leaf : Cert) (ca : Pem)

inductive File where
  | caCert
  | caKey
  | chain
  | leafKey
  deriving DecidableEq

abbrev Files := File → Pem

def Consistent (s : Files) : Prop :=
  ∃ ca k leaf lk, s .caCert = .cert ca ∧ s .caKey = .key k ∧ s .chain = .chain leaf (.cert ca) ∧
    s .leafKey = .key lk ∧ ca.subject = k ∧ leaf.signer = k ∧ leaf.subject = lk

/-! ## A call -/

/-- The arguments of a call, what `rcgen` draws, whether `integrate` returns `Ok` and which of the files can be
written again when it does not. -/
structure Call where
  dryRun : Bool
  rotateCa : Bool
  caKey : Key
  caSerial : Nat
  leafKey : Key
  leafSerial : Nat
  integrates : Bool
  restores : File → Bool

/-- `KeyPair::from_pem`. -/
def Pem.parseKey : Pem → Option Key
  | .key k => some k
  | _ => none

def Call.material (c : Call) (s : Files) : Option Files := do
  let key ← if c.rotateCa then some c.caKey else (s .caKey).parseKey
  let ca := if c.rotateCa then .cert ⟨key, key, c.caSerial⟩ else s .caCert
  return fun
    | .caCert => ca
    | .caKey => .key key
    | .chain => .chain ⟨c.leafKey, key, c.leafSerial⟩ ca
    | .leafKey => .key c.leafKey

/-- The files in the order they are written; the copies of the old ones are read by nothing. -/
def Call.order (c : Call) : List File :=
  if c.rotateCa then [.caCert, .caKey, .chain, .leafKey] else [.chain, .leafKey]

def write (fs : List File) (new s : Files) : Files := fs.foldl (fun s f => Function.update s f (new f)) s

def Call.restored (c : Call) : List File := [.caCert, .caKey, .chain, .leafKey].filter c.restores

def rotateCertificate (c : Call) (s : Files) : Bool × Files :=
  match c.material s with
  | none => (false, s)
  | some new =>
    if c.dryRun then (true, s)
    else if c.integrates then (true, write c.order new s)
    else (false, write c.restored s (write c.order new s))

def Call.undone (c : Call) (n m : Nat) : List File :=
  if c.integrates ∨ n < c.order.length then [] else c.restored.take m

/-- The call crashes, or returns because a write fails, after `n` writes and, where these are all, `m` that restore. -/
def interrupted (c : Call) (n m : Nat) (s : Files) : Files :=
  match c.material s with
  | none => s
  | some new => if c.dryRun then s else write (c.undone n m) s (write (c.order.take n) new s)

/-! ## What a crash leaves -/

def Call.replaces (c : Call) (n m : Nat) (f : File) : Prop :=
  c.dryRun = false ∧ f ∈ c.order.take n ∧ f ∉ c.undone n m

instance (c : Call) (n m : Nat) (f : File) : Decidable (c.replaces n m f) := inferInstanceAs (Decidable (_ ∧ _))

def mixture (new s : Files) (replaced : File → Prop) [DecidablePred replaced] : Files :=
  fun f => if replaced f then new f else s f

section
variable {c later : Call} {s new : Files} {n m : Nat}

theorem write_apply (fs : List File) (f : File) : write fs new s f = if f ∈ fs then new f else s f := by
  induction fs generalizing s with
  | nil => simp [write]
  | cons g fs ih =>
    show write fs new (Function.update s g (new g)) f = _
    rw [ih]
    by_cases hmem : f ∈ fs
    · simp [hmem]
    · by_cases hfg : f = g
      · simp [hfg]
      · simp [hmem, hfg]

theorem interrupted_eq (h : c.material s = some new) : interrupted c n m s = mixture new s (c.replaces n m) := by
  funext f
  by_cases hdry : c.dryRun = true
  · simp [interrupted, h, mixture, Call.replaces, hdry]
  · have hwrites : interrupted c n m s = write (c.undone n m) s (write (c.order.take n) new s) := by
      simp [interrupted, h, hdry]
    rw [hwrites, write_apply, write_apply, mixture]
    by_cases hundone : f ∈ c.undone n m
    · simp [Call.replaces, hundone]
    · simp [Call.replaces, hundone, hdry]

def Matches (s : Files) : Prop := ∃ ca k, s .caCert = .cert ca ∧ s .caKey = .key k ∧ ca.subject = k

/-- The new leaf is signed by the key that was found and followed by the certificate that was found. -/
theorem rotated_consistent (hca : later.rotateCa = false) {k : Key} (hk : s .caKey = .key k) :
    ∃ new, later.material s = some new ∧ (Consistent (write later.order new s) ↔ Matches s) := by
  refine ⟨_, by simp only [Call.material, hca, hk]; rfl, ?_⟩
  simp only [Consistent, Matches, write_apply, Call.order, hca]
  simp only [hk]
  simp
  apply exists_congr
  intro ca
  exact ⟨fun h => ⟨h.1, h.2.1⟩, fun h => ⟨h.1, h.2, h⟩⟩

theorem matches_mixture (hs : Consistent s) (hnew : c.material s = some new) :
    Matches (mixture new s (c.replaces n m)) ↔
      (c.replaces n m .caCert ↔ c.replaces n m .caKey) ∨ s .caKey = .key c.caKey := by
  obtain ⟨ca, k, leaf, lk, hcert, hkey, _, _, hsubject, _⟩ := hs
  by_cases hrotate : c.rotateCa = true
  · simp only [Call.material, hrotate] at hnew
    cases hnew
    simp only [Matches, mixture, hkey, Pem.key.injEq]
    by_cases h1 : c.replaces n m .caCert <;> by_cases h2 : c.replaces n m .caKey <;> simp [h1, h2, hcert, hsubject, eq_comm]
  · have hkept : ¬c.replaces n m .caCert ∧ ¬c.replaces n m .caKey := by
      have hnot : ∀ f : File, f ∉ c.order → ¬c.replaces n m f := fun f hf h => hf (List.mem_of_mem_take h.2.1)
      exact ⟨hnot _ (by simp [Call.order, hrotate]), hnot _ (by simp [Call.order, hrotate])⟩
    simp [Matches, mixture, hkept, hcert, hkey, hsubject]

theorem material_some (hs : Consistent s) (c : Call) : ∃ new k, c.material s = some new ∧ new .caKey = .key k := by
  obtain ⟨ca, k, leaf, lk, _, hkey, _⟩ := hs
  by_cases h : c.rotateCa = true
  · exact ⟨_, _, by simp only [Call.material, h]; rfl, rfl⟩
  · exact ⟨_, _, by simp only [Call.material, h, hkey]; rfl, rfl⟩

theorem mixture_key (hs : Consistent s) (hnew : c.material s = some new) :
    ∃ k, mixture new s (c.replaces n m) .caKey = .key k := by
  obtain ⟨_, k', hsome, hk'⟩ := material_some hs c
  obtain ⟨ca, k, leaf, lk, _, hkey, _⟩ := hs
  rw [hnew] at hsome
  cases hsome
  by_cases h : c.replaces n m .caKey
  · exact ⟨k', by simp [mixture, h, hk']⟩
  · exact ⟨k, by simp [mixture, h, hkey]⟩

theorem restored_iff : write c.restored s (write c.order new s) = s ↔
    ∀ f, f ∈ c.order → c.restores f = true ∨ new f = s f := by
  rw [funext_iff]
  apply forall_congr'
  intro f
  have hmem : f ∈ c.restored ↔ c.restores f = true := by cases f <;> simp [Call.restored]
  rw [write_apply, write_apply]
  by_cases h : c.restores f = true
  · simp [hmem, h]
  · by_cases horder : f ∈ c.order <;> simp [hmem, h, horder]

end

theorem rotation_recoverable_iff (s new : Files) (hs : Consistent s) (c later : Call) (hnew : c.material s = some new)
    (hlater : later.rotateCa = false) (n m : Nat) :
    ((∀ s', rotateCertificate later (interrupted c n m s) = (true, s') → Consistent s') ∧
        (c.dryRun = false → c.integrates = false → (rotateCertificate c s).2 = s)) ↔
      (if later.dryRun then Consistent (mixture new s (c.replaces n m))
        else later.integrates = true → (c.replaces n m .caCert ↔ c.replaces n m .caKey) ∨ s .caKey = .key c.caKey) ∧
      (c.dryRun = false → c.integrates = false → ∀ f, f ∈ c.order → c.restores f = true ∨ new f = s f) := by
  apply and_congr
  · rw [interrupted_eq hnew]
    obtain ⟨k, hk⟩ := mixture_key (n := n) (m := m) hs hnew
    obtain ⟨new', hnew', hconsistent⟩ := rotated_consistent hlater hk
    rw [← matches_mixture hs hnew, ← hconsistent, rotateCertificate, hnew']
    by_cases hdry : later.dryRun = true
    · simp [hdry]
    · by_cases hok : later.integrates = true <;> simp [hdry, hok]
  · apply forall_congr'
    intro hdry
    apply forall_congr'
    intro hfails
    rw [← restored_iff, rotateCertificate, hnew]
    simp [hdry, hfails]

def installed : Files
  | .caCert => .cert ⟨1, 1, 0⟩
  | .caKey => .key 1
  | .chain => .chain ⟨2, 1, 0⟩ (.cert ⟨1, 1, 0⟩)
  | .leafKey => .key 2

theorem installed_consistent : Consistent installed :=
  ⟨⟨1, 1, 0⟩, 1, ⟨2, 1, 0⟩, 2, rfl, rfl, rfl, rfl, rfl, rfl, rfl⟩

def renewal (rotateCa : Bool) : Call := ⟨false, rotateCa, 3, 1, 4, 1, true, fun _ => true⟩

theorem leaf_rotation_recovers : Consistent installed ∧
    ∀ s', rotateCertificate (renewal false) (interrupted (renewal false) 1 0 installed) = (true, s') → Consistent s' := by
  obtain ⟨new, _, hnew, _⟩ := material_some installed_consistent (renewal false)
  refine ⟨installed_consistent, ((rotation_recoverable_iff installed new installed_consistent (renewal false)
    (renewal false) hnew rfl 1 0).mpr ⟨?_, by simp [renewal]⟩).1⟩
  simp [renewal, Call.replaces, Call.order]

/-- A crash between the CA certificate and its key: the next leaf is signed by the old key and chained to the new
certificate. -/
theorem ca_rotation_torn : Consistent installed ∧ ∃ s',
    rotateCertificate (renewal false) (interrupted (renewal true) 1 0 installed) = (true, s') ∧ ¬Consistent s' := by
  refine ⟨installed_consistent, _, rfl, fun h => ?_⟩
  obtain ⟨ca, k, leaf, lk, hcert, hkey, _, _, hsubject, _⟩ := h
  cases hcert
  cases hkey
  exact absurd hsubject (by decide)

end Sparkplane.Rotation

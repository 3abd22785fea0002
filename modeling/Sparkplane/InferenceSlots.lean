import Sparkplane.Permits
import Sparkplane.SnapshotSound

/-!
# Inference slots

Each authenticated request gets the semaphore of its token from `inference_slot`, and inference runs
under a permit of it. `store_auth` drops the semaphores of tokens that the new snapshot does not
know, also while requests still hold them.
-/

namespace Sparkplane

/-- `AgentState` with the database behind it. `reads` are the snapshots read so far, any of which a
handler may still store; `published` are those stored so far, any of which a request may still use. -/
structure AuthState where
  db : Db := {}
  reads : List AuthSnapshot := []
  published : List AuthSnapshot := [{}]
  inferenceSlots : KeyedPool String := {}

inductive AuthEvent where
  | command (d : Draw) (c : Command)
  | authSnapshot (now : Timestamp)
  | storeAuth (snapshot : AuthSnapshot)
  | authenticate (snapshot : AuthSnapshot) (now : Timestamp) (peer : Option (String → Bool)) (presented : String)
  | cookie (snapshot : AuthSnapshot) (now : Timestamp) (peer : Option (String → Bool)) (id : String)
  | acquireInference (slot : String × Nat)
  | dropPermit (slot : String × Nat)
  | finish (slot : String × Nat)

namespace AuthState

variable (S : Site)

def storeAuth (w : AuthState) (snapshot : AuthSnapshot) : AuthState :=
  { w with
    inferenceSlots := w.inferenceSlots.retain fun id => id = "bootstrap-admin" || (snapshot.get? id).isSome
    published := snapshot :: w.published }

def enter (w : AuthState) (auth : AuthenticatedToken) : AuthState :=
  { w with inferenceSlots := w.inferenceSlots.lookup auth.id auth.maxConcurrentInference }

def identity (w : AuthState) : AuthEvent → Option AuthenticatedToken
  | .authenticate snapshot now peer presented =>
    if snapshot ∈ w.published then authenticateBearer S snapshot now peer presented else none
  | .cookie snapshot now peer id =>
    if snapshot ∈ w.published then tokenIdentity S snapshot now peer id else none
  | _ => none

def step (w : AuthState) : AuthEvent → Option AuthState
  | .command d c => some { w with db := c.run S.env d w.db }
  | .authSnapshot now => some { w with reads := w.db.loadSnapshot S.env now :: w.reads }
  | .storeAuth snapshot => if snapshot ∈ w.reads then some (w.storeAuth snapshot) else none
  | .authenticate snapshot now peer presented =>
    (w.identity S (.authenticate snapshot now peer presented)).map w.enter
  | .cookie snapshot now peer id => (w.identity S (.cookie snapshot now peer id)).map w.enter
  | .acquireInference slot => (w.inferenceSlots.acquire slot).map fun pool => { w with inferenceSlots := pool }
  | .dropPermit slot => some { w with inferenceSlots := w.inferenceSlots.release slot }
  | .finish slot => some { w with inferenceSlots := w.inferenceSlots.forget slot }

def run (w : AuthState) : List AuthEvent → Option AuthState
  | [] => some w
  | e :: events => (w.step S e).bind fun w => run w events

/-- A request that makes a new semaphore finds no other of its token in use. -/
def alone (w : AuthState) (e : AuthEvent) : Bool :=
  (w.identity S e).all fun auth =>
    !w.inferenceSlots.creates auth.id auth.maxConcurrentInference || w.inferenceSlots.idle auth.id

def eachAlone (w : AuthState) : List AuthEvent → Bool
  | [] => true
  | e :: events => w.alone S e && (w.step S e).all fun w => eachAlone w events

def limit (w : AuthState) (id : String) : Option Nat :=
  if id = "bootstrap-admin" then some 64 else (w.db.tokens.get? id).map (·.maxConcurrentInference)

end AuthState

/-! ## The maximum of a token is fixed -/

def AuthSnapshot.Agrees (snapshot : AuthSnapshot) (db : Db) : Prop :=
  ∀ id v, snapshot.get? id = some v →
    (db.tokens.get? id).map (·.maxConcurrentInference) = some v.token.maxConcurrentInference

theorem Db.loadSnapshot_agrees (E : Env) (now : Timestamp) (db : Db) : (db.loadSnapshot E now).Agrees db := by
  intro id v h
  obtain ⟨x, hx, rfl⟩ := Option.map_eq_some_iff.mp h
  obtain ⟨y, hy, rfl⟩ := List.mem_map.mp (List.mem_of_find?_eq_some hx)
  have hid := List.find?_some hx
  have hid : y.1 = id := of_decide_eq_true hid
  have hrow := Table.get?_eq_some.mpr (List.mem_filter.mp (List.mem_of_mem_take hy)).1
  rw [← hid, hrow]
  rfl

theorem Command.run_maximum {id : String} {E : Env} {d : Draw} {db : Db} (hp : PanelKnown db) (c : Command)
    {n : Nat} (h : (db.tokens.get? id).map (·.maxConcurrentInference) = some n) :
    ((c.run E d db).tokens.get? id).map (·.maxConcurrentInference) = some n := by
  obtain ⟨t, ht, rfl⟩ := Option.map_eq_some_iff.mp h
  rcases c.run_tokens (E := E) (d := d) hp with hk | ⟨wanted, row, _, hs⟩
  · have hkey : id ∈ (c.run E d db).tokens.keys := by
      rw [hk.keys]
      exact Table.mem_keys_iff.mpr ⟨t, Table.get?_eq_some.mp ht⟩
    obtain ⟨t', ht'⟩ := Table.mem_keys_iff.mp hkey
    have ht' := Table.get?_eq_some.mpr ht'
    obtain ⟨t0, ht0, r, rfl, _⟩ := hk.ages id t' ht'
    cases ht.symm.trans ht0
    rw [ht']
    rfl
  · have hne : id ≠ d.tokenId := by
      rintro rfl
      cases ht.symm.trans (Table.insert_fresh hs.stored)
    rw [Table.get?_insert hs.stored, if_neg hne, ht]
    rfl

section
variable {S : Site} {snapshot : AuthSnapshot} {now : Timestamp} {peer : Option (String → Bool)}
  {auth : AuthenticatedToken}

theorem authenticateBearer_limit {presented : String}
    (h : authenticateBearer S snapshot now peer presented = some auth) : auth = .admin ∨
      auth.id ≠ "bootstrap-admin" ∧ ∃ v, snapshot.get? auth.id = some v ∧
        v.token.maxConcurrentInference = auth.maxConcurrentInference := by
  unfold authenticateBearer at h
  split at h
  · cases h
    exact .inl rfl
  · split at h
    · cases h
    · rename_i id secret hparse
      split at h
      · cases h
      · rename_i v hv
        split at h
        · cases h
          refine .inr ⟨?_, v, hv, rfl⟩
          -- a bearer names a token by the 26 bytes of its id
          rintro (rfl : id = "bootstrap-admin")
          unfold parseBearer at hparse
          split at hparse
          · split at hparse
            · rename_i hsize
              cases hparse
              simp only [Bool.and_eq_true, decide_eq_true_eq] at hsize
              exact absurd hsize.1.1 (by decide)
            · cases hparse
          · cases hparse
        · cases h

theorem tokenIdentity_limit {id : String} (h : tokenIdentity S snapshot now peer id = some auth) : auth = .admin ∨
      auth.id ≠ "bootstrap-admin" ∧ ∃ v, snapshot.get? auth.id = some v ∧
        v.token.maxConcurrentInference = auth.maxConcurrentInference := by
  unfold tokenIdentity at h
  split at h
  · cases h
    exact .inl rfl
  · rename_i hid
    split at h
    · cases h
    · rename_i v hv
      split at h
      · cases h
        exact .inr ⟨hid, v, hv, rfl⟩
      · cases h

end

/-! ## Every interleaving -/

structure AuthState.Inv (w : AuthState) : Prop where
  panel : PanelKnown w.db
  reads : ∀ s ∈ w.reads, s.Agrees w.db
  published : ∀ s ∈ w.published, s.Agrees w.db
  pool : w.inferenceSlots.Sound fun id n => w.limit id = some n

theorem AuthState.inv_init : AuthState.Inv {} where
  panel := nofun
  reads := nofun
  published s hs := by
    cases List.mem_singleton.mp hs
    exact nofun
  pool := .empty

namespace AuthState.Inv

variable {S : Site} {w w' : AuthState} (h : w.Inv) {auth : AuthenticatedToken} {e : AuthEvent}
include h

theorem enter (hlimit : w.limit auth.id = some auth.maxConcurrentInference)
    (halone : (!w.inferenceSlots.creates auth.id auth.maxConcurrentInference ||
      w.inferenceSlots.idle auth.id) = true) : (w.enter auth).Inv where
  panel := h.panel
  reads := h.reads
  published := h.published
  pool := by
    refine h.pool.lookup (fun hc => ?_) hlimit
    rw [hc] at halone
    exact halone

theorem limit_of_agrees {s : AuthSnapshot} (hs : s ∈ w.published)
    (hauth : auth = .admin ∨ auth.id ≠ "bootstrap-admin" ∧ ∃ v, s.get? auth.id = some v ∧
      v.token.maxConcurrentInference = auth.maxConcurrentInference) :
    w.limit auth.id = some auth.maxConcurrentInference := by
  unfold AuthState.limit
  rcases hauth with rfl | ⟨hid, v, hv, hmax⟩
  · rfl
  · rw [if_neg hid, ← hmax]
    exact h.published s hs auth.id v hv

theorem limit_of_identity (he : w.identity S e = some auth) : w.limit auth.id = some auth.maxConcurrentInference := by
  cases e <;> try cases he
  case authenticate s now peer presented =>
    unfold AuthState.identity at he
    dsimp only at he
    split at he
    · rename_i hs
      exact h.limit_of_agrees hs (authenticateBearer_limit he)
    · cases he
  case cookie s now peer id =>
    unfold AuthState.identity at he
    dsimp only at he
    split at he
    · rename_i hs
      exact h.limit_of_agrees hs (tokenIdentity_limit he)
    · cases he

theorem command (d : Draw) (c : Command) : AuthState.Inv { w with db := c.run S.env d w.db } := by
  have hagrees : ∀ s : AuthSnapshot, s.Agrees w.db → s.Agrees (c.run S.env d w.db) := fun s hs id v hv =>
    c.run_maximum h.panel (hs id v hv)
  refine ⟨c.run_panelKnown h.panel, fun s hs => hagrees s (h.reads s hs),
    fun s hs => hagrees s (h.published s hs), h.pool.mono fun id n hn => ?_⟩
  unfold AuthState.limit at hn ⊢
  split at hn
  · rename_i hid
    rw [if_pos hid]
    exact hn
  · rename_i hid
    rw [if_neg hid]
    exact c.run_maximum h.panel hn

theorem step (halone : w.alone S e = true) (he : w.step S e = some w') : w'.Inv := by
  have hidentity : ∀ auth, w.identity S e = some auth → (w.enter auth).Inv := fun auth hauth => by
    unfold AuthState.alone at halone
    rw [hauth, Option.all_some] at halone
    exact h.enter (h.limit_of_identity hauth) halone
  cases e with
  | command d c => cases he; exact h.command d c
  | authSnapshot now =>
    cases he
    refine ⟨h.panel, fun s hs => ?_, h.published, h.pool⟩
    rcases List.mem_cons.mp hs with rfl | hs
    · exact Db.loadSnapshot_agrees S.env now w.db
    · exact h.reads s hs
  | storeAuth snapshot =>
    unfold AuthState.step at he
    dsimp only at he
    split at he
    · rename_i hread
      cases he
      refine ⟨h.panel, h.reads, fun s hs => ?_, h.pool.retain _⟩
      rcases List.mem_cons.mp hs with rfl | hs
      · exact h.reads s hread
      · exact h.published s hs
    · cases he
  | authenticate snapshot now peer presented =>
    obtain ⟨auth, hauth, rfl⟩ := Option.map_eq_some_iff.mp he
    exact hidentity auth hauth
  | cookie snapshot now peer id =>
    obtain ⟨auth, hauth, rfl⟩ := Option.map_eq_some_iff.mp he
    exact hidentity auth hauth
  | acquireInference slot =>
    obtain ⟨pool, hpool, rfl⟩ := Option.map_eq_some_iff.mp he
    exact ⟨h.panel, h.reads, h.published, h.pool.acquire hpool⟩
  | dropPermit slot => cases he; exact ⟨h.panel, h.reads, h.published, h.pool.release slot⟩
  | finish slot => cases he; exact ⟨h.panel, h.reads, h.published, h.pool.forget slot⟩

end AuthState.Inv

theorem AuthState.inv_run (S : Site) : ∀ (events : List AuthEvent) {w w' : AuthState}, w.Inv →
    w.eachAlone S events = true → w.run S events = some w' → w'.Inv
  | [], w, w', h, _, hrun => by cases hrun; exact h
  | e :: events, w, w', h, halone, hrun => by
    obtain ⟨w1, hstep, hrest⟩ := Option.bind_eq_some_iff.mp hrun
    have halone : (w.alone S e && (w.step S e).all fun w => eachAlone S w events) = true := halone
    rw [Bool.and_eq_true, hstep, Option.all_some] at halone
    exact inv_run S events (h.step halone.1 hstep) halone.2 hrest

theorem inference_bounded (S : Site) (events : List AuthEvent) {w : AuthState}
    (hrun : ({} : AuthState).run S events = some w) (halone : ({} : AuthState).eachAlone S events = true)
    (id : String) : w.inferenceSlots.live id ≤ (w.limit id).getD 0 := by
  have h := AuthState.inv_run S events AuthState.inv_init halone hrun
  exact h.pool.live_le fun c hc => by rw [hc]; rfl

/-! ## Two runs -/

def readAt (now : Timestamp) : AuthSnapshot := (actorLoop exampleSite.env {} tokenExists).loadSnapshot exampleSite.env now

def tokenInUse : List AuthEvent :=
  .authSnapshot 0 :: tokenExists.map (fun x => .command x.1 x.2) ++
  [.authSnapshot 1, .storeAuth (readAt 1), .authenticate (readAt 1) 1 none exampleBearer,
   .acquireInference (exampleToken, 0)]

def storedLate : List AuthEvent :=
  [.storeAuth {}, .storeAuth (readAt 1), .authenticate (readAt 1) 2 none exampleBearer,
   .acquireInference (exampleToken, 1)]

theorem token_in_use_bounded : ∃ w, ({} : AuthState).run exampleSite tokenInUse = some w ∧
    w.inferenceSlots.live exampleToken = 1 ∧ w.inferenceSlots.live exampleToken ≤ (w.limit exampleToken).getD 0 := by
  have h : (({} : AuthState).run exampleSite tokenInUse).any
      (fun w => w.inferenceSlots.live exampleToken = 1) = true := by decide +kernel
  obtain ⟨w, hw, hlive⟩ := (Option.any_eq_true _ _).mp h
  exact ⟨w, hw, of_decide_eq_true hlive, inference_bounded exampleSite tokenInUse hw (by decide +kernel) _⟩

theorem late_snapshot_doubles_permits : ∃ w, ({} : AuthState).run exampleSite (tokenInUse ++ storedLate) = some w ∧
    w.limit exampleToken = some 1 ∧ w.inferenceSlots.live exampleToken = 2 := by
  have h : (({} : AuthState).run exampleSite (tokenInUse ++ storedLate)).any
      (fun w => w.limit exampleToken = some 1 && w.inferenceSlots.live exampleToken = 2) = true := by
    decide +kernel
  obtain ⟨w, hw, hp⟩ := (Option.any_eq_true _ _).mp h
  simp only [Bool.and_eq_true, decide_eq_true_eq] at hp
  exact ⟨w, hw, hp⟩

end Sparkplane

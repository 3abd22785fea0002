import Sparkplane.AuthSound
import Sparkplane.TokenSound

/-!
# What the authentication snapshot misses

`create_token` and the launch sessions each count the active tokens before they store one, and
`load_snapshot` reads at most as many rows as the count allows. Expiry only shrinks the count as
the clock goes on, so the snapshot holds every active token. Active is what SQLite says:
`julianday` does not read every expiry that `validate_token_request` accepts.
-/

namespace Sparkplane

open Database
open Batch

variable {t row : TokenRow} {now' : Timestamp} {id : String} {wanted : List TokenScope × Option String}

/-! ## Counting tokens -/

def TokenRow.Ages (t t' : TokenRow) : Prop :=
  ∃ r, t' = { t with revokedAt := r } ∧ (r = none → t.revokedAt = none)

variable {E : Env} {now : Timestamp} {db db' : Db}

theorem TokenRow.Ages.active {t' : TokenRow} (h : t.Ages t') (ha : t'.active E now = true) : t.active E now = true := by
  obtain ⟨r, rfl, hr⟩ := h
  unfold TokenRow.active at ha ⊢
  rw [Bool.and_eq_true] at ha ⊢
  obtain ⟨hlive, hexpiry⟩ := ha
  exact ⟨by rw [hr (Option.isNone_iff_eq_none.mp hlive)]; rfl, hexpiry⟩

theorem TokenRow.active_earlier (hle : now ≤ now') (h : t.active E now' = true) : t.active E now = true := by
  unfold TokenRow.active at h ⊢
  rw [Bool.and_eq_true] at h ⊢
  refine ⟨h.1, ?_⟩
  cases he : t.expiresAt with
  | none => rfl
  | some e =>
    have hexpiry := h.2
    rw [he] at hexpiry
    obtain ⟨w, hw, hlt⟩ := (Option.any_eq_true _ _).mp hexpiry
    exact (Option.any_eq_true _ _).mpr ⟨w, hw, decide_eq_true (lt_of_le_of_lt hle (of_decide_eq_true hlt))⟩

def Db.activeTokens (E : Env) (now : Timestamp) (db : Db) : Nat :=
  (db.tokens.select fun _ t => t.active E now).length

structure TokensKept (db db' : Db) : Prop where
  panel : db'.panelTokenScopes = db.panelTokenScopes
  keys : db'.tokens.keys = db.tokens.keys
  ages : ∀ id t', db'.tokens.get? id = some t' → ∃ t, db.tokens.get? id = some t ∧ t.Ages t'

instance : Std.Refl TokensKept := ⟨fun _ => ⟨rfl, rfl, fun _ t h => ⟨t, h, t.revokedAt, rfl, fun h => h⟩⟩⟩

instance : IsTrans Db TokensKept where
  trans _ _ _ h1 h2 := by
    refine ⟨h2.panel.trans h1.panel, h2.keys.trans h1.keys, fun id t'' ht'' => ?_⟩
    obtain ⟨t', ht', r', rfl, hr'⟩ := h2.ages id t'' ht''
    obtain ⟨t, ht, r, rfl, hr⟩ := h1.ages id t' ht'
    exact ⟨t, ht, r', rfl, fun e => hr (hr' e)⟩

theorem tokensKept_of_touches {F : List Area} (hF : Area.access ∉ F) (db db' : Db) (h : Touches F db db') :
    TokensKept db db' := by
  obtain ⟨ht, hp, _⟩ := h .access hF
  refine ⟨hp, by rw [ht], fun id t htok => ?_⟩
  rw [ht] at htok
  exact ⟨t, htok, t.revokedAt, rfl, fun h => h⟩

theorem TokensKept.of_modify {f : TokenRow → TokenRow} (hf : ∀ t : TokenRow, t.Ages (f t))
    (ht : db'.tokens = db.tokens.modify id f) (hp : db'.panelTokenScopes = db.panelTokenScopes) :
    TokensKept db db' := by
  refine ⟨hp, ?_, fun k t' h => ?_⟩
  · rw [ht]
    exact Table.keys_modify _ _ _
  · rw [ht, Table.get?_modify] at h
    by_cases e : k = id
    · rw [if_pos e] at h
      obtain ⟨t, ht0, rfl⟩ := Option.map_eq_some_iff.mp h
      exact ⟨t, e ▸ ht0, hf t⟩
    · rw [if_neg e] at h
      exact ⟨t', h, t'.revokedAt, rfl, fun h => h⟩

section
variable {E : Env} {now : Timestamp} {db db' : Db}

theorem TokensKept.activeTokens (h : TokensKept db db') : db'.activeTokens E now ≤ db.activeTokens E now := by
  unfold Db.activeTokens
  rw [Table.length_select, Table.length_select, h.keys]
  refine List.countP_mono_left fun id _ ha => ?_
  obtain ⟨t', ht', hactive⟩ := (Option.any_eq_true _ _).mp ha
  obtain ⟨t, ht, hages⟩ := h.ages id t' ht'
  exact (Option.any_eq_true _ _).mpr ⟨t, ht, hages.active hactive⟩

theorem Db.activeTokens_later (hle : now ≤ now') (db : Db) : db.activeTokens E now' ≤ db.activeTokens E now := by
  unfold Db.activeTokens
  rw [Table.length_select, Table.length_select]
  refine List.countP_mono_left fun id _ ha => ?_
  obtain ⟨t, ht, hactive⟩ := (Option.any_eq_true _ _).mp ha
  exact (Option.any_eq_true _ _).mpr ⟨t, ht, TokenRow.active_earlier hle hactive⟩

theorem Db.activeTokens_insert (h : db.tokens.insert id row = some db'.tokens) :
    db'.activeTokens E now ≤ db.activeTokens E now + 1 := by
  unfold Db.activeTokens Table.select
  rw [Table.insert_rows h, List.filter_append, List.length_append]
  have hone := List.length_filter_le (fun r => TokenRow.active E now r.2) [(id, row)]
  exact Nat.add_le_add_left hone _

end

/-! ## What a command does to the tokens -/

def Command.wants (E : Env) (d : Draw) : Command → Option (List TokenScope × Option String)
  | .createToken _ _ request => some (request.scopes, request.expiresAt)
  | .createLaunchSession _ => some ([.inference], some (E.toRfc3339 (d.now + days 7)))
  | _ => none

def PanelKnown (db : Db) : Prop :=
  ∀ id, (db.panelTokenScopes.get? id).isSome = true → (db.tokens.get? id).isSome = true

structure TokenStored (E : Env) (d : Draw) (wanted : List TokenScope × Option String) (row : TokenRow) (db db' : Db) :
    Prop where
  room : atCapacity E d db = false
  stored : db.tokens.insert d.tokenId row = some db'.tokens
  verifier : row.verifier = E.hmac E.pepper (d.tokenId ++ d.secret)
  scopes : row.scopes = wanted.1.filter (· ≠ .analyticsRead)
  expiry : row.expiresAt = wanted.2
  panel : ∀ id, db'.panelTokenScopes.get? id =
    if id = d.tokenId ∧ .analyticsRead ∈ wanted.1 then some () else db.panelTokenScopes.get? id

theorem TokenStored.congr {d : Draw} {db0 : Db} (h : TokenStored E d wanted row db db')
    (ht : db.tokens = db0.tokens) (hp : db.panelTokenScopes = db0.panelTokenScopes) :
    TokenStored E d wanted row db0 db' where
  room := by
    have := h.room
    unfold atCapacity at this ⊢
    rwa [ht] at this
  stored := ht ▸ h.stored
  verifier := h.verifier
  scopes := h.scopes
  expiry := h.expiry
  panel id := hp ▸ h.panel id

namespace Database

variable {E : Env} {d : Draw} {db : Db}

theorem publishToken_touches (operationId : String) : (publishToken d operationId).Keeps (Touches [.log]) :=
  .bind (completeToken_keeps (fun _ _ _ _ _ => transition_touches d _ _ _ _ _) _ _ _ _) fun _ =>
    .bind (.query _) fun _ => .pure _

theorem storeToken_tokens (hp : PanelKnown db) (request : TokenCreateRequest) (operationId : String) :
    TokensKept db (storeToken E d request operationId db).2 ∨
    TokenStored E d (request.scopes, request.expiresAt) (newToken E d request) db (storeToken E d request operationId db).2 := by
  unfold storeToken
  rw [bind_run, query_run]
  dsimp only
  rw [bind_run, require_run]
  cases hroom : atCapacity E d db with
  | true => exact .inl (Std.Refl.refl db)
  | false =>
    rw [Bool.not_false, if_pos rfl]
    dsimp only
    rw [bind_run, commit_run, insertToken, Tx.execute_run]
    cases hins : db.tokens.insert d.tokenId (newToken E d request) with
    | none => exact .inl (Std.Refl.refl db)
    | some tokens =>
      refine .inr ?_
      have hfresh : db.panelTokenScopes.get? d.tokenId = none := by
        by_contra hne
        have hknown := hp _ (Option.isSome_iff_ne_none.mpr hne)
        rw [Table.insert_fresh hins] at hknown
        cases hknown
      dsimp only [Option.map_some]
      split
      · rename_i hscope
        rw [bind_run, commit_run, Tx.execute_run]
        dsimp only
        rw [Table.insert_eq_upsert hfresh]
        obtain ⟨ht, hpanel, _⟩ := publishToken_touches (d := d) operationId
          { db with tokens := tokens, panelTokenScopes := db.panelTokenScopes.upsert d.tokenId () } .access (by simp)
        refine ⟨hroom, ht ▸ hins, rfl, rfl, rfl, fun id => ?_⟩
        refine (congrArg (·.get? id) hpanel).trans ((Table.get?_upsert _ _ _ _).trans ?_)
        simp only [hscope, and_true]
      · rename_i hscope
        obtain ⟨ht, hpanel, _⟩ := publishToken_touches (d := d) operationId { db with tokens := tokens } .access (by simp)
        refine ⟨hroom, ht ▸ hins, rfl, rfl, rfl, fun id => ?_⟩
        rw [if_neg fun h => hscope h.2]
        exact congrArg (·.get? id) hpanel

theorem createToken_tokens (hp : PanelKnown db) (actor key : String) (request : TokenCreateRequest) :
    TokensKept db (createToken E d actor key request db).2 ∨
    ∃ row, TokenStored E d (request.scopes, request.expiresAt) row db (createToken E d actor key request db).2 := by
  unfold createToken
  rw [bind_run, query_run]
  cases encodeRequest E request.toJson "encode token request" with
  | error e => exact .inl (Std.Refl.refl db)
  | ok hash =>
    dsimp only
    rw [bind_run]
    rcases (acceptOperation d actor "token.create" key hash none).commit_cases db with
      ⟨accepted, db1, hrun, hcommit⟩ | ⟨e, _, hcommit⟩ <;> rw [hcommit]
    · dsimp only
      obtain ⟨ht, hpanel, _⟩ := acceptOperation_touches d actor "token.create" key hash none db _ db1 hrun .access
        (by simp)
      have hkept : TokensKept db db1 := tokensKept_of_touches (by simp) db db1
        (acceptOperation_touches d actor "token.create" key hash none db _ db1 hrun)
      by_cases hreused : accepted.reused = true
      · rw [if_pos hreused]
        cases (accepted.operation.result.bind fun result => result.get "token_id").bind fun id => id.asStr with
        | none => exact .inl hkept
        | some id =>
          dsimp only
          rw [bind_run, query_run]
          cases db1.readToken id <;> exact .inl hkept
      · rw [if_neg hreused]
        have hp1 : PanelKnown db1 := fun id h => by
          rw [hpanel] at h
          rw [ht]
          exact hp id h
        rcases storeToken_tokens (E := E) (d := d) hp1 request accepted.operation.id with hk | hs
        · exact .inl (IsTrans.trans _ _ _ hkept hk)
        · exact .inr ⟨_, hs.congr ht hpanel⟩
    · exact .inl (Std.Refl.refl db)

theorem insertSession_tokens {request : LaunchSessionRequest} {hash : String} {inst : InstanceDocument} {u : Unit}
    {db' : Db} (hroom : atCapacity E d db = false)
    (h : insertSession E d request hash inst db = .ok (u, db')) :
    ∃ row, TokenStored E d ([.inference], some (E.toRfc3339 (d.now + days 7))) row db db' := by
  unfold insertSession at h
  obtain ⟨_, db1, hm, h1⟩ := Tx.bind_ok h
  cases hm
  obtain ⟨_, db2, hi, h2⟩ := Tx.bind_ok h1
  unfold insertToken at hi
  rw [Tx.execute_run] at hi
  split at hi
  · rename_i db₂' hins
    cases hi
    obtain ⟨tokens, htokens, rfl⟩ := Option.map_eq_some_iff.mp hins
    rw [Tx.execute_run] at h2
    split at h2
    · rename_i db3 hsess
      cases h2
      split at hsess
      · cases hsess
      · obtain ⟨sessions, _, rfl⟩ := Option.map_eq_some_iff.mp hsess
        exact ⟨_, hroom, htokens, rfl, rfl, rfl, fun id => (if_neg fun hid => by simp at hid).symm⟩
    · cases h2
  · cases hi

theorem createLaunchSession_tokens (request : LaunchSessionRequest) :
    TokensKept db (createLaunchSession E d request db).2 ∨
    ∃ row, TokenStored E d ([.inference], some (E.toRfc3339 (d.now + days 7))) row db
      (createLaunchSession E d request db).2 := by
  unfold createLaunchSession
  rw [bind_run, require_run]
  split
  · rename_i heq
    split at heq <;> cases heq
    rw [bind_run, query_run]
    cases encodeRequest E request.toJson "invalid session request" with
    | error e => exact .inl (Std.Refl.refl db)
    | ok hash =>
      dsimp only
      rw [bind_run, query_run]
      cases db.sessions.get? request.id with
      | some existing =>
        have hkeeps : TokensKept db ((do
            require (existing.requestHash = hash) (.conflict "session identity conflict")
            let session ← Batch.query (·.readSession request.id)
            return (⟨session, none⟩ : LaunchSessionCreated) : Cmd LaunchSessionCreated) db).2 :=
          (Keeps.bind (.require _ _) fun _ => .bind (.query _) fun _ => .pure _) db
        exact .inl hkeeps
      | none =>
        dsimp only
        rw [bind_run, query_run]
        cases db.readInstance request.inst with
        | error e => exact .inl (Std.Refl.refl db)
        | ok inst =>
          dsimp only
          rw [bind_run, query_run]
          dsimp only
          rw [bind_run, require_run]
          cases hroom : atCapacity E d db with
          | true => exact .inl (Std.Refl.refl db)
          | false =>
            rw [Bool.not_false, if_pos rfl]
            dsimp only
            rw [bind_run]
            rcases (insertSession E d request hash inst).commit_cases db with
              ⟨_, db1, hrun, hcommit⟩ | ⟨e, _, hcommit⟩ <;> rw [hcommit]
            · dsimp only
              rw [bind_run, query_run]
              have hstored := insertSession_tokens hroom hrun
              cases db1.readSession request.id with
              | error e => exact .inr hstored
              | ok session => exact .inr hstored
            · exact .inl (Std.Refl.refl db)
  · rename_i heq
    split at heq <;> cases heq
    exact .inl (Std.Refl.refl db)

end Database

section
variable {E : Env} {d : Draw} {db : Db}

theorem revokes_ages (r : Timestamp) (t : TokenRow) : t.Ages { t with revokedAt := t.revokedAt.or (some r) } :=
  ⟨_, rfl, fun h => (Option.or_eq_none_iff.mp h).1⟩

theorem Command.run_tokens (hp : PanelKnown db) (c : Command) : TokensKept db (c.run E d db) ∨
    ∃ wanted row, c.wants E d = some wanted ∧ TokenStored E d wanted row db (c.run E d db) := by
  have haccept : ∀ tokenId kind key hash target,
      (Database.acceptOperation d tokenId kind key hash target).Keeps TokensKept :=
    fun _ _ _ _ _ => (acceptOperation_touches d _ _ _ _ _).mono (tokensKept_of_touches (by simp))
  have htransition : ∀ id next p result problem, (Database.transition d id next p result problem).Keeps TokensKept :=
    fun _ _ _ _ _ => (transition_touches d _ _ _ _ _).mono (tokensKept_of_touches (by simp))
  cases hm : c.managesTokens with
  | true =>
    cases c <;> try (cases hm; done)
    case createToken actor key request =>
      rcases createToken_tokens (E := E) (d := d) hp actor key request with h | ⟨row, h⟩
      · exact .inl h
      · exact .inr ⟨_, row, rfl, h⟩
    case createLaunchSession request =>
      rcases @createLaunchSession_tokens E d db request with h | ⟨row, h⟩
      · exact .inl h
      · exact .inr ⟨_, row, rfl, h⟩
    case revokeToken actor key id =>
      exact .inl (revokeToken_keeps htransition (fun _ _ _ => haccept _ _ _ _ _)
        (fun db => TokensKept.of_modify (fun t => ⟨some d.now, rfl, nofun⟩) rfl rfl) actor key db)
    case finishLaunchSession id =>
      exact .inl (finishLaunchSession_keeps (fun db token => TokensKept.of_modify (revokes_ages d.now) rfl rfl) db)
  | false =>
    refine .inl (c.run_keeps_of haccept htransition
      (fun _ _ => (promoteModel_touches _ _).mono (tokensKept_of_touches (by simp)))
      (fun _ => (removeModel_touches _).mono (tokensKept_of_touches (by simp)))
      (tokensKept_of_touches (by simp)) db fun h => ?_)
    rw [hm] at h
    cases h

theorem Command.run_panelKnown (hp : PanelKnown db) (c : Command) : PanelKnown (c.run E d db) := by
  intro id h
  rcases c.run_tokens (E := E) (d := d) hp with hk | ⟨wanted, row, _, hs⟩
  · rw [hk.panel] at h
    have hid := hp id h
    rw [Option.isSome_iff_ne_none, ne_eq, Table.get?_eq_none, not_not] at hid ⊢
    rw [hk.keys]
    exact hid
  · rw [Table.get?_insert hs.stored]
    rw [hs.panel] at h
    by_cases e : id = d.tokenId
    · rw [if_pos e]; rfl
    · rw [if_neg e]
      rw [if_neg fun hid => e hid.1] at h
      exact hp id h

theorem Command.run_activeTokens (hp : PanelKnown db) (h : db.activeTokens E d.now ≤ maxActiveTokens)
    (c : Command) : (c.run E d db).activeTokens E d.now ≤ maxActiveTokens := by
  rcases c.run_tokens (E := E) (d := d) hp with hk | ⟨wanted, row, _, hs⟩
  · exact le_trans hk.activeTokens h
  · have hroom : db.activeTokens E d.now < maxActiveTokens :=
      lt_of_not_ge (of_decide_eq_false hs.room)
    have hone : (c.run E d db).activeTokens E d.now ≤ db.activeTokens E d.now + 1 :=
      Db.activeTokens_insert hs.stored
    omega

end

/-! ## Every run -/

theorem activeTokens_actorLoop (E : Env) : ∀ (cmds : List (Draw × Command)) (db : Db) (now : Timestamp),
    (cmds.map (·.1.now) ++ [now]).Pairwise (· ≤ ·) → PanelKnown db →
    (∀ t ∈ cmds.map (·.1.now) ++ [now], db.activeTokens E t ≤ maxActiveTokens) →
    (actorLoop E db cmds).activeTokens E now ≤ maxActiveTokens
  | [], db, now, _, _, h => h now (by simp)
  | (d, c) :: cmds, db, now, hclock, hp, h => by
    rw [List.map_cons, List.cons_append, List.pairwise_cons] at hclock
    have hstep := c.run_activeTokens hp (h d.now (by simp))
    refine activeTokens_actorLoop E cmds (c.run E d db) now hclock.2 (c.run_panelKnown hp) fun t ht => ?_
    exact le_trans (Db.activeTokens_later (hclock.1 t ht) _) hstep

theorem panelKnown_actorLoop (E : Env) (cmds : List (Draw × Command)) : PanelKnown (actorLoop E {} cmds) :=
  actorLoop_keeps (R := Preserves PanelKnown) (fun _ c _ h => c.run_panelKnown h) cmds {} nofun

/-- The row is what one command of the run asked for: the token was not there before, and it has
the verifier of its secret, the wanted expiry and the wanted scopes. -/
def Issued (E : Env) (cmds : List (Draw × Command)) (id : String) (row : TokenRow) : Prop :=
  ∃ before d c after wanted, cmds = before ++ (d, c) :: after ∧ d.tokenId = id ∧
    (actorLoop E {} before).tokens.get? id = none ∧ c.wants E d = some wanted ∧
    row.verifier = E.hmac E.pepper (id ++ d.secret) ∧ row.expiresAt = wanted.2 ∧
    ∀ s, s ∈ (actorLoop E {} cmds).tokenScopes id row.scopes ↔ s ∈ wanted.1

theorem actorLoop_snoc (E : Env) (cmds : List (Draw × Command)) (d : Draw) (c : Command) :
    actorLoop E {} (cmds ++ [(d, c)]) = c.run E d (actorLoop E {} cmds) := by
  rw [actorLoop_append]
  rfl

theorem Db.tokenScopes_of_panel (h : db'.panelTokenScopes.get? id = db.panelTokenScopes.get? id)
    (legacy : List TokenScope) : db'.tokenScopes id legacy = db.tokenScopes id legacy := by
  unfold Db.tokenScopes
  rw [h]

theorem TokenStored.mem_scopes {d : Draw} (hp : PanelKnown db) (h : TokenStored E d wanted row db db')
    (s : TokenScope) : s ∈ db'.tokenScopes d.tokenId row.scopes ↔ s ∈ wanted.1 := by
  have hnone : db.panelTokenScopes.get? d.tokenId = none := by
    by_contra hne
    have hknown := hp _ (Option.isSome_iff_ne_none.mpr hne)
    rw [Table.insert_fresh h.stored] at hknown
    cases hknown
  unfold Db.tokenScopes
  by_cases ha : .analyticsRead ∈ wanted.1
  · rw [(h.panel d.tokenId).trans (if_pos ⟨rfl, ha⟩), if_pos (by rfl), h.scopes]
    by_cases hs : s = .analyticsRead
    · simp [hs, ha]
    · simp [hs]
  · rw [((h.panel d.tokenId).trans (if_neg fun hid => ha hid.2)).trans hnone, if_neg nofun, h.scopes]
    by_cases hs : s = .analyticsRead
    · simp [hs, ha]
    · simp [hs]

theorem issued_actorLoop (E : Env) (cmds : List (Draw × Command)) :
    ∀ id row, (actorLoop E {} cmds).tokens.get? id = some row → Issued E cmds id row := by
  induction cmds using List.reverseRecOn with
  | nil => nofun
  | append_singleton cmds x ih =>
    obtain ⟨d, c⟩ := x
    intro id row' hrow'
    rw [actorLoop_snoc] at hrow'
    have hp := panelKnown_actorLoop E cmds
    -- a token that was there already keeps its scopes, expiry and verifier
    have hold : ∀ {row : TokenRow}, Issued E cmds id row → row'.verifier = row.verifier →
        row'.expiresAt = row.expiresAt → row'.scopes = row.scopes → (c.run E d (actorLoop E {} cmds)).panelTokenScopes.get? id =
          (actorLoop E {} cmds).panelTokenScopes.get? id → Issued E (cmds ++ [(d, c)]) id row' := by
      rintro row ⟨before, d0, c0, after, wanted, hcmds, hid, hfresh, hwants, hv, he, hscopes⟩ hv' he' hs' hpanel
      refine ⟨before, d0, c0, after ++ [(d, c)], wanted, by rw [hcmds]; simp, hid, hfresh, hwants,
        hv'.trans hv, he'.trans he, fun s => ?_⟩
      rw [actorLoop_snoc, Db.tokenScopes_of_panel hpanel, hs']
      exact hscopes s
    rcases c.run_tokens (E := E) (d := d) hp with hk | ⟨wanted, row, hwants, hs⟩
    · obtain ⟨row, hrow, r, rfl, _⟩ := hk.ages id row' hrow'
      exact hold (ih id row hrow) rfl rfl rfl (by rw [hk.panel])
    · rw [Table.get?_insert hs.stored] at hrow'
      by_cases e : id = d.tokenId
      · rw [if_pos e] at hrow'
        cases hrow'
        subst e
        refine ⟨cmds, d, c, [], wanted, rfl, rfl, Table.insert_fresh hs.stored, hwants, hs.verifier, hs.expiry,
          fun s => ?_⟩
        rw [actorLoop_snoc]
        exact hs.mem_scopes hp s
      · rw [if_neg e] at hrow'
        exact hold (ih id row' hrow') rfl rfl rfl ((hs.panel id).trans (if_neg fun h => e h.1))

theorem Db.loadSnapshot_get? (h : db.activeTokens E now ≤ 1024) (id : String) : (db.loadSnapshot E now).get? id =
      ((db.tokens.get? id).filter (·.active E now)).map fun t => ⟨db.tokenDocument id t, t.verifier⟩ := by
  unfold AuthSnapshot.get? Db.loadSnapshot
  rw [List.take_of_length_le h, List.find?_map, Option.map_map]
  have hfind := db.tokens.find?_select (fun _ t => t.active E now) id
  rw [show ((fun t : String × TokenVerifier => decide (t.1 = id)) ∘ fun t : String × TokenRow =>
    (t.1, ⟨db.tokenDocument t.1 t.2, t.2.verifier⟩)) = fun r => decide (r.1 = id) from rfl, hfind, Option.map_map]
  rfl

/-! ## The snapshot -/

/-- Neither revoked nor expired, by the parser that `validate_token_request` checks the expiry with. -/
def TokenRow.live (E : Env) (now : Timestamp) (t : TokenRow) : Bool :=
  t.revokedAt.isNone &&
    match t.expiresAt with
    | none => true
    | some e => (E.parseRfc3339 e).any (now < ·)

/-- The two parsers agree on whether the text is a time after `now`. -/
def Env.ReadsAlike (E : Env) (now : Timestamp) (expiry : String) : Prop :=
  (E.julianday expiry).any (now < ·) = (E.parseRfc3339 expiry).any (now < ·)

theorem TokenRow.active_eq_live_iff : t.active E now = t.live E now ↔
    (t.revokedAt = none → ∀ e, t.expiresAt = some e → E.ReadsAlike now e) := by
  unfold TokenRow.active TokenRow.live Env.ReadsAlike
  cases hr : t.revokedAt with
  | some r => simp
  | none => cases he : t.expiresAt <;> simp

theorem map_filter_eq_iff {α β : Type} {o : Option α} {p q : α → Bool} {f : α → β} :
    (o.filter p).map f = (o.filter q).map f ↔ ∀ a, o = some a → p a = q a := by
  cases o with
  | none => simp
  | some a => cases hp : p a <;> cases hq : q a <;> simp [Option.filter, hp, hq]

theorem snapshot_complete_iff (E : Env) (cmds : List (Draw × Command)) (now : Timestamp)
    (hclock : (cmds.map (·.1.now) ++ [now]).Pairwise (· ≤ ·)) :
    ((∀ id, ((actorLoop E {} cmds).loadSnapshot E now).get? id =
      (((actorLoop E {} cmds).tokens.get? id).filter (·.live E now)).map fun t =>
        ⟨(actorLoop E {} cmds).tokenDocument id t, t.verifier⟩) ↔
      ∀ id t e, (actorLoop E {} cmds).tokens.get? id = some t → t.revokedAt = none → t.expiresAt = some e →
        E.ReadsAlike now e) ∧
    (∀ id t, (actorLoop E {} cmds).tokens.get? id = some t → Issued E cmds id t) ∧
    (((actorLoop E {} cmds).tokens.select fun _ t => t.active E now).length ≤ 1024) := by
  have hcount := activeTokens_actorLoop E cmds {} now hclock nofun fun _ _ => Nat.zero_le _
  refine ⟨?_, issued_actorLoop E cmds, hcount⟩
  constructor
  · intro h id t e ht hlive hexpiry
    have hsame := map_filter_eq_iff.mp ((Db.loadSnapshot_get? hcount id).symm.trans (h id)) t ht
    exact TokenRow.active_eq_live_iff.mp hsame hlive e hexpiry
  · intro h id
    refine (Db.loadSnapshot_get? hcount id).trans (map_filter_eq_iff.mpr fun t ht => ?_)
    exact TokenRow.active_eq_live_iff.mpr fun hlive e => h id t e ht hlive

/-- It reads RFC 3339 times with a capital T only. -/
def expiryEnv : Env :=
  { exampleEnv with
    parseRfc3339 := fun s =>
      if s ∈ ["2030-01-01T00:00:00Z", "2030-01-01t00:00:00Z"] then some 1893456000000 else none
    julianday := fun s => if s = "2030-01-01T00:00:00Z" then some 1893456000000 else none }

def analyticsToken : String := "01JBBBBBBBBBBBBBBBBBBBBBBB"

def analyticsRequest (expiry : String) : TokenCreateRequest :=
  { exampleTokenRequest with scopes := [.analyticsRead, .inference], expiresAt := some expiry }

def issuedAndRevoked (expiry : String) : List (Draw × Command) := tokenExists ++
  [({ now := 1, operationId := "op1", tokenId := analyticsToken, secret := exampleSecret },
    .createToken "bootstrap-admin" "k1" (analyticsRequest expiry)),
   ({ now := 2, operationId := "op2" }, .revokeToken "bootstrap-admin" "k2" exampleToken)]

theorem analytics_token_in_snapshot :
    ((actorLoop expiryEnv {} (issuedAndRevoked "2030-01-01T00:00:00Z")).loadSnapshot expiryEnv 3).get? exampleToken =
      none ∧
    (((actorLoop expiryEnv {} (issuedAndRevoked "2030-01-01T00:00:00Z")).loadSnapshot expiryEnv 3).get?
      analyticsToken).map (fun v => (v.token.scopes, v.verifier)) =
        some ([.inference, .analyticsRead], "pepper" ++ analyticsToken ++ exampleSecret) := by
  have hread : ∀ r ∈ (actorLoop expiryEnv {} (issuedAndRevoked "2030-01-01T00:00:00Z")).tokens.rows,
      r.2.expiresAt.all fun e => (expiryEnv.julianday e).any (3 < ·) = (expiryEnv.parseRfc3339 e).any (3 < ·) := by
    decide +kernel
  have h := (snapshot_complete_iff expiryEnv (issuedAndRevoked "2030-01-01T00:00:00Z") 3 (by decide)).1.mpr
    fun id t e ht _ he => by
      have hall := hread (id, t) (Table.get?_eq_some.mp ht)
      unfold Env.ReadsAlike
      simpa [he] using hall
  rw [h, h]
  decide +kernel

/-- The expiry with a small t is accepted. The token is there, unrevoked and good until 2030, and no snapshot
has it. -/
theorem lowercase_expiry_missing : validateTokenRequest expiryEnv 1 (analyticsRequest "2030-01-01t00:00:00Z") = .ok () ∧
    ((actorLoop expiryEnv {} (issuedAndRevoked "2030-01-01t00:00:00Z")).tokens.get? analyticsToken).map
      (·.live expiryEnv 3) = some true ∧
    ((actorLoop expiryEnv {} (issuedAndRevoked "2030-01-01t00:00:00Z")).loadSnapshot expiryEnv 3).get?
      analyticsToken = none := by
  decide +kernel

end Sparkplane

import Sparkplane.LogSound
import Sparkplane.Agent

/-!
# Revocation and the published snapshot

A handler that changes tokens commits its command, reads the snapshot of usable
tokens and publishes it, in three steps. `revocation_final`: if no revocation
commits while another handler holds a snapshot it has read and not published,
then a token whose revocation has been answered is never again in the published
snapshot. `stale_snapshot_revives` is a run without that rule.
-/

namespace Sparkplane

open Database
open Machine

variable {t id tokenId key : String} {F : List Area} {tokens : Table String TokenRow}
variable {sessions : Table String SessionRow} {row : TokenRow} {f : TokenRow → TokenRow} {c : Command}
variable {r : Response}

/-! ## Tokens that are gone -/

def Db.tokenState (db : Db) (t : String) : Option Bool := (db.tokens.get? t).map (·.revokedAt.isSome)

def Db.Asked (db : Db) (t : String) : Prop :=
  ∃ o row, db.operations.get? o = some row ∧ row.kind = "token.revoke" ∧ row.target = some t

def Db.Gone (db : Db) (t : String) : Prop :=
  db.tokenState t = some true ∨ (db.tokenState t = none ∧ db.Asked t)

theorem Db.loadSnapshot_gone {db : Db} (h : db.Gone t) (E : Env) (now : Timestamp) :
    (db.loadSnapshot E now).get? t = none := by
  unfold AuthSnapshot.get? loadSnapshot
  rw [Option.map_eq_none_iff, List.find?_eq_none]
  intro x hx
  obtain ⟨y, hy, rfl⟩ := List.mem_map.mp hx
  obtain ⟨hrow, hactive⟩ := List.mem_filter.mp (List.mem_of_mem_take hy)
  simp only [decide_eq_true_eq]
  rintro rfl
  have hs : db.tokenState y.1 = some y.2.revokedAt.isSome := by
    unfold tokenState
    rw [Table.get?_eq_some.mpr hrow]; rfl
  have hlive : y.2.revokedAt.isNone = true := by
    unfold TokenRow.active at hactive
    exact (Bool.and_eq_true _ _ ▸ hactive).1
  rcases h with h | ⟨h, _⟩
  · rw [hs] at h
    simp_all
  · rw [hs] at h; cases h

structure AccessStep (E : Env) (create revoke : Option String) (db db' : Db) : Prop where
  ops : OpStep db db'
  asked : ∀ t, db'.Asked t → db.Asked t ∨ revoke = some t
  kept : ∀ t, db'.tokenState t = none → db.tokenState t = none
  created : ∀ t, db.tokenState t = none → db'.tokenState t = none ∨ create = some t
  revoked : ∀ t, db.tokenState t = some true → db'.tokenState t = some true
  live : ∀ t, db'.tokenState t = some true → db.tokenState t = some true ∨ revoke = some t
  keys : ∀ a k row, db'.idempotency.get? (a, "token.revoke", k) = some row →
    db.idempotency.get? (a, "token.revoke", k) = some row ∨
    ∃ t op, revoke = some t ∧ row.requestSha256 = E.sha256 t ∧
      db'.operations.get? row.operationId = some op ∧ op.kind = "token.revoke" ∧ op.target = some t
  sessions : ∀ s row, db'.sessions.get? s = some row →
    (∃ row₀, db.sessions.get? s = some row₀ ∧ row₀.tokenId = row.tokenId) ∨
    db'.tokenState row.tokenId ≠ none

section
variable {E : Env} {create revoke : Option String} {db db' : Db}

instance : Std.Refl (AccessStep E create revoke) where
  refl db := ⟨Std.Refl.refl db, fun _ => .inl, fun _ h => h, fun _ => .inl, fun _ h => h, fun _ => .inl,
    fun _ _ _ => .inl, fun _ row h => .inl ⟨row, h, rfl⟩⟩

instance : IsTrans Db (AccessStep E create revoke) where
  trans db₁ db₂ db₃ h1 h2 := by
    refine ⟨IsTrans.trans _ _ _ h1.ops h2.ops, fun t h => ?_, fun t h => h1.kept t (h2.kept t h),
      fun t h => ?_, fun t h => h2.revoked t (h1.revoked t h), fun t h => ?_, fun a k row h => ?_,
      fun s row h => ?_⟩
    · exact (h2.asked t h).elim (h1.asked t) .inr
    · exact (h1.created t h).elim (h2.created t) .inr
    · exact (h2.live t h).elim (h1.live t) .inr
    · rcases h2.keys a k row h with h | h
      · rcases h1.keys a k row h with h | ⟨t, op, hr, hs, ho, hk, ht⟩
        · exact .inl h
        · obtain ⟨op', ho', f⟩ := h2.ops _ _ ho
          exact .inr ⟨t, op', hr, hs, ho', f.kind.trans hk, f.target.trans ht⟩
      · exact .inr h
    · rcases h2.sessions s row h with ⟨row₁, h, e₁⟩ | h
      · rcases h1.sessions s row₁ h with ⟨row₀, h, e₀⟩ | h
        · exact .inl ⟨row₀, h, e₀.trans e₁⟩
        · exact .inr fun hn => h (h2.kept _ (e₁ ▸ hn))
      · exact .inr h

theorem AccessStep.asked_mono (h : AccessStep E create revoke db db') (ha : db.Asked t) : db'.Asked t := by
  obtain ⟨o, row, ho, hk, ht⟩ := ha
  obtain ⟨row', ho', f⟩ := h.ops o row ho
  exact ⟨o, row', ho', f.kind.trans hk, f.target.trans ht⟩

theorem AccessStep.gone (h : AccessStep E create revoke db db')
    (hfresh : ∀ t, create = some t → ¬ db.Asked t) (hg : db.Gone t) : db'.Gone t := by
  rcases hg with hg | ⟨hn, ha⟩
  · exact .inl (h.revoked t hg)
  · rcases h.created t hn with hn' | hc
    · exact .inr ⟨hn', h.asked_mono ha⟩
    · exact absurd ha (hfresh t hc)

theorem AccessStep.gone_back (h : AccessStep E create none db db') (hg : db'.Gone t) : db.Gone t := by
  rcases hg with hg | ⟨hn, ha⟩
  · exact (h.live t hg).elim .inl nofun
  · exact (h.asked t ha).elim (fun ha => .inr ⟨h.kept t hn, ha⟩) nofun

end

/-! ## The invariant of the token tables -/

/-- An accepted revocation is remembered under its key with its token, which is
gone, and the token of a session exists. -/
structure TokensOk (E : Env) (db : Db) : Prop where
  keys : ∀ a k row, db.idempotency.get? (a, "token.revoke", k) = some row →
    ∃ t op, row.requestSha256 = E.sha256 t ∧ db.operations.get? row.operationId = some op ∧
      op.kind = "token.revoke" ∧ op.target = some t ∧ db.Gone t
  sessions : ∀ s row, db.sessions.get? s = some row → db.tokenState row.tokenId ≠ none

theorem tokensOk_empty (E : Env) : TokensOk E {} := ⟨nofun, nofun⟩

theorem TokensOk.step {E : Env} {create revoke : Option String} {db db' : Db} (hok : TokensOk E db)
    (h : AccessStep E create revoke db db') (hfresh : ∀ t, create = some t → ¬ db.Asked t)
    (hrevoke : ∀ t, revoke = some t → db' = db ∨ db'.Gone t) : TokensOk E db' where
  keys a k row hrow := by
    rcases h.keys a k row hrow with h0 | ⟨t, op, hr, hs, ho, hk, ht⟩
    · obtain ⟨t, op, hs, ho, hk, ht, hg⟩ := hok.keys a k row h0
      obtain ⟨op', ho', f⟩ := h.ops _ _ ho
      exact ⟨t, op', hs, ho', f.kind.trans hk, f.target.trans ht, h.gone hfresh hg⟩
    · rcases hrevoke t hr with e | hg
      · subst e; exact hok.keys a k row hrow
      · exact ⟨t, op, hs, ho, hk, ht, hg⟩
  sessions s row hrow hn := by
    rcases h.sessions s row hrow with ⟨row0, h0, e⟩ | h'
    · exact hok.sessions s row0 h0 (e ▸ h.kept _ hn)
    · exact h' hn

/-! ## The four commands -/

namespace Database

variable (E : Env) (d : Draw) {create revoke : Option String}

theorem accessStep_of_touches (hF : Area.access ∉ F) {db db' : Db} (h : Touches F db db')
    (hops : OpStep db db') (hasked : ∀ t, db'.Asked t → db.Asked t ∨ revoke = some t)
    (hkeys : ∀ a k row, db'.idempotency.get? (a, "token.revoke", k) = some row →
      db.idempotency.get? (a, "token.revoke", k) = some row ∨
      ∃ t op, revoke = some t ∧ row.requestSha256 = E.sha256 t ∧
        db'.operations.get? row.operationId = some op ∧ op.kind = "token.revoke" ∧ op.target = some t) :
    AccessStep E create revoke db db' := by
  obtain ⟨ht, _, hs⟩ := h .access hF
  have hst : ∀ t, db'.tokenState t = db.tokenState t := fun t => by unfold Db.tokenState; rw [ht]
  refine ⟨hops, hasked, fun t h => hst t ▸ h, fun t h => .inl ((hst t).trans h),
    fun t h => (hst t).trans h, fun t h => .inl ((hst t).symm.trans h), hkeys, fun s row h => ?_⟩
  rw [hs] at h
  exact .inl ⟨row, h, rfl⟩

theorem asked_advanced {db : Db} {now : Timestamp} {next : OperationState}
    {p : OperationProgress} {result : Option Json} {problem : Option ProblemDocument}
    (h : (db.advanced now id next p result problem).Asked t) : db.Asked t := by
  obtain ⟨o, row', ho, hk, ht⟩ := h
  have ho : (db.operations.modify id (·.advance now next p result problem)).get? o = some row' := ho
  rw [Table.get?_modify] at ho
  by_cases e : o = id
  · subst e
    rw [if_pos rfl] at ho
    obtain ⟨row, hrow, rfl⟩ := Option.map_eq_some_iff.mp ho
    exact ⟨o, row, hrow, hk, ht⟩
  · rw [if_neg e] at ho
    exact ⟨o, row', ho, hk, ht⟩

theorem transition_accessStep (id : String) (next : OperationState) (p : OperationProgress)
    (result : Option Json) (problem : Option ProblemDocument) :
    (transition d id next p result problem).Keeps (AccessStep E create revoke) := by
  intro db a db' h
  have htouches := transition_touches d _ _ _ _ _ db a db' h
  have hops := transition_opStep d _ _ _ _ _ db a db' h
  rw [transition_run] at h
  split at h
  · cases h
  · split at h
    · cases h; exact Std.Refl.refl db
    · split at h
      · cases h
        exact accessStep_of_touches E (by simp) htouches hops (fun t ha => .inl (asked_advanced ha))
          fun a k row hrow => .inl hrow
      · cases h

theorem acceptOperation_accessStep {kind hash : String} {target : Option String}
    (hkind : kind = "token.revoke" → ∃ t, revoke = some t ∧ target = some t ∧ hash = E.sha256 t) :
    (acceptOperation d tokenId kind key hash target).Keeps (AccessStep E create revoke) := by
  intro db a db' h
  have htouches := acceptOperation_touches d _ _ _ _ _ db a db' h
  have hops := acceptOperation_opStep d _ _ _ _ _ db a db' h
  rw [acceptOperation_run] at h
  split at h
  · split at h
    · split at h <;> cases h
      exact Std.Refl.refl db
    · cases h
  · split at h
    · cases h
    · cases h
      have hop : ∀ o, (db.accepted d tokenId kind key hash target).operations.get? o =
          if o = d.operationId then
            some ⟨kind, tokenId, target, .accepted, acceptedProgress, d.now, d.now, none, none⟩
          else db.operations.get? o := fun o => Table.get?_upsert _ _ _ _
      refine accessStep_of_touches E (by simp) htouches hops (fun t ha => ?_) fun a k row hrow => ?_
      · obtain ⟨o, row, ho, hk, ht⟩ := ha
        rw [hop] at ho
        by_cases e : o = d.operationId
        · rw [if_pos e] at ho
          cases ho
          obtain ⟨t', hr, ht', _⟩ := hkind hk
          exact .inr (by rw [hr, ← ht', ← ht])
        · rw [if_neg e] at ho
          exact .inl ⟨o, row, ho, hk, ht⟩
      · have hrow : (db.idempotency.upsert (tokenId, kind, key) ⟨hash, d.operationId⟩).get?
            (a, "token.revoke", k) = some row := hrow
        rw [Table.get?_upsert] at hrow
        by_cases e : (a, "token.revoke", k) = (tokenId, kind, key)
        · rw [if_pos e] at hrow
          cases hrow
          cases e
          obtain ⟨t, hr, ht, hs⟩ := hkind rfl
          exact .inr ⟨t, _, hr, hs, (hop _).trans (if_pos rfl), rfl, ht⟩
        · rw [if_neg e] at hrow
          exact .inl hrow

theorem accessStep_tokens {db : Db} {panel : Table String Unit}
    {db' : Db}
    (e : db' = { db with tokens := tokens, panelTokenScopes := panel, sessions := sessions })
    (hkept : ∀ t, db'.tokenState t = none → db.tokenState t = none)
    (hcreated : ∀ t, db.tokenState t = none → db'.tokenState t = none ∨ create = some t)
    (hrevoked : ∀ t, db.tokenState t = some true → db'.tokenState t = some true)
    (hlive : ∀ t, db'.tokenState t = some true → db.tokenState t = some true ∨ revoke = some t)
    (hsessions : ∀ s row, db'.sessions.get? s = some row →
      (∃ row0, db.sessions.get? s = some row0 ∧ row0.tokenId = row.tokenId) ∨
      db'.tokenState row.tokenId ≠ none) : AccessStep E create revoke db db' := by
  subst e
  exact ⟨fun o row h => ⟨row, h, .refl row⟩, fun _ => .inl, hkept, hcreated, hrevoked, hlive,
    fun _ _ _ => .inl, hsessions⟩

theorem tokenState_insert (db : Db)
    (h : db.tokens.insert id row = some tokens) (hr : row.revokedAt = none) (t : String) :
    ({ db with tokens := tokens } : Db).tokenState t = if t = id then some false else db.tokenState t := by
  unfold Db.tokenState
  dsimp only
  rw [Table.get?_insert h]
  by_cases e : t = id
  · simp [e, hr]
  · simp [e]

theorem insertToken_accessStep (hr : row.revokedAt = none) :
    (insertToken id row).Keeps (AccessStep E (some id) revoke) := by
  refine .execute fun db db' h => ?_
  obtain ⟨tokens, ht, rfl⟩ := Option.map_eq_some_iff.mp h
  have hst := tokenState_insert db ht hr
  have hnew : db.tokenState id = none := by unfold Db.tokenState; rw [Table.insert_fresh ht]; rfl
  refine accessStep_tokens E rfl (fun t => ?_) (fun t => ?_) (fun t => ?_) (fun t => ?_)
    fun s row h => .inl ⟨row, h, rfl⟩
  all_goals
    rw [hst t]
    by_cases e : t = id
    · subst e; simp [hnew]
    · rw [if_neg e]; tauto

theorem insertSession_accessStep (r : LaunchSessionRequest) (hash : String) (inst : InstanceDocument) :
    (insertSession E d r hash inst).Keeps (AccessStep E (some d.tokenId) revoke) := by
  intro db a db' h
  unfold insertSession at h
  obtain ⟨_, db1, h1, h⟩ := Tx.bind_ok h
  obtain ⟨_, db2, h2, h⟩ := Tx.bind_ok h
  have step1 : AccessStep E (some d.tokenId) revoke db db1 := by
    cases h1
    refine accessStep_tokens E rfl (fun _ h => h) (fun _ => .inl) (fun _ h => h) (fun _ => .inl)
      fun s row h => .inl ⟨row, ?_, rfl⟩
    have h : (db.sessions.delete _).get? s = some row := h
    rw [Table.get?_delete] at h
    exact (Option.filter_eq_some_iff.mp h).1
  have step2 : AccessStep E (some d.tokenId) revoke db1 db2 :=
    insertToken_accessStep E rfl db1 _ db2 h2
  have hnew : db2.tokenState d.tokenId ≠ none := by
    unfold insertToken at h2
    rw [Tx.execute_run] at h2
    split at h2
    · rename_i db3 heq
      cases h2
      obtain ⟨tokens, ht, rfl⟩ := Option.map_eq_some_iff.mp heq
      rw [tokenState_insert _ ht rfl, if_pos rfl]
      simp
    · cases h2
  have step3 : AccessStep E (some d.tokenId) revoke db2 db' := by
    rw [Tx.execute_run] at h
    split at h
    · rename_i db3 heq
      cases h
      split at heq
      · cases heq
      · obtain ⟨sessions, hs, rfl⟩ := Option.map_eq_some_iff.mp heq
        refine accessStep_tokens E rfl (fun _ h => h) (fun _ => .inl) (fun _ h => h) (fun _ => .inl)
          fun s row h => ?_
        have h : sessions.get? s = some row := h
        rw [Table.get?_insert hs] at h
        by_cases e : s = r.id
        · rw [if_pos e] at h
          cases h
          exact .inr hnew
        · rw [if_neg e] at h
          exact .inl ⟨row, h, rfl⟩
    · cases h
  exact IsTrans.trans _ _ _ step1 (IsTrans.trans _ _ _ step2 step3)

theorem tokenState_revoked {db : Db} (hf : ∀ row, (f row).revokedAt.isSome = true) (t' : String) :
    ({ db with sessions := sessions, tokens := db.tokens.modify t f } : Db).tokenState t' =
      if t' = t then (db.tokenState t).map fun _ => true else db.tokenState t' := by
  unfold Db.tokenState
  dsimp only
  rw [Table.get?_modify]
  by_cases e : t' = t
  · subst e
    cases h : db.tokens.get? t' with
    | none => simp
    | some row => simp [hf]
  · simp [e]

theorem revoke_accessStep {db : Db} (hf : ∀ row, (f row).revokedAt.isSome = true)
    (hs : ∀ s row, sessions.get? s = some row → ∃ row0, db.sessions.get? s = some row0 ∧ row0.tokenId = row.tokenId) :
    AccessStep E create (some t) db { db with sessions := sessions, tokens := db.tokens.modify t f } := by
  refine accessStep_tokens E rfl (fun t' => ?_) (fun t' => ?_) (fun t' => ?_) (fun t' => ?_)
    fun s row h => .inl (hs s row h)
  all_goals
    rw [tokenState_revoked hf t']
    by_cases e : t' = t
    · subst e
      cases db.tokenState t' <;> simp
    · rw [if_neg e]; tauto

theorem createToken_accessStep (actor key : String) (request : TokenCreateRequest) :
    (createToken E d actor key request).Keeps (AccessStep E (some d.tokenId) none) :=
  createToken_keeps (transition_accessStep E d)
    (fun _ _ _ => acceptOperation_accessStep E d fun h => absurd h (by decide))
    (fun _ hr => insertToken_accessStep E hr)
    (fun _ _ => accessStep_tokens E rfl (fun _ h => h) (fun _ => .inl) (fun _ h => h) (fun _ => .inl)
      fun _ row h => .inl ⟨row, h, rfl⟩) actor key request

theorem createLaunchSession_accessStep (request : LaunchSessionRequest) :
    (createLaunchSession E d request).Keeps (AccessStep E (some d.tokenId) none) :=
  createLaunchSession_keeps (insertSession_accessStep E d request)

theorem revokeToken_accessStep (actor key t : String) :
    (revokeToken E d actor key t).Keeps (AccessStep E none (some t)) :=
  .bind (.commit (acceptOperation_accessStep E d fun _ => ⟨t, rfl, rfl, rfl⟩)) fun _ =>
    .ite (.pure _) <| .bind (.query _) fun _ => .ite
      (.bind (.commit (.modify fun _ => revoke_accessStep E (fun _ => rfl) fun _ row h => ⟨row, h, rfl⟩))
        fun _ => completeToken_keeps (transition_accessStep E d) _ _ _ _)
      (completeToken_keeps (transition_accessStep E d) _ _ _ _)

include E in
theorem completeToken_gone {operationId : String} {running done : OperationProgress} {db : Db}
    (h : db.Gone t) : (completeToken d operationId tokenId running done db).2.Gone t :=
  have keeps : (completeToken d operationId tokenId running done).Keeps (AccessStep E none none) :=
    completeToken_keeps (transition_accessStep E d) operationId tokenId running done
  (keeps db).gone nofun h

theorem revokeToken_cases (actor key t : String) (db : Db) : ((revokeToken E d actor key t db).2 = db ∧
      ((revokeToken E d actor key t db).1.isOk = true →
        ∃ prior, db.idempotency.get? (actor, "token.revoke", key) = some prior ∧ prior.requestSha256 = E.sha256 t)) ∨
    (revokeToken E d actor key t db).2.Gone t := by
  unfold revokeToken
  rw [Batch.bind_run, Batch.commit_run, acceptOperation_run]
  cases hp : db.idempotency.get? (actor, "token.revoke", key) with
  | some prior =>
    by_cases hh : prior.requestSha256 = E.sha256 t
    · cases ho : db.operations.get? prior.operationId <;> simp [hh, ho]
    · simp [hh, Except.isOk, Except.toBool]
  | none =>
    by_cases ho : (db.operations.get? d.operationId).isSome
    · simp [ho, Except.isOk, Except.toBool]
    · refine .inr ?_
      simp only [ho, Bool.false_eq_true, ite_false, Batch.bind_run, Batch.query_run]
      have hasked : (db.accepted d actor "token.revoke" key (E.sha256 t) (some t)).Asked t :=
        ⟨d.operationId, _, (Table.get?_upsert _ _ _ _).trans (if_pos rfl), rfl, rfl⟩
      unfold Db.readToken
      cases ht : (db.accepted d actor "token.revoke" key (E.sha256 t) (some t)).tokens.get? t with
      | none =>
        refine .inr ⟨?_, hasked⟩
        unfold Db.tokenState
        rw [ht]; rfl
      | some row =>
        dsimp only [Db.tokenDocument]
        by_cases hn : row.revokedAt.isNone
        · simp only [hn, ite_true, Batch.bind_run, Batch.commit_run, Tx.modify_run]
          refine completeToken_gone E d (.inl ?_)
          rw [tokenState_revoked (fun _ => rfl), if_pos rfl]
          unfold Db.tokenState
          rw [ht]; rfl
        · simp only [hn]
          refine completeToken_gone E d (.inl ?_)
          unfold Db.tokenState
          rw [ht]
          simpa [Option.isSome_iff_ne_none] using hn

theorem finishLaunchSession_cases (id : String) (db : Db) :
    (db.sessions.get? id = none ∧ (finishLaunchSession d id db).1.isOk = false ∧ (finishLaunchSession d id db).2 = db) ∨
    ∃ s, db.sessions.get? id = some s ∧ AccessStep E none (some s.tokenId) db (finishLaunchSession d id db).2 ∧
      (finishLaunchSession d id db).2.tokenState s.tokenId = (db.tokenState s.tokenId).map fun _ => true := by
  unfold finishLaunchSession finishSession
  simp only [Batch.bind_run, Batch.query_run]
  cases hs : db.sessions.get? id with
  | none => exact .inl ⟨rfl, rfl, rfl⟩
  | some s =>
    refine .inr ⟨s, rfl, ?_⟩
    have hf : ∀ row : TokenRow,
        ({ row with revokedAt := row.revokedAt.or (some d.now) } : TokenRow).revokedAt.isSome = true :=
      fun row => by cases row.revokedAt <;> simp
    dsimp only [Batch.commit_run, Tx.modify_run]
    refine ⟨revoke_accessStep E hf fun s' row h => ?_, (tokenState_revoked hf _).trans (if_pos rfl)⟩
    rw [Table.get?_modify] at h
    by_cases e : s' = id
    · rw [if_pos e] at h
      obtain ⟨row0, h0, rfl⟩ := Option.map_eq_some_iff.mp h
      exact ⟨row0, e ▸ h0, rfl⟩
    · rw [if_neg e] at h
      exact ⟨row, h, rfl⟩

end Database

/-! ## When a command may run -/

def Db.asked (db : Db) (t : String) : Bool :=
  db.operations.rows.any fun r => r.2.kind = "token.revoke" && r.2.target = some t

def Db.collides (E : Env) (db : Db) (t : String) : Bool :=
  db.operations.rows.any fun r => r.2.kind = "token.revoke" &&
    r.2.target.any fun t' => t' ≠ t && E.sha256 t' = E.sha256 t

theorem Db.asked_iff {db : Db} : db.asked t = true ↔ db.Asked t := by
  unfold asked Asked
  rw [List.any_eq_true]
  constructor
  · rintro ⟨⟨o, row⟩, hr, h⟩
    simp only [Bool.and_eq_true, decide_eq_true_eq] at h
    exact ⟨o, row, Table.get?_eq_some.mpr hr, h.1, h.2⟩
  · rintro ⟨o, row, hr, hk, ht⟩
    exact ⟨(o, row), Table.get?_eq_some.mp hr, by simp [hk, ht]⟩

theorem Db.eq_of_not_collides {E : Env} {db : Db} {t' o : String} {row : OperationRow}
    (h : db.collides E t = false) (ho : db.operations.get? o = some row) (hk : row.kind = "token.revoke")
    (ht : row.target = some t') (hs : E.sha256 t' = E.sha256 t) : t' = t := by
  by_contra hne
  have : db.collides E t = true := by
    unfold collides
    rw [List.any_eq_true]
    exact ⟨(o, row), Table.get?_eq_some.mp ho, by simp [hk, ht, hne, hs]⟩
  rw [h] at this
  cases this

/-- A generated token id is none that was ever to be revoked, the id of a token
to revoke shares its digest with no other, and only `revoke_token` accepts
revocations. -/
def Command.fresh (E : Env) (d : Draw) (db : Db) : Command → Bool
  | .createToken .. | .createLaunchSession _ => !db.asked d.tokenId
  | .revokeToken _ _ t => !db.collides E t
  | .accept _ kind _ _ _ => kind ≠ "token.revoke"
  | _ => true

def Command.withdraws : Command → Bool
  | .revokeToken .. | .finishLaunchSession _ => true
  | _ => false

structure Managed (E : Env) (d : Draw) (c : Command) (db : Db) : Prop where
  ok : TokensOk E (c.run E d db)
  gone : ∀ t, db.Gone t → (c.run E d db).Gone t
  back : c.withdraws = false → ∀ t, (c.run E d db).Gone t → db.Gone t
  revoked : ∀ t, (c.exec E d db).1.isOk = true → c.revokes db = some t → (c.run E d db).Gone t
  answers : c.withdraws = true → (c.exec E d db).1.isOk = true → (c.revokes db).isSome = true

theorem Managed.of_create {E : Env} {d : Draw} {db : Db} (hok : TokensOk E db)
    (hw : c.withdraws = false) (hr : c.revokes db = none) (hfresh : db.asked d.tokenId = false)
    (h : AccessStep E (some d.tokenId) none db (c.run E d db)) : Managed E d c db := by
  have hnew : ∀ t, some d.tokenId = some t → ¬ db.Asked t := by
    rintro t e ha
    cases e
    rw [← Db.asked_iff, hfresh] at ha
    cases ha
  refine ⟨hok.step h hnew nofun, fun t => h.gone hnew, fun _ t => h.gone_back, fun t _ e => ?_, fun h' => ?_⟩
  · rw [hr] at e; cases e
  · rw [hw] at h'; cases h'

theorem Command.managed {E : Env} {d : Draw} {db : Db} (hc : c.managesTokens = true)
    (hok : TokensOk E db) (hfresh : c.fresh E d db = true) : Managed E d c db := by
  cases c <;> try (cases hc; done)
  case createToken actor key request =>
    exact .of_create hok rfl rfl (by simpa [fresh] using hfresh) (createToken_accessStep E d actor key request db)
  case createLaunchSession request =>
    exact .of_create hok rfl rfl (by simpa [fresh] using hfresh) (createLaunchSession_accessStep E d request db)
  case revokeToken actor key t =>
    have step := revokeToken_accessStep E d actor key t db
    have cases := revokeToken_cases E d actor key t db
    refine ⟨hok.step step nofun ?_, fun _ => step.gone nofun, nofun, ?_, fun _ _ => rfl⟩
    · rintro t' e
      cases e
      exact cases.imp And.left fun h => h
    · rintro t' hans e
      cases e
      rcases cases with ⟨hsame, hprior⟩ | hg
      · obtain ⟨prior, hp, hs⟩ := hprior hans
        obtain ⟨t', op, hs', ho, hk, ht, hg⟩ := hok.keys _ _ _ hp
        have e : t' = t := Db.eq_of_not_collides (by simpa [fresh] using hfresh) ho hk ht (hs'.symm.trans hs)
        show (Database.revokeToken E d actor key t db).2.Gone t
        rw [hsame, ← e]
        exact hg
      · exact hg
  case finishLaunchSession id =>
    rcases finishLaunchSession_cases E d id db with ⟨hs, herr, hsame⟩ | ⟨s, hs, step, hst⟩
    · have hrun : (Command.finishLaunchSession id).run E d db = db := hsame
      have herr : ((Command.finishLaunchSession id).exec E d db).1.isOk = false := herr
      refine ⟨by rw [hrun]; exact hok, fun t => by rw [hrun]; exact fun h => h, nofun, fun t h => ?_,
        fun _ h => ?_⟩
      · rw [herr] at h; cases h
      · rw [herr] at h; cases h
    · have hgone : ((Command.finishLaunchSession id).run E d db).Gone s.tokenId := by
        refine .inl (hst.trans ?_)
        cases h : db.tokenState s.tokenId with
        | none => exact absurd h (hok.sessions id s hs)
        | some b => rfl
      refine ⟨hok.step step nofun ?_, fun _ => step.gone nofun, nofun, fun t _ e => ?_, fun _ _ => ?_⟩
      · rintro t e
        cases e
        exact .inr hgone
      · have e : (db.sessions.get? id).map SessionRow.tokenId = some t := e
        rw [hs] at e
        cases e
        exact hgone
      · show ((db.sessions.get? id).map SessionRow.tokenId).isSome = true
        rw [hs]; rfl

theorem accessStep_untouched {E : Env} (hlog : Area.log ∉ F) (haccess : Area.access ∉ F)
    {db db' : Db} (h : Touches F db db') : AccessStep E none none db db' := by
  obtain ⟨ho, _, hi⟩ := h .log hlog
  refine accessStep_of_touches E haccess h (OpStep.of_touches hlog h) (fun t ha => .inl ?_)
    fun a k row hrow => .inl ?_
  · obtain ⟨o, row, hr, hk⟩ := ha
    exact ⟨o, row, ho ▸ hr, hk⟩
  · exact hi ▸ hrow

theorem Command.run_accessStep {E : Env} {d : Draw} {db : Db} (hm : c.managesTokens = false)
    (hf : c.fresh E d db = true) : AccessStep E none none db (c.run E d db) := by
  have htransition : ∀ id next p result problem,
      (Database.transition d id next p result problem).Keeps (AccessStep E none none) :=
    transition_accessStep E d
  have catalog : ∀ db db', Touches [.catalog] db db' → AccessStep E none none db db' :=
    fun _ _ => accessStep_untouched (by simp) (by simp)
  have fleet : ∀ db db', Touches [.fleet] db db' → AccessStep E none none db db' :=
    fun _ _ => accessStep_untouched (by simp) (by simp)
  cases c <;> try (cases hm; done)
  case accept =>
    exact Batch.Keeps.commit (acceptOperation_accessStep E d fun h => by simp [fresh, h] at hf) db
  case transition => exact Batch.Keeps.commit (htransition _ _ _ _ _) db
  case cancel => exact cancelOperation_keeps htransition _ db
  case restart => exact interruptPanelRecoveries_keeps htransition db
  case promoteModel => exact Batch.Keeps.commit ((promoteModel_touches _ _).mono catalog) db
  case removeModel => exact Batch.Keeps.commit ((removeModel_touches _).mono catalog) db
  case beginServe => exact Batch.Keeps.commit ((beginServe_touches E _).mono fleet) db
  case setInstanceObserved =>
    exact Batch.Keeps.commit ((setInstanceObserved_touches d _ _ _ _ _ _).mono fleet) db
  case beginStop => exact Batch.Keeps.commit ((beginStop_touches _).mono fleet) db
  case recordRestartFailure =>
    exact Batch.Keeps.commit ((recordRestartFailure_touches _ _ _).mono fleet) db
  case markQuarantine => exact Batch.Keeps.commit ((markQuarantine_touches _ _ _).mono fleet) db
  case reconcileQuarantine =>
    exact Batch.Keeps.commit ((reconcileQuarantine_touches d _).mono fleet) db
  case importEmergency =>
    exact importEmergency_keeps htransition ((recordEmergency_touches _).mono fleet) db

theorem Command.run_tokensOk {E : Env} {d : Draw} {db : Db} (hf : c.fresh E d db = true)
    (hok : TokensOk E db) : TokensOk E (c.run E d db) := by
  cases hm : c.managesTokens with
  | true => exact (Command.managed hm hok hf).ok
  | false => exact hok.step (Command.run_accessStep hm hf) nofun nofun

/-! ## The contract of the handlers -/

def Eff.withdraws : Eff → Bool
  | .command c => c.withdraws
  | _ => false

def Eff.publishes : Eff → Bool
  | .storeAuth _ => true
  | _ => false

/-- No revocation commits while another handler is about to publish the
snapshot it has read. -/
def accessRules (S : Site) : Rules World Job Eff Oracle where
  allow _ e o w := e.writes.all fun c => c.fresh S.env o.draw w.db
  apart _ e _ next := !(e.withdraws && next.any Eff.publishes)

structure AccessRely (i : Nat) (next : Option Eff) (w w' : World) : Prop where
  gone : ∀ t, w.db.Gone t → w'.db.Gone t
  held : next.any Eff.publishes = true → ∀ t, w'.db.Gone t → w.db.Gone t
  out : ∀ t, w.db.Gone t → w.auth.get? t = none → w'.auth.get? t = none
  mine : ∀ t, (i, t) ∈ w'.history.revocations ↔ (i, t) ∈ w.history.revocations

structure AccessGuar (i : Nat) (e : Eff) (w w' : World) : Prop where
  gone : ∀ t, w.db.Gone t → w'.db.Gone t
  back : e.withdraws = false → ∀ t, w'.db.Gone t → w.db.Gone t
  out : ∀ t, w.db.Gone t → w.auth.get? t = none → w'.auth.get? t = none
  others : ∀ j t, j ≠ i → ((j, t) ∈ w'.history.revocations ↔ (j, t) ∈ w.history.revocations)

def Job.managesTokens : Job → Bool
  | .createToken .. | .revokeToken .. | .createLaunchSession _ | .finishLaunchSession _ => true
  | _ => false

def accessContract (S : Site) : Contract (agent S) where
  rules := accessRules S
  inv w := TokensOk S.env w.db
  rely _ := AccessRely
  guar _ := AccessGuar
  born l i w := l.managesTokens = true ∧ ∀ t, (i, t) ∉ w.history.revocations

def Revoked (i : Nat) (w : World) : Prop := ∀ t, (i, t) ∈ w.history.revocations → w.db.Gone t

def Withdrawn (i : Nat) (w : World) : Prop :=
  ∀ t, (i, t) ∈ w.history.revocations → w.db.Gone t ∧ w.auth.get? t = none

def Job.revoked (i : Nat) (w : World) (t : String) : Job → Prop
  | .revokeToken _ id => id = t
  | .finishLaunchSession _ => (i, t) ∈ w.history.revocations
  | _ => False

def Job.recorded (i : Nat) (w : World) : Job → Prop
  | .revokeToken _ id => (i, id) ∈ w.history.revocations
  | .finishLaunchSession _ => ∃ t, (i, t) ∈ w.history.revocations
  | _ => True

def Answered (l : Job) (i : Nat) (r : Response) (w : World) : Prop :=
  r.ok = true → Withdrawn i w ∧ l.recorded i w

section
variable {S : Site} {l : Job} {i : Nat} {next : Option Eff} {w w' : World}

theorem Revoked.rely (h : AccessRely i next w w') (hw : Revoked i w) : Revoked i w' :=
  fun t ht => h.gone t (hw t ((h.mine t).mp ht))

theorem Withdrawn.rely (h : AccessRely i next w w') (hw : Withdrawn i w) : Withdrawn i w' := fun t ht =>
  have ⟨hg, ho⟩ := hw t ((h.mine t).mp ht)
  ⟨h.gone t hg, h.out t hg ho⟩

theorem Job.recorded_rely (h : AccessRely i next w w') (hw : l.recorded i w) : l.recorded i w' := by
  cases l <;> try trivial
  case revokeToken => exact (h.mine _).mpr hw
  case finishLaunchSession =>
    obtain ⟨t, ht⟩ := hw
    exact ⟨t, (h.mine t).mpr ht⟩

theorem AccessRely.unasked (h : AccessRely i next w w') (hw : ∀ t, (i, t) ∉ w.history.revocations) (t : String) :
    (i, t) ∉ w'.history.revocations := fun ht => hw t ((h.mine t).mp ht)

theorem AccessGuar.refl (e : Eff) (w : World) : AccessGuar i e w w :=
  ⟨fun _ h => h, fun _ _ h => h, fun _ _ h => h, fun _ _ _ => Iff.rfl⟩

theorem accessContract_reads {α : Type} {F : World → Prop}
    (hF : ∀ next w w', AccessRely i next w w' → F w → F w') {p : Act α} (hp : p.Uses (·.reads = true))
    (hw : F w) : wp (accessContract S) l i (fun _ => F) p w :=
  wp_reads (fun e w w' _ h => hF (some e) w w' h) (fun _ _ _ _ _ => trivial) (fun e w _ _ => AccessGuar.refl e w) hp hw

structure Performed (c : Command) (i : Nat) (ok : Bool) (w : World) : Prop where
  revoked : ok = true → Revoked i w
  recorded : c.withdraws = true → ok = true → ∃ t, (i, t) ∈ w.history.revocations
  named : ∀ a k t, c = .revokeToken a k t → (i, t) ∈ w.history.revocations

theorem wp_manage (hc : c.managesTokens = true)
    {Q : Except StateError c.Reply → World → Prop} (hw : ∀ t, (i, t) ∉ w.history.revocations)
    (hQ : ∀ r w', Performed c i r.isOk w' → Q r w') :
    wp (accessContract S) l i Q (command c) w := by
  intro w' hr hok
  refine ⟨trivial, fun n o _ hallow _ => ?_⟩
  have hfresh : c.fresh S.env o.draw w'.db = true := hallow
  have hm := Command.managed hc hok hfresh
  have hnone := hr.unasked hw
  have hrevs : ∀ j t, (j, t) ∈ ((Eff.command c).after S ⟨i, n, o⟩ w').history.revocations ↔
      (j, t) ∈ w'.history.revocations ∨ (j = i ∧ c.revokes w'.db = some t) := by
    intro j t
    simp only [Eff.after, Eff.onHistory, Eff.writes, Option.bind_some]
    cases c.revokes w'.db with
    | none => simp
    | some token => simp [eq_comm]
  refine ⟨.alone rfl hm.ok ⟨hm.gone, hm.back, fun _ _ h => h, fun j t hj => ?_⟩, hQ _ _ ⟨?_, ?_, ?_⟩⟩
  · refine (hrevs j t).trans ⟨fun h => h.elim (fun h => h) fun h => absurd h.1 hj, .inl⟩
  · intro hans t ht
    rcases (hrevs i t).mp ht with h | ⟨_, h⟩
    · exact absurd h (hnone t)
    · exact hm.revoked t hans h
  · intro hwd hans
    obtain ⟨t, ht⟩ := Option.isSome_iff_exists.mp (hm.answers hwd hans)
    exact ⟨t, (hrevs i t).mpr (.inr ⟨rfl, ht⟩)⟩
  · rintro a k t rfl
    exact (hrevs i t).mpr (.inr ⟨rfl, rfl⟩)

theorem wp_publish {k : Unit → Act Response} (hw : Revoked i w) (hrec : l.recorded i w)
    (hk : ∀ w', Withdrawn i w' → l.recorded i w' → wp (accessContract S) l i (Answered l i) (k ()) w') :
    wp (accessContract S) l i (Answered l i) ((query .authSnapshot).bind fun
        | .error e => .ret (stateProblem e)
        | .ok snapshot => (perform (.storeAuth snapshot)).bind k) w := by
  intro w1 h1 hok
  refine ⟨trivial, fun n o _ _ _ => ⟨.alone rfl hok (AccessGuar.refl _ _), ?_⟩⟩
  intro w2 h2 hok2
  refine ⟨trivial, fun n' o' _ _ _ => ?_⟩
  have hout : ∀ t, w2.db.Gone t → (w1.db.loadSnapshot S.env o.draw.now).get? t = none := fun t ht =>
    Db.loadSnapshot_gone (h2.held rfl t ht) S.env o.draw.now
  refine ⟨.alone rfl hok2 ⟨fun _ h => h, fun _ _ h => h, fun t ht _ => hout t ht, fun _ _ _ => Iff.rfl⟩,
    hk _ (fun t ht => ?_) ?_⟩
  · have hgone := (hw.rely h1).rely h2 t ht
    exact ⟨hgone, hout t hgone⟩
  · have := Job.recorded_rely h2 (Job.recorded_rely h1 hrec)
    cases l <;> exact this

theorem answered_problem (h : r.ok = false) : Answered l i r w := fun hr => by
  rw [h] at hr; cases hr

theorem wp_require {k : Option Response → Act Response} (hw : ∀ t, (i, t) ∉ w.history.revocations)
    (hproblem : ∀ response, k (some response) = .ret response)
    (hk : ∀ w', (∀ t, (i, t) ∉ w'.history.revocations) → wp (accessContract S) l i (Answered l i) (k none) w') :
    wp (accessContract S) l i (Answered l i) (requireExecutorForMutation.bind k) w := by
  have hlook := accessContract_reads (S := S) (l := l) (F := fun w => ∀ t, (i, t) ∉ w.history.revocations)
    (fun _ _ _ h => h.unasked) requireExecutorForMutation_reads hw
  refine (wp_returns requireExecutorForMutation_returns hlook).bind fun r w' h => ?_
  obtain ⟨hr, hw'⟩ := h
  cases r with
  | none => exact hk w' hw'
  | some response =>
    rw [hproblem]
    exact answered_problem (hr response rfl)

/-! ## The four handlers -/

theorem submitCreateToken_wp {actor : String} {request : TokenCreateRequest}
    (hw : ∀ t, (i, t) ∉ w.history.revocations) :
    wp (accessContract S) l i (fun r w => r.isOk = true → Revoked i w) (submitCreateToken S actor key request) w := by
  unfold submitCreateToken
  cases canonicalRequestSha256 S.env request.toJson with
  | none => exact nofun
  | some hash =>
    dsimp only
    cases validateIdempotency key hash with
    | error e => exact nofun
    | ok _ =>
      have hlook := accessContract_reads (S := S) (l := l)
        (F := fun w => ∀ t, (i, t) ∉ w.history.revocations) (p := outside .unixMillis)
        (fun _ _ _ h => h.unasked) ⟨rfl, fun _ => trivial⟩ hw
      refine hlook.bind fun now w hw => ?_
      cases validateTokenRequest S.env now request with
      | error e => exact nofun
      | ok _ => exact wp_manage rfl hw fun _ _ h => h.revoked

theorem createToken_wp (caller : Caller) (body : TokenCreateRequest) (hw : ∀ t, (i, t) ∉ w.history.revocations) :
    wp (accessContract S) (.createToken caller body) i (Answered (.createToken caller body) i)
      (createToken S caller body) w := by
  refine wp_require hw (fun _ => rfl) fun w hw => ?_
  cases requiredIdempotency caller with
  | none => exact answered_problem rfl
  | some key =>
    refine (submitCreateToken_wp hw).bind fun r w h => ?_
    cases r with
    | error e => exact answered_problem (stateProblem_ok e)
    | ok created => exact wp_publish (h rfl) trivial fun w hw _ _ => ⟨hw, trivial⟩

theorem revokeToken_wp (caller : Caller) (id : String) (hw : ∀ t, (i, t) ∉ w.history.revocations) :
    wp (accessContract S) (.revokeToken caller id) i (Answered (.revokeToken caller id) i)
      (revokeToken S caller id) w := by
  refine wp_require hw (fun _ => rfl) fun w hw => ?_
  cases requiredIdempotency caller with
  | none => exact answered_problem rfl
  | some key =>
    dsimp only [submitRevokeToken]
    cases validateIdempotency key (S.env.sha256 id) with
    | error e => exact answered_problem (stateProblem_ok e)
    | ok _ =>
      refine wp_bind (wp_manage rfl hw fun r w h => ?_)
      cases r with
      | error e => exact answered_problem (stateProblem_ok e)
      | ok operation => exact wp_publish (h.revoked rfl) (h.named _ _ _ rfl) fun w hw hr _ => ⟨hw, hr⟩

theorem createLaunchSession_wp (body : LaunchSessionRequest) (hw : ∀ t, (i, t) ∉ w.history.revocations) :
    wp (accessContract S) (.createLaunchSession body) i (Answered (.createLaunchSession body) i)
      (createLaunchSession body) w := by
  refine wp_require hw (fun _ => rfl) fun w hw => ?_
  refine wp_bind (wp_manage rfl hw fun r w h => ?_)
  cases r with
  | error e => exact answered_problem (stateProblem_ok e)
  | ok created => exact wp_publish (h.revoked rfl) trivial fun w hw _ _ => ⟨hw, trivial⟩

theorem pollSession_reads (id : String) : ∀ n session, (pollSession id session n).Uses (·.reads = true)
  | 0, _ => trivial
  | n + 1, session => by
    refine ⟨rfl, fun r => ?_⟩
    cases r with
    | ok value => exact pollSession_reads id n value
    | error e => trivial

theorem finishLaunchSession_wp (id : String) (hw : ∀ t, (i, t) ∉ w.history.revocations) :
    wp (accessContract S) (.finishLaunchSession id) i (Answered (.finishLaunchSession id) i)
      (finishLaunchSession S id) w := by
  unfold finishLaunchSession
  cases S.env.parseUlid id with
  | false => exact answered_problem rfl
  | true =>
    refine wp_bind (wp_manage rfl hw fun r w h => ?_)
    cases r with
    | error e => exact answered_problem (stateProblem_ok e)
    | ok session =>
      refine wp_publish (h.revoked rfl) (h.recorded rfl rfl) fun w hw hr => ?_
      have hreads : ((outside .polls).bind (pollSession id session)).Uses (·.reads = true) :=
        ⟨rfl, fun n => pollSession_reads id n session⟩
      have hlook := accessContract_reads (S := S) (l := .finishLaunchSession id)
        (F := fun w => Withdrawn i w ∧ Job.recorded i w (.finishLaunchSession id))
        (fun _ _ _ h hw => ⟨hw.1.rely h, Job.recorded_rely h hw.2⟩) hreads ⟨hw, hr⟩
      exact wp_mono (fun r w h => show Answered _ i r w from fun _ => h) hlook

theorem accessContract_sound : (accessContract S).Sound Answered where
  refl _ _ _ w := ⟨fun _ h => h, fun _ _ h => h, fun _ _ h => h, fun _ => Iff.rfl⟩
  trans _ _ _ _ _ _ h1 h2 := ⟨fun t h => h2.gone t (h1.gone t h), fun hn t h => h1.held hn t (h2.held hn t h),
    fun t hg ho => h2.out t (h1.gone t hg) (h1.out t hg ho), fun t => (h2.mine t).trans (h1.mine t)⟩
  compat _ i e _ _ _ j next hij hapart _ hg := by
    refine ⟨hg.gone, fun hn => hg.back ?_, hg.out, fun t => hg.others j t (Ne.symm hij)⟩
    have hapart : (!(e.withdraws && next.any Eff.publishes)) = true := hapart
    simpa [hn] using hapart
  stable _ _ _ _ _ h hq hr := ⟨(hq hr).1.rely h, Job.recorded_rely h (hq hr).2⟩
  start l i w hborn _ := by
    obtain ⟨hl, hw⟩ := hborn
    cases l <;> try (cases hl; done)
    case createToken => exact createToken_wp _ _ hw
    case revokeToken => exact revokeToken_wp _ _ hw
    case createLaunchSession => exact createLaunchSession_wp _ hw
    case finishLaunchSession => exact finishLaunchSession_wp _ hw

end

/-! ## Whole runs -/

theorem revocation_final (S : Site) (before : List (Draw × Command))
    (hbefore : eachStep S.env (Command.fresh S.env) {} before = true) (w : World) (jobs : List Job)
    (hjobs : ∀ j ∈ jobs, j.managesTokens = true) {c : Pool}
    (hrun : (agent S).Runs (accessRules S)
      (starting S { w with db := actorLoop S.env {} before, history := {} } jobs) c)
    {i : Nat} {job : Job} {r : Response} {t : String} (htask : c.tasks[i]? = some (job, .ret r))
    (hr : r.ok = true) (ht : job.revoked i c.world t) :
    c.world.auth.get? t = none ∧
    (∀ now peer presented secret, tokenMatches S.env S.token presented = false →
      parseBearer presented = some (t, secret) →
      authenticateBearer S c.world.auth now peer presented = none) ∧
    (t ≠ "bootstrap-admin" → ∀ now peer, tokenIdentity S c.world.auth now peer t = none) := by
  have hok : TokensOk S.env (actorLoop S.env {} before) :=
    actorLoop_inv (fun d c db => Command.run_tokensOk) before {} hbefore (tokensOk_empty S.env)
  have hstart : (accessContract S).Verified Answered
      (starting S { w with db := actorLoop S.env {} before, history := {} } jobs) :=
    .start accessContract_sound hok fun i l hl =>
      ⟨hjobs l (List.mem_of_getElem? hl), fun t => List.not_mem_nil⟩
  have hverified := Runs.verified accessContract_sound hstart (fun _ _ _ _ _ _ _ _ _ => trivial) hrun
  obtain ⟨hwithdrawn, hrecorded⟩ := (hverified.2 i _ htask : Answered job i r c.world) hr
  have hmem : (i, t) ∈ c.world.history.revocations := by
    cases job <;> try (cases ht; done)
    case revokeToken =>
      cases ht
      exact hrecorded
    case finishLaunchSession => exact ht
  have hout := (hwithdrawn t hmem).2
  refine ⟨hout, fun now peer presented secret hboot hparse => ?_, fun hne now peer => ?_⟩
  · unfold authenticateBearer
    rw [hboot, hparse]
    simp [hout]
  · unfold tokenIdentity
    simp [hne, hout]

/-! ## Two runs -/

def exampleToken : String := "01JAAAAAAAAAAAAAAAAAAAAAAA"

def exampleSecret : String := "e3b0c44298fc1c149afbf4c8996fb92427ae41e4649b934ca495991b7852b855"

def exampleBearer : String := "sparkplane_01JAAAAAAAAAAAAAAAAAAAAAAA_" ++
  "e3b0c44298fc1c149afbf4c8996fb92427ae41e4649b934ca495991b7852b855"

def tokenExists : List (Draw × Command) :=
  [({ operationId := "op0", tokenId := exampleToken, secret := exampleSecret },
    .createToken "bootstrap-admin" "k0" exampleTokenRequest)]

def createAndRevoke : List Job :=
  [.createToken ⟨"bootstrap-admin", some "k1"⟩ exampleTokenRequest,
   .revokeToken ⟨"bootstrap-admin", some "k2"⟩ exampleToken]

def accessWorld : World := { db := actorLoop exampleSite.env {} tokenExists }

def createTurn : Nat × Oracle :=
  (0, exampleTurn { now := 1, operationId := "op1", tokenId := "01JBBBBBBBBBBBBBBBBBBBBBBB" })

def revokeTurn : Nat × Oracle := (1, exampleTurn { now := 2, operationId := "op2" })

theorem revocation_final_in_order : ∃ c, (agent exampleSite).Runs (accessRules exampleSite)
      (starting exampleSite accessWorld createAndRevoke) c ∧
    answeredOk c 1 = true ∧ c.world.auth.get? exampleToken = none := by
  have h : ((agent exampleSite).run (accessRules exampleSite) (starting exampleSite accessWorld createAndRevoke)
      (List.replicate 5 createTurn ++ List.replicate 4 revokeTurn)).any (fun c => answeredOk c 1) = true := by
    decide +kernel
  obtain ⟨c, hrun, hans⟩ := reaches_of_run h
  obtain ⟨r, htask, hr⟩ := answeredOk_label hrun rfl hans
  exact ⟨c, hrun, hans, (revocation_final exampleSite tokenExists (by decide +kernel) {} createAndRevoke
    (by decide) hrun htask hr rfl).1⟩

theorem stale_snapshot_revives : ∃ c, (agent exampleSite).Runs
      { accessRules exampleSite with apart := fun _ _ _ _ => true }
      (starting exampleSite accessWorld createAndRevoke) c ∧
    answeredOk c 1 = true ∧ (c.world.auth.get? exampleToken).isSome = true ∧
    authenticateBearer exampleSite c.world.auth 3 none exampleBearer =
      some ⟨exampleToken, [.inference], 1⟩ :=
  Machine.exists_of_run (List.replicate 4 createTurn ++ List.replicate 4 revokeTurn ++ [createTurn]) (by decide +kernel)

end Sparkplane

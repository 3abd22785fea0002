import Sparkplane.StateSound

/-!
# Token commands are all-or-nothing

`create_token` and `revoke_token` commit the operation and the key before they
look at the capacity or at the token. `token_commands_all_or_nothing` says when
a failed command leaves nothing behind.
-/

namespace Sparkplane

open Database
open Batch

variable {α : Type} {fresh : Prop} {e : StateError} {db' : Db} {row : OperationRow} {t : TokenRow}

def SameRows (db db' : Db) : Prop :=
  db'.tokens = db.tokens ∧ db'.operations = db.operations ∧ db'.idempotency = db.idempotency

/-- A failed command leaves the rows alone, so that every retry is answered as
a first attempt; a command that returns has done its work, if its key was
fresh. -/
def AllOrNothing {α : Type} (cmd : Draw → Cmd α) (d : Draw) (db : Db) (fresh : Prop) (done : α → Db → Prop) : Prop :=
  match cmd d db with
  | (.error _, db') => SameRows db db' ∧ ∀ d', (cmd d' db').1 = (cmd d' db).1
  | (.ok a, db') => fresh → done a db'

def Completed (operation : OperationDocument) (db : Db) : Prop :=
  db.readOperation operation.id = .ok operation ∧ operation.state = .succeeded

def TokenCreated (request : TokenCreateRequest) (before : Db) (a : CreatedToken) (after : Db) : Prop :=
  Completed a.operation after ∧ before.tokens.get? a.token.id = none ∧
    after.readToken a.token.id = .ok a.token ∧ a.token.name = request.name ∧ a.token.revokedAt = none

def TokenRevoked (id : String) (a : OperationDocument) (after : Db) : Prop :=
  Completed a after ∧ ∃ t, after.tokens.get? id = some t ∧ t.revokedAt.isSome = true

def Db.Opens (db : Db) (d : Draw) (actor kind key : String) : Prop :=
  db.idempotency.get? (actor, kind, key) = none ∧ db.operations.get? d.operationId = none

def Db.Stores (E : Env) (d : Draw) (request : TokenCreateRequest) (db : Db) : Prop :=
  atCapacity E d db = false ∧ db.tokens.get? d.tokenId = none ∧
    (.analyticsRead ∈ request.scopes → db.panelTokenScopes.get? d.tokenId = none)

section
variable {E : Env} {d : Draw} {actor kind key hash : String} {target : Option String} {db : Db}

theorem acceptOperation_opens (hash : String) (target : Option String) (h : db.Opens d actor kind key) :
    Database.acceptOperation d actor kind key hash target db = .ok
      (⟨⟨⟨kind, actor, target, .accepted, acceptedProgress, d.now, d.now, none, none⟩, d.operationId⟩, false⟩,
        db.accepted d actor kind key hash target) := by
  rw [acceptOperation_run, h.1]
  dsimp only
  rw [h.2]
  rfl

theorem acceptOperation_shut (hash : String) (target : Option String) (h : ¬ db.Opens d actor kind key) :
    (∃ e, Database.acceptOperation d actor kind key hash target db = .error e) ∨
    (∃ op, Database.acceptOperation d actor kind key hash target db = .ok (⟨op, true⟩, db) ∧
      db.idempotency.get? (actor, kind, key) ≠ none) := by
  rw [acceptOperation_run]
  cases hkey : db.idempotency.get? (actor, kind, key) with
  | some prior =>
    dsimp only
    by_cases hh : prior.requestSha256 = hash
    · rw [if_pos hh]
      cases db.operations.get? prior.operationId with
      | some row => exact .inr ⟨_, rfl, nofun⟩
      | none => exact .inl ⟨_, rfl⟩
    · rw [if_neg hh]
      exact .inl ⟨_, rfl⟩
  | none =>
    dsimp only
    cases hop : db.operations.get? d.operationId with
    | some row => exact .inl ⟨_, rfl⟩
    | none => exact absurd ⟨hkey, hop⟩ h

theorem AllOrNothing.same {cmd : Draw → Cmd α} {done : α → Db → Prop}
    (h : cmd d db = (.error e, db)) : AllOrNothing cmd d db fresh done := by
  unfold AllOrNothing
  rw [h]
  exact ⟨⟨rfl, rfl, rfl⟩, fun _ => rfl⟩

theorem AllOrNothing.done {cmd : Draw → Cmd α} {done : α → Db → Prop} {a : α}
    (h : cmd d db = (.ok a, db')) (hdone : fresh → done a db') : AllOrNothing cmd d db fresh done := by
  unfold AllOrNothing
  rw [h]
  exact hdone

theorem not_allOrNothing {cmd : Draw → Cmd α} {done : α → Db → Prop}
    (h : cmd d db = (.error e, db')) (hopens : db.Opens d actor kind key)
    (hops : db'.operations = (db.accepted d actor kind key hash target).operations) :
    ¬ AllOrNothing cmd d db fresh done := by
  unfold AllOrNothing
  rw [h]
  intro hsame
  have hop : db'.operations.get? d.operationId = none := hsame.1.2.1 ▸ hopens.2
  rw [hops] at hop
  have hnew : (db.operations.upsert d.operationId _).get? d.operationId = none := hop
  rw [Table.get?_upsert, if_pos rfl] at hnew
  cases hnew

variable (d db) in
theorem completeToken_new (tokenId : String) (running done : OperationProgress) {o : String}
    (hop : db.operations.get? o = some row) (hs : row.state = .accepted) :
    ∃ op db', completeToken d o tokenId running done db = (.ok op, db') ∧ Completed op db' ∧ db.Agree db' .access := by
  have hop1 := advanced_get? hop d.now .running running none none
  have hop2 := advanced_get? hop1 d.now .succeeded done (some (.object [("token_id", .string tokenId)])) none
  have hrun : completeToken d o tokenId running done db =
      (.ok ⟨(row.advance d.now .running running none none).advance d.now .succeeded done
          (some (.object [("token_id", .string tokenId)])) none, o⟩,
        (db.advanced d.now o .running running none none).advanced d.now o .succeeded done
          (some (.object [("token_id", .string tokenId)])) none) := by
    unfold completeToken
    rw [bind_run, commit_run, transition_legal hop (by rw [hs]; rfl)]
    dsimp only
    rw [commit_run, transition_legal hop1 rfl]
  refine ⟨_, _, hrun, ⟨?_, rfl⟩, rfl, rfl, rfl⟩
  rw [Db.readOperation, hop2]

/-! ## Revocation -/

section
variable {id : String} (hopens : db.Opens d actor "token.revoke" key)
include hopens

theorem revokeToken_unknown (ht : db.tokens.get? id = none) : Database.revokeToken E d actor key id db =
      (.error .notFound, db.accepted d actor "token.revoke" key (E.sha256 id) (some id)) := by
  have ht' : (db.accepted d actor "token.revoke" key (E.sha256 id) (some id)).tokens.get? id = none := ht
  unfold Database.revokeToken
  rw [bind_run, commit_run, acceptOperation_opens _ _ hopens]
  dsimp only
  rw [if_neg nofun, bind_run, query_run, Db.readToken, ht']

theorem revokeToken_known (ht : db.tokens.get? id = some t) :
    ∃ op db', Database.revokeToken E d actor key id db = (.ok op, db') ∧ TokenRevoked id op db' := by
  have ht' : (db.accepted d actor "token.revoke" key (E.sha256 id) (some id)).tokens.get? id = some t := ht
  have hop := accepted_get? db d actor "token.revoke" key (E.sha256 id) (some id)
  unfold Database.revokeToken
  rw [bind_run, commit_run, acceptOperation_opens _ _ hopens]
  dsimp only
  rw [if_neg nofun, bind_run, query_run, Db.readToken, ht']
  dsimp only
  split
  · rw [bind_run, commit_run, Tx.modify_run]
    dsimp only
    obtain ⟨op, db', hrun, hdone, hagree, _⟩ := completeToken_new d
      { db.accepted d actor "token.revoke" key (E.sha256 id) (some id) with
        tokens := db.tokens.modify id fun t => { t with revokedAt := some d.now } } id
      (tokenProgress "revoking" 0 "committing revocation") (tokenProgress "complete" 1 "revocation published") hop rfl
    refine ⟨op, db', hrun, hdone, { t with revokedAt := some d.now }, ?_, rfl⟩
    rw [hagree]
    show (db.tokens.modify id _).get? id = _
    rw [Table.get?_modify_self, ht]
    rfl
  · rename_i hr
    obtain ⟨op, db', hrun, hdone, hagree, _⟩ := completeToken_new d _ id
      (tokenProgress "revoking" 0 "committing revocation") (tokenProgress "complete" 1 "revocation published") hop rfl
    refine ⟨op, db', hrun, hdone, t, hagree ▸ ht', ?_⟩
    exact Option.isSome_iff_ne_none.mpr fun h => hr (Option.isNone_iff_eq_none.mpr h)

end

theorem revoke_all_or_nothing (E : Env) (d : Draw) (actor key id : String) (db : Db) :
    AllOrNothing (fun d => Database.revokeToken E d actor key id) d db
        (db.idempotency.get? (actor, "token.revoke", key) = none) (TokenRevoked id) ↔
      (db.Opens d actor "token.revoke" key → (db.tokens.get? id).isSome = true) := by
  by_cases hopens : db.Opens d actor "token.revoke" key
  · cases ht : db.tokens.get? id with
    | none =>
      refine iff_of_false (not_allOrNothing (revokeToken_unknown hopens ht) hopens rfl) fun h => ?_
      cases h hopens
    | some t =>
      obtain ⟨op, db', hrun, hdone⟩ := revokeToken_known (E := E) hopens ht
      exact iff_of_true (.done hrun fun _ => hdone) fun _ => rfl
  · refine iff_of_true ?_ fun h => absurd h hopens
    rcases acceptOperation_shut (E.sha256 id) (some id) hopens with ⟨e, hacc⟩ | ⟨op, hacc, hkey⟩
    · refine .same (e := e) ?_
      unfold Database.revokeToken
      rw [bind_run, commit_run, hacc]
    · have hrun : Database.revokeToken E d actor key id db = (.ok op, db) := by
        unfold Database.revokeToken
        rw [bind_run, commit_run, hacc]
        rfl
      exact .done hrun fun h => absurd h hkey

/-! ## Creation -/

theorem createToken_opens {request : TokenCreateRequest} (hhash : canonicalRequestSha256 E request.toJson = some hash)
    (hopens : db.Opens d actor "token.create" key) :
    Database.createToken E d actor key request db =
      storeToken E d request d.operationId (db.accepted d actor "token.create" key hash none) := by
  unfold Database.createToken
  rw [bind_run, query_run, encodeRequest, hhash]
  dsimp only
  rw [bind_run, commit_run, acceptOperation_opens _ _ hopens]
  rfl

theorem createToken_reused {request : TokenCreateRequest} {op : OperationDocument}
    (hhash : canonicalRequestSha256 E request.toJson = some hash)
    (hacc : Database.acceptOperation d actor "token.create" key hash none db = .ok (⟨op, true⟩, db)) :
    (Database.createToken E d actor key request db).2 = db := by
  unfold Database.createToken
  rw [bind_run, query_run, encodeRequest, hhash]
  dsimp only
  rw [bind_run, commit_run, hacc]
  dsimp only
  rw [if_pos rfl]
  cases (op.result.bind fun result => result.get "token_id").bind fun id => id.asStr with
  | none => rfl
  | some id =>
    dsimp only
    rw [bind_run, query_run]
    cases db.readToken id <;> rfl

section
variable {request : TokenCreateRequest} {o : String}

variable (db o) in
theorem storeToken_refused (h : ¬ db.Stores E d request) :
    ∃ e db', storeToken E d request o db = (.error e, db') ∧ db'.operations = db.operations := by
  unfold storeToken
  rw [bind_run, query_run]
  dsimp only
  rw [bind_run, require_run]
  by_cases hfull : atCapacity E d db = true
  · rw [hfull]
    exact ⟨_, _, rfl, rfl⟩
  have hroom := Bool.eq_false_iff.mpr hfull
  rw [hroom, Bool.not_false, if_pos rfl]
  dsimp only
  rw [bind_run, commit_run, insertToken, Tx.execute_run]
  cases ht : db.tokens.get? d.tokenId with
  | some t =>
    rw [Table.insert_isNone (by rw [ht]; rfl)]
    exact ⟨_, _, rfl, rfl⟩
  | none =>
    rw [Table.insert_eq_upsert ht]
    dsimp only [Option.map_some]
    have hpanel : .analyticsRead ∈ request.scopes ∧ db.panelTokenScopes.get? d.tokenId ≠ none := by
      by_contra hp
      exact h ⟨hroom, ht, fun hs => by_contra fun hn => hp ⟨hs, hn⟩⟩
    rw [if_pos hpanel.1, bind_run, commit_run, Tx.execute_run,
      Table.insert_isNone (Option.isSome_iff_ne_none.mpr hpanel.2)]
    exact ⟨_, _, rfl, rfl⟩

variable (d db) in
theorem publishToken_stored (hop : db.operations.get? o = some row)
    (hs : row.state = .accepted) (ht : db.tokens.get? d.tokenId = some t) :
    ∃ a db', publishToken d o db = (.ok a, db') ∧ Completed a.operation db' ∧
      db'.readToken d.tokenId = .ok a.token ∧ a.token = db'.tokenDocument d.tokenId t := by
  obtain ⟨op, db', hrun, hdone, hagree, _⟩ := completeToken_new d db d.tokenId
    (tokenProgress "publishing" 0 "publishing token policy") (tokenProgress "complete" 1 "token policy published")
    hop hs
  have hread : db'.readToken d.tokenId = .ok (db'.tokenDocument d.tokenId t) := by
    rw [Db.readToken, hagree, ht]
  refine ⟨⟨op, db'.tokenDocument d.tokenId t, some (bearer d)⟩, db', ?_, hdone, hread, rfl⟩
  unfold publishToken
  rw [bind_run, hrun]
  dsimp only
  rw [bind_run, query_run, hread]
  rfl

theorem storeToken_stores (hop : db.operations.get? o = some row)
    (hs : row.state = .accepted) (h : db.Stores E d request) :
    ∃ a db', storeToken E d request o db = (.ok a, db') ∧ TokenCreated request db a db' := by
  obtain ⟨hroom, ht, hpanel⟩ := h
  have htoken : (db.tokens.upsert d.tokenId (newToken E d request)).get? d.tokenId =
      some (newToken E d request) := by
    rw [Table.get?_upsert, if_pos rfl]
  unfold storeToken
  rw [bind_run, query_run]
  dsimp only
  rw [bind_run, require_run, hroom, Bool.not_false, if_pos rfl]
  dsimp only
  rw [bind_run, commit_run, insertToken, Tx.execute_run, Table.insert_eq_upsert ht]
  dsimp only [Option.map_some]
  split
  · rename_i hscope
    rw [bind_run, commit_run, Tx.execute_run, Table.insert_eq_upsert (hpanel hscope)]
    dsimp only [Option.map_some]
    obtain ⟨a, db', hrun, hdone, hread, hdoc⟩ := publishToken_stored d { db with
      tokens := db.tokens.upsert d.tokenId (newToken E d request)
      panelTokenScopes := db.panelTokenScopes.upsert d.tokenId () } hop hs htoken
    have hid : a.token.id = d.tokenId := by rw [hdoc]; rfl
    exact ⟨a, db', hrun, hdone, hid ▸ ht, hid ▸ hread, by rw [hdoc]; rfl, by rw [hdoc]; rfl⟩
  · obtain ⟨a, db', hrun, hdone, hread, hdoc⟩ := publishToken_stored d { db with
      tokens := db.tokens.upsert d.tokenId (newToken E d request) } hop hs htoken
    have hid : a.token.id = d.tokenId := by rw [hdoc]; rfl
    exact ⟨a, db', hrun, hdone, hid ▸ ht, hid ▸ hread, by rw [hdoc]; rfl, by rw [hdoc]; rfl⟩

end

theorem create_all_or_nothing (E : Env) (d : Draw) (actor key : String) (request : TokenCreateRequest) (db : Db) :
    AllOrNothing (fun d => Database.createToken E d actor key request) d db
        (db.idempotency.get? (actor, "token.create", key) = none) (TokenCreated request db) ↔
      ((canonicalRequestSha256 E request.toJson).isSome = true → db.Opens d actor "token.create" key →
        db.Stores E d request) := by
  cases hhash : canonicalRequestSha256 E request.toJson with
  | none =>
    refine iff_of_true (.same (e := .invalid "encode token request") ?_) nofun
    unfold Database.createToken
    rw [bind_run, query_run, encodeRequest, hhash]
  | some hash =>
    by_cases hopens : db.Opens d actor "token.create" key
    · have hrun := createToken_opens hhash hopens
      by_cases hstores : db.Stores E d request
      · obtain ⟨a, db', hstore, hdone⟩ := storeToken_stores
          (accepted_get? db d actor "token.create" key hash none) rfl hstores
        exact iff_of_true (.done (hrun.trans hstore) fun _ => hdone) fun _ _ => hstores
      · obtain ⟨e, db', hstore, hops⟩ := storeToken_refused
          (db.accepted d actor "token.create" key hash none) d.operationId hstores
        exact iff_of_false (not_allOrNothing (hrun.trans hstore) hopens hops) fun h => hstores (h rfl hopens)
    · refine iff_of_true ?_ fun _ h => absurd h hopens
      rcases acceptOperation_shut hash none hopens with ⟨e, hacc⟩ | ⟨op, hacc, hkey⟩
      · refine .same (e := e) ?_
        unfold Database.createToken
        rw [bind_run, query_run, encodeRequest, hhash]
        dsimp only
        rw [bind_run, commit_run, hacc]
      · have hsame := createToken_reused hhash hacc
        cases hrun : Database.createToken E d actor key request db with
        | mk r db' =>
          rw [hrun] at hsame
          cases r with
          | error e => exact .same (hrun.trans (congrArg _ hsame))
          | ok a => exact .done hrun fun h => absurd h hkey

end

theorem token_commands_all_or_nothing (E : Env) (d : Draw) (actor key : String) (db : Db) :
    (∀ request, AllOrNothing (fun d => Database.createToken E d actor key request) d db
        (db.idempotency.get? (actor, "token.create", key) = none) (TokenCreated request db) ↔
      ((canonicalRequestSha256 E request.toJson).isSome = true → db.Opens d actor "token.create" key →
        db.Stores E d request)) ∧
    ∀ id, AllOrNothing (fun d => Database.revokeToken E d actor key id) d db
        (db.idempotency.get? (actor, "token.revoke", key) = none) (TokenRevoked id) ↔
      (db.Opens d actor "token.revoke" key → (db.tokens.get? id).isSome = true) :=
  ⟨fun request => create_all_or_nothing E d actor key request db, fun id =>
    revoke_all_or_nothing E d actor key id db⟩

/-- An unknown token: the request fails, its operation stays accepted, and a
retry is answered with that operation. -/
theorem unknown_revoke_leaves_operation :
    ∃ db', Database.revokeToken exampleEnv { operationId := "op1" } "bootstrap-admin" "k1" "01JAAAAAAAAAAAAAAAAAAAAAAA" {} =
        (.error .notFound, db') ∧
      (db'.operations.get? "op1").map OperationRow.state = some .accepted ∧
      ((Database.revokeToken exampleEnv { operationId := "op2" } "bootstrap-admin" "k1" "01JAAAAAAAAAAAAAAAAAAAAAAA"
        db').1.toOption.map fun op => (op.id, op.state)) = some ("op1", .accepted) :=
  ⟨_, rfl, by decide, by decide⟩

end Sparkplane

import Sparkplane.LedgerSound

/-!
# The usage of a session is what its days say

`sessions::read` sums the launch rows of a session; the panel sums its daily
rows. Both ledgers are written in one transaction, so a launch row mirrors the
panel row under the same id, and as long as no session is dropped no panel row
of a session is without its mirror.
-/

namespace Sparkplane

open Database
open Sessions hiding read

structure Registered (E : Env) (sessions : Table String SessionRow) : Prop where
  named : ∀ sid row, sessions.get? sid = some row → E.parseUlid sid = true
  single : ∀ sid sid' row row', sessions.get? sid = some row → sessions.get? sid' = some row' →
    row.tokenId = row'.tokenId → sid = sid'

abbrev KeepsRegistered (E : Env) : Db → Db → Prop := Preserves fun db => Registered E db.sessions

section
variable {E : Env} {d : Draw} {t t' : Table String SessionRow} {sid : String} {row : SessionRow} {db : Db}

theorem Registered.mono (h : Registered E t)
    (hsub : ∀ sid row, t'.get? sid = some row → ∃ row0, t.get? sid = some row0 ∧ row0.tokenId = row.tokenId) :
    Registered E t' := by
  constructor
  · intro sid row hrow
    obtain ⟨row0, h0, -⟩ := hsub sid row hrow
    exact h.named sid row0 h0
  · intro sid sid' row row' hrow hrow' e
    obtain ⟨row0, h0, e0⟩ := hsub sid row hrow
    obtain ⟨row1, h1, e1⟩ := hsub sid' row' hrow'
    exact h.single sid sid' row0 row1 h0 h1 (by rw [e0, e1, e])

theorem Registered.insert (h : Registered E t) (hi : t.insert sid row = some t') (hn : E.parseUlid sid = true)
    (hfresh : ∀ sid' row', t.get? sid' = some row' → row'.tokenId ≠ row.tokenId) : Registered E t' := by
  have hget := Table.get?_insert hi
  constructor
  · intro sid' row' h'
    by_cases e : sid' = sid
    · rwa [e]
    · rw [hget, if_neg e] at h'
      exact h.named sid' row' h'
  · intro sid1 sid2 row1 row2 h1 h2 e
    rw [hget] at h1 h2
    split at h1 <;> split at h2
    next e1 e2 => rw [e1, e2]
    next e1 e2 =>
      rw [← Option.some.inj h1] at e
      exact absurd e.symm (hfresh sid2 row2 h2)
    next e1 e2 =>
      rw [← Option.some.inj h2] at e
      exact absurd e (hfresh sid1 row1 h1)
    next e1 e2 => exact h.single sid1 sid2 row1 row2 h1 h2 e

theorem keepsRegistered_same {db' : Db} (h : db'.sessions = db.sessions) : KeepsRegistered E db db' := by
  intro hr
  rwa [h]

theorem keepsRegistered_touches {F : List Area} (hF : Area.access ∉ F) (db db' : Db) (h : Touches F db db') :
    KeepsRegistered E db db' := keepsRegistered_same (h .access hF).2.2

theorem Database.insertToken_registered (id : String) (row : TokenRow) :
    (insertToken id row).Keeps (KeepsRegistered E) := by
  refine .execute fun db db' h => ?_
  obtain ⟨t, -, rfl⟩ := Option.map_eq_some_iff.mp h
  exact keepsRegistered_same rfl

theorem Database.insertSession_registered {r : LaunchSessionRequest} (hr : E.parseUlid r.id = true) (hash : String)
    (inst : InstanceDocument) : (insertSession E d r hash inst).Keeps (KeepsRegistered E) := by
  refine .bind (.modify fun db hdb => hdb.mono fun sid row hrow => ?_) fun _ =>
    .bind (insertToken_registered _ _) fun _ => .execute fun db db' h hdb => ?_
  · have hrow : (db.sessions.delete _).get? sid = some row := hrow
    rw [Table.get?_delete] at hrow
    exact ⟨row, (Option.filter_eq_some_iff.mp hrow).1, rfl⟩
  · split at h
    · cases h
    next hnew =>
      obtain ⟨t, ht, rfl⟩ := Option.map_eq_some_iff.mp h
      refine hdb.insert ht hr fun sid row hrow e => hnew ?_
      rw [List.any_eq_true]
      exact ⟨(sid, row), Table.get?_eq_some.mp hrow, by simpa using e⟩

theorem Database.createLaunchSession_registered (r : LaunchSessionRequest) :
    (createLaunchSession E d r).Keeps (KeepsRegistered E) := by
  by_cases hr : E.parseUlid r.id = true
  · exact createLaunchSession_keeps fun hash inst => insertSession_registered hr hash inst
  · intro db
    have hv : validSession E r = false := by simp [validSession, hr]
    unfold createLaunchSession
    rw [Batch.bind_run, Batch.require_run, hv]
    exact id

theorem Command.run_registered (c : Command) (db : Db) : KeepsRegistered E db (c.run E d db) := by
  have log := @keepsRegistered_touches E [.log] (by simp)
  have catalog := @keepsRegistered_touches E [.catalog] (by simp)
  have htransition : ∀ id next p result problem,
      (Database.transition d id next p result problem).Keeps (KeepsRegistered E) :=
    fun _ _ _ _ _ => (transition_touches d _ _ _ _ _).mono log
  have haccept : ∀ tokenId kind key hash target,
      (Database.acceptOperation d tokenId kind key hash target).Keeps (KeepsRegistered E) :=
    fun _ _ _ _ _ => (acceptOperation_touches d _ _ _ _ _).mono log
  refine c.run_keeps_of haccept htransition (fun _ _ => (promoteModel_touches _ _).mono catalog)
    (fun _ => (removeModel_touches _).mono catalog) (keepsRegistered_touches (by simp)) db fun hm => ?_
  cases c <;> try (cases hm; done)
  case createToken =>
    exact createToken_keeps htransition (fun _ _ _ => haccept _ _ _ _ _)
      (fun _ _ => insertToken_registered _ _) (fun _ _ => keepsRegistered_same rfl) _ _ _ db
  case revokeToken =>
    exact revokeToken_keeps htransition (fun _ _ _ => haccept _ _ _ _ _) (fun _ => keepsRegistered_same rfl) _ _ db
  case createLaunchSession r => exact createLaunchSession_registered r db
  case finishLaunchSession id =>
    refine finishLaunchSession_keeps (fun db token hdb => hdb.mono fun sid row hrow => ?_) db
    have hrow : (db.sessions.modify id _).get? sid = some row := hrow
    rw [Table.get?_modify] at hrow
    split at hrow
    next e =>
      obtain ⟨row0, h0, rfl⟩ := Option.map_eq_some_iff.mp hrow
      exact ⟨row0, e ▸ h0, rfl⟩
    next => exact ⟨row, hrow, rfl⟩

end

structure Enrolled (E : Env) (s : Ledger) : Prop where
  books : Books s
  registered : Registered E s.db.sessions
  held : ∀ id r sid, s.panelRequests.get? id = some r → r.sessionId = some sid →
    (s.db.sessions.get? sid).isSome = true ∧ (s.launchRequests.get? id).isSome = true

theorem Sessions.record_rows (d : Draw) (r : UsageRecord) (s : Ledger) : (record d r s).2.db = s.db ∧
    (∀ id, ((record d r s).2.launchRequests.get? id).isSome = (s.launchRequests.get? id).isSome) ∧
    ∀ id p', (record d r s).2.panelRequests.get? id = some p' →
      ∃ p, s.panelRequests.get? id = some p ∧ p'.sessionId = p.sessionId := by
  rcases record_cases d r s with ⟨e, -, hc⟩ | ⟨n, -, hc⟩
  · rw [hc]
    exact ⟨rfl, fun _ => rfl, fun id p' hp' => ⟨p', hp', rfl⟩⟩
  · rw [hc]
    have hlaunch : ∀ id, ((s.launchRequests.modify r.id (close d r n)).get? id).isSome =
        (s.launchRequests.get? id).isSome := by
      intro id
      rw [Table.get?_modify]
      split
      next e => rw [Option.isSome_map, e]
      next => rfl
    unfold Analytics.record
    dsimp only
    split
    · split
      · refine ⟨rfl, hlaunch, fun id p' hp' => ?_⟩
        have hp' : (s.panelRequests.modify r.id _).get? id = some p' := hp'
        rw [Table.get?_modify] at hp'
        split at hp'
        next e =>
          obtain ⟨p, hp, rfl⟩ := Option.map_eq_some_iff.mp hp'
          exact ⟨p, e ▸ hp, rfl⟩
        next => exact ⟨p', hp', rfl⟩
      · exact ⟨rfl, hlaunch, fun id p' hp' => ⟨p', hp', rfl⟩⟩
    · exact ⟨rfl, hlaunch, fun id p' hp' => ⟨p', hp', rfl⟩⟩

def Ledger.retained (s s' : Ledger) : Bool := s.db.sessions.rows.all fun r => (s'.db.sessions.get? r.1).isSome

theorem Ledger.retained_iff {s s' : Ledger} : s.retained s' = true ↔
    ∀ sid, (s.db.sessions.get? sid).isSome = true → (s'.db.sessions.get? sid).isSome = true := by
  unfold retained
  rw [List.all_eq_true]
  constructor
  · intro h sid hs
    obtain ⟨row, hrow⟩ := Option.isSome_iff_exists.mp hs
    exact h (sid, row) (Table.get?_eq_some.mp hrow)
  · intro h x hx
    refine h x.1 ?_
    rw [Table.get?_eq_some.mpr hx]
    rfl

def Ledger.retains (E : Env) : Ledger → List (Draw × LedgerCommand) → Bool
  | _, [] => true
  | s, (d, c) :: l => c.keeps && s.retained (c.run E d s) && (c.run E d s).retains E l

namespace Enrolled

variable {E : Env} {d : Draw} {s s' : Ledger} {db : Db}

theorem init : Enrolled E {} := by
  refine ⟨Books.init, ⟨?_, ?_⟩, ?_⟩
  · intro sid row h
    cases h
  · intro sid sid' row row' h
    cases h
  · intro id r sid h
    cases h

theorem enter (he : Enrolled E s) {id : String} {row : PanelRequest} (h : Entered s id row s') : Enrolled E s' := by
  refine ⟨he.books.enter h, h.db ▸ he.registered, fun id' r sid hr hsid => ?_⟩
  rw [Table.get?_insert h.panel] at hr
  rw [h.db]
  split at hr
  next e =>
    obtain rfl := Option.some.inj hr
    refine ⟨h.session sid hsid, ?_⟩
    rcases h.launch with ⟨hn, -⟩ | ⟨l, hl, -⟩
    · rw [hn] at hsid
      cases hsid
    · rw [Table.get?_insert hl, if_pos e]
      rfl
  next e =>
    obtain ⟨hs, hl⟩ := he.held id' r sid hr hsid
    refine ⟨hs, ?_⟩
    rcases h.launch with ⟨-, hsame⟩ | ⟨l, hi, -⟩
    · rwa [hsame]
    · rwa [Table.get?_insert hi, if_neg e]

theorem cascade (he : Enrolled E s) (hreg : Registered E db.sessions)
    (hret : s.retained (s.cascade db) = true) : Enrolled E (s.cascade db) := by
  refine ⟨he.books.cascade db, hreg, fun id r sid hr hsid => ?_⟩
  obtain ⟨hs, hl⟩ := he.held id r sid hr hsid
  have hs : (db.sessions.get? sid).isSome = true := Ledger.retained_iff.mp hret sid hs
  refine ⟨hs, ?_⟩
  obtain ⟨l, hl⟩ := Option.isSome_iff_exists.mp hl
  obtain ⟨r', hr', hm⟩ := he.books.mirrors id l hl
  -- the launch row names the same session, so it stays
  have e : l.sessionId = sid := by
    have : r' = r := Option.some.inj (hr'.symm.trans hr)
    rw [this] at hm
    exact Option.some.inj (hm.sessionId.symm.trans hsid)
  show ((s.launchRequests.delete _).get? id).isSome = true
  have hkeep : (db.sessions.get? l.sessionId).isNone = false := by
    rw [e, ← Option.not_isSome, hs]
    rfl
  rw [Table.get?_delete, hl]
  simp [Option.filter, hkeep]

theorem step {c : LedgerCommand} (hc : c.keeps = true) (hret : s.retained (c.run E d s) = true)
    (he : Enrolled E s) : Enrolled E (c.run E d s) := by
  have hb := he.books.step (E := E) (d := d) hc
  cases c with
  | begin token id inst protocol =>
    show Enrolled E (begin d token id inst protocol s).2
    rcases begin_cases d token id inst protocol s with e | ⟨row, h⟩
    · rw [e]
      exact he
    · exact he.enter h
  | record r =>
    obtain ⟨hdb, hlaunch, hpanel⟩ := record_rows d r s
    refine ⟨hb, ?_, fun id p' sid hp' hsid => ?_⟩
    · show Registered E (record d r s).2.db.sessions
      rw [hdb]
      exact he.registered
    · obtain ⟨p, hp, e⟩ := hpanel id p' hp'
      obtain ⟨hs, hl⟩ := he.held id p sid hp (e ▸ hsid)
      exact ⟨(congrArg (fun db : Db => (db.sessions.get? sid).isSome) hdb).trans hs, (hlaunch id).trans hl⟩
  | cleanup => cases hc
  | restart =>
    refine ⟨hb, Command.run_registered .restart s.db he.registered, fun id p' sid hp' hsid => ?_⟩
    obtain ⟨p, hp, rfl⟩ := Option.map_eq_some_iff.mp ((Table.get?_update s.panelRequests _ id).symm.trans hp')
    have hsid : p.sessionId = some sid := by
      unfold Analytics.interruptPanel at hsid
      split at hsid <;> exact hsid
    obtain ⟨hs, hl⟩ := he.held id p sid hp hsid
    refine ⟨Ledger.retained_iff.mp hret sid hs, ?_⟩
    refine (congrArg Option.isSome (Table.get?_update s.launchRequests _ id)).trans ?_
    rwa [Option.isSome_map]
  | actor c => exact he.cascade (Command.run_registered c s.db he.registered) hret

theorem run : ∀ (l : List (Draw × LedgerCommand)) {s : Ledger}, s.retains E l = true → Enrolled E s →
    Enrolled E (s.run E l)
  | [], _, _, he => he
  | (d, c) :: l, s, hl, he => by
    have hl : (c.keeps && s.retained (c.run E d s) && (c.run E d s).retains E l) = true := hl
    simp only [Bool.and_eq_true] at hl
    exact run l hl.2 (he.step hl.1.1 hl.1.2)

end Enrolled

def SessionUsage.ofColumns (u : Usage) : SessionUsage where
  requests := u .requests
  inputTokens := u .inputTokens
  outputTokens := u .outputTokens
  unknownUsageRequests := u .unknownUsageRequests
  pendingRequests := u .pendingRequests
  failedRequests := u .failedRequests
  longContextInputTokens := u .longContextInputTokens
  longContextOutputTokens := u .longContextOutputTokens
  accountingErrors := u .accountingErrors

def Ledger.sessionDays (s : Ledger) (sid : String) : Usage :=
  s.usageDaily.total (fun k _ => k.sessionId = sid) id

theorem total_apply {κ ρ : Type} (t : Table κ ρ) (p : κ → ρ → Bool) (m : ρ → Usage) (c : Column) :
    t.total p m c = t.total p fun r => m r c := by
  unfold Table.total
  induction t.select p with
  | nil => rfl
  | cons r rows ih =>
    simp only [List.map_cons, List.sum_cons, Pi.add_apply]
    rw [ih]

namespace Enrolled

variable {E : Env} {s : Ledger} {sid : String} {row : SessionRow}

theorem total_launch (he : Enrolled E s) (hsid : sid ≠ "") {c : Column} {f : LaunchRequest → Int}
    (hf : ∀ r l, Mirrors r l → f l = r.usage c) :
    s.launchRequests.total (fun _ l => l.sessionId = sid) f = s.sessionDays sid c := by
  have hkey : ∀ r : PanelRequest, r.key.sessionId = sid ↔ r.sessionId = some sid := by
    intro r
    cases h : r.sessionId with
    | none => simp [PanelRequest.key, h, Ne.symm hsid]
    | some x => simp [PanelRequest.key, h]
  unfold Ledger.sessionDays
  rw [he.books.rolls.total_groups, total_apply]
  apply Table.total_congr
  intro id
  cases hl : s.launchRequests.get? id with
  | some l =>
    obtain ⟨r, hr, hm⟩ := he.books.mirrors id l hl
    simp only [hr, Table.share, hkey, hm.sessionId, Option.some.injEq, hf r l hm]
  | none =>
    cases hr : s.panelRequests.get? id with
    | none => rfl
    | some r =>
      have hne : r.sessionId ≠ some sid := by
        intro h
        have := (he.held id r sid hr h).2
        rw [hl] at this
        cases this
      simp only [Table.share, hkey, hne, decide_false]
      rfl

theorem usage_eq (he : Enrolled E s) (hsid : sid ≠ "") : usage s sid = .ofColumns (s.sessionDays sid) := by
  have isNone_of : ∀ {r l}, Mirrors r l → l.finishedAt.isNone = r.finishedAt.isNone := by
    intro r l hm
    rw [← Option.not_isSome, ← Option.not_isSome, hm.finishedAt]
  unfold usage SessionUsage.ofColumns
  dsimp only
  congr 1
  · exact he.total_launch hsid fun _ _ _ => rfl
  · exact he.total_launch hsid fun _ _ hm => by rw [← hm.inputTokens]; rfl
  · exact he.total_launch hsid fun _ _ hm => by rw [← hm.outputTokens]; rfl
  · exact he.total_launch hsid fun _ _ hm => by rw [← hm.inputTokens]; rfl
  · exact he.total_launch hsid fun _ _ hm => by rw [isNone_of hm]; rfl
  · exact he.total_launch hsid fun _ _ hm => by rw [← hm.outcome]; rfl
  · exact he.total_launch hsid fun _ _ hm => by rw [← hm.inputTokens]; rfl
  · exact he.total_launch hsid fun _ _ hm => by rw [← hm.inputTokens, ← hm.outputTokens]; rfl
  · exact he.total_launch hsid fun _ _ hm => by rw [← hm.accountingError]; rfl

theorem byToken_eq (he : Enrolled E s) (h : s.db.sessions.get? sid = some row) :
    byToken row.tokenId s = some (sid, row) := by
  unfold byToken
  cases hf : s.db.sessions.rows.find? fun r => r.2.tokenId = row.tokenId with
  | none =>
    have := List.find?_eq_none.mp hf (sid, row) (Table.get?_eq_some.mp h)
    simp at this
  | some x =>
    have htoken : x.2.tokenId = row.tokenId := by simpa using List.find?_some hf
    have hx := Table.get?_eq_some.mpr (List.mem_of_find?_eq_some hf)
    have e := he.registered.single x.1 sid x.2 row hx h htoken
    subst e
    rw [← Option.some.inj (hx.symm.trans h)]

end Enrolled

/-- The usage of every session is the sum of the daily rows that carry its id,
and a request with a session's token for another instance, or after the
session was finished, is refused and changes nothing. -/
theorem session_usage_agrees (E : Env) (hulid : E.parseUlid "" = false) (l : List (Draw × LedgerCommand))
    (hl : ({} : Ledger).retains E l = true) :
    let s := ({} : Ledger).run E l
    (∀ sid row, s.db.sessions.get? sid = some row → ∃ session,
      Sessions.read s sid = .ok (session, .ofColumns (s.sessionDays sid))) ∧
    ∀ sid row d id inst protocol, s.db.sessions.get? sid = some row → (row.inst ≠ inst ∨ row.finishedAt.isSome = true) →
      begin d row.tokenId id inst protocol s = (.error notActive, s) := by
  have he : Enrolled E (({} : Ledger).run E l) := Enrolled.run l hl Enrolled.init
  constructor
  · intro sid row hrow
    have hsid : sid ≠ "" := by
      rintro rfl
      rw [he.registered.named "" row hrow] at hulid
      cases hulid
    refine ⟨⟨sid, row.inst, row.model, row.integration, row.ecoMode, row.startedAt, row.finishedAt⟩, ?_⟩
    unfold Sessions.read Db.readSession
    rw [hrow, he.usage_eq hsid]
    rfl
  · intro sid row d id inst protocol hrow hactive
    unfold begin
    simp only [Batch.bind_run, Batch.query_run, Batch.require_run]
    rw [he.byToken_eq hrow]
    have hrefused : (decide (row.inst ≠ inst) || row.finishedAt.isSome) = true := by simpa using hactive
    simp only [Option.any_some, hrefused]
    rfl

theorem session_usage_agrees_in_run : let s := ({} : Ledger).run ledgerEnv meteredRun
    ledgerEnv.parseUlid "" = false ∧ ({} : Ledger).retains ledgerEnv meteredRun = true ∧
    (∃ session, Sessions.read s sessionRequest.id = .ok (session, .ofColumns (s.sessionDays sessionRequest.id))) ∧
    begin {} "t1" "r4" "other" "chat" s = (.error notActive, s) := by
  have hstart : ledgerEnv.parseUlid "" = false ∧ ({} : Ledger).retains ledgerEnv meteredRun = true := by
    decide +kernel
  obtain ⟨row, hrow, hcols⟩ := Option.map_eq_some_iff.mp meteredRun_rows.2.2
  have htoken : row.tokenId = "t1" := (Prod.ext_iff.mp hcols).1
  have hinst : row.inst = "m" := (Prod.ext_iff.mp hcols).2
  obtain ⟨hread, hrefused⟩ := session_usage_agrees ledgerEnv hstart.1 meteredRun hstart.2
  refine ⟨hstart.1, hstart.2, hread _ row hrow, ?_⟩
  have := hrefused _ row {} "r4" "other" "chat" hrow (.inl (by rw [hinst]; decide))
  rwa [htoken] at this

end Sparkplane

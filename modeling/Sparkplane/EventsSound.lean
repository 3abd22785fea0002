import Sparkplane.Agent
import Sparkplane.LogSound
import Sparkplane.Path

/-!
# Soundness of the event stream

A client of `operation_events` that loses the connection comes back with the id
of the last event it has, and `read_events` goes on after it. `session_in_order`:
however the tasks of the agent and the connections interleave, what the client
has is the start of the operation's log, and the next page goes on from there.
-/

namespace Sparkplane

variable {db db' : Db} {id : String} {F : List Area} {S : Site} {K : Rules World Job Eff Oracle} {c₀ c : Pool}
  {seen : List OperationEvent}

/-! ## The log only grows -/

def LogGrown (db db' : Db) : Prop := ∀ id, db.eventsOf id <+: db'.eventsOf id

instance logGrownRefl : Std.Refl LogGrown := ⟨fun _ _ => List.prefix_refl _⟩

instance logGrownTrans : IsTrans Db LogGrown := ⟨fun _ _ _ h h' id => (h id).trans (h' id)⟩

namespace LogGrown

theorem of_events (h : db'.events = db.events) : LogGrown db db' := by
  intro id
  exact (Db.eventsOf_congr h id).symm ▸ List.prefix_refl _

theorem pushEvent {s : OperationState} {p : OperationProgress} {now : Timestamp} (h : db'.events = db.events) :
    LogGrown db (db'.pushEvent id s p now) := by
  refine IsTrans.trans _ _ _ (of_events h) fun id' => ?_
  rw [Db.eventsOf_pushEvent]
  split
  next e => exact e ▸ List.prefix_append _ _
  next => exact List.prefix_refl _

theorem acceptOperation (d : Draw) (tokenId kind key hash : String) (target : Option String) :
    (Database.acceptOperation d tokenId kind key hash target).Keeps LogGrown := by
  intro db a db' h
  rw [Database.acceptOperation_run] at h
  split at h
  · split at h
    · split at h <;> cases h
      exact Std.Refl.refl db
    · cases h
  · split at h <;> cases h
    exact pushEvent rfl

theorem transition (d : Draw) (id : String) (next : OperationState) (p : OperationProgress)
    (result : Option Json) (problem : Option ProblemDocument) :
    (Database.transition d id next p result problem).Keeps LogGrown := by
  intro db a db' h
  rw [Database.transition_run] at h
  split at h
  · cases h
  · split at h
    · cases h
      exact Std.Refl.refl db
    · split at h <;> cases h
      exact pushEvent rfl

theorem run (E : Env) (d : Draw) (c : Command) (db : Db) : LogGrown db (c.run E d db) := by
  have elsewhere {F : List Area} (hF : Area.log ∉ F) (db db' : Db) (h : Touches F db db') : LogGrown db db' :=
    of_events (h .log hF).2.1
  exact c.run_keeps (acceptOperation d) (transition d) (elsewhere (by simp))
    (fun _ _ => (Database.promoteModel_touches _ _).mono (elsewhere (by simp)))
    (fun _ => (Database.removeModel_touches _).mono (elsewhere (by simp))) (elsewhere (by simp)) db

end LogGrown

/-- What a run does to the log. -/
def LogKept (w w' : World) : Prop := LogOk w.db → LogOk w'.db ∧ LogGrown w.db w'.db

instance logKeptRefl : Std.Refl LogKept := ⟨fun _ h => ⟨h, Std.Refl.refl _⟩⟩

instance logKeptTrans : IsTrans World LogKept where
  trans _ _ _ h₁ h₂ h := ⟨(h₂ (h₁ h).1).1, IsTrans.trans _ _ _ (h₁ h).2 (h₂ (h₁ h).1).2⟩

theorem exec_logKept (t : Turn Oracle) (e : Eff) (w : World) : LogKept w ((agent S).exec t e w).2 := by
  intro h
  show LogOk (e.onDb S.env t.oracle.draw w.db) ∧ LogGrown w.db (e.onDb S.env t.oracle.draw w.db)
  unfold Eff.onDb
  cases e.writes with
  | none => exact ⟨h, Std.Refl.refl _⟩
  | some c => exact ⟨(c.run_logStep S.env _ _ h).1, LogGrown.run S.env _ c _⟩

/-! ## Pages -/

def Db.log (db : Db) (id : String) : List OperationEvent :=
  (db.eventsOf id).map fun e => { e.2 with id := e.1.2, operationId := id }

namespace LogOk

theorem numbered (h : LogOk db) (id : String) :
    ((db.eventsOf id).map fun e => e.1.2) = List.range' 1 (db.eventsOf id).length := by
  cases hr : db.operations.get? id with
  | none => rw [h.silent id hr]; rfl
  | some row => exact (h.logged id row hr).numbered

theorem sequence (h : LogOk db) {k : Nat} {e : (String × Nat) × EventRow} (he : (db.eventsOf id)[k]? = some e) :
    e.1.2 = k + 1 := by
  have hk := congrArg (·[k]?) (h.numbered id)
  have hlt := (List.getElem?_eq_some_iff.mp he).1
  simp only [List.getElem?_map, he, Option.map_some, List.getElem?_range' hlt, Option.some.injEq] at hk
  omega

theorem page (h : LogOk db) (id : String) (after : Nat) :
    ((db.eventsOf id).filter fun e => after < e.1.2).insertionSort (fun a b => a.1.2 ≤ b.1.2) =
      (db.eventsOf id).drop after := by
  have htake : ∀ e ∈ (db.eventsOf id).take after, ¬ after < e.1.2 := by
    intro e he
    obtain ⟨k, hk⟩ := List.mem_iff_getElem?.mp he
    rw [List.getElem?_take] at hk
    split at hk
    next hlt => rw [h.sequence hk]; omega
    next => cases hk
  have hdrop : ∀ e ∈ (db.eventsOf id).drop after, after < e.1.2 := by
    intro e he
    obtain ⟨k, hk⟩ := List.mem_iff_getElem?.mp he
    rw [List.getElem?_drop] at hk
    rw [h.sequence hk]
    omega
  have hsorted : ((db.eventsOf id).drop after).Pairwise fun a b => a.1.2 ≤ b.1.2 := by
    refine List.Pairwise.drop (List.pairwise_map.mp (h.numbered id ▸ ?_))
    exact (List.pairwise_lt_range' ..).imp Nat.le_of_lt
  conv_lhs => rw [← List.take_append_drop after (db.eventsOf id), List.filter_append]
  rw [List.filter_eq_nil_iff.mpr (by simpa using htake), List.filter_eq_self.mpr (by simpa using hdrop)]
  exact hsorted.insertionSort_eq

theorem readEvents (h : LogOk db) (id : String) (after : Nat) : db.readEvents id after =
    (db.readOperation id).bind fun _ => if fitsI64 after then .ok (((db.log id).drop after).take 1024)
      else .error (.invalid "event cursor is out of range") := by
  unfold Db.readEvents
  rw [h.page id after]
  cases db.readOperation id with
  | error e => rfl
  | ok o =>
    cases hf : fitsI64 after with
    | false => rfl
    | true =>
      rw [Db.log, ← List.map_drop, ← List.map_take]
      rfl

end LogOk

/-! ## A client -/

/-- `Last-Event-ID`, 0 where there is no such header. -/
def lastEventId (seen : List OperationEvent) : Nat := (seen.getLast?.map (·.id)).getD 0

/-- The agent runs on, or a connection brings the first `n` events of a page. -/
inductive Session (S : Site) (K : Rules World Job Eff Oracle) (id : String) (c₀ : Pool) :
    Pool → List OperationEvent → Prop
  | start : Session S K id c₀ c₀ []
  | runs {c c' : Pool} {seen : List OperationEvent} : Session S K id c₀ c seen → (agent S).Runs K c c' →
      Session S K id c₀ c' seen
  | page {c : Pool} {seen events : List OperationEvent} (n : Nat) : Session S K id c₀ c seen →
      c.world.db.readEvents id (lastEventId seen) = .ok events → Session S K id c₀ c (seen ++ events.take n)

theorem lastEventId_eq (h : LogOk db) (hp : seen <+: db.log id) : lastEventId seen = seen.length := by
  unfold lastEventId
  cases hl : seen.getLast? with
  | none =>
    rw [List.getLast?_eq_none_iff.mp hl]
    rfl
  | some e =>
    obtain ⟨rest, hr⟩ := hp
    rw [List.getLast?_eq_getElem?] at hl
    have hlt := (List.getElem?_eq_some_iff.mp hl).1
    have hs : (seen ++ rest)[seen.length - 1]? = seen[seen.length - 1]? := List.getElem?_append_left hlt
    rw [← hs, hr, Db.log, List.getElem?_map] at hl
    obtain ⟨row, hrow, rfl⟩ := Option.map_eq_some_iff.mp hl
    show row.1.2 = seen.length
    rw [h.sequence hrow]
    omega

theorem session_in_order (before : List (Draw × Command)) (w : World) (jobs : List Job)
    (h : Session S K id (starting S { w with db := actorLoop S.env {} before } jobs) c seen) :
    seen <+: c.world.db.log id ∧ c.world.db.readEvents id (lastEventId seen) =
      (c.world.db.readOperation id).bind fun _ =>
        if fitsI64 seen.length then .ok (((c.world.db.log id).drop seen.length).take 1024)
        else .error (.invalid "event cursor is out of range") := by
  have hlog : LogOk c.world.db ∧ seen <+: c.world.db.log id := by
    induction h with
    | start => exact ⟨(actorLoop_keeps (Command.run_logStep S.env) before {} logOk_empty).1, List.nil_prefix⟩
    | runs _ hr ih =>
      obtain ⟨hok, hgrown⟩ := hr.keeps (P := LogKept) exec_logKept ih.1
      exact ⟨hok, ih.2.trans ((hgrown id).map _)⟩
    | @page c seen events n _ he ih =>
      refine ⟨ih.1, ?_⟩
      rw [lastEventId_eq ih.1 ih.2, ih.1.readEvents] at he
      obtain ⟨rest, hr⟩ := ih.2
      rw [← hr, List.drop_left] at he
      cases ho : c.world.db.readOperation id with
      | error e => rw [ho] at he; cases he
      | ok o =>
        rw [ho] at he
        simp only [Except.bind] at he
        split at he <;> cases he
        rw [← hr, List.prefix_append_right_inj]
        exact (List.take_prefix ..).trans (List.take_prefix ..)
  rw [lastEventId_eq hlog.1 hlog.2, hlog.1.readEvents]
  exact ⟨hlog.2, rfl⟩

theorem first_page_in_order : (actorLoop exampleSite.env {} succeededRun).readEvents "op" 0 =
    ((actorLoop exampleSite.env {} succeededRun).readOperation "op").bind fun _ =>
      .ok (((actorLoop exampleSite.env {} succeededRun).log "op").take 1024) :=
  (session_in_order (S := exampleSite) (K := .free) succeededRun {} [] .start).2

end Sparkplane

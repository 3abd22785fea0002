import Mathlib.Data.List.Chain
import Sparkplane.Actor

/-!
# Soundness of the operation log

`operation_log_sound`: in every database that commands build from an empty one,
the events of an operation are numbered without gaps, start at `Accepted`,
follow the legal transitions and end in the operation's own state, and a
terminal operation never changes again.
-/

namespace Sparkplane

open Database

variable {db db' : Db} {id o : String} {row : OperationRow} {next : OperationState} {F : List Area} {κ ρ : Type}
variable {c : Command}

/-! ## The log of one operation -/

/-- What the events of an operation say about its row. -/
structure Logged (row : OperationRow) (events : List ((String × Nat) × EventRow)) : Prop where
  numbered : (events.map fun e => e.1.2) = List.range' 1 events.length
  first : (events.map fun e => e.2.state).head? = some .accepted
  legal : (events.map fun e => e.2.state).IsChain fun a b => legalOperationTransition a b = true
  last : (events.map fun e => (e.2.state, e.2.progress)).getLast? = some (row.state, row.progress)

structure LogOk (db : Db) : Prop where
  logged : ∀ id row, db.operations.get? id = some row → Logged row (db.eventsOf id)
  silent : ∀ id, db.operations.get? id = none → db.eventsOf id = []

def Frozen (db db' : Db) : Prop :=
  ∀ id row, db.operations.get? id = some row → row.state.isTerminal = true →
    db'.operations.get? id = some row ∧ db'.eventsOf id = db.eventsOf id

theorem range'_max? (n : Nat) : (List.range' 1 (n + 1)).max? = some (n + 1) := by
  rw [List.max?_eq_some_iff]
  simp only [List.mem_range'_1]
  exact ⟨by omega, fun b hb => by omega⟩

theorem nextSequence_eq (h : ((db.eventsOf id).map fun e => e.1.2) = List.range' 1 (db.eventsOf id).length) :
    db.nextSequence id = (db.eventsOf id).length + 1 := by
  unfold Db.nextSequence
  rw [h]
  cases hn : (db.eventsOf id).length with
  | zero => rfl
  | succ n => rw [range'_max?]

theorem Logged.push {events : List ((String × Nat) × EventRow)}
    (h : Logged row events) (hl : legalOperationTransition row.state next = true)
    (id : String) (now : Timestamp) (p : OperationProgress) (result : Option Json)
    (problem : Option ProblemDocument) :
    Logged (row.advance now next p result problem)
      (events ++ [((id, events.length + 1), ⟨next, p, now⟩)]) where
  numbered := by
    rw [List.map_append, h.numbered, List.length_append, List.length_singleton, List.range'_1_concat,
      Nat.add_comm 1]
    rfl
  first := by
    rw [List.map_append, List.head?_append, h.first]; rfl
  legal := by
    rw [List.map_append, List.isChain_append]
    refine ⟨h.legal, List.isChain_singleton _, ?_⟩
    intro a ha b hb
    have hlast := congrArg (Option.map Prod.fst) h.last
    rw [← List.getLast?_map, List.map_map] at hlast
    have e : (Prod.fst ∘ fun e : (String × Nat) × EventRow => (e.2.state, e.2.progress)) =
        fun e => e.2.state := rfl
    rw [e] at hlast
    rw [hlast] at ha
    simp only [Option.map_some, Option.mem_def, Option.some.injEq] at ha
    simp only [List.map_cons, List.map_nil, List.head?_cons, Option.mem_def, Option.some.injEq] at hb
    rw [← ha, ← hb]
    exact hl
  last := by
    rw [List.map_append, List.getLast?_append]; rfl

/-! ## One command -/

theorem not_legal_of_terminal {s : OperationState} (h : s.isTerminal = true) :
    legalOperationTransition s next = false := by
  revert h
  cases s <;> cases next <;> decide

def LogStep (db db' : Db) : Prop := LogOk db → LogOk db' ∧ Frozen db db'

instance : Std.Refl LogStep where
  refl _ h := ⟨h, fun _ _ ho _ => ⟨ho, rfl⟩⟩

instance : IsTrans Db LogStep where
  trans _ _ _ h1 h2 h := by
    obtain ⟨ok₁, f₁⟩ := h1 h
    obtain ⟨ok₂, f₂⟩ := h2 ok₁
    refine ⟨ok₂, fun id row ho ht => ?_⟩
    obtain ⟨ho1, he1⟩ := f₁ id row ho ht
    obtain ⟨ho2, he2⟩ := f₂ id row ho1 ht
    exact ⟨ho2, he2.trans he1⟩

theorem LogStep.of_touches (hF : Area.log ∉ F) (h : Touches F db db') : LogStep db db' := by
  obtain ⟨ho, he, _⟩ := h .log hF
  refine fun hok => ⟨⟨fun id row hr => ?_, fun id hn => ?_⟩, fun id row hr _ => ?_⟩
  · rw [Db.eventsOf_congr he]; rw [ho] at hr; exact hok.logged id row hr
  · rw [Db.eventsOf_congr he]; rw [ho] at hn; exact hok.silent id hn
  · rw [ho]; exact ⟨hr, Db.eventsOf_congr he id⟩

namespace Database

variable (d : Draw)

theorem accepted_logStep (tokenId kind key hash : String) (target : Option String)
    (hnew : db.operations.get? d.operationId = none) :
    LogStep db (db.accepted d tokenId kind key hash target) := by
  intro hok
  have hev : ∀ id, (db.accepted d tokenId kind key hash target).eventsOf id =
      if id = d.operationId then [((d.operationId, 1), ⟨.accepted, acceptedProgress, d.now⟩)]
      else db.eventsOf id := by
    intro id
    have hs : db.eventsOf d.operationId = [] := hok.silent _ hnew
    have hn : db.nextSequence d.operationId = 1 := by unfold Db.nextSequence; rw [hs]; rfl
    unfold Db.accepted
    rw [Db.eventsOf_pushEvent]
    show (if id = d.operationId then db.eventsOf d.operationId ++ [((_, db.nextSequence _), _)]
      else db.eventsOf id) = _
    rw [hs, hn]; rfl
  have hop : ∀ id, (db.accepted d tokenId kind key hash target).operations.get? id =
      if id = d.operationId then
        some ⟨kind, tokenId, target, .accepted, acceptedProgress, d.now, d.now, none, none⟩
      else db.operations.get? id := fun id => Table.get?_upsert _ _ _ _
  refine ⟨⟨fun id row hr => ?_, fun id hn => ?_⟩, fun id row hr _ => ?_⟩
  · rw [hop] at hr
    rw [hev]
    by_cases e : id = d.operationId
    · rw [if_pos e] at hr ⊢
      cases hr
      exact ⟨rfl, rfl, List.isChain_singleton _, rfl⟩
    · rw [if_neg e] at hr ⊢; exact hok.logged id row hr
  · rw [hop] at hn
    rw [hev]
    by_cases e : id = d.operationId
    · rw [if_pos e] at hn; cases hn
    · rw [if_neg e] at hn ⊢; exact hok.silent id hn
  · have e : id ≠ d.operationId := fun e => by rw [e, hnew] at hr; cases hr
    rw [hop, hev, if_neg e, if_neg e]
    exact ⟨hr, rfl⟩

theorem acceptOperation_logStep (tokenId kind key hash : String) (target : Option String) :
    (acceptOperation d tokenId kind key hash target).Keeps LogStep := by
  intro db a db' h
  rw [acceptOperation_run] at h
  split at h
  · split at h
    · split at h <;> cases h
      exact Std.Refl.refl db
    · cases h
  · split at h
    · cases h
    · rename_i hnew
      cases h
      exact accepted_logStep d tokenId kind key hash target (by simpa using hnew)

theorem advanced_logStep (hrow : db.operations.get? id = some row) (hl : legalOperationTransition row.state next = true)
    (now : Timestamp) (p : OperationProgress) (result : Option Json) (problem : Option ProblemDocument) :
    LogStep db (db.advanced now id next p result problem) := by
  intro hok
  have hlog := hok.logged id row hrow
  have hev : ∀ id', (db.advanced now id next p result problem).eventsOf id' =
      if id' = id then db.eventsOf id ++ [((id, (db.eventsOf id).length + 1), ⟨next, p, now⟩)]
      else db.eventsOf id' := by
    intro id'
    rw [← nextSequence_eq hlog.numbered]
    exact Db.eventsOf_pushEvent _ _ _ _ _ _
  have hop : ∀ id', (db.advanced now id next p result problem).operations.get? id' =
      if id' = id then some (row.advance now next p result problem) else db.operations.get? id' := by
    intro id'
    have := Table.get?_modify db.operations id (·.advance now next p result problem) id'
    rw [hrow] at this
    exact this
  refine ⟨⟨fun id' row' hr => ?_, fun id' hn => ?_⟩, fun id' row' hr ht => ?_⟩
  · rw [hop] at hr
    rw [hev]
    by_cases e : id' = id
    · rw [if_pos e] at hr ⊢
      cases hr
      exact hlog.push hl id now p result problem
    · rw [if_neg e] at hr ⊢; exact hok.logged id' row' hr
  · rw [hop] at hn
    rw [hev]
    by_cases e : id' = id
    · rw [if_pos e] at hn; cases hn
    · rw [if_neg e] at hn ⊢; exact hok.silent id' hn
  · have e : id' ≠ id := by
      rintro rfl
      rw [hrow] at hr
      cases hr
      rw [not_legal_of_terminal ht] at hl
      cases hl
    rw [hop, hev, if_neg e, if_neg e]
    exact ⟨hr, rfl⟩

theorem transition_logStep (id : String) (next : OperationState) (p : OperationProgress)
    (result : Option Json) (problem : Option ProblemDocument) :
    (transition d id next p result problem).Keeps LogStep := by
  intro db a db' h
  rw [transition_run] at h
  split at h
  · cases h
  · rename_i row hrow
    split at h
    · cases h; exact Std.Refl.refl db
    · split at h
      · rename_i hl
        cases h
        exact advanced_logStep hrow hl d.now p result problem
      · cases h

/-! ## The restart pass ends -/

theorem select_modify_out [DecidableEq κ] {p : κ → ρ → Bool} {f : ρ → ρ} {k : κ}
    (hp : ∀ r, p k (f r) = false) (t : Table κ ρ) :
    ((t.modify k f).select p).map Prod.fst = ((t.select p).map Prod.fst).filter (· ≠ k) := by
  unfold Table.modify Table.update Table.select
  dsimp only
  induction t.rows with
  | nil => rfl
  | cons x rows ih =>
    rw [List.map_cons, List.filter_cons, List.filter_cons]
    by_cases e : x.1 = k
    · subst e
      cases hx : p x.1 x.2 <;> simpa [hp] using ih
    · cases hx : p x.1 x.2 <;> simpa [e, hx] using ih

theorem activeRecoveries_failed (now : Timestamp) (id : String) (p : OperationProgress)
    (problem : Option ProblemDocument) :
    (db.advanced now id .failed p none problem).activeRecoveries = db.activeRecoveries.filter (· ≠ id) := by
  unfold Db.activeRecoveries
  refine select_modify_out (f := fun r : OperationRow => r.advance now .failed p none problem) ?_ db.operations
  intro r
  simp [OperationRow.advance, OperationState.isTerminal]

theorem select_modify_same [DecidableEq κ] {p : κ → ρ → Bool} {f : ρ → ρ} {k : κ}
    {t : Table κ ρ} (hp : ∀ r, t.get? k = some r → p k (f r) = p k r) :
    ((t.modify k f).select p).map Prod.fst = (t.select p).map Prod.fst := by
  have hrows : ∀ x ∈ t.rows, (p x.1 (if x.1 = k then f x.2 else x.2)) = p x.1 x.2 := by
    intro x hx
    by_cases e : x.1 = k
    · rw [if_pos e, e]; exact hp _ (Table.get?_eq_some.mpr (e ▸ hx))
    · rw [if_neg e]
  unfold Table.modify Table.update Table.select
  dsimp only
  revert hrows
  induction t.rows with
  | nil => exact fun _ => rfl
  | cons x rows ih =>
    intro hrows
    have hx := hrows x (List.mem_cons_self ..)
    have ih := ih fun y hy => hrows y (List.mem_cons_of_mem _ hy)
    rw [List.map_cons, List.filter_cons, List.filter_cons]
    dsimp only at hx ⊢
    rw [hx]
    cases p x.1 x.2 <;> simpa using ih

theorem activeRecoveries_running {now : Timestamp}
    (hrow : db.operations.get? id = some row) (hs : row.state = .accepted) (p : OperationProgress) :
    (db.advanced now id .running p none none).activeRecoveries = db.activeRecoveries := by
  unfold Db.activeRecoveries
  refine select_modify_same (f := fun r : OperationRow => r.advance now .running p none none) (t := db.operations) ?_
  intro r hr
  rw [hrow] at hr
  cases hr
  simp only [OperationRow.advance, OperationState.isTerminal, hs]
  rfl

theorem closeOperation_active (hrow : db.operations.get? id = some row) (hs : row.state.isTerminal = false)
    (running failed : OperationProgress) (problem : ProblemDocument) :
    ∃ db', closeOperation d id running failed problem db = (.ok (), db') ∧
      db'.activeRecoveries = db.activeRecoveries.filter (· ≠ id) := by
  refine ⟨_, closeOperation_run hrow hs running failed problem, ?_⟩
  rw [activeRecoveries_failed]
  split
  · rename_i ha
    rw [activeRecoveries_running hrow ha]
  · rfl

theorem mem_activeRecoveries : id ∈ db.activeRecoveries ↔ ∃ row, db.operations.get? id = some row ∧
      row.kind = "instance.recover" ∧ row.state.isTerminal = false := by
  simp only [Db.activeRecoveries, Table.select, List.mem_map, List.mem_filter, Prod.exists,
    exists_and_right, exists_eq_right, Table.get?_eq_some]
  exact exists_congr fun row => by simp

theorem each_closeOperation : ∀ (ids : List String) (db : Db), ids.Nodup → (∀ id ∈ ids, id ∈ db.activeRecoveries) →
    ∃ db', Batch.each (fun id => closeOperation d id interruptedProgress interruptedProgress
        (interruptedProblem id)) ids db = (.ok (), db') ∧
      db'.activeRecoveries = db.activeRecoveries.filter (· ∉ ids)
  | [], db, _, _ => ⟨db, rfl, by simp⟩
  | id :: ids, db, hn, hids => by
    obtain ⟨row, hrow, _, hs⟩ := mem_activeRecoveries.mp (hids id (List.mem_cons_self ..))
    obtain ⟨db1, h1, ha1⟩ := closeOperation_active d hrow hs interruptedProgress interruptedProgress
      (interruptedProblem id)
    rw [List.nodup_cons] at hn
    obtain ⟨db2, h2, ha2⟩ := each_closeOperation ids db1 hn.2 fun i hi => by
      rw [ha1, List.mem_filter]
      have hne : i ≠ id := fun e => hn.1 (e ▸ hi)
      exact ⟨hids i (List.mem_cons_of_mem _ hi), by simpa using hne⟩
    refine ⟨db2, ?_, ?_⟩
    · unfold Batch.each
      rw [Batch.bind_run, h1]
      exact h2
    · rw [ha2, ha1, List.filter_filter]
      congr 1
      funext i
      simp [Bool.and_comm]

end Database

/-! ## Operations only move forward -/

structure OperationRow.Follows (row row' : OperationRow) : Prop where
  kind : row'.kind = row.kind
  actor : row'.actorTokenId = row.actorTokenId
  target : row'.target = row.target
  started : row.state ≠ .accepted → row'.state ≠ .accepted
  terminal : row.state.isTerminal = true → row' = row

theorem OperationRow.Follows.refl (row : OperationRow) : row.Follows row :=
  ⟨rfl, rfl, rfl, fun h => h, fun _ => rfl⟩

theorem OperationRow.Follows.trans {a b c : OperationRow} (h1 : a.Follows b) (h2 : b.Follows c) :
    a.Follows c where
  kind := h2.kind.trans h1.kind
  actor := h2.actor.trans h1.actor
  target := h2.target.trans h1.target
  started h := h2.started (h1.started h)
  terminal h := by
    have e := h1.terminal h
    subst e
    exact h2.terminal h

theorem OperationRow.Follows.advance
    (hl : legalOperationTransition row.state next = true) (now : Timestamp) (p : OperationProgress)
    (result : Option Json) (problem : Option ProblemDocument) :
    row.Follows (row.advance now next p result problem) where
  kind := rfl
  actor := rfl
  target := rfl
  started _ := by
    show next ≠ .accepted
    rintro rfl
    revert hl
    cases row.state <;> decide
  terminal ht := by rw [not_legal_of_terminal ht] at hl; cases hl

def OpStep (db db' : Db) : Prop :=
  ∀ id row, db.operations.get? id = some row → ∃ row', db'.operations.get? id = some row' ∧ row.Follows row'

instance : Std.Refl OpStep := ⟨fun _ _ row h => ⟨row, h, .refl row⟩⟩

instance : IsTrans Db OpStep where
  trans _ _ _ h1 h2 id row h := by
    obtain ⟨row₁, g₁, f₁⟩ := h1 id row h
    obtain ⟨row₂, g₂, f₂⟩ := h2 id row₁ g₁
    exact ⟨row₂, g₂, f₁.trans f₂⟩

theorem OpStep.of_touches (hF : Area.log ∉ F) (h : Touches F db db') : OpStep db db' := by
  obtain ⟨ho, _⟩ := h .log hF
  exact fun id row hr => ⟨row, by rw [ho]; exact hr, .refl row⟩

namespace Database

variable (d : Draw)

theorem acceptOperation_opStep (tokenId kind key hash : String) (target : Option String) :
    (acceptOperation d tokenId kind key hash target).Keeps OpStep := by
  intro db a db' h
  rw [acceptOperation_run] at h
  split at h
  · split at h
    · split at h <;> cases h
      exact Std.Refl.refl db
    · cases h
  · split at h
    · cases h
    · rename_i hnew
      cases h
      intro id row hr
      have e : id ≠ d.operationId := fun e => by rw [e] at hr; simp [hr] at hnew
      refine ⟨row, ?_, .refl row⟩
      show (db.operations.upsert _ _).get? id = _
      rw [Table.get?_upsert, if_neg e]; exact hr

theorem transition_opStep (id : String) (next : OperationState) (p : OperationProgress)
    (result : Option Json) (problem : Option ProblemDocument) :
    (transition d id next p result problem).Keeps OpStep := by
  intro db a db' h
  rw [transition_run] at h
  split at h
  · cases h
  · rename_i row hrow
    split at h
    · cases h; exact Std.Refl.refl db
    · split at h
      · rename_i hl
        cases h
        intro id' row' hr'
        show ∃ r, (db.operations.modify id _).get? id' = some r ∧ _
        rw [Table.get?_modify, hrow]
        by_cases e : id' = id
        · subst e
          rw [hrow] at hr'
          cases hr'
          exact ⟨_, if_pos rfl, .advance hl _ _ _ _⟩
        · exact ⟨row', by rw [if_neg e]; exact hr', .refl row'⟩
      · cases h

end Database

theorem Command.run_opStep (E : Env) (d : Draw) (c : Command) (db : Db) : OpStep db (c.run E d db) :=
  c.run_keeps (acceptOperation_opStep d) (transition_opStep d) (fun _ _ => OpStep.of_touches (by simp))
    (fun _ _ => (promoteModel_touches _ _).mono fun _ _ => OpStep.of_touches (by simp))
    (fun _ => (removeModel_touches _).mono fun _ _ => OpStep.of_touches (by simp))
    (fun _ _ => OpStep.of_touches (by simp)) db

/-! ## One operation and one command -/

def Command.moves : Command → Option (String × OperationState)
  | .transition id next .. => some (id, next)
  | .cancel id => some (id, .cancelled)
  | _ => none

def Command.single : Command → Bool
  | .createToken .. | .revokeToken .. | .importEmergency _ | .restart => false
  | _ => true

inductive OpChange (c : Command) (o : String) : Option OperationRow → Option OperationRow → Prop
  | same (row : Option OperationRow) : OpChange c o row row
  | accepted {tokenId kind key hash : String} {target : Option String} (now : Timestamp)
      (h : c = .accept tokenId kind key hash target) :
      OpChange c o none (some
        ⟨kind, tokenId, target, .accepted, acceptedProgress, now, now, none, none⟩)
  | moved {row : OperationRow} {next : OperationState} (now : Timestamp) (p : OperationProgress)
      (result : Option Json) (problem : Option ProblemDocument) (h : c.moves = some (o, next))
      (legal : legalOperationTransition row.state next = true) :
      OpChange c o (some row) (some (row.advance now next p result problem))

theorem OpChange.of_touches (hF : Area.log ∉ F)
    (h : Touches F db db') : OpChange c o (db.operations.get? o) (db'.operations.get? o) := by
  rw [(h .log hF).1]
  exact .same _

theorem OpChange.advanced (hc : c.moves = some (id, next)) (hrow : db.operations.get? id = some row)
    (hl : legalOperationTransition row.state next = true) (now : Timestamp) (p : OperationProgress)
    (result : Option Json) (problem : Option ProblemDocument) (o : String) :
    OpChange c o (db.operations.get? o) ((db.advanced now id next p result problem).operations.get? o) := by
  show OpChange c o _ ((db.operations.modify id _).get? o)
  rw [Table.get?_modify]
  by_cases e : o = id
  · subst e
    rw [if_pos rfl, hrow]
    exact .moved now p result problem hc hl
  · rw [if_neg e]
    exact .same _

theorem OpChange.commit {α : Type} {t : Sql α}
    (h : ∀ a db', t db = .ok (a, db') → OpChange c o (db.operations.get? o) (db'.operations.get? o)) :
    OpChange c o (db.operations.get? o) ((t.commit db).2.operations.get? o) := by
  rcases t.commit_cases db with ⟨a, db', ht, hc⟩ | ⟨e, _, hc⟩
  · rw [hc]; exact h a db' ht
  · rw [hc]; exact .same _

theorem Command.run_operation_accept (d : Draw) (tokenId kind key hash : String) (target : Option String)
    (o : String) (db : Db) : OpChange (.accept tokenId kind key hash target) o (db.operations.get? o)
      (((Database.acceptOperation d tokenId kind key hash target).commit db).2.operations.get? o) := by
  refine .commit fun a db' h => ?_
  rw [acceptOperation_run] at h
  split at h
  · split at h
    · split at h <;> cases h
      exact .same _
    · cases h
  · split at h
    · cases h
    · rename_i hnew
      cases h
      show OpChange _ o _ ((db.operations.upsert d.operationId _).get? o)
      rw [Table.get?_upsert]
      by_cases e : o = d.operationId
      · rw [if_pos e, e, Option.not_isSome_iff_eq_none.mp hnew]
        exact .accepted d.now rfl
      · rw [if_neg e]
        exact .same _

theorem Command.run_operation_transition (d : Draw) (id : String) (next : OperationState)
    (p : OperationProgress) (result : Option Json) (problem : Option ProblemDocument) (o : String) (db : Db) :
    OpChange (.transition id next p result problem) o (db.operations.get? o)
      (((Database.transition d id next p result problem).commit db).2.operations.get? o) := by
  refine .commit fun a db' h => ?_
  rw [transition_run] at h
  split at h
  · cases h
  · rename_i row hrow
    split at h
    · cases h; exact .same _
    · split at h
      · rename_i hl
        cases h
        exact .advanced rfl hrow hl _ _ _ _ o
      · cases h

theorem Command.run_operation (E : Env) (d : Draw) (hc : c.single = true) (o : String)
    (db : Db) : OpChange c o (db.operations.get? o) ((c.run E d db).operations.get? o) := by
  have touches : ∀ {α : Type} {t : Sql α} {F : List Area}, Area.log ∉ F → t.Keeps (Touches F) →
      OpChange c o (db.operations.get? o) ((t.commit db).2.operations.get? o) :=
    fun hF h => .of_touches hF (Batch.Keeps.commit h db)
  cases c <;> try (cases hc; done)
  case accept => exact Command.run_operation_accept d _ _ _ _ _ o db
  case transition => exact Command.run_operation_transition d _ _ _ _ _ o db
  case cancel id =>
    show OpChange _ o _ ((Database.cancelOperation d id db).2.operations.get? o)
    rw [cancelOperation_run]
    cases hrow : db.operations.get? id with
    | none => exact .same _
    | some row =>
      dsimp only
      split
      · exact .same _
      · split
        · exact .same _
        · refine .advanced rfl hrow ?_ _ _ _ _ o
          cases hs : row.state <;> first | rfl | simp_all [OperationState.isTerminal]
  case createLaunchSession =>
    exact .of_touches (F := [.access]) (by simp) (createLaunchSession_keeps
      (fun _ _ => insertSession_touches E d _ _ _) db)
  case finishLaunchSession =>
    exact .of_touches (F := [.access]) (by simp) (finishLaunchSession_keeps (fun _ _ => touches_access) db)
  case promoteModel => exact touches (by simp) (promoteModel_touches _ _)
  case removeModel => exact touches (by simp) (removeModel_touches _)
  case beginServe => exact touches (by simp) (beginServe_touches E _)
  case setInstanceObserved => exact touches (by simp) (setInstanceObserved_touches d _ _ _ _ _ _)
  case beginStop => exact touches (by simp) (beginStop_touches _)
  case recordRestartFailure => exact touches (by simp) (recordRestartFailure_touches _ _ _)
  case markQuarantine => exact touches (by simp) (markQuarantine_touches _ _ _)
  case reconcileQuarantine => exact touches (by simp) (reconcileQuarantine_touches d _)

/-! ## Whole runs -/

theorem Command.run_logStep (E : Env) (d : Draw) (c : Command) (db : Db) : LogStep db (c.run E d db) :=
  c.run_keeps (acceptOperation_logStep d) (transition_logStep d) (fun _ _ => LogStep.of_touches (by simp))
    (fun _ _ => (promoteModel_touches _ _).mono fun _ _ => LogStep.of_touches (by simp))
    (fun _ => (removeModel_touches _).mono fun _ _ => LogStep.of_touches (by simp))
    (fun _ _ => LogStep.of_touches (by simp)) db

/-! ## Every run -/

theorem logOk_empty : LogOk {} where
  logged _ _ h := nomatch h
  silent _ _ := rfl

theorem operation_log_sound (E : Env) (before after : List (Draw × Command)) (id : String)
    (row : OperationRow) (h : (actorLoop E {} before).operations.get? id = some row) :
    Logged row ((actorLoop E {} before).eventsOf id) ∧
    (row.state.isTerminal = true → (actorLoop E {} (before ++ after)).operations.get? id = some row ∧
      (actorLoop E {} (before ++ after)).eventsOf id = (actorLoop E {} before).eventsOf id) := by
  have hok : LogOk (actorLoop E {} before) :=
    (actorLoop_keeps (Command.run_logStep E) before {} logOk_empty).1
  refine ⟨hok.logged id row h, fun ht => ?_⟩
  rw [actorLoop_append]
  exact (actorLoop_keeps (Command.run_logStep E) after _ hok).2 id row h ht

def succeededRun : List (Draw × Command) :=
  let p (stage : String) : OperationProgress := ⟨stage, none, none, none, stage⟩
  [({ operationId := "op" }, .accept "t" "instance.stop" "k" "h" none),
   ({ now := 1 }, .transition "op" .running (p "running") none none),
   ({ now := 2 }, .transition "op" .succeeded (p "complete") none none)]

theorem operation_log_sound_succeeded : ∃ row, (actorLoop exampleEnv {} succeededRun).operations.get? "op" = some row ∧
      row.state.isTerminal = true ∧ Logged row ((actorLoop exampleEnv {} succeededRun).eventsOf "op") ∧
      (actorLoop exampleEnv {} (succeededRun ++ [({ now := 3 }, .cancel "op")])).operations.get? "op" =
        some row := by
  have hsome : ((actorLoop exampleEnv {} succeededRun).operations.get? "op").any
      (fun row => row.state.isTerminal) = true := by decide +kernel
  obtain ⟨row, hrow, ht⟩ := (Option.any_eq_true _ _).mp hsome
  obtain ⟨hlog, hfrozen⟩ := operation_log_sound exampleEnv succeededRun [({ now := 3 }, .cancel "op")] "op" row hrow
  exact ⟨row, hrow, ht, hlog, (hfrozen ht).1⟩

end Sparkplane

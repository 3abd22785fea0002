import Mathlib.Algebra.Group.Equiv.TypeTags
import Sparkplane.IntentSound
import Sparkplane.Ledger

/-!
# The daily totals are the sums of the rows

`panel_usage_daily` is never recomputed. Each of the three statements that
change it adds what the rows it stands for change by: one row begun, one row
closed, every open row interrupted at once. The last is additive in the row it
rewrites, which is what lets one `UPDATE` of totals stand for many of rows.
-/

namespace Sparkplane

/-- What a row counts for in each column: the terms of the `SELECT` by which
`migrate` fills the daily table. -/
def PanelRequest.usage (r : PanelRequest) : Usage
  | .requests => 1
  | .inputTokens => (r.inputTokens.getD 0 : Nat)
  | .outputTokens => (r.outputTokens.getD 0 : Nat)
  | .unknownUsageRequests => flag r.inputTokens.isNone
  | .pendingRequests => flag r.finishedAt.isNone
  | .failedRequests => flag (r.outcome ≠ .succeeded && r.outcome ≠ .pending)
  | .accountingErrors => flag r.accountingError
  | .longContextInputTokens => longContext r.inputTokens r.inputTokens
  | .longContextOutputTokens => longContext r.inputTokens r.outputTokens
  | .durationMs => (r.durationMs.getD 0 : Nat)
  | .durationSamples => flag r.durationMs.isSome
  | .ttftMs => (r.ttftMs.getD 0 : Nat)
  | .ttftSamples => flag r.ttftMs.isSome

def Ledger.aggregate (s : Ledger) (k : UsageKey) : Usage :=
  s.panelRequests.total (fun _ r => r.key = k) PanelRequest.usage

structure PanelRequest.Open (r : PanelRequest) : Prop where
  finishedAt : r.finishedAt = none
  inputTokens : r.inputTokens = none
  outputTokens : r.outputTokens = none
  outcome : r.outcome = .pending
  accountingError : r.accountingError = false
  durationMs : r.durationMs = none
  ttftMs : r.ttftMs = none

theorem PanelRequest.Open.usage {r : PanelRequest} (h : r.Open) : r.usage = Analytics.begun := by
  funext c
  cases c <;> simp [PanelRequest.usage, Analytics.begun, h.finishedAt, h.inputTokens, h.outputTokens,
    h.outcome, h.accountingError, h.durationMs, h.ttftMs, flag, longContext]

theorem Analytics.close_usage {p : PanelRequest} (h : p.Open) (d : Draw) (r : UsageRecord)
    (counts : Option (Nat × Nat)) : (close d r counts p).usage = p.usage + recorded r counts := by
  rw [h.usage]
  funext c
  rw [Pi.add_apply]
  cases c with
  | unknownUsageRequests => cases counts <;> rfl
  | failedRequests =>
    have hended : (decide (r.outcome ≠ .succeeded) && decide (r.outcome ≠ .pending)) =
        decide (r.outcome ≠ .succeeded) := by simp [r.ended]
    exact (congrArg flag hended).trans (zero_add _).symm
  | accountingErrors => exact (zero_add _).symm
  | longContextInputTokens | longContextOutputTokens =>
    cases counts with
    | none => rfl
    | some c => by_cases hc : 272000 < c.1 <;>
        simp [close, begun, recorded, PanelRequest.usage, longContext, Option.filter, hc]
  | ttftMs => cases ht : r.ttftMs <;> simp [close, begun, recorded, PanelRequest.usage, ht, clampI64]
  | ttftSamples => cases ht : r.ttftMs <;> simp [close, begun, recorded, PanelRequest.usage, ht]
  | _ => simp [close, begun, recorded, PanelRequest.usage, flag]

def Analytics.settle : Usage →+ Usage where
  toFun u
    | .failedRequests => u .failedRequests + u .pendingRequests
    | .accountingErrors => u .accountingErrors + u .pendingRequests
    | .pendingRequests => 0
    | c => u c
  map_zero' := by funext c; cases c <;> rfl
  map_add' u v := by funext c; cases c <;> first | rfl | exact add_add_add_comm ..

theorem Analytics.interruptDay_eq {u : Usage} (h : 0 ≤ u .pendingRequests) : interruptDay u = settle u := by
  unfold interruptDay
  by_cases hp : 0 < u .pendingRequests
  · rw [if_pos hp]; rfl
  · have hz : u .pendingRequests = 0 := by omega
    rw [if_neg hp]
    funext c
    cases c <;> simp [settle, hz]

theorem Analytics.interruptPanel_usage {r : PanelRequest} (h : r.finishedAt = none → r.Open)
    (now : Timestamp) : (interruptPanel now r).usage = settle r.usage := by
  by_cases hf : r.finishedAt = none
  · have ho := h hf
    rw [ho.usage]
    funext c
    cases c <;> simp [interruptPanel, PanelRequest.usage, settle, begun, flag, longContext, ho.finishedAt,
      ho.inputTokens, ho.outputTokens, ho.durationMs, ho.ttftMs]
  · have hn : r.finishedAt.isNone = false := by
      rw [Bool.eq_false_iff, ne_eq, Option.isNone_iff_eq_none]
      exact hf
    simp only [interruptPanel, hn]
    funext c
    cases c <;> simp [settle, PanelRequest.usage, flag, hf]

@[simp] theorem Analytics.interruptPanel_key (now : Timestamp) (r : PanelRequest) :
    (interruptPanel now r).key = r.key := by
  unfold interruptPanel
  split <;> rfl

theorem total_nonneg {κ ρ : Type} [DecidableEq κ] (t : Table κ ρ) (p : κ → ρ → Bool) {m : ρ → Usage}
    {c : Column} (h : ∀ r, 0 ≤ m r c) : 0 ≤ t.total p m c := by
  unfold Table.total
  induction t.select p with
  | nil => exact le_refl 0
  | cons r rows ih => exact Int.add_nonneg (h r.2) ih

/-! ## What a command does to the ledgers -/

structure Mirrors (r : PanelRequest) (l : LaunchRequest) : Prop where
  sessionId : r.sessionId = some l.sessionId
  finishedAt : r.finishedAt.isSome = l.finishedAt.isSome
  inputTokens : r.inputTokens = l.inputTokens
  outputTokens : r.outputTokens = l.outputTokens
  outcome : r.outcome = l.outcome
  accountingError : r.accountingError = l.accountingError

theorem Mirrors.close {r : PanelRequest} {l : LaunchRequest} (h : Mirrors r l) (hf : r.finishedAt = none)
    (d : Draw) (u : UsageRecord) (counts : Option (Nat × Nat)) :
    Mirrors (Analytics.close d u counts r) (Sessions.close d u counts l) := by
  have hl : l.finishedAt.isNone = true := by
    have := h.finishedAt
    rw [hf] at this
    simpa using this.symm
  simp only [Sessions.close, hl, if_true]
  exact ⟨h.sessionId, rfl, rfl, rfl, rfl, rfl⟩

theorem Mirrors.interrupt {r : PanelRequest} {l : LaunchRequest} (h : Mirrors r l) (now : Timestamp) :
    Mirrors (Analytics.interruptPanel now r) (Analytics.interruptLaunch now l) := by
  have hl : l.finishedAt.isNone = r.finishedAt.isNone := by
    rw [← Option.not_isSome, ← Option.not_isSome, h.finishedAt]
  simp only [Analytics.interruptPanel, Analytics.interruptLaunch, hl]
  split
  · exact ⟨h.sessionId, rfl, h.inputTokens, h.outputTokens, rfl, rfl⟩
  · exact h

structure Books (s : Ledger) : Prop where
  blank : ∀ id r, s.panelRequests.get? id = some r → r.finishedAt = none → r.Open
  rolls : RollsUp PanelRequest.key PanelRequest.usage s.panelRequests s.usageDaily
  mirrors : ∀ id l, s.launchRequests.get? id = some l → ∃ r, s.panelRequests.get? id = some r ∧ Mirrors r l

variable {s s' : Ledger}

theorem Analytics.activeSession_mem {token : String} {sid : String} {row : SessionRow}
    (h : activeSession token s = some (sid, row)) : s.db.sessions.get? sid = some row :=
  Table.get?_eq_some.mpr (List.mem_of_find?_eq_some h)

structure Entered (s : Ledger) (id : String) (row : PanelRequest) (s' : Ledger) : Prop where
  blank : row.Open
  session : ∀ sid, row.sessionId = some sid → (s.db.sessions.get? sid).isSome = true
  panel : s.panelRequests.insert id row = some s'.panelRequests
  launch : row.sessionId = none ∧ s'.launchRequests = s.launchRequests ∨
    ∃ l, s.launchRequests.insert id l = some s'.launchRequests ∧ Mirrors row l
  daily : s'.usageDaily = s.usageDaily.upsertWith row.key Analytics.begun (· + Analytics.begun)
  db : s'.db = s.db

section
variable {d : Draw} {token id inst : String}

theorem Sessions.insertRequest_ok (h : insertRequest d token id inst s = .ok ((), s')) :
    ∃ launch, s' = { s with launchRequests := launch } ∧
      match Analytics.activeSession token s with
      | some (sid, _) =>
        s.launchRequests.insert id { sessionId := sid, inst := inst, startedAt := d.now } = some launch
      | none => launch = s.launchRequests := by
  unfold insertRequest at h
  rw [Tx.execute_run] at h
  cases hs : Analytics.activeSession token s with
  | none =>
    rw [hs] at h
    cases h
    exact ⟨_, rfl, rfl⟩
  | some x =>
    rw [hs] at h
    dsimp only at h ⊢
    cases hi : s.launchRequests.insert id { sessionId := x.1, inst := inst, startedAt := d.now } with
    | none => rw [hi] at h; cases h
    | some launch =>
      rw [hi] at h
      cases h
      exact ⟨launch, rfl, rfl⟩

theorem Sessions.begin_entered {protocol : String}
    (h : (do insertRequest d token id inst; Analytics.begin d id token inst protocol :
      Tx Ledger StateError Unit) s = .ok ((), s')) : ∃ row, Entered s id row s' := by
  obtain ⟨_, s1, h1, h⟩ := Tx.bind_ok h
  obtain ⟨launch, rfl, hlaunch⟩ := insertRequest_ok h1
  unfold Analytics.begin at h
  obtain ⟨session, hsession, h⟩ := Tx.query_bind h
  obtain ⟨document, -, h⟩ := Tx.query_bind h
  obtain ⟨-, h⟩ := Tx.require_bind h
  obtain ⟨s2, hinsert, h⟩ := Tx.execute_bind h
  obtain ⟨panel, hpanel, rfl⟩ := Option.map_eq_some_iff.mp hinsert
  have hsession : session = Analytics.activeSession token s := (Except.ok.inj hsession).symm
  cases h
  refine ⟨_, ⟨rfl, rfl, rfl, rfl, rfl, rfl, rfl⟩, ?_, hpanel, ?_, rfl, rfl⟩
  · intro sid hsid
    obtain ⟨x, hx, rfl⟩ := Option.map_eq_some_iff.mp hsid
    rw [Analytics.activeSession_mem (hsession.symm.trans hx)]
    rfl
  · rw [← hsession] at hlaunch
    cases session with
    | none => exact .inl ⟨rfl, hlaunch⟩
    | some x => exact .inr ⟨_, hlaunch, rfl, rfl, rfl, rfl, rfl, rfl⟩

end

theorem Sessions.begin_cases (d : Draw) (token id inst protocol : String) (s : Ledger) :
    (begin d token id inst protocol s).2 = s ∨ ∃ row, Entered s id row (begin d token id inst protocol s).2 := by
  unfold begin
  simp only [Batch.bind_run, Batch.query_run, Batch.require_run]
  cases hactive : !(byToken token s).any fun r => r.2.inst ≠ inst || r.2.finishedAt.isSome with
  | false => exact .inl rfl
  | true =>
    rcases Tx.commit_cases (do insertRequest d token id inst; Analytics.begin d id token inst protocol) s with
      ⟨_, s', h, hc⟩ | ⟨e, -, hc⟩
    · rw [if_pos rfl]
      dsimp only
      rw [hc]
      exact .inr (begin_entered h)
    · rw [if_pos rfl]
      dsimp only
      rw [hc]
      exact .inl rfl

theorem Sessions.record_cases (d : Draw) (r : UsageRecord) (s : Ledger) :
    (∃ e, counts r.usage = .error e ∧ record d r s = (.error e, s)) ∨
      ∃ n, counts r.usage = .ok n ∧ record d r s = (.ok (), Analytics.record d r n
        { s with launchRequests := s.launchRequests.modify r.id (close d r n) }) := by
  unfold record
  simp only [Batch.bind_run, Batch.query_run]
  cases h : counts r.usage with
  | error e => exact .inl ⟨e, rfl, rfl⟩
  | ok n => exact .inr ⟨n, rfl, rfl⟩

namespace Books

variable {s s' : Ledger}

theorem init : Books {} := by
  refine ⟨?_, .empty _ _, ?_⟩
  · intro id r h
    cases h
  · intro id l h
    cases h

theorem enter {id : String} (hb : Books s) {row : PanelRequest} (h : Entered s id row s') : Books s' := by
  have hget := Table.get?_insert h.panel
  constructor
  · intro id' r hr hf
    rw [hget] at hr
    split at hr
    · rw [← Option.some.inj hr]
      exact h.blank
    · exact hb.blank id' r hr hf
  · rw [h.daily, ← h.blank.usage]
    exact hb.rolls.insert h.panel fun _ => rfl
  · intro id' l hl
    rcases h.launch with ⟨-, e⟩ | ⟨l0, hl0, hm⟩
    · rw [e] at hl
      obtain ⟨r, hr, hm⟩ := hb.mirrors id' l hl
      have hne : id' ≠ id := by
        rintro rfl
        rw [Table.insert_fresh h.panel] at hr
        cases hr
      exact ⟨r, by rw [hget, if_neg hne, hr], hm⟩
    · rw [Table.get?_insert hl0] at hl
      rw [hget]
      split at hl
      next e =>
        rw [if_pos e, ← Option.some.inj hl]
        exact ⟨row, rfl, hm⟩
      next e =>
        rw [if_neg e]
        exact hb.mirrors id' l hl

theorem launch_finished {id : String} {r : PanelRequest} {l : LaunchRequest} (hb : Books s) (hr : s.panelRequests.get? id = some r)
    (hf : r.finishedAt.isSome = true) (hl : s.launchRequests.get? id = some l) :
    l.finishedAt.isNone = false := by
  obtain ⟨r', hr', hm⟩ := hb.mirrors id l hl
  have e : r' = r := Option.some.inj (hr'.symm.trans hr)
  rw [← Option.not_isSome, ← hm.finishedAt, e, hf]
  rfl

theorem record_closed (hb : Books s) (r : UsageRecord)
    (h : ∀ p, s.panelRequests.get? r.id = some p → p.finishedAt.isSome = true) (d : Draw) :
    (Sessions.record d r s).2 = s := by
  rcases Sessions.record_cases d r s with ⟨e, -, hc⟩ | ⟨n, -, hc⟩
  · rw [hc]
  · rw [hc]
    have hsame : s.launchRequests.modify r.id (Sessions.close d r n) = s.launchRequests := by
      refine Table.modify_eq_self fun l hl => ?_
      obtain ⟨p, hp, -⟩ := hb.mirrors r.id l hl
      simp [Sessions.close, hb.launch_finished hp (h p hp) hl]
    rw [hsame]
    unfold Analytics.record
    cases hp : s.panelRequests.get? r.id with
    | none => rfl
    | some p =>
      have hf := h p hp
      rw [← Option.not_isNone] at hf
      simp only [Bool.not_eq_true'] at hf
      simp [hf]

theorem record (hb : Books s) (d : Draw) (r : UsageRecord) : Books (Sessions.record d r s).2 := by
  by_cases hclosed : ∀ p, s.panelRequests.get? r.id = some p → p.finishedAt.isSome = true
  · rw [hb.record_closed r hclosed]
    exact hb
  · push Not at hclosed
    obtain ⟨p, hp, hf⟩ := hclosed
    have hf : p.finishedAt = none := by simpa using hf
    have hopen := hb.blank r.id p hp hf
    rcases Sessions.record_cases d r s with ⟨e, -, hc⟩ | ⟨n, -, hc⟩
    · rw [hc]
      exact hb
    · rw [hc]
      simp only [Analytics.record, hp, hf, Option.isNone_none, if_true]
      constructor
      · intro id p' hp' hf'
        dsimp only at hp'
        rw [Table.get?_modify] at hp'
        split at hp'
        · rw [hp] at hp'
          rw [← Option.some.inj hp'] at hf'
          cases hf'
        · exact hb.blank id p' hp' hf'
      · exact hb.rolls.modify hp rfl (Analytics.close_usage hopen d r n) fun _ => rfl
      · intro id l hl
        dsimp only at hl ⊢
        rw [Table.get?_modify] at hl ⊢
        split at hl
        next e =>
          obtain ⟨l0, hl0, rfl⟩ := Option.map_eq_some_iff.mp hl
          obtain ⟨p', hp', hm⟩ := hb.mirrors r.id l0 hl0
          rw [if_pos e, hp']
          have hf' : p'.finishedAt = none := by rw [← Option.some.inj (hp.symm.trans hp'), hf]
          exact ⟨_, rfl, hm.close hf' d r n⟩
        next e =>
          rw [if_neg e]
          exact hb.mirrors id l hl

theorem interruptPending (hb : Books s) (d : Draw) : Books (Analytics.interruptPending d s) := by
  constructor
  · intro id r hr hf
    obtain ⟨r0, hr0, rfl⟩ := Option.map_eq_some_iff.mp ((Table.get?_update _ _ id).symm.trans hr)
    unfold Analytics.interruptPanel at hf ⊢
    split at hf
    · cases hf
    next hn =>
      rw [hf] at hn
      exact absurd rfl hn
  · show RollsUp _ _ (s.panelRequests.update fun _ => Analytics.interruptPanel d.now)
      (s.usageDaily.update fun _ => Analytics.interruptDay)
    refine hb.rolls.update Analytics.settle (fun _ r _ => Analytics.interruptPanel_key _ r)
      (fun id r hr => Analytics.interruptPanel_usage (hb.blank id r hr) _) fun k u hu => ?_
    apply Analytics.interruptDay_eq
    rw [hb.rolls.sums k u hu]
    refine total_nonneg _ _ fun r => ?_
    unfold PanelRequest.usage flag
    split <;> omega
  · intro id l hl
    obtain ⟨l0, hl0, rfl⟩ := Option.map_eq_some_iff.mp ((Table.get?_update _ _ id).symm.trans hl)
    obtain ⟨r, hr, hm⟩ := hb.mirrors id l0 hl0
    refine ⟨_, ?_, hm.interrupt d.now⟩
    exact (Table.get?_update _ _ id).trans (by rw [hr]; rfl)

theorem cascade (hb : Books s) (db : Db) : Books (s.cascade db) := by
  refine ⟨hb.blank, hb.rolls, fun id l hl => ?_⟩
  have hl : (s.launchRequests.delete _).get? id = some l := hl
  rw [Table.get?_delete] at hl
  exact hb.mirrors id l (Option.filter_eq_some_iff.mp hl).1

end Books

def LedgerCommand.keeps : LedgerCommand → Bool
  | .cleanup => false
  | _ => true

section
variable {E : Env} {d : Draw} {c : LedgerCommand} {id : String} {p : PanelRequest}

theorem Books.step (hc : c.keeps = true) (hb : Books s) : Books (c.run E d s) := by
  cases c with
  | begin token id inst protocol =>
    show Books (Sessions.begin d token id inst protocol s).2
    rcases Sessions.begin_cases d token id inst protocol s with e | ⟨row, h⟩
    · rw [e]
      exact hb
    · exact hb.enter h
  | record r => exact hb.record d r
  | cleanup => cases hc
  | restart =>
    have h := hb.interruptPending d
    exact ⟨h.blank, h.rolls, h.mirrors⟩
  | actor c => exact hb.cascade _

theorem Books.run : ∀ (l : List (Draw × LedgerCommand)) {s : Ledger},
    (l.all fun x => x.2.keeps) = true → Books s → Books (s.run E l)
  | [], _, _, hb => hb
  | (d, c) :: l, s, hl, hb => by
    rw [List.all_cons, Bool.and_eq_true] at hl
    exact Books.run l hl.2 (hb.step hl.1)

theorem Books.step_finished (hc : c.keeps = true) (hb : Books s) (hp : s.panelRequests.get? id = some p)
    (hf : p.finishedAt.isSome = true) : (c.run E d s).panelRequests.get? id = some p := by
  cases c with
  | begin token id' inst protocol =>
    show (Sessions.begin d token id' inst protocol s).2.panelRequests.get? id = some p
    rcases Sessions.begin_cases d token id' inst protocol s with e | ⟨row, h⟩
    · rw [e, hp]
    · have hne : id ≠ id' := by
        rintro rfl
        rw [Table.insert_fresh h.panel] at hp
        cases hp
      rw [Table.get?_insert h.panel, if_neg hne, hp]
  | record r =>
    show (Sessions.record d r s).2.panelRequests.get? id = some p
    by_cases e : id = r.id
    · have hclosed : ∀ p', s.panelRequests.get? r.id = some p' → p'.finishedAt.isSome = true := by
        intro p' hp'
        rw [← e, hp] at hp'
        rwa [← Option.some.inj hp']
      rw [hb.record_closed r hclosed, hp]
    · rcases Sessions.record_cases d r s with ⟨_, -, hc⟩ | ⟨n, -, hc⟩
      · rw [hc, hp]
      · rw [hc]
        unfold Analytics.record
        dsimp only
        split
        · split
          · exact (Table.get?_modify_of_ne _ _ e).trans hp
          · exact hp
        · exact hp
  | cleanup => cases hc
  | restart =>
    have hn : p.finishedAt.isNone = false := by
      rw [← Option.not_isSome, hf]
      rfl
    refine (Table.get?_update s.panelRequests _ id).trans ?_
    rw [hp]
    simp [Analytics.interruptPanel, hn]
  | actor c => exact hp

theorem Books.run_finished (hf : p.finishedAt.isSome = true) :
    ∀ (l : List (Draw × LedgerCommand)) {s : Ledger}, (l.all fun x => x.2.keeps) = true → Books s →
      s.panelRequests.get? id = some p → (s.run E l).panelRequests.get? id = some p
  | [], _, _, _, hp => hp
  | (d, c) :: l, s, hl, hb, hp => by
    rw [List.all_cons, Bool.and_eq_true] at hl
    exact run_finished hf l hl.2 (hb.step hl.1) (hb.step_finished hl.1 hp hf)

end

theorem Sessions.record_finishes {d : Draw} {r : UsageRecord} (hok : (record d r s).1.isOk = true) (p : PanelRequest)
    (hp : (record d r s).2.panelRequests.get? r.id = some p) : p.finishedAt.isSome = true := by
  rcases record_cases d r s with ⟨e, -, hc⟩ | ⟨n, -, hc⟩
  · rw [hc] at hok
    cases hok
  · rw [hc] at hp
    unfold Analytics.record at hp
    dsimp only at hp
    split at hp
    next p0 hp0 =>
      split at hp
      · have hp : (s.panelRequests.modify r.id _).get? r.id = some p := hp
        rw [Table.get?_modify_self, hp0] at hp
        rw [← Option.some.inj hp]
        rfl
      next hn =>
        rw [← Option.some.inj (hp0.symm.trans hp)]
        simpa [Option.isSome_iff_ne_none] using hn
    next hp0 =>
      have hp : s.panelRequests.get? r.id = some p := hp
      rw [hp0] at hp
      cases hp

theorem Sessions.record_keys (d : Draw) (r : UsageRecord) (s : Ledger) :
    (record d r s).2.panelRequests.keys = s.panelRequests.keys := by
  rcases record_cases d r s with ⟨e, -, hc⟩ | ⟨n, -, hc⟩
  · rw [hc]
  · rw [hc]
    unfold Analytics.record
    dsimp only
    split
    · split
      · exact Table.keys_modify _ _ _
      · rfl
    · rfl

theorem Books.record_twice (hb : Books s) {r1 r2 : UsageRecord} (hid : r2.id = r1.id) {d1 : Draw}
    (hok : (Sessions.record d1 r1 s).1.isOk = true) (d2 : Draw) :
    (Sessions.record d2 r2 (Sessions.record d1 r1 s).2).2 = (Sessions.record d1 r1 s).2 :=
  (hb.record d1 r1).record_closed r2 (fun p hp => Sessions.record_finishes hok p (hid ▸ hp)) d2

/-- Every daily row is the aggregate of the requests under its key, and every
request is under the key of a daily row. A record repeated at once changes
nothing, nor does any later record of a request that one has closed. -/
theorem daily_totals_exact (E : Env) (l : List (Draw × LedgerCommand)) (hl : (l.all fun x => x.2.keeps) = true) :
    let s := ({} : Ledger).run E l
    (∀ k u, s.usageDaily.get? k = some u → u = s.aggregate k) ∧
    (∀ id r, s.panelRequests.get? id = some r → (s.usageDaily.get? r.key).isSome = true) ∧
    (∀ d₁ d₂ r, (Sessions.record d₂ r (Sessions.record d₁ r s).2).2 = (Sessions.record d₁ r s).2) ∧
    ∀ d₁ r₁ l' d₂ r₂, (Sessions.record d₁ r₁ s).1.isOk = true → (s.panelRequests.get? r₁.id).isSome = true →
      (l'.all fun x => x.2.keeps) = true → r₂.id = r₁.id →
      let s' := (Sessions.record d₁ r₁ s).2.run E l'
      (Sessions.record d₂ r₂ s').2 = s' := by
  have hb : Books (({} : Ledger).run E l) := Books.run l hl Books.init
  refine ⟨hb.rolls.sums, fun id r hr => ?_, fun d₁ d₂ r => ?_, fun d₁ r₁ l' d₂ r₂ hok hsome hl' hid => ?_⟩
  · obtain ⟨u, hu⟩ := Table.mem_keys_iff.mp (hb.rolls.grouped id r hr)
    rw [Table.get?_eq_some.mpr hu]
    rfl
  · rcases Sessions.record_cases d₁ r (({} : Ledger).run E l) with ⟨e, he, hc⟩ | ⟨n, -, hc⟩
    · rcases Sessions.record_cases d₂ r (({} : Ledger).run E l) with ⟨_, -, hc'⟩ | ⟨n, hn, -⟩
      · rw [hc]
        dsimp only
        rw [hc']
      · rw [he] at hn
        cases hn
    · exact hb.record_twice rfl (by rw [hc]; rfl) d₂
  · have hkey : r₁.id ∈ (Sessions.record d₁ r₁ (({} : Ledger).run E l)).2.panelRequests.keys := by
      rw [Sessions.record_keys]
      obtain ⟨p, hp⟩ := Option.isSome_iff_exists.mp hsome
      exact Table.mem_keys_of_get? hp
    obtain ⟨p, hp⟩ := Table.mem_keys_iff.mp hkey
    have hp := Table.get?_eq_some.mpr hp
    have hb' := hb.record d₁ r₁
    have hlast := Books.run_finished (E := E) (Sessions.record_finishes hok p hp) l' hl' hb' hp
    refine (Books.run l' hl' hb').record_closed r₂ (fun p' hp' => ?_) d₂
    rw [hid, hlast] at hp'
    rw [← Option.some.inj hp']
    exact Sessions.record_finishes hok p hp

def sessionRequest : LaunchSessionRequest := ⟨"01JBBBBBBBBBBBBBBBBBBBBBBB", "m", "codex", "none"⟩

def ledgerEnv : Env :=
  { exampleEnv with
    sha256 := fun text =>
      if text = sessionRequest.toJson.render then
        "66bb008742b2c56b4a0f9ae2962b5a40d6bfa36976cc858828c8e8730e9cf959"
      else exampleEnv.sha256 text
    toRfc3339 := fun _ => "1970-01-08T00:00:00.003+00:00" }

def meteredRun : List (Draw × LedgerCommand) :=
  let recorded : UsageRecord :=
    { id := "r1", usage := some (300000, 20), outcome := .succeeded, incomplete := false, durationMs := 5
      ttftMs := some 1, ended := by decide }
  [({ now := 1 }, .actor (.promoteModel exampleModel false)), ({ now := 2 }, .actor (.beginServe exampleInstance)),
   ({ now := 3, tokenId := "t1" }, .actor (.createLaunchSession sessionRequest)),
   ({ now := 4 }, .begin "t1" "r1" "m" "chat"),
   ({ now := 5 }, .record recorded),
   ({ now := 6 }, .begin "t1" "r2" "m" "chat"),
   ({ now := 7 }, .record { recorded with usage := none }),
   ({ now := 8 }, .begin "t1" "r3" "other" "chat"),
   ({ now := 9 }, .restart),
   ({ now := 10 }, .record { recorded with id := "stray" })]

def meteredKey : UsageKey :=
  ⟨0, "org/m", "m", "t1", "codex", "01JBBBBBBBBBBBBBBBBBBBBBBB", 1, "chat"⟩

theorem meteredRun_rows : let s := ({} : Ledger).run ledgerEnv meteredRun
    (meteredRun.all fun x => x.2.keeps) = true ∧
    (s.usageDaily.get? meteredKey).map (fun u => (u .requests, u .failedRequests, u .longContextInputTokens)) =
      some (2, 1, 300000) ∧
    (s.db.sessions.get? sessionRequest.id).map (fun row => (row.tokenId, row.inst)) = some ("t1", "m") := by
  decide +kernel

theorem daily_totals_exact_in_run : let s := ({} : Ledger).run ledgerEnv meteredRun
    (meteredRun.all fun x => x.2.keeps) = true ∧
    ∃ u, s.usageDaily.get? meteredKey = some u ∧ u .requests = 2 ∧ u = s.aggregate meteredKey := by
  obtain ⟨hkeeps, hrow, -⟩ := meteredRun_rows
  obtain ⟨u, hu, hcols⟩ := Option.map_eq_some_iff.mp hrow
  exact ⟨hkeeps, u, hu, (Prod.ext_iff.mp hcols).1, (daily_totals_exact ledgerEnv meteredRun hkeeps).1 _ u hu⟩

end Sparkplane

import Sparkplane.Actor
import Sparkplane.Rollup
import Mathlib.Algebra.Group.Pi.Basic

/-!
# The usage ledgers

A request to an engine is entered when it begins and closed once by its meter.
`launch_requests` holds the requests of launch sessions, `panel_requests` every
request, and `panel_usage_daily` running totals per day and client that are
never recomputed from the rows. Columns are integers without a bound: a sum
that leaves `i64` is outside this model.
-/

namespace Sparkplane

inductive Outcome where
  | pending
  | succeeded
  | failed
  | interrupted
  deriving DecidableEq

structure LaunchRequest where
  sessionId : String
  inst : String
  startedAt : Timestamp
  finishedAt : Option Timestamp := none
  inputTokens : Option Nat := none
  outputTokens : Option Nat := none
  outcome : Outcome := .pending
  accountingError : Bool := false

structure PanelRequest where
  tokenId : String
  sessionId : Option String
  model : String
  inst : String
  generation : Nat
  integration : String
  protocol : String
  startedAt : Timestamp
  finishedAt : Option Timestamp := none
  inputTokens : Option Nat := none
  outputTokens : Option Nat := none
  outcome : Outcome := .pending
  accountingError : Bool := false
  durationMs : Option Nat := none
  ttftMs : Option Nat := none

/-- The primary key of `panel_usage_daily`. -/
structure UsageKey where
  day : Nat
  model : String
  inst : String
  tokenId : String
  integration : String
  sessionId : String
  generation : Nat
  protocol : String
  deriving DecidableEq

inductive Column where
  | requests
  | inputTokens
  | outputTokens
  | unknownUsageRequests
  | pendingRequests
  | failedRequests
  | accountingErrors
  | longContextInputTokens
  | longContextOutputTokens
  | durationMs
  | durationSamples
  | ttftMs
  | ttftSamples
  deriving DecidableEq

abbrev Usage := Column → Int

/-- `substr(started_at,1,10)`: the date of a timestamp. -/
def day (t : Timestamp) : Nat := t / Database.days 1

def PanelRequest.key (r : PanelRequest) : UsageKey :=
  ⟨day r.startedAt, r.model, r.inst, r.tokenId, r.integration, r.sessionId.getD "", r.generation, r.protocol⟩

structure Ledger where
  db : Db := {}
  launchRequests : Table String LaunchRequest := .empty
  panelRequests : Table String PanelRequest := .empty
  usageDaily : Table UsageKey Usage := .empty

def flag (b : Bool) : Int := if b then 1 else 0

/-- Tokens of a request above the long-context threshold. -/
def longContext (input : Option Nat) (tokens : Option Nat) : Nat :=
  if input.any (272000 < ·) then tokens.getD 0 else 0

/-! ## Beginning a request -/

namespace Analytics

/-- What a request adds to its day while nothing is known of it. -/
def begun : Usage
  | .requests | .unknownUsageRequests | .pendingRequests => 1
  | _ => 0

def activeSession (token : String) (s : Ledger) : Option (String × SessionRow) :=
  s.db.sessions.rows.find? fun r => r.2.tokenId = token && r.2.finishedAt.isNone

def begin (d : Draw) (id token inst protocol : String) : Tx Ledger StateError Unit := do
  let session ← Tx.query fun s => .ok (activeSession token s)
  let document ← Tx.query fun s => .ok (s.db.readInstance inst).toOption
  let model := ((document.map (·.model)).or (session.map (·.2.model))).getD inst
  let generation := (document.map (·.generation)).getD 0
  Tx.require (fitsI64 generation) (.invalid "generation overflow")
  let row : PanelRequest := {
    tokenId := token
    sessionId := session.map (·.1)
    model := model
    inst := inst
    generation := generation
    integration := (session.map (·.2.integration)).getD "api"
    protocol := protocol
    startedAt := d.now }
  Tx.execute sqlConstraint fun s =>
    (s.panelRequests.insert id row).map fun t => { s with panelRequests := t }
  modify fun s => { s with usageDaily := s.usageDaily.upsertWith row.key begun (· + begun) }

end Analytics

namespace Sessions

def byToken (token : String) (s : Ledger) : Option (String × SessionRow) :=
  s.db.sessions.rows.find? fun r => r.2.tokenId = token

def notActive : StateError := .invalid "launch session is not active for this instance"

/-- `INSERT INTO launch_requests ... SELECT`: a row if the token has an
unfinished session. -/
def insertRequest (d : Draw) (token id inst : String) : Tx Ledger StateError Unit :=
  Tx.execute sqlConstraint fun s =>
    match Analytics.activeSession token s with
    | some (sessionId, _) =>
      (s.launchRequests.insert id { sessionId := sessionId, inst := inst, startedAt := d.now }).map
        fun t => { s with launchRequests := t }
    | none => some s

def begin (d : Draw) (token id inst protocol : String) : Batch Ledger StateError Bool := do
  let expected ← Batch.query fun s => .ok (byToken token s)
  Batch.require (!expected.any fun r => r.2.inst ≠ inst || r.2.finishedAt.isSome) notActive
  Tx.commit do
    insertRequest d token id inst
    Analytics.begin d id token inst protocol
  return true

end Sessions

/-! ## Recording its usage -/

/-- What a meter records when it is dropped. It never records `pending`. -/
structure UsageRecord where
  id : String
  usage : Option (UInt64 × UInt64)
  outcome : Outcome
  incomplete : Bool
  durationMs : UInt64
  ttftMs : Option UInt64
  ended : outcome ≠ .pending

/-- `v.min(i64::MAX)`. -/
def clampI64 (v : UInt64) : Nat := min v.toNat (2 ^ 63 - 1)

namespace Analytics

/-- What closing a request adds to its day. -/
def recorded (r : UsageRecord) (counts : Option (Nat × Nat)) : Usage
  | .requests => 0
  | .inputTokens => ((counts.map (·.1)).getD 0 : Nat)
  | .outputTokens => ((counts.map (·.2)).getD 0 : Nat)
  | .unknownUsageRequests => -flag counts.isSome
  | .pendingRequests => -1
  | .failedRequests => flag (r.outcome ≠ .succeeded)
  | .accountingErrors => flag r.incomplete
  | .longContextInputTokens => (((counts.filter (272000 < ·.1)).map (·.1)).getD 0 : Nat)
  | .longContextOutputTokens => (((counts.filter (272000 < ·.1)).map (·.2)).getD 0 : Nat)
  | .durationMs => clampI64 r.durationMs
  | .durationSamples => 1
  | .ttftMs => clampI64 (r.ttftMs.getD 0)
  | .ttftSamples => flag r.ttftMs.isSome

def close (d : Draw) (r : UsageRecord) (counts : Option (Nat × Nat)) (p : PanelRequest) : PanelRequest :=
  { p with
    inputTokens := counts.map (·.1)
    outputTokens := counts.map (·.2)
    outcome := r.outcome
    accountingError := r.incomplete
    finishedAt := some d.now
    durationMs := some (clampI64 r.durationMs)
    ttftMs := r.ttftMs.map clampI64 }

def record (d : Draw) (r : UsageRecord) (counts : Option (Nat × Nat)) (s : Ledger) : Ledger :=
  match s.panelRequests.get? r.id with
  | some p =>
    if p.finishedAt.isNone then
      { s with
        panelRequests := s.panelRequests.modify r.id (close d r counts)
        usageDaily := s.usageDaily.modify p.key (· + recorded r counts) }
    else s
  | none => s

end Analytics

namespace Sessions

def close (d : Draw) (r : UsageRecord) (counts : Option (Nat × Nat)) (l : LaunchRequest) : LaunchRequest :=
  if l.finishedAt.isNone then
    { l with
      inputTokens := counts.map (·.1)
      outputTokens := counts.map (·.2)
      outcome := r.outcome
      finishedAt := some d.now
      accountingError := r.incomplete }
  else l

/-- `i64::try_from` of both counts. -/
def counts : Option (UInt64 × UInt64) → Except StateError (Option (Nat × Nat))
  | none => .ok none
  | some (a, b) =>
    if fitsI64 a.toNat && fitsI64 b.toNat then .ok (some (a.toNat, b.toNat))
    else .error (.invalid "usage overflow")

def record (d : Draw) (r : UsageRecord) : Batch Ledger StateError Unit := do
  let counts ← Batch.query fun _ => counts r.usage
  Tx.commit do
    modify fun s => { s with launchRequests := s.launchRequests.modify r.id (close d r counts) }
    modify (Analytics.record d r counts)

end Sessions

/-! ## Restart, retention and reading -/

namespace Analytics

/-- `UPDATE panel_usage_daily ... WHERE pending_requests>0`. -/
def interruptDay (u : Usage) : Usage :=
  if 0 < u .pendingRequests then fun
    | .failedRequests => u .failedRequests + u .pendingRequests
    | .accountingErrors => u .accountingErrors + u .pendingRequests
    | .pendingRequests => 0
    | c => u c
  else u

def interruptPanel (now : Timestamp) (r : PanelRequest) : PanelRequest :=
  if r.finishedAt.isNone then
    { r with finishedAt := some now, outcome := .interrupted, accountingError := true }
  else r

def interruptLaunch (now : Timestamp) (r : LaunchRequest) : LaunchRequest :=
  if r.finishedAt.isNone then
    { r with finishedAt := some now, outcome := .interrupted, accountingError := true }
  else r

def interruptPending (d : Draw) (s : Ledger) : Ledger :=
  { s with
    usageDaily := s.usageDaily.update fun _ => interruptDay
    panelRequests := s.panelRequests.update fun _ => interruptPanel d.now
    launchRequests := s.launchRequests.update fun _ => interruptLaunch d.now }

end Analytics

/-- `ON DELETE CASCADE`: requests whose session is gone go too. -/
def Ledger.cascade (s : Ledger) (db : Db) : Ledger :=
  { s with
    db := db
    launchRequests := s.launchRequests.delete fun _ l => (db.sessions.get? l.sessionId).isNone }

def Analytics.cleanup (d : Draw) (s : Ledger) : Ledger :=
  let before (n : Nat) (t : Nat) : Bool := t + n < day d.now
  { s with
    panelRequests := s.panelRequests.delete fun _ r => before 90 (day r.startedAt)
    usageDaily := s.usageDaily.delete fun k _ => before 365 k.day }.cascade
      { s.db with sessions := s.db.sessions.delete fun _ r => before 90 (day r.startedAt) }

structure SessionUsage where
  requests : Int
  inputTokens : Int
  outputTokens : Int
  unknownUsageRequests : Int
  pendingRequests : Int
  failedRequests : Int
  longContextInputTokens : Int
  longContextOutputTokens : Int
  accountingErrors : Int

def Sessions.usage (s : Ledger) (id : String) : SessionUsage :=
  let sum (f : LaunchRequest → Int) : Int := s.launchRequests.total (fun _ l => l.sessionId = id) f
  { requests := sum fun _ => 1
    inputTokens := sum fun l => (l.inputTokens.getD 0 : Nat)
    outputTokens := sum fun l => (l.outputTokens.getD 0 : Nat)
    unknownUsageRequests := sum fun l => flag l.inputTokens.isNone
    pendingRequests := sum fun l => flag l.finishedAt.isNone
    failedRequests := sum fun l => flag (l.outcome ≠ .succeeded && l.outcome ≠ .pending)
    longContextInputTokens := sum fun l => longContext l.inputTokens l.inputTokens
    longContextOutputTokens := sum fun l => longContext l.inputTokens l.outputTokens
    accountingErrors := sum fun l => flag l.accountingError }

def Sessions.read (s : Ledger) (id : String) : Except StateError (LaunchSessionDocument × SessionUsage) := do
  let session ← s.db.readSession id
  return (session, usage s id)

/-! ## Runs -/

/-- What changes the ledgers: metering, the retention job, opening the database
after a restart, and every other command of the database actor. -/
inductive LedgerCommand where
  | begin (token id inst protocol : String)
  | record (r : UsageRecord)
  | cleanup
  | restart
  | actor (c : Command)

def LedgerCommand.run (E : Env) (d : Draw) (s : Ledger) : LedgerCommand → Ledger
  | .begin token id inst protocol => (Sessions.begin d token id inst protocol s).2
  | .record r => (Sessions.record d r s).2
  | .cleanup => Analytics.cleanup d s
  | .restart =>
    let s := Analytics.interruptPending d s
    { s with db := Command.run E d s.db .restart }
  | .actor c => s.cascade (Command.run E d s.db c)

def Ledger.run (E : Env) : Ledger → List (Draw × LedgerCommand) → Ledger
  | s, [] => s
  | s, (d, c) :: rest => (c.run E d s).run E rest

end Sparkplane

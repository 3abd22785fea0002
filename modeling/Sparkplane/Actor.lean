import Sparkplane.StateSound

/-!
# The database actor

`actor_loop`: one thread takes commands from a queue and runs them to the end,
one after the other. Commands that only read are left out; `restart` is the
pass over unfinished recoveries when the database is opened.
-/

namespace Sparkplane

inductive Command where
  | accept (tokenId kind key requestSha256 : String) (target : Option String)
  | transition (id : String) (state : OperationState) (progress : OperationProgress)
      (result : Option Json) (problem : Option ProblemDocument)
  | cancel (id : String)
  | createToken (actor key : String) (request : TokenCreateRequest)
  | revokeToken (actor key tokenId : String)
  | createLaunchSession (request : LaunchSessionRequest)
  | finishLaunchSession (id : String)
  | promoteModel (model : ModelDocument) (updateAlias : Bool)
  | removeModel (id : String)
  | beginServe (inst : InstanceDocument)
  | setInstanceObserved (id : String) (generation : Nat) (observed : InstanceObservedState)
      (endpoint failure : Option String) (startupMilliseconds : Option Nat)
  | beginStop (reference : String)
  | recordRestartFailure (id : String) (generation failedAtUnixSeconds : Nat)
  | markQuarantine (id : String) (generation : Nat) (cause : String)
  | reconcileQuarantine (evidence : List QuarantineEvidence)
  | importEmergency (record : EmergencyRecord)
  | restart

/-- What the actor answers when the command succeeds. -/
@[reducible] def Command.Reply : Command → Type
  | .accept .. => Database.AcceptedOperation
  | .transition .. | .cancel _ | .revokeToken .. => OperationDocument
  | .createToken .. => Database.CreatedToken
  | .createLaunchSession _ => Database.LaunchSessionCreated
  | .finishLaunchSession _ => LaunchSessionDocument
  | .promoteModel .. => ModelDocument
  | .beginServe _ => Database.AcceptedInstance
  | .setInstanceObserved .. | .beginStop _ | .recordRestartFailure .. | .markQuarantine .. => InstanceDocument
  | .importEmergency _ => Bool
  | .removeModel _ | .reconcileQuarantine _ | .restart => Unit

open Database in
def Command.exec (E : Env) (d : Draw) : (c : Command) → Cmd c.Reply
  | .accept tokenId kind key hash target => (acceptOperation d tokenId kind key hash target).commit
  | .transition id state progress result problem =>
    (Database.transition d id state progress result problem).commit
  | .cancel id => cancelOperation d id
  | .createToken actor key request => Database.createToken E d actor key request
  | .revokeToken actor key tokenId => Database.revokeToken E d actor key tokenId
  | .createLaunchSession request => Database.createLaunchSession E d request
  | .finishLaunchSession id => Database.finishLaunchSession d id
  | .promoteModel model updateAlias => (Database.promoteModel model updateAlias).commit
  | .removeModel id => (Database.removeModel id).commit
  | .beginServe inst => (Database.beginServe E inst).commit
  | .setInstanceObserved id generation observed endpoint failure startup =>
    (Database.setInstanceObserved d id generation observed endpoint failure startup).commit
  | .beginStop reference => (Database.beginStop reference).commit
  | .recordRestartFailure id generation second =>
    (Database.recordRestartFailure id generation second).commit
  | .markQuarantine id generation cause => (Database.markQuarantine id generation cause).commit
  | .reconcileQuarantine evidence => (Database.reconcileQuarantine d evidence).commit
  | .importEmergency record => Database.importEmergency E d record
  | .restart => interruptPanelRecoveries d

def Command.run (E : Env) (d : Draw) (db : Db) (c : Command) : Db := (c.exec E d db).2

def actorLoop (E : Env) : Db → List (Draw × Command) → Db
  | db, [] => db
  | db, (d, c) :: rest => actorLoop E (c.run E d db) rest

theorem actorLoop_append (E : Env) : ∀ (db : Db) (l l' : List (Draw × Command)),
    actorLoop E db (l ++ l') = actorLoop E (actorLoop E db l) l'
  | _, [], _ => rfl
  | db, (d, c) :: l, l' => actorLoop_append E (c.run E d db) l l'

/-! ## What every command keeps -/

section
variable {c : Command} {R : Db → Db → Prop} [Std.Refl R] [IsTrans Db R] {E : Env} {d : Draw}
  (haccept : ∀ tokenId kind key hash target, (Database.acceptOperation d tokenId kind key hash target).Keeps R)
  (htransition : ∀ id next p result problem, (Database.transition d id next p result problem).Keeps R)
  (haccess : ∀ db db', Touches [.access] db db' → R db db')
  (hpromote : ∀ model updateAlias, (Database.promoteModel model updateAlias).Keeps R)
  (hremove : ∀ id, (Database.removeModel id).Keeps R)
  (hfleet : ∀ db db', Touches [.fleet] db db' → R db db')

def Command.elsewhere : Command → Bool
  | .accept .. | .transition .. | .cancel _ | .createToken .. | .revokeToken .. | .createLaunchSession _
  | .finishLaunchSession _ | .promoteModel .. | .removeModel _ | .restart => true
  | _ => false

def Command.managesTokens : Command → Bool
  | .createToken .. | .createLaunchSession _ | .revokeToken .. | .finishLaunchSession _ => true
  | _ => false

include haccept htransition haccess in
theorem Command.run_manages (h : c.managesTokens = true) (db : Db) : R db (c.run E d db) := by
  cases c <;> try (cases h; done)
  case createToken =>
    exact Database.createToken_keeps htransition (fun _ _ _ => haccept _ _ _ _ _)
      (fun _ _ => (Database.insertToken_touches _ _).mono haccess)
      (fun _ _ => haccess _ _ touches_access) _ _ _ db
  case revokeToken =>
    exact Database.revokeToken_keeps htransition (fun _ _ _ => haccept _ _ _ _ _)
      (fun _ => haccess _ _ touches_access) _ _ db
  case createLaunchSession =>
    exact Database.createLaunchSession_keeps (fun _ _ => (Database.insertSession_touches E d _ _ _).mono haccess) db
  case finishLaunchSession =>
    exact Database.finishLaunchSession_keeps (fun _ _ => haccess _ _ touches_access) db

include haccept htransition hpromote hremove

theorem Command.run_elsewhere_of {db : Db} (hmanages : c.managesTokens = true → R db (c.run E d db))
    (h : c.elsewhere = true) : R db (c.run E d db) := by
  cases c <;> try (cases h; done)
  case accept => exact Batch.Keeps.commit (haccept _ _ _ _ _) db
  case transition => exact Batch.Keeps.commit (htransition _ _ _ _ _) db
  case cancel => exact Database.cancelOperation_keeps htransition _ db
  case promoteModel => exact Batch.Keeps.commit (hpromote _ _) db
  case removeModel => exact Batch.Keeps.commit (hremove _) db
  case restart => exact Database.interruptPanelRecoveries_keeps htransition db
  all_goals exact hmanages rfl

include hfleet in
theorem Command.run_keeps_of (c : Command) (db : Db) (hmanages : c.managesTokens = true → R db (c.run E d db)) :
    R db (c.run E d db) := by
  have fleet : ∀ {α : Type} {t : Sql α}, t.Keeps (Touches [.fleet]) → R db (t.commit db).2 :=
    fun h => Batch.Keeps.commit (h.mono hfleet) db
  cases hc : c.elsewhere with
  | true => exact c.run_elsewhere_of haccept htransition hpromote hremove hmanages hc
  | false =>
    cases c <;> try (cases hc; done)
    case beginServe => exact fleet (Database.beginServe_touches E _)
    case setInstanceObserved => exact fleet (Database.setInstanceObserved_touches d _ _ _ _ _ _)
    case beginStop => exact fleet (Database.beginStop_touches _)
    case recordRestartFailure => exact fleet (Database.recordRestartFailure_touches _ _ _)
    case markQuarantine => exact fleet (Database.markQuarantine_touches _ _ _)
    case reconcileQuarantine => exact fleet (Database.reconcileQuarantine_touches d _)
    case importEmergency =>
      exact Database.importEmergency_keeps htransition ((Database.recordEmergency_touches _).mono hfleet) db

include haccess

theorem Command.run_elsewhere (h : c.elsewhere = true) (db : Db) : R db (c.run E d db) :=
  c.run_elsewhere_of haccept htransition hpromote hremove (fun hm => c.run_manages haccept htransition haccess hm db) h

include hfleet

theorem Command.run_keeps (c : Command) (db : Db) : R db (c.run E d db) :=
  c.run_keeps_of haccept htransition hpromote hremove hfleet db
    fun hm => c.run_manages haccept htransition haccess hm db

end

theorem actorLoop_keeps {E : Env} {R : Db → Db → Prop} [Std.Refl R] [IsTrans Db R]
    (h : ∀ d c db, R db (Command.run E d db c)) : ∀ (l : List (Draw × Command)) (db : Db),
    R db (actorLoop E db l)
  | [], db => Std.Refl.refl db
  | (d, c) :: l, db => IsTrans.trans _ _ _ (h d c db) (actorLoop_keeps h l _)

def eachStep (E : Env) (p : Draw → Db → Command → Bool) : Db → List (Draw × Command) → Bool
  | _, [] => true
  | db, (d, c) :: rest => p d db c && eachStep E p (c.run E d db) rest

theorem actorLoop_inv {E : Env} {p : Draw → Db → Command → Bool} {I : Db → Prop}
    (h : ∀ d c db, p d db c = true → I db → I (Command.run E d db c)) :
    ∀ (l : List (Draw × Command)) (db : Db), eachStep E p db l = true → I db → I (actorLoop E db l)
  | [], _, _, hI => hI
  | (d, c) :: l, db, hp, hI => by
    have hp : (p d db c && eachStep E p (c.run E d db) l) = true := hp
    rw [Bool.and_eq_true] at hp
    exact actorLoop_inv h l _ hp.2 (h d c db hp.1 hI)

end Sparkplane

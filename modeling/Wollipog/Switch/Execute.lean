import Wollipog.Lib.OrdMap
import Wollipog.Lib.Resume
import Wollipog.Switch.Place
/-!
# Execute — one approved Location switch carried out

`LocationSwitchService.execute` as a program over what it calls. `inspect` and `switchSession` are awaited: between
the call and its answer anything else runs.
-/
namespace Wollipog
namespace Switch

open Resume

inductive DecisionStatus
  | pending | approved | denied | consumed | revoked | superseded
deriving DecidableEq, Repr

structure LocationSwitchSnapshot where
  repository : String
  projectId : String
  candidates : List LocationSwitchCandidate
  targetDigest : String
  expiresAt : Int
  recoverBranch : Option String
deriving DecidableEq, Repr

structure LocationSwitchResult where
  action : LocationSwitchAction
  locationId : String
  sessionId : String
  completedAt : Int
deriving DecidableEq, Repr

/-- `location_switch_result`: an attempt in progress, or the receipt. -/
inductive Receipt
  | starting (action : LocationSwitchAction) (locationId : String) (claimedAt : Int)
  | result (r : LocationSwitchResult)
deriving DecidableEq, Repr

structure Decision where
  sessionId : String
  locationSwitch : Bool
  human : Bool
  resourceDigest : String
  snapshot : LocationSwitchSnapshot
  status : DecisionStatus
  resolvedAt : Option Int
  selectedOptionId : Option String
  approvedBy : Option String
  receipt : Option Receipt
deriving DecidableEq, Repr

structure Db where
  facts : Facts
  decisions : OrdMap String Decision

def Db.approver (db : Db) (occurrenceId : String) : Option String :=
  ((db.decisions.get occurrenceId).filter Decision.locationSwitch).bind Decision.approvedBy

/-- What every statement of the claim, its release and its completion asks of the row. -/
def Decision.claimable (d : Decision) (resourceDigest : String) : Bool :=
  d.locationSwitch && d.human && d.status == .approved && d.resourceDigest == resourceDigest && d.approvedBy.isSome &&
    d.receipt.isNone

def isStarting : Option Receipt → Bool
  | some (.starting _ _ _) => true
  | _ => false

def Decision.releasable (d : Decision) : Bool := d.locationSwitch && d.status == .approved && isStarting d.receipt

def Decision.completable (d : Decision) (resourceDigest : String) : Bool :=
  d.locationSwitch && d.human && d.status == .approved && d.resourceDigest == resourceDigest && isStarting d.receipt

structure SessionLocationSwitchMessage where
  sessionId : String
  workspaceId : String
  workspacePath : String
  repository : String
  locationName : String
  occurrenceId : String
  recoverBranch : Option String
deriving DecidableEq, Repr

structure CreateSessionRequest where
  runnerId : String
  workspaceId : String
  projectId : String
  projectLocationId : String
  agentId : Option String
  title : String
  model : Option String
  effort : Option String
  permissionMode : Option String
deriving DecidableEq, Repr

inductive Call
  | read
  | enter (occurrenceId : String)
  | leave (occurrenceId : String)
  | inspect (locationIds : List String)
  | claim (occurrenceId digest : String) (now : Int) (action : LocationSwitchAction) (target : LocationSwitchCandidate)
  | release (occurrenceId : String)
  | complete (occurrenceId digest : String) (result : LocationSwitchResult)
  | switchSession (runnerId : String) (message : SessionLocationSwitchMessage)
  | createSession (occurrenceId : String) (human : HumanPrincipal) (request : CreateSessionRequest)
deriving DecidableEq, Repr

def Call.awaited : Call → Bool
  | .inspect _ | .switchSession _ _ => true
  | _ => false

inductive Answer
  | db (db : Db)
  | flag (b : Bool)
  | inspected (answers : String → LocationInspection)
  | reply (ok : Bool) (error : Option String)
  | created (sessionId : String)
  | notCreated (error : Option String) (status : Nat)
  | threw

inductive Reply
  | refused (r : Refusal)
  | current (d : Decision)
  | executed (r : LocationSwitchResult)
deriving DecidableEq, Repr

abbrev Code := Program Call Answer String

def refuse (error : String) (status : Nat := 409) : Code Reply := pure (.refused ⟨error, status⟩)

def readDb : Code Db := do
  match ← Program.perform .read with
  | .db db => pure db
  | _ => Program.throw "database"

def flagged (o : Call) : Code Bool := do
  match ← Program.perform o with
  | .flag b => pure b
  | _ => Program.throw "database"

def inspect (locationIds : List String) : Code (String → LocationInspection) := do
  match ← Program.perform (.inspect locationIds) with
  | .inspected answers => pure answers
  | _ => Program.throw "inspect"

/-- One call of `execute`. -/
structure Args where
  sessionId : String
  occurrenceId : String
  digest : String
  principal : AgentPrincipal
  now : Int
deriving DecidableEq, Repr

def approvalTtlMs : Int := 3600000

def lineTerminator (c : Char) : Bool := c == '\n' || c == '\r' || c == '\u2028' || c == '\u2029'

def parseLocationSwitchOption (optionId : Option String) : Option (LocationSwitchAction × String) :=
  match optionId with
  | none => none
  | some text =>
    let named (action : LocationSwitchAction) (lead : String) : Option (LocationSwitchAction × String) :=
      let rest := text.toList.drop lead.toList.length
      if text.toList.take lead.toList.length = lead.toList ∧ rest ≠ [] ∧ rest.any lineTerminator = false then
        some (action, String.ofList rest)
      else none
    (named .switch "switch:").orElse (fun _ => named .newSession "new_session:")

variable (auditDigest : Bound → String) (args : Args)

def get (db : Db) : Except Refusal Decision :=
  if args.principal.credentialSessionId ≠ args.sessionId ∨ db.facts.canAccessSession args.principal args.sessionId = false then
    fail "session not found" 404
  else
    match db.decisions.get args.occurrenceId with
    | none => fail "Location switch request not found" 404
    | some decision =>
      if decision.sessionId = args.sessionId ∧ decision.locationSwitch = true then .ok decision
      else fail "Location switch request not found" 404

def chosen (decision : Decision) : Except Refusal (LocationSwitchAction × LocationSwitchCandidate) :=
  if decision.status ≠ .approved ∨ decision.human = false ∨ decision.snapshot.expiresAt ≤ args.now ∨
      decision.resolvedAt.all (fun resolvedAt => decide (resolvedAt = 0 ∨ resolvedAt + approvalTtlMs ≤ args.now)) = true then
    fail "This Location switch needs a current approval from the session's owner"
  else
    match parseLocationSwitchOption decision.selectedOptionId with
    | none => fail "The approval does not name an offered Location"
    | some (action, locationId) =>
      match decision.snapshot.candidates.find? (fun c => c.locationId == locationId) with
      | none => fail "The approval does not name an offered Location"
      | some target =>
        if action ∈ target.actions then .ok (action, target) else fail "The approval does not name an offered Location"

def receiptOf (action : LocationSwitchAction) (target : LocationSwitchCandidate) (sessionId : String) : LocationSwitchResult :=
  ⟨action, target.locationId, sessionId, args.now⟩

def switchLiveSession (db : Db) (session : SessionView) (snapshot : LocationSwitchSnapshot) (target : LocationSwitchCandidate) :
    Code Reply :=
  match (db.facts.getWorkspacePath target.place.runnerId target.place.workspaceId).filter (· ≠ "") with
  | none => refuse "The target Location is no longer available on this session's machine"
  | some workspacePath =>
    if target.place.runnerId ≠ session.runnerId then refuse "The target Location is no longer available on this session's machine"
    else do
      if ← flagged (.claim args.occurrenceId args.digest args.now .switch target) then
        match ← Program.perform (.switchSession session.runnerId ⟨session.id, target.place.workspaceId, workspacePath,
            target.repository, target.place.name, args.occurrenceId, snapshot.recoverBranch⟩) with
        | .reply true _ => do
          if ← flagged (.complete args.occurrenceId args.digest (receiptOf args .switch target session.id)) then
            pure (.executed (receiptOf args .switch target session.id))
          else do
            let db ← readDb
            match (db.decisions.get args.occurrenceId).bind Decision.receipt with
            | some (.result recorded) =>
              if recorded.action = .switch ∧ recorded.locationId = target.locationId then pure (.executed recorded)
              else Program.throw "receipt could not be recorded"
            | _ => Program.throw "receipt could not be recorded"
        | .reply false error => do
          let _ ← flagged (.release args.occurrenceId)
          refuse ("The session's machine refused the Location switch: " ++ error.getD "unknown reason")
        | _ => refuse "The session's machine did not confirm the Location switch; check the session before asking again" 502
      else refuse "A previous attempt to carry out this approval may already have moved this session; check it before asking again"

def startHandoffSession (session : SessionView) (snapshot : LocationSwitchSnapshot) (target : LocationSwitchCandidate)
    (human : HumanPrincipal) : Code Reply := do
  if ← flagged (.claim args.occurrenceId args.digest args.now .newSession target) then
    match ← Program.perform (.createSession args.occurrenceId human ⟨target.place.runnerId, target.place.workspaceId,
        snapshot.projectId, target.locationId, session.agentId, session.title, session.model, session.effort,
        session.permissionMode⟩) with
    | .created sessionId => do
      if ← flagged (.complete args.occurrenceId args.digest (receiptOf args .newSession target sessionId)) then
        pure (.executed (receiptOf args .newSession target sessionId))
      else Program.throw "receipt could not be recorded"
    | .notCreated error status => do
      let _ ← flagged (.release args.occurrenceId)
      refuse ("The new session could not start: " ++ error.getD "unknown error") status
    | _ => Program.throw "create"
  else refuse "A previous attempt to carry out this approval may already have started a session; check Sessions before asking again"

/-- The part between `executing.add` and `executing.delete`. -/
def carryOut (db : Db) (decision : Decision) (action : LocationSwitchAction) (target : LocationSwitchCandidate)
    (before : SessionView) (human : HumanPrincipal) : Code Reply :=
  match toInspect db.facts before (.human human) decision.snapshot.repository with
  | .error e => pure (.refused e)
  | .ok (project, asked) => do
    let answers ← inspect ((asked.filter Prod.snd).map (fun l => l.1.id))
    let db ← readDb
    match prepared db.facts auditDigest before decision.snapshot.repository project (inspections asked answers) with
    | .error e => pure (.refused e)
    | .ok p =>
      if p.targetDigest ≠ decision.snapshot.targetDigest then
        refuse "The Project's Locations, their repositories or this session's settings changed; ask again for a fresh approval"
      else
        match authorizeExecution db.facts args.principal args.sessionId (db.approver args.occurrenceId) target with
        | .error e => pure (.refused e)
        | .ok (session, human) =>
          if sessionBinding session ≠ sessionBinding before then
            refuse "This session's Location or settings changed while the Locations were checked; ask again for a fresh approval"
          else
            match action with
            | .switch => switchLiveSession args db session decision.snapshot target
            | .newSession => startHandoffSession args session decision.snapshot target human

def hasReceipt (decision : Decision) : Bool :=
  match decision.receipt with
  | some (.result r) => r.sessionId ≠ ""
  | _ => false

def execute : Code Reply := do
  let db ← readDb
  match get args db with
  | .error e => pure (.refused e)
  | .ok decision =>
    if decision.resourceDigest ≠ args.digest then refuse "Location switch digest does not match"
    else if decision.status = .consumed ∧ hasReceipt decision = true then pure (.current decision)
    else
      match chosen args decision with
      | .error e => pure (.refused e)
      | .ok (action, target) =>
        match authorizeExecution db.facts args.principal args.sessionId (db.approver args.occurrenceId) target with
        | .error e => pure (.refused e)
        | .ok (session, human) => do
          if ← flagged (.enter args.occurrenceId) then
            Program.tryFinally (carryOut auditDigest args db decision action target session human)
              (do let _ ← flagged (.leave args.occurrenceId); pure ())
          else refuse "This Location switch is already being carried out"

end Switch
end Wollipog

import Wollipog.Lib.Js
import Wollipog.Lib.OrdMap
import Mathlib
/-!
# Store — the recovery records of a campaign

A scan writes what changed, leaves the rest alone, and closes the records nothing reports any more.
-/
namespace Wollipog.Campaign

inductive CampaignRecoveryAction
  | answerRequest | reviewEvidence | recoverHold | replaceWorker | reformulateRequest | repairChecks | rereview
  | reconcileOutcome | continueCampaign | continueWithoutRequest
  deriving DecidableEq

inductive CampaignRecoveryReason
  | authorizedAction | transientFailure | failedChecks | reviewerObjection | uncertainOutcome | missingHumanInformation
  | missingAccess | boundaryEnlargement | humanRequiredRule | unsupportedCapability | hardDenial | attemptsExhausted
  | authorityChanged | requestDeclined | publicationNotAdmitted | correctableRefusal | intentionalStop | unverifiedStop
  deriving DecidableEq

inductive CampaignRecoveryState
  | ready | backoff | dispatched | waitingHuman | blocked | resolved | cancelled
  deriving DecidableEq

inductive ResourceKind
  | request | hold | worker | continuation | steering | pullRequest | reviewJob
  deriving DecidableEq

inductive EffectiveOwner
  | human | orchestrator
  deriving DecidableEq

inductive CampaignRecoveryInput
  | answerExistingRequest | restoreExistingAccess | authorizeExactBoundaryChange | performHumanRequiredAction
  | useSupportedCapability | reconcileOriginalOutcome | none
  deriving DecidableEq

structure CampaignRecoveryResource where
  kind : ResourceKind
  sessionId : String
  occurrenceId : String
  repository : Option String
  pullRequest : Option ℕ
  workItemId : Option String
  deriving DecidableEq

structure CampaignRecoveryObservation where
  action : CampaignRecoveryAction
  resource : CampaignRecoveryResource
  reason : CampaignRecoveryReason
  owner : EffectiveOwner
  signal : String
  resolved : Bool
  admissionFailure : Option String
  deriving DecidableEq

/-- What a record is about: replacement workers share their work item, the repairs of a pull request share it. -/
inductive Coordinate
  | worker (workItemId : String)
  | pullRequest (repository : Option String) (pullRequest : Option ℕ)
  | resource (resource : CampaignRecoveryResource)
  deriving DecidableEq

structure Identity where
  campaignId : String
  coordinate : Coordinate
  action : CampaignRecoveryAction
  deriving DecidableEq

def coordinate (resource : CampaignRecoveryResource) (action : CampaignRecoveryAction) : Coordinate :=
  match resource.kind, resource.workItemId.filter (fun item => item ≠ "") with
  | .worker, some workItemId => .worker workItemId
  | _, _ =>
    if (resource.kind = .pullRequest ∨ resource.kind = .reviewJob) ∧ (action = .repairChecks ∨ action = .rereview) then
      .pullRequest (resource.repository.map Js.lower) resource.pullRequest
    else .resource resource

def identity (campaignId : String) (resource : CampaignRecoveryResource) (action : CampaignRecoveryAction) : Identity :=
  ⟨campaignId, coordinate resource action, action⟩

structure CampaignRecoveryRecord where
  id : Identity
  action : CampaignRecoveryAction
  resource : CampaignRecoveryResource
  reason : CampaignRecoveryReason
  state : CampaignRecoveryState
  effectiveOwner : EffectiveOwner
  policyRevision : ℕ
  dispatchFenced : Bool
  attempts : ℕ
  maxAttempts : ℕ
  attemptedRecovery : List CampaignRecoveryAction
  requiredInput : CampaignRecoveryInput
  /-- The fixed text of a reason, then that of an admission failure. -/
  explanation : CampaignRecoveryReason × Option String
  admissionFailure : Option String
  nextAttemptAt : Option ℕ
  createdAt : ℕ
  updatedAt : ℕ
  deriving DecidableEq

structure Row where
  signal : String
  record : CampaignRecoveryRecord
  deriving DecidableEq

abbrev Table := OrdMap Identity Row

namespace CAMPAIGN_RECOVERY_LIMITS

def maxAttempts : ℕ := 4
def baseBackoffMs : ℕ := 1000
def maxBackoffMs : ℕ := 30000
def dispatchPerPass : ℕ := 16

end CAMPAIGN_RECOVERY_LIMITS

def inputFor : CampaignRecoveryReason → CampaignRecoveryInput
  | .missingHumanInformation => .answerExistingRequest
  | .missingAccess => .restoreExistingAccess
  | .boundaryEnlargement => .authorizeExactBoundaryChange
  | .humanRequiredRule => .performHumanRequiredAction
  | .unsupportedCapability => .useSupportedCapability
  | .uncertainOutcome => .reconcileOriginalOutcome
  | .publicationNotAdmitted => .performHumanRequiredAction
  | _ => .none

def CampaignRecoveryState.terminal : CampaignRecoveryState → Bool
  | .resolved | .cancelled => true
  | _ => false

def CampaignRecoveryReason.hard : CampaignRecoveryReason → Bool
  | .hardDenial | .attemptsExhausted | .requestDeclined | .intentionalStop | .unverifiedStop => true
  | _ => false

def CampaignRecoveryReason.human : CampaignRecoveryReason → Bool
  | .missingHumanInformation | .missingAccess | .boundaryEnlargement | .humanRequiredRule | .unsupportedCapability
  | .publicationNotAdmitted => true
  | _ => false

def stopSeverity : CampaignRecoveryReason → Option ℕ
  | .intentionalStop => some 1
  | .unverifiedStop => some 2
  | .hardDenial => some 3
  | _ => none

def escalates (recorded observed : CampaignRecoveryReason) : Bool :=
  match stopSeverity recorded with
  | none => false
  | some severity => decide (severity < (stopSeverity observed).getD 0)

def stalledRecoveryWakeDelayMs (attempts : ℕ) : ℕ := min 1800000 (120000 * 2 ^ (attempts - 1))

/-! ## One observation against the stored row -/

/-- The arguments of `synchronize`. -/
structure Scan where
  campaignId : String
  policyRevision : ℕ
  authorized : Bool
  observations : List CampaignRecoveryObservation
  now : ℕ
  settledWakeAt : CampaignRecoveryRecord → Option ℕ

namespace Scan

variable (scan : Scan) (row : Option Row) (o : CampaignRecoveryObservation)

/-- `old?.attempts ?? 0` -/
def attempts : ℕ := (row.map (fun r => r.record.attempts)).getD 0

def changedResource : Bool := row.any (fun r => r.record.resource != o.resource)

def freshOccurrence : Bool :=
  row.any (fun r => r.record.resource.occurrenceId != o.resource.occurrenceId || r.record.resource.sessionId != o.resource.sessionId)

def dispatchFenced : Bool :=
  (!scan.authorized ||
    row.any (fun r => r.record.dispatchFenced || r.record.state == .cancelled || r.record.policyRevision != scan.policyRevision)) &&
    !(scan.authorized && freshOccurrence row o)

def currentDispatch : Bool := row.any (fun r => r.record.state == .dispatched && r.signal == o.signal) && !changedResource row o

/-- The wake of the record was delivered and finished, and has stayed unanswered for its delay. -/
def stalled : Bool :=
  currentDispatch row o && scan.authorized && !o.resolved &&
    (row.bind (fun r => scan.settledWakeAt r.record)).any
      (fun settledAt => decide (settledAt + stalledRecoveryWakeDelayMs (attempts row) ≤ scan.now))

def escalatedStop : Bool := row.any (fun r => r.record.action == .replaceWorker && escalates r.record.reason o.reason)

def firstReason : CampaignRecoveryReason :=
  if decide (CAMPAIGN_RECOVERY_LIMITS.maxAttempts ≤ attempts row) && !o.resolved && (!currentDispatch row o || stalled scan row o) then
    .attemptsExhausted
  else
    match row with
    | none => o.reason
    | some r =>
      if r.record.reason.hard && !r.record.state.terminal && !o.resolved && !escalatedStop row o then r.record.reason else o.reason

def state : CampaignRecoveryState :=
  if o.resolved then .resolved
  else if !scan.authorized && o.owner != .human then
    if firstReason scan row o = .uncertainOutcome then .blocked else .cancelled
  else if (firstReason scan row o).hard then .blocked
  else if o.owner == .human || (firstReason scan row o).human then .waitingHuman
  else if dispatchFenced scan row o then .blocked
  else if firstReason scan row o = .transientFailure then .backoff else .ready

def reason : CampaignRecoveryReason :=
  if state scan row o == .blocked && dispatchFenced scan row o && !(firstReason scan row o).hard &&
      firstReason scan row o != .uncertainOutcome then .authorityChanged
  else firstReason scan row o

def unchanged : Bool :=
  row.any (fun r => !stalled scan row o && r.signal == o.signal && !changedResource row o &&
    r.record.policyRevision == scan.policyRevision && r.record.effectiveOwner == o.owner && r.record.reason == reason scan row o &&
    r.record.dispatchFenced == dispatchFenced scan row o &&
    (if o.resolved then r.record.state == .resolved else !r.record.state.terminal || state scan row o == r.record.state))

def next : Row where
  signal := o.signal
  record := {
    id := identity scan.campaignId o.resource o.action
    action := o.action
    resource := o.resource
    reason := reason scan row o
    state := state scan row o
    effectiveOwner := o.owner
    policyRevision := scan.policyRevision
    dispatchFenced := dispatchFenced scan row o
    attempts := attempts row
    maxAttempts := CAMPAIGN_RECOVERY_LIMITS.maxAttempts
    attemptedRecovery := (row.map (fun r => r.record.attemptedRecovery)).getD []
    requiredInput := inputFor (reason scan row o)
    explanation := (reason scan row o, if reason scan row o = o.reason then o.admissionFailure else none)
    admissionFailure := o.admissionFailure
    nextAttemptAt :=
      if state scan row o = .backoff then
        some (scan.now + min CAMPAIGN_RECOVERY_LIMITS.maxBackoffMs (CAMPAIGN_RECOVERY_LIMITS.baseBackoffMs * 2 ^ attempts row))
      else none
    createdAt := (row.map (fun r => r.record.createdAt)).getD scan.now
    updatedAt := scan.now }

def drop (r : Row) : Row :=
  { r with record := { r.record with
      state := if scan.authorized && r.record.policyRevision == scan.policyRevision then .resolved else .cancelled
      dispatchFenced := if !scan.authorized || r.record.policyRevision != scan.policyRevision then true else r.record.dispatchFenced
      updatedAt := scan.now } }

end Scan

def openRows (table : Table) (campaignId : String) : Table :=
  table.filter (fun id r => id.campaignId == campaignId && !r.record.state.terminal)

def Scan.idOf (scan : Scan) (o : CampaignRecoveryObservation) : Identity := identity scan.campaignId o.resource o.action

def observe (scan : Scan) (previous : Table) (seen : Table × Bool) (o : CampaignRecoveryObservation) : Table × Bool :=
  let id := scan.idOf o
  let row := (previous.get id).or (seen.1.get id)
  if scan.unchanged row o then seen else (seen.1.set id (scan.next row o), true)

def closeUnobserved (scan : Scan) (observed : List Identity) (seen : Table × Bool) (entry : Identity × Row) : Table × Bool :=
  if entry.2.record.state.terminal || observed.contains entry.1 then seen else (seen.1.set entry.1 (scan.drop entry.2), true)

def synchronize (scan : Scan) (table : Table) : Table × Bool :=
  let previous := openRows table scan.campaignId
  let seen := scan.observations.foldl (observe scan previous) (table, false)
  previous.entries.foldl (closeUnobserved scan (scan.observations.map scan.idOf)) seen

/-- The arguments of `dispatchDue`. -/
structure Pass where
  campaignId : String
  policyRevision : ℕ
  now : ℕ
  eligible : CampaignRecoveryRecord → Bool

def Pass.due (pass : Pass) (record : CampaignRecoveryRecord) : Bool :=
  !record.dispatchFenced && record.policyRevision == pass.policyRevision && record.effectiveOwner == .orchestrator &&
    (record.state == .ready || record.state == .backoff) && decide (record.nextAttemptAt.getD 0 ≤ pass.now) && pass.eligible record

def Pass.dispatched (pass : Pass) (r : Row) : Row :=
  { r with record := { r.record with
      state := .dispatched
      attempts := r.record.attempts + 1
      attemptedRecovery := r.record.attemptedRecovery ++ [r.record.action]
      nextAttemptAt := none
      updatedAt := pass.now } }

def dispatchRows (pass : Pass) : List (Identity × Row) → ℕ → Table → Table × List (Identity × ℕ)
  | [], _, table => (table, [])
  | (id, r) :: rest, count, table =>
    if CAMPAIGN_RECOVERY_LIMITS.dispatchPerPass ≤ count then (table, [])
    else if pass.due r.record then
      let after := dispatchRows pass rest (count + 1) (table.set id (pass.dispatched r))
      (after.1, (r.record.id, r.record.attempts + 1) :: after.2)
    else dispatchRows pass rest count table

/-- `before` is the order of the hashes. -/
def dispatchDue (before : Identity → Identity → Bool) (pass : Pass) (table : Table) : Table × List (Identity × ℕ) :=
  dispatchRows pass ((openRows table pass.campaignId).entries.insertionSort (fun a b => before a.1 b.1 = true)) 0 table

end Wollipog.Campaign

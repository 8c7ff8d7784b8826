import Wollipog.Scope.Repository
import Wollipog.Lib.OrdMap
import Wollipog.Lib.Transaction
/-!
# Rows — the tables of the campaign work ledger

The rows of a root campaign's ledger and of its triggers, and the statements that write them. Columns only set
together are one optional group; rows are in `rowid` order.
-/
namespace Wollipog.Ledger

open Authority (CampaignIssueRef campaignRepositoryLocation)

abbrev CampaignPullRequestRef := CampaignIssueRef

inductive SessionStatus | queued | starting | running | inputRequired | idle | completed | failed | stopped
deriving DecidableEq

inductive WorkItemOrigin | original | followUp
deriving DecidableEq

def WorkItemOrigin.text : WorkItemOrigin → String
  | .original => "original"
  | .followUp => "follow_up"

inductive DispatchState | planned | queued
deriving DecidableEq

inductive CommitmentState | committed | cancelled | scopeRemoved
deriving DecidableEq

def CommitmentState.text : CommitmentState → String
  | .committed => "committed"
  | .cancelled => "cancelled"
  | .scopeRemoved => "scope_removed"

inductive ReportedStageKind
  | implementing | inReview | awaitingChecks | awaitingApproval | mergeQueued | merged | cleanup
deriving DecidableEq

inductive ResponsibleActor | human | orchestrator | child | external
deriving DecidableEq

inductive AttemptEndReason | delivered | reassigned | superseded | abandoned | failed
deriving DecidableEq

inductive VerificationOutcome | delivered | incomplete
deriving DecidableEq

inductive Disposition | accepted | rejected | deferred | duplicate
deriving DecidableEq

inductive PlanState | notRecorded | partly | recorded
deriving DecidableEq

/-! ## The rows -/

structure SessionRow where
  status : SessionStatus
  archived : Bool
  updatedAt : Int
deriving DecidableEq

structure LedgerRow where
  revision : Nat
  planState : PlanState
  createdAt : Int
  updatedAt : Int
deriving DecidableEq

structure FixedByRow where
  campaignSessionId : String
  issueRepository : String
  issueNumber : Int
  workItemIds : List String
deriving DecidableEq

structure ReportedStage where
  stage : ReportedStageKind
  note : Option String
  pullRequests : List CampaignPullRequestRef
  sourceSessionId : Option String
  reportedAt : Int
deriving DecidableEq

structure Blocker where
  reason : String
  actor : ResponsibleActor
  requestOccurrenceId : Option String
  recordedAt : Int
  recordedBy : Option String
deriving DecidableEq

structure ItemRow where
  id : String
  campaignSessionId : String
  itemKey : String
  title : Option String
  issue : Option CampaignIssueRef
  origin : WorkItemOrigin
  generation : Int
  dispatchState : DispatchState
  queuePosition : Option Int
  commitment : CommitmentState
  commitmentReason : Option String
  commitmentChangedAt : Int
  commitmentChangedBy : Option String
  stage : Option ReportedStage
  blocker : Option Blocker
  nextAction : Option String
  createdBySessionId : Option String
  createdAt : Int
  updatedAt : Int
deriving DecidableEq

structure DependencyRow where
  workItemId : String
  dependsOnId : String
deriving DecidableEq

structure CampaignAttemptBoundary where
  eventEpoch : Option Int
  runnerHistoryEpoch : Option Int
  seq : Option Int
deriving DecidableEq

structure CampaignAttemptSessionSnapshot where
  title : Option String
  harness : Option String
  agentName : Option String
  model : Option String
  effort : Option String
deriving DecidableEq

structure AttemptEnd where
  at_ : Int
  boundary : CampaignAttemptBoundary
  reason : AttemptEndReason
  note : Option String
deriving DecidableEq

structure AttemptRow where
  id : String
  campaignSessionId : String
  workItemId : String
  ordinal : Nat
  sessionId : Option String
  session : CampaignAttemptSessionSnapshot
  assignedBySessionId : Option String
  startedAt : Int
  start : CampaignAttemptBoundary
  ended : Option AttemptEnd
deriving DecidableEq

structure ReportIdentity where
  seq : Int
  eventEpoch : Option Int
  digest : Option String
  ts : Option Int
deriving DecidableEq

structure VerificationRow where
  id : String
  campaignSessionId : String
  workItemId : String
  attemptId : String
  childSessionId : Option String
  outcome : VerificationOutcome
  report : ReportIdentity
  verifiedBySessionId : Option String
  verifiedAt : Int
deriving DecidableEq

structure HandoffRow where
  campaignSessionId : String
  responsibleActor : ResponsibleActor
  reason : String
  nextAction : String
  recordedAt : Int
  recordedBy : Option String
deriving DecidableEq

/-- A pull request that the forge just reported merged; the caller lets only a located repository through. -/
structure DeliveredPullRequest where
  repository : String
  number : Int
  mergeCommitSha : String
  baseRef : String
  located : (campaignRepositoryLocation repository).isSome = true
deriving DecidableEq

/-- What tells one evidence of delivery from another: the pull requests and the report. -/
structure EvidenceKey where
  pullRequests : List String
  report : Option (String × Int × Option Int)
deriving DecidableEq

structure DeliveryRow where
  id : String
  campaignSessionId : String
  workItemId : String
  afterOrdinal : Nat
  pullRequests : List DeliveredPullRequest
  reportChildSessionId : Option String
  reportAttemptId : Option String
  reportSeq : Option Int
  evidenceKey : EvidenceKey
  note : Option String
  recordedBy : Option String
  recordedAt : Int
deriving DecidableEq

structure FollowUpRow where
  id : String
  campaignSessionId : String
  title : String
  duplicateOf : Option String
deriving DecidableEq

structure OriginRow where
  recommendationId : String
  workItemId : String
deriving DecidableEq

structure DispositionRow where
  disposition : Disposition
  reason : String
  publicationRequired : Bool
  resultingIssue : Option CampaignIssueRef
  resultingWorkItemId : Option String
  adjudicatedBySessionId : Option String
  adjudicatedAt : Int
deriving DecidableEq

structure IssueHistoryRow where
  workItemId : String
  issueRepository : String
  issueNumber : Int
deriving DecidableEq

structure LineageEdgeRow where
  originWorkItemId : String
  resultWorkItemId : String
deriving DecidableEq

structure ItemTransitionRow where
  workItemId : String
  at_ : Int
  dispatchState : DispatchState
  commitment : CommitmentState
  blocked : Bool
deriving DecidableEq

structure AttemptStatusRow where
  attemptId : String
  at_ : Int
  status : Option SessionStatus
  archived : Bool
deriving DecidableEq

structure Tables where
  sessions : OrdMap String SessionRow
  ledgers : OrdMap String LedgerRow
  fixedBy : List FixedByRow
  items : List ItemRow
  dependencies : List DependencyRow
  attempts : List AttemptRow
  verifications : List VerificationRow
  handoffs : OrdMap String HandoffRow
  deliveries : List DeliveryRow
  followUps : List FollowUpRow
  origins : List OriginRow
  dispositions : OrdMap String DispositionRow
  legacyItems : List String
  issueHistory : List IssueHistoryRow
  lineageEdges : List LineageEdgeRow
  itemTransitions : List ItemTransitionRow
  attemptStatuses : List AttemptStatusRow

def Tables.empty : Tables :=
  ⟨.empty, .empty, [], [], [], [], [], .empty, [], [], [], .empty, [], [], [], [], []⟩

inductive LedgerError
  /-- A refusal, returned or thrown, with what a client acts on. -/
  | refusal (error : String) (status : Nat) (details : List (String × String))
  /-- A statement that breaks a constraint of its table. -/
  | constraint
deriving DecidableEq

def fail (error : String) (status : Nat) : LedgerError := .refusal error status []

abbrev Ledger (α : Type) := Tx Tables LedgerError α

namespace Tables

variable (t : Tables)

def item (campaignId itemId : String) : Option ItemRow :=
  t.items.find? (fun r => r.id == itemId && r.campaignSessionId == campaignId)

def itemByKey (campaignId key : String) : Option ItemRow :=
  t.items.find? (fun r => r.campaignSessionId == campaignId && r.itemKey == key)

def openAttemptForItem (itemId : String) : Option AttemptRow :=
  t.attempts.find? (fun a => a.workItemId == itemId && a.ended.isNone)

def openAttemptForSession (sessionId : String) : Option AttemptRow :=
  t.attempts.find? (fun a => a.sessionId == some sessionId && a.ended.isNone)

def openAttemptItemFor (campaignId sessionId : String) : Option String :=
  (t.attempts.find? (fun a => a.campaignSessionId == campaignId && a.sessionId == some sessionId && a.ended.isNone)).map
    AttemptRow.workItemId

def revision (campaignId : String) : Nat := ((t.ledgers.get campaignId).map LedgerRow.revision).getD 0

def planState (campaignId : String) : PlanState := ((t.ledgers.get campaignId).map LedgerRow.planState).getD .notRecorded

def fixedByItems (campaignId repository : String) (issue : Int) : Option (List String) :=
  (t.fixedBy.find? (fun r => r.campaignSessionId == campaignId && r.issueRepository == Js.lower repository &&
    r.issueNumber == issue)).map FixedByRow.workItemIds

end Tables

/-! ## Writing -/

/-- Adds a row unless it is there, as `ON CONFLICT DO NOTHING` does. -/
def addRow {α : Type} [DecidableEq α] (row : α) (rows : List α) : List α := if row ∈ rows then rows else rows ++ [row]

/-- `lower` of SQL, which knows the letters of ASCII only. -/
def sqlLower (s : String) : String := String.ofList (s.toList.map Char.toLower)

def recordIssue (row : ItemRow) (t : Tables) : Tables :=
  match row.issue with
  | none => t
  | some issue => { t with issueHistory := addRow ⟨row.id, sqlLower issue.repository, issue.number⟩ t.issueHistory }

def transitionOf (row : ItemRow) (at_ : Int) : ItemTransitionRow :=
  ⟨row.id, at_, row.dispatchState, row.commitment, row.blocker.isSome⟩

def recordTransition (row : ItemRow) (at_ : Int) (t : Tables) : Tables :=
  { t with itemTransitions := t.itemTransitions ++ [transitionOf row at_] }

def Tables.addItem (row : ItemRow) (t : Tables) : Tables :=
  recordTransition row row.createdAt (recordIssue row { t with items := t.items ++ [row] })

def insertItem (row : ItemRow) : Ledger Unit := do
  let t ← Tx.read
  Tx.refuseIf (if t.items.any (fun r => r.id == row.id || r.campaignSessionId == row.campaignSessionId && r.itemKey == row.itemKey)
    then some .constraint else none)
  Tx.write (Tables.addItem row)

/-- Whether the trigger on the dispatch state, the commitment and the blocker records a change. -/
def movesState (old new : ItemRow) : Bool :=
  decide (old.dispatchState ≠ new.dispatchState) || decide (old.commitment ≠ new.commitment) ||
    decide (old.blocker.isSome ≠ new.blocker.isSome)

/-- An updated item and what its triggers record; `issueSet`: the statement sets the issue columns. -/
def Tables.reviseItem (id : String) (issueSet : Bool) (f : ItemRow → ItemRow) (t : Tables) : Tables :=
  match t.items.find? (fun r => r.id == id) with
  | none => t
  | some old =>
    let new := f old
    let t := { t with items := t.items.map (fun r => if r.id = id then new else r) }
    let t := if issueSet then recordIssue new t else t
    if movesState old new then recordTransition new new.updatedAt t else t

def Tables.touchItem (id : String) (now : Int) (t : Tables) : Tables :=
  t.reviseItem id false (fun r => { r with updatedAt := now })

def Tables.setDependencies (itemId : String) (dependsOn : List String) (t : Tables) : Tables :=
  { t with dependencies :=
      t.dependencies.filter (fun d => d.workItemId != itemId) ++ dependsOn.map (fun d => ⟨itemId, d⟩) }

def Tables.addAttempt (row : AttemptRow) (status : AttemptStatusRow) (t : Tables) : Tables :=
  { t with attempts := t.attempts ++ [row], attemptStatuses := t.attemptStatuses ++ [status] }

/-- Whether an attempt may be inserted: identity, ordinal, item and session free, and the session there. -/
def Tables.attemptFree (row : AttemptRow) (t : Tables) : Bool :=
  !t.attempts.any (fun a => a.id == row.id || a.workItemId == row.workItemId && a.ordinal == row.ordinal ||
      a.ended.isNone && (a.workItemId == row.workItemId || a.sessionId == row.sessionId)) &&
    row.sessionId.all (fun s => (t.sessions.get s).isSome)

def insertAttempt (row : AttemptRow) (status : AttemptStatusRow) : Ledger Unit := do
  let t ← Tx.read
  Tx.refuseIf (if t.attemptFree row then none else some .constraint)
  Tx.write (Tables.addAttempt row status)

def Tables.endAttempt (id : String) (ended : AttemptEnd) (t : Tables) : Tables :=
  { t with attempts := t.attempts.map (fun a => if a.id = id ∧ a.ended = none then { a with ended := some ended } else a) }

def insertVerification (row : VerificationRow) : Ledger Unit := do
  let t ← Tx.read
  Tx.refuseIf (if t.verifications.any (fun v => v.id == row.id) then some .constraint else none)
  Tx.write (fun t => { t with verifications := t.verifications ++ [row] })

def insertDelivery (row : DeliveryRow) : Ledger Unit := do
  let t ← Tx.read
  Tx.refuseIf (if t.deliveries.any (fun d => d.id == row.id) then some .constraint else none)
  Tx.write (fun t => { t with deliveries := t.deliveries ++ [row] })

def recordEdges (edges : List LineageEdgeRow) (t : Tables) : Tables :=
  { t with lineageEdges := edges.foldl (fun rows e => addRow e rows) t.lineageEdges }

def edgesTo (recommendationId resultId : String) (t : Tables) : List LineageEdgeRow :=
  (t.origins.filter (fun o => o.recommendationId == recommendationId)).map (fun o => ⟨o.workItemId, resultId⟩)

def Tables.setDisposition (recommendationId : String) (row : DispositionRow) (t : Tables) : Tables :=
  let t := { t with dispositions := t.dispositions.set recommendationId row }
  match row.resultingWorkItemId with
  | none => t
  | some result => recordEdges (edgesTo recommendationId result t) t

/-- `INSERT OR IGNORE` of an origin, with the link its recommendation's adjudication makes. -/
def Tables.addOrigin (row : OriginRow) (t : Tables) : Tables :=
  if row ∈ t.origins then t
  else
    let t := { t with origins := t.origins ++ [row] }
    match (t.dispositions.get row.recommendationId).bind DispositionRow.resultingWorkItemId with
    | none => t
    | some result => recordEdges [⟨row.workItemId, result⟩] t

def Tables.bump (campaignId : String) (now : Int) (planState : Option PlanState) (t : Tables) : Tables :=
  let row := (t.ledgers.get campaignId).getD ⟨0, .notRecorded, now, now⟩
  let bumped : LedgerRow := ⟨row.revision + 1, planState.getD row.planState, row.createdAt, now⟩
  { t with ledgers := t.ledgers.set campaignId bumped }

def bump (campaignId : String) (now : Int) (planState : Option PlanState) : Ledger Nat := do
  Tx.write (Tables.bump campaignId now planState)
  let t ← Tx.read
  pure (t.revision campaignId)

def bumpIf (changed : Bool) (campaignId : String) (now : Int) (planState : Option PlanState) : Ledger Nat := do
  let t ← Tx.read
  if changed then bump campaignId now planState else pure (t.revision campaignId)

/-- What `randomUUID` yields without its dashes. -/
abbrev Uuid := { s : String // s.toList.length = 32 ∧ s.toList.all Js.isLowerHex = true }

def newId (idPrefix : String) (uuid : Uuid) : String := idPrefix ++ uuid.val

end Wollipog.Ledger

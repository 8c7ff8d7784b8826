import Wollipog.Ledger.Update
/-!
# Attempts — assigning a work item, and proving its delivery

An assignment opens the one attempt of its item and of its session, and ends those that stood in its way.
-/
namespace Wollipog.Ledger

open Authority (CampaignIssueRef campaignRepositoryLocation)
open Scope (sortBy)

/-! ## Assigning -/

def notDeliverable (commitment : CommitmentState) (verb : String) : LedgerError :=
  fail ("a " ++ (if commitment = .cancelled then "cancelled" else "removed") ++ " work item cannot be " ++ verb ++ "; recommit it first") 409

/-- The item checks `assign` applies, without writing. -/
def assignableItem (t : Tables) (h : Hooks) (campaignId workItemId : String) : Except LedgerError ItemRow :=
  match t.item campaignId workItemId with
  | none => .error (fail "work item not found in this campaign" 404)
  | some item =>
    if item.commitment ≠ .committed then .error (notDeliverable item.commitment "assigned")
    else match h.admitDispatch campaignId item.issue with
      | some refused => .error (fail refused 409)
      | none => .ok item

structure ClosedAttempt where
  id : String
  workItemId : String
  endReason : AttemptEndReason
deriving DecidableEq

structure AssignResult where
  revision : Nat
  attempt : AttemptRow
  closedAttempts : List ClosedAttempt
  created : Bool
deriving DecidableEq

def Tables.attemptRows (t : Tables) (itemId : String) : List AttemptRow :=
  sortBy (fun a b => decide (a.ordinal ≤ b.ordinal)) (t.attempts.filter (fun a => a.workItemId == itemId))

def Tables.maxOrdinal (t : Tables) (itemId : String) : Nat :=
  ((t.attempts.filter (fun a => a.workItemId == itemId)).map AttemptRow.ordinal).foldl max 0

structure CampaignAttemptSessionObservation where
  status : SessionStatus
  archived : Bool
  held : Bool
  pendingRequests : Nat
deriving DecidableEq

def observeSession (t : Tables) (h : Hooks) (sessionId : String) : Option CampaignAttemptSessionObservation :=
  (t.sessions.get sessionId).map (fun s => ⟨s.status, s.archived, h.held sessionId, h.pendingRequests sessionId⟩)

def openedStatus (attemptId : String) (at_ : Int) (session : Option CampaignAttemptSessionObservation) : AttemptStatusRow :=
  ⟨attemptId, at_, session.map CampaignAttemptSessionObservation.status, (session.map CampaignAttemptSessionObservation.archived).getD false⟩

section

variable (h : Hooks) (campaignId actorSessionId : String) (now : Int)

/-- The child already holds the item: its attempt stays, and a handoff recorded meanwhile is cleared. -/
def keepAttempt (itemId : String) (open_ : AttemptRow) : Ledger AssignResult := do
  let t ← Tx.read
  if (t.handoffs.get itemId).isSome then do
    Tx.write (fun t => (t.clearHandoff itemId).touchItem itemId now)
    let revision ← bump campaignId now none
    pure ⟨revision, open_, [], false⟩
  else pure ⟨t.revision campaignId, open_, [], false⟩

def newAttempt (t : Tables) (itemId childSessionId : String) (snapshot : CampaignAttemptSessionSnapshot) (id : String) : AttemptRow :=
  ⟨id, campaignId, itemId, t.maxOrdinal itemId + 1, some childSessionId, snapshot, some actorSessionId, now, h.boundary childSessionId,
    none⟩

def openAttempt (uuid : Uuid) (itemId childSessionId : String) (snapshot : CampaignAttemptSessionSnapshot)
    (closed : List ClosedAttempt) : Ledger AssignResult := do
  let t ← Tx.read
  Tx.write (fun t => match t.openAttemptForItem itemId with
    | none => t
    | some itemOpen => closeAttempt h itemOpen .superseded now none t)
  let closed := closed ++ ((t.openAttemptForItem itemId).map (fun a => ClosedAttempt.mk a.id itemId .superseded)).toList
  let t ← Tx.read
  let attempt := newAttempt h campaignId actorSessionId now t itemId childSessionId snapshot (newId "catt_" uuid)
  insertAttempt attempt (openedStatus attempt.id now (observeSession t h childSessionId))
  Tx.write (fun t => (t.clearHandoff itemId).touchItem itemId now)
  let revision ← bump campaignId now none
  pure ⟨revision, attempt, closed, true⟩

def assignWork (uuid : Uuid) (workItemId childSessionId : String) (snapshot : CampaignAttemptSessionSnapshot) : Ledger AssignResult := do
  let t ← Tx.read
  match assignableItem t h campaignId workItemId with
  | .error e => Tx.refuse e
  | .ok item =>
    match t.openAttemptForSession childSessionId with
    | none => openAttempt h campaignId actorSessionId now uuid item.id childSessionId snapshot []
    | some open_ =>
      if open_.workItemId = item.id then keepAttempt campaignId now item.id open_
      else if open_.campaignSessionId ≠ campaignId then
        Tx.refuse (fail "the session has an open attempt in another campaign" 409)
      else do
        Tx.write (closeAttempt h open_ .reassigned now none)
        openAttempt h campaignId actorSessionId now uuid item.id childSessionId snapshot
          [⟨open_.id, open_.workItemId, .reassigned⟩]

def assign (uuid : Uuid) (workItemId childSessionId : String) (snapshot : CampaignAttemptSessionSnapshot) : Ledger AssignResult :=
  transact h campaignId (assignWork h campaignId actorSessionId now uuid workItemId childSessionId snapshot)

/-- The attempt to verify, and the record of the same verification when there is one. -/
def verificationTarget (t : Tables) (workItemId childSessionId : String) (outcome : VerificationOutcome) (report : ReportIdentity) :
    Except LedgerError (AttemptRow × Option VerificationRow) :=
  match t.item campaignId workItemId with
  | none => .error (fail "work item not found in this campaign" 404)
  | some item =>
    match (t.attemptRows item.id).getLast? with
    | none => .error (fail "the child has no open attempt on this work item; assign it first" 409)
    | some latest =>
      let existing := if latest.sessionId = some childSessionId then
          -- the latest by `verified_at`; which of several is found only shows in the view returned
          (sortBy (fun a b => decide (b.verifiedAt ≤ a.verifiedAt)) (t.verifications.filter (fun v => v.attemptId == latest.id &&
            decide (v.outcome = outcome) && decide (v.report.seq = report.seq) && decide (v.report.eventEpoch = report.eventEpoch) &&
            decide (v.report.digest = report.digest)))).head?
        else none
      match existing with
      | some existing => .ok (latest, some existing)
      | none =>
        if latest.ended.isSome ∨ latest.sessionId ≠ some childSessionId then
          .error (fail "the child has no open attempt on this work item; assign it first" 409)
        else .ok (latest, none)

structure VerificationInput where
  workItemId : String
  childSessionId : String
  outcome : VerificationOutcome
  report : ReportIdentity
  verifiedBySessionId : String
deriving DecidableEq

structure VerificationResult where
  revision : Nat
  verification : VerificationRow
deriving DecidableEq

def newVerification (input : VerificationInput) (attemptId id : String) : VerificationRow :=
  ⟨id, campaignId, input.workItemId, attemptId, some input.childSessionId, input.outcome, input.report,
    some input.verifiedBySessionId, now⟩

def verificationWork (uuid : Uuid) (input : VerificationInput) : Ledger VerificationResult := do
  let t ← Tx.read
  match verificationTarget campaignId t input.workItemId input.childSessionId input.outcome input.report with
  | .error e => Tx.refuse e
  | .ok (_, some existing) => pure ⟨t.revision campaignId, existing⟩
  | .ok (attempt, none) => do
    let row := newVerification campaignId now input attempt.id (newId "cwv_" uuid)
    insertVerification row
    Tx.write (if input.outcome = .delivered then closeAttempt h attempt .delivered now none else Tables.touchItem input.workItemId now)
    let revision ← bump campaignId now none
    pure ⟨revision, row⟩

def recordVerification (uuid : Uuid) (input : VerificationInput) : Ledger VerificationResult :=
  transact h campaignId (verificationWork h campaignId now uuid input)

end

/-! ## Recording a delivery -/

structure ReportEvidence where
  childSessionId : String
  report : ReportIdentity
deriving DecidableEq

structure CampaignDeliveryEvidence where
  workItemId : String
  pullRequests : List DeliveredPullRequest
  report : Option ReportEvidence
  note : Option String
deriving DecidableEq

def sameEpoch (report : Option Int) (epoch : Option Int) : Bool := epoch.isSome && report.isSome && decide (epoch = report)

def windowHolds (report : ReportIdentity) (candidate : AttemptRow) : Bool :=
  candidate.ended.all (fun e => decide (e.reason ≠ .abandoned) && decide (e.reason ≠ .failed)) &&
    sameEpoch report.eventEpoch candidate.start.eventEpoch && decide (candidate.start.seq.getD 0 < report.seq) &&
    candidate.ended.all (fun e => sameEpoch report.eventEpoch e.boundary.eventEpoch && e.boundary.seq.any (fun s => decide (report.seq ≤ s)))

/-- The child's attempt on this item whose event window holds the exact report, or the refusal. -/
def reportAttempt (t : Tables) (itemId : String) (report : ReportEvidence) : Except LedgerError AttemptRow :=
  let attempts := (t.attemptRows itemId).filter (fun a => a.sessionId == some report.childSessionId)
  if attempts.isEmpty then .error (fail "the child never had an attempt on this work item" 409)
  else match attempts.find? (windowHolds report.report) with
    | none => .error (fail ("the report is not inside the child's attempt on this work item (an attempt ended as abandoned or " ++
        "failed does not count, and history replaced since the attempt cannot be matched)") 409)
    | some attempt => .ok attempt

def Tables.deliveryRows (t : Tables) (itemId : String) : List DeliveryRow :=
  sortBy (fun a b => decide (a.recordedAt ≤ b.recordedAt)) (t.deliveries.filter (fun d => d.workItemId == itemId))

/-- The item's latest recorded delivery while it still holds: no attempt opened after it. -/
def currentDelivery (rows : List DeliveryRow) (latest : Option AttemptRow) : Option DeliveryRow :=
  rows.getLast?.filter (fun d => d.afterOrdinal == (latest.map AttemptRow.ordinal).getD 0)

def deliveryKey (pullRequests : List DeliveredPullRequest) (report : Option ReportEvidence) : EvidenceKey :=
  ⟨sortTexts (pullRequests.map (fun p => forgeRefKeyOf p.ref)),
    report.map (fun r => (r.childSessionId, r.report.seq, r.report.eventEpoch))⟩

structure DeliveryResult where
  revision : Nat
  deliveryId : String
  itemId : String
deriving DecidableEq

section

variable (h : Hooks) (campaignId actorSessionId : String) (now : Int)

def addReport (uuid : Uuid) (itemId attemptId : String) (evidence : ReportEvidence) : Ledger Unit := do
  let t ← Tx.read
  if t.verifications.any (fun v => v.attemptId == attemptId && decide (v.outcome = .delivered) &&
      decide (v.report.seq = evidence.report.seq) && decide (v.report.eventEpoch = evidence.report.eventEpoch) &&
      decide (v.report.digest = evidence.report.digest)) then pure ()
  else insertVerification ⟨newId "cwv_" uuid, campaignId, itemId, attemptId, some evidence.childSessionId, .delivered,
    evidence.report, some actorSessionId, now⟩

def evidenceAttempt (t : Tables) (itemId : String) : Option ReportEvidence → Except LedgerError (Option AttemptRow)
  | none => .ok none
  | some report => (reportAttempt t itemId report).map some

def newDelivery (item : ItemRow) (evidence : CampaignDeliveryEvidence) (pullRequests : List DeliveredPullRequest)
    (latest reported : Option AttemptRow) (id : String) : DeliveryRow where
  id := id
  campaignSessionId := campaignId
  workItemId := item.id
  afterOrdinal := (latest.map AttemptRow.ordinal).getD 0
  pullRequests := pullRequests
  reportChildSessionId := evidence.report.map ReportEvidence.childSessionId
  reportAttemptId := reported.map AttemptRow.id
  reportSeq := evidence.report.map (fun r => r.report.seq)
  evidenceKey := deliveryKey pullRequests evidence.report
  note := evidence.note
  recordedBy := some actorSessionId
  recordedAt := now

def closeDelivered (deliveryId : String) (reported : Option AttemptRow) (open_ : Option AttemptRow) (t : Tables) : Tables :=
  match open_ with
  | none => t
  | some open_ =>
    if reported.map AttemptRow.id = some open_.id then closeAttempt h open_ .delivered now none t
    else closeAttempt h open_ .superseded now (some ("delivery recorded as " ++ deliveryId)) t

/-- Writes what the evidence proves: the delivery, the report's verification and the end of the open attempt. -/
def writeDelivery (uuids : Nat → Uuid) (item : ItemRow) (evidence : CampaignDeliveryEvidence)
    (pullRequests : List DeliveredPullRequest) (attempts : List AttemptRow) (reported : Option AttemptRow) : Ledger DeliveryResult := do
  let row := newDelivery campaignId actorSessionId now item evidence pullRequests attempts.getLast? reported (newId "cwd_" (uuids 0))
  insertDelivery row
  match evidence.report, reported with
  | some report, some attempt => addReport campaignId actorSessionId now (uuids 1) item.id attempt.id report
  | _, _ => pure ()
  Tx.write (fun t => (closeDelivered h now row.id reported (attempts.find? (fun a => a.ended.isNone)) t).touchItem item.id now)
  let revision ← bump campaignId now none
  pure ⟨revision, row.id, item.id⟩

def deliveryWork (uuids : Nat → Uuid) (evidence : CampaignDeliveryEvidence) : Ledger DeliveryResult := do
  let t ← Tx.read
  match t.item campaignId evidence.workItemId with
  | none => Tx.refuse (fail "work item not found in this campaign" 404)
  | some item =>
    Tx.refuseIf (if item.commitment ≠ .committed then some (notDeliverable item.commitment "delivered") else none)
    let pullRequests := First.firstBy (fun p => forgeRefKeyOf p.ref) evidence.pullRequests
    Tx.refuseIf (if pullRequests.isEmpty && evidence.report.isNone then
        some (fail "delivery needs pull requests, a report, or both" 400)
      else none)
    let attempts := t.attemptRows item.id
    let latest := attempts.getLast?
    let current := currentDelivery (t.deliveryRows item.id) latest
    match current.filter (fun d => d.evidenceKey == deliveryKey pullRequests evidence.report) with
    | some same => pure ⟨t.revision campaignId, same.id, item.id⟩
    | none =>
      Tx.refuseIf (if current.isSome || latest.any (fun a =>
          t.verifications.any (fun v => v.attemptId == a.id && decide (v.outcome = .delivered))) then
          some (fail "the work item is already delivered" 409)
        else none)
      match evidenceAttempt t item.id evidence.report with
      | .error e => Tx.refuse e
      | .ok reported => writeDelivery h campaignId actorSessionId now uuids item evidence pullRequests attempts reported

def recordDelivery (uuids : Nat → Uuid) (evidence : CampaignDeliveryEvidence) : Ledger DeliveryResult :=
  transact h campaignId (deliveryWork h campaignId actorSessionId now uuids evidence)

end

end Wollipog.Ledger

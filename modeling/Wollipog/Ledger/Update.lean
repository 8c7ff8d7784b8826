import Wollipog.Ledger.Plan
/-!
# Update — changing one work item

An update sets the columns whose value changes, replaces the item's handoff and its dependencies, and ends its open
attempt.
-/
namespace Wollipog.Ledger

open Authority (CampaignIssueRef campaignRepositoryLocation)

structure CommitmentRequest where
  state : CommitmentState
  reason : Option String
deriving DecidableEq

structure StageRequest where
  stage : ReportedStageKind
  note : Option String
  pullRequests : Option (List CampaignPullRequestRef)
deriving DecidableEq

structure BlockerRequest where
  reason : String
  responsibleActor : ResponsibleActor
  requestOccurrenceId : Option String
deriving DecidableEq

structure HandoffRequest where
  responsibleActor : ResponsibleActor
  reason : String
  nextAction : String
deriving DecidableEq

structure EndAttemptRequest where
  reason : AttemptEndReason
  note : Option String
deriving DecidableEq

/-- A field is absent, or given; where the source takes `null` too, given and empty. -/
structure UpdateCampaignWorkItemRequest where
  workItemId : String
  title : Option (Option String)
  issue : Option (Option CampaignIssueRef)
  dispatchState : Option DispatchState
  queuePosition : Option (Option Int)
  dependsOn : Option (List String)
  commitment : Option CommitmentRequest
  stage : Option (Option StageRequest)
  blocker : Option (Option BlockerRequest)
  nextAction : Option (Option String)
  handoff : Option (Option HandoffRequest)
  endAttempt : Option EndAttemptRequest
deriving DecidableEq

structure UpdateResult where
  revision : Nat
  itemId : String
deriving DecidableEq

def UpdateCampaignWorkItemRequest.hasField (r : UpdateCampaignWorkItemRequest) : Bool :=
  r.title.isSome || r.issue.isSome || r.dispatchState.isSome || r.queuePosition.isSome || r.dependsOn.isSome ||
    r.commitment.isSome || r.stage.isSome || r.blocker.isSome || r.nextAction.isSome || r.handoff.isSome || r.endAttempt.isSome

def commitmentChecks (c : CommitmentRequest) : List (Bool × LedgerError) :=
  [(c.reason.any (fun reason => !boundedText reason textLength),
      fail ("commitment.reason must be at most " ++ toString textLength ++ " characters") 400),
    (decide (c.state ≠ .committed) && c.reason.isNone, fail "cancelling or removing an item requires commitment.reason" 400)]

def stageChecks (s : StageRequest) : List (Bool × LedgerError) :=
  [(s.note.any (fun note => !boundedText note textLength), fail "stage.note is too long" 400),
    (s.pullRequests.any (fun refs => !validPullRequests refs),
      fail ("stage.pullRequests must list at most " ++ toString pullRequestsPerStage ++ " refs, each " ++ refShape) 400)]

def blockerChecks (b : BlockerRequest) : List (Bool × LedgerError) :=
  [(!boundedText b.reason textLength,
      fail "blocker requires reason and responsibleActor (human, orchestrator, child, or external)" 400),
    (b.requestOccurrenceId.any (fun id => !boundedText id 256), fail "blocker.requestOccurrenceId must be bounded" 400)]

def updateRefusal (r : UpdateCampaignWorkItemRequest) : Option LedgerError :=
  firstRefusal ([
    (!boundedText r.workItemId 256, fail "workItemId is required" 400),
    (!r.hasField, fail "no field to update" 400),
    (r.title.any (fun title => title.any (fun title => !boundedText title titleLength)),
      fail ("title must be at most " ++ toString titleLength ++ " characters") 400),
    (r.issue.any (fun issue => issue.any (fun issue => !validIssue issue)), fail ("issue must be " ++ refShape) 400),
    (r.queuePosition.any (fun position => !validQueuePosition position),
      fail "queuePosition must be a non-negative integer or null" 400),
    (r.dependsOn.any (fun ids => !ids.all (fun id => boundedText id 256)), fail "dependsOn must be a list of work item ids" 400)] ++
    (r.commitment.map commitmentChecks).getD [] ++ (r.stage.join.map stageChecks).getD [] ++
    (r.blocker.join.map blockerChecks).getD [] ++ [
    (r.nextAction.any (fun next => next.any (fun next => !boundedText next textLength)),
      fail ("nextAction must be at most " ++ toString textLength ++ " characters") 400),
    (r.handoff.any (fun handoff => handoff.any (fun handoff =>
        !boundedText handoff.reason textLength || !boundedText handoff.nextAction textLength)),
      fail ("handoff requires responsibleActor (human, orchestrator, child, or external), reason, and nextAction, each at most " ++
        toString textLength ++ " characters") 400),
    (r.endAttempt.any (fun e => decide (e.reason ≠ .abandoned) && decide (e.reason ≠ .failed) ||
        e.note.any (fun note => !boundedText note textLength)),
      fail "endAttempt.reason must be abandoned or failed" 400)])

/-! ## The columns -/

def sameStage (item : ItemRow) : Option StageRequest → Bool
  | none => item.stage.isNone
  | some s => item.stage.any (fun current => decide (current.stage = s.stage) && decide (current.note = s.note.map Js.trim) &&
      decide (current.pullRequests = s.pullRequests.getD []))

def sameBlocker (item : ItemRow) : Option BlockerRequest → Bool
  | none => item.blocker.isNone
  | some b => item.blocker.any (fun current => decide (current.reason = Js.trim b.reason) && decide (current.actor = b.responsibleActor) &&
      decide (current.requestOccurrenceId = b.requestOccurrenceId))

section

variable (actorSessionId : String) (now : Int) (item : ItemRow) (r : UpdateCampaignWorkItemRequest)

def newStage (s : StageRequest) : ReportedStage := ⟨s.stage, s.note.map Js.trim, s.pullRequests.getD [], some actorSessionId, now⟩

def newBlocker (b : BlockerRequest) : Blocker :=
  ⟨Js.trim b.reason, b.responsibleActor, b.requestOccurrenceId, now, some actorSessionId⟩

def setTitle : Option (ItemRow → ItemRow) :=
  match r.title.map (fun title => title.map Js.trim) with
  | none => none
  | some title => if title = item.title then none else some (fun row => { row with title := title })

def setIssue : Option (ItemRow → ItemRow) :=
  match r.issue with
  | none => none
  | some issue => if issue = item.issue then none else some (fun row => { row with issue := issue })

def setDispatchState : Option (ItemRow → ItemRow) :=
  match r.dispatchState with
  | none => none
  | some state => if state = item.dispatchState then none else some (fun row => { row with dispatchState := state })

def setQueuePosition : Option (ItemRow → ItemRow) :=
  match r.queuePosition with
  | none => none
  | some position => if position = item.queuePosition then none else some (fun row => { row with queuePosition := position })

def setNextAction : Option (ItemRow → ItemRow) :=
  match r.nextAction.map (fun next => next.map Js.trim) with
  | none => none
  | some next => if next = item.nextAction then none else some (fun row => { row with nextAction := next })

def setCommitment : Option (ItemRow → ItemRow) :=
  match r.commitment with
  | none => none
  | some c =>
    if c.state = item.commitment ∧ c.reason.map Js.trim = item.commitmentReason then none
    else some (fun row => { row with
      commitment := c.state, commitmentReason := c.reason.map Js.trim, commitmentChangedAt := now
      commitmentChangedBy := some actorSessionId })

def setStage : Option (ItemRow → ItemRow) :=
  match r.stage with
  | none => none
  | some stage => if sameStage item stage then none else some (fun row => { row with stage := stage.map (newStage actorSessionId now) })

def setBlocker : Option (ItemRow → ItemRow) :=
  match r.blocker with
  | none => none
  | some blocker =>
    if sameBlocker item blocker then none else some (fun row => { row with blocker := blocker.map (newBlocker actorSessionId now) })

def updateSets : List (ItemRow → ItemRow) :=
  [setTitle item r, setIssue item r, setDispatchState item r, setQueuePosition item r, setNextAction item r,
    setCommitment actorSessionId now item r, setStage actorSessionId now item r, setBlocker actorSessionId now item r].filterMap id

end

def closeAttempt (h : Hooks) (attempt : AttemptRow) (reason : AttemptEndReason) (now : Int) (note : Option String) (t : Tables) :
    Tables :=
  let boundary := (attempt.sessionId.map h.boundary).getD ⟨none, none, none⟩
  (t.endAttempt attempt.id ⟨now, boundary, reason, note⟩).touchItem attempt.workItemId now

def Tables.setHandoff (itemId : String) (row : HandoffRow) (t : Tables) : Tables := { t with handoffs := t.handoffs.set itemId row }

def Tables.clearHandoff (itemId : String) (t : Tables) : Tables := { t with handoffs := t.handoffs.erase itemId }

section

variable (h : Hooks) (campaignId actorSessionId : String) (now : Int)

def updateHandoff (itemId : String) : Option (Option HandoffRequest) → Ledger Bool
  | none => pure false
  | some none => do
    let t ← Tx.read
    Tx.write (Tables.clearHandoff itemId)
    pure (t.handoffs.get itemId).isSome
  | some (some handoff) => do
    let t ← Tx.read
    let same := (t.handoffs.get itemId).any (fun current => decide (current.responsibleActor = handoff.responsibleActor) &&
      decide (current.reason = Js.trim handoff.reason) && decide (current.nextAction = Js.trim handoff.nextAction))
    if same then pure false
    else do
      Tx.write (Tables.setHandoff itemId
        ⟨((t.handoffs.get itemId).map HandoffRow.campaignSessionId).getD campaignId, handoff.responsibleActor,
          Js.trim handoff.reason, Js.trim handoff.nextAction, now, some actorSessionId⟩)
      pure true

def updateDependencies (itemId : String) : Option (List String) → Ledger Bool
  | none => pure false
  | some dependsOn => do
    let changed ← replaceDependencies h campaignId [⟨itemId, "dependsOn", dependsOn⟩]
    pure (!changed.isEmpty)

/-- Ends the open attempt when the request says so, or cancels or removes the item; whether that is a change. -/
def updateAttempt (itemId : String) (r : UpdateCampaignWorkItemRequest) : Ledger Bool := do
  let t ← Tx.read
  match r.endAttempt, t.openAttemptForItem itemId with
  | some _, none => Tx.refuse (fail "the work item has no open attempt to end" 409)
  | some end_, some open_ => do
    Tx.write (closeAttempt h open_ end_.reason now (end_.note.map Js.trim))
    pure true
  | none, open_ =>
    match open_, r.commitment with
    | some open_, some c =>
      if c.state ≠ .committed then do
        Tx.write (closeAttempt h open_ .abandoned now none)
        pure true
      else pure false
    | _, _ => pure false

def updateWork (r : UpdateCampaignWorkItemRequest) : Ledger UpdateResult := do
  let t ← Tx.read
  match t.item campaignId r.workItemId with
  | none => Tx.refuse (fail "work item not found in this campaign" 404)
  | some item =>
    let issue := r.issue.getD item.issue
    Tx.refuseIf ((followUpRevision h campaignId item ((r.title.map (fun title => title.map Js.trim)).getD item.title) issue).or
      (retargetRefusal t h campaignId item issue))
    let sets := updateSets actorSessionId now item r
    let handoff ← updateHandoff campaignId actorSessionId now item.id r.handoff
    let dependencies ← updateDependencies h campaignId item.id r.dependsOn
    let attempt ← updateAttempt h now item.id r
    if sets.isEmpty && !handoff && !dependencies && !attempt then do
      let t ← Tx.read
      pure ⟨t.revision campaignId, item.id⟩
    else do
      Tx.write (Tables.reviseItem item.id (setIssue item r).isSome (fun row =>
        { sets.foldl (fun row set => set row) row with updatedAt := now }))
      let revision ← bump campaignId now none
      pure ⟨revision, item.id⟩

def updateItem (r : UpdateCampaignWorkItemRequest) : Ledger UpdateResult := do
  Tx.refuseIf (updateRefusal r)
  transact h campaignId (updateWork h campaignId actorSessionId now r)

end

end Wollipog.Ledger

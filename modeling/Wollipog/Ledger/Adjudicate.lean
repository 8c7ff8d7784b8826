import Wollipog.Ledger.Attempts
/-!
# Adjudicate — recommendations and the items that come of them

Accepting a recommendation creates or links the work item that results; recording a recommendation notes the items it
came of.
-/
namespace Wollipog.Ledger

open Authority (CampaignIssueRef campaignRepositoryLocation)

structure AdjudicateRequest where
  recommendationId : String
  disposition : Disposition
  reason : String
  resultingWorkItemKey : Option String
  resultingIssue : Option CampaignIssueRef
  publicationRequired : Option Bool
deriving DecidableEq

structure AdjudicateResult where
  revision : Nat
  recommendationId : String
  workItemId : Option String
deriving DecidableEq

def adjudicateRefusal (r : AdjudicateRequest) : Option LedgerError :=
  firstRefusal [
    (!boundedText r.recommendationId 256, fail "recommendationId is required" 400),
    (!boundedText r.reason textLength, fail ("reason is required (at most " ++ toString textLength ++ " characters)") 400),
    (r.resultingWorkItemKey.any (fun key => !boundedText key keyLength), fail "resultingWorkItemKey must be bounded" 400),
    (r.resultingIssue.any (fun issue => !validIssue issue), fail ("resultingIssue must be " ++ refShape) 400),
    (decide (r.disposition ≠ .accepted) && (r.resultingIssue.isSome || r.publicationRequired.isSome),
      fail "resultingIssue and publicationRequired apply only to an accepted recommendation" 400),
    ((decide (r.disposition = .rejected) || decide (r.disposition = .deferred)) && r.resultingWorkItemKey.isSome,
      fail "a rejected or deferred recommendation has no resulting work item" 400)]

section

variable (h : Hooks) (campaignId actorSessionId : String) (now : Int)

def linkedKey (t : Tables) (recommendationId : String) : Option String :=
  match (t.dispositions.get recommendationId).filter (fun d => decide (d.disposition = .accepted)) with
  | none => none
  | some d => d.resultingWorkItemId.bind (fun id => (t.items.find? (fun r => r.id == id)).map ItemRow.itemKey)

def resultingKey (t : Tables) (r : AdjudicateRequest) : String :=
  match r.resultingWorkItemKey with
  | some key => key
  | none => (linkedKey t r.recommendationId).getD (match r.resultingIssue with
    | some issue => issue.repository ++ "#" ++ toString issue.number
    | none => "followup:" ++ r.recommendationId)

def originGeneration (t : Tables) (recommendationId : String) : Int :=
  ((t.items.filter (fun item => t.origins.any (fun o => o.recommendationId == recommendationId && o.workItemId == item.id))).map
    ItemRow.generation).foldl (fun (found : Option Int) g => some ((found.map (fun f => max f g)).getD g)) none |>.getD 0

def newFollowUp (t : Tables) (recommendation : FollowUpRow) (r : AdjudicateRequest) (id key : String) : ItemRow where
  id := id
  campaignSessionId := campaignId
  itemKey := key
  title := some (Js.slice titleLength recommendation.title)
  issue := r.resultingIssue
  origin := .followUp
  generation := originGeneration t recommendation.id + 1
  dispatchState := .planned
  queuePosition := none
  commitment := .committed
  commitmentReason := none
  commitmentChangedAt := now
  commitmentChangedBy := some actorSessionId
  stage := none
  blocker := none
  nextAction := none
  createdBySessionId := some actorSessionId
  createdAt := now
  updatedAt := now

def issueText (issue : CampaignIssueRef) : String := issue.repository ++ "#" ++ toString issue.number

def linkExisting (r : AdjudicateRequest) (key : String) (existing : ItemRow) : Ledger (Option String × Bool) := do
  Tx.refuseIf (if existing.origin ≠ .followUp then
      some (fail ("work item " ++ key ++ " is original scope; adjudicate the recommendation as duplicate instead") 409)
    else none)
  match r.resultingIssue, existing.issue with
  | some issue, some current => do
    Tx.refuseIf (if Js.lower current.repository ≠ Js.lower issue.repository ∨ current.number ≠ issue.number then
        some (fail ("work item " ++ key ++ " already tracks " ++ issueText current) 409)
      else none)
    pure (some existing.id, false)
  | some issue, none => do
    Tx.write (Tables.reviseItem existing.id true (fun row => { row with issue := some issue, updatedAt := now }))
    pure (some existing.id, true)
  | none, _ => pure (some existing.id, false)

def acceptedItem (uuid : Uuid) (recommendation : FollowUpRow) (r : AdjudicateRequest) : Ledger (Option String × Bool) := do
  let t ← Tx.read
  let key := resultingKey t r
  match t.itemByKey campaignId key with
  | some existing => linkExisting now r key existing
  | none => do
    Tx.refuseIf (if workItemsPerCampaign ≤ (t.items.filter (fun r => r.campaignSessionId == campaignId)).length then
        some (fail ("a campaign may hold at most " ++ toString workItemsPerCampaign ++ " work items") 409)
      else none)
    let row := newFollowUp campaignId actorSessionId now t recommendation r (newId "cwi_" uuid) key
    insertItem row
    pure (some row.id, true)

def resultingItem (uuid : Uuid) (recommendation : FollowUpRow) (r : AdjudicateRequest) : Ledger (Option String × Bool) :=
  match r.disposition, r.resultingWorkItemKey with
  | .accepted, _ => acceptedItem campaignId actorSessionId now uuid recommendation r
  | .duplicate, some key => do
    let t ← Tx.read
    match t.itemByKey campaignId key with
    | none => Tx.refuse (fail ("no work item has key " ++ key) 404)
    | some existing => pure (some existing.id, false)
  | _, _ => pure (none, false)

def admissionRefusal (t : Tables) (recommendation : FollowUpRow) (r : AdjudicateRequest) (workItemId : Option String) :
    Option LedgerError :=
  match r.disposition, workItemId with
  | .accepted, some id =>
    match t.item campaignId id with
    | none => some .constraint
    | some admitted => (h.acceptFollowUp campaignId id (.recommendation recommendation.id) ⟨admitted.title, admitted.issue⟩).map
        (fun refused => .refusal refused.error 409 refused.details)
  | _, _ => none

def newDisposition (r : AdjudicateRequest) (workItemId : Option String) : DispositionRow :=
  ⟨r.disposition, Js.trim r.reason, r.publicationRequired != some false, r.resultingIssue, workItemId, some actorSessionId, now⟩

def sameDisposition (a b : DispositionRow) : Bool :=
  decide (a.disposition = b.disposition) && decide (a.reason = b.reason) && decide (a.publicationRequired = b.publicationRequired) &&
    decide (a.resultingIssue = b.resultingIssue) && decide (a.resultingWorkItemId = b.resultingWorkItemId)

def adjudicateWork (uuid : Uuid) (r : AdjudicateRequest) : Ledger AdjudicateResult := do
  let t ← Tx.read
  match t.followUps.find? (fun f => f.id == r.recommendationId && f.campaignSessionId == campaignId) with
  | none => Tx.refuse (fail "recommendation not found in this campaign" 404)
  | some recommendation =>
    Tx.refuseIf (match recommendation.duplicateOf.filter (fun id => id != "") with
      | none => none
      | some other => if r.disposition = .duplicate then none
        else some (fail ("this recommendation duplicates " ++ other ++ "; adjudicate that one instead") 409))
    let result ← resultingItem campaignId actorSessionId now uuid recommendation r
    let t ← Tx.read
    Tx.refuseIf (admissionRefusal h campaignId t recommendation r result.1)
    let next := newDisposition actorSessionId now r result.1
    if (t.dispositions.get recommendation.id).any (fun previous => sameDisposition previous next) then do
      let revision ← bumpIf result.2 campaignId now none
      pure ⟨revision, recommendation.id, result.1⟩
    else do
      Tx.write (Tables.setDisposition recommendation.id next)
      let revision ← bump campaignId now none
      pure ⟨revision, recommendation.id, result.1⟩

def adjudicate (uuid : Uuid) (r : AdjudicateRequest) : Ledger AdjudicateResult := do
  Tx.refuseIf (adjudicateRefusal r)
  transact h campaignId (adjudicateWork h campaignId actorSessionId now uuid r)

end

end Wollipog.Ledger

import Wollipog.Ledger.Rows
import Wollipog.Lib.First
import Wollipog.Scope.Issues
/-!
# Merge — what a merge waits for

A dependency on an item in another repository is met once every pull request that the item names is observed merged.
-/
namespace Wollipog.Ledger

open Authority (CampaignIssueRef campaignRepositoryLocation)
open Scope (sortBy)
open First (firstBy)

inductive ForgeState | opened | closed | merged
deriving DecidableEq

structure CampaignForgeObservation where
  state : ForgeState
  headSha : String
  mergeCommitSha : Option String
deriving DecidableEq

inductive UnavailableReason
  | notCollected | sessionDeleted | notAuthorized | notObserved | runnerDisconnected | runnerUnsupported | forgeCliMissing
  | forgeUnauthenticated | forgeUnreachable | forgeUnsupported | forgeNotFound | forgeRateLimited | forgeError
deriving DecidableEq

inductive ForgeFact
  | fresh (value : CampaignForgeObservation) (observedAt : Int)
  | stale (value : CampaignForgeObservation) (observedAt : Int)
  | unavailable (reason : UnavailableReason) (last : Option (CampaignForgeObservation × Int))
deriving DecidableEq

/-- What a follow-up admission binds: the work item's title and the issue it tracks. -/
structure CampaignFollowUpContent where
  title : Option String
  issue : Option CampaignIssueRef
deriving DecidableEq

inductive CampaignFollowUpSubject
  | workItem (key : String)
  | recommendation (recommendationId : String)
deriving DecidableEq

structure Refused where
  error : String
  details : List (String × String)
deriving DecidableEq

structure ArmedMerge where
  sessionId : String
  pullRequest : CampaignPullRequestRef
deriving DecidableEq

structure ConsumedMerge where
  sessionId : String
  createdAt : Int
  repository : String
  pullRequest : Int
  headSha : String
  intendedClosures : List String
deriving DecidableEq

/-- The answers of the control plane around one call.  `armedMerges` is keyed by the occurrence. -/
structure Hooks where
  armedMerges : String → OrdMap String ArmedMerge
  armedMerge : String → Bool
  admitDispatch : String → Option CampaignIssueRef → Option String
  acceptFollowUp : String → String → CampaignFollowUpSubject → CampaignFollowUpContent → Option Refused
  reviseFollowUp : String → String → CampaignFollowUpContent → Option Refused
  sessionRepository : String → String → Option String
  campaignRepositories : String → List String
  forgePullRequest : String → String → ForgeFact
  consumedPullRequestMerges : List String → List ConsumedMerge
  boundary : String → CampaignAttemptBoundary
  held : String → Bool
  pendingRequests : String → Nat

def refKey (repository : String) (number : Int) : String := Js.lower repository ++ "#" ++ toString number

def forgeRefKeyOf (ref : CampaignPullRequestRef) : String := refKey ref.repository ref.number

/-- Pull requests in first-seen order, one per repository (case-insensitive) and number. -/
def uniquePullRequests (refs : List CampaignPullRequestRef) : List CampaignPullRequestRef := firstBy forgeRefKeyOf refs

def DeliveredPullRequest.ref (p : DeliveredPullRequest) : CampaignPullRequestRef := ⟨p.repository, p.number⟩

def stagePullRequests (item : ItemRow) : List CampaignPullRequestRef :=
  uniquePullRequests ((item.stage.map ReportedStage.pullRequests).getD [])

/-- Every pull request an item names: its reported stage's, then its recorded deliveries'. -/
def namedPullRequests (item : ItemRow) (deliveries : List DeliveryRow) : List CampaignPullRequestRef :=
  uniquePullRequests (stagePullRequests item ++ deliveries.flatMap (fun d => d.pullRequests.map DeliveredPullRequest.ref))

def byCreation (a b : ItemRow) : Bool := decide (a.createdAt < b.createdAt) || decide (a.createdAt = b.createdAt) && decide (a.id ≤ b.id)

namespace Tables

variable (t : Tables)

def itemsOf (campaignId : String) : List ItemRow := sortBy byCreation (t.items.filter (fun r => r.campaignSessionId == campaignId))

def attemptsOf (campaignId itemId : String) : List AttemptRow :=
  sortBy (fun a b => decide (a.ordinal ≤ b.ordinal))
    (t.attempts.filter (fun a => a.campaignSessionId == campaignId && a.workItemId == itemId))

def latestAttempt (campaignId itemId : String) : Option AttemptRow := (t.attemptsOf campaignId itemId).getLast?

def verificationsOf (campaignId itemId : String) : List VerificationRow :=
  sortBy (fun a b => decide (a.verifiedAt < b.verifiedAt) || decide (a.verifiedAt = b.verifiedAt) && decide (a.id ≤ b.id))
    (t.verifications.filter (fun v => v.campaignSessionId == campaignId && v.workItemId == itemId))

def deliveriesOf (campaignId itemId : String) : List DeliveryRow :=
  sortBy (fun a b => decide (a.recordedAt ≤ b.recordedAt))
    (t.deliveries.filter (fun d => d.campaignSessionId == campaignId && d.workItemId == itemId))

def dependsOn (campaignId itemId : String) : List String :=
  if (t.item campaignId itemId).isSome then (t.dependencies.filter (fun d => d.workItemId == itemId)).map DependencyRow.dependsOnId
  else []

end Tables

/-- What places an item: where its latest child works, what it names and what it tracks. -/
structure ItemInput where
  placement : Option String
  pullRequests : List CampaignPullRequestRef
  issue : Option CampaignIssueRef
deriving DecidableEq

def itemInput (t : Tables) (h : Hooks) (campaignId : String) (item : ItemRow) : ItemInput where
  placement := ((t.latestAttempt campaignId item.id).bind AttemptRow.sessionId).bind (h.sessionRepository campaignId)
  pullRequests := namedPullRequests item (t.deliveriesOf campaignId item.id)
  issue := item.issue

def given (s : Option String) : Option String := s.filter (fun s => s != "")

def campaignItemRepository (input : ItemInput) : Option String :=
  (given ((input.placement.or (input.pullRequests.head?.map CampaignIssueRef.repository)).or
    (input.issue.map CampaignIssueRef.repository))).map Js.lower

def campaignItemRepositories (input : ItemInput) : List String :=
  let worked := input.placement :: input.pullRequests.map (fun ref => some ref.repository)
  let sources := if worked.any (fun r => (given r).isSome) then worked else [input.issue.map CampaignIssueRef.repository]
  firstBy id (sources.filterMap (fun r => (given r).map Js.lower))

/-- Whether a dependency is a merge dependency; an item whose repository is unknown might work in any of them. -/
def isCampaignMergeDependency (dependentRepositories prerequisiteRepositories campaignRepositories : List String) : Bool :=
  if campaignRepositories.length < 2 then false
  else if dependentRepositories.isEmpty || prerequisiteRepositories.isEmpty then true
  else (prerequisiteRepositories.map Js.lower).any (fun r => (dependentRepositories.map Js.lower).any (fun other => other != r))

/-! ## Prerequisites -/

structure PrerequisitePullRequest where
  ref : CampaignPullRequestRef
  fact : ForgeFact
  outside : Bool
deriving DecidableEq

structure CampaignMergePrerequisite where
  id : String
  key : String
  title : Option String
  repository : Option String
  commitment : CommitmentState
  pullRequests : List PrerequisitePullRequest
deriving DecidableEq

inductive CampaignMergeHoldState | cancelled | none | outside | closed | opened | unobserved
deriving DecidableEq

structure CampaignMergeHold where
  prerequisite : String × String × Option String × Option String
  pullRequest : Option CampaignPullRequestRef
  state : CampaignMergeHoldState
  headSha : Option String
deriving DecidableEq

def ForgeFact.freshlyClosed : ForgeFact → Bool
  | .fresh value _ => decide (value.state = .closed)
  | _ => false

/-- Whether a fact meets a hold; `staleMergedMeets` is for the checks of a merge already armed. -/
def ForgeFact.met (staleMergedMeets : Bool) : ForgeFact → Bool
  | .fresh value _ => decide (value.state = .merged)
  | .stale value _ => staleMergedMeets && decide (value.state = .merged)
  | .unavailable _ _ => false

def ForgeFact.headSha : ForgeFact → Option String
  | .fresh value _ | .stale value _ => some value.headSha
  | .unavailable _ last => last.map (fun l => l.1.headSha)

def ForgeFact.isFresh : ForgeFact → Bool
  | .fresh _ _ => true
  | _ => false

def campaignMergeHold (prerequisite : CampaignMergePrerequisite) (staleMergedMeets : Bool) : Option CampaignMergeHold :=
  let identity := (prerequisite.id, prerequisite.key, prerequisite.title, prerequisite.repository.map Js.lower)
  if prerequisite.commitment ≠ .committed then some ⟨identity, none, .cancelled, none⟩
  else if prerequisite.pullRequests.isEmpty then some ⟨identity, none, .none, none⟩
  else match prerequisite.pullRequests.find? PrerequisitePullRequest.outside with
    | some outside => some ⟨identity, some outside.ref, .outside, none⟩
    | none =>
      match prerequisite.pullRequests.find? (fun p => p.fact.freshlyClosed) with
      | some closed => some ⟨identity, some closed.ref, .closed, closed.fact.headSha⟩
      | none =>
        (prerequisite.pullRequests.find? (fun p => !p.fact.met staleMergedMeets)).map (fun waiting =>
          ⟨identity, some waiting.ref, if waiting.fact.isFresh then .opened else .unobserved, waiting.fact.headSha⟩)

def repositoriesOf (h : Hooks) (campaignId : String) : List String := (h.campaignRepositories campaignId).map Js.lower

def insideCampaign (repositories : List String) (ref : CampaignPullRequestRef) : Bool :=
  repositories.isEmpty || repositories.contains (Js.lower ref.repository)

section

variable (t : Tables) (h : Hooks) (campaignId : String)

def prerequisitePullRequest (ref : CampaignPullRequestRef) : PrerequisitePullRequest :=
  if insideCampaign (repositoriesOf h campaignId) ref then ⟨ref, h.forgePullRequest campaignId (forgeRefKeyOf ref), false⟩
  else ⟨ref, .unavailable .forgeUnsupported none, true⟩

def prerequisiteOf (item : ItemRow) : CampaignMergePrerequisite where
  id := item.id
  key := item.itemKey
  title := item.title
  repository := campaignItemRepository (itemInput t h campaignId item)
  commitment := item.commitment
  pullRequests := (namedPullRequests item (t.deliveriesOf campaignId item.id)).map (prerequisitePullRequest h campaignId)

/-- What the rules read about one prerequisite; none for an id that is no item of the campaign. -/
def prerequisite (id : String) : Option CampaignMergePrerequisite := (t.item campaignId id).map (prerequisiteOf t h campaignId)

def workRepositories (id : String) : List String :=
  ((t.item campaignId id).map (fun item => campaignItemRepositories (itemInput t h campaignId item))).getD []

def prerequisitesOf (itemId : String) (dependentRepositories : List String) : List CampaignMergePrerequisite :=
  (t.dependsOn campaignId itemId).filterMap (fun id =>
    if isCampaignMergeDependency dependentRepositories (workRepositories t h campaignId id) (repositoriesOf h campaignId) then
      prerequisite t h campaignId id
    else none)

def dependents (pullRequest : CampaignPullRequestRef) (workItemId : Option String) : List String :=
  firstBy id (((t.itemsOf campaignId).filter (fun item =>
      (itemInput t h campaignId item).pullRequests.any (fun ref => forgeRefKeyOf ref == forgeRefKeyOf pullRequest))).map ItemRow.id ++
    (workItemId.filter (fun id => (t.item campaignId id).isSome)).toList)

/-- A merge's prerequisites: those of every item naming the pull request and of the requester's own item. -/
def prerequisitesForMerge (pullRequest : CampaignPullRequestRef) (workItemId : Option String) : List CampaignMergePrerequisite :=
  firstBy CampaignMergePrerequisite.id ((dependents t h campaignId pullRequest workItemId).flatMap (fun itemId =>
    prerequisitesOf t h campaignId itemId [Js.lower pullRequest.repository]))

end

end Wollipog.Ledger

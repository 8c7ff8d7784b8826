import Wollipog.Ledger.Rows
import Wollipog.Scope.Issues
/-!
# Evidence — the proof that an issue may be closed

A delegated closure is proven from the work items of its issue, each delivered by merged pull requests, from a
recorded disposition, or from the members of an epic.
-/
namespace Wollipog.Closure

open Authority Scope

inductive PrimaryState
  | planned | queued | running | waiting | blocked | delivered | cancelled | removed
  deriving DecidableEq

structure PullRequestRef where
  repository : String
  number : Nat
  deriving DecidableEq

def forgeRefKey (ref : PullRequestRef) : String × Nat := (Js.lower ref.repository, ref.number)

inductive ChangeRequestState
  | opened | closed | merged
  deriving DecidableEq

structure Observation where
  state : ChangeRequestState
  headSha : String
  mergeCommitSha : Option String
  deriving DecidableEq

inductive Fact
  | fresh (value : Observation) | stale (value : Observation) | unavailable (lastValue : Option Observation)
  deriving DecidableEq

structure ForgeFactEntry where
  ref : PullRequestRef
  fact : Fact
  deriving DecidableEq

structure Report where
  digest : Option String
  ts : Option Nat
  deriving DecidableEq

structure Verification where
  attemptId : String
  outcome : Ledger.VerificationOutcome
  childSessionId : String
  report : Report
  deriving DecidableEq

structure Attempt where
  id : String
  sessionId : Option String
  startedAt : Nat
  endedAt : Option Nat
  deriving DecidableEq

structure CommitmentRecord where
  reason : Option String
  changedBySessionId : Option String
  deriving DecidableEq

structure WorkItem where
  id : String
  issue : Option CampaignIssueRef
  primaryState : PrimaryState
  awaitingVerification : Bool
  commitment : Ledger.CommitmentState
  commitmentRecord : CommitmentRecord
  currentAttempt : Option String
  attemptCount : Nat
  attempts : List Attempt
  verifications : List Verification
  pullRequests : List ForgeFactEntry
  deriving DecidableEq

structure Recommendation where
  id : String
  disposition : Option Ledger.Disposition
  dispositionReason : Option String
  originWorkItemIds : List String
  deriving DecidableEq

structure Gate where
  sessionId : String
  createdAt : Nat
  repository : String
  pullRequest : Nat
  headSha : String
  intendedClosures : Option (List String)
  deriving DecidableEq

structure Db where
  fixedBy : String → Int → Option (List String)
  detail : String → Option WorkItem
  /-- The pages of the ledger in order, each item with its issue; `none` for one that is refused. -/
  pages : List (Option (List (String × Option CampaignIssueRef)))
  recommendation : String → Option Recommendation
  mergeGates : List Gate
  /-- What is stored of a pull request, by its reference in lower case. -/
  fact : String × Nat → Fact

structure OrchestratorPolicy where
  control : Option CampaignControl
  issueScope : Option CampaignIssueScope
  issueNumbers : Option (List Int)
  repositories : Option (List CampaignBoundaryRepository)
  deriving DecidableEq

structure Root where
  orchestratorPolicy : Option OrchestratorPolicy
  parentControlRevision : Option Int
  deriving DecidableEq

inductive MemberState
  | opened | completed | closedNotCompleted | unreadable
  deriving DecidableEq

structure Member where
  number : Int
  state : MemberState
  deriving DecidableEq

structure EpicMembers where
  readable : Bool
  members : List Member
  deriving DecidableEq

structure Delivered where
  number : Nat
  headSha : String
  mergeCommitSha : String
  deriving DecidableEq

structure CrossDelivered where
  repository : String
  delivered : Delivered
  deriving DecidableEq

structure Snapshot where
  reason : ClosureReason
  repository : String
  issue : Int
  openPullRequests : List Nat
  epicMembers : Option EpicMembers
  dispositionRecommendationId : Option String
  delivery : Option (List Delivered)
  crossRepositoryDelivery : Option (List CrossDelivered)
  deriving DecidableEq

def given (text : Option String) : Bool := text.any (· ≠ "")

/-! ## The boundary -/

namespace Root

variable (root : Root)

def control : Option CampaignControl := root.orchestratorPolicy.bind OrchestratorPolicy.control

def issueScope : Option CampaignIssueScope := root.orchestratorPolicy.bind OrchestratorPolicy.issueScope

def campaignBoundaryCurrent : Bool :=
  match root.control with
  | none => true
  | some .custom => true
  | some (.fullControl boundary) => validCampaignControl (.fullControl boundary) && root.issueScope.any (fun scope =>
      scope.authorizedByUserId == boundary.authorizedByUserId && decide (scope.authorizedAt ≤ boundary.authorizedAt) &&
        Js.lower scope.repository == Js.lower boundary.repository && scope.revision == boundary.issueScopeRevision &&
        root.parentControlRevision == some boundary.revision)

def issueBoundary : Option (CampaignAuthorityBoundary × IssueAuthority) :=
  match root.control with
  | some (.fullControl boundary) => if root.campaignBoundaryCurrent then boundary.issueAuthority.map (fun a => (boundary, a)) else none
  | _ => none

def campaignClosureIssueHeld (issue : CampaignIssueRef) : Bool :=
  let launch := (root.orchestratorPolicy.bind OrchestratorPolicy.issueNumbers).any (fun numbers => numbers.contains issue.number)
  match root.issueScope with
  | some scope => if Js.lower issue.repository != Js.lower scope.repository then campaignScopeHolds scope issue else launch
  | none => launch

def campaignLaunchRepository : String :=
  match root.control with
  | some (.fullControl boundary) => Js.lower boundary.repository
  | _ => Js.lower (root.issueScope.elim "" CampaignIssueScope.repository)

def campaignScopeRepositories : List String :=
  match root.control with
  | some (.fullControl boundary) => (campaignBoundaryRepositories boundary).map (fun e => Js.lower e.repository)
  | _ =>
    let launch := root.campaignLaunchRepository
    let listed := ((root.orchestratorPolicy.bind OrchestratorPolicy.repositories).getD []).map (fun e => Js.lower e.repository)
    (if launch = "" then [] else [launch]) ++ listed.filter (· != launch)

def delegates (snapshot : Snapshot) : Bool :=
  root.issueBoundary.any (fun (boundary, authority) =>
    authority.closureReasons.contains snapshot.reason && boundary.operations.contains (.category .issueClosure) &&
      (campaignBoundaryRepository boundary snapshot.repository).isSome) &&
    root.campaignClosureIssueHeld ⟨snapshot.repository, snapshot.issue⟩

def proofRepositories (repository : String) : List String := Js.lower repository :: root.campaignScopeRepositories

end Root

def ofIssue (issue : Int) (repository : String) (ref : Option CampaignIssueRef) : Bool :=
  ref.any (fun r => r.number == issue && Js.lower r.repository == Js.lower repository)

def addNew (items : List WorkItem) (detail : WorkItem) : List WorkItem :=
  if items.any (fun existing => existing.id == detail.id) then items else items ++ [detail]

def takeTracked (db : Db) (issue : Int) (repository : String) (items : List WorkItem) (row : String × Option CampaignIssueRef) : List WorkItem :=
  if ofIssue issue repository row.2 then (db.detail row.1).elim items (addNew items) else items

/-- The ledger's own items of an issue; `none` when a page is refused. -/
def trackedPages (db : Db) (issue : Int) (repository : String) :
    List (Option (List (String × Option CampaignIssueRef))) → List WorkItem → Option (List WorkItem)
  | [], items => some items
  | none :: _, _ => none
  | some page :: rest, items => trackedPages db issue repository rest (page.foldl (takeTracked db issue repository) items)

def trackedIssueWork (db : Db) (issue : Int) (repository : String) : Option (List WorkItem) :=
  trackedPages db issue repository db.pages []

/-- An item that a fixed-by plan cites, in the closure's repository and held by the campaign. -/
def citedInScope (root : Root) (repository : String) (item : WorkItem) : Bool :=
  item.issue.any (fun issue => Js.lower issue.repository == Js.lower repository && root.campaignClosureIssueHeld issue)

def withTracked (db : Db) (issue : Int) (repository : String) (items : List WorkItem) : List WorkItem :=
  match trackedIssueWork db issue repository with
  | none => []
  | some tracked => tracked.foldl addNew items

def issueWork (db : Db) (root : Root) (issue : Int) (repository : String) : List WorkItem :=
  match db.fixedBy repository issue with
  | none => withTracked db issue repository []
  | some ids =>
    let cited := ids.map db.detail
    if cited.any (fun item => !item.any (citedInScope root repository)) then []
    else withTracked db issue repository (cited.filterMap id)

/-! ## Delivery -/

structure DeliveryCandidate where
  ref : PullRequestRef
  fact : Fact
  approvedHeads : List String
  deriving DecidableEq

structure Window where
  sessionId : String
  start : Nat
  until_ : Nat
  deriving DecidableEq

def deliveryWindow (item : WorkItem) (v : Verification) : Option Window :=
  if v.outcome = .delivered then
    (item.attempts.find? (fun a => a.id == v.attemptId)).bind (fun attempt =>
      (v.report.ts.or attempt.endedAt).bind (fun until_ =>
        if attempt.sessionId = some v.childSessionId ∧ v.childSessionId ≠ "" then some ⟨v.childSessionId, attempt.startedAt, until_⟩ else none))
  else none

def issueKey (repository : String) (issue : Int) : String := Js.lower s!"{repository}#{issue}"

def gateCounts (proof : List String) (targets : List String) (windows : List Window) (gate : Gate) : Bool :=
  proof.contains (Js.lower gate.repository) &&
    windows.any (fun w => w.sessionId == gate.sessionId && decide (w.start ≤ gate.createdAt) && decide (gate.createdAt ≤ w.until_)) &&
    gate.intendedClosures.all (fun closures => closures.isEmpty || closures.any (fun closure => targets.contains (Js.lower closure)))

/-- The gated pull requests with their approved heads, in the order they were first approved. -/
def addGate (gated : OrdMap (String × Nat) (PullRequestRef × List String)) (gate : Gate) : OrdMap (String × Nat) (PullRequestRef × List String) :=
  let ref : PullRequestRef := ⟨gate.repository, gate.pullRequest⟩
  gated.set (forgeRefKey ref) (ref, ((gated.get (forgeRefKey ref)).elim [] Prod.snd) ++ [gate.headSha])

def deliveryCandidates (db : Db) (root : Root) (item : WorkItem) (closureIssue : Int) (closureRepository : String) : List DeliveryCandidate :=
  let windows := item.verifications.filterMap (deliveryWindow item)
  let targets := item.issue.toList.map (fun issue => issueKey issue.repository issue.number) ++ [issueKey closureRepository closureIssue]
  let gates := db.mergeGates.filter (fun gate => windows.any (fun w => w.sessionId == gate.sessionId))
  let gated := (gates.filter (gateCounts (root.proofRepositories closureRepository) targets windows)).foldl addGate OrdMap.empty
  let named := item.pullRequests.foldl (fun m entry => m.set (forgeRefKey entry.ref) (⟨entry.ref, entry.fact, []⟩ : DeliveryCandidate)) OrdMap.empty
  let unseen := gated.entries.filter (fun e => (named.get e.1).isNone)
  let all := unseen.foldl (fun m e => m.set e.1 ⟨e.2.1, db.fact e.1, []⟩) named
  (all.mapVals (fun key candidate => { candidate with approvedHeads := (gated.get key).elim [] Prod.snd })).entries.map Prod.snd

def deliveryVerified (snapshot : Snapshot) (ref : PullRequestRef) (headSha mergeCommitSha : String) : Bool :=
  let verified :=
    if Js.lower ref.repository = Js.lower snapshot.repository then snapshot.delivery.getD []
    else ((snapshot.crossRepositoryDelivery.getD []).filter
      (fun delivered => Js.lower delivered.repository == Js.lower ref.repository)).map CrossDelivered.delivered
  verified.any (fun delivered => delivered.number == ref.number && delivered.headSha == headSha && delivered.mergeCommitSha == mergeCommitSha)

inductive Verdict
  | outside | stale | excluded | unmerged | wrongHead | unverified | merged
  deriving DecidableEq

/-- A merge at a head, against the approved heads and what was verified for the closure. -/
def mergeVerdict (snapshot : Snapshot) (candidate : DeliveryCandidate) (headSha mergeCommitSha : String) : Verdict :=
  if !candidate.approvedHeads.isEmpty && !candidate.approvedHeads.contains headSha then .wrongHead
  else if deliveryVerified snapshot candidate.ref headSha mergeCommitSha then .merged
  else .unverified

def observedVerdict (snapshot : Snapshot) (candidate : DeliveryCandidate) (value : Observation) : Verdict :=
  match value.state, value.mergeCommitSha with
  | .closed, _ => .excluded
  | .merged, some sha => if sha = "" then .unmerged else mergeVerdict snapshot candidate value.headSha sha
  | _, _ => .unmerged

def verdict (root : Root) (snapshot : Snapshot) (candidate : DeliveryCandidate) : Verdict :=
  if !(root.proofRepositories snapshot.repository).contains (Js.lower candidate.ref.repository) then .outside
  else
    match candidate.fact with
    | .fresh value => observedVerdict snapshot candidate value
    | _ => .stale

def deliveredVerification (item : WorkItem) : Bool :=
  item.verifications.any (fun v => v.outcome == .delivered && given v.report.digest)

def verdicts (db : Db) (root : Root) (snapshot : Snapshot) (item : WorkItem) : List (DeliveryCandidate × Verdict) :=
  (deliveryCandidates db root item snapshot.issue snapshot.repository).map (fun candidate => (candidate, verdict root snapshot candidate))

/-- The merges that prove an item's delivery, with nothing besides but pull requests closed without merging. -/
def mergesProven (verdicts : List (DeliveryCandidate × Verdict)) : Bool :=
  verdicts.all (fun v => v.2 == .merged || v.2 == .excluded) && verdicts.any (fun v => v.2 == .merged)

def itemDelivered (db : Db) (root : Root) (item : WorkItem) (snapshot : Snapshot) : Bool :=
  item.primaryState == .delivered && item.currentAttempt.isNone && deliveredVerification item &&
    mergesProven (verdicts db root snapshot item)

def excludedKeys (db : Db) (root : Root) (snapshot : Snapshot) (items : List WorkItem) : List (String × Nat) :=
  (items.flatMap (fun item => ((verdicts db root snapshot item).filter (fun v => v.2 == .excluded)).map (fun v => forgeRefKey v.1.ref))).eraseDups

inductive Proof
  | delivered (items : List String) (excluded : List (String × Nat))
  | disposition (recommendation : Option Recommendation) (items : List String)
  | epicMembers (members : List Member) (placeholders items : List String) (excluded : List (String × Nat))
  deriving DecidableEq

def epicPlaceholderItem (item : WorkItem) : Bool := item.attemptCount == 0 && item.currentAttempt.isNone

def epicSourceApplies (db : Db) (snapshot : Snapshot) : Bool :=
  snapshot.reason == .completed && (db.fixedBy snapshot.repository snapshot.issue).isNone

def memberInScope (root : Root) (snapshot : Snapshot) (number : Int) : Bool := root.campaignClosureIssueHeld ⟨snapshot.repository, number⟩

def epicMemberEvidence (db : Db) (root : Root) (snapshot : Snapshot) (read : EpicMembers) : Option Proof :=
  if !read.readable || read.members.isEmpty || !epicSourceApplies db snapshot ||
      read.members.any (fun member => member.state != .completed || !memberInScope root snapshot member.number) then none
  else
    match trackedIssueWork db snapshot.issue snapshot.repository with
    | none => none
    | some own =>
      let placeholders := (own.filter epicPlaceholderItem).map WorkItem.id
      let items := own.filter (fun item => !placeholders.contains item.id)
      if items.any (fun item => !itemDelivered db root item snapshot) then none
      else some (.epicMembers read.members placeholders (items.map WorkItem.id) (excludedKeys db root snapshot items))

def namedDisposition (db : Db) (snapshot : Snapshot) : Option Recommendation :=
  if given snapshot.dispositionRecommendationId then snapshot.dispositionRecommendationId.bind db.recommendation else none

def dispositionFails (db : Db) (snapshot : Snapshot) (items : List WorkItem) : Bool :=
  given snapshot.dispositionRecommendationId &&
    !(namedDisposition db snapshot).any (fun disposition =>
      (disposition.disposition == some .rejected || disposition.disposition == some .duplicate) && given disposition.dispositionReason &&
        items.any (fun item => disposition.originWorkItemIds.contains item.id))

def notDisposed (item : WorkItem) : Bool :=
  !(item.commitment == .cancelled || item.commitment == .scopeRemoved) || item.currentAttempt.isSome ||
    !given item.commitmentRecord.reason || !given item.commitmentRecord.changedBySessionId

def itemsEvidence (db : Db) (root : Root) (snapshot : Snapshot) (items : List WorkItem) : Option Proof :=
  match snapshot.reason with
  | .notPlanned =>
    if dispositionFails db snapshot items || items.isEmpty || items.any notDisposed then none
    else some (.disposition (namedDisposition db snapshot) (items.map WorkItem.id))
  | .completed =>
    if items.isEmpty || items.any (fun item => !itemDelivered db root item snapshot) then none
    else some (.delivered (items.map WorkItem.id) (excludedKeys db root snapshot items))

def closureEvidence (db : Db) (root : Root) (snapshot : Snapshot) : Option Proof :=
  if !root.delegates snapshot || !snapshot.openPullRequests.isEmpty then none
  else
    match snapshot.epicMembers with
    | some read => epicMemberEvidence db root snapshot read
    | none =>
      if snapshot.reason != .completed && (db.fixedBy snapshot.repository snapshot.issue).isSome then none
      else itemsEvidence db root snapshot (issueWork db root snapshot.issue snapshot.repository)

end Wollipog.Closure

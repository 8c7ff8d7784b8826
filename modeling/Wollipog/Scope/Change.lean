import Wollipog.Scope.Issues
/-!
# Change — what a change of the scope carries and is, and what it ends with

Admission, lineage, the reviews and the Orchestrator's proposal, each with the check a snapshot's normalization makes.
-/
namespace Wollipog.Scope

open Authority

/-- A nonempty text of at most `max` code units. -/
def named (max : Nat) (s : String) : Bool := !s.isEmpty && decide (Js.utf16Length s ≤ max)

/-- At most `max` code units and no control characters but tab and line ends. -/
def plainText (max : Nat) (s : String) : Bool :=
  decide (Js.utf16Length s ≤ max) && s.toList.all (fun c => !Js.isControl c || c == '\t' || c == '\n' || c == '\r')

structure PublicationAuthority where
  authorizedByUserId : String
  objectiveDigest : String
deriving DecidableEq

structure CampaignIssueAdmission where
  boundaryRevision : Int
  evidenceDigest : String
  publicationAuthority : Option PublicationAuthority
deriving DecidableEq

def validIssueAdmission (v : CampaignIssueAdmission) : Bool :=
  v.publicationAuthority.all (fun p => named 256 p.authorizedByUserId && Js.isSha256Hex p.objectiveDigest) &&
    positive v.boundaryRevision && Js.isSha256Hex v.evidenceDigest

inductive Lineage
  | selection
  | epic (epic : Int) (repository : Option String)
  | followUp (publicationOccurrenceId : String)
deriving DecidableEq

def validIssueLineage : Lineage → Bool
  | .selection => true
  | .epic epic repository => positive epic && repository.all (fun r => (campaignRepositoryLocation r).isSome)
  | .followUp publicationOccurrenceId => named 256 publicationOccurrenceId

inductive GrantReviewCause
  | grantFailed | grantUncertain | selection | selectionUncertain | selectionFailed | selectionUnverified
deriving DecidableEq

structure GrantReviewSelection where
  count : Int
  defaulted : Bool
  criteria : String
  constraints : List String
deriving DecidableEq

structure CampaignScopeGrantReview where
  cause : GrantReviewCause
  ownerMessage : String
  messageDigest : String
  grantOccurrenceId : Option String
  reviewOccurrenceId : Option String
  failureClass : Option String
  reason : Option String
  selection : Option GrantReviewSelection
deriving DecidableEq

/-- `/^[a-z_]{1,64}$/` -/
def isFailureClass (s : String) : Bool :=
  decide (1 ≤ s.toList.length) && decide (s.toList.length ≤ 64) && s.toList.all (fun c => c.isLower || c == '_')

def validScopeGrantReview (v : CampaignScopeGrantReview) : Bool :=
  plainText 4000 v.ownerMessage && Js.isSha256Hex v.messageDigest &&
    v.grantOccurrenceId.all (fun id => plainText 256 id && !id.isEmpty) &&
    v.reviewOccurrenceId.all (fun id => plainText 256 id && !id.isEmpty) && v.failureClass.all isFailureClass &&
    v.reason.all (plainText 300) && v.selection.all (fun s => decide (0 ≤ s.count) && decide (s.count ≤ 100) &&
      plainText 300 s.criteria && decide (s.constraints.length ≤ 10) && s.constraints.all (plainText 200))

/-- The `admit` of a selection proposal. -/
structure CampaignSelectionReview where
  occurrenceId : String
  grantDigest : String
  reason : String
deriving DecidableEq

def validSelectionReview (v : CampaignSelectionReview) : Bool :=
  named 256 v.occurrenceId && Js.isSha256Hex v.grantDigest && decide (Js.utf16Length v.reason ≤ 300)

structure MaxIssuesIncrease where
  from_ : Int
  increase : Int
deriving DecidableEq

structure CampaignScopeOwnerReview where
  maxIssuesIncrease : Option MaxIssuesIncrease
deriving DecidableEq

def validScopeOwnerReview (v : CampaignScopeOwnerReview) : Bool :=
  v.maxIssuesIncrease.all (fun m => positive m.from_ && positive m.increase && decide (m.from_ + m.increase ≤ 100))

/-! ## The proposal -/

inductive ScopeProposalIssueOrigin
  | ownerNamed | orchestratorChosen
deriving DecidableEq

structure CampaignScopeProposalIssue where
  repository : Option String
  number : Int
  origin : ScopeProposalIssueOrigin
  rationale : String
  title : String
deriving DecidableEq

inductive ScopeProposalCheck
  | requestedCount | chosenIssues | unreferencedNamedIssues | unproposedReferences | laterNamedIssues | constraints
  | withheldOperations | proposalUnstructured | repositoryNameUnresolved | repositoryLimit | repositoryMentioned
deriving DecidableEq

inductive ScopeProposalOwnerCause
  | constraintCheckUncertain | constraintCheckFailed | constraintCheckUnavailable | proposalUnstructured
  | repositoryNameUnresolved
deriving DecidableEq

inductive ScopeCheckVerdict
  | admits | uncertain | failed
deriving DecidableEq

structure CampaignScopeConstraintCheck where
  occurrenceId : String
  verdict : ScopeCheckVerdict
  reason : Option String
deriving DecidableEq

/-- A repository the proposal names; `repository` is `null` where the name resolved to nothing. -/
structure ScopeProposalRepositoryConstraint where
  name : String
  repository : Option String
deriving DecidableEq

inductive ScopeProposalRoute
  | admitted | owner
deriving DecidableEq

structure CampaignScopeProposal where
  initial : Bool
  messageDigest : String
  issues : List CampaignScopeProposalIssue
  repositoryConstraints : Option (List ScopeProposalRepositoryConstraint)
  repositoryConstraint : Option ScopeProposalRepositoryConstraint
  requestedCount : Option Int
  constraints : List String
  withheldOperations : List AuthorityOperation
  checks : List ScopeProposalCheck
  route : ScopeProposalRoute
  ownerCause : Option ScopeProposalOwnerCause
  ownerMessage : Option String
  constraintCheck : Option CampaignScopeConstraintCheck
deriving DecidableEq

/-- `/^[A-Za-z0-9_-]{1,128}$/` -/
def isOccurrenceId (s : String) : Bool :=
  decide (1 ≤ s.toList.length) && decide (s.toList.length ≤ 128) && s.toList.all (fun c => Regex.isWord c || c == '-')

def validConstraintCheck (c : CampaignScopeConstraintCheck) : Bool := isOccurrenceId c.occurrenceId && c.reason.all (plainText 300)

/-- The repository names as a list; a record from before the list reads as one entry. -/
def CampaignScopeProposal.names (v : CampaignScopeProposal) : List ScopeProposalRepositoryConstraint :=
  v.repositoryConstraints.getD v.repositoryConstraint.toList

def validRoute (v : CampaignScopeProposal) : Bool :=
  let verdict := v.constraintCheck.map CampaignScopeConstraintCheck.verdict
  match v.route with
  | .admitted =>
    v.ownerCause.isNone && v.ownerMessage.isNone && !v.checks.contains .repositoryNameUnresolved &&
      (if v.checks.isEmpty then verdict.isNone else verdict == some .admits)
  | .owner =>
    v.ownerMessage.any (plainText 4000) &&
      match v.ownerCause with
      | none => false
      | some .constraintCheckUncertain => verdict == some .uncertain
      | some .constraintCheckFailed => verdict == some .failed
      | some _ => verdict.isNone

def validScopeProposal (v : CampaignScopeProposal) : Bool :=
  Js.isSha256Hex v.messageDigest && decide (v.issues.length ≤ 100) &&
    v.issues.all (fun i => i.repository.all (fun r => (campaignRepositoryLocation r).isSome) && positive i.number &&
      plainText 500 i.rationale && plainText 300 i.title) &&
    !(v.repositoryConstraint.isSome && v.repositoryConstraints.isSome) && decide (v.names.length ≤ 10) &&
    v.repositoryConstraints.all (fun l => !l.isEmpty) &&
    v.names.all (fun n => plainText 200 n.name && !n.name.isEmpty &&
      n.repository.all (fun r => (campaignRepositoryLocation r).isSome)) &&
    v.names.any (fun n => n.repository.isNone) == v.checks.contains .repositoryNameUnresolved &&
    (!v.names.isEmpty && !v.names.any (fun n => n.repository.isNone)) == v.checks.contains .repositoryLimit &&
    v.requestedCount.all (fun n => decide (1 ≤ n) && decide (n ≤ 100)) && decide (v.constraints.length ≤ 10) &&
    v.constraints.all (plainText 200) && v.withheldOperations.all (fun o => operations.contains o) &&
    v.constraintCheck.all validConstraintCheck && validRoute v

end Wollipog.Scope

/-! ## What a change of the scope is, and what it ends with

Normalizing a snapshot checks it and brings it into its only form.
-/
namespace Wollipog.Scope

open Authority

structure CampaignIssueScopeRepositoryChange where
  repository : String
  before : List Int
  additions : List Int
  removals : List Int
deriving DecidableEq

structure AffectedAssignment where
  sessionId : String
  issue : Int
  repository : Option String
deriving DecidableEq

structure ActiveChild where
  sessionId : String
  title : String
  assignmentDigest : String
deriving DecidableEq

structure VerifiedPublication where
  publicationOccurrenceId : String
  issue : Int
deriving DecidableEq

structure CampaignIssueScopeSnapshot where
  repository : String
  expectedRevision : Int
  before : List Int
  additions : List Int
  removals : List Int
  otherRepositories : Option (List CampaignIssueScopeRepositoryChange)
  explanation : String
  affectedAssignments : List AffectedAssignment
  affectedDecisions : List String
  activeChildren : Option (List ActiveChild)
  lineage : Option Lineage
  issueAdmission : Option CampaignIssueAdmission
  verifiedPublications : Option (List VerifiedPublication)
  grantReview : Option CampaignScopeGrantReview
  selectionReview : Option CampaignSelectionReview
  ownerReview : Option CampaignScopeOwnerReview
  scopeProposal : Option CampaignScopeProposal
deriving DecidableEq

def campaignScopeChangeGroups (s : CampaignIssueScopeSnapshot) : List CampaignIssueScopeRepositoryChange :=
  ⟨s.repository, s.before, s.additions, s.removals⟩ :: s.otherRepositories.getD []

namespace CampaignIssueScopeRepositoryChange

def after (g : CampaignIssueScopeRepositoryChange) : List Int :=
  g.before.filter (fun n => !g.removals.contains n) ++ g.additions

def normal (g : CampaignIssueScopeRepositoryChange) : CampaignIssueScopeRepositoryChange where
  repository := Js.lower g.repository
  before := sortNumbers g.before
  additions := sortNumbers g.additions
  removals := sortNumbers g.removals

def remaining (g : CampaignIssueScopeRepositoryChange) : Int := g.before.length + g.additions.length - g.removals.length

end CampaignIssueScopeRepositoryChange

def qualified (part : CampaignIssueScopeRepositoryChange → List Int) (s : CampaignIssueScopeSnapshot) : List CampaignIssueRef :=
  (campaignScopeChangeGroups s).flatMap (fun g => refs g.repository (part g))

def campaignScopeChangeResult (s : CampaignIssueScopeSnapshot) : List CampaignIssueRef :=
  sortBy byIssue (qualified CampaignIssueScopeRepositoryChange.after s)

def campaignScopeChangeBefore (s : CampaignIssueScopeSnapshot) : List CampaignIssueRef :=
  sortBy byIssue (qualified CampaignIssueScopeRepositoryChange.before s)

def boundedIssueNumbers (l : List Int) : Bool := decide (l.length ≤ 100) && l.all positive && decide l.Nodup

def validScopeChangeGroup (g : CampaignIssueScopeRepositoryChange) : Bool :=
  boundedIssueNumbers g.before && boundedIssueNumbers g.additions && boundedIssueNumbers g.removals &&
    !g.additions.any (fun n => g.before.contains n) && !g.removals.any (fun n => !g.before.contains n)

def byRepository (a b : CampaignIssueScopeRepositoryChange) : Bool := !decide (b.repository < a.repository)

/-- The other repositories' parts: each repository once, never the launch repository, every part valid. -/
def normalGroups (launch : String) : Option (List CampaignIssueScopeRepositoryChange) →
    Option (List CampaignIssueScopeRepositoryChange)
  | none => some []
  | some groups =>
    if groups.isEmpty || decide (50 < groups.length) then none
    else if groups.all (fun g => (campaignRepositoryLocation g.repository).isSome && validScopeChangeGroup g) &&
        decide (launch :: groups.map (fun g => Js.lower g.repository)).Nodup then
      some (sortBy byRepository (groups.map CampaignIssueScopeRepositoryChange.normal))
    else none

def validVerifiedPublications (s : CampaignIssueScopeSnapshot) : Bool :=
  s.verifiedPublications.all (fun l => decide (l.length ≤ 100) &&
    l.all (fun p => named 256 p.publicationOccurrenceId && positive p.issue &&
      (s.additions.contains p.issue ||
        s.otherRepositories.any (fun groups => groups.any (fun g => g.additions.contains p.issue)))) &&
    decide (l.map VerifiedPublication.publicationOccurrenceId).Nodup)

def validEvidence (s : CampaignIssueScopeSnapshot) : Bool :=
  s.issueAdmission.all validIssueAdmission && s.lineage.all validIssueLineage && s.grantReview.all validScopeGrantReview &&
    s.selectionReview.all validSelectionReview && s.ownerReview.all validScopeOwnerReview &&
    s.scopeProposal.all validScopeProposal &&
    s.scopeProposal.all (fun p => s.grantReview.isNone && s.selectionReview.isNone && s.ownerReview.isNone && s.lineage.isNone &&
      (p.route == .admitted) == s.issueAdmission.isSome) &&
    (s.ownerReview.isNone || s.issueAdmission.isNone && s.grantReview.isNone && s.selectionReview.isNone && s.lineage.isNone)

def proposalMatchesAdditions (proposal : CampaignScopeProposal) (launch : String) (additions removals : List Int)
    (others : List CampaignIssueScopeRepositoryChange) : Bool :=
  let groups := (launch, additions) :: others.map (fun g => (g.repository, g.additions))
  let listed := fun repository => sortNumbers ((proposal.issues.filter (fun i => i.repository.getD launch == repository)).map
    CampaignScopeProposalIssue.number)
  removals.isEmpty && others.all (fun g => g.removals.isEmpty) &&
    proposal.issues.all (fun i => groups.any (fun g => g.1 == i.repository.getD launch)) &&
    proposal.issues.all (fun i => i.repository != some launch) &&
    groups.all (fun g => listed g.1 == sortNumbers g.2)

def validChange (s : CampaignIssueScopeSnapshot) (launch : String) (others : List CampaignIssueScopeRepositoryChange) : Bool :=
  Js.isSafeInteger s.expectedRevision && decide (0 ≤ s.expectedRevision) &&
    validScopeChangeGroup ⟨launch, s.before, s.additions, s.removals⟩ &&
    !(s.additions.isEmpty && s.removals.isEmpty && others.all (fun g => g.additions.isEmpty && g.removals.isEmpty) &&
      !s.scopeProposal.any CampaignScopeProposal.initial) &&
    s.scopeProposal.all (fun p => proposalMatchesAdditions p launch s.additions s.removals others) &&
    decide (CampaignIssueScopeRepositoryChange.remaining ⟨launch, s.before, s.additions, s.removals⟩ +
      (others.map CampaignIssueScopeRepositoryChange.remaining).sum ≤ 100) &&
    s.explanation.toList.any (fun c => !Js.isSpace c) && decide (Js.utf16Length s.explanation ≤ 4000) &&
    decide (s.affectedAssignments.length ≤ 100) && decide (s.affectedDecisions.length ≤ 1000) &&
    s.affectedDecisions.all (named 256)

def validActiveChildren (l : List ActiveChild) : Bool :=
  decide (l.length ≤ 100) &&
    l.all (fun c => named 256 c.sessionId && named 1024 c.title && Js.isSha256Hex c.assignmentDigest)

def validAssignment (others : List CampaignIssueScopeRepositoryChange) (a : AffectedAssignment) : Bool :=
  named 256 a.sessionId && positive a.issue &&
    a.repository.all (fun r => others.any (fun g => g.repository == Js.lower r))

def normalSnapshot (s : CampaignIssueScopeSnapshot) (others : List CampaignIssueScopeRepositoryChange) :
    CampaignIssueScopeSnapshot :=
  { s with
    repository := Js.lower s.repository
    before := sortNumbers s.before
    additions := sortNumbers s.additions
    removals := sortNumbers s.removals
    otherRepositories := if others.isEmpty then none else some others
    affectedAssignments := s.affectedAssignments.map (fun a => { a with repository := a.repository.map Js.lower })
    activeChildren := some (s.activeChildren.getD []) }

def normalizeCampaignIssueScopeSnapshot (s : CampaignIssueScopeSnapshot) : Option CampaignIssueScopeSnapshot :=
  if !(validEvidence s && validVerifiedPublications s && (campaignRepositoryLocation s.repository).isSome) then none
  else
    match normalGroups (Js.lower s.repository) s.otherRepositories with
    | none => none
    | some others =>
      if validChange s (Js.lower s.repository) others && s.activeChildren.all validActiveChildren &&
          s.affectedAssignments.all (validAssignment others) then some (normalSnapshot s others)
      else none

end Wollipog.Scope

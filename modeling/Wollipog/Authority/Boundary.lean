import Wollipog.Budget.Envelope
import Wollipog.Lib.Regex
/-!
# Boundary — the contract a person mints for a campaign

The decision categories, the boundary with its repositories and authorities, and `validCampaignControl`.
-/
namespace Wollipog
namespace Authority

open Budget (CampaignBudgetAuthority validCampaignBudgetAuthority)

inductive Delegatable
  | implementationQuestion | prMerge | mergedBranchDeletion | followUpIssuePublication | uiEvidenceApproval
  | reviewRoundExtension
deriving DecidableEq, Repr

inductive Category
  | delegatable (d : Delegatable)
  | issueClosure | campaignIssueScope | automationCreation | campaignFollowUpAdmission | ownerDecision | locationSwitch
  | campaignRepositoryAddition
deriving DecidableEq, Repr

inductive Party | human | orchestrator
deriving DecidableEq, Repr

abbrev ParentControlDecisionPolicy := Delegatable → Party

inductive AuthorityOperation
  | category (c : Category)
  | question | toolApproval | policyAsk
deriving DecidableEq, Repr

def operations : List AuthorityOperation :=
  [.category (.delegatable .implementationQuestion), .category (.delegatable .prMerge),
    .category (.delegatable .mergedBranchDeletion), .category (.delegatable .followUpIssuePublication),
    .category (.delegatable .uiEvidenceApproval), .category .issueClosure, .category .campaignIssueScope, .question,
    .toolApproval, .policyAsk]

inductive CampaignRepositoryLocation
  | github (repository : String)
  | gitlab (host project : String)
deriving DecidableEq

def slugChar (c : Char) : Bool := c.isAlphanum || Regex.anyOf "_.-" c

/-- `/^[A-Za-z0-9_.-]+\/[A-Za-z0-9_.-]+$/` -/
def githubRepository : Regex :=
  .whole (.seqs [.atLeast 1 slugChar, .lit "/", .atLeast 1 slugChar])

/-- `[A-Za-z0-9](?:[A-Za-z0-9-]{0,61}[A-Za-z0-9])?` -/
def hostLabel : Regex :=
  .seq (.cls Char.isAlphanum)
    (.opt (.seq (.upTo 61 (.cls (fun c => c.isAlphanum || c == '-'))) (.cls Char.isAlphanum)))

/-- `^LABEL(?:\.LABEL)+$`, on the labels between the dots. -/
def hostName (s : String) : Bool :=
  let labels := Js.splitAt (· == '.') s.toList
  decide (2 ≤ labels.length) && labels.all (fun l => (Regex.whole hostLabel).test (String.ofList l))

def hostPort (host : String) : Option (Option Nat) :=
  match Js.splitAt (· == ':') host.toList with
  | [name] => if hostName (String.ofList name) then some none else none
  | [name, port] =>
    if hostName (String.ofList name) && decide (1 ≤ port.length) && decide (port.length ≤ 5) && port.all Char.isDigit then
      some (String.ofList port).toNat?
    else none
  | _ => none

/-- `/^(?:www\.)?github\.com(?::|$)/i` -/
def githubHost : Regex :=
  .seqs [.start, .opt (.lit "www."), .lit "github.com", .alt (.lit ":") .stop]

/-- `/^[A-Za-z0-9_][A-Za-z0-9_.-]*$/`, and not `/\.(?:git|atom)$/i` -/
def gitlabPathSegment (s : String) : Bool :=
  (Regex.whole (.seq (.cls Regex.isWord) (.many slugChar))).test s &&
    !(Regex.seqs [.lit ".", .lits ["git", "atom"], .stop]).testI s

def campaignRepositoryLocation (repository : String) : Option CampaignRepositoryLocation :=
  if 256 < Js.utf16Length repository then none
  else if githubRepository.test repository then some (.github repository)
  else
    match (Js.splitAt (· == '/') repository.toList).map String.ofList with
    | [] => none
    | host :: path =>
      match hostPort host with
      | none => none
      | some port =>
        if path.length < 2 || 22 < path.length then none
        else if port.any (fun n => n < 1 || 65535 < n) then none
        else if githubHost.testI host then none
        else if path.all gitlabPathSegment then some (.gitlab host ("/".intercalate path))
        else none

structure CampaignBoundaryRepository where
  repository : String
  locationIds : List String
deriving DecidableEq

/-! ## The boundary -/

structure CampaignIssueRef where
  repository : String
  number : Int
deriving DecidableEq

inductive ClosureReason | completed | notPlanned
deriving DecidableEq

structure IssueAuthority where
  epics : List Int
  otherEpics : Option (List CampaignIssueRef)
  relatedFollowUps : Bool
  maxIssues : Int
  closureReasons : List ClosureReason
deriving DecidableEq

structure EvidenceReviewer where
  driver : String
  modelId : String
deriving DecidableEq

structure EvidenceProvider where
  providerId : String
  disclosureRevision : Int
  retentionDisclosure : String
  reviewers : List EvidenceReviewer
deriving DecidableEq

structure CampaignEvidenceAuthority where
  revision : Int
  authorizedByUserId : String
  authorizedAt : Int
  campaignRootSessionId : String
  repository : String
  objective : String
  issueScopeRevision : Int
  configurationId : String
  organizationId : String
  disclosureRevision : Int
  providers : List EvidenceProvider
deriving DecidableEq

structure CampaignAuthorityBoundary where
  revision : Int
  issueScopeRevision : Int
  repository : String
  objective : String
  authorizedByUserId : String
  authorizedAt : Int
  operations : List AuthorityOperation
  delegatablePolicyIds : List String
  issueAuthority : Option IssueAuthority
  budgetAuthority : Option CampaignBudgetAuthority
  evidenceAuthority : Option CampaignEvidenceAuthority
  repositories : Option (List CampaignBoundaryRepository)
deriving DecidableEq

inductive CampaignControl
  | custom
  | fullControl (boundary : CampaignAuthorityBoundary)
deriving DecidableEq

def campaignBoundaryRepositories (b : CampaignAuthorityBoundary) : List CampaignBoundaryRepository :=
  b.repositories.getD [⟨b.repository, []⟩]

def campaignBoundaryRepository (b : CampaignAuthorityBoundary) (repository : String) :
    Option CampaignBoundaryRepository :=
  (campaignBoundaryRepositories b).find? (fun e => Js.lower e.repository == Js.lower repository)

/-- `validBoundaryRepositories`: every repository once, every Location once, the boundary's own repository first. -/
def validBoundaryRepositories (value : List CampaignBoundaryRepository) (repository : String) : Bool :=
  let names := value.map (fun e => Js.lower e.repository)
  let locations := value.flatMap (fun e => e.locationIds)
  decide (1 ≤ value.length) && decide (value.length ≤ 50) &&
    value.all (fun e => (campaignRepositoryLocation e.repository).isSome) && decide names.Nodup &&
    locations.all (Js.boundedId 256) && decide locations.Nodup && decide (locations.length ≤ 100) &&
    names.head? == some (Js.lower repository)

def byIssue (a b : CampaignIssueRef) : Bool :=
  decide (a.repository < b.repository) || (a.repository == b.repository && decide (a.number ≤ b.number))

def positive (n : Int) : Bool := Js.isSafeInteger n && decide (0 < n)

/-- `canonicalCampaignIssues`: lower-case repositories, each pair once, sorted; none when one is malformed. -/
def canonicalCampaignIssues (value : List CampaignIssueRef) : Option (List CampaignIssueRef) :=
  let issues := value.map (fun i => { i with repository := Js.lower i.repository })
  if 100 < value.length then none
  else if value.all (fun i => (campaignRepositoryLocation i.repository).isSome && positive i.number) &&
      decide issues.Nodup then some (issues.mergeSort byIssue)
  else none

/-- Another repository's epics: canonical, never empty, each in a boundary repository other than the launch one. -/
def validOtherEpics (value : List CampaignIssueRef) (b : CampaignAuthorityBoundary) : Bool :=
  match canonicalCampaignIssues value with
  | none => false
  | some canonical =>
    !canonical.isEmpty && decide (canonical = value) &&
      canonical.all (fun i => i.repository != Js.lower b.repository && (campaignBoundaryRepository b i.repository).isSome)

def validIssueAuthority (v : IssueAuthority) (b : CampaignAuthorityBoundary) : Bool :=
  decide (v.epics.length ≤ 100) && decide v.epics.Nodup && v.epics.all positive &&
    v.otherEpics.all (fun e => validOtherEpics e b) && positive v.maxIssues && decide (v.maxIssues ≤ 100) &&
    decide v.closureReasons.Nodup

def validEvidenceReviewers (l : List EvidenceReviewer) : Bool :=
  decide (1 ≤ l.length) && decide (l.length ≤ 16) && decide l.Nodup &&
    l.all (fun r => (r.driver == "codex-app-server" || r.driver == "claude-code") && Js.boundedText 256 r.modelId &&
      !r.modelId.toList.contains '*')

def validCampaignEvidenceAuthority (v : CampaignEvidenceAuthority) : Bool :=
  positive v.revision && positive v.authorizedAt && positive v.issueScopeRevision &&
    Js.boundedText 256 v.authorizedByUserId && Js.boundedText 256 v.campaignRootSessionId &&
    Js.boundedText 256 v.repository && (campaignRepositoryLocation v.repository).isSome &&
    Js.boundedText 4000 v.objective && Js.boundedText 256 v.configurationId && Js.boundedText 256 v.organizationId &&
    positive v.disclosureRevision && decide (1 ≤ v.providers.length) && decide (v.providers.length ≤ 8) &&
    decide (v.providers.map EvidenceProvider.providerId).Nodup &&
    v.providers.all (fun p => Js.boundedText 256 p.providerId && positive p.disclosureRevision &&
      Js.boundedText 4000 p.retentionDisclosure && validEvidenceReviewers p.reviewers)

def campaignEvidenceAuthorityBound (v : CampaignEvidenceAuthority) (b : CampaignAuthorityBoundary) : Bool :=
  validCampaignEvidenceAuthority v && v.revision == b.revision && v.authorizedByUserId == b.authorizedByUserId &&
    v.authorizedAt == b.authorizedAt && Js.lower v.repository == Js.lower b.repository && v.objective == b.objective &&
    v.issueScopeRevision == b.issueScopeRevision

def validBoundary (b : CampaignAuthorityBoundary) : Bool :=
  b.issueAuthority.all (fun v => validIssueAuthority v b) &&
    b.repositories.all (fun l => validBoundaryRepositories l b.repository) &&
    b.budgetAuthority.all validCampaignBudgetAuthority && positive b.revision && Js.boundedText 256 b.repository &&
    (campaignRepositoryLocation b.repository).isSome && positive b.issueScopeRevision &&
    Js.boundedText 4000 b.objective && Js.boundedText 256 b.authorizedByUserId && positive b.authorizedAt &&
    decide (b.operations.length ≤ operations.length) && decide b.operations.Nodup &&
    b.operations.all (fun o => operations.contains o) && decide (b.delegatablePolicyIds.length ≤ 100) &&
    decide b.delegatablePolicyIds.Nodup && b.delegatablePolicyIds.all (Js.boundedText 256) &&
    b.evidenceAuthority.all (fun v => campaignEvidenceAuthorityBound v b)

def validCampaignControl : CampaignControl → Bool
  | .custom => true
  | .fullControl b => validBoundary b

end Authority
end Wollipog

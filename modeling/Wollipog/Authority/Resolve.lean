import Wollipog.Authority.Request
/-!
# Resolve — who owns a campaign decision

`campaignWorkflowOwner`, the projection a person is shown, and `resolveCampaignAuthority`, the ladder that decides one
request or one workflow snapshot.
-/
namespace Wollipog
namespace Authority

inductive Snapshot
  | automationCreation
  | locationSwitch (repository : String)
  | campaignRepositoryAddition (repository : String)
  | issueClosure (repository : String) (issueAdmission : Bool)
  | campaignIssueScope (repository : String) (issueAdmission : Bool)
  | campaignFollowUpAdmission
  | implementationQuestion (question : String) (options : List (String × Option String))
  | ownerDecision
  | prMerge (repository : String)
  | reviewRoundExtension (repository : String)
  | mergedBranchDeletion (repository : String)
  | followUpIssuePublication (repository : String) (issueAdmission : Bool)
  | uiEvidenceApproval
deriving DecidableEq

def Snapshot.category : Snapshot → Category
  | .automationCreation => .automationCreation
  | .locationSwitch _ => .locationSwitch
  | .campaignRepositoryAddition _ => .campaignRepositoryAddition
  | .issueClosure .. => .issueClosure
  | .campaignIssueScope .. => .campaignIssueScope
  | .campaignFollowUpAdmission => .campaignFollowUpAdmission
  | .implementationQuestion .. => .delegatable .implementationQuestion
  | .ownerDecision => .ownerDecision
  | .prMerge _ => .delegatable .prMerge
  | .reviewRoundExtension _ => .delegatable .reviewRoundExtension
  | .mergedBranchDeletion _ => .delegatable .mergedBranchDeletion
  | .followUpIssuePublication .. => .delegatable .followUpIssuePublication
  | .uiEvidenceApproval => .delegatable .uiEvidenceApproval

def Snapshot.repository : Snapshot → Option String
  | .locationSwitch r | .campaignRepositoryAddition r | .issueClosure r _ | .campaignIssueScope r _ | .prMerge r
  | .reviewRoundExtension r | .mergedBranchDeletion r | .followUpIssuePublication r _ => some r
  | .automationCreation | .campaignFollowUpAdmission | .implementationQuestion .. | .ownerDecision
  | .uiEvidenceApproval => none

/-- `"issueAdmission" in snapshot && snapshot.issueAdmission` -/
def Snapshot.issueAdmission : Snapshot → Bool
  | .issueClosure _ a | .campaignIssueScope _ a | .followUpIssuePublication _ a => a
  | _ => false

inductive Basis | humanRequired | customPolicy | campaignDelegation | standingAuthorization | standingDecline
deriving DecidableEq, Repr

inductive Reason
  | customOwner | authorizedOperation | outsideBoundary | protectedRequest | unverifiedIntent | unsupportedProvider
  | humanRequiredRule | providerDeliveryUnavailable | declinedRequest | unresolvedEffects | reviewExtensionCapReached
  | ownerKept | credentialScreenReview | credentialScreenPending
deriving DecidableEq, Repr

structure Extra where
  requestClass : Option FullControlRequestClass := none
  decline : Bool := false
  credentialScreen : Option CredentialScreenFact := none
deriving DecidableEq

structure Evaluation where
  owner : Party
  basis : Basis
  reason : Reason
  operation : AuthorityOperation
  boundaryRevision : Option Int
  extra : Extra
deriving DecidableEq

inductive Source | providerQuestion | providerTool | providerElicitation | workflowRoute
deriving DecidableEq, Repr

inductive ReviewExtensionCap | within | exceeded
deriving DecidableEq, Repr

structure Input where
  control : Option CampaignControl
  parentControl : ParentControlMode
  decisions : ParentControlDecisionPolicy
  root : Bool
  supported : Bool
  request : Option PendingApproval := none
  snapshot : Option Snapshot := none
  trustedSource : Option Source := none
  humanRequired : Bool := false
  repositoryRoot : Option String := none
  reviewExtensionCap : Option ReviewExtensionCap := none
  credentialScreen : Option CredentialScreenFact := none

def fullControlBoundary : Option CampaignControl → Option CampaignAuthorityBoundary
  | some (.fullControl b) => if validBoundary b then some b else none
  | _ => none

def isFullControl : Option CampaignControl → Bool
  | some (.fullControl _) => true
  | _ => false

def campaignWorkflowOwner (control : Option CampaignControl) (decisions : ParentControlDecisionPolicy)
    (category : Category) (supported fullControlReviewExtensions : Bool) : Party :=
  if !supported then .human
  else
    match category with
    | .automationCreation | .campaignFollowUpAdmission | .ownerDecision | .locationSwitch
    | .campaignRepositoryAddition => .human
    | .issueClosure | .campaignIssueScope =>
      match fullControlBoundary control with
      | some b => if b.issueAuthority.isSome && b.operations.contains (.category category) then .orchestrator else .human
      | none => .human
    | .delegatable d =>
      if !isFullControl control then decisions d
      else if d = .reviewRoundExtension then
        if decisions d = .orchestrator || (fullControlReviewExtensions && (fullControlBoundary control).isSome) then
          .orchestrator
        else .human
      else
        match fullControlBoundary control with
        | some b => if b.operations.contains (.category category) then .orchestrator else .human
        | none => .human

/-- `operation`: the snapshot's category, or what kind of request it is. -/
def Input.operation (i : Input) : AuthorityOperation :=
  match i.snapshot with
  | some s => .category s.category
  | none =>
    if i.request.any (fun r => decide (r.kind = some .question)) then .question
    else if i.request.any (fun r => truthy r.governancePolicyId) then .policyAsk
    else .toolApproval

/-- `result` -/
def Input.result (i : Input) (owner : Party) (basis : Basis) (reason : Reason) (extra : Extra) : Evaluation :=
  ⟨owner, basis, reason, i.operation, (fullControlBoundary i.control).map CampaignAuthorityBoundary.revision, extra⟩

def Input.human (i : Input) (reason : Reason) : Evaluation := i.result .human .humanRequired reason {}

def Input.declined (i : Input) (c : FullControlRequestClass) (screen : Option CredentialScreenFact) : Evaluation :=
  i.result .orchestrator .standingDecline .declinedRequest ⟨some c, true, screen⟩

def Input.basis (i : Input) : Basis := if i.root then .standingAuthorization else .campaignDelegation

def Input.authorized (i : Input) (extra : Extra) : Evaluation :=
  i.result .orchestrator i.basis .authorizedOperation extra

def customEligible (i : Input) : Bool :=
  !i.root &&
    match i.snapshot with
    | some s => decide (campaignWorkflowOwner i.control i.decisions s.category true false = .orchestrator)
    | none => i.request.any (parentControlRequestEligible i.parentControl)

def cappedExtension (i : Input) (s : Snapshot) : Option ReviewExtensionCap :=
  if s.category = .delegatable .reviewRoundExtension && !i.root && i.trustedSource == some .workflowRoute &&
      (fullControlBoundary i.control).any (fun b =>
        s.repository.any (fun r => (campaignBoundaryRepository b r).isSome)) then i.reviewExtensionCap
  else none

def resolveCustom (i : Input) : Evaluation :=
  if customEligible i then i.result .orchestrator .customPolicy .customOwner {}
  else
    match i.snapshot.bind (cappedExtension i) with
    | some .within => i.result .orchestrator .campaignDelegation .authorizedOperation {}
    | some .exceeded => i.result .human .humanRequired .reviewExtensionCapReached {}
    | none => i.result .human .customPolicy .customOwner {}

section
variable (letterOrNumber : Char → Bool)

def resolveSnapshot (i : Input) (s : Snapshot) : Evaluation :=
  if i.trustedSource ≠ some .workflowRoute then i.human .unverifiedIntent
  else
    match s with
    | .implementationQuestion question options =>
      if credentialFormFloor letterOrNumber question options none then i.declined .secretsAndSignIn none
      else
        match i.credentialScreen with
        | none => i.authorized {}
        | some screen =>
          match screen.state with
          | .ask => i.declined .secretsAndSignIn (some screen)
          | .discusses => i.authorized { credentialScreen := some screen }
          | .review | .pending =>
            i.result .human .humanRequired .credentialScreenReview
              { credentialScreen := some { screen with state := .review } }
    | _ => i.authorized {}

/-- `provenanceVerified` -/
def provenanceVerified (i : Input) (r : PendingApproval) : Bool :=
  if r.kind = some .question then i.trustedSource == some .providerQuestion
  else i.trustedSource == some .providerTool || (r.kind == some .policyHook && i.trustedSource.isNone)

def effectClass (i : Input) (r : PendingApproval) (screened : Option ProtectedRequestClass) :
    Option FullControlRequestClass :=
  let question := decide (r.kind = some .question)
  if !provenanceVerified i r then
    if i.trustedSource = some .providerElicitation then some .externalElicitation else some .unverifiedToolEffects
  else if screened = some .escalation || screened = some .unverifiedForm then some .unverifiedToolEffects
  else if !question && !repositoryCodeToolIntent r i.repositoryRoot then some (toolEffectClass r)
  else if i.root && question then some .rootQuestions
  else none

def requestClass (i : Input) (b : CampaignAuthorityBoundary) (r : PendingApproval)
    (screened : Option ProtectedRequestClass) : Option FullControlRequestClass :=
  match effectClass i r screened with
  | some c => some c
  | none =>
    if truthy r.governancePolicyId && !r.governancePolicyId.any (fun p => b.delegatablePolicyIds.contains p) then
      some .undelegatedPolicyAsks
    else none

def resolveScreened (i : Input) (r : PendingApproval) (cls : Option FullControlRequestClass) (verifiedCode : Bool) :
    Evaluation :=
  let question := decide (r.kind = some .question)
  let screenable := if question then r.questions.any (fun qs => !qs.isEmpty)
    else !verifiedCode && !(i.root && cls.isSome)
  if screenable then
    let screen := r.credentialScreen.getD { state := .pending }
    match screen.state with
    | .ask => i.declined .secretsAndSignIn (some screen)
    | .pending => i.result .orchestrator .campaignDelegation .credentialScreenPending ⟨cls, false, some screen⟩
    | .review =>
      if i.root then
        i.result .orchestrator .standingDecline .authorizedOperation ⟨some (cls.getD .rootQuestions), true, some screen⟩
      else i.result .human .humanRequired .credentialScreenReview ⟨cls, false, some screen⟩
    | .discusses =>
      if i.root && cls.isSome then
        i.result .orchestrator .standingDecline .authorizedOperation ⟨cls, true, some screen⟩
      else i.authorized ⟨cls, false, some screen⟩
  else if i.root && cls.isSome then i.result .orchestrator .standingDecline .authorizedOperation ⟨cls, true, none⟩
  else i.authorized ⟨cls, false, none⟩

def resolveRequest (i : Input) (b : CampaignAuthorityBoundary) (r : PendingApproval) : Evaluation :=
  let question := decide (r.kind = some .question)
  let verifiedCode := i.trustedSource == some .providerTool && repositoryCodeToolIntent r i.repositoryRoot
  let screened := protectedRequestClass letterOrNumber r verifiedCode
  if screened = some .secretsAndSignIn then i.declined .secretsAndSignIn none
  else if screened = some .providerAccessExpansion then i.declined .providerAccessExpansion none
  else if screened = some .persistentPermissions then i.declined .persistentPermissions none
  else if screened = some .guardrail ||
      r.kind.any (fun k => k != .question && k != .permission && k != .policyHook) then i.human .protectedRequest
  else if !question && !r.options.any (fun o => o.kind == some "allow_once") then i.declined .persistentPermissions none
  else
    let cls := requestClass i b r screened
    if !question && !campaignContainedOperation r i.repositoryRoot then
      i.result .orchestrator .standingDecline .unresolvedEffects ⟨cls, true, none⟩
    else resolveScreened i r cls verifiedCode

/-- Past the custom controls: the boundary must be valid and hold the operation and the repository. -/
def resolveFullControl (i : Input) : Evaluation :=
  match fullControlBoundary i.control with
  | none => i.human .outsideBoundary
  | some b =>
    if i.request.any PendingApproval.standingAdmissionFailure then i.human .providerDeliveryUnavailable
    else if i.snapshot.any (fun s => s.category == .delegatable .followUpIssuePublication && b.issueAuthority.isSome &&
        !s.issueAdmission) then i.human .unverifiedIntent
    else if !b.operations.contains i.operation || i.snapshot.any (fun s =>
        s.repository.any (fun r => (campaignBoundaryRepository b r).isNone)) then i.human .outsideBoundary
    else
      match i.snapshot, i.request with
      | some s, _ => resolveSnapshot letterOrNumber i s
      | none, some r => resolveRequest letterOrNumber i b r
      | none, none => i.human .unverifiedIntent

def isPersonsCategory : Category → Bool
  | .automationCreation | .campaignFollowUpAdmission | .locationSwitch | .campaignRepositoryAddition => true
  | _ => false

def isIssueCategory : Category → Bool
  | .issueClosure | .campaignIssueScope => true
  | _ => false

def resolveCampaignAuthority (i : Input) : Evaluation :=
  if i.request.isSome = i.snapshot.isSome then i.human .unverifiedIntent
  else if i.snapshot.any (fun s => s.category == .ownerDecision) then i.human .ownerKept
  else if i.snapshot.any (fun s => isPersonsCategory s.category) then i.human .protectedRequest
  else if !i.supported then i.human .unsupportedProvider
  else if i.humanRequired then
    i.result .human .humanRequired .humanRequiredRule
      { requestClass := if isFullControl i.control then some .humanRequiredRules else none }
  else if i.snapshot.any (fun s => isIssueCategory s.category && !((fullControlBoundary i.control).any (fun b =>
      b.issueAuthority.isSome) && s.issueAdmission)) then i.human .protectedRequest
  else if !isFullControl i.control ||
      i.snapshot.any (fun s => s.category == .delegatable .reviewRoundExtension) then resolveCustom i
  else resolveFullControl letterOrNumber i

end

end Authority
end Wollipog

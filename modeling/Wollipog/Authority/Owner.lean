import Wollipog.Authority.Resolve
/-!
# Owner — what the ladder gives away, and what it never does

The exits of `resolveCampaignAuthority` one after the other: what a decision has passed when it reaches the
orchestrator, and what the projection promises.
-/
namespace Wollipog
namespace Authority

variable {letterOrNumber : Char → Bool} {i : Input}

structure Passed (i : Input) : Prop where
  one : i.request.isSome ≠ i.snapshot.isSome
  notKept : ∀ s, i.snapshot = some s → s.category ≠ .ownerDecision
  notPersons : ∀ s, i.snapshot = some s → isPersonsCategory s.category = false
  supported : i.supported = true
  notHumanRequired : i.humanRequired = false
  issueAdmitted : ∀ s, i.snapshot = some s → isIssueCategory s.category = true →
    ∃ b, fullControlBoundary i.control = some b ∧ b.issueAuthority.isSome = true ∧ s.issueAdmission = true

theorem not_any_some {α : Type} {o : Option α} {p : α → Bool} (h : ¬ o.any p = true) {a : α} (ha : o = some a) :
    p a = false := by
  subst ha
  exact Bool.not_eq_true _ ▸ h

/-- **The ladder down to the control mode**: a person owns the decision, or it has passed every exit before. -/
theorem resolve_passed (h : (resolveCampaignAuthority letterOrNumber i).owner = .orchestrator) :
    Passed i ∧ resolveCampaignAuthority letterOrNumber i =
      (if !isFullControl i.control || i.snapshot.any (fun s => s.category == .delegatable .reviewRoundExtension) then
        resolveCustom i else resolveFullControl letterOrNumber i) := by
  unfold resolveCampaignAuthority at h ⊢
  split at h
  · cases h
  rename_i hone
  split at h
  · cases h
  rename_i hkept
  split at h
  · cases h
  rename_i hpersons
  split at h
  · cases h
  rename_i hsup
  split at h
  · cases h
  rename_i hreq
  split at h
  · cases h
  rename_i hissue
  have hpassed : Passed i := by
    refine ⟨hone, fun s hs heq => ?_, fun s hs => not_any_some hpersons hs, by simpa using hsup, by simpa using hreq,
      fun s hs hcat => ?_⟩
    · have := not_any_some hkept hs
      rw [heq] at this
      cases this
    · have hno := not_any_some hissue hs
      rw [hcat, Bool.true_and, Bool.not_eq_false', Bool.and_eq_true] at hno
      obtain ⟨hb, ha⟩ := hno
      obtain ⟨b, hfb, hsome⟩ := (Option.any_eq_true _ _).1 hb
      exact ⟨b, hfb, hsome, ha⟩
  refine ⟨hpassed, ?_⟩
  rw [if_neg hone, if_neg hkept, if_neg hpersons, if_neg hsup, if_neg hreq, if_neg hissue]

theorem resolveFullControl_passed (h : (resolveFullControl letterOrNumber i).owner = .orchestrator) :
    ∃ b, fullControlBoundary i.control = some b ∧ b.operations.contains i.operation = true ∧
      ((∃ s, i.snapshot = some s ∧ resolveFullControl letterOrNumber i = resolveSnapshot letterOrNumber i s) ∨
        ∃ r, i.snapshot = none ∧ i.request = some r ∧
          resolveFullControl letterOrNumber i = resolveRequest letterOrNumber i b r) := by
  unfold resolveFullControl at h ⊢
  cases hb : fullControlBoundary i.control with
  | none =>
    rw [hb] at h
    cases h
  | some b =>
    rw [hb] at h
    simp only at h ⊢
    split at h
    · cases h
    rename_i hfail
    split at h
    · cases h
    rename_i hpub
    split at h
    · cases h
    rename_i hout
    rw [if_neg hfail, if_neg hpub, if_neg hout]
    have hcarries : b.operations.contains i.operation = true := by
      cases hc : b.operations.contains i.operation with
      | true => rfl
      | false => exact absurd (by rw [hc]; rfl) hout
    refine ⟨b, rfl, hcarries, ?_⟩
    cases hs : i.snapshot with
    | some s => exact .inl ⟨s, rfl, rfl⟩
    | none =>
      cases hr : i.request with
      | some r => exact .inr ⟨r, rfl, rfl, rfl⟩
      | none =>
        rw [hs, hr] at h
        cases h

variable {category : Category} {r : PendingApproval} {b : CampaignAuthorityBoundary}

theorem fullControlBoundary_isFullControl {c : Option CampaignControl}
    (h : fullControlBoundary c = some b) : isFullControl c = true := by
  unfold fullControlBoundary at h
  split at h
  · rfl
  · cases h

variable {decisions : ParentControlDecisionPolicy} {control : Option CampaignControl}

theorem projects_carried (hb : fullControlBoundary control = some b)
    (hkept : category ≠ .ownerDecision) (hpersons : isPersonsCategory category = false)
    (hissue : isIssueCategory category = true → b.issueAuthority.isSome = true)
    (hround : category ≠ .delegatable .reviewRoundExtension)
    (hcarries : b.operations.contains (.category category) = true) (ext : Bool) :
    campaignWorkflowOwner control decisions category true ext = .orchestrator := by
  have hfull := fullControlBoundary_isFullControl hb
  cases category with
  | automationCreation => cases hpersons
  | campaignFollowUpAdmission => cases hpersons
  | locationSwitch => cases hpersons
  | campaignRepositoryAddition => cases hpersons
  | ownerDecision => exact absurd rfl hkept
  | issueClosure =>
    simp only [campaignWorkflowOwner, hb, hissue rfl, hcarries]
    rfl
  | campaignIssueScope =>
    simp only [campaignWorkflowOwner, hb, hissue rfl, hcarries]
    rfl
  | delegatable d =>
    have hd : d ≠ .reviewRoundExtension := fun h => hround (congrArg Category.delegatable h)
    simp only [campaignWorkflowOwner, hb, hfull, hcarries, if_neg hd]
    rfl

theorem projects_extension (hb : fullControlBoundary control = some b) :
    campaignWorkflowOwner control decisions (.delegatable .reviewRoundExtension) true true = .orchestrator := by
  have hfull := fullControlBoundary_isFullControl hb
  simp only [campaignWorkflowOwner, hb, hfull]
  simp

theorem projects_mono {supported : Bool} (h : campaignWorkflowOwner control decisions category supported false = .orchestrator)
    (ext : Bool) : campaignWorkflowOwner control decisions category supported ext = .orchestrator := by
  cases ext with
  | false => exact h
  | true =>
    unfold campaignWorkflowOwner at h ⊢
    split
    · rename_i hs
      rw [if_pos hs] at h
      exact h
    rename_i hs
    rw [if_neg hs] at h
    cases category with
    | delegatable d =>
      simp only at h ⊢
      split
      · rename_i hc
        rwa [if_pos hc] at h
      rename_i hc
      rw [if_neg hc] at h
      split
      · rename_i hd
        rw [if_pos hd] at h
        split
        · rfl
        · rename_i hno
          split at h
          · rename_i hyes
            rw [Bool.false_and, Bool.or_false] at hyes
            exact absurd (by rw [hyes]; rfl) hno
          · cases h
      · rename_i hd
        rwa [if_neg hd] at h
    | _ => exact h

theorem resolveCustom_projected {s : Snapshot} (hs : i.snapshot = some s)
    (h : (resolveCustom i).owner = .orchestrator) {ext : Bool} (hcap : i.reviewExtensionCap.isSome = true → ext = true) :
    campaignWorkflowOwner i.control i.decisions s.category true ext = .orchestrator := by
  unfold resolveCustom at h
  split at h
  · rename_i helig
    unfold customEligible at helig
    rw [hs] at helig
    simp only [Bool.and_eq_true, decide_eq_true_eq] at helig
    exact projects_mono helig.2 ext
  · rw [hs, Option.bind_some] at h
    cases hc : cappedExtension i s with
    | none =>
      rw [hc] at h
      cases h
    | some c =>
      unfold cappedExtension at hc
      split at hc
      · rename_i hcond
        simp only [Bool.and_eq_true, decide_eq_true_eq] at hcond
        obtain ⟨⟨⟨hcat, -⟩, -⟩, hb⟩ := hcond
        obtain ⟨b, hfb, -⟩ := (Option.any_eq_true _ _).1 hb
        have hext : ext = true := hcap (by rw [hc]; rfl)
        rw [hext, hcat]
        exact projects_extension hfb
      · cases hc

/-- **The projection never promises less than the resolver demands**: what it shows a person, a person decides. -/
theorem projected_human_resolves_human (letterOrNumber : Char → Bool) (i : Input) (fullControlReviewExtensions : Bool)
    (hcap : i.reviewExtensionCap.isSome = true → fullControlReviewExtensions = true) (s : Snapshot)
    (hs : i.snapshot = some s)
    (h : campaignWorkflowOwner i.control i.decisions s.category i.supported fullControlReviewExtensions = .human) :
    (resolveCampaignAuthority letterOrNumber i).owner = .human := by
  cases howner : (resolveCampaignAuthority letterOrNumber i).owner with
  | human => rfl
  | orchestrator =>
    obtain ⟨hp, heq⟩ := resolve_passed howner
    rw [heq] at howner
    rw [hp.supported] at h
    have key : campaignWorkflowOwner i.control i.decisions s.category true fullControlReviewExtensions =
        .orchestrator := by
      split at howner
      · exact resolveCustom_projected hs howner hcap
      · rename_i hmode
        obtain ⟨b, hb, hcarries, -⟩ := resolveFullControl_passed howner
        have hround : s.category ≠ .delegatable .reviewRoundExtension := by
          intro hc
          refine hmode ?_
          rw [hs, Option.any_some, hc]
          exact Bool.or_true _
        have hissue : isIssueCategory s.category = true → b.issueAuthority.isSome = true := by
          intro hcat
          obtain ⟨b', hb', hsome, -⟩ := hp.issueAdmitted s hs hcat
          rw [hb] at hb'
          cases hb'
          exact hsome
        have hop : i.operation = .category s.category := by
          unfold Input.operation
          rw [hs]
        rw [hop] at hcarries
        exact projects_carried hb (hp.notKept s hs) (hp.notPersons s hs) hissue hround hcarries _
    rw [key] at h
    cases h

theorem projected_human_resolves_human_sample : (resolveCampaignAuthority Char.isAlphanum
      { control := some .custom, parentControl := .off, decisions := fun _ => .human, root := false, supported := true,
        snapshot := some (.prMerge "acme/site"), trustedSource := some .workflowRoute }).owner = .human :=
  projected_human_resolves_human Char.isAlphanum
    { control := some .custom, parentControl := .off, decisions := fun _ => .human, root := false, supported := true,
      snapshot := some (.prMerge "acme/site"), trustedSource := some .workflowRoute } false (fun h => by cases h)
    (.prMerge "acme/site") rfl rfl

def Below (root : List Char) (path : String) : Prop :=
  (normalizeChars path = root ∨ root ++ ['/'] <+: normalizeChars path) ∧
    "..".toList ∉ Js.splitAt (· == '/') (normalizeChars path)

theorem inside_below {root : List Char} {path : String} (h : inside root path = true) : Below root path := by
  simp only [inside, Bool.and_eq_true, Bool.or_eq_true, beq_iff_eq, List.isPrefixOf_iff_prefix, Bool.not_eq_true',
    hasDotDot] at h
  obtain ⟨⟨-, hroot⟩, hdots⟩ := h
  refine ⟨hroot, fun hmem => ?_⟩
  have := List.contains_iff_mem.2 hmem
  rw [hdots] at this
  cases this

/-- Every resolved target, and the resolved working directory, lie inside the session's own root. -/
structure Contained (r : PendingApproval) (repositoryRoot : Option String) where
  resolved : List String
  evidence : Filesystem
  containment : Containment
  root : String
  targets : campaignResolvedOperationTargets r = some resolved
  filesystem : r.operation.bind Operation.filesystem = some evidence
  attested : evidence.containment = some containment
  known : repositoryRoot = some root
  sameRoot : normalize containment.sessionRoot = normalize root
  targetsBelow : ∀ path ∈ resolved, Below (normalizeChars containment.root) path
  cwdBelow : ∀ cwd, evidence.cwd = some cwd → Below (normalizeChars containment.root) cwd

theorem contained_of_operation {repositoryRoot : Option String}
    (h : campaignContainedOperation r repositoryRoot = true) : Nonempty (Contained r repositoryRoot) := by
  unfold campaignContainedOperation at h
  split at h
  · rename_i resolved evidence hres hev
    split at h
    · rename_i containment root hc
      simp only [Bool.and_eq_true, beq_iff_eq, List.all_eq_true] at h
      obtain ⟨⟨⟨-, hsame⟩, htargets⟩, hcwd⟩ := h
      refine ⟨⟨resolved, evidence, containment, root, hres, hev, hc, rfl, hsame,
        fun path hp => inside_below (htargets path hp), fun cwd hcw => ?_⟩⟩
      rw [hcw, Option.all_some] at hcwd
      exact inside_below hcwd
    · cases h
  · cases h

/-! ## Automatic approvals -/

theorem toolEffectClass_not_declined (r : PendingApproval) : toolEffectClass r ∉ fullControlDeclinedClasses := by
  unfold toolEffectClass
  split
  · split
    · decide
    · split <;> decide
  · decide

theorem requestClass_not_declined (i : Input) (b : CampaignAuthorityBoundary) (r : PendingApproval)
    (screened : Option ProtectedRequestClass) {c : FullControlRequestClass} (h : requestClass i b r screened = some c) :
    c ∉ fullControlDeclinedClasses := by
  have heffect : ∀ c, effectClass i r screened = some c → c ∉ fullControlDeclinedClasses := by
    intro c hc
    unfold effectClass at hc
    simp only at hc
    split at hc
    · split at hc
      · cases hc; decide
      · cases hc; decide
    split at hc
    · cases hc; decide
    split at hc
    · cases hc
      exact toolEffectClass_not_declined r
    split at hc
    · cases hc; decide
    · cases hc
  unfold requestClass at h
  split at h
  · rename_i c' hc'
    cases h
    exact heffect _ hc'
  · split at h
    · cases h; decide
    · cases h

/-- The screening result an evaluation rests on: none for verified repository code. -/
def Screened (r : PendingApproval) (verifiedCode : Bool) (e : Evaluation) : Prop :=
  (verifiedCode = true ∧ e.extra.credentialScreen = none) ∨
    ∃ screen, e.extra.credentialScreen = some screen ∧ screen = r.credentialScreen.getD { state := .pending } ∧
      (screen.state = .discusses ∨ (screen.state = .pending ∧ e.reason = .credentialScreenPending))

theorem resolveScreened_approved (hq : r.kind ≠ some .question) {cls : Option FullControlRequestClass} {verifiedCode : Bool}
    (howner : (resolveScreened i r cls verifiedCode).owner = .orchestrator)
    (hdecline : (resolveScreened i r cls verifiedCode).extra.decline = false) :
    (resolveScreened i r cls verifiedCode).extra.requestClass = cls ∧ ¬ (i.root = true ∧ cls.isSome = true) ∧
      Screened r verifiedCode (resolveScreened i r cls verifiedCode) := by
  have hnq : decide (r.kind = some .question) = false := decide_eq_false hq
  unfold resolveScreened at howner hdecline ⊢
  simp only [hnq, Bool.false_eq_true, if_false] at howner hdecline ⊢
  by_cases hs : (!verifiedCode && !(i.root && cls.isSome)) = true
  · rw [if_pos hs] at howner hdecline ⊢
    simp only [Bool.and_eq_true, Bool.not_eq_true'] at hs
    obtain ⟨-, hroot⟩ := hs
    have hno : ¬ (i.root = true ∧ cls.isSome = true) := by
      rintro ⟨hr, hc⟩
      rw [hr, hc] at hroot
      cases hroot
    cases hstate : (r.credentialScreen.getD { state := .pending }).state with
    | ask =>
      rw [hstate] at hdecline
      cases hdecline
    | pending => exact ⟨rfl, hno, .inr ⟨_, rfl, rfl, .inr ⟨hstate, rfl⟩⟩⟩
    | review =>
      rw [hstate] at howner hdecline
      simp only at howner hdecline
      split at howner
      · rename_i hr
        rw [if_pos hr] at hdecline
        cases hdecline
      · cases howner
    | discusses =>
      rw [hstate] at hdecline
      simp only [hroot] at hdecline ⊢
      exact ⟨rfl, hno, .inr ⟨_, rfl, rfl, .inl hstate⟩⟩
  · rw [if_neg hs] at howner hdecline ⊢
    by_cases hrc : (i.root && cls.isSome) = true
    · rw [if_pos hrc] at hdecline
      cases hdecline
    · rw [if_neg hrc] at hdecline ⊢
      have hverified : verifiedCode = true := by
        cases hv : verifiedCode with
        | true => rfl
        | false => exact absurd (by rw [hv, Bool.eq_false_iff.2 hrc]; rfl) hs
      refine ⟨rfl, fun ⟨hr, hc⟩ => hrc (by rw [hr, hc]; rfl), .inl ⟨hverified, rfl⟩⟩

def floorClasses : List ProtectedRequestClass :=
  [.secretsAndSignIn, .providerAccessExpansion, .persistentPermissions, .guardrail]

/-- **What an automatic approval of a tool request has passed.** -/
structure Approved (letterOrNumber : Char → Bool) (i : Input) (r : PendingApproval) (e : Evaluation) : Prop where
  supported : i.supported = true
  notHumanRequired : i.humanRequired = false
  boundary : ∃ b, fullControlBoundary i.control = some b ∧ b.operations.contains i.operation = true
  allowOnce : ∃ o ∈ r.options, o.kind = some "allow_once"
  operation : campaignContainedOperation r i.repositoryRoot = true
  contained : Nonempty (Contained r i.repositoryRoot)
  floor : ∀ c ∈ floorClasses, protectedRequestClass letterOrNumber r
    (i.trustedSource == some .providerTool && repositoryCodeToolIntent r i.repositoryRoot) ≠ some c
  requestClass : ∀ c ∈ fullControlDeclinedClasses, e.extra.requestClass ≠ some c
  screened : Screened r (i.trustedSource == some .providerTool && repositoryCodeToolIntent r i.repositoryRoot) e

theorem resolveRequest_approved (hq : r.kind ≠ some .question)
    (howner : (resolveRequest letterOrNumber i b r).owner = .orchestrator)
    (hdecline : (resolveRequest letterOrNumber i b r).extra.decline = false) :
    let verified := i.trustedSource == some .providerTool && repositoryCodeToolIntent r i.repositoryRoot
    let screened := protectedRequestClass letterOrNumber r verified
    (∃ o ∈ r.options, o.kind = some "allow_once") ∧ campaignContainedOperation r i.repositoryRoot = true ∧
      (∀ c ∈ floorClasses, screened ≠ some c) ∧ ¬ (i.root = true ∧ (requestClass i b r screened).isSome = true) ∧
      (resolveRequest letterOrNumber i b r).extra.requestClass = requestClass i b r screened ∧
      Screened r verified (resolveRequest letterOrNumber i b r) := by
  have hnq : decide (r.kind = some .question) = false := decide_eq_false hq
  intro verified screened
  unfold resolveRequest at howner hdecline ⊢
  simp only [hnq, Bool.not_false, Bool.true_and] at howner hdecline ⊢
  have hverified : (i.trustedSource == some .providerTool && repositoryCodeToolIntent r i.repositoryRoot) = verified := rfl
  have hscreened : protectedRequestClass letterOrNumber r verified = screened := rfl
  rw [hverified, hscreened] at howner hdecline ⊢
  by_cases h1 : screened = some .secretsAndSignIn
  · rw [if_pos h1] at hdecline
    cases hdecline
  rw [if_neg h1] at howner hdecline ⊢
  by_cases h2 : screened = some .providerAccessExpansion
  · rw [if_pos h2] at hdecline
    cases hdecline
  rw [if_neg h2] at howner hdecline ⊢
  by_cases h3 : screened = some .persistentPermissions
  · rw [if_pos h3] at hdecline
    cases hdecline
  rw [if_neg h3] at howner hdecline ⊢
  split at howner
  · cases howner
  rename_i h4
  rw [if_neg h4] at hdecline ⊢
  split at howner
  · rename_i h5
    rw [if_pos h5] at hdecline
    cases hdecline
  rename_i h5
  rw [if_neg h5] at hdecline ⊢
  split at howner
  · rename_i h6
    rw [if_pos h6] at hdecline
    cases hdecline
  rename_i h6
  rw [if_neg h6] at hdecline ⊢
  obtain ⟨hcls, hroot, hscr⟩ := resolveScreened_approved hq howner hdecline
  have hallow : ∃ o ∈ r.options, o.kind = some "allow_once" := by
    have hany : r.options.any (fun o => o.kind == some "allow_once") = true := by simpa using h5
    obtain ⟨o, ho, hk⟩ := List.any_eq_true.1 hany
    exact ⟨o, ho, beq_iff_eq.1 hk⟩
  have hcont : campaignContainedOperation r i.repositoryRoot = true := by simpa using h6
  have hguard : screened ≠ some .guardrail := by
    intro hg
    refine h4 ?_
    rw [hg]
    rfl
  have hfloor : ∀ c ∈ floorClasses, screened ≠ some c := by
    intro c hc
    simp only [floorClasses, List.mem_cons, List.not_mem_nil, or_false] at hc
    rcases hc with rfl | rfl | rfl | rfl
    · exact h1
    · exact h2
    · exact h3
    · exact hguard
  exact ⟨hallow, hcont, hfloor, hroot, hcls, hscr⟩

def UndelegatedAsk (i : Input) (r : PendingApproval) : Prop :=
  truthy r.governancePolicyId = true ∧ ∀ b, fullControlBoundary i.control = some b →
    ∀ p, r.governancePolicyId = some p → p ∉ b.delegatablePolicyIds

/-- The effect of a request is not verified: its provenance, its files, or an envelope that escalates it. -/
def UnverifiedEffect (letterOrNumber : Char → Bool) (i : Input) (r : PendingApproval) : Prop :=
  provenanceVerified i r = false ∨ repositoryCodeToolIntent r i.repositoryRoot = false ∨
    protectedRequestClass letterOrNumber r
      (i.trustedSource == some .providerTool && repositoryCodeToolIntent r i.repositoryRoot) = some .escalation

theorem requestClass_isSome (hb : fullControlBoundary i.control = some b) (hq : r.kind ≠ some .question)
    (h : UndelegatedAsk i r ∨ UnverifiedEffect letterOrNumber i r) :
    (requestClass i b r (protectedRequestClass letterOrNumber r
      (i.trustedSource == some .providerTool && repositoryCodeToolIntent r i.repositoryRoot))).isSome = true := by
  unfold requestClass
  cases he : effectClass i r (protectedRequestClass letterOrNumber r
      (i.trustedSource == some .providerTool && repositoryCodeToolIntent r i.repositoryRoot)) with
  | some c => rfl
  | none =>
    have hnq : decide (r.kind = some .question) = false := decide_eq_false hq
    unfold effectClass at he
    simp only [hnq] at he
    split at he
    · split at he <;> cases he
    rename_i hprov
    split at he
    · cases he
    rename_i hesc
    split at he
    · cases he
    rename_i hcode
    rcases h with ⟨htruthy, hundelegated⟩ | hprov' | hcode' | hesc'
    · have hno : r.governancePolicyId.any (fun p => b.delegatablePolicyIds.contains p) = false := by
        cases hp : r.governancePolicyId with
        | none => rfl
        | some p =>
          rw [Option.any_some, Bool.eq_false_iff]
          exact fun hc => hundelegated b hb p hp (List.contains_iff_mem.1 hc)
      simp only [htruthy, hno]
      rfl
    · exact absurd (by rw [hprov']; rfl) hprov
    · exact absurd (by rw [hcode']; rfl) hcode
    · exact absurd (by rw [hesc']; rfl) hesc

/-- **Automatic approval is contained**: what Full Control gives to the orchestrator has passed every check, and the kept
decisions stay a person's. -/
theorem automatic_approval_contained (letterOrNumber : Char → Bool) (i : Input) :
    (∀ r, i.request = some r → r.kind ≠ some .question → isFullControl i.control = true →
      (resolveCampaignAuthority letterOrNumber i).extra.decline = false →
      (resolveCampaignAuthority letterOrNumber i).owner = .orchestrator →
        Approved letterOrNumber i r (resolveCampaignAuthority letterOrNumber i)) ∧
    (∀ s, i.snapshot = some s → s.category ∈ [.ownerDecision, .automationCreation, .campaignFollowUpAdmission,
      .locationSwitch, .campaignRepositoryAddition] →
        (resolveCampaignAuthority letterOrNumber i).owner = .human) ∧
    (i.humanRequired = true → (resolveCampaignAuthority letterOrNumber i).owner = .human) ∧
    (∀ r, i.request = some r → r.kind ≠ some .question → i.root = true →
      UndelegatedAsk i r ∨ UnverifiedEffect letterOrNumber i r →
        (resolveCampaignAuthority letterOrNumber i).owner = .human ∨
          (resolveCampaignAuthority letterOrNumber i).extra.decline = true) := by
  have hnone : ∀ r, i.request = some r → Passed i → i.snapshot = none := by
    intro r hr hp
    cases hs : i.snapshot with
    | none => rfl
    | some s => exact absurd (by rw [hr, hs]; rfl) hp.one
  refine ⟨fun r hr hq hfull hdecline howner => ?_, fun s hs hcat => ?_, fun hreq => ?_, fun r hr hq hroot hbad => ?_⟩
  · obtain ⟨hp, heq⟩ := resolve_passed howner
    have hs := hnone r hr hp
    rw [hfull, hs] at heq
    have heq' : resolveCampaignAuthority letterOrNumber i = resolveFullControl letterOrNumber i := heq
    rw [heq'] at howner hdecline ⊢
    obtain ⟨b, hb, hcarries, ⟨s, hs', -⟩ | ⟨r', -, hr', heqr⟩⟩ := resolveFullControl_passed howner
    · rw [hs] at hs'
      cases hs'
    rw [hr] at hr'
    cases hr'
    rw [heqr] at howner hdecline ⊢
    obtain ⟨hallow, hcont, hfloor, -, hcls, hscr⟩ := resolveRequest_approved hq howner hdecline
    refine ⟨hp.supported, hp.notHumanRequired, ⟨b, hb, hcarries⟩, hallow, hcont, contained_of_operation hcont, hfloor,
      fun c hc hsome => ?_, hscr⟩
    rw [hcls] at hsome
    exact requestClass_not_declined i b r _ hsome hc
  · cases howner : (resolveCampaignAuthority letterOrNumber i).owner with
    | human => rfl
    | orchestrator =>
      obtain ⟨hp, -⟩ := resolve_passed howner
      have hk := hp.notKept s hs
      have hpc := hp.notPersons s hs
      simp only [List.mem_cons, List.not_mem_nil, or_false] at hcat
      rcases hcat with hc | hc | hc | hc | hc
      · exact absurd hc hk
      all_goals
        rw [hc] at hpc
        cases hpc
  · cases howner : (resolveCampaignAuthority letterOrNumber i).owner with
    | human => rfl
    | orchestrator =>
      have hp := (resolve_passed howner).1.notHumanRequired
      rw [hreq] at hp
      cases hp
  · cases howner : (resolveCampaignAuthority letterOrNumber i).owner with
    | human => exact .inl rfl
    | orchestrator =>
      refine .inr ?_
      cases hdecline : (resolveCampaignAuthority letterOrNumber i).extra.decline with
      | true => rfl
      | false =>
        obtain ⟨hp, heq⟩ := resolve_passed howner
        have hs := hnone r hr hp
        rw [heq] at howner hdecline
        split at howner
        · -- a root has no say under a Custom control
          unfold resolveCustom at howner
          rw [hs] at howner
          have hne : customEligible i = false := by
            unfold customEligible
            rw [hroot]
            rfl
          rw [hne] at howner
          cases howner
        · rename_i hmode
          rw [if_neg hmode] at hdecline
          obtain ⟨b, hb, hcarries, ⟨s, hs', -⟩ | ⟨r', -, hr', heqr⟩⟩ := resolveFullControl_passed howner
          · rw [hs] at hs'
            cases hs'
          rw [hr] at hr'
          cases hr'
          rw [heqr] at howner hdecline
          obtain ⟨-, -, -, hno, -, -⟩ := resolveRequest_approved hq howner hdecline
          exact absurd ⟨hroot, requestClass_isSome hb hq hbad⟩ hno

def sampleBoundary : CampaignAuthorityBoundary where
  revision := 1
  issueScopeRevision := 1
  repository := "acme/site"
  objective := "Ship the release"
  authorizedByUserId := "u1"
  authorizedAt := 1
  operations := [.toolApproval]
  delegatablePolicyIds := []
  issueAuthority := none
  budgetAuthority := none
  evidenceAuthority := none
  repositories := none

def sampleCat (path : String) : PendingApproval where
  title := "Print a file"
  options := [{ optionId := "allow", name := "Allow", kind := some "allow_once" }]
  kind := some .permission
  context := some {
    toolName := some "Bash"
    operation := some {
      kind := .command ("cat " ++ path) (some "/w")
      filesystem := some ⟨some "/w", [{ path, resolvedPath := path }], some ⟨"/w", "/w"⟩⟩ } }

def sampleChild (r : PendingApproval) : Input where
  control := some (.fullControl sampleBoundary)
  parentControl := .off
  decisions _ := .human
  root := false
  supported := true
  request := some r
  trustedSource := some .providerTool
  repositoryRoot := some "/w"

theorem automatic_approval_contained_sample : Approved Char.isAlphanum (sampleChild (sampleCat "/w/a.ts")) (sampleCat "/w/a.ts")
      (resolveCampaignAuthority Char.isAlphanum (sampleChild (sampleCat "/w/a.ts"))) :=
  (automatic_approval_contained Char.isAlphanum (sampleChild (sampleCat "/w/a.ts"))).1 (sampleCat "/w/a.ts") rfl
    (by decide) rfl (by decide +kernel) (by decide +kernel)

/-- **A request whose screen is pending is the orchestrator's too**, which waits for it. -/
theorem pending_screen_is_orchestrators : ∃ i r, i.request = some r ∧ r.kind ≠ some .question ∧ isFullControl i.control = true ∧
      (resolveCampaignAuthority Char.isAlphanum i).extra.decline = false ∧
      (resolveCampaignAuthority Char.isAlphanum i).owner = .orchestrator ∧
      (resolveCampaignAuthority Char.isAlphanum i).extra.credentialScreen = some { state := .pending } := by
  refine ⟨sampleChild (sampleCat "/w/a.txt"), sampleCat "/w/a.txt", rfl, by decide, rfl, ?_⟩
  decide +kernel

end Authority
end Wollipog

import Mathlib.Algebra.Order.Ring.Rat
import Mathlib.Data.List.Sort
import Wollipog.Policy.Glob
/-!
# Decision — which policy decides an approval

The matching policies are sorted by priority, then by effect, then by id; the first one decides.
-/
namespace Wollipog.Policy

inductive GovernancePolicyEffect
  | allow | deny | ask
  deriving DecidableEq

/-- `EFFECT_ORDER` -/
def GovernancePolicyEffect.order : GovernancePolicyEffect → ℕ
  | .deny => 3
  | .ask => 2
  | .allow => 1

/-- `GovernanceScope`, of a request or as the selectors of a policy. -/
structure GovernanceScope where
  organizationId : Option Text
  runnerId : Option Text
  workspaceId : Option Text
  agentId : Option Text
  toolName : Option Text
  path : Option Text
  network : Option Text
  branch : Option Text

inductive SessionStatus
  | queued | starting | running | inputRequired | idle | completed | failed | stopped
  deriving DecidableEq

structure PolicyConditions where
  issueLabels : Option (List Text)
  statuses : Option (List SessionStatus)
  minCostUsd : Option ℚ
  maxCostUsd : Option ℚ
  minToolCalls : Option ℕ
  maxToolCalls : Option ℕ
  escalated : Option Bool

structure GovernancePolicy where
  policyId : Text
  effect : GovernancePolicyEffect
  priority : ℤ
  enabled : Bool
  questionRule : Bool
  scope : GovernanceScope
  conditions : Option PolicyConditions

structure ApprovalPolicyInput where
  scope : GovernanceScope
  status : SessionStatus
  costUsd : ℚ
  toolCallCount : ℕ
  escalated : Bool

/-- What the platform supplies: Windows paths, `networkPatternMatches` and `localeCompare`. -/
structure Platform where
  paths : WindowsPaths
  networkPatternMatches : Option Text → Text → Bool
  localeCompare : Text → Text → ℤ
  compare_total : ∀ a b, localeCompare a b ≤ 0 ∨ localeCompare b a ≤ 0
  compare_trans : ∀ a b c, localeCompare a b ≤ 0 → localeCompare b c ≤ 0 → localeCompare a c ≤ 0

def isDot (c : Char) : Bool := !isLineTerminator c

/-- Exact unless the selector has a `*`; then `.*` stands for it. -/
def scopePatternMatches (value : Option Text) (pattern : Text) : Bool :=
  match value with
  | none => false
  | some value =>
    if pattern.contains '*' then
      Wildcard.run (pattern.map (fun c => if c = '*' then .many isDot else .one c)) value
    else value == pattern

def policyMatches (env : Platform) (policy : GovernancePolicy) (input : ApprovalPolicyInput) : Bool :=
  let matchesScope (key : GovernanceScope → Option Text) : Bool := (key policy.scope).all (scopePatternMatches (key input.scope))
  matchesScope GovernanceScope.organizationId && matchesScope GovernanceScope.runnerId && matchesScope GovernanceScope.workspaceId &&
    matchesScope GovernanceScope.agentId && matchesScope GovernanceScope.toolName &&
    policy.scope.path.all (fun pattern => pathPatternMatches env.paths input.scope.path pattern == some true) &&
    policy.scope.network.all (env.networkPatternMatches input.scope.network) && matchesScope GovernanceScope.branch &&
    policy.conditions.all (fun c =>
      c.issueLabels.isNone && c.statuses.all (fun statuses => statuses.isEmpty || statuses.contains input.status) &&
        c.minCostUsd.all (fun v => decide (v ≤ input.costUsd)) && c.maxCostUsd.all (fun v => decide (input.costUsd ≤ v)) &&
        c.minToolCalls.all (fun v => decide (v ≤ input.toolCallCount)) &&
        c.maxToolCalls.all (fun v => decide (input.toolCallCount ≤ v)) && c.escalated.all (fun v => input.escalated == v))

def comesFirst (env : Platform) (a b : GovernancePolicy) : Bool :=
  if a.priority ≠ b.priority then decide (b.priority < a.priority)
  else if a.effect.order ≠ b.effect.order then decide (b.effect.order < a.effect.order)
  else decide (env.localeCompare a.policyId b.policyId ≤ 0)

structure ApprovalPolicyDecision where
  effect : GovernancePolicyEffect
  policy : Option GovernancePolicy
  matchedPolicyIds : List Text

def matching (env : Platform) (input : ApprovalPolicyInput) (policies : List GovernancePolicy) : List GovernancePolicy :=
  policies.filter (fun policy => !policy.questionRule && policy.enabled && policyMatches env policy input)

def evaluateApprovalPolicies (env : Platform) (input : ApprovalPolicyInput) (policies : List GovernancePolicy) : ApprovalPolicyDecision :=
  let matched := (matching env input policies).mergeSort (comesFirst env)
  { effect := (matched.head?.map GovernancePolicy.effect).getD .ask
    policy := matched.head?
    matchedPolicyIds := matched.map GovernancePolicy.policyId }

/-! ## The deciding policy -/

section Deciding

variable {env : Platform} {a b c : GovernancePolicy}

theorem comesFirst_total (env : Platform) (a b : GovernancePolicy) : (comesFirst env a b || comesFirst env b a) = true := by
  unfold comesFirst
  have htotal := env.compare_total a.policyId b.policyId
  rw [Bool.or_eq_true]
  by_cases hp : a.priority = b.priority
  · by_cases he : a.effect.order = b.effect.order
    · rw [if_neg (not_not.2 hp), if_neg (not_not.2 he), if_neg (not_not.2 hp.symm), if_neg (not_not.2 he.symm), decide_eq_true_iff,
        decide_eq_true_iff]
      exact htotal
    · rw [if_neg (not_not.2 hp), if_pos he, if_neg (not_not.2 hp.symm), if_pos (Ne.symm he), decide_eq_true_iff, decide_eq_true_iff]
      omega
  · rw [if_pos hp, if_pos (Ne.symm hp), decide_eq_true_iff, decide_eq_true_iff]
    omega

theorem comesFirst_iff (env : Platform) (a b : GovernancePolicy) : comesFirst env a b = true ↔
    b.priority < a.priority ∨ (a.priority = b.priority ∧ (b.effect.order < a.effect.order ∨
      (a.effect.order = b.effect.order ∧ env.localeCompare a.policyId b.policyId ≤ 0))) := by
  unfold comesFirst
  by_cases hp : a.priority = b.priority
  · by_cases he : a.effect.order = b.effect.order
    · rw [if_neg (not_not.2 hp), if_neg (not_not.2 he), decide_eq_true_iff]
      omega
    · rw [if_neg (not_not.2 hp), if_pos he, decide_eq_true_iff]
      omega
  · rw [if_pos hp, decide_eq_true_iff]
    omega

theorem comesFirst_trans (env : Platform) (a b c : GovernancePolicy) (hab : comesFirst env a b = true) (hbc : comesFirst env b c = true) :
    comesFirst env a c = true := by
  rw [comesFirst_iff] at hab hbc ⊢
  have htrans := env.compare_trans a.policyId b.policyId c.policyId
  omega

/-- **The first policy** is there when one matches; it has the highest priority, and the strictest effect of that priority. -/
theorem first_policy (env : Platform) (input : ApprovalPolicyInput) (policies : List GovernancePolicy) :
    (matching env input policies = [] ∧ (evaluateApprovalPolicies env input policies).effect = .ask) ∨
    ∃ p ∈ matching env input policies, (evaluateApprovalPolicies env input policies).effect = p.effect ∧
      ∀ q ∈ matching env input policies, q.priority ≤ p.priority ∧ (q.priority = p.priority → q.effect.order ≤ p.effect.order) := by
  unfold evaluateApprovalPolicies
  dsimp only
  have hsorted := List.pairwise_mergeSort (comesFirst_trans env) (comesFirst_total env) (matching env input policies)
  have hperm := List.mergeSort_perm (matching env input policies) (comesFirst env)
  generalize (matching env input policies).mergeSort (comesFirst env) = sorted at hsorted hperm ⊢
  cases sorted with
  | nil => exact .inl ⟨hperm.nil_eq.symm, rfl⟩
  | cons p rest =>
    refine .inr ⟨p, hperm.subset List.mem_cons_self, rfl, fun q hq => ?_⟩
    rcases List.mem_cons.1 (hperm.mem_iff.2 hq) with rfl | hq
    · exact ⟨le_rfl, fun _ => le_rfl⟩
    · have hfirst := (List.pairwise_cons.1 hsorted).1 q hq
      rw [comesFirst_iff] at hfirst
      omega

end Deciding

def deciding (env : Platform) (input : ApprovalPolicyInput) (policies : List GovernancePolicy) : List GovernancePolicy :=
  (matching env input policies).filter (fun p => (matching env input policies).all (fun q => decide (q.priority ≤ p.priority)))

/-- **The strictest of the highest priority**: deny, else ask, else allow; ask where no policy matches. -/
def strictest (policies : List GovernancePolicy) : GovernancePolicyEffect :=
  if policies.any (fun p => p.effect == .deny) then .deny
  else if policies.any (fun p => p.effect == .ask) then .ask
  else if policies.isEmpty then .ask else .allow

variable {env : Platform} {input : ApprovalPolicyInput} {policies policies' : List GovernancePolicy}

theorem mem_deciding {p : GovernancePolicy} : p ∈ deciding env input policies ↔
      p ∈ matching env input policies ∧ ∀ q ∈ matching env input policies, q.priority ≤ p.priority := by
  unfold deciding
  rw [List.mem_filter, List.all_eq_true]
  simp only [decide_eq_true_iff]

theorem effect_strictest (env : Platform) (input : ApprovalPolicyInput) (policies : List GovernancePolicy) :
    (evaluateApprovalPolicies env input policies).effect = strictest (deciding env input policies) := by
  rcases first_policy env input policies with ⟨hnone, heffect⟩ | ⟨p, hp, heffect, hfirst⟩
  · have hempty : deciding env input policies = [] := by
      unfold deciding
      rw [hnone, List.filter_nil]
    rw [heffect, hempty]
    rfl
  · have hmem : p ∈ deciding env input policies := mem_deciding.2 ⟨hp, fun q hq => (hfirst q hq).1⟩
    have htop : ∀ q ∈ deciding env input policies, q.effect.order ≤ p.effect.order := by
      intro q hq
      obtain ⟨hqm, hqtop⟩ := mem_deciding.1 hq
      exact (hfirst q hqm).2 (le_antisymm (hfirst q hqm).1 (hqtop p hp))
    have hnot : ∀ effect : GovernancePolicyEffect, p.effect.order < effect.order →
        (deciding env input policies).any (fun q => q.effect == effect) = false := by
      intro effect hlt
      rw [List.any_eq_false]
      intro q hq
      rw [beq_iff_eq]
      rintro rfl
      exact absurd hlt (Nat.not_lt.2 (htop q hq))
    have hany : (deciding env input policies).any (fun q => q.effect == p.effect) = true :=
      List.any_eq_true.2 ⟨p, hmem, beq_self_eq_true _⟩
    have hne : (deciding env input policies).isEmpty = false := by
      cases hd : deciding env input policies with
      | nil =>
        rw [hd] at hmem
        cases hmem
      | cons x xs => rfl
    rw [heffect]
    unfold strictest
    cases he : p.effect with
    | deny =>
      rw [he] at hany
      rw [if_pos hany]
    | ask =>
      rw [he] at hany hnot
      rw [if_neg (by rw [hnot .deny (by decide)]; exact Bool.false_ne_true), if_pos hany]
    | allow =>
      rw [he] at hnot
      rw [if_neg (by rw [hnot .deny (by decide)]; exact Bool.false_ne_true),
        if_neg (by rw [hnot .ask (by decide)]; exact Bool.false_ne_true), hne, if_neg Bool.false_ne_true]

theorem any_perm (h : policies.Perm policies') (test : GovernancePolicy → Bool) : policies.any test = policies'.any test := by
  rw [Bool.eq_iff_iff, List.any_eq_true, List.any_eq_true]
  constructor
  · rintro ⟨p, hp, ht⟩
    exact ⟨p, h.mem_iff.1 hp, ht⟩
  · rintro ⟨p, hp, ht⟩
    exact ⟨p, h.mem_iff.2 hp, ht⟩

theorem effect_perm (h : policies.Perm policies') :
    (evaluateApprovalPolicies env input policies).effect = (evaluateApprovalPolicies env input policies').effect := by
  have hmatching : (matching env input policies).Perm (matching env input policies') := h.filter _
  have htest : (fun p : GovernancePolicy => (matching env input policies).all (fun q => decide (q.priority ≤ p.priority))) =
      fun p => (matching env input policies').all (fun q => decide (q.priority ≤ p.priority)) := by
    funext p
    rw [Bool.eq_iff_iff, List.all_eq_true, List.all_eq_true]
    exact ⟨fun hall q hq => hall q (hmatching.mem_iff.2 hq), fun hall q hq => hall q (hmatching.mem_iff.1 hq)⟩
  have hdeciding : (deciding env input policies).Perm (deciding env input policies') := by
    unfold deciding
    rw [htest]
    exact hmatching.filter _
  rw [effect_strictest, effect_strictest]
  unfold strictest
  rw [any_perm hdeciding, any_perm hdeciding, hdeciding.isEmpty_eq]

/-- **Path selectors mean globs, and the strictest policy of the highest priority decides**, in any order of the list. -/
theorem selectors_and_decision (env : Platform) :
    (∀ value pattern : Text, (∀ v p, normalizedPath env.paths value = some v → normalizedPath env.paths pattern = some p →
      (∀ c ∈ v, isLineTerminator c = false) ∨ ¬hasDouble p) →
      (pathPatternMatches env.paths (some value) pattern = some true ↔
        ∃ v p, normalizedPath env.paths value = some v ∧ normalizedPath env.paths pattern = some p ∧ InGlob p v)) ∧
    ∀ input policies, (evaluateApprovalPolicies env input policies).effect = strictest (deciding env input policies) ∧
      ∀ policies', policies.Perm policies' →
        (evaluateApprovalPolicies env input policies').effect = (evaluateApprovalPolicies env input policies).effect :=
  ⟨fun value pattern hfree => pathPatternMatches_iff env.paths value pattern hfree,
    fun input policies => ⟨effect_strictest env input policies, fun _ hperm => (effect_perm hperm).symm⟩⟩

def anyRequest : ApprovalPolicyInput :=
  ⟨⟨none, none, none, none, some ['B', 'a', 's', 'h'], some ['/', 'a', '/', 'b'], none, none⟩, .running, 0, 0, false⟩

def toolPolicy (policyId : Text) (effect : GovernancePolicyEffect) (priority : ℤ) : GovernancePolicy :=
  ⟨policyId, effect, priority, true, false, ⟨none, none, none, none, some ['B', 'a', 's', 'h'], none, none, none⟩, none⟩

/-- A platform with no Windows paths, no URLs and texts in the order of their lengths. -/
def plainPlatform : Platform where
  paths := {
    normalize := fun s => if s = [] then ['.'] else s
    toLowerCase := id
    normalize_ne := by
      intro s
      split
      · exact List.cons_ne_nil _ _
      · assumption
    normalize_nul := by
      intro s h
      split
      · decide
      · exact h
    toLowerCase_ne := fun _ h => h
    toLowerCase_nul := fun _ h => h }
  networkPatternMatches _ _ := false
  localeCompare a b := (a.length : ℤ) - b.length
  compare_total a b := by omega
  compare_trans a b c := by omega

theorem lower_deny_yields : (matching plainPlatform anyRequest [toolPolicy ['d'] .deny 0, toolPolicy ['a'] .allow 1]).length = 2 ∧
    (evaluateApprovalPolicies plainPlatform anyRequest [toolPolicy ['d'] .deny 0, toolPolicy ['a'] .allow 1]).effect = .allow := by
  rw [effect_strictest]
  constructor <;> decide +kernel

theorem selectors_and_decision_sample :
    pathPatternMatches plainPlatform.paths (some ['/', 'a', '/', '/', 'b', '/', 'c']) ['/', 'a', '/', '*', '*'] = some true ↔
      ∃ v p, normalizedPath plainPlatform.paths ['/', 'a', '/', '/', 'b', '/', 'c'] = some v ∧
        normalizedPath plainPlatform.paths ['/', 'a', '/', '*', '*'] = some p ∧ InGlob p v := by
  refine (selectors_and_decision plainPlatform).1 _ _ (fun v p hv _ => .inl ?_)
  have hvalue : normalizedPath plainPlatform.paths ['/', 'a', '/', '/', 'b', '/', 'c'] = some ['/', 'a', '/', 'b', '/', 'c'] := by
    decide +kernel
  rw [hvalue] at hv
  cases hv
  have hplain : ['/', 'a', '/', 'b', '/', 'c'].all (fun c => !isLineTerminator c) = true := by decide
  intro c hc
  have hchar := List.all_eq_true.1 hplain c hc
  rwa [Bool.not_eq_true'] at hchar

end Wollipog.Policy

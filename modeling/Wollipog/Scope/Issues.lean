import Mathlib.Data.List.Sort
import Mathlib.Data.String.Basic
import Wollipog.Scope.Repository
/-!
# Issues — the repository-qualified issues of a campaign scope

A scope holds issues by repository and number; one stored before that holds the numbers of its launch repository.
-/
namespace Wollipog.Scope

open Authority

structure ScopeDisposition where
  bySessionId : String
  at_ : Int
  occurrenceId : String
  boundaryRevision : Int
deriving DecidableEq

structure CampaignIssueScope where
  repository : String
  issueNumbers : List Int
  issues : Option (List CampaignIssueRef)
  revision : Int
  authorizedByUserId : String
  authorizedAt : Int
  disposition : Option ScopeDisposition
deriving DecidableEq

/-- `sort`, by a test of what may stand before what. -/
def sortBy {α : Type} (le : α → α → Bool) (l : List α) : List α := l.insertionSort (fun a b => le a b = true)

/-- `sort((a, b) => a - b)` -/
def sortNumbers (l : List Int) : List Int := sortBy (fun a b => decide (a ≤ b)) l

def refs (repository : String) (numbers : List Int) : List CampaignIssueRef := numbers.map (fun number => ⟨repository, number⟩)

def campaignScopeIssues (scope : CampaignIssueScope) : List CampaignIssueRef :=
  scope.issues.getD (sortBy byIssue (refs (Js.lower scope.repository) scope.issueNumbers))

def campaignScopeNumbers (scope : CampaignIssueScope) (repository : String) : List Int :=
  sortNumbers (((campaignScopeIssues scope).filter (fun i => i.repository == Js.lower repository)).map CampaignIssueRef.number)

def campaignScopeHolds (scope : CampaignIssueScope) (issue : CampaignIssueRef) : Bool :=
  (campaignScopeIssues scope).any (fun held => held.repository == Js.lower issue.repository && held.number == issue.number)

/-- A scope holding exactly `issues`; none where the source throws. -/
def campaignScopeWithIssues (scope : CampaignIssueScope) (issues : List CampaignIssueRef) : Option CampaignIssueScope :=
  (canonicalCampaignIssues issues).map (fun canonical => { scope with
    issueNumbers := (canonical.filter (fun i => i.repository == Js.lower scope.repository)).map CampaignIssueRef.number
    issues := some canonical })

def campaignScopeForRepository (scope : CampaignIssueScope) (repository : String) : CampaignIssueScope :=
  { scope with
    repository := Js.lower repository
    issueNumbers := campaignScopeNumbers scope repository
    issues := none }

/-! ## Order -/

section SortBy

variable {α : Type} {le : α → α → Bool}

theorem sortBy_perm (l : List α) : (sortBy le l).Perm l := List.perm_insertionSort _ l

theorem mem_sortBy {l : List α} {x : α} : x ∈ sortBy le l ↔ x ∈ l := (sortBy_perm l).mem_iff

theorem sortBy_pairwise (htrans : ∀ a b c, le a b = true → le b c = true → le a c = true)
    (htotal : ∀ a b, (le a b || le b a) = true) (l : List α) : (sortBy le l).Pairwise (fun a b => le a b = true) := by
  have : Std.Total (fun a b => le a b = true) := ⟨fun a b => Bool.or_eq_true _ _ ▸ htotal a b⟩
  have : IsTrans α (fun a b => le a b = true) := ⟨htrans⟩
  exact List.pairwise_insertionSort _ l

theorem sortBy_of_pairwise {l : List α} (h : l.Pairwise (fun a b => le a b = true)) : sortBy le l = l := h.insertionSort_eq

end SortBy

theorem byIssue_iff (a b : CampaignIssueRef) :
    byIssue a b = true ↔ a.repository < b.repository ∨ a.repository = b.repository ∧ a.number ≤ b.number := by
  unfold byIssue
  rw [Bool.or_eq_true, Bool.and_eq_true, decide_eq_true_eq, decide_eq_true_eq, beq_iff_eq]

theorem byIssue_trans (a b c : CampaignIssueRef) (hab : byIssue a b = true) (hbc : byIssue b c = true) : byIssue a c = true := by
  rw [byIssue_iff] at hab hbc ⊢
  rcases hab with hab | ⟨hab, hn⟩
  · rcases hbc with hbc | ⟨hbc, -⟩
    · exact .inl (lt_trans hab hbc)
    · exact .inl (hbc ▸ hab)
  · rcases hbc with hbc | ⟨hbc, hn'⟩
    · exact .inl (hab ▸ hbc)
    · exact .inr ⟨hab.trans hbc, hn.trans hn'⟩

theorem byIssue_total (a b : CampaignIssueRef) : (byIssue a b || byIssue b a) = true := by
  rw [Bool.or_eq_true, byIssue_iff, byIssue_iff]
  rcases lt_trichotomy a.repository b.repository with h | h | h
  · exact .inl (.inl h)
  · rcases le_total a.number b.number with hn | hn
    · exact .inl (.inr ⟨h, hn⟩)
    · exact .inr (.inr ⟨h.symm, hn⟩)
  · exact .inr (.inl h)

theorem sorted_byIssue (l : List CampaignIssueRef) : (sortBy byIssue l).Pairwise (fun a b => byIssue a b = true) :=
  sortBy_pairwise byIssue_trans byIssue_total l

theorem sorted_numbers (l : List Int) : (sortNumbers l).Pairwise (fun a b => decide (a ≤ b) = true) := by
  apply sortBy_pairwise
  · intro a b c hab hbc
    rw [decide_eq_true_eq] at hab hbc ⊢
    exact hab.trans hbc
  · intro a b
    rw [Bool.or_eq_true, decide_eq_true_eq, decide_eq_true_eq]
    exact le_total a b

theorem sortNumbers_perm (l : List Int) : (sortNumbers l).Perm l := sortBy_perm l

variable {n : Int} {scope : CampaignIssueScope} {c l value : List CampaignIssueRef}

theorem mem_sortNumbers {l : List Int} : n ∈ sortNumbers l ↔ n ∈ l := (sortNumbers_perm l).mem_iff

theorem sortNumbers_idem (l : List Int) : sortNumbers (sortNumbers l) = sortNumbers l :=
  sortBy_of_pairwise (sorted_numbers l)

theorem mem_refs {r : String} {l : List Int} {i : CampaignIssueRef} : i ∈ refs r l ↔ i.repository = r ∧ i.number ∈ l := by
  unfold refs
  rw [List.mem_map]
  constructor
  · rintro ⟨n, hn, rfl⟩
    exact ⟨rfl, hn⟩
  · rintro ⟨rfl, hn⟩
    exact ⟨i.number, hn, rfl⟩

/-- Lower-case accepted repositories, positive numbers, in order, each issue once, at most 100. -/
structure Canonical (l : List CampaignIssueRef) : Prop where
  sorted : l.Pairwise (fun a b => byIssue a b = true)
  nodup : l.Nodup
  lower : ∀ i ∈ l, Js.lower i.repository = i.repository
  location : ∀ i ∈ l, (campaignRepositoryLocation i.repository).isSome = true
  number : ∀ i ∈ l, positive i.number = true
  bounded : l.length ≤ 100

def lowered (i : CampaignIssueRef) : CampaignIssueRef := { i with repository := Js.lower i.repository }

theorem canonicalCampaignIssues_eq_some : canonicalCampaignIssues value = some c ↔
    value.length ≤ 100 ∧ (∀ i ∈ value, (campaignRepositoryLocation i.repository).isSome = true ∧ positive i.number = true) ∧
      (value.map lowered).Nodup ∧ c = (value.map lowered).mergeSort byIssue := by
  have hmap : value.map (fun i => { i with repository := Js.lower i.repository }) = value.map lowered := rfl
  unfold canonicalCampaignIssues
  simp only [hmap]
  split
  · rename_i hlong
    constructor
    · intro h
      cases h
    · rintro ⟨hle, -⟩
      exact absurd hlong (Nat.not_lt_of_le hle)
  · rename_i hshort
    split
    · rename_i hvalid
      simp only [Bool.and_eq_true, List.all_eq_true, decide_eq_true_eq] at hvalid
      obtain ⟨hall, hnodup⟩ := hvalid
      constructor
      · intro h
        exact ⟨Nat.le_of_not_lt hshort, hall, hnodup, (Option.some.inj h).symm⟩
      · rintro ⟨-, -, -, rfl⟩
        rfl
    · rename_i hinvalid
      constructor
      · intro h
        cases h
      · rintro ⟨-, hall, hnodup, -⟩
        refine absurd ?_ hinvalid
        simp only [Bool.and_eq_true, List.all_eq_true, decide_eq_true_eq]
        exact ⟨hall, hnodup⟩

/-- **What is accepted comes out canonical**, with the same issues. -/
theorem canonical_of_accepted (h : canonicalCampaignIssues value = some c) :
    Canonical c ∧ ∀ i, i ∈ c ↔ i ∈ value.map lowered := by
  obtain ⟨hlength, hvalid, hnodup, rfl⟩ := canonicalCampaignIssues_eq_some.1 h
  have hperm : ((value.map lowered).mergeSort byIssue).Perm (value.map lowered) := List.mergeSort_perm _ _
  refine ⟨?_, fun i => hperm.mem_iff⟩
  constructor
  · exact List.pairwise_mergeSort byIssue_trans byIssue_total _
  · exact hperm.nodup_iff.2 hnodup
  · intro i hi
    obtain ⟨j, -, rfl⟩ := List.mem_map.1 (hperm.mem_iff.1 hi)
    exact Js.lower_idem j.repository
  · intro i hi
    obtain ⟨j, hj, rfl⟩ := List.mem_map.1 (hperm.mem_iff.1 hi)
    exact location_lower (hvalid j hj).1
  · intro i hi
    obtain ⟨j, hj, rfl⟩ := List.mem_map.1 (hperm.mem_iff.1 hi)
    exact (hvalid j hj).2
  · rw [hperm.length_eq, List.length_map]
    exact hlength

theorem Canonical.map_lowered (h : Canonical l) : l.map lowered = l := by
  have heach : ∀ i ∈ l, lowered i = id i := by
    intro i hi
    unfold lowered
    rw [h.lower i hi]
    rfl
  rw [List.map_congr_left heach, List.map_id]

/-- **A canonical list is its own canonical form.** -/
theorem Canonical.accepted (h : Canonical l) : canonicalCampaignIssues l = some l := by
  rw [canonicalCampaignIssues_eq_some, h.map_lowered]
  exact ⟨h.bounded, fun i hi => ⟨h.location i hi, h.number i hi⟩, h.nodup, (List.mergeSort_of_pairwise h.sorted).symm⟩

theorem campaignScopeWithIssues_idem {scope' : CampaignIssueScope}
    (h : campaignScopeWithIssues scope (campaignScopeIssues scope) = some scope') :
    campaignScopeWithIssues scope' (campaignScopeIssues scope') = some scope' := by
  unfold campaignScopeWithIssues at h
  obtain ⟨canonical, hc, rfl⟩ := Option.map_eq_some_iff.1 h
  have hissues : ∀ s : CampaignIssueScope, s.issues = some canonical → campaignScopeIssues s = canonical := by
    intro s hs
    unfold campaignScopeIssues
    rw [hs]
    rfl
  rw [hissues _ rfl]
  unfold campaignScopeWithIssues
  rw [(canonical_of_accepted hc).1.accepted]
  rfl

theorem mem_campaignScopeNumbers {repository : String} :
    n ∈ campaignScopeNumbers scope repository ↔ ⟨Js.lower repository, n⟩ ∈ campaignScopeIssues scope := by
  unfold campaignScopeNumbers
  rw [mem_sortNumbers, List.mem_map]
  constructor
  · rintro ⟨i, hi, rfl⟩
    rw [List.mem_filter, beq_iff_eq] at hi
    rw [← hi.2]
    exact hi.1
  · intro h
    exact ⟨_, List.mem_filter.2 ⟨h, beq_iff_eq.2 rfl⟩, rfl⟩

theorem campaignScopeHolds_iff {issue : CampaignIssueRef} :
    campaignScopeHolds scope issue = true ↔ ⟨Js.lower issue.repository, issue.number⟩ ∈ campaignScopeIssues scope := by
  unfold campaignScopeHolds
  rw [List.any_eq_true]
  constructor
  · rintro ⟨held, hmem, heq⟩
    rw [Bool.and_eq_true, beq_iff_eq, beq_iff_eq] at heq
    rw [← heq.1, ← heq.2]
    exact hmem
  · intro h
    exact ⟨_, h, by rw [beq_self_eq_true, beq_self_eq_true]; rfl⟩

/-- **The whole scope and a repository's part of it agree** on every issue, whichever way the part is asked. -/
theorem holds_iff_forRepository (scope : CampaignIssueScope) (repository : String) (n : Int) :
    (campaignScopeHolds scope ⟨repository, n⟩ = true ↔ n ∈ (campaignScopeForRepository scope repository).issueNumbers) ∧
      (campaignScopeHolds (campaignScopeForRepository scope repository) ⟨repository, n⟩ = true ↔
        campaignScopeHolds scope ⟨repository, n⟩ = true) := by
  have hpart : campaignScopeIssues (campaignScopeForRepository scope repository) =
      sortBy byIssue (refs (Js.lower (Js.lower repository)) (campaignScopeNumbers scope repository)) := rfl
  rw [campaignScopeHolds_iff, campaignScopeHolds_iff, hpart, Js.lower_idem, mem_sortBy, mem_refs]
  refine ⟨mem_campaignScopeNumbers.symm, ?_⟩
  constructor
  · rintro ⟨-, hn⟩
    exact mem_campaignScopeNumbers.1 hn
  · intro h
    exact ⟨rfl, mem_campaignScopeNumbers.2 h⟩

end Wollipog.Scope

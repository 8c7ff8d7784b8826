import Mathlib.Data.List.Nodup
import Mathlib.Algebra.BigOperators.Group.List.Basic
import Wollipog.Scope.Change
/-!
# Algebra — a change of the scope is set algebra on its issues

Its result is what the parts hold less what they remove and with what they add, and it is canonical: in order, each
issue once, at most a hundred.
-/
namespace Wollipog.Scope

open Authority CampaignIssueScopeRepositoryChange

structure PartOk (g : CampaignIssueScopeRepositoryChange) : Prop where
  lengths : g.before.length ≤ 100 ∧ g.additions.length ≤ 100 ∧ g.removals.length ≤ 100
  numbers : ∀ n, n ∈ g.before ∨ n ∈ g.additions ∨ n ∈ g.removals → positive n = true
  before_nodup : g.before.Nodup
  additions_nodup : g.additions.Nodup
  removals_nodup : g.removals.Nodup
  fresh : ∀ n ∈ g.additions, n ∉ g.before
  held : ∀ n ∈ g.removals, n ∈ g.before

theorem validScopeChangeGroup_iff (g : CampaignIssueScopeRepositoryChange) : validScopeChangeGroup g = true ↔ PartOk g := by
  unfold validScopeChangeGroup boundedIssueNumbers
  simp only [Bool.and_eq_true, decide_eq_true_eq, List.all_eq_true, Bool.not_eq_true', List.any_eq_false,
    List.contains_eq_mem, decide_eq_false_iff_not, not_not]
  constructor
  · rintro ⟨⟨⟨⟨⟨⟨hbl, hbp⟩, hbn⟩, ⟨hal, hap⟩, han⟩, ⟨hrl, hrp⟩, hrn⟩, hfresh⟩, hheld⟩
    exact ⟨⟨hbl, hal, hrl⟩, fun n hn => hn.elim (hbp n) (fun hn => hn.elim (hap n) (hrp n)), hbn, han, hrn, hfresh, hheld⟩
  · intro h
    exact ⟨⟨⟨⟨⟨⟨h.lengths.1, fun n hn => h.numbers n (.inl hn)⟩, h.before_nodup⟩,
      ⟨h.lengths.2.1, fun n hn => h.numbers n (.inr (.inl hn))⟩, h.additions_nodup⟩,
      ⟨h.lengths.2.2, fun n hn => h.numbers n (.inr (.inr hn))⟩, h.removals_nodup⟩, h.fresh⟩, h.held⟩

variable {launch : String} {s t : CampaignIssueScopeSnapshot} {g : CampaignIssueScopeRepositoryChange}

theorem PartOk.normal (h : PartOk g) : PartOk g.normal where
  lengths := by
    obtain ⟨hb, ha, hr⟩ := h.lengths
    exact ⟨(sortNumbers_perm g.before).length_eq ▸ hb, (sortNumbers_perm g.additions).length_eq ▸ ha,
      (sortNumbers_perm g.removals).length_eq ▸ hr⟩
  numbers n hn := h.numbers n (by
    rcases hn with hn | hn | hn
    · exact .inl (mem_sortNumbers.1 hn)
    · exact .inr (.inl (mem_sortNumbers.1 hn))
    · exact .inr (.inr (mem_sortNumbers.1 hn)))
  before_nodup := (sortNumbers_perm g.before).nodup_iff.2 h.before_nodup
  additions_nodup := (sortNumbers_perm g.additions).nodup_iff.2 h.additions_nodup
  removals_nodup := (sortNumbers_perm g.removals).nodup_iff.2 h.removals_nodup
  fresh n hn hb := h.fresh n (mem_sortNumbers.1 hn) (mem_sortNumbers.1 hb)
  held n hn := mem_sortNumbers.2 (h.held n (mem_sortNumbers.1 hn))

theorem normal_idem (g : CampaignIssueScopeRepositoryChange) : g.normal.normal = g.normal := by
  unfold CampaignIssueScopeRepositoryChange.normal
  simp only [Js.lower_idem, sortNumbers_idem]

theorem remaining_normal (g : CampaignIssueScopeRepositoryChange) : g.normal.remaining = g.remaining := by
  have hb := (sortNumbers_perm g.before).length_eq
  have ha := (sortNumbers_perm g.additions).length_eq
  have hr := (sortNumbers_perm g.removals).length_eq
  unfold remaining CampaignIssueScopeRepositoryChange.normal
  rw [hb, ha, hr]

theorem mem_after {n : Int} : n ∈ g.after ↔ n ∈ g.before ∧ n ∉ g.removals ∨ n ∈ g.additions := by
  unfold after
  rw [List.mem_append, List.mem_filter, Bool.not_eq_true', List.contains_eq_mem, decide_eq_false_iff_not]

theorem PartOk.after_nodup (h : PartOk g) : g.after.Nodup := by
  unfold after
  rw [List.nodup_append]
  refine ⟨h.before_nodup.filter _, h.additions_nodup, ?_⟩
  intro a ha b hb hab
  exact h.fresh b hb (hab ▸ (List.mem_filter.1 ha).1)

theorem PartOk.after_length (h : PartOk g) : (g.after.length : Int) = g.remaining := by
  have hperm : g.before.Perm (g.removals ++ g.before.filter (fun n => !g.removals.contains n)) := by
    refine (List.perm_ext_iff_of_nodup h.before_nodup ?_).2 ?_
    · rw [List.nodup_append]
      refine ⟨h.removals_nodup, h.before_nodup.filter _, ?_⟩
      intro a ha b hb hab
      have hnot := (List.mem_filter.1 hb).2
      rw [Bool.not_eq_true', List.contains_eq_mem, decide_eq_false_iff_not] at hnot
      exact hnot (hab ▸ ha)
    · intro n
      rw [List.mem_append, List.mem_filter, Bool.not_eq_true', List.contains_eq_mem, decide_eq_false_iff_not]
      constructor
      · intro hn
        by_cases hr : n ∈ g.removals
        · exact .inl hr
        · exact .inr ⟨hn, hr⟩
      · rintro (hn | hn)
        · exact h.held n hn
        · exact hn.1
  have hlength := hperm.length_eq
  rw [List.length_append] at hlength
  unfold after remaining
  rw [List.length_append]
  omega

theorem byRepository_trans (a b c : CampaignIssueScopeRepositoryChange) (hab : byRepository a b = true)
    (hbc : byRepository b c = true) : byRepository a c = true := by
  unfold byRepository at hab hbc ⊢
  rw [Bool.not_eq_true', decide_eq_false_iff_not, not_lt] at hab hbc ⊢
  exact hab.trans hbc

theorem byRepository_total (a b : CampaignIssueScopeRepositoryChange) : (byRepository a b || byRepository b a) = true := by
  unfold byRepository
  rw [Bool.or_eq_true, Bool.not_eq_true', Bool.not_eq_true', decide_eq_false_iff_not, decide_eq_false_iff_not, not_lt, not_lt]
  exact le_total _ _

structure GroupsOk (launch : String) (others : List CampaignIssueScopeRepositoryChange) : Prop where
  length : others.length ≤ 50
  each : ∀ g ∈ others, (campaignRepositoryLocation g.repository).isSome = true ∧ PartOk g ∧ g.normal = g
  nodup : (launch :: others.map CampaignIssueScopeRepositoryChange.repository).Nodup
  sorted : others.Pairwise (fun a b => byRepository a b = true)

variable {others : List CampaignIssueScopeRepositoryChange}

theorem normalGroups_ok {input : Option (List CampaignIssueScopeRepositoryChange)} (h : normalGroups launch input = some others) :
    GroupsOk launch others ∧ ∀ n, (∃ groups, input = some groups ∧ ∃ g ∈ groups, n ∈ g.additions) ↔ ∃ g ∈ others, n ∈ g.additions := by
  unfold normalGroups at h
  split at h
  · cases h
    refine ⟨⟨Nat.zero_le _, List.forall_mem_nil _, List.nodup_singleton launch, List.Pairwise.nil⟩, ?_⟩
    intro n
    constructor
    · rintro ⟨groups, hnone, -⟩
      cases hnone
    · rintro ⟨g, hg, -⟩
      exact absurd hg List.not_mem_nil
  · rename_i groups
    split at h
    · cases h
    · rename_i hsize
      split at h
      · rename_i hvalid
        cases h
        rw [Bool.or_eq_true, decide_eq_true_eq, not_or, Nat.not_lt] at hsize
        simp only [Bool.and_eq_true, List.all_eq_true, decide_eq_true_eq, validScopeChangeGroup_iff] at hvalid
        obtain ⟨hall, hnodup⟩ := hvalid
        have hperm : (sortBy byRepository (groups.map CampaignIssueScopeRepositoryChange.normal)).Perm
            (groups.map CampaignIssueScopeRepositoryChange.normal) := sortBy_perm _
        refine ⟨⟨?_, ?_, ?_, ?_⟩, ?_⟩
        · rw [hperm.length_eq, List.length_map]
          exact hsize.2
        · intro g hg
          obtain ⟨g', hg', rfl⟩ := List.mem_map.1 (hperm.mem_iff.1 hg)
          exact ⟨location_lower (hall g' hg').1, (hall g' hg').2.normal, normal_idem g'⟩
        · have hnames := (hperm.map CampaignIssueScopeRepositoryChange.repository).cons launch
          rw [List.map_map] at hnames
          exact hnames.nodup_iff.2 hnodup
        · exact sortBy_pairwise byRepository_trans byRepository_total _
        · intro n
          constructor
          · rintro ⟨groups', heq, g, hg, hn⟩
            cases heq
            exact ⟨g.normal, hperm.mem_iff.2 (List.mem_map.2 ⟨g, hg, rfl⟩), mem_sortNumbers.2 hn⟩
          · rintro ⟨g, hg, hn⟩
            obtain ⟨g', hg', rfl⟩ := List.mem_map.1 (hperm.mem_iff.1 hg)
            exact ⟨groups, rfl, g', hg', mem_sortNumbers.1 hn⟩
      · cases h

theorem GroupsOk.read (h : GroupsOk launch others) :
    normalGroups launch (if others.isEmpty then none else some others) = some others := by
  cases hothers : others with
  | nil => rfl
  | cons g gs =>
    rw [hothers] at h
    have hnormal : (g :: gs).map CampaignIssueScopeRepositoryChange.normal = g :: gs := by
      rw [List.map_congr_left (fun x hx => (h.each x hx).2.2), List.map_id']
    have hlower : (g :: gs).map (fun g => Js.lower g.repository) = (g :: gs).map CampaignIssueScopeRepositoryChange.repository := by
      apply List.map_congr_left
      intro x hx
      exact congrArg CampaignIssueScopeRepositoryChange.repository (h.each x hx).2.2
    have hsize : ¬((g :: gs).isEmpty || decide (50 < (g :: gs).length)) = true := by
      rw [Bool.or_eq_true, decide_eq_true_eq, not_or, Nat.not_lt]
      exact ⟨Bool.false_ne_true, h.length⟩
    have hvalid : ((g :: gs).all (fun g => (campaignRepositoryLocation g.repository).isSome && validScopeChangeGroup g) &&
        decide (launch :: (g :: gs).map (fun g => Js.lower g.repository)).Nodup) = true := by
      simp only [Bool.and_eq_true, List.all_eq_true, decide_eq_true_eq, validScopeChangeGroup_iff]
      rw [hlower]
      exact ⟨fun x hx => ⟨(h.each x hx).1, (h.each x hx).2.1⟩, h.nodup⟩
    have hread : normalGroups launch (some (g :: gs)) =
        some (sortBy byRepository ((g :: gs).map CampaignIssueScopeRepositoryChange.normal)) := by
      unfold normalGroups
      simp only
      rw [if_neg hsize, if_pos hvalid]
    have hnonempty : (if (g :: gs).isEmpty then none else some (g :: gs)) = some (g :: gs) := rfl
    rw [hnonempty, hread, hnormal, sortBy_of_pairwise h.sorted]

theorem normalize_eq_some : normalizeCampaignIssueScopeSnapshot s = some t ↔
    validEvidence s = true ∧ validVerifiedPublications s = true ∧ (campaignRepositoryLocation s.repository).isSome = true ∧
      ∃ others, normalGroups (Js.lower s.repository) s.otherRepositories = some others ∧
        validChange s (Js.lower s.repository) others = true ∧ s.activeChildren.all validActiveChildren = true ∧
        s.affectedAssignments.all (validAssignment others) = true ∧ t = normalSnapshot s others := by
  unfold normalizeCampaignIssueScopeSnapshot
  by_cases hvalid : (validEvidence s && validVerifiedPublications s && (campaignRepositoryLocation s.repository).isSome) = true
  · rw [hvalid]
    simp only [Bool.and_eq_true] at hvalid
    obtain ⟨⟨hevidence, hpublications⟩, hlocation⟩ := hvalid
    rw [if_neg (by decide)]
    cases hgroups : normalGroups (Js.lower s.repository) s.otherRepositories with
    | none =>
      constructor
      · intro h
        cases h
      · rintro ⟨-, -, -, others, hsome, -⟩
        cases hsome
    | some others =>
      simp only
      split
      · rename_i hchange
        simp only [Bool.and_eq_true] at hchange
        constructor
        · intro h
          exact ⟨hevidence, hpublications, hlocation, others, rfl, hchange.1.1, hchange.1.2, hchange.2, (Option.some.inj h).symm⟩
        · rintro ⟨-, -, -, others', hsome, -, -, -, rfl⟩
          cases hsome
          rfl
      · rename_i hchange
        constructor
        · intro h
          cases h
        · rintro ⟨-, -, -, others', hsome, h1, h2, h3, -⟩
          cases hsome
          exact absurd (by rw [h1, h2, h3]; rfl) hchange
  · rw [Bool.not_eq_true] at hvalid
    rw [hvalid, Bool.not_false, if_pos rfl]
    constructor
    · intro h
      cases h
    · rintro ⟨h1, h2, h3, -⟩
      rw [h1, h2, h3] at hvalid
      cases hvalid

theorem isEmpty_sortNumbers (l : List Int) : (sortNumbers l).isEmpty = l.isEmpty := (sortNumbers_perm l).isEmpty_eq

theorem proposalMatches_normal {p : CampaignScopeProposal} {additions removals : List Int} :
    proposalMatchesAdditions p launch (sortNumbers additions) (sortNumbers removals) others =
      proposalMatchesAdditions p launch additions removals others := by
  unfold proposalMatchesAdditions
  simp only [isEmpty_sortNumbers, List.any_cons, List.all_cons, sortNumbers_idem]

theorem validChange_normal (h : validChange s (Js.lower s.repository) others = true) :
    validChange (normalSnapshot s others) (Js.lower (Js.lower s.repository)) others = true := by
  have hpart : (⟨Js.lower s.repository, sortNumbers s.before, sortNumbers s.additions, sortNumbers s.removals⟩ :
      CampaignIssueScopeRepositoryChange) =
        CampaignIssueScopeRepositoryChange.normal ⟨Js.lower s.repository, s.before, s.additions, s.removals⟩ := by
    unfold CampaignIssueScopeRepositoryChange.normal
    rw [Js.lower_idem]
  unfold validChange at h ⊢
  unfold normalSnapshot
  simp only [Js.lower_idem, hpart, remaining_normal, isEmpty_sortNumbers, proposalMatches_normal, List.length_map,
    Bool.and_eq_true, validScopeChangeGroup_iff] at h ⊢
  obtain ⟨⟨⟨⟨⟨⟨⟨⟨⟨⟨hrevision, hnonneg⟩, hgroup⟩, hsome⟩, hproposal⟩, hsize⟩, hexplained⟩, hlength⟩, hassignments⟩, hdecisions⟩, hnames⟩ := h
  exact ⟨⟨⟨⟨⟨⟨⟨⟨⟨⟨hrevision, hnonneg⟩, hgroup.normal⟩, hsome⟩, hproposal⟩, hsize⟩, hexplained⟩, hlength⟩, hassignments⟩, hdecisions⟩, hnames⟩

theorem verifiedPublications_normal
    (hadded : ∀ n, (∃ groups, s.otherRepositories = some groups ∧ ∃ g ∈ groups, n ∈ g.additions) ↔ ∃ g ∈ others, n ∈ g.additions) :
    validVerifiedPublications (normalSnapshot s others) = validVerifiedPublications s := by
  have hcontains : ∀ n, (sortNumbers s.additions).contains n = s.additions.contains n := by
    intro n
    rw [List.contains_eq_mem, List.contains_eq_mem, decide_eq_decide]
    exact mem_sortNumbers
  have hany : ∀ n, (normalSnapshot s others).otherRepositories.any (fun groups => groups.any (fun g => g.additions.contains n)) =
      s.otherRepositories.any (fun groups => groups.any (fun g => g.additions.contains n)) := by
    intro n
    have hothers : (normalSnapshot s others).otherRepositories.any (fun groups => groups.any (fun g => g.additions.contains n)) =
        others.any (fun g => g.additions.contains n) := by
      unfold normalSnapshot
      cases others <;> rfl
    rw [hothers, Bool.eq_iff_iff, List.any_eq_true, Option.any_eq_true]
    simp only [List.any_eq_true, List.contains_eq_mem, decide_eq_true_eq]
    rw [← hadded n]
  unfold validVerifiedPublications
  have hfields : (normalSnapshot s others).verifiedPublications = s.verifiedPublications ∧
      (normalSnapshot s others).additions = sortNumbers s.additions := ⟨rfl, rfl⟩
  rw [hfields.1, hfields.2]
  simp only [hcontains, hany]

/-- **A normalized snapshot is its own normal form.** -/
theorem normalize_idem (h : normalizeCampaignIssueScopeSnapshot s = some t) :
    normalizeCampaignIssueScopeSnapshot t = some t := by
  obtain ⟨hevidence, hpublications, hlocation, others, hgroups, hchange, hchildren, hassignments, rfl⟩ := normalize_eq_some.1 h
  obtain ⟨hok, hadded⟩ := normalGroups_ok hgroups
  have hrepository : (normalSnapshot s others).repository = Js.lower s.repository := rfl
  refine normalize_eq_some.2 ⟨hevidence, ?_, location_lower hlocation, others, ?_, validChange_normal hchange, ?_, ?_, ?_⟩
  · rw [verifiedPublications_normal hadded]
    exact hpublications
  · rw [hrepository, Js.lower_idem]
    exact hok.read
  · have hlist : (normalSnapshot s others).activeChildren = some (s.activeChildren.getD []) := rfl
    rw [hlist]
    cases hc : s.activeChildren with
    | none => rfl
    | some l =>
      rw [hc] at hchildren
      exact hchildren
  · have hlist : (normalSnapshot s others).affectedAssignments =
        s.affectedAssignments.map (fun a => { a with repository := a.repository.map Js.lower }) := rfl
    rw [hlist, List.all_map]
    rw [List.all_eq_true] at hassignments ⊢
    intro a ha
    have hvalid := hassignments a ha
    unfold validAssignment at hvalid ⊢
    rw [Function.comp]
    cases hr : a.repository with
    | none =>
      rw [hr] at hvalid
      exact hvalid
    | some r =>
      rw [hr] at hvalid
      simp only [Option.map_some, Option.all_some, Js.lower_idem] at hvalid ⊢
      exact hvalid
  · have hassigned : s.affectedAssignments.map (fun a => { a with repository := a.repository.map Js.lower }) =
        (s.affectedAssignments.map (fun a => { a with repository := a.repository.map Js.lower })).map
          (fun a => { a with repository := a.repository.map Js.lower }) := by
      rw [List.map_map]
      apply List.map_congr_left
      intro a _
      rw [Function.comp]
      cases a.repository with
      | none => rfl
      | some r => exact congrArg (fun x => AffectedAssignment.mk a.sessionId a.issue (some x)) (Js.lower_idem r).symm
    unfold normalSnapshot
    simp only [Js.lower_idem, sortNumbers_idem, ← hassigned, Option.getD_some]

structure ChangeOk (t : CampaignIssueScopeSnapshot) : Prop where
  each : ∀ g ∈ campaignScopeChangeGroups t, (campaignRepositoryLocation g.repository).isSome = true ∧
    Js.lower g.repository = g.repository ∧ PartOk g
  nodup : ((campaignScopeChangeGroups t).map CampaignIssueScopeRepositoryChange.repository).Nodup
  size : ((campaignScopeChangeGroups t).map remaining).sum ≤ 100

theorem changeOk_of_normalized (h : normalizeCampaignIssueScopeSnapshot s = some t) : ChangeOk t := by
  obtain ⟨-, -, hlocation, others, hgroups, hchange, -, -, rfl⟩ := normalize_eq_some.1 h
  obtain ⟨hok, -⟩ := normalGroups_ok hgroups
  have hlist : campaignScopeChangeGroups (normalSnapshot s others) =
      CampaignIssueScopeRepositoryChange.normal ⟨s.repository, s.before, s.additions, s.removals⟩ :: others := by
    unfold campaignScopeChangeGroups normalSnapshot
    cases others <;> rfl
  unfold validChange at hchange
  simp only [Bool.and_eq_true, decide_eq_true_eq, validScopeChangeGroup_iff] at hchange
  obtain ⟨⟨⟨⟨⟨⟨⟨⟨⟨-, hgroup⟩, -⟩, -⟩, hsize⟩, -⟩, -⟩, -⟩, -⟩, -⟩ := hchange
  have hlaunch : PartOk ⟨s.repository, s.before, s.additions, s.removals⟩ := ⟨hgroup.lengths, hgroup.numbers,
    hgroup.before_nodup, hgroup.additions_nodup, hgroup.removals_nodup, hgroup.fresh, hgroup.held⟩
  constructor
  · rw [hlist]
    intro g hg
    rcases List.mem_cons.1 hg with rfl | hg
    · exact ⟨location_lower hlocation, Js.lower_idem s.repository, hlaunch.normal⟩
    · obtain ⟨hloc, hpart, hnormal⟩ := hok.each g hg
      exact ⟨hloc, congrArg CampaignIssueScopeRepositoryChange.repository hnormal, hpart⟩
  · rw [hlist]
    exact hok.nodup
  · rw [hlist, List.map_cons, List.sum_cons, remaining_normal]
    exact hsize

theorem mem_qualified {part : CampaignIssueScopeRepositoryChange → List Int} {i : CampaignIssueRef} : i ∈ qualified part t ↔
      ∃ g ∈ campaignScopeChangeGroups t, i.repository = g.repository ∧ i.number ∈ part g := by
  unfold qualified
  rw [List.mem_flatMap]
  simp only [mem_refs]

theorem ChangeOk.part_eq (h : ChangeOk t) {g' : CampaignIssueScopeRepositoryChange}
    (hg : g ∈ campaignScopeChangeGroups t) (hg' : g' ∈ campaignScopeChangeGroups t) (heq : g.repository = g'.repository) :
    g = g' := List.inj_on_of_nodup_map h.nodup hg hg' heq

/-- **The result is what was held less the removals and with the additions.** -/
theorem ChangeOk.mem_result (h : ChangeOk t) (i : CampaignIssueRef) : i ∈ campaignScopeChangeResult t ↔
      i ∈ campaignScopeChangeBefore t ∧ i ∉ qualified removals t ∨ i ∈ qualified additions t := by
  unfold campaignScopeChangeResult campaignScopeChangeBefore
  rw [mem_sortBy, mem_sortBy, mem_qualified, mem_qualified, mem_qualified, mem_qualified]
  constructor
  · rintro ⟨g, hg, hrepository, hn⟩
    rcases mem_after.1 hn with ⟨hb, hr⟩ | ha
    · left
      refine ⟨⟨g, hg, hrepository, hb⟩, ?_⟩
      rintro ⟨g', hg', hrepository', hr'⟩
      have heq := h.part_eq hg hg' (hrepository.symm.trans hrepository')
      exact hr (heq ▸ hr')
    · exact .inr ⟨g, hg, hrepository, ha⟩
  · rintro (⟨⟨g, hg, hrepository, hb⟩, hr⟩ | ⟨g, hg, hrepository, ha⟩)
    · exact ⟨g, hg, hrepository, mem_after.2 (.inl ⟨hb, fun hn => hr ⟨g, hg, hrepository, hn⟩⟩)⟩
    · exact ⟨g, hg, hrepository, mem_after.2 (.inr ha)⟩

theorem nodup_refs {r : String} {l : List Int} (h : l.Nodup) : (refs r l).Nodup := by
  refine h.map ?_
  intro a b hab
  exact congrArg CampaignIssueRef.number hab

theorem ChangeOk.result_nodup (h : ChangeOk t) : (qualified after t).Nodup := by
  unfold qualified
  rw [List.nodup_flatMap]
  constructor
  · intro g hg
    exact nodup_refs (h.each g hg).2.2.after_nodup
  · refine (List.pairwise_map.1 h.nodup).imp ?_
    intro g g' hne i hi hi'
    exact hne ((mem_refs.1 hi).1.symm.trans (mem_refs.1 hi').1)

theorem result_length : ∀ l : List CampaignIssueScopeRepositoryChange, (∀ g ∈ l, PartOk g) →
    ((l.flatMap (fun g => refs g.repository g.after)).length : Int) = (l.map remaining).sum
  | [], _ => rfl
  | g :: l, h => by
    have hrest := result_length l (fun x hx => h x (List.mem_cons_of_mem g hx))
    have hpart := (h g List.mem_cons_self).after_length
    rw [List.flatMap_cons, List.length_append, List.map_cons, List.sum_cons, ← hrest, ← hpart]
    unfold refs
    rw [List.length_map]
    exact Nat.cast_add _ _

/-- **The result is canonical.** -/
theorem ChangeOk.canonical_result (h : ChangeOk t) : Canonical (campaignScopeChangeResult t) := by
  have hperm : (campaignScopeChangeResult t).Perm (qualified after t) := sortBy_perm _
  have hpart : ∀ i ∈ campaignScopeChangeResult t, ∃ g ∈ campaignScopeChangeGroups t,
      i.repository = g.repository ∧ i.number ∈ g.after := fun i hi => mem_qualified.1 (hperm.mem_iff.1 hi)
  constructor
  · exact sorted_byIssue _
  · exact hperm.nodup_iff.2 h.result_nodup
  · intro i hi
    obtain ⟨g, hg, hrepository, -⟩ := hpart i hi
    rw [hrepository]
    exact (h.each g hg).2.1
  · intro i hi
    obtain ⟨g, hg, hrepository, -⟩ := hpart i hi
    rw [hrepository]
    exact (h.each g hg).1
  · intro i hi
    obtain ⟨g, hg, -, hn⟩ := hpart i hi
    have hok := (h.each g hg).2.2
    rcases mem_after.1 hn with ⟨hb, -⟩ | ha
    · exact hok.numbers _ (.inl hb)
    · exact hok.numbers _ (.inr (.inl ha))
  · have hlength := result_length (campaignScopeChangeGroups t) (fun g hg => (h.each g hg).2.2)
    have hsize := h.size
    rw [hperm.length_eq]
    unfold qualified
    omega

/-- **The scope is a canonical set algebra**: an accepted change ends with what was held less its removals and with its
additions, canonical and at most a hundred. -/
theorem scope_set_algebra :
    (∀ value c, canonicalCampaignIssues value = some c → Canonical c ∧ canonicalCampaignIssues c = some c) ∧
    (∀ scope scope', campaignScopeWithIssues scope (campaignScopeIssues scope) = some scope' →
      campaignScopeWithIssues scope' (campaignScopeIssues scope') = some scope') ∧
    (∀ s t, normalizeCampaignIssueScopeSnapshot s = some t → normalizeCampaignIssueScopeSnapshot t = some t ∧
      (∀ i, i ∈ campaignScopeChangeResult t ↔
        i ∈ campaignScopeChangeBefore t ∧ i ∉ qualified removals t ∨ i ∈ qualified additions t) ∧
      Canonical (campaignScopeChangeResult t) ∧ (campaignScopeChangeResult t).length ≤ 100 ∧
      ∀ scope, ∃ scope', campaignScopeWithIssues scope (campaignScopeChangeResult t) = some scope' ∧
        campaignScopeIssues scope' = campaignScopeChangeResult t) ∧
    (∀ scope repository n,
      (campaignScopeHolds scope ⟨repository, n⟩ = true ↔ n ∈ (campaignScopeForRepository scope repository).issueNumbers) ∧
      (campaignScopeHolds (campaignScopeForRepository scope repository) ⟨repository, n⟩ = true ↔
        campaignScopeHolds scope ⟨repository, n⟩ = true)) := by
  refine ⟨?_, ?_, ?_, ?_⟩
  · intro value c h
    have hcanonical := (canonical_of_accepted h).1
    exact ⟨hcanonical, hcanonical.accepted⟩
  · intro scope scope' h
    exact campaignScopeWithIssues_idem h
  · intro s t h
    have hok := changeOk_of_normalized h
    have hcanonical := hok.canonical_result
    refine ⟨normalize_idem h, hok.mem_result, hcanonical, hcanonical.bounded, ?_⟩
    intro scope
    unfold campaignScopeWithIssues
    rw [hcanonical.accepted]
    exact ⟨_, rfl, rfl⟩
  · exact holds_iff_forRepository

end Wollipog.Scope

import Wollipog.Authority.Boundary
import Wollipog.Lib.Newest
/-!
# Order — which campaign control a runner keeps

A runner holds a copy of its campaign's control with the revision it was read at; updates and relaunches arrive in any
order. An unordered control may only narrow what is ordered.
-/
namespace Wollipog
namespace Control

open Authority (CampaignControl)

/-- A control with the revision it was read at.  Nobody sends or stores a revision without a control. -/
structure OrderedCampaignControl where
  control : Option CampaignControl := none
  controlRevision : Option Nat := none
  carried : controlRevision.isSome = true → control.isSome = true := by simp

inductive Outcome
  | applied | kept_newer | unchanged
deriving DecidableEq

def nextCampaignControl (held : Option OrderedCampaignControl) (incoming : OrderedCampaignControl) :
    OrderedCampaignControl × Outcome :=
  let kept := held.getD {}
  match incoming.control with
  | none => (kept, .unchanged)
  | some control =>
    match incoming.controlRevision, kept.controlRevision with
    | some revision, some heldRevision =>
      if revision < heldRevision then (kept, .kept_newer)
      else ({ control := some control, controlRevision := some revision }, .applied)
    | some revision, none => ({ control := some control, controlRevision := some revision }, .applied)
    | none, none => ({ control := some control }, .applied)
    | none, some heldRevision =>
      if control = .custom then ({ control := some control, controlRevision := some heldRevision }, .applied)
      else (kept, .kept_newer)

/-- The Orchestrator metadata of a session; `rest` is what does not order it. -/
structure OrchestratorMeta (ρ : Type) where
  held : OrderedCampaignControl
  issueScopeRevision : Option Nat
  rest : ρ

variable {ρ : Type}

def launchOrchestratorMeta (saved spec : Option (OrchestratorMeta ρ)) : Option (OrchestratorMeta ρ) :=
  match spec with
  | none => saved
  | some spec =>
    if (spec.issueScopeRevision.getD 0) < ((saved.bind OrchestratorMeta.issueScopeRevision).getD 0) then saved
    else if spec.held.control.isNone && (saved.bind (fun m => m.held.controlRevision)).isNone then some spec
    else some { spec with held := (nextCampaignControl (saved.map OrchestratorMeta.held) spec.held).1 }

/-- A synchronization replaces the scope beside the control; a relaunch brings the whole metadata. -/
inductive Delivery (ρ : Type)
  | update (incoming : OrderedCampaignControl) (issueScopeRevision : Option Nat)
  | relaunch (spec : Option (OrchestratorMeta ρ))

def deliver (saved : Option (OrchestratorMeta ρ)) : Delivery ρ → Option (OrchestratorMeta ρ)
  | .update incoming scope => saved.map (fun m =>
      { m with held := (nextCampaignControl (some m.held) incoming).1, issueScopeRevision := scope })
  | .relaunch spec => launchOrchestratorMeta saved spec

def deliverAll (saved : Option (OrchestratorMeta ρ)) (ds : List (Delivery ρ)) : Option (OrchestratorMeta ρ) :=
  ds.foldl deliver saved

/-- What a delivery puts to `nextCampaignControl`: a saved copy at a newer issue-scope revision stays as it is. -/
def offered (saved : Option (OrchestratorMeta ρ)) : Delivery ρ → Option OrderedCampaignControl
  | .update incoming _ => if saved.isSome then some incoming else none
  | .relaunch none => none
  | .relaunch (some spec) =>
    if (spec.issueScopeRevision.getD 0) < ((saved.bind OrchestratorMeta.issueScopeRevision).getD 0) then none
    else if spec.held.control.isNone && (saved.bind (fun m => m.held.controlRevision)).isNone then none
    else some spec.held

def offers (saved : Option (OrchestratorMeta ρ)) : List (Delivery ρ) → List OrderedCampaignControl
  | [] => []
  | d :: ds => (offered saved d).toList ++ offers (deliver saved d) ds

def OrderedCampaignControl.stamp (o : OrderedCampaignControl) : Option (Nat × CampaignControl) :=
  match o.controlRevision, o.control with
  | some r, some c => some (r, c)
  | _, _ => none

def stamped (saved : Option (OrchestratorMeta ρ)) : Option (Nat × CampaignControl) := saved.bind (fun m => m.held.stamp)

def OrderedCampaignControl.narrows (o : OrderedCampaignControl) : Bool :=
  o.controlRevision.isNone && decide (o.control = some .custom)

def absorb (held : Option (Nat × CampaignControl)) (o : OrderedCampaignControl) : Option (Nat × CampaignControl) :=
  match o.stamp with
  | some x => Newest.offer held x
  | none => if o.narrows then held.map (fun y => (y.1, .custom)) else held

variable {r : Nat} {o : OrderedCampaignControl} {held : Option (Nat × CampaignControl)}

theorem stamp_eq_none (h : o.controlRevision = none) : o.stamp = none := by
  unfold OrderedCampaignControl.stamp
  rw [h]

theorem stamp_eq_some (h : o.controlRevision = some r) : ∃ c, o.control = some c ∧ o.stamp = some (r, c) := by
  have hc := o.carried (by rw [h]; rfl)
  obtain ⟨c, hc⟩ := Option.isSome_iff_exists.1 hc
  refine ⟨c, hc, ?_⟩
  unfold OrderedCampaignControl.stamp
  rw [h, hc]

/-- **The source's function is the register's** on the ordered part. -/
theorem next_stamp (held : Option OrderedCampaignControl) (o : OrderedCampaignControl) :
    (nextCampaignControl held o).1.stamp = absorb (held.bind OrderedCampaignControl.stamp) o := by
  have hkept : (held.getD {}).stamp = held.bind OrderedCampaignControl.stamp := by
    cases held with
    | none => rfl
    | some h => rfl
  unfold nextCampaignControl absorb
  simp only
  rw [← hkept]
  cases hc : o.control with
  | none =>
    have hr : o.controlRevision = none := by
      cases hr : o.controlRevision with
      | none => rfl
      | some r =>
        obtain ⟨c, hc', -⟩ := stamp_eq_some hr
        rw [hc] at hc'
        cases hc'
    rw [stamp_eq_none hr]
    have hn : o.narrows = false := by
      unfold OrderedCampaignControl.narrows
      rw [hc]
      simp
    simp only [hn, Bool.false_eq_true, if_false]
  | some c =>
    cases hr : o.controlRevision with
    | some r =>
      obtain ⟨c', hc', hs⟩ := stamp_eq_some hr
      rw [hc] at hc'
      cases hc'
      rw [hs]
      cases hk : (held.getD {}).controlRevision with
      | none =>
        rw [stamp_eq_none hk]
        rfl
      | some q =>
        obtain ⟨k, -, hks⟩ := stamp_eq_some hk
        rw [hks]
        unfold Newest.offer
        simp only
        split
        · exact hks
        · rfl
    | none =>
      rw [stamp_eq_none hr]
      cases hk : (held.getD {}).controlRevision with
      | none =>
        rw [stamp_eq_none hk]
        simp only [Option.map_none, ite_self]
        rfl
      | some q =>
        obtain ⟨k, -, hks⟩ := stamp_eq_some hk
        have hn : o.narrows = decide (c = .custom) := by
          unfold OrderedCampaignControl.narrows
          rw [hr, hc]
          simp
        rw [hks, hn]
        by_cases hcust : c = .custom
        · subst hcust
          simp only [decide_true, if_true]
          rfl
        · simp only [hcust, decide_false, Bool.false_eq_true, if_false]
          exact hks

/-- **A delivery refines the register**: it absorbs what is offered, or leaves the ordered part alone. -/
theorem deliver_stamped (saved : Option (OrchestratorMeta ρ)) (d : Delivery ρ) :
    stamped (deliver saved d) = match offered saved d with
      | some o => absorb (stamped saved) o
      | none => stamped saved := by
  cases d with
  | update incoming scope =>
    cases saved with
    | none => rfl
    | some m =>
      have h := next_stamp (some m.held) incoming
      exact h
  | relaunch spec =>
    cases spec with
    | none => rfl
    | some spec =>
      unfold deliver launchOrchestratorMeta offered
      simp only
      by_cases hscope : (spec.issueScopeRevision.getD 0) < ((saved.bind OrchestratorMeta.issueScopeRevision).getD 0)
      · rw [if_pos hscope, if_pos hscope]
      · rw [if_neg hscope, if_neg hscope]
        by_cases hnone : (spec.held.control.isNone && (saved.bind (fun m => m.held.controlRevision)).isNone) = true
        · rw [if_pos hnone, if_pos hnone]
          -- neither side has an ordered control
          rw [Bool.and_eq_true, Option.isNone_iff_eq_none, Option.isNone_iff_eq_none] at hnone
          obtain ⟨hc, hr⟩ := hnone
          have hspec : spec.held.stamp = none := by
            cases hrev : spec.held.controlRevision with
            | none => exact stamp_eq_none hrev
            | some r =>
              obtain ⟨c, hc', -⟩ := stamp_eq_some hrev
              rw [hc] at hc'
              cases hc'
          have hsaved : stamped saved = none := by
            cases saved with
            | none => rfl
            | some m => exact stamp_eq_none hr
          rw [hsaved]
          exact hspec
        · rw [if_neg hnone, if_neg hnone]
          have h := next_stamp (saved.map OrchestratorMeta.held) spec.held
          have hbind : (saved.map OrchestratorMeta.held).bind OrderedCampaignControl.stamp = stamped saved := by
            cases saved with
            | none => rfl
            | some m => rfl
          rw [hbind] at h
          exact h

theorem deliverAll_stamped : ∀ (ds : List (Delivery ρ)) (saved : Option (OrchestratorMeta ρ)),
    stamped (deliverAll saved ds) = (offers saved ds).foldl absorb (stamped saved)
  | [], _ => rfl
  | d :: ds, saved => by
    have hcons : deliverAll saved (d :: ds) = deliverAll (deliver saved d) ds := rfl
    have hoffers : offers saved (d :: ds) = (offered saved d).toList ++ offers (deliver saved d) ds := rfl
    rw [hcons, hoffers, deliverAll_stamped ds (deliver saved d), deliver_stamped saved d, List.foldl_append]
    cases offered saved d with
    | none => rfl
    | some o => rfl

def stamps (os : List OrderedCampaignControl) : List (Nat × CampaignControl) := os.filterMap OrderedCampaignControl.stamp

theorem absorb_rises {x : Nat × CampaignControl} (h : held = some x) : ∃ y, absorb held o = some y ∧ x.1 ≤ y.1 := by
  unfold absorb
  split
  · rename_i z _
    obtain ⟨y, hy⟩ := Newest.offer_isSome held z
    exact ⟨y, hy, (Newest.offer_spec hy).2.2 x h⟩
  · split
    · rw [h]
      exact ⟨(x.1, .custom), rfl, le_rfl⟩
    · exact ⟨x, h, le_rfl⟩

theorem foldl_absorb_rises : ∀ (os : List OrderedCampaignControl) (held : Option (Nat × CampaignControl))
    (x : Nat × CampaignControl), held = some x → ∃ y, os.foldl absorb held = some y ∧ x.1 ≤ y.1
  | [], _, x, h => ⟨x, h, le_rfl⟩
  | o :: os, held, x, h => by
    obtain ⟨w, hw, hxw⟩ := absorb_rises (o := o) h
    obtain ⟨y, hy, hwy⟩ := foldl_absorb_rises os _ w hw
    exact ⟨y, hy, hxw.trans hwy⟩

theorem foldl_absorb_ge : ∀ (os : List OrderedCampaignControl) (held : Option (Nat × CampaignControl))
    (x : Nat × CampaignControl), Newest.Seen held (stamps os) x → ∃ y, os.foldl absorb held = some y ∧ x.1 ≤ y.1
  | os, held, x, .inl h => foldl_absorb_rises os held x h
  | [], _, _, .inr h => absurd h List.not_mem_nil
  | o :: os, held, x, .inr h => by
    unfold stamps at h
    rw [List.filterMap_cons] at h
    have hcons : (o :: os).foldl absorb held = os.foldl absorb (absorb held o) := rfl
    rw [hcons]
    cases hs : o.stamp with
    | none =>
      rw [hs] at h
      exact foldl_absorb_ge os _ x (.inr h)
    | some z =>
      rw [hs] at h
      rcases List.mem_cons.1 h with rfl | h
      · obtain ⟨w, hw⟩ := Newest.offer_isSome held x
        have habs : absorb held o = some w := by
          unfold absorb
          rw [hs]
          exact hw
        obtain ⟨y, hy, hwy⟩ := foldl_absorb_rises os _ w habs
        exact ⟨y, hy, (Newest.offer_spec hw).2.1.trans hwy⟩
      · exact foldl_absorb_ge os _ x (.inr h)

theorem foldl_absorb_seen : ∀ (os : List OrderedCampaignControl) (held : Option (Nat × CampaignControl))
    (y : Nat × CampaignControl), os.foldl absorb held = some y →
      ∃ x, Newest.Seen held (stamps os) x ∧ x.1 = y.1 ∧ (x = y ∨ y.2 = .custom ∧ os.any OrderedCampaignControl.narrows = true)
  | [], _, y, h => ⟨y, .inl h, rfl, .inl rfl⟩
  | o :: os, held, y, h => by
    obtain ⟨x, hx, hrev, hval⟩ := foldl_absorb_seen os (absorb held o) y h
    unfold stamps
    rw [List.filterMap_cons, List.any_cons]
    have hval' : x = y ∨ y.2 = .custom ∧ (o.narrows || os.any OrderedCampaignControl.narrows) = true := by
      rcases hval with hxy | ⟨hy, hany⟩
      · exact .inl hxy
      · exact .inr ⟨hy, by rw [hany, Bool.or_true]⟩
    rcases hx with hx | hx
    · unfold absorb at hx
      cases hs : o.stamp with
      | some z =>
        rw [hs] at hx
        obtain ⟨hfrom, -, -⟩ := Newest.offer_spec hx
        rcases hfrom with rfl | hheld
        · exact ⟨x, .inr List.mem_cons_self, hrev, hval'⟩
        · exact ⟨x, .inl hheld, hrev, hval'⟩
      | none =>
        rw [hs] at hx
        simp only at hx
        by_cases hn : o.narrows = true
        · rw [if_pos hn] at hx
          obtain ⟨w, hw, rfl⟩ := Option.map_eq_some_iff.1 hx
          refine ⟨w, .inl hw, hrev, ?_⟩
          rcases hval with hxy | ⟨hy, -⟩
          · exact .inr ⟨by rw [← hxy], by rw [hn, Bool.true_or]⟩
          · exact .inr ⟨hy, by rw [hn, Bool.true_or]⟩
        · rw [if_neg hn] at hx
          exact ⟨x, .inl hx, hrev, hval'⟩
    · refine ⟨x, .inr ?_, hrev, hval'⟩
      cases o.stamp with
      | none => exact hx
      | some z => exact List.mem_cons_of_mem z hx

theorem foldl_absorb_latest : ∀ (os : List OrderedCampaignControl) (held : Option (Nat × CampaignControl)),
    os.any OrderedCampaignControl.narrows = false → os.foldl absorb held = Newest.latest held (stamps os)
  | [], _, _ => rfl
  | o :: os, held, h => by
    rw [List.any_cons, Bool.or_eq_false_iff] at h
    obtain ⟨hn, hos⟩ := h
    have hcons : (o :: os).foldl absorb held = os.foldl absorb (absorb held o) := rfl
    rw [hcons, foldl_absorb_latest os _ hos]
    unfold stamps absorb
    rw [List.filterMap_cons, hn]
    cases o.stamp with
    | none => rfl
    | some z => rfl

theorem absorb_custom
    (h : held = some (r, .custom)) (hold : ∀ q, o.controlRevision = some q → q < r) : absorb held o = some (r, .custom) := by
  unfold absorb
  rw [h]
  cases hr : o.controlRevision with
  | none =>
    rw [stamp_eq_none hr]
    simp only [Option.map_some, ite_self]
  | some q =>
    obtain ⟨c, -, hs⟩ := stamp_eq_some hr
    rw [hs]
    have hlt : q < r := hold q hr
    exact if_pos hlt

/-- **Control updates and relaunches converge on the newest ordered control**: the held revision never decreases and ends as
the greatest offered, in any order of the offers. -/
theorem control_converges (saved : Option (OrchestratorMeta ρ)) (ds : List (Delivery ρ)) :
    (∀ pre post x, ds = pre ++ post → stamped (deliverAll saved pre) = some x →
      ∃ y, stamped (deliverAll saved ds) = some y ∧ x.1 ≤ y.1) ∧
    (∀ x, Newest.Seen (stamped saved) (stamps (offers saved ds)) x →
      ∃ y, stamped (deliverAll saved ds) = some y ∧ x.1 ≤ y.1) ∧
    (∀ y, stamped (deliverAll saved ds) = some y → ∃ x, Newest.Seen (stamped saved) (stamps (offers saved ds)) x ∧
      x.1 = y.1 ∧ (x = y ∨ y.2 = .custom ∧ (offers saved ds).any OrderedCampaignControl.narrows = true)) ∧
    (∀ (saved' : Option (OrchestratorMeta ρ)) (ds' : List (Delivery ρ)), stamped saved' = stamped saved →
      (stamps (offers saved ds)).Perm (stamps (offers saved' ds')) →
      (offers saved ds).any OrderedCampaignControl.narrows = false →
      (offers saved' ds').any OrderedCampaignControl.narrows = false →
      Newest.SingleValued (stamped saved) (stamps (offers saved ds)) →
      stamped (deliverAll saved ds) = stamped (deliverAll saved' ds')) ∧
    (∀ pre d post r, ds = pre ++ d :: post → stamped (deliverAll saved pre) = some (r, .custom) →
      (∀ o, offered (deliverAll saved pre) d = some o → ∀ q, o.controlRevision = some q → q < r) →
      stamped (deliverAll saved (pre ++ [d])) = some (r, .custom)) := by
  refine ⟨?_, ?_, ?_, ?_, ?_⟩
  · intro pre post x hds hx
    have happ : deliverAll saved ds = deliverAll (deliverAll saved pre) post := by rw [hds]; exact List.foldl_append
    rw [happ, deliverAll_stamped post]
    exact foldl_absorb_rises _ _ x hx
  · intro x hx
    rw [deliverAll_stamped ds]
    exact foldl_absorb_ge _ _ x hx
  · intro y hy
    rw [deliverAll_stamped ds] at hy
    exact foldl_absorb_seen _ _ y hy
  · intro saved' ds' hsaved hperm hn hn' hsingle
    rw [deliverAll_stamped ds, deliverAll_stamped ds', foldl_absorb_latest _ _ hn, foldl_absorb_latest _ _ hn', hsaved]
    exact Newest.latest_perm hsingle hperm
  · intro pre d post r _ hpre hold
    have happ : deliverAll saved (pre ++ [d]) = deliver (deliverAll saved pre) d := by
      unfold deliverAll
      rw [List.foldl_append]
      rfl
    rw [happ, deliver_stamped]
    cases ho : offered (deliverAll saved pre) d with
    | none => exact hpre
    | some o => exact absorb_custom hpre (hold o ho)

def sampleBoundary : Authority.CampaignAuthorityBoundary where
  revision := 2
  issueScopeRevision := 1
  repository := "example/project"
  objective := "Scoped work"
  authorizedByUserId := "owner"
  authorizedAt := 1000
  operations := [.category .issueClosure]
  delegatablePolicyIds := []
  issueAuthority := none
  budgetAuthority := none
  evidenceAuthority := none
  repositories := none

def ordered (c : CampaignControl) (r : Nat) : OrderedCampaignControl := { control := some c, controlRevision := some r }
def unordered (c : CampaignControl) : OrderedCampaignControl := { control := some c }

theorem control_depends_on_order :
    ((deliverAll (some ⟨unordered .custom, some 1, ()⟩) [.update (unordered (.fullControl sampleBoundary)) (some 1)]).bind
        (fun m => m.held.control) = some (.fullControl sampleBoundary)) ∧
      stamped (deliverAll (some ⟨{}, some 1, ()⟩)
        [.update (ordered .custom 3) (some 1), .update (ordered (.fullControl sampleBoundary) 3) (some 1)]) ≠
      stamped (deliverAll (some ⟨{}, some 1, ()⟩)
        [.update (ordered (.fullControl sampleBoundary) 3) (some 1), .update (ordered .custom 3) (some 1)]) ∧
      stamped (deliverAll (some ⟨ordered (.fullControl sampleBoundary) 5, some 2, ()⟩)
        [.relaunch (some ⟨ordered .custom 6, some 1, ()⟩)]) = some (5, .fullControl sampleBoundary) := by
  refine ⟨by decide +kernel, by decide +kernel, by decide +kernel⟩

end Control
end Wollipog

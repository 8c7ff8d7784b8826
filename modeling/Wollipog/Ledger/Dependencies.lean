import Wollipog.Ledger.Armed
import Wollipog.Ledger.Lookups
import Wollipog.Ledger.Derived
import Wollipog.Lib.SplitJoin
/-!
# Dependencies — the dependency graph stays acyclic

A batch of replacements is accepted exactly when each set passes its own checks and the final graph has no cycle.
-/
namespace Wollipog.Ledger

open Authority (CampaignIssueRef campaignRepositoryLocation)
open Successors (Edge Acyclic)

section

variable {h : Hooks} {c actor : String} {now : Int} {t u : Tables}

/-- **The dependency graph**: every edge is between items of one campaign, and there is no cycle. -/
structure DependencyGraph (t : Tables) : Prop where
  own : ∀ a, ∀ b ∈ depsOf t a, ∃ c, (t.item c a).isSome = true ∧ (t.item c b).isSome = true
  acyclic : Acyclic (Edge (depsOf t))

theorem DependencyGraph.congr (hl : DependencyGraph t) (hdependencies : u.dependencies = t.dependencies)
    (hitems : ∀ c i, (t.item c i).isSome = true → (u.item c i).isSome = true) : DependencyGraph u := by
  have hdeps : depsOf u = depsOf t := by
    funext i
    unfold depsOf
    rw [hdependencies]
  refine ⟨fun a b hb => ?_, ?_⟩
  · rw [hdeps] at hb
    obtain ⟨c, ha, hb⟩ := hl.own a b hb
    exact ⟨c, hitems c a ha, hitems c b hb⟩
  · rw [hdeps]
    exact hl.acyclic

structure Replacing (t : Tables) (c : String) (acc : OrdMap String (List String) × List String) : Prop where
  kept : ∀ i, i ∉ acc.2 → acc.1.get i = (dependencyEdges t c).get i
  there : ∀ i ∈ acc.2, (t.item c i).isSome = true
  known : ∀ i ∈ acc.2, ∀ j ∈ successors acc.1 i, (t.item c j).isSome = true

variable {i : String} {l : List Event} {r : Replacement} {rs : List Replacement}
  {acc : OrdMap String (List String) × List String}

theorem Replacing.one {acc' : OrdMap String (List String) × List String} (hacc : Replacing t c acc)
    (hitem : (t.item c r.itemId).isSome = true) (hok : replaceOne t h c acc r = .ok acc') : Replacing t c acc' := by
  obtain ⟨hknown, ⟨-, rfl⟩ | ⟨-, rfl⟩⟩ := replaceOne_ok hok
  · exact hacc
  · refine ⟨fun i hi => ?_, fun i hi => ?_, fun i hi j hj => ?_⟩
    · dsimp only at hi ⊢
      rw [List.mem_append, List.mem_singleton, not_or] at hi
      rw [OrdMap.get_set_ne _ _ hi.2]
      exact hacc.kept i hi.1
    · rcases List.mem_append.1 hi with hold | hnew
      · exact hacc.there i hold
      · rw [List.mem_singleton.1 hnew]
        exact hitem
    · unfold successors at hj
      dsimp only at hj
      by_cases hsame : i = r.itemId
      · rw [hsame, OrdMap.get_set_self] at hj
        exact hknown j hj
      · rw [OrdMap.get_set_ne _ _ hsame] at hj
        have hold := (List.mem_append.1 hi).resolve_right fun hnew => hsame (List.mem_singleton.1 hnew)
        exact hacc.known i hold j hj

theorem Replacing.all : ∀ (rs : List Replacement) {acc acc' : OrdMap String (List String) × List String}, Replacing t c acc →
    (∀ r ∈ rs, (t.item c r.itemId).isSome = true) → replaceAll t h c rs acc = .ok acc' → Replacing t c acc'
  | [], _, _, hacc, _, hok => by
    cases hok
    exact hacc
  | r :: rs, acc, acc', hacc, hitems, hok => by
    unfold replaceAll at hok
    split at hok
    · cases hok
    · rename_i mid hone
      exact Replacing.all rs (hacc.one (hitems r List.mem_cons_self) hone) (fun s hs => hitems s (List.mem_cons_of_mem r hs)) hok

theorem replacing_start : Replacing t c (dependencyEdges t c, []) :=
  ⟨fun _ _ => rfl, List.forall_mem_nil _, List.forall_mem_nil _⟩

theorem successors_dependencyEdges (i : String) :
    successors (dependencyEdges t c) i = if (t.item c i).isSome = true then depsOf t i else [] := by
  split
  · rename_i hitem
    exact dependencyEdges_get hitem
  · rename_i hitem
    have hnone : (t.dependencies.filter (fun d => (t.item c d.workItemId).isSome)).filter (fun d => d.workItemId == i) = [] := by
      rw [List.filter_filter, List.filter_eq_nil_iff]
      intro d _ hd
      rw [Bool.and_eq_true, beq_iff_eq] at hd
      rw [hd.1] at hd
      exact hitem hd.2
    unfold successors dependencyEdges
    rw [foldl_edges, hnone]
    rfl

variable {changed : List String}

theorem Replacing.successors {edges : OrdMap String (List String)} (hr : Replacing t c (edges, changed))
    (i : String) : successors edges i = if (t.item c i).isSome = true then depsOf (writeDependencies edges changed t) i else [] := by
  have hstored := successors_dependencyEdges (t := t) (c := c) i
  rw [depsOf_writeDependencies]
  by_cases hmem : i ∈ changed
  · rw [if_pos hmem, if_pos (hr.there i hmem)]
    rfl
  · have hkept : edges.get i = (dependencyEdges t c).get i := hr.kept i hmem
    unfold Ledger.successors at hstored ⊢
    rw [if_neg hmem, hkept, hstored]

/-- **An accepted batch**, and what it checked of its final graph. -/
theorem replaceDependencies_checked (hok : replaceDependencies h c rs t = (.ok changed, u)) :
    ∃ edges, replaceAll t h c rs (dependencyEdges t c, []) = .ok (edges, changed) ∧ u = writeDependencies edges changed t ∧
      (changed = [] ∨ hasCycle edges = false) := by
  unfold replaceDependencies at hok
  replace hok := Tx.bind_read_ok.1 hok
  cases hall : replaceAll t h c rs (dependencyEdges t c, []) with
  | error e =>
    rw [hall] at hok
    cases hok
  | ok found =>
    rw [hall] at hok
    obtain ⟨hnone, hok⟩ := Tx.bind_refuseIf_ok.1 hok
    replace hok := Tx.bind_write_ok.1 hok
    obtain ⟨rfl, rfl⟩ := Tx.pure_ok.1 hok
    refine ⟨found.1, rfl, rfl, ?_⟩
    rw [ite_eq_right_iff, Bool.and_eq_true, Bool.not_eq_true', List.isEmpty_eq_false_iff] at hnone
    by_cases hchanged : found.2 = []
    · exact .inl hchanged
    · exact .inr (Bool.eq_false_iff.2 fun hcycle => nomatch hnone ⟨hchanged, hcycle⟩)

/-- **A batch keeps the graph linked.** -/
theorem DependencyGraph.replace (hl : DependencyGraph t) (hwf : Wf t)
    (hitems : ∀ r ∈ rs, (t.item c r.itemId).isSome = true) (hok : replaceDependencies h c rs t = (.ok changed, u)) :
    DependencyGraph u := by
  obtain ⟨edges, hall, rfl, hchecked⟩ := replaceDependencies_checked hok
  have hr : Replacing t c (edges, changed) := Replacing.all rs replacing_start hitems hall
  rcases hchecked with rfl | hacyclic
  · exact hl
  rw [hasCycle_eq_false] at hacyclic
  obtain ⟨dependencies, hframe⟩ := writeDependencies_frame edges changed t
  have hitem : ∀ c i, (writeDependencies edges changed t).item c i = t.item c i := fun c i => by
    rw [hframe]
    rfl
  have hinside : ∀ {a : String}, (t.item c a).isSome = true → successors edges a = depsOf (writeDependencies edges changed t) a :=
    fun ha => (hr.successors _).trans (if_pos ha)
  have houtside : ∀ {a : String}, ¬ (t.item c a).isSome = true → depsOf (writeDependencies edges changed t) a = depsOf t a := by
    intro a ha
    rw [depsOf_writeDependencies, if_neg fun hmem => ha (hr.there a hmem)]
  have hown : ∀ a, ∀ b ∈ depsOf (writeDependencies edges changed t) a,
      ∃ c, (t.item c a).isSome = true ∧ (t.item c b).isSome = true := by
    intro a b hb
    by_cases hmem : a ∈ changed
    · have hb' : b ∈ successors edges a := by
        rw [hinside (hr.there a hmem)]
        exact hb
      exact ⟨c, hr.there a hmem, hr.known a hmem b hb'⟩
    · rw [depsOf_writeDependencies, if_neg hmem] at hb
      exact hl.own a b hb
  refine ⟨fun a b hb => ?_, fun a hcycle => ?_⟩
  · obtain ⟨c', ha, hb⟩ := hown a b hb
    exact ⟨c', by rw [hitem]; exact ha, by rw [hitem]; exact hb⟩
  -- a cycle stays in one campaign: this one, whose graph was checked, or another one, whose edges are as they were
  by_cases ha : (t.item c a).isSome = true
  · have hnext : ∀ x y, (t.item c x).isSome = true → Edge (depsOf (writeDependencies edges changed t)) x y →
        Edge (successors edges) x y ∧ (t.item c y).isSome = true := by
      intro x y hx hy
      obtain ⟨c', hx', hy'⟩ := hown x y hy
      obtain rfl := hwf.campaign_eq hx hx'
      exact ⟨by rw [Edge, hinside hx]; exact hy, hy'⟩
    exact hacyclic a (Successors.path_within hnext ha hcycle).1
  · have hnext : ∀ x y, ¬ (t.item c x).isSome = true → Edge (depsOf (writeDependencies edges changed t)) x y →
        Edge (depsOf t) x y ∧ ¬ (t.item c y).isSome = true := by
      intro x y hx hy
      obtain ⟨c', hx', hy'⟩ := hown x y hy
      rw [Edge, houtside hx] at hy
      refine ⟨hy, fun hyc => hx ?_⟩
      rw [hwf.campaign_eq hyc hy']
      exact hx'
    exact hl.acyclic a (Successors.path_within hnext ha hcycle).1

theorem planItems_dependencies {uuids : Nat → Uuid} : ∀ (inputs : List PlanItemInput) {index : Nat} {r : List PlanItemResult × Bool}
    {t u : Tables}, planItems h c actor now uuids index inputs t = (.ok r, u) → u.dependencies = t.dependencies
  | [], _, _, _, _, hok => by
    obtain ⟨-, rfl⟩ := Tx.pure_ok.1 hok
    rfl
  | input :: inputs, index, r, t, u, hok => by
    unfold planItems at hok
    obtain ⟨first, t₁, hfirst, hok⟩ := Tx.bind_ok.1 hok
    obtain ⟨rest, t₂, hrest, hok⟩ := Tx.bind_ok.1 hok
    obtain ⟨-, rfl⟩ := Tx.pure_ok.1 hok
    rw [planItems_dependencies inputs hrest]
    cases planItem_planned hfirst with
    | created _ =>
      obtain ⟨history, heq⟩ := addItem_frame (newPlanItem c actor now input (newId "cwi_" (uuids index))) t
      rw [heq]
    | same existing _ _ _ => rfl
    | revised existing _ _ _ => exact reviseItem_dependencies _ _ _ _

theorem touchAll_dependencies : ∀ (ids : List String) (t : Tables), (touchAll now ids t).dependencies = t.dependencies
  | [], _ => rfl
  | i :: ids, t => (touchAll_dependencies ids (t.touchItem i now)).trans (reviseItem_dependencies _ _ _ _)

theorem Writes.linked (hw : Writes c t u) (hwf : Wf t) (hl : DependencyGraph t)
    (hdependencies : u.dependencies = t.dependencies) : DependencyGraph u :=
  hl.congr hdependencies fun _ _ hitem => Writes.item_isSome hw hwf hitem

theorem HandoffUpdate.dependencies {request : Option (Option HandoffRequest)} {b : Bool}
    (hu : HandoffUpdate c actor now i t request b u) : u.dependencies = t.dependencies := by
  cases hu with
  | kept => rfl
  | cleared => rfl
  | same => rfl
  | set => rfl

theorem planWork_linked {uuids : Nat → Uuid} {request : RecordCampaignPlanRequest} {r : RecordCampaignPlanResponse} (hwf : Wf t)
    (hl : DependencyGraph t) (hok : planWork h c actor now uuids request t = (.ok r, u)) : DependencyGraph u := by
  obtain ⟨items, t₁, replacements, changed, t₂, fixed, t₃, hitems, hreplacements, hchanged, hfixed, rfl⟩ := planWork_ok hok
  have h₁ := planItems_writes request.items hwf hitems
  have hwf₁ := h₁.wf hwf
  have hl₁ := Writes.linked h₁ hwf hl (planItems_dependencies request.items hitems)
  have hthere := planReplacements_items hwf₁ request.items hreplacements
  obtain ⟨h₂, hall⟩ := replaceDependencies_writes hwf₁ hthere hchanged
  have hl₂ := hl₁.replace hwf₁ hthere hchanged
  have hwf₂ := h₂.wf hwf₁
  have htouch : Writes c t₂ (touchAll now changed t₂) :=
    touchAll_writes changed hwf₂ (fun i hi => h₂.item_isSome hwf₁ (hall i hi))
  have hbump : Writes c t₃ (if items.2 || !changed.isEmpty || fixed || decide (t₃.planState c ≠ planStateOf request)
      then t₃.bump c now (some (planStateOf request)) else t₃) := bumpIf_writes _ _
  refine Writes.linked ((htouch.trans (recordFixedByAll_writes _ hfixed)).trans hbump) hwf₂ hl₂ ?_
  obtain ⟨-, rows, rfl, -⟩ := recordFixedByAll_settles _ hfixed
  split
  · exact touchAll_dependencies changed t₂
  · exact touchAll_dependencies changed t₂

theorem updateWork_linked {r : UpdateCampaignWorkItemRequest} {a : UpdateResult} (hwf : Wf t) (hvalid : updateRefusal r = none)
    (hl : DependencyGraph t) (hok : updateWork h c actor now r t = (.ok a, u)) : DependencyGraph u := by
  obtain ⟨item, b₁, t₁, b₂, t₂, b₃, t₃, hitem, hhandoff, hdependencies, hattempt, hend⟩ := updateWork_ok hok
  obtain ⟨hmem, hid, hcampaign⟩ := item_eq_some hitem
  have hthere : (t.item c item.id).isSome = true := hwf.isSome_iff.2 ⟨item, hmem, rfl, hcampaign⟩
  have h₁ := hhandoff.writes hthere
  have hwf₁ := h₁.wf hwf
  have hl₁ : DependencyGraph t₁ := Writes.linked h₁ hwf hl hhandoff.dependencies
  have hthere₁ := h₁.item_isSome hwf hthere
  have h₂ := updateDependencies_writes hwf₁ hthere₁ hdependencies
  have hwf₂ := h₂.wf hwf₁
  have hl₂ : DependencyGraph t₂ := by
    rcases updateDependencies_ok hdependencies with ⟨-, -, rfl⟩ | ⟨ids, changed, -, -, hreplace⟩
    · exact hl₁
    · refine hl₁.replace hwf₁ (fun r hr => ?_) hreplace
      rw [List.mem_singleton.1 hr]
      exact hthere₁
  have hthere₂ := h₂.item_isSome hwf₁ hthere₁
  have h₃ := hattempt.writes hwf₂ hthere₂
  have hl₃ : DependencyGraph t₃ := by
    refine Writes.linked h₃ hwf₂ hl₂ ?_
    cases hattempt with
    | kept => rfl
    | closed a reason note hopen hwhy => exact reviseItem_dependencies _ _ _ _
  rcases hend with ⟨-, -, -, -, rfl⟩ | ⟨-, rfl⟩
  · exact hl₃
  · have hrevise : Write c t₃ (t₃.reviseItem item.id (setIssue item r).isSome (updatedItem actor now item r)) :=
      .reviseItem _ _ _ (h₃.item_isSome hwf₂ hthere₂) (revises_update hvalid) updatedItem_issue
    exact Writes.linked (.tail (.single hrevise) (.bump now none)) (h₃.wf hwf₂) hl₃ (reviseItem_dependencies _ _ _ _)

/-! ## Which batches are accepted -/

structure Admitted (t : Tables) (h : Hooks) (c : String) (before : List String) (r : Replacement) : Prop where
  bounded : (First.firstBy id r.dependsOn).length ≤ dependsOnLimit
  other : r.itemId ∉ First.firstBy id r.dependsOn
  known : ∀ j ∈ First.firstBy id r.dependsOn, (t.item c j).isSome = true
  unarmed : sameSet before (First.firstBy id r.dependsOn) = true ∨
    addsToArmed t h r.itemId before (First.firstBy id r.dependsOn) = false

theorem missingItemIds_isEmpty {ids : List String} :
    (missingItemIds t c ids).isEmpty = true ↔ ∀ j ∈ ids, (t.item c j).isSome = true := by
  unfold missingItemIds
  rw [List.isEmpty_iff, List.filter_eq_nil_iff]
  simp only [Option.isNone_iff_eq_none, ← Option.not_isSome_iff_eq_none, not_not]

theorem replaceOne_admits : (∃ acc', replaceOne t h c acc r = .ok acc') ↔ Admitted t h c ((acc.1.get r.itemId).getD []) r := by
  unfold replaceOne
  simp only
  constructor
  · rintro ⟨acc', hok⟩
    split at hok
    · cases hok
    rename_i hbounded
    split at hok
    · cases hok
    rename_i hother
    split at hok
    · cases hok
    rename_i hknown
    rw [Bool.not_eq_true', Bool.not_eq_false, missingItemIds_isEmpty] at hknown
    refine ⟨Nat.not_lt.1 hbounded, fun hself => hother (List.contains_iff_mem.2 hself), hknown, ?_⟩
    split at hok
    · rename_i hsame
      exact .inl hsame
    split at hok
    · cases hok
    · rename_i harmed
      exact .inr (Bool.eq_false_iff.2 harmed)
  · rintro ⟨hbounded, hother, hknown, hunarmed⟩
    rw [if_neg (Nat.not_lt.2 hbounded), if_neg fun hself => hother (List.contains_iff_mem.1 hself),
      missingItemIds_isEmpty.2 hknown, if_neg (by simp)]
    split
    · exact ⟨_, rfl⟩
    · rename_i hdiffers
      rw [if_neg (Bool.eq_false_iff.1 (hunarmed.resolve_left hdiffers))]
      exact ⟨_, rfl⟩

theorem replaceAll_admits : ∀ (rs : List Replacement) {acc : OrdMap String (List String) × List String},
    (rs.map Replacement.itemId).Nodup → ((∃ acc', replaceAll t h c rs acc = .ok acc') ↔
      ∀ r ∈ rs, Admitted t h c ((acc.1.get r.itemId).getD []) r)
  | [], acc, _ => ⟨fun _ _ h => absurd h List.not_mem_nil, fun _ => ⟨acc, rfl⟩⟩
  | r :: rs, acc, hnodup => by
    rw [List.map_cons, List.nodup_cons] at hnodup
    unfold replaceAll
    cases hone : replaceOne t h c acc r with
    | error e =>
      constructor
      · rintro ⟨_, hok⟩
        cases hok
      · intro hall
        obtain ⟨acc', hok⟩ := replaceOne_admits.2 (hall r List.mem_cons_self)
        rw [hone] at hok
        cases hok
    | ok mid =>
      have hkept : ∀ s ∈ rs, mid.1.get s.itemId = acc.1.get s.itemId := by
        intro s hs
        rcases replaceOne_changed hone with rfl | rfl
        · rfl
        · refine OrdMap.get_set_ne _ _ fun hsame => hnodup.1 ?_
          rw [← hsame]
          exact List.mem_map.2 ⟨s, hs, rfl⟩
      refine (replaceAll_admits rs hnodup.2).trans ⟨fun hrest s hs => ?_, fun hall s hs => ?_⟩
      · rcases List.mem_cons.1 hs with rfl | hs
        · exact replaceOne_admits.1 ⟨mid, hone⟩
        · rw [← hkept s hs]
          exact hrest s hs
      · rw [hkept s hs]
        exact hall s (List.mem_cons_of_mem r hs)

theorem Named.id_plain {row : ItemRow} (h : Named row) {x : Char} (hfirst : x ∉ "cwi_".toList) (hhex : Js.isLowerHex x = false) :
    x ∉ row.id.toList ∧ row.id.toList ≠ [] := by
  obtain ⟨uuid, hid⟩ := h.id
  rw [hid, newId, String.toList_append]
  refine ⟨fun hmem => ?_, List.append_ne_nil_of_left_ne_nil (by decide) _⟩
  rcases List.mem_append.1 hmem with hmem | hrest
  · exact hfirst hmem
  · rw [List.all_eq_true.1 uuid.2.2 _ hrest] at hhex
    cases hhex

theorem Wf.id_line (hwf : Wf t) (hitem : (t.item c i).isSome = true) : '\n' ∉ i.toList ∧ i.toList ≠ [] := by
  obtain ⟨row, hrow, rfl, -⟩ := hwf.isSome_iff.1 hitem
  exact (hwf.named row hrow).id_plain (by decide) (by decide)

/-- **Two sets of items that compare as the same** have the same members. -/
theorem sameSet_mem (hwf : Wf t) {a b : List String} (ha : ∀ x ∈ a, (t.item c x).isSome = true)
    (hb : ∀ x ∈ b, (t.item c x).isSome = true) (hsame : sameSet a b = true) (x : String) : x ∈ a ↔ x ∈ b := by
  have hperm : ∀ l : List String, (sortTexts l).Perm l := fun l => Scope.sortBy_perm l
  have hlines : ∀ {l : List String}, (∀ x ∈ l, (t.item c x).isSome = true) →
      ∀ y ∈ (sortTexts l).map String.toList, '\n' ∉ y ∧ y ≠ [] := by
    intro l hl y hy
    obtain ⟨z, hz, rfl⟩ := List.mem_map.1 hy
    exact hwf.id_line (hl z ((hperm l).mem_iff.1 hz))
  have hjoined := congrArg String.toList (of_decide_eq_true hsame)
  rw [String.toList_intercalate, String.toList_intercalate] at hjoined
  have hsorted : sortTexts a = sortTexts b :=
    List.map_injective_iff.2 (fun _ _ htext => String.toList_injective htext) (SplitJoin.intercalate_inj (hlines ha) (hlines hb) hjoined)
  rw [← (hperm a).mem_iff, hsorted, (hperm b).mem_iff]

/-- **The final graph of a batch**: each replaced set, and what the other items of the campaign depend on. -/
def FinalEdge (t : Tables) (c : String) (rs : List Replacement) (a b : String) : Prop :=
  (t.item c a).isSome = true ∧ ((∃ r ∈ rs, r.itemId = a ∧ b ∈ r.dependsOn) ∨ (∀ r ∈ rs, r.itemId ≠ a) ∧ b ∈ depsOf t a)

theorem mem_firstBy_id {l : List String} {x : String} : x ∈ First.firstBy id l ↔ x ∈ l := by
  refine ⟨First.mem_of_mem_firstBy, fun hx => ?_⟩
  obtain ⟨y, hy, hyx⟩ := @First.exists_firstBy _ _ _ id _ _ hx
  rw [id_eq, id_eq] at hyx
  rw [← hyx]
  exact hy

theorem replaceAll_final (hwf : Wf t) (hl : DependencyGraph t) (hnodup : (rs.map Replacement.itemId).Nodup)
    (hitems : ∀ r ∈ rs, (t.item c r.itemId).isSome = true) {edges : OrdMap String (List String)}
    (hall : replaceAll t h c rs (dependencyEdges t c, []) = .ok (edges, changed)) (a b : String) :
    Edge (successors edges) a b ↔ FinalEdge t c rs a b := by
  have hr : Replacing t c (edges, changed) := Replacing.all rs replacing_start hitems hall
  obtain ⟨changed', hlist, hin, hkept, hsets, hknown⟩ := replaceAll_ok rs hnodup hall
  rw [List.nil_append] at hlist
  dsimp only at hlist hkept hsets
  subst hlist
  by_cases ha : (t.item c a).isSome = true
  · have hstored : a ∉ changed → successors edges a = depsOf t a := fun hnot => by
      rw [hr.successors, if_pos ha, depsOf_writeDependencies, if_neg hnot]
    have hone : ∀ r ∈ rs, r.itemId = a → (b ∈ successors edges a ↔ b ∈ r.dependsOn) := by
      rintro r hmem rfl
      rcases hsets r hmem with ⟨-, hset, -⟩ | ⟨hnot, hsame⟩
      · unfold successors
        rw [hset, Option.getD_some]
        exact mem_firstBy_id
      · rw [dependencyEdges_get ha] at hsame
        have hbefore : ∀ x ∈ depsOf t r.itemId, (t.item c x).isSome = true := by
          intro x hx
          obtain ⟨c', hc, hx'⟩ := hl.own r.itemId x hx
          rw [hwf.campaign_eq ha hc]
          exact hx'
        rw [hstored hnot, sameSet_mem hwf hbefore (hknown r hmem) hsame]
        exact mem_firstBy_id
    unfold FinalEdge Edge
    constructor
    · intro hb
      refine ⟨ha, ?_⟩
      by_cases hreplaced : ∃ r ∈ rs, r.itemId = a
      · obtain ⟨r, hmem, hid⟩ := hreplaced
        exact .inl ⟨r, hmem, hid, (hone r hmem hid).1 hb⟩
      · have hnone : ∀ r ∈ rs, r.itemId ≠ a := fun r hmem hid => hreplaced ⟨r, hmem, hid⟩
        have hnot : a ∉ changed := fun hmem => by
          obtain ⟨r, hr, hid⟩ := List.mem_map.1 (hin a hmem)
          exact hnone r hr hid
        exact .inr ⟨hnone, by rw [← hstored hnot]; exact hb⟩
    · rintro ⟨-, ⟨r, hmem, hid, hb⟩ | ⟨hnone, hb⟩⟩
      · exact (hone r hmem hid).2 hb
      · have hnot : a ∉ changed := fun hmem => by
          obtain ⟨r, hr, hid⟩ := List.mem_map.1 (hin a hmem)
          exact hnone r hr hid
        rw [hstored hnot]
        exact hb
  · refine ⟨fun hb => ?_, fun hfinal => absurd hfinal.1 ha⟩
    rw [Edge, hr.successors, if_neg ha] at hb
    cases hb

def Accepts (h : Hooks) (c : String) (rs : List Replacement) (t : Tables) : Prop :=
  ∃ changed u, replaceDependencies h c rs t = (.ok changed, u)

def Passes (t : Tables) (h : Hooks) (c : String) (r : Replacement) : Prop :=
  (First.firstBy id r.dependsOn).length ≤ dependsOnLimit ∧ (∀ j ∈ r.dependsOn, (t.item c j).isSome = true) ∧
    (sameSet (depsOf t r.itemId) (First.firstBy id r.dependsOn) = true ∨
      addsToArmed t h r.itemId (depsOf t r.itemId) (First.firstBy id r.dependsOn) = false)

/-- **A batch is accepted exactly when its sets pass and its final graph has no cycle.** -/
theorem accepts_iff (hwf : Wf t) (hl : DependencyGraph t) (hnodup : (rs.map Replacement.itemId).Nodup)
    (hitems : ∀ r ∈ rs, (t.item c r.itemId).isSome = true) :
    Accepts h c rs t ↔ (∀ r ∈ rs, Passes t h c r) ∧ Acyclic (FinalEdge t c rs) := by
  have hadmits : (∃ acc', replaceAll t h c rs (dependencyEdges t c, []) = .ok acc') ↔
      ∀ r ∈ rs, Admitted t h c (((dependencyEdges t c).get r.itemId).getD []) r := replaceAll_admits rs hnodup
  have hbefore : ∀ r ∈ rs, ((dependencyEdges t c).get r.itemId).getD [] = depsOf t r.itemId := fun r hr =>
    dependencyEdges_get (hitems r hr)
  constructor
  · rintro ⟨changed, u, hok⟩
    obtain ⟨edges, hall, -, hchecked⟩ := replaceDependencies_checked hok
    refine ⟨fun r hr => ?_, ?_⟩
    · obtain ⟨hbounded, -, hknown, hunarmed⟩ := hadmits.1 ⟨_, hall⟩ r hr
      rw [hbefore r hr] at hunarmed
      exact ⟨hbounded, fun j hj => hknown j (mem_firstBy_id.2 hj), hunarmed⟩
    · rcases hchecked with rfl | hacyclic
      · refine hl.acyclic.mono fun a b hedge => ?_
        have hsame := (replaceAll_final hwf hl hnodup hitems hall a b).2 hedge
        rw [Edge, (Replacing.all rs replacing_start hitems hall).successors, if_pos hedge.1] at hsame
        exact hsame
      · exact ((hasCycle_eq_false edges).1 hacyclic).mono fun a b hedge => (replaceAll_final hwf hl hnodup hitems hall a b).2 hedge
  · rintro ⟨hpass, hacyclic⟩
    have hall : ∀ r ∈ rs, Admitted t h c (((dependencyEdges t c).get r.itemId).getD []) r := by
      intro r hr
      obtain ⟨hbounded, hknown, hunarmed⟩ := hpass r hr
      rw [hbefore r hr]
      refine ⟨hbounded, fun hself => ?_, fun j hj => hknown j (mem_firstBy_id.1 hj), hunarmed⟩
      exact hacyclic r.itemId (.single ⟨hitems r hr, .inl ⟨r, hr, rfl, mem_firstBy_id.1 hself⟩⟩)
    obtain ⟨⟨edges, changed⟩, hreplaced⟩ := hadmits.2 hall
    have hnone : hasCycle edges = false := (hasCycle_eq_false edges).2
      (hacyclic.mono fun a b hedge => (replaceAll_final hwf hl hnodup hitems hreplaced a b).1 hedge)
    have hcheck : (if !changed.isEmpty && hasCycle edges then some (fail "the dependencies would create a cycle" 409) else none) =
        (none : Option LedgerError) := by
      rw [hnone, Bool.and_false]
      rfl
    refine ⟨changed, writeDependencies edges changed t, ?_⟩
    unfold replaceDependencies
    refine Tx.bind_ok.2 ⟨t, t, Tx.read_ok.2 ⟨rfl, rfl⟩, ?_⟩
    rw [hreplaced]
    exact Tx.bind_ok.2 ⟨(), t, Tx.refuseIf_ok.2 ⟨hcheck, rfl⟩,
      Tx.bind_ok.2 ⟨(), _, Tx.write_ok.2 rfl, Tx.pure_ok.2 ⟨rfl, rfl⟩⟩⟩

theorem accepted_stored (hwf : Wf t) (hl : DependencyGraph t) (hnodup : (rs.map Replacement.itemId).Nodup)
    (hitems : ∀ r ∈ rs, (t.item c r.itemId).isSome = true)
    (hok : replaceDependencies h c rs t = (.ok changed, u)) {a : String} (ha : (t.item c a).isSome = true) (b : String) :
    b ∈ depsOf u a ↔ FinalEdge t c rs a b := by
  obtain ⟨edges, hall, rfl, -⟩ := replaceDependencies_checked hok
  rw [← replaceAll_final hwf hl hnodup hitems hall, Edge, (Replacing.all rs replacing_start hitems hall).successors, if_pos ha]

/-- **The order of a batch does not count.** -/
theorem accepts_perm (hwf : Wf t) (hl : DependencyGraph t) {rs' : List Replacement} (hperm : rs'.Perm rs)
    (hnodup : (rs.map Replacement.itemId).Nodup) (hitems : ∀ r ∈ rs, (t.item c r.itemId).isSome = true) :
    Accepts h c rs' t ↔ Accepts h c rs t := by
  have hedge : ∀ a b, FinalEdge t c rs' a b ↔ FinalEdge t c rs a b := fun a b => by
    unfold FinalEdge
    simp only [hperm.mem_iff]
  rw [accepts_iff hwf hl ((hperm.map _).nodup_iff.2 hnodup) (fun r hr => hitems r (hperm.mem_iff.1 hr)),
    accepts_iff hwf hl hnodup hitems]
  refine and_congr ?_ ⟨fun hacyclic => hacyclic.mono fun a b => (hedge a b).2, fun hacyclic => hacyclic.mono fun a b => (hedge a b).1⟩
  simp only [hperm.mem_iff]

def Planning : List Event → Tables → Event → Prop
  | _, _, .mutated _ (.recordPlan _) => True
  | _, _, .mutated _ (.updateItem _) => True
  | _, _, .mutated _ _ => False
  | _, _, _ => True

theorem mutate_linked {k : Call} {r : Request} (hwf : Wf t) (hl : DependencyGraph t) (hr : Planning [] t (.mutated k r)) :
    DependencyGraph (mutate k r t).2 := by
  cases hrun : mutate k r t with
  | mk answer u =>
    cases answer with
    | error e =>
      rw [mutate_error hrun]
      exact hl
    | ok a =>
      cases (mutate_ok hrun).1 with
      | recordPlan _ hwork => exact planWork_linked hwf hl hwork
      | updateItem hvalid hwork => exact updateWork_linked hwf hvalid hl hwork
      | assign _ => cases hr
      | recordVerification _ => cases hr
      | recordDelivery _ => cases hr
      | adjudicate _ _ => cases hr

theorem step_linked {e : Event} {o : List Event} (hs : Stored t) (hl : DependencyGraph t) (he : Planning l t e)
    (hstep : step t e = some (u, o)) : DependencyGraph u := by
  cases e with
  | mutated k r =>
    cases hstep
    exact mutate_linked hs.wf hl (by cases r <;> exact he)
  | recommended row origins now =>
    simp only [step] at hstep
    split at hstep
    · cases hstep
    · cases hstep
      obtain ⟨rows, edges, ledgers, heq⟩ := recordFollowUp_frame row origins now t
      rw [heq]
      exact hl.congr rfl (fun _ _ hitem => hitem)
  | observed campaignId now | openAttemptsObserved now =>
    cases hstep
    exact hl.congr rfl (fun _ _ hitem => hitem)
  | sessionSet id row =>
    cases hstep
    obtain ⟨statuses, heq⟩ := setSession_frame id row t
    rw [heq]
    exact hl.congr rfl (fun _ _ hitem => hitem)
  | sessionDeleted id now =>
    simp only [step] at hstep
    split at hstep
    · cases hstep
    · cases hstep
      refine hl.congr rfl fun c i hitem => ?_
      obtain ⟨row, hrow, hid, hcampaign⟩ := hs.wf.isSome_iff.1 hitem
      exact (hs.deleteSession id now).wf.isSome_iff.2 ⟨row.unsetSession id, List.mem_map.2 ⟨row, hrow, rfl⟩, hid, hcampaign⟩

/-- **Every run of plans and updates keeps the graph linked.** -/
theorem run_linked {t₀ : Tables} (hs : Stored t₀) (hl : DependencyGraph t₀) (hrun : Sys.RunOn Planning step t₀ l t) :
    Stored t ∧ DependencyGraph t :=
  hrun.hist (fun _ t => Stored t ∧ DependencyGraph t) ⟨hs, hl⟩ (fun _ _ _ _ _ hH he hstep =>
    ⟨step_stored hstep hH.1, step_linked hH.1 hH.2 he hstep⟩)

/-- The records of a campaign: one for each of its items, with what the item depends on. -/
structure RecordsOf (t : Tables) (c : String) (records : List WorkItemStateRecord) : Prop where
  nodup : (records.map WorkItemStateRecord.id).Nodup
  items : ∀ i, (t.item c i).isSome = true ↔ i ∈ records.map WorkItemStateRecord.id
  dependsOn : ∀ r ∈ records, ∀ d, d ∈ r.dependsOn ↔ d ∈ depsOf t r.id

theorem DependencyGraph.recordGraph (hl : DependencyGraph t) (hwf : Wf t) {records : List WorkItemStateRecord} (h : RecordsOf t c records) :
    RecordGraph records := by
  refine ⟨h.nodup, fun r hr d hd => ?_, hl.acyclic.mono fun a b hb => ?_⟩
  · have hitem : (t.item c r.id).isSome = true := (h.items r.id).2 (List.mem_map.2 ⟨r, hr, rfl⟩)
    obtain ⟨c', ha, hb⟩ := hl.own r.id d ((h.dependsOn r hr d).1 hd)
    rw [← hwf.campaign_eq hitem ha] at hb
    exact (h.items d).1 hb
  · unfold Edge dependenciesOf at hb
    cases hfound : recordOf records a with
    | none =>
      rw [hfound] at hb
      cases hb
    | some r =>
      have hid := List.find?_some hfound
      rw [beq_iff_eq] at hid
      rw [hfound] at hb
      rw [← hid]
      exact (h.dependsOn r (List.mem_reverse.1 (List.mem_of_find?_eq_some hfound)) b).1 hb

/-- **The graph stays acyclic, and the derivation is free of order**: a batch is accepted exactly when its final graph has
no cycle, and every order of the records derives the one solution. -/
theorem dependencies_acyclic {t₀ : Tables} (hs : Stored t₀) (hl : DependencyGraph t₀) {l : List Event}
    (hrun : Sys.RunOn Planning step t₀ l t) :
    DependencyGraph t ∧
    (∀ (h : Hooks) (c : String) (rs : List Replacement), (rs.map Replacement.itemId).Nodup →
      (∀ r ∈ rs, (t.item c r.itemId).isSome = true) →
      (Accepts h c rs t ↔ (∀ r ∈ rs, Passes t h c r) ∧ Acyclic (FinalEdge t c rs)) ∧
      (∀ rs', rs'.Perm rs → (Accepts h c rs' t ↔ Accepts h c rs t)) ∧
      ∀ changed u, replaceDependencies h c rs t = (.ok changed, u) → ∀ a b, (t.item c a).isSome = true →
        (b ∈ depsOf u a ↔ FinalEdge t c rs a b)) ∧
    ∀ (c : String) (records : List WorkItemStateRecord), RecordsOf t c records → ∃ f, Solution records f ∧
      (∀ g, Solution records g → ∀ r ∈ records, g r.id = f r.id) ∧ ∀ records', records'.Perm records → ∀ r ∈ records,
        (deriveCampaignWorkItemStates records').get r.id = some (deriveCampaignWorkItemState r (r.dependsOn.map f)) := by
  obtain ⟨hs', hl'⟩ := run_linked hs hl hrun
  refine ⟨hl', fun h c rs hnodup hitems => ⟨accepts_iff hs'.wf hl' hnodup hitems, fun rs' hperm => ?_, fun changed u hok a b ha => ?_⟩,
    fun c records hrecords => (hl'.recordGraph hs'.wf hrecords).order_free⟩
  · exact accepts_perm hs'.wf hl' hperm hnodup hitems
  · exact accepted_stored hs'.wf hl' hnodup hitems hok ha b

end

def unlinkedTables : Tables := { sampleTables with dependencies := [] }

theorem unlinkedTables_stored : Stored unlinkedTables :=
  sampleTables_stored.congr (sampleTables_stored.wf.congr rfl rfl) rfl (fun _ hsession => hsession)

theorem unlinkedTables_linked : DependencyGraph unlinkedTables := by
  refine ⟨fun a b hb => absurd hb List.not_mem_nil, fun a hcycle => ?_⟩
  obtain ⟨b, hedge, -⟩ := Relation.TransGen.head'_iff.1 hcycle
  exact absurd hedge List.not_mem_nil

def relink : UpdateCampaignWorkItemRequest :=
  { retitle with workItemId := downstream.id, title := none, dependsOn := some [upstream.id] }

def relinkCall : Call := ⟨quietHooks, "c", "c", 1, fun _ => uuid2⟩

theorem dependencies_acyclic_relinked :
    depsOf (mutate relinkCall (.updateItem relink) unlinkedTables).2 downstream.id = [upstream.id] ∧
      DependencyGraph (mutate relinkCall (.updateItem relink) unlinkedTables).2 := by
  have hstart : Sys.RunOn Planning step unlinkedTables [] unlinkedTables := .nil
  have hplanning : Planning [] unlinkedTables (.mutated relinkCall (.updateItem relink)) := trivial
  have hrun := hstart.snoc hplanning rfl
  exact ⟨by decide, (dependencies_acyclic unlinkedTables_stored unlinkedTables_linked hrun).1⟩

theorem armed_batch_refused : ¬ ∀ (t : Tables) (h : Hooks) (c : String) (rs : List Replacement), Stored t → DependencyGraph t →
    (rs.map Replacement.itemId).Nodup → (∀ r ∈ rs, (t.item c r.itemId).isSome = true) →
    (Accepts h c rs t ↔ Acyclic (FinalEdge t c rs)) := by
  intro hall
  have hiff := hall unlinkedTables { quietHooks with armedMerge := fun _ => true } "c"
    [⟨downstream.id, "dependsOn", [upstream.id]⟩] unlinkedTables_stored unlinkedTables_linked (by decide) (by decide)
  have hedge : ∀ {a b : String}, FinalEdge unlinkedTables "c" [⟨downstream.id, "dependsOn", [upstream.id]⟩] a b →
      a = downstream.id ∧ b = upstream.id := by
    rintro a b ⟨-, ⟨r, hr, rfl, hb⟩ | ⟨-, hb⟩⟩
    · rw [List.mem_singleton.1 hr] at hb ⊢
      exact ⟨rfl, List.mem_singleton.1 hb⟩
    · cases hb
  have hacyclic : Acyclic (FinalEdge unlinkedTables "c" [⟨downstream.id, "dependsOn", [upstream.id]⟩]) := by
    intro a hcycle
    obtain ⟨b, hfirst, -⟩ := Relation.TransGen.head'_iff.1 hcycle
    obtain ⟨b', -, hlast⟩ := Relation.TransGen.tail'_iff.1 hcycle
    exact absurd ((hedge hfirst).1.symm.trans (hedge hlast).2) (by decide)
  obtain ⟨changed, u, hok⟩ := hiff.2 hacyclic
  have hrefused : (replaceDependencies { quietHooks with armedMerge := fun _ => true } "c"
      [⟨downstream.id, "dependsOn", [upstream.id]⟩] unlinkedTables).1.toOption.isSome = false := by decide
  rw [hok] at hrefused
  cases hrefused

end Wollipog.Ledger

import Wollipog.Ledger.Run
/-!
# Lookups — what dependencies and fixed-by relationships are after a write

Replacing dependencies changes the edges of the items it names and of no others; a fixed-by relationship is there
already or is added.
-/
namespace Wollipog.Ledger

open Authority (CampaignIssueRef)
open Scope (sortBy)

section

variable {t u v : Tables} {c i key : String} {row : ItemRow} {h : Hooks} {now : Int}

def depsOf (t : Tables) (i : String) : List String := (t.dependencies.filter (fun d => d.workItemId == i)).map DependencyRow.dependsOnId

theorem foldl_edges (i : String) : ∀ (l : List DependencyRow) (edges : OrdMap String (List String)),
    ((l.foldl (fun (edges : OrdMap String (List String)) d =>
        edges.set d.workItemId ((edges.get d.workItemId).getD [] ++ [d.dependsOnId])) edges).get i).getD [] =
      (edges.get i).getD [] ++ (l.filter (fun d => d.workItemId == i)).map DependencyRow.dependsOnId
  | [], edges => by simp
  | d :: l, edges => by
    rw [List.foldl_cons, foldl_edges i l]
    by_cases hd : d.workItemId = i
    · subst hd
      have hb : (d.workItemId == d.workItemId) = true := beq_self_eq_true _
      rw [OrdMap.get_set_self, List.filter_cons, if_pos hb, List.map_cons, Option.getD_some, List.append_assoc]
      rfl
    · have hne : i ≠ d.workItemId := fun h => hd h.symm
      have hb : ¬(d.workItemId == i) = true := by
        rw [beq_iff_eq]
        exact hd
      rw [OrdMap.get_set_ne _ _ hne, List.filter_cons, if_neg hb]

/-- **The dependency graph** has for each item of the campaign what it depends on. -/
theorem dependencyEdges_get (hitem : (t.item c i).isSome = true) : ((dependencyEdges t c).get i).getD [] = depsOf t i := by
  have hfilter : (t.dependencies.filter (fun d => (t.item c d.workItemId).isSome)).filter (fun d => d.workItemId == i) =
      t.dependencies.filter (fun d => d.workItemId == i) := by
    rw [List.filter_filter]
    apply List.filter_congr
    intro d _
    by_cases hd : d.workItemId = i
    · rw [hd, hitem, Bool.and_true]
    · have hb : (d.workItemId == i) = false := by
        rw [beq_eq_false_iff_ne]
        exact hd
      rw [hb, Bool.false_and]
  unfold dependencyEdges depsOf
  rw [foldl_edges, hfilter]
  rfl

theorem depsOf_setDependencies (j : String) (ids : List String) (t : Tables) (i : String) :
    depsOf (t.setDependencies j ids) i = if i = j then ids else depsOf t i := by
  unfold depsOf Tables.setDependencies
  simp only
  rw [List.filter_append, List.map_append, List.filter_filter]
  by_cases hij : i = j
  · subst hij
    have hold : t.dependencies.filter (fun d => d.workItemId == i && d.workItemId != i) = [] := by
      rw [List.filter_eq_nil_iff]
      intro d _
      simp
    have hnew : (ids.map (fun d => (⟨i, d⟩ : DependencyRow))).filter (fun d => d.workItemId == i) = ids.map (fun d => ⟨i, d⟩) := by
      rw [List.filter_eq_self]
      intro d hd
      obtain ⟨x, -, rfl⟩ := List.mem_map.1 hd
      exact beq_self_eq_true i
    rw [hold, hnew, if_pos rfl, List.map_nil, List.nil_append, List.map_map]
    exact List.map_id' ids
  · have hold : t.dependencies.filter (fun d => d.workItemId == i && d.workItemId != j) = t.dependencies.filter (fun d => d.workItemId == i) := by
      apply List.filter_congr
      intro d _
      by_cases hd : d.workItemId = i
      · simp [hd, hij]
      · simp [hd]
    have hnew : (ids.map (fun d => (⟨j, d⟩ : DependencyRow))).filter (fun d => d.workItemId == i) = [] := by
      rw [List.filter_eq_nil_iff]
      intro d hd
      obtain ⟨x, -, rfl⟩ := List.mem_map.1 hd
      rw [beq_iff_eq]
      exact fun h => hij h.symm
    rw [hold, hnew, if_neg hij, List.map_nil, List.append_nil]

theorem depsOf_writeDependencies (edges : OrdMap String (List String)) : ∀ (changed : List String) (t : Tables) (i : String),
    depsOf (writeDependencies edges changed t) i = if i ∈ changed then (edges.get i).getD [] else depsOf t i
  | [], t, i => by
    rw [if_neg List.not_mem_nil]
    rfl
  | j :: changed, t, i => by
    have hstep : writeDependencies edges (j :: changed) t = writeDependencies edges changed (t.setDependencies j ((edges.get j).getD [])) := rfl
    rw [hstep, depsOf_writeDependencies edges changed, depsOf_setDependencies]
    by_cases hin : i ∈ changed
    · rw [if_pos hin, if_pos (List.mem_cons_of_mem j hin)]
    · rw [if_neg hin]
      by_cases hij : i = j
      · subst hij
        rw [if_pos rfl, if_pos List.mem_cons_self]
      · have hnot : i ∉ j :: changed := by
          rw [List.mem_cons, not_or]
          exact ⟨hij, hin⟩
        rw [if_neg hij, if_neg hnot]

theorem writeDependencies_frame (edges : OrdMap String (List String)) : ∀ (changed : List String) (t : Tables), ∃ dependencies,
    writeDependencies edges changed t = { t with dependencies := dependencies }
  | [], t => ⟨t.dependencies, rfl⟩
  | j :: changed, t => by
    obtain ⟨dependencies, heq⟩ := writeDependencies_frame edges changed (t.setDependencies j ((edges.get j).getD []))
    exact ⟨dependencies, heq⟩

/-- **Replacing many sets**: every item named has the set asked for, any other the set that it had. -/
theorem replaceAll_ok : ∀ (rs : List Replacement) {acc acc' : OrdMap String (List String) × List String},
    (rs.map Replacement.itemId).Nodup → replaceAll t h c rs acc = .ok acc' →
    ∃ changed, acc'.2 = acc.2 ++ changed ∧ (∀ i ∈ changed, i ∈ rs.map Replacement.itemId) ∧
      (∀ i, i ∉ changed → acc'.1.get i = acc.1.get i) ∧
      (∀ r ∈ rs, (r.itemId ∈ changed ∧ acc'.1.get r.itemId = some (First.firstBy id r.dependsOn) ∧
          sameSet ((acc.1.get r.itemId).getD []) (First.firstBy id r.dependsOn) = false) ∨
        (r.itemId ∉ changed ∧ sameSet ((acc.1.get r.itemId).getD []) (First.firstBy id r.dependsOn) = true)) ∧
      ∀ r ∈ rs, ∀ j ∈ First.firstBy id r.dependsOn, (t.item c j).isSome = true
  | [], acc, acc', _, hok => by
    cases hok
    exact ⟨[], (List.append_nil _).symm, List.forall_mem_nil _, fun _ _ => rfl,
      List.forall_mem_nil _, List.forall_mem_nil _⟩
  | r :: rs, acc, acc', hnodup, hok => by
    unfold replaceAll at hok
    rw [List.map_cons, List.nodup_cons] at hnodup
    split at hok
    · cases hok
    · rename_i mid hone
      obtain ⟨changed, hlist, hin, hkept, hsets, hthere⟩ := replaceAll_ok rs hnodup.2 hok
      obtain ⟨hthere', hone⟩ := replaceOne_ok hone
      have hout : r.itemId ∉ changed := fun h => hnodup.1 (hin _ h)
      rcases hone with ⟨hsame, rfl⟩ | ⟨hdiffers, rfl⟩
      · refine ⟨changed, hlist, fun i hi => List.mem_cons_of_mem _ (hin i hi), hkept, ?_, ?_⟩
        · intro s hs
          rcases List.mem_cons.1 hs with rfl | hs
          · exact .inr ⟨hout, hsame⟩
          · exact hsets s hs
        · intro s hs
          rcases List.mem_cons.1 hs with rfl | hs
          · exact hthere'
          · exact hthere s hs
      · refine ⟨r.itemId :: changed, by rw [hlist, List.append_assoc]; rfl, ?_, ?_, ?_, ?_⟩
        · intro i hi
          rcases List.mem_cons.1 hi with rfl | hi
          · exact List.mem_cons_self
          · exact List.mem_cons_of_mem _ (hin i hi)
        · intro i hi
          rw [List.mem_cons, not_or] at hi
          rw [hkept i hi.2]
          exact OrdMap.get_set_ne _ _ hi.1
        · intro s hs
          rcases List.mem_cons.1 hs with rfl | hs
          · left
            refine ⟨List.mem_cons_self, ?_, hdiffers⟩
            rw [hkept _ hout]
            exact OrdMap.get_set_self _ _ _
          · have hne : s.itemId ≠ r.itemId := by
              intro heq
              apply hnodup.1
              rw [← heq]
              exact List.mem_map.2 ⟨s, hs, rfl⟩
            have hget : (acc.1.set r.itemId (First.firstBy id r.dependsOn)).get s.itemId = acc.1.get s.itemId :=
              OrdMap.get_set_ne _ _ hne
            rcases hsets s hs with ⟨hmem, hset, hdiff⟩ | ⟨hnot, hsame⟩
            · left
              simp only [hget] at hdiff
              exact ⟨List.mem_cons_of_mem _ hmem, hset, hdiff⟩
            · right
              simp only [hget] at hsame
              refine ⟨?_, hsame⟩
              rw [List.mem_cons, not_or]
              exact ⟨hne, hnot⟩
        · intro s hs
          rcases List.mem_cons.1 hs with rfl | hs
          · exact hthere'
          · exact hthere s hs

end

section

variable {t u : Tables} {c : String}

def FixedByHeld (c : String) (link : FixedByLink) (t : Tables) : Prop :=
  (t.fixedByItems c (Js.lower link.issue.repository) link.issue.number).isSome = true

theorem fixedByItems_append (repository : String) (issue : Int) (rows : List FixedByRow)
    (hsome : (t.fixedByItems c repository issue).isSome = true) :
    (({ t with fixedBy := t.fixedBy ++ rows } : Tables).fixedByItems c repository issue).isSome = true := by
  unfold Tables.fixedByItems at hsome ⊢
  rw [Option.isSome_map] at hsome ⊢
  rw [List.find?_append, Option.isSome_or, hsome, Bool.true_or]

/-- **What recording one relationship does**: it is there, or it is added. -/
theorem recordFixedBy_ok {link : FixedByLink} {b : Bool} (hok : recordFixedBy c link t = (.ok b, u)) :
    (FixedByHeld c link t ∧ b = false ∧ u = t) ∨
      (¬FixedByHeld c link t ∧ b = true ∧ ∃ row, u = insertFixedBy row t ∧ FixedByHeld c link u) := by
  unfold recordFixedBy at hok
  replace hok := Tx.bind_read_ok.1 hok
  cases hids : idsOfKeys c t link.workItemKeys with
  | error key =>
    rw [hids] at hok
    cases hok
  | ok ids =>
    rw [hids] at hok
    simp only at hok
    unfold FixedByHeld
    cases hprevious : t.fixedByItems c (Js.lower link.issue.repository) link.issue.number with
    | some previous =>
      rw [hprevious] at hok
      replace hok := (Tx.bind_refuseIf_ok.1 hok).2
      obtain ⟨rfl, rfl⟩ := Tx.pure_ok.1 hok
      exact .inl ⟨rfl, rfl, rfl⟩
    | none =>
      rw [hprevious] at hok
      replace hok := Tx.bind_write_ok.1 hok
      obtain ⟨rfl, rfl⟩ := Tx.pure_ok.1 hok
      refine .inr ⟨fun h => (by cases h), rfl, _, rfl, ?_⟩
      unfold Tables.fixedByItems at hprevious ⊢
      unfold insertFixedBy
      rw [Option.map_eq_none_iff] at hprevious
      rw [Option.isSome_map, List.find?_append, hprevious, Option.none_or]
      simp [Js.lower_idem]

theorem recordFixedByAll_settles : ∀ (links : List FixedByLink) {b : Bool} {t u : Tables}, recordFixedByAll c links t = (.ok b, u) →
    (∀ link ∈ links, FixedByHeld c link u) ∧ ∃ rows, u = { t with fixedBy := t.fixedBy ++ rows } ∧ (b = true ↔ rows ≠ [])
  | [], b, t, u, hok => by
    obtain ⟨rfl, rfl⟩ := Tx.pure_ok.1 hok
    exact ⟨List.forall_mem_nil _, [], by rw [List.append_nil], by simp⟩
  | link :: links, b, t, u, hok => by
    unfold recordFixedByAll at hok
    obtain ⟨first, t₁, hfirst, hok⟩ := Tx.bind_ok.1 hok
    obtain ⟨rest, t₂, hrest, hok⟩ := Tx.bind_ok.1 hok
    obtain ⟨rfl, rfl⟩ := Tx.pure_ok.1 hok
    obtain ⟨hheld, rows, rfl, hrows⟩ := recordFixedByAll_settles links hrest
    have hone : FixedByHeld c link t₁ ∧ ∃ row, t₁ = { t with fixedBy := t.fixedBy ++ row } ∧ (first = true ↔ row ≠ []) := by
      rcases recordFixedBy_ok hfirst with ⟨hthere, rfl, rfl⟩ | ⟨-, rfl, row, rfl, hthere⟩
      · exact ⟨hthere, [], by rw [List.append_nil], by simp⟩
      · exact ⟨hthere, [row], rfl, by simp⟩
    obtain ⟨hthere, row, rfl, hrow⟩ := hone
    refine ⟨fun other hother => ?_, row ++ rows, by rw [← List.append_assoc], ?_⟩
    · rcases List.mem_cons.1 hother with rfl | hother
      · exact fixedByItems_append _ _ rows hthere
      · exact hheld other hother
    · rw [Bool.or_eq_true, hrow, hrows, ← not_and_or, ne_eq, List.append_eq_nil_iff]

end

end Wollipog.Ledger

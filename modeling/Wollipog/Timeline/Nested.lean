import Wollipog.Timeline.Subagents
/-!
# Nested — a kept projector renders what a new one does

Whatever a projector kept, it renders one forest of the list: every item once, siblings in the order of the list, items on a
cycle at the top.
-/
namespace Wollipog.Timeline

variable {content : ℕ → TimelineItem}

def found : List ℕ → Option (Option ℕ)
  | [] => none
  | [item] => some (some item)
  | _ :: _ :: _ => some none

theorem found_append (l : List ℕ) (item : ℕ) : found (l ++ [item]) = some (if (found l).isSome then none else some item) := by
  cases l with
  | nil => rfl
  | cons a l =>
    cases l with
    | nil => rfl
    | cons b l => rfl

def toolsOf (content : ℕ → TimelineItem) (items : List ℕ) (id : String) : List ℕ :=
  items.filter (fun item => (content item).kind = .tool_call ∧ (content item).toolCallId = id)

theorem get_uniqueTools (items : List ℕ) (id : String) : (uniqueTools content items).get id = found (toolsOf content items id) := by
  induction items using List.reverseRecOn with
  | nil => rfl
  | append_singleton items item ih =>
    have hfold : uniqueTools content (items ++ [item]) = if (content item).kind = .tool_call then
        (uniqueTools content items).set (content item).toolCallId
          (if ((uniqueTools content items).get (content item).toolCallId).isSome then none else some item)
        else uniqueTools content items := by
      unfold uniqueTools
      rw [List.foldl_append]
      rfl
    rw [hfold]
    unfold toolsOf
    rw [List.filter_append]
    by_cases hkind : (content item).kind = .tool_call
    · rw [if_pos hkind, OrdMap.get_set]
      by_cases hid : (content item).toolCallId = id
      · subst hid
        have hlast : [item].filter (fun i => decide ((content i).kind = .tool_call ∧ (content i).toolCallId = (content item).toolCallId)) = [item] :=
          List.filter_cons_of_pos (decide_eq_true ⟨hkind, rfl⟩)
        rw [if_pos rfl, hlast, found_append, ih]
        rfl
      · have hlast : [item].filter (fun i => decide ((content i).kind = .tool_call ∧ (content i).toolCallId = id)) = [] :=
          List.filter_cons_of_neg (fun h => hid (of_decide_eq_true h).2)
        rw [if_neg (fun h => hid h.symm), hlast, List.append_nil]
        exact ih
    · have hlast : [item].filter (fun i => decide ((content i).kind = .tool_call ∧ (content i).toolCallId = id)) = [] :=
        List.filter_cons_of_neg (fun h => hkind (of_decide_eq_true h).1)
      rw [if_neg hkind, hlast, List.append_nil]
      exact ih

variable {i p : ℕ} {o : Obj} {heap heap' : Heap}

/-- **A parent is a tool call, and stands once in the list.** -/
theorem parentTool_spec {items : List ℕ} (h : parentTool content (uniqueTools content items) i = some p) :
    (content p).kind = .tool_call ∧ p ∈ items ∧ items.count p = 1 := by
  unfold parentTool at h
  obtain ⟨id, -, hjoin⟩ := Option.bind_eq_some_iff.1 h
  rw [get_uniqueTools] at hjoin
  have hone : toolsOf content items id = [p] := by
    cases hl : toolsOf content items id with
    | nil =>
      rw [hl] at hjoin
      cases hjoin
    | cons a l =>
      rw [hl] at hjoin
      cases l with
      | nil => rw [Option.some.inj hjoin]
      | cons b l => cases hjoin
  have hin : p ∈ toolsOf content items id := hone ▸ List.mem_cons_self
  obtain ⟨hmem, hp⟩ := List.mem_filter.1 hin
  refine ⟨(of_decide_eq_true hp).1, hmem, ?_⟩
  have hcount : (toolsOf content items id).count p = items.count p := List.count_filter hp
  rw [← hcount, hone, List.count_singleton_self]

/-- **The cyclic tools are found**, every tool above itself among them. -/
theorem cyclicTools_spec (items : List ℕ) : ∃ cyclic, cyclicTools content items = some cyclic ∧
    ∀ t, Relation.TransGen (Under (parentTool content (uniqueTools content items))) t t → t ∈ cyclic := by
  have htools : ∀ t ∈ items, ∀ p, parentTool content (uniqueTools content items) t = some p → p ∈ items :=
    fun _ _ _ hp => (parentTool_spec hp).2.1
  have hvalues : ∀ t ∈ (uniqueTools content items).entries.filterMap Prod.snd, t ∈ items := by
    intro t ht
    obtain ⟨e, he, hsnd⟩ := List.mem_filterMap.1 ht
    have hget : (uniqueTools content items).get e.1 = some (some t) := OrdMap.get_of_mem (by rw [← hsnd]; exact he)
    have hfound := @get_uniqueTools content items e.1
    rw [hget] at hfound
    cases hl : toolsOf content items e.1 with
    | nil =>
      rw [hl] at hfound
      cases hfound
    | cons a l =>
      rw [hl] at hfound
      cases l with
      | nil =>
        have hin : a ∈ toolsOf content items e.1 := hl ▸ List.mem_cons_self
        rw [Option.some.inj (Option.some.inj hfound)]
        exact (List.mem_filter.1 hin).1
      | cons b l => cases hfound
  obtain ⟨d, hrun, hmarked, -, hleft⟩ := visitAll_spec htools (Nat.lt_succ_self items.length) hvalues marked_start rfl
  refine ⟨d.cyclic, ?_, ?_⟩
  · unfold cyclicTools
    rw [hrun]
    rfl
  · intro t hcycle
    refine hmarked.complete t (hleft t ?_) hcycle
    obtain ⟨b, -, hb⟩ := Relation.TransGen.tail'_iff.1 hcycle
    unfold Under parentTool at hb
    obtain ⟨id, -, hjoin⟩ := Option.bind_eq_some_iff.1 hb
    have hget : (uniqueTools content items).get id = some (some t) := Option.join_eq_some_iff.1 hjoin
    exact List.mem_filterMap.2 ⟨_, OrdMap.mem_of_get hget, rfl⟩

theorem attachedTo_spec {tools : OrdMap String (Option ℕ)} {cyclic : List ℕ} (h : attachedTo content tools cyclic i = some p) :
    parentTool content tools i = some p ∧ ((content i).kind = .tool_call → i ∉ cyclic) := by
  unfold attachedTo at h
  split at h
  · cases h
  · rename_i hfree
    exact ⟨(Option.filter_eq_some_iff.1 h).1, fun hkind hin => hfree (.inr ⟨hkind, hin⟩)⟩

section Links

variable {items : List ℕ} {cyclic : List ℕ}

theorem attached_parented : Rose.Parented items (attachedTo content (uniqueTools content items) cyclic) :=
  fun _ _ _ hp => (parentTool_spec (attachedTo_spec hp).1).2

theorem cycle_attached (hcyclic : ∀ t, Relation.TransGen (Under (parentTool content (uniqueTools content items))) t t → t ∈ cyclic) {i : ℕ}
    (h : Relation.TransGen (Under (parentTool content (uniqueTools content items))) i i) :
    attachedTo content (uniqueTools content items) cyclic i = none := by
  obtain ⟨b, -, hb⟩ := Relation.TransGen.tail'_iff.1 h
  exact if_pos (.inr ⟨(parentTool_spec hb).1, hcyclic i h⟩)

/-- **The links that are left have no cycle.** -/
theorem attached_rooted (hcyclic : ∀ t, Relation.TransGen (Under (parentTool content (uniqueTools content items))) t t → t ∈ cyclic) :
    Rose.Rooted items (attachedTo content (uniqueTools content items) cyclic) := by
  intro i _ h
  have hcycle : Relation.TransGen (Under (parentTool content (uniqueTools content items))) i i :=
    Relation.TransGen.mono (fun _ _ hedge => (attachedTo_spec hedge).1) _ _ h
  obtain ⟨b, hb, -⟩ := Relation.TransGen.head'_iff.1 h
  rw [cycle_attached hcyclic hcycle] at hb
  cases hb

theorem children_of_tool {i : ℕ} (h : (content i).kind ≠ .tool_call) :
    Rose.childrenIn items (attachedTo content (uniqueTools content items) cyclic) i = [] := by
  refine List.filter_eq_nil_iff.2 (fun c _ hc => h ?_)
  exact (parentTool_spec (attachedTo_spec (of_decide_eq_true hc)).1).1

end Links

def Valid (heap : Heap) : Obj → Prop
  | .given _ => True
  | .made at_ => at_ < heap.length

theorem Valid.grown (h : heap <+: heap') (ho : Valid heap o) : Valid heap' o := by
  cases o with
  | given item => trivial
  | made at_ => exact lt_of_lt_of_le ho h.length_le

/-- **An object stands for one tree for good.** -/
theorem value_grown (h : heap <+: heap') (ho : Valid heap o) : value heap' o = value heap o := by
  obtain ⟨more, rfl⟩ := h
  cases o with
  | given item => rfl
  | made at_ =>
    change ((heap ++ more)[at_]?).getD _ = (heap[at_]?).getD _
    rw [List.getElem?_append_left ho]

theorem map_value_grown (h : heap <+: heap') {l : List Obj} (hl : ∀ o ∈ l, Valid heap o) :
    l.map (value heap') = l.map (value heap) := List.map_congr_left (fun o ho => value_grown h (hl o ho))

def Kept (heap : Heap) (cache : OrdMap String CachedToolProjection) : Prop :=
  ∀ id e, cache.get id = some e → (∀ c ∈ e.children, Valid heap c) ∧ Valid heap e.rendered ∧
    value heap e.rendered = .node e.source (e.children.map (value heap))

variable {cache : OrdMap String CachedToolProjection}

theorem Kept.grown (h : heap <+: heap') (hk : Kept heap cache) : Kept heap' cache := by
  intro id e he
  obtain ⟨hchildren, hrendered, hvalue⟩ := hk id e he
  refine ⟨fun c hc => (hchildren c hc).grown h, hrendered.grown h, ?_⟩
  rw [value_grown h hrendered, hvalue, map_value_grown h hchildren]

theorem Kept.set (hk : Kept heap cache) {id : String}
    {e : CachedToolProjection} (hchildren : ∀ c ∈ e.children, Valid heap c) (hrendered : Valid heap e.rendered)
    (hvalue : value heap e.rendered = .node e.source (e.children.map (value heap))) : Kept heap (cache.set id e) := by
  intro id' e' he
  rw [OrdMap.get_set] at he
  split at he
  · cases he
    exact ⟨hchildren, hrendered, hvalue⟩
  · exact hk id' e' he

theorem kept_empty (heap : Heap) : Kept heap OrdMap.empty := by
  intro id e he
  cases he

/-- A rendering that gave an object for the tree `t`. -/
structure Renders (st : Rendering) (r : Obj × Rendering) (t : Rose ℕ) : Prop where
  grown : st.heap <+: r.2.heap
  kept : Kept r.2.heap r.2.nextCache
  valid : Valid r.2.heap r.1
  tree : value r.2.heap r.1 = t

theorem renderNode_spec {st : Rendering} (hcache : Kept st.heap cache)
    (hst : Kept st.heap st.nextCache) {item : ℕ} {children : List Obj} (hchildren : ∀ c ∈ children, Valid st.heap c) :
    Renders st (renderNode content cache item children st) (.node item (children.map (value st.heap))) := by
  have hfresh : Renders st (.made st.heap.length,
      { heap := st.heap ++ [.node item (children.map (value st.heap))]
        nextCache := st.nextCache.set (content item).toolCallId ⟨item, children, .made st.heap.length⟩ })
      (.node item (children.map (value st.heap))) := by
    have hgrown : st.heap <+: st.heap ++ [Rose.node item (children.map (value st.heap))] := List.prefix_append _ _
    have hvalid : Valid (st.heap ++ [Rose.node item (children.map (value st.heap))]) (.made st.heap.length) := by
      change st.heap.length < _
      rw [List.length_append, List.length_singleton]
      exact Nat.lt_succ_self _
    have hvalue : value (st.heap ++ [Rose.node item (children.map (value st.heap))]) (.made st.heap.length) =
        .node item (children.map (value st.heap)) := by
      change ((st.heap ++ [_])[st.heap.length]?).getD _ = _
      rw [List.getElem?_concat_length]
      rfl
    refine ⟨hgrown, (hst.grown hgrown).set (fun c hc => (hchildren c hc).grown hgrown) hvalid ?_, hvalid, hvalue⟩
    rw [hvalue, map_value_grown hgrown hchildren]
  unfold renderNode
  dsimp only
  split
  · exact hfresh
  · rename_i previous hprevious
    split
    · rename_i hsame
      obtain ⟨hvalidChildren, hvalid, hvalue⟩ := hcache _ previous hprevious
      rw [hsame.1, hsame.2] at hvalue
      exact ⟨List.prefix_refl _, hst.set hchildren hvalid hvalue, hvalid, hvalue⟩
    · exact hfresh

theorem renderAll_spec {f : ℕ → Rendering → Option (Obj × Rendering)} {tree : ℕ → Rose ℕ}
    {l : List ℕ} (hf : ∀ i ∈ l, ∀ st : Rendering, Kept st.heap cache → Kept st.heap st.nextCache →
      ∃ r, f i st = some r ∧ Renders st r (tree i)) : ∀ st : Rendering, Kept st.heap cache → Kept st.heap st.nextCache →
      ∃ rs, renderAll f l st = some rs ∧ st.heap <+: rs.2.heap ∧ Kept rs.2.heap rs.2.nextCache ∧
        (∀ o ∈ rs.1, Valid rs.2.heap o) ∧ rs.1.map (value rs.2.heap) = l.map tree := by
  induction l with
  | nil => exact fun st _ hst => ⟨([], st), rfl, List.prefix_refl _, hst, List.forall_mem_nil _, rfl⟩
  | cons i l ih =>
    intro st hcache hst
    obtain ⟨r, hr, hrenders⟩ := hf i List.mem_cons_self st hcache hst
    obtain ⟨rs, hrs, hgrown, hkept, hvalid, htrees⟩ :=
      ih (fun j hj => hf j (List.mem_cons_of_mem i hj)) r.2 (hcache.grown hrenders.grown) hrenders.kept
    refine ⟨(r.1 :: rs.1, rs.2), ?_, hrenders.grown.trans hgrown, hkept, ?_, ?_⟩
    · unfold renderAll
      rw [hr, Option.bind_some, hrs]
      rfl
    · intro o ho
      rcases List.mem_cons.1 ho with rfl | ho
      · exact hrenders.valid.grown hgrown
      · exact hvalid o ho
    · rw [List.map_cons, List.map_cons, htrees, value_grown hgrown hrenders.valid, hrenders.tree]

section Rendered

variable {items : List ℕ} {cyclic : List ℕ}

/-- **Rendering an item** gives the tree grown from it, whatever the cache keeps. -/
theorem render_spec (hcyclic : ∀ t, Relation.TransGen (Under (parentTool content (uniqueTools content items))) t t → t ∈ cyclic)
    (cache : OrdMap String CachedToolProjection) {fuel : ℕ} : ∀ i ∈ items,
    items.length ≤ Rose.rank items (attachedTo content (uniqueTools content items) cyclic) i + fuel →
    ∀ st : Rendering, Kept st.heap cache → Kept st.heap st.nextCache →
      ∃ r, render content cache (Rose.childrenIn items (attachedTo content (uniqueTools content items) cyclic)) (fuel + 1) i st = some r ∧
        Renders st r (Rose.grow (Rose.childrenIn items (attachedTo content (uniqueTools content items) cyclic)) fuel i) := by
  obtain ⟨parent, hparent⟩ : ∃ f, attachedTo content (uniqueTools content items) cyclic = f := ⟨_, rfl⟩
  have hparented : Rose.Parented items parent := hparent ▸ attached_parented
  have hrooted : Rose.Rooted items parent := hparent ▸ attached_rooted hcyclic
  have htool : ∀ i, (content i).kind ≠ .tool_call → Rose.childrenIn items parent i = [] :=
    fun i h => hparent ▸ children_of_tool h
  rw [hparent]
  have hchild : ∀ i, ∀ c ∈ Rose.childrenIn items parent i, c ∈ items ∧ Rose.rank items parent c = Rose.rank items parent i + 1 := by
    intro i c hc
    obtain ⟨hin, hp⟩ := List.mem_filter.1 hc
    exact ⟨hin, Rose.rank_child hparented hrooted hin (of_decide_eq_true hp)⟩
  have hleaf : ∀ i n (st : Rendering), Kept st.heap st.nextCache → Rose.childrenIn items parent i = [] →
      ∃ r, render content cache (Rose.childrenIn items parent) (n + 1) i st = some r ∧
        Renders st r (Rose.grow (Rose.childrenIn items parent) n i) := by
    intro i n st hst hnone
    refine ⟨(.given i, st), ?_, List.prefix_refl _, hst, trivial, ?_⟩
    · unfold render
      exact if_pos (.inr hnone)
    · cases n with
      | zero => rfl
      | succ n =>
        rw [Rose.grow, hnone]
        rfl
  induction fuel with
  | zero =>
    intro i hi hroom st _ hst
    refine hleaf i 0 st hst ?_
    rw [List.eq_nil_iff_forall_not_mem]
    intro c hc
    have hrank := (hchild i c hc).2
    have hle := @Rose.rank_le ℕ _ items parent c
    omega
  | succ fuel ih =>
    intro i hi hroom st hcache hst
    by_cases hnone : (content i).kind ≠ .tool_call ∨ Rose.childrenIn items parent i = []
    · exact hleaf i (fuel + 1) st hst (hnone.elim (htool i) id)
    · have heach : ∀ c ∈ Rose.childrenIn items parent i, ∀ st : Rendering, Kept st.heap cache → Kept st.heap st.nextCache →
          ∃ r, render content cache (Rose.childrenIn items parent) (fuel + 1) c st = some r ∧
            Renders st r (Rose.grow (Rose.childrenIn items parent) fuel c) := by
        intro c hc
        obtain ⟨hin, hrank⟩ := hchild i c hc
        exact ih c hin (by omega)
      obtain ⟨rs, hrs, hgrown, hkept, hvalid, htrees⟩ := renderAll_spec heach st hcache hst
      have hnode := @renderNode_spec content cache rs.2 (hcache.grown hgrown) hkept i rs.1 hvalid
      refine ⟨renderNode content cache i rs.1 rs.2, ?_, hgrown.trans hnode.grown, hnode.kept, hnode.valid, ?_⟩
      · unfold render
        rw [if_neg hnone, hrs]
        rfl
      · rw [hnode.tree, htrees]
        rfl

end Rendered

/-- A forest that holds every item once, siblings in the order of the list, what is on a cycle at the top. -/
structure Nests (content : ℕ → TimelineItem) (items : List ℕ) (forest : List (Rose ℕ)) : Prop where
  once : (Rose.flattenAll forest).Perm items
  top : (forest.map Rose.root).Sublist items
  siblings : ∀ l ∈ Rose.siblingsAll forest, l.Sublist items
  cycles : ∀ i ∈ items, Relation.TransGen (Under (parentTool content (uniqueTools content items))) i i → i ∈ forest.map Rose.root

theorem nests_flat (items : List ℕ) : Nests content items (items.map (fun item => .node item [])) := by
  have hroots : (items.map (fun item => Rose.node item [])).map Rose.root = items := by
    rw [List.map_map]
    exact List.map_id items
  refine ⟨(Rose.flattenAll_single items).symm ▸ List.Perm.refl _, hroots.symm ▸ List.Sublist.refl _, ?_, ?_⟩
  · intro l hl
    obtain ⟨t, ht, hl⟩ := Rose.mem_siblingsAll.1 hl
    obtain ⟨i, -, rfl⟩ := List.mem_map.1 ht
    rw [Rose.siblings, List.map_nil, Rose.siblingsAll, List.mem_singleton] at hl
    rw [hl]
    exact List.nil_sublist items
  · intro i hi _
    rw [hroots]
    exact hi

theorem map_value_given (heap : Heap) (items : List ℕ) :
    (items.map Obj.given).map (value heap) = items.map (fun item => .node item []) := by
  rw [List.map_map]
  rfl

/-- **One projection**: the forest of a list does not depend on what the projector kept. -/
theorem project_spec (items : List ℕ) : ∃ forest, Nests content items forest ∧
    ∀ st : SubagentTreeProjector, Kept st.heap st.cache → ∃ r, st.project content items = some r ∧
      Kept r.2.heap r.2.cache ∧ r.1.map (value r.2.heap) = forest := by
  unfold SubagentTreeProjector.project
  by_cases hparents : (!items.any (fun item => (parentIdOf (content item)).isSome)) = true
  · refine ⟨_, nests_flat items, fun st hst => ⟨(items.map .given, st), if_pos hparents, hst, map_value_given _ _⟩⟩
  · simp only [if_neg hparents]
    obtain ⟨cyclic, hrun, hcyclic⟩ := @cyclicTools_spec content items
    rw [hrun]
    simp only [Option.bind_some]
    by_cases hattached : (!items.any (fun item => (attachedTo content (uniqueTools content items) cyclic item).isSome)) = true
    · refine ⟨_, nests_flat items, fun st hst => ⟨(items.map .given, st), if_pos hattached, hst, map_value_given _ _⟩⟩
    · simp only [if_neg hattached]
      have hroots := Rose.map_root_grow (Rose.childrenIn items (attachedTo content (uniqueTools content items) cyclic)) items.length
        (items.filter (fun item => attachedTo content (uniqueTools content items) cyclic item = none))
      refine ⟨(items.filter (fun item => attachedTo content (uniqueTools content items) cyclic item = none)).map
        (Rose.grow (Rose.childrenIn items (attachedTo content (uniqueTools content items) cyclic)) items.length), ⟨?_, ?_, ?_, ?_⟩, ?_⟩
      · exact Rose.forest_perm attached_parented (attached_rooted hcyclic)
      · rw [hroots]
        exact List.filter_sublist
      · intro l hl
        obtain ⟨t, ht, hl⟩ := Rose.mem_siblingsAll.1 hl
        obtain ⟨i, -, rfl⟩ := List.mem_map.1 ht
        exact @Rose.siblings_grow ℕ (Rose.childrenIn items (attachedTo content (uniqueTools content items) cyclic))
          (fun l => l.Sublist items) (List.nil_sublist items) (fun _ => List.filter_sublist) _ i l hl
      · intro i hi hcycle
        rw [hroots]
        exact List.mem_filter.2 ⟨hi, decide_eq_true (cycle_attached hcyclic hcycle)⟩
      · intro st hst
        obtain ⟨rs, hrs, hgrown, hkept, -, htrees⟩ := renderAll_spec
          (fun i hi => render_spec hcyclic st.cache i (List.mem_filter.1 hi).1 (Nat.le_add_left _ _))
          ⟨st.heap, OrdMap.empty⟩ hst (kept_empty _)
        rw [hrs]
        simp only [Option.map_some]
        split
        · rename_i hsame
          refine ⟨_, rfl, hkept, ?_⟩
          rw [hsame]
          exact htrees
        · exact ⟨_, rfl, hkept, htrees⟩

theorem projectAll_spec (lists : List (List ℕ)) : ∀ st : SubagentTreeProjector, Kept st.heap st.cache →
    ∃ st', st.projectAll content lists = some st' ∧ Kept st'.heap st'.cache := by
  induction lists with
  | nil => exact fun st hst => ⟨st, rfl, hst⟩
  | cons items lists ih =>
    intro st hst
    obtain ⟨_, _, hproject⟩ := @project_spec content items
    obtain ⟨r, hr, hkept, -⟩ := hproject st hst
    obtain ⟨st', hrest, hkept'⟩ := ih r.2 hkept
    refine ⟨st', ?_, hkept'⟩
    unfold SubagentTreeProjector.projectAll
    rw [hr]
    exact hrest

/-- **The cached subagent tree is the plain one**, which holds every item once, what is on a cycle at the top. -/
theorem cached_subagent_tree (content : ℕ → TimelineItem) (lists : List (List ℕ)) (items : List ℕ) :
    ∃ st kept plain, SubagentTreeProjector.new.projectAll content lists = some st ∧ st.project content items = some kept ∧
      nestSubagents content items = some plain ∧ kept.1.map (value kept.2.heap) = plain.1.map (value plain.2.heap) ∧
      Nests content items (plain.1.map (value plain.2.heap)) := by
  obtain ⟨st, hrun, hst⟩ := projectAll_spec lists SubagentTreeProjector.new (kept_empty [])
  obtain ⟨forest, hnests, hproject⟩ := @project_spec content items
  obtain ⟨kept, hkept, -, hforest⟩ := hproject st hst
  obtain ⟨plain, hplain, -, hforest'⟩ := hproject SubagentTreeProjector.new (kept_empty [])
  refine ⟨st, kept, plain, hrun, hkept, hplain, hforest.trans hforest'.symm, ?_⟩
  rw [hforest']
  exact hnests

end Wollipog.Timeline

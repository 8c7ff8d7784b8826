import Wollipog.Lib.Forest
import Wollipog.Lib.OrdMap
/-!
# Subagents — the tree of what subagents did

Items name the tool call they were done under. The projection breaks the cycles of malformed links and renders the
items as a tree, of which it keeps what it rendered for the next list. An item is the identity of an object that
nobody writes again, a rendered node a place of the heap.
-/
namespace Wollipog.Timeline

inductive Kind
  | artifact_attached | user_message | agent_message | agent_thought | command_output | stderr | tool_call | plan | file_edit
  | error | turn_interrupted | review_decision | permission | question | governance_decision | checkpoint
  | checkpoint_restored | conversation_checkpoint | conversation_forked | provider_account_switched | context_compacted
deriving DecidableEq

structure TimelineItem where
  kind : Kind
  toolCallId : String
  parentToolUseId : Option String

def nestableChildKinds : List Kind := [.agent_message, .agent_thought, .command_output, .tool_call, .plan, .file_edit]

def parentIdOf (item : TimelineItem) : Option String := item.parentToolUseId.filter (· != "")

inductive Obj
  | given (item : ℕ)
  | made (at_ : ℕ)
deriving DecidableEq

abbrev Heap := List (Rose ℕ)

def value (heap : Heap) : Obj → Rose ℕ
  | .given item => .node item []
  | .made at_ => (heap[at_]?).getD (.node 0 [])

structure CachedToolProjection where
  source : ℕ
  children : List Obj
  rendered : Obj

structure SubagentTreeProjector where
  heap : Heap
  cache : OrdMap String CachedToolProjection
  top : List Obj

def SubagentTreeProjector.new : SubagentTreeProjector := ⟨[], OrdMap.empty, []⟩

inductive Mark
  | unvisited | entered | left
deriving DecidableEq

structure Search where
  state : ℕ → Mark
  stack : List ℕ
  cyclic : List ℕ

def Search.start : Search := ⟨fun _ => .unvisited, [], []⟩

/-- `Math.max(0, lastIndexOf)` -/
def lastIndexOf (l : List ℕ) (x : ℕ) : ℕ := l.length - 1 - l.reverse.idxOf x

def Search.mark (d : Search) (tool : ℕ) (m : Mark) : Search := { d with state := fun t => if t = tool then m else d.state t }

/-- `visit`, with as much fuel as calls may nest; none where it does not return. -/
def visit (parentOf : ℕ → Option ℕ) : ℕ → ℕ → Search → Option Search
  | 0, _, _ => none
  | fuel + 1, tool, d =>
    if d.state tool ≠ .unvisited then some d
    else
      let d := { d.mark tool .entered with stack := d.stack ++ [tool] }
      let followed := match parentOf tool with
        | none => some d
        | some parent => match d.state parent with
          | .unvisited => visit parentOf fuel parent d
          | .entered => some { d with cyclic := d.cyclic ++ d.stack.drop (lastIndexOf d.stack parent) }
          | .left => some d
      followed.map (fun d => { d.mark tool .left with stack := d.stack.dropLast })

def visitAll (parentOf : ℕ → Option ℕ) (fuel : ℕ) : List ℕ → Search → Option Search
  | [], d => some d
  | tool :: tools, d => (visit parentOf fuel tool d).bind (visitAll parentOf fuel tools)

section Project

variable (content : ℕ → TimelineItem)

def uniqueTools (items : List ℕ) : OrdMap String (Option ℕ) :=
  items.foldl (fun m item =>
    if (content item).kind = .tool_call then
      m.set (content item).toolCallId (if (m.get (content item).toolCallId).isSome then none else some item)
    else m) OrdMap.empty

def parentTool (tools : OrdMap String (Option ℕ)) (item : ℕ) : Option ℕ :=
  (parentIdOf (content item)).bind (fun parentId => (tools.get parentId).join)

def cyclicTools (items : List ℕ) : Option (List ℕ) :=
  (visitAll (parentTool content (uniqueTools content items)) (items.length + 1)
    ((uniqueTools content items).entries.filterMap Prod.snd) Search.start).map Search.cyclic

def attachedTo (tools : OrdMap String (Option ℕ)) (cyclic : List ℕ) (item : ℕ) : Option ℕ :=
  if (content item).kind ∉ nestableChildKinds ∨ ((content item).kind = .tool_call ∧ item ∈ cyclic) then none
  -- No orphan, no parent of an ambiguous id and no self-cycle.
  else (parentTool content tools item).filter (· != item)

/-! ## Rendering -/

structure Rendering where
  heap : Heap
  nextCache : OrdMap String CachedToolProjection

def renderAll (f : ℕ → Rendering → Option (Obj × Rendering)) : List ℕ → Rendering → Option (List Obj × Rendering)
  | [], st => some ([], st)
  | item :: items, st => (f item st).bind (fun r => (renderAll f items r.2).map (fun rs => (r.1 :: rs.1, rs.2)))

/-- The node of a tool call over its rendered children: the one of the cache where nothing changed. -/
def renderNode (cache : OrdMap String CachedToolProjection) (item : ℕ) (children : List Obj) (st : Rendering) : Obj × Rendering :=
  let toolCallId := (content item).toolCallId
  let fresh : Obj × Rendering :=
    (.made st.heap.length,
      { heap := st.heap ++ [.node item (children.map (value st.heap))]
        nextCache := st.nextCache.set toolCallId ⟨item, children, .made st.heap.length⟩ })
  match cache.get toolCallId with
  | none => fresh
  | some previous =>
    if previous.children = children ∧ previous.source = item then
      (previous.rendered, { st with nextCache := st.nextCache.set toolCallId ⟨item, children, previous.rendered⟩ })
    else fresh

def render (cache : OrdMap String CachedToolProjection) (children : ℕ → List ℕ) : ℕ → ℕ → Rendering → Option (Obj × Rendering)
  | 0, _, _ => none
  | fuel + 1, item, st =>
    if (content item).kind ≠ .tool_call ∨ children item = [] then some (.given item, st)
    else (renderAll (render cache children fuel) (children item) st).map (fun r => renderNode content cache item r.1 r.2)

def SubagentTreeProjector.project (st : SubagentTreeProjector) (items : List ℕ) : Option (List Obj × SubagentTreeProjector) :=
  if !items.any (fun item => (parentIdOf (content item)).isSome) then some (items.map .given, st)
  else
    (cyclicTools content items).bind (fun cyclic =>
      let parent := attachedTo content (uniqueTools content items) cyclic
      if !items.any (fun item => (parent item).isSome) then some (items.map .given, st)
      else
        (renderAll (render content st.cache (Rose.childrenIn items parent) (items.length + 1))
          (items.filter (fun item => parent item = none)) ⟨st.heap, OrdMap.empty⟩).map (fun r =>
            if st.top = r.1 then (st.top, { st with heap := r.2.heap, cache := r.2.nextCache })
            else (r.1, ⟨r.2.heap, r.2.nextCache, r.1⟩)))

def nestSubagents (items : List ℕ) : Option (List Obj × SubagentTreeProjector) := SubagentTreeProjector.new.project content items

def SubagentTreeProjector.projectAll (st : SubagentTreeProjector) : List (List ℕ) → Option SubagentTreeProjector
  | [] => some st
  | items :: rest => (st.project content items).bind (fun r => r.2.projectAll rest)

end Project

end Wollipog.Timeline

/-! ## The search finds every tool of a parent cycle

The search follows one parent after the other, so its stack is a chain of parents.
-/
namespace Wollipog.Timeline

/-- `b` is the parent of `a`. -/
def Under (parentOf : ℕ → Option ℕ) (a b : ℕ) : Prop := parentOf a = some b

variable {parentOf : ℕ → Option ℕ}

variable {fuel last t tool : ℕ} {l tools : List ℕ} {d : Search}

theorem cycle_parent {p : ℕ} (h : Relation.TransGen (Under parentOf) t t) (hp : parentOf t = some p) :
    Relation.TransGen (Under parentOf) p p ∧ Relation.ReflTransGen (Under parentOf) p t := by
  obtain ⟨b, hb, hback⟩ := Relation.TransGen.head'_iff.1 h
  obtain rfl : p = b := Option.some.inj (hp.symm.trans hb)
  exact ⟨.tail' hback hp, hback⟩

structure Marked (parentOf : ℕ → Option ℕ) (d : Search) : Prop where
  entered : ∀ t, d.state t = .entered → t ∈ d.stack
  closed : ∀ t ∈ d.cyclic, ∀ p, parentOf t = some p → p ∈ d.cyclic
  complete : ∀ t, d.state t = .left → Relation.TransGen (Under parentOf) t t → t ∈ d.cyclic

theorem Marked.above (h : Marked parentOf d) {u : ℕ} (ht : t ∈ d.cyclic)
    (hup : Relation.ReflTransGen (Under parentOf) t u) : u ∈ d.cyclic := by
  induction hup with
  | refl => exact ht
  | tail _ hedge ih => exact h.closed _ ih _ hedge

theorem marked_start : Marked parentOf Search.start where
  entered := by
    intro t h
    cases h
  closed := by
    intro t h
    cases h
  complete := by
    intro t h
    cases h

theorem chain_parent (h : (l ++ [last]).IsChain (Under parentOf)) : ∀ t ∈ l, ∃ p ∈ l ++ [last], parentOf t = some p := by
  induction l with
  | nil =>
    intro t ht
    cases ht
  | cons a l ih =>
    have htail : (l ++ [last]).IsChain (Under parentOf) := h.tail
    intro t ht
    rcases List.mem_cons.1 ht with rfl | ht
    · cases l with
      | nil => exact ⟨last, List.mem_cons_of_mem _ List.mem_cons_self, (List.isChain_cons_cons.1 h).1⟩
      | cons b l => exact ⟨b, List.mem_cons_of_mem _ List.mem_cons_self, (List.isChain_cons_cons.1 h).1⟩
    · obtain ⟨p, hp, hparent⟩ := ih htail t ht
      exact ⟨p, List.mem_cons_of_mem _ hp, hparent⟩

theorem mem_drop_lastIndexOf {x : ℕ} (h : x ∈ l) : x ∈ l.drop (lastIndexOf l x) := by
  have hlt : l.reverse.idxOf x < l.reverse.length := List.idxOf_lt_length_iff.2 (List.mem_reverse.2 h)
  have hlt' : l.reverse.idxOf x < l.length := by rwa [List.length_reverse] at hlt
  have hget : l.reverse[l.reverse.idxOf x] = x := List.getElem_idxOf hlt
  rw [List.getElem_reverse] at hget
  have hbound : lastIndexOf l x < l.length := by
    unfold lastIndexOf
    omega
  rw [List.drop_eq_getElem_cons hbound]
  exact List.mem_cons.2 (.inl hget.symm)

theorem lastIndexOf_le (l : List ℕ) (last x : ℕ) : lastIndexOf (l ++ [last]) x ≤ l.length := by
  unfold lastIndexOf
  rw [List.length_append, List.length_singleton]
  omega

theorem drop_closed {parent : ℕ} (hchain : (l ++ [last]).IsChain (Under parentOf))
    (hparent : parentOf last = some parent) (hin : parent ∈ l ++ [last]) :
    last ∈ (l ++ [last]).drop (lastIndexOf (l ++ [last]) parent) ∧
      ∀ t ∈ (l ++ [last]).drop (lastIndexOf (l ++ [last]) parent), ∀ p, parentOf t = some p →
        p ∈ (l ++ [last]).drop (lastIndexOf (l ++ [last]) parent) := by
  have hmem := mem_drop_lastIndexOf hin
  have hchain' := hchain.drop (lastIndexOf (l ++ [last]) parent)
  rw [List.drop_append_of_le_length (lastIndexOf_le l last parent)] at hmem hchain' ⊢
  refine ⟨List.mem_append_cons_self, ?_⟩
  intro t ht p hp
  rcases List.mem_append.1 ht with ht | ht
  · obtain ⟨q, hq, hparent'⟩ := chain_parent hchain' t ht
    rwa [← Option.some.inj (hparent'.symm.trans hp)]
  · rw [List.mem_singleton] at ht
    subst ht
    rwa [← Option.some.inj (hparent.symm.trans hp)]

def pending (tools : List ℕ) (d : Search) : ℕ := (tools.toFinset.filter (fun t => d.state t = .unvisited)).card

theorem pending_lt {d' : Search} (hin : tool ∈ tools) (hnew : d.state tool = .unvisited)
    (hdone : d'.state tool ≠ .unvisited) (hkeep : ∀ t, d'.state t = .unvisited → d.state t = .unvisited) :
    pending tools d' < pending tools d := by
  unfold pending
  apply Finset.card_lt_card
  rw [Finset.ssubset_iff_of_subset]
  · refine ⟨tool, Finset.mem_filter.2 ⟨List.mem_toFinset.2 hin, hnew⟩, ?_⟩
    exact fun hmem => hdone (Finset.mem_filter.1 hmem).2
  · intro t ht
    obtain ⟨ht, hstate⟩ := Finset.mem_filter.1 ht
    exact Finset.mem_filter.2 ⟨ht, hkeep t hstate⟩

structure Visited (parentOf : ℕ → Option ℕ) (tool : ℕ) (d d' : Search) : Prop where
  marked : Marked parentOf d'
  stack : d'.stack = d.stack
  behind : d.state tool = .unvisited → d'.state tool = .left
  kept : ∀ t, d.state t ≠ .unvisited → d'.state t = d.state t

def Search.enter (d : Search) (tool : ℕ) : Search := { d.mark tool .entered with stack := d.stack ++ [tool] }

def Search.leave (d : Search) (tool : ℕ) : Search := { d.mark tool .left with stack := d.stack.dropLast }

def follow (parentOf : ℕ → Option ℕ) (fuel tool : ℕ) (d : Search) : Option Search :=
  match parentOf tool with
  | none => some d
  | some parent => match d.state parent with
    | .unvisited => visit parentOf fuel parent d
    | .entered => some { d with cyclic := d.cyclic ++ d.stack.drop (lastIndexOf d.stack parent) }
    | .left => some d

theorem visit_unvisited (h : d.state tool = .unvisited) :
    visit parentOf (fuel + 1) tool d = (follow parentOf fuel tool (d.enter tool)).map (fun d => d.leave tool) := by
  unfold visit follow
  rw [if_neg (not_not.2 h)]
  rfl

theorem Marked.enter (h : Marked parentOf d) (tool : ℕ) : Marked parentOf (d.enter tool) where
  entered := by
    intro t ht
    by_cases heq : t = tool
    · exact List.mem_append_right _ (List.mem_singleton.2 heq)
    · have hbefore : d.state t = .entered := (if_neg heq).symm.trans ht
      exact List.mem_append_left _ (h.entered t hbefore)
  closed := h.closed
  complete := by
    intro t ht
    have hne : t ≠ tool := by
      rintro rfl
      have hentered : (d.enter t).state t = .entered := if_pos rfl
      rw [hentered] at ht
      cases ht
    exact h.complete t ((if_neg hne).symm.trans ht)

/-- **Leaving a tool**: it suffices that the tool is cyclic where it is above itself. -/
theorem Marked.leave {stack : List ℕ} (h : Marked parentOf d) (hstack : d.stack = stack ++ [tool])
    (hcycle : Relation.TransGen (Under parentOf) tool tool → tool ∈ d.cyclic) : Marked parentOf (d.leave tool) where
  entered := by
    intro t ht
    have hne : t ≠ tool := by
      rintro rfl
      have hleft : (d.leave t).state t = .left := if_pos rfl
      rw [hleft] at ht
      cases ht
    have hbefore : d.state t = .entered := (if_neg hne).symm.trans ht
    have hin := h.entered t hbefore
    rw [hstack, List.mem_append, List.mem_singleton] at hin
    have hpop : (d.leave tool).stack = stack := by
      change d.stack.dropLast = stack
      rw [hstack, List.dropLast_concat]
    rw [hpop]
    exact hin.resolve_right hne
  closed := h.closed
  complete := by
    intro t ht hup
    by_cases heq : t = tool
    · rw [heq] at hup ⊢
      exact hcycle hup
    · exact h.complete t ((if_neg heq).symm.trans ht) hup

/-- **One visit**, with fuel for the tools that are yet to be visited. -/
theorem visit_spec (htools : ∀ t ∈ tools, ∀ p, parentOf t = some p → p ∈ tools) :
    ∀ {tool : ℕ} {d : Search}, Marked parentOf d → tool ∈ tools → pending tools d < fuel →
      (d.stack ++ [tool]).IsChain (Under parentOf) → ∃ d', visit parentOf fuel tool d = some d' ∧ Visited parentOf tool d d' := by
  induction fuel with
  | zero =>
    intro tool d _ _ hfuel
    exact absurd hfuel (Nat.not_lt_zero _)
  | succ fuel ih =>
    intro tool d hmarked hin hfuel hchain
    by_cases hnew : d.state tool = .unvisited
    · rw [visit_unvisited hnew]
      have hentered : (d.enter tool).state tool = .entered := if_pos rfl
      have hkept : ∀ t, d.state t ≠ .unvisited → (d.enter tool).state t = d.state t := by
        intro t ht
        refine if_neg ?_
        rintro rfl
        exact ht hnew
      -- Whatever follows the parent, the tool is left at the end.
      have hleave : ∀ d2 : Search, Marked parentOf d2 → d2.stack = d.stack ++ [tool] →
          (Relation.TransGen (Under parentOf) tool tool → tool ∈ d2.cyclic) →
          (∀ t, d.state t ≠ .unvisited → d2.state t = d.state t) →
          follow parentOf fuel tool (d.enter tool) = some d2 →
          ∃ d', (follow parentOf fuel tool (d.enter tool)).map (fun d => d.leave tool) = some d' ∧ Visited parentOf tool d d' := by
        intro d2 hd2 hstack hcycle hkeep hfollow
        rw [hfollow]
        refine ⟨d2.leave tool, rfl, hd2.leave hstack hcycle, ?_, fun _ => if_pos rfl, ?_⟩
        · change d2.stack.dropLast = d.stack
          rw [hstack, List.dropLast_concat]
        · intro t ht
          have hne : t ≠ tool := by
            rintro rfl
            exact ht hnew
          exact (if_neg hne).trans (hkeep t ht)
      cases hparent : parentOf tool with
      | none =>
        refine hleave (d.enter tool) (hmarked.enter tool) rfl ?_ hkept (by unfold follow; rw [hparent])
        intro hcycle
        obtain ⟨b, hb, -⟩ := Relation.TransGen.head'_iff.1 hcycle
        rw [Under, hparent] at hb
        cases hb
      | some parent =>
        cases hstate : (d.enter tool).state parent with
        | unvisited =>
          have hless : pending tools (d.enter tool) < pending tools d := by
            refine pending_lt hin hnew (by rw [hentered]; decide) (fun t ht => ?_)
            by_cases heq : t = tool
            · rw [heq]
              exact hnew
            · exact (if_neg heq).symm.trans ht
          have hchain' : ((d.enter tool).stack ++ [parent]).IsChain (Under parentOf) := by
            refine hchain.append (List.isChain_singleton parent) ?_
            intro x hx y hy
            have hlast : tool = x := by
              change x ∈ (d.stack ++ [tool]).getLast? at hx
              rw [List.getLast?_append_of_ne_nil _ (List.cons_ne_nil _ _)] at hx
              exact Option.some.inj hx
            obtain rfl : parent = y := Option.some.inj hy
            rw [← hlast]
            exact hparent
          obtain ⟨d2, hvisit, hd2⟩ := ih (hmarked.enter tool) (htools tool hin parent hparent) (by omega) hchain'
          refine hleave d2 hd2.marked hd2.stack ?_ ?_ (by unfold follow; simp only [hparent, hstate, hvisit])
          · intro hcycle
            obtain ⟨hup, hback⟩ := cycle_parent hcycle hparent
            exact hd2.marked.above (hd2.marked.complete parent (hd2.behind hstate) hup) hback
          · intro t ht
            have hsame := hkept t ht
            exact (hd2.kept t (by rw [hsame]; exact ht)).trans hsame
        | entered =>
          have hinstack : parent ∈ d.stack ++ [tool] := (hmarked.enter tool).entered parent hstate
          obtain ⟨hlast, hclosed⟩ := drop_closed hchain hparent hinstack
          refine hleave { d.enter tool with cyclic := d.cyclic ++ (d.stack ++ [tool]).drop (lastIndexOf (d.stack ++ [tool]) parent) }
            ⟨(hmarked.enter tool).entered, ?_, ?_⟩ rfl (fun _ => List.mem_append_right _ hlast) hkept
            (by unfold follow; simp only [hparent, hstate]; rfl)
          · intro t ht p hp
            rcases List.mem_append.1 ht with ht | ht
            · exact List.mem_append_left _ (hmarked.closed t ht p hp)
            · exact List.mem_append_right _ (hclosed t ht p hp)
          · exact fun t ht hup => List.mem_append_left _ ((hmarked.enter tool).complete t ht hup)
        | left =>
          refine hleave (d.enter tool) (hmarked.enter tool) rfl ?_ hkept (by unfold follow; simp only [hparent, hstate])
          intro hcycle
          obtain ⟨hup, hback⟩ := cycle_parent hcycle hparent
          exact (hmarked.enter tool).above ((hmarked.enter tool).complete parent hstate hup) hback
    · refine ⟨d, ?_, hmarked, rfl, fun h => absurd h hnew, fun _ _ => rfl⟩
      unfold visit
      exact if_pos hnew

/-- **The search ends**, and every tool that is above itself is cyclic then. -/
theorem visitAll_spec (htools : ∀ t ∈ tools, ∀ p, parentOf t = some p → p ∈ tools)
    (hfuel : tools.length < fuel) : ∀ {l : List ℕ} {d : Search}, (∀ t ∈ l, t ∈ tools) → Marked parentOf d → d.stack = [] →
      ∃ d', visitAll parentOf fuel l d = some d' ∧ Marked parentOf d' ∧ (∀ t, d.state t ≠ .unvisited → d'.state t = d.state t) ∧
        ∀ t ∈ l, d'.state t = .left := by
  intro l
  induction l with
  | nil => exact fun _ hmarked _ => ⟨_, rfl, hmarked, fun _ _ => rfl, List.forall_mem_nil _⟩
  | cons tool l ih =>
    intro d hl hmarked hstack
    have hbound : pending tools d < fuel :=
      lt_of_le_of_lt ((Finset.card_le_card (Finset.filter_subset _ _)).trans (List.toFinset_card_le tools)) hfuel
    have hchain : (d.stack ++ [tool]).IsChain (Under parentOf) := by
      rw [hstack]
      exact List.isChain_singleton tool
    obtain ⟨d1, hvisit, hd1⟩ := visit_spec htools hmarked (hl tool List.mem_cons_self) hbound hchain
    obtain ⟨d2, hrest, hmarked2, hkept, hleft⟩ := ih (fun t ht => hl t (List.mem_cons_of_mem tool ht)) hd1.marked (hd1.stack.trans hstack)
    have hbehind : d1.state tool = .left := by
      cases hstate : d.state tool with
      | unvisited => exact hd1.behind hstate
      | entered =>
        have hin := hmarked.entered tool hstate
        rw [hstack] at hin
        cases hin
      | left => exact (hd1.kept tool (by rw [hstate]; decide)).trans hstate
    refine ⟨d2, ?_, hmarked2, ?_, ?_⟩
    · unfold visitAll
      rw [hvisit]
      exact hrest
    · intro t ht
      have hsame := hd1.kept t ht
      exact (hkept t (by rw [hsame]; exact ht)).trans hsame
    · intro t ht
      rcases List.mem_cons.1 ht with rfl | ht
      · exact (hkept t (by rw [hbehind]; decide)).trans hbehind
      · exact hleft t ht

end Wollipog.Timeline

import Wollipog.Registry.Projector
/-!
# Listing — pages and parent links of the registry

A page goes on behind the last child of the one before it, and the children of a log stand at different events. A
child on a cycle of parent links loses its parent.
-/
namespace Wollipog.Registry

open Json (Text CodeUnit)
open Reviews (lit)
open Relation (ReflTransGen TransGen)
open Follow (Link)

def Reports (nodes : List Entry) (a b : Text) : Prop := ∃ n ∈ nodes, n.toolCallId = a ∧ n.parentToolUseId = some b

section Links

variable {nodes : List Entry} {a b : Text}

theorem find_node (hnodup : (nodes.map Entry.toolCallId).Nodup) {n : Entry} (hn : n ∈ nodes) :
    nodes.find? (fun m => m.toolCallId == n.toolCallId) = some n := by
  cases hfind : nodes.find? (fun m => m.toolCallId == n.toolCallId) with
  | none => exact absurd (beq_self_eq_true n.toolCallId) (List.find?_eq_none.1 hfind n hn)
  | some m =>
    have hid : m.toolCallId = n.toolCallId := by simpa using List.find?_some hfind
    exact congrArg some (List.inj_on_of_nodup_map hnodup (List.mem_of_find?_eq_some hfind) hn hid)

theorem link_iff : Link (parentOf nodes) a b ↔ ∃ n, nodes.find? (fun m => m.toolCallId == a) = some n ∧ n.parentToolUseId = some b ∧
    b ≠ [] ∧ b ∈ nodes.map Entry.toolCallId := by
  unfold Link parentOf
  rw [Option.filter_eq_some_iff, Option.bind_eq_some_iff]
  simp only [Bool.and_eq_true, Bool.not_eq_true', List.isEmpty_eq_false_iff, List.any_eq_true, beq_iff_eq, List.mem_map]
  constructor
  · rintro ⟨⟨n, hn, hparent⟩, hne, hmem⟩
    exact ⟨n, hn, hparent, hne, hmem⟩
  · rintro ⟨n, hn, hparent, hne, hmem⟩
    exact ⟨⟨n, hn, hparent⟩, hne, hmem⟩

/-- **A member of a cycle is found on it.** -/
theorem mem_cyclic (hcycle : TransGen (Link (parentOf nodes)) a a) : a ∈ cyclic nodes := by
  obtain ⟨x, -, hlink⟩ := TransGen.tail'_iff.1 hcycle
  obtain ⟨-, -, -, hne, hmem⟩ := link_iff.1 hlink
  obtain ⟨n, hn, rfl⟩ := List.mem_map.1 hmem
  have hends : (Follow.walk (parentOf nodes) (nodes.length + 1) [] n.toolCallId).isSome = true := by
    refine Follow.walk_isSome (fun _ _ h => (link_iff.1 h).choose_spec.2.2.2) _ List.nodup_nil (List.forall_mem_nil _)
      hmem ?_
    rw [List.length_map, List.length_nil, Nat.zero_add]
    exact Nat.lt_succ_self _
  obtain ⟨found, hfound⟩ := Option.isSome_iff_exists.1 hends
  have hself := Follow.mem_walk hcycle _ (fun pre x post hsplit => by cases pre <;> cases hsplit) .refl hfound
  unfold cyclic
  rw [List.mem_flatMap]
  refine ⟨n, List.mem_filter.2 ⟨hn, by simpa using hne⟩, ?_⟩
  rw [hfound]
  exact hself

theorem reports_acyclic (h : Reports (acyclic nodes) a b) : a ∉ cyclic nodes ∧ Reports nodes a b := by
  obtain ⟨n, hn, rfl, hparent⟩ := h
  obtain ⟨m, hm, rfl⟩ := List.mem_map.1 hn
  by_cases hcyclic : m.toolCallId ∈ cyclic nodes
  · rw [if_pos hcyclic] at hparent
    cases hparent
  · rw [if_neg hcyclic] at hparent ⊢
    exact ⟨hcyclic, m, hm, rfl, hparent⟩

theorem link_of_cycle (hnodup : (nodes.map Entry.toolCallId).Nodup) (hparents : ∀ n ∈ nodes, n.parentToolUseId ≠ some [])
    (h : TransGen (Reports nodes) a b) (hb : b ∈ nodes.map Entry.toolCallId) : TransGen (Link (parentOf nodes)) a b := by
  have hlink : ∀ {x y : Text}, Reports nodes x y → y ∈ nodes.map Entry.toolCallId → Link (parentOf nodes) x y := by
    rintro x y ⟨n, hn, rfl, hparent⟩ hy
    refine link_iff.2 ⟨n, find_node hnodup hn, hparent, fun hy' => ?_, hy⟩
    rw [hy'] at hparent
    exact hparents n hn hparent
  induction h using TransGen.head_induction_on with
  | single hstep => exact .single (hlink hstep hb)
  | head hstep hrest ih =>
    obtain ⟨y, ⟨n, hn, rfl, -⟩, -⟩ := TransGen.head'_iff.1 hrest
    exact .head (hlink hstep (List.mem_map_of_mem hn)) ih

/-- **The reported parent links are acyclic.** -/
theorem acyclic_reports (hnodup : (nodes.map Entry.toolCallId).Nodup) (hparents : ∀ n ∈ nodes, n.parentToolUseId ≠ some []) (id : Text) :
    ¬TransGen (Reports (acyclic nodes)) id id := by
  intro hcycle
  obtain ⟨y, hfirst, -⟩ := TransGen.head'_iff.1 hcycle
  obtain ⟨hfree, n, hn, hid, -⟩ := reports_acyclic hfirst
  have hclaimed : TransGen (Reports nodes) id id := TransGen.mono (fun x y (h : Reports (acyclic nodes) x y) => (reports_acyclic h).2) id id hcycle
  exact hfree (mem_cyclic (link_of_cycle hnodup hparents hclaimed (hid ▸ List.mem_map_of_mem hn)))

end Links

section Children

variable {toLowerCase : Text → Text} {s : Projector}

theorem acyclic_ids (nodes : List Entry) : (acyclic nodes).map Entry.toolCallId = nodes.map Entry.toolCallId := by
  unfold acyclic
  rw [List.map_map]
  apply List.map_congr_left
  intro n _
  rw [Function.comp_apply]
  split <;> rfl

theorem acyclic_seqs (nodes : List Entry) : (acyclic nodes).map Entry.sourceSeq = nodes.map Entry.sourceSeq := by
  unfold acyclic
  rw [List.map_map]
  apply List.map_congr_left
  intro n _
  rw [Function.comp_apply]
  split <;> rfl

theorem mem_claimed {n : Entry} : n ∈ s.claimed toLowerCase ↔ ∃ e ∈ s.spawns.entries, ∃ o, collapseAgentSpawnObservations e.2 = some o ∧
    s.entry toLowerCase e.1 o.1 o.2 = n := by
  unfold Projector.claimed
  rw [List.mem_filterMap]
  constructor
  · rintro ⟨e, he, h⟩
    obtain ⟨o, ho, hn⟩ := Option.map_eq_some_iff.1 h
    exact ⟨e, he, o, ho, hn⟩
  · rintro ⟨e, he, o, ho, hn⟩
    exact ⟨e, he, Option.map_eq_some_iff.2 ⟨o, ho, hn⟩⟩

theorem filterMap_ids : ∀ (entries : List (Text × List ToolCall)),
    ((entries.filterMap (fun e => (collapseAgentSpawnObservations e.2).map (fun o => s.entry toLowerCase e.1 o.1 o.2))).map
      Entry.toolCallId).Sublist (entries.map Prod.fst)
  | [] => .slnil
  | e :: entries => by
    rw [List.filterMap_cons, List.map_cons]
    cases h : collapseAgentSpawnObservations e.2 with
    | none => exact (filterMap_ids entries).cons _
    | some o => exact (filterMap_ids entries).cons_cons _

theorem claimed_nodup : ((s.claimed toLowerCase).map Entry.toolCallId).Nodup := s.spawns.nodup.sublist (filterMap_ids _)

theorem claimed_parents : ∀ n ∈ s.claimed toLowerCase, n.parentToolUseId ≠ some [] := by
  intro n hn hparent
  obtain ⟨e, -, o, -, rfl⟩ := mem_claimed.1 hn
  have htruthy := (Option.filter_eq_some_iff.1 hparent).2
  cases htruthy

def Observed (log : List Event) (s : Projector) : Prop :=
  ∀ e ∈ s.spawns.entries, ∀ o ∈ e.2, ∃ event ∈ log, event.seq = o.seq ∧ ∃ call, event.payload = .toolCall call ∧ call.toolCallId = e.1

variable {log : List Event}

theorem Observed.congr {s' : Projector} (h : Observed log s) (hspawns : s'.spawns = s.spawns) : Observed log s' := by
  unfold Observed
  rw [hspawns]
  exact h

theorem Observed.observe (h : Observed log s) {event : Event} (hevent : event ∈ log) {call : ToolCallPayload}
    (hcall : event.payload = .toolCall call) : Observed log (s.observe (observed call event)) := by
  intro e he o ho
  have hget : (s.observe (observed call event)).spawns.get e.1 = some e.2 := OrdMap.get_of_mem he
  unfold Projector.observe at hget
  dsimp only at hget
  rw [OrdMap.get_set] at hget
  split at hget
  · rename_i hid
    have hold : ∀ o ∈ (s.spawns.get call.toolCallId).getD [], ∃ event ∈ log, event.seq = o.seq ∧
        ∃ call, event.payload = .toolCall call ∧ call.toolCallId = e.1 := by
      intro o ho
      rcases Option.eq_none_or_eq_some (s.spawns.get call.toolCallId) with hkey | ⟨observations, hkey⟩
      · rw [hkey] at ho
        exact absurd ho List.not_mem_nil
      · rw [hkey] at ho
        obtain ⟨event', hevent', hseq, hcall'⟩ := h _ (OrdMap.mem_of_get hkey) o ho
        exact ⟨event', hevent', hseq, hid ▸ hcall'⟩
    rw [← Option.some.inj hget] at ho
    split at ho
    · rcases List.mem_append.1 ho with ho | ho
      · exact hold o ho
      · rw [List.mem_singleton.1 ho]
        exact ⟨event, hevent, rfl, call, hcall, hid.symm⟩
    · exact hold o ho
  · exact h e (OrdMap.mem_of_get hget) o ho

theorem Observed.take (h : Observed log s) {event : Event} (hevent : event ∈ log) (c : Text → Bool) :
    Observed log (s.take toLowerCase c event) := by
  rcases take_spawns toLowerCase c s event with hsame | ⟨call, hcall, -, hspawns⟩
  · exact h.congr hsame
  · exact (h.observe hevent hcall).congr hspawns

theorem Observed.appendWith (c : Text → Bool) : ∀ (events : List Event) {s : Projector}, Observed log s →
    (∀ e ∈ events, e ∈ log) → Observed log (s.appendWith toLowerCase c events)
  | [], _, h, _ => h
  | e :: events, s, h, hlog => by
    rw [Projector.appendWith, List.foldl_cons]
    exact Observed.appendWith c events (h.take (hlog e List.mem_cons_self) c) (fun e' he' => hlog e' (List.mem_cons_of_mem _ he'))

theorem Observed.batches : ∀ (batches : List (List Event)) {s : Projector}, Observed log s →
    (∀ e ∈ batches.flatten, e ∈ log) → Observed log (batches.foldl (Projector.append toLowerCase) s)
  | [], _, h, _ => h
  | batch :: batches, s, h, hlog => by
    rw [List.flatten_cons] at hlog
    rw [List.foldl_cons]
    exact Observed.batches batches (h.appendWith _ batch (fun e he => hlog e (List.mem_append_left _ he)))
      (fun e he => hlog e (List.mem_append_right _ he))

theorem observed_registry (batches : List (List Event)) : Observed batches.flatten (registry toLowerCase batches) :=
  Observed.batches batches (List.forall_mem_nil _) (fun _ he => he)

theorem collapse_mem {observations : List ToolCall} {o : ToolCall × ToolCall}
    (h : collapseAgentSpawnObservations observations = some o) : o.1 ∈ observations := by
  unfold collapseAgentSpawnObservations at h
  split at h
  · rename_i first latest hfirst _
    split at h
    · cases h
    · rw [← Option.some.inj h]
      exact List.mem_of_mem_head? hfirst
  · cases h

/-- **The children stand at different events.** -/
theorem claimed_seqs (hlog : (log.map Event.seq).Nodup) (h : Observed log s) :
    ((s.claimed toLowerCase).map Entry.sourceSeq).Nodup := by
  refine List.Nodup.map_on (fun n hn m hm hseq => ?_) (List.Nodup.of_map _ claimed_nodup)
  obtain ⟨e, he, o, ho, hentry⟩ := mem_claimed.1 hn
  obtain ⟨e', he', o', ho', hentry'⟩ := mem_claimed.1 hm
  obtain ⟨event, hevent, heq, call, hcall, hid⟩ := h e he o.1 (collapse_mem ho)
  obtain ⟨event', hevent', heq', call', hcall', hid'⟩ := h e' he' o'.1 (collapse_mem ho')
  have hn' : n.sourceSeq = o.1.seq := hentry ▸ rfl
  have hm' : m.sourceSeq = o'.1.seq := hentry' ▸ rfl
  have hevents : event = event' := List.inj_on_of_nodup_map hlog hevent hevent' (by rw [heq, heq', ← hn', ← hm', hseq])
  obtain rfl : call = call' := Payload.toolCall.inj (hcall.symm.trans (hevents ▸ hcall'))
  have hkeys : n.toolCallId = m.toolCallId := by
    rw [← hentry, ← hentry']
    exact hid.symm.trans hid'
  exact List.inj_on_of_nodup_map claimed_nodup hn hm hkeys

end Children

/-! ## Pages -/

def Rises (l : List Entry) : Prop := l.Pairwise (fun a b => a.sourceSeq < b.sourceSeq)

section Pages

variable {toLowerCase : Text → Text} {localeCompare : Text → Text → Ordering}

abbrev Before (localeCompare : Text → Text → Ordering) (a b : Entry) : Prop :=
  a.sourceSeq < b.sourceSeq ∨ (a.sourceSeq = b.sourceSeq ∧ (localeCompare a.toolCallId b.toolCallId).isLE = true)

theorem rises_insert {a : Entry} : ∀ {l : List Entry}, Rises l → a.sourceSeq ∉ l.map Entry.sourceSeq →
    Rises (l.orderedInsert (Before localeCompare) a)
  | [], _, _ => List.pairwise_singleton _ _
  | b :: l, h, hnew => by
    rw [List.map_cons, List.mem_cons, not_or] at hnew
    obtain ⟨hhead, htail⟩ := List.pairwise_cons.1 h
    rw [List.orderedInsert_cons]
    by_cases hbefore : Before localeCompare a b
    · rw [if_pos hbefore]
      have hlt : a.sourceSeq < b.sourceSeq := hbefore.resolve_right (fun heq => hnew.1 heq.1)
      refine List.pairwise_cons.2 ⟨fun m hm => ?_, h⟩
      rcases List.mem_cons.1 hm with rfl | hm
      · exact hlt
      · exact hlt.trans (hhead m hm)
    · rw [if_neg hbefore]
      have hlt : b.sourceSeq < a.sourceSeq := (lt_or_gt_of_ne hnew.1).resolve_left (fun h => hbefore (.inl h))
      refine List.pairwise_cons.2 ⟨fun m hm => ?_, rises_insert htail hnew.2⟩
      rcases List.mem_cons.1 ((List.perm_orderedInsert _ a l).mem_iff.1 hm) with rfl | hm
      · exact hlt
      · exact hhead m hm

theorem ordered_perm (nodes : List Entry) : (ordered localeCompare nodes).Perm nodes := List.perm_insertionSort _ _

/-- **The listing rises** where the children stand at different events. -/
theorem ordered_rises : ∀ {nodes : List Entry}, (nodes.map Entry.sourceSeq).Nodup → Rises (ordered localeCompare nodes)
  | [], _ => List.Pairwise.nil
  | n :: nodes, h => by
    rw [List.map_cons, List.nodup_cons] at h
    refine rises_insert (ordered_rises h.2) (fun hmem => h.1 ?_)
    exact ((ordered_perm nodes).map Entry.sourceSeq).mem_iff.1 hmem

theorem filter_behind {l : List Entry} (h : Rises l) {k : ℕ} {last : Entry} (hlast : (l.take k).getLast? = some last) :
    l.filter (fun n => decide (last.sourceSeq < n.sourceSeq)) = l.drop k := by
  obtain ⟨front, hfront⟩ := List.getLast?_eq_some_iff.1 hlast
  have hsplit : l = (front ++ [last]) ++ l.drop k := by rw [← hfront, List.take_append_drop]
  have hrises : Rises ((front ++ [last]) ++ l.drop k) := hsplit ▸ h
  obtain ⟨hfirst, -, hacross⟩ := List.pairwise_append.1 hrises
  obtain ⟨-, -, hbefore⟩ := List.pairwise_append.1 hfirst
  have hnone : (front ++ [last]).filter (fun n => decide (last.sourceSeq < n.sourceSeq)) = [] := by
    rw [List.filter_eq_nil_iff]
    intro n hn hlt
    have hlt' := of_decide_eq_true hlt
    rcases List.mem_append.1 hn with hn | hn
    · exact absurd (hbefore n hn last (List.mem_singleton_self _)) (lt_asymm hlt')
    · rw [List.mem_singleton.1 hn] at hlt'
      exact lt_irrefl _ hlt'
  have hall : (l.drop k).filter (fun n => decide (last.sourceSeq < n.sourceSeq)) = l.drop k :=
    List.filter_eq_self.2 (fun n hn => decide_eq_true (hacross last (List.mem_append_right _ (List.mem_singleton_self _)) n hn))
  conv_lhs => rw [hsplit]
  rw [List.filter_append, hnone, hall, List.nil_append]

def pages (page : ℤ → ChildSessionRegistryPage) : ℕ → ℤ → List ChildSessionRegistryPage
  | 0, _ => []
  | n + 1, after => page after :: (page after).nextAfter.elim [] (pages page n)

def eligible (localeCompare : Text → Text → Ordering) (nodes : List Entry) (after : ℤ) : List Entry :=
  (ordered localeCompare nodes).filter (fun child => decide (after < child.sourceSeq))

/-- **The pages list what stands behind the position, in order.** -/
theorem pages_children (s : Projector) (pending : List Request) (eventEpoch : ℕ) {limit : ℕ} (hlimit : 1 ≤ limit)
    (hrises : Rises (ordered localeCompare (s.children toLowerCase))) : ∀ (n : ℕ) (after : ℤ),
    (eligible localeCompare (s.children toLowerCase) after).length < n →
      (pages (fun after => s.page toLowerCase localeCompare pending eventEpoch after limit) n after).flatMap
        ChildSessionRegistryPage.children = eligible localeCompare (s.children toLowerCase) after
  | 0, _, h => absurd h (Nat.not_lt_zero _)
  | n + 1, after, h => by
    generalize hl : eligible localeCompare (s.children toLowerCase) after = l at h ⊢
    have hchildren : (s.page toLowerCase localeCompare pending eventEpoch after limit).children = l.take limit := hl ▸ rfl
    have hnext : (s.page toLowerCase localeCompare pending eventEpoch after limit).nextAfter =
        if (l.take limit).length < l.length then some (((l.take limit).getLast?.map Entry.sourceSeq).getD after) else none := hl ▸ rfl
    rw [pages, List.flatMap_cons, hchildren, hnext]
    by_cases hmore : (l.take limit).length < l.length
    · rw [if_pos hmore, Option.elim_some]
      have hlen : (l.take limit).length = limit := by
        rw [List.length_take] at hmore ⊢
        omega
      obtain ⟨last, hlast⟩ : ∃ last, (l.take limit).getLast? = some last := by
        rw [← Option.isSome_iff_exists, List.getLast?_isSome]
        exact List.ne_nil_of_length_pos (by omega)
      have hrest : eligible localeCompare (s.children toLowerCase) last.sourceSeq = l.drop limit := by
        have hl' : Rises l := hl ▸ hrises.filter _
        have hmem : last ∈ l := List.mem_of_mem_take (List.mem_of_getLast? hlast)
        have hafter : after < last.sourceSeq := by
          rw [← hl] at hmem
          exact of_decide_eq_true (List.mem_filter.1 hmem).2
        rw [← filter_behind hl' hlast, ← hl, eligible, eligible, List.filter_filter]
        apply List.filter_congr
        intro m _
        rw [Bool.eq_iff_iff, Bool.and_eq_true, decide_eq_true_eq, decide_eq_true_eq]
        exact ⟨fun hlt => ⟨hlt, hafter.trans hlt⟩, fun hboth => hboth.1⟩
      rw [hlast, Option.map_some, Option.getD_some, pages_children s pending eventEpoch hlimit hrises n last.sourceSeq, hrest,
        List.take_append_drop]
      rw [hrest, List.length_drop]
      omega
    · rw [if_neg hmore]
      simp only [Option.elim_none, List.flatMap_nil, List.append_nil]
      refine List.take_of_length_le ?_
      rw [List.length_take] at hmore
      omega

theorem existsUnique_index {α : Type} {x : α} : ∀ {l : List (List α)}, l.flatten.Nodup → x ∈ l.flatten →
    ∃! k : ℕ, ∃ p, l[k]? = some p ∧ x ∈ p
  | [], _, h => absurd h List.not_mem_nil
  | p :: l, hnodup, h => by
    rw [List.flatten_cons, List.nodup_append] at hnodup
    rw [List.flatten_cons, List.mem_append] at h
    rcases h with h | h
    · refine ⟨0, ⟨p, rfl, h⟩, ?_⟩
      rintro (_ | k) ⟨q, hq, hx⟩
      · rfl
      · rw [List.getElem?_cons_succ] at hq
        exact absurd rfl (hnodup.2.2 x h x (List.mem_flatten.2 ⟨q, List.mem_of_getElem? hq, hx⟩))
    · obtain ⟨k, ⟨q, hq, hx⟩, huniq⟩ := existsUnique_index hnodup.2.1 h
      refine ⟨k + 1, ⟨q, hq, hx⟩, ?_⟩
      rintro (_ | j) ⟨r, hr, hxr⟩
      · rw [List.getElem?_cons_zero] at hr
        cases hr
        exact absurd rfl (hnodup.2.2 x hxr x h)
      · rw [List.getElem?_cons_succ] at hr
        exact congrArg (· + 1) (huniq j ⟨r, hr, hxr⟩)

/-- **Every child stands on exactly one page.** -/
theorem existsUnique_page {s : Projector} (hseqs : ((s.claimed toLowerCase).map Entry.sourceSeq).Nodup) (pending : List Request)
    (eventEpoch : ℕ) {limit : ℕ} (hlimit : 1 ≤ limit) (after : ℤ) {n : ℕ} (hn : (s.children toLowerCase).length < n) {child : Entry}
    (hchild : child ∈ s.children toLowerCase) (hafter : after < child.sourceSeq) :
    ∃! k : ℕ, ∃ ids, ((pages (fun after => s.page toLowerCase localeCompare pending eventEpoch after limit) n after).map
      (fun page => page.children.map Entry.toolCallId))[k]? = some ids ∧ child.toolCallId ∈ ids := by
  have hrises : Rises (ordered localeCompare (s.children toLowerCase)) := by
    refine ordered_rises ?_
    rw [Projector.children, acyclic_seqs]
    exact hseqs
  have hperm : (ordered localeCompare (s.children toLowerCase)).Perm (s.children toLowerCase) := ordered_perm _
  have hlength : (eligible localeCompare (s.children toLowerCase) after).length < n :=
    Nat.lt_of_le_of_lt ((List.length_filter_le _ _).trans hperm.length_eq.le) hn
  have hpages := pages_children s pending eventEpoch hlimit hrises n after hlength
  have hids : ((pages (fun after => s.page toLowerCase localeCompare pending eventEpoch after limit) n after).map
      (fun page => page.children.map Entry.toolCallId)).flatten =
        (eligible localeCompare (s.children toLowerCase) after).map Entry.toolCallId := by
    rw [← hpages, List.map_flatMap, List.flatMap_def]
  apply existsUnique_index
  · rw [hids]
    have hnodup : ((ordered localeCompare (s.children toLowerCase)).map Entry.toolCallId).Nodup := by
      rw [(hperm.map Entry.toolCallId).nodup_iff, Projector.children, acyclic_ids]
      exact claimed_nodup
    exact hnodup.sublist (List.filter_sublist.map _)
  · rw [hids]
    exact List.mem_map_of_mem (List.mem_filter.2 ⟨hperm.mem_iff.2 hchild, decide_eq_true hafter⟩)

end Pages

def spawn (seq : ℤ) (id : Text) : Event := ⟨seq, seq, .toolCall ⟨id, none, some (lit "agent"), lit "running", none, none, none⟩⟩

def read (seq : ℤ) (parent : Text) : Event := ⟨seq, seq, .toolCall ⟨lit "read", some parent, some (lit "read"), lit "running", none, none, none⟩⟩

def spawnThenRead : List (List Event) := [[spawn 1 (lit "child")], [read 2 (lit "child")]]

end Wollipog.Registry

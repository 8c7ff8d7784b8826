import Wollipog.Workflows.Definition
/-!
# Schedulable — validation accepts exactly what a first traversal can start

An ordering schedules a definition when every node stands after what starts it and what it needs. The readiness loop
lists one; where it or a walk before it fails, none exists.
-/
namespace Wollipog.Workflows

open Json (Text Value)
open Relation (TransGen ReflTransGen)
open WorkflowDefinitionSpec (Producer addProducers push)
open Reviews (lit)

def Edge (spec : WorkflowDefinitionSpec) (a b : Text) : Prop := ∃ e ∈ spec.edges, e.source = a ∧ e.target = b

def Started (spec : WorkflowDefinitionSpec) (earlier : List Text) (nodeId : Text) : Prop :=
  (∀ e ∈ spec.edges, e.target ≠ nodeId) ∨ ∃ a ∈ earlier, Edge spec a nodeId

/-- An earlier other node that can reach this one produces the input, with its kind. -/
def Supplied (spec : WorkflowDefinitionSpec) (earlier : List Text) (node : NodeDefinition) (contract : ArtifactContract) : Prop :=
  ∃ producer ∈ spec.nodes, producer.nodeId ∈ earlier ∧ producer.nodeId ≠ node.nodeId ∧
    (∃ output ∈ producer.outputs, output.name = contract.name ∧ output.kind = contract.kind) ∧
      TransGen (Edge spec) producer.nodeId node.nodeId

structure Schedules (spec : WorkflowDefinitionSpec) (order : List Text) : Prop where
  perm : order.Perm spec.nodeIds
  started : ∀ pre nodeId post, order = pre ++ nodeId :: post → Started spec pre nodeId
  supplied : ∀ pre post, ∀ node ∈ spec.nodes, order = pre ++ node.nodeId :: post →
    ∀ contract ∈ node.inputs, contract.required ≠ some false → Supplied spec pre node contract

structure WellFormed (spec : WorkflowDefinitionSpec) : Prop where
  nodes : 1 ≤ spec.nodes.length
  nodeIds : spec.nodeIds.Nodup
  edges : ∀ e ∈ spec.edges, e.source ∈ spec.nodeIds ∧ e.target ∈ spec.nodeIds

theorem validateEdge_ends {nodes : List NodeDefinition} {edgeIds : List Text} {v : Value} {edge : EdgeDefinition}
    (h : validateEdge nodes edgeIds v = some edge) :
    edge.source ∈ nodes.map NodeDefinition.nodeId ∧ edge.target ∈ nodes.map NodeDefinition.nodeId := by
  simp only [validateEdge, Option.bind_eq_bind, Option.bind_eq_some_iff] at h
  obtain ⟨members, -, h⟩ := h
  split at h
  · simp only [Option.bind_eq_some_iff] at h
    obtain ⟨edgeId, -, source, -, target, -, on, -, h⟩ := h
    split at h
    · rename_i hends
      cases h
      rw [Bool.and_eq_true, Bool.and_eq_true] at hends
      exact ⟨List.contains_iff_mem.1 hends.1.2, List.contains_iff_mem.1 hends.2⟩
    · cases h
  · cases h

theorem validateEdges_ends {nodes : List NodeDefinition} : ∀ (vs : List Value) (edgeIds : List Text) {edges : List EdgeDefinition},
    validateEdges nodes edgeIds vs = .ok edges →
      ∀ e ∈ edges, e.source ∈ nodes.map NodeDefinition.nodeId ∧ e.target ∈ nodes.map NodeDefinition.nodeId
  | [], _, edges, h => by
    obtain rfl : [] = edges := Except.ok.inj h
    exact List.forall_mem_nil _
  | v :: vs, edgeIds, edges, h => by
    rw [validateEdges] at h
    split at h
    · cases h
    · rename_i edge hedge
      dsimp only at h
      split at h
      · cases hrest : validateEdges nodes (edge.edgeId :: edgeIds) vs with
        | error refusal =>
          rw [hrest] at h
          cases h
        | ok rest =>
          rw [hrest] at h
          obtain rfl : edge :: rest = edges := Except.ok.inj h
          intro e he
          rcases List.mem_cons.1 he with rfl | he
          · exact validateEdge_ends hedge
          · exact validateEdges_ends vs _ hrest e he
      · cases h

variable {α β : Type} {input : Value} {refusal : Refusal} {spec : WorkflowDefinitionSpec}

theorem bind_ok {x : Except Refusal α} {f : α → Except Refusal β} {b : β} (h : x >>= f = .ok b) :
    ∃ a, x = .ok a ∧ f a = .ok b := by
  cases x with
  | error refusal => cases h
  | ok a => exact ⟨a, rfl, h⟩

theorem elim_ok {x : Option α} {a : α} (h : x.elim (.error refusal) Except.ok = .ok a) : x = some a := by
  cases x with
  | none => cases h
  | some b => exact congrArg some (Except.ok.inj h)

theorem mapM_length {α β : Type} {f : α → Option β} : ∀ (l : List α) {r : List β}, l.mapM f = some r → r.length = l.length
  | [], r, h => by
    obtain rfl : [] = r := Option.some.inj h
    rfl
  | a :: l, r, h => by
    simp only [List.mapM_cons, Option.bind_eq_bind, Option.bind_eq_some_iff] at h
    obtain ⟨b, -, rest, hrest, hr⟩ := h
    obtain rfl : b :: rest = r := Option.some.inj hr
    rw [List.length_cons, List.length_cons, mapM_length l hrest]

/-- **What is read is well formed.** -/
theorem readWorkflowDefinition_wellFormed (h : readWorkflowDefinition input = .ok spec) : WellFormed spec := by
  unfold readWorkflowDefinition at h
  obtain ⟨members, -, h⟩ := bind_ok h
  obtain ⟨name, -, h⟩ := bind_ok h
  obtain ⟨description, -, h⟩ := bind_ok h
  obtain ⟨maxTransitions, -, h⟩ := bind_ok h
  obtain ⟨nodes, hnodes, h⟩ := bind_ok h
  obtain ⟨edgeValues, -, h⟩ := bind_ok h
  obtain ⟨items, hitems, hread⟩ := Option.bind_eq_some_iff.1 (elim_ok hnodes)
  have hcount : 1 ≤ items.length := by
    have hfilter := (Option.filter_eq_some_iff.1 hitems).2
    rw [Bool.and_eq_true, decide_eq_true_eq] at hfilter
    exact hfilter.1
  split at h
  · rename_i hnodup
    obtain ⟨edges, hedges, h⟩ := bind_ok h
    cases h
    exact ⟨(mapM_length items hread).symm ▸ hcount, hnodup, validateEdges_ends _ _ hedges⟩
  · cases h

/-! ## What `canReach` finds -/

section Search

variable {spec : WorkflowDefinitionSpec} {source target current : Text} {seen queue : List Text}

theorem push_eq (current : Text) (s : List Text × List Text) (edge : EdgeDefinition) : push current s edge =
      if edge.source = current ∧ edge.target ∉ s.1 then (s.1 ++ [edge.target], s.2 ++ [edge.target]) else s := by
  simp [push]

theorem push_fold : ∀ (rest : List EdgeDefinition) (s : List Text × List Text), s.1.Nodup →
    ∃ added, rest.foldl (push current) s = (s.1 ++ added, s.2 ++ added) ∧ (s.1 ++ added).Nodup ∧
      (∀ x ∈ added, ∃ e ∈ rest, e.source = current ∧ e.target = x) ∧
      ∀ e ∈ rest, e.source = current → e.target ∈ s.1 ++ added
  | [], s, hnodup => ⟨[], by simp, by simpa using hnodup, List.forall_mem_nil _, List.forall_mem_nil _⟩
  | e :: rest, s, hnodup => by
    rw [List.foldl_cons]
    by_cases hnew : e.source = current ∧ e.target ∉ s.1
    · have hpush : push current s e = (s.1 ++ [e.target], s.2 ++ [e.target]) := by rw [push_eq, if_pos hnew]
      have hsnoc : (s.1 ++ [e.target]).Nodup := by
        rw [← List.concat_eq_append]
        exact hnodup.concat hnew.2
      rw [hpush]
      obtain ⟨added, hfold, hall, hfrom, hto⟩ := push_fold rest (s.1 ++ [e.target], s.2 ++ [e.target]) hsnoc
      simp only [List.append_assoc, List.singleton_append] at hfold hall hto
      refine ⟨e.target :: added, hfold, hall, fun x hx => ?_, fun e' he' hsource => ?_⟩
      · rcases List.mem_cons.1 hx with rfl | hx
        · exact ⟨e, List.mem_cons_self, hnew.1, rfl⟩
        · obtain ⟨e', he', h⟩ := hfrom x hx
          exact ⟨e', List.mem_cons_of_mem _ he', h⟩
      · rcases List.mem_cons.1 he' with rfl | he'
        · exact List.mem_append_cons_self
        · exact hto e' he' hsource
    · have hpush : push current s e = s := by rw [push_eq, if_neg hnew]
      rw [hpush]
      obtain ⟨added, hfold, hall, hfrom, hto⟩ := push_fold rest s hnodup
      refine ⟨added, hfold, hall, fun x hx => ?_, fun e' he' hsource => ?_⟩
      · obtain ⟨e', he', h⟩ := hfrom x hx
        exact ⟨e', List.mem_cons_of_mem _ he', h⟩
      · rcases List.mem_cons.1 he' with rfl | he'
        · exact List.mem_append_left _ (not_not.1 (fun hout => hnew ⟨hsource, hout⟩))
        · exact hto e' he' hsource

/-- What the search has seen: no seen node outside the queue has an edge to an unseen node. -/
structure Searched (spec : WorkflowDefinitionSpec) (source target : Text) (seen queue : List Text) : Prop where
  source_mem : source ∈ seen
  nodup : seen.Nodup
  reached : ∀ x ∈ seen, ReflTransGen (Edge spec) source x
  queued : ∀ x ∈ queue, x ∈ seen
  done : ∀ x ∈ seen, x ∉ queue → ∀ y, Edge spec x y → y ∈ seen ∧ y ≠ target
  among : ∀ x ∈ seen, x ∈ source :: spec.edges.map EdgeDefinition.target

theorem Searched.start (spec : WorkflowDefinitionSpec) (source target : Text) : Searched spec source target [source] [source] where
  source_mem := List.mem_singleton_self _
  nodup := List.nodup_singleton _
  reached x hx := by
    rw [List.mem_singleton.1 hx]
  queued _ hx := hx
  done x hx hout := absurd hx hout
  among x hx := by
    rw [List.mem_singleton.1 hx]
    exact List.mem_cons_self

/-- **One node searched**: its edges lead to no target, and their ends are queued. -/
theorem Searched.step (h : Searched spec source target seen (current :: queue)) (hmiss : ¬Edge spec current target) :
    ∃ added, spec.edges.foldl (push current) (seen, queue) = (seen ++ added, queue ++ added) ∧
      Searched spec source target (seen ++ added) (queue ++ added) := by
  obtain ⟨added, hfold, hnodup, hfrom, hto⟩ := push_fold spec.edges (seen, queue) h.nodup
  have hcurrent : current ∈ seen := h.queued current List.mem_cons_self
  refine ⟨added, hfold, ⟨List.mem_append_left _ h.source_mem, hnodup, ?_, ?_, ?_, ?_⟩⟩
  · intro x hx
    rcases List.mem_append.1 hx with hx | hx
    · exact h.reached x hx
    · obtain ⟨e, he, hsource, htarget⟩ := hfrom x hx
      exact (h.reached current hcurrent).tail ⟨e, he, hsource, htarget⟩
  · intro x hx
    rcases List.mem_append.1 hx with hx | hx
    · exact List.mem_append_left _ (h.queued x (List.mem_cons_of_mem _ hx))
    · exact List.mem_append_right _ hx
  · intro x hx hout y hedge
    rw [List.mem_append, not_or] at hout
    have hseen : x ∈ seen := (List.mem_append.1 hx).resolve_right hout.2
    by_cases hxc : x = current
    · rw [hxc] at hedge
      obtain ⟨e, he, hsource, htarget⟩ := id hedge
      refine ⟨htarget ▸ hto e he hsource, fun heq => hmiss (heq ▸ hedge)⟩
    · have hold := h.done x hseen (fun hin => (List.mem_cons.1 hin).elim hxc hout.1) y hedge
      exact ⟨List.mem_append_left _ hold.1, hold.2⟩
  · intro x hx
    rcases List.mem_append.1 hx with hx | hx
    · exact h.among x hx
    · obtain ⟨e, he, -, rfl⟩ := hfrom x hx
      exact List.mem_cons_of_mem _ (List.mem_map_of_mem he)

theorem Searched.missed (h : Searched spec source target seen []) : ¬TransGen (Edge spec) source target := by
  have hclosed : ∀ x, ReflTransGen (Edge spec) source x → x ∈ seen := by
    intro x hpath
    induction hpath with
    | refl => exact h.source_mem
    | tail _ hedge ih => exact (h.done _ ih List.not_mem_nil _ hedge).1
  intro hpath
  obtain ⟨y, hpath, hedge⟩ := TransGen.tail'_iff.1 hpath
  exact (h.done y (hclosed y hpath) List.not_mem_nil target hedge).2 rfl

theorem any_edge_iff : spec.edges.any (fun edge => edge.source == current && edge.target == target) = true ↔ Edge spec current target := by
  rw [List.any_eq_true]
  simp only [Bool.and_eq_true, beq_iff_eq]
  rfl

/-- **The search ends**, with what a path says. -/
theorem searchLoop_spec : ∀ (rounds : ℕ) {seen queue : List Text}, Searched spec source target seen queue →
    spec.edges.length + 1 + queue.length < seen.length + rounds →
      ∃ found, spec.searchLoop target rounds seen queue = some found ∧ (found = true ↔ TransGen (Edge spec) source target)
  | 0, seen, queue, h, hrounds => by
    have hle := (h.nodup.subperm h.among).length_le
    rw [List.length_cons, List.length_map] at hle
    omega
  | rounds + 1, seen, [], h, _ => ⟨false, rfl, by simp [h.missed]⟩
  | rounds + 1, seen, current :: queue, h, hrounds => by
    rw [WorkflowDefinitionSpec.searchLoop]
    by_cases hany : spec.edges.any (fun edge => edge.source == current && edge.target == target) = true
    · rw [if_pos hany]
      have hpath := h.reached current (h.queued current List.mem_cons_self)
      exact ⟨true, rfl, fun _ => TransGen.tail' hpath (any_edge_iff.1 hany), fun _ => rfl⟩
    · rw [if_neg hany]
      obtain ⟨added, hfold, hnext⟩ := h.step (fun hedge => hany (any_edge_iff.2 hedge))
      rw [hfold]
      apply searchLoop_spec rounds hnext
      rw [List.length_append, List.length_append]
      rw [List.length_cons] at hrounds
      omega

theorem searchLoop_ends (spec : WorkflowDefinitionSpec) (source target : Text) :
    ∃ found, spec.searchLoop target (spec.edges.length + 2) [source] [source] = some found ∧
      (found = true ↔ TransGen (Edge spec) source target) :=
  searchLoop_spec (spec.edges.length + 2) (.start spec source target) (by simp)

theorem canReach_iff : spec.canReach source target = true ↔ TransGen (Edge spec) source target := by
  obtain ⟨found, hloop, hfound⟩ := searchLoop_ends spec source target
  rw [WorkflowDefinitionSpec.canReach, hloop]
  exact hfound

end Search

theorem addProducers_get : ∀ (rest : List (Text × ArtifactContract)) (m : OrdMap Text (List Producer)) {produced : OrdMap Text (List Producer)},
    addProducers m rest = .ok produced → ∀ name, (produced.get name).getD [] =
      (m.get name).getD [] ++ (rest.filter (fun e => e.2.name == name)).map (fun e => ⟨e.1, e.2.kind⟩)
  | [], m, produced, h, name => by
    obtain rfl : m = produced := Except.ok.inj h
    simp
  | (nodeId, output) :: rest, m, produced, h, name => by
    rw [addProducers] at h
    split at h
    · cases h
    · rw [addProducers_get rest _ h name, OrdMap.get_set]
      by_cases hname : output.name = name
      · simp [hname]
      · simp [hname, Ne.symm hname]

section Ready

variable {spec : WorkflowDefinitionSpec} {produced : OrdMap Text (List Producer)}

variable {contract : ArtifactContract}

theorem mem_producersOf (h : addProducers OrdMap.empty spec.outputs = .ok produced) {producer : Producer} :
    producer ∈ producersOf produced contract ↔
      ∃ node ∈ spec.nodes, ∃ output ∈ node.outputs, output.name = contract.name ∧ producer = ⟨node.nodeId, output.kind⟩ := by
  have hget : producersOf produced contract =
      (spec.outputs.filter (fun e => e.2.name == contract.name)).map (fun e => ⟨e.1, e.2.kind⟩) :=
    addProducers_get spec.outputs OrdMap.empty h contract.name
  rw [hget, List.mem_map]
  simp only [WorkflowDefinitionSpec.outputs, List.mem_filter, List.mem_flatMap, List.mem_map, beq_iff_eq]
  constructor
  · rintro ⟨e, ⟨⟨node, hnode, output, houtput, rfl⟩, hname⟩, rfl⟩
    exact ⟨node, hnode, output, houtput, hname, rfl⟩
  · rintro ⟨node, hnode, output, houtput, hname, rfl⟩
    exact ⟨(node.nodeId, output), ⟨⟨node, hnode, output, houtput, rfl⟩, hname⟩, rfl⟩

variable {nodeId : Text} {earlier found later order : List Text} {node : NodeDefinition}

theorem supplied_iff (h : addProducers OrdMap.empty spec.outputs = .ok produced) :
    (producersOf produced contract).any (fun producer => supplies spec node contract producer && earlier.contains producer.nodeId) = true ↔
      Supplied spec earlier node contract := by
  simp only [List.any_eq_true, mem_producersOf h, supplies, Bool.and_eq_true, bne_iff_ne, beq_iff_eq, canReach_iff,
    List.contains_eq_mem, decide_eq_true_eq]
  constructor
  · rintro ⟨_, ⟨producer, hproducer, output, houtput, hname, rfl⟩, ⟨⟨hother, hkind⟩, hpath⟩, hearlier⟩
    exact ⟨producer, hproducer, hearlier, hother, ⟨output, houtput, hname, hkind⟩, hpath⟩
  · rintro ⟨producer, hproducer, hearlier, hother, ⟨output, houtput, hname, hkind⟩, hpath⟩
    exact ⟨_, ⟨producer, hproducer, output, houtput, hname, rfl⟩, ⟨⟨hother, hkind⟩, hpath⟩, hearlier⟩

theorem started_iff :
    (spec.inbound nodeId == 0 || spec.edges.any (fun edge => edge.target == nodeId && earlier.contains edge.source)) = true ↔
      Started spec earlier nodeId := by
  simp only [Bool.or_eq_true, beq_iff_eq, WorkflowDefinitionSpec.inbound, List.countP_eq_zero, List.any_eq_true, Bool.and_eq_true,
    List.contains_eq_mem, decide_eq_true_eq]
  refine or_congr Iff.rfl ⟨?_, ?_⟩
  · rintro ⟨e, he, htarget, hsource⟩
    exact ⟨e.source, hsource, e, he, rfl, htarget⟩
  · rintro ⟨a, ha, e, he, rfl, htarget⟩
    exact ⟨e, he, htarget, ha⟩

theorem mem_requiredInputs : contract ∈ node.requiredInputs ↔ contract ∈ node.inputs ∧ contract.required ≠ some false := by
  rw [NodeDefinition.requiredInputs, List.mem_filter, bne_iff_ne]

/-- **A node is ready** when it is started and supplied by what stands. -/
theorem isReady_iff (h : addProducers OrdMap.empty spec.outputs = .ok produced) :
    isReady spec produced earlier node = true ↔ Started spec earlier node.nodeId ∧
      ∀ contract ∈ node.inputs, contract.required ≠ some false → Supplied spec earlier node contract := by
  rw [isReady, Bool.and_eq_true, started_iff, List.all_eq_true]
  simp only [supplied_iff h, mem_requiredInputs, and_imp]

theorem Started.mono (h : Started spec earlier nodeId) (hsub : ∀ x ∈ earlier, x ∈ later) : Started spec later nodeId :=
  h.imp id (fun ⟨a, ha, hedge⟩ => ⟨a, hsub a ha, hedge⟩)

theorem Supplied.mono
    (h : Supplied spec earlier node contract) (hsub : ∀ x ∈ earlier, x ∈ later) : Supplied spec later node contract := by
  obtain ⟨producer, hproducer, hearlier, hrest⟩ := h
  exact ⟨producer, hproducer, hsub _ hearlier, hrest⟩

theorem reachLoop_ends (hwell : WellFormed spec) :
    ∃ found, spec.reachLoop (spec.nodes.length + 1) = some found ∧ spec.reachable = found ∧ found.Nodup ∧
      (∀ x ∈ found, x ∈ spec.nodeIds) ∧ (∀ node ∈ spec.roots, node.nodeId ∈ found) ∧
        ∀ a ∈ found, ∀ b, Edge spec a b → b ∈ found := by
  have hroots : ∀ x ∈ spec.roots.map NodeDefinition.nodeId, x ∈ spec.nodeIds := by
    intro x hx
    obtain ⟨node, hnode, rfl⟩ := List.mem_map.1 hx
    exact List.mem_map_of_mem (List.mem_of_mem_filter hnode)
  have hnodup : (spec.roots.map NodeDefinition.nodeId).Nodup := hwell.nodeIds.sublist (List.filter_sublist.map _)
  have hbound : spec.nodeIds.length < (spec.roots.map NodeDefinition.nodeId).length + (spec.nodes.length + 1) := by
    rw [WorkflowDefinitionSpec.nodeIds, List.length_map]
    omega
  have hends : (spec.reachLoop (spec.nodes.length + 1)).isSome = true :=
    Saturate.saturate_isSome (fun e he => (hwell.edges e he).2) hroots _ (.refl hnodup) hbound
  obtain ⟨found, hfound⟩ := Option.isSome_iff_exists.1 hends
  obtain ⟨hgrown, hclosed⟩ := Saturate.saturate_grown _ (.refl hnodup) hfound
  refine ⟨found, hfound, congrArg (Option.getD · []) hfound, hgrown.nodup, ?_, ?_, ?_⟩
  · exact hgrown.subset hroots (fun e he _ _ _ => (hwell.edges e he).2)
  · exact fun node hnode => hgrown.begins.subset (List.mem_map_of_mem hnode)
  · rintro a ha b ⟨e, he, rfl, rfl⟩
    exact hclosed e he (by simpa using ha)

theorem readyLoop_ends (spec : WorkflowDefinitionSpec) (produced : OrdMap Text (List Producer)) :
    ∃ found, readyLoop spec produced (spec.nodes.length + 1) = some found ∧ schedulable spec produced = found ∧
      Saturate.Grown NodeDefinition.nodeId (isReady spec produced) spec.nodes [] found ∧
        ∀ node ∈ spec.nodes, isReady spec produced found node = true → node.nodeId ∈ found := by
  have hbound : spec.nodeIds.length < ([] : List Text).length + (spec.nodes.length + 1) := by
    rw [WorkflowDefinitionSpec.nodeIds, List.length_map]
    exact Nat.lt_of_lt_of_eq (Nat.lt_succ_self _) (Nat.zero_add _).symm
  have hends : (readyLoop spec produced (spec.nodes.length + 1)).isSome = true :=
    Saturate.saturate_isSome (fun node hnode => List.mem_map_of_mem hnode) (List.forall_mem_nil _) _
      (.refl List.nodup_nil) hbound
  obtain ⟨found, hfound⟩ := Option.isSome_iff_exists.1 hends
  obtain ⟨hgrown, hclosed⟩ := Saturate.saturate_grown _ (.refl List.nodup_nil) hfound
  exact ⟨found, hfound, congrArg (Option.getD · []) hfound, hgrown, hclosed⟩

theorem Schedules.all_mem (h : Schedules spec order)
    (hnext : ∀ pre, ∀ node ∈ spec.nodes, ∀ post, order = pre ++ node.nodeId :: post → (∀ x ∈ pre, x ∈ found) → node.nodeId ∈ found) :
    ∀ x ∈ spec.nodeIds, x ∈ found := by
  have hprefix : ∀ pre post, order = pre ++ post → ∀ x ∈ pre, x ∈ found := by
    intro pre
    induction pre using List.reverseRecOn with
    | nil => exact fun _ _ x hx => absurd hx List.not_mem_nil
    | append_singleton pre y ih =>
      intro post hsplit x hx
      rw [List.append_assoc] at hsplit
      have hpre := ih _ hsplit
      rcases List.mem_append.1 hx with hx | hx
      · exact hpre x hx
      obtain rfl := List.mem_singleton.1 hx
      have hin : x ∈ spec.nodeIds := h.perm.mem_iff.1 (hsplit ▸ List.mem_append_cons_self)
      obtain ⟨node, hnode, rfl⟩ := List.mem_map.1 hin
      exact hnext pre node hnode post hsplit hpre
  intro x hx
  exact hprefix order [] (List.append_nil order).symm x (h.perm.mem_iff.2 hx)

theorem length_of_all (hwell : WellFormed spec) (hnodup : found.Nodup) (hsub : ∀ x ∈ found, x ∈ spec.nodeIds)
    (hall : ∀ x ∈ spec.nodeIds, x ∈ found) : found.length = spec.nodes.length := by
  have hperm : found.Perm spec.nodeIds := (List.perm_ext_iff_of_nodup hnodup hwell.nodeIds).2 (fun x => ⟨hsub x, hall x⟩)
  rw [hperm.length_eq, WorkflowDefinitionSpec.nodeIds, List.length_map]

theorem mem_roots (hnode : node ∈ spec.nodes) (h : ∀ e ∈ spec.edges, e.target ≠ node.nodeId) : node ∈ spec.roots := by
  rw [WorkflowDefinitionSpec.roots, List.mem_filter]
  refine ⟨hnode, ?_⟩
  rw [beq_iff_eq, WorkflowDefinitionSpec.inbound, List.countP_eq_zero]
  simpa using h

theorem Schedules.roots (hwell : WellFormed spec) (h : Schedules spec order) : 1 ≤ spec.roots.length := by
  cases order with
  | nil =>
    have hlength := h.perm.length_eq
    rw [WorkflowDefinitionSpec.nodeIds, List.length_map] at hlength
    have hnodes := hwell.nodes
    rw [← hlength] at hnodes
    exact absurd hnodes (by decide)
  | cons first rest =>
    obtain ⟨node, hnode, rfl⟩ := List.mem_map.1 (h.perm.mem_iff.1 List.mem_cons_self)
    rcases h.started [] node.nodeId rest rfl with hroot | ⟨a, ha, -⟩
    · exact List.length_pos_of_mem (mem_roots hnode hroot)
    · exact absurd ha List.not_mem_nil

theorem Schedules.reachable (hwell : WellFormed spec) (h : Schedules spec order) :
    spec.reachable.length = spec.nodes.length := by
  obtain ⟨found, -, rfl, hnodup, hsub, hroots, hclosed⟩ := reachLoop_ends hwell
  refine length_of_all hwell hnodup hsub (h.all_mem (fun pre node hnode post hsplit hpre => ?_))
  rcases h.started pre node.nodeId post hsplit with hroot | ⟨a, ha, hedge⟩
  · exact hroots node (mem_roots hnode hroot)
  · exact hclosed a (hpre a ha) node.nodeId hedge

/-- **The readiness loop lists an ordering where there is one.** -/
theorem Schedules.schedulable {order : List Text} (hwell : WellFormed spec) (h : Schedules spec order)
    (hproduced : addProducers OrdMap.empty spec.outputs = .ok produced) : (schedulable spec produced).length = spec.nodes.length := by
  obtain ⟨found, -, hfound, hgrown, hclosed⟩ := readyLoop_ends spec produced
  rw [hfound]
  have hsub : ∀ x ∈ found, x ∈ spec.nodeIds :=
    hgrown.subset (List.forall_mem_nil _) (fun node hnode _ _ _ => List.mem_map_of_mem hnode)
  refine length_of_all hwell hgrown.nodup hsub (h.all_mem (fun pre node hnode post hsplit hpre => ?_))
  apply hclosed node hnode
  rw [isReady_iff hproduced]
  exact ⟨(h.started pre node.nodeId post hsplit).mono hpre,
    fun contract hcontract hrequired => (h.supplied pre post node hnode hsplit contract hcontract hrequired).mono hpre⟩

theorem Schedules.supplier (h : Schedules spec order) (hproduced : addProducers OrdMap.empty spec.outputs = .ok produced) (hnode : node ∈ spec.nodes) (hcontract : contract ∈ node.requiredInputs) :
    (producersOf produced contract).any (supplies spec node contract) = true := by
  obtain ⟨pre, post, hsplit⟩ := List.append_of_mem (h.perm.mem_iff.2 (List.mem_map_of_mem hnode))
  obtain ⟨hinput, hrequired⟩ := mem_requiredInputs.1 hcontract
  have hany := (supplied_iff hproduced).2 (h.supplied pre post node hnode hsplit contract hinput hrequired)
  obtain ⟨producer, hmem, hsupplies⟩ := List.any_eq_true.1 hany
  exact List.any_eq_true.2 ⟨producer, hmem, ((Bool.and_eq_true _ _).mp hsupplies).1⟩

/-- **What the readiness loop lists is an ordering** when it lists every node. -/
theorem schedules_schedulable (hwell : WellFormed spec) (hproduced : addProducers OrdMap.empty spec.outputs = .ok produced)
    (hall : (schedulable spec produced).length = spec.nodes.length) : Schedules spec (schedulable spec produced) := by
  obtain ⟨found, -, hfound, hgrown, -⟩ := readyLoop_ends spec produced
  rw [hfound] at hall ⊢
  have hsub : ∀ x ∈ found, x ∈ spec.nodeIds :=
    hgrown.subset (List.forall_mem_nil _) (fun node hnode _ _ _ => List.mem_map_of_mem hnode)
  have hready : ∀ pre nodeId post, found = pre ++ nodeId :: post →
      ∃ node ∈ spec.nodes, node.nodeId = nodeId ∧ isReady spec produced pre node = true :=
    fun pre nodeId post hsplit => hgrown.added pre nodeId post hsplit (Nat.zero_le _)
  refine ⟨?_, fun pre nodeId post hsplit => ?_, fun pre post node hnode hsplit => ?_⟩
  · refine (hgrown.nodup.subperm hsub).perm_of_length_le ?_
    rw [hall, WorkflowDefinitionSpec.nodeIds, List.length_map]
  · obtain ⟨node, -, rfl, hnode⟩ := hready pre nodeId post hsplit
    exact ((isReady_iff hproduced).1 hnode).1
  · obtain ⟨node', hnode', hid, hisready⟩ := hready pre node.nodeId post hsplit
    obtain rfl : node' = node := List.inj_on_of_nodup_map hwell.nodeIds hnode' hnode hid
    exact ((isReady_iff hproduced).1 hisready).2

end Ready

/-! ## Validation -/

def Refusal.isUnschedulable : Refusal → Bool
  | .noEntry | .unreachable | .unproduced _ _ | .deadlock => true
  | _ => false

theorem validateGraph_ok {value : WorkflowDefinitionSpec} (hwell : WellFormed spec) (h : validateGraph spec = .ok value) :
    value = spec ∧ ∃ order, Schedules spec order := by
  unfold validateGraph at h
  split at h
  · cases h
  split at h
  · cases h
  split at h
  · cases h
  rename_i produced hproduced
  split at h
  · cases h
  split at h
  · cases h
  rename_i hall
  exact ⟨(Except.ok.inj h).symm, _, schedules_schedulable hwell hproduced (not_not.1 hall)⟩

theorem addProducers_error : ∀ (rest : List (Text × ArtifactContract)) (m : OrdMap Text (List Producer)) {refusal : Refusal},
    addProducers m rest = .error refusal → refusal.isUnschedulable = false
  | [], _, _, h => by cases h
  | (nodeId, output) :: rest, m, refusal, h => by
    rw [addProducers] at h
    split at h
    · obtain rfl := Except.error.inj h
      rfl
    · exact addProducers_error rest _ h

theorem nodeRefusal_unschedulable {produced : OrdMap Text (List Producer)} {node : NodeDefinition} (h : nodeRefusal spec produced node = some refusal) (hrefusal : refusal.isUnschedulable = true) :
    ∃ contract ∈ node.requiredInputs, ¬(producersOf produced contract).any (supplies spec node contract) = true := by
  rcases Option.or_eq_some_iff.1 h with hinput | ⟨-, hstop⟩
  · obtain ⟨contract, hcontract, hsome⟩ := List.exists_of_findSome?_eq_some hinput
    split at hsome
    · cases hsome
    · rename_i hnone
      exact ⟨contract, hcontract, hnone⟩
  · split at hstop
    · split at hstop
      · cases hstop
      · cases hstop
        cases hrefusal
    · cases hstop

theorem bind_error {x : Except Refusal α} {f : α → Except Refusal β} (h : x >>= f = .error refusal) :
    x = .error refusal ∨ ∃ a, x = .ok a ∧ f a = .error refusal := by
  cases x with
  | error r => exact .inl (congrArg Except.error (Except.error.inj h))
  | ok a => exact .inr ⟨a, rfl, h⟩

theorem elim_error {x : Option α} {refusal' : Refusal} (h : x.elim (.error refusal) Except.ok = .error refusal') :
    refusal = refusal' := by
  cases x with
  | none => exact Except.error.inj h
  | some a => cases h

theorem validateEdges_error {nodes : List NodeDefinition} : ∀ (vs : List Value) (edgeIds : List Text) {refusal : Refusal},
    validateEdges nodes edgeIds vs = .error refusal → refusal.isUnschedulable = false
  | [], _, _, h => by cases h
  | v :: vs, edgeIds, refusal, h => by
    rw [validateEdges] at h
    split at h
    · obtain rfl := Except.error.inj h
      rfl
    · rename_i edge hedge
      dsimp only at h
      split at h
      · cases hrest : validateEdges nodes (edge.edgeId :: edgeIds) vs with
        | error refusal' =>
          rw [hrest] at h
          obtain rfl := Except.error.inj h
          exact validateEdges_error vs _ hrest
        | ok rest =>
          rw [hrest] at h
          cases h
      · obtain rfl := Except.error.inj h
        rfl

theorem readWorkflowDefinition_error (h : readWorkflowDefinition input = .error refusal) : refusal.isUnschedulable = false := by
  unfold readWorkflowDefinition at h
  rcases bind_error h with h | ⟨members, -, h⟩
  · exact elim_error h ▸ rfl
  rcases bind_error h with h | ⟨name, -, h⟩
  · exact elim_error h ▸ rfl
  rcases bind_error h with h | ⟨description, -, h⟩
  · exact elim_error h ▸ rfl
  rcases bind_error h with h | ⟨maxTransitions, -, h⟩
  · exact elim_error h ▸ rfl
  rcases bind_error h with h | ⟨nodes, -, h⟩
  · exact elim_error h ▸ rfl
  rcases bind_error h with h | ⟨edgeValues, -, h⟩
  · exact elim_error h ▸ rfl
  split at h
  · rcases bind_error h with h | ⟨edges, -, h⟩
    · exact validateEdges_error _ _ h
    · cases h
  · obtain rfl := Except.error.inj h
    rfl

theorem validateGraph_error (hwell : WellFormed spec)
    (h : validateGraph spec = .error refusal) (hrefusal : refusal.isUnschedulable = true) : ¬∃ order, Schedules spec order := by
  rintro ⟨order, horder⟩
  unfold validateGraph at h
  split at h
  · rename_i hroots
    exact absurd (horder.roots hwell) (Nat.not_le.2 hroots)
  split at h
  · rename_i hreachable
    exact hreachable (horder.reachable hwell)
  split at h
  · rename_i refusal' hproduced
    obtain rfl := Except.error.inj h
    rw [addProducers_error _ _ hproduced] at hrefusal
    cases hrefusal
  rename_i produced hproduced
  split at h
  · rename_i refusal' hnode
    obtain rfl := Except.error.inj h
    obtain ⟨node, hmem, hnode⟩ := List.exists_of_findSome?_eq_some hnode
    obtain ⟨contract, hcontract, hnone⟩ := nodeRefusal_unschedulable hnode hrefusal
    exact hnone (horder.supplier hproduced hmem hcontract)
  split at h
  · rename_i hdeadlock
    exact hdeadlock (horder.schedulable hwell hproduced)
  · cases h

/-- **Validation is schedulability**: what is accepted has an ordering, what is refused as unschedulable has none, and every loop
ends. -/
theorem validateWorkflowDefinition_schedulability (input : Value) :
    (∀ spec, validateWorkflowDefinition input = .ok spec → readWorkflowDefinition input = .ok spec ∧ ∃ order, Schedules spec order) ∧
    (∀ refusal, validateWorkflowDefinition input = .error refusal → refusal.isUnschedulable = true →
      ∃ spec, readWorkflowDefinition input = .ok spec ∧ ¬∃ order, Schedules spec order) ∧
    ∀ spec, readWorkflowDefinition input = .ok spec → (spec.reachLoop (spec.nodes.length + 1)).isSome = true ∧
      (∀ produced, (readyLoop spec produced (spec.nodes.length + 1)).isSome = true) ∧
      ∀ source target, (spec.searchLoop target (spec.edges.length + 2) [source] [source]).isSome = true := by
  refine ⟨fun spec h => ?_, fun refusal h hrefusal => ?_, fun spec hread => ⟨?_, fun produced => ?_, fun source target => ?_⟩⟩
  · unfold validateWorkflowDefinition at h
    split at h
    · cases h
    · rename_i read hread
      obtain ⟨rfl, horder⟩ := validateGraph_ok (readWorkflowDefinition_wellFormed hread) h
      exact ⟨hread, horder⟩
  · unfold validateWorkflowDefinition at h
    split at h
    · rename_i refusal' hread
      obtain rfl := Except.error.inj h
      rw [readWorkflowDefinition_error hread] at hrefusal
      cases hrefusal
    · rename_i spec hread
      exact ⟨spec, hread, validateGraph_error (readWorkflowDefinition_wellFormed hread) h hrefusal⟩
  · obtain ⟨found, hfound, -⟩ := reachLoop_ends (readWorkflowDefinition_wellFormed hread)
    rw [hfound]
    rfl
  · obtain ⟨found, hfound, -⟩ := readyLoop_ends spec produced
    rw [hfound]
    rfl
  · obtain ⟨found, hfound, -⟩ := searchLoop_ends spec source target
    rw [hfound]
    rfl

def twoAt (point : ℤ) : Value := .number (Json.Number.make false [⟨2, Reviews.two_digit⟩] point)

def contractValue (name kind : String) : Value :=
  .object [(lit "name", some (.string (lit name))), (lit "kind", some (.string (lit kind)))]

def nodeValue (nodeId : String) (inputs outputs : List Value) : Value := .object [
  (lit "nodeId", some (.string (lit nodeId))),
  (lit "kind", some (.string (lit "human_gate"))),
  (lit "role", some (.string (lit "reviewer"))),
  (lit "inputs", some (.array inputs)),
  (lit "outputs", some (.array outputs)),
  (lit "retry", some (.object [(lit "maxAttempts", some (twoAt 1)),
    (lit "backoffMs", some (.number .zero))])),
  (lit "timeoutMs", some (twoAt 5))]

def edgeValue (edgeId source target : String) : Value := .object [
  (lit "edgeId", some (.string (lit edgeId))),
  (lit "from", some (.string (lit source))),
  (lit "to", some (.string (lit target))),
  (lit "on", some (.string (lit "success")))]

/-- A build whose patch a review needs, and that the review sends back to an address step. -/
def reviewLoop : Value := .object [
  (lit "name", some (.string (lit "review"))),
  (lit "maxTransitions", some (twoAt 2)),
  (lit "nodes", some (.array [nodeValue "build" [] [contractValue "p" "patch"],
    nodeValue "review" [contractValue "p" "patch"] [], nodeValue "address" [] []])),
  (lit "edges", some (.array [edgeValue "a" "build" "review", edgeValue "b" "review" "address", edgeValue "c" "address" "review"]))]

theorem validateWorkflowDefinition_reviewLoop : ∃ spec, validateWorkflowDefinition reviewLoop = .ok spec ∧ ∃ order, Schedules spec order := by
  have haccepted : (validateWorkflowDefinition reviewLoop).toOption.isSome = true := by decide +kernel
  cases hvalidate : validateWorkflowDefinition reviewLoop with
  | error refusal =>
    rw [hvalidate] at haccepted
    cases haccepted
  | ok spec => exact ⟨spec, rfl, ((validateWorkflowDefinition_schedulability reviewLoop).1 spec hvalidate).2⟩

end Wollipog.Workflows

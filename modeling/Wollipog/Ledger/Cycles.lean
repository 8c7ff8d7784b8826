import Wollipog.Ledger.Plan
import Wollipog.Lib.Successors
/-!
# Cycles — the cycle check finds every cycle and no other

A visit that finds a cycle stands on a path that comes back to it.  One that finds none leaves the finished items
ordered, each with everything it depends on finished before it.
-/
namespace Wollipog.Ledger

open Successors (Edge Acyclic Ordered)

section

variable {edges : String → List String}

def visitAll (edges : String → List String) (fuel : ℕ) (visiting : List String) (next : List String)
    (found : Bool × List String) : Bool × List String :=
  next.foldl (fun (found : Bool × List String) next => if found.1 then found else visit edges fuel visiting found.2 next) found

theorem visit_succ (fuel : ℕ) (visiting finished : List String) (id : String) : visit edges (fuel + 1) visiting finished id =
    if finished.contains id then (false, finished)
    else if visiting.contains id then (true, finished)
    else ((visitAll edges fuel (id :: visiting) (edges id) (false, finished)).1,
      if (visitAll edges fuel (id :: visiting) (edges id) (false, finished)).1 then
        (visitAll edges fuel (id :: visiting) (edges id) (false, finished)).2
      else id :: (visitAll edges fuel (id :: visiting) (edges id) (false, finished)).2) := rfl

theorem visitAll_found (fuel : ℕ) (visiting : List String) : ∀ (next finished : List String),
    visitAll edges fuel visiting next (true, finished) = (true, finished)
  | [], _ => rfl
  | _ :: next, finished => visitAll_found fuel visiting next finished

theorem visitAll_cons (fuel : ℕ) (visiting finished : List String) (id : String) (next : List String) :
    visitAll edges fuel visiting (id :: next) (false, finished) =
      visitAll edges fuel visiting next (visit edges fuel visiting finished id) := rfl

theorem visitAll_cycle {fuel : ℕ} {visiting : List String} : ∀ (next finished : List String),
    (∀ id ∈ next, ∀ finished, (visit edges fuel visiting finished id).1 = true → ¬ Acyclic (Edge edges)) →
    (visitAll edges fuel visiting next (false, finished)).1 = true → ¬ Acyclic (Edge edges)
  | [], _, _, h => by cases h
  | id :: next, finished, hvisit, h => by
    rw [visitAll_cons] at h
    cases hfirst : visit edges fuel visiting finished id with
    | mk found finished' =>
      cases found with
      | true => exact hvisit id List.mem_cons_self finished (by rw [hfirst])
      | false =>
        rw [hfirst] at h
        exact visitAll_cycle next finished' (fun x hx => hvisit x (List.mem_cons_of_mem id hx)) h

theorem visit_cycle : ∀ (fuel : ℕ) {visiting : List String} (finished : List String) {id : String},
    (∀ v ∈ visiting, Relation.TransGen (Edge edges) v id) → (visit edges fuel visiting finished id).1 = true →
      ¬ Acyclic (Edge edges)
  | 0, _, _, _, _, h => by cases h
  | fuel + 1, visiting, finished, id, hpath, h => by
    rw [visit_succ] at h
    split at h
    · cases h
    split at h
    · rename_i hback
      exact fun hacyclic => hacyclic id (hpath id (List.contains_iff_mem.1 hback))
    · refine visitAll_cycle (edges id) finished (fun next hnext finished' => visit_cycle fuel finished' fun v hv => ?_) h
      rcases List.mem_cons.1 hv with rfl | hv
      · exact .single hnext
      · exact (hpath v hv).tail hnext

structure Finished (edges : String → List String) (nodes visiting finished finished' : List String) : Prop where
  ordered : Ordered edges finished'
  kept : ∀ x ∈ finished, x ∈ finished'
  inside : ∀ x ∈ finished', x ∈ finished ∨ x ∈ nodes
  apart : ∀ v ∈ visiting, v ∉ finished'

/-- Where a visit starts: the items that are visited and those that are finished. -/
structure Visiting (edges : String → List String) (nodes visiting finished : List String) (fuel : ℕ) : Prop where
  ordered : Ordered edges finished
  apart : ∀ v ∈ visiting, v ∉ finished
  nodup : visiting.Nodup
  inside : ∀ v ∈ visiting, v ∈ nodes
  fuel : nodes.length < fuel + visiting.length

theorem Finished.visiting {nodes visiting finished finished' : List String} {fuel : ℕ}
    (h : Visiting edges nodes visiting finished fuel) (hdone : Finished edges nodes visiting finished finished') :
    Visiting edges nodes visiting finished' fuel := { h with ordered := hdone.ordered, apart := hdone.apart }

theorem visitAll_finished {nodes visiting : List String} {fuel : ℕ} : ∀ (next finished : List String),
    Visiting edges nodes visiting finished fuel →
    (∀ id ∈ next, ∀ finished, Visiting edges nodes visiting finished fuel → (visit edges fuel visiting finished id).1 = false →
      Finished edges nodes visiting finished (visit edges fuel visiting finished id).2 ∧
        id ∈ (visit edges fuel visiting finished id).2) →
    (visitAll edges fuel visiting next (false, finished)).1 = false →
    Finished edges nodes visiting finished (visitAll edges fuel visiting next (false, finished)).2 ∧
      ∀ id ∈ next, id ∈ (visitAll edges fuel visiting next (false, finished)).2
  | [], finished, hstart, _, _ => ⟨⟨hstart.ordered, fun _ h => h, fun _ h => .inl h, hstart.apart⟩, List.forall_mem_nil _⟩
  | id :: next, finished, hstart, hvisit, h => by
    rw [visitAll_cons] at h ⊢
    have hone := hvisit id List.mem_cons_self finished hstart
    cases hfirst : visit edges fuel visiting finished id with
    | mk found finished' =>
      rw [hfirst] at h hone
      cases found with
      | true =>
        rw [visitAll_found] at h
        cases h
      | false =>
        obtain ⟨hdone, hmem⟩ := hone rfl
        obtain ⟨hrest, hall⟩ := visitAll_finished next finished' (hdone.visiting hstart)
          (fun x hx => hvisit x (List.mem_cons_of_mem id hx)) h
        refine ⟨⟨hrest.ordered, fun x hx => hrest.kept x (hdone.kept x hx), fun x hx => ?_, hrest.apart⟩, fun x hx => ?_⟩
        · exact (hrest.inside x hx).elim (hdone.inside x) .inr
        · rcases List.mem_cons.1 hx with rfl | hx
          · exact hrest.kept x hmem
          · exact hall x hx

theorem visit_finished {nodes : List String} (hclosed : ∀ a ∈ nodes, ∀ b ∈ edges a, b ∈ nodes) :
    ∀ (fuel : ℕ) {visiting finished : List String} {id : String}, id ∈ nodes → Visiting edges nodes visiting finished fuel →
      (visit edges fuel visiting finished id).1 = false →
      Finished edges nodes visiting finished (visit edges fuel visiting finished id).2 ∧
        id ∈ (visit edges fuel visiting finished id).2
  | 0, visiting, _, _, _, hstart, _ => by
    -- the items being visited are all different, so there are no more of them than nodes
    have hle := (List.subperm_of_subset hstart.nodup hstart.inside).length_le
    have hfuel := hstart.fuel
    omega
  | fuel + 1, visiting, finished, id, hid, hstart, h => by
    rw [visit_succ] at h ⊢
    by_cases hdone : finished.contains id = true
    · rw [if_pos hdone]
      exact ⟨⟨hstart.ordered, fun _ hx => hx, fun _ hx => .inl hx, hstart.apart⟩, List.contains_iff_mem.1 hdone⟩
    rw [if_neg hdone] at h ⊢
    by_cases hback : visiting.contains id = true
    · rw [if_pos hback] at h
      cases h
    rw [if_neg hback] at h ⊢
    rw [List.contains_iff_mem] at hdone hback
    have hbelow : Visiting edges nodes (id :: visiting) finished fuel := by
      refine ⟨hstart.ordered, fun v hv => ?_, List.nodup_cons.2 ⟨hback, hstart.nodup⟩, fun v hv => ?_, ?_⟩
      · rcases List.mem_cons.1 hv with rfl | hv
        · exact hdone
        · exact hstart.apart v hv
      · rcases List.mem_cons.1 hv with rfl | hv
        · exact hid
        · exact hstart.inside v hv
      · have hfuel := hstart.fuel
        rw [List.length_cons]
        omega
    have hnone : (visitAll edges fuel (id :: visiting) (edges id) (false, finished)).1 = false := h
    obtain ⟨hfinished, hall⟩ := visitAll_finished (edges id) finished hbelow
      (fun next hnext finished' hstart' => visit_finished hclosed fuel (hclosed id hid next hnext) hstart') hnone
    rw [hnone]
    refine ⟨⟨.cons hall (hfinished.apart id List.mem_cons_self) hfinished.ordered,
      fun x hx => List.mem_cons_of_mem id (hfinished.kept x hx), fun x hx => ?_, fun v hv => ?_⟩, List.mem_cons_self⟩
    · rcases List.mem_cons.1 hx with rfl | hx
      · exact .inr hid
      · exact hfinished.inside x hx
    · show v ∉ id :: _
      rw [List.mem_cons, not_or]
      refine ⟨?_, hfinished.apart v (List.mem_cons_of_mem id hv)⟩
      rintro rfl
      exact hback hv

theorem visitAll_nodes {nodes roots : List String} (hclosed : ∀ a ∈ nodes, ∀ b ∈ edges a, b ∈ nodes)
    (hroots : ∀ a ∈ roots, a ∈ nodes) {fuel : ℕ} (hfuel : nodes.length < fuel)
    (hnone : (visitAll edges fuel [] roots (false, [])).1 = false) :
    ∃ order, Ordered edges order ∧ (∀ a ∈ roots, a ∈ order) ∧ ∀ a ∈ order, a ∈ nodes := by
  have hstart : ∀ {finished : List String}, Ordered edges finished → Visiting edges nodes [] finished fuel := fun hordered =>
    ⟨hordered, List.forall_mem_nil _, List.nodup_nil, List.forall_mem_nil _, hfuel⟩
  obtain ⟨hdone, hall⟩ := visitAll_finished roots [] (hstart .nil)
    (fun id hid finished hvisiting => visit_finished hclosed fuel (hroots id hid) hvisiting) hnone
  exact ⟨_, hdone.ordered, hall, fun a ha => (hdone.inside a ha).resolve_left List.not_mem_nil⟩

/-- **A finite graph without a cycle can be ordered.** -/
theorem exists_ordered {nodes : List String} (hclosed : ∀ a ∈ nodes, ∀ b ∈ edges a, b ∈ nodes) (hacyclic : Acyclic (Edge edges)) :
    ∃ order, Ordered edges order ∧ ∀ a, a ∈ order ↔ a ∈ nodes := by
  have hnone : (visitAll edges (nodes.length + 1) [] nodes (false, [])).1 = false := Bool.eq_false_iff.2 fun hfound =>
    visitAll_cycle nodes [] (fun _ _ finished => visit_cycle _ finished fun _ hv => absurd hv List.not_mem_nil) hfound hacyclic
  obtain ⟨order, hordered, hall, hinside⟩ := visitAll_nodes hclosed (fun _ h => h) (Nat.lt_succ_self _) hnone
  exact ⟨order, hordered, fun a => ⟨hinside a, hall a⟩⟩

end

def successors (edges : OrdMap String (List String)) (id : String) : List String := (edges.get id).getD []

/-- **The check finds a cycle exactly where there is one.** -/
theorem hasCycle_eq_false (edges : OrdMap String (List String)) : hasCycle edges = false ↔ Acyclic (Edge (successors edges)) := by
  have hcheck : hasCycle edges = (visitAll (successors edges) (edges.keys.length + (edges.entries.flatMap Prod.snd).length + 1) []
      edges.keys (false, [])).1 := rfl
  rw [hcheck]
  constructor
  · intro hnone
    have hsource : ∀ {a b : String}, b ∈ successors edges a → a ∈ edges.keys ∧ b ∈ edges.entries.flatMap Prod.snd := by
      intro a b hb
      unfold successors at hb
      cases hget : edges.get a with
      | none =>
        rw [hget] at hb
        cases hb
      | some l =>
        rw [hget, Option.getD_some] at hb
        exact ⟨OrdMap.mem_keys_iff.2 ⟨l, hget⟩, List.mem_flatMap.2 ⟨(a, l), OrdMap.mem_of_get hget, hb⟩⟩
    have hfuel : (edges.keys ++ edges.entries.flatMap Prod.snd).length <
        edges.keys.length + (edges.entries.flatMap Prod.snd).length + 1 := by
      rw [List.length_append]
      exact Nat.lt_succ_self _
    obtain ⟨order, hordered, hall, -⟩ := @visitAll_nodes _ (edges.keys ++ edges.entries.flatMap Prod.snd) _
      (fun a _ b hb => List.mem_append_right _ (hsource hb).2) (fun a ha => List.mem_append_left _ ha) _ hfuel hnone
    intro a hcycle
    obtain ⟨b, hedge, -⟩ := Relation.TransGen.head'_iff.1 hcycle
    exact hordered.not_cycle a (hall a (hsource hedge).1) hcycle
  · exact fun hacyclic => Bool.eq_false_iff.2 fun hfound => visitAll_cycle edges.keys []
      (fun _ _ finished => visit_cycle _ finished fun _ hv => absurd hv List.not_mem_nil) hfound hacyclic

end Wollipog.Ledger

import Mathlib
/-!
# Forest — trees grown from parent links

Without a cycle, and with no parent listed twice, the trees grown from the nodes without a parent hold every node as
often as the list does.
-/

inductive Rose (α : Type*)
  | node (a : α) (children : List (Rose α))

namespace Rose

variable {α : Type*}

def root : Rose α → α
  | .node a _ => a

mutual

def flatten : Rose α → List α
  | .node a children => a :: flattenAll children

def flattenAll : List (Rose α) → List α
  | [] => []
  | t :: ts => t.flatten ++ flattenAll ts

end

mutual

def siblings : Rose α → List (List α)
  | .node _ children => children.map root :: siblingsAll children

def siblingsAll : List (Rose α) → List (List α)
  | [] => []
  | t :: ts => t.siblings ++ siblingsAll ts

end

theorem mem_siblingsAll {l : List α} {ts : List (Rose α)} : l ∈ siblingsAll ts ↔ ∃ t ∈ ts, l ∈ t.siblings := by
  induction ts with
  | nil =>
    rw [siblingsAll]
    constructor
    · intro h
      cases h
    · rintro ⟨t, ht, -⟩
      cases ht
  | cons t ts ih => rw [siblingsAll, List.mem_append, ih, List.exists_mem_cons_iff]

theorem flattenAll_single (l : List α) : flattenAll (l.map (fun a => Rose.node a [])) = l := by
  induction l with
  | nil => rfl
  | cons a l ih =>
    rw [List.map_cons, flattenAll, flatten, flattenAll, ih]
    rfl

theorem flattenAll_append (a b : List (Rose α)) : flattenAll (a ++ b) = flattenAll a ++ flattenAll b := by
  induction a with
  | nil => rfl
  | cons t ts ih =>
    rw [List.cons_append, flattenAll, flattenAll, ih, List.append_assoc]

def grow (children : α → List α) : ℕ → α → Rose α
  | 0, a => .node a []
  | n + 1, a => .node a ((children a).map (grow children n))

theorem root_grow (children : α → List α) (n : ℕ) (a : α) : (grow children n a).root = a := by
  cases n <;> rfl

theorem map_root_grow (children : α → List α) (n : ℕ) (l : List α) : (l.map (grow children n)).map root = l := by
  rw [List.map_map]
  exact (List.map_congr_left (fun a _ => root_grow children n a)).trans (List.map_id l)

theorem siblings_grow {children : α → List α} {P : List α → Prop} (hnil : P []) (hchildren : ∀ a, P (children a)) (n : ℕ) :
    ∀ a, ∀ l ∈ (grow children n a).siblings, P l := by
  induction n with
  | zero =>
    intro a l hl
    rw [grow, siblings, List.map_nil, siblingsAll, List.mem_singleton] at hl
    rw [hl]
    exact hnil
  | succ n ih =>
    intro a l hl
    rw [grow, siblings, map_root_grow] at hl
    rcases List.mem_cons.1 hl with rfl | hl
    · exact hchildren a
    · obtain ⟨t, ht, hl⟩ := mem_siblingsAll.1 hl
      obtain ⟨b, -, rfl⟩ := List.mem_map.1 ht
      exact ih b l hl

def levels (children : α → List α) : ℕ → List α → List α
  | 0, l => l
  | n + 1, l => l ++ levels children n (l.flatMap children)

theorem levels_perm {children : α → List α} {n : ℕ} : ∀ {l m : List α}, l.Perm m → (levels children n l).Perm (levels children n m) := by
  induction n with
  | zero => exact id
  | succ n ih =>
    intro l m h
    exact h.append (ih (h.flatMap_right children))

theorem flattenAll_grow_succ (children : α → List α) (n : ℕ) (l : List α) :
    (flattenAll (l.map (grow children (n + 1)))).Perm (l ++ flattenAll ((l.flatMap children).map (grow children n))) := by
  induction l with
  | nil => exact List.Perm.refl _
  | cons a l ih =>
    rw [List.flatMap_cons, List.map_append, flattenAll_append]
    have htail : (flattenAll ((children a).map (grow children n)) ++ flattenAll (l.map (grow children (n + 1)))).Perm
        (flattenAll ((children a).map (grow children n)) ++ (l ++ flattenAll ((l.flatMap children).map (grow children n)))) :=
      ih.append_left _
    have hswap : (flattenAll ((children a).map (grow children n)) ++ (l ++ flattenAll ((l.flatMap children).map (grow children n)))).Perm
        (l ++ (flattenAll ((children a).map (grow children n)) ++ flattenAll ((l.flatMap children).map (grow children n)))) := by
      rw [← List.append_assoc, ← List.append_assoc]
      exact List.perm_append_comm.append_right _
    exact (htail.trans hswap).cons a

/-- **A forest holds what its levels hold.** -/
theorem flattenAll_grow (children : α → List α) (n : ℕ) : ∀ l : List α,
    (flattenAll (l.map (grow children n))).Perm (levels children n l) := by
  induction n with
  | zero =>
    intro l
    induction l with
    | nil => exact List.Perm.refl _
    | cons a l ih => exact ih.cons a
  | succ n ih =>
    intro l
    exact (flattenAll_grow_succ children n l).trans ((ih _).append_left l)

/-! ## Parents -/

def Parented [DecidableEq α] (items : List α) (parent : α → Option α) : Prop :=
  ∀ i ∈ items, ∀ p, parent i = some p → p ∈ items ∧ items.count p = 1

def Rooted (items : List α) (parent : α → Option α) : Prop :=
  ∀ i ∈ items, ¬ Relation.TransGen (fun a b => parent a = some b) i i

noncomputable def above [DecidableEq α] (items : List α) (parent : α → Option α) (i : α) : Finset α :=
  open Classical in items.toFinset.filter (fun a => Relation.TransGen (fun a b => parent a = some b) i a)

section Rank

variable [DecidableEq α] {items : List α} {parent : α → Option α}

theorem mem_above {i a : α} : a ∈ above items parent i ↔ a ∈ items ∧ Relation.TransGen (fun a b => parent a = some b) i a := by
  simp only [above, Finset.mem_filter, List.mem_toFinset]

noncomputable def rank (items : List α) (parent : α → Option α) (i : α) : ℕ := (above items parent i).card

theorem rank_le (i : α) : rank items parent i ≤ items.length := by
  have hsub : above items parent i ⊆ items.toFinset := fun a ha => List.mem_toFinset.2 (mem_above.1 ha).1
  exact (Finset.card_le_card hsub).trans (List.toFinset_card_le items)

theorem rank_root {i : α} (h : parent i = none) : rank items parent i = 0 := by
  unfold rank
  rw [Finset.card_eq_zero, Finset.eq_empty_iff_forall_notMem]
  intro a ha
  obtain ⟨b, hb, -⟩ := Relation.TransGen.head'_iff.1 (mem_above.1 ha).2
  rw [h] at hb
  cases hb

theorem rank_child (hparented : Parented items parent) (hrooted : Rooted items parent) {i p : α} (hi : i ∈ items)
    (h : parent i = some p) : rank items parent i = rank items parent p + 1 := by
  have hp := (hparented i hi p h).1
  have hset : above items parent i = insert p (above items parent p) := by
    ext a
    rw [Finset.mem_insert, mem_above, mem_above, Relation.TransGen.head'_iff]
    constructor
    · rintro ⟨ha, b, hb, hrest⟩
      obtain rfl : p = b := Option.some.inj (h.symm.trans hb)
      rcases Relation.reflTransGen_iff_eq_or_transGen.1 hrest with rfl | hrest
      · exact .inl rfl
      · exact .inr ⟨ha, hrest⟩
    · rintro (rfl | ⟨ha, hrest⟩)
      · exact ⟨hp, a, h, .refl⟩
      · exact ⟨ha, p, h, hrest.to_reflTransGen⟩
  unfold rank
  rw [hset, Finset.card_insert_of_notMem (fun hin => hrooted p hp (mem_above.1 hin).2)]

def childrenIn (items : List α) (parent : α → Option α) (p : α) : List α := items.filter (fun i => parent i = some p)

theorem sum_map_single (l : List α) (q : α) (n : ℕ) : (l.map (fun p => if q = p then n else 0)).sum = l.count q * n := by
  induction l with
  | nil => exact (Nat.zero_mul n).symm
  | cons p l ih =>
    rw [List.map_cons, List.sum_cons, ih, List.count_cons]
    by_cases h : q = p
    · subst h
      rw [if_pos rfl, if_pos (beq_self_eq_true q), Nat.add_mul, Nat.one_mul, Nat.add_comm]
    · rw [if_neg h, if_neg (fun hb => h (beq_iff_eq.1 hb).symm), Nat.zero_add, Nat.add_zero]

theorem count_childrenIn (p j : α) : (childrenIn items parent p).count j = if parent j = some p then items.count j else 0 := by
  unfold childrenIn
  split
  · rename_i h
    exact List.count_filter (decide_eq_true h)
  · rename_i h
    refine List.count_eq_zero.2 (fun hin => h ?_)
    exact of_decide_eq_true (List.mem_filter.1 hin).2

/-- **One level down**: the children of the nodes of a rank are the nodes of the next one. -/
theorem level_step (hparented : Parented items parent) (hrooted : Rooted items parent) (k : ℕ) :
    ((items.filter (fun i => rank items parent i = k)).flatMap (childrenIn items parent)).Perm
      (items.filter (fun i => rank items parent i = k + 1)) := by
  rw [List.perm_iff_count]
  intro j
  rw [List.count_flatMap]
  have hcount : (List.count j ∘ childrenIn items parent) = fun p => if parent j = some p then items.count j else 0 := by
    funext p
    exact count_childrenIn p j
  rw [hcount]
  by_cases hj : j ∈ items
  · cases hparent : parent j with
    | none =>
      have hzero : rank items parent j = 0 := rank_root hparent
      have hno : j ∉ items.filter (fun i => rank items parent i = k + 1) := by
        intro hin
        have := of_decide_eq_true (List.mem_filter.1 hin).2
        omega
      rw [List.count_eq_zero.2 hno, List.sum_eq_zero]
      intro n hn
      obtain ⟨p, -, rfl⟩ := List.mem_map.1 hn
      rfl
    | some q =>
      have hrank := rank_child hparented hrooted hj hparent
      simp only [Option.some.injEq]
      rw [sum_map_single]
      by_cases hq : rank items parent q = k
      · have hat : (items.filter (fun i => rank items parent i = k)).count q = items.count q :=
          @List.count_filter _ _ _ (fun i => decide (rank items parent i = k)) q items (decide_eq_true hq)
        have hnext : (items.filter (fun i => rank items parent i = k + 1)).count j = items.count j :=
          @List.count_filter _ _ _ (fun i => decide (rank items parent i = k + 1)) j items (decide_eq_true (by omega))
        rw [hat, hnext, (hparented j hj q hparent).2, Nat.one_mul]
      · have hno : q ∉ items.filter (fun i => rank items parent i = k) := fun hin => hq (of_decide_eq_true (List.mem_filter.1 hin).2)
        have hno' : j ∉ items.filter (fun i => rank items parent i = k + 1) := by
          intro hin
          have := of_decide_eq_true (List.mem_filter.1 hin).2
          omega
        rw [List.count_eq_zero.2 hno, List.count_eq_zero.2 hno', Nat.zero_mul]
  · have hno : j ∉ items.filter (fun i => rank items parent i = k + 1) := fun hin => hj (List.mem_filter.1 hin).1
    rw [List.count_eq_zero.2 hno, List.count_eq_zero.2 hj]
    refine List.sum_eq_zero (fun n hn => ?_)
    obtain ⟨p, -, rfl⟩ := List.mem_map.1 hn
    exact ite_self 0

theorem levels_of_rank (hparented : Parented items parent) (hrooted : Rooted items parent) (n : ℕ) : ∀ k,
    (levels (childrenIn items parent) n (items.filter (fun i => rank items parent i = k))).Perm
      (items.filter (fun i => k ≤ rank items parent i ∧ rank items parent i ≤ k + n)) := by
  induction n with
  | zero =>
    intro k
    have hsame : (fun i => decide (rank items parent i = k)) = fun i => decide (k ≤ rank items parent i ∧ rank items parent i ≤ k + 0) := by
      funext i
      rw [decide_eq_decide]
      omega
    rw [levels, hsame]
  | succ n ih =>
    intro k
    have hbelow := (levels_perm (level_step hparented hrooted k)).trans (ih (k + 1))
    have hsplit : (items.filter (fun i => rank items parent i = k) ++
        items.filter (fun i => k + 1 ≤ rank items parent i ∧ rank items parent i ≤ k + 1 + n)).Perm
        (items.filter (fun i => k ≤ rank items parent i ∧ rank items parent i ≤ k + (n + 1))) := by
      have hparts := List.filter_append_perm (fun i => decide (rank items parent i = k))
        (items.filter (fun i => k ≤ rank items parent i ∧ rank items parent i ≤ k + (n + 1)))
      rw [List.filter_filter, List.filter_filter] at hparts
      have hfirst : (fun i => decide (rank items parent i = k) && decide (k ≤ rank items parent i ∧ rank items parent i ≤ k + (n + 1))) =
          fun i => decide (rank items parent i = k) := by
        funext i
        rw [← Bool.decide_and, decide_eq_decide]
        omega
      have hsecond : (fun i => !decide (rank items parent i = k) && decide (k ≤ rank items parent i ∧ rank items parent i ≤ k + (n + 1))) =
          fun i => decide (k + 1 ≤ rank items parent i ∧ rank items parent i ≤ k + 1 + n) := by
        funext i
        rw [← decide_not, ← Bool.decide_and, decide_eq_decide]
        omega
      rw [hfirst, hsecond] at hparts
      exact hparts
    exact (hbelow.append_left _).trans hsplit

/-- **A forest holds every node of the list**, as often as the list does. -/
theorem forest_perm (hparented : Parented items parent) (hrooted : Rooted items parent) :
    (flattenAll ((items.filter (fun i => parent i = none)).map (grow (childrenIn items parent) items.length))).Perm items := by
  have hroots : (items.filter (fun i => parent i = none)) = items.filter (fun i => rank items parent i = 0) := by
    refine List.filter_congr (fun i hi => ?_)
    rw [decide_eq_decide]
    constructor
    · exact rank_root
    · intro hzero
      cases h : parent i with
      | none => rfl
      | some p =>
        rw [rank_child hparented hrooted hi h] at hzero
        cases hzero
  have hall : items.filter (fun i => 0 ≤ rank items parent i ∧ rank items parent i ≤ 0 + items.length) = items := by
    refine List.filter_eq_self.2 (fun i _ => decide_eq_true ⟨Nat.zero_le _, ?_⟩)
    rw [Nat.zero_add]
    exact rank_le i
  rw [hroots]
  refine (flattenAll_grow _ _ _).trans ((levels_of_rank hparented hrooted items.length 0).trans ?_)
  rw [hall]

end Rank

end Rose

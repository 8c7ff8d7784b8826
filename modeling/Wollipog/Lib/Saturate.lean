import Mathlib
/-!
# Saturate — a set grown by passes over a list until a pass adds nothing

An item adds its target when the target is new and the item is ready over what was added before. Enough passes always
end (`saturate_isSome`), with no target of a ready item outside (`Grown.closed`).
-/
namespace Saturate

variable {ι α : Type} [DecidableEq α] (target : ι → α) (ready : List α → ι → Bool) (items : List ι)

def visit (s : List α × Bool) (i : ι) : List α × Bool :=
  if ready s.1 i && !s.1.contains (target i) then (s.1 ++ [target i], true) else s

def pass (found : List α) : List α × Bool := items.foldl (visit target ready) (found, false)

/-- `while (changed)`, `none` where the passes run out first. -/
def saturate : ℕ → List α → Option (List α)
  | 0, _ => none
  | n + 1, found => if (pass target ready items found).2 then saturate n (pass target ready items found).1
      else some (pass target ready items found).1

variable {target ready items} {start found found' : List α}

/-- What stands in `found` beyond `start` was added by a ready item, over what stands before it. -/
structure Grown (target : ι → α) (ready : List α → ι → Bool) (items : List ι) (start found : List α) : Prop where
  begins : start <+: found
  nodup : found.Nodup
  added : ∀ pre x post, found = pre ++ x :: post → start.length ≤ pre.length → ∃ i ∈ items, target i = x ∧ ready pre i = true

omit [DecidableEq α] in
theorem Grown.refl (h : start.Nodup) : Grown target ready items start start where
  begins := List.prefix_rfl
  nodup := h
  added pre x post hsplit hlen := by
    rw [hsplit, List.length_append, List.length_cons] at hlen
    omega

omit [DecidableEq α] in
theorem Grown.snoc (h : Grown target ready items start found) {i : ι} (hi : i ∈ items) (hready : ready found i = true)
    (hnew : target i ∉ found) : Grown target ready items start (found ++ [target i]) where
  begins := h.begins.trans (List.prefix_append _ _)
  nodup := by
    rw [← List.concat_eq_append]
    exact h.nodup.concat hnew
  added pre x post hsplit hlen := by
    rcases List.eq_nil_or_concat' post with rfl | ⟨post', y, rfl⟩
    · obtain ⟨rfl, hx⟩ := List.append_inj' hsplit rfl
      exact ⟨i, hi, List.singleton_injective hx, hready⟩
    · rw [← List.cons_append, ← List.append_assoc] at hsplit
      obtain ⟨hfound, -⟩ := List.append_inj' hsplit rfl
      exact h.added pre x post' hfound hlen

omit [DecidableEq α] in
theorem Grown.split (h : Grown target ready items start found) {pre post : List α} {x : α} (hsplit : found = pre ++ x :: post) :
    x ∈ start ∨ ∃ i ∈ items, target i = x ∧ ready pre i = true := by
  by_cases hlen : start.length ≤ pre.length
  · exact .inr (h.added pre x post hsplit hlen)
  · obtain ⟨rest, hrest⟩ := h.begins
    have hget : (start ++ rest)[pre.length]? = some x := by rw [hrest, hsplit]; simp
    rw [List.getElem?_append_left (Nat.lt_of_not_le hlen)] at hget
    exact .inl (List.mem_of_getElem? hget)

theorem Grown.fold : ∀ (rest : List ι), (∀ i ∈ rest, i ∈ items) → ∀ (s : List α × Bool), Grown target ready items start s.1 →
    Grown target ready items start (rest.foldl (visit target ready) s).1
  | [], _, _, h => h
  | i :: rest, hrest, s, h => by
    rw [List.foldl_cons]
    apply Grown.fold rest (fun j hj => hrest j (List.mem_cons_of_mem _ hj))
    unfold visit
    split
    · rename_i hvisit
      rw [Bool.and_eq_true, Bool.not_eq_true', List.contains_eq_mem, decide_eq_false_iff_not] at hvisit
      exact h.snoc (hrest i List.mem_cons_self) hvisit.1 hvisit.2
    · exact h

theorem visit_length (s : List α × Bool) (i : ι) : s.1.length ≤ (visit target ready s i).1.length ∧
      ((visit target ready s i).2 = true → s.2 = true ∨ s.1.length < (visit target ready s i).1.length) := by
  unfold visit
  split
  · rw [List.length_append, List.length_singleton]
    exact ⟨Nat.le_succ _, fun _ => .inr (Nat.lt_succ_self _)⟩
  · exact ⟨le_rfl, .inl⟩

theorem fold_length : ∀ (rest : List ι) (s : List α × Bool), s.1.length ≤ (rest.foldl (visit target ready) s).1.length ∧
      ((rest.foldl (visit target ready) s).2 = true → s.2 = true ∨ s.1.length < (rest.foldl (visit target ready) s).1.length)
  | [], _ => ⟨le_rfl, .inl⟩
  | i :: rest, s => by
    rw [List.foldl_cons]
    have hstep : s.1.length ≤ (visit target ready s i).1.length ∧
        ((visit target ready s i).2 = true → s.2 = true ∨ s.1.length < (visit target ready s i).1.length) := visit_length s i
    have hrest := fold_length rest (visit target ready s i)
    refine ⟨hstep.1.trans hrest.1, fun hchanged => ?_⟩
    rcases hrest.2 hchanged with hfirst | hlonger
    · rcases hstep.2 hfirst with hbefore | hgrew
      · exact .inl hbefore
      · exact .inr (hgrew.trans_le hrest.1)
    · exact .inr (hstep.1.trans_lt hlonger)

theorem pass_grows (h : (pass target ready items found).2 = true) : found.length < (pass target ready items found).1.length :=
  ((fold_length items (found, false)).2 h).resolve_left Bool.false_ne_true

theorem fold_changed : ∀ (rest : List ι) (s : List α × Bool), s.2 = true → (rest.foldl (visit target ready) s).2 = true
  | [], _, h => h
  | i :: rest, s, h => by
    rw [List.foldl_cons]
    apply fold_changed rest
    unfold visit
    split
    · rfl
    · exact h

theorem fold_unchanged : ∀ (rest : List ι) (s : List α × Bool), (rest.foldl (visit target ready) s).2 = false →
    (rest.foldl (visit target ready) s).1 = s.1 ∧ ∀ i ∈ rest, ready s.1 i = true → target i ∈ s.1
  | [], _, _ => ⟨rfl, List.forall_mem_nil _⟩
  | i :: rest, s, h => by
    rw [List.foldl_cons] at h ⊢
    by_cases hvisit : ready s.1 i && !s.1.contains (target i)
    · rw [visit, if_pos hvisit, fold_changed rest _ rfl] at h
      cases h
    · rw [visit, if_neg hvisit] at h ⊢
      obtain ⟨hsame, hrest⟩ := fold_unchanged rest s h
      refine ⟨hsame, fun j hj hready => ?_⟩
      rcases List.mem_cons.1 hj with rfl | hj
      · simpa [hready] using hvisit
      · exact hrest j hj hready

/-- **What the passes leave.** -/
theorem saturate_grown : ∀ (n : ℕ) {found : List α}, Grown target ready items start found → saturate target ready items n found = some found' →
    Grown target ready items start found' ∧ ∀ i ∈ items, ready found' i = true → target i ∈ found'
  | 0, _, _, h => by cases h
  | n + 1, found, hgrown, h => by
    rw [saturate] at h
    split at h
    · exact saturate_grown n (hgrown.fold items (fun _ hi => hi) (found, false)) h
    · rename_i hunchanged
      obtain ⟨hsame, hclosed⟩ := fold_unchanged items (found, false) (Bool.eq_false_iff.2 hunchanged)
      obtain rfl : found = found' := hsame.symm.trans (Option.some.inj h)
      exact ⟨hgrown, hclosed⟩

/-- **Enough passes end**: every pass but the last adds a target, and there are as many as `bound`. -/
theorem saturate_isSome {bound : List α} (hitems : ∀ i ∈ items, target i ∈ bound) (hstart : ∀ x ∈ start, x ∈ bound) :
    ∀ (n : ℕ) {found : List α}, Grown target ready items start found → bound.length < found.length + n →
      (saturate target ready items n found).isSome = true
  | 0, found, hgrown, hlt => by
    exfalso
    have hmem : ∀ x ∈ found, x ∈ bound := by
      intro x hx
      obtain ⟨pre, post, hsplit⟩ := List.append_of_mem hx
      rcases hgrown.split hsplit with hx | ⟨i, hi, rfl, -⟩
      · exact hstart x hx
      · exact hitems i hi
    have hle := (hgrown.nodup.subperm hmem).length_le
    omega
  | n + 1, found, hgrown, hlt => by
    rw [saturate]
    split
    · rename_i hchanged
      have hgrew := pass_grows hchanged
      exact saturate_isSome hitems hstart n (hgrown.fold items (fun _ hi => hi) (found, false)) (by omega)
    · rfl

omit [DecidableEq α] in
theorem Grown.subset (h : Grown target ready items start found) {p : α → Prop} (hstart : ∀ x ∈ start, p x)
    (hclosed : ∀ i ∈ items, ∀ l : List α, (∀ y ∈ l, p y) → ready l i = true → p (target i)) : ∀ x ∈ found, p x := by
  have hprefix : ∀ l, l <+: found → ∀ x ∈ l, p x := by
    intro l
    induction l using List.reverseRecOn with
    | nil => exact fun _ x hx => absurd hx List.not_mem_nil
    | append_singleton l y ih =>
      rintro ⟨post, hpost⟩ x hx
      have hl : ∀ z ∈ l, p z := ih ⟨y :: post, by rw [← hpost, List.append_assoc]; rfl⟩
      rcases List.mem_append.1 hx with hx | hx
      · exact hl x hx
      obtain rfl := List.mem_singleton.1 hx
      have hsplit : found = l ++ x :: post := by rw [← hpost, List.append_assoc]; rfl
      rcases h.split hsplit with hx | ⟨i, hi, rfl, hready⟩
      · exact hstart x hx
      · exact hclosed i hi l hl hready
  exact hprefix found List.prefix_rfl

end Saturate

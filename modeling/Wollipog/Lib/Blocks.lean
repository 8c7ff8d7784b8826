import Mathlib
/-!
# Blocks — a list cut before each entry of a kind

What stands before the first such entry, and a block from each of them up to the next.
-/
namespace Blocks

variable {α : Type*} {p : α → Bool} {x : α} {l m : List α} {bs : List (List α)}

def blocks (p : α → Bool) : List α → List α × List (List α)
  | [] => ([], [])
  | x :: l =>
    let (before, rest) := blocks p l
    if p x then ([], (x :: before) :: rest) else (x :: before, rest)

theorem blocks_of_not : ∀ (l : List α), (∀ x ∈ l, p x = false) → blocks p l = (l, [])
  | [], _ => rfl
  | x :: l, h => by
    have hx : p x = false := h x List.mem_cons_self
    simp [blocks, hx, blocks_of_not l (fun y hy => h y (List.mem_cons_of_mem x hy))]

theorem blocks_append : ∀ (l m : List α), (∀ x ∈ l, p x = false) → blocks p (l ++ m) = (l ++ (blocks p m).1, (blocks p m).2)
  | [], _, _ => rfl
  | x :: l, m, h => by
    have hx : p x = false := h x List.mem_cons_self
    simp [blocks, hx, blocks_append l m (fun y hy => h y (List.mem_cons_of_mem x hy))]

/-- **One block**: it begins with an entry of the kind, and no other entry is of it. -/
theorem blocks_one (l : List α) {m : List α} (hl : ∀ y ∈ l, p y = false) (hx : p x = true) (hm : ∀ y ∈ m, p y = false) :
    blocks p (l ++ x :: m) = (l, [x :: m]) := by
  simp [blocks_append l _ hl, blocks, hx, blocks_of_not m hm]

theorem before_not : ∀ (l : List α), ∀ x ∈ (blocks p l).1, p x = false
  | [], x, h => absurd h List.not_mem_nil
  | y :: l, x, h => by
    by_cases hy : p y = true
    · simp [blocks, hy] at h
    · simp only [blocks, Bool.not_eq_true] at h hy
      rw [if_neg (by simp [hy])] at h
      rcases List.mem_cons.1 h with rfl | h
      · exact hy
      · exact before_not l x h

theorem mem_before : ∀ (l : List α), ∀ x ∈ (blocks p l).1, x ∈ l
  | [], _, h => h
  | y :: l, x, h => by
    by_cases hy : p y = true
    · simp [blocks, hy] at h
    · simp only [blocks, hy] at h
      rcases List.mem_cons.1 h with rfl | h
      · exact List.mem_cons_self
      · exact List.mem_cons_of_mem y (mem_before l x h)

theorem mem_blocks : ∀ (l : List α), ∀ b ∈ (blocks p l).2, ∃ x t, b = x :: t ∧ p x = true ∧ (∀ y ∈ t, p y = false) ∧ ∀ y ∈ b, y ∈ l
  | [], b, h => absurd h List.not_mem_nil
  | y :: l, b, h => by
    by_cases hy : p y = true
    · simp only [blocks, hy, if_true] at h
      rcases List.mem_cons.1 h with rfl | h
      · refine ⟨y, _, rfl, hy, before_not l, fun z hz => ?_⟩
        rcases List.mem_cons.1 hz with rfl | hz
        · exact List.mem_cons_self
        · exact List.mem_cons_of_mem y (mem_before l z hz)
      · obtain ⟨x, t, hb, hx, ht, hmem⟩ := mem_blocks l b h
        exact ⟨x, t, hb, hx, ht, fun z hz => List.mem_cons_of_mem y (hmem z hz)⟩
    · simp only [blocks, hy] at h
      obtain ⟨x, t, hb, hx, ht, hmem⟩ := mem_blocks l b h
      exact ⟨x, t, hb, hx, ht, fun z hz => List.mem_cons_of_mem y (hmem z hz)⟩

end Blocks

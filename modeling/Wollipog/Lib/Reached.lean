import Mathlib
/-!
# Reached — the nodes that a recursive query reaches

`reached next rounds seeds` adds the successors of what was found, round after round. Given enough rounds it finds
exactly the nodes joined to a seed by a path (`mem_reached`).
-/
namespace Reached

variable {α : Type} [DecidableEq α]

def round (next : α → List α) (found : List α) : List α := found ∪ found.flatMap next

def reached (next : α → List α) : Nat → List α → List α
  | 0, found => found
  | n + 1, found => reached next n (round next found)

variable {next : α → List α} {found seeds : List α} {x y : α}

theorem mem_round : x ∈ round next found ↔ x ∈ found ∨ ∃ y ∈ found, x ∈ next y := by
  unfold round
  rw [List.mem_union_iff, List.mem_flatMap]

/-- **What is found** is joined to a seed by a path. -/
theorem path_of_mem : ∀ (n : Nat) {found : List α}, x ∈ reached next n found →
    ∃ s ∈ found, Relation.ReflTransGen (fun a b => b ∈ next a) s x
  | 0, _, h => ⟨x, h, .refl⟩
  | n + 1, found, h => by
    obtain ⟨s, hs, hpath⟩ := path_of_mem n h
    rcases mem_round.1 hs with hold | ⟨y, hy, hstep⟩
    · exact ⟨s, hold, hpath⟩
    · exact ⟨y, hy, hpath.head hstep⟩

theorem subset_reached : ∀ (n : Nat) {found : List α}, x ∈ found → x ∈ reached next n found
  | 0, _, h => h
  | n + 1, _, h => subset_reached n (mem_round.2 (.inl h))

def Closed (next : α → List α) (found : List α) : Prop := ∀ y ∈ found, ∀ x ∈ next y, x ∈ found

theorem Closed.reached (h : Closed next found) : ∀ n, ∀ x, x ∈ reached next n found ↔ x ∈ found := by
  intro n
  induction n generalizing found with
  | zero => exact fun x => Iff.rfl
  | succ n ih =>
    have hsame : ∀ x, x ∈ round next found ↔ x ∈ found := by
      intro x
      rw [mem_round]
      constructor
      · rintro (hx | ⟨y, hy, hx⟩)
        · exact hx
        · exact h y hy x hx
      · exact .inl
    have hclosed : Closed next (round next found) := by
      intro y hy x hx
      exact (hsame x).2 (h y ((hsame y).1 hy) x hx)
    intro x
    exact (ih hclosed x).trans (hsame x)

theorem round_grows (hopen : ¬Closed next found) : found.toFinset.card < (round next found).toFinset.card := by
  apply Finset.card_lt_card
  rw [Finset.ssubset_iff_subset_ne]
  constructor
  · intro x hx
    exact List.mem_toFinset.2 (mem_round.2 (.inl (List.mem_toFinset.1 hx)))
  · intro heq
    apply hopen
    intro y hy x hx
    have hin : x ∈ (round next found).toFinset := List.mem_toFinset.2 (mem_round.2 (.inr ⟨y, hy, hx⟩))
    rw [← heq] at hin
    exact List.mem_toFinset.1 hin

theorem closed_reached {nodes : Finset α} (hnext : ∀ y, ∀ x ∈ next y, x ∈ nodes) :
    ∀ (n : Nat) {found : List α}, (∀ x ∈ found, x ∈ nodes) → nodes.card ≤ found.toFinset.card + n →
      Closed next (reached next n found)
  | 0, found, hfound, hcard => by
    have hsub : found.toFinset ⊆ nodes := fun x hx => hfound x (List.mem_toFinset.1 hx)
    have hall : found.toFinset = nodes := Finset.eq_of_subset_of_card_le hsub (by omega)
    intro y _ x hx
    have hin : x ∈ found.toFinset := by
      rw [hall]
      exact hnext y x hx
    exact List.mem_toFinset.1 hin
  | n + 1, found, hfound, hcard => by
    by_cases hclosed : Closed next found
    · intro y hy x hx
      rw [hclosed.reached (n + 1)] at hy ⊢
      exact hclosed y hy x hx
    · have hgrows := round_grows hclosed
      apply closed_reached hnext n
      · intro x hx
        rcases mem_round.1 hx with hx | ⟨y, _, hx⟩
        · exact hfound x hx
        · exact hnext y x hx
      · omega

/-- **The query reaches exactly what a path from a seed reaches.** -/
theorem mem_reached {nodes : List α} (hseeds : ∀ x ∈ seeds, x ∈ nodes) (hnext : ∀ y, ∀ x ∈ next y, x ∈ nodes) :
    x ∈ reached next nodes.length seeds ↔ ∃ s ∈ seeds, Relation.ReflTransGen (fun a b => b ∈ next a) s x := by
  constructor
  · exact path_of_mem nodes.length
  · rintro ⟨s, hs, hpath⟩
    have hclosed : Closed next (reached next nodes.length seeds) := by
      have hnodes : ∀ y, ∀ x ∈ next y, x ∈ nodes.toFinset := fun y x hx => List.mem_toFinset.2 (hnext y x hx)
      have hcard := List.toFinset_card_le nodes
      apply closed_reached hnodes
      · exact fun x hx => List.mem_toFinset.2 (hseeds x hx)
      · omega
    induction hpath with
    | refl => exact subset_reached nodes.length hs
    | tail _ hstep ih => exact hclosed _ ih _ hstep

end Reached

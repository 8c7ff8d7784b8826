import Mathlib.Data.List.Induction
/-!
# Standing — an observation that nothing after it has ended

In a history `l` an observation stands while none that ends it follows.
-/
namespace Sys

variable {ο : Type*}

/-- `x` occurs in the history, and nothing after it ends it. -/
def Standing (ends : ο → Bool) (x : ο) (l : List ο) : Prop :=
  ∃ a b, l = a ++ x :: b ∧ ∀ y ∈ b, ends y = false

variable {ends : ο → Bool} {x y : ο} {l : List ο}

theorem not_standing_nil : ¬ Standing ends x [] := by
  rintro ⟨a, b, hsplit, -⟩
  cases a <;> cases hsplit

theorem Standing.concat (h : Standing ends x (l ++ [y])) : x = y ∨ (Standing ends x l ∧ ends y = false) := by
  obtain ⟨a, b, hsplit, hb⟩ := h
  rcases List.eq_nil_or_concat b with rfl | ⟨b', z, rfl⟩
  · have hlast := List.append_inj_right' hsplit rfl
    cases hlast
    exact .inl rfl
  · right
    rw [List.concat_eq_append] at hsplit hb
    have hsplit' : l ++ [y] = (a ++ x :: b') ++ [z] := by rw [hsplit]; simp
    obtain ⟨rfl, hz⟩ := List.append_inj' hsplit' rfl
    cases hz
    exact ⟨⟨a, b', rfl, fun u hu => hb u (List.mem_append_left _ hu)⟩, hb y (List.mem_append_right _ (List.mem_singleton_self y))⟩

theorem Standing.append {k : List ο} (h : Standing ends x (l ++ k)) : x ∈ k ∨ Standing ends x l := by
  induction k using List.reverseRecOn with
  | nil => exact .inr (by rwa [List.append_nil] at h)
  | append_singleton k y ih =>
    rw [← List.append_assoc] at h
    rcases h.concat with rfl | ⟨hold, -⟩
    · exact .inl (List.mem_append_right k (List.mem_singleton_self x))
    · rcases ih hold with hmem | hl
      · exact .inl (List.mem_append_left _ hmem)
      · exact .inr hl

end Sys

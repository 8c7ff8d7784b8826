import Mathlib
/-!
# Best — the least of what was found so far

A search that keeps the best candidate holds the least of those it has seen; a candidate is put in, and candidates that
are known to be no better are left out.
-/
namespace Best

variable {α : Type*} [LinearOrder α]

/-- `none` when nothing meets `P`, and otherwise the least that does. -/
def Least (P : α → Prop) : Option α → Prop
  | none => ∀ x, ¬P x
  | some m => P m ∧ ∀ x, P x → m ≤ x

variable {P Q : α → Prop} {best : Option α}

theorem Least.congr (h : Least P best) (heq : ∀ x, Q x ↔ P x) : Least Q best := by
  cases best with
  | none => exact fun x hx => h x ((heq x).1 hx)
  | some m => exact ⟨(heq m).2 h.1, fun x hx => h.2 x ((heq x).1 hx)⟩

theorem least_nothing : Least (fun _ : α => False) none := fun _ hx => hx

def better (best : Option α) (x : α) : Option α :=
  match best with
  | none => some x
  | some m => if x < m then some x else some m

/-- **A candidate is put in.** -/
theorem Least.insert (h : Least P best) (x : α) : Least (fun y => P y ∨ y = x) (better best x) := by
  cases best with
  | none =>
    refine ⟨.inr rfl, ?_⟩
    rintro y (hy | rfl)
    · exact absurd hy (h y)
    · exact le_refl y
  | some m =>
    obtain ⟨hm, hleast⟩ := h
    unfold better
    by_cases hlt : x < m
    · simp only [if_pos hlt]
      refine ⟨.inr rfl, ?_⟩
      rintro y (hy | rfl)
      · exact le_trans (le_of_lt hlt) (hleast y hy)
      · exact le_refl y
    · simp only [if_neg hlt]
      refine ⟨.inl hm, ?_⟩
      rintro y (hy | rfl)
      · exact hleast y hy
      · exact not_lt.1 hlt

/-- **Candidates that are no better** are left out. -/
theorem Least.bounded {m : α} (h : Least P (some m)) (hQ : ∀ x, Q x → m ≤ x) : Least (fun x => P x ∨ Q x) (some m) := by
  refine ⟨.inl h.1, ?_⟩
  rintro x (hx | hx)
  · exact h.2 x hx
  · exact hQ x hx

end Best

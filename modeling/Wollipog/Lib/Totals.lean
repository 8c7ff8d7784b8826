import Mathlib
import Wollipog.Lib.OrdMap
/-!
# Totals — sums over the rows of a table

What every row counts for, added up; what one insertion or one change of a row does to the sum.
-/
namespace OrdMap

variable {κ ν M : Type*} [AddCommMonoid M]

def total (f : κ → ν → M) (m : OrdMap κ ν) : M := (m.entries.map (fun e => f e.1 e.2)).sum

theorem total_add (f g : κ → ν → M) (m : OrdMap κ ν) : m.total (fun k v => f k v + g k v) = m.total f + m.total g := by
  unfold total
  exact List.sum_map_add

variable [DecidableEq κ]

theorem total_congr {f g : κ → ν → M} {m : OrdMap κ ν} (h : ∀ k v, m.get k = some v → f k v = g k v) :
    m.total f = m.total g := by
  unfold total
  congr 1
  apply List.map_congr_left
  intro e he
  exact h e.1 e.2 (get_of_mem he)

theorem total_keys (g : κ → M) (m : OrdMap κ ν) : m.total (fun k _ => g k) = ∑ k ∈ m.keys.toFinset, g k := by
  unfold total keys
  rw [List.sum_toFinset g m.nodup, List.map_map]
  rfl

/-- **Summing over a larger table** what the rows of a smaller one count for is summing over the smaller one. -/
theorem total_larger {μ : Type*} {f : κ → ν → M} {m : OrdMap κ ν} {n : OrdMap κ μ} (h : ∀ k v, m.get k = some v → k ∈ n.keys) :
    n.total (fun k _ => (m.get k).elim 0 (f k)) = m.total f := by
  have hsmall : m.total f = m.total (fun k _ => (m.get k).elim 0 (f k)) := by
    apply total_congr
    intro k v hv
    rw [hv, Option.elim_some]
  rw [hsmall, total_keys (fun k => (m.get k).elim 0 (f k)), total_keys (fun k => (m.get k).elim 0 (f k))]
  symm
  apply Finset.sum_subset
  · intro k hk
    rw [List.mem_toFinset] at hk ⊢
    obtain ⟨v, hv⟩ := mem_keys_iff.1 hk
    exact h k v hv
  · intro k _ hk
    rw [List.mem_toFinset] at hk
    rw [get_eq_none_iff.2 hk, Option.elim_none]

end OrdMap

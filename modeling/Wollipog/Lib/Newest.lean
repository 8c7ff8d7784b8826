import Mathlib.Order.Lattice
import Mathlib.Order.Defs.LinearOrder
import Mathlib.Data.List.Perm.Basic
/-!
# Newest — a register that keeps the value with the latest stamp

An offer replaces the held value unless the held stamp is later. When a stamp names one value, the order of the offers
does not matter.
-/
namespace Newest

variable {τ α : Type*} [LinearOrder τ]

def offer (held : Option (τ × α)) (x : τ × α) : Option (τ × α) :=
  match held with
  | none => some x
  | some y => if x.1 < y.1 then some y else some x

def latest (held : Option (τ × α)) (l : List (τ × α)) : Option (τ × α) := l.foldl offer held

def Seen (held : Option (τ × α)) (l : List (τ × α)) (x : τ × α) : Prop := held = some x ∨ x ∈ l

theorem offer_isSome (held : Option (τ × α)) (x : τ × α) : ∃ y, offer held x = some y := by
  unfold offer
  split
  · exact ⟨x, rfl⟩
  · split <;> exact ⟨_, rfl⟩

theorem offer_spec {held : Option (τ × α)} {x y : τ × α} (h : offer held x = some y) :
    (y = x ∨ held = some y) ∧ x.1 ≤ y.1 ∧ ∀ z, held = some z → z.1 ≤ y.1 := by
  unfold offer at h
  split at h
  · cases h
    exact ⟨.inl rfl, le_rfl, fun z hz => by cases hz⟩
  · rename_i w
    split at h
    · rename_i hlt
      cases h
      exact ⟨.inr rfl, hlt.le, fun z hz => by cases hz; exact le_rfl⟩
    · rename_i hge
      cases h
      exact ⟨.inl rfl, le_rfl, fun z hz => by cases hz; exact not_lt.1 hge⟩

/-- **What is held in the end** was seen, and no seen stamp is later. -/
theorem latest_spec : ∀ (l : List (τ × α)) (held : Option (τ × α)) (y : τ × α), latest held l = some y →
    Seen held l y ∧ ∀ x, Seen held l x → x.1 ≤ y.1
  | [], held, y, h => by
    have h' : held = some y := h
    refine ⟨.inl h', fun x hx => ?_⟩
    rcases hx with hx | hx
    · rw [h'] at hx
      cases hx
      exact le_rfl
    · exact absurd hx List.not_mem_nil
  | a :: l, held, y, h => by
    obtain ⟨w, hw⟩ := offer_isSome held a
    have hl : latest (some w) l = some y := by rw [← hw]; exact h
    obtain ⟨hseen, hmax⟩ := latest_spec l (some w) y hl
    obtain ⟨hfrom, ha, hheld⟩ := offer_spec hw
    have hwy : w.1 ≤ y.1 := hmax w (.inl rfl)
    constructor
    · rcases hseen with hy | hy
      · cases hy
        rcases hfrom with rfl | hold
        · exact .inr List.mem_cons_self
        · exact .inl hold
      · exact .inr (List.mem_cons_of_mem a hy)
    · intro x hx
      rcases hx with hx | hx
      · exact (hheld x hx).trans hwy
      · rcases List.mem_cons.1 hx with rfl | hx
        · exact ha.trans hwy
        · exact hmax x (.inr hx)

theorem latest_isSome : ∀ (l : List (τ × α)) (held : Option (τ × α)) (x : τ × α), Seen held l x → ∃ y, latest held l = some y
  | [], held, x, h => by
    rcases h with h | h
    · exact ⟨x, h⟩
    · exact absurd h List.not_mem_nil
  | a :: l, held, _, _ => by
    obtain ⟨w, hw⟩ := offer_isSome held a
    have hcons : latest held (a :: l) = latest (some w) l := by rw [← hw]; rfl
    rw [hcons]
    exact latest_isSome l (some w) w (.inl rfl)

def SingleValued (held : Option (τ × α)) (l : List (τ × α)) : Prop :=
  ∀ x y, Seen held l x → Seen held l y → x.1 = y.1 → x = y

/-- **The newest of what was seen is what is held**, when a stamp names one value. -/
theorem latest_eq {held : Option (τ × α)} {l : List (τ × α)} {x : τ × α} (hs : SingleValued held l) (hx : Seen held l x)
    (hmax : ∀ y, Seen held l y → y.1 ≤ x.1) : latest held l = some x := by
  obtain ⟨y, hy⟩ := latest_isSome l held x hx
  obtain ⟨hseen, hle⟩ := latest_spec l held y hy
  have hstamp : y.1 = x.1 := le_antisymm (hmax y hseen) (hle x hx)
  rw [hy, hs y x hseen hx hstamp]

/-- **Convergence**: the order of the offers does not matter. -/
theorem latest_perm {held : Option (τ × α)} {l k : List (τ × α)} (hs : SingleValued held l) (hp : l.Perm k) :
    latest held l = latest held k := by
  have hiff : ∀ x, Seen held l x ↔ Seen held k x := by
    intro x
    unfold Seen
    rw [hp.mem_iff]
  have hsk : SingleValued held k := fun x y hx hy hxy => hs x y ((hiff x).2 hx) ((hiff y).2 hy) hxy
  cases hl : latest held l with
  | some y =>
    obtain ⟨hseen, hmax⟩ := latest_spec l held y hl
    have heq := latest_eq hsk ((hiff y).1 hseen) (fun z hz => hmax z ((hiff z).2 hz))
    exact heq.symm
  | none =>
    cases hk : latest held k with
    | none => rfl
    | some y =>
      obtain ⟨hseen, -⟩ := latest_spec k held y hk
      obtain ⟨z, hz⟩ := latest_isSome l held y ((hiff y).2 hseen)
      rw [hl] at hz
      cases hz

end Newest

import Mathlib.Order.Basic
import Mathlib.Data.List.Basic
/-!
# Segment — the part of a keyed log behind a cursor

A log is a list with rising keys; `segment key l a b` is what stands in it behind `a` and up to `b`.
-/
namespace Segment

variable {α : Type*} {key : α → Int}

def segment (key : α → Int) (l : List α) (a b : Int) : List α := l.filter (fun x => decide (a < key x) && decide (key x ≤ b))

def Rising (key : α → Int) (l : List α) : Prop := l.Pairwise (fun x y => key x < key y)

theorem mem_segment {l : List α} {a b : Int} {x : α} : x ∈ segment key l a b ↔ x ∈ l ∧ a < key x ∧ key x ≤ b := by
  unfold segment
  rw [List.mem_filter, Bool.and_eq_true, decide_eq_true_eq, decide_eq_true_eq]

theorem segment_eq_nil {l : List α} {a b : Int} (h : b ≤ a) : segment key l a b = [] := by
  rw [List.eq_nil_iff_forall_not_mem]
  intro x hx
  obtain ⟨-, hlow, hhigh⟩ := mem_segment.1 hx
  omega

theorem segment_beyond {l : List α} {a b : Int} (h : ∀ x ∈ l, b < key x) : segment key l a b = [] := by
  rw [List.eq_nil_iff_forall_not_mem]
  intro x hx
  obtain ⟨hmem, -, hle⟩ := mem_segment.1 hx
  have hlt := h x hmem
  omega

theorem segment_cons (x : α) (l : List α) (a b : Int) :
    segment key (x :: l) a b = if a < key x ∧ key x ≤ b then x :: segment key l a b else segment key l a b := by
  unfold segment
  rw [List.filter_cons]
  by_cases h : a < key x ∧ key x ≤ b
  · rw [if_pos h, if_pos (by simpa using h)]
  · rw [if_neg h, if_neg (by simpa using h)]

/-- **Adjacent segments make one.** -/
theorem segment_append {l : List α} (h : Rising key l) {a b c : Int} (hab : a ≤ b) (hbc : b ≤ c) :
    segment key l a b ++ segment key l b c = segment key l a c := by
  induction l with
  | nil => rfl
  | cons x l ih =>
    have hrest := ih (List.pairwise_cons.1 h).2
    rw [segment_cons, segment_cons, segment_cons]
    by_cases hb : key x ≤ b
    · rw [if_neg (show ¬(b < key x ∧ key x ≤ c) by omega)]
      by_cases ha : a < key x
      · rw [if_pos ⟨ha, hb⟩, if_pos ⟨ha, Int.le_trans hb hbc⟩, List.cons_append, hrest]
      · rw [if_neg (fun h => ha h.1), if_neg (fun h => ha h.1), hrest]
    · -- the keys behind `x` are beyond the first segment
      have hempty : segment key l a b = [] :=
        segment_beyond (fun y hy => Int.lt_trans (Int.not_le.1 hb) ((List.pairwise_cons.1 h).1 y hy))
      rw [if_neg (show ¬(a < key x ∧ key x ≤ b) by omega), hempty, List.nil_append]
      rw [hempty, List.nil_append] at hrest
      rw [hrest]
      by_cases hc : key x ≤ c
      · rw [if_pos ⟨by omega, hc⟩, if_pos ⟨by omega, hc⟩]
      · rw [if_neg (fun h => hc h.2), if_neg (fun h => hc h.2)]

theorem segment_prefix {l : List α} (h : Rising key l) (a b : Int) :
    segment key l a b <+: l.filter (fun x => decide (a < key x)) := by
  induction l with
  | nil => exact List.prefix_refl _
  | cons x l ih =>
    have hrest := ih (List.pairwise_cons.1 h).2
    rw [segment_cons]
    by_cases ha : a < key x
    · rw [List.filter_cons_of_pos (by simpa using ha)]
      by_cases hb : key x ≤ b
      · rw [if_pos ⟨ha, hb⟩]
        exact (List.prefix_cons_inj x).2 hrest
      · have hempty : segment key l a b = [] :=
          segment_beyond (fun y hy => Int.lt_trans (Int.not_le.1 hb) ((List.pairwise_cons.1 h).1 y hy))
        rw [if_neg (fun h => hb h.2), hempty]
        exact List.nil_prefix
    · rw [List.filter_cons_of_neg (by simpa using ha), if_neg (fun h => ha h.1)]
      exact hrest

end Segment

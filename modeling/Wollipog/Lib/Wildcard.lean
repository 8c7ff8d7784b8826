import Mathlib.Data.List.Basic
/-!
# Wildcard — patterns of single characters and runs of a class

A pattern is a list of tokens; it denotes the texts that split along it.  `run` decides it by trying every length of a
run (`run_iff`).
-/
namespace Wildcard

variable {α : Type*} [DecidableEq α]

inductive Token (α : Type*)
  | one (c : α)
  /-- Any number of characters of a class. -/
  | many (p : α → Bool)

def star (p : α → Bool) (rest : List α → Bool) : List α → Bool
  | [] => rest []
  | c :: s => rest (c :: s) || (p c && star p rest s)

def run : List (Token α) → List α → Bool
  | [], s => s.isEmpty
  | .one _ :: _, [] => false
  | .one c :: ts, c' :: s => decide (c = c') && run ts s
  | .many p :: ts, s => star p (run ts) s

inductive Denotes : List (Token α) → List α → Prop
  | nil : Denotes [] []
  | one {c : α} {ts : List (Token α)} {s : List α} (h : Denotes ts s) : Denotes (.one c :: ts) (c :: s)
  | many {p : α → Bool} {ts : List (Token α)} {u s : List α} (hu : ∀ c ∈ u, p c = true) (h : Denotes ts s) : Denotes (.many p :: ts) (u ++ s)

omit [DecidableEq α] in
theorem star_iff (p : α → Bool) (rest : List α → Bool) : ∀ s : List α,
    star p rest s = true ↔ ∃ u v, s = u ++ v ∧ (∀ c ∈ u, p c = true) ∧ rest v = true
  | [] => by
    constructor
    · intro h
      exact ⟨[], [], rfl, List.forall_mem_nil _, h⟩
    · rintro ⟨u, v, hs, -, hrest⟩
      obtain ⟨rfl, rfl⟩ := List.append_eq_nil_iff.1 hs.symm
      exact hrest
  | c :: s => by
    rw [star, Bool.or_eq_true, Bool.and_eq_true, star_iff p rest s]
    constructor
    · rintro (hrest | ⟨hc, u, v, rfl, hu, hrest⟩)
      · exact ⟨[], c :: s, rfl, List.forall_mem_nil _, hrest⟩
      · refine ⟨c :: u, v, rfl, fun x hx => ?_, hrest⟩
        rcases List.mem_cons.1 hx with rfl | hx
        · exact hc
        · exact hu x hx
    · rintro ⟨u, v, hs, hu, hrest⟩
      cases u with
      | nil =>
        rw [List.nil_append] at hs
        exact .inl (hs ▸ hrest)
      | cons x u =>
        rw [List.cons_append, List.cons.injEq] at hs
        obtain ⟨rfl, rfl⟩ := hs
        exact .inr ⟨hu c List.mem_cons_self, u, v, rfl, fun y hy => hu y (List.mem_cons_of_mem c hy), hrest⟩

/-- **Running a pattern decides what it denotes.** -/
theorem run_iff (ts : List (Token α)) : ∀ s : List α, run ts s = true ↔ Denotes ts s := by
  induction ts with
  | nil =>
    intro s
    rw [run, List.isEmpty_iff]
    constructor
    · rintro rfl
      exact .nil
    · intro h
      cases h
      rfl
  | cons t ts ih =>
    intro s
    cases t with
    | one c =>
      cases s with
      | nil =>
        constructor
        · intro h
          cases h
        · intro h
          cases h
      | cons c' s =>
        rw [run, Bool.and_eq_true, decide_eq_true_iff, ih]
        constructor
        · rintro ⟨rfl, h⟩
          exact .one h
        · intro h
          cases h with
          | one h => exact ⟨rfl, h⟩
    | many p =>
      rw [run, star_iff]
      constructor
      · rintro ⟨u, v, rfl, hu, hv⟩
        exact .many hu ((ih v).1 hv)
      · intro h
        cases h with
        | many hu h => exact ⟨_, _, rfl, hu, (ih _).2 h⟩

end Wildcard

import Mathlib.Algebra.BigOperators.Group.List.Basic
import Mathlib.Tactic.Abel
/-!
# Tally — tables of rows by key, and what their rows add up to

`upsert` changes the row of a key, from a default when there is none. A total of a measure that is zero on the default
changes by the difference at that row.
-/
namespace Tally

variable {κ α β : Type*} [DecidableEq κ]

def get (d : α) (k : κ) : List (κ × α) → α
  | [] => d
  | (k', a) :: rows => if k' = k then a else get d k rows

def upsert (d : α) (k : κ) (f : α → α) : List (κ × α) → List (κ × α)
  | [] => [(k, f d)]
  | (k', a) :: rows => if k' = k then (k', f a) :: rows else (k', a) :: upsert d k f rows

def total [AddMonoid β] (g : κ → α → β) (rows : List (κ × α)) : β := (rows.map (fun r => g r.1 r.2)).sum

theorem get_upsert_self (d : α) (k : κ) (f : α → α) (rows : List (κ × α)) : get d k (upsert d k f rows) = f (get d k rows) := by
  induction rows with
  | nil => simp [upsert, get]
  | cons r rows ih =>
    obtain ⟨k', a⟩ := r
    by_cases hk : k' = k
    · simp [upsert, get, hk]
    · simp [upsert, get, hk, ih]

theorem get_upsert_of_ne (d : α) {k j : κ} (h : j ≠ k) (f : α → α) (rows : List (κ × α)) :
    get d j (upsert d k f rows) = get d j rows := by
  induction rows with
  | nil => simp [upsert, get, h.symm]
  | cons r rows ih =>
    obtain ⟨k', a⟩ := r
    by_cases hk : k' = k
    · subst hk
      simp [upsert, get, h.symm]
    · rw [upsert, if_neg hk]
      by_cases hj : k' = j
      · simp [get, hj]
      · simp [get, hj, ih]

theorem upsert_eq_self {d : α} {k : κ} {f : α → α} : ∀ {rows : List (κ × α)}, k ∈ rows.map Prod.fst → f (get d k rows) = get d k rows →
    upsert d k f rows = rows
  | [], hk, _ => absurd hk List.not_mem_nil
  | (k', a) :: rows, hk, hf => by
    by_cases hkk : k' = k
    · rw [get, if_pos hkk] at hf
      rw [upsert, if_pos hkk, hf]
    · rw [get, if_neg hkk] at hf
      rw [List.map_cons, List.mem_cons] at hk
      rw [upsert, if_neg hkk, upsert_eq_self (hk.resolve_left (Ne.symm hkk)) hf]

theorem mem_keys_upsert (d : α) (k : κ) (f : α → α) (rows : List (κ × α)) : k ∈ (upsert d k f rows).map Prod.fst := by
  induction rows with
  | nil => exact List.mem_singleton.2 rfl
  | cons r rows ih =>
    obtain ⟨k', a⟩ := r
    rw [upsert]
    split
    · rename_i hk
      rw [List.map_cons, hk]
      exact List.mem_cons_self
    · rw [List.map_cons]
      exact List.mem_cons_of_mem _ ih

/-- **A change moves the total by the difference at its row.** -/
theorem total_upsert [AddCommGroup β] (g : κ → α → β) {d : α} {k : κ} (hd : g k d = 0) (f : α → α) (rows : List (κ × α)) :
    total g (upsert d k f rows) = total g rows + (g k (f (get d k rows)) - g k (get d k rows)) := by
  induction rows with
  | nil => simp [upsert, get, total, hd]
  | cons r rows ih =>
    obtain ⟨k', a⟩ := r
    by_cases hk : k' = k
    · subst hk
      simp only [upsert, get, if_true, total, List.map_cons, List.sum_cons]
      abel
    · simp only [upsert, get, if_neg hk, total, List.map_cons, List.sum_cons] at ih ⊢
      rw [ih, add_assoc]

theorem total_add [AddCommGroup α] [AddCommGroup β] (g : κ → α →+ β) (k : κ) (v : α) (rows : List (κ × α)) :
    total (fun j => g j) (upsert 0 k (· + v) rows) = total (fun j => g j) rows + g k v := by
  rw [total_upsert (fun j => g j) (map_zero (g k)), map_add]
  abel

theorem total_split [AddCommMonoid β] (g : κ → α → β) (p : κ × α → Bool) (rows : List (κ × α)) :
    total g rows = total g (rows.filter p) + total g (rows.filter (fun r => !p r)) := by
  induction rows with
  | nil => simp [total]
  | cons r rows ih =>
    unfold total at ih ⊢
    cases hp : p r
    · simp only [List.filter_cons, hp, Bool.not_false, if_true, List.map_cons, List.sum_cons, ih]
      simp only [Bool.false_eq_true, if_false]
      rw [add_left_comm]
    · simp only [List.filter_cons, hp, Bool.not_true, if_true, List.map_cons, List.sum_cons, ih]
      simp only [Bool.false_eq_true, if_false]
      rw [add_assoc]

def addAll [Add α] [Zero α] (rows table : List (κ × α)) : List (κ × α) :=
  rows.foldl (fun t r => upsert 0 r.1 (· + r.2) t) table

theorem total_addAll [AddCommGroup α] [AddCommGroup β] (g : α →+ β) (rows : List (κ × α)) :
    ∀ table : List (κ × α), total (fun _ => g) (addAll rows table) = total (fun _ => g) table + total (fun _ => g) rows := by
  induction rows with
  | nil => intro table; simp [addAll, total]
  | cons r rows ih =>
    intro table
    have hone := total_add (fun _ : κ => g) r.1 r.2 table
    unfold addAll at ih ⊢
    rw [List.foldl_cons, ih, hone]
    simp only [total, List.map_cons, List.sum_cons]
    rw [add_assoc]

end Tally

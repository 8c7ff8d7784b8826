import Mathlib
/-!
# First — the first element of each kind, in order

`firstBy key l` keeps of a list the first element with each key, as a `Set` of the keys seen does.
-/
namespace First

variable {α κ : Type} [DecidableEq κ]

def firstFrom (key : α → κ) : List κ → List α → List α
  | _, [] => []
  | seen, x :: l => if key x ∈ seen then firstFrom key seen l else x :: firstFrom key (key x :: seen) l

def firstBy (key : α → κ) (l : List α) : List α := firstFrom key [] l

variable {key : α → κ} {seen : List κ} {l : List α} {x : α}

theorem mem_of_mem_firstFrom : ∀ (l : List α) {seen : List κ}, x ∈ firstFrom key seen l → x ∈ l ∧ key x ∉ seen
  | [], _, h => absurd h List.not_mem_nil
  | a :: l, seen, h => by
    unfold firstFrom at h
    split at h
    · obtain ⟨hx, hseen⟩ := mem_of_mem_firstFrom l h
      exact ⟨List.mem_cons_of_mem a hx, hseen⟩
    · rename_i hnew
      rcases List.mem_cons.1 h with rfl | h
      · exact ⟨List.mem_cons_self, hnew⟩
      · obtain ⟨hx, hseen⟩ := mem_of_mem_firstFrom l h
        exact ⟨List.mem_cons_of_mem a hx, fun hin => hseen (List.mem_cons_of_mem _ hin)⟩

/-- **Every kind is kept** that was not seen before. -/
theorem exists_firstFrom : ∀ (l : List α) {seen : List κ}, x ∈ l → key x ∉ seen → ∃ y ∈ firstFrom key seen l, key y = key x
  | a :: l, seen, hx, hseen => by
    unfold firstFrom
    rcases List.mem_cons.1 hx with rfl | hx
    · rw [if_neg hseen]
      exact ⟨x, List.mem_cons_self, rfl⟩
    · split
      · exact exists_firstFrom l hx hseen
      · by_cases hsame : key x = key a
        · exact ⟨a, List.mem_cons_self, hsame.symm⟩
        · have hout : key x ∉ key a :: seen := by
            rw [List.mem_cons]
            rintro (h | h)
            · exact hsame h
            · exact hseen h
          obtain ⟨y, hy, hkey⟩ := exists_firstFrom l hx hout
          exact ⟨y, List.mem_cons_of_mem a hy, hkey⟩

theorem mem_of_mem_firstBy (h : x ∈ firstBy key l) : x ∈ l := (mem_of_mem_firstFrom l h).1

theorem exists_firstBy (h : x ∈ l) : ∃ y ∈ firstBy key l, key y = key x := exists_firstFrom l h List.not_mem_nil

end First

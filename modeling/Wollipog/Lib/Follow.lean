import Mathlib
/-!
# Follow — the cycles that following one link finds

Every element has at most one next one.  Following the links from an element until one repeats gives the members of the
cycle it runs into.
-/
namespace Follow

open Relation (ReflTransGen TransGen)

variable {α : Type} [DecidableEq α] (next : α → Option α)

/-- The cycle that the walk runs into, empty where it ends; `none` where the steps run out. -/
def walk : ℕ → List α → α → Option (List α)
  | 0, _, _ => none
  | n + 1, path, cursor =>
    if cursor ∈ path then some (path.dropWhile (fun x => decide (x ≠ cursor)))
    else
      match next cursor with
      | none => some []
      | some following => walk n (path ++ [cursor]) following

variable {next} {start cursor x y : α} {path : List α}

def Link (next : α → Option α) (a b : α) : Prop := next a = some b

def Leads (next : α → Option α) (path : List α) (cursor : α) : Prop :=
  ∀ pre x post, path = pre ++ x :: post → next x = (post ++ [cursor]).head?

omit [DecidableEq α] in
theorem Leads.snoc {following : α} (h : Leads next path cursor) (hnext : next cursor = some following) :
    Leads next (path ++ [cursor]) following := by
  intro pre x post hsplit
  rcases List.eq_nil_or_concat' post with rfl | ⟨post, y, rfl⟩
  · obtain ⟨-, hx⟩ := List.append_inj' hsplit rfl
    obtain rfl := List.singleton_injective hx
    exact hnext
  · rw [← List.cons_append, ← List.append_assoc] at hsplit
    obtain ⟨hpath, hy⟩ := List.append_inj' hsplit rfl
    obtain rfl := List.singleton_injective hy
    rw [h pre x post hpath]
    cases post <;> rfl

omit [DecidableEq α] in
theorem returns (hcycle : TransGen (Link next) start start) (h : ReflTransGen (Link next) start x) : ReflTransGen (Link next) x start := by
  induction h with
  | refl => exact hcycle.to_reflTransGen
  | tail _ hlink ih =>
    have hfirst : ∀ {a b : α}, ReflTransGen (Link next) a start → Link next a b → a ≠ start → ReflTransGen (Link next) b start := by
      intro a b hback hab hne
      rcases ReflTransGen.cases_head hback with rfl | ⟨c, hac, hrest⟩
      · exact absurd rfl hne
      · obtain rfl : c = b := Option.some.inj (hac.symm.trans hab)
        exact hrest
    rename_i b c _
    by_cases hb : b = start
    · subst hb
      obtain ⟨d, hd, hrest⟩ := TransGen.head'_iff.1 hcycle
      obtain rfl : d = c := Option.some.inj (hd.symm.trans hlink)
      exact hrest
    · exact hfirst ih hlink hb

theorem closed_slice (hleads : Leads next path cursor) (hmem : cursor ∈ path) :
    cursor ∈ path.dropWhile (fun x => decide (x ≠ cursor)) ∧
      ∀ a ∈ path.dropWhile (fun x => decide (x ≠ cursor)), ∀ b, Link next a b → b ∈ path.dropWhile (fun x => decide (x ≠ cursor)) := by
  obtain ⟨pre, hpre⟩ := List.dropWhile_suffix (fun x => decide (x ≠ cursor)) (l := path)
  obtain ⟨tail, htail⟩ : ∃ tail, path.dropWhile (fun x => decide (x ≠ cursor)) = cursor :: tail := by
    cases hdrop : path.dropWhile (fun x => decide (x ≠ cursor)) with
    | nil =>
      rw [List.dropWhile_eq_nil_iff] at hdrop
      exact absurd (hdrop cursor hmem) (by simp)
    | cons c tail =>
      have hhead := List.head?_dropWhile_not (fun x => decide (x ≠ cursor)) path
      rw [hdrop] at hhead
      have hc : c = cursor := by simpa using hhead
      exact ⟨tail, by rw [hc]⟩
  rw [htail] at hpre ⊢
  refine ⟨List.mem_cons_self, fun a ha b hlink => ?_⟩
  obtain ⟨front, back, hsplit⟩ := List.append_of_mem ha
  have hstep := hleads (pre ++ front) a back (by rw [← hpre, hsplit, List.append_assoc])
  rw [hlink] at hstep
  cases back with
  | nil =>
    obtain rfl : b = cursor := Option.some.inj hstep
    exact List.mem_cons_self
  | cons c back =>
    obtain rfl : b = c := Option.some.inj hstep
    rw [hsplit]
    exact List.mem_append_right _ (List.mem_cons_of_mem _ List.mem_cons_self)

omit [DecidableEq α] in
theorem within {s : List α} (hclosed : ∀ a ∈ s, ∀ b, Link next a b → b ∈ s) (h : ReflTransGen (Link next) x y) (hx : x ∈ s) : y ∈ s := by
  induction h with
  | refl => exact hx
  | tail _ hlink ih => exact hclosed _ ih _ hlink

/-- **An element of a cycle is among what its walk finds.** -/
theorem mem_walk (hcycle : TransGen (Link next) start start) : ∀ (n : ℕ) {path : List α} {cursor : α} {found : List α},
    Leads next path cursor → ReflTransGen (Link next) start cursor → walk next n path cursor = some found → start ∈ found
  | 0, _, _, _, _, _, h => by cases h
  | n + 1, path, cursor, found, hleads, hpath, h => by
    rw [walk] at h
    have hback := returns hcycle hpath
    by_cases hmem : cursor ∈ path
    · rw [if_pos hmem] at h
      cases h
      obtain ⟨hcursor, hclosed⟩ := closed_slice hleads hmem
      exact within hclosed hback hcursor
    · rw [if_neg hmem] at h
      have hlink : ∃ following, next cursor = some following := by
        rcases ReflTransGen.cases_head hback with rfl | ⟨following, hlink, -⟩
        · obtain ⟨following, hlink, -⟩ := TransGen.head'_iff.1 hcycle
          exact ⟨following, hlink⟩
        · exact ⟨following, hlink⟩
      obtain ⟨following, hlink⟩ := hlink
      rw [hlink] at h
      exact mem_walk hcycle n (hleads.snoc hlink) (hpath.tail hlink) h

/-- **Every walk ends**: its path has no element twice, and none outside the linked ones. -/
theorem walk_isSome {nodes : List α} (hnext : ∀ a b, next a = some b → b ∈ nodes) : ∀ (n : ℕ) {path : List α} {cursor : α},
    path.Nodup → (∀ x ∈ path, x ∈ nodes) → cursor ∈ nodes → nodes.length < path.length + n → (walk next n path cursor).isSome = true
  | 0, path, cursor, hnodup, hpath, _, hlt => by
    have hle := (hnodup.subperm hpath).length_le
    omega
  | n + 1, path, cursor, hnodup, hpath, hcursor, hlt => by
    rw [walk]
    by_cases hmem : cursor ∈ path
    · rw [if_pos hmem]
      rfl
    · rw [if_neg hmem]
      cases hlink : next cursor with
      | none => rfl
      | some following =>
        refine walk_isSome hnext n ?_ ?_ (hnext cursor following hlink) ?_
        · rw [← List.concat_eq_append]
          exact hnodup.concat hmem
        · intro x hx
          rcases List.mem_append.1 hx with hx | hx
          · exact hpath x hx
          · exact List.mem_singleton.1 hx ▸ hcursor
        · rw [List.length_append, List.length_singleton]
          omega

end Follow

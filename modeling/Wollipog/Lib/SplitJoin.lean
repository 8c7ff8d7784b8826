import Mathlib
/-!
# SplitJoin — a text split at every occurrence of another, and joined with a third

`replaceAll v r` is `text.split(v).join(r)`. Where `r` stands in marks that a text `w` lacks, joining makes no
occurrence of `w`.
-/
namespace SplitJoin

variable {α : Type} [DecidableEq α]

/-- `text.split(v)`; the fuel is the length of the text. -/
def splitFrom (v : List α) : ℕ → List α → List (List α)
  | 0, s => [s]
  | _ + 1, [] => [[]]
  | n + 1, c :: cs =>
    if v.isPrefixOf (c :: cs) then [] :: splitFrom v n ((c :: cs).drop v.length)
    else
      match splitFrom v n cs with
      | [] => [[c]]
      | p :: ps => (c :: p) :: ps

def split (v s : List α) : List (List α) := splitFrom v s.length s

def replaceAll (v r s : List α) : List α := r.intercalate (split v s)

/-- **The pieces of a split** are parts of the text, the first its beginning, and none holds what it was split at. -/
theorem splitFrom_spec {v : List α} (hv : v ≠ []) : ∀ (n : ℕ) (s : List α), s.length ≤ n →
    ∃ p ps, splitFrom v n s = p :: ps ∧ p <+: s ∧ ∀ q ∈ p :: ps, q <:+: s ∧ ¬v <:+: q
  | 0, s, h => by
    obtain rfl := List.length_eq_zero_iff.1 (Nat.le_zero.1 h)
    refine ⟨[], [], rfl, List.prefix_rfl, fun q hq => ?_⟩
    rw [List.mem_singleton.1 hq]
    exact ⟨List.infix_rfl, fun hin => hv (List.eq_nil_of_infix_nil hin)⟩
  | n + 1, [], _ => by
    refine ⟨[], [], rfl, List.prefix_rfl, fun q hq => ?_⟩
    rw [List.mem_singleton.1 hq]
    exact ⟨List.infix_rfl, fun hin => hv (List.eq_nil_of_infix_nil hin)⟩
  | n + 1, c :: cs, h => by
    rw [splitFrom]
    by_cases hhere : v.isPrefixOf (c :: cs) = true
    · rw [if_pos hhere]
      have hshorter : ((c :: cs).drop v.length).length ≤ n := by
        have hpos := List.length_pos_iff.2 hv
        rw [List.length_drop]
        omega
      obtain ⟨p, ps, hsplit, -, hall⟩ := splitFrom_spec hv n ((c :: cs).drop v.length) hshorter
      refine ⟨[], p :: ps, by rw [hsplit], List.nil_prefix, fun q hq => ?_⟩
      rcases List.mem_cons.1 hq with rfl | hq
      · exact ⟨List.nil_infix, fun hin => hv (List.eq_nil_of_infix_nil hin)⟩
      · exact ⟨(hall q hq).1.trans (List.drop_suffix _ _).isInfix, (hall q hq).2⟩
    · rw [if_neg hhere]
      obtain ⟨p, ps, hsplit, hbegin, hall⟩ := splitFrom_spec hv n cs (by simpa using h)
      rw [hsplit]
      refine ⟨c :: p, ps, rfl, List.cons_prefix_cons.2 ⟨rfl, hbegin⟩, fun q hq => ?_⟩
      rcases List.mem_cons.1 hq with rfl | hq
      · refine ⟨(List.cons_prefix_cons.2 ⟨rfl, hbegin⟩).isInfix, fun hin => ?_⟩
        -- an occurrence at the head would have been split at
        rcases List.infix_cons_iff.1 hin with hhead | htail
        · exact hhere (List.isPrefixOf_iff_prefix.2 (hhead.trans (List.cons_prefix_cons.2 ⟨rfl, hbegin⟩)))
        · exact (hall p List.mem_cons_self).2 htail
      · have hrest := hall q (List.mem_cons_of_mem _ hq)
        exact ⟨List.infix_cons hrest.1, hrest.2⟩

theorem absent_split {v s : List α} (hv : v ≠ []) : ∀ q ∈ split v s, ¬v <:+: q := by
  obtain ⟨p, ps, hsplit, -, hall⟩ := splitFrom_spec hv s.length s le_rfl
  intro q hq
  rw [split, hsplit] at hq
  exact (hall q hq).2

theorem infix_split {v s : List α} (hv : v ≠ []) : ∀ q ∈ split v s, q <:+: s := by
  obtain ⟨p, ps, hsplit, -, hall⟩ := splitFrom_spec hv s.length s le_rfl
  intro q hq
  rw [split, hsplit] at hq
  exact (hall q hq).1

omit [DecidableEq α] in
theorem infix_mark {w a c : List α} {m : α} (hm : m ∉ w) (h : w <:+: a ++ m :: c) : w <:+: a ∨ w <:+: c := by
  obtain ⟨front, back, hsplit⟩ := h
  rw [List.append_assoc] at hsplit
  rcases List.append_eq_append_iff.1 hsplit with ⟨x, ha, hrest⟩ | ⟨x, hfront, hrest⟩
  · -- the text begins before the mark, so it ends before it
    rcases List.append_eq_append_iff.1 hrest with ⟨y, hx, -⟩ | ⟨y, hw, hback⟩
    · exact .inl ⟨front, y, by rw [ha, hx, List.append_assoc]⟩
    · cases y with
      | nil => exact .inl ⟨front, [], by rw [ha, hw, List.append_nil, List.append_nil]⟩
      | cons b y =>
        obtain ⟨rfl, -⟩ := List.cons.inj hback
        exact absurd (hw ▸ List.mem_append_cons_self) hm
  · cases x with
    | nil =>
      -- the text begins at the mark, so it is empty
      cases w with
      | nil => exact .inl List.nil_infix
      | cons b w =>
        obtain ⟨rfl, -⟩ := List.cons.inj hrest
        exact absurd List.mem_cons_self hm
    | cons b x =>
      obtain ⟨-, hc⟩ := List.cons.inj hrest
      exact .inr ⟨x, back, by rw [hc, List.append_assoc]; rfl⟩

omit [DecidableEq α] in
/-- **Joining makes no occurrence** of a text that lacks the marks around what it joins with. -/
theorem absent_intercalate {w mid : List α} {o c : α} (hw : w ≠ []) (ho : o ∉ w) (hc : c ∉ w) (hmid : ¬w <:+: mid) :
    ∀ (ps : List (List α)), (∀ p ∈ ps, ¬w <:+: p) → ¬w <:+: (o :: mid ++ [c]).intercalate ps
  | [], _, h => hw (List.eq_nil_of_infix_nil h)
  | [p], hps, h => by
    rw [List.intercalate_singleton] at h
    exact hps p List.mem_cons_self h
  | p :: q :: ps, hps, h => by
    rw [List.intercalate_cons_cons, List.append_assoc, List.append_assoc, List.cons_append] at h
    rcases infix_mark ho h with hp | hrest
    · exact hps p List.mem_cons_self hp
    rw [List.singleton_append] at hrest
    rcases infix_mark hc hrest with hin | hrest
    · exact hmid hin
    · exact absent_intercalate hw ho hc hmid (q :: ps) (fun x hx => hps x (List.mem_cons_of_mem _ hx)) hrest

/-- **Parts that lack what separates them** are read back from their join. -/
theorem intercalate_inj {sep : α} {l k : List (List α)} (hl : ∀ x ∈ l, sep ∉ x ∧ x ≠ []) (hk : ∀ x ∈ k, sep ∉ x ∧ x ≠ [])
    (h : [sep].intercalate l = [sep].intercalate k) : l = k := by
  have hsome : ∀ {x : List α} {xs : List (List α)}, (∀ y ∈ x :: xs, sep ∉ y ∧ y ≠ []) →
      [sep].intercalate (x :: xs) ≠ [] := by
    intro x xs hx
    have hne := (hx x List.mem_cons_self).2
    cases xs with
    | nil =>
      rw [List.intercalate_singleton]
      exact hne
    | cons y ys =>
      rw [List.intercalate_cons_cons]
      exact List.append_ne_nil_of_left_ne_nil (List.append_ne_nil_of_left_ne_nil hne _) _
  cases l with
  | nil =>
    cases k with
    | nil => rfl
    | cons y ys => exact absurd h.symm (hsome hk)
  | cons x xs =>
    cases k with
    | nil => exact absurd h (hsome hl)
    | cons y ys =>
      rw [← List.splitOn_intercalate sep (fun z hz => (hl z hz).1) (List.cons_ne_nil x xs), h,
        List.splitOn_intercalate sep (fun z hz => (hk z hz).1) (List.cons_ne_nil y ys)]

end SplitJoin

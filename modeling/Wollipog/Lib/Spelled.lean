import Wollipog.Lib.Lower
/-!
# Spelled — the characters of a matched text

A text that an expression matches as a whole is spelled with the characters of the expression's classes.
-/
namespace Regex

/-- Every class of the expression lies in `p`. -/
def Spelled (p : Char → Prop) : Regex → Prop
  | .cls q => ∀ c, q c = true → p c
  | .many q => ∀ c, q c = true → p c
  | .seq a b => a.Spelled p ∧ b.Spelled p
  | .alt a b => a.Spelled p ∧ b.Spelled p
  | _ => True

variable {p : Char → Prop}

theorem runs_spelled {q : Char → Bool} (h : ∀ c, q c = true → p c) : ∀ (cs : List Char) (prev : Option Char) (pos : Pos),
    pos ∈ runs q prev cs → ∃ w, cs = w ++ pos.2 ∧ ∀ c ∈ w, p c
  | [], prev, pos, hpos => by
    unfold runs at hpos
    rw [List.mem_singleton] at hpos
    subst hpos
    exact ⟨[], rfl, List.forall_mem_nil _⟩
  | c :: cs, prev, pos, hpos => by
    unfold runs at hpos
    rcases List.mem_cons.1 hpos with rfl | hpos
    · exact ⟨[], rfl, List.forall_mem_nil _⟩
    · split at hpos
      · rename_i hc
        obtain ⟨w, hw, hall⟩ := runs_spelled h cs (some c) pos hpos
        refine ⟨c :: w, by rw [List.cons_append, ← hw], ?_⟩
        intro d hd
        rcases List.mem_cons.1 hd with rfl | hd
        · exact h d hc
        · exact hall d hd
      · exact absurd hpos List.not_mem_nil

theorem mem_ends_seq {a b : Regex} {at_ pos : Pos} (h : pos ∈ (Regex.seq a b).ends at_) : ∃ mid ∈ a.ends at_, pos ∈ b.ends mid := by
  unfold ends at h
  exact List.mem_flatMap.1 h

theorem spelled_here {b : Bool} {at_ pos : Pos} (h : pos ∈ if b then [at_] else []) : ∃ w, at_.2 = w ++ pos.2 ∧ ∀ c ∈ w, p c := by
  split at h
  · rw [show pos = at_ from List.mem_singleton.1 h]
    exact ⟨[], rfl, List.forall_mem_nil _⟩
  · exact absurd h List.not_mem_nil

/-- **What a match passes over** is spelled with the expression's classes. -/
theorem ends_spelled : ∀ (r : Regex), r.Spelled p → ∀ (at_ pos : Pos), pos ∈ r.ends at_ → ∃ w, at_.2 = w ++ pos.2 ∧ ∀ c ∈ w, p c
  | .empty, _, at_, pos, hpos => by
    rw [show pos = at_ from List.mem_singleton.1 hpos]
    exact ⟨[], rfl, List.forall_mem_nil _⟩
  | .cls q, h, (prev, []), pos, hpos => absurd hpos List.not_mem_nil
  | .cls q, h, (prev, c :: cs), pos, hpos => by
    have hin : ∀ c, q c = true → p c := h
    unfold ends at hpos
    split at hpos
    · rename_i hc
      rw [List.mem_singleton] at hpos
      subst hpos
      refine ⟨[c], rfl, fun d hd => ?_⟩
      rw [List.mem_singleton] at hd
      subst hd
      exact hin d hc
    · exact absurd hpos List.not_mem_nil
  | .seq a b, h, at_, pos, hpos => by
    obtain ⟨ha, hb⟩ : a.Spelled p ∧ b.Spelled p := h
    obtain ⟨mid, hmid, hpos⟩ := mem_ends_seq hpos
    obtain ⟨w, hw, hall⟩ := ends_spelled a ha at_ mid hmid
    obtain ⟨w', hw', hall'⟩ := ends_spelled b hb mid pos hpos
    refine ⟨w ++ w', by rw [hw, hw', List.append_assoc], ?_⟩
    intro c hc
    rcases List.mem_append.1 hc with hc | hc
    · exact hall c hc
    · exact hall' c hc
  | .alt a b, h, at_, pos, hpos => by
    obtain ⟨ha, hb⟩ : a.Spelled p ∧ b.Spelled p := h
    unfold ends at hpos
    rcases List.mem_append.1 hpos with hpos | hpos
    · exact ends_spelled a ha at_ pos hpos
    · exact ends_spelled b hb at_ pos hpos
  | .many q, h, (prev, cs), pos, hpos => runs_spelled h cs prev pos hpos
  | .start, _, _, _, hpos => spelled_here hpos
  | .stop, _, _, _, hpos => spelled_here hpos
  | .edge, _, _, _, hpos => spelled_here hpos

theorem whole_ends {r : Regex} {prev : Option Char} {cs : List Char} (h : (!((whole r).ends (prev, cs)).isEmpty) = true) :
    prev = none ∧ ∃ pos ∈ r.ends (none, cs), pos.2 = [] := by
  rw [Bool.not_eq_true', List.isEmpty_eq_false_iff_exists_mem] at h
  obtain ⟨last, hlast⟩ := h
  obtain ⟨first, hfirst, hlast⟩ := mem_ends_seq hlast
  obtain ⟨pos, hpos, hlast⟩ := mem_ends_seq hlast
  obtain ⟨stop, hstop, -⟩ := mem_ends_seq hlast
  unfold ends at hfirst hstop
  cases prev with
  | some c => exact absurd hfirst List.not_mem_nil
  | none =>
    rw [show first = (none, cs) from List.mem_singleton.1 hfirst] at hpos
    refine ⟨rfl, pos, hpos, ?_⟩
    split at hstop
    · rename_i hempty
      exact List.isEmpty_iff.1 hempty
    · exact absurd hstop List.not_mem_nil

theorem search_whole {r : Regex} : ∀ (cs : List Char) (prev : Option Char), (whole r).search prev cs = true →
    prev = none ∧ ∃ pos ∈ r.ends (none, cs), pos.2 = []
  | [], prev, h => whole_ends h
  | c :: cs, prev, h => by
    unfold search at h
    rcases Bool.or_eq_true_iff.1 h with h | h
    · exact whole_ends h
    · cases (search_whole cs (some c) h).1

/-- **A text matched as a whole** is spelled with the expression's classes. -/
theorem test_spelled {r : Regex} (h : r.Spelled p) {s : String} (hs : (whole r).test s = true) : ∀ c ∈ s.toList, p c := by
  obtain ⟨-, pos, hpos, hempty⟩ := search_whole s.toList none hs
  obtain ⟨w, hw, hall⟩ := ends_spelled r h (none, s.toList) pos hpos
  rw [hempty, List.append_nil] at hw
  intro c hc
  apply hall
  rw [← hw]
  exact hc

end Regex

namespace Js

theorem mem_splitAt {q : Char → Bool} {c : Char} : ∀ {cs : List Char}, c ∈ cs → q c = true ∨ ∃ part ∈ splitAt q cs, c ∈ part
  | d :: cs, h => by
    have hne : splitAt q cs ≠ [] := by
      cases cs with
      | nil => exact List.cons_ne_nil _ _
      | cons e es =>
        unfold splitAt
        split
        · exact List.cons_ne_nil _ _
        · split
          · exact List.cons_ne_nil _ _
          · exact List.cons_ne_nil _ _
    unfold splitAt
    by_cases hd : q d = true
    · rw [if_pos hd]
      rcases List.mem_cons.1 h with rfl | h
      · exact .inl hd
      · rcases mem_splitAt h with hc | ⟨part, hpart, hc⟩
        · exact .inl hc
        · exact .inr ⟨part, List.mem_cons_of_mem _ hpart, hc⟩
    · rw [if_neg hd]
      cases hsplit : splitAt q cs with
      | nil => exact absurd hsplit hne
      | cons w ws =>
        rcases List.mem_cons.1 h with rfl | h
        · exact .inr ⟨c :: w, List.mem_cons_self, List.mem_cons_self⟩
        · rcases mem_splitAt h with hc | ⟨part, hpart, hc⟩
          · exact .inl hc
          · rw [hsplit] at hpart
            rcases List.mem_cons.1 hpart with rfl | hpart
            · exact .inr ⟨d :: part, List.mem_cons_self, List.mem_cons_of_mem d hc⟩
            · exact .inr ⟨part, List.mem_cons_of_mem _ hpart, hc⟩

end Js

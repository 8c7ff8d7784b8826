import Wollipog.Scope.Grant
/-!
# Floors — a verdict grants nothing the message does not write

What the floors leave of a verdict is a set: the numbers named one by one, with those of every accepted range as long as
all of them together stay within the bound, and without the context.
-/
namespace Wollipog.Scope

open Json (Text)
open Reviews (lit)

variable {n : ℕ} {named s whole : List ℕ} {r : GrantRange}

theorem mem_addTo {x : ℕ} : x ∈ addTo s n ↔ x ∈ s ∨ x = n := by
  unfold addTo
  split
  · rename_i hin
    constructor
    · exact .inl
    · rintro (h | rfl)
      · exact h
      · exact List.contains_iff_mem.1 hin
  · rw [List.mem_append, List.mem_singleton]

theorem addTo_nodup (h : s.Nodup) (n : ℕ) : (addTo s n).Nodup := by
  unfold addTo
  split
  · exact h
  · rename_i hout
    rw [List.contains_iff_mem] at hout
    exact List.nodup_append.2 ⟨h, List.nodup_singleton n, by
      intro a ha b hb
      rw [List.mem_singleton] at hb
      rintro rfl
      exact hout (hb ▸ ha)⟩

def collect {α : Type} (p : α → Bool) (key : α → ℕ) (s : List ℕ) (l : List α) : List ℕ :=
  l.foldl (fun s a => if p a then addTo s (key a) else s) s

theorem mem_collect {α : Type} {p : α → Bool} {key : α → ℕ} {l : List α} : ∀ {s : List ℕ} {x : ℕ},
    x ∈ collect p key s l ↔ x ∈ s ∨ ∃ a ∈ l, p a = true ∧ key a = x := by
  induction l with
  | nil =>
    intro s x
    constructor
    · exact .inl
    · rintro (h | ⟨a, ha, -⟩)
      · exact h
      · cases ha
  | cons a l ih =>
    intro s x
    have hstep : x ∈ collect p key s (a :: l) ↔ x ∈ (if p a then addTo s (key a) else s) ∨ ∃ b ∈ l, p b = true ∧ key b = x := ih
    rw [hstep, List.exists_mem_cons_iff]
    split
    · rename_i hp
      rw [mem_addTo, or_assoc]
      simp only [hp, true_and, eq_comm]
    · rename_i hp
      simp only [hp, Bool.false_eq_true, false_and, false_or]

theorem collect_nodup {α : Type} {p : α → Bool} {key : α → ℕ} {l : List α} : ∀ {s : List ℕ}, s.Nodup → (collect p key s l).Nodup := by
  induction l with
  | nil => exact id
  | cons a l ih =>
    intro s hs
    have hone : (if p a then addTo s (key a) else s).Nodup := by
      split
      · exact addTo_nodup hs _
      · exact hs
    exact ih hone

/-- **Sorting a set** gives its numbers in strictly ascending order. -/
theorem sortedBy_pairwise_lt {l : List ℕ} (h : l.Nodup) : (sortedBy id l).Pairwise (· < ·) := by
  have hle : (sortedBy id l).Pairwise (fun a b => decide (id a ≤ id b) = true) := by
    refine sortBy_pairwise ?_ ?_ l
    · intro a b c hab hbc
      rw [decide_eq_true_eq] at hab hbc ⊢
      exact hab.trans hbc
    · intro a b
      rw [Bool.or_eq_true, decide_eq_true_eq, decide_eq_true_eq]
      exact le_total _ _
  have hne : (sortedBy id l).Nodup := (sortBy_perm l).nodup_iff.2 h
  refine (hle.and hne).imp ?_
  intro a b hab
  exact lt_of_le_of_ne (of_decide_eq_true hab.1) hab.2

def reached (named : List ℕ) (ranges : List GrantRange) : Finset ℕ :=
  named.toFinset ∪ ranges.toFinset.biUnion (fun r => Finset.Icc r.first r.last)

theorem mem_reached {ranges : List GrantRange} :
    n ∈ reached named ranges ↔ n ∈ named ∨ ∃ r ∈ ranges, r.first ≤ n ∧ n ≤ r.last := by
  unfold reached
  rw [Finset.mem_union, List.mem_toFinset, Finset.mem_biUnion]
  simp only [List.mem_toFinset, Finset.mem_Icc]

structure Grown (s : List ℕ) (whole : Finset ℕ) : Prop where
  nodup : s.Nodup
  within : ∀ n ∈ s, n ∈ whole
  full : s.length ≤ maxMessageIssues → ∀ n ∈ whole, n ∈ s

theorem Grown.length_le_iff {whole : Finset ℕ} (h : Grown s whole) :
    s.length ≤ maxMessageIssues ↔ whole.card ≤ maxMessageIssues := by
  rw [← List.toFinset_card_of_nodup h.nodup]
  constructor
  · intro hle
    refine (Finset.card_le_card ?_).trans hle
    intro n hn
    rw [List.toFinset_card_of_nodup h.nodup] at hle
    exact List.mem_toFinset.2 (h.full hle n hn)
  · intro hle
    refine (Finset.card_le_card ?_).trans hle
    intro n hn
    exact h.within n (List.mem_toFinset.1 hn)

theorem Grown.expandFrom {k : ℕ} : ∀ {s : List ℕ} {n : ℕ} {whole : Finset ℕ}, Grown s whole →
    Grown (expandFrom s n k) (whole ∪ Finset.Ico n (n + k)) := by
  induction k with
  | zero =>
    intro s n whole h
    rw [Nat.add_zero, Finset.Ico_self, Finset.union_empty]
    exact h
  | succ k ih =>
    intro s n whole h
    have hsplit : whole ∪ Finset.Ico n (n + (k + 1)) = insert n whole ∪ Finset.Ico (n + 1) (n + 1 + k) := by
      ext x
      have hfirst : n ≤ x ∧ x < n + (k + 1) ↔ x = n ∨ n + 1 ≤ x ∧ x < n + 1 + k := by omega
      rw [Finset.mem_union, Finset.mem_union, Finset.mem_insert, Finset.mem_Ico, Finset.mem_Ico, hfirst, ← or_assoc,
        @or_comm (x ∈ whole)]
    unfold Scope.expandFrom
    split
    · rename_i hroom
      rw [hsplit]
      refine ih ⟨addTo_nodup h.nodup n, ?_, ?_⟩
      · intro x hx
        rcases mem_addTo.1 hx with hx | rfl
        · exact Finset.mem_insert_of_mem (h.within x hx)
        · exact Finset.mem_insert_self x whole
      · intro _ x hx
        rcases Finset.mem_insert.1 hx with rfl | hx
        · exact mem_addTo.2 (.inr rfl)
        · exact mem_addTo.2 (.inl (h.full hroom x hx))
    · rename_i hpast
      exact ⟨h.nodup, fun x hx => Finset.mem_union_left _ (h.within x hx), fun hle => absurd hle hpast⟩

/-- **All the ranges grow the named numbers to everything they reach**, unless that passes the bound. -/
theorem grown_expand (h : named.Nodup) (ranges : List GrantRange) : Grown (expand named ranges) (reached named ranges) := by
  have hrun : ∀ (l : List GrantRange) (s : List ℕ) (whole : Finset ℕ), Grown s whole →
      Grown (expand s l) (whole ∪ l.toFinset.biUnion (fun r => Finset.Icc r.first r.last)) := by
    intro l
    induction l with
    | nil =>
      intro s whole hs
      rw [List.toFinset_nil, Finset.biUnion_empty, Finset.union_empty]
      exact hs
    | cons r l ih =>
      intro s whole hs
      have hone := ih _ _ (hs.expandFrom (n := r.first) (k := r.last + 1 - r.first))
      have hset : whole ∪ Finset.Ico r.first (r.first + (r.last + 1 - r.first)) ∪
          l.toFinset.biUnion (fun r => Finset.Icc r.first r.last) =
          whole ∪ (r :: l).toFinset.biUnion (fun r => Finset.Icc r.first r.last) := by
        rw [List.toFinset_cons, Finset.biUnion_insert, Finset.union_assoc]
        congr 2
        ext x
        rw [Finset.mem_Ico, Finset.mem_Icc]
        omega
      rw [hset] at hone
      exact hone
  exact hrun ranges named named.toFinset ⟨h, fun n hn => List.mem_toFinset.2 hn, fun _ n hn => List.mem_toFinset.1 hn⟩

section Checks

variable (lower : Text → Text) (text : Text) (repositories : List Text) (repository : Text)

def admits (name : Text) (number : ℕ) : Bool :=
  writtenAsDigits text number && resolveGrantRepository lower name repositories == some repository &&
    !onlyOtherRepositories lower text number repositories

def accepts (context : List ℕ) (range : GrantRange) : Bool :=
  admits lower text repositories repository range.repository range.first &&
    admits lower text repositories repository range.repository range.last &&
    (writtenAsRange text range.first range.last && !context.contains range.first && !context.contains range.last) &&
    (decide (range.first < range.last) && decide (range.last - range.first < maxMessageIssues))

end Checks

variable {lower : Text → Text} {text : Text} {repositories : List Text} {repository : Text}

theorem admissible_fst (dropped : List DroppedRef) (name : Text) (number : ℕ) :
    (admissible lower text repositories repository dropped name number).1 = admits lower text repositories repository name number := by
  unfold admissible admits
  cases writtenAsDigits text number with
  | false => rfl
  | true =>
    cases hother : onlyOtherRepositories lower text number repositories with
    | true =>
      simp only [Bool.not_true, Bool.false_eq_true, if_false, Bool.or_true, if_true, Bool.and_false]
    | false =>
      simp only [Bool.not_true, Bool.false_eq_true, if_false, Bool.or_false, Bool.true_and, Bool.not_false, Bool.and_true]
      split
      · rename_i hne
        exact (beq_eq_false_iff_ne.2 (bne_iff_ne.1 hne)).symm
      · rename_i heq
        rw [bne_iff_ne, ne_eq, not_not] at heq
        exact (beq_iff_eq.2 heq).symm

theorem acceptRange_fst (context : List ℕ) (dropped : List DroppedRef) (range : GrantRange) :
    (acceptRange lower text repositories repository context dropped range).1 =
      accepts lower text repositories repository context range := by
  unfold acceptRange accepts
  simp only [admissible_fst]
  cases hends : (admits lower text repositories repository range.repository range.first &&
      admits lower text repositories repository range.repository range.last) with
  | false => rfl
  | true =>
    rw [if_neg (by decide), Bool.true_and]
    split
    · rename_i hapart
      have hno : (writtenAsRange text range.first range.last && !context.contains range.first && !context.contains range.last) = false := by
        rw [← Bool.not_eq_true', Bool.not_and, Bool.not_and, Bool.not_not, Bool.not_not]
        exact hapart
      rw [hno]
      rfl
    · rename_i hjoined
      have hyes : (writtenAsRange text range.first range.last && !context.contains range.first && !context.contains range.last) = true := by
        rw [← Bool.not_eq_false', Bool.not_and, Bool.not_and, Bool.not_not, Bool.not_not]
        exact Bool.eq_false_iff.2 hjoined
      rw [hyes, Bool.true_and]
      split
      · rename_i hwide
        symm
        rw [Bool.and_eq_false_iff, decide_eq_false_iff_not, decide_eq_false_iff_not]
        rcases hwide with h | h
        · exact .inl (Nat.not_lt.2 h)
        · exact .inr (Nat.not_lt.2 h)
      · rename_i hnarrow
        rw [not_or] at hnarrow
        rw [decide_eq_true (Nat.not_le.1 hnarrow.1), decide_eq_true (Nat.not_le.1 hnarrow.2)]
        rfl

theorem explicitNumbers_fst (explicit : List GrantRef) : (explicitNumbers lower text repositories repository explicit).1 =
    collect (fun ref => admits lower text repositories repository ref.repository ref.number) GrantRef.number [] explicit := by
  have hrun : ∀ (l : List GrantRef) (st : List ℕ × List DroppedRef),
      (l.foldl (fun (st : List ℕ × List DroppedRef) ref =>
        let checked := admissible lower text repositories repository st.2 ref.repository ref.number
        (if checked.1 then addTo st.1 ref.number else st.1, checked.2)) st).1 =
      collect (fun ref => admits lower text repositories repository ref.repository ref.number) GrantRef.number st.1 l := by
    intro l
    induction l with
    | nil =>
      intro st
      rfl
    | cons ref l ih =>
      intro st
      rw [List.foldl_cons, ih]
      simp only [admissible_fst]
      rfl
  exact hrun explicit ([], [])

theorem acceptRanges_fst (context : List ℕ) (dropped : List DroppedRef) (ranges : List GrantRange) :
    (acceptRanges lower text repositories repository context dropped ranges).1 =
      ranges.filter (accepts lower text repositories repository context) := by
  have hrun : ∀ (l : List GrantRange) (st : List GrantRange × List DroppedRef),
      (l.foldl (fun (st : List GrantRange × List DroppedRef) range =>
        let checked := acceptRange lower text repositories repository context st.2 range
        (if checked.1 then st.1 ++ [range] else st.1, checked.2)) st).1 =
      st.1 ++ l.filter (accepts lower text repositories repository context) := by
    intro l
    induction l with
    | nil =>
      intro st
      exact (List.append_nil st.1).symm
    | cons range l ih =>
      intro st
      rw [List.foldl_cons, ih]
      simp only [acceptRange_fst]
      split
      · rename_i hyes
        rw [List.filter_cons_of_pos hyes, List.append_assoc]
        rfl
      · rename_i hno
        rw [List.filter_cons_of_neg hno]
  exact hrun ranges ([], dropped)

theorem contextNumbers_eq (context : List GrantRef) : contextNumbers lower text repositories repository context =
    collect (fun ref => admits lower text repositories repository ref.repository ref.number) GrantRef.number [] context := rfl

/-! ## The grant -/

section Parts

variable (lower : Text → Text) (text : Text) (boundary : GrantBoundary)

def contextOf (fields : ScopeGrantFields) : List ℕ :=
  contextNumbers lower text (boundaryRepositories lower boundary) (lower boundary.repository) fields.context

def namedOf (fields : ScopeGrantFields) : List ℕ :=
  (explicitNumbers lower text (boundaryRepositories lower boundary) (lower boundary.repository) fields.explicit).1

def acceptedOf (fields : ScopeGrantFields) : List GrantRange :=
  (acceptRanges lower text (boundaryRepositories lower boundary) (lower boundary.repository)
    (contextOf lower text boundary fields)
    (explicitNumbers lower text (boundaryRepositories lower boundary) (lower boundary.repository) fields.explicit).2 fields.ranges).1

def granted (fields : ScopeGrantFields) : Finset ℕ :=
  (if (reached (namedOf lower text boundary fields) (acceptedOf lower text boundary fields)).card ≤ maxMessageIssues then
    reached (namedOf lower text boundary fields) (acceptedOf lower text boundary fields)
  else (namedOf lower text boundary fields).toFinset) \ (contextOf lower text boundary fields).toFinset

end Parts

variable {isLetter : ℕ → Bool} {boundary : GrantBoundary} {fields : ScopeGrantFields}

theorem mem_contextOf : n ∈ contextOf lower text boundary fields ↔ ∃ ref ∈ fields.context,
    admits lower text (boundaryRepositories lower boundary) (lower boundary.repository) ref.repository ref.number = true ∧
      ref.number = n := by
  unfold contextOf
  rw [contextNumbers_eq, mem_collect]
  simp only [List.not_mem_nil, false_or]

theorem mem_namedOf : n ∈ namedOf lower text boundary fields ↔ ∃ ref ∈ fields.explicit,
    admits lower text (boundaryRepositories lower boundary) (lower boundary.repository) ref.repository ref.number = true ∧
      ref.number = n := by
  unfold namedOf
  rw [explicitNumbers_fst, mem_collect]
  simp only [List.not_mem_nil, false_or]

theorem namedOf_nodup : (namedOf lower text boundary fields).Nodup := by
  unfold namedOf
  rw [explicitNumbers_fst]
  exact collect_nodup List.nodup_nil

theorem mem_acceptedOf : r ∈ acceptedOf lower text boundary fields ↔ r ∈ fields.ranges ∧
    accepts lower text (boundaryRepositories lower boundary) (lower boundary.repository) (contextOf lower text boundary fields) r = true := by
  unfold acceptedOf
  rw [acceptRanges_fst, List.mem_filter]

/-- **What a verdict grants is its whole set in order, cut at the bound.** -/
theorem explicit_eq : ∃ whole : List ℕ, (scopeGrantCandidates lower isLetter text fields boundary).explicit = whole.take maxMessageIssues ∧
    whole.Pairwise (· < ·) ∧ ∀ n, n ∈ whole ↔ n ∈ granted lower text boundary fields := by
  obtain ⟨named, hnamed⟩ : ∃ s, namedOf lower text boundary fields = s := ⟨_, rfl⟩
  obtain ⟨accepted, haccepted⟩ : ∃ l, acceptedOf lower text boundary fields = l := ⟨_, rfl⟩
  obtain ⟨context, hcontext⟩ : ∃ s, contextOf lower text boundary fields = s := ⟨_, rfl⟩
  have hnodup : named.Nodup := hnamed ▸ namedOf_nodup
  have hgrown := grown_expand hnodup accepted
  refine ⟨sortedBy id ((if decide ((expand named accepted).length ≤ maxMessageIssues) = true then
    (expand named accepted).foldl addTo named else named).filter (fun n => !context.contains n)), ?_, ?_, ?_⟩
  · subst hnamed haccepted hcontext
    rfl
  · refine sortedBy_pairwise_lt (List.Nodup.filter _ ?_)
    split
    · exact @collect_nodup ℕ (fun _ => true) id _ _ hnodup
    · exact hnodup
  · intro n
    have hbound := hgrown.length_le_iff
    unfold granted
    rw [hnamed, haccepted, hcontext]
    rw [sortedBy, mem_sortBy, List.mem_filter, Finset.mem_sdiff, List.mem_toFinset, Bool.not_eq_true', ← Bool.not_eq_true, List.contains_iff_mem]
    refine and_congr ?_ Iff.rfl
    by_cases hfits : (expand named accepted).length ≤ maxMessageIssues
    · rw [if_pos (decide_eq_true hfits), if_pos (hbound.1 hfits)]
      have hall : n ∈ (expand named accepted).foldl addTo named ↔ n ∈ named ∨ ∃ a ∈ expand named accepted, true = true ∧ id a = n :=
        @mem_collect ℕ (fun _ => true) id _ named n
      rw [hall]
      constructor
      · rintro (h | ⟨a, ha, -, rfl⟩)
        · exact mem_reached.2 (.inl h)
        · exact hgrown.within a ha
      · intro h
        exact .inr ⟨n, hgrown.full hfits n h, rfl, rfl⟩
    · rw [if_neg (by rw [decide_eq_true_eq]; exact hfits), if_neg (fun h => hfits (hbound.2 h)), List.mem_toFinset]

/-- A number that the verdict names and the text writes somewhere no repository outside the boundary qualifies. -/
def Named (lower : Text → Text) (text : Text) (boundary : GrantBoundary) (fields : ScopeGrantFields) (n : ℕ) : Prop :=
  ((∃ ref ∈ fields.explicit, ref.number = n) ∨ ∃ r ∈ fields.ranges, r.first = n ∨ r.last = n) ∧
    ∃ at_ ∈ digitOccurrences text n, elsewhere lower text (boundaryRepositories lower boundary) at_ = false

/-- An inner number of a narrow ascending range, whose ends the text writes as one range. -/
def Inner (text : Text) (fields : ScopeGrantFields) (n : ℕ) : Prop :=
  ∃ r ∈ fields.ranges, r.first < n ∧ n < r.last ∧ r.last - r.first < maxMessageIssues ∧
    writtenAsRange text r.first r.last = true

theorem written_of_admits {name : Text} (h : admits lower text (boundaryRepositories lower boundary) repository name n = true) :
    ∃ at_ ∈ digitOccurrences text n, elsewhere lower text (boundaryRepositories lower boundary) at_ = false := by
  unfold admits at h
  rw [Bool.and_eq_true, Bool.and_eq_true, Bool.not_eq_true'] at h
  exact written_within h.1.1 h.2

theorem stands_of_named (h : n ∈ namedOf lower text boundary fields) : Named lower text boundary fields n := by
  obtain ⟨ref, href, hadmits, rfl⟩ := mem_namedOf.1 h
  exact ⟨.inl ⟨ref, href, rfl⟩, written_of_admits hadmits⟩

theorem stands_of_accepted (h : r ∈ acceptedOf lower text boundary fields) (hfirst : r.first ≤ n)
    (hlast : n ≤ r.last) : Named lower text boundary fields n ∨ Inner text fields n := by
  obtain ⟨hr, haccepts⟩ := mem_acceptedOf.1 h
  unfold accepts at haccepts
  simp only [Bool.and_eq_true, decide_eq_true_eq] at haccepts
  obtain ⟨⟨⟨hf, hl⟩, ⟨hwritten, -⟩, -⟩, hascending, hnarrow⟩ := haccepts
  rcases Nat.eq_or_lt_of_le hfirst with rfl | hafter
  · exact .inl ⟨.inr ⟨r, hr, .inl rfl⟩, written_of_admits hf⟩
  · rcases Nat.eq_or_lt_of_le hlast with rfl | hbefore
    · exact .inl ⟨.inr ⟨r, hr, .inr rfl⟩, written_of_admits hl⟩
    · exact .inr ⟨r, hr, hafter, hbefore, hnarrow, hwritten⟩

theorem stands_of_granted (h : n ∈ granted lower text boundary fields) :
    Named lower text boundary fields n ∨ Inner text fields n := by
  unfold granted at h
  have hin := (Finset.mem_sdiff.1 h).1
  split at hin
  · rcases mem_reached.1 hin with hn | ⟨r, hr, hfirst, hlast⟩
    · exact .inl (stands_of_named hn)
    · exact stands_of_accepted hr hfirst hlast
  · exact .inl (stands_of_named (List.mem_toFinset.1 hin))

section More

variable {more : List GrantRef}

theorem contextOf_mono (h : fields.context ⊆ more) {n : ℕ} (hn : n ∈ contextOf lower text boundary fields) :
    n ∈ contextOf lower text boundary { fields with context := more } := by
  obtain ⟨ref, href, hadmits⟩ := mem_contextOf.1 hn
  exact mem_contextOf.2 ⟨ref, h href, hadmits⟩

/-- **More context accepts no further range.** -/
theorem acceptedOf_anti (h : fields.context ⊆ more) {r : GrantRange}
    (hr : r ∈ acceptedOf lower text boundary { fields with context := more }) : r ∈ acceptedOf lower text boundary fields := by
  obtain ⟨hin, haccepts⟩ := mem_acceptedOf.1 hr
  refine mem_acceptedOf.2 ⟨hin, ?_⟩
  unfold accepts at haccepts ⊢
  simp only [Bool.and_eq_true, Bool.not_eq_true', ← Bool.not_eq_true, List.contains_iff_mem] at haccepts ⊢
  obtain ⟨⟨hends, ⟨hwritten, hfirst⟩, hlast⟩, hwidth⟩ := haccepts
  exact ⟨⟨hends, ⟨hwritten, fun hc => hfirst (contextOf_mono h hc)⟩, fun hc => hlast (contextOf_mono h hc)⟩, hwidth⟩

theorem reached_anti (h : fields.context ⊆ more) :
    reached (namedOf lower text boundary fields) (acceptedOf lower text boundary { fields with context := more }) ⊆
      reached (namedOf lower text boundary fields) (acceptedOf lower text boundary fields) := by
  intro n hn
  rcases mem_reached.1 hn with hn | ⟨r, hr, hin⟩
  · exact mem_reached.2 (.inl hn)
  · exact mem_reached.2 (.inr ⟨r, acceptedOf_anti h hr, hin⟩)

/-- **A number that more context brings into the whole set** is of a range that did not fit before. -/
theorem granted_of_more (h : fields.context ⊆ more) {n : ℕ}
    (hin : n ∈ granted lower text boundary { fields with context := more }) (hout : n ∉ granted lower text boundary fields) :
    maxMessageIssues < (reached (namedOf lower text boundary fields) (acceptedOf lower text boundary fields)).card ∧
      ∃ r ∈ acceptedOf lower text boundary { fields with context := more }, r ∈ acceptedOf lower text boundary fields ∧
        r.first ≤ n ∧ n ≤ r.last := by
  have hnamed : namedOf lower text boundary { fields with context := more } = namedOf lower text boundary fields := rfl
  unfold granted at hin hout
  rw [hnamed] at hin
  rw [Finset.mem_sdiff] at hin hout
  obtain ⟨hin, hclear⟩ := hin
  have hclear' : n ∉ (contextOf lower text boundary fields).toFinset := fun hc =>
    hclear (List.mem_toFinset.2 (contextOf_mono h (List.mem_toFinset.1 hc)))
  have hout : n ∉ _ := fun hb => hout ⟨hb, hclear'⟩
  by_cases hfits : (reached (namedOf lower text boundary fields) (acceptedOf lower text boundary fields)).card ≤ maxMessageIssues
  · rw [if_pos hfits] at hout
    rw [if_pos ((Finset.card_le_card (reached_anti h)).trans hfits)] at hin
    exact absurd (reached_anti h hin) hout
  · rw [if_neg hfits] at hout
    refine ⟨Nat.lt_of_not_le hfits, ?_⟩
    split at hin
    · rcases mem_reached.1 hin with hn | ⟨r, hr, hrange⟩
      · exact absurd (List.mem_toFinset.2 hn) hout
      · exact ⟨r, hr, acceptedOf_anti h hr, hrange⟩
    · exact absurd hin hout

end More

theorem mem_take_or_lt (h : n ∈ whole) : n ∈ whole.take maxMessageIssues ∨ maxMessageIssues < whole.length := by
  rcases Nat.lt_or_ge maxMessageIssues whole.length with hlong | hshort
  · exact .inr hlong
  · exact .inl ((List.take_of_length_le hshort).symm ▸ h)

theorem length_whole {s : Finset ℕ} (hsorted : whole.Pairwise (· < ·)) (hmem : ∀ n, n ∈ whole ↔ n ∈ s) :
    whole.length = s.card := by
  have hnodup : whole.Nodup := hsorted.imp (fun hlt => Nat.ne_of_lt hlt)
  rw [← List.toFinset_card_of_nodup hnodup]
  congr 1
  ext n
  rw [List.mem_toFinset, hmem]

theorem card_granted (h : maxMessageIssues < (granted lower text boundary fields).card) :
    maxMessageIssues < (namedOf lower text boundary fields).length := by
  have hle := Finset.card_le_card (@Finset.sdiff_subset ℕ _
    (if (reached (namedOf lower text boundary fields) (acceptedOf lower text boundary fields)).card ≤ maxMessageIssues then
      reached (namedOf lower text boundary fields) (acceptedOf lower text boundary fields)
    else (namedOf lower text boundary fields).toFinset) (contextOf lower text boundary fields).toFinset)
  have hover := lt_of_lt_of_le h hle
  split at hover
  · rename_i hfits
    exact absurd hfits (Nat.not_le_of_lt hover)
  · exact lt_of_lt_of_le hover (List.toFinset_card_le _)

/-- **The floors of a verdict**: at most 100 ascending issues, none of context, each written in the message; more context
adds numbers only from ranges that did not fit. -/
theorem scope_grant_floors (lower : Text → Text) (isLetter : ℕ → Bool) (text : Text) (fields : ScopeGrantFields)
    (boundary : GrantBoundary) :
    let explicit := fun fields => (scopeGrantCandidates lower isLetter text fields boundary).explicit
    let past := maxMessageIssues < (reached (namedOf lower text boundary fields) (acceptedOf lower text boundary fields)).card
    ((explicit fields).length ≤ maxMessageIssues ∧ (explicit fields).Pairwise (· < ·) ∧
      ∀ n ∈ explicit fields, n ∉ contextOf lower text boundary fields ∧
        n ∉ (scopeGrantCandidates lower isLetter text fields boundary).context) ∧
    (∀ n ∈ explicit fields, Named lower text boundary fields n ∨ Inner text fields n) ∧
    ((¬ past ∧ ∀ r ∈ acceptedOf lower text boundary fields, ∀ n, r.first ≤ n → n ≤ r.last →
        n ∈ explicit fields ∨ n ∈ contextOf lower text boundary fields) ∨
      (past ∧ ∀ n ∈ explicit fields, n ∈ namedOf lower text boundary fields)) ∧
    ∀ more, fields.context ⊆ more → ∀ n ∈ explicit { fields with context := more }, n ∉ explicit fields →
      past ∧ ((∃ r ∈ acceptedOf lower text boundary { fields with context := more }, r ∈ acceptedOf lower text boundary fields ∧
          r.first ≤ n ∧ n ≤ r.last) ∨
        (n ∈ namedOf lower text boundary fields ∧ maxMessageIssues < (namedOf lower text boundary fields).length)) := by
  intro explicit past
  obtain ⟨whole, hwhole, hsorted, hmem⟩ := @explicit_eq lower text isLetter boundary fields
  have hexplicit : explicit fields = whole.take maxMessageIssues := hwhole
  have hgranted : ∀ n ∈ explicit fields, n ∈ granted lower text boundary fields := by
    intro n hn
    rw [hexplicit] at hn
    exact (hmem n).1 (List.mem_of_mem_take hn)
  have hclear : ∀ n ∈ explicit fields, n ∉ contextOf lower text boundary fields := by
    intro n hn hc
    have hin := hgranted n hn
    unfold granted at hin
    exact (Finset.mem_sdiff.1 hin).2 (List.mem_toFinset.2 hc)
  refine ⟨⟨?_, ?_, ?_⟩, ?_, ?_, ?_⟩
  · rw [hexplicit, List.length_take]
    exact Nat.min_le_left _ _
  · rw [hexplicit]
    exact hsorted.sublist (List.take_sublist _ _)
  · intro n hn
    refine ⟨hclear n hn, fun hc => hclear n hn ?_⟩
    exact mem_sortBy.1 (List.mem_of_mem_take hc)
  · exact fun n hn => stands_of_granted (hgranted n hn)
  · by_cases hover : past
    · right
      refine ⟨hover, ?_⟩
      intro n hn
      have hin := hgranted n hn
      unfold granted at hin
      rw [if_neg (Nat.not_le_of_lt hover)] at hin
      exact List.mem_toFinset.1 (Finset.mem_sdiff.1 hin).1
    · left
      refine ⟨hover, ?_⟩
      intro r hr n hfirst hlast
      by_cases hc : n ∈ contextOf lower text boundary fields
      · exact .inr hc
      · left
        have hin : n ∈ granted lower text boundary fields := by
          unfold granted
          rw [if_pos (Nat.le_of_not_lt hover)]
          exact Finset.mem_sdiff.2 ⟨mem_reached.2 (.inr ⟨r, hr, hfirst, hlast⟩), fun h => hc (List.mem_toFinset.1 h)⟩
        rw [hexplicit]
        rcases mem_take_or_lt ((hmem n).2 hin) with h | hlong
        · exact h
        · rw [length_whole hsorted hmem] at hlong
          unfold granted at hlong
          rw [if_pos (Nat.le_of_not_lt hover)] at hlong
          exact absurd (lt_of_lt_of_le hlong (Finset.card_le_card Finset.sdiff_subset)) hover
  · intro more hmore n hn hout
    obtain ⟨whole', hwhole', hsorted', hmem'⟩ := @explicit_eq lower text isLetter boundary { fields with context := more }
    have hin : n ∈ granted lower text boundary { fields with context := more } := by
      have hn' : n ∈ whole'.take maxMessageIssues := hwhole' ▸ hn
      exact (hmem' n).1 (List.mem_of_mem_take hn')
    by_cases hbefore : n ∈ granted lower text boundary fields
    · rw [hexplicit] at hout
      rcases mem_take_or_lt ((hmem n).2 hbefore) with h | hlong
      · exact absurd h hout
      · rw [length_whole hsorted hmem] at hlong
        have hnamed := card_granted hlong
        have hcard : maxMessageIssues < (namedOf lower text boundary fields).toFinset.card :=
          (List.toFinset_card_of_nodup namedOf_nodup).symm ▸ hnamed
        have hover : past := lt_of_lt_of_le hcard (Finset.card_le_card (fun x hx => mem_reached.2 (.inl (List.mem_toFinset.1 hx))))
        refine ⟨hover, .inr ⟨?_, hnamed⟩⟩
        unfold granted at hbefore
        rw [if_neg (Nat.not_le_of_lt hover)] at hbefore
        exact List.mem_toFinset.1 (Finset.mem_sdiff.1 hbefore).1
    · obtain ⟨hover, hrange⟩ := granted_of_more hmore hin hbefore
      exact ⟨hover, .inl hrange⟩

/-- `toLowerCase` of a text of ASCII. -/
def lowerAscii (s : Text) : Text := s.map (fun c => if 65 ≤ c.val ∧ c.val ≤ 90 then Fin.ofNat 65536 (c.val + 32) else c)

def asciiLetter (c : ℕ) : Bool := (Char.ofNat c).isAlpha

def rangesVerdict (ranges : List (ℕ × ℕ)) (context : List ℕ) : ScopeGrantFields where
  explicit := []
  ranges := ranges.map (fun r => ⟨[], r.1, r.2⟩)
  context := context.map (fun n => ⟨[], n⟩)
  selectionRequested := false
  selectionRepository := []
  selectionCount := 0
  selectionCriteria := []
  selectionConstraints := []
  narrowsOperations := false
  operations := []

/-- What such a verdict grants in a campaign of `owner/repo`. -/
def rangesGrant (text : String) (ranges : List (ℕ × ℕ)) (context : List ℕ) : List ℕ :=
  (scopeGrantCandidates lowerAscii asciiLetter (lit text) (rangesVerdict ranges context) ⟨lit "owner/repo", none⟩).explicit

theorem context_and_qualified_range_add : (rangesGrant "Fix #1-#60 and #101-#160." [(1, 60), (101, 160)] [] = [] ∧
      102 ∈ rangesGrant "Fix #1-#60 and #101-#160." [(1, 60), (101, 160)] [1]) ∧
    11 ∈ rangesGrant "Fix 10 and 14, as other/repo#10-14 did." [(10, 14)] [] ∧
      ∀ start ∈ digitOccurrences (lit "Fix 10 and 14, as other/repo#10-14 did.") 10,
        ∀ end_ ∈ digitOccurrences (lit "Fix 10 and 14, as other/repo#10-14 did.") 14,
          joined (lit "Fix 10 and 14, as other/repo#10-14 did.") 10 start end_ = true →
            qualifyingRepository lowerAscii (lit "Fix 10 and 14, as other/repo#10-14 did.") start = some (lit "other/repo") := by
  decide +kernel

end Wollipog.Scope

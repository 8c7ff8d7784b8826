import Mathlib.Data.List.Basic
import Wollipog.Lib.Regex
/-!
# Replace — global replacement by patterns

A pattern lists its ways to match at a position, the preferred ones first. A rule keeps a lead, replaces a body and
keeps a tail; its pieces say what was kept and what was replaced.
-/
namespace Replace

open Regex (Pos)

/-- `q` is reached from `p` by reading a part of the text. -/
def Reach (p q : Pos) : Prop := ∃ w, p.2 = w ++ q.2 ∧ q.1 = w.getLast?.or p.1

theorem Reach.refl (p : Pos) : Reach p p := ⟨[], rfl, rfl⟩

variable {h : Hit} {n : Nat} {p q : Pos} {c : Char} {r : Rule} {cs : List Char} {prev : Option Char}

theorem Reach.trans {r : Pos} (h : Reach p q) (h' : Reach q r) : Reach p r := by
  obtain ⟨w, hw, hlast⟩ := h
  obtain ⟨v, hv, hlast'⟩ := h'
  refine ⟨w ++ v, by rw [hw, hv, List.append_assoc], ?_⟩
  rw [hlast', hlast, List.getLast?_append, Option.or_assoc]

theorem Reach.length_le (h : Reach p q) : q.2.length ≤ p.2.length := by
  obtain ⟨w, hw, -⟩ := h
  rw [hw, List.length_append]
  omega

structure Way where
  ends : Pos → List Pos
  reach : ∀ p q, q ∈ ends p → Reach p q

namespace Way

def oneEnds (p : Char → Bool) : Pos → List Pos
  | (_, c :: cs) => if p c then [(some c, cs)] else []
  | (_, []) => []

theorem mem_oneEnds {p : Char → Bool} {at_ q : Pos} (h : q ∈ oneEnds p at_) :
    ∃ c, p c = true ∧ at_.2 = c :: q.2 ∧ q.1 = some c := by
  obtain ⟨prev, cs⟩ := at_
  cases cs with
  | nil => cases h
  | cons c cs =>
    simp only [oneEnds] at h
    by_cases hc : p c = true
    · rw [if_pos hc] at h
      cases List.mem_singleton.1 h
      exact ⟨c, hc, rfl, rfl⟩
    · rw [if_neg hc] at h
      cases h

def one (p : Char → Bool) : Way where
  ends := oneEnds p
  reach at_ q h := by
    obtain ⟨c, -, htext, hlast⟩ := mem_oneEnds h
    exact ⟨[c], htext, hlast⟩

def guard (p : Pos → Bool) : Way where
  ends at_ := if p at_ then [at_] else []
  reach at_ q h := by
    split at h
    · cases List.mem_singleton.1 h
      exact .refl _
    · cases h

def empty : Way := guard (fun _ => true)

def fail : Way := guard (fun _ => false)

def seq (a b : Way) : Way where
  ends at_ := (a.ends at_).flatMap b.ends
  reach at_ q h := by
    obtain ⟨m, hm, hq⟩ := List.mem_flatMap.1 h
    exact (a.reach _ _ hm).trans (b.reach _ _ hq)

def alt (a b : Way) : Way where
  ends at_ := a.ends at_ ++ b.ends at_
  reach at_ q h := by
    rcases List.mem_append.1 h with h | h
    · exact a.reach _ _ h
    · exact b.reach _ _ h

def starEnds (a : Way) : Nat → Pos → List Pos
  | 0, at_ => [at_]
  | n + 1, at_ => ((a.ends at_).filter (fun q => decide (q.2.length < at_.2.length))).flatMap (starEnds a n) ++ [at_]

theorem starEnds_reach (a : Way) : ∀ (n : Nat) (p q : Pos), q ∈ starEnds a n p → Reach p q
  | 0, p, q, h => by
    cases List.mem_singleton.1 h
    exact .refl _
  | n + 1, p, q, h => by
    rcases List.mem_append.1 h with h | h
    · obtain ⟨m, hm, hq⟩ := List.mem_flatMap.1 h
      exact (a.reach _ _ (List.mem_filter.1 hm).1).trans (starEnds_reach a n m q hq)
    · cases List.mem_singleton.1 h
      exact .refl _

def star (a : Way) : Way where
  ends at_ := starEnds a at_.2.length at_
  reach at_ := starEnds_reach a _ at_

/-- `\b` -/
def edge : Way := guard (fun at_ => at_.1.any Regex.isWord != at_.2.head?.any Regex.isWord)

def endsLine (c : Char) : Bool := c == '\n' || c == '\r' || c == '\u2028' || c == '\u2029'

/-- `^` with the flag `m` -/
def lineStart : Way := guard (fun at_ => at_.1.all endsLine)

def opt (a : Way) : Way := alt a empty

def seqs (l : List Way) : Way := l.foldr seq empty

def oneOf (l : List Way) : Way := l.foldr alt fail

def plus (a : Way) : Way := seq a (star a)

def times : Nat → Way → Way
  | 0, _ => empty
  | n + 1, a => seq a (times n a)

def atLeast (n : Nat) (a : Way) : Way := seq (times n a) (star a)

def lit (s : String) : Way := seqs (s.toList.map (fun d => one (· == d)))

/-- A lower-case text with the flag `i`. -/
def litI (s : String) : Way := seqs (s.toList.map (fun d => one (fun c => c.toLower == d)))

def Moves (a : Way) : Prop := ∀ p q, q ∈ a.ends p → q.2.length < p.2.length

theorem moves_one (p : Char → Bool) : (one p).Moves := by
  intro at_ q h
  obtain ⟨c, -, htext, -⟩ := mem_oneEnds h
  rw [htext, List.length_cons]
  omega

variable {a b : Way} {c : Char} {s : String} {l : List Char}

theorem Moves.seq_left (h : a.Moves) (b : Way) : (a.seq b).Moves := by
  intro p q hq
  obtain ⟨m, hm, hq⟩ := List.mem_flatMap.1 hq
  exact Nat.lt_of_le_of_lt (b.reach _ _ hq).length_le (h _ _ hm)

theorem Moves.seq_right (h : b.Moves) (a : Way) : (a.seq b).Moves := by
  intro p q hq
  obtain ⟨m, hm, hq⟩ := List.mem_flatMap.1 hq
  exact Nat.lt_of_lt_of_le (h _ _ hq) (a.reach _ _ hm).length_le

theorem Moves.alt (ha : a.Moves) (hb : b.Moves) : (a.alt b).Moves := by
  intro p q hq
  rcases List.mem_append.1 hq with hq | hq
  · exact ha _ _ hq
  · exact hb _ _ hq

theorem moves_fail : fail.Moves := fun _ _ h => absurd h List.not_mem_nil

theorem moves_lit (h : s.toList = c :: l) : (lit s).Moves := by
  unfold lit
  rw [h, List.map_cons]
  exact (moves_one _).seq_left _

theorem moves_litI (h : s.toList = c :: l) : (litI s).Moves := by
  unfold litI
  rw [h, List.map_cons]
  exact (moves_one _).seq_left _

theorem moves_plus (h : a.Moves) : (plus a).Moves := h.seq_left _

end Way

structure Rule where
  lead : Way
  body : Way
  tail : Way
  moves : body.Moves
  marker : List Char → List Char

structure Hit where
  lead : Pos
  body : Pos
  tail : Pos

def Rule.find (r : Rule) (p : Pos) : Option Hit :=
  ((r.lead.ends p).flatMap (fun l => (r.body.ends l).flatMap (fun b => (r.tail.ends b).map (Hit.mk l b)))).head?

inductive Piece
  | kept (c : Char)
  | replaced (lead body tail : List Char)

def between (p q : Pos) : List Char := p.2.take (p.2.length - q.2.length)

def Rule.scan (r : Rule) : Nat → Pos → List Piece
  | 0, _ => []
  | _ + 1, (_, []) => []
  | n + 1, (prev, c :: cs) =>
    match r.find (prev, c :: cs) with
    | some h => .replaced (between (prev, c :: cs) h.lead) (between h.lead h.body) (between h.body h.tail) :: r.scan n h.tail
    | none => .kept c :: r.scan n (some c, cs)

def Rule.pieces (r : Rule) (text : List Char) : List Piece := r.scan text.length (none, text)

def Piece.source : Piece → List Char
  | .kept c => [c]
  | .replaced lead body tail => lead ++ body ++ tail

theorem Piece.source_replaced (lead body tail : List Char) :
    (Piece.replaced lead body tail).source = lead ++ body ++ tail := rfl

def Piece.target (marker : List Char → List Char) : Piece → List Char
  | .kept c => [c]
  | .replaced lead body tail => lead ++ marker body ++ tail

/-- `replace` with the flag `g`. -/
def Rule.replaceAll (r : Rule) (text : List Char) : List Char := (r.pieces text).flatMap (Piece.target r.marker)

theorem Reach.between {p q : Pos} (h : Reach p q) : p.2 = between p q ++ q.2 := by
  obtain ⟨w, hw, -⟩ := h
  unfold Replace.between
  have hlength : p.2.length - q.2.length = w.length := by
    rw [hw, List.length_append]
    omega
  rw [hlength, hw, List.take_left]

theorem Rule.find_reach (hfind : r.find p = some h) :
    Reach p h.lead ∧ Reach h.lead h.body ∧ Reach h.body h.tail ∧ h.body.2.length < h.lead.2.length := by
  obtain ⟨l, hl, hrest⟩ := List.mem_flatMap.1 (List.mem_of_mem_head? (Option.mem_def.2 hfind))
  obtain ⟨b, hb, hrest⟩ := List.mem_flatMap.1 hrest
  obtain ⟨t, ht, rfl⟩ := List.mem_map.1 hrest
  exact ⟨r.lead.reach _ _ hl, r.body.reach _ _ hb, r.tail.reach _ _ ht, r.moves _ _ hb⟩

theorem Rule.find_text (hfind : r.find p = some h) :
    p.2 = (between p h.lead ++ between h.lead h.body ++ between h.body h.tail) ++ h.tail.2 := by
  obtain ⟨hlead, hbody, htail, -⟩ := Rule.find_reach hfind
  rw [List.append_assoc, List.append_assoc, ← htail.between, ← hbody.between, ← hlead.between]

theorem Rule.find_shorter (hfind : r.find p = some h) : h.tail.2.length < p.2.length := by
  obtain ⟨hlead, -, htail, hmoves⟩ := Rule.find_reach hfind
  exact Nat.lt_of_le_of_lt htail.length_le (Nat.lt_of_lt_of_le hmoves hlead.length_le)

theorem Rule.scan_some (hfind : r.find (prev, c :: cs) = some h) : r.scan (n + 1) (prev, c :: cs) =
      .replaced (between (prev, c :: cs) h.lead) (between h.lead h.body) (between h.body h.tail) :: r.scan n h.tail := by
  simp only [Rule.scan, hfind]

theorem Rule.scan_none
    (hfind : r.find (prev, c :: cs) = none) : r.scan (n + 1) (prev, c :: cs) = .kept c :: r.scan n (some c, cs) := by
  simp only [Rule.scan, hfind]

/-- **The pieces make up the text.** -/
theorem Rule.scan_source (r : Rule) : ∀ (n : Nat) (p : Pos), p.2.length ≤ n → (r.scan n p).flatMap Piece.source = p.2
  | 0, (_, []), _ => rfl
  | 0, (_, _ :: _), h => absurd h (Nat.not_succ_le_zero _)
  | _ + 1, (_, []), _ => rfl
  | n + 1, (prev, c :: cs), h => by
    cases hfind : r.find (prev, c :: cs) with
    | some hit =>
      have hshorter := Rule.find_shorter hfind
      rw [Rule.scan_some hfind, List.flatMap_cons, Rule.scan_source r n hit.tail (by omega)]
      exact (Rule.find_text hfind).symm
    | none =>
      rw [Rule.scan_none hfind, List.flatMap_cons, Rule.scan_source r n (some c, cs) (by simpa using h)]
      rfl

def Rule.MatchesAt (r : Rule) (pre post : List Char) : Prop := (r.find (pre.getLast?, post)).isSome = true

def Rule.Covers (r : Rule) (pre post : List Char) : Prop :=
  ∃ front lead body tail back, r.pieces (pre ++ post) = front ++ .replaced lead body tail :: back ∧
    (front.flatMap Piece.source).length ≤ pre.length ∧
    pre.length < (front.flatMap Piece.source).length + (lead ++ body ++ tail).length

theorem Rule.scan_covers (r : Rule) : ∀ (n : Nat) (prev : Option Char) (pre post : List Char), (pre ++ post).length ≤ n →
    (r.find (pre.getLast?.or prev, post)).isSome = true →
    ∃ front lead body tail back, r.scan n (prev, pre ++ post) = front ++ .replaced lead body tail :: back ∧
      (front.flatMap Piece.source).length ≤ pre.length ∧
      pre.length < (front.flatMap Piece.source).length + (lead ++ body ++ tail).length
  | n, prev, [], post, hn, hmatch => by
    obtain ⟨hit, hfind⟩ := Option.isSome_iff_exists.1 hmatch
    have hfind' : r.find (prev, post) = some hit := hfind
    have hshorter := Rule.find_shorter hfind'
    have htext := congrArg List.length (Rule.find_text hfind')
    rw [List.length_append] at htext
    cases post with
    | nil => exact absurd hshorter (Nat.not_lt_zero _)
    | cons c cs =>
      cases n with
      | zero => exact absurd hn (Nat.not_succ_le_zero _)
      | succ n =>
        refine ⟨[], between (prev, c :: cs) hit.lead, between hit.lead hit.body, between hit.body hit.tail, r.scan n hit.tail,
          ?_, Nat.le_refl _, ?_⟩
        · exact Rule.scan_some hfind'
        · simp only [List.flatMap_nil, List.length_nil] at htext hshorter ⊢
          omega
  | 0, prev, c :: pre, post, hn, _ => absurd hn (Nat.not_succ_le_zero _)
  | n + 1, prev, c :: pre, post, hn, hmatch => by
    have hlength : (pre ++ post).length ≤ n := by simpa using hn
    cases hfind : r.find (prev, c :: (pre ++ post)) with
    | none =>
      -- the character is kept, and the place stands as far behind it
      have hprev : (c :: pre).getLast?.or prev = pre.getLast?.or (some c) := by
        rw [List.getLast?_cons]
        cases pre.getLast? <;> rfl
      rw [hprev] at hmatch
      obtain ⟨front, lead, body, tail, back, hscan, hle, hlt⟩ := Rule.scan_covers r n (some c) pre post hlength hmatch
      refine ⟨.kept c :: front, lead, body, tail, back, ?_, ?_, ?_⟩
      · rw [List.cons_append, Rule.scan_none hfind, hscan]
        rfl
      · simp only [List.flatMap_cons, Piece.source, List.length_append, List.length_cons, List.length_nil]
        omega
      · simp only [List.flatMap_cons, Piece.source, List.length_append, List.length_cons, List.length_nil] at hlt ⊢
        omega
    | some hit =>
      have htext := Rule.find_text hfind
      obtain ⟨hlead, hbody, htail, -⟩ := Rule.find_reach hfind
      have hshorter := Rule.find_shorter hfind
      have hscan := Rule.scan_some (n := n) hfind
      generalize hpart : between (prev, c :: (pre ++ post)) hit.lead ++ between hit.lead hit.body ++
        between hit.body hit.tail = part at htext
      by_cases hinside : (c :: pre).length < part.length
      · refine ⟨[], between (prev, c :: (pre ++ post)) hit.lead, between hit.lead hit.body, between hit.body hit.tail,
          r.scan n hit.tail, hscan, Nat.zero_le _, ?_⟩
        rw [hpart]
        simpa using hinside
      · -- the place stands in what follows the match
        obtain ⟨pre', hpre⟩ : ∃ pre', c :: pre = part ++ pre' := by
          have hprefix : part <+: c :: pre := by
            have hpre : c :: pre <+: c :: pre ++ post := List.prefix_append _ _
            refine List.prefix_of_prefix_length_le ⟨hit.tail.2, ?_⟩ hpre (by omega)
            rw [← htext]
            rfl
          obtain ⟨pre', hpre'⟩ := hprefix
          exact ⟨pre', hpre'.symm⟩
        have hrest : hit.tail.2 = pre' ++ post := by
          have hwhole : part ++ hit.tail.2 = part ++ (pre' ++ post) := by
            rw [← htext, ← List.append_assoc, ← hpre]
            rfl
          exact List.append_cancel_left hwhole
        have hlast : hit.tail.1 = part.getLast?.or prev := by
          obtain ⟨w, hw, hlast⟩ := (hlead.trans hbody).trans htail
          have hwpart : w = part := List.append_cancel_right (hw.symm.trans htext)
          rw [hlast, hwpart]
        have hmatch' : (r.find (pre'.getLast?.or hit.tail.1, post)).isSome = true := by
          rw [hlast, ← Option.or_assoc, ← List.getLast?_append, ← hpre]
          exact hmatch
        have hlong : (pre' ++ post).length ≤ n := by
          rw [← hrest]
          have hbound : hit.tail.2.length < (c :: (pre ++ post)).length := hshorter
          rw [List.length_cons] at hbound
          omega
        obtain ⟨front, lead, body, tail, back, hscan', hle, hlt⟩ := Rule.scan_covers r n hit.tail.1 pre' post hlong hmatch'
        refine ⟨.replaced (between (prev, c :: (pre ++ post)) hit.lead) (between hit.lead hit.body)
          (between hit.body hit.tail) :: front, lead, body, tail, back, ?_, ?_, ?_⟩
        · rw [List.cons_append, hscan]
          have htail' : hit.tail = (hit.tail.1, pre' ++ post) := by rw [← hrest]
          rw [htail', hscan']
          rfl
        · rw [List.flatMap_cons, hpre, List.length_append, List.length_append]
          rw [Piece.source_replaced, hpart]
          omega
        · rw [List.flatMap_cons, hpre, List.length_append, List.length_append]
          rw [Piece.source_replaced, hpart]
          omega

/-- **Every place where the rule matches is covered**: it is inside a match that is replaced. -/
theorem Rule.covers_of_matchesAt (r : Rule) {pre post : List Char} (h : r.MatchesAt pre post) : r.Covers pre post := by
  refine r.scan_covers _ none pre post (Nat.le_refl _) ?_
  rw [Option.or_none]
  exact h

end Replace

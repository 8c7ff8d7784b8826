import Wollipog.Lib.JsonText
import Wollipog.Lib.Replace
/-!
# ReplaceUnits — global replacement over UTF-16 code units

A replacement whose marker is never longer than the body it stands for does not lengthen the text.
-/
namespace Replace

open Json (Text CodeUnit)

/-- The character that a pattern sees for a code unit: a half of a surrogate pair is one of its own. -/
def unitChar (c : CodeUnit) : Char :=
  if 0xD800 ≤ c.val ∧ c.val ≤ 0xDFFF then Char.ofNat (0x100000 + c.val) else Char.ofNat c.val

def charUnit (c : Char) : CodeUnit := Fin.ofNat 65536 c.toNat

/-- `text.replace(pattern, ..)` -/
def replace (r : Rule) (text : Text) : Text := (r.replaceAll (text.map unitChar)).map charUnit

def Rule.Bounded (r : Rule) : Prop := ∀ body, (r.marker body).length ≤ body.length

theorem Rule.length_target_le {r : Rule} (h : r.Bounded) : ∀ p : Piece, (p.target r.marker).length ≤ p.source.length
  | .kept _ => Nat.le_refl _
  | .replaced lead body tail => by
    have hmarker := h body
    simp only [Piece.target, Piece.source, List.length_append]
    omega

theorem Rule.length_targets_le {r : Rule} (h : r.Bounded) : ∀ l : List Piece,
    (l.flatMap (Piece.target r.marker)).length ≤ (l.flatMap Piece.source).length
  | [] => Nat.le_refl _
  | p :: l => by
    have hp := r.length_target_le h p
    have hrest := r.length_targets_le h l
    simp only [List.flatMap_cons, List.length_append]
    omega

theorem Rule.length_replaceAll_le {r : Rule} (h : r.Bounded) (text : List Char) : (r.replaceAll text).length ≤ text.length := by
  have hsource : (r.pieces text).flatMap Piece.source = text := r.scan_source text.length (none, text) (Nat.le_refl _)
  calc (r.replaceAll text).length ≤ ((r.pieces text).flatMap Piece.source).length := r.length_targets_le h _
    _ = text.length := by rw [hsource]

theorem length_replace_le {r : Rule} (h : r.Bounded) (text : Text) : (replace r text).length ≤ text.length := by
  have hall := r.length_replaceAll_le h (text.map unitChar)
  rw [List.length_map] at hall
  unfold replace
  rw [List.length_map]
  exact hall

theorem length_foldl_replace_le : ∀ {rules : List Rule}, (∀ r ∈ rules, r.Bounded) → ∀ text : Text,
    (rules.foldl (fun text r => replace r text) text).length ≤ text.length
  | [], _, _ => Nat.le_refl _
  | r :: rules, h, text => by
    have hfirst := length_replace_le (h r List.mem_cons_self) text
    have hrest := length_foldl_replace_le (fun q hq => h q (List.mem_cons_of_mem _ hq)) (replace r text)
    exact Nat.le_trans hrest hfirst

end Replace

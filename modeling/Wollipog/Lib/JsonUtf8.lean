import Wollipog.Lib.Utf8
import Wollipog.Lib.JsonCanonical
/-!
# JsonUtf8 — the bytes of a JSON text

A JSON text is well formed: a half of a surrogate pair that stands by itself in a string is escaped, and everything
around the strings is ASCII.
-/
namespace Utf8

open Json (CodeUnit Text isLead isTrail quote quoteUnit quoteUnits unicodeEscape hexUnit commas memberText encodeElements_eq
  encodeMembers_eq digitUnit digitUnits exponentText Decimal Number Value stringify)

theorem encodePoint_lt {p : ℕ} (h : Scalar p) : ∀ b ∈ encodePoint p, b < 256 := by
  unfold Scalar at h
  intro b hb
  unfold encodePoint at hb
  split at hb
  · rw [List.mem_singleton] at hb
    omega
  · split at hb
    · simp only [List.mem_cons, List.not_mem_nil, or_false] at hb
      omega
    · split at hb <;> simp only [List.mem_cons, List.not_mem_nil, or_false] at hb <;> omega

theorem encode_lt (s : Text) : ∀ b ∈ encode s, b < 256 := by
  intro b hb
  obtain ⟨p, hp, hb⟩ := List.mem_flatMap.1 hb
  exact encodePoint_lt (scalar_points s p hp) b hb

theorem wellFormed_append : ∀ {a b : Text}, wellFormed a = true → wellFormed b = true → wellFormed (a ++ b) = true
  | [], _, _, hb => hb
  | [c], [], hc, _ => hc
  | [c], d :: r, hc, hb => by
    rw [wellFormed] at hc
    have hpair : ¬(isLead c && isTrail d) = true := by
      intro h
      rw [Bool.and_eq_true] at h
      rw [h.1] at hc
      cases hc
    rw [List.singleton_append, wellFormed, if_neg hpair, hc, hb]
    rfl
  | c :: d :: r, b, ha, hb => by
    rw [wellFormed] at ha
    rw [List.cons_append, List.cons_append, wellFormed]
    split at ha
    · rename_i hpair
      rw [if_pos hpair]
      exact wellFormed_append ha hb
    · rename_i hpair
      rw [Bool.and_eq_true] at ha
      have hrest := wellFormed_append ha.2 hb
      rw [List.cons_append] at hrest
      rw [if_neg hpair, ha.1, hrest]
      rfl

theorem Ascii.wellFormed : ∀ {s : Text}, Ascii s → wellFormed s = true
  | [], _ => rfl
  | c :: r, h => by
    have hc := h c List.mem_cons_self
    have hone : Utf8.wellFormed [c] = true := by
      rw [Utf8.wellFormed, isLead_ascii hc, isTrail_ascii hc]
      rfl
    exact wellFormed_append hone (Ascii.wellFormed fun d hd => h d (List.mem_cons_of_mem _ hd))

theorem ascii_unicodeEscape (c : CodeUnit) : Ascii (unicodeEscape c) := by
  have hhex : ∀ n, (hexUnit n).val < 0x80 := fun n => by
    unfold hexUnit
    split
    · show (48 + n % 16) % 65536 < 0x80
      omega
    · show (87 + n % 16) % 65536 < 0x80
      omega
  intro d hd
  simp only [unicodeEscape, List.mem_cons, List.not_mem_nil, or_false] at hd
  rcases hd with rfl | rfl | rfl | rfl | rfl | rfl
  · decide
  · decide
  all_goals exact hhex _

theorem wellFormed_quoteUnit (c : CodeUnit) : wellFormed (quoteUnit c) = true := by
  unfold quoteUnit
  repeat' split
  · rfl
  · rfl
  · rfl
  · rfl
  · rfl
  · rfl
  · rfl
  · exact (ascii_unicodeEscape c).wellFormed
  · rename_i hunit
    simp only [Bool.or_eq_true, not_or, Bool.not_eq_true] at hunit
    rw [wellFormed, hunit.1.2, hunit.2]
    rfl

theorem wellFormed_quoteUnits : ∀ s : Text, wellFormed (quoteUnits s) = true
  | [] => rfl
  | [c] => wellFormed_quoteUnit c
  | c :: d :: r => by
    rw [quoteUnits]
    split
    · rename_i hpair
      rw [wellFormed, if_pos hpair]
      exact wellFormed_quoteUnits r
    · exact wellFormed_append (wellFormed_quoteUnit c) (wellFormed_quoteUnits (d :: r))

theorem wellFormed_quote (s : Text) : wellFormed (quote s) = true :=
  wellFormed_append (a := [34]) rfl (wellFormed_append (wellFormed_quoteUnits s) rfl)

theorem ascii_digitUnits (l : List (Fin 10)) : Ascii (digitUnits l) := by
  intro c hc
  obtain ⟨d, -, rfl⟩ := List.mem_map.1 hc
  show 48 + d.val < 0x80
  omega

theorem ascii_cons {c : CodeUnit} {s : Text} (hc : c.val < 0x80) (hs : Ascii s) : Ascii (c :: s) := by
  intro d hd
  rcases List.mem_cons.1 hd with rfl | hd
  · exact hc
  · exact hs d hd

theorem ascii_exponentText (e : ℤ) : Ascii (exponentText e) := by
  refine ascii_cons (by decide) (ascii_cons ?_ (ascii_digitUnits _))
  split <;> decide

theorem ascii_decimal (d : Decimal) : Ascii d.text := by
  unfold Decimal.text
  dsimp only
  split
  · exact (ascii_digitUnits _).append (ascii_digitUnits _)
  · split
    · exact (ascii_digitUnits _).append (ascii_cons (by decide) (ascii_digitUnits _))
    · split
      · exact ascii_cons (by decide) (ascii_cons (by decide) ((ascii_digitUnits _).append (ascii_digitUnits _)))
      · split
        · exact (ascii_digitUnits _).append (ascii_exponentText _)
        · exact ((ascii_digitUnits _).append (ascii_cons (by decide) (ascii_digitUnits _))).append (ascii_exponentText _)

theorem ascii_number (n : Number) : Ascii n.text := by
  cases n with
  | zero => exact ascii_cons (by decide) fun _ hc => by cases hc
  | signed negative d =>
    show Ascii (if negative then 45 :: d.text else d.text)
    split
    · exact ascii_cons (by decide) (ascii_decimal d)
    · exact ascii_decimal d

theorem wellFormed_commas : ∀ {l : List Text}, (∀ t ∈ l, wellFormed t = true) → wellFormed (commas l) = true
  | [], _ => rfl
  | [t], h => h t List.mem_cons_self
  | t :: u :: ts, h => by
    rw [commas]
    exact wellFormed_append (h t List.mem_cons_self) (wellFormed_append (a := [44]) rfl
      (wellFormed_commas fun x hx => h x (List.mem_cons_of_mem _ hx)))

/-- **No text of a value has a half of a pair by itself.** -/
theorem wellFormed_stringify (v : Value) : wellFormed (stringify v) = true := by
  unfold stringify
  induction v using Value.parts with
  | hnull => rfl
  | hbool b => cases b <;> rfl
  | hnumber n => exact (ascii_number n).wellFormed
  | hstring s => exact wellFormed_quote s
  | harray l ih =>
    rw [Json.encode, encodeElements_eq]
    refine wellFormed_append (a := [91]) rfl (wellFormed_append (wellFormed_commas fun t ht => ?_) rfl)
    obtain ⟨v, hv, rfl⟩ := List.mem_map.1 ht
    exact ih v hv
  | hobject m ih =>
    rw [Json.encode, encodeMembers_eq]
    refine wellFormed_append (a := [123]) rfl (wellFormed_append (wellFormed_commas fun t ht => ?_) rfl)
    obtain ⟨e, he, rfl⟩ := List.mem_map.1 ht
    obtain ⟨⟨k, v⟩, hv, rfl⟩ := List.mem_map.1 he
    exact wellFormed_append (wellFormed_quote k) (wellFormed_append (a := [58]) rfl (ih k v (Json.mem_defined.1 hv)))

end Utf8

import Mathlib.Tactic.IntervalCases
import Mathlib.Data.List.Basic
import Wollipog.Lib.Regex
/-!
# Lower — lower-case texts

What `lower` changes and what it keeps: lengths, digits, where a text splits, and the matches of an expression whose
classes hold the lower-case form of each of their characters.
-/

namespace Js

/-- One character of `lower`. -/
def lowerChar (c : Char) : Char := if c = '\u212A' then 'k' else c.toLower

/-- The characters that `lower` changes. -/
def lowered : List Char := '\u212A' :: "ABCDEFGHIJKLMNOPQRSTUVWXYZ".toList

theorem lower_toList (s : String) : (lower s).toList = s.toList.map lowerChar := String.toList_ofList

theorem lowerChar_eq_or (c : Char) : lowerChar c = c ∨ c ∈ lowered := by
  by_cases hk : c = '\u212A'
  · subst hk
    exact .inr (List.mem_cons_self)
  · unfold lowerChar
    rw [if_neg hk]
    by_cases hu : 65 ≤ c.toNat ∧ c.toNat ≤ 90
    · right
      obtain ⟨n, hn⟩ : ∃ n, c.toNat = n := ⟨_, rfl⟩
      have hc : c = Char.ofNat n := by rw [← hn, Char.ofNat_toNat]
      rw [hn] at hu
      obtain ⟨hlow, hhigh⟩ := hu
      rw [hc]
      clear hk hn hc
      interval_cases n <;> decide
    · left
      unfold Char.toLower
      rw [dif_neg]
      rintro ⟨hlow, hhigh⟩
      exact hu ⟨UInt32.le_iff_toNat_le.1 hlow, UInt32.le_iff_toNat_le.1 hhigh⟩

theorem forall_lowered {P : Char → Prop} [DecidablePred P] (h : lowered.all (fun c => decide (P c)) = true) :
    ∀ c ∈ lowered, P c := by
  intro c hc
  have hone := List.all_eq_true.1 h c hc
  rwa [decide_eq_true_eq] at hone

theorem lowerChar_rec {P : Char → Char → Prop} (hsame : ∀ c, P c c) (hchanged : ∀ c ∈ lowered, P c (lowerChar c)) (c : Char) :
    P c (lowerChar c) := by
  rcases lowerChar_eq_or c with h | h
  · rw [h]
    exact hsame c
  · exact hchanged c h

theorem lowerChar_idem (c : Char) : lowerChar (lowerChar c) = lowerChar c := by
  rcases lowerChar_eq_or c with h | h
  · rw [h, h]
  · have hall : ∀ c ∈ lowered, lowerChar (lowerChar c) = lowerChar c := forall_lowered (by decide)
    exact hall c h

theorem lower_idem (s : String) : lower (lower s) = lower s := by
  unfold lower
  rw [String.toList_ofList, List.map_map]
  congr 1
  apply List.map_congr_left
  intro c _
  exact lowerChar_idem c

theorem width_lowerChar (c : Char) : width (lowerChar c) = width c :=
  lowerChar_rec (P := fun c d => width d = width c) (fun _ => rfl) (forall_lowered (by decide)) c

theorem utf16Length_lower (s : String) : utf16Length (lower s) = utf16Length s := by
  unfold utf16Length
  rw [lower_toList, List.foldl_map]
  congr 1
  funext n c
  rw [width_lowerChar]

theorem isDigit_lowerChar {c : Char} (h : c.isDigit = true) : lowerChar c = c := by
  rcases lowerChar_eq_or c with hc | hc
  · exact hc
  · have hall : ∀ c ∈ lowered, c.isDigit = false := forall_lowered (by decide)
    rw [hall c hc] at h
    cases h

theorem splitAt_map {p : Char → Bool} {f : Char → Char} (h : ∀ c, p (f c) = p c) :
    ∀ l : List Char, splitAt p (l.map f) = (splitAt p l).map (List.map f)
  | [] => rfl
  | c :: cs => by
    rw [List.map_cons]
    unfold splitAt
    rw [h c, splitAt_map h cs]
    cases p c with
    | true => rfl
    | false =>
      cases splitAt p cs with
      | nil => rfl
      | cons w ws => rfl

theorem lowerChar_beq {d : Char} (hd : d ∉ lowered) (hd' : ∀ c ∈ lowered, lowerChar c ≠ d) (c : Char) :
    (lowerChar c == d) = (c == d) := by
  rcases lowerChar_eq_or c with h | h
  · rw [h]
  · have h₁ : (lowerChar c == d) = false := beq_eq_false_iff_ne.2 (hd' c h)
    have h₂ : (c == d) = false := beq_eq_false_iff_ne.2 (fun heq => hd (heq ▸ h))
    rw [h₁, h₂]

end Js

namespace Regex

/-- Every class of the expression keeps its characters under `f`, and no edge is asked for. -/
def Kept (f : Char → Char) : Regex → Prop
  | .cls p => ∀ c, p c = true → p (f c) = true
  | .many p => ∀ c, p c = true → p (f c) = true
  | .seq a b => a.Kept f ∧ b.Kept f
  | .alt a b => a.Kept f ∧ b.Kept f
  | .edge => False
  | _ => True

def mapPos (f : Char → Char) (p : Pos) : Pos := (p.1.map f, p.2.map f)

theorem runs_map {f : Char → Char} {p : Char → Bool} (h : ∀ c, p c = true → p (f c) = true) :
    ∀ (cs : List Char) (prev : Option Char) (q : Pos), q ∈ runs p prev cs → mapPos f q ∈ runs p (prev.map f) (cs.map f)
  | [], prev, q, hq => by
    unfold runs at hq
    rw [List.mem_singleton] at hq
    subst hq
    exact List.mem_singleton.2 rfl
  | c :: cs, prev, q, hq => by
    unfold runs at hq
    rw [List.map_cons]
    unfold runs
    rcases List.mem_cons.1 hq with rfl | hq
    · exact List.mem_cons_self
    · right
      split at hq
      · rename_i hc
        rw [if_pos (h c hc)]
        exact runs_map h cs (some c) q hq
      · exact absurd hq List.not_mem_nil

/-- **A match stays one** when the text is changed by a function that keeps the classes. -/
theorem ends_map {f : Char → Char} : ∀ (r : Regex), r.Kept f → ∀ (at_ q : Pos), q ∈ r.ends at_ → mapPos f q ∈ r.ends (mapPos f at_)
  | .empty, _, at_, q, hq => by
    rw [show q = at_ from List.mem_singleton.1 hq]
    exact List.mem_singleton.2 rfl
  | .cls p, h, (prev, []), q, hq => absurd hq List.not_mem_nil
  | .cls p, h, (prev, c :: cs), q, hq => by
    have hkept : ∀ c, p c = true → p (f c) = true := h
    unfold ends at hq
    split at hq
    · rename_i hc
      rw [List.mem_singleton] at hq
      subst hq
      unfold mapPos ends
      rw [List.map_cons]
      simp only [hkept c hc, if_true, List.mem_singleton]
      rfl
    · exact absurd hq List.not_mem_nil
  | .seq a b, h, at_, q, hq => by
    obtain ⟨ha, hb⟩ : a.Kept f ∧ b.Kept f := h
    unfold ends at hq ⊢
    obtain ⟨m, hm, hq⟩ := List.mem_flatMap.1 hq
    exact List.mem_flatMap.2 ⟨mapPos f m, ends_map a ha at_ m hm, ends_map b hb m q hq⟩
  | .alt a b, h, at_, q, hq => by
    obtain ⟨ha, hb⟩ : a.Kept f ∧ b.Kept f := h
    unfold ends at hq ⊢
    rcases List.mem_append.1 hq with hq | hq
    · exact List.mem_append_left _ (ends_map a ha at_ q hq)
    · exact List.mem_append_right _ (ends_map b hb at_ q hq)
  | .many p, h, (prev, cs), q, hq => runs_map h cs prev q hq
  | .start, _, (prev, cs), q, hq => by
    unfold ends at hq ⊢
    unfold mapPos
    cases prev with
    | none =>
      rw [show q = (none, cs) from List.mem_singleton.1 hq]
      exact List.mem_singleton.2 rfl
    | some c => exact absurd hq List.not_mem_nil
  | .stop, _, (prev, cs), q, hq => by
    unfold ends at hq ⊢
    unfold mapPos
    cases cs with
    | nil =>
      rw [show q = (prev, []) from List.mem_singleton.1 hq]
      exact List.mem_singleton.2 rfl
    | cons c cs => exact absurd hq List.not_mem_nil
  | .edge, h, _, _, _ => h.elim

theorem ends_ne_nil {f : Char → Char} {r : Regex} (h : r.Kept f) {at_ : Pos} (hne : (!(r.ends at_).isEmpty) = true) :
    (!(r.ends (mapPos f at_)).isEmpty) = true := by
  rw [Bool.not_eq_true', List.isEmpty_eq_false_iff_exists_mem] at hne ⊢
  obtain ⟨q, hq⟩ := hne
  exact ⟨mapPos f q, ends_map r h at_ q hq⟩

theorem search_map {f : Char → Char} {r : Regex} (h : r.Kept f) : ∀ (cs : List Char) (prev : Option Char),
    r.search prev cs = true → r.search (prev.map f) (cs.map f) = true
  | [], prev, hs => ends_ne_nil h hs
  | c :: cs, prev, hs => by
    unfold search at hs
    rw [List.map_cons]
    unfold search
    rw [Bool.or_eq_true] at hs ⊢
    rcases hs with hs | hs
    · exact .inl (ends_ne_nil h hs)
    · exact .inr (search_map h cs (some c) hs)

theorem test_lower {r : Regex} (h : r.Kept Js.lowerChar) {s : String} (hs : r.test s = true) : r.test (Js.lower s) = true := by
  unfold test at hs ⊢
  rw [Js.lower_toList]
  exact search_map h s.toList none hs

theorem fold_lowerChar (c : Char) : fold (Js.lowerChar c) = fold c :=
  Js.lowerChar_rec (P := fun c d => fold d = fold c) (fun _ => rfl) (Js.forall_lowered (by decide)) c

theorem testI_lower (r : Regex) (s : String) : r.testI (Js.lower s) = r.testI s := by
  unfold testI
  rw [Js.lower_toList, List.map_map]
  congr 1
  apply List.map_congr_left
  intro c _
  exact fold_lowerChar c

end Regex

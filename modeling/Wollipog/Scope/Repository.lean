import Wollipog.Authority.Boundary
import Wollipog.Lib.Lower
/-!
# Repository — the lower-case name of a campaign repository

Repositories are compared in lower case.  The lower-case name of one that a campaign accepts is accepted too.
-/
namespace Wollipog.Scope

open Authority
open Js (lowerChar)

theorem kept_cls {p : Char → Bool} (h : ∀ c ∈ Js.lowered, p c = true → p (lowerChar c) = true) :
    ∀ c, p c = true → p (lowerChar c) = true :=
  fun c => Js.lowerChar_rec (P := fun c d => p c = true → p d = true) (fun _ => id) h c

theorem slugChar_kept : ∀ c, slugChar c = true → slugChar (lowerChar c) = true := kept_cls (Js.forall_lowered (by decide))

theorem alphanum_kept : ∀ c : Char, c.isAlphanum = true → (lowerChar c).isAlphanum = true := kept_cls (Js.forall_lowered (by decide))

theorem hostChar_kept : ∀ c : Char, (c.isAlphanum || c == '-') = true → ((lowerChar c).isAlphanum || lowerChar c == '-') = true :=
  kept_cls (Js.forall_lowered (by decide))

theorem isWord_kept : ∀ c, Regex.isWord c = true → Regex.isWord (lowerChar c) = true := kept_cls (Js.forall_lowered (by decide))

theorem upTo_kept {r : Regex} (h : r.Kept lowerChar) : ∀ n, (Regex.upTo n r).Kept lowerChar
  | 0 => trivial
  | n + 1 => ⟨trivial, h, upTo_kept h n⟩

theorem githubRepository_kept : githubRepository.Kept lowerChar := by
  have hslash : ∀ c, (c == '/') = true → (lowerChar c == '/') = true := kept_cls (Js.forall_lowered (by decide))
  exact ⟨trivial, ⟨⟨⟨slugChar_kept, trivial⟩, slugChar_kept⟩, ⟨hslash, trivial⟩,
    ⟨⟨slugChar_kept, trivial⟩, slugChar_kept⟩, trivial⟩, trivial, trivial⟩

theorem hostLabel_kept : (Regex.whole hostLabel).Kept lowerChar :=
  have hchars : (Regex.cls (fun c => c.isAlphanum || c == '-')).Kept lowerChar := hostChar_kept
  ⟨trivial, ⟨alphanum_kept, ⟨upTo_kept hchars 61, alphanum_kept⟩, trivial⟩, trivial, trivial⟩

theorem segment_kept : (Regex.whole (.seq (.cls Regex.isWord) (.many slugChar))).Kept lowerChar :=
  ⟨trivial, ⟨isWord_kept, slugChar_kept⟩, trivial, trivial⟩

theorem lower_ofList (l : List Char) : Js.lower (String.ofList l) = String.ofList (l.map lowerChar) := by
  unfold Js.lower
  rw [String.toList_ofList]
  rfl

theorem splitAt_lower {d : Char} (hd : d ∉ Js.lowered) (hd' : ∀ c ∈ Js.lowered, lowerChar c ≠ d) (s : String) :
    Js.splitAt (· == d) (Js.lower s).toList = (Js.splitAt (· == d) s.toList).map (List.map lowerChar) := by
  rw [Js.lower_toList]
  exact Js.splitAt_map (Js.lowerChar_beq hd hd') s.toList

theorem hostName_lower {s : String} (h : hostName s = true) : hostName (Js.lower s) = true := by
  unfold hostName at h ⊢
  simp only [Bool.and_eq_true, List.all_eq_true] at h ⊢
  obtain ⟨hlength, hlabels⟩ := h
  rw [splitAt_lower (by decide) (Js.forall_lowered (by decide))]
  refine ⟨by rw [List.length_map]; exact hlength, ?_⟩
  intro l hl
  obtain ⟨m, hm, rfl⟩ := List.mem_map.1 hl
  rw [← lower_ofList]
  exact Regex.test_lower hostLabel_kept (hlabels m hm)

theorem map_lowerChar_digits {l : List Char} (h : l.all Char.isDigit = true) : l.map lowerChar = l := by
  rw [List.all_eq_true] at h
  exact (List.map_congr_left (fun c hc => Js.isDigit_lowerChar (h c hc))).trans (List.map_id' l)

theorem hostPort_lower {host : String} {port : Option Nat} (h : hostPort host = some port) :
    hostPort (Js.lower host) = some port := by
  unfold hostPort at h ⊢
  rw [splitAt_lower (by decide) (Js.forall_lowered (by decide))]
  split at h
  · rename_i name hsplit
    rw [hsplit]
    split at h
    · rename_i hname
      rw [List.map_cons, List.map_nil]
      simp only [← lower_ofList, hostName_lower hname, if_true]
      exact h
    · cases h
  · rename_i name digits hsplit
    rw [hsplit]
    split at h
    · rename_i hall
      simp only [Bool.and_eq_true] at hall
      obtain ⟨⟨⟨hname, hone⟩, hfive⟩, hdigits⟩ := hall
      rw [List.map_cons, List.map_cons, List.map_nil, map_lowerChar_digits hdigits]
      simp only [← lower_ofList, hostName_lower hname, hone, hfive, hdigits, Bool.and_self, if_true]
      exact h
    · cases h
  · cases h

theorem gitlabPathSegment_lower {s : String} (h : gitlabPathSegment s = true) : gitlabPathSegment (Js.lower s) = true := by
  unfold gitlabPathSegment at h ⊢
  rw [Bool.and_eq_true] at h ⊢
  rw [Regex.testI_lower]
  exact ⟨Regex.test_lower segment_kept h.1, h.2⟩

/-- **An accepted repository is accepted in lower case.** -/
theorem location_lower {r : String} (h : (campaignRepositoryLocation r).isSome = true) :
    (campaignRepositoryLocation (Js.lower r)).isSome = true := by
  unfold campaignRepositoryLocation at h ⊢
  rw [Js.utf16Length_lower]
  split at h
  · cases h
  · rename_i hlength
    rw [if_neg hlength]
    by_cases hgithub : githubRepository.test (Js.lower r) = true
    · rw [if_pos hgithub]
      rfl
    · have hnot : ¬githubRepository.test r = true := fun ht => hgithub (Regex.test_lower githubRepository_kept ht)
      have hsplit : (Js.splitAt (· == '/') (Js.lower r).toList).map String.ofList =
          ((Js.splitAt (· == '/') r.toList).map String.ofList).map Js.lower := by
        rw [splitAt_lower (by decide) (Js.forall_lowered (by decide)), List.map_map, List.map_map]
        apply List.map_congr_left
        intro l _
        exact (lower_ofList l).symm
      rw [if_neg hnot] at h
      rw [if_neg hgithub, hsplit]
      cases hparts : (Js.splitAt (· == '/') r.toList).map String.ofList with
      | nil =>
        rw [hparts] at h
        cases h
      | cons host path =>
        rw [hparts] at h
        simp only at h
        cases hport : hostPort host with
        | none =>
          rw [hport] at h
          cases h
        | some port =>
          rw [hport] at h
          simp only [List.map_cons, hostPort_lower hport, List.length_map, Regex.testI_lower] at h ⊢
          split at h
          · cases h
          · rename_i hcount
            rw [if_neg hcount]
            split at h
            · cases h
            · rename_i hrange
              rw [if_neg hrange]
              split at h
              · cases h
              · rename_i hhost
                rw [if_neg hhost]
                split at h
                · rename_i hpath
                  have hlower : (path.map Js.lower).all gitlabPathSegment = true := by
                    rw [List.all_eq_true] at hpath ⊢
                    intro s hs
                    obtain ⟨t, ht, rfl⟩ := List.mem_map.1 hs
                    exact gitlabPathSegment_lower (hpath t ht)
                  rw [if_pos hlower]
                  rfl
                · cases h

end Wollipog.Scope

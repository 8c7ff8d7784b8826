import Wollipog.Patches.Apply
/-!
# Lines — a patch of the selected lines of one hunk

`pick` is the hunk's lines as the patch has them: a line that was not selected becomes context or vanishes. `taken` is
the text that then stands in the hunk's place.
-/
namespace Wollipog.Patches

open Json (Text CodeUnit takeDigits natValue digitUnits natDigits NoDigit)
open Reviews (lit natText)
open Scope (isSpaceUnit)
open Blocks

inductive Direction
  | stage
  | unstage
  deriving DecidableEq

/-! ## The patch -/

/-- What a line is in the patch. -/
def pickLine (direction : Direction) (selected : Bool) (l : GitDiffLine) : Option GitDiffLine :=
  if l.status = .context then some l
  else if selected then some l
  else if (direction = .stage ∧ l.status = .removed) ∨ (direction = .unstage ∧ l.status = .added) then some { l with status := .context }
  else none

/-- The lines of the patch, the first of `lines` being the line `n`. -/
def pick (direction : Direction) (selected : ℕ → Bool) (n : ℕ) (lines : List GitDiffLine) : List GitDiffLine :=
  (lines.zipIdx n).filterMap (fun e => pickLine direction (selected e.2) e.1)

def render (l : GitDiffLine) : Text := l.status.mark :: l.text

/-- `count === 1 ? start : start,count` -/
def rangeText (start count : ℕ) : Text := if count = 1 then natText start else natText start ++ lit "," ++ natText count

/-- `\s+` -/
def spaces (s : Text) : Option Text := if s.takeWhile isSpaceUnit = [] then none else some (s.dropWhile isSpaceUnit)

/-- What follows `/^@@\s+-\d+(?:,\d+)?\s+\+\d+(?:,\d+)?\s+@@/`. -/
def behindHeader (header : Text) : Option Text := do
  let s ← behind (lit "@@") header
  let s ← spaces s
  let s ← behind (lit "-") s
  let (_, s) ← number s
  let s ← spaces (count s).2
  let s ← behind (lit "+") s
  let (_, s) ← number s
  let s ← spaces (count s).2
  behind (lit "@@") s

/-- `header.replace(…, "")` -/
def headerSuffix (header : Text) : Text := (behindHeader header).getD header

def patchHeader (range : HunkRange) (suffix : Text) : Text :=
  lit "@@ -" ++ rangeText range.oldStart range.oldCount ++ lit " +" ++ rangeText range.newStart range.newCount ++ lit " @@" ++ suffix

/-- `[...].join("\n") + "\n"` -/
def joinLines (lines : List Text) : Text := [newline].intercalate lines ++ [newline]

def isModeLine (line : Text) : Bool := startsWith (lit "old mode ") line || startsWith (lit "new mode ") line

/-- The lines before the first hunk, without the mode lines. -/
def headerBlock (part : List Text) : List Text := (blocks isHunkHeader part).1.filter (fun line => !isModeLine line)

/-- Indices are natural numbers: a negative one is refused like one past the end. -/
def extractSelectedLinePatch (raw filePath : Text) (hunkIndex : ℕ) (lineIndices : List ℕ) (direction : Direction) : Option Text :=
  if lineIndices = [] ∨ ¬lineIndices.Nodup then none
  else do
    let fileIndex ← (parseDiff raw).findIdx? (fun file => file.path = filePath)
    let file ← (parseDiff raw)[fileIndex]?
    if file.binary ∨ file.status = .renamed ∨ file.status = .untracked then none
    else do
      let hunk ← file.hunks[hunkIndex]?
      if hunk.noNewlineAtEof then none
      else if lineIndices.any (fun i => (hunk.lines[i]?).all (fun l => l.status = .context)) then none
      else do
        let part ← (sections raw)[fileIndex]?
        if (blocks isHunkHeader part).2.length ≤ hunkIndex then none
        else
          let body := (pick direction (fun i => decide (i ∈ lineIndices)) 0 hunk.lines).map render
          if !body.any (fun line => startsWith (lit "+") line || startsWith (lit "-") line) then none
          else
            let oldCount := (body.filter (fun line => !startsWith (lit "+") line)).length
            let newCount := (body.filter (fun line => !startsWith (lit "-") line)).length
            some (joinLines (headerBlock part ++
              patchHeader ⟨hunk.range.oldStart, oldCount, hunk.range.newStart, newCount⟩ (headerSuffix hunk.header) :: body))

/-- The text in the hunk's place with exactly the selected removed lines gone and exactly the selected added lines there. -/
def taken (selected : ℕ → Bool) (n : ℕ) (lines : List GitDiffLine) : List Text :=
  (lines.zipIdx n).filterMap (fun e =>
    if e.1.status = .context ∨ (e.1.status = .added ∧ selected e.2) ∨ (e.1.status = .removed ∧ ¬selected e.2) then some e.1.text
    else none)

section

variable {selected : ℕ → Bool} {direction : Direction}

theorem pick_cons (n : ℕ) (l : GitDiffLine) (lines : List GitDiffLine) :
    pick direction selected n (l :: lines) = (pickLine direction (selected n) l).toList ++ pick direction selected (n + 1) lines := by
  unfold pick
  rw [List.zipIdx_cons, List.filterMap_cons]
  split <;> simp_all

theorem taken_cons (n : ℕ) (l : GitDiffLine) (lines : List GitDiffLine) : taken selected n (l :: lines) =
      (if l.status = .context ∨ (l.status = .added ∧ selected n) ∨ (l.status = .removed ∧ ¬selected n) then [l.text] else []) ++
        taken selected (n + 1) lines := by
  unfold taken
  rw [List.zipIdx_cons, List.filterMap_cons]
  split <;> simp_all

theorem side_pick (selected : ℕ → Bool) : ∀ (n : ℕ) (lines : List GitDiffLine),
    oldSide (pick .stage selected n lines) = oldSide lines ∧ newSide (pick .stage selected n lines) = taken selected n lines ∧
      newSide (pick .unstage selected n lines) = newSide lines ∧
      oldSide (pick .unstage selected n lines) = taken (fun i => !selected i) n lines
  | _, [] => ⟨rfl, rfl, rfl, rfl⟩
  | n, ⟨status, text⟩ :: lines => by
    obtain ⟨h1, h2, h3, h4⟩ := side_pick selected (n + 1) lines
    unfold oldSide newSide at *
    simp only [pick_cons, taken_cons, side_append, side_cons, h1, h2, h3, h4]
    cases status <;> by_cases hs : selected n = true <;> simp [pickLine, hs, side_cons]

theorem taken_append (n : ℕ) (l m : List GitDiffLine) :
    taken selected n (l ++ m) = taken selected n l ++ taken selected (n + l.length) m := by
  simp [taken, List.zipIdx_append]

/-- With no line selected the old side stays; with every changed line selected the new one is there. -/
theorem taken_all : ∀ (n : ℕ) (lines : List GitDiffLine),
    ((∀ i l, lines[i]? = some l → l.status ≠ .context → selected (n + i) = false) → taken selected n lines = oldSide lines) ∧
      ((∀ i l, lines[i]? = some l → l.status ≠ .context → selected (n + i) = true) → taken selected n lines = newSide lines)
  | _, [] => ⟨fun _ => rfl, fun _ => rfl⟩
  | n, ⟨status, text⟩ :: lines => by
    obtain ⟨hnone, hevery⟩ := taken_all (n + 1) lines
    have htail : ∀ {b : Bool}, (∀ i l, (⟨status, text⟩ :: lines)[i]? = some l → l.status ≠ .context → selected (n + i) = b) →
        ∀ i l, lines[i]? = some l → l.status ≠ .context → selected (n + 1 + i) = b := by
      intro b h i l hi hl
      have hat := h (i + 1) l (by rw [List.getElem?_cons_succ]; exact hi) hl
      rwa [show n + 1 + i = n + (i + 1) by omega]
    refine ⟨fun h => ?_, fun h => ?_⟩
    · rw [taken_cons, hnone (htail h)]
      have hat := h 0 ⟨status, text⟩ rfl
      unfold oldSide
      rw [side_cons]
      cases status <;> simp_all
    · rw [taken_cons, hevery (htail h)]
      have hat := h 0 ⟨status, text⟩ rfl
      unfold newSide
      rw [side_cons]
      cases status <;> simp_all

theorem taken_congr {chosen : ℕ → Bool} {k : ℕ} : ∀ (n : ℕ) (lines : List GitDiffLine),
    (∀ i l, lines[i]? = some l → l.status ≠ .context → selected (n + i) = chosen (k + i)) →
      taken selected n lines = taken chosen k lines := by
  intro n lines
  induction lines generalizing n k with
  | nil => intro _; rfl
  | cons l lines ih =>
    intro h
    have hhead := h 0 l rfl
    have htail := ih (n := n + 1) (k := k + 1) (fun i m hi hm => by
      have hat := h (i + 1) m (by rw [List.getElem?_cons_succ]; exact hi) hm
      rwa [show n + 1 + i = n + (i + 1) by omega, show k + 1 + i = k + (i + 1) by omega])
    rw [taken_cons, taken_cons, htail]
    by_cases hl : l.status = .context
    · simp [hl]
    · simp only [Nat.add_zero] at hhead
      rw [hhead hl]

end

theorem behind_append (word s : Text) : behind word (word ++ s) = some s := by
  have hstart : startsWith word (word ++ s) = true := List.isPrefixOf_iff_prefix.2 (List.prefix_append word s)
  rw [behind, if_pos hstart, List.drop_left]

theorem number_natText (n : ℕ) {s : Text} (hs : NoDigit s) : number (natText n ++ s) = some (n, s) := by
  obtain ⟨l, hl, htext, hvalue⟩ : ∃ l, l ≠ [] ∧ natText n = digitUnits l ∧ natValue l = n := by
    unfold natText
    by_cases hn : n = 0
    · exact ⟨[0], by simp, by rw [if_pos hn]; rfl, hn.symm⟩
    · exact ⟨natDigits n, Json.natDigits_ne_nil hn, if_neg hn, Json.natValue_natDigits n⟩
  have htake := Json.takeDigits_digitUnits hs l
  rw [number, htext, htake, if_neg hl, hvalue]

theorem count_rangeText (start n : ℕ) {c : CodeUnit} (s : Text) (hc : Json.digitOf c = none) (hcomma : c ≠ 44) :
    ∃ r, number (rangeText start n ++ c :: s) = some (start, r) ∧ count r = (n, c :: s) := by
  have hnot : NoDigit (c :: s) := Json.noDigit_cons hc s
  unfold rangeText
  by_cases hn : n = 1
  · have hcount : count (c :: s) = (1, c :: s) := by
      have hstart : startsWith (lit ",") (c :: s) = false := by
        show ((44 : CodeUnit) == c && true) = false
        simp [Ne.symm hcomma]
      simp [count, behind, hstart]
    rw [if_pos hn, number_natText start hnot, hn]
    exact ⟨_, rfl, hcount⟩
  · have hfirst : NoDigit (lit "," ++ (natText n ++ c :: s)) := Json.noDigit_cons rfl _
    have hcount : count (lit "," ++ (natText n ++ c :: s)) = (n, c :: s) := by
      rw [count, behind_append, Option.bind_some, number_natText n hnot, Option.getD_some]
    rw [if_neg hn, List.append_assoc, List.append_assoc, number_natText start hfirst]
    exact ⟨_, rfl, hcount⟩

/-- **The header's numbers read back.** -/
theorem parseHunkHeader_patchHeader (range : HunkRange) (suffix : Text) : parseHunkHeader (patchHeader range suffix) = some range := by
  obtain ⟨oldStart, oldCount, newStart, newCount⟩ := range
  obtain ⟨r, hnumber, hcount⟩ :=
    count_rangeText oldStart oldCount (43 :: (rangeText newStart newCount ++ (lit " @@" ++ suffix))) (c := 32) rfl (by decide)
  obtain ⟨r', hnumber', hcount'⟩ := count_rangeText newStart newCount (lit "@@" ++ suffix) (c := 32) rfl (by decide)
  have htext : patchHeader ⟨oldStart, oldCount, newStart, newCount⟩ suffix =
      lit "@@ -" ++ (rangeText oldStart oldCount ++ 32 :: (43 :: (rangeText newStart newCount ++ (lit " @@" ++ suffix)))) := by
    simp only [patchHeader, List.append_assoc]
    rfl
  have hplus : behind (lit " +") (32 :: (43 :: (rangeText newStart newCount ++ (lit " @@" ++ suffix)))) =
      some (rangeText newStart newCount ++ (lit " @@" ++ suffix)) := behind_append (lit " +") _
  have hend : startsWith (lit " @@") (32 :: (lit "@@" ++ suffix)) = true := List.isPrefixOf_iff_prefix.2 ⟨suffix, rfl⟩
  have hlast : (lit " @@" ++ suffix : Text) = 32 :: (lit "@@" ++ suffix) := rfl
  rw [hlast] at htext hplus hnumber hcount
  rw [htext, parseHunkHeader, behind_append]
  simp [hnumber, hcount, hplus, hnumber', hcount', hend]

theorem not_mem_of_mem_splitOn {α : Type*} [BEq α] [LawfulBEq α] {a : α} : ∀ (s : List α), ∀ l ∈ s.splitOn a, a ∉ l
  | [], l, hl => by
    rw [List.splitOn_nil, List.mem_singleton] at hl
    simp [hl]
  | x :: s, l, hl => by
    have ih := not_mem_of_mem_splitOn (a := a) s
    rw [List.splitOn_cons_eq_if_modifyHead] at hl
    split at hl
    · rcases List.mem_cons.1 hl with rfl | hl
      · exact List.not_mem_nil
      · exact ih l hl
    · rename_i hx
      cases hparts : s.splitOn a with
      | nil => exact absurd hparts (List.splitOn_ne_nil a s)
      | cons first parts =>
        rw [hparts] at hl ih
        rcases List.mem_cons.1 hl with rfl | hl
        · have hfirst := ih first List.mem_cons_self
          intro hmem
          rcases List.mem_cons.1 hmem with rfl | hmem
          · exact hx (beq_self_eq_true _)
          · exact hfirst hmem
        · exact ih l (List.mem_cons_of_mem first hl)

theorem splitOn_joinLines {lines : List Text} (hlines : ∀ l ∈ lines, newline ∉ l) (hne : lines ≠ []) :
    (joinLines lines).splitOn newline = lines ++ [[]] := by
  have hjoin : joinLines lines = [newline].intercalate (lines ++ [[]]) := by
    unfold joinLines
    induction lines with
    | nil => exact absurd rfl hne
    | cons l rest ih =>
      cases rest with
      | nil => simp [List.intercalate]
      | cons m rest =>
        have hrest := ih (fun x hx => hlines x (List.mem_cons_of_mem l hx)) (List.cons_ne_nil m rest)
        simp only [List.cons_append, List.intercalate_cons_cons] at hrest ⊢
        rw [← hrest]
        simp
  rw [hjoin]
  refine List.splitOn_intercalate newline (fun l hl => ?_) (by simp)
  rcases List.mem_append.1 hl with hl | hl
  · exact hlines l hl
  · simp [List.mem_singleton.1 hl]

/-- **A patch with one hunk** is read as one file with that hunk. -/
theorem parseDiff_one {line header : Text} {range : HunkRange} (before body : List Text) (hline : isFileStart line = true)
    (hheader : parseHunkHeader header = some range) (hstart : isFileStart header = false)
    (hbefore : ∀ l ∈ before, isFileStart l = false ∧ isHunkHeader l = false)
    (hbody : ∀ l ∈ body, isFileStart l = false ∧ isHunkHeader l = false)
    (hlines : ∀ l ∈ line :: before ++ header :: body, newline ∉ l) :
    ∃ file, parseDiff (joinLines (line :: before ++ header :: body)) = [file] ∧
      file.hunks = [readBody ⟨header, range, [], false⟩ (body ++ [[]])] := by
  have hbody' : ∀ l ∈ body ++ [[]], isFileStart l = false ∧ isHunkHeader l = false := by
    intro l hl
    rcases List.mem_append.1 hl with hl | hl
    · exact hbody l hl
    · rw [List.mem_singleton.1 hl]
      exact ⟨rfl, rfl⟩
  have hsections : sections (joinLines (line :: before ++ header :: body)) = [line :: (before ++ header :: (body ++ [[]]))] := by
    unfold sections
    rw [splitOn_joinLines hlines (by simp)]
    have hone := blocks_one (p := isFileStart) (x := line) (m := before ++ header :: (body ++ [[]])) []
      (List.forall_mem_nil _) hline (fun y hy => by
        rcases List.mem_append.1 hy with hy | hy
        · exact (hbefore y hy).1
        · rcases List.mem_cons.1 hy with rfl | hy
          · exact hstart
          · exact (hbody' y hy).1)
    simpa using congrArg Prod.snd hone
  have hisHeader : isHunkHeader header = true := by simp [isHunkHeader, hheader]
  refine ⟨readSection (line :: (before ++ header :: (body ++ [[]]))), by rw [parseDiff_sections, hsections]; rfl, ?_⟩
  rw [readSection_hunks, blocks_one before (fun y hy => (hbefore y hy).2) hisHeader (fun y hy => (hbody' y hy).2)]
  simp [readHunk, openHunk, hheader]

end Wollipog.Patches

import Wollipog.Patches.Selected
/-!
# Hunks — one hunk's patch, applied where its block is found

`extractHunkPatch` cuts a hunk out verbatim, so its header still counts the lines of hunks that the index does not
have.
-/
namespace Wollipog.Patches

open Json (Text CodeUnit)
open Reviews (lit)
open Blocks

def extractHunkPatch (raw filePath : Text) (hunkIndex : ℕ) : Option Text := do
  let n ← (parseDiff raw).findIdx? (fun file => file.path = filePath)
  let file ← (parseDiff raw)[n]?
  if file.binary ∨ file.status = .renamed then none
  else do
    let hunk ← file.hunks[hunkIndex]?
    let part ← (sections raw)[n]?
    let hunkBlock ← (blocks isHunkHeader part).2[hunkIndex]?
    if hunkBlock.head? ≠ some hunk.header then none
    else some (joinLines ((headerBlock part ++ hunkBlock).rdropWhile (fun line => line = [])))

theorem readBody_blank : ∀ (lines blanks : List Text) (hunk : GitHunk), (∀ l ∈ blanks, l = []) →
    readBody hunk (lines ++ blanks) = readBody hunk lines
  | [], [], _, _ => rfl
  | [], blank :: blanks, hunk, h => by
    have hskip : readBody hunk (blank :: blanks) = readBody hunk blanks := by rw [h blank List.mem_cons_self]; rfl
    rw [List.nil_append, hskip]
    exact readBody_blank [] blanks hunk (fun l hl => h l (List.mem_cons_of_mem blank hl))
  | line :: lines, blanks, hunk, h => by
    rw [List.cons_append, readBody, readBody]
    split
    · rfl
    · split
      · exact readBody_blank lines blanks _ h
      · rfl

theorem rdropWhile_append {α : Type*} {p : α → Bool} (l : List α) {x : α} (m : List α) (hx : p x = false) :
    (l ++ x :: m).rdropWhile p = l ++ x :: m.rdropWhile p := by
  induction m using List.reverseRecOn with
  | nil => simp [hx]
  | append_singleton m y ih =>
    have hsplit : l ++ x :: (m ++ [y]) = (l ++ x :: m) ++ [y] := by simp
    rw [hsplit, List.rdropWhile_concat, List.rdropWhile_concat, ih]
    split <;> simp

/-- The first file under the path, with text hunks and no rename. -/
def TextFile (raw filePath : Text) (file : GitDiffFile) : Prop :=
  ∃ n, (parseDiff raw).findIdx? (fun file => file.path = filePath) = some n ∧ (parseDiff raw)[n]? = some file ∧
    file.binary = false ∧ file.status ≠ .renamed

/-- **The patch reads back as exactly the hunk.** -/
theorem extractHunkPatch_verbatim {raw filePath : Text} {file : GitDiffFile} {hunkIndex : ℕ} {h : GitHunk}
    (hf : TextFile raw filePath file) (hhunk : file.hunks[hunkIndex]? = some h) :
    ∃ patch file', extractHunkPatch raw filePath hunkIndex = some patch ∧ parseDiff patch = [file'] ∧ file'.hunks = [h] := by
  obtain ⟨n, hindex, hfile, hbinary, hrenamed⟩ := hf
  obtain ⟨line, rest, header, body, range, hpart, hline, hrest, hblocks, hblock, hrange, hsub, hbody, hread, hbreaks⟩ :=
    section_of_hunk hfile hhunk
  obtain ⟨before, hbefore, hhb⟩ := headerBlock_cons hline hblocks
  have hheader : h.header = header := by rw [hread]; exact (readBody_header body _).1
  have hnonblank : decide (header = []) = false := by
    rw [decide_eq_false_iff_not]
    rintro rfl
    cases hrange
  have hextract : extractHunkPatch raw filePath hunkIndex =
      some (joinLines (line :: before ++ header :: body.rdropWhile (fun line => line = []))) := by
    have hdrop := rdropWhile_append (p := fun line : Text => line = []) (line :: before) body hnonblank
    rw [extractHunkPatch]
    simp only [hindex, hfile, hhunk, hpart, hblocks, hblock, Option.bind_eq_bind, Option.bind_some, hbinary, hrenamed,
      Bool.false_eq_true, or_self, if_false, List.head?_cons, hheader, ne_eq, not_true_eq_false, hbefore]
    rw [← hdrop]
  have hkept : ∀ l ∈ body.rdropWhile (fun line => line = []), l ∈ body := fun l hl => (List.rdropWhile_prefix _ body).subset hl
  obtain ⟨file', hparse, hhunks⟩ := parseDiff_one before (body.rdropWhile (fun line => line = [])) hline hrange
    (hrest header (hsub header List.mem_cons_self)) (fun l hl => ⟨hrest l (mem_before rest l (hhb l hl)), before_not rest l (hhb l hl)⟩)
    (fun l hl => ⟨hrest l (hsub l (List.mem_cons_of_mem header (hkept l hl))), hbody l (hkept l hl)⟩) (fun l hl => by
      rcases List.mem_append.1 hl with hl | hl
      · rcases List.mem_cons.1 hl with rfl | hl
        · exact hbreaks l List.mem_cons_self
        · exact hbreaks l (List.mem_cons_of_mem line (mem_before rest l (hhb l hl)))
      · rcases List.mem_cons.1 hl with rfl | hl
        · exact hbreaks l (List.mem_cons_of_mem line (hsub l List.mem_cons_self))
        · exact hbreaks l (List.mem_cons_of_mem line (hsub l (List.mem_cons_of_mem header (hkept l hl)))))
  refine ⟨_, file', hextract, hparse, ?_⟩
  have hblanks : ∀ l ∈ body.rtakeWhile (fun line => line = []), l = [] := fun l hl => by
    simpa using List.mem_rtakeWhile_imp hl
  have hsame : readBody ⟨header, range, [], false⟩ (body.rdropWhile (fun line => line = []) ++ [[]]) = h := by
    have hsplit := readBody_blank (body.rdropWhile (fun line => line = [])) _ ⟨header, range, [], false⟩ hblanks
    rw [List.rdropWhile_append_rtakeWhile] at hsplit
    rw [readBody_blank _ [[]] _ (fun l hl => List.mem_singleton.1 hl), ← hsplit, ← hread]
  rw [hhunks, hsame]

/-! ## git apply -/

/-- The block of lines stands at a place; it stands at the start, or the end, where it has no context there. -/
def matchesAt (lines : List GitDiffLine) (text : List Text) (p : ℕ) : Bool :=
  decide ((text.drop p).take (oldSide lines).length = oldSide lines) && decide (p + (oldSide lines).length ≤ text.length) &&
    (!lines.head?.any (fun l => l.status ≠ .context) || decide (p = 0)) &&
    (!lines.getLast?.any (fun l => l.status ≠ .context) || decide (p + (oldSide lines).length = text.length))

/-- The places in the order they are tried: the first one, then further and further away. -/
def visits (start n : ℕ) : List ℕ :=
  start :: (List.range n).flatMap (fun d => (start + (d + 1)) :: (if d + 1 ≤ start then [start - (d + 1)] else []))

def found (lines : List GitDiffLine) (start : ℕ) (text : List Text) : Option ℕ :=
  (visits (start - 1) (start + text.length)).find? (matchesAt lines text)

def replaceAt (lines : List GitDiffLine) (text : List Text) (p : ℕ) : List Text :=
  text.take p ++ newSide lines ++ text.drop (p + (oldSide lines).length)

/-- `start` is the header's line of the side that the patch leaves behind. -/
def gitApply (lines : List GitDiffLine) (start : ℕ) (text : List Text) : Option (List Text) :=
  (found lines start text).map (replaceAt lines text)

theorem mem_visits {start n p : ℕ} (h : p ≤ start + n) (hn : start ≤ n) : p ∈ visits start n := by
  unfold visits
  rcases Nat.lt_trichotomy p start with hlt | rfl | hlt
  · refine List.mem_cons_of_mem _ (List.mem_flatMap.2 ⟨start - p - 1, List.mem_range.2 (by omega), List.mem_cons_of_mem _ ?_⟩)
    rw [if_pos (by omega), List.mem_singleton]
    omega
  · exact List.mem_cons_self
  · refine List.mem_cons_of_mem _ (List.mem_flatMap.2 ⟨p - start - 1, List.mem_range.2 (by omega), ?_⟩)
    rw [show start + (p - start - 1 + 1) = p by omega]
    exact List.mem_cons_self

/-- The lines of a text from `a` up to `b`. -/
def between (text : List Text) (a b : ℕ) : List Text := (text.drop a).take (b - a)

/-- Over the lines from `a` to `b` the new side shifts as the old one does. -/
def Shifts (lines : List GitDiffLine) (text : List Text) (a b : ℕ) : Prop :=
  between text a b ++ newSide lines = newSide lines ++ between text (a + (oldSide lines).length) (b + (oldSide lines).length)

theorem take_between (text : List Text) {a b : ℕ} (h : a ≤ b) : text.take b = text.take a ++ between text a b := by
  unfold between
  rw [← List.take_add, Nat.add_sub_cancel' h]

theorem drop_between (text : List Text) {a b : ℕ} (h : a ≤ b) : text.drop a = between text a b ++ text.drop b := by
  unfold between
  conv_lhs => rw [← List.take_append_drop (b - a) (text.drop a)]
  rw [List.drop_drop, Nat.add_sub_cancel' h]

/-- **Two places make one text** exactly where the new side shifts over the lines between them. -/
theorem replaceAt_eq_iff (lines : List GitDiffLine) (text : List Text) {a b : ℕ} (h : a ≤ b) :
    replaceAt lines text b = replaceAt lines text a ↔ Shifts lines text a b := by
  have hrest := drop_between text (Nat.add_le_add_right h (oldSide lines).length)
  unfold replaceAt Shifts
  rw [take_between text h, hrest]
  simp only [List.append_assoc]
  rw [List.append_cancel_left_eq, ← List.append_assoc, ← List.append_assoc (newSide lines), List.append_cancel_right_eq]

/-- The place that is tried first is the hunk's own, or the new side shifts over the lines between the two. -/
def OwnPlace (lines : List GitDiffLine) (start : ℕ) (text : List Text) (own : ℕ) : Prop :=
  ∀ p, found lines start text = some p → p = own ∨ Shifts lines text (min p own) (max p own)

/-- **Where git finds the block**, and what follows from it. -/
theorem gitApply_iff {lines : List GitDiffLine} {start own : ℕ} {text : List Text} (hown : matchesAt lines text own = true) :
    gitApply lines start text = some (replaceAt lines text own) ↔ OwnPlace lines start text own := by
  have hle : own + (oldSide lines).length ≤ text.length := by
    simp only [matchesAt, Bool.and_eq_true, decide_eq_true_eq] at hown
    exact hown.1.1.2
  obtain ⟨p, hp⟩ : ∃ p, found lines start text = some p := by
    refine Option.isSome_iff_exists.1 (List.find?_isSome.2 ⟨own, mem_visits (by omega) (by omega), hown⟩)
  unfold gitApply OwnPlace
  rw [hp, Option.map_some, Option.some.injEq]
  have hiff : replaceAt lines text p = replaceAt lines text own ↔ p = own ∨ Shifts lines text (min p own) (max p own) := by
    rcases Nat.lt_trichotomy p own with hlt | rfl | hlt
    · rw [Nat.min_eq_left hlt.le, Nat.max_eq_right hlt.le, ← replaceAt_eq_iff lines text hlt.le]
      exact ⟨fun h => .inr h.symm, fun h => h.elim (fun h => absurd h hlt.ne) Eq.symm⟩
    · simp
    · rw [Nat.min_eq_right hlt.le, Nat.max_eq_left hlt.le, ← replaceAt_eq_iff lines text hlt.le]
      exact ⟨.inr, fun h => h.elim (fun h => absurd h hlt.ne') id⟩
  rw [hiff]
  exact ⟨fun h q hq => by cases hq; exact h, fun h => h p rfl⟩

/-- A hunk of a file, behind the lines that no hunk changes. -/
structure Piece where
  gap : List Text
  lines : List GitDiffLine

/-- The file with the chosen hunks applied: HEAD with none of them, the worktree with all. -/
def textWith (applied : ℕ → Bool) (n : ℕ) (tail : List Text) : List Piece → List Text
  | [] => tail
  | p :: ps => p.gap ++ (if applied n then newSide p.lines else oldSide p.lines) ++ textWith applied (n + 1) tail ps

/-- What stands before the hunk `i`. -/
def textBefore (applied : ℕ → Bool) (n : ℕ) : List Piece → ℕ → List Text
  | [], _ => []
  | p :: _, 0 => p.gap
  | p :: ps, i + 1 => p.gap ++ (if applied n then newSide p.lines else oldSide p.lines) ++ textBefore applied (n + 1) ps i

/-- A hunk lacks context only where the file begins or ends. -/
def Contextual (tail : List Text) (pieces : List Piece) : Prop :=
  ∀ i p, pieces[i]? = some p → (p.lines.head?.any (fun l => l.status ≠ .context) = true → i = 0 ∧ p.gap = []) ∧
    (p.lines.getLast?.any (fun l => l.status ≠ .context) = true → i + 1 = pieces.length ∧ tail = [])

theorem textWith_split (applied : ℕ → Bool) (tail : List Text) : ∀ (pieces : List Piece) (n i : ℕ) (p : Piece), pieces[i]? = some p →
    ∃ after, (∀ applied', (∀ j, j ≠ n + i → applied' j = applied j) → textWith applied' n tail pieces =
        textBefore applied n pieces i ++ (if applied' (n + i) then newSide p.lines else oldSide p.lines) ++ after) ∧
      (i + 1 = pieces.length → after = tail)
  | [], _, _, _, h => by simp at h
  | q :: pieces, n, 0, p, h => by
    obtain rfl : q = p := by simpa using h
    refine ⟨textWith applied (n + 1) tail pieces, fun applied' hsame => ?_, fun hlast => ?_⟩
    · have hrest : ∀ (ps : List Piece) (k : ℕ), n < k → textWith applied' k tail ps = textWith applied k tail ps := by
        intro ps
        induction ps with
        | nil => intro _ _; rfl
        | cons x ps ih => intro k hk; rw [textWith, textWith, ih (k + 1) (by omega), hsame k (by omega)]
      rw [textWith, hrest pieces (n + 1) (by omega)]
      rfl
    · have hnil : pieces = [] := List.length_eq_zero_iff.1 (by simpa using hlast.symm)
      rw [hnil]
      rfl
  | q :: pieces, n, i + 1, p, h => by
    obtain ⟨after, hafter, htail⟩ := textWith_split applied tail pieces (n + 1) i p (by simpa using h)
    refine ⟨after, fun applied' hsame => ?_, fun hlast => htail (by simpa using hlast)⟩
    have hrest := hafter applied' (fun j hj => hsame j (by omega))
    rw [show n + 1 + i = n + (i + 1) by omega] at hrest
    rw [textWith, hrest, textBefore, hsame n (by omega)]
    simp

/-- A hunk's own place in a text where one of its sides stands. -/
theorem matchesAt_own (lines : List GitDiffLine) (before after : List Text)
    (hopen : lines.head?.any (fun l => l.status ≠ .context) = true → before = [])
    (hclose : lines.getLast?.any (fun l => l.status ≠ .context) = true → after = []) :
    matchesAt lines (before ++ oldSide lines ++ after) before.length = true ∧
      replaceAt lines (before ++ oldSide lines ++ after) before.length = before ++ newSide lines ++ after := by
  refine ⟨?_, by simp [replaceAt, ← List.drop_drop]⟩
  simp only [matchesAt, Bool.and_eq_true, Bool.or_eq_true, decide_eq_true_eq, Bool.not_eq_true']
  refine ⟨⟨⟨by simp, by simp⟩, ?_⟩, ?_⟩
  · by_cases h : lines.head?.any (fun l => l.status ≠ .context) = true
    · exact .inr (by rw [hopen h]; rfl)
    · exact .inl (by simpa using h)
  · by_cases h : lines.getLast?.any (fun l => l.status ≠ .context) = true
    · exact .inr (by rw [hclose h]; simp)
    · exact .inl (by simpa using h)

theorem reversed_changes (lines : List GitDiffLine) :
    (reversed lines).head?.any (fun l => l.status ≠ .context) = lines.head?.any (fun l => l.status ≠ .context) ∧
      (reversed lines).getLast?.any (fun l => l.status ≠ .context) = lines.getLast?.any (fun l => l.status ≠ .context) := by
  have hstatus : ∀ l : GitDiffLine, l.reversed.status = .context ↔ l.status = .context := by
    rintro ⟨status, text⟩
    cases status <;> simp [GitDiffLine.reversed, LineStatus.reversed]
  unfold reversed
  rw [List.head?_map, List.getLast?_map]
  constructor
  · cases lines.head? <;> simp [hstatus]
  · cases lines.getLast? <;> simp [hstatus]

/-- **Staging or unstaging one hunk** gives the index with or without it exactly where the search ends at the hunk's own
place, or at one the new side shifts to. -/
theorem hunk_staging_iff {raw filePath : Text} {file : GitDiffFile} {tail : List Text} {pieces : List Piece}
    (hf : TextFile raw filePath file) (hpieces : file.hunks.map GitHunk.lines = pieces.map Piece.lines)
    (hcontext : Contextual tail pieces) (staged : ℕ → Bool) {i : ℕ} {h : GitHunk} (hh : file.hunks[i]? = some h) :
    ∃ patch file', extractHunkPatch raw filePath i = some patch ∧ parseDiff patch = [file'] ∧ file'.hunks = [h] ∧
      (staged i = false →
        (gitApply h.lines h.range.newStart (textWith staged 0 tail pieces) =
            some (textWith (Function.update staged i true) 0 tail pieces) ↔
          OwnPlace h.lines h.range.newStart (textWith staged 0 tail pieces) (textBefore staged 0 pieces i).length)) ∧
      (staged i = true →
        (gitApply (reversed h.lines) h.range.oldStart (textWith staged 0 tail pieces) =
            some (textWith (Function.update staged i false) 0 tail pieces) ↔
          OwnPlace (reversed h.lines) h.range.oldStart (textWith staged 0 tail pieces) (textBefore staged 0 pieces i).length)) := by
  obtain ⟨patch, file', hextract, hparse, hhunks⟩ := extractHunkPatch_verbatim hf hh
  obtain ⟨p, hp, hlines⟩ : ∃ p, pieces[i]? = some p ∧ p.lines = h.lines := by
    have hat := congrArg (fun l => l[i]?) hpieces
    simp only [List.getElem?_map, hh, Option.map_some] at hat
    exact Option.map_eq_some_iff.1 hat.symm
  obtain ⟨after, hsplit, htail⟩ := textWith_split staged tail pieces 0 i p hp
  obtain ⟨hopens, hcloses⟩ := hcontext i p hp
  rw [hlines] at hsplit hopens hcloses
  have hbefore : h.lines.head?.any (fun l => l.status ≠ .context) = true → textBefore staged 0 pieces i = [] := by
    intro hchange
    obtain ⟨rfl, hgap⟩ := hopens hchange
    cases pieces with
    | nil => cases hp
    | cons q pieces =>
      obtain rfl : q = p := by simpa using hp
      exact hgap
  have hafter : h.lines.getLast?.any (fun l => l.status ≠ .context) = true → after = [] := fun hchange => by
    rw [htail (hcloses hchange).1, (hcloses hchange).2]
  have hindex := hsplit staged (fun _ _ => rfl)
  have hupdate : ∀ b, textWith (Function.update staged i b) 0 tail pieces =
      textBefore staged 0 pieces i ++ (if b then newSide h.lines else oldSide h.lines) ++ after := by
    intro b
    rw [hsplit (Function.update staged i b) (fun j hj => Function.update_of_ne (by omega) _ _)]
    simp
  refine ⟨patch, file', hextract, hparse, hhunks, fun hs => ?_, fun hs => ?_⟩
  · rw [Nat.zero_add, hs] at hindex
    simp only [Bool.false_eq_true, if_false] at hindex
    obtain ⟨hown, hreplace⟩ := matchesAt_own _ _ _ hbefore hafter
    rw [hupdate true, hindex, if_pos rfl, ← hreplace]
    exact gitApply_iff hown
  · rw [Nat.zero_add, hs] at hindex
    simp only [if_true] at hindex
    obtain ⟨hheads, hlasts⟩ := reversed_changes h.lines
    obtain ⟨hown, hreplace⟩ := matchesAt_own (reversed h.lines) (textBefore staged 0 pieces i) after
      (by rw [hheads]; exact hbefore) (by rw [hlasts]; exact hafter)
    rw [oldSide_reversed] at hown hreplace
    rw [newSide_reversed] at hreplace
    rw [hupdate false, hindex, if_neg Bool.false_ne_true, ← hreplace]
    exact gitApply_iff hown

def repeatedDiff : Text :=
  lit "diff --git a/f b/f\n--- a/f\n+++ b/f\n@@ -1,3 +1,4 @@\n+a\n x\n x\n x\n@@ -8,6 +9,7 @@\n x\n x\n x\n+b\n x\n x\n x\n"

def xs (n : ℕ) : List GitDiffLine := List.replicate n ⟨.context, lit "x"⟩

def firstLines : List GitDiffLine := ⟨.added, lit "a"⟩ :: xs 3

def secondLines : List GitDiffLine := xs 3 ++ ⟨.added, lit "b"⟩ :: xs 3

def repeatedFile : GitDiffFile :=
  ⟨lit "f", none, .modified, false, [⟨lit "@@ -1,3 +1,4 @@", ⟨1, 3, 1, 4⟩, firstLines, false⟩,
    ⟨lit "@@ -8,6 +9,7 @@", ⟨8, 6, 9, 7⟩, secondLines, false⟩]⟩

def repeatedPieces : List Piece := [⟨[], firstLines⟩, ⟨List.replicate 4 (lit "x"), secondLines⟩]

def repeatedTail : List Text := List.replicate 7 (lit "x")

theorem textFile_repeated : TextFile repeatedDiff (lit "f") repeatedFile :=
  ⟨0, by decide +kernel, by decide +kernel, rfl, by decide⟩

theorem contextual_repeated : Contextual repeatedTail repeatedPieces
  | 0, p, hp => by
    cases hp
    exact ⟨fun _ => ⟨rfl, rfl⟩, fun h => absurd h (by decide)⟩
  | 1, p, hp => by
    cases hp
    exact ⟨fun h => absurd h (by decide), fun h => absurd h (by decide)⟩

/-- The second hunk, staged before the first one, lands a line too low. -/
theorem second_hunk_misplaced : ∃ patch file' h, repeatedFile.hunks[1]? = some h ∧
    extractHunkPatch repeatedDiff (lit "f") 1 = some patch ∧ parseDiff patch = [file'] ∧ file'.hunks = [h] ∧
    gitApply h.lines h.range.newStart (textWith (fun _ => false) 0 repeatedTail repeatedPieces) ≠
      some (textWith (Function.update (fun _ => false) 1 true) 0 repeatedTail repeatedPieces) := by
  obtain ⟨patch, file', hextract, hparse, hhunks⟩ := extractHunkPatch_verbatim textFile_repeated (show repeatedFile.hunks[1]? = some _ from rfl)
  exact ⟨patch, file', _, rfl, hextract, hparse, hhunks, by decide +kernel⟩

/-- Once the first hunk is staged, the second one lands in its place. -/
theorem hunk_staging_iff_repeated : ∃ patch, extractHunkPatch repeatedDiff (lit "f") 1 = some patch ∧
    gitApply secondLines 9 (textWith (fun i => i == 0) 0 repeatedTail repeatedPieces) =
      some (textWith (Function.update (fun i => i == 0) 1 true) 0 repeatedTail repeatedPieces) := by
  obtain ⟨patch, file', hextract, -, -, hstage, -⟩ :=
    hunk_staging_iff textFile_repeated (by decide) contextual_repeated (fun i => i == 0) (i := 1) rfl
  refine ⟨patch, hextract, (hstage rfl).2 (fun p hp => .inl ?_)⟩
  have hplace : found secondLines 9 (textWith (fun i => i == 0) 0 repeatedTail repeatedPieces) = some 8 := by decide +kernel
  exact Option.some.inj (hp.symm.trans hplace)

end Wollipog.Patches
